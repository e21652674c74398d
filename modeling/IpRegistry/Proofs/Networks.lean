import IpRegistry.Proofs.Field.Sections

namespace IpRegistry

open Pattern

namespace Whois

/-- The lines of an answer that name networks. -/
def networkLine : Registry → Pattern
  | .arin => arinBlocks
  | .lacnic => lacnicBlocks
  | _ => otherBlocks

theorem sublist_arinHeadersFrom (cs : List Char) (ranges : List (Nat × String))
    (previousEnd : Nat) (found : List Match) :
    ((arinHeadersFrom cs ranges previousEnd found).map Header.span).Sublist
      (found.map Match.whole) := by
  induction found generalizing previousEnd with
  | nil => exact .slnil
  | cons m found ih =>
      rw [arinHeadersFrom]
      split
      · exact (ih _).cons_cons _
      · exact (ih _).cons _

theorem sublist_headers (registry : Registry) (cs : List Char) :
    ((headers registry cs).map Header.span).Sublist ((networkLine registry).marks cs) := by
  have hother : ((otherHeaders cs).map Header.span).Sublist (otherBlocks.marks cs) := by
    refine Field.sublist_filterMap (fun m h hm => ?_) _
    rw [otherHeader?] at hm
    split at hm <;> cases hm
    rfl
  cases registry with
  | arin => exact sublist_arinHeadersFrom ..
  | lacnic =>
      refine Field.sublist_filterMap (fun m h hm => ?_) _
      rw [lacnicHeader?] at hm
      split at hm <;> cases hm
      rfl
  | ripencc | apnic | afrinic => exact hother

end Whois

theorem Origin.sublist_headers (form : Origin.Form) (cs : List Char) :
    ((Origin.headers form cs).map Origin.Header.span).Sublist
      ((Origin.routeLine form).marks cs) := by
  refine Field.sublist_filterMap (fun m h hm => ?_) _
  split at hm <;> cases hm
  rfl

namespace National

/-- The lines of a page that name networks. -/
def networkLine : NationalRegistry → Pattern
  | .jpnic => jpnicLine
  | .krnic => krnicLine

theorem sublist_headers (registry : NationalRegistry) (cs : List Char) :
    ((headers registry cs).map Whois.Header.span).Sublist ((networkLine registry).marks cs) := by
  cases registry with
  | jpnic =>
      refine Field.sublist_filterMap (fun m h hm => ?_) _
      rw [jpnicHeader?] at hm
      split at hm <;> cases hm
      rfl
  | krnic =>
      refine Field.sublist_filterMap (fun m h hm => ?_) _
      rw [krnicHeader?] at hm
      split at hm <;> cases hm
      rfl

end National

/-- Every network of an answer of a registry, of an answer of a routing registry and of a page of a
national registry is read from the block between its own line and the next line that names a
network. This is the block up to the next line of this kind if that line names a network, and longer
if it does not. Only a page of a national registry can hold a date that leads out of the calendar,
and such a page gives no networks. -/
theorem networks_readByBlocks (wanted : Option (List String)) :
    (∀ (registry : Registry) (answer : String),
      Field.ReadByBlocks answer.toList ((Whois.networkLine registry).marks answer.toList)
        (Whois.table registry) wanted Whois.Header.span
        (fun h fields =>
          ({ cidr := some (Whois.blockList h.blocks), range := h.range } :
            Whois.Allocation).apply fields)
        (Whois.headers registry answer.toList) (some (Whois.allocations registry answer wanted))) ∧
    (∀ (form : Origin.Form) (answer : String),
      Field.ReadByBlocks answer.toList ((Origin.routeLine form).marks answer.toList)
        (Origin.table form) wanted Origin.Header.span
        (fun h fields =>
          { cidr := some h.block.text
            description := fields.text? "description"
            maintainer := fields.text? "maintainer"
            updated := fields.text? "updated"
            source := fields.text? "source" })
        (Origin.headers form answer.toList) (some (Origin.routes form answer wanted))) ∧
    ∀ (registry : NationalRegistry) (page : String),
      Field.ReadByBlocks (page.toList ++ ['\n'])
        ((National.networkLine registry).marks (page.toList ++ ['\n']))
        (National.table registry) wanted Whois.Header.span (National.Entry.ofFields registry)
        (National.headers registry (page.toList ++ ['\n']))
        (National.entries? registry page wanted) := by
  refine ⟨fun registry answer => ?_, fun form answer => ?_, fun registry page => ?_⟩
  · have hline : (Whois.networkLine registry).consumes = true := by cases registry <;> decide
    exact Field.readByBlocks_of_unshifted (Pattern.marks_findAll hline _) (.registry registry)
      (by cases registry <;> exact Field.Table.hourOffset_of_contiguousTable) wanted _
      (Whois.sublist_headers registry _)
  · have hline : (Origin.routeLine form).consumes = true := by cases form <;> decide
    exact Field.readByBlocks_of_unshifted (Pattern.marks_findAll hline _) (.routes form)
      Field.Table.hourOffset_of_contiguousTable wanted _
      (Origin.sublist_headers form _)
  · have hline : (National.networkLine registry).consumes = true := by cases registry <;> decide
    exact Field.readByBlocks (Pattern.marks_findAll hline _) (.national registry) wanted _
      (National.sublist_headers registry _)

theorem Field.scan_of_next_eq_none {find : Field.Finder} {window : List Char} {pos : Nat}
    {m : Match} (hpos : pos ≤ Text.byteLength window) (hm : find window pos = some m)
    (hnext : find window (Field.resume window m pos) = none) (contiguous : Bool) :
    Field.scan find window contiguous none pos = (Field.capture window m).toList := by
  have hrest : Field.scan find window contiguous (some (Field.logicalEnd m))
      (Field.resume window m pos) = [] := by
    rw [Field.scan, hnext]
    split <;> rfl
  rw [Field.scan, if_pos hpos, hm]
  simp [Field.isAdjacent, hrest]

/-- The fields behind a line that names no route are read as those of the route before it. -/
theorem routes_keep_skipped_fields :
    let answer := "route: 1.0.0.0/8\nroute: x\ndescr: Skipped\n"
    let marks := (Origin.routeLine .plain).marks answer.toList
    Origin.routes .plain answer (some ["description"]) =
        [{ cidr := some "1.0.0.0/8", description := some "Skipped" }] ∧
      marks = [⟨0, 16⟩, ⟨17, 25⟩] ∧ Field.block answer.toList marks ⟨0, 16⟩ = ['\n'] := by
  intro answer marks
  let cs := answer.toList
  let line := Origin.routeLine .plain
  let first : Match := ⟨⟨0, 16⟩, [("val", ⟨7, 16⟩)]⟩
  let second : Match := ⟨⟨17, 25⟩, [("val", ⟨24, 25⟩)]⟩
  have hlength : Text.byteLength cs = 41 := by decide +kernel
  have hfound : line.findAll cs = [first, second] := by
    have hfirst : line.find cs 0 = some first := by
      rw [find_eq_head?]
      decide +kernel
    have hsecond : line.find cs 16 = some second := by
      rw [find_eq_head?]
      decide +kernel
    have hnone : line.find cs 25 = none := by
      rw [find_eq_head?]
      decide +kernel
    rw [findAll, findAllFrom_of_eq_some (Nat.zero_le _) hfirst (by decide),
      findAllFrom_of_eq_some (by omega) hsecond (by decide), findAllFrom_of_eq_none hnone]
  have hmarks : marks = [⟨0, 16⟩, ⟨17, 25⟩] := congrArg (List.map Match.whole) hfound
  have hheaders : (Origin.headers .plain cs).map (fun h => (h.block.text, h.span)) =
      [("1.0.0.0/8", ⟨0, 16⟩)] := by
    rw [Origin.headers, hfound]
    decide +kernel
  have hfields : (Origin.table .plain).extract cs ⟨16, none⟩ (some ["description"]) =
      [("description", .text "Skipped")] := by
    let pattern := Field.keyed ["descr"] [Field.shortValue, Field.newline]
    have hfind : pattern.find cs 16 = some ⟨⟨26, 41⟩, [("val", ⟨33, 40⟩)]⟩ := by
      rw [find_eq_head?]
      decide +kernel
    have hnext : pattern.find cs 41 = none := by
      rw [find_eq_head?]
      decide +kernel
    have hvalues : Field.values pattern.find cs ⟨16, none⟩ true = ["Skipped"] := by
      have hfloor : Text.floorBoundary cs 16 = 16 := by decide +kernel
      have hwindow : Field.Bounds.window ⟨16, none⟩ cs = cs := Field.window_all cs
      rw [Field.values, hwindow, hfloor, Field.scan_of_next_eq_none (by omega) hfind hnext]
      decide +kernel
    have hfield : (Origin.table .plain).fields.filter
        (fun f => Field.isWanted (some ["description"]) f.name) =
          [⟨"description", pattern, .text⟩] := by
      simp [Origin.table, Whois.contiguousTable, Field.isWanted, pattern, Origin.fieldEnd]
    have hcaptures : (⟨"description", pattern, .text⟩ : Field.Spec).captures true cs ⟨16, none⟩ =
        ["Skipped"] := by
      show (Field.values pattern.find cs ⟨16, none⟩ true).filter (· != "") = _
      rw [hvalues]
      decide
    have hextract : (⟨"description", pattern, .text⟩ : Field.Spec).extract? (Origin.table .plain) cs
        ⟨16, none⟩ = some (.text "Skipped") := by
      rw [Field.Spec.extract?, show (Origin.table .plain).contiguous = true from rfl, hcaptures]
      decide +kernel
    rw [Field.Table.extract, hfield, List.filterMap_cons, hextract]
    rfl
  refine ⟨?_, hmarks, ?_⟩
  · obtain ⟨⟨block, span⟩, hheader, heq⟩ := List.map_eq_singleton_iff.1 hheaders
    obtain ⟨hblock, rfl⟩ := Prod.mk.inj heq
    have hroute : Origin.routes .plain answer (some ["description"]) =
        [{ cidr := some block.text
           description := Field.Map.text? [("description", .text "Skipped")] "description"
           maintainer := Field.Map.text? [("description", .text "Skipped")] "maintainer"
           updated := Field.Map.text? [("description", .text "Skipped")] "updated"
           source := Field.Map.text? [("description", .text "Skipped")] "source" }] := by
      rw [← hfields]
      unfold Origin.routes
      simp only [hheader, cs]
      rfl
    have htext : block.text = "1.0.0.0/8" := hblock
    rw [hroute, htext]
    decide +kernel
  · rw [hmarks]
    decide +kernel

end IpRegistry
