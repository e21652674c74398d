import IpRegistry.National.Tables
import IpRegistry.Origin
import IpRegistry.Proofs.Pattern.Search
import IpRegistry.Proofs.Traverse

namespace IpRegistry.Field

open Pattern (Match)
open Text

variable (front window : List Char) (n pos : Nat) (m : Match)

theorem logicalEnd_shift : logicalEnd (m.shift n) = n + logicalEnd m := by
  rw [logicalEnd, logicalEnd, Match.group?_shift]
  cases m.group? "stop" <;> rfl

theorem isAdjacent_shift (previous : Option Nat) :
    isAdjacent (previous.map (n + ·)) (m.shift n) = isAdjacent previous m := by
  cases previous with
  | none => rfl
  | some stop =>
      show (n + m.whole.start == n + stop + 1) = (m.whole.start == stop + 1)
      rw [Nat.add_assoc, Bool.eq_iff_iff, beq_iff_eq, beq_iff_eq, Nat.add_left_cancel_iff]

theorem resume_shift :
    resume (front ++ window) (m.shift (byteLength front)) (byteLength front + pos) =
      byteLength front + resume window m pos := by
  have hmax : max (byteLength front + m.whole.stop) (byteLength front + pos + 1) =
      byteLength front + max m.whole.stop (pos + 1) := by
    rw [Nat.add_assoc, Nat.add_max_add_left]
  rw [resume, resume, logicalEnd_shift]
  simp only [Match.shift, Pattern.Span.shift, Nat.add_lt_add_iff_left, hmax]
  split
  · rfl
  · exact ceilBoundary_append front window _

theorem capture_shift :
    capture (front ++ window) (m.shift (byteLength front)) = capture window m := by
  rw [capture, capture, Match.text?, Match.text?, Match.group?_shift]
  cases m.group? "val" with
  | none => rfl
  | some s =>
      simp only [Option.map_some, Pattern.Span.shift, slice_append]

/-- A scan of the later part of a text sees what a scan from there on sees in the whole text, if the
matches are the same. -/
theorem scan_append {find : Finder}
    (hfind : ∀ pos, find (front ++ window) (byteLength front + pos) =
      (find window pos).map (Match.shift (byteLength front)))
    (contiguous : Bool) (previous : Option Nat) :
    scan find (front ++ window) contiguous (previous.map (byteLength front + ·))
      (byteLength front + pos) = scan find window contiguous previous pos := by
  induction previous, pos using scan.induct find window contiguous with
  | case1 previous pos hpos hnone =>
      rw [scan, scan, hfind, hnone, byteLength_append]
      simp
  | case2 previous pos hpos m hm hstop =>
      rw [scan, scan, hfind, hm, byteLength_append]
      simp only [Option.map_some, isAdjacent_shift, Nat.add_le_add_iff_left, if_pos hstop]
  | case3 previous pos hpos m hm hgo ih =>
      rw [scan, scan, hfind, hm, byteLength_append]
      simp only [Option.map_some, isAdjacent_shift, capture_shift, resume_shift, logicalEnd_shift,
        Nat.add_le_add_iff_left, Nat.add_lt_add_iff_left, if_pos hpos, if_neg hgo]
      split
      · rename_i hlt
        exact congrArg _ (ih hlt)
      · rfl
  | case4 previous pos hpos =>
      rw [scan, scan, byteLength_append, if_neg hpos, if_neg (by omega)]

theorem window_upTo (front rest : List Char) (start : Nat) :
    Bounds.window ⟨start, some (byteLength front)⟩ (front ++ rest) = front := by
  rw [Bounds.window, Option.getD_some, floorBoundary_byteLength, takeBytes_byteLength]

theorem window_all (cs : List Char) : Bounds.window {} cs = cs := by
  have h := window_upTo cs [] 0
  rw [List.append_nil] at h
  exact h

/-- The values in a window are those in the text that the window shows. -/
theorem values_slice {p : Pattern} (hp : p.looksBehind = false) {cs : List Char} {start stop : Nat}
    (hstart : isBoundary cs start = true) (hstop : isBoundary cs stop = true) (hle : start ≤ stop)
    (contiguous : Bool) :
    values p.find cs ⟨start, some stop⟩ contiguous =
      values p.find (slice cs start stop) {} contiguous := by
  obtain ⟨front, rest, hcs, hfront, hlength⟩ := exists_slice hstart hstop hle
  generalize slice cs start stop = part at *
  subst hcs hfront
  have hwindow : Bounds.window ⟨byteLength front, some stop⟩ (front ++ part ++ rest) =
      front ++ part := by
    rw [show stop = byteLength (front ++ part) by rw [byteLength_append]; omega, window_upTo]
  have hscan := scan_append front part 0 (Pattern.find_append hp front part) contiguous none
  rw [values, values, hwindow, window_all, floorBoundary_byteLength, floorBoundary_zero]
  exact hscan

/-- The tables by which answers and pages are read. -/
inductive Table.InUse : Table → Prop
  | registry (r : Registry) : InUse (Whois.table r)
  | referral : InUse Whois.referralTable
  | routes (form : Origin.Form) : InUse (Origin.table form)
  | national (n : NationalRegistry) : InUse (National.table n)
  | contacts (n : NationalRegistry) : InUse (National.contactTable n)

theorem looksBehind_keyed (keys : List String) (value : List Pattern) :
    (keyed keys value).looksBehind = value.any Pattern.looksBehind := by
  rw [keyed, Pattern.looksBehind_concat, List.any_append, List.any_cons, Pattern.looksBehind_oneOf,
    List.any_map]
  have hkeys : keys.any (Pattern.looksBehind ∘ Pattern.ofText) = false :=
    List.any_eq_false.2 fun _ _ => Bool.false_ne_true
  rw [hkeys]
  rfl

theorem looksBehind_digits (count : Nat) : (digits count).looksBehind = false :=
  Pattern.looksBehind_counted ..

theorem looksBehind_zuluLine (key : String) :
    (keyed [key] [Whois.zuluPattern, restOfLine]).looksBehind = false := by
  have hzulu : Whois.zuluPattern.looksBehind = false := by
    simp [Whois.zuluPattern, Pattern.looksBehind, Pattern.looksBehind_concat, looksBehind_digits,
      Pattern.ofText]
  simp [looksBehind_keyed, hzulu, restOfLine, newline, Pattern.ofText, Pattern.looksBehind]

theorem looksBehind_digitsLine (key : String) :
    (keyed [key] [.many true Pattern.anyChar, .group "val" (digits 8), restOfLine]).looksBehind =
      false := by
  simp [looksBehind_keyed, looksBehind_digits, restOfLine, newline, Pattern.ofText,
    Pattern.looksBehind]

theorem Table.InUse.looksBehind_eq_false {t : Table} (h : t.InUse) :
    ∀ f ∈ t.fields, f.pattern.looksBehind = false := by
  cases h with
  | registry r =>
      cases r with
      | arin | lacnic | afrinic => decide
      | ripencc =>
          simp only [Whois.table, Whois.ripenccTable, Whois.contiguousTable, List.forall_mem_cons,
            looksBehind_zuluLine]
          decide
      | apnic =>
          simp only [Whois.table, Whois.apnicTable, Whois.contiguousTable, List.forall_mem_cons,
            looksBehind_digitsLine]
          decide
  | referral => decide
  | routes form => cases form <;> decide
  | national n => cases n <;> decide
  | contacts n => cases n <;> decide

theorem Table.InUse.names_nodup {t : Table} (h : t.InUse) : t.names.Nodup := by
  cases h with
  | registry r => cases r <;> decide
  | referral => decide
  | routes form => cases form <;> decide
  | national n => cases n <;> decide
  | contacts n => cases n <;> decide

section

variable {cs : List Char} {start stop : Nat} (hstart : isBoundary cs start = true)
  (hstop : isBoundary cs stop = true) (hle : start ≤ stop)

include hstart hstop hle

theorem Spec.captures_slice {f : Spec} (hf : f.pattern.looksBehind = false) (contiguous : Bool) :
    f.captures contiguous cs ⟨start, some stop⟩ = f.captures contiguous (slice cs start stop) {} := by
  rw [captures, captures, values_slice hf hstart hstop hle]

variable {t : Table} (ht : t.InUse) (wanted : Option (List String))

include ht

theorem Table.InUse.extract_slice :
    t.extract cs ⟨start, some stop⟩ wanted = t.extract (slice cs start stop) {} wanted := by
  refine List.filterMap_congr fun f hf => ?_
  have hahead := ht.looksBehind_eq_false f (List.mem_of_mem_filter hf)
  rw [Spec.extract?, Spec.extract?, Spec.captures_slice hstart hstop hle hahead]

theorem Table.InUse.extract?_slice :
    t.extract? cs ⟨start, some stop⟩ wanted = t.extract? (slice cs start stop) {} wanted := by
  have hitems : ∀ f ∈ t.fields.filter fun f => isWanted wanted f.name,
      f.item? t cs ⟨start, some stop⟩ = f.item? t (slice cs start stop) {} := fun f hf => by
    have hahead := ht.looksBehind_eq_false f (List.mem_of_mem_filter hf)
    rw [Spec.item?, Spec.item?, Spec.captures_slice hstart hstop hle hahead]
  rw [extract?, extract?, mapM_congr hitems]

end

/-- Reading a window of a text by a table gives what reading the text in the window gives, so texts
that show the same in their windows give the same fields, or none if a date leads out of the
calendar. -/
theorem extract_window {t : Table} (ht : t.InUse) {cs : List Char} {start stop : Nat}
    (hstart : isBoundary cs start = true) (hstop : isBoundary cs stop = true) (hle : start ≤ stop)
    (wanted : Option (List String)) :
    (t.extract? cs ⟨start, some stop⟩ wanted = t.extract? (slice cs start stop) {} wanted ∧
      t.extract cs ⟨start, some stop⟩ wanted = t.extract (slice cs start stop) {} wanted) ∧
      ∀ (other : List Char) (start' stop' : Nat), isBoundary other start' = true →
        isBoundary other stop' = true → start' ≤ stop' →
        slice other start' stop' = slice cs start stop →
        t.extract? other ⟨start', some stop'⟩ wanted = t.extract? cs ⟨start, some stop⟩ wanted ∧
          t.extract other ⟨start', some stop'⟩ wanted =
            t.extract cs ⟨start, some stop⟩ wanted := by
  have hread := ht.extract?_slice hstart hstop hle wanted
  have hslice := ht.extract_slice hstart hstop hle wanted
  refine ⟨⟨hread, hslice⟩, fun other start' stop' hstart' hstop' hle' hsame => ⟨?_, ?_⟩⟩
  · rw [hread, ht.extract?_slice hstart' hstop' hle', hsame]
  · rw [hslice, ht.extract_slice hstart' hstop' hle', hsame]

/-- The fields of the second route of an answer are read from its own lines. -/
theorem extract_window_second :
    let cs := "route: 1.0.0.0/8\nsource: A\nroute: 2.0.0.0/8\nsource: B\n".toList
    slice cs 43 54 = "\nsource: B\n".toList ∧
      (Origin.table .plain).extract? cs ⟨43, some 54⟩ none =
        (Origin.table .plain).extract? "\nsource: B\n".toList {} none ∧
      (Origin.table .plain).extract cs ⟨43, some 54⟩ none =
        (Origin.table .plain).extract "\nsource: B\n".toList {} none := by
  intro cs
  have hslice : slice cs 43 54 = "\nsource: B\n".toList := by decide +kernel
  refine ⟨hslice, ?_⟩
  rw [← hslice]
  exact (extract_window (.routes .plain) (by decide +kernel) (by decide +kernel) (by decide) none).1

end IpRegistry.Field
