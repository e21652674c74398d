import IpRegistry.Proofs.Whois.Cover

namespace IpRegistry

open List (Forall₂)
open Cidr

namespace Address

theorem isBlank_of_isAddressChar {c : Char} (h : isAddressChar c = true) :
    Text.isBlank c = false := by
  have hranges : (48 ≤ c.toNat ∧ c.toNat ≤ 57) ∨ (97 ≤ c.toNat ∧ c.toNat ≤ 102) ∨
      (65 ≤ c.toNat ∧ c.toNat ≤ 70) ∨ c.toNat = 46 ∨ c.toNat = 58 := by
    simp only [isAddressChar, Bool.or_eq_true, beq_iff_eq, hexDigit?] at h
    rcases h with (h | rfl) | rfl
    · split at h
      · rename_i hdigit
        simp only [Char.isDigit, Bool.and_eq_true, decide_eq_true_eq] at hdigit
        exact .inl ⟨UInt32.le_iff_toNat_le.1 hdigit.1, UInt32.le_iff_toNat_le.1 hdigit.2⟩
      · split at h
        · rename_i hlower
          exact .inr (.inl ⟨UInt32.le_iff_toNat_le.1 hlower.1, UInt32.le_iff_toNat_le.1 hlower.2⟩)
        · split at h
          · rename_i hupper
            exact .inr (.inr (.inl ⟨UInt32.le_iff_toNat_le.1 hupper.1,
              UInt32.le_iff_toNat_le.1 hupper.2⟩))
          · cases h
    · exact .inr (.inr (.inr (.inl rfl)))
    · exact .inr (.inr (.inr (.inr rfl)))
  simp only [Text.isBlank, Bool.or_eq_false_iff, Bool.and_eq_false_iff, decide_eq_false_iff_not,
    beq_eq_false_iff_ne]
  omega

theorem writesAddress_of_parse? {s : String} {a : Address} (h : parse? s = some a) :
    WritesAddress s a := by
  have htrim : Text.trim s = s := Text.trim_eq_self fun c hc =>
    isBlank_of_isAddressChar (isAddressChar_of_parse? h c hc)
  rw [WritesAddress, htrim, h]

end Address

namespace Cidr

/-- A text without a slash is read as an end only if it is read as an address. -/
theorem parse?_of_endpoint {s : String} {a : Address}
    (hchars : ∀ c ∈ s.toList, Address.isAddressChar c = true) (h : endpoint s = .ok a) :
    Address.parse? s = some a := by
  have htrim : Text.trim s = s := Text.trim_eq_self fun c hc =>
    Address.isBlank_of_isAddressChar (hchars c hc)
  have hslash : '/' ∉ s.toList := by
    intro hmem
    exact absurd (hchars _ hmem) (by decide)
  unfold endpoint at h
  simp only [htrim, Text.splitFirst?_of_not_mem hslash] at h
  cases hparse : Address.parse? s with
  | none =>
      rw [hparse] at h
      cases h
  | some b =>
      rw [hparse] at h
      cases h
      rfl

/-- A byte with any number of zeros in front. -/
def PaddedByte (piece : List Char) (octet : Nat) : Prop :=
  ∃ count, piece = List.replicate count '0' ++ Nat.toDigits 10 octet

/-- The text is a version 4 address with zeros in front of its bytes. -/
structure WritesPadded (s : String) (a : Address) : Prop where
  family : a.family = .v4
  bytes : ∃ pieces, s.toList = ['.'].intercalate pieces ∧ Forall₂ PaddedByte pieces a.octets

theorem PaddedByte.withoutZeros_eq {piece : List Char} {octet : Nat} (h : PaddedByte piece octet) :
    withoutZeros piece = Nat.toDigits 10 octet := by
  obtain ⟨count, rfl⟩ := h
  induction count with
  | zero => exact withoutZeros_eq_self (Address.noLeadingZero_toDigits octet)
  | succ count ih =>
      rw [List.replicate_succ, List.cons_append]
      exact ih

theorem PaddedByte.isAddressChar {piece : List Char} {octet : Nat} (h : PaddedByte piece octet) :
    ∀ c ∈ piece, Address.isAddressChar c = true ∧ c ≠ '.' ∧ c ≠ ':' := by
  obtain ⟨count, rfl⟩ := h
  intro c hc
  have hdigit : c ∈ "0123456789abcdef".toList := by
    rcases List.mem_append.1 hc with hc | hc
    · rw [List.eq_of_mem_replicate hc]
      decide
    · exact Address.mem_of_mem_toDigits (by decide) (by decide) hc
  have hall : "0123456789abcdef".toList.all
      (fun d => Address.isAddressChar d && d != '.' && d != ':') = true := by decide
  simpa [and_assoc] using List.all_eq_true.1 hall c hdigit

theorem chars_of_bytes {pieces : List (List Char)} {octets : List Nat}
    (h : Forall₂ PaddedByte pieces octets) :
    ∀ piece ∈ pieces, ∀ c ∈ piece, Address.isAddressChar c = true ∧ c ≠ '.' ∧ c ≠ ':' := by
  intro piece hpiece
  obtain ⟨octet, -, hoctet⟩ := exists_of_forall₂ h piece hpiece
  exact hoctet.isAddressChar

namespace WritesPadded

variable {s : String} {a : Address}

theorem isAddressChar (h : WritesPadded s a) : ∀ c ∈ s.toList, Address.isAddressChar c = true := by
  obtain ⟨pieces, hs, hbytes⟩ := h.bytes
  have hpieces := chars_of_bytes hbytes
  intro c hc
  rw [hs] at hc
  rcases Text.mem_intercalate hc with hc | ⟨piece, hpiece, hc⟩
  · rw [List.mem_singleton.1 hc]
    decide
  · exact (hpieces piece hpiece c hc).1

theorem colon_not_mem (h : WritesPadded s a) : ':' ∉ s.toList := by
  obtain ⟨pieces, hs, hbytes⟩ := h.bytes
  have hpieces := chars_of_bytes hbytes
  intro hc
  rw [hs] at hc
  rcases Text.mem_intercalate hc with hc | ⟨piece, hpiece, hc⟩
  · exact absurd hc (by decide)
  · exact (hpieces piece hpiece ':' hc).2.2 rfl

theorem stripOctetZeros_eq (h : WritesPadded s a) : stripOctetZeros s = a.text := by
  obtain ⟨pieces, hs, hbytes⟩ := h.bytes
  have hpieces := chars_of_bytes hbytes
  have hdot : ∀ piece ∈ pieces, '.' ∉ piece := fun piece hpiece hmem =>
    (hpieces piece hpiece '.' hmem).2.1 rfl
  have hne : pieces ≠ [] := by
    rintro rfl
    cases hbytes.length_eq.trans (Address.length_digitsOf ..)
  have hstripped : pieces.map withoutZeros = a.octets.map (Nat.toDigits 10) := by
    rw [← List.forall₂_eq_eq_eq, List.forall₂_map_left_iff, List.forall₂_map_right_iff]
    exact hbytes.imp fun _ _ hp => hp.withoutZeros_eq
  have htext : a.text = Address.dotted a.octets := by
    rw [Address.text, h.family]
  rw [stripOctetZeros_intercalate hs hne hdot fun c hc =>
    Address.isBlank_of_isAddressChar (h.isAddressChar c hc), hstripped, ← Address.toList_dotted_map,
    String.ofList_toList, htext]

theorem dot_mem (h : WritesPadded s a) : '.' ∈ s.toList := by
  obtain ⟨pieces, hs, hbytes⟩ := h.bytes
  have hlength : pieces.length = 4 := hbytes.length_eq.trans (Address.length_digitsOf ..)
  match pieces, hlength with
  | [w, x, y, z], _ =>
    rw [hs]
    simp

end WritesPadded

/-- Nothing is stripped from bytes that are read as such. -/
theorem stripOctetZeros_dotted {s : String} (h : Address.IsDotted s.toList)
    (hchars : ∀ c ∈ s.toList, Address.isAddressChar c = true) : stripOctetZeros s = s := by
  obtain ⟨w, x, y, z, hs, hw, hx, hy, hz⟩ := h
  have hpieces : s.toList = ['.'].intercalate [w, x, y, z] := by
    rw [hs]
    simp
  refine stripOctetZeros_eq_self hpieces (List.cons_ne_nil _ _) ?_ ?_ fun c hc =>
    Address.isBlank_of_isAddressChar (hchars c hc)
  · simp [hw.not_mem, hx.not_mem, hy.not_mem, hz.not_mem]
  · simp [hw.noLeadingZero, hx.noLeadingZero, hy.noLeadingZero, hz.noLeadingZero]

/-- From a version 6 text only zeros at its start are stripped. -/
theorem toList_stripOctetZeros_v6 {s : String} {a : Address} (h : Address.parse? s = some a)
    (hdot : '.' ∈ s.toList) (hcolon : ':' ∈ s.toList) :
    (stripOctetZeros s).toList = s.toList.dropWhile (· == '0') := by
  obtain ⟨lead, bytes, hs, hlead, w, x, y, z, rfl, hw, hx, hy, hz⟩ : ∃ lead bytes,
      s.toList = lead ++ bytes ∧ '.' ∉ lead ∧ Address.IsDotted bytes := by
    rcases Address.parse?_cases h with ⟨-, hdotted⟩ | ⟨-, -, groups, hgroups, -⟩
    · exact absurd hcolon (hdotted.not_mem (by decide) (by decide))
    · exact (Address.exists_of_readSixGroups hgroups).2 hdot
  have hpieces : s.toList = ['.'].intercalate [lead ++ w, x, y, z] := by
    rw [hs]
    simp
  have hfirst : ':' ∈ lead ++ w := by
    rw [hs] at hcolon
    simpa [hx.not_mem, hy.not_mem, hz.not_mem] using hcolon
  have hfirst' : (lead ++ w).dropWhile (· == '0') ≠ [] :=
    List.ne_nil_of_mem (Text.mem_dropWhile (by decide) hfirst)
  have hdrop : ∀ first rest : List Char, first.dropWhile (· == '0') ≠ [] →
      (first ++ rest).dropWhile (· == '0') = first.dropWhile (· == '0') ++ rest := by
    intro first rest hne
    rw [List.dropWhile_append, if_neg (by simpa using hne)]
  have htail : ∀ first, ['.'].intercalate [first, x, y, z] =
      first ++ '.' :: ['.'].intercalate [x, y, z] := fun first => by
    rw [List.intercalate_cons_cons, List.append_assoc, List.singleton_append]
  rw [stripOctetZeros_intercalate hpieces (List.cons_ne_nil _ _)
    (by simp [hlead, hw.not_mem, hx.not_mem, hy.not_mem, hz.not_mem]) fun c hc =>
      Address.isBlank_of_isAddressChar (Address.isAddressChar_of_parse? h c hc)]
  rw [String.toList_ofList, List.map_cons, List.map_cons, List.map_cons, List.map_cons, List.map_nil,
    withoutZeros_eq_dropWhile hfirst (by decide), withoutZeros_eq_self hx.noLeadingZero,
    withoutZeros_eq_self hy.noLeadingZero, withoutZeros_eq_self hz.noLeadingZero, hpieces]
  rw [htail, htail, hdrop _ _ hfirst']

/-- The text is a version 4 address that may be padded, or a version 6 address. -/
def WritesEnd (s : String) (a : Address) : Prop :=
  WritesPadded s a ∨ Address.parse? s = some a ∧ a.family = .v6

/-- Whether zeros are stripped or not, an end is read as no other address. -/
theorem eq_of_endpoint {s kept : String} {a b : Address} (hs : WritesEnd s a)
    (hkept : kept = s ∨ kept = stripOctetZeros s ∧ '.' ∈ s.toList) (h : endpoint kept = .ok b) :
    b = a := by
  rcases hs with hpadded | ⟨hparse, hfamily⟩
  · have hstripped : endpoint a.text = .ok a := endpoint_eq (writesAddress_text a)
    rcases hkept with rfl | ⟨rfl, -⟩
    · have hread := parse?_of_endpoint hpadded.isAddressChar h
      have hdotted : Address.IsDotted kept.toList := by
        rcases Address.parse?_cases hread with ⟨-, hdotted⟩ | ⟨hfamily, -⟩
        · exact hdotted
        · exact absurd ((Address.family_eq_v6_iff hread).1 hfamily) hpadded.colon_not_mem
      rw [← stripOctetZeros_dotted hdotted hpadded.isAddressChar, hpadded.stripOctetZeros_eq,
        hstripped] at h
      cases h
      rfl
    · rw [hpadded.stripOctetZeros_eq, hstripped] at h
      cases h
      rfl
  · rcases hkept with rfl | ⟨rfl, hdot⟩
    · rw [endpoint_eq (Address.writesAddress_of_parse? hparse)] at h
      cases h
      rfl
    · have hcolon := (Address.family_eq_v6_iff hparse).1 hfamily
      have hlist := toList_stripOctetZeros_v6 hparse hdot hcolon
      have hchars : ∀ c ∈ (stripOctetZeros s).toList, Address.isAddressChar c = true := by
        intro c hc
        rw [hlist] at hc
        exact Address.isAddressChar_of_parse? hparse c ((List.dropWhile_suffix _).subset hc)
      have hread : Address.parse? (String.ofList (stripOctetZeros s).toList) = some b := by
        rw [String.ofList_toList]
        exact parse?_of_endpoint hchars h
      rw [hlist] at hread
      exact Address.eq_of_parse?_dropWhile hparse hcolon hread

end Cidr

namespace Rdap

variable {document : Json} {handle s e : String} {a b : Address}

theorem endAddress?_marked {name : String} (hmark : textMember? document "ipVersion" = some "v6")
    (h : textMember? document name = some s) : endAddress? document name = some s := by
  rw [endAddress?, h, Option.map_some, if_pos hmark]

theorem endAddress?_padded {name : String} (hmark : textMember? document "ipVersion" ≠ some "v6")
    (h : textMember? document name = some s) (hs : WritesPadded s a) :
    endAddress? document name = some a.text := by
  rw [endAddress?, h, Option.map_some, if_neg hmark, if_pos (List.contains_iff_mem.2 hs.dot_mem),
    hs.stripOctetZeros_eq]

theorem endAddress?_cases {name : String} (h : textMember? document name = some s) :
    ∃ kept, endAddress? document name = some kept ∧
      (kept = s ∨ kept = stripOctetZeros s ∧ '.' ∈ s.toList) := by
  rw [endAddress?, h, Option.map_some]
  split
  · exact ⟨s, rfl, .inl rfl⟩
  · split
    · rename_i hdot
      exact ⟨_, rfl, .inr ⟨rfl, List.contains_iff_mem.1 hdot⟩⟩
    · exact ⟨s, rfl, .inl rfl⟩

theorem coverText?_of_writes (hs : WritesAddress s a) (he : WritesAddress e b)
    (hordered : Ordered a b) :
    ∃ blocks, Covering a b blocks ∧ coverText? (some s) (some e) = some (Whois.blockList blocks) := by
  obtain ⟨blocks, hsummarize, hcovering⟩ := exists_summarize hordered
  refine ⟨blocks, hcovering, ?_⟩
  unfold coverText?
  simp only [Option.bind_eq_bind, Option.bind_some, coverTexts_eq hs he hsummarize]
  rfl

/-- Ends that are not those of a range have no blocks. -/
theorem coverText?_eq_none {first last : String} (ha : ∀ x, endpoint first = .ok x → x = a)
    (hb : ∀ x, endpoint last = .ok x → x = b) (h : ¬Ordered a b) :
    coverText? (some first) (some last) = none := by
  unfold coverText? coverTexts
  simp only [Option.bind_eq_bind, Option.bind_some]
  cases hfirst : endpoint first with
  | error error => rfl
  | ok x =>
      cases hlast : endpoint last with
      | error error => rfl
      | ok y =>
          obtain rfl := ha x hfirst
          obtain rfl := hb y hlast
          simp only [bind, Except.bind]
          cases hsummarize : summarize x y with
          | error error => rfl
          | ok blocks => exact absurd (ordered_of_summarize hsummarize) h

theorem parse_of_handle (h : textMember? document "handle" = some handle) :
    ∃ n, Network.parse document = .ok n ∧ n.handle = handle ∧
      n.startAddress = endAddress? document "startAddress" ∧
      n.endAddress = endAddress? document "endAddress" ∧
      n.cidr = coverText? (endAddress? document "startAddress") (endAddress? document "endAddress") := by
  obtain ⟨members, rfl⟩ := exists_members_of_textMember? h
  unfold Network.parse
  simp only [h]
  exact ⟨_, rfl, rfl, rfl, rfl, rfl⟩

/-- A document with a handle is read as a network, whatever else is in it. The padded bytes of a
version 4 range and the texts of a version 6 range that is marked as such have the shortest list of
blocks for the range. Without both ends, and for ends of different families or in the wrong order,
however the document is marked, there are no blocks. -/
theorem network_ranges_tolerate_padding (document : Json) (handle : String)
    (hhandle : textMember? document "handle" = some handle) :
    ∃ n, Network.parse document = .ok n ∧ n.handle = handle ∧
      (∀ s e a b, textMember? document "startAddress" = some s →
        textMember? document "endAddress" = some e →
        textMember? document "ipVersion" ≠ some "v6" → WritesPadded s a → WritesPadded e b →
        a.value ≤ b.value →
        n.startAddress = some a.text ∧ n.endAddress = some b.text ∧
          ∃ blocks, Covering a b blocks ∧ n.cidr = some (Whois.blockList blocks)) ∧
      (∀ s e a b, textMember? document "startAddress" = some s →
        textMember? document "endAddress" = some e →
        textMember? document "ipVersion" = some "v6" → Address.parse? s = some a →
        Address.parse? e = some b → a.family = .v6 → b.family = .v6 → a.value ≤ b.value →
        n.startAddress = some s ∧ n.endAddress = some e ∧
          ∃ blocks, Covering a b blocks ∧ n.cidr = some (Whois.blockList blocks)) ∧
      (textMember? document "startAddress" = none ∨ textMember? document "endAddress" = none →
        n.cidr = none) ∧
      ∀ s e a b, textMember? document "startAddress" = some s →
        textMember? document "endAddress" = some e → WritesEnd s a → WritesEnd e b →
        a.family ≠ b.family ∨ b.value < a.value → n.cidr = none := by
  obtain ⟨n, hparse, hname, hstart, hend, hcidr⟩ := parse_of_handle hhandle
  refine ⟨n, hparse, hname, ?padded, ?marked, ?missing, ?disordered⟩
  case padded =>
    intro s e a b hs he hmark hpadded hpadded' hle
    have hordered : Ordered a b := ⟨hpadded.family.trans hpadded'.family.symm, hle⟩
    have hs := endAddress?_padded hmark hs hpadded
    have he := endAddress?_padded hmark he hpadded'
    obtain ⟨blocks, hcovering, hcover⟩ :=
      coverText?_of_writes (writesAddress_text a) (writesAddress_text b) hordered
    rw [hs, he] at hcidr
    exact ⟨hstart.trans hs, hend.trans he, blocks, hcovering, hcidr.trans hcover⟩
  case marked =>
    intro s e a b hs he hmark hread hread' hfamily hfamily' hle
    have hordered : Ordered a b := ⟨hfamily.trans hfamily'.symm, hle⟩
    have hs := endAddress?_marked hmark hs
    have he := endAddress?_marked hmark he
    obtain ⟨blocks, hcovering, hcover⟩ := coverText?_of_writes
      (Address.writesAddress_of_parse? hread) (Address.writesAddress_of_parse? hread') hordered
    rw [hs, he] at hcidr
    exact ⟨hstart.trans hs, hend.trans he, blocks, hcovering, hcidr.trans hcover⟩
  case missing =>
    rintro (hnone | hnone)
    · have hs : endAddress? document "startAddress" = none := by
        rw [endAddress?, hnone, Option.map_none]
      rw [hcidr, hs]
      rfl
    · have he : endAddress? document "endAddress" = none := by
        rw [endAddress?, hnone, Option.map_none]
      rw [hcidr, he]
      cases endAddress? document "startAddress" <;> rfl
  case disordered =>
    intro s e a b hs he hwrites hwrites' hno
    obtain ⟨first, hfirst, hkept⟩ := endAddress?_cases hs
    obtain ⟨last, hlast, hkept'⟩ := endAddress?_cases he
    have hordered : ¬Ordered a b := by
      rintro ⟨hfamily, hle⟩
      rcases hno with hno | hlt
      · exact hno hfamily
      · omega
    rw [hcidr, hfirst, hlast]
    exact coverText?_eq_none (fun x hx => eq_of_endpoint hwrites hkept hx)
      (fun x hx => eq_of_endpoint hwrites' hkept' hx) hordered

theorem network_ranges_tolerate_padding_octets :
    let document : Json := .object [("endAddress", .text "010.000.000.0255"), ("handle", .text "NET"),
      ("startAddress", .text "010.000.000.000")]
    ∃ n, Network.parse document = .ok n ∧ n.startAddress = some "10.0.0.0" := by
  intro document
  let a : Address := ⟨.v4, 167772160, by decide⟩
  let b : Address := ⟨.v4, 167772415, by decide⟩
  have hstart : WritesPadded "010.000.000.000" a :=
    ⟨rfl, ["010".toList, "000".toList, "000".toList, "000".toList], by decide +kernel,
      .cons ⟨1, by decide +kernel⟩ (.cons ⟨2, by decide +kernel⟩ (.cons ⟨2, by decide +kernel⟩
        (.cons ⟨2, by decide +kernel⟩ .nil)))⟩
  have hend : WritesPadded "010.000.000.0255" b :=
    ⟨rfl, ["010".toList, "000".toList, "000".toList, "0255".toList], by decide +kernel,
      .cons ⟨1, by decide +kernel⟩ (.cons ⟨2, by decide +kernel⟩ (.cons ⟨2, by decide +kernel⟩
        (.cons ⟨1, by decide +kernel⟩ .nil)))⟩
  obtain ⟨n, hparse, -, hpadded, -⟩ := network_ranges_tolerate_padding document "NET" rfl
  obtain ⟨hs, -⟩ := hpadded _ _ a b rfl rfl nofun hstart hend (by decide)
  exact ⟨n, hparse, hs.trans (by decide +kernel)⟩

end Rdap

end IpRegistry
