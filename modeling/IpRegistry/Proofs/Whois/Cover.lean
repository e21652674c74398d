import IpRegistry.Proofs.Address.Forms
import IpRegistry.Proofs.Cidr.Collapse
import IpRegistry.Proofs.Cidr.RoundTrip
import IpRegistry.Rdap.Object

namespace IpRegistry

open Cidr

namespace Cidr

/-- A piece between dots without the zeros at its start. -/
def withoutZeros (piece : List Char) : List Char :=
  match piece.dropWhile (· == '0') with
  | [] => ['0']
  | rest => rest

theorem withoutZeros_eq_dropWhile {piece : List Char} {c : Char} (hmem : c ∈ piece) (hc : c ≠ '0') :
    withoutZeros piece = piece.dropWhile (· == '0') := by
  have hkept : c ∈ piece.dropWhile (· == '0') := Text.mem_dropWhile (by simpa using hc) hmem
  obtain ⟨d, rest, hrest⟩ := List.exists_cons_of_ne_nil (List.ne_nil_of_mem hkept)
  rw [withoutZeros, hrest]

theorem withoutZeros_eq_self {piece : List Char} (h : Address.NoLeadingZero piece) :
    withoutZeros piece = piece := by
  rcases h with rfl | ⟨c, rest, rfl, hc⟩
  · rfl
  · rw [withoutZeros_eq_dropWhile List.mem_cons_self hc]
    exact List.dropWhile_cons_of_neg (by simpa using hc)

theorem stripOctetZeros_intercalate {s : String} {pieces : List (List Char)}
    (hs : s.toList = ['.'].intercalate pieces) (hne : pieces ≠ [])
    (hdot : ∀ piece ∈ pieces, '.' ∉ piece) (hblank : ∀ c ∈ s.toList, Text.isBlank c = false) :
    stripOctetZeros s = String.ofList (['.'].intercalate (pieces.map withoutZeros)) := by
  unfold stripOctetZeros
  simp only
  rw [Text.trim_eq_self hblank, hs, List.splitOn_intercalate '.' hdot hne]
  rfl

theorem stripOctetZeros_eq_self {s : String} {pieces : List (List Char)}
    (hs : s.toList = ['.'].intercalate pieces) (hne : pieces ≠ [])
    (hdot : ∀ piece ∈ pieces, '.' ∉ piece) (hzero : ∀ piece ∈ pieces, Address.NoLeadingZero piece)
    (hblank : ∀ c ∈ s.toList, Text.isBlank c = false) : stripOctetZeros s = s := by
  have hpieces : pieces.map withoutZeros = pieces :=
    (List.map_congr_left fun piece hpiece => withoutZeros_eq_self (hzero piece hpiece)).trans
      (List.map_id _)
  rw [stripOctetZeros_intercalate hs hne hdot hblank, hpieces, ← hs, String.ofList_toList]

/-- Without a dot there are no bytes. -/
theorem stripOctetZeros_text {a : Address} (h : '.' ∈ a.text.toList) :
    stripOctetZeros a.text = a.text := by
  obtain ⟨front, octets, htext, hlength, hfront⟩ := Address.exists_dotted h
  obtain ⟨w, x, y, z, rfl⟩ := Address.exists_eq_of_length_four hlength
  have hfirst : Address.NoLeadingZero (front ++ Nat.toDigits 10 w) ∧
      '.' ∉ front ++ Nat.toDigits 10 w := by
    rcases hfront with rfl | rfl
    · exact ⟨Address.noLeadingZero_toDigits w, Address.dot_not_mem_toDigits w⟩
    · refine ⟨.inr ⟨':', _, rfl, by decide⟩, ?_⟩
      rw [List.mem_append]
      rintro (h | h)
      · exact absurd h (by decide)
      · exact Address.dot_not_mem_toDigits w h
  have hpieces : a.text.toList = ['.'].intercalate
      [front ++ Nat.toDigits 10 w, Nat.toDigits 10 x, Nat.toDigits 10 y, Nat.toDigits 10 z] := by
    rw [htext, Address.toList_dotted]
    simp
  refine stripOctetZeros_eq_self hpieces (List.cons_ne_nil _ _) ?_ ?_ a.text_no_blank
  · refine List.forall_mem_cons.mpr ⟨hfirst.2, ?_⟩
    simp [Address.dot_not_mem_toDigits]
  · refine List.forall_mem_cons.mpr ⟨hfirst.1, ?_⟩
    simp [Address.noLeadingZero_toDigits]

theorem comma_not_mem_text (c : Cidr) : ',' ∉ c.text.toList := by
  intro h
  rw [toList_text] at h
  rcases List.mem_append.mp h with h | h
  · exact absurd (Address.mem_of_mem_text h) (by decide)
  · rcases List.mem_cons.mp h with h | h
    · exact absurd h (by decide)
    · exact absurd (Address.mem_of_mem_toDigits (by decide) (by decide) h) (by decide)

theorem mapM_parse_text (blocks : List Cidr) : (blocks.map text).mapM parse = .ok blocks := by
  induction blocks with
  | nil => rfl
  | cons c blocks ih =>
      rw [List.map_cons, List.mapM_cons, parse_text, ih]
      rfl

theorem listPieces_blockList {blocks : List Cidr} (h : blocks ≠ []) :
    Whois.listPieces (Whois.blockList blocks) = blocks.map text := by
  have hpieces : Text.splitOn ", ".toList (Whois.blockList blocks).toList =
      (blocks.map text).map String.toList := by
    rw [Whois.blockList, String.toList_intercalate]
    refine Text.splitOn_intercalate (by simpa using h) fun piece hpiece => ?_
    obtain ⟨s, hs, rfl⟩ := List.mem_map.mp hpiece
    obtain ⟨c, -, rfl⟩ := List.mem_map.mp hs
    exact c.comma_not_mem_text
  rw [Whois.listPieces, hpieces, List.map_map]
  simp

/-- The blocks have exactly the addresses from `a` to `b`, and no fewer blocks have them. -/
structure Covering (a b : Address) (blocks : List Cidr) : Prop where
  mem_iff : ∀ x, x ∈ addresses blocks ↔ x.family = a.family ∧ a.value ≤ x.value ∧ x.value ≤ b.value
  shortest : ∀ others, addresses others = addresses blocks → blocks.length ≤ others.length

/-- The addresses are the ends of a range. -/
def Ordered (a b : Address) : Prop :=
  a.family = b.family ∧ a.value ≤ b.value

theorem ordered_of_summarize {a b : Address} {blocks : List Cidr}
    (h : summarize a b = .ok blocks) : Ordered a b := by
  unfold summarize at h
  split at h
  · rename_i hfamily
    split at h
    · rename_i hle
      exact ⟨hfamily, hle⟩
    · cases h
  · cases h

theorem exists_summarize {a b : Address} (h : Ordered a b) :
    ∃ blocks, summarize a b = .ok blocks ∧ Covering a b blocks := by
  refine ⟨_, summarize_eq_cover h.1 h.2, ?_, fun others hset => (cover_canonical _).length_le hset⟩
  intro x
  rw [(cover_tiles (range_le h.1 h.2)).mem_addresses_iff]
  refine and_congr_right fun _ => and_congr_right fun hle => ?_
  have hrange := h.2
  omega

theorem Covering.ne_nil {a b : Address} {blocks : List Cidr} (h : Covering a b blocks)
    (hordered : Ordered a b) : blocks ≠ [] := by
  rintro rfl
  obtain ⟨c, hc, -⟩ := (h.mem_iff a).mpr ⟨rfl, le_refl _, hordered.2⟩
  cases hc

/-- The text writes an address, with or without white space around it. -/
def WritesAddress (s : String) (a : Address) : Prop :=
  Address.parse? (Text.trim s) = some a

theorem writesAddress_text (a : Address) : WritesAddress a.text a := by
  rw [WritesAddress, Text.trim_eq_self a.text_no_blank, Address.parse?_text]

theorem endpoint_eq {s : String} {a : Address} (h : WritesAddress s a) : endpoint s = .ok a := by
  unfold endpoint
  simp only
  rw [h]

theorem coverTexts_eq {start stop : String} {a b : Address} {blocks : List Cidr}
    (ha : WritesAddress start a) (hb : WritesAddress stop b) (h : summarize a b = .ok blocks) :
    coverTexts start stop = .ok (blocks.map text) := by
  have hcollapse := summarize_map_collapse a b
  rw [h] at hcollapse
  have hblocks : collapse blocks = blocks := Except.ok.inj hcollapse
  unfold coverTexts
  rw [endpoint_eq ha, endpoint_eq hb]
  simp only [bind, Except.bind, h, hblocks]
  rfl

theorem coveringBlocks_eq_ok_iff {start stop : String} {blocks : List Cidr} :
    Whois.coveringBlocks start stop = .ok blocks ↔
      ∃ a b, WritesAddress start a ∧ WritesAddress stop b ∧ summarize a b = .ok blocks := by
  unfold Whois.coveringBlocks WritesAddress
  constructor
  · intro h
    split at h
    · cases h
    · rename_i a ha
      split at h
      · cases h
      · rename_i b hb
        rw [summarize_map_collapse] at h
        exact ⟨a, b, ha, hb, h⟩
  · rintro ⟨a, b, ha, hb, h⟩
    simp only [ha, hb]
    rw [summarize_map_collapse, h]

end Cidr

namespace Rdap

open Cidr

theorem endAddress?_text {document : Json} {name : String} {a : Address}
    (h : textMember? document name = some a.text) : endAddress? document name = some a.text := by
  rw [endAddress?, h, Option.map_some]
  split
  · rfl
  · split
    · rename_i hdot
      rw [stripOctetZeros_text (by simpa using hdot)]
    · rfl

theorem coverText?_eq {a b : Address} {blocks : List Cidr} (h : summarize a b = .ok blocks) :
    coverText? (some a.text) (some b.text) = some (Whois.blockList blocks) := by
  unfold coverText?
  simp only [Option.bind_eq_bind, Option.bind_some,
    coverTexts_eq (writesAddress_text a) (writesAddress_text b) h]
  rfl

theorem exists_members_of_textMember? {document : Json} {name s : String}
    (h : textMember? document name = some s) : ∃ members, document = .object members := by
  obtain ⟨j, hj, -⟩ := Option.bind_eq_some_iff.mp h
  cases document with
  | object members => exact ⟨members, rfl⟩
  | _ => cases hj

theorem parse_network {document : Json} {handle : String} {a b : Address} {blocks : List Cidr}
    (hhandle : textMember? document "handle" = some handle)
    (hstart : textMember? document "startAddress" = some a.text)
    (hend : textMember? document "endAddress" = some b.text) (h : summarize a b = .ok blocks) :
    ∃ n, Network.parse document = .ok n ∧ n.startAddress = some a.text ∧
      n.endAddress = some b.text ∧ n.cidr = some (Whois.blockList blocks) := by
  obtain ⟨members, rfl⟩ := exists_members_of_textMember? hhandle
  have hstart := endAddress?_text hstart
  have hend := endAddress?_text hend
  unfold Network.parse
  simp only [hhandle]
  refine ⟨_, rfl, hstart, hend, ?_⟩
  simp only [hstart, hend]
  exact coverText?_eq h

end Rdap

end IpRegistry
