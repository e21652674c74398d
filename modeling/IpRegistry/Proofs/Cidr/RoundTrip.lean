import IpRegistry.Cidr.Format
import IpRegistry.Proofs.Address.RoundTrip
import IpRegistry.Proofs.Cidr.Interval
import IpRegistry.Proofs.Text.Split
import IpRegistry.Target

namespace IpRegistry

namespace Address

theorem text_no_blank (a : Address) : ∀ c ∈ a.text.toList, Text.isBlank c = false := by
  intro c hc
  have hall : "0123456789abcdef.:".toList.all (!Text.isBlank ·) = true := by decide
  simpa using List.all_eq_true.mp hall c (mem_of_mem_text hc)

theorem slash_not_mem_text (a : Address) : '/' ∉ a.text.toList := by
  intro h
  exact absurd (mem_of_mem_text h) (by decide)

end Address

namespace Cidr

theorem containing_first (c : Cidr) (h : c.prefixLen ≤ c.first.family.bits) :
    containing c.first c.prefixLen h = c := by
  have hnetwork : c.network / 2 ^ c.hostBits * 2 ^ c.hostBits = c.network :=
    Nat.div_mul_cancel c.aligned
  exact ext_of_count rfl hnetwork rfl

theorem new_first (c : Cidr) : new c.first c.prefixLen = .ok c := by
  rw [new, dif_pos (show c.prefixLen ≤ c.first.family.bits from c.prefixLen_le), containing_first]

theorem strict_first (written : String) (c : Cidr) : strict written c.first c.prefixLen = .ok c := by
  rw [strict, new_first]
  exact if_pos rfl

theorem strict_eq_ok {written : String} {a : Address} {prefixLen : Nat} {c : Cidr}
    (h : strict written a prefixLen = .ok c) : c.first = a ∧ c.prefixLen = prefixLen := by
  unfold strict new at h
  split at h
  · cases h
  · rename_i d hnew
    split at h
    · rename_i hnetwork
      cases h
      split at hnew
      · cases hnew
        obtain ⟨family, value, hlt⟩ := a
        refine ⟨?_, rfl⟩
        simp only [first, Address.mk.injEq]
        exact ⟨rfl, hnetwork⟩
      · cases hnew
    · cases h

theorem toList_text (c : Cidr) :
    c.text.toList = c.first.text.toList ++ '/' :: Nat.toDigits 10 c.prefixLen := by
  rw [text, String.toList_append, String.toList_append, List.append_assoc]
  simp

theorem text_no_blank (c : Cidr) : ∀ x ∈ c.text.toList, Text.isBlank x = false := by
  intro x hx
  rw [toList_text] at hx
  rcases List.mem_append.mp hx with hx | hx
  · exact c.first.text_no_blank x hx
  · rcases List.mem_cons.mp hx with rfl | hx
    · decide
    · have hall : "0123456789abcdef".toList.all (!Text.isBlank ·) = true := by decide
      have hdigit := Address.mem_of_mem_toDigits (by decide) (by decide) hx
      simpa using List.all_eq_true.mp hall x hdigit

theorem prefixLen_lt (c : Cidr) : c.prefixLen < 256 := by
  have hle := c.prefixLen_le
  cases hfamily : c.family <;> rw [hfamily] at hle <;> simp only [Family.bits] at hle <;> omega

theorem parse_trim (s : String) : parse (Text.trim s) = parse s := by
  unfold parse
  rw [Text.trim_trim]

theorem parse_text (c : Cidr) : parse c.text = .ok c := by
  have hsplit : Text.splitFirst? ['/'] c.text.toList =
      some (c.first.text.toList, Nat.toDigits 10 c.prefixLen) := by
    rw [toList_text]
    exact Text.splitFirst?_append c.first.slash_not_mem_text
  unfold parse
  rw [Text.trim_eq_self c.text_no_blank]
  simp only [hsplit, String.ofList_toList, Address.parse?_text,
    Text.unsigned_toDigits c.prefixLen_lt, strict_first]

/-- The text writes the first address of the block and the number of its fixed bits; without a
slash, the block is the one of a single address. -/
def Writes (s : String) (c : Cidr) : Prop :=
  ('/' ∉ s.toList ∧ Address.parse? s = some c.first ∧ c.prefixLen = c.family.bits) ∨
    ∃ before after, s.toList = before ++ '/' :: after ∧ '/' ∉ before ∧
      Address.parse? (String.ofList before) = some c.first ∧
      Text.unsigned 256 after = .ok c.prefixLen

theorem writes_of_parse {s : String} {c : Cidr} (h : parse s = .ok c) : Writes (Text.trim s) c := by
  unfold parse at h
  simp only at h
  split at h
  · rename_i hsplit
    split at h
    · cases h
    · rename_i a ha
      obtain ⟨rfl, hprefix⟩ := strict_eq_ok h
      exact .inl ⟨Text.splitFirst?_eq_none_iff.mp hsplit, ha, hprefix⟩
  · rename_i before after hsplit
    obtain ⟨hs, hbefore⟩ := Text.eq_of_splitFirst? hsplit
    split at h
    · cases h
    · rename_i a ha
      split at h
      · cases h
      · rename_i prefixLen hprefixLen
        obtain ⟨rfl, rfl⟩ := strict_eq_ok h
        exact .inr ⟨before, after, hs, hbefore, ha, hprefixLen⟩

end Cidr

namespace Target

theorem of_address (t : Target) : Target.of t.address = .ok t := by
  unfold Target.of
  split
  · rfl
  · rename_i r hsome
    rw [t.notReserved] at hsome
    cases hsome

theorem parse_eq_of {s : String} {a : Address} (h : Address.parse? (Text.trim s) = some a) :
    parse s = Target.of a := by
  delta parse
  rw [h]

theorem parse_text (t : Target) : parse t.text = .ok t := by
  have hread : Address.parse? (Text.trim t.text) = some t.address := by
    rw [text, Text.trim_eq_self t.address.text_no_blank, Address.parse?_text]
  rw [parse_eq_of hread, of_address]

end Target

/-- The text of every block and of every target is read as that block or target. A text that is read
as a block writes its first address, so no bit after the fixed ones is lost, and the text of what is
read is read as the same block. -/
theorem text_round_trip :
    (∀ c : Cidr, Cidr.parse c.text = .ok c) ∧
    (∀ t : Target, Target.parse t.text = .ok t) ∧
    ∀ s c, Cidr.parse s = .ok c →
      Cidr.Writes (Text.trim s) c ∧ (Cidr.parse c.text).map Cidr.text = .ok c.text := by
  refine ⟨Cidr.parse_text, Target.parse_text, ?_⟩
  intro s c h
  refine ⟨Cidr.writes_of_parse h, ?_⟩
  rw [Cidr.parse_text]
  rfl

theorem text_round_trip_padded :
    let c : Cidr := .containing ⟨.v4, 167772160, by decide⟩ 8 (by decide)
    Cidr.parse " 10.0.0.0/8 " = .ok c ∧ Cidr.Writes (Text.trim " 10.0.0.0/8 ") c := by
  intro c
  have hparse : Cidr.parse " 10.0.0.0/8 " = .ok c := by decide +kernel
  exact ⟨hparse, (text_round_trip.2.2 _ c hparse).1⟩

end IpRegistry
