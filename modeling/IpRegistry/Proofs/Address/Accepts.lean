import IpRegistry.Address.Parser
import IpRegistry.Text.Unsigned
import Mathlib.Data.List.Basic

namespace IpRegistry.Address

def isAddressChar (c : Char) : Bool :=
  (hexDigit? c).isSome || c == '.' || c == ':'

/-- What has been read of a text, up to `rest`, is of characters of addresses. -/
def Consumed (cs rest : List Char) : Prop :=
  ∃ front, cs = front ++ rest ∧ ∀ c ∈ front, isAddressChar c = true

theorem Consumed.refl (cs : List Char) : Consumed cs cs :=
  ⟨[], rfl, nofun⟩

theorem Consumed.cons {c : Char} {cs rest : List Char} (hc : isAddressChar c = true)
    (h : Consumed cs rest) : Consumed (c :: cs) rest := by
  obtain ⟨front, rfl, hfront⟩ := h
  exact ⟨c :: front, rfl, List.forall_mem_cons.mpr ⟨hc, hfront⟩⟩

theorem Consumed.trans {cs middle rest : List Char} (h : Consumed cs middle)
    (h' : Consumed middle rest) : Consumed cs rest := by
  obtain ⟨front, rfl, hfront⟩ := h
  obtain ⟨back, rfl, hback⟩ := h'
  refine ⟨front ++ back, (List.append_assoc ..).symm, ?_⟩
  exact List.forall_mem_append.mpr ⟨hfront, hback⟩

theorem Consumed.subset {cs rest : List Char} (h : Consumed cs rest) : rest ⊆ cs := by
  obtain ⟨front, rfl, -⟩ := h
  exact List.subset_append_right front rest

theorem consumed_takeDigits {digit? : Char → Option Nat}
    (hdigit : ∀ c, (digit? c).isSome = true → isAddressChar c = true) (cs : List Char) :
    Consumed cs (takeDigits digit? cs).2 := by
  induction cs with
  | nil => exact .refl []
  | cons c cs ih =>
      rw [takeDigits]
      split
      · exact .refl _
      · rename_i d hd
        exact ih.cons (hdigit c (by rw [hd]; rfl))

theorem isAddressChar_of_digit? (c : Char) (h : (Text.digit? c).isSome = true) :
    isAddressChar c = true := by
  have hdigit : c.isDigit = true := by
    by_contra hno
    rw [Text.digit?, if_neg hno] at h
    cases h
  rw [isAddressChar, hexDigit?, if_pos hdigit]
  rfl

theorem isAddressChar_of_hexDigit? (c : Char) (h : (hexDigit? c).isSome = true) :
    isAddressChar c = true := by
  rw [isAddressChar, h]
  rfl

variable {cs rest : List Char}

theorem readOctet_eq (cs : List Char) :
    readOctet cs =
      let run := takeDigits Text.digit? cs
      if run.1 = [] ∨ 3 < run.1.length ∨ (run.1.head? = some 0 ∧ 1 < run.1.length) ∨
        256 ≤ ofDigits 10 run.1 then none
      else some (ofDigits 10 run.1, run.2) :=
  rfl

theorem consumed_readOctet {n : Nat} (h : readOctet cs = some (n, rest)) : Consumed cs rest := by
  rw [readOctet_eq] at h
  simp only at h
  split at h
  · cases h
  · cases h
    exact consumed_takeDigits isAddressChar_of_digit? cs

theorem consumed_readChar {expected : Char} (hexpected : isAddressChar expected = true)
    (h : readChar expected cs = some rest) : Consumed cs rest := by
  cases cs with
  | nil => cases h
  | cons c cs =>
      rw [readChar] at h
      split at h
      · rename_i hc
        cases h
        exact (Consumed.refl _).cons (hc ▸ hexpected)
      · cases h

theorem consumed_readDotOctet {n : Nat} (h : readDotOctet cs = some (n, rest)) :
    Consumed cs rest := by
  obtain ⟨middle, hdot, hoctet⟩ := Option.bind_eq_some_iff.mp h
  exact (consumed_readChar (by decide) hdot).trans (consumed_readOctet hoctet)

theorem consumed_readOctets {octets : List Nat} (h : readOctets cs = some (octets, rest)) :
    Consumed cs rest := by
  obtain ⟨⟨a, cs₁⟩, ha, h⟩ := Option.bind_eq_some_iff.mp h
  obtain ⟨⟨b, cs₂⟩, hb, h⟩ := Option.bind_eq_some_iff.mp h
  obtain ⟨⟨c, cs₃⟩, hc, h⟩ := Option.bind_eq_some_iff.mp h
  obtain ⟨⟨d, cs₄⟩, hd, h⟩ := Option.bind_eq_some_iff.mp h
  cases h
  exact (consumed_readOctet ha).trans ((consumed_readDotOctet hb).trans
    ((consumed_readDotOctet hc).trans (consumed_readDotOctet hd)))

theorem consumed_readGroup {n : Nat} (h : readGroup cs = some (n, rest)) : Consumed cs rest := by
  unfold readGroup at h
  simp only at h
  split at h
  · cases h
  · cases h
    exact consumed_takeDigits isAddressChar_of_hexDigit? cs

theorem consumed_readSeparator {first : Bool} (h : readSeparator first cs = some rest) :
    Consumed cs rest := by
  cases first with
  | true =>
      cases h
      exact .refl cs
  | false => exact consumed_readChar (by decide) h

theorem consumed_readGroups (limit : Nat) (first : Bool) (cs : List Char) :
    Consumed cs (readGroups limit first cs).2 := by
  induction limit generalizing first cs with
  | zero => exact .refl cs
  | succ limit ih =>
      rw [readGroups]
      split
      · rename_i octets rest h
        split at h
        · cases h
        · obtain ⟨middle, hseparator, hoctets⟩ := Option.bind_eq_some_iff.mp h
          exact (consumed_readSeparator hseparator).trans (consumed_readOctets hoctets)
      · split
        · exact .refl cs
        · rename_i group rest h
          obtain ⟨middle, hseparator, hgroup⟩ := Option.bind_eq_some_iff.mp h
          exact (consumed_readSeparator hseparator).trans
            ((consumed_readGroup hgroup).trans (ih false rest))

theorem consumed_readSixGroups {groups : List Nat} (h : readSixGroups cs = some (groups, rest)) :
    Consumed cs rest := by
  have hfront := consumed_readGroups 8 true cs
  unfold readSixGroups at h
  simp only at h
  split at h
  · cases h
    exact hfront
  · split at h
    · cases h
    · split at h
      · cases h
      · rename_i middle hcolons
        cases h
        obtain ⟨between, hfirst, hsecond⟩ := Option.bind_eq_some_iff.mp hcolons
        exact hfront.trans ((consumed_readChar (by decide) hfirst).trans
          ((consumed_readChar (by decide) hsecond).trans (consumed_readGroups _ true middle)))

theorem consumed_read {a : Address} (h : read cs = some (a, rest)) : Consumed cs rest := by
  unfold read at h
  split at h
  · rename_i hoctets
    cases h
    exact consumed_readOctets hoctets
  · obtain ⟨⟨groups, middle⟩, hgroups, heq⟩ := Option.map_eq_some_iff.mp h
    cases heq
    exact consumed_readSixGroups hgroups

/-- A text that is read as an address has only characters of addresses. -/
theorem isAddressChar_of_parse? {s : String} {a : Address} (h : parse? s = some a) :
    ∀ c ∈ s.toList, isAddressChar c = true := by
  unfold parse? at h
  split at h
  · rename_i hread
    obtain ⟨front, hs, hfront⟩ := consumed_read hread
    rw [hs, List.append_nil]
    exact hfront
  · cases h

end IpRegistry.Address
