import IpRegistry.Address
import IpRegistry.Text.Unsigned
import Mathlib.Data.List.Induction
import Mathlib.Tactic.Ring

namespace IpRegistry

namespace Address

variable {radix : Nat}

theorem ofDigits_concat (digits : List Nat) (d : Nat) :
    ofDigits radix (digits ++ [d]) = ofDigits radix digits * radix + d := by
  rw [ofDigits, List.foldl_append]
  rfl

theorem foldl_digits (acc : Nat) (digits : List Nat) :
    digits.foldl (fun acc d => acc * radix + d) acc =
      acc * radix ^ digits.length + ofDigits radix digits := by
  induction digits using List.reverseRecOn with
  | nil => simp [ofDigits]
  | append_singleton digits d ih =>
      rw [List.foldl_append, List.foldl_cons, List.foldl_nil, ih, ofDigits_concat,
        List.length_append, List.length_singleton]
      ring

theorem ofDigits_append (radix : Nat) (front back : List Nat) :
    ofDigits radix (front ++ back) =
      ofDigits radix front * radix ^ back.length + ofDigits radix back := by
  rw [ofDigits, List.foldl_append]
  exact foldl_digits ..

theorem length_digitsOf (radix count value : Nat) : (digitsOf radix count value).length = count := by
  induction count generalizing value with
  | zero => rfl
  | succ count ih => rw [digitsOf, List.length_append, ih, List.length_singleton]

theorem digitsOf_zero (radix count : Nat) : digitsOf radix count 0 = List.replicate count 0 := by
  induction count with
  | zero => rfl
  | succ count ih =>
      rw [digitsOf, Nat.zero_div, Nat.zero_mod, ih, List.replicate_succ', List.append_cancel_left_eq]

theorem lt_of_mem_digitsOf (hradix : 0 < radix) {count value d : Nat}
    (h : d ∈ digitsOf radix count value) : d < radix := by
  induction count generalizing value with
  | zero => cases h
  | succ count ih =>
      rcases List.mem_append.mp h with h | h
      · exact ih h
      · rw [List.mem_singleton.mp h]
        exact Nat.mod_lt _ hradix

theorem ofDigits_digitsOf (radix count value : Nat) :
    ofDigits radix (digitsOf radix count value) = value % radix ^ count := by
  induction count generalizing value with
  | zero => rw [Nat.pow_zero, Nat.mod_one]; rfl
  | succ count ih =>
      rw [digitsOf, ofDigits_concat, ih, Nat.pow_succ', Nat.mod_mul, Nat.mul_comm, Nat.add_comm]

theorem digitsOf_ofDigits {digits : List Nat} (h : ∀ d ∈ digits, d < radix) :
    digitsOf radix digits.length (ofDigits radix digits) = digits := by
  induction digits using List.reverseRecOn with
  | nil => rfl
  | append_singleton digits d ih =>
      have hd : d < radix := h d (by simp)
      have hradix : 0 < radix := by omega
      have hdiv : (ofDigits radix digits * radix + d) / radix = ofDigits radix digits := by
        rw [Nat.add_comm, Nat.add_mul_div_right _ _ hradix, Nat.div_eq_of_lt hd, Nat.zero_add]
      have hmod : (ofDigits radix digits * radix + d) % radix = d := by
        rw [Nat.mul_add_mod_self_right, Nat.mod_eq_of_lt hd]
      rw [List.length_append, List.length_singleton, digitsOf, ofDigits_concat, hdiv, hmod,
        ih fun e he => h e (by simp [he])]

end Address

/-- The digits write the number and do not start with a zero, but for the number zero itself. -/
structure Numeral (radix n : Nat) (digits : List Nat) : Prop where
  value : Address.ofDigits radix digits = n
  lt : ∀ d ∈ digits, d < radix
  ne_nil : digits ≠ []
  no_leading_zero : digits.head? = some 0 → digits = [0]

theorem Numeral.single {radix d : Nat} (h : d < radix) : Numeral radix d [d] where
  value := by rw [← List.nil_append [d], Address.ofDigits_concat]; simp [Address.ofDigits]
  lt := by simpa using h
  ne_nil := List.cons_ne_nil _ _
  no_leading_zero hzero := by rw [Option.some.inj hzero]

theorem Numeral.concat {radix n d : Nat} {digits : List Nat} (h : Numeral radix n digits)
    (hn : 0 < n) (hd : d < radix) : Numeral radix (radix * n + d) (digits ++ [d]) where
  value := by rw [Address.ofDigits_concat, h.value, Nat.mul_comm]
  lt := by simpa [or_imp, forall_and] using ⟨h.lt, hd⟩
  ne_nil := by simp
  no_leading_zero hzero := by
    have hhead : digits.head? = some 0 := by
      rwa [List.head?_append, Option.or_of_isSome (List.isSome_head?.mpr h.ne_nil)] at hzero
    have hvalue := h.value
    rw [h.no_leading_zero hhead] at hvalue
    exact absurd hvalue (by simpa [Address.ofDigits] using hn.ne)

theorem exists_numeral {radix : Nat} (h : 1 < radix) (n : Nat) :
    ∃ digits, Numeral radix n digits ∧ Nat.toDigits radix n = digits.map Nat.digitChar := by
  induction n using Nat.base_induction radix h with
  | single d hd => exact ⟨[d], .single hd, Nat.toDigits_of_lt_base hd⟩
  | digit n d hd hn ih =>
      obtain ⟨digits, hnumeral, htext⟩ := ih
      refine ⟨digits ++ [d], hnumeral.concat hn hd, ?_⟩
      rw [← Nat.toDigits_append_toDigits h hn hd, htext, Nat.toDigits_of_lt_base hd,
        List.map_append, List.map_singleton]

namespace Text

theorem digit?_digitChar {d : Nat} (h : d < 10) : digit? d.digitChar = some d := by
  rw [digit?, Nat.isDigit_digitChar, if_pos (decide_eq_true h)]
  exact congrArg some (Nat.toNat_digitChar_sub_48_of_lt_ten h)

theorem continueNumber_digits {bound acc : Nat} {digits : List Nat} (hlt : ∀ d ∈ digits, d < 10)
    (hbound : acc * 10 ^ digits.length + Address.ofDigits 10 digits < bound) :
    continueNumber bound acc (digits.map Nat.digitChar) =
      .ok (acc * 10 ^ digits.length + Address.ofDigits 10 digits) := by
  induction digits generalizing acc with
  | nil => simp [continueNumber, Address.ofDigits]
  | cons d digits ih =>
      have hvalue : acc * 10 ^ (d :: digits).length + Address.ofDigits 10 (d :: digits) =
          (acc * 10 + d) * 10 ^ digits.length + Address.ofDigits 10 digits := by
        rw [← Address.foldl_digits, ← Address.foldl_digits]
        rfl
      rw [hvalue] at hbound ⊢
      have hle : acc * 10 + d ≤ (acc * 10 + d) * 10 ^ digits.length :=
        Nat.le_mul_of_pos_right _ (Nat.pow_pos (by decide))
      rw [List.map_cons, continueNumber, digit?_digitChar (hlt d List.mem_cons_self)]
      simp only
      rw [if_pos (by omega)]
      exact ih (fun e he => hlt e (List.mem_cons_of_mem _ he)) hbound

theorem digit?_of_continueNumber {bound acc n : Nat} {cs : List Char}
    (h : continueNumber bound acc cs = .ok n) : ∀ c ∈ cs, (digit? c).isSome = true := by
  induction cs generalizing acc with
  | nil => exact nofun
  | cons c cs ih =>
      unfold continueNumber at h
      split at h
      · cases h
      · rename_i d hd
        split at h
        · exact List.forall_mem_cons.mpr ⟨by rw [hd]; rfl, ih h⟩
        · cases h

/-- The characters of a number are digits, but for a plus sign. -/
theorem digit?_of_unsigned {bound n : Nat} {cs : List Char} (h : unsigned bound cs = .ok n) :
    ∀ c ∈ cs, c = '+' ∨ (digit? c).isSome = true := by
  unfold unsigned at h
  split at h
  · cases h
  · cases h
  · refine List.forall_mem_cons.mpr ⟨.inl rfl, fun c hc => .inr ?_⟩
    exact digit?_of_continueNumber h c hc
  · exact fun c hc => .inr (digit?_of_continueNumber h c hc)

theorem unsigned_toDigits {bound n : Nat} (h : n < bound) :
    unsigned bound (Nat.toDigits 10 n) = .ok n := by
  obtain ⟨digits, hnumeral, htext⟩ := exists_numeral (by decide : 1 < 10) n
  have hvalue : 0 * 10 ^ digits.length + Address.ofDigits 10 digits = n := by
    rw [Nat.zero_mul, Nat.zero_add, hnumeral.value]
  have hread := continueNumber_digits hnumeral.lt (hvalue.trans_lt h)
  rw [hvalue, ← htext] at hread
  rw [← hread]
  obtain ⟨d, rest, rfl⟩ := List.exists_cons_of_ne_nil hnumeral.ne_nil
  have hplus : d.digitChar ≠ '+' := by simp
  rw [htext, List.map_cons]
  unfold unsigned
  split <;> simp_all

theorem unsigned?_toDigits {bound n : Nat} (h : n < bound) :
    unsigned? bound (String.ofList (Nat.toDigits 10 n)) = some n := by
  rw [unsigned?, String.toList_ofList, unsigned_toDigits h]
  rfl

end Text

end IpRegistry
