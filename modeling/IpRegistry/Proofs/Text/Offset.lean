import IpRegistry.Text.Offset
import Mathlib.Data.List.Basic
import Mathlib.Order.Bounds.Defs

namespace IpRegistry.Text

theorem byteLength_append (front rest : List Char) :
    byteLength (front ++ rest) = byteLength front + byteLength rest := by
  induction front with
  | nil => exact (Nat.zero_add _).symm
  | cons c front ih => rw [List.cons_append, byteLength, byteLength, ih, Nat.add_assoc]

theorem byteLength_eq_zero_iff {cs : List Char} : byteLength cs = 0 ↔ cs = [] := by
  cases cs with
  | nil => exact iff_of_true rfl rfl
  | cons c cs =>
      have hsize := c.utf8Size_pos
      refine iff_of_false ?_ (List.cons_ne_nil c cs)
      rw [byteLength]
      omega

variable (front rest : List Char) (i : Nat)

theorem takeBytes_append :
    takeBytes (front ++ rest) (byteLength front + i) = front ++ takeBytes rest i := by
  induction front with
  | nil => rw [List.nil_append, List.nil_append, byteLength, Nat.zero_add]
  | cons c front ih =>
      rw [List.cons_append, takeBytes, byteLength, if_neg (by omega), List.cons_append]
      rw [show c.utf8Size + byteLength front + i - c.utf8Size = byteLength front + i by omega, ih]

theorem dropBytes_append : dropBytes (front ++ rest) (byteLength front + i) = dropBytes rest i := by
  induction front with
  | nil => rw [List.nil_append, byteLength, Nat.zero_add]
  | cons c front ih =>
      have hsize := c.utf8Size_pos
      rw [List.cons_append, dropBytes, byteLength, if_neg (by omega)]
      rw [show c.utf8Size + byteLength front + i - c.utf8Size = byteLength front + i by omega, ih]

theorem floorBoundary_append :
    floorBoundary (front ++ rest) (byteLength front + i) =
      byteLength front + floorBoundary rest i := by
  induction front with
  | nil => rw [List.nil_append, byteLength, Nat.zero_add, Nat.zero_add]
  | cons c front ih =>
      rw [List.cons_append, floorBoundary, byteLength, if_neg (by omega)]
      rw [show c.utf8Size + byteLength front + i - c.utf8Size = byteLength front + i by omega, ih,
        Nat.add_assoc]

theorem ceilBoundary_append :
    ceilBoundary (front ++ rest) (byteLength front + i) =
      byteLength front + ceilBoundary rest i := by
  induction front with
  | nil => rw [List.nil_append, byteLength, Nat.zero_add, Nat.zero_add]
  | cons c front ih =>
      have hsize := c.utf8Size_pos
      rw [List.cons_append, ceilBoundary, byteLength, if_neg (by omega), if_neg (by omega)]
      rw [show c.utf8Size + byteLength front + i - c.utf8Size = byteLength front + i by omega, ih,
        Nat.add_assoc]

theorem takeBytes_zero (cs : List Char) : takeBytes cs 0 = [] := by
  cases cs with
  | nil => rfl
  | cons c cs => rw [takeBytes, if_pos c.utf8Size_pos]

theorem takeBytes_prefix (cs : List Char) {i j : Nat} (h : i ≤ j) :
    takeBytes cs i <+: takeBytes cs j := by
  induction cs generalizing i j with
  | nil => exact List.prefix_rfl
  | cons c cs ih =>
      rw [takeBytes, takeBytes]
      split
      · exact List.nil_prefix
      · rw [if_neg (by omega)]
        exact (List.prefix_cons_inj c).2 (ih (Nat.sub_le_sub_right h _))

theorem dropBytes_zero (cs : List Char) : dropBytes cs 0 = cs := by
  cases cs with
  | nil => rfl
  | cons c cs => rw [dropBytes, if_pos rfl]

theorem floorBoundary_zero (cs : List Char) : floorBoundary cs 0 = 0 := by
  cases cs with
  | nil => rfl
  | cons c cs => rw [floorBoundary, if_pos c.utf8Size_pos]

theorem takeBytes_byteLength : takeBytes (front ++ rest) (byteLength front) = front := by
  have h := takeBytes_append front rest 0
  rwa [Nat.add_zero, takeBytes_zero, List.append_nil] at h

theorem dropBytes_byteLength : dropBytes (front ++ rest) (byteLength front) = rest := by
  have h := dropBytes_append front rest 0
  rwa [Nat.add_zero, dropBytes_zero] at h

theorem floorBoundary_byteLength :
    floorBoundary (front ++ rest) (byteLength front) = byteLength front := by
  have h := floorBoundary_append front rest 0
  rwa [Nat.add_zero, floorBoundary_zero, Nat.add_zero] at h

/-- A part of a text that begins behind `front` is a part of what follows `front`. -/
theorem slice_append (start stop : Nat) :
    slice (front ++ rest) (byteLength front + start) (byteLength front + stop) =
      slice rest start stop := by
  rw [slice, slice, dropBytes_append, Nat.add_sub_add_left]

theorem isBoundary_zero (cs : List Char) : isBoundary cs 0 = true := by
  cases cs <;> rfl

variable {i} in
theorem isBoundary_cons (c : Char) (cs : List Char) (h : 0 < i) :
    isBoundary (c :: cs) i =
      if i < c.utf8Size then false else isBoundary cs (i - c.utf8Size) := by
  cases i with
  | zero => cases h
  | succ i => rfl

theorem isBoundary_append :
    isBoundary (front ++ rest) (byteLength front + i) = isBoundary rest i := by
  induction front with
  | nil => rw [List.nil_append, byteLength, Nat.zero_add]
  | cons c front ih =>
      have hsize := c.utf8Size_pos
      rw [byteLength, List.cons_append, isBoundary_cons c _ (by omega), if_neg (by omega)]
      rw [show c.utf8Size + byteLength front + i - c.utf8Size = byteLength front + i by omega, ih]

variable {i}

theorem isBoundary_iff {cs : List Char} :
    isBoundary cs i = true ↔ ∃ front rest, cs = front ++ rest ∧ byteLength front = i := by
  constructor
  · intro h
    induction cs generalizing i with
    | nil =>
        cases i with
        | zero => exact ⟨[], [], rfl, rfl⟩
        | succ i => cases h
    | cons c cs ih =>
        cases i with
        | zero => exact ⟨[], c :: cs, rfl, rfl⟩
        | succ i =>
            rw [isBoundary_cons c cs (Nat.succ_pos i)] at h
            split at h
            · cases h
            · obtain ⟨front, rest, rfl, hfront⟩ := ih h
              exact ⟨c :: front, rest, rfl, by rw [byteLength]; omega⟩
  · rintro ⟨front, rest, rfl, rfl⟩
    have h := isBoundary_append front rest 0
    rwa [Nat.add_zero, isBoundary_zero] at h

theorem isBoundary_floorBoundary (cs : List Char) (i : Nat) :
    isBoundary cs (floorBoundary cs i) = true := by
  induction cs generalizing i with
  | nil => rfl
  | cons c cs ih =>
      rw [floorBoundary]
      split
      · rfl
      · have h := isBoundary_append [c] cs (floorBoundary cs (i - c.utf8Size))
        rw [ih] at h
        exact h

theorem takeBytes_sublist (cs : List Char) (i : Nat) : (takeBytes cs i).Sublist cs := by
  induction cs generalizing i with
  | nil => exact .slnil
  | cons c cs ih =>
      rw [takeBytes]
      split
      · exact List.nil_sublist _
      · exact (ih _).cons_cons c

theorem dropBytes_sublist (cs : List Char) (i : Nat) : (dropBytes cs i).Sublist cs := by
  induction cs generalizing i with
  | nil => exact .slnil
  | cons c cs ih =>
      rw [dropBytes]
      split
      · exact .refl _
      · exact (ih _).cons c

theorem slice_sublist (cs : List Char) (start stop : Nat) : (slice cs start stop).Sublist cs :=
  (takeBytes_sublist _ _).trans (dropBytes_sublist _ _)

theorem slice_byteLength (front part rest : List Char) :
    slice (front ++ part ++ rest) (byteLength front) (byteLength front + byteLength part) = part := by
  rw [slice, List.append_assoc, dropBytes_byteLength, Nat.add_sub_cancel_left, takeBytes_byteLength]

/-- A text between two offsets, and what stands before and behind it. -/
theorem exists_slice {cs : List Char} {start stop : Nat} (hstart : isBoundary cs start = true)
    (hstop : isBoundary cs stop = true) (hle : start ≤ stop) :
    ∃ front rest, cs = front ++ slice cs start stop ++ rest ∧ byteLength front = start ∧
      byteLength (slice cs start stop) = stop - start := by
  obtain ⟨front, rest, rfl, rfl⟩ := isBoundary_iff.1 hstart
  obtain ⟨i, rfl⟩ := Nat.exists_eq_add_of_le hle
  rw [isBoundary_append] at hstop
  obtain ⟨part, rest, rfl, rfl⟩ := isBoundary_iff.1 hstop
  rw [← List.append_assoc, slice_byteLength]
  exact ⟨front, rest, rfl, rfl, (Nat.add_sub_cancel_left ..).symm⟩

/-- A part of a text does not depend on what follows the text. -/
theorem slice_append_left {cs : List Char} {start stop : Nat} (hstart : isBoundary cs start = true)
    (hstop : isBoundary cs stop = true) (hle : start ≤ stop) (more : List Char) :
    slice (cs ++ more) start stop = slice cs start stop := by
  obtain ⟨front, rest, hcs, hfront, hlength⟩ := exists_slice hstart hstop hle
  generalize slice cs start stop = part at *
  subst hcs hfront
  rw [slice, List.append_assoc, List.append_assoc, dropBytes_byteLength, ← hlength,
    takeBytes_byteLength]

theorem le_of_isBoundary {cs : List Char} (h : isBoundary cs i = true) : i ≤ byteLength cs := by
  obtain ⟨front, rest, rfl, rfl⟩ := isBoundary_iff.1 h
  rw [byteLength_append]
  exact Nat.le_add_right ..

/-- The boundaries up to the end of a text do not depend on what follows the text. -/
theorem isBoundary_append_left {front : List Char} (h : i ≤ byteLength front) (rest : List Char) :
    isBoundary (front ++ rest) i = isBoundary front i := by
  induction front generalizing i with
  | nil =>
      cases Nat.le_zero.1 h
      rw [isBoundary_zero, isBoundary_zero]
  | cons c front ih =>
      rcases Nat.eq_zero_or_pos i with rfl | hpos
      · rw [isBoundary_zero, isBoundary_zero]
      · rw [byteLength] at h
        rw [List.cons_append, isBoundary_cons c _ hpos, isBoundary_cons c _ hpos, ih (by omega)]

/-- A boundary behind the first character is one of the text that follows it. -/
theorem exists_of_isBoundary_cons {c : Char} {cs : List Char} (h : isBoundary (c :: cs) i = true)
    (hpos : 0 < i) :
    ∃ j, isBoundary cs j = true ∧ i = c.utf8Size + j := by
  rw [isBoundary_cons c cs hpos] at h
  split at h
  · cases h
  · exact ⟨i - c.utf8Size, h, by omega⟩

theorem isBoundary_cons_add {c : Char} {cs : List Char} {j : Nat} :
    isBoundary (c :: cs) (c.utf8Size + j) = isBoundary cs j :=
  isBoundary_append [c] cs j

/-- Rounding down gives the last boundary that is not behind the offset. -/
theorem floorBoundary_isGreatest (cs : List Char) (i : Nat) :
    IsGreatest {j | isBoundary cs j = true ∧ j ≤ i} (floorBoundary cs i) := by
  induction cs generalizing i with
  | nil => exact ⟨⟨rfl, Nat.zero_le i⟩, fun j hj => le_of_isBoundary hj.1⟩
  | cons c cs ih =>
      have hboundary := isBoundary_floorBoundary (c :: cs) i
      rw [floorBoundary] at hboundary ⊢
      split at hboundary
      · rename_i hlt
        rw [if_pos hlt]
        refine ⟨⟨hboundary, Nat.zero_le i⟩, fun j hj => ?_⟩
        by_contra hpos
        obtain ⟨k, -, rfl⟩ := exists_of_isBoundary_cons hj.1 (Nat.lt_of_not_le hpos)
        exact absurd hj.2 (by omega)
      · rename_i hge
        rw [if_neg hge]
        obtain ⟨⟨-, hle⟩, hgreatest⟩ := ih (i - c.utf8Size)
        refine ⟨⟨hboundary, by omega⟩, fun j hj => ?_⟩
        rcases Nat.eq_zero_or_pos j with rfl | hpos
        · exact Nat.zero_le _
        · obtain ⟨k, hk, rfl⟩ := exists_of_isBoundary_cons hj.1 hpos
          have hji : c.utf8Size + k ≤ i := hj.2
          exact Nat.add_le_add_left (hgreatest ⟨hk, by omega⟩) _

theorem ceilBoundary_of_le (cs : List Char) {i : Nat} (h : byteLength cs ≤ i) :
    ceilBoundary cs i = i := by
  obtain ⟨k, rfl⟩ := Nat.exists_eq_add_of_le h
  have h := ceilBoundary_append cs [] k
  rwa [List.append_nil] at h

/-- Rounding up gives the first boundary that is not before the offset. -/
theorem ceilBoundary_isLeast {cs : List Char} {i : Nat} (h : i ≤ byteLength cs) :
    IsLeast {j | isBoundary cs j = true ∧ i ≤ j} (ceilBoundary cs i) := by
  induction cs generalizing i with
  | nil =>
      rw [ceilBoundary]
      cases Nat.le_zero.1 h
      exact ⟨⟨rfl, Nat.le_refl 0⟩, fun j _ => Nat.zero_le j⟩
  | cons c cs ih =>
      rw [byteLength] at h
      rw [ceilBoundary]
      split
      · rename_i hzero
        subst hzero
        exact ⟨⟨rfl, Nat.le_refl 0⟩, fun j _ => Nat.zero_le j⟩
      · rename_i hpos
        have hbehind : ∀ j, isBoundary (c :: cs) j = true → i ≤ j →
            ∃ k, isBoundary cs k = true ∧ j = c.utf8Size + k := fun j hj hle =>
          exists_of_isBoundary_cons hj (by omega)
        split
        · rename_i hlt
          refine ⟨⟨?_, Nat.le_of_lt hlt⟩, fun j hj => ?_⟩
          · exact (isBoundary_cons_add (j := 0)).trans (isBoundary_zero cs)
          · obtain ⟨k, -, rfl⟩ := hbehind j hj.1 hj.2
            exact Nat.le_add_right ..
        · obtain ⟨⟨hboundary, hle⟩, hleast⟩ := ih (i := i - c.utf8Size) (by omega)
          refine ⟨⟨isBoundary_cons_add.trans hboundary, by omega⟩, fun j hj => ?_⟩
          obtain ⟨k, hk, rfl⟩ := hbehind j hj.1 hj.2
          have hij : i ≤ c.utf8Size + k := hj.2
          exact Nat.add_le_add_left (hleast ⟨hk, by omega⟩) _

end IpRegistry.Text
