import IpRegistry.Cidr.Range
import IpRegistry.Proofs.Cidr.Canonical

namespace IpRegistry.Cidr

theorem le_freeBits {first count limit k : Nat} (hk : k ≤ limit) (hdvd : 2 ^ k ∣ first)
    (hle : 2 ^ k ≤ count) : k ≤ freeBits first count limit := by
  induction limit with
  | zero => exact hk
  | succ limit ih =>
      unfold freeBits
      split
      · exact hk
      · rename_i hno
        have hne : k ≠ limit + 1 := by
          rintro rfl
          exact hno ⟨hdvd, hle⟩
        exact ih (by omega)

theorem le_freeBits_iff {first count limit k : Nat} (hcount : 0 < count) :
    k ≤ freeBits first count limit ↔ k ≤ limit ∧ 2 ^ k ∣ first ∧ 2 ^ k ≤ count := by
  constructor
  · intro hk
    have hpow : 2 ^ k ∣ 2 ^ freeBits first count limit := Nat.pow_dvd_pow 2 hk
    refine ⟨hk.trans (freeBits_le ..), Nat.dvd_trans hpow (pow_freeBits_dvd ..), ?_⟩
    exact (Nat.pow_le_pow_right (by decide) hk).trans (pow_freeBits_le _ _ hcount)
  · rintro ⟨hlimit, hdvd, hle⟩
    exact le_freeBits hlimit hdvd hle

variable {family : Family} {first count : Nat}

theorem cover_zero (h : first + 0 ≤ 2 ^ family.bits) : cover family first 0 h = [] := by
  rw [cover]
  rfl

/-- A cover starts with the block of as many free bits as can be, and goes on after it. -/
theorem cover_eq_cons (h : first + count ≤ 2 ^ family.bits) (hcount : 0 < count) :
    ∃ b : Cidr, b.family = family ∧ b.network = first ∧
      b.hostBits = freeBits first count family.bits ∧ b.count ≤ count ∧
        ∃ h', cover family first count h =
          b :: cover family (first + b.count) (count - b.count) h' := by
  have hk : freeBits first count family.bits ≤ family.bits := freeBits_le ..
  have hfit := pow_freeBits_le first family.bits hcount
  have hpos := Nat.two_pow_pos (freeBits first count family.bits)
  let b : Cidr :=
    { family
      network := first
      prefixLen := family.bits - freeBits first count family.bits
      prefixLen_le := Nat.sub_le ..
      aligned := by
        rw [Nat.sub_sub_self hk]
        exact pow_freeBits_dvd ..
      network_lt := by omega }
  have hbits : b.hostBits = freeBits first count family.bits := Nat.sub_sub_self hk
  have hb : b.count = 2 ^ freeBits first count family.bits := by rw [Cidr.count, hbits]
  refine ⟨b, rfl, rfl, hbits, hb ▸ hfit, by omega, ?_⟩
  rw [cover, dif_neg (by omega)]
  simp only [hb]
  rfl

/-- The first block starts at `start`, each other one right after the one before it, and the last
one ends right before `stop`. -/
def Tiles (family : Family) : List Cidr → (start stop : Nat) → Prop
  | [], start, stop => start = stop
  | b :: rest, start, stop =>
      b.family = family ∧ b.network = start ∧ Tiles family rest (start + b.count) stop

theorem cover_tiles (h : first + count ≤ 2 ^ family.bits) :
    Tiles family (cover family first count h) first (first + count) := by
  induction count using Nat.strong_induction_on generalizing first with
  | _ count ih =>
      rcases Nat.eq_zero_or_pos count with rfl | hcount
      · rw [cover_zero]
        rfl
      · obtain ⟨b, hfamily, hnetwork, -, hfit, h', heq⟩ := cover_eq_cons h hcount
        have hpos := b.count_pos
        have hrest := ih (count - b.count) (by omega) h'
        rw [heq]
        refine ⟨hfamily, hnetwork, ?_⟩
        rwa [show first + b.count + (count - b.count) = first + count by omega] at hrest

namespace Tiles

variable {blocks : List Cidr} {start stop : Nat}

theorem start_le (h : Tiles family blocks start stop) : start ≤ stop := by
  induction blocks generalizing start with
  | nil => exact Nat.le_of_eq h
  | cons b rest ih =>
      have := ih h.2.2
      omega

theorem bounds (h : Tiles family blocks start stop) {b : Cidr} (hb : b ∈ blocks) :
    b.family = family ∧ start ≤ b.network ∧ b.network + b.count ≤ stop := by
  induction blocks generalizing start with
  | nil => simp at hb
  | cons c rest ih =>
      obtain ⟨hfamily, hnetwork, hrest⟩ := h
      rcases List.mem_cons.mp hb with rfl | hb
      · have := hrest.start_le
        exact ⟨hfamily, by omega, by omega⟩
      · obtain ⟨hbf, hlo, hhi⟩ := ih hrest hb
        exact ⟨hbf, by omega, hhi⟩

theorem ascending (h : Tiles family blocks start stop) : blocks.Pairwise Precedes := by
  induction blocks generalizing start with
  | nil => exact List.Pairwise.nil
  | cons c rest ih =>
      obtain ⟨hfamily, hnetwork, hrest⟩ := h
      refine List.pairwise_cons.mpr ⟨fun b hb => ?_, ih hrest⟩
      obtain ⟨hbf, hlo, -⟩ := hrest.bounds hb
      exact .inr ⟨hfamily.trans hbf.symm, by omega⟩

theorem mem_addresses_iff (h : Tiles family blocks start stop) {a : Address} :
    a ∈ addresses blocks ↔ a.family = family ∧ start ≤ a.value ∧ a.value < stop := by
  induction blocks generalizing start with
  | nil =>
      have hstop : start = stop := h
      simp only [mem_addresses, List.not_mem_nil, false_and, exists_false, false_iff]
      omega
  | cons c rest ih =>
      obtain ⟨hfamily, hnetwork, hrest⟩ := h
      have hle := hrest.start_le
      have hsplit : a ∈ addresses (c :: rest) ↔ a ∈ c ∨ a ∈ addresses rest := by
        simp [mem_addresses]
      rw [hsplit, ih hrest, mem_iff, hfamily, hnetwork, ← and_or_left]
      refine and_congr_right fun _ => ?_
      omega

end Tiles

theorem aligned_end_le {x j k : Nat} (hj : 2 ^ j ∣ x) (hk : 2 ^ k ∣ first) (hlo : first ≤ x)
    (hhi : x < first + 2 ^ k) (hmax : 2 ^ j ∣ first → j ≤ k) : x + 2 ^ j ≤ first + 2 ^ k := by
  have hjk : j ≤ k := by
    by_contra hlt
    have hdvd : 2 ^ k ∣ x := Nat.dvd_trans (Nat.pow_dvd_pow 2 (by omega)) hj
    obtain ⟨d, rfl⟩ := Nat.exists_eq_add_of_le hlo
    have hd : d = 0 := Nat.eq_zero_of_dvd_of_lt ((Nat.dvd_add_right hk).mp hdvd) (by omega)
    exact hlt (hmax (by simpa [hd] using hj))
  -- Both ends are multiples of the smaller power, so the interval cannot stick out by less than it.
  obtain ⟨q, hq⟩ := hj
  obtain ⟨r, hr⟩ : 2 ^ j ∣ first + 2 ^ k :=
    Nat.dvd_add (Nat.dvd_trans (Nat.pow_dvd_pow 2 hjk) hk) (Nat.pow_dvd_pow 2 hjk)
  rw [hq, hr] at hhi ⊢
  have hlt : q < r := Nat.lt_of_mul_lt_mul_left hhi
  calc
    2 ^ j * q + 2 ^ j = 2 ^ j * (q + 1) := (Nat.mul_succ _ _).symm
    _ ≤ 2 ^ j * r := Nat.mul_le_mul_left _ hlt

theorem exists_within_cover (h : first + count ≤ 2 ^ family.bits) {c : Cidr}
    (hfamily : c.family = family) (hlo : first ≤ c.network)
    (hhi : c.network + c.count ≤ first + count) :
    ∃ b ∈ cover family first count h, c.Within b := by
  induction count using Nat.strong_induction_on generalizing first with
  | _ count ih =>
      have hpos := c.count_pos
      obtain ⟨b, hbf, hbn, hbits, hfit, h', heq⟩ := cover_eq_cons h (by omega)
      have hbpos := b.count_pos
      rw [heq]
      by_cases hin : c.network < first + b.count
      · have hmax : 2 ^ c.hostBits ∣ first → c.hostBits ≤ b.hostBits := by
          intro hdvd
          rw [hbits]
          exact le_freeBits (hfamily ▸ c.hostBits_le) hdvd (by change c.count ≤ count; omega)
        have hend := aligned_end_le c.aligned (hbn ▸ b.aligned) hlo hin hmax
        refine ⟨b, List.mem_cons_self, within_iff.mpr ⟨hfamily.trans hbf.symm, by omega, ?_⟩⟩
        rw [hbn]
        exact hend
      · obtain ⟨d, hd, hcd⟩ := ih (count - b.count) (by omega) h' (by omega) (by omega)
        exact ⟨d, List.mem_cons_of_mem _ hd, hcd⟩

theorem cover_canonical (h : first + count ≤ 2 ^ family.bits) :
    Canonical (cover family first count h) where
  ascending := (cover_tiles h).ascending
  absorbs c hc := by
    have htiles := cover_tiles h
    obtain ⟨hfamily, hlo, -⟩ := htiles.mem_addresses_iff.mp (hc _ c.first_mem)
    obtain ⟨-, -, hhi⟩ := htiles.mem_addresses_iff.mp (hc _ c.last_mem)
    have hend := c.last_value_add_one
    exact exists_within_cover h hfamily hlo (by omega)

end IpRegistry.Cidr
