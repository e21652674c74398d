import IpRegistry.Proofs.Cidr.Word

namespace IpRegistry.Cidr

theorem summarize_eq_error_iff {first last : Address} {e : CidrError} :
    summarize first last = .error e ↔
      first.family ≠ last.family ∧ e = .familyMismatch first last ∨
        first.family = last.family ∧ last.value < first.value ∧ e = .invertedRange first last := by
  unfold summarize
  split
  · rename_i hfamily
    split
    · rename_i hle
      simp [hfamily, hle]
    · rename_i hlt
      simp [hfamily, Nat.not_le.mp hlt, eq_comm]
  · rename_i hfamily
    simp [hfamily, eq_comm]

theorem range_le {first last : Address} (hfamily : first.family = last.family)
    (hle : first.value ≤ last.value) :
    first.value + (last.value - first.value + 1) ≤ 2 ^ first.family.bits := by
  have hlt := last.value_lt
  rw [← hfamily] at hlt
  omega

theorem summarize_eq_cover {first last : Address} (hfamily : first.family = last.family)
    (hle : first.value ≤ last.value) :
    summarize first last =
      .ok (cover first.family first.value (last.value - first.value + 1)
        (range_le hfamily hle)) := by
  rw [summarize, dif_pos hfamily, dif_pos hle]

theorem testBit_network (c : Cidr) {i : Nat} (hi : i < c.hostBits) :
    c.network.testBit i = false := by
  obtain ⟨q, hq⟩ := c.aligned
  have hnetwork : c.network = 2 ^ c.hostBits * q := hq
  rw [hnetwork, Nat.testBit_two_pow_mul]
  simp [Nat.not_le.mpr hi]

/-- A range is refused if and only if its ends are of different families or the wrong way round. The
blocks of any other range have no bit set after the fixed ones, stand side by side from the first
address to the last one, have exactly the addresses between them, and are as few as can be; the loop
over words finds them without an overflow. -/
theorem summarize_exact (first last : Address) :
    (∀ e, summarize first last = .error e ↔
      first.family ≠ last.family ∧ e = .familyMismatch first last ∨
        first.family = last.family ∧ last.value < first.value ∧ e = .invertedRange first last) ∧
    (first.family = last.family → first.value ≤ last.value →
      ∃ blocks, summarize first last = .ok blocks ∧
        wordCover? first.family (.ofNat first.value) (.ofNat last.value) =
          some (blocks.map wordBlock) ∧
        (∀ b ∈ blocks, b.family = first.family ∧ b.prefixLen ≤ b.family.bits ∧
          ∀ i < b.hostBits, b.network.testBit i = false) ∧
        blocks.Pairwise Precedes ∧
        Tiles first.family blocks first.value (last.value + 1) ∧
        (∀ a, a ∈ addresses blocks ↔
          a.family = first.family ∧ first.value ≤ a.value ∧ a.value ≤ last.value) ∧
        ∀ others, addresses others = addresses blocks → blocks.length ≤ others.length) := by
  refine ⟨fun e => summarize_eq_error_iff, fun hfamily hle => ?_⟩
  have hrange := range_le hfamily hle
  have hstop : first.value + (last.value - first.value + 1) = last.value + 1 := by omega
  have htiles := cover_tiles hrange
  have hword := wordCover?_eq hrange (Nat.succ_pos _)
  rw [hstop] at htiles
  rw [hstop, Nat.add_sub_cancel] at hword
  refine ⟨_, summarize_eq_cover hfamily hle, hword, fun b hb => ?_, htiles.ascending, htiles,
    fun a => ?_, fun others hset => (cover_canonical hrange).length_le hset⟩
  · exact ⟨(htiles.bounds hb).1, b.prefixLen_le, fun i hi => b.testBit_network hi⟩
  · rw [htiles.mem_addresses_iff, Nat.lt_succ_iff]

theorem summarize_exact_whole_space :
    let first : Address := ⟨.v6, 0, by decide⟩
    let last : Address := ⟨.v6, 2 ^ 128 - 1, by decide⟩
    first.family = last.family ∧ first.value ≤ last.value ∧
      ∃ blocks, summarize first last = .ok blocks ∧
        wordCover? .v6 (.ofNat 0) (.ofNat (2 ^ 128 - 1)) = some (blocks.map wordBlock) ∧
        blocks.length ≤ 1 := by
  intro first last
  obtain ⟨blocks, hok, hword, -, -, -, hmem, hmin⟩ :=
    (summarize_exact first last).2 rfl (by decide)
  let whole : Cidr := ⟨.v6, 0, 0, Nat.zero_le _, Nat.dvd_zero _, by decide⟩
  refine ⟨rfl, by decide, blocks, hok, hword, hmin [whole] ?_⟩
  ext a
  have hlt := a.value_lt
  rw [hmem, mem_addresses]
  simp only [List.mem_singleton, exists_eq_left, mem_iff]
  refine and_congr_right fun hfamily => ?_
  rw [show a.family = .v6 from hfamily] at hlt
  have hcount : whole.count = 2 ^ 128 := rfl
  rw [hcount]
  change a.value < 2 ^ 128 at hlt
  change 0 ≤ a.value ∧ a.value < 0 + 2 ^ 128 ↔ 0 ≤ a.value ∧ a.value ≤ 2 ^ 128 - 1
  omega

end IpRegistry.Cidr
