import IpRegistry.Proofs.Cidr.Range
import IpRegistry.Proofs.Cidr.WordSpans

namespace IpRegistry.Cidr

open IpRegistry.Cidr.Span

def covers (spans : List Span) : List Cidr :=
  spans.flatMap fun s => cover s.family s.first s.count s.le_bits

theorem mem_addresses_covers {spans : List Span} {a : Address} :
    a ∈ addresses (covers spans) ↔ a ∈ spanAddresses spans := by
  have hcover (s : Span) : (∃ c ∈ cover s.family s.first s.count s.le_bits, a ∈ c) ↔ a ∈ s :=
    (cover_tiles s.le_bits).mem_addresses_iff
  rw [mem_addresses, mem_spanAddresses]
  simp only [covers, List.mem_flatMap, ← hcover]
  constructor
  · rintro ⟨c, ⟨s, hs, hc⟩, ha⟩
    exact ⟨s, hs, c, hc, ha⟩
  · rintro ⟨s, hs, c, hc, ha⟩
    exact ⟨c, ⟨s, hs, hc⟩, ha⟩

/-- A block of addresses of ranges with gaps lies within the range that has its first address: the
first address after that range is in no range. -/
theorem end_le_of_gaps {spans : List Span} (h : spans.Pairwise Gap) {s : Span} (hs : s ∈ spans)
    {c : Cidr} (hfirst : c.first ∈ s) (hc : ∀ a ∈ c, a ∈ spanAddresses spans) :
    c.network + c.count ≤ s.first + s.count := by
  obtain ⟨hfamily, hlo, hhi⟩ := hfirst
  by_contra hlt
  have hend := c.network_add_count_le
  simp only [first_family, first_value] at hfamily hlo hhi
  let after : Address := ⟨c.family, s.first + s.count, by omega⟩
  have hvalue : after.value = s.first + s.count := rfl
  have hafter : after ∈ c := mem_iff.mpr ⟨rfl, by omega, by omega⟩
  obtain ⟨t, ht, htf, htlo, hthi⟩ := hc after hafter
  have hne : s ≠ t := by
    rintro rfl
    omega
  have hapart := (h.imp Gap.separate).forall hs ht hne (hfamily.symm.trans htf)
  omega

theorem covers_canonical {spans : List Span} (h : spans.Pairwise Gap) :
    Canonical (covers spans) where
  ascending := by
    refine List.pairwise_flatMap.mpr ⟨fun s _ => (cover_tiles s.le_bits).ascending, ?_⟩
    refine h.imp fun {s t} hgap c hc d hd => ?_
    obtain ⟨hcf, -, hcend⟩ := (cover_tiles s.le_bits).bounds hc
    obtain ⟨hdf, hdlo, -⟩ := (cover_tiles t.le_bits).bounds hd
    rcases hgap with ⟨hs, ht⟩ | ⟨hfamily, hlt⟩
    · exact .inl ⟨hcf.trans hs, hdf.trans ht⟩
    · exact .inr ⟨hcf.trans (hfamily.trans hdf.symm), by omega⟩
  absorbs c hc := by
    have hspans : ∀ a ∈ c, a ∈ spanAddresses spans := fun a ha => mem_addresses_covers.mp (hc a ha)
    obtain ⟨s, hs, hfirst⟩ := hspans _ c.first_mem
    have hend := end_le_of_gaps h hs hfirst hspans
    obtain ⟨b, hb, hcb⟩ := exists_within_cover s.le_bits hfirst.1 hfirst.2.1 hend
    exact ⟨b, List.mem_flatMap.mpr ⟨s, hs, hb⟩, hcb⟩

theorem collapse_canonical (blocks : List Cidr) : Canonical (collapse blocks) :=
  covers_canonical (spans_gaps blocks)

@[simp] theorem addresses_collapse (blocks : List Cidr) :
    addresses (collapse blocks) = addresses blocks := by
  rw [← spanAddresses_spans blocks]
  ext a
  exact mem_addresses_covers

theorem collapse_eq_iff {blocks others : List Cidr} :
    collapse others = collapse blocks ↔ addresses others = addresses blocks := by
  constructor
  · intro h
    rw [← addresses_collapse others, h, addresses_collapse]
  · intro h
    exact (collapse_canonical blocks).eq_of_addresses_eq (collapse_canonical others) (by simpa)

theorem Canonical.collapse_eq {blocks : List Cidr} (h : Canonical blocks) :
    collapse blocks = blocks :=
  h.eq_of_addresses_eq (collapse_canonical blocks) (addresses_collapse blocks)

theorem summarize_map_collapse (first last : Address) :
    (summarize first last).map collapse = summarize first last := by
  by_cases hfamily : first.family = last.family
  · by_cases hle : first.value ≤ last.value
    · rw [summarize_eq_cover hfamily hle]
      exact congrArg Except.ok (cover_canonical _).collapse_eq
    · rw [summarize, dif_pos hfamily, dif_neg hle]
      rfl
  · rw [summarize, dif_neg hfamily]
    rfl

/-- The shortest form of a list has its addresses, ascends without common addresses, and is no
longer than any list with these addresses. Lists have the same shortest form if and only if they
have the same addresses, so neither order nor repetitions matter, and a shortest form and the blocks
of a range are their own shortest forms. The joins of words find it without an overflow. -/
theorem collapse_canonical_form (blocks : List Cidr) :
    addresses (collapse blocks) = addresses blocks ∧
    (collapse blocks).Pairwise (fun c d => c.le d = true ∧ c ≠ d) ∧
    (collapse blocks).Pairwise Apart ∧
    (∀ others, addresses others = addresses blocks → (collapse blocks).length ≤ others.length) ∧
    (∀ others, collapse others = collapse blocks ↔ addresses others = addresses blocks) ∧
    collapse (collapse blocks) = collapse blocks ∧
    (∀ others, (∀ c, c ∈ others ↔ c ∈ blocks) → collapse others = collapse blocks) ∧
    (∀ first last, (summarize first last).map collapse = summarize first last) ∧
    wordCollapse? blocks = some ((collapse blocks).map wordBlock) := by
  have hcanonical := collapse_canonical blocks
  refine ⟨addresses_collapse blocks, hcanonical.ascending.imp fun h => ⟨h.le, h.ne⟩,
    hcanonical.ascending.imp Precedes.apart, fun others hset => ?_, fun others => collapse_eq_iff,
    hcanonical.collapse_eq, fun others hmem => ?_, summarize_map_collapse, wordCollapse?_eq blocks⟩
  · exact hcanonical.length_le (hset.trans (addresses_collapse blocks).symm)
  · exact collapse_eq_iff.mpr (addresses_congr hmem)

theorem collapse_canonical_form_halves :
    let low : Cidr := ⟨.v4, 0, 1, by decide, Nat.dvd_zero _, by decide⟩
    let high : Cidr := ⟨.v4, 2 ^ 31, 1, by decide, Nat.dvd_refl _, by decide⟩
    let whole : Cidr := ⟨.v4, 0, 0, by decide, Nat.dvd_zero _, by decide⟩
    addresses [high, low] = addresses [whole] ∧ collapse [high, low] = collapse [whole] ∧
      (collapse [high, low]).length ≤ 1 := by
  intro low high whole
  have hset : addresses [high, low] = addresses [whole] := by
    ext a
    have hlow : low.count = 2 ^ 31 := rfl
    have hhigh : high.count = 2 ^ 31 := rfl
    have hwhole : whole.count = 2 ^ 32 := rfl
    simp only [mem_addresses, List.mem_cons, List.not_mem_nil, or_false, exists_eq_or_imp,
      exists_eq_left, mem_iff, hlow, hhigh, hwhole, low, high, whole, ← and_or_left]
    refine and_congr_right fun _ => ?_
    omega
  obtain ⟨-, -, -, hmin, hiff, -⟩ := collapse_canonical_form [whole]
  have heq := (hiff [high, low]).mpr hset
  exact ⟨hset, heq, heq ▸ hmin [whole] rfl⟩

end IpRegistry.Cidr
