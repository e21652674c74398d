import IpRegistry.Proofs.Cidr.Spans
import IpRegistry.Proofs.Cidr.Word
import IpRegistry.Proofs.Traverse

namespace IpRegistry.Cidr

/-- A range with its ends as words. -/
def Span.words (s : Span) : WordSpan :=
  ⟨s.family, .ofNat s.first, .ofNat (s.first + s.count - 1)⟩

theorem span_count_pos (c : Cidr) : 0 < c.span.count :=
  c.count_pos

theorem count_pos_of_mem_map_span (blocks : List Cidr) : ∀ s ∈ blocks.map span, 0 < s.count := by
  intro s hs
  obtain ⟨c, -, rfl⟩ := List.mem_map.mp hs
  exact c.count_pos

theorem and_not_and_not (x y : Word) : x &&& ~~~(x &&& ~~~y) = x &&& y := by
  refine BitVec.eq_of_getLsbD_eq fun i hi => ?_
  simp only [BitVec.getLsbD_and, BitVec.getLsbD_not, hi, decide_true, Bool.true_and]
  cases x.getLsbD i <;> simp

theorem lowest_and_lowest {h bits : Nat} (hle : h ≤ bits) (hbits : bits ≤ 128) :
    Word.ofNat (2 ^ bits - 1) &&& Word.ofNat (2 ^ h - 1) = Word.ofNat (2 ^ h - 1) := by
  have hpow : 2 ^ h ≤ 2 ^ bits := Nat.pow_le_pow_right (by decide) hle
  have hmax : 2 ^ bits ≤ 2 ^ 128 := Nat.pow_le_pow_right (by decide) hbits
  have hpos := Nat.two_pow_pos h
  refine BitVec.eq_of_toNat_eq ?_
  rw [BitVec.toNat_and, Word.toNat_ofNat (by omega), Word.toNat_ofNat (by omega), Nat.and_comm,
    Nat.and_two_pow_sub_one_eq_mod, Nat.mod_eq_of_lt (by omega)]

theorem network_or_lowest (c : Cidr) :
    Word.ofNat c.network ||| Word.ofNat (2 ^ c.hostBits - 1) =
      Word.ofNat (c.network + c.count - 1) := by
  have hend := c.network_add_count_le
  have hbits := c.family.two_pow_bits_le
  have hpos := c.count_pos
  have hcount : c.count = 2 ^ c.hostBits := rfl
  obtain ⟨q, hq⟩ := c.count_dvd_network
  refine BitVec.eq_of_toNat_eq ?_
  rw [BitVec.toNat_or, Word.toNat_ofNat (by omega), Word.toNat_ofNat (by omega),
    Word.toNat_ofNat (by omega), ← hcount, Nat.add_sub_assoc hpos, hq]
  exact (Nat.two_pow_add_eq_or_of_lt (by omega) q).symm

theorem wordMask?_eq {family : Family} {prefixLen : Nat} (h : prefixLen ≤ family.bits) :
    wordMask? family prefixLen =
      some (Word.ofNat (2 ^ family.bits - 1) &&&
        ~~~Word.ofNat (2 ^ (family.bits - prefixLen) - 1)) := by
  have hbits := family.bits_le
  unfold wordMask?
  rw [Word.less?_eq h, Word.lowest?_eq hbits]
  simp only [Option.bind_eq_bind, Option.bind_some]
  rw [Word.lowest?_eq (by omega)]
  rfl

theorem wordBlock_span? (c : Cidr) : c.wordBlock.span? = some c.span.words := by
  have hhost : c.family.bits - c.prefixLen = c.hostBits := rfl
  unfold WordBlock.span? wordBlock
  simp only [Word.lowest?_eq c.family.bits_le, wordMask?_eq c.prefixLen_le, Option.bind_eq_bind,
    Option.bind_some, Option.pure_def]
  rw [and_not_and_not, hhost, lowest_and_lowest c.hostBits_le c.family.bits_le, network_or_lowest]
  simp only [Span.words, span]

theorem getLsbD_lowest {bits i : Nat} (hi : i < 128) :
    (Word.ofNat (2 ^ bits - 1)).getLsbD i = decide (i < bits) := by
  rw [Word.ofNat, BitVec.getLsbD_ofNat, Nat.testBit_two_pow_sub_one]
  simp [hi]

theorem and_mask {bits host value : Nat} (h : value < 2 ^ bits) :
    Word.ofNat value &&& (Word.ofNat (2 ^ bits - 1) &&& ~~~Word.ofNat (2 ^ host - 1)) =
      Word.ofNat (value / 2 ^ host * 2 ^ host) := by
  refine BitVec.eq_of_getLsbD_eq fun i hi => ?_
  rw [BitVec.getLsbD_and, BitVec.getLsbD_and, BitVec.getLsbD_not, getLsbD_lowest hi,
    getLsbD_lowest hi, Word.ofNat, Word.ofNat, BitVec.getLsbD_ofNat, BitVec.getLsbD_ofNat,
    Nat.testBit_mul_two_pow, Nat.testBit_div_two_pow]
  by_cases hbits : i < bits
  · by_cases hhost : i < host
    · simp [hhost, Nat.not_le.mpr hhost]
    · simp [hi, hbits, hhost, Nat.not_lt.mp hhost]
  · have hzero : value.testBit i = false :=
      Nat.testBit_lt_two_pow (h.trans_le (Nat.pow_le_pow_right (by decide) (by omega)))
    by_cases hhost : host ≤ i
    · simp [hzero, hhost]
    · simp [hzero, hhost]

/-- The mask of a block tells its addresses. -/
theorem wordContains?_eq (c : Cidr) (a : Address) : c.wordContains? a = some (c.contains a) := by
  unfold wordContains? contains
  by_cases hfamily : a.family = c.family
  · have hvalue : a.value < 2 ^ c.family.bits := hfamily ▸ a.value_lt
    have hbits := c.family.two_pow_bits_le
    have hmasked := Nat.div_mul_le_self a.value (2 ^ c.hostBits)
    have hnetwork := c.network_lt
    have hagrees : a.value / 2 ^ c.hostBits * 2 ^ c.hostBits = c.network ↔
        a.value / 2 ^ c.hostBits = c.network / 2 ^ c.hostBits :=
      eq_comm.trans (Nat.eq_div_iff_mul_eq_left (Nat.two_pow_pos _).ne' c.aligned).symm
    have hhost : c.family.bits - c.prefixLen = c.hostBits := rfl
    rw [if_pos hfamily, wordMask?_eq c.prefixLen_le]
    simp only [Option.bind_eq_bind, Option.bind_some, Option.pure_def]
    rw [hhost, and_mask hvalue]
    simp only [Word.ofNat_inj (hmasked.trans_lt (hvalue.trans_le hbits)) (hnetwork.trans_le hbits),
      hagrees, hfamily, decide_true, Bool.true_and, beq_eq_decide]
  · simp [hfamily]

theorem Span.last_lt (s : Span) : s.first + s.count - 1 < 2 ^ 128 := by
  have hend := s.le_bits
  have hbits := s.family.two_pow_bits_le
  omega

theorem Span.first_lt {s : Span} (h : 0 < s.count) : s.first < 2 ^ 128 := by
  have hlast := s.last_lt
  omega

theorem touches?_words {s t : Span} (hs : 0 < s.count) (ht : 0 < t.count) :
    s.words.touches? t.words =
      some (decide (s.family = t.family ∧ t.first ≤ s.first + s.count)) := by
  have hslt := s.last_lt
  have htlt := Span.first_lt ht
  unfold WordSpan.touches? Span.words
  by_cases hfamily : s.family = t.family
  · rw [if_pos hfamily]
    by_cases hle : t.first ≤ s.first + s.count - 1
    · rw [if_pos ((Word.ofNat_le_iff htlt hslt).mpr hle)]
      have hend : t.first ≤ s.first + s.count := by omega
      simp [hfamily, hend]
    · rw [if_neg (mt (Word.ofNat_le_iff htlt hslt).mp hle), show (1 : Word) = .ofNat 1 from rfl,
        Word.sub?_ofNat htlt (by omega)]
      have hend : t.first - 1 = s.first + s.count - 1 ↔ t.first ≤ s.first + s.count := by omega
      simp [hfamily, Word.ofNat_inj (show t.first - 1 < 2 ^ 128 by omega) hslt, hend]
  · rw [if_neg hfamily]
    simp [hfamily]

theorem extend_words {s t joined : Span} (hjoin : s.join? t = some joined) :
    s.words.extend t.words = joined.words := by
  unfold Span.join? at hjoin
  split at hjoin
  · cases hjoin
    unfold WordSpan.extend Span.words
    by_cases hlt : s.first + s.count - 1 < t.first + t.count - 1
    · rw [if_pos ((Word.ofNat_lt_iff s.last_lt t.last_lt).mpr hlt),
        show s.first + max s.count (t.first + t.count - s.first) - 1 =
          t.first + t.count - 1 by omega]
    · rw [if_neg (mt (Word.ofNat_lt_iff s.last_lt t.last_lt).mp hlt),
        show s.first + max s.count (t.first + t.count - s.first) - 1 =
          s.first + s.count - 1 by omega]
  · cases hjoin

theorem join?_count_pos {s t joined : Span} (hs : 0 < s.count) (hjoin : s.join? t = some joined) :
    0 < joined.count := by
  unfold Span.join? at hjoin
  split at hjoin
  · cases hjoin
    exact Nat.lt_of_lt_of_le hs (Nat.le_max_left ..)
  · cases hjoin

theorem join?_eq_none_iff {s t : Span} :
    s.join? t = none ↔ ¬(s.family = t.family ∧ t.first ≤ s.first + s.count) := by
  unfold Span.join?
  split <;> simp_all

theorem wordJoin?_words {current : Span} {rest : List Span} (hcurrent : 0 < current.count)
    (hrest : ∀ s ∈ rest, 0 < s.count) :
    wordJoin? current.words (rest.map Span.words) =
      some ((joinSpans current rest).map Span.words) := by
  induction rest generalizing current with
  | nil => rfl
  | cons s rest ih =>
      have hs := hrest s List.mem_cons_self
      have htail : ∀ t ∈ rest, 0 < t.count := fun t ht => hrest t (List.mem_cons_of_mem _ ht)
      rw [List.map_cons, wordJoin?, touches?_words hcurrent hs]
      simp only [Option.bind_eq_bind, Option.bind_some, decide_eq_true_eq]
      cases hjoin : current.join? s with
      | none =>
          rw [if_neg (join?_eq_none_iff.mp hjoin), ih hs htail, joinSpans, hjoin]
          rfl
      | some joined =>
          have htouch : current.family = s.family ∧ s.first ≤ current.first + current.count := by
            by_contra hno
            rw [join?_eq_none_iff.mpr hno] at hjoin
            cases hjoin
          rw [if_pos htouch, extend_words hjoin, ih (join?_count_pos hcurrent hjoin) htail,
            joinSpans, hjoin]

theorem count_pos_of_mem_joinSpans {current : Span} {rest : List Span}
    (hcurrent : 0 < current.count) (hrest : ∀ s ∈ rest, 0 < s.count) {t : Span}
    (ht : t ∈ joinSpans current rest) :
    0 < t.count := by
  induction rest generalizing current with
  | nil =>
      rw [List.mem_singleton.mp ht]
      exact hcurrent
  | cons s rest ih =>
      have hs := hrest s List.mem_cons_self
      have htail : ∀ u ∈ rest, 0 < u.count := fun u hu => hrest u (List.mem_cons_of_mem _ hu)
      unfold joinSpans at ht
      split at ht
      · rename_i joined hjoin
        exact ih (join?_count_pos hcurrent hjoin) htail ht
      · rcases List.mem_cons.mp ht with rfl | ht
        · exact hcurrent
        · exact ih hs htail ht

theorem count_pos_of_mem_spans {blocks : List Cidr} {s : Span} (hs : s ∈ spans blocks) :
    0 < s.count := by
  unfold spans at hs
  split at hs
  · cases hs
  · exact count_pos_of_mem_joinSpans (span_count_pos _) (count_pos_of_mem_map_span _) hs

theorem wordJoins?_words (blocks : List Cidr) :
    wordJoins? ((blocks.mergeSort le).map (·.span.words)) =
      some ((spans blocks).map Span.words) := by
  unfold spans
  cases blocks.mergeSort le with
  | nil => rfl
  | cons c rest =>
      have hjoin := wordJoin?_words c.span_count_pos (count_pos_of_mem_map_span rest)
      rw [List.map_map] at hjoin
      exact hjoin

/-- The shortest list is found in the arithmetic of words without an overflow. -/
theorem wordCollapse?_eq (blocks : List Cidr) :
    wordCollapse? blocks = some ((collapse blocks).map wordBlock) := by
  have hspans : ((blocks.mergeSort le).map wordBlock).mapM WordBlock.span? =
      some ((blocks.mergeSort le).map (·.span.words)) :=
    mapM_map_eq_some _ fun c _ => wordBlock_span? c
  have hcovers : ((spans blocks).map Span.words).mapM
      (fun s => wordCover? s.family s.first s.last) =
        some ((spans blocks).map fun s =>
          (cover s.family s.first s.count s.le_bits).map wordBlock) :=
    mapM_map_eq_some _ fun s hs => wordCover?_eq s.le_bits (count_pos_of_mem_spans hs)
  unfold wordCollapse?
  rw [hspans]
  simp only [Option.bind_eq_bind, Option.bind_some]
  rw [wordJoins?_words]
  simp only [Option.bind_some]
  rw [hcovers]
  rw [collapse, List.map_flatMap, List.flatMap]
  rfl

end IpRegistry.Cidr
