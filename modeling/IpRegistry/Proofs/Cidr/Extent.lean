import IpRegistry.Proofs.Cidr.Canonical
import IpRegistry.Proofs.Cidr.RoundTrip
import IpRegistry.Proofs.Cidr.WordSpans

namespace IpRegistry.Cidr

theorem exists_new_iff {a : Address} {prefixLen : Nat} :
    (∃ c, new a prefixLen = .ok c) ↔ prefixLen ≤ a.family.bits := by
  unfold new
  split
  · rename_i hle
    simp [hle]
  · rename_i hgt
    simp [hgt]

theorem eq_containing_of_new {a : Address} {prefixLen : Nat} {c : Cidr}
    (h : new a prefixLen = .ok c) : ∃ hle, c = containing a prefixLen hle := by
  have hle := exists_new_iff.mp ⟨c, h⟩
  rw [new, dif_pos hle] at h
  exact ⟨hle, (Except.ok.inj h).symm⟩

theorem mem_containing {a : Address} {prefixLen : Nat} (h : prefixLen ≤ a.family.bits) :
    a ∈ containing a prefixLen h := by
  have hpos := Nat.two_pow_pos (a.family.bits - prefixLen)
  refine mem_iff.mpr ⟨rfl, Nat.div_mul_le_self .., ?_⟩
  exact Nat.lt_div_mul_add hpos

theorem wordNew?_eq (a : Address) (prefixLen : Nat) :
    wordNew? a prefixLen = some ((new a prefixLen).map wordBlock) := by
  unfold wordNew? new
  split
  · rename_i h
    rw [wordMask?_eq h]
    simp only [Option.bind_eq_bind, Option.bind_some, and_mask a.value_lt]
    rfl
  · rfl

theorem ends_words (c : Cidr) : c.span.words.ends = (c.first, c.last) := by
  have hbits := c.family.two_pow_bits_le
  have hnetwork := c.network_lt
  have hlast := c.last_value_add_one
  have hpos := c.count_pos
  have hend := c.network_add_count_le
  have hvalue : c.network + c.count - 1 = c.last.value := by omega
  refine Prod.ext ?_ ?_
  · change Address.ofNat c.family (Word.ofNat c.network).toNat = c.first
    rw [Word.toNat_ofNat (by omega)]
    exact Address.ofNat_of_lt rfl rfl
  · change Address.ofNat c.family (Word.ofNat (c.network + c.count - 1)).toNat = c.last
    rw [hvalue, Word.toNat_ofNat (by omega)]
    exact Address.ofNat_of_lt rfl rfl

theorem count_le (c : Cidr) : c.count ≤ 2 ^ 128 :=
  (Nat.pow_le_pow_right (by decide) c.hostBits_le).trans c.family.two_pow_bits_le

theorem hostBits_eq_iff (c : Cidr) : c.hostBits = 128 ↔ c.family = .v6 ∧ c.prefixLen = 0 := by
  have hle := c.prefixLen_le
  unfold hostBits
  cases hfamily : c.family <;> simp only [hfamily, Family.bits] at hle ⊢ <;> simp <;> omega

theorem count_eq_iff (c : Cidr) : c.count = 2 ^ 128 ↔ c.family = .v6 ∧ c.prefixLen = 0 :=
  (Nat.pow_right_injective (le_refl 2)).eq_iff.trans c.hostBits_eq_iff

theorem size?_wordBlock (c : Cidr) : c.wordBlock.size? = some (.ofNat c.size) := by
  have hle := c.hostBits_le.trans c.family.bits_le
  have hhost : Word.less? c.wordBlock.family.bits c.wordBlock.prefixLen = some c.hostBits :=
    Word.less?_eq c.prefixLen_le
  unfold WordBlock.size?
  rw [hhost]
  simp only [Option.bind_eq_bind, Option.bind_some]
  split
  · rename_i hwhole
    have hcount : c.count = 2 ^ 128 := congrArg (2 ^ ·) (Nat.le_antisymm hle hwhole)
    rw [size, hcount]
    rfl
  · rename_i hpart
    have hlt : c.count < 2 ^ 128 := Nat.pow_lt_pow_right (by decide) (Nat.not_le.mp hpart)
    rw [Word.bit?_eq (by omega), size, Nat.min_eq_left (by omega)]
    rfl

theorem mem_iff_between {c : Cidr} {a : Address} :
    a ∈ c ↔ a.family = c.family ∧ c.first.value ≤ a.value ∧ a.value ≤ c.last.value := by
  have hlast := c.last_value_add_one
  rw [mem_iff, first_value]
  exact and_congr_right fun _ => and_congr_right fun _ => by omega

/-- The number of addresses from the first one to the last one is the size of the block, except for
the block of all addresses of 128 bits. -/
theorem size_eq (c : Cidr) :
    c.size = if c.family = .v6 ∧ c.prefixLen = 0 then 2 ^ 128 - 1
      else c.last.value - c.first.value + 1 := by
  have hle := c.count_le
  have hpos := c.count_pos
  have hlast := c.last_value_add_one
  rw [first_value, size]
  split
  · rename_i hwhole
    rw [c.count_eq_iff.mpr hwhole]
    rfl
  · rename_i hpart
    have hne := mt c.count_eq_iff.mp hpart
    omega

theorem size_lt (c : Cidr) : c.size < 2 ^ 128 :=
  (Nat.min_le_right ..).trans_lt (by decide)

theorem first_le_last (c : Cidr) : c.first.value ≤ c.last.value :=
  (mem_iff_between.mp c.first_mem).2.2

theorem count_dvd_count {c d : Cidr} (hfamily : c.family = d.family)
    (hlonger : c.prefixLen ≤ d.prefixLen) : d.count ∣ c.count := by
  refine Nat.pow_dvd_pow 2 ?_
  rw [hostBits, hostBits, hfamily]
  exact Nat.sub_le_sub_left hlonger _

/-- A block that shares an address with one of no fewer fixed bits has all its addresses: they agree
in the bits that the other one fixes, so in those that this one does. -/
theorem within_of_mem {c d : Cidr} (hlonger : c.prefixLen ≤ d.prefixLen) {a : Address}
    (hc : a ∈ c) (hd : a ∈ d) : d.Within c := by
  obtain ⟨hcf, hcdiv⟩ := (Bool.and_eq_true ..).mp hc
  obtain ⟨hdf, hddiv⟩ := (Bool.and_eq_true ..).mp hd
  have hcfamily := of_decide_eq_true hcf
  have hdfamily := of_decide_eq_true hdf
  obtain ⟨m, hm⟩ := count_dvd_count (hcfamily.symm.trans hdfamily) hlonger
  intro b hb
  obtain ⟨hbf, hbdiv⟩ := (Bool.and_eq_true ..).mp hb
  have hagree : b.value / d.count = a.value / d.count :=
    (beq_iff_eq.mp hbdiv).trans (beq_iff_eq.mp hddiv).symm
  have hnetwork : b.value / c.count = c.network / c.count :=
    calc b.value / c.count = b.value / d.count / m := by rw [hm, Nat.div_div_eq_div_mul]
      _ = a.value / d.count / m := by rw [hagree]
      _ = a.value / c.count := by rw [hm, Nat.div_div_eq_div_mul]
      _ = c.network / c.count := beq_iff_eq.mp hcdiv
  have hbfamily := (of_decide_eq_true hbf).trans (hdfamily.symm.trans hcfamily)
  exact (Bool.and_eq_true ..).mpr ⟨decide_eq_true hbfamily, beq_iff_eq.mpr hnetwork⟩

theorem prefixLen_le_of_within {c d : Cidr} (h : d.Within c) : c.prefixLen ≤ d.prefixLen := by
  obtain ⟨hfamily, hlo, hhi⟩ := within_iff.mp h
  have hcount : d.count ≤ c.count := by omega
  have hhost : d.hostBits ≤ c.hostBits := (Nat.pow_le_pow_iff_right (by decide)).mp hcount
  have hc := c.prefixLen_le
  simp only [hostBits, hfamily] at hhost hc
  omega

theorem within_iff_first_mem {c d : Cidr} :
    d.Within c ↔ c.prefixLen ≤ d.prefixLen ∧ d.first ∈ c := by
  constructor
  · intro h
    exact ⟨prefixLen_le_of_within h, h _ d.first_mem⟩
  · rintro ⟨hlonger, hfirst⟩
    exact within_of_mem hlonger hfirst d.first_mem

theorem apart_or_within {c d : Cidr} (hlonger : c.prefixLen ≤ d.prefixLen) :
    c.Apart d ∨ d.Within c := by
  by_cases hshare : ∃ a, a ∈ c ∧ a ∈ d
  · obtain ⟨a, hc, hd⟩ := hshare
    exact .inr (within_of_mem hlonger hc hd)
  · exact .inl fun a hc hd => hshare ⟨a, hc, hd⟩

/-- An address and a number of bits make a block if and only if the family of the address has as many
bits, and the address lies in it; nothing overflows on the way. Each block is made so, out of its
first address. Its mask tells exactly the addresses of its family from its first one to its last
one, whose number is its size, except that the block of all addresses of 128 bits has the largest
word for a size. Two blocks are apart or the one of no more fixed bits has all addresses of the
other. -/
theorem extent_exact :
    (∀ a prefixLen,
      ((∃ c, new a prefixLen = .ok c) ↔ prefixLen ≤ a.family.bits) ∧
      wordNew? a prefixLen = some ((new a prefixLen).map wordBlock) ∧
      ∀ c, new a prefixLen = .ok c → c.family = a.family ∧ c.prefixLen = prefixLen ∧ a ∈ c) ∧
    (∀ c : Cidr,
      new c.first c.prefixLen = .ok c ∧
      (∀ a, c.wordContains? a = some (c.contains a) ∧
        (c.contains a = true ↔
          a.family = c.family ∧ c.first.value ≤ a.value ∧ a.value ≤ c.last.value)) ∧
      c.wordBlock.span?.map WordSpan.ends = some (c.first, c.last) ∧
      c.first.value ≤ c.last.value ∧
      c.wordBlock.size?.map BitVec.toNat = some c.size ∧
      c.size = if c.family = .v6 ∧ c.prefixLen = 0 then 2 ^ 128 - 1
        else c.last.value - c.first.value + 1) ∧
    ∀ c d : Cidr, c.family = d.family →
      (c.Apart d ∨ d.Within c ∨ c.Within d) ∧
      (c.prefixLen ≤ d.prefixLen → c.Apart d ∨ d.Within c) ∧
      (d.Within c ↔ c.prefixLen ≤ d.prefixLen ∧ d.first ∈ c) := by
  refine ⟨fun a prefixLen => ⟨exists_new_iff, wordNew?_eq a prefixLen, fun c hnew => ?_⟩,
    fun c => ⟨c.new_first, fun a => ⟨c.wordContains?_eq a, mem_iff_between⟩, ?_, c.first_le_last,
      ?_, c.size_eq⟩,
    fun c d _ => ⟨?_, apart_or_within, within_iff_first_mem⟩⟩
  · obtain ⟨hle, rfl⟩ := eq_containing_of_new hnew
    exact ⟨rfl, rfl, mem_containing hle⟩
  · rw [wordBlock_span?, Option.map_some, ends_words]
  · rw [size?_wordBlock, Option.map_some, Word.toNat_ofNat c.size_lt]
  · rcases Nat.le_total c.prefixLen d.prefixLen with hlonger | hlonger
    · exact (apart_or_within hlonger).imp_right .inl
    · exact (apart_or_within hlonger).imp (Std.Symm.symm _ _) .inr

theorem extent_exact_loopback :
    let a : Address := ⟨.v6, 1, by decide⟩
    ∃ whole host, new a 0 = .ok whole ∧ new a 128 = .ok host ∧ whole.size = 2 ^ 128 - 1 ∧
      whole.family = host.family ∧ whole.prefixLen ≤ host.prefixLen ∧ host.Within whole := by
  intro a
  obtain ⟨hnew, hblock, hpair⟩ := extent_exact
  obtain ⟨whole, hwhole⟩ := (hnew a 0).1.mpr (by decide)
  obtain ⟨host, hhost⟩ := (hnew a 128).1.mpr (by decide)
  obtain ⟨hwfamily, hwlen, hwmem⟩ := (hnew a 0).2.2 whole hwhole
  obtain ⟨hhfamily, hhlen, hhmem⟩ := (hnew a 128).2.2 host hhost
  have hsize := (hblock whole).2.2.2.2.2
  have hfamily := hwfamily.trans hhfamily.symm
  have hlonger : whole.prefixLen ≤ host.prefixLen := by omega
  rw [if_pos ⟨hwfamily, hwlen⟩] at hsize
  refine ⟨whole, host, hwhole, hhost, hsize, hfamily, hlonger, ?_⟩
  rcases (hpair whole host hfamily).2.1 hlonger with hapart | hwithin
  · exact absurd hhmem (hapart a hwmem)
  · exact hwithin

end IpRegistry.Cidr
