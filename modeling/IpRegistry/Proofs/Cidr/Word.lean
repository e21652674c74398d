import IpRegistry.Cidr.Word
import IpRegistry.Proofs.Cidr.Cover

namespace IpRegistry

namespace Word

theorem toNat_ofNat {n : Nat} (h : n < 2 ^ 128) : (ofNat n).toNat = n :=
  (BitVec.toNat_ofNat n 128).trans (Nat.mod_eq_of_lt h)

theorem ofNat_inj {m n : Nat} (hm : m < 2 ^ 128) (hn : n < 2 ^ 128) :
    ofNat m = ofNat n ↔ m = n := by
  rw [← BitVec.toNat_inj, toNat_ofNat hm, toNat_ofNat hn]

theorem ofNat_le_iff {m n : Nat} (hm : m < 2 ^ 128) (hn : n < 2 ^ 128) :
    ofNat m ≤ ofNat n ↔ m ≤ n := by
  rw [BitVec.le_def, toNat_ofNat hm, toNat_ofNat hn]

theorem ofNat_lt_iff {m n : Nat} (hm : m < 2 ^ 128) (hn : n < 2 ^ 128) :
    ofNat m < ofNat n ↔ m < n := by
  rw [BitVec.lt_def, toNat_ofNat hm, toNat_ofNat hn]

theorem ofNat_eq_allOnes_iff {n : Nat} (h : n < 2 ^ 128) :
    ofNat n = BitVec.allOnes 128 ↔ n = 2 ^ 128 - 1 := by
  rw [show BitVec.allOnes 128 = ofNat (2 ^ 128 - 1) from rfl, ofNat_inj h (by decide)]

theorem ofNat_ne_zero {n : Nat} (hpos : 0 < n) (h : n < 2 ^ 128) : ofNat n ≠ 0 := by
  intro hzero
  have : n = 0 := (ofNat_inj h (by decide)).mp hzero
  omega

theorem add?_ofNat {m n : Nat} (h : m + n < 2 ^ 128) :
    (ofNat m).add? (ofNat n) = some (ofNat (m + n)) := by
  rw [add?, toNat_ofNat (by omega), toNat_ofNat (by omega), if_pos h]
  exact congrArg some (BitVec.ofNat_add m n).symm

theorem sub?_ofNat {m n : Nat} (hm : m < 2 ^ 128) (h : n ≤ m) :
    (ofNat m).sub? (ofNat n) = some (ofNat (m - n)) := by
  rw [sub?, toNat_ofNat hm, toNat_ofNat (by omega), if_pos h]
  refine congrArg some (BitVec.eq_of_toNat_eq ?_)
  rw [BitVec.toNat_sub_of_le ((ofNat_le_iff (by omega) hm).mpr h), toNat_ofNat hm,
    toNat_ofNat (by omega), toNat_ofNat (by omega)]

theorem less?_eq {m n : Nat} (h : n ≤ m) : less? m n = some (m - n) :=
  if_pos h

theorem bit?_eq {place : Nat} (h : place < 128) : bit? place = some (ofNat (2 ^ place)) := by
  rw [bit?, if_pos h]
  refine congrArg some (BitVec.eq_of_toNat_eq ?_)
  rw [BitVec.toNat_twoPow, ofNat, BitVec.toNat_ofNat]

theorem bit?_sub_one {place : Nat} (h : place < 128) :
    (do (← bit? place).sub? 1) = some (ofNat (2 ^ place - 1)) := by
  have hlt : 2 ^ place < 2 ^ 128 := Nat.pow_lt_pow_right (by decide) h
  rw [bit?_eq h]
  exact sub?_ofNat hlt (Nat.two_pow_pos place)

theorem lowest?_eq {bits : Nat} (h : bits ≤ 128) : lowest? bits = some (ofNat (2 ^ bits - 1)) := by
  unfold lowest?
  split
  · rename_i hbits
    rw [Nat.le_antisymm h hbits]
    rfl
  · exact bit?_sub_one (by omega)

theorem two_pow_dvd_iff {x : Word} {k : Nat} :
    2 ^ k ∣ x.toNat ↔ ∀ i < k, x.getLsbD i = false := by
  constructor
  · rintro ⟨q, hq⟩ i hi
    rw [BitVec.getLsbD, hq, Nat.testBit_two_pow_mul]
    simp [Nat.not_le.mpr hi]
  · intro h
    refine Nat.dvd_of_mod_eq_zero (Nat.eq_of_testBit_eq fun i => ?_)
    rw [Nat.testBit_mod_two_pow, Nat.zero_testBit]
    by_cases hi : i < k
    · simp [hi, BitVec.testBit_toNat, h i hi]
    · simp [hi]

theorem le_ctz_iff {x : Word} (hx : x ≠ 0) {k : Nat} : k ≤ x.ctz.toNat ↔ 2 ^ k ∣ x.toNat := by
  rw [two_pow_dvd_iff]
  constructor
  · intro hk i hi
    exact BitVec.getLsbD_false_of_lt_ctz (by omega)
  · intro h
    by_contra hlt
    have hbit := h _ (Nat.not_le.mp hlt)
    rw [BitVec.getLsbD_true_ctz_of_ne_zero hx] at hbit
    cases hbit

theorem clz_lt {x : Word} (hx : x ≠ 0) : x.clz.toNat < 128 := by
  have h := BitVec.lt_def.mp (BitVec.clz_lt_iff_ne_zero.mpr hx)
  simpa using h

theorem le_sub_clz_iff {x : Word} (hx : x ≠ 0) {k : Nat} :
    k ≤ 127 - x.clz.toNat ↔ 2 ^ k ≤ x.toNat := by
  have hlt := clz_lt hx
  constructor
  · intro hk
    exact (Nat.pow_le_pow_right (by decide) hk).trans
      (BitVec.two_pow_sub_clz_le_toNat_of_ne_zero (by decide) hx)
  · intro hk
    have hpow : 2 ^ k < 2 ^ (128 - x.clz.toNat) := hk.trans_lt BitVec.toNat_lt_two_pow_sub_clz
    have := (Nat.pow_lt_pow_iff_right (by decide)).mp hpow
    omega

end Word

theorem Family.bits_le (family : Family) : family.bits ≤ 128 := by
  cases family <;> decide

theorem Family.two_pow_bits_le (family : Family) : 2 ^ family.bits ≤ 2 ^ 128 :=
  Nat.pow_le_pow_right (by decide) family.bits_le

namespace Cidr

variable {family : Family} {first count : Nat}

theorem le_wordAligned_iff (hfirst : first < 2 ^ 128) {bits k : Nat} :
    k ≤ wordAligned bits (.ofNat first) ↔ k ≤ bits ∧ 2 ^ k ∣ first := by
  unfold wordAligned
  split
  · rename_i hzero
    have hzero : first = 0 := (Word.ofNat_inj hfirst (by decide)).mp hzero
    simp [hzero]
  · rename_i hne
    rw [Nat.le_min, Word.le_ctz_iff hne, Word.toNat_ofNat hfirst, and_comm]

theorem wordFits?_eq_some (h : first + count ≤ 2 ^ 128) (hcount : 0 < count) :
    ∃ fits, wordFits? (.ofNat first) (.ofNat (first + count - 1)) = some fits ∧
      ∀ k, k ≤ fits ↔ 2 ^ k ≤ count := by
  have hspan : first + count - 1 - first = count - 1 := by omega
  unfold wordFits?
  rw [Word.sub?_ofNat (by omega) (by omega), hspan]
  simp only [Option.bind_eq_bind, Option.bind_some]
  by_cases hall : count = 2 ^ 128
  · rw [if_pos ((Word.ofNat_eq_allOnes_iff (by omega)).mpr (by omega))]
    refine ⟨128, rfl, fun k => ?_⟩
    rw [hall, Nat.pow_le_pow_iff_right (by decide)]
  · have hlt : count < 2 ^ 128 := by omega
    have hne := Word.ofNat_ne_zero hcount hlt
    rw [if_neg (mt (Word.ofNat_eq_allOnes_iff (by omega)).mp (by omega)),
      show (1 : Word) = .ofNat 1 from rfl, Word.add?_ofNat (by omega), Nat.sub_add_cancel hcount]
    refine ⟨_, Word.less?_eq (Nat.le_of_lt_succ (Word.clz_lt hne)), fun k => ?_⟩
    rw [Word.le_sub_clz_iff hne, Word.toNat_ofNat hlt]

theorem wordFreeBits?_eq (h : first + count ≤ 2 ^ family.bits) (hcount : 0 < count) :
    wordFreeBits? family.bits (.ofNat first) (.ofNat (first + count - 1)) =
      some (freeBits first count family.bits) := by
  have hbits := family.two_pow_bits_le
  obtain ⟨fits, hfits, hle⟩ := wordFits?_eq_some (h.trans hbits) hcount
  unfold wordFreeBits?
  rw [hfits]
  refine congrArg some (eq_of_forall_le_iff fun k => ?_)
  rw [Nat.le_min, le_wordAligned_iff (by omega), hle, le_freeBits_iff hcount, and_assoc]

theorem wordBlockLast?_eq (b : Cidr) :
    wordBlockLast? (.ofNat b.network) b.hostBits = some (.ofNat b.last.value) := by
  have hlast := b.last_value_add_one
  have hbits := b.family.two_pow_bits_le
  have hend := b.network_add_count_le
  unfold wordBlockLast?
  split
  · rename_i hwhole
    have hhost : b.hostBits = 128 := Nat.le_antisymm (b.hostBits_le.trans b.family.bits_le) hwhole
    have hcount : b.count = 2 ^ 128 := congrArg (2 ^ ·) hhost
    rw [show b.last.value = 2 ^ 128 - 1 by omega]
    rfl
  · rename_i hpart
    have hcount : b.count = 2 ^ b.hostBits := rfl
    have hlt : b.count < 2 ^ 128 := Nat.pow_lt_pow_right (by decide) (Nat.not_le.mp hpart)
    have hpos := b.count_pos
    rw [Word.bit?_eq (by omega), ← hcount]
    simp only [Option.bind_eq_bind, Option.bind_some]
    rw [show (1 : Word) = .ofNat 1 from rfl, Word.sub?_ofNat (by omega) (by omega)]
    simp only [Option.bind_some]
    rw [Word.add?_ofNat (by omega)]
    exact congrArg (fun n => some (Word.ofNat n)) (by omega)

theorem wordCover?_step (family : Family) (first last : Word) :
    wordCover? family first last = (do
      let freeBits ← wordFreeBits? family.bits first last
      let block : WordBlock := ⟨family, first, ← Word.less? family.bits freeBits⟩
      let blockLast ← wordBlockLast? first freeBits
      if last ≤ blockLast then return [block]
      else return block :: (← wordCover? family (← blockLast.add? 1) last)) := by
  rw [wordCover?]
  simp only [Option.bind_eq_bind, Option.bind_attach, Option.pbind_eq_bind]

/-- A cover of words ends without an overflow, and its blocks are those of the cover. -/
theorem wordCover?_eq (h : first + count ≤ 2 ^ family.bits) (hcount : 0 < count) :
    wordCover? family (.ofNat first) (.ofNat (first + count - 1)) =
      some ((cover family first count h).map wordBlock) := by
  induction count using Nat.strong_induction_on generalizing first with
  | _ count ih =>
      obtain ⟨b, rfl, rfl, hhost, hfit, h', heq⟩ := cover_eq_cons h hcount
      have hbits := b.family.two_pow_bits_le
      have hlast := b.last_value_add_one
      have hpos := b.count_pos
      have hprefix : b.family.bits - b.hostBits = b.prefixLen := Nat.sub_sub_self b.prefixLen_le
      rw [wordCover?_step, wordFreeBits?_eq h hcount, ← hhost]
      simp only [Option.bind_eq_bind, Option.bind_some]
      rw [Word.less?_eq b.hostBits_le, hprefix, wordBlockLast?_eq]
      simp only [Option.bind_some]
      rw [heq, List.map_cons]
      change (if _ then some [b.wordBlock] else _) = _
      by_cases hdone : count = b.count
      · rw [if_pos ((Word.ofNat_le_iff (by omega) (by omega)).mpr (by omega))]
        subst hdone
        simp only [Nat.sub_self, cover_zero, List.map_nil]
      · rw [if_neg (mt (Word.ofNat_le_iff (by omega) (by omega)).mp (by omega)),
          show (1 : Word) = .ofNat 1 from rfl, Word.add?_ofNat (by omega)]
        simp only [Option.bind_some]
        have hrest := ih (count - b.count) (by omega) h' (by omega)
        rw [show b.network + b.count + (count - b.count) - 1 = b.network + count - 1 by omega]
          at hrest
        rw [hlast, hrest]
        rfl

end Cidr

end IpRegistry
