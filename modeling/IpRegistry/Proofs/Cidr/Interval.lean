import IpRegistry.Cidr
import Mathlib.Data.Set.Basic

namespace IpRegistry.Cidr

theorem hostBits_le (c : Cidr) : c.hostBits ≤ c.family.bits :=
  Nat.sub_le ..

theorem count_pos (c : Cidr) : 0 < c.count :=
  Nat.two_pow_pos _

theorem count_dvd_network (c : Cidr) : c.count ∣ c.network :=
  c.aligned

@[simp] theorem first_family (c : Cidr) : c.first.family = c.family :=
  rfl

@[simp] theorem first_value (c : Cidr) : c.first.value = c.network :=
  rfl

theorem last_value_add_one (c : Cidr) : c.last.value + 1 = c.network + c.count := by
  have hpos := c.count_pos
  change c.network + (c.count - 1) + 1 = c.network + c.count
  omega

theorem prefixLen_eq_of_count_eq {c d : Cidr} (hfamily : c.family = d.family)
    (hcount : c.count = d.count) : c.prefixLen = d.prefixLen := by
  have hbits : c.hostBits = d.hostBits := Nat.pow_right_injective (le_refl 2) hcount
  have hc := c.prefixLen_le
  have hd := d.prefixLen_le
  simp only [hostBits, hfamily] at hbits hc
  omega

theorem ext_of_count {c d : Cidr} (hfamily : c.family = d.family)
    (hnetwork : c.network = d.network) (hcount : c.count = d.count) : c = d := by
  have hprefix := prefixLen_eq_of_count_eq hfamily hcount
  cases c
  cases d
  subst hfamily hnetwork hprefix
  rfl

theorem div_eq_div_iff_of_dvd {n size x : Nat} (hsize : 0 < size) (h : size ∣ n) :
    x / size = n / size ↔ n ≤ x ∧ x < n + size := by
  obtain ⟨q, rfl⟩ := h
  rw [Nat.mul_div_cancel_left q hsize, Nat.div_eq_iff hsize, Nat.mul_comm size q]
  constructor
  · rintro ⟨hle, hlt⟩
    exact ⟨hle, by omega⟩
  · rintro ⟨hle, hlt⟩
    exact ⟨hle, by omega⟩

theorem mem_iff {c : Cidr} {a : Address} :
    a ∈ c ↔ a.family = c.family ∧ c.network ≤ a.value ∧ a.value < c.network + c.count := by
  change c.contains a = true ↔ _
  rw [contains, Bool.and_eq_true, decide_eq_true_iff, beq_iff_eq]
  exact and_congr_right fun _ => div_eq_div_iff_of_dvd c.count_pos c.count_dvd_network

theorem first_mem (c : Cidr) : c.first ∈ c :=
  mem_iff.mpr ⟨rfl, le_refl _, Nat.lt_add_of_pos_right c.count_pos⟩

theorem last_mem (c : Cidr) : c.last ∈ c := by
  have hlast := c.last_value_add_one
  have hpos := c.count_pos
  exact mem_iff.mpr ⟨rfl, by omega, by omega⟩

def Within (c d : Cidr) : Prop :=
  ∀ a ∈ c, a ∈ d

theorem within_iff {c d : Cidr} :
    c.Within d ↔
      c.family = d.family ∧ d.network ≤ c.network ∧
        c.network + c.count ≤ d.network + d.count := by
  constructor
  · intro h
    obtain ⟨hfamily, hfirst, -⟩ := mem_iff.mp (h _ c.first_mem)
    obtain ⟨-, -, hlast⟩ := mem_iff.mp (h _ c.last_mem)
    have hend := c.last_value_add_one
    exact ⟨hfamily, hfirst, by omega⟩
  · rintro ⟨hfamily, hfirst, hlast⟩ a ha
    obtain ⟨hac, hlo, hhi⟩ := mem_iff.mp ha
    exact mem_iff.mpr ⟨hac.trans hfamily, by omega, by omega⟩

theorem Within.antisymm {c d : Cidr} (hcd : c.Within d) (hdc : d.Within c) : c = d := by
  obtain ⟨hfamily, hlo, hhi⟩ := within_iff.mp hcd
  obtain ⟨-, hlo', hhi'⟩ := within_iff.mp hdc
  exact ext_of_count hfamily (by omega) (by omega)

/-- The addresses that lie in some block of a list. -/
def addresses (blocks : List Cidr) : Set Address :=
  { a | ∃ c ∈ blocks, a ∈ c }

theorem mem_addresses {blocks : List Cidr} {a : Address} :
    a ∈ addresses blocks ↔ ∃ c ∈ blocks, a ∈ c :=
  Iff.rfl

theorem addresses_congr {blocks others : List Cidr} (h : ∀ c, c ∈ others ↔ c ∈ blocks) :
    addresses others = addresses blocks := by
  ext a
  simp only [mem_addresses, h]

end IpRegistry.Cidr
