import IpRegistry.Cidr.Format
import IpRegistry.Proofs.Cidr.WordSpans
import IpRegistry.Target
import Mathlib.Data.List.Sort

namespace IpRegistry

namespace Cidr

theorem le_antisymm_block {c d : Cidr} (hcd : c.le d = true) (hdc : d.le c = true) : c = d := by
  rcases le_iff.mp hcd with ⟨hc, hd⟩ | ⟨hfamily, hlt⟩
  · rcases le_iff.mp hdc with ⟨hd', -⟩ | ⟨hfamily, -⟩
    · rw [hd] at hd'
      cases hd'
    · rw [hc, hd] at hfamily
      cases hfamily
  · rcases le_iff.mp hdc with ⟨hd, hc⟩ | ⟨-, hlt'⟩
    · rw [hc, hd] at hfamily
      cases hfamily
    · have hbits : c.hostBits = d.hostBits := by
        rw [hostBits, hostBits, hfamily]
        omega
      exact ext_of_count hfamily (by omega) (congrArg (2 ^ ·) hbits)

instance : Std.Total fun c d : Cidr => c.le d = true where
  total c d := (Bool.or_eq_true ..).mp (le_total_block c d)

instance : IsTrans Cidr fun c d => c.le d = true where
  trans := le_trans_block

instance : Std.Antisymm fun c d : Cidr => c.le d = true where
  antisymm _ _ := le_antisymm_block

-- On a closed list the sort by insertion can be evaluated, unlike the one by merging.
theorem mergeSort_eq_insertionSort (blocks : List Cidr) :
    blocks.mergeSort le = blocks.insertionSort fun c d => c.le d = true := by
  rw [← List.mergeSort_eq_insertionSort]
  simp only [Bool.decide_eq_true]

def Span.bounds (s : Span) : Family × Nat × Nat :=
  (s.family, s.first, s.first + s.count)

theorem mem_addresses_iff_bounds {blocks : List Cidr} {a : Address} :
    a ∈ addresses blocks ↔
      ∃ b ∈ (spans blocks).map Span.bounds, a.family = b.1 ∧ b.2.1 ≤ a.value ∧ a.value < b.2.2 := by
  rw [← spanAddresses_spans, mem_spanAddresses]
  simp only [List.mem_map, exists_exists_and_eq_and]
  rfl

theorem mem_iff_bounds {c : Cidr} {a : Address} :
    a ∈ c ↔ a.family = c.span.bounds.1 ∧ c.span.bounds.2.1 ≤ a.value ∧
      a.value < c.span.bounds.2.2 :=
  mem_iff

theorem mem_iff_le {c : Cidr} {a : Address} :
    a ∈ c ↔ a.family = c.family ∧ c.first.value ≤ a.value ∧ a.value ≤ c.last.value := by
  have hlast := c.last_value_add_one
  rw [mem_iff, first_value]
  refine and_congr_right fun _ => and_congr_right fun _ => ?_
  omega

instance (c d : Cidr) : Decidable (c.Precedes d) :=
  inferInstanceAs (Decidable (_ ∨ _))

end Cidr

open Cidr

namespace Reservation

/-- The blocks of the special uses. -/
def blocks (family : Family) : List Cidr :=
  (table family).map block

theorem mem_addresses_blocks {family : Family} {a : Address} :
    a ∈ addresses (blocks family) ↔ ∃ r ∈ table family, a ∈ r.block := by
  rw [mem_addresses, blocks]
  simp only [List.mem_map, exists_exists_and_eq_and]

/-- The block of `r` is longer than the one of `s`, or has no address in common with it. -/
def Outranks (r s : Reservation) : Prop :=
  s.block.prefixLen < r.block.prefixLen ∨
    r.block.Precedes s.block ∨ s.block.Precedes r.block

instance (r s : Reservation) : Decidable (r.Outranks s) :=
  inferInstanceAs (Decidable (_ ∨ _))

theorem table_outranks (family : Family) : (table family).Pairwise Outranks := by
  cases family <;> decide +kernel

theorem Outranks.prefixLen_lt {r s : Reservation} (h : r.Outranks s) {a : Address}
    (hr : a ∈ r.block) (hs : a ∈ s.block) : s.block.prefixLen < r.block.prefixLen := by
  rcases h with hlt | hprecedes | hprecedes
  · exact hlt
  · exact absurd hs (hprecedes.apart a hr)
  · exact absurd hr (hprecedes.apart a hs)

theorem longest_of_find {l : List Reservation} (hl : l.Pairwise Outranks) {a : Address}
    {r : Reservation} (hfind : l.find? (fun s => s.block.contains a) = some r) :
    r ∈ l ∧ a ∈ r.block ∧
      ∀ s ∈ l, a ∈ s.block → s = r ∨ s.block.prefixLen < r.block.prefixLen := by
  obtain ⟨hmem, before, after, rfl, hbefore⟩ := List.find?_eq_some_iff_append.mp hfind
  obtain ⟨-, hafter, -⟩ := List.pairwise_append.mp hl
  refine ⟨List.mem_append_right _ List.mem_cons_self, hmem, fun s hs has => ?_⟩
  rcases List.mem_append.mp hs with hs | hs
  · have hno : s.block.contains a = false := by simpa using hbefore s hs
    exact absurd has (by simp [Membership.mem, hno])
  · rcases List.mem_cons.mp hs with rfl | hs
    · exact .inl rfl
    · exact .inr ((List.rel_of_pairwise_cons hafter hs).prefixLen_lt hmem has)

/-- The block `2000::/3`. -/
def globalUnicast : Cidr :=
  .containing (.ofNat .v6 (0x2000 * 2 ^ 112)) 3 (by decide)

/-- The block `2001:db8::/32`. -/
def documentation : Cidr :=
  .containing (.ofNat .v6 (0x20010db8 * 2 ^ 96)) 32 (by decide)

/-- The block `2001::/23`. -/
def protocolAssignments : Cidr :=
  .containing (.ofNat .v6 (0x2001 * 2 ^ 112)) 23 (by decide)

example : [globalUnicast, documentation, protocolAssignments].map text =
    ["2000::/3", "2001:db8::/32", "2001::/23"] := by
  decide +kernel

theorem bounds_spans_v6 : (spans (blocks .v6)).map Span.bounds =
    [(.v6, 0, 0x2000 * 2 ^ 112), protocolAssignments.span.bounds, documentation.span.bounds,
      (.v6, 0x4000 * 2 ^ 112, 2 ^ 128)] := by
  unfold spans
  rw [mergeSort_eq_insertionSort]
  decide +kernel

theorem bounds_globalUnicast :
    globalUnicast.span.bounds = (.v6, 0x2000 * 2 ^ 112, 0x4000 * 2 ^ 112) := by
  decide

theorem bounds_documentation :
    documentation.span.bounds = (.v6, 0x20010db8 * 2 ^ 96, 0x20010db9 * 2 ^ 96) := by
  decide

theorem bounds_protocolAssignments :
    protocolAssignments.span.bounds = (.v6, 0x20010000 * 2 ^ 96, 0x20010200 * 2 ^ 96) := by
  decide

theorem mem_addresses_v6 {a : Address} (h : a.family = .v6) :
    a ∈ addresses (blocks .v6) ↔
      (a ∈ globalUnicast → a ∈ documentation ∨ a ∈ protocolAssignments) := by
  have hlt : a.value < 2 ^ Family.bits .v6 := h ▸ a.value_lt
  rw [mem_addresses_iff_bounds, bounds_spans_v6]
  simp only [List.mem_cons, List.not_mem_nil, or_false, exists_eq_or_imp, exists_eq_left,
    mem_iff_bounds, bounds_globalUnicast, bounds_documentation, bounds_protocolAssignments, h,
    true_and, Family.bits] at hlt ⊢
  omega

theorem not_mem_globalUnicast_of_isMapped {a : Address} (h : a.isMapped = true) :
    a ∉ globalUnicast := by
  intro hmem
  obtain ⟨-, hlo, -⟩ := mem_iff_bounds.mp hmem
  rw [bounds_globalUnicast] at hlo
  rw [Address.isMapped, beq_iff_eq] at h
  have hdiv := Nat.div_add_mod a.value (2 ^ 32)
  have hmod := Nat.mod_lt a.value (Nat.two_pow_pos 32)
  rw [h] at hdiv
  simp only at hlo
  omega

theorem documentation_within : documentation.Within globalUnicast := by
  intro a ha
  rw [mem_iff_bounds, bounds_documentation] at ha
  rw [mem_iff_bounds, bounds_globalUnicast]
  simp only at ha ⊢
  exact ⟨ha.1, by omega, by omega⟩

theorem protocolAssignments_within : protocolAssignments.Within globalUnicast := by
  intro a ha
  rw [mem_iff_bounds, bounds_protocolAssignments] at ha
  rw [mem_iff_bounds, bounds_globalUnicast]
  simp only at ha ⊢
  exact ⟨ha.1, by omega, by omega⟩

theorem exists_of_not_mem_globalUnicast {a : Address} (hfamily : a.family = .v6)
    (h : a ∉ globalUnicast) :
    ∃ r ∈ table6, r.block ≠ documentation ∧ r.block ≠ protocolAssignments ∧ a ∈ r.block := by
  have hcovered : a ∈ addresses (blocks .v6) :=
    (mem_addresses_v6 hfamily).mpr fun hmem => absurd hmem h
  obtain ⟨r, hr, hmem⟩ := mem_addresses_blocks.mp hcovered
  refine ⟨r, hr, ?_, ?_, hmem⟩
  · intro heq
    exact h (documentation_within a (heq ▸ hmem))
  · intro heq
    exact h (protocolAssignments_within a (heq ▸ hmem))

end Reservation

namespace Target

open Reservation

theorem of_eq_ok_iff {a : Address} :
    (∃ t, Target.of a = .ok t) ↔ a ∉ addresses (blocks a.family) := by
  rw [mem_addresses_blocks]
  unfold Target.of
  split
  · rename_i hnone
    have hall := List.find?_eq_none.mp hnone
    refine iff_of_true ⟨_, rfl⟩ ?_
    rintro ⟨r, hr, hmem⟩
    exact hall r hr hmem
  · rename_i r hsome
    refine iff_of_false ?_ ?_
    · rintro ⟨t, ht⟩
      cases ht
    · obtain ⟨hr, hmem, -⟩ := longest_of_find (table_outranks _) hsome
      exact not_not_intro ⟨r, hr, hmem⟩

theorem address_of {a : Address} {t : Target} (h : Target.of a = .ok t) : t.address = a := by
  unfold Target.of at h
  split at h
  · cases h
    rfl
  · cases h

theorem exists_of_eq_error {a : Address} {e : LookupError} (h : Target.of a = .error e) :
    ∃ r, a.reservation? = some r ∧ e = .reserved a r.name r.rfc := by
  unfold Target.of at h
  split at h
  · cases h
  · rename_i r hsome
    cases h
    exact ⟨r, hsome, rfl⟩

/-- An address of version 4 is a target if and only if it is in none of the ranges of the table, and
one of version 6 if and only if it is in `2000::/3` and neither in `2001:db8::/32` nor in
`2001::/23`; no address that stands for one of version 4 is a target. An address that is not a target
has the special use of the longest block of the table with the address. -/
theorem special_uses_exact (a : Address) :
    (a.family = .v4 → table4.length = 16 ∧ ((∃ t, Target.of a = .ok t) ↔
      ∀ r ∈ table4, a.value < r.block.first.value ∨ r.block.last.value < a.value)) ∧
    (a.family = .v6 →
      ((∃ t, Target.of a = .ok t) ↔
        a ∈ globalUnicast ∧ a ∉ documentation ∧ a ∉ protocolAssignments) ∧
      (a ∉ globalUnicast → ∃ r ∈ table6,
        r.block ≠ documentation ∧ r.block ≠ protocolAssignments ∧ a ∈ r.block) ∧
      (a.isMapped = true → ¬∃ t, Target.of a = .ok t)) ∧
    (∀ t, Target.of a = .ok t → t.address = a) ∧
    (∀ e, Target.of a = .error e → ∃ r ∈ table a.family,
      a ∈ r.block ∧ e = .reserved a r.name r.rfc ∧
      ∀ s ∈ table a.family, a ∈ s.block → s = r ∨ s.block.prefixLen < r.block.prefixLen) ∧
    ∀ c : Cidr, c.wordContains? a = some (c.contains a) ∧
      (c.contains a = true ↔
        a.family = c.family ∧ c.first.value ≤ a.value ∧ a.value ≤ c.last.value) := by
  refine ⟨?version4, ?version6, fun t => address_of, ?rejected, ?words⟩
  case version4 =>
    intro hfamily
    refine ⟨rfl, ?_⟩
    rw [of_eq_ok_iff, hfamily, mem_addresses_blocks]
    have hfamilies : ∀ r ∈ table4, r.block.family = .v4 := by decide +kernel
    constructor
    · intro hnone r hr
      by_contra hin
      exact hnone ⟨r, hr, mem_iff_le.mpr ⟨hfamily.trans (hfamilies r hr).symm, by omega⟩⟩
    · rintro hout ⟨r, hr, hmem⟩
      have hin := (mem_iff_le.mp hmem).2
      have := hout r hr
      omega
  case version6 =>
    intro hfamily
    have haccepts : (∃ t, Target.of a = .ok t) ↔
        a ∈ globalUnicast ∧ a ∉ documentation ∧ a ∉ protocolAssignments := by
      rw [of_eq_ok_iff, hfamily, mem_addresses_v6 hfamily]
      tauto
    refine ⟨haccepts, exists_of_not_mem_globalUnicast hfamily, ?_⟩
    intro hmapped htarget
    exact not_mem_globalUnicast_of_isMapped hmapped (haccepts.mp htarget).1
  case rejected =>
    intro e he
    obtain ⟨r, hfind, rfl⟩ := exists_of_eq_error he
    obtain ⟨hr, hmem, hlongest⟩ := longest_of_find (table_outranks _) hfind
    exact ⟨r, hr, hmem, rfl, hlongest⟩
  case words =>
    intro c
    exact ⟨c.wordContains?_eq a, mem_iff_le⟩

/-- The address `::ffff:127.0.0.1` stands for one of version 4. -/
theorem special_uses_exact_mapped :
    let a : Address := ⟨.v6, 0xffff7f000001, by decide⟩
    a.isMapped = true ∧
      ∃ r ∈ table6, a ∈ r.block ∧ Target.of a = .error (.reserved a r.name r.rfc) := by
  intro a
  have hmapped : a.isMapped = true := by decide
  have hrefused := ((special_uses_exact a).2.1 rfl).2.2 hmapped
  cases htarget : Target.of a with
  | ok t => exact absurd ⟨t, htarget⟩ hrefused
  | error e =>
    obtain ⟨r, hr, hmem, rfl, -⟩ := (special_uses_exact a).2.2.2.1 e htarget
    exact ⟨hmapped, r, hr, hmem, rfl⟩

end Target

end IpRegistry
