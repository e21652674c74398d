import IpRegistry.Proofs.Cidr.Interval
import Mathlib.Data.List.Pairwise
import Mathlib.Data.List.Sort

namespace IpRegistry.Cidr

def Apart (c d : Cidr) : Prop :=
  ∀ a ∈ c, a ∉ d

instance : Std.Symm Apart where
  symm _ _ h a hd hc := h a hc hd

/-- All addresses of the first block come before those of the second one. -/
def Precedes (c d : Cidr) : Prop :=
  (c.family = .v4 ∧ d.family = .v6) ∨
    (c.family = d.family ∧ c.network + c.count ≤ d.network)

theorem Precedes.le {c d : Cidr} (h : c.Precedes d) : c.le d = true := by
  rcases h with ⟨hc, hd⟩ | ⟨hfamily, hend⟩
  · simp [Cidr.le, hc, hd, Family.le]
  · have hpos := c.count_pos
    have hlt : c.network < d.network := by omega
    simp [Cidr.le, hfamily, hlt]

theorem Precedes.apart {c d : Cidr} (h : c.Precedes d) : c.Apart d := by
  intro a hc hd
  obtain ⟨hfc, -, hhi⟩ := mem_iff.mp hc
  obtain ⟨hfd, hlo, -⟩ := mem_iff.mp hd
  rcases h with ⟨hv4, hv6⟩ | ⟨-, hend⟩
  · rw [← hfc, hfd, hv6] at hv4
    cases hv4
  · omega

theorem Precedes.asymm {c d : Cidr} (h : c.Precedes d) : ¬d.Precedes c := by
  have hc := c.count_pos
  have hd := d.count_pos
  rcases h with ⟨hv4, hv6⟩ | ⟨hfamily, hend⟩
  · rintro (⟨hd4, -⟩ | ⟨hfamily, -⟩)
    · rw [hv6] at hd4
      cases hd4
    · rw [hv4, hv6] at hfamily
      cases hfamily
  · rintro (⟨hd4, hc6⟩ | ⟨-, hend'⟩)
    · rw [hc6, hd4] at hfamily
      cases hfamily
    · omega

instance : Std.Irrefl Precedes where
  irrefl _ h := h.asymm h

instance : Std.Antisymm Precedes where
  antisymm _ _ h h' := absurd h' h.asymm

theorem Precedes.ne {c d : Cidr} (h : c.Precedes d) : c ≠ d := by
  rintro rfl
  exact h.asymm h

theorem eq_of_common {blocks : List Cidr} (h : blocks.Pairwise Precedes) {b c : Cidr}
    (hb : b ∈ blocks) (hc : c ∈ blocks) {a : Address} (hab : a ∈ b) (hac : a ∈ c) : b = c := by
  by_contra hne
  exact (h.imp Precedes.apart).forall hb hc hne a hab hac

/-- A list of blocks in ascending order each of which is as large as can be. -/
structure Canonical (blocks : List Cidr) : Prop where
  ascending : blocks.Pairwise Precedes
  absorbs : ∀ c : Cidr, (∀ a ∈ c, a ∈ addresses blocks) → ∃ b ∈ blocks, c.Within b

namespace Canonical

variable {blocks others : List Cidr}

/-- A block of addresses of the list that has an address of a block of the list lies within that. -/
theorem within_of_mem (h : Canonical blocks) {b c : Cidr} (hb : b ∈ blocks) {a : Address}
    (hab : a ∈ b) (hac : a ∈ c) (hc : ∀ a ∈ c, a ∈ addresses blocks) : c.Within b := by
  obtain ⟨d, hd, hcd⟩ := h.absorbs c hc
  rwa [eq_of_common h.ascending hb hd hab (hcd a hac)]

theorem exists_within (h : Canonical blocks) (hset : addresses others = addresses blocks)
    {b : Cidr} (hb : b ∈ blocks) : ∃ c ∈ others, c.Within b := by
  have hfirst : b.first ∈ addresses others := hset ▸ ⟨b, hb, b.first_mem⟩
  obtain ⟨c, hc, hmem⟩ := hfirst
  refine ⟨c, hc, h.within_of_mem hb b.first_mem hmem fun a ha => ?_⟩
  rw [← hset]
  exact ⟨c, hc, ha⟩

theorem length_le (h : Canonical blocks) (hset : addresses others = addresses blocks) :
    blocks.length ≤ others.length := by
  have hpart : ∀ b, ∃ c, b ∈ blocks → c ∈ others ∧ c.Within b := by
    intro b
    by_cases hb : b ∈ blocks
    · obtain ⟨c, hc, hcb⟩ := h.exists_within hset hb
      exact ⟨c, fun _ => ⟨hc, hcb⟩⟩
    · exact ⟨b, fun hb' => absurd hb' hb⟩
  choose part hpart using hpart
  have hnodup : (blocks.map part).Nodup := by
    refine h.ascending.nodup.map_on fun b hb c hc heq => ?_
    refine eq_of_common h.ascending hb hc ((hpart b hb).2 _ (part b).first_mem) ?_
    rw [heq]
    exact (hpart c hc).2 _ (part c).first_mem
  have hsubset : blocks.map part ⊆ others := by
    intro c hc
    obtain ⟨b, hb, rfl⟩ := List.mem_map.mp hc
    exact (hpart b hb).1
  calc
    blocks.length = (blocks.map part).length := (List.length_map _).symm
    _ ≤ others.length := (List.subperm_of_subset hnodup hsubset).length_le

theorem mem_of_mem (h : Canonical blocks) (h' : Canonical others)
    (hset : addresses others = addresses blocks) {b : Cidr} (hb : b ∈ blocks) : b ∈ others := by
  obtain ⟨c, hc, hbc⟩ := h'.absorbs b fun a ha => hset ▸ ⟨b, hb, ha⟩
  have hcb : c.Within b := by
    refine h.within_of_mem hb b.first_mem (hbc _ b.first_mem) fun a ha => ?_
    rw [← hset]
    exact ⟨c, hc, ha⟩
  rwa [hbc.antisymm hcb]

theorem eq_of_addresses_eq (h : Canonical blocks) (h' : Canonical others)
    (hset : addresses others = addresses blocks) : others = blocks :=
  h'.ascending.eq_of_mem_iff h.ascending fun _ =>
    ⟨h'.mem_of_mem h hset.symm, h.mem_of_mem h' hset⟩

end Canonical

end IpRegistry.Cidr
