import IpRegistry.Cidr.Collapse
import IpRegistry.Proofs.Cidr.Cover

namespace IpRegistry.Cidr

namespace Span

instance : Membership Address Span where
  mem s a := a.family = s.family ∧ s.first ≤ a.value ∧ a.value < s.first + s.count

theorem mem_iff {s : Span} {a : Address} :
    a ∈ s ↔ a.family = s.family ∧ s.first ≤ a.value ∧ a.value < s.first + s.count :=
  Iff.rfl

/-- One range starts no later than another one, in the order of blocks. -/
def StartsBefore (s t : Span) : Prop :=
  (s.family = .v4 ∧ t.family = .v6) ∨ (s.family = t.family ∧ s.first ≤ t.first)

/-- One range comes before another one, and is not adjacent to it. -/
def Gap (s t : Span) : Prop :=
  (s.family = .v4 ∧ t.family = .v6) ∨ (s.family = t.family ∧ s.first + s.count < t.first)

theorem StartsBefore.refl (s : Span) : s.StartsBefore s :=
  .inr ⟨rfl, le_refl _⟩

theorem StartsBefore.trans {s t u : Span} (hst : s.StartsBefore t) (htu : t.StartsBefore u) :
    s.StartsBefore u := by
  rcases hst with ⟨hs, ht⟩ | ⟨hf, hle⟩ <;> rcases htu with ⟨ht', hu⟩ | ⟨hf', hle'⟩
  · exact .inl ⟨hs, hu⟩
  · exact .inl ⟨hs, hf' ▸ ht⟩
  · exact .inl ⟨hf ▸ ht', hu⟩
  · exact .inr ⟨hf.trans hf', hle.trans hle'⟩

theorem Gap.trans_startsBefore {s t u : Span} (hst : s.Gap t) (htu : t.StartsBefore u) :
    s.Gap u := by
  rcases hst with ⟨hs, ht⟩ | ⟨hf, hlt⟩ <;> rcases htu with ⟨ht', hu⟩ | ⟨hf', hle'⟩
  · exact .inl ⟨hs, hu⟩
  · exact .inl ⟨hs, hf' ▸ ht⟩
  · exact .inl ⟨hf ▸ ht', hu⟩
  · exact .inr ⟨hf.trans hf', by omega⟩

def Separate (s t : Span) : Prop :=
  s.family = t.family → s.first + s.count < t.first ∨ t.first + t.count < s.first

instance : Std.Symm Separate where
  symm _ _ h hfamily := (h hfamily.symm).symm

theorem Gap.separate {s t : Span} (h : s.Gap t) : s.Separate t := by
  intro hfamily
  rcases h with ⟨hs, ht⟩ | ⟨-, hlt⟩
  · rw [hs, ht] at hfamily
    cases hfamily
  · exact .inl hlt

variable {s t joined : Span}

theorem join?_startsBefore_iff (h : s.join? t = some joined) {u : Span} :
    joined.StartsBefore u ↔ s.StartsBefore u := by
  unfold join? at h
  split at h
  · cases h
    exact Iff.rfl
  · cases h

theorem mem_join? (hst : s.StartsBefore t) (h : s.join? t = some joined) {a : Address} :
    a ∈ joined ↔ a ∈ s ∨ a ∈ t := by
  unfold join? at h
  split at h
  · rename_i htouch
    obtain ⟨hfamily, hle⟩ := htouch
    have hstart : s.first ≤ t.first := by
      rcases hst with ⟨hs, ht⟩ | ⟨-, hstart⟩
      · rw [hs, ht] at hfamily
        cases hfamily
      · exact hstart
    cases h
    simp only [mem_iff, ← hfamily, ← and_or_left]
    refine and_congr_right fun _ => ?_
    omega
  · cases h

theorem gap_of_join?_eq_none (hst : s.StartsBefore t) (h : s.join? t = none) : s.Gap t := by
  unfold join? at h
  split at h
  · cases h
  · rename_i hapart
    rcases hst with hfamilies | ⟨hfamily, -⟩
    · exact .inl hfamilies
    · exact .inr ⟨hfamily, by simpa [hfamily] using hapart⟩

end Span

open IpRegistry.Cidr.Span

def spanAddresses (spans : List Span) : Set Address :=
  { a | ∃ s ∈ spans, a ∈ s }

theorem mem_spanAddresses {spans : List Span} {a : Address} :
    a ∈ spanAddresses spans ↔ ∃ s ∈ spans, a ∈ s :=
  Iff.rfl

theorem mem_spanAddresses_cons {s : Span} {spans : List Span} {a : Address} :
    a ∈ spanAddresses (s :: spans) ↔ a ∈ s ∨ a ∈ spanAddresses spans := by
  simp [spanAddresses]

section

variable {current : Span} {rest : List Span}

theorem pairwise_join? {s joined : Span} (h : (current :: s :: rest).Pairwise StartsBefore)
    (hjoin : current.join? s = some joined) : (joined :: rest).Pairwise StartsBefore := by
  obtain ⟨hcurrent, hrest⟩ := List.pairwise_cons.mp h
  refine List.pairwise_cons.mpr ⟨fun t ht => ?_, hrest.tail⟩
  exact (join?_startsBefore_iff hjoin).mpr (hcurrent t (List.mem_cons_of_mem _ ht))

theorem startsBefore_of_mem_joinSpans (h : (current :: rest).Pairwise StartsBefore) {t : Span}
    (ht : t ∈ joinSpans current rest) : current.StartsBefore t := by
  induction rest generalizing current with
  | nil =>
      rw [List.mem_singleton.mp ht]
      exact .refl _
  | cons s rest ih =>
      unfold joinSpans at ht
      split at ht
      · rename_i joined hjoin
        exact (join?_startsBefore_iff hjoin).mp (ih (pairwise_join? h hjoin) ht)
      · rcases List.mem_cons.mp ht with rfl | ht
        · exact .refl _
        · have hs : current.StartsBefore s := List.rel_of_pairwise_cons h List.mem_cons_self
          exact hs.trans (ih h.tail ht)

theorem joinSpans_gaps (h : (current :: rest).Pairwise StartsBefore) :
    (joinSpans current rest).Pairwise Gap := by
  induction rest generalizing current with
  | nil => exact List.pairwise_singleton ..
  | cons s rest ih =>
      unfold joinSpans
      split
      · rename_i joined hjoin
        exact ih (pairwise_join? h hjoin)
      · rename_i hapart
        refine List.pairwise_cons.mpr ⟨fun t ht => ?_, ih h.tail⟩
        have hs : current.StartsBefore s := List.rel_of_pairwise_cons h List.mem_cons_self
        exact (gap_of_join?_eq_none hs hapart).trans_startsBefore
          (startsBefore_of_mem_joinSpans h.tail ht)

theorem spanAddresses_joinSpans (h : (current :: rest).Pairwise StartsBefore) :
    spanAddresses (joinSpans current rest) = spanAddresses (current :: rest) := by
  induction rest generalizing current with
  | nil => rfl
  | cons s rest ih =>
      ext a
      unfold joinSpans
      split
      · rename_i joined hjoin
        have hs : current.StartsBefore s := List.rel_of_pairwise_cons h List.mem_cons_self
        rw [ih (pairwise_join? h hjoin)]
        simp only [mem_spanAddresses_cons, mem_join? hs hjoin, or_assoc]
      · rw [mem_spanAddresses_cons, ih h.tail, ← mem_spanAddresses_cons]

end

theorem le_iff {c d : Cidr} :
    c.le d = true ↔
      (c.family = .v4 ∧ d.family = .v6) ∨
        (c.family = d.family ∧
          (c.network < d.network ∨ c.network = d.network ∧ c.prefixLen ≤ d.prefixLen)) := by
  unfold Cidr.le
  split
  · rename_i hfamily
    have hno : ¬(c.family = .v4 ∧ d.family = .v6) := by
      rintro ⟨hc, hd⟩
      rw [hc, hd] at hfamily
      cases hfamily
    simp [hfamily]
    exact fun hc hd => absurd ⟨hfamily.trans hc, hd⟩ hno
  · rename_i hfamily
    cases hc : c.family <;> cases hd : d.family <;> simp_all [Family.le]

theorem le_trans_block (b c d : Cidr) (hbc : b.le c = true) (hcd : c.le d = true) :
    b.le d = true := by
  rw [le_iff] at *
  rcases hbc with ⟨hb, hc⟩ | ⟨hf, hlt⟩ <;> rcases hcd with ⟨hc', hd⟩ | ⟨hf', hlt'⟩
  · exact .inl ⟨hb, hd⟩
  · exact .inl ⟨hb, hf' ▸ hc⟩
  · exact .inl ⟨hf ▸ hc', hd⟩
  · exact .inr ⟨hf.trans hf', by omega⟩

theorem le_total_block (c d : Cidr) : (c.le d || d.le c) = true := by
  rw [Bool.or_eq_true, le_iff, le_iff]
  cases hc : c.family <;> cases hd : d.family <;> simp <;> omega

theorem span_startsBefore {c d : Cidr} (h : c.le d = true) : c.span.StartsBefore d.span := by
  rcases le_iff.mp h with hfamilies | ⟨hfamily, hlt⟩
  · exact .inl hfamilies
  · exact .inr ⟨hfamily, by change c.network ≤ d.network; omega⟩

theorem sorted_spans (blocks : List Cidr) :
    ((blocks.mergeSort le).map span).Pairwise StartsBefore :=
  List.pairwise_map.mpr
    ((List.pairwise_mergeSort le_trans_block le_total_block blocks).imp span_startsBefore)

theorem mem_span_iff {c : Cidr} {a : Address} : a ∈ c.span ↔ a ∈ c :=
  Cidr.mem_iff.symm

theorem spanAddresses_sorted (blocks : List Cidr) :
    spanAddresses ((blocks.mergeSort le).map span) = addresses blocks := by
  ext a
  simp [spanAddresses, addresses, mem_span_iff]

theorem spans_gaps (blocks : List Cidr) : (spans blocks).Pairwise Gap := by
  have hsorted := sorted_spans blocks
  unfold spans
  split
  · exact List.Pairwise.nil
  · rename_i c rest heq
    rw [heq] at hsorted
    exact joinSpans_gaps hsorted

theorem spanAddresses_spans (blocks : List Cidr) :
    spanAddresses (spans blocks) = addresses blocks := by
  have hsorted := sorted_spans blocks
  rw [← spanAddresses_sorted]
  unfold spans
  split
  · rename_i heq
    rw [heq]
    rfl
  · rename_i c rest heq
    rw [heq] at hsorted ⊢
    exact spanAddresses_joinSpans hsorted

end IpRegistry.Cidr
