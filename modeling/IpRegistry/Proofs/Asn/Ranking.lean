import IpRegistry.Proofs.Asn.Methods
import Mathlib.Data.List.MinMax
import Mathlib.Data.List.Nodup
import Mathlib.Data.List.Perm.Basic
import Mathlib.Order.Bounds.Basic

namespace IpRegistry.Asn

variable {i : Inquiry} {o : Options} {σ : Services} {record : Record} {records others : List Record}
  {texts : List String}

/-- The number of fixed bits of the block; a record without one ranks below every other. -/
def Record.rank (r : Record) : WithBot Nat :=
  r.prefixLen?

theorem Record.rank_of_none {r : Record} (h : r.prefixLen? = none) : r.rank = ⊥ :=
  h

theorem Record.rank_of_some {r : Record} {n : Nat} (h : r.prefixLen? = some n) :
    r.rank = WithBot.some n :=
  h

theorem moreSpecific_eq_ite (held candidate : Record) :
    moreSpecific held candidate = if held.rank < candidate.rank then candidate else held := by
  rw [moreSpecific]
  cases hcandidate : candidate.prefixLen? with
  | none =>
      rw [Record.rank_of_none hcandidate, if_neg not_lt_bot]
  | some c =>
      rw [Record.rank_of_some hcandidate]
      cases hheld : held.prefixLen? with
      | none =>
          rw [Record.rank_of_none hheld, if_pos (WithBot.bot_lt_coe c)]
      | some h =>
          rw [Record.rank_of_some hheld]
          exact if_congr WithBot.coe_lt_coe.symm rfl rfl

theorem foldl_moreSpecific (held : Record) (records : List Record) :
    some (records.foldl moreSpecific held) =
      records.foldl (List.argAux fun r s => s.rank < r.rank) (some held) := by
  induction records generalizing held with
  | nil => rfl
  | cons candidate records ih =>
      rw [List.foldl_cons, List.foldl_cons, ih, moreSpecific_eq_ite, apply_ite some]
      rfl

theorem mostSpecific_eq_argmax (records : List Record) :
    mostSpecific records = records.argmax Record.rank := by
  cases records with
  | nil => rfl
  | cons first records => exact foldl_moreSpecific first records

/-- No record of a list ranks above the one at a place. -/
def IsTop (records : List Record) (n : Nat) : Prop :=
  ∃ r, records[n]? = some r ∧ ∀ s ∈ records, ¬r.rank < s.rank

theorem mostSpecific_eq_none_iff : mostSpecific records = none ↔ records = [] := by
  rw [mostSpecific_eq_argmax, List.argmax_eq_none]

theorem rank_le_of_mostSpecific (h : mostSpecific records = some record) :
    ∀ s ∈ records, s.rank ≤ record.rank := by
  rw [mostSpecific_eq_argmax] at h
  exact fun s hs => List.le_of_mem_argmax hs h

theorem idxOf_getElem_le {n : Nat} (hn : n < records.length) : records.idxOf records[n] ≤ n := by
  by_contra hlt
  have hne := List.not_of_lt_findIdx (Nat.not_le.1 hlt)
  rw [beq_self_eq_true] at hne
  cases hne

theorem isLeast_idxOf (h : mostSpecific records = some record) :
    IsLeast {n | IsTop records n} (records.idxOf record) := by
  have hmem := mem_of_mostSpecific h
  have hle := rank_le_of_mostSpecific h
  refine ⟨⟨record, List.getElem?_idxOf hmem, fun s hs => not_lt.2 (hle s hs)⟩, ?_⟩
  rintro n ⟨r, hr, htop⟩
  obtain ⟨hn, rfl⟩ := List.getElem?_eq_some_iff.1 hr
  rw [mostSpecific_eq_argmax] at h
  have hfirst := List.index_of_argmax h (List.getElem_mem hn) (not_lt.1 (htop record hmem))
  exact hfirst.trans (idxOf_getElem_le hn)

theorem mostSpecific_eq_some_iff :
    mostSpecific records = some record ↔
      ∃ n, IsLeast {n | IsTop records n} n ∧ records[n]? = some record := by
  constructor
  · intro h
    exact ⟨_, isLeast_idxOf h, List.getElem?_idxOf (mem_of_mostSpecific h)⟩
  · rintro ⟨n, hleast, hn⟩
    cases hbest : mostSpecific records with
    | none =>
        rw [mostSpecific_eq_none_iff.1 hbest] at hn
        cases hn
    | some best =>
        rw [hleast.unique (isLeast_idxOf hbest), List.getElem?_idxOf (mem_of_mostSpecific hbest)] at hn
        exact hn

/-- Among records of different ranks their order does not matter. -/
theorem mostSpecific_perm (h : records.Perm others) (hapart : (records.map Record.prefixLen?).Nodup) :
    mostSpecific records = mostSpecific others := by
  cases hbest : mostSpecific records with
  | none =>
      rw [mostSpecific_eq_none_iff.1 hbest] at h
      rw [h.symm.eq_nil]
      rfl
  | some best =>
      cases hother : mostSpecific others with
      | none =>
          rw [mostSpecific_eq_none_iff.1 hother] at h
          rw [h.eq_nil] at hbest
          cases hbest
      | some other =>
          have hbestmem := mem_of_mostSpecific hbest
          have hothermem := h.mem_iff.2 (mem_of_mostSpecific hother)
          have hrank : best.rank = other.rank :=
            le_antisymm (rank_le_of_mostSpecific hother best (h.mem_iff.1 hbestmem))
              (rank_le_of_mostSpecific hbest other hothermem)
          exact congrArg some (List.inj_on_of_nodup_map hapart hbestmem hothermem hrank)

theorem findBy_dns (hanswer : σ.texts.lookup i.target.dnsZone = some (.ok texts))
    (hread : List.Forall₂ (fun text r => readDns text = .ok r) texts records) :
    (findBy i o .dns σ).1 =
      match mostSpecific records with
      | some r => .ok (r, "\n".intercalate texts)
      | none => .error (.asnFailed i.address) := by
  have hask : askOrigin i σ = (.ok texts, σ.note (.name i.target.dnsZone)) := by
    rw [askOrigin, askTexts_eq, Exchange.bind_of_ok (Exchange.askTexts_apply _ σ), hanswer]
    rfl
  have horigin : readOrigin texts = .ok (mostSpecific records) := by
    rw [readOrigin, mapM_eq_ok_iff.2 hread]
    rfl
  rw [findBy, Exchange.bind_of_ok hask, horigin,
    Exchange.bind_of_ok (Exchange.ofExcept_apply _ _)]
  cases mostSpecific records <;> rfl

/-- Of a list of records the first one is chosen that no other one ranks above. So answers that can be
read give a record with at least as many fixed bits as any other, and in another order they give the
same record, if they differ in their fixed bits. -/
theorem dns_selects_top (records : List Record) :
    (mostSpecific records = none ↔ records = []) ∧
    (∀ r, mostSpecific records = some r ↔
      ∃ n, IsLeast {n | IsTop records n} n ∧ records[n]? = some r) ∧
    ∀ (i : Inquiry) (o : Options) (σ : Services) (texts : List String),
      σ.texts.lookup i.target.dnsZone = some (.ok texts) →
      List.Forall₂ (fun text r => readDns text = .ok r) texts records → texts ≠ [] →
      ∃ r ∈ records, (findBy i o .dns σ).1 = .ok (r, "\n".intercalate texts) ∧
        (∀ s ∈ records, s.rank ≤ r.rank) ∧
        ∀ (τ : Services) (reordered : List String), reordered.Perm texts →
          τ.texts.lookup i.target.dnsZone = some (.ok reordered) →
          (records.map Record.prefixLen?).Nodup →
          (findBy i o .dns τ).1 = .ok (r, "\n".intercalate reordered) := by
  refine ⟨mostSpecific_eq_none_iff, fun r => mostSpecific_eq_some_iff, ?_⟩
  intro i o σ texts hanswer hread hne
  cases hbest : mostSpecific records with
  | none =>
      rw [mostSpecific_eq_none_iff.1 hbest, List.forall₂_nil_right_iff] at hread
      exact absurd hread hne
  | some r =>
      refine ⟨r, mem_of_mostSpecific hbest, ?_, rank_le_of_mostSpecific hbest, ?_⟩
      · rw [findBy_dns hanswer hread, hbest]
      · intro τ reordered hperm hreordered hapart
        obtain ⟨others, hothers, hsame⟩ := List.perm_comp_forall₂ hperm hread
        rw [findBy_dns hreordered hothers, ← mostSpecific_perm hsame.symm hapart, hbest]

/-- Whatever the order of the answers, the one about the smallest block is chosen. -/
theorem dns_selects_top_reordered :
    let i : Inquiry := ⟨⟨⟨.v4, 134744072, by decide⟩, by decide⟩, {}⟩
    let wide := "3356 | 8.0.0.0/9 | US | arin | 1992-12-01"
    let unplaced := "3356 | | US | arin | 1992-12-01"
    let narrow := "15169 | 8.8.8.0/24 | US | arin | 1992-12-01"
    let chosen : Record := {
      registry := .arin
      asn := some "15169"
      cidr := some "8.8.8.0/24"
      countryCode := some "US"
      date := some "1992-12-01" }
    let answering (texts : List String) : Services :=
      { texts := [("8.8.8.8.origin.asn.cymru.com", .ok texts)] }
    (findBy i {} .dns (answering [unplaced, wide, narrow])).1 =
        .ok (chosen, "\n".intercalate [unplaced, wide, narrow]) ∧
      (findBy i {} .dns (answering [narrow, unplaced, wide])).1 =
        .ok (chosen, "\n".intercalate [narrow, unplaced, wide]) := by
  intro i wide unplaced narrow chosen answering
  let other : Record := { chosen with asn := some "3356", cidr := none }
  let others : List Record := [other, { other with cidr := some "8.0.0.0/9" }]
  obtain ⟨-, -, hselects⟩ := dns_selects_top (others ++ [chosen])
  obtain ⟨r, hr, hfound, htop, hreordered⟩ :=
    hselects i {} (answering [unplaced, wide, narrow]) [unplaced, wide, narrow] (by decide +kernel)
      (.cons (by decide +kernel) (.cons (by decide +kernel) (.cons (by decide +kernel) .nil)))
      (List.cons_ne_nil _ _)
  obtain rfl : r = chosen := by
    have hbelow : ∀ s ∈ others, ¬chosen.rank ≤ s.rank := by decide +kernel
    rcases List.mem_append.1 hr with hother | hchosen
    · exact absurd (htop chosen (by simp)) (hbelow r hother)
    · exact List.mem_singleton.1 hchosen
  have hperm : [narrow, unplaced, wide].Perm [unplaced, wide, narrow] := by decide +kernel
  exact ⟨hfound, hreordered _ _ hperm (by decide +kernel) (by decide +kernel)⟩

end IpRegistry.Asn
