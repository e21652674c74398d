import IpRegistry.Proofs.Pattern.Greedy
import IpRegistry.Proofs.Pattern.Pieces
import IpRegistry.Proofs.Pattern.Reads
import Mathlib.Data.List.Induction

namespace IpRegistry.Pattern

open Text (byteLength)

/-- Where `seen` stands behind `before` and in front of `rest`, the pattern prefers to read `seen`,
with these texts of its groups. -/
def Takes (p : Pattern) (before : Option Char) (seen rest : List Char)
    (found : List (String × List Char)) : Prop :=
  ∀ cs t, Thread.Sound cs t → t.cursor.before = before → t.cursor.rest = seen ++ rest →
    ∃ u, p.first? t = some u ∧ t.Advances cs u seen found

namespace Takes

variable {p a b : Pattern} {before : Option Char} {seen seen' rest : List Char}
  {found found' : List (String × List Char)}

theorem seq (ha : a.Takes before seen (seen' ++ rest) found)
    (hb : ∀ before, b.Takes before seen' rest found') :
    (seq a b).Takes before (seen ++ seen') rest (found' ++ found) := by
  intro cs t ht hbefore hrest
  rw [List.append_assoc] at hrest
  obtain ⟨u, hu, htu⟩ := ha cs t ht hbefore hrest
  have hsound : u.Sound cs := (ht.outcomes a u (List.mem_of_head? hu)).1
  have hrest' : u.cursor.rest = seen' ++ rest :=
    List.append_cancel_left (htu.rest.symm.trans hrest)
  obtain ⟨v, hv, huv⟩ := hb _ cs u hsound rfl hrest'
  exact ⟨v, first?_seq hu hv, htu.trans huv⟩

theorem group (name : String) (h : p.Takes before seen rest found) :
    (group name p).Takes before seen rest ((name, seen) :: found) := by
  intro cs t ht hbefore hrest
  obtain ⟨u, hu, htu⟩ := h cs t.openGroup ht.openGroup hbefore hrest
  exact ⟨u.closeGroup name, first?_group name hu, htu.closeGroup name ht.on⟩

theorem optional (h : p.Takes before seen rest found) :
    (optional p).Takes before seen rest found := by
  intro cs t ht hbefore hrest
  obtain ⟨u, hu, htu⟩ := h cs t ht hbefore hrest
  exact ⟨u, first?_optional hu, htu⟩

theorem passed (h : ∀ t : Thread, t.cursor.rest = rest → p.outcomes t = []) :
    (Pattern.optional p).Takes before [] rest [] := by
  intro cs t _ _ hrest
  exact ⟨t, first?_optional_of_eq_nil (h t hrest), .refl cs t⟩

theorem alt_left (h : a.Takes before seen rest found) : (alt a b).Takes before seen rest found := by
  intro cs t ht hbefore hrest
  obtain ⟨u, hu, htu⟩ := h cs t ht hbefore hrest
  rw [first?] at hu
  exact ⟨u, by rw [first?, outcomes, List.head?_append, hu, Option.some_or], htu⟩

theorem alt_right (ha : ∀ t : Thread, t.cursor.rest = seen ++ rest → a.outcomes t = [])
    (hb : b.Takes before seen rest found) : (alt a b).Takes before seen rest found := by
  intro cs t ht hbefore hrest
  obtain ⟨u, hu, htu⟩ := hb cs t ht hbefore hrest
  exact ⟨u, by rwa [first?, outcomes, ha t hrest, List.nil_append], htu⟩

theorem literal (seen rest : List Char) : (literal seen).Takes before seen rest [] := by
  intro cs t _ _ hrest
  exact ⟨t.skip seen rest, first?_literal hrest, .skip cs seen hrest⟩

theorem wordBoundary (h : (before.any Text.isWord != rest.head?.any Text.isWord) = true) :
    wordBoundary.Takes before [] rest [] := by
  intro cs t _ hbefore hrest
  have hat : t.atWordBoundary = true := by rwa [Thread.atWordBoundary, hbefore, hrest]
  exact ⟨t, by rw [first?, outcomes, if_pos hat]; rfl, .refl cs t⟩

variable {cls : Char → Bool}

theorem counted {least more : Nat} (hseen : ∀ c ∈ seen, cls c = true) (hleast : least ≤ seen.length)
    (hmost : seen.length ≤ least + more)
    (hstop : seen.length = least + more ∨ ∀ c ∈ rest.head?, cls c = false) :
    (counted cls least more).Takes before seen rest [] := by
  intro cs t _ _ hrest
  exact ⟨t.skip seen rest, first?_counted hseen hleast hmost hstop hrest, .skip cs seen hrest⟩

theorem atLeastOne (hseen : ∀ c ∈ seen, cls c = true) (hne : seen ≠ [])
    (hstop : ∀ c ∈ rest.head?, cls c = false) :
    (atLeastOne true cls).Takes before seen rest [] := by
  intro cs t _ _ hrest
  exact ⟨t.skip seen rest, first?_greedy hseen hne hstop hrest, .skip cs seen hrest⟩

/-- A class that is repeated as often as possible gives the last character back to one behind it. -/
theorem many_one {cls' : Char → Bool} {last : Char} (hsub : ∀ c, cls' c = true → cls c = true)
    (hseen : ∀ c ∈ seen, cls c = true) (hlast : cls' last = true)
    (hstop : ∀ c ∈ rest.head?, cls c = false) :
    (Pattern.seq (many true cls) (one cls')).Takes before (seen ++ [last]) rest [] := by
  intro cs t _ _ hrest
  have hrest' : t.cursor.rest = seen ++ last :: rest := by rw [hrest, List.append_assoc]; rfl
  refine ⟨t.skip (seen ++ [last]) rest, head?_flatMap_greedy hseen ?_ ?_ hrest', .skip cs _ hrest⟩
  · intro front back hne hback hfront
    obtain ⟨c, front, rfl⟩ := List.exists_cons_of_ne_nil hne
    obtain ⟨rfl, rfl⟩ := List.cons.inj hback
    rw [List.forall_mem_cons] at hfront
    have hnil : front = [] := by
      cases front with
      | nil => rfl
      | cons d front =>
          have hd := hstop d rfl
          rw [hfront.2 d List.mem_cons_self] at hd
          cases hd
    subst hnil
    refine outcomes_one_eq_nil fun d hd => ?_
    have hd := hstop d hd
    by_contra hcls'
    rw [hsub d (by simpa using hcls')] at hd
    cases hd
  · have hone : (one cls').first? (t.skip seen (last :: rest)) =
        some ((t.skip seen (last :: rest)).skip [last] rest) := first?_one hlast rfl
    rwa [Thread.skip_skip] at hone

end Takes

/-- No match begins with a character. -/
def NeverBegins (p : Pattern) (c : Char) : Prop :=
  ∀ t : Thread, t.cursor.rest.head? = some c → p.outcomes t = []

variable {p : Pattern}

theorem candidates_of_neverBegins {lead : List Char} (h : ∀ c ∈ lead, p.NeverBegins c)
    (rest : List Char) :
    p.candidates (lead ++ rest) 0 = p.candidates (lead ++ rest) (byteLength lead) := by
  induction lead using List.reverseRecOn generalizing rest with
  | nil => rfl
  | append_singleton lead c ih =>
      have hc : p.NeverBegins c := h c (by simp)
      have hstep := candidates_cons p lead c rest
      rw [hc _ rfl, List.nil_append] at hstep
      rw [List.append_assoc, List.singleton_append, ← hstep]
      exact ih (fun d hd => h d (List.mem_append_left _ hd)) (c :: rest)

/-- A search finds what the pattern prefers to read behind characters with which no match begins. -/
theorem exists_find_of_takes {lead seen rest : List Char} {found : List (String × List Char)}
    (hlead : ∀ c ∈ lead, p.NeverBegins c) (h : p.Takes lead.getLast? seen rest found) :
    ∃ m, p.find (lead ++ seen ++ rest) 0 = some m ∧ m.whole.stop = byteLength (lead ++ seen) ∧
      captured (lead ++ seen ++ rest) m.groups = found := by
  let c : Cursor := ⟨lead.getLast?, byteLength lead, seen ++ rest⟩
  have hon : c.On (lead ++ (seen ++ rest)) := ⟨lead, rfl, rfl, rfl⟩
  obtain ⟨u, hu, hadvances⟩ := h _ _ (.begin hon) rfl rfl
  have hbegin : ((c.onward (seen ++ rest)).map Thread.begin).head? = some (.begin c) := by
    cases seen ++ rest <;> rfl
  have hcandidates : (p.candidates (lead ++ (seen ++ rest)) 0).head? = some u := by
    rw [candidates_of_neverBegins hlead, candidates, at_append]
    exact head?_flatMap hbegin hu
  rw [List.append_assoc]
  refine ⟨u.toMatch, by rw [find_eq_head?, hcandidates]; rfl, ?_, ?_⟩
  · rw [Text.byteLength_append]
    exact hadvances.pos
  · obtain ⟨spans, hspans, hfound⟩ := hadvances.groups
    have hgroups : u.toMatch.groups = spans := hspans.trans (List.append_nil spans)
    rw [hgroups, hfound]

end IpRegistry.Pattern
