import IpRegistry.Proofs.Pattern.Leftmost

namespace IpRegistry.Pattern

variable {cls : Char → Bool} {t u : Thread} {seen rest : List Char}

/-- The places to which a class can be repeated end with those behind the characters `seen`. -/
theorem exists_climb_append (hseen : ∀ c ∈ seen, cls c = true) (h : t.cursor.rest = seen ++ rest) :
    ∃ earlier, Thread.climb cls (seen ++ rest) t =
      earlier ++ Thread.climb cls rest (t.skip seen rest) := by
  induction seen generalizing t with
  | nil =>
      rw [List.nil_append] at h ⊢
      rw [← h, Thread.skip_nil]
      exact ⟨[], rfl⟩
  | cons c seen ih =>
      rw [List.forall_mem_cons] at hseen
      obtain ⟨earlier, hclimb⟩ := ih (t := t.skip [c] (seen ++ rest)) hseen.2 rfl
      rw [List.cons_append, Thread.climb, if_pos hseen.1, hclimb, Thread.skip_skip]
      exact ⟨t :: earlier, rfl⟩

/-- Apart from the first one, the places to which a class can be repeated are behind characters of
the class. -/
theorem exists_climb_cons (cls : Char → Bool) (h : t.cursor.rest = rest) :
    ∃ later, Thread.climb cls rest t = t :: later ∧
      ∀ u ∈ later, ∃ front back, front ≠ [] ∧ rest = front ++ back ∧
        (∀ c ∈ front, cls c = true) ∧ u = t.skip front back := by
  induction rest generalizing t with
  | nil => exact ⟨[], rfl, nofun⟩
  | cons c rest ih =>
      rw [Thread.climb]
      split
      · rename_i hc
        obtain ⟨later, hclimb, hlater⟩ := ih (t := t.skip [c] rest) rfl
        refine ⟨_, by rw [hclimb], fun u hu => ?_⟩
        rcases List.mem_cons.1 hu with rfl | hu
        · exact ⟨[c], rest, List.cons_ne_nil _ _, rfl, by simpa using hc, rfl⟩
        · obtain ⟨front, back, -, rfl, hfront, rfl⟩ := hlater u hu
          refine ⟨c :: front, back, List.cons_ne_nil _ _, rfl, ?_, Thread.skip_skip ..⟩
          exact List.forall_mem_cons.2 ⟨hc, hfront⟩
      · exact ⟨[], rfl, nofun⟩

/-- Repeated as often as possible, a class gives characters back until the rest goes on. -/
theorem head?_flatMap_greedy {f : Thread → List Thread} (hseen : ∀ c ∈ seen, cls c = true)
    (hlonger : ∀ front back, front ≠ [] → rest = front ++ back → (∀ c ∈ front, cls c = true) →
      f (t.skip (seen ++ front) back) = [])
    (hu : (f (t.skip seen rest)).head? = some u) (h : t.cursor.rest = seen ++ rest) :
    (((many true cls).outcomes t).flatMap f).head? = some u := by
  obtain ⟨earlier, hearlier⟩ := exists_climb_append hseen h
  obtain ⟨later, hclimb, hlater⟩ := exists_climb_cons cls
    (show (t.skip seen rest).cursor.rest = rest from rfl)
  have hnone : later.reverse.flatMap f = [] := by
    refine List.flatMap_eq_nil_iff.2 fun v hv => ?_
    obtain ⟨front, back, hne, hrest, hfront, rfl⟩ := hlater v (List.mem_reverse.1 hv)
    rw [Thread.skip_skip]
    exact hlonger front back hne hrest hfront
  show ((Thread.climb cls t.cursor.rest t).reverse.flatMap f).head? = some u
  rw [h, hearlier, hclimb, List.reverse_append, List.reverse_cons, List.append_assoc,
    List.flatMap_append, hnone, List.nil_append, List.singleton_append, List.flatMap_cons,
    List.head?_append, hu, Option.some_or]

theorem first?_optional {p : Pattern} (h : p.first? t = some u) : (optional p).first? t = some u := by
  rw [first?] at h
  rw [first?, optional, outcomes, List.head?_append, h, Option.some_or]

theorem first?_optional_of_eq_nil {p : Pattern} (h : p.outcomes t = []) :
    (optional p).first? t = some t := by
  rw [first?, optional, outcomes, h]
  rfl

theorem outcomes_one_eq_nil (h : ∀ c ∈ t.cursor.rest.head?, cls c = false) :
    (one cls).outcomes t = [] := by
  rw [outcomes, Thread.one]
  cases hrest : t.cursor.rest with
  | nil => rfl
  | cons c cs => simp [h c (by rw [hrest]; rfl)]

/-- A class with a bound on its repetitions takes all characters up to one that is not of the class,
or as many as the bound allows. -/
theorem first?_counted {least more : Nat} (hseen : ∀ c ∈ seen, cls c = true)
    (hleast : least ≤ seen.length) (hmost : seen.length ≤ least + more)
    (hstop : seen.length = least + more ∨ ∀ c ∈ rest.head?, cls c = false)
    (h : t.cursor.rest = seen ++ rest) :
    (counted cls least more).first? t = some (t.skip seen rest) := by
  fun_induction counted cls least more generalizing seen t with
  | case1 =>
      obtain rfl : seen = [] := List.eq_nil_of_length_eq_zero (by omega)
      rw [List.nil_append] at h
      rw [← h, Thread.skip_nil]
      rfl
  | case2 more ih =>
      cases seen with
      | nil =>
          rw [List.nil_append] at h
          have hstop := hstop.resolve_left (by simp)
          rw [← h] at hstop
          rw [← h, Thread.skip_nil]
          refine first?_optional_of_eq_nil ?_
          rw [outcomes, outcomes_one_eq_nil hstop, List.flatMap_nil]
      | cons c seen =>
          rw [List.forall_mem_cons] at hseen
          rw [List.length_cons] at hmost hstop
          have hmore := ih (t := t.skip [c] (seen ++ rest)) hseen.2 (Nat.zero_le _) (by omega)
            (hstop.imp_left (by omega)) rfl
          rw [Thread.skip_skip] at hmore
          exact first?_optional (first?_seq (first?_one hseen.1 h) hmore)
  | case3 least more ih =>
      cases seen with
      | nil => exact absurd hleast (Nat.not_succ_le_zero _)
      | cons c seen =>
          rw [List.forall_mem_cons] at hseen
          rw [List.length_cons] at hleast hmost hstop
          have hmore := ih (t := t.skip [c] (seen ++ rest)) hseen.2 (by omega) (by omega)
            (hstop.imp_left (by omega)) rfl
          rw [Thread.skip_skip] at hmore
          exact first?_seq (first?_one hseen.1 h) hmore

end IpRegistry.Pattern
