import IpRegistry.Json.Record
import IpRegistry.Proofs.Keyed.Order

namespace IpRegistry.Json

variable {α : Type}

/-- The value of a name in a list of members, of which the last one of a name counts. -/
def valueOf? (name : String) : List (String × Json) → Option Json
  | [] => none
  | (n, j) :: rest => (valueOf? name rest).or (if n = name then some j else none)

@[simp] theorem valueOf?_nil (name : String) : valueOf? name [] = none :=
  rfl

@[simp] theorem valueOf?_cons (name n : String) (j : Json) (rest : List (String × Json)) :
    valueOf? name ((n, j) :: rest) = (valueOf? name rest).or (if n = name then some j else none) :=
  rfl

@[simp] theorem member?_none (name : String) (encode : α → Json) :
    member? name encode none = [] :=
  rfl

@[simp] theorem valueOf?_member? (name n : String) (encode : α → Json) (value : Option α) :
    valueOf? name (member? n encode value) = if n = name then value.map encode else none := by
  cases value <;> simp [member?]

@[simp] theorem valueOf?_append (name : String) (xs ys : List (String × Json)) :
    valueOf? name (xs ++ ys) = (valueOf? name ys).or (valueOf? name xs) := by
  induction xs with
  | nil => simp [valueOf?]
  | cons x rest ih => rw [List.cons_append, valueOf?, valueOf?, ih, Option.or_assoc]

theorem insertMember_eq (name : String) (j : Json) (members : List (String × Json)) :
    insertMember name j members = Keyed.insertInOrder id name j members := by
  induction members with
  | nil => rfl
  | cons first rest ih => rw [insertMember, Keyed.insertInOrder, ih]; rfl

theorem ofMembers_eq (members : List (String × Json)) :
    ofMembers members = object (Keyed.inOrder id members) := by
  simp only [ofMembers, insertMember_eq, Keyed.inOrder]

theorem lookup_insertInOrder (name n : String) (j : Json) (members : List (String × Json)) :
    (Keyed.insertInOrder id n j members).lookup name =
      if n = name then some j else members.lookup name := by
  induction members with
  | nil => grind [Keyed.insertInOrder]
  | cons first rest ih =>
    obtain ⟨m, v⟩ := first
    grind [Keyed.insertInOrder]

@[simp] theorem lookup_inOrder (name : String) (members : List (String × Json)) :
    (Keyed.inOrder id members).lookup name = valueOf? name members := by
  induction members using List.reverseRecOn with
  | nil => rfl
  | append_singleton members last ih =>
    rw [Keyed.inOrder_append_singleton, lookup_insertInOrder, ih, valueOf?_append]
    simp only [valueOf?, Option.none_or]
    split <;> rfl

theorem mem_iff_lookup {members : List (String × Json)} (h : Keyed.Ordered id members)
    {name : String} {j : Json} : (name, j) ∈ members ↔ members.lookup name = some j := by
  induction members with
  | nil => simp
  | cons first rest ih =>
    obtain ⟨n, v⟩ := first
    obtain ⟨hfirst, hrest⟩ := List.pairwise_cons.mp h
    rw [List.mem_cons, Prod.mk.injEq, List.lookup_cons, ih hrest]
    rcases eq_or_ne name n with rfl | hne
    · have hnone : rest.lookup name ≠ some j :=
        fun hsome => lt_irrefl name (hfirst (name, j) ((ih hrest).mpr hsome))
      simp [hnone, eq_comm]
    · have hbeq : (name == n) = false := beq_false_of_ne hne
      simp [hne, hbeq]

/-- Members with the same values of all names have the same order. -/
theorem inOrder_ext {xs ys : List (String × Json)}
    (h : ∀ name, valueOf? name xs = valueOf? name ys) :
    Keyed.inOrder id xs = Keyed.inOrder id ys := by
  have hxs := Keyed.ordered_inOrder id xs
  have hys := Keyed.ordered_inOrder id ys
  have hmem : ∀ m, m ∈ Keyed.inOrder id xs ↔ m ∈ Keyed.inOrder id ys := by
    rintro ⟨name, j⟩
    rw [mem_iff_lookup hxs, mem_iff_lookup hys, lookup_inOrder, lookup_inOrder, h]
  have hperm := (List.perm_ext_iff_of_nodup hxs.nodup hys.nodup).mpr hmem
  exact hperm.eq_of_pairwise (fun _ _ _ _ hlt hgt => absurd hlt hgt.asymm) hxs hys

/-- The members whose names are not in `own`. -/
def outside (own : List String) (members : List (String × Json)) : List (String × Json) :=
  members.filter fun m => !own.contains m.1

@[simp] theorem outside_nil (own : List String) : outside own [] = [] :=
  rfl

@[simp] theorem outside_cons (own : List String) (name : String) (j : Json)
    (rest : List (String × Json)) :
    outside own ((name, j) :: rest) =
      if name ∈ own then outside own rest else (name, j) :: outside own rest := by
  by_cases hown : name ∈ own <;> simp [outside, hown]

@[simp] theorem outside_append (own : List String) (xs ys : List (String × Json)) :
    outside own (xs ++ ys) = outside own xs ++ outside own ys :=
  List.filter_append xs ys

@[simp] theorem outside_member? (own : List String) (name : String) (encode : α → Json)
    (value : Option α) :
    outside own (member? name encode value) =
      if name ∈ own then [] else member? name encode value := by
  cases value with
  | none => simp
  | some a => simp [member?]

@[simp] theorem outside_inOrder (own : List String) (members : List (String × Json)) :
    outside own (Keyed.inOrder id members) = Keyed.inOrder id (outside own members) :=
  Keyed.filter_inOrder id (fun n => !own.contains n) members

theorem lookup_outside {own : List String} {name : String} (h : name ∈ own)
    (members : List (String × Json)) : (outside own members).lookup name = none := by
  rw [List.lookup_eq_none_iff]
  intro m hm
  have hown : m.1 ∉ own := by simpa [outside] using (List.mem_filter.mp hm).2
  exact bne_iff_ne.mpr fun heq => hown (heq ▸ h)

theorem valueOf?_outside {own : List String} {name : String} (h : name ∈ own)
    (members : List (String × Json)) : valueOf? name (outside own members) = none := by
  rw [← lookup_inOrder, ← outside_inOrder, lookup_outside h]

end IpRegistry.Json
