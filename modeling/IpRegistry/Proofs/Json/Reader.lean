import IpRegistry.Proofs.Json.Members
import IpRegistry.Proofs.Traverse

namespace IpRegistry.Json

variable {α β : Type}

/-- What is written is read as it was, and is never null. -/
structure Inverts (decode : Json → Option α) (encode : α → Json) : Prop where
  decode_encode : ∀ a, decode (encode a) = some a
  encode_ne_null : ∀ a, encode a ≠ null

theorem ofMembers_ne_null (members : List (String × Json)) : ofMembers members ≠ null :=
  nofun

theorem Inverts.text : Inverts asText? text :=
  ⟨fun _ => rfl, nofun⟩

theorem Inverts.listOf {decode : Json → Option α} {encode : α → Json} (h : Inverts decode encode) :
    Inverts (listOf decode) (ofList encode) := by
  refine ⟨?_, nofun⟩
  intro items
  rw [ofList, Json.listOf, mapM_map_eq_some id fun a _ => h.decode_encode a, List.map_id]

theorem Inverts.texts : Inverts asTexts? ofTexts :=
  Inverts.text.listOf

theorem Inverts.nullable {decode : Json → Option α} {encode : α → Json} (h : Inverts decode encode)
    (value : Option α) : nullable decode (ofOption encode value) = some value := by
  cases value with
  | none => rfl
  | some a =>
    have hread : Json.nullable decode (encode a) = (decode (encode a)).map some := by
      rw [Json.nullable]
      exact h.encode_ne_null a
    exact hread.trans (congrArg (Option.map some) (h.decode_encode a))

@[simp] theorem asText?_text (s : String) : asText? (.text s) = some s :=
  rfl

@[simp] theorem asNat?_ofNat (n : Nat) : asNat? (ofNat n) = some n :=
  rfl

@[simp] theorem nullable_ofText? (value : Option String) :
    nullable asText? (ofText? value) = some value :=
  Inverts.text.nullable value

@[simp] theorem nullable_ofTexts? (value : Option (List String)) :
    nullable asTexts? (ofTexts? value) = some value :=
  Inverts.texts.nullable value

/-- A member that is left out where there is no value is read as that value. -/
theorem Inverts.elim_map {decode : Json → Option α} {encode : α → Json} (h : Inverts decode encode)
    (value : Option α) :
    (value.map encode).elim (some none) (Json.nullable decode) = some value := by
  cases value with
  | none => rfl
  | some a => exact h.nullable (some a)

theorem elim_nullable_some {raw : Option Json} (h : raw ≠ some null) :
    raw.elim (some none) (Json.nullable some) = some raw := by
  cases raw with
  | none => rfl
  | some j =>
    rw [Option.elim, Json.nullable]
    · rfl
    · rintro rfl
      exact h rfl

theorem elim_nullable_ne_null {held raw : Option Json}
    (h : held.elim (some none) (nullable some) = some raw) : raw ≠ some null := by
  rintro rfl
  cases held with
  | none => cases h
  | some j => cases j <;> cases h

theorem ofKeyed_eq (encode : α → Json) (items : List (String × α)) :
    ofKeyed encode items =
      object ((Keyed.inOrder id items).map fun item => (item.1, encode item.2)) := by
  rw [ofKeyed, ofMembers_eq]
  exact congrArg object (Keyed.inOrder_map id encode items)

/-- Values by names are read in the order of the names. -/
theorem keyedOf_ofKeyed {decode : Json → Option β} {encode : α → Json} (g : α → β)
    {items : List (String × α)} (h : ∀ item ∈ items, decode (encode item.2) = some (g item.2)) :
    keyedOf decode (ofKeyed encode items) =
      some ((Keyed.inOrder id items).map fun item => (item.1, g item.2)) := by
  rw [ofKeyed_eq]
  refine mapM_map_eq_some _ fun item hitem => ?_
  exact congrArg (Option.map (item.1, ·)) (h item (Keyed.mem_of_mem_inOrder hitem))

/-- The order of the values does not show in what is written. -/
theorem ofKeyed_inOrder (encode : α → Json) (items : List (String × α)) :
    ofKeyed encode (Keyed.inOrder id items) = ofKeyed encode items := by
  rw [ofKeyed_eq, ofKeyed_eq, Keyed.inOrder_inOrder]

/-- Values by names are read from values. -/
theorem exists_of_keyedOf {decode : Json → Option α} {j : Json} {items : List (String × α)}
    (h : keyedOf decode j = some items) {item : String × α} (hitem : item ∈ items) :
    ∃ v, decode v = some item.2 := by
  cases j with
  | object members =>
    obtain ⟨⟨name, v⟩, -, hread⟩ := exists_of_mapM h hitem
    obtain ⟨a, ha, rfl⟩ := Option.map_eq_some_iff.mp hread
    exact ⟨v, ha⟩
  | _ => cases h

namespace Reader

/-- Goes on from what was read, if there is anything. -/
def andThen (read : Option (α × Source)) (next : α → Source → Option β) : Option β :=
  read.bind fun result => next result.1 result.2

-- What comes next is left alone until it is known what was read.
@[congr] theorem andThen_congr {x y : Option (α × Source)} (h : x = y)
    (next : α → Source → Option β) : andThen x next = andThen y next :=
  congrArg (andThen · next) h

@[simp] theorem andThen_some (a : α) (source : Source) (next : α → Source → Option β) :
    andThen (some (a, source)) next = next a source :=
  (rfl)

theorem andThen_eq_some_iff {read : Option (α × Source)} {next : α → Source → Option β} {b : β} :
    andThen read next = some b ↔ ∃ a source, read = some (a, source) ∧ next a source = some b := by
  simp [andThen, Option.bind_eq_some_iff]

@[simp high] theorem run_bind (r : Reader α) (f : α → Reader β) (source : Source) :
    StateT.run (r >>= f) source = andThen (r.run source) fun a rest => (f a).run rest :=
  (rfl)

variable (name : String) (decode : Json → Option α) (members : List (String × Json))

@[simp] theorem run_required :
    StateT.run (required name decode) (.named members) =
      ((members.lookup name).bind decode).map (·, .named members) := by
  cases hlookup : members.lookup name <;> simp [StateT.run, required, hlookup]

@[simp] theorem run_optional :
    StateT.run (optional name decode) (.named members) =
      ((members.lookup name).elim (some none) (nullable decode)).map (·, .named members) := by
  cases hlookup : members.lookup name <;> simp [StateT.run, optional, hlookup]

@[simp] theorem run_withDefault (start : α) :
    StateT.run (withDefault start name decode) (.named members) =
      ((members.lookup name).elim (some start) decode).map (·, .named members) := by
  cases hlookup : members.lookup name <;> simp [StateT.run, withDefault, hlookup]

/-- A record that stands among the members of another one is read from the members that are left. -/
@[simp] theorem run_among (own : List String) (r : Reader α) :
    StateT.run (among own r) (.named members) =
      (r.run (.named (outside own members))).map fun result => (result.1, .named members) :=
  rfl

@[simp] theorem run_others (own : List String) (decodeMember : String → Json → Option α) :
    StateT.run (others own decodeMember) (.named members) =
      ((outside own members).mapM fun m => decodeMember m.1 m.2).map (·, .named members) :=
  rfl

@[simp] theorem run_attempt_among (own : List String) (r : Reader α) :
    StateT.run (attempt (among own r)) (.named members) =
      some ((r.run (.named (outside own members))).map Prod.fst, .named members) := by
  change attempt (among own r) (.named members) = _
  rw [attempt, run_among]
  cases r.run (.named (outside own members)) <;> rfl

@[simp] theorem read?_ofMembers (r : Reader α) :
    r.read? (ofMembers members) = (r.run (.named (Keyed.inOrder id members))).map Prod.fst := by
  rw [ofMembers_eq]
  rfl

@[simp] theorem readObject?_ofMembers (r : Reader α) :
    r.readObject? (ofMembers members) = (r.run (.named (Keyed.inOrder id members))).map Prod.fst := by
  rw [ofMembers_eq]
  rfl

theorem exists_run_of_read? {r : Reader α} {j : Json} {a : α} (h : r.read? j = some a) :
    ∃ source rest, r.run source = some (a, rest) := by
  unfold read? at h
  split at h
  · obtain ⟨⟨b, rest⟩, hrun, rfl⟩ := Option.map_eq_some_iff.mp h
    exact ⟨_, rest, hrun⟩
  · split at h
    · rename_i hrun
      cases h
      exact ⟨_, _, hrun⟩
    · cases h
  · cases h

theorem exists_of_required {name : String} {decode : Json → Option α} {source rest : Source} {a : α}
    (h : (required name decode).run source = some (a, rest)) : ∃ j, decode j = some a := by
  change required name decode source = some (a, rest) at h
  unfold required at h
  split at h
  · split at h
    · obtain ⟨b, hb, heq⟩ := Option.map_eq_some_iff.mp h
      cases heq
      exact ⟨_, hb⟩
    · cases h
  · obtain ⟨b, hb, heq⟩ := Option.map_eq_some_iff.mp h
    cases heq
    exact ⟨_, hb⟩
  · cases h

end Reader

end IpRegistry.Json
