import IpRegistry.Proofs.Text.Split
import IpRegistry.Rdap.Contact

namespace IpRegistry

/-- The value at a place in nested arrays. A place is told by the indices on the way to it. -/
def Json.at? : (place : List Nat) → Json → Option Json
  | [], j => some j
  | i :: place, .array items => items[i]?.bind (at? place)
  | _ :: _, _ => none

namespace Rdap

theorem nonemptyText?_eq_some_iff {s t : String} : nonemptyText? s = some t ↔ s ≠ "" ∧ t = s := by
  rw [nonemptyText?]
  split
  · rename_i hempty
    exact iff_of_false (Option.some_ne_none t).symm fun h => h.1 hempty
  · rename_i hne
    rw [Option.some.injEq, eq_comm, and_iff_right hne]

theorem usableText?_eq_some_iff {j : Json} {s : String} :
    usableText? j = some s ↔
      ∃ t, j = .text t ∧ Text.isBlankText t = false ∧ s = Text.trim t := by
  cases j with
  | text t =>
      have hblank : Text.isBlankText t = false ↔ Text.trim t ≠ "" := by
        rw [Ne, Text.trim_eq_empty_iff, Bool.not_eq_true]
      rw [usableText?, Json.asText?, Option.map_some, Option.bind_some, nonemptyText?_eq_some_iff,
        ← hblank]
      constructor
      · rintro ⟨h, rfl⟩
        exact ⟨t, rfl, h, rfl⟩
      · rintro ⟨t, ⟨⟩, h, rfl⟩
        exact ⟨h, rfl⟩
  | _ =>
      refine iff_of_false (Option.some_ne_none s).symm ?_
      rintro ⟨t, ⟨⟩, -⟩

/-- The text at a place in nested arrays without white space around it, unless it is blank. -/
def textAt? (j : Json) (place : List Nat) : Option String :=
  (j.at? place).bind usableText?

theorem textAt?_nil (j : Json) : textAt? j [] = usableText? j :=
  rfl

theorem textAt?_zero (item : Json) (items : List Json) (place : List Nat) :
    textAt? (.array (item :: items)) (0 :: place) = textAt? item place :=
  rfl

theorem textAt?_succ (item : Json) (items : List Json) (i : Nat) (place : List Nat) :
    textAt? (.array (item :: items)) ((i + 1) :: place) = textAt? (.array items) (i :: place) :=
  rfl

/-- The texts are those of all places that have one, in the lexicographic order of the places. -/
def DepthFirst (text? : List Nat → Option String) (texts : List String) : Prop :=
  ∃ places : List (List Nat), places.Pairwise (· < ·) ∧
    (∀ place, place ∈ places ↔ (text? place).isSome = true) ∧ texts.map some = places.map text?

theorem DepthFirst.of_none {text? : List Nat → Option String} (h : ∀ place, text? place = none) :
    DepthFirst text? [] :=
  ⟨[], .nil, fun place => by simp [h place], rfl⟩

theorem depthFirst_text (s : String) : DepthFirst (textAt? (.text s)) (components (.text s)) := by
  have hdeeper : ∀ i place, textAt? (.text s) (i :: place) = none := fun _ _ => rfl
  rw [components, ← textAt?_nil]
  cases htext : textAt? (.text s) [] with
  | none =>
      refine .of_none fun place => ?_
      cases place with
      | nil => exact htext
      | cons i place => exact hdeeper i place
  | some t =>
      refine ⟨[[]], List.pairwise_singleton _ _, fun place => ?_, ?_⟩
      · cases place with
        | nil => simp [htext]
        | cons i place => simp [hdeeper]
      · simp [htext]

/-- The place in an array with one item more in front. -/
def laterPlace : List Nat → List Nat
  | [] => []
  | i :: place => (i + 1) :: place

theorem mem_map_laterPlace {places : List (List Nat)} (h : [] ∉ places) {place : List Nat} :
    place ∈ places.map laterPlace ↔ ∃ i rest, i :: rest ∈ places ∧ place = (i + 1) :: rest := by
  constructor
  · intro hplace
    obtain ⟨before, hbefore, rfl⟩ := List.mem_map.1 hplace
    cases before with
    | nil => exact absurd hbefore h
    | cons i rest => exact ⟨i, rest, hbefore, rfl⟩
  · rintro ⟨i, rest, hbefore, rfl⟩
    exact List.mem_map_of_mem hbefore

theorem pairwise_map_laterPlace {places : List (List Nat)} (h : places.Pairwise (· < ·)) :
    (places.map laterPlace).Pairwise (· < ·) := by
  refine h.map laterPlace fun place other hlt => ?_
  cases hlt with
  | nil => exact .nil
  | rel hlt => exact .rel (Nat.succ_lt_succ hlt)
  | cons hlt => exact .cons hlt

theorem DepthFirst.cons {item : Json} {items : List Json} {texts more : List String}
    (hitem : DepthFirst (textAt? item) texts) (hitems : DepthFirst (textAt? (.array items)) more) :
    DepthFirst (textAt? (.array (item :: items))) (texts ++ more) := by
  obtain ⟨places, hsorted, hmem, htexts⟩ := hitem
  obtain ⟨later, hsorted', hmem', hmore⟩ := hitems
  have hnil : [] ∉ later := fun h => Bool.false_ne_true ((hmem' []).1 h)
  refine ⟨places.map (0 :: ·) ++ later.map laterPlace, ?_, fun place => ?_, ?_⟩
  · refine List.pairwise_append.2 ⟨?_, pairwise_map_laterPlace hsorted', fun a ha b hb => ?_⟩
    · exact hsorted.map _ fun place other hlt => .cons hlt
    · obtain ⟨first, -, rfl⟩ := List.mem_map.1 ha
      obtain ⟨i, rest, -, rfl⟩ := (mem_map_laterPlace hnil).1 hb
      exact .rel (Nat.succ_pos i)
  · rw [List.mem_append, mem_map_laterPlace hnil]
    match place with
    | [] => exact iff_of_false (by simp) Bool.false_ne_true
    | 0 :: rest => simpa [textAt?_zero] using hmem rest
    | (i + 1) :: rest => simpa [textAt?_succ] using hmem' (i :: rest)
  · rw [List.map_append, htexts, hmore, List.map_append, List.map_map, List.map_map]
    refine congrArg _ (List.map_congr_left fun place hplace => ?_)
    cases place with
    | nil => exact absurd hplace hnil
    | cons i rest => exact (textAt?_succ item items i rest).symm

mutual

/-- The components of an address are its texts in depth-first order. -/
theorem depthFirst_components : (j : Json) → DepthFirst (textAt? j) (components j)
  | .text s => depthFirst_text s
  | .array items => depthFirst_componentsOfList items
  | .null | .bool _ | .number _ | .object _ => .of_none fun place => by cases place <;> rfl

theorem depthFirst_componentsOfList :
    (items : List Json) → DepthFirst (textAt? (.array items)) (componentsOfList items)
  | [] => .of_none fun place => by cases place <;> rfl
  | item :: items => (depthFirst_components item).cons (depthFirst_componentsOfList items)

end

/-- A property of a contact. -/
structure Property where
  name : String
  parameters : Json
  value : Json

namespace Property

/-- The property that an array of at least four elements tells, the first of which is a name. -/
def ofJson? : Json → Option Property
  | .array (.text name :: parameters :: _ :: value :: _) => some ⟨name, parameters, value⟩
  | _ => none

def text? (p : Property) : Option String :=
  usableText? p.value

def typed? (p : Property) : Option ContactValue :=
  typedValue? p.parameters p.value

def label? (p : Property) : Option String :=
  (p.parameters.get? "label").bind usableText?

def address? (p : Property) : Option ContactValue :=
  addressValue? p.parameters p.value

end Property

/-- The names of the properties that a contact heeds. -/
def heededNames : List String :=
  ["fn", "kind", "role", "title", "adr", "tel", "email"]

/-- What a contact becomes by a property. -/
inductive Contact.Heeds (c : Contact) (p : Property) : Contact → Prop
  | name (h : p.name = "fn") : Heeds c p { c with name := p.text? }
  | kind (h : p.name = "kind") : Heeds c p { c with kind := p.text? }
  | role (h : p.name = "role") : Heeds c p { c with role := p.text? }
  | title (h : p.name = "title") : Heeds c p { c with title := p.text? }
  | address (h : p.name = "adr") : Heeds c p { c with address := push c.address p.address? }
  | phone (h : p.name = "tel") : Heeds c p { c with phone := push c.phone p.typed? }
  | email (h : p.name = "email") : Heeds c p { c with email := push c.email p.typed? }
  | other (h : p.name ∉ heededNames) : Heeds c p c

theorem Contact.addProperty_of_none (c : Contact) {j : Json} (h : Property.ofJson? j = none) :
    c.addProperty j = c := by
  unfold addProperty
  split
  · cases h
  · rfl

theorem Contact.heeds_addProperty (c : Contact) {j : Json} {p : Property}
    (h : Property.ofJson? j = some p) : c.Heeds p (c.addProperty j) := by
  unfold Property.ofJson? at h
  split at h
  · rename_i name parameters _ value _
    cases h
    unfold addProperty
    dsimp only
    split
    · exact .name rfl
    · exact .kind rfl
    · exact .role rfl
    · exact .title rfl
    · exact .address rfl
    · exact .phone rfl
    · exact .email rfl
    · exact .other (by simp_all [heededNames])
  · cases h

namespace Contact.Heeds

variable {c d : Contact} {p : Property} (h : c.Heeds p d)

include h

theorem name_eq : d.name = if p.name = "fn" then p.text? else c.name := by
  cases h <;> simp_all [heededNames]

theorem kind_eq : d.kind = if p.name = "kind" then p.text? else c.kind := by
  cases h <;> simp_all [heededNames]

theorem role_eq : d.role = if p.name = "role" then p.text? else c.role := by
  cases h <;> simp_all [heededNames]

theorem title_eq : d.title = if p.name = "title" then p.text? else c.title := by
  cases h <;> simp_all [heededNames]

theorem address_eq : d.address = if p.name = "adr" then push c.address p.address? else c.address := by
  cases h <;> simp_all [heededNames]

theorem phone_eq : d.phone = if p.name = "tel" then push c.phone p.typed? else c.phone := by
  cases h <;> simp_all [heededNames]

theorem email_eq : d.email = if p.name = "email" then push c.email p.typed? else c.email := by
  cases h <;> simp_all [heededNames]

theorem eq_of_not_mem (hother : p.name ∉ heededNames) : d = c := by
  cases h <;> simp_all [heededNames]

end Contact.Heeds

/-- The properties of a name. -/
def named (name : String) (properties : List Property) : List Property :=
  properties.filter fun p => p.name = name

/-- The text of the last property of a name. -/
def lastText? (name : String) (properties : List Property) : Option String :=
  (named name properties).getLast?.bind Property.text?

/-- The values that are read from properties in their order, or nothing if none of them has a value. -/
structure Collects (read : Property → Option ContactValue) (properties : List Property)
    (held : Option (List ContactValue)) : Prop where
  values_eq : held.getD [] = properties.filterMap read
  eq_none_iff : held = none ↔ ∀ p ∈ properties, read p = none
  ne_nil : held ≠ some []

theorem Collects.nil (read : Property → Option ContactValue) : Collects read [] none where
  values_eq := rfl
  eq_none_iff := iff_of_true rfl (List.forall_mem_nil _)
  ne_nil := (Option.some_ne_none []).symm

theorem Collects.concat {read : Property → Option ContactValue} {properties : List Property}
    {held : Option (List ContactValue)} (h : Collects read properties held) (p : Property) :
    Collects read (properties ++ [p]) (push held (read p)) := by
  cases hread : read p with
  | none =>
      refine ⟨?_, ?_, h.ne_nil⟩
      · rw [List.filterMap_append, ← h.values_eq]
        simp [push, hread]
      · rw [push, h.eq_none_iff]
        simp [or_imp, forall_and, hread]
  | some value =>
      refine ⟨?_, ?_, ?_⟩
      · rw [List.filterMap_append, ← h.values_eq]
        simp [push, hread]
      · refine iff_of_false (Option.some_ne_none _) fun hnone => ?_
        rw [hnone p (by simp)] at hread
        cases hread
      · simp [push]

/-- Each part of a contact tells of the properties of its name. -/
structure Contact.Reads (properties : List Property) (c : Contact) : Prop where
  name : c.name = lastText? "fn" properties
  kind : c.kind = lastText? "kind" properties
  role : c.role = lastText? "role" properties
  title : c.title = lastText? "title" properties
  address : Collects Property.address? (named "adr" properties) c.address
  phone : Collects Property.typed? (named "tel" properties) c.phone
  email : Collects Property.typed? (named "email" properties) c.email

theorem named_concat (name : String) (properties : List Property) (p : Property) :
    named name (properties ++ [p]) =
      named name properties ++ if p.name = name then [p] else [] := by
  rw [named, List.filter_append, List.filter_singleton]
  simp [named, Bool.cond_decide]

theorem lastText?_concat (name : String) (properties : List Property) (p : Property) :
    lastText? name (properties ++ [p]) =
      if p.name = name then p.text? else lastText? name properties := by
  rw [lastText?, named_concat]
  split
  · rw [List.getLast?_concat, Option.bind_some]
  · rw [List.append_nil, lastText?]

theorem Collects.named_concat {read : Property → Option ContactValue} {name : String}
    {properties : List Property} {held : Option (List ContactValue)}
    (h : Collects read (named name properties) held) (p : Property) :
    Collects read (named name (properties ++ [p]))
      (if p.name = name then push held (read p) else held) := by
  rw [Rdap.named_concat]
  split
  · exact h.concat p
  · rwa [List.append_nil]

theorem Contact.Reads.nil : Contact.Reads [] {} where
  name := rfl
  kind := rfl
  role := rfl
  title := rfl
  address := .nil _
  phone := .nil _
  email := .nil _

theorem Contact.Reads.concat {properties : List Property} {c d : Contact}
    (h : c.Reads properties) {p : Property} (hd : c.Heeds p d) : d.Reads (properties ++ [p]) where
  name := by rw [hd.name_eq, lastText?_concat, h.name]
  kind := by rw [hd.kind_eq, lastText?_concat, h.kind]
  role := by rw [hd.role_eq, lastText?_concat, h.role]
  title := by rw [hd.title_eq, lastText?_concat, h.title]
  address := hd.address_eq ▸ h.address.named_concat p
  phone := hd.phone_eq ▸ h.phone.named_concat p
  email := hd.email_eq ▸ h.email.named_concat p

/-- The properties that a list of values tells. -/
def propertiesOf (items : List Json) : List Property :=
  items.filterMap Property.ofJson?

theorem Contact.Reads.foldl {properties : List Property} {c : Contact} (h : c.Reads properties)
    (items : List Json) :
    (items.foldl addProperty c).Reads (properties ++ propertiesOf items) := by
  induction items generalizing properties c with
  | nil =>
      rw [propertiesOf, List.filterMap_nil, List.append_nil]
      exact h
  | cons j items ih =>
      rw [List.foldl_cons, propertiesOf, List.filterMap_cons]
      cases hj : Property.ofJson? j with
      | none =>
          rw [c.addProperty_of_none hj]
          exact ih h
      | some p =>
          rw [List.append_cons]
          exact ih (h.concat (c.heeds_addProperty hj))

theorem Contact.reads_ofProperties (items : List Json) :
    (Contact.ofProperties items).Reads (propertiesOf items) :=
  Reads.nil.foldl items

/-- A value that tells no property, or one of another name, changes nothing. -/
theorem Contact.ofProperties_insert (front back : List Json) {j : Json}
    (h : ∀ p ∈ Property.ofJson? j, p.name ∉ heededNames) :
    ofProperties (front ++ j :: back) = ofProperties (front ++ back) := by
  have hstep : (front.foldl addProperty {}).addProperty j = front.foldl addProperty {} := by
    cases hj : Property.ofJson? j with
    | none => exact addProperty_of_none _ hj
    | some p => exact (heeds_addProperty _ hj).eq_of_not_mem (h p hj)
  rw [ofProperties, List.foldl_append, List.foldl_cons, hstep, ← List.foldl_append]
  rfl

theorem Collects.append {read : Property → Option ContactValue} {name : String}
    {front back : List Json} {held held' both : Option (List ContactValue)}
    (h : Collects read (named name (propertiesOf front)) held)
    (h' : Collects read (named name (propertiesOf back)) held')
    (hboth : Collects read (named name (propertiesOf (front ++ back))) both) :
    both.getD [] = held.getD [] ++ held'.getD [] := by
  rw [hboth.values_eq, h.values_eq, h'.values_eq, propertiesOf, List.filterMap_append, named,
    List.filter_append, List.filterMap_append]
  rfl

theorem DepthFirst.ne_empty {j : Json} {texts : List String} (h : DepthFirst (textAt? j) texts) :
    ∀ s ∈ texts, s ≠ "" := by
  obtain ⟨places, -, -, htexts⟩ := h
  intro s hs
  have hplace : some s ∈ places.map (textAt? j) := htexts ▸ List.mem_map_of_mem hs
  obtain ⟨place, -, htext⟩ := List.mem_map.1 hplace
  obtain ⟨value, -, husable⟩ := Option.bind_eq_some_iff.1 htext
  obtain ⟨t, -, hblank, rfl⟩ := usableText?_eq_some_iff.1 husable
  rw [Ne, Text.trim_eq_empty_iff, hblank]
  exact Bool.false_ne_true

/-- A property is read as a text or as a typed value by a value that is a text and not blank, and as an
address by such a label or else by the texts in its value, if there are any. -/
structure Property.ReadsValues (p : Property) : Prop where
  text?_eq_some_iff : ∀ s, p.text? = some s ↔
    ∃ t, p.value = .text t ∧ Text.isBlankText t = false ∧ s = Text.trim t
  label?_eq_some_iff : ∀ s, p.label? = some s ↔
    ∃ t, p.parameters.get? "label" = some (.text t) ∧ Text.isBlankText t = false ∧ s = Text.trim t
  typed?_eq : p.typed? = p.text?.map (ContactValue.mk (kindOf? p.parameters))
  address?_eq : ∃ texts, DepthFirst (textAt? p.value) texts ∧
    p.address? = (p.label?.or (if texts = [] then none else some ("\n".intercalate texts))).map
      (ContactValue.mk (kindOf? p.parameters))

theorem Property.readsValues (p : Property) : p.ReadsValues where
  text?_eq_some_iff _ := usableText?_eq_some_iff
  label?_eq_some_iff s := by
    rw [label?, Option.bind_eq_some_iff]
    constructor
    · rintro ⟨j, hj, husable⟩
      obtain ⟨t, rfl, hblank, rfl⟩ := usableText?_eq_some_iff.1 husable
      exact ⟨t, hj, hblank, rfl⟩
    · rintro ⟨t, ht, hblank, rfl⟩
      exact ⟨.text t, ht, usableText?_eq_some_iff.2 ⟨t, rfl, hblank, rfl⟩⟩
  typed?_eq := rfl
  address?_eq := by
    have hfirst := depthFirst_components p.value
    refine ⟨components p.value, hfirst, ?_⟩
    have hjoined : nonemptyText? ("\n".intercalate (components p.value)) =
        if components p.value = [] then none
        else some ("\n".intercalate (components p.value)) := by
      split
      · rename_i hnil
        rw [hnil]
        rfl
      · rename_i hne
        exact if_neg (Text.intercalate_ne_empty hne hfirst.ne_empty)
    rw [← hjoined]
    rfl

/-- Every array of values is a contact, whatever the values are. Its lists have the usable values of the
properties of their names, in the order of the properties, and its texts are those of the last properties
of their names. A value that tells no property, or one of another name, has no effect wherever it
stands, and the lists of two arrays, one behind the other, are those of the first one and then those of
the second one. -/
theorem contact_reads_properties (items : List Json) :
    ∃ c, Contact.parse (.array items) = .ok c ∧ c.Reads (propertiesOf items) ∧
      (∀ p ∈ propertiesOf items, p.ReadsValues) ∧
      (∀ front j back, items = front ++ back →
        (∀ p ∈ Property.ofJson? j, p.name ∉ heededNames) →
          Contact.parse (.array (front ++ j :: back)) = .ok c) ∧
      ∀ more, ∃ d both, Contact.parse (.array more) = .ok d ∧
        Contact.parse (.array (items ++ more)) = .ok both ∧
        both.address.getD [] = c.address.getD [] ++ d.address.getD [] ∧
        both.phone.getD [] = c.phone.getD [] ++ d.phone.getD [] ∧
        both.email.getD [] = c.email.getD [] ++ d.email.getD [] := by
  have hreads := Contact.reads_ofProperties items
  refine ⟨Contact.ofProperties items, rfl, hreads, fun p _ => p.readsValues, ?_, fun more => ?_⟩
  · rintro front j back rfl hj
    exact congrArg Except.ok (Contact.ofProperties_insert front back hj)
  · have hmore := Contact.reads_ofProperties more
    have hboth := Contact.reads_ofProperties (items ++ more)
    exact ⟨_, _, rfl, rfl, hreads.address.append hmore.address hboth.address,
      hreads.phone.append hmore.phone hboth.phone, hreads.email.append hmore.email hboth.email⟩

/-- A number between two names, the second of which is blank, and an address without a label. -/
theorem contact_reads_properties_twice :
    let property (name : String) (value : Json) : Json :=
      .array [.text name, .object [], .text "text", value]
    let items : List Json := [property "fn" (.text "A"), property "tel" (.text " 1 "),
      property "fn" (.text " "), property "adr" (.array [.text "", .array [.text "S ",
        .array [.text "F"]], .text "NL"])]
    let c : Contact :=
      { address := some [⟨none, "S\nF\nNL"⟩], phone := some [⟨none, "1"⟩] }
    Contact.parse (.array items) = .ok c ∧
      Contact.parse (.array (items ++ .text "tel" :: [])) = .ok c ∧
      ∃ both, Contact.parse (.array (items ++ items)) = .ok both ∧
        both.phone.getD [] = [⟨none, "1"⟩, ⟨none, "1"⟩] := by
  intro property items c
  have hparse : Contact.parse (.array items) = .ok c := rfl
  obtain ⟨d, hd, -, -, hinsert, hconcat⟩ := contact_reads_properties items
  cases hparse.symm.trans hd
  obtain ⟨e, both, he, hboth, -, hphone, -⟩ := hconcat items
  cases hparse.symm.trans he
  refine ⟨hparse, hinsert items (.text "tel") [] (List.append_nil items).symm ?_, both, hboth, hphone⟩
  rintro p ⟨⟩

end Rdap

end IpRegistry
