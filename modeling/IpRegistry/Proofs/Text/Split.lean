import IpRegistry.Text.Blank
import IpRegistry.Text.Split
import Mathlib.Data.List.DropRight

namespace IpRegistry.Text

variable {sep : Char} {more cs before after : List Char}

theorem splitFirst?_append (h : sep ∉ before) :
    splitFirst? (sep :: more) (before ++ sep :: (more ++ after)) = some (before, after) := by
  induction before with
  | nil => simp [splitFirst?]
  | cons c before ih =>
      have hc : sep ≠ c := fun heq => h (heq ▸ List.mem_cons_self)
      have hbefore : sep ∉ before := fun hmem => h (List.mem_cons_of_mem _ hmem)
      simp [splitFirst?, hc, ih hbefore]

theorem splitFirst?_of_not_mem (h : sep ∉ cs) : splitFirst? (sep :: more) cs = none := by
  rw [← Option.not_isSome_iff_eq_none, isSome_splitFirst?_iff]
  exact fun hpart => h (hpart.subset List.mem_cons_self)

theorem eq_of_splitFirst? (h : splitFirst? [sep] cs = some (before, after)) :
    cs = before ++ sep :: after ∧ sep ∉ before := by
  induction cs generalizing before with
  | nil => simp [splitFirst?] at h
  | cons c cs ih =>
      unfold splitFirst? at h
      split at h
      · rename_i hstarts
        have hc : sep = c := by simpa using hstarts
        cases h
        simp [hc]
      · rename_i hstarts
        obtain ⟨⟨front, rest⟩, hsplit, heq⟩ := Option.map_eq_some_iff.mp h
        cases heq
        obtain ⟨rfl, hfront⟩ := ih hsplit
        have hc : sep ≠ c := by simpa using hstarts
        simp [hc, hfront]

theorem splitFirst?_eq_none_iff : splitFirst? [sep] cs = none ↔ sep ∉ cs := by
  constructor
  · intro hnone hmem
    obtain ⟨before, after, rfl, hbefore⟩ := List.eq_append_cons_of_mem hmem
    have hsome : splitFirst? [sep] (before ++ sep :: after) = some (before, after) :=
      splitFirst?_append hbefore
    rw [hsome] at hnone
    cases hnone
  · exact splitFirst?_of_not_mem

variable {mark : Char} {front back : List Char}

theorem splitFirst?_append_left (h : sep ∉ front) :
    splitFirst? (sep :: more) (front ++ cs) =
      (splitFirst? (sep :: more) cs).map fun parts => (front ++ parts.1, parts.2) := by
  induction front with
  | nil => simp
  | cons c front ih =>
      have hc : sep ≠ c := fun heq => h (heq ▸ List.mem_cons_self)
      have hfront : sep ∉ front := fun hmem => h (List.mem_cons_of_mem _ hmem)
      simp [splitFirst?, hc, ih hfront, Function.comp_def]

theorem prefix_append_cons_iff {word : List Char} (h : mark ∉ word) :
    word <+: cs ++ mark :: back ↔ word <+: cs := by
  induction word generalizing cs with
  | nil => simp
  | cons w word ih =>
      obtain ⟨hmark, hword⟩ : mark ≠ w ∧ mark ∉ word := by simpa using h
      cases cs with
      | nil => simp [hmark.symm]
      | cons c cs => simp [List.cons_prefix_cons, ih hword]

/-- A mark that is no part of the separator keeps what follows it away from the first occurrence. -/
theorem splitFirst?_append_mark (hmark : mark ∉ sep :: more)
    (hback : splitFirst? (sep :: more) back = none) :
    splitFirst? (sep :: more) (cs ++ mark :: back) =
      (splitFirst? (sep :: more) cs).map fun parts => (parts.1, parts.2 ++ mark :: back) := by
  induction cs with
  | nil =>
      have hne : sep ≠ mark := fun heq => hmark (heq ▸ List.mem_cons_self)
      simp [splitFirst?, hne, hback]
  | cons c cs ih =>
      have hprefix : (sep :: more).isPrefixOf (c :: cs ++ mark :: back) =
          (sep :: more).isPrefixOf (c :: cs) := by
        rw [Bool.eq_iff_iff, List.isPrefixOf_iff_prefix, List.isPrefixOf_iff_prefix,
          prefix_append_cons_iff hmark]
      rw [List.cons_append] at hprefix ⊢
      rw [splitFirst?, splitFirst?, hprefix, ih]
      split
      · rename_i hstarts
        have hlength := (List.isPrefixOf_iff_prefix.1 hstarts).length_le
        rw [Option.map_some, ← List.cons_append, List.drop_append_of_le_length hlength]
      · simp [Function.comp_def]

theorem splitLastAt?_append (h : mark ∉ back) :
    splitLastAt? mark (front ++ mark :: back) = some (front, back) := by
  have hsplit : splitFirst? [mark] (back.reverse ++ mark :: front.reverse) =
      some (back.reverse, front.reverse) :=
    splitFirst?_append (by simpa using h)
  simp [splitLastAt?, hsplit]

theorem splitOn_of_not_mem (h : sep ∉ cs) : splitOn (sep :: more) cs = [cs] := by
  rw [splitOn, dif_neg (List.cons_ne_nil sep more)]
  split
  · rfl
  · rename_i hsplit
    rw [splitFirst?_of_not_mem h] at hsplit
    cases hsplit

theorem splitOn_append (h : sep ∉ before) :
    splitOn (sep :: more) (before ++ sep :: (more ++ after)) =
      before :: splitOn (sep :: more) after := by
  rw [splitOn, dif_neg (List.cons_ne_nil sep more)]
  split
  · rename_i hsplit
    rw [splitFirst?_append h] at hsplit
    cases hsplit
  · rename_i hsplit
    rw [splitFirst?_append h] at hsplit
    cases hsplit
    rfl

theorem splitOn_intercalate {pieces : List (List Char)} (hne : pieces ≠ [])
    (h : ∀ piece ∈ pieces, sep ∉ piece) :
    splitOn (sep :: more) ((sep :: more).intercalate pieces) = pieces := by
  induction pieces with
  | nil => exact absurd rfl hne
  | cons piece pieces ih =>
      obtain ⟨hpiece, hpieces⟩ := List.forall_mem_cons.mp h
      cases pieces with
      | nil =>
          rw [List.intercalate_singleton]
          exact splitOn_of_not_mem hpiece
      | cons next pieces =>
          rw [List.intercalate_cons_cons, List.append_assoc, List.cons_append,
            splitOn_append hpiece, ih (List.cons_ne_nil _ _) hpieces]

theorem intercalate_concat {pieces : List (List Char)} (hne : pieces ≠ []) (piece : List Char) :
    [sep].intercalate (pieces ++ [piece]) = [sep].intercalate pieces ++ sep :: piece := by
  induction pieces with
  | nil => exact absurd rfl hne
  | cons first pieces ih =>
      cases pieces with
      | nil => simp
      | cons next pieces =>
          rw [List.cons_append, List.cons_append, List.intercalate_cons_cons, ← List.cons_append,
            ih (List.cons_ne_nil _ _), List.intercalate_cons_cons, ← List.append_assoc]

theorem count_intercalate {pieces : List (List Char)} (h : ∀ piece ∈ pieces, sep ∉ piece) :
    ([sep].intercalate pieces).count sep = pieces.length - 1 := by
  induction pieces with
  | nil => rfl
  | cons piece pieces ih =>
      obtain ⟨hpiece, hpieces⟩ := List.forall_mem_cons.mp h
      have hcount : piece.count sep = 0 := List.count_eq_zero.mpr hpiece
      cases pieces with
      | nil => simpa using hcount
      | cons next pieces =>
          rw [List.intercalate_cons_cons, List.count_append, List.count_append, hcount, ih hpieces,
            List.count_singleton_self]
          simp only [List.length_cons]
          omega

theorem mem_intercalate {sep : List Char} {pieces : List (List Char)} {c : Char}
    (h : c ∈ sep.intercalate pieces) : c ∈ sep ∨ ∃ piece ∈ pieces, c ∈ piece := by
  induction pieces with
  | nil => cases h
  | cons piece pieces ih =>
      cases pieces with
      | nil =>
          rw [List.intercalate_singleton] at h
          exact .inr ⟨piece, List.mem_cons_self, h⟩
      | cons next pieces =>
          rw [List.intercalate_cons_cons, List.mem_append, List.mem_append] at h
          rcases h with (h | h) | h
          · exact .inr ⟨piece, List.mem_cons_self, h⟩
          · exact .inl h
          · rcases ih h with h | ⟨other, hother, h⟩
            · exact .inl h
            · exact .inr ⟨other, List.mem_cons_of_mem _ hother, h⟩

variable {line rest : List Char}

theorem strip_strip (p : Char → Bool) (cs : List Char) : strip p (strip p cs) = strip p cs := by
  have hfront : strip p cs <+: cs.dropWhile p := List.rdropWhile_prefix p _
  have hdrop : (strip p cs).dropWhile p = strip p cs := by
    rw [List.dropWhile_eq_self_iff]
    intro hpos
    have hpos' : 0 < (cs.dropWhile p).length := hpos.trans_le hfront.length_le
    rw [hfront.getElem hpos]
    exact List.dropWhile_get_zero_not p cs hpos'
  rw [strip, hdrop]
  exact List.rdropWhile_idempotent p _

theorem trim_trim (s : String) : trim (trim s) = trim s := by
  rw [trim, trim, String.toList_ofList, strip_strip]

theorem strip_eq_self {p : Char → Bool} {cs : List Char} (h : ∀ c ∈ cs, p c = false) :
    strip p cs = cs := by
  have hdrop : ∀ l : List Char, (∀ c ∈ l, p c = false) → l.dropWhile p = l := by
    intro l hl
    cases l with
    | nil => rfl
    | cons c l => rw [List.dropWhile_cons_of_neg (by simp [hl c List.mem_cons_self])]
  rw [strip, dropEndWhile, hdrop cs h,
    hdrop cs.reverse fun c hc => h c (List.mem_reverse.mp hc), List.reverse_reverse]

/-- Nothing is stripped exactly if there is nothing to strip at either end. -/
theorem strip_eq_self_iff {p : Char → Bool} {cs : List Char} :
    strip p cs = cs ↔ (∀ c ∈ cs.head?, p c = false) ∧ ∀ c ∈ cs.getLast?, p c = false := by
  have hhead : cs.dropWhile p = cs ↔ ∀ c ∈ cs.head?, p c = false := by
    cases cs <;> simp [List.dropWhile_eq_self_iff]
  have hlast : cs.rdropWhile p = cs ↔ ∀ c ∈ cs.getLast?, p c = false := by
    rw [List.rdropWhile_eq_self_iff]
    constructor
    · intro h c hc
      obtain ⟨hne, rfl⟩ := List.mem_getLast?_eq_getLast hc
      exact Bool.eq_false_iff.mpr (h hne)
    · exact fun h hne => Bool.eq_false_iff.mp (h _ (List.getLast_mem_getLast? hne))
  rw [← hhead, ← hlast]
  constructor
  · intro h
    have hlength := congrArg List.length h
    have hfront : (strip p cs).length ≤ (cs.dropWhile p).length :=
      (List.rdropWhile_prefix p _).length_le
    have hdrop : cs.dropWhile p = cs :=
      (List.dropWhile_suffix p).eq_of_length_le (by omega)
    refine ⟨hdrop, ?_⟩
    rw [strip, hdrop] at h
    exact h
  · rintro ⟨hdrop, hrdrop⟩
    rw [strip, hdrop]
    exact hrdrop

theorem strip_append {p : Char → Bool} {front back : List Char} (sep : List Char)
    (hfront : front ≠ [] ∧ strip p front = front) (hback : back ≠ [] ∧ strip p back = back) :
    strip p (front ++ sep ++ back) = front ++ sep ++ back := by
  have hhead : (front ++ sep ++ back).head? = front.head? := by
    rw [List.append_assoc, List.head?_append_of_ne_nil _ hfront.1]
  have hlast : (front ++ sep ++ back).getLast? = back.getLast? :=
    List.getLast?_append_of_ne_nil _ hback.1
  rw [strip_eq_self_iff, hhead, hlast]
  exact ⟨(strip_eq_self_iff.mp hfront.2).1, (strip_eq_self_iff.mp hback.2).2⟩

theorem strip_intercalate {p : Char → Bool} (sep : List Char) {pieces : List (List Char)}
    (h : ∀ piece ∈ pieces, piece ≠ [] ∧ strip p piece = piece) :
    strip p (sep.intercalate pieces) = sep.intercalate pieces := by
  have hpieces : ∀ pieces : List (List Char), pieces ≠ [] →
      (∀ piece ∈ pieces, piece ≠ [] ∧ strip p piece = piece) →
        sep.intercalate pieces ≠ [] ∧ strip p (sep.intercalate pieces) = sep.intercalate pieces := by
    intro pieces hne h
    induction pieces with
    | nil => exact absurd rfl hne
    | cons piece pieces ih =>
        obtain ⟨hpiece, hmore⟩ := List.forall_mem_cons.mp h
        cases pieces with
        | nil => rwa [List.intercalate_singleton]
        | cons next pieces =>
            rw [List.intercalate_cons_cons]
            exact ⟨by simp [hpiece.1],
              strip_append sep hpiece (ih (List.cons_ne_nil _ _) hmore)⟩
  cases pieces with
  | nil => rfl
  | cons piece pieces => exact (hpieces _ (List.cons_ne_nil _ _) h).2

theorem trim_eq_self_iff {s : String} : trim s = s ↔ strip isBlank s.toList = s.toList := by
  rw [trim, String.ext_iff, String.toList_ofList]

theorem trim_intercalate (sep : String) {pieces : List String}
    (h : ∀ piece ∈ pieces, piece ≠ "" ∧ trim piece = piece) :
    trim (sep.intercalate pieces) = sep.intercalate pieces := by
  rw [trim_eq_self_iff, String.toList_intercalate]
  refine strip_intercalate _ fun piece hpiece => ?_
  obtain ⟨s, hs, rfl⟩ := List.mem_map.mp hpiece
  obtain ⟨hne, htrim⟩ := h s hs
  exact ⟨fun hnil => hne (String.toList_eq_nil_iff.mp hnil), trim_eq_self_iff.mp htrim⟩

theorem intercalate_ne_empty {sep : String} {pieces : List String} (hne : pieces ≠ [])
    (h : ∀ s ∈ pieces, s ≠ "") : sep.intercalate pieces ≠ "" := by
  cases pieces with
  | nil => exact absurd rfl hne
  | cons first more =>
      have hfirst := h first List.mem_cons_self
      cases more with
      | nil => simpa using hfirst
      | cons next more => simp [hfirst]

theorem mem_dropWhile {p : Char → Bool} {cs : List Char} {c : Char} (hp : p c = false)
    (h : c ∈ cs) : c ∈ cs.dropWhile p := by
  rw [← List.takeWhile_append_dropWhile (p := p) (l := cs)] at h
  rcases List.mem_append.mp h with h | h
  · rw [List.mem_takeWhile_imp h] at hp
    cases hp
  · exact h

theorem mem_trim {s : String} {c : Char} (hc : isBlank c = false) (h : c ∈ s.toList) :
    c ∈ (trim s).toList := by
  rw [trim, String.toList_ofList, strip, dropEndWhile, List.mem_reverse]
  exact mem_dropWhile hc (List.mem_reverse.mpr (mem_dropWhile hc h))

theorem trim_eq_empty_iff {s : String} : trim s = "" ↔ isBlankText s = true := by
  constructor
  · intro h
    refine List.all_eq_true.mpr fun c hc => ?_
    cases hblank : isBlank c with
    | true => rfl
    | false =>
        have hmem := mem_trim hblank hc
        rw [h] at hmem
        cases hmem
  · intro h
    have hdrop : s.toList.dropWhile isBlank = [] :=
      List.dropWhile_eq_nil_iff.mpr (List.all_eq_true.mp h)
    rw [trim, strip, hdrop]
    rfl

theorem trim_eq_self {s : String} (h : ∀ c ∈ s.toList, isBlank c = false) : trim s = s := by
  rw [trim, strip_eq_self h, String.ofList_toList]

end IpRegistry.Text
