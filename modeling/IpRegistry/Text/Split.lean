namespace IpRegistry.Text

/-- The parts before and after the first occurrence of `sep`. -/
def splitFirst? (sep : List Char) : List Char → Option (List Char × List Char)
  | [] => if sep = [] then some ([], []) else none
  | c :: cs =>
    if sep.isPrefixOf (c :: cs) then some ([], (c :: cs).drop sep.length)
    else (splitFirst? sep cs).map fun parts => (c :: parts.1, parts.2)

theorem length_of_splitFirst? {sep cs before after : List Char}
    (h : splitFirst? sep cs = some (before, after)) :
    after.length + sep.length + before.length = cs.length := by
  induction cs generalizing before with
  | nil =>
    unfold splitFirst? at h
    split at h <;> simp_all
  | cons c cs ih =>
    unfold splitFirst? at h
    split at h
    · rename_i hp
      have hle := (List.isPrefixOf_iff_prefix.mp hp).length_le
      simp only [Option.some.injEq, Prod.mk.injEq] at h
      obtain ⟨rfl, rfl⟩ := h
      simp only [List.length_drop, List.length_nil]
      omega
    · obtain ⟨⟨p, q⟩, hsplit, heq⟩ := Option.map_eq_some_iff.mp h
      simp only [Prod.mk.injEq] at heq
      obtain ⟨rfl, rfl⟩ := heq
      have := ih hsplit
      simp only [List.length_cons]
      omega

/-- The parts before and after the last occurrence of the character `sep`. -/
def splitLastAt? (sep : Char) (cs : List Char) : Option (List Char × List Char) :=
  (splitFirst? [sep] cs.reverse).map fun parts => (parts.2.reverse, parts.1.reverse)

/-- The pieces of a text between the occurrences of a non-empty separator, found from left to right
without overlap; a text without the separator is one piece. -/
def splitOn (sep : List Char) (cs : List Char) : List (List Char) :=
  if hne : sep = [] then [cs]
  else
    match h : splitFirst? sep cs with
    | none => [cs]
    | some (before, after) =>
      have : after.length < cs.length := by
        have := length_of_splitFirst? h
        have : 0 < sep.length := List.length_pos_iff.mpr hne
        omega
      before :: splitOn sep after
termination_by cs.length

def occursIn (needle text : String) : Bool :=
  (splitFirst? needle.toList text.toList).isSome

theorem isSome_splitFirst?_iff {sep cs : List Char} :
    (splitFirst? sep cs).isSome = true ↔ sep <:+: cs := by
  induction cs with
  | nil =>
    rw [splitFirst?, List.infix_nil]
    split <;> simp_all
  | cons c cs ih =>
    rw [splitFirst?, List.infix_cons_iff, ← List.isPrefixOf_iff_prefix]
    split
    · rename_i hp
      simp [hp]
    · rename_i hp
      simp [hp, ih]

theorem occursIn_iff {needle text : String} :
    occursIn needle text = true ↔ needle.toList <:+: text.toList :=
  isSome_splitFirst?_iff

/-- What follows `start` at the beginning of a text. -/
def dropStart? : (start cs : List Char) → Option (List Char)
  | [], cs => some cs
  | _ :: _, [] => none
  | s :: start, c :: cs => if s = c then dropStart? start cs else none

/-- The lines of a text: the pieces between line feeds, each without one carriage return before its
line feed, and without an empty last piece. -/
def lines (cs : List Char) : List (List Char) :=
  let pieces := cs.splitOn '\n'
  let finished := pieces.dropLast.map fun line =>
    if line.getLast? = some '\r' then line.dropLast else line
  match pieces.getLast? with
  | none | some [] => finished
  | some last => finished ++ [last]

end IpRegistry.Text
