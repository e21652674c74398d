import IpRegistry.Proofs.Field
import IpRegistry.Proofs.Field.Window
import IpRegistry.Proofs.Pattern.Leftmost
import IpRegistry.Proofs.Pattern.Reads
import IpRegistry.Proofs.Text.Split

namespace IpRegistry.Field

open Pattern (Match Thread)
open Text (byteLength)

def isUnindented (cs : List Char) : Bool :=
  cs.head?.any Pattern.notBlank

/-- How a field is written on a line: one of some keys, a colon and a value, perhaps with blanks that
have to stand in between. A value stops before a line feed that an unindented character follows, or
else right before the first line feed, which is then a part of the match. -/
structure LineShape where
  keys : List String
  spaced : Bool
  stops : Bool
  unindented : ∀ key ∈ keys, isUnindented key.toList = true
  apart : ∀ key ∈ keys, ∀ other ∈ keys,
    key.toList ++ [':'] <+: other.toList ++ [':'] → key = other

namespace LineShape

variable (s : LineShape)

def ending : Pattern :=
  if s.stops then Field.unindented else newline

def pattern : Pattern :=
  Pattern.concat ([Pattern.oneOf (s.keys.map Pattern.ofText), Pattern.ofText ":"] ++
    (if s.spaced then [blanks] else []) ++ [shortValue, s.ending])

def Opens (cs : List Char) : Prop :=
  ∃ key ∈ s.keys, key.toList ++ [':'] <+: cs

instance (cs : List Char) : Decidable (s.Opens cs) :=
  inferInstanceAs (Decidable (∃ key ∈ s.keys, _))

/-- A line of a shape, without the line feed: its value has no white space at its ends. -/
structure Line where
  key : String
  gap : List Char
  value : String
  key_mem : key ∈ s.keys
  gap_blank : ∀ c ∈ gap, Pattern.inlineBlank c = true
  gap_ne : s.spaced = true → gap ≠ []
  value_ne : value ≠ ""
  value_trimmed : Text.trim value = value
  value_line : '\n' ∉ value.toList

namespace Line

variable {s} (l : s.Line)

def text : List Char :=
  l.key.toList ++ ':' :: (l.gap ++ l.value.toList)

/-- What stands before the part that is captured: the blanks belong to it only if they have to be
there. -/
def lead : List Char :=
  l.key.toList ++ ':' :: if s.spaced then l.gap else []

def body : List Char :=
  (if s.spaced then [] else l.gap) ++ l.value.toList

theorem text_eq : l.text = l.lead ++ l.body := by
  rw [text, lead, body]
  cases s.spaced <;> simp

theorem strip_value : Text.strip Text.isBlank l.value.toList = l.value.toList := by
  have h := congrArg String.toList l.value_trimmed
  rwa [Text.trim, String.toList_ofList] at h

theorem exists_value : ∃ c cs, l.value.toList = c :: cs ∧ Text.isBlank c = false := by
  have hhead := (Text.strip_eq_self_iff.1 l.strip_value).1
  cases hvalue : l.value.toList with
  | nil => exact absurd (String.toList_eq_nil_iff.1 hvalue) l.value_ne
  | cons c cs =>
      rw [hvalue] at hhead
      exact ⟨c, cs, rfl, hhead c rfl⟩

theorem isBlank_of_mem_gap : ∀ c ∈ l.gap, Text.isBlank c = true := fun c hc =>
  (Bool.and_eq_true_iff.1 (l.gap_blank c hc)).1

theorem strip_body : Text.strip Text.isBlank l.body = l.value.toList := by
  obtain ⟨c, cs, hvalue, hc⟩ := l.exists_value
  have hdrop : l.body.dropWhile Text.isBlank = l.value.toList.dropWhile Text.isBlank := by
    rw [body]
    split
    · rfl
    · exact List.dropWhile_append_of_pos l.isBlank_of_mem_gap
  rw [Text.strip, hdrop]
  exact l.strip_value

theorem newline_not_mem_body : '\n' ∉ l.body := by
  rw [body, List.mem_append, not_or]
  refine ⟨?_, l.value_line⟩
  split
  · exact List.not_mem_nil
  · intro hgap
    cases l.gap_blank '\n' hgap

theorem body_ne : l.body ≠ [] := by
  obtain ⟨c, cs, hvalue, -⟩ := l.exists_value
  rw [body, hvalue]
  exact List.append_ne_nil_of_right_ne_nil _ (List.cons_ne_nil c cs)

end Line

theorem looksBehind_pattern : s.pattern.looksBehind = false := by
  have hkeys : (Pattern.oneOf (s.keys.map Pattern.ofText)).looksBehind = false := by
    rw [Pattern.looksBehind_oneOf, List.any_map]
    exact List.any_eq_false.2 fun _ _ => Bool.false_ne_true
  rw [pattern, Pattern.looksBehind_concat, ending]
  cases s.spaced <;> cases s.stops <;> simp [hkeys] <;> decide

variable {s} {t u : Thread} {tail : List Char}

theorem outcomes_ending_eq_nil (h : t.cursor.rest.head? ≠ some '\n') :
    s.ending.outcomes t = [] := by
  have hnewline : ∀ t : Thread, t.cursor.rest.head? ≠ some '\n' → newline.outcomes t = [] := by
    intro t h
    refine Pattern.outcomes_literal_eq_nil fun hstarts => h ?_
    obtain ⟨rest, hrest⟩ := hstarts
    rw [← hrest]
    rfl
  rw [ending]
  split
  · show ((newline.outcomes t.openGroup).flatMap _).map _ = []
    rw [hnewline t.openGroup h]
    rfl
  · exact hnewline t h

/-- The value is what stands before the first line feed. -/
theorem first?_value {body : List Char} (hne : body ≠ []) (hline : '\n' ∉ body)
    (h : t.cursor.rest = body ++ '\n' :: tail)
    (hu : s.ending.first? (t.capture "val" body ('\n' :: tail)) = some u) :
    (Pattern.seq shortValue s.ending).first? t = some u := by
  obtain ⟨c, more, rfl⟩ := List.exists_cons_of_ne_nil hne
  let first := t.openGroup.skip [c] (more ++ '\n' :: tail)
  have hone : (Pattern.one Pattern.anyChar).outcomes t.openGroup = [first] := by
    have hrest : t.openGroup.cursor.rest = c :: (more ++ '\n' :: tail) := h
    rw [Pattern.outcomes, Thread.one, hrest]
    rfl
  have hvalue : shortValue.outcomes t =
      (Thread.climb Pattern.anyChar (more ++ '\n' :: tail) first).map (Thread.closeGroup "val") := by
    show (((Pattern.one Pattern.anyChar).outcomes t.openGroup).flatMap _).map _ = _
    rw [hone, List.flatMap_singleton]
    rfl
  have hend : first.skip more ('\n' :: tail) = t.openGroup.skip (c :: more) ('\n' :: tail) :=
    Thread.skip_skip _ _ _ _ _
  show ((shortValue.outcomes t).flatMap s.ending.outcomes).head? = some u
  rw [hvalue, List.flatMap_map]
  refine Pattern.head?_flatMap_climb (fun _ _ => rfl) ?_ ?_ rfl
  · rintro front d back rfl
    refine outcomes_ending_eq_nil ?_
    rw [Pattern.closeGroup_cursor]
    rintro hd
    refine hline ?_
    have : d = '\n' := Option.some.inj hd
    simp [this]
  · rw [hend, Thread.closeGroup_skip]
    exact hu

def rest (s : LineShape) : Pattern :=
  if s.spaced then Pattern.seq blanks (Pattern.seq shortValue s.ending)
  else Pattern.seq shortValue s.ending

theorem pattern_eq (s : LineShape) : s.pattern = Pattern.behindKey s.keys s.rest := by
  rw [pattern, rest]
  cases s.spaced <;> rfl

theorem first?_eq_none (h : ¬s.Opens t.cursor.rest) : s.pattern.first? t = none := by
  rw [← Pattern.outcomes_eq_nil_iff, pattern_eq, Pattern.outcomes_behindKey]
  refine List.flatMap_eq_nil_iff.2 fun key hkey => Pattern.outcomes_key_eq_nil _ fun hstarts => h ?_
  exact ⟨key, hkey, hstarts⟩

theorem first?_key {key : String} (hkey : key ∈ s.keys) (h : t.cursor.rest = key.toList ++ ':' :: tail)
    (hu : s.rest.first? (t.skip (key.toList ++ [':']) tail) = some u) :
    s.pattern.first? t = some u := by
  rw [pattern_eq]
  exact Pattern.first?_behindKey s.apart hkey h hu

/-- The part of the line feed that belongs to the match as far as the field goes. -/
def taken (s : LineShape) : List Char :=
  if s.stops then [] else ['\n']

/-- What remains of a text behind the value of a line when its match is over. -/
def left (s : LineShape) (tail : List Char) : List Char :=
  if s.stops then '\n' :: tail else tail

theorem taken_append_left (s : LineShape) (tail : List Char) :
    s.taken ++ s.left tail = '\n' :: tail := by
  rw [taken, left]
  cases s.stops <;> rfl

theorem exists_first?_ending {span : Pattern.Span} (hstops : s.stops = true → isUnindented tail = true)
    (hrest : t.cursor.rest = '\n' :: tail) (hgroups : t.groups = [("val", span)]) :
    ∃ u, s.ending.first? t = some u ∧ u.origin = t.origin ∧
      logicalEnd u.toMatch = t.cursor.pos + byteLength s.taken ∧
      u.toMatch.group? "val" = some span := by
  rw [ending, taken]
  cases hs : s.stops with
  | false =>
      refine ⟨t.skip ['\n'] tail, Pattern.first?_literal hrest, rfl, ?_, ?_⟩
      · show (((t.groups.lookup "stop").map _).getD _) = _
        rw [hgroups]
        rfl
      · show t.groups.lookup "val" = _
        rw [hgroups]
        rfl
  | true =>
      obtain ⟨c, hc, hblank⟩ := (Option.any_eq_true _ _).1 (hstops hs)
      obtain ⟨more, rfl⟩ := List.head?_eq_some_iff.1 hc
      have hstop : (Pattern.seq newline (Pattern.one Pattern.notBlank)).first? t.openGroup =
          some (t.openGroup.skip ['\n', c] more) := by
        refine (Pattern.first?_seq (Pattern.first?_literal hrest)
          (Pattern.first?_one hblank rfl)).trans ?_
        rw [Thread.skip_skip]
        rfl
      refine ⟨t.capture "stop" ['\n', c] more, Pattern.first?_group "stop" hstop, rfl, rfl, ?_⟩
      show (("stop", _) :: t.groups).lookup "val" = _
      rw [hgroups]
      rfl

/-- The span of the part of a line that is captured, in a text that begins with the line. -/
def Line.span (l : s.Line) : Pattern.Span :=
  ⟨byteLength l.lead, byteLength l.lead + byteLength l.body⟩

theorem Line.strip_slice (l : s.Line) (tail : List Char) :
    Text.strip Text.isBlank (Text.slice (l.text ++ '\n' :: tail) l.span.start l.span.stop) =
      l.value.toList := by
  have hslice := Text.slice_append l.lead (l.body ++ '\n' :: tail) 0 (byteLength l.body)
  rw [Nat.add_zero] at hslice
  rw [Line.span, l.text_eq, List.append_assoc, hslice, Text.slice, Text.dropBytes_zero,
    Nat.sub_zero, Text.takeBytes_byteLength, l.strip_body]

/-- What follows the colon of a line is read like its value alone: blanks that have to be there are
passed over first. -/
theorem first?_rest (l : s.Line) (hu : (Pattern.seq shortValue s.ending).first?
      (t.skip l.lead (l.body ++ '\n' :: tail)) = some u) :
    s.rest.first? (t.skip (l.key.toList ++ [':']) (l.gap ++ l.value.toList ++ '\n' :: tail)) =
      some u := by
  rw [rest]
  cases hs : s.spaced with
  | false =>
      have hbefore : t.skip l.lead (l.body ++ '\n' :: tail) =
          t.skip (l.key.toList ++ [':']) (l.gap ++ l.value.toList ++ '\n' :: tail) := by
        simp only [Line.lead, Line.body, hs]
        rfl
      rwa [← hbefore]
  | true =>
      have hbefore : t.skip l.lead (l.body ++ '\n' :: tail) =
          (t.skip (l.key.toList ++ [':']) (l.gap ++ l.value.toList ++ '\n' :: tail)).skip l.gap
            (l.value.toList ++ '\n' :: tail) := by
        rw [Thread.skip_skip]
        simp only [Line.lead, Line.body, hs]
        simp
      rw [hbefore] at hu
      refine Pattern.first?_seq (Pattern.first?_greedy l.gap_blank (l.gap_ne hs) ?_ ?_) hu
      · obtain ⟨c, cs, hvalue, hc⟩ := l.exists_value
        intro d hd
        rw [hvalue] at hd
        obtain rfl : c = d := Option.some.inj hd
        rw [Pattern.inlineBlank, hc]
        rfl
      · exact List.append_assoc _ _ _

/-- The first match in a text that begins with a line. -/
theorem exists_find_line (l : s.Line) (hstops : s.stops = true → isUnindented tail = true) :
    ∃ m, s.pattern.find (l.text ++ '\n' :: tail) 0 = some m ∧ m.whole.start = 0 ∧
      logicalEnd m = byteLength (l.text ++ s.taken) ∧
      capture (l.text ++ '\n' :: tail) m = some l.value := by
  let t := Thread.begin ⟨none, 0, l.text ++ '\n' :: tail⟩
  let before := t.skip l.lead (l.body ++ '\n' :: tail)
  obtain ⟨u, hu, horigin, hend, hval⟩ := exists_first?_ending (s := s)
    (t := before.capture "val" l.body ('\n' :: tail)) hstops rfl rfl
  have hvalue : (Pattern.seq shortValue s.ending).first? before = some u :=
    first?_value l.body_ne l.newline_not_mem_body rfl hu
  have hfirst : s.pattern.first? t = some u := by
    refine first?_key l.key_mem ?_ (first?_rest l hvalue)
    show l.text ++ '\n' :: tail = _
    rw [Line.text, List.append_assoc]
    rfl
  have hpos : before.cursor.pos = byteLength l.lead := Nat.zero_add _
  refine ⟨u.toMatch, Pattern.find_of_first? hfirst, horigin, ?_, ?_⟩
  · rw [hend, l.text_eq, Text.byteLength_append, Text.byteLength_append, ← hpos]
    rfl
  · rw [hpos] at hval
    have hslice := l.strip_slice tail
    rw [capture, Match.text?, hval, Option.map_some, Option.map_some]
    exact congrArg some ((congrArg String.ofList hslice).trans String.ofList_toList)

end LineShape

end IpRegistry.Field
