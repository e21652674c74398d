import IpRegistry.Proofs.Address.RoundTrip
import IpRegistry.Proofs.Traverse

namespace IpRegistry.Address

open List (Forall₂)

/-- The text does not begin with a zero, or is a single zero. -/
def NoLeadingZero (piece : List Char) : Prop :=
  piece = ['0'] ∨ ∃ c rest, piece = c :: rest ∧ c ≠ '0'

theorem noLeadingZero_toDigits (n : Nat) : NoLeadingZero (Nat.toDigits 10 n) := by
  obtain ⟨digits, hnumeral, htext⟩ := exists_numeral (by decide : 1 < 10) n
  obtain ⟨d, rest, rfl⟩ := List.exists_cons_of_ne_nil hnumeral.ne_nil
  rw [htext, List.map_cons]
  rcases Nat.eq_zero_or_pos d with rfl | hd
  · have hrest : 0 :: rest = [0] := hnumeral.no_leading_zero rfl
    cases hrest
    exact .inl rfl
  · exact .inr ⟨d.digitChar, rest.map Nat.digitChar, rfl, by simpa using hd.ne'⟩

theorem dot_not_mem_toDigits (n : Nat) : '.' ∉ Nat.toDigits 10 n := by
  intro h
  exact absurd (mem_of_mem_toDigits (by decide) (by decide) h) (by decide)

/-- Only the dotted form has dots. -/
theorem exists_dotted {a : Address} (h : '.' ∈ a.text.toList) :
    ∃ front octets, a.text.toList = front ++ (dotted octets).toList ∧ octets.length = 4 ∧
      (front = [] ∨ front = "::ffff:".toList) := by
  unfold text at h ⊢
  split at h
  · exact ⟨[], a.octets, (List.nil_append _).symm, length_digitsOf .., .inl rfl⟩
  · split at h
    · rename_i hmapped
      rw [if_pos hmapped, String.toList_append]
      exact ⟨_, _, rfl, length_digitsOf .., .inr rfl⟩
    · exact absurd (mem_of_mem_compressed h) (by decide)

theorem exists_of_takeDigits (digit? : Char → Option Nat) (cs : List Char) :
    ∃ front, cs = front ++ (takeDigits digit? cs).2 ∧
      Forall₂ (fun c d => digit? c = some d) front (takeDigits digit? cs).1 := by
  induction cs with
  | nil => exact ⟨[], rfl, .nil⟩
  | cons c cs ih =>
      rw [takeDigits]
      cases hc : digit? c with
      | none => exact ⟨[], rfl, .nil⟩
      | some d =>
          obtain ⟨front, hcs, hdigits⟩ := ih
          exact ⟨c :: front, congrArg (c :: ·) hcs, .cons hc hdigits⟩

/-- What is read as a byte. -/
structure IsByte (piece : List Char) : Prop where
  noLeadingZero : NoLeadingZero piece
  digits : ∀ c ∈ piece, c.isDigit = true

theorem IsByte.not_mem {piece : List Char} (h : IsByte piece) {c : Char} (hc : c.isDigit = false) :
    c ∉ piece := by
  intro hmem
  rw [h.digits c hmem] at hc
  cases hc

theorem eq_zero_of_digit? {c : Char} (h : Text.digit? c = some 0) : c = '0' := by
  rw [Text.digit?] at h
  split at h
  · rename_i hdigit
    have hzero : c.toNat - 48 = 0 := Option.some.inj h
    simp only [Char.isDigit, Bool.and_eq_true, decide_eq_true_eq] at hdigit
    have hle : 48 ≤ c.toNat := UInt32.le_iff_toNat_le.1 hdigit.1
    exact Char.toNat_inj.1 (show c.toNat = 48 by omega)
  · cases h

theorem isDigit_of_digit? {c : Char} {d : Nat} (h : Text.digit? c = some d) : c.isDigit = true := by
  by_contra hno
  rw [Text.digit?, if_neg hno] at h
  cases h

theorem noLeadingZero_of_digits {piece : List Char} {digits : List Nat}
    (hdigits : Forall₂ (fun c d => Text.digit? c = some d) piece digits) (hne : digits ≠ [])
    (hzero : ¬(digits.head? = some 0 ∧ 1 < digits.length)) : NoLeadingZero piece := by
  cases hdigits with
  | nil => exact absurd rfl hne
  | @cons c d piece digits hc hdigits =>
      by_cases hd : d = 0
      · subst hd
        have hnil : digits = [] := by
          by_contra hmore
          exact hzero ⟨rfl, Nat.succ_lt_succ (List.length_pos_iff.2 hmore)⟩
        subst hnil
        cases hdigits
        exact .inl (congrArg (· :: []) (eq_zero_of_digit? hc))
      · refine .inr ⟨c, piece, rfl, ?_⟩
        rintro rfl
        exact hd (Option.some.inj hc).symm

variable {cs rest : List Char}

theorem exists_of_readOctet {n : Nat} (h : readOctet cs = some (n, rest)) :
    ∃ piece, cs = piece ++ rest ∧ IsByte piece := by
  obtain ⟨piece, hcs, hdigits⟩ := exists_of_takeDigits Text.digit? cs
  rw [readOctet_eq] at h
  simp only at h
  split at h
  · cases h
  · rename_i hvalid
    cases h
    simp only [not_or] at hvalid
    refine ⟨piece, hcs, noLeadingZero_of_digits hdigits hvalid.1 hvalid.2.2.1, fun c hc => ?_⟩
    obtain ⟨d, -, hd⟩ := exists_of_forall₂ hdigits c hc
    exact isDigit_of_digit? hd

theorem eq_of_readChar {expected : Char} (h : readChar expected cs = some rest) :
    cs = expected :: rest := by
  cases cs with
  | nil => cases h
  | cons c cs =>
      rw [readChar] at h
      split at h
      · rename_i hc
        cases h
        rw [hc]
      · cases h

theorem exists_of_readDotOctet {n : Nat} (h : readDotOctet cs = some (n, rest)) :
    ∃ piece, cs = '.' :: (piece ++ rest) ∧ IsByte piece := by
  obtain ⟨middle, hdot, hoctet⟩ := Option.bind_eq_some_iff.1 h
  obtain ⟨piece, rfl, hpiece⟩ := exists_of_readOctet hoctet
  exact ⟨piece, eq_of_readChar hdot, hpiece⟩

/-- Four bytes with dots between them. -/
def IsDotted (cs : List Char) : Prop :=
  ∃ w x y z, cs = w ++ '.' :: (x ++ '.' :: (y ++ '.' :: z)) ∧
    IsByte w ∧ IsByte x ∧ IsByte y ∧ IsByte z

theorem exists_of_readOctets {octets : List Nat} (h : readOctets cs = some (octets, rest)) :
    ∃ front, cs = front ++ rest ∧ IsDotted front := by
  obtain ⟨⟨a, cs₁⟩, ha, h⟩ := Option.bind_eq_some_iff.1 h
  obtain ⟨⟨b, cs₂⟩, hb, h⟩ := Option.bind_eq_some_iff.1 h
  obtain ⟨⟨c, cs₃⟩, hc, h⟩ := Option.bind_eq_some_iff.1 h
  obtain ⟨⟨d, cs₄⟩, hd, h⟩ := Option.bind_eq_some_iff.1 h
  cases h
  obtain ⟨w, rfl, hw⟩ := exists_of_readOctet ha
  obtain ⟨x, rfl, hx⟩ := exists_of_readDotOctet hb
  obtain ⟨y, rfl, hy⟩ := exists_of_readDotOctet hc
  obtain ⟨z, rfl, hz⟩ := exists_of_readDotOctet hd
  refine ⟨_, ?_, w, x, y, z, rfl, hw, hx, hy, hz⟩
  simp

theorem IsDotted.not_mem (h : IsDotted cs) {c : Char} (hc : c.isDigit = false) (hdot : c ≠ '.') :
    c ∉ cs := by
  obtain ⟨w, x, y, z, rfl, hw, hx, hy, hz⟩ := h
  simp [hw.not_mem hc, hx.not_mem hc, hy.not_mem hc, hz.not_mem hc, hdot]

theorem IsDotted.dot_mem (h : IsDotted cs) : '.' ∈ cs := by
  obtain ⟨w, x, y, z, rfl, -⟩ := h
  simp

theorem exists_of_readGroup {n : Nat} (h : readGroup cs = some (n, rest)) :
    ∃ piece, cs = piece ++ rest ∧ ∀ c ∈ piece, (hexDigit? c).isSome = true := by
  obtain ⟨piece, hcs, hdigits⟩ := exists_of_takeDigits hexDigit? cs
  unfold readGroup at h
  simp only at h
  split at h
  · cases h
  · cases h
    refine ⟨piece, hcs, fun c hc => ?_⟩
    obtain ⟨d, -, hd⟩ := exists_of_forall₂ hdigits c hc
    rw [hd]
    rfl

theorem not_mem_of_isSome_hexDigit? {piece : List Char}
    (h : ∀ c ∈ piece, (hexDigit? c).isSome = true) {c : Char} (hc : hexDigit? c = none) :
    c ∉ piece := by
  intro hmem
  have hsome := h c hmem
  rw [hc] at hsome
  cases hsome

/-- How many colons stand before groups. -/
def separators (first : Bool) : List Char :=
  if first then [] else [':']

theorem eq_of_readSeparator {first : Bool} (h : readSeparator first cs = some rest) :
    cs = separators first ++ rest := by
  cases first with
  | true => exact Option.some.inj h
  | false => exact eq_of_readChar h

/-- What has been read as groups: there is a colon before each of them but the first, and four bytes
between dots at the end count as two groups. -/
structure ReadsGroups (first : Bool) (front : List Char) (run : GroupRun) : Prop where
  length_le : run.groups.length ≤
    front.count ':' + (if first then 1 else 0) + (if run.dotted then 1 else 0)
  dotted : run.dotted = true → ∃ lead bytes, front = lead ++ bytes ∧ '.' ∉ lead ∧ IsDotted bytes
  plain : run.dotted = false → '.' ∉ front

namespace ReadsGroups

variable {first : Bool} {front bytes piece : List Char} {run : GroupRun}

theorem nil (first : Bool) : ReadsGroups first [] ⟨[], false⟩ where
  length_le := Nat.zero_le _
  dotted h := absurd h Bool.false_ne_true
  plain _ := List.not_mem_nil

theorem octets (first : Bool) (hbytes : IsDotted bytes) (high low : Nat) :
    ReadsGroups first (separators first ++ bytes) ⟨[high, low], true⟩ where
  length_le := by cases first <;> simp [separators]
  dotted _ := ⟨separators first, bytes, rfl, by cases first <;> decide, hbytes⟩
  plain h := absurd h.symm Bool.false_ne_true

theorem group (first : Bool) (hpiece : ∀ c ∈ piece, (hexDigit? c).isSome = true)
    (h : ReadsGroups false front run) (n : Nat) :
    ReadsGroups first (separators first ++ piece ++ front) ⟨n :: run.groups, run.dotted⟩ := by
  have hlead : '.' ∉ separators first ++ piece := by
    have hdot := not_mem_of_isSome_hexDigit? hpiece (c := '.') (by decide)
    cases first <;> simp [separators, hdot]
  refine ⟨?length_le, fun hdotted => ?dotted, fun hplain => ?plain⟩
  case length_le =>
    have hcolon := not_mem_of_isSome_hexDigit? hpiece (c := ':') (by decide)
    have hlength := h.length_le
    have hcount : (separators first ++ piece).count ':' = if first then 0 else 1 := by
      rw [List.count_append, List.count_eq_zero.2 hcolon]
      cases first <;> rfl
    rw [List.count_append, hcount]
    simp only [List.length_cons, Bool.false_eq_true, if_false] at hlength ⊢
    cases first <;> simp only [Bool.false_eq_true, if_false, if_true] <;> omega
  case dotted =>
    obtain ⟨lead, bytes, rfl, hno, hbytes⟩ := h.dotted hdotted
    refine ⟨separators first ++ piece ++ lead, bytes, ?_, List.not_mem_append hlead hno, hbytes⟩
    rw [List.append_assoc (separators first ++ piece)]
  case plain => exact List.not_mem_append hlead (h.plain hplain)

/-- If there are dots, they stand between the bytes at the end. -/
theorem ends_dotted (h : ReadsGroups first front run) (hdot : '.' ∈ front) :
    ∃ lead bytes, front = lead ++ bytes ∧ '.' ∉ lead ∧ IsDotted bytes := by
  cases hdotted : run.dotted with
  | true => exact h.dotted hdotted
  | false => exact absurd hdot (h.plain hdotted)

end ReadsGroups

theorem exists_of_readGroups (limit : Nat) (first : Bool) (cs : List Char) :
    ∃ front, cs = front ++ (readGroups limit first cs).2 ∧
      ReadsGroups first front (readGroups limit first cs).1 := by
  induction limit generalizing first cs with
  | zero => exact ⟨[], rfl, .nil first⟩
  | succ limit ih =>
      rw [readGroups]
      split
      · rename_i octets rest h
        split at h
        · cases h
        · obtain ⟨middle, hseparator, hoctets⟩ := Option.bind_eq_some_iff.1 h
          obtain ⟨bytes, rfl, hbytes⟩ := exists_of_readOctets hoctets
          refine ⟨separators first ++ bytes, ?_, .octets first hbytes _ _⟩
          rw [eq_of_readSeparator hseparator, List.append_assoc]
      · split
        · exact ⟨[], rfl, .nil first⟩
        · rename_i group rest h
          obtain ⟨middle, hseparator, hgroup⟩ := Option.bind_eq_some_iff.1 h
          obtain ⟨piece, rfl, hpiece⟩ := exists_of_readGroup hgroup
          obtain ⟨front, hrest, hfront⟩ := ih false rest
          refine ⟨separators first ++ piece ++ front, ?_, .group first hpiece hfront group⟩
          rw [eq_of_readSeparator hseparator, List.append_assoc, List.append_assoc]
          exact congrArg (fun back => separators first ++ (piece ++ back)) hrest

/-- Eight groups are there, or fewer than eight with two colons between some and the others. -/
theorem readSixGroups_cases {groups : List Nat} (h : readSixGroups cs = some (groups, rest)) :
    (∃ dotted, readGroups 8 true cs = (⟨groups, dotted⟩, rest) ∧ groups.length = 8) ∨
      ∃ front back more, readGroups 8 true cs = (⟨front, false⟩, ':' :: ':' :: more) ∧
        front.length ≠ 8 ∧ readGroups (7 - front.length) true more = (back, rest) ∧
        groups = front ++ List.replicate (8 - front.length - back.groups.length) 0 ++
          back.groups := by
  unfold readSixGroups at h
  obtain ⟨⟨front, dotted⟩, others, hfront⟩ : ∃ run others, readGroups 8 true cs = (run, others) :=
    ⟨_, _, rfl⟩
  rw [hfront] at h
  simp only at h
  split at h
  · rename_i height
    cases h
    exact .inl ⟨dotted, hfront, height⟩
  · rename_i height
    split at h
    · cases h
    · rename_i hplain
      obtain rfl : dotted = false := Bool.eq_false_iff.2 hplain
      split at h
      · cases h
      · rename_i more hcolons
        obtain ⟨between, hfirst, hsecond⟩ := Option.bind_eq_some_iff.1 hcolons
        obtain ⟨hgroups, hrest⟩ := Prod.mk.inj (Option.some.inj h)
        rw [eq_of_readChar hfirst, eq_of_readChar hsecond] at hfront
        exact .inr ⟨front, _, more, hfront, height, Prod.ext rfl hrest, hgroups.symm⟩

/-- What has been read as version 6 has two colons, and the dots in it stand between bytes. -/
theorem exists_of_readSixGroups {groups : List Nat} (h : readSixGroups cs = some (groups, [])) :
    2 ≤ cs.count ':' ∧
      ('.' ∈ cs → ∃ lead bytes, cs = lead ++ bytes ∧ '.' ∉ lead ∧ IsDotted bytes) := by
  obtain ⟨front, hcs, hfront⟩ := exists_of_readGroups 8 true cs
  rcases readSixGroups_cases h with ⟨dotted, hgroups, height⟩ | ⟨groups, back, more, hgroups, -, hmore, -⟩
  · rw [hgroups] at hcs hfront
    rw [hcs, List.append_nil]
    refine ⟨?_, hfront.ends_dotted⟩
    have hlength := hfront.length_le
    simp only [height, if_true] at hlength
    split at hlength <;> omega
  · rw [hgroups] at hcs hfront
    have hno : '.' ∉ front := hfront.plain rfl
    obtain ⟨last, hlast, hback⟩ := exists_of_readGroups (7 - groups.length) true more
    rw [hmore, List.append_nil] at hlast
    rw [hmore, ← hlast] at hback
    constructor
    · rw [hcs, List.count_append, List.count_cons_self, List.count_cons_self]
      omega
    · intro hdot
      have hdot : '.' ∈ more := by simpa [hcs, hno] using hdot
      obtain ⟨lead, bytes, rfl, hlead, hbytes⟩ := hback.ends_dotted hdot
      refine ⟨front ++ ':' :: ':' :: lead, bytes, ?_, ?_, hbytes⟩
      · rw [hcs, List.append_assoc]
        rfl
      · simp [hno, hlead]

theorem parse?_eq_some_iff {s : String} {a : Address} :
    parse? s = some a ↔ read s.toList = some (a, []) := by
  unfold parse?
  split
  · rename_i b h
    rw [h]
    simp
  · rename_i hno
    constructor
    · exact nofun
    · exact fun h => absurd h (hno a)

/-- An address is written as four bytes, or else with two colons. -/
theorem parse?_cases {s : String} {a : Address} (h : parse? s = some a) :
    (a.family = .v4 ∧ IsDotted s.toList) ∨
      (a.family = .v6 ∧ readOctets s.toList = none ∧
        ∃ groups, readSixGroups s.toList = some (groups, []) ∧ a = ofNat .v6 (ofDigits 65536 groups)) := by
  have h := parse?_eq_some_iff.1 h
  unfold read at h
  split at h
  · rename_i octets rest hoctets
    cases h
    obtain ⟨front, hs, hfront⟩ := exists_of_readOctets hoctets
    rw [hs, List.append_nil]
    exact .inl ⟨rfl, hfront⟩
  · rename_i hoctets
    obtain ⟨⟨groups, rest⟩, hgroups, heq⟩ := Option.map_eq_some_iff.1 h
    cases heq
    exact .inr ⟨rfl, hoctets, groups, hgroups, rfl⟩

theorem family_eq_v6_iff {s : String} {a : Address} (h : parse? s = some a) :
    a.family = .v6 ↔ ':' ∈ s.toList := by
  rcases parse?_cases h with ⟨hfamily, hdotted⟩ | ⟨hfamily, -, groups, hgroups, -⟩
  · rw [hfamily]
    exact ⟨nofun, fun hmem => absurd hmem (hdotted.not_mem (by decide) (by decide))⟩
  · have hcount := (exists_of_readSixGroups hgroups).1
    exact ⟨fun _ => List.count_pos_iff.1 (by omega), fun _ => hfamily⟩

theorem ofDigits_zeros (radix count : Nat) (digits : List Nat) :
    ofDigits radix (List.replicate count 0 ++ digits) = ofDigits radix digits := by
  induction count with
  | zero => rfl
  | succ count ih =>
      rw [List.replicate_succ, List.cons_append, ← ih, ofDigits, ofDigits, List.foldl_cons,
        Nat.zero_mul]

theorem takeDigits_zeros (count : Nat) (cs : List Char) :
    takeDigits hexDigit? (List.replicate count '0' ++ cs) =
      (List.replicate count 0 ++ (takeDigits hexDigit? cs).1, (takeDigits hexDigit? cs).2) := by
  induction count with
  | zero => rfl
  | succ count ih =>
      rw [List.replicate_succ, List.cons_append, takeDigits, ih]
      rfl

/-- Four bytes with dots between them are more than a group. -/
theorem readGroups_one_ne {first : Bool} {run : GroupRun} {found : List Nat × List Char}
    (hoctets : (readSeparator first cs).bind readOctets = some found) :
    readGroups 1 first cs ≠ (run, []) := by
  intro h
  obtain ⟨middle, hseparator, hread⟩ := Option.bind_eq_some_iff.1 hoctets
  obtain ⟨bytes, rfl, hbytes⟩ := exists_of_readOctets hread
  rw [readGroups, if_pos rfl, hseparator, Option.bind_some] at h
  simp only at h
  cases hgroup : readGroup (bytes ++ found.2) with
  | none =>
      rw [hgroup] at h
      obtain ⟨-, hnil⟩ := Prod.mk.inj h
      have hcs := eq_of_readSeparator hseparator
      rw [hnil] at hcs
      obtain ⟨-, hmore⟩ := List.append_eq_nil_iff.1 hcs.symm
      obtain ⟨rfl, -⟩ := List.append_eq_nil_iff.1 hmore
      exact absurd hbytes.dot_mem List.not_mem_nil
  | some last =>
      rw [hgroup] at h
      obtain ⟨-, hnil⟩ := Prod.mk.inj h
      obtain ⟨piece, hpiece, hdigits⟩ := exists_of_readGroup hgroup
      have hnil : last.2 = [] := hnil
      rw [hnil, List.append_nil] at hpiece
      refine not_mem_of_isSome_hexDigit? hdigits (c := '.') (by decide) ?_
      rw [← hpiece]
      exact List.mem_append_left _ hbytes.dot_mem

/-- More groups than there are cannot be read. -/
theorem readGroups_succ {limit : Nat} {first : Bool} {run : GroupRun}
    (h : readGroups limit first cs = (run, [])) : readGroups (limit + 1) first cs = (run, []) := by
  induction limit generalizing first cs run with
  | zero =>
      cases h
      cases first <;> rfl
  | succ limit ih =>
      rw [readGroups, if_neg (Nat.succ_ne_zero limit)]
      cases hoctets : (readSeparator first cs).bind readOctets with
      | none =>
          rw [readGroups, hoctets, ite_self] at h
          simp only at h ⊢
          cases hgroup : (readSeparator first cs).bind readGroup with
          | none =>
              rw [hgroup] at h
              exact h
          | some found =>
              rw [hgroup] at h
              simp only at h ⊢
              obtain ⟨hrun, hrest⟩ := Prod.mk.inj h
              have hmore : readGroups limit false found.2 =
                  ((readGroups limit false found.2).1, []) := Prod.ext rfl hrest
              rw [ih hmore]
              exact congrArg (·, []) hrun
      | some found =>
          rcases Nat.eq_zero_or_pos limit with rfl | hpos
          · exact absurd h (readGroups_one_ne hoctets)
          · rw [readGroups, if_neg hpos.ne', hoctets] at h
            exact h

theorem readGroups_first {limit : Nat} (hlimit : limit ≠ 0) (hoctets : readOctets cs = none) :
    readGroups (limit + 1) true cs =
      match readGroup cs with
      | none => (⟨[], false⟩, cs)
      | some (group, rest) =>
        (⟨group :: (readGroups limit false rest).1.groups, (readGroups limit false rest).1.dotted⟩,
          (readGroups limit false rest).2) := by
  rw [readGroups, if_neg hlimit, show (readSeparator true cs).bind readOctets = none from hoctets]
  rfl

/-- Zeros in front of digits do not change the group. -/
theorem readGroup_of_zeros {count : Nat} {found : Nat × List Char}
    (h : readGroup (List.replicate count '0' ++ cs) = some found) :
    (∃ more, cs = more ++ found.2 ∧ more ≠ [] ∧ readGroup cs = some found) ∨
      (found = (0, cs) ∧ readGroup cs = none) := by
  obtain ⟨front, hcs, hdigits⟩ := exists_of_takeDigits hexDigit? cs
  unfold readGroup at h ⊢
  rw [takeDigits_zeros] at h
  simp only at h ⊢
  split at h
  · cases h
  · rename_i hvalid
    rw [not_or, List.length_append] at hvalid
    cases h
    rw [ofDigits_zeros]
    by_cases hnone : (takeDigits hexDigit? cs).1 = []
    · rw [hnone] at hdigits ⊢
      cases hdigits
      exact .inr ⟨Prod.ext rfl hcs.symm, rfl⟩
    · refine .inl ⟨front, hcs, ?_, ?_⟩
      · rintro rfl
        exact hnone (List.forall₂_nil_left_iff.1 hdigits)
      · rw [if_neg]
        rintro (hnil | hlong)
        · exact hnone hnil
        · omega

/-- Zeros before two colons are a group that the colons stand for as well. -/
theorem ofDigits_readSixGroups_gap {groups others : List Nat} {front : List Char}
    (hfront : readGroups 8 true front = (⟨[0], false⟩, cs))
    (hcs : readGroups 8 true cs = (⟨[], false⟩, cs))
    (h : readSixGroups front = some (groups, [])) (h' : readSixGroups cs = some (others, [])) :
    ofDigits 65536 others = ofDigits 65536 groups := by
  rcases readSixGroups_cases h with ⟨_, hread, height⟩ | ⟨_, back, more, hread, -, hback, rfl⟩
  · rw [hread] at hfront
    cases hfront
    cases height
  rcases readSixGroups_cases h' with ⟨_, hread', height⟩ | ⟨_, back', more', hread', -, hback', rfl⟩
  · rw [hread'] at hcs
    cases hcs
    cases height
  rw [hread] at hfront
  cases hfront
  rw [hread'] at hcs
  cases hcs
  have hsame : readGroups 7 true more = (back, []) := readGroups_succ hback
  obtain rfl : back = back' := congrArg Prod.fst (hsame.symm.trans hback')
  have hzeros := fun count => ofDigits_zeros 65536 count back.groups
  rw [List.nil_append, hzeros, List.append_assoc]
  exact (hzeros _).symm.trans (ofDigits_zeros 65536 1 _).symm

/-- Zeros before the first group do not change the number that groups write. -/
theorem ofDigits_readSixGroups_zeros {count : Nat} {groups others : List Nat} (hcount : 0 < count)
    (hoctets : readOctets (List.replicate count '0' ++ cs) = none) (hoctets' : readOctets cs = none)
    (h : readSixGroups (List.replicate count '0' ++ cs) = some (groups, []))
    (h' : readSixGroups cs = some (others, [])) : ofDigits 65536 others = ofDigits 65536 groups := by
  have hseven : 7 ≠ 0 := by decide
  have hfirst := readGroups_first hseven hoctets
  have hfirst' := readGroups_first hseven hoctets'
  cases hgroup : readGroup (List.replicate count '0' ++ cs) with
  | none =>
      rw [hgroup] at hfirst
      obtain ⟨count, rfl⟩ := Nat.exists_eq_add_one_of_ne_zero hcount.ne'
      rcases readSixGroups_cases h with ⟨_, hread, -⟩ | ⟨_, _, _, hread, -⟩
      · rw [hread] at hfirst
        cases hfirst
      · rw [hread] at hfirst
        cases hfirst
  | some found =>
      rw [hgroup] at hfirst
      rcases readGroup_of_zeros hgroup with ⟨-, -, -, hsame⟩ | ⟨rfl, hnone⟩
      · rw [hsame] at hfirst'
        have heq : readSixGroups cs = readSixGroups (List.replicate count '0' ++ cs) := by
          unfold readSixGroups
          rw [hfirst, hfirst']
        rw [heq, h] at h'
        cases h'
        rfl
      · rw [hnone] at hfirst'
        have hempty : readGroups 7 false cs = (⟨[], false⟩, cs) := by
          rcases readSixGroups_cases h' with ⟨_, hread, height⟩ | ⟨_, _, more, hread, -⟩
          · rw [hread] at hfirst'
            cases hfirst'
            cases height
          · rw [hread] at hfirst'
            obtain rfl : ':' :: ':' :: more = cs := congrArg Prod.snd hfirst'
            rfl
        simp only [hempty] at hfirst
        exact ofDigits_readSixGroups_gap hfirst hfirst' h h'

/-- A version 6 text without the zeros at its start is the text of the same address, if of any. -/
theorem eq_of_parse?_dropWhile {s : String} {a b : Address} (h : parse? s = some a)
    (hcolon : ':' ∈ s.toList)
    (h' : parse? (String.ofList (s.toList.dropWhile (· == '0'))) = some b) : b = a := by
  have hzeros : s.toList.takeWhile (· == '0') =
      List.replicate (s.toList.takeWhile (· == '0')).length '0' := by
    rw [List.eq_replicate_iff]
    exact ⟨rfl, fun c hc => by simpa using List.mem_takeWhile_imp hc⟩
  have hs : s.toList = List.replicate (s.toList.takeWhile (· == '0')).length '0' ++
      s.toList.dropWhile (· == '0') := by
    rw [← hzeros, List.takeWhile_append_dropWhile]
  have hcolon' : ':' ∈ (String.ofList (s.toList.dropWhile (· == '0'))).toList := by
    rw [String.toList_ofList]
    exact Text.mem_dropWhile (by decide) hcolon
  have hfamily := (family_eq_v6_iff h).2 hcolon
  have hfamily' := (family_eq_v6_iff h').2 hcolon'
  rcases parse?_cases h with ⟨hv4, -⟩ | ⟨-, hoctets, groups, hgroups, rfl⟩
  · rw [hfamily] at hv4
    cases hv4
  rcases parse?_cases h' with ⟨hv4, -⟩ | ⟨-, hoctets', others, hothers, rfl⟩
  · rw [hfamily'] at hv4
    cases hv4
  rw [String.toList_ofList] at hoctets' hothers
  rcases Nat.eq_zero_or_pos (s.toList.takeWhile (· == '0')).length with hnone | hsome
  · rw [hnone, List.replicate_zero, List.nil_append] at hs
    rw [← hs, hgroups] at hothers
    cases hothers
    rfl
  · rw [hs] at hoctets hgroups
    rw [ofDigits_readSixGroups_zeros hsome hoctets hoctets' hgroups hothers]

end IpRegistry.Address
