import IpRegistry.Address.Printer
import IpRegistry.Proofs.Address.Accepts
import IpRegistry.Proofs.Text.Numeral
import IpRegistry.Proofs.Text.Split
import Mathlib.Data.List.TakeWhile

namespace IpRegistry.Address

/-- The text does not go on with a digit. -/
def Stops (digit? : Char → Option Nat) (rest : List Char) : Prop :=
  ∀ c ∈ rest.head?, digit? c = none

theorem takeDigits_append {digit? : Char → Option Nat} {digits : List Nat} {rest : List Char}
    (hdigits : ∀ d ∈ digits, digit? d.digitChar = some d) (hrest : Stops digit? rest) :
    takeDigits digit? (digits.map Nat.digitChar ++ rest) = (digits, rest) := by
  induction digits with
  | nil =>
      cases rest with
      | nil => rfl
      | cons c rest =>
          rw [List.map_nil, List.nil_append, takeDigits, hrest c rfl]
  | cons d digits ih =>
      have ih := ih fun e he => hdigits e (List.mem_cons_of_mem _ he)
      rw [List.map_cons, List.cons_append, takeDigits, hdigits d List.mem_cons_self, ih]

theorem length_digits_le {radix n count : Nat} {digits : List Nat} (hradix : 1 < radix)
    (hcount : 0 < count) (htext : Nat.toDigits radix n = digits.map Nat.digitChar)
    (h : n < radix ^ count) : digits.length ≤ count := by
  have hle := (Nat.length_toDigits_le_iff hradix hcount).mpr h
  rwa [htext, List.length_map] at hle

theorem readOctet_append {n : Nat} {rest : List Char} (h : n < 256)
    (hrest : Stops Text.digit? rest) :
    readOctet (Nat.toDigits 10 n ++ rest) = some (n, rest) := by
  obtain ⟨digits, hnumeral, htext⟩ := exists_numeral (by decide : 1 < 10) n
  have hlength : digits.length ≤ 3 := length_digits_le (by decide) (by decide) htext (by omega)
  have htake : takeDigits Text.digit? (Nat.toDigits 10 n ++ rest) = (digits, rest) := by
    rw [htext]
    exact takeDigits_append (fun d hd => Text.digit?_digitChar (hnumeral.lt d hd)) hrest
  have hleading : ¬(digits.head? = some 0 ∧ 1 < digits.length) := by
    rintro ⟨hzero, hlong⟩
    rw [hnumeral.no_leading_zero hzero] at hlong
    exact absurd hlong (by decide)
  rw [readOctet_eq, htake]
  simp only [hnumeral.value]
  rw [if_neg]
  rintro (hnil | hlong | hzero | hlarge)
  · exact hnumeral.ne_nil hnil
  · omega
  · exact hleading hzero
  · omega

theorem hexDigit?_digitChar {d : Nat} (h : d < 16) : hexDigit? d.digitChar = some d := by
  have hall : ∀ d < 16, hexDigit? (Nat.digitChar d) = some d := by decide
  exact hall d h

theorem readGroup_append {n : Nat} {rest : List Char} (h : n < 65536)
    (hrest : Stops hexDigit? rest) :
    readGroup (Text.hexDigits n ++ rest) = some (n, rest) := by
  obtain ⟨digits, hnumeral, htext⟩ := exists_numeral (by decide : 1 < 16) n
  have hlength : digits.length ≤ 4 := length_digits_le (by decide) (by decide) htext (by omega)
  have htake : takeDigits hexDigit? (Text.hexDigits n ++ rest) = (digits, rest) := by
    rw [Text.hexDigits, htext]
    exact takeDigits_append (fun d hd => hexDigit?_digitChar (hnumeral.lt d hd)) hrest
  unfold readGroup
  rw [htake]
  simp only [hnumeral.value]
  rw [if_neg]
  rintro (hnil | hlong)
  · exact hnumeral.ne_nil hnil
  · omega

theorem exists_eq_of_length_four {octets : List Nat} (h : octets.length = 4) :
    ∃ a b c d, octets = [a, b, c, d] := by
  match octets, h with
  | [a, b, c, d], _ => exact ⟨a, b, c, d, rfl⟩

theorem toList_dotted_map (octets : List Nat) :
    (dotted octets).toList = ['.'].intercalate (octets.map (Nat.toDigits 10)) := by
  rw [dotted, String.toList_intercalate, List.map_map]
  congr 1
  refine List.map_congr_left fun n _ => ?_
  simp

theorem toList_dotted (a b c d : Nat) :
    (dotted [a, b, c, d]).toList =
      Nat.toDigits 10 a ++ '.' :: (Nat.toDigits 10 b ++ '.' :: (Nat.toDigits 10 c ++
        '.' :: Nat.toDigits 10 d)) := by
  simp [dotted]

theorem readOctets_dotted {octets : List Nat} (hlength : octets.length = 4)
    (hlt : ∀ o ∈ octets, o < 256) : readOctets (dotted octets).toList = some (octets, []) := by
  obtain ⟨a, b, c, d, rfl⟩ := exists_eq_of_length_four hlength
  simp only [List.forall_mem_cons, List.not_mem_nil, false_imp_iff, implies_true, and_true] at hlt
  obtain ⟨ha, hb, hc, hd⟩ := hlt
  have hdot : ∀ cs, Stops Text.digit? ('.' :: cs) := by
    rintro cs c ⟨rfl⟩
    decide
  have hlast := readOctet_append hd (show Stops Text.digit? [] from nofun)
  rw [List.append_nil] at hlast
  rw [toList_dotted]
  simp only [readOctets, readDotOctet, readChar, readOctet_append, ha, hb, hc, hdot, hlast,
    Option.bind_eq_bind, Option.bind_some, if_true]
  rfl

/-- The text of groups: a colon before each of them, except for the first one of all. -/
def groupChars : (first : Bool) → List Nat → List Char
  | _, [] => []
  | true, g :: groups => Text.hexDigits g ++ groupChars false groups
  | false, g :: groups => ':' :: (Text.hexDigits g ++ groupChars false groups)

theorem toList_colonSeparated (groups : List Nat) :
    (colonSeparated groups).toList = groupChars true groups := by
  have hrest : ∀ g groups, (colonSeparated (g :: groups)).toList =
      Text.hexDigits g ++ groupChars false groups := by
    intro g groups
    induction groups generalizing g with
    | nil => simp [colonSeparated, groupChars]
    | cons h groups ih =>
        have ih := ih h
        simp only [colonSeparated, List.map_cons, String.toList_intercalate,
          List.intercalate_cons_cons, String.toList_ofList] at ih ⊢
        rw [ih]
        simp [groupChars]
  cases groups with
  | nil => rfl
  | cons g groups => exact hrest g groups

theorem readOctets_eq_none {cs : List Char} (h : '.' ∉ cs) : readOctets cs = none := by
  unfold readOctets
  cases hread : readOctet cs with
  | none => rfl
  | some octet =>
      obtain ⟨n, rest⟩ := octet
      have hrest : '.' ∉ rest := fun hmem => h ((consumed_readOctet hread).subset hmem)
      have hdot : readDotOctet rest = none := by
        cases rest with
        | nil => rfl
        | cons c rest =>
            have hc : c ≠ '.' := fun heq => hrest (heq ▸ List.mem_cons_self)
            simp [readDotOctet, readChar, hc]
      simp [hdot]

theorem separated_octets_eq_none {first : Bool} {cs : List Char} (h : '.' ∉ cs) :
    (readSeparator first cs).bind readOctets = none := by
  rw [Option.bind_eq_none_iff]
  intro rest hrest
  exact readOctets_eq_none fun hmem => h ((consumed_readSeparator hrest).subset hmem)

theorem readSeparator_groupChars (first : Bool) (g : Nat) (groups : List Nat) (rest : List Char) :
    readSeparator first (groupChars first (g :: groups) ++ rest) =
      some (Text.hexDigits g ++ (groupChars false groups ++ rest)) := by
  cases first <;> simp [readSeparator, readChar, groupChars]

theorem stops_groupChars {groups : List Nat} {rest : List Char} (h : Stops hexDigit? rest) :
    Stops hexDigit? (groupChars false groups ++ rest) := by
  cases groups with
  | nil => exact h
  | cons g groups =>
      rintro c ⟨rfl⟩
      decide

/-- No further group is written at the start of the text, with or without a colon before it. -/
def EndsGroups (first : Bool) (rest : List Char) : Prop :=
  (readSeparator first rest).bind readGroup = none ∧ Stops hexDigit? rest

theorem readGroups_append {limit : Nat} {first : Bool} {groups : List Nat} {rest : List Char}
    (hlength : groups.length ≤ limit) (hlt : ∀ g ∈ groups, g < 65536)
    (hdot : '.' ∉ groupChars first groups ++ rest)
    (hends : EndsGroups (first && groups.isEmpty) rest) :
    readGroups limit first (groupChars first groups ++ rest) = (⟨groups, false⟩, rest) := by
  induction groups generalizing limit first with
  | nil =>
      have hrest : groupChars first [] ++ rest = rest := by cases first <;> rfl
      rw [List.isEmpty_nil, Bool.and_true] at hends
      rw [hrest] at hdot ⊢
      cases limit with
      | zero => rfl
      | succ limit =>
          rw [readGroups, separated_octets_eq_none hdot, ite_self, hends.1]
  | cons g groups ih =>
      obtain ⟨limit, rfl⟩ := Nat.exists_eq_add_one_of_ne_zero (n := limit) (by
        rintro rfl
        exact absurd hlength (Nat.not_succ_le_zero _))
      rw [List.isEmpty_cons, Bool.and_false] at hends
      have hseparator := consumed_readSeparator (readSeparator_groupChars first g groups rest)
      have hrest : '.' ∉ groupChars false groups ++ rest := fun hmem =>
        hdot (hseparator.subset (List.mem_append_right _ hmem))
      have hread := @ih limit false (Nat.le_of_succ_le_succ hlength)
        (fun h hh => hlt h (List.mem_cons_of_mem _ hh)) hrest hends
      rw [readGroups, separated_octets_eq_none hdot, ite_self, readSeparator_groupChars,
        Option.bind_some,
        readGroup_append (hlt g List.mem_cons_self) (stops_groupChars hends.2)]
      simp only
      rw [hread]

theorem take_leadingZeros (groups : List Nat) :
    groups.take (leadingZeros groups) = List.replicate (leadingZeros groups) 0 := by
  have htake : groups.take (leadingZeros groups) = groups.takeWhile (· == 0) :=
    (List.prefix_iff_eq_take.mp (List.takeWhile_prefix _)).symm
  rw [htake, leadingZeros, List.eq_replicate_iff]
  refine ⟨rfl, fun g hg => ?_⟩
  simpa using List.mem_takeWhile_imp hg

theorem longestZeroRun_spec (groups : List Nat) :
    let run := longestZeroRun groups
    groups.take run.1 ++ List.replicate run.2 0 ++ groups.drop (run.1 + run.2) = groups := by
  induction groups with
  | nil => rfl
  | cons g groups ih =>
      simp only [longestZeroRun]
      split
      · rw [List.take_zero, List.nil_append, Nat.zero_add, ← take_leadingZeros,
          List.take_append_drop]
      · simp only at ih
        rw [Nat.add_right_comm, List.take_succ_cons, List.drop_succ_cons, List.cons_append,
          List.cons_append, ih]

theorem digitChar_mem {d : Nat} (h : d < 16) : d.digitChar ∈ "0123456789abcdef".toList := by
  have hall : ∀ d < 16, Nat.digitChar d ∈ "0123456789abcdef".toList := by decide
  exact hall d h

theorem mem_of_mem_toDigits {radix n : Nat} (hradix : 1 < radix) (hle : radix ≤ 16) {c : Char}
    (h : c ∈ Nat.toDigits radix n) : c ∈ "0123456789abcdef".toList := by
  obtain ⟨digits, hnumeral, htext⟩ := exists_numeral hradix n
  rw [htext] at h
  obtain ⟨d, hd, rfl⟩ := List.mem_map.mp h
  exact digitChar_mem ((hnumeral.lt d hd).trans_le hle)

theorem mem_of_mem_groupChars {first : Bool} {groups : List Nat} {c : Char}
    (h : c ∈ groupChars first groups) : c = ':' ∨ c ∈ "0123456789abcdef".toList := by
  induction groups generalizing first with
  | nil => cases first <;> cases h
  | cons g groups ih =>
      have hg : c ∈ Text.hexDigits g ++ groupChars false groups →
          c = ':' ∨ c ∈ "0123456789abcdef".toList := by
        intro hmem
        rcases List.mem_append.mp hmem with hmem | hmem
        · exact .inr (mem_of_mem_toDigits (by decide) (by decide) hmem)
        · exact ih hmem
      cases first with
      | true => exact hg h
      | false =>
          rcases List.mem_cons.mp h with hc | hmem
          · exact .inl hc
          · exact hg hmem

theorem dot_not_mem_groupChars (first : Bool) (groups : List Nat) :
    '.' ∉ groupChars first groups := by
  intro h
  exact absurd (mem_of_mem_groupChars h) (by decide)

variable {groups front back octets : List Nat}

theorem endsGroups_nil (first : Bool) : EndsGroups first [] := by
  cases first <;> exact ⟨rfl, nofun⟩

/-- A second colon stands where a group would. -/
theorem endsGroups_gap (first : Bool) (rest : List Char) : EndsGroups first (':' :: ':' :: rest) := by
  refine ⟨?_, ?_⟩
  · cases first <;> rfl
  · rintro c ⟨rfl⟩
    decide

theorem readGroups_groupChars {limit : Nat} (hlength : groups.length ≤ limit)
    (hlt : ∀ g ∈ groups, g < 65536) :
    readGroups limit true (groupChars true groups) = (⟨groups, false⟩, []) := by
  have hdot : '.' ∉ groupChars true groups ++ [] := by
    simpa using dot_not_mem_groupChars true groups
  have hread := readGroups_append hlength hlt hdot (endsGroups_nil _)
  rwa [List.append_nil] at hread

theorem readSixGroups_groupChars (hlength : groups.length = 8) (hlt : ∀ g ∈ groups, g < 65536) :
    readSixGroups (groupChars true groups) = some (groups, []) := by
  have hread := readGroups_groupChars hlength.le hlt
  unfold readSixGroups
  rw [hread]
  simp only [hlength, if_true]

theorem readSixGroups_gap (hlength : front.length + back.length < 8)
    (hfront : ∀ g ∈ front, g < 65536) (hback : ∀ g ∈ back, g < 65536) :
    readSixGroups (groupChars true front ++ ':' :: ':' :: groupChars true back) =
      some (front ++ List.replicate (8 - front.length - back.length) 0 ++ back, []) := by
  have hdot : '.' ∉ groupChars true front ++ ':' :: ':' :: groupChars true back := by
    simp [dot_not_mem_groupChars]
  have hfits : front.length ≤ 8 := by omega
  have hreadBack := readGroups_groupChars (show back.length ≤ 7 - front.length by omega) hback
  unfold readSixGroups
  rw [readGroups_append hfits hfront hdot (endsGroups_gap _ _)]
  simp only [readChar, if_true, Option.bind_some, Bool.false_eq_true, if_false]
  rw [if_neg (by omega), hreadBack]

/-- The image of a version 4 address: the last two groups are read in dotted form. -/
theorem readSixGroups_mapped (hlength : octets.length = 4) (hlt : ∀ o ∈ octets, o < 256) :
    readSixGroups ("::ffff:".toList ++ (dotted octets).toList) =
      some ([0, 0, 0, 0, 0, 0xffff, ofDigits 256 (octets.take 2), ofDigits 256 (octets.drop 2)],
        []) := by
  have hfront : readGroups 8 true (':' :: ':' :: ("ffff".toList ++ ':' :: (dotted octets).toList)) =
      (⟨[], false⟩, ':' :: ':' :: ("ffff".toList ++ ':' :: (dotted octets).toList)) := rfl
  have hmark : readGroup ("ffff".toList ++ ':' :: (dotted octets).toList) =
      some (0xffff, ':' :: (dotted octets).toList) := by
    have hstops : Stops hexDigit? (':' :: (dotted octets).toList) := by
      rintro c ⟨rfl⟩
      decide
    exact readGroup_append (n := 0xffff) (by decide) hstops
  have hoctets := readOctets_dotted hlength hlt
  have hback : readGroups 7 true ("ffff".toList ++ ':' :: (dotted octets).toList) =
      (⟨[0xffff, ofDigits 256 (octets.take 2), ofDigits 256 (octets.drop 2)], true⟩, []) := by
    have hnone : readOctets ("ffff".toList ++ ':' :: (dotted octets).toList) = none := rfl
    rw [readGroups, if_neg (by decide)]
    simp only [readSeparator, if_true, Option.bind_some, hnone, hmark]
    rw [readGroups, if_neg (by decide)]
    simp only [readSeparator, readChar, Bool.false_eq_true, if_false, if_true, Option.bind_some,
      hoctets]
  have htext : "::ffff:".toList ++ (dotted octets).toList =
      ':' :: ':' :: ("ffff".toList ++ ':' :: (dotted octets).toList) := rfl
  unfold readSixGroups
  rw [htext, hfront]
  simp only [readChar, if_true, Option.bind_some, List.length_nil, Nat.sub_zero]
  rw [hback]
  rfl

theorem ofNat_of_lt {family : Family} {n : Nat} {a : Address} (hfamily : a.family = family)
    (h : a.value = n) : ofNat family n = a := by
  obtain ⟨family', value, hlt⟩ := a
  subst hfamily h
  simp only [ofNat, Nat.mod_eq_of_lt hlt]

theorem readSixGroups_compressed (hlength : groups.length = 8) (hlt : ∀ g ∈ groups, g < 65536) :
    readSixGroups (compressed groups).toList = some (groups, []) := by
  unfold compressed
  simp only
  split
  · rw [toList_colonSeparated]
    exact readSixGroups_groupChars hlength hlt
  · rename_i hrun
    have hspec := longestZeroRun_spec groups
    generalize longestZeroRun groups = run at hspec hrun ⊢
    have htotal := congrArg List.length hspec
    simp only [List.length_append, List.length_take, List.length_replicate, List.length_drop,
      hlength] at htotal
    have htext : (colonSeparated (groups.take run.1) ++ "::" ++
        colonSeparated (groups.drop (run.1 + run.2))).toList =
          groupChars true (groups.take run.1) ++
            ':' :: ':' :: groupChars true (groups.drop (run.1 + run.2)) := by
      rw [String.toList_append, String.toList_append, toList_colonSeparated,
        toList_colonSeparated, List.append_assoc]
      rfl
    rw [htext, readSixGroups_gap (by rw [List.length_take, List.length_drop]; omega)
      (fun g hg => hlt g (List.mem_of_mem_take hg)) (fun g hg => hlt g (List.mem_of_mem_drop hg))]
    have hmissing : 8 - (groups.take run.1).length - (groups.drop (run.1 + run.2)).length = run.2 := by
      rw [List.length_take, List.length_drop]
      omega
    rw [hmissing, hspec]

theorem mem_of_mem_compressed {c : Char} (h : c ∈ (compressed groups).toList) :
    c = ':' ∨ c ∈ "0123456789abcdef".toList := by
  unfold compressed at h
  simp only at h
  split at h
  · rw [toList_colonSeparated] at h
    exact mem_of_mem_groupChars h
  · rw [String.toList_append, String.toList_append, toList_colonSeparated,
      toList_colonSeparated] at h
    rcases List.mem_append.mp h with h | h
    · rcases List.mem_append.mp h with h | h
      · exact mem_of_mem_groupChars h
      · exact .inl (by simpa using h)
    · exact mem_of_mem_groupChars h

theorem mem_of_mem_dotted {c : Char} (h : c ∈ (dotted octets).toList) :
    c = '.' ∨ c ∈ "0123456789abcdef".toList := by
  rw [toList_dotted_map] at h
  rcases Text.mem_intercalate h with h | ⟨piece, hpiece, h⟩
  · exact .inl (List.mem_singleton.mp h)
  · obtain ⟨n, -, rfl⟩ := List.mem_map.mp hpiece
    exact .inr (mem_of_mem_toDigits (by decide) (by decide) h)

/-- The text of an address is of hexadecimal digits, dots and colons. -/
theorem mem_of_mem_text {a : Address} {c : Char} (h : c ∈ a.text.toList) :
    c ∈ "0123456789abcdef.:".toList := by
  have hdigit : c ∈ "0123456789abcdef".toList → c ∈ "0123456789abcdef.:".toList :=
    fun hc => List.mem_append_left ".:".toList hc
  have hdot : c = '.' ∨ c ∈ "0123456789abcdef".toList → c ∈ "0123456789abcdef.:".toList := by
    rintro (rfl | hc)
    · decide
    · exact hdigit hc
  have hcolon : c = ':' ∨ c ∈ "0123456789abcdef".toList → c ∈ "0123456789abcdef.:".toList := by
    rintro (rfl | hc)
    · decide
    · exact hdigit hc
  unfold text at h
  split at h
  · exact hdot (mem_of_mem_dotted h)
  · split at h
    · rw [String.toList_append] at h
      rcases List.mem_append.mp h with h | h
      · have hall : "::ffff:".toList.all (· ∈ "0123456789abcdef.:".toList) = true := by decide
        simpa using List.all_eq_true.mp hall c h
      · exact hdot (mem_of_mem_dotted h)
    · exact hcolon (mem_of_mem_compressed h)

theorem read_v4 {a : Address} (h : a.family = .v4) :
    read a.text.toList = some (a, []) := by
  have hvalue : a.value < 256 ^ 4 := by
    have hlt := a.value_lt
    rw [h] at hlt
    exact hlt
  have hread := readOctets_dotted (length_digitsOf 256 4 a.value)
    fun o ho => lt_of_mem_digitsOf (by decide) ho
  have htext : a.text = dotted (digitsOf 256 4 a.value) := by
    unfold text
    rw [h]
    rfl
  rw [htext, read, hread]
  simp only
  rw [ofDigits_digitsOf, Nat.mod_eq_of_lt hvalue, ofNat_of_lt h rfl]

theorem read_v6 {a : Address} {groups : List Nat} (h : a.family = .v6)
    (hoctets : readOctets a.text.toList = none)
    (hgroups : readSixGroups a.text.toList = some (groups, []))
    (hvalue : a.value = ofDigits 65536 groups) : read a.text.toList = some (a, []) := by
  rw [read, hoctets, hgroups, Option.map_some, ofNat_of_lt h hvalue]

theorem value_eq_of_isMapped {a : Address} (h : a.isMapped = true) :
    a.value = ofDigits 65536 [0, 0, 0, 0, 0, 0xffff,
      ofDigits 256 ((digitsOf 256 4 a.value).take 2),
      ofDigits 256 ((digitsOf 256 4 a.value).drop 2)] := by
  have hmark : a.value / 2 ^ 32 = 0xffff := by simpa [isMapped] using h
  have hoctets := ofDigits_digitsOf 256 4 a.value
  have hlength := length_digitsOf 256 4 a.value
  generalize digitsOf 256 4 a.value = octets at hoctets hlength ⊢
  have hsplit := ofDigits_append 256 (octets.take 2) (octets.drop 2)
  rw [List.take_append_drop, List.length_drop, hlength, hoctets] at hsplit
  simp only [ofDigits, List.foldl_cons, List.foldl_nil] at hsplit ⊢
  omega

theorem read_text (a : Address) : read a.text.toList = some (a, []) := by
  cases h : a.family with
  | v4 => exact read_v4 h
  | v6 =>
      have hlt : a.value < 65536 ^ 8 := by
        have hlt := a.value_lt
        rw [h] at hlt
        exact hlt
      have htext : a.text = if a.isMapped then "::ffff:" ++ dotted (digitsOf 256 4 a.value)
          else compressed a.groups := by
        unfold text
        rw [h]
      split at htext
      · rename_i hmapped
        have hlength := length_digitsOf 256 4 a.value
        have hgroups := readSixGroups_mapped hlength
          fun o ho => lt_of_mem_digitsOf (by decide) ho
        have hlist : a.text.toList =
            "::ffff:".toList ++ (dotted (digitsOf 256 4 a.value)).toList := by
          rw [htext, String.toList_append]
        rw [← hlist] at hgroups
        refine read_v6 h ?_ hgroups (value_eq_of_isMapped hmapped)
        rw [hlist]
        rfl
      · have hgroups := readSixGroups_compressed (length_digitsOf 65536 8 a.value)
          fun g hg => lt_of_mem_digitsOf (by decide) hg
        have hvalue := ofDigits_digitsOf 65536 8 a.value
        rw [Nat.mod_eq_of_lt hlt] at hvalue
        have hoctets : readOctets (compressed a.groups).toList = none := by
          refine readOctets_eq_none fun hmem => ?_
          exact absurd (mem_of_mem_compressed hmem) (by decide)
        change readSixGroups (compressed a.groups).toList = _ at hgroups
        rw [← htext] at hgroups hoctets
        exact read_v6 h hoctets hgroups hvalue.symm

/-- The text of an address is read as that address. -/
theorem parse?_text (a : Address) : parse? a.text = some a := by
  rw [parse?, read_text]

end IpRegistry.Address
