import IpRegistry.Proofs.Calendar.Format
import IpRegistry.Proofs.Calendar.Shift
import IpRegistry.Proofs.Text.Numeral
import Mathlib.Data.List.Lex
import Mathlib.Data.String.Basic
import Mathlib.Data.Nat.Digits.Defs

namespace IpRegistry

namespace Calendar

open Address (digitsOf ofDigits)

variable {w a b : Nat}

/-- A padded number is written with its digits, as many as the width says. -/
theorem toList_padded (h : a < 10 ^ w) (hw : 0 < w) :
    (padded w a).toList = (digitsOf 10 w a).map Nat.digitChar := by
  obtain ⟨digits, hnumeral, htext⟩ := exists_numeral (by decide : 1 < 10) a
  have hlength : digits.length ≤ w := by
    simpa [htext] using Nat.toDigits_length 10 a w hw h
  have hpadded : (padded w a).toList =
      (List.replicate (w - digits.length) 0 ++ digits).map Nat.digitChar := by
    have hzero : Nat.digitChar 0 = '0' := rfl
    have hrepr : a.repr.length = digits.length := by
      rw [← String.length_toList, Nat.toList_repr, htext, List.length_map]
    simp [padded, htext, hzero, hrepr]
  have hvalue : ofDigits 10 (List.replicate (w - digits.length) 0 ++ digits) = a := by
    have hzeros (n : Nat) : ofDigits 10 (List.replicate n 0) = 0 := by
      rw [← Address.digitsOf_zero 10 n, Address.ofDigits_digitsOf, Nat.zero_mod]
    rw [Address.ofDigits_append, hzeros, hnumeral.value, Nat.zero_mul, Nat.zero_add]
  have hlt : ∀ d ∈ List.replicate (w - digits.length) 0 ++ digits, d < 10 := by
    intro d hd
    rcases List.mem_append.1 hd with hd | hd
    · rw [List.eq_of_mem_replicate hd]
      decide
    · exact hnumeral.lt d hd
  have hw' : (List.replicate (w - digits.length) 0 ++ digits).length = w := by
    simp [hlength]
  have hdigits := Address.digitsOf_ofDigits hlt
  rw [hw', hvalue] at hdigits
  rw [hpadded, hdigits]

theorem length_padded (h : a < 10 ^ w) (hw : 0 < w) : (padded w a).toList.length = w := by
  rw [toList_padded h hw, List.length_map, Address.length_digitsOf]

theorem digitsValue_map {digits : List Nat} (h : ∀ d ∈ digits, d < 10) :
    digitsValue (digits.map Nat.digitChar) = ofDigits 10 digits := by
  induction digits using List.reverseRecOn with
  | nil => rfl
  | append_singleton digits d ih =>
      have hd : d.digitChar.toNat = 48 + d := Nat.toNat_digitChar_of_lt_ten (h d (by simp))
      have hfront := ih fun e he => h e (by simp [he])
      rw [digitsValue] at hfront
      rw [Address.ofDigits_concat, ← hfront, digitsValue, List.map_append, List.foldl_append,
        List.map_singleton, List.foldl_cons, List.foldl_nil, hd]
      omega

theorem digitsValue_padded (h : a < 10 ^ w) (hw : 0 < w) :
    digitsValue (padded w a).toList = a := by
  rw [toList_padded h hw, digitsValue_map fun d hd => Address.lt_of_mem_digitsOf (by decide) hd,
    Address.ofDigits_digitsOf, Nat.mod_eq_of_lt h]

/-- A padded number is read as a whole, whatever follows it. -/
theorem leads_padded (h : a < 10 ^ w) (hw : 0 < w) (rest : List Char) :
    Leads (some w) (padded w a).toList rest := by
  have hlength := length_padded h hw
  refine ⟨?_, ?_, ?_, .inl (congrArg some hlength.symm)⟩
  · exact List.ne_nil_of_length_pos (by omega)
  · rw [toList_padded h hw]
    intro c hc
    obtain ⟨d, hd, rfl⟩ := List.mem_map.1 hc
    rw [Nat.isDigit_digitChar]
    exact decide_eq_true (Address.lt_of_mem_digitsOf (by decide) hd)
  · rintro w' ⟨⟩
    exact hlength.le

theorem append_lt_append_iff {front front' back back' : List Char}
    (h : front.length = front'.length) :
    front ++ back < front' ++ back' ↔ front < front' ∨ front = front' ∧ back < back' := by
  induction front generalizing front' with
  | nil =>
      obtain rfl := List.length_eq_zero_iff.1 h.symm
      simp
  | cons c front ih =>
      cases front' with
      | nil => cases h
      | cons c' front' =>
          simp only [List.cons_append, List.cons_lt_cons_iff, List.cons.injEq,
            ih (Nat.succ.inj h)]
          tauto

theorem digitChar_lt_iff (ha : a < 10) (hb : b < 10) : [a.digitChar] < [b.digitChar] ↔ a < b := by
  have hall : ∀ a < 10, ∀ b < 10, [Nat.digitChar a] < [Nat.digitChar b] ↔ a < b := by decide
  exact hall a ha b hb

theorem map_digitsOf_lt_iff (ha : a < 10 ^ w) (hb : b < 10 ^ w) :
    (digitsOf 10 w a).map Nat.digitChar < (digitsOf 10 w b).map Nat.digitChar ↔ a < b := by
  induction w generalizing a b with
  | zero =>
      have : a = b := by omega
      simp [this]
  | succ w ih =>
      have ha' : a / 10 < 10 ^ w := by omega
      have hb' : b / 10 < 10 ^ w := by omega
      have heq : (digitsOf 10 w (a / 10)).map Nat.digitChar =
          (digitsOf 10 w (b / 10)).map Nat.digitChar ↔ a / 10 = b / 10 := by
        constructor
        · intro heq
          rcases Nat.lt_trichotomy (a / 10) (b / 10) with hlt | hsame | hgt
          · exact absurd ((ih ha' hb').2 hlt) (heq ▸ List.lt_irrefl _)
          · exact hsame
          · exact absurd ((ih hb' ha').2 hgt) (heq ▸ List.lt_irrefl _)
        · exact fun hsame => by rw [hsame]
      simp only [digitsOf, List.map_append, List.map_singleton]
      rw [append_lt_append_iff (by simp [Address.length_digitsOf]), ih ha' hb', heq,
        digitChar_lt_iff (by omega) (by omega)]
      omega

/-- Padded numbers in front of texts decide on their order unless they are equal. -/
theorem padded_append_lt_iff (hw : 0 < w) (ha : a < 10 ^ w) (hb : b < 10 ^ w)
    {s t : List Char} :
    (padded w a).toList ++ s < (padded w b).toList ++ t ↔ a < b ∨ a = b ∧ s < t := by
  have hlength : (padded w a).toList.length = (padded w b).toList.length := by
    rw [length_padded ha hw, length_padded hb hw]
  have heq : (padded w a).toList = (padded w b).toList ↔ a = b := by
    constructor
    · intro heq
      rw [← digitsValue_padded ha hw, heq, digitsValue_padded hb hw]
    · exact fun hsame => by rw [hsame]
  rw [append_lt_append_iff hlength, heq, toList_padded ha hw, toList_padded hb hw,
    map_digitsOf_lt_iff ha hb]

namespace Moment

/-- The moment is in one of the years that are written with four digits. -/
def HasPlainYear (m : Moment) : Prop :=
  0 ≤ m.date.year ∧ m.date.year ≤ 9999

variable {m n : Moment}

theorem HasPlainYear.toNat_lt (h : m.HasPlainYear) : m.date.year.toNat < 10 ^ 4 := by
  have := h.2
  omega

theorem HasPlainYear.hasYear (h : m.HasPlainYear) : Calendar.hasYear m.date.year = true := by
  have hfirst : firstYear = -262143 := rfl
  have hlast : lastYear = 262142 := rfl
  obtain ⟨hlow, hhigh⟩ := h
  simp only [Calendar.hasYear, Bool.and_eq_true, decide_eq_true_eq]
  omega

theorem toList_text (hyear : m.HasPlainYear) (hplain : m.inserted = false) :
    m.text.toList = (padded 4 m.date.year.toNat).toList ++ ("-".toList ++
      ((padded 2 m.date.month).toList ++ ("-".toList ++ ((padded 2 m.date.day).toList ++
        ("T".toList ++ ((padded 2 (m.second / 3600)).toList ++ (":".toList ++
          ((padded 2 (m.second / 60 % 60)).toList ++ (":".toList ++
            ((padded 2 (m.second % 60)).toList ++ [])))))))))) := by
  have htext : yearText m.date.year = padded 4 m.date.year.toNat := if_pos hyear
  simp [text, htext, hplain]

theorem seconds_lt_iff :
    m.seconds < n.seconds ↔ m.date.Before n.date ∨ m.date = n.date ∧ m.second < n.second := by
  have hm := m.second_lt
  have hn := n.second_lt
  rw [← Date.number_lt_iff, ← Date.number_injective.eq_iff, seconds, seconds]
  omega

/-- Texts of moments are in the order of time. -/
theorem text_lt_text_iff (hm : m.HasPlainYear) (hm' : m.inserted = false) (hn : n.HasPlainYear)
    (hn' : n.inserted = false) : m.text < n.text ↔ m.seconds < n.seconds := by
  have hsep (sep : List Char) {s t : List Char} : sep ++ s < sep ++ t ↔ s < t := by
    simp [append_lt_append_iff]
  have htwo : 10 ^ 2 = 100 := rfl
  have hfour : 10 ^ 4 = 10000 := rfl
  have hm31 := m.date.day_le_31
  have hn31 := n.date.day_le_31
  have hm12 := m.date.month_le
  have hn12 := n.date.month_le
  have hmlt := m.second_lt
  have hnlt := n.second_lt
  obtain ⟨hm0, hm9⟩ := hm
  obtain ⟨hn0, hn9⟩ := hn
  rw [String.lt_iff_toList_lt, toList_text ⟨hm0, hm9⟩ hm', toList_text ⟨hn0, hn9⟩ hn',
    padded_append_lt_iff (by decide) (by omega) (by omega), hsep,
    padded_append_lt_iff (by decide) (by omega) (by omega), hsep,
    padded_append_lt_iff (by decide) (by omega) (by omega), hsep,
    padded_append_lt_iff (by decide) (by omega) (by omega), hsep,
    padded_append_lt_iff (by decide) (by omega) (by omega), hsep,
    padded_append_lt_iff (by decide) (by omega) (by omega), seconds_lt_iff, Date.eq_iff, Date.Before]
  have hnil : ¬([] : List Char) < [] := List.lt_irrefl _
  have hclock : m.second < n.second ↔
      m.second / 3600 < n.second / 3600 ∨ m.second / 3600 = n.second / 3600 ∧
        (m.second / 60 % 60 < n.second / 60 % 60 ∨ m.second / 60 % 60 = n.second / 60 % 60 ∧
          m.second % 60 < n.second % 60) := by
    omega
  have hyears : m.date.year.toNat < n.date.year.toNat ↔ m.date.year < n.date.year := by omega
  have hyear : m.date.year.toNat = n.date.year.toNat ↔ m.date.year = n.date.year := by omega
  simp only [hnil, and_false, or_false, hclock, hyears, hyear, and_or_left, or_assoc, and_assoc]

end Moment

/-- The value that a moment has for a part of a format. -/
def FormatItem.value (m : Moment) : FormatItem → Nat
  | year => m.date.year.toNat
  | month => m.date.month
  | day => m.date.day
  | hour => m.second / 3600
  | minute => m.second / 60 % 60
  | second => m.second % 60 + if m.inserted then 1 else 0
  | blank | literal _ => 0

/-- The text of a part of a format: four digits for a year and two for another number. -/
def FormatItem.write (m : Moment) : FormatItem → List Char
  | blank => [' ']
  | literal s => s.toList
  | year => (padded 4 (year.value m)).toList
  | item => (padded 2 (item.value m)).toList

/-- The parts of a moment when a part of a format was read from its text. -/
def FormatItem.fill? (m : Moment) (parts : Parts) : FormatItem → Option Parts
  | year => parts.putYear? m.date.year
  | blank | literal _ => some parts
  | item => item.put? (item.value m) parts

def written (m : Moment) (format : Format) : List Char :=
  format.flatMap (FormatItem.write m)

def FormatItem.isNumber (item : FormatItem) : Bool :=
  item == year || item.range?.isSome

/-- Behind each blank of the format stands a number. -/
def keepsBlanks : Format → Bool
  | .blank :: item :: format => item.isNumber && keepsBlanks (item :: format)
  | _ :: format => keepsBlanks format
  | [] => true

section

variable {m : Moment} {parts : Parts} {rest : List Char}

theorem FormatItem.value_mem {item : FormatItem} {least greatest : Nat}
    (hrange : item.range? = some (least, greatest)) :
    least ≤ item.value m ∧ item.value m ≤ greatest := by
  have hlt := m.second_lt
  cases item with
  | month =>
      cases hrange
      exact ⟨m.date.month_pos, m.date.month_le⟩
  | day =>
      cases hrange
      exact ⟨m.date.day_pos, m.date.day_le_31⟩
  | hour | minute =>
      cases hrange
      simp only [value]
      omega
  | second =>
      cases hrange
      simp only [value]
      split <;> omega
  | _ => cases hrange

theorem FormatItem.write_of_range? {item : FormatItem} {least greatest : Nat}
    (hrange : item.range? = some (least, greatest)) :
    item.write m = (padded 2 (item.value m)).toList := by
  cases item <;> cases hrange <;> rfl

theorem FormatItem.fill?_of_range? {item : FormatItem} {least greatest : Nat}
    (hrange : item.range? = some (least, greatest)) :
    item.fill? m parts = item.put? (item.value m) parts := by
  cases item <;> cases hrange <;> rfl

theorem FormatItem.greatest_lt {item : FormatItem} {least greatest : Nat}
    (hrange : item.range? = some (least, greatest)) : greatest < 10 ^ 2 := by
  cases item <;> cases hrange <;> decide

/-- A part of a format reads what it writes. -/
theorem FormatItem.reads_write (hyear : m.HasPlainYear) {item : FormatItem} {parts' : Parts}
    (hfill : item.fill? m parts = some parts')
    (hrest : item = .blank → ∀ c ∈ rest.head?, Text.isBlank c = false) :
    item.Reads parts rest (item.write m) parts' := by
  have hnone : ∀ c ∈ ([] : List Char), Text.isBlank c = true := nofun
  cases hrange : item.range? with
  | some range =>
      obtain ⟨least, greatest⟩ := range
      have hvalue := value_mem (m := m) hrange
      have hsmall : item.value m < 10 ^ 2 := hvalue.2.trans_lt (greatest_lt hrange)
      have hdigits := digitsValue_padded hsmall (by decide)
      rw [fill?_of_range? hrange] at hfill
      rw [write_of_range? hrange, ← List.nil_append (padded _ _).toList]
      refine .number hrange hnone (leads_padded hsmall (by decide) rest) ?_ ?_ ?_
      all_goals rw [hdigits]
      exacts [hvalue.1, hvalue.2, hfill]
  | none =>
      cases item with
      | year =>
          have hsmall := hyear.toNat_lt
          have htext : LeadsYear rest (padded 4 m.date.year.toNat).toList _ :=
            .plain (leads_padded hsmall (by decide) rest)
          rw [digitsValue_padded hsmall (by decide), Int.toNat_of_nonneg hyear.1] at htext
          have hreads := @Reads.year parts rest _ _ _ _ hnone htext hfill
          rwa [List.nil_append] at hreads
      | blank =>
          cases hfill
          refine .blank (fun c hc => ?_) (hrest rfl)
          rw [List.mem_singleton.1 hc]
          rfl
      | literal s =>
          cases hfill
          exact .literal s
      | month | day | hour | minute | second => cases hrange

theorem FormatItem.head?_write {item : FormatItem} (hitem : item.isNumber = true)
    (hyear : m.HasPlainYear) : ∀ c ∈ (item.write m ++ rest).head?, Text.isBlank c = false := by
  rw [isNumber, Bool.or_eq_true, beq_iff_eq] at hitem
  rcases hitem with rfl | hitem
  · exact (leads_padded hyear.toNat_lt (by decide) rest).head?_append
  · obtain ⟨⟨least, greatest⟩, hrange⟩ := Option.isSome_iff_exists.1 hitem
    have hsmall : item.value m < 10 ^ 2 := (value_mem hrange).2.trans_lt (greatest_lt hrange)
    rw [write_of_range? hrange]
    exact (leads_padded hsmall (by decide) rest).head?_append

theorem keepsBlanks_cons {item : FormatItem} {format : Format}
    (h : keepsBlanks (item :: format) = true) :
    keepsBlanks format = true ∧ (item = .blank → ∀ next ∈ format.head?, next.isNumber = true) := by
  unfold keepsBlanks at h
  split at h
  · rename_i heq
    cases heq
    rw [Bool.and_eq_true] at h
    refine ⟨h.2, ?_⟩
    rintro - next ⟨⟩
    exact h.1
  · rename_i hother heq
    cases heq
    refine ⟨h, ?_⟩
    rintro rfl next hnext
    obtain ⟨tail, rfl⟩ := List.head?_eq_some_iff.1 hnext
    exact (hother next tail rfl rfl).elim
  · cases ‹_ :: _ = []›

/-- A moment that is written under a format fits it. -/
theorem fits_written (hyear : m.HasPlainYear) {format : Format} {parts' : Parts}
    (hformat : keepsBlanks format = true)
    (hfill : format.foldlM (FormatItem.fill? m) parts = some parts') :
    Fits format parts (written m format) parts' := by
  induction format generalizing parts with
  | nil =>
      cases hfill
      exact .nil _
  | cons item format ih =>
      obtain ⟨hformat, hblank⟩ := keepsBlanks_cons hformat
      obtain ⟨_, hitem, hrest⟩ := Option.bind_eq_some_iff.1 hfill
      refine .cons (FormatItem.reads_write hyear hitem ?_) (ih hformat hrest)
      intro hitem
      cases format with
      | nil => nofun
      | cons next format => exact FormatItem.head?_write (hblank hitem next rfl) hyear

/-- A moment that is written under a format that has all its parts is read again. -/
theorem readMoment_written (hyear : m.HasPlainYear) {format : Format}
    (hformat : keepsBlanks format = true) {parts' : Parts}
    (hfill : format.foldlM (FormatItem.fill? m) ({} : Parts) = some parts') {n : Moment}
    (hnames : parts'.Names n) :
    readMoment format (String.ofList (written m format)) = some n := by
  rw [readMoment_eq_some_iff, Writes, String.toList_ofList]
  exact ⟨_, fits_written hyear hformat hfill, hnames⟩

end

end Calendar

end IpRegistry
