import IpRegistry.Proofs.Address.Shape
import IpRegistry.Proofs.AddressTally.Mentions
import IpRegistry.Proofs.Pattern.Takes

namespace IpRegistry.AddressTally

open Pattern

theorem all_toDigits {cls : Char → Bool} (h : ∀ d < 10, cls (Nat.digitChar d) = true) (n : Nat) :
    ∀ c ∈ Nat.toDigits 10 n, cls c = true := by
  intro c hc
  obtain ⟨digits, hnumeral, htext⟩ := exists_numeral (by decide : 1 < 10) n
  rw [htext] at hc
  obtain ⟨d, hd, rfl⟩ := List.mem_map.1 hc
  exact h d (hnumeral.lt d hd)

theorem isDigit_toDigits (n : Nat) : ∀ c ∈ Nat.toDigits 10 n, Text.isDigit c = true :=
  all_toDigits (by decide) n

theorem length_toDigits_le {n count : Nat} (hcount : 0 < count) (h : n < 10 ^ count) :
    (Nat.toDigits 10 n).length ≤ count :=
  (Nat.length_toDigits_le_iff (by decide) hcount).2 h

variable {before : Option Char} {seen seen' rest : List Char} {mark name : String} {most : Nat}

theorem takes_suffix {n : Nat} (hmost : (Nat.toDigits 10 n).length ≤ most)
    (hstop : (Nat.toDigits 10 n).length = most ∨ ∀ c ∈ rest.head?, Text.isDigit c = false) :
    (suffix mark name most).Takes before (mark.toList ++ Nat.toDigits 10 n) rest
      [(name, Nat.toDigits 10 n)] := by
  have hpos : 0 < (Nat.toDigits 10 n).length := Nat.length_toDigits_pos
  have hcounted : ∀ before, (counted Text.isDigit 1 (most - 1)).Takes before (Nat.toDigits 10 n)
      rest [] := fun _ =>
    .counted (isDigit_toDigits n) hpos (by omega) (hstop.imp_left (by omega))
  exact .optional ((Takes.literal mark.toList _).seq fun _ => (hcounted _).group name)

theorem takes_no_suffix (h : ¬mark.toList <+: rest) :
    (suffix mark name most).Takes before [] rest [] := by
  refine .passed fun t ht => ?_
  have hliteral : (Pattern.ofText mark).outcomes t = [] := outcomes_literal_eq_nil (by rwa [ht])
  rw [outcomes, hliteral, List.flatMap_nil]

theorem takes_octet {p : Pattern} {n : Nat} {found : List (String × List Char)} (h : n < 256)
    (hp : ∀ before, p.Takes before seen rest found) :
    (seq (counted Text.isDigit 1 2) (seq (Pattern.ofText ".") p)).Takes before
      (Nat.toDigits 10 n ++ '.' :: seen) rest found := by
  have hlength : (Nat.toDigits 10 n).length ≤ 3 := length_toDigits_le (by decide) (by omega)
  have hoctet : (counted Text.isDigit 1 2).Takes before (Nat.toDigits 10 n)
      ('.' :: seen ++ rest) [] :=
    .counted (isDigit_toDigits n) Nat.length_toDigits_pos hlength (.inr (by rintro c ⟨rfl⟩; decide))
  have hdot : ∀ before, (Pattern.ofText ".").Takes before ['.'] (seen ++ rest) [] :=
    fun _ => .literal ['.'] _
  have htakes := hoctet.seq fun before => (hdot before).seq hp
  rwa [List.append_nil, List.append_nil] at htakes

theorem takes_dotted {a : Address} (ha : a.family = .v4) (hbefore : before.any Text.isWord = false)
    (hrest : ∀ c ∈ rest.head?, Text.isDigit c = false) :
    (concat [wordBoundary, counted Text.isDigit 1 2, Pattern.ofText ".", counted Text.isDigit 1 2,
      Pattern.ofText ".", counted Text.isDigit 1 2, Pattern.ofText ".",
      counted Text.isDigit 1 2]).Takes before a.text.toList rest [] := by
  obtain ⟨w, x, y, z, hoctets⟩ :=
    Address.exists_eq_of_length_four (Address.length_digitsOf 256 4 a.value)
  have hlt : ∀ o ∈ [w, x, y, z], o < 256 := by
    rw [← hoctets]
    exact fun o ho => Address.lt_of_mem_digitsOf (by decide) ho
  simp only [List.forall_mem_cons, List.not_mem_nil, false_imp_iff, implies_true, and_true] at hlt
  obtain ⟨hw, hx, hy, hz⟩ := hlt
  have htext : a.text.toList = Nat.toDigits 10 w ++ '.' :: (Nat.toDigits 10 x ++ '.' ::
      (Nat.toDigits 10 y ++ '.' :: Nat.toDigits 10 z)) := by
    rw [Address.text, ha, ← Address.toList_dotted, ← hoctets, Address.octets]
  have hlast : ∀ before, (counted Text.isDigit 1 2).Takes before (Nat.toDigits 10 z) rest [] :=
    fun _ => .counted (isDigit_toDigits z) Nat.length_toDigits_pos
      (length_toDigits_le (by decide) (by omega)) (.inr hrest)
  have hbegins : (a.text.toList ++ rest).head?.any Text.isWord = true := by
    obtain ⟨c, digits, hdigits⟩ :=
      List.exists_cons_of_ne_nil (Nat.toDigits_ne_nil (n := w) (b := 10))
    have hword : Text.isWord c = true := all_toDigits (by decide) w c (by simp [hdigits])
    rw [htext, hdigits]
    exact hword
  have hboundary : wordBoundary.Takes before [] (a.text.toList ++ rest) [] :=
    .wordBoundary (by rw [hbefore, hbegins]; rfl)
  rw [htext] at hboundary ⊢
  exact hboundary.seq fun _ => takes_octet hw fun _ => takes_octet hx fun _ => takes_octet hy hlast

/-- The first pattern reads a version 4 address and what may follow it. -/
theorem takes_pattern4 {a : Address} {found found' : List (String × List Char)} (ha : a.family = .v4)
    (hbefore : before.any Text.isWord = false)
    (hrest : ∀ c ∈ (seen ++ (seen' ++ rest)).head?, Text.isDigit c = false)
    (hlength : ∀ before, (suffix "/" "length" 2).Takes before seen (seen' ++ rest) found)
    (hport : ∀ before, (suffix ":" "port" 5).Takes before seen' rest found') :
    pattern4.Takes before (a.text.toList ++ (seen ++ seen')) rest
      (found' ++ found ++ [("address", a.text.toList)]) := by
  have haddress := (takes_dotted ha hbefore hrest).group "address"
  rw [← List.append_assoc] at haddress
  exact haddress.seq fun _ => (hlength _).seq hport

theorem neverBegins_pattern4 {c : Char} (h : Text.isDigit c = false) : pattern4.NeverBegins c := by
  intro t ht
  have hone : (one Text.isDigit).outcomes t.openGroup = [] :=
    outcomes_one_eq_nil fun d hd => by
      rw [show t.openGroup.cursor.rest.head? = some c from ht] at hd
      rwa [← Option.some.inj hd]
  have hoctet : ((counted Text.isDigit 1 2).outcomes t.openGroup) = [] := by
    rw [counted, outcomes, hone, List.flatMap_nil]
  have haddress : ∀ b, (seq wordBoundary (seq (counted Text.isDigit 1 2) b)).outcomes t.openGroup =
      [] := by
    intro b
    rw [outcomes, outcomes]
    split
    · rw [List.flatMap_singleton, outcomes, hoctet, List.flatMap_nil]
    · rfl
  rw [pattern4]
  show (((seq wordBoundary (seq (counted Text.isDigit 1 2) _)).outcomes t.openGroup).map _).flatMap
    _ = []
  rw [haddress]
  rfl

theorem consumes_pattern4 : pattern4.consumes = true := by
  simp [pattern4, concat, consumes, counted]

theorem confined_suffix {sep : Char} (h : Text.isDigit sep = false) (hmark : sep ∉ mark.toList) :
    (suffix mark name most).confined sep = true := by
  simp [suffix, Pattern.optional, Pattern.ofText, confined, confined_counted h, hmark]

theorem confined_pattern4 : pattern4.confined ' ' = true := by
  have hdigit : Text.isDigit ' ' = false := by decide
  have hword : Text.isWord ' ' = false := by decide
  simp [pattern4, concat, confined, confined_counted hdigit, confined_suffix hdigit, hword,
    Pattern.ofText]

/-- In a word a single match mentions something, and its groups have these texts. -/
def FindsOnly (family : Family) (p : Pattern) (cs : List Char) (groups : List (String × List Char)) :
    Prop :=
  ∃ m : Match, found family p cs = (mention? family cs m).toList ∧
    ∀ name, m.text? cs name = groups.lookup name

variable {family : Family} {p : Pattern} {cs lead : List Char} {groups : List (String × List Char)}
  {a : Address}

theorem findsOnly_of_takes (hc : p.consumes = true) (hlead : ∀ c ∈ lead, p.NeverBegins c)
    (h : p.Takes lead.getLast? seen rest groups) (hscarce : Scarce family rest) :
    FindsOnly family p (lead ++ seen ++ rest) groups := by
  obtain ⟨m, hm, hstop, hgroups⟩ := exists_find_of_takes hlead h
  refine ⟨m, found_of_find hc hm hstop hscarce, fun name => ?_⟩
  rw [Match.text?_eq, hgroups]

namespace FindsOnly

variable (ha : a.family = family) (haddress : groups.lookup "address" = some a.text.toList)

include ha haddress

theorem address (h : FindsOnly family p cs groups) (hlength : groups.lookup "length" = none)
    (hport : groups.lookup "port" = none) : found family p cs = [(a.text, none)] := by
  obtain ⟨m, hm, htext⟩ := h
  subst ha
  rw [hm, mention?_address ((htext _).trans haddress) ((htext _).trans hlength), htext, hport]
  rfl

theorem ported {port : Nat} (h : FindsOnly family p cs groups)
    (hlength : groups.lookup "length" = none)
    (hport : groups.lookup "port" = some (Nat.toDigits 10 port)) (hlt : port < 2 ^ 16) :
    found family p cs = [(a.text, some port)] := by
  obtain ⟨m, hm, htext⟩ := h
  subst ha
  rw [hm, mention?_address ((htext _).trans haddress) ((htext _).trans hlength), htext, hport,
    Option.map_some, Option.bind_some, Text.unsigned?_toDigits hlt]
  rfl

theorem block {n : Nat} (h : FindsOnly family p cs groups)
    (hlength : groups.lookup "length" = some (Nat.toDigits 10 n)) (hlt : n < 256) :
    found family p cs = ((Cidr.new a n).toOption.map fun block => (block.text, none)).toList := by
  obtain ⟨m, hm, htext⟩ := h
  subst ha
  rw [hm, mention?_block ((htext _).trans haddress) ((htext _).trans hlength) hlt]

end FindsOnly

/-- A version 4 address is found behind the text and not in it. -/
structure Opens (lead : List Char) : Prop where
  no_digit : ∀ c ∈ lead, Text.isDigit c = false
  last : lead.getLast?.any Text.isWord = false

theorem Opens.nil : Opens [] where
  no_digit := nofun
  last := rfl

theorem findsOnly_v4 (hlead : Opens lead) (h : pattern4.Takes lead.getLast? seen rest groups)
    (hdot : '.' ∉ rest) : FindsOnly .v4 pattern4 (lead ++ seen ++ rest) groups :=
  findsOnly_of_takes consumes_pattern4 (fun c hc => neverBegins_pattern4 (hlead.no_digit c hc)) h hdot

theorem found_v4_address (ha : a.family = .v4) (hlead : Opens lead) (hscarce : '.' ∉ rest)
    (hrest : ∀ c ∈ rest.head?, Text.isDigit c = false ∧ c ≠ '/' ∧ c ≠ ':') :
    found .v4 pattern4 (lead ++ a.text.toList ++ rest) = [(a.text, none)] := by
  have hno : ∀ mark, mark = '/' ∨ mark = ':' → ¬[mark] <+: rest := by
    rintro mark hmark ⟨more, rfl⟩
    have hne := (hrest mark rfl).2
    rcases hmark with rfl | rfl
    · exact hne.1 rfl
    · exact hne.2 rfl
  have hlength : ∀ before, (suffix "/" "length" 2).Takes before [] ([] ++ rest) [] :=
    fun _ => takes_no_suffix (hno '/' (.inl rfl))
  have hport : ∀ before, (suffix ":" "port" 5).Takes before [] rest [] :=
    fun _ => takes_no_suffix (hno ':' (.inr rfl))
  have hstop : ∀ c ∈ ([] ++ ([] ++ rest)).head?, Text.isDigit c = false := fun c hc => (hrest c hc).1
  have htakes := takes_pattern4 ha hlead.last hstop hlength hport
  rw [List.append_nil, List.append_nil] at htakes
  exact (findsOnly_v4 hlead htakes hscarce).address ha rfl rfl rfl

theorem found_v4_ported {port : Nat} (ha : a.family = .v4) (hport : port < 2 ^ 16) :
    found .v4 pattern4 (a.text.toList ++ ':' :: Nat.toDigits 10 port) = [(a.text, some port)] := by
  have hlength : (Nat.toDigits 10 port).length ≤ 5 := length_toDigits_le (by decide) (by omega)
  have hnone : ∀ before, (suffix "/" "length" 2).Takes before []
      (":".toList ++ Nat.toDigits 10 port ++ []) [] := fun _ => takes_no_suffix (by simp)
  have hsuffix : ∀ before, (suffix ":" "port" 5).Takes before (":".toList ++ Nat.toDigits 10 port) []
      [("port", Nat.toDigits 10 port)] := fun _ => takes_suffix hlength (.inr nofun)
  have htakes := takes_pattern4 ha Opens.nil.last (by rintro c ⟨rfl⟩; decide) hnone hsuffix
  simpa using (findsOnly_v4 .nil htakes List.not_mem_nil).ported ha rfl rfl rfl hport

/-- As much of a number as two digits can hold. -/
def twoDigits (n : Nat) : Nat :=
  if n < 100 then n else n / 10

theorem exists_toDigits_twoDigits {n : Nat} (h : n < 1000) :
    ∃ more, Nat.toDigits 10 n = Nat.toDigits 10 (twoDigits n) ++ more ∧
      (Nat.toDigits 10 (twoDigits n)).length ≤ 2 ∧
      ((Nat.toDigits 10 (twoDigits n)).length = 2 ∨ more = []) ∧ ∀ c ∈ more, c.isDigit = true := by
  rw [twoDigits]
  split
  · rename_i hlt
    exact ⟨[], (List.append_nil _).symm, length_toDigits_le (by decide) hlt, .inr rfl, nofun⟩
  · rename_i hge
    have hle : (Nat.toDigits 10 (n / 10)).length ≤ 2 := length_toDigits_le (by decide) (by omega)
    have hlt : ¬(Nat.toDigits 10 (n / 10)).length ≤ 1 := by
      rw [Nat.length_toDigits_le_iff (by decide) (by decide)]
      omega
    refine ⟨_, Nat.toDigits_of_base_le (by decide) (by omega), hle, .inl (by omega), ?_⟩
    intro c hc
    rw [List.mem_singleton.1 hc, Nat.isDigit_digitChar]
    exact decide_eq_true (Nat.mod_lt n (by decide))

/-- No more than two digits of the number of fixed bits are read. -/
theorem found_v4_block {n : Nat} (ha : a.family = .v4) (hlead : Opens lead) (hn : n < 256) :
    found .v4 pattern4 (lead ++ a.text.toList ++ '/' :: Nat.toDigits 10 n) =
      ((Cidr.new a (twoDigits n)).toOption.map fun block => (block.text, none)).toList := by
  obtain ⟨more, hmore, hlength, hstop, hdigits⟩ := exists_toDigits_twoDigits (n := n) (by omega)
  have hdot : '.' ∉ more := fun hmem => absurd (hdigits _ hmem) (by decide)
  have hcolon : ¬":".toList <+: more := by
    rintro ⟨tail, rfl⟩
    exact absurd (hdigits ':' (by simp)) (by decide)
  have hsuffix : ∀ before, (suffix "/" "length" 2).Takes before
      ("/".toList ++ Nat.toDigits 10 (twoDigits n)) ([] ++ more)
      [("length", Nat.toDigits 10 (twoDigits n))] := fun _ =>
    takes_suffix hlength (hstop.imp_right fun hnil => by rw [hnil]; exact nofun)
  have hnone : ∀ before, (suffix ":" "port" 5).Takes before [] more [] := fun _ =>
    takes_no_suffix hcolon
  have htakes := takes_pattern4 ha hlead.last (by rintro c ⟨rfl⟩; decide) hsuffix hnone
  have htwo : twoDigits n < 256 := by
    rw [twoDigits]
    split <;> omega
  simpa [hmore] using (findsOnly_v4 hlead htakes hdot).block ha rfl rfl htwo

/-- The text of a version 6 address as the second pattern reads it. -/
structure Parts (text hexes middle : List Char) (last : Char) : Prop where
  eq : text = hexes ++ ':' :: (middle ++ [last])
  isHexDigit : ∀ c ∈ hexes, isHexDigit c = true
  length_le : hexes.length ≤ 4
  isAddressChar : ∀ c ∈ middle, isAddressChar c = true
  isHexOrColon : isHexOrColon last = true

theorem isAddressChar_of_mem_text {a : Address} : ∀ c ∈ a.text.toList, isAddressChar c = true := by
  intro c hc
  have hall : "0123456789abcdef.:".toList.all isAddressChar = true := by decide
  exact List.all_eq_true.1 hall c (Address.mem_of_mem_text hc)

theorem exists_parts (ha : a.family = .v6) :
    ∃ hexes middle last, Parts a.text.toList hexes middle last := by
  obtain ⟨hexes, tail, htext, hhexes, hlength⟩ := Address.exists_first_hexes ha
  have hcount := Address.two_le_count_colon ha
  have hcolon : ':' ∉ hexes := fun hmem => absurd (hhexes ':' hmem) (by decide)
  have hne : tail ≠ [] := by
    rintro rfl
    rw [htext, List.count_append, List.count_eq_zero.2 hcolon] at hcount
    exact absurd hcount (by decide)
  obtain ⟨middle, last, rfl⟩ := (List.eq_nil_or_concat tail).resolve_left hne
  rw [List.concat_eq_append] at htext
  have hback : a.text.toList = hexes ++ ':' :: middle ++ [last] := by simp [htext]
  have hall := isAddressChar_of_mem_text (a := a)
  refine ⟨hexes, middle, last, htext, ?_, hlength, fun c hc => hall c (by simp [htext, hc]), ?_⟩
  · intro c hc
    have hdigits : "0123456789abcdef".toList.all isHexDigit = true := by decide
    exact List.all_eq_true.1 hdigits c (hhexes c hc)
  · have hdot : last ≠ '.' := Address.last_ne_dot a last (by rw [hback, List.getLast?_concat]; rfl)
    have hlast := hall last (by simp [htext])
    simpa [isAddressChar, hdot] using hlast

theorem takes_brackets {text : List Char} (htext : ∀ c ∈ text, isAddressChar c = true)
    (hne : text ≠ [])
    (hport : ∀ before, (suffix ":" "port" 5).Takes before seen rest groups) :
    pattern6.Takes before ('[' :: (text ++ ']' :: seen)) rest (groups ++ [("address", text)]) := by
  have hopen : (Pattern.ofText "[").Takes before ['['] (text ++ ']' :: seen ++ rest) [] :=
    .literal ['['] _
  have haddress : ∀ before, (group "address" (atLeastOne true isAddressChar)).Takes before text
      (']' :: seen ++ rest) [("address", text)] := fun _ =>
    (Takes.atLeastOne htext hne (by rintro c ⟨rfl⟩; decide)).group "address"
  have hclose : ∀ before, (Pattern.ofText "]").Takes before [']'] (seen ++ rest) [] := fun _ =>
    .literal [']'] _
  have htakes := hopen.seq fun _ => (haddress _).seq fun _ => (hclose _).seq hport
  rw [List.append_nil, List.append_nil] at htakes
  exact htakes.alt_left

theorem takes_bare {text hexes middle : List Char} {last : Char} (h : Parts text hexes middle last)
    (hlength : ∀ before, (suffix "/" "length" 3).Takes before seen rest groups)
    (hstop : ∀ c ∈ (seen ++ rest).head?, isAddressChar c = false) :
    pattern6.Takes before (text ++ seen) rest (groups ++ [("address", text)]) := by
  have hhexes : (counted isHexDigit 0 4).Takes before hexes
      (':' :: (middle ++ [last]) ++ (seen ++ rest)) [] :=
    .counted h.isHexDigit (Nat.zero_le _) (by have := h.length_le; omega)
      (.inr (by rintro c ⟨rfl⟩; decide))
  have hcolon : ∀ before, (Pattern.ofText ":").Takes before [':']
      (middle ++ [last] ++ (seen ++ rest)) [] := fun _ => .literal [':'] _
  have hmore : ∀ before, (seq (many true isAddressChar) (one isHexOrColon)).Takes before
      (middle ++ [last]) (seen ++ rest) [] := fun _ =>
    .many_one (fun c hc => by rw [isAddressChar, hc, Bool.true_or]) h.isAddressChar h.isHexOrColon
      hstop
  have haddress := (hhexes.seq fun _ => (hcolon _).seq hmore).group "address"
  refine Takes.alt_right (fun t ht => ?_) ?_
  · have hliteral : (Pattern.ofText "[").outcomes t = [] := by
      refine outcomes_literal_eq_nil ?_
      rintro ⟨more, hmore⟩
      rw [ht, h.eq] at hmore
      cases hexes with
      | nil => cases hmore
      | cons c hexes =>
          cases hmore
          exact absurd (h.isHexDigit '[' List.mem_cons_self) (by decide)
    show ((Pattern.ofText "[").outcomes t).flatMap _ = []
    rw [hliteral, List.flatMap_nil]
  · have htakes := haddress.seq hlength
    rw [h.eq]
    exact htakes

theorem consumes_pattern6 : pattern6.consumes = true := by
  simp [pattern6, oneOf, concat, atLeastOne, Pattern.ofText, consumes]

theorem confined_pattern6 : pattern6.confined ' ' = true := by
  have hdigit : Text.isDigit ' ' = false := by decide
  have hhex : isHexDigit ' ' = false := by decide
  have hor : isHexOrColon ' ' = false := by decide
  have haddress : isAddressChar ' ' = false := by decide
  simp [pattern6, oneOf, concat, atLeastOne, confined, confined_counted hhex, confined_suffix hdigit,
    hor, haddress, Pattern.ofText]

theorem findsOnly_v6 (h : pattern6.Takes none seen [] groups) :
    FindsOnly .v6 pattern6 seen groups := by
  have hfinds : FindsOnly .v6 pattern6 ([] ++ seen ++ []) groups :=
    findsOnly_of_takes consumes_pattern6 nofun h Nat.zero_lt_two
  rwa [List.nil_append, List.append_nil] at hfinds

theorem found_v6_address (ha : a.family = .v6) :
    found .v6 pattern6 a.text.toList = [(a.text, none)] := by
  obtain ⟨hexes, middle, last, hparts⟩ := exists_parts ha
  have htakes : pattern6.Takes none (a.text.toList ++ []) [] _ :=
    takes_bare hparts (fun _ => takes_no_suffix (by simp)) nofun
  rw [List.append_nil] at htakes
  exact (findsOnly_v6 htakes).address ha rfl rfl rfl

theorem found_v6_block {n : Nat} (ha : a.family = .v6) (hn : n < 256) :
    found .v6 pattern6 (a.text.toList ++ '/' :: Nat.toDigits 10 n) =
      ((Cidr.new a n).toOption.map fun block => (block.text, none)).toList := by
  obtain ⟨hexes, middle, last, hparts⟩ := exists_parts ha
  have hlength : (Nat.toDigits 10 n).length ≤ 3 := length_toDigits_le (by decide) (by omega)
  have htakes : pattern6.Takes none (a.text.toList ++ ("/".toList ++ Nat.toDigits 10 n)) [] _ :=
    takes_bare hparts (fun _ => takes_suffix hlength (.inr nofun)) (by rintro c ⟨rfl⟩; decide)
  exact (findsOnly_v6 htakes).block ha rfl rfl hn

theorem found_v6_bracketed (ha : a.family = .v6) :
    found .v6 pattern6 ('[' :: (a.text.toList ++ [']'])) = [(a.text, none)] := by
  have htakes : pattern6.Takes none ('[' :: (a.text.toList ++ [']'])) [] _ :=
    takes_brackets isAddressChar_of_mem_text (Address.text_ne_nil a) fun _ => takes_no_suffix (by simp)
  exact (findsOnly_v6 htakes).address ha rfl rfl rfl

theorem found_v6_ported {port : Nat} (ha : a.family = .v6) (hport : port < 2 ^ 16) :
    found .v6 pattern6 ('[' :: (a.text.toList ++ ']' :: ':' :: Nat.toDigits 10 port)) =
      [(a.text, some port)] := by
  have hlength : (Nat.toDigits 10 port).length ≤ 5 := length_toDigits_le (by decide) (by omega)
  have htakes : pattern6.Takes none
      ('[' :: (a.text.toList ++ ']' :: (":".toList ++ Nat.toDigits 10 port))) [] _ :=
    takes_brackets isAddressChar_of_mem_text (Address.text_ne_nil a) fun _ =>
      takes_suffix hlength (.inr nofun)
  exact (findsOnly_v6 htakes).ported ha rfl rfl rfl hport

end IpRegistry.AddressTally
