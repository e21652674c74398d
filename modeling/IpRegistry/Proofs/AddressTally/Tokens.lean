import IpRegistry.Proofs.AddressTally.Counts
import IpRegistry.Proofs.AddressTally.Matches
import IpRegistry.Proofs.Cidr.RoundTrip
import Mathlib.Data.List.Perm.Basic

namespace IpRegistry.AddressTally

open Pattern

/-- An address, an address with a port, a version 6 address in brackets, or a block. -/
inductive Token where
  | bare (a : Address)
  | ported (a : Address) (port : Fin (2 ^ 16))
  | bracketed (a : Address) (ha : a.family = .v6)
  | block (c : Cidr)

namespace Token

/-- The canonical text; a version 6 address stands in brackets before a port. -/
def text : Token → String
  | bare a => a.text
  | ported a port =>
    match a.family with
    | .v4 => a.text ++ ":" ++ toString port.val
    | .v6 => "[" ++ a.text ++ "]:" ++ toString port.val
  | bracketed a _ => "[" ++ a.text ++ "]"
  | block c => c.text

def mention : Token → String × Option Nat
  | bare a => (a.text, none)
  | ported a port => (a.text, some port.val)
  | bracketed a _ => (a.text, none)
  | block c => (c.text, none)

def address : Token → Address
  | bare a | ported a _ | bracketed a _ => a
  | block c => c.first

/-- What is mentioned by the bytes at the end of a version 6 address that stands for one of version 4.
No more than two digits of a number of fixed bits are read behind them. -/
def shadow? : Token → Option (String × Option Nat)
  | bare a | ported a _ | bracketed a _ =>
    if a.isMapped then some ((Address.ofNat .v4 a.value).text, none) else none
  | block c =>
    if c.first.isMapped then
      (Cidr.new (.ofNat .v4 c.network) (twoDigits c.prefixLen)).toOption.map fun b => (b.text, none)
    else none

end Token

theorem shadow?_eq_none {t : Token} (ht : t.address.isMapped = false) : t.shadow? = none := by
  cases t with
  | bare a | ported a port | bracketed a ha | block c =>
      rw [Token.shadow?]
      exact if_neg (Bool.eq_false_iff.1 ht)

theorem scarce_text_append {a : Address} {more : List Char} (ha : a.family = .v4)
    (hmore : more.count ':' < 2) : Scarce .v6 (a.text.toList ++ more) := by
  show List.count ':' _ < 2
  rwa [List.count_append, List.count_eq_zero.2 (Address.colon_not_mem_text ha), Nat.zero_add]

theorem colon_not_mem_toDigits (n : Nat) : ':' ∉ Nat.toDigits 10 n := fun hmem =>
  absurd (isDigit_toDigits n ':' hmem) (by decide)

theorem twoDigits_prefixLen {c : Cidr} (hc : c.family = .v4) :
    twoDigits c.prefixLen = c.prefixLen := by
  have hle := c.prefixLen_le
  rw [hc] at hle
  exact if_pos (Nat.lt_of_le_of_lt hle (by decide))

/-- A version 4 address is found with its port or its number of fixed bits, and nothing else. -/
theorem found_of_v4 {t : Token} (ht : t.address.family = .v4) :
    found .v4 pattern4 t.text.toList = [t.mention] ∧ found .v6 pattern6 t.text.toList = [] := by
  cases t with
  | bare a =>
      have hfound : found .v4 pattern4 ([] ++ a.text.toList ++ []) = [(a.text, none)] :=
        found_v4_address ht .nil List.not_mem_nil nofun
      have hscarce : Scarce .v6 (a.text.toList ++ []) := scarce_text_append ht (by decide)
      rw [List.append_nil] at hfound hscarce
      exact ⟨hfound, found_of_scarce consumes_pattern6 hscarce⟩
  | ported a port =>
      have htext : (Token.ported a port).text.toList =
          a.text.toList ++ ':' :: Nat.toDigits 10 port := by
        rw [Token.text, show a.family = .v4 from ht]
        simp
      have hscarce : Scarce .v6 (a.text.toList ++ ':' :: Nat.toDigits 10 port) := by
        refine scarce_text_append ht ?_
        rw [List.count_cons_self, List.count_eq_zero.2 (colon_not_mem_toDigits port)]
        decide
      rw [htext]
      exact ⟨found_v4_ported ht port.isLt, found_of_scarce consumes_pattern6 hscarce⟩
  | bracketed a ha =>
      rw [show a.family = .v4 from ht] at ha
      cases ha
  | block c =>
      have hfound := found_v4_block (a := c.first) ht .nil c.prefixLen_lt
      have hscarce : Scarce .v6 (c.first.text.toList ++ '/' :: Nat.toDigits 10 c.prefixLen) := by
        refine scarce_text_append ht ?_
        rw [List.count_cons_of_ne (by decide), List.count_eq_zero.2 (colon_not_mem_toDigits _)]
        decide
      rw [twoDigits_prefixLen ht, Cidr.new_first] at hfound
      rw [Token.text, Cidr.toList_text]
      exact ⟨hfound, found_of_scarce consumes_pattern6 hscarce⟩

theorem opens_of_all {lead : List Char} (hall : lead.all (!Text.isDigit ·) = true)
    (hlast : lead.getLast?.any Text.isWord = false) : Opens lead where
  no_digit c hc := by simpa using List.all_eq_true.1 hall c hc
  last := hlast

theorem opens_mapped : Opens "::ffff:".toList :=
  opens_of_all (by decide) (by decide)

theorem opens_bracketed : Opens ('[' :: "::ffff:".toList) :=
  opens_of_all (by decide) (by decide)

/-- In a version 6 address the first pattern finds the bytes at its end, if it stands for a version 4
address. -/
theorem found_v4_of_v6 {a : Address} {lead rest : List Char} (ha : a.family = .v6)
    (hlead : Opens (lead ++ "::ffff:".toList)) (hno : '.' ∉ lead) (hdot : '.' ∉ rest)
    (hrest : ∀ c ∈ rest.head?, Text.isDigit c = false ∧ c ≠ '/' ∧ c ≠ ':') :
    found .v4 pattern4 (lead ++ a.text.toList ++ rest) =
      (if a.isMapped then some ((Address.ofNat .v4 a.value).text, none) else none).toList := by
  cases hmapped : a.isMapped with
  | true =>
      have hfound := found_v4_address (a := .ofNat .v4 a.value) rfl hlead hdot hrest
      rwa [List.append_assoc lead, ← Address.toList_text_of_isMapped ha hmapped] at hfound
  | false =>
      have htext := Address.dot_not_mem_text ha hmapped
      exact found_of_scarce consumes_pattern4
        (List.not_mem_append (List.not_mem_append hno htext) hdot)

theorem found_v4_of_v6_block {c : Cidr} (hc : c.family = .v6) :
    found .v4 pattern4 c.text.toList = (Token.block c).shadow?.toList := by
  have hdigits : '.' ∉ '/' :: Nat.toDigits 10 c.prefixLen := by
    simp [Address.dot_not_mem_toDigits]
  rw [Token.shadow?, Cidr.toList_text]
  cases hmapped : c.first.isMapped with
  | true =>
      have hfound := found_v4_block (a := .ofNat .v4 c.first.value) rfl opens_mapped
        c.prefixLen_lt
      rwa [← Address.toList_text_of_isMapped (a := c.first) hc hmapped] at hfound
  | false =>
      have htext := Address.dot_not_mem_text (a := c.first) hc hmapped
      exact found_of_scarce consumes_pattern4 (List.not_mem_append htext hdigits)

/-- A version 6 address is found whole; the first pattern finds the bytes at its end. -/
theorem found_of_v6 {t : Token} (ht : t.address.family = .v6) :
    found .v4 pattern4 t.text.toList = t.shadow?.toList ∧
      found .v6 pattern6 t.text.toList = [t.mention] := by
  cases t with
  | bare a =>
      have hfound : found .v4 pattern4 ([] ++ a.text.toList ++ []) = (Token.bare a).shadow?.toList :=
        found_v4_of_v6 ht opens_mapped List.not_mem_nil List.not_mem_nil nofun
      rw [List.append_nil] at hfound
      exact ⟨hfound, found_v6_address ht⟩
  | ported a port =>
      have htext : (Token.ported a port).text.toList =
          '[' :: (a.text.toList ++ ']' :: ':' :: Nat.toDigits 10 port) := by
        rw [Token.text, show a.family = .v6 from ht]
        simp
      have hdot : '.' ∉ ']' :: ':' :: Nat.toDigits 10 port := by
        simp [Address.dot_not_mem_toDigits]
      have hfound : found .v4 pattern4 (['['] ++ a.text.toList ++ ']' :: ':' :: Nat.toDigits 10 port) =
          (Token.ported a port).shadow?.toList :=
        found_v4_of_v6 ht opens_bracketed (by decide) hdot (by rintro c ⟨rfl⟩; decide)
      rw [htext]
      exact ⟨hfound, found_v6_ported ht port.isLt⟩
  | bracketed a ha =>
      have htext : (Token.bracketed a ha).text.toList = '[' :: (a.text.toList ++ [']']) := by
        rw [Token.text]
        simp
      have hfound : found .v4 pattern4 (['['] ++ a.text.toList ++ [']']) =
          (Token.bracketed a ha).shadow?.toList :=
        found_v4_of_v6 ht opens_bracketed (by decide) (by decide) (by rintro c ⟨rfl⟩; decide)
      rw [htext]
      exact ⟨hfound, found_v6_bracketed ht⟩
  | block c =>
      have hfound := found_v6_block (a := c.first) ht c.prefixLen_lt
      rw [Cidr.new_first, ← Cidr.toList_text] at hfound
      exact ⟨found_v4_of_v6_block ht, hfound⟩

/-- The tokens with spaces between them. -/
def spaced (tokens : List Token) : String :=
  " ".intercalate (tokens.map Token.text)

theorem found_spaced {family : Family} {p : Pattern} (hp : p.confined ' ' = true)
    (hc : p.consumes = true) (tokens : List Token) :
    found family p (spaced tokens).toList = tokens.flatMap fun t => found family p t.text.toList := by
  rw [spaced, String.toList_intercalate]
  show found family p ([' '].intercalate _) = _
  rw [found_intercalate hp hc, List.flatMap_map, List.flatMap_map]

theorem found_token (t : Token) :
    (found .v4 pattern4 t.text.toList ++ found .v6 pattern6 t.text.toList).Perm
      (t.mention :: t.shadow?.toList) := by
  cases ht : t.address.family with
  | v4 =>
      obtain ⟨hfour, hsix⟩ := found_of_v4 ht
      rw [hfour, hsix, shadow?_eq_none (Address.isMapped_eq_false ht)]
      exact .refl _
  | v6 =>
      obtain ⟨hfour, hsix⟩ := found_of_v6 ht
      rw [hfour, hsix]
      exact List.perm_append_singleton ..

/-- Every token is mentioned once, and so are the bytes at the ends of tokens. -/
theorem mentions_spaced (tokens : List Token) :
    (mentions (spaced tokens)).Perm
      (tokens.map Token.mention ++ tokens.filterMap Token.shadow?) := by
  have heach := List.Perm.flatMap_left tokens fun t _ => found_token t
  rw [mentions_eq, found_spaced confined_pattern4 consumes_pattern4,
    found_spaced confined_pattern6 consumes_pattern6, List.filterMap_eq_flatMap_toList]
  exact (List.flatMap_append_perm ..).trans (heach.trans (List.map_append_flatMap_perm ..).symm)

theorem tally_spaced (tokens : List Token) :
    Tally (tokens.map Token.mention ++ tokens.filterMap Token.shadow?) (ofText (spaced tokens)) :=
  (tally_ofText _).perm (mentions_spaced tokens)

/-- A block of addresses that stand for version 4 addresses has their mark among its fixed bits. -/
theorem le_prefixLen_of_isMapped {c : Cidr} (hmapped : c.first.isMapped = true) :
    96 ≤ c.prefixLen := by
  by_contra hlt
  have hfamily : c.family = .v6 := by
    cases hfamily : c.family with
    | v4 =>
        rw [Address.isMapped_eq_false hfamily] at hmapped
        cases hmapped
    | v6 => rfl
  have haligned := c.aligned
  rw [hfamily] at haligned
  have hdvd : 2 ^ 33 ∣ c.network :=
    (Nat.pow_dvd_pow 2 (show 33 ≤ 128 - c.prefixLen by omega)).trans haligned
  have hmark : c.network / 2 ^ 32 = 0xffff := by simpa [Address.isMapped] using hmapped
  omega

theorem shadow?_ne_none_iff (t : Token) :
    t.shadow? ≠ none ↔ t.address.isMapped = true ∧ ∀ c, t = .block c → 100 ≤ c.prefixLen := by
  cases t with
  | bare a | ported a port | bracketed a ha => simp [Token.shadow?, Token.address]
  | block c =>
      have hnew : (Cidr.new (.ofNat .v4 c.network) (twoDigits c.prefixLen)).toOption ≠ none ↔
          twoDigits c.prefixLen ≤ 32 := by
        unfold Cidr.new
        split
        · rename_i hle
          exact iff_of_true (Option.some_ne_none _) hle
        · rename_i hgt
          exact iff_of_false (fun hne => hne rfl) hgt
      have hdigits : c.first.isMapped = true →
          (twoDigits c.prefixLen ≤ 32 ↔ 100 ≤ c.prefixLen) := by
        intro hmapped
        have hge := le_prefixLen_of_isMapped hmapped
        have hlt := c.prefixLen_lt
        rw [twoDigits]
        split <;> omega
      cases hmapped : c.first.isMapped with
      | true =>
          rw [Token.shadow?, if_pos hmapped, Ne, Option.map_eq_none_iff, ← Ne, hnew, hdigits hmapped]
          simp [Token.address, hmapped]
      | false =>
          rw [shadow?_eq_none (t := .block c) hmapped]
          simp [Token.address, hmapped]

/-- Each token is counted once under its text, with its port, and each version 4 address or block at
the end of a token is. These are the counts of the tokens alone exactly if no token has such an end: a
version 6 address that stands for one of version 4 has it, and so has a block of such addresses with
at least a hundred fixed bits. -/
theorem tally_of_tokens (tokens : List Token) :
    Tally (tokens.map Token.mention ++ tokens.filterMap Token.shadow?) (ofText (spaced tokens)) ∧
    (Tally (tokens.map Token.mention) (ofText (spaced tokens)) ↔ ∀ t ∈ tokens, t.shadow? = none) ∧
    ∀ t : Token,
      t.shadow? ≠ none ↔ t.address.isMapped = true ∧ ∀ c, t = .block c → 100 ≤ c.prefixLen := by
  refine ⟨tally_spaced tokens, ?_, shadow?_ne_none_iff⟩
  rw [← List.filterMap_eq_nil_iff]
  constructor
  · intro htally
    have hsum := htally.sum_count.symm.trans (tally_spaced tokens).sum_count
    rw [List.length_append] at hsum
    exact List.eq_nil_of_length_eq_zero (by omega)
  · intro hnone
    have htally := tally_spaced tokens
    rwa [hnone, List.append_nil] at htally

theorem tally_of_tokens_mapped :
    let a : Address := ⟨.v6, 0xffff01020304, by decide⟩
    let b : Address := ⟨.v4, 0x01020304, by decide⟩
    spaced [.bare a, .ported b 80] = "::ffff:1.2.3.4 1.2.3.4:80" ∧
      Tally [("::ffff:1.2.3.4", none), ("1.2.3.4", some 80), ("1.2.3.4", none)]
        (ofText (spaced [.bare a, .ported b 80])) := by
  intro a b
  have hseen : [Token.bare a, .ported b 80].map Token.mention ++
      [Token.bare a, .ported b 80].filterMap Token.shadow? =
        [("::ffff:1.2.3.4", none), ("1.2.3.4", some 80), ("1.2.3.4", none)] := by decide +kernel
  refine ⟨by decide +kernel, ?_⟩
  have htally := (tally_of_tokens [.bare a, .ported b 80]).1
  rwa [hseen] at htally

/-- The address at the end of one token is counted as if it stood there by itself. -/
theorem mapped_address_counted_twice :
    let a : Address := ⟨.v6, 0xffff01020304, by decide⟩
    spaced [.bare a] = "::ffff:1.2.3.4" ∧
      ¬Tally ([Token.bare a].map Token.mention) (ofText (spaced [.bare a])) := by
  intro a
  refine ⟨by decide +kernel, fun htally => ?_⟩
  have hsum := htally.sum_count.symm.trans (tally_spaced [.bare a]).sum_count
  have hshadow : ([Token.bare a].filterMap Token.shadow?).length = 1 := by decide +kernel
  rw [List.length_append, hshadow] at hsum
  cases hsum

end IpRegistry.AddressTally
