import IpRegistry.AddressTally
import IpRegistry.Proofs.Address.Forms
import IpRegistry.Proofs.Pattern.Pieces

namespace IpRegistry.AddressTally

open Pattern
open Text (byteLength)

variable {family : Family} {p : Pattern} {cs cs' front back : List Char} {m m' : Match}

/-- What the matches of a pattern mention. -/
def found (family : Family) (p : Pattern) (cs : List Char) : List (String × Option Nat) :=
  (p.findAll cs).filterMap (mention? family cs)

theorem mentions_eq (s : String) :
    mentions s = found .v4 pattern4 s.toList ++ found .v6 pattern6 s.toList :=
  rfl

/-- What a match mentions depends on the texts of its groups alone. -/
theorem mention?_congr (h : ∀ name, m.text? cs name = m'.text? cs' name) :
    mention? family cs m = mention? family cs' m' := by
  simp only [mention?, h]

section

variable (hp : p.confined ' ' = true) (hc : p.consumes = true)

include hp hc

theorem found_append (a b : List Char) :
    found family p (a ++ ' ' :: b) = found family p a ++ found family p b := by
  rw [found, findAll_append hp hc, List.filterMap_append, List.filterMap_map]
  congr 1
  · refine List.filterMap_congr fun m hm => mention?_congr fun name => ?_
    exact Match.text?_append_left ((findAllFrom_apart hc a 0).1 m hm).1 _ name
  · refine List.filterMap_congr fun m _ => mention?_congr fun name => ?_
    have hshift := Match.text?_shift (a ++ [' ']) b m name
    rwa [List.append_assoc] at hshift

theorem found_intercalate (words : List (List Char)) :
    found family p ([' '].intercalate words) = words.flatMap (found family p) := by
  induction words with
  | nil =>
      show (p.findAll []).filterMap _ = _
      rw [findAll_nil hc]
      rfl
  | cons word words ih =>
      cases words with
      | nil => rw [List.intercalate_singleton, List.flatMap_singleton]
      | cons next words =>
          rw [List.intercalate_cons_cons, List.append_assoc, List.singleton_append,
            found_append hp hc, ih]
          rfl

end

/-- The text has too few separators for an address of the family. -/
def Scarce : Family → List Char → Prop
  | .v4, cs => '.' ∉ cs
  | .v6, cs => cs.count ':' < 2

theorem Scarce.sublist (h : Scarce family cs) (hsub : front.Sublist cs) : Scarce family front := by
  cases family with
  | v4 => exact fun hmem => h (hsub.subset hmem)
  | v6 => exact (hsub.count_le ':').trans_lt h

theorem not_scarce_of_parse? {s : String} {a : Address} (h : Address.parse? s = some a) :
    ¬Scarce a.family s.toList := by
  rcases Address.parse?_cases h with ⟨hfamily, hdotted⟩ | ⟨hfamily, -, groups, hgroups, -⟩
  · rw [hfamily]
    exact fun hscarce => hscarce hdotted.dot_mem
  · have hcount := (Address.exists_of_readSixGroups hgroups).1
    rw [hfamily]
    exact fun hscarce => absurd hcount (Nat.not_le_of_lt hscarce)

theorem mention?_eq_none
    (h : ∀ address, m.text? cs "address" = some address → Scarce family address) :
    mention? family cs m = none := by
  unfold mention?
  cases haddress : m.text? cs "address" with
  | none => simp [haddress]
  | some address =>
      cases hparse : Address.parse? (String.ofList address) with
      | none => simp [haddress, hparse]
      | some a =>
          have hfamily : a.family ≠ family := by
            rintro rfl
            refine not_scarce_of_parse? hparse ?_
            rw [String.toList_ofList]
            exact h address haddress
          simp [haddress, hparse, hfamily]

/-- The groups of a match behind a place have texts that stand behind it. -/
theorem text?_sublist {name : String} {text : List Char}
    (h : m.Within (front ++ back) (byteLength front))
    (ht : m.text? (front ++ back) name = some text) : text.Sublist back := by
  obtain ⟨span, hgroup, rfl⟩ := Option.map_eq_some_iff.1 ht
  have hspan := h.of_group? hgroup
  obtain ⟨i, hi⟩ := Nat.exists_eq_add_of_le (h.whole.earliest_le.trans hspan.earliest_le)
  obtain ⟨j, hj⟩ := Nat.exists_eq_add_of_le
    (h.whole.earliest_le.trans (hspan.earliest_le.trans hspan.start_le))
  rw [hi, hj, Text.slice_append]
  exact Text.slice_sublist back i j

theorem mentions_behind_eq_nil (front : List Char) (hc : p.consumes = true) (h : Scarce family back) :
    (p.findAllFrom (front ++ back) (byteLength front)).filterMap (mention? family (front ++ back)) =
      [] := by
  refine List.filterMap_eq_nil_iff.2 fun m hm => mention?_eq_none fun address haddress => ?_
  exact h.sublist (text?_sublist ((findAllFrom_apart hc _ _).1 m hm).1 haddress)

theorem found_of_scarce (hc : p.consumes = true) (h : Scarce family cs) : found family p cs = [] :=
  mentions_behind_eq_nil [] hc h

/-- If nothing can be mentioned behind the first match, the text mentions what this match does. -/
theorem found_of_find (hc : p.consumes = true) (hm : p.find (front ++ back) 0 = some m)
    (hstop : m.whole.stop = byteLength front) (h : Scarce family back) :
    found family p (front ++ back) = (mention? family (front ++ back) m).toList := by
  have hlt := lt_of_find hc (Nat.zero_le _) hm
  rw [found, findAll, findAllFrom_of_eq_some (Nat.zero_le _) hm hlt, hstop, List.filterMap_cons,
    mentions_behind_eq_nil front hc h]
  cases mention? family (front ++ back) m <;> rfl

variable {a : Address}

theorem mention?_address (haddress : m.text? cs "address" = some a.text.toList)
    (hlength : m.text? cs "length" = none) :
    mention? a.family cs m = some (a.text,
      ((m.text? cs "port").map String.ofList).bind (Text.unsigned? (2 ^ 16))) := by
  simp [mention?, haddress, hlength, Address.parse?_text]

theorem mention?_block {n : Nat} (haddress : m.text? cs "address" = some a.text.toList)
    (hlength : m.text? cs "length" = some (Nat.toDigits 10 n)) (hn : n < 256) :
    mention? a.family cs m = (Cidr.new a n).toOption.map fun block => (block.text, none) := by
  have hread := Text.unsigned?_toDigits hn
  cases hnew : Cidr.new a n <;>
    simp [mention?, haddress, hlength, Address.parse?_text, hread, hnew, Except.toOption]

end IpRegistry.AddressTally
