import IpRegistry.Proofs.Address.RoundTrip
import IpRegistry.Proofs.Text.Split
import IpRegistry.Target
import Std.Data.String.ToNat

namespace IpRegistry

namespace Address

/-- Digits to a power of a base may be written with several digits to that base each. -/
theorem ofDigits_flatMap {radix count : Nat} {groups : List Nat}
    (h : ∀ g ∈ groups, g < radix ^ count) :
    ofDigits radix (groups.flatMap (digitsOf radix count)) = ofDigits (radix ^ count) groups := by
  induction groups using List.reverseRecOn with
  | nil => rfl
  | append_singleton groups g ih =>
      have hg : g < radix ^ count := h g (by simp)
      have hgroups : ∀ g ∈ groups, g < radix ^ count := fun g hg => h g (by simp [hg])
      rw [List.flatMap_append, List.flatMap_singleton, ofDigits_append, ih hgroups,
        length_digitsOf, ofDigits_digitsOf, Nat.mod_eq_of_lt hg, ofDigits_concat]

end Address

open Address

namespace Target

/-- The parts of a name between its dots. -/
def nameLabels (name : String) : List String :=
  (Text.splitOn ['.'] name.toList).map String.ofList

theorem nameLabels_intercalate {labels : List String} (hne : labels ≠ [])
    (h : ∀ label ∈ labels, '.' ∉ label.toList) : nameLabels (".".intercalate labels) = labels := by
  have hpieces : ∀ piece ∈ labels.map String.toList, '.' ∉ piece := by simpa using h
  rw [nameLabels, String.toList_intercalate]
  show (Text.splitOn ['.'] (['.'].intercalate _)).map _ = _
  rw [Text.splitOn_intercalate (by simpa using hne) hpieces, List.map_map]
  simp

theorem intercalate_append {front back : List String} (hfront : front ≠ []) (hback : back ≠ []) :
    ".".intercalate (front ++ back) = ".".intercalate front ++ "." ++ ".".intercalate back := by
  induction front with
  | nil => exact absurd rfl hfront
  | cons label front ih =>
      cases front with
      | nil =>
          obtain ⟨next, rest, rfl⟩ := List.exists_cons_of_ne_nil hback
          simp [String.intercalate_cons_cons]
      | cons next front =>
          rw [List.cons_append, List.cons_append, String.intercalate_cons_cons, ← List.cons_append,
            ih (List.cons_ne_nil _ _), String.intercalate_cons_cons]
          simp only [String.append_assoc]

theorem dot_not_mem_octetLabels (a : Address) : ∀ label ∈ octetLabels a, '.' ∉ label.toList := by
  intro label hlabel hdot
  rw [octetLabels, List.mem_map] at hlabel
  obtain ⟨octet, -, rfl⟩ := hlabel
  rw [Nat.toString_eq_ofList_toDigits, String.toList_ofList] at hdot
  exact absurd (mem_of_mem_toDigits (by decide) (by decide) hdot) (by decide)

theorem nibbleLabels_eq (groups : List Nat) :
    nibbleLabels groups = (groups.flatMap (digitsOf 16 4)).reverse.map fun d =>
      String.ofList [d.digitChar] := by
  refine List.map_congr_left fun d hd => ?_
  rw [List.mem_reverse, List.mem_flatMap] at hd
  obtain ⟨g, -, hd⟩ := hd
  rw [Nat.toDigits_of_lt_base (lt_of_mem_digitsOf (by decide) hd)]

theorem nibbleLabels_append (front back : List Nat) :
    nibbleLabels (front ++ back) = nibbleLabels back ++ nibbleLabels front := by
  simp [nibbleLabels_eq]

theorem flatMap_digitsOf_zero (count : Nat) :
    (List.replicate count 0).flatMap (digitsOf 16 4) = List.replicate (4 * count) 0 := by
  rw [List.flatMap_replicate, digitsOf_zero, List.flatten_replicate_replicate, Nat.mul_comm]

theorem nibbleLabels_replicate_zero (count : Nat) :
    nibbleLabels (List.replicate count 0) = List.replicate (4 * count) "0" := by
  rw [nibbleLabels_eq, flatMap_digitsOf_zero, List.reverse_replicate, List.map_replicate]
  rfl

theorem length_nibbleLabels (groups : List Nat) :
    (nibbleLabels groups).length = 4 * groups.length := by
  have hlength : ∀ g ∈ groups, (digitsOf 16 4 g).length = 4 := fun g _ => length_digitsOf 16 4 g
  rw [nibbleLabels_eq, List.length_map, List.length_reverse, List.length_flatMap,
    List.map_congr_left hlength]
  simp [Nat.mul_comm]

theorem dot_not_mem_nibbleLabels (groups : List Nat) :
    ∀ label ∈ nibbleLabels groups, '.' ∉ label.toList := by
  intro label hlabel hdot
  rw [nibbleLabels, List.mem_map] at hlabel
  obtain ⟨d, -, rfl⟩ := hlabel
  rw [String.toList_ofList] at hdot
  exact absurd (mem_of_mem_toDigits (by decide) (by decide) hdot) (by decide)

/-- How many groups at the end of the address are zero. -/
def zeroGroups (a : Address) : Nat :=
  leadingZeros a.groups.reverse

/-- The groups of the address before the zero groups at its end. -/
def keptGroups (a : Address) : List Nat :=
  (a.groups.reverse.dropWhile (· == 0)).reverse

theorem groups_eq (a : Address) :
    a.groups = keptGroups a ++ List.replicate (zeroGroups a) 0 := by
  have htake := take_leadingZeros a.groups.reverse
  have hfront := List.prefix_iff_eq_take.mp
    (List.takeWhile_prefix (l := a.groups.reverse) fun g => g == 0)
  have hsplit := List.takeWhile_append_dropWhile (p := fun g => g == 0) (l := a.groups.reverse)
  rw [hfront] at hsplit
  change a.groups.reverse.take (leadingZeros a.groups.reverse) ++ _ = _ at hsplit
  rw [htake] at hsplit
  rw [← List.reverse_inj, ← hsplit, keptGroups, zeroGroups, List.reverse_append,
    List.reverse_replicate, List.reverse_reverse]

theorem ofDigits_groups {a : Address} (h : a.family = .v6) : ofDigits 65536 a.groups = a.value := by
  have hlt : a.value < 65536 ^ 8 := by
    have hlt := a.value_lt
    rw [h] at hlt
    exact hlt
  rw [groups, ofDigits_digitsOf, Nat.mod_eq_of_lt hlt]

/-- The unspecified address is no target. -/
theorem value_ne_zero {t : Target} (h : t.address.family = .v6) : t.address.value ≠ 0 := by
  obtain ⟨⟨family, value, hlt⟩, hreserved⟩ := t
  rintro hzero
  cases h
  cases hzero
  have hunspecified : (⟨.v6, 0, Nat.two_pow_pos _⟩ : Address).reservation? ≠ none := by
    decide +kernel
  exact hunspecified hreserved

theorem keptGroups_ne_nil {t : Target} (h : t.address.family = .v6) : keptGroups t.address ≠ [] := by
  intro hnil
  have hgroups := groups_eq t.address
  rw [hnil, List.nil_append] at hgroups
  apply value_ne_zero h
  rw [← ofDigits_groups h, hgroups, ← digitsOf_zero 65536, ofDigits_digitsOf, Nat.zero_mod]

/-- The number that labels of hexadecimal digits write, first label first, when zeros are put behind
them until there are 32 digits. -/
def paddedValue? (labels : List String) : Option Nat :=
  (((labels.flatMap String.toList).rightpad 32 '0').mapM hexDigit?).map (ofDigits 16)

theorem mapM_hexDigit? {digits : List Nat} (h : ∀ d ∈ digits, d < 16) :
    (digits.map Nat.digitChar).mapM hexDigit? = some digits := by
  induction digits with
  | nil => rfl
  | cons d digits ih =>
      obtain ⟨hd, hdigits⟩ := List.forall_mem_cons.mp h
      rw [List.map_cons, List.mapM_cons, hexDigit?_digitChar hd, ih hdigits]
      rfl

theorem paddedValue?_nibbleLabels {a : Address} {front : List Nat} {count : Nat}
    (h : a.family = .v6) (hgroups : a.groups = front ++ List.replicate count 0) :
    paddedValue? (nibbleLabels front).reverse = some a.value := by
  have hlt : ∀ g ∈ a.groups, g < 16 ^ 4 := fun g hg => lt_of_mem_digitsOf (by decide) hg
  have hdigits : ∀ d ∈ a.groups.flatMap (digitsOf 16 4), d < 16 := by
    intro d hd
    rw [List.mem_flatMap] at hd
    obtain ⟨g, -, hd⟩ := hd
    exact lt_of_mem_digitsOf (by decide) hd
  have hchars : (nibbleLabels front).reverse.flatMap String.toList =
      (front.flatMap (digitsOf 16 4)).map Nat.digitChar := by
    rw [List.map_eq_flatMap]
    simp [nibbleLabels_eq, List.flatMap_map]
  have hlength : (front.flatMap (digitsOf 16 4)).length = 4 * front.length := by
    rw [← length_nibbleLabels, nibbleLabels_eq, List.length_map, List.length_reverse]
  have hmissing : 32 - 4 * front.length = 4 * count := by
    have height : a.groups.length = 8 := length_digitsOf 65536 8 a.value
    rw [hgroups, List.length_append, List.length_replicate] at height
    omega
  have hpadded : ((nibbleLabels front).reverse.flatMap String.toList).rightpad 32 '0' =
      (a.groups.flatMap (digitsOf 16 4)).map Nat.digitChar := by
    rw [hchars, List.rightpad, List.length_map, hlength, hmissing, hgroups, List.flatMap_append,
      flatMap_digitsOf_zero, List.map_append, List.map_replicate]
    rfl
  rw [paddedValue?, hpadded, mapM_hexDigit? hdigits, Option.map_some, ofDigits_flatMap hlt]
  exact congrArg some (ofDigits_groups h)

theorem labels_v4 {t : Target} (h : t.address.family = .v4) : t.labels = octetLabels t.address := by
  rw [labels, h]

theorem labels_v6 {t : Target} (h : t.address.family = .v6) :
    t.labels = nibbleLabels (keptGroups t.address) := by
  rw [labels, h]
  rfl

theorem labels_ne_nil (t : Target) : t.labels ≠ [] := by
  rw [← List.length_pos_iff]
  cases h : t.address.family with
  | v4 =>
      rw [labels_v4 h, octetLabels, List.length_map, List.length_reverse, octets, length_digitsOf]
      decide
  | v6 =>
      have hkept := List.length_pos_iff.mpr (keptGroups_ne_nil h)
      rw [labels_v6 h, length_nibbleLabels]
      omega

theorem dot_not_mem_labels (t : Target) : ∀ label ∈ t.labels, '.' ∉ label.toList := by
  cases h : t.address.family with
  | v4 =>
      rw [labels_v4 h]
      exact dot_not_mem_octetLabels _
  | v6 =>
      rw [labels_v6 h]
      exact dot_not_mem_nibbleLabels _

theorem nameLabels_reversed (t : Target) : nameLabels t.reversed = t.labels :=
  nameLabels_intercalate t.labels_ne_nil t.dot_not_mem_labels

/-- The labels of the zone of origin names. -/
def zoneLabels : Family → List String
  | .v4 => ["origin", "asn", "cymru", "com"]
  | .v6 => ["origin6", "asn", "cymru", "com"]

theorem nameLabels_dnsZone (t : Target) :
    nameLabels t.dnsZone = t.labels ++ zoneLabels t.address.family := by
  have hzone : originZone t.address.family = ".".intercalate (zoneLabels t.address.family) := by
    cases t.address.family <;> decide
  have hne : zoneLabels t.address.family ≠ [] := by
    cases t.address.family <;> exact List.cons_ne_nil _ _
  have hdot : ∀ label ∈ zoneLabels t.address.family, '.' ∉ label.toList := by
    cases t.address.family <;> decide
  rw [dnsZone, reversed, hzone, ← intercalate_append t.labels_ne_nil hne]
  refine nameLabels_intercalate (by simp [hne]) ?_
  exact List.forall_mem_append.mpr ⟨t.dot_not_mem_labels, hdot⟩

theorem nameLabels_reversePointer_v4 {t : Target} (h : t.address.family = .v4) :
    nameLabels t.reversePointer = octetLabels t.address ++ ["in-addr", "arpa"] := by
  rw [reversePointer, h]
  refine nameLabels_intercalate (by simp) ?_
  exact List.forall_mem_append.mpr ⟨dot_not_mem_octetLabels _, by decide⟩

theorem nameLabels_reversePointer_v6 {t : Target} (h : t.address.family = .v6) :
    nameLabels t.reversePointer = nibbleLabels t.address.groups ++ ["ip6", "arpa"] := by
  rw [reversePointer, h]
  refine nameLabels_intercalate (by simp) ?_
  exact List.forall_mem_append.mpr ⟨dot_not_mem_nibbleLabels _, by decide⟩

theorem eq_of_value {t u : Target} (hfamily : t.address.family = u.address.family)
    (hvalue : t.address.value = u.address.value) : t = u := by
  obtain ⟨⟨family, value, hlt⟩, hreserved⟩ := t
  obtain ⟨⟨family', value', hlt'⟩, hreserved'⟩ := u
  cases hfamily
  cases hvalue
  rfl

theorem value_eq_of_octetLabels {a b : Address} (ha : a.family = .v4) (hb : b.family = .v4)
    (h : octetLabels a = octetLabels b) : a.value = b.value := by
  have hinjective : Function.Injective (toString : Nat → String) := fun m n => Nat.repr_inj.mp
  have hoctets : a.octets = b.octets :=
    List.reverse_inj.mp (List.map_injective_iff.mpr hinjective h)
  have hvalue : ∀ c : Address, c.family = .v4 → ofDigits 256 c.octets = c.value := by
    intro c hc
    have hlt : c.value < 256 ^ 4 := by
      have hlt := c.value_lt
      rw [hc] at hlt
      exact hlt
    rw [octets, ofDigits_digitsOf, Nat.mod_eq_of_lt hlt]
  rw [← hvalue a ha, ← hvalue b hb, hoctets]

theorem value_eq_of_nibbleLabels {a b : Address} {front front' : List Nat} {count count' : Nat}
    (ha : a.family = .v6) (hb : b.family = .v6)
    (hfront : a.groups = front ++ List.replicate count 0)
    (hfront' : b.groups = front' ++ List.replicate count' 0)
    (h : nibbleLabels front = nibbleLabels front') : a.value = b.value := by
  have hread := paddedValue?_nibbleLabels ha hfront
  rw [h, paddedValue?_nibbleLabels hb hfront'] at hread
  exact (Option.some.inj hread).symm

theorem dnsZone_injective : Function.Injective dnsZone := by
  intro t u h
  have hlabels := congrArg nameLabels h
  rw [nameLabels_dnsZone, nameLabels_dnsZone] at hlabels
  cases ht : t.address.family with
  | v4 =>
      cases hu : u.address.family with
      | v4 =>
          rw [ht, hu, labels_v4 ht, labels_v4 hu, List.append_left_inj] at hlabels
          exact eq_of_value (ht.trans hu.symm) (value_eq_of_octetLabels ht hu hlabels)
      | v6 =>
          rw [ht, hu] at hlabels
          exact absurd (List.append_inj_right' hlabels rfl) (by decide)
  | v6 =>
      cases hu : u.address.family with
      | v4 =>
          rw [ht, hu] at hlabels
          exact absurd (List.append_inj_right' hlabels rfl) (by decide)
      | v6 =>
          rw [ht, hu, labels_v6 ht, labels_v6 hu, List.append_left_inj] at hlabels
          exact eq_of_value (ht.trans hu.symm)
            (value_eq_of_nibbleLabels ht hu (groups_eq _) (groups_eq _) hlabels)

theorem reversePointer_injective : Function.Injective reversePointer := by
  intro t u h
  have hlabels := congrArg nameLabels h
  cases ht : t.address.family with
  | v4 =>
      rw [nameLabels_reversePointer_v4 ht] at hlabels
      cases hu : u.address.family with
      | v4 =>
          rw [nameLabels_reversePointer_v4 hu, List.append_left_inj] at hlabels
          exact eq_of_value (ht.trans hu.symm) (value_eq_of_octetLabels ht hu hlabels)
      | v6 =>
          rw [nameLabels_reversePointer_v6 hu] at hlabels
          exact absurd (List.append_inj_right' hlabels rfl) (by decide)
  | v6 =>
      rw [nameLabels_reversePointer_v6 ht] at hlabels
      cases hu : u.address.family with
      | v4 =>
          rw [nameLabels_reversePointer_v4 hu] at hlabels
          exact absurd (List.append_inj_right' hlabels rfl) (by decide)
      | v6 =>
          rw [nameLabels_reversePointer_v6 hu, List.append_left_inj] at hlabels
          have hall : ∀ a : Address, a.groups = a.groups ++ List.replicate 0 0 := by simp
          exact eq_of_value (ht.trans hu.symm)
            (value_eq_of_nibbleLabels ht hu (hall _) (hall _) hlabels)

/-- The labels under which the origin of a version 6 address is asked for are those of its reverse
pointer without four labels `0` for each zero group at the end of the address; at least one group is
left, and the digits in their order, with zeros behind them, are the address. Different targets have
different origin names and different reverse pointers, also if they are of different families. -/
theorem names_identify :
    (∀ t : Target, t.address.family = .v6 →
      let kept := nameLabels t.reversed
      let dropped := 4 * zeroGroups t.address
      ∃ pointer, nameLabels t.reversePointer = pointer ++ ["ip6", "arpa"] ∧
        pointer.length = 32 ∧ kept = pointer.drop dropped ∧
        (∀ label ∈ pointer.take dropped, label = "0") ∧ 4 ≤ kept.length ∧
        paddedValue? kept.reverse = some t.address.value) ∧
    ∀ t u : Target, t ≠ u → t.dnsZone ≠ u.dnsZone ∧ t.reversePointer ≠ u.reversePointer := by
  refine ⟨fun t ht => ?_, fun t u hne => ?_⟩
  · intro kept dropped
    have hkept : kept = nibbleLabels (keptGroups t.address) := by
      rw [← labels_v6 ht, ← nameLabels_reversed]
    have hpointer : nibbleLabels t.address.groups = List.replicate dropped "0" ++ kept := by
      rw [groups_eq, nibbleLabels_append, nibbleLabels_replicate_zero, hkept]
    have hdropped : (List.replicate dropped "0").length = dropped := List.length_replicate
    refine ⟨_, nameLabels_reversePointer_v6 ht, ?_, ?_, ?_, ?_, ?_⟩
    · rw [length_nibbleLabels, groups, length_digitsOf]
    · rw [hpointer, List.drop_left' hdropped]
    · rw [hpointer, List.take_left' hdropped]
      exact fun label => List.eq_of_mem_replicate
    · have hpos := List.length_pos_iff.mpr (keptGroups_ne_nil ht)
      rw [hkept, length_nibbleLabels]
      omega
    · rw [hkept]
      exact paddedValue?_nibbleLabels ht (groups_eq t.address)
  · exact ⟨dnsZone_injective.ne hne, reversePointer_injective.ne hne⟩

/-- The address `2001:4860::` has six zero groups at its end, and so has `2001:4861::`. -/
theorem names_identify_neighbours :
    let t : Target := ⟨⟨.v6, 0x20014860 * 2 ^ 96, by decide⟩, by decide +kernel⟩
    let u : Target := ⟨⟨.v6, 0x20014861 * 2 ^ 96, by decide⟩, by decide +kernel⟩
    t.dnsZone = "0.6.8.4.1.0.0.2.origin6.asn.cymru.com" ∧
      u.dnsZone = "1.6.8.4.1.0.0.2.origin6.asn.cymru.com" ∧
      t.dnsZone ≠ u.dnsZone ∧ t.reversePointer ≠ u.reversePointer ∧
      paddedValue? (nameLabels t.reversed).reverse = some (0x20014860 * 2 ^ 96) := by
  intro t u
  have hne : t ≠ u := fun h => absurd (congrArg (·.address.value) h) (by decide)
  obtain ⟨-, -, -, -, -, -, hread⟩ := names_identify.1 t rfl
  obtain ⟨hzone, hpointer⟩ := names_identify.2 t u hne
  exact ⟨by decide +kernel, by decide +kernel, hzone, hpointer, hread⟩

end Target

end IpRegistry
