import IpRegistry.Proofs.Address.Forms

namespace IpRegistry.Address

variable {a : Address}

theorem text_ne_nil (a : Address) : a.text.toList ≠ [] := by
  intro hnil
  have hread := parse?_eq_some_iff.1 a.parse?_text
  rw [hnil] at hread
  cases hread

theorem colon_not_mem_text (ha : a.family = .v4) : ':' ∉ a.text.toList := by
  intro hmem
  rw [(family_eq_v6_iff a.parse?_text).2 hmem] at ha
  cases ha

theorem two_le_count_colon (ha : a.family = .v6) : 2 ≤ a.text.toList.count ':' := by
  rcases parse?_cases a.parse?_text with ⟨hv4, -⟩ | ⟨-, -, groups, hgroups, -⟩
  · rw [ha] at hv4
    cases hv4
  · exact (exists_of_readSixGroups hgroups).1

theorem last_ne_dot (a : Address) : ∀ c ∈ a.text.toList.getLast?, c ≠ '.' := by
  rintro c hc rfl
  obtain ⟨front, octets, htext, hoctets, -⟩ := exists_dotted (List.mem_of_getLast? hc)
  obtain ⟨w, x, y, z, rfl⟩ := exists_eq_of_length_four hoctets
  have hback : a.text.toList = front ++ (Nat.toDigits 10 w ++ '.' :: (Nat.toDigits 10 x ++ '.' ::
      (Nat.toDigits 10 y ++ ['.']))) ++ Nat.toDigits 10 z := by
    rw [htext, toList_dotted]
    simp
  rw [hback, List.getLast?_append_of_ne_nil _ Nat.toDigits_ne_nil] at hc
  exact dot_not_mem_toDigits z (List.mem_of_getLast? hc)

theorem isMapped_eq_false (ha : a.family = .v4) : a.isMapped = false := by
  have hlt : a.value < 2 ^ 32 := by
    have hlt := a.value_lt
    rwa [ha] at hlt
  rw [isMapped, Nat.div_eq_of_lt hlt]
  rfl

theorem text_ofNat_v4 (n : Nat) : (ofNat .v4 n).text = dotted (digitsOf 256 4 n) := by
  have hlt : ∀ d ∈ digitsOf 256 4 n, d < 256 := fun _ => lt_of_mem_digitsOf (by decide)
  have hdigits := digitsOf_ofDigits hlt
  rw [length_digitsOf, ofDigits_digitsOf] at hdigits
  exact congrArg dotted hdigits

theorem toList_text_of_isMapped (ha : a.family = .v6) (h : a.isMapped = true) :
    a.text.toList = "::ffff:".toList ++ (ofNat .v4 a.value).text.toList := by
  rw [text_ofNat_v4, text, ha]
  simp only [h, if_true, String.toList_append]

theorem dot_not_mem_text (ha : a.family = .v6) (h : a.isMapped = false) :
    '.' ∉ a.text.toList := by
  rw [text, ha]
  simp only [h, Bool.false_eq_true, if_false]
  exact fun hmem => absurd (mem_of_mem_compressed hmem) (by decide)

theorem exists_cons_groupChars (groups : List Nat) (more : List Char) :
    ∃ tail, groupChars false groups ++ ':' :: more = ':' :: tail := by
  cases groups with
  | nil => exact ⟨more, rfl⟩
  | cons g groups => exact ⟨_, rfl⟩

theorem exists_first_group {groups : List Nat} (hlength : 2 ≤ groups.length)
    (hlt : ∀ g ∈ groups, g < 65536) :
    ∃ hexes tail, (compressed groups).toList = hexes ++ ':' :: tail ∧
      (∀ c ∈ hexes, c ∈ "0123456789abcdef".toList) ∧ hexes.length ≤ 4 := by
  have hgroup : ∀ g ∈ groups, (∀ c ∈ Text.hexDigits g, c ∈ "0123456789abcdef".toList) ∧
      (Text.hexDigits g).length ≤ 4 := by
    intro g hg
    refine ⟨fun c hc => mem_of_mem_toDigits (by decide) (by decide) hc, ?_⟩
    exact (Nat.length_toDigits_le_iff (by decide) (by decide)).2 (hlt g hg)
  unfold compressed
  simp only
  split
  · obtain ⟨g, h, more, rfl⟩ : ∃ g h more, groups = g :: h :: more := by
      match groups, hlength with
      | g :: h :: more, _ => exact ⟨g, h, more, rfl⟩
    rw [toList_colonSeparated]
    exact ⟨Text.hexDigits g, _, rfl, hgroup g List.mem_cons_self⟩
  · rw [String.toList_append, String.toList_append, toList_colonSeparated]
    cases hfront : groups.take (longestZeroRun groups).1 with
    | nil => exact ⟨[], _, rfl, nofun, Nat.zero_le _⟩
    | cons g front =>
        have hg : g ∈ groups := List.mem_of_mem_take (hfront ▸ List.mem_cons_self)
        obtain ⟨tail, htail⟩ := exists_cons_groupChars front
          (':' :: (colonSeparated (groups.drop ((longestZeroRun groups).1 +
            (longestZeroRun groups).2))).toList)
        refine ⟨Text.hexDigits g, tail, ?_, hgroup g hg⟩
        rw [← htail, toList_colonSeparated, groupChars, List.append_assoc, List.append_assoc]
        rfl

theorem exists_first_hexes (ha : a.family = .v6) :
    ∃ hexes tail, a.text.toList = hexes ++ ':' :: tail ∧
      (∀ c ∈ hexes, c ∈ "0123456789abcdef".toList) ∧ hexes.length ≤ 4 := by
  cases hmapped : a.isMapped with
  | true => exact ⟨[], _, toList_text_of_isMapped ha hmapped, nofun, Nat.zero_le _⟩
  | false =>
      have hgroups : a.groups.length = 8 := length_digitsOf ..
      rw [text, ha]
      simp only [hmapped, Bool.false_eq_true, if_false]
      exact exists_first_group (by omega) fun g hg => lt_of_mem_digitsOf (by decide) hg

end IpRegistry.Address
