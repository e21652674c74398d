namespace IpRegistry.Text

/-- The ASCII characters among bytes; other bytes are dropped. -/
def asciiOnly (bytes : List UInt8) : String :=
  String.ofList ((bytes.filter (· < 0x80)).map fun b => Char.ofNat b.toNat)

/-- The bytes of a text in UTF-8. -/
def bytesOf (s : String) : List UInt8 :=
  s.toUTF8.toList

/-- How many bytes follow a first byte, and the range of the first of them. -/
def following? (b : Nat) : Option (Nat × Nat × Nat) :=
  if b < 0x80 then some (0, 0, 0)
  else if 0xC2 ≤ b ∧ b ≤ 0xDF then some (1, 0x80, 0xBF)
  else if b = 0xE0 then some (2, 0xA0, 0xBF)
  else if b = 0xED then some (2, 0x80, 0x9F)
  else if 0xE1 ≤ b ∧ b ≤ 0xEF then some (2, 0x80, 0xBF)
  else if b = 0xF0 then some (3, 0x90, 0xBF)
  else if b = 0xF4 then some (3, 0x80, 0x8F)
  else if 0xF1 ≤ b ∧ b ≤ 0xF3 then some (3, 0x80, 0xBF)
  else none

/-- Continues a character with the value `acc`, of which `left` bytes are missing, the next one from
`low` to `high`; gives nothing if a byte does not fit, and the bytes that were not used. -/
def continueChar : (left low high acc : Nat) → List UInt8 → Option Nat × List UInt8
  | 0, _, _, acc, bytes => (some acc, bytes)
  | _ + 1, _, _, _, [] => (none, [])
  | left + 1, low, high, acc, b :: bytes =>
    if low ≤ b.toNat ∧ b.toNat ≤ high then
      continueChar left 0x80 0xBF (acc * 64 + b.toNat % 64) bytes
    else (none, b :: bytes)

theorem length_continueChar_le (left low high acc : Nat) (bytes : List UInt8) :
    (continueChar left low high acc bytes).2.length ≤ bytes.length := by
  induction bytes generalizing left low high acc with
  | nil => cases left <;> simp [continueChar]
  | cons b bytes ih =>
    cases left with
    | zero => simp [continueChar]
    | succ left =>
      unfold continueChar
      split
      · exact Nat.le_trans (ih ..) (Nat.le_succ _)
      · exact Nat.le_refl _

/-- The value that the first byte gives to a character of `count` further bytes. -/
def firstBits (b count : Nat) : Nat :=
  match count with
  | 0 => b
  | 1 => b % 32
  | 2 => b % 16
  | _ => b % 8

/-- The characters that bytes write in UTF-8. -/
def decodeUtf8 : List UInt8 → List Char
  | [] => []
  | b :: bytes =>
    match following? b.toNat with
    | none => '\uFFFD' :: decodeUtf8 bytes
    | some (count, low, high) =>
      let result := continueChar count low high (firstBits b.toNat count) bytes
      match result.1 with
      | some n => Char.ofNat n :: decodeUtf8 result.2
      | none => '\uFFFD' :: decodeUtf8 result.2
termination_by bytes => bytes.length
decreasing_by
  · exact Nat.lt_succ_self _
  · exact Nat.lt_succ_of_le (length_continueChar_le ..)
  · exact Nat.lt_succ_of_le (length_continueChar_le ..)

end IpRegistry.Text
