import IpRegistry.Field

namespace IpRegistry.Field

open Pattern

/-- The group of the value, of at least one character, as few as possible. -/
def shortValue : Pattern :=
  group "val" (atLeastOne false anyChar)

/-- The group of the value, of any number of characters, as few as possible. -/
def anyValue : Pattern :=
  group "val" (many false anyChar)

def blanks : Pattern :=
  atLeastOne true inlineBlank

def newline : Pattern :=
  ofText "\n"

/-- The group at which a value stops: a line feed and a character that is not indented. -/
def unindented : Pattern :=
  group "stop" (seq newline (one notBlank))

def restOfLine : Pattern :=
  seq (many false anyChar) newline

/-- A line of a key, a colon and blanks, with a value of the given pattern. -/
def keyed (keys : List String) (value : List Pattern) : Pattern :=
  concat ([oneOf (keys.map Pattern.ofText), Pattern.ofText ":", blanks] ++ value)

/-- A key, a colon, blanks and a value up to the end of the line. -/
def line (key : String) : Pattern :=
  keyed [key] [shortValue, newline]

/-- One of several keys, a colon, blanks and a value up to the next line that is not indented. -/
def paragraph (keys : List String) : Pattern :=
  keyed keys [shortValue, unindented]

/-- One of several keys with a colon right before a value up to the end of the line. -/
def tightLine (keys : List String) : Pattern :=
  concat [oneOf (keys.map Pattern.ofText), Pattern.ofText ":", shortValue, newline]

/-- A key in brackets, blanks and a value, perhaps empty, up to the end of the line. -/
def bracketLine (key : String) : Pattern :=
  concat [Pattern.ofText ("[" ++ key ++ "]"), blanks, anyValue, newline]

/-- A character of the parts of an electronic mail address. -/
def isMailChar (c : Char) : Bool :=
  Text.isWord c || c == '-' || c == '.'

/-- A character of the last part of an electronic mail address. -/
def isMailEndChar (c : Char) : Bool :=
  Text.isWord c || c == '-'

/-- An electronic mail address that stands after a blank behind a colon, and before the end of a line
or a blank that a line feed follows. -/
def mail : Pattern :=
  concat [
    atLeastOne false anyChar, Pattern.ofText ":", many false anyChar, blanks,
    group "val" (concat [
      atLeastOne false isMailChar, Pattern.ofText "@", atLeastOne true isMailChar,
      Pattern.ofText ".", atLeastOne true isMailEndChar]),
    alt empty (seq blanks (many false anyChar)),
    newline]

def digits (count : Nat) : Pattern :=
  counted Char.isDigit count 0

end IpRegistry.Field
