import IpRegistry.Calendar
import IpRegistry.Text.Blank

namespace IpRegistry.Calendar

/-- The parts of a date format. -/
inductive FormatItem where
  | year
  | month
  | day
  | hour
  | minute
  | second
  | blank
  | literal (s : String)
  deriving DecidableEq, Repr

abbrev Format := List FormatItem

def FormatItem.text : FormatItem → String
  | year => "%Y"
  | month => "%m"
  | day => "%d"
  | hour => "%H"
  | minute => "%M"
  | second => "%S"
  | blank => " "
  | literal s => s

def formatText (format : Format) : String :=
  String.join (format.map FormatItem.text)

/-- The parts of a moment read so far. -/
structure Parts where
  year : Option Int := none
  month : Option Nat := none
  day : Option Nat := none
  hour : Option Nat := none
  minute : Option Nat := none
  second : Option Nat := none

/-- A part that is read; one that was read before must have the same value. -/
def agreed? {α : Type} [DecidableEq α] (part : Option α) (value : α) : Option (Option α) :=
  if part.all (· == value) then some (some value) else none

def digitsValue (digits : List Char) : Nat :=
  digits.foldl (fun n c => n * 10 + (c.toNat - 48)) 0

/-- Reads a number of at least one digit, and at most `width` digits if a width is given. -/
def readNumber (width : Option Nat) (cs : List Char) : Option (Nat × List Char) :=
  let all := cs.takeWhile Char.isDigit
  let digits := match width with
    | some w => all.take w
    | none => all
  if digits = [] then none else some (digitsValue digits, cs.drop digits.length)

/-- Reads a year: four digits at most, or any number of digits after a sign. -/
def readYear : List Char → Option (Int × List Char)
  | '-' :: cs => (readNumber none cs).map fun r => (-(r.1 : Int), r.2)
  | '+' :: cs => (readNumber none cs).map fun r => ((r.1 : Int), r.2)
  | cs => (readNumber (some 4) cs).map fun r => ((r.1 : Int), r.2)

/-- Reads a number of one or two digits from `least` to `greatest`. -/
def readTwoDigits (least greatest : Nat) (cs : List Char) : Option (Nat × List Char) :=
  match readNumber (some 2) cs with
  | some (n, rest) => if least ≤ n ∧ n ≤ greatest then some (n, rest) else none
  | none => none

def readLiteral : (expected cs : List Char) → Option (List Char)
  | [], cs => some cs
  | _ :: _, [] => none
  | e :: expected, c :: cs => if c = e then readLiteral expected cs else none

/-- The least and the greatest value of a part that is a number of two digits. -/
def FormatItem.range? : FormatItem → Option (Nat × Nat)
  | month => some (1, 12)
  | day => some (1, 31)
  | hour => some (0, 23)
  | minute => some (0, 59)
  | second => some (0, 60)
  | _ => none

/-- The parts with the value of a part that is a number of two digits. -/
def FormatItem.put? (n : Nat) (parts : Parts) : FormatItem → Option Parts
  | month => (agreed? parts.month n).map fun month => { parts with month }
  | day => (agreed? parts.day n).map fun day => { parts with day }
  | hour => (agreed? parts.hour n).map fun hour => { parts with hour }
  | minute => (agreed? parts.minute n).map fun minute => { parts with minute }
  | second => (agreed? parts.second n).map fun second => { parts with second }
  | _ => none

def Parts.putYear? (n : Int) (parts : Parts) : Option Parts :=
  (agreed? parts.year n).map fun year => { parts with year }

/-- Reads one part of a format; white space before a number does not matter. -/
def FormatItem.read (item : FormatItem) (parts : Parts) (cs : List Char) :
    Option (Parts × List Char) :=
  let number := cs.dropWhile Text.isBlank
  match item with
  | year => (readYear number).bind fun r => (parts.putYear? r.1).map (·, r.2)
  | blank => some (parts, number)
  | literal s => (readLiteral s.toList cs).map fun rest => (parts, rest)
  | item =>
    item.range?.bind fun range =>
      (readTwoDigits range.1 range.2 number).bind fun r => (item.put? r.1 parts).map (·, r.2)

/-- Reads the parts of a format from the whole text. -/
def readParts : Format → Parts → List Char → Option Parts
  | [], parts, [] => some parts
  | [], _, _ :: _ => none
  | item :: items, parts, cs =>
    match item.read parts cs with
    | none => none
    | some (parts, rest) => readParts items parts rest

/-- The date that parts name, if it is one of the calendar. -/
def Parts.date? (parts : Parts) : Option Date := do
  let year ← parts.year
  if hasYear year then Date.of? year (← parts.month) (← parts.day) else none

/-- The moment of a date at the time that parts name. A time takes an hour and a minute, and has
no seconds if none were read. -/
def Parts.timed? (parts : Parts) (date : Date) : Option Moment := do
  let hour ← parts.hour
  let minute ← parts.minute
  let second := parts.second.getD 0
  let inserted := second == 60
  let total := hour * 3600 + minute * 60 + (if inserted then 59 else second)
  if h : total < 86400 then some ⟨date, total, inserted, h⟩ else none

/-- The moment that parts name: that of their date at their time, or at midnight if they name no
time. -/
def Parts.moment? (parts : Parts) : Option Moment :=
  parts.date?.map fun date => (parts.timed? date).getD (.midnight date)

def readMoment (format : Format) (s : String) : Option Moment :=
  (readParts format {} s.toList).bind Parts.moment?

/-- A number with zeros in front of it up to a width. -/
def padded (width n : Nat) : String :=
  let digits := toString n
  String.ofList (List.replicate (width - digits.length) '0') ++ digits

/-- A year with at least four digits, and with its sign unless it has exactly four digits and none. -/
def yearText (year : Int) : String :=
  if 0 ≤ year ∧ year ≤ 9999 then padded 4 year.toNat
  else if year < 0 then "-" ++ padded 4 (-year).toNat
  else "+" ++ padded 4 year.toNat

/-- The text of a moment, as year, month, day, the letter T, hours, minutes and seconds. -/
def Moment.text (m : Moment) : String :=
  let second := m.second % 60 + (if m.inserted then 1 else 0)
  yearText m.date.year ++ "-" ++ padded 2 m.date.month ++ "-" ++ padded 2 m.date.day ++ "T" ++
    padded 2 (m.second / 3600) ++ ":" ++ padded 2 (m.second / 60 % 60) ++ ":" ++ padded 2 second

/-- How the dates of a registry are read: the main format, a plain date format tried when that does
not fit, and how many hours the clock of the main format is ahead. -/
structure DatePolicy where
  format : Format
  fallback : Option Format := none
  hourOffset : Int := 0

/-- What reading a date under a policy can give. -/
inductive Reading where
  | unreadable
  | beyondCalendar
  | moment (m : Moment)
  deriving DecidableEq, Repr

/-- What the moments give that were read in the main format and in the fallback; only the former is
shifted. -/
def Reading.ofMoments (hourOffset : Int) (main fallback : Option Moment) : Reading :=
  match main with
  | some m =>
    match m.hoursEarlier? hourOffset with
    | some shifted => .moment shifted
    | none => .beyondCalendar
  | none =>
    match fallback with
    | some m => .moment m
    | none => .unreadable

def DatePolicy.read (policy : DatePolicy) (s : String) : Reading :=
  .ofMoments policy.hourOffset (readMoment policy.format s)
    (policy.fallback.bind fun format => readMoment format s)

def DatePolicy.normalize (policy : DatePolicy) (s : String) : Option String :=
  match policy.read s with
  | .moment m => some m.text
  | _ => none

end IpRegistry.Calendar
