import IpRegistry.Asn.Answer
import IpRegistry.Proofs.Text.Split

namespace IpRegistry

namespace Asn

/-- The value of a field: nothing if its text is empty. -/
def given (s : String) : Option String :=
  if s = "" then none else some s

/-- A text with which a field can be filled. -/
structure IsPlain (s : String) : Prop where
  bar_not_mem : '|' ∉ s.toList
  newline_not_mem : '\n' ∉ s.toList
  return_not_mem : '\r' ∉ s.toList
  head_ne : ∀ c ∈ s.toList.head?, c ≠ ' ' ∧ c ≠ '"'
  last_ne : ∀ c ∈ s.toList.getLast?, c ≠ ' ' ∧ c ≠ '"'

theorem isPlain_iff {s : String} :
    IsPlain s ↔ '|' ∉ s.toList ∧ '\n' ∉ s.toList ∧ '\r' ∉ s.toList ∧
      (s.toList.head?.all fun c => c != ' ' && c != '"') = true ∧
      (s.toList.getLast?.all fun c => c != ' ' && c != '"') = true := by
  simp only [Option.all_eq_true, Bool.and_eq_true, bne_iff_ne]
  exact ⟨fun ⟨hbar, hnewline, hreturn, hhead, hlast⟩ => ⟨hbar, hnewline, hreturn, hhead, hlast⟩,
    fun ⟨hbar, hnewline, hreturn, hhead, hlast⟩ => ⟨hbar, hnewline, hreturn, hhead, hlast⟩⟩

instance (s : String) : Decidable (IsPlain s) :=
  decidable_of_iff _ isPlain_iff.symm

/-- What a line says about an address. -/
structure Entry where
  asn : String
  address : String
  cidr : String
  countryCode : String
  registry : Registry
  date : String
  description : String
  plain : ∀ s ∈ [asn, address, cidr, countryCode, date, description], IsPlain s

/-- The spaces before and behind each field of a line. -/
structure Spacing where
  before : Nat → Nat
  behind : Nat → Nat

/-- A field between its spaces. -/
def Spacing.piece (sp : Spacing) (n : Nat) (s : String) : List Char :=
  List.replicate (sp.before n) ' ' ++ s.toList ++ List.replicate (sp.behind n) ' '

/-- The line of some fields, with a vertical bar between them. -/
def Spacing.line (sp : Spacing) (fields : List String) : List Char :=
  ['|'].intercalate (fields.mapIdx sp.piece)

def hasBar (line : List Char) : Bool :=
  line.contains '|'

/-- The kinds of answers. -/
inductive Form where
  | terse
  | verbose
  | whois

namespace Form

def read : Form → String → Except LookupError Record
  | terse => readDns
  | verbose => readVerboseDns
  | whois => readWhois

/-- The line of an answer that is read. -/
def line : Form → String → List Char
  | terse, s | verbose, s => s.toList
  | whois, s => ((Text.lines s.toList).find? hasBar).getD s.toList

/-- How many fields a line must have. -/
def width : Form → Nat
  | terse | verbose => 5
  | whois => 7

def fields : Form → Entry → List String
  | terse, e => [e.asn, e.cidr, e.countryCode, e.registry.name, e.date]
  | verbose, e => [e.asn, e.countryCode, e.registry.name, e.date, e.description]
  | whois, e => [e.asn, e.address, e.cidr, e.countryCode, e.registry.name, e.date, e.description]

/-- What an answer of this form says, with the country in upper case. -/
def record : Form → Entry → Record
  | terse, e => {
      registry := e.registry
      asn := given e.asn
      cidr := given e.cidr
      countryCode := (given e.countryCode).map Text.toUpper
      date := given e.date
      source := .dns }
  | verbose, e => {
      registry := e.registry
      asn := given e.asn
      countryCode := (given e.countryCode).map Text.toUpper
      date := given e.date
      description := given e.description
      source := .dns }
  | whois, e => {
      registry := e.registry
      asn := given e.asn
      cidr := given e.cidr
      countryCode := (given e.countryCode).map Text.toUpper
      date := given e.date
      description := given e.description
      source := .whois }

end Form

variable {sp : Spacing} {fields : List String} {n : Nat}

namespace Form

def layout : Form → Layout
  | terse => .terse
  | verbose => .verbose
  | whois => .whois

end Form

end Asn

end IpRegistry
