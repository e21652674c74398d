import IpRegistry.Asn.Answer
import IpRegistry.Asn.Question
import IpRegistry.Json.Printer

namespace IpRegistry.Asn

/-- What a lookup does. -/
structure Options where
  methods : List Method := [.dns, .whois, .http]
  retryCount : Nat := 3
  organisations : List (String × Registry) := []
  describe : Bool := true
  keepRaw : Bool := false

/-- The most specific record of terse texts, if there is one, unless a text cannot be read. -/
def readOrigin (texts : List String) : Except LookupError (Option Record) := do
  return mostSpecific (← texts.mapM readDns)

/-- The record that one method finds, and the answer it was read from. -/
def findBy (i : Inquiry) (o : Options) : Method → Exchange (Record × String)
  | .dns => do
    let texts ← askOrigin i
    match ← .ofExcept (readOrigin texts) with
    | some record => return (record, "\n".intercalate texts)
    | none => .fail (.asnFailed i.address)
  | .whois => do
    let answer ← askWhois i o.retryCount
    return (← .ofExcept (readWhois answer), answer)
  | .http => do
    let document ← askHttp i o.retryCount
    return (← .ofExcept (readHttp o.organisations document), document.render)

/-- The failure says that nothing was found, so another method may find something. -/
def isAbsence (e : LookupError) : Bool :=
  e.kind == .asnLookup || e.kind == .asnRegistry

/-- The record of the first method that finds one. -/
def findFirst (i : Inquiry) (o : Options) : List Method → Exchange (Record × String)
  | [] => .fail .asnMethodsExhausted
  | method :: methods => do
    match ← (findBy i o method).outcome with
    | .ok found => return found
    | .error e => if isAbsence e then findFirst i o methods else .fail e

/-- The description of the first number of a record, if it can be found. -/
def findDescription (record : Record) : Exchange (Option String) := do
  match record.asn.bind Text.firstWord? with
  | none => return none
  | some asn =>
    match ← (askDescription asn).outcome with
    | .ok text => return (readVerboseDns text).toOption.bind Record.description
    | .error _ => return none

def lookup (i : Inquiry) (o : Options) : Exchange Record := do
  if o.methods.isEmpty then .fail .noMethods
  else
    let (record, answer) ← findFirst i o o.methods
    let description ←
      if o.describe && record.source == .dns then findDescription record
      else pure record.description
    return { record with description, raw := if o.keepRaw then some answer else none }

end IpRegistry.Asn
