import IpRegistry.Inquiry
import IpRegistry.Keyed
import IpRegistry.National

namespace IpRegistry.National

/-- What a lookup does; a given response is read instead of asking for one, and an offline lookup
asks nobody. -/
structure Options where
  retryCount : Nat := 3
  response : Option String := none
  wanted : Option (List String) := none
  offline : Bool := false
  keepRaw : Bool := false

/-- The allocations for an address, and the page they were read from. -/
structure Result where
  query : String
  allocations : List Allocation
  raw : Option String := none
  deriving DecidableEq, Repr

namespace Result

def toJson (r : Result) : Json :=
  .ofMembers ([("query", .text r.query), ("nets", .ofList Allocation.toJson r.allocations)] ++
    Json.member? "raw" .text r.raw)

def reader : Json.Reader Result := do
  let query ← .required "query" Json.asText?
  let allocations ← .required "nets" (Json.listOf Allocation.reader.read?)
  let raw ← .withDefault none "raw" (Json.nullable Json.asText?)
  return { query, allocations, raw }

def ofJson? : Json → Option Result :=
  reader.read?

end Result

/-- The request for a page about an address or a contact. -/
def pageRequest (registry : NationalRegistry) (key : String)
    (form : Option (List (String × String))) : Web.Request where
  url := url registry key
  method := method registry
  headers := Web.pageHeaders
  form := form

def askPage (i : Inquiry) (registry : NationalRegistry) (retryCount : Nat) : Exchange String :=
  let form := (formField? registry).map fun field => [(field, i.address)]
  Web.fetchText (pageRequest registry i.address form) (i.patience retryCount)

/-- The page that a lookup reads: the given one, or what the registry says about the address. -/
def findPage (i : Inquiry) (registry : NationalRegistry) (o : Options) : Exchange String :=
  match o.response with
  | some page => .done page
  | none => if o.offline then .fail .responseRequired else askPage i registry o.retryCount

/-- The page about a contact: JPNIC is asked for it, for KRNIC the key is the page itself. -/
def askContactPage (i : Inquiry) (registry : NationalRegistry) (retryCount : Nat) (key : String) :
    Exchange String :=
  match registry with
  | .krnic => .done key
  | .jpnic => Web.fetchText (pageRequest .jpnic key none) (i.patience retryCount)

def askContact (i : Inquiry) (registry : NationalRegistry) (retryCount : Nat) (key : String) :
    OptionT Exchange Contact := do
  (Contact.ofPage? registry (← askContactPage i registry retryCount key)).getM

abbrev KnownContacts := Keyed String Contact

/-- Computations that note the contacts they find, and may break off. -/
abbrev ContactSearch := StateT KnownContacts (OptionT Exchange)

def findContact (i : Inquiry) (registry : NationalRegistry) (retryCount : Nat) (key : String) :
    ContactSearch Contact := do
  match (← get).lookup key with
  | some contact => return contact
  | none =>
    let contact ← askContact i registry retryCount key
    modify fun known => known.insert key contact
    return contact

/-- The contact of the last of some keys, or the given one if there are none. -/
def lastContact (i : Inquiry) (registry : NationalRegistry) (retryCount : Nat) :
    List String → Option Contact → ContactSearch (Option Contact)
  | [], last => return last
  | key :: keys, _ => do
    let contact ← findContact i registry retryCount key
    lastContact i registry retryCount keys (some contact)

def resolve (i : Inquiry) (registry : NationalRegistry) (retryCount : Nat) :
    List Entry → ContactSearch (List Allocation)
  | [] => return []
  | entry :: entries => do
    let admin ← lastContact i registry retryCount entry.adminKeys none
    let tech ← lastContact i registry retryCount entry.techKeys none
    let allocations ← resolve i registry retryCount entries
    return { entry.allocation with contacts := { admin, tech } } :: allocations

/-- Looks up the allocations that a national registry has for the address. The lookup breaks off, with
no result and no failure, at a page with a date whose shift leads out of the calendar. -/
def lookup (i : Inquiry) (registry : NationalRegistry) (o : Options) : OptionT Exchange Result := do
  let page ← findPage i registry o
  let found ← (entries? registry page o.wanted).getM
  let allocations ←
    if o.offline then pure (found.map Entry.allocation)
    else (resolve i registry o.retryCount found).run' []
  return { query := i.address, allocations, raw := if o.keepRaw then some page else none }

end IpRegistry.National
