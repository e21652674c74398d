import IpRegistry.Asn.Lookup
import IpRegistry.Report

/-!
The combined lookups of an address: its autonomous system, then the regional registry of that, then
the national registry of its country.
-/

namespace IpRegistry.Lookup

/-- What both lookups do. -/
structure Options where
  methods : List Asn.Method := [.dns, .whois, .http]
  organisations : List (String × Registry) := []
  describe : Bool := true
  retryCount : Nat := 3
  askNational : Bool := true
  nationalWanted : Option (List String) := none
  keepRaw : Bool := false

/-- What a lookup over WHOIS does. -/
structure WhoisOptions where
  common : Options := {}
  followReferral : Bool := false
  ignoreReferralFailure : Bool := false
  blocked : List String := []
  wanted : Option (List String) := none

/-- What a lookup of registration data does. -/
structure RdapOptions where
  common : Options := {}
  pause : Nat := 120000
  depth : Nat := 0
  excluded : List String := []
  bootstrap : Bool := false
  completeRoots : Bool := true

namespace Options

/-- The options for the autonomous system. Its answer is never kept. -/
def asn (o : Options) : Asn.Options where
  methods := o.methods
  retryCount := o.retryCount
  organisations := o.organisations
  describe := o.describe

def national (o : Options) : National.Options where
  retryCount := o.retryCount
  wanted := o.nationalWanted
  keepRaw := o.keepRaw

end Options

/-- Asks the national registry of the country, if there is one and it is to be asked. -/
def national (i : Inquiry) (o : Options) (asn : Option Asn.Record) :
    OptionT Exchange (Option National.Result) :=
  match if o.askNational then asn.bind Asn.Record.national? else none with
  | none => return none
  | some registry => do return some (← National.lookup i registry o.national)

def whois (i : Inquiry) (o : WhoisOptions) : OptionT Exchange WhoisReport := do
  let asn ← Asn.lookup i o.common.asn
  let found ← Whois.lookup i asn.registry {
    retryCount := o.common.retryCount
    followReferral := o.followReferral
    ignoreReferralFailure := o.ignoreReferralFailure
    blocked := o.blocked
    wanted := o.wanted
    keepRaw := o.common.keepRaw }
  let national ← national i o.common (some asn)
  return {
    query := found.query
    asn
    allocations := found.allocations
    referral := found.referral
    national
    raw := found.raw
    rawReferral := found.rawReferral }

/-- Looks up the autonomous system, which a lookup that is sent on does without. -/
def asn? (i : Inquiry) (o : RdapOptions) : Exchange (Option Asn.Record) :=
  if o.bootstrap then .done none
  else do return some (← Asn.lookup i o.common.asn)

def rdap (i : Inquiry) (o : RdapOptions) : OptionT Exchange RdapReport := do
  let asn ← OptionT.lift (asn? i o)
  let found ← Rdap.lookup i.target (asn.map Asn.Record.registry) {
    patience := ⟨o.common.retryCount, o.pause⟩
    depth := o.depth
    excluded := o.excluded
    bootstrap := o.bootstrap
    completeRoots := o.completeRoots
    keepRaw := o.common.keepRaw }
  let national ← national i o.common asn
  return .ofResult asn found national

end IpRegistry.Lookup
