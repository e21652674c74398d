import IpRegistry.Field.Shape
import IpRegistry.Registry

namespace IpRegistry.Whois

open IpRegistry.Field

def mailField : Spec :=
  ⟨"emails", mail, .list⟩

def contiguousTable (fields : List Spec) (dates : Option Calendar.Format) : Table where
  fields := fields
  dates := dates.map fun format => ⟨format, none, 0⟩
  contiguous := true

def hyphenated : Calendar.Format :=
  [.year, .literal "-", .month, .literal "-", .day]

def compact : Calendar.Format :=
  [.year, .month, .day]

/-- A date and a time of day with the letters T and Z. -/
def zulu : Calendar.Format :=
  [.year, .literal "-", .month, .literal "-", .day, .literal "T", .hour, .literal ":", .minute,
    .literal ":", .second, .literal "Z"]

/-- The pattern of a date and a time of day with the letters T and Z. -/
def zuluPattern : Pattern :=
  let mark := Pattern.ofText
  Pattern.group "val" (Pattern.concat [digits 4, mark "-", digits 2, mark "-", digits 2, mark "T",
    digits 2, mark ":", digits 2, mark ":", digits 2, mark "Z"])

def arinTable : Table :=
  contiguousTable [
    ⟨"name", line "NetName", .text⟩,
    ⟨"handle", line "NetHandle", .text⟩,
    ⟨"description", paragraph ["OrgName", "CustName"], .text⟩,
    ⟨"country", line "Country", .country⟩,
    ⟨"state", line "StateProv", .text⟩,
    ⟨"city", line "City", .text⟩,
    ⟨"address", paragraph ["Address"], .text⟩,
    ⟨"postal_code", line "PostalCode", .text⟩,
    mailField,
    ⟨"created", line "RegDate", .timestamp⟩,
    ⟨"updated", line "Updated", .timestamp⟩] (some hyphenated)

def ripenccTable : Table :=
  contiguousTable [
    ⟨"name", line "netname", .text⟩,
    ⟨"handle", line "nic-hdl", .text⟩,
    ⟨"description", paragraph ["descr"], .text⟩,
    ⟨"country", line "country", .country⟩,
    ⟨"address", paragraph ["address"], .text⟩,
    mailField,
    ⟨"created", keyed ["created"] [zuluPattern, restOfLine], .timestamp⟩,
    ⟨"updated", keyed ["last-modified"] [zuluPattern, restOfLine], .timestamp⟩] (some zulu)

/-- The fields of APNIC; its date is the last run of eight digits before a line feed. -/
def apnicTable : Table :=
  contiguousTable [
    ⟨"name", line "netname", .text⟩,
    ⟨"handle", line "nic-hdl", .text⟩,
    ⟨"description", paragraph ["descr"], .text⟩,
    ⟨"country", line "country", .country⟩,
    ⟨"address", paragraph ["address"], .text⟩,
    mailField,
    ⟨"updated", keyed ["changed"]
      [.many true Pattern.anyChar, .group "val" (digits 8), restOfLine], .timestamp⟩] (some compact)

/-- A key whose value is a run of digits up to the end of the line. -/
def digitLine (key : String) : Pattern :=
  keyed [key] [.group "val" (.atLeastOne false Char.isDigit), newline]

def lacnicTable : Table :=
  contiguousTable [
    ⟨"handle", line "nic-hdl", .text⟩,
    ⟨"description", paragraph ["owner"], .text⟩,
    ⟨"country", line "country", .country⟩,
    mailField,
    ⟨"created", digitLine "created", .timestamp⟩,
    ⟨"updated", digitLine "changed", .timestamp⟩] (some compact)

def afrinicTable : Table :=
  contiguousTable [
    ⟨"name", line "netname", .text⟩,
    ⟨"handle", line "nic-hdl", .text⟩,
    ⟨"description", paragraph ["descr"], .text⟩,
    ⟨"country", line "country", .country⟩,
    ⟨"address", paragraph ["address"], .text⟩,
    mailField] none

def table : Registry → Table
  | .arin => arinTable
  | .ripencc => ripenccTable
  | .apnic => apnicTable
  | .lacnic => lacnicTable
  | .afrinic => afrinicTable

def referralTable : Table :=
  contiguousTable [
    ⟨"cidr", tightLine ["network:IP-Network"], .text⟩,
    ⟨"name", tightLine ["network:ID"], .text⟩,
    ⟨"description",
      tightLine ["network:Org-Name", "network:Organization;I", "network:Organization"], .text⟩,
    ⟨"country", tightLine ["network:Country", "network:Country-Code"], .country⟩,
    ⟨"state", tightLine ["network:State"], .text⟩,
    ⟨"city", tightLine ["network:City"], .text⟩,
    ⟨"address", tightLine ["network:Street-Address"], .text⟩,
    ⟨"postal_code", tightLine ["network:Postal-Code"], .text⟩,
    mailField,
    ⟨"created", tightLine ["network:Created"], .timestamp⟩,
    ⟨"updated", tightLine ["network:Updated"], .timestamp⟩] none

end IpRegistry.Whois
