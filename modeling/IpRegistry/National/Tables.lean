import IpRegistry.Field.Shape
import IpRegistry.Registry
import IpRegistry.Web

namespace IpRegistry.National

open IpRegistry.Field Pattern

def slashed : Calendar.Format :=
  [.year, .literal "/", .month, .literal "/", .day]

/-- The dates of JPNIC: Japan standard time, or a date alone. -/
def jpnicDates : Calendar.DatePolicy where
  format := slashed ++ [.blank, .hour, .literal ":", .minute, .literal ":", .second, .literal "(JST)"]
  fallback := some slashed
  hourOffset := 9

def krnicDates : Calendar.DatePolicy where
  format := [.year, .month, .day]
  fallback := some slashed

def looseTable (dates : Calendar.DatePolicy) (fields : List Spec) : Table where
  fields := fields
  dates := some dates
  contiguous := false

/-- A key in brackets, blanks, and a value that is the text of a link at the end of a line. -/
def linkLine (key : String) : Pattern :=
  concat [Pattern.ofText ("[" ++ key ++ "]"), blanks, atLeastOne false anyChar, Pattern.ofText ">",
    shortValue, Pattern.ofText "</A>", newline]

/-- One of several keys, white space, a colon, blanks and a value up to the end of the line. -/
def spacedLine (keys : List String) : Pattern :=
  concat [oneOf (keys.map Pattern.ofText), atLeastOne true Text.isBlank, Pattern.ofText ":", blanks,
    shortValue, newline]

/-- The text of an element that is marked by an attribute, up to the tag that a line feed follows. -/
def element (mark : String) : Pattern :=
  concat [Pattern.ofText mark, atLeastOne false anyChar, Pattern.ofText ">", anyValue,
    Pattern.ofText "<", newline]

/-- A key, blanks, a colon, blanks and a value, perhaps empty, up to the end of the line. -/
def looseLine (key : String) : Pattern :=
  concat [Pattern.ofText key, atLeastOne false inlineBlank, Pattern.ofText ":",
    atLeastOne false inlineBlank, anyValue, newline]

def table : NationalRegistry → Table
  | .jpnic => looseTable jpnicDates [
      ⟨"name", bracketLine "Organization", .text⟩,
      ⟨"handle", bracketLine "Network Name", .text⟩,
      ⟨"created", bracketLine "Assigned Date", .timestamp⟩,
      ⟨"updated", bracketLine "Last Update", .timestamp⟩,
      ⟨"nameservers", bracketLine "Nameserver", .list⟩,
      ⟨"contact_admin", linkLine "Administrative Contact", .text⟩,
      ⟨"contact_tech", linkLine "Technical Contact", .text⟩]
  | .krnic => looseTable krnicDates [
      ⟨"name", spacedLine ["Organization Name"], .text⟩,
      ⟨"handle", spacedLine ["Service Name", "Network Type"], .text⟩,
      ⟨"address", spacedLine ["Address"], .text⟩,
      ⟨"postal_code", spacedLine ["Zip Code"], .text⟩,
      ⟨"created", spacedLine ["Registered Date"], .timestamp⟩,
      ⟨"contact_admin", element "id=\"eng_isp_contact\"", .text⟩,
      ⟨"contact_tech", element "id=\"eng_user_contact\"", .text⟩]

def contactTable : NationalRegistry → Table
  | .jpnic => looseTable jpnicDates [
      ⟨"name", bracketLine "Last, First", .text⟩,
      ⟨"email", bracketLine "E-Mail", .text⟩,
      ⟨"reply_email", bracketLine "Reply Mail", .text⟩,
      ⟨"organization", bracketLine "Organization", .text⟩,
      ⟨"division", bracketLine "Division", .text⟩,
      ⟨"title", bracketLine "Title", .text⟩,
      ⟨"phone", bracketLine "TEL", .text⟩,
      ⟨"fax", bracketLine "FAX", .text⟩,
      ⟨"updated", bracketLine "Last Update", .timestamp⟩]
  | .krnic => looseTable krnicDates [
      ⟨"name", looseLine "Name", .text⟩,
      ⟨"email", looseLine "E-Mail", .text⟩,
      ⟨"phone", looseLine "Phone", .text⟩]

/-- The URL at which a registry is asked for an address or a contact. -/
def url (registry : NationalRegistry) (key : String) : String :=
  match registry with
  | .jpnic => "http://whois.nic.ad.jp/cgi-bin/whois_gw?lang=%2Fe&key=" ++ key ++ "&submit=query"
  | .krnic => "https://xn--c79as89aj0e29b77z.xn--3e0b707e/eng/whois.jsc"

def method : NationalRegistry → Web.Method
  | .jpnic => .get
  | .krnic => .post

def formField? : NationalRegistry → Option String
  | .jpnic => none
  | .krnic => some "query"

end IpRegistry.National
