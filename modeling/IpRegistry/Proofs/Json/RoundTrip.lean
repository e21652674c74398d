import IpRegistry.Json.Scalar
import IpRegistry.Proofs.Cidr.RoundTrip
import IpRegistry.Proofs.Json.Reports

namespace IpRegistry

open Json

theorem Cidr.inverts : Inverts ofJson? toJson where
  decode_encode c := by simp [ofJson?, toJson, parse_text, Except.toOption]
  encode_ne_null _ := nofun

theorem Target.inverts : Inverts ofJson? toJson where
  decode_encode t := by simp [ofJson?, toJson, parse_text, Except.toOption]
  encode_ne_null _ := nofun

theorem Asn.ofJson?_toJson {asn : Asn} (h : asn < 2 ^ 32) : ofJson? (toJson asn) = some asn := by
  simpa [ofJson?, toJson] using h

theorem Asn.lt_of_ofJson? {j : Json} {asn : Asn} (h : ofJson? j = some asn) : asn < 2 ^ 32 := by
  simpa using (Option.filter_eq_some_iff.mp h).2

/-- How the values of a type are written and read. What a value keys is written in the order of its
keys; only regular values can be told from others once they are written. -/
structure Format where
  Value : Type
  write : Value → Json
  read? : Json → Option Value
  inOrder : Value → Value := id
  Ordered : Value → Prop := fun _ => True
  Regular : Value → Prop := fun _ => True

namespace Format

/-- Reads a value and writes it again. -/
def rewrite? (f : Format) (j : Json) : Option Json :=
  (f.read? j).map f.write

structure Lawful (f : Format) : Prop where
  read_write : ∀ v, f.Regular v → f.read? (f.write v) = some (f.inOrder v)
  inOrder_eq_self : ∀ v, f.Ordered v → f.inOrder v = v
  write_inOrder : ∀ v, f.write (f.inOrder v) = f.write v
  regular_of_read : ∀ j v, f.read? j = some v → f.Regular v

theorem Lawful.rewrite_of_rewrite {f : Format} (h : f.Lawful) {j written : Json}
    (hj : f.rewrite? j = some written) : f.rewrite? written = some written := by
  obtain ⟨v, hread, rfl⟩ := Option.map_eq_some_iff.mp hj
  have hagain := h.read_write v (h.regular_of_read j v hread)
  rw [rewrite?, hagain, Option.map_some, h.write_inOrder]

theorem lawful_of_inverts {α : Type} {decode : Json → Option α} {encode : α → Json}
    (h : Inverts decode encode) : Lawful ⟨α, encode, decode, id, fun _ => True, fun _ => True⟩ where
  read_write v _ := h.decode_encode v
  inOrder_eq_self _ _ := rfl
  write_inOrder _ := rfl
  regular_of_read _ _ _ := trivial

end Format

/-- The kinds of results that are written and read. -/
inductive ResultKind where
  | block
  | target
  | asn
  | asnRecord
  | route
  | allocation
  | whoisResult
  | nationalResult
  | network
  | entity
  | whoisReport
  | rdapReport
  | bulkStats
  | bulkResult
  deriving DecidableEq, Repr

namespace ResultKind

def format : ResultKind → Format
  | block => { Value := Cidr, write := Cidr.toJson, read? := Cidr.ofJson? }
  | target => { Value := Target, write := Target.toJson, read? := Target.ofJson? }
  | asn =>
    { Value := Asn, write := Asn.toJson, read? := Asn.ofJson?, Regular := fun asn => asn < 2 ^ 32 }
  | asnRecord =>
    { Value := Asn.Record, write := Asn.Record.toJson, read? := Asn.Record.ofJson? }
  | route => { Value := Origin.Route, write := Origin.Route.toJson, read? := Origin.Route.ofJson? }
  | allocation =>
    { Value := Whois.Allocation, write := Whois.Allocation.toJson, read? := Whois.Allocation.ofJson? }
  | whoisResult =>
    { Value := Whois.Result, write := Whois.Result.toJson, read? := Whois.Result.ofJson? }
  | nationalResult =>
    { Value := National.Result, write := National.Result.toJson, read? := National.Result.ofJson? }
  | network => { Value := Rdap.Network, write := Rdap.Network.toJson, read? := Rdap.Network.ofJson? }
  | entity => { Value := Rdap.Entity, write := Rdap.Entity.toJson, read? := Rdap.Entity.ofJson? }
  | whoisReport =>
    { Value := WhoisReport, write := WhoisReport.toJson, read? := WhoisReport.ofJson?
      Regular := fun r => r.asn.raw = none }
  | rdapReport =>
    { Value := RdapReport, write := RdapReport.toJson, read? := RdapReport.ofJson?
      inOrder := RdapReport.inOrder, Ordered := RdapReport.Ordered, Regular := RdapReport.Regular }
  | bulkStats =>
    { Value := Bulk.Stats, write := Bulk.Stats.toJson, read? := Bulk.Stats.ofJson?
      inOrder := Bulk.Stats.inOrder, Ordered := Bulk.Stats.Ordered }
  | bulkResult =>
    { Value := Bulk.Result, write := Bulk.Result.toJson, read? := Bulk.Result.ofJson?
      inOrder := Bulk.Result.inOrder, Ordered := Bulk.Result.Ordered
      Regular := Bulk.Result.Regular }

theorem lawful_asn : asn.format.Lawful where
  read_write _ h := Asn.ofJson?_toJson h
  inOrder_eq_self _ _ := rfl
  write_inOrder _ := rfl
  regular_of_read _ _ h := Asn.lt_of_ofJson? h

theorem lawful_whoisReport : whoisReport.format.Lawful where
  read_write _ h := WhoisReport.ofJson?_toJson h
  inOrder_eq_self _ _ := rfl
  write_inOrder _ := rfl
  regular_of_read _ _ h := WhoisReport.asn_raw_of_ofJson? h

theorem lawful_rdapReport : rdapReport.format.Lawful where
  read_write _ h := RdapReport.ofJson?_toJson h
  inOrder_eq_self _ h := RdapReport.inOrder_eq_self h
  write_inOrder := RdapReport.toJson_inOrder
  regular_of_read _ _ h := RdapReport.regular_of_ofJson? h

theorem lawful_bulkStats : bulkStats.format.Lawful where
  read_write s _ := s.ofJson?_toJson
  inOrder_eq_self _ h := Bulk.Stats.inOrder_eq_self h
  write_inOrder := Bulk.Stats.toJson_inOrder
  regular_of_read _ _ _ := trivial

theorem lawful_bulkResult : bulkResult.format.Lawful where
  read_write _ h := Bulk.Result.ofJson?_toJson h
  inOrder_eq_self _ h := Bulk.Result.inOrder_eq_self h
  write_inOrder := Bulk.Result.toJson_inOrder
  regular_of_read _ _ h := Bulk.Result.regular_of_ofJson? h

theorem lawful (k : ResultKind) : k.format.Lawful := by
  cases k with
  | block => exact Format.lawful_of_inverts Cidr.inverts
  | target => exact Format.lawful_of_inverts Target.inverts
  | asn => exact lawful_asn
  | asnRecord => exact Format.lawful_of_inverts Asn.Record.inverts
  | route => exact Format.lawful_of_inverts Origin.Route.inverts
  | allocation => exact Format.lawful_of_inverts Whois.Allocation.inverts
  | whoisResult => exact Format.lawful_of_inverts Whois.Result.inverts
  | nationalResult => exact Format.lawful_of_inverts National.Result.inverts
  | network => exact Format.lawful_of_inverts Rdap.Network.inverts
  | entity => exact Format.lawful_of_inverts Rdap.Entity.inverts
  | whoisReport => exact lawful_whoisReport
  | rdapReport => exact lawful_rdapReport
  | bulkStats => exact lawful_bulkStats
  | bulkResult => exact lawful_bulkResult

end ResultKind

/-- A regular result of any kind is read as it was written, with what is keyed in the order of its
keys, so one that keeps that order is read as itself. What any JSON value becomes when it is read and
written again, it stays when that is done once more. -/
theorem results_round_trip (k : ResultKind) :
    (∀ v, k.format.Regular v → k.format.read? (k.format.write v) = some (k.format.inOrder v)) ∧
    (∀ v, k.format.Ordered v → k.format.inOrder v = v) ∧
    ∀ j written, k.format.rewrite? j = some written →
      k.format.rewrite? written = some written :=
  ⟨k.lawful.read_write, k.lawful.inOrder_eq_self, fun _ _ => k.lawful.rewrite_of_rewrite⟩

/-- A report with two entities, the later one first. -/
def unorderedReport : RdapReport where
  query := "8.8.8.8"
  asn := some { registry := .arin }
  network := { handle := "NET-8-8-8-0-1" }
  entities := ["B"]
  objects := [("B", { handle := "B" }), ("A", { handle := "A" })]
  raw := some (.array [.null])

theorem results_round_trip_unordered :
    unorderedReport.Regular ∧
      RdapReport.ofJson? unorderedReport.toJson = some { unorderedReport with
        objects := [("A", { handle := "A" }), ("B", { handle := "B" })] } := by
  have hregular : unorderedReport.Regular := by
    refine ⟨?_, by simp [unorderedReport]⟩
    intro a ha
    cases ha
    rfl
  have hobjects : unorderedReport.objects.inOrder id =
      [("A", { handle := "A" }), ("B", { handle := "B" })] := by
    decide +kernel
  have hread : RdapReport.ofJson? unorderedReport.toJson = some unorderedReport.inOrder :=
    (results_round_trip .rdapReport).1 unorderedReport hregular
  rw [RdapReport.inOrder, hobjects] at hread
  exact ⟨hregular, hread⟩

end IpRegistry
