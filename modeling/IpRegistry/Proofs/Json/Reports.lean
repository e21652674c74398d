import IpRegistry.Bulk
import IpRegistry.Proofs.Json.Records
import IpRegistry.Report

namespace IpRegistry

open Json

namespace Asn.Record

/-- A record that is read among the members of another one has no answer, if the other one has a
member of that name. -/
theorem raw_of_run_outside {place : Place} {own : List String} (hown : "raw" ∈ own)
    {members : List (String × Json)} {r : Record} {source : Source}
    (h : (reader place).run (.named (outside own members)) = some (r, source)) : r.raw = none := by
  have hraw := lookup_outside hown members
  simp [reader, hraw, Reader.andThen_eq_some_iff, Option.bind_eq_some_iff] at h
  obtain ⟨_, _, _, _, _, _, _, _, _, _, _, _, _, _, rfl⟩ := h
  rfl

end Asn.Record

namespace WhoisReport

theorem outside_members {r : WhoisReport} (h : r.asn.raw = none) :
    outside ownNames r.members = r.asn.members := by
  simp [members, Asn.Record.members, ownNames, h]

/-- A report whose record of an autonomous system has no answer is read as it was written. -/
theorem ofJson?_toJson {r : WhoisReport} (h : r.asn.raw = none) : ofJson? r.toJson = some r := by
  have houtside := outside_members h
  have hvalue (name : String) := congrArg (valueOf? name) (members.eq_def r)
  have hown (name : String) (hname : name ∈ ownNames) : valueOf? name r.asn.members = none :=
    houtside ▸ valueOf?_outside hname _
  simp (disch := decide) [ofJson?, toJson, reader, houtside, Asn.Record.run_reader, hvalue, hown,
    Inverts.text.elim_map, Whois.Allocation.inverts.listOf.decode_encode,
    Whois.Allocation.inverts.nullable, National.Result.inverts.nullable]

theorem asn_raw_of_ofJson? {j : Json} {r : WhoisReport} (h : ofJson? j = some r) :
    r.asn.raw = none := by
  cases j with
  | object members =>
    simp [ofJson?, reader, Reader.readObject?, Reader.readMembers?, Reader.andThen_eq_some_iff,
      Option.bind_eq_some_iff] at h
    obtain ⟨_, _, asn, ⟨_, hasn⟩, _, _, _, _, _, _, _, _, _, _, rfl⟩ := h
    exact Asn.Record.raw_of_run_outside (by decide) hasn
  | _ => cases h

end WhoisReport

namespace RdapReport

/-- The record of an autonomous system has no answer, and the answer that is kept is not null. -/
def Regular (r : RdapReport) : Prop :=
  (∀ a ∈ r.asn, a.raw = none) ∧ r.raw ≠ some .null

/-- The report with the entities in the order of their handles. -/
def inOrder (r : RdapReport) : RdapReport :=
  { r with objects := r.objects.inOrder id }

/-- The entities stand in the order of their handles. -/
def Ordered (r : RdapReport) : Prop :=
  Keyed.Ordered id r.objects

theorem inOrder_eq_self {r : RdapReport} (h : r.Ordered) : r.inOrder = r := by
  rw [inOrder, Keyed.inOrder_eq_self h]

theorem outside_members {r : RdapReport} (h : ∀ a ∈ r.asn, a.raw = none) :
    outside ownNames r.members = (r.asn.map Asn.Record.members).getD [] := by
  obtain ⟨query, asn, network, entities, objects, national, raw⟩ := r
  cases asn with
  | none => simp [members, ownNames]
  | some a => simp [members, Asn.Record.members, ownNames, h a rfl]

theorem objectsOfJson?_objectsToJson (objects : Keyed String Rdap.Entity) :
    Rdap.objectsOfJson? (Rdap.objectsToJson objects) = some (objects.inOrder id) := by
  have hread := keyedOf_ofKeyed id fun item (_ : item ∈ objects) =>
    Rdap.Entity.inverts.decode_encode item.2
  exact hread.trans (congrArg some (List.map_id' _))

/-- A regular report is read as it was written, with what is keyed in the order of the keys. -/
theorem ofJson?_toJson {r : RdapReport} (h : r.Regular) : ofJson? r.toJson = some r.inOrder := by
  obtain ⟨hasn, hraw⟩ := h
  have houtside := outside_members hasn
  have hvalue (name : String) := congrArg (valueOf? name) (members.eq_def r)
  have hown (name : String) (hname : name ∈ ownNames) :
      valueOf? name ((r.asn.map Asn.Record.members).getD []) = none :=
    houtside ▸ valueOf?_outside hname _
  have hrun : ((Asn.Record.reader .among).run (.named
      (Keyed.inOrder id ((r.asn.map Asn.Record.members).getD [])))).map Prod.fst = r.asn := by
    cases r.asn with
    | none => rfl
    | some a => simp [Asn.Record.run_reader]
  simp (disch := decide) [ofJson?, toJson, reader, houtside, hrun, hvalue, hown,
    elim_nullable_some hraw, inOrder, Rdap.Network.inverts.decode_encode,
    Inverts.texts.decode_encode, objectsOfJson?_objectsToJson, National.Result.inverts.nullable]

theorem regular_of_ofJson? {j : Json} {r : RdapReport} (h : ofJson? j = some r) : r.Regular := by
  cases j with
  | object members =>
    simp [ofJson?, reader, Reader.readObject?, Reader.readMembers?, Reader.andThen_eq_some_iff,
      Option.bind_eq_some_iff] at h
    obtain ⟨_, _, _, _, _, _, _, _, _, _, raw, hraw, rfl⟩ := h
    refine ⟨?_, elim_nullable_ne_null hraw⟩
    intro a ha
    obtain ⟨⟨_, source⟩, hrun, rfl⟩ := Option.map_eq_some_iff.mp ha
    exact Asn.Record.raw_of_run_outside (by decide) hrun
  | _ => cases h

theorem toJson_inOrder (r : RdapReport) : r.inOrder.toJson = r.toJson := by
  simp [toJson, members, inOrder, Rdap.objectsToJson, ofKeyed_inOrder]

end RdapReport

namespace Bulk

theorem RegistryStats.inverts : Inverts reader.read? toJson where
  decode_encode s := by simp [toJson, reader, Inverts.texts.decode_encode]
  encode_ne_null _ := ofMembers_ne_null _

theorem RegistryStats.ofMember?_member (item : Registry × RegistryStats) :
    ofMember? (member item).1 (member item).2 = some item := by
  simp [ofMember?, member, inverts.decode_encode]

namespace Stats

/-- The statistics with the registries in the order of their names. -/
def inOrder (s : Stats) : Stats :=
  { s with registries := s.registries.inOrder Registry.name }

/-- The registries stand in the order of their names. -/
def Ordered (s : Stats) : Prop :=
  Keyed.Ordered Registry.name s.registries

theorem inOrder_eq_self {s : Stats} (h : s.Ordered) : s.inOrder = s := by
  rw [inOrder, Keyed.inOrder_eq_self h]

theorem name_not_own (r : Registry) : r.name ∉ ownNames := by
  cases r <;> decide

theorem inOrder_registries (registries : Keyed Registry RegistryStats) :
    Keyed.inOrder id (registries.map RegistryStats.member) =
      (registries.inOrder Registry.name).map RegistryStats.member :=
  Keyed.inOrder_map Registry.name RegistryStats.toJson registries

theorem outside_registries (registries : Keyed Registry RegistryStats) :
    outside ownNames (registries.map RegistryStats.member) =
      registries.map RegistryStats.member := by
  refine List.filter_eq_self.mpr ?_
  intro m hm
  obtain ⟨item, -, rfl⟩ := List.mem_map.mp hm
  have hname : (RegistryStats.member item).1 ∉ ownNames := name_not_own item.1
  simpa using hname

theorem outside_members (s : Stats) :
    outside ownNames s.members = s.registries.map RegistryStats.member := by
  have hregistries := outside_registries s.registries
  rw [ownNames] at hregistries
  simp [members, ownNames, hregistries]

theorem mapM_registries (registries : Keyed Registry RegistryStats) :
    ((registries.map RegistryStats.member).mapM fun m => RegistryStats.ofMember? m.1 m.2) =
      some registries := by
  rw [mapM_map_eq_some id fun item _ => RegistryStats.ofMember?_member item, List.map_id]

/-- Statistics are read as they were written, with the registries in the order of their names. -/
theorem ofJson?_toJson (s : Stats) : ofJson? s.toJson = some s.inOrder := by
  have hvalue (name : String) := congrArg (valueOf? name) (members.eq_def s)
  have hown (name : String) (hname : name ∈ ownNames) :
      valueOf? name (s.registries.map RegistryStats.member) = none :=
    outside_registries s.registries ▸ valueOf?_outside hname _
  simp (disch := decide) [-List.mapM_map, ofJson?, toJson, reader, outside_members,
    inOrder_registries, mapM_registries, hvalue, hown, Inverts.texts.decode_encode, inOrder]

theorem toJson_inOrder (s : Stats) : s.inOrder.toJson = s.toJson := by
  have hregistries (name : String) :
      valueOf? name ((s.registries.inOrder Registry.name).map RegistryStats.member) =
        valueOf? name (s.registries.map RegistryStats.member) := by
    rw [← inOrder_registries, ← lookup_inOrder, Keyed.inOrder_inOrder, lookup_inOrder]
  rw [toJson, toJson, ofMembers_eq, ofMembers_eq]
  refine congrArg object (inOrder_ext fun name => ?_)
  simp [members, inOrder, hregistries]

end Stats

namespace Result

/-- Every report is regular. -/
def Regular (r : Result) : Prop :=
  ∀ item ∈ r.reports, item.2.Regular

/-- The result with the reports in the order of their addresses, and each of them and the statistics
in order. -/
def inOrder (r : Result) : Result where
  reports := Keyed.inOrder id (r.reports.map fun item => (item.1, item.2.inOrder))
  stats := r.stats.inOrder

/-- The reports stand in the order of their addresses, and each of them and the statistics is in
order. -/
structure Ordered (r : Result) : Prop where
  reports : Keyed.Ordered id r.reports
  report : ∀ item ∈ r.reports, item.2.Ordered
  stats : r.stats.Ordered

theorem inOrder_eq_self {r : Result} (h : r.Ordered) : r.inOrder = r := by
  have hreports : (r.reports.map fun item => (item.1, item.2.inOrder)) = r.reports := by
    refine (List.map_congr_left ?_).trans (List.map_id _)
    intro item hitem
    exact congrArg (Prod.mk item.1) (RdapReport.inOrder_eq_self (h.report item hitem))
  rw [inOrder, hreports, Keyed.inOrder_eq_self h.reports, Stats.inOrder_eq_self h.stats]

theorem inOrder_reports (reports : Keyed String RdapReport) :
    Keyed.inOrder id (reports.map fun item => (item.1, item.2.inOrder)) =
      (Keyed.inOrder id reports).map fun item => (item.1, item.2.inOrder) :=
  Keyed.inOrder_map id RdapReport.inOrder reports

theorem ofJson?_toJson {r : Result} (h : r.Regular) : ofJson? r.toJson = some r.inOrder := by
  have hreports := keyedOf_ofKeyed RdapReport.inOrder fun item (hitem : item ∈ r.reports) =>
    RdapReport.ofJson?_toJson (h item hitem)
  simp [ofJson?, toJson, reader, hreports, Stats.ofJson?_toJson, inOrder, inOrder_reports]

theorem toJson_inOrder (r : Result) : r.inOrder.toJson = r.toJson := by
  have hreports : ofKeyed RdapReport.toJson r.inOrder.reports =
      ofKeyed RdapReport.toJson r.reports := by
    rw [inOrder, ofKeyed_inOrder, ofKeyed, ofKeyed, List.map_map]
    simp only [Function.comp_def, RdapReport.toJson_inOrder]
  have hstats : r.inOrder.stats.toJson = r.stats.toJson := r.stats.toJson_inOrder
  rw [toJson, toJson, hreports, hstats]

theorem regular_of_ofJson? {j : Json} {r : Result} (h : ofJson? j = some r) : r.Regular := by
  obtain ⟨source, rest, hrun⟩ := Reader.exists_run_of_read? h
  simp only [reader, Reader.run_bind, Reader.andThen_eq_some_iff] at hrun
  obtain ⟨reports, _, hreports, stats, _, -, heq⟩ := hrun
  cases heq
  obtain ⟨document, hdocument⟩ := Reader.exists_of_required hreports
  intro item hitem
  obtain ⟨v, hv⟩ := exists_of_keyedOf hdocument hitem
  exact RdapReport.regular_of_ofJson? hv

end Result

end Bulk

end IpRegistry
