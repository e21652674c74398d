import IpRegistry.Asn.Answer
import IpRegistry.National.Lookup
import IpRegistry.Origin
import IpRegistry.Proofs.Json.Reader
import IpRegistry.Rdap.Record
import IpRegistry.Whois.Lookup

namespace IpRegistry

open Json

theorem Origin.Route.inverts : Inverts ofJson? toJson where
  decode_encode r := by simp [ofJson?, toJson, reader]
  encode_ne_null _ := ofMembers_ne_null _

@[simp] theorem Registry.ofName?_name (r : Registry) : ofName? r.name = some r := by
  cases r <;> rfl

theorem Registry.caseOf_name (place : Place) (r : Registry) :
    caseOf place Registry.ofName? (.text r.name) = some r :=
  r.ofName?_name

namespace Asn

theorem Method.caseOf_name (place : Place) (m : Method) :
    caseOf place Method.ofName? (.text m.name) = some m := by
  cases m <;> rfl

theorem Record.run_reader (place : Place) (r : Record) :
    (reader place).run (.named (Keyed.inOrder id r.members)) =
      some (r, .named (Keyed.inOrder id r.members)) := by
  simp [reader, members, Registry.caseOf_name, Method.caseOf_name, Inverts.text.elim_map]

theorem Record.inverts : Inverts ofJson? toJson where
  decode_encode r := by simp [ofJson?, toJson, run_reader]
  encode_ne_null _ := ofMembers_ne_null _

end Asn

theorem Whois.Allocation.inverts : Inverts ofJson? toJson where
  decode_encode a := by simp [ofJson?, toJson, reader]
  encode_ne_null _ := ofMembers_ne_null _

theorem Whois.Result.inverts : Inverts ofJson? toJson where
  decode_encode r := by
    simp [ofJson?, toJson, reader, Inverts.text.elim_map,
      Allocation.inverts.listOf.decode_encode, Allocation.inverts.nullable]
  encode_ne_null _ := ofMembers_ne_null _

namespace National

theorem Contact.inverts : Inverts reader.read? toJson where
  decode_encode c := by simp [toJson, reader]
  encode_ne_null _ := ofMembers_ne_null _

theorem Contacts.inverts : Inverts reader.read? toJson where
  decode_encode c := by simp [toJson, reader, Contact.inverts.nullable]
  encode_ne_null _ := ofMembers_ne_null _

theorem Allocation.inverts : Inverts reader.read? toJson where
  decode_encode a := by simp [toJson, reader, Contacts.inverts.decode_encode]
  encode_ne_null _ := ofMembers_ne_null _

theorem Result.inverts : Inverts ofJson? toJson where
  decode_encode r := by
    simp [ofJson?, toJson, reader, Inverts.text.elim_map, Allocation.inverts.listOf.decode_encode]
  encode_ne_null _ := ofMembers_ne_null _

end National

namespace Rdap

theorem Notice.inverts : Inverts reader.read? toJson where
  decode_encode n := by simp [toJson, reader]
  encode_ne_null _ := ofMembers_ne_null _

theorem Event.inverts : Inverts reader.read? toJson where
  decode_encode e := by simp [toJson, reader]
  encode_ne_null _ := ofMembers_ne_null _

theorem ContactValue.inverts : Inverts reader.read? toJson where
  decode_encode v := by simp [toJson, reader]
  encode_ne_null _ := ofMembers_ne_null _

theorem Contact.inverts : Inverts reader.read? toJson where
  decode_encode c := by
    simp [toJson, reader, ContactValue.listToJson, ContactValue.listOfJson?,
      ContactValue.inverts.listOf.nullable]
  encode_ne_null _ := ofMembers_ne_null _

theorem Common.run_reader (c : Common) {members : List (String × Json)}
    (h : c.members <:+ members) :
    reader.run (.named (Keyed.inOrder id members)) =
      some (c, .named (Keyed.inOrder id members)) := by
  obtain ⟨own, rfl⟩ := h
  simp [reader, Common.members, noticesToJson, eventsToJson, Notice.inverts.listOf.nullable,
    Event.inverts.listOf.nullable]

theorem Network.inverts : Inverts ofJson? toJson where
  decode_encode n := by
    have hvalue (name : String) := congrArg (valueOf? name) (Common.members.eq_def n.common)
    simp [ofJson?, toJson, reader, hvalue, Common.run_reader n.common, List.suffix_cons_iff]
  encode_ne_null _ := ofMembers_ne_null _

theorem Entity.inverts : Inverts ofJson? toJson where
  decode_encode e := by
    have hvalue (name : String) := congrArg (valueOf? name) (Common.members.eq_def e.common)
    simp [ofJson?, toJson, reader, hvalue, Common.run_reader e.common, List.suffix_cons_iff,
      eventsToJson, Contact.inverts.nullable, Event.inverts.listOf.nullable]
  encode_ne_null _ := ofMembers_ne_null _

end Rdap

end IpRegistry
