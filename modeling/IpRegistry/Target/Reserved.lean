import IpRegistry.Cidr

namespace IpRegistry

/-- A special use of a block: its name and the document that defines it. -/
structure Reservation where
  block : Cidr
  name : String
  rfc : String
  deriving DecidableEq, Repr

namespace Reservation

/-- A reservation of a version 4 block, given by its bytes. -/
def v4 (octets : List Nat) (prefixLen : Nat) (h : prefixLen ≤ 32) (name rfc : String) :
    Reservation where
  block := .containing (.ofNat .v4 (Address.ofDigits 256 octets)) prefixLen h
  name := name
  rfc := rfc

/-- A reservation of a version 6 block, given by its groups up to the last one that is not zero. -/
def v6 (groups : List Nat) (prefixLen : Nat) (h : prefixLen ≤ 128) (name rfc : String) :
    Reservation where
  block :=
    let padded := groups ++ List.replicate (8 - groups.length) 0
    .containing (.ofNat .v6 (Address.ofDigits 65536 padded)) prefixLen h
  name := name
  rfc := rfc

/-- The special uses of version 4 blocks, in the order in which they are tried. -/
def table4 : List Reservation := [
  v4 [0, 0, 0, 0] 8 (by decide) "This Network" "RFC 1122, Section 3.2.1.3",
  v4 [127, 0, 0, 0] 8 (by decide) "Loopback" "RFC 1122, Section 3.2.1.3",
  v4 [169, 254, 0, 0] 16 (by decide) "Link Local" "RFC 3927",
  v4 [192, 0, 0, 0] 24 (by decide) "IETF Protocol Assignments" "RFC 5736",
  v4 [192, 0, 2, 0] 24 (by decide) "TEST-NET-1" "RFC 5737",
  v4 [192, 88, 99, 0] 24 (by decide) "6to4 Relay Anycast" "RFC 3068",
  v4 [198, 18, 0, 0] 15 (by decide) "Network Interconnect Device Benchmark Testing" "RFC 2544",
  v4 [198, 51, 100, 0] 24 (by decide) "TEST-NET-2" "RFC 5737",
  v4 [203, 0, 113, 0] 24 (by decide) "TEST-NET-3" "RFC 5737",
  v4 [224, 0, 0, 0] 4 (by decide) "Multicast" "RFC 3171",
  v4 [255, 255, 255, 255] 32 (by decide) "Limited Broadcast" "RFC 919, Section 7",
  v4 [10, 0, 0, 0] 8 (by decide) "Private-Use Networks" "RFC 1918",
  v4 [172, 16, 0, 0] 12 (by decide) "Private-Use Networks" "RFC 1918",
  v4 [192, 168, 0, 0] 16 (by decide) "Private-Use Networks" "RFC 1918",
  v4 [100, 64, 0, 0] 10 (by decide) "Shared Address Space" "RFC 6598",
  v4 [240, 0, 0, 0] 4 (by decide) "Reserved for Future Use" "RFC 1112, Section 4"
]

/-- A version 6 block that is not assigned to any use. -/
def unassigned (group prefixLen : Nat) (h : prefixLen ≤ 128) : Reservation :=
  v6 [group] prefixLen h "Reserved" "RFC 4291"

/-- The special uses of version 6 blocks, in the order in which they are tried. -/
def table6 : List Reservation := [
  v6 [0xff00] 8 (by decide) "Multicast" "RFC 4291, Section 2.7",
  v6 [] 128 (by decide) "Unspecified" "RFC 4291, Section 2.5.2",
  v6 [0, 0, 0, 0, 0, 0, 0, 1] 128 (by decide) "Loopback" "RFC 4291, Section 2.5.3",
  unassigned 0 8 (by decide),
  unassigned 0x100 8 (by decide),
  unassigned 0x200 7 (by decide),
  unassigned 0x400 6 (by decide),
  unassigned 0x800 5 (by decide),
  unassigned 0x1000 4 (by decide),
  unassigned 0x4000 3 (by decide),
  unassigned 0x6000 3 (by decide),
  unassigned 0x8000 3 (by decide),
  unassigned 0xa000 3 (by decide),
  unassigned 0xc000 3 (by decide),
  unassigned 0xe000 4 (by decide),
  unassigned 0xf000 5 (by decide),
  unassigned 0xf800 6 (by decide),
  unassigned 0xfe00 9 (by decide),
  v6 [0xfe80] 10 (by decide) "Link-Local" "RFC 4291, Section 2.5.6",
  v6 [0xfec0] 10 (by decide) "Site-Local" "RFC 4291, Section 2.5.7",
  v6 [0x2001, 0xdb8] 32 (by decide) "Documentation" "RFC 3849",
  v6 [0x2001] 23 (by decide) "IETF Protocol Assignments" "RFC 2928",
  v6 [0xfc00] 7 (by decide) "Unique Local Unicast" "RFC 4193"
]

def table : Family → List Reservation
  | .v4 => table4
  | .v6 => table6

end Reservation

/-- The special use of an address, if it has one. -/
def Address.reservation? (a : Address) : Option Reservation :=
  (Reservation.table a.family).find? fun r => r.block.contains a

end IpRegistry
