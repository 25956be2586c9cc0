import WgPortal.Domain.CidrArithmetic

/-! The conversions between the records of prefixes and the networks that the kernel is given and
that it reports, which both go through a text. -/

namespace WgPortal.Domain

open Library.NetIP Library.Net

namespace Cidr

def ipNet (c : Cidr) : IPNet := ofPrefix c

def fromIpNet (ipNet : IPNet) : Option Cidr := cidrFromString (String.ofList (text ipNet))

/-- A network is read as what it is written as. -/
theorem fromIpNet_of_text {net : IPNet} {c : Cidr} (written : text net = Prefix.text c) :
    fromIpNet net = some c := by
  rw [fromIpNet, written, cidrFromString_text]

theorem fromIpNet_ipNet (c : Cidr) : fromIpNet (ipNet c) = some (unmapped c) :=
  fromIpNet_of_text (text_ofPrefix c)

/-- So is what is reported of it. -/
theorem fromIpNet_shortNet (c : Cidr) : fromIpNet (shortNet c) = some (unmapped c) :=
  fromIpNet_of_text (text_shortNet c)

end Cidr

namespace CidrArithmetic

/-- `IpNet`: the address is not masked. -/
def CidrRecord.ipNet (c : CidrRecord) : Option IPNet :=
  c.string.bind fun str => (parseCIDR str.toList).map fun parsed => ⟨parsed.1, parsed.2.mask⟩

/-- The zero record stands for what cannot be parsed. -/
def cidrFromIpNet (ipNet : IPNet) : CidrRecord :=
  (cidrFromString (String.ofList (text ipNet))).getD .zero

/-- `netlink.Addr` -/
structure NetlinkAddr where
  ipNet : IPNet

def cidrFromNetlinkAddr (addr : NetlinkAddr) : CidrRecord :=
  (cidrFromString (String.ofList (text addr.ipNet))).getD .zero

def CidrRecord.netlinkAddr (c : CidrRecord) : Option NetlinkAddr := c.ipNet.map NetlinkAddr.mk

/-- A record is read back from its text, from its network and from its address. -/
structure RoundTrips (c : CidrRecord) : Prop where
  string : c.string.bind cidrFromString = some c
  ipNet : c.ipNet.map cidrFromIpNet = some c
  netlinkAddr : c.netlinkAddr.map cidrFromNetlinkAddr = some c

section Records

variable (p : Prefix)

theorem record_injective : Function.Injective record := by
  intro p q same
  have parsed := congrArg CidrRecord.toPrefix same
  rw [toPrefix_record, toPrefix_record] at parsed
  injection parsed with valid
  injection valid

theorem string_record : (record p).string = some (String.ofList p.text) := by
  rw [CidrRecord.string, toPrefix_record]
  rfl

theorem cidrFromString_record : cidrFromString (String.ofList p.text) =
    some (record p) := by
  rw [cidrFromString, Domain.cidrFromString_text]
  rfl

theorem ipNet_record : (record p).ipNet = some (Cidr.ipNet p) := by
  obtain ⟨net, parsed, mask⟩ := parseCIDR_text p
  rw [CidrRecord.ipNet, string_record, Option.bind_some, String.toList_ofList, parsed,
    Option.map_some, mask]
  rfl

/-- Networks that are not written as prefixes are read as the zero record. -/
theorem cidrFromIpNet_eq (net : IPNet) :
    cidrFromIpNet net = (Cidr.fromIpNet net).elim .zero record := by
  rw [cidrFromIpNet, cidrFromString, Cidr.fromIpNet]
  cases Domain.cidrFromString (String.ofList (text net)) <;> rfl

theorem cidrFromIpNet_ipNet : cidrFromIpNet (Cidr.ipNet p) = record (unmapped p) := by
  rw [cidrFromIpNet_eq, Cidr.fromIpNet_ipNet]
  rfl

theorem unmapped_eq_self {p : Prefix} : unmapped p = p ↔ ¬ Mapped p.addr := by
  constructor
  · intro same mapped
    rw [unmapped, if_pos mapped] at same
    have family := mapped.1
    rw [← same] at family
    cases family
  · exact fun other => if_neg other

end Records

/-- All records are read back but those of IPv6 addresses that stand for IPv4 addresses, which
are read as these. -/
theorem roundTrips_iff {str : String} {c : CidrRecord} (accepted : cidrFromString str = some c) :
    ∃ p, c.toPrefix = some (.valid p) ∧ (RoundTrips c ↔ ¬ Mapped p.addr) := by
  obtain ⟨p, _, rfl⟩ := Option.map_eq_some_iff.mp accepted
  refine ⟨p, toPrefix_record p, ?_⟩
  change RoundTrips (record p) ↔ _
  have read : (record p).ipNet.map cidrFromIpNet = some (record (unmapped p)) := by
    rw [ipNet_record, Option.map_some, cidrFromIpNet_ipNet]
  constructor
  · intro returns
    exact unmapped_eq_self.mp (record_injective (Option.some.inj (read.symm.trans returns.ipNet)))
  · intro other
    rw [unmapped_eq_self.mpr other] at read
    refine ⟨?_, read, ?_⟩
    · rw [string_record, Option.bind_some, cidrFromString_record]
    · have wrapped : cidrFromNetlinkAddr ∘ NetlinkAddr.mk = cidrFromIpNet := by
        funext net
        simp only [Function.comp_apply, cidrFromNetlinkAddr, cidrFromIpNet]
      rw [CidrRecord.netlinkAddr, Option.map_map, wrapped, read]

/-- The address of a client is read back. -/
theorem clientAddress_roundTrips : cidrFromString "fd00::2/128" =
      some ⟨"fd00::2/128", "fd00::2", 128⟩ ∧
    ∃ p, CidrRecord.toPrefix ⟨"fd00::2/128", "fd00::2", 128⟩ = some (.valid p) ∧
      (RoundTrips ⟨"fd00::2/128", "fd00::2", 128⟩ ↔ ¬ Mapped p.addr) := by
  have accepted : cidrFromString "fd00::2/128" = some ⟨"fd00::2/128", "fd00::2", 128⟩ := by
    decide +kernel
  exact ⟨accepted, roundTrips_iff accepted⟩

/-- The network is reported to be `10.0.0.1/24`. -/
theorem mappedNetwork_foreign : cidrFromString "::ffff:10.0.0.1/120" =
      some ⟨"::ffff:10.0.0.1/120", "::ffff:10.0.0.1", 120⟩ ∧
    ¬ RoundTrips ⟨"::ffff:10.0.0.1/120", "::ffff:10.0.0.1", 120⟩ := by
  refine ⟨by decide +kernel, fun returns => ?_⟩
  have read : (CidrRecord.ipNet ⟨"::ffff:10.0.0.1/120", "::ffff:10.0.0.1", 120⟩).map cidrFromIpNet =
      some ⟨"10.0.0.1/24", "10.0.0.1", 24⟩ := by decide +kernel
  have same := Option.some.inj (read.symm.trans returns.ipNet)
  cases congrArg CidrRecord.netLength same

end CidrArithmetic

end WgPortal.Domain
