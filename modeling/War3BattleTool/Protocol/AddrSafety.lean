import War3BattleTool.Foundation.Net
import War3BattleTool.Foundation.Subnets

set_option autoImplicit false

/-!
# Addresses fit for a public endpoint (`protocol/src/addr_safety.rs`)

`isSafeExternalAddr` is two lists of subnets, one for each family
(`isSafeExternalAddr_v4`, `isSafeExternalAddr_v6`).  The IPv6 form `::ffff:a` of an IPv4
address `a` is dialled as `a`.  No subnet of the second list meets these forms, so every one
of them is accepted.
-/

namespace War3BattleTool.Protocol

open War3BattleTool.Foundation

/-- The `i`-th octet of an IPv4 address, from the left. -/
def octet (v4 : BitVec 32) (i : Nat) : Nat := v4.toNat / 256 ^ (3 - i) % 256

/-- The first of the eight segments of an IPv6 address. -/
def firstSegment (v6 : BitVec 128) : Nat := v6.toNat / 2 ^ 112

/-- `Ipv4Addr::is_private`: 10/8, 172.16/12 and 192.168/16. -/
def isPrivate (v4 : BitVec 32) : Bool :=
  octet v4 0 = 10 || (octet v4 0 = 172 && 16 ≤ octet v4 1 && octet v4 1 ≤ 31) ||
    (octet v4 0 = 192 && octet v4 1 = 168)

/-- `Ipv4Addr::is_link_local`: 169.254/16. -/
def isLinkLocal (v4 : BitVec 32) : Bool := octet v4 0 = 169 && octet v4 1 = 254

/-- `is_safe_external_addr`. -/
def isSafeExternalAddr : IpAddr → Bool
  | .v4 v4 =>
      if octet v4 0 = 127 || isPrivate v4 || isLinkLocal v4 ||
          v4.toNat = 2 ^ 32 - 1 || v4.toNat = 0 then false
      else !(octet v4 0 = 100 && 64 ≤ octet v4 1 && octet v4 1 ≤ 127)
  | .v6 v6 =>
      v6.toNat ≠ 1 && v6.toNat ≠ 0 &&
        !((0xfc00 ≤ firstSegment v6 && firstSegment v6 ≤ 0xfdff) ||
          (0xfe80 ≤ firstSegment v6 && firstSegment v6 ≤ 0xfebf))

example : isSafeExternalAddr (.v4 0x08080808) = true := by decide

example : isSafeExternalAddr (.v4 0x64400001) = false := by decide

/-! ## The two forms of an IPv4 address -/

/-- The IPv4 destinations that a public endpoint must not have: loopback, the private
networks, link-local, broadcast, unspecified and CGNAT. -/
def reservedV4 : List (Subnet 32) :=
  [⟨0x7f000000, 8⟩, ⟨0x0a000000, 8⟩, ⟨0xac100000, 12⟩, ⟨0xc0a80000, 16⟩, ⟨0xa9fe0000, 16⟩,
    ⟨0xffffffff, 32⟩, ⟨0, 32⟩, ⟨0x64400000, 10⟩]

/-- The same for IPv6: loopback, unspecified, ULA and link-local. -/
def reservedV6 : List (Subnet 128) :=
  [⟨1, 128⟩, ⟨0, 128⟩, ⟨0xfc000000000000000000000000000000, 7⟩,
    ⟨0xfe800000000000000000000000000000, 10⟩]

/-- The first 96 bits of `::ffff:a`. -/
def mappedPrefix : BitVec 96 := 0xffff

/-- `Ipv4Addr::to_ipv6_mapped`. -/
def toIpv6Mapped (a : BitVec 32) : BitVec 128 := mappedPrefix ++ a

/-- A socket dials `a` at this address. -/
def Reaches (ip : IpAddr) (a : BitVec 32) : Prop := ip = .v4 a ∨ ip = .v6 (toIpv6Mapped a)

/-- What is dialled at this address is a reserved IPv4 address. -/
def reachesReserved : IpAddr → Bool
  | .v4 a => Subnet.rejects reservedV4 a
  | .v6 x => Subnet.rejects (reservedV4.map (·.behind mappedPrefix)) x

theorem reachesReserved_iff {ip : IpAddr} :
    reachesReserved ip = true ↔ ∃ a, Reaches ip a ∧ Subnet.rejects reservedV4 a = true := by
  cases ip with
  | v4 b => simp [reachesReserved, Reaches]
  | v6 x =>
      have hbehind : reachesReserved (.v6 x) = true ↔
          ∃ a, Subnet.rejects reservedV4 a = true ∧ x = toIpv6Mapped a := Subnet.rejects_behind
      simp only [hbehind, Reaches, reduceCtorEq, IpAddr.v6.injEq, false_or]
      exact exists_congr fun a => and_comm

/-! ## The filter as two lists of subnets -/

theorem isSafeExternalAddr_v4 (a : BitVec 32) :
    isSafeExternalAddr (.v4 a) = !Subnet.rejects reservedV4 a := by
  have hlt := a.isLt
  rw [Bool.eq_iff_iff]
  simp only [isSafeExternalAddr, isPrivate, isLinkLocal, Subnet.rejects, reservedV4,
    Subnet.contains, List.any_cons, List.any_nil, Bool.if_false_left, Bool.and_eq_true,
    Bool.or_eq_true, Bool.not_eq_eq_eq_not, Bool.not_true, Bool.or_eq_false_iff,
    Bool.and_eq_false_iff, decide_eq_true_eq, decide_eq_false_iff_not]
  simp only [octet, Subnet.prefixOf, Nat.sub_zero, Nat.reduceSub, Nat.reducePow,
    BitVec.ofNat_eq_ofNat, BitVec.toNat_ofNat, Nat.reduceMod, Nat.reduceDiv, Nat.sub_self,
    Nat.pow_zero, Nat.div_one, and_true]
  omega

theorem isSafeExternalAddr_v6 (x : BitVec 128) :
    isSafeExternalAddr (.v6 x) = !Subnet.rejects reservedV6 x := by
  have hlt := x.isLt
  rw [Bool.eq_iff_iff]
  simp only [isSafeExternalAddr, Subnet.rejects, reservedV6, Subnet.contains, List.any_cons,
    List.any_nil, Bool.and_eq_true, Bool.not_eq_eq_eq_not, Bool.not_true,
    Bool.or_eq_false_iff, Bool.and_eq_false_iff, decide_eq_true_eq, decide_eq_false_iff_not]
  simp only [firstSegment, Subnet.prefixOf, Nat.reduceSub, Nat.reducePow, BitVec.ofNat_eq_ofNat,
    BitVec.toNat_ofNat, Nat.reduceMod, Nat.reduceDiv, Nat.sub_self, Nat.pow_zero, Nat.div_one,
    and_true]
  omega

/-- Every address of the form `::ffff:a` is accepted. -/
theorem isSafeExternalAddr_mapped (a : BitVec 32) :
    isSafeExternalAddr (.v6 (toIpv6Mapped a)) = true := by
  have hapart : reservedV6.all (fun n => !n.meets (Subnet.whole mappedPrefix 32)) = true := by
    decide
  have hpasses : Subnet.rejects reservedV6 (toIpv6Mapped a) = false :=
    Subnet.rejects_append_of_apart hapart a
  rw [isSafeExternalAddr_v6, hpasses]
  rfl

/-- An accepted address reaches a reserved one just when it is the IPv6 form of one. -/
theorem reachesReserved_of_safe {ip : IpAddr} (hsafe : isSafeExternalAddr ip = true) :
    reachesReserved ip = true ↔
      ∃ a, Subnet.rejects reservedV4 a = true ∧ ip = .v6 (toIpv6Mapped a) := by
  rw [reachesReserved_iff]
  constructor
  · rintro ⟨a, hreaches, hreserved⟩
    rcases hreaches with rfl | rfl
    · rw [isSafeExternalAddr_v4, hreserved] at hsafe
      cases hsafe
    · exact ⟨a, hreserved, rfl⟩
  · rintro ⟨a, hreserved, rfl⟩
    exact ⟨a, .inr rfl, hreserved⟩

end War3BattleTool.Protocol
