import Zbierak.Lib.Cidr
import Zbierak.Crates

/-!
# Destination policy

The filter that webhook delivery applies to the addresses a host name resolves
to, as the octet and segment tests of the code, and the address ranges those
tests are meant to cover.
-/
namespace Zbierak.NetPolicy

open Cidr

structure Ipv4Addr where
  a : UInt8
  b : UInt8
  c : UInt8
  d : UInt8
  deriving DecidableEq, Repr

/-- The eight segments of an address. -/
structure Ipv6Addr where
  s0 : UInt16
  s1 : UInt16
  s2 : UInt16
  s3 : UInt16
  s4 : UInt16
  s5 : UInt16
  s6 : UInt16
  s7 : UInt16
  deriving DecidableEq, Repr

inductive IpAddr where
  | v4 (ip : Ipv4Addr)
  | v6 (ip : Ipv6Addr)
  deriving DecidableEq, Repr

structure SocketAddr where
  ip : IpAddr
  port : Nat
  deriving DecidableEq, Repr

inductive PolicyError where
  | resolution (host : String)
  | blocked
  deriving DecidableEq, Repr

def PolicyError.display : PolicyError → String
  | resolution host => s!"host {host} did not resolve"
  | blocked => "host resolves only to addresses outside the public internet"

/-- Addresses of a host and port, or the lookup's error. -/
abbrev Resolver := String → Nat → Except String (List IpAddr)

def isAllowedV4 (ip : Ipv4Addr) : Bool :=
  !(ip.a == 0
    || ip.a == 10
    || ip.a == 127
    || (ip.a == 100 && (64 ≤ ip.b && ip.b ≤ 127))
    || (ip.a == 169 && ip.b == 254)
    || (ip.a == 172 && (16 ≤ ip.b && ip.b ≤ 31))
    || (ip.a == 192 && ip.b == 168)
    || (ip.a == 192 && ip.b == 0 && ip.c == 0)
    || (ip.a == 192 && ip.b == 0 && ip.c == 2)
    || (ip.a == 198 && (ip.b == 18 || ip.b == 19))
    || (ip.a == 198 && ip.b == 51 && ip.c == 100)
    || (ip.a == 203 && ip.b == 0 && ip.c == 113)
    || ip.a ≥ 224)

namespace Ipv6Addr

/-- The first five segments are zero. -/
def fiveZero (ip : Ipv6Addr) : Bool :=
  ip.s0 == 0 && ip.s1 == 0 && ip.s2 == 0 && ip.s3 == 0 && ip.s4 == 0

def isUnspecified (ip : Ipv6Addr) : Bool := ip = ⟨0, 0, 0, 0, 0, 0, 0, 0⟩

def isLoopback (ip : Ipv6Addr) : Bool := ip = ⟨0, 0, 0, 0, 0, 0, 0, 1⟩

/-- The IPv4 address in the last two segments. -/
def lowV4 (ip : Ipv6Addr) : Ipv4Addr :=
  ⟨(ip.s6 >>> 8).toUInt8, ip.s6.toUInt8, (ip.s7 >>> 8).toUInt8, ip.s7.toUInt8⟩

end Ipv6Addr

def isAllowedV6 (ip : Ipv6Addr) : Bool :=
  if ip.isLoopback || ip.isUnspecified then false
  else if ip.fiveZero && ip.s5 == 0xffff then isAllowedV4 ip.lowV4
  else if ip.fiveZero && ip.s5 == 0 && ip.s6 == 0x64 && ip.s7 == 0xff9b then false
  else
    !((ip.s0 &&& 0xfe00) == 0xfc00
      || (ip.s0 &&& 0xffc0) == 0xfe80
      || (ip.s0 &&& 0xff00) == 0xff00
      || (ip.s0 == 0x2001 && ip.s1 == 0x0db8)
      || (ip.s0 &&& 0xe000) != 0x2000)

def isAllowedDestination : IpAddr → Bool
  | .v4 ip => isAllowedV4 ip
  | .v6 ip => isAllowedV6 ip

/-- Resolve a destination and keep the addresses that may be contacted. -/
def resolveAllowedWith (host : String) (port : Nat) (resolve : Resolver) :
    Except PolicyError (List SocketAddr) :=
  match resolve host port with
  | .error error => .error (.resolution error)
  | .ok resolved =>
    let allowed := (resolved.filter isAllowedDestination).map fun ip => ⟨ip, port⟩
    if allowed.isEmpty then .error .blocked else .ok allowed

def Ipv4Addr.toNat (ip : Ipv4Addr) : Nat :=
  ip.a.toNat * 2 ^ 24 + ip.b.toNat * 2 ^ 16 + ip.c.toNat * 2 ^ 8 + ip.d.toNat

def Ipv6Addr.toNat (ip : Ipv6Addr) : Nat :=
  ip.s0.toNat * 2 ^ 112 + ip.s1.toNat * 2 ^ 96 + ip.s2.toNat * 2 ^ 80 + ip.s3.toNat * 2 ^ 64 +
    ip.s4.toNat * 2 ^ 48 + ip.s5.toNat * 2 ^ 32 + ip.s6.toNat * 2 ^ 16 + ip.s7.toNat

/-- The IPv4 ranges no delivery may reach. -/
def blockedV4 : List (Network 32) := [
  { address := 0, length := 8 },
  { address := 10 * 2 ^ 24, length := 8 },
  { address := 100 * 2 ^ 24 + 64 * 2 ^ 16, length := 10 },
  { address := 127 * 2 ^ 24, length := 8 },
  { address := 169 * 2 ^ 24 + 254 * 2 ^ 16, length := 16 },
  { address := 172 * 2 ^ 24 + 16 * 2 ^ 16, length := 12 },
  { address := 192 * 2 ^ 24, length := 24 },
  { address := 192 * 2 ^ 24 + 2 * 2 ^ 8, length := 24 },
  { address := 192 * 2 ^ 24 + 168 * 2 ^ 16, length := 16 },
  { address := 198 * 2 ^ 24 + 18 * 2 ^ 16, length := 15 },
  { address := 198 * 2 ^ 24 + 51 * 2 ^ 16 + 100 * 2 ^ 8, length := 24 },
  { address := 203 * 2 ^ 24 + 113 * 2 ^ 8, length := 24 },
  { address := 224 * 2 ^ 24, length := 4 },
  { address := 240 * 2 ^ 24, length := 4 }]

/-- The IPv6 ranges no delivery may reach. -/
def blockedV6 : List (Network 128) := [
  { address := 0, length := 128 },
  { address := 1, length := 128 },
  { address := 0xfc00 * 2 ^ 112, length := 7 },
  { address := 0xfe80 * 2 ^ 112, length := 10 },
  { address := 0xff00 * 2 ^ 112, length := 8 },
  { address := 0x2001 * 2 ^ 112 + 0x0db8 * 2 ^ 96, length := 32 }]

def mappedPrefix : Network 128 := { address := 0xffff * 2 ^ 32, length := 96 }

def nat64Prefix : Network 128 := { address := 0x64 * 2 ^ 112 + 0xff9b * 2 ^ 96, length := 96 }

def sixToFourPrefix : Network 128 := { address := 0x2002 * 2 ^ 112, length := 16 }

/-- A 6to4 address carries its IPv4 address right after the prefix. -/
def CarriedBySixToFour (address : Nat) : Prop :=
  sixToFourPrefix.Contains address ∧ InAny blockedV4 (address / 2 ^ 80 % 2 ^ 32)

/-- IPv6 addresses with a blocked IPv4 address inside. -/
def CarriesBlockedV4 (address : Nat) : Prop :=
  (mappedPrefix.Contains address ∧ InAny blockedV4 (address % 2 ^ 32)) ∨
    (nat64Prefix.Contains address ∧ InAny blockedV4 (address % 2 ^ 32)) ∨
    CarriedBySixToFour address

def Blocked : IpAddr → Prop
  | .v4 ip => InAny blockedV4 ip.toNat
  | .v6 ip => InAny blockedV6 ip.toNat ∨ CarriesBlockedV4 ip.toNat

/-- The blocked addresses that the filter lets through. -/
def SixToFourBlocked : IpAddr → Prop
  | .v4 _ => False
  | .v6 ip => CarriedBySixToFour ip.toNat

/-- The IPv4 ranges in terms of the octets. -/
theorem inAny_blockedV4_iff (ip : Ipv4Addr) : InAny blockedV4 ip.toNat ↔
    ip.a.toNat = 0 ∨ ip.a.toNat = 10 ∨ (ip.a.toNat = 100 ∧ 64 ≤ ip.b.toNat ∧ ip.b.toNat ≤ 127) ∨
    ip.a.toNat = 127 ∨ (ip.a.toNat = 169 ∧ ip.b.toNat = 254) ∨
    (ip.a.toNat = 172 ∧ 16 ≤ ip.b.toNat ∧ ip.b.toNat ≤ 31) ∨
    (ip.a.toNat = 192 ∧ ip.b.toNat = 0 ∧ ip.c.toNat = 0) ∨
    (ip.a.toNat = 192 ∧ ip.b.toNat = 0 ∧ ip.c.toNat = 2) ∨
    (ip.a.toNat = 192 ∧ ip.b.toNat = 168) ∨
    (ip.a.toNat = 198 ∧ 18 ≤ ip.b.toNat ∧ ip.b.toNat ≤ 19) ∨
    (ip.a.toNat = 198 ∧ ip.b.toNat = 51 ∧ ip.c.toNat = 100) ∨
    (ip.a.toNat = 203 ∧ ip.b.toNat = 0 ∧ ip.c.toNat = 113) ∨
    (224 ≤ ip.a.toNat ∧ ip.a.toNat < 240) ∨ 240 ≤ ip.a.toNat := by
  have ha := ip.a.toNat_lt
  have hb := ip.b.toNat_lt
  have hc := ip.c.toNat_lt
  have hd := ip.d.toNat_lt
  simp only [blockedV4, inAny_cons, not_inAny_nil, or_false, Ipv4Addr.toNat]
  generalize ip.a.toNat = a at *
  generalize ip.b.toNat = b at *
  generalize ip.c.toNat = c at *
  generalize ip.d.toNat = d at *
  refine or_congr ?_ <| or_congr ?_ <| or_congr ?_ <| or_congr ?_ <| or_congr ?_ <|
    or_congr ?_ <| or_congr ?_ <| or_congr ?_ <| or_congr ?_ <| or_congr ?_ <| or_congr ?_ <|
    or_congr ?_ <| or_congr ?_ ?_
  · exact (Network.contains_iff _ 16777216 0 _ rfl rfl).trans (by omega)
  · exact (Network.contains_iff _ 16777216 10 _ rfl rfl).trans (by omega)
  · exact (Network.contains_iff _ 4194304 401 _ rfl rfl).trans (by omega)
  · exact (Network.contains_iff _ 16777216 127 _ rfl rfl).trans (by omega)
  · exact (Network.contains_iff _ 65536 43518 _ rfl rfl).trans (by omega)
  · exact (Network.contains_iff _ 1048576 2753 _ rfl rfl).trans (by omega)
  · exact (Network.contains_iff _ 256 12582912 _ rfl rfl).trans (by omega)
  · exact (Network.contains_iff _ 256 12582914 _ rfl rfl).trans (by omega)
  · exact (Network.contains_iff _ 65536 49320 _ rfl rfl).trans (by omega)
  · exact (Network.contains_iff _ 131072 25353 _ rfl rfl).trans (by omega)
  · exact (Network.contains_iff _ 256 12989284 _ rfl rfl).trans (by omega)
  · exact (Network.contains_iff _ 256 13303921 _ rfl rfl).trans (by omega)
  · exact (Network.contains_iff _ 268435456 14 _ rfl rfl).trans (by omega)
  · exact (Network.contains_iff _ 268435456 15 _ rfl rfl).trans (by omega)

theorem isAllowedV4_iff (ip : Ipv4Addr) :
    isAllowedV4 ip = true ↔ ¬ InAny blockedV4 ip.toNat := by
  have h19 : 18 ≤ ip.b.toNat ∧ ip.b.toNat ≤ 19 ↔ ip.b.toNat = 18 ∨ ip.b.toNat = 19 := by omega
  have h224 : (224 ≤ ip.a.toNat ∧ ip.a.toNat < 240) ∨ 240 ≤ ip.a.toNat ↔ 224 ≤ ip.a.toNat := by
    omega
  rw [inAny_blockedV4_iff, h19, h224]
  simp only [isAllowedV4, ← UInt8.toNat_inj, UInt8.le_iff_toNat_le, Bool.not_eq_true', ge_iff_le,
    UInt8.toNat_ofNat, ← Bool.not_eq_true, Bool.or_eq_true, Bool.and_eq_true, beq_iff_eq,
    decide_eq_true_eq]
  refine not_congr (Iff.of_eq ?_)
  simp only [or_assoc]
  ac_rfl

/-- The embedded address is the last 32 bits. -/
theorem lowV4_toNat (ip : Ipv6Addr) : ip.lowV4.toNat = ip.toNat % 2 ^ 32 := by
  have h6 := ip.s6.toNat_lt
  have h7 := ip.s7.toNat_lt
  simp only [Ipv6Addr.lowV4, Ipv4Addr.toNat, Ipv6Addr.toNat, UInt16.toNat_toUInt8,
    UInt16.toNat_shiftRight, UInt16.toNat_ofNat, Nat.shiftRight_eq_div_pow, Nat.reducePow,
    Nat.reduceMod]
  omega

def globalUnicast : Network 128 := { address := 0x2000 * 2 ^ 112, length := 3 }

def documentation : Network 128 := { address := 0x2001 * 2 ^ 112 + 0x0db8 * 2 ^ 96, length := 32 }

theorem contains_mapped (ip : Ipv6Addr) :
    mappedPrefix.Contains ip.toNat ↔ (ip.fiveZero && ip.s5 == 0xffff) = true := by
  have h6 := ip.s6.toNat_lt
  have h7 := ip.s7.toNat_lt
  simp only [Ipv6Addr.fiveZero, Bool.and_eq_true, beq_iff_eq, ← UInt16.toNat_inj,
    UInt16.toNat_ofNat]
  refine (Network.contains_iff _ 4294967296 65535 _ rfl rfl).trans ?_
  simp only [Ipv6Addr.toNat]
  omega

theorem contains_documentation (ip : Ipv6Addr) :
    documentation.Contains ip.toNat ↔ (ip.s0 == 0x2001 && ip.s1 == 0x0db8) = true := by
  have h1 := ip.s1.toNat_lt
  have h2 := ip.s2.toNat_lt
  have h3 := ip.s3.toNat_lt
  have h4 := ip.s4.toNat_lt
  have h5 := ip.s5.toNat_lt
  have h6 := ip.s6.toNat_lt
  have h7 := ip.s7.toNat_lt
  simp only [Bool.and_eq_true, beq_iff_eq, ← UInt16.toNat_inj, UInt16.toNat_ofNat]
  refine (Network.contains_iff _ (2 ^ 96) 0x20010db8 _ rfl rfl).trans ?_
  simp only [Ipv6Addr.toNat]
  omega

/-- Under the top three bits only the first segment counts. -/
theorem contains_globalUnicast (ip : Ipv6Addr) :
    globalUnicast.Contains ip.toNat ↔ ip.s0.toNat / 8192 = 1 := by
  have h1 := ip.s1.toNat_lt
  have h2 := ip.s2.toNat_lt
  have h3 := ip.s3.toNat_lt
  have h4 := ip.s4.toNat_lt
  have h5 := ip.s5.toNat_lt
  have h6 := ip.s6.toNat_lt
  have h7 := ip.s7.toNat_lt
  refine (Network.contains_iff _ (2 ^ 125) 1 _ rfl rfl).trans ?_
  simp only [Ipv6Addr.toNat]
  omega

/-- The test of a segment against a mask of its top bits. -/
theorem segment_mask (s : UInt16) (mask value : UInt16) (k c : Nat) (hk : k ≤ 16)
    (hmask : mask.toNat = 2 ^ 16 - 2 ^ k) (hvalue : value.toNat = c * 2 ^ k) :
    (s &&& mask) = value ↔ s.toNat / 2 ^ k = c := by
  rw [← UInt16.toNat_inj, UInt16.toNat_and, hmask, hvalue]
  exact and_mask_eq_iff s.toNat_lt hk

/-- What the segment tests amount to: an IPv4-mapped address is judged as IPv4,
and any other one must be global unicast and not for documentation. -/
theorem isAllowedV6_iff (ip : Ipv6Addr) : isAllowedV6 ip = true ↔
    (mappedPrefix.Contains ip.toNat ∧ ¬ InAny blockedV4 (ip.toNat % 2 ^ 32)) ∨
      (globalUnicast.Contains ip.toNat ∧ ¬ documentation.Contains ip.toNat) := by
  have h0 := ip.s0.toNat_lt
  by_cases hmapped : (ip.fiveZero && ip.s5 == 0xffff) = true
  · have hzero : ip.s0 = 0 := by
      simp only [Ipv6Addr.fiveZero, Bool.and_eq_true, beq_iff_eq] at hmapped
      exact hmapped.1.1.1.1.1
    have hs5 : ip.s5 = 0xffff := by
      simp only [Bool.and_eq_true, beq_iff_eq] at hmapped
      exact hmapped.2
    have hplain : (ip.isLoopback || ip.isUnspecified) = false := by
      simp only [Ipv6Addr.isLoopback, Ipv6Addr.isUnspecified, Bool.or_eq_false_iff,
        decide_eq_false_iff_not]
      constructor <;> (intro h; rw [h] at hs5; simp at hs5)
    have hglobal : ¬ globalUnicast.Contains ip.toNat := by
      simp [contains_globalUnicast, hzero]
    simp only [isAllowedV6, hplain, hmapped, contains_mapped, hglobal, lowV4_toNat,
      isAllowedV4_iff, if_true, Bool.false_eq_true, if_false, true_and, false_and, or_false]
  · have hm := hmapped
    rw [← contains_mapped] at hm
    simp only [isAllowedV6, hmapped, hm, false_and, false_or, Bool.false_eq_true, if_false,
      contains_globalUnicast, contains_documentation]
    by_cases hs0 : ip.s0.toNat / 8192 = 1
    · have hnonzero : ip.s0 ≠ 0 := by
        rintro h
        simp [h] at hs0
      have hplain : (ip.isLoopback || ip.isUnspecified) = false := by
        simp only [Ipv6Addr.isLoopback, Ipv6Addr.isUnspecified, Bool.or_eq_false_iff,
          decide_eq_false_iff_not]
        constructor <;> (intro h; rw [h] at hnonzero; exact hnonzero rfl)
      have hfive : ip.fiveZero = false := by simp [Ipv6Addr.fiveZero, hnonzero]
      have hlocal : ¬ (ip.s0 &&& 0xfe00) = 0xfc00 := by
        rw [segment_mask _ _ _ 9 126 (by decide) rfl rfl]
        omega
      have hlink : ¬ (ip.s0 &&& 0xffc0) = 0xfe80 := by
        rw [segment_mask _ _ _ 6 1018 (by decide) rfl rfl]
        omega
      have hmulticast : ¬ (ip.s0 &&& 0xff00) = 0xff00 := by
        rw [segment_mask _ _ _ 8 255 (by decide) rfl rfl]
        omega
      have hunicast : (ip.s0 &&& 0xe000) = 0x2000 := by
        rw [segment_mask _ _ _ 13 1 (by decide) rfl rfl]
        exact hs0
      simp [hplain, hfive, hlocal, hlink, hmulticast, hunicast, hs0, imp_iff_not_or]
    · have hunicast : ¬ (ip.s0 &&& 0xe000) = 0x2000 := by
        rw [segment_mask _ _ _ 13 1 (by decide) rfl rfl]
        exact hs0
      simp [hunicast, hs0]

theorem inAny_blockedV6_iff (v : Nat) : InAny blockedV6 v ↔
    v = 0 ∨ v = 1 ∨ v / 2 ^ 121 = 126 ∨ v / 2 ^ 118 = 1018 ∨ v / 2 ^ 120 = 255 ∨
      v / 2 ^ 96 = 0x20010db8 := by
  simp only [blockedV6, inAny_cons, not_inAny_nil, or_false]
  refine or_congr ?_ <| or_congr ?_ <| or_congr ?_ <| or_congr ?_ <| or_congr ?_ ?_
  · exact (Network.contains_iff _ 1 0 _ rfl rfl).trans (by omega)
  · exact (Network.contains_iff _ 1 1 _ rfl rfl).trans (by omega)
  · exact Network.contains_iff _ _ _ _ rfl rfl
  · exact Network.contains_iff _ _ _ _ rfl rfl
  · exact Network.contains_iff _ _ _ _ rfl rfl
  · exact Network.contains_iff _ _ _ _ rfl rfl

/-- An address is let through although it is blocked exactly when it is a 6to4
address of a blocked IPv4 address. -/
theorem allowed_and_blocked_iff (ip : IpAddr) :
    isAllowedDestination ip = true ∧ Blocked ip ↔ SixToFourBlocked ip := by
  cases ip with
  | v4 ip => simp [isAllowedDestination, Blocked, SixToFourBlocked, isAllowedV4_iff]
  | v6 ip =>
    simp only [isAllowedDestination, Blocked, SixToFourBlocked, isAllowedV6_iff]
    generalize ip.toNat = v
    have hmapped := mappedPrefix.contains_iff (2 ^ 32) 0xffff v rfl rfl
    have hnat64 := nat64Prefix.contains_iff (2 ^ 32) (0x64 * 2 ^ 80 + 0xff9b * 2 ^ 64) v rfl rfl
    have hsix := sixToFourPrefix.contains_iff (2 ^ 112) 0x2002 v rfl rfl
    have hglobal := globalUnicast.contains_iff (2 ^ 125) 1 v rfl rfl
    have hdoc := documentation.contains_iff (2 ^ 96) 0x20010db8 v rfl rfl
    simp only [CarriesBlockedV4, CarriedBySixToFour, hmapped, hnat64, hsix, hglobal, hdoc]
    constructor
    · rintro ⟨hallowed, hranges | ⟨hm, hv4⟩ | ⟨hn, -⟩ | hcarried⟩
      · rw [inAny_blockedV6_iff] at hranges
        rcases hallowed with ⟨hm, -⟩ | ⟨hg, hd⟩ <;> omega
      · rcases hallowed with ⟨-, hopen⟩ | ⟨hg, -⟩
        · exact absurd hv4 hopen
        · omega
      · rcases hallowed with ⟨hm, -⟩ | ⟨hg, -⟩ <;> omega
      · exact hcarried
    · intro hcarried
      have hs := hcarried.1
      exact ⟨.inr ⟨by omega, by omega⟩, .inr (.inr (.inr hcarried))⟩

end Zbierak.NetPolicy
