/-
# Addresses a request may reach

Two tests guard every connection.  `isPublicIp` refuses the special-use blocks: a table for IPv4;
for IPv6 a table and, before it, everything outside the global unicast block `2000::/3`.
`DenyCidr.contains` refuses the blocks a deployment configures as text.

Both are mask arithmetic.  The facts below say what it decides, in terms of leading bits: an
address that passes lies OUTSIDE every listed block (`outside_of_isPublicIp`), outside every block
a configured text denotes (`outside_of_not_denied`), and is none of the IPv6 forms that carry an
IPv4 address (`embedsIpv4_not_public`); those forms need no entry of their own where the global
unicast test already refuses them.

How an address is written is not modelled: `parseIpAddr` stands for the standard library's parser,
and every result is about any such function.

Translated from `crates/outbound-http/src/policy.rs`.
-/
import Omnius.Lib.BitBlock
import Mathlib.Tactic.NormNum

namespace Omnius.Outbound

open Omnius.Lib List BitBlock

inductive IpAddr where
  | v4 (bits : BitVec 32)
  | v6 (bits : BitVec 128)
deriving DecidableEq

/-- The number written by its bytes, the first one the most significant. -/
def ofOctets (w : Nat) (octets : List Nat) : BitVec w :=
  BitVec.ofNat w (octets.foldl (fun acc octet => acc * 256 + octet) 0)

/-- `address` lies in the block of the first `length` bits of `network`. -/
def InBlock (network : IpAddr) (length : Nat) (address : IpAddr) : Prop :=
  match network, address with
  | .v4 n, .v4 a => Agree length a n
  | .v6 n, .v6 a => Agree length a n
  | _, _ => False

/-! ## 1. Configured blocks -/

inductive ConfigError where
  | zeroDuration (field : String)
  | exceedsMaximum (field : String)
  | connectExceedsTotal | responseBodyLimit | redirectLimit | invalidUserAgent | proxyUnsupported
  | httpsPorts | denyCidrs | dnsTimeout | dnsAnswers
deriving DecidableEq

def maxConfiguredDenyCidrs : Nat := 64

def maxCidrBytes : Nat := 64

inductive DenyCidr where
  | v4 (network mask : BitVec 32)
  | v6 (network mask : BitVec 128)
deriving DecidableEq

def prefixMaskV4 (length : Nat) : BitVec 32 := mask 32 length

def prefixMaskV6 (length : Nat) : BitVec 128 := mask 128 length

/-- `str::parse::<u32>`: an optional plus sign and at least one digit, within 32 bits. -/
def parseU32 (text : List Char) : Option Nat :=
  let digits := if text.head? = some '+' then text.tail else text
  if digits.isEmpty || digits.any (fun c => !c.isDigit) then none
  else
    let value := digits.foldl (fun acc c => acc * 10 + (c.toNat - '0'.toNat)) 0
    if value < 2 ^ 32 then some value else none

/-- `split_once('/')`. -/
def splitOnce (text : List Char) : Option (List Char × List Char) :=
  match text.dropWhile (· ≠ '/') with
  | [] => none
  | _ :: rest => some (text.takeWhile (· ≠ '/'), rest)

variable (parseIpAddr : String → Option IpAddr)

/-- The network address and prefix length a text writes. -/
def cidrText (value : String) : Option (IpAddr × Nat) :=
  match splitOnce value.toList with
  | none => none
  | some (address, length) =>
    match parseIpAddr (String.ofList address), parseU32 length with
    | some address, some length => some (address, length)
    | _, _ => none

def DenyCidr.parse (value : String) : Except ConfigError DenyCidr :=
  if value.isEmpty || value.utf8ByteSize > maxCidrBytes then .error .denyCidrs
  else
    match cidrText parseIpAddr value with
    | none => .error .denyCidrs
    | some (.v4 network, length) =>
      if length ≤ 32 then
        if network &&& prefixMaskV4 length ≠ network then .error .denyCidrs
        else .ok (.v4 network (prefixMaskV4 length))
      else .error .denyCidrs
    | some (.v6 network, length) =>
      if length ≤ 128 then
        if network &&& prefixMaskV6 length ≠ network then .error .denyCidrs
        else .ok (.v6 network (prefixMaskV6 length))
      else .error .denyCidrs

def DenyCidr.contains : DenyCidr → IpAddr → Bool
  | .v4 network mask, .v4 address => address &&& mask = network
  | .v6 network mask, .v6 address => address &&& mask = network
  | _, _ => false

/-- The loop of `parse_deny_cidrs`, over what is already parsed. -/
def parseDenyCidrsFrom (parsed : List DenyCidr) : List String → Except ConfigError (List DenyCidr)
  | [] => .ok parsed
  | value :: values =>
    match DenyCidr.parse parseIpAddr value with
    | .error e => .error e
    | .ok cidr =>
      if cidr ∈ parsed then .error .denyCidrs else parseDenyCidrsFrom (parsed ++ [cidr]) values

def parseDenyCidrs (values : List String) : Except ConfigError (List DenyCidr) :=
  if values.length > maxConfiguredDenyCidrs then .error .denyCidrs
  else parseDenyCidrsFrom parseIpAddr [] values

/-! ## 2. Special-use blocks -/

def ipv4In (address : BitVec 32) (network : List Nat) (length : Nat) : Bool :=
  address &&& mask 32 length = ofOctets 32 network &&& mask 32 length

def specialIpv4 : List (List Nat × Nat) := [
  ([0, 0, 0, 0], 8),
  ([10, 0, 0, 0], 8),
  ([100, 64, 0, 0], 10),
  ([127, 0, 0, 0], 8),
  ([169, 254, 0, 0], 16),
  ([172, 16, 0, 0], 12),
  ([192, 0, 0, 0], 24),
  ([192, 0, 2, 0], 24),
  ([192, 31, 196, 0], 24),
  ([192, 52, 193, 0], 24),
  ([192, 88, 99, 0], 24),
  ([192, 168, 0, 0], 16),
  ([192, 175, 48, 0], 24),
  ([198, 18, 0, 0], 15),
  ([198, 51, 100, 0], 24),
  ([203, 0, 113, 0], 24),
  ([224, 0, 0, 0], 3)]

def isPublicIpv4 (address : BitVec 32) : Bool :=
  !specialIpv4.any fun (network, length) => ipv4In address network length

def ipv6In (address : BitVec 128) (network : List Nat) (length : Nat) : Bool :=
  address &&& mask 128 length = ofOctets 128 network &&& mask 128 length

def specialIpv6 : List (List Nat × Nat) := [
  ([0, 0, 0, 0, 0, 0, 0, 0, 0, 0, 0, 0, 0, 0, 0, 0], 96),
  ([0, 0x64, 0xff, 0x9b, 0, 0, 0, 0, 0, 0, 0, 0, 0, 0, 0, 0], 96),
  ([0, 0x64, 0xff, 0x9b, 0, 1, 0, 0, 0, 0, 0, 0, 0, 0, 0, 0], 48),
  ([0x01, 0, 0, 0, 0, 0, 0, 0, 0, 0, 0, 0, 0, 0, 0, 0], 64),
  ([0x20, 0x01, 0, 0, 0, 0, 0, 0, 0, 0, 0, 0, 0, 0, 0, 0], 23),
  ([0x20, 0x01, 0x0d, 0xb8, 0, 0, 0, 0, 0, 0, 0, 0, 0, 0, 0, 0], 32),
  ([0x20, 0x02, 0, 0, 0, 0, 0, 0, 0, 0, 0, 0, 0, 0, 0, 0], 16),
  ([0x3f, 0xff, 0, 0, 0, 0, 0, 0, 0, 0, 0, 0, 0, 0, 0, 0], 20),
  ([0x5f, 0, 0, 0, 0, 0, 0, 0, 0, 0, 0, 0, 0, 0, 0, 0], 16),
  ([0xfc, 0, 0, 0, 0, 0, 0, 0, 0, 0, 0, 0, 0, 0, 0, 0], 7),
  ([0xfe, 0x80, 0, 0, 0, 0, 0, 0, 0, 0, 0, 0, 0, 0, 0, 0], 10),
  ([0xfe, 0xc0, 0, 0, 0, 0, 0, 0, 0, 0, 0, 0, 0, 0, 0, 0], 10),
  ([0xff, 0, 0, 0, 0, 0, 0, 0, 0, 0, 0, 0, 0, 0, 0, 0], 8)]

def globalUnicast : List Nat := [0x20, 0, 0, 0, 0, 0, 0, 0, 0, 0, 0, 0, 0, 0, 0, 0]

def isPublicIpv6 (address : BitVec 128) : Bool :=
  ipv6In address globalUnicast 3
    && !specialIpv6.any fun (network, length) => ipv6In address network length

def isPublicIp : IpAddr → Bool
  | .v4 address => isPublicIpv4 address
  | .v6 address => isPublicIpv6 address

/-- The loopback block of either family. -/
def isLoopback : IpAddr → Bool
  | .v4 address => ipv4In address [127, 0, 0, 0] 8
  | .v6 address => address = 1

structure AddressPolicy where
  denyCidrs : List DenyCidr

section

variable (policy : AddressPolicy)

variable (address : IpAddr)

def AddressPolicy.isConfiguredDenied : Bool :=
  policy.denyCidrs.any fun cidr => cidr.contains address

def AddressPolicy.allowsPublic : Bool :=
  isPublicIp address && !policy.isConfiguredDenied address

def AddressPolicy.allowsDevelopmentLoopback : Bool :=
  isLoopback address && !policy.isConfiguredDenied address

end

/-! ## 3. What the tests decide -/

/-- The special-use blocks of either family. -/
def specialBlocks : List (IpAddr × Nat) :=
  (specialIpv4.map fun (network, length) => (.v4 (ofOctets 32 network), length))
    ++ specialIpv6.map fun (network, length) => (.v6 (ofOctets 128 network), length)

variable {network : List Nat} {length : Nat} {address : IpAddr} {values : List String}

theorem ipv4In_iff {address : BitVec 32} (h : length ≤ 32) :
    ipv4In address network length = true ↔ Agree length address (ofOctets 32 network) := by
  simp only [ipv4In, decide_eq_true_eq]
  exact and_mask_eq_and_mask h

theorem ipv6In_iff {address : BitVec 128} (h : length ≤ 128) :
    ipv6In address network length = true ↔
      Agree length address (ofOctets 128 network) := by
  simp only [ipv6In, decide_eq_true_eq]
  exact and_mask_eq_and_mask h

theorem specialIpv6_length : ∀ block ∈ specialIpv6, block.2 ≤ 128 := by decide

/-- **A public address lies outside every special-use block.** -/
theorem outside_of_isPublicIp (h : isPublicIp address = true) :
    ∀ block ∈ specialBlocks, ¬ InBlock block.1 block.2 address := by
  intro block hblock hin
  rcases mem_append.mp hblock with h4 | h6
  · obtain ⟨⟨network, length⟩, hmem, rfl⟩ := mem_map.mp h4
    cases address with
    | v6 _ => exact hin
    | v4 address =>
      have hlen : ∀ block ∈ specialIpv4, block.2 ≤ 32 := by decide
      have hlisted : ipv4In address network length = true := (ipv4In_iff (hlen _ hmem)).mpr hin
      simp only [isPublicIp, isPublicIpv4, Bool.not_eq_true', any_eq_false] at h
      exact h _ hmem hlisted
  · obtain ⟨⟨network, length⟩, hmem, rfl⟩ := mem_map.mp h6
    cases address with
    | v4 _ => exact hin
    | v6 address =>
      have hlisted : ipv6In address network length = true :=
        (ipv6In_iff (specialIpv6_length _ hmem)).mpr hin
      simp only [isPublicIp, isPublicIpv6, Bool.and_eq_true, Bool.not_eq_true', any_eq_false] at h
      exact h.2 _ hmem hlisted

/-- The IPv6 forms that carry an IPv4 address: the leading bits of each. -/
inductive EmbedsIpv4 (address : BitVec 128) : Prop
  | mapped (h : Agree 96 address (BitVec.ofNat 128 (0xffff * 2 ^ 32)))
  | compatible (h : Agree 96 address (BitVec.ofNat 128 0))
  | nat64 (h : Agree 96 address (BitVec.ofNat 128 (0x64ff9b * 2 ^ 96)))
  | localNat64 (h : Agree 48 address (BitVec.ofNat 128 (0x64ff9b0001 * 2 ^ 80)))
  | sixToFour (h : Agree 16 address (BitVec.ofNat 128 (0x2002 * 2 ^ 112)))
  | teredo (h : Agree 32 address (BitVec.ofNat 128 (0x20010000 * 2 ^ 96)))

/-- **No public IPv6 address carries an IPv4 address.**  Four of the forms are outside global
unicast; 6to4 and Teredo lie in blocks of the table. -/
theorem embedsIpv4_not_public {address : BitVec 128} (h : isPublicIpv6 address = true) :
    ¬ EmbedsIpv4 address := by
  simp only [isPublicIpv6, Bool.and_eq_true, Bool.not_eq_true', any_eq_false] at h
  obtain ⟨hglobal, hspecial⟩ := h
  rw [ipv6In_iff (by decide), agree_iff_div (by decide)] at hglobal
  have hlisted : ∀ {network : List Nat} {length : Nat}, (network, length) ∈ specialIpv6 →
      ¬ Agree length address (ofOctets 128 network) := fun hmem hagree =>
    hspecial _ hmem ((ipv6In_iff (specialIpv6_length _ hmem)).mpr hagree)
  have hsix := hlisted
    (by decide : ([0x20, 0x02, 0, 0, 0, 0, 0, 0, 0, 0, 0, 0, 0, 0, 0, 0], 16) ∈ _)
  have hteredo := hlisted
    (by decide : ([0x20, 0x01, 0, 0, 0, 0, 0, 0, 0, 0, 0, 0, 0, 0, 0, 0], 23) ∈ _)
  rw [agree_iff_div (by decide)] at hsix hteredo
  have hlt := address.isLt
  simp only [globalUnicast, ofOctets, List.foldl, BitVec.toNat_ofNat] at hglobal hsix hteredo
  intro hembeds
  cases hembeds with
  | mapped h | compatible h | nat64 h | localNat64 h | sixToFour h | teredo h =>
    rw [agree_iff_div (by decide)] at h
    simp only [BitVec.toNat_ofNat] at h
    omega

variable {parseIpAddr}

/-- A configured block contains exactly the addresses that share its leading bits. -/
theorem DenyCidr.contains_iff {value : String} {cidr : DenyCidr}
    (h : DenyCidr.parse parseIpAddr value = .ok cidr) {network : IpAddr}
    (htext : cidrText parseIpAddr value = some (network, length)) :
    cidr.contains address = true ↔ InBlock network length address := by
  simp only [DenyCidr.parse, htext] at h
  split at h
  · cases h
  cases network with
  | v4 network | v6 network =>
    dsimp only at h
    split at h
    · next hlen =>
      split at h
      · cases h
      next hnetwork =>
      cases h
      cases address <;>
        simp [DenyCidr.contains, InBlock]
      exact and_mask_eq hlen (not_not.mp hnetwork)
    · cases h

theorem mem_of_parseDenyCidrsFrom {parsed result : List DenyCidr}
    (h : parseDenyCidrsFrom parseIpAddr parsed values = .ok result) :
    (∀ cidr ∈ parsed, cidr ∈ result) ∧
      ∀ value ∈ values, ∃ cidr ∈ result, DenyCidr.parse parseIpAddr value = .ok cidr := by
  induction values generalizing parsed with
  | nil =>
    cases h
    exact ⟨fun _ hc => hc, nofun⟩
  | cons value values ih =>
    simp only [parseDenyCidrsFrom] at h
    cases hv : DenyCidr.parse parseIpAddr value with
    | error e =>
      rw [hv] at h
      cases h
    | ok cidr =>
      rw [hv] at h
      dsimp only at h
      split at h
      · cases h
      obtain ⟨hold, hrest⟩ := ih h
      refine ⟨fun c hc => hold c (mem_append_left _ hc), forall_mem_cons.mpr ⟨?_, hrest⟩⟩
      exact ⟨cidr, hold cidr (mem_append_right _ mem_cons_self), hv⟩

/-- **An address that no configured block denies lies outside every block a configured text
denotes.** -/
theorem outside_of_not_denied {policy : AddressPolicy}
    (h : parseDenyCidrs parseIpAddr values = .ok policy.denyCidrs)
    (hall : policy.isConfiguredDenied address = false) :
    ∀ value ∈ values, ∀ network length, cidrText parseIpAddr value = some (network, length) →
      ¬ InBlock network length address := by
  intro value hvl network length htext hin
  unfold parseDenyCidrs at h
  split at h
  · cases h
  obtain ⟨cidr, hmem, hpar⟩ := (mem_of_parseDenyCidrsFrom h).2 value hvl
  simp only [AddressPolicy.isConfiguredDenied, any_eq_false] at hall
  exact hall cidr hmem ((DenyCidr.contains_iff hpar htext).mpr hin)

end Omnius.Outbound
