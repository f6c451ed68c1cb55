import KubevirtUi.Go.NetipText
import Mathlib.Data.List.Sort
import Mathlib.Data.String.Basic

/-!
# The point-to-point link of a peering

A link is a prefix with room for two addresses and the first two addresses in
it. `parse` makes one out of a chosen text, `allocate` out of the texts already
in use, and `renderSide` writes down what one router has to say about it.

Everything is kept as text, as the routers and the records hold it. The lemmas at
the end say that the texts lose nothing: a link is read back from its own
network, and from either of its addresses with the length of the network.
-/

namespace Peering

open Go Go.Netip

/-- Where links are carved from. -/
def linkBase : String := "169.254.101.0/24"

def policyPriority : Int := 31001

/-- One point-to-point subnet and the address each end holds. -/
structure Link where
  cidr : String
  a : String
  b : String
  deriving DecidableEq

/-- Why there is no link: the text is no CIDR, the CIDR has no room for two
addresses, or every link of the pool is in use. -/
inductive LinkError where
  | notCIDR (cidr : String)
  | noRoom (cidr : String)
  | exhausted
  deriving DecidableEq

/-- The network of a prefix and its first two addresses. -/
def Link.ofPrefix (p : Prefix) : Link :=
  let first := p.masked.addr.next
  ⟨prefixString p.masked, addrString first, addrString first.next⟩

/-- `Parse`: turn a chosen CIDR into a link. -/
def parse (cidr : String) : Except LinkError Link :=
  match parsePrefix cidr with
  | none => .error (.notCIDR cidr)
  | some p => if p.bits > 30 then .error (.noRoom cidr) else .ok (Link.ofPrefix p)

/-- The /30 at an address, as text; an invalid address has none. -/
def candidateAt (addr : Addr) : String :=
  match prefixFrom addr 30 with
  | some p => prefixString p.masked
  | none => "invalid Prefix"

/-- The address four further on. -/
def Addr.next4 (addr : Addr) : Addr := addr.next.next.next.next

/-- The loop of `Allocate`: so many more candidates, starting at an address. -/
def allocateFrom (base : Prefix) (taken : List String) : Nat → Addr → Except LinkError Link
  | 0, _ => .error .exhausted
  | n + 1, addr =>
    if candidateAt addr ∉ taken then parse (candidateAt addr)
    else if base.contains (Addr.next4 addr) then allocateFrom base taken n (Addr.next4 addr)
    else .error .exhausted

/-- The networks in use, in the one spelling they are compared in. -/
def takenTexts (used : List String) : List String :=
  used.filterMap fun cidr => (parsePrefix (trimSpace cidr)).map fun p => prefixString p.masked

/-- `Allocate`: the lowest /30 nobody is using. -/
def allocate (used : List String) : Except LinkError Link :=
  match parsePrefix linkBase with
  | none => .error .exhausted
  | some base => allocateFrom base (takenTexts used) 62 base.addr

/-- `UsedLinks`: the networks that the connect addresses of the routers sit in. -/
def usedLinks (connectIPs : List String) : List String :=
  (takenTexts connectIPs).eraseDups.insertionSort (· ≤ ·)

/-- An entry of `spec.vpcPeerings`. -/
structure PeeringEntry where
  remoteVpc : Option String := none
  localConnectIP : Option String := none
  deriving DecidableEq

/-- An entry of `spec.staticRoutes`. -/
structure StaticRoute where
  cidr : Option String := none
  nextHopIP : Option String := none
  policy : Option String := none
  routeTable : Option String := none
  bfdId : Option String := none
  ecmpMode : Option String := none
  deriving DecidableEq

/-- An entry of `spec.policyRoutes`. -/
structure PolicyRoute where
  priority : Option Int := none
  action : Option String := none
  matchExpr : Option String := none
  nextHopIP : Option String := none
  deriving DecidableEq

/-- What one router's spec has to say about the peering. -/
structure Side where
  peering : PeeringEntry
  routes : List StaticRoute
  policies : List PolicyRoute
  deriving DecidableEq

/-- `otherEnd`: the address at the far end of the same link. -/
def otherEnd (connectIP linkCIDR : String) : String :=
  match parse linkCIDR with
  | .error _ => ""
  | .ok link => if connectIP = link.a then link.b else link.a

/-- The text after the last slash, or all of it. -/
def prefixLength (linkCIDR : String) : String :=
  match cutLast '/' linkCIDR.toList with
  | some (_, length) => String.ofList length
  | none => linkCIDR

/-- The route to a prefix over a hop, as `RenderSide` writes it. -/
def routeTo (cidr hop : String) : StaticRoute :=
  { cidr := some cidr, nextHopIP := some hop, policy := some "policyDst" }

/-- The policy that lets a prefix take its route, as `RenderSide` writes it. -/
def policyFor (cidr : String) : PolicyRoute :=
  { priority := some policyPriority, action := some "allow",
    matchExpr := some ("ip4.dst == " ++ cidr) }

/-- `RenderSide`: one end of the peering. -/
def renderSide (remote connectIP linkCIDR : String) (remoteCIDRs : List String) : Side where
  peering :=
    { remoteVpc := some remote,
      localConnectIP := some (connectIP ++ "/" ++ prefixLength linkCIDR) }
  routes := remoteCIDRs.map fun cidr => routeTo cidr (otherEnd connectIP linkCIDR)
  policies := remoteCIDRs.map policyFor

theorem parse_eq_ok_iff {cidr : String} {link : Link} : parse cidr = .ok link ↔
      ∃ p, parsePrefix cidr = some p ∧ p.bits ≤ 30 ∧ link = Link.ofPrefix p := by
  unfold parse
  cases parsePrefix cidr with
  | none => simp
  | some p =>
    by_cases hbits : p.bits > 30
    · simp [hbits, Nat.not_le.mpr hbits]
    · simp [hbits, Nat.not_lt.mp hbits, eq_comm]

/-- The prefix that counts `k` addresses up from the network. -/
def host (p : Prefix) (k : Nat) : Prefix :=
  match p with
  | .v4 p => .v4 ⟨p.masked.base + BitVec.ofNat 32 k, p.bits, p.bits_le⟩
  | .v6 p => .v6 ⟨p.masked.base + BitVec.ofNat 128 k, p.bits, p.bits_le⟩

section Host

variable {p : Prefix} (hbits : p.bits ≤ 30)
include hbits

theorem host_masked {k : Nat} (hk : k < 4) : (host p k).masked = p.masked := by
  cases p with
  | v4 p =>
    have hroom : 2 ^ 2 ≤ 2 ^ (32 - p.bits) := Nat.pow_le_pow_right (by omega)
      (by simp only [Prefix.bits] at hbits; omega)
    exact congrArg Prefix.v4 (p.masked_eq_of_contains (p.contains_masked_base_add (by omega)))
  | v6 p =>
    have hroom : 2 ^ 2 ≤ 2 ^ (128 - p.bits) := Nat.pow_le_pow_right (by omega)
      (by simp only [Prefix.bits] at hbits; omega)
    exact congrArg Prefix.v6 (p.masked_eq_of_contains (p.contains_masked_base_add (by omega)))

theorem next_host {k : Nat} (hk : k < 3) : (host p k).addr.next = (host p (k + 1)).addr := by
  cases p with
  | v4 p =>
    have hroom : 2 ^ 2 ≤ 2 ^ (32 - p.bits) := Nat.pow_le_pow_right (by omega)
      (by simp only [Prefix.bits] at hbits; omega)
    have hne := p.masked_base_add_ne_allOnes (k := k) (by omega)
    simp only [host, Prefix.addr, Addr.next, if_neg hne, BitVec.add_assoc, BitVec.ofNat_add]
    rfl
  | v6 p =>
    have hroom : 2 ^ 2 ≤ 2 ^ (128 - p.bits) := Nat.pow_le_pow_right (by omega)
      (by simp only [Prefix.bits] at hbits; omega)
    have hne := p.masked_base_add_ne_allOnes (k := k) (by omega)
    simp only [host, Prefix.addr, Addr.next, if_neg hne, BitVec.add_assoc, BitVec.ofNat_add]
    rfl

theorem masked_next : p.masked.addr.next = (host p 1).addr := by
  have h := next_host hbits (k := 0) (by omega)
  have hzero : (host p 0).addr = p.masked.addr := by
    cases p <;> simp [host, Prefix.addr, Prefix.masked]
  rwa [hzero] at h

theorem ofPrefix_eq : Link.ofPrefix p =
    ⟨prefixString p.masked, addrString (host p 1).addr, addrString (host p 2).addr⟩ := by
  simp only [Link.ofPrefix, masked_next hbits, next_host hbits (k := 1) (by omega)]

theorem host_addr_ne : (host p 1).addr ≠ (host p 2).addr := by
  cases p with
  | v4 p =>
    simp only [host, Prefix.addr, ne_eq, Addr.v4.injEq, BitVec.add_right_inj]
    decide
  | v6 p =>
    simp only [host, Prefix.addr, ne_eq, Addr.v6.injEq, BitVec.add_right_inj]
    decide

end Host

@[simp] theorem host_bits (p : Prefix) (k : Nat) : (host p k).bits = p.bits := by
  cases p <;> rfl

@[simp] theorem masked_bits (p : Prefix) : p.masked.bits = p.bits := by
  cases p <;> rfl

@[simp] theorem masked_masked (p : Prefix) : p.masked.masked = p.masked := by
  cases p <;> simp [Prefix.masked]

theorem ofPrefix_congr {p q : Prefix} (h : p.masked = q.masked) :
    Link.ofPrefix p = Link.ofPrefix q := by
  simp only [Link.ofPrefix, h]

/-- The length of a prefix, as text. -/
def bitsText (p : Prefix) : String := String.ofList (Nat.toDigits 10 p.bits)

theorem slash_not_mem_bits (p : Prefix) : '/' ∉ Nat.toDigits 10 p.bits :=
  slash_not_mem_toDigits p.bits

theorem prefixString_eq (p : Prefix) : prefixString p = addrString p.addr ++ "/" ++ bitsText p := by
  apply String.toList_inj.mp
  simp [prefixString, addrString, bitsText]

theorem prefixLength_prefixString (p : Prefix) : prefixLength (prefixString p) = bitsText p := by
  simp [prefixLength, prefixString, bitsText, cutLast_append _ (slash_not_mem_bits p)]

namespace Link

variable {cidr connectIP : String} {link : Link}

theorem parse_cidr (h : parse cidr = .ok link) : parse link.cidr = .ok link := by
  obtain ⟨p, -, hbits, rfl⟩ := parse_eq_ok_iff.mp h
  refine parse_eq_ok_iff.mpr ⟨p.masked, parsePrefix_prefixString _, by simpa, ?_⟩
  exact ofPrefix_congr (masked_masked p).symm

/-- Reading either address of a link, with the length of its network, gives the
link. -/
theorem parse_connect (h : parse cidr = .ok link)
    (hconnect : connectIP = link.a ∨ connectIP = link.b) :
    parse (connectIP ++ "/" ++ prefixLength link.cidr) = .ok link := by
  obtain ⟨p, -, hbits, rfl⟩ := parse_eq_ok_iff.mp h
  have key (k : Nat) (hk : k < 4) :
      parse (addrString (host p k).addr ++ "/" ++ bitsText p) = .ok (ofPrefix p) := by
    have htext : bitsText p = bitsText (host p k) := by simp [bitsText]
    rw [htext, ← prefixString_eq]
    refine parse_eq_ok_iff.mpr ⟨host p k, parsePrefix_prefixString _, by simpa, ?_⟩
    exact ofPrefix_congr (host_masked hbits hk).symm
  have hlength : prefixLength (ofPrefix p).cidr = bitsText p := by
    rw [show (ofPrefix p).cidr = prefixString p.masked from rfl, prefixLength_prefixString]
    simp [bitsText]
  rw [hlength]
  rw [ofPrefix_eq hbits] at hconnect
  obtain rfl | rfl := hconnect
  · exact key 1 (by omega)
  · exact key 2 (by omega)

/-- The two ends of a link are different texts, and neither holds a slash. -/
theorem ends (h : parse cidr = .ok link) :
    link.a ≠ link.b ∧ '/' ∉ link.a.toList ∧ '/' ∉ link.b.toList := by
  obtain ⟨p, -, hbits, rfl⟩ := parse_eq_ok_iff.mp h
  have hzero (k : Nat) : (host p k).addr ≠ .zero := by
    cases p <;> simp [host, Prefix.addr]
  rw [ofPrefix_eq hbits]
  refine ⟨fun hab => host_addr_ne hbits (addrString_injective (hzero 1) (hzero 2) hab), ?_, ?_⟩ <;>
    simp [addrString, foreign_slash.not_mem_formatAddr (hzero _)]

theorem hasPrefix_iff (h : parse cidr = .ok link)
    (hconnect : connectIP = link.a ∨ connectIP = link.b) (length : String) :
    hasPrefix (connectIP ++ "/" ++ length) (link.a ++ "/") = true ↔ connectIP = link.a := by
  obtain ⟨hne, ha, hb⟩ := ends h
  have hslash : '/' ∉ connectIP.toList := by
    obtain rfl | rfl := hconnect
    · exact ha
    · exact hb
  rw [hasPrefix, ← String.toList_inj, ← isPrefixOf_append_cons (r := length.toList) ha hslash]
  simp

end Link

end Peering
