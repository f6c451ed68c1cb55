import KubevirtUi.Acl.Evaluate
import Mathlib.Data.List.Sort

/-!
# Rules of the transit plane

A tenant's allows name its address, its control plane and one port each. Below them lies
one drop for all the addresses that can be handed out on the plane: the subnet without
what is excluded from it.

Where the arithmetic of ranges meets an address that is not of IPv4 the operator panics; then there
is no result.
-/

namespace Transit

open Go Go.Netip Acl

def allowPriority : Int := 3200

def denyPriority : Int := 3000

/-- One address to one port of a control plane. -/
def allow (eip vip proto : String) (port : Int) : Rule where
  action := "allow-related"
  direction := "from-lport"
  priority := allowPriority
  matchExpr := "ip4.src == " ++ eip ++ " && ip4.dst == " ++ vip ++ " && " ++ proto ++
    ".dst == " ++ toString port

/-- One tenant's permissions. A port of zero is none. -/
def allows (eip vip : String) (tcp udp : List Int) : List Rule :=
  [("tcp", tcp), ("udp", udp)].flatMap fun (proto, ports) =>
    (ports.filter (· ≠ 0)).map (allow eip vip proto)

-- The source of an allow is the leftmost match of `ip4\.src\s*==\s*([0-9.]+)\b`.

/-- What `\s` matches. -/
def isBlank (c : Char) : Bool := c = '\t' || c = '\n' || c.toNat = 0x0C || c = '\r' || c = ' '

/-- What `\w` matches. -/
def isWord (c : Char) : Bool := c.isAlphanum || c = '_'

def isAddressChar (c : Char) : Bool := c.isDigit || c = '.'

/-- The longest part of a run that ends at a word boundary. The run is reversed, and
`next` is what follows it. -/
def toBoundary (next : Option Char) : List Char → List Char
  | [] => []
  | c :: run => if isWord c ≠ next.any isWord then (c :: run).reverse else toBoundary (some c) run

/-- The address of a match that starts here. -/
def sourceAt (s : List Char) : List Char :=
  if "ip4.src".toList.isPrefixOf s then
    let s := (s.drop 7).dropWhile isBlank
    if "==".toList.isPrefixOf s then
      let s := (s.drop 2).dropWhile isBlank
      toBoundary (s.dropWhile isAddressChar).head? (s.takeWhile isAddressChar).reverse
    else []
  else []

def findSource : List Char → List Char
  | [] => []
  | c :: s =>
    match sourceAt (c :: s) with
    | [] => findSource s
    | found => found

/-- The address an allow is keyed on, or "" if it names none. -/
def allowSource (matchExpr : String) : String := String.ofList (findSource matchExpr.toList)

/-- `As4`, as a word: it panics on an address that is not IPv4. -/
def toUint : Addr → Option (BitVec 32)
  | .zero => none
  | .v4 a => some a
  | .v6 a => if a.toNat / 2 ^ 32 = 0xFFFF then some (a.setWidth 32) else none

/-- `Addr.Less`. -/
def less : Addr → Addr → Bool
  | .zero, .zero => false
  | .zero, _ => true
  | .v4 a, .v4 b => a < b
  | .v4 _, .v6 _ => true
  | .v6 a, .v6 b => a < b
  | _, _ => false

/-- The shortest prefix at the start of the range that does not leave it. -/
def widest (start last : BitVec 32) : Nat → Nat
  | 0 => 0
  | bits + 1 =>
    let mask := (1#32 <<< (32 - (bits + 1) + 1)) - 1#32
    if start &&& mask ≠ 0 ∨ last < start + mask then bits + 1 else widest start last bits

/-- The loop of `summarise`. -/
def summariseFrom (last : BitVec 32) : Nat → BitVec 32 → List Prefix
  | 0, _ => []
  | fuel + 1, start =>
    if last < start then []
    else
      let bits := widest start last 32
      let size := 1#32 <<< (32 - bits)
      (prefixFrom (.v4 start) bits).toList ++
        if last ≤ start + size - 1#32 then [] else summariseFrom last fuel (start + size)

/-- The fewest prefixes that make up a range. -/
def summarise (low high : Addr) : Option (List Prefix) := do
  let first ← toUint low
  let last ← toUint high
  return summariseFrom last ((last - first).toNat + 1) first

/-- `ParseAddr`. What is done with an address afterwards drops its zone. -/
def parseAddrZone (s : List Char) : Option Addr :=
  match cutChars ['%'] s with
  | none => parseAddr s
  | some (addr, zone) =>
    match parseAddr addr with
    | some (.v6 a) => if zone = [] then none else some (.v6 a)
    | _ => none

/-- The zone of an address, or nothing. -/
def zone (s : List Char) : List Char := ((cutChars ['%'] s).map Prod.snd).getD []

/-- The last address is less than the first one; the same address may differ in its zone. -/
def Backwards (first last : List Char) (low high : Addr) : Prop :=
  less high low = true ∨ high = low ∧ zone last < zone first

instance (first last : List Char) (low high : Addr) : Decidable (Backwards first last low high) :=
  inferInstanceAs (Decidable (_ ∨ _))

/-- The three forms of an entry: a range, a network, or an address. What cannot be read is
skipped. -/
def parseReserved (entry : String) : Option (List Prefix) :=
  let entry := trimSpace entry
  if entry = "" then some []
  else match cutChars "..".toList entry.toList with
  | some (first, last) =>
    let first := trimChars first
    let last := trimChars last
    match parseAddrZone first, parseAddrZone last with
    | some low, some high => if Backwards first last low high then some [] else summarise low high
    | _, _ => some []
  | none =>
    if '/' ∈ entry.toList then some ((parsePrefix entry).map Prefix.masked).toList
    else match parseAddrZone entry.toList with
      | none => some []
      | some addr => some (prefixFrom addr 32).toList

/-- What is left of a subnet: a prefix, or an address with a length that is too long for it. -/
inductive Piece where
  | valid (p : Prefix)
  | invalid (a : Addr)
  deriving DecidableEq

namespace Piece

def addr : Piece → Addr
  | .valid p => p.addr
  | .invalid a => a

def bits : Piece → Int
  | .valid p => p.bits
  | .invalid _ => -1

def overlaps (block : Prefix) : Piece → Bool
  | .valid p => p.overlaps block
  | .invalid _ => false

def string : Piece → String
  | .valid p => prefixString p
  | .invalid _ => "invalid Prefix"

/-- `PrefixFrom`, on any length. -/
def ofBits (a : Addr) (n : Nat) : Piece := (prefixFrom a n).elim (.invalid a) .valid

end Piece

/-- `1 << (32 - n)`; a length beyond 32 wraps around, and the one is shifted out of the word. -/
def hostSize (n : Nat) : BitVec 32 := if n ≤ 32 then 1#32 <<< (32 - n) else 0

/-- The loop of `subtract`: how much longer the block is than the prefix says how often
that is still halved. -/
def carve (block : Prefix) : Nat → Piece → Option (List Piece)
  | _, .invalid a => some [.invalid a]
  | 0, .valid p => some (if p.overlaps block then [] else [.valid p])
  | n + 1, .valid p =>
    if ¬ p.overlaps block then some [.valid p]
    else do
      let base ← toUint p.addr
      let left := Piece.ofBits p.addr (p.bits + 1)
      let right := Piece.ofBits (.v4 (base + hostSize (p.bits + 1))) (p.bits + 1)
      let inLeft ← if left.overlaps block then carve block n left else some [left]
      let inRight ← if right.overlaps block then carve block n right else some [right]
      return inLeft ++ inRight

/-- What is left of a prefix without a block. -/
def subtract (p : Piece) (block : Prefix) : Option (List Piece) :=
  carve block (block.bits - p.bits).toNat p

def comesFirst (p q : Piece) : Bool :=
  if p.addr ≠ q.addr then less p.addr q.addr else p.bits ≤ q.bits

/-- The part of a subnet that addresses are handed out of. -/
def allocatableRanges (cidr : String) (excludeIPs : List String) : Option (List String) :=
  match parsePrefix cidr with
  | none => some []
  | some parsed => do
    let network := parsed.masked
    let blocks ← excludeIPs.mapM parseReserved
    let remaining ← blocks.flatten.foldlM
      (fun remaining block => (remaining.mapM (subtract · block)).map List.flatten)
        [.valid network]
    let kept := (remaining.insertionSort fun p q => comesFirst p q).filter fun p =>
      ¬ (p.bits = 32 ∧ p.addr = network.addr)
    return kept.map Piece.string

/-- The baseline that every tenant's allows punch through. -/
def deny (transitCIDR : String) (excludeIPs : List String) : Option Rule := do
  let ranges ← allocatableRanges transitCIDR excludeIPs
  let ranges := if ranges ≠ [] then ranges
    else [((parsePrefix transitCIDR).map fun p => prefixString p.masked).getD transitCIDR]
  return {
    action := "drop"
    direction := "from-lport"
    priority := denyPriority
    matchExpr := match ranges with
      | [range] => "ip4.src == " ++ range
      | _ => "ip4.src == \x7b" ++ ", ".intercalate ranges ++ "\x7d" }

end Transit
