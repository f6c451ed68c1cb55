import KubevirtUi.Go.Strings
import KubevirtUi.Library.Block

/-!
# Addresses and prefixes of `net/netip`

An address is a word of 32 or 128 bits; a prefix is a block of one of the two
families. Parsing and printing follow the package: `ParsePrefix` splits at the
last slash, the first of `.` and `:` decides the family, octets carry no leading
zero, and an IPv6 address may be shortened once by `::` and end in dotted form.

An address with a zone is not represented. `ParsePrefix` refuses one, whichever
way its zone is written, and the operator parses nothing but prefixes.
-/

namespace Go.Netip

/-- `netip.Addr` without a zone; the zero value is the invalid address. -/
inductive Addr where
  | zero
  | v4 (value : BitVec 32)
  | v6 (value : BitVec 128)
  deriving DecidableEq

/-- A valid `netip.Prefix`. -/
inductive Prefix where
  | v4 (block : Block 32)
  | v6 (block : Block 128)
  deriving DecidableEq

namespace Addr

/-- `Addr.Next`: past the last address of a family there is none. -/
def next : Addr → Addr
  | .zero => .zero
  | .v4 a => if a = BitVec.allOnes 32 then .zero else .v4 (a + 1)
  | .v6 a => if a = BitVec.allOnes 128 then .zero else .v6 (a + 1)

end Addr

namespace Prefix

/-- `Prefix.Addr`. -/
def addr : Prefix → Addr
  | .v4 p => .v4 p.base
  | .v6 p => .v6 p.base

/-- `Prefix.Bits`. -/
def bits : Prefix → Nat
  | .v4 p => p.bits
  | .v6 p => p.bits

/-- `Prefix.Masked`. -/
def masked : Prefix → Prefix
  | .v4 p => .v4 p.masked
  | .v6 p => .v6 p.masked

/-- `Prefix.Contains`: the zero address and addresses of the other family are in
no prefix. -/
def contains : Prefix → Addr → Bool
  | .v4 p, .v4 a => decide (p.Contains a)
  | .v6 p, .v6 a => decide (p.Contains a)
  | _, _ => false

/-- `Prefix.Overlaps`: both sides are cut to the shorter of the two lengths and
compared. Prefixes of different families do not overlap. -/
def overlaps : Prefix → Prefix → Bool
  | .v4 p, .v4 q => decide (Block.Agree (min p.bits q.bits) p.base q.base)
  | .v6 p, .v6 q => decide (Block.Agree (min p.bits q.bits) p.base q.base)
  | _, _ => false

end Prefix

/-- The loop of `parseIPv4Fields`: the current octet and its digits so far, the
octets completed, and their value. -/
def parseIPv4Fields : List Char → (val digLen pos acc : Nat) → Option Nat
  | [], val, _, pos, acc => if pos < 3 then none else some (acc * 256 + val)
  | c :: s, val, digLen, pos, acc =>
    if c.isDigit then
      if digLen = 1 ∧ val = 0 then none
      else
        let val := val * 10 + (c.toNat - '0'.toNat)
        if val > 255 then none else parseIPv4Fields s val (digLen + 1) pos acc
    else if c = '.' then
      -- `.1.2.3`, `1.2.3.` and `1..2.3` have a field without a digit
      if digLen = 0 ∨ s = [] then none
      else if pos = 3 then none
      else parseIPv4Fields s 0 0 (pos + 1) (acc * 256 + val)
    else none

/-- `parseIPv4`. -/
def parseIPv4 (s : List Char) : Option Addr :=
  (parseIPv4Fields s 0 0 0 0).map fun n => .v4 (BitVec.ofNat 32 n)

/-- The value of a hexadecimal digit of either case. -/
def hexVal (c : Char) : Option Nat :=
  if '0' ≤ c ∧ c ≤ '9' then some (c.toNat - '0'.toNat)
  else if 'a' ≤ c ∧ c ≤ 'f' then some (c.toNat - 'a'.toNat + 10)
  else if 'A' ≤ c ∧ c ≤ 'F' then some (c.toNat - 'A'.toNat + 10)
  else none

/-- The leading hexadecimal digits: their value, their number and the rest. More
than four of them are refused. -/
def scanHex : List Char → (acc off : Nat) → Option (Nat × Nat × List Char)
  | [], acc, off => some (acc, off, [])
  | c :: s, acc, off =>
    match hexVal c with
    | none => some (acc, off, c :: s)
    | some d => if off > 3 then none else scanHex s (acc * 16 + d) (off + 1)

/-- The loop of `parseIPv6` over at most `fuel` further groups: the groups so
far, the position of the ellipsis, and at the end the text left over. -/
def parseGroups : (fuel : Nat) → List Char → List Nat → Option Nat →
    Option (List Nat × Option Nat × List Char)
  | 0, s, gs, ellipsis => some (gs, ellipsis, s)
  | fuel + 1, s, gs, ellipsis =>
    match scanHex s 0 0 with
    | none => none
    | some (acc, off, rest) =>
      if off = 0 then none
      else match rest with
      | [] => some (gs ++ [acc], ellipsis, [])
      | '.' :: _ =>
        -- an embedded IPv4 address takes the place of the last two groups
        if ellipsis.isNone ∧ gs.length ≠ 6 then none
        else if gs.length > 6 then none
        else (parseIPv4Fields s 0 0 0 0).map fun n =>
          (gs ++ [n / 65536, n % 65536], ellipsis, [])
      | ':' :: ':' :: rest =>
        if ellipsis.isSome then none
        else if rest = [] then some (gs ++ [acc], some (gs.length + 1), [])
        else parseGroups fuel rest (gs ++ [acc]) (some (gs.length + 1))
      | ':' :: c :: rest => parseGroups fuel (c :: rest) (gs ++ [acc]) ellipsis
      | _ => none

/-- Fill the ellipsis with zero groups; it has to stand for at least one. -/
def expandGroups (gs : List Nat) : Option Nat → Option (List Nat)
  | none => if gs.length < 8 then none else some gs
  | some e =>
    if gs.length < 8 then
      some (gs.take e ++ List.replicate (8 - gs.length) 0 ++ gs.drop e)
    else none

/-- The 128-bit value of eight 16-bit groups. -/
def ofGroups (gs : List Nat) : Nat := gs.foldl (fun n g => n * 65536 + g) 0

/-- `parseIPv6`, for text without a zone. -/
def parseIPv6 (s : List Char) : Option Addr :=
  let start : Option (List Nat × Option Nat × List Char) :=
    match s with
    | ':' :: ':' :: [] => some ([], some 0, [])
    | ':' :: ':' :: rest => parseGroups 8 rest [] (some 0)
    | _ => parseGroups 8 s [] none
  match start with
  | some (gs, ellipsis, []) =>
    (expandGroups gs ellipsis).map fun gs => .v6 (BitVec.ofNat 128 (ofGroups gs))
  | _ => none

/-- `ParseAddr`, refusing any zone: the first of `.`, `:` and `%` decides. -/
def parseAddr (s : List Char) : Option Addr :=
  match s.find? (fun c => c = '.' || c = ':' || c = '%') with
  | some '.' => parseIPv4 s
  | some ':' => if '%' ∈ s then none else parseIPv6 s
  | _ => none

/-- The length after the slash: digits only, without a leading zero. -/
def parseBits (s : List Char) : Option Nat :=
  match s with
  | [] => none
  | c :: rest =>
    if rest ≠ [] ∧ (c < '1' ∨ '9' < c) then none
    else if s.all Char.isDigit then some (Nat.ofDigitChars 10 s 0) else none

/-- `PrefixFrom`, on a length in range. -/
def prefixFrom (a : Addr) (n : Nat) : Option Prefix :=
  match a with
  | .zero => none
  | .v4 a => if h : n ≤ 32 then some (.v4 ⟨a, n, h⟩) else none
  | .v6 a => if h : n ≤ 128 then some (.v6 ⟨a, n, h⟩) else none

/-- `ParsePrefix` on characters. -/
def parsePrefixChars (s : List Char) : Option Prefix := do
  let (a, b) ← cutLast '/' s
  let ip ← parseAddr a
  let n ← parseBits b
  prefixFrom ip n

/-- `netip.ParsePrefix`. -/
def parsePrefix (s : String) : Option Prefix := parsePrefixChars s.toList

/-- The address lies in the network the text names. -/
def inCIDR (x : Addr) (cidr : String) : Bool := (parsePrefix cidr).any (·.contains x)

/-- The two texts name networks that share an address. -/
def cidrsOverlap (a b : String) : Prop :=
  ∃ p q, parsePrefix a = some p ∧ parsePrefix b = some q ∧ p.overlaps q = true

/-- The characters of a dotted address. -/
def formatIPv4 (a : BitVec 32) : List Char :=
  let n := a.toNat
  Nat.toDigits 10 (n / 16777216) ++ '.' :: Nat.toDigits 10 (n / 65536 % 256) ++
    '.' :: Nat.toDigits 10 (n / 256 % 256) ++ '.' :: Nat.toDigits 10 (n % 256)

/-- The eight groups of a 128-bit value, most significant first. -/
def toGroups (a : BitVec 128) : List Nat :=
  (List.range 8).map fun i => a.toNat / 65536 ^ (7 - i) % 65536

/-- The first longest run of at least two zero groups: its start and length. -/
def zeroRun (gs : List Nat) : Option (Nat × Nat) :=
  (List.range gs.length).foldl (fun best i =>
    let len := ((gs.drop i).takeWhile (· = 0)).length
    if 2 ≤ len ∧ (best.elim 0 Prod.snd) < len then some (i, len) else best) none

/-- Groups in lower-case hexadecimal, separated by colons. -/
def joinGroups (gs : List Nat) : List Char :=
  List.intercalate [':'] (gs.map (Nat.toDigits 16))

/-- The groups with their first longest run of zeros shortened. -/
def joinShort (gs : List Nat) : List Char :=
  match zeroRun gs with
  | none => joinGroups gs
  | some (i, len) => joinGroups (gs.take i) ++ ':' :: ':' :: joinGroups (gs.drop (i + len))

/-- The characters of an IPv6 address: an IPv4 address in IPv6 keeps its dotted
form. -/
def formatIPv6 (a : BitVec 128) : List Char :=
  if a.toNat / 2 ^ 32 = 0xFFFF then "::ffff:".toList ++ formatIPv4 (a.setWidth 32)
  else joinShort (toGroups a)

/-- The characters of an address; the zero address prints as invalid. -/
def formatAddr : Addr → List Char
  | .zero => "invalid IP".toList
  | .v4 a => formatIPv4 a
  | .v6 a => formatIPv6 a

/-- `Addr.String`. -/
def addrString (a : Addr) : String := String.ofList (formatAddr a)

/-- `Prefix.String`. -/
def prefixString (p : Prefix) : String :=
  String.ofList (formatAddr p.addr ++ '/' :: Nat.toDigits 10 p.bits)

variable {s : List Char} {n : Nat} {p : Prefix}

theorem isDigit_or_dot_of_parseIPv4Fields {val digLen pos acc : Nat}
    (h : parseIPv4Fields s val digLen pos acc = some n) : ∀ c ∈ s, c.isDigit = true ∨ c = '.' := by
  induction s generalizing val digLen pos acc with
  | nil => simp
  | cons c s ih =>
    rw [parseIPv4Fields] at h
    by_cases hdigit : c.isDigit = true
    · rw [if_pos hdigit] at h
      split at h
      · contradiction
      · simp only at h
        split at h
        · contradiction
        · exact List.forall_mem_cons.mpr ⟨.inl hdigit, ih h⟩
    · rw [if_neg hdigit] at h
      by_cases hdot : c = '.'
      · rw [if_pos hdot] at h
        split at h
        · contradiction
        · split at h
          · contradiction
          · exact List.forall_mem_cons.mpr ⟨.inr hdot, ih h⟩
      · simp [hdot] at h

theorem parseIPv6_ne_v4 (s : List Char) (a : BitVec 32) : parseIPv6 s ≠ some (.v4 a) := by
  intro h
  simp only [parseIPv6] at h
  split at h
  · simp at h
  · contradiction

theorem parseIPv4_of_parseAddr {a : BitVec 32} (h : parseAddr s = some (.v4 a)) :
    ∃ n, parseIPv4Fields s 0 0 0 0 = some n ∧ BitVec.ofNat 32 n = a := by
  unfold parseAddr at h
  split at h
  · simp only [parseIPv4, Option.map_eq_some_iff, Addr.v4.injEq] at h
    exact h
  · split at h
    · contradiction
    · exact absurd h (parseIPv6_ne_v4 s a)
  · contradiction

theorem isDigit_of_parseBits (h : parseBits s = some n) : ∀ c ∈ s, c.isDigit = true := by
  unfold parseBits at h
  split at h
  · contradiction
  · split at h
    · contradiction
    · split at h
      · rename_i hall
        exact List.all_eq_true.mp hall
      · contradiction

theorem parsePrefixChars_eq_some (h : parsePrefixChars s = some p) :
    ∃ a b ip n, s = a ++ '/' :: b ∧ parseAddr a = some ip ∧ parseBits b = some n ∧
      prefixFrom ip n = some p := by
  simp only [parsePrefixChars, Option.bind_eq_bind, Option.bind_eq_some_iff, Prod.exists] at h
  obtain ⟨a, b, hcut, ip, hip, n, hn, hp⟩ := h
  exact ⟨a, b, ip, n, (eq_append_of_cutLast hcut).1, hip, hn, hp⟩

theorem isSpace_of_isDigit {c : Char} (h : c.isDigit = true) : isSpace c = false := by
  have hlo : 48 ≤ c.toNat := by
    simp only [Char.isDigit, Bool.and_eq_true, decide_eq_true_eq] at h
    exact h.1
  have hhi : c.toNat ≤ 57 := by
    simp only [Char.isDigit, Bool.and_eq_true, decide_eq_true_eq] at h
    exact h.2
  have hne (d : Char) (hd : d.toNat < 48) : c ≠ d := by
    rintro rfl
    omega
  simp [isSpace, hne '\t' (by decide), hne '\n' (by decide), hne '\r' (by decide),
    hne ' ' (by decide)]
  omega

theorem isSpace_of_parsePrefix_v4 {s : String} {p : Block 32}
    (h : parsePrefix s = some (.v4 p)) : ∀ c ∈ s.toList, isSpace c = false := by
  obtain ⟨a, b, ip, n, hs, hip, hn, hp⟩ := parsePrefixChars_eq_some h
  have hv4 : ∃ x, ip = .v4 x := by
    cases ip with
    | zero => simp [prefixFrom] at hp
    | v4 x => exact ⟨x, rfl⟩
    | v6 x =>
      simp only [prefixFrom] at hp
      split at hp <;> simp at hp
  obtain ⟨x, rfl⟩ := hv4
  obtain ⟨m, hm, -⟩ := parseIPv4_of_parseAddr hip
  intro c hc
  rw [hs, List.mem_append, List.mem_cons] at hc
  obtain ha | rfl | hb := hc
  · obtain hdigit | rfl := isDigit_or_dot_of_parseIPv4Fields hm c ha
    · exact isSpace_of_isDigit hdigit
    · decide
  · decide
  · exact isSpace_of_isDigit (isDigit_of_parseBits hn c hb)

theorem ne_empty_of_parsePrefix {s : String} (h : parsePrefix s = some p) : s ≠ "" := by
  rintro rfl
  simp [parsePrefix, parsePrefixChars, cutLast] at h

end Go.Netip
