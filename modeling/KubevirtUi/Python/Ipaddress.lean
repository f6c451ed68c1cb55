import KubevirtUi.Go.NetipText
import Mathlib.Data.List.DropRight

/-!
# Networks of `ipaddress`

`ip_network` tries IPv4 first and then IPv6; host bits are cleared. An IPv4 network is
written as four decimal octets without leading zeros, and a length in decimal or a mask
of leading or trailing ones in dotted form. A network prints with its length, and the
text is read back as the network.

How IPv6 networks are written is a parameter: nothing that is said here of an IPv4
network depends on it.
-/

namespace Python

open List Option

/-- `str.isspace` -/
def isSpace (c : Char) : Bool :=
  c.toNat ∈ [0x20, 0x85, 0xA0, 0x1680, 0x2028, 0x2029, 0x202F, 0x205F, 0x3000] ||
    (0x09 ≤ c.toNat && c.toNat ≤ 0x0D) || (0x1C ≤ c.toNat && c.toNat ≤ 0x1F) ||
    (0x2000 ≤ c.toNat && c.toNat ≤ 0x200A)

/-- `str.strip` -/
def strip (s : List Char) : List Char := (s.dropWhile isSpace).rdropWhile isSpace

variable {c : Char} {n : Nat}

variable {s : List Char}

section Strip

theorem isSpace_eq_false_of_isDigit (h : c.isDigit = true) : isSpace c = false := by
  have hbounds : 48 ≤ c.toNat ∧ c.toNat ≤ 57 := by
    have hdigit : ('0'.val ≤ c.val && c.val ≤ '9'.val) = true := h
    simp only [Bool.and_eq_true, decide_eq_true_eq, UInt32.le_iff_toNat_le] at hdigit
    exact hdigit
  simp only [isSpace, Bool.or_eq_false_iff, Bool.and_eq_false_iff, decide_eq_false_iff_not,
    mem_cons, not_mem_nil, or_false]
  omega

theorem strip_eq_self (h : ∀ c ∈ s, isSpace c = false) : strip s = s := by
  have hfront : s.dropWhile isSpace = s := by
    cases s with
    | nil => rfl
    | cons c s => rw [dropWhile_cons_of_neg (by simp [h c mem_cons_self])]
  rw [strip, hfront, rdropWhile_eq_self_iff]
  intro hne hlast
  rw [h _ (getLast_mem hne)] at hlast
  contradiction

end Strip

namespace Ipaddress

/-- `ip_network` answers with a network of one of the two families, host bits cleared. -/
inductive Network where
  | v4 (block : Block 32)
  | v6 (block : Block 128)
  deriving DecidableEq

/-- `_parse_octet` -/
def parseOctet (s : List Char) : Option Nat :=
  if s ≠ [] ∧ s.all Char.isDigit ∧ s.length ≤ 3 ∧ ¬ (s ≠ ['0'] ∧ s.head? = some '0') then
    let n := Nat.ofDigitChars 10 s 0
    if n > 255 then none else some n
  else none

/-- `_ip_int_from_string` -/
def ipIntFromString (s : List Char) : Option Nat :=
  match (s.splitOn '.').mapM parseOctet with
  | some [a, b, c, d] => some (((a * 256 + b) * 256 + c) * 256 + d)
  | _ => none

/-- `_prefix_from_prefix_string` -/
def prefixFromPrefixString (s : List Char) : Option Nat :=
  if s ≠ [] ∧ s.all Char.isDigit then
    let n := Nat.ofDigitChars 10 s 0
    if n ≤ 32 then some n else none
  else none

/-- `_count_righthand_zero_bits` of a word of 32 bits -/
def countRighthandZeroBits (n : Nat) : Nat := ((List.range 32).find? n.testBit).getD 32

/-- `_prefix_from_ip_int`: leading ones, and then zeros only. -/
def prefixFromIpInt (n : Nat) : Option Nat :=
  let trailing := countRighthandZeroBits n
  let length := 32 - trailing
  if n / 2 ^ trailing = 2 ^ length - 1 then some length else none

/-- `_prefix_from_ip_string`: a netmask, or else a hostmask. -/
def prefixFromIpString (s : List Char) : Option Nat := do
  let n ← ipIntFromString s
  prefixFromIpInt n <|> prefixFromIpInt (n ^^^ 0xFFFFFFFF)

/-- `_make_netmask` -/
def makeNetmask (s : List Char) : Option Nat :=
  prefixFromPrefixString s <|> prefixFromIpString s

/-- A network with its host bits cleared. -/
def network (n length : Nat) : Option (Block 32) :=
  if h : length ≤ 32 then some (Block.masked ⟨BitVec.ofNat 32 n, length, h⟩) else none

/-- `IPv4Network` of a text, not strict -/
def ipv4Network (s : List Char) : Option (Block 32) :=
  match s.splitOn '/' with
  | [addr] => do network (← ipIntFromString addr) 32
  | [addr, mask] => do network (← ipIntFromString addr) (← makeNetmask mask)
  | _ => none

/-- `ip_network`, not strict; `parse6` reads the texts of IPv6 networks. -/
def ipNetwork (parse6 : String → Option (Block 128)) (s : String) : Option Network :=
  match ipv4Network s.toList with
  | some p => some (.v4 p)
  | none => (parse6 s).map .v6

/-- `str` of an IPv4 network -/
def networkStr (p : Block 32) : String :=
  String.ofList (Go.Netip.formatIPv4 p.base ++ '/' :: Nat.toDigits 10 p.bits)

/-- `broadcast_address` -/
def broadcast {w : Nat} (p : Block w) : BitVec w := p.base ||| (BitVec.allOnes w >>> p.bits)

/-- `overlaps` of two networks of one family -/
def blocksOverlap {w : Nat} (p q : Block w) : Bool :=
  decide (p.Contains q.base) || (decide (p.Contains (broadcast q)) ||
    (decide (q.Contains p.base) || decide (q.Contains (broadcast p))))

/-- Networks of different families do not overlap. -/
def Network.overlaps : Network → Network → Bool
  | .v4 p, .v4 q => blocksOverlap p q
  | .v6 p, .v6 q => blocksOverlap p q
  | _, _ => false

/-- The network of the new length that starts `i` times its size into this one. -/
def subnet (p : Block 32) (newPrefix : Nat) (h : newPrefix ≤ 32) (i : Nat) : Block 32 :=
  ⟨p.base + BitVec.ofNat 32 (i * 2 ^ (32 - newPrefix)), newPrefix, h⟩

/-- `subnets`, or a `ValueError`; a single address has itself as its only subnet, whatever
the new length is. -/
def subnets (p : Block 32) (newPrefix : Nat) : Option (List (Block 32)) :=
  if p.bits = 32 then some [p]
  else if newPrefix < p.bits then none
  else if h : newPrefix ≤ 32 then
    some ((List.range (2 ^ (newPrefix - p.bits))).map (subnet p newPrefix h))
  else none

theorem all_isDigit_toDigits (n : Nat) : (Nat.toDigits 10 n).all Char.isDigit = true :=
  all_eq_true.mpr fun _ hc => Nat.isDigit_of_mem_toDigits (by omega) (by omega) hc

theorem not_leading_zero (n : Nat) :
    ¬ (Nat.toDigits 10 n ≠ ['0'] ∧ (Nat.toDigits 10 n).head? = some '0') := by
  rintro ⟨hne, hhead⟩
  obtain rfl | hn := Nat.eq_zero_or_pos n
  · exact hne rfl
  · obtain ⟨d, s, hpos, hlt, hds⟩ := Go.Netip.toDigits_eq_digitChar_cons hn
    have hlead : ∀ e ∈ List.range 10, 0 < e → e.digitChar ≠ '0' := by decide
    rw [hds, List.head?_cons, some.injEq] at hhead
    exact hlead d (mem_range.mpr hlt) hpos hhead

theorem parseOctet_toDigits (h : n < 256) : parseOctet (Nat.toDigits 10 n) = some n := by
  have hlen : (Nat.toDigits 10 n).length ≤ 3 :=
    (Nat.length_toDigits_le_iff (by omega) (by omega)).mpr (by omega)
  rw [parseOctet, if_pos ⟨Nat.toDigits_ne_nil, all_isDigit_toDigits n, hlen, not_leading_zero n⟩]
  simp [show ¬ n > 255 by omega]

theorem not_mem_toDigits (h : c.isDigit = false) (n : Nat) : c ∉ Nat.toDigits 10 n := by
  intro hc
  have hdigit := Nat.isDigit_of_mem_toDigits (by omega) (by omega) hc
  rw [h] at hdigit
  contradiction

theorem splitOn_formatIPv4 (a : BitVec 32) : (Go.Netip.formatIPv4 a).splitOn '.' =
    [Nat.toDigits 10 (a.toNat / 16777216), Nat.toDigits 10 (a.toNat / 65536 % 256),
      Nat.toDigits 10 (a.toNat / 256 % 256), Nat.toDigits 10 (a.toNat % 256)] := by
  have hsingle (n : Nat) : (Nat.toDigits 10 n).splitOn '.' = [Nat.toDigits 10 n] :=
    splitOn_eq_singleton (not_mem_toDigits (by decide) n)
  simp only [Go.Netip.formatIPv4, append_assoc, cons_append,
    splitOn_append_cons_self, hsingle, nil_append]

theorem ipIntFromString_formatIPv4 (a : BitVec 32) :
    ipIntFromString (Go.Netip.formatIPv4 a) = some a.toNat := by
  have hlt := a.isLt
  have h0 := parseOctet_toDigits (n := a.toNat / 16777216) (by omega)
  have h1 := parseOctet_toDigits (n := a.toNat / 65536 % 256) (by omega)
  have h2 := parseOctet_toDigits (n := a.toNat / 256 % 256) (by omega)
  have h3 := parseOctet_toDigits (n := a.toNat % 256) (by omega)
  rw [ipIntFromString, splitOn_formatIPv4]
  simp only [mapM_cons, mapM_nil, h0, h1, h2, h3, Option.pure_def, Option.bind_eq_bind,
    Option.bind_some, some.injEq]
  omega

theorem prefixFromPrefixString_toDigits (h : n ≤ 32) :
    prefixFromPrefixString (Nat.toDigits 10 n) = some n := by
  rw [prefixFromPrefixString, if_pos ⟨Nat.toDigits_ne_nil, all_isDigit_toDigits n⟩]
  simp [h]

theorem ipv4Network_networkStr (p : Block 32) :
    ipv4Network (networkStr p).toList = some p.masked := by
  have hsplit : (networkStr p).toList.splitOn '/' =
      [Go.Netip.formatIPv4 p.base, Nat.toDigits 10 p.bits] := by
    rw [networkStr, String.toList_ofList, splitOn_append_cons_self,
      splitOn_eq_singleton (Go.Netip.foreign_slash.not_mem_formatIPv4 p.base),
      splitOn_eq_singleton (not_mem_toDigits (by decide) p.bits), singleton_append]
  simp [ipv4Network, hsplit, ipIntFromString_formatIPv4, makeNetmask,
    prefixFromPrefixString_toDigits p.bits_le, network, p.bits_le]

theorem masked_of_network {length : Nat} {p : Block 32} (h : network n length = some p) :
    p.masked = p := by
  rw [network] at h
  split at h
  · obtain rfl := some.inj h
    exact Block.masked_masked _
  · cases h

theorem masked_of_ipv4Network {p : Block 32} (h : ipv4Network s = some p) : p.masked = p := by
  rw [ipv4Network] at h
  split at h
  · obtain ⟨n, -, hn⟩ := bind_eq_some_iff.mp h
    exact masked_of_network hn
  · obtain ⟨n, -, hn⟩ := bind_eq_some_iff.mp h
    obtain ⟨length, -, hlength⟩ := bind_eq_some_iff.mp hn
    exact masked_of_network hlength
  · cases h

theorem ipNetwork_networkStr (parse6 : String → Option (Block 128)) (p : Block 32) :
    ipNetwork parse6 (networkStr p) = some (.v4 p.masked) := by
  rw [ipNetwork, ipv4Network_networkStr]

theorem toDigits_ofDigitChars (hne : s ≠ []) (hdigits : ∀ c ∈ s, c.isDigit = true)
    (hzero : s.head? = some '0' → s = ['0']) : Nat.toDigits 10 (Nat.ofDigitChars 10 s 0) = s := by
  induction s using List.reverseRecOn with
  | nil => contradiction
  | append_singleton s c ih =>
    obtain ⟨d, hd, rfl, -⟩ := Go.Netip.exists_digitChar_of_isDigit
      (hdigits c (mem_append_right _ (mem_singleton_self c)))
    rw [Nat.ofDigitChars_append, Nat.ofDigitChars_cons_digitChar_of_lt_ten hd, Nat.ofDigitChars_nil]
    by_cases hs : s = []
    · subst hs
      rw [Nat.ofDigitChars_nil, Nat.mul_zero, Nat.zero_add, Nat.toDigits_of_lt_base hd, nil_append]
    · have hhead : s.head? ≠ some '0' := by
        intro hhead
        have hall := hzero (by rw [List.head?_append_of_ne_nil _ hs, hhead])
        have hlen := congrArg List.length hall
        rw [length_append, length_singleton, length_singleton] at hlen
        exact hs (length_eq_zero_iff.mp (by omega))
      have hread := ih hs (fun c hc => hdigits c (mem_append_left _ hc)) (fun h => absurd h hhead)
      have hpos : 0 < Nat.ofDigitChars 10 s 0 := by
        rw [Nat.pos_iff_ne_zero]
        intro hnull
        rw [hnull, Nat.toDigits_zero] at hread
        exact hhead (by rw [← hread]; rfl)
      rw [← Nat.toDigits_append_toDigits (by omega) hpos hd, hread, Nat.toDigits_of_lt_base hd]

theorem of_parseOctet (h : parseOctet s = some n) : n < 256 ∧ s = Nat.toDigits 10 n := by
  rw [parseOctet] at h
  split at h
  · next hguard =>
    obtain ⟨hne, hdigits, -, hlead⟩ := hguard
    dsimp only at h
    split at h
    · cases h
    · next hle =>
      obtain rfl := some.inj h
      refine ⟨by omega, (toDigits_ofDigitChars hne (all_eq_true.mp hdigits) ?_).symm⟩
      intro hhead
      by_contra hother
      exact hlead ⟨hother, hhead⟩
  · cases h

theorem of_mapM_parseOctet {parts : List (List Char)} {ns : List Nat}
    (h : parts.mapM parseOctet = some ns) :
    (∀ n ∈ ns, n < 256) ∧ parts = ns.map (Nat.toDigits 10) := by
  induction parts generalizing ns with
  | nil =>
    obtain rfl := some.inj h
    exact ⟨by simp, rfl⟩
  | cons part parts ih =>
    rw [mapM_cons, bind_eq_bind, bind_eq_some_iff] at h
    obtain ⟨n, hn, h⟩ := h
    rw [bind_eq_bind, bind_eq_some_iff] at h
    obtain ⟨rest, hrest, h⟩ := h
    obtain rfl := some.inj h
    obtain ⟨hlt, rfl⟩ := of_parseOctet hn
    obtain ⟨hall, rfl⟩ := ih hrest
    exact ⟨forall_mem_cons.mpr ⟨hlt, hall⟩, rfl⟩

theorem of_ipIntFromString (h : ipIntFromString s = some n) :
    n < 2 ^ 32 ∧ s = Go.Netip.formatIPv4 (BitVec.ofNat 32 n) := by
  rw [ipIntFromString] at h
  split at h
  · next a b c d hparts =>
    obtain rfl := some.inj h
    obtain ⟨hall, hsplit⟩ := of_mapM_parseOctet hparts
    simp only [forall_mem_cons] at hall
    obtain ⟨ha, hb, hc, hd, -⟩ := hall
    have hlt : ((a * 256 + b) * 256 + c) * 256 + d < 2 ^ 32 := by omega
    refine ⟨hlt, ?_⟩
    have htext : ['.'].intercalate (s.splitOn '.') = s := intercalate_splitOn '.'
    rw [hsplit] at htext
    rw [← htext, Go.Netip.formatIPv4, BitVec.toNat_ofNat, Nat.mod_eq_of_lt hlt]
    have hfirst : (((a * 256 + b) * 256 + c) * 256 + d) / 16777216 = a := by omega
    have hsecond : (((a * 256 + b) * 256 + c) * 256 + d) / 65536 % 256 = b := by omega
    have hthird : (((a * 256 + b) * 256 + c) * 256 + d) / 256 % 256 = c := by omega
    have hfourth : (((a * 256 + b) * 256 + c) * 256 + d) % 256 = d := by omega
    rw [hfirst, hsecond, hthird, hfourth]
    simp [List.intercalate]
  · cases h

section Overlap

variable {w : Nat} {p q : Block w}

theorem contains_broadcast (p : Block w) : p.Contains (broadcast p) := by
  have hle := p.bits_le
  apply BitVec.eq_of_getLsbD_eq
  intro i hi
  simp only [broadcast, BitVec.getLsbD_ushiftRight, BitVec.getLsbD_or, BitVec.getLsbD_allOnes]
  rw [show decide (p.bits + (w - p.bits + i) < w) = false by
    rw [decide_eq_false_iff_not]
    omega, Bool.or_false]

theorem blocksOverlap_iff (p q : Block w) : blocksOverlap p q = true ↔ p.Overlaps q := by
  simp only [blocksOverlap, Bool.or_eq_true, decide_eq_true_eq]
  constructor
  · rintro (h | h | h | h)
    · exact ⟨_, h, q.contains_base⟩
    · exact ⟨_, h, contains_broadcast q⟩
    · exact ⟨_, p.contains_base, h⟩
    · exact ⟨_, contains_broadcast p, h⟩
  · intro h
    obtain hle | hle := Nat.le_total p.bits q.bits
    · exact .inl (h.contains hle q.contains_base)
    · exact .inr (.inr (.inl (h.symm.contains hle p.contains_base)))

end Overlap

section Subnets

variable {p : Block 32} {newPrefix i j : Nat} {h : newPrefix ≤ 32}

theorem lt_size_of_lt_count (hle : p.bits ≤ newPrefix) (h : newPrefix ≤ 32)
    (hi : i < 2 ^ (newPrefix - p.bits)) : i * 2 ^ (32 - newPrefix) < 2 ^ (32 - p.bits) := by
  have hsize : 2 ^ (32 - p.bits) = 2 ^ (newPrefix - p.bits) * 2 ^ (32 - newPrefix) := by
    rw [← Nat.pow_add]
    congr 1
    omega
  rw [hsize]
  exact Nat.mul_lt_mul_of_pos_right hi (Nat.two_pow_pos _)

section

variable (hp : p.masked = p) (hle : p.bits ≤ newPrefix)

include hp hle

theorem toNat_subnet_base (hi : i < 2 ^ (newPrefix - p.bits)) :
    (subnet p newPrefix h i).base.toNat = p.base.toNat + i * 2 ^ (32 - newPrefix) := by
  have hadd := Block.toNat_masked_base_add p (lt_size_of_lt_count hle h hi)
  rwa [hp] at hadd

theorem exists_subnet_base (h : newPrefix ≤ 32) : ∃ m, ∀ i < 2 ^ (newPrefix - p.bits),
      (subnet p newPrefix h i).base.toNat = (m + i) * 2 ^ (32 - newPrefix) := by
  have hbase := p.toNat_masked_base
  have hsize : 2 ^ (32 - p.bits) = 2 ^ (newPrefix - p.bits) * 2 ^ (32 - newPrefix) := by
    rw [← Nat.pow_add]
    congr 1
    omega
  rw [hp, hsize, ← Nat.mul_assoc] at hbase
  refine ⟨p.base.toNat / (2 ^ (newPrefix - p.bits) * 2 ^ (32 - newPrefix)) *
    2 ^ (newPrefix - p.bits), fun i hi => ?_⟩
  rw [toNat_subnet_base hp hle hi, Nat.add_mul, ← hbase]

theorem subnet_masked (hi : i < 2 ^ (newPrefix - p.bits)) :
    (subnet p newPrefix h i).masked = subnet p newPrefix h i := by
  obtain ⟨m, hm⟩ := exists_subnet_base hp hle h
  have hbase : (subnet p newPrefix h i).masked.base = (subnet p newPrefix h i).base := by
    apply BitVec.eq_of_toNat_eq
    rw [Block.toNat_masked_base, hm i hi]
    exact congrArg (· * _) (Nat.mul_div_cancel _ (Nat.two_pow_pos _))
  rw [Block.masked] at hbase ⊢
  simp only at hbase
  simp only [hbase]

theorem contains_of_subnet (hi : i < 2 ^ (newPrefix - p.bits)) {x : BitVec 32}
    (hx : (subnet p newPrefix h i).Contains x) : p.Contains x := by
  have hbase := p.contains_masked_base_add (lt_size_of_lt_count hle h hi)
  rw [hp] at hbase
  have hoverlap : p.Overlaps (subnet p newPrefix h i) := ⟨_, hbase, Block.contains_base _⟩
  exact hoverlap.contains hle hx

theorem eq_of_subnet_overlaps (hi : i < 2 ^ (newPrefix - p.bits))
    (hj : j < 2 ^ (newPrefix - p.bits))
    (hoverlap : (subnet p newPrefix h i).Overlaps (subnet p newPrefix h j)) : i = j := by
  obtain ⟨m, hm⟩ := exists_subnet_base hp hle h
  have hbits : (subnet p newPrefix h i).bits = (subnet p newPrefix h j).bits := rfl
  have hmasked := congrArg (fun b => b.base.toNat)
    ((Block.overlaps_iff_masked_eq hbits).mp hoverlap)
  simp only [subnet_masked hp hle hi, subnet_masked hp hle hj, hm i hi, hm j hj] at hmasked
  have hsum := Nat.eq_of_mul_eq_mul_right (Nat.two_pow_pos _) hmasked
  omega

end

variable {cs : List (Block 32)}

/-- What `subnets` answers with: networks of the new length that lie in this one. -/
theorem of_mem_subnets (hp : p.masked = p) (hle : p.bits ≤ newPrefix)
    (hcs : subnets p newPrefix = some cs) {c : Block 32} (hc : c ∈ cs) :
    c.masked = c ∧ c.bits = min newPrefix 32 ∧ ∀ x, c.Contains x → p.Contains x := by
  rw [subnets] at hcs
  split at hcs
  · next hbits =>
    obtain rfl := some.inj hcs
    obtain rfl := mem_singleton.mp hc
    exact ⟨hp, by omega, fun x hx => hx⟩
  · split at hcs
    · contradiction
    · split at hcs
      · next hwidth =>
        obtain rfl := some.inj hcs
        obtain ⟨i, hi, rfl⟩ := mem_map.mp hc
        have hi := mem_range.mp hi
        refine ⟨subnet_masked hp hle hi, ?_, fun x hx => contains_of_subnet hp hle hi hx⟩
        exact (Nat.min_eq_left hwidth).symm
      · contradiction

theorem subnets_ne_nil (hcs : subnets p newPrefix = some cs) : cs ≠ [] := by
  rw [subnets] at hcs
  split at hcs
  · obtain rfl := some.inj hcs
    simp
  · split at hcs
    · contradiction
    · split at hcs
      · obtain rfl := some.inj hcs
        simp
      · contradiction

theorem eq_of_subnets_overlap (hp : p.masked = p) (hle : p.bits ≤ newPrefix)
    (hcs : subnets p newPrefix = some cs) {k l : Nat} (hk : k < cs.length) (hl : l < cs.length)
    (hoverlap : cs[k].Overlaps cs[l]) : k = l := by
  rw [subnets] at hcs
  split at hcs
  · obtain rfl := some.inj hcs
    simp only [length_singleton] at hk hl
    omega
  · split at hcs
    · contradiction
    · split at hcs
      · obtain rfl := some.inj hcs
        simp only [length_map, length_range] at hk hl
        simp only [getElem_map, getElem_range] at hoverlap
        exact eq_of_subnet_overlaps hp hle hk hl hoverlap
      · contradiction

end Subnets

end Ipaddress

end Python
