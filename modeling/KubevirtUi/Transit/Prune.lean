import KubevirtUi.Transit.Baseline
import KubevirtUi.Go.NetipText
import Mathlib.Data.List.SplitBy

/-!
# What pruning takes for the source of a rule

A match compares the source of a packet with an address, a network, or a set of these.
Pruning reads digits and dots after the comparison and takes them for an address. So it
reads an address as it is, nothing from a set, and of a network the address before the
slash: this is what it asks for among the live ones.
-/

namespace Transit

open Go Go.Netip Acl List

/-- What the source of a packet is compared with. -/
inductive Source where
  | address (value : BitVec 32)
  | cidr (block : Block 32)
  | set (elements : List (Block 32))
  deriving DecidableEq

def Source.Includes : Source → BitVec 32 → Prop
  | .address value, a => a = value
  | .cidr block, a => block.Contains a
  | .set elements, a => ∃ block ∈ elements, block.Contains a

/-- What follows a comparison of the source that starts here. -/
def comparison (s : List Char) : Option (List Char) :=
  if "ip4.src".toList.isPrefixOf s then
    let s := (s.drop 7).dropWhile isBlank
    if "==".toList.isPrefixOf s then some ((s.drop 2).dropWhile isBlank) else none
  else none

/-- What follows each comparison of the source. -/
def comparisons : List Char → List (List Char)
  | [] => []
  | c :: s => (comparison (c :: s)).toList ++ comparisons s

/-- What an address or a network is written with. -/
def isTermChar (c : Char) : Bool := isWord c || c = '.' || c = '/' || c = ':'

/-- An address or a network. -/
def parseTerm (s : List Char) : Option Source :=
  match parsePrefixChars s, parseAddr s with
  | some (.v4 block), _ => some (.cidr block)
  | _, some (.v4 a) => some (.address a)
  | _, _ => none

/-- The addresses of an element of a set. -/
def parseElement (s : List Char) : Option (Block 32) :=
  match parseTerm s with
  | some (.cidr block) => some block
  | some (.address a) => some ⟨a, 32, Block.le_bits_32⟩
  | _ => none

/-- The source that is compared with at the start of the text. -/
def parseSource : List Char → Option Source
  | '\x7b' :: s =>
    if '\x7d' ∈ s then
      let elements := (s.takeWhile (· ≠ '\x7d')).splitOnP fun c => c = ',' || isBlank c
      ((elements.filter (· ≠ [])).mapM parseElement).map .set
    else none
  | s => parseTerm (s.takeWhile isTermChar)

/-- The source expression of a match, where it has one and no more. -/
def sourceExpr (matchExpr : String) : Option Source :=
  match comparisons matchExpr.toList with
  | [s] => parseSource s
  | _ => none

/-- A rule with the priority of an allow that is for packets from this address. -/
def Admits (rule : Rule) (a : BitVec 32) : Prop :=
  rule.priority = allowPriority ∧
    ∃ source, sourceExpr rule.matchExpr = some source ∧ source.Includes a

/-- Pruning revokes no permit of a live address. What else a packet has to meet is left open:
it is the same before and after. -/
structure KeepsPermits (existing : List Rule) (live : Live) : Prop where
  rules : ∀ rule ∈ existing, ∀ a, Admits rule a → addrString (.v4 a) ∈ live →
    rule ∈ pruneStaleAllows existing (some live)
  packets : ∀ (meets : Rule → Prop) a, addrString (.v4 a) ∈ live →
    (∃ rule ∈ existing, Admits rule a ∧ meets rule) →
      ∃ rule ∈ pruneStaleAllows existing (some live), Admits rule a ∧ meets rule

/-- The longest address at the start of a text that ends where a word does. -/
def addressAt (s : List Char) : List Char :=
  toBoundary (s.dropWhile isAddressChar).head? (s.takeWhile isAddressChar).reverse

theorem sourceAt_eq (s : List Char) : sourceAt s = ((comparison s).map addressAt).getD [] := by
  rw [sourceAt, comparison]
  split
  · dsimp only
    split <;> rfl
  · rfl

variable {s rest : List Char} {c : Char} {source : Source}

theorem findSource_of_comparisons_eq_nil (h : comparisons s = []) : findSource s = [] := by
  induction s with
  | nil => rfl
  | cons c s ih =>
    rw [comparisons, append_eq_nil_iff] at h
    have hnone : comparison (c :: s) = none := by simpa using h.1
    rw [findSource, sourceAt_eq, hnone]
    exact ih h.2

theorem findSource_of_comparisons (h : comparisons s = [rest]) : findSource s = addressAt rest := by
  induction s with
  | nil => contradiction
  | cons c s ih =>
    rw [comparisons] at h
    rw [findSource, sourceAt_eq]
    cases hhere : comparison (c :: s) with
    | none =>
      rw [hhere] at h
      exact ih h
    | some found =>
      rw [hhere] at h
      obtain ⟨rfl, hmore⟩ : found = rest ∧ comparisons s = [] := by simpa using h
      rw [Option.map_some, Option.getD_some]
      cases haddr : addressAt found with
      | nil => exact findSource_of_comparisons_eq_nil hmore
      | cons => rfl

theorem isTermChar_of_isWord (h : isWord c = true) : isTermChar c = true := by
  simp [isTermChar, h]

theorem isTermChar_of_isAddressChar (h : isAddressChar c = true) : isTermChar c = true := by
  obtain hdigit | rfl : c.isDigit = true ∨ c = '.' := by simpa [isAddressChar] using h
  · exact isTermChar_of_isWord (by simp [isWord, Char.isAlphanum, hdigit])
  · decide

theorem addressAt_formatIPv4 {a : BitVec 32} (h : s = formatIPv4 a ++ rest)
    (haddr : rest.head?.any isAddressChar = false) (hword : rest.head?.any isWord = false) :
    addressAt s = formatIPv4 a := by
  obtain ⟨n, hn, -⟩ := parseIPv4_of_parseAddr (parseAddr_formatIPv4 a)
  have hall : ∀ c ∈ formatIPv4 a, isAddressChar c = true := fun c hc => by
    simpa [isAddressChar] using isDigit_or_dot_of_mem_formatIPv4 hc
  have hne := formatIPv4_ne_nil a
  have hlast := isDigit_getLast_of_parseIPv4Fields hn hne
  have htake : rest.takeWhile isAddressChar = [] := by
    cases rest with
    | nil => rfl
    | cons c rest => simpa using haddr
  have hdrop : rest.dropWhile isAddressChar = rest := by
    cases rest with
    | nil => rfl
    | cons c rest => simpa using haddr
  rw [addressAt, h, takeWhile_append_of_pos hall, dropWhile_append_of_pos hall, htake,
    hdrop, append_nil]
  obtain ⟨front, last, hsplit⟩ : ∃ front last, formatIPv4 a = front ++ [last] :=
    ⟨_, _, (dropLast_append_getLast hne).symm⟩
  have hdigit : last.isDigit = true := by simpa [hsplit] using hlast
  rw [hsplit, reverse_append, reverse_singleton, singleton_append, toBoundary_eq hdigit hword]
  simp

theorem head?_any_of_takeWhile {p q : Char → Bool} (h : ∀ c, q c = true → p c = true)
    (s : List Char) : (s.dropWhile p).head?.any q = false := by
  cases hdrop : s.dropWhile p with
  | nil => rfl
  | cons c rest =>
    have hnot : p c = false := by
      have hhead := List.head?_dropWhile_not p s
      simpa [hdrop] using hhead
    rw [List.head?_cons, Option.any_some, Bool.eq_false_iff]
    intro hq
    simp [h c hq] at hnot

/-- What pruning takes for the source of a rule. -/
def Source.key : Source → String
  | .address value => addrString (.v4 value)
  | .cidr block => addrString (.v4 block.base)
  | .set _ => ""

theorem eq_v4_of_prefixFrom {a : Addr} {n : Nat} {block : Block 32}
    (h : prefixFrom a n = some (.v4 block)) : a = .v4 block.base := by
  cases a with
  | zero => contradiction
  | v4 a =>
    rw [prefixFrom] at h
    split at h
    · cases h
      rfl
    · contradiction
  | v6 a =>
    rw [prefixFrom] at h
    split at h <;> cases h

theorem addressAt_of_parseTerm (h : parseTerm (s.takeWhile isTermChar) = some source) :
    addressAt s = source.key.toList := by
  have hsplit : s.takeWhile isTermChar ++ s.dropWhile isTermChar = s :=
    takeWhile_append_dropWhile
  rw [parseTerm] at h
  split at h
  · next block _ hblock =>
    cases h
    obtain ⟨a, b, ip, n, hcut, haddr, -, hfrom⟩ := parsePrefixChars_eq_some hblock
    obtain rfl := eq_v4_of_prefixFrom hfrom
    rw [hcut, eq_formatIPv4_of_parseAddr haddr, append_assoc] at hsplit
    refine (addressAt_formatIPv4 hsplit.symm ?_ ?_).trans (String.toList_ofList).symm
    · rfl
    · rfl
  · next a haddr _ =>
    cases h
    rw [eq_formatIPv4_of_parseAddr haddr] at hsplit
    refine (addressAt_formatIPv4 hsplit.symm ?_ ?_).trans (String.toList_ofList).symm
    · exact head?_any_of_takeWhile (fun _ => isTermChar_of_isAddressChar) s
    · exact head?_any_of_takeWhile (fun _ => isTermChar_of_isWord) s
  · contradiction

theorem addressAt_of_parseSource (h : parseSource s = some source) :
    addressAt s = source.key.toList := by
  rw [parseSource.eq_def] at h
  split at h
  · next s =>
    split at h
    · obtain ⟨elements, -, rfl⟩ := Option.map_eq_some_iff.mp h
      rfl
    · contradiction
  · exact addressAt_of_parseTerm h

/-- An address is read as it is, a network as the address before the slash, a set not at all. -/
theorem allowSource_of_sourceExpr {matchExpr : String} (h : sourceExpr matchExpr = some source) :
    allowSource matchExpr = source.key := by
  rw [sourceExpr] at h
  split at h
  · next s hs =>
    rw [allowSource, findSource_of_comparisons hs, addressAt_of_parseSource h, String.ofList_toList]
  · contradiction

theorem addrString_ne_empty (a : BitVec 32) : addrString (.v4 a) ≠ "" := by
  intro h
  have hparse := parseAddr_formatIPv4 a
  have hnil : (addrString (.v4 a)).toList = [] := by rw [h, String.toList_empty]
  rw [addrString, String.toList_ofList] at hnil
  rw [show formatIPv4 a = [] from hnil] at hparse
  contradiction

theorem mem_pruneStaleAllows {existing : List Rule} {live : Live} {rule : Rule} :
    rule ∈ pruneStaleAllows existing (some live) ↔ rule ∈ existing ∧ isStale live rule = false := by
  simp [pruneStaleAllows]

/-- Pruning keeps the permits of live addresses exactly where every network that holds one is
written with the address of one. -/
theorem pruneStaleAllows_keeps (existing : List Rule) (live : Live) : KeepsPermits existing live ↔
      ∀ rule ∈ existing, rule.priority = allowPriority →
        ∀ block, sourceExpr rule.matchExpr = some (.cidr block) →
          (∃ a, block.Contains a ∧ addrString (.v4 a) ∈ live) →
            addrString (.v4 block.base) ∈ live := by
  constructor
  · rintro ⟨hrules, -⟩ rule hrule hpriority block hsource ⟨a, hcontains, ha⟩
    have hkept := hrules rule hrule a ⟨hpriority, _, hsource, hcontains⟩ ha
    have hfresh := (mem_pruneStaleAllows.mp hkept).2
    rw [isStale, allowSource_of_sourceExpr hsource] at hfresh
    by_contra hnot
    simp [hpriority, Source.key, addrString_ne_empty, hnot] at hfresh
  · intro h
    have hrules : ∀ rule ∈ existing, ∀ a, Admits rule a → addrString (.v4 a) ∈ live →
        rule ∈ pruneStaleAllows existing (some live) := by
      rintro rule hrule a ⟨hpriority, source, hsource, hincludes⟩ ha
      refine mem_pruneStaleAllows.mpr ⟨hrule, ?_⟩
      rw [isStale, allowSource_of_sourceExpr hsource]
      cases source with
      | address value =>
        obtain rfl : a = value := hincludes
        simp [Source.key, ha]
      | cidr block =>
        have hbase := h rule hrule hpriority block hsource ⟨a, hincludes, ha⟩
        simp [Source.key, hbase]
      | set elements => simp [Source.key]
    refine ⟨hrules, ?_⟩
    rintro meets a ha ⟨rule, hrule, hadmits, hmeets⟩
    exact ⟨rule, hrules rule hrule a hadmits ha, hadmits, hmeets⟩

/-- A permit for a network that was written by hand. -/
def byNetwork : Rule :=
  ⟨"allow-related", "from-lport", "ip4.src == 10.0.1.0/24 && ip4.dst == 10.96.0.10", allowPriority⟩

/-- The network holds a live address, and no tenant has the address of the network. -/
theorem not_pruneStaleAllows_keeps :
    ¬∀ (existing : List Rule) (live : Live), KeepsPermits existing live := by
  intro h
  have hadmits : Admits byNetwork 0x0A000107 :=
    ⟨rfl, .cidr ⟨0x0A000100, 24, by decide⟩, by decide +kernel,
      (by decide : Block.Contains ⟨(0x0A000100 : BitVec 32), 24, _⟩ 0x0A000107)⟩
  have hkept := (h [byNetwork] (AList.singleton "10.0.1.7" "a")).rules byNetwork
    mem_cons_self 0x0A000107 hadmits (by decide +kernel)
  revert hkept
  decide +kernel

end Transit
