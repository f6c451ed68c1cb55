import KubevirtUi.Library.Sweep
import KubevirtUi.Transit.Exact

/-!
# A pool is judged excluded exactly when it is

An address that MetalLB hands out must not be one that kube-ovn hands out: each range of the pool
has to lie in what the subnet excludes. The operator and the backend both decide it, each with its
own arithmetic, by a sweep over the excluded ranges.

How a slice is sorted is left open where elements are equal.

The excluded entries may overlap, touch, repeat or contain one another, and they may reach the top
of the address space: the sweep finds out whether together they have every address of a range. A
range written backwards has no addresses; the operator leaves it out, and the backend keeps it to
no effect.
-/

namespace Pool

open Go Go.Netip Transit Python Python.Ipaddress List

/-- An inclusive span of IPv4 addresses. -/
structure Range where
  low : BitVec 32
  high : BitVec 32
  deriving DecidableEq

/-- The address of a text; an IPv4 address in IPv6 is none. -/
def toUint (text : List Char) : Option (BitVec 32) :=
  match parseAddrZone (trimChars text) with
  | some (.v4 a) => some a
  | _ => none

/-- One entry: a range, a network, or an address. What cannot be read is skipped. -/
def parseRange (separator raw : String) : Option Range :=
  let text := trimSpace raw
  if text = "" then none
  else match cutChars separator.toList text.toList with
  | some (first, last) =>
    match toUint first, toUint last with
    | some low, some high => if low ≤ high then some ⟨low, high⟩ else none
    | _, _ => none
  | none =>
    if '/' ∈ text.toList then
      match parsePrefix text with
      | some (.v4 p) =>
        let size := (1#32 <<< (32 - p.bits)) - 1#32
        (toUint (formatAddr (Prefix.v4 p).masked.addr)).map fun low => ⟨low, low + size⟩
      | _ => none
    else (toUint text.toList).map fun one => ⟨one, one⟩

def parseRanges (entries : List String) (separator : String) : List Range :=
  entries.filterMap (parseRange separator)

/-- `sort.Slice` by the first address: equal ones may come in any order. -/
structure SliceSort where
  sort : List Range → List Range
  perm : ∀ spans, (sort spans).Perm spans
  sorted : ∀ spans, (sort spans).Pairwise fun s t => s.low ≤ t.low

/-- One of the ways. -/
def SliceSort.insertion : SliceSort where
  sort := List.insertionSort fun s t => s.low.toNat ≤ t.low.toNat
  perm := perm_insertionSort _
  sorted spans := by
    have : IsTrans Range fun s t => s.low.toNat ≤ t.low.toNat := ⟨fun _ _ _ => Nat.le_trans⟩
    have : Std.Total fun s t : Range => s.low.toNat ≤ t.low.toNat := ⟨fun _ _ => Nat.le_total _ _⟩
    exact (pairwise_insertionSort _ spans).imp BitVec.le_def.mpr

/-- The loop of `covered`. -/
def coveredFrom (low high : BitVec 32) : List Range → Bool
  | [] => high < low
  | span :: spans =>
    if low < span.low then high < low
    else if high ≤ span.high then true
    else coveredFrom (if low ≤ span.high then span.high + 1 else low) high spans

/-- Whether a range lies in the union of others. -/
def covered (slices : SliceSort) (inner : Range) (outer : List Range) : Bool :=
  coveredFrom inner.low inner.high (slices.sort outer)

/-- The part of a pool that a subnet does not exclude. -/
def uncovered (slices : SliceSort) (poolAddresses excludeIps : List String) : List Range :=
  let excluded := parseRanges excludeIps ".."
  (parseRanges poolAddresses "-").filter fun span => ¬covered slices span excluded

namespace Backend

/-- One entry of `_parse_ranges`. -/
def parseRange (sep raw : String) : Option (ℕ × ℕ) :=
  let text := strip raw.toList
  if text = [] then none
  else match cutChars sep.toList text with
  | some (lo, hi) => do
    let lo ← ipv4Address (strip lo)
    let hi ← ipv4Address (strip hi)
    return (lo.toNat, hi.toNat)
  | none =>
    if '/' ∈ text then (ipv4Network text).map fun net => (net.base.toNat, (broadcast net).toNat)
    else (ipv4Address text).map fun one => (one.toNat, one.toNat)

/-- `_parse_ranges` -/
def parseRanges (entries : List String) (sep : String) : List (ℕ × ℕ) :=
  entries.filterMap (parseRange sep)

/-- The order of pairs. -/
def NotAfter (s t : ℕ × ℕ) : Prop := s.1 < t.1 ∨ s.1 = t.1 ∧ s.2 ≤ t.2

instance : DecidableRel NotAfter := fun _ _ => inferInstanceAs (Decidable (_ ∨ _))

/-- `_covered` -/
def covered (inner : ℕ × ℕ) (outer : List (ℕ × ℕ)) : Bool :=
  Intervals.sweep inner.1 inner.2 (outer.insertionSort NotAfter)

/-- A list in the spec of an object. -/
structure Listed (α : Type) where
  spec : Option (Option (List α))

namespace Listed

variable {α β : Type}

def items (object : Listed α) : List α := (object.spec.getD none).getD []

def map (f : α → β) (object : Listed α) : Listed β := ⟨object.spec.map (·.map (·.map f))⟩

theorem items_map (f : α → β) (object : Listed α) : (object.map f).items = object.items.map f := by
  obtain ⟨_ | _ | items⟩ := object
  · rfl
  · rfl
  · rfl

end Listed

structure HTTPException where
  statusCode : Nat
  detail : String

/-- `str` of an address given as a number -/
def addressStr (n : ℕ) : String := String.ofList (formatIPv4 (BitVec.ofNat 32 n))

/-- The pool of MetalLB has to lie in what the subnet excludes. An object that cannot be read is
missing, and then nothing is refused. How a text is quoted is a parameter. -/
def assertPoolExcludedFromOvn (repr : String → String) (pool subnet : String)
    (poolObj subnetObj : Option (Listed String)) : Except HTTPException Unit :=
  match poolObj, subnetObj with
  | some poolObj, some subnetObj =>
    let poolRanges := parseRanges poolObj.items "-"
    let excluded := parseRanges subnetObj.items ".."
    let uncovered := poolRanges.filter fun r => ¬covered r excluded
    if uncovered = [] then .ok ()
    else
      let shown := ", ".intercalate
        (uncovered.map fun (lo, hi) => addressStr lo ++ "-" ++ addressStr hi)
      .error {
        statusCode := 422
        detail := "MetalLB pool " ++ repr pool ++ " has ranges outside the excludeIps of subnet " ++
          repr subnet ++ ": " ++ shown ++ ". kube-ovn allocates router legs and EIPs from " ++
          "that subnet, so it can hand out an address MetalLB has already " ++
          "given to a tenant VIP. Add the range to the subnet's excludeIps " ++
          "before creating tenants on this pool." }
  | _, _ => .ok ()

end Backend

/-- An entry as it is written, with a separator between the ends of a range. -/
def textWith (separator : String) : Entry → String
  | .address a => String.ofList (formatIPv4 a)
  | .network p => prefixString (.v4 p)
  | .range first last =>
    String.ofList (formatIPv4 first ++ (separator.toList ++ formatIPv4 last))

variable {entry : Entry} {slices : SliceSort}

section Text

variable {separator : String} {a b x : BitVec 32} {p : Block 32}

/-- A separator divides the ends of a range, and is found nowhere else. -/
structure Divides (separator : String) : Prop where
  goSpace : ∀ c ∈ separator.toList, Go.isSpace c = false
  space : ∀ c ∈ separator.toList, Python.isSpace c = false
  address : ∀ a, cutChars separator.toList (formatIPv4 a) = none
  network : ∀ p : Block 32, cutChars separator.toList (prefixString (.v4 p)).toList = none
  range : ∀ a b, cutChars separator.toList (formatIPv4 a ++ (separator.toList ++ formatIPv4 b)) =
    some (formatIPv4 a, formatIPv4 b)

theorem toList_dots : "..".toList = ['.', '.'] := rfl

theorem divides_dots : Divides ".." where
  goSpace := by
    rw [toList_dots]
    exact forall_mem_cons.mpr ⟨rfl, forall_mem_singleton.mpr rfl⟩
  space := by
    rw [toList_dots]
    exact forall_mem_cons.mpr ⟨by decide, forall_mem_singleton.mpr (by decide)⟩
  address _ := cutChars_dots_address
  network _ := cutChars_dots_network
  range _ _ := cutChars_dots_range

theorem cutChars_append_singleton {c : Char} {s t : List Char} (h : c ∉ s) :
    cutChars [c] (s ++ c :: t) = some (s, t) := by
  induction s with
  | nil =>
    have hstart : [c].isPrefixOf (c :: t) = true := by
      rw [isPrefixOf_cons_cons, beq_self_eq_true, Bool.true_and, isPrefixOf_nil_left]
    rw [nil_append, cutChars, if_pos hstart]
    rfl
  | cons d s ih =>
    rw [mem_cons, not_or] at h
    have hstart : [c].isPrefixOf (d :: (s ++ c :: t)) = false := by
      rw [isPrefixOf_cons_cons, beq_eq_false_iff_ne.mpr h.1, Bool.false_and]
    rw [cons_append, cutChars, hstart, ih h.2]
    rfl

theorem divides_dash : Divides "-" := by
  have hdash : Foreign '-' := ⟨by decide, by decide, by decide⟩
  have htoList : "-".toList = ['-'] := rfl
  refine ⟨?_, ?_, fun a => ?_, fun p => ?_, fun a b => ?_⟩
  · rw [htoList]
    exact forall_mem_singleton.mpr rfl
  · rw [htoList]
    exact forall_mem_singleton.mpr (by decide)
  · rw [htoList]
    exact cutChars_singleton (hdash.not_mem_formatIPv4 a)
  · rw [htoList]
    apply cutChars_singleton
    intro hmem
    have hchar := isEntryChar_of_mem_prefixString hmem
    contradiction
  · rw [htoList, singleton_append]
    exact cutChars_append_singleton (hdash.not_mem_formatIPv4 a)

theorem isEntryChar_or_mem_of_mem_textWith {c : Char}
    (h : c ∈ (textWith separator entry).toList) : isEntryChar c = true ∨ c ∈ separator.toList := by
  cases entry with
  | address a =>
    rw [textWith, String.toList_ofList] at h
    exact .inl (isEntryChar_of_mem_formatIPv4 h)
  | network p => exact .inl (isEntryChar_of_mem_prefixString h)
  | range first last =>
    rw [textWith, String.toList_ofList, mem_append, mem_append] at h
    obtain h | h | h := h
    · exact .inl (isEntryChar_of_mem_formatIPv4 h)
    · exact .inr h
    · exact .inl (isEntryChar_of_mem_formatIPv4 h)

theorem textWith_ne_nil : (textWith separator entry).toList ≠ [] := by
  cases entry with
  | address a =>
    rw [textWith, String.toList_ofList]
    exact formatIPv4_ne_nil a
  | network p => exact ne_nil_of_mem (slash_mem_prefixString _)
  | range first last =>
    rw [textWith, String.toList_ofList]
    exact append_ne_nil_of_left_ne_nil (formatIPv4_ne_nil first) _

/-- The range that an entry is read as. -/
def span : Entry → Option Range
  | .address a => some ⟨a, a⟩
  | .network p => some ⟨p.masked.base, p.masked.base + ((1#32 <<< (32 - p.bits)) - 1#32)⟩
  | .range first last => if first ≤ last then some ⟨first, last⟩ else none

theorem toUint_formatIPv4 : toUint (formatIPv4 a) = some a := by
  have htrim : trimChars (formatIPv4 a) = formatIPv4 a :=
    trimChars_of_forall fun c hc => isSpace_of_isEntryChar (isEntryChar_of_mem_formatIPv4 hc)
  rw [toUint, htrim, parseAddrZone_formatIPv4]

theorem parseRange_textWith (h : Divides separator) :
    parseRange separator (textWith separator entry) = span entry := by
  have htrim : trimSpace (textWith separator entry) = textWith separator entry := by
    rw [trimSpace, trimChars_of_forall, String.ofList_toList]
    intro c hc
    exact (isEntryChar_or_mem_of_mem_textWith hc).elim isSpace_of_isEntryChar (h.goSpace c)
  have hne : textWith separator entry ≠ "" := fun hempty =>
    textWith_ne_nil (congrArg String.toList hempty)
  rw [parseRange, htrim, if_neg hne]
  cases entry with
  | address a =>
    have htext : (textWith separator (.address a)).toList = formatIPv4 a := String.toList_ofList
    rw [htext, h.address]
    dsimp only
    rw [if_neg (foreign_slash.not_mem_formatIPv4 a), toUint_formatIPv4]
    rfl
  | network p =>
    have htext : textWith separator (.network p) = prefixString (.v4 p) := rfl
    have haddr : formatAddr (Prefix.v4 p).masked.addr = formatIPv4 p.masked.base := rfl
    rw [htext, h.network]
    dsimp only
    rw [if_pos (slash_mem_prefixString _), parsePrefix_prefixString]
    dsimp only
    rw [haddr, toUint_formatIPv4]
    rfl
  | range first last =>
    have htext : (textWith separator (.range first last)).toList =
        formatIPv4 first ++ (separator.toList ++ formatIPv4 last) := String.toList_ofList
    rw [htext, h.range]
    dsimp only
    rw [toUint_formatIPv4, toUint_formatIPv4, span]

theorem span_spec : (∃ r ∈ span entry, r.low ≤ x ∧ x ≤ r.high) ↔ entry.Excludes x := by
  cases entry with
  | address a =>
    simp only [span, Option.mem_def, Option.some.injEq, exists_eq_left', Entry.Excludes]
    constructor
    · rintro ⟨hle, hge⟩
      exact BitVec.le_antisymm hge hle
    · rintro rfl
      exact ⟨BitVec.le_refl x, BitVec.le_refl x⟩
  | network p =>
    have hlast : (p.masked.base + ((1#32 <<< (32 - p.bits)) - 1#32)).toNat =
        p.masked.base.toNat + p.masked.size - 1 := by
      rw [← toNat_last p.masked_masked, BitVec.sub_eq_add_neg, BitVec.sub_eq_add_neg,
        BitVec.add_assoc]
      rfl
    have hpos := p.masked.size_pos
    simp only [span, Option.mem_def, Option.some.injEq, exists_eq_left', Entry.Excludes]
    rw [BitVec.le_def, BitVec.le_def, hlast, ← Block.contains_masked,
      Block.contains_iff_le_lt p.masked_masked]
    omega
  | range first last =>
    simp only [span, Entry.Excludes]
    split
    · simp only [Option.mem_def, Option.some.injEq, exists_eq_left']
    · next hlt =>
      refine iff_of_false (by simp) ?_
      rintro ⟨hle, hge⟩
      exact hlt (BitVec.le_trans hle hge)

/-- The pair of numbers that an entry is read as. -/
def pair : Entry → ℕ × ℕ
  | .address a => (a.toNat, a.toNat)
  | .network p => (p.masked.base.toNat, (broadcast p.masked).toNat)
  | .range first last => (first.toNat, last.toNat)

theorem parseRange_eq_pair (h : Divides separator) :
    Backend.parseRange separator (textWith separator entry) = some (pair entry) := by
  have hstrip : strip (textWith separator entry).toList = (textWith separator entry).toList := by
    apply strip_eq_self
    intro c hc
    exact (isEntryChar_or_mem_of_mem_textWith hc).elim Transit.Backend.isSpace_of_isEntryChar
      (h.space c)
  rw [Backend.parseRange, hstrip, if_neg textWith_ne_nil]
  cases entry with
  | address a =>
    have htext : (textWith separator (.address a)).toList = formatIPv4 a := String.toList_ofList
    rw [htext, h.address]
    dsimp only
    rw [if_neg (foreign_slash.not_mem_formatIPv4 a), Transit.Backend.ipv4Address_formatIPv4]
    rfl
  | network p =>
    have htext : textWith separator (.network p) = networkStr p := rfl
    have hslash : '/' ∈ (networkStr p).toList := slash_mem_prefixString (.v4 p)
    have hcut := h.network p
    rw [← Transit.Backend.networkStr_eq] at hcut
    rw [htext, hcut]
    dsimp only
    rw [if_pos hslash, ipv4Network_networkStr]
    rfl
  | range first last =>
    have htext : (textWith separator (.range first last)).toList =
        formatIPv4 first ++ (separator.toList ++ formatIPv4 last) := String.toList_ofList
    rw [htext, h.range]
    dsimp only
    rw [Transit.Backend.strip_formatIPv4, Transit.Backend.strip_formatIPv4,
      Transit.Backend.ipv4Address_formatIPv4, Transit.Backend.ipv4Address_formatIPv4]
    rfl

theorem pair_spec : (pair entry).1 ≤ x.toNat ∧ x.toNat ≤ (pair entry).2 ↔ entry.Excludes x := by
  cases entry with
  | address a =>
    rw [pair, Entry.Excludes, ← BitVec.toNat_inj]
    omega
  | network p =>
    have hpos := p.masked.size_pos
    rw [pair, toNat_broadcast p.masked_masked, Entry.Excludes, ← Block.contains_masked,
      Block.contains_iff_le_lt p.masked_masked]
    omega
  | range first last => rw [pair, Entry.Excludes, BitVec.le_def, BitVec.le_def]

end Text

section Sweep

variable {low high : BitVec 32} {inner : Range} {outer : List Range}

/-- The ends of a range as numbers. -/
def Range.ends (r : Range) : ℕ × ℕ := (r.low.toNat, r.high.toNat)

theorem coveredFrom_eq_sweep : coveredFrom low high outer =
    Intervals.sweep low.toNat high.toNat (outer.map Range.ends) := by
  induction outer generalizing low with
  | nil =>
    rw [coveredFrom, map_nil, Intervals.sweep]
    simp only [BitVec.lt_def]
  | cons span outer ih =>
    rw [coveredFrom, map_cons, Range.ends, Intervals.sweep]
    simp only [BitVec.lt_def, BitVec.le_def]
    split
    · rfl
    · split
      · rfl
      · next hend =>
        rw [ih]
        congr 1
        split
        · have hone : (1 : BitVec 32).toNat = 1 := rfl
          have hlt := high.isLt
          rw [BitVec.toNat_add, hone, Nat.mod_eq_of_lt (by omega)]
        · rfl

/-- A range is covered when each of its addresses is in one of the others. -/
theorem covered_iff : covered slices inner outer = true ↔
    ∀ x, inner.low ≤ x → x ≤ inner.high → ∃ r ∈ outer, r.low ≤ x ∧ x ≤ r.high := by
  have hsorted : ((slices.sort outer).map Range.ends).Pairwise fun s t => s.1 ≤ t.1 := by
    rw [pairwise_map]
    exact (slices.sorted outer).imp BitVec.le_def.mp
  have hspanned (x : BitVec 32) : Intervals.Spanned ((slices.sort outer).map Range.ends) x.toNat ↔
        ∃ r ∈ outer, r.low ≤ x ∧ x ≤ r.high := by
    simp only [Intervals.Spanned, mem_map, exists_exists_and_eq_and,
      (slices.perm outer).mem_iff, Range.ends, BitVec.le_def]
  rw [covered, coveredFrom_eq_sweep, Intervals.sweep_iff hsorted]
  constructor
  · intro h x hlow hhigh
    exact (hspanned x).mp (h x.toNat (BitVec.le_def.mp hlow) (BitVec.le_def.mp hhigh))
  · intro h n hlow hhigh
    have hlt := inner.high.isLt
    have hn : (BitVec.ofNat 32 n).toNat = n := by
      rw [BitVec.toNat_ofNat, Nat.mod_eq_of_lt (by omega)]
    rw [← hn, hspanned]
    apply h
    · rwa [BitVec.le_def, hn]
    · rwa [BitVec.le_def, hn]

namespace Backend

instance : Std.Total NotAfter := ⟨fun s t => by simp only [NotAfter]; omega⟩

instance : IsTrans (ℕ × ℕ) NotAfter := ⟨fun s t u => by simp only [NotAfter]; omega⟩

theorem covered_iff {inner : ℕ × ℕ} {outer : List (ℕ × ℕ)} : covered inner outer = true ↔
    ∀ n, inner.1 ≤ n → n ≤ inner.2 → Intervals.Spanned outer n := by
  have hsorted : (outer.insertionSort NotAfter).Pairwise fun s t => s.1 ≤ t.1 := by
    apply (pairwise_insertionSort NotAfter outer).imp
    intro s t h
    obtain hlt | heq := h
    · exact hlt.le
    · exact heq.1.le
  rw [covered, Intervals.sweep_iff hsorted]
  simp only [Intervals.Spanned, (perm_insertionSort NotAfter outer).mem_iff]

end Backend

end Sweep

section Uncovered

variable {pool excludes : List Entry} {r : Range}

/-- An address of an entry that no entry excludes. -/
def Exposed (excludes : List Entry) (entry : Entry) : Prop :=
  ∃ x, entry.Excludes x ∧ ∀ other ∈ excludes, ¬other.Excludes x

theorem mem_parseRanges {separator : String} (h : Divides separator) :
    r ∈ parseRanges (pool.map (textWith separator)) separator ↔ ∃ entry ∈ pool, r ∈ span entry := by
  simp only [parseRanges, mem_filterMap, mem_map, exists_exists_and_eq_and,
    parseRange_textWith h, Option.mem_def]

theorem contains_iff_of_mem_span {x : BitVec 32} (hr : r ∈ span entry) :
    r.low ≤ x ∧ x ≤ r.high ↔ entry.Excludes x := by
  rw [← span_spec]
  constructor
  · exact fun h => ⟨r, hr, h⟩
  · rintro ⟨other, hother, h⟩
    obtain rfl := Option.mem_unique hr hother
    exact h

/-- The operator finds a range covered exactly if no address of it is exposed. -/
theorem covered_eq_false_iff (hr : r ∈ span entry) :
    covered slices r (parseRanges (excludes.map (textWith "..")) "..") = false ↔
      Exposed excludes entry := by
  have hentry (x : BitVec 32) : r.low ≤ x ∧ x ≤ r.high ↔ entry.Excludes x :=
    contains_iff_of_mem_span hr
  have hother (x : BitVec 32) :
      (∃ r ∈ parseRanges (excludes.map (textWith "..")) "..", r.low ≤ x ∧ x ≤ r.high) ↔
        ∃ other ∈ excludes, other.Excludes x := by
    simp only [mem_parseRanges divides_dots, ← span_spec]
    constructor
    · rintro ⟨s, ⟨other, hmem, hs⟩, hx⟩
      exact ⟨other, hmem, s, hs, hx⟩
    · rintro ⟨other, hmem, s, hs, hx⟩
      exact ⟨s, ⟨other, hmem, hs⟩, hx⟩
  rw [← Bool.not_eq_true, covered_iff, Exposed]
  simp only [hother, ← hentry]
  push Not
  simp only [and_assoc]

theorem mem_uncovered :
    r ∈ uncovered slices (pool.map (textWith "-")) (excludes.map (textWith "..")) ↔
      ∃ entry ∈ pool, r ∈ span entry ∧ Exposed excludes entry := by
  rw [uncovered, mem_filter, mem_parseRanges divides_dash, decide_eq_true_iff, Bool.not_eq_true]
  constructor
  · rintro ⟨⟨entry, hentry, hr⟩, hnot⟩
    exact ⟨entry, hentry, hr, (covered_eq_false_iff hr).mp hnot⟩
  · rintro ⟨entry, hentry, hr, hexposed⟩
    exact ⟨⟨entry, hentry, hr⟩, (covered_eq_false_iff hr).mpr hexposed⟩

theorem uncovered_eq_nil_iff :
    uncovered slices (pool.map (textWith "-")) (excludes.map (textWith "..")) = [] ↔
      ∀ entry ∈ pool, ¬Exposed excludes entry := by
  rw [eq_nil_iff_forall_not_mem]
  simp only [mem_uncovered]
  constructor
  · intro h entry hentry hexposed
    obtain ⟨x, hx, hnone⟩ := hexposed
    obtain ⟨r, hr, -⟩ := span_spec.mpr hx
    exact h r ⟨entry, hentry, hr, x, hx, hnone⟩
  · rintro h r ⟨entry, hentry, -, hexposed⟩
    exact h entry hentry hexposed

namespace Backend

theorem parseRanges_eq_map {separator : String} (h : Divides separator) :
    parseRanges (pool.map (textWith separator)) separator = pool.map pair := by
  have hread : parseRange separator ∘ textWith separator = some ∘ pair := by
    funext entry
    exact parseRange_eq_pair h
  rw [parseRanges, filterMap_map, hread, filterMap_eq_map]

theorem covered_eq_false_iff :
    covered (pair entry) (excludes.map pair) = false ↔ Exposed excludes entry := by
  have hlt : (pair entry).2 < 2 ^ 32 := by
    cases entry <;> exact BitVec.isLt _
  have hother (x : BitVec 32) : Intervals.Spanned (excludes.map pair) x.toNat ↔
      ∃ other ∈ excludes, other.Excludes x := by
    simp only [Intervals.Spanned, mem_map, exists_exists_and_eq_and, pair_spec]
  rw [← Bool.not_eq_true, covered_iff, Exposed]
  push Not
  constructor
  · rintro ⟨n, hlow, hhigh, hnot⟩
    have hn : (BitVec.ofNat 32 n).toNat = n := by
      rw [BitVec.toNat_ofNat, Nat.mod_eq_of_lt (by omega)]
    rw [← hn] at hlow hhigh hnot
    refine ⟨_, pair_spec.mp ⟨hlow, hhigh⟩, fun other hmem hexcludes => hnot ?_⟩
    exact (hother _).mpr ⟨other, hmem, hexcludes⟩
  · rintro ⟨x, hx, hnone⟩
    obtain ⟨hlow, hhigh⟩ := pair_spec.mpr hx
    refine ⟨x.toNat, hlow, hhigh, fun hspanned => ?_⟩
    obtain ⟨other, hmem, hexcludes⟩ := (hother x).mp hspanned
    exact hnone other hmem hexcludes

theorem assert_eq_ok_iff (repr : String → String) (name subnet : String)
    (poolObj subnetObj : Listed Entry) :
    assertPoolExcludedFromOvn repr name subnet (some (poolObj.map (textWith "-")))
        (some (subnetObj.map (textWith ".."))) = .ok () ↔
      ∀ entry ∈ poolObj.items, ¬Exposed subnetObj.items entry := by
  have hnil : (poolObj.items.map pair).filter (fun r => ¬covered r (subnetObj.items.map pair)) =
      [] ↔ ∀ entry ∈ poolObj.items, ¬Exposed subnetObj.items entry := by
    rw [filter_eq_nil_iff, forall_mem_map]
    simp only [Bool.not_eq_true, decide_eq_true_iff, covered_eq_false_iff]
  rw [← hnil, assertPoolExcludedFromOvn]
  dsimp only
  rw [Listed.items_map, Listed.items_map, parseRanges_eq_map divides_dash,
    parseRanges_eq_map divides_dots]
  split
  · next h => exact iff_of_true rfl h
  · next h => exact iff_of_false (by simp) h

end Backend

end Uncovered

/-- A pool and a subnet, in whatever order their entries come and whichever of their lists are
missing: nothing is uncovered exactly if all addresses of the pool are excluded; what is uncovered
is a range of the pool with an address that is not; and the backend refuses the same pools. -/
theorem uncovered_spec (slices : SliceSort) (repr : String → String) (name subnet : String)
    (pool excludes : Backend.Listed Entry) :
    let ranges := uncovered slices (pool.items.map (textWith "-"))
      (excludes.items.map (textWith ".."))
    (ranges = [] ↔ ∀ entry ∈ pool.items, ∀ x, entry.Excludes x →
      ∃ other ∈ excludes.items, other.Excludes x) ∧
    (∀ r ∈ ranges, ∃ entry ∈ pool.items, (∀ x, r.low ≤ x ∧ x ≤ r.high ↔ entry.Excludes x) ∧
      ∃ x, entry.Excludes x ∧ ∀ other ∈ excludes.items, ¬other.Excludes x) ∧
    ((∃ refusal, Backend.assertPoolExcludedFromOvn repr name subnet
        (some (pool.map (textWith "-"))) (some (excludes.map (textWith ".."))) =
          .error refusal) ↔ ranges ≠ []) := by
  dsimp only
  refine ⟨?_, fun r hr => ?_, ?_⟩
  · rw [uncovered_eq_nil_iff]
    refine forall₂_congr fun entry _ => ?_
    rw [Exposed]
    push Not
    exact Iff.rfl
  · obtain ⟨entry, hentry, hspan, hexposed⟩ := mem_uncovered.mp hr
    exact ⟨entry, hentry, fun x => contains_iff_of_mem_span hspan, hexposed⟩
  · rw [ne_eq, uncovered_eq_nil_iff, ← Backend.assert_eq_ok_iff repr name subnet]
    cases Backend.assertPoolExcludedFromOvn repr name subnet _ _ with
    | ok _ => exact iff_of_false (by simp) (not_not_intro rfl)
    | error refusal => exact iff_of_true ⟨refusal, rfl⟩ (by simp)

/-- Two entries that touch, the later one first, exclude a pool up to the last address. -/
example : uncovered .insertion ["255.255.255.0-255.255.255.255"]
    ["255.255.255.128/25", "255.255.255.0..255.255.255.127"] = [] := by
  decide +kernel

end Pool
