import KubevirtUi.Transit.Exact
import KubevirtUi.Transit.Isolation

/-!
# Odd entries of an exclude list

An entry that is no address, network or ascending range of IPv4 is to be skipped. Most of them are.
A range with an end of IPv6 stops the operator, unless both ends are IPv4 addresses in IPv6; then
it excludes what these are. In an IPv6 subnet it is a network inside it that stops the operator.
-/

namespace Transit

open Go Go.Netip List Option

/-- An address, a network, or an ascending range of IPv4. -/
def isIPv4Entry (entry : String) : Bool :=
  let entry := trimSpace entry
  match cutChars "..".toList entry.toList with
  | some (first, last) =>
    match parseAddrZone (trimChars first), parseAddrZone (trimChars last) with
    | some (.v4 low), some (.v4 high) => low ≤ high
    | _, _ => false
  | none =>
    if '/' ∈ entry.toList then
      match parsePrefix entry with
      | some (.v4 _) => true
      | _ => false
    else match parseAddrZone entry.toList with
      | some (.v4 _) => true
      | _ => false

/-- The odd entries are skipped: there is a result, and in an IPv4 subnet it is the one without
them. -/
structure SkipsOdd (cidr : String) (excludeIPs : List String) : Prop where
  ranges : allocatableRanges cidr excludeIPs ≠ none
  deny : deny cidr excludeIPs ≠ none
  same : ∀ network, parsePrefix cidr = some (.v4 network) →
    allocatableRanges cidr excludeIPs = allocatableRanges cidr (excludeIPs.filter isIPv4Entry) ∧
      Transit.deny cidr excludeIPs = Transit.deny cidr (excludeIPs.filter isIPv4Entry)

/-- The blocks that the entries are read as. -/
def blocksOf (excludeIPs : List String) : List Prefix :=
    (excludeIPs.filterMap parseReserved).flatten

/-- The first of the blocks that meets the network is longer than it. -/
def CutsInto (network : Prefix) : List Prefix → Prop
  | [] => False
  | block :: blocks =>
    if network.overlaps block then network.bits < block.bits else CutsInto network blocks

/-- The address is excluded by an entry of IPv4. -/
def ExcludedByIPv4 (excludeIPs : List String) (x : BitVec 32) : Prop :=
  ∃ entry ∈ excludeIPs, isIPv4Entry entry = true ∧ Excludes entry x

/-- What the odd entries exclude of the subnet, others exclude too. The subnet's own address is
not printed if it is left alone. -/
def AddsNothing (network : Block 32) (excludeIPs : List String) : Prop :=
  ∀ x, network.Contains x → (∃ entry ∈ excludeIPs, isIPv4Entry entry = false ∧ Excludes entry x) →
    ExcludedByIPv4 excludeIPs x ∨
      x = network.masked.base ∧ (network.bits = 32 ∨ ExcludedByIPv4 excludeIPs (x + 1))

section Carve

variable {block : Prefix} {p : Piece} {ps : List Piece} {blocks : List Prefix} {n : Nat}

/-- An address that the arithmetic can take. -/
def Piece.Usable (p : Piece) : Prop := toUint p.addr ≠ none

theorem usable_ofBits {a : Addr} (h : toUint a ≠ none) (k : Nat) : (Piece.ofBits a k).Usable := by
  cases a with
  | zero => exact absurd rfl h
  | v4 a =>
    rw [Piece.ofBits, prefixFrom]
    split
    · exact h
    · exact h
  | v6 a =>
    rw [Piece.ofBits, prefixFrom]
    split
    · exact h
    · exact h

/-- What is left of one half. -/
def carveHalf (block : Prefix) (n : Nat) (p : Piece) : Option (List Piece) :=
  if p.overlaps block then carve block n p else some [p]

theorem carve_succ {p : Prefix} {base : BitVec 32} (hbase : toUint p.addr = some base)
    (hoverlap : p.overlaps block = true) : carve block (n + 1) (.valid p) =
      (carveHalf block n (Piece.ofBits p.addr (p.bits + 1))).bind fun left =>
        (carveHalf block n (Piece.ofBits (.v4 (base + hostSize (p.bits + 1))) (p.bits + 1))).map
          (left ++ ·) := by
  rw [carve, if_neg (not_not_intro hoverlap), hbase, carveHalf, carveHalf]
  simp only [bind_eq_bind, bind_some, map_eq_bind]
  split
  · split
    · rfl
    · rfl
  · split
    · rfl
    · rfl

theorem carve_usable (hp : p.Usable) : ∃ ps, carve block n p = some ps ∧ ∀ q ∈ ps, q.Usable := by
  have hsingle (q : Piece) (hq : q.Usable) : ∃ ps, some [q] = some ps ∧ ∀ q ∈ ps, q.Usable :=
    ⟨[q], rfl, forall_mem_singleton.mpr hq⟩
  induction n generalizing p with
  | zero =>
    cases p with
    | invalid a => exact hsingle _ hp
    | valid p =>
      rw [carve]
      split
      · exact ⟨[], rfl, forall_mem_nil _⟩
      · exact hsingle _ hp
  | succ n ih =>
    cases p with
    | invalid a => exact hsingle _ hp
    | valid p =>
      by_cases hoverlap : p.overlaps block = true
      · have hhalf (a : Addr) (ha : toUint a ≠ none) :
            ∃ ps, carveHalf block n (Piece.ofBits a (p.bits + 1)) = some ps ∧
              ∀ q ∈ ps, q.Usable := by
          have ha := usable_ofBits ha (p.bits + 1)
          rw [carveHalf]
          split
          · exact ih ha
          · exact hsingle _ ha
        obtain ⟨base, hbase⟩ := ne_none_iff_exists'.mp hp
        obtain ⟨left, hleft, hleftUsable⟩ := hhalf p.addr hp
        obtain ⟨right, hright, hrightUsable⟩ :=
          hhalf (.v4 (base + hostSize (p.bits + 1))) (some_ne_none _)
        rw [carve_succ hbase hoverlap, hleft, bind_some, hright]
        exact ⟨left ++ right, rfl, forall_mem_append.mpr ⟨hleftUsable, hrightUsable⟩⟩
      · rw [carve, if_pos hoverlap]
        exact hsingle _ hp

/-- One block is taken out of all that remains. -/
def takeOut (remaining : List Piece) (block : Prefix) : Option (List Piece) :=
  (remaining.mapM (subtract · block)).map List.flatten

theorem takeOut_usable (hps : ∀ p ∈ ps, p.Usable) :
    ∃ qs, takeOut ps block = some qs ∧ ∀ q ∈ qs, q.Usable := by
  rw [takeOut]
  induction ps with
  | nil => exact ⟨[], rfl, forall_mem_nil _⟩
  | cons p ps ih =>
    obtain ⟨hp, hps⟩ := forall_mem_cons.mp hps
    obtain ⟨qs, hqs, husable⟩ : ∃ qs, subtract p block = some qs ∧ ∀ q ∈ qs, q.Usable :=
      carve_usable hp
    obtain ⟨rest, hrest, hrestUsable⟩ := ih hps
    obtain ⟨lists, hlists, rfl⟩ := map_eq_some_iff.mp hrest
    refine ⟨qs ++ lists.flatten, ?_, forall_mem_append.mpr ⟨husable, hrestUsable⟩⟩
    rw [mapM_cons, hqs, hlists]
    rfl

theorem foldlM_takeOut_usable (hps : ∀ p ∈ ps, p.Usable) : blocks.foldlM takeOut ps ≠ none := by
  induction blocks generalizing ps with
  | nil => exact some_ne_none _
  | cons block blocks ih =>
    obtain ⟨qs, hqs, husable⟩ := @takeOut_usable block ps hps
    rw [foldlM_cons, hqs]
    exact ih husable

theorem foldlM_takeOut_nil : blocks.foldlM takeOut [] = some [] := by
  induction blocks with
  | nil => rfl
  | cons block blocks ih => exact ih

/-- A network whose address cannot be taken is left whole, or is gone, or stops the operator. -/
theorem foldlM_takeOut_eq_none_iff {network : Prefix} (h : toUint network.addr = none) :
    blocks.foldlM takeOut [.valid network] = none ↔ CutsInto network blocks := by
  induction blocks with
  | nil => exact iff_of_false (some_ne_none _) id
  | cons block blocks ih =>
    have hlength : ((block.bits : Int) - (Piece.valid network).bits).toNat =
        block.bits - network.bits := Int.toNat_sub _ _
    have hsubtract : subtract (.valid network) block =
        carve block (block.bits - network.bits) (.valid network) := by
      rw [subtract, hlength]
    have hone : takeOut [.valid network] block =
        (subtract (.valid network) block).map fun ps => ps ++ [] := by
      rw [takeOut, mapM_cons, mapM_nil]
      cases subtract (.valid network) block <;> rfl
    rw [foldlM_cons, hone, hsubtract, CutsInto]
    by_cases hoverlap : network.overlaps block = true
    · rw [if_pos hoverlap]
      cases hn : block.bits - network.bits with
      | zero =>
        rw [carve, if_pos hoverlap]
        refine iff_of_false ?_ (by omega)
        change blocks.foldlM takeOut [] ≠ none
        rw [foldlM_takeOut_nil]
        exact some_ne_none _
      | succ n =>
        rw [carve, if_neg (not_not_intro hoverlap), h]
        exact iff_of_true rfl (by omega)
    · rw [if_neg hoverlap, carve_of_not_overlaps (Bool.eq_false_iff.mpr hoverlap)]
      exact ih

end Carve

section Next

variable {c n : Block 32} {x y : BitVec 32}

theorem contains_iff_div_eq : c.Contains x ↔
    x.toNat / 2 ^ (32 - c.bits) = c.base.toNat / 2 ^ (32 - c.bits) := by
  rw [Block.Contains, Block.Agree, ← BitVec.toNat_inj, BitVec.toNat_ushiftRight,
    BitVec.toNat_ushiftRight, Nat.shiftRight_eq_div_pow, Nat.shiftRight_eq_div_pow]

theorem toNat_add_one_of_even (hx : 2 ∣ x.toNat) : (x + 1).toNat = x.toNat + 1 := by
  have hlt := x.isLt
  have hone : (1 : BitVec 32).toNat = 1 := rfl
  rw [BitVec.toNat_add, hone]
  omega

theorem contains_add_one (hx : 2 ∣ x.toNat) (hc : c.Contains x) (hbits : c.bits ≠ 32) :
    c.Contains (x + 1) := by
  have hle := c.bits_le
  obtain ⟨k, hk⟩ : ∃ k, 32 - c.bits = k + 1 := ⟨31 - c.bits, by omega⟩
  rw [contains_iff_div_eq, hk, Nat.pow_succ', ← Nat.div_div_eq_div_mul] at hc
  have hhalf : (x.toNat + 1) / 2 = x.toNat / 2 := by omega
  rw [contains_iff_div_eq, hk, Nat.pow_succ', ← Nat.div_div_eq_div_mul, toNat_add_one_of_even hx,
    hhalf, hc]

theorem eq_or_eq_of_pair (hx : 2 ∣ x.toNat)
    (hy : Block.Contains ⟨x, 31, by omega⟩ y) : y = x ∨ y = x + 1 := by
  rw [contains_iff_div_eq] at hy
  change y.toNat / 2 = x.toNat / 2 at hy
  have hnext := toNat_add_one_of_even hx
  by_cases hsame : y.toNat = x.toNat
  · exact .inl (BitVec.eq_of_toNat_eq hsame)
  · exact .inr (BitVec.eq_of_toNat_eq (by omega))

theorem even_masked_base (h : n.bits ≠ 32) : 2 ∣ n.masked.base.toNat := by
  have hle := n.bits_le
  obtain ⟨k, hk⟩ : ∃ k, 32 - n.bits = k + 1 := ⟨31 - n.bits, by omega⟩
  rw [Block.toNat_masked_base, hk, Nat.pow_succ]
  exact Dvd.dvd.mul_left (Nat.dvd_mul_left _ _) _

end Next

section Same

variable {n p : Block 32} {bs cs : List (Block 32)} {free all : BitVec 32 → Prop}
  {cidr : String} {excludeIPs : List String} {read kept : List (List Prefix)} {x : BitVec 32}

theorem mem_leftover_iff_largest
    (hfree : ∀ x, (n.masked.Contains x ∧ ∀ b ∈ bs, ¬b.Contains x) ↔ free x) :
    p ∈ leftover n.masked bs ↔
      Block.Largest free p ∧ ¬(p.bits = 32 ∧ p.base = n.masked.base) := by
  rw [mem_leftover, Block.mem_without_iff n.masked_masked, Block.Largest.congr hfree]

/-- More addresses are free, and the ranges are the same, exactly if the subnet's own address is
the only one more, and it is left alone. -/
theorem leftover_eq_iff (hfree : ∀ x, (n.masked.Contains x ∧ ∀ b ∈ bs, ¬b.Contains x) ↔ free x)
    (hall : ∀ x, (n.masked.Contains x ∧ ∀ b ∈ cs, ¬b.Contains x) ↔ all x)
    (hmore : ∀ x, free x → all x) : leftover n.masked bs = leftover n.masked cs ↔
      ∀ x, all x → free x ∨ x = n.masked.base ∧ (n.bits = 32 ∨ ¬all (x + 1)) := by
  constructor
  · intro hsame x hx
    refine or_iff_not_imp_left.mpr fun hnot => ?_
    have hmissing : ¬∃ b ∈ leftover n.masked cs, b.Contains x := by
      rintro ⟨b, hb, hbx⟩
      rw [← hsame] at hb
      exact hnot ((exact_leftover hfree).sound b hb x hbx)
    obtain ⟨hbase, halone⟩ := ((exact_leftover hall).complete x hx).resolve_left hmissing
    refine ⟨hbase, or_iff_not_imp_left.mpr fun hbits hnext => ?_⟩
    have heven : 2 ∣ x.toNat := hbase ▸ even_masked_base hbits
    have hpair : Block.Within ⟨x, 31, by omega⟩ all := by
      intro y hy
      obtain rfl | rfl := eq_or_eq_of_pair heven hy
      · exact hx
      · exact hnext
    have hcontains : Block.Contains ⟨x, 31, by omega⟩ x := Block.contains_base _
    have hlength : 31 = 32 := halone _ hcontains hpair
    omega
  · intro h
    apply List.Pairwise.eq_of_mem_iff (sorted_leftover n.masked_masked)
      (sorted_leftover n.masked_masked)
    intro p
    rw [mem_leftover_iff_largest hfree, mem_leftover_iff_largest hall]
    by_cases hmissing : all n.masked.base ∧ ¬free n.masked.base
    · -- The subnet's own address is free only without the odd entries.
      obtain ⟨hbase, hnot⟩ := hmissing
      have hnext := ((h _ hbase).resolve_left hnot).2
      have hsubnet : ∀ x, all x → n.masked.Contains x := fun x hx => ((hall x).mpr hx).1
      have halone (c : Block 32) (hc : c.Contains n.masked.base) (hwithin : c.Within all) :
          c.bits = 32 := by
        by_contra hbits
        have hle : n.masked.bits ≤ c.bits :=
          Block.bits_le_of_within fun x hx => hsubnet x (hwithin x hx)
        have hlong := c.bits_le
        have hnbits : n.masked.bits = n.bits := rfl
        have hshort : n.bits ≠ 32 := by omega
        have hafter := contains_add_one (even_masked_base hshort) hc hbits
        exact hnext.resolve_left hshort (hwithin _ hafter)
      refine and_congr_left fun hown => ?_
      by_cases hp : p.Contains n.masked.base
      · refine iff_of_false (fun hlargest => hnot (hlargest.within _ hp)) fun hlargest => hown ?_
        have hbits := halone p hp hlargest.within
        exact ⟨hbits, ((contains_iff_of_single hbits).mp hp).symm⟩
      · apply Block.largest_iff_of_alone _ hnot halone hp
        intro x hx
        refine ⟨hmore x, fun hxall => ?_⟩
        exact (h x hxall).resolve_right fun hown => hx hown.1
    · refine and_congr_left fun _ => Block.Largest.congr fun x => ⟨hmore x, fun hx => ?_⟩
      by_contra hnot
      obtain ⟨rfl, -⟩ := (h x hx).resolve_left hnot
      exact hmissing ⟨hx, hnot⟩

theorem exists_blocks_of_not_stops (h : ∀ entry ∈ excludeIPs, ¬Stops entry) :
    ∃ read, excludeIPs.mapM parseReserved = some read ∧ read.flatten = blocksOf excludeIPs := by
  induction excludeIPs with
  | nil => exact ⟨[], rfl, rfl⟩
  | cons entry excludeIPs ih =>
    obtain ⟨hentry, hrest⟩ := forall_mem_cons.mp h
    obtain ⟨read, hread, hflatten⟩ := ih hrest
    obtain ⟨blocks, hblocks⟩ :=
      ne_none_iff_exists'.mp (mt parseReserved_eq_none_iff.mp hentry)
    refine ⟨blocks :: read, ?_, ?_⟩
    · rw [mapM_cons, hblocks, hread]
      rfl
    · rw [blocksOf] at hflatten ⊢
      rw [filterMap_cons_some hblocks, flatten_cons, flatten_cons, hflatten]

/-- The operator gets through, if every entry can be read and the subnet can be cut. -/
theorem allocatableRanges_ne_none_iff {network : Prefix} (hcidr : parsePrefix cidr = some network) :
    allocatableRanges cidr excludeIPs ≠ none ↔ (∀ entry ∈ excludeIPs, ¬Stops entry) ∧
      (toUint network.masked.addr = none → ¬CutsInto network.masked (blocksOf excludeIPs)) := by
  rw [allocatableRanges, hcidr]
  dsimp only
  by_cases hstops : ∀ entry ∈ excludeIPs, ¬Stops entry
  · obtain ⟨read, hread, hflatten⟩ := exists_blocks_of_not_stops hstops
    rw [hread, bind_eq_bind, bind_some, and_iff_right hstops, ← hflatten]
    change (read.flatten.foldlM takeOut [.valid network.masked]).bind _ ≠ none ↔ _
    trans read.flatten.foldlM takeOut [.valid network.masked] ≠ none
    · cases read.flatten.foldlM takeOut [.valid network.masked] with
      | none => exact iff_of_false (not_not_intro rfl) (not_not_intro rfl)
      | some remaining => exact iff_of_true (some_ne_none _) (some_ne_none _)
    · by_cases haddr : toUint network.masked.addr = none
      · rw [ne_eq, foldlM_takeOut_eq_none_iff haddr]
        exact ⟨fun h _ => h, fun h => h haddr⟩
      · refine iff_of_true (foldlM_takeOut_usable ?_) fun h => absurd h haddr
        exact forall_mem_singleton.mpr haddr
  · refine iff_of_false ?_ fun h => hstops h.1
    obtain ⟨entry, hentry, hstop⟩ : ∃ entry ∈ excludeIPs, Stops entry := by
      push Not at hstops
      exact hstops
    have hread : excludeIPs.mapM parseReserved = none := by
      by_contra hne
      obtain ⟨read, hread⟩ := ne_none_iff_exists'.mp hne
      exact exists_mapM_eq_some_iff.mp ⟨read, hread⟩ entry hentry
        (parseReserved_eq_none_iff.mpr hstop)
    rw [hread]
    exact not_not_intro rfl

/-- Without the odd entries the ranges are the same, exactly if these add nothing. -/
theorem same_ranges_iff (hcidr : parsePrefix cidr = some (.v4 n))
    (hstops : ∀ entry ∈ excludeIPs, ¬Stops entry) :
    allocatableRanges cidr excludeIPs = allocatableRanges cidr (excludeIPs.filter isIPv4Entry) ↔
      AddsNothing n excludeIPs := by
  have hstops' : ∀ entry ∈ excludeIPs.filter isIPv4Entry, ¬Stops entry :=
    fun entry hentry => hstops entry (mem_filter.mp hentry).1
  obtain ⟨read, hread, -⟩ := exists_blocks_of_not_stops hstops
  obtain ⟨kept, hkept, -⟩ := exists_blocks_of_not_stops hstops'
  have hfree (x : BitVec 32) : (n.masked.Contains x ∧ ∀ b ∈ v4Blocks read.flatten, ¬b.Contains x) ↔
        n.Contains x ∧ ¬∃ entry ∈ excludeIPs, Excludes entry x := by
    have hnone := not_congr (exists_mem_read_iff (x := x) hread)
    rw [← hnone, Block.contains_masked]
    push Not
    exact Iff.rfl
  have hall (x : BitVec 32) : (n.masked.Contains x ∧ ∀ b ∈ v4Blocks kept.flatten, ¬b.Contains x) ↔
        n.Contains x ∧ ¬ExcludedByIPv4 excludeIPs x := by
    have hnone := not_congr (exists_mem_read_iff (x := x) hkept)
    rw [ExcludedByIPv4]
    simp only [mem_filter, and_assoc] at hnone
    rw [← hnone, Block.contains_masked]
    push Not
    exact Iff.rfl
  have hmore (x : BitVec 32) (hx : n.Contains x ∧ ¬∃ entry ∈ excludeIPs, Excludes entry x) :
      n.Contains x ∧ ¬ExcludedByIPv4 excludeIPs x := by
    refine ⟨hx.1, fun h => hx.2 ?_⟩
    obtain ⟨entry, hentry, -, hexcludes⟩ := h
    exact ⟨entry, hentry, hexcludes⟩
  have hlists := leftover_eq_iff hfree hall hmore
  rw [allocatableRanges_eq hcidr hread, allocatableRanges_eq hcidr hkept, some.injEq]
  trans leftover n.masked (v4Blocks read.flatten) = leftover n.masked (v4Blocks kept.flatten)
  · have hinjective : Function.Injective fun b : Block 32 => prefixString (.v4 b) :=
      fun p q h => Prefix.v4.inj (prefixString_injective h)
    exact (map_injective_iff.mpr hinjective).eq_iff
  · rw [hlists, AddsNothing]
    have hnext (hbits : n.bits ≠ 32) : n.Contains (n.masked.base + 1) := by
      apply contains_add_one (even_masked_base hbits) _ hbits
      exact Block.contains_masked.mp n.masked.contains_base
    constructor
    · intro h x hx hodd
      by_cases hother : ExcludedByIPv4 excludeIPs x
      · exact .inl hother
      · obtain ⟨-, hleft⟩ | ⟨rfl, halone⟩ := h x ⟨hx, hother⟩
        · obtain ⟨entry, hentry, -, hexcludes⟩ := hodd
          exact absurd ⟨entry, hentry, hexcludes⟩ hleft
        · refine .inr ⟨rfl, or_iff_not_imp_left.mpr fun hbits => ?_⟩
          by_contra hafter
          exact halone.resolve_left hbits ⟨hnext hbits, hafter⟩
    · rintro h x ⟨hx, hother⟩
      by_cases hexcluded : ∃ entry ∈ excludeIPs, Excludes entry x
      · obtain ⟨entry, hentry, hexcludes⟩ := hexcluded
        have hkind : isIPv4Entry entry = false := by
          apply Bool.eq_false_iff.mpr
          exact fun hkind => hother ⟨entry, hentry, hkind, hexcludes⟩
        obtain ⟨hbase, halone⟩ := (h x hx ⟨entry, hentry, hkind, hexcludes⟩).resolve_left hother
        exact .inr ⟨hbase, halone.imp_right fun hafter h => h.2 hafter⟩
      · exact .inl ⟨hx, hexcluded⟩

end Same

/-- When odd entries are skipped: none of them is a range with an end that is no IPv4 address, an
IPv6 subnet does not have to be cut, and in an IPv4 subnet they add nothing. -/
theorem skipsOdd_iff (cidr : String) (excludeIPs : List String) :
    SkipsOdd cidr excludeIPs ↔ ∀ network, parsePrefix cidr = some network →
      (∀ entry ∈ excludeIPs, ¬Stops entry) ∧
      (toUint network.masked.addr = none → ¬CutsInto network.masked (blocksOf excludeIPs)) ∧
      ∀ n, network = .v4 n → AddsNothing n excludeIPs := by
  have hdeny (excludeIPs : List String) (h : allocatableRanges cidr excludeIPs ≠ none) :
      deny cidr excludeIPs ≠ none := by
    obtain ⟨ranges, hranges⟩ := ne_none_iff_exists'.mp h
    rw [deny, hranges]
    exact some_ne_none _
  constructor
  · intro h network hcidr
    obtain ⟨hstops, hcuts⟩ := (allocatableRanges_ne_none_iff hcidr).mp h.ranges
    refine ⟨hstops, hcuts, ?_⟩
    rintro n rfl
    exact (same_ranges_iff hcidr hstops).mp (h.same n hcidr).1
  · intro h
    have hranges : allocatableRanges cidr excludeIPs ≠ none := by
      cases hcidr : parsePrefix cidr with
      | none =>
        rw [allocatableRanges, hcidr]
        exact some_ne_none _
      | some network =>
        obtain ⟨hstops, hcuts, -⟩ := h network hcidr
        exact (allocatableRanges_ne_none_iff hcidr).mpr ⟨hstops, hcuts⟩
    refine ⟨hranges, hdeny _ hranges, fun n hcidr => ?_⟩
    obtain ⟨hstops, -, hadds⟩ := h _ hcidr
    have hsame := (same_ranges_iff hcidr hstops).mpr (hadds n rfl)
    refine ⟨hsame, ?_⟩
    rw [deny, deny, hsame]

/-- A range of IPv6 addresses decides the whole plane. -/
theorem not_skipsOdd : ¬∀ cidr excludeIPs, SkipsOdd cidr excludeIPs := by
  intro h
  apply (h "10.199.0.0/22" ["10.199.0.1..10.199.0.255", "fd00::1..fd00::5"]).ranges
  decide +kernel

end Transit
