import KubevirtUi.Go.NetipText
import KubevirtUi.Library.Halving
import KubevirtUi.Transit.Rules

/-!
# What the allocatable ranges are made of

An entry of the exclude list stands for an interval of addresses, and the blocks that it is read
as make up that interval. What is left of the subnet is its addresses that no entry stands for.
-/

namespace Transit

open Go Go.Netip List
open Option hiding mem_map pure_def filter_map map_map

/-- What an entry excludes: the addresses from one to another, of a network, or one alone. -/
@[irreducible] def Excludes (entry : String) (x : BitVec 32) : Prop :=
  let entry := trimSpace entry
  match cutChars "..".toList entry.toList with
  | some (first, last) =>
    ∃ low high a b, parseAddrZone (trimChars first) = some low ∧
      parseAddrZone (trimChars last) = some high ∧
      ¬Backwards (trimChars first) (trimChars last) low high ∧
        toUint low = some a ∧ toUint high = some b ∧ a ≤ x ∧ x ≤ b
  | none =>
    if '/' ∈ entry.toList then ∃ p : Block 32, parsePrefix entry = some (.v4 p) ∧ p.Contains x
    else parseAddrZone entry.toList = some (.v4 x)

section Summarise

variable {start last : BitVec 32} {n k : Nat}

theorem toNat_one_shiftLeft (hk : k < 32) : (1#32 <<< k).toNat = 2 ^ k := by
  have hpow : 2 ^ k < 2 ^ 32 := Nat.pow_lt_pow_right (by omega) hk
  rw [BitVec.toNat_shiftLeft, Nat.shiftLeft_eq]
  exact (congrArg (· % 2 ^ 32) (Nat.one_mul _)).trans (Nat.mod_eq_of_lt hpow)

theorem toNat_mask (hk : k ≤ 32) : ((1#32 <<< k) - 1#32).toNat = 2 ^ k - 1 := by
  obtain rfl | hlt := Nat.eq_or_lt_of_le hk
  · decide
  · have hpow : 2 ^ k < 2 ^ 32 := Nat.pow_lt_pow_right (by omega) hlt
    have hpos := Nat.two_pow_pos k
    have hone : (1#32).toNat = 1 := rfl
    rw [BitVec.toNat_sub, toNat_one_shiftLeft hlt]
    omega

theorem toNat_add_mask (hk : k ≤ 32) (hdvd : 2 ^ k ∣ start.toNat) :
    (start + ((1#32 <<< k) - 1#32)).toNat = start.toNat + (2 ^ k - 1) := by
  have hpos := Nat.two_pow_pos k
  have hle : start.toNat + 2 ^ k ≤ 2 ^ 32 := by
    obtain ⟨m, hm⟩ := hdvd
    obtain ⟨d, hd⟩ := Nat.pow_dvd_pow 2 hk
    have hlt := start.isLt
    rw [hm, hd] at hlt
    rw [hm, hd, ← Nat.mul_succ]
    exact Nat.mul_le_mul_left _ (Nat.lt_of_mul_lt_mul_left hlt)
  rw [BitVec.toNat_add, toNat_mask hk, Nat.mod_eq_of_lt (by omega)]

/-- A block of this size starts here and does not leave the range. -/
def Fits (start last : BitVec 32) (k : Nat) : Prop :=
  2 ^ k ∣ start.toNat ∧ start.toNat + 2 ^ k ≤ last.toNat + 1

theorem fits_zero (h : start ≤ last) : Fits start last 0 := by
  have hle := BitVec.le_def.mp h
  exact ⟨Nat.one_dvd _, by omega⟩

theorem fits_iff (hk : k ≤ 32) :
    ¬(start &&& ((1#32 <<< k) - 1#32) ≠ 0 ∨ last < start + ((1#32 <<< k) - 1#32)) ↔
      Fits start last k := by
  have hmask := toNat_mask hk
  have hpos := Nat.two_pow_pos k
  have hand : start &&& ((1#32 <<< k) - 1#32) = 0 ↔ 2 ^ k ∣ start.toNat := by
    rw [← BitVec.toNat_inj, BitVec.toNat_and, hmask, Nat.and_two_pow_sub_one_eq_mod,
      Nat.dvd_iff_mod_eq_zero]
    rfl
  rw [not_or, not_not, hand, BitVec.not_lt, BitVec.le_def, Fits]
  refine and_congr_right fun hdvd => ?_
  rw [toNat_add_mask hk hdvd]
  omega

theorem widest_spec (hn : n ≤ 32) (hfits : Fits start last (32 - n)) :
    widest start last n ≤ 32 ∧ Fits start last (32 - widest start last n) ∧
      ¬Fits start last (32 - widest start last n + 1) := by
  induction n with
  | zero =>
    refine ⟨Nat.zero_le _, hfits, fun hmore => ?_⟩
    have hlt := last.isLt
    have hle := hmore.2
    rw [widest] at hle
    omega
  | succ bits ih =>
    rw [widest]
    have hiff : _ ↔ Fits start last (32 - (bits + 1) + 1) := fits_iff (by omega)
    by_cases hstop : Fits start last (32 - (bits + 1) + 1)
    · rw [if_neg (hiff.mpr hstop)]
      have hwidth : 32 - (bits + 1) + 1 = 32 - bits := by omega
      exact ih (by omega) (hwidth ▸ hstop)
    · rw [if_pos (not_not.mp (mt hiff.mp hstop))]
      exact ⟨hn, hfits, hstop⟩

theorem widest_iff_fits {b : Block 32} : Block.Widest last b ↔
    Fits b.base last (32 - b.bits) ∧ ¬Fits b.base last (32 - b.bits + 1) := by
  have htwice : 2 ^ (32 - b.bits + 1) = 2 * b.size := Nat.pow_succ'
  rw [Fits, Fits, htwice]
  constructor
  · intro h
    exact ⟨⟨Block.masked_eq_self_iff.mp h.masked_eq, h.within⟩, h.maximal⟩
  · rintro ⟨⟨hdvd, hwithin⟩, hmaximal⟩
    exact ⟨Block.masked_eq_self_iff.mpr hdvd, hwithin, hmaximal⟩

theorem exists_widest (h : start ≤ last) :
    ∃ b : Block 32, b.base = start ∧ b.bits = widest start last 32 ∧ Block.Widest last b := by
  obtain ⟨hbits, hfits, hmaximal⟩ := widest_spec (Nat.le_refl 32) (fits_zero h)
  exact ⟨⟨start, widest start last 32, hbits⟩, rfl, rfl, widest_iff_fits.mpr ⟨hfits, hmaximal⟩⟩

theorem toNat_last {b : Block 32} (hb : b.masked = b) :
    (b.base + 1#32 <<< (32 - b.bits) - 1#32).toNat = b.base.toNat + b.size - 1 := by
  have hend := Block.base_add_size_le hb
  have hpos := b.size_pos
  have hsize : 2 ^ (32 - b.bits) = b.size := rfl
  rw [BitVec.sub_eq_add_neg, BitVec.add_assoc, ← BitVec.sub_eq_add_neg, BitVec.toNat_add,
    toNat_mask (by omega), hsize, Nat.mod_eq_of_lt (by omega)]
  omega

theorem toNat_next {b : Block 32} (hb : b.base.toNat + b.size < 2 ^ 32) :
    (b.base + 1#32 <<< (32 - b.bits)).toNat = b.base.toNat + b.size := by
  have hsize : 2 ^ (32 - b.bits) < 2 ^ 32 :=
    Nat.lt_of_le_of_lt (Nat.le_add_left _ b.base.toNat) hb
  have hbits : 32 - b.bits < 32 := (Nat.pow_lt_pow_iff_right (by omega)).mp hsize
  rw [BitVec.toNat_add, toNat_one_shiftLeft hbits]
  exact Nat.mod_eq_of_lt hb

/-- The blocks of `summarise` go up from the first address to the last one. -/
theorem summariseFrom_covers {fuel : Nat} (hfuel : last.toNat - start.toNat < fuel) :
    ∃ bs : List (Block 32), summariseFrom last fuel start = bs.map Prefix.v4 ∧
      Block.Covers last start.toNat bs := by
  induction fuel generalizing start with
  | zero => omega
  | succ fuel ih =>
    rw [summariseFrom]
    by_cases hend : last < start
    · rw [if_pos hend]
      exact ⟨[], rfl, .nil (BitVec.lt_def.mp hend)⟩
    · obtain ⟨b, rfl, hbits, hwidest⟩ := exists_widest (BitVec.not_lt.mp hend)
      have hprefix : prefixFrom (.v4 b.base) b.bits = some (.v4 b) :=
        prefixFrom_addr_bits (.v4 b)
      have hpos := b.size_pos
      have hlt := last.isLt
      have hstops : last ≤ b.base + 1#32 <<< (32 - b.bits) - 1#32 ↔
          last.toNat ≤ b.base.toNat + b.size - 1 := by
        rw [BitVec.le_def, toNat_last hwidest.masked_eq]
      dsimp only
      rw [if_neg hend, ← hbits, hprefix]
      by_cases hstop : last.toNat ≤ b.base.toNat + b.size - 1
      · rw [if_pos (hstops.mpr hstop)]
        exact ⟨[b], rfl, .cons rfl hwidest (.nil (by omega))⟩
      · have hnext := toNat_next (b := b) (by omega)
        obtain ⟨bs, heq, hcovers⟩ := @ih (b.base + 1#32 <<< (32 - b.bits)) (by omega)
        rw [hnext] at hcovers
        rw [if_neg (mt hstops.mp hstop), heq]
        exact ⟨b :: bs, rfl, .cons rfl hwidest hcovers⟩

end Summarise

variable {x : BitVec 32}

section Entries

variable {entry : String} {blocks : List Prefix}

theorem summarise_spec {low high : Addr} (h : summarise low high = some blocks) :
    ∃ a b, toUint low = some a ∧ toUint high = some b ∧
      ∃ bs : List (Block 32), blocks = bs.map Prefix.v4 ∧ Block.Covers b a.toNat bs := by
  rw [summarise] at h
  obtain ⟨a, ha, h⟩ := bind_eq_some_iff.mp h
  obtain ⟨b, hb, h⟩ := bind_eq_some_iff.mp h
  obtain rfl := some.inj h
  refine ⟨a, b, ha, hb, summariseFrom_covers ?_⟩
  rw [BitVec.toNat_sub]
  have hlt := a.isLt
  omega

theorem exists_mem_network_iff :
    (∃ b, Prefix.v4 b ∈ ((parsePrefix entry).map Prefix.masked).toList ∧ b.Contains x) ↔
      ∃ p : Block 32, parsePrefix entry = some (.v4 p) ∧ p.Contains x := by
  constructor
  · rintro ⟨b, hb, hx⟩
    obtain ⟨p, hp, hmasked⟩ := map_eq_some_iff.mp (mem_toList.mp hb)
    cases p with
    | v4 p =>
      obtain rfl := Prefix.v4.inj hmasked
      exact ⟨p, hp, Block.contains_masked.mp hx⟩
    | v6 p => cases hmasked
  · rintro ⟨p, hp, hx⟩
    refine ⟨p.masked, mem_toList.mpr ?_, Block.contains_masked.mpr hx⟩
    rw [hp]
    rfl

theorem contains_iff_of_single {b : Block 32} (h : b.bits = 32) : b.Contains x ↔ x = b.base := by
  rw [Block.Contains, Block.Agree, h, Nat.sub_self, BitVec.ushiftRight_zero,
    BitVec.ushiftRight_zero]

theorem exists_mem_address_iff {addr : Addr} :
    (∃ b, Prefix.v4 b ∈ (prefixFrom addr 32).toList ∧ b.Contains x) ↔ addr = .v4 x := by
  cases addr with
  | zero => exact iff_of_false (by simp [prefixFrom]) (by simp)
  | v4 a =>
    have hcontains : Block.Contains ⟨a, 32, Nat.le_refl 32⟩ x ↔ x = a :=
      contains_iff_of_single rfl
    simp [prefixFrom, hcontains, eq_comm]
  | v6 a => exact iff_of_false (by simp [prefixFrom]) (by simp)

theorem exists_mem_parseReserved_iff (h : parseReserved entry = some blocks) :
    (∃ b, Prefix.v4 b ∈ blocks ∧ b.Contains x) ↔ Excludes entry x := by
  rw [parseReserved] at h
  rw [Excludes]
  generalize trimSpace entry = entry at h ⊢
  by_cases hempty : entry = ""
  · subst hempty
    rw [if_pos rfl] at h
    obtain rfl := some.inj h
    exact iff_of_false (by simp) (by simp [cutChars, parseAddrZone, parseAddr])
  · rw [if_neg hempty] at h
    generalize cutChars "..".toList entry.toList = cut at h ⊢
    obtain _ | ⟨first, last⟩ := cut
    · dsimp only at h ⊢
      split at h
      · next hslash =>
        obtain rfl := some.inj h
        rw [if_pos hslash]
        exact exists_mem_network_iff
      · next hslash =>
        rw [if_neg hslash]
        split at h
        · next hnone =>
          obtain rfl := some.inj h
          rw [hnone]
          exact iff_of_false (by simp) (by simp)
        · next addr haddr =>
          obtain rfl := some.inj h
          rw [haddr, some.injEq]
          exact exists_mem_address_iff
    · dsimp only at h ⊢
      split at h
      · next low high hlow hhigh =>
        split at h
        · next hless =>
          obtain rfl := some.inj h
          refine iff_of_false (by simp) ?_
          rintro ⟨low', high', a, b, hlow', hhigh', hless', -⟩
          obtain rfl := mem_unique hlow hlow'
          obtain rfl := mem_unique hhigh hhigh'
          exact hless' hless
        · next hless =>
          obtain ⟨a, b, ha, hb, bs, rfl, hcovers⟩ := summarise_spec h
          simp only [mem_map, Prefix.v4.injEq, exists_eq_right]
          rw [hcovers.exists_mem_contains_iff, ← BitVec.le_def, ← BitVec.le_def]
          constructor
          · rintro ⟨hax, hxb⟩
            exact ⟨low, high, a, b, hlow, hhigh, hless, ha, hb, hax, hxb⟩
          · rintro ⟨low', high', a', b', hlow', hhigh', -, ha', hb', hax, hxb⟩
            obtain rfl := mem_unique hlow hlow'
            obtain rfl := mem_unique hhigh hhigh'
            obtain rfl := mem_unique ha ha'
            obtain rfl := mem_unique hb hb'
            exact ⟨hax, hxb⟩
      · next hnone =>
        obtain rfl := some.inj h
        refine iff_of_false (by simp) ?_
        rintro ⟨low, high, a, b, hlow, hhigh, -⟩
        exact hnone low high hlow hhigh

end Entries

section Left

variable {p b : Block 32} {n : Nat} {ps : List (Block 32)} {blocks : List Prefix}

theorem overlaps_v4_iff : (Prefix.v4 p).overlaps (.v4 b) = true ↔ p.Overlaps b := by
  rw [Prefix.overlaps, decide_eq_true_iff, Block.overlaps_iff_agree]

/-- A block of IPv4 as a piece of the subnet. -/
def piece (p : Block 32) : Piece := .valid (.v4 p)

theorem carve_of_not_overlaps {p : Prefix} {block : Prefix} (h : p.overlaps block = false) :
    carve block n (.valid p) = some [.valid p] := by
  cases n with
  | zero => simp [carve, h]
  | succ n => simp [carve, h]

theorem carve_v4 (hn : p.bits + n ≤ 32) :
    carve (.v4 b) n (piece p) = some ((Block.carve b n p).map piece) := by
  induction n generalizing p with
  | zero =>
    rw [piece, carve, Block.carve]
    by_cases hoverlap : p.Overlaps b
    · rw [if_pos hoverlap, if_pos (overlaps_v4_iff.mpr hoverlap), map_nil]
    · rw [if_neg hoverlap, if_neg (mt overlaps_v4_iff.mp hoverlap), map_singleton]
      rfl
  | succ n ih =>
    have h : p.bits < 32 := by omega
    have hhalf (q : Block 32) (hq : q.bits = p.bits + 1) :
        carve (.v4 b) n (piece q) = some ((Block.carve b n q).map piece) := ih (by omega)
    have hleft : Piece.ofBits (Prefix.v4 p).addr (p.bits + 1) = piece (p.left h) := by
      have hprefix : prefixFrom (Prefix.v4 p).addr (p.bits + 1) = some (.v4 (p.left h)) :=
        prefixFrom_addr_bits (.v4 (p.left h))
      rw [Piece.ofBits, hprefix]
      rfl
    have hright : Piece.ofBits (.v4 (p.base + hostSize (p.bits + 1))) (p.bits + 1) =
        piece (p.right h) := by
      have hprefix : prefixFrom (.v4 (p.base + 1#32 <<< (32 - (p.bits + 1)))) (p.bits + 1) =
          some (.v4 (p.right h)) := prefixFrom_addr_bits (.v4 (p.right h))
      have hle : p.bits + 1 ≤ 32 := h
      rw [Piece.ofBits, hostSize, if_pos hle, hprefix]
      rfl
    have hbase : toUint (Prefix.v4 p).addr = some p.base := rfl
    have hbits : (Prefix.v4 p).bits = p.bits := rfl
    have hpiece (q : Block 32) : (piece q).overlaps (.v4 b) = (Prefix.v4 q).overlaps (.v4 b) :=
      rfl
    rw [piece, carve, Block.carve]
    by_cases hoverlap : p.Overlaps b
    · rw [if_neg (not_not_intro (overlaps_v4_iff.mpr hoverlap)),
        if_neg (not_not_intro hoverlap), dif_pos h, hbase, hbits, hleft, map_append]
      simp only [bind_eq_bind, bind_some, hright, hhalf (p.left h) rfl,
        hhalf (p.right h) rfl, hpiece, overlaps_v4_iff, Option.pure_def]
      split
      · split
        · rfl
        · next hright => rw [Block.carve_of_not_overlaps hright, map_singleton]
      · next hleft =>
        rw [Block.carve_of_not_overlaps hleft]
        split
        · rfl
        · next hright => rw [Block.carve_of_not_overlaps hright]; rfl
    · rw [if_pos (mt overlaps_v4_iff.mp hoverlap), if_pos hoverlap, map_singleton]
      rfl

/-- Only blocks of IPv4 take something away from an IPv4 subnet. -/
def v4Blocks (blocks : List Prefix) : List (Block 32) :=
  blocks.filterMap fun
    | .v4 b => some b
    | .v6 _ => none

theorem mem_v4Blocks : b ∈ v4Blocks blocks ↔ Prefix.v4 b ∈ blocks := by
  rw [v4Blocks, mem_filterMap]
  constructor
  · rintro ⟨block, hmem, hblock⟩
    cases block with
    | v4 c => exact some.inj hblock ▸ hmem
    | v6 c => contradiction
  · exact fun hmem => ⟨.v4 b, hmem, rfl⟩

/-- What one block leaves of a prefix. -/
def leave (block : Prefix) (p : Block 32) : List (Block 32) :=
  match block with
  | .v4 b => Block.carve b (b.bits - p.bits) p
  | .v6 _ => [p]

theorem subtract_v4 (block : Prefix) :
    subtract (piece p) block = some ((leave block p).map piece) := by
  cases block with
  | v4 b =>
    have hb := b.bits_le
    have hp := p.bits_le
    have hbits : p.bits + (b.bits - p.bits) ≤ 32 := by omega
    have hlength : ((Prefix.v4 b).bits - (piece p).bits : Int).toNat = b.bits - p.bits :=
      Int.toNat_sub b.bits p.bits
    rw [subtract, hlength]
    exact carve_v4 hbits
  | v6 b => exact carve_of_not_overlaps rfl

/-- A loop that replaces each item by several stays within what is embedded. -/
theorem foldlM_flatten {α β γ : Type} {embed : α → β} {f : γ → β → Option (List β)}
    {g : γ → α → List α} (h : ∀ c a, f c (embed a) = some ((g c a).map embed)) (cs : List γ)
    (as : List α) :
    cs.foldlM (fun remaining c => (remaining.mapM (f c)).map List.flatten) (as.map embed) =
      some ((cs.foldl (fun as c => as.flatMap (g c)) as).map embed) := by
  induction cs generalizing as with
  | nil => rfl
  | cons c cs ih =>
    have hstep : f c ∘ embed = fun a => pure ((g c a).map embed) := funext (h c)
    have hall : (as.map embed).mapM (f c) = some (as.map fun a => (g c a).map embed) := by
      rw [mapM_map, hstep]
      exact mapM_pure
    have hflat : (as.map fun a => (g c a).map embed).flatten =
        (as.flatMap (g c)).map embed := by
      rw [map_flatMap, flatMap_def]
    rw [foldlM_cons, hall, foldl_cons, ← ih, ← hflat]
    rfl

theorem foldl_leave (ps : List (Block 32)) :
    blocks.foldl (fun ps block => ps.flatMap (leave block)) ps =
      Block.without ps (v4Blocks blocks) := by
  induction blocks generalizing ps with
  | nil => rfl
  | cons block blocks ih =>
    rw [foldl_cons, ih]
    cases block with
    | v4 b => rfl
    | v6 b =>
      have hsame : ps.flatMap (leave (.v6 b)) = ps := flatMap_singleton' ps
      rw [hsame]
      rfl

theorem foldlM_subtract : blocks.foldlM
    (fun remaining block => (remaining.mapM (subtract · block)).map List.flatten)
      (ps.map piece) = some ((Block.without ps (v4Blocks blocks)).map piece) := by
  rw [← foldl_leave]
  exact foldlM_flatten (fun block p => subtract_v4 block) blocks ps

end Left

/-- One block before another, as the ranges are sorted. -/
def before (p q : Block 32) : Bool := comesFirst (piece p) (piece q)

/-- The blocks that are printed: sorted, and without the subnet's own address alone. -/
def leftover (network : Block 32) (bs : List (Block 32)) : List (Block 32) :=
  ((Block.without [network] bs).insertionSort fun p q => before p q).filter fun p =>
    ¬(p.bits = 32 ∧ p.base = network.base)

section AllocatableRanges

variable {cidr : String} {n p : Block 32} {excludeIPs ranges : List String}
  {read : List (List Prefix)}

theorem mem_leftover {bs : List (Block 32)} : p ∈ leftover n bs ↔
    p ∈ Block.without [n] bs ∧ ¬(p.bits = 32 ∧ p.base = n.base) := by
  rw [leftover, mem_filter, (perm_insertionSort _ _).mem_iff, decide_eq_true_iff]

theorem allocatableRanges_eq (hcidr : parsePrefix cidr = some (.v4 n))
    (hread : excludeIPs.mapM parseReserved = some read) : allocatableRanges cidr excludeIPs =
      some ((leftover n.masked (v4Blocks read.flatten)).map fun p => prefixString (.v4 p)) := by
  have hfold : read.flatten.foldlM
      (fun remaining block => (remaining.mapM (subtract · block)).map List.flatten)
      [.valid (Prefix.v4 n).masked] =
        some ((Block.without [n.masked] (v4Blocks read.flatten)).map piece) :=
    @foldlM_subtract [n.masked] _
  have hsort := map_insertionSort (fun p q => before p q = true)
    (fun p q => comesFirst p q = true) piece
    (Block.without [n.masked] (v4Blocks read.flatten)) fun _ _ _ _ => Iff.rfl
  have hfilter : (fun p : Piece => decide ¬(p.bits = 32 ∧ p.addr = (Prefix.v4 n).masked.addr)) ∘
      piece = fun p => decide ¬(p.bits = 32 ∧ p.base = n.masked.base) := by
    funext p
    have hbits : (piece p).bits = 32 ↔ p.bits = 32 := Int.natCast_inj (n := 32)
    have haddr : (piece p).addr = (Prefix.v4 n).masked.addr ↔ p.base = n.masked.base :=
      Addr.v4.injEq _ _ ▸ Iff.rfl
    simp only [Function.comp_apply, hbits, haddr]
  rw [allocatableRanges, hcidr]
  simp only [hread, hfold, bind_eq_bind, bind_some, Option.pure_def]
  rw [← hsort, filter_map, hfilter, map_map, leftover]
  rfl

theorem exists_mem_read_iff (hread : excludeIPs.mapM parseReserved = some read) :
    (∃ b ∈ v4Blocks read.flatten, b.Contains x) ↔ ∃ entry ∈ excludeIPs, Excludes entry x := by
  simp only [mem_v4Blocks]
  induction excludeIPs generalizing read with
  | nil =>
    obtain rfl := some.inj hread
    simp
  | cons entry excludeIPs ih =>
    rw [mapM_cons] at hread
    obtain ⟨blocks, hblocks, hread⟩ := bind_eq_some_iff.mp hread
    obtain ⟨rest, hrest, hread⟩ := bind_eq_some_iff.mp hread
    obtain rfl := some.inj hread
    rw [flatten_cons]
    simp only [mem_append, or_and_right, exists_or, mem_cons, exists_eq_left]
    rw [exists_mem_parseReserved_iff hblocks, ih hrest]

theorem exists_read (hcidr : parsePrefix cidr = some (.v4 n))
    (hranges : allocatableRanges cidr excludeIPs = some ranges) :
    ∃ read, excludeIPs.mapM parseReserved = some read := by
  rw [allocatableRanges, hcidr] at hranges
  obtain ⟨read, hread, -⟩ := bind_eq_some_iff.mp hranges
  exact ⟨read, hread⟩

/-- The ranges are blocks of the subnet without what is excluded, and they miss nothing of it
but, at most, the subnet's own address. -/
theorem allocatableRanges_spec (hcidr : parsePrefix cidr = some (.v4 n))
    (hranges : allocatableRanges cidr excludeIPs = some ranges) :
    ∃ bs : List (Block 32), ranges = bs.map (fun b => prefixString (.v4 b)) ∧
      (∀ b ∈ bs, b.masked = b) ∧
      (∀ x, (∃ b ∈ bs, b.Contains x) →
        n.Contains x ∧ ∀ entry ∈ excludeIPs, ¬Excludes entry x) ∧
      ∀ x, n.Contains x → (∀ entry ∈ excludeIPs, ¬Excludes entry x) → x ≠ n.masked.base →
        ∃ b ∈ bs, b.Contains x := by
  obtain ⟨read, hread⟩ := exists_read hcidr hranges
  rw [allocatableRanges_eq hcidr hread] at hranges
  have hsubnet : ∀ p ∈ [n.masked], p.masked = p := by simp
  have hwithout (x : BitVec 32) :
      (∃ b ∈ Block.without [n.masked] (v4Blocks read.flatten), b.Contains x) ↔
        n.Contains x ∧ ∀ entry ∈ excludeIPs, ¬Excludes entry x := by
    have hexcluded := exists_mem_read_iff (x := x) hread
    rw [Block.exists_mem_without_iff hsubnet]
    simp only [mem_singleton, exists_eq_left, Block.contains_masked]
    refine and_congr_right fun _ => ?_
    have hnone := not_congr hexcluded
    simpa only [not_exists, not_and] using hnone
  refine ⟨_, (some.inj hranges).symm, fun b hb => ?_, fun x hx => ?_, fun x hn hex hne => ?_⟩
  · exact Block.masked_of_mem_without hsubnet b (mem_leftover.mp hb).1
  · obtain ⟨b, hb, hx⟩ := hx
    exact (hwithout x).mp ⟨b, (mem_leftover.mp hb).1, hx⟩
  · obtain ⟨b, hb, hx⟩ := (hwithout x).mpr ⟨hn, hex⟩
    refine ⟨b, mem_leftover.mpr ⟨hb, fun hown => hne ?_⟩, hx⟩
    exact ((contains_iff_of_single hown.1).mp hx).trans hown.2

/-- The match of the drop. -/
def sourceMatch (ranges : List String) : String :=
  match ranges with
  | [range] => "ip4.src == " ++ range
  | _ => "ip4.src == \x7b" ++ ", ".intercalate ranges ++ "\x7d"

theorem deny_eq (hcidr : parsePrefix cidr = some (.v4 n))
    (hranges : allocatableRanges cidr excludeIPs = some ranges) :
    deny cidr excludeIPs = some ⟨"drop", "from-lport",
      sourceMatch (if ranges ≠ [] then ranges else [prefixString (.v4 n.masked)]),
      denyPriority⟩ := by
  rw [deny, hranges, hcidr]
  rfl

end AllocatableRanges

end Transit
