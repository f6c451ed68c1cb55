import KubevirtUi.Library.Halving
import KubevirtUi.Python.Ipaddress
import Mathlib.Data.List.Sort
import Mathlib.Data.Nat.Size

/-!
# Networks without parts of them

A range of addresses is summarised by the networks that make it up, and a network is taken out of
a larger one by halving the larger one until it is reached. Networks are compared by their
addresses and then by their lengths.
-/

namespace Python

open BitVec

variable {w : Nat} {p q : Block w} {ps qs : List (Block w)}

namespace Ipaddress

/-- `IPv4Address` of a text -/
def ipv4Address (s : List Char) : Option (BitVec 32) :=
  (ipIntFromString s).map (BitVec.ofNat 32)

/-- The loop of `summarize_address_range` -/
def summarizeFrom (last : Nat) : Nat → Nat → List (Block 32)
  | 0, _ => []
  | fuel + 1, first =>
    if last < first then []
    else
      let nbits := min (countRighthandZeroBits first) (Nat.size (last - first + 1) - 1)
      (network first (32 - nbits)).toList ++
        if first + 2 ^ nbits - 1 = 2 ^ 32 - 1 then []
        else summarizeFrom last fuel (first + 2 ^ nbits)

/-- `summarize_address_range`, or a `ValueError` -/
def summarizeAddressRange (first last : BitVec 32) : Option (List (Block 32)) :=
  if last < first then none
  else some (summarizeFrom last.toNat (last.toNat - first.toNat + 1) first.toNat)

/-- `subnet_of` two networks of one family -/
def blockSubnetOf {w : Nat} (p q : Block w) : Bool :=
  decide (q.base ≤ p.base) && decide (broadcast p ≤ broadcast q)

/-- `address_exclude` of a network of the same family that lies in this one -/
def blockAddressExclude {w : Nat} (p other : Block w) : List (Block w) :=
  Block.exclude other (other.bits - p.bits) p

/-- `__lt__` of two networks of one family -/
def blockLt {w : Nat} (p q : Block w) : Bool :=
  if p.base ≠ q.base then p.base < q.base else p.bits < q.bits

namespace Network

/-- Networks of different families are a `TypeError`. -/
def subnetOf : Network → Network → Option Bool
  | .v4 p, .v4 q => some (blockSubnetOf p q)
  | .v6 p, .v6 q => some (blockSubnetOf p q)
  | _, _ => none

def addressExclude : Network → Network → Option (List Network)
  | .v4 p, .v4 other => some ((blockAddressExclude p other).map .v4)
  | .v6 p, .v6 other => some ((blockAddressExclude p other).map .v6)
  | _, _ => none

def lt : Network → Network → Bool
  | .v4 p, .v4 q => blockLt p q
  | .v6 p, .v6 q => blockLt p q
  | _, _ => false

def prefixlen : Network → Nat
  | .v4 p => p.bits
  | .v6 p => p.bits

/-- The two networks start at the same address. -/
def sameAddress : Network → Network → Bool
  | .v4 p, .v4 q => p.base = q.base
  | .v6 p, .v6 q => p.base = q.base
  | _, _ => false

/-- `str`; `format6` writes IPv6 networks. -/
def str (format6 : Block 128 → String) : Network → String
  | .v4 p => networkStr p
  | .v6 p => format6 p

end Network

section Summarize

variable {n k first fuel : Nat} {last : BitVec 32}

theorem two_pow_dvd_iff : 2 ^ k ∣ n ↔ ∀ i < k, n.testBit i = false := by
  rw [Nat.dvd_iff_mod_eq_zero]
  constructor
  · intro h i hi
    have hbit := congrArg (Nat.testBit · i) h
    simpa [Nat.testBit_mod_two_pow, hi] using hbit
  · intro h
    apply Nat.eq_of_testBit_eq
    intro i
    rw [Nat.testBit_mod_two_pow, Nat.zero_testBit]
    by_cases hi : i < k
    · simp [h i hi]
    · simp [hi]

theorem le_countRighthandZeroBits_iff (hk : k ≤ 32) : k ≤ countRighthandZeroBits n ↔ 2 ^ k ∣ n := by
  rw [two_pow_dvd_iff, countRighthandZeroBits]
  cases hfind : (List.range 32).find? n.testBit with
  | none =>
    rw [Option.getD_none]
    refine iff_of_true hk fun i hi => ?_
    have hnone := List.find?_eq_none.mp hfind i (List.mem_range.mpr (by omega))
    exact Bool.eq_false_iff.mpr hnone
  | some i =>
    obtain ⟨hbit, hi, hbelow⟩ := List.find?_range_eq_some.mp hfind
    rw [Option.getD_some]
    constructor
    · intro hle j hj
      simpa using hbelow j (by omega)
    · intro hzero
      refine Nat.le_of_not_lt fun hlt => ?_
      rw [hzero i hlt] at hbit
      contradiction

theorem le_size_sub_one_iff (hn : 0 < n) : k ≤ Nat.size n - 1 ↔ 2 ^ k ≤ n := by
  have hpos := Nat.size_pos.mpr hn
  rw [← Nat.lt_size]
  omega

theorem exists_widest_network (hle : first ≤ last.toNat) :
    ∃ b : Block 32, network first (32 - min (countRighthandZeroBits first)
        (Nat.size (last.toNat - first + 1) - 1)) = some b ∧ b.base.toNat = first ∧
      b.size = 2 ^ min (countRighthandZeroBits first) (Nat.size (last.toNat - first + 1) - 1) ∧
        Block.Widest last b := by
  have hlast := last.isLt
  have hnext (k : Nat) (hk : k ≤ 32) :
      k ≤ min (countRighthandZeroBits first) (Nat.size (last.toNat - first + 1) - 1) ↔
        2 ^ k ∣ first ∧ 2 ^ k ≤ last.toNat - first + 1 := by
    rw [Nat.le_min, le_countRighthandZeroBits_iff hk, le_size_sub_one_iff (Nat.succ_pos _)]
  have hfit : 2 ^ min (countRighthandZeroBits first) (Nat.size (last.toNat - first + 1) - 1) ≤
      last.toNat - first + 1 :=
    (le_size_sub_one_iff (Nat.succ_pos _)).mp (Nat.min_le_right _ _)
  generalize min (countRighthandZeroBits first) (Nat.size (last.toNat - first + 1) - 1) = nbits
    at hnext hfit ⊢
  have hnbits : nbits ≤ 32 := by
    have hpow : 2 ^ nbits ≤ 2 ^ 32 := by omega
    exact (Nat.pow_le_pow_iff_right (by omega)).mp hpow
  have hdvd := ((hnext nbits hnbits).mp (Nat.le_refl nbits)).1
  let b : Block 32 := ⟨BitVec.ofNat 32 first, 32 - nbits, Nat.sub_le 32 nbits⟩
  have hbase : b.base.toNat = first := by
    rw [toNat_ofNat]
    exact Nat.mod_eq_of_lt (by omega)
  have hsize : b.size = 2 ^ nbits := congrArg (2 ^ ·) (Nat.sub_sub_self hnbits)
  have hmasked : b.masked = b := by
    rwa [Block.masked_eq_self_iff, hbase, hsize]
  have hnetwork : network first (32 - nbits) = some b := by
    rw [network, dif_pos (Nat.sub_le 32 nbits)]
    exact congrArg some hmasked
  refine ⟨b, hnetwork, hbase, hsize, hmasked, by omega, ?_⟩
  rw [hbase, hsize, ← Nat.pow_succ']
  rintro ⟨hmore, hend⟩
  obtain hlt | rfl := Nat.lt_or_eq_of_le hnbits
  · have hgrow := (hnext (nbits + 1) hlt).mpr ⟨hmore, by omega⟩
    omega
  · omega

theorem summarizeFrom_covers (hfuel : last.toNat < first + fuel) :
    Block.Covers last first (summarizeFrom last.toNat fuel first) := by
  induction fuel generalizing first with
  | zero => exact .nil (by omega)
  | succ fuel ih =>
    rw [summarizeFrom]
    by_cases hend : last.toNat < first
    · rw [if_pos hend]
      exact .nil hend
    · obtain ⟨b, hnetwork, hbase, hsize, hwidest⟩ :=
        exists_widest_network (Nat.le_of_not_lt hend)
      have hpos := b.size_pos
      have hwithin := hwidest.within
      have hlast := last.isLt
      dsimp only
      rw [if_neg hend, hnetwork, ← hsize]
      split
      · exact .cons hbase hwidest (.nil (by omega))
      · exact .cons hbase hwidest (ih (by omega))

end Summarize

section Subtract

variable {b : Block w} {bs : List (Block w)}

theorem toNat_broadcast (hp : p.masked = p) :
    (broadcast p).toNat = p.base.toNat + (p.size - 1) := by
  obtain ⟨m, hm⟩ := Block.masked_eq_self_iff.mp hp
  have hpos := p.size_pos
  have hones : (BitVec.allOnes w >>> p.bits).toNat = p.size - 1 := by
    have hw : 2 ^ w = (p.size - 1) * 2 ^ p.bits + 2 ^ p.bits := by
      rw [← Nat.succ_mul, Nat.succ_eq_add_one, Nat.sub_add_cancel hpos, Block.size,
        ← Nat.pow_add, Nat.sub_add_cancel p.bits_le]
    have hnarrow := Nat.two_pow_pos p.bits
    rw [toNat_ushiftRight, toNat_allOnes, Nat.shiftRight_eq_div_pow]
    exact Nat.div_eq_of_lt_le (by omega) (by rw [Nat.succ_mul]; omega)
  have hbase : p.base.toNat = m <<< (w - p.bits) := by
    rw [Nat.shiftLeft_eq, hm, Nat.mul_comm]
    rfl
  rw [broadcast, toNat_or, hones, hbase]
  exact (Nat.shiftLeft_add_eq_or_of_lt (Nat.sub_lt hpos Nat.one_pos) m).symm

/-- A network lies in another one if they overlap and it is no larger. -/
theorem blockSubnetOf_iff (hp : p.masked = p) (hq : q.masked = q) :
    blockSubnetOf p q = true ↔ p.Overlaps q ∧ q.bits ≤ p.bits := by
  have hpsize := p.size_pos
  have hqsize := q.size_pos
  rw [blockSubnetOf, Bool.and_eq_true, decide_eq_true_iff, decide_eq_true_iff, le_def,
    le_def, toNat_broadcast hp, toNat_broadcast hq]
  constructor
  · rintro ⟨hbase, hlast⟩
    have hcontains : q.Contains p.base := (Block.contains_iff_le_lt hq).mpr (by omega)
    refine ⟨⟨p.base, p.contains_base, hcontains⟩, ?_⟩
    have hsize : 2 ^ (w - p.bits) ≤ 2 ^ (w - q.bits) := by
      have hle : p.size ≤ q.size := by omega
      exact hle
    have hbits := (Nat.pow_le_pow_iff_right (by omega)).mp hsize
    have hqle := q.bits_le
    omega
  · rintro ⟨hoverlap, hbits⟩
    have hfirst := (Block.contains_iff_le_lt hq).mp (hoverlap.symm.contains hbits p.contains_base)
    have hlast := (Block.contains_iff_le_lt hq).mp
      (hoverlap.symm.contains hbits (contains_broadcast p))
    rw [toNat_broadcast hp] at hlast
    omega

theorem blockSubnetOf_iff_forall (hp : p.masked = p) (hq : q.masked = q) :
    blockSubnetOf p q = true ↔ ∀ x, p.Contains x → q.Contains x := by
  constructor
  · intro h x hx
    obtain ⟨hoverlap, hbits⟩ := (blockSubnetOf_iff hp hq).mp h
    exact hoverlap.symm.contains hbits hx
  · intro h
    have hfirst := (Block.contains_iff_le_lt hq).mp (h _ p.contains_base)
    have hlast := (Block.contains_iff_le_lt hq).mp (h _ (contains_broadcast p))
    rw [blockSubnetOf, Bool.and_eq_true, decide_eq_true_iff, decide_eq_true_iff, le_def,
      le_def, toNat_broadcast hq]
    have hqsize := q.size_pos
    omega

/-- What one network leaves of another: a part of it goes, and one around it takes all. -/
def remains (b p : Block w) : List (Block w) :=
  if blockSubnetOf b p then blockAddressExclude p b
  else if ¬blocksOverlap p b then [p] else []

theorem carve_perm_remains (hp : p.masked = p) (hb : b.masked = b) :
    (Block.carve b (b.bits - p.bits) p).Perm (remains b p) := by
  rw [remains]
  by_cases hoverlap : p.Overlaps b
  · by_cases hbits : p.bits ≤ b.bits
    · rw [if_pos ((blockSubnetOf_iff hb hp).mpr ⟨hoverlap.symm, hbits⟩)]
      exact Block.carve_perm_exclude hp rfl hoverlap
    · rw [if_neg (mt (blockSubnetOf_iff hb hp).mp fun h => hbits h.2),
        if_neg (not_not_intro ((blocksOverlap_iff p b).mpr hoverlap)),
        Nat.sub_eq_zero_of_le (by omega), Block.carve, if_pos hoverlap]
  · rw [if_neg (mt (blockSubnetOf_iff hb hp).mp fun h => hoverlap h.1.symm),
      if_pos (mt (blocksOverlap_iff p b).mp hoverlap), Block.carve_of_not_overlaps hoverlap]

/-- Networks that are taken out one after the other leave the same parts. -/
theorem without_perm_foldl (hperm : ps.Perm qs) (hps : ∀ p ∈ ps, p.masked = p)
    (hbs : ∀ b ∈ bs, b.masked = b) :
    (Block.without ps bs).Perm (bs.foldl (fun qs b => qs.flatMap (remains b)) qs) := by
  induction bs generalizing ps qs with
  | nil => exact hperm
  | cons b bs ih =>
    rw [List.forall_mem_cons] at hbs
    refine ih ?_ (@Block.masked_of_mem_without w ps [b] hps) hbs.2
    exact hperm.flatMap fun p hp => carve_perm_remains (hps p hp) hbs.1

end Subtract

section Order

/-- One network is not after another. -/
def NotAfter (p q : Block w) : Prop := blockLt q p = false

instance (p q : Block w) : Decidable (NotAfter p q) := inferInstanceAs (Decidable (_ = _))

theorem notAfter_iff : NotAfter p q ↔
    p.base.toNat < q.base.toNat ∨ p.base.toNat = q.base.toNat ∧ p.bits ≤ q.bits := by
  rw [NotAfter, blockLt]
  by_cases hbase : q.base = p.base
  · rw [if_neg (not_not_intro hbase), hbase, decide_eq_false_iff_not]
    omega
  · have hne : q.base.toNat ≠ p.base.toNat := mt eq_of_toNat_eq hbase
    rw [if_pos hbase, decide_eq_false_iff_not, lt_def]
    omega

instance : Std.Total (NotAfter (w := w)) where
  total p q := by
    rw [notAfter_iff, notAfter_iff]
    omega

instance : IsTrans (Block w) NotAfter where
  trans p q r := by
    rw [notAfter_iff, notAfter_iff, notAfter_iff]
    omega

instance : Std.Antisymm (NotAfter (w := w)) where
  antisymm p q hpq hqp := by
    rw [notAfter_iff] at hpq hqp
    have hbase : p.base = q.base := eq_of_toNat_eq (by omega)
    have hbits : p.bits = q.bits := by omega
    cases p
    cases q
    simp only at hbase hbits
    simp only [hbase, hbits]

theorem insertionSort_eq_of_perm (h : ps.Perm qs) :
    ps.insertionSort NotAfter = qs.insertionSort NotAfter := by
  have hsorted : (ps.insertionSort NotAfter).Perm (qs.insertionSort NotAfter) :=
    ((List.perm_insertionSort _ ps).trans h).trans (List.perm_insertionSort _ qs).symm
  exact hsorted.eq_of_pairwise' (List.pairwise_insertionSort _ ps)
    (List.pairwise_insertionSort _ qs)

end Order

end Ipaddress

end Python
