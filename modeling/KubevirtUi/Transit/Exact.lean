import KubevirtUi.Library.Largest
import KubevirtUi.Transit.Mirror

/-!
# The allocatable ranges are the exact set

What is left of the subnet is the largest blocks of its addresses that no entry excludes. They
are determined by these addresses, so neither the order of the entries nor a repeated one makes a
difference, and sorted they are one list.
-/

namespace Transit

open Go Go.Netip Python.Ipaddress List

/-- The addresses that an entry stands for. -/
def Entry.Excludes : Entry → BitVec 32 → Prop
  | .address a, x => x = a
  | .network p, x => p.Contains x
  | .range first last, x => first ≤ x ∧ x ≤ last

/-- An address of the subnet that no entry excludes. -/
def Free (n : Block 32) (entries : List Entry) (x : BitVec 32) : Prop :=
  n.Contains x ∧ ∀ entry ∈ entries, ¬entry.Excludes x

/-- What the ranges of a subnet are. The address of the subnet may be missing from them if it is
free only by itself. -/
structure Exact (n : Block 32) (free : BitVec 32 → Prop) (bs : List (Block 32)) : Prop where
  masked_eq : ∀ b ∈ bs, b.masked = b
  disjoint : bs.Pairwise fun p q => ¬p.Overlaps q
  sorted : bs.Pairwise fun p q => p.base < q.base
  sound : ∀ b ∈ bs, b.Within free
  complete : ∀ x, free x → (∃ b ∈ bs, b.Contains x) ∨
    x = n.masked.base ∧ ∀ c : Block 32, c.Contains x → c.Within free → c.bits = 32

section Read

variable {n : Block 32} {entry : Entry} {entries : List Entry} {bs : List (Block 32)}
  {x : BitVec 32}

theorem Entry.Blocks.exists_mem_contains_iff (h : entry.Blocks bs) :
    (∃ b ∈ bs, b.Contains x) ↔ entry.Excludes x := by
  cases entry with
  | address a =>
    have hsingle : Block.Contains ⟨a, 32, Block.le_bits_32⟩ x ↔ x = a :=
      contains_iff_of_single rfl
    rw [h]
    simp only [mem_singleton, exists_eq_left]
    exact hsingle
  | network p =>
    rw [h]
    simp only [mem_singleton, exists_eq_left]
    exact Block.contains_masked
  | range first last =>
    rw [Block.Covers.exists_mem_contains_iff h, Entry.Excludes, BitVec.le_def, BitVec.le_def]

theorem excludes_text : Transit.Excludes entry.text x ↔ entry.Excludes x := by
  obtain ⟨bs, hread, hblocks⟩ := entry.exists_parseReserved_text
  rw [← exists_mem_parseReserved_iff hread, ← hblocks.exists_mem_contains_iff]
  simp only [mem_map, Prefix.v4.injEq, exists_eq_right]

theorem exists_excluded (entries : List Entry) :
    ∃ read : List (List Prefix), (entries.map Entry.text).mapM parseReserved = some read ∧
      ∀ x, (∃ b ∈ v4Blocks read.flatten, b.Contains x) ↔ ∃ entry ∈ entries, entry.Excludes x := by
  obtain ⟨read, -, hread, -⟩ := @Backend.exists_blocks (fun _ => none) (fun _ => none) entries
  refine ⟨read, hread, fun x => ?_⟩
  rw [exists_mem_read_iff hread]
  simp only [mem_map, exists_exists_and_eq_and, excludes_text]

theorem free_iff (hbs : ∀ x, (∃ b ∈ bs, b.Contains x) ↔ ∃ entry ∈ entries, entry.Excludes x)
    (x : BitVec 32) : (n.masked.Contains x ∧ ∀ b ∈ bs, ¬b.Contains x) ↔ Free n entries x := by
  have hnone := not_congr (hbs x)
  simp only [not_exists, not_and] at hnone
  rw [Block.contains_masked, hnone, Free]

end Read

section Sorted

variable {n : Block 32} {ps bs cs : List (Block 32)}

theorem insertionSort_before :
    ps.insertionSort (fun p q => before p q = true) = ps.insertionSort NotAfter := by
  have hsort := map_insertionSort (fun p q => before p q = true) NotAfter id ps
    fun _ _ _ _ => Backend.before_iff_notAfter
  rwa [map_id, map_id] at hsort

theorem leftover_congr (hn : n.masked = n)
    (h : ∀ x, (∃ b ∈ bs, b.Contains x) ↔ ∃ c ∈ cs, c.Contains x) :
    leftover n bs = leftover n cs := by
  rw [leftover, leftover, insertionSort_before, insertionSort_before,
    insertionSort_eq_of_perm (Block.without_perm hn h)]

theorem pairwise_leftover (hn : n.masked = n) :
    (leftover n bs).Pairwise fun p q => ¬p.Overlaps q := by
  have hmasked : ∀ p ∈ [n], p.masked = p := by
    rwa [forall_mem_singleton]
  have hpairwise : (Block.without [n] bs).Pairwise fun p q => ¬p.Overlaps q :=
    Block.pairwise_without hmasked (pairwise_singleton _ _)
  rw [leftover]
  apply List.Pairwise.filter
  apply (perm_insertionSort _ _).symm.pairwise hpairwise
  exact fun hmiss hoverlap => hmiss hoverlap.symm

theorem sorted_leftover (hn : n.masked = n) :
    (leftover n bs).Pairwise fun p q => p.base < q.base := by
  have hnotAfter : (leftover n bs).Pairwise NotAfter := by
    rw [leftover, insertionSort_before]
    exact (pairwise_insertionSort NotAfter _).filter _
  apply hnotAfter.imp₂ _ (pairwise_leftover hn)
  intro p q hle hmiss
  rw [notAfter_iff] at hle
  rw [BitVec.lt_def]
  have hne : p.base.toNat ≠ q.base.toNat := by
    intro heq
    have hbase : p.base = q.base := BitVec.eq_of_toNat_eq heq
    exact hmiss ⟨p.base, p.contains_base, hbase ▸ q.contains_base⟩
  omega

theorem exact_leftover {free : BitVec 32 → Prop}
    (hfree : ∀ x, (n.masked.Contains x ∧ ∀ b ∈ bs, ¬b.Contains x) ↔ free x) :
    Exact n free (leftover n.masked bs) := by
  have hn := n.masked_masked
  have hmem (q : Block 32) : q ∈ Block.without [n.masked] bs ↔ Block.Largest free q := by
    rw [Block.mem_without_iff hn]
    exact Block.Largest.congr hfree
  refine ⟨?_, pairwise_leftover hn, sorted_leftover hn, ?_, ?_⟩
  · intro b hb
    exact ((hmem b).mp (mem_leftover.mp hb).1).masked_eq
  · intro b hb
    exact ((hmem b).mp (mem_leftover.mp hb).1).within
  · intro x hx
    have hmasked : ∀ p ∈ [n.masked], p.masked = p := by
      rwa [forall_mem_singleton]
    have hleft := (hfree x).mpr hx
    obtain ⟨b, hb, hbx⟩ := (Block.exists_mem_without_iff hmasked).mpr
      ⟨⟨n.masked, mem_singleton_self _, hleft.1⟩, hleft.2⟩
    by_cases hown : b.bits = 32 ∧ b.base = n.masked.base
    · -- The address of the subnet by itself is not printed.
      obtain ⟨hbits, hbase⟩ := hown
      refine .inr ⟨((contains_iff_of_single hbits).mp hbx).trans hbase, fun c hcx hc => ?_⟩
      have hle := ((hmem b).mp hb).bits_le c hc ⟨x, hcx, hbx⟩
      have hc := c.bits_le
      omega
    · exact .inl ⟨b, mem_leftover.mpr ⟨hb, hown⟩, hbx⟩

end Sorted

/-- The ranges are the exact set, and they depend on the excluded addresses only: entries in
another order or repeated give the same ranges. -/
theorem allocatableRanges_exact (n : Block 32) (entries : List Entry) : ∃ bs : List (Block 32),
      allocatableRanges (prefixString (.v4 n)) (entries.map Entry.text) =
        some (bs.map fun b => prefixString (.v4 b)) ∧
      Exact n (Free n entries) bs ∧
      ∀ others : List Entry,
        (∀ x, (∃ entry ∈ others, entry.Excludes x) ↔ ∃ entry ∈ entries, entry.Excludes x) →
        allocatableRanges (prefixString (.v4 n)) (others.map Entry.text) =
          allocatableRanges (prefixString (.v4 n)) (entries.map Entry.text) := by
  obtain ⟨read, hread, hbs⟩ := exists_excluded entries
  have hranges := allocatableRanges_eq (parsePrefix_prefixString (.v4 n)) hread
  refine ⟨_, hranges, exact_leftover (free_iff hbs), ?_⟩
  intro others hothers
  obtain ⟨read', hread', hbs'⟩ := exists_excluded others
  have hranges' := allocatableRanges_eq (parsePrefix_prefixString (.v4 n)) hread'
  have hsame : leftover n.masked (v4Blocks read'.flatten) =
      leftover n.masked (v4Blocks read.flatten) := by
    apply leftover_congr n.masked_masked
    intro x
    rw [hbs', hbs, hothers]
  rw [hranges, hranges', hsame]

end Transit
