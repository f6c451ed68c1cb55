import KubevirtUi.Library.Halving

/-!
# Largest blocks of a set of addresses

A block of a set of addresses is as large as can be when no other block of the set that meets it
has fewer significant bits. These blocks are determined by the set alone. Halving a block until a
smaller one is reached leaves nothing but such blocks, so what is left does not depend on the
order in which blocks are taken out.
-/

namespace Block

open List

variable {w : Nat} {S T : BitVec w → Prop} {p q b c : Block w} {ps bs cs : List (Block w)}
  {x : BitVec w}

/-- All addresses of a block are in the set. -/
def Within (p : Block w) (S : BitVec w → Prop) : Prop := ∀ x, p.Contains x → S x

/-- No block of the set that meets this one is larger. -/
structure Largest (S : BitVec w → Prop) (p : Block w) : Prop where
  masked_eq : p.masked = p
  within : p.Within S
  bits_le : ∀ c : Block w, c.Within S → c.Overlaps p → p.bits ≤ c.bits

theorem Largest.congr (h : ∀ x, S x ↔ T x) : Largest S p ↔ Largest T p := by
  rw [funext fun x => propext (h x)]

theorem Largest.unique (hp : Largest S p) (hq : Largest S q) (h : p.Overlaps q) : p = q := by
  have hbits : p.bits = q.bits := by
    apply Nat.le_antisymm
    · exact hp.bits_le q hq.within h.symm
    · exact hq.bits_le p hp.within h
  have hmasked := (overlaps_iff_masked_eq hbits).mp h
  rwa [hp.masked_eq, hq.masked_eq] at hmasked

/-- An address more that stands alone adds a block of its own, and changes no other. -/
theorem largest_iff_of_alone {a : BitVec w} (hsame : ∀ x, x ≠ a → (S x ↔ T x)) (hS : ¬S a)
    (halone : ∀ c : Block w, c.Contains a → c.Within T → c.bits = w) (hq : ¬q.Contains a) :
    Largest S q ↔ Largest T q := by
  have hne {c : Block w} (hc : ¬c.Contains a) {x : BitVec w} (hx : c.Contains x) : x ≠ a :=
    fun hxa => hc (hxa ▸ hx)
  constructor
  · intro h
    refine ⟨h.masked_eq, fun x hx => (hsame x (hne hq hx)).mp (h.within x hx), ?_⟩
    intro c hc hoverlap
    by_cases hca : c.Contains a
    · rw [halone c hca hc]
      exact q.bits_le
    · exact h.bits_le c (fun x hx => (hsame x (hne hca hx)).mpr (hc x hx)) hoverlap
  · intro h
    refine ⟨h.masked_eq, fun x hx => (hsame x (hne hq hx)).mpr (h.within x hx), ?_⟩
    intro c hc hoverlap
    have hca : ¬c.Contains a := fun hx => hS (hc a hx)
    exact h.bits_le c (fun x hx => (hsame x (hne hca hx)).mp (hc x hx)) hoverlap

theorem bits_le_of_within (h : c.Within p.Contains) : p.bits ≤ c.bits := by
  refine Nat.le_of_not_lt fun hlt => ?_
  have hc : c.masked.bits < w := Nat.lt_of_lt_of_le hlt p.bits_le
  have hmasked := c.masked_masked
  have hoverlap : c.masked.Overlaps p :=
    ⟨c.base, contains_masked.mpr c.contains_base, h c.base c.contains_base⟩
  -- The half that misses the smaller block has an address of its own.
  have hhalf (half : Block w) (hhalf : ∀ x, half.Contains x → c.masked.Contains x) :
      half.Overlaps p := by
    have hx := contains_masked.mp (hhalf half.base half.contains_base)
    exact ⟨half.base, half.contains_base, h half.base hx⟩
  obtain ⟨-, hmiss⟩ | ⟨hmiss, -⟩ := overlaps_halves (h := hc) hmasked hlt hoverlap
  · apply hmiss
    exact hhalf _ fun x hx => (contains_iff_halves (h := hc) hmasked).mpr (.inr hx)
  · apply hmiss
    exact hhalf _ fun x hx => (contains_iff_halves (h := hc) hmasked).mpr (.inl hx)

theorem largest_self (hp : p.masked = p) : Largest p.Contains p where
  masked_eq := hp
  within _ hx := hx
  bits_le _ hc _ := bits_le_of_within hc

/-- The parts of a block that are left are largest, if all blocks that meet it are no larger. -/
theorem largest_of_mem_carve {n : Nat} (hp : p.masked = p) (hn : n = b.bits - p.bits)
    (hwithin : p.Within S)
    (hbits : ∀ c : Block w, c.Within (fun x => S x ∧ ¬b.Contains x) → c.Overlaps p →
      p.bits ≤ c.bits) (hq : q ∈ carve b n p) : Largest (fun x => S x ∧ ¬b.Contains x) q := by
  by_cases hoverlap : p.Overlaps b
  · induction n generalizing p with
    | zero =>
      rw [carve, if_pos hoverlap] at hq
      contradiction
    | succ n ih =>
      have hb : p.bits < b.bits := by omega
      have h : p.bits < w := Nat.lt_of_lt_of_le hb b.bits_le
      -- A block as large as this one would be this one, which meets what is taken out.
      have hhalf (r : Block w) (hr : r.masked = r) (hrbits : r.bits = p.bits + 1)
          (hpart : ∀ x, r.Contains x → p.Contains x) (hq : q ∈ carve b n r) :
          Largest (fun x => S x ∧ ¬b.Contains x) q := by
        have hrwithin : r.Within S := fun x hx => hwithin x (hpart x hx)
        have hrle (c : Block w) (hc : c.Within fun x => S x ∧ ¬b.Contains x)
            (hcr : c.Overlaps r) : r.bits ≤ c.bits := by
          obtain ⟨x, hcx, hrx⟩ := hcr
          have hcp : c.Overlaps p := ⟨x, hcx, hpart x hrx⟩
          have hle := hbits c hc hcp
          have hne : c.bits ≠ p.bits := by
            intro heq
            obtain ⟨y, hpy, hby⟩ := hoverlap
            exact (hc y (hcp.contains (Nat.le_of_eq heq) hpy)).2 hby
          omega
        by_cases hover : r.Overlaps b
        · exact ih hr (by omega) hrwithin hrle hq hover
        · rw [carve_of_not_overlaps hover, mem_singleton] at hq
          subst hq
          exact ⟨hr, fun x hx => ⟨hrwithin x hx, fun hbx => hover ⟨x, hx, hbx⟩⟩, hrle⟩
      rw [carve, if_neg (not_not_intro hoverlap), dif_pos h, mem_append] at hq
      obtain hleft | hright := hq
      · apply hhalf (p.left h) (masked_left hp) rfl _ hleft
        exact fun x hx => (contains_iff_halves (h := h) hp).mpr (.inl hx)
      · apply hhalf (p.right h) (masked_right hp) rfl _ hright
        exact fun x hx => (contains_iff_halves (h := h) hp).mpr (.inr hx)
  · rw [carve_of_not_overlaps hoverlap, mem_singleton] at hq
    subst hq
    exact ⟨hp, fun x hx => ⟨hwithin x hx, fun hbx => hoverlap ⟨x, hx, hbx⟩⟩, hbits⟩

theorem contains_of_mem_carve {n : Nat} (hp : p.masked = p) (hq : q ∈ carve b n p)
    (hx : q.Contains x) : p.Contains x := by
  induction n generalizing p with
  | zero =>
    rw [carve] at hq
    split at hq
    · contradiction
    · rwa [mem_singleton.mp hq] at hx
  | succ n ih =>
    rw [carve] at hq
    split at hq
    · rwa [mem_singleton.mp hq] at hx
    · split at hq
      · next h =>
        rw [contains_iff_halves (h := h) hp]
        obtain hleft | hright := mem_append.mp hq
        · exact .inl (ih (masked_left hp) hleft)
        · exact .inr (ih (masked_right hp) hright)
      · contradiction

theorem pairwise_carve {n : Nat} (hp : p.masked = p) :
    (carve b n p).Pairwise fun q r => ¬q.Overlaps r := by
  induction n generalizing p with
  | zero =>
    rw [carve]
    split
    · exact List.Pairwise.nil
    · exact pairwise_singleton _ _
  | succ n ih =>
    rw [carve]
    split
    · exact pairwise_singleton _ _
    · split
      · next h =>
        rw [pairwise_append]
        refine ⟨ih (masked_left hp), ih (masked_right hp), ?_⟩
        rintro q hq r hr ⟨x, hqx, hrx⟩
        apply not_contains_halves (h := h) hp
        exact ⟨contains_of_mem_carve (masked_left hp) hq hqx,
          contains_of_mem_carve (masked_right hp) hr hrx⟩
      · exact List.Pairwise.nil

theorem pairwise_without (hps : ∀ p ∈ ps, p.masked = p)
    (hpairwise : ps.Pairwise fun q r => ¬q.Overlaps r) :
    (without ps bs).Pairwise fun q r => ¬q.Overlaps r := by
  induction bs generalizing ps with
  | nil => exact hpairwise
  | cons b bs ih =>
    apply ih (@masked_of_mem_without w ps [b] hps)
    apply pairwise_flatMap.mpr
    refine ⟨fun p hp => pairwise_carve (hps p hp), ?_⟩
    apply hpairwise.imp_of_mem
    rintro p q hp hq hmiss r hr s hs ⟨x, hrx, hsx⟩
    apply hmiss
    exact ⟨x, contains_of_mem_carve (hps p hp) hr hrx, contains_of_mem_carve (hps q hq) hs hsx⟩

/-- Largest blocks stay so when blocks are taken out. -/
theorem largest_of_mem_without (hps : ∀ p ∈ ps, Largest S p) (hq : q ∈ without ps bs) :
    Largest (fun x => S x ∧ ∀ b ∈ bs, ¬b.Contains x) q := by
  induction bs generalizing S ps with
  | nil =>
    have hall : ∀ x, S x ↔ S x ∧ ∀ b ∈ ([] : List (Block w)), ¬b.Contains x := by simp
    exact (Largest.congr hall).mp (hps q hq)
  | cons b bs ih =>
    have hstep : ∀ r ∈ ps.flatMap fun p => carve b (b.bits - p.bits) p,
        Largest (fun x => S x ∧ ¬b.Contains x) r := by
      intro r hr
      obtain ⟨p, hp, hr⟩ := mem_flatMap.mp hr
      have hlargest := hps p hp
      apply largest_of_mem_carve hlargest.masked_eq rfl hlargest.within _ hr
      exact fun c hc hcp => hlargest.bits_le c (fun x hx => (hc x hx).1) hcp
    refine (Largest.congr fun x => ?_).mp (ih hstep hq)
    rw [forall_mem_cons, and_assoc]

/-- What is left of a block is the largest blocks of its addresses that are left. -/
theorem mem_without_iff (hp : p.masked = p) : q ∈ without [p] bs ↔
    Largest (fun x => p.Contains x ∧ ∀ b ∈ bs, ¬b.Contains x) q := by
  have hps : ∀ r ∈ [p], Largest p.Contains r := by
    rw [forall_mem_singleton]
    exact largest_self hp
  constructor
  · exact largest_of_mem_without hps
  · intro hq
    have hbase := hq.within q.base q.contains_base
    have hleft : (∃ r ∈ [p], r.Contains q.base) ∧ ∀ b ∈ bs, ¬b.Contains q.base :=
      ⟨⟨p, mem_singleton_self p, hbase.1⟩, hbase.2⟩
    have hmasked : ∀ r ∈ [p], r.masked = r := fun r hr => (hps r hr).masked_eq
    obtain ⟨r, hr, hrx⟩ := (exists_mem_without_iff hmasked).mpr hleft
    have hsame := (largest_of_mem_without hps hr).unique hq ⟨q.base, hrx, q.contains_base⟩
    exact hsame ▸ hr

theorem nodup_without (hp : p.masked = p) : (without [p] bs).Nodup := by
  have hmasked : ∀ r ∈ [p], r.masked = r := by
    rwa [forall_mem_singleton]
  have hpairwise : (without [p] bs).Pairwise fun q r => ¬q.Overlaps r :=
    pairwise_without hmasked (pairwise_singleton _ _)
  apply hpairwise.imp
  rintro q r hmiss rfl
  exact hmiss q.overlaps_self

/-- It depends on the addresses that are taken out, not on how they are written. -/
theorem without_perm (hp : p.masked = p)
    (h : ∀ x, (∃ b ∈ bs, b.Contains x) ↔ ∃ c ∈ cs, c.Contains x) :
    (without [p] bs).Perm (without [p] cs) := by
  rw [perm_ext_iff_of_nodup (nodup_without hp) (nodup_without hp)]
  intro q
  rw [mem_without_iff hp, mem_without_iff hp]
  apply Largest.congr
  intro x
  have hnone := not_congr (h x)
  simp only [not_exists, not_and] at hnone
  rw [hnone]

section Interval

variable {last : BitVec w} {start first : Nat}

theorem Covers.ascending (h : Covers last start bs) : (∀ b ∈ bs, start ≤ b.base.toNat) ∧
    bs.Pairwise fun p q => p.base.toNat + p.size ≤ q.base.toNat := by
  induction h with
  | nil => exact ⟨by simp, .nil⟩
  | cons hbase _ _ ih =>
    refine ⟨forall_mem_cons.mpr ⟨Nat.le_of_eq hbase.symm, fun c hc => ?_⟩,
      pairwise_cons.mpr ⟨fun c hc => ?_, ih.2⟩⟩
    · exact Nat.le_trans (Nat.le_add_right _ _) (ih.1 c hc)
    · rw [hbase]
      exact ih.1 c hc

theorem Covers.disjoint (h : Covers last start bs) : bs.Pairwise fun p q => ¬p.Overlaps q := by
  apply h.ascending.2.imp_of_mem
  rintro p q hp hq hle ⟨x, hpx, hqx⟩
  have hpx := (contains_iff_le_lt (h.masked_eq p hp)).mp hpx
  have hqx := (contains_iff_le_lt (h.masked_eq q hq)).mp hqx
  omega

/-- A wider block that meets this one starts before it, if it lies in the interval. -/
theorem Widest.bits_le_of_overlaps (hb : Widest last b) (hlast : ∀ x, c.Contains x → x ≤ last)
    (hleft : c.Contains b.base → b.base.toNat ≤ c.masked.base.toNat) (h : c.Overlaps b) :
    b.bits ≤ c.bits := by
  refine Nat.le_of_not_lt fun hlt => hb.maximal ?_
  have hcontains := h.contains (Nat.le_of_lt hlt) b.contains_base
  have hc := c.masked_masked
  have hstart := (contains_iff_le_lt hc).mp (contains_masked.mpr hcontains)
  have hsame : c.masked.base.toNat = b.base.toNat := Nat.le_antisymm hstart.1 (hleft hcontains)
  have htwice := two_mul_size_dvd hlt
  have hsize : c.masked.size = c.size := rfl
  have hpos := c.size_pos
  have hlarge := Nat.le_of_dvd hpos htwice
  refine ⟨hsame ▸ Nat.dvd_trans htwice (masked_eq_self_iff.mp hc), ?_⟩
  have hk : c.size - 1 < 2 ^ (w - c.bits) := Nat.sub_one_lt_of_lt hpos
  have hle := hlast _ (contains_masked_base_add c hk)
  rw [BitVec.le_def, toNat_masked_base_add c hk] at hle
  omega

/-- Going up, the widest blocks are the largest ones of the interval, if no block of the interval
reaches over its start. -/
theorem Covers.largest (h : Covers last start bs) (hfirst : first ≤ start)
    (hS : ∀ x, S x ↔ first ≤ x.toNat ∧ x.toNat ≤ last.toNat)
    (hleft : ∀ c : Block w, c.Within S → ∀ x, c.Contains x → x.toNat = start →
      start ≤ c.masked.base.toNat) : ∀ b ∈ bs, Largest S b := by
  induction h with
  | nil => simp
  | @cons start b bs hbase hwidest _ ih =>
    have hmasked := hwidest.masked_eq
    have hwithin := hwidest.within
    have hlargest : Largest S b := by
      refine ⟨hmasked, fun x hx => ?_, fun c hc hover => ?_⟩
      · rw [contains_iff_le_lt hmasked] at hx
        rw [hS]
        omega
      · refine hwidest.bits_le_of_overlaps (fun x hx => ?_) (fun hx => ?_) hover
        · exact BitVec.le_def.mpr ((hS x).mp (hc x hx)).2
        · rw [hbase]
          exact hleft c hc b.base hx hbase
    refine forall_mem_cons.mpr ⟨hlargest, ih (by omega) fun c hc x hx hnext => ?_⟩
    -- A block that reaches over the end of this one meets it, so it would lie in it.
    by_contra hlt
    have hx' := (contains_iff_le_lt c.masked_masked).mp (contains_masked.mpr hx)
    have hover : c.Overlaps b := by
      by_cases hbefore : c.masked.base.toNat ≤ start
      · refine ⟨b.base, contains_masked.mp ((contains_iff_le_lt c.masked_masked).mpr ?_),
          b.contains_base⟩
        omega
      · refine ⟨c.masked.base, contains_masked.mp c.masked.contains_base, ?_⟩
        rw [contains_iff_le_lt hmasked]
        omega
    have hbx := hover.symm.contains (hlargest.bits_le c hc hover) hx
    rw [contains_iff_le_lt hmasked] at hbx
    omega

/-- Whatever makes up a set has a block for each of its largest ones. -/
theorem length_le_of_largest (hlargest : ∀ b ∈ bs, Largest S b)
    (hdisjoint : bs.Pairwise fun p q => ¬p.Overlaps q)
    (hcs : ∀ x, (∃ c ∈ cs, c.Contains x) ↔ S x) : bs.length ≤ cs.length := by
  have hfind : ∀ b ∈ bs, ∃ c, c ∈ cs ∧ c.Overlaps b := by
    intro b hb
    obtain ⟨c, hc, hx⟩ := (hcs b.base).mpr ((hlargest b hb).within _ b.contains_base)
    exact ⟨c, hc, b.base, hx, b.contains_base⟩
  choose! f hf using hfind
  have hnodup : (bs.map f).Nodup := by
    rw [List.Nodup, pairwise_map]
    apply hdisjoint.imp_of_mem
    intro p q hp hq hmiss hsame
    obtain ⟨x, hx, hqx⟩ := (hf q hq).2
    have hle := (hlargest p hp).bits_le (f p) (fun y hy => (hcs y).mp ⟨f p, (hf p hp).1, hy⟩)
      (hf p hp).2
    exact hmiss ⟨x, (hf p hp).2.symm.contains hle (hsame ▸ hx), hqx⟩
  have hsub : bs.map f ⊆ cs := by
    intro c hc
    obtain ⟨b, hb, rfl⟩ := mem_map.mp hc
    exact (hf b hb).1
  simpa using List.Nodup.length_le_of_subset hnodup hsub

end Interval

end Block
