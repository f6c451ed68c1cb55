import KubevirtUi.Tenant.Covered

/-!
# What a granted reservation leaves of the ceilings

Only the nearest ceiling is asked. That is enough for all of them: a charge is felt at
the nearest cap and nowhere above. But what the asking namespace already holds is
taken off that ceiling wherever it is charged, so it has to be charged there; and the
subtraction has to stay within the machine's integers.
-/

namespace Tenant

open List
open Option hiding map_map forall_mem_map

variable {Q : Type} {R : Resource Q}

variable {a b z : ℤ} {holder f : String} {labels : List (String × String)}
  {quotas : List (String × Quota Q)}

theorem ofInt_le_iff (ha : InRange a) (hb : InRange b) : Int64.ofInt a ≤ Int64.ofInt b ↔ a ≤ b := by
  rw [Int64.le_iff_toInt_le, toInt_ofInt ha, toInt_ofInt hb]

theorem ofInt_lt_iff (ha : InRange a) (hb : InRange b) : Int64.ofInt a < Int64.ofInt b ↔ a < b := by
  rw [Int64.lt_iff_toInt_lt, toInt_ofInt ha, toInt_ofInt hb]

variable {tree : Tree} {M : Measure R} {h : tree.Acyclic} {namespaces : List NamespaceQuota}
  {folder asking : String} {want : Quota Q} {d : Dimension}

section Request

variable (M : Measure R) (h : tree.Acyclic) (namespaces : List NamespaceQuota)
  (folder asking : String) (want : Quota Q) (d : Dimension)

/-- What the ceiling of a folder covers today. -/
noncomputable def before (f : String) : ℤ := covered M d h (charges M d namespaces) f

/-- What it covers once the request has taken the place of all that the asking
namespace is charged. -/
noncomputable def after (f : String) : ℤ :=
  covered M d h (charges M d (namespaces.filter fun ns => ns.namespace_ ≠ asking) ++
    [(folder, M.milli (d.want want))]) f

/-- Where the request has to fit under a ceiling, all that the check reads and computes of
one dimension are numbers that a machine integer can be: that ceiling, what the asking
namespace holds, what is added up under the ceiling, and what it leaves. -/
structure Computed (holder : String) : Prop extends Reads M h namespaces d holder where
  limit : ∀ limit ∈ cap M tree d holder, InRange limit
  own : ∀ ns ∈ namespaces, ns.namespace_ = asking → InRange (amountOf M (d.charge ns))
  held : InRange (held M namespaces asking d)
  others : InRange (before M h namespaces d holder - Tenant.held M namespaces asking d)
  free : ∀ limit ∈ cap M tree d holder,
    InRange (limit - (before M h namespaces d holder - Tenant.held M namespaces asking d))

/-- The asking namespace has no negative quota, and no number of the check wraps around. -/
structure Fits : Prop where
  nonneg : ∀ ns ∈ namespaces, ns.namespace_ = asking → 0 ≤ amountOf M (d.charge ns)
  computed : ∀ holder ∈ (ceilingHolder R tree folder d).map Prod.fst,
    Computed M h namespaces asking d holder

/-- Whatever the asking namespace is charged in a dimension, it is charged under the
ceiling that its request has to fit under. -/
def ChargedThere (tree : Tree) : Prop :=
  ∀ holder ∈ (ceilingHolder R tree folder d).map Prod.fst, ∀ ns ∈ namespaces,
    ns.namespace_ = asking → 0 < amountOf M (d.charge ns) →
      holder ∈ (ceilingHolder R tree ns.folder d).map Prod.fst

/-- The check answers, and it never refuses a request that grows nothing. Where it grants
the request no ceiling is overrun by it: what a ceiling covers afterwards is within it,
or no more than it covered before. -/
def Kept : Prop :=
  ∃ answer, (∀ᶠ fuel in Filter.atTop,
      checkCeiling R fuel tree namespaces folder asking want = some answer) ∧
    (answer = none → ∀ d f, ∀ limit ∈ cap M tree d f,
      after M h namespaces folder asking want d f ≤ max limit (before M h namespaces d f)) ∧
    ((∀ d : Dimension, M.milli (d.want want) ≤ held M namespaces asking d) → answer = none)

/-- One dimension of the request is granted. -/
def Granted : Prop :=
  ∀ holder, (Hierarchy.forest h).Exposed (cap M tree d) folder holder →
    ∀ limit ∈ cap M tree d holder,
      M.milli (d.want want) ≤ held M namespaces asking d ∨
        M.milli (d.want want) ≤
          max 0 (limit - (before M h namespaces d holder - held M namespaces asking d))

end Request

section Answer

/-- A cap that a folder's charges reach is the one that it has to fit under. -/
theorem mem_ceilingHolder_iff (h : tree.Acyclic) :
    holder ∈ (ceilingHolder R tree folder d).map Prod.fst ↔
      (Hierarchy.forest h).Exposed (cap M tree d) folder holder ∧ cap M tree d holder ≠ none := by
  rw [mem_def, map_eq_some_iff]
  constructor
  · rintro ⟨⟨holder, limit⟩, hholder, rfl⟩
    obtain ⟨hexp, node, hnode, hraw, -⟩ := (ceilingHolder_eq_some_iff h).mp hholder
    refine ⟨hexp, ?_⟩
    rw [cap_of_node hnode, if_neg hraw]
    exact some_ne_none _
  · rintro ⟨hexp, hcap⟩
    cases hnode : tree.node holder with
    | none => exact absurd (by rw [cap, hnode]; rfl) hcap
    | some node =>
      have hraw : d.of node.ceiling ≠ "" := by
        intro hraw
        rw [cap_of_node hnode, if_pos hraw] at hcap
        exact hcap rfl
      exact ⟨⟨holder, _⟩, (ceilingHolder_eq_some_iff h).mpr ⟨hexp, node, hnode, hraw, rfl⟩, rfl⟩

theorem clamp_ofInt (hz : InRange z) :
    (if Int64.ofInt z < 0 then 0 else Int64.ofInt z) = Int64.ofInt (max 0 z) := by
  have hzero : Int64.ofInt z < 0 ↔ z < 0 := ofInt_lt_iff hz (b := 0) (by decide)
  by_cases hneg : z < 0
  · rw [if_pos (hzero.mpr hneg), max_eq_left hneg.le]
    rfl
  · rw [if_neg (mt hzero.mp hneg), max_eq_right (not_lt.mp hneg)]

theorem refusal_eq_none_iff {limit allocated held asked : ℤ}
    (hfree : InRange (limit - (allocated - held))) (hasked : InRange asked) :
    refusal R d holder (Int64.ofInt limit) (Int64.ofInt allocated) (Int64.ofInt held)
      (Int64.ofInt asked) = none ↔ asked ≤ max 0 (limit - (allocated - held)) := by
  have hmax : InRange (max 0 (limit - (allocated - held))) := by
    simp only [InRange] at hfree ⊢
    omega
  simp only [refusal, ← Int64.ofInt_sub, clamp_ofInt hfree, ofInt_lt_iff hmax hasked]
  rw [← not_lt]
  by_cases hlt : max 0 (limit - (allocated - held)) < asked
  · rw [if_pos hlt]
    exact iff_of_false (some_ne_none _) (not_not_intro hlt)
  · rw [if_neg hlt]
    exact iff_of_true rfl hlt

theorem eventually_checkDimension (hfits : Fits M h namespaces folder asking d)
    (hasked : InRange (M.milli (d.want want))) : ∃ answer, (∀ᶠ fuel in Filter.atTop,
        checkDimension R fuel tree namespaces folder asking want d = some answer) ∧
      (answer = none ↔ Granted M h namespaces folder asking want d) := by
  cases hholder : ceilingHolder R tree folder d with
  | none =>
    refine ⟨none, Filter.Eventually.of_forall fun fuel => by rw [checkDimension, hholder], ?_⟩
    refine iff_of_true rfl fun holder hexp limit hlimit => ?_
    have hmem := (mem_ceilingHolder_iff h).mpr ⟨hexp, by simp [mem_def.mp hlimit]⟩
    rw [hholder] at hmem
    exact absurd hmem (not_mem_none holder)
  | some found =>
    obtain ⟨holder, limit⟩ := found
    obtain ⟨hexp, node, hnode, hraw, rfl⟩ := (ceilingHolder_eq_some_iff (M := M) h).mp hholder
    have hcap : cap M tree d holder = some (amountOf M (d.of node.ceiling)) := by
      rw [cap_of_node hnode, if_neg hraw]
    have hmem : holder ∈ (ceilingHolder R tree folder d).map Prod.fst := by rw [hholder]; rfl
    have hcomputed := hfits.computed holder hmem
    have hlimit := hcomputed.limit _ hcap
    have hfree := hcomputed.free _ hcap
    have hgranted : Granted M h namespaces folder asking want d ↔
        M.milli (d.want want) ≤ held M namespaces asking d ∨ M.milli (d.want want) ≤
          max 0 (amountOf M (d.of node.ceiling) -
            (before M h namespaces d holder - held M namespaces asking d)) := by
      constructor
      · exact fun hall => hall holder hexp _ hcap
      · intro hone holder' hexp' limit hlimit'
        obtain rfl : holder' = holder :=
          hexp'.eq_of_capped hexp (by simp [mem_def.mp hlimit']) (by simp [hcap])
        obtain rfl := mem_unique hcap hlimit'
        exact hone
    have hheld : heldBy R namespaces asking d = Int64.ofInt (held M namespaces asking d) :=
      heldBy_eq hcomputed.own
    rw [hgranted]
    by_cases hle : M.milli (d.want want) ≤ held M namespaces asking d
    · refine ⟨none, Filter.Eventually.of_forall fun fuel => ?_, iff_of_true rfl (.inl hle)⟩
      simp only [checkDimension, hholder, hheld, M.milliValue_eq _ hasked]
      rw [if_pos ((ofInt_le_iff hasked hcomputed.held).mpr hle)]
    · refine ⟨refusal R d holder (Int64.ofInt (amountOf M (d.of node.ceiling)))
        (Int64.ofInt (before M h namespaces d holder))
        (Int64.ofInt (held M namespaces asking d)) (Int64.ofInt (M.milli (d.want want))),
        (eventually_allocatedUnder h hcomputed.toReads).mono fun fuel hfuel => ?_, ?_⟩
      · simp only [checkDimension, hholder, hheld, M.milliValue_eq _ hasked, milliOf_eq hlimit]
        rw [if_neg (mt (ofInt_le_iff hasked hcomputed.held).mp hle), hfuel, map_some]
        rfl
      · rw [refusal_eq_none_iff hfree hasked, or_iff_right hle]

/-- The request is answered, and it is refused for the dimensions that are not granted. -/
theorem eventually_checkCeiling (hfits : ∀ d, Fits M h namespaces folder asking d)
    (hasked : ∀ d : Dimension, InRange (M.milli (d.want want))) :
    ∃ answer, (∀ᶠ fuel in Filter.atTop,
        checkCeiling R fuel tree namespaces folder asking want = some answer) ∧
      (answer = none ↔ ∀ d, Granted M h namespaces folder asking want d) := by
  have hdims (ds : List Dimension) : ∃ answer, (∀ᶠ fuel in Filter.atTop,
        ds.findSomeM? (checkDimension R fuel tree namespaces folder asking want) = some answer) ∧
      (answer = none ↔ ∀ d ∈ ds, Granted M h namespaces folder asking want d) := by
    induction ds with
    | nil => exact ⟨none, Filter.Eventually.of_forall fun _ => rfl, by simp⟩
    | cons d ds ih =>
      obtain ⟨first, hfirst, hgranted⟩ := eventually_checkDimension (hfits d) (hasked d)
      obtain ⟨answer, hanswer, hrest⟩ := ih
      cases first with
      | none =>
        refine ⟨answer, (hfirst.and hanswer).mono fun fuel hfuel => ?_, ?_⟩
        · rw [List.findSomeM?_cons, hfuel.1]
          exact hfuel.2
        · rw [hrest, forall_mem_cons, and_iff_right (hgranted.mp rfl)]
      | some r =>
        refine ⟨some r, hfirst.mono fun fuel hfuel => ?_, ?_⟩
        · rw [List.findSomeM?_cons, hfuel]
          rfl
        · have hnot := mt hgranted.mpr (some_ne_none r)
          exact iff_of_false (some_ne_none r) fun hall =>
            hnot (hall d mem_cons_self)
  by_cases hfolder : folder = ""
  · refine ⟨none, Filter.Eventually.of_forall fun fuel => if_pos hfolder, iff_of_true rfl ?_⟩
    intro d holder hexp limit hlimit
    have hmem := (mem_ceilingHolder_iff h).mpr ⟨hexp, by simp [mem_def.mp hlimit]⟩
    simp [ceilingHolder, walk, ceilingStep, hfolder] at hmem
  · obtain ⟨answer, hanswer, hgranted⟩ := hdims dimensions
    refine ⟨answer, hanswer.mono fun fuel hfuel => ?_, hgranted.trans ?_⟩
    · rw [checkCeiling, if_neg hfolder, hfuel]
    · refine ⟨fun hall d => hall d ?_, fun hall d _ => hall d⟩
      cases d <;> decide

end Answer

section Felt

/-- The asking namespace's own charges. -/
def own (M : Measure R) (namespaces : List NamespaceQuota) (asking : String) (d : Dimension) :
    List (String × ℤ) :=
  charges M d (namespaces.filter fun ns => ns.namespace_ = asking)

theorem sum_own : ((own M namespaces asking d).map Prod.snd).sum = held M namespaces asking d := by
  rw [own, charges, map_map]
  rfl

/-- What a ceiling covers changes by what of the request is felt there, less what was felt
of the asking namespace before. -/
theorem after_eq (f : String) : after M h namespaces folder asking want d f =
    before M h namespaces d f -
      (Hierarchy.forest h).felt (cap M tree d) (own M namespaces asking d) f +
        (Hierarchy.forest h).felt (cap M tree d) [(folder, M.milli (d.want want))] f := by
  have hperm : (own M namespaces asking d ++
      charges M d (namespaces.filter fun ns => ns.namespace_ ≠ asking)).Perm
        (charges M d namespaces) := by
    rw [own, charges, charges, charges, ← map_append]
    refine List.Perm.map _ ?_
    have hsplit := filter_append_perm (fun ns => decide (ns.namespace_ = asking)) namespaces
    simpa only [decide_not] using hsplit
  rw [after, before, covered, covered, Forest.reserved_charged, Forest.reserved_charged,
    Forest.felt_append, ← Forest.felt_perm _ hperm, Forest.felt_append]
  omega

section

variable (hfits : Fits M h namespaces folder asking d)

include hfits

theorem own_nonneg : ∀ e ∈ own M namespaces asking d, 0 ≤ e.2 := by
  intro e he
  obtain ⟨ns, hns, rfl⟩ := mem_map.mp he
  obtain ⟨hns, hasking⟩ := mem_filter.mp hns
  exact hfits.nonneg ns hns (of_decide_eq_true hasking)

theorem held_nonneg : 0 ≤ held M namespaces asking d := by
  rw [← sum_own]
  refine sum_nonneg fun z hz => ?_
  obtain ⟨e, he, rfl⟩ := mem_map.mp hz
  exact own_nonneg hfits e he

/-- The asking namespace is felt in full at the ceiling that its request has to fit under
exactly if it is charged there. -/
theorem chargedThere_iff : ChargedThere M namespaces folder asking d tree ↔
      ∀ holder ∈ (ceilingHolder R tree folder d).map Prod.fst,
        (Hierarchy.forest h).felt (cap M tree d) (own M namespaces asking d) holder =
          held M namespaces asking d := by
  refine forall_congr' fun holder => forall_congr' fun hholder => ?_
  have hcap := ((mem_ceilingHolder_iff (M := M) h).mp hholder).2
  rw [← sum_own, Forest.felt_eq_sum_iff _ (own_nonneg hfits)]
  simp only [mem_ceilingHolder_iff (M := M) h, and_iff_left hcap, own, charges, forall_mem_map,
    mem_filter, decide_eq_true_eq, and_imp]

/-- A ceiling that the request is not felt at covers no more than before. -/
theorem after_le_of_not_exposed (hexp : ¬ (Hierarchy.forest h).Exposed (cap M tree d) folder f) :
    after M h namespaces folder asking want d f ≤ before M h namespaces d f := by
  have hfelt := Forest.felt_nonneg (Hierarchy.forest h) (cap M tree d) f (own_nonneg hfits)
  rw [after_eq, Forest.felt_singleton_of_not_exposed _ hexp]
  omega

end

theorem kept_of_chargedThere (hfits : ∀ d, Fits M h namespaces folder asking d)
    (hcharged : ∀ d, ChargedThere M namespaces folder asking d tree)
    (hasked : ∀ d : Dimension, InRange (M.milli (d.want want))) :
    Kept M h namespaces folder asking want := by
  obtain ⟨answer, hanswer, hgranted⟩ := eventually_checkCeiling hfits hasked
  refine ⟨answer, hanswer, ?_, ?_⟩
  · intro hnone d f limit hlimit
    by_cases hexp : (Hierarchy.forest h).Exposed (cap M tree d) folder f
    · have hmem := (mem_ceilingHolder_iff h).mpr ⟨hexp, by simp [mem_def.mp hlimit]⟩
      have hfelt := (chargedThere_iff (hfits d)).mp (hcharged d) f hmem
      have hheld := held_nonneg (hfits d)
      rw [after_eq, hfelt, Forest.felt_singleton_of_exposed _ hexp]
      obtain hle | hle := hgranted.mp hnone d f hexp limit hlimit
      · omega
      · omega
    · exact (after_le_of_not_exposed (hfits d) hexp).trans (le_max_right _ _)
  · exact fun hgrows => hgranted.mpr fun d holder _ limit _ => .inl (hgrows d)

/-- The request for one dimension only. -/
def onlyWant (R : Resource Q) (d : Dimension) (z : ℤ) : Quota Q where
  cpu := R.newMilliQuantity (if d = .cpu then Int64.ofInt z else 0)
  memory := R.newMilliQuantity (if d = .memory then Int64.ofInt z else 0)
  storage := R.newMilliQuantity (if d = .storage then Int64.ofInt z else 0)

theorem milli_onlyWant (hz : InRange z) (d d' : Dimension) :
    M.milli (d'.want (onlyWant R d z)) = if d = d' then z else 0 := by
  have hwant : d'.want (onlyWant R d z) =
      R.newMilliQuantity (if d = d' then Int64.ofInt z else 0) := by
    cases d' <;> rfl
  rw [hwant, M.milli_newMilliQuantity]
  by_cases hd : d = d'
  · rw [if_pos hd, if_pos hd, toInt_ofInt hz]
  · rw [if_neg hd, if_neg hd]
    rfl

end Felt

section Main

theorem ceilingRefusal_some {fuel : Nat} {total : Quota Q} :
    ceilingRefusal R fuel (some tree) labels quotas folder asking total =
      checkCeiling R fuel tree (assembled R labels quotas) folder asking total := by
  rw [ceilingRefusal]
  split
  · next hfolder => rw [checkCeiling, if_pos hfolder]
  · rfl

/-- The reconciler asks for a namespace that is labelled with the folder of the request, so
that it keeps the ceilings. -/
theorem kept_assembled (h : tree.Acyclic)
    (hlabels : ∀ label ∈ labels, label.1 = asking → label.2 = folder)
    (hfits : ∀ d, Fits M h (assembled R labels quotas) folder asking d) {want : Quota Q}
    (hasked : ∀ d : Dimension, InRange (M.milli (d.want want))) :
    Kept M h (assembled R labels quotas) folder asking want := by
  refine kept_of_chargedThere hfits (fun d holder hholder ns hns hasking _ => ?_) hasked
  obtain ⟨label, hlabel, hns⟩ := mem_filterMap.mp hns
  have hfolder : ns.folder = label.2 ∧ ns.namespace_ = label.1 := by
    revert hns
    split
    · exact fun hns => absurd hns (by simp)
    · exact fun hns => some.inj hns ▸ ⟨rfl, rfl⟩
  rw [hfolder.1, hlabels label hlabel (hfolder.2 ▸ hasking)]
  exact hholder

end Main

section Instances

/-- Whole units only, written in digits, and exact. -/
def wholeUnits : Resource ℤ where
  parseQuantity s := (s.toList.foldlM (fun (n : ℕ) (c : Char) =>
    if c.isDigit then some (10 * n + (c.toNat - '0'.toNat)) else none) 0).map
      fun n => 1000 * (n : ℤ)
  milliValue := Int64.ofInt
  newMilliQuantity := Int64.toInt
  newQuantity i := 1000 * i.toInt
  string z := toString (z / 1000)
  zero := 0
  add := (· + ·)

def exactMilli : Measure wholeUnits where
  milli := id
  milliValue_eq _ _ := rfl
  milli_newMilliQuantity _ := rfl

/-- A folder that caps CPU with two inside it, one of which caps CPU again; and a folder
elsewhere whose ceiling no machine integer can be. -/
def campus : Tree where
  nodes := [("lab", ⟨"", ⟨"10", "", ""⟩⟩), ("kid", ⟨"lab", ⟨"", "", ""⟩⟩),
    ("sub", ⟨"kid", ⟨"2", "", ""⟩⟩), ("far", ⟨"", ⟨"", "", "10000000000000000"⟩⟩)]
  nodup := by decide
  named := by decide

theorem campus_acyclic : campus.Acyclic :=
  Hierarchy.acyclic_of_rank
    (fun f => if f = "sub" then 3 else if f = "kid" then 2 else if f = "" then 0 else 1)
    (by decide)

/-- A namespace with two quotas, one above it, one below, and one elsewhere that holds
more than a machine integer can be. -/
abbrev campusCharges : List NamespaceQuota :=
  assembled wholeUnits [("t", "kid"), ("o", "lab"), ("v", "sub"), ("u", "far")]
    [("t", ⟨1000, 0, 0⟩), ("t", ⟨3000, 0, 0⟩), ("o", ⟨3000, 2000, 0⟩), ("v", ⟨1000, 0, 0⟩),
      ("u", ⟨0, 0, 20000000000000000000⟩)]

theorem before_campus : before exactMilli campus_acyclic campusCharges .cpu "lab" = 9000 := by
  have hlab : (Hierarchy.forest campus_acyclic).children "lab" = {"kid"} := by decide
  have hkid : (Hierarchy.forest campus_acyclic).children "kid" = {"sub"} := by decide
  have hcap : cap exactMilli campus .cpu "kid" = none ∧
      cap exactMilli campus .cpu "sub" = some 2000 := by decide
  have hown : Forest.charged (charges exactMilli .cpu campusCharges) "lab" = 3000 ∧
      Forest.charged (charges exactMilli .cpu campusCharges) "kid" = 4000 := by decide
  rw [before, covered, Forest.reserved_eq, hlab, Finset.sum_singleton, hcap.1, getD_none,
    Forest.reserved_eq, hkid, Finset.sum_singleton, hcap.2, hown.1, hown.2]
  rfl

theorem fits_campus (d : Dimension) : Fits exactMilli campus_acyclic campusCharges "kid" "t" d := by
  refine ⟨by cases d <;> decide, fun holder hmem => ?_⟩
  have hholder : (ceilingHolder wholeUnits campus "kid" .cpu).map Prod.fst = some "lab" ∧
      ceilingHolder wholeUnits campus "kid" .memory = none ∧
      ceilingHolder wholeUnits campus "kid" .storage = none := by decide
  cases d with
  | memory => simp [hholder.2.1] at hmem
  | storage => simp [hholder.2.2] at hmem
  | cpu =>
    obtain rfl := mem_unique hholder.1 hmem
    have hcaps (f : String) (limit : ℤ) (h : limit ∈ cap exactMilli campus .cpu f) :
        InRange limit := by
      obtain ⟨node, hnode, hlimit⟩ := bind_eq_some_iff.mp h
      have hall : ∀ e ∈ campus.nodes, ∀ limit ∈ (if Dimension.cpu.of e.2.ceiling = "" then none
          else some (amountOf exactMilli (Dimension.cpu.of e.2.ceiling))), InRange limit := by
        decide
      exact hall _ (campus.node_eq_some_iff.mp hnode) limit hlimit
    have hamounts : ∀ ns ∈ campusCharges, InRange (amountOf exactMilli ns.cpu) := by decide
    have hheld : held exactMilli campusCharges "t" .cpu = 4000 := by decide
    have hlab : cap exactMilli campus .cpu "lab" = some 10000 := by decide
    refine ⟨⟨fun ns hns _ => hamounts ns hns, fun _ c _ _ => hcaps c⟩, hcaps "lab",
      fun ns hns _ => hamounts ns hns, ?_, ?_, fun limit hlimit => ?_⟩
    · rw [hheld]
      decide
    · rw [before_campus, hheld]
      decide
    · obtain rfl := mem_unique hlab hlimit
      rw [before_campus, hheld]
      decide

theorem kept_assembled_campus :
    Kept exactMilli campus_acyclic campusCharges "kid" "t" ⟨5000, 7000, 0⟩ :=
  kept_assembled campus_acyclic (by decide) fits_campus fun d => by cases d <;> decide

/-- Two folders, each with a ceiling of its own. -/
def apart : Tree where
  nodes := [("a", ⟨"", ⟨"10", "", ""⟩⟩), ("b", ⟨"", ⟨"10", "", ""⟩⟩)]
  nodup := by decide
  named := by decide

theorem apart_acyclic : apart.Acyclic :=
  Hierarchy.acyclic_of_rank (fun f => if f = "" then 0 else 1) (by decide)

/-- A ceiling far below what its folder holds. -/
def huge : Tree where
  nodes := [("lab", ⟨"", ⟨"", "", "100000000000000"⟩⟩)]
  nodup := by decide
  named := by decide

theorem huge_acyclic : huge.Acyclic := Hierarchy.acyclic_of_rank (fun f => if f = "" then 0 else 1)
  (by decide)

theorem covered_of_childless {M : Measure R} {d : Dimension} (h : tree.Acyclic)
    (hf : (Hierarchy.forest h).children f = ∅) (entries : List (String × ℤ)) :
    covered M d h entries f = Forest.charged entries f := by
  rw [covered, Forest.reserved_eq, hf, Finset.sum_empty, add_zero]

end Instances

end Tenant
