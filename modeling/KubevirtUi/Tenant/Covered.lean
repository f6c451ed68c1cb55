import KubevirtUi.Tenant.Ceiling
import Mathlib.Order.Filter.AtTopBot.Basic
import Mathlib.Order.Filter.Finite
import Mathlib.Tactic.Linarith

/-!
# What a ceiling covers

The folders are a forest, and what a ceiling covers is what its folder answers for
there: every charge that no other cap on the way hides from it. Where nothing that is
added up leaves the range of the machine's integers, the operator's recursion comes to
exactly that, and its walk upwards finds exactly the cap that a charge reaches.
-/

namespace Tenant

open List

variable {Q : Type}

/-- A signed 64-bit integer can be this number. -/
def InRange (z : ℤ) : Prop := -2 ^ 63 ≤ z ∧ z < 2 ^ 63

instance (z : ℤ) : Decidable (InRange z) := inferInstanceAs (Decidable (_ ∧ _))

theorem toInt_ofInt {z : ℤ} (h : InRange z) : (Int64.ofInt z).toInt = z :=
  Int64.toInt_ofInt_of_le h.1 h.2

/-- How Kubernetes measures quantities: in milli-units, rounded up. -/
structure Measure (R : Resource Q) where
  milli : Q → ℤ
  milliValue_eq : ∀ q, InRange (milli q) → R.milliValue q = Int64.ofInt (milli q)
  milli_newMilliQuantity : ∀ i, milli (R.newMilliQuantity i) = i.toInt

variable {R : Resource Q}

section Amounts

variable (M : Measure R)

/-- What a quantity string comes to, in milli-units. -/
def amountOf (s : String) : ℤ :=
  if s = "" then 0
  else match R.parseQuantity s with
    | none => 0
    | some q => M.milli q

variable {M}

theorem milliOf_eq {s : String} (h : InRange (amountOf M s)) :
    milliOf R s = Int64.ofInt (amountOf M s) := by
  rw [amountOf] at h ⊢
  rw [milliOf]
  by_cases hs : s = ""
  · rw [if_pos hs, if_pos hs]
    rfl
  · rw [if_neg hs] at h ⊢
    rw [if_neg hs]
    cases hq : R.parseQuantity s with
    | none => rfl
    | some q =>
      rw [hq] at h
      exact M.milliValue_eq q h

end Amounts

/-- The name of the folder above. No folder is called `""`, which a root folder gives. -/
def FolderNode.above (node : FolderNode) : Option String := some node.parent

/-- No folder is above itself. -/
abbrev Tree.Acyclic (tree : Tree) : Prop := tree.toHierarchy.Acyclic FolderNode.above

section Covered

variable (M : Measure R) (tree : Tree) (d : Dimension)

/-- The ceiling of a folder in one dimension. -/
def cap (f : String) : Option ℤ :=
  (tree.node f).bind fun node =>
    if d.of node.ceiling = "" then none else some (amountOf M (d.of node.ceiling))

/-- What each namespace is charged, and where. -/
def charges (namespaces : List NamespaceQuota) : List (String × ℤ) :=
  namespaces.map fun ns => (ns.folder, amountOf M (d.charge ns))

variable {tree} in
/-- What a folder's ceiling covers when these charges are there. -/
noncomputable def covered (h : tree.Acyclic) (entries : List (String × ℤ)) (f : String) : ℤ :=
  (Hierarchy.forest h).reserved (cap M tree d) (Forest.charged entries) f

variable {M tree d}

theorem cap_of_node {f : String} {node : FolderNode} (h : tree.node f = some node) :
    cap M tree d f =
      if d.of node.ceiling = "" then none else some (amountOf M (d.of node.ceiling)) := by
  rw [cap, h]
  rfl

theorem onward_ceilingStep {x y : String} : Onward (ceilingStep R tree d) x y ↔
    cap M tree d x = none ∧ tree.Child FolderNode.above x y := by
  have hempty : ¬ tree.Child FolderNode.above "" y := fun h => tree.named h.mem
  by_cases hx : x = ""
  · subst hx
    simp [Onward, ceilingStep, hempty]
  · cases hnode : tree.node x with
    | none => simp [Onward, ceilingStep, hx, hnode, Hierarchy.Child]
    | some node =>
      rw [cap_of_node hnode]
      by_cases hraw : d.of node.ceiling = ""
      · simp [Onward, ceilingStep, hx, hnode, hraw, Hierarchy.Child, FolderNode.above]
      · simp [Onward, ceilingStep, hx, hnode, hraw]

theorem ceilingStep_eq_inl_iff {x y : String} {limit : Int64} :
    ceilingStep R tree d x = some (.inl (y, limit)) ↔ x = y ∧
      ∃ node, tree.node x = some node ∧ d.of node.ceiling ≠ "" ∧
        milliOf R (d.of node.ceiling) = limit := by
  by_cases hx : x = ""
  · subst hx
    have hnode (node : FolderNode) : tree.node "" ≠ some node := fun h =>
      tree.named (mem_map_of_mem (tree.node_eq_some_iff.mp h))
    simp [ceilingStep, hnode]
  · cases hnode : tree.node x with
    | none => simp [ceilingStep, hx, hnode]
    | some node =>
      by_cases hraw : d.of node.ceiling = ""
      · simp [ceilingStep, hx, hnode, hraw]
      · simp [ceilingStep, hx, hnode, hraw]

theorem ceilingHolder_eq_some_iff (h : tree.Acyclic) {folder holder : String} {limit : Int64} :
    ceilingHolder R tree folder d = some (holder, limit) ↔
      (Hierarchy.forest h).Exposed (cap M tree d) folder holder ∧
        ∃ node, tree.node holder = some node ∧ d.of node.ceiling ≠ "" ∧
          milliOf R (d.of node.ceiling) = limit := by
  have hstep : Onward (ceilingStep R tree d) = fun x y =>
      cap M tree d x = none ∧ x ∈ (Hierarchy.forest h).children y := by
    funext x y
    rw [Hierarchy.mem_forest_children]
    exact propext onward_ceilingStep
  have hnodes (x y : String) (hxy : Onward (ceilingStep R tree d) x y) :
      x ∈ tree.nodes.map Prod.fst := (onward_ceilingStep (M := M).mp hxy).2.mem
  have hacyclic (x : String) : ¬ Relation.TransGen (Onward (ceilingStep R tree d)) x x := by
    intro hx
    refine h x (Relation.TransGen.mono (fun x y hxy => ?_) _ _ hx)
    exact (onward_ceilingStep (M := M).mp hxy).2
  rw [ceilingHolder, walk_eq_some_iff hnodes hacyclic (by simp), hstep]
  constructor
  · rintro ⟨y, hy, hanswer⟩
    obtain ⟨rfl, hnode⟩ := ceilingStep_eq_inl_iff.mp hanswer
    exact ⟨hy, hnode⟩
  · rintro ⟨hy, hnode⟩
    exact ⟨holder, hy, ceilingStep_eq_inl_iff.mpr ⟨rfl, hnode⟩⟩

end Covered

section Sums

variable {α : Type*}

variable {amount : α → ℤ} {xs : List α}

theorem foldl_ofInt (p : α → Prop) [DecidablePred p] {value : α → Int64}
    (h : ∀ x ∈ xs, p x → value x = Int64.ofInt (amount x)) (t : ℤ) :
    xs.foldl (fun total x => if p x then total + value x else total) (Int64.ofInt t) =
      Int64.ofInt (t + ((xs.filter fun x => p x).map amount).sum) := by
  induction xs generalizing t with
  | nil => simp
  | cons x xs ih =>
    have hrest := fun y hy => h y (mem_cons_of_mem x hy)
    by_cases hp : p x
    · rw [foldl_cons, if_pos hp, h x mem_cons_self hp, ← Int64.ofInt_add, ih hrest,
        filter_cons_of_pos (by simpa using hp), map_cons, sum_cons, add_assoc]
    · rw [foldl_cons, if_neg hp, ih hrest, filter_cons_of_neg (by simpa using hp)]

theorem foldlM_ofInt (p : α → Prop) [DecidablePred p] {step : Int64 → α → Option Int64}
    (h : ∀ x ∈ xs, p x → ∀ t, step t x = some (t + Int64.ofInt (amount x)))
    (h' : ∀ x ∈ xs, ¬ p x → ∀ t, step t x = some t) (t : ℤ) : xs.foldlM step (Int64.ofInt t) =
      some (Int64.ofInt (t + ((xs.filter fun x => p x).map amount).sum)) := by
  induction xs generalizing t with
  | nil => simp
  | cons x xs ih =>
    have hrest := fun y hy => h y (mem_cons_of_mem x hy)
    have hrest' := fun y hy => h' y (mem_cons_of_mem x hy)
    rw [foldlM_cons]
    by_cases hp : p x
    · rw [h x mem_cons_self hp, ← Int64.ofInt_add,
        filter_cons_of_pos (by simpa using hp), map_cons, sum_cons, ← add_assoc]
      exact ih hrest hrest' _
    · rw [h' x mem_cons_self hp, filter_cons_of_neg (by simpa using hp)]
      exact ih hrest hrest' _

end Sums

section Allocated

variable {M : Measure R} {tree : Tree} {d : Dimension} {namespaces : List NamespaceQuota}

/-- What the asking namespace holds. -/
def held (M : Measure R) (namespaces : List NamespaceQuota) (asking : String) (d : Dimension) : ℤ :=
  ((namespaces.filter fun ns => ns.namespace_ = asking).map fun ns =>
    amountOf M (d.charge ns)).sum

theorem heldBy_eq {asking : String} (h : ∀ ns ∈ namespaces, ns.namespace_ = asking →
    InRange (amountOf M (d.charge ns))) :
    heldBy R namespaces asking d = Int64.ofInt (held M namespaces asking d) := by
  have hsum := foldl_ofInt (fun ns => ns.namespace_ = asking)
    (fun ns hns hasking => milliOf_eq (h ns hns hasking)) 0
  rw [zero_add] at hsum
  exact hsum

theorem charged_charges (f : String) : Forest.charged (charges M d namespaces) f =
    ((namespaces.filter fun ns => ns.folder = f).map fun ns => amountOf M (d.charge ns)).sum := by
  simp [Forest.charged, charges, filter_map, Function.comp_def]

/-- The charges and ceilings that are added up under a folder are ones that a machine
integer can be. -/
structure Reads (M : Measure R) (h : tree.Acyclic) (namespaces : List NamespaceQuota)
    (d : Dimension) (f : String) : Prop where
  charges : ∀ ns ∈ namespaces, (Hierarchy.forest h).Exposed (cap M tree d) ns.folder f →
    InRange (amountOf M (d.charge ns))
  ceilings : ∀ g c, (Hierarchy.forest h).Exposed (cap M tree d) g f →
    c ∈ (Hierarchy.forest h).children g → ∀ limit ∈ cap M tree d c, InRange limit

theorem Reads.child {h : tree.Acyclic} {f c : String} (hf : Reads M h namespaces d f)
    (hc : c ∈ (Hierarchy.forest h).children f) (hcap : cap M tree d c = none) :
    Reads M h namespaces d c where
  charges ns hns hexp := hf.charges ns hns (hexp.tail ⟨hcap, hc⟩)
  ceilings g e hexp := hf.ceilings g e (hexp.tail ⟨hcap, hc⟩)

theorem eventually_allocatedUnder (h : tree.Acyclic) {f : String}
    (hreads : Reads M h namespaces d f) :
    ∀ᶠ fuel in Filter.atTop, allocatedUnder R tree namespaces d fuel f =
      some (Int64.ofInt (covered M d h (charges M d namespaces) f)) := by
  induction f using (Hierarchy.forest h).wf.induction with
  | _ f ih =>
    have hall : ∀ᶠ fuel in Filter.atTop, ∀ c ∈ (Hierarchy.forest h).children f,
        cap M tree d c = none → allocatedUnder R tree namespaces d fuel c =
          some (Int64.ofInt (covered M d h (charges M d namespaces) c)) := by
      refine (Filter.eventually_all_finset _).mpr fun c hc => ?_
      by_cases hcap : cap M tree d c = none
      · exact (ih c hc (hreads.child hc hcap)).mono fun _ hfuel _ => hfuel
      · exact Filter.Eventually.of_forall fun _ hnone => absurd hnone hcap
    obtain ⟨n, hn⟩ := Filter.eventually_atTop.mp hall
    refine Filter.eventually_atTop.mpr ⟨n + 1, fun fuel hfuel => ?_⟩
    obtain ⟨fuel, rfl⟩ : ∃ m, fuel = m + 1 := ⟨fuel - 1, by omega⟩
    have hown := foldl_ofInt (fun ns => ns.folder = f) (fun ns hns (hf : ns.folder = f) =>
      milliOf_eq (hreads.charges ns hns (hf ▸ Relation.ReflTransGen.refl))) 0
    rw [zero_add, ← charged_charges] at hown
    have hchildren : tree.childrenOf FolderNode.above f =
        tree.nodes.filter fun e => e.2.parent = f :=
      filter_congr fun e _ => by simp [FolderNode.above]
    rw [allocatedUnder, covered, Forest.reserved_eq, Hierarchy.sum_forest_children, hchildren]
    refine (congrArg (fun t => List.foldlM _ t tree.nodes) hown).trans
      (foldlM_ofInt (fun e : String × FolderNode => e.2.parent = f) ?_ ?_ _)
    · intro e he hparent t
      have hnode : tree.node e.1 = some e.2 := tree.node_eq_some_iff.mpr he
      have hchild : e.1 ∈ (Hierarchy.forest h).children f :=
        Hierarchy.mem_forest_children.mpr ⟨e.2, hnode, congrArg some hparent⟩
      rw [if_neg (not_not_intro hparent), cap_of_node hnode]
      by_cases hraw : d.of e.2.ceiling = ""
      · have hcap : cap M tree d e.1 = none := by rw [cap_of_node hnode, if_pos hraw]
        rw [if_neg (not_not_intro hraw), hn fuel (by omega) e.1 hchild hcap, if_pos hraw]
        rfl
      · have hlimit : InRange (amountOf M (d.of e.2.ceiling)) :=
          hreads.ceilings f e.1 Relation.ReflTransGen.refl hchild _
            (by rw [cap_of_node hnode, if_neg hraw]; rfl)
        rw [if_pos hraw, if_neg hraw, milliOf_eq hlimit]
        rfl
    · intro e _ hparent t
      rw [if_pos hparent]

end Allocated

end Tenant
