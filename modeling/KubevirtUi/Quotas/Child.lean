import KubevirtUi.Quotas.Headroom

/-!
# Whether a sub-folder's quota fits

In each dimension a sub-folder's quota is held against a ceiling above. The climb begins at the
parent in the first dimension, and in any other where the last one has ended. What the ceiling
covers already is counted without what the sub-folder has declared, but with what is below it, where
it has declared nothing.
-/

namespace Quotas

open Folders (Data Failure FolderQuota Meta given parseAllFolders)
open Option hiding map_map filter_map mem_map
open Interference List
open Tenant (Dimension dimensions)

variable {α : Type} {holder parent name childName : String} {want : α} {quota : FolderQuota}
  {d : Dimension} {folders : Data} {w : World} {keep : Dimension → Bool}

section Loop

variable (A : Arithmetic α) (folders : Data) (w : World) (childName : String) (quota : FolderQuota)

/-- Where the climb begins after a dimension. -/
def climbed (name : String) (d : Dimension) : String :=
  match limitOf A quota d with
  | none => name
  | some _ => ((ceilingHolder A folders name d).map Prod.fst).getD name

/-- There is a ceiling at or above this folder that has no room in the dimension. -/
def LacksChild (name : String) (d : Dimension) : Prop :=
  ∃ want ∈ limitOf A quota d, ∃ found ∈ ceilingHolder A folders name d,
    ∃ allocated ∈ w.allocated A folders (depthOf folders) found.1,
      (shortageChild A folders childName allocated d found.1 found.2 want).isSome

instance (name : String) (d : Dimension) :
    Decidable (LacksChild A folders w childName quota name d) := by
  unfold LacksChild
  infer_instance

/-- One of the dimensions has no room, where the climb has come to. -/
def FallsShort : String → List Dimension → Prop
  | _, [] => False
  | name, d :: ds =>
    LacksChild A folders w childName quota name d ∨ FallsShort (climbed A folders quota name d) ds

/-- A sub-folder's quota is refused. -/
def RefusedChild : Prop :=
  ∃ s : Shortage α, answerOf (assertChildFolderWithinParent A folders childName quota) w =
    .error (.http 409 (s.childText A childName))

/-- What has been computed is what is covered. -/
def Remembered (allocations : List (String × Amounts α)) : Prop :=
  ∀ holder allocated, allocations.lookup holder = some allocated →
    w.allocated A folders (depthOf folders) holder = some allocated

variable {A folders w childName quota}

variable {allocations allocations' : List (String × Amounts α)}

theorem Remembered.allocated (hknown : Remembered A folders w allocations)
    (h : (allocations.lookup holder).isSome) :
    w.allocated A folders (depthOf folders) holder = some (allocationOf A allocations holder) := by
  obtain ⟨known, hlookup⟩ := isSome_iff_exists.mp h
  rw [allocationOf, hlookup, hknown holder known hlookup, getD_some]

/-- What is computed for one more ceiling is remembered, and all that was. -/
theorem Remembered.withAllocation (hknown : Remembered A folders w allocations)
    (h : w.withAllocation A folders allocations holder = some allocations') :
    Remembered A folders w allocations' ∧ (allocations'.lookup holder).isSome ∧
      ∀ name, (allocations.lookup name).isSome → (allocations'.lookup name).isSome := by
  rw [World.withAllocation] at h
  split at h
  · next hsome =>
      cases h
      exact ⟨hknown, hsome, fun _ => id⟩
  · obtain ⟨allocated, hallocated, rfl⟩ := map_eq_some_iff.mp h
    refine ⟨fun name known hname => ?_, ?_, fun name hname => ?_⟩
    · rw [lookup_append] at hname
      cases hbefore : allocations.lookup name with
      | some before =>
        rw [hbefore] at hname
        cases hname
        exact hknown name known hbefore
      | none =>
        rw [hbefore, none_or, lookup_cons] at hname
        split at hname
        · next heq =>
            cases hname
            rw [eq_of_beq heq, hallocated]
        · cases hname
    · simp [lookup_append]
    · rw [lookup_append, isSome_or, hname, Bool.true_or]

theorem comes_remembered (hall : ∀ name, (w.allocated A folders (depthOf folders) name).isSome)
    (hknown : Remembered A folders w allocations) (holder : String) :
    ∃ allocations', Comes (withAllocation A folders allocations holder) w (.ok allocations') w ∧
      Remembered A folders w allocations' ∧
      w.allocated A folders (depthOf folders) holder =
      some (allocationOf A allocations' holder) := by
  obtain ⟨allocated, hallocated⟩ := isSome_iff_exists.mp (hall holder)
  have hcomes : Comes (withAllocation A folders allocations holder) w _ w :=
    comes_withAllocation allocations holder
  have hsome : (w.withAllocation A folders allocations holder).isSome := by
    rw [World.withAllocation, hallocated]
    split <;> rfl
  obtain ⟨allocations', hresult⟩ := isSome_iff_exists.mp hsome
  obtain ⟨hknown', hholder, -⟩ := hknown.withAllocation hresult
  rw [hresult] at hcomes
  exact ⟨allocations', hcomes, hknown', hknown'.allocated hholder⟩

section

variable (hall : ∀ name, (w.allocated A folders (depthOf folders) name).isSome)

include hall

theorem comes_checkChild {allocations : List (String × Amounts α)}
    (hknown : Remembered A folders w allocations) (name : String) (d : Dimension) :
    (LacksChild A folders w childName quota name d → ∃ s : Shortage α,
      Comes (checkChild A folders childName quota (name, allocations) d) w
        (.error (.http 409 (s.childText A childName))) w) ∧
    (¬LacksChild A folders w childName quota name d → ∃ allocations',
      Remembered A folders w allocations' ∧
      Comes (checkChild A folders childName quota (name, allocations) d) w
        (.ok (climbed A folders quota name d, allocations')) w) := by
  rw [checkChild, climbed]
  cases hwant : limitOf A quota d with
  | none =>
    refine ⟨fun h => ?_, fun _ => ⟨allocations, hknown, .pure⟩⟩
    obtain ⟨want, hmem, -⟩ := h
    rw [hwant] at hmem
    cases hmem
  | some want =>
    dsimp only
    cases hholder : ceilingHolder A folders name d with
    | none =>
      refine ⟨fun h => ?_, fun _ => ⟨allocations, hknown, .pure⟩⟩
      obtain ⟨-, -, found, hmem, -⟩ := h
      rw [hholder] at hmem
      cases hmem
    | some found =>
      obtain ⟨holder, limit⟩ := found
      obtain ⟨allocations', hcomes, hknown', hallocated⟩ :=
        comes_remembered hall hknown holder
      have hlacks : LacksChild A folders w childName quota name d ↔
          (shortageChild A folders childName (allocationOf A allocations' holder) d holder
            limit want).isSome := by
        simp [LacksChild, hwant, hholder, hallocated]
      rw [hlacks]
      cases hshort : shortageChild A folders childName (allocationOf A allocations' holder) d
          holder limit want with
      | none =>
        refine ⟨fun h => (by cases h), fun _ => ⟨allocations', hknown', hcomes.bind ?_⟩⟩
        rw [hshort]
        exact .pure
      | some s =>
        refine ⟨fun _ => ⟨s, hcomes.bind ?_⟩, fun h => absurd rfl h⟩
        rw [hshort]
        exact .throw

theorem comes_checkChildren {allocations : List (String × Amounts α)}
    (hknown : Remembered A folders w allocations) (name : String) (ds : List Dimension) :
    (FallsShort A folders w childName quota name ds → ∃ s : Shortage α,
      Comes (ds.foldlM (checkChild A folders childName quota) (name, allocations)) w
        (.error (.http 409 (s.childText A childName))) w) ∧
    (¬FallsShort A folders w childName quota name ds → ∃ state,
      Comes (ds.foldlM (checkChild A folders childName quota) (name, allocations)) w
        (.ok state) w) := by
  induction ds generalizing name allocations with
  | nil => exact ⟨fun h => h.elim, fun _ => ⟨_, .pure⟩⟩
  | cons d ds ih =>
    obtain ⟨hlacks, hroom⟩ := @comes_checkChild _ _ _ _ childName quota hall _ hknown name d
    rw [FallsShort, foldlM_cons]
    by_cases h : LacksChild A folders w childName quota name d
    · obtain ⟨s, hs⟩ := hlacks h
      exact ⟨fun _ => ⟨s, hs.bind_error⟩, fun hnot => absurd (.inl h) hnot⟩
    · obtain ⟨allocations', hknown', hcomes⟩ := hroom h
      obtain ⟨hlater, hfine⟩ := ih hknown' (climbed A folders quota name d)
      constructor
      · intro hshort
        obtain ⟨s, hs⟩ := hlater (hshort.resolve_left h)
        exact ⟨s, hcomes.bind hs⟩
      · intro hnot
        obtain ⟨state, hstate⟩ := hfine fun hshort => hnot (.inr hshort)
        exact ⟨state, hcomes.bind hstate⟩

theorem refusedChild_iff
    (hparent : given (((parseAllFolders folders).node childName).bind Meta.parentId) = some parent)
    (hthere : ((parseAllFolders folders).node parent).isSome) :
    RefusedChild A folders w childName quota ↔
      FallsShort A folders w childName quota parent dimensions := by
  have hknown : Remembered A folders w ([] : List (String × Amounts α)) := by
    intro holder allocated hlookup
    cases hlookup
  obtain ⟨hshort, hfine⟩ := @comes_checkChildren _ _ _ _ childName quota hall _ hknown parent
    dimensions
  have hnone : ¬((parseAllFolders folders).node parent).isNone := by
    rw [isNone_iff_eq_none]
    exact isSome_iff_ne_none.mp hthere
  by_cases hquota : quota = noQuota
  · have hgiven : quota.given = none := if_pos hquota
    have hno (name : String) (d : Dimension) : ¬LacksChild A folders w childName quota name d := by
      rintro ⟨want, hwant, -⟩
      rw [hquota] at hwant
      cases d <;> cases hwant
    have hpass : Comes (assertChildFolderWithinParent A folders childName quota) w (.ok ()) w := by
      rw [assertChildFolderWithinParent, hparent]
      dsimp only
      rw [if_neg hnone, hgiven]
      exact .pure
    rw [RefusedChild, hpass.answerOf]
    simp [dimensions, FallsShort, hno]
  · have hgiven : quota.given = some quota := if_neg hquota
    have hloop {x : Except Failure Unit} (hx : Comes (do
        let _ ← dimensions.foldlM (checkChild A folders childName quota) (parent, [])) w x w) :
        Comes (assertChildFolderWithinParent A folders childName quota) w x w := by
      rw [assertChildFolderWithinParent, hparent]
      dsimp only
      rw [if_neg hnone, hgiven]
      exact hx
    constructor
    · rintro ⟨s, hs⟩
      by_contra hnot
      obtain ⟨state, hstate⟩ := hfine hnot
      have hpass := hloop (hstate.bind .pure)
      rw [hpass.answerOf] at hs
      cases hs
    · intro h
      obtain ⟨s, hs⟩ := hshort h
      exact ⟨s, Comes.answerOf (hloop hs.bind_error)⟩

end

end Loop

/-- The folders with the new quota in place of the child's old one. -/
def withChildQuota (folders : Data) (childName : String) (quota : FolderQuota) : Data where
  entries := folders.entries.map fun e =>
    if e.1 = childName then ⟨e.1, some { e.2.getD {} with quota := some quota }⟩ else e
  nodupKeys := by
    have hkeys : (Sigma.fst ∘ fun e : (_ : String) × Option Meta =>
        if e.1 = childName then ⟨e.1, some { e.2.getD {} with quota := some quota }⟩ else e) =
          Sigma.fst := by
      funext e
      simp only [Function.comp_apply]
      split <;> rfl
    rw [List.NodupKeys, List.keys, map_map, hkeys]
    exact folders.nodupKeys

/-- With the new quota in place, the nearest ceiling covers more than it is. -/
def Overruns {α : Type} (A : Arithmetic α) (folders : Data) (w : World) (childName : String)
    (quota : FolderQuota) (parent : String) (d : Dimension) : Prop :=
  ∃ found ∈ ceilingHolder A folders parent d,
    ∃ allocated ∈ w.allocated A (withChildQuota folders childName quota)
      (depthOf (withChildQuota folders childName quota)) found.1,
      A.lt found.2 (allocated.get d)

instance {α : Type} (A : Arithmetic α) (folders : Data) (w : World) (childName : String)
    (quota : FolderQuota) (parent : String) (d : Dimension) :
    Decidable (Overruns A folders w childName quota parent d) := by
  unfold Overruns
  infer_instance

section Covered

variable {A : Arithmetic α} {folders' : Data}

/-- What a folder caps. -/
def capOf (A : Arithmetic α) (folders : Data) (d : Dimension) (name : String) : Option α :=
  limitOf A (ceilingOf folders name) d

/-- What a folder's ceiling covers in one dimension. -/
def World.covered (A : Arithmetic α) (folders : Data) (w : World) (d : Dimension) :
    Nat → String → α
  | 0, name => (w.own A name).get d
  | depth + 1, name =>
    (Folders.childrenIndex (parseAllFolders folders) name).foldl
      (fun total child => A.add total
        ((capOf A folders d child).getD (covered A folders w d depth child)))
      ((w.own A name).get d)

theorem foldlM_some {β ι : Type} {step : β → ι → Option β} {next : β → ι → β} {xs : List ι}
    (h : ∀ x ∈ xs, ∀ b, step b x = some (next b x)) (b : β) :
    xs.foldlM step b = some (xs.foldl next b) := by
  induction xs generalizing b with
  | nil => rfl
  | cons x xs ih =>
    rw [foldlM_cons, h x mem_cons_self]
    exact ih (fun y hy => h y (mem_cons_of_mem x hy)) _

/-- A sum for each dimension is the sums, each in its dimension. -/
theorem foldl_of (amount : Dimension → String → α) (xs : List String) (totals : Amounts α) :
    xs.foldl (fun totals x => .of fun d => A.add (totals.get d) (amount d x)) totals =
      .of fun d => xs.foldl (fun total x => A.add total (amount d x)) (totals.get d) := by
  induction xs generalizing totals with
  | nil => exact Amounts.ext_get fun d => (Amounts.get_of _ d).symm
  | cons x xs ih =>
    rw [foldl_cons, ih]
    simp only [Amounts.get_of, foldl_cons]

theorem isSome_of_not_undeclared (h : ¬Undeclared A folders name) (d : Dimension) :
    (limitOf A (ceilingOf folders name) d).isSome := by
  simp only [Undeclared, dimensions, any_cons, any_nil, Bool.or_false, Bool.or_eq_true,
    isNone_iff_eq_none, not_or] at h
  obtain ⟨hcpu, hmemory, hstorage⟩ := h
  cases d with
  | cpu => exact isSome_iff_ne_none.mpr hcpu
  | memory => exact isSome_iff_ne_none.mpr hmemory
  | storage => exact isSome_iff_ne_none.mpr hstorage

/-- Each dimension is counted on its own, deep enough below. -/
theorem allocated_eq (h : folders.Acyclic) {depth : Nat}
    (hdepth : ((parseAllFolders folders).below Meta.parentId name).card ≤ depth) :
    w.allocated A folders (depth + 1) name =
      some (.of fun d => w.covered A folders d (depth + 1) name) := by
  induction depth using Nat.strong_induction_on generalizing name with
  | h depth ih =>
    have hstep (child : String)
        (hchild : child ∈ Folders.childrenIndex (parseAllFolders folders) name)
        (totals : Amounts α) :
        (if Undeclared A folders child then
          (w.allocated A folders depth child).map fun nested =>
            addChild A (limitOf A (ceilingOf folders child)) (fun d => some (nested.get d)) totals
        else some (addChild A (limitOf A (ceilingOf folders child)) (fun _ => none) totals)) =
          some (.of fun d => A.add (totals.get d)
            ((capOf A folders d child).getD (w.covered A folders d depth child))) := by
      have hbelow := Hierarchy.card_below_lt h (Folders.mem_childrenIndex.mp hchild)
      split
      · obtain ⟨depth, rfl⟩ : ∃ n, depth = n + 1 := ⟨depth - 1, by omega⟩
        rw [ih depth (Nat.lt_succ_self depth) (by omega), map_some]
        simp only [addChild, Amounts.get_of, getD_some]
        rfl
      · next hdeclared =>
          refine congrArg some (Amounts.ext_get fun d => ?_)
          obtain ⟨limit, hlimit⟩ :=
            isSome_iff_exists.mp (isSome_of_not_undeclared hdeclared d)
          simp [addChild, capOf, hlimit]
    rw [World.allocated, foldlM_some hstep, foldl_of]
    rfl

theorem allocated_depthOf (h : folders.Acyclic) (name : String) :
    w.allocated A folders (depthOf folders) name =
      some (.of fun d => w.covered A folders d (depthOf folders) name) := by
  have hle : ((parseAllFolders folders).below Meta.parentId name).card ≤
      (parseAllFolders folders).nodes.length := Hierarchy.card_below_le name
  have hlength : (parseAllFolders folders).nodes.length = folders.entries.length := by
    simp [parseAllFolders]
  exact allocated_eq h (hlength ▸ hle)

/-- What is covered depends on the tree and on what is capped in the dimension. -/
theorem covered_congr (hchildren : ∀ f, Folders.childrenIndex (parseAllFolders folders') f =
      Folders.childrenIndex (parseAllFolders folders) f)
    (hcaps : ∀ name, capOf A folders' d name = capOf A folders d name) (depth : Nat)
    (name : String) : w.covered A folders' d depth name = w.covered A folders d depth name := by
  induction depth generalizing name with
  | zero => rfl
  | succ depth ih => simp only [World.covered, hchildren, hcaps, ih]

theorem nodes_withChildQuota : (parseAllFolders (withChildQuota folders childName quota)).nodes =
    (parseAllFolders folders).nodes.map fun e =>
      if e.1 = childName then (e.1, { e.2 with quota := some quota }) else e := by
  simp only [parseAllFolders, withChildQuota, map_map]
  refine map_congr_left fun e _ => ?_
  simp only [Function.comp_apply]
  split <;> rfl

theorem childrenIndex_withChildQuota (f : String) :
    Folders.childrenIndex (parseAllFolders (withChildQuota folders childName quota)) f =
      Folders.childrenIndex (parseAllFolders folders) f := by
  rw [Folders.childrenIndex, Folders.childrenIndex, Hierarchy.childrenOf, Hierarchy.childrenOf,
    nodes_withChildQuota, filter_map, map_map]
  have hparent : (fun e : String × Meta => decide (e.2.parentId = some f)) ∘
      (fun e => if e.1 = childName then (e.1, { e.2 with quota := some quota }) else e) =
        fun e => decide (e.2.parentId = some f) := by
    funext e
    simp only [Function.comp_apply]
    split <;> rfl
  rw [hparent]
  refine map_congr_left fun e _ => ?_
  simp only [Function.comp_apply]
  split <;> rfl

theorem child_withChildQuota {x y : String} :
    (withChildQuota folders childName quota).Child x y ↔ folders.Child x y := by
  rw [Data.Child, Data.Child, ← Folders.mem_childrenIndex, ← Folders.mem_childrenIndex,
    childrenIndex_withChildQuota]

theorem acyclic_withChildQuota (childName : String) (quota : FolderQuota) (h : folders.Acyclic) :
    (withChildQuota folders childName quota).Acyclic := fun x hx =>
  h x (Relation.TransGen.mono (fun _ _ => child_withChildQuota.mp) _ _ hx)

theorem node_withChildQuota (name : String) :
    (parseAllFolders (withChildQuota folders childName quota)).node name =
      ((parseAllFolders folders).node name).map fun info =>
        if name = childName then { info with quota := some quota } else info := by
  refine Option.ext fun info => ?_
  rw [Hierarchy.node_eq_some_iff, nodes_withChildQuota, mem_map, map_eq_some_iff]
  constructor
  · rintro ⟨⟨other, found⟩, hfound, hinfo⟩
    have hnode := ((parseAllFolders folders).node_eq_some_iff).mpr hfound
    by_cases hname : other = childName
    · rw [if_pos hname, Prod.mk.injEq] at hinfo
      obtain ⟨rfl, rfl⟩ := hinfo
      exact ⟨found, hnode, if_pos hname⟩
    · rw [if_neg hname, Prod.mk.injEq] at hinfo
      obtain ⟨rfl, rfl⟩ := hinfo
      exact ⟨found, hnode, if_neg hname⟩
  · rintro ⟨found, hfound, rfl⟩
    refine ⟨(name, found), ((parseAllFolders folders).node_eq_some_iff).mp hfound, ?_⟩
    split <;> rfl

theorem ceilingOf_withChildQuota (hchild : ((parseAllFolders folders).node childName).isSome)
    (name : String) : ceilingOf (withChildQuota folders childName quota) name =
      if name = childName then quota else ceilingOf folders name := by
  rw [ceilingOf, ceilingOf, node_withChildQuota]
  by_cases hname : name = childName
  · obtain ⟨info, hinfo⟩ := isSome_iff_exists.mp hchild
    rw [hname, hinfo, if_pos rfl, map_some, if_pos rfl]
    rfl
  · simp [hname]

/-- Nothing is capped between a folder and its nearest ceiling. -/
theorem exposed_of_ceilingHolder (h : folders.Acyclic) {limit : α} {cap : String → Option ℚ}
    (hcap : ∀ x, capOf A folders d x = none → cap x = none)
    (hholder : ceilingHolder A folders name d = some (holder, limit)) :
    (Hierarchy.forest h).Exposed cap name holder := by
  have hup {x y : String} (hxy : Onward (ceilingStep A folders d) x y) :
      cap x = none ∧ folders.Child x y := by
    rw [Onward, ceilingStep] at hxy
    split at hxy
    · cases hxy
    · split at hxy
      · cases hxy
      · next hlimit =>
          obtain ⟨up, hup, hy⟩ := map_eq_some_iff.mp hxy
          obtain ⟨info, hinfo, hparent⟩ := bind_eq_some_iff.mp hup
          cases hy
          exact ⟨hcap x hlimit, info, hinfo, hparent⟩
  have hacyclic (x : String) : ¬Relation.TransGen (Onward (ceilingStep A folders d)) x x := by
    intro hx
    exact h x (Relation.TransGen.mono (fun _ _ hxy => (hup hxy).2) _ _ hx)
  rw [ceilingHolder, walk_eq_some_iff (fun _ _ hxy => (hup hxy).2.mem) hacyclic
    (by simp only [depthOf, parseAllFolders, length_map]; omega)] at hholder
  obtain ⟨y, hy, hanswer⟩ := hholder
  obtain rfl : y = holder := by
    rw [ceilingStep] at hanswer
    split at hanswer
    · cases hanswer
    · split at hanswer
      · cases hanswer
        rfl
      · obtain ⟨up, -, hy⟩ := map_eq_some_iff.mp hanswer
        cases hy
  refine Relation.ReflTransGen.mono (fun x y hxy => ?_) _ _ hy
  exact ⟨(hup hxy).1, Hierarchy.mem_forest_children.mpr (hup hxy).2⟩

/-- What is taken for free under a ceiling. -/
def freeFor (A : Arithmetic α) (folders : Data) (w : World) (childName : String) (d : Dimension)
    (found : String × α) : α :=
  A.sub found.2 (subGiven A (w.covered A folders d (depthOf folders) found.1)
    (capOf A folders d childName))

/-- What a folder covers with the new quota in place. -/
def renewed (A : Arithmetic α) (folders : Data) (w : World) (childName : String)
    (quota : FolderQuota) (d : Dimension) (name : String) : α :=
  w.covered A (withChildQuota folders childName quota) d
    (depthOf (withChildQuota folders childName quota)) name

end Covered

/-- What is computed with stands for numbers, as far as it is any, and is compared as such. -/
structure Arithmetic.Numbers (A : Arithmetic α) where
  number : α → Option ℚ
  lt_iff : ∀ {x y p q}, number x = some p → number y = some q → (A.lt x y ↔ p < q)

namespace Arithmetic.Numbers

variable {A : Arithmetic α} (N : A.Numbers) (w : World) (h : folders.Acyclic) (childName : String)
  (quota : FolderQuota) (d : Dimension)

def value (x : α) : ℚ := (N.number x).getD 0

def cap (folders : Data) (name : String) : Option ℚ := (capOf A folders d name).map N.value

/-- What a folder answers for. Only what each has itself is rounded. -/
noncomputable def reserved : String → ℚ :=
  (Hierarchy.forest h).reserved (N.cap d folders) fun name => N.value ((w.own A name).get d)

/-- What is left of a ceiling without what the child has declared. -/
noncomputable def left (found : String × α) : ℚ :=
  N.value found.2 - (N.reserved w h d found.1 - (N.cap d folders childName).getD 0)

noncomputable def excess (want : α) (found : String × α) : ℚ :=
  N.value want - N.left w h childName d found

/-- What is below a child that has declared nothing. -/
noncomputable def undeclared : ℚ :=
  if (N.cap d folders childName).isSome then 0 else N.reserved w h d childName

/-- What is let in beyond what is left: the tolerance, and what rounding makes of what is free. -/
noncomputable def leeway (found : String × α) : ℚ :=
  N.value (A.add (freeFor A folders w childName d found) A.tolerance) - N.left w h childName d found

/-- What rounding adds to what is covered with the new quota in place. -/
noncomputable def rounding (found : String × α) : ℚ :=
  N.value (renewed A folders w childName quota d found.1) -
    N.reserved w (acyclic_withChildQuota childName quota h) d found.1

variable {w h childName quota d}

theorem lt_iff_value {x y : α} (hx : (N.number x).isSome) (hy : (N.number y).isSome) :
    A.lt x y ↔ N.value x < N.value y := by
  obtain ⟨p, hp⟩ := isSome_iff_exists.mp hx
  obtain ⟨q, hq⟩ := isSome_iff_exists.mp hy
  rw [N.lt_iff hp hq, value, value, hp, hq, getD_some, getD_some]

/-- A ceiling answers for what it did, with the new quota in place of what the child stood for. -/
theorem reserved_withChildQuota (hparent : folders.Child childName parent)
    (hwant : limitOf A quota d = some want)
    (hexposed : (Hierarchy.forest h).Exposed (N.cap d folders) parent name) :
    N.reserved w (acyclic_withChildQuota childName quota h) d name =
      N.reserved w h d name + (N.value want -
        (N.cap d folders childName).getD (N.reserved w h d childName)) := by
  have hchild : ((parseAllFolders folders).node childName).isSome := by
    obtain ⟨info, hinfo, -⟩ := hparent
    rw [hinfo]
    rfl
  have hforest : Hierarchy.forest (acyclic_withChildQuota childName quota h) =
      Hierarchy.forest h := by
    refine Forest.eq_of_children (funext fun f => ?_)
    ext c
    exact Hierarchy.mem_forest_children.trans
      (child_withChildQuota.trans Hierarchy.mem_forest_children.symm)
  have hother (y : String) (hy : y ≠ childName) :
      N.cap d (withChildQuota folders childName quota) y = N.cap d folders y := by
    rw [cap, cap, capOf, capOf, ceilingOf_withChildQuota hchild, if_neg hy]
  have hself : N.cap d (withChildQuota folders childName quota) childName =
      some (N.value want) := by
    rw [cap, capOf, ceilingOf_withChildQuota hchild, if_pos rfl, hwant, map_some]
  have hrecap := @Forest.reserved_recap _ _ (Hierarchy.forest h) _ _ _
    (fun name => N.value ((w.own A name).get d)) _ _ hother
    (Hierarchy.mem_forest_children.mpr hparent) name
  rw [if_pos hexposed, hself, getD_some] at hrecap
  rw [reserved, reserved, hforest]
  exact hrecap

end Arithmetic.Numbers

/-- What doubles stand for. -/
noncomputable def floatNumbers : floats.Numbers where
  number x := Floating.number x.toModel.unpack
  lt_iff hx hy := by
    refine decide_eq_true_iff.trans (Floating.float_lt_iff.trans ?_)
    simp [Floating.extended, Floating.value_of_number hx, Floating.value_of_number hy,
      Floating.strictMono_ofNumber.lt_iff_lt]

/-- The dimensions that are looked at before. -/
def before : Dimension → List Dimension
  | .cpu => []
  | .memory => [.cpu]
  | .storage => [.cpu, .memory]

/-- A quota of which some dimensions are named, and the others are not. -/
def only (keep : Dimension → Bool) (quota : FolderQuota) : FolderQuota :=
  ⟨if keep .cpu then quota.cpu else none, if keep .memory then quota.memory else none,
    if keep .storage then quota.storage else none⟩

/-- Whichever of its dimensions are named, the quota is refused exactly if it does not fit in one
of them. -/
def RefusedRightly {α : Type} (A : Arithmetic α) (folders : Data) (w : World) (childName : String)
    (quota : FolderQuota) (parent : String) : Prop :=
  ∀ keep, RefusedChild A folders w childName (only keep quota) ↔
    ∃ d, (limitOf A (only keep quota) d).isSome ∧
      Overruns A folders w childName (only keep quota) parent d

/-- Where the climb begins in a dimension. -/
def climbedTo {α : Type} (A : Arithmetic α) (folders : Data) (quota : FolderQuota)
    (parent : String) (d : Dimension) : String :=
  (before d).foldl (climbed A folders quota) parent

section Agreement

variable {A : Arithmetic α} (N : A.Numbers) (w : World) (h : folders.Acyclic) (childName : String)
  (quota : FolderQuota) (parent name : String) (d : Dimension) (want : α)

/-- What is compared are numbers. -/
def AreNumbers (folders : Data) : Prop :=
  (N.number want).isSome ∧
  (∀ found ∈ ceilingHolder A folders name d,
    (N.number (A.add (freeFor A folders w childName d found) A.tolerance)).isSome) ∧
  ∀ found ∈ ceilingHolder A folders parent d, (N.number found.2).isSome ∧
    (N.number (renewed A folders w childName quota d found.1)).isSome

/-- Where the climb has come to, what is asked for exceeds what is left by more than is let in, if
at the parent's ceiling it does by more than is below the child and what rounding takes from that,
and not otherwise. -/
def Agrees : Prop :=
  (AreNumbers N w childName quota parent name d want folders →
    ((∃ found ∈ ceilingHolder A folders name d,
        N.leeway w h childName d found < N.excess w h childName d want found) ↔
      ∃ found ∈ ceilingHolder A folders parent d,
        N.undeclared w h childName d - N.rounding w h childName quota d found <
          N.excess w h childName d want found)) ∧
  (¬AreNumbers N w childName quota parent name d want folders →
    (LacksChild A folders w childName quota name d ↔
      Overruns A folders w childName quota parent d))

end Agreement

section Dimensions

variable {A : Arithmetic α} {keep' : Dimension → Bool}

theorem limitOf_only (d : Dimension) :
    limitOf A (only keep quota) d = if keep d then limitOf A quota d else none := by
  cases d with
  | cpu | memory | storage =>
    simp only [limitOf, limitText, only]
    split <;> rfl

/-- Whether a dimension is named has nothing to do with the others. -/
theorem overruns_only (h : folders.Acyclic)
    (hchild : ((parseAllFolders folders).node childName).isSome) (hkeep : keep d) :
    Overruns A folders w childName (only keep quota) parent d ↔
      Overruns A folders w childName quota parent d := by
  have hcaps (name : String) : capOf A (withChildQuota folders childName (only keep quota)) d name =
      capOf A (withChildQuota folders childName quota) d name := by
    rw [capOf, capOf, ceilingOf_withChildQuota hchild, ceilingOf_withChildQuota hchild]
    split
    · rw [limitOf_only, if_pos hkeep]
    · rfl
  have hdepth : depthOf (withChildQuota folders childName (only keep quota)) =
      depthOf (withChildQuota folders childName quota) := by
    simp [depthOf, withChildQuota]
  simp only [Overruns, allocated_depthOf (acyclic_withChildQuota _ _ h), mem_def,
    some.injEq, exists_eq_left', Amounts.get_of]
  refine exists_congr fun found => and_congr_right fun _ => ?_
  rw [hdepth, covered_congr (fun f => ?_) hcaps]
  rw [childrenIndex_withChildQuota, childrenIndex_withChildQuota]

theorem fallsShort_dimensions : FallsShort A folders w childName quota parent dimensions ↔
    ∃ d, LacksChild A folders w childName quota (climbedTo A folders quota parent d) d := by
  simp only [dimensions, FallsShort, or_false]
  constructor
  · rintro (h | h | h)
    · exact ⟨.cpu, h⟩
    · exact ⟨.memory, h⟩
    · exact ⟨.storage, h⟩
  · rintro ⟨d, h⟩
    cases d with
    | cpu => exact .inl h
    | memory => exact .inr (.inl h)
    | storage => exact .inr (.inr h)

theorem climbedTo_congr (h : ∀ e ∈ before d, keep e = keep' e) :
    climbedTo A folders (only keep quota) parent d =
      climbedTo A folders (only keep' quota) parent d := by
  apply foldl_ext
  intro name e he
  rw [climbed, climbed, limitOf_only, limitOf_only, h e he]

theorem lacksChild_congr (h : ∀ e ∈ d :: before d, keep e = keep' e) :
    LacksChild A folders w childName (only keep quota)
        (climbedTo A folders (only keep quota) parent d) d ↔
      LacksChild A folders w childName (only keep' quota)
        (climbedTo A folders (only keep' quota) parent d) d := by
  rw [LacksChild, LacksChild, limitOf_only, limitOf_only, h d mem_cons_self,
    climbedTo_congr fun e he => h e (mem_cons_of_mem d he)]

theorem mem_before_of_mem {e e' : Dimension} (he : e ∈ before d) (he' : e' ∈ e :: before e) :
    e' ∈ before d ∧ e' ≠ d := by
  cases d <;> cases e <;> cases e' <;> simp [before] at he he' ⊢

theorem exists_iff_of_first {P Q : Dimension → Prop}
    (h : ∀ d, (∀ e ∈ before d, ¬Q e) → (P d ↔ Q d)) : (∃ d, P d) ↔ ∃ d, Q d := by
  by_cases hcpu : Q .cpu
  · exact ⟨fun _ => ⟨.cpu, hcpu⟩, fun _ => ⟨.cpu, (h .cpu (by simp [before])).mpr hcpu⟩⟩
  · by_cases hmemory : Q .memory
    · exact ⟨fun _ => ⟨.memory, hmemory⟩,
        fun _ => ⟨.memory, (h .memory (by simp [before, hcpu])).mpr hmemory⟩⟩
    · have hall (d : Dimension) : P d ↔ Q d := by
        apply h
        cases d <;> simp [before, hcpu, hmemory]
      exact exists_congr hall

end Dimensions

section Claim

open Arithmetic.Numbers

variable {A : Arithmetic α}

theorem child_of_given
    (h : given (((parseAllFolders folders).node childName).bind Meta.parentId) = some parent) :
    folders.Child childName parent := by
  cases hup : ((parseAllFolders folders).node childName).bind Meta.parentId with
  | none =>
    rw [hup] at h
    cases h
  | some up =>
    rw [hup, given] at h
    split at h
    · cases h
    · cases h
      obtain ⟨info, hinfo, hparent⟩ := bind_eq_some_iff.mp hup
      exact ⟨info, hinfo, hparent⟩

variable {N : A.Numbers}

theorem lacksChild_iff (h : folders.Acyclic) (hwant : limitOf A quota d = some want)
    (hnumbers : AreNumbers N w childName quota parent name d want folders) :
    LacksChild A folders w childName quota name d ↔ ∃ found ∈ ceilingHolder A folders name d,
      N.leeway w h childName d found < N.excess w h childName d want found := by
  have hshort (found : String × α) (hfound : found ∈ ceilingHolder A folders name d) :
      (∃ allocated ∈ w.allocated A folders (depthOf folders) found.1,
        (shortageChild A folders childName allocated d found.1 found.2 want).isSome) ↔
        N.leeway w h childName d found < N.excess w h childName d want found := by
    have hlt := N.lt_iff_value (hnumbers.2.1 found hfound) hnumbers.1
    rw [leeway, excess, sub_lt_sub_iff_right, ← hlt]
    simp only [allocated_depthOf h, mem_def, some.injEq, exists_eq_left', shortageChild,
      Amounts.get_of, freeFor, capOf]
    split
    · next h => simp [h]
    · next h => simp [h]
  simp only [LacksChild, hwant, mem_def, some.injEq, exists_eq_left']
  exact exists_congr fun found => and_congr_right (hshort found)

/-- What counts is what the ceiling covers with the new quota in place. -/
theorem overruns_iff (h : folders.Acyclic) (hparent : folders.Child childName parent)
    (hwant : limitOf A quota d = some want)
    (hnumbers : AreNumbers N w childName quota parent name d want folders) :
    Overruns A folders w childName quota parent d ↔ ∃ found ∈ ceilingHolder A folders parent d,
      N.undeclared w h childName d - N.rounding w h childName quota d found <
        N.excess w h childName d want found := by
  simp only [Overruns, allocated_depthOf (acyclic_withChildQuota _ _ h), mem_def, some.injEq,
    exists_eq_left', Amounts.get_of]
  refine exists_congr fun found => and_congr_right fun hfound => ?_
  obtain ⟨hlimit, hnew⟩ := hnumbers.2.2 found hfound
  have hexposed : (Hierarchy.forest h).Exposed (N.cap d folders) parent found.1 :=
    exposed_of_ceilingHolder h (fun x hx => by rw [cap, hx, map_none]) hfound
  rw [← renewed, N.lt_iff_value hlimit hnew, rounding,
    reserved_withChildQuota N hparent hwant hexposed, excess, left, undeclared]
  cases N.cap d folders childName with
  | none =>
    simp only [getD_none, isSome_none, Bool.false_eq_true, if_false]
    constructor <;> intro hlt <;> linarith
  | some held =>
    simp only [getD_some, isSome_some, if_true]
    constructor <;> intro hlt <;> linarith

theorem agrees_iff {h : folders.Acyclic} (hparent : folders.Child childName parent)
    (hwant : limitOf A quota d = some want) :
    Agrees N w h childName quota parent name d want ↔
      (LacksChild A folders w childName quota name d ↔
        Overruns A folders w childName quota parent d) := by
  by_cases hnumbers : AreNumbers N w childName quota parent name d want folders
  · rw [lacksChild_iff h hwant hnumbers, overruns_iff h hparent hwant hnumbers]
    simp [Agrees, hnumbers]
  · simp [Agrees, hnumbers]

theorem lacksChild_only_iff : LacksChild A folders w childName (only keep quota) name d ↔
    keep d ∧ LacksChild A folders w childName quota name d := by
  rw [LacksChild, LacksChild, limitOf_only]
  cases keep d <;> simp

theorem overruns_only_iff (h : folders.Acyclic)
    (hchild : ((parseAllFolders folders).node childName).isSome) :
    (limitOf A (only keep quota) d).isSome ∧
        Overruns A folders w childName (only keep quota) parent d ↔
      keep d ∧ (limitOf A quota d).isSome ∧ Overruns A folders w childName quota parent d := by
  rw [limitOf_only]
  cases hkeep : keep d with
  | false => simp
  | true => simp [overruns_only h hchild hkeep]

/-- A folder of four CPUs, and one below that caps nothing, whose environment has three. -/
def roomy : World where
  cluster :=
    { clock := 0
      configMap := some ((∅ : Data).insert "lab" (some { quota := some ⟨some "4", none, none⟩ })
        |>.insert "kid" (some { parentId := some "lab" }))
      namespaces := (∅ : AList fun _ : String => Access.Labels).insert "kid-a"
        { managed := some "true", folder := some "kid", environment := some "a" }
      bindings := ∅
      quotas := (∅ : Access.Placed FolderQuota).insert ("kid-a", "kid-a-quota")
        ⟨some "3", none, none⟩
      log := [] }
  used := ∅

/-- What a folder of four CPUs and 8Gi has promised to one below, which has promised half of that to
one without a quota. -/
def promised : World where
  cluster :=
    { clock := 0
      configMap := some ((∅ : Data)
        |>.insert "lab" (some { quota := some ⟨some "4", some "8Gi", none⟩ })
        |>.insert "kid"
          (some { parentId := some "lab", quota := some ⟨some "2", some "4Gi", none⟩ })
        |>.insert "toy" (some { parentId := some "kid" }))
      namespaces := (∅ : AList fun _ : String => Access.Labels)
        |>.insert "lab-a" { managed := some "true", folder := some "lab", environment := some "a" }
        |>.insert "toy-a" { managed := some "true", folder := some "toy", environment := some "a" }
      bindings := ∅
      quotas := (∅ : Access.Placed FolderQuota)
        |>.insert ("lab-a", "lab-a-quota") ⟨some "1", some "1Gi", none⟩
        |>.insert ("toy-a", "toy-a-quota") ⟨some "1", some "2Gi", none⟩
      log := [] }
  used := ∅

theorem acyclic_promised : promised.folders.Acyclic := by
  apply Hierarchy.acyclic_of_rank fun name =>
    if name = "lab" then 0 else if name = "kid" then 1 else 2
  decide

end Claim

end Quotas
