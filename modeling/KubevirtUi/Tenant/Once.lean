import KubevirtUi.Tenant.Ceiling

/-!
# The ceiling check ends and charges nobody twice

The climb visits no folder twice. The way down from the folder that it ends at guards against
nothing, and parents may form cycles. But that folder is capped, each folder has one parent, and
only folders without a cap are gone through: so no folder is met again on the way down, and none is
met on two ways.
-/

namespace Tenant

open List

variable {Q : Type} (R : Resource Q)

/-- What a sum counts: the quota of a namespace, told by its place in the list, or the ceiling of
a folder. -/
inductive Charge where
  | quota (place : Nat) (ns : NamespaceQuota)
  | ceiling (name : String) (node : FolderNode)
  deriving DecidableEq

/-- What is added for it. -/
def Charge.amount (d : Dimension) : Charge → Int64
  | .quota _ ns => milliOf R (d.charge ns)
  | .ceiling _ node => milliOf R (d.of node.ceiling)

/-- The charges that `allocatedUnder` adds up, one after the other. -/
def chargesUnder (tree : FolderMap) (namespaces : List NamespaceQuota) (d : Dimension) :
    Nat → String → Option (List Charge)
  | 0, _ => none
  | fuel + 1, folder =>
    tree.nodes.foldlM (fun found e =>
      if e.2.parent ≠ folder then some found
      else if d.of e.2.ceiling ≠ "" then some (found ++ [.ceiling e.1 e.2])
      else (chargesUnder tree namespaces d fuel e.1).map (found ++ ·))
      ((namespaces.zipIdx.filter fun ns => ns.1.folder = folder).map fun ns =>
        .quota ns.2 ns.1)

/-- The sum of charges. -/
def total (d : Dimension) (charges : List Charge) : Int64 :=
  charges.foldl (fun sum charge => sum + charge.amount R d) 0

/-- A namespace of the list, or a folder that caps the dimension. -/
def Charge.IsOf (tree : FolderMap) (namespaces : List NamespaceQuota) (d : Dimension) :
    Charge → Prop
  | .quota place ns => namespaces[place]? = some ns
  | .ceiling name node => tree.node name = some node ∧ d.of node.ceiling ≠ ""

variable {tree : FolderMap} {namespaces : List NamespaceQuota} {d : Dimension} {fuel k : Nat}
  {folder top : String} {charges : List Charge}

section Total

variable {R} {more : List Charge}

theorem foldl_amount (sum : Int64) :
    charges.foldl (fun sum charge => sum + charge.amount R d) sum = sum + total R d charges := by
  induction charges generalizing sum with
  | nil => exact (Int64.add_zero sum).symm
  | cons charge charges ih =>
    rw [total, foldl_cons, foldl_cons, ih, ih, Int64.zero_add, Int64.add_assoc]

theorem total_append : total R d (charges ++ more) = total R d charges + total R d more := by
  rw [total, foldl_append, ← total, foldl_amount]

theorem total_singleton {charge : Charge} : total R d [charge] = charge.amount R d :=
  Int64.zero_add _

theorem total_quotas : total R d ((namespaces.zipIdx.filter fun ns => ns.1.folder = folder).map
    fun ns => .quota ns.2 ns.1) = namespaces.foldl (fun sum ns =>
      if ns.folder = folder then sum + milliOf R (d.charge ns) else sum) 0 := by
  rw [total, foldl_map, foldl_filter]
  have hplace (places : List (NamespaceQuota × Nat)) (sum : Int64) :
      places.foldl (fun sum ns => if decide (ns.1.folder = folder) = true then
        sum + (Charge.quota ns.2 ns.1).amount R d else sum) sum =
      (places.map Prod.fst).foldl (fun sum ns =>
        if ns.folder = folder then sum + milliOf R (d.charge ns) else sum) sum := by
    rw [foldl_map]
    simp only [decide_eq_true_eq, Charge.amount]
  rw [hplace, zipIdx_map_fst]

theorem allocatedUnder_eq_map_total : allocatedUnder R tree namespaces d fuel folder =
    (chargesUnder tree namespaces d fuel folder).map (total R d) := by
  induction fuel generalizing folder with
  | zero => rfl
  | succ fuel ih =>
    rw [allocatedUnder, chargesUnder, ← total_quotas]
    generalize ((namespaces.zipIdx.filter fun ns => ns.1.folder = folder).map
      fun ns => Charge.quota ns.2 ns.1) = found
    induction tree.nodes generalizing found with
    | nil => rfl
    | cons e nodes ihNodes =>
      rw [foldlM_cons, foldlM_cons]
      by_cases hparent : e.2.parent ≠ folder
      · rw [if_pos hparent, if_pos hparent]
        exact ihNodes found
      · rw [if_neg hparent, if_neg hparent]
        by_cases hcap : d.of e.2.ceiling ≠ ""
        · rw [if_pos hcap, if_pos hcap]
          have hsum : total R d found + milliOf R (d.of e.2.ceiling) =
              total R d (found ++ [.ceiling e.1 e.2]) := by
            rw [total_append, total_singleton]
            rfl
          rw [hsum]
          exact ihNodes _
        · rw [if_neg hcap, if_neg hcap, ih]
          cases chargesUnder tree namespaces d fuel e.1 with
          | none => rfl
          | some below =>
            have hsum : total R d (found ++ below) = total R d found + total R d below :=
              total_append
            change nodes.foldlM _ (total R d found + total R d below) = _
            rw [← hsum]
            exact ihNodes _

end Total

/-- A folder so many steps below another one, with no cap on the way. -/
inductive Below (tree : FolderMap) (d : Dimension) (top : String) : Nat → String → Prop where
  | top : Below tree d top 0 top
  | step {k : Nat} {folder child : String} {node : FolderNode} :
      Below tree d top k folder → tree.node child = some node → node.parent = folder →
        d.of node.ceiling = "" → Below tree d top (k + 1) child

/-- The folder caps the dimension. -/
def Capped (tree : FolderMap) (d : Dimension) (folder : String) : Prop :=
  ∃ node, tree.node folder = some node ∧ d.of node.ceiling ≠ ""

namespace Below

variable {a b : String} {i j : Nat}

theorem trans (h : Below tree d top k a) (h' : Below tree d a j b) :
    Below tree d top (k + j) b := by
  induction h' with
  | top => exact h
  | step _ hnode hparent hraw ih => exact ih.step hnode hparent hraw

theorem top_unique (h : Below tree d a k folder) (h' : Below tree d b k folder) : a = b := by
  induction k generalizing folder with
  | zero =>
    cases h
    cases h'
    rfl
  | succ k ih =>
    cases h with
    | step h hnode hparent _ =>
      cases h' with
      | step h' hnode' hparent' _ =>
        obtain rfl := Option.mem_unique hnode hnode'
        subst hparent
        subst hparent'
        exact ih h h'

theorem depth_unique (htop : Capped tree d top) (h : Below tree d top i folder)
    (h' : Below tree d top j folder) : i = j := by
  have hcapped {k : Nat} : ¬Below tree d top (k + 1) top := by
    obtain ⟨node, hnode, hraw⟩ := htop
    intro h
    cases h with
    | step _ hnode' _ hraw' =>
      obtain rfl := Option.mem_unique hnode hnode'
      exact hraw hraw'
  induction h generalizing j with
  | top =>
    cases j with
    | zero => rfl
    | succ j => exact absurd h' hcapped
  | step h hnode hparent hraw ih =>
    cases h' with
    | top => exact absurd (h.step hnode hparent hraw) hcapped
    | step h' hnode' hparent' _ =>
      obtain rfl := Option.mem_unique hnode hnode'
      subst hparent
      subst hparent'
      rw [ih h']

theorem exists_way (htop : Capped tree d top) (h : Below tree d top k folder) :
    ∃ way : List String, way.length = k ∧ way.Nodup ∧
      ∀ x ∈ way, x ∈ tree.nodes.map Prod.fst ∧ ∃ i ≤ k, Below tree d top i x := by
  induction h with
  | top => exact ⟨[], rfl, nodup_nil, forall_mem_nil _⟩
  | @step k folder child node h hnode hparent hraw ih =>
    obtain ⟨way, hlength, hnodup, hway⟩ := ih
    have hchild := h.step hnode hparent hraw
    have hnew : child ∉ way := by
      intro hmem
      obtain ⟨-, i, hi, hbelow⟩ := hway child hmem
      have hdepth := depth_unique htop hbelow hchild
      omega
    refine ⟨child :: way, ?_, nodup_cons.mpr ⟨hnew, hnodup⟩, ?_⟩
    · rw [length_cons, hlength]
    · rw [forall_mem_cons]
      refine ⟨⟨?_, k + 1, Nat.le_refl _, hchild⟩, fun x hx => ?_⟩
      · exact mem_map_of_mem (tree.node_eq_some_iff.mp hnode)
      · obtain ⟨hmem, i, hi, hbelow⟩ := hway x hx
        exact ⟨hmem, i, Nat.le_succ_of_le hi, hbelow⟩

theorem le_length (htop : Capped tree d top) (h : Below tree d top k folder) :
    k ≤ tree.nodes.length := by
  obtain ⟨way, rfl, hnodup, hway⟩ := exists_way htop h
  have hle := (subperm_of_subset hnodup fun x hx => (hway x hx).1).length_le
  rwa [length_map] at hle

end Below

section Charges

variable {n : Nat} {e : String × FolderNode} {charge : Charge}

/-- The folder that something is charged to. -/
def Charge.chargedTo : Charge → String
  | .quota _ ns => ns.folder
  | .ceiling _ node => node.parent

/-- Charges under a folder: each is there once, and it is made at the folder or below it. -/
structure Accounts (tree : FolderMap) (namespaces : List NamespaceQuota) (d : Dimension)
    (folder : String) (charges : List Charge) : Prop where
  nodup : charges.Nodup
  isOf : ∀ charge ∈ charges, charge.IsOf tree namespaces d
  below : ∀ charge ∈ charges, ∃ k, Below tree d folder k charge.chargedTo

/-- The folder's own namespaces. -/
def chargesOf (namespaces : List NamespaceQuota) (folder : String) : List Charge :=
  (namespaces.zipIdx.filter fun ns => ns.1.folder = folder).map fun ns => .quota ns.2 ns.1

theorem mem_chargesOf : charge ∈ chargesOf namespaces folder ↔
    ∃ place ns, charge = .quota place ns ∧ namespaces[place]? = some ns ∧ ns.folder = folder := by
  rw [chargesOf, mem_map]
  constructor
  · rintro ⟨⟨ns, place⟩, hmem, rfl⟩
    obtain ⟨hplace, hfolder⟩ := mem_filter.mp hmem
    exact ⟨place, ns, rfl, mem_zipIdx_iff_getElem?.mp hplace, of_decide_eq_true hfolder⟩
  · rintro ⟨place, ns, rfl, hplace, hfolder⟩
    refine ⟨(ns, place), mem_filter.mpr ⟨?_, decide_eq_true hfolder⟩, rfl⟩
    exact mem_zipIdx_iff_getElem?.mpr hplace

theorem accounts_chargesOf : Accounts tree namespaces d folder (chargesOf namespaces folder) where
  nodup := by
    apply List.Nodup.map_on
    · rintro ⟨ns, place⟩ - ⟨other, place'⟩ - hsame
      obtain ⟨rfl, rfl⟩ := Charge.quota.inj hsame
      rfl
    · apply List.Nodup.filter
      apply List.Nodup.of_map Prod.snd
      rw [zipIdx_map_snd]
      exact nodup_range'
  isOf charge h := by
    obtain ⟨place, ns, rfl, hplace, -⟩ := mem_chargesOf.mp h
    exact hplace
  below charge h := by
    obtain ⟨place, ns, rfl, -, rfl⟩ := mem_chargesOf.mp h
    exact ⟨0, .top⟩

/-- What one child adds: its ceiling, or else what is charged under it. -/
def Adds (tree : FolderMap) (namespaces : List NamespaceQuota) (d : Dimension) (folder : String)
    (e : String × FolderNode) (charges : List Charge) : Prop :=
  if e.2.parent ≠ folder then charges = []
  else if d.of e.2.ceiling ≠ "" then charges = [.ceiling e.1 e.2]
  else Accounts tree namespaces d e.1 charges

theorem Adds.accounts (he : e ∈ tree.nodes) (h : Adds tree namespaces d folder e charges) :
    Accounts tree namespaces d folder charges := by
  have hnode := tree.node_eq_some_iff.mpr he
  rw [Adds] at h
  split at h
  · subst h
    exact ⟨nodup_nil, forall_mem_nil _, forall_mem_nil _⟩
  · next hparent =>
    rw [not_not] at hparent
    split at h
    · next hraw =>
      subst h
      refine ⟨nodup_singleton _, forall_mem_singleton.mpr ⟨hnode, hraw⟩,
        forall_mem_singleton.mpr ⟨0, ?_⟩⟩
      rw [Charge.chargedTo, hparent]
      exact .top
    · next hraw =>
      rw [not_not] at hraw
      refine ⟨h.nodup, h.isOf, fun charge hcharge => ?_⟩
      obtain ⟨k, hk⟩ := h.below charge hcharge
      exact ⟨_, (Below.top.step hnode hparent hraw).trans hk⟩

theorem Adds.cases (h : Adds tree namespaces d folder e charges) (hcharge : charge ∈ charges) :
    e.2.parent = folder ∧ (charge = .ceiling e.1 e.2 ∨
      d.of e.2.ceiling = "" ∧ ∃ k, Below tree d e.1 k charge.chargedTo) := by
  rw [Adds] at h
  split at h
  · subst h
    contradiction
  · next hparent =>
    refine ⟨not_not.mp hparent, ?_⟩
    split at h
    · subst h
      exact .inl (mem_singleton.mp hcharge)
    · next hraw => exact .inr ⟨not_not.mp hraw, h.below charge hcharge⟩

theorem not_below_child (htop : Capped tree d top) (hfolder : Below tree d top k folder)
    (he : e ∈ tree.nodes) (hparent : e.2.parent = folder) (hraw : d.of e.2.ceiling = "") {j : Nat} :
    ¬Below tree d e.1 j folder := by
  intro h
  have hchild := hfolder.step (tree.node_eq_some_iff.mpr he) hparent hraw
  have hdepth := hfolder.depth_unique htop (hchild.trans h)
  omega

theorem Adds.disjoint (htop : Capped tree d top) (hfolder : Below tree d top k folder)
    {e' : String × FolderNode} {charges' : List Charge} (he : e ∈ tree.nodes)
    (he' : e' ∈ tree.nodes) (h : Adds tree namespaces d folder e charges)
    (h' : Adds tree namespaces d folder e' charges') (hcharge : charge ∈ charges)
    (hcharge' : charge ∈ charges') : e = e' := by
  obtain ⟨hparent, hcases⟩ := h.cases hcharge
  obtain ⟨hparent', hcases'⟩ := h'.cases hcharge'
  have hnode := tree.node_eq_some_iff.mpr he
  have hnode' := tree.node_eq_some_iff.mpr he'
  obtain rfl | ⟨hraw, i, hi⟩ := hcases
  · obtain hsame | ⟨hraw', j, hj⟩ := hcases'
    · obtain ⟨hname, hrecord⟩ := Charge.ceiling.inj hsame
      exact Prod.ext hname hrecord
    · rw [Charge.chargedTo, hparent] at hj
      exact absurd hj (not_below_child htop hfolder he' hparent' hraw')
  · obtain rfl | ⟨hraw', j, hj⟩ := hcases'
    · rw [Charge.chargedTo, hparent'] at hi
      exact absurd hi (not_below_child htop hfolder he hparent hraw)
    · have hbelow := (hfolder.step hnode hparent hraw).trans hi
      have hbelow' := (hfolder.step hnode' hparent' hraw').trans hj
      have hdepth := hbelow.depth_unique htop hbelow'
      obtain rfl : i = j := by omega
      have hname := hi.top_unique hj
      rw [hname, hnode', Option.some.injEq] at hnode
      exact Prod.ext hname hnode.symm

theorem foldlM_append {α β : Type} {step : List β → α → Option (List β)} {part : α → List β}
    {xs : List α} (h : ∀ x ∈ xs, ∀ found, step found x = some (found ++ part x))
    (found : List β) : xs.foldlM step found = some (found ++ xs.flatMap part) := by
  induction xs generalizing found with
  | nil => rw [flatMap_nil, append_nil]; rfl
  | cons x xs ih =>
    obtain ⟨hx, hxs⟩ := forall_mem_cons.mp h
    rw [foldlM_cons, hx, flatMap_cons, ← append_assoc]
    exact ih hxs _

/-- However deep the recursion may go beyond the number of folders, it collects the same charges,
and each of them once. -/
theorem exists_charges (namespaces : List NamespaceQuota) (htop : Capped tree d top)
    (hfolder : Below tree d top k folder) (hn : tree.nodes.length < n + k) : ∃ charges,
      (∀ fuel, n ≤ fuel → chargesUnder tree namespaces d fuel folder = some charges) ∧
        Accounts tree namespaces d folder charges := by
  induction n generalizing k folder with
  | zero =>
    have hle := hfolder.le_length htop
    omega
  | succ n ih =>
    have hpart (e : String × FolderNode) : ∃ charges, e ∈ tree.nodes →
        Adds tree namespaces d folder e charges ∧ ∀ fuel, n ≤ fuel → ∀ found : List Charge,
          (if e.2.parent ≠ folder then some found
          else if d.of e.2.ceiling ≠ "" then some (found ++ [.ceiling e.1 e.2])
          else (chargesUnder tree namespaces d fuel e.1).map (found ++ ·)) =
            some (found ++ charges) := by
      by_cases hparent : e.2.parent ≠ folder
      · refine ⟨[], fun _ => ⟨?_, fun fuel _ found => ?_⟩⟩
        · rw [Adds, if_pos hparent]
        · rw [if_pos hparent, append_nil]
      · by_cases hraw : d.of e.2.ceiling ≠ ""
        · refine ⟨[.ceiling e.1 e.2], fun _ => ⟨?_, fun fuel _ found => ?_⟩⟩
          · rw [Adds, if_neg hparent, if_pos hraw]
          · rw [if_neg hparent, if_pos hraw]
        · by_cases he : e ∈ tree.nodes
          · have hchild := hfolder.step (tree.node_eq_some_iff.mpr he) (not_not.mp hparent)
              (not_not.mp hraw)
            obtain ⟨charges, hcharges, haccounts⟩ := ih hchild (by omega)
            refine ⟨charges, fun _ => ⟨?_, fun fuel hfuel found => ?_⟩⟩
            · rwa [Adds, if_neg hparent, if_neg hraw]
            · rw [if_neg hparent, if_neg hraw, hcharges fuel hfuel]
              rfl
          · exact ⟨[], fun hmem => absurd hmem he⟩
    choose part hpart using hpart
    have hadds (e : String × FolderNode) (he : e ∈ tree.nodes) := (hpart e he).1
    refine ⟨chargesOf namespaces folder ++ tree.nodes.flatMap part, fun fuel hfuel => ?_, ?_⟩
    · obtain ⟨fuel, rfl⟩ : ∃ more, fuel = more + 1 := ⟨fuel - 1, by omega⟩
      rw [chargesUnder, chargesOf]
      exact foldlM_append (fun e he => (hpart e he).2 fuel (by omega)) _
    · have hown := @accounts_chargesOf tree namespaces d folder
      have hnodes : tree.nodes.Nodup := List.Nodup.of_map Prod.fst tree.nodup
      refine ⟨?_, ?_, ?_⟩
      · rw [nodup_append', nodup_flatMap]
        refine ⟨hown.nodup, ⟨fun e he => ((hadds e he).accounts he).nodup, ?_⟩, ?_⟩
        · apply hnodes.imp_of_mem
          intro e e' he he' hne charge hcharge hcharge'
          exact hne ((hadds e he).disjoint htop hfolder he he' (hadds e' he') hcharge hcharge')
        · intro charge hcharge hmem
          obtain ⟨place, ns, rfl, -, hns⟩ := mem_chargesOf.mp hcharge
          obtain ⟨e, he, hmem⟩ := mem_flatMap.mp hmem
          obtain ⟨hparent, hsame | ⟨hraw, j, hj⟩⟩ := (hadds e he).cases hmem
          · contradiction
          · rw [Charge.chargedTo, hns] at hj
            exact not_below_child htop hfolder he hparent hraw hj
      · rw [forall_mem_append]
        refine ⟨hown.isOf, fun charge hmem => ?_⟩
        obtain ⟨e, he, hmem⟩ := mem_flatMap.mp hmem
        exact ((hadds e he).accounts he).isOf charge hmem
      · rw [forall_mem_append]
        refine ⟨hown.below, fun charge hmem => ?_⟩
        obtain ⟨e, he, hmem⟩ := mem_flatMap.mp hmem
        exact ((hadds e he).accounts he).below charge hmem

theorem Below.cases_head {x : String} (h : Below tree d folder k x) : x = folder ∨
    ∃ child node j, tree.node child = some node ∧ node.parent = folder ∧
      d.of node.ceiling = "" ∧ Below tree d child j x := by
  induction h with
  | top => exact .inl rfl
  | @step _ _ child node _ hnode hparent hraw ih =>
    obtain rfl | ⟨first, found, j, hfound, hup, hfree, hj⟩ := ih
    · exact .inr ⟨child, node, 0, hnode, hparent, hraw, .top⟩
    · exact .inr ⟨first, found, j + 1, hfound, hup, hfree, hj.step hnode hparent hraw⟩

theorem subset_of_foldlM {α β : Type} {part : α → Option (List β)} {xs : List α}
    {found out : List β}
    (h : xs.foldlM (fun found x => (part x).map (found ++ ·)) found = some out) :
    found ⊆ out ∧ ∀ x ∈ xs, ∃ more, part x = some more ∧ more ⊆ out := by
  induction xs generalizing found with
  | nil =>
    obtain rfl := Option.some.inj h
    exact ⟨List.Subset.refl _, forall_mem_nil _⟩
  | cons x xs ih =>
    rw [foldlM_cons] at h
    obtain ⟨_, hx, hxs⟩ := Option.bind_eq_some_iff.mp h
    obtain ⟨more, hmore, rfl⟩ := Option.map_eq_some_iff.mp hx
    obtain ⟨hsub, hall⟩ := ih hxs
    refine ⟨List.Subset.trans (subset_append_left _ _) hsub,
      forall_mem_cons.mpr ⟨⟨more, hmore, ?_⟩, hall⟩⟩
    exact List.Subset.trans (subset_append_right _ _) hsub

theorem mem_chargesUnder (h : chargesUnder tree namespaces d fuel folder = some charges)
    (hcharge : charge.IsOf tree namespaces d) (hbelow : Below tree d folder k charge.chargedTo) :
    charge ∈ charges := by
  induction fuel generalizing folder charges k with
  | zero => contradiction
  | succ fuel ih =>
    let part (e : String × FolderNode) : Option (List Charge) :=
      if e.2.parent ≠ folder then some []
      else if d.of e.2.ceiling ≠ "" then some [.ceiling e.1 e.2]
      else chargesUnder tree namespaces d fuel e.1
    have hparts : tree.nodes.foldlM (fun found e => (part e).map (found ++ ·))
        (chargesOf namespaces folder) = some charges := by
      rw [← h, chargesUnder]
      congr 1
      funext found e
      simp only [part]
      split
      · simp
      · split <;> rfl
    obtain ⟨hown, hnodes⟩ := subset_of_foldlM hparts
    obtain hhere | ⟨child, node, j, hnode, hparent, hraw, hj⟩ := hbelow.cases_head
    · cases charge with
      | quota place ns => exact hown (mem_chargesOf.mpr ⟨place, ns, rfl, hcharge, hhere⟩)
      | ceiling name node =>
        obtain ⟨more, hmore, hsub⟩ := hnodes _ (tree.node_eq_some_iff.mp hcharge.1)
        have hhere : node.parent = folder := hhere
        simp only [part, hhere, hcharge.2, ne_eq, not_true, not_false_eq_true, if_false, if_true,
          Option.some.injEq] at hmore
        exact hsub (hmore ▸ mem_singleton_self _)
    · obtain ⟨more, hmore, hsub⟩ := hnodes _ (tree.node_eq_some_iff.mp hnode)
      simp only [part, hparent, hraw, ne_eq, not_true, if_false] at hmore
      exact hsub (ih hmore hj)

end Charges

section Check

variable {R} {asking holder : String} {limit : Int64} {want : Quota Q}

theorem capped_of_ceilingHolder (h : ceilingHolder R tree folder d = some (holder, limit)) :
    Capped tree d holder := by
  obtain ⟨y, hstep⟩ := exists_step_of_walk h
  rw [ceilingStep] at hstep
  split at hstep
  · contradiction
  · split at hstep
    · contradiction
    · next node hnode =>
      split at hstep
      · next hraw =>
        obtain ⟨rfl, -⟩ := Prod.mk.inj (Sum.inl.inj (Option.some.inj hstep))
        exact ⟨node, hnode, hraw⟩
      · cases hstep

theorem walk_ceilingStep (hfuel : tree.nodes.length < fuel) :
    walk (ceilingStep R tree d) fuel [] folder = ceilingHolder R tree folder d := by
  have hnodes (x y : String) (hxy : Onward (ceilingStep R tree d) x y) :
      x ∈ tree.nodes.map Prod.fst := by
    rw [Onward, ceilingStep] at hxy
    split at hxy
    · contradiction
    · split at hxy
      · contradiction
      · next node hnode => exact mem_map_of_mem (tree.node_eq_some_iff.mp hnode)
  apply walk_eq_of_seen hnodes nodup_nil (forall_mem_nil _)
  · rwa [length_map]
  · rw [length_map]
    exact Nat.lt_succ_self _

/-- What a dimension answers: where there is a ceiling above, and the request grows, it is held
against the sum of charges that are all different. -/
theorem exists_checkDimension (R : Resource Q) (tree : FolderMap)
    (namespaces : List NamespaceQuota) (folder asking : String) (want : Quota Q) (d : Dimension) :
    ∃ answer, (∀ fuel, tree.nodes.length < fuel →
        checkDimension R fuel tree namespaces folder asking want d = some answer) ∧
      (ceilingHolder R tree folder d = none → answer = none) ∧
      ∀ holder limit, ceilingHolder R tree folder d = some (holder, limit) →
        ∃ charges : List Charge, charges.Nodup ∧
          (∀ charge ∈ charges, charge.IsOf tree namespaces d) ∧
          (∀ fuel, tree.nodes.length < fuel →
            chargesUnder tree namespaces d fuel holder = some charges ∧
              allocatedUnder R tree namespaces d fuel holder = some (total R d charges)) ∧
          answer = if R.milliValue (d.want want) ≤ heldBy R namespaces asking d then none
            else refusal R d holder limit (total R d charges) (heldBy R namespaces asking d)
              (R.milliValue (d.want want)) := by
  cases hholder : ceilingHolder R tree folder d with
  | none => exact ⟨none, fun fuel _ => by rw [checkDimension, hholder], fun _ => rfl, by simp⟩
  | some found =>
    obtain ⟨holder, limit⟩ := found
    obtain ⟨charges, hcharges, haccounts⟩ := exists_charges namespaces
      (capped_of_ceilingHolder hholder) .top (Nat.lt_succ_self _)
    have hsum (fuel : Nat) (hfuel : tree.nodes.length < fuel) :
        allocatedUnder R tree namespaces d fuel holder = some (total R d charges) := by
      rw [allocatedUnder_eq_map_total, hcharges fuel hfuel]
      rfl
    refine ⟨if R.milliValue (d.want want) ≤ heldBy R namespaces asking d then none
      else refusal R d holder limit (total R d charges) (heldBy R namespaces asking d)
        (R.milliValue (d.want want)), fun fuel hfuel => ?_, by simp, ?_⟩
    · rw [checkDimension, hholder]
      dsimp only
      rw [hsum fuel hfuel, Option.map_some]
      split <;> rfl
    · rintro _ _ ⟨⟩
      exact ⟨charges, haccounts.nodup, haccounts.isOf,
        fun fuel hfuel => ⟨hcharges fuel hfuel, hsum fuel hfuel⟩, rfl⟩

end Check

/-- The check ends on every folder map, and answers what the first dimension with a refusal does.
In each dimension what it compares with the limit of the holder is the sum of charges that are all
different: quotas of the listed namespaces, and ceilings of folders that cap the dimension. -/
theorem checkCeiling_once (R : Resource Q) (tree : FolderMap) (namespaces : List NamespaceQuota)
    (folder asking : String) (want : Quota Q) : (∀ d fuel, tree.nodes.length < fuel →
      walk (ceilingStep R tree d) fuel [] folder = ceilingHolder R tree folder d) ∧
    ∃ answer : Dimension → Option CeilingRefusal,
      (∀ fuel, tree.nodes.length < fuel →
        checkCeiling R fuel tree namespaces folder asking want =
          some (if folder = "" then none else dimensions.findSome? answer)) ∧
      (∀ d, ceilingHolder R tree folder d = none → answer d = none) ∧
      ∀ d holder limit, ceilingHolder R tree folder d = some (holder, limit) →
        ∃ charges : List Charge, charges.Nodup ∧
          (∀ charge ∈ charges, charge.IsOf tree namespaces d) ∧
          (∀ fuel, tree.nodes.length < fuel →
            chargesUnder tree namespaces d fuel holder = some charges ∧
              allocatedUnder R tree namespaces d fuel holder = some (total R d charges)) ∧
          answer d = if R.milliValue (d.want want) ≤ heldBy R namespaces asking d then none
            else refusal R d holder limit (total R d charges) (heldBy R namespaces asking d)
              (R.milliValue (d.want want)) := by
  choose answer hanswer hnone hsome using exists_checkDimension R tree namespaces folder asking want
  refine ⟨fun d fuel hfuel => walk_ceilingStep hfuel, answer, fun fuel hfuel => ?_, hnone, hsome⟩
  have hall : checkDimension R fuel tree namespaces folder asking want = fun d =>
      some (answer d) := funext fun d => hanswer d fuel hfuel
  have hfirst : dimensions.findSomeM? (fun d => some (answer d)) =
      some (dimensions.findSome? answer) := List.findSomeM?_pure
  rw [checkCeiling, hall, hfirst]
  split <;> rfl

/-- Where a folder caps a dimension, what is held against its limit is the sum over everything that
is charged there, once each: all that is in the folder, or below it with no cap in between. -/
theorem charged_exactly (R : Resource Q) (tree : FolderMap) (namespaces : List NamespaceQuota)
    (folder : String) (d : Dimension) : ceilingHolder R tree folder d = none ∨
    ∃ holder limit charges, ceilingHolder R tree folder d = some (holder, limit) ∧
      charges.Nodup ∧
      (∀ charge : Charge, charge ∈ charges ↔
        charge.IsOf tree namespaces d ∧ ∃ k, Below tree d holder k charge.chargedTo) ∧
      ∀ fuel, tree.nodes.length < fuel →
        allocatedUnder R tree namespaces d fuel holder = some (total R d charges) := by
  cases hholder : ceilingHolder R tree folder d with
  | none => exact .inl rfl
  | some found =>
    obtain ⟨charges, hcharges, haccounts⟩ := exists_charges namespaces
      (capped_of_ceilingHolder hholder) .top (Nat.lt_succ_self _)
    refine .inr ⟨_, _, charges, rfl, haccounts.nodup, fun charge => ⟨fun hmem => ?_, ?_⟩, ?_⟩
    · exact ⟨haccounts.isOf charge hmem, haccounts.below charge hmem⟩
    · rintro ⟨hof, k, hbelow⟩
      exact mem_chargesUnder (hcharges _ (Nat.le_refl _)) hof hbelow
    · intro fuel hfuel
      rw [allocatedUnder_eq_map_total, hcharges fuel hfuel]
      rfl

end Tenant
