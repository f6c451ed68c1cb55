import KubevirtUi.Library.Descent
import KubevirtUi.Library.Hierarchy
import Mathlib.Data.List.AList

/-!
# The folder tree

A ConfigMap holds one text for every folder, and a folder's metadata says who its parent
is. The tree is walked upwards with a record of what has been visited, and downwards with
a stack and no such record.
-/

namespace Folders

open List

structure FolderQuota where
  cpu : Option String
  memory : Option String
  storage : Option String
  deriving DecidableEq

structure FolderEnvAccessSpec where
  admins : List String
  members : List String
  viewers : List String
  deriving DecidableEq

structure FolderAccessSpec where
  admins : List String
  members : List String
  viewers : List String
  envAccess : List (String × FolderEnvAccessSpec)
  deriving DecidableEq

/-- A grant that is kept for namespaces to come. -/
structure AccessEntry where
  type : String
  name : String
  role : String
  bindingName : String
  deriving DecidableEq

/-- A folder's metadata. A field that is missing is `none`, or empty. -/
structure Meta where
  displayName : Option String := none
  description : Option String := none
  parentId : Option String := none
  createdBy : Option String := none
  createdAt : Option String := none
  quota : Option FolderQuota := none
  accessEntries : List AccessEntry := []
  access : Option FolderAccessSpec := none
  deriving DecidableEq

/-- The data of the ConfigMap: what the text of each folder says, if it is JSON at all. -/
abbrev Data := AList fun _ : String => Option Meta

abbrev Tree := Hierarchy String Meta

/-- A text that is not JSON says nothing. -/
def parseAllFolders (data : Data) : Tree where
  nodes := data.entries.map fun e => (e.1, e.2.getD {})
  nodup := by
    rw [map_map]
    exact data.nodupKeys

section Tree

variable (folders : Tree)

/-- Up from a folder to the root, visiting no parent twice. -/
def climb : Nat → List String → String → Option (List String)
  | 0, _, _ => none
  | fuel + 1, visited, current =>
    match folders.node current with
    | none => some []
    | some info =>
      match info.parentId with
      | none => some []
      | some parent =>
        if parent = "" ∨ parent ∈ visited then some []
        else (climb fuel (parent :: visited) parent).map (parent :: ·)

/-- The folders from the root down to this one, which is not among them. -/
def getAncestorChain (folderName : String) : Option (List String) :=
  (climb folders (folders.nodes.length + 1) [] folderName).map List.reverse

def childrenIndex (f : String) : List String :=
  (folders.childrenOf Meta.parentId f).map Prod.fst

/-- All folders below, or nothing where the walk would go on for ever. -/
def getDescendantNames (folderName : String) : Option (List String) :=
  descend (childrenIndex folders) folders.nodes.length (childrenIndex folders folderName).reverse

/-- Whether a folder must not get the new parent. -/
def wouldCreateCycle (folderName : String) : Option String → Option Bool
  | none => some false
  | some newParent =>
    if newParent = folderName then some true
    else (getDescendantNames folders folderName).map fun descendants =>
      decide (newParent ∈ descendants)

end Tree

section Walks

variable {folders : Tree} {c f x p : String} {names : List String}

theorem mem_childrenIndex : c ∈ childrenIndex folders f ↔ folders.Child Meta.parentId c f := by
  simp [childrenIndex, Hierarchy.exists_mem_childrenOf]

theorem nodup_childrenIndex (f : String) : (childrenIndex folders f).Nodup :=
  folders.nodup.sublist (filter_sublist.map Prod.fst)

theorem below_iff : Below (childrenIndex folders) f c ↔
    Relation.ReflTransGen (folders.Child Meta.parentId) c f := by
  rw [← Relation.reflTransGen_swap]
  simp only [Below, mem_childrenIndex]

/-- The walk down from a folder is the walk of the code, whatever time it is given. -/
theorem getDescendantNames_eq_some_iff : getDescendantNames folders f = some names ↔
    Walk (childrenIndex folders) (childrenIndex folders f).reverse names := by
  have hnodes : ∀ c g, c ∈ childrenIndex folders g → c ∈ folders.nodes.map Prod.fst :=
    fun c g hc => (mem_childrenIndex.mp hc).mem
  have hunique {c g h : String} (hg : c ∈ childrenIndex folders g)
      (hh : c ∈ childrenIndex folders h) : g = h :=
    (mem_childrenIndex.mp hg).unique (mem_childrenIndex.mp hh)
  rw [getDescendantNames, ← length_map Prod.fst]
  exact descend_kids_eq_some_iff hunique nodup_childrenIndex hnodes

theorem mem_getDescendantNames (h : getDescendantNames folders f = some names) :
    c ∈ names ↔ Relation.TransGen (folders.Child Meta.parentId) c f := by
  rw [(getDescendantNames_eq_some_iff.mp h).mem_iff, Relation.TransGen.tail'_iff]
  simp only [mem_reverse, mem_childrenIndex, below_iff, and_comm]

theorem exists_getDescendantNames (h : folders.Acyclic Meta.parentId) (f : String) :
    ∃ names, getDescendantNames folders f = some names := by
  have hwf : WellFounded fun c g => c ∈ childrenIndex folders g := by
    simp only [mem_childrenIndex]
    exact Forest.wellFounded_of_finite (folders.nodes.map Prod.fst).toFinset
      (fun c f hc => mem_toFinset.mpr hc.mem) h
  obtain ⟨names, hnames⟩ := exists_walk hwf (childrenIndex folders f).reverse
  exact ⟨names, getDescendantNames_eq_some_iff.mpr hnames⟩

theorem wouldCreateCycle_eq_some_false_iff (h : folders.Acyclic Meta.parentId)
    (parent : Option String) : wouldCreateCycle folders x parent = some false ↔
      ∀ p ∈ parent, ¬ Relation.ReflTransGen (folders.Child Meta.parentId) p x := by
  cases parent with
  | none => simp [wouldCreateCycle]
  | some p =>
    obtain ⟨names, hnames⟩ := exists_getDescendantNames h x
    have hmem := mem_getDescendantNames (c := p) hnames
    simp only [wouldCreateCycle, hnames, Option.mem_def, Option.some.injEq, forall_eq',
      Relation.reflTransGen_iff_eq_or_transGen, ← hmem]
    by_cases hp : p = x
    · simp [hp]
    · simp [hp, Ne.symm hp]

theorem exists_climb {fuel : Nat} {visited : List String} (hnodup : visited.Nodup)
    (hvisited : ∀ p ∈ visited, ∃ c, folders.Child Meta.parentId c p)
    (hfuel : folders.nodes.length < fuel + visited.length) (current : String) :
    ∃ chain, climb folders fuel visited current = some chain := by
  induction fuel generalizing visited current with
  | zero =>
    let parents := folders.nodes.filterMap fun e => e.2.parentId
    have hsub : visited ⊆ parents := by
      intro p hp
      obtain ⟨c, n, hn, hparent⟩ := hvisited p hp
      exact mem_filterMap.mpr ⟨(c, n), folders.node_eq_some_iff.mp hn, hparent⟩
    have hle := (subperm_of_subset hnodup hsub).length_le
    have hparents : parents.length ≤ folders.nodes.length := length_filterMap_le _ _
    omega
  | succ fuel ih =>
    rw [climb]
    split
    · exact ⟨[], rfl⟩
    · next info hnode =>
      split
      · exact ⟨[], rfl⟩
      · next parent hparent =>
        split
        · exact ⟨[], rfl⟩
        · next hnew =>
          have hmore : ∀ p ∈ parent :: visited, ∃ c, folders.Child Meta.parentId c p := by
            intro p hp
            obtain rfl | hp := mem_cons.mp hp
            · exact ⟨current, info, hnode, hparent⟩
            · exact hvisited p hp
          have hnot : parent ∉ visited := fun hmem => hnew (.inr hmem)
          obtain ⟨chain, hchain⟩ := ih (nodup_cons.mpr ⟨hnot, hnodup⟩) hmore
            (by rw [length_cons]; omega) parent
          exact ⟨parent :: chain, by rw [hchain]; rfl⟩

theorem exists_getAncestorChain (folders : Tree) (f : String) :
    ∃ chain, getAncestorChain folders f = some chain := by
  obtain ⟨chain, hchain⟩ := exists_climb nodup_nil (by simp)
    (Nat.lt_succ_self folders.nodes.length) f
  exact ⟨chain.reverse, by rw [getAncestorChain, hchain]; rfl⟩

end Walks

section Changes

variable {data : Data} {name x c f : String} {info : Option Meta}

theorem node_parseAllFolders : (parseAllFolders data).node name =
    (data.lookup name).map fun raw => raw.getD {} := by
  refine Option.ext fun m => ?_
  rw [← Option.mem_def, Option.mem_def, Hierarchy.node_eq_some_iff, Option.map_eq_some_iff]
  simp only [parseAllFolders, mem_map, Prod.mk.injEq, Sigma.exists]
  constructor
  · rintro ⟨k, raw, hmem, rfl, rfl⟩
    exact ⟨raw, AList.mem_lookup_iff.mpr hmem, rfl⟩
  · rintro ⟨raw, hlookup, rfl⟩
    exact ⟨name, raw, AList.mem_lookup_iff.mp hlookup, rfl, rfl⟩

/-- The parent that is stored for a folder. -/
def Data.Child (data : Data) : String → String → Prop :=
  (parseAllFolders data).Child Meta.parentId

/-- No folder is above itself. -/
def Data.Acyclic (data : Data) : Prop := (parseAllFolders data).Acyclic Meta.parentId

theorem child_iff : data.Child c f ↔
    ∃ raw, data.lookup c = some raw ∧ (raw.getD {}).parentId = some f := by
  simp [Data.Child, Hierarchy.Child, node_parseAllFolders]

theorem child_insert_self : Data.Child (data.insert x info) x f ↔
    (info.getD {}).parentId = some f := by
  simp [child_iff]

theorem child_insert_of_ne (h : c ≠ x) : Data.Child (data.insert x info) c f ↔ data.Child c f := by
  simp [child_iff, AList.lookup_insert_ne h]

/-- Writing one folder's metadata keeps the tree a forest exactly when the check of the
code, made on what is stored, lets it pass. -/
theorem acyclic_insert_iff (h : data.Acyclic) : Data.Acyclic (data.insert x info) ↔
    wouldCreateCycle (parseAllFolders data) x (info.getD {}).parentId = some false := by
  rw [wouldCreateCycle_eq_some_false_iff h]
  refine (acyclic_reparent_iff (fun c f hc hr => (child_insert_of_ne hc).mpr hr)
    (fun c f hc hs => (child_insert_of_ne hc).mp hs) h).trans ?_
  exact forall_congr' fun p => imp_congr_left child_insert_self

theorem acyclic_erase (h : data.Acyclic) (x : String) : Data.Acyclic (data.erase x) := by
  intro f hf
  refine h f (Relation.TransGen.mono (fun c g hc => ?_) f f hf)
  obtain ⟨raw, hraw, hparent⟩ := child_iff.mp hc
  refine child_iff.mpr ⟨raw, ?_, hparent⟩
  by_cases hcx : c = x
  · subst hcx
    simp at hraw
  · rwa [AList.lookup_erase_ne hcx] at hraw

theorem acyclic_empty : Data.Acyclic ∅ := by
  intro f hf
  obtain ⟨c, hc, -⟩ := Relation.TransGen.head'_iff.mp hf
  obtain ⟨raw, hraw, -⟩ := child_iff.mp hc
  simp at hraw

end Changes

end Folders
