import KubevirtUi.Library.Hierarchy

/-!
# Folder ceilings, as the operator asks for them

A folder may cap what the namespaces below it hold, dimension by dimension. A request
has to fit under the nearest folder at or above it that caps the dimension. What such
a ceiling already covers is what its own namespaces hold and what its sub-folders
stand for: a capped one for its ceiling, any other for all that it covers itself.

Amounts are signed 64-bit counts of milli-units, and they wrap around.
-/

namespace Tenant

/-- What is used of Kubernetes quantities. -/
structure Resource (Q : Type) where
  parseQuantity : String → Option Q
  milliValue : Q → Int64
  newMilliQuantity : Int64 → Q
  newQuantity : Int64 → Q
  string : Q → String
  zero : Q
  add : Q → Q → Q

/-- What a folder caps, as quantity strings; `""` is uncapped. -/
structure Ceiling where
  cpu : String
  memory : String
  storage : String
  deriving DecidableEq

structure FolderNode where
  parent : String
  ceiling : Ceiling
  deriving DecidableEq

/-- One namespace's charge against its folder. -/
structure NamespaceQuota where
  namespace_ : String
  folder : String
  cpu : String
  memory : String
  storage : String
  deriving DecidableEq

/-- What a request asks for. -/
structure Quota (Q : Type) where
  cpu : Q
  memory : Q
  storage : Q

/-- The folders by name. -/
abbrev FolderMap := Hierarchy String FolderNode

/-- The folders as they are stored. A folder has a name, so that no folder is called `""`. -/
structure Tree extends FolderMap where
  named : "" ∉ nodes.map Prod.fst

instance : CoeOut Tree FolderMap := ⟨Tree.toHierarchy⟩

/-- Which dimension did not fit, and by how much. -/
structure CeilingRefusal where
  folder : String
  dimension : String
  limit : String
  allocated : String
  free : String
  asked : String
  deriving DecidableEq

/-- The text of a refusal. No character of a folder's name is escaped in quotes. -/
def CeilingRefusal.error (r : CeilingRefusal) : String :=
  r.dimension ++ " quota " ++ r.limit ++ " for folder \"" ++ r.folder ++ "\" is already " ++
    r.allocated ++ " allocated; " ++ r.free ++ " is free and this tenant asks for " ++ r.asked

inductive Dimension where
  | cpu
  | memory
  | storage
  deriving DecidableEq

namespace Dimension

def name : Dimension → String
  | cpu => "CPU"
  | memory => "memory"
  | storage => "storage"

def of : Dimension → Ceiling → String
  | cpu => Ceiling.cpu
  | memory => Ceiling.memory
  | storage => Ceiling.storage

def charge : Dimension → NamespaceQuota → String
  | cpu => NamespaceQuota.cpu
  | memory => NamespaceQuota.memory
  | storage => NamespaceQuota.storage

def want {Q : Type} : Dimension → Quota Q → Q
  | cpu => Quota.cpu
  | memory => Quota.memory
  | storage => Quota.storage

end Dimension

def dimensions : List Dimension := [.cpu, .memory, .storage]

variable {Q : Type} (R : Resource Q)

/-- An unreadable or absent quantity is nothing. -/
def milliOf (s : String) : Int64 :=
  if s = "" then 0
  else match R.parseQuantity s with
    | none => 0
    | some q => R.milliValue q

/-- Whether a folder caps the dimension, or where to look next. -/
def ceilingStep (tree : FolderMap) (d : Dimension) (name : String) :
    Option ((String × Int64) ⊕ String) :=
  if name = "" then none
  else match tree.node name with
    | none => none
    | some node =>
      if d.of node.ceiling ≠ "" then some (.inl (name, milliOf R (d.of node.ceiling)))
      else some (.inr node.parent)

/-- The nearest folder at or above this one that caps the dimension. -/
def ceilingHolder (tree : FolderMap) (folder : String) (d : Dimension) : Option (String × Int64) :=
  walk (ceilingStep R tree d) (tree.nodes.length + 1) [] folder

/-- Everything that a folder's ceiling already covers, sub-folders included. The
recursion guards against nothing: it ends only where the folders do. -/
def allocatedUnder (tree : FolderMap) (namespaces : List NamespaceQuota) (d : Dimension) :
    Nat → String → Option Int64
  | 0, _ => none
  | fuel + 1, folder =>
    tree.nodes.foldlM (fun total e =>
      if e.2.parent ≠ folder then some total
      else if d.of e.2.ceiling ≠ "" then some (total + milliOf R (d.of e.2.ceiling))
      else (allocatedUnder tree namespaces d fuel e.1).map (total + ·))
      (namespaces.foldl (fun total ns =>
        if ns.folder = folder then total + milliOf R (d.charge ns) else total) 0)

/-- What the asking namespace holds today, wherever it is charged. -/
def heldBy (namespaces : List NamespaceQuota) (asking : String) (d : Dimension) : Int64 :=
  namespaces.foldl (fun held ns =>
    if ns.namespace_ = asking then held + milliOf R (d.charge ns) else held) 0

/-- Milli-units in the shape that the dimension is read in. -/
def format (d : Dimension) (milli : Int64) : String :=
  if d.name = "CPU" then R.string (R.newMilliQuantity milli)
  else R.string (R.newQuantity (milli / 1000))

/-- Growth is refused where less than it asks for is left. -/
def refusal (d : Dimension) (holder : String) (limit allocated held askedMilli : Int64) :
    Option CeilingRefusal :=
  let left := limit - (allocated - held)
  let free := if left < 0 then 0 else left
  if free < askedMilli then
    some
      { folder := holder
        dimension := d.name
        limit := format R d limit
        allocated := format R d (allocated - held)
        free := format R d free
        asked := format R d askedMilli }
  else none

/-- One dimension of a request. -/
def checkDimension (fuel : Nat) (tree : FolderMap) (namespaces : List NamespaceQuota)
    (folder asking : String) (want : Quota Q) (d : Dimension) : Option (Option CeilingRefusal) :=
  match ceilingHolder R tree folder d with
  | none => some none
  | some (holder, limit) =>
    let held := heldBy R namespaces asking d
    let askedMilli := R.milliValue (d.want want)
    if askedMilli ≤ held then some none
    else (allocatedUnder R tree namespaces d fuel holder).map fun allocated =>
      refusal R d holder limit allocated held askedMilli

/-- A reservation is refused where it would overrun the ceiling it has to fit under. -/
def checkCeiling (fuel : Nat) (tree : FolderMap) (namespaces : List NamespaceQuota)
    (folder asking : String) (want : Quota Q) : Option (Option CeilingRefusal) :=
  if folder = "" then some none
  else dimensions.findSomeM? (checkDimension R fuel tree namespaces folder asking want)

/-- The charges as the reconciler assembles them: one for each namespace that carries a
folder label and a quota, the sum of all its quotas. -/
def assembled (labels : List (String × String)) (quotas : List (String × Quota Q)) :
    List NamespaceQuota :=
  labels.filterMap fun label =>
    match (quotas.filter fun q => q.1 = label.1).map Prod.snd with
    | [] => none
    | q :: qs =>
      some
        { namespace_ := label.1
          folder := label.2
          cpu := R.string ((q :: qs).foldl (fun sum q => R.add sum q.cpu) R.zero)
          memory := R.string ((q :: qs).foldl (fun sum q => R.add sum q.memory) R.zero)
          storage := R.string ((q :: qs).foldl (fun sum q => R.add sum q.storage) R.zero) }

/-- The folder's answer to what a tenant is about to reserve. Where there is no folder to
ask, or no folders at all, nothing is refused. -/
def ceilingRefusal (fuel : Nat) (tree : Option Tree) (labels : List (String × String))
    (quotas : List (String × Quota Q)) (folder asking : String) (total : Quota Q) :
    Option (Option CeilingRefusal) :=
  if folder = "" then some none
  else match tree with
    | none => some none
    | some tree => checkCeiling R fuel tree (assembled R labels quotas) folder asking total

end Tenant
