import KubevirtUi.Folders.Tree
import KubevirtUi.Python.Float
import KubevirtUi.Tenant.Ceiling

/-!
# Quantities as numbers

The folders' side of quotas computes with floats. All that it does with them is collected here, so
that what holds of any numbers can be said of any.
-/

namespace Quotas

open Folders (FolderQuota)
open Tenant (Dimension dimensions)

/-- What is computed with numbers, and what they are read from and printed as. -/
structure Arithmetic (α : Type) where
  /-- `float(text)` -/
  read : List Char → Option α
  ofNat : Nat → α
  /-- `0.001` -/
  milli : α
  /-- `1e-9` -/
  tolerance : α
  add : α → α → α
  sub : α → α → α
  mul : α → α → α
  div : α → α → α
  lt : α → α → Bool
  le : α → α → Bool
  /-- `x == 0` -/
  isZero : α → Bool
  /-- `f"{x:g}"` -/
  general : α → String
  /-- `int(x)` -/
  int : α → Python.Truncation

/-- Floats. -/
def floats : Arithmetic Float where
  read := Python.float
  ofNat := Float.ofNat
  milli := 0.001
  tolerance := 1e-9
  add := (· + ·)
  sub := (· - ·)
  mul := (· * ·)
  div := (· / ·)
  lt x y := decide (x < y)
  le x y := decide (x ≤ y)
  isZero x := x == 0.0
  general := Python.general
  int := Python.int

/-- What a quota says of a dimension. -/
def limitText (d : Dimension) (quota : FolderQuota) : Option String :=
  match d with
  | .cpu => quota.cpu
  | .memory => quota.memory
  | .storage => quota.storage

/-- A number for each dimension. -/
structure Amounts (α : Type) where
  cpu : α
  memory : α
  storage : α
  deriving DecidableEq

namespace Amounts

variable {α : Type}

def of (f : Dimension → α) : Amounts α := ⟨f .cpu, f .memory, f .storage⟩

def get (amounts : Amounts α) : Dimension → α
  | .cpu => amounts.cpu
  | .memory => amounts.memory
  | .storage => amounts.storage

@[simp] theorem get_of (f : Dimension → α) (d : Dimension) : (of f).get d = f d := by
  cases d <;> rfl

theorem ext_get {a b : Amounts α} (h : ∀ d, a.get d = b.get d) : a = b := by
  cases a
  cases b
  rw [mk.injEq]
  exact ⟨h .cpu, h .memory, h .storage⟩

end Amounts

section Quantities

variable {α : Type} (A : Arithmetic α)

/-- The suffixes of Kubernetes quantities, the longer ones first. -/
def quantitySuffixes : List (List Char × α) :=
  [("Ki".toList, A.ofNat (2 ^ 10)), ("Mi".toList, A.ofNat (2 ^ 20)),
    ("Gi".toList, A.ofNat (2 ^ 30)), ("Ti".toList, A.ofNat (2 ^ 40)), ("m".toList, A.milli),
    ("K".toList, A.ofNat (10 ^ 3)), ("M".toList, A.ofNat (10 ^ 6)),
    ("G".toList, A.ofNat (10 ^ 9)), ("T".toList, A.ofNat (10 ^ 12))]

/-- A Kubernetes quantity as a number, or nothing where it is not given or cannot be read. -/
def parseQuantity (value : Option String) : Option α :=
  value.bind fun value =>
    let text := Python.strip value.toList
    if text = [] then none
    else match (quantitySuffixes A).find? fun s => s.1.isSuffixOf text with
      | some (suffix, unit) =>
        (A.read (text.take (text.length - suffix.length))).map fun x => A.mul x unit
      | none => A.read text

/-- What a quota says of a dimension, as a number. -/
def limitOf (quota : FolderQuota) (d : Dimension) : Option α := parseQuantity A (limitText d quota)

/-- What is given of a quota, with nothing for what is not. -/
def amountOf (quota : FolderQuota) (d : Dimension) : α := (limitOf A quota d).getD (A.ofNat 0)

def zeros : Amounts α := .of fun _ => A.ofNat 0

/-- `totals[field] += value`, if there is a value and it is not zero. -/
def addGiven (total : α) (value : Option α) : α :=
  match value with
  | some x => if A.isZero x then total else A.add total x
  | none => total

/-- `totals[field] -= value`, likewise. -/
def subGiven (total : α) (value : Option α) : α :=
  match value with
  | some x => if A.isZero x then total else A.sub total x
  | none => total

def addQuota (totals : Amounts α) (quota : FolderQuota) : Amounts α :=
  .of fun d => addGiven A (totals.get d) (limitOf A quota d)

/-- `max(value, 0)` -/
def floorZero (x : α) : α := if A.lt x (A.ofNat 0) then A.ofNat 0 else x

/-- `max(0.0, value)` -/
def clamp (x : α) : α := if A.lt (A.ofNat 0) x then x else A.ofNat 0

/-- The largest of the units that a number of bytes reaches. -/
def formatQuantity (d : Dimension) (value : α) : String :=
  match d with
  | .cpu => A.general value
  | _ =>
    match [("Gi", 1024 ^ 3), ("Mi", 1024 ^ 2), ("Ki", 1024)].find? fun unit =>
        A.le (A.ofNat unit.2) value with
    | some (suffix, unit) => A.general (A.div value (A.ofNat unit)) ++ suffix
    | none => A.general value

end Quantities

example : parseQuantity floats (some " 16Gi") = some 17179869184.0 := by decide +kernel

example : formatQuantity floats .memory 17179869184.0 = "16Gi" := by decide +kernel

end Quotas
