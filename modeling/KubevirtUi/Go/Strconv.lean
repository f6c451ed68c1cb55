import KubevirtUi.Go.Strings
import Mathlib.Algebra.Group.Int.Defs
import Mathlib.Algebra.Group.Nat.Defs

/-!
# Numbers in texts

A number is a sign or none, and digits; it has 64 bits.
-/

namespace Go

def parseDigits (s : List Char) : Option Nat :=
  if s ≠ [] ∧ s.all Char.isDigit = true then some (Nat.ofDigitChars 10 s 0) else none

/-- `strconv.Atoi`. -/
def atoi (s : String) : Option Int :=
  match s.toList with
  | '-' :: digits => (parseDigits digits).bind fun n => if n ≤ 2 ^ 63 then some (-n) else none
  | '+' :: digits => (parseDigits digits).bind fun n => if n < 2 ^ 63 then some n else none
  | digits => (parseDigits digits).bind fun n => if n < 2 ^ 63 then some n else none

/-- The text after the last occurrence of a text that is not empty, which is what
`strings.LastIndex` is used for. -/
def afterLast (sep : List Char) : List Char → Option (List Char)
  | [] => none
  | c :: s =>
    match afterLast sep s with
    | some after => some after
    | none => if sep.isPrefixOf (c :: s) then some ((c :: s).drop sep.length) else none

theorem afterLast_eq_none {sep s : List Char} {c : Char} (hsep : c ∈ sep) (hs : c ∉ s) :
    afterLast sep s = none := by
  induction s with
  | nil => rfl
  | cons d s ih =>
    have hprefix : sep.isPrefixOf (d :: s) = false := by
      rw [Bool.eq_false_iff, ne_eq, List.isPrefixOf_iff_prefix]
      exact fun hpre => hs (hpre.subset hsep)
    rw [afterLast, ih fun hmem => hs (List.mem_cons_of_mem d hmem), hprefix]
    rfl

theorem afterLast_append {sep s b : List Char} (h : afterLast sep s = some b) (a : List Char) :
    afterLast sep (a ++ s) = some b := by
  induction a with
  | nil => exact h
  | cons c a ih => rw [List.cons_append, afterLast, ih]

theorem parseDigits_toDigits (n : Nat) : parseDigits (Nat.toDigits 10 n) = some n := by
  have hdigit : ∀ c ∈ Nat.toDigits 10 n, c.isDigit = true :=
    fun c hc => Nat.isDigit_of_mem_toDigits (by omega) (by omega) hc
  rw [parseDigits, if_pos ⟨Nat.toDigits_ne_nil, List.all_eq_true.mpr hdigit⟩,
    Nat.ofDigitChars_ten_toDigits]

theorem atoi_toString {n : Int} (hlow : -2 ^ 63 ≤ n) (hhigh : n < 2 ^ 63) :
    atoi (toString n) = some n := by
  cases n with
  | ofNat n =>
    have hdigit : ∀ c ∈ Nat.toDigits 10 n, c.isDigit = true :=
      fun c hc => Nat.isDigit_of_mem_toDigits (by omega) (by omega) hc
    rw [Int.ofNat_eq_natCast] at hhigh ⊢
    rw [atoi, toList_toString_natCast]
    have hsize : n < 2 ^ 63 := by omega
    -- no text of digits starts with a sign
    split
    · next hsign =>
      have hno := hdigit '-' (hsign ▸ List.mem_cons_self)
      exact absurd hno (by decide)
    · next hsign =>
      have hno := hdigit '+' (hsign ▸ List.mem_cons_self)
      exact absurd hno (by decide)
    · rw [parseDigits_toDigits, Option.bind_some, if_pos hsize]
  | negSucc n =>
    have hsize : n + 1 ≤ 2 ^ 63 := by omega
    rw [atoi, toList_toString_negSucc]
    simp only
    rw [parseDigits_toDigits, Option.bind_some, if_pos hsize]
    rfl

end Go
