import Mathlib.Data.List.Basic

/-!
# The string functions the operator calls

Texts stay ordinary strings in the data; the functions of the standard library
that take them apart work on their characters. Only what the operator uses is
here: trimming, cutting at a separator, and testing a prefix.
-/

namespace Go

open List

/-- `unicode.IsSpace`. -/
def isSpace (c : Char) : Bool :=
  c = '\t' || c = '\n' || c.toNat = 0x0B || c.toNat = 0x0C || c = '\r' || c = ' ' ||
  c.toNat = 0x85 || c.toNat = 0xA0 || c.toNat = 0x1680 ||
  (0x2000 ≤ c.toNat && c.toNat ≤ 0x200A) || c.toNat = 0x2028 || c.toNat = 0x2029 ||
  c.toNat = 0x202F || c.toNat = 0x205F || c.toNat = 0x3000

/-- Drop white space at both ends. -/
def trimChars (s : List Char) : List Char :=
  ((s.dropWhile isSpace).reverse.dropWhile isSpace).reverse

/-- `strings.TrimSpace`. -/
def trimSpace (s : String) : String := String.ofList (trimChars s.toList)

/-- The text before and after the first occurrence of a separator. -/
def cutChars (sep : List Char) : List Char → Option (List Char × List Char)
  | [] => none
  | c :: s =>
    if sep.isPrefixOf (c :: s) then some ([], (c :: s).drop sep.length)
    else (cutChars sep s).map fun (before, after) => (c :: before, after)

/-- `strings.SplitN(s, sep, 2)` when it yields two parts. -/
def splitN2 (s sep : String) : Option (String × String) :=
  (cutChars sep.toList s.toList).map fun (a, b) => (String.ofList a, String.ofList b)

/-- The text before and after the last occurrence of a character, which is what
`strings.LastIndex` is used for. -/
def cutLast (c : Char) : List Char → Option (List Char × List Char)
  | [] => none
  | d :: s =>
    match cutLast c s with
    | some (before, after) => some (d :: before, after)
    | none => if d = c then some ([], s) else none

/-- Put `new` for every `old`, after the first `skip` characters, which belong to the `old` that
was replaced last. -/
def replaceFrom (old new : List Char) : (skip : Nat) → List Char → List Char
  | _, [] => []
  | skip + 1, _ :: s => replaceFrom old new skip s
  | 0, c :: s =>
    if old.isPrefixOf (c :: s) then new ++ replaceFrom old new (old.length - 1) s
    else c :: replaceFrom old new 0 s

/-- `strings.ReplaceAll`, of a text that is not empty. -/
def replaceAll (s old new : String) : String :=
  String.ofList (replaceFrom old.toList new.toList 0 s.toList)

/-- `strings.HasPrefix`. -/
def hasPrefix (s pre : String) : Bool := pre.toList.isPrefixOf s.toList

variable {s b : List Char} {c : Char}

theorem trimChars_of_forall (h : ∀ c ∈ s, isSpace c = false) : trimChars s = s := by
  have front : ∀ t : List Char, (∀ c ∈ t, isSpace c = false) → t.dropWhile isSpace = t := by
    intro t ht
    cases t with
    | nil => rfl
    | cons c t => simp [ht c (by simp)]
  rw [trimChars, front s h, front s.reverse (fun c hc => h c (mem_reverse.mp hc)), reverse_reverse]

theorem trimChars_space_cons (h : ∀ c ∈ s, isSpace c = false) : trimChars (' ' :: s) = s := by
  have drop : trimChars (' ' :: s) = trimChars s := by
    simp [trimChars, isSpace]
  rw [drop, trimChars_of_forall h]

theorem cutLast_eq_none_iff : cutLast c s = none ↔ c ∉ s := by
  induction s with
  | nil => simp [cutLast]
  | cons d s ih =>
    rw [cutLast]
    cases h : cutLast c s with
    | some ab => simp [mt ih.mpr (by simp [h])]
    | none =>
      have hs := ih.mp h
      by_cases hd : d = c
      · simp [hd]
      · simp [hd, hs, Ne.symm hd]

/-- The cut is at the last occurrence: nothing after it is the separator. -/
theorem cutLast_append (a : List Char) (hb : c ∉ b) : cutLast c (a ++ c :: b) = some (a, b) := by
  induction a with
  | nil => simp [cutLast, cutLast_eq_none_iff.mpr hb]
  | cons d a ih => simp [cutLast, ih]

theorem eq_append_of_cutLast {a : List Char} (h : cutLast c s = some (a, b)) :
    s = a ++ c :: b ∧ c ∉ b := by
  induction s generalizing a with
  | nil => simp [cutLast] at h
  | cons d s ih =>
    rw [cutLast] at h
    cases hs : cutLast c s with
    | some ab =>
      obtain ⟨a', b'⟩ := ab
      simp only [hs, Option.some.injEq, Prod.mk.injEq] at h
      obtain ⟨rfl, rfl⟩ := h
      obtain ⟨rfl, hb⟩ := ih hs
      exact ⟨rfl, hb⟩
    | none =>
      simp only [hs] at h
      by_cases hd : d = c
      · simp only [hd, if_true, Option.some.injEq, Prod.mk.injEq] at h
        obtain ⟨rfl, rfl⟩ := h
        exact ⟨by simp [hd], cutLast_eq_none_iff.mp hs⟩
      · simp [hd] at h

/-- A text cut at its first separator starts with another text and the separator
only if it starts with that text exactly. -/
theorem isPrefixOf_append_cons {t r : List Char} (hs : c ∉ s) (ht : c ∉ t) :
    (s ++ [c]).isPrefixOf (t ++ c :: r) = true ↔ t = s := by
  induction s generalizing t with
  | nil =>
    cases t with
    | nil => simp
    | cons d t =>
      have hd : c ≠ d := fun h => ht (by simp [h])
      simp [hd]
  | cons d s ih =>
    rw [mem_cons, not_or] at hs
    cases t with
    | nil => simp [Ne.symm hs.1]
    | cons e t =>
      rw [mem_cons, not_or] at ht
      simp only [cons_append, isPrefixOf_cons_cons, Bool.and_eq_true, beq_iff_eq,
        List.cons.injEq, ih hs.2 ht.2]
      exact and_congr_left' eq_comm

theorem not_mem_intercalate {α : Type} {a : α} {sep : List α} {ls : List (List α)}
    (hsep : a ∉ sep) (hls : ∀ l ∈ ls, a ∉ l) : a ∉ sep.intercalate ls := by
  induction ls with
  | nil => exact not_mem_nil
  | cons l ls ih =>
    rw [forall_mem_cons] at hls
    cases ls with
    | nil => simpa using hls.1
    | cons l' ls =>
      rw [intercalate_cons_cons, mem_append, mem_append, not_or, not_or]
      exact ⟨⟨hls.1, hsep⟩, ih hls.2⟩

theorem toList_toString_natCast (n : Nat) : (toString (n : Int)).toList = Nat.toDigits 10 n := by
  simp [toString, Int.repr, Nat.repr]

theorem toList_toString_negSucc (n : Nat) :
    (toString (Int.negSucc n)).toList = '-' :: Nat.toDigits 10 (n + 1) := by
  simp [toString, Int.repr, Nat.repr]

theorem isDigit_or_minus_of_mem_toString {n : Int} (h : c ∈ (toString n).toList) :
    c.isDigit = true ∨ c = '-' := by
  cases n with
  | ofNat n =>
    rw [Int.ofNat_eq_natCast, toList_toString_natCast] at h
    exact .inl (Nat.isDigit_of_mem_toDigits (by omega) (by omega) h)
  | negSucc n =>
    rw [toList_toString_negSucc, mem_cons] at h
    obtain rfl | h := h
    · exact .inr rfl
    · exact .inl (Nat.isDigit_of_mem_toDigits (by omega) (by omega) h)

theorem toList_toString_ne_nil (n : Int) : (toString n).toList ≠ [] := by
  cases n with
  | ofNat n =>
    rw [Int.ofNat_eq_natCast, toList_toString_natCast]
    exact Nat.toDigits_ne_nil
  | negSucc n =>
    rw [toList_toString_negSucc]
    exact cons_ne_nil _ _

end Go
