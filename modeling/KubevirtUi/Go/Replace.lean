import KubevirtUi.Go.Strings
import Mathlib.Data.List.Infix
import Mathlib.Data.List.Count

/-!
# Replacing every occurrence of a text

The text is cut at the occurrences, which has nothing to do with what is put there. So one
replacement gives another text than another, unless there is nothing to replace.

Of a text with quotes it is counted how often two of them stand side by side.
-/

namespace Go

open List

variable {other value : List Char}

variable {old new s : List Char}

section Pieces

/-- What is before each occurrence, each followed by what is put there, and what is after all. -/
def join (new : List Char) : List (List Char) → List Char → List Char
  | [], last => last
  | piece :: pieces, last => piece ++ new ++ join new pieces last

theorem replaceFrom_drop (skip : Nat) (s : List Char) :
    replaceFrom old new skip s = replaceFrom old new 0 (s.drop skip) := by
  induction skip generalizing s with
  | zero => rfl
  | succ skip ih =>
    cases s with
    | nil => rfl
    | cons c s => exact ih s

theorem replaceFrom_append (hold : old ≠ []) (s : List Char) :
    replaceFrom old new 0 (old ++ s) = new ++ replaceFrom old new 0 s := by
  obtain ⟨c, rest, rfl⟩ := exists_cons_of_ne_nil hold
  rw [cons_append, replaceFrom, if_pos, replaceFrom_drop]
  · simp
  · exact isPrefixOf_iff_prefix.mpr ⟨s, rfl⟩

theorem exists_pieces (hold : old ≠ []) (s : List Char) : ∃ pieces last,
    (∀ new, replaceFrom old new 0 s = join new pieces last) ∧ s = join old pieces last ∧
      (pieces = [] ↔ ¬ old <:+: s) := by
  induction hn : s.length using Nat.strong_induction_on generalizing s with
  | _ n ih =>
  cases s with
  | nil =>
    refine ⟨[], [], fun new => rfl, rfl, ?_⟩
    simpa using fun h => hold (eq_nil_of_infix_nil h)
  | cons c s =>
    by_cases hpre : old <+: c :: s
    · obtain ⟨t, ht⟩ := hpre
      have hlt : t.length < n := by
        have hpos := length_pos_iff.mpr hold
        rw [← hn, ← ht, length_append]
        omega
      obtain ⟨pieces, last, hreplace, hjoin, -⟩ := ih t.length hlt t rfl
      refine ⟨[] :: pieces, last, fun new => ?_, ?_, ?_⟩
      · rw [← ht, replaceFrom_append hold, hreplace]
        rfl
      · rw [← ht, hjoin]
        rfl
      · have hin : old <:+: c :: s := (show old <+: c :: s from ⟨t, ht⟩).isInfix
        simp [hin]
    · have hlt : s.length < n := by
        rw [← hn]
        exact Nat.lt_succ_self _
      have hstep (new : List Char) :
          replaceFrom old new 0 (c :: s) = c :: replaceFrom old new 0 s := by
        rw [replaceFrom, if_neg]
        exact fun h => hpre (List.isPrefixOf_iff_prefix.mp h)
      have hin : old <:+: c :: s ↔ old <:+: s := by
        rw [infix_cons_iff, or_iff_right hpre]
      obtain ⟨pieces, last, hreplace, hjoin, hempty⟩ := ih s.length hlt s rfl
      cases pieces with
      | nil =>
        refine ⟨[], c :: last, fun new => ?_, ?_, ?_⟩
        · rw [hstep, hreplace]
          rfl
        · rw [hjoin]
          rfl
        · rw [hin]
          exact hempty
      | cons piece pieces =>
        refine ⟨(c :: piece) :: pieces, last, fun new => ?_, ?_, ?_⟩
        · rw [hstep, hreplace]
          rfl
        · rw [hjoin]
          rfl
        · rw [hin, ← hempty]
          simp

theorem length_join (new : List Char) (pieces : List (List Char)) (last : List Char) :
    (join new pieces last).length =
      (join [] pieces last).length + pieces.length * new.length := by
  induction pieces with
  | nil => simp [join]
  | cons piece pieces ih =>
    simp only [join, length_append, ih, length_cons, append_nil]
    rw [Nat.add_mul, Nat.one_mul]
    omega

/-- Different replacements give different texts, if there is something to replace. -/
theorem replaceFrom_inj (hold : old ≠ []) (hin : old <:+: s)
    (h : replaceFrom old new 0 s = replaceFrom old other 0 s) : new = other := by
  obtain ⟨pieces, last, hreplace, -, hempty⟩ := exists_pieces hold s
  rw [hreplace, hreplace] at h
  cases pieces with
  | nil => exact absurd hin (hempty.mp rfl)
  | cons piece pieces =>
    have hlength := congrArg List.length h
    rw [length_join new, length_join other] at hlength
    have hsame : new.length = other.length :=
      Nat.eq_of_mul_eq_mul_left (Nat.succ_pos pieces.length) (by simpa using hlength)
    simp only [join, append_assoc] at h
    exact (append_inj (append_cancel_left h) hsame).1

theorem replaceFrom_of_absent (hold : old ≠ []) (hnot : ¬ old <:+: s) (new : List Char) :
    replaceFrom old new 0 s = s := by
  obtain ⟨pieces, last, hreplace, hjoin, hempty⟩ := exists_pieces hold s
  obtain rfl := hempty.mpr hnot
  rw [hreplace]
  exact hjoin.symm

theorem replaceFrom_self (hold : old ≠ []) (s : List Char) : replaceFrom old old 0 s = s := by
  obtain ⟨pieces, last, hreplace, hjoin, -⟩ := exists_pieces hold s
  rw [hreplace]
  exact hjoin.symm

end Pieces

section Quotes

/-- How often two quotes stand side by side. -/
def doubled : List Char → ℕ
  | [] => 0
  | c :: s => (if c = '"' ∧ s.head? = some '"' then 1 else 0) + doubled s

theorem doubled_append (xs ys : List Char) : doubled (xs ++ ys) = doubled xs + doubled ys +
    if xs.getLast? = some '"' ∧ ys.head? = some '"' then 1 else 0 := by
  induction xs with
  | nil => simp [doubled]
  | cons c xs ih =>
    rw [cons_append, doubled, ih, doubled]
    cases xs with
    | nil => simp [doubled, Nat.add_comm]
    | cons d xs =>
      rw [cons_append, List.head?_cons, List.head?_cons, List.getLast?_cons_cons]
      omega

theorem doubled_eq_zero {v : List Char} (h : '"' ∉ v) : doubled v = 0 := by
  induction v with
  | nil => rfl
  | cons c v ih =>
    have hc : c ≠ '"' := fun hc => h (hc ▸ mem_cons_self)
    rw [doubled, if_neg (fun hboth => hc hboth.1), ih fun hv => h (mem_cons_of_mem c hv)]

/-- A text that begins without a quote and ends with one. -/
structure Closed (s : List Char) : Prop where
  first : s.head? ≠ some '"'
  last : s.getLast? = some '"'

theorem Closed.ne_nil (h : Closed s) : s ≠ [] := by
  rintro rfl
  exact absurd h.last (by simp)

/-- What is in front of a text that begins without a quote stands side by side with none. -/
theorem doubled_append_closed (h : Closed s) (xs ys : List Char) :
    doubled (xs ++ s ++ ys) = doubled xs + doubled s + doubled ys +
      if ys.head? = some '"' then 1 else 0 := by
  have hlast : (xs ++ s).getLast? = some '"' := by
    rw [List.getLast?_append, h.last]
    rfl
  rw [doubled_append, doubled_append, if_neg fun hboth => h.first hboth.2, hlast]
  simp only [true_and]
  omega

theorem head_join (hnew : Closed new) (hother : Closed other) (pieces : List (List Char))
    (last : List Char) :
    (join new pieces last).head? = some '"' ↔ (join other pieces last).head? = some '"' := by
  cases pieces with
  | nil => rfl
  | cons piece pieces =>
    simp only [join]
    cases piece with
    | cons c piece => rfl
    | nil =>
      rw [nil_append, nil_append, List.head?_append_of_ne_nil _ hnew.ne_nil,
        List.head?_append_of_ne_nil _ hother.ne_nil]
      exact iff_of_false hnew.first hother.first

theorem doubled_join (hnew : Closed new) (hother : Closed other) (pieces : List (List Char))
    (last : List Char) : doubled (join new pieces last) + pieces.length * doubled other =
      doubled (join other pieces last) + pieces.length * doubled new := by
  induction pieces with
  | nil => simp [join]
  | cons piece pieces ih =>
    simp only [join]
    rw [doubled_append_closed hnew, doubled_append_closed hother, length_cons, Nat.add_mul,
      Nat.add_mul, Nat.one_mul, Nat.one_mul]
    simp only [head_join hnew hother pieces last]
    omega

theorem count_join (new : List Char) (pieces : List (List Char)) (last : List Char) :
    (join new pieces last).count '"' =
      (join [] pieces last).count '"' + pieces.length * new.count '"' := by
  induction pieces with
  | nil => simp [join]
  | cons piece pieces ih =>
    simp only [join, count_append, ih, length_cons, append_nil]
    rw [Nat.add_mul, Nat.one_mul]
    omega

/-- The name of a setting, up to the quote that opens its value. -/
structure Label (name : List Char) : Prop where
  first : name.head? ≠ some '"'
  last : name.getLast? = some '"'
  single : doubled name = 0

/-- A setting with its value in quotes. -/
def setting (name value : List Char) : List Char := name ++ value ++ ['"']

/-- Give every setting of a name that has the old value a new one. -/
def fill (name old new : List Char) (s : List Char) : List Char :=
  replaceFrom (setting name old) (setting name new) 0 s

variable {name : List Char}

theorem Label.closed (h : Label name) (value : List Char) : Closed (setting name value) where
  first := by
    have hne : name ≠ [] := fun hnil => absurd h.last (by simp [hnil])
    rw [setting, append_assoc, List.head?_append_of_ne_nil _ hne]
    exact h.first
  last := by simp [setting]

theorem Label.doubled_setting (h : Label name) (hvalue : '"' ∉ value) :
    doubled (setting name value) = if value = [] then 1 else 0 := by
  rw [setting, append_assoc, doubled_append, h.single, h.last]
  by_cases hnil : value = []
  · subst hnil
    rfl
  · have hhead : (value ++ ['"']).head? ≠ some '"' := by
      rw [List.head?_append_of_ne_nil _ hnil]
      exact fun hq => hvalue (mem_of_mem_head? hq)
    have hlast : value.getLast? ≠ some '"' := fun hq => hvalue (mem_of_getLast? hq)
    rw [doubled_append, doubled_eq_zero hvalue, if_neg fun hboth => hlast hboth.1,
      if_neg fun hboth => hhead hboth.2, if_neg hnil]
    rfl

theorem setting_inj (h : setting name new = setting name value) : new = value :=
  append_cancel_left (append_cancel_right h)

/-- What a new value does to the number of quotes, and of quotes side by side. -/
theorem fill_cases (hname : Label name) (hold : '"' ∉ old) (new s : List Char) : ∃ n,
    (n = 0 ↔ ¬ setting name old <:+: s) ∧
      (fill name old new s).count '"' = s.count '"' + n * new.count '"' ∧
      ('"' ∉ new → doubled (fill name old new s) + n * (if old = [] then 1 else 0) =
        doubled s + n * if new = [] then 1 else 0) := by
  obtain ⟨pieces, last, hreplace, hjoin, hempty⟩ :=
    exists_pieces (hname.closed old).ne_nil s
  refine ⟨pieces.length, length_eq_zero_iff.trans hempty, ?_, fun hnew => ?_⟩
  · rw [fill, hreplace, count_join]
    conv_rhs => rw [hjoin, count_join]
    simp only [setting, count_append, count_eq_zero.mpr hold, Nat.mul_add]
    omega
  · have hdoubled := doubled_join (hname.closed new) (hname.closed old) pieces last
    rw [hname.doubled_setting hnew, hname.doubled_setting hold, ← hjoin] at hdoubled
    rw [fill, hreplace]
    exact hdoubled

theorem fill_of_absent (hname : Label name) (hnot : ¬ setting name old <:+: s)
    (new : List Char) : fill name old new s = s :=
  replaceFrom_of_absent (hname.closed old).ne_nil hnot _

theorem fill_self (hname : Label name) (old s : List Char) : fill name old old s = s :=
  replaceFrom_self (hname.closed old).ne_nil s

/-- Two values make the same text exactly if they are the same, or are put nowhere. -/
theorem fill_eq_fill_iff (hname : Label name) :
    fill name old new s = fill name old value s ↔ new = value ∨ ¬ setting name old <:+: s := by
  constructor
  · intro h
    by_cases hin : setting name old <:+: s
    · exact .inl (setting_inj (replaceFrom_inj (hname.closed old).ne_nil hin h))
    · exact .inr hin
  · rintro (rfl | hnot)
    · rfl
    · rw [fill_of_absent hname hnot, fill_of_absent hname hnot]

/-- Where two settings that are empty get values, and then a third is changed, a text is as
before exactly if each of the three leaves it alone. -/
theorem fill_fill_fill_eq_self_iff {first second third : List Char} (hfirst : Label first)
    (hsecond : Label second) (hthird : Label third) {a b c d : List Char} (ha : a ≠ [])
    (hc : '"' ∉ c) (hcne : c ≠ []) (hd : d ≠ []) (s : List Char) :
    fill third c d (fill second [] b (fill first [] a s)) = s ↔
      ¬ setting first [] <:+: s ∧ (b = [] ∨ ¬ setting second [] <:+: s) ∧
        (d = c ∨ ¬ setting third c <:+: s) := by
  constructor
  · intro h
    obtain ⟨n, hn, hcountn, hdoubledn⟩ := fill_cases hfirst not_mem_nil a s
    obtain ⟨m, hm, hcountm, hdoubledm⟩ :=
      fill_cases hsecond not_mem_nil b (fill first [] a s)
    obtain ⟨k, hk, hcountk, hdoubledk⟩ :=
      fill_cases hthird hc d (fill second [] b (fill first [] a s))
    rw [h] at hcountk hdoubledk
    have hzero : n * a.count '"' = 0 ∧ m * b.count '"' = 0 ∧ k * d.count '"' = 0 := by omega
    -- a value that is put somewhere has no quotes, so quotes side by side can only get fewer
    have hfew {j : ℕ} {v : List Char} (hj : j * v.count '"' = 0) : j = 0 ∨ '"' ∉ v :=
      (Nat.mul_eq_zero.mp hj).imp_right count_eq_zero.mp
    have hone : doubled (fill first [] a s) + n = doubled s := by
      obtain hn0 | hquote := hfew hzero.1
      · rw [hn0, fill_of_absent hfirst (hn.mp hn0)]
        rfl
      · have := hdoubledn hquote
        simpa [ha] using this
    have htwo : doubled (fill second [] b (fill first [] a s)) + m =
        doubled (fill first [] a s) + m * if b = [] then 1 else 0 := by
      obtain hm0 | hquote := hfew hzero.2.1
      · rw [hm0, fill_of_absent hsecond (hm.mp hm0)]
        simp
      · have := hdoubledm hquote
        simpa using this
    have hthree : doubled s = doubled (fill second [] b (fill first [] a s)) := by
      obtain hk0 | hquote := hfew hzero.2.2
      · rw [fill_of_absent hthird (hk.mp hk0)] at h
        rw [h]
      · have := hdoubledk hquote
        simpa [hcne, hd] using this
    have hle : (m * if b = [] then 1 else 0) ≤ m := by split <;> omega
    have hn0 : n = 0 := by omega
    have hs := fill_of_absent hfirst (hn.mp hn0) a
    rw [hs] at h hm htwo hthree
    have hb : b = [] ∨ m = 0 := by
      by_cases hb : b = []
      · exact .inl hb
      · rw [if_neg hb] at htwo
        omega
    have hs' : fill second [] b s = s := by
      obtain rfl | hm0 := hb
      · exact fill_self hsecond [] s
      · exact fill_of_absent hsecond (hm.mp hm0) b
    rw [hs'] at h
    refine ⟨hn.mp hn0, hb.imp_right hm.mp, (fill_eq_fill_iff hthird).mp ?_⟩
    rw [h, fill_self hthird]
  · rintro ⟨hone, htwo, hthree⟩
    have hs' : fill second [] b s = s := by
      obtain rfl | hnot := htwo
      · exact fill_self hsecond [] s
      · exact fill_of_absent hsecond hnot b
    rw [fill_of_absent hfirst hone, hs', (fill_eq_fill_iff hthird).mpr hthree, fill_self hthird]

end Quotes

end Go
