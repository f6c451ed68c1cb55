import Mathlib.Data.List.AList
import Mathlib.Data.List.Induction

/-!
# Lists whose entries are told apart by a key

A list that several writers share, each owning the entries of some keys. A
writer takes entries out by key, and lays its own down by taking out everything
with their keys and appending them. Laying entries down twice is laying them down
once, and it changes nothing exactly when they already stand at the end, in
order, with none of their keys before them.

Of entries that are put into a map one after the other, the last with a key is found
under it.
-/

namespace Keyed

open List

variable {α κ : Type*} [DecidableEq κ] {key : α → κ} {ks : List κ} {xs ys zs : List α}

/-- The entries with none of the keys. -/
def drop (key : α → κ) (ks : List κ) (xs : List α) : List α := xs.filter fun x => key x ∉ ks

/-- The entries with one of the keys. -/
def pick (key : α → κ) (ks : List κ) (xs : List α) : List α := xs.filter fun x => key x ∈ ks

/-- Take out every entry with a key of `ys`, and append `ys`. -/
def put (key : α → κ) (xs ys : List α) : List α := drop key (ys.map key) xs ++ ys

/-- The entries `ys` stand at the end, and none of their keys before them. -/
def Last (key : α → κ) (xs ys : List α) : Prop :=
  ∃ front, xs = front ++ ys ∧ ∀ x ∈ front, key x ∉ ys.map key

/-- Two selections are one exactly where they agree on every entry. -/
theorem filter_eq_filter_iff {p q : α → Bool} :
    xs.filter p = xs.filter q ↔ ∀ x ∈ xs, p x = q x := by
  refine ⟨fun h x hx => ?_, filter_congr⟩
  have hmem : x ∈ xs.filter p ↔ x ∈ xs.filter q := by rw [h]
  rw [mem_filter, mem_filter] at hmem
  exact Bool.eq_iff_iff.mpr ⟨fun hp => (hmem.mp ⟨hx, hp⟩).2, fun hq => (hmem.mpr ⟨hx, hq⟩).2⟩

@[simp] theorem mem_drop {x : α} : x ∈ drop key ks xs ↔ x ∈ xs ∧ key x ∉ ks := by
  simp [drop]

@[simp] theorem drop_append : drop key ks (xs ++ ys) = drop key ks xs ++ drop key ks ys := by
  simp [drop]

theorem drop_eq_self_iff : drop key ks xs = xs ↔ ∀ x ∈ xs, key x ∉ ks := by
  simp [drop, filter_eq_self]

theorem drop_eq_nil_iff : drop key ks xs = [] ↔ ∀ x ∈ xs, key x ∈ ks := by
  simp [drop, filter_eq_nil_iff]

theorem drop_congr {ls : List κ} (h : ∀ k, k ∈ ks ↔ k ∈ ls) : drop key ks xs = drop key ls xs := by
  simp only [drop, h]

/-- Two takings together take nothing out exactly where neither does. -/
theorem drop_drop_eq_self_iff {κ' : Type*} [DecidableEq κ'] {key' : α → κ'} {ls : List κ'} :
    drop key' ls (drop key ks xs) = xs ↔ ∀ x ∈ xs, key x ∉ ks ∧ key' x ∉ ls := by
  simp [drop, filter_filter, filter_eq_self, and_comm]

theorem drop_drop_eq_drop_iff {κ' : Type*} [DecidableEq κ'] {key' : α → κ'} {ls ms : List κ'} :
    drop key' ls (drop key ks xs) = drop key' ms xs ↔
      ∀ x ∈ xs, key x ∉ ks ∧ key' x ∉ ls ↔ key' x ∉ ms := by
  rw [drop, drop, drop, filter_filter, filter_eq_filter_iff]
  refine forall₂_congr fun x _ => ?_
  rw [← Bool.decide_and, decide_eq_decide, and_comm]

/-- Entries are taken by their keys as they would be one by one. -/
theorem drop_eq_filter_iff [DecidableEq α] :
    drop key ks xs = xs.filter (· ∉ ys) ↔ ∀ x ∈ xs, x ∈ ys ↔ key x ∈ ks := by
  rw [drop, filter_eq_filter_iff]
  refine forall₂_congr fun x _ => ?_
  rw [decide_eq_decide, not_iff_not]
  exact iff_comm

theorem drop_drop_of_subset {ls : List κ} (h : ∀ k ∈ ls, k ∈ ks) :
    drop key ks (drop key ls xs) = drop key ks xs := by
  rw [drop, drop, drop, filter_filter]
  refine filter_congr fun x _ => ?_
  by_cases hx : key x ∈ ks
  · simp [hx]
  · simp [hx, mt (h (key x)) hx]

/-- What one writer selects by another property survives if no key is taken from it. -/
theorem filter_drop {p : α → Bool} (h : ∀ x ∈ xs, p x = true → key x ∉ ks) :
    (drop key ks xs).filter p = xs.filter p := by
  rw [drop, filter_filter]
  refine filter_congr fun x hx => ?_
  by_cases hp : p x = true
  · simp [hp, h x hx hp]
  · simp [hp]

@[simp] theorem mem_pick {x : α} : x ∈ pick key ks xs ↔ x ∈ xs ∧ key x ∈ ks := by
  simp [pick]

theorem length_drop_add_length_pick :
    (drop key ks xs).length + (pick key ks xs).length = xs.length := by
  induction xs with
  | nil => rfl
  | cons x xs ih =>
    rw [drop, pick] at ih
    rw [drop, pick, filter_cons, filter_cons]
    by_cases hx : key x ∈ ks
    · simp only [hx, not_true, decide_false, decide_true, if_true, length_cons]
      simp only [Bool.false_eq_true, if_false]
      omega
    · simp only [hx, not_false_eq_true, decide_false, decide_true, if_true, length_cons]
      simp only [Bool.false_eq_true, if_false]
      omega

theorem pick_append : pick key ks (xs ++ ys) = pick key ks xs ++ pick key ks ys := by
  simp [pick]

theorem pick_eq_self_iff : pick key ks xs = xs ↔ ∀ x ∈ xs, key x ∈ ks := by
  simp [pick, filter_eq_self]

theorem pick_eq_nil_iff : pick key ks xs = [] ↔ ∀ x ∈ xs, key x ∉ ks := by
  simp [pick, filter_eq_nil_iff]

theorem pick_drop_self : pick key ks (drop key ks xs) = [] :=
  pick_eq_nil_iff.mpr fun _ hx => (mem_drop.mp hx).2

theorem pick_append_left (h : ∀ y ∈ ys, key y ∉ ks) : pick key ks (xs ++ ys) = pick key ks xs := by
  rw [pick_append, pick_eq_nil_iff.mpr h, append_nil]

/-- Where entries are taken out by other keys, those picked stay if they have none of these. -/
theorem pick_drop {κ' : Type*} [DecidableEq κ'] {key' : α → κ'} {ls : List κ'}
    (h : ∀ x ∈ xs, key x ∈ ks → key' x ∉ ls) : pick key ks (drop key' ls xs) = pick key ks xs := by
  rw [pick, pick, drop, filter_filter]
  refine filter_congr fun x hx => ?_
  by_cases hk : key x ∈ ks
  · simp [hk, h x hx hk]
  · simp [hk]

theorem filter_eq_singleton (h : (xs.map key).Nodup) {x : α} (hx : x ∈ xs) :
    xs.filter (fun y => key y = key x) = [x] := by
  induction xs with
  | nil => contradiction
  | cons y ys ih =>
    rw [map_cons, nodup_cons] at h
    obtain rfl | hx := mem_cons.mp hx
    · rw [filter_cons_of_pos (by simp), filter_eq_nil_iff.mpr]
      intro z hz hkey
      exact h.1 (of_decide_eq_true hkey ▸ mem_map_of_mem hz)
    · have hne : key y ≠ key x := fun hkey => h.1 (hkey ▸ mem_map_of_mem hx)
      rw [filter_cons_of_neg (by simpa using hne), ih h.2 hx]

theorem drop_put (h : ∀ y ∈ ys, key y ∈ ks) : drop key ks (put key xs ys) = drop key ks xs := by
  have hys : drop key ks ys = [] := drop_eq_nil_iff.mpr h
  rw [put, drop_append, hys, append_nil, drop_drop_of_subset]
  intro k hk
  obtain ⟨y, hy, rfl⟩ := mem_map.mp hk
  exact h y hy

theorem mem_put {x : α} : x ∈ put key xs ys ↔ (x ∈ xs ∧ key x ∉ ys.map key) ∨ x ∈ ys := by
  rw [put, mem_append, mem_drop]

theorem last_put : Last key (put key xs ys) ys :=
  ⟨drop key (ys.map key) xs, rfl, fun _ hx => (mem_drop.mp hx).2⟩

/-- Laying entries down changes nothing exactly when they already stand last. -/
theorem put_eq_self_iff : put key xs ys = xs ↔ Last key xs ys := by
  constructor
  · intro h
    rw [← h]
    exact last_put
  · rintro ⟨front, rfl, hfront⟩
    have hys : drop key (ys.map key) ys = [] :=
      drop_eq_nil_iff.mpr fun y hy => mem_map_of_mem hy
    rw [put, drop_append, hys, drop_eq_self_iff.mpr hfront, append_nil]

omit [DecidableEq κ] in
theorem Last.unique (h : Last key xs ys) (h' : Last key xs zs) (hlen : ys.length = zs.length) :
    ys = zs := by
  obtain ⟨front, rfl, -⟩ := h
  obtain ⟨front', heq, -⟩ := h'
  exact (append_inj' heq hlen).2

section Map

variable {β : Type*} {value : α → β} {k : κ}

theorem lookup_foldl_insert (start : AList fun _ : κ => β) :
    (xs.foldl (fun map x => map.insert (key x) (value x)) start).lookup k =
      ((xs.filter fun x => key x = k).getLast?.map value).or (start.lookup k) := by
  induction xs generalizing start with
  | nil => rfl
  | cons x xs ih =>
    rw [foldl_cons, ih]
    by_cases hx : key x = k
    · rw [filter_cons_of_pos (by simpa using hx), List.getLast?_cons, ← hx,
        AList.lookup_insert]
      cases (xs.filter fun y => key y = key x).getLast? <;> rfl
    · rw [filter_cons_of_neg (by simpa using hx),
        AList.lookup_insert_ne (fun hsame => hx hsame.symm)]

end Map

section Set

variable {x y : α} {wanted : List α}

/-- Put an entry where the first one with its key stands, or at the end. -/
def set (key : α → κ) (x : α) : List α → List α
  | [] => [x]
  | y :: ys => if key y = key x then x :: ys else y :: set key x ys

def setAll (key : α → κ) (wanted xs : List α) : List α :=
  wanted.foldl (fun xs x => set key x xs) xs

/-- Under its key the entry is found. -/
def Has (key : α → κ) (xs : List α) (x : α) : Prop :=
  xs.find? (fun y => key y = key x) = some x

theorem has_set : Has key (set key x xs) x := by
  induction xs with
  | nil => simp [set, Has]
  | cons y ys ih =>
    rw [set]
    split
    · simp [Has]
    · next hne => simpa [Has, hne] using ih

theorem Has.set_of_ne (h : Has key xs y) (hne : key x ≠ key y) : Has key (set key x xs) y := by
  induction xs with
  | nil => simp [Has] at h
  | cons z zs ih =>
    rw [set]
    by_cases hz : key z = key y
    · have hzx : ¬key z = key x := fun hzx => hne (hzx.symm.trans hz)
      rw [if_neg hzx]
      simpa [Has, hz] using h
    · have hrest : Has key zs y := by simpa [Has, hz] using h
      split
      · simpa [Has, hne] using hrest
      · simpa [Has, hz] using ih hrest

theorem Has.set_eq_self (h : Has key xs x) : set key x xs = xs := by
  induction xs with
  | nil => simp [Has] at h
  | cons y ys ih =>
    rw [set]
    split
    · next heq =>
      obtain rfl : y = x := by simpa [Has, heq] using h
      rfl
    · next hne =>
      have hrest : Has key ys x := by simpa [Has, hne] using h
      rw [ih hrest]

theorem Has.setAll_of_ne (h : Has key xs y) (hne : ∀ x ∈ wanted, key x ≠ key y) :
    Has key (setAll key wanted xs) y := by
  induction wanted generalizing xs with
  | nil => exact h
  | cons x wanted ih =>
    rw [forall_mem_cons] at hne
    exact ih (h.set_of_ne hne.1) hne.2

theorem has_setAll (hwanted : (wanted.map key).Nodup) (hx : x ∈ wanted) :
    Has key (setAll key wanted xs) x := by
  induction wanted generalizing xs with
  | nil => contradiction
  | cons y wanted ih =>
    rw [map_cons, nodup_cons] at hwanted
    obtain rfl | hx := mem_cons.mp hx
    · apply has_set.setAll_of_ne
      intro z hz heq
      exact hwanted.1 (heq ▸ mem_map_of_mem hz)
    · exact ih hwanted.2 hx

theorem setAll_eq_self (h : ∀ x ∈ wanted, Has key xs x) : setAll key wanted xs = xs := by
  induction wanted with
  | nil => rfl
  | cons x wanted ih =>
    rw [forall_mem_cons] at h
    rw [setAll, foldl_cons, h.1.set_eq_self]
    exact ih h.2

end Set

end Keyed
