import KubevirtUi.Go.Strconv
import KubevirtUi.Python.Ipaddress
import Mathlib.Data.List.AList

/-!
# Entries of control-plane ports

One ConfigMap says for each tenant which two ports of the shared address are its own. An entry is
a text, written in one way and read back with some tolerance; the two lowest ports that are free
are handed out.
-/

namespace Tenancy

open List AList

open Python (strip strip_eq_self isSpace_eq_false_of_isDigit)

/-- `str.isdigit`; other digits than these ten are not written. -/
def isDigits (s : List Char) : Bool := s ≠ [] ∧ s.all Char.isDigit = true

/-- `int` of digits -/
def intOf (s : List Char) : Nat := Nat.ofDigitChars 10 s 0

/-- One part between commas is read: a later one of the same name counts. -/
def readPart (found : Option Nat × Option Nat) (part : List Char) : Option Nat × Option Nat :=
  let key := strip (part.takeWhile (· ≠ '='))
  let value := strip ((part.dropWhile (· ≠ '=')).drop 1)
  if key = "api".toList ∧ isDigits value = true then (some (intOf value), found.2)
  else if key = "konn".toList ∧ isDigits value = true then (found.1, some (intOf value))
  else found

def parseEntry (value : String) : Option (Nat × Nat) :=
  match (value.toList.splitOn ',').foldl readPart (none, none) with
  | (some api, some konn) => some (api, konn)
  | _ => none

def formatEntry (ports : Nat × Nat) : String :=
  "api=" ++ toString ports.1 ++ ",konn=" ++ toString ports.2

section Texts

variable {s : List Char} {n : Nat}

theorem isDigit_toDigits {c : Char} (h : c ∈ Nat.toDigits 10 n) : c.isDigit = true :=
  Nat.isDigit_of_mem_toDigits (by omega) (by omega) h

theorem strip_toDigits : strip (Nat.toDigits 10 n) = Nat.toDigits 10 n :=
  strip_eq_self fun _ hc => isSpace_eq_false_of_isDigit (isDigit_toDigits hc)

theorem isDigits_toDigits : isDigits (Nat.toDigits 10 n) = true :=
  decide_eq_true ⟨Nat.toDigits_ne_nil, all_eq_true.mpr fun _ => isDigit_toDigits⟩

theorem intOf_toDigits : intOf (Nat.toDigits 10 n) = n := Nat.ofDigitChars_ten_toDigits

theorem not_mem_toDigits {c : Char} (h : c.isDigit = false) : c ∉ Nat.toDigits 10 n := by
  intro hc
  rw [isDigit_toDigits hc] at h
  contradiction

theorem takeWhile_part {name : List Char} (h : '=' ∉ name) :
    (name ++ '=' :: s).takeWhile (· ≠ '=') = name ∧
      (name ++ '=' :: s).dropWhile (· ≠ '=') = '=' :: s := by
  have hname : ∀ c ∈ name, (decide (c ≠ '=')) = true := fun c hc =>
    decide_eq_true fun heq => h (heq ▸ hc)
  constructor
  · rw [takeWhile_append_of_pos hname]
    simp
  · rw [dropWhile_append_of_pos hname]
    simp

theorem readPart_api (found : Option Nat × Option Nat) :
    readPart found ("api".toList ++ '=' :: Nat.toDigits 10 n) = (some n, found.2) := by
  obtain ⟨hkey, hvalue⟩ := takeWhile_part (s := Nat.toDigits 10 n)
    (show '=' ∉ "api".toList by decide)
  simp only [readPart, hkey, hvalue, drop_succ_cons, drop_zero, strip_toDigits,
    isDigits_toDigits, intOf_toDigits]
  rfl

theorem readPart_konn (found : Option Nat × Option Nat) :
    readPart found ("konn".toList ++ '=' :: Nat.toDigits 10 n) = (found.1, some n) := by
  obtain ⟨hkey, hvalue⟩ := takeWhile_part (s := Nat.toDigits 10 n)
    (show '=' ∉ "konn".toList by decide)
  simp only [readPart, hkey, hvalue, drop_succ_cons, drop_zero, strip_toDigits,
    isDigits_toDigits, intOf_toDigits]
  rfl

theorem parseEntry_formatEntry (ports : Nat × Nat) :
    parseEntry (formatEntry ports) = some ports := by
  have htext : (formatEntry ports).toList = ("api".toList ++ '=' :: Nat.toDigits 10 ports.1) ++
        ',' :: ("konn".toList ++ '=' :: Nat.toDigits 10 ports.2) := by
    have hapi : "api=".toList = "api".toList ++ ['='] := by decide
    have hkonn : ",konn=".toList = ',' :: ("konn".toList ++ ['=']) := by decide
    have hnat (n : Nat) : (toString n).toList = Nat.toDigits 10 n := Go.toList_toString_natCast n
    simp only [formatEntry, String.toList_append, hapi, hkonn, hnat, append_assoc,
      cons_append, nil_append]
  have hfirst : ',' ∉ "api".toList ++ '=' :: Nat.toDigits 10 ports.1 := by
    have hdigits : ',' ∉ Nat.toDigits 10 ports.1 := not_mem_toDigits (by decide)
    simpa using hdigits
  have hsecond : ',' ∉ "konn".toList ++ '=' :: Nat.toDigits 10 ports.2 := by
    have hdigits : ',' ∉ Nat.toDigits 10 ports.2 := not_mem_toDigits (by decide)
    simpa using hdigits
  rw [parseEntry, htext, splitOn_append_cons_self_of_not_mem hfirst,
    splitOn_eq_singleton hsecond, foldl_cons, foldl_cons, foldl_nil,
    readPart_api, readPart_konn]

end Texts

/-- The ports from `base` on and below `stop`, except those that are reserved. -/
structure Pool where
  base : Nat
  stop : Nat
  reserved : List Nat

abbrev Entries := AList fun _ : String => String

/-- What an entry says is used. -/
def portsOf (value : String) : List Nat :=
  match parseEntry value with
  | some (api, konn) => [api, konn]
  | none => []

def usedPorts (data : Entries) : List Nat := data.entries.flatMap fun e => portsOf e.2

/-- The loop over the ports: one that is picked is blocked from then on. -/
def pickFrom : List Nat → Option Nat → List Nat → Option (Nat × Nat)
  | _, _, [] => none
  | blocked, picked, p :: ports =>
    if p ∈ blocked then pickFrom blocked picked ports
    else
      match picked with
      | none => pickFrom (p :: blocked) (some p) ports
      | some first => some (first, p)

/-- The two lowest ports that are free, if there are two. -/
def pickTwoFree (pool : Pool) (used : List Nat) : Option (Nat × Nat) :=
  pickFrom (used ++ pool.reserved) none (List.range' pool.base (pool.stop - pool.base))

/-- What the ConfigMap says of a tenant. An empty text, or one that is not understood, says
nothing. -/
def issued (data : Entries) (tenant : String) : Option (Nat × Nat) :=
  match data.lookup tenant with
  | none => none
  | some existing => if existing = "" then none else parseEntry existing

/-- The two ports are different, in the pool, and not reserved. -/
structure Pool.Has (pool : Pool) (ports : Nat × Nat) : Prop where
  ne : ports.1 ≠ ports.2
  base : pool.base ≤ ports.1 ∧ pool.base ≤ ports.2
  stop : ports.1 < pool.stop ∧ ports.2 < pool.stop
  reserved : ports.1 ∉ pool.reserved ∧ ports.2 ∉ pool.reserved

/-- No port is in both pairs. -/
def Clear (ports other : Nat × Nat) : Prop :=
  ports.1 ∉ [other.1, other.2] ∧ ports.2 ∉ [other.1, other.2]

/-- All entries are understood, each has ports of the pool, and those of two tenants have none in
common. -/
structure Apart (pool : Pool) (data : Entries) : Prop where
  has : ∀ tenant value, data.lookup tenant = some value → ∃ ports, parseEntry value = some ports ∧
    pool.Has ports
  clear : ∀ tenant other ports ports', tenant ≠ other → issued data tenant = some ports →
    issued data other = some ports' → Clear ports ports'

section Ports

variable {pool : Pool} {data : Entries} {tenant other : String} {ports : Nat × Nat}
  {blocked : List Nat}

theorem mem_of_pickFrom {picked : Option Nat} {rest : List Nat}
    (h : pickFrom blocked picked rest = some ports) : ports.2 ∈ rest ∧ ports.2 ∉ blocked ∧
      (picked = some ports.1 ∨
        picked = none ∧ ports.1 ∈ rest ∧ ports.1 ∉ blocked ∧ ports.1 ≠ ports.2) := by
  induction rest generalizing blocked picked with
  | nil => exact absurd h (by simp [pickFrom])
  | cons p rest ih =>
    unfold pickFrom at h
    split at h
    · obtain ⟨hmem, hfree, hfirst⟩ := ih h
      refine ⟨mem_cons_of_mem p hmem, hfree, hfirst.imp_right ?_⟩
      rintro ⟨hnone, hone, hrest⟩
      exact ⟨hnone, mem_cons_of_mem p hone, hrest⟩
    · next hp =>
      cases picked with
      | none =>
        obtain ⟨hmem, hfree, hfirst⟩ := ih h
        rw [mem_cons, not_or] at hfree
        obtain ⟨hne, hfree⟩ := hfree
        obtain hfirst | ⟨hno, -⟩ := hfirst
        · obtain rfl : p = ports.1 := Option.some.inj hfirst
          exact ⟨mem_cons_of_mem _ hmem, hfree, .inr ⟨rfl, mem_cons_self, hp, Ne.symm hne⟩⟩
        · contradiction
      | some first =>
        obtain rfl := Option.some.inj h
        exact ⟨mem_cons_self, hp, .inl rfl⟩

theorem has_of_pickTwoFree {used : List Nat} (h : pickTwoFree pool used = some ports) :
    pool.Has ports ∧ ports.1 ∉ used ∧ ports.2 ∉ used := by
  obtain ⟨hsecond, hfree₂, hfirst⟩ := mem_of_pickFrom h
  obtain hno | ⟨-, hfirst, hfree₁, hne⟩ := hfirst
  · contradiction
  rw [mem_range'_1] at hfirst hsecond
  rw [mem_append, not_or] at hfree₁ hfree₂
  exact ⟨⟨hne, ⟨hfirst.1, hsecond.1⟩, ⟨by omega, by omega⟩, hfree₁.2, hfree₂.2⟩, hfree₁.1, hfree₂.1⟩

theorem lookup_of_issued (h : issued data tenant = some ports) :
    ∃ value, data.lookup tenant = some value ∧ parseEntry value = some ports := by
  unfold issued at h
  split at h
  · contradiction
  · next value hvalue =>
    split at h
    · contradiction
    · exact ⟨value, hvalue, h⟩

theorem mem_usedPorts (h : issued data tenant = some ports) :
    ports.1 ∈ usedPorts data ∧ ports.2 ∈ usedPorts data := by
  obtain ⟨value, hvalue, hparse⟩ := lookup_of_issued h
  have hmem : (⟨tenant, value⟩ : Sigma fun _ : String => String) ∈ data.entries :=
    mem_lookup_iff.mp hvalue
  have hports : portsOf value = [ports.1, ports.2] := by rw [portsOf, hparse]
  constructor
  · exact mem_flatMap.mpr ⟨_, hmem, by rw [hports]; exact mem_cons_self⟩
  · exact mem_flatMap.mpr ⟨_, hmem, by rw [hports]; exact mem_cons_of_mem _ (mem_singleton_self _)⟩

theorem formatEntry_ne_empty : formatEntry ports ≠ "" := by
  intro hempty
  have hparse := parseEntry_formatEntry ports
  rw [hempty] at hparse
  revert hparse
  simp [parseEntry, readPart, isDigits, strip]

theorem issued_insert_self :
    issued (data.insert tenant (formatEntry ports)) tenant = some ports := by
  rw [issued, lookup_insert]
  simp only [if_neg formatEntry_ne_empty, parseEntry_formatEntry]

theorem issued_insert_of_ne {value : String} (h : other ≠ tenant) :
    issued (data.insert tenant value) other = issued data other := by
  rw [issued, lookup_insert_ne h, issued]

theorem issued_erase_of_ne (h : other ≠ tenant) :
    issued (data.erase tenant) other = issued data other := by
  rw [issued, lookup_erase_ne h, issued]

theorem issued_erase_self : issued (data.erase tenant) tenant = none := by
  rw [issued, lookup_erase]

theorem apart_empty : Apart pool (∅ : Entries) where
  has tenant value h := by simp at h
  clear tenant other ports ports' _ h := by simp [issued] at h

theorem Clear.symm {ports' : Nat × Nat} (h : Clear ports ports') : Clear ports' ports := by
  simp only [Clear, mem_cons, not_mem_nil, or_false, not_or] at h ⊢
  exact ⟨⟨Ne.symm h.1.1, Ne.symm h.2.1⟩, Ne.symm h.1.2, Ne.symm h.2.2⟩

theorem Apart.insert (h : Apart pool data)
    (hports : pickTwoFree pool (usedPorts data) = some ports) :
    Apart pool (data.insert tenant (formatEntry ports)) := by
  obtain ⟨hhas, hfree₁, hfree₂⟩ := has_of_pickTwoFree hports
  have hclear {other : String} {ports' : Nat × Nat} (hissued : issued data other = some ports') :
      Clear ports ports' := by
    obtain ⟨hused₁, hused₂⟩ := mem_usedPorts hissued
    constructor
    · rintro hmem
      obtain heq | heq := mem_pair.mp hmem
      · exact hfree₁ (heq ▸ hused₁)
      · exact hfree₁ (heq ▸ hused₂)
    · rintro hmem
      obtain heq | heq := mem_pair.mp hmem
      · exact hfree₂ (heq ▸ hused₁)
      · exact hfree₂ (heq ▸ hused₂)
  constructor
  · intro other value hvalue
    by_cases hother : other = tenant
    · subst hother
      rw [lookup_insert] at hvalue
      rw [← Option.some.inj hvalue]
      exact ⟨ports, parseEntry_formatEntry ports, hhas⟩
    · rw [lookup_insert_ne hother] at hvalue
      exact h.has other value hvalue
  · intro one other first second hne hone hother
    by_cases honeself : one = tenant
    · subst honeself
      rw [issued_insert_self] at hone
      rw [issued_insert_of_ne (Ne.symm hne)] at hother
      obtain rfl := Option.some.inj hone
      exact hclear hother
    · rw [issued_insert_of_ne honeself] at hone
      by_cases hotherself : other = tenant
      · subst hotherself
        rw [issued_insert_self] at hother
        obtain rfl := Option.some.inj hother
        exact (hclear hone).symm
      · rw [issued_insert_of_ne hotherself] at hother
        exact h.clear one other first second hne hone hother

theorem Apart.erase (h : Apart pool data) : Apart pool (data.erase tenant) := by
  constructor
  · intro other value hvalue
    by_cases hother : other = tenant
    · subst hother
      rw [lookup_erase] at hvalue
      contradiction
    · rw [lookup_erase_ne hother] at hvalue
      exact h.has other value hvalue
  · intro one other first second hne hone hother
    by_cases honeself : one = tenant
    · subst honeself
      rw [issued_erase_self] at hone
      contradiction
    · by_cases hotherself : other = tenant
      · subst hotherself
        rw [issued_erase_self] at hother
        contradiction
      · rw [issued_erase_of_ne honeself] at hone
        rw [issued_erase_of_ne hotherself] at hother
        exact h.clear one other first second hne hone hother

end Ports

end Tenancy
