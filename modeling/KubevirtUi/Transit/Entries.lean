import KubevirtUi.Transit.Ranges

/-!
# Entries of an exclude list

An entry of IPv4 is an address, a network, or a range of addresses. Its text is read as the blocks
that it stands for: a range whose ends are in the wrong order stands for none.
-/

namespace Transit

open Go Go.Netip List

inductive Entry where
  | address (a : BitVec 32)
  | network (p : Block 32)
  | range (first last : BitVec 32)

def Entry.text : Entry → String
  | .address a => String.ofList (formatIPv4 a)
  | .network p => prefixString (.v4 p)
  | .range first last => String.ofList (formatIPv4 first ++ ("..".toList ++ formatIPv4 last))

section Cut

variable {ds rest : List Char}

/-- Put a text in front of what is before the cut. -/
def prepend (s : List Char) (cut : Option (List Char × List Char)) :
    Option (List Char × List Char) := cut.map fun parts => (s ++ parts.1, parts.2)

theorem prepend_append (s t : List Char) (cut : Option (List Char × List Char)) :
    prepend (s ++ t) cut = prepend s (prepend t cut) := by
  cases cut with
  | none => rfl
  | some parts => simp [prepend]

theorem cutChars_dots_of_not_mem (h : '.' ∉ ds) :
    cutChars "..".toList (ds ++ rest) = prepend ds (cutChars "..".toList rest) := by
  induction ds with
  | nil =>
    rw [nil_append]
    cases cutChars "..".toList rest <;> rfl
  | cons d ds ih =>
    rw [mem_cons, not_or] at h
    have hstart : "..".toList.isPrefixOf (d :: (ds ++ rest)) = false := by
      have hdots : "..".toList = ['.', '.'] := rfl
      rw [hdots, isPrefixOf_cons_cons, beq_eq_false_iff_ne.mpr h.1, Bool.false_and]
    rw [cons_append, cutChars, hstart, ih h.2]
    cases cutChars "..".toList rest <;> rfl

theorem cutChars_dots_dot (hne : ds ≠ []) (h : '.' ∉ ds) :
    cutChars "..".toList ('.' :: (ds ++ rest)) =
      prepend ('.' :: ds) (cutChars "..".toList rest) := by
  cases ds with
  | nil => contradiction
  | cons d ds =>
    have hd : '.' ≠ d := fun hd => h (hd ▸ mem_cons_self)
    have hstart : "..".toList.isPrefixOf ('.' :: (d :: ds ++ rest)) = false := by
      have hdots : "..".toList = ['.', '.'] := rfl
      rw [hdots, isPrefixOf_cons_cons, cons_append, isPrefixOf_cons_cons,
        beq_eq_false_iff_ne.mpr hd, Bool.false_and, Bool.and_false]
    rw [cutChars, hstart, cutChars_dots_of_not_mem h]
    cases cutChars "..".toList rest <;> rfl

theorem cutChars_dots_formatIPv4 (a : BitVec 32) : cutChars "..".toList (formatIPv4 a ++ rest) =
    prepend (formatIPv4 a) (cutChars "..".toList rest) := by
  have hdot (n : Nat) : '.' ∉ Nat.toDigits 10 n := fun hmem =>
    absurd (Nat.isDigit_of_mem_toDigits (by omega) (by omega) hmem) (by decide)
  have hfield (n : Nat) (rest : List Char) :
      cutChars "..".toList ('.' :: (Nat.toDigits 10 n ++ rest)) =
        prepend ('.' :: Nat.toDigits 10 n) (cutChars "..".toList rest) :=
    cutChars_dots_dot Nat.toDigits_ne_nil (hdot n)
  simp only [formatIPv4, append_assoc, cons_append]
  rw [cutChars_dots_of_not_mem (hdot _), hfield, hfield, hfield, ← prepend_append, ← prepend_append,
    ← prepend_append]
  simp only [append_assoc, cons_append]

end Cut

variable {c : Char}

section Read

variable {a b : BitVec 32} {p : Block 32} {entry : Entry}

/-- The characters of an entry. -/
def isEntryChar (c : Char) : Bool := c.isDigit || c = '.' || c = '/'

theorem isEntryChar_of_mem_formatIPv4 (h : c ∈ formatIPv4 a) : isEntryChar c = true := by
  obtain hdigit | rfl := isDigit_or_dot_of_mem_formatIPv4 h
  · simp [isEntryChar, hdigit]
  · decide

theorem isEntryChar_of_mem_prefixString (h : c ∈ (prefixString (.v4 p)).toList) :
    isEntryChar c = true := by
  rw [prefixString, String.toList_ofList] at h
  obtain h | rfl | h := by simpa only [mem_append, mem_cons] using h
  · exact isEntryChar_of_mem_formatIPv4 h
  · decide
  · simp [isEntryChar, Nat.isDigit_of_mem_toDigits (by omega) (by omega) h]

theorem Entry.isEntryChar_of_mem_text (h : c ∈ entry.text.toList) : isEntryChar c = true := by
  cases entry with
  | address a => exact isEntryChar_of_mem_formatIPv4 (String.toList_ofList ▸ h)
  | network p => exact isEntryChar_of_mem_prefixString h
  | range first last =>
    rw [Entry.text, String.toList_ofList, mem_append, mem_append] at h
    obtain h | h | h := h
    · exact isEntryChar_of_mem_formatIPv4 h
    · obtain rfl : c = '.' := by simpa using h
      decide
    · exact isEntryChar_of_mem_formatIPv4 h

theorem isSpace_of_isEntryChar (h : isEntryChar c = true) : Go.isSpace c = false := by
  obtain (h | rfl) | rfl : (c.isDigit = true ∨ c = '.') ∨ c = '/' := by
    simpa [isEntryChar] using h
  · exact isSpace_of_isDigit h
  · decide
  · decide

theorem Entry.trimSpace_text : trimSpace entry.text = entry.text := by
  rw [trimSpace, trimChars_of_forall fun c hc => isSpace_of_isEntryChar
    (Entry.isEntryChar_of_mem_text hc), String.ofList_toList]

theorem cutChars_dots_address : cutChars "..".toList (formatIPv4 a) = none := by
  have hcut := @cutChars_dots_formatIPv4 [] a
  rwa [append_nil] at hcut

theorem cutChars_dots_network : cutChars "..".toList (prefixString (.v4 p)).toList = none := by
  have hdigits : '.' ∉ '/' :: Nat.toDigits 10 p.bits := by
    rw [mem_cons, not_or]
    exact ⟨by decide, fun hmem =>
      absurd (Nat.isDigit_of_mem_toDigits (by omega) (by omega) hmem) (by decide)⟩
  have hcut := @cutChars_dots_of_not_mem _ [] hdigits
  rw [append_nil] at hcut
  have htext : (prefixString (.v4 p)).toList = formatIPv4 p.base ++ '/' :: Nat.toDigits 10 p.bits :=
    String.toList_ofList
  rw [htext, cutChars_dots_formatIPv4, hcut]
  rfl

theorem cutChars_dots_range : cutChars "..".toList
    (formatIPv4 a ++ ("..".toList ++ formatIPv4 b)) = some (formatIPv4 a, formatIPv4 b) := by
  have hcut : cutChars "..".toList ("..".toList ++ formatIPv4 b) = some ([], formatIPv4 b) := rfl
  rw [cutChars_dots_formatIPv4, hcut, prepend, Option.map_some, append_nil]

theorem cutChars_singleton {s : List Char} (h : c ∉ s) : cutChars [c] s = none := by
  induction s with
  | nil => rfl
  | cons d s ih =>
    rw [mem_cons, not_or] at h
    have hstart : [c].isPrefixOf (d :: s) = false := by
      rw [isPrefixOf_cons_cons, beq_eq_false_iff_ne.mpr h.1, Bool.false_and]
    rw [cutChars, hstart, ih h.2]
    rfl

theorem parseAddrZone_formatIPv4 : parseAddrZone (formatIPv4 a) = some (.v4 a) := by
  rw [parseAddrZone, cutChars_singleton (foreign_percent.not_mem_formatIPv4 a)]
  exact parseAddr_formatIPv4 a

theorem backwards_formatIPv4 : Backwards (formatIPv4 a) (formatIPv4 b) (.v4 a) (.v4 b) ↔ b < a := by
  have hzone (c : BitVec 32) : zone (formatIPv4 c) = [] := by
    rw [zone, cutChars_singleton (foreign_percent.not_mem_formatIPv4 c)]
    rfl
  rw [Backwards, hzone, hzone, less, decide_eq_true_iff]
  simp

end Read

/-- The blocks that an entry stands for. -/
def Entry.Blocks : Entry → List (Block 32) → Prop
  | .address a, bs => bs = [⟨a, 32, Block.le_bits_32⟩]
  | .network p, bs => bs = [p.masked]
  | .range first last, bs => Block.Covers last first.toNat bs

namespace Entry

variable {entry : Entry} {bs cs : List (Block 32)}

theorem Blocks.unique (hb : entry.Blocks bs) (hc : entry.Blocks cs) : bs = cs := by
  cases entry with
  | address a => exact hb.trans hc.symm
  | network p => exact hb.trans hc.symm
  | range first last => exact Block.Covers.unique hb hc

theorem Blocks.masked_eq (h : entry.Blocks bs) : ∀ b ∈ bs, b.masked = b := by
  cases entry with
  | address a =>
    rw [h, forall_mem_singleton, Block.masked_eq_self_iff]
    exact Nat.one_dvd a.toNat
  | network p =>
    rw [h, forall_mem_singleton]
    exact p.masked_masked
  | range first last => exact Block.Covers.masked_eq h

theorem text_ne_empty : entry.text ≠ "" := by
  intro hempty
  have htext := congrArg String.toList hempty
  cases entry with
  | address a =>
    rw [text, String.toList_ofList] at htext
    exact formatIPv4_ne_nil a htext
  | network p =>
    have hslash := slash_mem_prefixString (.v4 p)
    rw [text] at htext
    rw [htext] at hslash
    contradiction
  | range first last =>
    rw [text, String.toList_ofList] at htext
    exact formatIPv4_ne_nil first (append_eq_nil_iff.mp htext).1

theorem exists_parseReserved_text :
    ∃ bs : List (Block 32), parseReserved entry.text = some (bs.map Prefix.v4) ∧
      entry.Blocks bs := by
  rw [parseReserved, trimSpace_text, if_neg text_ne_empty]
  cases entry with
  | address a =>
    have htext : (text (.address a)).toList = formatIPv4 a := String.toList_ofList
    rw [htext, cutChars_dots_address]
    dsimp only
    rw [if_neg (foreign_slash.not_mem_formatIPv4 a), parseAddrZone_formatIPv4]
    exact ⟨_, rfl, rfl⟩
  | network p =>
    have htext : text (.network p) = prefixString (.v4 p) := rfl
    rw [htext, cutChars_dots_network]
    dsimp only
    rw [if_pos (slash_mem_prefixString _), parsePrefix_prefixString]
    exact ⟨[p.masked], rfl, rfl⟩
  | range first last =>
    have htext : (text (.range first last)).toList =
        formatIPv4 first ++ ("..".toList ++ formatIPv4 last) := String.toList_ofList
    have htrim (a : BitVec 32) : trimChars (formatIPv4 a) = formatIPv4 a :=
      trimChars_of_forall fun c hc => isSpace_of_isEntryChar (isEntryChar_of_mem_formatIPv4 hc)
    rw [htext, cutChars_dots_range]
    dsimp only
    rw [htrim, htrim, parseAddrZone_formatIPv4, parseAddrZone_formatIPv4]
    dsimp only
    by_cases hlt : last < first
    · rw [if_pos (backwards_formatIPv4.mpr hlt)]
      exact ⟨[], rfl, Block.Covers.nil (BitVec.lt_def.mp hlt)⟩
    · rw [if_neg (mt backwards_formatIPv4.mp hlt)]
      have hfuel : last.toNat - first.toNat < (last - first).toNat + 1 := by
        rw [BitVec.toNat_sub]
        have hlt := first.isLt
        omega
      obtain ⟨bs, hbs, hcovers⟩ := summariseFrom_covers hfuel
      exact ⟨bs, congrArg some hbs, hcovers⟩

end Entry

end Transit
