import KubevirtUi.Go.Netip
import Mathlib.Data.List.TakeWhile

/-!
# Reading back the text of an address

Every valid address prints to a text that `ParseAddr` reads back as the same
address, and the same holds of prefixes. Texts of addresses can therefore be
compared in place of the addresses, and the text of one family is never the text
of the other.
-/

namespace Go.Netip

open List

variable {d val digLen pos acc n b : Nat} {s : List Char} {a : Addr}

theorem digitVal_digitChar (h : d < 10) : d.digitChar.toNat - '0'.toNat = d :=
  Nat.toNat_digitChar_sub_48_of_lt_ten h

theorem parseIPv4Fields_digit (hd : d < 10) (hzero : ¬ (digLen = 1 ∧ val = 0))
    (hval : val * 10 + d ≤ 255) : parseIPv4Fields (d.digitChar :: s) val digLen pos acc =
      parseIPv4Fields s (val * 10 + d) (digLen + 1) pos acc := by
  have hdigit : d.digitChar.isDigit = true := by simp [Nat.isDigit_digitChar, hd]
  have hle : ¬ val * 10 + d > 255 := by omega
  simp only [parseIPv4Fields, hdigit, if_true, if_neg hzero, digitVal_digitChar hd, if_neg hle]

theorem parseIPv4Fields_field (hn : n < 256) :
    parseIPv4Fields (Nat.toDigits 10 n ++ s) 0 0 pos acc =
      parseIPv4Fields s n (Nat.toDigits 10 n).length pos acc := by
  by_cases h10 : n < 10
  · rw [Nat.toDigits_of_lt_base h10, singleton_append,
      parseIPv4Fields_digit h10 (by simp) (by omega)]
    simp
  · by_cases h100 : n < 100
    · rw [Nat.toDigits_of_base_le (by omega) (by omega),
        Nat.toDigits_of_lt_base (by omega : n / 10 < 10)]
      simp only [cons_append, nil_append]
      rw [parseIPv4Fields_digit (by omega) (by simp) (by omega),
        parseIPv4Fields_digit (by omega) (by omega) (by omega)]
      congr 1
      omega
    · rw [Nat.toDigits_of_base_le (by omega) (by omega : 10 ≤ n),
        Nat.toDigits_of_base_le (by omega) (by omega : 10 ≤ n / 10),
        Nat.toDigits_of_lt_base (by omega : n / 10 / 10 < 10)]
      simp only [cons_append, nil_append]
      rw [parseIPv4Fields_digit (by omega) (by simp) (by omega),
        parseIPv4Fields_digit (by omega) (by omega) (by omega),
        parseIPv4Fields_digit (by omega) (by omega) (by omega)]
      congr 1
      omega

theorem parseIPv4Fields_field_dot (hn : n < 256) (hs : s ≠ []) (hpos : pos < 3) :
    parseIPv4Fields (Nat.toDigits 10 n ++ '.' :: s) 0 0 pos acc =
      parseIPv4Fields s 0 0 (pos + 1) (acc * 256 + n) := by
  have hlen : (Nat.toDigits 10 n).length ≠ 0 := by
    simp [Nat.toDigits_ne_nil]
  have hdot : ('.' : Char).isDigit = false := by decide
  rw [parseIPv4Fields_field hn, parseIPv4Fields]
  simp [hdot, hs, Nat.toDigits_ne_nil, show pos ≠ 3 by omega]

theorem parseIPv4Fields_formatIPv4 (a : BitVec 32) :
    parseIPv4Fields (formatIPv4 a) 0 0 0 0 = some a.toNat := by
  have hlt := a.isLt
  simp only [formatIPv4, append_assoc, cons_append]
  rw [parseIPv4Fields_field_dot (by omega) (by simp [Nat.toDigits_ne_nil]) (by omega),
    parseIPv4Fields_field_dot (by omega) (by simp [Nat.toDigits_ne_nil]) (by omega),
    parseIPv4Fields_field_dot (by omega) (by simp [Nat.toDigits_ne_nil]) (by omega),
    ← append_nil (Nat.toDigits 10 (a.toNat % 256)), parseIPv4Fields_field (by omega)]
  simp only [parseIPv4Fields, Nat.lt_irrefl, if_false, Option.some.injEq]
  omega

/-- The separators of addresses: the first of them decides the family. -/
def isSeparator (c : Char) : Bool := c = '.' || c = ':' || c = '%'

theorem parseAddr_eq (s : List Char) : parseAddr s = match s.find? isSeparator with
    | some '.' => parseIPv4 s
    | some ':' => if '%' ∈ s then none else parseIPv6 s
    | _ => none := rfl

theorem exists_digitChar_of_mem_toDigits {c : Char} (hb : 1 < b) (h : c ∈ Nat.toDigits b n) :
    ∃ d < b, c = d.digitChar := by
  induction n using Nat.base_induction b hb with
  | single m hm =>
    rw [Nat.toDigits_of_lt_base hm, mem_singleton] at h
    exact ⟨m, hm, h⟩
  | digit m k hk hm ih =>
    rw [← Nat.toDigits_append_toDigits hb hm hk, mem_append,
      Nat.toDigits_of_lt_base hk, mem_singleton] at h
    obtain h | rfl := h
    · exact ih h
    · exact ⟨k, hk, rfl⟩

theorem isSeparator_of_mem_toDigits {c : Char} (hb : 1 < b) (hb' : b ≤ 16)
    (h : c ∈ Nat.toDigits b n) : isSeparator c = false := by
  have hall : ∀ d ∈ List.range 16, isSeparator d.digitChar = false := by decide
  obtain ⟨d, hd, rfl⟩ := exists_digitChar_of_mem_toDigits hb h
  exact hall d (mem_range.mpr (by omega))

theorem find?_isSeparator_toDigits (hb : 1 < b) (hb' : b ≤ 16) (s : List Char) :
    (Nat.toDigits b n ++ s).find? isSeparator = s.find? isSeparator := by
  have hnone : (Nat.toDigits b n).find? isSeparator = none := by
    simpa using fun c hc => isSeparator_of_mem_toDigits hb hb' hc
  rw [List.find?_append, hnone, Option.none_or]

theorem parseAddr_formatIPv4 (a : BitVec 32) : parseAddr (formatIPv4 a) = some (.v4 a) := by
  have hfind : (formatIPv4 a).find? isSeparator = some '.' := by
    simp only [formatIPv4, append_assoc, cons_append]
    rw [find?_isSeparator_toDigits (by omega) (by omega)]
    rfl
  rw [parseAddr_eq, hfind]
  simp [parseIPv4, parseIPv4Fields_formatIPv4]

theorem exists_digitChar_of_isDigit {c : Char} (h : c.isDigit = true) :
    ∃ d < 10, c = d.digitChar ∧ c.toNat - '0'.toNat = d := by
  have hall : ∀ d ∈ List.range 10, Char.ofNat (48 + d) = d.digitChar := by decide
  have hrange : 48 ≤ c.toNat ∧ c.toNat ≤ 57 := by
    simpa [Char.isDigit, UInt32.le_iff_toNat_le] using h
  have hzero : '0'.toNat = 48 := by decide
  refine ⟨c.toNat - 48, by omega, ?_, by rw [hzero]⟩
  rw [← hall (c.toNat - 48) (mem_range.mpr (by omega))]
  rw [show 48 + (c.toNat - 48) = c.toNat by omega, Char.ofNat_toNat]

/-- What the loop accepts is a list of octets, each without a leading zero. -/
theorem exists_octets_of_parseIPv4Fields (h : parseIPv4Fields s val digLen pos acc = some n)
    (hpos : pos ≤ 3) (hval : val < 256)
    (hfield : digLen ≠ 0 → (Nat.toDigits 10 val).length = digLen)
    (hstart : digLen = 0 → val = 0 ∧ s ≠ []) :
    ∃ octets : List Nat, octets.length = 4 - pos ∧ (∀ o ∈ octets, o < 256) ∧
      n = octets.foldl (fun acc o => acc * 256 + o) acc ∧
      (if digLen = 0 then [] else Nat.toDigits 10 val) ++ s =
        List.intercalate ['.'] (octets.map (Nat.toDigits 10)) := by
  induction s generalizing val digLen pos acc with
  | nil =>
    have hlen : digLen ≠ 0 := fun hzero => (hstart hzero).2 rfl
    rw [parseIPv4Fields] at h
    split at h
    · contradiction
    · have hthree : pos = 3 := by omega
      refine ⟨[val], by simp [hthree], by simpa using hval, ?_, by simp [hlen, List.intercalate]⟩
      simpa using (Option.some.inj h).symm
  | cons c s ih =>
    rw [parseIPv4Fields] at h
    split at h
    · next hdigit =>
      obtain ⟨d, hd, rfl, hvalue⟩ := exists_digitChar_of_isDigit hdigit
      split at h
      · contradiction
      · next hzero =>
        simp only [hvalue] at h
        split at h
        · contradiction
        · next hle =>
          have hdigits : Nat.toDigits 10 (val * 10 + d) =
              (if digLen = 0 then [] else Nat.toDigits 10 val) ++ [d.digitChar] := by
            by_cases hlen : digLen = 0
            · rw [(hstart hlen).1, if_pos hlen, Nat.zero_mul, Nat.zero_add,
                Nat.toDigits_of_lt_base hd, nil_append]
            · have hvalpos : 0 < val := by
                rw [Nat.pos_iff_ne_zero]
                rintro rfl
                have hone := hfield hlen
                rw [Nat.toDigits_of_lt_base (by omega), length_singleton] at hone
                exact hzero ⟨hone.symm, rfl⟩
              rw [if_neg hlen, ← Nat.toDigits_of_lt_base (b := 10) hd,
                Nat.toDigits_append_toDigits (by omega) hvalpos hd, Nat.mul_comm]
          obtain ⟨octets, hlength, hall, hn, htext⟩ := ih h hpos (by omega) (fun _ => by
              rw [hdigits, length_append, length_singleton]
              by_cases hlen : digLen = 0
              · simp [hlen]
              · rw [if_neg hlen, hfield hlen])
            (fun hlen => absurd hlen (by omega))
          refine ⟨octets, hlength, hall, hn, ?_⟩
          rw [← htext, if_neg (by omega : digLen + 1 ≠ 0), hdigits, append_assoc]
          rfl
    · split at h
      · next hdot =>
        subst hdot
        split at h
        · contradiction
        · next hsome =>
          split at h
          · contradiction
          · have hlen : digLen ≠ 0 := fun hzero => hsome (.inl hzero)
            obtain ⟨octets, hlength, hall, hn, htext⟩ := ih h (by omega) (by omega)
              (fun hne => absurd rfl hne) (fun _ => ⟨rfl, fun hnil => hsome (.inr hnil)⟩)
            obtain ⟨o, more, rfl⟩ : ∃ o more, octets = o :: more :=
              by
                refine exists_cons_of_ne_nil fun hnil => ?_
                rw [hnil, length_nil] at hlength
                omega
            refine ⟨val :: o :: more, ?_, forall_mem_cons.mpr ⟨hval, hall⟩, ?_, ?_⟩
            · rw [length_cons, hlength]
              omega
            · rw [foldl_cons]
              exact hn
            · rw [if_pos rfl, nil_append] at htext
              rw [if_neg hlen, htext]
              simp [List.intercalate]
      · contradiction

theorem eq_formatIPv4_of_parseAddr {a : BitVec 32} (h : parseAddr s = some (.v4 a)) :
    s = formatIPv4 a := by
  obtain ⟨n, hn, rfl⟩ := parseIPv4_of_parseAddr h
  have hne : s ≠ [] := by
    rintro rfl
    simp [parseIPv4Fields] at hn
  obtain ⟨octets, hlength, hall, hvalue, htext⟩ := exists_octets_of_parseIPv4Fields hn
    (by omega) (by omega) (fun hzero => absurd rfl hzero) (fun _ => ⟨rfl, hne⟩)
  obtain ⟨a, b, c, d, rfl⟩ : ∃ a b c d, octets = [a, b, c, d] := by
    obtain _ | ⟨a, _ | ⟨b, _ | ⟨c, _ | ⟨d, _ | ⟨e, rest⟩⟩⟩⟩⟩ := octets
    case cons.cons.cons.cons.nil => exact ⟨a, b, c, d, rfl⟩
    all_goals simp at hlength
  simp only [forall_mem_cons] at hall
  obtain ⟨ha, hb, hc, hd, -⟩ := hall
  simp only [foldl_cons, foldl_nil, Nat.zero_mul, Nat.zero_add] at hvalue
  have hlt : n < 2 ^ 32 := by omega
  rw [if_pos rfl, nil_append] at htext
  rw [htext, formatIPv4, BitVec.toNat_ofNat, Nat.mod_eq_of_lt hlt]
  have hfirst : n / 16777216 = a := by omega
  have hsecond : n / 65536 % 256 = b := by omega
  have hthird : n / 256 % 256 = c := by omega
  have hfourth : n % 256 = d := by omega
  rw [hfirst, hsecond, hthird, hfourth]
  simp [List.intercalate]

theorem isDigit_or_dot_of_mem_formatIPv4 {a : BitVec 32} {c : Char} (h : c ∈ formatIPv4 a) :
    c.isDigit = true ∨ c = '.' := by
  obtain ⟨n, hn, -⟩ := parseIPv4_of_parseAddr (parseAddr_formatIPv4 a)
  exact isDigit_or_dot_of_parseIPv4Fields hn c h

theorem formatIPv4_ne_nil (a : BitVec 32) : formatIPv4 a ≠ [] := by
  intro hnil
  have hparse := parseAddr_formatIPv4 a
  simp [hnil, parseAddr] at hparse

theorem hexVal_digitChar (h : d < 16) : hexVal d.digitChar = some d := by
  have hall : ∀ e ∈ List.range 16, hexVal e.digitChar = some e := by decide
  exact hall d (mem_range.mpr h)

theorem scanHex_toDigits {g : Nat} (hg : (Nat.toDigits 16 g).length ≤ 4) (s : List Char) :
    scanHex (Nat.toDigits 16 g ++ s) 0 0 = scanHex s g (Nat.toDigits 16 g).length := by
  induction g using Nat.base_induction 16 (by omega) generalizing s with
  | single m hm =>
    rw [Nat.toDigits_of_lt_base hm]
    simp [scanHex, hexVal_digitChar hm]
  | digit m k hk hm ih =>
    rw [← Nat.toDigits_append_toDigits (by omega) hm hk, Nat.toDigits_of_lt_base hk] at hg ⊢
    rw [length_append, length_singleton] at hg ⊢
    rw [append_assoc, ih (by omega)]
    simp only [singleton_append, scanHex, hexVal_digitChar hk]
    rw [if_neg (by omega), Nat.mul_comm]

theorem scanHex_of_isDigit {ds : List Char} (hds : ∀ c ∈ ds, c.isDigit = true) {off : Nat}
    (hlen : off + ds.length ≤ 4) (s : List Char) :
    ∃ n, scanHex (ds ++ s) acc off = scanHex s n (off + ds.length) := by
  induction ds generalizing acc off with
  | nil => exact ⟨acc, rfl⟩
  | cons c ds ih =>
    have hc : '0' ≤ c ∧ c ≤ '9' := by
      have hdigit := hds c (by simp)
      rw [Char.isDigit, Bool.and_eq_true, decide_eq_true_eq, decide_eq_true_eq] at hdigit
      exact hdigit
    rw [length_cons] at hlen
    obtain ⟨n, hn⟩ : ∃ n, scanHex (ds ++ s) (acc * 16 + (c.toNat - '0'.toNat)) (off + 1) =
        scanHex s n (off + 1 + ds.length) := ih (fun d hd => hds d (by simp [hd])) (by omega)
    refine ⟨n, ?_⟩
    simp only [cons_append, scanHex, hexVal, hc, and_self, if_true]
    rw [if_neg (by omega), hn, length_cons, Nat.add_assoc, Nat.add_comm 1]

theorem length_group_le {g : Nat} (hg : g < 65536) : (Nat.toDigits 16 g).length ≤ 4 :=
  (Nat.length_toDigits_le_iff (by omega) (by omega)).mpr hg

theorem scanHex_group {g : Nat} (hg : g < 65536) (hs : s.head?.bind hexVal = none) :
    scanHex (Nat.toDigits 16 g ++ s) 0 0 = some (g, (Nat.toDigits 16 g).length, s) := by
  rw [scanHex_toDigits (length_group_le hg)]
  cases s with
  | nil => rfl
  | cons c s =>
    have hc : hexVal c = none := by simpa using hs
    simp [scanHex, hc]

section Groups

variable {g : Nat} (hg : g < 65536) (fuel : Nat) (gs : List Nat) (ellipsis : Option Nat)
include hg

theorem parseGroups_last :
    parseGroups (fuel + 1) (Nat.toDigits 16 g) gs ellipsis = some (gs ++ [g], ellipsis, []) := by
  have hscan := scanHex_group hg (s := []) rfl
  rw [append_nil] at hscan
  simp [parseGroups, hscan, Nat.toDigits_ne_nil]

theorem parseGroups_colon {c : Char} (hc : c ≠ ':') (s : List Char) :
    parseGroups (fuel + 1) (Nat.toDigits 16 g ++ ':' :: c :: s) gs ellipsis =
      parseGroups fuel (c :: s) (gs ++ [g]) ellipsis := by
  have hscan := scanHex_group hg (s := ':' :: c :: s) (by rfl)
  simp [parseGroups, hscan, Nat.toDigits_ne_nil]

theorem parseGroups_double (s : List Char) :
    parseGroups (fuel + 1) (Nat.toDigits 16 g ++ ':' :: ':' :: s) gs none =
      if s = [] then some (gs ++ [g], some (gs.length + 1), [])
      else parseGroups fuel s (gs ++ [g]) (some (gs.length + 1)) := by
  have hscan := scanHex_group hg (s := ':' :: ':' :: s) (by rfl)
  simp [parseGroups, hscan, Nat.toDigits_ne_nil]

end Groups

theorem joinGroups_singleton (g : Nat) : joinGroups [g] = Nat.toDigits 16 g := by
  simp [joinGroups, List.intercalate]

theorem joinGroups_cons_cons (g h : Nat) (gs : List Nat) :
    joinGroups (g :: h :: gs) = Nat.toDigits 16 g ++ ':' :: joinGroups (h :: gs) := by
  simp [joinGroups, List.intercalate]

theorem joinGroups_eq_cons (g : Nat) (gs : List Nat) :
    ∃ c s, joinGroups (g :: gs) = c :: s ∧ c ≠ ':' := by
  obtain ⟨t, ht⟩ : ∃ t, joinGroups (g :: gs) = Nat.toDigits 16 g ++ t := by
    cases gs with
    | nil => exact ⟨[], by rw [joinGroups_singleton, append_nil]⟩
    | cons h gs => exact ⟨_, joinGroups_cons_cons g h gs⟩
  obtain ⟨c, s, hcs⟩ := exists_cons_of_ne_nil (Nat.toDigits_ne_nil (n := g) (b := 16))
  refine ⟨c, s ++ t, by rw [ht, hcs, cons_append], ?_⟩
  have hsep : isSeparator c = false :=
    isSeparator_of_mem_toDigits (b := 16) (n := g) (by omega) (by omega) (by simp [hcs])
  rintro rfl
  exact absurd hsep (by decide)

theorem parseGroups_joinGroups {gs : List Nat} (hgs : ∀ g ∈ gs, g < 65536) (hne : gs ≠ [])
    {fuel : Nat} (hfuel : gs.length ≤ fuel) (pre : List Nat) (ellipsis : Option Nat) :
    parseGroups fuel (joinGroups gs) pre ellipsis = some (pre ++ gs, ellipsis, []) := by
  induction gs generalizing fuel pre with
  | nil => contradiction
  | cons g gs ih =>
    obtain ⟨fuel, rfl⟩ : ∃ k, fuel = k + 1 := ⟨fuel - 1, by simp at hfuel; omega⟩
    have hg := hgs g (by simp)
    cases gs with
    | nil =>
      rw [joinGroups_singleton, parseGroups_last hg]
    | cons h gs =>
      obtain ⟨c, s, hcs, hcolon⟩ := joinGroups_eq_cons h gs
      rw [joinGroups_cons_cons, hcs, parseGroups_colon hg fuel pre ellipsis hcolon, ← hcs,
        ih (fun x hx => hgs x (by simp [hx])) (by simp)
          (by simp at hfuel ⊢; omega)]
      simp

theorem parseGroups_ellipsis {gs gs' : List Nat} (hgs : ∀ g ∈ gs, g < 65536)
    (hgs' : ∀ g ∈ gs', g < 65536) (hne : gs ≠ []) {fuel : Nat}
    (hfuel : gs.length + gs'.length ≤ fuel) (pre : List Nat) :
    parseGroups fuel (joinGroups gs ++ ':' :: ':' :: joinGroups gs') pre none =
      some (pre ++ gs ++ gs', some (pre.length + gs.length), []) := by
  induction gs generalizing fuel pre with
  | nil => contradiction
  | cons g gs ih =>
    obtain ⟨fuel, rfl⟩ : ∃ k, fuel = k + 1 := ⟨fuel - 1, by simp at hfuel; omega⟩
    have hg := hgs g (by simp)
    cases gs with
    | nil =>
      rw [joinGroups_singleton, parseGroups_double hg]
      cases gs' with
      | nil => simp [joinGroups]
      | cons h gs' =>
        obtain ⟨c, s, hcs, -⟩ := joinGroups_eq_cons h gs'
        rw [if_neg (by simp [hcs]),
          parseGroups_joinGroups hgs' (by simp) (by simp at hfuel ⊢; omega)]
        simp
    | cons h gs =>
      obtain ⟨c, s, hcs, hcolon⟩ := joinGroups_eq_cons h gs
      rw [joinGroups_cons_cons, append_assoc, cons_append, hcs, cons_append,
        parseGroups_colon hg fuel pre none hcolon, ← cons_append, ← hcs,
        ih (fun x hx => hgs x (by simp [hx])) (by simp) (by simp at hfuel ⊢; omega)]
      simp
      omega

theorem eq_append_of_zeroRun {gs : List Nat} {i len : Nat} (h : zeroRun gs = some (i, len)) :
    2 ≤ len ∧ i + len ≤ gs.length ∧
      gs = gs.take i ++ List.replicate len 0 ++ gs.drop (i + len) := by
  -- whatever the loop holds is a run it has measured
  have key : ∀ is : List Nat, ∀ best : Option (Nat × Nat), (∀ i len, best = some (i, len) →
        2 ≤ len ∧ len = ((gs.drop i).takeWhile (· = 0)).length) →
      ∀ i len, is.foldl (fun best i =>
        let len := ((gs.drop i).takeWhile (· = 0)).length
        if 2 ≤ len ∧ (best.elim 0 Prod.snd) < len then some (i, len) else best) best =
          some (i, len) → 2 ≤ len ∧ len = ((gs.drop i).takeWhile (· = 0)).length := by
    intro is
    induction is with
    | nil => exact fun best hbest => hbest
    | cons j is ih =>
      intro best hbest
      refine ih _ fun i len hlen => ?_
      simp only at hlen
      split at hlen
      · rename_i hlong
        simp only [Option.some.injEq, Prod.mk.injEq] at hlen
        obtain ⟨rfl, rfl⟩ := hlen
        exact ⟨hlong.1, rfl⟩
      · exact hbest i len hlen
  obtain ⟨hlong, hlen⟩ := key (List.range gs.length) none (by simp) i len h
  have hzeros : (gs.drop i).takeWhile (· = 0) = List.replicate len 0 := by
    rw [eq_replicate_iff]
    refine ⟨hlen.symm, fun x hx => ?_⟩
    simpa using mem_takeWhile_imp hx
  have htake : gs.drop i = List.replicate len 0 ++ gs.drop (i + len) := by
    have hsplit := takeWhile_append_dropWhile (p := (· = 0)) (l := gs.drop i)
    have hdrop : (gs.drop i).dropWhile (· = 0) = gs.drop (i + len) := by
      rw [← drop_drop, ← hsplit, hzeros, drop_left' (by simp)]
      rw [← hzeros, hsplit]
    rw [← hdrop, ← hzeros, hsplit]
  refine ⟨hlong, ?_, ?_⟩
  · have hle := congrArg List.length htake
    simp only [length_drop, length_append, length_replicate] at hle
    omega
  · rw [append_assoc, ← htake, take_append_drop]

theorem length_toGroups (a : BitVec 128) : (toGroups a).length = 8 := by simp [toGroups]

theorem lt_of_mem_toGroups {a : BitVec 128} {g : Nat} (h : g ∈ toGroups a) : g < 65536 := by
  simp only [toGroups, mem_map] at h
  obtain ⟨i, -, rfl⟩ := h
  exact Nat.mod_lt _ (by omega)

theorem ofGroups_toGroups (a : BitVec 128) : ofGroups (toGroups a) = a.toNat := by
  have hlt := a.isLt
  simp only [toGroups, ofGroups, range_succ, range_zero, map_append, map_cons,
    map_nil, nil_append, foldl_append, foldl_cons, foldl_nil]
  omega

/-- A shortened address is expanded to the groups it was shortened from. -/
theorem parseIPv6_joinShort (a : BitVec 128) :
    parseIPv6 (joinShort (toGroups a)) = some (.v6 a) := by
  have hvalue : BitVec.ofNat 128 (ofGroups (toGroups a)) = a := by
    rw [ofGroups_toGroups, BitVec.ofNat_toNat, BitVec.setWidth_eq]
  have hgroups : ∀ g ∈ toGroups a, g < 65536 := fun g hg => lt_of_mem_toGroups hg
  have hlength := length_toGroups a
  generalize toGroups a = gs at *
  unfold joinShort
  cases hrun : zeroRun gs with
  | none =>
    obtain ⟨g, gs', rfl⟩ := exists_cons_of_length_eq_add_one hlength
    obtain ⟨c, s, hcs, hcolon⟩ := joinGroups_eq_cons g gs'
    have hparse := parseGroups_joinGroups hgroups (by simp) (Nat.le_of_eq hlength) [] none
    rw [hcs] at hparse
    simp only [nil_append] at hparse
    simp [parseIPv6, hcs, hcolon, hparse, expandGroups, hlength, hvalue]
  | some run =>
    obtain ⟨i, len⟩ := run
    obtain ⟨hlong, hle, hsplit⟩ := eq_append_of_zeroRun hrun
    have hi : (gs.take i).length = i := by
      rw [length_take]
      omega
    have hlen : (gs.take i).length + (gs.drop (i + len)).length = 8 - len := by
      rw [hi, length_drop]
      omega
    have hexpand : expandGroups (gs.take i ++ gs.drop (i + len)) (some i) = some gs := by
      rw [expandGroups, length_append, hlen, if_pos (by omega), take_left' hi,
        drop_left' hi, show 8 - (8 - len) = len by omega, ← hsplit]
    have hfront : ∀ g ∈ gs.take i, g < 65536 := fun g hg => hgroups g (mem_of_mem_take hg)
    have hback : ∀ g ∈ gs.drop (i + len), g < 65536 :=
      fun g hg => hgroups g (mem_of_mem_drop hg)
    simp only
    generalize gs.drop (i + len) = back at *
    cases hcases : gs.take i with
    | nil =>
      have hzero : i = 0 := by rw [← hi, hcases, length_nil]
      rw [hcases, nil_append, hzero] at hexpand
      cases back with
      | nil => simp [joinGroups, List.intercalate, parseIPv6, hexpand, hvalue]
      | cons g back =>
        obtain ⟨c, s, hcs, -⟩ := joinGroups_eq_cons g back
        have hle : (g :: back).length ≤ 8 := by
          rw [hcases, length_nil] at hlen
          omega
        have hparse := parseGroups_joinGroups hback (by simp) hle [] (some 0)
        rw [hcs] at hparse ⊢
        simp only [nil_append] at hparse
        simp [joinGroups, List.intercalate, parseIPv6, hparse, hexpand, hvalue]
    | cons g front =>
      obtain ⟨c, s, hcs, hcolon⟩ := joinGroups_eq_cons g front
      rw [hcases] at hfront hlen hexpand hi
      have hle : (g :: front).length + back.length ≤ 8 := by omega
      have hparse := parseGroups_ellipsis hfront hback (by simp) hle []
      rw [length_nil, Nat.zero_add, hi, nil_append, hcs, cons_append] at hparse
      rw [cons_append] at hparse hexpand
      rw [hcs, cons_append]
      simp [parseIPv6, hcolon, hparse, hexpand, hvalue]

theorem find?_isSeparator_joinShort {gs : List Nat} (h : 8 ≤ gs.length) :
    (joinShort gs).find? isSeparator = some ':' := by
  have key : ∀ hs : List Nat, ∀ t : List Char, (t.find? isSeparator = some ':' ∨ 2 ≤ hs.length) →
      (joinGroups hs ++ t).find? isSeparator = some ':' := by
    intro hs t hor
    match hs with
    | [] => simpa [joinGroups, List.intercalate] using hor
    | [g] =>
      rw [joinGroups_singleton, find?_isSeparator_toDigits (by omega) (by omega)]
      simpa using hor
    | g :: g' :: hs =>
      rw [joinGroups_cons_cons, append_assoc, find?_isSeparator_toDigits (by omega) (by omega)]
      rfl
  unfold joinShort
  split
  · rw [← append_nil (joinGroups gs)]
    exact key gs [] (.inr (by omega))
  · exact key _ _ (.inl rfl)

/-- The character is neither a digit nor one of the two separators of an address. -/
structure Foreign (c : Char) : Prop where
  ne_digitChar : ∀ d ∈ List.range 16, c ≠ d.digitChar
  ne_colon : c ≠ ':'
  ne_dot : c ≠ '.'

theorem foreign_percent : Foreign '%' := ⟨by decide, by decide, by decide⟩

theorem foreign_slash : Foreign '/' := ⟨by decide, by decide, by decide⟩

theorem foreign_and : Foreign '&' := ⟨by decide, by decide, by decide⟩

namespace Foreign

variable {c : Char} (hc : Foreign c)
include hc

theorem not_mem_toDigits (hb : 1 < b) (hb' : b ≤ 16) : c ∉ Nat.toDigits b n := by
  intro h
  obtain ⟨d, hd, rfl⟩ := exists_digitChar_of_mem_toDigits hb h
  exact hc.ne_digitChar d (mem_range.mpr (by omega)) rfl

theorem not_mem_joinGroups (gs : List Nat) : c ∉ joinGroups gs := by
  induction gs with
  | nil => simp [joinGroups, List.intercalate]
  | cons g gs ih =>
    cases gs with
    | nil =>
      rw [joinGroups_singleton]
      exact hc.not_mem_toDigits (by omega) (by omega)
    | cons h gs =>
      rw [joinGroups_cons_cons]
      simp [ih, hc.not_mem_toDigits, hc.ne_colon]

theorem not_mem_formatIPv4 (a : BitVec 32) : c ∉ formatIPv4 a := by
  simp [formatIPv4, hc.not_mem_toDigits, hc.ne_dot]

theorem not_mem_formatIPv6 (a : BitVec 128) : c ∉ formatIPv6 a := by
  have hf : c ≠ 'f' := hc.ne_digitChar 15 (by decide)
  unfold formatIPv6 joinShort
  split
  · simp [hc.not_mem_formatIPv4, hc.ne_colon, hf]
  · split
    · exact hc.not_mem_joinGroups _
    · simp [hc.not_mem_joinGroups, hc.ne_colon]

theorem not_mem_formatAddr (ha : a ≠ .zero) : c ∉ formatAddr a := by
  cases a with
  | zero => contradiction
  | v4 a => exact hc.not_mem_formatIPv4 a
  | v6 a => exact hc.not_mem_formatIPv6 a

end Foreign

theorem scanHex_formatIPv4 (a : BitVec 32) :
    ∃ n len t, scanHex (formatIPv4 a) 0 0 = some (n, len + 1, '.' :: t) := by
  have hlt := a.isLt
  have hlen : (Nat.toDigits 10 (a.toNat / 16777216)).length ≤ 3 :=
    (Nat.length_toDigits_le_iff (by omega) (by omega)).mpr (by omega)
  obtain ⟨len, hlen'⟩ := Nat.exists_eq_succ_of_ne_zero
    (Nat.length_toDigits_pos (b := 10) (n := a.toNat / 16777216)).ne'
  simp only [formatIPv4, append_assoc, cons_append]
  have hdigits : ∀ c ∈ Nat.toDigits 10 (a.toNat / 16777216), c.isDigit = true :=
    fun c hc => Nat.isDigit_of_mem_toDigits (by omega) (by omega) hc
  have hle : 0 + (Nat.toDigits 10 (a.toNat / 16777216)).length ≤ 4 := by omega
  obtain ⟨n, hn⟩ : ∃ n, _ = _ := scanHex_of_isDigit hdigits hle _
  exact ⟨n, len, _, by rw [hn, Nat.zero_add, hlen']; rfl⟩

theorem parseIPv6_mapped {a : BitVec 128} (h : a.toNat / 2 ^ 32 = 0xFFFF) :
    parseIPv6 ("::ffff:".toList ++ formatIPv4 (a.setWidth 32)) = some (.v6 a) := by
  have hfields := parseIPv4Fields_formatIPv4 (a.setWidth 32)
  obtain ⟨n, len, t, hscan⟩ := scanHex_formatIPv4 (a.setWidth 32)
  have hmod : (a.setWidth 32).toNat = a.toNat % 2 ^ 32 := BitVec.toNat_setWidth ..
  have hdotted (pre : List Nat) (hpre : pre.length ≤ 6) :
      parseGroups 7 (formatIPv4 (a.setWidth 32)) pre (some 0) =
        some (pre ++ [a.toNat % 2 ^ 32 / 65536, a.toNat % 65536], some 0, []) := by
    simp [parseGroups, hscan, hfields, Nat.not_lt.mpr hpre, hmod]
  obtain ⟨c, s, hcs, hcolon⟩ : ∃ c s, formatIPv4 (a.setWidth 32) = c :: s ∧ c ≠ ':' := by
    cases hcs : formatIPv4 (a.setWidth 32) with
    | nil => simp [hcs, scanHex] at hscan
    | cons c s =>
      refine ⟨c, s, rfl, ?_⟩
      rintro rfl
      simp [hcs, scanHex, hexVal] at hscan
  have htext : "::ffff:".toList ++ formatIPv4 (a.setWidth 32) =
      ':' :: ':' :: (Nat.toDigits 16 65535 ++ ':' :: c :: s) := by
    rw [← hcs]
    rfl
  have hgroups : parseGroups 8 (Nat.toDigits 16 65535 ++ ':' :: c :: s) [] (some 0) =
      some ([65535, a.toNat % 2 ^ 32 / 65536, a.toNat % 65536], some 0, []) := by
    rw [parseGroups_colon (by omega) 7 [] (some 0) hcolon, ← hcs, hdotted _ (by simp)]
    rfl
  have hvalue : BitVec.ofNat 128
      (ofGroups [0, 0, 0, 0, 0, 65535, a.toNat % 2 ^ 32 / 65536, a.toNat % 65536]) = a := by
    have hlt := a.isLt
    apply BitVec.eq_of_toNat_eq
    simp only [ofGroups, foldl_cons, foldl_nil, BitVec.toNat_ofNat]
    omega
  obtain ⟨d, rest, hrest⟩ := exists_cons_of_ne_nil
    (append_ne_nil_of_left_ne_nil (Nat.toDigits_ne_nil (n := 65535) (b := 16)) (':' :: c :: s))
  rw [htext, hrest]
  rw [hrest] at hgroups
  simp only [parseIPv6, hgroups]
  simpa [expandGroups] using hvalue

theorem parseAddr_formatIPv6 (a : BitVec 128) : parseAddr (formatIPv6 a) = some (.v6 a) := by
  have hpercent := foreign_percent.not_mem_formatIPv6 a
  have hfind : (formatIPv6 a).find? isSeparator = some ':' := by
    unfold formatIPv6
    split
    · rfl
    · exact find?_isSeparator_joinShort (Nat.le_of_eq (length_toGroups a).symm)
  rw [parseAddr_eq, hfind]
  simp only [hpercent, if_false]
  unfold formatIPv6
  split
  · rename_i hmapped
    exact parseIPv6_mapped hmapped
  · exact parseIPv6_joinShort a

theorem parseAddr_formatAddr (h : a ≠ .zero) : parseAddr (formatAddr a) = some a := by
  cases a with
  | zero => contradiction
  | v4 a => exact parseAddr_formatIPv4 a
  | v6 a => exact parseAddr_formatIPv6 a

theorem toDigits_eq_digitChar_cons (hn : 0 < n) :
    ∃ d s, 0 < d ∧ d < 10 ∧ Nat.toDigits 10 n = d.digitChar :: s := by
  induction n using Nat.base_induction 10 (by omega) with
  | single m hm => exact ⟨m, [], hn, hm, Nat.toDigits_of_lt_base hm⟩
  | digit m k hk hm ih =>
    obtain ⟨d, s, hpos, hlt, hds⟩ := ih hm
    refine ⟨d, s ++ Nat.toDigits 10 k, hpos, hlt, ?_⟩
    rw [← Nat.toDigits_append_toDigits (by omega) hm hk, hds, cons_append]

theorem parseBits_toDigits (n : Nat) : parseBits (Nat.toDigits 10 n) = some n := by
  have hall : (Nat.toDigits 10 n).all Char.isDigit = true :=
    all_eq_true.mpr fun c hc => Nat.isDigit_of_mem_toDigits (by omega) (by omega) hc
  obtain rfl | hn := Nat.eq_zero_or_pos n
  · decide
  · obtain ⟨d, s, hpos, hlt, hds⟩ := toDigits_eq_digitChar_cons hn
    have hlead : ∀ e ∈ List.range 10, 0 < e → ¬ (e.digitChar < '1' ∨ '9' < e.digitChar) := by
      decide
    have hvalue := Nat.ofDigitChars_ten_toDigits (n := n)
    rw [hds] at hall hvalue ⊢
    rw [parseBits, if_neg (fun h => hlead d (mem_range.mpr hlt) hpos h.2), if_pos hall, hvalue]

theorem prefixFrom_addr_bits (p : Prefix) : prefixFrom p.addr p.bits = some p := by
  cases p with
  | v4 p => simp [prefixFrom, Prefix.addr, Prefix.bits, p.bits_le]
  | v6 p => simp [prefixFrom, Prefix.addr, Prefix.bits, p.bits_le]

theorem slash_not_mem_toDigits (n : Nat) : '/' ∉ Nat.toDigits 10 n :=
  foreign_slash.not_mem_toDigits (by omega) (by omega)

@[simp] theorem parsePrefix_prefixString (p : Prefix) : parsePrefix (prefixString p) = some p := by
  have haddr : parseAddr (formatAddr p.addr) = some p.addr :=
    parseAddr_formatAddr (by cases p <;> simp [Prefix.addr])
  simp [parsePrefix, prefixString, parsePrefixChars,
    cutLast_append _ (slash_not_mem_toDigits p.bits), haddr, parseBits_toDigits,
    prefixFrom_addr_bits]

theorem slash_mem_prefixString (p : Prefix) : '/' ∈ (prefixString p).toList := by
  simp [prefixString]

theorem prefixString_injective {p q : Prefix} (h : prefixString p = prefixString q) : p = q := by
  have hparse := parsePrefix_prefixString p
  rw [h, parsePrefix_prefixString] at hparse
  exact (Option.some.inj hparse).symm

theorem addrString_injective {b : Addr} (ha : a ≠ .zero) (hb : b ≠ .zero)
    (h : addrString a = addrString b) : a = b := by
  have hparse := parseAddr_formatAddr ha
  rw [String.ofList_injective h, parseAddr_formatAddr hb] at hparse
  exact (Option.some.inj hparse).symm

end Go.Netip
