import KubevirtUi.Egress.Creation
import KubevirtUi.Egress.Returned
import KubevirtUi.Python.Subtraction

/-!
# The addresses that a gateway is given

They are the first hosts of the two Subnets that nothing is known to hold. What holds an address is
written in three ways: as a single address, as the two ends of a range, and as a network. A network
is taken for the text of an address, and of wide ranges nothing is kept. So an address is given
away that is held exactly where its turn comes before there are enough others.
-/

namespace Egress

open Python Python.Ipaddress Peering Interference List

/-- What a text says is held. -/
inductive Mark where
  | address (a : BitVec 32)
  | range (first last : ℕ)
  | network (p : Block 32)

namespace Mark

def Has : Mark → BitVec 32 → Prop
  | address b, a => b = a
  | range first last, a => first ≤ a.toNat ∧ a.toNat ≤ last
  | network p, a => p.Contains a

/-- Networks, and ranges that are too wide, are passed over. -/
def PassedOver : Mark → Prop
  | address _ => False
  | range first last => 4096 < last - first
  | network _ => True

instance (m : Mark) (a : BitVec 32) : Decidable (m.Has a) :=
  match m with
  | address b => inferInstanceAs (Decidable (b = a))
  | range _ _ => inferInstanceAs (Decidable (_ ∧ _))
  | network p => inferInstanceAs (Decidable (p.Contains a))

instance (m : Mark) : Decidable m.PassedOver :=
  match m with
  | address _ => inferInstanceAs (Decidable False)
  | range _ _ => inferInstanceAs (Decidable (_ < _))
  | network _ => inferInstanceAs (Decidable True)

end Mark

def addressMark (text : List Char) : Option Mark := (ipv4Address text).map .address

def rangeMark (start stop : List Char) : Option Mark := do
  return .range (← ipIntFromString start) (← ipIntFromString stop)

/-- An entry of `excludeIps`: `a..b`, `a.b.c.d/n`, or an address. -/
def entryMark (entry : String) : Option Mark :=
  let text := strip entry.toList
  if ['.', '.'] <:+: text then
    let (start, stop) := partitionText ['.', '.'] text
    rangeMark (strip start) (strip stop)
  else if '/' ∈ text then (ipv4Network text).map .network
  else addressMark text

/-- A span of `status.v4usingIPrange`: `a-b`, or an address. -/
def spanMark (span : List Char) : Option Mark :=
  if span = [] then none
  else
    let (start, stop) := partitionText ['-'] span
    rangeMark (strip start) (if strip stop = [] then strip start else strip stop)

/-- What a Subnet says of its own addresses. -/
def Subnet.marks (s : Subnet) : List Mark :=
  s.excludeIps.filterMap entryMark ++ (addressMark s.gateway.toList).toList ++
    (s.usedRange.toList.splitOn ',').filterMap fun span => spanMark (strip span)

/-- What other gateways hold. -/
def World.pins (w : World) : List Mark :=
  (w.gateways.entries.flatMap fun item => item.2.internalIPs ++ item.2.externalIPs).filterMap
    fun ip => addressMark (beforeSlash ip).toList

section Held

variable (marks : List Mark) (p : Block 32) (count : ℕ) (a : BitVec 32)

def Held : Prop := ∃ m ∈ marks, m.Has a

/-- Held, and not only by what is passed over. -/
def Known : Prop := ∃ m ∈ marks, ¬m.PassedOver ∧ m.Has a

instance : Decidable (Held marks a) := inferInstanceAs (Decidable (∃ m ∈ marks, _))

instance : Decidable (Known marks a) := inferInstanceAs (Decidable (∃ m ∈ marks, _))

/-- An address that can be given away. -/
structure Free : Prop where
  contains : p.Contains a
  ne_network : a ≠ p.base
  ne_broadcast : a ≠ broadcast p
  not_held : ¬Held marks a

/-- How many hosts before an address are not known to be held. -/
def ahead : ℕ := ((hosts p).takeWhile (· ≠ a)).countP fun b => ¬Known marks b

/-- An address whose turn comes: there are not enough others before it. -/
def Turn : Prop := ¬Known marks a ∧ (count = 0 ∨ ahead marks p a < count)

instance : Decidable (Turn marks p count a) := inferInstanceAs (Decidable (_ ∧ _))

end Held

/-- The hosts whose turn comes. -/
def turns (marks : List Mark) (p : Block 32) (count : ℕ) : List (BitVec 32) :=
  (hosts p).filter fun a => Turn marks p count a

/-- What is given away of a network is free, and it is enough unless nothing is left. -/
structure Pinned (marks : List Mark) (p : Block 32) (count : ℕ) (earlier out : List String) :
    Prop where
  distinct : out.Nodup
  free : ∀ ip ∈ out, ∃ a, ip = addressText a ∧ Free marks p a
  enough : out.length < count → ∀ a, Free marks p a → addressText a ∈ earlier ++ out

/-- No turn comes of a host that is held after all, or that is an end of its network. -/
def Clear (marks : List Mark) (p : Block 32) (count : ℕ) : Prop :=
  ∀ a ∈ hosts p, Held marks a ∨ a = p.base ∨ a = broadcast p → ¬Known marks a →
    0 < count ∧ count ≤ ahead marks p a

instance (marks : List Mark) (p : Block 32) (count : ℕ) : Decidable (Clear marks p count) :=
  List.decidableBAll _ _

variable {a : BitVec 32} {marks : List Mark} {taken : List String}

section Texts

variable {text : List Char} {entry : String}

theorem addressText_injective : Function.Injective addressText := by
  intro a b h
  have htext : Go.Netip.formatIPv4 a = Go.Netip.formatIPv4 b := by
    rw [← String.toList_ofList (l := Go.Netip.formatIPv4 a), ← addressText, h, addressText,
      String.toList_ofList]
  have hread := ipIntFromString_formatIPv4 a
  rw [htext, ipIntFromString_formatIPv4, Option.some.injEq] at hread
  exact (BitVec.eq_of_toNat_eq hread).symm

theorem ipv4Address_eq_some_iff : ipv4Address text = some a ↔ text = Go.Netip.formatIPv4 a := by
  rw [ipv4Address, Option.map_eq_some_iff]
  constructor
  · rintro ⟨n, hn, rfl⟩
    exact (of_ipIntFromString hn).2
  · rintro rfl
    refine ⟨a.toNat, ipIntFromString_formatIPv4 a, ?_⟩
    rw [BitVec.ofNat_toNat, BitVec.setWidth_eq]

theorem eq_addressText_iff : String.ofList text = addressText a ↔
    ∃ m ∈ addressMark text, ¬m.PassedOver ∧ m.Has a := by
  have htext : String.ofList text = addressText a ↔ ipv4Address text = some a := by
    rw [ipv4Address_eq_some_iff, addressText]
    constructor
    · intro h
      rw [← String.toList_ofList (l := text), h, String.toList_ofList]
    · intro h
      rw [h]
  simp only [htext, addressMark, Option.mem_def, Option.map_eq_some_iff]
  constructor
  · intro h
    exact ⟨.address a, ⟨a, h, rfl⟩, not_false, rfl⟩
  · rintro ⟨m, ⟨b, hb, rfl⟩, -, rfl⟩
    exact hb

theorem mem_spanned {first last : ℕ} (hlast : last < 2 ^ 32) : addressText a ∈ spanned first last ↔
      ¬4096 < last - first ∧ first ≤ a.toNat ∧ a.toNat ≤ last := by
  rw [spanned]
  split
  · next hwide => simp [hwide]
  · next hnarrow =>
    rw [mem_map, and_iff_right hnarrow]
    constructor
    · rintro ⟨i, hi, hsame⟩
      have hi := mem_range.mp hi
      obtain rfl := addressText_injective hsame
      rw [BitVec.toNat_ofNat, Nat.mod_eq_of_lt (by omega)]
      omega
    · rintro ⟨hfirst, hle⟩
      refine ⟨a.toNat - first, mem_range.mpr (by omega), ?_⟩
      rw [Nat.add_sub_cancel' hfirst, BitVec.ofNat_toNat, BitVec.setWidth_eq]

theorem exists_mem_rangeMark_iff {start stop : List Char} :
    (∃ m ∈ rangeMark start stop, ¬m.PassedOver ∧ m.Has a) ↔
      ∃ first ∈ ipIntFromString start, ∃ last ∈ ipIntFromString stop,
        addressText a ∈ spanned first last := by
  rw [rangeMark]
  cases hfirst : ipIntFromString start with
  | none => simp
  | some first =>
    cases hlast : ipIntFromString stop with
    | none => simp
    | some last =>
      have hmark : (do return Mark.range (← some first) (← some last)) =
        some (Mark.range first last) := rfl
      rw [hmark]
      simp only [Option.mem_some, exists_eq_left']
      exact (mem_spanned (of_ipIntFromString hlast).1).symm

theorem mem_expandEntry : addressText a ∈ expandEntry entry ↔
    ∃ m ∈ entryMark entry, ¬m.PassedOver ∧ m.Has a := by
  rw [expandEntry, entryMark]
  dsimp only
  by_cases hdots : ['.', '.'] <:+: strip entry.toList
  · rw [if_pos hdots, if_pos hdots, exists_mem_rangeMark_iff]
    cases ipIntFromString (strip (partitionText ['.', '.'] (strip entry.toList)).1) <;>
      cases ipIntFromString (strip (partitionText ['.', '.'] (strip entry.toList)).2) <;> simp
  · rw [if_neg hdots, if_neg hdots]
    by_cases hempty : strip entry.toList = []
    · rw [if_pos hempty, hempty, if_neg not_mem_nil]
      simp [addressMark, ipv4Address, ipIntFromString, parseOctet]
    · rw [if_neg hempty, mem_singleton, eq_comm, eq_addressText_iff]
      by_cases hslash : '/' ∈ strip entry.toList
      · -- the text of a network is not the text of an address
        rw [if_pos hslash]
        apply iff_of_false
        · rw [← eq_addressText_iff, addressText]
          intro h
          rw [← String.toList_ofList (l := strip entry.toList), h, String.toList_ofList] at hslash
          exact Go.Netip.foreign_slash.not_mem_formatIPv4 a hslash
        · rintro ⟨m, hm, hread, -⟩
          obtain ⟨p, -, rfl⟩ := Option.map_eq_some_iff.mp hm
          exact hread trivial
      · rw [if_neg hslash]

theorem mem_expandSpan {span : List Char} : addressText a ∈ expandSpan span ↔
    ∃ m ∈ spanMark span, ¬m.PassedOver ∧ m.Has a := by
  rw [expandSpan, spanMark]
  by_cases hempty : span = []
  · simp [hempty]
  · rw [if_neg hempty, if_neg hempty]
    dsimp only
    rw [exists_mem_rangeMark_iff]
    cases ipIntFromString (strip (partitionText ['-'] span).1) <;>
      cases ipIntFromString (if strip (partitionText ['-'] span).2 = [] then
        strip (partitionText ['-'] span).1 else strip (partitionText ['-'] span).2) <;> simp

end Texts

section Held

variable {more : List Mark}

theorem known_append : Known (marks ++ more) a ↔ Known marks a ∨ Known more a := by
  simp only [Known, mem_append, or_and_right, exists_or]

theorem held_append : Held (marks ++ more) a ↔ Held marks a ∨ Held more a := by
  simp only [Held, mem_append, or_and_right, exists_or]

theorem known_filterMap {α : Type} {f : α → Option Mark} {texts : List α} :
    Known (texts.filterMap f) a ↔ ∃ text ∈ texts, ∃ m ∈ f text, ¬m.PassedOver ∧ m.Has a := by
  simp only [Known, mem_filterMap, Option.mem_def]
  constructor
  · rintro ⟨m, ⟨text, htext, hm⟩, hread⟩
    exact ⟨text, htext, m, hm, hread⟩
  · rintro ⟨text, htext, m, hm, hread⟩
    exact ⟨m, ⟨text, htext, hm⟩, hread⟩

theorem known_addresses {given : List (BitVec 32)} : Known (given.map .address) a ↔ a ∈ given := by
  simp [Known, Mark.PassedOver, Mark.Has]

theorem held_addresses {given : List (BitVec 32)} : Held (given.map .address) a ↔ a ∈ given := by
  simp [Held, Mark.Has]

theorem Known.held (h : Known marks a) : Held marks a := by
  obtain ⟨m, hm, -, hhas⟩ := h
  exact ⟨m, hm, hhas⟩

theorem mem_addressesPinned_iff {w : World} :
    addressText a ∈ (w.gateways.entries.map fun e => (e.1, e.2)).flatMap
      (fun item => (item.2.internalIPs ++ item.2.externalIPs).map beforeSlash) ↔
    Known w.pins a := by
  rw [World.pins, known_filterMap]
  simp only [mem_flatMap, mem_map, ← eq_addressText_iff, String.ofList_toList]
  constructor
  · rintro ⟨_, ⟨e, he, rfl⟩, ip, hip, htext⟩
    exact ⟨ip, ⟨e, he, hip⟩, htext⟩
  · rintro ⟨ip, ⟨e, he, hip⟩, htext⟩
    exact ⟨_, ⟨e, he, rfl⟩, ip, hip, htext⟩

theorem mem_blocked_iff {subnet : Subnet} (h : addressText a ∈ taken ↔ Known marks a) :
    addressText a ∈ taken ++ expandExcluded subnet.excludeIps ++
        (if subnet.gateway = "" then [] else [subnet.gateway]) ++
        expandStatusRanges subnet.usedRange ↔ Known (marks ++ subnet.marks) a := by
  have hgateway : addressText a ∈ (if subnet.gateway = "" then [] else [subnet.gateway]) ↔
      Known (addressMark subnet.gateway.toList).toList a := by
    rw [Known]
    simp only [Option.mem_toList, ← Option.mem_def, ← eq_addressText_iff, String.ofList_toList]
    split
    · next hempty =>
      rw [hempty]
      exact iff_of_false not_mem_nil (addressText_ne_empty a).symm
    · rw [mem_singleton, eq_comm]
  simp only [mem_append, h, hgateway, expandExcluded, expandStatusRanges, mem_flatMap,
    mem_expandEntry, mem_expandSpan, Subnet.marks, known_append, known_filterMap, or_assoc]

end Held

section Hosts

variable {p : Block 32}

theorem nodup_hosts : (hosts p).Nodup := by
  rw [hosts]
  split
  · exact nodup_singleton _
  · split
    · rw [nodup_cons, mem_singleton]
      refine ⟨fun h => ?_, nodup_singleton _⟩
      have hone := congrArg (· - p.base) h
      simp only [BitVec.sub_self, BitVec.add_comm p.base, BitVec.add_sub_cancel] at hone
      exact absurd hone (by decide)
    · apply List.Nodup.map_on _ nodup_range
      intro i hi j hj h
      have hsize : 2 ^ (32 - p.bits) ≤ 2 ^ 32 := Nat.pow_le_pow_right (by omega) (by omega)
      have hi := mem_range.mp hi
      have hj := mem_range.mp hj
      have hnat := congrArg BitVec.toNat ((BitVec.add_right_inj p.base).mp h)
      rw [BitVec.toNat_ofNat, BitVec.toNat_ofNat, Nat.mod_eq_of_lt (by omega),
        Nat.mod_eq_of_lt (by omega)] at hnat
      omega

theorem mem_hosts (hp : p.masked = p) : (a ∈ hosts p → p.Contains a) ∧
    (p.Contains a → a ≠ p.base → a ≠ broadcast p → a ∈ hosts p) := by
  have hle := p.bits_le
  have hbase := Block.base_add_size_le hp
  have hlast := toNat_broadcast hp
  rw [Block.contains_iff_le_lt hp, ne_eq, ne_eq, ← BitVec.toNat_inj, ← BitVec.toNat_inj, hlast,
    hosts]
  split
  · next hbits =>
    have hsize : p.size = 1 := by rw [Block.size, hbits]; rfl
    rw [mem_singleton, ← BitVec.toNat_inj]
    omega
  · next hhost =>
    split
    · next hbits =>
      have hsize : p.size = 2 := by rw [Block.size, hbits]; rfl
      have hone : (p.base + 1).toNat = p.base.toNat + 1 := by
        rw [BitVec.toNat_add]
        exact Nat.mod_eq_of_lt (by rw [hsize] at hbase; exact Nat.lt_of_succ_le hbase)
      rw [mem_cons, mem_singleton, ← BitVec.toNat_inj, ← BitVec.toNat_inj, hone]
      omega
    · have hadd (i : ℕ) (hi : i < 2 ^ (32 - p.bits) - 2) :
          (p.base + BitVec.ofNat 32 (i + 1)).toNat = p.base.toNat + (i + 1) := by
        have hsize : i + 1 < p.size := by
          rw [Block.size]
          omega
        rw [BitVec.toNat_add, BitVec.toNat_ofNat, Nat.mod_eq_of_lt (a := i + 1) (by omega)]
        exact Nat.mod_eq_of_lt (by omega)
      simp only [mem_map, mem_range]
      have hsize : p.size = 2 ^ (32 - p.bits) := rfl
      constructor
      · rintro ⟨i, hi, rfl⟩
        rw [hadd i hi]
        omega
      · rintro ⟨hfrom, hto⟩ hne hne'
        refine ⟨a.toNat - p.base.toNat - 1, by omega, ?_⟩
        rw [← BitVec.toNat_inj, hadd _ (by omega)]
        omega

end Hosts

section Turns

variable {own : List Mark} {given : List (BitVec 32)} {p : Block 32} {count : ℕ}

theorem take_filter_eq {α : Type} [DecidableEq α] {P : α → Prop} [DecidablePred P] {l : List α}
    (h : l.Nodup) (n : ℕ) : (l.filter (P ·)).take n =
      l.filter fun a => P a ∧ (l.takeWhile (· ≠ a)).countP (P ·) < n := by
  induction l generalizing n with
  | nil => rw [filter_nil, filter_nil, take_nil]
  | cons x l ih =>
    obtain ⟨hx, hl⟩ := nodup_cons.mp h
    have hbefore (a : α) (ha : a ∈ l) :
        (x :: l).takeWhile (· ≠ a) = x :: l.takeWhile (· ≠ a) := by
      apply takeWhile_cons_of_pos
      rw [decide_eq_true_eq]
      rintro rfl
      exact hx ha
    by_cases hpass : P x
    · cases n with
      | zero => simp
      | succ n =>
        rw [filter_cons_of_pos (by simpa using hpass), take_succ_cons, ih hl,
          filter_cons_of_pos (by simpa using hpass)]
        congr 1
        apply filter_congr
        intro a ha
        rw [hbefore a ha, countP_cons_of_pos (by simpa using hpass)]
        simp only [Nat.succ_lt_succ_iff]
    · rw [filter_cons_of_neg (by simpa using hpass), ih hl, filter_cons_of_neg (by simp [hpass])]
      apply filter_congr
      intro a ha
      rw [hbefore a ha, countP_cons_of_neg (by simpa using hpass)]

theorem mem_turns : a ∈ turns marks p count ↔ a ∈ hosts p ∧ Turn marks p count a := by
  rw [turns, mem_filter, decide_eq_true_eq]

theorem turns_eq : turns marks p count = if count = 0 then (hosts p).filter fun a => ¬Known marks a
    else ((hosts p).filter fun a => ¬Known marks a).take count := by
  by_cases hcount : count = 0
  · rw [if_pos hcount]
    simp only [turns, Turn, hcount, true_or, and_true]
  · rw [if_neg hcount, take_filter_eq nodup_hosts]
    simp only [turns, Turn, hcount, false_or]
    rfl

theorem turn_of_length_lt (h : (turns marks p count).length < count) (ha : a ∈ hosts p)
    (hknown : ¬Known marks a) : a ∈ turns marks p count := by
  have hcount : count ≠ 0 := by omega
  rw [turns_eq, if_neg hcount] at h ⊢
  rw [length_take] at h
  rw [take_of_length_le (by omega), mem_filter, decide_eq_true_eq]
  exact ⟨ha, hknown⟩

/-- What is given away in turn is as it should be exactly where no turn comes wrongly. Some
addresses have been given away before. -/
theorem pinned_turns_iff (hp : p.masked = p) (hknown : ∀ a, Known marks a ↔ Known own a ∨ a ∈ given)
    (hheld : ∀ a, Held marks a ↔ Held own a ∨ a ∈ given) :
    Pinned own p count (given.map addressText) ((turns marks p count).map addressText) ↔
      Clear marks p count := by
  constructor
  · intro h a ha hwrong hunknown
    by_contra hfew
    have hturn : a ∈ turns marks p count := by
      rw [mem_turns]
      refine ⟨ha, hunknown, ?_⟩
      omega
    obtain ⟨b, hsame, hfree⟩ := h.free _ (mem_map_of_mem hturn)
    obtain rfl := addressText_injective hsame
    obtain hwrong | hwrong | hwrong := hwrong
    · obtain hwrong | hgiven := (hheld a).mp hwrong
      · exact hfree.not_held hwrong
      · exact hunknown ((hknown a).mpr (.inr hgiven))
    · exact hfree.ne_network hwrong
    · exact hfree.ne_broadcast hwrong
  · intro h
    have hright {a : BitVec 32} (ha : a ∈ turns marks p count) :
        ¬(Held marks a ∨ a = p.base ∨ a = broadcast p) := by
      intro hwrong
      obtain ⟨hhost, hunknown, hturn⟩ := mem_turns.mp ha
      have hlate := h a hhost hwrong hunknown
      omega
    refine ⟨?_, ?_, ?_⟩
    · exact (nodup_hosts.filter _).map addressText_injective
    · intro ip hip
      obtain ⟨a, ha, rfl⟩ := mem_map.mp hip
      have hnot := hright ha
      rw [not_or, not_or, hheld, not_or] at hnot
      exact ⟨a, rfl, (mem_hosts hp).1 (mem_turns.mp ha).1, hnot.2.1, hnot.2.2, hnot.1.1⟩
    · intro hfew a hfree
      rw [length_map] at hfew
      have hhost := (mem_hosts hp).2 hfree.contains hfree.ne_network hfree.ne_broadcast
      rw [← map_append]
      apply mem_map_of_mem
      rw [mem_append]
      by_cases hgiven : a ∈ given
      · exact .inl hgiven
      · refine .inr (turn_of_length_lt hfew hhost fun hread => ?_)
        obtain hread | hmem := (hknown a).mp hread
        · exact hfree.not_held hread.held
        · exact hgiven hmem

end Turns

section Calls

variable {P : World → Prop} {w : World} {internal external name : String} {s t : Subnet}
  {p q : Block 32} {replicas : ℕ}

theorem goes_addressesPinnedElsewhere (hw : P w) :
    Goes P addressesPinnedElsewhere w (.ok ((w.gateways.entries.map fun e => (e.1, e.2)).flatMap
      fun item => (item.2.internalIPs ++ item.2.externalIPs).map beforeSlash)) w :=
  Goes.exceptApi_ok ((Goes.ask hw).bind .pure)

theorem goes_freeAddresses (hw : P w) (hs : w.subnets.lookup name = some s)
    (hp : ipv4Network s.cidrBlock.toList = some p)
    (htaken : ∀ a, addressText a ∈ taken ↔ Known marks a) :
    Goes P (freeAddresses name replicas taken) w
      (.ok ((turns (marks ++ s.marks) p replicas).map addressText)) w := by
  have hcommit : commit w (.getSubnet name) = (.ok s, w) := by rw [commit, hs]
  have hread : Goes P (exceptApi (do return some (← ask (.getSubnet name))) fun _ => pure none) w
      (.ok (some s)) w := by
    have hask := @Goes.ask P w (.getSubnet name) (by rw [hcommit]; exact hw)
    rw [hcommit] at hask
    exact Goes.exceptApi_ok (hask.bind .pure)
  have hgiven : s.cidrBlock ≠ "" := by
    intro hempty
    rw [hempty] at hp
    simp [ipv4Network, ipIntFromString, parseOctet] at hp
  refine hread.bind ?_
  dsimp only
  rw [if_neg hgiven]
  refine (goes_transitNetwork hp).bind ?_
  have hfree : ((hosts p).map addressText).filter (fun ip => decide (ip ∉
        taken ++ expandExcluded s.excludeIps ++ (if s.gateway = "" then [] else [s.gateway]) ++
          expandStatusRanges s.usedRange)) =
      ((hosts p).filter fun a => ¬Known (marks ++ s.marks) a).map addressText := by
    rw [filter_map]
    congr 1
    apply filter_congr
    intro a _
    rw [Function.comp_apply, decide_eq_decide, mem_blocked_iff (htaken a)]
  rw [hfree, turns_eq]
  by_cases hcount : replicas = 0
  · rw [if_pos hcount, if_pos hcount]
    exact .pure
  · rw [if_neg hcount, if_neg hcount, map_take]
    exact .pure

theorem goes_allocateGatewayIps (hw : P w) (hs : w.subnets.lookup internal = some s)
    (hp : ipv4Network s.cidrBlock.toList = some p) (ht : w.subnets.lookup external = some t)
    (hq : ipv4Network t.cidrBlock.toList = some q) :
    let given := turns (w.pins ++ s.marks) p replicas
    Goes P (allocateGatewayIps internal external replicas) w
      (.ok (given.map addressText,
        (turns (w.pins ++ given.map .address ++ t.marks) q replicas).map addressText)) w := by
  intro given
  refine (goes_addressesPinnedElsewhere hw).bind ?_
  refine (goes_freeAddresses hw hs hp fun a => mem_addressesPinned_iff).bind ?_
  refine (goes_freeAddresses hw ht hq fun a => ?_).bind .pure
  rw [mem_append, mem_addressesPinned_iff, known_append, known_addresses,
    mem_map_of_injective addressText_injective]

/-- The call ends, and what holds of its answer holds of the hosts whose turn comes. -/
theorem exists_allocates_iff (hs : w.subnets.lookup internal = some s)
    (hp : ipv4Network s.cidrBlock.toList = some p) (ht : w.subnets.lookup external = some t)
    (hq : ipv4Network t.cidrBlock.toList = some q) {Q : List String → List String → Prop} :
    (∃ inner outer, Goes (· = w) (allocateGatewayIps internal external replicas) w
        (.ok (inner, outer)) w ∧ Q inner outer) ↔
      Q ((turns (w.pins ++ s.marks) p replicas).map addressText)
        ((turns (w.pins ++ (turns (w.pins ++ s.marks) p replicas).map .address ++ t.marks) q
          replicas).map addressText) := by
  have hgoes := @goes_allocateGatewayIps (· = w) w internal external s t p q replicas rfl hs hp
    ht hq
  constructor
  · rintro ⟨inner, outer, hcall, hQ⟩
    obtain ⟨m, hends⟩ := hcall 0
    obtain ⟨hsame, -⟩ := hgoes.ends hends.ends
    obtain ⟨rfl, rfl⟩ := Prod.mk.inj (Except.ok.inj hsame)
    exact hQ
  · intro hQ
    exact ⟨_, _, hgoes, hQ⟩

/-- The inner network is the first, and so nothing has been given away before. -/
theorem pinned_inner_iff (hp : ipv4Network s.cidrBlock.toList = some p) :
    Pinned (w.pins ++ s.marks) p replicas []
        ((turns (w.pins ++ s.marks) p replicas).map addressText) ↔
      Clear (w.pins ++ s.marks) p replicas :=
  @pinned_turns_iff (w.pins ++ s.marks) (w.pins ++ s.marks) [] p replicas
    (masked_of_ipv4Network hp) (by simp) (by simp)

theorem pinned_outer_iff (hq : ipv4Network t.cidrBlock.toList = some q) (given : List (BitVec 32)) :
    Pinned (w.pins ++ t.marks) q replicas (given.map addressText)
        ((turns (w.pins ++ given.map .address ++ t.marks) q replicas).map addressText) ↔
      Clear (w.pins ++ given.map .address ++ t.marks) q replicas := by
  apply pinned_turns_iff (masked_of_ipv4Network hq)
  · intro a
    simp only [known_append, known_addresses, or_comm, or_left_comm]
  · intro a
    simp only [held_append, held_addresses, or_comm, or_left_comm]

/-- The addresses pinned for the pods are free, and there are enough of them, exactly where no turn
comes of a host that is held after all or is an end of its network. -/
theorem allocates_free_iff (hs : w.subnets.lookup internal = some s)
    (hp : ipv4Network s.cidrBlock.toList = some p) (ht : w.subnets.lookup external = some t)
    (hq : ipv4Network t.cidrBlock.toList = some q) :
    (∃ inner outer, Goes (· = w) (allocateGatewayIps internal external replicas) w
        (.ok (inner, outer)) w ∧
      Pinned (w.pins ++ s.marks) p replicas [] inner ∧
      Pinned (w.pins ++ t.marks) q replicas inner outer) ↔ Clear (w.pins ++ s.marks) p replicas ∧
      Clear (w.pins ++ (turns (w.pins ++ s.marks) p replicas).map .address ++ t.marks) q
        replicas := by
  rw [exists_allocates_iff hs hp ht hq, pinned_inner_iff hp, pinned_outer_iff hq]

end Calls

/-- Of the inner Subnet this is left out. -/
def innerLess (excludeIps : List String) : Subnet where
  cidrBlock := "10.0.0.0/29"
  gateway := "10.0.0.6"
  excludeIps := excludeIps

def outerUsed : Subnet where
  cidrBlock := "10.1.0.0/29"
  usedRange := "10.1.0.1-10.1.0.2"

def innerBlock : Block 32 := ⟨0x0A000000, 29, by decide⟩

def outerBlock : Block 32 := ⟨0x0A010000, 29, by decide⟩

def pinnedIn (excludeIps : List String) : World where
  clock := 0
  vpcs := ∅
  subnets := (AList.singleton "inner" (innerLess excludeIps)).insert "outer" outerUsed
  nads := ∅
  gateways := AList.singleton "main" { policies := [], internalIPs := ["10.0.0.1"] }
  allocators := ∅

theorem inner_pinnedIn (excludeIps : List String) :
    (pinnedIn excludeIps).subnets.lookup "inner" = some (innerLess excludeIps) := rfl

theorem outer_pinnedIn (excludeIps : List String) :
    (pinnedIn excludeIps).subnets.lookup "outer" = some outerUsed := rfl

theorem innerLess_block (excludeIps : List String) :
    ipv4Network (innerLess excludeIps).cidrBlock.toList = some innerBlock := by
  show ipv4Network "10.0.0.0/29".toList = some innerBlock
  decide

theorem outerUsed_block : ipv4Network outerUsed.cidrBlock.toList = some outerBlock := by decide

/-- The addresses of an excluded network are given away. -/
theorem allocates_excluded : ¬∀ (w : World) (internal external : String) (s t : Subnet)
    (p q : Block 32) (replicas : ℕ), w.subnets.lookup internal = some s →
    ipv4Network s.cidrBlock.toList = some p → w.subnets.lookup external = some t →
    ipv4Network t.cidrBlock.toList = some q →
    ∃ inner outer, Goes (· = w) (allocateGatewayIps internal external replicas) w
        (.ok (inner, outer)) w ∧
      Pinned (w.pins ++ s.marks) p replicas [] inner ∧
      Pinned (w.pins ++ t.marks) q replicas inner outer := by
  intro h
  have hfree := h _ "inner" "outer" _ _ _ _ 1 (inner_pinnedIn ["10.0.0.0/30"]) (innerLess_block _)
    (outer_pinnedIn _) outerUsed_block
  rw [exists_allocates_iff (inner_pinnedIn _) (innerLess_block _) (outer_pinnedIn _)
    outerUsed_block, pinned_inner_iff (innerLess_block _)] at hfree
  exact absurd hfree.1 (by decide +kernel)

theorem allocates_free_iff_pinnedIn : (∃ inner outer, Goes (· = pinnedIn ["10.0.0.2..10.0.0.3"])
        (allocateGatewayIps "inner" "outer" 2) (pinnedIn ["10.0.0.2..10.0.0.3"])
        (.ok (inner, outer)) (pinnedIn ["10.0.0.2..10.0.0.3"]) ∧
      Pinned ((pinnedIn ["10.0.0.2..10.0.0.3"]).pins ++ (innerLess ["10.0.0.2..10.0.0.3"]).marks)
        innerBlock 2 [] inner ∧
      Pinned ((pinnedIn ["10.0.0.2..10.0.0.3"]).pins ++ outerUsed.marks) outerBlock 2 inner
        outer) :=
  (allocates_free_iff (inner_pinnedIn _) (innerLess_block _) (outer_pinnedIn _)
    outerUsed_block).mpr (by decide +kernel)

end Egress
