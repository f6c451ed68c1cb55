import KubevirtUi.Acl.Evaluate
import KubevirtUi.Go.NetipText
import Mathlib.Data.List.MinMax

/-!
# What the rules of a subnet do to a packet

The part of OVN's match language that rules about addresses and ports are written in: a field
compared with one constant, or with a set of them in braces, and comparisons joined by `&&`.
What is not of this form matches nothing here.

Among the rules that match a packet the one with the highest priority decides, and a packet that
no rule matches passes.
-/

namespace Ovn

open Go Go.Netip Acl List Option

inductive Protocol where
  | tcp
  | udp
  deriving DecidableEq

/-- The field of a destination port. -/
def Protocol.portField : Protocol → String
  | .tcp => "tcp.dst"
  | .udp => "udp.dst"

/-- A packet that comes in from a port of the subnet. One of another protocol has no target. -/
structure Packet where
  source : BitVec 32
  destination : BitVec 32
  target : Option (Protocol × BitVec 16)
  deriving DecidableEq

inductive Kind where
  | blank
  | mark
  | operator
  | word
  deriving DecidableEq

def kind (c : Char) : Kind :=
  if c = ' ' ∨ c = '\t' ∨ c = '\n' ∨ c = '\r' then .blank
  else if c = '\x7b' ∨ c = '\x7d' ∨ c = '(' ∨ c = ')' ∨ c = ',' then .mark
  else if c = '=' ∨ c = '&' ∨ c = '|' ∨ c = '!' ∨ c = '<' ∨ c = '>' then .operator
  else .word

/-- Characters of one kind belong together, where they are not marks. -/
def sticks (c d : Char) : Bool :=
  (kind c = .operator && kind d = .operator) || (kind c = .word && kind d = .word)

def consWord (c : Char) : List (List Char) → List (List Char)
  | [] => [[c]]
  | w :: ws => (c :: w) :: ws

def words : List Char → List (List Char)
  | [] => []
  | c :: s =>
    if kind c = .blank then words s
    else if s.head?.any (sticks c) then consWord c (words s) else [c] :: words s

inductive Comparison where
  | source (networks : List (Block 32))
  | destination (networks : List (Block 32))
  | port (protocol : Protocol) (ports : List Nat)

/-- An address, or a network without host bits. -/
def readNetwork (s : List Char) : Option (Block 32) :=
  if '/' ∈ s then
    match parsePrefixChars s with
    | some (.v4 p) => if p.masked = p then some p else none
    | _ => none
  else
    match parseAddr s with
    | some (.v4 a) => some ⟨a, 32, Block.le_bits_32⟩
    | _ => none

def single : List (List Char) → Option (List Char)
  | [c] => some c
  | _ => none

/-- One constant, or several in braces with commas between them. -/
def constants : List (List Char) → Option (List (List Char))
  | [c] => some [c]
  | first :: rest =>
    if first = ['\x7b'] ∧ rest.getLast? = some ['\x7d'] then
      (rest.dropLast.splitOn [',']).mapM single
    else none
  | [] => none

def comparison : List (List Char) → Option Comparison
  | field :: operator :: rest => do
    let values ← constants rest
    if operator ≠ "==".toList then none
    else if field = "ip4.src".toList then (values.mapM readNetwork).map .source
    else if field = "ip4.dst".toList then (values.mapM readNetwork).map .destination
    -- a number is written as a prefix length is
    else if field = Protocol.tcp.portField.toList then (values.mapM parseBits).map (.port .tcp)
    else if field = Protocol.udp.portField.toList then (values.mapM parseBits).map (.port .udp)
    else none
  | _ => none

def parseMatch (matchExpr : String) : Option (List Comparison) :=
  ((words matchExpr.toList).splitOn "&&".toList).mapM comparison

def Comparison.holds (packet : Packet) : Comparison → Bool
  | .source networks => networks.any fun p => p.Contains packet.source
  | .destination networks => networks.any fun p => p.Contains packet.destination
  | .port protocol ports =>
    packet.target.any fun target => target.1 = protocol && ports.contains target.2.toNat

def matchesPacket (packet : Packet) (rule : Rule) : Bool :=
  rule.direction = "from-lport" && (parseMatch rule.matchExpr).any (·.all (·.holds packet))

/-- The rule that decides. -/
def deciding (rules : List Rule) (packet : Packet) : Option Rule :=
  @List.argmax _ _ Int.instLinearOrder.toPreorder inferInstance Rule.priority
    (rules.filter (matchesPacket packet))

def passes (rules : List Rule) (packet : Packet) : Bool :=
  (deciding rules packet).all fun rule => rule.action ≠ "drop"

section Words

variable {s t w : List Char} {c d : Char} {rs : List (List Char)}

theorem words_blank_cons : words (' ' :: s) = words s := by
  rw [words, if_pos (by decide)]

theorem sticks_of_mark (h : kind c = .mark ∨ kind d = .mark) : sticks c d = false := by
  obtain h | h := h <;> simp [sticks, h]

theorem sticks_of_blank (h : kind d = .blank) : sticks c d = false := by
  simp [sticks, h]

theorem words_ne_nil_of_sticks (h : (s.head?).any (sticks c) = true) : words s ≠ [] := by
  cases s with
  | nil => contradiction
  | cons d s =>
    rw [List.head?_cons, any_some] at h
    rw [words]
    split
    · next hblank =>
      rw [sticks_of_blank hblank] at h
      contradiction
    · split
      · cases words s <;> simp [consWord]
      · simp

theorem consWord_append (h : rs ≠ []) (ws : List (List Char)) :
    consWord c (rs ++ ws) = consWord c rs ++ ws := by
  cases rs with
  | nil => contradiction
  | cons w rs => rfl

theorem words_append (h : ∀ c ∈ s.getLast?, ∀ d ∈ t.head?, sticks c d = false) :
    words (s ++ t) = words s ++ words t := by
  induction s with
  | nil => rfl
  | cons c s ih =>
    have hrest : words (s ++ t) = words s ++ words t := by
      refine ih fun e he => h e ?_
      cases s with
      | nil => contradiction
      | cons d s => rwa [List.getLast?_cons_cons]
    have hhead : (s ++ t).head?.any (sticks c) = s.head?.any (sticks c) := by
      cases s with
      | nil =>
        rw [nil_append, List.head?_nil, any_none]
        cases t with
        | nil => rfl
        | cons d t => exact h c rfl d rfl
      | cons d s => rfl
    rw [cons_append, words, words, hrest, hhead]
    split
    · rfl
    · split
      · next hsticks => exact consWord_append (words_ne_nil_of_sticks hsticks) _
      · rfl

theorem words_of_forall_word (hne : w ≠ []) (h : ∀ c ∈ w, kind c = .word) : words w = [w] := by
  induction w with
  | nil => contradiction
  | cons c w ih =>
    rw [forall_mem_cons] at h
    have hblank : kind c ≠ .blank := by simp [h.1]
    rw [words, if_neg hblank]
    cases w with
    | nil => rfl
    | cons d w =>
      have hsticks : sticks c d = true := by simp [sticks, h.1, h.2 d (by simp)]
      rw [List.head?_cons, any_some, if_pos hsticks, ih (cons_ne_nil _ _) h.2]
      rfl

theorem words_blank (h : words w = [w]) : words (w ++ ' ' :: t) = w :: words t := by
  rw [words_append, h, words_blank_cons, singleton_append]
  intro c _ d hd
  obtain rfl := some.inj hd
  exact sticks_of_blank (by decide)

theorem words_mark_cons (h : kind c = .mark) : words (c :: t) = [c] :: words t := by
  have hblank : kind c ≠ .blank := by simp [h]
  have hnone : t.head?.any (sticks c) = false := by
    cases t with
    | nil => rfl
    | cons d t => exact sticks_of_mark (.inl h)
  rw [words, if_neg hblank, if_neg (by simp [hnone])]

theorem words_mark (h : words w = [w]) (hc : kind c = .mark) :
    words (w ++ c :: t) = w :: [c] :: words t := by
  rw [words_append, h, words_mark_cons hc, singleton_append]
  intro c _ d hd
  obtain rfl := some.inj hd
  exact sticks_of_mark (.inr hc)

theorem words_intercalate (hne : rs ≠ []) (h : ∀ r ∈ rs, words r = [r]) :
    words (", ".toList.intercalate rs ++ ['\x7d']) =
      [[',']].intercalate (rs.map ([·])) ++ [['\x7d']] := by
  induction rs with
  | nil => contradiction
  | cons r rs ih =>
    rw [forall_mem_cons] at h
    cases rs with
    | nil =>
      simp only [intercalate_singleton, map_cons, map_nil]
      exact words_mark h.1 (by decide)
    | cons r' rs =>
      have hcomma : ", ".toList = [',', ' '] := rfl
      have hrest := ih (cons_ne_nil _ _) h.2
      have hmarks : [[',']].intercalate ((r :: r' :: rs).map ([·])) =
          [r] ++ [[',']] ++ [[',']].intercalate ((r' :: rs).map ([·])) :=
        intercalate_cons_cons
      rw [hmarks, intercalate_cons_cons, append_assoc, append_assoc, hcomma,
        cons_append, cons_append, nil_append, words_mark h.1 (by decide),
        words_blank_cons, ← hcomma, hrest]
      rfl

end Words

variable {rest : List (List Char)}

section Reading

variable {matchExpr : String} {groups : List (List (List Char))} {cs : List (List Char)}

theorem kind_of_isDigit {c : Char} (h : c.isDigit = true) : kind c = .word := by
  rw [kind, if_neg, if_neg, if_neg]
  · rintro (rfl | rfl | rfl | rfl | rfl | rfl) <;> contradiction
  · rintro (rfl | rfl | rfl | rfl | rfl) <;> contradiction
  · rintro (rfl | rfl | rfl | rfl) <;> contradiction

theorem words_formatIPv4 (a : BitVec 32) : words (formatIPv4 a) = [formatIPv4 a] := by
  refine words_of_forall_word (formatIPv4_ne_nil a) fun c hc => ?_
  obtain hdigit | rfl := isDigit_or_dot_of_mem_formatIPv4 hc
  · exact kind_of_isDigit hdigit
  · decide

theorem words_prefixString (p : Block 32) :
    words (prefixString (.v4 p)).toList = [(prefixString (.v4 p)).toList] := by
  rw [prefixString, String.toList_ofList]
  refine words_of_forall_word (by simp) fun c hc => ?_
  obtain hc | rfl | hc := by simpa only [mem_append, mem_cons] using hc
  · obtain hdigit | rfl := isDigit_or_dot_of_mem_formatIPv4 hc
    · exact kind_of_isDigit hdigit
    · decide
  · decide
  · exact kind_of_isDigit (Nat.isDigit_of_mem_toDigits (by omega) (by omega) hc)

theorem words_toString (n : Int) : words (toString n).toList = [(toString n).toList] := by
  refine words_of_forall_word (toList_toString_ne_nil n) fun c hc => ?_
  obtain hdigit | rfl := isDigit_or_minus_of_mem_toString hc
  · exact kind_of_isDigit hdigit
  · decide

theorem readNetwork_formatIPv4 (a : BitVec 32) :
    readNetwork (formatIPv4 a) = some ⟨a, 32, Nat.le_refl 32⟩ := by
  rw [readNetwork, if_neg (foreign_slash.not_mem_formatIPv4 a), parseAddr_formatIPv4]

theorem readNetwork_prefixString {p : Block 32} (hp : p.masked = p) :
    readNetwork (prefixString (.v4 p)).toList = some p := by
  have hslash := slash_mem_prefixString (.v4 p)
  have hparse : parsePrefixChars (prefixString (.v4 p)).toList = some (.v4 p) :=
    parsePrefix_prefixString (.v4 p)
  rw [readNetwork, if_pos hslash, hparse]
  exact if_pos hp

theorem parseBits_toString (n : Int) :
    parseBits (toString n).toList = if 0 ≤ n then some n.toNat else none := by
  cases n with
  | ofNat n =>
    rw [Int.ofNat_eq_natCast, toList_toString_natCast, parseBits_toDigits, if_pos (by omega)]
    rfl
  | negSucc n =>
    rw [toList_toString_negSucc, parseBits, if_pos ⟨Nat.toDigits_ne_nil, .inl (by decide)⟩,
      if_neg (by omega)]

theorem constants_set (hne : cs ≠ []) (hcs : ∀ c ∈ cs, c ≠ [',']) :
    constants (['\x7b'] :: ([[',']].intercalate (cs.map ([·])) ++ [['\x7d']])) = some cs := by
  have hsplit : ([[',']].intercalate (cs.map ([·]))).splitOn [','] = cs.map ([·]) := by
    refine splitOn_intercalate _ (fun l hl => ?_) (by simpa using hne)
    obtain ⟨c, hc, rfl⟩ := mem_map.mp hl
    exact fun hmem => hcs c hc (mem_singleton.mp hmem).symm
  have hsingle : (cs.map ([·])).mapM single = some cs := by
    rw [mapM_map]
    exact mapM_pure.trans (congrArg some (map_id cs))
  rw [constants]
  · rw [if_pos ⟨rfl, by simp⟩, dropLast_concat, hsplit, hsingle]
  · simp

theorem comparison_source (h : constants rest = some cs) :
    comparison ("ip4.src".toList :: "==".toList :: rest) =
      (cs.mapM readNetwork).map .source := by
  rw [comparison, h]
  rfl

theorem comparison_destination (h : constants rest = some cs) :
    comparison ("ip4.dst".toList :: "==".toList :: rest) =
      (cs.mapM readNetwork).map .destination := by
  rw [comparison, h]
  rfl

theorem comparison_port (protocol : Protocol) (h : constants rest = some cs) :
    comparison (protocol.portField.toList :: "==".toList :: rest) =
      (cs.mapM parseBits).map (.port protocol) := by
  cases protocol <;>
  · rw [comparison, h]
    rfl

theorem mapM_eq_some {α β : Type} {f : α → Option β} {g : α → β} {l : List α}
    (h : ∀ a ∈ l, f a = some (g a)) : l.mapM f = some (l.map g) := by
  induction l with
  | nil => rfl
  | cons a l ih =>
    rw [forall_mem_cons] at h
    rw [mapM_cons, h.1, ih h.2]
    rfl

theorem parseMatch_eq (hwords : words matchExpr.toList = ["&&".toList].intercalate groups)
    (hne : groups ≠ []) (hgroups : ∀ g ∈ groups, "&&".toList ∉ g) :
    parseMatch matchExpr = groups.mapM comparison := by
  rw [parseMatch, hwords, splitOn_intercalate _ hgroups hne]

end Reading

section Deciding

variable {rules : List Rule} {packet : Packet} {rule other : Rule}

theorem of_deciding (h : deciding rules packet = some rule) :
    rule ∈ rules ∧ matchesPacket packet rule = true :=
  mem_filter.mp (argmax_mem h)

theorem le_of_deciding (h : deciding rules packet = some rule) (hother : other ∈ rules)
    (hmatches : matchesPacket packet other = true) : other.priority ≤ rule.priority :=
  le_of_mem_argmax (mem_filter.mpr ⟨hother, hmatches⟩) h

theorem exists_deciding (hrule : rule ∈ rules) (hmatches : matchesPacket packet rule = true) :
    ∃ decided, deciding rules packet = some decided := by
  refine ne_none_iff_exists'.mp fun hnone => ?_
  have hnil := argmax_eq_none.mp hnone
  exact ne_nil_of_mem (mem_filter.mpr ⟨hrule, hmatches⟩) hnil

/-- One drop beneath rules that drop nothing: a packet is dropped where only the drop matches. -/
theorem passes_iff_of_beneath (hdrop : rule ∈ rules) (haction : rule.action = "drop")
    (habove : ∀ other ∈ rules,
      other = rule ∨ other.action ≠ "drop" ∧ rule.priority < other.priority) :
    passes rules packet = true ↔
      (∃ other ∈ rules, other ≠ rule ∧ matchesPacket packet other = true) ∨
        matchesPacket packet rule = false := by
  rw [passes]
  constructor
  · intro hpasses
    by_cases hmatches : matchesPacket packet rule = true
    · obtain ⟨decided, hdecided⟩ := exists_deciding hdrop hmatches
      obtain ⟨hmem, hdecides⟩ := of_deciding hdecided
      refine .inl ⟨decided, hmem, ?_, hdecides⟩
      rintro rfl
      simp [hdecided, haction] at hpasses
    · exact .inr (Bool.eq_false_iff.mpr hmatches)
  · intro h
    cases hdecided : deciding rules packet with
    | none => rfl
    | some decided =>
      obtain ⟨hmem, hdecides⟩ := of_deciding hdecided
      rw [all_some, decide_eq_true_iff]
      obtain rfl | ⟨haction, -⟩ := habove decided hmem
      · obtain ⟨other, hother, hne, hmatches⟩ | hnone := h
        · have hle := le_of_deciding hdecided hother hmatches
          have hlt := ((habove other hother).resolve_left hne).2
          omega
        · rw [hnone] at hdecides
          contradiction
      · exact haction

end Deciding

end Ovn
