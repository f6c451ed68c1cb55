import KubevirtUi.Go.Netip
import Mathlib.Data.List.AList

/-!
# A BGP configuration, as FRR reads it

The text is read line by line, and each line in the context that the lines before it have
left: a later line for the same list and number replaces an earlier one. Only the commands
are here that the address family of IPv4 is announced with.

A prefix is advertised to a neighbor if there is a network statement for it and the
neighbor's route map lets it through. The entries of a map are tried in the order of their
numbers, the first that matches decides, and where none does the prefix is denied.
-/

namespace Frr

open Go.Netip List

/-- An entry of a route map. -/
structure Entry where
  permit : Bool
  matchList : Option String
  nextHop : Option (BitVec 32)
  deriving DecidableEq

/-- What has been configured. Lists and maps are kept in the order of their numbers. -/
structure Config where
  requiresPolicy : Bool := true
  importCheck : Bool := true
  neighbors : List String := []
  networks : List (Block 32) := []
  out : AList fun _ : String => String := ∅
  prefixLists : AList fun _ : String => List (Nat × Bool × Block 32) := ∅
  routeMaps : AList fun _ : String => List (Nat × Entry) := ∅

/-- What a line is about. -/
inductive Context where
  | top
  | bgp
  | family
  | routeMap (name : String) (number : Nat)
  deriving DecidableEq

variable {n : Nat} {config : Config} {context : Context} {name number : String}

section Place

variable {α : Type}

/-- Put an entry in the place of its number. -/
def place (n : Nat) (x : α) : List (Nat × α) → List (Nat × α)
  | [] => [(n, x)]
  | (m, y) :: rest =>
    if n < m then (n, x) :: (m, y) :: rest
    else if n = m then (n, x) :: rest
    else (m, y) :: place n x rest

/-- Change the entry with a number. -/
def amend (n : Nat) (change : α → α) (entries : List (Nat × α)) : List (Nat × α) :=
  entries.map fun entry => (entry.1, if entry.1 = n then change entry.2 else entry.2)

variable {x : α} {entries : List (Nat × α)} {change : α → α}

theorem place_of_forall_lt (h : ∀ entry ∈ entries, entry.1 < n) :
    place n x entries = entries ++ [(n, x)] := by
  induction entries with
  | nil => rfl
  | cons entry entries ih =>
    rw [forall_mem_cons] at h
    obtain ⟨m, y⟩ := entry
    have hlt : m < n := h.1
    rw [place, if_neg (by omega), if_neg (by omega), ih h.2, cons_append]

theorem amend_of_forall_ne (h : ∀ entry ∈ entries, entry.1 ≠ n) :
    amend n change entries = entries := by
  refine (map_congr_left fun entry hentry => ?_).trans (map_id entries)
  rw [if_neg (h entry hentry)]
  rfl

theorem amend_append_of_forall_lt (h : ∀ entry ∈ entries, entry.1 < n) :
    amend n change (entries ++ [(n, x)]) = entries ++ [(n, change x)] := by
  have hfront : amend n change entries = entries :=
    amend_of_forall_ne fun entry hentry => Nat.ne_of_lt (h entry hentry)
  rw [amend, map_append, ← amend, hfront]
  simp

end Place

/-- The words of a line. -/
def words (line : String) : List String :=
  ((line.toList.splitOn ' ').filter (· ≠ [])).map String.ofList

def readNumber (s : String) : Option Nat :=
  if s ≠ "" ∧ s.toList.all Char.isDigit then some (Nat.ofDigitChars 10 s.toList 0) else none

def readAddress (s : String) : Option (BitVec 32) :=
  match parseAddr s.toList with
  | some (.v4 a) => some a
  | _ => none

/-- A network is read without the bits of its hosts. -/
def readNetwork (s : String) : Option (Block 32) :=
  match parsePrefix s with
  | some (.v4 p) => some p.masked
  | _ => none

/-- Change the entry of a route map that the line belongs to. -/
def Config.amendEntry (config : Config) (context : Context) (change : Entry → Entry) : Config :=
  match context with
  | .routeMap name number =>
    { config with
      routeMaps := config.routeMaps.insert name
        (amend number change ((config.routeMaps.lookup name).getD [])) }
  | _ => config

/-- One line. What is not known here has no part in what is advertised. -/
def readWords (state : Config × Context) (words : List String) : Config × Context :=
  let (config, context) := state
  match words with
  | ["router", "bgp", _] => (config, .bgp)
  | ["no", "bgp", "ebgp-requires-policy"] =>
    (if context = .bgp then { config with requiresPolicy := false } else config, context)
  | ["no", "bgp", "network", "import-check"] =>
    (if context = .bgp then { config with importCheck := false } else config, context)
  | ["neighbor", peer, "remote-as", _] =>
    (if context = .bgp then { config with neighbors := config.neighbors ++ [peer] } else config,
      context)
  | ["address-family", "ipv4", "unicast"] => (config, if context = .bgp then .family else context)
  | ["network", cidr] =>
    (if context = .family then
      { config with networks := config.networks ++ (readNetwork cidr).toList } else config, context)
  | ["neighbor", peer, "route-map", name, "out"] =>
    (if context = .family then { config with out := config.out.insert peer name } else config,
      context)
  | ["exit-address-family"] => (config, if context = .family then .bgp else context)
  | ["ip", "prefix-list", name, "seq", number, "permit", cidr] =>
    match readNumber number, readNetwork cidr with
    | some number, some network =>
      ({ config with
        prefixLists := config.prefixLists.insert name
          (place number (true, network) ((config.prefixLists.lookup name).getD [])) }, .top)
    | _, _ => state
  | ["route-map", name, "permit", number] =>
    match readNumber number with
    | some number =>
      let entries := (config.routeMaps.lookup name).getD []
      let entries :=
        if entries.any (·.1 = number) then amend number ({ · with permit := true }) entries
        else place number ⟨true, none, none⟩ entries
      ({ config with routeMaps := config.routeMaps.insert name entries }, .routeMap name number)
    | none => state
  | ["match", "ip", "address", "prefix-list", list] =>
    (config.amendEntry context ({ · with matchList := some list }), context)
  | ["set", "ip", "next-hop", hop] =>
    (config.amendEntry context ({ · with nextHop := readAddress hop }), context)
  | _ => state

theorem readWords_prefixList {cidr : String} {network : Block 32}
    (hnumber : readNumber number = some n) (hcidr : readNetwork cidr = some network) :
    readWords (config, context) ["ip", "prefix-list", name, "seq", number, "permit", cidr] =
      ({ config with
        prefixLists := config.prefixLists.insert name
          (place n (true, network) ((config.prefixLists.lookup name).getD [])) }, .top) := by
  have hwords : readWords (config, context)
      ["ip", "prefix-list", name, "seq", number, "permit", cidr] =
      match readNumber number, readNetwork cidr with
      | some number, some network =>
        ({ config with
          prefixLists := config.prefixLists.insert name
            (place number (true, network) ((config.prefixLists.lookup name).getD [])) }, .top)
      | _, _ => (config, context) := rfl
  rw [hwords, hnumber, hcidr]

theorem readWords_routeMap (hnumber : readNumber number = some n) :
    readWords (config, context) ["route-map", name, "permit", number] =
      ({ config with
        routeMaps := config.routeMaps.insert name
          (if ((config.routeMaps.lookup name).getD []).any (·.1 = n) then
            amend n ({ · with permit := true }) ((config.routeMaps.lookup name).getD [])
          else place n ⟨true, none, none⟩ ((config.routeMaps.lookup name).getD [])) },
        .routeMap name n) := by
  have hwords : readWords (config, context) ["route-map", name, "permit", number] =
      match readNumber number with
      | some number =>
        ({ config with
          routeMaps := config.routeMaps.insert name
            (if ((config.routeMaps.lookup name).getD []).any (·.1 = number) then
              amend number ({ · with permit := true }) ((config.routeMaps.lookup name).getD [])
            else place number ⟨true, none, none⟩ ((config.routeMaps.lookup name).getD [])) },
          .routeMap name number)
      | none => (config, context) := rfl
  rw [hwords, hnumber]

/-- Lines, one after the other. -/
def readLines (state : Config × Context) (lines : List String) : Config × Context :=
  (lines.map words).foldl readWords state

/-- The lines of a text. -/
def readConfig (text : String) : Config :=
  (readLines ({}, .top) ((text.toList.splitOn '\n').map String.ofList)).1

section Text

/-- A text without blanks that is not empty. -/
def IsWord (s : String) : Prop := s ≠ "" ∧ ∀ c ∈ s.toList, c ≠ ' ' ∧ c ≠ '\n'

instance (s : String) : Decidable (IsWord s) :=
  @instDecidableAnd _ _ inferInstance (List.decidableBAll _ s.toList)

theorem splitOn_replicate (k : Nat) (s : List Char) :
    ((List.replicate k ' ' ++ s).splitOn ' ').filter (· ≠ []) =
      (s.splitOn ' ').filter (· ≠ []) := by
  induction k with
  | zero => rfl
  | succ k ih =>
    have hblank := splitOn_append_cons_self [] (List.replicate k ' ' ++ s) (a := ' ')
    rw [nil_append] at hblank
    rw [replicate_succ, cons_append, hblank, filter_append, ih]
    rfl

/-- The text is one line of these words. -/
structure Reads (line : String) (tokens : List String) : Prop where
  words : words line = tokens
  single : '\n' ∉ line.toList

theorem reads_of_isWord {line : String} {k : Nat} {tokens : List String} (hne : tokens ≠ [])
    (hwords : ∀ token ∈ tokens, IsWord token) (hline : line.toList =
      List.replicate k ' ' ++ List.intercalate [' '] (tokens.map String.toList)) :
    Reads line tokens := by
  have hmem : ∀ token ∈ tokens.map String.toList, token ≠ [] ∧ ∀ c ∈ token, c ≠ ' ' ∧ c ≠ '\n' := by
    rintro _ hmem
    obtain ⟨token, htoken, rfl⟩ := mem_map.mp hmem
    exact ⟨by simpa using (hwords token htoken).1, (hwords token htoken).2⟩
  have hblank : ∀ token ∈ tokens.map String.toList, ' ' ∉ token := fun token htoken hblank =>
    ((hmem token htoken).2 ' ' hblank).1 rfl
  have hfilter : (tokens.map String.toList).filter (· ≠ []) = tokens.map String.toList := by
    rw [filter_eq_self]
    exact fun token htoken => by simpa using (hmem token htoken).1
  constructor
  · rw [Frr.words, hline, splitOn_replicate,
      splitOn_intercalate _ hblank (by simpa using hne), hfilter, map_map]
    simp
  · rw [hline, mem_append, not_or]
    refine ⟨fun hbreak => absurd (eq_of_mem_replicate hbreak) (by decide), ?_⟩
    exact Go.not_mem_intercalate (by decide) fun token htoken hbreak =>
      ((hmem token htoken).2 '\n' hbreak).2 rfl

@[simp] theorem readLines_nil (state : Config × Context) : readLines state [] = state := rfl

theorem readLines_cons (state : Config × Context) (line : String) (lines : List String) :
    readLines state (line :: lines) = readLines (readWords state (words line)) lines := rfl

theorem readLines_append (state : Config × Context) (first second : List String) :
    readLines state (first ++ second) = readLines (readLines state first) second := by
  rw [readLines, map_append, foldl_append]
  rfl

theorem readConfig_eq {lines : List String} (hne : lines ≠ [])
    (hlines : ∀ line ∈ lines, '\n' ∉ line.toList) :
    readConfig ("\n".intercalate lines ++ "\n") = (readLines ({}, .top) lines).1 := by
  have hbreak : "\n".toList = ['\n'] := by decide
  have hsplit : ("\n".intercalate lines ++ "\n").toList.splitOn '\n' =
      lines.map String.toList ++ [[]] := by
    rw [String.toList_append, hbreak, splitOn_append_cons_self, String.toList_intercalate,
      hbreak, splitOn_intercalate]
    · rfl
    · simpa using hlines
    · simpa using hne
  have htext : (lines.map String.toList).map String.ofList = lines := by
    simp [Function.comp_def]
  have hempty : words (String.ofList []) = [] := by decide
  rw [readConfig, hsplit, map_append, htext, readLines_append]
  simp only [map_cons, map_nil, readLines_cons, hempty, readLines_nil]
  rfl

theorem readNumber_toString (n : Nat) : readNumber (toString n) = some n := by
  have htext : (toString n).toList = Nat.toDigits 10 n := by simp
  have hne : toString n ≠ "" := by
    intro h
    rw [h, String.toList_empty] at htext
    exact Nat.toDigits_ne_nil htext.symm
  have hall : (toString n).toList.all Char.isDigit = true := by
    rw [htext, all_eq_true]
    exact fun c hc => Nat.isDigit_of_mem_toDigits (by omega) (by omega) hc
  rw [readNumber, if_pos ⟨hne, hall⟩, htext, Nat.ofDigitChars_ten_toDigits]

end Text

/-- Whether a prefix list lets a prefix through: an entry is for that prefix alone. -/
def Config.permits (config : Config) (list : String) (p : Block 32) : Bool :=
  match ((config.prefixLists.lookup list).getD []).find? fun entry => entry.2.2 = p with
  | some (_, permit, _) => permit
  | none => false

def Entry.accepts (config : Config) (p : Block 32) (entry : Entry) : Bool :=
  entry.matchList.all fun list => config.permits list p

/-- The next hop that a prefix is advertised with to a neighbor, if it is: zero stands for the
address of the router itself. A network of a tenant is in no routing table, so that nothing is
advertised while that is checked. -/
def Config.advertised (config : Config) (peer : String) (p : Block 32) : Option (BitVec 32) :=
  if peer ∈ config.neighbors ∧ p ∈ config.networks ∧ config.importCheck = false then
    match config.out.lookup peer with
    | none => if config.requiresPolicy then none else some 0
    | some name =>
      match ((config.routeMaps.lookup name).getD []).find?
          fun entry => entry.2.accepts config p with
      | some (_, entry) => if entry.permit then some (entry.nextHop.getD 0) else none
      | none => none
  else none

end Frr
