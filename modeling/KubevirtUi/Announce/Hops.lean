import KubevirtUi.Frr.Config
import KubevirtUi.Library.Keyed
import Mathlib.Data.List.Find
import Mathlib.Data.List.Sort
import Mathlib.Data.List.Zip
import Mathlib.Data.String.Basic

/-!
# Each prefix with its own next hop

Each announcement has a network statement, a prefix list, and a branch of the route map that
matches the list and sets its next hop. The list is named after the VPC, in upper case, and
with a dash for what such a name cannot hold.

A prefix list has one number for all that goes into it, so that the last announcement with its
name is the one that is in it. Where no two announcements share a name, each branch matches its
own prefix; where two do, the prefix of the one that comes first is not advertised.
-/

namespace Announce

open Frr List AList
open Option hiding any_eq_false mem_map map_map

/-- One prefix of a tenant, and the router leg to send it to. -/
structure Announcement where
  vpc : String
  cidr : String
  nextHop : String

/-- The fragment of a list's name. -/
def slug (vpc : String) : String :=
  String.ofList (vpc.toList.map fun c => if c.isAlphanum ∨ c = '-' then c.toUpper else '-')

/-- The order that makes the rendering the same for every order of the input. -/
def comesFirst (a b : Announcement) : Bool :=
  if a.vpc ≠ b.vpc then a.vpc < b.vpc else a.cidr ≤ b.cidr

def ordered (announcements : List Announcement) : List Announcement :=
  announcements.insertionSort fun a b => comesFirst a b

def header (peer : String) (asn remoteASN : Int) : List String :=
  ["router bgp " ++ toString asn,
    " no bgp ebgp-requires-policy",
    " no bgp network import-check",
    " neighbor " ++ peer ++ " remote-as " ++ toString remoteASN,
    " neighbor " ++ peer ++ " timers 10 30",
    " address-family ipv4 unicast"]

def network (a : Announcement) : String := "  network " ++ a.cidr

def prefixList (a : Announcement) : String :=
  "ip prefix-list PL-" ++ slug a.vpc ++ " seq 5 permit " ++ a.cidr

/-- The branch of the route map for the announcement in this place. -/
def branch (a : Announcement) (i : Nat) : List String :=
  ["route-map B3-NH permit " ++ toString ((i + 1) * 10),
    " match ip address prefix-list PL-" ++ slug a.vpc,
    " set ip next-hop " ++ a.nextHop]

def renderLines (announcements : List Announcement) (peer : String) (asn remoteASN : Int) :
    List String :=
  let ordered := ordered announcements
  header peer asn remoteASN ++ ordered.map network ++
    (if ordered ≠ [] then ["  neighbor " ++ peer ++ " route-map B3-NH out"] else []) ++
    [" exit-address-family", "!"] ++ ordered.map prefixList ++ ["!"] ++
    ordered.zipIdx.flatMap fun (a, i) => branch a i

def renderRawConfig (announcements : List Announcement) (peer : String) (asn remoteASN : Int) :
    String :=
  "\n".intercalate (renderLines announcements peer asn remoteASN) ++ "\n"

open Go Go.Netip Frr

variable {s : String} {c : Char} {announcements : List Announcement}

theorem isWord_of_readNetwork {p : Block 32} (h : readNetwork s = some p) : IsWord s := by
  rw [readNetwork] at h
  split at h
  · next block hblock =>
    refine ⟨ne_empty_of_parsePrefix hblock, fun c hc => ?_⟩
    have hspace := isSpace_of_parsePrefix_v4 hblock c hc
    constructor <;> rintro rfl <;> contradiction
  · contradiction

theorem isWord_of_readAddress {a : BitVec 32} (h : readAddress s = some a) : IsWord s := by
  rw [readAddress] at h
  split at h
  · next value hvalue =>
    obtain ⟨n, hn, -⟩ := parseIPv4_of_parseAddr hvalue
    refine ⟨?_, fun c hc => ?_⟩
    · rintro rfl
      simp [parseIPv4Fields] at hn
    · obtain hdigit | rfl := isDigit_or_dot_of_parseIPv4Fields hn c hc
      · constructor <;> rintro rfl <;> contradiction
      · decide
  · contradiction

theorem isWord_of_toList {cs : List Char} (h : s.toList = cs) (hne : cs ≠ [])
    (hall : ∀ c ∈ cs, c ≠ ' ' ∧ c ≠ '\n') : IsWord s := by
  subst h
  refine ⟨fun hempty => hne ?_, hall⟩
  rw [hempty, String.toList_empty]

theorem ne_blank_of_mem_toDigits {n : Nat} (h : c ∈ Nat.toDigits 10 n) : c ≠ ' ' ∧ c ≠ '\n' := by
  have hdigit := Nat.isDigit_of_mem_toDigits (by omega) (by omega) h
  constructor <;> rintro rfl <;> contradiction

theorem isWord_nat (n : Nat) : IsWord (toString n) :=
  isWord_of_toList (by simp : (toString n).toList = Nat.toDigits 10 n) Nat.toDigits_ne_nil
    fun _ => ne_blank_of_mem_toDigits

theorem isWord_int (n : Int) : IsWord (toString n) := by
  refine isWord_of_toList rfl (toList_toString_ne_nil n) fun c hc => ?_
  obtain hdigit | rfl := isDigit_or_minus_of_mem_toString hc
  · constructor <;> rintro rfl <;> contradiction
  · decide

theorem toUpper_ne_blank (h : c.isAlphanum = true ∨ c = '-') :
    c.toUpper ≠ ' ' ∧ c.toUpper ≠ '\n' := by
  have hall : ∀ n ∈ List.range 123, (Char.ofNat n).isAlphanum = true ∨ Char.ofNat n = '-' →
      (Char.ofNat n).toUpper ≠ ' ' ∧ (Char.ofNat n).toUpper ≠ '\n' := by decide +kernel
  have hlt : c.toNat < 123 := by
    obtain h | rfl := h
    · have hclasses : c.isAlphanum = (decide ('A'.val ≤ c.val ∧ c.val ≤ 'Z'.val) ||
          ('a'.val ≤ c.val && c.val ≤ 'z'.val) || ('0'.val ≤ c.val && c.val ≤ '9'.val)) := rfl
      simp only [hclasses, Bool.or_eq_true, Bool.and_eq_true, decide_eq_true_eq,
        UInt32.le_iff_toNat_le] at h
      change c.val.toNat < 123
      have hbounds : ('Z'.val.toNat = 90 ∧ 'z'.val.toNat = 122 ∧ '9'.val.toNat = 57) := by decide
      omega
    · decide
  have hc := hall c.toNat (mem_range.mpr hlt)
  rw [Char.ofNat_toNat] at hc
  exact hc h

theorem isWord_list (vpc : String) : IsWord ("PL-" ++ slug vpc) := by
  have hpre : "PL-".toList = ['P', 'L', '-'] := by decide
  refine ⟨fun hempty => ?_, fun c hc => ?_⟩
  · have hlist := congrArg String.toList hempty
    rw [String.toList_append, hpre] at hlist
    contradiction
  · rw [String.toList_append, hpre, slug, String.toList_ofList, mem_append] at hc
    obtain hc | hc := hc
    · simp only [mem_cons, not_mem_nil, or_false] at hc
      obtain rfl | rfl | rfl := hc <;> decide
    · obtain ⟨d, -, rfl⟩ := mem_map.mp hc
      split
      · next hd => exact toUpper_ne_blank hd
      · decide

/-- The text of an announcement can be read. -/
structure Readable (a : Announcement) (net : Block 32) (hop : BitVec 32) : Prop where
  network : readNetwork a.cidr = some net
  nextHop : readAddress a.nextHop = some hop

section Lines

variable {a : Announcement} {net : Block 32} {hop : BitVec 32} {peer : String}

theorem reads_network (h : Readable a net hop) : Reads (network a) ["network", a.cidr] := by
  have hlit : "  network ".toList = ' ' :: ' ' :: ("network".toList ++ [' ']) := by decide
  refine reads_of_isWord (k := 2) (cons_ne_nil _ _) ?_ (by simp [network, hlit, List.intercalate])
  simp only [forall_mem_cons]
  exact ⟨by decide, isWord_of_readNetwork h.network, by simp⟩

theorem reads_prefixList (h : Readable a net hop) :
    Reads ("ip prefix-list PL-" ++ slug a.vpc ++ " seq 5 permit " ++ a.cidr)
      ["ip", "prefix-list", "PL-" ++ slug a.vpc, "seq", "5", "permit", a.cidr] := by
  have hfirst : "ip prefix-list PL-".toList =
      "ip".toList ++ ' ' :: ("prefix-list".toList ++ ' ' :: "PL-".toList) := by decide
  have hsecond : " seq 5 permit ".toList =
      ' ' :: ("seq".toList ++ ' ' :: ("5".toList ++ ' ' :: ("permit".toList ++ [' ']))) := by
    decide
  refine reads_of_isWord (k := 0) (cons_ne_nil _ _) ?_ (by simp [hfirst, hsecond, List.intercalate])
  simp only [forall_mem_cons]
  exact ⟨by decide, by decide, isWord_list a.vpc, by decide, by decide, by decide,
    isWord_of_readNetwork h.network, by simp⟩

theorem reads_routeMap (n : Nat) : Reads ("route-map B3-NH permit " ++ toString n)
    ["route-map", "B3-NH", "permit", toString n] := by
  have hlit : "route-map B3-NH permit ".toList =
      "route-map".toList ++ ' ' :: ("B3-NH".toList ++ ' ' :: ("permit".toList ++ [' '])) := by
    decide
  refine reads_of_isWord (k := 0) (cons_ne_nil _ _) ?_ (by simp [hlit, List.intercalate])
  simp only [forall_mem_cons]
  exact ⟨by decide, by decide, by decide, isWord_nat n, by simp⟩

theorem reads_match (vpc : String) : Reads (" match ip address prefix-list PL-" ++ slug vpc)
    ["match", "ip", "address", "prefix-list", "PL-" ++ slug vpc] := by
  have hlit : " match ip address prefix-list PL-".toList =
      ' ' :: ("match".toList ++ ' ' :: ("ip".toList ++ ' ' :: ("address".toList ++
        ' ' :: ("prefix-list".toList ++ ' ' :: "PL-".toList)))) := by decide
  refine reads_of_isWord (k := 1) (cons_ne_nil _ _) ?_ (by simp [hlit, List.intercalate])
  simp only [forall_mem_cons]
  exact ⟨by decide, by decide, by decide, by decide, isWord_list vpc, by simp⟩

theorem reads_set (h : Readable a net hop) : Reads (" set ip next-hop " ++ a.nextHop)
    ["set", "ip", "next-hop", a.nextHop] := by
  have hlit : " set ip next-hop ".toList =
      ' ' :: ("set".toList ++ ' ' :: ("ip".toList ++ ' ' :: ("next-hop".toList ++ [' ']))) := by
    decide
  refine reads_of_isWord (k := 1) (cons_ne_nil _ _) ?_ (by simp [hlit, List.intercalate])
  simp only [forall_mem_cons]
  exact ⟨by decide, by decide, by decide, isWord_of_readAddress h.nextHop, by simp⟩

theorem reads_remote (h : IsWord peer) (remoteASN : Int) :
    Reads (" neighbor " ++ peer ++ " remote-as " ++ toString remoteASN)
      ["neighbor", peer, "remote-as", toString remoteASN] := by
  have hfirst : " neighbor ".toList = ' ' :: ("neighbor".toList ++ [' ']) := by decide
  have hsecond : " remote-as ".toList = ' ' :: ("remote-as".toList ++ [' ']) := by decide
  refine reads_of_isWord (k := 1) (cons_ne_nil _ _) ?_ (by simp [hfirst, hsecond, List.intercalate])
  simp only [forall_mem_cons]
  exact ⟨by decide, h, by decide, isWord_int remoteASN, by simp⟩

theorem reads_timers (h : IsWord peer) : Reads (" neighbor " ++ peer ++ " timers 10 30")
    ["neighbor", peer, "timers", "10", "30"] := by
  have hfirst : " neighbor ".toList = ' ' :: ("neighbor".toList ++ [' ']) := by decide
  have hsecond : " timers 10 30".toList =
      ' ' :: ("timers".toList ++ ' ' :: ("10".toList ++ ' ' :: "30".toList)) := by decide
  refine reads_of_isWord (k := 1) (cons_ne_nil _ _) ?_ (by simp [hfirst, hsecond, List.intercalate])
  simp only [forall_mem_cons]
  exact ⟨by decide, h, by decide, by decide, by decide, by simp⟩

theorem reads_out (h : IsWord peer) : Reads ("  neighbor " ++ peer ++ " route-map B3-NH out")
    ["neighbor", peer, "route-map", "B3-NH", "out"] := by
  have hfirst : "  neighbor ".toList = ' ' :: ' ' :: ("neighbor".toList ++ [' ']) := by
    decide
  have hsecond : " route-map B3-NH out".toList =
      ' ' :: ("route-map".toList ++ ' ' :: ("B3-NH".toList ++ ' ' :: "out".toList)) := by
    decide
  refine reads_of_isWord (k := 2) (cons_ne_nil _ _) ?_ (by simp [hfirst, hsecond, List.intercalate])
  simp only [forall_mem_cons]
  exact ⟨by decide, h, by decide, by decide, by decide, by simp⟩

theorem reads_router (asn : Int) : Reads ("router bgp " ++ toString asn)
    ["router", "bgp", toString asn] := by
  have hlit : "router bgp ".toList = "router".toList ++ ' ' :: ("bgp".toList ++ [' ']) := by
    decide
  refine reads_of_isWord (k := 0) (cons_ne_nil _ _) ?_ (by simp [hlit, List.intercalate])
  simp only [forall_mem_cons]
  exact ⟨by decide, by decide, isWord_int asn, by simp⟩

end Lines

section Reading

variable {net : Announcement → Block 32} {hop : Announcement → BitVec 32}
variable {l : List Announcement} {peer : String}

/-- The name of the list of an announcement. -/
def listName (a : Announcement) : String := "PL-" ++ slug a.vpc

/-- The entry of its branch. -/
def entryOf (hop : Announcement → BitVec 32) (numbered : Announcement × Nat) : Nat × Entry :=
  ((numbered.2 + 1) * 10, ⟨true, some (listName numbered.1), some (hop numbered.1)⟩)

theorem readLines_header (hpeer : IsWord peer) (asn remoteASN : Int) :
    readLines ({}, .top) (header peer asn remoteASN) =
      ({ requiresPolicy := false, importCheck := false, neighbors := [peer] }, .family) := by
  have hpolicy : words " no bgp ebgp-requires-policy" = ["no", "bgp", "ebgp-requires-policy"] := by
    decide
  have hcheck : words " no bgp network import-check" =
      ["no", "bgp", "network", "import-check"] := by
    decide
  have hfamily : words " address-family ipv4 unicast" = ["address-family", "ipv4", "unicast"] := by
    decide
  simp only [header, readLines_cons, readLines_nil, (reads_router asn).words, hpolicy, hcheck,
    (reads_remote hpeer remoteASN).words, (reads_timers hpeer).words, hfamily]
  rfl

theorem readLines_network (hl : ∀ a ∈ l, Readable a (net a) (hop a)) (config : Config) :
    readLines (config, .family) (l.map network) =
      ({ config with networks := config.networks ++ l.map net }, .family) := by
  induction l generalizing config with
  | nil => simp
  | cons a l ih =>
    rw [forall_mem_cons] at hl
    have hread : readWords (config, .family) ["network", a.cidr] =
        ({ config with networks := config.networks ++ (readNetwork a.cidr).toList },
          .family) := rfl
    rw [map_cons, readLines_cons, (reads_network hl.1).words, hread, ih hl.2,
      hl.1.network, map_cons]
    simp

/-- A list has no more than the number that all announcements have. -/
def OneEach (lists : AList fun _ : String => List (Nat × Bool × Block 32)) : Prop :=
  ∀ name entries, lists.lookup name = some entries → ∃ x, entries = [(5, x)]

theorem readLines_prefixList (hl : ∀ a ∈ l, Readable a (net a) (hop a)) (config : Config)
    (hone : OneEach config.prefixLists) (context : Context) :
    readLines (config, context) (l.map prefixList) =
      ({ config with
        prefixLists := l.foldl (fun lists a => lists.insert (listName a) [(5, true, net a)])
          config.prefixLists }, if l = [] then context else .top) := by
  induction l generalizing config context with
  | nil => rfl
  | cons a l ih =>
    rw [forall_mem_cons] at hl
    have hplace : place 5 (true, net a)
        ((config.prefixLists.lookup (listName a)).getD []) = [(5, true, net a)] := by
      cases hlookup : config.prefixLists.lookup (listName a) with
      | none => rfl
      | some entries =>
        obtain ⟨x, rfl⟩ := hone _ _ hlookup
        rfl
    have hread : readWords (config, context)
        ["ip", "prefix-list", listName a, "seq", "5", "permit", a.cidr] =
        ({ config with
          prefixLists := config.prefixLists.insert (listName a) [(5, true, net a)] }, .top) := by
      rw [readWords_prefixList (by decide : readNumber "5" = some 5) hl.1.network, hplace]
    have hone' : OneEach (config.prefixLists.insert (listName a) [(5, true, net a)]) := by
      intro name entries hlookup
      by_cases hsame : name = listName a
      · rw [hsame, lookup_insert] at hlookup
        exact ⟨_, (some.inj hlookup).symm⟩
      · rw [lookup_insert_ne hsame] at hlookup
        exact hone name entries hlookup
    have hwords : words (prefixList a) =
        ["ip", "prefix-list", listName a, "seq", "5", "permit", a.cidr] :=
      (reads_prefixList hl.1).words
    rw [map_cons, readLines_cons, hwords, hread, ih hl.2 _ hone']
    simp

variable {a : Announcement}

theorem readLines_branch (ha : Readable a (net a) (hop a)) {i : Nat} (config : Config)
    (context : Context)
    (hlt : ∀ entry ∈ (config.routeMaps.lookup "B3-NH").getD [], entry.1 < (i + 1) * 10) :
    readLines (config, context) (branch a i) =
      ({ config with
        routeMaps := config.routeMaps.insert "B3-NH"
          ((config.routeMaps.lookup "B3-NH").getD [] ++ [entryOf hop (a, i)]) },
        .routeMap "B3-NH" ((i + 1) * 10)) := by
  have hany : ((config.routeMaps.lookup "B3-NH").getD []).any (·.1 = (i + 1) * 10) = false := by
    rw [any_eq_false]
    intro entry hentry
    simpa using Nat.ne_of_lt (hlt entry hentry)
  have henter : readWords (config, context)
      ["route-map", "B3-NH", "permit", toString ((i + 1) * 10)] =
      ({ config with
        routeMaps := config.routeMaps.insert "B3-NH"
          ((config.routeMaps.lookup "B3-NH").getD [] ++ [((i + 1) * 10, ⟨true, none, none⟩)]) },
        .routeMap "B3-NH" ((i + 1) * 10)) := by
    rw [readWords_routeMap (readNumber_toString _), hany, place_of_forall_lt hlt]
    rfl
  have hmatch (config : Config) (name : String) (n : Nat) (list : String) :
      readWords (config, .routeMap name n) ["match", "ip", "address", "prefix-list", list] =
        (config.amendEntry (.routeMap name n) ({ · with matchList := some list }),
          .routeMap name n) := rfl
  have hset (config : Config) (name : String) (n : Nat) (hop : String) :
      readWords (config, .routeMap name n) ["set", "ip", "next-hop", hop] =
        (config.amendEntry (.routeMap name n) ({ · with nextHop := readAddress hop }),
          .routeMap name n) := rfl
  simp only [branch, readLines_cons, readLines_nil, (reads_routeMap _).words,
    (reads_match a.vpc).words, (reads_set ha).words, henter, hmatch, hset, Config.amendEntry,
    lookup_insert, getD_some, insert_insert, amend_append_of_forall_lt hlt,
    ha.nextHop]
  rfl

theorem readLines_branches (hl : ∀ a ∈ l, Readable a (net a) (hop a)) (k : Nat) (config : Config)
    (context : Context)
    (hlt : ∀ entry ∈ (config.routeMaps.lookup "B3-NH").getD [], entry.1 < (k + 1) * 10) :
    ∃ maps context',
      readLines (config, context) ((l.zipIdx k).flatMap fun (a, i) => branch a i) =
          ({ config with routeMaps := maps }, context') ∧
        (maps.lookup "B3-NH").getD [] =
          (config.routeMaps.lookup "B3-NH").getD [] ++ (l.zipIdx k).map (entryOf hop) := by
  induction l generalizing k config context with
  | nil => exact ⟨config.routeMaps, context, rfl, by simp⟩
  | cons a l ih =>
    rw [forall_mem_cons] at hl
    rw [zipIdx_cons, flatMap_cons, readLines_append, readLines_branch hl.1 config context hlt]
    obtain ⟨maps, context', hread, hentries⟩ := ih hl.2 (k + 1) { config with
        routeMaps := config.routeMaps.insert "B3-NH"
          ((config.routeMaps.lookup "B3-NH").getD [] ++ [entryOf hop (a, k)]) }
      (.routeMap "B3-NH" ((k + 1) * 10)) (by
        intro entry hentry
        rw [lookup_insert, getD_some, mem_append, mem_singleton] at hentry
        obtain hentry | rfl := hentry
        · have hbefore := hlt entry hentry
          omega
        · simp only [entryOf]
          omega)
    refine ⟨maps, context', hread, ?_⟩
    rw [hentries, lookup_insert, getD_some, map_cons, append_assoc]
    rfl

theorem not_mem_renderLines (hl : ∀ a ∈ ordered announcements, Readable a (net a) (hop a))
    (hpeer : IsWord peer) {asn remoteASN : Int} {line : String}
    (hline : line ∈ renderLines announcements peer asn remoteASN) : '\n' ∉ line.toList := by
  simp only [renderLines, mem_append, mem_map, mem_flatMap] at hline
  obtain (((((hline | ⟨a, ha, rfl⟩) | hline) | hline) | ⟨a, ha, rfl⟩) | hline) |
      ⟨⟨a, i⟩, ha, hline⟩ :=
    hline
  · simp only [header, mem_cons, not_mem_nil, or_false] at hline
    obtain rfl | rfl | rfl | rfl | rfl | rfl := hline
    · exact (reads_router asn).single
    · decide
    · decide
    · exact (reads_remote hpeer remoteASN).single
    · exact (reads_timers hpeer).single
    · decide
  · exact (reads_network (hl a ha)).single
  · split at hline
    · rw [mem_singleton] at hline
      rw [hline]
      exact (reads_out hpeer).single
    · contradiction
  · revert line
    decide
  · exact (reads_prefixList (hl a ha)).single
  · revert line
    decide
  · have ha := hl a (fst_mem_of_mem_zipIdx ha)
    simp only [branch, mem_cons, not_mem_nil, or_false] at hline
    obtain rfl | rfl | rfl := hline
    · exact (reads_routeMap _).single
    · exact (reads_match a.vpc).single
    · exact (reads_set ha).single

theorem exists_readConfig (hl : ∀ a ∈ ordered announcements, Readable a (net a) (hop a))
    (hpeer : IsWord peer) (asn remoteASN : Int) :
    ∃ maps, readConfig (renderRawConfig announcements peer asn remoteASN) =
        { requiresPolicy := false
          importCheck := false
          neighbors := [peer]
          networks := (ordered announcements).map net
          out := if ordered announcements ≠ [] then AList.insert peer "B3-NH" ∅ else ∅
          prefixLists := (ordered announcements).foldl
            (fun lists a => lists.insert (listName a) [(5, true, net a)]) ∅
          routeMaps := maps } ∧
      (maps.lookup "B3-NH").getD [] = (ordered announcements).zipIdx.map (entryOf hop) := by
  have hsingle : ∀ line ∈ renderLines announcements peer asn remoteASN, '\n' ∉ line.toList :=
    fun _ => not_mem_renderLines hl hpeer
  have hmap : words "!" = ["!"] := by decide
  have hexit : words " exit-address-family" = ["exit-address-family"] := by decide
  rw [renderRawConfig, readConfig_eq (by simp [renderLines, header]) hsingle]
  obtain ⟨maps, context, hread, hentries⟩ := readLines_branches hl 0
    { requiresPolicy := false
      importCheck := false
      neighbors := [peer]
      networks := (ordered announcements).map net
      out := if ordered announcements ≠ [] then AList.insert peer "B3-NH" ∅ else ∅
      prefixLists := (ordered announcements).foldl
        (fun lists a => lists.insert (listName a) [(5, true, net a)]) ∅ }
    (if ordered announcements = [] then .bgp else .top) (by simp)
  refine ⟨maps, ?_, by simpa using hentries⟩
  -- the statement that lets the route map out
  have hout (config : Config) (hempty : config.out = ∅) : readLines (config, .family)
          (if ordered announcements ≠ [] then ["  neighbor " ++ peer ++ " route-map B3-NH out"]
            else []) =
        ({ config with
          out := if ordered announcements ≠ [] then AList.insert peer "B3-NH" ∅ else ∅ },
          .family) := by
    split
    · rw [readLines_cons, (reads_out hpeer).words, readLines_nil, ← hempty]
      rfl
    · rw [readLines_nil, ← hempty]
  have hend (config : Config) : readLines (config, .family) [" exit-address-family", "!"] =
      (config, .bgp) := by
    simp only [readLines_cons, readLines_nil, hexit, hmap]
    rfl
  have hbang (config : Config) (context : Context) : readLines (config, context) ["!"] =
      (config, context) := by
    simp only [readLines_cons, readLines_nil, hmap]
    rfl
  have hone : OneEach ∅ := fun name entries h => absurd h (by simp)
  have hlists (config : Config) (hempty : config.prefixLists = ∅) (context : Context) :=
    readLines_prefixList hl config (by rw [hempty]; exact hone) context
  rw [renderLines]
  simp only [readLines_append, readLines_header hpeer, readLines_network hl]
  rw [hout _ rfl, hend, hlists _ rfl, hbang]
  exact congrArg Prod.fst hread

/-- The last announcement whose list has this name: its prefix is the one that the list keeps. -/
def lastNamed (l : List Announcement) (name : String) : Option Announcement :=
  (l.filter (listName · = name)).getLast?

theorem permits_eq {config : Config} (hlists : config.prefixLists =
      l.foldl (fun lists a => lists.insert (listName a) [(5, true, net a)]) ∅)
    (name : String) (p : Block 32) :
    config.permits name p = (lastNamed l name).any (net · = p) := by
  rw [Config.permits, hlists, Keyed.lookup_foldl_insert, lookup_empty, or_none,
    ← lastNamed]
  cases lastNamed l name with
  | none => rfl
  | some last =>
    by_cases hp : net last = p
    · simp [hp]
    · simp [hp]

/-- The first branch whose list has kept the prefix sets the next hop. -/
theorem advertised_eq (hl : ∀ a ∈ ordered announcements, Readable a (net a) (hop a))
    (hpeer : IsWord peer) (asn remoteASN : Int) (p : Block 32) :
    (readConfig (renderRawConfig announcements peer asn remoteASN)).advertised peer p =
      if p ∈ (ordered announcements).map net then
        ((ordered announcements).find? fun a =>
          (lastNamed (ordered announcements) (listName a)).any (net · = p)).map hop
      else none := by
  obtain ⟨maps, hread, hentries⟩ := exists_readConfig hl hpeer asn remoteASN
  generalize readConfig (renderRawConfig announcements peer asn remoteASN) = config at hread ⊢
  have hlists : config.prefixLists = (ordered announcements).foldl
      (fun lists a => lists.insert (listName a) [(5, true, net a)]) ∅ := by rw [hread]
  have hpermits := permits_eq hlists
  by_cases hp : p ∈ (ordered announcements).map net
  · have hne : ordered announcements ≠ [] := by
      rintro hempty
      rw [hempty] at hp
      contradiction
    have hout : config.out.lookup peer = some "B3-NH" := by
      rw [hread]
      dsimp only
      rw [if_pos hne, lookup_insert]
    have hmaps : (config.routeMaps.lookup "B3-NH").getD [] =
        (ordered announcements).zipIdx.map (entryOf hop) := by rw [hread, hentries]
    have hfind := List.find?_map (p := fun a =>
      (lastNamed (ordered announcements) (listName a)).any (net · = p)) (f := Prod.fst)
      (l := (ordered announcements).zipIdx)
    rw [zipIdx_map_fst] at hfind
    rw [Config.advertised, if_pos (by rw [hread]; exact ⟨mem_singleton_self _, hp, rfl⟩),
      hout, if_pos hp, hfind]
    simp only [hmaps, List.find?_map, Function.comp_def, Entry.accepts, entryOf, all_some,
      hpermits]
    cases (ordered announcements).zipIdx.find? fun x =>
        (lastNamed (ordered announcements) (listName x.1)).any (net · = p) with
    | none => rfl
    | some x => rfl
  · rw [Config.advertised, if_neg (fun hall => hp (by rw [hread] at hall; exact hall.2.1)),
      if_neg hp]

theorem mem_of_lastNamed {name : String} (h : lastNamed l name = some a) :
    a ∈ l ∧ listName a = name := by
  have hmem := mem_of_getLast? h
  rw [mem_filter, decide_eq_true_eq] at hmem
  exact hmem

theorem lastNamed_of_nodup (h : (l.map listName).Nodup) (ha : a ∈ l) :
    lastNamed l (listName a) = some a := by
  cases hlast : lastNamed l (listName a) with
  | none =>
    rw [lastNamed, List.getLast?_eq_none_iff] at hlast
    have hmem : a ∈ l.filter (listName · = listName a) := mem_filter.mpr ⟨ha, by simp⟩
    rw [hlast] at hmem
    contradiction
  | some b =>
    obtain ⟨hb, hname⟩ := mem_of_lastNamed hlast
    rw [inj_on_of_nodup_map h hb ha hname]

theorem advertised_iff_nodup (hl : ∀ a ∈ ordered announcements, Readable a (net a) (hop a))
    (hdistinct : ((ordered announcements).map net).Nodup) (hpeer : IsWord peer)
    (asn remoteASN : Int) :
    (∀ p h, (readConfig (renderRawConfig announcements peer asn remoteASN)).advertised peer p =
        some h ↔ ∃ a ∈ ordered announcements, net a = p ∧ hop a = h) ↔
      ((ordered announcements).map listName).Nodup := by
  simp only [advertised_eq hl hpeer]
  generalize ordered announcements = l at *
  have hinj {a b : Announcement} (ha : a ∈ l) (hb : b ∈ l) (hnet : net a = net b) : a = b :=
    inj_on_of_nodup_map hdistinct ha hb hnet
  constructor
  · intro hall
    -- the prefix of each is kept by some list, which can only be its own
    have hlast : ∀ a ∈ l, lastNamed l (listName a) = some a := by
      intro a ha
      have hadv := (hall (net a) (hop a)).mpr ⟨a, ha, rfl, rfl⟩
      rw [if_pos (mem_map_of_mem ha), map_eq_some_iff] at hadv
      obtain ⟨b, hb, -⟩ := hadv
      have hkept := List.find?_some hb
      obtain ⟨c, hc, hnet⟩ := (any_eq_true _ _).mp hkept
      obtain ⟨hmem, hname⟩ := mem_of_lastNamed hc
      obtain rfl := hinj hmem ha (of_decide_eq_true hnet)
      rw [hname, hc]
    refine (nodup_map_iff_inj_on hdistinct.of_map).mpr fun a ha b hb hname => ?_
    have ha' := hlast a ha
    rw [hname, hlast b hb] at ha'
    exact (some.inj ha').symm
  · intro hnodup p h
    have hown : (l.find? fun a => (lastNamed l (listName a)).any (net · = p)) =
        l.find? (net · = p) := by
      refine List.find?_congr fun a ha => ?_
      rw [lastNamed_of_nodup hnodup ha, any_some]
    rw [hown]
    constructor
    · intro hadv
      split at hadv
      · obtain ⟨a, ha, hhop⟩ := map_eq_some_iff.mp hadv
        have hp := List.find?_some ha
        exact ⟨a, mem_of_find?_eq_some ha, of_decide_eq_true hp, hhop⟩
      · contradiction
    · rintro ⟨a, ha, rfl, rfl⟩
      rw [if_pos (mem_map_of_mem ha)]
      obtain ⟨b, hb⟩ : ∃ b, l.find? (net · = net a) = some b :=
        isSome_iff_exists.mp (List.find?_isSome.mpr ⟨a, ha, by simp⟩)
      have hp := List.find?_some hb
      rw [hb, map_some, hinj (mem_of_find?_eq_some hb) ha (of_decide_eq_true hp)]

end Reading

/-- Each prefix, and no other, is advertised with its own next hop, if and only if no two of the
VPCs' names become the same name of a list. -/
theorem renderRawConfig_advertises_iff {announcements : List Announcement} {peer : String}
    (hread : ∀ a ∈ announcements, ∃ net hop, Readable a net hop)
    (hdistinct : (announcements.map fun a => readNetwork a.cidr).Nodup) (hpeer : IsWord peer)
    (asn remoteASN : Int) :
    (∀ p hop, (readConfig (renderRawConfig announcements peer asn remoteASN)).advertised peer p =
        some hop ↔
      ∃ a ∈ announcements, readNetwork a.cidr = some p ∧ readAddress a.nextHop = some hop) ↔
      (announcements.map fun a => slug a.vpc).Nodup := by
  have hperm : (ordered announcements).Perm announcements := perm_insertionSort _ _
  let net (a : Announcement) : Block 32 := (readNetwork a.cidr).getD ⟨0, 0, Nat.zero_le _⟩
  let hop (a : Announcement) : BitVec 32 := (readAddress a.nextHop).getD 0
  have hvalues : ∀ a ∈ announcements,
      readNetwork a.cidr = some (net a) ∧ readAddress a.nextHop = some (hop a) := by
    intro a ha
    obtain ⟨n, h, ⟨hnetwork, hnextHop⟩⟩ := hread a ha
    simp [net, hop, hnetwork, hnextHop]
  have hl : ∀ a ∈ ordered announcements, Readable a (net a) (hop a) := fun a ha =>
    ⟨(hvalues a (hperm.mem_iff.mp ha)).1, (hvalues a (hperm.mem_iff.mp ha)).2⟩
  have hnodup : ((ordered announcements).map net).Nodup := by
    rw [(hperm.map net).nodup_iff]
    refine List.Nodup.of_map some ?_
    rw [map_map]
    exact map_congr_left (fun a ha => (hvalues a ha).1) ▸ hdistinct
  have hnames : ((ordered announcements).map listName).Nodup ↔
      (announcements.map fun a => slug a.vpc).Nodup := by
    rw [(hperm.map listName).nodup_iff]
    have hinj : Function.Injective fun s : String => "PL-" ++ s := fun s t h => by simpa using h
    rw [← nodup_map_iff (l := announcements.map fun a => slug a.vpc) hinj, map_map]
    rfl
  rw [← hnames, ← advertised_iff_nodup hl hnodup hpeer asn remoteASN]
  refine forall_congr' fun p => forall_congr' fun h => iff_congr Iff.rfl ?_
  constructor
  · rintro ⟨a, ha, hnet, hhop⟩
    rw [(hvalues a ha).1] at hnet
    rw [(hvalues a ha).2] at hhop
    exact ⟨a, hperm.mem_iff.mpr ha, some.inj hnet, some.inj hhop⟩
  · rintro ⟨a, ha, rfl, rfl⟩
    exact ⟨a, hperm.mem_iff.mp ha, hvalues a (hperm.mem_iff.mp ha)⟩

/-- Two tenants with a subnet each. -/
theorem renderRawConfig_advertises_iff_two : (∀ p hop, (readConfig (renderRawConfig
        [⟨"vpc-acme", "10.1.0.0/24", "172.18.0.10"⟩, ⟨"vpc-globex", "10.2.0.0/24", "172.18.0.11"⟩]
        "172.18.0.1" 65010 65000)).advertised "172.18.0.1" p = some hop ↔
      ∃ a ∈ [(⟨"vpc-acme", "10.1.0.0/24", "172.18.0.10"⟩ : Announcement),
          ⟨"vpc-globex", "10.2.0.0/24", "172.18.0.11"⟩],
        readNetwork a.cidr = some p ∧ readAddress a.nextHop = some hop) ↔
      (["VPC-ACME", "VPC-GLOBEX"] : List String).Nodup := by
  have hread : ∀ a ∈ [(⟨"vpc-acme", "10.1.0.0/24", "172.18.0.10"⟩ : Announcement),
      ⟨"vpc-globex", "10.2.0.0/24", "172.18.0.11"⟩], ∃ net hop, Readable a net hop := by
    simp only [forall_mem_cons]
    exact ⟨⟨⟨0x0A010000#32, 24, by decide⟩, 0xAC12000A#32, by decide +kernel, by decide +kernel⟩,
      ⟨⟨0x0A020000#32, 24, by decide⟩, 0xAC12000B#32, by decide +kernel, by decide +kernel⟩,
      by simp⟩
  have hslug : slug "vpc-acme" = "VPC-ACME" ∧ slug "vpc-globex" = "VPC-GLOBEX" := by decide
  have hpeer : IsWord "172.18.0.1" := by decide
  have hiff := renderRawConfig_advertises_iff hread (by decide +kernel) hpeer 65010 65000
  rw [map_cons, map_cons, map_nil, hslug.1, hslug.2] at hiff
  exact hiff

/-- The first of two subnets of one tenant is not announced. -/
theorem not_renderRawConfig_advertises :
    ¬ ∀ (announcements : List Announcement) (peer : String) (asn remoteASN : Int),
      (∀ a ∈ announcements, ∃ net hop, Readable a net hop) →
      (announcements.map fun a => readNetwork a.cidr).Nodup → IsWord peer →
      ∀ p hop, (readConfig (renderRawConfig announcements peer asn remoteASN)).advertised peer p =
          some hop ↔
        ∃ a ∈ announcements, readNetwork a.cidr = some p ∧ readAddress a.nextHop = some hop := by
  intro hall
  let subnets : List Announcement :=
    [⟨"vpc-acme", "10.1.0.0/24", "172.18.0.10"⟩, ⟨"vpc-acme", "10.2.0.0/24", "172.18.0.10"⟩]
  let first : Block 32 := ⟨0x0A010000#32, 24, by decide⟩
  let net (a : Announcement) : Block 32 :=
    if a.cidr = "10.1.0.0/24" then first else ⟨0x0A020000#32, 24, by decide⟩
  have hl : ∀ a ∈ subnets, Readable a (net a) 0xAC12000A#32 := by
    simp only [subnets, forall_mem_cons]
    exact ⟨⟨by decide +kernel, by decide +kernel⟩, ⟨by decide +kernel, by decide +kernel⟩, by simp⟩
  have hadv := (hall subnets "172.18.0.1" 65010 65000 (fun a ha => ⟨_, _, hl a ha⟩)
    (by decide +kernel) (by decide) first 0xAC12000A#32).mpr
    ⟨_, mem_cons_self, by decide +kernel, by decide +kernel⟩
  have hordered : ∀ a ∈ ordered subnets, Readable a (net a) 0xAC12000A#32 :=
    fun a ha => hl a ((perm_insertionSort _ _).mem_iff.mp ha)
  rw [advertised_eq hordered (by decide)] at hadv
  revert hadv
  decide +kernel

end Announce
