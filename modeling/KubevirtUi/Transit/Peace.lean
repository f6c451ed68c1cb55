import KubevirtUi.Library.Machine
import KubevirtUi.Transit.Baseline
import KubevirtUi.Transit.Mirror

/-!
# When two writers of one list are at peace

The backend writes the guard too, for the same tenant and on the same list. It counts what an
OvnEip of any kind holds as an address on the plane, it drops an allow whose source it cannot
read, and it adds the deny whoever is still without an allow.

Where the allows of the list are alike to both, and every address on the plane has one or is
beyond help, whichever writes first leaves nothing to the other. Everywhere else they are not
at peace.

A turn of the backend writes what it keeps, the deny if there is none, and the tenant's allows. A
turn of the operator is its pass. What each of them leaves alone is told from the list, and from
this what they leave of each other's.
-/

namespace Transit

open Go Go.Netip Acl List

namespace Backend

section Source

-- The expression is the same, but `\s` and `\b` are about Unicode: what is a letter or a digit
-- there is a parameter.
variable (isalnum : Char → Bool)

def isWord (c : Char) : Bool := isalnum c || c = '_'

/-- The longest part of a run that ends at a word boundary. -/
def toBoundary (next : Option Char) : List Char → List Char
  | [] => []
  | c :: run =>
    if isWord isalnum c ≠ next.any (isWord isalnum) then (c :: run).reverse
    else toBoundary (some c) run

/-- The address of a match that starts here. -/
def sourceAt (s : List Char) : List Char :=
  if "ip4.src".toList.isPrefixOf s then
    let s := (s.drop 7).dropWhile Python.isSpace
    if "==".toList.isPrefixOf s then
      let s := (s.drop 2).dropWhile Python.isSpace
      toBoundary isalnum (s.dropWhile isAddressChar).head? (s.takeWhile isAddressChar).reverse
    else []
  else []

def findSource : List Char → List Char
  | [] => []
  | c :: s =>
    match sourceAt isalnum (c :: s) with
    | [] => findSource s
    | found => found

/-- `_allow_source` -/
def allowSource (matchExpr : String) : Option String :=
  match findSource isalnum matchExpr.toList with
  | [] => none
  | found => some (String.ofList found)

end Source

section Writer

variable (isalnum : Char → Bool) (parse6 strict6 : String → Option (Block 128))
  (format6 : Block 128 → String)

/-- `_live_transit_addresses` -/
def liveTransitAddresses (eips : Option (List OvnEip)) (transitSubnet : String) :
    Option (List String) :=
  eips.map fun items => (items.filter fun item =>
    item.externalSubnet = transitSubnet && item.v4Ip ≠ "").map OvnEip.v4Ip

def keeps (live : List String) (rule : Rule) : Bool :=
  rule.priority ≠ allowPriority || (allowSource isalnum rule.matchExpr).getD "" ∈ live

/-- The change to the list. There is none if it comes to the same, and a CIDR that cannot be read
raises. -/
def mutate (live : Option (List String)) (wanted : List Rule) (cidr : String)
    (excludeIPs : List String) (before : List Rule) : Option (Option (List Rule)) := do
  let acls := match live with
    | none => before
    | some live => before.filter (keeps isalnum live)
  let acls ←
    if cidr ≠ "" ∧ hasDeny acls = false then
      (buildTransitDeny parse6 strict6 format6 cidr excludeIPs).map fun deny => acls ++ [deny]
    else some acls
  let acls := acls ++ wanted.filter (· ∉ acls)
  return if acls = before then none else some acls

/-- The list after `ensure_transit_acls`. -/
def ensureTransitAcls (eips : Option (List OvnEip)) (transitSubnet eip vip : String)
    (ports udpPorts : List Int) (cidr : String) (excludeIPs : List String) (before : List Rule) :
    Option (List Rule) :=
  let wanted := allows eip vip ports udpPorts
  if wanted = [] then some before
  else
    let live := (liveTransitAddresses eips transitSubnet).map (eip :: ·)
    (mutate isalnum parse6 strict6 format6 live wanted cidr excludeIPs before).map (·.getD before)

end Writer

end Backend

inductive Writer where
  | operator
  | backend
  deriving DecidableEq

/-- The ports that the operator opens for the tenant. -/
def tcpPorts (pass : Pass) : List Int :=
  [tenantAPIPort, tenantKonnPort] ++ (if pass.os = "talos" then [tenantTrustdPort] else []) ++
    if pass.hostAPIPublished then [hostAPIPort] else []

section Turns

variable (isalnum : Char → Bool) (parse6 strict6 : String → Option (Block 128))
  (format6 : Block 128 → String) (pass : Pass)

/-- The list after a turn of one of them, for the same tenant with the same ports. -/
def serve (acls : List Rule) : Writer → Option (List Rule)
  | .operator => (ensureTransitACLs pass acls).map Prod.fst
  | .backend =>
    Backend.ensureTransitAcls isalnum parse6 strict6 format6 pass.eips pass.subnetName
      pass.address pass.vip (tcpPorts pass) [ntpPort] pass.transitCIDR pass.excludeIPs acls

/-- Any number of turns in any order. -/
def Alternation (acls acls' : List Rule) : Prop :=
  Machine.Run (serve isalnum parse6 strict6 format6 pass) (fun _ _ => True) acls acls'

/-- What one of them has written the other leaves, nothing that is dropped comes back, and no
address is without an allow where the deny goes in. -/
structure Peace (existing : List Rule) : Prop where
  afterOperator : ∀ acls, serve isalnum parse6 strict6 format6 pass existing .operator = some acls →
    serve isalnum parse6 strict6 format6 pass acls .backend = some acls
  afterBackend : ∀ acls, serve isalnum parse6 strict6 format6 pass existing .backend = some acls →
    serve isalnum parse6 strict6 format6 pass acls .operator = some acls
  dropped : ∀ acls writer less later,
    Alternation isalnum parse6 strict6 format6 pass existing acls →
    serve isalnum parse6 strict6 format6 pass acls writer = some less →
    Alternation isalnum parse6 strict6 format6 pass less later →
    ∀ rule ∈ acls, rule ∉ less → rule ∉ later
  denied : ∀ acls writer more,
    Alternation isalnum parse6 strict6 format6 pass existing acls →
    serve isalnum parse6 strict6 format6 pass acls writer = some more →
    ∀ rule ∈ more, rule ∉ acls → rule.action = "drop" → rule.priority = denyPriority →
    ∀ eips, pass.eips = some eips → ∀ eip ∈ eips, eip.isLive pass.subnetName → Covers more eip.v4Ip

/-- Both keep the same allows of the list, and every address on the plane has one there. One that
has none cannot be helped, and the deny is there already. -/
structure Quiet (live : Live) (held : List String) (existing : List Rule) : Prop where
  sources : ∀ rule ∈ existing, rule.priority = allowPriority →
    ((allowSource rule.matchExpr = "" ∨ allowSource rule.matchExpr ∈ live) ↔
      (Backend.allowSource isalnum rule.matchExpr).getD "" ∈ held)
  permits : ∀ address ∈ live, address ≠ pass.address → ¬Covers existing address →
    hasDeny existing = true ∧ backfill pass live address = none

end Turns

/-- In ASCII there is no other letter or digit. -/
def Ascii (isalnum : Char → Bool) : Prop := ∀ c : Char, c.toNat < 128 → isalnum c = c.isAlphanum

/-- Both can read the subnet. -/
structure Readable (parse6 strict6 : String → Option (Block 128)) (format6 : Block 128 → String)
    (pass : Pass) : Prop where
  cidr : pass.transitCIDR ≠ ""
  operator : ∃ rule, deny pass.transitCIDR pass.excludeIPs = some rule
  backend : ∃ rule, Backend.buildTransitDeny parse6 strict6 format6 pass.transitCIDR
    pass.excludeIPs = some rule

theorem readable_of_entries (parse6 strict6 : String → Option (Block 128))
    (format6 : Block 128 → String) {pass : Pass} {p : Block 32} {entries : List Entry}
    (hcidr : pass.transitCIDR = prefixString (.v4 p))
    (hexcluded : pass.excludeIPs = entries.map Entry.text) :
    Readable parse6 strict6 format6 pass := by
  have hparse := parsePrefix_prefixString (.v4 p)
  obtain ⟨read, bs, hread, -, hreserved, hbs⟩ := @Backend.exists_blocks parse6 strict6 entries
  have hoperator := allocatableRanges_eq hparse hread
  have hbackend := @Backend.allocatableRanges_eq_leftover parse6 strict6 format6 p bs entries hbs
    hreserved
  have hnetwork : Python.Ipaddress.ipNetwork parse6 (prefixString (.v4 p)) =
      some (.v4 p.masked) := Python.Ipaddress.ipNetwork_networkStr parse6 p
  refine ⟨?_, ?_, ?_⟩
  · rw [hcidr]
    exact ne_empty_of_parsePrefix hparse
  · rw [hcidr, hexcluded]
    exact ⟨_, deny_eq hparse hoperator⟩
  · rw [hcidr, hexcluded, Backend.buildTransitDeny, hbackend, hnetwork]
    exact ⟨_, rfl⟩

variable {c : Char} {eip : String} {writer : Writer}

variable {isalnum : Char → Bool} {parse6 strict6 : String → Option (Block 128)}
  {format6 : Block 128 → String} {pass : Pass} {live : Live} {held : List String}
  {existing acls : List Rule}

namespace Backend

section Source

theorem isWord_of_isDigit (h : Ascii isalnum) (hc : c.isDigit = true) :
    isWord isalnum c = true := by
  have hlt : c.toNat < 128 := by
    obtain ⟨d, hd, rfl, -⟩ := exists_digitChar_of_isDigit hc
    have hall : ∀ d ∈ List.range 10, d.digitChar.toNat < 128 := by decide
    exact hall d (mem_range.mpr hd)
  simp [isWord, h c hlt, Char.isAlphanum, hc]

theorem isSpace_of_isAddressChar (h : isAddressChar c = true) : Python.isSpace c = false := by
  apply isSpace_of_isEntryChar
  simp only [isAddressChar, Bool.or_eq_true] at h
  simp only [isEntryChar, Bool.or_eq_true]
  exact .inl h

theorem toBoundary_eq {next : Option Char} {run : List Char} (hc : isWord isalnum c = true)
    (hnext : next.any (isWord isalnum) = false) :
    toBoundary isalnum next (c :: run) = (c :: run).reverse := by
  rw [toBoundary, if_pos (by rw [hc, hnext]; decide)]

theorem sourceAt_address (h : Ascii isalnum) {addr rest : List Char}
    (haddr : ∀ c ∈ addr, isAddressChar c) (hne : addr ≠ [])
    (hlast : (addr.getLast hne).isDigit = true) :
    sourceAt isalnum ("ip4.src == ".toList ++ (addr ++ ' ' :: rest)) = addr := by
  obtain ⟨hpre, hfield, hequal⟩ := toList_sourceField
  obtain ⟨hsecond, htake, hdrop, last, run, hreverse, hdigit⟩ :=
    @address_between Python.isSpace addr rest (by decide) (fun c => isSpace_of_isAddressChar) haddr
      hne hlast
  have hfirst (s : List Char) : (' ' :: '=' :: s).dropWhile Python.isSpace = '=' :: s := by
    rw [dropWhile_cons_of_pos (by decide), dropWhile_cons_of_neg (by decide)]
  have hnext : (' ' :: rest).head?.any (isWord isalnum) = false := by
    have hword : isWord isalnum ' ' = false := by
      rw [isWord, h ' ' (by decide)]
      decide
    simp [hword]
  simp only [sourceAt, hpre, hfield, hequal, cons_append, nil_append,
    isPrefixOf_cons_cons_self, isPrefixOf_nil_left, if_true, drop_succ_cons,
    drop_zero, hfirst]
  rw [hsecond, htake, hdrop, hreverse, toBoundary_eq (isWord_of_isDigit h hdigit) hnext,
    ← hreverse, reverse_reverse]

theorem allowSource_allow (h : Ascii isalnum) (heip : IsIPv4 eip) (vip proto : String)
    (port : Int) : allowSource isalnum (allow eip vip proto port).matchExpr = some eip := by
  have haddr := isAddressChar_of_isIPv4 heip
  obtain ⟨a, ha⟩ := heip
  obtain ⟨n, hn, -⟩ := parseIPv4_of_parseAddr ha
  have hne : eip.toList ≠ [] := by
    intro hnil
    simp [hnil, parseAddr] at ha
  obtain ⟨c, more, hcons⟩ := exists_cons_of_ne_nil hne
  have hsource (rest : List Char) :
      findSource isalnum ("ip4.src == ".toList ++ (eip.toList ++ ' ' :: rest)) = eip.toList := by
    have hpre : "ip4.src == ".toList = 'i' :: "p4.src == ".toList := by decide
    have hat := @sourceAt_address isalnum h eip.toList rest haddr hne
      (isDigit_getLast_of_parseIPv4Fields hn hne)
    rw [hpre, cons_append] at hat ⊢
    rw [findSource, hat, hcons]
  rw [allowSource, matchExpr_allow, toList_source, hsource, hcons]
  dsimp only
  rw [← hcons, String.ofList_toList]

theorem allowSource_of_mem_allows (h : Ascii isalnum) {vip : String} {tcp udp : List Int}
    {rule : Rule} (heip : IsIPv4 eip) (hrule : rule ∈ allows eip vip tcp udp) :
    allowSource isalnum rule.matchExpr = some eip := by
  obtain ⟨port, -, -, rfl⟩ | ⟨port, -, -, rfl⟩ := mem_allows.mp hrule
  · exact allowSource_allow h heip vip "tcp" port
  · exact allowSource_allow h heip vip "udp" port

end Source

theorem of_buildTransitDeny {cidr : String} {excludeIPs : List String} {rule : Rule}
    (h : buildTransitDeny parse6 strict6 format6 cidr excludeIPs = some rule) :
    rule.action = "drop" ∧ rule.priority = denyPriority := by
  obtain ⟨network, -, h⟩ := Option.bind_eq_some_iff.mp h
  obtain ⟨ranges, -, h⟩ := Option.bind_eq_some_iff.mp h
  cases h
  exact ⟨rfl, rfl⟩

section Written

variable (isalnum : Char → Bool) (held : List String) (baseline : Rule) (wanted before : List Rule)

/-- What is kept, with a deny. -/
def guarded : List Rule :=
  if hasDeny (before.filter (keeps isalnum held)) = false then
    before.filter (keeps isalnum held) ++ [baseline]
  else before.filter (keeps isalnum held)

/-- With the tenant's own allows. -/
def written : List Rule :=
  guarded isalnum held baseline before ++
    wanted.filter (· ∉ guarded isalnum held baseline before)

variable {isalnum held baseline wanted before} {rule : Rule}

theorem keeps_of_deny (h : rule.priority = denyPriority) : keeps isalnum held rule = true := by
  have hother : denyPriority ≠ allowPriority := by decide
  simp [keeps, h, hother]

theorem hasDeny_filter_keeps : hasDeny (before.filter (keeps isalnum held)) = hasDeny before := by
  rw [hasDeny, any_filter, hasDeny]
  congr 1
  funext rule
  rw [Bool.and_eq_right_iff_imp]
  intro h
  rw [Bool.and_eq_true, decide_eq_true_iff, decide_eq_true_iff] at h
  exact keeps_of_deny h.2

theorem mem_written : rule ∈ written isalnum held baseline wanted before ↔
    (rule ∈ before ∧ keeps isalnum held rule = true) ∨
      (hasDeny before = false ∧ rule = baseline) ∨ rule ∈ wanted := by
  have hguarded : rule ∈ guarded isalnum held baseline before ↔
      (rule ∈ before ∧ keeps isalnum held rule = true) ∨
        (hasDeny before = false ∧ rule = baseline) := by
    rw [guarded, hasDeny_filter_keeps]
    split
    · next hnone => rw [mem_append, mem_filter, mem_singleton]; simp [hnone]
    · next hsome => rw [mem_filter]; simp [hsome]
  rw [written, mem_append, mem_filter, ← or_assoc, ← hguarded, decide_eq_true_iff]
  tauto

/-- It leaves alone what it would keep, where the deny and the tenant's allows are there. -/
theorem written_eq_self_iff (hdeny : baseline.action = "drop" ∧ baseline.priority = denyPriority)
    (hwanted : ∀ rule ∈ wanted, keeps isalnum held rule = true) :
    written isalnum held baseline wanted before = before ↔
      (∀ rule ∈ before, keeps isalnum held rule = true) ∧ hasDeny before = true ∧
        ∀ rule ∈ wanted, rule ∈ before := by
  constructor
  · intro heq
    have hmem (rule : Rule) : rule ∈ before ↔ _ := heq ▸ @mem_written isalnum held baseline wanted
      before rule
    refine ⟨fun rule hrule => ?_, ?_, fun rule hrule => (hmem rule).mpr (.inr (.inr hrule))⟩
    · obtain ⟨-, hkeeps⟩ | ⟨-, rfl⟩ | hown := (hmem rule).mp hrule
      · exact hkeeps
      · exact keeps_of_deny hdeny.2
      · exact hwanted rule hown
    · by_contra hnone
      rw [Bool.not_eq_true] at hnone
      have hbaseline := (hmem baseline).mpr (.inr (.inl ⟨hnone, rfl⟩))
      rw [hasDeny_of_mem hbaseline hdeny.1 hdeny.2] at hnone
      contradiction
  · rintro ⟨hkeeps, hhas, hown⟩
    have hfilter : before.filter (keeps isalnum held) = before := filter_eq_self.mpr hkeeps
    have hguarded : guarded isalnum held baseline before = before := by
      rw [guarded, hfilter, if_neg (by simp [hhas])]
    have hnothing : wanted.filter (· ∉ before) = [] := by
      rw [filter_eq_nil_iff]
      intro rule hrule
      simp [hown rule hrule]
    rw [written, hguarded, hnothing, append_nil]

end Written

end Backend

section Turns

variable {rule : Rule}

theorem allows_wanted : allows pass.address pass.vip (tcpPorts pass) [ntpPort] = wanted pass := rfl

theorem wanted_ne_nil : wanted pass ≠ [] := by
  have hport : tenantAPIPort ∈ tcpPorts pass := by simp [tcpPorts]
  have hmem : allow pass.address pass.vip "tcp" tenantAPIPort ∈ wanted pass :=
    mem_allows.mpr (.inl ⟨tenantAPIPort, hport, by decide, rfl⟩)
  exact ne_nil_of_mem hmem

theorem mem_keeps_iff (hpriority : rule.priority = allowPriority) :
    Backend.keeps isalnum held rule = true ↔
      (Backend.allowSource isalnum rule.matchExpr).getD "" ∈ held := by
  simp [Backend.keeps, hpriority]

theorem not_isStale_iff (hpriority : rule.priority = allowPriority) : isStale live rule = false ↔
      allowSource rule.matchExpr = "" ∨ allowSource rule.matchExpr ∈ live := by
  simp [isStale, hpriority]
  tauto

theorem serve_backend {baseline : Rule} (hcidr : pass.transitCIDR ≠ "")
    (hbaseline : Backend.buildTransitDeny parse6 strict6 format6 pass.transitCIDR
      pass.excludeIPs = some baseline)
    (hheld : (Backend.liveTransitAddresses pass.eips pass.subnetName).map (pass.address :: ·) =
      some held) : serve isalnum parse6 strict6 format6 pass existing .backend =
      some (Backend.written isalnum held baseline (wanted pass) existing) := by
  have hmutate : Backend.mutate isalnum parse6 strict6 format6 (some held) (wanted pass)
      pass.transitCIDR pass.excludeIPs existing =
        some (if Backend.written isalnum held baseline (wanted pass) existing = existing then none
          else some (Backend.written isalnum held baseline (wanted pass) existing)) := by
    rw [Backend.mutate, Backend.written, Backend.guarded, hbaseline]
    dsimp only
    by_cases hnone : hasDeny (existing.filter (Backend.keeps isalnum held)) = false
    · rw [if_pos ⟨hcidr, hnone⟩, if_pos hnone]
      rfl
    · rw [if_neg fun h => hnone h.2, if_neg hnone]
      rfl
  rw [serve, Backend.ensureTransitAcls, allows_wanted]
  dsimp only
  rw [if_neg wanted_ne_nil, hheld, hmutate, Option.map_some]
  split
  · next hsame => exact congrArg some hsame.symm
  · rfl

/-- The pass has nothing to do where nothing is stale, the tenant's allows are there, whoever has
none is beyond help, and the deny is there. -/
theorem serve_operator_of (h : Sane pass) (hlive : liveOf pass = some live)
    (hfresh : ∀ rule ∈ acls, isStale live rule = false) (hown : ∀ rule ∈ wanted pass, rule ∈ acls)
    (hhelp : ∀ address ∈ live, ¬Covers acls address → backfill pass live address = none)
    (hdeny : hasDeny acls = true) :
    serve isalnum parse6 strict6 format6 pass acls .operator = some acls := by
  have hkept : kept pass acls = acls := by
    rw [kept_eq, hlive, filter_eq_self]
    intro rule hrule
    simp [hfresh rule hrule]
  have hpermitted : permitted pass acls = acls := by
    rw [permitted, hkept]
    exact addRules_eq_self hown
  have hnone : ∀ address ∈ missing pass acls, backfill pass live address = none := by
    intro address hmissing
    obtain ⟨hmem, hcovered⟩ := (mem_missing hlive).mp hmissing
    apply hhelp address hmem
    intro hcovers
    rw [hpermitted] at hcovered
    have hne := ne_empty_of_isIPv4 (h.isIPv4 hlive hmem)
    simp [isCovered_iff.mpr ⟨hne, hcovers⟩] at hcovered
  have hfilled : filled pass acls = acls := by
    have hnil : ((missing pass acls).flatMap fun address =>
        (backfill pass live address).getD []) = [] := by
      rw [flatMap_eq_nil_iff]
      intro address hmissing
      rw [hnone address hmissing, Option.getD_none]
    rw [filled, hpermitted, hlive, Option.getD_some, backfillAllows]
    dsimp only
    rw [hnil]
    rfl
  rw [serve, ensureTransitACLs_eq, hfilled, if_neg (by simp [hdeny]), Option.map_some]

/-- Where the pass has nothing to do, nothing is stale, and whoever has no allow is beyond help. -/
theorem of_serve_operator (h : Sane pass) (hlive : liveOf pass = some live)
    (hserve : serve isalnum parse6 strict6 format6 pass acls .operator = some acls) :
    (∀ rule ∈ acls, isStale live rule = false) ∧
      ∀ address ∈ live, ¬Covers acls address → backfill pass live address = none := by
  obtain ⟨⟨acls', left⟩, hpass, rfl⟩ := Option.map_eq_some_iff.mp hserve
  have hbefore : ∀ rule ∈ filled pass acls', rule ∈ acls' := by
    obtain ⟨-, ⟨heq, -⟩ | ⟨baseline, -, heq, -⟩⟩ := exists_written hpass
    · exact fun rule hrule => heq ▸ hrule
    · exact fun rule hrule => heq ▸ mem_append_left _ hrule
  constructor
  · intro rule hrule
    obtain ⟨-, ⟨heq, -⟩ | ⟨baseline, hbaseline, heq, -⟩⟩ := exists_written hpass
    · exact h.not_stale hlive (heq ▸ hrule)
    · obtain hfilled | hmem := mem_append.mp (heq ▸ hrule)
      · exact h.not_stale hlive hfilled
      · obtain rfl := mem_singleton.mp hmem
        have hother : denyPriority ≠ allowPriority := by decide
        simp [isStale, (of_deny hbaseline).2, hother]
  · intro address haddress huncovered
    cases hrules : backfill pass live address with
    | none => rfl
    | some rules =>
      exfalso
      apply huncovered
      have hcovered : isCovered (permitted pass acls') address = false := by
        rw [Bool.eq_false_iff]
        intro htrue
        obtain ⟨-, hcovers⟩ := isCovered_iff.mp htrue
        exact huncovered (Covers.mono hcovers fun rule hrule =>
          hbefore rule (mem_addRules.mpr (.inl hrule)))
      have hmissing := (mem_missing hlive).mpr ⟨haddress, hcovered⟩
      obtain ⟨rule, more, rfl⟩ := exists_cons_of_ne_nil (h.backfill_ne_nil hrules)
      have hallow := of_mem_backfill (h.isIPv4 hlive haddress) hrules mem_cons_self
      have hfilled := (mem_filled hlive).mpr (.inr (.inr ⟨address, hmissing, _, hrules,
        mem_cons_self⟩))
      exact ⟨rule, hbefore rule hfilled, hallow.1, hallow.2.1⟩

theorem hasDeny_iff : hasDeny acls = true ↔
    ∃ rule ∈ acls, rule.action = "drop" ∧ rule.priority = denyPriority := by
  simp [hasDeny]

theorem mem_kept (hlive : liveOf pass = some live) :
    rule ∈ kept pass existing ↔ rule ∈ existing ∧ isStale live rule = false := by
  rw [kept_eq, hlive]
  simp

theorem hasDeny_filled (h : Sane pass) (hlive : liveOf pass = some live) :
    hasDeny (filled pass existing) = hasDeny existing := by
  rw [Bool.eq_iff_iff, hasDeny_iff, hasDeny_iff]
  constructor
  · rintro ⟨rule, hrule, hdrop, hpriority⟩
    have hkept : rule ∈ kept pass existing := by
      by_contra hnew
      exact h.not_drop hrule hnew hdrop
    exact ⟨rule, ((mem_kept hlive).mp hkept).1, hdrop, hpriority⟩
  · rintro ⟨rule, hrule, hdrop, hpriority⟩
    have hother : denyPriority ≠ allowPriority := by decide
    have hfresh : isStale live rule = false := by simp [isStale, hpriority, hother]
    exact ⟨rule, (mem_filled hlive).mpr (.inl ((mem_kept hlive).mpr ⟨hrule, hfresh⟩)), hdrop,
      hpriority⟩

/-- What an operator's turn leaves: what is not stale, the tenant's allows, and a deny if there was
one or nobody is left without an allow. -/
theorem of_serve_filled (h : Sane pass) (hlive : liveOf pass = some live)
    (hserve : serve isalnum parse6 strict6 format6 pass existing .operator = some acls) :
    (∀ rule ∈ filled pass existing, rule ∈ acls) ∧
      (∀ rule ∈ acls, rule ∈ filled pass existing ∨ rule.priority = denyPriority) ∧
        (hasDeny acls = true ↔ hasDeny existing = true ∨ unprotected pass existing = []) := by
  obtain ⟨⟨acls', left⟩, hpass, rfl⟩ := Option.map_eq_some_iff.mp hserve
  have hsame : hasDeny (filled pass existing) = hasDeny existing := hasDeny_filled h hlive
  obtain ⟨-, ⟨rfl, hdeny⟩ | ⟨baseline, hbaseline, rfl, hnone, -⟩⟩ := exists_written hpass
  · refine ⟨fun rule hrule => hrule, fun rule hrule => .inl hrule, ?_⟩
    dsimp only
    rw [hsame] at hdeny ⊢
    constructor
    · exact .inl
    · rintro (hhas | hnone)
      · exact hhas
      · by_contra hno
        exact hdeny ⟨hnone, Bool.eq_false_iff.mpr hno⟩
  · obtain ⟨haction, hpriority⟩ := of_deny hbaseline
    refine ⟨fun rule hrule => mem_append_left _ hrule, ?_, ?_⟩
    · intro rule hrule
      obtain hfilled | hmem := mem_append.mp hrule
      · exact .inl hfilled
      · exact .inr (mem_singleton.mp hmem ▸ hpriority)
    · have hmem : baseline ∈ filled pass existing ++ [baseline] :=
        mem_append_right _ (mem_singleton_self baseline)
      exact iff_of_true (hasDeny_of_mem hmem haction hpriority) (.inr hnone)

end Turns

section Peace

variable {baseline rule : Rule} {address : String}

section

variable (hascii : Ascii isalnum) (h : Sane pass) (hread : Readable parse6 strict6 format6 pass)
  (hlive : liveOf pass = some live)
  (hheld : (Backend.liveTransitAddresses pass.eips pass.subnetName).map (pass.address :: ·) =
    some held)

include hheld in
theorem own_mem_held : pass.address ∈ held := by
  obtain ⟨found, -, rfl⟩ := Option.map_eq_some_iff.mp hheld
  exact mem_cons_self

include hlive hheld in
theorem mem_held (haddress : address ∈ live) : address ∈ held := by
  obtain rfl | ⟨eips, heips, eip, hmem, hnat, rfl⟩ := (mem_liveOf hlive).mp haddress
  · exact own_mem_held hheld
  · obtain ⟨found, hfound, rfl⟩ := Option.map_eq_some_iff.mp hheld
    rw [heips] at hfound
    obtain rfl := Option.some.inj hfound
    simp only [OvnEip.isLive, Bool.and_eq_true] at hnat
    apply mem_cons_of_mem
    apply mem_map_of_mem
    rw [mem_filter, Bool.and_eq_true]
    exact ⟨hmem, hnat.1.1, hnat.2⟩

include hascii h hheld in
theorem keeps_of_mem_wanted (hrule : rule ∈ wanted pass) :
    Backend.keeps isalnum held rule = true := by
  rw [mem_keeps_iff (of_mem_allows h.own hrule).1,
    Backend.allowSource_of_mem_allows hascii h.own hrule, Option.getD_some]
  exact own_mem_held hheld

include hascii h hlive hheld in
theorem keeps_of_mem_backfill (haddress : address ∈ live) {rules : List Rule}
    (hrules : backfill pass live address = some rules) (hrule : rule ∈ rules) :
    Backend.keeps isalnum held rule = true := by
  have hip := h.isIPv4 hlive haddress
  rw [mem_keeps_iff (of_mem_backfill hip hrules hrule).1]
  simp only [backfill] at hrules
  split at hrules
  · contradiction
  · obtain ⟨⟨vip, tcp⟩, -, rfl⟩ := Option.map_eq_some_iff.mp hrules
    rw [Backend.allowSource_of_mem_allows hascii hip hrule, Option.getD_some]
    exact mem_held hlive hheld haddress

include hascii h hread hlive hheld in
/-- What an operator's turn leaves, the backend leaves alone if it keeps what the operator kept, and
a deny is there by then. -/
theorem backend_rests_iff
    (hserve : serve isalnum parse6 strict6 format6 pass existing .operator = some acls) :
    serve isalnum parse6 strict6 format6 pass acls .backend = some acls ↔
      (∀ rule ∈ existing, isStale live rule = false → Backend.keeps isalnum held rule = true) ∧
        (hasDeny existing = true ∨ unprotected pass existing = []) := by
  obtain ⟨baseline, hbaseline⟩ := hread.backend
  obtain ⟨hbefore, hrest, hdeny⟩ := of_serve_filled h hlive hserve
  rw [serve_backend hread.cidr hbaseline hheld, Option.some.injEq, Backend.written_eq_self_iff
    (Backend.of_buildTransitDeny hbaseline) fun rule => keeps_of_mem_wanted hascii h hheld, hdeny]
  constructor
  · rintro ⟨hkeeps, hhas, -⟩
    refine ⟨fun rule hrule hfresh => ?_, hhas⟩
    apply hkeeps
    apply hbefore
    exact (mem_filled hlive).mpr (.inl ((mem_kept hlive).mpr ⟨hrule, hfresh⟩))
  · rintro ⟨hsources, hhas⟩
    refine ⟨fun rule hrule => ?_, hhas, fun rule hrule => ?_⟩
    · obtain hfilled | hpriority := hrest rule hrule
      · obtain hkept | hown | ⟨other, hmissing, rules, hrules, hmem⟩ :=
          (mem_filled hlive).mp hfilled
        · obtain ⟨hmem, hfresh⟩ := (mem_kept hlive).mp hkept
          exact hsources rule hmem hfresh
        · exact keeps_of_mem_wanted hascii h hheld hown
        · exact keeps_of_mem_backfill hascii h hlive hheld ((mem_missing hlive).mp hmissing).1
            hrules hmem
      · exact Backend.keeps_of_deny hpriority
    · exact hbefore rule ((mem_filled hlive).mpr (.inr (.inl hrule)))

include h hread hlive hheld in
/-- What a backend's turn leaves, the operator leaves alone if nothing that was kept is stale to it,
and whoever has no allow by then is beyond help. -/
theorem operator_rests_iff
    (hserve : serve isalnum parse6 strict6 format6 pass existing .backend = some acls) :
    serve isalnum parse6 strict6 format6 pass acls .operator = some acls ↔
      (∀ rule ∈ existing, Backend.keeps isalnum held rule = true → isStale live rule = false) ∧
        ∀ address ∈ live, ¬Covers acls address → backfill pass live address = none := by
  obtain ⟨baseline, hbaseline⟩ := hread.backend
  obtain ⟨hdrop, hpriority⟩ := Backend.of_buildTransitDeny hbaseline
  rw [serve_backend hread.cidr hbaseline hheld] at hserve
  obtain rfl := Option.some.inj hserve
  constructor
  · intro hrests
    obtain ⟨hfresh, hhelp⟩ := of_serve_operator h hlive hrests
    refine ⟨fun rule hrule hkeeps => ?_, hhelp⟩
    exact hfresh rule (Backend.mem_written.mpr (.inl ⟨hrule, hkeeps⟩))
  · rintro ⟨hsources, hhelp⟩
    apply serve_operator_of h hlive _ _ hhelp
    · cases hhas : hasDeny existing with
      | true =>
        obtain ⟨rule, hrule, haction, hrulePriority⟩ := hasDeny_iff.mp hhas
        refine hasDeny_of_mem (Backend.mem_written.mpr (.inl ⟨hrule, ?_⟩)) haction hrulePriority
        exact Backend.keeps_of_deny hrulePriority
      | false =>
        exact hasDeny_of_mem (Backend.mem_written.mpr (.inr (.inl ⟨hhas, rfl⟩))) hdrop hpriority
    · intro rule hrule
      obtain ⟨hmem, hkeeps⟩ | ⟨-, rfl⟩ | hown := Backend.mem_written.mp hrule
      · exact hsources rule hmem hkeeps
      · have hother : denyPriority ≠ allowPriority := by decide
        simp [isStale, hpriority, hother]
      · refine isStale_eq_false fun _ => ?_
        rw [(of_mem_allows h.own hown).2.1]
        exact mem_liveOf_own hlive
    · exact fun rule hrule => Backend.mem_written.mpr (.inr (.inr hrule))

include hread in
theorem exists_serve_operator :
    ∃ acls, serve isalnum parse6 strict6 format6 pass existing .operator = some acls := by
  obtain ⟨baseline, hbaseline⟩ := hread.operator
  rw [serve, ensureTransitACLs_eq, hbaseline]
  split
  · exact ⟨_, rfl⟩
  · exact ⟨_, rfl⟩

include hread hheld in
theorem exists_serve_backend :
    ∃ acls, serve isalnum parse6 strict6 format6 pass existing .backend = some acls := by
  obtain ⟨baseline, hbaseline⟩ := hread.backend
  exact ⟨_, serve_backend hread.cidr hbaseline hheld⟩

include h in
theorem operator_again
    (hserve : serve isalnum parse6 strict6 format6 pass existing .operator = some acls) :
    serve isalnum parse6 strict6 format6 pass acls .operator = some acls := by
  obtain ⟨⟨acls', left⟩, hpass, rfl⟩ := Option.map_eq_some_iff.mp hserve
  rw [serve, h.again hpass, Option.map_some]

include hascii h hread hheld in
theorem backend_again
    (hserve : serve isalnum parse6 strict6 format6 pass existing .backend = some acls) :
    serve isalnum parse6 strict6 format6 pass acls .backend = some acls := by
  obtain ⟨baseline, hbaseline⟩ := hread.backend
  have hdrop := Backend.of_buildTransitDeny hbaseline
  have hkeeps (rule : Rule) (hrule : rule ∈ wanted pass) :=
    keeps_of_mem_wanted hascii h hheld hrule
  rw [serve_backend hread.cidr hbaseline hheld] at hserve ⊢
  obtain rfl := Option.some.inj hserve
  rw [Option.some.injEq, Backend.written_eq_self_iff hdrop hkeeps]
  refine ⟨fun rule hrule => ?_, ?_, fun rule hrule => Backend.mem_written.mpr (.inr (.inr hrule))⟩
  · obtain ⟨-, hkept⟩ | ⟨-, rfl⟩ | hown := Backend.mem_written.mp hrule
    · exact hkept
    · exact Backend.keeps_of_deny hdrop.2
    · exact hkeeps rule hown
  · cases hhas : hasDeny existing with
    | true =>
      obtain ⟨rule, hrule, haction, hpriority⟩ := hasDeny_iff.mp hhas
      have hkept : Backend.keeps isalnum held rule = true := Backend.keeps_of_deny hpriority
      exact hasDeny_of_mem (Backend.mem_written.mpr (.inl ⟨hrule, hkept⟩)) haction hpriority
    | false =>
      exact hasDeny_of_mem (Backend.mem_written.mpr (.inr (.inl ⟨hhas, rfl⟩))) hdrop.1 hdrop.2

theorem Quiet.keeps_iff (hquiet : Quiet isalnum pass live held existing) (hrule : rule ∈ existing) :
    Backend.keeps isalnum held rule = true ↔ isStale live rule = false := by
  by_cases hpriority : rule.priority = allowPriority
  · rw [mem_keeps_iff hpriority, not_isStale_iff hpriority, hquiet.sources rule hrule hpriority]
  · apply iff_of_true
    · simp [Backend.keeps, hpriority]
    · simp [isStale, hpriority]

theorem Quiet.keeps_of_source (hquiet : Quiet isalnum pass live held existing)
    (hrule : rule ∈ existing) (hsource : allowSource rule.matchExpr ∈ live) :
    Backend.keeps isalnum held rule = true :=
  (hquiet.keeps_iff hrule).mpr (isStale_eq_false fun _ => hsource)

include h in
theorem covers_own (hown : ∀ rule ∈ wanted pass, rule ∈ acls) : Covers acls pass.address := by
  obtain ⟨rule, more, hcons⟩ := exists_cons_of_ne_nil (@wanted_ne_nil pass)
  have hmem : rule ∈ wanted pass := by
    rw [hcons]
    exact mem_cons_self
  have hallow := of_mem_allows h.own hmem
  exact ⟨rule, hown rule hmem, hallow.1, hallow.2.1⟩

include hascii h hread hlive hheld in
theorem Quiet.rests (hquiet : Quiet isalnum pass live held existing)
    (hserve : serve isalnum parse6 strict6 format6 pass existing writer = some acls) :
    serve isalnum parse6 strict6 format6 pass acls .operator = some acls ∧
      serve isalnum parse6 strict6 format6 pass acls .backend = some acls := by
  cases writer with
  | operator =>
    refine ⟨operator_again h hserve, ?_⟩
    rw [backend_rests_iff hascii h hread hlive hheld hserve]
    refine ⟨fun rule hrule => (hquiet.keeps_iff hrule).mpr, ?_⟩
    by_cases hhas : hasDeny existing = true
    · exact .inl hhas
    · -- Without a deny nobody may be without an allow.
      refine .inr (eq_nil_iff_forall_not_mem.mpr fun address hunprotected => ?_)
      obtain ⟨hmissing, -⟩ := (mem_unprotected hlive).mp hunprotected
      obtain ⟨haddress, hcovered⟩ := (mem_missing hlive).mp hmissing
      have hcovers : Covers (permitted pass existing) address := by
        by_cases hown : address = pass.address
        · subst hown
          exact covers_own h fun rule hrule => mem_addRules.mpr (.inr hrule)
        · by_contra hnot
          apply hhas
          apply (hquiet.permits address haddress hown _).1
          rintro ⟨rule, hrule, hpriority, rfl⟩
          apply hnot
          have hfresh : isStale live rule = false := isStale_eq_false fun _ => haddress
          exact ⟨rule, mem_addRules.mpr (.inl ((mem_kept hlive).mpr ⟨hrule, hfresh⟩)),
            hpriority, rfl⟩
      have hne := ne_empty_of_isIPv4 (h.isIPv4 hlive haddress)
      simp [isCovered_iff.mpr ⟨hne, hcovers⟩] at hcovered
  | backend =>
    refine ⟨?_, backend_again hascii h hread hheld hserve⟩
    rw [operator_rests_iff h hread hlive hheld hserve]
    refine ⟨fun rule hrule => (hquiet.keeps_iff hrule).mp, fun address haddress hnot => ?_⟩
    obtain ⟨baseline, hbaseline⟩ := hread.backend
    rw [serve_backend hread.cidr hbaseline hheld] at hserve
    obtain rfl := Option.some.inj hserve
    refine (hquiet.permits address haddress ?_ ?_).2
    · rintro rfl
      exact hnot (covers_own h fun rule hrule => Backend.mem_written.mpr (.inr (.inr hrule)))
    · rintro ⟨rule, hrule, hpriority, rfl⟩
      apply hnot
      exact ⟨rule, Backend.mem_written.mpr (.inl ⟨hrule, hquiet.keeps_of_source hrule haddress⟩),
        hpriority, rfl⟩

include h hread hlive hheld in
theorem Quiet.covers (hquiet : Quiet isalnum pass live held existing)
    (hserve : serve isalnum parse6 strict6 format6 pass existing writer = some acls)
    (hrule : rule ∈ acls) (hnew : rule ∉ existing) (hdrop : rule.action = "drop")
    (haddress : address ∈ live) : Covers acls address := by
  cases writer with
  | operator =>
    obtain ⟨⟨acls', left⟩, hpass, rfl⟩ := Option.map_eq_some_iff.mp hserve
    have hfresh : rule ∉ kept pass existing := fun hkept => hnew ((mem_kept hlive).mp hkept).1
    obtain ⟨live', hlive', hall⟩ := h.covers_of_drop hpass hrule hfresh hdrop
    obtain rfl := Option.mem_unique hlive hlive'
    exact hall address haddress
  | backend =>
    obtain ⟨baseline, hbaseline⟩ := hread.backend
    rw [serve_backend hread.cidr hbaseline hheld] at hserve
    obtain rfl := Option.some.inj hserve
    obtain ⟨hmem, -⟩ | ⟨hnone, -⟩ | hown := Backend.mem_written.mp hrule
    · exact absurd hmem hnew
    · by_cases hown : address = pass.address
      · subst hown
        exact covers_own h fun rule hrule => Backend.mem_written.mpr (.inr (.inr hrule))
      · have hcovers : Covers existing address := by
          by_contra hnot
          have hhas := (hquiet.permits address haddress hown hnot).1
          rw [hnone] at hhas
          contradiction
        obtain ⟨allowed, hallowed, hpriority, rfl⟩ := hcovers
        exact ⟨allowed, Backend.mem_written.mpr
          (.inl ⟨hallowed, hquiet.keeps_of_source hallowed haddress⟩), hpriority, rfl⟩
    · exact absurd hdrop (of_mem_allows h.own hown).2.2

include h hread hheld in
theorem not_covers_written
    (hserve : serve isalnum parse6 strict6 format6 pass existing .backend = some acls)
    (hown : address ≠ pass.address) (hnot : ¬Covers existing address) : ¬Covers acls address := by
  obtain ⟨baseline, hbaseline⟩ := hread.backend
  rw [serve_backend hread.cidr hbaseline hheld] at hserve
  obtain rfl := Option.some.inj hserve
  rintro ⟨rule, hrule, hpriority, hsource⟩
  obtain ⟨hmem, -⟩ | ⟨-, rfl⟩ | hwanted := Backend.mem_written.mp hrule
  · exact hnot ⟨rule, hmem, hpriority, hsource⟩
  · rw [(Backend.of_buildTransitDeny hbaseline).2] at hpriority
    exact absurd hpriority (by decide)
  · exact hown (hsource.symm.trans (of_mem_allows h.own hwanted).2.1)

include h hlive in
theorem mem_missing_of_not_covers (haddress : address ∈ live) (hown : address ≠ pass.address)
    (hnot : ¬Covers existing address) : address ∈ missing pass existing := by
  rw [mem_missing hlive, Bool.eq_false_iff]
  refine ⟨haddress, fun hcovered => ?_⟩
  obtain ⟨-, rule, hrule, hpriority, hsource⟩ := isCovered_iff.mp hcovered
  obtain hkept | hwanted := mem_addRules.mp hrule
  · exact hnot ⟨rule, ((mem_kept hlive).mp hkept).1, hpriority, hsource⟩
  · exact hown (hsource.symm.trans (of_mem_allows h.own hwanted).2.1)

end

/-- The two writers are at peace exactly where they keep the same allows of the list, and every
other address on the plane has one, or is beyond help with the deny there already. -/
theorem peace_iff_quiet (hascii : Ascii isalnum) (h : Sane pass)
    (hread : Readable parse6 strict6 format6 pass) (hlive : liveOf pass = some live)
    (hheld : (Backend.liveTransitAddresses pass.eips pass.subnetName).map (pass.address :: ·) =
      some held) (existing : List Rule) :
    Peace isalnum parse6 strict6 format6 pass existing ↔ Quiet isalnum pass live held existing := by
  constructor
  · intro hpeace
    obtain ⟨acls, hoperator⟩ : ∃ acls,
        serve isalnum parse6 strict6 format6 pass existing .operator = some acls :=
      exists_serve_operator hread
    obtain ⟨acls', hbackend⟩ : ∃ acls,
        serve isalnum parse6 strict6 format6 pass existing .backend = some acls :=
      exists_serve_backend hread hheld
    obtain ⟨hkept, hdeny⟩ := (backend_rests_iff hascii h hread hlive hheld hoperator).mp
      (hpeace.afterOperator acls hoperator)
    obtain ⟨hkept', hhelp⟩ := (operator_rests_iff h hread hlive hheld hbackend).mp
      (hpeace.afterBackend acls' hbackend)
    refine ⟨fun rule hrule hpriority => ?_, fun address haddress hown huncovered => ?_⟩
    · rw [← not_isStale_iff hpriority, ← mem_keeps_iff hpriority]
      exact ⟨hkept rule hrule, hkept' rule hrule⟩
    · have hnone := hhelp address haddress
        (not_covers_written h hread hheld hbackend hown huncovered)
      refine ⟨hdeny.resolve_right fun hprotected => ?_, hnone⟩
      have hunprotected := (mem_unprotected hlive).mpr
        ⟨mem_missing_of_not_covers h hlive haddress hown huncovered, hnone⟩
      rw [hprotected] at hunprotected
      contradiction
  · intro hquiet
    have hfirst (writer : Writer) (acls : List Rule)
        (hserve : serve isalnum parse6 strict6 format6 pass existing writer = some acls) :
        Machine.Rests (serve isalnum parse6 strict6 format6 pass) acls := by
      obtain ⟨hoperator, hbackend⟩ := hquiet.rests hascii h hread hlive hheld hserve
      intro other acls' hother
      cases other with
      | operator => exact Option.mem_unique hother hoperator
      | backend => exact Option.mem_unique hother hbackend
    refine ⟨?_, ?_, ?_, ?_⟩
    · exact fun acls hserve => (hquiet.rests hascii h hread hlive hheld hserve).2
    · exact fun acls hserve => (hquiet.rests hascii h hread hlive hheld hserve).1
    · intro acls writer less later hbefore hserve hafter rule hrule hgone hback
      obtain rfl | hrest := Machine.Run.eq_or_rests hfirst hbefore
      · obtain rfl := Machine.Run.eq_of_rests (hfirst writer less hserve) hafter
        exact hgone hback
      · obtain rfl := hrest writer less hserve
        exact hgone hrule
    · intro acls writer more hbefore hserve rule hrule hnew hdrop _ eips heips eip hmem hnat
      obtain rfl | hrest := Machine.Run.eq_or_rests hfirst hbefore
      · exact hquiet.covers h hread hlive hheld hserve hrule hnew hdrop
          ((mem_liveOf hlive).mpr (.inr ⟨eips, heips, eip, hmem, hnat, rfl⟩))
      · obtain rfl := hrest writer more hserve
        exact absurd hrule hnew

end Peace

/-- The other tenant's Service cannot be read. -/
def unserved : Pass := { shared with service := fun _ _ => none }

theorem sane_unserved : Sane unserved where
  own := sane_shared.own
  eips := sane_shared.eips
  ports _ _ _ hservice := by contradiction

theorem readable_shared : Readable (fun _ => none) (fun _ => none) (fun _ => "") shared :=
  @readable_of_entries (fun _ => none) (fun _ => none) (fun _ => "") shared
    ⟨0x0A000100, 29, by decide⟩ [.address 0x0A000101] (by decide +kernel) (by decide +kernel)

/-- The backend adds the deny beside an address that has no allow. -/
theorem not_peace : Sane unserved ∧
    Readable (fun _ => none) (fun _ => none) (fun _ => "") unserved ∧
    ¬Peace Char.isAlphanum (fun _ => none) (fun _ => none) (fun _ => "") unserved [] := by
  refine ⟨sane_unserved, ⟨readable_shared.cidr, readable_shared.operator, readable_shared.backend⟩,
    fun h => ?_⟩
  have hwrites : (serve Char.isAlphanum (fun _ => none) (fun _ => none) (fun _ => "") unserved []
      .backend).any (fun acls => hasDeny acls && !isCovered acls "10.0.1.3") = true := by
    decide +kernel
  obtain ⟨acls, hserve, hacls⟩ := (Option.any_eq_true _ _).mp hwrites
  rw [Bool.and_eq_true, Bool.not_eq_true', Bool.eq_false_iff] at hacls
  obtain ⟨rule, hrule, hdrop, hpriority⟩ := hasDeny_iff.mp hacls.1
  have hcovers := h.denied [] .backend acls .refl hserve rule hrule not_mem_nil hdrop
    hpriority _ rfl _ mem_cons_self (by decide)
  exact hacls.2 (isCovered_iff.mpr ⟨by decide, hcovers⟩)

/-- Where the other tenant has its allow, they are at peace. -/
theorem peace_shared : Peace Char.isAlphanum (fun _ => none) (fun _ => none) (fun _ => "")
    shared [allow "10.0.1.3" "10.96.0.11" "tcp" 6443] := by
  obtain ⟨live, hlive⟩ : ∃ live, liveOf shared = some live := ⟨_, rfl⟩
  have hheld : (Backend.liveTransitAddresses shared.eips shared.subnetName).map
      (shared.address :: ·) = some ["10.0.1.2", "10.0.1.3"] := by
    decide +kernel
  have hmem (address : String) : address ∈ live ↔ address = "10.0.1.2" ∨ address = "10.0.1.3" := by
    rw [mem_liveOf hlive]
    have heip : OvnEip.isLive "transit" ⟨"cpt-eip-b", "b", "transit", "nat", "10.0.1.3"⟩ =
        true := by
      decide
    constructor
    · rintro (hown | ⟨eips, heips, eip, hmem, -, rfl⟩)
      · exact .inl hown
      · obtain rfl := Option.some.inj heips
        obtain rfl := mem_singleton.mp hmem
        exact .inr rfl
    · rintro (hown | rfl)
      · exact .inl hown
      · exact .inr ⟨_, rfl, _, mem_singleton_self _, heip, rfl⟩
  have hsource : allowSource (allow "10.0.1.3" "10.96.0.11" "tcp" 6443).matchExpr = "10.0.1.3" := by
    decide +kernel
  apply (peace_iff_quiet (fun _ _ => rfl) sane_shared readable_shared hlive hheld _).mpr
  refine ⟨?_, ?_⟩
  · rw [forall_mem_singleton]
    intro _
    apply iff_of_true
    · exact .inr ((hmem _).mpr (.inr hsource))
    · decide +kernel
  · intro address haddress hown huncovered
    obtain rfl | rfl := (hmem address).mp haddress
    · exact absurd rfl hown
    · exact absurd ⟨_, mem_cons_self, rfl, hsource⟩ huncovered

end Transit
