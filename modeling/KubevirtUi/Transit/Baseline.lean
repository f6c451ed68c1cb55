import KubevirtUi.Transit.Rules
import Mathlib.Data.List.AList
import Mathlib.Data.String.Basic

/-!
# The deny never silences a live address

One pass for one tenant: drop the allows of addresses that are gone, add the tenant's own,
write allows for others that have none, and add the deny once nobody would be silenced by
it. All of this is worked out on the list that is read, and written at once.

What a pass writes is the list without its stale allows, and new rules after it. The deny
is among these only if every address on the plane has an allow by then, and a second pass
finds nothing to do.

A rule that was written for an address is read back as the rule of that address. This
rests on addresses being IPv4 addresses, and an address that is told to be covered has a
port to be covered on.
-/

namespace Transit

open Go Acl List
open Option hiding any_eq_true or_assoc

structure OvnEip where
  name : String
  tenantLabel : String
  externalSubnet : String
  type : String
  v4Ip : String

structure ServicePort where
  protocol : String
  port : Int

structure Service where
  ingress : List String
  ports : List ServicePort

/-- The addresses on the plane, and the tenant of each, "" where it cannot be told. -/
abbrev Live := AList fun _ : String => String

/-- What the pass is given: the tenant, and what the API server answers. -/
structure Pass where
  tenant : String
  os : String
  hostAPIPublished : Bool
  subnetName : String
  transitCIDR : String
  address : String
  vip : String
  /-- The list of addresses, unless it cannot be read. -/
  eips : Option (List OvnEip)
  /-- The Service in a namespace under a name, unless it cannot be read. -/
  service : String → String → Option Service
  ntpNamespace : String
  excludeIPs : List String

def tenantAPIPort : Int := 6443
def tenantKonnPort : Int := 8132
def tenantTrustdPort : Int := 50001
def hostAPIPort : Int := 6444
def ntpPort : Int := 123

def trimPrefix (s pre : String) : String :=
  if hasPrefix s pre then String.ofList (s.toList.drop pre.toList.length) else s

def tenantOfEIP (eip : OvnEip) : String :=
  if eip.tenantLabel ≠ "" then eip.tenantLabel else trimPrefix eip.name "cpt-eip-"

/-- A tenant's address on the plane. -/
def OvnEip.isLive (subnetName : String) (eip : OvnEip) : Bool :=
  eip.externalSubnet = subnetName && eip.type = "nat" && eip.v4Ip ≠ ""

/-- The addresses that are held on the plane, if it can be told at all. -/
def liveTransitAddresses (eips : Option (List OvnEip)) (subnetName : String) : Option Live :=
  eips.map fun items =>
    (items.filter (·.isLive subnetName)).foldl
      (fun live eip => live.insert eip.v4Ip (tenantOfEIP eip)) ∅

/-- Whether the allow is for an address that is gone. -/
def isStale (live : Live) (rule : Rule) : Bool :=
  rule.priority = allowPriority && allowSource rule.matchExpr ≠ "" &&
    decide (allowSource rule.matchExpr ∉ live)

/-- Where the addresses are not known, nothing is dropped. -/
def pruneStaleAllows (existing : List Rule) : Option Live → List Rule
  | none => existing
  | some live => existing.filter fun rule => !isStale live rule

/-- Append what is not there yet. -/
def addRules (acls wanted : List Rule) : List Rule :=
  wanted.foldl (fun acls rule => if rule ∈ acls then acls else acls ++ [rule]) acls

def unreadable : String := "<the addresses on this plane could not be read>"

/-- Some allow is keyed on the address. -/
def isCovered (acls : List Rule) (address : String) : Bool :=
  acls.any fun rule => rule.priority = allowPriority && allowSource rule.matchExpr ≠ "" &&
    allowSource rule.matchExpr = address

/-- Who is on the plane without a permission. -/
def addressesWithoutAllow (acls : List Rule) : Option Live → List String
  | none => [unreadable]
  | some live => (live.keys.filter fun address => !isCovered acls address).insertionSort (· ≤ ·)

def hasDeny (acls : List Rule) : Bool :=
  acls.any fun rule => rule.action = "drop" && rule.priority = denyPriority

/-- A tenant's address and ports, as its Service has them. -/
def controlPlaneShapeOf (pass : Pass) (tenantName : String) : Option (String × List Int) := do
  let service ← pass.service ("tenant-" ++ tenantName) (tenantName ++ "-cp-lb")
  let vip ← service.ingress.find? (· ≠ "")
  let tcp := (service.ports.filter fun port => port.protocol ≠ "UDP").map ServicePort.port
  if tcp = [] then none else some (vip, tcp)

def servesTime (pass : Pass) (tenantName : String) : Bool :=
  (pass.service pass.ntpNamespace (tenantName ++ "-ntp")).isSome

/-- The allows of one address, if it can be told whose it is and what that needs. -/
def backfill (pass : Pass) (live : Live) (address : String) : Option (List Rule) :=
  let tenantName := (live.lookup address).getD ""
  if tenantName = "" then none
  else (controlPlaneShapeOf pass tenantName).map fun (vip, tcp) =>
    allows address vip tcp (if servesTime pass tenantName then [ntpPort] else [])

/-- Allows for those that have none, and the addresses they cannot be written for. -/
def backfillAllows (pass : Pass) (missing : List String) (live : Live) : List Rule × List String :=
  (missing.flatMap fun address => (backfill pass live address).getD [],
    missing.filter fun address => (backfill pass live address).isNone)

/-- The tenant's own allows. -/
def wanted (pass : Pass) : List Rule :=
  allows pass.address pass.vip
    ([tenantAPIPort, tenantKonnPort] ++
      (if pass.os = "talos" then [tenantTrustdPort] else []) ++
      if pass.hostAPIPublished then [hostAPIPort] else [])
    [ntpPort]

/-- The addresses on the plane, the tenant's own among them whether or not it is seen. -/
def liveOf (pass : Pass) : Option Live :=
  (liveTransitAddresses pass.eips pass.subnetName).map fun live =>
    live.insert pass.address pass.tenant

/-- The list that is written, and the addresses that keep the deny from it. -/
def ensureTransitACLs (pass : Pass) (existing : List Rule) : Option (List Rule × List String) := do
  let live := liveOf pass
  let acls := addRules (pruneStaleAllows existing live) (wanted pass)
  let missing := addressesWithoutAllow acls live
  let (backfilled, unprotected) := backfillAllows pass missing (live.getD ∅)
  let acls := addRules acls backfilled
  if unprotected = [] ∧ hasDeny acls = false then
    let baseline ← deny pass.transitCIDR pass.excludeIPs
    return (acls ++ [baseline], unprotected)
  else return (acls, unprotected)

open Go Go.Netip Acl

/-- The text of an IPv4 address. -/
def IsIPv4 (s : String) : Prop := ∃ a, parseAddr s.toList = some (.v4 a)

variable {s : List Char} {c : Char} {rules : List Rule} {left : List String}

section Source

theorem isAddressChar_of_isIPv4 {s : String} (h : IsIPv4 s) : ∀ c ∈ s.toList, isAddressChar c := by
  obtain ⟨a, ha⟩ := h
  obtain ⟨n, hn, -⟩ := parseIPv4_of_parseAddr ha
  intro c hc
  simpa [isAddressChar] using isDigit_or_dot_of_parseIPv4Fields hn c hc

theorem isDigit_getLast_of_parseIPv4Fields {val digLen pos acc n : Nat}
    (h : parseIPv4Fields s val digLen pos acc = some n) (hs : s ≠ []) :
    (s.getLast hs).isDigit = true := by
  induction s generalizing val digLen pos acc with
  | nil => exact absurd rfl hs
  | cons c s ih =>
    rw [parseIPv4Fields] at h
    by_cases hdigit : c.isDigit = true
    · rw [if_pos hdigit] at h
      split at h
      · contradiction
      · simp only at h
        split at h
        · contradiction
        · by_cases hrest : s = []
          · subst hrest
            exact hdigit
          · rw [getLast_cons hrest]
            exact ih h hrest
    · rw [if_neg hdigit] at h
      split at h
      · split at h
        · contradiction
        · next hmore =>
          split at h
          · contradiction
          · have hrest : s ≠ [] := fun hnil => hmore (.inr hnil)
            rw [getLast_cons hrest]
            exact ih h hrest
      · contradiction

theorem toBoundary_eq {next : Option Char} {run : List Char} (hc : c.isDigit = true)
    (hnext : next.any isWord = false) : toBoundary next (c :: run) = (c :: run).reverse := by
  have hword : isWord c = true := by simp [isWord, Char.isAlphanum, hc]
  rw [toBoundary, if_pos (by rw [hword, hnext]; decide)]

theorem isBlank_of_isAddressChar (h : isAddressChar c = true) : isBlank c = false := by
  obtain hdigit | rfl : c.isDigit = true ∨ c = '.' := by simpa [isAddressChar] using h
  · have hspace := isSpace_of_isDigit hdigit
    simp only [isSpace, Bool.or_eq_false_iff, decide_eq_false_iff_not] at hspace
    simp [isBlank, hspace]
  · decide

theorem address_between {blank : Char → Bool} {addr rest : List Char} (hblank : blank ' ' = true)
    (hnot : ∀ c, isAddressChar c = true → blank c = false) (haddr : ∀ c ∈ addr, isAddressChar c)
    (hne : addr ≠ []) (hlast : (addr.getLast hne).isDigit = true) :
    (' ' :: (addr ++ ' ' :: rest)).dropWhile blank = addr ++ ' ' :: rest ∧
      (addr ++ ' ' :: rest).takeWhile isAddressChar = addr ∧
        (addr ++ ' ' :: rest).dropWhile isAddressChar = ' ' :: rest ∧
          ∃ last run, addr.reverse = last :: run ∧ last.isDigit = true := by
  have hspace : isAddressChar ' ' = false := by decide
  refine ⟨?_, ?_, ?_, addr.getLast hne, addr.dropLast.reverse, ?_, hlast⟩
  · obtain ⟨c, more, rfl⟩ := exists_cons_of_ne_nil hne
    rw [dropWhile_cons_of_pos hblank, cons_append, dropWhile_cons_of_neg]
    simp [hnot c (haddr c mem_cons_self)]
  · rw [takeWhile_append_of_pos haddr]
    simp [hspace]
  · rw [dropWhile_append_of_pos haddr]
    simp [hspace]
  · rw [← reverse_concat, dropLast_append_getLast hne]

theorem toList_sourceField : "ip4.src == ".toList =
    ['i', 'p', '4', '.', 's', 'r', 'c', ' ', '=', '=', ' '] ∧
      "ip4.src".toList = ['i', 'p', '4', '.', 's', 'r', 'c'] ∧ "==".toList = ['=', '='] := by
  decide

theorem sourceAt_address {addr rest : List Char} (haddr : ∀ c ∈ addr, isAddressChar c)
    (hne : addr ≠ []) (hlast : (addr.getLast hne).isDigit = true) :
    sourceAt ("ip4.src == ".toList ++ (addr ++ ' ' :: rest)) = addr := by
  obtain ⟨hpre, hfield, hequal⟩ := toList_sourceField
  obtain ⟨hsecond, htake, hdrop, last, run, hreverse, hdigit⟩ :=
    @address_between isBlank addr rest (by decide) (fun c => isBlank_of_isAddressChar) haddr hne
      hlast
  have hfirst (s : List Char) : (' ' :: '=' :: s).dropWhile isBlank = '=' :: s := by
    rw [dropWhile_cons_of_pos (by decide), dropWhile_cons_of_neg (by decide)]
  simp only [sourceAt, hpre, hfield, hequal, cons_append, nil_append,
    isPrefixOf_cons_cons_self, isPrefixOf_nil_left, if_true, drop_succ_cons,
    drop_zero, hfirst]
  have hnext : (' ' :: rest).head?.any isWord = false := by
    rw [List.head?_cons]
    decide
  rw [hsecond, htake, hdrop, hreverse, toBoundary_eq hdigit hnext, ← hreverse,
    reverse_reverse]

theorem findSource_of_sourceAt {found : List Char} (h : sourceAt s = found) (hne : found ≠ []) :
    findSource s = found := by
  cases s with
  | nil => exact absurd h.symm hne
  | cons c s =>
    rw [findSource, h]
    split
    · contradiction
    · rfl

theorem toList_source (eip vip port : String) :
    ("ip4.src == " ++ eip ++ " && ip4.dst == " ++ vip ++ port).toList =
      "ip4.src == ".toList ++ (eip.toList ++ ' ' :: ("&& ip4.dst == " ++ vip ++ port).toList) := by
  have hand : " && ip4.dst == " = " " ++ "&& ip4.dst == " := by decide
  have hblank : " ".toList = [' '] := by decide
  rw [hand]
  simp only [String.toList_append, hblank, append_assoc, cons_append, nil_append]

theorem matchExpr_allow (eip vip proto : String) (port : Int) :
    (allow eip vip proto port).matchExpr = "ip4.src == " ++ eip ++ " && ip4.dst == " ++ vip ++
      (" && " ++ proto ++ ".dst == " ++ toString port) := by
  simp only [allow, String.append_assoc]

theorem allowSource_allow {eip : String} (h : IsIPv4 eip) (vip proto : String) (port : Int) :
    allowSource (allow eip vip proto port).matchExpr = eip := by
  have haddr := isAddressChar_of_isIPv4 h
  obtain ⟨a, ha⟩ := h
  obtain ⟨n, hn, -⟩ := parseIPv4_of_parseAddr ha
  have hne : eip.toList ≠ [] := by
    intro hnil
    simp [hnil, parseAddr] at ha
  have hsource (rest : List Char) :
      sourceAt ("ip4.src == ".toList ++ (eip.toList ++ ' ' :: rest)) = eip.toList :=
    sourceAt_address haddr hne (isDigit_getLast_of_parseIPv4Fields hn hne)
  rw [allowSource, matchExpr_allow, toList_source, findSource_of_sourceAt (hsource _) hne,
    String.ofList_toList]

end Source

variable {acls : List Rule} {rule : Rule}

section Rules

variable {wanted : List Rule}

theorem exists_addRules (acls wanted : List Rule) : ∃ added, addRules acls wanted = acls ++ added ∧
    (∀ r ∈ added, r ∈ wanted) ∧ (∀ r ∈ added, r ∉ acls) ∧ added.Nodup ∧
    ∀ r ∈ wanted, r ∈ acls ++ added := by
  induction wanted generalizing acls with
  | nil => exact ⟨[], by simp [addRules], by simp, by simp, nodup_nil, by simp⟩
  | cons w wanted ih =>
    by_cases hw : w ∈ acls
    · obtain ⟨added, hadd, hsub, hnew, hnodup, hall⟩ := ih acls
      refine ⟨added, ?_, fun r hr => mem_cons_of_mem w (hsub r hr), hnew, hnodup, ?_⟩
      · rw [← hadd]
        simp [addRules, hw]
      · intro r hr
        obtain rfl | hr := mem_cons.mp hr
        · exact mem_append_left added hw
        · exact hall r hr
    · obtain ⟨added, hadd, hsub, hnew, hnodup, hall⟩ := ih (acls ++ [w])
      have hadd' : addRules acls (w :: wanted) = acls ++ w :: added := by
        rw [append_cons, ← hadd]
        simp [addRules, hw]
      refine ⟨w :: added, hadd', ?_, ?_, ?_, ?_⟩
      · intro r hr
        obtain rfl | hr := mem_cons.mp hr
        · exact mem_cons_self
        · exact mem_cons_of_mem w (hsub r hr)
      · intro r hr hmem
        obtain rfl | hr := mem_cons.mp hr
        · exact hw hmem
        · exact hnew r hr (mem_append_left [w] hmem)
      · refine nodup_cons.mpr ⟨fun hmem => ?_, hnodup⟩
        exact hnew w hmem (mem_append_right acls mem_cons_self)
      · intro r hr
        rw [append_cons]
        obtain rfl | hr := mem_cons.mp hr
        · exact mem_append_left added (mem_append_right acls mem_cons_self)
        · exact hall r hr

theorem addRules_eq_self (h : ∀ r ∈ wanted, r ∈ acls) : addRules acls wanted = acls := by
  induction wanted with
  | nil => rfl
  | cons w wanted ih =>
    have hrest := ih fun r hr => h r (mem_cons_of_mem w hr)
    rw [addRules, foldl_cons, if_pos (h w mem_cons_self)]
    exact hrest

variable {eip vip : String} {tcp udp : List Int}

theorem mem_allows : rule ∈ allows eip vip tcp udp ↔
    (∃ port ∈ tcp, port ≠ 0 ∧ allow eip vip "tcp" port = rule) ∨
      ∃ port ∈ udp, port ≠ 0 ∧ allow eip vip "udp" port = rule := by
  simp [allows, and_assoc]

theorem of_mem_allows (h : IsIPv4 eip) (hrule : rule ∈ allows eip vip tcp udp) :
    rule.priority = allowPriority ∧ allowSource rule.matchExpr = eip ∧ rule.action ≠ "drop" := by
  have hallow (proto : String) (port : Int) : (allow eip vip proto port).priority = allowPriority ∧
      allowSource (allow eip vip proto port).matchExpr = eip ∧
        (allow eip vip proto port).action ≠ "drop" :=
    ⟨rfl, allowSource_allow h vip proto port, by simp [allow]⟩
  obtain ⟨port, -, -, rfl⟩ | ⟨port, -, -, rfl⟩ := mem_allows.mp hrule <;> exact hallow _ _

theorem ne_empty_of_isIPv4 (h : IsIPv4 eip) : eip ≠ "" := by
  rintro rfl
  obtain ⟨a, ha⟩ := h
  simp [parseAddr] at ha

theorem isCovered_iff {address : String} : isCovered acls address = true ↔
    address ≠ "" ∧ ∃ rule ∈ acls, rule.priority = allowPriority ∧
      allowSource rule.matchExpr = address := by
  simp only [isCovered, any_eq_true, Bool.and_eq_true, decide_eq_true_eq]
  constructor
  · rintro ⟨rule, hrule, ⟨hpriority, hne⟩, rfl⟩
    exact ⟨hne, rule, hrule, hpriority, rfl⟩
  · rintro ⟨hne, rule, hrule, hpriority, rfl⟩
    exact ⟨rule, hrule, ⟨hpriority, hne⟩, rfl⟩

end Rules

section Pass

/-- What is relied on of the cluster: addresses are IPv4 addresses, and the ports of a
Service are not zero. -/
structure Sane (pass : Pass) : Prop where
  own : IsIPv4 pass.address
  eips : ∀ eips, pass.eips = some eips → ∀ eip ∈ eips, eip.isLive pass.subnetName →
    IsIPv4 eip.v4Ip
  ports : ∀ ns name service, pass.service ns name = some service →
    ∀ port ∈ service.ports, port.port ≠ 0

variable {pass : Pass} {live : Live} {address : String}

theorem mem_liveOf (h : liveOf pass = some live) : address ∈ live ↔ address = pass.address ∨
    ∃ eips, pass.eips = some eips ∧ ∃ eip ∈ eips, eip.isLive pass.subnetName ∧
      eip.v4Ip = address := by
  obtain ⟨found, hfound, rfl⟩ := map_eq_some_iff.mp h
  obtain ⟨eips, heips, rfl⟩ := map_eq_some_iff.mp hfound
  have hfold (items : List OvnEip) (start : Live) :
      address ∈ items.foldl (fun live eip => live.insert eip.v4Ip (tenantOfEIP eip)) start ↔
        address ∈ start ∨ ∃ eip ∈ items, eip.v4Ip = address := by
    induction items generalizing start with
    | nil => simp
    | cons eip items ih =>
      rw [foldl_cons, ih, AList.mem_insert, exists_mem_cons_iff, eq_comm (a := address)]
      tauto
  rw [AList.mem_insert, hfold]
  simp [heips, mem_filter, and_assoc]

theorem Sane.isIPv4 (h : Sane pass) (hlive : liveOf pass = some live) (haddress : address ∈ live) :
    IsIPv4 address := by
  obtain rfl | ⟨eips, heips, eip, hmem, hnat, rfl⟩ := (mem_liveOf hlive).mp haddress
  · exact h.own
  · exact h.eips eips heips eip hmem hnat

theorem Sane.backfill_ne_nil (h : Sane pass) (hrules : backfill pass live address = some rules) :
    rules ≠ [] := by
  simp only [backfill] at hrules
  split at hrules
  · contradiction
  · obtain ⟨⟨vip, tcp⟩, hshape, rfl⟩ := map_eq_some_iff.mp hrules
    simp only [controlPlaneShapeOf, bind_eq_bind, bind_eq_some_iff] at hshape
    obtain ⟨service, hservice, vip', -, hports⟩ := hshape
    split at hports
    · contradiction
    · next hne =>
      obtain ⟨port, more, hcons⟩ := exists_cons_of_ne_nil hne
      simp only [some.injEq, Prod.mk.injEq] at hports
      obtain ⟨-, rfl⟩ := hports
      have hmem : port ∈ (service.ports.filter fun port => port.protocol ≠ "UDP").map
          ServicePort.port := by
        rw [hcons]
        exact mem_cons_self
      obtain ⟨found, hfound, rfl⟩ := mem_map.mp hmem
      have hzero := h.ports _ _ service hservice found (mem_filter.mp hfound).1
      exact ne_nil_of_mem (mem_allows.mpr (.inl ⟨found.port, hmem, hzero, rfl⟩))

theorem of_mem_backfill (haddress : IsIPv4 address)
    (hrules : backfill pass live address = some rules) (hrule : rule ∈ rules) :
    rule.priority = allowPriority ∧ allowSource rule.matchExpr = address ∧
      rule.action ≠ "drop" := by
  simp only [backfill] at hrules
  split at hrules
  · contradiction
  · obtain ⟨⟨vip, tcp⟩, -, rfl⟩ := map_eq_some_iff.mp hrules
    exact of_mem_allows haddress hrule

/-- Some allow is keyed on the address. -/
def Covers (acls : List Rule) (address : String) : Prop :=
  ∃ rule ∈ acls, rule.priority = allowPriority ∧ allowSource rule.matchExpr = address

theorem Covers.mono {acls' : List Rule} (h : Covers acls address)
    (hsub : ∀ rule ∈ acls, rule ∈ acls') : Covers acls' address := by
  obtain ⟨rule, hrule, hallow⟩ := h
  exact ⟨rule, hsub rule hrule, hallow⟩

theorem mem_addRules {wanted : List Rule} :
    rule ∈ addRules acls wanted ↔ rule ∈ acls ∨ rule ∈ wanted := by
  obtain ⟨added, hadd, hsub, -, -, hall⟩ := exists_addRules acls wanted
  rw [hadd]
  constructor
  · exact fun h => (mem_append.mp h).imp_right (hsub rule)
  · exact fun h => h.elim (mem_append_left added) (hall rule)

variable (pass) (existing : List Rule)

/-- The list without stale allows. -/
def kept : List Rule := pruneStaleAllows existing (liveOf pass)

/-- With the tenant's own allows. -/
def permitted : List Rule := addRules (kept pass existing) (wanted pass)

/-- Who has no allow then. -/
def missing : List String := addressesWithoutAllow (permitted pass existing) (liveOf pass)

/-- The addresses that no allow can be written for. -/
def unprotected : List String :=
  (backfillAllows pass (missing pass existing) ((liveOf pass).getD ∅)).2

/-- With the allows of others. -/
def filled : List Rule :=
  addRules (permitted pass existing)
    (backfillAllows pass (missing pass existing) ((liveOf pass).getD ∅)).1

variable {pass existing}

theorem ensureTransitACLs_eq : ensureTransitACLs pass existing =
    if unprotected pass existing = [] ∧ hasDeny (filled pass existing) = false then
      (deny pass.transitCIDR pass.excludeIPs).map fun baseline =>
        (filled pass existing ++ [baseline], unprotected pass existing)
    else some (filled pass existing, unprotected pass existing) := by
  by_cases h : unprotected pass existing = [] ∧ hasDeny (filled pass existing) = false
  · rw [if_pos h]
    refine (if_pos h).trans ?_
    cases deny pass.transitCIDR pass.excludeIPs <;> rfl
  · rw [if_neg h]
    exact if_neg h

theorem of_deny {transitCIDR : String} {excludeIPs : List String}
    (h : deny transitCIDR excludeIPs = some rule) :
    rule.action = "drop" ∧ rule.priority = denyPriority := by
  obtain ⟨ranges, -, hrule⟩ := bind_eq_some_iff.mp h
  cases hrule
  exact ⟨rfl, rfl⟩

theorem kept_eq : kept pass existing =
    existing.filter fun rule => !(liveOf pass).any (isStale · rule) := by
  cases h : liveOf pass <;> simp [kept, pruneStaleAllows, h]

theorem mem_missing (hlive : liveOf pass = some live) : address ∈ missing pass existing ↔
      address ∈ live ∧ isCovered (permitted pass existing) address = false := by
  simp [missing, hlive, addressesWithoutAllow, AList.mem_keys]

theorem mem_unprotected (hlive : liveOf pass = some live) : address ∈ unprotected pass existing ↔
      address ∈ missing pass existing ∧ backfill pass live address = none := by
  simp [unprotected, backfillAllows, hlive]

/-- Where the addresses are not known, that alone keeps the deny away. -/
theorem unprotected_of_none (hlive : liveOf pass = none) :
    unprotected pass existing = [unreadable] := by
  simp [unprotected, backfillAllows, missing, addressesWithoutAllow, hlive, backfill]

theorem mem_filled (hlive : liveOf pass = some live) :
    rule ∈ filled pass existing ↔ rule ∈ kept pass existing ∨ rule ∈ wanted pass ∨
      ∃ address ∈ missing pass existing, ∃ rules, backfill pass live address = some rules ∧
        rule ∈ rules := by
  have hbackfill (address : String) : rule ∈ (backfill pass live address).getD [] ↔
      ∃ rules, backfill pass live address = some rules ∧ rule ∈ rules := by
    cases backfill pass live address <;> simp
  rw [filled, mem_addRules, permitted, mem_addRules, or_assoc]
  simp only [backfillAllows, hlive, getD_some, mem_flatMap, hbackfill]

/-- Without known addresses nobody's allows are written but the tenant's own. -/
theorem filled_of_none (hlive : liveOf pass = none) :
    filled pass existing = permitted pass existing := by
  simp [filled, backfillAllows, missing, addressesWithoutAllow, hlive, backfill, addRules]

theorem Sane.not_drop (h : Sane pass) (hrule : rule ∈ filled pass existing)
    (hnew : rule ∉ kept pass existing) : rule.action ≠ "drop" := by
  cases hlive : liveOf pass with
  | none =>
    rw [filled_of_none hlive, permitted, mem_addRules] at hrule
    exact (of_mem_allows h.own (hrule.resolve_left hnew)).2.2
  | some live =>
    obtain hkept | hown | ⟨address, hmissing, rules, hrules, hmem⟩ := (mem_filled hlive).mp hrule
    · exact absurd hkept hnew
    · exact (of_mem_allows h.own hown).2.2
    · have haddress := h.isIPv4 hlive ((mem_missing hlive).mp hmissing).1
      exact (of_mem_backfill haddress hrules hmem).2.2

/-- Where nobody is left unprotected, every address on the plane has an allow. -/
theorem Sane.covers (h : Sane pass) (hlive : liveOf pass = some live)
    (hnone : unprotected pass existing = []) (haddress : address ∈ live) :
    Covers (filled pass existing) address := by
  cases hcovered : isCovered (permitted pass existing) address with
  | true =>
    obtain ⟨-, hcovers⟩ := isCovered_iff.mp hcovered
    exact Covers.mono hcovers fun rule hrule => mem_addRules.mpr (.inl hrule)
  | false =>
    have hmissing := (mem_missing hlive).mpr ⟨haddress, hcovered⟩
    cases hrules : backfill pass live address with
    | none =>
      have hmem := (mem_unprotected hlive).mpr ⟨hmissing, hrules⟩
      simp [hnone] at hmem
    | some rules =>
      obtain ⟨rule, more, rfl⟩ := exists_cons_of_ne_nil (h.backfill_ne_nil hrules)
      have hallow := of_mem_backfill (h.isIPv4 hlive haddress) hrules mem_cons_self
      exact ⟨rule, (mem_filled hlive).mpr (.inr (.inr ⟨address, hmissing, _, hrules,
        mem_cons_self⟩)), hallow.1, hallow.2.1⟩

theorem exists_filled : ∃ added, filled pass existing = kept pass existing ++ added ∧
    added.Nodup ∧ ∀ rule ∈ added, rule ∉ kept pass existing := by
  obtain ⟨own, hown, -, hownNew, hownNodup, -⟩ := exists_addRules (kept pass existing) (wanted pass)
  obtain ⟨others, hothers, -, hothersNew, hothersNodup, -⟩ :=
    exists_addRules (permitted pass existing)
      (backfillAllows pass (missing pass existing) ((liveOf pass).getD ∅)).1
  have hpermitted : permitted pass existing = kept pass existing ++ own := hown
  rw [hpermitted] at hothersNew
  refine ⟨own ++ others, ?_, ?_, ?_⟩
  · rw [filled, hothers, hpermitted, append_assoc]
  · refine List.Nodup.append hownNodup hothersNodup fun rule ho hr => ?_
    exact hothersNew rule hr (mem_append_right _ ho)
  · intro rule hrule hkept
    obtain ho | hr := mem_append.mp hrule
    · exact hownNew rule ho hkept
    · exact hothersNew rule hr (mem_append_left own hkept)

theorem mem_liveOf_own (hlive : liveOf pass = some live) : pass.address ∈ live :=
  (mem_liveOf hlive).mpr (.inl rfl)

theorem isStale_eq_false (h : rule.priority = allowPriority → allowSource rule.matchExpr ∈ live) :
    isStale live rule = false := by
  by_cases hpriority : rule.priority = allowPriority
  · simp [isStale, h hpriority]
  · simp [isStale, hpriority]

theorem Sane.not_stale (h : Sane pass) (hlive : liveOf pass = some live)
    (hrule : rule ∈ filled pass existing) : isStale live rule = false := by
  obtain hkept | hown | ⟨address, hmissing, rules, hrules, hmem⟩ := (mem_filled hlive).mp hrule
  · rw [kept_eq, hlive] at hkept
    simpa using (mem_filter.mp hkept).2
  · refine isStale_eq_false fun _ => ?_
    rw [(of_mem_allows h.own hown).2.1]
    exact mem_liveOf_own hlive
  · have haddress := ((mem_missing hlive).mp hmissing).1
    refine isStale_eq_false fun _ => ?_
    rw [(of_mem_backfill (h.isIPv4 hlive haddress) hrules hmem).2.1]
    exact haddress

/-- An allow that was written for someone else leaves an address without one. -/
theorem Sane.not_covers (h : Sane pass) (hlive : liveOf pass = some live)
    (haddress : address ∈ unprotected pass existing) : ¬Covers (filled pass existing) address := by
  obtain ⟨hmissing, hnone⟩ := (mem_unprotected hlive).mp haddress
  obtain ⟨hmem, hcovered⟩ := (mem_missing hlive).mp hmissing
  rintro ⟨rule, hrule, hpriority, rfl⟩
  rw [filled, mem_addRules] at hrule
  obtain hbefore | hbackfilled := hrule
  · have hne := ne_empty_of_isIPv4 (h.isIPv4 hlive hmem)
    have htrue := isCovered_iff.mpr ⟨hne, rule, hbefore, hpriority, rfl⟩
    simp [htrue] at hcovered
  · simp only [backfillAllows, hlive, getD_some, mem_flatMap] at hbackfilled
    obtain ⟨other, hother, hrule⟩ := hbackfilled
    have hlast := ((mem_missing hlive).mp hother).1
    cases hrules : backfill pass live other with
    | none => simp [hrules] at hrule
    | some rules =>
      rw [hrules, getD_some] at hrule
      have hsource := (of_mem_backfill (h.isIPv4 hlive hlast) hrules hrule).2.1
      simp [hsource, hrules] at hnone

theorem pairwise_missing (hlive : liveOf pass = some live) :
    (missing pass existing).Pairwise (· ≤ ·) := by
  rw [missing, hlive, addressesWithoutAllow]
  exact pairwise_insertionSort _ _

theorem nodup_missing (hlive : liveOf pass = some live) : (missing pass existing).Nodup := by
  rw [missing, hlive, addressesWithoutAllow]
  exact (perm_insertionSort _ _).nodup_iff.mpr (live.nodupKeys.filter _)

/-- The list holds what a pass adds before the deny, and no more than the deny besides. -/
structure Settled (pass : Pass) (existing acls : List Rule) : Prop where
  before : ∀ rule ∈ filled pass existing, rule ∈ acls
  rest : ∀ rule ∈ acls, rule ∈ filled pass existing ∨ rule.priority = denyPriority

section

variable (h : Sane pass) (hset : Settled pass existing acls)

include h hset

theorem Settled.kept_eq_self : kept pass acls = acls := by
  rw [kept_eq, filter_eq_self]
  intro rule hrule
  cases hlive : liveOf pass with
  | none => rfl
  | some live =>
    obtain hfilled | hdeny := hset.rest rule hrule
    · simp [h.not_stale hlive hfilled]
    · have hother : denyPriority ≠ allowPriority := by decide
      simp [isStale, hdeny, hother]

theorem Settled.permitted_eq_self : permitted pass acls = acls := by
  rw [permitted, hset.kept_eq_self h]
  refine addRules_eq_self fun rule hrule => hset.before rule ?_
  rw [filled, mem_addRules, permitted, mem_addRules]
  exact .inl (.inr hrule)

theorem Settled.mem_missing_iff (hlive : liveOf pass = some live) :
    address ∈ missing pass acls ↔ address ∈ unprotected pass existing := by
  rw [mem_missing hlive, hset.permitted_eq_self h]
  constructor
  · rintro ⟨hmem, hcovered⟩
    have hnot : ¬Covers (filled pass existing) address := by
      rintro ⟨rule, hrule, hallow⟩
      have hne := ne_empty_of_isIPv4 (h.isIPv4 hlive hmem)
      have htrue := isCovered_iff.mpr ⟨hne, rule, hset.before rule hrule, hallow⟩
      simp [htrue] at hcovered
    have hmissing : address ∈ missing pass existing := by
      refine (mem_missing hlive).mpr ⟨hmem, ?_⟩
      rw [Bool.eq_false_iff]
      intro htrue
      obtain ⟨-, hcovers⟩ := isCovered_iff.mp htrue
      exact hnot (Covers.mono hcovers fun rule hrule => mem_addRules.mpr (.inl hrule))
    refine (mem_unprotected hlive).mpr ⟨hmissing, ?_⟩
    cases hrules : backfill pass live address with
    | none => rfl
    | some rules =>
      obtain ⟨rule, more, rfl⟩ := exists_cons_of_ne_nil (h.backfill_ne_nil hrules)
      have hallow := of_mem_backfill (h.isIPv4 hlive hmem) hrules mem_cons_self
      refine absurd ⟨rule, (mem_filled hlive).mpr (.inr (.inr ⟨address, hmissing, _, hrules,
        mem_cons_self⟩)), hallow.1, hallow.2.1⟩ hnot
  · intro hunprotected
    have hmem := ((mem_missing hlive).mp ((mem_unprotected hlive).mp hunprotected).1).1
    refine ⟨hmem, ?_⟩
    rw [Bool.eq_false_iff]
    intro htrue
    obtain ⟨-, rule, hrule, hpriority, hsource⟩ := isCovered_iff.mp htrue
    obtain hfilled | hdeny := hset.rest rule hrule
    · exact h.not_covers hlive hunprotected ⟨rule, hfilled, hpriority, hsource⟩
    · rw [hdeny] at hpriority
      exact absurd hpriority (by decide)

theorem Settled.missing_eq (hlive : liveOf pass = some live) :
    missing pass acls = unprotected pass existing := by
  have hfilter : unprotected pass existing =
      (missing pass existing).filter fun address => (backfill pass live address).isNone := by
    rw [unprotected, hlive, backfillAllows, getD_some]
  have hpairwise : (unprotected pass existing).Pairwise (· ≤ ·) := by
    rw [hfilter]
    exact (pairwise_missing hlive).filter _
  have hnodup : (unprotected pass existing).Nodup := by
    rw [hfilter]
    exact (nodup_missing hlive).filter _
  have hperm : (missing pass acls).Perm (unprotected pass existing) :=
    (perm_ext_iff_of_nodup (nodup_missing hlive) hnodup).mpr fun _ =>
      hset.mem_missing_iff h hlive
  exact hperm.eq_of_pairwise' (pairwise_missing hlive) hpairwise

theorem Settled.unprotected_eq : unprotected pass acls = unprotected pass existing := by
  cases hlive : liveOf pass with
  | none => rw [unprotected_of_none hlive, unprotected_of_none hlive]
  | some live =>
    have hall : ∀ address ∈ unprotected pass existing,
        (backfill pass live address).isNone = true := fun address hmem => by
      rw [((mem_unprotected hlive).mp hmem).2]
      rfl
    rw [unprotected, hset.missing_eq h hlive, hlive, getD_some, backfillAllows]
    exact filter_eq_self.mpr hall

theorem Settled.filled_eq_self : filled pass acls = acls := by
  cases hlive : liveOf pass with
  | none => rw [filled_of_none hlive, hset.permitted_eq_self h]
  | some live =>
    have hnone : (unprotected pass existing).flatMap
        (fun address => (backfill pass live address).getD []) = [] := by
      rw [flatMap_eq_nil_iff]
      intro address hmem
      rw [((mem_unprotected hlive).mp hmem).2, getD_none]
    rw [filled, hset.permitted_eq_self h, hset.missing_eq h hlive, hlive, getD_some, backfillAllows]
    change addRules acls ((unprotected pass existing).flatMap fun address =>
      (backfill pass live address).getD []) = acls
    rw [hnone]
    rfl

/-- A pass on a settled list writes it again, unless the deny is still to come. -/
theorem Settled.again (hdeny : ¬(unprotected pass existing = [] ∧ hasDeny acls = false)) :
    ensureTransitACLs pass acls = some (acls, unprotected pass existing) := by
  rw [ensureTransitACLs_eq, hset.unprotected_eq h, hset.filled_eq_self h, if_neg hdeny]

end

/-- The list that is written is what a pass adds before the deny, and the deny if it goes in: then
nobody is without an allow, and there was none. -/
theorem exists_written (hpass : ensureTransitACLs pass existing = some (acls, left)) :
    left = unprotected pass existing ∧
      ((acls = filled pass existing ∧
          ¬(unprotected pass existing = [] ∧ hasDeny (filled pass existing) = false)) ∨
        ∃ baseline, deny pass.transitCIDR pass.excludeIPs = some baseline ∧
          acls = filled pass existing ++ [baseline] ∧ unprotected pass existing = [] ∧
            hasDeny (filled pass existing) = false) := by
  rw [ensureTransitACLs_eq] at hpass
  by_cases hdeny : unprotected pass existing = [] ∧ hasDeny (filled pass existing) = false
  · rw [if_pos hdeny] at hpass
    obtain ⟨baseline, hbaseline, hwritten⟩ := map_eq_some_iff.mp hpass
    cases hwritten
    exact ⟨rfl, .inr ⟨baseline, hbaseline, rfl, hdeny⟩⟩
  · rw [if_neg hdeny] at hpass
    cases hpass
    exact ⟨rfl, .inl ⟨rfl, hdeny⟩⟩

theorem exists_live_of_unprotected (h : unprotected pass existing = []) :
    ∃ live, liveOf pass = some live := by
  cases hlive : liveOf pass with
  | none => simp [unprotected_of_none hlive] at h
  | some live => exact ⟨live, rfl⟩

theorem hasDeny_of_mem (hrule : rule ∈ acls) (haction : rule.action = "drop")
    (hpriority : rule.priority = denyPriority) : hasDeny acls = true :=
  any_eq_true.mpr ⟨rule, hrule, by simp [haction, hpriority]⟩

theorem Sane.again (h : Sane pass) (hpass : ensureTransitACLs pass existing = some (acls, left)) :
    ensureTransitACLs pass acls = some (acls, left) := by
  obtain ⟨rfl, ⟨rfl, hdeny⟩ | ⟨baseline, hbaseline, rfl, -⟩⟩ := exists_written hpass
  · exact Settled.again h ⟨fun rule => id, fun rule => .inl⟩ hdeny
  · obtain ⟨haction, hpriority⟩ := of_deny hbaseline
    apply Settled.again h
    · refine ⟨fun rule => mem_append_left _, fun rule hrule => ?_⟩
      obtain hrule | hmem := mem_append.mp hrule
      · exact .inl hrule
      · obtain rfl := mem_singleton.mp hmem
        exact .inr hpriority
    · rintro ⟨-, hfalse⟩
      simp [hasDeny, haction, hpriority] at hfalse

/-- A drop that a pass adds is the deny, and every address on the plane has an allow then. -/
theorem Sane.covers_of_drop (h : Sane pass)
    (hpass : ensureTransitACLs pass existing = some (acls, left)) (hrule : rule ∈ acls)
    (hnew : rule ∉ kept pass existing) (hdrop : rule.action = "drop") :
    ∃ live, liveOf pass = some live ∧ ∀ address ∈ live, Covers acls address := by
  obtain ⟨-, ⟨rfl, -⟩ | ⟨baseline, -, rfl, hnone, -⟩⟩ := exists_written hpass
  · exact absurd hdrop (h.not_drop hrule hnew)
  · obtain ⟨live, hlive⟩ := exists_live_of_unprotected hnone
    refine ⟨live, hlive, fun address haddress => ?_⟩
    exact (h.covers hlive hnone haddress).mono fun rule => mem_append_left _

/-- A pass leaves what it does not call stale, adds nothing twice, denies only where every
address on the plane has an allow, drops and denies nothing where the addresses cannot be
read, and has nothing to do when it is made again. -/
theorem baseline_silences_nobody (pass : Pass) (existing : List Rule) (h : Sane pass)
    {acls : List Rule} {left : List String}
    (hpass : ensureTransitACLs pass existing = some (acls, left)) :
    ∃ added, acls = (existing.filter fun rule => !(liveOf pass).any (isStale · rule)) ++ added ∧
      (∀ rule ∈ added, rule.action = "drop" → ∃ eips, pass.eips = some eips ∧
        Covers acls pass.address ∧
          ∀ eip ∈ eips, eip.isLive pass.subnetName → Covers acls eip.v4Ip) ∧
      (pass.eips = none → acls = existing ++ added ∧ ∀ rule ∈ added, rule.action ≠ "drop") ∧
      added.Nodup ∧
      (∀ rule ∈ added, rule ∉ existing.filter fun rule =>
        !(liveOf pass).any (isStale · rule)) ∧
      ensureTransitACLs pass acls = some (acls, left) := by
  obtain ⟨added, hadded, hnodup, hnew⟩ : ∃ added,
      filled pass existing = kept pass existing ++ added ∧ added.Nodup ∧
        ∀ rule ∈ added, rule ∉ kept pass existing := exists_filled
  have hnotDrop : ∀ rule ∈ added, rule.action ≠ "drop" := fun rule hrule =>
    h.not_drop (hadded ▸ mem_append_right _ hrule) (hnew rule hrule)
  have hunread : pass.eips = none → liveOf pass = none := fun heips => by
    simp [liveOf, liveTransitAddresses, heips]
  have hcovers : ∀ rule ∈ acls, rule ∉ kept pass existing → rule.action = "drop" →
      ∃ eips, pass.eips = some eips ∧ Covers acls pass.address ∧
        ∀ eip ∈ eips, eip.isLive pass.subnetName → Covers acls eip.v4Ip := by
    intro rule hrule hfresh hdrop
    obtain ⟨live, hlive, hall⟩ := h.covers_of_drop hpass hrule hfresh hdrop
    obtain ⟨eips, heips⟩ : ∃ eips, pass.eips = some eips := by
      cases heips : pass.eips with
      | none => simp [hunread heips] at hlive
      | some eips => exact ⟨eips, rfl⟩
    refine ⟨eips, heips, hall _ (mem_liveOf_own hlive), fun eip hmem hnat => ?_⟩
    exact hall _ ((mem_liveOf hlive).mpr (.inr ⟨eips, heips, eip, hmem, hnat, rfl⟩))
  have hagain := h.again hpass
  rw [← kept_eq]
  obtain ⟨-, ⟨rfl, -⟩ | ⟨baseline, hbaseline, rfl, hnone, hfalse⟩⟩ := exists_written hpass
  · refine ⟨added, hadded, fun rule hrule hdrop => absurd hdrop (hnotDrop rule hrule), ?_, hnodup,
      hnew, hagain⟩
    intro heips
    refine ⟨?_, hnotDrop⟩
    rw [hadded, kept_eq, hunread heips]
    simp
  · obtain ⟨haction, hpriority⟩ := of_deny hbaseline
    have hfresh : baseline ∉ filled pass existing := by
      intro hmem
      simp [hasDeny_of_mem hmem haction hpriority] at hfalse
    have hnew' : ∀ rule ∈ added ++ [baseline], rule ∉ kept pass existing := by
      intro rule hrule hkept
      obtain hrule | hmem := mem_append.mp hrule
      · exact hnew rule hrule hkept
      · obtain rfl := mem_singleton.mp hmem
        exact hfresh (hadded ▸ mem_append_left _ hkept)
    refine ⟨added ++ [baseline], ?_, ?_, ?_, ?_, hnew', hagain⟩
    · rw [hadded, append_assoc]
    · intro rule hrule hdrop
      refine hcovers rule ?_ (hnew' rule hrule) hdrop
      rw [hadded, append_assoc]
      exact mem_append_right _ hrule
    · intro heips
      obtain ⟨live, hlive⟩ := exists_live_of_unprotected hnone
      simp [hunread heips] at hlive
    · refine List.Nodup.append hnodup (nodup_singleton baseline) fun rule hrule hmem => ?_
      obtain rfl := mem_singleton.mp hmem
      exact hfresh (hadded ▸ mem_append_right _ hrule)

end Pass

/-- A tenant that shares the plane with another, for whom nothing is written yet. -/
def shared : Pass where
  tenant := "a"
  os := "linux"
  hostAPIPublished := false
  subnetName := "transit"
  transitCIDR := "10.0.1.0/29"
  address := "10.0.1.2"
  vip := "10.96.0.10"
  eips := some [⟨"cpt-eip-b", "b", "transit", "nat", "10.0.1.3"⟩]
  service := fun ns name =>
    if ns = "tenant-b" ∧ name = "b-cp-lb" then some ⟨["10.96.0.11"], [⟨"TCP", 6443⟩]⟩ else none
  ntpNamespace := "ntp"
  excludeIPs := ["10.0.1.1"]

theorem sane_shared : Sane shared where
  own := ⟨_, rfl⟩
  eips := by
    rintro eips heips eip hmem -
    cases heips
    obtain rfl := mem_singleton.mp hmem
    exact ⟨_, rfl⟩
  ports := by
    intro ns name service hservice port hport
    simp only [shared] at hservice
    split at hservice
    · cases hservice
      obtain rfl := mem_singleton.mp hport
      decide
    · contradiction

theorem baseline_silences_nobody_shared : ∃ acls left,
    ensureTransitACLs shared [] = some (acls, left) ∧
      (∃ rule ∈ acls, rule.action = "drop" ∧ rule.priority = denyPriority) ∧
        Covers acls "10.0.1.2" ∧ Covers acls "10.0.1.3" ∧
          ensureTransitACLs shared acls = some (acls, left) := by
  have hrun : (ensureTransitACLs shared []).map (fun written => hasDeny written.1) = some true := by
    decide +kernel
  obtain ⟨⟨acls, left⟩, hpass, hdeny⟩ := map_eq_some_iff.mp hrun
  obtain ⟨rule, hrule, hdrop⟩ := any_eq_true.mp hdeny
  simp only [Bool.and_eq_true, decide_eq_true_eq] at hdrop
  obtain ⟨added, hadded, hcovers, -, -, -, hagain⟩ :=
    baseline_silences_nobody shared [] sane_shared hpass
  have hnew : rule ∈ added := by simpa [hadded] using hrule
  obtain ⟨eips, heips, hown, hothers⟩ := hcovers rule hnew hdrop.1
  cases heips
  exact ⟨acls, left, hpass, ⟨rule, hrule, hdrop⟩, hown, hothers _ mem_cons_self (by decide), hagain⟩

end Transit
