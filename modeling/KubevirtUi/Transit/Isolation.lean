import KubevirtUi.Ovn.Match
import KubevirtUi.Transit.Baseline
import KubevirtUi.Transit.Ranges

/-!
# What the plane lets through

Under the allows of all tenants and the drop beneath them, a packet from an address that can be
handed out passes where its tenant may send it, and nowhere else. The addresses that are excluded
from the subnet are not touched by the drop.

An entry of the exclude list that is a range of IPv6 addresses makes the arithmetic of ranges
panic. Then there is no drop at all.
-/

namespace Transit

open Go Go.Netip Acl Ovn List
open Option hiding map_id'

/-- A tenant's address on the plane, its control plane, and the ports that it needs there. -/
structure Tenant where
  eip : BitVec 32
  vip : BitVec 32
  tcp : List Int
  udp : List Int

namespace Tenant

def ports (tenant : Tenant) : Protocol → List Int
  | .tcp => tenant.tcp
  | .udp => tenant.udp

def allows (tenant : Tenant) : List Rule :=
  Transit.allows (addrString (.v4 tenant.eip)) (addrString (.v4 tenant.vip)) tenant.tcp tenant.udp

/-- It goes from the tenant's own address to its own control plane, on one of its ports. A port of
zero is none. -/
def MaySend (tenant : Tenant) (packet : Packet) : Prop :=
  tenant.eip = packet.source ∧ tenant.vip = packet.destination ∧
    ∃ protocol port, packet.target = some (protocol, port) ∧ port ≠ 0 ∧
      (port.toNat : Int) ∈ tenant.ports protocol

end Tenant

def planeRules (tenants : List Tenant) (denyRule : Rule) : List Rule :=
  tenants.flatMap Tenant.allows ++ [denyRule]

/-- The address is in one of the ranges. -/
def InRanges (ranges : List String) (x : BitVec 32) : Prop :=
  ∃ range ∈ ranges, inCIDR (.v4 x) range = true

/-- The address can be handed out: it is neither the subnet's own nor excluded. -/
def Allocatable (network : Block 32) (excludeIPs : List String) (x : BitVec 32) : Prop :=
  network.Contains x ∧ x ≠ network.masked.base ∧ ∀ entry ∈ excludeIPs, ¬Excludes entry x

/-- The ranges have what can be handed out, and the rules tell tenants apart. -/
structure Separates (network : Block 32) (excludeIPs ranges : List String) (tenants : List Tenant)
    (rules : List Rule) : Prop where
  inRanges : ∀ x, Allocatable network excludeIPs x → InRanges ranges x
  passes_iff : ∀ packet, InRanges ranges packet.source →
    (passes rules packet = true ↔ ∃ tenant ∈ tenants, tenant.MaySend packet)
  excluded : ∀ packet, network.Contains packet.source →
    (∃ entry ∈ excludeIPs, Excludes entry packet.source) → passes rules packet = true

def Isolated (cidr : String) (network : Block 32) (excludeIPs : List String)
    (tenants : List Tenant) : Prop :=
  ∃ ranges denyRule, allocatableRanges cidr excludeIPs = some ranges ∧
    deny cidr excludeIPs = some denyRule ∧
      Separates network excludeIPs ranges tenants (planeRules tenants denyRule)

/-- An entry that is a range, its ends in order, one of which is no IPv4 address. -/
def Stops (entry : String) : Prop :=
  ∃ first last low high, cutChars "..".toList (trimSpace entry).toList = some (first, last) ∧
    parseAddrZone (trimChars first) = some low ∧ parseAddrZone (trimChars last) = some high ∧
      ¬Backwards (trimChars first) (trimChars last) low high ∧
      (toUint low = none ∨ toUint high = none)

variable {packet : Packet} {cidr : String} {excludeIPs : List String} {bs : List (Block 32)}

section Allow

variable {eip vip : BitVec 32} {protocol : Protocol} {port : Int}

/-- The text that a port's protocol has in an allow. -/
def protocolText : Protocol → String
  | .tcp => "tcp"
  | .udp => "udp"

theorem words_allow : words (allow (addrString (.v4 eip)) (addrString (.v4 vip))
      (protocolText protocol) port).matchExpr.toList =
    ["&&".toList].intercalate [["ip4.src".toList, "==".toList, formatIPv4 eip],
      ["ip4.dst".toList, "==".toList, formatIPv4 vip],
      [protocol.portField.toList, "==".toList, (toString port).toList]] := by
  have htext : (allow (addrString (.v4 eip)) (addrString (.v4 vip)) (protocolText protocol)
      port).matchExpr.toList =
      "ip4.src".toList ++ ' ' :: ("==".toList ++ ' ' :: (formatIPv4 eip ++ ' ' ::
        ("&&".toList ++ ' ' :: ("ip4.dst".toList ++ ' ' :: ("==".toList ++ ' ' ::
          (formatIPv4 vip ++ ' ' :: ("&&".toList ++ ' ' :: (protocol.portField.toList ++ ' ' ::
            ("==".toList ++ ' ' :: (toString port).toList))))))))) := by
    have hsrc : "ip4.src == ".toList = "ip4.src".toList ++ ' ' :: ("==".toList ++ [' ']) := rfl
    have hdst : " && ip4.dst == ".toList = ' ' :: ("&&".toList ++ ' ' :: ("ip4.dst".toList ++
      ' ' :: ("==".toList ++ [' ']))) := rfl
    have hand : " && ".toList = ' ' :: ("&&".toList ++ [' ']) := rfl
    have hport : (protocolText protocol).toList ++ ".dst == ".toList =
        protocol.portField.toList ++ ' ' :: ("==".toList ++ [' ']) := by
      cases protocol <;> rfl
    have haddr (a : BitVec 32) : (addrString (.v4 a)).toList = formatIPv4 a :=
      String.toList_ofList
    rw [allow]
    simp only [String.toList_append, haddr, hsrc, hdst, hand, append_assoc, cons_append, nil_append]
    rw [← append_assoc, hport]
    simp only [append_assoc, cons_append, nil_append]
  have hsrc : words "ip4.src".toList = ["ip4.src".toList] := by decide
  have hdst : words "ip4.dst".toList = ["ip4.dst".toList] := by decide
  have heq : words "==".toList = ["==".toList] := by decide
  have hand : words "&&".toList = ["&&".toList] := by decide
  have hport : words protocol.portField.toList = [protocol.portField.toList] := by
    cases protocol <;> decide
  rw [htext, words_blank hsrc, words_blank heq, words_blank (words_formatIPv4 eip),
    words_blank hand, words_blank hdst, words_blank heq, words_blank (words_formatIPv4 vip),
    words_blank hand, words_blank hport, words_blank heq, words_toString]
  rfl

theorem parseMatch_allow : parseMatch (allow (addrString (.v4 eip)) (addrString (.v4 vip))
      (protocolText protocol) port).matchExpr =
    if 0 ≤ port then some [.source [⟨eip, 32, Nat.le_refl 32⟩],
      .destination [⟨vip, 32, Nat.le_refl 32⟩], .port protocol [port.toNat]] else none := by
  have haddr (a : BitVec 32) : formatIPv4 a ≠ "&&".toList := fun h =>
    foreign_and.not_mem_formatIPv4 a (h ▸ mem_cons_self)
  have hnumber : (toString port).toList ≠ "&&".toList := fun h => by
    have hmem : '&' ∈ (toString port).toList := h ▸ mem_cons_self
    exact (isDigit_or_minus_of_mem_toString hmem).elim (absurd · (by decide)) (absurd · (by decide))
  have hfield : protocol.portField.toList ≠ "&&".toList := by cases protocol <;> decide
  rw [parseMatch_eq words_allow (cons_ne_nil _ _)]
  · have hone (c : List Char) : constants [c] = some [c] := rfl
    simp only [mapM_cons, mapM_nil, comparison_source (hone _),
      comparison_destination (hone _), comparison_port protocol (hone _), readNetwork_formatIPv4,
      parseBits_toString]
    split <;> rfl
  · have hgroup (field value : List Char) (hfield : field ≠ "&&".toList)
        (hvalue : value ≠ "&&".toList) : "&&".toList ∉ [field, "==".toList, value] := by
      have heq : "&&".toList ≠ "==".toList := by decide
      rw [mem_cons, mem_cons, mem_singleton, not_or, not_or]
      exact ⟨hfield.symm, heq, hvalue.symm⟩
    rw [forall_mem_cons, forall_mem_cons, forall_mem_singleton]
    exact ⟨hgroup _ _ (by decide) (haddr eip), hgroup _ _ (by decide) (haddr vip),
      hgroup _ _ hfield hnumber⟩

theorem contains_address {a x : BitVec 32} : Block.Contains ⟨a, 32, Nat.le_refl 32⟩ x ↔ a = x :=
  (contains_iff_of_single rfl).trans eq_comm

theorem matchesPacket_allow : matchesPacket packet (allow (addrString (.v4 eip))
      (addrString (.v4 vip)) (protocolText protocol) port) = true ↔
    eip = packet.source ∧ vip = packet.destination ∧
      ∃ dport : BitVec 16, packet.target = some (protocol, dport) ∧ (dport.toNat : Int) = port := by
  have hdirection : (allow (addrString (.v4 eip)) (addrString (.v4 vip))
      (protocolText protocol) port).direction = "from-lport" := rfl
  rw [matchesPacket, parseMatch_allow, hdirection, decide_eq_true rfl, Bool.true_and]
  by_cases hport : 0 ≤ port
  · rw [if_pos hport]
    simp only [any_some, all_cons, all_nil, Comparison.holds, any_cons,
      any_nil, Bool.or_false, Bool.and_true, Bool.and_eq_true, decide_eq_true_iff,
      contains_address]
    refine and_congr_right fun _ => and_congr_right fun _ => ?_
    cases packet.target with
    | none => simp
    | some target =>
      simp only [any_some, Bool.and_eq_true, decide_eq_true_iff, contains_cons,
        contains_nil, Bool.or_false, beq_iff_eq, some.injEq, Prod.ext_iff]
      constructor
      · rintro ⟨hprotocol, hnumber⟩
        exact ⟨target.2, ⟨hprotocol, rfl⟩, by omega⟩
      · rintro ⟨target, ⟨hprotocol, rfl⟩, hnumber⟩
        exact ⟨hprotocol, by omega⟩
  · rw [if_neg hport]
    refine iff_of_false (by simp) ?_
    rintro ⟨-, -, target, -, hnumber⟩
    omega

end Allow

section Deny

variable {ranges : List String}

/-- The words of the match of the drop: a field, and a constant or a set of them. -/
theorem exists_words_sourceMatch (hne : bs ≠ []) : ∃ rest,
    words (sourceMatch (bs.map fun b => prefixString (.v4 b))).toList =
        "ip4.src".toList :: "==".toList :: rest ∧
      constants rest = some (bs.map fun b => (prefixString (.v4 b)).toList) ∧
        "&&".toList ∉ rest := by
  have hother {t u : List Char} (ht : '/' ∈ t) (hu : '/' ∉ u) : t ≠ u := fun h => hu (h ▸ ht)
  have hsrc : words "ip4.src".toList = ["ip4.src".toList] := by decide
  have heq : words "==".toList = ["==".toList] := by decide
  match bs with
  | [b] =>
    have hone (t : List Char) : constants [t] = some [t] := rfl
    refine ⟨[(prefixString (.v4 b)).toList], ?_, hone _, ?_⟩
    · have htext : (sourceMatch [prefixString (.v4 b)]).toList =
          "ip4.src".toList ++ ' ' :: ("==".toList ++ ' ' :: (prefixString (.v4 b)).toList) := by
        rw [sourceMatch, String.toList_append]
        rfl
      rw [map_singleton, htext, words_blank hsrc, words_blank heq, words_prefixString]
    · rw [mem_singleton]
      exact (hother (slash_mem_prefixString _) (by decide)).symm
  | b :: b' :: bs =>
    let texts := (b :: b' :: bs).map fun b => (prefixString (.v4 b)).toList
    have htexts : ∀ t ∈ texts, '/' ∈ t := by
      intro t ht
      obtain ⟨b, -, rfl⟩ := mem_map.mp ht
      exact slash_mem_prefixString _
    have hwords : ∀ t ∈ texts, words t = [t] := by
      intro t ht
      obtain ⟨b, -, rfl⟩ := mem_map.mp ht
      exact words_prefixString b
    have hne : texts ≠ [] := cons_ne_nil _ _
    have hcomma : ∀ t ∈ texts, t ≠ [','] := fun t ht => hother (htexts t ht) (by decide)
    refine ⟨['\x7b'] :: ([[',']].intercalate (texts.map ([·])) ++ [['\x7d']]), ?_,
      constants_set hne hcomma, ?_⟩
    · have htext : (sourceMatch ((b :: b' :: bs).map fun b => prefixString (.v4 b))).toList =
          "ip4.src".toList ++ ' ' :: ("==".toList ++ ' ' :: '\x7b' ::
            (", ".toList.intercalate texts ++ ['\x7d'])) := by
        have hset : "ip4.src == \x7b".toList =
            "ip4.src".toList ++ ' ' :: ("==".toList ++ [' ', '\x7b']) := rfl
        have hmap : ((b :: b' :: bs).map fun b => prefixString (.v4 b)).map String.toList =
            texts := map_map
        have hform : sourceMatch ((b :: b' :: bs).map fun b => prefixString (.v4 b)) =
            "ip4.src == \x7b" ++ ", ".intercalate
              ((b :: b' :: bs).map fun b => prefixString (.v4 b)) ++ "\x7d" := rfl
        rw [hform, String.toList_append, String.toList_append, String.toList_intercalate, hmap,
          hset]
        simp only [append_assoc, cons_append, nil_append]
        rfl
      rw [htext, words_blank hsrc, words_blank heq, words_mark_cons (by decide),
        words_intercalate hne hwords]
    · rw [mem_cons, mem_append, mem_singleton, not_or, not_or]
      refine ⟨by decide, not_mem_intercalate (by decide) fun l hl => ?_, by decide⟩
      obtain ⟨t, ht, rfl⟩ := mem_map.mp hl
      rw [mem_singleton]
      exact (hother (htexts t ht) (by decide)).symm

theorem parseMatch_sourceMatch (hne : bs ≠ []) (hbs : ∀ b ∈ bs, b.masked = b) :
    parseMatch (sourceMatch (bs.map fun b => prefixString (.v4 b))) = some [.source bs] := by
  obtain ⟨rest, hwords, hconstants, hand⟩ := exists_words_sourceMatch hne
  have hgroups : ∀ g ∈ ["ip4.src".toList :: "==".toList :: rest], "&&".toList ∉ g := by
    rw [forall_mem_singleton, mem_cons, mem_cons, not_or, not_or]
    exact ⟨by decide, by decide, hand⟩
  have hread : (bs.map fun b => (prefixString (.v4 b)).toList).mapM readNetwork = some bs := by
    have hall : ∀ b ∈ bs, readNetwork (prefixString (.v4 b)).toList = some b :=
      fun b hb => readNetwork_prefixString (hbs b hb)
    rw [mapM_map, Function.comp_def, mapM_eq_some hall, map_id']
  rw [parseMatch_eq (hwords.trans intercalate_singleton.symm) (cons_ne_nil _ _) hgroups]
  simp only [mapM_cons, mapM_nil, comparison_source hconstants, hread]
  rfl

theorem matchesPacket_drop (hne : bs ≠ []) (hbs : ∀ b ∈ bs, b.masked = b) {priority : Int} :
    matchesPacket packet ⟨"drop", "from-lport",
        sourceMatch (bs.map fun b => prefixString (.v4 b)), priority⟩ = true ↔
      ∃ b ∈ bs, b.Contains packet.source := by
  rw [matchesPacket, parseMatch_sourceMatch hne hbs]
  simp [Comparison.holds]

theorem inRanges_iff {x : BitVec 32} :
    InRanges (bs.map fun b => prefixString (.v4 b)) x ↔ ∃ b ∈ bs, b.Contains x := by
  simp [InRanges, inCIDR, Prefix.contains]

end Deny

section Plane

variable {tenant : Tenant} {tenants : List Tenant} {rule : Rule} {entry : String}
  {network : Block 32} {x : BitVec 32}

theorem mem_tenant_allows : rule ∈ tenant.allows ↔ ∃ protocol, ∃ port ∈ tenant.ports protocol,
    port ≠ 0 ∧ allow (addrString (.v4 tenant.eip)) (addrString (.v4 tenant.vip))
      (protocolText protocol) port = rule := by
  rw [Tenant.allows, mem_allows]
  constructor
  · rintro (h | h)
    · exact ⟨.tcp, h⟩
    · exact ⟨.udp, h⟩
  · rintro ⟨protocol, h⟩
    cases protocol with
    | tcp => exact .inl h
    | udp => exact .inr h

theorem exists_allow_matches_iff :
    (∃ rule ∈ tenant.allows, matchesPacket packet rule = true) ↔ tenant.MaySend packet := by
  constructor
  · rintro ⟨rule, hrule, hmatches⟩
    obtain ⟨protocol, port, hport, hne, rfl⟩ := mem_tenant_allows.mp hrule
    obtain ⟨heip, hvip, target, htarget, rfl⟩ := matchesPacket_allow.mp hmatches
    refine ⟨heip, hvip, protocol, target, htarget, ?_, hport⟩
    rintro rfl
    exact hne rfl
  · rintro ⟨heip, hvip, protocol, port, htarget, hne, hport⟩
    refine ⟨_, mem_tenant_allows.mpr ⟨protocol, _, hport, fun hzero => hne ?_, rfl⟩,
      matchesPacket_allow.mpr ⟨heip, hvip, port, htarget, rfl⟩⟩
    exact BitVec.eq_of_toNat_eq (Int.natCast_eq_zero.mp hzero)

/-- A packet passes where a tenant may send it, or else if it does not come from the ranges. -/
theorem passes_planeRules_iff (hne : bs ≠ []) (hbs : ∀ b ∈ bs, b.masked = b) :
    passes (planeRules tenants ⟨"drop", "from-lport",
        sourceMatch (bs.map fun b => prefixString (.v4 b)), denyPriority⟩) packet = true ↔
      (∃ tenant ∈ tenants, tenant.MaySend packet) ∨ ¬∃ b ∈ bs, b.Contains packet.source := by
  have hallow : ∀ rule ∈ tenants.flatMap Tenant.allows,
      rule.action ≠ "drop" ∧ denyPriority < rule.priority := by
    intro rule hrule
    obtain ⟨tenant, -, hrule⟩ := mem_flatMap.mp hrule
    obtain ⟨protocol, port, -, -, rfl⟩ := mem_tenant_allows.mp hrule
    exact ⟨by simp [allow], by simp [allow, allowPriority, denyPriority]⟩
  let drop : Rule := ⟨"drop", "from-lport", sourceMatch (bs.map fun b => prefixString (.v4 b)),
    denyPriority⟩
  have hdrop : matchesPacket packet drop = true ↔ ∃ b ∈ bs, b.Contains packet.source :=
    matchesPacket_drop hne hbs
  have hmem (rule : Rule) : rule ∈ planeRules tenants drop ↔
      rule ∈ tenants.flatMap Tenant.allows ∨ rule = drop := by
    rw [planeRules, mem_append, mem_singleton]
  have habove : ∀ rule ∈ planeRules tenants drop,
      rule = drop ∨ rule.action ≠ "drop" ∧ drop.priority < rule.priority :=
    fun rule hrule => ((hmem rule).mp hrule).elim (fun h => .inr (hallow rule h)) .inl
  have hpermits : (∃ rule ∈ planeRules tenants drop,
      rule ≠ drop ∧ matchesPacket packet rule = true) ↔
        ∃ tenant ∈ tenants, tenant.MaySend packet := by
    simp only [← exists_allow_matches_iff]
    constructor
    · rintro ⟨rule, hrule, hother, hmatches⟩
      obtain ⟨tenant, htenant, hrule⟩ :=
        mem_flatMap.mp (((hmem rule).mp hrule).resolve_right hother)
      exact ⟨tenant, htenant, rule, hrule, hmatches⟩
    · rintro ⟨tenant, htenant, rule, hrule, hmatches⟩
      have hrule := mem_flatMap.mpr ⟨tenant, htenant, hrule⟩
      refine ⟨rule, (hmem rule).mpr (.inl hrule), ?_, hmatches⟩
      rintro rfl
      exact (hallow drop hrule).1 rfl
  rw [passes_iff_of_beneath ((hmem drop).mpr (.inr rfl)) rfl habove, hpermits, ← hdrop,
    Bool.not_eq_true]

theorem summarise_eq_none_iff {low high : Addr} :
    summarise low high = none ↔ toUint low = none ∨ toUint high = none := by
  rw [summarise]
  cases toUint low with
  | none => simp
  | some a => cases toUint high <;> simp

theorem parseReserved_eq_none_iff : parseReserved entry = none ↔ Stops entry := by
  rw [parseReserved, Stops]
  generalize trimSpace entry = entry
  constructor
  · intro h
    split at h
    · exact absurd h (some_ne_none _)
    · split at h
      · next first last hcut =>
        dsimp only at h
        split at h
        · next low high hlow hhigh =>
          split at h
          · exact absurd h (some_ne_none _)
          · next hback =>
            exact ⟨first, last, low, high, hcut, hlow, hhigh, hback, summarise_eq_none_iff.mp h⟩
        · exact absurd h (some_ne_none _)
      · split at h
        · exact absurd h (some_ne_none _)
        · split at h <;> exact absurd h (some_ne_none _)
  · rintro ⟨first, last, low, high, hcut, hlow, hhigh, hback, hnone⟩
    have hne : entry ≠ "" := by
      rintro rfl
      rw [String.toList_empty, cutChars] at hcut
      contradiction
    rw [if_neg hne, hcut]
    dsimp only
    rw [hlow, hhigh]
    dsimp only
    rw [if_neg hback]
    exact summarise_eq_none_iff.mpr hnone

theorem Stops.not_excludes (h : Stops entry) : ¬Excludes entry x := by
  obtain ⟨first, last, low, high, hcut, hlow, hhigh, -, hnone⟩ := h
  rw [Excludes, hcut]
  rintro ⟨low', high', a, b, hlow', hhigh', -, ha, hb, -⟩
  obtain rfl := mem_unique hlow hlow'
  obtain rfl := mem_unique hhigh hhigh'
  obtain hnone | hnone := hnone
  · exact some_ne_none a (ha.symm.trans hnone)
  · exact some_ne_none b (hb.symm.trans hnone)

theorem exists_mapM_eq_some_iff {α β : Type} {f : α → Option β} {l : List α} :
    (∃ r, l.mapM f = some r) ↔ ∀ a ∈ l, f a ≠ none := by
  induction l with
  | nil => simp
  | cons a l ih =>
    rw [mapM_cons, forall_mem_cons, ← ih]
    cases f a with
    | none => simp
    | some b => cases l.mapM f <;> simp

theorem isolated_of_forall_not_stops (hcidr : parsePrefix cidr = some (.v4 network))
    (hleft : ∃ x, Allocatable network excludeIPs x) (hstops : ∀ entry ∈ excludeIPs, ¬Stops entry) :
    Isolated cidr network excludeIPs tenants := by
  obtain ⟨read, hread⟩ := exists_mapM_eq_some_iff.mpr fun entry hentry =>
    mt parseReserved_eq_none_iff.mp (hstops entry hentry)
  have hranges := allocatableRanges_eq hcidr hread
  obtain ⟨bs, hbs, hmasked, hsound, hcomplete⟩ := allocatableRanges_spec hcidr hranges
  have hinRanges (x : BitVec 32) (hx : Allocatable network excludeIPs x) :
      ∃ b ∈ bs, b.Contains x := hcomplete x hx.1 hx.2.2 hx.2.1
  have hne : bs ≠ [] := by
    obtain ⟨x, hx⟩ := hleft
    obtain ⟨b, hb, -⟩ := hinRanges x hx
    exact ne_nil_of_mem hb
  rw [hbs] at hranges
  have hdeny := deny_eq hcidr hranges
  rw [if_pos (by simpa using hne)] at hdeny
  refine ⟨_, _, hranges, hdeny, fun x hx => ?_,
    fun packet hpacket => ?_, fun packet hpacket hexcluded => ?_⟩
  · exact inRanges_iff.mpr (hinRanges x hx)
  · have hfrom := inRanges_iff.mp hpacket
    rw [passes_planeRules_iff hne hmasked]
    exact or_iff_left (not_not_intro hfrom)
  · refine (passes_planeRules_iff hne hmasked).mpr (.inr fun hfrom => ?_)
    obtain ⟨entry, hentry, hexcludes⟩ := hexcluded
    have hnot := (hsound packet.source hfrom).2 entry hentry
    exact absurd hexcludes hnot

theorem Isolated.not_stops (hcidr : parsePrefix cidr = some (.v4 network))
    (h : Isolated cidr network excludeIPs tenants) : ∀ entry ∈ excludeIPs, ¬Stops entry := by
  obtain ⟨ranges, denyRule, hranges, -⟩ := h
  intro entry hentry hstops
  exact exists_mapM_eq_some_iff.mp (exists_read hcidr hranges) entry hentry
    (parseReserved_eq_none_iff.mpr hstops)

/-- Where an address is left to hand out, the plane keeps its tenants apart exactly if no entry
stops the arithmetic. -/
theorem isolated_iff (hcidr : parsePrefix cidr = some (.v4 network))
    (hleft : ∃ x, Allocatable network excludeIPs x) :
    Isolated cidr network excludeIPs tenants ↔ ∀ entry ∈ excludeIPs, ¬Stops entry :=
  ⟨fun h => h.not_stops hcidr, isolated_of_forall_not_stops hcidr hleft⟩

end Plane

/-- A subnet whose first addresses are the nodes'. -/
def lab : Block 32 := ⟨0x0AC70000#32, 22, Block.le_bits_22⟩

/-- Two tenants of it, apart from the nodes. -/
theorem isolated_iff_lab : Isolated "10.199.0.0/22" lab ["10.199.0.1..10.199.0.255"]
    [⟨0x0AC70105#32, 0x0A600001#32, [6443, 50000], [123]⟩,
      ⟨0x0AC70106#32, 0x0A600002#32, [6443], []⟩] := by
  have hread : (parseReserved "10.199.0.1..10.199.0.255").any fun blocks =>
      ∀ b ∈ v4Blocks blocks, ¬b.Contains 0x0AC70105#32 := by decide +kernel
  obtain ⟨blocks, hblocks, hnone⟩ := (any_eq_true _ _).mp hread
  refine (isolated_iff (by decide +kernel) ⟨0x0AC70105#32, by decide, by decide, ?_⟩).mpr ?_
  · rw [forall_mem_singleton, ← exists_mem_parseReserved_iff hblocks]
    rintro ⟨b, hb, hx⟩
    exact of_decide_eq_true hnone b (mem_v4Blocks.mpr hb) hx
  · rw [forall_mem_singleton, ← parseReserved_eq_none_iff, hblocks]
    exact some_ne_none blocks

/-- A range of IPv6 addresses is excluded from the same subnet. -/
theorem not_isolated : ¬∀ (cidr : String) (network : Block 32) (excludeIPs : List String)
    (tenants : List Tenant), parsePrefix cidr = some (.v4 network) →
      (∃ x, Allocatable network excludeIPs x) → Isolated cidr network excludeIPs tenants := by
  intro h
  have hstops : Stops "fd00::1..fd00::5" := parseReserved_eq_none_iff.mp (by decide +kernel)
  have hcidr : parsePrefix "10.199.0.0/22" = some (.v4 lab) := by decide +kernel
  have hleft : Allocatable lab ["fd00::1..fd00::5"] 0x0AC70105#32 :=
    ⟨by decide, by decide, forall_mem_singleton.mpr hstops.not_excludes⟩
  exact (h _ lab _ [] hcidr ⟨_, hleft⟩).not_stops hcidr _ mem_cons_self hstops

end Transit
