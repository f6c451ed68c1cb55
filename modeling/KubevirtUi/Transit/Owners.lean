import KubevirtUi.Library.Keyed
import KubevirtUi.Transit.Baseline

/-!
# Whose permit is written for an address

An address without an allow gets one for the tenant that holds it. The tenant is what the
label says, or what follows `cpt-eip-` in the name. A name that does not start so is taken
whole, and if there is a tenant of that name, the permit is for its control plane.
-/

namespace Transit

open Go Go.Netip Acl List
open Option hiding filter_filter

/-- The EIP carries the label of the tenant, or none and the tenant's name for it. -/
def Owns (eip : OvnEip) (tenantName : String) : Prop :=
  tenantName ≠ "" ∧ (eip.tenantLabel = tenantName ∨
    eip.tenantLabel = "" ∧ eip.name = "cpt-eip-" ++ tenantName)

/-- The EIPs on the plane that hold an address. -/
def holders (pass : Pass) (address : String) : List OvnEip :=
  (pass.eips.getD []).filter fun eip => eip.isLive pass.subnetName && eip.v4Ip = address

/-- A permit that is written for someone else names the control plane of a tenant that holds
the address. An address without an allow that no tenant holds is reported, and gets none. -/
structure Attributed (pass : Pass) (existing acls : List Rule) (left : List String) : Prop where
  owners : ∀ rule ∈ acls, rule.action ≠ "drop" → rule ∉ existing → rule ∉ wanted pass →
    ∃ address tenantName vip tcp, (∃ eip ∈ holders pass address, Owns eip tenantName) ∧
      controlPlaneShapeOf pass tenantName = some (vip, tcp) ∧
        ∃ tcp udp, rule ∈ allows address vip tcp udp
  unattributable : ∀ address, address ≠ pass.address → ¬Covers existing address →
    holders pass address ≠ [] →
      (∀ eip ∈ holders pass address, ∀ tenantName, ¬Owns eip tenantName) →
        address ∈ left ∧ ¬Covers acls address

/-- No name that does not start with `cpt-eip-` is the name of a tenant with a control plane,
where it is the name of an EIP without a label that an address without an allow is held by.
Several EIPs may hold one address: the last of them counts, and the permit is right if one of
them is of a tenant that answers at the same address. -/
def NoNamesakes (pass : Pass) (existing : List Rule) : Prop :=
  ∀ address eip, (holders pass address).getLast? = some eip →
    address ≠ pass.address → ¬Covers existing address →
      eip.tenantLabel = "" → hasPrefix eip.name "cpt-eip-" = false → eip.name ≠ "" →
        ∀ vip tcp, controlPlaneShapeOf pass eip.name = some (vip, tcp) →
          ∃ holder ∈ holders pass address, ∃ tenantName tcp, Owns holder tenantName ∧
            controlPlaneShapeOf pass tenantName = some (vip, tcp)

theorem space_not_mem_toString (port : Int) : ' ' ∉ (toString port).toList := fun hmem =>
  (isDigit_or_minus_of_mem_toString hmem).elim (absurd · (by decide)) (absurd · (by decide))

variable {vip vip' : String} {tcp : List Int} {eip : OvnEip}

theorem vip_eq_of_allow_eq {eip proto proto' : String} {port port' : Int}
    (hproto : proto.toList.length = proto'.toList.length)
    (h : allow eip vip proto port = allow eip vip' proto' port') : vip = vip' := by
  have hsplit (vip proto : String) (port : Int) : (allow eip vip proto port).matchExpr.toList =
        ("ip4.src == " ++ eip ++ " && ip4.dst == ").toList ++
          (vip.toList ++ (" && " ++ proto ++ ".dst ==").toList ++
            ' ' :: (toString port).toList) := by
    have hequal : ".dst == " = ".dst ==" ++ " " := by decide
    have hblank : " ".toList = [' '] := by decide
    rw [matchExpr_allow, hequal]
    simp only [String.toList_append, hblank, append_assoc, cons_append, nil_append]
  have htext := congrArg (fun rule => rule.matchExpr.toList) h
  simp only [hsplit] at htext
  have htail := append_cancel_left htext
  have hcut := congrArg (cutLast ' ') htail
  rw [cutLast_append _ (space_not_mem_toString port),
    cutLast_append _ (space_not_mem_toString port')] at hcut
  have hfront := (Prod.mk.inj (some.inj hcut)).1
  refine String.toList_inj.mp (append_inj' hfront ?_).1
  simp only [String.toList_append, length_append, hproto]

theorem vip_eq_of_mem_allows {eip : String} {udp tcp' udp' : List Int} {rule : Rule}
    (h : rule ∈ allows eip vip tcp udp) (h' : rule ∈ allows eip vip' tcp' udp') : vip = vip' := by
  obtain ⟨port, -, -, rfl⟩ | ⟨port, -, -, rfl⟩ := mem_allows.mp h
  all_goals
    obtain ⟨port', -, -, hsame⟩ | ⟨port', -, -, hsame⟩ := mem_allows.mp h'
    all_goals exact (vip_eq_of_allow_eq (by decide) hsame).symm

section Attribution

variable {pass : Pass} {existing : List Rule} {live : Live} {address : String}

theorem lookup_liveOf (hlive : liveOf pass = some live) (hother : address ≠ pass.address) :
    live.lookup address = (holders pass address).getLast?.map tenantOfEIP := by
  obtain ⟨found, hfound, rfl⟩ := map_eq_some_iff.mp hlive
  obtain ⟨eips, heips, rfl⟩ := map_eq_some_iff.mp hfound
  rw [AList.lookup_insert_ne hother, Keyed.lookup_foldl_insert, AList.lookup_empty, or_none,
    filter_filter, holders, heips, getD_some]
  congr 3
  funext eip
  exact Bool.and_comm _ _

theorem mem_liveOf_iff_holders (hlive : liveOf pass = some live) (hother : address ≠ pass.address) :
    address ∈ live ↔ holders pass address ≠ [] := by
  rw [← AList.lookup_isSome, lookup_liveOf hlive hother, isSome_map, List.getLast?_isSome]

theorem Sane.own_not_mem_missing (h : Sane pass) (hlive : liveOf pass = some live) :
    pass.address ∉ missing pass existing := by
  intro hmissing
  have huncovered := ((mem_missing hlive).mp hmissing).2
  have hown : allow pass.address pass.vip "tcp" tenantAPIPort ∈ wanted pass :=
    mem_allows.mpr (.inl ⟨tenantAPIPort, by simp, by decide, rfl⟩)
  have htrue : isCovered (permitted pass existing) pass.address = true :=
    isCovered_iff.mpr ⟨ne_empty_of_isIPv4 h.own, _, mem_addRules.mpr (.inr hown), rfl,
      allowSource_allow h.own _ _ _⟩
  rw [htrue] at huncovered
  contradiction

/-- Who is missing an allow: the addresses of others that the list had none for. -/
theorem Sane.mem_missing_iff (h : Sane pass) (hlive : liveOf pass = some live) :
    address ∈ missing pass existing ↔
      address ∈ live ∧ address ≠ pass.address ∧ ¬Covers existing address := by
  constructor
  · intro hmissing
    obtain ⟨hmem, huncovered⟩ := (mem_missing hlive).mp hmissing
    refine ⟨hmem, ?_, ?_⟩
    · rintro rfl
      exact h.own_not_mem_missing hlive hmissing
    · rintro ⟨rule, hrule, hpriority, hsource⟩
      have hfresh : isStale live rule = false := isStale_eq_false fun _ => hsource ▸ hmem
      have hkept : rule ∈ kept pass existing := by
        rw [kept_eq, hlive]
        exact mem_filter.mpr ⟨hrule, by simp [hfresh]⟩
      have htrue : isCovered (permitted pass existing) address = true :=
        isCovered_iff.mpr ⟨ne_empty_of_isIPv4 (h.isIPv4 hlive hmem), rule,
          mem_addRules.mpr (.inl hkept), hpriority, hsource⟩
      rw [htrue] at huncovered
      contradiction
  · rintro ⟨hmem, hother, huncovered⟩
    refine (mem_missing hlive).mpr ⟨hmem, ?_⟩
    rw [Bool.eq_false_iff]
    intro htrue
    obtain ⟨-, rule, hrule, hpriority, hsource⟩ := isCovered_iff.mp htrue
    obtain hkept | hown := mem_addRules.mp hrule
    · rw [kept_eq] at hkept
      exact huncovered ⟨rule, (mem_filter.mp hkept).1, hpriority, hsource⟩
    · exact hother (hsource.symm.trans (of_mem_allows h.own hown).2.1)

/-- What an address of someone else gets is for the tenant its last holder is taken for. -/
theorem backfill_eq (hlive : liveOf pass = some live) (hother : address ≠ pass.address)
    (hlast : (holders pass address).getLast? = some eip) : backfill pass live address =
      if tenantOfEIP eip = "" then none
      else (controlPlaneShapeOf pass (tenantOfEIP eip)).map fun (vip, tcp) =>
        allows address vip tcp (if servesTime pass (tenantOfEIP eip) then [ntpPort] else []) := by
  rw [backfill, lookup_liveOf hlive hother, hlast]
  rfl

/-- A label, or a name that starts as it should, is of the tenant it is taken for. -/
theorem owns_tenantOfEIP (hne : tenantOfEIP eip ≠ "")
    (h : eip.tenantLabel ≠ "" ∨ hasPrefix eip.name "cpt-eip-" = true) :
    Owns eip (tenantOfEIP eip) := by
  refine ⟨hne, ?_⟩
  by_cases hlabel : eip.tenantLabel = ""
  · have hpre := h.resolve_left (fun hne => hne hlabel)
    obtain ⟨rest, hrest⟩ := isPrefixOf_iff_prefix.mp hpre
    have htrim : (trimPrefix eip.name "cpt-eip-").toList = rest := by
      rw [trimPrefix, if_pos hpre, ← hrest, drop_left]
      exact String.toList_ofList
    refine .inr ⟨hlabel, String.toList_inj.mp ?_⟩
    rw [tenantOfEIP, if_neg (fun hne => hne hlabel), String.toList_append, htrim, hrest]
  · exact .inl (by rw [tenantOfEIP, if_pos hlabel])

theorem tenantOfEIP_eq_name (hlabel : eip.tenantLabel = "")
    (hpre : hasPrefix eip.name "cpt-eip-" = false) : tenantOfEIP eip = eip.name := by
  rw [tenantOfEIP, if_neg (fun hne => hne hlabel), trimPrefix, hpre]
  rfl

theorem NoNamesakes.exists_owner (h : NoNamesakes pass existing) (hother : address ≠ pass.address)
    (huncovered : ¬Covers existing address) (hlast : (holders pass address).getLast? = some eip)
    (hne : tenantOfEIP eip ≠ "")
    (hshape : controlPlaneShapeOf pass (tenantOfEIP eip) = some (vip, tcp)) :
    ∃ holder ∈ holders pass address, ∃ tenantName tcp, Owns holder tenantName ∧
      controlPlaneShapeOf pass tenantName = some (vip, tcp) := by
  by_cases hknown : eip.tenantLabel ≠ "" ∨ hasPrefix eip.name "cpt-eip-" = true
  · exact ⟨eip, mem_of_getLast? hlast, _, tcp, owns_tenantOfEIP hne hknown, hshape⟩
  · rw [not_or, not_not, Bool.not_eq_true] at hknown
    obtain ⟨hlabel, hpre⟩ := hknown
    rw [tenantOfEIP_eq_name hlabel hpre] at hne hshape
    exact h address eip hlast hother huncovered hlabel hpre hne vip tcp hshape

theorem exists_getLast?_holders (hlive : liveOf pass = some live)
    (hother : address ≠ pass.address) (hmem : address ∈ live) :
    ∃ eip, (holders pass address).getLast? = some eip := by
  rw [mem_liveOf_iff_holders hlive hother, ← List.getLast?_isSome] at hmem
  exact isSome_iff_exists.mp hmem

/-- Where the last holder of an address is a namesake of a tenant, a permit for that tenant is
written. -/
theorem Sane.exists_permit (h : Sane pass) (hlive : liveOf pass = some live)
    (hother : address ≠ pass.address) (huncovered : ¬Covers existing address)
    (hlast : (holders pass address).getLast? = some eip) (hne : tenantOfEIP eip ≠ "")
    (hshape : controlPlaneShapeOf pass (tenantOfEIP eip) = some (vip, tcp)) :
    ∃ rule ∈ filled pass existing, rule.action ≠ "drop" ∧ rule ∉ existing ∧ rule ∉ wanted pass ∧
      ∃ tcp udp, rule ∈ allows address vip tcp udp := by
  have hmem : address ∈ live := (mem_liveOf_iff_holders hlive hother).mpr fun hnil => by
    rw [hnil] at hlast
    contradiction
  have hmissing := (h.mem_missing_iff hlive).mpr ⟨hmem, hother, huncovered⟩
  have hrules := backfill_eq hlive hother hlast
  rw [if_neg hne, hshape, map_some] at hrules
  obtain ⟨rule, more, hcons⟩ := exists_cons_of_ne_nil (h.backfill_ne_nil hrules)
  have hrule := hcons ▸ mem_cons_self (a := rule) (l := more)
  obtain ⟨hpriority, hsource, haction⟩ := of_mem_backfill (h.isIPv4 hlive hmem) hrules hrule
  refine ⟨rule, (mem_filled hlive).mpr (.inr (.inr ⟨address, hmissing, _, hrules, hrule⟩)), haction,
    fun hold => huncovered ⟨rule, hold, hpriority, hsource⟩, fun hown => ?_, tcp, _, hrule⟩
  exact hother (hsource.symm.trans (of_mem_allows h.own hown).2.1)

theorem Sane.isIPv4_of_mem_holders (h : Sane pass) (hholder : eip ∈ holders pass address) :
    IsIPv4 address := by
  obtain ⟨hmem, hholds⟩ := mem_filter.mp hholder
  obtain ⟨hlive, rfl⟩ : eip.isLive pass.subnetName = true ∧ eip.v4Ip = address := by
    simpa using hholds
  cases heips : pass.eips with
  | none =>
    rw [heips] at hmem
    contradiction
  | some eips =>
    rw [heips] at hmem
    exact h.eips eips heips eip hmem hlive

theorem of_ensureTransitACLs {acls : List Rule} {left : List String}
    (hpass : ensureTransitACLs pass existing = some (acls, left)) :
    left = unprotected pass existing ∧ (∀ rule ∈ filled pass existing, rule ∈ acls) ∧
      (∀ rule ∈ acls, rule.action ≠ "drop" → rule ∈ filled pass existing) ∧
        (left ≠ [] → acls = filled pass existing) := by
  rw [ensureTransitACLs_eq] at hpass
  split at hpass
  · next hdeny =>
    obtain ⟨baseline, hbaseline, hacls⟩ := map_eq_some_iff.mp hpass
    cases hacls
    refine ⟨rfl, fun rule => mem_append_left _, ?_, fun hne => absurd hdeny.1 hne⟩
    intro rule hrule haction
    obtain hfilled | hmem := mem_append.mp hrule
    · exact hfilled
    · obtain rfl := mem_singleton.mp hmem
      exact absurd (of_deny hbaseline).1 haction
  · cases hpass
    exact ⟨rfl, fun rule => id, fun rule hrule _ => hrule, fun _ => rfl⟩

variable {acls : List Rule} {left : List String}

theorem Attributed.noNamesakes (hattributed : Attributed pass existing acls left) (h : Sane pass)
    (hpass : ensureTransitACLs pass existing = some (acls, left)) : NoNamesakes pass existing := by
  intro address eip hlast hother huncovered hlabel hpre hne vip tcp hshape
  obtain ⟨live, hlive⟩ : ∃ live, liveOf pass = some live := by
    cases heips : pass.eips with
    | none => simp [holders, heips] at hlast
    | some eips => exact ⟨_, by rw [liveOf, liveTransitAddresses, heips]; rfl⟩
  rw [← tenantOfEIP_eq_name hlabel hpre] at hne hshape
  obtain ⟨rule, hrule, haction, hold, hown, tcp', udp', hallow⟩ :=
    h.exists_permit hlive hother huncovered hlast hne hshape
  have hsub := (of_ensureTransitACLs hpass).2.1
  obtain ⟨named, tenantName, vip', tcp'', ⟨holder, hholder, howns⟩, hshape', ports, ports',
    hnamed⟩ := hattributed.owners rule (hsub rule hrule) haction hold hown
  have hsource := (of_mem_allows (h.isIPv4_of_mem_holders hholder) hnamed).2.1
  have hsource' :=
    (of_mem_allows (h.isIPv4_of_mem_holders (mem_of_getLast? hlast)) hallow).2.1
  obtain rfl : named = address := hsource.symm.trans hsource'
  obtain rfl : vip' = vip := vip_eq_of_mem_allows hnamed hallow
  exact ⟨holder, hholder, tenantName, tcp'', howns, hshape'⟩

theorem NoNamesakes.attributed (hnone : NoNamesakes pass existing) (h : Sane pass)
    (hpass : ensureTransitACLs pass existing = some (acls, left)) :
    Attributed pass existing acls left := by
  obtain ⟨rfl, -, hback, hreported⟩ := of_ensureTransitACLs hpass
  constructor
  · intro rule hrule haction hold hown
    have hfilled := hback rule hrule haction
    cases hlive : liveOf pass with
    | none =>
      rw [filled_of_none hlive, permitted, mem_addRules, kept_eq] at hfilled
      obtain hkept | hmem := hfilled
      · exact absurd (mem_filter.mp hkept).1 hold
      · exact absurd hmem hown
    | some live =>
      obtain hkept | hmem | ⟨address, hmissing, rules, hrules, hmem⟩ :=
        (mem_filled hlive).mp hfilled
      · rw [kept_eq] at hkept
        exact absurd (mem_filter.mp hkept).1 hold
      · exact absurd hmem hown
      · obtain ⟨hmem', hother, huncovered⟩ := (h.mem_missing_iff hlive).mp hmissing
        obtain ⟨eip, hlast⟩ := exists_getLast?_holders hlive hother hmem'
        rw [backfill_eq hlive hother hlast] at hrules
        split at hrules
        · contradiction
        · next hne =>
          obtain ⟨⟨vip, tcp⟩, hshape, rfl⟩ := map_eq_some_iff.mp hrules
          obtain ⟨holder, hholder, tenantName, tcp', howns, hshape'⟩ :=
            hnone.exists_owner hother huncovered hlast hne hshape
          exact ⟨address, tenantName, vip, tcp', ⟨holder, hholder, howns⟩, hshape', _, _, hmem⟩
  · intro address hother huncovered hheld hunowned
    obtain ⟨live, hlive⟩ : ∃ live, liveOf pass = some live := by
      cases heips : pass.eips with
      | none => simp [holders, heips] at hheld
      | some eips => exact ⟨_, by rw [liveOf, liveTransitAddresses, heips]; rfl⟩
    have hmem := (mem_liveOf_iff_holders hlive hother).mpr hheld
    obtain ⟨eip, hlast⟩ := exists_getLast?_holders hlive hother hmem
    have hmissing := (h.mem_missing_iff hlive).mpr ⟨hmem, hother, huncovered⟩
    have hbackfill : backfill pass live address = none := by
      rw [backfill_eq hlive hother hlast]
      split
      · rfl
      · next hne =>
        rw [map_eq_none_iff, eq_none_iff_forall_ne_some]
        rintro ⟨vip, tcp⟩ hshape
        obtain ⟨holder, hholder, tenantName, -, howns, -⟩ :=
          hnone.exists_owner hother huncovered hlast hne hshape
        exact hunowned holder hholder tenantName howns
    have hleft := (mem_unprotected hlive).mpr ⟨hmissing, hbackfill⟩
    rw [hreported (ne_nil_of_mem hleft)]
    exact ⟨hleft, h.not_covers hlive hleft⟩

/-- The permits that are written go to the owners of their addresses exactly where no EIP is a
namesake of a tenant. -/
theorem backfill_attributed (h : Sane pass)
    (hpass : ensureTransitACLs pass existing = some (acls, left)) :
    Attributed pass existing acls left ↔ NoNamesakes pass existing :=
  ⟨fun hattributed => hattributed.noNamesakes h hpass, fun hnone => hnone.attributed h hpass⟩

end Attribution

/-- The plane of `shared` with an EIP of another writer on it, which has the name of a tenant. -/
def namesake : Pass := { shared with eips := some [⟨"b", "", "transit", "nat", "10.0.1.3"⟩] }

theorem sane_namesake : Sane namesake where
  own := sane_shared.own
  eips := by
    rintro eips heips eip hmem -
    cases heips
    obtain rfl := mem_singleton.mp hmem
    exact ⟨_, rfl⟩
  ports := sane_shared.ports

/-- Nobody holds the address, and it is not reported. -/
theorem not_backfill_attributed :
    ¬∀ (pass : Pass) (existing acls : List Rule) (left : List String), Sane pass →
      ensureTransitACLs pass existing = some (acls, left) →
        Attributed pass existing acls left := by
  intro h
  have hrun : (ensureTransitACLs namesake []).map Prod.snd = some [] := by decide +kernel
  obtain ⟨⟨acls, left⟩, hpass, rfl⟩ := map_eq_some_iff.mp hrun
  have hheld : holders namesake "10.0.1.3" ≠ [] :=
    ne_nil_of_mem (mem_filter.mpr ⟨mem_singleton.mpr rfl, by decide⟩)
  have hunowned : ∀ eip ∈ holders namesake "10.0.1.3", ∀ tenantName, ¬Owns eip tenantName := by
    rintro eip hmem tenantName ⟨hne, howns⟩
    obtain rfl := mem_singleton.mp (mem_filter.mp hmem).1
    obtain hlabel | ⟨-, hname⟩ := howns
    · exact hne hlabel.symm
    · have hlength := congrArg String.length hname
      rw [String.length_append] at hlength
      have hone : "b".length = 1 := by decide
      have height : "cpt-eip-".length = 8 := by decide
      simp only [hone, height] at hlength
      omega
  have huncovered : ¬Covers [] "10.0.1.3" := by
    rintro ⟨rule, hrule, -⟩
    contradiction
  have hreported := (h namesake [] acls [] sane_namesake hpass).unattributable "10.0.1.3"
    (by decide) huncovered hheld hunowned
  exact absurd hreported.1 not_mem_nil

/-- The plane of `shared` has no namesakes. -/
theorem backfill_attributed_shared : ∃ acls left,
    ensureTransitACLs shared [] = some (acls, left) ∧ Attributed shared [] acls left := by
  have hrun : (ensureTransitACLs shared []).isSome = true := by decide +kernel
  obtain ⟨⟨acls, left⟩, hpass⟩ := isSome_iff_exists.mp hrun
  refine ⟨acls, left, hpass, (backfill_attributed sane_shared hpass).mpr ?_⟩
  intro address eip hlast hother huncovered hlabel
  have hmem := (mem_filter.mp (mem_of_getLast? hlast)).1
  obtain rfl := mem_singleton.mp hmem
  exact absurd hlabel (by decide)

end Transit
