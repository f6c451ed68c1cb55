import KubevirtUi.Library.Solo
import KubevirtUi.Tenancy.Creation

/-!
# What a creation that has failed leaves

The clean-up gives back the namespace, the entries of Subnets and the ports. A deletion gives back
the ClusterRoleBinding and what is on the transit plane as well, so a creation that gets as far as
these leaves them.
-/

namespace Tenancy.Creation

open Interference AList
open Acl (Rule)

variable {ι : Type}

/-- All that a deletion gives back, and that is there now, was there before. Of the plane's rules
these are the allows. -/
structure NoResidue (tenant : String) (w v : World ι) : Prop where
  eip : eipName tenant ∈ v.ovnEips → eipName tenant ∈ w.ovnEips
  snatRule : snatName tenant ∈ v.ovnSnatRules → snatName tenant ∈ w.ovnSnatRules
  acls : ∀ name subnet rule, v.subnets.lookup name = some subnet → rule ∈ subnet.acls →
    rule.priority = Transit.allowPriority → ∃ before, w.subnets.lookup name = some before ∧
      rule ∈ before.acls
  ports : tenant ∈ v.ports → tenant ∈ w.ports
  member : ∀ name subnet, v.subnets.lookup name = some subnet →
    tenantNs tenant ∈ subnet.namespaces → ∃ before, w.subnets.lookup name = some before ∧
      tenantNs tenant ∈ before.namespaces
  clusterRoleBinding : csiClusterBindingName tenant ∈ v.clusterRoleBindings →
    csiClusterBindingName tenant ∈ w.clusterRoleBindings

/-- A build that fails, and is cleaned up after without another failure, leaves nothing. -/
def LeavesNothing (buildTransitDeny : String → List String → Option Rule) (cfg : Config)
    (req : TenantRequest) : Prop :=
  ∀ vip faults (w u v : World Unit) e n x m,
    Ends (serve buildTransitDeny ()) faults (buildTenant cfg req vip) 0 w (.error e) n u →
    e.caught = true → (∀ k, n ≤ k → (faults k).failure = none) →
    Ends (serve buildTransitDeny ()) faults (cleanUp req) n u x m v → NoResidue req.name w v

/-- The requests that put there what a deletion takes away. -/
def Request.adds : Request → Bool
  | .allocatePorts .. | .createClusterRoleBinding _ | .createEip .. | .createSnatRule ..
  | .ensureAcls .. => true
  | _ => false

variable {buildTransitDeny : String → List String → Option Rule} {req : TenantRequest}
  {cfg : Config} {vip : String}

section Requests

variable {tenant : String} {w v u : World ι}

theorem NoResidue.refl (w : World ι) : NoResidue tenant w w where
  eip := id
  snatRule := id
  acls _ subnet _ hsubnet hrule _ := ⟨subnet, hsubnet, hrule⟩
  ports := id
  member _ subnet hsubnet hmem := ⟨subnet, hsubnet, hmem⟩
  clusterRoleBinding := id

theorem NoResidue.trans (h : NoResidue tenant w v) (h' : NoResidue tenant v u) :
    NoResidue tenant w u where
  eip := h.eip ∘ h'.eip
  snatRule := h.snatRule ∘ h'.snatRule
  acls name subnet rule hsubnet hrule hallow := by
    obtain ⟨before, hbefore, hmem⟩ := h'.acls name subnet rule hsubnet hrule hallow
    exact h.acls name before rule hbefore hmem hallow
  ports := h.ports ∘ h'.ports
  member name subnet hsubnet hmem := by
    obtain ⟨before, hbefore, hmem'⟩ := h'.member name subnet hsubnet hmem
    exact h.member name before hbefore hmem'
  clusterRoleBinding := h.clusterRoleBinding ∘ h'.clusterRoleBinding

theorem noResidue_setSubnet {name : String} {subnet less : Subnet}
    (hsubnet : w.subnets.lookup name = some subnet) (hacls : less.acls ⊆ subnet.acls)
    (hmembers : less.namespaces ⊆ subnet.namespaces) :
    NoResidue tenant w (w.setSubnet name less) where
  eip := id
  snatRule := id
  acls other found rule hfound hrule _ := by
    by_cases hother : other = name
    · subst hother
      rw [World.setSubnet, lookup_insert] at hfound
      obtain rfl := Option.some.inj hfound
      exact ⟨subnet, hsubnet, hacls hrule⟩
    · rw [World.setSubnet, lookup_insert_ne hother] at hfound
      exact ⟨found, hfound, hrule⟩
  ports := id
  member other found hfound hmem := by
    by_cases hother : other = name
    · subst hother
      rw [World.setSubnet, lookup_insert] at hfound
      obtain rfl := Option.some.inj hfound
      exact ⟨subnet, hsubnet, hmembers hmem⟩
    · rw [World.setSubnet, lookup_insert_ne hother] at hfound
      exact ⟨found, hfound, hmem⟩
  clusterRoleBinding := id

variable [DecidableEq ι] {r : Request}

theorem serve_noResidue (i : ι) (fault : Fault) (w : World ι) (hadds : r.adds = false) :
    NoResidue tenant w (serve buildTransitDeny i fault w r).2 := by
  have hself : NoResidue tenant w w := .refl w
  unfold serve
  split
  · exact hself
  cases r with
  | allocatePorts pool name => contradiction
  | createClusterRoleBinding name => contradiction
  | createEip name subnet => contradiction
  | createSnatRule name eip => contradiction
  | ensureAcls name live wanted => contradiction
  | step s => exact hself
  | listSubnets => exact hself
  | existingSnat vpc subnet skip transit => exact hself
  | readEip name => exact hself
  | listEips => exact hself
  | answer => exact ⟨id, id, hself.acls, id, hself.member, id⟩
  | readNamespace ns =>
    simp only [commit]
    split
    · exact ⟨id, id, hself.acls, id, hself.member, id⟩
    · exact hself
  | createNamespace ns =>
    simp only [commit]
    split
    · exact ⟨id, id, hself.acls, id, hself.member, id⟩
    · exact hself
  | deleteNamespace ns =>
    simp only [commit]
    split
    · exact hself
    · exact hself
    · exact ⟨id, id, hself.acls, id, hself.member, id⟩
  | readSubnet name =>
    simp only [commit]
    split <;> exact hself
  | removeNamespace name ns index =>
    simp only [commit]
    split
    · exact hself
    · next subnet hsubnet =>
      split
      · have hless : NoResidue tenant w (w.setSubnet name
            { subnet with namespaces := subnet.namespaces.eraseIdx index }) :=
          noResidue_setSubnet hsubnet (fun _ h => h) List.eraseIdx_subset
        exact ⟨hless.1, hless.2, hless.3, hless.4, hless.5, hless.6⟩
      · exact hself
  | releasePorts name =>
    simp only [commit]
    split
    · refine ⟨id, id, hself.acls, fun h => ?_, hself.member, id⟩
      exact (mem_erase.mp h).2
    · exact hself
  | deleteClusterRoleBinding name =>
    simp only [commit]
    split
    · exact ⟨id, id, hself.acls, id, hself.member, fun h => List.mem_of_mem_filter h⟩
    · exact hself
  | deleteEip name =>
    exact ⟨fun h => (mem_erase.mp h).2, id, hself.acls, id, hself.member, id⟩
  | deleteSnatRule name =>
    exact ⟨id, fun h => (mem_erase.mp h).2, hself.acls, id, hself.member, id⟩
  | dropAcls name address =>
    simp only [commit]
    split
    · exact hself
    · next subnet hsubnet =>
      exact noResidue_setSubnet hsubnet (fun _ h => List.mem_of_mem_filter h) (fun _ h => h)

theorem noResidue_perform {α : Type} {i : ι} {faults : Nat → Fault} {p : Call α}
    (hp : Asks (fun r => r.adds = false) p) (n : Nat) (w : World ι) :
    NoResidue tenant w (p.run.perform (serve buildTransitDeny i) faults n w).2.2 := by
  refine Every.perform (R := NoResidue tenant) NoResidue.refl (fun _ _ _ => NoResidue.trans)
    (fun fault w r hr => ?_) hp n w
  exact serve_noResidue i fault w hr

end Requests

section CleanUp

abbrev AddsNothing {α : Type} (p : Call α) : Prop := Asks (fun r => r.adds = false) p

theorem addsNothing_buildTenant (htalos : req.workerOs = .talos)
    (hstorage : req.enableStorage = false) (hwired : ¬ Wired cfg req) :
    AddsNothing (buildTenant cfg req vip) :=
  asks_buildTenant (fun _ => rfl) htalos rfl
    (fun htrue => absurd htrue (by rw [hstorage]; exact Bool.false_ne_true))
    fun hwires => absurd hwires hwired

/-- The requests of a clean-up. -/
def Request.clears : Request → Bool
  | .listSubnets | .readSubnet _ | .removeNamespace .. | .releasePorts _
  | .deleteNamespace _ => true
  | _ => false

theorem clears_cleanUp : Asks (fun r => r.clears = true) (cleanUp req) :=
  asks_cleanUp rfl (fun _ => rfl) (fun _ _ => rfl) (fun _ => rfl) rfl

theorem adds_of_clears {r : Request} (h : r.clears = true) : r.adds = false := by
  cases r <;> first | rfl | contradiction

/-- What a clean-up leaves as it is. -/
structure Untouched (w v : World ι) : Prop where
  clusterRoleBindings : v.clusterRoleBindings = w.clusterRoleBindings
  ovnEips : v.ovnEips = w.ovnEips

variable [DecidableEq ι]

theorem serve_untouched (i : ι) (fault : Fault) (w : World ι) (r : Request) (h : r.clears = true) :
    Untouched w (serve buildTransitDeny i fault w r).2 := by
  unfold serve
  split
  · exact ⟨rfl, rfl⟩
  cases r with
  | listSubnets => exact ⟨rfl, rfl⟩
  | readSubnet name =>
    simp only [commit]
    split <;> exact ⟨rfl, rfl⟩
  | removeNamespace name ns index =>
    simp only [commit]
    split
    · exact ⟨rfl, rfl⟩
    · split <;> exact ⟨rfl, rfl⟩
  | releasePorts name =>
    simp only [commit]
    split <;> exact ⟨rfl, rfl⟩
  | deleteNamespace ns =>
    simp only [commit]
    split <;> exact ⟨rfl, rfl⟩
  | _ => contradiction

theorem cleanUp_untouched {i : ι} {faults : Nat → Fault} (n : Nat) (w : World ι) :
    Untouched w ((cleanUp req).run.perform (serve buildTransitDeny i) faults n w).2.2 :=
  clears_cleanUp.perform (fun _ => ⟨rfl, rfl⟩) (fun _ _ _ h h' => ⟨h'.1.trans h.1, h'.2.trans h.2⟩)
    (fun f w r hr => serve_untouched i f w r hr) n w

end CleanUp

section Left

/-- Nothing is there yet. -/
def bare : World Unit := ⟨∅, ∅, ∅, [], ∅, ∅, []⟩

/-- The one request that fails. -/
def failsAt (n : Nat) (k : Nat) : Fault := if k = n then { failure := some (.api 500) } else {}

theorem failure_failsAt {n k : Nat} (h : n < k) : (failsAt n k).failure = none := by
  rw [failsAt, if_neg (Nat.ne_of_gt h)]

theorem serve_eq_commit {i : ι} [DecidableEq ι] {fault : Fault} (h : fault.failure = none)
    (w : World ι) (r : Request) :
    serve buildTransitDeny i fault w r = commit buildTransitDeny i fault.address w r := by
  have hrefusal : refusal fault r = none := by
    cases r <;> simp only [refusal, h, Option.filter_none]
  rw [serve, hrefusal]

theorem build_leaves_binding (cfg : Config) (vip : String) (hstorage : req.enableStorage = true) :
    ∃ u : World Unit, Ends (serve buildTransitDeny ()) (failsAt 9) (buildTenant cfg req vip) 0 bare
      (.error (.api 500)) 10 u ∧ csiClusterBindingName req.name ∈ u.clusterRoleBindings := by
  have hcsi (w : World Unit) (hw : w.clusterRoleBindings = []) :
      ∃ u, Ends (serve buildTransitDeny ()) (failsAt 9)
        (onlyIf (req.enableStorage = true) (createCsiInfrastructureResources req)) 4 w
        (.error (.api 500)) 10 u ∧ csiClusterBindingName req.name ∈ u.clusterRoleBindings := by
    rw [onlyIf, if_pos hstorage]
    refine ⟨{ w with clusterRoleBindings := [csiClusterBindingName req.name] }, ?_,
      List.mem_singleton_self _⟩
    have hbinding : Ends (serve buildTransitDeny ()) (failsAt 9)
        (ignoring 409 (ask (.createClusterRoleBinding (csiClusterBindingName req.name)))) 8 w
        (.ok ()) 9 { w with clusterRoleBindings := [csiClusterBindingName req.name] } := by
      have hserve : serve buildTransitDeny () (failsAt 9 8) w
          (.createClusterRoleBinding (csiClusterBindingName req.name)) =
            (.ok (), { w with clusterRoleBindings := [csiClusterBindingName req.name] }) := by
        rw [serve_eq_commit rfl, commit, hw, if_neg List.not_mem_nil]
        rfl
      refine Ends.tryCatch_ok (a := ()) ?_
      have hask := Ends.ask (serve buildTransitDeny ()) (failsAt 9)
        (.createClusterRoleBinding (csiClusterBindingName req.name)) 8 w
      rwa [hserve] at hask
    exact .bind rfl <| .bind rfl <| .bind rfl <| .bind rfl <| .bind hbinding <| .bind_error rfl
  obtain ⟨u, hu, hmem⟩ := hcsi ((bare.setNamespace (tenantNs req.name) ⟨some (), false⟩).note
    (.created () (tenantNs req.name))) rfl
  exact ⟨u, .bind rfl <| .bind rfl <| .bind rfl <| .bind rfl <| .bind_error hu, hmem⟩

theorem ensureTenantSnat_makes {vpc subnet transit : String} (w : World Unit)
    (heips : w.ovnEips = ∅) (hrules : w.ovnSnatRules = ∅) :
    Ends (serve buildTransitDeny ()) (failsAt 19) (ensureTenantSnat req.name vpc subnet transit) 15
      w (.ok none) 19 { w with
        ovnEips := (∅ : AList fun _ : String => OvnEip).insert (eipName req.name) ⟨transit, none⟩
        ovnSnatRules := (∅ : AList fun _ : String => String).insert (snatName req.name)
          (eipName req.name) } := by
  obtain ⟨namespaces, subnets, ports, bindings, eips, rules, log⟩ := w
  obtain rfl : eips = ∅ := heips
  obtain rfl : rules = ∅ := hrules
  let made : World Unit := ⟨namespaces, subnets, ports, bindings,
    (∅ : AList fun _ : String => OvnEip).insert (eipName req.name) ⟨transit, none⟩,
    (∅ : AList fun _ : String => String).insert (snatName req.name) (eipName req.name), log⟩
  have hlookup : made.ovnEips.lookup (eipName req.name) = some ⟨transit, none⟩ :=
    lookup_insert _
  have hread : Ends (serve buildTransitDeny ()) (failsAt 19) (ask (.readEip (eipName req.name))) 18
      made (.ok (some ⟨transit, none⟩)) 19 made := by
    have hask := Ends.ask (serve buildTransitDeny ()) (failsAt 19) (.readEip (eipName req.name)) 18
      made
    rwa [serve_eq_commit rfl, commit, hlookup] at hask
  exact .bind rfl <| .bind rfl <| .bind rfl <| .bind hread .pure

theorem build_leaves_eip (vip : String) (htalos : req.workerOs = .talos)
    (hstorage : req.enableStorage = false) (hwired : Wired cfg req) : ∃ u : World Unit,
      Ends (serve buildTransitDeny ()) (failsAt 19) (buildTenant cfg req vip) 0 bare
        (.error (.api 500)) 20 u ∧ eipName req.name ∈ u.ovnEips := by
  obtain ⟨hvpc, hvip, htransit⟩ := hwired
  obtain ⟨vpc, hvpc'⟩ := Option.isSome_iff_exists.mp hvpc
  obtain ⟨transit, htransit'⟩ := Option.isSome_iff_exists.mp htransit
  let u₀ : World Unit := (bare.setNamespace (tenantNs req.name) ⟨some (), false⟩).note
    (.created () (tenantNs req.name))
  let u : World Unit := { u₀ with
    ovnEips := (∅ : AList fun _ : String => OvnEip).insert (eipName req.name) ⟨transit, none⟩
    ovnSnatRules := (∅ : AList fun _ : String => String).insert (snatName req.name)
      (eipName req.name) }
  refine ⟨u, ?_, (mem_insert _).mpr (.inl rfl)⟩
  have hnone (p : Call Unit) (n : Nat) (w : World Unit) :
      Ends (serve buildTransitDeny ()) (failsAt 19) (onlyIf (req.enableStorage = true) p) n w
        (.ok ()) n w := by
    rw [onlyIf, if_neg (by rw [hstorage]; exact Bool.false_ne_true)]
    exact .pure
  have hvipStep : Ends (serve buildTransitDeny ()) (failsAt 19)
      (onlyIf (req.vpc.isSome = true ∧ cfg.perTenantVip = true) (step .vip)) 4 u₀ (.ok ()) 5
      u₀ := by
    rw [onlyIf, if_pos ⟨hvpc, hvip⟩]
    rfl
  have hobjects : Ends (serve buildTransitDeny ()) (failsAt 19)
      (onlyIf (req.workerOs = .talos) do
        onlyIf (req.vpc.isSome = true ∧ cfg.perTenantVip = true) (step .vip)
        step .talosObjects
        step .time
        step .goldenRbac
        step .goldenImage) 4 u₀ (.ok ()) 9 u₀ := by
    rw [onlyIf, if_pos htalos]
    exact .bind hvipStep <| .bind rfl <| .bind rfl <| .bind rfl rfl
  have hwire (ports udpPorts : List Int) : Ends (serve buildTransitDeny ()) (failsAt 19)
      (wireTenantToTransit cfg req.name vpc vip ports udpPorts) 14 u₀ (.ok ()) 19 u := by
    rw [wireTenantToTransit, htransit']
    exact .tryCatch_ok (.bind rfl (.bind (ensureTenantSnat_makes u₀ rfl rfl) .pure))
  have hrest (more : Call Unit) : Ends (serve buildTransitDeny ()) (failsAt 19)
      (do createWorkers req; step .ingress; more) 19 u (.error (.api 500)) 20 u := by
    unfold createWorkers
    cases req.workerType with
    | bareMetal => exact .bind .pure (.bind_error rfl)
    | vm =>
      refine .bind_error (.bind_error ?_)
      rw [onlyIf, if_pos htalos]
      exact .bind_error rfl
  have hcapi : Ends (serve buildTransitDeny ()) (failsAt 19) (createCapiResources cfg req vip) 9 u₀
      (.error (.api 500)) 20 u := by
    unfold createCapiResources
    rw [hvpc']
    simp only [if_pos hvip]
    exact .bind rfl <| .bind rfl <| .bind rfl <| .bind (hwire _ _) (hrest _)
  exact .bind rfl <| .bind rfl <| .bind rfl <| .bind rfl <| .bind (hnone _ 4 u₀) <|
    .bind hobjects <| .bind_error hcapi

theorem LeavesNothing.clean {n : Nat} {u : World Unit} (h : LeavesNothing buildTransitDeny cfg req)
    (hbuild : Ends (serve buildTransitDeny ()) (failsAt n) (buildTenant cfg req "") 0 bare
      (.error (.api 500)) (n + 1) u) :
    csiClusterBindingName req.name ∉ u.clusterRoleBindings ∧ eipName req.name ∉ u.ovnEips := by
  have hresidue := h "" (failsAt n) bare u _ _ _ _ _ hbuild rfl (fun k hk => failure_failsAt hk) rfl
  have hsame : Untouched u ((cleanUp req).run.perform (serve buildTransitDeny ()) (failsAt n)
      (n + 1) u).2.2 := cleanUp_untouched (n + 1) u
  constructor
  · intro hmem
    rw [← hsame.clusterRoleBindings] at hmem
    exact List.not_mem_nil (hresidue.clusterRoleBinding hmem)
  · intro hmem
    rw [← hsame.ovnEips] at hmem
    exact notMem_empty _ (hresidue.eip hmem)

theorem LeavesNothing.storeless (h : LeavesNothing buildTransitDeny cfg req) :
    req.enableStorage = false := by
  rw [Bool.eq_false_iff]
  intro hstorage
  obtain ⟨u, hbuild, hmem⟩ := build_leaves_binding cfg "" hstorage
  exact (h.clean hbuild).1 hmem

/-- No residue is left by any failure exactly if the creation neither provides storage nor wires
the tenant. -/
theorem leavesNothing_iff (buildTransitDeny : String → List String → Option Rule) (cfg : Config)
    (req : TenantRequest) (htalos : req.workerOs = .talos) :
    LeavesNothing buildTransitDeny cfg req ↔ req.enableStorage = false ∧ ¬ Wired cfg req := by
  constructor
  · intro h
    refine ⟨h.storeless, fun hwired => ?_⟩
    obtain ⟨u, hbuild, hmem⟩ := build_leaves_eip "" htalos h.storeless hwired
    exact (h.clean hbuild).2 hmem
  · rintro ⟨hstorage, hwired⟩ vip faults w u v e n x m hbuild - - hclean
    have hbuilt : NoResidue req.name w u := by
      have hkept : NoResidue req.name w
          ((buildTenant cfg req vip).run.perform (serve buildTransitDeny ()) faults 0 w).2.2 :=
        noResidue_perform (addsNothing_buildTenant htalos hstorage hwired) 0 w
      rwa [hbuild] at hkept
    have hcleaned : NoResidue req.name u v := by
      have hadds : Asks (fun r => r.adds = false) (cleanUp req) :=
        clears_cleanUp.mono fun _ => adds_of_clears
      have hkept : NoResidue req.name u
          ((cleanUp req).run.perform (serve buildTransitDeny ()) faults n u).2.2 :=
        noResidue_perform hadds n u
      rwa [hclean] at hkept
    exact hbuilt.trans hcleaned

end Left

section Example

/-- A deployment with addresses of the tenants' own. -/
def pier : Config where
  transitSubnet := some "cp-transit"
  perTenantVip := true
  demuxVip := ""
  pool := ⟨20000, 60000, [8133, 8134]⟩
  addons := true

def ferry : TenantRequest where
  name := "ferry"
  vpcName := none
  workerOs := .talos
  workerType := .vm
  enableStorage := false

theorem leavesNothing_iff_ferry : LeavesNothing (fun _ _ => none) pier ferry := by
  refine (leavesNothing_iff (fun _ _ => none) pier ferry rfl).mpr ⟨rfl, ?_⟩
  rintro ⟨hvpc, -⟩
  exact absurd hvpc Bool.false_ne_true

/-- A tenant with storage whose token is refused leaves its ClusterRoleBinding. -/
theorem not_leavesNothing_storage :
    ¬ LeavesNothing (fun _ _ => none) pier { ferry with enableStorage := true } :=
  fun h => absurd h.storeless (by decide)

end Example

end Tenancy.Creation
