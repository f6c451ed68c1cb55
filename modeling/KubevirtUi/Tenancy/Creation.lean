import KubevirtUi.Tenancy.Cluster

/-!
# The calls that create a tenant, and that delete one

A tenant is created in many steps, and a step that fails is followed by a clean-up: the entries of
Subnets, the ports and the namespace are given back by name. A tenant that is deleted gives back
these and more.
-/

namespace Tenancy.Creation

open Interference
open Acl (Rule)

abbrev Call (α : Type) := ExceptT Failure (Program Request Request.Response) α

def ask (r : Request) : Call r.Result := ExceptT.mk (Program.ask r)

def step (s : Step) : Call Unit := ask (.step s)

inductive WorkerOs where
  | cloudInit
  | talos
  deriving DecidableEq

inductive WorkerType where
  | vm
  | bareMetal
  deriving DecidableEq

structure TenantRequest where
  name : String
  vpcName : Option String
  workerOs : WorkerOs
  workerType : WorkerType
  enableStorage : Bool

/-- What the deployment is configured with. -/
structure Config where
  transitSubnet : Option String
  perTenantVip : Bool
  demuxVip : String
  pool : Pool
  /-- Whether there is anything to install, and a repository to take it from. -/
  addons : Bool

def tenantNs (name : String) : String := "tenant-" ++ name

def csiClusterBindingName (tenant : String) : String := "kubevirt-csi-cluster-binding-" ++ tenant

def eipName (tenant : String) : String := "cpt-eip-" ++ tenant

def snatName (tenant : String) : String := "cpt-snat-" ++ tenant

/-- The VPC that is asked for. An empty name asks for none. -/
def TenantRequest.vpc (req : TenantRequest) : Option String := req.vpcName.filter (· ≠ "")

/-- An error of this status counts as success. -/
def ignoring (status : Nat) (p : Call Unit) : Call Unit :=
  tryCatch p fun e => if e = .api status then return else throw e

def onlyIf (c : Prop) [Decidable c] (p : Call Unit) : Call Unit := if c then p else return

/-- Whatever is raised is dropped. -/
def quietly (p : Call Unit) : Call Unit := tryCatch p fun _ => return

section Transit

/-- The address that the tenant leaves under: one that is there, or one of its own. -/
def ensureTenantSnat (tenant vpc subnet transit : String) : Call (Option String) := do
  let inherited ← ask (.existingSnat vpc subnet (snatName tenant) transit)
  if (inherited.getD "") ≠ "" then return inherited
  else do
    ignoring 409 (ask (.createEip (eipName tenant) transit))
    ignoring 409 (ask (.createSnatRule (snatName tenant) (eipName tenant)))
    let item ← ask (.readEip (eipName tenant))
    return (item.bind OvnEip.v4Ip).filter (· ≠ "")

/-- The addresses that are held on the plane, if it can be told. -/
def liveTransitAddresses (transit : String) : Call (Option (List String)) :=
  tryCatch (do
    let items ← ask .listEips
    return some ((items.filter fun item => item.externalSubnet = transit).filterMap fun item =>
      item.v4Ip.filter (· ≠ "")))
  fun e => match e with
    | .api _ => return none
    | e => throw e

def ensureTransitAcls (transit eip vip : String) (ports udpPorts : List Int) : Call Unit := do
  let wanted := Transit.allows eip vip ports udpPorts
  onlyIf (wanted ≠ []) do
    let live ← liveTransitAddresses transit
    ask (.ensureAcls transit (live.map (eip :: ·)) wanted)

/-- What fails here does not fail the creation, but for what nobody expects. -/
def wireTenantToTransit (cfg : Config) (tenant vpc vip : String) (ports udpPorts : List Int) :
    Call Unit :=
  match cfg.transitSubnet with
  | none => return
  | some transit =>
    tryCatch (do
      step .attach
      match ← ensureTenantSnat tenant vpc (vpc ++ "-default") transit with
      | some eip => ensureTransitAcls transit eip vip ports udpPorts
      | none => return)
    fun e => match e with
      | .slotTaken => tryCatch (step .transitConflict) fun e => match e with
        | .api _ => return
        | e => throw e
      | .api _ | .lookup => return
      | e => throw e

end Transit

/-- Remove the entry where it was read; one that has moved is looked for again. -/
def detachSubnetNsWithRetry (name ns : String) : Nat → List String → Call Unit
  | 0, _ => return
  | left + 1, namespaces =>
    match namespaces.idxOf? ns with
    | none => return
    | some index => do
      let again ← tryCatch (do
          ask (.removeNamespace name ns index)
          return false)
        fun e => match e with
          | .api status => return decide (status = 409 ∨ status = 422)
          | e => throw e
      if again then
        let found ← tryCatch (some <$> ask (.readSubnet name)) fun e => match e with
          | .api _ => return none
          | e => throw e
        match found with
        | none => return
        | some namespaces => detachSubnetNsWithRetry name ns left namespaces
      else return

def detachTenantNsFromVpcSubnet (tenant : String) : Call Unit := do
  let found ← tryCatch (some <$> ask .listSubnets) fun e => match e with
    | .api _ => return none
    | e => throw e
  match found with
  | none => return
  | some subnets =>
    subnets.forM fun subnet =>
      if tenantNs tenant ∈ subnet.2 ∧ subnet.1 ≠ "" then
        detachSubnetNsWithRetry subnet.1 (tenantNs tenant) 5 subnet.2
      else return

def createCsiInfrastructureResources (req : TenantRequest) : Call Unit := do
  step .serviceAccount
  step .role
  step .roleBinding
  step .clusterRole
  ignoring 409 (ask (.createClusterRoleBinding (csiClusterBindingName req.name)))
  step .token
  step .apiUrl
  step .kubeconfig
  step .capk
  step .storageQuota

section Capi

variable (cfg : Config) (req : TenantRequest)

/-- The machines, and what they start from. -/
def createWorkers : Call Unit :=
  match req.workerType with
  | .bareMetal => return
  | .vm => do
    onlyIf (req.workerOs = .talos) do
      step .talosSecrets
      step .serviceIp
      step .kubernetesCa
    step .machineDeployment
    step .machineTemplate
    step .healthCheck
    step .configTemplate

/-- The objects of the cluster, in their order. The address of the control plane is settled
before. -/
def createCluster : Call Unit := do
  step .kamajiControlPlane
  step .kubevirtCluster
  step .cluster

def createCapiResources (vip : String) : Call Unit :=
  match req.vpc with
  | none => do
    createCluster
    step .tcpService
    step .endpoint
    createWorkers req
    step .ingress
  | some vpc =>
    if cfg.perTenantVip then do
      step .pool
      step .vip
      createCluster
      let talos : Bool := req.workerOs = .talos
      wireTenantToTransit cfg req.name vpc vip
        ([Transit.tenantAPIPort, Transit.tenantKonnPort] ++
          if talos then [Transit.tenantTrustdPort] else [])
        (if talos then [Transit.ntpPort] else [])
      createWorkers req
      step .ingress
      onlyIf (talos = true) (step .trustdIngress)
    else if cfg.demuxVip = "" then throw (.http 422)
    else if req.workerOs = .talos then throw (.http 422)
    else do
      let (apiPort, konnPort) ← ask (.allocatePorts cfg.pool req.name)
      createCluster
      step .cpLb
      wireTenantToTransit cfg req.name vpc cfg.demuxVip [(apiPort : Int), (konnPort : Int)] []
      createWorkers req
      step .ingress

end Capi

section Create

variable (cfg : Config) (req : TenantRequest) (vip : String)

/-- What the clause after the build catches. -/
def Failure.caught : Failure → Bool
  | .api _ | .runtime | .http _ => true
  | _ => false

/-- What the client is told. -/
def Failure.reported : Failure → Failure
  | .api status => .http (if 500 ≤ status then 502 else status)
  | .runtime => .http 500
  | e => e

def buildTenant : Call Unit := do
  step .ceiling
  ask (.createNamespace (tenantNs req.name))
  step .quota
  quietly (step .rbac)
  onlyIf (req.enableStorage = true) (createCsiInfrastructureResources req)
  onlyIf (req.workerOs = .talos) do
    onlyIf (req.vpc.isSome = true ∧ cfg.perTenantVip = true) (step .vip)
    step .talosObjects
    step .time
    step .goldenRbac
    step .goldenImage
  createCapiResources cfg req vip
  step .catalog
  onlyIf (cfg.addons = true) (step .addons)
  onlyIf (req.enableStorage = true) (quietly (step .credentials))

def cleanUp : Call Unit := do
  quietly (detachTenantNsFromVpcSubnet req.name)
  onlyIf (req.vpc.isSome = true) (quietly (ask (.releasePorts req.name)))
  quietly (ask (.deleteNamespace (tenantNs req.name)))

def namespaceExists (ns : String) : Call Bool :=
  tryCatch (do
    ask (.readNamespace ns)
    return true)
  fun e => if e = .api 404 then return false else throw e

/-- Validation, with the check that there is no such tenant last but one. -/
def validateTenant : Call Unit := do
  onlyIf (req.workerOs ≠ .talos) (throw (.http 422))
  step .preflight
  step .admission
  let standing ← namespaceExists (tenantNs req.name)
  onlyIf (standing = true) (throw (.http 409))
  onlyIf (req.vpc.isSome = true) (step .vpc)

def createTenant : Call Unit := do
  validateTenant req
  tryCatch (buildTenant cfg req vip) fun e =>
    if e.caught then do
      cleanUp req
      throw e.reported
    else throw e

end Create

/-- The tenant is given a way of its own to the control plane. -/
def Wired (cfg : Config) (req : TenantRequest) : Prop :=
  req.vpc.isSome = true ∧ cfg.perTenantVip = true ∧ cfg.transitSubnet.isSome = true

/-- The requests by which it is given. -/
def Request.wires : Request → Bool
  | .existingSnat .. | .createEip .. | .readEip _ | .createSnatRule .. | .listEips
  | .ensureAcls .. => true
  | _ => false

variable {p : Call Unit} {tenant : String}

section Asked

variable {cfg : Config} {req : TenantRequest} {vip : String} {among : Request → Prop}

abbrev Asks {α : Type} (among : Request → Prop) (p : Call α) : Prop := Every among p.run

theorem asks_onlyIf {c : Prop} [Decidable c] (h : c → Asks among p) : Asks among (onlyIf c p) := by
  unfold onlyIf
  split
  · next hc => exact h hc
  · exact .pure ()

theorem asks_quietly (h : Asks among p) : Asks among (quietly p) :=
  .tryCatch h fun _ => .pure ()

theorem asks_ignoring {status : Nat} (h : Asks among p) : Asks among (ignoring status p) := by
  refine .tryCatch h fun e => ?_
  split
  · exact .pure ()
  · exact .throw _

theorem asks_detachSubnetNsWithRetry {name ns : String} (hread : ∀ name, among (.readSubnet name))
    (hremove : ∀ name index, among (.removeNamespace name ns index)) (left : Nat)
    (namespaces : List String) : Asks among (detachSubnetNsWithRetry name ns left namespaces) := by
  induction left generalizing namespaces with
  | zero => exact .pure ()
  | succ left ih =>
    unfold detachSubnetNsWithRetry
    cases namespaces.idxOf? ns with
    | none => exact .pure ()
    | some index =>
      have hremoved : Asks among (tryCatch (do
            ask (.removeNamespace name ns index)
            return false)
          fun e => match e with
            | .api status => return decide (status = 409 ∨ status = 422)
            | e => throw e) := by
        refine .tryCatch (.bind (Every.ask (hremove name index)) fun _ => .pure _) fun e => ?_
        cases e with
        | api status => exact .pure _
        | _ => exact .throw _
      have hagain : Asks among (tryCatch (some <$> ask (.readSubnet name)) fun e => match e with
          | .api _ => return none
          | e => throw e) := by
        refine .tryCatch (.bind (Every.ask (hread name)) fun _ => .pure _) fun e => ?_
        cases e with
        | api status => exact .pure _
        | _ => exact .throw _
      refine .bind hremoved fun again => ?_
      cases again with
      | false => exact .pure ()
      | true =>
        refine .bind hagain fun found => ?_
        cases found with
        | none => exact .pure ()
        | some namespaces => exact ih namespaces

theorem asks_detachTenantNs (hlist : among .listSubnets) (hread : ∀ name, among (.readSubnet name))
    (hremove : ∀ name index, among (.removeNamespace name (tenantNs tenant) index)) :
    Asks among (detachTenantNsFromVpcSubnet tenant) := by
  refine .bind (.tryCatch (.bind (Every.ask hlist) fun _ => .pure _) fun e => ?_) fun found => ?_
  · cases e with
    | api status => exact .pure _
    | _ => exact .throw _
  · cases found with
    | none => exact .pure ()
    | some subnets =>
      refine .forM fun subnet _ => ?_
      split
      · exact asks_detachSubnetNsWithRetry hread hremove 5 subnet.2
      · exact .pure ()

theorem asks_cleanUp (hlist : among .listSubnets) (hread : ∀ name, among (.readSubnet name))
    (hremove : ∀ name index, among (.removeNamespace name (tenantNs req.name) index))
    (hrelease : req.vpc.isSome = true → among (.releasePorts req.name))
    (hdelete : among (.deleteNamespace (tenantNs req.name))) : Asks among (cleanUp req) :=
  .bind (asks_quietly (asks_detachTenantNs hlist hread hremove)) fun _ =>
    .bind (asks_onlyIf fun hvpc => asks_quietly (Every.ask (hrelease hvpc))) fun _ =>
      asks_quietly (Every.ask hdelete)

variable (hstep : ∀ s, among (.step s))
include hstep

theorem asks_step (s : Step) : Asks among (step s) := Every.ask (hstep s)

theorem asks_createCluster : Asks among createCluster :=
  .bind (asks_step hstep _) fun _ => .bind (asks_step hstep _) fun _ => asks_step hstep _

theorem asks_createWorkers : Asks among (createWorkers req) := by
  have hsteps (s₁ s₂ s₃ : Step) : Asks among (do step s₁; step s₂; step s₃) :=
    .bind (asks_step hstep _) fun _ => .bind (asks_step hstep _) fun _ => asks_step hstep _
  unfold createWorkers
  cases req.workerType with
  | bareMetal => exact .pure ()
  | vm =>
    exact .bind (asks_onlyIf fun _ => hsteps _ _ _) fun _ =>
      .bind (asks_step hstep _) fun _ => hsteps _ _ _

theorem asks_wireTenantToTransit {vpc : String} {ports udpPorts : List Int}
    (hwire : cfg.transitSubnet.isSome = true → ∀ r, r.wires = true → among r) :
    Asks among (wireTenantToTransit cfg tenant vpc vip ports udpPorts) := by
  unfold wireTenantToTransit
  cases htransit : cfg.transitSubnet with
  | none => exact .pure ()
  | some transit =>
    have hask {r : Request} (hr : r.wires = true) : Asks among (ask r) :=
      Every.ask (hwire (by rw [htransit]; rfl) r hr)
    have hsnat : Asks among (ensureTenantSnat tenant vpc (vpc ++ "-default") transit) := by
      refine .bind (hask rfl) fun inherited => ?_
      split
      · exact .pure _
      · exact .bind (asks_ignoring (hask rfl)) fun _ => .bind (asks_ignoring (hask rfl)) fun _ =>
          .bind (hask rfl) fun _ => .pure _
    have hlive : Asks among (liveTransitAddresses transit) := by
      refine .tryCatch (.bind (hask rfl) fun _ => .pure _) fun e => ?_
      cases e with
      | api status => exact .pure _
      | _ => exact .throw _
    refine .tryCatch (.bind (asks_step hstep _) fun _ => .bind hsnat fun eip => ?_) fun e => ?_
    · cases eip with
      | none => exact .pure ()
      | some eip => exact asks_onlyIf fun _ => .bind hlive fun _ => hask rfl
    · cases e with
      | slotTaken =>
        refine .tryCatch (asks_step hstep _) fun e => ?_
        cases e with
        | api status => exact .pure _
        | _ => exact .throw _
      | api status => exact .pure ()
      | lookup => exact .pure ()
      | _ => exact .throw _

theorem asks_createCapiResources (htalos : req.workerOs = .talos)
    (hwire : Wired cfg req → ∀ r, r.wires = true → among r) :
    Asks among (createCapiResources cfg req vip) := by
  unfold createCapiResources
  cases hvpc : req.vpc with
  | none =>
    exact .bind (asks_createCluster hstep) fun _ => .bind (asks_step hstep _) fun _ =>
      .bind (asks_step hstep _) fun _ => .bind (asks_createWorkers hstep) fun _ =>
        asks_step hstep _
  | some vpc =>
    dsimp only
    split
    · next hvip =>
      have hwired (htransit : cfg.transitSubnet.isSome = true) :
          ∀ r : Request, r.wires = true → among r :=
        hwire ⟨by rw [hvpc]; rfl, hvip, htransit⟩
      exact .bind (asks_step hstep _) fun _ => .bind (asks_step hstep _) fun _ =>
        .bind (asks_createCluster hstep) fun _ =>
          .bind (asks_wireTenantToTransit hstep hwired) fun _ =>
            .bind (asks_createWorkers hstep) fun _ => .bind (asks_step hstep _) fun _ =>
              asks_onlyIf fun _ => asks_step hstep _
    · split <;> exact .throw _

theorem asks_buildTenant (htalos : req.workerOs = .talos)
    (hcreate : among (.createNamespace (tenantNs req.name))) (hstorage : req.enableStorage = true →
      among (.createClusterRoleBinding (csiClusterBindingName req.name)))
    (hwire : Wired cfg req → ∀ r, r.wires = true → among r) :
    Asks among (buildTenant cfg req vip) := by
  have hasks := asks_step hstep
  have hobjects : Asks among (do
      onlyIf (req.vpc.isSome = true ∧ cfg.perTenantVip = true) (step .vip)
      step .talosObjects
      step .time
      step .goldenRbac
      step .goldenImage) :=
    .bind (asks_onlyIf fun _ => hasks _) fun _ =>
      .bind (hasks _) fun _ => .bind (hasks _) fun _ =>
        .bind (hasks _) fun _ => hasks _
  have hcsi (h : req.enableStorage = true) :
      Asks among (createCsiInfrastructureResources req) :=
    .bind (hasks _) fun _ => .bind (hasks _) fun _ =>
      .bind (hasks _) fun _ => .bind (hasks _) fun _ =>
        .bind (asks_ignoring (Every.ask (hstorage h))) fun _ => .bind (hasks _) fun _ =>
          .bind (hasks _) fun _ => .bind (hasks _) fun _ =>
            .bind (hasks _) fun _ => hasks _
  exact .bind (hasks _) fun _ => .bind (Every.ask hcreate) fun _ =>
    .bind (hasks _) fun _ => .bind (asks_quietly (hasks _)) fun _ =>
      .bind (asks_onlyIf hcsi) fun _ => .bind (asks_onlyIf fun _ => hobjects) fun _ =>
        .bind (asks_createCapiResources hstep htalos hwire) fun _ =>
          .bind (hasks _) fun _ => .bind (asks_onlyIf fun _ => hasks _) fun _ =>
            asks_onlyIf fun _ => asks_quietly (hasks _)

end Asked

end Tenancy.Creation
