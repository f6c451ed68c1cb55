import KubevirtUi.Library.Json
import KubevirtUi.Library.Machine

/-!
# What the workers of a Talos tenant boot with

The config of a worker stands as YAML in a template that is never changed. One reconciler writes
the template and the pool that refers to it. Another one writes a second template where the first
has no Kubernetes CA, and turns the pool to it. What a pass reads besides, and where it is cut
short, is given with the pass.

How YAML is written and read is a parameter, as is how bytes become a text.
-/

namespace Workers

open Json

def base64Digits : List Char :=
  "ABCDEFGHIJKLMNOPQRSTUVWXYZabcdefghijklmnopqrstuvwxyz0123456789+/".toList

def digit (n : Nat) : Char := base64Digits.getD n '='

/-- Three bytes are four digits. -/
def encode : List Nat → List Char
  | [] => []
  | [a] => [digit (a / 4), digit (a % 4 * 16), '=', '=']
  | [a, b] => [digit (a / 4), digit (a % 4 * 16 + b / 16), digit (b % 16 * 4), '=']
  | a :: b :: c :: rest =>
    digit (a / 4) :: digit (a % 4 * 16 + b / 16) :: digit (b % 16 * 4 + c / 64) :: digit (c % 64) ::
      encode rest

/-- `base64.StdEncoding.EncodeToString` -/
def encodeToString (data : List UInt8) : String := String.ofList (encode (data.map UInt8.toNat))

/-- The fields of a config. -/
abbrev Config := List (String × Json)

/-- The fields of `spec.template.spec`. -/
structure Template where
  labels : List (String × String)
  spec : List (String × Json)

def Template.data (template : Template) : String :=
  match template.spec.lookup "data" with
  | some (.str data) => data
  | _ => ""

/-- The `cluster` branch, if it is an object. -/
def clusterOf (config : Config) : Option (List (String × Json)) :=
  match config.lookup "cluster" with
  | some (.obj cluster) => some cluster
  | _ => none

def lacksCA (config : Config) : Bool :=
  match clusterOf config with
  | none => true
  | some cluster =>
    (cluster.lookup "ca").getD .null = .null && (cluster.lookup "acceptedCAs").getD .null = .null

def certificate (crt : String) : Json := .obj [("crt", .str crt)]

/-- The config with the CA in it. -/
def repairedConfig (config : Config) (ca : String) : Config :=
  let cluster := (clusterOf config).getD []
  let cluster := setField "acceptedCAs" (.arr [certificate ca])
    (setField "ca" (certificate ca) cluster)
  setField "cluster" (.obj cluster) config

structure MachineSecrets where
  machineToken : String
  clusterID : String
  clusterSecret : String

/-- What a pass for the tenant is given: its description, what is read, and what is answered. -/
structure TenantPass where
  namespaceName : String
  kubernetesVersion : String
  network : String
  podCIDR : String
  serviceCIDR : String
  count : Int
  vip : String
  addressNeeded : Bool
  /-- The machine secrets, if that is answered, and if they are there. -/
  secrets : Option (Option MachineSecrets)
  /-- What the network resolves through, "" if it does not say. -/
  vpcResolver : String
  talosCA : Option (Option (List UInt8))
  caAnswered : Bool
  templateAnswered : Bool
  createAnswered : Bool
  /-- The machine template, if it is written. -/
  machineTemplate : Option String
  deploymentAnswered : Bool

def signerDNSNames (tenant namespaceName : String) : List String :=
  [tenant ++ "-talos" ++ "." ++ namespaceName ++ ".svc",
    tenant ++ "-talos" ++ "." ++ namespaceName ++ ".svc.cluster.local"]

def toAny (values : List String) : Json := .arr (values.map .str)

def workerNameservers (pass : TenantPass) : List String :=
  let nearest := [pass.vpcResolver].filter fun vip => pass.network ≠ "" && vip ≠ ""
  nearest ++ ["1.1.1.1", "8.8.8.8"]

def workerTimeServers (vip : String) : List String :=
  [vip].filter (· ≠ "") ++ ["time.cloudflare.com", "pool.ntp.org"]

/-- The config that a worker boots with. -/
def talosWorkerConfig (tenant : String) (pass : TenantPass) (secrets : MachineSecrets)
    (talosCA k8sCA : String) : Config :=
  let endpointHost :=
    if pass.addressNeeded then pass.vip else tenant ++ "-talos" ++ "." ++
    pass.namespaceName ++ ".svc"
  let pinned := if pass.addressNeeded then pass.vip else ""
  let hostEntries := .arr [.obj [("ip", .str pinned),
    ("aliases", toAny (signerDNSNames tenant pass.namespaceName))]]
  let machineNetwork := [("extraHostEntries", hostEntries)].filter (fun _ => pinned ≠ "") ++
    [("nameservers", toAny (workerNameservers pass))]
  let disabled := .obj [("disabled", .bool true)]
  [("version", .str "v1alpha1"),
    ("machine", .obj [
      ("type", .str "worker"),
      ("token", .str secrets.machineToken),
      ("network", .obj machineNetwork),
      ("features", .obj [("kubePrism", .obj [("enabled", .bool false)])]),
      ("kubelet", .obj [
        ("extraArgs", .obj [("rotate-certificates", .str "true")]),
        ("image", .str ("ghcr.io/siderolabs/kubelet:" ++ pass.kubernetesVersion))]),
      ("ca", certificate talosCA),
      ("acceptedCAs", .arr [certificate talosCA]),
      ("time", .obj [("servers", toAny (workerTimeServers pass.vip))])]),
    ("cluster", .obj [
      ("id", .str secrets.clusterID),
      ("secret", .str secrets.clusterSecret),
      ("token", .str secrets.machineToken),
      ("controlPlane", .obj [("endpoint", .str ("https://" ++ endpointHost ++ ":6443"))]),
      ("network", .obj [
        ("podSubnets", toAny [pass.podCIDR]),
        ("serviceSubnets", toAny [pass.serviceCIDR])]),
      ("ca", certificate k8sCA),
      ("acceptedCAs", .arr [certificate k8sCA]),
      ("discovery", .obj [
        ("enabled", .bool true),
        ("registries", .obj [("kubernetes", disabled), ("service", disabled)])])])]

structure MachineDeployment where
  clusterName : String
  replicas : Int
  version : String
  nodeDrainTimeout : String
  /-- The name of the template that the workers boot with. -/
  bootstrap : String
  infrastructure : String

/-- What the passes share of one tenant. -/
structure World where
  template : Option Template
  repaired : Option Template
  /-- The bytes of the CA, once the Secret is there. -/
  secret : Option (List UInt8)
  deployment : Option MachineDeployment

def templateName (tenant : String) : String := tenant ++ "-workers"

def repairedName (tenant : String) : String := tenant ++ "-workers-ca"

def World.named (w : World) (tenant name : String) : Option Template :=
  if name = templateName tenant then w.template
  else if name = repairedName tenant then w.repaired else none

/-- Why a pass stops before its end. -/
inductive Stop where
  | failed
  | waiting (reason : String)
  deriving DecidableEq

/-- A Secret's field encoded, "" where there is no Secret, unless it is not answered. -/
def certificateFrom : Option (Option (List UInt8)) → Except Stop String
  | none => .error .failed
  | some none => .ok ""
  | some (some data) => .ok (encodeToString data)

section Passes

variable (marshal : Config → String) (unmarshal : String → Option Config)
  (text : List UInt8 → String) (tenant : String)

/-- `templateLacksClusterCA`: the config, unless it cannot be read, and whether the CA is not in
it. -/
def templateLacksClusterCA (template : Template) : Option (Config × Bool) :=
  if template.data = "" then none
  else (unmarshal template.data).map fun config => (config, lacksCA config)

def resolverPending (pass : TenantPass) : Bool := pass.network ≠ "" && pass.vpcResolver = ""

/-- The template that a pass for the tenant writes. -/
def createdTemplate (config : Config) : Template where
  labels := [("kubevirt-ui.io/managed", "true"), ("kubevirt-ui.io/tenant", tenant)]
  spec := [("generateType", .str "none"), ("data", .str (marshal config))]

/-- The world with a template in it, or why there is none. -/
def ensureTalosBootstrap (pass : TenantPass) (w : World) : Except Stop World :=
  match pass.secrets with
  | none => .error .failed
  | some none => .error (.waiting "WaitingForSecrets")
  | some (some secrets) =>
    if resolverPending pass then .error (.waiting "WaitingForResolver")
    else do
      let talosCA ← certificateFrom pass.talosCA
      if talosCA = "" then .error (.waiting "WaitingForTalosCA")
      else do
        let k8sCA ← certificateFrom (if pass.caAnswered then some w.secret else none)
        if k8sCA = "" then .error (.waiting "WaitingForKubernetesCA")
        else if pass.templateAnswered = false then .error .failed
        else match w.template with
          | some _ => .ok w
          | none =>
            if pass.createAnswered = false then .error .failed
            else
              let config := talosWorkerConfig tenant pass secrets talosCA k8sCA
              .ok { w with template := some (createdTemplate marshal tenant config) }

/-- What the pass declares of the pool. -/
def declared (pass : TenantPass) (bootstrap infrastructure : String) : MachineDeployment where
  clusterName := tenant
  replicas := pass.count
  version := pass.kubernetesVersion
  nodeDrainTimeout := "5m"
  bootstrap := bootstrap
  infrastructure := infrastructure

/-- A pass for the tenant, and why it stopped, if it did before the pool was declared. -/
def reconcileWorkers (pass : TenantPass) (w : World) : World × Option Stop :=
  match ensureTalosBootstrap marshal tenant pass w with
  | .error stop => (w, some stop)
  | .ok w =>
    match pass.machineTemplate with
    | none => (w, some .failed)
    | some infrastructure =>
      if pass.deploymentAnswered = false then (w, some .failed)
      else
        let deployment := declared tenant pass (templateName tenant) infrastructure
        ({ w with deployment := some deployment }, none)

/-- What a pass of the repair is answered. -/
structure BootstrapPass where
  /-- The namespace is there, has the tenant's label, and is not being deleted. -/
  namespaceManaged : Bool
  templateAnswered : Bool
  caAnswered : Bool
  createAnswered : Bool
  deploymentAnswered : Bool
  patchAnswered : Bool

/-- The replacement, and nothing if there is one already. -/
def writeRepairedTemplate (original : Template) (config : Config) (ca : String) (w : World) :
    World :=
  match w.repaired with
  | some _ => w
  | none =>
    let spec := setField "data" (.str (marshal (repairedConfig config ca))) original.spec
    let labels := ("kubevirt-ui.io/managed", "true") ::
      original.labels.filter (·.1 ≠ "kubevirt-ui.io/managed")
    { w with repaired := some ⟨labels, spec⟩ }

/-- Turn the pool to the replacement. -/
def repointDeployment (pass : BootstrapPass) (w : World) : World × Option Stop :=
  if pass.deploymentAnswered = false then (w, some .failed)
  else match w.deployment with
    | none => (w, none)
    | some deployment =>
      if deployment.bootstrap = repairedName tenant then (w, none)
      else if pass.patchAnswered = false then (w, some .failed)
      else
        ({ w with deployment := some { deployment with bootstrap := repairedName tenant } }, none)

/-- A pass of the repair. The CA goes in as the Secret has it. -/
def reconcile (pass : BootstrapPass) (w : World) : World × Option Stop :=
  if pass.namespaceManaged = false then (w, some .failed)
  else if pass.templateAnswered = false then (w, some .failed)
  else match w.template with
    | none => (w, none)
    | some template =>
      match templateLacksClusterCA unmarshal template with
      | none => (w, none)
      | some (_, false) => (w, none)
      | some (config, true) =>
        if pass.caAnswered = false then (w, some .failed)
        else match w.secret.getD [] with
          | [] => (w, none)
          | ca =>
            if w.repaired = none ∧ pass.createAnswered = false then (w, some .failed)
            else repointDeployment tenant pass
              (writeRepairedTemplate marshal template config (text ca) w)

inductive Event where
  | secretArrives
  | tenant (pass : TenantPass)
  | bootstrap (pass : BootstrapPass)

/-- The world, and which of the two have passed since the last change. -/
structure State where
  world : World
  tenantPassed : Bool
  bootstrapPassed : Bool

def State.start (w : World) : State := ⟨w, false, false⟩

/-- One event: `crt` is what the Secret has when it arrives. -/
def next (crt : List UInt8) (s : State) : Event → Option State
  | .secretArrives =>
    match s.world.secret with
    | some _ => none
    | none => some (.start { s.world with secret := some crt })
  | .tenant pass =>
    let (w, stop) := reconcileWorkers marshal tenant pass s.world
    some { s with world := w, tenantPassed := s.tenantPassed || stop = none }
  | .bootstrap pass =>
    let (w, stop) := reconcile marshal unmarshal text tenant pass s.world
    some { s with world := w, bootstrapPassed := s.bootstrapPassed || stop = none }

end Passes

end Workers
