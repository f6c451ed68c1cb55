import KubevirtUi.Library.Raising
import KubevirtUi.Tenancy.PortEntries
import KubevirtUi.Transit.Baseline
import Mathlib.Data.List.Infix

/-!
# What a new tenant touches

A tenant's own objects are in its namespace, and go with it. What is told apart here is the rest:
the namespace itself, who lists it as theirs, the ports, the ClusterRoleBinding and the addresses
of the transit plane. The log says who has created, deleted and released what.
-/

namespace Tenancy.Creation

open Interference
open Acl (Rule)

variable {ι : Type}

/-- An `ApiException`, a `RuntimeError`, an `HTTPException`, a `LookupError`, a
`TransitSnatSlotTaken`, or anything else that is raised. -/
inductive Failure where
  | api (status : Nat)
  | runtime
  | http (status : Nat)
  | lookup
  | slotTaken
  | other
  deriving DecidableEq

/-- A namespace of a tenant: which call has created it, if one of them has. -/
structure Namespace (ι : Type) where
  creator : Option ι
  terminating : Bool
  deriving DecidableEq

structure Subnet where
  namespaces : List String
  cidrBlock : String
  excludeIps : List String
  acls : List Rule

structure OvnEip where
  externalSubnet : String
  v4Ip : Option String

/-- What is on record. An entry of a Subnet is removed with or without a tenant of somebody else
under the name. -/
inductive Event (ι : Type) where
  | checked (client : ι)
  | created (client : ι) (ns : String)
  | deleted (client : ι) (ns : String)
  | detached (client : ι) (subnet ns : String) (taken : Bool)
  | allocated (client : ι) (tenant : String)
  | released (client : ι) (tenant : String)
  | answered (client : ι)
  deriving DecidableEq

def Event.client : Event ι → ι
  | .checked i | .created i _ | .deleted i _ | .detached i _ _ _ | .allocated i _ | .released i _
  | .answered i => i

structure World (ι : Type) where
  namespaces : AList fun _ : String => Namespace ι
  subnets : AList fun _ : String => Subnet
  ports : Entries
  clusterRoleBindings : List String
  ovnEips : AList fun _ : String => OvnEip
  /-- The rules by name, each with the name of its address. -/
  ovnSnatRules : AList fun _ : String => String
  log : List (Event ι)

/-- A request about the objects that are not told apart. -/
inductive Step where
  | preflight
  | admission
  | vpc
  | ceiling
  | quota
  | rbac
  | serviceAccount
  | role
  | roleBinding
  | clusterRole
  | token
  | apiUrl
  | kubeconfig
  | capk
  | storageQuota
  | vip
  | talosObjects
  | time
  | goldenRbac
  | goldenImage
  | pool
  | kamajiControlPlane
  | kubevirtCluster
  | cluster
  | cpLb
  | attach
  | transitConflict
  | tcpService
  | endpoint
  | talosSecrets
  | serviceIp
  | kubernetesCa
  | machineDeployment
  | machineTemplate
  | healthCheck
  | configTemplate
  | ingress
  | trustdIngress
  | catalog
  | addons
  | credentials
  deriving DecidableEq

inductive Request where
  | step (step : Step)
  | readNamespace (ns : String)
  | createNamespace (ns : String)
  | deleteNamespace (ns : String)
  | listSubnets
  | readSubnet (name : String)
  | removeNamespace (subnet ns : String) (index : Nat)
  | allocatePorts (pool : Pool) (tenant : String)
  | releasePorts (tenant : String)
  | createClusterRoleBinding (name : String)
  | deleteClusterRoleBinding (name : String)
  | existingSnat (vpc subnet skip transit : String)
  | createEip (name externalSubnet : String)
  | readEip (name : String)
  | listEips
  | deleteEip (name : String)
  | createSnatRule (name eip : String)
  | deleteSnatRule (name : String)
  | ensureAcls (subnet : String) (live : Option (List String)) (wanted : List Rule)
  | dropAcls (subnet address : String)
  | answer

@[reducible] def Request.Result : Request → Type
  | .listSubnets => List (String × List String)
  | .readSubnet _ => List String
  | .allocatePorts .. => Nat × Nat
  | .existingSnat .. => Option String
  | .readEip _ => Option OvnEip
  | .listEips => List OvnEip
  | _ => Unit

abbrev Request.Response (r : Request) : Type := Except Failure r.Result

/-- What a request may meet: a failure, or else an address that is handed out, or found. -/
structure Fault where
  failure : Option Failure := none
  address : Option String := none

namespace World

def note (w : World ι) (e : Event ι) : World ι := { w with log := w.log ++ [e] }

/-- A namespace that the call has not created stands under the name. -/
def Taken [DecidableEq ι] (i : ι) (w : World ι) (ns : String) : Bool :=
  (w.namespaces.lookup ns).any fun n => !n.terminating && decide (n.creator ≠ some i)

def setNamespace (w : World ι) (ns : String) (n : Namespace ι) : World ι :=
  { w with namespaces := w.namespaces.insert ns n }

def setSubnet (w : World ι) (name : String) (subnet : Subnet) : World ι :=
  { w with subnets := w.subnets.insert name subnet }

end World

/-- The rules of the plane with those of a tenant: allows of addresses that are gone are dropped,
and the deny is put in where it is missing, if it can be told what it is. -/
def withAcls (buildTransitDeny : String → List String → Option Rule) (subnet : Subnet)
    (live : Option (List String)) (wanted : List Rule) : Option (List Rule) := do
  let acls := match live with
    | none => subnet.acls
    | some live => subnet.acls.filter fun rule =>
      rule.priority ≠ Transit.allowPriority ∨ Transit.allowSource rule.matchExpr ∈ live
  let acls ← if subnet.cidrBlock ≠ "" ∧ Transit.hasDeny acls = false then
      (buildTransitDeny subnet.cidrBlock subnet.excludeIps).map fun deny => acls ++ [deny]
    else some acls
  return acls ++ wanted.filter (· ∉ acls)

section Serve

variable [DecidableEq ι] (buildTransitDeny : String → List String → Option Rule)

/-- What a request that does not fail does. The address is one that is handed out, or found. -/
def commit (i : ι) (address : Option String) (w : World ι) : (r : Request) → r.Response × World ι
  | .step _ => (.ok (), w)
  | .readNamespace ns =>
    match w.namespaces.lookup ns with
    | none => (.error (.api 404), w.note (.checked i))
    | some _ => (.ok (), w)
  | .createNamespace ns =>
    match w.namespaces.lookup ns with
    | none => (.ok (), (w.setNamespace ns ⟨some i, false⟩).note (.created i ns))
    | some _ => (.error (.api 409), w)
  | .deleteNamespace ns =>
    match w.namespaces.lookup ns with
    | none => (.error (.api 404), w)
    | some ⟨_, true⟩ => (.ok (), w)
    | some ⟨creator, false⟩ =>
      (.ok (), (w.setNamespace ns ⟨creator, true⟩).note (.deleted i ns))
  | .listSubnets => (.ok (w.subnets.entries.map fun e => (e.1, e.2.namespaces)), w)
  | .readSubnet name =>
    match w.subnets.lookup name with
    | none => (.error (.api 404), w)
    | some subnet => (.ok subnet.namespaces, w)
  | .removeNamespace name ns index =>
    match w.subnets.lookup name with
    | none => (.error (.api 404), w)
    | some subnet =>
      if subnet.namespaces[index]? = some ns then
        (.ok (), (w.setSubnet name { subnet with
            namespaces := subnet.namespaces.eraseIdx index }).note
          (.detached i name ns (w.Taken i ns)))
      else (.error (.api 422), w)
  | .allocatePorts pool tenant =>
    match issued w.ports tenant with
    | some ports => (.ok ports, w)
    | none =>
      match pickTwoFree pool (usedPorts w.ports) with
      | none => (.error .runtime, w)
      | some ports =>
        (.ok ports, { w with
          ports := w.ports.insert tenant (formatEntry ports)
          log := w.log ++ [.allocated i tenant] })
  | .releasePorts tenant =>
    if tenant ∈ w.ports then
      (.ok (), { w with
        ports := w.ports.erase tenant
        log := w.log ++ [.released i tenant] })
    else (.ok (), w)
  | .createClusterRoleBinding name =>
    if name ∈ w.clusterRoleBindings then (.error (.api 409), w)
    else (.ok (), { w with clusterRoleBindings := w.clusterRoleBindings ++ [name] })
  | .deleteClusterRoleBinding name =>
    if name ∈ w.clusterRoleBindings then
      (.ok (), { w with clusterRoleBindings := w.clusterRoleBindings.filter (· ≠ name) })
    else (.error (.api 404), w)
  | .existingSnat .. => (.ok address, w)
  | .createEip name externalSubnet =>
    match w.ovnEips.lookup name with
    | some _ => (.error (.api 409), w)
    | none => (.ok (), { w with ovnEips := w.ovnEips.insert name ⟨externalSubnet, address⟩ })
  | .readEip name => (.ok (w.ovnEips.lookup name), w)
  | .listEips => (.ok (w.ovnEips.entries.map fun e => e.2), w)
  | .deleteEip name => (.ok (), { w with ovnEips := w.ovnEips.erase name })
  | .createSnatRule name eip =>
    match w.ovnSnatRules.lookup name with
    | some _ => (.error (.api 409), w)
    | none => (.ok (), { w with ovnSnatRules := w.ovnSnatRules.insert name eip })
  | .deleteSnatRule name => (.ok (), { w with ovnSnatRules := w.ovnSnatRules.erase name })
  | .ensureAcls name live wanted =>
    match w.subnets.lookup name with
    | none => (.error (.api 404), w)
    | some subnet =>
      match withAcls buildTransitDeny subnet live wanted with
      | none => (.error .other, w)
      | some acls => (.ok (), w.setSubnet name { subnet with acls := acls })
  | .dropAcls name address =>
    match w.subnets.lookup name with
    | none => (.error (.api 404), w)
    | some subnet =>
      (.ok (), w.setSubnet name { subnet with
        acls := subnet.acls.filter fun rule =>
          ¬ ("ip4.src == " ++ address ++ " ").toList <:+: rule.matchExpr.toList })
  | .answer => (.ok (), w.note (.answered i))

/-- The failure that a request meets. To be missing is not a reason to fail that a namespace may
have of its own, and the answer to the client is always sent. -/
def refusal (fault : Fault) : Request → Option Failure
  | .readNamespace _ => fault.failure.filter (· ≠ .api 404)
  | .answer => none
  | _ => fault.failure

/-- A request that fails changes nothing. -/
def serve (i : ι) (fault : Fault) (w : World ι) (r : Request) : r.Response × World ι :=
  match refusal fault r with
  | some e => (.error e, w)
  | none => commit buildTransitDeny i fault.address w r

end Serve

/-- A namespace that is being deleted is gone at some time. -/
def finalize (ns : String) (w : World ι) : World ι :=
  match w.namespaces.lookup ns with
  | some ⟨_, true⟩ => { w with namespaces := w.namespaces.erase ns }
  | _ => w

end Tenancy.Creation
