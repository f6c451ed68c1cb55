import KubevirtUi.Go.Strings

/-!
# Whose networks a machine may use

Each NIC of a machine names a Subnet. Whether the machine's namespace may use it is decided from
the labels of the Subnet's Vpc, and from the Subnet's own copy of them where the Vpc cannot be
read. Each read may fail by itself.

No character of a subnet's name is escaped in quotes.
-/

namespace Nics

open Go (cutChars trimChars)

def purposeLabel : String := "kubevirt-ui.io/purpose"

def purposeInfrastructure : String := "infrastructure"

def folderLabel : String := "kubevirt-ui.io/folder"

def environmentLabel : String := "kubevirt-ui.io/environment"

def systemVPC : String := "ovn-cluster"

/-- The subnets of kube-ovn itself. -/
def systemSubnets : List String := ["join", "ovn-default"]

/-- What the decision is made about. -/
structure Network where
  name : String
  vpc : String
  vlan : String
  folder : String
  environment : String
  purpose : String

/-- The namespace that wants to attach. -/
structure Target where
  folder : String
  environment : String

structure Result where
  allowed : Bool
  reason : String
  message : String

def allow : Result := ⟨true, "", ""⟩

def orNone (s : String) : String := if s = "" then "(none)" else s

/-- Whether a machine of the namespace may attach to the network. -/
def check (net : Network) (target : Target) : Result :=
  if net.name ∈ systemSubnets ∨ net.vpc = systemVPC then
    { allowed := false
      reason := "NetworkIsSystemOwned"
      message := "subnet " ++ net.name ++ " belongs to kube-ovn itself and cannot carry workloads" }
  else if net.purpose = purposeInfrastructure then
    { allowed := false
      reason := "NetworkIsInfrastructure"
      message := "subnet " ++ net.name ++ " is reserved for infrastructure, not for VM interfaces" }
  else if net.vpc = "" ∨ net.folder = "" then allow
  else if net.folder ≠ target.folder then
    { allowed := false
      reason := "NetworkOutOfScope"
      message := "subnet " ++ net.name ++ " belongs to folder " ++ net.folder ++
        " and this namespace is in folder " ++ orNone target.folder }
  else if net.environment ≠ "" ∧ net.environment ≠ target.environment then
    { allowed := false
      reason := "NetworkOutOfScope"
      message := "subnet " ++ net.name ++ " is scoped to environment " ++ net.environment ++
        " and this namespace is environment " ++ orNone target.environment }
  else allow

abbrev Labels := List (String × String)

/-- A label that is not there reads as nothing. -/
def label (labels : Labels) (key : String) : String := (labels.lookup key).getD ""

/-- A Subnet, as far as it is read; a field that is missing or no string reads as nothing. -/
structure Subnet where
  labels : Labels
  vlan : String
  vpc : String
  dhcpV4Options : String

/-- The objects that there are. -/
structure Cluster where
  namespaces : String → Option Labels
  subnets : String → Option Subnet
  /-- The labels of each Vpc. -/
  vpcs : String → Option Labels
  /-- What the configuration of vpc-dns in a namespace says the resolver is. -/
  vpcDNS : String → Option String

inductive ReadError where
  | notFound (text : String)
  | other (text : String)
  deriving DecidableEq

def ReadError.text : ReadError → String
  | .notFound text => text
  | .other text => text

/-- A read fails with an error of its own, or answers with what is there. -/
def answer {α : Type} (failure : Option ReadError) (resource name : String) (object : Option α) :
    Except ReadError α :=
  match failure, object with
  | some e, _ => .error e
  | none, some x => .ok x
  | none, none => .error (.notFound (resource ++ " \"" ++ name ++ "\" not found"))

/-- How the reads for one machine go, those for a NIC by its place. -/
structure Reads where
  namespace_ : Option ReadError
  subnet : Nat → Option ReadError
  vpc : Nat → Option ReadError
  configMap : Nat → String → Option ReadError

structure NetworkAttachment where
  subnet : String
  staticIP : String

/-- One NIC after the subnet has been looked up. -/
structure ResolvedNetwork where
  subnet : String
  vlan : String
  isVPCOverlay : Bool
  staticIP : String
  deriving DecidableEq

/-- What the renderer is given of networks. -/
structure Input where
  networks : List ResolvedNetwork
  vpcDNSVIP : String

/-- A state that a machine is reported to be in. Only an edit gets it out of a fatal one. -/
structure Blocked where
  reason : String
  message : String
  fatal : Bool

/-- The name server of one DHCP option. -/
def dnsServer (part : List Char) : Option (List Char) :=
  match cutChars ['='] (trimChars part) with
  | some (k, v) => if k = "dns_server".toList ∧ v ≠ [] then some v else none
  | none => none

/-- The resolver that a guest on the subnet must use, or nothing. -/
def vpcDNSVIP (namespaces : List String) (cluster : Cluster)
    (failures : String → Option ReadError) (subnet : Subnet) : String :=
  match (subnet.dhcpV4Options.toList.splitOn ',').findSome? dnsServer with
  | some v => String.ofList v
  | none =>
    (namespaces.findSome? fun ns =>
      match answer (failures ns) "configmaps" "vpc-dns-config" (cluster.vpcDNS ns) with
      | .ok vip => if vip ≠ "" then some vip else none
      | .error _ => none).getD ""

/-- What the rule is asked about. The labels are those of the Vpc, or else the Subnet's own. -/
def networkScope (cluster : Cluster) (failure : Option ReadError) (subnet : Subnet)
    (name : String) : Network :=
  let purpose := label subnet.labels purposeLabel
  if subnet.vpc = "" ∨ subnet.vpc = systemVPC then
    ⟨name, subnet.vpc, subnet.vlan, "", "", purpose⟩
  else
    let labels := match answer failure "vpcs.kubeovn.io" subnet.vpc (cluster.vpcs subnet.vpc) with
      | .ok labels => labels
      | .error _ => subnet.labels
    ⟨name, subnet.vpc, subnet.vlan, label labels folderLabel, label labels environmentLabel,
      purpose⟩

def isOverlay (subnet : Subnet) : Bool :=
  subnet.vlan = "" ∧ subnet.vpc ≠ "" ∧ subnet.vpc ≠ systemVPC

section Resolve

variable (namespaces : List String) (cluster : Cluster) (reads : Reads)

/-- One NIC. -/
def resolveNetwork (target : Target) (idx : Nat) (nic : NetworkAttachment) (input : Input) :
    Except Blocked Input :=
  match answer (reads.subnet idx) "subnets.kubeovn.io" nic.subnet (cluster.subnets nic.subnet) with
  | .error (.notFound _) =>
    .error ⟨"NetworkNotFound", "subnet \"" ++ nic.subnet ++ "\" does not exist", false⟩
  | .error (.other text) => .error ⟨"NetworkUnreadable", text, false⟩
  | .ok subnet =>
    if isOverlay subnet ∧ idx ≠ 0 then
      .error
        { reason := "VPCMustBePrimary"
          message := "subnet \"" ++ nic.subnet ++
            "\" is a VPC overlay and can only be the first " ++
            "NIC; use a VLAN-backed subnet for additional interfaces"
          fatal := true }
    else
      let res := check (networkScope cluster (reads.vpc idx) subnet nic.subnet) target
      if ¬res.allowed then .error ⟨res.reason, res.message, true⟩
      else
        .ok
          { networks := input.networks ++
              [⟨nic.subnet, subnet.vlan, isOverlay subnet, nic.staticIP⟩]
            vpcDNSVIP :=
              if isOverlay subnet ∧ input.vpcDNSVIP = "" then
                vpcDNSVIP namespaces cluster (reads.configMap idx) subnet
              else input.vpcDNSVIP }

/-- The loop of `resolveNetworks`. -/
def resolveFrom (target : Target) : Nat → List NetworkAttachment → Input → Except Blocked Input
  | _, [], input => .ok input
  | idx, nic :: nics, input => do
    let input ← resolveNetwork namespaces cluster reads target idx nic input
    resolveFrom target (idx + 1) nics input

/-- Each subnet is looked up, and it is decided how the NIC attaches. -/
def resolveNetworks (ns : String) (nics : List NetworkAttachment) (input : Input) :
    Except Blocked Input :=
  if nics = [] then .ok input
  else match answer reads.namespace_ "namespaces" ns (cluster.namespaces ns) with
    | .error e => .error ⟨"NamespaceUnreadable", e.text, false⟩
    | .ok labels =>
      resolveFrom namespaces cluster reads
        ⟨label labels folderLabel, label labels environmentLabel⟩ 0 nics input

end Resolve

end Nics
