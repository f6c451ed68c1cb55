import KubevirtUi.Go.Strings
import KubevirtUi.Library.Keyed
import KubevirtUi.Library.Machine
import Mathlib.Data.List.Sort
import Mathlib.Data.String.Basic

/-!
# DaemonSets that all underlays share

There is one link watcher for all provider NICs, and one exemption in each namespace of Cilium.
Each underlay renders them from its own description, the watcher also from what all
ProviderNetworks name, and writes what differs in the fields that are rendered. The other fields
are the API server's: how it fills them is a parameter.
-/

namespace Underlay

open Go

structure ManagedUnderlay where
  name : String
  interface : String
  providerNetworkName : String
  linkWatcher : Option Bool
  linkWatcherImage : String
  ciliumNamespace : String
  ciliumSourceIPExempt : Option Bool
  ciliumImage : String
  deriving DecidableEq

structure ProviderNetwork where
  name : String
  defaultInterface : String
  /-- The interfaces of the nodes that have another one. -/
  customInterfaces : List String
  /-- The underlay that controls it. -/
  controller : Option String
  deriving DecidableEq

abbrev Settings := List (String × String)

structure Container where
  name : String
  image : String
  command : List String
  args : List String
  env : Settings
  volumeMounts : Settings
  requests : Settings
  limits : Settings
  privileged : Bool
  deriving DecidableEq

structure HostPath where
  name : String
  path : String
  type : String
  deriving DecidableEq

/-- The fields of a DaemonSet that are rendered. -/
structure DaemonSet where
  labels : Settings
  annotations : Settings
  selector : Option Settings
  podLabels : Settings
  hostNetwork : Bool
  nodeSelector : Settings
  tolerations : List String
  volumes : List HostPath
  containers : List Container
  owners : List String
  deriving DecidableEq

def linkWatcherName : String := "provider-link-up"

def ciliumExemptName : String := "cilium-gateway-exempt"

def fallbackWatcherImage : String := "docker.io/library/busybox:1.36"

def linkWatcherScript (interfaces : List String) : String :=
  "while true; do\n  for i in " ++ " ".intercalate interfaces ++ "; do\n" ++
    "    ip link set dev \"$i\" up 2>/dev/null\n" ++ "  done\n" ++ "  sleep 10\n" ++ "done\n"

/-- Every name once, in the order of the first. -/
def distinct (names : List String) : List String :=
  names.foldl (fun out name => if name = "" ∨ name ∈ out then out else out ++ [name]) []

/-- The provider NICs, sorted. -/
def watchedInterfaces (mine : String) (others : List String) : List String :=
  (distinct ((mine :: others).map trimSpace)).insertionSort (· ≤ ·)

def workaroundDaemonSet (name reason removeWhen : String) (nodeSelector : Settings)
    (volumes : List HostPath) (container : Container) : DaemonSet where
  labels := [("kubevirt-ui.io/managed", "true"), ("app", name),
    ("kubevirt-ui.io/workaround", "true")]
  annotations := [("kubevirt-ui.io/workaround-reason", reason),
    ("kubevirt-ui.io/workaround-remove-when", removeWhen)]
  selector := some [("app", name)]
  podLabels := [("app", name)]
  hostNetwork := true
  nodeSelector := nodeSelector
  tolerations := ["Exists"]
  volumes := volumes
  containers := [container]
  owners := []

/-- The image of the watcher: the underlay's own, that of kube-ovn's CNI, or the last resort. -/
def watcherImage (u : ManagedUnderlay) (image : String) : String :=
  if u.linkWatcherImage ≠ "" then u.linkWatcherImage
  else if image ≠ "" then image else fallbackWatcherImage

def linkUp (image : String) (interfaces : List String) : Container where
  name := "link-up"
  image := image
  command := ["/bin/sh", "-c"]
  args := [linkWatcherScript interfaces]
  env := []
  volumeMounts := []
  requests := [("cpu", "5m"), ("memory", "16Mi")]
  limits := [("memory", "32Mi")]
  privileged := true

def linkWatcher (u : ManagedUnderlay) (image : String) (interfaces : List String) : DaemonSet :=
  workaroundDaemonSet linkWatcherName "kube-ovn does not re-assert the provider link"
    ("kube-ovn re-raises the provider interface after bridge init, or the node OS keeps it up " ++
      "on its own — then delete this DaemonSet and confirm tx counters still move on the " ++
      "provider NIC (ovs-ofctl dump-ports).")
    [("ovn.kubernetes.io/external-gw", "true")] [] (linkUp (watcherImage u image) interfaces)

def ciliumExemptScript : String :=
  "while true; do\n" ++
  "  cilium-dbg endpoint list 2>/dev/null | awk '\n" ++
  "    /^[0-9]+/            \x7b id = $1 \x7d\n" ++
  "    /vpc-egress-gateway/ \x7b if (id != \"\") \x7b print id; id = \"\" \x7d \x7d\n" ++
  "    /vpc-nat-gw/         \x7b if (id != \"\") \x7b print id; id = \"\" \x7d \x7d\n" ++
  "  ' | sort -u | while read -r ep; do\n" ++
  "    if cilium-dbg endpoint config \"$ep\" 2>/dev/null | grep -qi " ++
    "\"SourceIPVerification *: *Enabled\"; then\n" ++
  "      echo \"exempting endpoint $ep (VPC gateway)\"\n" ++
  "      cilium-dbg endpoint config \"$ep\" SourceIPVerification=disable 2>&1 | tail -1\n" ++
  "    fi\n" ++
  "  done\n" ++
  "  sleep 15\n" ++
  "done\n"

def exemptImage (u : ManagedUnderlay) : String :=
  if u.ciliumImage = "" then "quay.io/cilium/cilium:v1.20.0" else u.ciliumImage

def exempt (image : String) : Container where
  name := "exempt"
  image := image
  command := ["/bin/sh", "-c"]
  args := [ciliumExemptScript]
  env := [("CILIUM_SOCK", "/var/run/cilium/cilium.sock")]
  volumeMounts := [("cilium-run", "/var/run/cilium")]
  requests := [("cpu", "10m"), ("memory", "32Mi")]
  limits := [("memory", "64Mi")]
  privileged := true

def ciliumExempt (u : ManagedUnderlay) : DaemonSet :=
  workaroundDaemonSet ciliumExemptName "Cilium chaining drops forwarded traffic from gateway pods"
    ("Cilium stops enforcing source-IP verification on kube-ovn gateway endpoints, or the " ++
      "cluster no longer chains Cilium — then delete this and check " ++
      "`cilium-dbg monitor --type drop` for 'Invalid source ip' on the gateway.")
    [] [⟨"cilium-run", "/var/run/cilium", "Directory"⟩] (exempt (exemptImage u))

/-- The rendered fields over those of a live object, and the underlay among its owners. -/
def mutate (owner : String) (want live : DaemonSet) : DaemonSet where
  labels := Keyed.setAll Prod.fst want.labels live.labels
  annotations := Keyed.setAll Prod.fst want.annotations live.annotations
  selector := live.selector.or want.selector
  podLabels := Keyed.setAll Prod.fst want.podLabels live.podLabels
  hostNetwork := want.hostNetwork
  nodeSelector := want.nodeSelector
  tolerations := want.tolerations
  volumes := want.volumes
  containers := Keyed.setAll Container.name want.containers live.containers
  owners := if owner ∈ live.owners then live.owners else live.owners ++ [owner]

def blank : DaemonSet := ⟨[], [], none, [], false, [], [], [], [], []⟩

/-- An object as it is stored, with the fields that nobody here renders. -/
structure Stored (ρ : Type) where
  shown : DaemonSet
  rest : ρ

variable {ρ : Type}

/-- Create the object, or write it if the rendered fields differ. -/
def ensureDaemonSet (fill : DaemonSet → Option ρ → ρ) (owner : String) (want : DaemonSet) :
    Option (Stored ρ) → Stored ρ
  | none => ⟨mutate owner want blank, fill (mutate owner want blank) none⟩
  | some live =>
    let shown := mutate owner want live.shown
    if shown = live.shown then live else ⟨shown, fill shown (some live.rest)⟩

structure World (ρ : Type) where
  networks : List ProviderNetwork
  watcher : Option (Stored ρ)
  /-- The exemption in each namespace. -/
  exempt : String → Option (Stored ρ)

/-- What the cluster says besides: the image of kube-ovn's CNI, "" if there is none, whether Cilium
chains, and where it is, "" if nowhere. -/
structure Cluster where
  cniImage : String
  chaining : Bool
  ciliumNS : String

/-- A pass for an underlay, and what is answered: the writes of the fabric, the list of
ProviderNetworks (in any order), and the rest up to the status. -/
structure Pass where
  underlay : ManagedUnderlay
  networkWritten : Bool
  fabricBuilt : Bool
  listed : Option (List ProviderNetwork)
  watcherWritten : Bool
  ciliumAnswered : Bool
  exemptWritten : Bool
  statusWritten : Bool

def providerNetworkName (u : ManagedUnderlay) : String :=
  if trimSpace u.providerNetworkName = "" then "external" else u.providerNetworkName

/-- The underlay's ProviderNetwork among the others. Another underlay's is not taken over. -/
def ensureProviderNetwork (u : ManagedUnderlay) :
    List ProviderNetwork → Option (List ProviderNetwork)
  | [] => some [⟨providerNetworkName u, u.interface, [], some u.name⟩]
  | network :: networks =>
    if network.name = providerNetworkName u then
      if network.controller = none ∨ network.controller = some u.name then
        let network :=
          { network with defaultInterface := u.interface, controller := some u.name }
        some (network :: networks)
      else none
    else (ensureProviderNetwork u networks).map (network :: ·)

/-- The default and the custom interfaces of all ProviderNetworks. -/
def allProviderInterfaces (networks : List ProviderNetwork) : List String :=
  networks.flatMap fun network =>
    (network.defaultInterface :: network.customInterfaces).filter (· ≠ "")

def watches (u : ManagedUnderlay) : Bool := u.linkWatcher.getD true

def exempts (cluster : Cluster) (u : ManagedUnderlay) : Bool :=
  u.ciliumSourceIPExempt.getD cluster.chaining

def ciliumNamespace (cluster : Cluster) (u : ManagedUnderlay) : String :=
  if u.ciliumNamespace ≠ "" then u.ciliumNamespace else cluster.ciliumNS

section Passes

variable (fill : DaemonSet → Option ρ → ρ) (cluster : Cluster)

/-- The watcher as the underlay wants it. -/
def wantedWatcher (u : ManagedUnderlay) (networks : List ProviderNetwork) : DaemonSet :=
  linkWatcher u cluster.cniImage (watchedInterfaces u.interface (allProviderInterfaces networks))

/-- The first part of `ensureWorkarounds`, and whether it came to its end. -/
def ensureWatcher (pass : Pass) (w : World ρ) : World ρ × Bool :=
  if watches pass.underlay = false then (w, true)
  else match pass.listed with
    | none => (w, false)
    | some networks =>
      if pass.watcherWritten = false then (w, false)
      else
        let want := wantedWatcher cluster pass.underlay networks
        ({ w with watcher := some (ensureDaemonSet fill pass.underlay.name want w.watcher) }, true)

/-- The second part. -/
def ensureExempt (pass : Pass) (w : World ρ) : World ρ × Bool :=
  let namespaceName := ciliumNamespace cluster pass.underlay
  if pass.ciliumAnswered = false then (w, false)
  else if exempts cluster pass.underlay = false ∨ namespaceName = "" then (w, true)
  else if pass.exemptWritten = false then (w, false)
  else
    let written := ensureDaemonSet fill pass.underlay.name (ciliumExempt pass.underlay)
      (w.exempt namespaceName)
    ({ w with exempt := fun name => if name = namespaceName then some written else w.exempt name },
      true)

/-- What comes after the fabric. -/
def ensureWorkarounds (pass : Pass) (w : World ρ) : World ρ × Bool :=
  match ensureWatcher fill cluster pass w with
  | (w, false) => (w, false)
  | (w, true) => ensureExempt fill cluster pass w

/-- A pass, and whether it came to its end. -/
def reconcile (pass : Pass) (w : World ρ) : World ρ × Bool :=
  match ensureProviderNetwork pass.underlay w.networks with
  | none => (w, false)
  | some networks =>
    if pass.networkWritten = false then (w, false)
    else if pass.fabricBuilt = false then ({ w with networks := networks }, false)
    else
      let (w, finished) := ensureWorkarounds fill cluster pass { w with networks := networks }
      (w, finished && pass.statusWritten)

/-- The world, and who has been reconciled since the ProviderNetworks changed last. -/
structure State (ρ : Type) where
  world : World ρ
  reconciled : List ManagedUnderlay

/-- A pass of one of the underlays. The list that it reads is that of the cluster by then, in any
order. -/
def next (underlays : List ManagedUnderlay) (s : State ρ) (pass : Pass) : Option (State ρ) :=
  let (w, finished) := reconcile fill cluster pass s.world
  if pass.underlay ∈ underlays ∧ ∀ networks, pass.listed = some networks →
      networks.Perm w.networks then
    let before := if w.networks = s.world.networks then s.reconciled else []
    some ⟨w, if finished then pass.underlay :: before else before⟩
  else none

end Passes

end Underlay
