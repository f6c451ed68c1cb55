import KubevirtUi.Go.Strings
import KubevirtUi.Library.Json
import Mathlib.Data.List.AList
import Mathlib.Data.List.Sort
import Mathlib.Data.String.Basic

/-!
# Rendering the releases of a tenant

Each addon a tenant asks for becomes one release, if the catalogue has it. The release of
the namespaces waits for nothing, the network waits for the namespaces, and everything
else waits for the network.

What the catalogue requires is added to what the tenant asked for.
-/

namespace Addons

open Go

/-- The fields of an object. -/
abbrev Fields := List (String × Json)

structure Parameter where
  id : String
  default : String

structure Component where
  id : String
  category : String
  required : Bool
  chartPath : String
  ns : String
  defaultValues : Fields
  parameters : List Parameter

structure Catalog where
  gitRepositoryRef : List (String × String)
  basePath : String
  components : List Component

/-- One addon that a tenant asks for. -/
structure Request where
  id : String
  parameters : List (String × String)

/-- A rendered release. The one that creates namespaces is marked. -/
structure Release where
  name : String
  ns : String
  labels : List (String × String)
  spec : Fields
  createsNamespaces : Bool

def Catalog.find (catalog : Catalog) (id : String) : Option Component :=
  catalog.components.find? (·.id = id)

/-- What a component is installed with: its defaults, and what is asked for instead. -/
def params (component : Component) (asked : List (String × String)) :
    AList fun _ : String => String :=
  let defaults := component.parameters.foldl
    (fun params parameter => params.insert parameter.id parameter.default) ∅
  asked.foldl (fun params (key, value) => if value ≠ "" then params.insert key value else params)
    defaults

/-- The object under a path of fields. -/
def nested : Fields → List String → Option Fields
  | values, [] => some values
  | values, key :: path =>
    match values.lookup key with
    | some (.obj next) => nested next path
    | _ => none

/-- Change the object under a path of fields. -/
def updateNested (change : Fields → Fields) : Fields → List String → Fields
  | values, [] => change values
  | values, key :: path =>
    match values.lookup key with
    | some (.obj next) => Json.setField key (.obj (updateNested change next path)) values
    | _ => values

/-- The collector is configured by a text that three values are put into. -/
def alloyValues (tenant : String) (param : String → String) (values : Fields) : Fields :=
  let path := ["alloy", "alloy", "configMap"]
  match (nested values path).bind (List.lookup "content") with
  | some (.str content) =>
    let url := param "VM_REMOTE_WRITE_URL"
    if content = "" ∨ url = "" then values
    else
      let interval := param "SCRAPE_INTERVAL"
      let interval := if interval = "" then "30s" else interval
      let content := replaceAll content "url = \"\"" ("url = \"" ++ url ++ "\"")
      let content := replaceAll content "cluster = \"\"" ("cluster = \"" ++ tenant ++ "\"")
      let content := replaceAll content "scrape_interval = \"30s\""
        ("scrape_interval = \"" ++ interval ++ "\"")
      updateNested (Json.setField "content" (.str content)) values path
  | _ => values

/-- Set a field that is not there. -/
def setDefault (key value : String) (fields : Fields) : Fields :=
  if (fields.lookup key).isSome then fields else Json.setField key (.str value) fields

/-- The storage driver needs the tenant's own namespace, which is never left blank. -/
def csiValues (ns : String) (param : String → String) (values : Fields) : Fields :=
  let infraNS := param "INFRA_CLUSTER_NAMESPACE"
  let values := Json.setField "infraClusterNamespace" (.str (if infraNS = "" then ns else infraNS))
    values
  let storageClass := param "INFRA_STORAGE_CLASS_NAME"
  let values :=
    if storageClass = "" then values
    else
      let classes := match values.lookup "storageClasses" with
        | some (.arr (first :: rest)) => first :: rest
        | _ => [.obj []]
      let classes := match classes with
        | .obj first :: rest =>
          .obj (Json.setField "infraStorageClassName" (.str storageClass) first) :: rest
        | classes => classes
      Json.setField "storageClasses" (.arr classes) values
  let secret := match values.lookup "infraClusterKubeconfigSecret" with
    | some (.obj secret) => secret
    | _ => []
  let secret := setDefault "key" "kubeconfig" (setDefault "name" "infra-cluster-credentials" secret)
  Json.setField "infraClusterKubeconfigSecret" (.obj secret) values

/-- The defaults of a component, with what the tenant asked for. -/
def helmValues (tenant ns : String) (component : Component) (asked : List (String × String)) :
    Fields :=
  let param key := ((params component asked).lookup key).getD ""
  match component.id with
  | "alloy" => alloyValues tenant param component.defaultValues
  | "kubevirt-csi-driver" => csiValues ns param component.defaultValues
  | _ => component.defaultValues

def remediation : Json := .obj [("retries", .num 5)]

/-- The body of a release. Values and dependencies are left out where there are none. -/
def releaseSpec (tenant : String) (catalog : Catalog) (component : Component) (values : Fields)
    (dependsOn : List Json) : Fields :=
  let source := catalog.gitRepositoryRef.foldl
    (fun source (key, value) => Json.setField key (.str value) source)
    [("kind", .str "GitRepository")]
  [("interval", .str "30m"),
    ("timeout", .str "15m"),
    ("releaseName", .str component.id),
    ("storageNamespace", .str "kube-system"),
    ("kubeConfig", .obj [("secretRef", .obj [
      ("name", .str (tenant ++ "-admin-kubeconfig")), ("key", .str "super-admin.svc")])]),
    ("chart", .obj [("spec", .obj [
      ("chart", .str ("./" ++ catalog.basePath ++ "/" ++ component.chartPath)),
      ("sourceRef", .obj source),
      ("interval", .str "12h")])]),
    -- nothing waits for workloads: a fresh tenant has no node to run them on
    ("install", .obj [
      ("crds", .str "CreateReplace"), ("createNamespace", .bool true),
      ("remediation", remediation), ("disableWait", .bool true)]),
    ("upgrade", .obj [("crds", .str "CreateReplace"), ("remediation", remediation)])] ++
  (if component.ns ≠ "" then [("targetNamespace", .str component.ns)] else []) ++
  (if values ≠ [] then [("values", .obj values)] else []) ++
  if dependsOn ≠ [] then [("dependsOn", .arr dependsOn)] else []

def Component.isNetwork (component : Component) : Bool :=
  component.required && component.category = "networking"

/-- "" where the catalogue does not create namespaces. -/
def namespacesID (catalog : Catalog) : String :=
  if catalog.components.any (·.id = "namespaces") then "namespaces" else ""

/-- The last network that is required, "" where there is none. -/
def cniID (catalog : Catalog) : String :=
  ((catalog.components.filter Component.isNetwork).getLast?.map Component.id).getD ""

/-- What has to be there first. -/
def dependsOn (catalog : Catalog) (component : Component) : String :=
  if component.id = "namespaces" then ""
  else if component.isNetwork then namespacesID catalog
  else cniID catalog

/-- The namespaces that the addons are installed into. -/
def targets (catalog : Catalog) (requested : List Request) : List Json :=
  requested.filterMap fun request =>
    match catalog.find request.id with
    | some component =>
      if component.ns ≠ "" then some (.obj [("name", .str component.ns)]) else none
    | none => none

def releaseOf (tenant ns : String) (catalog : Catalog) (requested : List Request)
    (request : Request) (component : Component) : Release :=
  let values :=
    if component.id = "namespaces" then [("namespaces", .arr (targets catalog requested))]
    else helmValues tenant ns component request.parameters
  let first := dependsOn catalog component
  let waits :=
    if first = "" then []
    else [.obj [("name", .str (tenant ++ "-" ++ first)), ("namespace", .str ns)]]
  { name := tenant ++ "-" ++ component.id
    ns := ns
    labels := [("kubevirt-ui.io/tenant", tenant), ("kubevirt-ui.io/addon", component.id)]
    spec := releaseSpec tenant catalog component values waits
    createsNamespaces := component.id = "namespaces" }

/-- A release for each addon that the catalogue has. -/
def render (tenant ns : String) (catalog : Catalog) (requested : List Request) : List Release :=
  let out := requested.filterMap fun request =>
    (catalog.find request.id).map (releaseOf tenant ns catalog requested request)
  out.insertionSort fun a b => a.name ≤ b.name

/-- The addons that are asked for, in the order in which they first were. -/
structure Asked where
  parameters : AList fun _ : String => List (String × String)
  order : List String

/-- Asked for once more, with the parameters that are given now. -/
def Asked.ask (asked : Asked) (addon : Request) : Asked where
  parameters := asked.parameters.insert addon.id addon.parameters
  order := if addon.id ∈ asked.parameters then asked.order else asked.order ++ [addon.id]

/-- Added, unless it is asked for. -/
def Asked.require (asked : Asked) (component : Component) : Asked :=
  if component.required ∧ component.id ∉ asked.parameters then asked.ask ⟨component.id, []⟩
  else asked

/-- What a tenant asked for, and what none can do without. -/
def asked (addons : List Request) (catalog : Catalog) : Asked :=
  catalog.components.foldl Asked.require (addons.foldl Asked.ask ⟨∅, []⟩)

def wantedAddons (addons : List Request) (catalog : Catalog) : List Request :=
  let asked := asked addons catalog
  asked.order.map fun id => ⟨id, (asked.parameters.lookup id).getD []⟩

end Addons
