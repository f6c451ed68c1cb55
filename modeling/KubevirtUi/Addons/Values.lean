import KubevirtUi.Addons.Catalog
import KubevirtUi.Go.Replace

/-!
# Where both programs make the same values of a component's defaults

A tenant that is created directly gets its releases from the backend, which walks the same
catalogue. It reads a component's parameters from what the component declares, and what it
finds in the defaults it takes to have the form that it expects; where it has not, the whole
call fails.

Two components get more than their defaults. The collector's text has places for a URL, the
tenant and an interval; the storage driver gets a namespace, a storage class and the secret
that it reaches the cluster with. For each there is a condition on the parameters and the
defaults under which both programs make the same of it.
-/

namespace Addons

open Go Option

def tenantNs (tenant : String) : String := "tenant-" ++ tenant

/-- What Python raises where a value is not of the expected form. -/
inductive Raised where
  | attributeError
  | typeError
  | keyError
  deriving DecidableEq

/-- A release without the mark. -/
structure Body where
  name : String
  ns : String
  labels : List (String × String)
  spec : Fields

/-- The parameters that a component declares, as asked for or by default. -/
def userParams (component : Component) (parameters : List (String × String)) :
    AList fun _ : String => String :=
  component.parameters.foldl
    (fun params p => params.insert p.id ((parameters.lookup p.id).getD p.default)) ∅

/-- `value.get(key, default)` -/
def getOr (value : Json) (key : String) (default : Json) : Except Raised Json :=
  match value with
  | .obj fields => .ok ((fields.lookup key).getD default)
  | _ => .error .attributeError

/-- What the collector is configured by. -/
def alloyConfig (values : Fields) : Except Raised Json := do
  let outer ← getOr (.obj values) "alloy" (.obj [])
  let inner ← getOr outer "alloy" (.obj [])
  let configMap ← getOr inner "configMap" (.obj [])
  getOr configMap "content" (.str "")

def buildAlloyValues (tenant : String) (param : String → Option String) (values : Fields) :
    Except Raised Fields := do
  let url := (param "VM_REMOTE_WRITE_URL").getD ""
  let interval := (param "SCRAPE_INTERVAL").getD "30s"
  if url = "" then return values
  else
    let config ← alloyConfig values
    if config.truthy = false then return values
    else match config with
      | .str content =>
        let content := replaceAll content "url = \"\"" ("url = \"" ++ url ++ "\"")
        let content := replaceAll content "cluster = \"\"" ("cluster = \"" ++ tenant ++ "\"")
        let content := replaceAll content "scrape_interval = \"30s\""
          ("scrape_interval = \"" ++ interval ++ "\"")
        return updateNested (Json.setField "content" (.str content)) values
          ["alloy", "alloy", "configMap"]
      | _ => throw .attributeError

/-- `sc_list[0]["infraStorageClassName"] = infra_sc`, of a list that holds something. -/
def setStorageClass (storageClass : String) : Json → Except Raised Json
  | .arr (.obj first :: rest) =>
    .ok (.arr (.obj (Json.setField "infraStorageClassName" (.str storageClass) first) :: rest))
  | .obj _ => .error .keyError
  | _ => .error .typeError

/-- The storage class is put into the values, if one is given. -/
def storeClasses (storageClass : String) (values : Fields) : Except Raised Fields :=
  if storageClass = "" then pure values
  else
    let classes := (values.lookup "storageClasses").getD (.arr [.obj []])
    if classes.truthy = false then pure values
    else do
      let classes ← setStorageClass storageClass classes
      pure (Json.setField "storageClasses" classes values)

def buildCsiValues (tenant : String) (param : String → Option String) (values : Fields) :
    Except Raised Fields := do
  let infraNs := (param "INFRA_CLUSTER_NAMESPACE").getD ""
  let infraNs := if infraNs = "" then tenantNs tenant else infraNs
  let storageClass := (param "INFRA_STORAGE_CLASS_NAME").getD ""
  let values ← storeClasses storageClass
    (Json.setField "infraClusterNamespace" (.str infraNs) values)
  match (values.lookup "infraClusterKubeconfigSecret").getD (.obj []) with
  | .obj secret =>
    let secret :=
      setDefault "key" "kubeconfig" (setDefault "name" "infra-cluster-credentials" secret)
    return Json.setField "infraClusterKubeconfigSecret" (.obj secret) values
  | _ => throw .attributeError

def buildHelmValues (tenant : String) (component : Component)
    (params : AList fun _ : String => String) : Except Raised Fields :=
  match component.id with
  | "alloy" => buildAlloyValues tenant params.lookup component.defaultValues
  | "kubevirt-csi-driver" => buildCsiValues tenant params.lookup component.defaultValues
  | _ => .ok component.defaultValues

def buildFluxHelmreleaseCr (tenant addonId : String) (component : Component) (catalog : Catalog)
    (helmValues : Fields) (dependsOn : List String) : Body where
  name := tenant ++ "-" ++ addonId
  ns := tenantNs tenant
  labels := [("kubevirt-ui.io/tenant", tenant), ("kubevirt-ui.io/addon", addonId)]
  spec :=
    [("interval", .str "30m"),
      ("timeout", .str "15m"),
      ("releaseName", .str addonId),
      ("storageNamespace", .str "kube-system"),
      ("kubeConfig", .obj [("secretRef", .obj [
        ("name", .str (tenant ++ "-admin-kubeconfig")), ("key", .str "super-admin.svc")])]),
      ("chart", .obj [("spec", .obj [
        ("chart", .str ("./" ++ catalog.basePath ++ "/" ++ component.chartPath)),
        ("sourceRef", .obj (catalog.gitRepositoryRef.foldl
          (fun source (key, value) => Json.setField key (.str value) source)
          [("kind", .str "GitRepository")])),
        ("interval", .str "12h")])]),
      ("install", .obj [
        ("crds", .str "CreateReplace"), ("createNamespace", .bool true),
        ("remediation", .obj [("retries", .num 5)]), ("disableWait", .bool true)]),
      ("upgrade", .obj [("crds", .str "CreateReplace"),
        ("remediation", .obj [("retries", .num 5)])])] ++
    (if component.ns ≠ "" then [("targetNamespace", .str component.ns)] else []) ++
    (if helmValues ≠ [] then [("values", .obj helmValues)] else []) ++
    if dependsOn ≠ [] then
      [("dependsOn", .arr (dependsOn.map fun d =>
        .obj [("name", .str d), ("namespace", .str (tenantNs tenant))]))]
    else []

/-- The id of the addon that creates namespaces, and of the network, if the catalogue has them. -/
def specialAddons (catalog : Catalog) : Option String × Option String :=
  catalog.components.foldl (fun (ns, cni) component =>
    (if component.id = "namespaces" then some component.id else ns,
      if component.required ∧ component.category = "networking" then some component.id else cni))
    (none, none)

/-- The names of what an addon waits for: nothing, the namespaces, or the network. -/
def dependencies (tenant : String) (catalog : Catalog) (component : Component) : List String :=
  let (nsAddonId, cniAddonId) := specialAddons catalog
  let waits (id : Option String) := match id with
    | some id => if id = "" then [] else [tenant ++ "-" ++ id]
    | none => []
  if component.id = "namespaces" then []
  else if component.category = "networking" ∧ component.required then waits nsAddonId
  else waits cniAddonId

/-- The release of one addon. -/
def buildAddon (tenant : String) (catalog : Catalog) (addons : List Request) (addon : Request)
    (component : Component) : Except Raised Body := do
  let params := userParams component addon.parameters
  let helmValues ← buildHelmValues tenant component params
  let helmValues :=
    if component.id = "namespaces" then [("namespaces", .arr (targets catalog addons))]
    else helmValues
  return buildFluxHelmreleaseCr tenant addon.id component catalog helmValues
    (dependencies tenant catalog component)

/-- All that is created, one release after the other. -/
def createAddonResources (tenant : String) (addons : List Request) (catalog : Catalog) :
    Except Raised (List Body) :=
  (addons.filterMap fun addon =>
      (catalog.find addon.id).map fun component => (addon, component)).mapM
    fun (addon, component) => buildAddon tenant catalog addons addon component

open Json (Alike AlikeIf)

variable {found : Json} {path : List String} {change : Fields → Fields} {a storageClass : String}

section Collector

variable {tenant url interval other text : String} {values fields : Fields}
variable {goParam : String → String} {pyParam : String → Option String}

def configMapPath : List String := ["alloy", "alloy", "configMap"]

/-- The text that the collector is configured by, if the defaults have one. -/
def collectorText (values : Fields) : Option String :=
  match (nested values configMapPath).bind (List.lookup "content") with
  | some (.str content) => if content = "" then none else some content
  | _ => none

/-- The URL and the tenant are put into the text. -/
def labelled (tenant url text : String) : String :=
  replaceAll (replaceAll text "url = \"\"" ("url = \"" ++ url ++ "\"")) "cluster = \"\""
    ("cluster = \"" ++ tenant ++ "\"")

/-- And the interval. -/
def configured (tenant url interval text : String) : String :=
  replaceAll (labelled tenant url text) "scrape_interval = \"30s\""
    ("scrape_interval = \"" ++ interval ++ "\"")

def occursIn (part text : String) : Prop := part.toList <:+: text.toList

instance (part text : String) : Decidable (occursIn part text) :=
  inferInstanceAs (Decidable (_ <:+: _))

def urlName : List Char := "url = \"".toList

def clusterName : List Char := "cluster = \"".toList

def intervalName : List Char := "scrape_interval = \"".toList

theorem label_url : Label urlName := ⟨by decide, by decide, by decide⟩

theorem label_cluster : Label clusterName := ⟨by decide, by decide, by decide⟩

theorem label_interval : Label intervalName := ⟨by decide, by decide, by decide⟩

theorem toList_replaceAll (s old new : String) :
    (replaceAll s old new).toList = replaceFrom old.toList new.toList 0 s.toList :=
  String.toList_ofList

theorem toList_labelled : (labelled tenant url text).toList =
    fill clusterName [] tenant.toList (fill urlName [] url.toList text.toList) := by
  simp only [labelled, toList_replaceAll, String.toList_append]
  rfl

theorem toList_configured : (configured tenant url interval text).toList =
    fill intervalName "30s".toList interval.toList (labelled tenant url text).toList := by
  simp only [configured, toList_replaceAll, String.toList_append]
  rfl

theorem configured_eq_configured_iff : configured tenant url interval text =
    configured tenant url other text ↔
      interval = other ∨ ¬ occursIn "scrape_interval = \"30s\"" (labelled tenant url text) := by
  rw [← String.toList_inj, toList_configured, toList_configured, fill_eq_fill_iff label_interval,
    String.toList_inj]
  rfl

theorem configured_eq_self_iff (hurl : url ≠ "") (hinterval : interval ≠ "") :
    configured tenant url interval text = text ↔
      ¬ occursIn "url = \"\"" text ∧ (tenant = "" ∨ ¬ occursIn "cluster = \"\"" text) ∧
        (interval = "30s" ∨ ¬ occursIn "scrape_interval = \"30s\"" text) := by
  have hne {s : String} (hs : s ≠ "") : s.toList ≠ [] := fun h => hs (String.toList_inj.mp h)
  have htenant : tenant.toList = [] ↔ tenant = "" := by
    rw [← String.toList_inj]
    rfl
  rw [← String.toList_inj, toList_configured, toList_labelled,
    fill_fill_fill_eq_self_iff label_url label_cluster label_interval (hne hurl) (by decide)
      (by decide) (hne hinterval), String.toList_inj, htenant]
  rfl

theorem exists_of_bind_eq_ok {α β : Type} {x : Except Raised α} {f : α → Except Raised β} {b : β}
    (h : x >>= f = .ok b) : ∃ a, x = .ok a ∧ f a = .ok b := by
  cases x with
  | ok a => exact ⟨a, rfl, h⟩
  | error e => contradiction

theorem getOr_obj (fields : Fields) (key : String) (default : Json) :
    getOr (.obj fields) key default = .ok ((fields.lookup key).getD default) := rfl

theorem alloyConfig_of_nested (h : nested values configMapPath = some fields) :
    alloyConfig values = .ok ((fields.lookup "content").getD (.str "")) := by
  simp only [configMapPath, nested] at h
  split at h
  · next outer houter =>
    split at h
    · next inner hinner =>
      split at h
      · next configMap hconfigMap =>
        obtain rfl := some.inj h
        simp only [alloyConfig, getOr_obj, houter, hinner, hconfigMap, getD_some, bind,
          Except.bind]
      · contradiction
    · contradiction
  · contradiction

theorem getOr_eq_ok {value default : Json} {key : String}
    (h : getOr value key default = .ok found) : ∃ fields, value = .obj fields ∧
      found = (fields.lookup key).getD default := by
  cases value with
  | obj fields => exact ⟨fields, rfl, (Except.ok.inj h).symm⟩
  | _ => contradiction

theorem alloyConfig_cases {config : Json} (h : alloyConfig values = .ok config) :
    config = .str "" ∨ ∃ fields, nested values configMapPath = some fields ∧
      config = (fields.lookup "content").getD (.str "") := by
  obtain ⟨outer, houter, hrest⟩ := exists_of_bind_eq_ok h
  obtain ⟨inner, hgetInner, hmore⟩ := exists_of_bind_eq_ok hrest
  obtain ⟨configMap, hgetMap, hlast⟩ := exists_of_bind_eq_ok hmore
  clear h hrest hmore
  obtain ⟨outerFields, rfl, hinner⟩ := getOr_eq_ok hgetInner
  obtain ⟨innerFields, rfl, hconfigMap⟩ := getOr_eq_ok hgetMap
  obtain ⟨configFields, rfl, rfl⟩ := getOr_eq_ok hlast
  rw [getOr_obj, Except.ok.injEq] at houter
  cases halloy : values.lookup "alloy" with
  | none =>
    obtain rfl : [] = outerFields := by simpa [halloy] using houter
    obtain rfl : innerFields = [] := by simpa using hinner
    obtain rfl : configFields = [] := by simpa using hconfigMap
    exact .inl rfl
  | some outer =>
    obtain rfl : outer = .obj outerFields := by simpa [halloy] using houter
    cases hdeeper : outerFields.lookup "alloy" with
    | none =>
      obtain rfl : innerFields = [] := by simpa [hdeeper] using hinner
      obtain rfl : configFields = [] := by simpa using hconfigMap
      exact .inl rfl
    | some inner =>
      obtain rfl : .obj innerFields = inner := by simpa [hdeeper] using hinner
      cases hmap : innerFields.lookup "configMap" with
      | none =>
        obtain rfl : configFields = [] := by simpa [hmap] using hconfigMap
        exact .inl rfl
      | some found =>
        obtain rfl : .obj configFields = found := by simpa [hmap] using hconfigMap
        refine .inr ⟨configFields, ?_, rfl⟩
        simp only [configMapPath, nested, halloy, hdeeper, hmap]

theorem alloyConfig_eq_text_iff (hne : text ≠ "") :
    alloyConfig values = .ok (.str text) ↔ collectorText values = some text := by
  have hcollector {fields : Fields} (hnested : nested values configMapPath = some fields) :
      (fields.lookup "content").getD (.str "") = .str text ↔ collectorText values = some text := by
    rw [collectorText, hnested, bind_some]
    cases hcontent : fields.lookup "content" with
    | none => simp [Ne.symm hne]
    | some content =>
      cases content with
      | str s =>
        by_cases hs : s = ""
        · simp [hs, Ne.symm hne]
        · simp [hs]
      | _ => simp
  constructor
  · intro h
    obtain hempty | ⟨fields, hnested, hfound⟩ := alloyConfig_cases h
    · exact absurd (Json.str.inj hempty) hne
    · exact (hcollector hnested).mp hfound.symm
  · intro h
    cases hnested : nested values configMapPath with
    | none => simp [collectorText, hnested] at h
    | some fields =>
      rw [alloyConfig_of_nested hnested, (hcollector hnested).mpr h]

theorem alike_updateNested_iff {change' : Fields → Fields} (h : nested values path = some fields) :
    Alike (.obj (updateNested change values path)) (.obj (updateNested change' values path)) ↔
      Alike (.obj (change fields)) (.obj (change' fields)) := by
  induction path generalizing values with
  | nil =>
    obtain rfl := some.inj h
    rfl
  | cons key path ih =>
    rw [nested] at h
    split at h
    · next next hnext =>
      simp only [updateNested, hnext]
      rw [Json.alike_setField_iff fun _ _ => .refl _, ih h]
    · contradiction

theorem alike_updateNested_self_iff (h : nested values path = some fields) :
    Alike (.obj (updateNested change values path)) (.obj values) ↔
      Alike (.obj (change fields)) (.obj fields) := by
  induction path generalizing values with
  | nil =>
    obtain rfl := some.inj h
    rfl
  | cons key path ih =>
    rw [nested] at h
    split at h
    · next next hnext =>
      simp only [updateNested, hnext]
      rw [Json.alike_setField_self_iff hnext, ih h]
    · contradiction

/-- Put a text where the collector's is. -/
def setCollectorText (text : String) (values : Fields) : Fields :=
  updateNested (Json.setField "content" (.str text)) values configMapPath

theorem exists_nested (h : collectorText values = some text) : text ≠ "" ∧
    ∃ fields, nested values configMapPath = some fields ∧
      fields.lookup "content" = some (.str text) := by
  rw [collectorText] at h
  split at h
  · next content hcontent =>
    obtain ⟨fields, hnested, hlookup⟩ := bind_eq_some_iff.mp hcontent
    split at h
    · contradiction
    · next hne =>
      obtain rfl := some.inj h
      exact ⟨hne, fields, hnested, hlookup⟩
  · contradiction

theorem alike_setCollectorText_iff (h : collectorText values = some text) {b : String} :
    Alike (.obj (setCollectorText a values)) (.obj (setCollectorText b values)) ↔ a = b := by
  obtain ⟨-, fields, hnested, -⟩ := exists_nested h
  rw [setCollectorText, setCollectorText, alike_updateNested_iff hnested,
    Json.alike_setField_iff fun _ _ => .refl _, Json.alike_str_iff]

theorem alike_setCollectorText_self_iff (h : collectorText values = some text) :
    Alike (.obj (setCollectorText a values)) (.obj values) ↔ a = text := by
  obtain ⟨-, fields, hnested, hlookup⟩ := exists_nested h
  rw [setCollectorText, alike_updateNested_self_iff hnested,
    Json.alike_setField_self_iff hlookup, Json.alike_str_iff]

theorem alloyValues_eq : alloyValues tenant goParam values = match collectorText values with
    | some text =>
      if goParam "VM_REMOTE_WRITE_URL" = "" then values
      else setCollectorText (configured tenant (goParam "VM_REMOTE_WRITE_URL")
        (if goParam "SCRAPE_INTERVAL" = "" then "30s" else goParam "SCRAPE_INTERVAL") text) values
    | none => values := by
  simp only [alloyValues, collectorText]
  change (match (nested values configMapPath).bind (List.lookup "content") with
    | some (.str content) => _
    | _ => _) = _
  split
  · next content _ =>
    by_cases hcontent : content = ""
    · simp [hcontent]
    · simp only [hcontent, false_or, if_false]
      rfl
  · rfl

/-- The defaults can be read on the way to the text, and what is there is one, if anything. -/
def Legible (values : Fields) : Prop :=
  ∃ config, alloyConfig values = .ok config ∧ (config.truthy = true → ∃ text, config = .str text)

theorem buildAlloyValues_eq_ok_iff {made : Fields}
    (hurl : (pyParam "VM_REMOTE_WRITE_URL").getD "" = url) (hne : url ≠ "") :
    buildAlloyValues tenant pyParam values = .ok made ↔ Legible values ∧
      made = match collectorText values with
        | some text => setCollectorText
            (configured tenant url ((pyParam "SCRAPE_INTERVAL").getD "30s") text) values
        | none => values := by
  simp only [buildAlloyValues, hurl, if_neg hne]
  cases hconfig : alloyConfig values with
  | error e => simp [Legible, hconfig, bind, Except.bind]
  | ok config =>
    have hnone (h : ∀ text, text ≠ "" → config ≠ .str text) : collectorText values = none := by
      refine eq_none_iff_forall_ne_some.mpr fun text htext => ?_
      have hne := (exists_nested htext).1
      have hfound := (alloyConfig_eq_text_iff hne).mpr htext
      exact h text hne (Except.ok.inj (hconfig.symm.trans hfound))
    have hlegible : Legible values ↔ (config.truthy = true → ∃ text, config = .str text) := by
      simp [Legible, hconfig]
    simp only [bind, Except.bind, hlegible]
    by_cases htruthy : config.truthy = false
    · have htext := hnone fun text hne h => by
        subst h
        simp [Json.truthy, hne] at htruthy
      simp [htruthy, htext, pure, Except.pure, eq_comm]
    · rw [if_neg htruthy]
      cases config with
      | str text =>
        have hne : text ≠ "" := by
          rintro rfl
          exact htruthy rfl
        rw [(alloyConfig_eq_text_iff hne).mp hconfig, and_iff_right fun _ => ⟨text, rfl⟩]
        exact ⟨fun h => (Except.ok.inj h).symm, fun h => congrArg Except.ok h.symm⟩
      | _ => simp_all [throw, throwThe, MonadExceptOf.throw]

/-- When both programs give the collector the same values: neither is given a URL; or only the
operator reads one, and the text has no place for what it would put there; or both do, the
backend can read the defaults, and the interval is the same or has no place. -/
def CollectorAgrees (tenant : String) (goParam : String → String)
    (pyParam : String → Option String) (values : Fields) : Prop :=
  let url := goParam "VM_REMOTE_WRITE_URL"
  let interval := if goParam "SCRAPE_INTERVAL" = "" then "30s" else goParam "SCRAPE_INTERVAL"
  url = "" ∨
  ((pyParam "VM_REMOTE_WRITE_URL").getD "" = "" ∧ ∀ text, collectorText values = some text →
    ¬ occursIn "url = \"\"" text ∧ (tenant = "" ∨ ¬ occursIn "cluster = \"\"" text) ∧
      (interval = "30s" ∨ ¬ occursIn "scrape_interval = \"30s\"" text)) ∨
  ((pyParam "VM_REMOTE_WRITE_URL").getD "" ≠ "" ∧ Legible values ∧
    ∀ text, collectorText values = some text →
      interval = (pyParam "SCRAPE_INTERVAL").getD "30s" ∨
        ¬ occursIn "scrape_interval = \"30s\"" (labelled tenant url text))

theorem alloyValues_alike_iff (hread : (pyParam "VM_REMOTE_WRITE_URL").getD "" ≠ "" →
      goParam "VM_REMOTE_WRITE_URL" = (pyParam "VM_REMOTE_WRITE_URL").getD "") :
    (∃ made, buildAlloyValues tenant pyParam values = .ok made ∧
      Alike (.obj (alloyValues tenant goParam values)) (.obj made)) ↔
      CollectorAgrees tenant goParam pyParam values := by
  rw [alloyValues_eq]
  by_cases hpy : (pyParam "VM_REMOTE_WRITE_URL").getD "" = ""
  · have hmade : buildAlloyValues tenant pyParam values = .ok values := by
      simp only [buildAlloyValues, hpy, if_true]
      rfl
    simp only [hmade, Except.ok.injEq, exists_eq_left']
    by_cases hgo : goParam "VM_REMOTE_WRITE_URL" = ""
    · have halike : Alike (.obj values) (.obj values) := .refl _
      simp only [CollectorAgrees, hgo, if_true, true_or, iff_true]
      split
      · exact halike
      · exact halike
    · simp only [CollectorAgrees, hgo, hpy, if_false, false_or, true_and, not_true, false_and,
        or_false, ne_eq]
      cases htext : collectorText values with
      | none => simpa using Alike.refl _
      | some text =>
        simp only [some.injEq, forall_eq']
        rw [alike_setCollectorText_self_iff htext, configured_eq_self_iff hgo]
        split <;> simp_all
  · have hgo := hread hpy
    simp only [buildAlloyValues_eq_ok_iff hgo.symm (hgo ▸ hpy)]
    have hne : goParam "VM_REMOTE_WRITE_URL" ≠ "" := hgo ▸ hpy
    simp only [CollectorAgrees, hne, hpy, if_false, false_or, false_and, not_false_eq_true,
      true_and, ne_eq, and_assoc, exists_and_left, exists_eq_left]
    refine and_congr_right fun _ => ?_
    cases htext : collectorText values with
    | none => simpa using Alike.refl _
    | some text =>
      simp only [some.injEq, forall_eq']
      rw [alike_setCollectorText_iff htext, configured_eq_configured_iff]

end Collector

section Driver

variable {tenant ns : String} {values : Fields}
variable {goParam : String → String} {pyParam : String → Option String}

/-- The storage classes as the operator writes them. -/
def goClasses (storageClass : String) (classes : Option Json) : List Json :=
  let classes := match classes with
    | some (.arr (first :: rest)) => first :: rest
    | _ => [.obj []]
  match classes with
  | .obj first :: rest =>
    .obj (Json.setField "infraStorageClassName" (.str storageClass) first) :: rest
  | classes => classes

/-- The storage classes as the backend writes them. -/
def pyClasses (storageClass : String) (classes : Option Json) : Except Raised (Option Json) :=
  if storageClass = "" then .ok classes
  else
    let found := classes.getD (.arr [.obj []])
    if found.truthy = false then .ok classes
    else (setStorageClass storageClass found).map some

/-- When both programs write the same storage classes: none is given; or both read one, and
the defaults have no list, or one that begins with an object; or only the operator reads one,
and in the defaults it is there already, or has no object to go into. -/
def ClassesAgree (goClass pyClass : String) (classes : Option Json) : Prop :=
  goClass = "" ∨
  (pyClass ≠ "" ∧ (classes = none ∨ ∃ first rest, classes = some (.arr (.obj first :: rest)))) ∨
  (pyClass = "" ∧ ∃ first rest, classes = some (.arr (first :: rest)) ∧
    ∀ fields, first = .obj fields →
      fields.lookup "infraStorageClassName" = some (.str goClass))

/-- What is written for the storage classes. -/
def goStorage (storageClass : String) (classes : Option Json) : Option Json :=
  if storageClass = "" then classes else some (.arr (goClasses storageClass classes))

theorem alike_goClasses_iff {classes : Option Json} :
    AlikeIf (some (.arr (goClasses storageClass classes))) classes ↔
      ∃ first rest, classes = some (.arr (first :: rest)) ∧ ∀ fields, first = .obj fields →
        fields.lookup "infraStorageClassName" = some (.str storageClass) := by
  cases classes with
  | none => simpa using Json.not_alikeIf_some_none
  | some found =>
    rw [Json.alikeIf_some]
    cases found with
    | arr items =>
      cases items with
      | nil => simpa [goClasses] using Json.not_alike_of_shape (by simp [Json.shape])
      | cons first rest =>
        cases first with
        | obj fields =>
          simp only [goClasses]
          rw [Json.alike_cons_iff, Json.alike_setField_str_iff]
          simp
        | _ => simpa [goClasses] using Alike.refl _
    | _ => simpa using Json.not_alike_of_shape (by simp [Json.shape])

theorem setStorageClass_agrees_iff :
    (∃ made, (setStorageClass storageClass found).map some = .ok made ∧
      AlikeIf (some (.arr (goClasses storageClass (some found)))) made) ↔
      ∃ first rest, found = .arr (.obj first :: rest) := by
  constructor
  · rintro ⟨made, hmade, -⟩
    cases found with
    | arr items =>
      cases items with
      | nil => contradiction
      | cons first rest =>
        cases first with
        | obj fields => exact ⟨fields, rest, rfl⟩
        | _ => contradiction
    | _ => contradiction
  · rintro ⟨first, rest, rfl⟩
    exact ⟨_, rfl, .refl _⟩

theorem classes_agree_iff {goClass pyClass : String} (hread : pyClass ≠ "" → goClass = pyClass)
    (classes : Option Json) : (∃ made, pyClasses pyClass classes = .ok made ∧
      AlikeIf (goStorage goClass classes) made) ↔ ClassesAgree goClass pyClass classes := by
  by_cases hgo : goClass = ""
  · have hpy : pyClass = "" := by
      by_contra hne
      exact hne ((hread hne).symm.trans hgo)
    simp only [pyClasses, goStorage, ClassesAgree, hgo, hpy, if_true, true_or, iff_true]
    exact ⟨classes, rfl, .refl _⟩
  · by_cases hpy : pyClass = ""
    · simp only [pyClasses, goStorage, ClassesAgree, hgo, hpy, if_true, if_false, false_or,
        ne_eq, not_true, false_and, true_and, Except.ok.injEq, exists_eq_left']
      exact alike_goClasses_iff
    · obtain rfl := hread hpy
      simp only [pyClasses, goStorage, ClassesAgree, hgo, if_false, false_or, ne_eq,
        not_false_eq_true, true_and, false_and, or_false]
      cases classes with
      | none => exact iff_of_true ⟨_, rfl, .refl _⟩ (.inl rfl)
      | some found =>
        simp only [getD_some, reduceCtorEq, false_or, some.injEq]
        by_cases hfalsy : found.truthy = false
        · simp only [hfalsy, if_true, Except.ok.injEq, exists_eq_left']
          refine iff_of_false (fun h => ?_) ?_
          · obtain ⟨first, rest, hfound, -⟩ := alike_goClasses_iff.mp h
            rw [some.inj hfound] at hfalsy
            simp [Json.truthy] at hfalsy
          · rintro ⟨first, rest, rfl⟩
            simp [Json.truthy] at hfalsy
        · rw [if_neg hfalsy]
          exact setStorageClass_agrees_iff

/-- The fields of the secret that the defaults name. -/
def secretOf (values : Fields) : Fields :=
  let secret := match values.lookup "infraClusterKubeconfigSecret" with
    | some (.obj secret) => secret
    | _ => []
  setDefault "key" "kubeconfig" (setDefault "name" "infra-cluster-credentials" secret)

/-- The fields of what the driver is given. -/
def driverField (infraNs : String) (classes : Option Json) (values : Fields) (key : String) :
    Option Json :=
  if key = "infraClusterKubeconfigSecret" then some (.obj (secretOf values))
  else if key = "storageClasses" then classes
  else if key = "infraClusterNamespace" then some (.str infraNs)
  else values.lookup key

theorem lookup_csiValues (key : String) : (csiValues ns goParam values).lookup key =
    driverField (if goParam "INFRA_CLUSTER_NAMESPACE" = "" then ns
        else goParam "INFRA_CLUSTER_NAMESPACE")
      (goStorage (goParam "INFRA_STORAGE_CLASS_NAME") (values.lookup "storageClasses")) values
      key := by
  by_cases hclass : goParam "INFRA_STORAGE_CLASS_NAME" = ""
  · simp only [csiValues, driverField, goStorage, hclass, if_true, Json.lookup_setField, secretOf]
    by_cases hkey : key = "storageClasses"
    · subst hkey
      rfl
    · simp only [hkey, if_false]
      rfl
  · simp only [csiValues, driverField, goStorage, hclass, if_false, Json.lookup_setField, secretOf]
    rfl

/-- The backend can use what the defaults have for the secret. -/
def SecretUsable (values : Fields) : Prop :=
  ∀ secret, values.lookup "infraClusterKubeconfigSecret" = some secret →
    ∃ fields, secret = .obj fields

theorem storeClasses_cases (storageClass : String) (values : Fields) :
    (∃ stored v, pyClasses storageClass (values.lookup "storageClasses") = .ok stored ∧
      storeClasses storageClass values = .ok v ∧
        ∀ key, v.lookup key = if key = "storageClasses" then stored else values.lookup key) ∨
    ∃ e, pyClasses storageClass (values.lookup "storageClasses") = .error e ∧
      storeClasses storageClass values = .error e := by
  have hsame (key : String) : values.lookup key =
      if key = "storageClasses" then values.lookup "storageClasses" else values.lookup key := by
    split
    · next hkey => rw [hkey]
    · rfl
  rw [pyClasses, storeClasses]
  by_cases hclass : storageClass = ""
  · rw [if_pos hclass, if_pos hclass]
    exact .inl ⟨_, values, rfl, rfl, hsame⟩
  · rw [if_neg hclass, if_neg hclass]
    dsimp only
    by_cases hfalsy : ((values.lookup "storageClasses").getD (.arr [.obj []])).truthy = false
    · rw [if_pos hfalsy, if_pos hfalsy]
      exact .inl ⟨_, values, rfl, rfl, hsame⟩
    · rw [if_neg hfalsy, if_neg hfalsy]
      cases setStorageClass storageClass
        ((values.lookup "storageClasses").getD (.arr [.obj []])) with
      | error e => exact .inr ⟨e, rfl, rfl⟩
      | ok classes => exact .inl ⟨_, _, rfl, rfl, fun key => Json.lookup_setField _ _ _ _⟩

/-- The namespace that the backend finds. -/
def infraNamespace (tenant : String) (param : String → Option String) : String :=
  if (param "INFRA_CLUSTER_NAMESPACE").getD "" = "" then tenantNs tenant
  else (param "INFRA_CLUSTER_NAMESPACE").getD ""

theorem lookup_secret {secret v : Fields} {infraNs : String} {stored : Option Json}
    (hv : ∀ key, v.lookup key = if key = "storageClasses" then stored else
      (Json.setField "infraClusterNamespace" (.str infraNs) values).lookup key)
    (hs : secretOf values = setDefault "key" "kubeconfig"
      (setDefault "name" "infra-cluster-credentials" secret)) (key : String) :
    (Json.setField "infraClusterKubeconfigSecret" (.obj (setDefault "key" "kubeconfig"
      (setDefault "name" "infra-cluster-credentials" secret))) v).lookup key =
        driverField infraNs stored values key := by
  rw [Json.lookup_setField, driverField, hv, Json.lookup_setField, hs]

/-- The secret of the defaults gets a name and a key, unless it has them. -/
def withSecret (values : Fields) : Except Raised Fields :=
  match (values.lookup "infraClusterKubeconfigSecret").getD (.obj []) with
  | .obj secret => pure (Json.setField "infraClusterKubeconfigSecret"
      (.obj (setDefault "key" "kubeconfig"
        (setDefault "name" "infra-cluster-credentials" secret))) values)
  | _ => throw .attributeError

theorem buildCsiValues_cases (tenant : String) (pyParam : String → Option String)
    (values : Fields) :
    (∃ stored made, SecretUsable values ∧ pyClasses ((pyParam "INFRA_STORAGE_CLASS_NAME").getD "")
        (values.lookup "storageClasses") = .ok stored ∧
      buildCsiValues tenant pyParam values = .ok made ∧
        ∀ key, made.lookup key = driverField (infraNamespace tenant pyParam) stored values key) ∨
    ∃ e, (¬ SecretUsable values ∨ pyClasses ((pyParam "INFRA_STORAGE_CLASS_NAME").getD "")
      (values.lookup "storageClasses") = .error e) ∧
        buildCsiValues tenant pyParam values = .error e := by
  generalize hns : infraNamespace tenant pyParam = infraNs
  have hbuild : buildCsiValues tenant pyParam values =
      storeClasses ((pyParam "INFRA_STORAGE_CLASS_NAME").getD "")
        (Json.setField "infraClusterNamespace" (.str infraNs) values) >>= withSecret := by
    rw [← hns]
    rfl
  have hclasses : (Json.setField "infraClusterNamespace" (.str infraNs) values).lookup
      "storageClasses" = values.lookup "storageClasses" := by
    rw [Json.lookup_setField, if_neg (by decide)]
  have hcases := storeClasses_cases ((pyParam "INFRA_STORAGE_CLASS_NAME").getD "")
    (Json.setField "infraClusterNamespace" (.str infraNs) values)
  rw [hclasses] at hcases
  rw [hbuild]
  obtain ⟨stored, v, hstored, hstore, hv⟩ | ⟨e, hstored, hstore⟩ := hcases
  · rw [hstore, hstored]
    have hsecret : v.lookup "infraClusterKubeconfigSecret" =
        values.lookup "infraClusterKubeconfigSecret" := by
      rw [hv, if_neg (by decide), Json.lookup_setField, if_neg (by decide)]
    simp only [bind, Except.bind, withSecret, hsecret]
    cases hfound : values.lookup "infraClusterKubeconfigSecret" with
    | none =>
      have husable : SecretUsable values := fun secret hs =>
        absurd (hfound.symm.trans hs) (by simp)
      exact .inl ⟨stored, _, husable, rfl, rfl, lookup_secret hv (by simp only [secretOf, hfound])⟩
    | some found =>
      cases found with
      | obj fields =>
        have husable : SecretUsable values := fun secret hs =>
          ⟨fields, (mem_unique hfound hs).symm⟩
        exact .inl ⟨stored, _, husable, rfl, rfl,
          lookup_secret hv (by simp only [secretOf, hfound])⟩
      | _ =>
        refine .inr ⟨.attributeError, .inl fun h => ?_, rfl⟩
        obtain ⟨fields, hobj⟩ := h _ hfound
        contradiction
  · rw [hstore, hstored]
    exact .inr ⟨e, .inr rfl, rfl⟩

/-- When both programs give the driver the same values: the backend can use the secret of the
defaults, both find the same namespace, and the storage classes agree. -/
def DriverAgrees (ns : String) (goParam : String → String) (pyParam : String → Option String)
    (values : Fields) : Prop :=
  let named (param : String) := if param = "" then ns else param
  SecretUsable values ∧
    named (goParam "INFRA_CLUSTER_NAMESPACE") =
      named ((pyParam "INFRA_CLUSTER_NAMESPACE").getD "") ∧
    ClassesAgree (goParam "INFRA_STORAGE_CLASS_NAME")
      ((pyParam "INFRA_STORAGE_CLASS_NAME").getD "") (values.lookup "storageClasses")

theorem csiValues_alike_iff (hread : (pyParam "INFRA_STORAGE_CLASS_NAME").getD "" ≠ "" →
      goParam "INFRA_STORAGE_CLASS_NAME" = (pyParam "INFRA_STORAGE_CLASS_NAME").getD "") :
    (∃ made, buildCsiValues tenant pyParam values = .ok made ∧
      Alike (.obj (csiValues (tenantNs tenant) goParam values)) (.obj made)) ↔
      DriverAgrees (tenantNs tenant) goParam pyParam values := by
  have hagree := classes_agree_iff hread (values.lookup "storageClasses")
  obtain ⟨stored, made, husable, hstored, hmade, hlookup⟩ | ⟨e, hwhy, herror⟩ :=
    buildCsiValues_cases tenant pyParam values
  · simp only [hmade, Except.ok.injEq, exists_eq_left']
    simp only [hstored, Except.ok.injEq, exists_eq_left'] at hagree
    rw [DriverAgrees, and_iff_right husable, ← hagree, Json.alike_obj_iff]
    simp only [lookup_csiValues, hlookup]
    constructor
    · intro h
      have hns := h "infraClusterNamespace"
      simp only [driverField, String.reduceEq, if_false, if_true, Json.alikeIf_some,
        Json.alike_str_iff] at hns
      have hclasses := h "storageClasses"
      simp only [driverField, String.reduceEq, if_false, if_true] at hclasses
      exact ⟨hns, hclasses⟩
    · rintro ⟨hns, hclasses⟩ key
      rw [driverField, driverField]
      split
      · exact .refl _
      · split
        · exact hclasses
        · split
          · rw [infraNamespace, ← hns]
            exact .refl _
          · exact .refl _
  · refine iff_of_false ?_ fun h => ?_
    · rintro ⟨made, hmade, -⟩
      exact absurd (herror.symm.trans hmade) (by simp)
    · obtain hnot | hclasses := hwhy
      · exact hnot h.1
      · obtain ⟨made, hmade, -⟩ := hagree.mpr h.2.2
        exact absurd (hclasses.symm.trans hmade) (by simp)

end Driver

end Addons
