import KubevirtUi.Addons.Sediment
import KubevirtUi.Addons.Values

/-!
# Releases as of a new tenant

What one pass leaves of each release, and from it which releases a pass finds that come out as
those of a tenant without a history.
-/

namespace Addons

open Json List Option AList

variable {text : String} {param : String → String} {component : Component} {written : List Release}

section Distinct

variable {values fields : Fields} {key : String} {value : Json}

theorem nodup_setField (h : (values.map Prod.fst).Nodup) :
    ((setField key value values).map Prod.fst).Nodup := by
  rw [setField, map_cons, nodup_cons]
  constructor
  · intro hmem
    obtain ⟨field, hfield, hkey⟩ := mem_map.mp hmem
    have hne := (mem_filter.mp hfield).2
    simp [hkey] at hne
  · exact h.sublist (filter_sublist.map _)

theorem Distinct.setField (h : Distinct values) (hvalue : ∀ fields, value = .obj fields →
    Distinct fields) : Distinct (setField key value values) := by
  intro path found hfound
  cases path with
  | nil =>
    obtain rfl := some.inj hfound
    exact nodup_setField h.nodup
  | cons first path =>
    obtain ⟨next, hnext, hrest⟩ := of_nested_cons hfound
    rw [lookup_setField] at hnext
    split at hnext
    · exact hvalue next (some.inj hnext) path found hrest
    · exact h.under hnext path found hrest

theorem Distinct.setField_str (h : Distinct values) :
    Distinct (Json.setField key (.str text) values) :=
  h.setField fun _ hvalue => by contradiction

theorem Distinct.setDefault (h : Distinct values) : Distinct (setDefault key text values) := by
  rw [Addons.setDefault]
  split
  · exact h
  · exact h.setField_str

theorem distinct_nil : Distinct [] := by
  intro path found hfound
  cases path with
  | nil =>
    obtain rfl := some.inj hfound
    exact nodup_nil
  | cons first path =>
    obtain ⟨next, hnext, -⟩ := of_nested_cons hfound
    contradiction

theorem Distinct.updateNested {change : Fields → Fields} {path : List String}
    (hchange : ∀ fields, Distinct fields → Distinct (change fields)) (h : Distinct values) :
    Distinct (updateNested change values path) := by
  induction path generalizing values with
  | nil => exact hchange values h
  | cons first path ih =>
    rw [Addons.updateNested]
    split
    · next next hnext =>
      apply h.setField
      intro fields hfields
      obtain rfl := Json.obj.inj hfields
      exact ih (h.under hnext)
    · exact h

theorem Distinct.alloyValues (h : Distinct values) {tenant : String} :
    Distinct (alloyValues tenant param values) := by
  simp only [Addons.alloyValues]
  split
  · split
    · exact h
    · exact h.updateNested fun fields hfields => hfields.setField_str
  · exact h

theorem Distinct.csiValues (h : Distinct values) {ns : String} :
    Distinct (csiValues ns param values) := by
  have hstored {classes : List Json} :
      Distinct (Json.setField "storageClasses" (.arr classes) (Json.setField "infraClusterNamespace"
        (.str (if param "INFRA_CLUSTER_NAMESPACE" = "" then ns
          else param "INFRA_CLUSTER_NAMESPACE")) values)) :=
    h.setField_str.setField fun _ hvalue => by contradiction
  have hsecret {values : Fields} (h : Distinct values) :
      Distinct (Json.setField "infraClusterKubeconfigSecret" (.obj (secretOf values)) values) := by
    apply h.setField
    intro fields hfields
    obtain rfl := Json.obj.inj hfields
    apply Distinct.setDefault
    apply Distinct.setDefault
    split
    · next secret hlookup => exact h.under hlookup
    · exact distinct_nil
  rw [Addons.csiValues]
  apply hsecret
  split
  · exact h.setField_str
  · exact hstored

theorem distinct_helmValues {tenant ns : String} {asked : List (String × String)}
    (h : Distinct component.defaultValues) : Distinct (helmValues tenant ns component asked) := by
  simp only [helmValues]
  split
  · exact h.alloyValues
  · exact h.csiValues
  · exact h

theorem distinct_namespaces {items : List Json} : Distinct [("namespaces", .arr items)] :=
  distinct_nil.setField fun _ hvalue => by contradiction

end Distinct

variable {release : Release}

section Release

variable {tenant ns key : String} {catalog : Catalog} {addons : List Request}
  {live : Option HelmRelease}

/-- What of the fields that are compared is an object has different keys. -/
structure Release.Sound (release : Release) : Prop where
  keys : (release.spec.map Prod.fst).Nodup
  distinct : ∀ field ∈ ["values", "targetNamespace", "dependsOn"], ∀ ws,
    release.spec.lookup field = some (.obj ws) → Distinct ws
  namespaces : release.createsNamespaces = true →
    ∃ targets, release.spec.lookup "values" = some (.obj [("namespaces", .arr targets)])

theorem lookup_releaseSpec (component : Component) (values : Fields) (waits : List Json) :
    (releaseSpec tenant catalog component values waits).lookup "values" =
        (if values ≠ [] then some (.obj values) else none) ∧
      (releaseSpec tenant catalog component values waits).lookup "targetNamespace" =
        (if component.ns ≠ "" then some (.str component.ns) else none) ∧
      (releaseSpec tenant catalog component values waits).lookup "dependsOn" =
        (if waits ≠ [] then some (.arr waits) else none) := by
  rw [releaseSpec]
  refine ⟨?_, ?_, ?_⟩
  · split <;> split <;> split <;> rfl
  · split <;> split <;> split <;> rfl
  · split <;> split <;> split <;> rfl

theorem distinct_of_lookup_releaseSpec {values ws : Fields} {waits : List Json} {field : String}
    (h : Distinct values) (hfield : field ∈ ["values", "targetNamespace", "dependsOn"])
    (hws : (releaseSpec tenant catalog component values waits).lookup field = some (.obj ws)) :
    Distinct ws := by
  obtain ⟨hvalues, htarget, hwaits⟩ := @lookup_releaseSpec tenant catalog component values waits
  simp only [mem_cons, not_mem_nil, or_false] at hfield
  obtain rfl | rfl | rfl := hfield
  · rw [hvalues] at hws
    split at hws
    · obtain rfl := Json.obj.inj (some.inj hws)
      exact h
    · contradiction
  · rw [htarget] at hws
    split at hws
    · simp at hws
    · contradiction
  · rw [hwaits] at hws
    split at hws
    · simp at hws
    · contradiction

theorem sound_of_mem_rendered
    (hcatalog : ∀ component ∈ catalog.components, Distinct component.defaultValues)
    (h : release ∈ rendered tenant ns catalog addons) : release.Sound := by
  obtain ⟨request, -, component, hfind, rfl⟩ := mem_render.mp h
  obtain ⟨hmem, -⟩ := of_find hfind
  refine ⟨nodup_fields_releaseSpec _ _ _ _, fun field hfield ws hws => ?_, fun hcreates => ?_⟩
  · refine distinct_of_lookup_releaseSpec ?_ hfield hws
    split
    · exact distinct_namespaces
    · exact distinct_helmValues (hcatalog component hmem)
  · have hid : component.id = "namespaces" := by simpa [releaseOf] using hcreates
    refine ⟨targets catalog (wantedAddons addons catalog), ?_⟩
    simp only [releaseOf, if_pos hid]
    exact lookup_releaseSpec_values catalog component (cons_ne_nil _ _) _

theorem carries_ensured (h : release ∈ rendered tenant ns catalog addons) :
    (ensured release live).Carries tenant := by
  obtain ⟨request, -, component, -, rfl⟩ := mem_render.mp h
  have hlabels : (ensured (releaseOf tenant ns catalog (wantedAddons addons catalog) request
      component) live).labels = (((live.map HelmRelease.labels).getD ∅).insert
        "kubevirt-ui.io/tenant" tenant).insert "kubevirt-ui.io/addon" component.id := rfl
  have hne : "kubevirt-ui.io/tenant" ≠ "kubevirt-ui.io/addon" := by decide
  constructor
  · rw [hlabels, lookup_insert_ne hne, lookup_insert]
  · rw [hlabels, lookup_insert]
    rfl

/-- The fields that the release had. -/
def existing (live : Option HelmRelease) : Fields := (live.map HelmRelease.spec).getD []

theorem spec_ensured : (ensured release live).spec =
    if release.createsNamespaces then
      keepNamespaces (existing live) (mergeSpec (existing live) release.spec)
    else mergeSpec (existing live) release.spec := rfl

theorem lookup_ensured_of_ne (hkey : key ≠ "values") : (ensured release live).spec.lookup key =
    (mergeSpec (existing live) release.spec).lookup key := by
  rw [spec_ensured]
  split
  · exact lookup_keepNamespaces_of_ne hkey
  · rfl

theorem lookup_ensured_none (h : release.Sound) :
    (ensured release none).spec.lookup key = release.spec.lookup key := by
  have hkeep : (ensured release none).spec = mergeSpec [] release.spec := by
    rw [spec_ensured]
    split
    · rfl
    · rfl
  rw [hkeep, lookup_mergeSpec h.keys]
  cases release.spec.lookup key with
  | none => rfl
  | some value => cases value <;> rfl

theorem leaves_none (want : Option Json) : Leaves none want := by
  cases want with
  | none => rfl
  | some value =>
    cases value with
    | obj ws =>
      intro ls hls
      contradiction
    | _ => trivial

/-- A release comes out as a new one exactly where it has nothing else in the three fields. -/
theorem asNew_iff (h : release.Sound) :
    AsNew release.createsNamespaces (existing live) (ensured release live) (ensured release none) ↔
      ∀ field ∈ ["values", "targetNamespace", "dependsOn"],
        Leaves ((existing live).lookup field) (release.spec.lookup field) := by
  have hfield {field : String} (hmem : field ∈ ["values", "targetNamespace", "dependsOn"]) :
      AlikeIf ((mergeSpec (existing live) release.spec).lookup field) (release.spec.lookup field) ↔
        Leaves ((existing live).lookup field) (release.spec.lookup field) :=
    alikeIf_lay_iff h.keys (h.distinct field hmem)
  have hother {field : String} (hmem : field ∈ ["targetNamespace", "dependsOn"]) :
      AlikeIf ((ensured release live).spec.lookup field)
          ((ensured release none).spec.lookup field) ↔
        Leaves ((existing live).lookup field) (release.spec.lookup field) := by
    have hne : field ≠ "values" := by
      rintro rfl
      revert hmem
      decide
    rw [lookup_ensured_of_ne hne, lookup_ensured_none h]
    exact hfield (mem_cons_of_mem _ hmem)
  have hvalues : (if release.createsNamespaces then ∃ more,
      (∀ entry ∈ more, entry ∈ entries (existing live)) ∧
        AlikeIf ((ensured release live).spec.lookup "values")
          (((ensured release none).spec.lookup "values").map (further more))
      else AlikeIf ((ensured release live).spec.lookup "values")
        ((ensured release none).spec.lookup "values")) ↔
        Leaves ((existing live).lookup "values") (release.spec.lookup "values") := by
    rw [lookup_ensured_none h, spec_ensured]
    cases hcreates : release.createsNamespaces with
    | true =>
      obtain ⟨targets, htargets⟩ := h.namespaces hcreates
      rw [if_pos rfl, if_pos rfl]
      exact exists_further_iff h.keys htargets
    | false =>
      rw [if_neg (by simp), if_neg (by simp)]
      exact hfield mem_cons_self
  constructor
  · intro hnew field hmem
    simp only [mem_cons, not_mem_nil, or_false] at hmem
    obtain rfl | rfl | rfl := hmem
    · exact hvalues.mp hnew.values
    · exact (hother (by decide)).mp hnew.targetNamespace
    · exact (hother (by decide)).mp hnew.dependsOn
  · intro hleaves
    exact ⟨(hother (by decide)).mpr (hleaves _ (by decide)),
      (hother (by decide)).mpr (hleaves _ (by decide)), hvalues.mpr (hleaves _ (by decide))⟩

end Release

section Pass

variable {tenant ns name : String} {catalog : Catalog} {addons : List Request} {releases : Releases}

theorem lookup_foldl_delete (names : List String) :
    ((names.map Write.delete).foldl Write.apply releases).lookup name =
      if name ∈ names then none else releases.lookup name := by
  induction names generalizing releases with
  | nil => simp
  | cons other names ih =>
    rw [map_cons, foldl_cons, ih, Write.apply]
    by_cases hsame : name = other
    · subst hsame
      simp
    · rw [lookup_erase_ne hsame]
      simp [hsame]

theorem lookup_foldl_ensure_of_not_mem (h : name ∉ written.map Release.name) :
    ((written.map Write.ensure).foldl Write.apply releases).lookup name = releases.lookup name := by
  induction written generalizing releases with
  | nil => rfl
  | cons first written ih =>
    rw [map_cons, mem_cons, not_or] at h
    rw [map_cons, foldl_cons, ih h.2, Write.apply, lookup_insert_ne h.1]

theorem lookup_foldl_ensure (h : (written.map Release.name).Nodup) (hmem : release ∈ written) :
    ((written.map Write.ensure).foldl Write.apply releases).lookup release.name =
      some (ensured release (releases.lookup release.name)) := by
  induction written generalizing releases with
  | nil => contradiction
  | cons first written ih =>
    rw [map_cons, nodup_cons] at h
    rw [map_cons, foldl_cons]
    obtain rfl | hmem := mem_cons.mp hmem
    · rw [lookup_foldl_ensure_of_not_mem h.1, Write.apply, lookup_insert]
    · have hne : release.name ≠ first.name := fun hsame =>
        h.1 (hsame ▸ mem_map_of_mem hmem)
      rw [ih h.2 hmem, Write.apply, lookup_insert_ne hne]

theorem reconcileAddons_done : reconcileAddons tenant ns releases (done catalog addons) =
    if wantedAddons addons catalog = [] then releases
    else ((rendered tenant ns catalog addons).map Write.ensure).foldl Write.apply
      (((retired tenant (rendered tenant ns catalog addons) releases).map Write.delete).foldl
        Write.apply releases) := by
  have hwritten : (done catalog addons).written tenant ns releases =
      if wantedAddons addons catalog = [] then []
      else (retired tenant (rendered tenant ns catalog addons) releases).map .delete ++
        (rendered tenant ns catalog addons).map .ensure := rfl
  rw [reconcileAddons, hwritten]
  split
  · rfl
  · rw [foldl_append]

theorem mem_retired : name ∈ retired tenant (rendered tenant ns catalog addons) releases ↔
    (∃ live, releases.lookup name = some live ∧ live.isOurs tenant = true) ∧
      name ∉ (rendered tenant ns catalog addons).map Release.name := by
  simp only [retired, mem_filter, Bool.and_eq_true, decide_eq_true_eq, Option.any_eq_true]
  constructor
  · exact fun h => h.2
  · intro h
    obtain ⟨live, hlive, -⟩ := h.1
    refine ⟨?_, h⟩
    rw [← AList.mem_keys, ← AList.lookup_isSome, hlive]
    rfl

theorem rendered_of_nothing (h : wantedAddons addons catalog = []) :
    rendered tenant ns catalog addons = [] := by
  rw [rendered, h]
  rfl

theorem lookup_done_of_mem (hmem : release ∈ rendered tenant ns catalog addons) :
    (reconcileAddons tenant ns releases (done catalog addons)).lookup release.name =
      some (ensured release (releases.lookup release.name)) := by
  have hne : wantedAddons addons catalog ≠ [] := by
    intro hempty
    rw [rendered_of_nothing hempty] at hmem
    contradiction
  have hkept : release.name ∉ retired tenant (rendered tenant ns catalog addons) releases :=
    fun hretired => (mem_retired.mp hretired).2 (mem_map_of_mem hmem)
  have hnodup : ((rendered tenant ns catalog addons).map Release.name).Nodup :=
    nodup_names_render nodup_wantedAddons
  rw [reconcileAddons_done, if_neg hne, lookup_foldl_ensure hnodup hmem, lookup_foldl_delete,
    if_neg hkept]

theorem lookup_done_of_not_mem
    (hmem : name ∉ (rendered tenant ns catalog addons).map Release.name) :
    (reconcileAddons tenant ns releases (done catalog addons)).lookup name =
      if wantedAddons addons catalog ≠ [] ∧
          ∃ live, releases.lookup name = some live ∧ live.isOurs tenant = true then none
      else releases.lookup name := by
  rw [reconcileAddons_done]
  by_cases hempty : wantedAddons addons catalog = []
  · rw [if_pos hempty, if_neg fun h => h.1 hempty]
  · rw [if_neg hempty, lookup_foldl_ensure_of_not_mem hmem, lookup_foldl_delete]
    by_cases hlive : ∃ live, releases.lookup name = some live ∧ live.isOurs tenant = true
    · rw [if_pos (mem_retired.mpr ⟨hlive, hmem⟩), if_pos ⟨hempty, hlive⟩]
    · rw [if_neg fun h => hlive (mem_retired.mp h).1, if_neg fun h => hlive h.2]

theorem HelmRelease.Carries.isOurs_iff {live : HelmRelease} (h : live.Carries tenant) :
    live.isOurs tenant = true ↔ live.labels.lookup "kubevirt-ui.io/addon" ≠ some "" := by
  obtain ⟨htenant, haddon⟩ := h
  obtain ⟨addon, haddon⟩ := isSome_iff_exists.mp haddon
  simp [HelmRelease.isOurs, htenant, haddon]

/-- What carries the labels after the pass is what is rendered exactly where everything else that
carries them goes. -/
theorem names_iff : (∀ name, (∃ release,
      (reconcileAddons tenant ns releases (done catalog addons)).lookup name = some release ∧
        release.Carries tenant) ↔ name ∈ (rendered tenant ns catalog addons).map Release.name) ↔
    ∀ name release, releases.lookup name = some release → release.Carries tenant →
      name ∉ (rendered tenant ns catalog addons).map Release.name →
        wantedAddons addons catalog ≠ [] ∧
          release.labels.lookup "kubevirt-ui.io/addon" ≠ some "" := by
  constructor
  · intro h name live hlive hcarries hmem
    have hnone := @lookup_done_of_not_mem tenant ns name catalog addons releases hmem
    split at hnone
    · next hgone =>
      obtain ⟨hne, live', hlive', hours⟩ := hgone
      obtain rfl := mem_unique hlive hlive'
      exact ⟨hne, hcarries.isOurs_iff.mp hours⟩
    · exact absurd ((h name).mp ⟨live, hnone.trans hlive, hcarries⟩) hmem
  · intro h name
    constructor
    · rintro ⟨live, hlive, hcarries⟩
      by_contra hmem
      rw [lookup_done_of_not_mem hmem] at hlive
      split at hlive
      · contradiction
      · next hstays =>
        obtain ⟨hne, haddon⟩ := h name live hlive hcarries hmem
        exact hstays ⟨hne, live, hlive, hcarries.isOurs_iff.mpr haddon⟩
    · intro hmem
      obtain ⟨release, hrelease, rfl⟩ := mem_map.mp hmem
      exact ⟨_, lookup_done_of_mem hrelease, carries_ensured hrelease⟩

/-- After any history, the last pass leaves the releases as those of a new tenant exactly where it
finds them swept. -/
theorem forgets_iff (hcatalog : ∀ component ∈ catalog.components, Distinct component.defaultValues)
    (start : Releases) (history : List Pass) :
    Forgets tenant ns catalog addons (history.foldl (reconcileAddons tenant ns) start) ↔
      Swept tenant ns catalog addons (history.foldl (reconcileAddons tenant ns) start) := by
  generalize history.foldl (reconcileAddons tenant ns) start = releases
  constructor
  · intro h
    refine ⟨names_iff.mp h.names, fun release hmem live hlive => ?_⟩
    obtain ⟨after, new, hafter, hnew, hasNew⟩ := h.same release hmem
    obtain rfl := mem_unique (lookup_done_of_mem hmem) hafter
    obtain rfl := mem_unique (lookup_done_of_mem hmem) hnew
    have hleaves := (asNew_iff (sound_of_mem_rendered hcatalog hmem)).mp hasNew
    rwa [hlive] at hleaves
  · intro h
    refine ⟨names_iff.mpr h.gone, fun release hmem => ?_⟩
    refine ⟨_, _, lookup_done_of_mem hmem, lookup_done_of_mem hmem, ?_⟩
    apply (asNew_iff (sound_of_mem_rendered hcatalog hmem)).mpr
    intro field hfield
    cases hlive : releases.lookup release.name with
    | none => exact leaves_none _
    | some live => exact h.shed release hmem live hlive field hfield

end Pass

/-- A catalogue with a collector and a storage driver, neither with defaults. -/
def drivers : Catalog where
  gitRepositoryRef := []
  basePath := "base"
  components := [⟨"alloy", "monitoring", false, "alloy", "alloy", [], []⟩,
    ⟨"kubevirt-csi-driver", "storage", false, "csi", "kube-system", [],
      [⟨"INFRA_STORAGE_CLASS_NAME", ""⟩]⟩]

/-- The driver, for one storage class. -/
def withClass : List Request := [⟨"kubevirt-csi-driver", [("INFRA_STORAGE_CLASS_NAME", "fast")]⟩]

def withoutClass : List Request := [⟨"kubevirt-csi-driver", []⟩]

/-- The class stays in the values. -/
theorem not_forgets : ¬Forgets "t" "tenant-t" drivers withoutClass
    ([done drivers withClass].foldl (reconcileAddons "t" "tenant-t") ∅) := by
  intro h
  have hall : ∀ release ∈ rendered "t" "tenant-t" drivers withoutClass,
      release.createsNamespaces = false ∧
        ((ensured release (([done drivers withClass].foldl (reconcileAddons "t" "tenant-t")
          ∅).lookup release.name)).spec.lookup "values").bind (look [.field "storageClasses"]) ≠
        ((ensured release none).spec.lookup "values").bind (look [.field "storageClasses"]) := by
    decide +kernel
  obtain ⟨release, hmem⟩ : ∃ release, release ∈ rendered "t" "tenant-t" drivers withoutClass :=
    ⟨_, mem_singleton.mpr rfl⟩
  obtain ⟨after, new, hafter, hnew, hasNew⟩ := h.same release hmem
  obtain rfl := mem_unique (lookup_done_of_mem hmem) hafter
  obtain rfl := mem_unique (lookup_done_of_mem hmem) hnew
  obtain ⟨hcreates, hne⟩ := hall release hmem
  have hvalues := hasNew.values
  rw [if_neg (by simp [hcreates])] at hvalues
  exact hne (hvalues [.field "storageClasses"])

/-- An addon that is replaced by another one leaves nothing. -/
theorem forgets_collector : Forgets "t" "tenant-t" drivers withClass
    ([done drivers [⟨"alloy", []⟩]].foldl (reconcileAddons "t" "tenant-t") ∅) := by
  have hdefaults : ∀ component ∈ drivers.components, Distinct component.defaultValues := by
    intro component hmem
    have hnone : component.defaultValues = [] := by
      revert component
      decide
    rw [hnone]
    exact distinct_nil
  apply (forgets_iff hdefaults ∅ [done drivers [⟨"alloy", []⟩]]).mpr
  have hkeys : ([done drivers [⟨"alloy", []⟩]].foldl (reconcileAddons "t" "tenant-t") ∅).keys =
      ["t-alloy"] := by decide +kernel
  have hname {name : String} {release : HelmRelease}
      (h : ([done drivers [⟨"alloy", []⟩]].foldl (reconcileAddons "t" "tenant-t") ∅).lookup name =
        some release) : name = "t-alloy" := by
    apply mem_singleton.mp
    rw [← hkeys, ← AList.mem_keys, ← AList.lookup_isSome, h]
    rfl
  constructor
  · intro name release hlookup _ _
    obtain rfl := hname hlookup
    have hlabel : (([done drivers [⟨"alloy", []⟩]].foldl (reconcileAddons "t" "tenant-t") ∅).lookup
        "t-alloy").map (fun release => release.labels.lookup "kubevirt-ui.io/addon") =
          some (some "alloy") := by decide +kernel
    rw [hlookup, map_some] at hlabel
    rw [some.inj hlabel]
    exact ⟨by decide +kernel, by decide⟩
  · intro release hmem live hlive
    have hother : ∀ release ∈ rendered "t" "tenant-t" drivers withClass,
        release.name ≠ "t-alloy" := by decide +kernel
    exact absurd (hname hlive) (hother release hmem)

end Addons
