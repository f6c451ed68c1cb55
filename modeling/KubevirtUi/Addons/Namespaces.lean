import KubevirtUi.Addons.Installable
import KubevirtUi.Library.Machine

/-!
# The namespaces of a tenant are kept

A pass deletes the releases that are no longer rendered and writes the others over what is
there, one call after the other, until one fails. What the values of a release list is
replaced by what is rendered, but for the list of namespaces, which only grows.

A pass that writes the release of the namespaces keeps every name on its list. A pass to
which this release is one of the addons that are no longer wanted deletes it, and with it
the list.
-/

namespace Addons

open Go List

/-- A release as the API server has it. -/
structure HelmRelease where
  labels : AList fun _ : String => String
  spec : Fields

/-- The releases in the namespace of a tenant, by name. -/
abbrev Releases := AList fun _ : String => HelmRelease

mutual

def lay : Json → Json → Json
  | .obj live, .obj want => .obj (mergeSpec live want)
  | _, want => want

/-- Objects are merged, and everything else is replaced. -/
def mergeSpec : Fields → Fields → Fields
  | live, [] => live
  | live, (key, want) :: rest =>
    mergeSpec (Json.setField key (lay ((live.lookup key).getD .null) want) live) rest

end

/-- What is found under a path of fields, unless something on the way is no object. -/
def nestedField : Json → List String → Except Unit (Option Json)
  | value, [] => .ok (some value)
  | .null, _ :: _ => .ok none
  | .obj fields, key :: path =>
    match fields.lookup key with
    | some value => nestedField value path
    | none => .ok none
  | _, _ :: _ => .error ()

/-- `NestedSlice`: what is found has to be a list. -/
def nestedSlice (fields : Fields) (path : List String) : Except Unit (Option (List Json)) := do
  match ← nestedField (.obj fields) path with
  | some (.arr items) => return some items
  | some _ => throw ()
  | none => return none

/-- `SetNestedSlice` two fields down. -/
def setNestedSlice (fields : Fields) (outer inner : String) (items : List Json) :
    Except Unit Fields :=
  match fields.lookup outer with
  | some (.obj values) =>
    .ok (Json.setField outer (.obj (Json.setField inner (.arr items) values)) fields)
  | some _ => .error ()
  | none => .ok (Json.setField outer (.obj [(inner, .arr items)]) fields)

/-- The name of a listed namespace, if one can be read. -/
def named : Json → Option String
  | .obj fields =>
    match fields.lookup "name" with
    | some (.str name) => some name
    | _ => none
  | _ => none

/-- Add an entry, unless one with its name is there. -/
def hold (after : List Json) (entry : Json) : List Json :=
  if (named entry).any (· ∈ after.filterMap named) then after else after ++ [entry]

/-- What is listed stays listed. -/
def keepNamespaces (existing merged : Fields) : Fields :=
  match nestedSlice existing ["values", "namespaces"] with
  | .ok (some before) =>
    match nestedSlice merged ["values", "namespaces"] with
    | .ok after =>
      match setNestedSlice merged "values" "namespaces" (before.foldl hold (after.getD [])) with
      | .ok out => out
      | .error _ => merged
    | .error _ => merged
  | _ => merged

/-- The calls that write. -/
inductive Write where
  | delete (name : String)
  | ensure (release : Release)

/-- What a release becomes, or is created as. -/
def ensured (release : Release) (live : Option HelmRelease) : HelmRelease where
  labels := release.labels.foldl (fun labels (key, value) => labels.insert key value)
    ((live.map HelmRelease.labels).getD ∅)
  spec :=
    let existing := (live.map HelmRelease.spec).getD []
    let merged := mergeSpec existing release.spec
    if release.createsNamespaces then keepNamespaces existing merged else merged

def Write.apply (releases : Releases) : Write → Releases
  | .delete name => releases.erase name
  | .ensure release =>
    releases.insert release.name (ensured release (releases.lookup release.name))

/-- The release was written for this tenant, as one of its addons. -/
def HelmRelease.isOurs (tenant : String) (release : HelmRelease) : Bool :=
  release.labels.lookup "kubevirt-ui.io/tenant" = some tenant &&
    (release.labels.lookup "kubevirt-ui.io/addon").getD "" ≠ ""

/-- The releases of addons that are no longer wanted. -/
def retired (tenant : String) (rendered : List Release) (releases : Releases) : List String :=
  releases.keys.filter fun name =>
    (releases.lookup name).any (·.isOurs tenant) && name ∉ rendered.map Release.name

/-- What a pass finds: the catalogue, if there is one and it can be read, and what the tenant
asks for. Where a call fails the pass ends there, and the call may have been carried out all
the same. -/
structure Pass where
  catalog : Option Catalog
  addons : List Request
  failure : Option (Nat × Bool)

variable (tenant ns : String)

/-- What a pass goes on to write. Where nothing is wanted, nothing is retired either. -/
def Pass.writes (pass : Pass) (releases : Releases) : List Write :=
  match pass.catalog with
  | none => []
  | some catalog =>
    let requested := wantedAddons pass.addons catalog
    if requested = [] then []
    else
      let rendered := render tenant ns catalog requested
      (retired tenant rendered releases).map .delete ++ rendered.map .ensure

/-- How far it gets. -/
def Pass.written (pass : Pass) (releases : Releases) : List Write :=
  let writes := pass.writes tenant ns releases
  match pass.failure with
  | none => writes
  | some (call, carriedOut) => writes.take (if carriedOut then call + 1 else call)

def reconcileAddons (releases : Releases) (pass : Pass) : Releases :=
  (pass.written tenant ns releases).foldl Write.apply releases

/-- The names on the list of namespaces. -/
def namesIn (spec : Fields) : List String :=
  match nestedSlice spec ["values", "namespaces"] with
  | .ok (some items) => items.filterMap named
  | _ => []

/-- The names that the namespaces release of a tenant lists, if it is there. -/
def listed (tenant : String) (releases : Releases) : List String :=
  ((releases.lookup (tenant ++ "-" ++ "namespaces")).map
    fun release => namesIn release.spec).getD []

/-- The pass wants the namespaces, or wants nothing, or the release is not one that it retires. -/
def Spares (tenant : String) (releases : Releases) (pass : Pass) : Prop :=
  ∀ catalog, pass.catalog = some catalog → wantedAddons pass.addons catalog ≠ [] →
    (∃ component ∈ catalog.components, component.id = "namespaces") ∧
        ("namespaces" ∈ pass.addons.map Request.id ∨
          ∃ component ∈ catalog.components, component.required = true ∧
            "namespaces" = component.id) ∨
      ∀ release, releases.lookup (tenant ++ "-" ++ "namespaces") = some release →
        release.isOurs tenant = false

section Fields

variable {fields live want : Fields} {items : List Json} {name : String}

theorem nestedSlice_eq_some_iff : nestedSlice fields ["values", "namespaces"] = .ok (some items) ↔
    ∃ values, fields.lookup "values" = some (.obj values) ∧
      values.lookup "namespaces" = some (.arr items) := by
  rw [nestedSlice]
  constructor
  · intro h
    cases houter : fields.lookup "values" with
    | none =>
      simp only [nestedField, houter] at h
      nomatch h
    | some value =>
      cases value with
      | obj values =>
        refine ⟨values, rfl, ?_⟩
        cases hinner : values.lookup "namespaces" with
        | none =>
          simp only [nestedField, houter, hinner] at h
          nomatch h
        | some value =>
          simp only [nestedField, houter, hinner] at h
          cases value with
          | arr found =>
            obtain rfl : found = items := by
              injection h with h
              exact Option.some.inj h
            rfl
          | _ => nomatch h
      | _ =>
        simp only [nestedField, houter] at h
        nomatch h
  · rintro ⟨values, houter, hinner⟩
    simp only [nestedField, houter, hinner]
    rfl

theorem mem_namesIn : name ∈ namesIn fields ↔ ∃ values items,
    fields.lookup "values" = some (.obj values) ∧
      values.lookup "namespaces" = some (.arr items) ∧ name ∈ items.filterMap named := by
  rw [namesIn]
  constructor
  · intro h
    split at h
    · next items hitems =>
      obtain ⟨values, houter, hinner⟩ := nestedSlice_eq_some_iff.mp hitems
      exact ⟨values, items, houter, hinner, h⟩
    · contradiction
  · rintro ⟨values, items, houter, hinner, hname⟩
    rw [nestedSlice_eq_some_iff.mpr ⟨values, houter, hinner⟩]
    exact hname

theorem lay_arr (live : Json) (items : List Json) : lay live (.arr items) = .arr items := by
  cases live <;> rfl

theorem lookup_mergeSpec (h : (want.map Prod.fst).Nodup) (key : String) :
    (mergeSpec live want).lookup key =
      match want.lookup key with
      | none => live.lookup key
      | some value => some (lay ((live.lookup key).getD .null) value) := by
  induction want generalizing live with
  | nil => rfl
  | cons field want ih =>
    obtain ⟨other, value⟩ := field
    rw [map_cons, nodup_cons] at h
    rw [mergeSpec, ih h.2, lookup_cons, Json.lookup_setField]
    by_cases hsame : key = other
    · subst hsame
      have hnone : want.lookup key = none := by
        rw [lookup_eq_none_iff]
        intro field hfield
        rw [bne_iff_ne]
        intro hkey
        have hmem := mem_map_of_mem (f := Prod.fst) hfield
        rw [← hkey] at hmem
        exact h.1 hmem
      rw [hnone, if_pos rfl, beq_self_eq_true]
    · rw [if_neg hsame, beq_false_of_ne hsame]

theorem mem_names_hold {entry : Json} : name ∈ (hold items entry).filterMap named ↔
    name ∈ items.filterMap named ∨ named entry = some name := by
  rw [hold]
  split
  · next hany =>
    obtain ⟨other, hother, hmem⟩ := (Option.any_eq_true _ _).mp hany
    refine ⟨.inl, fun h => h.elim id fun hname => ?_⟩
    obtain rfl : other = name := Option.mem_unique hother hname
    simpa using hmem
  · rw [filterMap_append, mem_append]
    simp

theorem mem_names_foldl_hold {before after : List Json} :
    name ∈ (before.foldl hold after).filterMap named ↔
      name ∈ after.filterMap named ∨ name ∈ before.filterMap named := by
  induction before generalizing after with
  | nil => simp
  | cons entry before ih =>
    rw [foldl_cons, ih, mem_names_hold, or_assoc, mem_filterMap, mem_filterMap,
      mem_filterMap, exists_mem_cons_iff]

theorem mem_namesIn_keepNamespaces {targets : List Json} (hkeys : (want.map Prod.fst).Nodup)
    (hwant : want.lookup "values" = some (.obj [("namespaces", .arr targets)]))
    (h : name ∈ namesIn live) : name ∈ namesIn (keepNamespaces live (mergeSpec live want)) := by
  obtain ⟨values, before, houter, hinner, hname⟩ := mem_namesIn.mp h
  have houter' : (mergeSpec live want).lookup "values" =
      some (.obj (mergeSpec values [("namespaces", .arr targets)])) := by
    rw [lookup_mergeSpec hkeys, hwant, houter]
    simp only [Option.getD_some, lay]
  have hinner' : (mergeSpec values [("namespaces", .arr targets)]).lookup "namespaces" =
      some (.arr targets) := by
    rw [lookup_mergeSpec (by simp), lookup_cons_self]
    simp only [lay_arr]
  have hbefore := nestedSlice_eq_some_iff.mpr ⟨values, houter, hinner⟩
  have hafter := nestedSlice_eq_some_iff.mpr ⟨_, houter', hinner'⟩
  rw [keepNamespaces, hbefore]
  simp only [hafter, setNestedSlice, houter', Option.getD_some]
  refine mem_namesIn.mpr ⟨_, _, by rw [Json.lookup_setField, if_pos rfl],
    by rw [Json.lookup_setField, if_pos rfl], ?_⟩
  exact mem_names_foldl_hold.mpr (.inr hname)

end Fields

section Calls

variable {tenant ns name : String} {releases : Releases}

/-- The call leaves the list of namespaces alone, or writes it. -/
def Write.Keeps (tenant : String) : Write → Prop
  | .delete name => name ≠ tenant ++ "-" ++ "namespaces"
  | .ensure release => release.name = tenant ++ "-" ++ "namespaces" →
      release.createsNamespaces = true ∧ (release.spec.map Prod.fst).Nodup ∧
        ∃ targets, release.spec.lookup "values" = some (.obj [("namespaces", .arr targets)])

theorem mem_listed : name ∈ listed tenant releases ↔ ∃ release,
    releases.lookup (tenant ++ "-" ++ "namespaces") = some release ∧
      name ∈ namesIn release.spec := by
  rw [listed]
  cases releases.lookup (tenant ++ "-" ++ "namespaces") <;> simp

theorem Write.Keeps.mem_listed_apply {write : Write} (hkeeps : write.Keeps tenant)
    (h : name ∈ listed tenant releases) : name ∈ listed tenant (write.apply releases) := by
  obtain ⟨live, hlive, hname⟩ := mem_listed.mp h
  cases write with
  | delete other =>
    refine mem_listed.mpr ⟨live, ?_, hname⟩
    rw [Write.apply, AList.lookup_erase_ne (Ne.symm hkeeps), hlive]
  | ensure release =>
    by_cases hsame : release.name = tenant ++ "-" ++ "namespaces"
    · obtain ⟨hcreates, hkeys, targets, hvalues⟩ := hkeeps hsame
      refine mem_listed.mpr ⟨ensured release (some live), ?_, ?_⟩
      · rw [Write.apply, hsame, AList.lookup_insert, hlive]
      · simp only [ensured, hcreates, if_true, Option.map_some, Option.getD_some]
        exact mem_namesIn_keepNamespaces hkeys hvalues hname
    · refine mem_listed.mpr ⟨live, ?_, hname⟩
      rw [Write.apply, AList.lookup_insert_ne (Ne.symm hsame), hlive]

theorem mem_listed_foldl_apply {writes : List Write} (hkeeps : ∀ write ∈ writes, write.Keeps tenant)
    (h : name ∈ listed tenant releases) :
    name ∈ listed tenant (writes.foldl Write.apply releases) := by
  induction writes generalizing releases with
  | nil => exact h
  | cons write writes ih =>
    rw [forall_mem_cons] at hkeeps
    exact ih hkeeps.2 (hkeeps.1.mem_listed_apply h)

theorem nodup_fields_releaseSpec (catalog : Catalog) (component : Component) (values : Fields)
    (waits : List Json) :
    ((releaseSpec tenant catalog component values waits).map Prod.fst).Nodup := by
  rw [releaseSpec]
  split <;> split <;> split <;>
    (simp only [map_append, map_cons, map_nil]; decide)

theorem lookup_releaseSpec_values (catalog : Catalog) (component : Component) {values : Fields}
    (hne : values ≠ []) (waits : List Json) :
    (releaseSpec tenant catalog component values waits).lookup "values" = some (.obj values) := by
  rw [releaseSpec, if_pos hne]
  split <;> rfl

/-- What is rendered writes the list of namespaces if it writes its release. -/
theorem keeps_ensure_of_mem_render {catalog : Catalog} {requested : List Request}
    {release : Release} (h : release ∈ render tenant ns catalog requested) :
    (Write.ensure release).Keeps tenant := by
  obtain ⟨request, -, component, -, rfl⟩ := mem_render.mp h
  intro hname
  have hid : component.id = "namespaces" := by
    simpa [releaseOf, String.append_right_inj] using hname
  refine ⟨by simpa [releaseOf] using hid, nodup_fields_releaseSpec _ _ _ _,
    targets catalog requested, ?_⟩
  simp only [releaseOf, if_pos hid]
  exact lookup_releaseSpec_values catalog component (cons_ne_nil _ _) _

theorem Spares.keeps {pass : Pass} (h : Spares tenant releases pass) (ns : String) :
    ∀ write ∈ pass.writes tenant ns releases, write.Keeps tenant := by
  intro write hwrite
  rw [Pass.writes] at hwrite
  split at hwrite
  · contradiction
  · next catalog hcatalog =>
    simp only at hwrite
    split at hwrite
    · contradiction
    · next hne =>
      obtain hdelete | hensure := mem_append.mp hwrite
      · obtain ⟨other, hother, rfl⟩ := mem_map.mp hdelete
        obtain ⟨-, hretired⟩ := mem_filter.mp hother
        simp only [Bool.and_eq_true, decide_eq_true_eq] at hretired
        rintro rfl
        obtain ⟨⟨component, hmem, hid⟩, hwanted⟩ | hspared := h catalog hcatalog hne
        · refine hretired.2 (mem_names_render.mpr
            ⟨"namespaces", mem_wantedAddons.mpr hwanted, ?_, rfl⟩)
          rw [Catalog.find, List.find?_isSome]
          exact ⟨component, hmem, by simpa using hid⟩
        · obtain ⟨release, hrelease, hours⟩ := (Option.any_eq_true _ _).mp hretired.1
          rw [hspared release hrelease] at hours
          contradiction
      · obtain ⟨release, hrelease, rfl⟩ := mem_map.mp hensure
        exact keeps_ensure_of_mem_render hrelease

theorem Spares.mem_listed {pass : Pass} (h : Spares tenant releases pass)
    (hname : name ∈ listed tenant releases) :
    name ∈ listed tenant (reconcileAddons tenant ns releases pass) := by
  refine mem_listed_foldl_apply (fun write hwrite => h.keeps ns write ?_) hname
  rw [Pass.written] at hwrite
  split at hwrite
  · exact hwrite
  · exact mem_of_mem_take hwrite

/-- A name that has appeared on the list stays on it, whatever passes come, whether or not they
succeed, as long as each spares the release. -/
theorem namespaces_kept {s t : Releases}
    (hrun : Machine.Run (fun releases pass => some (reconcileAddons tenant ns releases pass))
      (Spares tenant) s t) (hname : name ∈ listed tenant s) : name ∈ listed tenant t := by
  have hstep {t u : Releases} {pass : Pass} (ht : name ∈ listed tenant t)
      (hspares : Spares tenant t pass) (hnext : some (reconcileAddons tenant ns t pass) = some u) :
      name ∈ listed tenant u := by
    obtain rfl := Option.some.inj hnext
    exact hspares.mem_listed ht
  exact hrun.invariant (P := fun releases => name ∈ listed tenant releases) hname hstep

end Calls

/-- A catalogue that requires a network and offers two more addons. -/
def offered : Catalog where
  gitRepositoryRef := []
  basePath := "base"
  components := [⟨"namespaces", "system", false, "namespaces", "", [], []⟩,
    ⟨"calico", "networking", true, "calico", "tigera-operator", [], []⟩,
    ⟨"alloy", "monitoring", false, "alloy", "alloy", [], []⟩]

/-- The tenant asks for the namespaces and the collector. -/
def both : Pass := ⟨some offered, [⟨"namespaces", []⟩, ⟨"alloy", []⟩], none⟩

/-- It asks for the collector only. -/
def collector : Pass := ⟨some offered, [⟨"alloy", []⟩], none⟩

/-- The tenant no longer asks for the namespaces, and they go. -/
theorem not_namespaces_kept : ¬∀ (tenant ns name : String) (before after : List Pass),
      name ∈ listed tenant (before.foldl (reconcileAddons tenant ns) ∅) →
        name ∈ listed tenant ((before ++ after).foldl (reconcileAddons tenant ns) ∅) := by
  intro h
  have hkept := h "t" "tenant-t" "alloy" [both] [collector] (by decide +kernel)
  revert hkept
  decide +kernel

/-- Without the collector but with the namespaces, its namespace stays on the list. -/
theorem namespaces_kept_both : "alloy" ∈ listed "t" ([both,
    ⟨some offered, [⟨"namespaces", []⟩], some (1, true)⟩].foldl
      (reconcileAddons "t" "tenant-t") ∅) := by
  have hspares (releases : Releases) :
      Spares "t" releases ⟨some offered, [⟨"namespaces", []⟩], some (1, true)⟩ := by
    intro catalog hcatalog _
    obtain rfl := Option.some.inj hcatalog
    exact .inl ⟨⟨_, mem_cons_self, rfl⟩, .inl (by decide)⟩
  have hrun : Machine.Run (fun releases pass => some (reconcileAddons "t" "tenant-t" releases pass))
      (Spares "t") ([both].foldl (reconcileAddons "t" "tenant-t") ∅) _ :=
    .step .refl (hspares _) rfl
  exact namespaces_kept hrun (by decide +kernel)

end Addons
