import KubevirtUi.Addons.Parity
import KubevirtUi.Library.Raising

/-!
# Whether an addon that is enabled later gets what it would have got at creation

An addon that is enabled later gets its release from a path of its own. It reads the list of
namespaces, writes the whole list back with one more, and then creates the release; what the
release waits for it finds out by itself.

The two paths choose what a release waits for, and what goes on the list of namespaces, each in
its own way. Where they choose the same, and nobody writes a list that is no longer the one that
was read, the releases at the end are those that creation would have written for all addons,
but for the order of the list.
-/

namespace Addons

open Interference List AList
open Option hiding mem_map

/-- The releases in the namespace of the tenant, by name. -/
structure Cluster where
  releases : AList fun _ : String => Body

/-- An `ApiException`, an `HTTPException`, or what Python raises. -/
inductive Failure where
  | api (status : Nat)
  | http (status : Nat) (detail : String)
  | raised (e : Raised)
  deriving DecidableEq

/-- What is asked. Storage is wired up outside of the tenant's releases. -/
inductive Query where
  | wireStorage
  | getRelease (name : String)
  | patchNamespaces (name : String) (namespaces : List Json)
  | createRelease (body : Body)

@[reducible] def Query.Result : Query → Type
  | .getRelease _ => Body
  | _ => Unit

abbrev Query.Response (q : Query) : Type := Except Failure q.Result

/-- `{"spec": {"values": {"namespaces": namespaces}}}` is merged into a release. -/
def Body.patch (body : Body) (namespaces : List Json) : Body :=
  { body with
    spec := Json.mergeFields body.spec [("values", .obj [("namespaces", .arr namespaces)])] }

/-- No call fails but for what it finds. -/
def serve {ι : Type} (_ : ι) (_ : Unit) (w : Cluster) : (q : Query) → q.Response × Cluster
  | .wireStorage => (.ok (), w)
  | .getRelease name =>
    match w.releases.lookup name with
    | none => (.error (.api 404), w)
    | some body => (.ok body, w)
  | .patchNamespaces name namespaces =>
    match w.releases.lookup name with
    | none => (.error (.api 404), w)
    | some body => (.ok (), ⟨w.releases.insert name (body.patch namespaces)⟩)
  | .createRelease body =>
    match w.releases.lookup body.name with
    | some _ => (.error (.api 409), w)
    | none => (.ok (), ⟨w.releases.insert body.name body⟩)

abbrev Call (α : Type) := ExceptT Failure (Program Query Query.Response) α

def ask (q : Query) : Call q.Result := ExceptT.mk (Program.ask q)

/-- What may raise. -/
def orRaise {α : Type} : Except Raised α → Call α
  | .ok a => pure a
  | .error e => throw (.raised e)

/-- `except ApiException` -/
def exceptApi {α : Type} (body : Call α) (handler : Nat → Call α) : Call α :=
  tryCatch body fun e => match e with
    | .api status => handler status
    | e => throw e

/-- `ns_hr.get("spec", {}).get("values", {}).get("namespaces", [])`, which is gone through and
appended to. -/
def existingNamespaces (release : Body) : Except Raised (List Json) := do
  let values ← getOr (.obj release.spec) "values" (.obj [])
  match ← getOr values "namespaces" (.arr []) with
  | .arr items => .ok items
  | .obj [] => .error .attributeError
  | .str s => if s = "" then .error .attributeError else .error .typeError
  | _ => .error .typeError

/-- `n["name"]` -/
def nameOf : Json → Except Raised Json
  | .obj fields =>
    match fields.lookup "name" with
    | some name => .ok name
    | none => .error .keyError
  | _ => .error .typeError

def namespacesName (tenant : String) : String := tenant ++ "-namespaces"

/-- Another name for the namespace of an addon that is not of the core. -/
def targetNs (tenant : String) (component : Component) : String :=
  if component.category ≠ "core" then tenant ++ "-" ++ component.ns else component.ns

def namespaceEntry (name : String) : Json := .obj [("name", .str name)]

/-- The namespace goes into the list, unless it is there. -/
def addNamespace (tenant target : String) (existing names : List Json) : Call Unit :=
  if .str target ∈ names then pure ()
  else ask (.patchNamespaces (namespacesName tenant) (existing ++ [namespaceEntry target]))

/-- Without a list there is nothing to do. -/
def listNamespace (tenant : String) (component : Component) : Call Unit :=
  if component.ns = "" then pure ()
  else
    exceptApi
      (do
        let release ← ask (.getRelease (namespacesName tenant))
        let existing ← orRaise (existingNamespaces release)
        let names ← orRaise (existing.mapM nameOf)
        addNamespace tenant (targetNs tenant component) existing names)
      fun _ => pure ()

/-- The id of the first network that is required, "" where there is none. -/
def firstNetwork (catalog : Catalog) : String :=
  ((catalog.components.find? Component.isNetwork).map Component.id).getD ""

/-- Everything waits for the network. -/
def enableDependsOn (tenant : String) (catalog : Catalog) (addonId : String) : List String :=
  if firstNetwork catalog ≠ "" ∧ addonId ≠ firstNetwork catalog then
    [tenant ++ "-" ++ firstNetwork catalog]
  else []

def wireStorage (addonId : String) : Call Unit :=
  if addonId = "kubevirt-csi-driver" then ask .wireStorage else pure ()

def enableAddon (tenant : String) (catalog : Catalog) (addon : Request) : Call Unit :=
  match catalog.find addon.id with
  | none => throw (.http 404 ("Addon '" ++ addon.id ++ "' not in catalog"))
  | some component => do
    wireStorage addon.id
    exceptApi
      (do
        listNamespace tenant component
        let helmValues ← orRaise
          (buildHelmValues tenant component (userParams component addon.parameters))
        ask (.createRelease (buildFluxHelmreleaseCr tenant addon.id component catalog helmValues
          (enableDependsOn tenant catalog addon.id))))
      fun status =>
        if status = 409 then throw (.http 409 ("Addon '" ++ addon.id ++ "' already enabled"))
        else throw (.http status "")

/-- The releases of a tenant that has just been created. -/
def deployed (bodies : List Body) : Cluster :=
  ⟨bodies.foldl (fun releases body => releases.insert body.name body) ∅⟩

/-- Any number of calls for further addons, none of which has asked for anything yet. -/
def start (tenant : String) (catalog : Catalog) (bodies : List Body) (later : List Request) :
    Crowd Cluster Query Query.Response (Fin later.length) (Except Failure Unit) :=
  ⟨deployed bodies, fun i => (enableAddon tenant catalog (later.get i)).run⟩

variable {tenant : String} {catalog : Catalog} {created later requested : List Request}
  {addon : Request} {component : Component} {bodies all : List Body} {base body live : Body}
  {names : List String} {items : List Json}

/-- The release is this one, with these entries on its list. -/
structure Lists (base live : Body) (items : List Json) : Prop where
  name : live.name = base.name
  ns : live.ns = base.ns
  labels : live.labels = base.labels
  rest : ∀ key, key ≠ "values" → live.spec.lookup key = base.spec.lookup key
  values : live.spec.lookup "values" = some (.obj [("namespaces", .arr items)])

theorem lookup_patch (body : Body) (items : List Json) (key : String) :
    (body.patch items).spec.lookup key =
      if key = "values" then
        some (.obj (Json.setField "namespaces" (.arr items)
          ((body.spec.lookup "values").getD .null).fieldsOf))
      else body.spec.lookup key := by
  simp only [Body.patch, Json.mergeFields, Json.mergePatch, Json.lookup_setField]

theorem Lists.patch (h : Lists base live items) (items' : List Json) :
    Lists base (live.patch items') items' where
  name := h.name
  ns := h.ns
  labels := h.labels
  rest := by
    intro key hkey
    rw [lookup_patch, if_neg hkey]
    exact h.rest key hkey
  values := by
    rw [lookup_patch, if_pos rfl, h.values]
    rfl

theorem Lists.existingNamespaces (h : Lists base live items) :
    existingNamespaces live = .ok items := by
  rw [Addons.existingNamespaces, getOr_obj, h.values]
  rfl

theorem Lists.same {live' : Body} (h : Lists base live items) (h' : Lists base live' items) :
    Same live live' where
  name := h.name.trans h'.name.symm
  ns := h.ns.trans h'.ns.symm
  labels := h.labels.trans h'.labels.symm
  spec := by
    rw [Json.alike_obj_iff]
    intro key
    by_cases hkey : key = "values"
    · subst hkey
      rw [h.values, h'.values]
      exact .refl _
    · rw [h.rest key hkey, h'.rest key hkey]
      exact .refl _

/-- The release of the namespaces, with these entries. -/
def listBody (tenant : String) (catalog : Catalog) (component : Component) (items : List Json) :
    Body :=
  releaseBody tenant catalog component [("namespaces", .arr items)]

theorem lists_listBody (items items' : List Json) :
    Lists (listBody tenant catalog component items) (listBody tenant catalog component items')
      items' where
  name := rfl
  ns := rfl
  labels := rfl
  rest := by
    intro key hkey
    simp only [listBody, releaseBody]
    generalize (if dependsOn catalog component = "" then ([] : List Json) else _) = waits
    obtain ⟨front, back, -, -, hspec⟩ := exists_releaseSpec_split tenant catalog component waits
    rw [hspec, hspec]
    simp only [lookup_append_if, hkey, and_false, if_false]
  values := lookup_releaseSpec_values catalog component (cons_ne_nil _ _) _

theorem namespaceEntry_inj {a b : String} : namespaceEntry a = namespaceEntry b ↔ a = b := by
  simp [namespaceEntry]

theorem mapM_nameOf (names : List String) :
    (names.map namespaceEntry).mapM nameOf = .ok (names.map Json.str) :=
  mapM_eq_ok_iff.mpr (by
    induction names with
    | nil => exact .nil
    | cons name names ih => exact .cons rfl ih)

/-- The namespaces that the addons are installed into, by name. -/
def targetNames (catalog : Catalog) (requested : List Request) : List String :=
  (offeredAddons catalog requested).filterMap fun (_, component) =>
    if component.ns ≠ "" then some component.ns else none

theorem targets_eq : targets catalog requested =
    (targetNames catalog requested).map namespaceEntry := by
  simp only [targets, targetNames, offeredAddons, filterMap_filterMap, map_filterMap]
  congr 1
  funext addon
  cases catalog.find addon.id with
  | none => rfl
  | some component =>
    by_cases hns : component.ns = ""
    · simp [hns]
    · simp [hns, namespaceEntry]

variable {name target : String} {release : Body} {n : Nat}

theorem mem_targetNames : name ∈ targetNames catalog requested ↔
    ∃ addon ∈ requested, ∃ component, catalog.find addon.id = some component ∧
      component.ns ≠ "" ∧ component.ns = name := by
  simp only [targetNames, mem_filterMap, Prod.exists, mem_offeredAddons,
    ite_none_right_eq_some, some.injEq]
  constructor
  · rintro ⟨addon, component, ⟨hmem, hfind⟩, hns, hname⟩
    exact ⟨addon, hmem, component, hfind, hns, hname⟩
  · rintro ⟨addon, hmem, component, hfind, hns, hname⟩
    exact ⟨addon, component, ⟨hmem, hfind⟩, hns, hname⟩

/-- A release is as creation would have written it, but for the order of the list of namespaces. -/
def AsWritten (tenant : String) (live body : Body) : Prop :=
  if body.name = namespacesName tenant then
    ∃ items items', existingNamespaces body = .ok items ∧
      (∀ entry, entry ∈ items' ↔ entry ∈ items) ∧ Same live (body.patch items')
  else live = body

/-- The releases that are there are these. -/
structure AsCreated (tenant : String) (all : List Body) (w : Cluster) : Prop where
  complete : ∀ body ∈ all, ∃ live, w.releases.lookup body.name = some live ∧
    AsWritten tenant live body
  sound : ∀ name live, w.releases.lookup name = some live → ∃ body ∈ all, body.name = name

/-- The required network is the one that a later addon waits for, or has nothing to wait for;
and the namespace of the addon is listed under its own name, or there is no list. -/
structure Smooth (tenant : String) (catalog : Catalog) (bodies : List Body)
    (component : Component) : Prop where
  kept : component.id ≠ "namespaces"
  network : component.isNetwork = true → namespacesID catalog =
    if component.id = firstNetwork catalog then "" else firstNetwork catalog
  others : component.isNetwork = false → cniID catalog =
    if component.id = firstNetwork catalog then "" else firstNetwork catalog
  target : component.ns = "" ∨ component.category = "core" ∨
    namespacesName tenant ∉ bodies.map Body.name

/-- A list that is written is the one that is there, with one more entry. -/
def UpToDate (w : Cluster) : Option Query → Prop
  | some (.patchNamespaces name namespaces) =>
    ∀ live ∈ w.releases.lookup name, existingNamespaces live = .ok namespaces.dropLast
  | _ => True

instance (w : Cluster) : DecidablePred (UpToDate w)
  | some (.patchNamespaces name namespaces) =>
    inferInstanceAs (Decidable (∀ live ∈ w.releases.lookup name,
      existingNamespaces live = .ok namespaces.dropLast))
  | some .wireStorage | some (.getRelease _) | some (.createRelease _) | none => .isTrue trivial

/-- Nobody writes a list that is out of date. -/
def Current {ι : Type} (s : Crowd Cluster Query Query.Response ι (Except Failure Unit)) :
    Turn Empty Unit ι → Prop
  | .act _ => True
  | .call i _ => UpToDate s.world (s.rest i).request?

instance {ι : Type} (s : Crowd Cluster Query Query.Response ι (Except Failure Unit)) :
    DecidablePred (Current s)
  | .act _ => .isTrue trivial
  | .call i _ => inferInstanceAs (Decidable (UpToDate s.world (s.rest i).request?))

theorem createAddonResources_eq_ok_iff :
    createAddonResources tenant requested catalog = .ok bodies ↔
    List.Forall₂ (fun x y => buildAddon tenant catalog requested x.1 x.2 = .ok y)
      (offeredAddons catalog requested) bodies := mapM_eq_ok_iff

theorem exists_of_mem_created (h : createAddonResources tenant requested catalog = .ok bodies)
    (hbody : body ∈ bodies) : ∃ addon ∈ requested, ∃ component,
      catalog.find addon.id = some component ∧ component.id = addon.id ∧ ∃ values,
        buildHelmValues tenant component (userParams component addon.parameters) = .ok values ∧
          body = releaseBody tenant catalog component
            (finalValues catalog requested component values) := by
  obtain ⟨⟨addon, component⟩, hmem, hbuild⟩ :=
    exists_mem_left (createAddonResources_eq_ok_iff.mp h) hbody
  obtain ⟨haddon, hfind⟩ := mem_offeredAddons.mp hmem
  obtain ⟨-, hid⟩ := of_find hfind
  rw [buildAddon_eq hid] at hbuild
  cases hvalues : buildHelmValues tenant component (userParams component addon.parameters) with
  | error e => simp [hvalues, Except.map] at hbuild
  | ok values =>
    rw [hvalues] at hbuild
    exact ⟨addon, haddon, component, hfind, hid, values, hvalues, (Except.ok.inj hbuild).symm⟩

theorem exists_created (h : createAddonResources tenant requested catalog = .ok bodies)
    (haddon : addon ∈ requested) (hfind : catalog.find addon.id = some component) : ∃ values,
      buildHelmValues tenant component (userParams component addon.parameters) = .ok values ∧
        releaseBody tenant catalog component (finalValues catalog requested component values) ∈
          bodies := by
  obtain ⟨body, hbody, hbuild⟩ := exists_mem_right (createAddonResources_eq_ok_iff.mp h)
    (mem_offeredAddons.mpr ⟨haddon, hfind⟩)
  rw [buildAddon_eq (of_find hfind).2] at hbuild
  cases hvalues : buildHelmValues tenant component (userParams component addon.parameters) with
  | error e => simp [hvalues, Except.map] at hbuild
  | ok values =>
    rw [hvalues] at hbuild
    obtain rfl := Except.ok.inj hbuild
    exact ⟨values, rfl, hbody⟩

theorem Smooth.waits (h : Smooth tenant catalog bodies component) :
    enableDependsOn tenant catalog component.id =
      if dependsOn catalog component = "" then []
      else [tenant ++ "-" ++ dependsOn catalog component] := by
  have hfirst : dependsOn catalog component =
      if component.id = firstNetwork catalog then "" else firstNetwork catalog := by
    rw [dependsOn, if_neg h.kept]
    cases hnetwork : component.isNetwork with
    | true =>
      rw [if_pos rfl]
      exact h.network hnetwork
    | false =>
      rw [if_neg Bool.false_ne_true]
      exact h.others hnetwork
  rw [hfirst, enableDependsOn]
  by_cases hself : component.id = firstNetwork catalog
  · simp [hself]
  · by_cases hnone : firstNetwork catalog = ""
    · simp [hnone]
    · simp [hself, hnone]

/-- What is on the list can be read. -/
def Readable (tenant : String) (w : Cluster) : Prop :=
  ∀ live, w.releases.lookup (namespacesName tenant) = some live →
    ∃ names : List String, existingNamespaces live = .ok (names.map namespaceEntry)

/-- The namespace is on the list, if there is one. -/
def Listed (tenant target : String) (w : Cluster) : Prop :=
  ∀ live, w.releases.lookup (namespacesName tenant) = some live →
    ∃ names : List String, existingNamespaces live = .ok (names.map namespaceEntry) ∧
      target ∈ names

/-- Nothing that is there goes, and no list appears where there is none. -/
structure Grows (tenant : String) (w v : Cluster) : Prop where
  present : ∀ name, (w.releases.lookup name).isSome = true → (v.releases.lookup name).isSome = true
  absent : w.releases.lookup (namespacesName tenant) = none →
    v.releases.lookup (namespacesName tenant) = none
  readable : Readable tenant w → Readable tenant v
  listed : ∀ target, Listed tenant target w → Listed tenant target v

theorem Grows.refl (tenant : String) (w : Cluster) : Grows tenant w w :=
  ⟨fun _ h => h, id, id, fun _ => id⟩

/-- What a call asks for is an entry for an addon, or the release of one. -/
def Promised (tenant : String) (catalog : Catalog) (requested : List Request) (all : List Body) :
    Query → Prop
  | .patchNamespaces name namespaces => name = namespacesName tenant ∧
      ∃ names : List String, ∃ target ∈ targetNames catalog requested,
        namespaces = names.map namespaceEntry ++ [namespaceEntry target]
  | .createRelease body => body ∈ all ∧ body.name ≠ namespacesName tenant
  | _ => True

/-- The releases are some of those that creation would have written, and the list holds some of
the entries, with all that was written at creation. -/
structure Kept (tenant : String) (catalog : Catalog) (created later : List Request)
    (bodies all : List Body) (w : Cluster) : Prop where
  others : ∀ name live, w.releases.lookup name = some live → name ≠ namespacesName tenant →
    live ∈ all ∧ live.name = name
  present : ∀ body ∈ bodies, (w.releases.lookup body.name).isSome = true
  absent : namespacesName tenant ∉ bodies.map Body.name →
    w.releases.lookup (namespacesName tenant) = none
  list : ∀ live, w.releases.lookup (namespacesName tenant) = some live →
    ∃ component, ∃ names : List String, catalog.find "namespaces" = some component ∧
      Lists (listBody tenant catalog component []) live (names.map namespaceEntry) ∧
        (∀ name ∈ targetNames catalog created, name ∈ names) ∧
          ∀ name ∈ names, name ∈ targetNames catalog (created ++ later)

section Step

variable {w : Cluster}

theorem lookup_insert_other (h : w.releases.lookup name = none) (other : String) {found : Body}
    (hfound : w.releases.lookup other = some found) :
    (w.releases.insert name release).lookup other = some found := by
  have hne : other ≠ name := by
    rintro rfl
    rw [h] at hfound
    contradiction
  rw [lookup_insert_ne hne, hfound]

theorem grows_insert (h : w.releases.lookup release.name = none)
    (hname : release.name ≠ namespacesName tenant) :
    Grows tenant w ⟨w.releases.insert release.name release⟩ := by
  have hsame : (w.releases.insert release.name release).lookup (namespacesName tenant) =
      w.releases.lookup (namespacesName tenant) := lookup_insert_ne hname.symm
  constructor
  · intro name hname
    obtain ⟨found, hfound⟩ := isSome_iff_exists.mp hname
    rw [lookup_insert_other h name hfound]
    rfl
  · intro hnone
    rw [hsame]
    exact hnone
  · intro hread live hlive
    rw [hsame] at hlive
    exact hread live hlive
  · intro target hlisted live hlive
    rw [hsame] at hlive
    exact hlisted live hlive

theorem grows_patch (hlive : w.releases.lookup (namespacesName tenant) = some live)
    (hlists : Lists base live (names.map namespaceEntry)) :
    Grows tenant w ⟨w.releases.insert (namespacesName tenant)
      (live.patch ((names ++ [target]).map namespaceEntry))⟩ := by
  have hexisting := (hlists.patch ((names ++ [target]).map namespaceEntry)).existingNamespaces
  constructor
  · intro name hname
    by_cases hlist : name = namespacesName tenant
    · rw [hlist, lookup_insert]
      rfl
    · rw [lookup_insert_ne hlist]
      exact hname
  · intro hnone
    rw [hnone] at hlive
    contradiction
  · intro _ found hfound
    rw [lookup_insert] at hfound
    obtain rfl := some.inj hfound
    exact ⟨_, hexisting⟩
  · intro other hlisted found hfound
    rw [lookup_insert] at hfound
    obtain rfl := some.inj hfound
    refine ⟨_, hexisting, mem_append_left _ ?_⟩
    obtain ⟨names', hnames, hmem⟩ := hlisted live hlive
    rw [hlists.existingNamespaces] at hnames
    rwa [map_injective_iff.mpr (fun _ _ => namespaceEntry_inj.mp) (Except.ok.inj hnames)]

section

variable (hkept : Kept tenant catalog created later bodies all w)

include hkept

theorem Kept.insert (h : w.releases.lookup release.name = none) (hmem : release ∈ all)
    (hname : release.name ≠ namespacesName tenant) :
    Kept tenant catalog created later bodies all ⟨w.releases.insert release.name release⟩ := by
  have hsame : (w.releases.insert release.name release).lookup (namespacesName tenant) =
      w.releases.lookup (namespacesName tenant) := lookup_insert_ne hname.symm
  constructor
  · intro name live hlive hother
    by_cases hnew : name = release.name
    · subst hnew
      rw [lookup_insert] at hlive
      obtain rfl := some.inj hlive
      exact ⟨hmem, rfl⟩
    · rw [lookup_insert_ne hnew] at hlive
      exact hkept.others name live hlive hother
  · intro body hbody
    exact (grows_insert h hname).present body.name (hkept.present body hbody)
  · intro hno
    rw [hsame]
    exact hkept.absent hno
  · intro live hlive
    rw [hsame] at hlive
    exact hkept.list live hlive

theorem Kept.patch (hlive : w.releases.lookup (namespacesName tenant) = some live)
    (hfind : catalog.find "namespaces" = some component)
    (hlists : Lists (listBody tenant catalog component []) live (names.map namespaceEntry))
    (hcreated : ∀ name ∈ targetNames catalog created, name ∈ names)
    (hnames : ∀ name ∈ names, name ∈ targetNames catalog (created ++ later))
    (htarget : target ∈ targetNames catalog (created ++ later)) :
    Kept tenant catalog created later bodies all ⟨w.releases.insert (namespacesName tenant)
      (live.patch ((names ++ [target]).map namespaceEntry))⟩ := by
  constructor
  · intro name live' hlive' hother
    rw [lookup_insert_ne hother] at hlive'
    exact hkept.others name live' hlive' hother
  · intro body hbody
    exact (grows_patch hlive hlists).present body.name (hkept.present body hbody)
  · intro hno
    rw [hkept.absent hno] at hlive
    contradiction
  · intro live' hlive'
    rw [lookup_insert] at hlive'
    obtain rfl := some.inj hlive'
    refine ⟨component, names ++ [target], hfind, hlists.patch _, fun name hname =>
      mem_append_left _ (hcreated name hname), fun name hname => ?_⟩
    obtain hname | hname := mem_append.mp hname
    · exact hnames name hname
    · rw [mem_singleton.mp hname]
      exact htarget

/-- A list that has been read, with one more entry, is what is written over it. -/
theorem Kept.serve {ι : Type} {i : ι} {q : Query}
    (hpromised : Promised tenant catalog (created ++ later) all q)
    (hcurrent : ∀ name namespaces, q = .patchNamespaces name namespaces →
      ∀ live ∈ w.releases.lookup name, existingNamespaces live = .ok namespaces.dropLast) :
    Grows tenant w (serve i () w q).2 ∧
      Kept tenant catalog created later bodies all (serve i () w q).2 := by
  have hidle : Grows tenant w w ∧ Kept tenant catalog created later bodies all w :=
    ⟨.refl tenant w, hkept⟩
  cases q with
  | wireStorage => exact hidle
  | getRelease name =>
    simp only [Addons.serve]
    split <;> exact hidle
  | patchNamespaces name namespaces =>
    obtain ⟨rfl, written, target, htarget, rfl⟩ := hpromised
    cases hlive : w.releases.lookup (namespacesName tenant) with
    | none =>
      simp only [Addons.serve, hlive]
      exact hidle
    | some live =>
      simp only [Addons.serve, hlive]
      obtain ⟨component, names, hfind, hlists, hcreated, hnames⟩ := hkept.list live hlive
      -- what was read is the list that is there
      have hread := hcurrent _ _ rfl live hlive
      rw [hlists.existingNamespaces, dropLast_concat] at hread
      rw [← Except.ok.inj hread, ← map_singleton, ← map_append]
      exact ⟨grows_patch hlive hlists,
        hkept.patch hlive hfind hlists hcreated hnames htarget⟩
  | createRelease release =>
    cases hfree : w.releases.lookup release.name with
    | some found =>
      simp only [Addons.serve, hfree]
      exact hidle
    | none =>
      simp only [Addons.serve, hfree]
      exact ⟨grows_insert hfree hpromised.2, hkept.insert hfree hpromised.1 hpromised.2⟩

end

end Step

theorem namespacesName_eq_iff {id : String} :
    tenant ++ "-" ++ id = namespacesName tenant ↔ id = "namespaces" := by
  have hname : namespacesName tenant = tenant ++ "-" ++ "namespaces" := by
    rw [namespacesName, String.append_assoc]
    rfl
  rw [hname, String.append_right_inj]

/-- The list can be read, and there is none if none was written at creation. -/
def Known (tenant : String) (bodies : List Body) (w : Cluster) : Prop :=
  Readable tenant w ∧ (namespacesName tenant ∉ bodies.map Body.name →
    w.releases.lookup (namespacesName tenant) = none)

/-- The addon has its release, and its namespace is on the list. -/
def Ended (tenant : String) (catalog : Catalog) (addon : Request) (w : Cluster) : Prop :=
  ∀ component, catalog.find addon.id = some component →
    (w.releases.lookup (tenant ++ "-" ++ addon.id)).isSome = true ∧
      (component.ns = "" ∨ Listed tenant component.ns w)

section Call

variable {ι : Type} {i : ι} {w : Cluster}

abbrev Behaves {ι α : Type} (i : ι) (tenant : String) (catalog : Catalog) (requested : List Request)
    (all : List Body) (P : Cluster → Prop) (p : Call α) (Q : α → Cluster → Prop)
    (E : Failure → Cluster → Prop) : Prop :=
  Attempts (serve i) (fun _ => True) (Grows tenant)
    (fun _ q _ => Promised tenant catalog requested all q) P p Q E

theorem lasts_known : Lasts (fun _ => True) (Grows tenant) (Known tenant bodies) :=
  fun _ _ _ _ hgrows hw => ⟨hgrows.readable hw.1, fun hno => hgrows.absent (hw.2 hno)⟩

theorem lasts_listed (p : Prop) (target : String) :
    Lasts (fun _ => True) (Grows tenant) fun w => p ∨ Listed tenant target w :=
  fun _ _ _ _ hgrows hw => hw.imp_right (hgrows.listed target)

theorem lasts_absent : Lasts (fun _ => True) (Grows tenant)
    fun w => w.releases.lookup (namespacesName tenant) = none :=
  fun _ _ _ _ hgrows => hgrows.absent

theorem lasts_ended : Lasts (fun _ => True) (Grows tenant) (Ended tenant catalog addon) :=
  fun _ _ _ _ hgrows hw component hfind => (hw component hfind).imp (hgrows.present _)
    fun h => h.imp_right (hgrows.listed _)

theorem existingNamespaces_patch (body : Body) (items : List Json) :
    existingNamespaces (body.patch items) = .ok items := by
  simp only [existingNamespaces, getOr_obj, lookup_patch, if_true, getD_some]
  simp only [bind, Except.bind, getOr_obj, Json.lookup_setField, if_true, getD_some]

theorem listed_of_absent (h : w.releases.lookup (namespacesName tenant) = none) :
    Listed tenant target w := by
  intro live hlive
  rw [h] at hlive
  contradiction

theorem behaves_orRaise {α : Type} {x : Except Raised α} {a : α} {P : Cluster → Prop}
    {E : Failure → Cluster → Prop} (hx : x = .ok a) (hP : Lasts (fun _ => True) (Grows tenant) P) :
    Behaves i tenant catalog requested all P (orRaise x) (fun b w => b = a ∧ P w) E := by
  rw [hx]
  exact .pure hP fun w hw => ⟨rfl, hw⟩

theorem addNamespace_behaves (htarget : target ∈ targetNames catalog requested) :
    Behaves i tenant catalog requested all
      (fun w => Known tenant bodies w ∧ (target ∈ names → Listed tenant target w))
      (addNamespace tenant target (names.map namespaceEntry) (names.map Json.str))
      (fun _ w => Known tenant bodies w ∧ Listed tenant target w)
      fun e w => e = .api 404 ∧ Known tenant bodies w ∧
        w.releases.lookup (namespacesName tenant) = none := by
  have hP : Lasts (fun _ => True) (Grows tenant) fun w =>
      Known tenant bodies w ∧ (target ∈ names → Listed tenant target w) :=
    fun w v hw hv hgrows h => ⟨lasts_known w v hw hv hgrows h.1,
      fun hmem => hgrows.listed target (h.2 hmem)⟩
  have hQ : Lasts (fun _ => True) (Grows tenant) fun w =>
      Known tenant bodies w ∧ Listed tenant target w :=
    lasts_known.and fun _ _ _ _ hgrows => hgrows.listed target
  unfold addNamespace
  split
  · next hmem =>
    have hname : target ∈ names := by
      obtain ⟨name, hname, heq⟩ := mem_map.mp hmem
      rwa [← Json.str.inj heq]
    exact .pure hP fun w hw => ⟨hw.1, hw.2 hname⟩
  · refine .ask (fun _ _ _ _ => trivial) hP (fun _ => hQ)
      (fun e => (lasts_const _).and (lasts_known.and lasts_absent)) fun w _ _ hw => ?_
    refine ⟨⟨rfl, names, target, htarget, rfl⟩, ?_⟩
    cases hlive : w.releases.lookup (namespacesName tenant) with
    | none =>
      simp only [serve, hlive]
      exact ⟨rfl, hw.1, hlive⟩
    | some live =>
      simp only [serve, hlive]
      have hexisting := existingNamespaces_patch live ((names ++ [target]).map namespaceEntry)
      rw [map_append] at hexisting
      refine ⟨⟨fun found hfound => ?_, fun hno => ?_⟩, fun found hfound => ?_⟩
      · rw [lookup_insert] at hfound
        obtain rfl := some.inj hfound
        exact ⟨names ++ [target], by rw [map_append]; exact hexisting⟩
      · rw [hw.1.2 hno] at hlive
        contradiction
      · rw [lookup_insert] at hfound
        obtain rfl := some.inj hfound
        exact ⟨names ++ [target], by rw [map_append]; exact hexisting,
          mem_append_right _ (mem_singleton_self _)⟩

theorem listNamespace_behaves (hsmooth : Smooth tenant catalog bodies component)
    (htarget : component.ns ≠ "" → component.ns ∈ targetNames catalog requested) :
    Behaves i tenant catalog requested all (Known tenant bodies) (listNamespace tenant component)
      (fun _ w => Known tenant bodies w ∧ (component.ns = "" ∨ Listed tenant component.ns w))
      fun _ _ => False := by
  unfold listNamespace
  split
  · next hns => exact .pure lasts_known fun w hw => ⟨hw, .inl hns⟩
  · next hns =>
    have hread : Behaves i tenant catalog requested all (Known tenant bodies)
        (ask (.getRelease (namespacesName tenant)))
        (fun release w => ∃ names : List String,
          (existingNamespaces release = .ok (names.map namespaceEntry) ∧
            targetNs tenant component = component.ns) ∧
              Known tenant bodies w ∧ (component.ns ∈ names → Listed tenant component.ns w))
        fun e w => e = .api 404 ∧ Known tenant bodies w ∧
          w.releases.lookup (namespacesName tenant) = none := by
      refine .ask (fun _ _ _ _ => trivial) lasts_known (fun release w v hw hv hgrows h => ?_)
        (fun e => (lasts_const _).and (lasts_known.and lasts_absent)) fun w _ _ hw => ⟨trivial, ?_⟩
      · obtain ⟨names, hfact, hknown, hlisted⟩ := h
        exact ⟨names, hfact, lasts_known w v hw hv hgrows hknown,
          fun hmem => hgrows.listed _ (hlisted hmem)⟩
      · cases hlive : w.releases.lookup (namespacesName tenant) with
        | none =>
          simp only [serve, hlive]
          exact ⟨rfl, hw, hlive⟩
        | some live =>
          simp only [serve, hlive]
          obtain ⟨names, hnames⟩ := hw.1 live hlive
          have hcore : targetNs tenant component = component.ns := by
            obtain hnone | hcore | hno := hsmooth.target
            · exact absurd hnone hns
            · rw [targetNs, if_neg (not_not.mpr hcore)]
            · rw [hw.2 hno] at hlive
              contradiction
          refine ⟨names, ⟨hnames, hcore⟩, hw, fun hmem found hfound => ?_⟩
          obtain rfl := mem_unique hlive hfound
          exact ⟨names, hnames, hmem⟩
    have hE (e : Failure) : Lasts (fun _ => True) (Grows tenant) fun w =>
        e = .api 404 ∧ Known tenant bodies w ∧
          w.releases.lookup (namespacesName tenant) = none :=
      (lasts_const _).and (lasts_known.and lasts_absent)
    have hP (names : List String) : Lasts (fun _ => True) (Grows tenant) fun w =>
        Known tenant bodies w ∧ (component.ns ∈ names → Listed tenant component.ns w) :=
      fun w v hw hv hgrows h => ⟨lasts_known w v hw hv hgrows h.1,
        fun hmem => hgrows.listed _ (h.2 hmem)⟩
    refine .tryCatch (fun _ _ _ _ => trivial) (fun _ => lasts_known.and (lasts_listed _ _))
      (Attempts.bind (fun _ _ _ _ => trivial) hE hread fun release =>
        Attempts.of_exists fun names => Triple.of_fact fun hfact => ?_) fun e => ?_
    · refine Attempts.bind (fun _ _ _ _ => trivial) hE (behaves_orRaise hfact.1 (hP names))
        fun existing => Triple.of_fact fun hexisting => ?_
      subst hexisting
      refine Attempts.bind (fun _ _ _ _ => trivial) hE
        (behaves_orRaise (mapM_nameOf names) (hP names)) fun found =>
        Triple.of_fact fun hfound => ?_
      subst hfound
      rw [hfact.2]
      exact (addNamespace_behaves (htarget hns)).gives fun _ _ hw => ⟨hw.1, .inr hw.2⟩
    · refine Triple.of_fact fun he => ?_
      subst he
      exact Attempts.pure (lasts_known.and lasts_absent) fun w hw =>
        ⟨hw.1, .inr (listed_of_absent hw.2)⟩

theorem enableAddon_behaves
    (hall : createAddonResources tenant (created ++ later) catalog = .ok all)
    (haddon : addon ∈ later) (hsmooth : ∀ component, catalog.find addon.id = some component →
      Smooth tenant catalog bodies component) :
    Behaves i tenant catalog (created ++ later) all (Known tenant bodies)
      (enableAddon tenant catalog addon) (fun _ => Ended tenant catalog addon)
      fun _ => Ended tenant catalog addon := by
  cases hfind : catalog.find addon.id with
  | none =>
    simp only [enableAddon, hfind]
    refine .throw lasts_known fun w _ component hcomponent => ?_
    rw [hfind] at hcomponent
    contradiction
  | some component =>
    simp only [enableAddon, hfind]
    have hsmooth := hsmooth component hfind
    obtain ⟨-, hid⟩ := of_find hfind
    have hmem : addon ∈ created ++ later := mem_append_right _ haddon
    obtain ⟨values, hvalues, hbody⟩ := exists_created hall hmem hfind
    have hmade : buildFluxHelmreleaseCr tenant addon.id component catalog values
        (enableDependsOn tenant catalog addon.id) =
          releaseBody tenant catalog component values := by
      rw [← hid, hsmooth.waits, buildFluxHelmreleaseCr_eq]
    rw [finalValues, if_neg hsmooth.kept] at hbody
    have hname :
        (releaseBody tenant catalog component values).name = tenant ++ "-" ++ addon.id := by
      rw [← hid]
      rfl
    have hother : (releaseBody tenant catalog component values).name ≠ namespacesName tenant :=
      fun heq => hsmooth.kept (namespacesName_eq_iff.mp heq)
    have hwire : Behaves i tenant catalog (created ++ later) all (Known tenant bodies)
        (wireStorage addon.id) (fun _ => Known tenant bodies)
        fun _ => Ended tenant catalog addon := by
      unfold wireStorage
      split
      · exact .ask (fun _ _ _ _ => trivial) lasts_known (fun _ => lasts_known)
          (fun _ => lasts_ended) fun w _ _ hw => ⟨trivial, hw⟩
      · exact .pure lasts_known fun _ hw => hw
    have hlisted : Lasts (fun _ => True) (Grows tenant) fun w =>
        Known tenant bodies w ∧ (component.ns = "" ∨ Listed tenant component.ns w) :=
      lasts_known.and (lasts_listed _ _)
    refine .bind (fun _ _ _ _ => trivial) (fun _ => lasts_ended) hwire fun _ => ?_
    refine .tryCatch (E := fun _ => Ended tenant catalog addon)
      (fun _ _ _ _ => trivial) (fun _ => lasts_ended)
      (Attempts.bind (fun _ _ _ _ => trivial) (fun _ => lasts_ended)
        ((listNamespace_behaves hsmooth fun hns =>
          mem_targetNames.mpr ⟨addon, hmem, component, hfind, hns, rfl⟩).weaken
            (fun _ hw => hw) (fun _ _ hw => hw) fun _ _ hw => hw.elim)
        fun _ => Attempts.bind (fun _ _ _ _ => trivial) (fun _ => lasts_ended)
          (behaves_orRaise hvalues hlisted) fun made => Triple.of_fact fun hmade' => ?_)
      fun e => ?_
    · rw [hmade', hmade]
      refine Attempts.ask (fun _ _ _ _ => trivial) hlisted (fun _ => lasts_ended)
        (fun _ => lasts_ended) fun w _ _ hw => ⟨⟨hbody, ?_⟩, ?_⟩
      · exact hother
      · have hended (v : Cluster) (hpresent : (v.releases.lookup
            (tenant ++ "-" ++ addon.id)).isSome = true)
            (hlist : component.ns = "" ∨ Listed tenant component.ns v) :
            Ended tenant catalog addon v := by
          intro other hother
          obtain rfl := mem_unique hfind hother
          exact ⟨hpresent, hlist⟩
        cases hfree : w.releases.lookup (releaseBody tenant catalog component values).name with
        | some found =>
          simp only [serve, hfree]
          rw [hname] at hfree
          exact hended w (by rw [hfree]; rfl) hw.2
        | none =>
          simp only [serve, hfree]
          refine hended _ ?_ (hw.2.imp_right ((grows_insert hfree hother).listed _))
          rw [hname, lookup_insert]
          rfl
    · have hthrow (e : Failure) : Behaves i tenant catalog (created ++ later) all
          (Ended tenant catalog addon) (throw e : Call Unit)
          (fun _ => Ended tenant catalog addon) fun _ => Ended tenant catalog addon :=
        Attempts.throw lasts_ended fun _ hw => hw
      cases e with
      | api status =>
        simp only
        split
        · exact hthrow _
        · exact hthrow _
      | http status detail => exact hthrow _
      | raised e => exact hthrow _

end Call

section Start

theorem lookup_deployed (h : (deployed bodies).releases.lookup name = some live) :
    live ∈ bodies ∧ live.name = name := by
  suffices hfold : ∀ releases : AList fun _ : String => Body,
      (bodies.foldl (fun releases body => releases.insert body.name body) releases).lookup name =
        some live → (live ∈ bodies ∧ live.name = name) ∨ releases.lookup name = some live from
    (hfold ∅ h).resolve_right (by simp)
  clear h
  induction bodies with
  | nil => exact fun releases h => .inr h
  | cons body bodies ih =>
    intro releases h
    obtain ⟨hmem, hname⟩ | h := ih _ h
    · exact .inl ⟨mem_cons_of_mem body hmem, hname⟩
    · by_cases hname : name = body.name
      · subst hname
        rw [lookup_insert] at h
        obtain rfl := some.inj h
        exact .inl ⟨mem_cons_self, rfl⟩
      · rw [lookup_insert_ne hname] at h
        exact .inr h

theorem isSome_lookup_deployed (hbody : body ∈ bodies) :
    ((deployed bodies).releases.lookup body.name).isSome = true := by
  suffices hfold : ∀ releases : AList fun _ : String => Body,
      body ∈ bodies ∨ (releases.lookup body.name).isSome = true →
        ((bodies.foldl (fun releases body => releases.insert body.name body) releases).lookup
          body.name).isSome = true from
    hfold ∅ (.inl hbody)
  clear hbody
  induction bodies with
  | nil => exact fun releases h => h.resolve_left not_mem_nil
  | cons first bodies ih =>
    intro releases h
    refine ih _ ?_
    by_cases hname : body.name = first.name
    · rw [hname, lookup_insert]
      exact .inr rfl
    · rw [lookup_insert_ne hname]
      obtain hmem | hthere := h
      · obtain rfl | hmem := mem_cons.mp hmem
        · contradiction
        · exact .inl hmem
      · exact .inr hthere

theorem kept_deployed (hcreated : createAddonResources tenant created catalog = .ok bodies)
    (hall : createAddonResources tenant (created ++ later) catalog = .ok all) :
    Kept tenant catalog created later bodies all (deployed bodies) := by
  constructor
  · intro name live hlive hother
    obtain ⟨hmem, rfl⟩ := lookup_deployed hlive
    obtain ⟨addon, haddon, component, hfind, hid, values, hvalues, rfl⟩ :=
      exists_of_mem_created hcreated hmem
    have hne : component.id ≠ "namespaces" := fun heq => hother (namespacesName_eq_iff.mpr heq)
    obtain ⟨values', hvalues', hbody⟩ :=
      exists_created hall (mem_append_left later haddon) hfind
    rw [hvalues] at hvalues'
    obtain rfl := Except.ok.inj hvalues'
    rw [finalValues, if_neg hne] at hbody ⊢
    exact ⟨hbody, rfl⟩
  · exact fun body hbody => isSome_lookup_deployed hbody
  · intro hno
    rw [eq_none_iff_forall_not_mem]
    intro live hlive
    obtain ⟨hmem, hname⟩ := lookup_deployed hlive
    exact hno (mem_map.mpr ⟨live, hmem, hname⟩)
  · intro live hlive
    obtain ⟨hmem, hname⟩ := lookup_deployed hlive
    obtain ⟨addon, haddon, component, hfind, hid, values, hvalues, rfl⟩ :=
      exists_of_mem_created hcreated hmem
    have hlist : component.id = "namespaces" := namespacesName_eq_iff.mp hname
    rw [← hid, hlist] at hfind
    refine ⟨component, targetNames catalog created, hfind, ?_, fun _ h => h, fun name h => ?_⟩
    · rw [finalValues, if_pos hlist, targets_eq]
      exact lists_listBody [] _
    · obtain ⟨addon, haddon, rest⟩ := mem_targetNames.mp h
      exact mem_targetNames.mpr ⟨addon, mem_append_left later haddon, rest⟩

end Start

theorem asCreated_of_ended {w : Cluster} (hnames : (all.map Body.name).Nodup)
    (hall : createAddonResources tenant (created ++ later) catalog = .ok all)
    (hcreated : createAddonResources tenant created catalog = .ok bodies)
    (hkept : Kept tenant catalog created later bodies all w)
    (hended : ∀ addon ∈ later, Ended tenant catalog addon w) : AsCreated tenant all w := by
  have hpresent : ∀ body ∈ all, ∃ live, w.releases.lookup body.name = some live := by
    intro body hbody
    obtain ⟨addon, haddon, component, hfind, hid, values, hvalues, rfl⟩ :=
      exists_of_mem_created hall hbody
    refine isSome_iff_exists.mp ?_
    obtain haddon | haddon := mem_append.mp haddon
    · obtain ⟨values', -, hbody'⟩ := exists_created hcreated haddon hfind
      have hthere := hkept.present _ hbody'
      exact hthere
    · have hthere := (hended addon haddon component hfind).1
      rwa [← hid] at hthere
  constructor
  · intro body hbody
    obtain ⟨live, hlive⟩ := hpresent body hbody
    refine ⟨live, hlive, ?_⟩
    unfold AsWritten
    split
    · next hlist =>
      rw [hlist] at hlive
      obtain ⟨component, names, hfind, hlists, hsub, hsup⟩ := hkept.list live hlive
      obtain ⟨addon, haddon, found, hfound, hid, values, hvalues, rfl⟩ :=
        exists_of_mem_created hall hbody
      have hns : found.id = "namespaces" := namespacesName_eq_iff.mp hlist
      rw [← hid, hns, hfind] at hfound
      obtain rfl := some.inj hfound
      rw [finalValues, if_pos hns]
      have hbase : Lists (listBody tenant catalog component [])
          (releaseBody tenant catalog component
            [("namespaces", .arr (targets catalog (created ++ later)))])
          (targets catalog (created ++ later)) := lists_listBody [] _
      refine ⟨_, names.map namespaceEntry, hbase.existingNamespaces, fun entry => ?_,
        hlists.same (hbase.patch _)⟩
      rw [targets_eq, mem_map, mem_map]
      refine exists_congr fun name => and_congr_left fun _ => ⟨hsup name, fun hname => ?_⟩
      obtain ⟨request, hrequest, target, hoffered, hne, rfl⟩ := mem_targetNames.mp hname
      obtain hrequest | hrequest := mem_append.mp hrequest
      · exact hsub _ (mem_targetNames.mpr ⟨request, hrequest, target, hoffered, hne, rfl⟩)
      · obtain ⟨names', hnames', hmem⟩ :=
          ((hended request hrequest target hoffered).2.resolve_left hne) live hlive
        rw [hlists.existingNamespaces] at hnames'
        rwa [map_injective_iff.mpr (fun _ _ => namespaceEntry_inj.mp) (Except.ok.inj hnames')]
    · next hother =>
      obtain ⟨hmem, hname⟩ := hkept.others body.name live hlive hother
      exact inj_on_of_nodup_map hnames hmem hbody hname
  · intro name live hlive
    by_cases hlist : name = namespacesName tenant
    · have hwritten : namespacesName tenant ∈ bodies.map Body.name := by
        by_contra hno
        rw [hlist, hkept.absent hno] at hlive
        contradiction
      obtain ⟨body, hbody, hname⟩ := mem_map.mp hwritten
      obtain ⟨addon, haddon, component, hfind, -, values, -, rfl⟩ :=
        exists_of_mem_created hcreated hbody
      obtain ⟨values', -, hbody'⟩ :=
        exists_created hall (mem_append_left later haddon) hfind
      rw [hlist, ← hname]
      exact ⟨_, hbody', rfl⟩
    · obtain ⟨hmem, hname⟩ := hkept.others name live hlive hlist
      exact ⟨live, hmem, hname⟩

/-- Where what a later addon waits for is the same on both paths, its namespace goes on the list
under its own name, and nobody writes a list that is out of date, the releases at the end are
those that creation would have written for all addons. -/
theorem enables_as_created (tenant : String) (catalog : Catalog) (created later : List Request)
    {bodies all : List Body} {t : Crowd Cluster Query Query.Response (Fin later.length)
      (Except Failure Unit)} (hcreated : createAddonResources tenant created catalog = .ok bodies)
    (hall : createAddonResources tenant (created ++ later) catalog = .ok all)
    (hnames : (all.map Body.name).Nodup)
    (hsmooth : ∀ addon ∈ later, ∀ component, catalog.find addon.id = some component →
      Smooth tenant catalog bodies component)
    (hrun : Crowd.Run serve (fun (a : Empty) _ => nomatch a) Current
      (start tenant catalog bodies later) t)
    (hdone : ∀ i, ∃ x, t.rest i = .pure x) : AsCreated tenant all t.world := by
  have hkept := kept_deployed hcreated hall
  have hknown : Known tenant bodies (deployed bodies) := by
    refine ⟨fun live hlive => ?_, hkept.absent⟩
    obtain ⟨component, names, -, hlists, -⟩ := hkept.list live hlive
    exact ⟨names, hlists.existingNamespaces⟩
  have hlegal : Crowd.Legal (fun _ => True) (fun _ => Grows tenant)
      (fun _ _ q _ => Promised tenant catalog (created ++ later) all q)
      (fun (i : Fin later.length) _ => Ended tenant catalog (later.get i)) serve
      (start tenant catalog bodies later) := by
    refine ⟨trivial, fun i => ?_⟩
    refine (enableAddon_behaves (i := i) hall (later.get_mem i)
      (hsmooth _ (later.get_mem i))).conseq (fun _ _ hw => hw) (fun x w _ hx => ?_) _ trivial hknown
    cases x <;> exact hx
  obtain ⟨hlegal, hkept⟩ := Crowd.Run.invariant
    (P := Kept tenant catalog created later bodies all) (fun _ => Grows.refl tenant)
    (fun _ _ _ _ _ => trivial) (fun _ a => nomatch a)
    (fun s i _ q k hcond hrest _ hkept hpromised => by
      have hstep := hkept.serve (i := i) hpromised fun name namespaces hq => by
        subst hq
        rw [Current, hrest] at hcond
        exact hcond
      exact ⟨fun _ _ => hstep.1, hstep.2⟩) hlegal hkept hrun
  refine asCreated_of_ended hnames hall hcreated hkept fun addon haddon => ?_
  obtain ⟨i, rfl⟩ := get_of_mem haddon
  obtain ⟨x, hx⟩ := hdone i
  exact hlegal.returned hx

section Example

/-- The namespaces, the network that is required, and three more: one of them is of the core. -/
def platform : Catalog where
  gitRepositoryRef := []
  basePath := "base"
  components := [⟨"namespaces", "core", false, "namespaces", "", [], []⟩,
    ⟨"calico", "networking", true, "calico", "tigera-operator", [], []⟩,
    ⟨"metrics", "core", false, "metrics", "monitoring", [], []⟩,
    ⟨"dashboard", "observability", false, "dashboard", "", [], []⟩,
    ⟨"logging", "observability", false, "logging", "logging", [], []⟩]

def basics : List Request := [⟨"namespaces", []⟩, ⟨"calico", []⟩]

/-- What creation writes for these addons. -/
def writes (requested : List Request) : List Body :=
  (createAddonResources "t" requested platform).toOption.getD []

theorem writes_eq (h : (createAddonResources "t" requested platform).toOption.isSome = true) :
    createAddonResources "t" requested platform = .ok (writes requested) := by
  unfold writes
  cases hmade : createAddonResources "t" requested platform with
  | ok bodies => rfl
  | error e =>
    rw [hmade] at h
    contradiction

/-- All calls have returned, and the list of namespaces is this one. -/
def lists (namespaces : List String) {n : Nat}
    (t : Crowd Cluster Query Query.Response (Fin n) (Except Failure Unit)) : Bool :=
  (List.finRange n).all (fun i => (t.rest i).request?.isNone) &&
    (t.world.releases.lookup "t-namespaces").any fun live =>
      existingNamespaces live = .ok (namespaces.map namespaceEntry)

theorem done_of_lists {namespaces : List String}
    {t : Crowd Cluster Query Query.Response (Fin n) (Except Failure Unit)}
    (h : lists namespaces t = true) : (∀ i, ∃ x, t.rest i = .pure x) ∧
      ∃ live, t.world.releases.lookup "t-namespaces" = some live ∧
        existingNamespaces live = .ok (namespaces.map namespaceEntry) := by
  obtain ⟨hdone, hlist⟩ := Bool.and_eq_true_iff.mp h
  refine ⟨fun i => ?_, ?_⟩
  · have hnone := all_eq_true.mp hdone i (mem_finRange i)
    cases hrest : t.rest i with
    | pure x => exact ⟨x, rfl⟩
    | call q k =>
      rw [hrest] at hnone
      contradiction
  · obtain ⟨live, hlive, hnames⟩ := (any_eq_true _ _).mp hlist
    exact ⟨live, hlive, by simpa using hnames⟩

/-- Two addons that fit in are enabled at once: the one of them writes the list, and the other
has nothing to write there. -/
theorem enables_as_created_metrics :
    ∃ t : Crowd Cluster Query Query.Response (Fin 2) (Except Failure Unit),
      AsCreated "t" (writes (basics ++ [⟨"metrics", []⟩, ⟨"dashboard", []⟩])) t.world ∧
        lists ["tigera-operator", "monitoring"] t = true := by
  have hplay : (Crowd.playWhile serve (fun (a : Empty) _ => nomatch a) Current
      (start "t" platform (writes basics) [⟨"metrics", []⟩, ⟨"dashboard", []⟩])
      [.call 0 (), .call 1 (), .call 0 (), .call 0 ()]).any
        (lists ["tigera-operator", "monitoring"]) = true := by
    decide +kernel
  obtain ⟨t, hrun, ht⟩ := Crowd.exists_run_of_playWhile _ hplay
  refine ⟨t, enables_as_created "t" platform basics [⟨"metrics", []⟩, ⟨"dashboard", []⟩]
    (writes_eq (by decide +kernel)) (writes_eq (by decide +kernel)) (by decide +kernel) ?_ hrun
    (done_of_lists ht).1, ht⟩
  intro addon haddon component hfind
  obtain rfl | haddon := mem_cons.mp haddon
  · obtain rfl := some.inj hfind
    exact ⟨by decide, by decide, by decide, .inr (.inl rfl)⟩
  · obtain rfl := mem_singleton.mp haddon
    obtain rfl := some.inj hfind
    exact ⟨by decide, by decide, by decide, .inl rfl⟩

open Json (look) in
theorem AsWritten.exists_entry (h : AsWritten tenant live body)
    (hlist : body.name = namespacesName tenant)
    (hname : look [.field "values", .field "namespaces", .item n, .field "name"]
      (.obj live.spec) = some (.str name)) : ∃ items, existingNamespaces body = .ok items ∧
        ∃ entry ∈ items, look [.field "name"] entry = some (.str name) := by
  rw [AsWritten, if_pos hlist] at h
  obtain ⟨items, items', hitems, hmem, hsame⟩ := h
  have hpatched : look [.field "values", .field "namespaces", .item n, .field "name"]
      (.obj (body.patch items').spec) = items'[n]?.bind (look [.field "name"]) := by
    simp only [look, lookup_patch, if_true, bind_some, Json.lookup_setField]
  rw [hsame.spec, hpatched] at hname
  obtain ⟨entry, hentry, hlook⟩ := bind_eq_some_iff.mp hname
  exact ⟨items, hitems, entry, (hmem entry).mp (mem_of_getElem? hentry), hlook⟩

/-- The namespace of an addon that is not of the core is listed under a name that is not its own. -/
theorem not_enables_as_created : ¬ ∀ (tenant : String) (catalog : Catalog)
    (created later : List Request) (bodies all : List Body)
    (t : Crowd Cluster Query Query.Response (Fin later.length) (Except Failure Unit)),
      createAddonResources tenant created catalog = .ok bodies →
      createAddonResources tenant (created ++ later) catalog = .ok all →
      (all.map Body.name).Nodup →
      Crowd.Run serve (fun (a : Empty) _ => nomatch a) (fun _ _ => True)
        (start tenant catalog bodies later) t →
      (∀ i, ∃ x, t.rest i = .pure x) → AsCreated tenant all t.world := by
  intro h
  have hplay : (Crowd.playWhile serve (fun (a : Empty) _ => nomatch a) (fun _ _ => True)
      (start "t" platform (writes basics) [⟨"logging", []⟩])
      [.call 0 (), .call 0 (), .call 0 ()]).any (fun t =>
        lists ["tigera-operator", "t-logging"] t &&
        (t.world.releases.lookup "t-namespaces").any fun live =>
          Json.look [.field "values", .field "namespaces", .item 1, .field "name"]
            (.obj live.spec) = some (.str "t-logging")) = true := by
    decide +kernel
  obtain ⟨t, hrun, ht⟩ := Crowd.exists_run_of_playWhile _ hplay
  obtain ⟨hlists, hlook⟩ := Bool.and_eq_true_iff.mp ht
  have hall := h "t" platform basics [⟨"logging", []⟩] _ _ t (writes_eq (by decide +kernel))
    (writes_eq (by decide +kernel)) (by decide +kernel) hrun (done_of_lists hlists).1
  have hwritten : ∃ body ∈ writes (basics ++ [⟨"logging", []⟩]), body.name = "t-namespaces" ∧
      ∀ items, existingNamespaces body = .ok items → ∀ entry ∈ items,
        Json.look [.field "name"] entry ≠ some (.str "t-logging") := by
    have hentries : ∃ body ∈ writes (basics ++ [⟨"logging", []⟩]), body.name = "t-namespaces" ∧
        existingNamespaces body = .ok (["tigera-operator", "logging"].map namespaceEntry) := by
      decide +kernel
    obtain ⟨body, hbody, hname, hitems⟩ := hentries
    refine ⟨body, hbody, hname, fun items hread => ?_⟩
    obtain rfl := Except.ok.inj (hitems.symm.trans hread)
    decide +kernel
  obtain ⟨body, hbody, hname, hentries⟩ := hwritten
  obtain ⟨live, hlive, has⟩ := hall.complete body hbody
  obtain ⟨found, hfound, hat⟩ := (any_eq_true _ _).mp hlook
  rw [hname, hfound] at hlive
  obtain rfl := some.inj hlive
  obtain ⟨items, hitems, entry, hentry, hsays⟩ :=
    has.exists_entry (hname.trans (by decide +kernel)) (of_decide_eq_true hat)
  exact hentries items hitems entry hentry hsays

end Example

end Addons
