import KubevirtUi.Addons.Namespaces
import KubevirtUi.Addons.Values

/-!
# Whether both programs render the same releases

Names, labels, charts, namespaces and dependencies come out the same for every catalogue and
every list of addons. What can differ are the values of three components: of the namespaces
where none is named, of the collector, and of the storage driver.
-/

namespace Addons

open Go List Option
open Json (Alike AlikeIf)

variable {tenant ns key : String} {catalog : Catalog} {requested : List Request}
  {addon : Request} {component : Component} {values values' : Fields} {waits : List Json}

/-- What is written of a rendered release. The list of namespaces, to which nothing has been
appended, is null in JSON. -/
def marshal (catalog : Catalog) (requested : List Request) (release : Release) : Body where
  name := release.name
  ns := release.ns
  labels := release.labels
  spec :=
    if release.createsNamespaces ∧ targets catalog requested = [] then
      Json.setField "values" (.obj [("namespaces", .null)]) release.spec
    else release.spec

/-- Two releases are the same but for the order of fields. -/
structure Same (a b : Body) : Prop where
  name : a.name = b.name
  ns : a.ns = b.ns
  labels : a.labels = b.labels
  spec : Alike (.obj a.spec) (.obj b.spec)

structure SameSet (xs ys : List Body) : Prop where
  left : ∀ a ∈ xs, ∃ b ∈ ys, Same a b
  right : ∀ b ∈ ys, ∃ a ∈ xs, Same a b

section Params

variable {parameters : List (String × String)}

/-- The default of a parameter that is declared. -/
def Component.default? (component : Component) (key : String) : Option String :=
  ((component.parameters.filter fun p => p.id = key).getLast?).map Parameter.default

theorem lookup_foldl_insert (f : Parameter → String) (ps : List Parameter)
    (params : AList fun _ : String => String) :
    (ps.foldl (fun params p => params.insert p.id (f p)) params).lookup key =
      match (ps.filter fun p => p.id = key).getLast? with
      | some p => some (f p)
      | none => params.lookup key := by
  induction ps generalizing params with
  | nil => rfl
  | cons p ps ih =>
    rw [foldl_cons, ih]
    by_cases hp : p.id = key
    · rw [filter_cons_of_pos (by simpa using hp), List.getLast?_cons]
      cases (ps.filter fun p => p.id = key).getLast? with
      | some q => rfl
      | none =>
        rw [← hp]
        exact AList.lookup_insert _
    · rw [filter_cons_of_neg (by simpa using hp)]
      split
      · rfl
      · exact AList.lookup_insert_ne (Ne.symm hp)

theorem lookup_userParams : (userParams component parameters).lookup key =
    (component.default? key).map fun default => (parameters.lookup key).getD default := by
  rw [userParams, lookup_foldl_insert, Component.default?, Option.map_map]
  cases hlast : (component.parameters.filter fun p => p.id = key).getLast? with
  | none => rfl
  | some p =>
    have hp := (mem_filter.mp (mem_of_getLast? hlast)).2
    simp only [decide_eq_true_eq] at hp
    simp [hp]

/-- The operator reads what is asked for, unless it is empty, and else what is declared. -/
theorem lookup_params (hkeys : (parameters.map Prod.fst).Nodup) :
    ((params component parameters).lookup key).getD "" =
      if (parameters.lookup key).getD "" ≠ "" then (parameters.lookup key).getD ""
      else (component.default? key).getD "" := by
  have hasked (init : AList fun _ : String => String) : (parameters.foldl (fun params entry =>
        if entry.2 ≠ "" then params.insert entry.1 entry.2 else params) init).lookup key =
          if (parameters.lookup key).getD "" ≠ "" then parameters.lookup key
          else init.lookup key := by
    induction parameters generalizing init with
    | nil => rfl
    | cons entry parameters ih =>
      obtain ⟨other, value⟩ := entry
      rw [map_cons, nodup_cons] at hkeys
      rw [foldl_cons, ih hkeys.2]
      by_cases hother : other = key
      · subst hother
        have hnone : parameters.lookup other = none :=
          lookup_eq_none_iff.mpr fun e he => by
            have hne : other ≠ e.1 := fun heq =>
              hkeys.1 (mem_map.mpr ⟨e, he, heq.symm⟩)
            simpa using hne
        rw [hnone]
        by_cases hvalue : value = ""
        · simp [hvalue]
        · simp [hvalue]
      · have hlookup : ((other, value) :: parameters).lookup key = parameters.lookup key := by
          rw [lookup_cons, beq_false_of_ne (Ne.symm hother)]
        rw [hlookup]
        split
        · rfl
        · by_cases hvalue : value = ""
          · simp [hvalue]
          · simp [hvalue, AList.lookup_insert_ne (Ne.symm hother)]
  have hparams : params component parameters = parameters.foldl (fun params entry =>
      if entry.2 ≠ "" then params.insert entry.1 entry.2 else params)
        (component.parameters.foldl (fun params p => params.insert p.id p.default) ∅) := rfl
  rw [hparams, hasked, lookup_foldl_insert, Component.default?]
  cases (component.parameters.filter fun p => p.id = key).getLast? with
  | none => split <;> rfl
  | some p => split <;> rfl

/-- What the backend finds and is not empty, the operator finds as well. -/
theorem params_eq_userParams (hkeys : (parameters.map Prod.fst).Nodup)
    (hne : ((userParams component parameters).lookup key).getD "" ≠ "") :
    ((params component parameters).lookup key).getD "" =
      ((userParams component parameters).lookup key).getD "" := by
  rw [lookup_params hkeys]
  rw [lookup_userParams] at hne ⊢
  cases hdefault : component.default? key with
  | none => simp [hdefault] at hne
  | some default =>
    rw [hdefault, map_some, getD_some] at hne
    cases hasked : parameters.lookup key with
    | none => simp
    | some value =>
      rw [hasked, getD_some] at hne
      simp [hne]

end Params

theorem foldl_specialAddons (components : List Component) (found : Option String × Option String) :
    components.foldl (fun (ns, cni) component =>
      (if component.id = "namespaces" then some component.id else ns,
        if component.required ∧ component.category = "networking" then some component.id else cni))
      found = (if components.any (·.id = "namespaces") then some "namespaces" else found.1,
      ((components.filter Component.isNetwork).getLast?.map Component.id).or found.2) := by
  induction components generalizing found with
  | nil => rfl
  | cons component components ih =>
    rw [foldl_cons, ih]
    refine Prod.ext ?_ ?_
    · by_cases hid : component.id = "namespaces"
      · simp [hid]
      · simp [hid]
    · by_cases hnetwork : component.required ∧ component.category = "networking"
      · have his : component.isNetwork = true := by simpa [Component.isNetwork] using hnetwork
        rw [filter_cons_of_pos his, List.getLast?_cons]
        cases (components.filter Component.isNetwork).getLast? <;> simp [hnetwork]
      · have hnot : ¬ component.isNetwork = true := by simpa [Component.isNetwork] using hnetwork
        rw [filter_cons_of_neg hnot]
        simp [hnetwork]

theorem dependencies_eq : dependencies tenant catalog component =
    if dependsOn catalog component = "" then []
    else [tenant ++ "-" ++ dependsOn catalog component] := by
  have hspecial : specialAddons catalog =
      (if catalog.components.any (·.id = "namespaces") then some "namespaces" else none,
        (catalog.components.filter Component.isNetwork).getLast?.map Component.id) := by
    rw [specialAddons, foldl_specialAddons, or_none]
  simp only [dependencies, hspecial, dependsOn]
  by_cases hid : component.id = "namespaces"
  · simp [hid]
  · by_cases hnetwork : component.isNetwork = true
    · have hboth : component.category = "networking" ∧ component.required = true := by
        simpa [Component.isNetwork, and_comm] using hnetwork
      cases hany : catalog.components.any (·.id = "namespaces") with
      | true => simp [hid, hboth, hnetwork, namespacesID, hany]
      | false => simp [hid, hboth, hnetwork, namespacesID, hany]
    · have hnot : ¬ (component.category = "networking" ∧ component.required = true) := by
        simpa [Component.isNetwork, and_comm] using hnetwork
      simp only [hid, hnot, hnetwork, if_false, cniID]
      cases (catalog.components.filter Component.isNetwork).getLast? with
      | none => simp
      | some cni => simp

theorem lookup_append_if (xs ys : Fields) {p : Prop} [Decidable p] (x : Json) (name : String) :
    (xs ++ (if p then [(name, x)] else []) ++ ys).lookup key =
      (xs.lookup key).or ((if p ∧ key = name then some x else none).or (ys.lookup key)) := by
  rw [lookup_append, lookup_append, Option.or_assoc]
  by_cases hp : p
  · by_cases hkey : key = name
    · simp [hp, hkey]
    · simp [hp, hkey, lookup_cons, beq_false_of_ne hkey]
  · simp [hp]

theorem alikeIf_values_iff : AlikeIf (if values ≠ [] then some (.obj values) else none)
    (if values' ≠ [] then some (.obj values') else none) ↔ Alike (.obj values) (.obj values') := by
  have hempty {fields : Fields} (hne : fields ≠ []) : ¬ Alike (.obj fields) (.obj []) := by
    intro h
    cases fields with
    | nil => contradiction
    | cons field fields =>
      have hat := Json.alike_obj_iff.mp h field.1
      rw [lookup_cons, beq_self_eq_true] at hat
      exact Json.not_alikeIf_some_none hat
  by_cases hv : values = []
  · by_cases hv' : values' = []
    · subst hv hv'
      exact iff_of_true (.refl _) (.refl _)
    · subst hv
      simp only [ne_eq, not_true, hv', not_false_eq_true, if_false, if_true]
      exact iff_of_false Json.not_alikeIf_none_some fun h => hempty hv' h.symm
  · by_cases hv' : values' = []
    · subst hv'
      simp only [ne_eq, not_true, hv, not_false_eq_true, if_false, if_true]
      exact iff_of_false Json.not_alikeIf_some_none (hempty hv)
    · simp only [ne_eq, hv, hv', not_false_eq_true, if_true, Json.alikeIf_some]

theorem exists_releaseSpec_split (tenant : String) (catalog : Catalog) (component : Component)
    (waits : List Json) : ∃ front back : Fields,
      front.lookup "values" = none ∧ back.lookup "values" = none ∧
        ∀ values, releaseSpec tenant catalog component values waits =
          front ++ (if values ≠ [] then [("values", .obj values)] else []) ++ back := by
  refine ⟨_, _, ?_, ?_, fun values => rfl⟩
  · split <;> rfl
  · split <;> rfl

theorem alike_releaseSpec_iff : Alike (.obj (releaseSpec tenant catalog component values waits))
      (.obj (releaseSpec tenant catalog component values' waits)) ↔
        Alike (.obj values) (.obj values') := by
  obtain ⟨front, back, hfront, hback, hspec⟩ :=
    exists_releaseSpec_split tenant catalog component waits
  rw [hspec, hspec, Json.alike_obj_iff, ← alikeIf_values_iff]
  simp only [lookup_append_if]
  constructor
  · intro h
    have hat := h "values"
    rw [hfront, hback] at hat
    simpa using hat
  · intro h key
    by_cases hkey : key = "values"
    · subst hkey
      rw [hfront, hback]
      simpa using h
    · simp only [hkey, and_false, if_false]
      exact .refl _

/-- The release of a component with these values. -/
def releaseBody (tenant : String) (catalog : Catalog) (component : Component) (values : Fields) :
    Body where
  name := tenant ++ "-" ++ component.id
  ns := tenantNs tenant
  labels := [("kubevirt-ui.io/tenant", tenant), ("kubevirt-ui.io/addon", component.id)]
  spec := releaseSpec tenant catalog component values
    (if dependsOn catalog component = "" then []
      else [.obj [("name", .str (tenant ++ "-" ++ dependsOn catalog component)),
        ("namespace", .str (tenantNs tenant))]])

theorem same_releaseBody_iff : Same (releaseBody tenant catalog component values)
    (releaseBody tenant catalog component values') ↔ Alike (.obj values) (.obj values') :=
  ⟨fun h => alike_releaseSpec_iff.mp h.spec, fun h => ⟨rfl, rfl, rfl, alike_releaseSpec_iff.mpr h⟩⟩

/-- The values of an addon's release, where its helm values are these. -/
def finalValues (catalog : Catalog) (requested : List Request) (component : Component)
    (values : Fields) : Fields :=
  if component.id = "namespaces" then [("namespaces", .arr (targets catalog requested))]
  else values

theorem buildFluxHelmreleaseCr_eq (values : Fields) :
    buildFluxHelmreleaseCr tenant component.id component catalog values
      (if dependsOn catalog component = "" then []
        else [tenant ++ "-" ++ dependsOn catalog component]) =
      releaseBody tenant catalog component values := by
  by_cases hfirst : dependsOn catalog component = ""
  · simp only [releaseBody, hfirst, if_true]
    rfl
  · simp only [releaseBody, hfirst, if_false]
    rfl

theorem buildAddon_eq (haddon : component.id = addon.id) :
    buildAddon tenant catalog requested addon component =
      (buildHelmValues tenant component (userParams component addon.parameters)).map fun values =>
        releaseBody tenant catalog component (finalValues catalog requested component values) := by
  rw [buildAddon, dependencies_eq, ← haddon]
  cases buildHelmValues tenant component (userParams component addon.parameters) with
  | error e => rfl
  | ok values => exact congrArg Except.ok (buildFluxHelmreleaseCr_eq _)

theorem marshal_releaseOf (hnames : component.id = "namespaces" → targets catalog requested ≠ []) :
    marshal catalog requested
      (releaseOf tenant (tenantNs tenant) catalog requested addon component) =
        releaseBody tenant catalog component (finalValues catalog requested component
          (helmValues tenant (tenantNs tenant) component addon.parameters)) := by
  simp only [marshal, releaseOf, decide_eq_true_eq]
  rw [if_neg fun h => hnames h.1 h.2]
  rfl

/-- When the release of an addon comes out the same: some addon names a namespace, if this is
the release of the namespaces; and the values of the collector and of the driver agree. -/
def Agrees (tenant : String) (catalog : Catalog) (requested : List Request) (addon : Request)
    (component : Component) : Prop :=
  let goParam key := ((params component addon.parameters).lookup key).getD ""
  let pyParam := (userParams component addon.parameters).lookup
  (component.id = "namespaces" → targets catalog requested ≠ []) ∧
  (component.id = "alloy" →
    CollectorAgrees tenant goParam pyParam component.defaultValues) ∧
  (component.id = "kubevirt-csi-driver" →
    DriverAgrees (tenantNs tenant) goParam pyParam component.defaultValues)

theorem buildHelmValues_alike_iff (hkeys : (addon.parameters.map Prod.fst).Nodup)
    (hid : component.id ≠ "namespaces") :
    (∃ made, buildHelmValues tenant component (userParams component addon.parameters) = .ok made ∧
      Alike (.obj (helmValues tenant (tenantNs tenant) component addon.parameters)) (.obj made)) ↔
      Agrees tenant catalog requested addon component := by
  have hread (key : String) : ((userParams component addon.parameters).lookup key).getD "" ≠ "" →
        ((params component addon.parameters).lookup key).getD "" =
          ((userParams component addon.parameters).lookup key).getD "" :=
    params_eq_userParams hkeys
  simp only [Agrees, hid, false_implies, true_and]
  by_cases halloy : component.id = "alloy"
  · simp only [buildHelmValues, helmValues, halloy, forall_true_left, String.reduceEq,
      false_implies, and_true]
    exact alloyValues_alike_iff (hread _)
  · by_cases hcsi : component.id = "kubevirt-csi-driver"
    · simp only [buildHelmValues, helmValues, hcsi, forall_true_left, String.reduceEq,
        false_implies, true_and]
      exact csiValues_alike_iff (hread _)
    · refine iff_of_true ⟨component.defaultValues, ?_, ?_⟩ ⟨fun h => absurd h halloy,
        fun h => absurd h hcsi⟩
      · simp only [buildHelmValues]
      · simp only [helmValues]
        exact .refl _

/-- An addon gets the same release from both programs exactly if its values agree. -/
theorem buildAddon_same_iff (hfind : catalog.find addon.id = some component)
    (hkeys : (addon.parameters.map Prod.fst).Nodup) :
    (∃ body, buildAddon tenant catalog requested addon component = .ok body ∧
      Same (marshal catalog requested
        (releaseOf tenant (tenantNs tenant) catalog requested addon component)) body) ↔
      Agrees tenant catalog requested addon component := by
  obtain ⟨-, haddon⟩ := of_find hfind
  rw [buildAddon_eq haddon]
  by_cases hid : component.id = "namespaces"
  · have hbuild : buildHelmValues tenant component (userParams component addon.parameters) =
        .ok component.defaultValues := by
      simp only [buildHelmValues, hid]
      rfl
    have hagrees : Agrees tenant catalog requested addon component ↔
        targets catalog requested ≠ [] := by
      simp [Agrees, hid]
    rw [hbuild, hagrees]
    constructor
    · rintro ⟨body, hbody, hsame⟩ hnone
      obtain rfl := Except.ok.inj hbody
      have hlook := hsame.spec [.field "values", .field "namespaces"]
      have hvalues : (releaseBody tenant catalog component (finalValues catalog requested component
          component.defaultValues)).spec.lookup "values" =
            some (.obj [("namespaces", .arr (targets catalog requested))]) := by
        simp only [finalValues, hid, if_true]
        exact lookup_releaseSpec_values catalog component (cons_ne_nil _ _) _
      have hnull : (marshal catalog requested (releaseOf tenant (tenantNs tenant) catalog requested
          addon component)).spec.lookup "values" = some (.obj [("namespaces", .null)]) := by
        simp only [marshal, releaseOf, hid, decide_true, hnone, and_self, if_true]
        rfl
      -- a list that is null on the one side, and empty on the other
      simp only [Json.look, hnull, hvalues, hnone] at hlook
      exact absurd hlook (by decide)
    · intro hnames
      rw [marshal_releaseOf fun _ => hnames]
      refine ⟨_, rfl, same_releaseBody_iff.mpr ?_⟩
      simp only [finalValues, hid, if_true]
      exact .refl _
  · rw [← buildHelmValues_alike_iff hkeys hid, marshal_releaseOf fun h => absurd h hid]
    simp only [finalValues, hid, if_false]
    cases buildHelmValues tenant component (userParams component addon.parameters) with
    | error e =>
      constructor
      · rintro ⟨body, hbody, -⟩
        cases hbody
      · rintro ⟨values, hvalues, -⟩
        cases hvalues
    | ok made =>
      constructor
      · rintro ⟨body, hbody, hsame⟩
        obtain rfl := Except.ok.inj hbody
        exact ⟨made, rfl, same_releaseBody_iff.mp hsame⟩
      · rintro ⟨values, hvalues, halike⟩
        obtain rfl := Except.ok.inj hvalues
        exact ⟨_, rfl, same_releaseBody_iff.mpr halike⟩

theorem mapM_eq_ok_iff {α β : Type} {f : α → Except Raised β} {xs : List α} {ys : List β} :
    xs.mapM f = .ok ys ↔ List.Forall₂ (fun x y => f x = .ok y) xs ys := by
  induction xs generalizing ys with
  | nil =>
    rw [mapM_nil, forall₂_nil_left_iff]
    exact ⟨fun h => (Except.ok.inj h).symm, fun h => congrArg Except.ok h.symm⟩
  | cons x xs ih =>
    rw [mapM_cons]
    constructor
    · intro h
      obtain ⟨y, hy, hmore⟩ := exists_of_bind_eq_ok h
      obtain ⟨rest, hrest, hcons⟩ := exists_of_bind_eq_ok hmore
      cases hcons
      exact .cons hy (ih.mp hrest)
    · rintro (_ | ⟨hy, hrest⟩)
      rw [hy, ih.mpr hrest]
      rfl

/-- The addons that the catalogue has. -/
def offeredAddons (catalog : Catalog) (requested : List Request) : List (Request × Component) :=
  requested.filterMap fun addon => (catalog.find addon.id).map fun component => (addon, component)

theorem mem_offeredAddons : (addon, component) ∈ offeredAddons catalog requested ↔
    addon ∈ requested ∧ catalog.find addon.id = some component := by
  simp only [offeredAddons, mem_filterMap, map_eq_some_iff, Prod.mk.injEq]
  constructor
  · rintro ⟨other, hmem, found, hfind, rfl, rfl⟩
    exact ⟨hmem, hfind⟩
  · rintro ⟨hmem, hfind⟩
    exact ⟨addon, hmem, component, hfind, rfl, rfl⟩

section Forall₂

variable {α β : Type} {R : α → β → Prop} {xs : List α} {ys : List β}

theorem exists_mem_right (h : List.Forall₂ R xs ys) {x : α} (hx : x ∈ xs) : ∃ y ∈ ys, R x y := by
  induction h with
  | nil => contradiction
  | cons hr _ ih =>
    obtain rfl | hx := mem_cons.mp hx
    · exact ⟨_, mem_cons_self, hr⟩
    · obtain ⟨y, hy, hxy⟩ := ih hx
      exact ⟨y, mem_cons_of_mem _ hy, hxy⟩

theorem exists_mem_left (h : List.Forall₂ R xs ys) {y : β} (hy : y ∈ ys) : ∃ x ∈ xs, R x y := by
  induction h with
  | nil => contradiction
  | cons hr _ ih =>
    obtain rfl | hy := mem_cons.mp hy
    · exact ⟨_, mem_cons_self, hr⟩
    · obtain ⟨x, hx, hxy⟩ := ih hy
      exact ⟨x, mem_cons_of_mem _ hx, hxy⟩

theorem exists_forall₂ (h : ∀ x ∈ xs, ∃ y, R x y) : ∃ ys, List.Forall₂ R xs ys := by
  induction xs with
  | nil => exact ⟨[], .nil⟩
  | cons x xs ih =>
    obtain ⟨y, hy⟩ := h x mem_cons_self
    obtain ⟨ys, hys⟩ := ih fun z hz => h z (mem_cons_of_mem x hz)
    exact ⟨y :: ys, .cons hy hys⟩

end Forall₂

theorem name_of_buildAddon {body : Body} (hfind : catalog.find addon.id = some component)
    (h : buildAddon tenant catalog requested addon component = .ok body) :
    body.name = tenant ++ "-" ++ addon.id := by
  obtain ⟨-, haddon⟩ := of_find hfind
  rw [buildAddon_eq haddon] at h
  cases hvalues : buildHelmValues tenant component (userParams component addon.parameters) with
  | error e => simp [hvalues, Except.map] at h
  | ok values =>
    rw [hvalues] at h
    obtain rfl := Except.ok.inj h
    rw [← haddon]
    rfl

/-- The operator and the backend render the same set of releases exactly if the release of
every addon that the catalogue has comes out the same. -/
theorem renders_alike_iff (tenant : String) (catalog : Catalog) (requested : List Request)
    (hids : (requested.map Request.id).Nodup)
    (hkeys : ∀ addon ∈ requested, (addon.parameters.map Prod.fst).Nodup) :
    (∃ bodies, createAddonResources tenant requested catalog = .ok bodies ∧
      SameSet ((render tenant (tenantNs tenant) catalog requested).map
        (marshal catalog requested)) bodies) ↔
      ∀ addon ∈ requested, ∀ component, catalog.find addon.id = some component →
        Agrees tenant catalog requested addon component := by
  have hcreate (bodies : List Body) : createAddonResources tenant requested catalog = .ok bodies ↔
      List.Forall₂ (fun x y => buildAddon tenant catalog requested x.1 x.2 = .ok y)
        (offeredAddons catalog requested) bodies := mapM_eq_ok_iff
  have hrender (release : Release) : release ∈ render tenant (tenantNs tenant) catalog requested ↔
      ∃ addon ∈ requested, ∃ component, catalog.find addon.id = some component ∧
        releaseOf tenant (tenantNs tenant) catalog requested addon component = release := mem_render
  constructor
  · rintro ⟨bodies, hbodies, hsame⟩ addon hmem component hfind
    rw [hcreate] at hbodies
    refine (buildAddon_same_iff hfind (hkeys addon hmem)).mp ?_
    have hrelease := (hrender _).mpr ⟨addon, hmem, component, hfind, rfl⟩
    obtain ⟨body, hbody, halike⟩ := hsame.left _ (mem_map_of_mem hrelease)
    -- the body of the same name is the one that was built for this addon
    obtain ⟨⟨other, found⟩, hother, hbuilt⟩ := exists_mem_left hbodies hbody
    obtain ⟨hothermem, hfound⟩ := mem_offeredAddons.mp hother
    have hid : other.id = addon.id := by
      have hname := halike.name.trans (name_of_buildAddon hfound hbuilt)
      rw [← (of_find hfind).2]
      exact (String.append_right_inj _ |>.mp hname).symm
    obtain rfl := inj_on_of_nodup_map hids hothermem hmem hid
    obtain rfl := mem_unique hfind hfound
    exact ⟨body, hbuilt, halike⟩
  · intro hagrees
    have hall : ∀ x ∈ offeredAddons catalog requested, ∃ body,
        buildAddon tenant catalog requested x.1 x.2 = .ok body ∧ Same (marshal catalog requested
          (releaseOf tenant (tenantNs tenant) catalog requested x.1 x.2)) body := by
      rintro ⟨addon, component⟩ hx
      obtain ⟨hmem, hfind⟩ := mem_offeredAddons.mp hx
      exact (buildAddon_same_iff hfind (hkeys addon hmem)).mpr (hagrees addon hmem component hfind)
    obtain ⟨bodies, hbodies⟩ := exists_forall₂ hall
    refine ⟨bodies, (hcreate bodies).mpr (hbodies.imp fun _ _ h => h.1), fun a ha => ?_,
      fun b hb => ?_⟩
    · obtain ⟨release, hrelease, rfl⟩ := mem_map.mp ha
      obtain ⟨addon, hmem, component, hfind, rfl⟩ := (hrender release).mp hrelease
      obtain ⟨body, hbody, -, hsame⟩ :=
        exists_mem_right hbodies (mem_offeredAddons.mpr ⟨hmem, hfind⟩)
      exact ⟨body, hbody, hsame⟩
    · obtain ⟨⟨addon, component⟩, hx, -, hsame⟩ := exists_mem_left hbodies hb
      obtain ⟨hmem, hfind⟩ := mem_offeredAddons.mp hx
      exact ⟨_, mem_map_of_mem ((hrender _).mpr ⟨addon, hmem, component, hfind, rfl⟩), hsame⟩

/-- A collector whose text has a place for the URL and one for the interval. -/
def metrics : Catalog where
  gitRepositoryRef := [("name", "charts"), ("namespace", "flux-system")]
  basePath := "base"
  components :=
    [{ id := "alloy"
       category := "observability"
       required := false
       chartPath := "observability/alloy"
       ns := "alloy"
       defaultValues := [("alloy", .obj [("alloy", .obj [("configMap", .obj [("content",
         .str "url = \"\", scrape_interval = \"30s\"")])])])]
       parameters := [⟨"VM_REMOTE_WRITE_URL", ""⟩, ⟨"SCRAPE_INTERVAL", "30s"⟩] }]

/-- The collector, with a URL and this interval. -/
def scraping (interval : String) : List Request :=
  [⟨"alloy", [("VM_REMOTE_WRITE_URL", "http://vm"), ("SCRAPE_INTERVAL", interval)]⟩]

theorem renders_alike_scraping : ∃ bodies,
    createAddonResources "t" (scraping "15s") metrics = .ok bodies ∧
      SameSet ((render "t" (tenantNs "t") metrics (scraping "15s")).map
        (marshal metrics (scraping "15s"))) bodies := by
  refine (renders_alike_iff "t" metrics (scraping "15s") (by decide) (by decide)).mpr ?_
  intro addon haddon component hfind
  obtain rfl := mem_singleton.mp haddon
  obtain rfl := some.inj hfind
  refine ⟨fun h => absurd h (by decide), fun _ => ?_, fun h => absurd h (by decide)⟩
  refine .inr (.inr ⟨by decide, ⟨_, rfl, fun _ => ⟨_, rfl⟩⟩, fun text _ => .inl ?_⟩)
  decide

/-- An interval that is given and empty: the operator takes the default for it, and the
backend leaves it empty. -/
theorem not_renders_alike : ((scraping "").map Request.id).Nodup ∧
    (metrics.components.map Component.id).Nodup ∧
    ¬ ∃ bodies, createAddonResources "t" (scraping "") metrics = .ok bodies ∧
      SameSet ((render "t" (tenantNs "t") metrics (scraping "")).map
        (marshal metrics (scraping ""))) bodies := by
  refine ⟨by decide, by decide, ?_⟩
  rintro ⟨bodies, hbodies, hsame⟩
  obtain ⟨b, hb, halike⟩ := hsame.left _ (mem_map_of_mem mem_cons_self)
  have hlook := halike.spec [.field "values", .field "alloy", .field "alloy", .field "configMap",
    .field "content"]
  obtain rfl := Except.ok.inj hbodies
  obtain rfl := mem_singleton.mp hb
  exact absurd hlook (by decide)

end Addons
