import KubevirtUi.Addons.Catalog

/-!
# Releases that can be installed

A release waits for the releases in its `dependsOn`. That these are written as well is left
to the catalogue: the namespaces are waited for if the catalogue has them, but they are
written only if somebody wants them.
-/

namespace Addons

open List

/-- The text of a field. -/
def textOf (key : String) : Json → Option String
  | .obj fields =>
    match fields.lookup key with
    | some (.str text) => some text
    | _ => none
  | _ => none

/-- The names of the releases in the same namespace that this one waits for. -/
def Release.waitsFor (release : Release) : List String :=
  ((release.spec.lookup "dependsOn").getD .null).items.filterMap fun entry =>
    if textOf "namespace" entry = some release.ns then textOf "name" entry else none

/-- One release waits for another. -/
def Waits (releases : List Release) (a b : String) : Prop :=
  ∃ release ∈ releases, release.name = a ∧ b ∈ release.waitsFor

/-- Releases are told apart by their names, none waits for itself, and none for one that is not
there. -/
structure Installable (releases : List Release) : Prop where
  names : (releases.map Release.name).Nodup
  acyclic : ∀ a, ¬Relation.TransGen (Waits releases) a a
  closed : ∀ a b, Waits releases a b → b ∈ releases.map Release.name

/-- Somebody wants the namespaces, or nobody waits for them. -/
def NamespacesWanted (addons : List Request) (catalog : Catalog) : Prop :=
  ∀ component ∈ catalog.components, component.id = "namespaces" →
    component.required = true ∨ component.id ∈ addons.map Request.id ∨
      ∀ network ∈ catalog.components, network.isNetwork = false

/-- The order holds what is asked for, each once. -/
structure Asked.Sound (asked : Asked) : Prop where
  nodup : asked.order.Nodup
  mem : ∀ id, id ∈ asked.order ↔ id ∈ asked.parameters

section Wanted

variable {asked : Asked} {addons : List Request} {catalog : Catalog} {id : String}

theorem Asked.mem_order_ask (h : asked.Sound) (addon : Request) :
    id ∈ (asked.ask addon).order ↔ id ∈ asked.order ∨ id = addon.id := by
  rw [Asked.ask]
  split
  · next hmem =>
    rw [← h.mem] at hmem
    exact ⟨.inl, fun hid => hid.elim (fun hid => hid) (fun hid => hid ▸ hmem)⟩
  · rw [mem_append, mem_singleton]

theorem Asked.Sound.ask (h : asked.Sound) (addon : Request) : (asked.ask addon).Sound where
  nodup := by
    rw [Asked.ask]
    split
    · exact h.nodup
    · next hnot =>
      rw [← h.mem] at hnot
      exact nodup_append.mpr ⟨h.nodup, nodup_singleton _, fun a ha b hb hab => by
        obtain rfl := mem_singleton.mp hb
        exact hnot (hab ▸ ha)⟩
  mem id := by
    rw [Asked.mem_order_ask h, h.mem, Asked.ask, AList.mem_insert, or_comm]

theorem Asked.Sound.require (h : asked.Sound) (component : Component) :
    (asked.require component).Sound := by
  rw [Asked.require]
  split
  · exact h.ask _
  · exact h

theorem Asked.mem_order_require (h : asked.Sound) (component : Component) :
    id ∈ (asked.require component).order ↔
      id ∈ asked.order ∨ component.required = true ∧ id = component.id := by
  rw [Asked.require]
  split
  · next hnew =>
    rw [Asked.mem_order_ask h]
    simp [hnew.1]
  · next hnot =>
    refine ⟨.inl, ?_⟩
    rintro (hid | ⟨hrequired, rfl⟩)
    · exact hid
    · rw [h.mem]
      by_contra hmem
      exact hnot ⟨hrequired, hmem⟩

theorem Asked.sound_foldl_ask (h : asked.Sound) : (addons.foldl Asked.ask asked).Sound ∧
    (id ∈ (addons.foldl Asked.ask asked).order ↔
      id ∈ asked.order ∨ id ∈ addons.map Request.id) := by
  induction addons generalizing asked with
  | nil => simp [h]
  | cons addon addons ih =>
    obtain ⟨hsound, hmem⟩ := ih (h.ask addon)
    refine ⟨hsound, ?_⟩
    rw [foldl_cons, hmem, Asked.mem_order_ask h, map_cons, mem_cons, or_assoc]

theorem Asked.sound_foldl_require (h : asked.Sound) (components : List Component) :
    (components.foldl Asked.require asked).Sound ∧
      (id ∈ (components.foldl Asked.require asked).order ↔
        id ∈ asked.order ∨ ∃ component ∈ components, component.required = true ∧
          id = component.id) := by
  induction components generalizing asked with
  | nil => simp [h]
  | cons component components ih =>
    obtain ⟨hsound, hmem⟩ := ih (h.require component)
    refine ⟨hsound, ?_⟩
    rw [foldl_cons, hmem, Asked.mem_order_require h, or_assoc]
    simp

theorem Asked.sound_empty : (⟨∅, []⟩ : Asked).Sound where
  nodup := nodup_nil
  mem id := by simp [AList.mem_keys]

theorem sound_asked : (Addons.asked addons catalog).Sound ∧
    (id ∈ (Addons.asked addons catalog).order ↔ id ∈ addons.map Request.id ∨
      ∃ component ∈ catalog.components, component.required = true ∧ id = component.id) := by
  obtain ⟨hsound, hasked⟩ := @Asked.sound_foldl_ask _ addons id Asked.sound_empty
  have hall := @Asked.sound_foldl_require _ id hsound catalog.components
  rw [hasked] at hall
  simpa [Addons.asked] using hall

theorem mem_wantedAddons : id ∈ (wantedAddons addons catalog).map Request.id ↔
    id ∈ addons.map Request.id ∨
      ∃ component ∈ catalog.components, component.required = true ∧ id = component.id := by
  rw [wantedAddons, map_map]
  simp only [Function.comp_def, map_id']
  exact sound_asked.2

theorem nodup_wantedAddons : ((wantedAddons addons catalog).map Request.id).Nodup := by
  rw [wantedAddons, map_map]
  simp only [Function.comp_def, map_id']
  exact (@sound_asked addons catalog "").1.nodup

end Wanted

variable {component : Component} {a b : String}

section Render

variable {tenant ns : String} {catalog : Catalog} {requested : List Request} {release : Release}

theorem mem_render : release ∈ render tenant ns catalog requested ↔
    ∃ request ∈ requested, ∃ component, catalog.find request.id = some component ∧
      releaseOf tenant ns catalog requested request component = release := by
  rw [render, (perm_insertionSort _ _).mem_iff, mem_filterMap]
  simp only [Option.map_eq_some_iff]

theorem of_find {id : String} (h : catalog.find id = some component) :
    component ∈ catalog.components ∧ component.id = id :=
  ⟨mem_of_find?_eq_some h, by simpa using List.find?_some h⟩

theorem find_of_mem (h : (catalog.components.map Component.id).Nodup)
    (hmem : component ∈ catalog.components) : catalog.find component.id = some component := by
  obtain ⟨found, hfound⟩ : ∃ found, catalog.find component.id = some found := by
    rw [← Option.isSome_iff_exists, Catalog.find, List.find?_isSome]
    exact ⟨component, hmem, by simp⟩
  obtain ⟨hmem', hid⟩ := of_find hfound
  rw [hfound, inj_on_of_nodup_map h hmem' hmem hid]

theorem nodup_names_render (h : (requested.map Request.id).Nodup) :
    ((render tenant ns catalog requested).map Release.name).Nodup := by
  rw [render, ((perm_insertionSort _ _).map _).nodup_iff, map_filterMap]
  rw [List.Nodup, pairwise_map] at h
  refine h.filterMap _ fun request other hne name hname name' hname' => ?_
  rintro rfl
  simp only [Option.map_map, Option.map_eq_some_iff] at hname hname'
  obtain ⟨component, hfind, rfl⟩ := hname
  obtain ⟨component', hfind', hsame⟩ := hname'
  have hid : component'.id = component.id := by
    simpa [releaseOf, String.append_right_inj] using hsame
  exact hne ((of_find hfind).2.symm.trans (hid.symm.trans (of_find hfind').2))

theorem lookup_releaseSpec_dependsOn (component : Component) (values : Fields) (waits : List Json) :
    ((releaseSpec tenant catalog component values waits).lookup "dependsOn").getD .null =
      if waits ≠ [] then .arr waits else .null := by
  rw [releaseSpec]
  split <;> split <;> split <;> rfl

theorem waitsFor_releaseOf (request : Request) (component : Component) :
    (releaseOf tenant ns catalog requested request component).waitsFor =
      if dependsOn catalog component = "" then []
      else [tenant ++ "-" ++ dependsOn catalog component] := by
  simp only [Release.waitsFor, releaseOf, lookup_releaseSpec_dependsOn]
  split
  · rfl
  · have hns (name : String) :
        textOf "namespace" (.obj [("name", .str name), ("namespace", .str ns)]) = some ns := rfl
    have hname (name : String) :
        textOf "name" (.obj [("name", .str name), ("namespace", .str ns)]) = some name := rfl
    simp [Json.items, hns, hname]

/-- The namespaces are waited for only if the catalogue has them, a network only if it is
required. -/
theorem of_dependsOn (hne : dependsOn catalog component ≠ "") : component.id ≠ "namespaces" ∧
      (component.isNetwork = true ∧ dependsOn catalog component = "namespaces" ∧
          (∃ first ∈ catalog.components, first.id = "namespaces") ∨
        component.isNetwork = false ∧ ∃ first ∈ catalog.components, first.isNetwork = true ∧
          dependsOn catalog component = first.id) := by
  rw [dependsOn] at hne ⊢
  split at hne
  · contradiction
  · next hid =>
    refine ⟨hid, ?_⟩
    rw [if_neg hid]
    split at hne
    · next hnetwork =>
      rw [if_pos hnetwork]
      rw [namespacesID] at hne ⊢
      split at hne
      · next hany =>
        rw [if_pos hany]
        simp only [any_eq_true, decide_eq_true_eq] at hany
        exact .inl ⟨hnetwork, rfl, hany⟩
      · contradiction
    · next hnetwork =>
      rw [if_neg hnetwork]
      rw [cniID] at hne ⊢
      cases hlast : (catalog.components.filter Component.isNetwork).getLast? with
      | none => simp [hlast] at hne
      | some first =>
        obtain ⟨hmem, hfirst⟩ := mem_filter.mp (mem_of_getLast? hlast)
        exact .inr ⟨by simpa using hnetwork, first, hmem, hfirst, rfl⟩

theorem waits_iff : Waits (render tenant ns catalog requested) a b ↔
    ∃ request ∈ requested, ∃ component, catalog.find request.id = some component ∧
      a = tenant ++ "-" ++ component.id ∧ dependsOn catalog component ≠ "" ∧
        b = tenant ++ "-" ++ dependsOn catalog component := by
  constructor
  · rintro ⟨release, hrelease, rfl, hwaits⟩
    obtain ⟨request, hrequest, component, hfind, rfl⟩ := mem_render.mp hrelease
    rw [waitsFor_releaseOf] at hwaits
    split at hwaits
    · contradiction
    · next hne =>
      exact ⟨request, hrequest, component, hfind, rfl, hne, mem_singleton.mp hwaits⟩
  · rintro ⟨request, hrequest, component, hfind, rfl, hne, rfl⟩
    refine ⟨_, mem_render.mpr ⟨request, hrequest, component, hfind, rfl⟩, rfl, ?_⟩
    rw [waitsFor_releaseOf, if_neg hne]
    exact mem_singleton.mpr rfl

theorem mem_names_render {name : String} :
    name ∈ (render tenant ns catalog requested).map Release.name ↔
      ∃ id ∈ requested.map Request.id, (catalog.find id).isSome ∧ name = tenant ++ "-" ++ id := by
  simp only [mem_map, mem_render]
  constructor
  · rintro ⟨_, ⟨request, hrequest, component, hfind, rfl⟩, rfl⟩
    refine ⟨request.id, ⟨request, hrequest, rfl⟩, by rw [hfind]; rfl, ?_⟩
    rw [← (of_find hfind).2]
    rfl
  · rintro ⟨_, ⟨request, hrequest, rfl⟩, hsome, rfl⟩
    obtain ⟨component, hfind⟩ := Option.isSome_iff_exists.mp hsome
    refine ⟨_, ⟨request, hrequest, component, hfind, rfl⟩, ?_⟩
    rw [← (of_find hfind).2]
    rfl

/-- A network stands above the namespaces, and what is left above the network. -/
noncomputable def height (tenant : String) (catalog : Catalog) (name : String) : ℕ :=
  open Classical in
  if name = tenant ++ "-" ++ "namespaces" then 0
  else if ∃ component ∈ catalog.components, component.isNetwork = true ∧
      name = tenant ++ "-" ++ component.id then 1
  else 2

theorem height_lt (h : (catalog.components.map Component.id).Nodup)
    (hwaits : Waits (render tenant ns catalog requested) a b) :
    height tenant catalog b < height tenant catalog a := by
  obtain ⟨request, -, component, hfind, rfl, hne, rfl⟩ := waits_iff.mp hwaits
  obtain ⟨hmem, -⟩ := of_find hfind
  obtain ⟨hid, ⟨hnetwork, hfirst, -⟩ | ⟨hnetwork, first, hfirst, hisNetwork, hdepends⟩⟩ :=
    of_dependsOn hne
  · rw [hfirst, height, if_pos rfl, height, if_neg (by simpa [String.append_right_inj] using hid)]
    split <;> omega
  · have hothers : ¬∃ other ∈ catalog.components, other.isNetwork = true ∧
        tenant ++ "-" ++ component.id = tenant ++ "-" ++ other.id := by
      rintro ⟨other, hother, hisNetwork', hsame⟩
      have hid' : component.id = other.id := by simpa [String.append_right_inj] using hsame
      rw [inj_on_of_nodup_map h hmem hother hid'] at hnetwork
      rw [hisNetwork'] at hnetwork
      contradiction
    rw [height.eq_def _ _ (tenant ++ "-" ++ component.id),
      if_neg (by simpa [String.append_right_inj] using hid), if_neg hothers, hdepends, height]
    split
    · omega
    · rw [if_pos ⟨first, hfirst, hisNetwork, rfl⟩]
      omega

theorem height_lt_of_transGen (h : (catalog.components.map Component.id).Nodup)
    (hpath : Relation.TransGen (Waits (render tenant ns catalog requested)) a b) :
    height tenant catalog b < height tenant catalog a := by
  induction hpath with
  | single hwaits => exact height_lt h hwaits
  | tail _ hwaits ih => exact (height_lt h hwaits).trans ih

/-- The releases can be installed exactly where somebody wants the namespaces that are waited
for. -/
theorem render_installable (tenant ns : String) (catalog : Catalog) (addons : List Request)
    (h : (catalog.components.map Component.id).Nodup) :
    Installable (render tenant ns catalog (wantedAddons addons catalog)) ↔
      NamespacesWanted addons catalog := by
  have hrequired {component : Component} (hmem : component ∈ catalog.components)
      (hrequired : component.required = true) :
      component.id ∈ (wantedAddons addons catalog).map Request.id :=
    mem_wantedAddons.mpr (.inr ⟨component, hmem, hrequired, rfl⟩)
  have hnetwork {component : Component} (hnetwork : component.isNetwork = true) :
      component.required = true := by
    simp only [Component.isNetwork, Bool.and_eq_true] at hnetwork
    exact hnetwork.1
  constructor
  · intro hinstallable component hmem hid
    by_contra hnot
    rw [not_or, not_or] at hnot
    obtain ⟨hoptional, hunasked, hwaited⟩ := hnot
    -- some network is required, and waits for namespaces that nobody wants
    obtain ⟨network, hmem', hisNetwork⟩ : ∃ network ∈ catalog.components,
        network.isNetwork = true := by
      by_contra hnone
      exact hwaited fun network hmem' => by
        rw [← Bool.not_eq_true]
        exact fun hisNetwork => hnone ⟨network, hmem', hisNetwork⟩
    have hdepends : dependsOn catalog network = "namespaces" := by
      have hother : network.id ≠ "namespaces" := by
        intro hsame
        have heq := inj_on_of_nodup_map h hmem hmem' (hid.trans hsame.symm)
        exact hoptional (heq ▸ hnetwork hisNetwork)
      have hany : catalog.components.any (·.id = "namespaces") = true :=
        any_eq_true.mpr ⟨component, hmem, by simpa using hid⟩
      rw [dependsOn, if_neg hother, if_pos hisNetwork, namespacesID, if_pos hany]
    obtain ⟨request, hrequest, hsame⟩ :=
      mem_map.mp (hrequired hmem' (hnetwork hisNetwork))
    have hwaits : Waits (render tenant ns catalog (wantedAddons addons catalog))
        (tenant ++ "-" ++ network.id) (tenant ++ "-" ++ "namespaces") :=
      waits_iff.mpr ⟨request, hrequest, network, hsame ▸ find_of_mem h hmem', rfl,
        by rw [hdepends]; decide, by rw [hdepends]⟩
    obtain ⟨id, hwanted, -, hname⟩ := mem_names_render.mp (hinstallable.closed _ _ hwaits)
    obtain rfl : "namespaces" = id := by simpa [String.append_right_inj] using hname
    obtain hasked | ⟨other, hother, hreq, hsame⟩ := mem_wantedAddons.mp hwanted
    · exact hunasked (hid ▸ hasked)
    · have heq := inj_on_of_nodup_map h hmem hother (hid.trans hsame)
      exact hoptional (heq ▸ hreq)
  · intro hwanted
    refine ⟨nodup_names_render nodup_wantedAddons, fun a hcycle => ?_, fun a b hwaits => ?_⟩
    · exact lt_irrefl _ (height_lt_of_transGen h hcycle)
    · obtain ⟨request, -, component, hfind, -, hne, rfl⟩ := waits_iff.mp hwaits
      have hmem := (of_find hfind).1
      have hrendered {first : Component} (hfirst : first ∈ catalog.components)
          (hwant : first.id ∈ (wantedAddons addons catalog).map Request.id) :
          tenant ++ "-" ++ first.id ∈
            (render tenant ns catalog (wantedAddons addons catalog)).map Release.name :=
        mem_names_render.mpr ⟨_, hwant, by rw [find_of_mem h hfirst]; rfl, rfl⟩
      obtain ⟨-, ⟨hisNetwork, hdepends, first, hfirst, hid⟩ |
        ⟨-, first, hfirst, hisNetwork, hdepends⟩⟩ := of_dependsOn hne
      · rw [hdepends, ← hid]
        refine hrendered hfirst ?_
        obtain hreq | hasked | hnone := hwanted first hfirst hid
        · exact hrequired hfirst hreq
        · exact mem_wantedAddons.mpr (.inl hasked)
        · rw [hnone component hmem] at hisNetwork
          contradiction
      · rw [hdepends]
        exact hrendered hfirst (hrequired hfirst (hnetwork hisNetwork))

end Render

/-- A catalogue whose namespaces are not required. -/
def optionalNamespaces : Catalog where
  gitRepositoryRef := []
  basePath := "base"
  components := [⟨"namespaces", "system", false, "namespaces", "", [], []⟩,
    ⟨"calico", "networking", true, "calico", "tigera-operator", [], []⟩]

/-- A tenant that asks for nothing gets a network that waits for ever. -/
theorem not_render_installable :
    ¬∀ (tenant ns : String) (catalog : Catalog) (addons : List Request),
      (catalog.components.map Component.id).Nodup →
        Installable (render tenant ns catalog (wantedAddons addons catalog)) := by
  intro h
  have hinstallable := h "t" "tenant-t" optionalNamespaces [] (by decide)
  have hclosed := hinstallable.closed "t-calico" "t-namespaces"
    ⟨_, mem_singleton.mpr rfl, by decide +kernel, by decide +kernel⟩
  revert hclosed
  decide +kernel

/-- Where somebody asks for the namespaces, it does not. -/
theorem render_installable_asked : Installable (render "t" "tenant-t" optionalNamespaces
      (wantedAddons [⟨"namespaces", []⟩] optionalNamespaces)) :=
  (render_installable "t" "tenant-t" optionalNamespaces [⟨"namespaces", []⟩] (by decide)).mpr
    fun component hmem hid => .inr (.inl (by rw [hid]; decide))

end Addons
