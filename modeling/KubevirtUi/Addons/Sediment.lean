import KubevirtUi.Addons.Namespaces

/-!
# What releases remember

A pass lays what it renders over what is there, so a field that is no longer rendered stays. It
retires what it no longer renders, but not where it renders nothing at all. From the releases that
the last pass finds it is told whether they come out as those of a tenant that starts with them.
-/

namespace Addons

open Json List Option

/-- The labels of the tenant and of an addon are on it. -/
def HelmRelease.Carries (tenant : String) (release : HelmRelease) : Prop :=
  release.labels.lookup "kubevirt-ui.io/tenant" = some tenant ∧
    (release.labels.lookup "kubevirt-ui.io/addon").isSome

/-- A pass that succeeds. -/
def done (catalog : Catalog) (addons : List Request) : Pass := ⟨some catalog, addons, none⟩

def rendered (tenant ns : String) (catalog : Catalog) (addons : List Request) : List Release :=
  render tenant ns catalog (wantedAddons addons catalog)

/-- The entries on the list of namespaces. -/
def entries (spec : Fields) : List Json :=
  match nestedSlice spec ["values", "namespaces"] with
  | .ok (some items) => items
  | _ => []

/-- The values with further namespaces on the list. -/
def further (more : List Json) : Json → Json
  | .obj values =>
    .obj (setField "namespaces" (.arr (((values.lookup "namespaces").getD .null).items ++ more))
      values)
  | values => values

/-- A release says what a new one says. The one of the namespaces may list more, if it did. -/
structure AsNew (createsNamespaces : Bool) (before : Fields) (after new : HelmRelease) : Prop where
  targetNamespace :
    AlikeIf (after.spec.lookup "targetNamespace") (new.spec.lookup "targetNamespace")
  dependsOn : AlikeIf (after.spec.lookup "dependsOn") (new.spec.lookup "dependsOn")
  values : if createsNamespaces then ∃ more, (∀ entry ∈ more, entry ∈ entries before) ∧
      AlikeIf (after.spec.lookup "values") ((new.spec.lookup "values").map (further more))
    else AlikeIf (after.spec.lookup "values") (new.spec.lookup "values")

/-- After the pass there is what is rendered, as it is for a tenant that has no releases before. -/
structure Forgets (tenant ns : String) (catalog : Catalog) (addons : List Request)
    (releases : Releases) : Prop where
  names : ∀ name,
    (∃ release, (reconcileAddons tenant ns releases (done catalog addons)).lookup name =
      some release ∧ release.Carries tenant) ↔
    name ∈ (rendered tenant ns catalog addons).map Release.name
  same : ∀ release ∈ rendered tenant ns catalog addons, ∃ after new,
    (reconcileAddons tenant ns releases (done catalog addons)).lookup release.name = some after ∧
    (reconcileAddons tenant ns ∅ (done catalog addons)).lookup release.name = some new ∧
    AsNew release.createsNamespaces
      (((releases.lookup release.name).map HelmRelease.spec).getD []) after new

/-- Wherever both have an object, the live one has no other fields. -/
def Sheds (live want : Fields) : Prop :=
  ∀ path ls ws, nested live path = some ls → nested want path = some ws →
    ∀ key, ws.lookup key = none → ls.lookup key = none

/-- The same of a field that may be missing. -/
def Leaves (live : Option Json) : Option Json → Prop
  | none => live = none
  | some (.obj ws) => ∀ ls, live = some (.obj ls) → Sheds ls ws
  | some _ => True

/-- What is no longer rendered goes, and what is rendered again has lost nothing since. -/
structure Swept (tenant ns : String) (catalog : Catalog) (addons : List Request)
    (releases : Releases) : Prop where
  gone : ∀ name release, releases.lookup name = some release → release.Carries tenant →
    name ∉ (rendered tenant ns catalog addons).map Release.name →
      wantedAddons addons catalog ≠ [] ∧ release.labels.lookup "kubevirt-ui.io/addon" ≠ some ""
  shed : ∀ release ∈ rendered tenant ns catalog addons, ∀ live,
    releases.lookup release.name = some live →
      ∀ field ∈ ["values", "targetNamespace", "dependsOn"],
        Leaves (live.spec.lookup field) (release.spec.lookup field)

/-- Keys of one object are different, in the object and in all that are under it. -/
def Distinct (values : Fields) : Prop :=
  ∀ path fields, nested values path = some fields → (fields.map Prod.fst).Nodup

variable {live want values fields : Fields} {key : String}

section Fields

variable {value : Json}

theorem nested_cons {next : Fields} (h : values.lookup key = some (.obj next))
    (path : List String) : nested values (key :: path) = nested next path := by
  rw [nested, h]

theorem of_nested_cons {path : List String} (h : nested values (key :: path) = some fields) :
    ∃ next, values.lookup key = some (.obj next) ∧ nested next path = some fields := by
  rw [nested] at h
  split at h
  · next next hnext => exact ⟨next, hnext, h⟩
  · contradiction

theorem eq_none_of_alikeIf {x : Option Json} (h : AlikeIf x none) : x = none := by
  cases x with
  | none => rfl
  | some x => exact absurd h not_alikeIf_some_none

theorem Distinct.nodup (h : Distinct values) : (values.map Prod.fst).Nodup := h [] values rfl

theorem Distinct.under (h : Distinct values) (hnext : values.lookup key = some (.obj fields)) :
    Distinct fields := by
  intro path found hfound
  exact h (key :: path) found ((nested_cons hnext path).trans hfound)

theorem look_lay (hdistinct : Distinct want) (h : Sheds live want) (path : List Step) :
    look path (.obj (mergeSpec live want)) = look path (.obj want) := by
  induction path generalizing live want with
  | nil => rfl
  | cons step path ih =>
    cases step with
    | item n => rfl
    | field key =>
      rw [look, look, lookup_mergeSpec hdistinct.nodup]
      cases hwant : want.lookup key with
      | none => rw [h [] live want rfl rfl key hwant]
      | some value =>
        show look path (lay ((live.lookup key).getD .null) value) = look path value
        cases value with
        | obj ws =>
          cases hlive : live.lookup key with
          | none => rfl
          | some old =>
            cases old with
            | obj ls =>
              rw [getD_some, lay]
              apply ih (hdistinct.under hwant)
              intro rest ls' ws' hls hws
              exact h (key :: rest) ls' ws' ((nested_cons hlive rest).trans hls)
                ((nested_cons hwant rest).trans hws)
            | _ => rfl
        | _ => rw [lay]; simp

theorem alike_mergeSpec_iff (hdistinct : Distinct want) :
    Alike (.obj (mergeSpec live want)) (.obj want) ↔ Sheds live want := by
  constructor
  · intro h path
    induction path generalizing live want with
    | nil =>
      intro ls ws hls hws key hkey
      obtain rfl := some.inj hls
      obtain rfl := some.inj hws
      have hat := alike_obj_iff.mp h key
      rw [lookup_mergeSpec hdistinct.nodup, hkey] at hat
      exact eq_none_of_alikeIf hat
    | cons first path ih =>
      intro ls ws hls hws
      obtain ⟨live', hlive, hls⟩ := of_nested_cons hls
      obtain ⟨want', hwant, hws⟩ := of_nested_cons hws
      have hat := alike_obj_iff.mp h first
      rw [lookup_mergeSpec hdistinct.nodup, hwant, hlive] at hat
      exact ih (hdistinct.under hwant) (alikeIf_some.mp hat) ls ws hls hws
  · exact look_lay hdistinct

theorem alikeIf_lay_iff (hkeys : (want.map Prod.fst).Nodup)
    (hdistinct : ∀ ws, want.lookup key = some (.obj ws) → Distinct ws) :
    AlikeIf ((mergeSpec live want).lookup key) (want.lookup key) ↔
      Leaves (live.lookup key) (want.lookup key) := by
  rw [lookup_mergeSpec hkeys]
  cases hwant : want.lookup key with
  | none =>
    constructor
    · exact eq_none_of_alikeIf
    · intro h
      rw [show live.lookup key = none from h]
      exact .refl _
  | some value =>
    show Alike (lay ((live.lookup key).getD .null) value) value ↔ _
    cases value with
    | obj ws =>
      cases hlive : live.lookup key with
      | none =>
        refine iff_of_true (.refl _) fun ls hls => ?_
        contradiction
      | some old =>
        cases old with
        | obj ls =>
          rw [getD_some, lay, alike_mergeSpec_iff (hdistinct ws hwant)]
          constructor
          · intro h ls' hls
            obtain rfl := Json.obj.inj (some.inj hls)
            exact h
          · exact fun h => h ls rfl
        | _ =>
          refine iff_of_true (.refl _) fun ls hls => ?_
          simp at hls
    | _ => exact iff_of_true (by rw [lay]; exact .refl _; simp) trivial

end Fields

section Namespaces

variable {targets : List Json}

theorem exists_foldl_hold (before after : List Json) :
    ∃ more, before.foldl hold after = after ++ more ∧ ∀ entry ∈ more, entry ∈ before := by
  induction before generalizing after with
  | nil => exact ⟨[], by simp⟩
  | cons entry before ih =>
    rw [foldl_cons, hold]
    split
    · obtain ⟨more, hmore, hmem⟩ := ih after
      exact ⟨more, hmore, fun entry hentry => mem_cons_of_mem _ (hmem entry hentry)⟩
    · obtain ⟨more, hmore, hmem⟩ := ih (after ++ [entry])
      refine ⟨entry :: more, by rw [hmore, append_assoc, singleton_append], ?_⟩
      rw [forall_mem_cons]
      exact ⟨mem_cons_self, fun entry hentry => mem_cons_of_mem _ (hmem entry hentry)⟩

theorem lookup_keepNamespaces_of_ne (hkey : key ≠ "values") :
    (keepNamespaces live fields).lookup key = fields.lookup key := by
  rw [keepNamespaces]
  split
  · split
    · split
      · next out hout =>
        rw [setNestedSlice] at hout
        split at hout
        · obtain rfl := Except.ok.inj hout
          rw [lookup_setField, if_neg hkey]
        · contradiction
        · obtain rfl := Except.ok.inj hout
          rw [lookup_setField, if_neg hkey]
      · rfl
    · rfl
  · rfl

theorem entries_eq (houter : live.lookup "values" = some (.obj values)) {before : List Json}
    (hinner : values.lookup "namespaces" = some (.arr before)) : entries live = before := by
  rw [entries, nestedSlice_eq_some_iff.mpr ⟨values, houter, hinner⟩]

section

variable (hkeys : (want.map Prod.fst).Nodup)
  (hwant : want.lookup "values" = some (.obj [("namespaces", .arr targets)]))

include hkeys hwant

theorem exists_lookup_keepNamespaces (hlive : live.lookup "values" = some (.obj values)) :
    ∃ after more, (keepNamespaces live (mergeSpec live want)).lookup "values" = some (.obj after) ∧
      (∀ entry ∈ more, entry ∈ entries live) ∧
      ∀ key, after.lookup key =
        if key = "namespaces" then some (.arr (targets ++ more)) else values.lookup key := by
  have hmerged : (mergeSpec live want).lookup "values" =
      some (.obj (setField "namespaces" (.arr targets) values)) := by
    rw [lookup_mergeSpec hkeys, hwant, hlive]
    show some (lay (.obj values) (.obj [("namespaces", .arr targets)])) = _
    rw [lay, mergeSpec, mergeSpec, lay_arr]
  have hafter : nestedSlice (mergeSpec live want) ["values", "namespaces"] =
      .ok (some targets) :=
    nestedSlice_eq_some_iff.mpr ⟨_, hmerged, by rw [lookup_setField, if_pos rfl]⟩
  rw [keepNamespaces]
  split
  · next before hbefore =>
    obtain ⟨values', houter, hinner⟩ := nestedSlice_eq_some_iff.mp hbefore
    obtain rfl := Json.obj.inj (mem_unique hlive houter)
    obtain ⟨more, hmore, hmem⟩ := exists_foldl_hold before targets
    simp only [hafter, setNestedSlice, hmerged, getD_some, hmore]
    refine ⟨_, more, by rw [lookup_setField, if_pos rfl], ?_, fun key => ?_⟩
    · rwa [entries_eq houter hinner]
    · rw [lookup_setField, lookup_setField]
      split
      · rfl
      · rfl
  · refine ⟨_, [], hmerged, by simp, fun key => ?_⟩
    rw [lookup_setField, append_nil]

theorem lookup_keepNamespaces_of_no_values
    (hlive : ∀ values, live.lookup "values" ≠ some (.obj values)) :
    (keepNamespaces live (mergeSpec live want)).lookup "values" = want.lookup "values" := by
  have hnone : ∀ before, nestedSlice live ["values", "namespaces"] ≠ .ok (some before) := by
    intro before hbefore
    obtain ⟨values, houter, -⟩ := nestedSlice_eq_some_iff.mp hbefore
    exact hlive values houter
  rw [keepNamespaces]
  split
  · next before hbefore => exact absurd hbefore (hnone before)
  · rw [lookup_mergeSpec hkeys, hwant]
    cases hvalues : live.lookup "values" with
    | none => rfl
    | some old =>
      cases old with
      | obj values => exact absurd hvalues (hlive values)
      | _ => rfl

end

theorem sheds_namespaces_iff : Sheds values [("namespaces", .arr targets)] ↔
    ∀ key, key ≠ "namespaces" → values.lookup key = none := by
  constructor
  · intro h key hkey
    apply h [] values _ rfl rfl key
    rw [lookup_cons, beq_false_of_ne hkey]
    rfl
  · intro h path ls ws hls hws key hkey
    cases path with
    | nil =>
      obtain rfl := some.inj hls
      obtain rfl := some.inj hws
      apply h key
      rintro rfl
      simp at hkey
    | cons first path =>
      obtain ⟨next, hnext, -⟩ := of_nested_cons hws
      rw [lookup_cons] at hnext
      split at hnext
      · simp at hnext
      · contradiction

theorem exists_further_iff (hkeys : (want.map Prod.fst).Nodup)
    (hwant : want.lookup "values" = some (.obj [("namespaces", .arr targets)])) :
    (∃ more, (∀ entry ∈ more, entry ∈ entries live) ∧
      AlikeIf ((keepNamespaces live (mergeSpec live want)).lookup "values")
        ((want.lookup "values").map (further more))) ↔
      Leaves (live.lookup "values") (want.lookup "values") := by
  have hfurther (more : List Json) : further more (.obj [("namespaces", .arr targets)]) =
      .obj [("namespaces", .arr (targets ++ more))] := rfl
  rw [hwant]
  by_cases hlive : ∃ values, live.lookup "values" = some (.obj values)
  · obtain ⟨values, hvalues⟩ := hlive
    obtain ⟨after, more, hafter, hmem, hlookup⟩ := exists_lookup_keepNamespaces hkeys hwant hvalues
    have hleaves : Leaves (live.lookup "values") (some (.obj [("namespaces", .arr targets)])) ↔
        ∀ key, key ≠ "namespaces" → values.lookup key = none := by
      rw [← sheds_namespaces_iff, hvalues]
      constructor
      · exact fun h => h values rfl
      · intro h ls hls
        obtain rfl := Json.obj.inj (some.inj hls)
        exact h
    rw [hleaves, hafter]
    simp only [map_some, hfurther, alikeIf_some, alike_obj_iff]
    constructor
    · rintro ⟨_, -, halike⟩ key hkey
      have hat := halike key
      rw [hlookup, if_neg hkey, lookup_cons, beq_false_of_ne hkey] at hat
      exact eq_none_of_alikeIf hat
    · intro h
      refine ⟨more, hmem, fun key => ?_⟩
      rw [hlookup]
      by_cases hkey : key = "namespaces"
      · subst hkey
        rw [if_pos rfl, lookup_cons_self]
        exact .refl _
      · rw [if_neg hkey, h key hkey, lookup_cons, beq_false_of_ne hkey]
        exact .refl _
  · rw [not_exists] at hlive
    rw [lookup_keepNamespaces_of_no_values hkeys hwant hlive, hwant]
    refine iff_of_true ⟨[], by simp, ?_⟩ fun ls hls => absurd hls (hlive ls)
    rw [map_some, hfurther, append_nil]
    exact .refl _

end Namespaces

end Addons
