import KubevirtUi.Underlay.Render

/-!
# When the shared DaemonSets settle

A write leaves every rendered field as its own render has it, so an object that meets one render is
written again exactly by the underlays that render something else. All watchers raise the same
interfaces, whatever the order of the list. What remains of the underlay in them is the image.
-/

namespace Underlay

open Go List

section Interfaces

variable {names out : List String} {name mine : String}

theorem mem_foldl_distinct : name ∈ names.foldl (fun out name =>
    if name = "" ∨ name ∈ out then out else out ++ [name]) out ↔
      name ∈ out ∨ name ∈ names ∧ name ≠ "" := by
  induction names generalizing out with
  | nil => simp
  | cons first names ih =>
    rw [foldl_cons, ih]
    split
    · next hskip =>
      constructor
      · rintro (hout | ⟨hmem, hne⟩)
        · exact .inl hout
        · exact .inr ⟨mem_cons_of_mem first hmem, hne⟩
      · rintro (hout | ⟨hmem, hne⟩)
        · exact .inl hout
        · obtain rfl | hmem := mem_cons.mp hmem
          · exact .inl (hskip.resolve_left hne)
          · exact .inr ⟨hmem, hne⟩
    · next hskip =>
      have hfirst : first ≠ "" := fun hempty => hskip (.inl hempty)
      grind

theorem nodup_foldl_distinct (h : out.Nodup) : (names.foldl (fun out name =>
    if name = "" ∨ name ∈ out then out else out ++ [name]) out).Nodup := by
  induction names generalizing out with
  | nil => exact h
  | cons first names ih =>
    rw [foldl_cons]
    apply ih
    split
    · exact h
    · next hskip =>
      have hnew : first ∉ out := fun hmem => hskip (.inr hmem)
      exact nodup_append.mpr ⟨h, nodup_singleton first, by
        intro other hother new hlast heq
        exact hnew (mem_singleton.mp hlast ▸ heq ▸ hother)⟩

theorem mem_distinct : name ∈ distinct names ↔ name ∈ names ∧ name ≠ "" := by
  rw [distinct, mem_foldl_distinct]
  simp

theorem nodup_distinct : (distinct names).Nodup := nodup_foldl_distinct nodup_nil

theorem mem_watchedInterfaces {others : List String} : name ∈ watchedInterfaces mine others ↔
    (∃ raw ∈ mine :: others, trimSpace raw = name) ∧ name ≠ "" := by
  rw [watchedInterfaces, (perm_insertionSort _ _).mem_iff, mem_distinct, mem_map]

theorem watchedInterfaces_congr {mine' : String} {others others' : List String}
    (h : ∀ name, name ∈ watchedInterfaces mine others ↔ name ∈ watchedInterfaces mine' others') :
    watchedInterfaces mine others = watchedInterfaces mine' others' := by
  have hnodup (first : String) (rest : List String) : (watchedInterfaces first rest).Nodup :=
    (perm_insertionSort _ _).nodup_iff.mpr nodup_distinct
  have hperm : (watchedInterfaces mine others).Perm (watchedInterfaces mine' others') :=
    (perm_ext_iff_of_nodup (hnodup mine others) (hnodup mine' others')).mpr h
  exact hperm.eq_of_pairwise' (pairwise_insertionSort (· ≤ ·) _) (pairwise_insertionSort (· ≤ ·) _)

end Interfaces

variable {u : ManagedUnderlay} {ρ : Type} {fill : DaemonSet → Option ρ → ρ}

section Networks

variable {networks networks' listed : List ProviderNetwork}

theorem ensureProviderNetwork_again (h : ensureProviderNetwork u networks = some networks') :
    ensureProviderNetwork u networks' = some networks' := by
  induction networks generalizing networks' with
  | nil =>
    obtain rfl := Option.some.inj h
    simp [ensureProviderNetwork]
  | cons network networks ih =>
    rw [ensureProviderNetwork] at h
    split at h
    · next hname =>
      split at h
      · obtain rfl := Option.some.inj h
        simp [ensureProviderNetwork, hname]
      · contradiction
    · next hname =>
      obtain ⟨rest, hrest, rfl⟩ := Option.map_eq_some_iff.mp h
      rw [ensureProviderNetwork, if_neg hname, ih hrest, Option.map_some]

theorem interface_mem (h : ensureProviderNetwork u networks = some networks')
    (hne : u.interface ≠ "") : u.interface ∈ allProviderInterfaces networks' := by
  induction networks generalizing networks' with
  | nil =>
    obtain rfl := Option.some.inj h
    simp [allProviderInterfaces, hne]
  | cons network networks ih =>
    rw [ensureProviderNetwork] at h
    split at h
    · split at h
      · obtain rfl := Option.some.inj h
        simp [allProviderInterfaces, hne]
      · contradiction
    · obtain ⟨rest, hrest, rfl⟩ := Option.map_eq_some_iff.mp h
      have hmem := ih hrest
      rw [allProviderInterfaces, flatMap_cons]
      exact mem_append_right _ hmem

/-- The names that are to be raised. -/
def Provided (networks : List ProviderNetwork) (name : String) : Prop :=
  (∃ raw ∈ allProviderInterfaces networks, trimSpace raw = name) ∧ name ≠ ""

theorem mem_watchedInterfaces_iff (h : ensureProviderNetwork u networks = some networks')
    (hlisted : listed.Perm networks') {name : String} :
    name ∈ watchedInterfaces u.interface (allProviderInterfaces listed) ↔
      Provided networks' name := by
  have hmem (raw : String) :
      raw ∈ allProviderInterfaces listed ↔ raw ∈ allProviderInterfaces networks' :=
    (hlisted.flatMap_right _).mem_iff
  rw [mem_watchedInterfaces, Provided, and_congr_left_iff]
  intro hne
  simp only [exists_mem_cons_iff, hmem]
  refine or_iff_right_of_imp fun hmine => ?_
  have hinterface : u.interface ≠ "" := by
    intro hempty
    rw [hempty] at hmine
    exact hne (hmine.symm.trans (by decide))
  exact ⟨u.interface, interface_mem h hinterface, hmine⟩

end Networks

section Writes

variable {owner : String} {want d : DaemonSet}

/-- The keys that are rendered are different. -/
structure Rendered (want : DaemonSet) : Prop where
  labels : (want.labels.map Prod.fst).Nodup
  annotations : (want.annotations.map Prod.fst).Nodup
  podLabels : (want.podLabels.map Prod.fst).Nodup
  containers : (want.containers.map Container.name).Nodup

/-- Every rendered field is there. -/
structure Meets (want d : DaemonSet) : Prop where
  labels : ∀ label ∈ want.labels, Keyed.Has Prod.fst d.labels label
  annotations : ∀ label ∈ want.annotations, Keyed.Has Prod.fst d.annotations label
  selector : d.selector.or want.selector = d.selector
  podLabels : ∀ label ∈ want.podLabels, Keyed.Has Prod.fst d.podLabels label
  hostNetwork : want.hostNetwork = d.hostNetwork
  nodeSelector : want.nodeSelector = d.nodeSelector
  tolerations : want.tolerations = d.tolerations
  volumes : want.volumes = d.volumes
  containers : ∀ container ∈ want.containers, Keyed.Has Container.name d.containers container

theorem meets_mutate (h : Rendered want) : Meets want (mutate owner want d) where
  labels _ hmem := Keyed.has_setAll h.labels hmem
  annotations _ hmem := Keyed.has_setAll h.annotations hmem
  selector := by
    show (d.selector.or want.selector).or want.selector = d.selector.or want.selector
    rw [Option.or_assoc, Option.or_self]
  podLabels _ hmem := Keyed.has_setAll h.podLabels hmem
  hostNetwork := rfl
  nodeSelector := rfl
  tolerations := rfl
  volumes := rfl
  containers _ hmem := Keyed.has_setAll h.containers hmem

theorem mem_owners_mutate : owner ∈ (mutate owner want d).owners := by
  rw [mutate]
  split
  · next hmem => exact hmem
  · exact mem_append_right _ (mem_singleton_self owner)

theorem owners_mutate_subset : d.owners ⊆ (mutate owner want d).owners := by
  intro other hother
  rw [mutate]
  split
  · exact hother
  · exact mem_append_left _ hother

theorem Meets.mutate_eq_self (h : Meets want d) (howner : owner ∈ d.owners) :
    mutate owner want d = d := by
  rw [mutate, Keyed.setAll_eq_self h.labels, Keyed.setAll_eq_self h.annotations, h.selector,
    Keyed.setAll_eq_self h.podLabels, h.hostNetwork, h.nodeSelector, h.tolerations, h.volumes,
    Keyed.setAll_eq_self h.containers, if_pos howner]

variable {live : Option (Stored ρ)}

theorem shown_ensureDaemonSet : (ensureDaemonSet fill owner want live).shown =
      mutate owner want ((live.map Stored.shown).getD blank) := by
  cases live with
  | none => rfl
  | some live =>
    rw [ensureDaemonSet]
    split
    · next heq => exact heq.symm
    · rfl

theorem ensureDaemonSet_eq_self_iff (hwant : Rendered want) {live : Stored ρ} :
    ensureDaemonSet fill owner want (some live) = live ↔
      Meets want live.shown ∧ owner ∈ live.shown.owners := by
  constructor
  · intro h
    have hshown : mutate owner want live.shown = live.shown :=
      shown_ensureDaemonSet.symm.trans (congrArg Stored.shown h)
    rw [← hshown]
    exact ⟨meets_mutate hwant, mem_owners_mutate⟩
  · rintro ⟨hmeets, howner⟩
    rw [ensureDaemonSet, hmeets.mutate_eq_self howner]
    exact if_pos rfl

/-- The object is there, has what is rendered, and is the owner's. -/
def Stands (want : DaemonSet) (owner : String) (live : Option (Stored ρ)) : Prop :=
  ∃ d, live = some d ∧ Meets want d.shown ∧ owner ∈ d.shown.owners

theorem stands_ensureDaemonSet (hwant : Rendered want) :
    Stands want owner (some (ensureDaemonSet fill owner want live)) := by
  refine ⟨_, rfl, ?_⟩
  rw [shown_ensureDaemonSet]
  exact ⟨meets_mutate hwant, mem_owners_mutate⟩

theorem Stands.ensureDaemonSet {other : String} (hwant : Rendered want)
    (h : Stands want owner live) :
    Stands want owner (some (ensureDaemonSet fill other want live)) := by
  obtain ⟨d, rfl, -, howner⟩ := h
  refine ⟨_, rfl, ?_⟩
  rw [shown_ensureDaemonSet]
  exact ⟨meets_mutate hwant, owners_mutate_subset howner⟩

theorem ensureDaemonSet_eq_some_iff (hwant : Rendered want) :
    some (Underlay.ensureDaemonSet fill owner want live) = live ↔ Stands want owner live := by
  cases live with
  | none => simp [Stands]
  | some live =>
    rw [Option.some_inj, ensureDaemonSet_eq_self_iff hwant]
    simp [Stands]

end Writes

theorem rendered_workaroundDaemonSet {name reason removeWhen : String} {nodeSelector : Settings}
    {volumes : List HostPath} {container : Container} :
    Rendered (workaroundDaemonSet name reason removeWhen nodeSelector volumes container) where
  labels := by simp [workaroundDaemonSet]
  annotations := by simp [workaroundDaemonSet]
  podLabels := by simp [workaroundDaemonSet]
  containers := by simp [workaroundDaemonSet]

theorem Meets.container {name reason removeWhen : String} {nodeSelector : Settings}
    {volumes : List HostPath} {container : Container} {d : DaemonSet}
    (h : Meets (workaroundDaemonSet name reason removeWhen nodeSelector volumes container) d) :
    Keyed.Has Container.name d.containers container :=
  h.containers container (mem_singleton_self container)

section Passes

variable {cluster : Cluster} {underlays : List ManagedUnderlay} {v : ManagedUnderlay} {pass : Pass}
  {w w' : World ρ} {s t : State ρ} {finished : Bool}

/-- What a pass may do. -/
structure Passed (fill : DaemonSet → Option ρ → ρ) (cluster : Cluster) (pass : Pass)
    (w w' : World ρ) (finished : Bool) : Prop where
  networks : w'.networks = w.networks ∧ finished = false ∨
    ensureProviderNetwork pass.underlay w.networks = some w'.networks
  watcher : w'.watcher = w.watcher ∧ (finished = true → watches pass.underlay = false) ∨
    watches pass.underlay = true ∧
      ensureProviderNetwork pass.underlay w.networks = some w'.networks ∧
      ∃ listed, pass.listed = some listed ∧ w'.watcher = some (ensureDaemonSet fill
        pass.underlay.name (wantedWatcher cluster pass.underlay listed) w.watcher)
  exempt : w'.exempt = w.exempt ∧ (finished = true →
      exempts cluster pass.underlay = false ∨ ciliumNamespace cluster pass.underlay = "") ∨
    exempts cluster pass.underlay = true ∧ ciliumNamespace cluster pass.underlay ≠ "" ∧
      w'.exempt = fun name => if name = ciliumNamespace cluster pass.underlay then
        some (ensureDaemonSet fill pass.underlay.name (ciliumExempt pass.underlay) (w.exempt name))
        else w.exempt name

theorem of_ensureWatcher (h : ensureWatcher fill cluster pass w = (w', finished)) :
    w'.networks = w.networks ∧ w'.exempt = w.exempt ∧
      (w'.watcher = w.watcher ∧ (finished = true → watches pass.underlay = false) ∨
        watches pass.underlay = true ∧ ∃ listed, pass.listed = some listed ∧
          w'.watcher = some (ensureDaemonSet fill pass.underlay.name
            (wantedWatcher cluster pass.underlay listed) w.watcher)) := by
  rw [ensureWatcher] at h
  split at h
  · next hoff =>
    obtain ⟨rfl, rfl⟩ := Prod.mk.inj h
    exact ⟨rfl, rfl, .inl ⟨rfl, fun _ => hoff⟩⟩
  · next hon =>
    split at h
    · obtain ⟨rfl, rfl⟩ := Prod.mk.inj h
      exact ⟨rfl, rfl, .inl ⟨rfl, by simp⟩⟩
    · next listed hlisted =>
      split at h
      · obtain ⟨rfl, rfl⟩ := Prod.mk.inj h
        exact ⟨rfl, rfl, .inl ⟨rfl, by simp⟩⟩
      · obtain ⟨rfl, rfl⟩ := Prod.mk.inj h
        exact ⟨rfl, rfl, .inr ⟨by simpa using hon, listed, hlisted, rfl⟩⟩

theorem of_ensureExempt (h : ensureExempt fill cluster pass w = (w', finished)) :
    w'.networks = w.networks ∧ w'.watcher = w.watcher ∧
      (w'.exempt = w.exempt ∧ (finished = true →
          exempts cluster pass.underlay = false ∨ ciliumNamespace cluster pass.underlay = "") ∨
        exempts cluster pass.underlay = true ∧ ciliumNamespace cluster pass.underlay ≠ "" ∧
          w'.exempt = fun name => if name = ciliumNamespace cluster pass.underlay then
            some (ensureDaemonSet fill pass.underlay.name (ciliumExempt pass.underlay)
              (w.exempt name)) else w.exempt name) := by
  simp only [ensureExempt] at h
  split at h
  · obtain ⟨rfl, rfl⟩ := Prod.mk.inj h
    exact ⟨rfl, rfl, .inl ⟨rfl, by simp⟩⟩
  · split at h
    · next hoff =>
      obtain ⟨rfl, rfl⟩ := Prod.mk.inj h
      exact ⟨rfl, rfl, .inl ⟨rfl, fun _ => hoff⟩⟩
    · next hon =>
      rw [not_or] at hon
      split at h
      · obtain ⟨rfl, rfl⟩ := Prod.mk.inj h
        exact ⟨rfl, rfl, .inl ⟨rfl, by simp⟩⟩
      · obtain ⟨rfl, rfl⟩ := Prod.mk.inj h
        refine ⟨rfl, rfl, .inr ⟨by simpa using hon.1, hon.2, ?_⟩⟩
        funext name
        by_cases hname : name = ciliumNamespace cluster pass.underlay
        · simp [hname]
        · simp [hname]

theorem passed_reconcile (h : reconcile fill cluster pass w = (w', finished)) :
    Passed fill cluster pass w w' finished := by
  rw [reconcile] at h
  split at h
  · obtain ⟨rfl, rfl⟩ := Prod.mk.inj h
    exact ⟨.inl ⟨rfl, rfl⟩, .inl ⟨rfl, by simp⟩, .inl ⟨rfl, by simp⟩⟩
  · next networks hnetworks =>
    split at h
    · obtain ⟨rfl, rfl⟩ := Prod.mk.inj h
      exact ⟨.inl ⟨rfl, rfl⟩, .inl ⟨rfl, by simp⟩, .inl ⟨rfl, by simp⟩⟩
    · split at h
      · obtain ⟨rfl, rfl⟩ := Prod.mk.inj h
        exact ⟨.inr hnetworks, .inl ⟨rfl, by simp⟩, .inl ⟨rfl, by simp⟩⟩
      · generalize hworkarounds : ensureWorkarounds fill cluster pass
          { w with networks := networks } = result at h
        obtain ⟨x, done⟩ := result
        obtain ⟨rfl, rfl⟩ := Prod.mk.inj h
        rw [ensureWorkarounds] at hworkarounds
        split at hworkarounds
        · next first hfirst =>
          obtain ⟨rfl, rfl⟩ := Prod.mk.inj hworkarounds
          obtain ⟨hsame, hexempt, hwatcher⟩ := of_ensureWatcher hfirst
          refine ⟨.inr (by rw [hsame]; exact hnetworks), ?_, .inl ⟨hexempt, by simp⟩⟩
          obtain ⟨hstays, -⟩ | ⟨hon, listed, hlisted, hwritten⟩ := hwatcher
          · exact .inl ⟨hstays, by simp⟩
          · exact .inr ⟨hon, by rw [hsame]; exact hnetworks, listed, hlisted, hwritten⟩
        · next first hfirst =>
          obtain ⟨hsame, hexempt, hwatcher⟩ := of_ensureWatcher hfirst
          obtain ⟨hsame', hwatcher', hexempt'⟩ := of_ensureExempt hworkarounds
          have hthere : ensureProviderNetwork pass.underlay w.networks = some x.networks := by
            rw [hsame', hsame]
            exact hnetworks
          refine ⟨.inr hthere, ?_, ?_⟩
          · rw [hwatcher']
            obtain ⟨hstays, hoff⟩ | ⟨hon, hwritten⟩ := hwatcher
            · exact .inl ⟨hstays, fun _ => hoff rfl⟩
            · exact .inr ⟨hon, hthere, hwritten⟩
          · rw [hexempt] at hexempt'
            obtain ⟨hstays, hoff⟩ | hwritten := hexempt'
            · exact .inl ⟨hstays, fun hdone => hoff (Bool.and_eq_true_iff.mp hdone).1⟩
            · exact .inr hwritten

theorem of_next (h : next fill cluster underlays s pass = some t) :
    ∃ finished, Passed fill cluster pass s.world t.world finished ∧ pass.underlay ∈ underlays ∧
      (∀ listed, pass.listed = some listed → listed.Perm t.world.networks) ∧
      ∀ u ∈ t.reconciled, u = pass.underlay ∧ finished = true ∨
        u ∈ s.reconciled ∧ t.world.networks = s.world.networks := by
  rw [next] at h
  generalize hpass : reconcile fill cluster pass s.world = result at h
  obtain ⟨w', finished⟩ := result
  dsimp only at h
  split at h
  · next hlegal =>
    obtain rfl := Option.some.inj h
    refine ⟨finished, passed_reconcile hpass, hlegal.1, hlegal.2, fun u hu => ?_⟩
    dsimp only at hu ⊢
    cases finished with
    | true =>
      rw [if_pos rfl, mem_cons] at hu
      obtain rfl | hu := hu
      · exact .inl ⟨rfl, rfl⟩
      · split at hu
        · next hsame => exact .inr ⟨hu, hsame⟩
        · contradiction
    | false =>
      rw [if_neg (by simp)] at hu
      split at hu
      · next hsame => exact .inr ⟨hu, hsame⟩
      · contradiction
  · contradiction

end Passes

end Underlay
