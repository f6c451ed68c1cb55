import KubevirtUi.Underlay.Settle

/-!
# Underlays that agree

Once all underlays have been reconciled, their ProviderNetworks stay. The shared objects stay too
exactly where the underlays that render one object give it one image. With another image each pass
undoes the last one's.
-/

namespace Underlay

open Machine Option

section Shared

variable {ρ : Type} {fill : DaemonSet → Option ρ → ρ} {cluster : Cluster}
  {underlays : List ManagedUnderlay} {u v : ManagedUnderlay} {pass : Pass} {w : World ρ}
  {s t : State ρ} {networks networks' listed : List ProviderNetwork}

/-- The loop of the watcher is over these names. -/
def Loops (d : DaemonSet) (interfaces : List String) : Prop :=
  ∃ container, d.containers.find? (fun container => container.name = "link-up") = some container ∧
    container.args = [linkWatcherScript interfaces]

/-- The watcher is there if it is wanted, it raises what the ProviderNetworks name and nothing else,
and no pass writes it or an exemption. -/
structure Settled (fill : DaemonSet → Option ρ → ρ) (cluster : Cluster)
    (underlays : List ManagedUnderlay) (s : State ρ) : Prop where
  still : ∀ pass t, next fill cluster underlays s pass = some t →
    t.world.watcher = s.world.watcher ∧ t.world.exempt = s.world.exempt
  there : (∃ u ∈ underlays, watches u = true) → s.world.watcher ≠ none
  raises : ∀ live, s.world.watcher = some live → ∃ interfaces, Loops live.shown interfaces ∧
    ∀ name, name ∈ interfaces ↔ Provided s.world.networks name

/-- Those that render one object give it one image. -/
structure Agree (cluster : Cluster) (underlays : List ManagedUnderlay) : Prop where
  watcher : ∀ u ∈ underlays, ∀ v ∈ underlays, watches u = true → watches v = true →
    watcherImage u cluster.cniImage = watcherImage v cluster.cniImage
  exempt : ∀ u ∈ underlays, ∀ v ∈ underlays, exempts cluster u = true → exempts cluster v = true →
    ciliumNamespace cluster u = ciliumNamespace cluster v → ciliumNamespace cluster u ≠ "" →
      exemptImage u = exemptImage v

theorem Meets.loops {interfaces : List String} {image : String} {d : DaemonSet}
    (h : Meets (linkWatcher u image interfaces) d) : Loops d interfaces :=
  ⟨_, h.container, rfl⟩

theorem wantedWatcher_eq (hu : ensureProviderNetwork u networks = some networks')
    (hv : ensureProviderNetwork v networks = some networks') (hlisted : listed.Perm networks')
    (himage : watcherImage v cluster.cniImage = watcherImage u cluster.cniImage) :
    wantedWatcher cluster v listed = wantedWatcher cluster u networks' := by
  have hsame : watchedInterfaces v.interface (allProviderInterfaces listed) =
      watchedInterfaces u.interface (allProviderInterfaces networks') := by
    apply watchedInterfaces_congr
    intro name
    rw [mem_watchedInterfaces_iff hv hlisted, mem_watchedInterfaces_iff hu (.refl networks')]
  rw [wantedWatcher, wantedWatcher, hsame, linkWatcher, linkWatcher, himage]

theorem ciliumExempt_eq (himage : exemptImage v = exemptImage u) :
    ciliumExempt v = ciliumExempt u := by
  rw [ciliumExempt, ciliumExempt, himage]

theorem rendered_wantedWatcher : Rendered (wantedWatcher cluster u networks) :=
  rendered_workaroundDaemonSet

theorem rendered_ciliumExempt : Rendered (ciliumExempt u) := rendered_workaroundDaemonSet

/-- Who has been reconciled finds the ProviderNetworks as he wants them. -/
structure Kept (underlays : List ManagedUnderlay) (s : State ρ) : Prop where
  mine : ∀ u ∈ s.reconciled, u ∈ underlays
  network : ∀ u ∈ s.reconciled,
    ensureProviderNetwork u s.world.networks = some s.world.networks

theorem Kept.passed (h : Kept underlays s) (hstep : next fill cluster underlays s pass = some t) :
    Kept underlays t := by
  obtain ⟨finished, hpassed, hmine, -, hreconciled⟩ := of_next hstep
  constructor
  · intro u hu
    obtain ⟨rfl, -⟩ | ⟨hbefore, -⟩ := hreconciled u hu
    · exact hmine
    · exact h.mine u hbefore
  · intro u hu
    obtain ⟨rfl, rfl⟩ | ⟨hbefore, hsame⟩ := hreconciled u hu
    · obtain ⟨-, hfailed⟩ | hwritten := hpassed.networks
      · contradiction
      · exact ensureProviderNetwork_again hwritten
    · rw [hsame]
      exact h.network u hbefore

/-- He finds the shared objects so, too. -/
structure Standing (cluster : Cluster) (s : State ρ) : Prop where
  watcher : ∀ u ∈ s.reconciled, watches u = true →
    Stands (wantedWatcher cluster u s.world.networks) u.name s.world.watcher
  exempt : ∀ u ∈ s.reconciled, exempts cluster u = true → ciliumNamespace cluster u ≠ "" →
    Stands (ciliumExempt u) u.name (s.world.exempt (ciliumNamespace cluster u))

/-- Where the underlays agree, no pass takes from another one what it has written. -/
theorem Standing.passed (hagree : Agree cluster underlays) (hkept : Kept underlays s)
    (h : Standing cluster s) (hstep : next fill cluster underlays s pass = some t) :
    Standing cluster t := by
  have hthere := hkept.passed hstep
  obtain ⟨finished, hpassed, hmine, hlisted, hreconciled⟩ := of_next hstep
  constructor
  · intro u hu hon
    obtain ⟨hstays, hoff⟩ | ⟨hon', hnetwork, listed, hread, hwritten⟩ := hpassed.watcher
    · obtain ⟨rfl, rfl⟩ | ⟨hbefore, hsame⟩ := hreconciled u hu
      · rw [hoff rfl] at hon
        contradiction
      · rw [hstays, hsame]
        exact h.watcher u hbefore hon
    · have himage := hagree.watcher _ hmine u (hthere.mine u hu) hon' hon
      have hwant : wantedWatcher cluster pass.underlay listed =
          wantedWatcher cluster u t.world.networks :=
        wantedWatcher_eq (hthere.network u hu) (ensureProviderNetwork_again hnetwork)
          (hlisted listed hread) himage
      rw [hwritten, hwant]
      obtain ⟨rfl, -⟩ | ⟨hbefore, hsame⟩ := hreconciled u hu
      · exact stands_ensureDaemonSet rendered_wantedWatcher
      · rw [hsame]
        exact (h.watcher u hbefore hon).ensureDaemonSet rendered_wantedWatcher
  · intro u hu hon hne
    obtain ⟨hstays, hoff⟩ | ⟨hon', -, hwritten⟩ := hpassed.exempt
    · obtain ⟨rfl, rfl⟩ | ⟨hbefore, -⟩ := hreconciled u hu
      · obtain hoff | hempty := hoff rfl
        · rw [hoff] at hon
          contradiction
        · exact absurd hempty hne
      · rw [hstays]
        exact h.exempt u hbefore hon hne
    · rw [hwritten]
      dsimp only
      split
      · next hname =>
        have himage := hagree.exempt _ hmine u (hthere.mine u hu) hon' hon hname.symm (hname ▸ hne)
        rw [ciliumExempt_eq himage]
        obtain ⟨rfl, -⟩ | ⟨hbefore, -⟩ := hreconciled u hu
        · exact stands_ensureDaemonSet rendered_ciliumExempt
        · exact (h.exempt u hbefore hon hne).ensureDaemonSet rendered_ciliumExempt
      · next hname =>
        obtain ⟨rfl, -⟩ | ⟨hbefore, -⟩ := hreconciled u hu
        · exact absurd rfl hname
        · exact h.exempt u hbefore hon hne

theorem watcher_eq_of_next (hoff : ∀ u ∈ underlays, watches u = false)
    (hstep : next fill cluster underlays s pass = some t) : t.world.watcher = s.world.watcher := by
  obtain ⟨finished, hpassed, hmine, -, -⟩ := of_next hstep
  obtain ⟨hstays, -⟩ | ⟨hon, -⟩ := hpassed.watcher
  · exact hstays
  · rw [hoff _ hmine] at hon
    contradiction

/-- What the watcher raises and a ProviderNetwork names is raised after the pass. -/
theorem loops_of_next (hstep : next fill cluster underlays s pass = some t) {live : Stored ρ}
    (hlive : s.world.watcher = some live) {interfaces : List String} {name : String}
    (hloops : Loops live.shown interfaces) (hname : name ∈ interfaces)
    (hprovided : Provided t.world.networks name) :
    ∃ live interfaces, t.world.watcher = some live ∧ Loops live.shown interfaces ∧
      name ∈ interfaces := by
  obtain ⟨finished, hpassed, -, hlisted, -⟩ := of_next hstep
  obtain ⟨hstays, -⟩ | ⟨-, hnetwork, listed, hread, hwritten⟩ := hpassed.watcher
  · exact ⟨live, interfaces, hstays.trans hlive, hloops, hname⟩
  · refine ⟨_, _, hwritten, ?_, (mem_watchedInterfaces_iff hnetwork (hlisted listed hread)).mpr
      hprovided⟩
    rw [shown_ensureDaemonSet]
    exact (meets_mutate rendered_wantedWatcher).loops

/-- A pass in which everything is answered. -/
def answered (u : ManagedUnderlay) (networks : List ProviderNetwork) : Pass :=
  ⟨u, true, true, some networks, true, true, true, true⟩

theorem next_answered (hmine : u ∈ underlays)
    (hnetwork : ensureProviderNetwork u s.world.networks = some s.world.networks) :
    ∃ t, next fill cluster underlays s (answered u s.world.networks) = some t ∧
      (watches u = true → t.world.watcher = some (ensureDaemonSet fill u.name
        (wantedWatcher cluster u s.world.networks) s.world.watcher)) ∧
      (exempts cluster u = true → ciliumNamespace cluster u ≠ "" →
        t.world.exempt (ciliumNamespace cluster u) = some (ensureDaemonSet fill u.name
          (ciliumExempt u) (s.world.exempt (ciliumNamespace cluster u)))) := by
  cases hw : watches u <;> cases hx : exempts cluster u <;>
    by_cases hne : ciliumNamespace cluster u = "" <;>
    simp [next, reconcile, ensureWorkarounds, ensureWatcher, ensureExempt, answered, hmine,
      hnetwork, hw, hx, hne]

theorem Settled.standing (h : Settled fill cluster underlays s) (hkept : Kept underlays s) :
    Standing cluster s := by
  constructor
  · intro u hu hon
    obtain ⟨t, hstep, hwatcher, -⟩ :=
      @next_answered ρ fill cluster underlays u s (hkept.mine u hu) (hkept.network u hu)
    have hsame := (h.still _ t hstep).1
    rw [hwatcher hon] at hsame
    exact (ensureDaemonSet_eq_some_iff rendered_wantedWatcher).mp hsame
  · intro u hu hon hne
    obtain ⟨t, hstep, -, hexempt⟩ :=
      @next_answered ρ fill cluster underlays u s (hkept.mine u hu) (hkept.network u hu)
    have hsame := (h.still _ t hstep).2
    have hwritten := hexempt hon hne
    rw [hsame] at hwritten
    exact (ensureDaemonSet_eq_some_iff rendered_ciliumExempt).mp hwritten.symm

theorem Standing.agree (h : Standing cluster s) (hall : ∀ u ∈ underlays, u ∈ s.reconciled) :
    Agree cluster underlays := by
  constructor
  · intro u hu v hv hon hon'
    obtain ⟨d, hd, hmeets, -⟩ := h.watcher u (hall u hu) hon
    obtain ⟨d', hd', hmeets', -⟩ := h.watcher v (hall v hv) hon'
    obtain rfl := mem_unique hd hd'
    exact congrArg Container.image (mem_unique hmeets.container hmeets'.container)
  · intro u hu v hv hon hon' hname hne
    obtain ⟨d, hd, hmeets, -⟩ := h.exempt u (hall u hu) hon hne
    obtain ⟨d', hd', hmeets', -⟩ := h.exempt v (hall v hv) hon' (hname ▸ hne)
    rw [← hname] at hd'
    obtain rfl := mem_unique hd hd'
    exact congrArg Container.image (mem_unique hmeets.container hmeets'.container)

theorem Standing.still (hkept : Kept underlays s) (h : Standing cluster s)
    (hall : ∀ u ∈ underlays, u ∈ s.reconciled)
    (hstep : next fill cluster underlays s pass = some t) :
    t.world.watcher = s.world.watcher ∧ t.world.exempt = s.world.exempt := by
  obtain ⟨finished, hpassed, hmine, hlisted, -⟩ := of_next hstep
  have hhere := hkept.network _ (hall _ hmine)
  constructor
  · obtain ⟨hstays, -⟩ | ⟨hon, hnetwork, listed, hread, hwritten⟩ := hpassed.watcher
    · exact hstays
    · have hsame : t.world.networks = s.world.networks :=
        mem_unique hnetwork hhere
      have hwant : wantedWatcher cluster pass.underlay listed =
          wantedWatcher cluster pass.underlay s.world.networks :=
        wantedWatcher_eq hhere hhere (hsame ▸ hlisted listed hread) rfl
      rw [hwritten, hwant]
      exact (ensureDaemonSet_eq_some_iff rendered_wantedWatcher).mpr
        (h.watcher _ (hall _ hmine) hon)
  · obtain ⟨hstays, -⟩ | ⟨hon, hne, hwritten⟩ := hpassed.exempt
    · exact hstays
    · rw [hwritten]
      funext name
      split
      · next hname =>
        subst hname
        exact (ensureDaemonSet_eq_some_iff rendered_ciliumExempt).mpr
          (h.exempt _ (hall _ hmine) hon hne)
      · rfl

theorem Standing.settled (hkept : Kept underlays s) (h : Standing cluster s)
    (hall : ∀ u ∈ underlays, u ∈ s.reconciled)
    (hraises : (∃ u ∈ underlays, watches u = true) ∨ ∀ live, s.world.watcher = some live →
      ∃ interfaces, Loops live.shown interfaces ∧
        ∀ name, name ∈ interfaces ↔ Provided s.world.networks name) :
    Settled fill cluster underlays s where
  still _ _ hstep := h.still hkept hall hstep
  there := by
    rintro ⟨u, hu, hon⟩
    obtain ⟨d, hd, -⟩ := h.watcher u (hall u hu) hon
    rw [hd]
    exact some_ne_none d
  raises := by
    intro live hlive
    obtain ⟨u, hu, hon⟩ | hraises := hraises
    · obtain ⟨d, hd, hmeets, -⟩ := h.watcher u (hall u hu) hon
      obtain rfl := mem_unique hd hlive
      refine ⟨_, hmeets.loops, fun name => ?_⟩
      exact mem_watchedInterfaces_iff (hkept.network u (hall u hu)) (.refl _)
    · exact hraises live hlive

theorem kept_of_run (h : Run (next fill cluster underlays) (fun _ _ => True) ⟨w, []⟩ s) :
    Kept underlays s := by
  apply h.invariant (P := Kept underlays)
  · exact ⟨by simp, by simp⟩
  · intro t u pass hkept _ hstep
    exact hkept.passed hstep

theorem standing_of_run (hagree : Agree cluster underlays)
    (h : Run (next fill cluster underlays) (fun _ _ => True) ⟨w, []⟩ s) : Standing cluster s := by
  have hboth : Kept underlays s ∧ Standing cluster s := by
    apply h.invariant (P := fun s => Kept underlays s ∧ Standing cluster s)
    · exact ⟨⟨by simp, by simp⟩, ⟨by simp, by simp⟩⟩
    · intro t u pass hinv _ hstep
      exact ⟨hinv.1.passed hstep, hinv.2.passed hagree hinv.1 hstep⟩
  exact hboth.2

theorem watcher_eq_of_run (hoff : ∀ u ∈ underlays, watches u = false)
    (h : Run (next fill cluster underlays) (fun _ _ => True) ⟨w, []⟩ s) :
    s.world.watcher = w.watcher := by
  apply h.invariant (P := fun s => s.world.watcher = w.watcher) rfl
  intro t u pass hsame _ hstep
  exact (watcher_eq_of_next hoff hstep).trans hsame

/-- No pass drops a name that a ProviderNetwork has. Once all have been reconciled, the shared
objects are settled exactly where the underlays agree and one wants the watcher, or the one from
before raises the right names by itself. -/
theorem settled_iff : (∀ s pass t, next fill cluster underlays s pass = some t →
      ∀ live interfaces name, s.world.watcher = some live → Loops live.shown interfaces →
        name ∈ interfaces → Provided t.world.networks name →
          ∃ live interfaces, t.world.watcher = some live ∧ Loops live.shown interfaces ∧
            name ∈ interfaces) ∧
    ∀ w s, Run (next fill cluster underlays) (fun _ _ => True) ⟨w, []⟩ s →
      (∀ u ∈ underlays, u ∈ s.reconciled) →
      (Settled fill cluster underlays s ↔ Agree cluster underlays ∧
        ((∃ u ∈ underlays, watches u = true) ∨ ∀ live, w.watcher = some live →
          ∃ interfaces, Loops live.shown interfaces ∧
            ∀ name, name ∈ interfaces ↔ Provided s.world.networks name)) := by
  constructor
  · intro s pass t hstep live interfaces name hlive hloops hname hprovided
    exact loops_of_next hstep hlive hloops hname hprovided
  · intro w s hrun hall
    have hkept := kept_of_run hrun
    have hwatched : (∃ u ∈ underlays, watches u = true) ∨ ∀ u ∈ underlays, watches u = false := by
      refine or_iff_not_imp_left.mpr fun hno u hu => ?_
      simpa using fun hwatches => hno ⟨u, hu, hwatches⟩
    constructor
    · intro h
      refine ⟨(h.standing hkept).agree hall, ?_⟩
      refine hwatched.imp_right fun hoff => ?_
      rw [← watcher_eq_of_run hoff hrun]
      exact h.raises
    · rintro ⟨hagree, hraises⟩
      refine (standing_of_run hagree hrun).settled hkept hall ?_
      refine hwatched.imp_right fun hoff => ?_
      rw [watcher_eq_of_run hoff hrun]
      exact hraises.resolve_left fun ⟨u, hu, hon⟩ => absurd hon (by simp [hoff u hu])

end Shared

/-- An underlay of its own ProviderNetwork. -/
def underlay (name interface image : String) : ManagedUnderlay :=
  ⟨name, interface, name, none, image, "", none, ""⟩

/-- A cluster without Cilium. -/
def plain : Cluster := ⟨"", false, ""⟩

def bare : World Unit := ⟨[], none, fun _ => none⟩

def network (name interface : String) : ProviderNetwork := ⟨name, interface, [], some name⟩

/-- Two underlays, and the image that the second one gives the watcher. -/
def pair (image : String) : List ManagedUnderlay :=
  [underlay "a" "eth1" "busybox:1", underlay "b" "eth2" image]

theorem exists_run (image : String) (himage : image = "busybox:1" ∨ image = "busybox:2") :
    ∃ s : State Unit,
      Run (next (fun _ _ => ()) plain (pair image)) (fun _ _ => True) ⟨bare, []⟩ s ∧
        ∀ u ∈ pair image, u ∈ s.reconciled := by
  have hrun (image : String) (h : (play (next (fun _ _ => ()) plain (pair image)) (fun _ _ => True)
      ⟨bare, []⟩ [answered (underlay "a" "eth1" "busybox:1") [network "a" "eth1"],
        answered (underlay "b" "eth2" image) [network "a" "eth1", network "b" "eth2"],
        answered (underlay "a" "eth1" "busybox:1") [network "a" "eth1", network "b" "eth2"]]).any
      (fun s => decide (∀ u ∈ pair image, u ∈ s.reconciled)) = true) := exists_run_of_play _ h
  obtain rfl | rfl := himage
  · obtain ⟨s, hs, hall⟩ := hrun "busybox:1" (by decide +kernel)
    exact ⟨s, hs, of_decide_eq_true hall⟩
  · obtain ⟨s, hs, hall⟩ := hrun "busybox:2" (by decide +kernel)
    exact ⟨s, hs, of_decide_eq_true hall⟩

theorem not_settled : ∃ s : State Unit,
    Run (next (fun _ _ => ()) plain (pair "busybox:2")) (fun _ _ => True) ⟨bare, []⟩ s ∧
      (∀ u ∈ pair "busybox:2", u ∈ s.reconciled) ∧
      ¬Settled (fun _ _ => ()) plain (pair "busybox:2") s := by
  obtain ⟨s, hrun, hall⟩ := exists_run "busybox:2" (.inr rfl)
  refine ⟨s, hrun, hall, fun hsettled => ?_⟩
  have hagree := (hsettled.standing (kept_of_run hrun)).agree hall
  have himage : "busybox:1" = "busybox:2" :=
    hagree.watcher _ (List.mem_cons_self) _ (List.mem_cons_of_mem _ List.mem_cons_self) rfl rfl
  contradiction

theorem settled_pair : ∃ s : State Unit,
    Run (next (fun _ _ => ()) plain (pair "busybox:1")) (fun _ _ => True) ⟨bare, []⟩ s ∧
      Settled (fun _ _ => ()) plain (pair "busybox:1") s := by
  obtain ⟨s, hrun, hall⟩ := exists_run "busybox:1" (.inl rfl)
  refine ⟨s, hrun, (settled_iff.2 bare s hrun hall).mpr ⟨?_, .inl ⟨_, List.mem_cons_self, rfl⟩⟩⟩
  constructor
  · decide
  · decide

end Underlay
