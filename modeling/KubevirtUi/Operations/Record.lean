import KubevirtUi.Operations.Owed

/-!
# A finished operation is a record

A pass changes no operation but its own, and of that only the status, wherever it is stopped and
whatever it finds. So an operation stays the request that was submitted, and one that has ended
stays as it is, also where names are used twice.
-/

namespace Operations

open List Option AList

section Mine

variable {isQuantity : String → Bool} {s t : Cluster} {op start : Operation} {vm : ManagedVM}
  {writes : List Write} {pass : Pass}

/-- Of the operations a pass changes nothing but the status of its own, which stays the request. -/
structure Pass.Mine (pass : Pass) (start : Operation) : Prop where
  writes : ∀ op, Write.status op ∉ pass.writes
  status : ∀ op, pass.status = some op → op.Continues start

theorem mine_some (hwrites : ∀ op, Write.status op ∉ writes) (h : op.Continues start) :
    Pass.Mine ⟨writes, some op⟩ start :=
  ⟨hwrites, fun _ hop => Option.some.inj hop ▸ h⟩

theorem mine_none : Pass.Mine ⟨[], none⟩ start :=
  ⟨fun _ => List.not_mem_nil, fun _ hno => by contradiction⟩

theorem Pass.Mine.trans {other : Operation} (h : pass.Mine other) (hop : other.Continues op) :
    pass.Mine op where
  writes := h.writes
  status last hlast :=
    have hlast := h.status last hlast
    ⟨hlast.name.trans hop.name, hlast.uid.trans hop.uid, hlast.vmName.trans hop.vmName,
      hlast.action.trans hop.action⟩

theorem not_status_ensureStopped (op : Operation) : Write.status op ∉ (ensureStopped s vm).1 := by
  obtain h | ⟨kvm, -, h⟩ := ensureStopped_cases s vm <;> simp [h]

theorem not_status_restoreRunState (op start : Operation) :
    Write.status op ∉ restoreRunState start vm := by
  unfold restoreRunState
  split
  · exact List.not_mem_nil
  · split <;> simp

theorem not_status_adoptClone (op start : Operation) {startAfterClone : Bool} :
    Write.status op ∉ adoptClone s start vm startAfterClone := by
  unfold adoptClone
  split <;> simp

theorem mine_restoring {snapshotName source : String} {snapshot : VolumeSnapshot}
    (hpass : restoring isQuantity s op snapshotName snapshot source = some pass) :
    pass.Mine op := by
  unfold restoring at hpass
  split at hpass
  · split at hpass <;> obtain rfl := Option.some.inj hpass
    · exact mine_none
    · exact mine_some (by simp) ⟨rfl, rfl, rfl, rfl⟩
  · obtain ⟨-, hpass⟩ := Option.ite_none_right_eq_some.mp hpass
    obtain rfl := Option.some.inj hpass
    exact mine_some (by simp) ⟨rfl, rfl, rfl, rfl⟩

theorem mine_moveRootDisk {kvm : VirtualMachine} {current waiting verb done : String} :
    (moveRootDisk s op vm kvm current waiting verb done).Mine op := by
  have hstop := @not_status_ensureStopped s vm
  unfold moveRootDisk
  split
  · next hwrites =>
    rw [hwrites] at hstop
    exact mine_some hstop ⟨rfl, rfl, rfl, rfl⟩
  · unfold pointAtRootDisk
    split_ifs <;> refine mine_some (fun other => ?_) ⟨rfl, rfl, rfl, rfl⟩ <;>
      simp [not_status_restoreRunState]

theorem mine_restore {snapshotName : String} : (reconcileRestore s op vm snapshotName).Mine op := by
  unfold reconcileRestore
  dsimp only
  repeat' split
  all_goals refine mine_some (fun other => ?_) ⟨rfl, rfl, rfl, rfl⟩
  all_goals simp [not_status_restoreRunState]

theorem mine_migrate {targetNode : String} : (reconcileMigrate s op vm targetNode).Mine op := by
  unfold reconcileMigrate
  dsimp only
  repeat' split
  all_goals exact mine_some (by simp) ⟨rfl, rfl, rfl, rfl⟩

theorem mine_clone {target : String} {startAfterClone : Bool} :
    (reconcileClone s op vm target startAfterClone).Mine op := by
  unfold reconcileClone
  dsimp only
  repeat' split
  all_goals refine mine_some (fun other => ?_) ⟨rfl, rfl, rfl, rfl⟩
  all_goals simp [not_status_adoptClone]

theorem mine_rollbackRootDisk {snapshotName source : String} {snapshot : VolumeSnapshot} :
    (rollbackRootDisk isQuantity s op vm snapshotName snapshot source).Mine op := by
  unfold rollbackRootDisk
  split
  · exact mine_some (by simp) ⟨rfl, rfl, rfl, rfl⟩
  split
  · exact mine_some (by simp) ⟨rfl, rfl, rfl, rfl⟩
  dsimp only
  split
  · next hpass => exact (mine_restoring hpass).trans ⟨rfl, rfl, rfl, rfl⟩
  · exact mine_moveRootDisk.trans ⟨rfl, rfl, rfl, rfl⟩

theorem mine_rollbackDisk {snapshotName : String} :
    (reconcileRollbackDisk isQuantity s op vm snapshotName).Mine op := by
  have hstop := @not_status_ensureStopped s vm
  unfold reconcileRollbackDisk
  dsimp only
  split
  · exact mine_some (by simp) ⟨rfl, rfl, rfl, rfl⟩
  split
  · exact mine_some (by simp) ⟨rfl, rfl, rfl, rfl⟩
  split
  · exact mine_some (by simp) ⟨rfl, rfl, rfl, rfl⟩
  split
  · split
    · exact mine_rollbackRootDisk
    · exact mine_some (by simp) ⟨rfl, rfl, rfl, rfl⟩
  split
  · next hpass => exact (mine_restoring hpass).trans ⟨rfl, rfl, rfl, rfl⟩
  split
  · next hwrites =>
    rw [hwrites] at hstop
    exact mine_some hstop ⟨rfl, rfl, rfl, rfl⟩
  split
  · exact mine_none
  · refine mine_some (fun other => ?_) ⟨rfl, rfl, rfl, rfl⟩
    split <;> simp [not_status_restoreRunState]

theorem mine_recreate : (reconcileRecreate s op vm).Mine op := by
  unfold reconcileRecreate
  split
  · exact mine_some (by simp) ⟨rfl, rfl, rfl, rfl⟩
  split
  · exact mine_some (by simp) ⟨rfl, rfl, rfl, rfl⟩
  · exact mine_moveRootDisk.trans ⟨rfl, rfl, rfl, rfl⟩

theorem mine_act : (op.act isQuantity s vm).Mine op := by
  unfold Operation.act
  split
  · exact mine_restore
  · exact mine_migrate
  · exact mine_rollbackDisk
  · exact mine_recreate
  · exact mine_clone
  · exact mine_some (by simp) ⟨rfl, rfl, rfl, rfl⟩

theorem exists_mine (start : Operation) (hlive : ¬ start.Finished) :
    ∃ pass : Pass, reconcile isQuantity s start = pass.calls ∧ pass.Mine start := by
  rw [reconcile, if_neg hlive]
  split
  · exact ⟨⟨[], some _⟩, rfl, mine_some (by simp) ⟨rfl, rfl, rfl, rfl⟩⟩
  · exact ⟨_, rfl, mine_act.trans ⟨rfl, rfl, rfl, rfl⟩⟩

/-- A pass that is stopped anywhere has changed no operation, or saved its own. -/
theorem operations_of_pass (s : Cluster) (start : Operation) (cut : Option Nat) :
    (s.pass isQuantity start cut).operations = s.operations ∨
      ¬ start.Finished ∧ ∃ op, op.Continues start ∧
        (s.pass isQuantity start cut).operations = s.operations.insert op.name op := by
  by_cases hfinished : start.Finished
  · exact .inl (by rw [pass_finished hfinished])
  obtain ⟨pass, hcalls, hmine⟩ : ∃ pass : Pass, reconcile isQuantity s start = pass.calls ∧
      pass.Mine start := exists_mine start hfinished
  rw [Cluster.pass, hcalls]
  generalize cut.getD pass.calls.length = n
  rw [Pass.calls, take_append, foldl_append]
  have hwrites : ((pass.writes.take n).foldl Cluster.apply s).operations = s.operations :=
    operations_of_not_status fun op hop => hmine.writes op (mem_of_mem_take hop)
  cases hstatus : pass.status with
  | none =>
    rw [toList_none, map_nil, take_nil]
    exact .inl hwrites
  | some op =>
    rw [toList_some, map_singleton]
    cases n - pass.writes.length with
    | zero => exact .inl hwrites
    | succ n =>
      refine .inr ⟨hfinished, op, hmine.status op hstatus, ?_⟩
      rw [take_succ_cons, take_nil]
      exact congrArg (AList.insert op.name op) hwrites

end Mine

section Record

variable {isQuantity : String → Bool} {s t : Cluster} {name : String} {op : Operation}
  {e : Happening}

/-- What happens to an operation that is not reaped: it is the same request, and stays as it is
once it is finished. -/
def Operation.Lives (op op' : Operation) : Prop := op'.Continues op ∧ (op.Finished → op' = op)

/-- An operation is found under its name. -/
def Cluster.Named (s : Cluster) : Prop :=
  ∀ name op, s.operations.lookup name = some op → op.name = name

theorem Cluster.Named.lives (h : s.Named) (hreap : e ≠ .reap name)
    (hop : s.operations.lookup name = some op) (hstep : s.happen isQuantity e = some t) :
    ∃ op', t.operations.lookup name = some op' ∧ op.Lives op' := by
  have hsame (hops : t.operations.lookup name = some op) :
      ∃ op', t.operations.lookup name = some op' ∧ op.Lives op' :=
    ⟨op, hops, ⟨rfl, rfl, rfl, rfl⟩, fun _ => rfl⟩
  cases e with
  | pass other cut =>
    obtain ⟨start, hstart, rfl⟩ := map_eq_some_iff.mp hstep
    obtain rfl := h other start hstart
    obtain hops | ⟨hlive, last, hcontinues, hops⟩ := operations_of_pass s start cut
    · exact hsame (hops ▸ hop)
    by_cases hname : name = start.name
    · subst hname
      obtain rfl := mem_unique hop hstart
      rw [hops, hcontinues.name]
      exact ⟨last, lookup_insert _, hcontinues, fun h => absurd h hlive⟩
    · apply hsame
      rwa [hops, hcontinues.name, lookup_insert_ne hname]
  | submit other uid vmName action =>
    obtain ⟨hnew, hstep⟩ := ite_none_left_eq_some.mp hstep
    obtain rfl := some.inj hstep
    have hne : name ≠ other := by
      rintro rfl
      exact hnew (.inl (lookup_isSome.mp (isSome_of_eq_some hop)))
    exact hsame ((lookup_insert_ne hne).trans hop)
  | reap other =>
    obtain rfl := some.inj hstep
    have hne : name ≠ other := fun heq => hreap (heq ▸ rfl)
    exact hsame ((lookup_erase_ne hne).trans hop)
  | change change => exact hsame ((rest_of_change hstep).1 ▸ hop)
  | restoring | migrating | cloning =>
    obtain ⟨_, -, rfl⟩ := map_eq_some_iff.mp hstep
    exact hsame hop
  | _ =>
    obtain rfl := some.inj hstep
    exact hsame hop

theorem Cluster.Named.happen (h : s.Named) (hstep : s.happen isQuantity e = some t) : t.Named := by
  have hsame (hops : t.operations = s.operations) : t.Named := fun name op hop =>
    h name op (hops ▸ hop)
  have hinsert (last : Operation) (hops : t.operations = s.operations.insert last.name last) :
      t.Named := by
    intro name op hop
    rw [hops] at hop
    by_cases hname : name = last.name
    · subst hname
      rw [lookup_insert] at hop
      rw [← some.inj hop]
    · rw [lookup_insert_ne hname] at hop
      exact h name op hop
  cases e with
  | pass other cut =>
    obtain ⟨start, -, rfl⟩ := map_eq_some_iff.mp hstep
    obtain hops | ⟨-, last, -, hops⟩ := operations_of_pass s start cut
    · exact hsame hops
    · exact hinsert last hops
  | submit other uid vmName action =>
    obtain ⟨-, hstep⟩ := ite_none_left_eq_some.mp hstep
    obtain rfl := some.inj hstep
    exact hinsert { name := other, uid, vmName, action } rfl
  | reap other =>
    obtain rfl := some.inj hstep
    intro name op hop
    by_cases hname : name = other
    · subst hname
      simp [lookup_erase] at hop
    · exact h name op ((lookup_erase_ne hname).symm.trans hop)
  | change change => exact hsame (rest_of_change hstep).1
  | restoring | migrating | cloning =>
    obtain ⟨_, -, rfl⟩ := map_eq_some_iff.mp hstep
    exact hsame rfl
  | _ =>
    obtain rfl := some.inj hstep
    exact hsame rfl

/-- In every run an operation that is not reaped stays the request that it was, and from when it is
finished on nothing of it changes. -/
theorem record_lives (hbefore : Machine.Run (Cluster.happen isQuantity) (fun _ _ => True) {} s)
    (hop : s.operations.lookup name = some op)
    (hafter : Machine.Run (Cluster.happen isQuantity) (fun _ e => e ≠ .reap name) s t) :
    ∃ op', t.operations.lookup name = some op' ∧ op.Lives op' := by
  have hnamed : s.Named := by
    refine hbefore.invariant (fun name op hno => by contradiction) ?_
    intro u v e hu _ hstep
    exact hu.happen hstep
  refine (hafter.invariant (P := fun t => t.Named ∧ ∃ op', t.operations.lookup name = some op' ∧
    op.Lives op') ⟨hnamed, op, hop, ⟨rfl, rfl, rfl, rfl⟩, fun _ => rfl⟩ ?_).2
  intro u v e hu hreap hstep
  obtain ⟨hnamed, first, hfirst, hlives⟩ := hu
  obtain ⟨last, hlast, hcontinues, hends⟩ := hnamed.lives hreap hfirst hstep
  refine ⟨hnamed.happen hstep, last, hlast, ?_, fun hfinished => ?_⟩
  · exact ⟨hcontinues.name.trans hlives.1.name, hcontinues.uid.trans hlives.1.uid,
      hcontinues.vmName.trans hlives.1.vmName, hcontinues.action.trans hlives.1.action⟩
  · obtain rfl := hlives.2 hfinished
    exact hends hfinished

end Record

theorem record_lives_web : ∃ (t : Cluster) (op' : Operation),
    t.operations.lookup "put-back" = some op' ∧ op'.Finished ∧ (putBack "uid-1").Lives op' := by
  have hplay : (Machine.play (Cluster.happen fun _ => true) Cluster.Names
      Cluster.asked [.pass "put-back" none, .restoring "put-back-restore" true none,
        .pass "put-back" none]).any (fun t =>
          (t.operations.lookup "put-back").any fun op => op.phase = .succeeded) = true := by
    decide +kernel
  obtain ⟨t, hrun, ht⟩ := Machine.exists_run_of_play _ hplay
  obtain ⟨op', hop', hdone⟩ := (any_eq_true _ _).mp ht
  have hasked : Cluster.asked.operations.lookup "put-back" = some (putBack "uid-1") := rfl
  obtain ⟨found, hfound, hlives⟩ := record_lives (story_asked.mono fun _ _ _ => trivial) hasked
    (hrun.mono fun u e he => by rintro rfl; contradiction)
  obtain rfl := mem_unique hop' hfound
  exact ⟨t, op', hop', .inl (of_decide_eq_true hdone), hlives⟩

end Operations
