import KubevirtUi.Quotas.Environments

/-!
# What the checks come to where no call fails

They read, and leave the cluster as it is. What a folder's ceiling covers is then a function of the
cluster, unless it calls itself for ever.
-/

namespace Quotas

open Access (nsName)
open Folders (Data Failure FolderQuota Meta given parseAllFolders)
open Interference
open Tenant (Dimension dimensions)

variable {α β : Type}

/-- Where no call fails, the calls come to that. -/
abbrev Comes (p : Call β) (w : World) (x : Except Failure β) (v : World) : Prop :=
  Gives serve (fun _ => none) p w x v

/-- What is returned or raised where no call fails. -/
def answerOf (p : Call β) (w : World) : Except Failure β := (p.run.run serve (fun _ => none) w).1

/-- The world that is left where no call fails. -/
def leftBy (p : Call β) (w : World) : World := (p.run.run serve (fun _ => none) w).2

variable {handler : Nat → Call β} {ι : Type} {xs : List ι}

variable {w v : World}

section Rules

variable {p : Call β} {u : World} {x : Except Failure β} {b : β}

theorem Comes.answerOf (h : Comes p w x v) : answerOf p w = x := congrArg Prod.fst h

theorem Comes.leftBy (h : Comes p w x v) : leftBy p w = v := congrArg Prod.snd h

theorem comes_iff : Comes p w x v ↔ answerOf p w = x ∧ leftBy p w = v := Prod.ext_iff

theorem comes_ask (r : Request) (w : World) : Comes (ask r) w (commit w r).1 (commit w r).2 := rfl

theorem Comes.exceptApi_ok (h : Comes p w (.ok b) v) : Comes (exceptApi p handler) w (.ok b) v :=
  h.tryCatch_ok

theorem Comes.exceptApi_api {status : Nat} (h : Comes p w (.error (.api status)) v)
    (hh : Comes (handler status) v x u) : Comes (exceptApi p handler) w x u :=
  h.tryCatch_error hh

theorem comes_listResourceQuotas (phase : Phase) (ns : String)
    (handler : Nat → Call (List ResourceQuota)) (w : World) :
    Comes (exceptApi (ask (.listResourceQuotas phase ns)) handler) w
    (.ok (w.resourceQuotas ns)) w :=
  (comes_ask (.listResourceQuotas phase ns) w).exceptApi_ok

end Rules

section Reads

/-- A call that lists what there is. -/
def Request.Reads : Request → Prop
  | .access .. => False
  | _ => True

theorem serve_of_reads {r : Request} (hr : r.Reads) (fault : Option Fault) (w : World) :
    (serve fault w r).2 = w := by
  cases fault with
  | some fault => rfl
  | none =>
    cases r with
    | access phase r => exact hr.elim
    | listFolder | listResourceQuotas => rfl

/-- The program changes nothing, whatever fails. -/
abbrev OnlyReads (p : Call β) : Prop := Every Request.Reads p.run

theorem OnlyReads.leftBy {p : Call β} (h : OnlyReads p) (w : World) : leftBy p w = w :=
  h.run (R := fun w v => v = w) (fun _ => rfl) (fun _ _ _ h h' => h'.trans h)
    (fun w _ hr => serve_of_reads hr none w) w

theorem onlyReads_exceptApi {body : Call β} (hbody : OnlyReads body)
    (hhandler : ∀ status, OnlyReads (handler status)) : OnlyReads (exceptApi body handler) := by
  refine hbody.tryCatch fun e => ?_
  cases e with
  | api status => exact hhandler status
  | http | hangs => exact .throw _

variable (A : Arithmetic α) (folders : Data)

theorem onlyReads_listResourceQuotas (phase : Phase) (ns : String) :
    OnlyReads (exceptApi (ask (.listResourceQuotas phase ns)) fun _ => pure []) :=
  onlyReads_exceptApi (Every.ask trivial) fun _ => .pure _

theorem onlyReads_addNamespace (totals : Amounts α) (ns : String) :
    OnlyReads (addNamespace A totals ns) :=
  (onlyReads_listResourceQuotas .checking ns).bind fun _ => .pure _

theorem onlyReads_ownEnvQuota (folderName : String) : OnlyReads (ownEnvQuota A folderName) := by
  have hlist : OnlyReads (tryCatch (do return some (← ask (.listFolder folderName)))
      fun _ => pure none) :=
    Every.tryCatch (Every.bind (Every.ask trivial) fun _ => .pure _) fun _ => .pure _
  refine hlist.bind fun namespaces => ?_
  cases namespaces with
  | none => exact .pure _
  | some namespaces => exact .foldlM fun totals ns _ => onlyReads_addNamespace A totals ns

theorem onlyReads_allocatedEnvQuota (depth : Nat) (folderName : String) :
    OnlyReads (allocatedEnvQuota A folders depth folderName) := by
  induction depth generalizing folderName with
  | zero => exact .throw _
  | succ depth ih =>
    refine (onlyReads_ownEnvQuota A folderName).bind fun own => .foldlM fun totals child _ => ?_
    dsimp only
    split
    · exact (ih child).bind fun _ => .pure _
    · exact .pure _

theorem onlyReads_withAllocation (allocations : List (String × Amounts α)) (holder : String) :
    OnlyReads (withAllocation A folders allocations holder) := by
  rw [withAllocation]
  split
  · exact .pure _
  · exact (onlyReads_allocatedEnvQuota A folders _ holder).bind fun _ => .pure _

theorem onlyReads_checkChild (childName : String) (quota : FolderQuota)
    (state : String × List (String × Amounts α)) (d : Dimension) :
    OnlyReads (checkChild A folders childName quota state d) := by
  rw [checkChild]
  split
  · exact .pure _
  · split
    · exact .pure _
    · refine (onlyReads_withAllocation A folders _ _).bind fun allocations => ?_
      split
      · exact .pure _
      · exact .throw _

theorem onlyReads_assertChildFolderWithinParent (childName : String) (quota : FolderQuota) :
    OnlyReads (assertChildFolderWithinParent A folders childName quota) := by
  rw [assertChildFolderWithinParent]
  split
  · exact .pure _
  · split
    · exact .pure _
    · split
      · exact .pure _
      · exact .bind (Every.foldlM fun state d _ => onlyReads_checkChild A folders _ _ state d)
          fun _ => .pure _

theorem onlyReads_checkParent (folder : FolderCreateRequest) :
    OnlyReads (checkParent A folders folder) := by
  rw [checkParent]
  split
  · exact .pure _
  · split
    · exact .throw _
    · split
      · split
        · exact .throw _
        · exact onlyReads_assertChildFolderWithinParent A _ _ _
      · exact .pure _

end Reads

section Covered

variable (A : Arithmetic α) (folders : Data)

/-- The sum of the quotas in one namespace, and more. -/
def World.addNamespace (w : World) (totals : Amounts α) (ns : String) : Amounts α :=
  (w.resourceQuotas ns).foldl (fun totals quota => addQuota A totals quota.hard) totals

/-- What a folder's own environments hold. -/
def World.own (w : World) (folderName : String) : Amounts α :=
  (w.folderNamespaces folderName).foldl (w.addNamespace A) (zeros A)

/-- Whether a child leaves a dimension open. -/
def Undeclared (child : String) : Prop :=
  dimensions.any (fun d => (limitOf A (ceilingOf folders child) d).isNone) = true

instance (child : String) : Decidable (Undeclared A folders child) :=
  inferInstanceAs (Decidable (_ = true))

/-- What a folder's ceiling covers, if the recursion ends. -/
def World.allocated (w : World) : Nat → String → Option (Amounts α)
  | 0, _ => none
  | depth + 1, folderName =>
    (Folders.childrenIndex (parseAllFolders folders) folderName).foldlM (fun totals child =>
      let declared := limitOf A (ceilingOf folders child)
      if Undeclared A folders child then
        (w.allocated depth child).map fun nested =>
          addChild A declared (fun d => some (nested.get d)) totals
      else some (addChild A declared (fun _ => none) totals)) (w.own A folderName)

/-- A recursion that does not end is stopped. -/
def orStopped : Option β → Except Failure β
  | some b => .ok b
  | none => .error recursionError

variable {A folders}

theorem foldlM_orStopped {step : β → ι → Option β} (b : β) :
    xs.foldlM (fun b x => orStopped (step b x)) b = orStopped (xs.foldlM step b) := by
  induction xs generalizing b with
  | nil => rfl
  | cons x xs ih =>
    rw [List.foldlM_cons, List.foldlM_cons]
    cases step b x with
    | none => rfl
    | some c => exact ih c

theorem comes_addNamespace (totals : Amounts α) (ns : String) :
    Comes (addNamespace A totals ns) w (.ok (w.addNamespace A totals ns)) w :=
  (comes_listResourceQuotas .checking ns _ w).bind .pure

theorem foldlM_ok {step : β → ι → β} (b : β) :
    xs.foldlM (fun b x => (.ok (step b x) : Except Failure β)) b = .ok (xs.foldl step b) := by
  induction xs generalizing b with
  | nil => rfl
  | cons x xs ih => exact ih (step b x)

theorem comes_ownEnvQuota (folderName : String) :
    Comes (ownEnvQuota A folderName) w (.ok (w.own A folderName)) w := by
  have hsome : Comes (do return some (← ask (.listFolder folderName))) w
      (.ok (some (w.folderNamespaces folderName))) w :=
    (comes_ask (.listFolder folderName) w).bind .pure
  have hlist : Comes (tryCatch (do return some (← ask (.listFolder folderName)))
      fun _ => pure none) w (.ok (some (w.folderNamespaces folderName))) w :=
    hsome.tryCatch_ok
  have hsum : Comes ((w.folderNamespaces folderName).foldlM (addNamespace A) (zeros A)) w _ w :=
    Gives.foldlM (fun totals ns _ => comes_addNamespace totals ns) (zeros A)
  rw [foldlM_ok] at hsum
  exact hlist.bind hsum

theorem comes_allocatedEnvQuota (depth : Nat) (folderName : String) :
    Comes (allocatedEnvQuota A folders depth folderName) w
      (orStopped (w.allocated A folders depth folderName)) w := by
  induction depth generalizing folderName with
  | zero => exact .throw
  | succ depth ih =>
    refine (comes_ownEnvQuota folderName).bind ?_
    rw [World.allocated, ← foldlM_orStopped]
    refine Gives.foldlM (fun totals child _ => ?_) _
    change Comes (if Undeclared A folders child then _ else _) w _ w
    dsimp only
    split
    · have hnested := ih child
      cases hchild : w.allocated A folders depth child with
      | none =>
        rw [hchild] at hnested
        exact hnested.bind_error
      | some nested =>
        rw [hchild] at hnested
        exact hnested.bind .pure
    · exact .pure

theorem World.allocated_congr (h : ∀ name, w.own A name = v.own A name) (depth : Nat)
    (folderName : String) :
    w.allocated A folders depth folderName = v.allocated A folders depth folderName := by
  induction depth generalizing folderName with
  | zero => rfl
  | succ depth ih => simp only [World.allocated, h, ih]

end Covered

section Refused

variable (A : Arithmetic α) (folders : Data)

/-- What the ceilings cover, each computed once. -/
def World.withAllocation (w : World) (allocations : List (String × Amounts α)) (holder : String) :
    Option (List (String × Amounts α)) :=
  if (allocations.lookup holder).isSome then some allocations
  else (w.allocated A folders (depthOf folders) holder).map fun allocated =>
    allocations ++ [(holder, allocated)]

/-- What a new environment's quota falls short of, if the recursion ends. -/
def World.shortage (w : World) (folderName : String) (quota : FolderQuota) :
    Option (Option (Shortage α)) :=
  let holders := holdersOf A folders folderName quota
  ((holders.map fun found => found.2.1).foldlM (w.withAllocation A folders) []).map
    fun allocations => holders.findSome? (shortageWithin A folders quota allocations (zeros A))

/-- The answer of the check. -/
def answerWithin (asking : String) : Option (Option (Shortage α)) → Except Failure Unit
  | none => .error recursionError
  | some none => .ok ()
  | some (some s) => .error (.http 409 (s.withinText A asking))

variable {A folders} {folderName : String} {quota : FolderQuota}

theorem comes_withAllocation (allocations : List (String × Amounts α)) (holder : String) :
    Comes (withAllocation A folders allocations holder) w
      (orStopped (w.withAllocation A folders allocations holder)) w := by
  rw [withAllocation, World.withAllocation]
  split
  · exact .pure
  · have hallocated : Comes (allocatedEnvQuota A folders (depthOf folders) holder) w _ w :=
      comes_allocatedEnvQuota (depthOf folders) holder
    cases hholder : w.allocated A folders (depthOf folders) holder with
    | none =>
      rw [hholder] at hallocated
      exact hallocated.bind_error
    | some allocated =>
      rw [hholder] at hallocated
      exact hallocated.bind .pure

theorem holdersOf_eq_nil (h : dimensions.all (fun d => (limitOf A quota d).isNone) = true) :
    holdersOf A folders folderName quota = [] := by
  rw [holdersOf, List.filterMap_eq_nil_iff]
  intro d hd
  have hnone := List.all_eq_true.mp h d hd
  rw [if_neg (by simpa using hnone)]

theorem comes_assertWithinFolderQuota (asking : String) :
    Comes (assertWithinFolderQuota A folders folderName quota none asking) w
      (answerWithin A asking (w.shortage A folders folderName quota)) w := by
  have hnone (h : holdersOf A folders folderName quota = []) : Comes (pure () : Call Unit) w
        (answerWithin A asking (w.shortage A folders folderName quota)) w := by
    simp only [World.shortage, h]
    exact .pure
  rw [assertWithinFolderQuota]
  split
  · next hall => exact hnone (holdersOf_eq_nil hall)
  · split
    · next hempty => exact hnone (List.isEmpty_iff.mp hempty)
    · have hallocations : Comes (((holdersOf A folders folderName quota).map
          fun found => found.2.1).foldlM (withAllocation A folders) []) w _ w :=
        Gives.foldlM (fun allocations holder _ => comes_withAllocation allocations holder) []
      rw [foldlM_orStopped] at hallocations
      rw [World.shortage]
      cases hsum : ((holdersOf A folders folderName quota).map fun found => found.2.1).foldlM
          (w.withAllocation A folders) [] with
      | none =>
        rw [hsum] at hallocations
        exact hallocations.bind_error
      | some allocations =>
        rw [hsum] at hallocations
        refine hallocations.bind ((Gives.pure : Comes (pure (zeros A)) w _ w).bind ?_)
        dsimp only [Option.map_some]
        cases (holdersOf A folders folderName quota).findSome?
            (shortageWithin A folders quota allocations (zeros A)) with
        | none => exact .pure
        | some s => exact .throw

theorem World.shortage_congr (h : ∀ name, w.own A name = v.own A name) :
    w.shortage A folders folderName quota = v.shortage A folders folderName quota := by
  have hallocation : w.withAllocation A folders = v.withAllocation A folders := by
    funext allocations holder
    rw [World.withAllocation, World.withAllocation, World.allocated_congr h]
  rw [World.shortage, World.shortage, hallocation]

end Refused

/-- The same namespaces, with the same quotas. -/
structure Twin (w v : World) : Prop where
  namespaces : w.cluster.namespaces = v.cluster.namespaces
  quotas : w.cluster.quotas = v.cluster.quotas
  used : w.used = v.used

section Twin

theorem Twin.own {A : Arithmetic α} (h : Twin w v) (name : String) :
    w.own A name = v.own A name := by
  obtain ⟨⟨clock, configMap, namespaces, bindings, quotas, log⟩, used⟩ := w
  obtain ⟨⟨clock', configMap', namespaces', bindings', quotas', log'⟩, used'⟩ := v
  obtain ⟨rfl, rfl, rfl⟩ := h
  rfl

end Twin

end Quotas
