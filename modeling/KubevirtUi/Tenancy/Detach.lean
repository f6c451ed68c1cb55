import KubevirtUi.Library.Raising
import Mathlib.Data.List.AList
import Mathlib.Data.List.Perm.Basic

/-!
# Taking a tenant off its Subnets

A Subnet lists the namespaces that it serves. A tenant that is deleted takes its own off every such
list, by the place where it was found, while others change the lists as well. A patch is applied as
a whole or not at all, and it first tests what stands at the place: a neighbour is never taken.
-/

namespace Detach

open Interference List Option

/-- A name of an object. -/
abbrev Name := { name : String // name ≠ "" }

/-- The Subnets, each with its `spec.namespaces`. -/
structure World where
  subnets : AList fun _ : Name => List String

/-- One operation of a JSON patch, on a place in the list. -/
inductive Op where
  | test (index : ℕ) (value : String)
  | remove (index : ℕ)
  deriving DecidableEq

inductive Request where
  | listSubnets
  | getSubnet (name : Name)
  | patchSubnet (name : Name) (ops : List Op)

@[reducible] def Request.Result : Request → Type
  | .listSubnets => List (Name × List String)
  | .getSubnet _ => List String
  | .patchSubnet .. => Unit

/-- An answer, or the status that the API server refuses with. -/
abbrev Request.Response (r : Request) : Type := Except ℕ r.Result

abbrev Fault := Option ℕ

def Op.apply (namespaces : List String) : Op → Option (List String)
  | .test index value => if namespaces[index]? = some value then some namespaces else none
  | .remove index => if index < namespaces.length then some (namespaces.eraseIdx index) else none

/-- What a request that is not refused does. -/
def commit (w : World) : (r : Request) → r.Response × World
  | .listSubnets => (.ok (w.subnets.entries.map fun e => (e.1, e.2)), w)
  | .getSubnet name => (((w.subnets.lookup name).map Except.ok).getD (.error 404), w)
  | .patchSubnet name ops =>
    match w.subnets.lookup name with
    | none => (.error 404, w)
    | some namespaces =>
      match ops.foldlM Op.apply namespaces with
      | none => (.error 422, w)
      | some patched => (.ok (), ⟨w.subnets.insert name patched⟩)

def serve (fault : Fault) (w : World) (r : Request) : r.Response × World :=
  match fault with
  | none => commit w r
  | some status => (.error status, w)

/-- What other writers do. -/
inductive Action where
  | append (name : Name) (entry : String)
  | remove (name : Name) (index : ℕ)
  | delete (name : Name)

def act (a : Action) (w : World) : World :=
  match a with
  | .append name entry =>
    match w.subnets.lookup name with
    | none => w
    | some namespaces => ⟨w.subnets.insert name (namespaces ++ [entry])⟩
  | .remove name index =>
    match w.subnets.lookup name with
    | none => w
    | some namespaces => ⟨w.subnets.insert name (namespaces.eraseIdx index)⟩
  | .delete name => ⟨w.subnets.erase name⟩

abbrev Call (α : Type) := Program Request Request.Response α

def ask (r : Request) : Call r.Response := Program.ask r

def tenantNs (tenantName : String) : String := "tenant-" ++ tenantName

/-- What has come of it for a Subnet. It gives up when no attempt is left, and at once where a
patch is refused for any other reason than the test. -/
inductive Outcome where
  | removed
  | gone
  | unread (status : ℕ)
  | gaveUp
  | gaveUpAt (status : ℕ)
  deriving DecidableEq

/-- Neither given up, nor a failed read. -/
def Outcome.Settled : Outcome → Prop
  | removed => True
  | gone => True
  | _ => False

def maxAttempts : ℕ := 5

def detachSubnetNsWithRetry (subnetName : Name) (tenantNs : String) :
    ℕ → List String → Call Outcome
  | 0, _ => pure .gaveUp
  | attempts + 1, specNs =>
    match specNs.idxOf? tenantNs with
    | none => pure .gone
    | some idx => do
      match ← ask (.patchSubnet subnetName [.test idx tenantNs, .remove idx]) with
      | .ok () => pure .removed
      | .error status =>
        if status ≠ 409 ∧ status ≠ 422 then pure (.gaveUpAt status)
        else do
          match ← ask (.getSubnet subnetName) with
          | .ok specNs => detachSubnetNsWithRetry subnetName tenantNs attempts specNs
          | .error status => pure (.unread status)

/-- What comes of a detach whose patches and reads are answered so, one after another, if these are
all that it asks for. -/
def replay : List (Except ℕ Unit) → List (Except ℕ (List String)) → Call Outcome → Option Outcome
  | [], [], .pure outcome => some outcome
  | patch :: patches, reads, .call (.patchSubnet ..) k => replay patches reads (k patch)
  | patches, read :: reads, .call (.getSubnet _) k => replay patches reads (k read)
  | _, _, _ => none

/-- What the API server has answered, as an outcome has it. -/
def Outcome.Told (attempts : ℕ) (patches : List (Except ℕ Unit))
    (reads : List (Except ℕ (List String))) : Outcome → Prop
  | .removed => patches.getLast? = some (.ok ())
  | .gone => ∀ patch ∈ patches, patch = .error 409 ∨ patch = .error 422
  | .unread status => reads.getLast? = some (.error status)
  | .gaveUp => patches.length = attempts ∧
      ∀ patch ∈ patches, patch = .error 409 ∨ patch = .error 422
  | .gaveUpAt status => patches.getLast? = some (.error status) ∧ status ≠ 409 ∧ status ≠ 422

/-- The Subnets that were listed, one after another. -/
def detachListed (tenantNs : String) : List (Name × List String) → Call (List (Name × Outcome))
  | [] => pure []
  | (subnetName, specNs) :: rest =>
    if tenantNs ∉ specNs then detachListed tenantNs rest
    else do
      let outcome ← detachSubnetNsWithRetry subnetName tenantNs maxAttempts specNs
      return (subnetName, outcome) :: (← detachListed tenantNs rest)

/-- The source logs what comes of it and returns nothing; here that is what it returns. -/
def detachTenantNsFromVpcSubnet (tenantName : String) :
    Call (Except ℕ (List (Name × Outcome))) := do
  match ← ask .listSubnets with
  | .error status => pure (.error status)
  | .ok items => return .ok (← detachListed (tenantNs tenantName) items)

/-- One entry of one list has gone, and it was this. -/
def Removes (ns : String) (w v : World) : Prop :=
  v = w ∨ ∃ name namespaces index, w.subnets.lookup name = some namespaces ∧
    namespaces[index]? = some ns ∧
      v = ⟨w.subnets.insert name (namespaces.eraseIdx index)⟩

/-- The requests that a detach makes. -/
def OwnRequest (ns : String) (r : Request) : Prop :=
  r = .listSubnets ∨ (∃ name, r = .getSubnet name) ∨
    ∃ name idx, r = .patchSubnet name [.test idx ns, .remove idx]

section Requests

variable {ns : String} {w v : World} {r : Request} {fault : Fault} {name : Name} {idx : ℕ}

theorem patch_cases : serve fault w (.patchSubnet name [.test idx ns, .remove idx]) =
      (.error (fault.getD 404), w) ∨
    serve fault w (.patchSubnet name [.test idx ns, .remove idx]) = (.error 422, w) ∨
    ∃ namespaces, w.subnets.lookup name = some namespaces ∧ namespaces[idx]? = some ns ∧
      serve fault w (.patchSubnet name [.test idx ns, .remove idx]) =
        (.ok (), ⟨w.subnets.insert name (namespaces.eraseIdx idx)⟩) := by
  cases fault with
  | some status => exact .inl rfl
  | none =>
    cases hlookup : w.subnets.lookup name with
    | none =>
      left
      simp only [serve, commit, hlookup]
      rfl
    | some namespaces =>
      right
      by_cases htest : namespaces[idx]? = some ns
      · have hlt : idx < namespaces.length := (List.getElem?_eq_some_iff.mp htest).1
        refine .inr ⟨namespaces, rfl, htest, ?_⟩
        have hops : [Op.test idx ns, Op.remove idx].foldlM Op.apply namespaces =
            some (namespaces.eraseIdx idx) := by
          have heq := (List.getElem?_eq_some_iff.mp htest).2
          simp [Op.apply, heq, hlt]
        simp only [serve, commit, hlookup, hops]
      · have hops : [Op.test idx ns, Op.remove idx].foldlM Op.apply namespaces = none := by
          simp [Op.apply, htest]
        left
        simp only [serve, commit, hlookup, hops]

theorem removes_serve (h : OwnRequest ns r) : Removes ns w (serve fault w r).2 := by
  obtain rfl | ⟨name, rfl⟩ | ⟨name, idx, rfl⟩ := h
  · left
    cases fault <;> rfl
  · left
    cases fault <;> rfl
  · obtain h | h | ⟨namespaces, hlookup, htest, h⟩ := @patch_cases ns w fault name idx
    · exact .inl (congrArg Prod.snd h)
    · exact .inl (congrArg Prod.snd h)
    · exact .inr ⟨name, namespaces, idx, hlookup, htest, congrArg Prod.snd h⟩

theorem every_detachSubnetNsWithRetry (attempts : ℕ) (specNs : List String) :
    Every (OwnRequest ns) (detachSubnetNsWithRetry name ns attempts specNs) := by
  induction attempts generalizing specNs with
  | zero => exact trivial
  | succ attempts ih =>
    rw [detachSubnetNsWithRetry]
    cases specNs.idxOf? ns with
    | none => exact trivial
    | some idx =>
      refine every_bind ⟨.inr (.inr ⟨name, idx, rfl⟩), fun _ => trivial⟩ fun x => ?_
      cases x with
      | ok _ => exact trivial
      | error status =>
        dsimp only
        split
        · exact trivial
        · refine every_bind ⟨.inr (.inl ⟨name, rfl⟩), fun _ => trivial⟩ fun x => ?_
          cases x with
          | ok specNs => exact ih specNs
          | error status => exact trivial

theorem Outcome.Told.cons {attempts status : ℕ} {patches : List (Except ℕ Unit)}
    {reads : List (Except ℕ (List String))} {outcome : Outcome}
    {read : Except ℕ (List String)} (hstatus : status = 409 ∨ status = 422)
    (h : outcome.Told attempts patches reads) :
    outcome.Told (attempts + 1) (.error status :: patches) (read :: reads) := by
  have hfirst : (Except.error status : Except ℕ Unit) = .error 409 ∨
      (Except.error status : Except ℕ Unit) = .error 422 :=
    hstatus.imp (congrArg _) (congrArg _)
  cases outcome with
  | removed => exact List.getLast?_cons.trans (by rw [show patches.getLast? = _ from h]; rfl)
  | gone => exact forall_mem_cons.mpr ⟨hfirst, h⟩
  | unread _ => exact List.getLast?_cons.trans (by rw [show reads.getLast? = _ from h]; rfl)
  | gaveUp => exact ⟨congrArg (· + 1) h.1, forall_mem_cons.mpr ⟨hfirst, h.2⟩⟩
  | gaveUpAt _ => exact ⟨List.getLast?_cons.trans (by rw [h.1]; rfl), h.2⟩

/-- It gives up when every attempt has been rejected, or a patch has been refused otherwise, and
ends with a read that has failed. -/
theorem told_of_replay {attempts : ℕ} {specNs : List String} {patches : List (Except ℕ Unit)}
    {reads : List (Except ℕ (List String))} {outcome : Outcome}
    (h : replay patches reads (detachSubnetNsWithRetry name ns attempts specNs) = some outcome) :
    outcome.Told attempts patches reads := by
  induction attempts generalizing specNs patches reads with
  | zero =>
    cases patches <;> cases reads <;> cases h
    exact ⟨rfl, forall_mem_nil _⟩
  | succ attempts ih =>
    rw [detachSubnetNsWithRetry] at h
    cases hidx : specNs.idxOf? ns with
    | none =>
      rw [hidx] at h
      cases patches <;> cases reads <;> cases h
      exact forall_mem_nil _
    | some idx =>
      rw [hidx] at h
      cases patches with
      | nil => cases reads <;> cases h
      | cons patch patches =>
        cases patch with
        | ok _ =>
          cases patches <;> cases reads <;> cases h
          exact rfl
        | error status =>
          by_cases hother : status ≠ 409 ∧ status ≠ 422
          · cases reads with
            | nil =>
              simp only [ask, Program.ask, bind, Program.bind, replay, if_pos hother] at h
              cases patches <;> cases h
              exact ⟨rfl, hother⟩
            | cons read reads =>
              simp only [ask, Program.ask, bind, Program.bind, replay, if_pos hother] at h
              cases patches <;> cases h
          · have hstatus : status = 409 ∨ status = 422 := by omega
            simp only [ask, Program.ask, bind, Program.bind, replay, if_neg hother] at h
            cases reads with
            | nil => cases patches <;> cases h
            | cons read reads =>
              cases read with
              | ok specNs => cases patches <;> exact (ih h).cons hstatus
              | error _ =>
                cases patches <;> cases reads <;> cases h
                exact rfl

theorem every_detachListed (items : List (Name × List String)) :
    Every (OwnRequest ns) (detachListed ns items) := by
  induction items with
  | nil => exact trivial
  | cons item rest ih =>
    rw [detachListed]
    split
    · exact ih
    · exact every_bind (every_detachSubnetNsWithRetry _ _) fun _ =>
        every_bind ih fun _ => trivial

theorem every_detach (tenantName : String) :
    Every (OwnRequest (tenantNs tenantName)) (detachTenantNsFromVpcSubnet tenantName) := by
  refine every_bind ⟨.inl rfl, fun _ => trivial⟩ fun x => ?_
  cases x with
  | error status => exact trivial
  | ok items => exact every_bind (every_detachListed items) fun _ => trivial

end Requests

def held (w : World) (name : Name) : List String := (w.subnets.lookup name).getD []

/-- How often a Subnet lists the namespace. -/
def times (ns : String) (name : Name) (w : World) : ℕ := (held w name).count ns

variable {patched : List String} {α : Type}

section Times

variable {ns own : String} {w v : World} {name other : Name} {namespaces : List String}

theorem times_eq_zero : times ns name w = 0 ↔ ns ∉ held w name := count_eq_zero

theorem held_of_lookup (h : w.subnets.lookup name = some namespaces) :
    held w name = namespaces := by
  rw [held, h, getD_some]

theorem times_insert_self : times ns name ⟨w.subnets.insert name namespaces⟩ =
    namespaces.count ns := by
  rw [times, held, AList.lookup_insert, getD_some]

theorem times_insert_of_ne (h : name ≠ other) :
    times ns name ⟨w.subnets.insert other namespaces⟩ = times ns name w := by
  rw [times, held, AList.lookup_insert_ne h]
  rfl

/-- A list from which some are left out does not hold the namespace more often. -/
theorem times_insert_le {old : List String} (hlookup : w.subnets.lookup other = some old)
    (hsub : namespaces.Sublist old) :
    times ns name ⟨w.subnets.insert other namespaces⟩ ≤ times ns name w := by
  by_cases hname : name = other
  · subst hname
    rw [times_insert_self, times, held_of_lookup hlookup]
    exact hsub.count_le ns
  · exact le_of_eq (times_insert_of_ne hname)

theorem sublist_of_apply {op : Op} (h : op.apply namespaces = some patched) :
    patched.Sublist namespaces := by
  cases op with
  | test index value =>
    obtain ⟨-, h⟩ := ite_none_right_eq_some.mp h
    obtain rfl := some.inj h
    exact .refl _
  | remove index =>
    obtain ⟨-, h⟩ := ite_none_right_eq_some.mp h
    obtain rfl := some.inj h
    exact eraseIdx_sublist namespaces index

theorem sublist_of_patch {ops : List Op} (h : ops.foldlM Op.apply namespaces = some patched) :
    patched.Sublist namespaces := by
  induction ops generalizing namespaces with
  | nil =>
    obtain rfl := some.inj h
    exact .refl _
  | cons op ops ih =>
    rw [foldlM_cons] at h
    obtain ⟨between, hop, hrest⟩ := bind_eq_some_iff.mp h
    exact (ih hrest).trans (sublist_of_apply hop)

theorem times_serve (fault : Fault) (r : Request) :
    times ns name (serve fault w r).2 ≤ times ns name w := by
  cases fault with
  | some status => exact le_rfl
  | none =>
    cases r with
    | listSubnets => exact le_rfl
    | getSubnet other => exact le_rfl
    | patchSubnet other ops =>
      simp only [serve, commit]
      split
      · exact le_rfl
      · next old hlookup =>
        split
        · exact le_rfl
        · next patched hpatch => exact times_insert_le hlookup (sublist_of_patch hpatch)

theorem Removes.times_le (h : Removes own w v) : times ns name v ≤ times ns name w := by
  obtain rfl | ⟨other, namespaces, index, hlookup, -, rfl⟩ := h
  · exact le_rfl
  · exact times_insert_le hlookup (eraseIdx_sublist namespaces index)

/-- Whoever does not append the namespace does not make a list hold it more often. -/
theorem times_act {a : Action} (h : a ≠ .append name ns) :
    times ns name (act a w) ≤ times ns name w := by
  cases a with
  | append other entry =>
    simp only [act]
    split
    · exact le_rfl
    · next namespaces hlookup =>
      by_cases hname : name = other
      · subst hname
        have hentry : entry ≠ ns := fun heq => h (heq ▸ rfl)
        rw [times_insert_self, times, held_of_lookup hlookup, count_append,
          count_eq_zero.mpr fun hmem => hentry (mem_singleton.mp hmem).symm]
        exact le_rfl
      · exact le_of_eq (times_insert_of_ne hname)
  | remove other index =>
    simp only [act]
    split
    · exact le_rfl
    · next namespaces hlookup =>
      exact times_insert_le hlookup (eraseIdx_sublist namespaces index)
  | delete other =>
    simp only [act, times, held]
    by_cases hname : name = other
    · subst hname
      simp [AList.lookup_erase]
    · rw [AList.lookup_erase_ne hname]

theorem times_removed (hlookup : w.subnets.lookup name = some namespaces) {idx : ℕ}
    (hidx : namespaces[idx]? = some ns) (h : times ns name w ≤ 1) :
    times ns name ⟨w.subnets.insert name (namespaces.eraseIdx idx)⟩ = 0 := by
  rw [times, held_of_lookup hlookup] at h
  obtain ⟨hlt, rfl⟩ := List.getElem?_eq_some_iff.mp hidx
  have hperm := (getElem_cons_eraseIdx_perm hlt).count_eq namespaces[idx]
  rw [count_cons_self] at hperm
  rw [times_insert_self]
  omega

end Times

/-- The list holds the namespace once at most. -/
def Single (ns : String) (name : Name) (w : World) : Prop := times ns name w ≤ 1

/-- Nobody adds it. -/
def Fewer (ns : String) (name : Name) (w v : World) : Prop := times ns name v ≤ times ns name w

/-- What was listed tells whether the list still holds the namespace. -/
def Listed (ns : String) (name : Name) (items : List (Name × List String)) (w : World) : Prop :=
  ((∀ specNs, (name, specNs) ∉ items) → times ns name w = 0) ∧
    ∀ specNs, (name, specNs) ∈ items → ns ∉ specNs → times ns name w = 0

section Achieves

variable {ns own : String} {w v : World} {name other : Name}
  {items rest : List (Name × List String)} {specNs : List String}

theorem Fewer.refl (w : World) : Fewer ns name w w := Nat.le_refl (times ns name w)

theorem Fewer.zero (h : Fewer ns name w v) (hw : times ns name w = 0) : times ns name v = 0 :=
  Nat.le_zero.mp (hw ▸ h)

theorem lasts_of_imp {p : Prop} :
    Lasts (Single ns name) (Fewer ns name) fun w => p → times ns name w = 0 :=
  fun _ _ _ _ h hw hp => h.zero (hw hp)

theorem Listed.mono (h : Fewer ns name w v) (hw : Listed ns name items w) :
    Listed ns name items v :=
  ⟨fun hnone => h.zero (hw.1 hnone), fun specNs hmem hns => h.zero (hw.2 specNs hmem hns)⟩

theorem Listed.of_zero (h : times ns name w = 0) : Listed ns name items w :=
  ⟨fun _ => h, fun _ _ _ => h⟩

theorem Listed.tail_of_ne (h : name ≠ other)
    (hw : Listed ns name ((other, specNs) :: items) w) : Listed ns name items w := by
  constructor
  · intro hnone
    refine hw.1 fun l hmem => ?_
    obtain heq | hmem := mem_cons.mp hmem
    · exact h (congrArg Prod.fst heq)
    · exact hnone l hmem
  · intro l hmem
    exact hw.2 l (mem_cons_of_mem _ hmem)

theorem listed_of_entries : Listed ns name (w.subnets.entries.map fun e => (e.1, e.2)) w := by
  constructor
  · intro hnone
    have hlookup : w.subnets.lookup name = none := by
      refine eq_none_iff_forall_not_mem.mpr fun l hl => hnone l ?_
      exact mem_map.mpr ⟨⟨name, l⟩, AList.mem_lookup_iff.mp hl, rfl⟩
    simp [times, held, hlookup]
  · intro l hmem hns
    obtain ⟨⟨_, _⟩, he, heq⟩ := mem_map.mp hmem
    obtain ⟨rfl, rfl⟩ := Prod.mk.inj heq
    rw [times_eq_zero, held_of_lookup (AList.mem_lookup_iff.mpr he)]
    exact hns

abbrev Detaches {α : Type} (own ns : String) (name : Name) (P : World → Prop) (p : Call α)
    (Q : α → World → Prop) : Prop :=
  Does serve (Single ns name) (Fewer ns name) (Removes own) P p Q

theorem single_serve (fault : Fault) (w : World) (r : Request) (h : Single ns name w) :
    Single ns name (serve fault w r).2 :=
  Nat.le_trans (times_serve fault r) h

theorem does_of_every {p : Call α} (h : Every (OwnRequest own) p) :
    Detaches own ns name (fun _ => True) p fun _ _ => True :=
  Triple.of_every (fun fault w r _ hr => show Removes own w (serve fault w r).2 from
    removes_serve hr) h

theorem Detaches.frame {P R : World → Prop} {p : Call α} {Q : α → World → Prop}
    (h : Detaches own ns name P p Q) (hR : ∀ w v, Fewer ns name w v → R w → R v) :
    Detaches own ns name (fun w => P w ∧ R w) p fun a w => Q a w ∧ R w :=
  Triple.frame_good (fun c w => c.keeps w) single_serve
    (stable_of_rely fun w v _ _ hrely => hR w v hrely)
    (fun w _ v _ hgood => hR w v hgood.times_le) h

theorem does_patchSubnet (idx : ℕ) :
    Detaches ns ns name (fun _ => True) (ask (.patchSubnet name [.test idx ns, .remove idx]))
      fun x w => x = .ok () → times ns name w = 0 := by
  refine .ask single_serve (lasts_const True) (fun x => lasts_of_imp) ?_
  intro w fault hw _
  refine ⟨removes_serve (.inr (.inr ⟨name, idx, rfl⟩)), ?_⟩
  obtain h | h | ⟨namespaces, hlookup, hidx, h⟩ := @patch_cases ns w fault name idx
  · rw [h]
    intro hok
    cases hok
  · rw [h]
    intro hok
    cases hok
  · rw [h]
    intro _
    exact times_removed hlookup hidx hw

theorem does_getSubnet : Detaches ns ns name (fun _ => True) (ask (.getSubnet name))
      fun x w => ∀ specNs, x = .ok specNs → ns ∉ specNs → times ns name w = 0 := by
  refine .ask single_serve (lasts_const True)
    (fun x w v _ _ h hw specNs hx hns => h.zero (hw specNs hx hns)) ?_
  intro w fault _ _
  refine ⟨removes_serve (.inr (.inl ⟨name, rfl⟩)), fun specNs hx hns => ?_⟩
  cases fault with
  | some status => cases hx
  | none =>
    cases hlookup : w.subnets.lookup name with
    | none =>
      simp only [serve, commit, hlookup] at hx
      cases hx
    | some namespaces =>
      simp only [serve, commit, hlookup] at hx
      cases hx
      rw [times_eq_zero]
      simpa only [serve, commit, held_of_lookup hlookup] using hns

theorem does_detachSubnetNsWithRetry (attempts : ℕ) (specNs : List String) :
    Detaches ns ns name (fun w => ns ∉ specNs → times ns name w = 0)
      (detachSubnetNsWithRetry name ns attempts specNs)
      fun outcome w => outcome.Settled → times ns name w = 0 := by
  induction attempts generalizing specNs with
  | zero => exact .pure lasts_of_imp fun _ _ h => h.elim
  | succ attempts ih =>
    rw [detachSubnetNsWithRetry]
    cases hidx : specNs.idxOf? ns with
    | none => exact .pure lasts_of_imp fun w hw _ => hw (List.idxOf?_eq_none_iff.mp hidx)
    | some idx =>
      refine .bind single_serve
        ((does_patchSubnet idx).weaken (fun _ _ => trivial) fun _ _ => id) fun x => ?_
      cases x with
      | ok _ => exact .pure lasts_of_imp fun w hw _ => hw rfl
      | error status =>
        dsimp only
        split
        · exact .pure lasts_of_imp fun _ _ h => h.elim
        · refine .bind single_serve
            (does_getSubnet.weaken (fun _ _ => trivial) fun _ _ => id) fun x => ?_
          cases x with
          | ok specNs => exact (ih specNs).weaken (fun w hw => hw specNs rfl) fun _ _ => id
          | error status =>
            exact .pure (fun w v _ _ h hw l hl hns => h.zero (hw l hl hns)) fun _ _ h => h.elim

/-- What is said of the Subnet is settled. -/
def Clean (name : Name) (outcomes : List (Name × Outcome)) : Prop :=
  ∀ outcome, (name, outcome) ∈ outcomes → outcome.Settled

theorem does_detachListed (items : List (Name × List String)) :
    Detaches ns ns name (Listed ns name items) (detachListed ns items)
      fun outcomes w => Clean name outcomes → times ns name w = 0 := by
  induction items with
  | nil =>
    refine .pure (fun w v _ _ h hw => hw.mono h) fun w hw _ => hw.1 fun _ => ?_
    exact not_mem_nil
  | cons item rest ih =>
    obtain ⟨subnetName, specNs⟩ := item
    rw [detachListed]
    split
    · next hns =>
      refine ih.weaken (fun w hw => ?_) fun _ _ => id
      by_cases hname : name = subnetName
      · subst hname
        exact .of_zero (hw.2 specNs mem_cons_self hns)
      · exact hw.tail_of_ne hname
    · next hns =>
      by_cases hname : name = subnetName
      · subst hname
        refine .bind single_serve ((does_detachSubnetNsWithRetry maxAttempts specNs).weaken
          (fun w _ h => absurd h hns) fun _ _ => id) fun outcome => ?_
        refine .bind single_serve (((does_of_every (every_detachListed rest)).frame
          (R := fun w => outcome.Settled → times ns name w = 0)
          fun w v h hw hset => h.zero (hw hset)).weaken (fun w hw => ⟨trivial, hw⟩)
          fun _ _ h => h.2) fun outcomes => ?_
        exact .pure lasts_of_imp fun w hw hclean => hw (hclean outcome mem_cons_self)
      · refine .bind single_serve (((does_of_every
          (every_detachSubnetNsWithRetry maxAttempts specNs)).frame
          (R := Listed ns name rest) fun w v h hw => hw.mono h).weaken
          (fun w hw => ⟨trivial, hw.tail_of_ne hname⟩) fun _ _ h => h.2) fun outcome => ?_
        refine .bind single_serve ih fun outcomes => ?_
        exact .pure lasts_of_imp fun w hw hclean =>
          hw fun o hmem => hclean o (mem_cons_of_mem _ hmem)

theorem does_detach (tenantName : String) :
    Detaches (tenantNs tenantName) (tenantNs tenantName) name (fun _ => True)
      (detachTenantNsFromVpcSubnet tenantName)
      fun result w => ∀ outcomes, result = .ok outcomes → Clean name outcomes →
        times (tenantNs tenantName) name w = 0 := by
  have hlist : Detaches (tenantNs tenantName) (tenantNs tenantName) name (fun _ => True)
      (ask .listSubnets) fun x w => ∀ items, x = .ok items →
        Listed (tenantNs tenantName) name items w := by
    refine .ask single_serve (lasts_const True)
      (fun x w v _ _ h hw items hx => (hw items hx).mono h) ?_
    intro w fault _ _
    refine ⟨removes_serve (.inl rfl), fun items hx => ?_⟩
    cases fault with
    | some status => cases hx
    | none =>
      obtain rfl := Except.ok.inj hx
      exact listed_of_entries
  refine .bind single_serve hlist fun x => ?_
  cases x with
  | error status =>
    refine .pure (fun w v _ _ h hw items hx => (hw items hx).mono h) fun w _ outcomes h => ?_
    cases h
  | ok items =>
    refine .bind single_serve ((does_detachListed items).weaken
      (fun w hw => hw items rfl) fun _ _ => id) fun outcomes => ?_
    refine .pure lasts_of_imp fun w hw found h hclean => hw ?_
    obtain rfl := Except.ok.inj h
    exact hclean

end Achieves

section Among

open Crowd

variable {ι : Type} [DecidableEq ι]

abbrev State (ι : Type) := Crowd World Request Request.Response ι (Except ℕ (List (Name × Outcome)))

abbrev Turns (ι : Type) := Turn Action Fault ι

/-- At first every tenant has its whole detach before it. -/
def begin (tenant : ι → String) (w : World) : State ι :=
  ⟨w, fun i => detachTenantNsFromVpcSubnet (tenant i)⟩

abbrev DetachRun (cond : State ι → Turns ι → Prop) (s t : State ι) : Prop :=
  Run (fun _ => serve) act cond s t

variable {tenant : ι → String} {w : World} {s : State ι} {cond : State ι → Turns ι → Prop}

/-- While nobody adds a namespace to a list, every detach keeps to its own, and one of the
tenants does what it is for. -/
theorem legal_of_run {i : ι} {name : Name} (hrun : DetachRun cond (begin tenant w) s)
    (hfirst : Single (tenantNs (tenant i)) name w)
    (hnobody : ∀ u, ¬ cond u (.act (.append name (tenantNs (tenant i))))) :
    Legal (Single (tenantNs (tenant i)) name) (fun _ => Fewer (tenantNs (tenant i)) name)
      (fun j w _ v => Removes (tenantNs (tenant j)) w v)
      (fun j result w => j = i → ∀ outcomes, result = .ok outcomes → Clean name outcomes →
        times (tenantNs (tenant i)) name w = 0) (fun _ => serve) s := by
  refine (hrun.invariant (P := fun _ => True) (fun _ => Fewer.refl)
    (fun _ fault w r h => single_serve fault w r h) ?_ ?_ ⟨hfirst, fun j => ?_⟩ trivial).1
  rotate_left 2
  · by_cases hji : j = i
    · subst hji
      exact (does_detach (tenant j) w hfirst trivial).mono fun _ _ _ h _ => h
    · exact (does_of_every (every_detach (tenant j)) w hfirst trivial).mono
        fun _ _ _ _ h => absurd h hji
  · intro t a ha hsingle _
    have hother : a ≠ .append name (tenantNs (tenant i)) := fun h => hnobody t (h ▸ ha)
    have hle := @times_act _ t.world name a hother
    exact ⟨Nat.le_trans hle hsingle, fun _ => hle, trivial⟩
  · intro t j fault r k _ _ _ _ hgood
    exact ⟨fun _ _ => hgood.times_le, trivial⟩

/-- In any run every step of a detach takes its tenant's namespace off one list, or nothing. -/
theorem removes_of_run {t : State ι} {i : ι} {fault : Fault}
    (hrun : DetachRun cond (begin tenant w) s)
    (hnext : next (fun _ => serve) act s (.call i fault) = some t) :
    Removes (tenantNs (tenant i)) s.world t.world := by
  have hlegal : Legal (fun _ => True) (fun _ _ _ => True)
      (fun j w _ v => Removes (tenantNs (tenant j)) w v) (fun _ _ _ => True)
      (fun _ => serve) s := by
    refine (hrun.invariant (P := fun _ => True) (fun _ _ => trivial) (fun _ _ _ _ _ => trivial)
      (fun _ _ _ _ _ => ⟨trivial, fun _ => trivial, trivial⟩)
      (fun _ _ _ _ _ _ _ _ _ _ => ⟨fun _ _ => trivial, trivial⟩) ?_ trivial).1
    refine ⟨trivial, fun j => ?_⟩
    have hgood : ∀ fault w r, True → OwnRequest (tenantNs (tenant j)) r →
        Removes (tenantNs (tenant j)) w (serve fault w r).2 := by
      intro fault w r _ hr
      exact removes_serve hr
    exact Triple.of_every (P := fun _ => True) hgood (every_detach (tenant j)) w trivial trivial
  obtain ⟨a, h, -⟩ | ⟨j, _, r, k, h, hrest, rfl⟩ := next_cases hnext
  · cases h
  · cases h
    exact hlegal.good hrest fault

/-- A detach takes its own tenant's namespace off the lists and nothing else, in whatever order
its requests come among those of others. Where a list had the namespace once at most, and nobody
adds it, it is off the list once the detach is through with it. What it ends with is what it has
been answered. -/
theorem detaches_own (hrun : DetachRun cond (begin tenant w) s) :
    (∀ i fault t, next (fun _ => serve) act s (.call i fault) = some t →
      Removes (tenantNs (tenant i)) s.world t.world) ∧
    (∀ i name outcomes, (held w name).count (tenantNs (tenant i)) ≤ 1 →
      (∀ u, ¬ cond u (.act (.append name (tenantNs (tenant i))))) →
      s.rest i = .pure (.ok outcomes) → Clean name outcomes →
        tenantNs (tenant i) ∉ held s.world name) ∧ ∀ name ns specNs patches reads outcome,
      replay patches reads (detachSubnetNsWithRetry name ns maxAttempts specNs) = some outcome →
        outcome.Told maxAttempts patches reads := by
  refine ⟨fun i fault t hnext => removes_of_run hrun hnext, ?_, ?_⟩
  · intro i name outcomes hfirst hnobody hdone hclean
    have hpost := (legal_of_run hrun hfirst hnobody).returned hdone
    exact times_eq_zero.mp (hpost rfl outcomes rfl hclean)
  · intro name ns specNs patches reads outcome h
    exact told_of_replay h

end Among

section Example

open Crowd

def harbour : Name := ⟨"harbour", by decide⟩

/-- Two tenants share a Subnet with a third. -/
def sharing : World := ⟨⟨[⟨harbour, ["tenant-ships", "tenant-docks", "tenant-tugs"]⟩], by simp⟩⟩

def leaving (i : Fin 2) : String := if i = 0 then "ships" else "tugs"

/-- Nobody else writes. -/
def among (_ : State (Fin 2)) : Turns (Fin 2) → Bool
  | .act _ => false
  | .call _ _ => true

/-- The second detach has ended, and took its entry off the Subnet. -/
def through (t : State (Fin 2)) : Bool :=
  match t.rest 1 with
  | .pure (.ok outcomes) => outcomes = [(harbour, .removed)]
  | _ => false

theorem rest_of_through {t : State (Fin 2)} (h : through t = true) :
    t.rest 1 = .pure (.ok [(harbour, .removed)]) := by
  rw [through] at h
  split at h
  · next outcomes hrest =>
    rw [hrest, of_decide_eq_true h]
  · exact absurd h Bool.false_ne_true

/-- Both have listed the Subnets before the first entry goes: the second finds its own at another
place, reads the list again, and takes it. -/
theorem detaches_own_sharing : ∃ t, through t = true ∧ "tenant-tugs" ∉ held t.world harbour := by
  have hplay : (Crowd.playWhile (fun _ => serve) act (fun s turn => among s turn = true)
      (begin leaving sharing) ([0, 1, 0, 1, 1, 1].map fun i => .call i none)).any
        through = true := by decide +kernel
  obtain ⟨t, hrun, ht⟩ := Crowd.exists_run_of_playWhile _ hplay
  refine ⟨t, ht, (detaches_own hrun).2.1 1 harbour _ (by decide +kernel)
    (fun _ h => absurd h Bool.false_ne_true) (rest_of_through ht) ?_⟩
  intro outcome hmem
  obtain rfl := (Prod.mk.inj (mem_singleton.mp hmem)).2
  exact trivial

end Example

end Detach
