import KubevirtUi.Library.Logs
import KubevirtUi.Vpcs.Calls

/-!
# Many requests at a time

Any number of requests, and passes of the operator, share the cluster. What a client relies on is
that the others write under their own names only, that a version stays with what was found under
it, and that a router that is gone does not come back. What it is held to is how its patches come
about: a side is laid down on what is there, and all else is written over what was read some time.
-/

namespace Vpcs

open Peering Interference Logs

variable {ι : Type}

inductive Job where
  | createVpcPeering (name remoteVpc : String) (linkCIDR : Option String)
  | deleteVpcPeering (name remoteVpc : String)
  | deleteVpc (name : String)
  | tearDown (name : String) (finalizer : Bool)

def Job.program (other : String → Except Failure Link) (rounds : Nat) : Job → Call Outcome
  | .createVpcPeering name remoteVpc linkCIDR => Vpcs.createVpcPeering other name remoteVpc linkCIDR
  | .deleteVpcPeering name remoteVpc => Vpcs.deleteVpcPeering name remoteVpc
  | .deleteVpc name => Vpcs.deleteVpc rounds name
  | .tearDown name finalizer => Vpcs.tearDown name finalizer

/-- Whether the job asks for an entry to be deleted. -/
def Job.Deletes (router remote : String) : Job → Prop
  | .deleteVpcPeering a b => (router = a ∧ remote = b) ∨ (router = b ∧ remote = a)
  | .deleteVpc name => remote = name
  | _ => False

def Event.client : Event ι → ι
  | .laid i .. => i
  | .taken i .. => i
  | .cleaned i _ => i
  | .deleting i _ => i
  | .missed i _ => i
  | .listed i .. => i
  | .handed i _ => i
  | .looked i .. => i

/-- The events that a request of the client may leave behind. -/
def Request.Notes (i : ι) (e : Event ι) : Request → Prop
  | .getVpc name => e = .missed i name
  | .getVpcPeerings name => ∃ remotes, e = .listed i name remotes
  | .patchVpc name _ _ reason => e = reason.event i name ∨ e = .missed i name
  | .deleteVpc name => e = .deleting i name
  | .listSubnets purpose => ∃ found, e = .looked i purpose found
  | .getSubnet _ => ∃ found, e = .looked i .presence found
  | .deleteRecord name => e = .handed i name
  | _ => False

/-- What neither patches a router nor deletes one. -/
def Request.Plain : Request → Prop
  | .patchVpc .. => False
  | .deleteVpc _ => False
  | _ => True

/-- What patches no router. -/
def Request.KeepsLists : Request → Prop
  | .patchVpc .. => False
  | _ => True

/-- What takes away from a router takes it from what was read, and whatever the router is now. -/
def Request.Proper (job : Job) : Request → Prop
  | .patchVpc _ _ _ (.lay _) => False
  | .patchVpc name version patch (.take remote cidrs read undo) =>
    version = none ∧ patch = withoutSide read remote cidrs ∧
      (undo = false → job.Deletes name remote)
  | .patchVpc _ version patch (.clean read) =>
    version = none ∧ patch =
      { staticRoutes := some (Keyed.drop StaticRoute.cidr [some "0.0.0.0/0"]
          (items read.staticRoutes)) }
  | .deleteVpc _ => False
  | _ => True

/-- How the writes of a client come about. -/
def Sent (job : Job) (w : World ι) : Request → Prop
  | .patchVpc name version patch (.lay side) =>
    ∃ read, version = some read ∧ ∀ item, w.routers.lookup name = some item →
      item.version = read → patch = peeringSidePatch item.value side
  | .deleteVpc _ => True
  | r => r.Proper job

/-- What a client relies on. -/
structure Relied (i : ι) (w v : World ι) : Prop where
  log : Extends (fun e => some e.client) i w.log v.log
  known : ∀ name item, Store.Known w.routers w.clock name item →
    Store.Known v.routers v.clock name item
  absent : ∀ name, w.routers.lookup name = none → v.routers.lookup name = none

/-- The log grows, and no router comes back. -/
structure Grown (w v : World ι) : Prop where
  log : w.log <+: v.log
  absent : ∀ name, w.routers.lookup name = none → v.routers.lookup name = none

/-- What is true from then on. -/
def Growing (P : World ι → Prop) : Prop := ∀ w v, Grown w v → P w → P v

/-- Since the log was this, the event has happened. -/
def Since (before : List (Event ι)) (e : Event ι) (w : World ι) : Prop :=
  ∃ after, w.log = before ++ after ∧ e ∈ after

/-- No version lies ahead of the clock. -/
def Timely (w : World ι) : Prop := Store.Timely w.routers w.clock

section Steps

variable {i j : ι} {w v : World ι} {fault : Fault} {r : Request} {name : String}
  {item : Versioned VpcSpec} {job : Job} {P R : World ι → Prop} {before : List (Event ι)}
  {e : Event ι}

theorem Request.Plain.proper (h : r.Plain) : r.Proper job := by
  cases r with
  | patchVpc _ _ _ _ | deleteVpc _ => exact h.elim
  | _ => trivial

theorem Request.Plain.keepsLists (h : r.Plain) : r.KeepsLists := by
  cases r with
  | patchVpc _ _ _ _ => exact h
  | _ => trivial

theorem Request.KeepsLists.sent (h : r.KeepsLists) : Sent job w r := by
  cases r with
  | patchVpc _ _ _ _ => exact h.elim
  | _ => trivial

theorem Request.Proper.sent (h : r.Proper job) : Sent job w r := by
  cases r with
  | patchVpc _ _ _ reason =>
    cases reason with
    | lay _ => exact h.elim
    | take _ _ _ _ => exact h
    | clean _ => exact h
  | deleteVpc _ => exact h.elim
  | _ => trivial

theorem client_of_notes (h : r.Notes i e) : e.client = i := by
  cases r with
  | getVpc _ => rw [h]; rfl
  | getVpcPeerings _ => obtain ⟨_, rfl⟩ := h; rfl
  | patchVpc _ _ _ reason =>
    obtain rfl | rfl := h
    · cases reason <;> rfl
    · rfl
  | deleteVpc _ => rw [h]; rfl
  | listSubnets _ => obtain ⟨_, rfl⟩ := h; rfl
  | getSubnet _ => obtain ⟨_, rfl⟩ := h; rfl
  | deleteRecord _ => rw [h]; rfl
  | _ => exact h.elim

/-- What a request of a client does to the routers. -/
inductive Effect (i : ι) (w : World ι) : Request → World ι → Prop
  | kept {r : Request} {v : World ι} : v.routers = w.routers → v.clock = w.clock →
      Effect i w r v
  | patched {name : String} {item : Versioned VpcSpec} {version : Option Nat} {patch : VpcSpec}
      {reason : Reason} : w.routers.lookup name = some item →
      version.all (· = item.version) = true →
      Effect i w (.patchVpc name version patch reason)
        (w.patched name item patch (reason.event i name))
  | erased {name : String} : Effect i w (.deleteVpc name)
      { w with routers := w.routers.erase name, log := w.log ++ [.deleting i name] }

theorem effect_serve (i : ι) (fault : Fault) (w : World ι) (r : Request) :
    Effect i w r (serve i fault w r).2 := by
  match fault with
  | some e => cases r <;> exact .kept rfl rfl
  | none =>
    simp only [serve]
    cases r with
    | getVpc name | getVpcPeerings name =>
      simp only [commit]
      split <;> exact .kept rfl rfl
    | deleteVpc name =>
      simp only [commit]
      split
      · exact .kept rfl rfl
      · exact .erased
    | patchVpc name version patch reason =>
      simp only [commit]
      split
      · exact .kept rfl rfl
      · next item hitem =>
        split
        · next hversion => exact .patched hitem hversion
        · exact .kept rfl rfl
    | deleteSubnet name | getNetwork name =>
      simp only [commit]
      split <;> exact .kept rfl rfl
    | _ => exact .kept rfl rfl

theorem log_serve (i : ι) (fault : Fault) (w : World ι) (r : Request) :
    (serve i fault w r).2.log = w.log ∨
      ∃ e, r.Notes i e ∧ (serve i fault w r).2.log = w.log ++ [e] := by
  match fault with
  | some e =>
    cases r with
    | getVpc name => exact .inr ⟨_, rfl, rfl⟩
    | getVpcPeerings name => exact .inr ⟨_, ⟨_, rfl⟩, rfl⟩
    | patchVpc name version patch reason => exact .inr ⟨_, .inr rfl, rfl⟩
    | listSubnets purpose => exact .inr ⟨_, ⟨_, rfl⟩, rfl⟩
    | getSubnet name => exact .inr ⟨_, ⟨_, rfl⟩, rfl⟩
    | deleteVpc name => exact .inr ⟨_, rfl, rfl⟩
    | deleteRecord name => exact .inr ⟨_, rfl, rfl⟩
    | _ => exact .inl rfl
  | none =>
    simp only [serve]
    cases r with
    | getVpc name | deleteSubnet name | getNetwork name =>
      simp only [commit]
      split <;> exact .inl rfl
    | getVpcPeerings name =>
      simp only [commit]
      split <;> exact .inr ⟨_, ⟨_, rfl⟩, rfl⟩
    | deleteVpc name =>
      simp only [commit]
      split <;> exact .inr ⟨_, rfl, rfl⟩
    | patchVpc name version patch reason =>
      simp only [commit]
      split
      · exact .inl rfl
      · split
        · refine .inr ⟨_, .inl rfl, ?_⟩
          simp only [World.patched]
          split <;> rfl
        · exact .inl rfl
    | listSubnets purpose => exact .inr ⟨_, ⟨_, rfl⟩, rfl⟩
    | getSubnet name => exact .inr ⟨_, ⟨_, rfl⟩, rfl⟩
    | deleteRecord name => exact .inr ⟨_, rfl, rfl⟩
    | _ => exact .inl rfl

theorem Effect.timely (h : Effect i w r v) (hw : Timely w) : Timely v := by
  cases h with
  | kept hrouters hclock =>
    rw [Timely, hrouters, hclock]
    exact hw
  | patched hitem _ =>
    simp only [World.patched]
    split
    · exact hw
    · exact Store.Timely.insert hw _
  | erased => exact Store.Timely.erase hw

theorem timely_serve (i : ι) (fault : Fault) (w : World ι) (r : Request) (h : Timely w) :
    Timely (serve i fault w r).2 := (effect_serve i fault w r).timely h

theorem Effect.known (h : Effect i w r v) (hknown : Store.Known w.routers w.clock name item) :
    Store.Known v.routers v.clock name item := by
  cases h with
  | kept hrouters hclock =>
    rw [hrouters, hclock]
    exact hknown
  | patched hitem _ =>
    simp only [World.patched]
    split
    · exact hknown
    · exact hknown.insert _
  | erased => exact hknown.erase

theorem Effect.absent (h : Effect i w r v) (hname : w.routers.lookup name = none) :
    v.routers.lookup name = none := by
  cases h with
  | kept hrouters hclock => rw [hrouters, hname]
  | @patched here item version patch reason hitem _ =>
    simp only [World.patched]
    split
    · exact hname
    · have hne : name ≠ here := by
        rintro rfl
        rw [hname] at hitem
        contradiction
      rw [AList.lookup_insert_ne hne, hname]
  | erased =>
    by_contra hthere
    obtain ⟨item, hitem⟩ := Option.ne_none_iff_exists'.mp hthere
    rw [Store.lookup_of_erase hitem] at hname
    contradiction

theorem relied_serve (h : j ≠ i) : Relied j w (serve i fault w r).2 where
  log := by
    obtain hlog | ⟨e, he, hlog⟩ := log_serve i fault w r
    · rw [hlog]
      exact .refl j w.log
    · rw [hlog]
      refine extends_concat fun hclient => h ?_
      rw [client_of_notes he] at hclient
      exact (Option.some.inj hclient).symm
  known _ _ := (effect_serve i fault w r).known
  absent _ := (effect_serve i fault w r).absent

theorem relied_refl (i : ι) (w : World ι) : Relied i w w where
  log := .refl i w.log
  known _ _ h := h
  absent _ h := h

theorem timely_act (a : Action) (h : Timely w) : Timely (act a w) := by
  cases a with
  | change around => exact h
  | touch name =>
    simp only [act]
    split
    · exact h
    · exact Store.Timely.insert h _

theorem relied_act (i : ι) (a : Action) (w : World ι) : Relied i w (act a w) := by
  cases a with
  | change around => exact ⟨.refl i w.log, fun _ _ h => h, fun _ h => h⟩
  | touch here =>
    simp only [act]
    split
    · exact relied_refl i w
    · next item hitem =>
      refine ⟨.refl i w.log, fun _ _ h => h.insert _, fun name hname => ?_⟩
      have hne : name ≠ here := by
        rintro rfl
        rw [hname] at hitem
        contradiction
      rw [AList.lookup_insert_ne hne, hname]

theorem grown_serve (i : ι) (fault : Fault) (w : World ι) (r : Request) :
    Grown w (serve i fault w r).2 where
  log := by
    obtain hlog | ⟨e, -, hlog⟩ := log_serve i fault w r
    · exact ⟨[], by rw [hlog, List.append_nil]⟩
    · exact ⟨[e], hlog.symm⟩
  absent _ := (effect_serve i fault w r).absent

theorem Relied.grown (h : Relied i w v) : Grown w v where
  log := by
    obtain ⟨more, hmore, -⟩ := h.log
    exact ⟨more, hmore.symm⟩
  absent := h.absent

namespace Growing

theorem lasts (h : Growing P) : Lasts Timely (Relied i) P := fun w v _ _ hrely => h w v hrely.grown

theorem served (h : Growing P) (fault : Fault) (w : World ι) (r : Request) (_ : Timely w)
    (_ : True) (hP : P w) : P (serve i fault w r).2 := h w _ (grown_serve i fault w r) hP

theorem and (hP : Growing P) (hR : Growing R) : Growing fun w => P w ∧ R w :=
  fun w v h hw => ⟨hP w v h hw.1, hR w v h hw.2⟩

theorem or (hP : Growing P) (hR : Growing R) : Growing fun w => P w ∨ R w :=
  fun w v h hw => hw.imp (hP w v h) (hR w v h)

theorem const (p : Prop) : Growing fun _ : World ι => p := fun _ _ _ h => h

end Growing

theorem growing_absent (name : String) : Growing fun w : World ι => w.routers.lookup name = none :=
  fun _ _ h => h.absent name

theorem growing_since (before : List (Event ι)) (e : Event ι) : Growing (Since before e) := by
  rintro w v ⟨⟨more, hlog⟩, -⟩ ⟨after, hw, he⟩
  exact ⟨after ++ more, by rw [← hlog, hw, List.append_assoc], List.mem_append_left more he⟩

theorem growing_started (before : List (Event ι)) :
    Growing fun w : World ι => before <+: w.log := fun _ _ h hbefore => hbefore.trans h.log

theorem since_concat (h : before <+: w.log) (hv : v.log = w.log ++ [e]) : Since before e v := by
  obtain ⟨after, hafter⟩ := h
  exact ⟨after ++ [e], by rw [hv, ← hafter, List.append_assoc],
    List.mem_append_right after (List.mem_singleton.mpr rfl)⟩

theorem Since.mem (h : Since before e w) : e ∈ w.log := by
  obtain ⟨after, hlog, he⟩ := h
  rw [hlog]
  exact List.mem_append_right before he

end Steps

end Vpcs
