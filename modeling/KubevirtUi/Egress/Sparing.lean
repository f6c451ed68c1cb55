import KubevirtUi.Egress.Creation
import KubevirtUi.Egress.Wired

/-!
# A creation whose calls may fail

Any call may fail, and then has no effect; only deletions succeed. A request that makes an object
makes it, or is refused by the API with a status, or ends in some other exception.
-/

namespace Egress

open Peering Interference Python.Ipaddress

def Request.deletes : Request → Bool
  | .deleteVpc _ | .deleteSubnet _ | .deleteGateway _ | .deleteAllocator _ => true
  | _ => false

def Request.reads : Request → Bool
  | .getVpc _ | .listVpcs | .getSubnet _ | .listSubnets | .listLabelledSubnets _ _ | .getGateway _
  | .listGateways | .readAllocator _ => true
  | _ => false

/-- Deletions do not fail. -/
def serveSparing (fault : Fault) (w : World) (r : Request) : r.Response × World :=
  serve (if r.deletes then none else fault) w r

/-- It fails, and not with an `ApiException`. -/
def Raised (fault : Fault) : Prop := ∃ e, fault = some e ∧ ∀ status, e ≠ .api status

/-- It fails with an `ApiException`. -/
def Declined (fault : Fault) : Prop := ∃ status, fault = some (.api status)

/-- The API refuses: the call fails so, or the object is there. -/
def RefusedWith (fault : Fault) (there : Prop) (status : Nat) : Prop :=
  fault = some (.api status) ∨ fault = none ∧ there ∧ status = 409

def Refused (fault : Fault) (there : Prop) : Prop := ∃ status, RefusedWith fault there status

variable {e : Failure} {status k : Nat}

section Serve

variable {fault : Fault} {faults : Nat → Fault} {w u v : World} {r : Request} {n m : Nat}
  {α β : Type} {p : Call α}

theorem declined_or_raised (e : Failure) :
    (∃ status, e = .api status) ∨ (∀ status, e ≠ .api status) ∧ Raised (some e) := by
  by_cases hapi : ∃ status, e = .api status
  · exact .inl hapi
  · have hother : ∀ status, e ≠ .api status := fun status hstatus => hapi ⟨status, hstatus⟩
    exact .inr ⟨hother, e, rfl, hother⟩

theorem not_raised_none : ¬Raised none := fun ⟨_, h, _⟩ => nomatch h

theorem Declined.not_raised (h : Declined fault) : ¬Raised fault := by
  rintro ⟨e, he, hother⟩
  obtain ⟨status, hstatus⟩ := h
  exact hother status (Option.mem_unique he hstatus)

theorem fault_cases (fault : Fault) : fault = none ∨
    (∃ status, fault = some (.api status) ∧ ¬Raised fault) ∨
    ∃ e, fault = some e ∧ (∀ status, e ≠ .api status) ∧ Raised fault := by
  cases fault with
  | none => exact .inl rfl
  | some e =>
    obtain ⟨status, rfl⟩ | ⟨hother, hraised⟩ := declined_or_raised e
    · exact .inr (.inl ⟨status, rfl, Declined.not_raised ⟨status, rfl⟩⟩)
    · exact .inr (.inr ⟨e, rfl, hother, hraised⟩)

theorem serveSparing_none : serveSparing none w r = commit w r := by
  rw [serveSparing, ite_self, serve]

theorem serveSparing_deletes (h : r.deletes = true) : serveSparing fault w r = commit w r := by
  rw [serveSparing, if_pos h, serve]

theorem serveSparing_of_failure (h : fault = some e) (hdeletes : r.deletes = false) :
    serveSparing fault w r = (.error e, w) := by
  rw [h, serveSparing, hdeletes]
  rfl

theorem serveSparing_reads (h : r.reads = true) : (serveSparing fault w r).2 = w := by
  cases fault with
  | none =>
    rw [serveSparing_none]
    cases r <;> first | contradiction | (rw [commit]; split <;> rfl) | rfl
  | some e =>
    have hdeletes : r.deletes = false := by cases r <;> first | contradiction | rfl
    rw [serveSparing_of_failure rfl hdeletes]

/-- The three ways in which a request that makes an object is answered. -/
theorem serveSparing_creates {r : Request} {there : Prop} {a : r.Result}
    (hdeletes : r.deletes = false) (hthere : there → commit w r = (.error (.api 409), w))
    (hnew : ¬there → commit w r = (.ok a, v)) :
    (fault = none ∧ ¬there ∧ serveSparing fault w r = (.ok a, v)) ∨
    (∃ status, RefusedWith fault there status ∧
      serveSparing fault w r = (.error (.api status), w)) ∨
    ∃ e, fault = some e ∧ (∀ status, e ≠ .api status) ∧
      serveSparing fault w r = (.error e, w) := by
  cases hfault : fault with
  | none =>
    by_cases h : there
    · exact .inr (.inl ⟨409, .inr ⟨rfl, h, rfl⟩, by rw [serveSparing_none, hthere h]⟩)
    · exact .inl ⟨rfl, h, by rw [serveSparing_none, hnew h]⟩
  | some e =>
    have hserve : serveSparing (some e) w r = (.error e, w) :=
      serveSparing_of_failure rfl hdeletes
    obtain ⟨status, rfl⟩ | ⟨hother, -⟩ := declined_or_raised e
    · exact .inr (.inl ⟨status, .inl rfl, hserve⟩)
    · exact .inr (.inr ⟨e, rfl, hother, hserve⟩)

/-- With failing calls, but for deletions, the call ends so. -/
abbrev Runs (faults : Nat → Fault) (p : Call α) (n : Nat) (w : World) (x : Except Failure α)
    (m : Nat) (v : World) : Prop :=
  Ends serveSparing faults p n w x m v

theorem Runs.ask_of {x : r.Response} (h : serveSparing (faults n) w r = (x, v)) :
    Runs faults (ask r) n w x (n + 1) v := by
  have hask := Ends.ask serveSparing faults r n w
  rwa [h] at hask

theorem Runs.ask_none (h : faults n = none) :
    Runs faults (ask r) n w (commit w r).1 (n + 1) (commit w r).2 :=
  Runs.ask_of (by rw [h, serveSparing_none])

theorem Runs.ask_deletes (h : r.deletes = true) :
    Runs faults (ask r) n w (commit w r).1 (n + 1) (commit w r).2 :=
  Runs.ask_of (serveSparing_deletes h)

theorem Runs.ask_failure (h : faults n = some e) (hdeletes : r.deletes = false) :
    Runs faults (ask r) n w (.error e) (n + 1) w :=
  Runs.ask_of (serveSparing_of_failure h hdeletes)

/-- A call that only reads. -/
abbrev Reads (p : Call α) : Prop := Every (fun r => r.reads = true) p.run

theorem reads_ask (h : r.reads = true) : Reads (ask r) := Every.ask h

variable {handler : Nat → Call α} {x : Except Failure α}

theorem reads_exceptApi (hp : Reads p) (hhandler : ∀ status, Reads (handler status)) :
    Reads (exceptApi p handler) := by
  apply Every.tryCatch hp
  intro e
  cases e with
  | api status => exact hhandler status
  | http status detail => exact .throw _
  | other text => exact .throw _

theorem Runs.of_reads (hp : Reads p) (h : Runs faults p n w x m u) : u = w :=
  h.of_every (R := fun w v => v = w) hp (fun _ => rfl) (fun _ _ _ hv hu => hu.trans hv)
    fun _ _ _ hr => serveSparing_reads hr

theorem Runs.exceptApi_ok {a : α} (h : Runs faults p n w (.ok a) m u) :
    Runs faults (exceptApi p handler) n w (.ok a) m u :=
  h.tryCatch_ok

theorem Runs.exceptApi_api (h : Runs faults p n w (.error (.api status)) k v)
    (hhandler : Runs faults (handler status) k v x m u) :
    Runs faults (exceptApi p handler) n w x m u :=
  h.tryCatch_error hhandler

theorem Runs.exceptApi_raised (hother : ∀ status, e ≠ .api status)
    (h : Runs faults p n w (.error e) m u) :
    Runs faults (exceptApi p handler) n w (.error e) m u := by
  cases e with
  | api status => exact absurd rfl (hother status)
  | http status detail => exact h.tryCatch_error .throw
  | other text => exact h.tryCatch_error .throw

theorem Runs.of_handler (hp : Runs faults p n w (.error (.api status)) k v)
    (h : Runs faults (exceptApi p handler) n w x m u) : Runs faults (handler status) k v x m u :=
  h.handler hp

theorem runs_deletion {a : r.Result} (hdeletes : r.deletes = true)
    (hcommit : commit w r = (.ok a, v) ∨ commit w r = (.error (.api 404), w) ∧ v = w) :
    Runs faults (exceptApi (ask r) fun _ => pure a) n w (.ok a) (n + 1) v := by
  have hask : Runs faults (ask r) n w _ _ _ := Runs.ask_deletes hdeletes
  obtain hthere | ⟨hnone, rfl⟩ := hcommit
  · rw [hthere] at hask
    exact hask.exceptApi_ok
  · rw [hnone] at hask
    exact hask.exceptApi_api .pure

section OrNone

variable {r : Request} {found : Option r.Result} (hdeletes : r.deletes = false)
  (hcommit : commit w r = ((found.map Except.ok).getD (.error (.api 404)), w))

include hcommit in
theorem runs_orNone (h : faults n = none) :
    Runs faults (orNone (ask r)) n w (.ok found) (n + 1) w := by
  have hask : Runs faults (ask r) n w _ _ _ := Runs.ask_none h
  rw [hcommit] at hask
  cases found with
  | none => exact Runs.exceptApi_api hask.bind_error .pure
  | some a => exact Runs.exceptApi_ok (hask.bind .pure)

include hdeletes in
theorem runs_orNone_missing (h : faults n = some (.api 404)) :
    Runs faults (orNone (ask r)) n w (.ok none) (n + 1) w := by
  have hask : Runs faults (ask r) n w _ _ _ := Runs.ask_failure h hdeletes
  exact Runs.exceptApi_api hask.bind_error .pure

include hdeletes in
theorem runs_orNone_error (h404 : e ≠ .api 404) (h : faults n = some e) :
    Runs faults (orNone (ask r)) n w (.error e) (n + 1) w := by
  have hask : Runs faults (ask r) n w _ _ _ := Runs.ask_failure h hdeletes
  obtain ⟨status, rfl⟩ | ⟨hother, -⟩ := declined_or_raised e
  · refine Runs.exceptApi_api hask.bind_error ?_
    rw [if_neg fun hstatus => h404 (congrArg Failure.api hstatus)]
    exact .throw
  · exact Runs.exceptApi_raised hother hask.bind_error

include hdeletes hcommit in
theorem Runs.of_orNone {f : Option r.Result → Call α}
    (h : Runs faults (orNone (ask r) >>= f) n w x m u) :
    faults n = none ∧ Runs faults (f found) (n + 1) w x m u ∨
    faults n = some (.api 404) ∧ Runs faults (f none) (n + 1) w x m u ∨
    ∃ e, e ≠ .api 404 ∧ faults n = some e ∧ x = .error e ∧ m = n + 1 ∧ u = w := by
  cases hfault : faults n with
  | none => exact .inl ⟨rfl, h.rest (runs_orNone hcommit hfault)⟩
  | some e =>
    by_cases h404 : e = .api 404
    · have hread : Runs faults (orNone (ask r)) n w _ _ _ :=
        runs_orNone_missing hdeletes (hfault.trans (congrArg some h404))
      exact .inr (.inl ⟨congrArg some h404, h.rest hread⟩)
    · have hread : Runs faults (orNone (ask r)) n w _ _ _ :=
        runs_orNone_error hdeletes h404 hfault
      exact .inr (.inr ⟨e, h404, rfl, h.unique hread.bind_error⟩)

end OrNone

theorem Runs.of_exceptApi (h : Runs faults (exceptApi p handler) n w x m u) :
    (∃ a, x = .ok a ∧ Runs faults p n w (.ok a) m u) ∨
    (∃ status k v, Runs faults p n w (.error (.api status)) k v ∧
      Runs faults (handler status) k v x m u) ∨
    ∃ e, x = .error e ∧ (∀ status, e ≠ .api status) ∧ Runs faults p n w (.error e) m u := by
  obtain ⟨y, k, v, hp⟩ := Ends.exists_end serveSparing faults p n w
  cases y with
  | ok a =>
    obtain ⟨rfl, rfl, rfl⟩ := h.unique hp.tryCatch_ok
    exact .inl ⟨a, rfl, hp⟩
  | error e =>
    have hhandler := h.handler hp
    cases e with
    | api status => exact .inr (.inl ⟨status, k, v, hp, hhandler⟩)
    | http status detail =>
      obtain ⟨rfl, rfl, rfl⟩ := hhandler.unique .throw
      exact .inr (.inr ⟨_, rfl, nofun, hp⟩)
    | other text =>
      obtain ⟨rfl, rfl, rfl⟩ := hhandler.unique .throw
      exact .inr (.inr ⟨_, rfl, nofun, hp⟩)

theorem Runs.of_creates {there : Prop} {a : r.Result} {handler : Nat → Call r.Result}
    {x : r.Response} (hdeletes : r.deletes = false)
    (hthere : there → commit w r = (.error (.api 409), w)) (hnew : ¬there → commit w r = (.ok a, v))
    (h : Runs faults (exceptApi (ask r) handler) n w x m u) :
    (faults n = none ∧ ¬there ∧ x = .ok a ∧ m = n + 1 ∧ u = v) ∨
    (∃ status, RefusedWith (faults n) there status ∧ Runs faults (handler status) (n + 1) w x m u) ∨
    Raised (faults n) ∧ u = w ∧ ∃ e, x = .error e := by
  obtain ⟨hfault, hnot, hserve⟩ | ⟨status, hrefused, hserve⟩ | ⟨e, he, hother, hserve⟩ :=
    @serveSparing_creates (faults n) w v r there a hdeletes hthere hnew
  · exact .inl ⟨hfault, hnot, h.unique (Runs.exceptApi_ok (Runs.ask_of hserve))⟩
  · exact .inr (.inl ⟨status, hrefused, Runs.of_handler (Runs.ask_of hserve) h⟩)
  · obtain ⟨rfl, -, rfl⟩ := h.unique (Runs.exceptApi_raised hother (Runs.ask_of hserve))
    exact .inr (.inr ⟨⟨e, he, hother⟩, rfl, e, rfl⟩)

end Serve

end Egress
