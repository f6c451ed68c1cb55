import KubevirtUi.Library.Crowd
import KubevirtUi.Library.Store

/-!
# Allocation through a counter

A ConfigMap holds the next index. An allocation reads it, or creates it where there is
none, lists what is in use, picks an index from the counter on, and moves the counter
past it under the version of its read. A refused allocation starts over, a few times.

What is picked is a parameter, as is what is listed: Subnets for the ranges of VPCs, the
peerings of VPCs for their links.

With nobody else around the counter that is read is the counter that is moved, so an
attempt returns what is picked from the counter and the listing, or raises what picking
raises.
-/

namespace Allocators

open Interference

variable {ι σ α : Type}

/-- What has been done: somebody changed what is in use, a client listed it or failed to,
or a client moved the counter. -/
inductive Event (ι σ : Type) where
  | changed (cluster : σ)
  | listed (client : ι) (seen : Option σ)
  | reserved (client : ι) (next : Int)

/-- The counter, what is in use, and what has been done so far. -/
structure World (ι σ : Type) where
  clock : Nat
  counter : Option (Versioned Int)
  cluster : σ
  log : List (Event ι σ)

inductive Request where
  | read
  | create
  | list
  | replace (version : Nat) (next : Int)

@[reducible] def Request.Result (σ : Type) : Request → Type
  | .read => Versioned Int
  | .create => Versioned Int
  | .list => σ
  | .replace .. => Unit

/-- An answer, or the status that the API server refuses with. -/
abbrev Request.Response (σ : Type) (r : Request) : Type := Except Nat (r.Result σ)

/-- A request may be refused for a reason that has nothing to do with the counter. -/
abbrev Fault := Option Nat

/-- What a request that is not refused does. -/
def commit (i : ι) (w : World ι σ) : (r : Request) → r.Response σ × World ι σ
  | .read =>
    match w.counter with
    | none => (.error 404, w)
    | some cm => (.ok cm, w)
  | .create =>
    match w.counter with
    | none =>
      (.ok ⟨w.clock + 1, 0⟩, { w with clock := w.clock + 1, counter := some ⟨w.clock + 1, 0⟩ })
    | some _ => (.error 409, w)
  | .list => (.ok w.cluster, { w with log := w.log ++ [.listed i (some w.cluster)] })
  | .replace version next =>
    match w.counter with
    | none => (.error 404, w)
    | some cm =>
      if cm.version = version then
        (.ok (),
          { w with
            clock := w.clock + 1
            counter := some ⟨w.clock + 1, next⟩
            log := w.log ++ [.reserved i next] })
      else (.error 409, w)

/-- What a request that is refused leaves behind: a failed listing is on record. -/
def refuse (i : ι) (w : World ι σ) : Request → World ι σ
  | .list => { w with log := w.log ++ [.listed i none] }
  | _ => w

def serve (i : ι) (fault : Fault) (w : World ι σ) (r : Request) : r.Response σ × World ι σ :=
  match fault with
  | none => commit i w r
  | some status => (.error status, refuse i w r)

/-- What others do: they change what is in use, as they like. -/
def act (cluster : σ) (w : World ι σ) : World ι σ :=
  { w with cluster, log := w.log ++ [.changed cluster] }

/-- What a call may raise: an `ApiException`, an `HTTPException`, or a `ValueError`. -/
inductive Failure where
  | api (status : Nat)
  | http (detail : String)
  | value
  deriving DecidableEq

abbrev Call (σ α : Type) := Program Request (Request.Response σ) α

def ask (r : Request) : Call σ (r.Response σ) := Program.ask r

/-- The counter, which is created where there is none. -/
def readCounter : Call σ (Except Failure (Versioned Int)) := do
  match ← ask .read with
  | .ok cm => pure (.ok cm)
  | .error status =>
    if status = 404 then
      match ← ask .create with
      | .ok cm => pure (.ok cm)
      | .error status => pure (.error (.api status))
    else pure (.error (.api status))

/-- What is in use, or nothing where the listing fails. -/
def listInUse : Call σ (Option σ) := do
  match ← ask .list with
  | .ok seen => pure (some seen)
  | .error _ => pure none

/-- Picks an index and a result, from the counter and what the listing shows. -/
abbrev Choose (σ α : Type) := Int → Option σ → Except Failure (Int × α)

/-- A single attempt. -/
def allocateOnce (choose : Choose σ α) : Call σ (Except Failure α) := do
  match ← readCounter with
  | .error e => pure (.error e)
  | .ok cm =>
    let seen ← listInUse
    match choose cm.value seen with
    | .error e => pure (.error e)
    | .ok (index, result) =>
      match ← ask (.replace cm.version (index + 1)) with
      | .ok () => pure (.ok result)
      | .error status => pure (.error (.api status))

/-- An attempt that is refused with a conflict is made again, as many times as are left. -/
def attempts (once : Call σ (Except Failure α)) (detail : String) : Nat → Call σ (Except Failure α)
  | 0 => pure (.error (.http detail))
  | left + 1 => do
    match ← once with
    | .ok result => pure (.ok result)
    | .error e =>
      if e = .api 409 ∧ 0 < left then attempts once detail left else pure (.error e)

def maxRetries : Nat := 5

variable {ι σ α : Type}

/-- Every request is answered, but perhaps not the listing. -/
def onlyListing (fault : Fault) : Request → Fault
  | .list => fault
  | _ => none

/-- The next index; a counter that is not there yet will be created at zero. -/
def World.next (w : World ι σ) : Int := w.counter.elim 0 (·.value)

/-- What a listing sees. -/
def World.seen (w : World ι σ) (fault : Fault) : Option σ :=
  match fault with
  | none => some w.cluster
  | some _ => none

theorem run_readCounter (i : ι) (fault : Fault) (w : World ι σ) :
    ∃ version clock, (readCounter : Call σ _).run (serve i) (onlyListing fault) w =
      (.ok ⟨version, w.next⟩,
        { w with clock := clock, counter := some ⟨version, w.next⟩ }) := by
  obtain ⟨clock, counter, cluster, log⟩ := w
  cases counter with
  | none => exact ⟨clock + 1, clock + 1, rfl⟩
  | some cm => exact ⟨cm.version, clock, rfl⟩

theorem run_listInUse (i : ι) (fault : Fault) (w : World ι σ) :
    (listInUse : Call σ _).run (serve i) (onlyListing fault) w =
      (w.seen fault, { w with log := w.log ++ [.listed i (w.seen fault)] }) := by
  cases fault <;> rfl

theorem run_allocateOnce (choose : Choose σ α) (i : ι) (fault : Fault) (w : World ι σ) :
    (∀ e, choose w.next (w.seen fault) = .error e →
      ((allocateOnce choose).run (serve i) (onlyListing fault) w).1 = .error e) ∧
    ∀ index result, choose w.next (w.seen fault) = .ok (index, result) →
      ((allocateOnce choose).run (serve i) (onlyListing fault) w).1 = .ok result ∧
      ((allocateOnce choose).run (serve i) (onlyListing fault) w).2.next = index + 1 ∧
      ((allocateOnce choose).run (serve i) (onlyListing fault) w).2.cluster = w.cluster := by
  obtain ⟨version, clock, hread⟩ := run_readCounter i fault w
  have hseen : World.seen { w with clock := clock, counter := some ⟨version, w.next⟩ } fault =
      w.seen fault := rfl
  constructor
  · intro e he
    simp only [allocateOnce, Program.run_bind, hread, run_listInUse, hseen, he, Program.run_pure]
  · intro index result hok
    simp only [allocateOnce, Program.run_bind, hread, run_listInUse, hseen, hok]
    simp [ask, onlyListing, serve, commit, World.next]

/-- With nobody else around one attempt decides, as no conflict can arise. -/
theorem run_attempts (choose : Choose σ α) (detail : String) (left : Nat) (i : ι) (fault : Fault)
    (w : World ι σ) (hchoose : ∀ e, choose w.next (w.seen fault) = .error e → e ≠ .api 409) :
    ((attempts (allocateOnce choose) detail (left + 1)).run (serve i) (onlyListing fault) w) =
      (allocateOnce choose).run (serve i) (onlyListing fault) w := by
  obtain ⟨herror, hok⟩ := run_allocateOnce choose i fault w
  rw [attempts, Program.run_bind]
  generalize hrun : (allocateOnce choose).run (serve i) (onlyListing fault) w = out at *
  obtain ⟨x, v⟩ := out
  cases hpicked : choose w.next (w.seen fault) with
  | error e =>
    obtain rfl := herror e hpicked
    simp [hchoose e hpicked]
  | ok picked =>
    obtain ⟨rfl, -, -⟩ := hok picked.1 picked.2 hpicked
    rfl

end Allocators
