import KubevirtUi.Library.Logs
import KubevirtUi.Library.Raising
import KubevirtUi.Library.Store
import KubevirtUi.Tenancy.PortEntries

/-!
# Control-plane ports

The entries of all tenants are one document, which is read, and written whole under the version it
was read under; the first write creates it. Calls that give ports to tenants and take them back run
side by side, each its reads and writes in between those of the others.

The log says who has read the document, and who has written it with what. What the document says
is what was written last, and what was written is the document before with one entry more or less.
-/

namespace Tenancy

open Interference Logs

variable {ι : Type}

/-- An `ApiException`, a `RuntimeError`, or anything else that is raised. -/
inductive PortFailure where
  | api (status : Nat)
  | runtime (text : String)
  | other
  deriving DecidableEq

inductive PortEvent (ι : Type) where
  | read (client : ι)
  | wrote (client : ι) (data : Entries)

def PortEvent.client : PortEvent ι → ι
  | .read i => i
  | .wrote i _ => i

/-- The ConfigMap, and what has been done to it. -/
structure PortWorld (ι : Type) where
  clock : Nat
  configMap : Option (Versioned Entries)
  log : List (PortEvent ι)

inductive PortRequest where
  | read
  | create (data : Entries)
  | replace (version : Nat) (data : Entries)

@[reducible] def PortRequest.Result : PortRequest → Type
  | .read => Versioned Entries
  | .create _ => Unit
  | .replace .. => Unit

abbrev PortRequest.Response (r : PortRequest) : Type := Except PortFailure r.Result

namespace PortWorld

/-- The entries; a ConfigMap that is missing has none. -/
def entries (w : PortWorld ι) : Entries := (w.configMap.map Versioned.value).getD ∅

def note (w : PortWorld ι) (e : PortEvent ι) : PortWorld ι := { w with log := w.log ++ [e] }

/-- The document is written whole, under a new version. -/
def write (w : PortWorld ι) (i : ι) (data : Entries) : PortWorld ι :=
  ⟨w.clock + 1, some ⟨w.clock + 1, data⟩, w.log ++ [.wrote i data]⟩

end PortWorld

/-- What a request that does not fail does. -/
def portCommit (i : ι) (w : PortWorld ι) : (r : PortRequest) → r.Response × PortWorld ι
  | .read =>
    match w.configMap with
    | none => (.error (.api 404), w.note (.read i))
    | some cm => (.ok cm, w.note (.read i))
  | .create data =>
    match w.configMap with
    | none => (.ok (), w.write i data)
    | some _ => (.error (.api 409), w)
  | .replace version data =>
    match w.configMap with
    | none => (.error (.api 404), w)
    | some cm =>
      if cm.version = version then (.ok (), w.write i data) else (.error (.api 409), w)

/-- A request may fail for reasons of its own; then it changes nothing. -/
def portServe (i : ι) (fault : Option PortFailure) (w : PortWorld ι) (r : PortRequest) :
    r.Response × PortWorld ι :=
  match fault with
  | none => portCommit i w r
  | some e => (.error e, w)

abbrev PortCall (α : Type) := ExceptT PortFailure (Program PortRequest PortRequest.Response) α

def portAsk (r : PortRequest) : PortCall r.Result := ExceptT.mk (Program.ask r)

/-- The entries, and under which version; a ConfigMap that is missing has neither. -/
def readCm : PortCall (Entries × Option Nat) :=
  tryCatch (do
    let cm ← portAsk .read
    return (cm.value, some cm.version))
  fun e => if e = .api 404 then return (∅, none) else throw e

def writeCm (data : Entries) (resourceVersion : Option Nat) : PortCall Unit :=
  match resourceVersion with
  | some version => portAsk (.replace version data)
  | none => portAsk (.create data)

section Calls

variable (pool : Pool) (tenant : String)

/-- A pass that a conflict ends is followed by another one, as long as there are any. -/
def allocateRounds (maxRetries : Nat) : Nat → PortCall (Nat × Nat)
  | 0 => throw (.runtime ("Could not allocate CP ports for '" ++ tenant ++ "' after " ++
      toString maxRetries ++ " conflict retries"))
  | left + 1 => do
    let (data, rv) ← readCm
    match issued data tenant with
    | some ports => return ports
    | none =>
      match pickTwoFree pool (usedPorts data) with
      | none => throw (.runtime ("CP port pool [" ++ toString pool.base ++ "," ++
          toString pool.stop ++ ") exhausted (" ++ toString (usedPorts data).dedup.length ++
            " ports in use) — widen TENANTS_CP_PORT_END"))
      | some ports =>
        let again ← tryCatch (do
            writeCm (data.insert tenant (formatEntry ports)) rv
            return false)
          fun e => if e = .api 409 then return true else throw e
        if again then allocateRounds maxRetries left else return ports

def allocateCpPorts (maxRetries : Nat) : PortCall (Nat × Nat) :=
  allocateRounds pool tenant maxRetries maxRetries

def releaseRounds : Nat → PortCall Unit
  | 0 => return
  | left + 1 => do
    let (data, rv) ← readCm
    if tenant ∉ data then return
    else do
      let again ← tryCatch (do
          writeCm (data.erase tenant) rv
          return false)
        fun e =>
          if e = .api 409 then return true
          else if e = .api 404 then return false
          else throw e
      if again then releaseRounds left else return

def releaseCpPorts (maxRetries : Nat) : PortCall Unit := releaseRounds tenant maxRetries

end Calls

/-- What a client has been asked for. -/
inductive PortJob where
  | allocate (tenant : String) (maxRetries : Nat)
  | release (tenant : String) (maxRetries : Nat)

/-- A release has nothing to return. -/
def PortJob.program (pool : Pool) : PortJob →
    Program PortRequest PortRequest.Response (Except PortFailure (Option (Nat × Nat)))
  | .allocate tenant maxRetries => (some <$> allocateCpPorts pool tenant maxRetries).run
  | .release tenant maxRetries => ((fun _ => none) <$> releaseCpPorts tenant maxRetries).run

/-- What an event leaves of the document. -/
def PortEvent.step (data : Entries) : PortEvent ι → Entries
  | .read _ => data
  | .wrote _ data' => data'

/-- The document after all that has been done. -/
def current (init : Entries) (log : List (PortEvent ι)) : Entries := log.foldl PortEvent.step init

/-- What a client writes: the document as it is, with ports for its tenant that has none, or
without its tenant. -/
def PortJob.Writes (pool : Pool) (data data' : Entries) : PortJob → Prop
  | .allocate tenant _ => issued data tenant = none ∧ ∃ ports,
      pickTwoFree pool (usedPorts data) = some ports ∧
        data' = data.insert tenant (formatEntry ports)
  | .release tenant _ => data' = data.erase tenant

/-- Every write is one of these. -/
def OrderlyWrites (pool : Pool) (jobs : ι → PortJob) (init : Entries) (log : List (PortEvent ι)) :
    Prop :=
  ∀ before i data after, log = before ++ .wrote i data :: after →
    (jobs i).Writes pool (current init before) data

variable [DecidableEq ι]

/-- The log up to the last thing that the client did: its moment. -/
def moment (i : ι) (log : List (PortEvent ι)) : List (PortEvent ι) :=
  log.rdropWhile fun e => e.client ≠ i

/-- Nothing is written for the tenant but what gives it ports. -/
def Unreleased (jobs : ι → PortJob) (tenant : String) (log : List (PortEvent ι)) : Prop :=
  ∀ k data maxRetries, .wrote k data ∈ log → jobs k ≠ .release tenant maxRetries

abbrev PortCrowd (ι : Type) :=
  Crowd (PortWorld ι) PortRequest PortRequest.Response ι (Except PortFailure (Option (Nat × Nat)))

/-- The runs of these calls: nobody else edits the ConfigMap. -/
abbrev PortRun : PortCrowd ι → PortCrowd ι → Prop :=
  Crowd.Run portServe (fun a : Empty => a.elim) fun _ _ => True

/-- What holds of the ports at any time. -/
structure PortsKept (pool : Pool) (jobs : ι → PortJob) (init : Entries) (s : PortCrowd ι) :
    Prop where
  /-- The log tells what the document says. -/
  document : s.world.entries = current init s.world.log
  apart : Apart pool s.world.entries
  /-- Two calls for one tenant return the same, unless it is released between their moments. -/
  stable : ∀ i j tenant m n ports ports' between, jobs i = .allocate tenant m →
    jobs j = .allocate tenant n → s.rest i = .pure (.ok (some ports)) →
    s.rest j = .pure (.ok (some ports')) →
    moment j s.world.log = moment i s.world.log ++ between → Unreleased jobs tenant between →
      ports = ports'
  unchanged : ∀ i e, s.rest i = .pure (.error e) → ∀ data, .wrote i data ∉ s.world.log

/-- Nobody has come yet, and what is in the ConfigMap, if there is one, was put there by calls
like these. -/
structure PortsStart (pool : Pool) (jobs : ι → PortJob) (init : Entries) (s : PortCrowd ι) :
    Prop where
  timely : ∀ cm, s.world.configMap = some cm → cm.version ≤ s.world.clock
  entries : s.world.entries = init
  apart : Apart pool init
  log : s.world.log = []
  rest : ∀ i, s.rest i = (jobs i).program pool

end Tenancy
