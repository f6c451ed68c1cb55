import KubevirtUi.Library.Solo
import KubevirtUi.Vpcs.Calls

/-!
# Requests with nobody else about

What each function does to the routers when no other request is running, whichever of its calls
fail. What is read is then what is there when it is written.
-/

namespace Vpcs

open Peering Interference

variable {ι α β : Type}

/-- Run alone as a client, from a count of requests on, the program ends so. -/
abbrev Leads (i : ι) (faults : Nat → Fault) (p : Call α) (n : Nat) (w : World ι)
    (x : Except Failure α) (m : Nat) (v : World ι) : Prop :=
  Ends (serve i) faults p n w x m v

def World.spec? (w : World ι) (name : String) : Option VpcSpec :=
  (w.routers.lookup name).map (·.value)

/-- Nothing has been written, and nobody has changed anything. -/
structure Untouched (w v : World ι) : Prop where
  routers : v.routers = w.routers
  around : v.around = w.around

/-- One router has these lists now, and nothing else has changed. -/
structure Rewritten (name : String) (spec : VpcSpec) (w v : World ι) : Prop where
  spec : v.spec? name = some spec
  others : ∀ other, other ≠ name → v.spec? other = w.spec? other
  around : v.around = w.around

variable {item : Versioned VpcSpec} {body : Call α} {handler : Nat → Call α}

variable {w v u : World ι} {name : String} {spec : VpcSpec} {i : ι} {faults : Nat → Fault} {n : Nat}

section Worlds

theorem Untouched.refl (w : World ι) : Untouched w w := ⟨rfl, rfl⟩

theorem Untouched.trans (h : Untouched w v) (h' : Untouched v u) : Untouched w u :=
  ⟨h'.routers.trans h.routers, h'.around.trans h.around⟩

theorem untouched_note (w : World ι) (e : Event ι) : Untouched w (w.note e) := ⟨rfl, rfl⟩

theorem Untouched.spec?_eq (h : Untouched w v) (name : String) : v.spec? name = w.spec? name := by
  rw [World.spec?, h.routers, World.spec?]

theorem Rewritten.of_untouched (h : Untouched w v) (h' : Rewritten name spec v u) :
    Rewritten name spec w u :=
  ⟨h'.spec, fun other hne => (h'.others other hne).trans (h.spec?_eq other),
      h'.around.trans h.around⟩

theorem rewritten_patched (hitem : w.routers.lookup name = some item) (patch : VpcSpec)
    (e : Event ι) : Rewritten name (merge item.value patch) w (w.patched name item patch e) := by
  rw [World.patched]
  split
  · next hsame =>
    refine ⟨?_, fun _ _ => rfl, rfl⟩
    rw [hsame, World.spec?, World.note, hitem, Option.map_some]
  · refine ⟨?_, fun other hne => ?_, rfl⟩
    · rw [World.spec?, AList.lookup_insert, Option.map_some]
    · rw [World.spec?, AList.lookup_insert_ne hne, World.spec?]

theorem lookup_of_spec? (h : w.spec? name = some spec) :
    ∃ item, w.routers.lookup name = some item ∧ item.value = spec :=
  Option.map_eq_some_iff.mp h

end Worlds

section Rules

variable {m k : Nat}

theorem leads_exceptApi_ok {a : α} (h : Leads i faults body n w (.ok a) m v) :
    Leads i faults (exceptApi body handler) n w (.ok a) m v :=
  h.tryCatch_ok

theorem leads_exceptApi_api {status : Nat} {y : Except Failure α}
    (h : Leads i faults body n w (.error (.api status)) m v)
    (hh : Leads i faults (handler status) m v y k u) :
    Leads i faults (exceptApi body handler) n w y k u :=
  h.tryCatch_error hh

theorem leads_exceptApi_other {e : Failure} (he : e.isApi = false)
    (h : Leads i faults body n w (.error e) m v) :
    Leads i faults (exceptApi body handler) n w (.error e) m v := by
  refine h.tryCatch_error ?_
  cases e with
  | api status => simp [Failure.isApi] at he
  | _ => exact .throw

theorem leads_swallowing {body : Call Unit} {x : Except Failure Unit}
    (h : Leads i faults body n w x m v) : Leads i faults (swallowing body) n w (.ok ()) m v := by
  match x with
  | .ok () => exact h.tryCatch_ok
  | .error _ => exact h.tryCatch_error .pure

theorem leads_getVpc (hitem : w.routers.lookup name = some item) (hfault : faults n = none) :
    Leads i faults (ask (.getVpc name)) n w (.ok item) (n + 1) w := by
  have hask := Ends.ask (serve i) faults (.getVpc name) n w
  rw [hfault] at hask
  simp only [serve, commit, hitem] at hask
  exact hask

theorem leads_getVpc_absent (habsent : w.routers.lookup name = none) (hfault : faults n = none) :
    Leads i faults (ask (.getVpc name)) n w (.error (.api 404)) (n + 1) w := by
  have hask := Ends.ask (serve i) faults (.getVpc name) n w
  rw [hfault] at hask
  simp only [serve, commit, habsent] at hask
  exact hask

theorem leads_listSubnets (purpose : Purpose) (hfault : faults n = none) :
    Leads i faults (ask (.listSubnets purpose)) n w (.ok w.around.subnets) (n + 1)
      (w.note (.looked i purpose (.ok w.around.subnets))) := by
  have hask := Ends.ask (serve i) faults (.listSubnets purpose) n w
  rw [hfault] at hask
  exact hask

theorem leads_fault {r : Request} {e : { e : Failure // e ≠ .api 404 }}
    (hfault : faults n = some e) :
    Leads i faults (ask r) n w (.error e.1) (n + 1) (refused i e.1 w r) := by
  have hask := Ends.ask (serve i) faults r n w
  rw [hfault] at hask
  exact hask

/-- A router that cannot be read is not taken for one that is missing. -/
theorem leads_getVpc_fault {e : { e : Failure // e ≠ .api 404 }} {handler : Nat → Failure}
    {missing : Call α} (hfault : faults n = some e) : ∃ e v, Untouched w v ∧
      Leads i faults (exceptApi (ask (.getVpc name) >>= f) fun status =>
        if status = 404 then missing else throw (handler status)) n w (.error e) (n + 1) v := by
  obtain ⟨e, he⟩ := e
  have hask := leads_fault (i := i) (r := .getVpc name) (w := w) hfault
  cases e with
  | api status =>
    refine ⟨handler status, _, untouched_note w (.missed i name),
      leads_exceptApi_api hask.bind_error ?_⟩
    have hstatus : status ≠ 404 := fun h => he (h ▸ rfl)
    rw [if_neg hstatus]
    exact .throw
  | _ => exact ⟨_, _, untouched_note w (.missed i name), leads_exceptApi_other rfl hask.bind_error⟩

theorem untouched_refused (e : Failure) (r : Request) : Untouched w (refused i e w r) := by
  cases r <;> exact ⟨rfl, rfl⟩

/-- The lists are replaced, where there is a router and its version is the one named. -/
theorem leads_patchVpc {version : Option Nat} {patch : VpcSpec} {reason : Reason}
    (hitem : w.routers.lookup name = some item) (hversion : version.all (· = item.version) = true)
    (hfault : faults n = none) :
    Leads i faults (ask (.patchVpc name version patch reason)) n w (.ok ()) (n + 1)
      (w.patched name item patch (reason.event i name)) := by
  have hask := Ends.ask (serve i) faults (.patchVpc name version patch reason) n w
  rw [hfault] at hask
  simp only [serve, commit, hitem, hversion, if_true] at hask
  exact hask

end Rules

section Functions

variable {remote : String} {side : Side}

/-- The prefixes that a request learns of; it learns of none where the listing fails. -/
def seen (faults : Nat → Fault) (n : Nat) (w : World ι) (vpcName : String) : List String :=
  if faults n = none then cidrsOf w.around.subnets vpcName else []

/-- A listing is answered, or it fails and finds nothing, or its failure is passed on. -/
theorem leads_vpcSubnetCidrs (i : ι) (faults : Nat → Fault) (vpcName : String) (n : Nat)
    (w : World ι) : ∃ v, Untouched w v ∧
      (Leads i faults (vpcSubnetCidrs vpcName) n w (.ok (seen faults n w vpcName)) (n + 1) v ∨
        (faults n ≠ none ∧
          ∃ e, Leads i faults (vpcSubnetCidrs vpcName) n w (.error e) (n + 1) v)) := by
  unfold vpcSubnetCidrs getVpcSubnets seen
  match hfault : faults n with
  | none =>
    have hask := leads_listSubnets (i := i) (w := w) .routes hfault
    refine ⟨_, ?_, .inl (Ends.bind (Ends.bind (leads_exceptApi_ok hask) .pure) .pure)⟩
    exact untouched_note w _
  | some ⟨e, he⟩ =>
    have hask := leads_fault (i := i) (r := .listSubnets .routes) (w := w) hfault
    refine ⟨refused i e w (.listSubnets .routes), untouched_refused _ _, ?_⟩
    cases e with
    | api status =>
      exact .inl (Ends.bind (Ends.bind (leads_exceptApi_api hask .pure) .pure) .pure)
    | _ =>
      exact .inr ⟨by simp, _, ((leads_exceptApi_other rfl hask).bind_error).bind_error⟩

theorem leads_getSpec (i : ι) (faults : Nat → Fault) (name : String) (n : Nat) (w : World ι) :
    (faults n = none ∧ ∃ spec, w.spec? name = some spec ∧
      Leads i faults (getSpec name) n w (.ok spec) (n + 1) w) ∨
    ((faults n ≠ none ∨ w.spec? name = none) ∧
      ∃ e v, Untouched w v ∧ Leads i faults (getSpec name) n w (.error e) (n + 1) v) := by
  match hfault : faults n with
  | none =>
    cases hitem : w.routers.lookup name with
    | some item =>
      refine .inl ⟨rfl, item.value, by rw [World.spec?, hitem, Option.map_some], ?_⟩
      exact leads_exceptApi_ok ((leads_getVpc hitem hfault).bind .pure)
    | none =>
      have hask := leads_getVpc_absent (i := i) hitem hfault
      refine .inr ⟨.inr (by rw [World.spec?, hitem, Option.map_none]), ?_⟩
      exact ⟨_, w, .refl w, leads_exceptApi_api hask.bind_error .throw⟩
  | some e => exact .inr ⟨.inl (by simp), leads_getVpc_fault hfault⟩

theorem leads_attempt (i : ι) (faults : Nat → Fault) (hspec : w.spec? name = some spec)
    (side : Side) (left n : Nat) : (faults n = none ∧ faults (n + 1) = none ∧ ∃ v,
      Rewritten name (peeringSidePatch spec side) w v ∧
      Leads i faults (applyPeeringSide name side (left + 1)) n w (.ok ()) (n + 2) v) ∨
    (∃ e v, faults n = some e ∧ Untouched w v ∧
      Leads i faults (applyPeeringSide name side (left + 1)) n w (.error e.1) (n + 1) v) ∨
    ∃ e v, faults n = none ∧ faults (n + 1) = some e ∧ Untouched w v ∧
      if e.1 = .api 409 ∧ 0 < left then
        ∀ x m u, Leads i faults (applyPeeringSide name side left) (n + 2) v x m u →
          Leads i faults (applyPeeringSide name side (left + 1)) n w x m u
      else Leads i faults (applyPeeringSide name side (left + 1)) n w (.error e.1) (n + 2) v := by
  obtain ⟨item, hitem, rfl⟩ := lookup_of_spec? hspec
  match hget : faults n, hpatch : faults (n + 1) with
  | none, none =>
    have hread := leads_getVpc (i := i) hitem hget
    have hwrite : Leads i faults (ask (.patchVpc name (some item.version)
        (peeringSidePatch item.value side) (.lay side))) (n + 1) w (.ok ()) (n + 1 + 1)
        (w.patched name item (peeringSidePatch item.value side) (.laid i name side)) :=
      leads_patchVpc hitem (by simp) hpatch
    refine .inl ⟨rfl, rfl, _, rewritten_patched hitem (peeringSidePatch item.value side)
      (.laid i name side), ?_⟩
    exact .bind hread (leads_exceptApi_ok hwrite)
  | some e, _ =>
    exact .inr (.inl ⟨e, _, rfl, untouched_note w (.missed i name), (leads_fault hget).bind_error⟩)
  | none, some ⟨e, he⟩ =>
    have hread := leads_getVpc (i := i) hitem hget
    have hwrite := leads_fault (i := i) (w := w) (r := .patchVpc name (some item.version)
      (peeringSidePatch item.value side) (.lay side)) hpatch
    refine .inr (.inr ⟨⟨e, he⟩, _, rfl, rfl, untouched_note w (.missed i name), ?_⟩)
    split
    · next hagain =>
      obtain ⟨rfl, hleft⟩ := hagain
      intro x m u hrest
      refine .bind hread (leads_exceptApi_api hwrite ?_)
      rw [if_pos ⟨rfl, hleft⟩]
      exact hrest
    · next hlast =>
      refine .bind hread ?_
      cases e with
      | api status =>
        refine leads_exceptApi_api hwrite ?_
        rw [if_neg fun h => hlast ⟨congrArg _ h.1, h.2⟩]
        exact .throw
      | _ => exact leads_exceptApi_other rfl hwrite

/-- A side is laid down once, or there is an error and nothing has been written. -/
theorem leads_applyPeeringSide (i : ι) (faults : Nat → Fault) (hspec : w.spec? name = some spec)
    (side : Side) (left n : Nat) : (∃ m v, Rewritten name (peeringSidePatch spec side) w v ∧
      Leads i faults (applyPeeringSide name side (left + 1)) n w (.ok ()) m v) ∨
    ∃ e m v, Untouched w v ∧
      Leads i faults (applyPeeringSide name side (left + 1)) n w (.error e) m v := by
  induction left generalizing n w with
  | zero =>
    obtain ⟨-, -, v, hv, h⟩ | ⟨e, v, -, hv, h⟩ | ⟨e, v, -, -, hv, h⟩ :=
      leads_attempt i faults hspec side 0 n
    · exact .inl ⟨_, v, hv, h⟩
    · exact .inr ⟨_, _, v, hv, h⟩
    · rw [if_neg (by simp)] at h
      exact .inr ⟨_, _, v, hv, h⟩
  | succ left ih =>
    obtain ⟨-, -, v, hv, h⟩ | ⟨e, v, -, hv, h⟩ | ⟨e, v, -, -, hv, h⟩ :=
      leads_attempt i faults hspec side (left + 1) n
    · exact .inl ⟨_, v, hv, h⟩
    · exact .inr ⟨_, _, v, hv, h⟩
    · split at h
      · obtain ⟨m, u, hu, hagain⟩ | ⟨e, m, u, hu, hagain⟩ :=
          ih ((hv.spec?_eq name).trans hspec) (n + 2)
        · exact .inl ⟨m, u, hu.of_untouched hv, h _ _ _ hagain⟩
        · exact .inr ⟨e, m, u, hv.trans hu, h _ _ _ hagain⟩
      · exact .inr ⟨_, _, v, hv, h⟩

theorem leads_vpcIfAny (i : ι) (faults : Nat → Fault) (hitem : w.routers.lookup name = some item)
    (n : Nat) : (faults n = none ∧ Leads i faults (vpcIfAny name) n w (.ok (some item)) (n + 1) w) ∨
    (faults n ≠ none ∧ ∃ e v, Untouched w v ∧
      Leads i faults (vpcIfAny name) n w (.error e) (n + 1) v) := by
  match hfault : faults n with
  | none =>
    have hread := leads_getVpc (i := i) hitem hfault
    exact .inl ⟨rfl, leads_exceptApi_ok (Ends.bind hread .pure)⟩
  | some e => exact .inr ⟨by simp, leads_getVpc_fault hfault⟩

/-- What is taken off a router that is there, for prefixes that have been listed. -/
theorem leads_removePeeringSide (i : ι) (faults : Nat → Fault) (hspec : w.spec? name = some spec)
    (undo : Bool) (remote : String) (n : Nat) : (faults n = none ∧ faults (n + 2) = none ∧ ∃ v,
      Rewritten name (withoutSide spec remote (seen faults (n + 1) w remote)) w v ∧
      Leads i faults (removePeeringSide undo name remote) n w (.ok ()) (n + 3) v) ∨
    ((∃ k < 3, faults (n + k) ≠ none) ∧ ∃ e m v, Untouched w v ∧
      Leads i faults (removePeeringSide undo name remote) n w (.error e) m v) := by
  obtain ⟨item, hitem, rfl⟩ := lookup_of_spec? hspec
  obtain ⟨hget, hread⟩ | ⟨hget, e, v, hv, hread⟩ := leads_vpcIfAny i faults hitem n
  case inr => exact .inr ⟨⟨0, by omega, hget⟩, e, _, v, hv, hread.bind_error⟩
  obtain ⟨v, hv, hlist | ⟨hlist, e, hraised⟩⟩ := leads_vpcSubnetCidrs i faults remote (n + 1) w
  case inr => exact .inr ⟨⟨1, by omega, hlist⟩, e, _, v, hv, Ends.bind hread hraised.bind_error⟩
  have hitem' : v.routers.lookup name = some item := by rw [hv.routers, hitem]
  match hfault : faults (n + 2) with
  | none =>
    have hwrite : Leads i faults (ask (.patchVpc name none
        (withoutSide item.value remote (seen faults (n + 1) w remote))
        (.take remote (seen faults (n + 1) w remote) item.value undo))) (n + 2) v (.ok ())
        (n + 2 + 1) _ :=
      leads_patchVpc hitem' rfl hfault
    refine .inl ⟨hget, rfl, _, ?_, Ends.bind hread (Ends.bind hlist hwrite)⟩
    exact (rewritten_patched hitem' (withoutSide item.value remote
      (seen faults (n + 1) w remote)) _).of_untouched hv
  | some e =>
    refine .inr ⟨⟨2, by omega, by simp [hfault]⟩, e.1, n + 3, _,
      hv.trans (untouched_note v (.missed i name)), ?_⟩
    exact .bind hread (Ends.bind hlist (leads_fault hfault))

end Functions

section Preparing

variable (other : String → Except Failure Link)

/-- The link that a peering is to go over. -/
def linkOf (w : World ι) (linkCIDR : Option String) : Except Failure Link :=
  if linkCIDR.getD "" = "" then .ok w.around.link else pinnedLink other (linkCIDR.getD "")

/-- What a request has to find before it lays anything down. -/
structure Planned (w : World ι) (name remoteVpc : String) (linkCIDR : Option String)
    (link : Link) : Prop where
  ne : name ≠ remoteVpc
  here : w.spec? name ≠ none
  there : w.spec? remoteVpc ≠ none
  localCIDRs : cidrsOf w.around.subnets name ≠ []
  remoteCIDRs : cidrsOf w.around.subnets remoteVpc ≠ []
  link : linkOf other w linkCIDR = .ok link

/-- How many calls come before the first side. -/
def firstCalls (linkCIDR : Option String) : Nat := if linkCIDR.getD "" = "" then 5 else 4

/-- The sides of a peering as they are laid down in this state. -/
def sidesIn (w : World ι) (link : Link) (name remoteVpc : String) : List (String × Side) :=
  sidesOver link name remoteVpc (cidrsOf w.around.subnets name)
    (cidrsOf w.around.subnets remoteVpc)

variable {other} {remoteVpc : String} {linkCIDR : Option String}

theorem leads_linkFor (other : String → Except Failure Link) (linkCIDR : Option String) (i : ι)
    (faults : Nat → Fault) (hv : Untouched w v) :
    (∃ link, linkOf other w linkCIDR = .ok link ∧ (∀ k, 4 ≤ k → k < firstCalls linkCIDR →
      faults k = none) ∧
      Leads i faults (linkFor other linkCIDR) 4 v (.ok link) (firstCalls linkCIDR) v) ∨
    (((∀ link, linkOf other w linkCIDR ≠ .ok link) ∨
      ∃ k < firstCalls linkCIDR, faults k ≠ none) ∧
      ∃ e m, Leads i faults (linkFor other linkCIDR) 4 v (.error e) m v) := by
  unfold linkOf linkFor firstCalls
  split
  · match hfault : faults 4 with
    | none =>
      have hask := Ends.ask (serve i) faults .allocateLink 4 v
      rw [hfault] at hask
      simp only [serve, commit, hv.around] at hask
      refine .inl ⟨w.around.link, rfl, fun k hk hlt => ?_, hask⟩
      rw [show k = 4 by omega, hfault]
    | some e =>
      exact .inr ⟨.inr ⟨4, by omega, by simp [hfault]⟩, e.1, 5, leads_fault hfault⟩
  · match hlink : pinnedLink other (linkCIDR.getD "") with
    | .ok link => exact .inl ⟨link, rfl, fun k hk hlt => by omega, .pure⟩
    | .error e => exact .inr ⟨.inl (by simp), e, 4, .throw⟩

/-- A request finds what it needs, and then lays the sides down, or it fails before it has
written anything. -/
theorem leads_createPeeringPair (i : ι) (faults : Nat → Fault) (w : World ι)
    (name remoteVpc : String) (linkCIDR : Option String) :
    (∃ link v, Planned other w name remoteVpc linkCIDR link ∧
      (∀ k < firstCalls linkCIDR, faults k = none) ∧ Untouched w v ∧
      ∀ x m u, Leads i faults (applySides [] (sidesIn w link name remoteVpc))
        (firstCalls linkCIDR) v x m u →
          Leads i faults (createPeeringPair other name remoteVpc linkCIDR) 0 w x m u) ∨
    (((∀ link, ¬ Planned other w name remoteVpc linkCIDR link) ∨
      ∃ k < firstCalls linkCIDR, faults k ≠ none) ∧ ∃ e m v, Untouched w v ∧
        Leads i faults (createPeeringPair other name remoteVpc linkCIDR) 0 w (.error e) m v) := by
  have hfour : 4 ≤ firstCalls linkCIDR := by
    unfold firstCalls
    split <;> omega
  unfold createPeeringPair
  by_cases hne : name = remoteVpc
  · rw [if_pos hne]
    exact .inr ⟨.inl fun link h => h.ne hne, _, _, _, .refl w, .throw⟩
  rw [if_neg hne]
  obtain ⟨hfault₀, here, hhere, hget₀⟩ | ⟨hfail, e, v, hv, hget₀⟩ :=
    leads_getSpec i faults name 0 w
  case inr =>
    refine .inr ⟨?_, e, _, v, hv, hget₀.bind_error⟩
    obtain hfault | habsent := hfail
    · exact .inr ⟨0, by omega, hfault⟩
    · exact .inl fun link h => h.here habsent
  obtain ⟨hfault₁, there, hthere, hget₁⟩ | ⟨hfail, e, v, hv, hget₁⟩ :=
    leads_getSpec i faults remoteVpc 1 w
  case inr =>
    refine .inr ⟨?_, e, _, v, hv, Ends.bind hget₀ hget₁.bind_error⟩
    obtain hfault | habsent := hfail
    · exact .inr ⟨1, by omega, hfault⟩
    · exact .inl fun link h => h.there habsent
  obtain ⟨v, hv, hlist₂ | ⟨hfault₂, e, hraised⟩⟩ := leads_vpcSubnetCidrs i faults name 2 w
  case inr =>
    exact .inr ⟨.inr ⟨2, by omega, hfault₂⟩, e, _, v, hv,
      Ends.bind hget₀ (Ends.bind hget₁ hraised.bind_error)⟩
  obtain ⟨u, hu, hlist₃ | ⟨hfault₃, e, hraised⟩⟩ := leads_vpcSubnetCidrs i faults remoteVpc 3 v
  case inr =>
    exact .inr ⟨.inr ⟨3, by omega, hfault₃⟩, e, _, u, hv.trans hu,
      Ends.bind hget₀ (Ends.bind hget₁ (Ends.bind hlist₂ hraised.bind_error))⟩
  have hrest {x : Except Failure Unit} {m : Nat} {t : World ι} (hjoin : Leads i faults
      (joinOver other name remoteVpc linkCIDR (seen faults 2 w name) (seen faults 3 v remoteVpc))
      4 u x m t) : Leads i faults (do
        let _ ← getSpec name
        let _ ← getSpec remoteVpc
        let localCIDRs ← vpcSubnetCidrs name
        let remoteCIDRs ← vpcSubnetCidrs remoteVpc
        joinOver other name remoteVpc linkCIDR localCIDRs remoteCIDRs) 0 w x m t :=
    Ends.bind hget₀ (Ends.bind hget₁ (Ends.bind hlist₂ (Ends.bind hlist₃ hjoin)))
  by_cases hempty : seen faults 2 w name = [] ∨ seen faults 3 v remoteVpc = []
  · have hjoin : ∃ e, Leads i faults (joinOver other name remoteVpc linkCIDR
        (seen faults 2 w name) (seen faults 3 v remoteVpc)) 4 u (.error e) 4 u := by
      rw [joinOver, if_pos hempty]
      exact ⟨_, .throw⟩
    obtain ⟨e, hjoin⟩ := hjoin
    refine .inr ⟨?_, e, _, u, hv.trans hu, hrest hjoin⟩
    by_cases hfault₂ : faults 2 = none
    · by_cases hfault₃ : faults 3 = none
      · rw [seen, if_pos hfault₂, seen, if_pos hfault₃, hv.around] at hempty
        exact .inl fun link h => hempty.elim h.localCIDRs h.remoteCIDRs
      · exact .inr ⟨3, by omega, hfault₃⟩
    · exact .inr ⟨2, by omega, hfault₂⟩
  obtain ⟨hlocal, hremote⟩ := not_or.mp hempty
  have hfault₂ : faults 2 = none := by
    by_contra hfault
    exact hlocal (if_neg hfault)
  have hfault₃ : faults 3 = none := by
    by_contra hfault
    exact hremote (if_neg hfault)
  have hseen₂ : seen faults 2 w name = cidrsOf w.around.subnets name := if_pos hfault₂
  have hseen₃ : seen faults 3 v remoteVpc = cidrsOf w.around.subnets remoteVpc := by
    rw [seen, if_pos hfault₃, hv.around]
  have hgo {x : Except Failure Unit} {m : Nat} {t : World ι} (hlink : Leads i faults (do
      let link ← linkFor other linkCIDR
      applySides [] (sidesIn w link name remoteVpc)) 4 u x m t) := by
    refine hrest (x := x) (m := m) (t := t) ?_
    rw [joinOver, if_neg hempty, hseen₂, hseen₃]
    exact hlink
  rw [hseen₂] at hlocal
  rw [hseen₃] at hremote
  obtain ⟨link, hlink, hfaults, hfor⟩ | ⟨hfail, e, m, hfor⟩ :=
    leads_linkFor other linkCIDR i faults (hv.trans hu)
  · refine .inl ⟨link, u, ⟨hne, by simp [hhere], by simp [hthere], hlocal, hremote, hlink⟩,
      fun k hk => ?_, hv.trans hu, fun x m t hsides => hgo (Ends.bind hfor hsides)⟩
    match k with
    | 0 => exact hfault₀
    | 1 => exact hfault₁
    | 2 => exact hfault₂
    | 3 => exact hfault₃
    | k + 4 => exact hfaults (k + 4) (by omega) hk
  · refine .inr ⟨?_, e, m, u, hv.trans hu, hgo hfor.bind_error⟩
    obtain hlink | hfault := hfail
    · exact .inl fun link h => hlink link h.link
    · exact .inr hfault

end Preparing

end Vpcs
