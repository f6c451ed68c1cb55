import KubevirtUi.Vpcs.Shared

/-!
# The router outlives its Subnets

The operator deletes a Vpc when a listing has shown no Subnet of it. The backend lists the Subnets
once, and waits until each that it has found is gone; a listing that fails is one that finds
nothing, and a Subnet that is made later is not waited for.
-/

namespace Vpcs

open Peering Interference Logs List

variable {ι : Type} [DecidableEq ι]

/-- What the look of a client has found. -/
def Event.look? (i : ι) : Event ι → Option (Except Failure (List Subnet))
  | .looked j _ found => if j = i then some found else none
  | _ => none

/-- The last look of a client, if there was one. -/
def lastLook (i : ι) (log : List (Event ι)) : Option (Except Failure (List Subnet)) :=
  (log.filterMap (Event.look? i)).getLast?

/-- The looks of a client since it began to list the Subnets for a deletion. -/
def sighting (i : ι) (looks : List (Except Failure (List Subnet))) :
    Event ι → List (Except Failure (List Subnet))
  | .looked j purpose found =>
    if j = i then
      if purpose = .deletion then [found] else looks ++ [found]
    else looks
  | _ => looks

def sightings (i : ι) (log : List (Event ι)) : List (Except Failure (List Subnet)) :=
  log.foldl (sighting i) []

/-- One look has been answered, and the Subnet was not there. -/
def GoneIn (name : String) (looks : List (Except Failure (List Subnet))) : Prop :=
  ∃ seen, .ok seen ∈ looks ∧ ∀ s ∈ seen, s.name ≠ name

/-- If there was another look, the last was answered. -/
def Answered (looks : List (Except Failure (List Subnet))) : Prop :=
  ∀ found ∈ looks.getLast?, ∃ seen, found = .ok seen

/-- The last look was answered, and showed no Subnet of the Vpc. -/
def SeenEmpty (i : ι) (vpc : String) (log : List (Event ι)) : Prop :=
  ∃ seen, lastLook i log = some (.ok seen) ∧ ∀ s ∈ seen, s.vpc ≠ some vpc

/-- The Subnets have been listed, and each of the Vpc that was found has been seen to be gone. -/
def SeenGone (i : ι) (vpc : String) (log : List (Event ι)) : Prop :=
  ∃ found looks, sightings i log = found :: looks ∧ Answered looks ∧
    ∀ s ∈ found.toOption.getD [], s.vpc = some vpc → GoneIn s.name looks

/-- What a client knows when it has a Vpc deleted. -/
def Job.Clears (i : ι) (vpc : String) (log : List (Event ι)) : Job → Prop
  | .deleteVpc _ => SeenGone i vpc log
  | .tearDown .. => SeenEmpty i vpc log
  | _ => False

/-- What a client is held to. -/
def Cleared (job : Job) (i : ι) (w : World ι) : Request → Prop
  | .deleteVpc name => job.Clears i name w.log
  | _ => True

/-- What deletes no Vpc. -/
def Request.KeepsVpcs : Request → Prop
  | .deleteVpc _ => False
  | _ => True

/-- What deletes no Vpc and lists no Subnets. -/
def Request.Watches : Request → Prop
  | .deleteVpc _ => False
  | .listSubnets _ => False
  | _ => True

/-- What deletes no Vpc and does not look at the Subnets. -/
def Request.Aside : Request → Prop
  | .deleteVpc _ => False
  | .listSubnets _ => False
  | .getSubnet _ => False
  | _ => True

variable {i : ι} {log : List (Event ι)} {w : World ι} {r : Request} {α : Type} {job : Job}
  {p : Call α} {name : String}

section Looks

variable {v : World ι} {fault : Fault} {e : Event ι}

theorem sightings_concat (log : List (Event ι)) (e : Event ι) :
    sightings i (log ++ [e]) = sighting i (sightings i log) e := by
  rw [sightings, foldl_append, foldl_cons, foldl_nil, sightings]

theorem getLast?_sightings (i : ι) (log : List (Event ι)) :
    (sightings i log).getLast? = lastLook i log := by
  induction log using List.reverseRecOn with
  | nil => rfl
  | append_singleton log e ih =>
    rw [sightings_concat, lastLook, filterMap_append, filterMap_cons, filterMap_nil]
    cases e with
    | looked j purpose found =>
      by_cases hj : j = i
      · subst hj
        by_cases hpurpose : purpose = .deletion
        · simp [sighting, Event.look?, hpurpose]
        · simp [sighting, Event.look?, hpurpose]
      · simpa [sighting, Event.look?, hj, lastLook] using ih
    | _ => simpa [sighting, Event.look?, lastLook] using ih

theorem sighting_of_client (h : e.client ≠ i) (looks : List (Except Failure (List Subnet))) :
    sighting i looks e = looks := by
  cases e with
  | looked j _ _ => exact if_neg h
  | _ => rfl

theorem sightings_append {more : List (Event ι)} (h : ∀ e ∈ more, e.client ≠ i) :
    sightings i (log ++ more) = sightings i log := by
  induction more using List.reverseRecOn with
  | nil => rw [append_nil]
  | append_singleton more e ih =>
    rw [← append_assoc, sightings_concat, ih fun e he => h e (mem_append_left _ he)]
    exact sighting_of_client (h e (by simp)) _

theorem Relied.sightings (h : Relied i w v) : sightings i v.log = Vpcs.sightings i w.log := by
  obtain ⟨more, hlog, hmore⟩ := h.log
  rw [hlog]
  exact sightings_append fun e he hclient => hmore e he (congrArg some hclient)

theorem Relied.lastLook (h : Relied i w v) : lastLook i v.log = Vpcs.lastLook i w.log := by
  rw [← getLast?_sightings, ← getLast?_sightings, h.sightings]

theorem sightings_aside (h : r.Aside) (fault : Fault) (w : World ι) :
    sightings i (serve i fault w r).2.log = sightings i w.log := by
  obtain hlog | ⟨e, he, hlog⟩ := log_serve i fault w r
  · rw [hlog]
  · rw [hlog, sightings_concat]
    cases r with
    | deleteVpc _ | listSubnets _ | getSubnet _ => exact h.elim
    | getVpc _ | deleteRecord _ =>
      rw [Request.Notes] at he
      rw [he]
      rfl
    | getVpcPeerings _ =>
      obtain ⟨_, rfl⟩ := he
      rfl
    | patchVpc _ _ _ reason =>
      obtain rfl | rfl := he
      · cases reason <;> rfl
      · rfl
    | _ => exact he.elim

theorem served_listSubnets (i : ι) (fault : Fault) (w : World ι) :
    sightings i (serve i fault w (.listSubnets .deletion)).2.log =
      [(serve i fault w (.listSubnets .deletion)).1] := by
  cases fault with
  | none => rw [serve, commit, World.note, sightings_concat, sighting, if_pos rfl, if_pos rfl]
  | some e => rw [serve, refused, World.note, sightings_concat, sighting, if_pos rfl, if_pos rfl]

/-- A look at one Subnet that says that it is gone has seen so; any other is one look more. -/
theorem served_getSubnet (i : ι) (fault : Fault) (w : World ι) (name : String) :
    ∃ found, sightings i (serve i fault w (.getSubnet name)).2.log =
        sightings i w.log ++ [found] ∧
      ((serve i fault w (.getSubnet name)).1 = .error (.api 404) →
        ∃ seen, found = .ok seen ∧ ∀ s ∈ seen, s.name ≠ name) := by
  match fault with
  | some e =>
    refine ⟨.error e.1, ?_, fun h => absurd (Except.error.inj h) e.2⟩
    rw [serve, refused, World.note, sightings_concat, sighting, if_pos rfl, if_neg (by decide)]
  | none =>
    refine ⟨.ok w.around.subnets, ?_, fun h => ⟨_, rfl, ?_⟩⟩
    · rw [serve, commit, World.note, sightings_concat, sighting, if_pos rfl, if_neg (by decide)]
    · simp only [serve, commit] at h
      split at h
      · next hfind =>
        exact fun s hs hname => List.find?_eq_none.mp hfind s hs (decide_eq_true hname)
      · contradiction

end Looks

/-- A program keeps to what it may delete, and what it has seen. -/
abbrev Watching {α : Type} (job : Job) (i : ι) (P : World ι → Prop) (p : Call α)
    (Q : α → World ι → Prop) : Prop :=
  Attempts (serve i) Timely (Relied i) (fun w r _ => Cleared job i w r) P p Q fun _ _ => True

/-- The listing has found this, and the looks since are such. -/
def Sighted (i : ι) (found : Except Failure (List Subnet))
    (S : List (Except Failure (List Subnet)) → Prop) (w : World ι) : Prop :=
  ∃ looks, sightings i w.log = found :: looks ∧ S looks

section Programs

variable {P : World ι → Prop} {found : Except Failure (List Subnet)}
  {S : List (Except Failure (List Subnet)) → Prop} {names already : List String}

theorem Request.Aside.cleared (h : r.Aside) : Cleared job i w r := by
  cases r with
  | deleteVpc _ => exact h.elim
  | _ => trivial

theorem Request.Watches.cleared (h : r.Watches) : Cleared job i w r := by
  cases r with
  | deleteVpc _ => exact h.elim
  | _ => trivial

theorem Request.KeepsVpcs.cleared (h : r.KeepsVpcs) : Cleared job i w r := by
  cases r with
  | deleteVpc _ => exact h.elim
  | _ => trivial

theorem lasts_sighted : Lasts Timely (Relied i) (Sighted i found S) := by
  intro w v _ _ hrely ⟨looks, hlooks, hS⟩
  exact ⟨looks, hrely.sightings.trans hlooks, hS⟩

theorem Sighted.mono {T : List (Except Failure (List Subnet)) → Prop} (h : Sighted i found S w)
    (hsub : ∀ looks, S looks → T looks) : Sighted i found T w := by
  obtain ⟨looks, hlooks, hS⟩ := h
  exact ⟨looks, hlooks, hsub looks hS⟩

theorem watching_of_keepsVpcs (hp : Every Request.KeepsVpcs p.run) :
    Watching job i (fun _ => True) p fun _ _ => True :=
  Attempts.keeps (timely_serve i) (lasts_const True) (fun _ _ _ _ _ _ => trivial)
    (fun _ _ _ _ hr => hr.cleared) hp

theorem watching_aside (hp : Every Request.Aside p.run) :
    Watching job i (Sighted i found S) p fun _ => Sighted i found S :=
  (Attempts.keeps (timely_serve i) lasts_sighted (fun fault w _ _ hr ⟨looks, hlooks, hS⟩ =>
      ⟨looks, (sightings_aside hr fault w).trans hlooks, hS⟩)
    (fun _ _ _ _ hr => hr.cleared) hp).forget

theorem watching_listed (hp : Every Request.Watches p.run) :
    Watching job i (Sighted i found fun _ => True) p fun _ => Sighted i found fun _ => True := by
  refine (Attempts.keeps (timely_serve i) lasts_sighted (fun fault w r _ hr hw => ?_)
    (fun _ _ _ _ hr => hr.cleared) hp).forget
  obtain ⟨looks, hlooks, -⟩ := hw
  by_cases haside : r.Aside
  · exact ⟨looks, (sightings_aside haside fault w).trans hlooks, trivial⟩
  · cases r with
    | getSubnet name =>
      obtain ⟨x, hx, -⟩ := served_getSubnet i fault w name
      exact ⟨looks ++ [x], by rw [hx, hlooks, cons_append], trivial⟩
    | deleteVpc _ | listSubnets _ => exact hr.elim
    | _ => exact absurd trivial haside

omit [DecidableEq ι] in
theorem GoneIn.append {looks : List (Except Failure (List Subnet))} (h : GoneIn name looks)
    (more : List (Except Failure (List Subnet))) : GoneIn name (looks ++ more) := by
  obtain ⟨seen, hmem, hseen⟩ := h
  exact ⟨seen, mem_append_left more hmem, hseen⟩

omit [DecidableEq ι] in
theorem answered_concat (looks : List (Except Failure (List Subnet))) (seen : List Subnet) :
    Answered (looks ++ [.ok seen]) := by
  intro found hfound
  rw [List.getLast?_concat, Option.mem_some_iff] at hfound
  exact ⟨seen, hfound.symm⟩

theorem watching_getSubnet (n : String) :
    Watching job i (Sighted i found fun looks => ∀ m ∈ already, GoneIn m looks)
      (exceptApi (do (do let _ ← ask (.getSubnet n)); return true) fun status =>
        pure (decide (status ≠ 404)))
      fun present => Sighted i found fun looks => (∀ m ∈ already, GoneIn m looks) ∧
        (present = false → Answered looks ∧ GoneIn n looks) := by
  have hask : Attempts (serve i) Timely (Relied i) (fun w r _ => Cleared job i w r)
      (Sighted i found fun looks => ∀ m ∈ already, GoneIn m looks) (ask (.getSubnet n))
      (fun _ => Sighted i found fun looks => ∀ m ∈ already, GoneIn m looks)
      fun e => Sighted i found fun looks => (∀ m ∈ already, GoneIn m looks) ∧
        (e = .api 404 → Answered looks ∧ GoneIn n looks) := by
    refine .ask (timely_serve i) lasts_sighted (fun _ => lasts_sighted)
      (fun _ => lasts_sighted) fun w fault _ hw => ⟨trivial, ?_⟩
    obtain ⟨looks, hlooks, halready⟩ := hw
    obtain ⟨x, hx, hgone⟩ := served_getSubnet i fault w n
    rw [hlooks, cons_append] at hx
    have hkept : ∀ m ∈ already, GoneIn m (looks ++ [x]) := fun m hm => (halready m hm).append [x]
    match hanswer : (serve i fault w (.getSubnet n)).1 with
    | .ok _ => exact ⟨_, hx, hkept⟩
    | .error e =>
      refine ⟨_, hx, hkept, ?_⟩
      rintro rfl
      obtain ⟨seen, rfl, hseen⟩ := hgone hanswer
      exact ⟨answered_concat looks seen, seen,
        mem_append_right looks (mem_singleton.mpr rfl), hseen⟩
  refine attempts_exceptApi (fun _ => lasts_sighted) (fun _ => lasts_sighted)
    (Attempts.bind (timely_serve i) (fun _ => lasts_sighted)
      (Attempts.bind (timely_serve i) (fun _ => lasts_sighted) hask fun _ =>
        Attempts.pure lasts_sighted fun _ hw => hw) fun _ =>
      Attempts.pure lasts_sighted fun w hw => ?_) (fun _ _ _ _ => trivial) fun status =>
    Attempts.pure lasts_sighted fun w hw => ?_
  · obtain ⟨looks, hlooks, halready⟩ := hw
    exact ⟨looks, hlooks, halready, by simp⟩
  · obtain ⟨looks, hlooks, halready, hgone⟩ := hw
    refine ⟨looks, hlooks, halready, fun habsent => hgone ?_⟩
    rw [decide_eq_false_iff_not, not_not] at habsent
    rw [habsent]

theorem watching_stillPresent (names already : List String) :
    Watching job i (Sighted i found fun looks => (∀ m ∈ already, GoneIn m looks) ∧
        (names = [] → Answered looks))
      (stillPresent (fun n => do let _ ← ask (.getSubnet n)) names)
      fun left => Sighted i found fun looks => (names = [] → Answered looks) ∧
        (left = [] → Answered looks ∧ ∀ m ∈ already ++ names, GoneIn m looks) := by
  induction names generalizing already with
  | nil =>
    refine .pure lasts_sighted fun w hw => ?_
    obtain ⟨looks, hlooks, halready, hanswered⟩ := hw
    refine ⟨looks, hlooks, hanswered, fun _ => ⟨hanswered rfl, ?_⟩⟩
    rwa [append_nil]
  | cons n rest ih =>
    refine attempts_bind
      ((watching_getSubnet n).pre fun w hw => hw.mono fun _ h => h.1) fun present => ?_
    cases present with
    | true =>
      have hwatches : Every Request.Watches
          (stillPresent (fun n => do let _ ← ask (.getSubnet n)) rest).run :=
        every_stillPresent (fun _ => .bind (.ask trivial) fun _ => .pure _) rest
      refine attempts_bind
        ((watching_listed hwatches).pre fun w hw => hw.mono fun _ _ => trivial) fun left => ?_
      exact .pure lasts_sighted fun w hw => hw.mono fun looks _ => ⟨by simp, by simp⟩
    | false =>
      refine attempts_bind ((ih (already ++ [n])).pre
        fun w hw => hw.mono fun looks ⟨halready, hgone⟩ => ⟨fun m hm => ?_, fun _ =>
          (hgone rfl).1⟩) fun left => ?_
      · obtain hold | hnew := mem_append.mp hm
        · exact halready m hold
        · rw [mem_singleton.mp hnew]
          exact (hgone rfl).2
      · refine .pure lasts_sighted fun w hw => hw.mono fun looks ⟨_, hgone⟩ =>
          ⟨by simp, fun hnone => ?_⟩
        rw [append_cons]
        exact hgone hnone

/-- One round: where nothing is left, all Subnets that were found have been seen to be gone. -/
theorem watching_dependentsLeft (names : List String) (nat : Names) :
    Watching job i (Sighted i found fun looks => names = [] → Answered looks)
      (dependentsLeft names nat)
      fun left => Sighted i found fun looks => (names = [] → Answered looks) ∧
        (left = [] → Answered looks ∧ ∀ m ∈ names, GoneIn m looks) := by
  have hstill : Watching job i (Sighted i found fun looks => names = [] → Answered looks)
      (stillPresent (fun n => do let _ ← ask (.getSubnet n)) names)
      fun left => Sighted i found fun looks => (names = [] → Answered looks) ∧
        (left = [] → Answered looks ∧ ∀ m ∈ names, GoneIn m looks) :=
    (watching_stillPresent names []).pre fun w hw => hw.mono fun looks h => ⟨by simp, h⟩
  refine attempts_bind hstill fun left => ?_
  refine attempts_bind (watching_aside (every_natPresent (fun _ _ => trivial) nat)) fun others => ?_
  refine .pure lasts_sighted fun w hw => hw.mono fun looks h =>
    ⟨h.1, fun hnone => h.2 ?_⟩
  by_contra hleft
  rw [if_neg hleft] at hnone
  contradiction

/-- When the wait ends with nothing left, all Subnets that were found have been seen to be gone. -/
theorem watching_awaitDependentsGone (names : List String) (nat : Names) (rounds : Nat) :
    Watching job i (Sighted i found fun looks => names = [] → Answered looks)
      (awaitDependentsGone names nat rounds)
      fun left => Sighted i found fun looks =>
        left = [] → Answered looks ∧ ∀ m ∈ names, GoneIn m looks := by
  induction rounds with
  | zero =>
    exact (watching_dependentsLeft names nat).gives fun _ w hw => hw.mono fun _ h => h.2
  | succ rounds ih =>
    refine attempts_bind (watching_dependentsLeft names nat) fun left => ?_
    split
    · next hnone =>
      exact .pure lasts_sighted fun w hw => hw.mono fun _ h _ => h.2 hnone
    · refine attempts_bind (watching_aside (.ask trivial)) fun late => ?_
      split
      · exact .pure lasts_sighted fun w hw => hw.mono fun _ h => h.2
      · exact ih.pre fun w hw => hw.mono fun _ h => h.1

theorem lasts_found {β : Type} {b : β} (f : Except Failure (List Subnet) → β) :
    Lasts Timely (Relied i) fun w => ∃ found, b = f found ∧ Sighted i found (· = []) w :=
  fun w v hw hv hrely ⟨found, hb, hsighted⟩ => ⟨found, hb, lasts_sighted w v hw hv hrely hsighted⟩

theorem watching_getVpcSubnets : Watching job i (fun _ => True) (getVpcSubnets .deletion name)
      fun subnets w => ∃ found,
        subnets = (found.toOption.getD []).filter (fun s => s.vpc = some name) ∧
        Sighted i found (· = []) w := by
  have hask : Attempts (serve i) Timely (Relied i) (fun w r _ => Cleared job i w r)
      (fun _ => True) (ask (.listSubnets .deletion))
      (fun subnets w => ∃ found, subnets = found.toOption.getD [] ∧ Sighted i found (· = []) w)
      fun e => Sighted i (.error e) (· = []) := by
    refine .ask (timely_serve i) (lasts_const True) (fun _ => lasts_found _)
      (fun _ => lasts_sighted) fun w fault _ _ => ⟨trivial, ?_⟩
    have hlooks := served_listSubnets i fault w
    match hanswer : (serve i fault w (.listSubnets .deletion)).1 with
    | .ok subnets =>
      rw [hanswer] at hlooks
      exact ⟨.ok subnets, rfl, [], hlooks, rfl⟩
    | .error e =>
      rw [hanswer] at hlooks
      exact ⟨[], hlooks, rfl⟩
  refine attempts_bind (attempts_exceptApi (fun _ => lasts_found _) (fun _ => lasts_sighted) hask
      (fun _ _ _ _ => trivial) fun status => .pure lasts_sighted fun w hw =>
        ⟨.error (.api status), rfl, hw⟩) fun subnets => ?_
  refine .pure (lasts_found _) fun w ⟨found, hsubnets, hsighted⟩ => ?_
  exact ⟨found, by rw [hsubnets], hsighted⟩

/-- The Vpc is deleted when all its Subnets that were found have been seen to be gone. -/
theorem watching_takeSubnets (rounds : Nat) (nat : Names) :
    Watching (.deleteVpc name) i (fun _ => True) (takeSubnets rounds name nat)
      fun _ _ => True := by
  refine attempts_bind watching_getVpcSubnets fun subnets => ?_
  refine Attempts.of_exists fun found => Triple.of_fact fun hsubnets => ?_
  refine attempts_bind (watching_aside (every_deleteSubnets (fun _ => trivial) _)) fun _ => ?_
  have hwait : Watching (.deleteVpc name) i (Sighted i found (· = []))
      (awaitDependentsGone (subnets.map (·.name)) nat rounds) fun stranded =>
        Sighted i found fun looks => stranded = [] →
          Answered looks ∧ ∀ m ∈ subnets.map (·.name), GoneIn m looks := by
    refine (watching_awaitDependentsGone _ nat rounds).pre fun w hw =>
      hw.mono fun looks hnil _ => ?_
    rw [hnil]
    exact fun _ hlast => nomatch hlast
  refine attempts_bind hwait fun stranded => ?_
  split
  · exact .throw lasts_sighted fun _ _ => trivial
  next hnone =>
  rw [not_not] at hnone
  have hdelete : Watching (.deleteVpc name) i (Sighted i found fun looks => stranded = [] →
        Answered looks ∧ ∀ m ∈ subnets.map (·.name), GoneIn m looks)
      (ask (.deleteVpc name)) fun _ _ => True := by
    refine .ask (timely_serve i) lasts_sighted (fun _ => lasts_const True)
      (fun _ => lasts_const True) fun w fault _ ⟨looks, hlooks, hgone⟩ => ⟨?_, ?_⟩
    · obtain ⟨hanswered, hall⟩ := hgone hnone
      refine ⟨found, looks, hlooks, hanswered, fun s hs hvpc => hall s.name ?_⟩
      rw [hsubnets]
      exact mem_map.mpr ⟨s, mem_filter.mpr ⟨hs, decide_eq_true hvpc⟩, rfl⟩
    · cases (serve i fault w (.deleteVpc name)).1 <;> trivial
  refine attempts_bind (attempts_exceptApi (fun _ => lasts_const True)
    (fun _ => lasts_const True) hdelete (fun _ _ _ _ => trivial) fun status => ?_) fun _ => ?_
  · split <;> exact .throw (lasts_const True) fun _ _ => trivial
  · exact watching_of_keepsVpcs ((every_swallowing (.ask trivial)).bind fun _ => .pure _)

end Programs

section Keeping

theorem Request.Proper.keepsVpcs (h : r.Proper job) : r.KeepsVpcs := by
  cases r with
  | deleteVpc _ => exact h.elim
  | _ => trivial

theorem Request.Plain.keepsVpcs (h : r.Plain) : r.KeepsVpcs := by
  cases r with
  | deleteVpc _ => exact h.elim
  | _ => trivial

theorem every_keepsVpcs (hp : Every Request.Plain p.run) : Every Request.KeepsVpcs p.run :=
  hp.mono fun _ => Request.Plain.keepsVpcs

theorem keepsVpcs_removePeeringSide (undo : Bool) (router remote : String) :
    Every Request.KeepsVpcs (removePeeringSide undo router remote).run := by
  have hproper : Every (Request.Proper (.deleteVpc remote))
      (removePeeringSide undo router remote).run := every_removePeeringSide fun _ => rfl
  exact hproper.mono fun _ => Request.Proper.keepsVpcs

theorem keepsVpcs_rollBack (applied : List (String × String)) :
    Every Request.KeepsVpcs (rollBack applied).run := by
  induction applied with
  | nil => exact .pure ()
  | cons side rest ih =>
    exact (every_swallowing (keepsVpcs_removePeeringSide true side.1 side.2)).bind fun _ => ih

theorem keepsVpcs_applyPeeringSide (router : String) (side : Side) (left : Nat) :
    Every Request.KeepsVpcs (applyPeeringSide router side left).run := by
  induction left with
  | zero => exact .pure ()
  | succ left ih =>
    refine .bind (.ask trivial) fun item => every_exceptApi (.ask trivial) fun status => ?_
    split
    · exact ih
    · exact .throw _

theorem keepsVpcs_applySides (applied : List (String × String)) (sides : List (String × Side)) :
    Every Request.KeepsVpcs (applySides applied sides).run := by
  induction sides generalizing applied with
  | nil => exact .pure ()
  | cons side rest ih =>
    refine (every_exceptApi (keepsVpcs_applyPeeringSide side.1 side.2 _) fun status => ?_).bind
      fun _ => ih _
    exact (keepsVpcs_rollBack applied).bind fun _ => .throw _

theorem keepsVpcs_createVpcPeering (other : String → Except Failure Link)
    (name remote : String) (linkCIDR : Option String) :
    Every Request.KeepsVpcs (createVpcPeering other name remote linkCIDR).run := by
  refine .bind ?_ fun _ => (every_swallowing (.ask trivial)).bind fun _ => .pure _
  unfold createPeeringPair
  split
  · exact .throw _
  refine (every_keepsVpcs (every_getSpec name)).bind fun _ => ?_
  refine (every_keepsVpcs (every_getSpec remote)).bind fun _ => ?_
  refine (every_keepsVpcs (every_vpcSubnetCidrs name)).bind fun localCIDRs => ?_
  refine (every_keepsVpcs (every_vpcSubnetCidrs remote)).bind fun remoteCIDRs => ?_
  unfold joinOver
  split
  · exact .throw _
  · exact (every_keepsVpcs (every_linkFor other linkCIDR)).bind fun _ => keepsVpcs_applySides [] _

theorem keepsVpcs_deleteVpcPeering (name remote : String) :
    Every Request.KeepsVpcs (deleteVpcPeering name remote).run := by
  have hside (here there : String) : Every Request.KeepsVpcs
      (exceptApi (removePeeringSide false here there) fun status =>
        throw (k8sErrorToHttp status ("removing peering from VPC '" ++ here ++ "'"))).run :=
    every_exceptApi (keepsVpcs_removePeeringSide false here there) fun _ => .throw _
  refine (every_keepsVpcs (every_peeringCr name remote)).bind fun found => ?_
  split
  · exact .bind (.ask trivial) fun _ => .pure _
  · refine .bind ((hside name remote).bind fun _ =>
      (hside remote name).bind fun _ => .pure ()) fun _ => ?_
    exact (every_swallowing (.ask trivial)).bind fun _ => .pure _

theorem keepsVpcs_releasePeerings (name : String) :
    Every Request.KeepsVpcs (releasePeerings name).run := by
  refine (every_keepsVpcs (every_getVpcPeerings name)).bind fun remotes => ?_
  refine (every_keepsVpcs (every_claimedRemotes name)).bind fun claimed => ?_
  induction remotes with
  | nil => exact .pure ()
  | cons remote rest ih =>
    rw [releaseAll_cons]
    refine .bind ?_ fun _ => ih
    split
    · exact .pure ()
    split
    · exact every_exceptApi (.ask trivial) fun _ => .pure ()
    · exact every_swallowing (keepsVpcs_removePeeringSide false remote name)

end Keeping

section Jobs

theorem watching_takeDown (rounds : Nat) :
    Watching (.deleteVpc name) i (fun _ => True) (takeDown rounds name) fun _ _ => True := by
  have hgateway : Every (Request.Proper (.deleteVpc name)) (takeGateway name).run :=
    every_takeGateway name
  refine attempts_bind
    (watching_of_keepsVpcs (hgateway.mono fun _ => Request.Proper.keepsVpcs)) fun nat => ?_
  refine attempts_bind
    (watching_of_keepsVpcs (every_keepsVpcs (every_tolerating .vpcDns))) fun _ => ?_
  refine attempts_bind
    (watching_of_keepsVpcs (every_keepsVpcs (every_tolerating .vpcDnsPolicy))) fun _ => ?_
  refine attempts_bind (watching_of_keepsVpcs (keepsVpcs_releasePeerings name)) fun _ => ?_
  exact watching_takeSubnets rounds nat

theorem watching_deleteVpc (rounds : Nat) :
    Watching (.deleteVpc name) i (fun _ => True) (deleteVpc rounds name) fun _ _ => True := by
  refine attempts_bind
    (watching_of_keepsVpcs (every_keepsVpcs (every_managedNetworkCascades name))) fun found => ?_
  match found with
  | none => exact watching_takeDown rounds
  | some cascades =>
    refine attempts_bind (watching_of_keepsVpcs (.ask trivial)) fun _ => ?_
    split
    · exact .pure (lasts_const True) fun _ _ => trivial
    · exact attempts_bind
        (watching_of_keepsVpcs (every_keepsVpcs (every_awaitManagedNetworkGone name 30)))
        fun _ => watching_takeDown rounds

theorem lasts_seenEmpty : Lasts Timely (Relied i) fun w => SeenEmpty i name w.log := by
  intro w v _ _ hrely ⟨seen, hlast, hseen⟩
  exact ⟨seen, hrely.lastLook.trans hlast, hseen⟩

theorem lasts_lastLook (found : Except Failure (List Subnet)) :
    Lasts Timely (Relied i) fun w => lastLook i w.log = some found :=
  fun _ _ _ _ hrely hlast => hrely.lastLook.trans hlast

/-- The operator's listing raises where it fails; what it has found is all that there was. -/
theorem watching_subnetsOf : Watching job i (fun _ => True) (subnetsOf name)
      fun stuck w => stuck = [] → SeenEmpty i name w.log := by
  have hlist : Watching job i (fun _ => True)
      (wrapping "listing subnets" (ask (.listSubnets .deletion)))
      fun subnets w => lastLook i w.log = some (.ok subnets) := by
    refine .tryCatch (E := fun _ _ => True) (timely_serve i) (fun _ => lasts_lastLook _)
      (Attempts.ask (timely_serve i) (lasts_const True) (fun _ => lasts_lastLook _)
        (fun _ => lasts_const True) fun w fault _ _ => ⟨trivial, ?_⟩)
      fun e => .throw (lasts_const True) fun _ _ => trivial
    have hlast := getLast?_sightings i (serve i fault w (.listSubnets .deletion)).2.log
    rw [served_listSubnets] at hlast
    match hanswer : (serve i fault w (.listSubnets .deletion)).1 with
    | .ok subnets =>
      rw [hanswer] at hlast
      exact hlast.symm
    | .error e => trivial
  refine attempts_bind hlist fun subnets => ?_
  refine .pure (lasts_lastLook _) fun w hlast hnone => ⟨subnets, hlast, fun s hs hvpc => ?_⟩
  have hmem : s.name ∈ ((subnets.filter fun s => s.vpc = some name).map (·.name)).insertionSort
      (· ≤ ·) :=
    (mem_insertionSort _).mpr (mem_map.mpr ⟨s, mem_filter.mpr ⟨hs, decide_eq_true hvpc⟩, rfl⟩)
  rw [hnone] at hmem
  contradiction

theorem watching_deleteIfPresent {kind : String} {get : Call Bool} {delete : Call Unit}
    {R : World ι → Prop} (hR : Lasts Timely (Relied i) R)
    (hget : Attempts (serve i) Timely (Relied i) (fun w r _ => Cleared job i w r) R get
      (fun _ => R) fun _ => R) (hdelete : Watching job i R delete fun _ _ => True) :
    Watching job i R (deleteIfPresent kind get delete) fun _ _ => True := by
  have hpresent : Watching job i R (tryCatch (do return some (← get)) fun e =>
        if e = .api 404 ∨ e = .noMatch then pure none
        else throw (.wrapped ("reading " ++ kind) e))
      fun _ => R := by
    refine .tryCatch (timely_serve i) (fun _ => hR)
      (Attempts.bind (timely_serve i) (fun _ => hR) hget fun _ =>
        Attempts.pure (E := fun _ => R) hR fun _ hw => hw) fun e => ?_
    split
    · exact .pure hR fun _ hw => hw
    · exact .throw hR fun _ _ => trivial
  refine attempts_bind hpresent fun present => ?_
  match present with
  | none | some true => exact .pure hR fun _ _ => trivial
  | some false =>
    refine .tryCatch (timely_serve i) (fun _ => lasts_const True) hdelete fun e => ?_
    split
    · exact .pure (lasts_const True) fun _ _ => trivial
    · exact .throw (lasts_const True) fun _ _ => trivial

theorem watching_tearDown (finalizer : Bool) :
    Watching (.tearDown name finalizer) i (fun _ => True) (tearDown name finalizer)
      fun _ _ => True := by
  have herrand (kind : String) (e : Errand) : Watching (.tearDown name finalizer) i (fun _ => True)
      (deleteIfPresent kind (do ask (.errand e); return false) (ask (.errand e)))
      fun _ _ => True :=
    watching_of_keepsVpcs (every_keepsVpcs
      (every_deleteIfPresent ((every_errand e).bind fun _ => .pure _) (every_errand e)))
  unfold tearDown
  split
  · exact .pure (lasts_const True) fun _ _ => trivial
  refine attempts_bind (herrand _ .vpcDns) fun _ => ?_
  refine attempts_bind (herrand _ .vpcDnsPolicy) fun _ => ?_
  refine attempts_bind
    (watching_of_keepsVpcs (every_keepsVpcs (every_subnetsOf name))) fun subnets => ?_
  refine attempts_bind
    (watching_of_keepsVpcs (every_keepsVpcs (every_deleteAllPresent subnets))) fun _ => ?_
  refine attempts_bind watching_subnetsOf fun stuck => ?_
  have hrest : Every Request.KeepsVpcs (wrapping "releasing the finalizer"
      (ask (.errand .finalizer)) >>= fun _ => (pure .done : Call Outcome)).run :=
    (every_keepsVpcs (every_wrapping (every_errand .finalizer))).bind fun _ => .pure _
  have hstatus : Every Request.KeepsVpcs
      (ask (.errand .status) >>= fun _ => (pure .waiting : Call Outcome)).run :=
    (every_keepsVpcs (every_errand .status)).bind fun _ => .pure _
  split
  · exact (watching_of_keepsVpcs hstatus).pre fun _ _ => trivial
  next hnone =>
  rw [not_not] at hnone
  have hseen : Lasts Timely (Relied i) fun w => SeenEmpty i name w.log := lasts_seenEmpty
  have hget : Attempts (serve i) Timely (Relied i)
      (fun w r _ => Cleared (.tearDown name finalizer) i w r) (fun w => SeenEmpty i name w.log)
      (do let _ ← ask (.getVpc name); return false) (fun _ w => SeenEmpty i name w.log)
      fun _ w => SeenEmpty i name w.log := by
    have haside : Every Request.Aside
        (ask (.getVpc name) >>= fun _ => (pure false : Call Bool)).run :=
      Every.bind (.ask trivial) fun _ => .pure _
    refine .keeps (timely_serve i) hseen
      (fun fault w r _ hr ⟨found, hlast, hfound⟩ => ⟨found, ?_, hfound⟩)
      (fun _ _ _ _ hr => hr.cleared) haside
    rw [← getLast?_sightings, sightings_aside hr, getLast?_sightings, hlast]
  have hdelete : Watching (.tearDown name finalizer) i (fun w => SeenEmpty i name w.log)
      (ask (.deleteVpc name)) fun _ _ => True := by
    refine .ask (timely_serve i) hseen (fun _ => lasts_const True)
      (fun _ => lasts_const True) fun w fault _ hw => ⟨hw, ?_⟩
    cases (serve i fault w (.deleteVpc name)).1 <;> trivial
  refine attempts_bind ((watching_deleteIfPresent hseen hget hdelete).pre fun w hw => hw hnone)
    fun _ => watching_of_keepsVpcs hrest

theorem watching_program (other : String → Except Failure Link) (rounds : Nat) (job : Job) :
    Watching job i (fun _ => True) (job.program other rounds) fun _ _ => True := by
  cases job with
  | createVpcPeering name remote linkCIDR =>
    exact watching_of_keepsVpcs (keepsVpcs_createVpcPeering other name remote linkCIDR)
  | deleteVpcPeering name remote =>
    exact watching_of_keepsVpcs (keepsVpcs_deleteVpcPeering name remote)
  | deleteVpc name => exact watching_deleteVpc rounds
  | tearDown name finalizer => exact watching_tearDown finalizer

end Jobs

/-- Whenever a Vpc was named for deletion, the last look of the client was answered and showed no
Subnet of it. -/
def Outlived (log : List (Event ι)) : Prop :=
  ∀ i name before after, log = before ++ .deleting i name :: after → SeenEmpty i name before

/-- The listing was answered, and since then no Subnet of the Vpc has come up from one look to the
next. -/
def Dwindling (vpc : String) (looks : List (Except Failure (List Subnet))) : Prop :=
  (∀ found ∈ looks.head?, found.toOption.isSome = true) ∧
  (looks.filterMap Except.toOption).Pairwise fun earlier later =>
    ∀ s ∈ later, s.vpc = some vpc → ∃ s' ∈ earlier, s'.vpc = some vpc ∧ s'.name = s.name

/-- The condition on a turn: it concerns the backend alone, and only where it has a Vpc deleted. -/
def Steady {ρ : Type} (jobs : ι → Job) (s : Crowd (World ι) Request Request.Response ι ρ) :
    Turn Action Fault ι → Prop
  | .act _ => True
  | .call i _ =>
    match jobs i, (s.rest i).request? with
    | .deleteVpc _, some (.deleteVpc name) => Dwindling name (sightings i s.world.log)
    | _, _ => True

section Runs

/-- What was found is gone, and nothing has come up since: the last look showed nothing. -/
theorem SeenGone.seenEmpty (h : SeenGone i name log)
    (hdwindling : Dwindling name (sightings i log)) : SeenEmpty i name log := by
  obtain ⟨found, looks, hlooks, hanswered, hgone⟩ := h
  rw [hlooks] at hdwindling
  obtain ⟨hfound, hpairs⟩ := hdwindling
  obtain ⟨subnets, rfl⟩ : ∃ subnets, found = .ok subnets := by
    cases found with
    | ok subnets => exact ⟨subnets, rfl⟩
    | error e => exact absurd (hfound (.error e) rfl) (by simp [Except.toOption])
  rw [SeenEmpty, ← getLast?_sightings, hlooks]
  obtain rfl | ⟨init, last, rfl⟩ := looks.eq_nil_or_concat'
  · refine ⟨subnets, rfl, fun s hs hvpc => ?_⟩
    obtain ⟨seen, hmem, -⟩ := hgone s hs hvpc
    contradiction
  · rw [← cons_append, List.getLast?_concat]
    obtain ⟨seen, rfl⟩ := hanswered last (by rw [List.getLast?_concat]; rfl)
    refine ⟨seen, rfl, fun s hs hvpc => ?_⟩
    rw [← cons_append, filterMap_append] at hpairs
    have hbefore (earlier : List Subnet) (hearlier : .ok earlier ∈ .ok subnets :: init) :
        ∃ s' ∈ earlier, s'.vpc = some name ∧ s'.name = s.name := by
      refine (pairwise_append.mp hpairs).2.2 earlier ?_ seen ?_ s hs hvpc
      · exact mem_filterMap.mpr ⟨_, hearlier, rfl⟩
      · exact mem_filterMap.mpr ⟨_, mem_singleton.mpr rfl, rfl⟩
    obtain ⟨s', hs', hvpc', hname⟩ := hbefore subnets mem_cons_self
    obtain ⟨seen', hmem, hgone'⟩ := hgone s' hs' hvpc'
    obtain hinit | hlast := mem_append.mp hmem
    · obtain ⟨s'', hs'', -, hsame⟩ := hbefore seen' (mem_cons_of_mem _ hinit)
      exact hgone' s'' hs'' (hsame.trans hname.symm)
    · obtain rfl := Except.ok.inj (mem_singleton.mp hlast)
      exact hgone' s hs hname.symm

theorem outlived_serve (fault : Fault) (h : Outlived w.log)
    (hr : ∀ name, r = .deleteVpc name → SeenEmpty i name w.log) :
    Outlived (serve i fault w r).2.log := by
  obtain hlog | ⟨e, he, hlog⟩ := log_serve i fault w r
  · rwa [hlog]
  · intro j vpc before after hsplit
    rw [hlog] at hsplit
    obtain ⟨rfl, hlast, rfl⟩ | ⟨after', rfl, hold⟩ := split_concat hsplit
    · subst hlast
      cases r with
      | deleteVpc name =>
        obtain ⟨rfl, rfl⟩ := Event.deleting.inj he
        exact hr vpc rfl
      | getVpcPeerings _ | listSubnets _ | getSubnet _ =>
        obtain ⟨_, he⟩ := he
        contradiction
      | getVpc _ | deleteRecord _ =>
        rw [Request.Notes] at he
        contradiction
      | patchVpc _ _ _ reason =>
        obtain he | he := he
        · cases reason <;> contradiction
        · contradiction
      | _ => exact he.elim
    · exact h j vpc before after' hold

/-- In a run in which the listing of each deletion by the backend is answered and no Subnet comes
up while it waits, no Vpc is deleted before its Subnets. The operator needs no condition. -/
theorem router_outlives (other : String → Except Failure Link) (rounds : Nat) (jobs : ι → Job)
    (w : World ι) (htimely : Timely w) (hlog : w.log = [])
    {t : Crowd (World ι) Request Request.Response ι (Except Failure Outcome)}
    (hrun : Crowd.Run serve act (Steady jobs) (starting other rounds jobs w) t) :
    Outlived t.world.log := by
  have hstart : Crowd.Legal Timely Relied (fun i w r _ => Cleared (jobs i) i w r)
      (fun _ => outcome (fun _ _ => True) fun _ _ => True) serve
      (starting other rounds jobs w) :=
    ⟨htimely, fun i => watching_program other rounds (jobs i) w htimely trivial⟩
  have hnone : Outlived w.log := by
    intro i name before after hsplit
    rw [hlog] at hsplit
    simp at hsplit
  have hknown (s : Crowd (World ι) Request Request.Response ι (Except Failure Outcome)) (i : ι)
      (fault : Fault) (name : String) (k : _ → Program Request Request.Response _)
      (hcond : Steady jobs s (.call i fault)) (hrest : s.rest i = .call (.deleteVpc name) k)
      (hcleared : (jobs i).Clears i name s.world.log) : SeenEmpty i name s.world.log := by
    rw [Steady, hrest] at hcond
    cases hjob : jobs i with
    | deleteVpc vpc =>
      rw [hjob] at hcond hcleared
      exact SeenGone.seenEmpty hcleared hcond
    | tearDown vpc finalizer =>
      rw [hjob] at hcleared
      exact hcleared
    | createVpcPeering _ _ _ =>
      rw [hjob] at hcleared
      exact hcleared.elim
    | deleteVpcPeering _ _ =>
      rw [hjob] at hcleared
      exact hcleared.elim
  have hturn (s : Crowd (World ι) Request Request.Response ι (Except Failure Outcome)) (i : ι)
      (fault : Fault) (r : Request) (k : r.Response → Program Request Request.Response _)
      (hcond : Steady jobs s (.call i fault)) (hrest : s.rest i = .call r k)
      (hs : Outlived s.world.log) (hcleared : Cleared (jobs i) i s.world r) :
      Outlived (serve i fault s.world r).2.log := by
    refine outlived_serve fault hs fun name hr => ?_
    subst hr
    exact hknown s i fault name k hcond hrest hcleared
  exact (Crowd.Run.invariant (P := fun w => Outlived w.log) relied_refl timely_serve
    (fun s a _ hinv hs => ⟨timely_act a hinv, fun i => relied_act i a s.world,
      (same_act a s.world).log.symm ▸ hs⟩)
    (fun s i fault r k hcond hrest _ hs hcleared => ⟨fun j hj => relied_serve hj,
      hturn s i fault r k hcond hrest hs hcleared⟩) hstart hnone hrun).2

end Runs

section Example

/-- A request takes down the network of the shop, and the operator that of the bank. -/
def closing : Fin 2 → Job
  | 0 => .deleteVpc "shop"
  | 1 => .tearDown "bank" true

instance {ρ : Type} (jobs : Fin 2 → Job)
    (s : Crowd (World (Fin 2)) Request Request.Response (Fin 2) ρ) :
    DecidablePred (Steady jobs s)
  | .act _ => .isTrue trivial
  | .call _ _ => by
      dsimp only [Steady, Dwindling]
      split <;> infer_instance

/-- The event names the Vpc for deletion. -/
def Event.deletes (i : Fin 2) (vpc : String) : Event (Fin 2) → Bool
  | .deleting j name => j = i ∧ name = vpc
  | _ => false

/-- Both Vpcs have been named for deletion. -/
def closed (t : Crowd (World (Fin 2)) Request Request.Response (Fin 2)
    (Except Failure Outcome)) : Bool :=
  t.world.log.any (Event.deletes first "shop") && t.world.log.any (Event.deletes second "bank")

/-- Both are taken down at the same time, after their Subnets. -/
theorem router_outlives_market : ∃ t, closed t = true ∧ Outlived t.world.log := by
  have hplay : (Crowd.playWhile serve act (Steady closing) (starting notAnother 1 closing market)
      (turns 0 5 ++ turns 1 7 ++ turns 0 6 ++ turns 1 4)).any closed = true := by decide +kernel
  obtain ⟨t, hrun, ht⟩ := Crowd.exists_run_of_playWhile _ hplay
  exact ⟨t, ht, router_outlives notAnother 1 closing market timely_market rfl hrun⟩

/-- The last that was done is a deletion, the last look before it was not answered, and there is a
Subnet. -/
def unseen (t : Crowd (World (Fin 2)) Request Request.Response (Fin 2)
    (Except Failure Outcome)) : Bool :=
  t.world.log.getLast?.any (Event.deletes first "shop") &&
    (lastLook first t.world.log.dropLast).all (fun found => !found.isOk) &&
    t.world.around.subnets.any fun s => s.vpc = some "shop"

/-- The listing is refused, and the Vpc of the shop is deleted with its Subnet there. -/
theorem not_outlived_market : ∃ t, Crowd.Run serve act (fun _ _ => True)
    (starting notAnother 1 closing market) t ∧
      (∃ s ∈ t.world.around.subnets, s.vpc = some "shop") ∧ ¬ Outlived t.world.log := by
  have hplay : (Crowd.playWhile serve act (fun _ _ => True) (starting notAnother 1 closing market)
      (turns 0 6 ++ .call 0 (some ⟨.api 500, by decide⟩) :: turns 0 1)).any unseen = true := by
    decide +kernel
  obtain ⟨t, hrun, ht⟩ := Crowd.exists_run_of_playWhile _ hplay
  obtain ⟨hlog, hsubnet⟩ := Bool.and_eq_true_iff.mp ht
  obtain ⟨hlast, hlook⟩ := Bool.and_eq_true_iff.mp hlog
  obtain ⟨s, hs, hvpc⟩ := any_eq_true.mp hsubnet
  refine ⟨t, hrun, ⟨s, hs, of_decide_eq_true hvpc⟩, fun houtlived => ?_⟩
  obtain ⟨e, he, hdeletes⟩ := (Option.any_eq_true _ _).mp hlast
  cases e with
  | deleting i name =>
    obtain ⟨rfl, rfl⟩ := of_decide_eq_true hdeletes
    have hsplit := dropLast_append_getLast? _ he
    obtain ⟨seen, hseen, -⟩ := houtlived first "shop" _ [] hsplit.symm
    rw [hseen] at hlook
    exact absurd hlook Bool.false_ne_true
  | _ => exact absurd hdeletes Bool.false_ne_true

end Example

end Vpcs
