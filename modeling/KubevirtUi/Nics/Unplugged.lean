import Mathlib.Data.List.Nodup

/-!
# NICs that have been unplugged

To detach a NIC is to mark its interface absent. Once the guest no longer has it, the interface and
the network of its name are taken off the template, and so is a network that has no interface.
-/

namespace Unplug

open List

variable {ν ι τ : Type}

def interfaceStateAbsent : String := "absent"

/-- A network of a template, and where it comes from. -/
structure Network (ν : Type) where
  name : String
  source : ν

structure Interface (ι : Type) where
  name : String
  state : String
  settings : ι

structure Template (ν ι τ : Type) where
  networks : List (Network ν)
  interfaces : List (Interface ι)
  rest : τ

structure VirtualMachine (ν ι τ : Type) where
  namespaceName : String
  name : String
  template : Option (Template ν ι τ)

structure ManagedVM where
  namespaceName : String
  name : String

/-- What is read of the running instance. -/
inductive Running where
  | notFound
  | failed (error : String)
  | found (interfaces : List String)

/-- What the guest still has plugged in. A stopped machine has nothing. -/
def liveInterfaceNames (vm : ManagedVM) : Running → Except String (List String)
  | .notFound => .ok []
  | .failed error =>
    .error ("reading the running instance of " ++ vm.namespaceName ++ "/" ++ vm.name ++
      ": " ++ error)
  | .found interfaces => .ok interfaces

/-- `byName[iface.Name] = iface` -/
def setName (byName : String → Option (Interface ι)) (iface : Interface ι) :
    String → Option (Interface ι) :=
  Function.update byName iface.name (some iface)

/-- Of interfaces with one name the last one counts. -/
def byName (interfaces : List (Interface ι)) : String → Option (Interface ι) :=
  interfaces.foldl setName fun _ => none

/-- Nothing can be using the network. -/
def isDead (live : List String) (template : Template ν ι τ) (network : Network ν) : Bool :=
  match byName template.interfaces network.name with
  | none => true
  | some iface =>
    if iface.state ≠ interfaceStateAbsent then false
    -- still there, so the unplug is in progress
    else if iface.name ∈ live then false
    else true

def dead (live : List String) (template : Template ν ι τ) : List String :=
  (template.networks.filter (isDead live template)).map (·.name)

def withoutDead (live : List String) (template : Template ν ι τ) : Template ν ι τ :=
  { template with
    networks := template.networks.filter fun network => network.name ∉ dead live template
    interfaces := template.interfaces.filter fun iface => iface.name ∉ dead live template }

/-- What a sweep comes to, what the pass goes on with, and what has been written. -/
structure Swept (ν ι τ : Type) where
  result : Except String Unit
  existing : VirtualMachine ν ι τ
  written : Option (VirtualMachine ν ι τ)

def sweepDetachedNICs (running : Running) (updateError : Option String) (vm : ManagedVM)
    (existing : VirtualMachine ν ι τ) : Swept ν ι τ :=
  match existing.template with
  | none => ⟨.ok (), existing, none⟩
  | some spec =>
    match liveInterfaceNames vm running with
    | .error error => ⟨.error error, existing, none⟩
    | .ok live =>
      if dead live spec = [] then ⟨.ok (), existing, none⟩
      else
        match updateError with
        | some error =>
          ⟨.error ("clearing detached interfaces from " ++ existing.namespaceName ++ "/" ++
            existing.name ++ ": " ++ error), existing, none⟩
        | none =>
          let patched := { existing with template := some (withoutDead live spec) }
          ⟨.ok (), patched, some patched⟩

section Dead

variable {live : List String} {template : Template ν ι τ} {interfaces : List (Interface ι)}
  {network : Network ν} {iface : Interface ι} {name : String}

/-- The network has an interface that is not both marked absent and gone from the guest. -/
def Plugged (live : List String) (template : Template ν ι τ) (network : Network ν) : Prop :=
  ∃ iface ∈ template.interfaces, iface.name = network.name ∧
    ¬(iface.state = interfaceStateAbsent ∧ iface.name ∉ live)

instance (live : List String) (template : Template ν ι τ) (network : Network ν) :
    Decidable (Plugged live template network) :=
  inferInstanceAs (Decidable (∃ iface ∈ template.interfaces, iface.name = network.name ∧
    ¬(iface.state = interfaceStateAbsent ∧ iface.name ∉ live)))

/-- Where names are different, a name is looked up among the interfaces. -/
theorem byName_eq_some_iff (h : (interfaces.map (·.name)).Nodup) :
    byName interfaces name = some iface ↔ iface ∈ interfaces ∧ iface.name = name := by
  have hfold (found : String → Option (Interface ι))
      (hnew : ∀ iface ∈ interfaces, found iface.name = none) :
      interfaces.foldl setName found name = some iface ↔
        found name = some iface ∨ (iface ∈ interfaces ∧ iface.name = name) := by
    induction interfaces generalizing found with
    | nil => simp
    | cons first rest ih =>
      rw [map_cons, nodup_cons] at h
      rw [forall_mem_cons] at hnew
      have hrest (other : Interface ι) (hother : other ∈ rest) : other.name ≠ first.name := by
        intro hname
        exact h.1 (hname ▸ mem_map_of_mem hother)
      rw [foldl_cons, ih h.2 _ fun other hother => by
        rw [setName, Function.update_of_ne (hrest other hother), hnew.2 other hother], setName]
      by_cases hname : name = first.name
      · subst hname
        rw [Function.update_self, hnew.1, Option.some.injEq, mem_cons]
        constructor
        · rintro (rfl | ⟨hmem, hsame⟩)
          · exact .inr ⟨.inl rfl, rfl⟩
          · exact absurd hsame (hrest iface hmem)
        · rintro (hnone | ⟨rfl | hmem, hsame⟩)
          · cases hnone
          · exact .inl rfl
          · exact absurd hsame (hrest iface hmem)
      · rw [Function.update_of_ne hname, mem_cons]
        constructor
        · rintro (hfound | ⟨hmem, hsame⟩)
          · exact .inl hfound
          · exact .inr ⟨.inr hmem, hsame⟩
        · rintro (hfound | ⟨rfl | hmem, hsame⟩)
          · exact .inl hfound
          · exact absurd hsame.symm hname
          · exact .inr ⟨hmem, hsame⟩
  rw [byName, hfold _ fun _ _ => rfl]
  simp

theorem isDead_iff (h : (template.interfaces.map (·.name)).Nodup) :
    isDead live template network = true ↔ ¬Plugged live template network := by
  rw [isDead]
  cases hfound : byName template.interfaces network.name with
  | none =>
    simp only [true_iff]
    rintro ⟨iface, hmem, hname, -⟩
    rw [(byName_eq_some_iff h).mpr ⟨hmem, hname⟩] at hfound
    cases hfound
  | some iface =>
    obtain ⟨hmem, hname⟩ := (byName_eq_some_iff h).mp hfound
    have honly : Plugged live template network ↔
        ¬(iface.state = interfaceStateAbsent ∧ iface.name ∉ live) := by
      constructor
      · rintro ⟨other, hother, hsame, hleft⟩
        have hfound' := (byName_eq_some_iff h).mpr ⟨hother, hsame⟩
        rw [hfound, Option.some.injEq] at hfound'
        exact hfound' ▸ hleft
      · intro hleft
        exact ⟨iface, hmem, hname, hleft⟩
    rw [honly, not_not]
    dsimp only
    split
    · next hstate => simp [hstate]
    · next hstate =>
      rw [not_not] at hstate
      split
      · next hlive => simp [hlive]
      · next hlive => simp [hstate, hlive]

theorem mem_dead_iff (h : (template.interfaces.map (·.name)).Nodup) : name ∈ dead live template ↔
      ∃ network ∈ template.networks, network.name = name ∧ ¬Plugged live template network := by
  simp only [dead, mem_map, mem_filter, isDead_iff h]
  constructor
  · rintro ⟨network, ⟨hmem, hnot⟩, hname⟩
    exact ⟨network, hmem, hname, hnot⟩
  · rintro ⟨network, hmem, hname, hnot⟩
    exact ⟨network, ⟨hmem, hnot⟩, hname⟩

theorem Plugged.of_name {other : Network ν} (h : Plugged live template network)
    (hname : other.name = network.name) : Plugged live template other := by
  obtain ⟨iface, hmem, hsame, hleft⟩ := h
  exact ⟨iface, hmem, hsame.trans hname.symm, hleft⟩

theorem mem_dead_of_network (h : (template.interfaces.map (·.name)).Nodup)
    (hnetwork : network ∈ template.networks) :
    network.name ∈ dead live template ↔ ¬Plugged live template network := by
  rw [mem_dead_iff h]
  constructor
  · rintro ⟨other, -, hname, hnot⟩ hplugged
    exact hnot (hplugged.of_name hname)
  · intro hnot
    exact ⟨network, hnetwork, rfl, hnot⟩

end Dead

section Sweep

variable {live : List String} {t t' : Template ν ι τ} {running : Running}
  {updateError : Option String} {vm : ManagedVM} {existing : VirtualMachine ν ι τ}

/-- The networks that are plugged in are left, and the interfaces that have not gone with a
network. -/
structure OnlyDeadGone (live : List String) (t t' : Template ν ι τ) : Prop where
  networks : t'.networks = t.networks.filter fun network => Plugged live t network
  interfaces : t'.interfaces = t.interfaces.filter fun iface =>
    ¬∃ network ∈ t.networks, network.name = iface.name ∧ ¬Plugged live t network
  rest : t'.rest = t.rest
  paired : ∀ network ∈ t'.networks, ∃ iface ∈ t'.interfaces, iface.name = network.name

theorem onlyDeadGone_withoutDead (live : List String) (h : (t.interfaces.map (·.name)).Nodup) :
    OnlyDeadGone live t (withoutDead live t) := by
  have hnetworks : (withoutDead live t).networks =
      t.networks.filter fun network => Plugged live t network := by
    apply filter_congr
    intro network hmem
    rw [decide_eq_decide, mem_dead_of_network h hmem, not_not]
  refine ⟨hnetworks, ?_, rfl, ?_⟩
  · apply filter_congr
    intro iface _
    rw [decide_eq_decide, mem_dead_iff h]
  · intro network hmem
    rw [hnetworks, mem_filter, decide_eq_true_eq] at hmem
    obtain ⟨hmem, iface, hiface, hname, hleft⟩ := hmem
    refine ⟨iface, mem_filter.mpr ⟨hiface, ?_⟩, hname⟩
    rw [decide_eq_true_eq, hname, mem_dead_of_network h hmem, not_not]
    exact ⟨iface, hiface, hname, hleft⟩

theorem withoutDead_of_dead_eq_nil (h : dead live t = []) : withoutDead live t = t := by
  simp [withoutDead, h]

theorem nodup_interfaces_withoutDead (h : (t.interfaces.map (·.name)).Nodup) :
    ((withoutDead live t).interfaces.map (·.name)).Nodup :=
  h.sublist (filter_sublist.map _)

theorem dead_withoutDead (h : (t.interfaces.map (·.name)).Nodup) :
    dead live (withoutDead live t) = [] := by
  apply eq_nil_iff_forall_not_mem.mpr
  intro name hname
  obtain ⟨network, hmem, -, hnot⟩ := (mem_dead_iff (nodup_interfaces_withoutDead h)).mp hname
  obtain ⟨hnetworks, -, -, -⟩ := onlyDeadGone_withoutDead live h
  apply hnot
  rw [hnetworks, mem_filter, decide_eq_true_eq] at hmem
  obtain ⟨hmem, iface, hiface, hsame, hleft⟩ := hmem
  refine ⟨iface, mem_filter.mpr ⟨hiface, ?_⟩, hsame, hleft⟩
  rw [decide_eq_true_eq, hsame, mem_dead_of_network h hmem, not_not]
  exact ⟨iface, hiface, hsame, hleft⟩

/-- What a sweep of a machine does, whatever fails in it. -/
structure TakesOnlyDead (running : Running) (updateError : Option String) (vm : ManagedVM)
    (existing : VirtualMachine ν ι τ) (t : Template ν ι τ) : Prop where
  /-- It returns an error only if a call fails. -/
  ends : (∀ error, running ≠ .failed error) → updateError = none →
    (sweepDetachedNICs running updateError vm existing).result = .ok ()
  swept : (sweepDetachedNICs running updateError vm existing).result = .ok () →
    ∃ live t', liveInterfaceNames vm running = .ok live ∧ OnlyDeadGone live t t' ∧
      (sweepDetachedNICs running updateError vm existing).existing =
        { existing with template := some t' }
  /-- The machine that the pass goes on with is the one that the API server has. -/
  stored : (sweepDetachedNICs running updateError vm existing).existing =
    (sweepDetachedNICs running updateError vm existing).written.getD existing
  failed : ∀ error, (sweepDetachedNICs running updateError vm existing).result = .error error →
    (sweepDetachedNICs running updateError vm existing).existing = existing ∧
      (sweepDetachedNICs running updateError vm existing).written = none
  again : (sweepDetachedNICs running updateError vm existing).result = .ok () → ∀ updateError',
    sweepDetachedNICs running updateError' vm
        (sweepDetachedNICs running updateError vm existing).existing =
      ⟨.ok (), (sweepDetachedNICs running updateError vm existing).existing, none⟩

theorem sweep_of_dead_eq_nil (htemplate : existing.template = some t)
    (hlive : liveInterfaceNames vm running = .ok live) (hdead : dead live t = []) :
    sweepDetachedNICs running updateError vm existing = ⟨.ok (), existing, none⟩ := by
  rw [sweepDetachedNICs, htemplate]
  dsimp only
  rw [hlive]
  dsimp only
  rw [if_pos hdead]

theorem takesOnlyDead (htemplate : existing.template = some t)
    (hinterfaces : (t.interfaces.map (·.name)).Nodup) :
    TakesOnlyDead running updateError vm existing t := by
  have hself : existing = { existing with template := some t } := by rw [← htemplate]
  cases hread : liveInterfaceNames vm running with
  | error error =>
    have hsweep : sweepDetachedNICs running updateError vm existing =
        ⟨.error error, existing, none⟩ := by
      rw [sweepDetachedNICs, htemplate]
      dsimp only
      rw [hread]
    refine ⟨fun hrunning _ => ?_, ?_, ?_, ?_, ?_⟩ <;> rw [hsweep]
    · cases running with
      | failed error => exact absurd rfl (hrunning error)
      | notFound | found => cases hread
    · intro hok
      cases hok
    · rfl
    · exact fun _ _ => ⟨rfl, rfl⟩
    · intro hok
      cases hok
  | ok live =>
    by_cases hdead : dead live t = []
    · have hsweep (updateError : Option String) :
          sweepDetachedNICs running updateError vm existing = ⟨.ok (), existing, none⟩ :=
        sweep_of_dead_eq_nil htemplate hread hdead
      refine ⟨fun _ _ => ?_, fun _ => ?_, ?_, ?_, fun _ updateError' => ?_⟩ <;> rw [hsweep]
      · have hgone := onlyDeadGone_withoutDead live hinterfaces
        rw [withoutDead_of_dead_eq_nil hdead] at hgone
        exact ⟨live, t, hread, hgone, hself⟩
      · rfl
      · intro _ hok
        cases hok
      · exact hsweep updateError'
    · cases updateError with
      | some error =>
        have hsweep : ∃ text, sweepDetachedNICs running (some error) vm existing =
            ⟨.error text, existing, none⟩ := by
          rw [sweepDetachedNICs, htemplate]
          dsimp only
          rw [hread]
          dsimp only
          rw [if_neg hdead]
          exact ⟨_, rfl⟩
        obtain ⟨text, hsweep⟩ := hsweep
        refine ⟨fun _ hnone => ?_, ?_, ?_, ?_, ?_⟩ <;> rw [hsweep]
        · cases hnone
        · intro hok
          cases hok
        · rfl
        · exact fun _ _ => ⟨rfl, rfl⟩
        · intro hok
          cases hok
      | none =>
        have hsweep : sweepDetachedNICs running none vm existing =
            ⟨.ok (), { existing with template := some (withoutDead live t) },
              some { existing with template := some (withoutDead live t) }⟩ := by
          rw [sweepDetachedNICs, htemplate]
          dsimp only
          rw [hread]
          dsimp only
          rw [if_neg hdead]
        refine ⟨fun _ _ => ?_, fun _ => ?_, ?_, ?_, fun _ updateError' => ?_⟩ <;> rw [hsweep]
        · exact ⟨live, _, hread, onlyDeadGone_withoutDead live hinterfaces, rfl⟩
        · rfl
        · intro _ hok
          cases hok
        · exact sweep_of_dead_eq_nil rfl hread (dead_withoutDead hinterfaces)

/-- A machine whose second NIC is on its way out. -/
def unplugging : Template Unit Unit Unit where
  networks := [⟨"default", ()⟩, ⟨"left", ()⟩, ⟨"going", ()⟩, ⟨"lone", ()⟩]
  interfaces := [⟨"default", "", ()⟩, ⟨"left", "absent", ()⟩, ⟨"going", "absent", ()⟩]
  rest := ()

theorem takesOnlyDead_unplugging :
    TakesOnlyDead (.found ["default", "going"]) none ⟨"lab", "vm"⟩ ⟨"lab", "vm", some unplugging⟩
      unplugging :=
  takesOnlyDead rfl (by decide)

example : (withoutDead ["default", "going"] unplugging).networks.map (·.name) =
    ["default", "going"] := by decide

end Sweep

end Unplug
