import KubevirtUi.Library.Logs
import KubevirtUi.Tenancy.Creation
import Mathlib.Data.Fintype.Basic

/-!
# Calls that create tenants side by side

A clean-up goes by the name of the tenant, whoever has put there what it finds. What it finds is
its own as long as nobody creates a namespace whose name another call has found to be free and
has not finished with.
-/

namespace Tenancy.Creation

open Interference Logs AList Option
open Acl (Rule)

variable {ι : Type} [DecidableEq ι]

abbrev CreateCrowd (ι : Type) := Crowd (World ι) Request Request.Response ι (Except Failure Unit)

/-- A call, and the answer to the client. -/
def session (cfg : Config) (req : TenantRequest) (vip : String) :
    Program Request Request.Response (Except Failure Unit) := do
  let result ← (createTenant cfg req vip).run
  let _ ← Program.ask .answer
  return result

/-- A call has found its name to be free, and has not finished. -/
def Open (i : ι) (w : World ι) : Prop := .checked i ∈ w.log ∧ .answered i ∉ w.log

instance (i : ι) (w : World ι) : Decidable (Open i w) :=
  inferInstanceAs (Decidable (_ ∧ _))

/-- The namespace that a request creates. -/
def Request.creating : Request → Option String
  | .createNamespace ns => some ns
  | _ => none

/-- The namespace that a request looks for. -/
def Request.reading : Request → Option String
  | .readNamespace ns => some ns
  | _ => none

/-- A request is made where no harm will come of it: a namespace is created where no other call
has its name open, and a name with a VPC is found to be free where it has no ports. -/
def Fit (jobs : ι → TenantRequest) (i : ι) (w : World ι) (r : Request) : Prop :=
  (∀ ns ∈ r.creating, w.namespaces.lookup ns = none →
    ∀ j, j ≠ i → tenantNs (jobs j).name = ns → ¬ Open j w) ∧
  ∀ ns ∈ r.reading, w.namespaces.lookup ns = none →
    (jobs i).vpc.isSome = true → (jobs i).name ∉ w.ports

instance [Fintype ι] (jobs : ι → TenantRequest) (i : ι) (w : World ι) (r : Request) :
    Decidable (Fit jobs i w r) :=
  inferInstanceAs (Decidable ((∀ ns ∈ r.creating, w.namespaces.lookup ns = none →
    ∀ j, j ≠ i → tenantNs (jobs j).name = ns → ¬ Open j w) ∧
      ∀ ns ∈ r.reading, w.namespaces.lookup ns = none →
        (jobs i).vpc.isSome = true → (jobs i).name ∉ w.ports))

/-- The condition on a turn of the crowd. -/
def Alone (jobs : ι → TenantRequest) (s : CreateCrowd ι) : Turn String Fault ι → Prop
  | .act _ => True
  | .call i _ => ∀ r ∈ (s.rest i).request?, Fit jobs i s.world r

instance [Fintype ι] (jobs : ι → TenantRequest) (s : CreateCrowd ι) : DecidablePred (Alone jobs s)
  | .act _ => .isTrue trivial
  | .call i _ => inferInstanceAs (Decidable (∀ r ∈ (s.rest i).request?, Fit jobs i s.world r))

/-- A call that fails destroys nothing of another's. -/
structure Spared (before w : World ι) : Prop where
  own : ∀ i ns, .deleted i ns ∈ w.log → .created i ns ∈ w.log
  ports : ∀ i tenant, .released i tenant ∈ w.log → .allocated i tenant ∈ w.log
  /-- An entry of a Subnet is removed only where nobody else's namespace stands. -/
  members : ∀ i subnet ns taken, .detached i subnet ns taken ∈ w.log → taken = false
  /-- What stood before still stands. -/
  standing : ∀ ns n, before.namespaces.lookup ns = some n → n.terminating = false →
    w.namespaces.lookup ns = some n
  /-- So does what a call has created and not deleted itself. -/
  created : ∀ i ns, .created i ns ∈ w.log → .deleted i ns ∉ w.log →
    w.namespaces.lookup ns = some ⟨some i, false⟩

/-- Nobody has come yet. -/
structure Fresh (cfg : Config) (jobs : ι → TenantRequest) (vips : ι → String)
    (s : CreateCrowd ι) : Prop where
  log : s.world.log = []
  creators : ∀ ns n, s.world.namespaces.lookup ns = some n → n.creator = none
  rest : ∀ i, s.rest i = session cfg (jobs i) (vips i)

structure Sound (jobs : ι → TenantRequest) (before w : World ι) : Prop where
  own : ∀ i ns, .deleted i ns ∈ w.log → .created i ns ∈ w.log
  released : ∀ i tenant, .released i tenant ∉ w.log
  members : ∀ i subnet ns taken, .detached i subnet ns taken ∈ w.log → taken = false
  standing : ∀ ns n, before.namespaces.lookup ns = some n → n.terminating = false →
    w.namespaces.lookup ns = some n
  created : ∀ i ns, .created i ns ∈ w.log → .deleted i ns ∉ w.log →
    w.namespaces.lookup ns = some ⟨some i, false⟩
  creators : ∀ ns n i, w.namespaces.lookup ns = some n → n.creator = some i →
    .created i ns ∈ w.log
  /-- Where a call has its name open, nobody else's namespace stands. -/
  free : ∀ i, Open i w → w.Taken i (tenantNs (jobs i).name) = false
  clear : ∀ i, Open i w → (jobs i).vpc.isSome = true → (jobs i).name ∉ w.ports

/-- The requests that a call makes, and when. -/
def Proper (jobs : ι → TenantRequest) (i : ι) (w : World ι) : Request → Prop
  | .readNamespace ns => ns = tenantNs (jobs i).name
  | .createNamespace ns | .deleteNamespace ns | .removeNamespace _ ns _ =>
    ns = tenantNs (jobs i).name ∧ Open i w
  | .releasePorts tenant => tenant = (jobs i).name ∧ (jobs i).vpc.isSome = true ∧ Open i w
  | .allocatePorts .. => False
  | _ => True

variable {j : ι} {r : Request} {α : Type} {p : Call α} {R : World ι → Prop}

variable {jobs : ι → TenantRequest} {before w : World ι} {i : ι}
  {buildTransitDeny : String → List String → Option Rule}

section Steps

variable {v : World ι} {ns : String} {n : Namespace ι} {e : Event ι}

omit [DecidableEq ι] in
theorem mem_note {e' : Event ι} : e' ∈ (w.note e).log ↔ e' ∈ w.log ∨ e' = e := by
  simp [World.note]

omit [DecidableEq ι] in
theorem mem_note_of_mem {e' : Event ι} (h : e' ∈ w.log) : e' ∈ (w.note e).log :=
  mem_note.mpr (.inl h)

omit [DecidableEq ι] in
theorem mem_of_mem_note {e' : Event ι} (h : e' ∈ (w.note e).log) (hne : e' ≠ e) : e' ∈ w.log :=
  (mem_note.mp h).resolve_right hne

omit [DecidableEq ι] in
theorem Open.of_note (h : Open j (w.note e)) (he : e ≠ .checked j) : Open j w :=
  ⟨mem_of_mem_note h.1 he.symm, fun hin => h.2 (mem_note_of_mem hin)⟩

theorem Sound.of_same (h : Sound jobs before w) (hnamespaces : v.namespaces = w.namespaces)
    (hports : v.ports = w.ports) (hlog : v.log = w.log) : Sound jobs before v := by
  have hopen {i : ι} (ho : Open i v) : Open i w := by rwa [Open, hlog] at ho
  refine ⟨?_, ?_, ?_, ?_, ?_, ?_, fun i ho => ?_, fun i ho => ?_⟩
  · rw [hlog]
    exact h.own
  · rw [hlog]
    exact h.released
  · rw [hlog]
    exact h.members
  · rw [hnamespaces]
    exact h.standing
  · rw [hlog, hnamespaces]
    exact h.created
  · rw [hlog, hnamespaces]
    exact h.creators
  · rw [World.Taken, hnamespaces]
    exact h.free i (hopen ho)
  · rw [hports]
    exact h.clear i (hopen ho)

theorem Sound.note (h : Sound jobs before w) (hcreated : ∀ i ns, e ≠ .created i ns)
    (hdeleted : ∀ i ns, e ≠ .deleted i ns) (hreleased : ∀ i t, e ≠ .released i t)
    (hdetached : ∀ i subnet ns taken, e = .detached i subnet ns taken → taken = false)
    (hchecked : ∀ i, e = .checked i → w.Taken i (tenantNs (jobs i).name) = false ∧
      ((jobs i).vpc.isSome = true → (jobs i).name ∉ w.ports)) : Sound jobs before (w.note e) := by
  have hopen {i : ι} (ho : Open i (w.note e)) : e = .checked i ∨ Open i w := by
    by_cases he : e = .checked i
    · exact .inl he
    · exact .inr (ho.of_note he)
  refine ⟨fun i ns hin => ?_, fun i t hin => ?_, fun i subnet ns taken hin => ?_, h.standing,
    fun i ns hin hout => ?_, fun ns n i hlookup hcreator => ?_, fun i ho => ?_, fun i ho => ?_⟩
  · exact mem_note_of_mem (h.own i ns (mem_of_mem_note hin (hdeleted i ns).symm))
  · exact h.released i t (mem_of_mem_note hin (hreleased i t).symm)
  · obtain hin | heq := mem_note.mp hin
    · exact h.members i subnet ns taken hin
    · exact hdetached i subnet ns taken heq.symm
  · exact h.created i ns (mem_of_mem_note hin (hcreated i ns).symm) fun hdel =>
      hout (mem_note_of_mem hdel)
  · exact mem_note_of_mem (h.creators ns n i hlookup hcreator)
  · obtain he | ho := hopen ho
    · exact (hchecked i he).1
    · exact h.free i ho
  · obtain he | ho := hopen ho
    · exact (hchecked i he).2
    · exact h.clear i ho

theorem taken_setNamespace {other : String} : (w.setNamespace ns n).Taken j other =
      if other = ns then !n.terminating && decide (n.creator ≠ some j) else w.Taken j other := by
  by_cases hother : other = ns
  · subst hother
    simp only [World.Taken, World.setNamespace, lookup_insert, any_some, if_true]
  · simp only [World.Taken, World.setNamespace, lookup_insert_ne hother, if_neg hother]

theorem Sound.create (h : Sound jobs before w) (hnone : w.namespaces.lookup ns = none)
    (halone : ∀ j, j ≠ i → tenantNs (jobs j).name = ns → ¬ Open j w) :
    Sound jobs before ((w.setNamespace ns ⟨some i, false⟩).note (.created i ns)) := by
  have hkeep {other : String} {m : Namespace ι} (hm : w.namespaces.lookup other = some m) :
      (w.setNamespace ns ⟨some i, false⟩).namespaces.lookup other = some m := by
    have hne : other ≠ ns := by
      rintro rfl
      rw [hnone] at hm
      contradiction
    rw [World.setNamespace, lookup_insert_ne hne, hm]
  have hopen {j : ι} (ho : Open j ((w.setNamespace ns ⟨some i, false⟩).note (.created i ns))) :
      Open j w := ho.of_note nofun
  refine ⟨fun j other hin => ?_, fun j t hin => ?_, fun j subnet other taken hin => ?_,
    fun other m hm hstands => ?_, fun j other hin hout => ?_, fun other m j hlookup hcreator => ?_,
    fun j ho => ?_, fun j ho => h.clear j (hopen ho)⟩
  · exact mem_note_of_mem (h.own j other (mem_of_mem_note hin nofun))
  · exact h.released j t (mem_of_mem_note hin nofun)
  · exact h.members j subnet other taken (mem_of_mem_note hin nofun)
  · exact hkeep (h.standing other m hm hstands)
  · obtain hin | heq := mem_note.mp hin
    · exact hkeep (h.created j other hin fun hdel => hout (mem_note_of_mem hdel))
    · cases heq
      exact lookup_insert _
  · by_cases hother : other = ns
    · subst hother
      change (w.setNamespace other _).namespaces.lookup other = some m at hlookup
      rw [World.setNamespace, lookup_insert] at hlookup
      obtain rfl := some.inj hlookup
      obtain rfl := some.inj hcreator
      exact mem_note.mpr (.inr rfl)
    · change (w.setNamespace ns _).namespaces.lookup other = some m at hlookup
      rw [World.setNamespace, lookup_insert_ne hother] at hlookup
      exact mem_note_of_mem (h.creators other m j hlookup hcreator)
  · have hfree := h.free j (hopen ho)
    change (w.setNamespace ns _).Taken j _ = false
    rw [taken_setNamespace]
    split
    · next heq =>
      by_cases hji : j = i
      · simp [hji]
      · exact absurd (hopen ho) (halone j hji heq)
    · exact hfree

/-- A namespace is deleted by the call that has its name open, which has created it. -/
theorem Sound.delete {creator : Option ι} (h : Sound jobs before w)
    (hns : ns = tenantNs (jobs i).name) (hopen : Open i w)
    (hlookup : w.namespaces.lookup ns = some ⟨creator, false⟩)
    (hcreators : ∀ ns n, before.namespaces.lookup ns = some n → n.creator = none) :
    Sound jobs before ((w.setNamespace ns ⟨creator, true⟩).note (.deleted i ns)) := by
  have hmine : creator = some i := by
    have hfree := h.free i hopen
    rw [← hns, World.Taken, hlookup] at hfree
    simpa using hfree
  have hcreated := h.creators ns _ i hlookup hmine
  have hopens {j : ι} (ho : Open j ((w.setNamespace ns ⟨creator, true⟩).note (.deleted i ns))) :
      Open j w := ho.of_note nofun
  have hkeep {other : String} {m : Namespace ι} (hne : other ≠ ns) :
      (w.setNamespace ns ⟨creator, true⟩).namespaces.lookup other = some m ↔
        w.namespaces.lookup other = some m := by
    rw [World.setNamespace, lookup_insert_ne hne]
  refine ⟨fun j other hin => ?_, fun j t hin => ?_, fun j subnet other taken hin => ?_,
    fun other m hm hstands => ?_, fun j other hin hout => ?_, fun other m j hfound hcreator => ?_,
    fun j ho => ?_, fun j ho => h.clear j (hopens ho)⟩
  · obtain hin | heq := mem_note.mp hin
    · exact mem_note_of_mem (h.own j other hin)
    · cases heq
      exact mem_note_of_mem hcreated
  · exact h.released j t (mem_of_mem_note hin nofun)
  · exact h.members j subnet other taken (mem_of_mem_note hin nofun)
  · have hfound := h.standing other m hm hstands
    have hne : other ≠ ns := by
      rintro rfl
      rw [hlookup] at hfound
      have hnobody := hcreators other m hm
      rw [← some.inj hfound, hmine] at hnobody
      contradiction
    exact (hkeep hne).mpr hfound
  · have hfound := h.created j other (mem_of_mem_note hin nofun) fun hdel =>
      hout (mem_note_of_mem hdel)
    have hne : other ≠ ns := by
      rintro rfl
      rw [hlookup, hmine, some.injEq, Namespace.mk.injEq, some.injEq] at hfound
      exact hout (mem_note.mpr (.inr (by rw [hfound.1])))
    exact (hkeep hne).mpr hfound
  · by_cases hother : other = ns
    · subst hother
      change (w.setNamespace other _).namespaces.lookup other = some m at hfound
      rw [World.setNamespace, lookup_insert] at hfound
      obtain rfl := some.inj hfound
      exact mem_note_of_mem (h.creators other _ j hlookup hcreator)
    · exact mem_note_of_mem (h.creators other m j ((hkeep hother).mp hfound) hcreator)
  · change (w.setNamespace ns _).Taken j _ = false
    rw [taken_setNamespace]
    split
    · rfl
    · exact h.free j (hopens ho)

theorem Sound.finalize (h : Sound jobs before w) (ns : String) :
    Sound jobs before (finalize ns w) := by
  unfold Creation.finalize
  split
  · next creator hlookup =>
    have hgone {other : String} {m : Namespace ι} (hm : w.namespaces.lookup other = some m)
        (hstands : m.terminating = false) :
        (w.namespaces.erase ns).lookup other = some m := by
      have hne : other ≠ ns := by
        rintro rfl
        rw [hlookup] at hm
        obtain rfl := some.inj hm
        contradiction
      rw [lookup_erase_ne hne, hm]
    have hold {other : String} {m : Namespace ι}
        (hm : (w.namespaces.erase ns).lookup other = some m) :
        w.namespaces.lookup other = some m := by
      have hne : other ≠ ns := by
        rintro rfl
        rw [lookup_erase] at hm
        contradiction
      rwa [lookup_erase_ne hne] at hm
    refine ⟨h.own, h.released, h.members, fun other m hm hstands => ?_, fun j other hin hout => ?_,
      fun other m j hfound hcreator => ?_, fun j ho => ?_, fun j ho => h.clear j ho⟩
    · exact hgone (h.standing other m hm hstands) hstands
    · exact hgone (h.created j other hin hout) rfl
    · exact h.creators other m j (hold hfound) hcreator
    · have hfree := h.free j ho
      by_cases hother : tenantNs (jobs j).name = ns
      · rw [World.Taken, hother, lookup_erase]
        rfl
      · rw [World.Taken] at hfree ⊢
        rwa [lookup_erase_ne hother]
  · exact h

end Steps

section Serve

theorem Sound.serve (h : Sound jobs before w) (fault : Fault) (hproper : Proper jobs i w r)
    (hfit : Fit jobs i w r)
    (hcreators : ∀ ns n, before.namespaces.lookup ns = some n → n.creator = none) :
    Sound jobs before (serve buildTransitDeny i fault w r).2 := by
  unfold Creation.serve
  split
  · exact h
  cases r with
  | allocatePorts pool tenant => exact hproper.elim
  | step s => exact h
  | listSubnets => exact h
  | existingSnat vpc subnet skip transit => exact h
  | readEip name => exact h
  | listEips => exact h
  | deleteEip name => exact h.of_same rfl rfl rfl
  | deleteSnatRule name => exact h.of_same rfl rfl rfl
  | answer => exact h.note nofun nofun nofun nofun nofun
  | readNamespace ns =>
    obtain rfl := hproper
    simp only [commit]
    split
    · next hnone =>
      refine h.note nofun nofun nofun nofun fun j hj => ?_
      obtain rfl := Event.checked.inj hj
      refine ⟨?_, hfit.2 _ rfl hnone⟩
      rw [World.Taken, hnone]
      rfl
    · exact h
  | createNamespace ns =>
    simp only [commit]
    split
    · next hnone => exact h.create hnone (hfit.1 ns rfl hnone)
    · exact h
  | deleteNamespace ns =>
    simp only [commit]
    split
    · exact h
    · exact h
    · next creator hlookup => exact h.delete hproper.1 hproper.2 hlookup hcreators
  | readSubnet name =>
    simp only [commit]
    split <;> exact h
  | removeNamespace name ns index =>
    obtain ⟨rfl, hopen⟩ := hproper
    simp only [commit]
    split
    · exact h
    · split
      · have hset (subnet : Subnet) : Sound jobs before (w.setSubnet name subnet) :=
          h.of_same rfl rfl rfl
        refine (hset _).note nofun nofun nofun (fun j other ns taken hj => ?_) nofun
        rw [← (Event.detached.inj hj).2.2.2]
        exact h.free i hopen
      · exact h
  | releasePorts tenant =>
    obtain ⟨rfl, hvpc, hopen⟩ := hproper
    simp only [commit, if_neg (h.clear i hopen hvpc)]
    exact h
  | createClusterRoleBinding name =>
    simp only [commit]
    split
    · exact h
    · exact h.of_same rfl rfl rfl
  | deleteClusterRoleBinding name =>
    simp only [commit]
    split
    · exact h.of_same rfl rfl rfl
    · exact h
  | createEip name subnet =>
    simp only [commit]
    split
    · exact h
    · exact h.of_same rfl rfl rfl
  | createSnatRule name eip =>
    simp only [commit]
    split
    · exact h
    · exact h.of_same rfl rfl rfl
  | ensureAcls name live wanted =>
    simp only [commit]
    split
    · exact h
    · split
      · exact h
      · exact h.of_same rfl rfl rfl
  | dropAcls name address =>
    simp only [commit]
    split
    · exact h
    · exact h.of_same rfl rfl rfl

theorem serve_log (buildTransitDeny : String → List String → Option Rule) (i : ι) (fault : Fault)
    (w : World ι) (r : Request) : (serve buildTransitDeny i fault w r).2.log = w.log ∨
      ∃ e, (serve buildTransitDeny i fault w r).2.log = w.log ++ [e] ∧ e.client = i ∧
        (e = .answered i → r = .answer) := by
  unfold Creation.serve
  split
  · exact .inl rfl
  cases r with
  | answer => exact .inr ⟨_, rfl, rfl, fun _ => rfl⟩
  | step s => exact .inl rfl
  | listSubnets => exact .inl rfl
  | existingSnat vpc subnet skip transit => exact .inl rfl
  | readEip name => exact .inl rfl
  | listEips => exact .inl rfl
  | deleteEip name => exact .inl rfl
  | deleteSnatRule name => exact .inl rfl
  | readNamespace ns =>
    simp only [commit]
    split
    · exact .inr ⟨_, rfl, rfl, nofun⟩
    · exact .inl rfl
  | createNamespace ns =>
    simp only [commit]
    split
    · exact .inr ⟨_, rfl, rfl, nofun⟩
    · exact .inl rfl
  | deleteNamespace ns =>
    simp only [commit]
    split
    · exact .inl rfl
    · exact .inl rfl
    · exact .inr ⟨_, rfl, rfl, nofun⟩
  | readSubnet name =>
    simp only [commit]
    split <;> exact .inl rfl
  | removeNamespace name ns index =>
    simp only [commit]
    split
    · exact .inl rfl
    · split
      · exact .inr ⟨_, rfl, rfl, nofun⟩
      · exact .inl rfl
  | allocatePorts pool tenant =>
    simp only [commit]
    split
    · exact .inl rfl
    · split
      · exact .inl rfl
      · exact .inr ⟨_, rfl, rfl, nofun⟩
  | releasePorts tenant =>
    simp only [commit]
    split
    · exact .inr ⟨_, rfl, rfl, nofun⟩
    · exact .inl rfl
  | createClusterRoleBinding name =>
    simp only [commit]
    split <;> exact .inl rfl
  | deleteClusterRoleBinding name =>
    simp only [commit]
    split <;> exact .inl rfl
  | createEip name subnet =>
    simp only [commit]
    split <;> exact .inl rfl
  | createSnatRule name eip =>
    simp only [commit]
    split <;> exact .inl rfl
  | ensureAcls name live wanted =>
    simp only [commit]
    split
    · exact .inl rfl
    · split <;> exact .inl rfl
  | dropAcls name address =>
    simp only [commit]
    split <;> exact .inl rfl

end Serve

section Calls

variable {cfg : Config} {vip : String}

omit [DecidableEq ι] in
def Event.owner (e : Event ι) : Option ι := some e.client

/-- The others only add to the log what they do. -/
def Adds (i : ι) (w v : World ι) : Prop := Extends Event.owner i w.log v.log

def Unanswered (i : ι) (w : World ι) : Prop := .answered i ∉ w.log

/-- The requests of a call once its name is open. -/
def Within (req : TenantRequest) : Request → Prop
  | .createNamespace ns | .deleteNamespace ns | .removeNamespace _ ns _ => ns = tenantNs req.name
  | .releasePorts tenant => tenant = req.name ∧ req.vpc.isSome = true
  | .readNamespace _ | .allocatePorts .. | .answer => False
  | _ => True

omit [DecidableEq ι] in
theorem lasts_unanswered : Lasts (fun _ => True) (Adds i) (Unanswered i) :=
  fun _ _ _ _ hadds h hin => h ((hadds.mem_iff rfl).mp hin)

omit [DecidableEq ι] in
theorem lasts_open : Lasts (fun _ => True) (Adds i) (Open i) :=
  fun _ _ _ _ hadds h => ⟨hadds.mem h.1, fun hin => h.2 ((hadds.mem_iff rfl).mp hin)⟩

theorem serve_mem {e : Event ι} (fault : Fault) (r : Request) (h : e ∈ w.log) :
    e ∈ (serve buildTransitDeny i fault w r).2.log := by
  obtain hlog | ⟨e', hlog, -⟩ := serve_log buildTransitDeny i fault w r
  · rwa [hlog]
  · rw [hlog]
    exact List.mem_append_left _ h

theorem serve_unanswered (fault : Fault) (hr : r ≠ .answer) (h : Unanswered i w) :
    Unanswered i (serve buildTransitDeny i fault w r).2 := by
  obtain hlog | ⟨e, hlog, -, he⟩ :=
    serve_log buildTransitDeny i fault w r
  · rwa [Unanswered, hlog]
  · rw [Unanswered, hlog]
    intro hin
    obtain hin | hin := List.mem_append.mp hin
    · exact h hin
    · exact hr (he (List.mem_singleton.mp hin).symm)

/-- What a call achieves, if all its requests are proper. -/
abbrev Behaves {α : Type} (buildTransitDeny : String → List String → Option Rule)
    (jobs : ι → TenantRequest) (i : ι) (P : World ι → Prop) (p : Call α) (Q : α → World ι → Prop) :
    Prop :=
  Attempts (serve buildTransitDeny i) (fun _ => True) (Adds i)
      (fun w r _ => Proper jobs i w r) P p Q
    fun _ _ => True

theorem behaves_bind {β : Type} {f : α → Call β} {P : World ι → Prop} {Q : α → World ι → Prop}
    {R : β → World ι → Prop} (hp : Behaves buildTransitDeny jobs i P p Q)
    (hf : ∀ a, Behaves buildTransitDeny jobs i (Q a) (f a) R) :
    Behaves buildTransitDeny jobs i P (p >>= f) R :=
  Attempts.bind (fun _ _ _ _ => trivial) (fun _ => lasts_const True) hp hf

theorem behaves_step (hR : Lasts (fun _ => True) (Adds i) R) (s : Step) :
    Behaves buildTransitDeny jobs i R (step s) fun _ => R := by
  refine .ask (fun _ _ _ _ => trivial) hR (fun _ => hR) (fun _ => lasts_const True)
    fun w fault _ hw => ⟨trivial, ?_⟩
  unfold serve
  split
  · exact trivial
  · exact hw

theorem behaves_onlyIf_throw {c : Prop} [Decidable c] {e : Failure}
    (hR : Lasts (fun _ => True) (Adds i) R) :
    Behaves buildTransitDeny jobs i R (onlyIf c (throw e)) fun _ w => ¬ c ∧ R w := by
  unfold onlyIf
  split
  · exact .throw hR fun _ _ => trivial
  · next hc => exact .pure hR fun _ hw => ⟨hc, hw⟩

theorem namespaceExists_finds : Behaves buildTransitDeny jobs i (Unanswered i)
    (namespaceExists (tenantNs (jobs i).name))
    fun standing w => Unanswered i w ∧ (standing = false → .checked i ∈ w.log) := by
  have hlasts (c : Prop) : Lasts (fun _ => True) (Adds i) fun w =>
      Unanswered i w ∧ (c → .checked i ∈ w.log) := by
    intro w v hw hv hadds h
    exact ⟨lasts_unanswered w v hw hv hadds h.1, fun hc => hadds.mem (h.2 hc)⟩
  have hread : Attempts (serve buildTransitDeny i) (fun _ => True) (Adds i)
      (fun w r _ => Proper jobs i w r) (Unanswered i)
      (ask (.readNamespace (tenantNs (jobs i).name)))
      (fun _ => Unanswered i)
      fun e w => Unanswered i w ∧ (e = .api 404 → .checked i ∈ w.log) := by
    refine .ask (fun _ _ _ _ => trivial) lasts_unanswered (fun _ => lasts_unanswered)
      (fun e => hlasts (e = .api 404)) fun w fault _ hw => ⟨rfl, ?_⟩
    have hkept : Unanswered i (serve buildTransitDeny i fault w
        (.readNamespace (tenantNs (jobs i).name))).2 := serve_unanswered fault nofun hw
    revert hkept
    unfold serve
    split
    · next e he =>
      refine fun hkept => ⟨hkept, fun heq => ?_⟩
      -- a namespace that is there is not reported as missing
      rw [refusal, filter_eq_some_iff, heq] at he
      exact absurd he.2 (by decide)
    · cases hlookup : w.namespaces.lookup (tenantNs (jobs i).name) with
      | none =>
        simp only [commit, hlookup]
        exact fun hkept => ⟨hkept, fun _ => List.mem_append_right _ (List.mem_singleton_self _)⟩
      | some n =>
        simp only [commit, hlookup]
        exact fun hkept => hkept
  refine .tryCatch (fun _ _ _ _ => trivial) (fun standing => hlasts (standing = false))
    (Attempts.bind (fun _ _ _ _ => trivial) (fun e => hlasts (e = .api 404)) hread fun _ =>
      Attempts.pure lasts_unanswered fun w hw => ⟨hw, nofun⟩) fun e => ?_
  split
  · next heq => exact .pure (hlasts _) fun w hw => ⟨hw.1, fun _ => hw.2 heq⟩
  · exact .throw (hlasts _) fun _ _ => trivial

theorem validateTenant_opens : Behaves buildTransitDeny jobs i (Unanswered i)
    (validateTenant (jobs i)) fun _ w => (jobs i).workerOs = .talos ∧ Open i w := by
  have htalos {P : World ι → Prop} (h : Lasts (fun _ => True) (Adds i) P) :
      Lasts (fun _ => True) (Adds i) fun w => ¬ (jobs i).workerOs ≠ .talos ∧ P w :=
    (lasts_const _).and h
  have hfound (standing : Bool) : Lasts (fun _ => True) (Adds i) fun w =>
      ¬ (jobs i).workerOs ≠ .talos ∧ Unanswered i w ∧ (standing = false → .checked i ∈ w.log) := by
    intro w v hw hv hadds h
    exact ⟨h.1, lasts_unanswered w v hw hv hadds h.2.1, fun hs => hadds.mem (h.2.2 hs)⟩
  refine behaves_bind (behaves_onlyIf_throw lasts_unanswered) fun _ =>
    behaves_bind (behaves_step (htalos lasts_unanswered) _) fun _ =>
      behaves_bind (behaves_step (htalos lasts_unanswered) _) fun _ =>
        behaves_bind (Triple.of_fact fun hos =>
          namespaceExists_finds.gives fun standing w hw => ⟨hos, hw⟩) fun standing =>
            behaves_bind (behaves_onlyIf_throw (hfound standing)) fun _ => ?_
  have hopen : Lasts (fun _ => True) (Adds i) fun w =>
      (jobs i).workerOs = .talos ∧ Open i w := (lasts_const _).and lasts_open
  have hpre (w : World ι) (hw : ¬ standing = true ∧ ¬ (jobs i).workerOs ≠ .talos ∧
      Unanswered i w ∧ (standing = false → .checked i ∈ w.log)) :
      (jobs i).workerOs = .talos ∧ Open i w :=
    ⟨not_not.mp hw.2.1, hw.2.2.2 (Bool.eq_false_iff.mpr hw.1), hw.2.2.1⟩
  have hvpc : Behaves buildTransitDeny jobs i (fun w => (jobs i).workerOs = .talos ∧ Open i w)
      (onlyIf ((jobs i).vpc.isSome = true) (step .vpc))
      fun _ w => (jobs i).workerOs = .talos ∧ Open i w := by
    unfold onlyIf
    split
    · exact behaves_step hopen _
    · exact .pure hopen fun _ hw => hw
  exact hvpc.weaken hpre (fun _ _ hw => hw) fun _ _ hw => hw

theorem behaves_within (hp : Asks (Within (jobs i)) p) :
    Attempts (serve buildTransitDeny i) (fun _ => True) (Adds i) (fun w r _ => Proper jobs i w r)
      (Open i) p (fun _ => Open i) fun _ => Open i := by
  refine Attempts.keeps_where (fun _ _ _ _ => trivial) lasts_open (fun fault w r _ hr hw => ?_) hp
  have hne : r ≠ .answer := by
    rintro rfl
    exact hr
  refine ⟨?_, serve_mem fault r hw.1, serve_unanswered fault hne hw.2⟩
  cases r with
  | createNamespace ns => exact ⟨hr, hw⟩
  | deleteNamespace ns => exact ⟨hr, hw⟩
  | removeNamespace subnet ns index => exact ⟨hr, hw⟩
  | releasePorts tenant => exact ⟨hr.1, hr.2, hw⟩
  | readNamespace ns => exact hr.elim
  | allocatePorts pool tenant => exact hr.elim
  | _ => exact trivial

theorem createTenant_behaves : Behaves buildTransitDeny jobs i (Unanswered i)
    (createTenant cfg (jobs i) vip) fun _ _ => True := by
  refine behaves_bind validateTenant_opens fun _ => Triple.of_fact fun htalos => ?_
  have hbuild : Asks (Within (jobs i)) (buildTenant cfg (jobs i) vip) :=
    asks_buildTenant (fun _ => trivial) htalos rfl (fun _ => trivial) fun _ r hr => by
      cases r <;> first | exact trivial | contradiction
  have hclean : Asks (Within (jobs i)) (cleanUp (jobs i)) :=
    asks_cleanUp trivial (fun _ => trivial) (fun _ _ => rfl) (fun hvpc => ⟨rfl, hvpc⟩) rfl
  refine Attempts.tryCatch (fun _ _ _ _ => trivial) (fun _ => lasts_const True)
    ((behaves_within hbuild).gives fun _ _ _ => trivial)
    fun e => ?_
  split
  · refine behaves_bind (behaves_within hclean).forget fun _ =>
      Attempts.throw lasts_open fun _ _ => trivial
  · exact .throw lasts_open fun _ _ => trivial

theorem session_behaves : Triple (serve buildTransitDeny i) (interfere (fun _ => True) (Adds i))
    (fun _ => True) (fun w r _ => Proper jobs i w r) (Unanswered i) (session cfg (jobs i) vip)
    fun _ _ => True := by
  have hanswer : Triple (serve buildTransitDeny i) (interfere (fun _ => True) (Adds i))
      (fun _ => True) (fun w r _ => Proper jobs i w r) (fun _ => True) (Program.ask .answer)
      fun _ _ => True :=
    Triple.ask (fun c w => c.keeps w) (fun _ _ _ _ => trivial)
      (stable_of_rely (lasts_const True)) (fun _ => stable_of_rely (lasts_const True))
      fun _ _ _ _ => ⟨trivial, trivial⟩
  refine .bind (fun _ _ _ _ => trivial)
    (createTenant_behaves.conseq (fun _ _ hw => hw) fun _ _ _ _ => trivial)
    fun _ => .bind (fun _ _ _ _ => trivial) hanswer fun _ => ?_
  exact .pure (fun c w => c.keeps w) (stable_of_rely (lasts_const True)) fun _ _ _ => trivial

end Calls

section Runs

theorem Sound.spared (h : Sound jobs before w) : Spared before w where
  own := h.own
  ports i tenant hin := absurd hin (h.released i tenant)
  members := h.members
  standing := h.standing
  created := h.created

theorem sound_of_fresh {cfg : Config} {vips : ι → String} {s : CreateCrowd ι}
    (h : Fresh cfg jobs vips s) : Sound jobs s.world s.world := by
  have hnone {e : Event ι} : e ∉ s.world.log := by
    rw [h.log]
    exact List.not_mem_nil
  refine ⟨fun _ _ hin => absurd hin hnone, fun _ _ => hnone, fun _ _ _ _ hin => absurd hin hnone,
    fun _ _ hlookup _ => hlookup, fun _ _ hin => absurd hin hnone,
    fun ns n i hlookup hcreator => ?_,
    fun _ hopen => absurd hopen.1 hnone, fun _ hopen => absurd hopen.1 hnone⟩
  rw [h.creators ns n hlookup] at hcreator
  contradiction

/-- In a run in which nobody creates a namespace whose name another call has open, and names with
a VPC are found to be free only where they have no ports, nothing of another's is destroyed. -/
theorem spared_of_alone (buildTransitDeny : String → List String → Option Acl.Rule) (cfg : Config)
    (jobs : ι → TenantRequest) (vips : ι → String) {s t : CreateCrowd ι}
    (hfresh : Fresh cfg jobs vips s)
    (hrun : Crowd.Run (serve buildTransitDeny) finalize (Alone jobs) s t) :
    Spared s.world t.world := by
  have hlegal : Crowd.Legal (fun _ => True) Adds (fun i w r _ => Proper jobs i w r)
      (fun _ _ _ => True) (serve buildTransitDeny) s := by
    refine ⟨trivial, fun i => ?_⟩
    rw [hfresh.rest i]
    apply session_behaves s.world trivial
    rw [Unanswered, hfresh.log]
    exact List.not_mem_nil
  have hfinalize (ns : String) (w : World ι) : (finalize ns w).log = w.log := by
    unfold finalize
    split <;> rfl
  refine (Crowd.Run.invariant (P := Sound jobs s.world) (fun i w => Extends.refl i w.log)
    (fun _ _ _ _ _ => trivial) (fun u ns _ _ hsound => ⟨trivial, fun i => ?_, hsound.finalize ns⟩)
    (fun u i fault r k hcond hrest _ hsound hproper => ⟨fun j hne => ?_, ?_⟩) hlegal
    (sound_of_fresh hfresh) hrun).2.spared
  · rw [Adds, hfinalize]
    exact Extends.refl i u.world.log
  · obtain hlog | ⟨e, hlog, he, -⟩ :=
      serve_log buildTransitDeny i fault u.world r
    · rw [Adds, hlog]
      exact Extends.refl j u.world.log
    · rw [Adds, hlog]
      apply extends_concat
      intro heq
      exact hne (some.inj heq ▸ he)
  · apply hsound.serve fault hproper _ hfresh.creators
    apply hcond r
    rw [hrest]
    rfl

end Runs

section Example

/-- Two calls for one name, and a third one for another. -/
def regatta : Fin 3 → TenantRequest
  | 0 | 1 => ⟨"blue", none, .talos, .bareMetal, false⟩
  | 2 => ⟨"green", none, .talos, .bareMetal, false⟩

def regattaConfig : Config := ⟨none, true, "", ⟨20000, 60000, []⟩, false⟩

def regattaStart : CreateCrowd (Fin 3) where
  world := ⟨∅, ∅, ∅, [], ∅, ∅, []⟩
  rest i := session regattaConfig (regatta i) ""

/-- The namespace stands, and this call has created it. -/
def standsFor (i : Fin 3) (ns : String) (t : CreateCrowd (Fin 3)) : Bool :=
  t.world.namespaces.lookup ns = some ⟨some i, false⟩

/-- A call that comes when the name is taken leaves it. -/
theorem spared_of_alone_regatta : ∃ t, Spared regattaStart.world t.world ∧
    standsFor 0 "tenant-blue" t = true ∧ standsFor 2 "tenant-green" t = true := by
  have hplay : (Crowd.playWhile (serve fun _ _ => none) finalize (Alone regatta) regattaStart
      [.call 0 {}, .call 0 {}, .call 0 {}, .call 2 {}, .call 2 {}, .call 0 {}, .call 0 {},
        .call 2 {}, .call 2 {}, .call 1 {}, .call 1 {}, .call 2 {}, .call 1 {},
        .call 1 {}]).any
      (fun t => standsFor 0 "tenant-blue" t && standsFor 2 "tenant-green" t) = true := by
    decide +kernel
  obtain ⟨t, hrun, ht⟩ := Crowd.exists_run_of_playWhile _ hplay
  have hfresh : Fresh regattaConfig regatta (fun _ => "") regattaStart :=
    ⟨rfl, nofun, fun _ => rfl⟩
  exact ⟨t, spared_of_alone _ regattaConfig regatta (fun _ => "") hfresh hrun,
    Bool.and_eq_true_iff.mp ht⟩

/-- The call has deleted the namespace without having created it. -/
def hasRobbed (i : Fin 3) (ns : String) (t : CreateCrowd (Fin 3)) : Bool :=
  decide (.deleted i ns ∈ t.world.log) && !decide (.created i ns ∈ t.world.log)

/-- Two calls find the name to be free, one of them creates the namespace, and the other one, which
is refused, deletes it. -/
theorem not_spared_regatta : Fresh regattaConfig regatta (fun _ => "") regattaStart ∧
    ∃ t, Crowd.Run (serve fun _ _ => none) finalize (fun _ _ => True) regattaStart t ∧
      ¬ Spared regattaStart.world t.world := by
  have hplay : (Crowd.playWhile (serve fun _ _ => none) finalize (fun _ _ => True) regattaStart
      [.call 0 {}, .call 0 {}, .call 0 {}, .call 1 {}, .call 1 {}, .call 1 {}, .call 0 {},
        .call 0 {}, .call 1 {}, .call 1 {}, .call 1 {}, .call 1 {}]).any
      (hasRobbed 1 "tenant-blue") = true := by decide +kernel
  obtain ⟨t, hrun, ht⟩ := Crowd.exists_run_of_playWhile _ hplay
  refine ⟨⟨rfl, nofun, fun _ => rfl⟩, t, hrun, fun hspared => ?_⟩
  obtain ⟨hdeleted, hnot⟩ := Bool.and_eq_true_iff.mp ht
  have hcreated := hspared.own 1 "tenant-blue" (of_decide_eq_true hdeleted)
  rw [Bool.not_eq_true', decide_eq_false_iff_not] at hnot
  exact hnot hcreated

end Example

end Tenancy.Creation
