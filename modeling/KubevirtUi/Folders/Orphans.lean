import KubevirtUi.Folders.Forest
import KubevirtUi.Folders.Removal

/-!
# Whether a folder is ever left without its parent

A deletion removes one entry after the other, a cascade a folder before the folders below it,
and what cannot be deleted is skipped. Where nothing is changed between a request's reading and
its writing, what a deletion asks for is answered, and nothing is put under what is on its way out,
every folder is in the tree that is listed, and no environment is left of a folder that has been
deleted. A cascade that stops on the way is enough for the contrary.
-/

namespace Folders.Removal

open Access (Labels)
open Option hiding mem_map
open Interference List AList

variable {ι α : Type}

/-- The folders with this parent, each with all that is below it. -/
def buildTree (folders : Tree) : Nat → Option String → List String
  | 0, _ => []
  | depth + 1, parentId =>
    (folders.nodes.filter fun e => e.2.parentId = parentId).flatMap fun e =>
      e.1 :: buildTree folders depth (some e.1)

variable {c f p : String} {w : World ι} {i : ι}

section Listed

variable {folders : Tree} {n : Nat} {parentId : Option String}

theorem mem_buildTree_succ : f ∈ buildTree folders (n + 1) parentId ↔
    ∃ x info, folders.node x = some info ∧ info.parentId = parentId ∧
      (f = x ∨ f ∈ buildTree folders n (some x)) := by
  simp only [buildTree, mem_flatMap, mem_filter, mem_cons, Prod.exists,
    decide_eq_true_eq, Hierarchy.node_eq_some_iff, and_assoc]

theorem mem_buildTree_of_child (hc : folders.Child Meta.parentId c f)
    (hf : f ∈ buildTree folders n parentId) : c ∈ buildTree folders (n + 1) parentId := by
  induction n generalizing parentId with
  | zero => contradiction
  | succ n ih =>
    obtain ⟨x, info, hx, hparent, rfl | hbelow⟩ := mem_buildTree_succ.mp hf
    · obtain ⟨child, hchild, hup⟩ := hc
      refine mem_buildTree_succ.mpr ⟨f, info, hx, hparent, .inr ?_⟩
      exact mem_buildTree_succ.mpr ⟨c, child, hchild, hup, .inl rfl⟩
    · exact mem_buildTree_succ.mpr ⟨x, info, hx, hparent, .inr (ih hbelow)⟩

/-- Every parent is there. -/
def Housed (folders : Tree) : Prop :=
  ∀ c f, folders.Child Meta.parentId c f → ∃ info, folders.node f = some info

theorem mem_buildTree_of_above (hacyclic : folders.Acyclic Meta.parentId) (hhoused : Housed folders)
    {below : List String} (hnodup : below.Nodup)
    (hbelow : ∀ x ∈ below, x ∈ folders.nodes.map Prod.fst ∧
      Relation.TransGen (folders.Child Meta.parentId) x f)
    (hn : folders.nodes.length ≤ n + below.length) {info : Meta} (hf : folders.node f = some info) :
    f ∈ buildTree folders n none := by
  have hmem : f ∈ folders.nodes.map Prod.fst :=
    mem_map_of_mem (f := Prod.fst) (folders.node_eq_some_iff.mp hf)
  have hnew : f ∉ below := fun h => hacyclic f (hbelow f h).2
  induction n generalizing below f info with
  | zero =>
    have hsub : f :: below ⊆ folders.nodes.map Prod.fst := by
      intro x hx
      obtain rfl | hx := mem_cons.mp hx
      · exact hmem
      · exact (hbelow x hx).1
    have hle := (subperm_of_subset (nodup_cons.mpr ⟨hnew, hnodup⟩) hsub).length_le
    simp only [length_cons, length_map] at hle
    omega
  | succ n ih =>
    cases hup : info.parentId with
    | none => exact mem_buildTree_succ.mpr ⟨f, info, hf, hup, .inl rfl⟩
    | some p =>
      have hchild : folders.Child Meta.parentId f p := ⟨info, hf, hup⟩
      obtain ⟨parent, hparent⟩ := hhoused f p hchild
      have hmore : ∀ x ∈ f :: below, x ∈ folders.nodes.map Prod.fst ∧
          Relation.TransGen (folders.Child Meta.parentId) x p := by
        intro x hx
        obtain rfl | hx := mem_cons.mp hx
        · exact ⟨hmem, .single hchild⟩
        · exact ⟨(hbelow x hx).1, (hbelow x hx).2.tail hchild⟩
      refine mem_buildTree_of_child hchild (ih (nodup_cons.mpr ⟨hnew, hnodup⟩) hmore
        (by rw [length_cons]; omega) hparent ?_ fun h => hacyclic p (hmore p h).2)
      exact mem_map_of_mem (f := Prod.fst) (folders.node_eq_some_iff.mp hparent)

theorem mem_buildTree (hacyclic : folders.Acyclic Meta.parentId) (hhoused : Housed folders)
    {info : Meta} (hf : folders.node f = some info) :
    f ∈ buildTree folders folders.nodes.length none :=
  mem_buildTree_of_above hacyclic hhoused nodup_nil (by simp) (by simp) hf

end Listed

section Data

variable {data : Data} {x : String} {info : Option Meta}

/-- Every parent that is stored is the name of a folder that is stored. -/
def Sheltered (data : Data) : Prop := ∀ c p, data.Child c p → p ∈ data

theorem housed_of_sheltered (h : Sheltered data) : Housed (parseAllFolders data) := by
  intro c f hc
  obtain ⟨raw, hraw⟩ := isSome_iff_exists.mp (lookup_isSome.mpr (h c f hc))
  exact ⟨raw.getD {}, by rw [node_parseAllFolders, hraw]; rfl⟩

theorem sheltered_of_nodes (h : ∀ e ∈ (parseAllFolders data).nodes, ∀ p ∈ e.2.parentId, p ∈ data) :
    Sheltered data := by
  intro c p hc
  obtain ⟨info, hnode, hp⟩ := hc
  exact h (c, info) ((parseAllFolders data).node_eq_some_iff.mp hnode) p hp

theorem sheltered_insert (h : Sheltered data) (hup : ∀ p ∈ (info.getD {}).parentId, p ∈ data) :
    Sheltered (data.insert x info) := by
  intro c p hc
  refine (mem_insert _).mpr (.inr ?_)
  by_cases hcx : c = x
  · subst hcx
    exact hup p (child_insert_self.mp hc)
  · exact h c p ((child_insert_of_ne hcx).mp hc)

theorem child_of_child_erase (h : Data.Child (data.erase x) c p) : c ≠ x ∧ data.Child c p := by
  obtain ⟨raw, hraw, hparent⟩ := child_iff.mp h
  have hne : c ≠ x := by
    rintro rfl
    simp at hraw
  rw [lookup_erase_ne hne] at hraw
  exact ⟨hne, child_iff.mpr ⟨raw, hraw, hparent⟩⟩

end Data

/-- The folders that are stored. -/
def World.data (w : World ι) : Data := w.folders.data

variable {answer : Nat} {P : World ι → Prop} {v : World ι} {r : Request} {fault : Fault}
  {t : Crowd (World ι) Request Request.Response ι (Except Failure Unit)}

section Steps

/-- No folder comes or goes, and no environment comes. -/
def Calm (w v : World ι) : Prop := v.data = w.data ∧ ∀ f, v.environments f ⊆ w.environments f

theorem mem_environments {name : String} {labels : Labels} : (name, labels) ∈ w.environments f ↔
    w.namespaces.lookup name = some labels ∧ labels.folder = some f ∧
      labels.managed = some "true" := by
  simp only [World.environments, mem_map, mem_filter, decide_eq_true_eq, Prod.mk.injEq,
    Sigma.exists, ← mem_def, mem_lookup_iff]
  constructor
  · rintro ⟨_, _, ⟨hmem, h⟩, rfl, rfl⟩
    exact ⟨hmem, h⟩
  · rintro ⟨hmem, h⟩
    exact ⟨name, labels, ⟨hmem, h⟩, rfl, rfl⟩

theorem Calm.refl (w : World ι) : Calm w w := ⟨rfl, fun _ => List.Subset.refl _⟩

theorem Calm.nil (h : Calm w v) (hf : w.environments f = []) : v.environments f = [] :=
  subset_nil.mp (hf ▸ h.2 f)

theorem calm_torn (w : World ι) (name : String) :
    Calm w { w with namespaces := w.namespaces.erase name } := by
  refine ⟨rfl, fun f e he => ?_⟩
  obtain ⟨hlookup, h⟩ := mem_environments.mp he
  have hne : e.1 ≠ name := by
    intro hname
    rw [hname, lookup_erase] at hlookup
    contradiction
  exact mem_environments.mpr ⟨(lookup_erase_ne hne) ▸ hlookup, h⟩

theorem data_created (h : w.folders.configMap = none) : w.data = ∅ := by
  rw [World.data, Folders.World.data, h]
  rfl

theorem data_of_some {cm : Versioned Data} (h : w.folders.configMap = some cm) :
    w.data = cm.value := data_of_configMap h

theorem data_patch (cm : Versioned Data) (clock : Nat) (name : String) (info : Meta) :
    (Versioned.patch cm clock name info).value = cm.value ∧ name ∈ cm.value ∨
      (Versioned.patch cm clock name info).value = cm.value.insert name (some info) := by
  rw [Versioned.patch]
  split
  · next h => exact .inl ⟨rfl, lookup_isSome.mp (by rw [h]; rfl)⟩
  · exact .inr rfl

end Steps

variable [DecidableEq ι]

section Knowledge

/-- What the client reads. -/
def readBy (i : ι) : Deed ι → Option Data
  | .read j data => if j = i then some data else none
  | .wrote _ => none

/-- Nobody else has changed anything since the client has first read. -/
def Quiet (i : ι) (w : World ι) : Prop :=
  ∀ seen ∈ Logs.since (readBy i) w.log, ∀ e ∈ seen.2, e.isWrite = true → e.client = i

/-- The client has read, and if all has been quiet since, this is so. -/
def Since (i : ι) (S : World ι → Prop) (w : World ι) : Prop :=
  Logs.since (readBy i) w.log ≠ none ∧ (Quiet i w → S w)

/-- No deletion of the client is partway. -/
def NotMine (i : ι) (w : World ι) : Prop := ∀ left, w.half ≠ some (i, left)

/-- The client has read nothing yet, and removed nothing. -/
def Fresh (i : ι) (w : World ι) : Prop := Logs.since (readBy i) w.log = none ∧ NotMine i w

/-- The client has read, and removed nothing. -/
def Held (i : ι) (S : World ι → Prop) (w : World ι) : Prop := Since i S w ∧ NotMine i w

/-- What does not change as long as it is calm. -/
def Steady (S : World ι → Prop) : Prop := ∀ w v, Calm w v → S w → S v

/-- What a client relies on: nobody else acts in its name, and where nothing is changed, it is
calm. -/
structure Relies (i : ι) (w v : World ι) : Prop where
  removed : w.removed ⊆ v.removed
  half : ∀ left, v.half = some (i, left) → w.half = some (i, left)
  log : ∃ more, v.log = w.log ++ more ∧ (∀ e ∈ more, e.client ≠ i) ∧
    ((∀ e ∈ more, e.isWrite = false) → Calm w v)

/-- A folder is saved under parents that are there, and not below itself. -/
def Fits (data : Data) (name : String) (info : Meta) : Prop :=
  (∀ p ∈ info.parentId, p ∈ data) ∧
    (name ∉ data ∨ wouldCreateCycle (parseAllFolders data) name info.parentId = some false)

/-- What a client writes, it has made sure of, should nobody else have changed anything since it has
read: a folder that is saved fits in; of one that is removed no environment is left, and what
is below it is to be removed next; and an environment is that of a folder that is there. -/
def Checks (i : ι) (w : World ι) (r : Request) (_ : World ι) : Prop :=
  match r with
  | .folders (.patchConfigMap name info) => Held i (fun v => Fits v.data name info) w
  | .folders (.replaceConfigMap ..) => False
  | .removeEntry folder _ data rest => Since i (fun v => data = v.data.erase folder ∧
      v.environments folder = [] ∧ ∀ c, v.data.Child c folder → c ∈ folder :: rest) w ∧
    ∀ left, w.half = some (i, left) → left = folder :: rest
  | .createNamespace _ labels => Since i (fun v => ∀ f ∈ labels.folder, f ∈ v.data) w
  | _ => True

variable {S T : World ι → Prop} {more : List (Deed ι)}

theorem Quiet.before (h : Quiet i v) (hlog : v.log = w.log ++ more)
    (hread : Logs.since (readBy i) w.log ≠ none) :
    Quiet i w ∧ ∀ e ∈ more, e.isWrite = true → e.client = i := by
  obtain ⟨seen, hseen⟩ := ne_none_iff_exists'.mp hread
  have hmore : Logs.since (readBy i) v.log = some (seen.1, seen.2 ++ more) := by
    rw [hlog, Logs.since_append hseen]
  have hall := h _ hmore
  refine ⟨fun seen' hseen' e he => ?_, fun e he => hall e (mem_append_right _ he)⟩
  obtain rfl := mem_unique hseen hseen'
  exact hall e (mem_append_left _ he)

theorem Since.step (h : Since i S w) (hlog : v.log = w.log ++ more)
    (hstep : Quiet i w → Quiet i v → S w → T v) : Since i T v := by
  refine ⟨?_, fun hquiet => ?_⟩
  · obtain ⟨seen, hseen⟩ := ne_none_iff_exists'.mp h.1
    rw [hlog, Logs.since_append hseen]
    exact some_ne_none _
  · have hbefore := (hquiet.before hlog h.1).1
    exact hstep hbefore hquiet (h.2 hbefore)

theorem Since.mono (h : Since i S w) (hST : S w → T w) : Since i T w :=
  ⟨h.1, fun hquiet => hST (h.2 hquiet)⟩

theorem Since.relies (h : Since i S w) (hS : Steady S) (hrely : Relies i w v) : Since i S v := by
  obtain ⟨more, hlog, hothers, hcalm⟩ := hrely.log
  refine h.step hlog fun _ hquiet hw => hS w v (hcalm fun e he => ?_) hw
  refine Bool.eq_false_iff.mpr fun hwrite => ?_
  exact hothers e he ((hquiet.before hlog h.1).2 e he hwrite)

omit [DecidableEq ι] in
theorem NotMine.relies (h : NotMine i w) (hrely : Relies i w v) : NotMine i v :=
  fun left hv => h left (hrely.half left hv)

theorem Fresh.relies (h : Fresh i w) (hrely : Relies i w v) : Fresh i v := by
  refine ⟨?_, h.2.relies hrely⟩
  obtain ⟨more, hlog, hothers, -⟩ := hrely.log
  rw [hlog, Logs.since_append_of_none h.1, Logs.since_eq_none_iff]
  intro e he
  cases e with
  | read j data => exact if_neg (hothers _ he)
  | wrote j => rfl

omit [DecidableEq ι] in
theorem Relies.refl (i : ι) (w : World ι) : Relies i w w :=
  ⟨List.Subset.refl _, fun _ h => h, [], by simp, by simp, fun _ => .refl w⟩

omit [DecidableEq ι] in
theorem relies_act (i : ι) (a : Unit) (w : World ι) : Relies i w (act a w) := by
  have hdata : (act a w).data = w.data := by
    cases hcm : w.folders.configMap <;> simp [World.data, Folders.World.data, act, Folders.act, hcm]
  exact ⟨List.Subset.refl _, fun _ h => h, [], by simp [act], by simp,
    fun _ => ⟨hdata, fun _ => List.Subset.refl _⟩⟩

theorem Effect.relies {j : ι} (h : Effect i w r v) (hchecks : Checks i w r v) (hij : i ≠ j) :
    Relies j w v := by
  have hone {e : Deed ι} (he : e.client = i) : ∀ e' ∈ [e], e'.client ≠ j := by
    simpa [he] using hij
  have hwrote (hcalm : ∀ e ∈ [Deed.wrote i], e.isWrite = false) : Calm w v := by
    simp [Deed.isWrite] at hcalm
  cases h with
  | nothing => exact .refl j w
  | @read cm hcm =>
    refine ⟨List.Subset.refl _, fun _ h => h, [.read i cm.value], rfl, hone rfl, fun _ => ?_⟩
    exact ⟨rfl, fun _ => List.Subset.refl _⟩
  | created hcm =>
    refine ⟨List.Subset.refl _, fun _ h => h, [.read i ∅], rfl, hone rfl, fun _ => ?_⟩
    exact ⟨(data_created hcm).symm, fun _ => List.Subset.refl _⟩
  | patched hcm =>
    exact ⟨List.Subset.refl _, fun _ h => h, [.wrote i], rfl, hone rfl, hwrote⟩
  | replaced => exact hchecks.elim
  | removed hcm =>
    refine ⟨subset_cons_self _ _, fun left hleft => ?_, [.wrote i], rfl, hone rfl, hwrote⟩
    exact absurd (Prod.mk.inj (some.inj hleft)).1 hij
  | built hname =>
    exact ⟨List.Subset.refl _, fun _ h => h, [.wrote i], rfl, hone rfl, hwrote⟩
  | torn =>
    exact ⟨List.Subset.refl _, fun _ h => h, [], by simp, by simp, fun _ => calm_torn w _⟩

/-- A request that changes no folder and makes no environment, and is not part of a deletion. -/
def Request.Plain : Request → Prop
  | .folders r => r.Plain
  | .listNamespaces _ deleting => deleting = false
  | _ => False

theorem Request.Plain.checks (h : r.Plain) : Checks i w r v := by
  cases r with
  | folders r =>
    cases r with
    | patchConfigMap name info => exact h.elim
    | replaceConfigMap version data => exact h.elim
    | _ => trivial
  | listNamespaces folder deleting => trivial
  | removeEntry folder version data rest => exact h.elim
  | createNamespace name labels => exact h.elim
  | deleteNamespace name => exact h.elim

omit [DecidableEq ι] in
theorem Effect.plain (h : Effect i w r v) (hr : r.Plain) : Calm w v ∧ v.half = w.half ∧
    v.removed = w.removed ∧ ∃ more, v.log = w.log ++ more := by
  cases h with
  | nothing => exact ⟨.refl w, rfl, rfl, [], by simp⟩
  | read hcm => exact ⟨⟨rfl, fun _ => List.Subset.refl _⟩, rfl, rfl, _, rfl⟩
  | created hcm =>
    exact ⟨⟨(data_created hcm).symm, fun _ => List.Subset.refl _⟩, rfl, rfl, _, rfl⟩
  | patched hcm => exact hr.elim
  | replaced => exact hr.elim
  | removed hcm => exact hr.elim
  | built hname => exact hr.elim
  | torn => exact hr.elim

theorem Held.plain (h : Held i S w) (hS : Steady S) (heffect : Effect i w r v) (hr : r.Plain) :
    Held i S v := by
  obtain ⟨hcalm, hhalf, -, more, hlog⟩ := heffect.plain hr
  exact ⟨h.1.step hlog fun _ _ => hS w v hcalm, fun left => hhalf ▸ h.2 left⟩

end Knowledge

section Answers

/-- Whether the client has removed an entry, and has others yet to remove. -/
def World.halfDone (i : ι) (w : World ι) : Bool := w.half.any fun h => h.1 = i ∧ h.2 ≠ []

/-- Whether an `ApiException` is all that comes of a failure. -/
def Fault.caught (fault : Fault) : Bool :=
  fault.failure.all fun e => match e with
    | .api _ => fault.done
    | _ => false

/-- What a deletion counts on: that the environments are listed and go, and that nothing fails which
leaves it partway. -/
def Firm (i : ι) (fault : Fault) (w : World ι) : Request → Prop
  | .listNamespaces _ true => fault.failure = none
  | .deleteNamespace _ => fault.caught = true
  | r => (serve i fault w r).1.isOk = true ∨ (serve i fault w r).2.halfDone i = false

instance (i : ι) (fault : Fault) (w : World ι) : DecidablePred (Firm i fault w) := fun r => by
  unfold Firm
  split <;> infer_instance

/-- What a deletion counts on, it gets. -/
def serveFirm (i : ι) (fault : Fault) (w : World ι) (r : Request) : r.Response × World ι :=
  if Firm i fault w r then serve i fault w r else (.error .hangs, w)

/-- Where a request ends in a failure, no deletion is partway. -/
def Broken (i : ι) (e : Failure) (w : World ι) : Prop :=
  e = .hangs ∨ ∀ left, w.half = some (i, left) → left = []

/-- A program that makes sure of what it writes. -/
abbrev Tries (i : ι) (P : World ι → Prop) (p : Call α) (Q : α → World ι → Prop)
    (E : Failure → World ι → Prop) : Prop :=
  Attempts (serveFirm i) (fun _ => True) (Relies i) (Checks i) P p Q E

abbrev Careful (i : ι) (P : World ι → Prop) (p : Call α) (Q : α → World ι → Prop) : Prop :=
  Tries i P p Q (Broken i)

variable {S T : World ι → Prop}

theorem effect_firm (i : ι) (fault : Fault) (w : World ι) (r : Request) :
    Effect i w r (serveFirm i fault w r).2 := by
  unfold serveFirm
  split
  · exact effect_serve i fault w r
  · exact .nothing

omit [DecidableEq ι] in
theorem broken_of_notMine {e : Failure} (h : NotMine i w) : Broken i e w :=
  .inr fun left hleft => absurd hleft (h left)

omit [DecidableEq ι] in
theorem Broken.relies {e : Failure} (h : Broken i e w) (hrely : Relies i w v) : Broken i e v :=
  h.imp_right fun hended left hleft => hended left (hrely.half left hleft)

theorem ended_of_halfDone (h : w.halfDone i = false) {left : List String}
    (hleft : w.half = some (i, left)) : left = [] := by
  simpa [World.halfDone, hleft] using h

theorem Held.relies (h : Held i S w) (hS : Steady S) (hrely : Relies i w v) : Held i S v :=
  ⟨h.1.relies hS hrely, h.2.relies hrely⟩

/-- What nobody else makes false. -/
abbrev Lasting (i : ι) (P : World ι → Prop) : Prop := Lasts (fun _ => True) (Relies i) P

theorem lasting_held (hS : Steady S) : Lasting i (Held i S) := fun _ _ _ _ h hw => hw.relies hS h

theorem lasting_fresh : Lasting i (Fresh i) := fun _ _ _ _ h hw => hw.relies h

omit [DecidableEq ι] in
theorem lasting_broken (e : Failure) : Lasting i (Broken i e) := fun _ _ _ _ h hw => hw.relies h

omit [DecidableEq ι] in
theorem steady_data (S : Data → Prop) : Steady fun w : World ι => S w.data := by
  intro w v hcalm h
  rw [hcalm.1]
  exact h

/-- A request that is made sure of, and what comes of it when it meets with what a deletion counts
on, and with nothing. -/
theorem tries_ask {r : Request} {Q : r.Result → World ι → Prop} {E : Failure → World ι → Prop}
    (hP : Lasting i P) (hQ : ∀ a, Lasting i (Q a)) (hE : ∀ e, Lasting i (E e))
    (hchecks : ∀ w, P w → Checks i w r w) (hhangs : ∀ w, P w → E .hangs w)
    (hserve : ∀ w fault, P w → Firm i fault w r →
      outcome Q E (serve i fault w r).1 (serve i fault w r).2) : Tries i P (ask r) Q E := by
  refine .ask (fun _ _ _ _ => trivial) hP hQ hE fun w fault _ hw => ⟨hchecks w hw, ?_⟩
  unfold serveFirm
  split
  · next hfirm => exact hserve w fault hw hfirm
  · exact hhangs w hw

/-- A request that is part of no deletion of environments. -/
def Request.Else : Request → Prop
  | .listNamespaces _ deleting => deleting = false
  | .deleteNamespace _ => False
  | _ => True

theorem Firm.cases (h : Firm i fault w r) (hr : r.Else) :
    (∃ a, (serve i fault w r).1 = .ok a) ∨ (serve i fault w r).2.halfDone i = false := by
  have hfirm : (serve i fault w r).1.isOk = true ∨ (serve i fault w r).2.halfDone i = false := by
    unfold Firm at h
    split at h
    · exact absurd hr (by simp [Request.Else])
    · exact hr.elim
    · exact h
  refine hfirm.imp_left fun hok => ?_
  cases hx : (serve i fault w r).1 with
  | ok a => exact ⟨a, rfl⟩
  | error e => rw [hx] at hok; contradiction

omit [DecidableEq ι] in
theorem serve_ok {a : r.Result} (h : (serve i fault w r).1 = .ok a) :
    (commit i fault.answer w r).1 = .ok a ∧
      (serve i fault w r).2 = (commit i fault.answer w r).2 := by
  cases hfailure : fault.failure with
  | none =>
    simp only [serve, hfailure] at h ⊢
    exact ⟨h, trivial⟩
  | some e => simp [serve, hfailure] at h

/-- Where such a request fails, no deletion is partway. -/
theorem careful_ask {r : Request} {Q : r.Result → World ι → Prop} (hr : r.Else)
    (hP : Lasting i P) (hQ : ∀ a, Lasting i (Q a)) (hchecks : ∀ w, P w → Checks i w r w)
    (hok : ∀ w answer a, P w → (commit i answer w r).1 = .ok a → Q a (commit i answer w r).2) :
    Careful i P (ask r) Q := by
  refine tries_ask hP hQ lasting_broken hchecks (fun _ _ => .inl rfl) fun w fault hw hfirm => ?_
  obtain ⟨a, ha⟩ | hnot := hfirm.cases hr
  · rw [ha, (serve_ok ha).2]
    exact hok w fault.answer a hw (serve_ok ha).1
  · cases hx : (serve i fault w r).1 with
    | ok a =>
      rw [(serve_ok hx).2]
      exact hok w fault.answer a hw (serve_ok hx).1
    | error e => exact .inr fun left => ended_of_halfDone hnot

theorem Careful.bind {β : Type} {p : Call α} {f : α → Call β} {Q : α → World ι → Prop}
    {R : β → World ι → Prop} (hp : Careful i P p Q) (hf : ∀ a, Careful i (Q a) (f a) R) :
    Careful i P (p >>= f) R :=
  Attempts.bind (fun _ _ _ _ => trivial) lasting_broken hp hf

theorem careful_plain {p : Call α} (hS : Steady S) (h : Every Request.Plain p.run) :
    Careful i (Held i S) p fun _ => Held i S :=
  (Attempts.keeps (fun _ _ _ _ => trivial) (lasting_held hS)
    (fun fault w r _ hr hw => hw.plain hS (effect_firm i fault w r) hr)
    (fun _ _ _ _ hr => hr.checks) h).weaken (fun _ h => h) (fun _ _ h => h)
    fun _ _ h => broken_of_notMine h.2

theorem careful_throw {e : Failure} {Q : α → World ι → Prop} (hS : Steady S) :
    Careful i (Held i S) (throw e) Q :=
  .throw (lasting_held hS) fun _ h => broken_of_notMine h.2

end Answers

section Lift

variable {β : Type}

omit [DecidableEq ι] in
theorem embed_bind (p : Program Folders.Request Folders.Request.Response α)
    (f : α → Program Folders.Request Folders.Request.Response β) :
    embed (p >>= f) = embed p >>= fun a => embed (f a) := by
  change embed (p.bind f) = (embed p).bind fun a => embed (f a)
  induction p with
  | pure a => rfl
  | call r k ih => exact congrArg _ (funext ih)

theorem lift_bind (p : Folders.Call α) (f : α → Folders.Call β) :
    lift (p >>= f) = lift p >>= fun a => lift (f a) := by
  refine (embed_bind p.run _).trans (congrArg _ (funext fun x => ?_))
  cases x <;> rfl

theorem lift_tryCatch (p : Folders.Call α) (f : Failure → Folders.Call α) :
    lift (tryCatch p f) = tryCatch (lift p) fun e => lift (f e) := by
  refine (embed_bind p.run _).trans (congrArg _ (funext fun x => ?_))
  cases x <;> rfl

theorem every_lift {p : Folders.Call α} (h : Every Folders.Request.Plain p.run) :
    Every Request.Plain (lift p).run := by
  suffices hembed : ∀ {γ : Type} {q : Program Folders.Request Folders.Request.Response γ},
      Every Folders.Request.Plain q → Every Request.Plain (embed q) from hembed h
  intro γ q hq
  induction q with
  | pure a => trivial
  | call r k ih => exact ⟨hq.1, fun x => ih x (hq.2 x)⟩

theorem every_exceptApi {among : Request → Prop} {body : Call α} {handler : Nat → Call α}
    (hbody : Every among body.run) (hhandler : ∀ status, Every among (handler status).run) :
    Every among (exceptApi body handler).run := by
  refine .tryCatch hbody fun e => ?_
  cases e with
  | api status => exact hhandler status
  | http status detail => exact .throw _
  | hangs => exact .throw _

theorem every_errand (e : Errand) : Every Request.Plain (lift (Folders.ask (.errand e))).run :=
  every_lift (Every.ask trivial)

theorem every_getFolderNamespaces (folder : String) :
    Every Request.Plain (getFolderNamespaces folder).run :=
  every_exceptApi (Every.ask rfl) fun _ => .pure _

theorem every_checkEmpty_removal (name : String) (descendants : List String) :
    Every Request.Plain (checkEmpty name descendants).run := by
  rw [checkEmpty]
  split
  · exact .throw _
  · refine .bind (every_getFolderNamespaces name) fun environments => ?_
    split
    · exact .throw _
    · exact .pure _

end Lift

section Programs

/-- The client has read this, and changed nothing itself. -/
abbrev Seen (i : ι) (data : Data) (w : World ι) : Prop := Held i (fun v => v.data = data) w

theorem lasting_seen (data : Data) : Lasting i (Seen i data) :=
    lasting_held (steady_data (· = data))

theorem seen_of_read {data : Data} (h : Fresh i w) (hlog : v.log = w.log ++ [.read i data])
    (hhalf : v.half = w.half) (hdata : v.data = data) : Seen i data v := by
  refine ⟨⟨?_, fun _ => hdata⟩, fun left => hhalf ▸ h.2 left⟩
  rw [hlog, Logs.since_append_of_none h.1]
  simp [Logs.since, readBy]

theorem tries_readConfigMap : Tries i (Fresh i)
    (lift do return (← Folders.ask .readConfigMap).value) (Seen i) fun _ => Fresh i := by
  rw [lift_bind]
  refine Attempts.bind (Q := fun cm => Seen i cm.value) (fun _ _ _ _ => trivial)
    (fun _ => lasting_fresh) ?_ fun cm => .pure (lasting_seen _) fun _ h => h
  refine tries_ask (r := .folders .readConfigMap) lasting_fresh (fun cm => lasting_seen cm.value)
    (fun _ => lasting_fresh) (fun _ _ => trivial) (fun _ h => h) fun w fault hw _ => ?_
  cases hfailure : fault.failure with
  | some e =>
    simp only [serve, hfailure, Request.changes, Bool.and_false]
    exact hw
  | none =>
    cases hcm : w.folders.configMap with
    | none =>
      simp only [serve, hfailure, commit, Folders.commit, deeds, hcm, toList_none,
        map_nil, append_nil]
      exact hw
    | some cm =>
      simp only [serve, hfailure, commit, Folders.commit, deeds, hcm]
      exact seen_of_read hw rfl rfl rfl

theorem careful_readNamespace : Careful i (Fresh i) (lift (Folders.ask .readNamespace))
    fun _ => Fresh i := by
  refine careful_ask (r := .folders .readNamespace) trivial lasting_fresh (fun _ => lasting_fresh)
    (fun _ _ => trivial) fun w answer a hw _ => ?_
  simpa [commit, Folders.commit, deeds] using hw

theorem careful_createConfigMap : Careful i (Fresh i) (lift (Folders.ask .createConfigMap))
    fun _ => Seen i ∅ := by
  refine careful_ask (r := .folders .createConfigMap) trivial lasting_fresh
    (fun _ => lasting_seen ∅) (fun _ _ => trivial) fun w answer a hw ha => ?_
  cases hcm : w.folders.configMap with
  | some cm => simp [commit, Folders.commit, hcm] at ha
  | none =>
    simp only [commit, Folders.commit, deeds, hcm]
    exact seen_of_read hw rfl rfl rfl

theorem careful_ensureFoldersConfigmap :
    Careful i (Fresh i) (lift ensureFoldersConfigmap) (Seen i) := by
  have hthrow (e : Failure) : Careful i (Fresh i) (throw e : Call Data) (Seen i) :=
    .throw lasting_fresh fun _ h => broken_of_notMine h.2
  rw [ensureFoldersConfigmap, lift_tryCatch]
  refine .tryCatch (fun _ _ _ _ => trivial) lasting_seen tries_readConfigMap fun e => ?_
  split
  · rw [lift_bind, lift_tryCatch]
    refine Careful.bind (Q := fun _ => Fresh i) ?_ fun _ => ?_
    · refine .tryCatch (fun _ _ _ _ => trivial) (fun _ => lasting_fresh) careful_readNamespace
        fun e => ?_
      split
      · next he =>
        subst he
        exact .throw (lasting_broken _) fun _ h => .inr (h.resolve_left Failure.noConfusion)
      · exact .throw (lasting_broken e) fun _ h => h
    · rw [lift_bind]
      exact Careful.bind careful_createConfigMap fun _ => .pure (lasting_seen ∅) fun _ h => h
  · exact hthrow e

end Programs

section Programs

variable {data : Data} {name : String}

theorem isSome_node_iff : ((parseAllFolders data).node name).isSome ↔ name ∈ data := by
  rw [node_parseAllFolders, isSome_map, lookup_isSome]

omit [DecidableEq ι] in
theorem given_of_ne {parentId : Option String} (h : parentId ≠ some "") :
    given parentId = parentId := by
  cases parentId with
  | none => rfl
  | some p => exact if_neg fun hempty => h (congrArg some hempty)

theorem careful_checkParent (folder : FolderCreateRequest) :
    Careful i (Seen i data) (lift (checkParent (parseAllFolders data) folder)) fun _ w =>
      Seen i data w ∧ ∀ p ∈ given folder.parentId, p ∈ data := by
  rw [checkParent]
  split
  · next hnone => exact .pure (lasting_seen data) fun _ hw => ⟨hw, by simp [hnone]⟩
  · next parent hparent =>
    split
    · exact careful_throw (steady_data (· = data))
    · next hthere =>
      have hstored : ∀ p ∈ given folder.parentId, p ∈ data := by
        intro p hp
        obtain rfl := mem_unique hparent hp
        exact isSome_node_iff.mp (by simpa [isSome_iff_ne_none] using hthere)
      split
      · rw [lift_bind]
        refine Careful.bind (careful_plain (steady_data (· = data)) (every_errand _)) fun _ => ?_
        exact .pure (lasting_seen data) fun _ hw => ⟨hw, hstored⟩
      · exact .pure (lasting_seen data) fun _ hw => ⟨hw, hstored⟩

/-- A folder is saved that fits into what has been read, and is there then. -/
theorem careful_saveFolderMeta {info : Meta} (h : Fits data name info) :
    Careful i (Seen i data) (lift (saveFolderMeta name info)) fun _ =>
      Held i fun v => name ∈ v.data := by
  refine careful_ask (r := .folders (.patchConfigMap name info)) trivial (lasting_seen data)
    (fun _ => lasting_held (steady_data (name ∈ ·)))
    (fun w hw => ⟨hw.1.mono fun hdata => hdata.symm ▸ h, hw.2⟩) fun w answer a hw ha => ?_
  cases hcm : w.folders.configMap with
  | none => simp [commit, Folders.commit, hcm] at ha
  | some cm =>
    simp only [commit, Folders.commit, deeds, hcm]
    refine ⟨hw.1.step rfl fun _ _ _ => ?_, hw.2⟩
    change name ∈ (Versioned.patch cm (w.folders.clock + 1) name info).value
    obtain ⟨hdata, hname⟩ | hdata := data_patch cm (w.folders.clock + 1) name info
    · rwa [hdata]
    · rw [hdata]
      exact (mem_insert _).mpr (.inl rfl)

theorem careful_createNamespace {ns : String} {labels : Labels} (h : labels.folder = some name) :
    Careful i (Held i fun v => name ∈ v.data) (ask (.createNamespace ns labels)) fun _ =>
      Held i fun v => name ∈ v.data := by
  refine careful_ask trivial (lasting_held (steady_data (name ∈ ·)))
    (fun _ => lasting_held (steady_data (name ∈ ·))) (fun w hw => ?_) fun w answer a hw ha => ?_
  · have hstored (hname : name ∈ w.data) : ∀ f ∈ labels.folder, f ∈ w.data := by
      intro f hf
      obtain rfl := mem_unique h hf
      exact hname
    exact hw.1.mono (T := fun v => ∀ f ∈ labels.folder, f ∈ v.data) hstored
  · cases hns : w.namespaces.lookup ns with
    | some old => simp [commit, hns] at ha
    | none =>
      simp only [commit, hns]
      exact ⟨hw.1.step rfl fun _ _ hname => hname, hw.2⟩

theorem tries_exceptApi {body : Call α} {handler : Nat → Call α} {Q : α → World ι → Prop}
    {E : Failure → World ι → Prop} (hQ : ∀ a, Lasting i (Q a)) (hE : ∀ e, Lasting i (E e))
    (hbody : Tries i P body Q E)
    (hhandler : ∀ status, Careful i (E (.api status)) (handler status) Q)
    (hother : ∀ e w, (∀ status, e ≠ .api status) → E e w → Broken i e w) :
    Careful i P (exceptApi body handler) Q := by
  refine .tryCatch (fun _ _ _ _ => trivial) hQ hbody fun e => ?_
  cases e with
  | api status => exact hhandler status
  | http status detail => exact .throw (hE _) fun w hw => hother _ w (by simp) hw
  | hangs => exact .throw (hE _) fun w hw => hother _ w (by simp) hw

theorem careful_createEnvironmentNs (environment : String) :
    Careful i (Held i fun v => name ∈ v.data) (createEnvironmentNs name environment) fun _ =>
      Held i fun v => name ∈ v.data := by
  have hsteady : Steady fun v : World ι => name ∈ v.data := steady_data (name ∈ ·)
  refine Careful.bind (careful_plain hsteady (every_errand _)) fun _ => ?_
  dsimp only
  refine Careful.bind (Q := fun _ => Held i fun v => name ∈ v.data) ?_ fun _ =>
    Careful.bind (careful_plain hsteady (every_errand _)) fun _ =>
      .pure (lasting_held hsteady) fun _ h => h
  refine tries_exceptApi (fun _ => lasting_held hsteady) lasting_broken
    (careful_createNamespace rfl) (fun status => ?_) fun _ _ _ h => h
  split <;> exact .throw (lasting_broken _) fun _ h => .inr (h.resolve_left Failure.noConfusion)

theorem careful_createFolder (folder : FolderCreateRequest) (environments : List String)
    (email now : String) (hparent : folder.parentId ≠ some "") :
    Careful i (Fresh i) (createFolder folder environments email now) fun _ => NotMine i := by
  refine Careful.bind careful_ensureFoldersConfigmap fun data => ?_
  dsimp only
  split
  · exact careful_throw (steady_data (· = data))
  · next hnew =>
    refine Careful.bind (careful_checkParent folder) fun _ => ?_
    have hlasts (p : Prop) : Lasting i fun w : World ι => Seen i data w ∧ p :=
      (lasting_seen data).and (lasts_const p)
    refine Attempts.of_each fun w _ h => Attempts.pre (P := Seen i data) ?_ fun v hv => hv ▸ h.1
    refine Careful.bind (careful_plain (steady_data (· = data)) (every_errand _)) fun _ => ?_
    refine Careful.bind (careful_saveFolderMeta ⟨fun p hp => ?_, .inl ?_⟩) fun _ => ?_
    · exact h.2 p (by rwa [given_of_ne hparent])
    · exact fun hname => hnew (isSome_node_iff.mpr hname)
    · have hsteady : Steady fun v : World ι => folder.name ∈ v.data := steady_data (folder.name ∈ ·)
      refine Careful.bind (careful_plain hsteady (every_lift every_ensureFoldersConfigmap))
        fun _ => ?_
      exact (Attempts.forM (fun _ _ _ _ => trivial) (lasting_held hsteady) lasting_broken
        fun environment _ => careful_createEnvironmentNs environment).gives fun _ _ h => h.2

theorem careful_moveFolder (newParentId : Option String) (hparent : newParentId ≠ some "") :
    Careful i (Fresh i) (moveFolder name newParentId) fun _ => NotMine i := by
  rw [moveFolder, Folders.moveFolder, lift_bind]
  refine Careful.bind careful_ensureFoldersConfigmap fun data => ?_
  have hfail (e : Failure) : Careful i (Seen i data) (throw e : Call Unit) fun _ => NotMine i :=
    careful_throw (steady_data (· = data))
  dsimp only
  split
  · exact hfail _
  · next info hinfo =>
    split
    · exact hfail _
    · next hthere =>
      split
      · exact hfail _
      · exact hfail _
      · next hcheck =>
        rw [lift_bind]
        refine Careful.bind (careful_saveFolderMeta ⟨fun p hp => ?_, .inr hcheck⟩) fun _ => ?_
        · refine isSome_node_iff.mp (isSome_iff_ne_none.mpr fun hnone => hthere ⟨p, ?_, ?_⟩)
          · rwa [given_of_ne hparent]
          · rw [hnone]
            rfl
        · exact (careful_plain (steady_data (name ∈ ·))
            (every_lift (every_getFolder name))).gives fun _ _ h => h.2

end Programs

section Deletions

variable {data : Data} {name x : String} {done rest : List String} {S T : World ι → Prop}

/-- A client is deleting what it has read: these folders are gone, and those are to follow. -/
structure Works (i : ι) (data : Data) (done rest : List String) (S : World ι → Prop)
    (w : World ι) : Prop where
  since : Since i (fun v => (Within v.data data ∧ ∀ f ∈ done, f ∉ v.data) ∧ S v) w
  removed : done ⊆ w.removed
  half : ∀ left, w.half = some (i, left) → left = rest

theorem Works.calm (h : Works i data done rest S w) {more : List (Deed ι)} (hcalm : Calm w v)
    (hlog : v.log = w.log ++ more) (hhalf : v.half = w.half) (hremoved : v.removed = w.removed)
    (hST : S w → T v) : Works i data done rest T v where
  since := h.since.step hlog fun _ _ hw => ⟨hcalm.1 ▸ hw.1, hST hw.2⟩
  removed := hremoved ▸ h.removed
  half left := hhalf ▸ h.half left

theorem lasting_works (hS : Steady S) : Lasting i (Works i data done rest S) := by
  intro w v _ _ hrely h
  refine ⟨h.since.relies (fun w v hcalm hw => ⟨hcalm.1 ▸ hw.1, hS w v hcalm hw.2⟩) hrely, ?_, ?_⟩
  · exact fun f hf => hrely.removed (h.removed hf)
  · exact fun left hleft => h.half left (hrely.half left hleft)

omit [DecidableEq ι] in
theorem steady_environments {S : String × Labels → Prop} (f : String) :
    Steady fun w : World ι => ∀ e ∈ w.environments f, S e :=
  fun _ _ hcalm h e he => h e (hcalm.2 f he)

theorem tries_listNamespaces (f : String) :
    Tries i (Works i data done rest fun _ => True) (ask (.listNamespaces f true))
      (fun items => Works i data done rest fun v => ∀ e ∈ v.environments f, e ∈ items)
      fun e _ => e = .hangs := by
  refine tries_ask (lasting_works fun _ _ _ h => h)
    (fun items => lasting_works (steady_environments f)) (fun _ => lasts_const _)
    (fun _ _ => trivial) (fun _ _ => rfl) fun w fault hw hfirm => ?_
  have hfailure : fault.failure = none := hfirm
  simp only [serve, hfailure, commit]
  exact hw.calm (.refl w) (append_nil _).symm rfl rfl fun _ e he => he

/-- Of the environments that are left, all are listed, and these are gone. -/
def Remaining (f : String) (items gone : List (String × Labels)) (w : World ι) : Prop :=
  ∀ e ∈ w.environments f, e ∈ items ∧ e.1 ∉ gone.map Prod.fst

omit [DecidableEq ι] in
theorem Remaining.step {f : String} {items gone : List (String × Labels)} {ns : String × Labels}
    (h : Remaining f items gone w) (hcalm : Calm w v) (hgone : v.namespaces.lookup ns.1 = none) :
    Remaining f items (gone ++ [ns]) v := by
  intro e he
  refine ⟨(h e (hcalm.2 f he)).1, fun hmem => ?_⟩
  rw [map_append, mem_append] at hmem
  obtain hmem | hmem := hmem
  · exact (h e (hcalm.2 f he)).2 hmem
  · have hname : e.1 = ns.1 := mem_singleton.mp hmem
    have hlookup := (mem_environments.mp he).1
    rw [hname, hgone] at hlookup
    contradiction

/-- An `ApiException` makes no difference, and anything else leaves no deletion partway. -/
def Unless (i : ι) (Q : World ι → Prop) : Failure → World ι → Prop
  | .api _ => Q
  | e => Broken i e

omit [DecidableEq ι] in
theorem lasting_unless {Q : World ι → Prop} (hQ : Lasting i Q) (e : Failure) :
    Lasting i (Unless i Q e) := by
  cases e with
  | api status => exact hQ
  | http status detail => exact lasting_broken _
  | hangs => exact lasting_broken _

theorem careful_deleteNamespace {f : String} {items gone : List (String × Labels)}
    (ns : String × Labels) : Careful i (Works i data done rest (Remaining f items gone))
      (exceptApi (ask (.deleteNamespace ns.1)) fun _ => pure ())
      fun _ => Works i data done rest (Remaining f items (gone ++ [ns])) := by
  have hlasts (gone : List (String × Labels)) :
      Lasting i (Works i data done rest (Remaining f items gone)) :=
    lasting_works (steady_environments f)
  have hcommit (w : World ι) (answer : Nat)
      (hw : Works i data done rest (Remaining f items gone) w) :
      Works i data done rest (Remaining f items (gone ++ [ns]))
        (commit i answer w (.deleteNamespace ns.1)).2 := by
    cases hns : w.namespaces.lookup ns.1 with
    | none =>
      simp only [commit, hns]
      exact hw.calm (.refl w) (append_nil _).symm rfl rfl fun h => h.step (.refl w) hns
    | some labels =>
      simp only [commit, hns]
      exact hw.calm (calm_torn w ns.1) (append_nil _).symm rfl rfl fun h =>
        h.step (calm_torn w ns.1) (lookup_erase _ _)
  refine tries_exceptApi (fun _ => hlasts _) (lasting_unless (hlasts _)) ?_
    (fun status => .pure (hlasts _) fun _ h => h) fun e w he h => ?_
  · refine tries_ask (hlasts gone) (fun _ => hlasts _) (lasting_unless (hlasts _))
      (fun _ _ => trivial) (fun _ _ => .inl rfl) fun w fault hw hfirm => ?_
    have hafter := hcommit w fault.answer hw
    cases hfailure : fault.failure with
    | none =>
      simp only [serve, hfailure]
      cases hns : w.namespaces.lookup ns.1 <;> simp only [commit, hns] at hafter ⊢ <;>
        exact hafter
    | some e =>
      have hcaught : fault.caught = true := hfirm
      simp only [Fault.caught, hfailure, all_some] at hcaught
      cases e with
      | api status =>
        simp only [serve, hfailure, hcaught, Request.changes, Bool.and_self, if_true]
        exact hafter
      | http status detail => contradiction
      | hangs => contradiction
  · cases e with
    | api status => exact absurd rfl (he status)
    | http status detail => exact h
    | hangs => exact h

theorem careful_deleteEnvironments (f : String) :
    Careful i (Works i data done rest fun _ => True) (deleteEnvironments f) fun _ =>
      Works i data done rest fun v => v.environments f = [] := by
  have hsteady {S : String × Labels → Prop} :
      Lasting i (Works i data done rest fun v => ∀ e ∈ v.environments f, S e) :=
    lasting_works (steady_environments f)
  refine Careful.bind (Q := fun items => Works i data done rest fun v =>
    ∀ e ∈ v.environments f, e ∈ items) ?_ fun items => ?_
  · refine tries_exceptApi (fun items => hsteady) (fun _ => lasts_const _) (tries_listNamespaces f)
      (fun status => ?_) fun e w _ he => .inl he
    exact .pure (lasts_const _) fun _ h => absurd h Failure.noConfusion
  · refine (Attempts.forM_prefix (P := fun gone => Works i data done rest (Remaining f items gone))
      (fun _ _ _ _ => trivial) (fun gone => hsteady) lasting_broken
      fun gone ns _ => careful_deleteNamespace ns).weaken (fun w hw => ?_) (fun _ w hw => ?_)
      fun _ _ h => h
    · exact hw.calm (.refl w) (append_nil _).symm rfl rfl fun h e he => ⟨h e he, by simp⟩
    · refine hw.calm (.refl w) (append_nil _).symm rfl rfl fun h => ?_
      refine eq_nil_iff_forall_not_mem.mpr fun e he => ?_
      exact (h e he).2 (mem_map_of_mem (f := Prod.fst) (h e he).1)

theorem careful_deleteFolderMeta (hclosed : ∀ c, data.Child c x → c ∈ done ++ x :: rest) :
    Careful i (Works i data done (x :: rest) fun v => v.environments x = [])
      (deleteFolderMeta x rest) fun _ => Works i data (done ++ [x]) rest fun _ => True := by
  have hempty : Steady fun v : World ι => v.environments x = [] := fun _ _ hcalm => hcalm.nil
  have hboth (found : Data) : Steady fun v : World ι => v.environments x = [] ∧ v.data = found :=
    fun _ _ hcalm h => ⟨hcalm.nil h.1, hcalm.1.trans h.2⟩
  refine Careful.bind (Q := fun cm => Works i data done (x :: rest) fun v =>
    v.environments x = [] ∧ v.data = cm.value) ?_ fun cm => ?_
  · refine careful_ask (r := .folders .readConfigMap) trivial (lasting_works hempty)
      (fun cm => lasting_works (hboth cm.value)) (fun _ _ => trivial) fun w answer cm hw ha => ?_
    cases hcm : w.folders.configMap with
    | none => simp [commit, Folders.commit, hcm] at ha
    | some found =>
      simp only [commit, Folders.commit, hcm, Except.ok.injEq] at ha
      subst ha
      simp only [commit, Folders.commit, deeds, hcm]
      exact hw.calm ⟨(data_of_some hcm).symm, fun _ => List.Subset.refl _⟩ rfl rfl rfl
        fun h => ⟨h, rfl⟩
  · refine careful_ask trivial (lasting_works (hboth cm.value))
      (fun _ => lasting_works fun _ _ _ h => h) (fun w hw => ⟨hw.since.mono ?_, hw.half⟩)
      fun w answer a hw ha => ?_
    · rintro ⟨⟨hwithin, hgone⟩, hnone, hdata⟩
      refine ⟨by rw [hdata], hnone, fun c hc => ?_⟩
      obtain ⟨raw, hraw, hparent⟩ := child_iff.mp hc
      have hmem := hclosed c (child_iff.mpr ⟨raw, hwithin c raw hraw, hparent⟩)
      refine (mem_append.mp hmem).resolve_left fun hdone => hgone c hdone ?_
      exact lookup_isSome.mp (by rw [hraw]; rfl)
    · cases hcm : w.folders.configMap with
      | none => simp [commit, hcm] at ha
      | some found =>
        by_cases hversion : found.version = cm.version
        · simp only [commit, hcm, hversion, if_true]
          refine ⟨hw.since.step rfl fun _ _ h => ⟨⟨fun f raw hraw => ?_, fun f hf hmem => ?_⟩,
            trivial⟩, ?_, fun left hleft => (Prod.mk.inj (some.inj hleft)).2.symm⟩
          · have hraw : (cm.value.erase x).lookup f = some raw := hraw
            have hne : f ≠ x := by
              rintro rfl
              simp at hraw
            rw [lookup_erase_ne hne, ← h.2.2] at hraw
            exact h.1.1 f raw hraw
          · obtain ⟨hne, hmem⟩ := mem_erase.mp (show f ∈ cm.value.erase x from hmem)
            obtain hf | hf := mem_append.mp hf
            · exact h.1.2 f hf (h.2.2 ▸ hmem)
            · exact hne (mem_singleton.mp hf)
          · refine append_subset.mpr ⟨fun f hf => mem_cons_of_mem x (hw.removed hf), ?_⟩
            exact cons_subset.mpr ⟨mem_cons_self, nil_subset _⟩
        · simp [commit, hcm, hversion] at ha

/-- Where all that is below goes too, one folder goes after the other. -/
theorem careful_deleteAll (names : List String)
    (hclosed : ∀ f ∈ names, ∀ c, data.Child c f → c ∈ names) (done : List String)
    (hnames : done ++ rest = names) : Careful i (Works i data done rest fun _ => True)
      (deleteAll rest) fun _ => Works i data names [] fun _ => True := by
  induction rest generalizing done with
  | nil =>
    rw [append_nil] at hnames
    subst hnames
    exact .pure (lasting_works fun _ _ _ h => h) fun _ h => h
  | cons x rest ih =>
    refine Careful.bind (careful_deleteEnvironments x) fun _ => ?_
    refine Careful.bind (careful_deleteFolderMeta fun c hc => ?_) fun _ =>
      ih (done ++ [x]) (by simpa using hnames)
    exact hnames ▸ hclosed x (hnames ▸ mem_append_right _ mem_cons_self) c hc

/-- What is so when a request has been answered with success: the folder has been removed that was
to be deleted, and no deletion is partway. -/
def Reported (i : ι) (op : Op) (w : World ι) : Prop :=
  (∀ name cascade, op = .delete name cascade → name ∈ w.removed) ∧
    ∀ left, w.half = some (i, left) → left = []

theorem careful_deleteFolder (cascade : Bool) :
    Careful i (Fresh i) (deleteFolder name cascade) fun _ => Reported i (.delete name cascade) := by
  refine Careful.bind careful_ensureFoldersConfigmap fun data => ?_
  dsimp only
  split
  · exact careful_throw (steady_data (· = data))
  · split
    · exact careful_throw (steady_data (· = data))
    · next descendants hdescendants =>
      have hcheck : Every Request.Plain
          (if cascade then pure () else checkEmpty name descendants : Call Unit).run := by
        split
        · exact .pure _
        · exact every_checkEmpty_removal name descendants
      have hclosed : ∀ f ∈ descendants ++ [name], ∀ c, data.Child c f →
          c ∈ descendants ++ [name] := by
        intro f hf c hc
        refine mem_append_left _ ((mem_getDescendantNames hdescendants).mpr ?_)
        obtain hf | hf := mem_append.mp hf
        · exact .head hc ((mem_getDescendantNames hdescendants).mp hf)
        · exact mem_singleton.mp hf ▸ .single hc
      refine Careful.bind (careful_plain (steady_data (· = data)) hcheck) fun _ => ?_
      refine (careful_deleteAll _ hclosed [] rfl).weaken (fun w hw => ?_) (fun _ w hw => ?_)
        fun _ _ h => h
      · refine ⟨hw.1.mono fun hdata => ⟨⟨hdata ▸ .refl _, by simp⟩, trivial⟩, by simp,
          fun left hleft => absurd hleft (hw.2 left)⟩
      · refine ⟨fun other flag h => ?_, hw.half⟩
        cases h
        exact hw.removed (mem_append_right _ mem_cons_self)

theorem careful_program (op : Op) (hparent : op.parentId ≠ some "") :
    Careful i (Fresh i) op.program fun _ => Reported i op := by
  have hother {p : Call Unit} (hp : Careful i (Fresh i) p fun _ => NotMine i)
      (hop : ∀ name cascade, op ≠ .delete name cascade) :
      Careful i (Fresh i) p fun _ => Reported i op :=
    hp.gives fun _ _ h => ⟨fun name cascade hdelete => absurd hdelete (hop name cascade),
      fun left hleft => absurd hleft (h left)⟩
  cases op with
  | create folder environments email now =>
    exact hother (careful_createFolder folder environments email now hparent) (by simp)
  | move name newParentId => exact hother (careful_moveFolder newParentId hparent) (by simp)
  | delete name cascade => exact careful_deleteFolder cascade

end Deletions

section Order

omit [DecidableEq ι]

/-- Whether something has been written in between. -/
def World.writtenSince (v w : World ι) : Bool := (v.log.drop w.log.length).any Deed.isWrite

/-- The folders are a forest; a parent that is not there has its children removed next; and of a
folder that has been removed, and is not back, no environment is left. -/
structure Tidy (w : World ι) : Prop where
  acyclic : w.data.Acyclic
  sheltered : ∀ c p, w.data.Child c p → p ∈ w.data ∨ ∃ h ∈ w.half, c ∈ h.2
  emptied : ∀ f ∈ w.removed, f ∈ w.data ∨ w.environments f = []

theorem Tidy.sheltered_of_done (h : Tidy w) (hdone : ∀ half ∈ w.half, half.2 = []) :
    Sheltered w.data := by
  intro c p hc
  refine (h.sheltered c p hc).resolve_right fun ⟨half, hhalf, hmem⟩ => ?_
  rw [hdone half hhalf] at hmem
  exact absurd hmem not_mem_nil

/-- Where it is calm, and no entry is removed, nothing gets out of order. -/
theorem Tidy.calm (h : Tidy w) (hcalm : Calm w v) (hhalf : v.half = w.half)
    (hremoved : v.removed = w.removed) : Tidy v where
  acyclic := hcalm.1 ▸ h.acyclic
  sheltered := by
    rw [hcalm.1, hhalf]
    exact h.sheltered
  emptied f hf := by
    rw [hcalm.1]
    exact (h.emptied f (hremoved ▸ hf)).imp_right hcalm.nil

/-- What fits in, is below nothing that is below it. -/
theorem acyclic_of_fits {data : Data} {name : String} {info : Meta} (h : data.Acyclic)
    (hsheltered : Sheltered data) (hfits : Fits data name info) :
    Data.Acyclic (data.insert name (some info)) := by
  refine (acyclic_insert_iff h).mpr (hfits.2.elim (fun hnew => ?_) id)
  refine (wouldCreateCycle_eq_some_false_iff h _).mpr fun p hp hbelow => ?_
  obtain rfl | hpath := Relation.reflTransGen_iff_eq_or_transGen.mp hbelow
  · exact hnew (hfits.1 name hp)
  · obtain ⟨c, -, hc⟩ := Relation.TransGen.tail'_iff.mp hpath
    exact hnew (hsheltered c name hc)

theorem Tidy.saved (h : Tidy w) (hsheltered : Sheltered w.data) {name : String} {info : Meta}
    (hfits : Fits w.data name info) (hdata : v.data = w.data.insert name (some info))
    (hremoved : v.removed = w.removed) (hns : ∀ f, v.environments f = w.environments f) :
    Tidy v where
  acyclic := hdata ▸ acyclic_of_fits h.acyclic hsheltered hfits
  sheltered := by
    rw [hdata]
    have hup : ∀ p ∈ ((some info).getD {}).parentId, p ∈ w.data := hfits.1
    exact fun c p hc => .inl (sheltered_insert hsheltered hup c p hc)
  emptied f hf := by
    rw [hdata, hns]
    exact (h.emptied f (hremoved ▸ hf)).imp_left fun hmem => (mem_insert _).mpr (.inr hmem)

/-- A request that is made sure of, and is not disturbed, keeps the order. -/
theorem Tidy.effect [DecidableEq ι] (h : Tidy w) (heffect : Effect i w r v)
    (hchecks : Checks i w r v) (hcond : v.writtenSince w = true →
      Quiet i w ∧ ∀ half ∈ w.half, half.1 = i ∨ half.2 = []) : Tidy v := by
  have hwrote (hlog : v.log = w.log ++ [.wrote i]) :
      Quiet i w ∧ ∀ half ∈ w.half, half.1 = i ∨ half.2 = [] :=
    hcond (by simp [World.writtenSince, hlog, Deed.isWrite])
  cases heffect with
  | nothing => exact h
  | read hcm => exact h.calm ⟨rfl, fun _ => List.Subset.refl _⟩ rfl rfl
  | created hcm =>
    exact h.calm ⟨(data_created hcm).symm, fun _ => List.Subset.refl _⟩ rfl rfl
  | torn => exact h.calm (calm_torn w _) rfl rfl
  | replaced => exact hchecks.elim
  | @patched cm name info hcm =>
    obtain ⟨hquiet, hothers⟩ := hwrote rfl
    have hsheltered : Sheltered w.data := h.sheltered_of_done fun half hhalf =>
      (hothers half hhalf).resolve_left fun hmine =>
        hchecks.2 half.2 (by rw [show w.half = some half from hhalf, ← hmine])
    have hfits := hchecks.1.2 hquiet
    obtain ⟨hdata, -⟩ | hdata := data_patch cm (w.folders.clock + 1) name info
    · exact h.calm ⟨hdata.trans (data_of_some hcm).symm, fun _ => List.Subset.refl _⟩ rfl rfl
    · rw [← data_of_some hcm] at hdata
      exact h.saved hsheltered hfits hdata rfl fun _ => rfl
  | @removed cm folder data rest hcm =>
    obtain ⟨hquiet, hothers⟩ := hwrote rfl
    obtain ⟨rfl, hempty, hbelow⟩ := hchecks.1.2 hquiet
    refine ⟨acyclic_erase h.acyclic folder, fun c p herased => ?_, fun f hf => ?_⟩
    · obtain ⟨hne, hc⟩ :=
        child_of_child_erase (show Data.Child (w.data.erase folder) c p from herased)
      by_cases hp : p = folder
      · subst hp
        exact .inr ⟨_, rfl, (mem_cons.mp (hbelow c hc)).resolve_left hne⟩
      · obtain hmem | ⟨half, hhalf, hmem⟩ := h.sheltered c p hc
        · exact .inl (mem_erase.mpr ⟨hp, hmem⟩)
        · obtain hmine | hdone := hothers half hhalf
          · rw [hchecks.2 half.2 (by rw [show w.half = some half from hhalf, ← hmine])] at hmem
            exact .inr ⟨_, rfl, (mem_cons.mp hmem).resolve_left hne⟩
          · rw [hdone] at hmem
            exact absurd hmem not_mem_nil
    · by_cases hff : f = folder
      · subst hff
        exact .inr hempty
      · exact (h.emptied f ((mem_cons.mp hf).resolve_left hff)).imp_left fun hmem =>
          mem_erase.mpr ⟨hff, hmem⟩
  | @built name labels hname =>
    obtain ⟨hquiet, -⟩ := hwrote rfl
    refine ⟨h.acyclic, h.sheltered, fun f hf => ?_⟩
    by_cases hfolder : labels.folder = some f
    · exact .inl (hchecks.2 hquiet f hfolder)
    · refine (h.emptied f hf).imp_right fun hempty => ?_
      refine eq_nil_iff_forall_not_mem.mpr fun e he => ?_
      obtain ⟨hlookup, hlabels⟩ := mem_environments.mp he
      by_cases hother : e.1 = name
      · rw [hother] at hlookup
        obtain rfl := mem_unique (lookup_insert _) hlookup
        exact hfolder hlabels.1
      · rw [lookup_insert_ne hother] at hlookup
        exact not_mem_nil (hempty ▸ mem_environments.mpr ⟨hlookup, hlabels⟩)

theorem Tidy.act (h : Tidy w) (a : Unit) : Tidy (act a w) := by
  have hdata : (Removal.act a w).data = w.data := by
    cases hcm : w.folders.configMap <;>
      simp [World.data, Folders.World.data, Removal.act, Folders.act, hcm]
  exact h.calm ⟨hdata, fun _ => List.Subset.refl _⟩ rfl rfl

end Order

section Runs

/-- The folders are a forest, with every parent in it. -/
def Snapshot.Forest (s : Snapshot) : Prop :=
  ∀ cm, s.configMap = some cm → cm.value.Acyclic ∧ Sheltered cm.value

theorem Snapshot.Forest.data {s : Snapshot} (h : s.Forest) :
    Data.Acyclic ((s.configMap.map Versioned.value).getD ∅) ∧
      Sheltered ((s.configMap.map Versioned.value).getD ∅) := by
  cases hcm : s.configMap with
  | some cm => exact h cm hcm
  | none =>
    refine ⟨acyclic_empty, fun c p hc => ?_⟩
    obtain ⟨raw, hraw, -⟩ := child_iff.mp hc
    simp at hraw

/-- What a deletion counts on, it gets; and where something is written, nobody else has written
since the client has first read, and no other deletion is partway. -/
def Heeded (t : Crowd (World ι) Request Request.Response ι (Except Failure Unit)) :
    Turn Unit Fault ι → Prop
  | .act _ => True
  | .call i fault =>
    match (t.rest i).request? with
    | none => True
    | some r => Firm i fault t.world r ∧ ((serve i fault t.world r).2.writtenSince t.world = true →
        Quiet i t.world ∧ ∀ half ∈ t.world.half, half.1 = i ∨ half.2 = [])

instance (i : ι) : DecidablePred (Quiet i) := fun w => by
  unfold Quiet
  infer_instance

instance (t : Crowd (World ι) Request Request.Response ι (Except Failure Unit)) :
    DecidablePred (Heeded t) := fun turn => by
  unfold Heeded
  split
  · infer_instance
  · split <;> infer_instance

/-- The request that has removed the last entry has been answered. -/
def Settled (t : Crowd (World ι) Request Request.Response ι (Except Failure Unit)) : Prop :=
  ∀ half ∈ t.world.half, ∃ x, t.rest half.1 = .pure x ∧ x ≠ .error .hangs

/-- Every folder has no parent or one that is stored, and is in the tree that is listed; and
of a folder that was reported deleted no environment is left, unless it has been stored again. -/
structure Orphanless (ops : ι → Op)
    (t : Crowd (World ι) Request Request.Response ι (Except Failure Unit)) : Prop where
  sheltered : ∀ name info, (parseAllFolders t.world.data).node name = some info →
    ∀ p ∈ info.parentId, p ∈ t.world.data
  listed : ∀ name ∈ t.world.data,
    name ∈ buildTree (parseAllFolders t.world.data) t.world.data.entries.length none
  emptied : ∀ i name cascade, ops i = .delete name cascade → t.rest i = .pure (.ok ()) →
    name ∈ t.world.data ∨ t.world.environments name = []

omit [DecidableEq ι] in
theorem Tidy.orphanless {ops : ι → Op} (h : Tidy t.world)
    (hended : ∀ half ∈ t.world.half, half.2 = [])
    (hreported : ∀ i, t.rest i = .pure (.ok ()) → Reported i (ops i) t.world) :
    Orphanless ops t where
  sheltered name info hnode p hp := h.sheltered_of_done hended name p ⟨info, hnode, hp⟩
  listed name hname := by
    obtain ⟨info, hinfo⟩ := isSome_iff_exists.mp (isSome_node_iff.mpr hname)
    have hlisted := mem_buildTree h.acyclic (housed_of_sheltered (h.sheltered_of_done hended)) hinfo
    rwa [show (parseAllFolders t.world.data).nodes.length = t.world.data.entries.length from
      length_map _] at hlisted
  emptied i name cascade hop hdone := h.emptied name ((hreported i hdone).1 name cascade hop)

/-- A folder below a folder below a folder, and an environment of the last. -/
def nested : Snapshot where
  clock := 1
  configMap := some ⟨1, AList.insert "dev" (some { parentId := some "web" })
    (AList.insert "web" (some { parentId := some "shop" }) (AList.insert "shop" (some {}) ∅))⟩
  timely := fun _ hcm => (some.inj hcm) ▸ Nat.le_refl 1
  namespaces := AList.insert "dev-ci"
    { managed := some "true", folder := some "dev", environment := some "ci" } ∅

theorem forest_nested : nested.Forest := by
  intro cm hcm
  obtain rfl := some.inj hcm
  refine ⟨Hierarchy.acyclic_of_rank (fun f => if f = "shop" then 0 else if f = "web" then 1 else 2)
    (by decide), sheltered_of_nodes (by decide)⟩

/-- The first folder is deleted with all that is below; another is made with an environment; and
somebody tries to delete that one. -/
def moving : ℕ → Op
  | 0 => .delete "shop" true
  | 1 => .create ⟨"bank", "Bank", "", none, none, by decide⟩ ["ci"] "ann@shop" "now"
  | _ => .delete "bank" false

/-- The new folder is there before the deletion reads, and the third request reads when the
deletion is partway. -/
def turns : List (Turn Unit Fault ℕ) :=
  List.replicate 7 (.call 1 {}) ++ List.replicate 4 (.call 0 {}) ++
    [.call 2 {}, .act (), .call 2 {}] ++ List.replicate 7 (.call 0 {})

/-- Whether a request has been answered with success. -/
def succeeded : Program Request Request.Response (Except Failure Unit) → Bool
  | .pure (.ok _) => true
  | _ => false

theorem succeeded_iff {p : Program Request Request.Response (Except Failure Unit)} :
    succeeded p = true ↔ p = .pure (.ok ()) := by
  cases p with
  | pure x => cases x <;> simp [succeeded]
  | call r k => simp [succeeded]

/-- The deletion has been answered with success, and the new folder is all there is. -/
def cleared (t : Crowd (World ℕ) Request Request.Response ℕ (Except Failure Unit)) :
    Bool :=
  t.world.half = some (0, []) && t.world.data.keys = ["bank"] && succeeded (t.rest 0)

/-- The first folder is deleted, with all that is below. -/
def clearing (_ : Unit) : Op := .delete "shop" true

/-- The second folder is gone when a request for the third fails. -/
def stopped : List (Turn Unit Fault Unit) :=
  [.call () {}, .call () {}, .call () {}, .call () {}, .call () {}, .call () {},
    .call () { failure := some (.api 500) }]

/-- The last folder is deleted, with its environment. -/
def leaving (_ : Unit) : Op := .delete "dev" true

/-- The deletion of the namespace fails. -/
def leave : List (Turn Unit Fault Unit) :=
  [.call () {}, .call () {}, .call () { failure := some (.api 500) }, .call () {}, .call () {}]

end Runs

end Folders.Removal
