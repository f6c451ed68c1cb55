import KubevirtUi.Library.Floating
import KubevirtUi.Quotas.Making

/-!
# The headroom that is shown

A folder shows how much of its ceiling is free. That is what a new environment may ask for, where
the folder caps the dimension itself; where it does not, nothing is shown, and a folder above
may refuse.
-/

namespace Quotas

open Floating (Extended exists_value_sum extended extended_add_eq_none float_le_iff float_lt_iff
  float_sub_zero ofNumber representable_toModel)
open Folders (Data Failure FolderQuota Meta parseAllFolders)
open Interference Option
open Rounding (scaled scaled_nonneg)
open Tenant (Dimension dimensions)

variable {α : Type} {A : Arithmetic α}

/-- What rounding keeps of the order. A number is what is not above itself, which only a NaN is
not. -/
structure Arithmetic.Lawful (A : Arithmetic α) : Prop where
  le_trans : ∀ x y z, A.le x y → A.le y z → A.le x z
  le_left : ∀ x y, A.le x y → A.le x x
  le_right : ∀ x y, A.le x y → A.le y y
  le_total : ∀ x y, A.le x x → A.le y y → A.le x y ∨ A.le y x
  lt_iff : ∀ x y, A.lt x y ↔ A.le x y ∧ ¬A.le y x
  zero_le_zero : A.le (A.ofNat 0) (A.ofNat 0)
  sub_zero : ∀ x, A.sub x (A.ofNat 0) = x
  /-- What is no number does not become one. -/
  of_add : ∀ x, A.le (A.add x A.tolerance) (A.add x A.tolerance) → A.le x x
  le_add : ∀ x, A.le x x → A.le x (A.add x A.tolerance)
  add_le_add_left : ∀ x, A.le (A.ofNat 0) x →
    A.le (A.add (A.ofNat 0) A.tolerance) (A.add x A.tolerance)
  add_le_add_right : ∀ x, A.le x (A.ofNat 0) →
    A.le (A.add x A.tolerance) (A.add (A.ofNat 0) A.tolerance)

theorem floats_lawful : floats.Lawful := by
  have hle (x y : Float) : floats.le x y = true ↔
      ∃ a ∈ extended x, ∃ b ∈ extended y, a ≤ b := by
    rw [← float_le_iff]
    exact decide_eq_true_iff
  have hlt (x y : Float) : floats.lt x y = true ↔
      ∃ a ∈ extended x, ∃ b ∈ extended y, a < b := by
    rw [← float_lt_iff]
    exact decide_eq_true_iff
  have hself (x : Float) : floats.le x x = true ↔ ∃ a, extended x = some a := by
    rw [hle]
    constructor
    · rintro ⟨a, ha, -⟩
      exact ⟨a, ha⟩
    · rintro ⟨a, ha⟩
      exact ⟨a, ha, a, ha, le_rfl⟩
  have hzero : extended (floats.ofNat 0) = some (ofNumber 0) := rfl
  have htolerance : floats.tolerance.toModel.unpack =
      .finite .positive 4835703278458517 (-82) (by decide) := rfl
  generalize hq : scaled 4835703278458517 (-82) = q
  have hsmall : extended floats.tolerance = some (ofNumber q) := by
    rw [extended, htolerance, ← hq]
    rfl
  have hnonneg : 0 ≤ q := hq ▸ scaled_nonneg _ _
  have hadd : floats.add (floats.ofNat 0) floats.tolerance = floats.tolerance := by decide +kernel
  have hsum (x : Float) {a : Extended} (ha : extended x = some a) :
      ∃ b, extended (floats.add x floats.tolerance) = some b ∧ (0 ≤ q → a ≤ b) ∧
        (ofNumber 0 ≤ a → ofNumber q ≤ b) ∧ (a ≤ ofNumber 0 → b ≤ ofNumber q) :=
    exists_value_sum (representable_toModel x) (representable_toModel floats.tolerance) ha hsmall
  refine
    { le_trans := fun x y z hxy hyz => ?_
      le_left := fun x y hxy => ?_
      le_right := fun x y hxy => ?_
      le_total := fun x y hx hy => ?_
      lt_iff := fun x y => ?_
      zero_le_zero := (hself _).mpr ⟨_, hzero⟩
      sub_zero := fun x => float_sub_zero rfl
      of_add := fun x hx => ?_
      le_add := fun x hx => ?_
      add_le_add_left := fun x hx => ?_
      add_le_add_right := fun x hx => ?_ }
  · obtain ⟨a, ha, b, hb, hab⟩ := (hle x y).mp hxy
    obtain ⟨b', hb', c, hc, hbc⟩ := (hle y z).mp hyz
    obtain rfl := mem_unique hb hb'
    exact (hle x z).mpr ⟨a, ha, c, hc, hab.trans hbc⟩
  · obtain ⟨a, ha, -⟩ := (hle x y).mp hxy
    exact (hself x).mpr ⟨a, ha⟩
  · obtain ⟨-, -, b, hb, -⟩ := (hle x y).mp hxy
    exact (hself y).mpr ⟨b, hb⟩
  · obtain ⟨a, ha⟩ := (hself x).mp hx
    obtain ⟨b, hb⟩ := (hself y).mp hy
    obtain hab | hba := le_total a b
    · exact .inl ((hle x y).mpr ⟨a, ha, b, hb, hab⟩)
    · exact .inr ((hle y x).mpr ⟨b, hb, a, ha, hba⟩)
  · rw [hlt, hle, hle]
    constructor
    · rintro ⟨a, ha, b, hb, hab⟩
      refine ⟨⟨a, ha, b, hb, hab.le⟩, ?_⟩
      rintro ⟨b', hb', a', ha', hba⟩
      obtain rfl := mem_unique ha ha'
      obtain rfl := mem_unique hb hb'
      exact hab.not_ge hba
    · rintro ⟨⟨a, ha, b, hb, -⟩, hnot⟩
      exact ⟨a, ha, b, hb, lt_of_not_ge fun hba => hnot ⟨b, hb, a, ha, hba⟩⟩
  · rw [hself] at hx ⊢
    cases h : extended x with
    | none =>
      obtain ⟨a, ha⟩ := hx
      rw [show floats.add x floats.tolerance = x + floats.tolerance from rfl,
        extended_add_eq_none h] at ha
      cases ha
    | some a => exact ⟨a, rfl⟩
  · obtain ⟨a, ha⟩ := (hself x).mp hx
    obtain ⟨b, hb, hab, -⟩ := hsum x ha
    exact (hle _ _).mpr ⟨a, ha, b, hb, hab hnonneg⟩
  · obtain ⟨o, ho, a, ha, hoa⟩ := (hle _ _).mp hx
    obtain rfl := mem_unique hzero ho
    obtain ⟨b, hb, -, hlow, -⟩ := hsum x ha
    rw [hadd]
    exact (hle _ _).mpr ⟨_, hsmall, b, hb, hlow hoa⟩
  · obtain ⟨a, ha, o, ho, hao⟩ := (hle _ _).mp hx
    obtain rfl := mem_unique hzero ho
    obtain ⟨b, hb, -, -, hhigh⟩ := hsum x ha
    rw [hadd]
    exact (hle _ _).mpr ⟨b, hb, _, hsmall, hhigh hao⟩

namespace Arithmetic.Lawful

variable (hA : A.Lawful) {x y z : α}
include hA

theorem lt_of_le_of_lt (hxy : A.le x y) (hyz : A.lt y z) : A.lt x z := by
  obtain ⟨hle, hnot⟩ := (hA.lt_iff y z).mp hyz
  refine (hA.lt_iff x z).mpr ⟨hA.le_trans x y z hxy hle, ?_⟩
  intro hzx
  exact hnot (hA.le_trans z x y hzx hxy)

theorem not_le_of_lt (h : A.lt x y) : ¬A.le y x := ((hA.lt_iff x y).mp h).2

theorem lt_of_not_le (hx : A.le x x) (hy : A.le y y) (h : ¬A.le y x) : A.lt x y :=
  (hA.lt_iff x y).mpr ⟨(hA.le_total x y hx hy).resolve_right h, h⟩

theorem number_of_lt (h : A.lt x y) : A.le x x ∧ A.le y y := by
  have hle := ((hA.lt_iff x y).mp h).1
  exact ⟨hA.le_left x y hle, hA.le_right x y hle⟩

end Arithmetic.Lawful

/-- A quota of one dimension. -/
def oneDimension (d : Dimension) (text : String) : FolderQuota :=
  match d with
  | .cpu => ⟨some text, none, none⟩
  | .memory => ⟨none, some text, none⟩
  | .storage => ⟨none, none, some text⟩

/-- Whether a ceiling has no room for a new environment. -/
def Lacks (A : Arithmetic α) (limit allocated want : α) : Prop :=
  ¬A.le want (A.add (A.ofNat 0) A.tolerance) ∧
    A.lt (A.add (A.sub limit allocated) A.tolerance) want

instance (limit allocated want : α) : Decidable (Lacks A limit allocated want) :=
  inferInstanceAs (Decidable (_ ∧ _))

variable {d : Dimension} {text name environment : String} {want : α} {w : World}

section Asked

variable {folderName holder : String} {limit : α} {folders : Data}

theorem limitOf_oneDimension (A : Arithmetic α) (d : Dimension) (text : String) :
    limitOf A (oneDimension d text) d = parseQuantity A (some text) := by
  cases d <;> rfl

section

variable (htext : parseQuantity A (some text) = some want)

include htext

theorem holdersOf_oneDimension : holdersOf A folders folderName (oneDimension d text) =
      ((ceilingHolder A folders folderName d).map fun found => (d, found)).toList := by
  have hnone : parseQuantity A none = none := rfl
  cases d with
  | cpu | memory | storage =>
    cases hholder : ceilingHolder A folders folderName _ <;>
      simp [holdersOf, dimensions, limitOf, limitText, oneDimension, htext, hnone, hholder]

theorem shortage_uncapped (hholder : ceilingHolder A folders folderName d = none) :
    w.shortage A folders folderName (oneDimension d text) = some none := by
  simp only [World.shortage, holdersOf_oneDimension htext, hholder, map_none, toList_none]
  rfl

theorem shortage_capped (hholder : ceilingHolder A folders folderName d = some (holder, limit)) :
    w.shortage A folders folderName (oneDimension d text) =
      (w.allocated A folders (depthOf folders) holder).map fun allocated =>
        shortageWithin A folders (oneDimension d text) [(holder, allocated)] (zeros A)
          (d, holder, limit) := by
  simp only [World.shortage, holdersOf_oneDimension htext, hholder, map_some,
    toList_some, List.map_cons, List.map_nil, List.foldlM_cons, List.foldlM_nil]
  cases hallocated : w.allocated A folders (depthOf folders) holder with
  | none => simp [World.withAllocation, hallocated]
  | some allocated => simp [World.withAllocation, hallocated]

end

theorem shortageWithin_isSome (hA : A.Lawful) {allocated : Amounts α}
    (htext : parseQuantity A (some text) = some want) :
    (shortageWithin A folders (oneDimension d text) [(holder, allocated)] (zeros A)
      (d, holder, limit)).isSome ↔ Lacks A limit (allocated.get d) want := by
  have hwant : amountOf A (oneDimension d text) d = want := by
    rw [amountOf, limitOf_oneDimension, htext, getD_some]
  have hallocation : (allocationOf A [(holder, allocated)] holder).get d = allocated.get d := by
    simp [allocationOf]
  simp only [shortageWithin, hwant, hallocation, zeros, Amounts.get_of, hA.sub_zero, Lacks]
  split
  · next hle => simp [hle]
  · next hle =>
      split
      · next hlt => simp [hle, hlt]
      · next hlt => simp [hlt]

end Asked

section Answers

variable {quota : FolderQuota}

theorem comes_addEnvironment {x : Except Failure FolderEnvironmentResponse} {v : World}
    (hfolder : ((parseAllFolders w.folders).node name).isSome)
    (h : Comes (createEnvironmentNs A w.folders name environment quota) w.withConfigMap x v) :
    Comes (addEnvironment A name ⟨environment, quota, []⟩) w x v := by
  refine (comes_ensureFoldersConfigmap w).bind ?_
  rw [if_neg (by simpa using isSome_iff_ne_none.mp hfolder)]
  have hread : Comes (pure ∅ : Call Before) w.withConfigMap (.ok ∅) w.withConfigMap := .pure
  have hplan : Comes (pure () : Call Unit) w.withConfigMap (.ok ()) w.withConfigMap := .pure
  have hcut : Comes (pure (w.folders, []) : Call Access.Reallocated) w.withConfigMap
      (.ok (w.folders, [])) w.withConfigMap := .pure
  refine hread.bind (hplan.bind (hcut.bind ?_))
  cases x with
  | ok response => exact h.tryCatch_ok
  | error e =>
    refine h.tryCatch_error ?_
    exact (comes_lift .restoring (pure ()) v).bind .throw

theorem comes_addEnvironment_missing (hfolder : (parseAllFolders w.folders).node name = none) :
    Comes (addEnvironment A name ⟨environment, quota, []⟩) w
      (.error (.http 404 "Folder not found")) w.withConfigMap := by
  refine (comes_ensureFoldersConfigmap w).bind ?_
  rw [hfolder]
  exact .throw

theorem comes_getFolderQuotaHeadroom_missing
    (hfolder : (parseAllFolders w.folders).node name = none) :
    Comes (getFolderQuotaHeadroom A name) w (.error (.http 404 "Folder not found"))
      w.withConfigMap := by
  refine (comes_ensureFoldersConfigmap w).bind ?_
  rw [hfolder]
  exact .throw

/-- What the endpoint shows. -/
def headroomOf (A : Arithmetic α) (ceiling : FolderQuota) (allocated : Amounts α) : Headroom α where
  quota := ceiling.given
  allocated := allocated
  free := .of fun d => (limitOf A ceiling d).map fun limit =>
    clamp A (A.sub limit (allocated.get d))

theorem comes_getFolderQuotaHeadroom (hfolder : ((parseAllFolders w.folders).node name).isSome) :
    Comes (getFolderQuotaHeadroom A name) w
      (orStopped ((w.allocated A w.folders (depthOf w.folders) name).map
        (headroomOf A (ceilingOf w.folders name)))) w.withConfigMap := by
  refine (comes_ensureFoldersConfigmap w).bind ?_
  rw [if_neg (by simpa using isSome_iff_ne_none.mp hfolder)]
  have hallocated : Comes (allocatedEnvQuota A w.folders (depthOf w.folders) name)
      w.withConfigMap _ w.withConfigMap := comes_allocatedEnvQuota (depthOf w.folders) name
  have hsame : w.withConfigMap.allocated A w.folders (depthOf w.folders) name =
      w.allocated A w.folders (depthOf w.folders) name := by
    apply World.allocated_congr
    intro folderName
    rfl
  rw [hsame] at hallocated
  cases hsum : w.allocated A w.folders (depthOf w.folders) name with
  | none =>
    rw [hsum] at hallocated
    exact hallocated.bind_error
  | some allocated =>
    rw [hsum] at hallocated
    exact hallocated.bind .pure

end Answers

section Claim

/-- A new environment is refused because it does not fit under a ceiling. -/
def RefusedForQuota (A : Arithmetic α) (w : World) (name environment : String) (d : Dimension)
    (text : String) : Prop :=
  ∃ s : Shortage α, answerOf (addEnvironment A name ⟨environment, oneDimension d text, []⟩) w =
    .error (.http 409 (s.withinText A "this environment"))

/-- The free amount that is shown is smaller. -/
def ShownSmaller (A : Arithmetic α) (w : World) (name : String) (d : Dimension) (want : α) : Prop :=
  ∃ shown free, answerOf (getFolderQuotaHeadroom A name) w = .ok shown ∧
    shown.free.get d = some free ∧ A.lt free want

/-- A folder that caps the dimension has a free amount which is a number, and which is not
exceeded by what is tolerated only. For a folder that does not, there is room above. -/
def HeadroomHolds (A : Arithmetic α) (w : World) (name : String) (d : Dimension) (want : α) :
    Prop :=
  match limitOf A (ceilingOf w.folders name) d with
  | some limit => ∀ allocated ∈ w.allocated A w.folders (depthOf w.folders) name,
      let free := A.sub limit (allocated.get d)
      if A.le free free then
        A.lt (clamp A free) want → A.lt (A.add (clamp A free) A.tolerance) want
      else ¬A.lt (A.ofNat 0) want
  | none => ∀ found ∈ ceilingHolder A w.folders name d,
      ∀ allocated ∈ w.allocated A w.folders (depthOf w.folders) found.1,
        ¬Lacks A found.2 (allocated.get d) want

theorem ceilingHolder_self {folders : Data} {limit : α} (hname : name ≠ "")
    (hlimit : limitOf A (ceilingOf folders name) d = some limit) :
    ceilingHolder A folders name d = some (name, limit) := by
  have hstep : ceilingStep A folders d name = some (.inl (name, limit)) := by
    rw [ceilingStep, if_neg hname, hlimit]
  rw [ceilingHolder, walk, if_neg (by simp), hstep]

/-- A folder that is not there caps nothing, and is not under another. -/
theorem ceilingHolder_missing {folders : Data} (h : (parseAllFolders folders).node name = none) :
    ceilingHolder A folders name d = none := by
  have hlimit : limitOf A (ceilingOf folders name) d = none := by
    rw [ceilingOf, h]
    cases d <;> rfl
  have hstep : ceilingStep A folders d name = none := by
    rw [ceilingStep, hlimit, h]
    split <;> rfl
  rw [ceilingHolder, walk, if_neg (by simp), hstep]

theorem refusedForQuota_iff_shortage (hfolder : ((parseAllFolders w.folders).node name).isSome) :
    RefusedForQuota A w name environment d text ↔
      ∃ s, w.shortage A w.folders name (oneDimension d text) = some (some s) := by
  have hsame : w.withConfigMap.shortage A w.folders name (oneDimension d text) =
      w.shortage A w.folders name (oneDimension d text) := by
    apply World.shortage_congr
    intro folderName
    rfl
  obtain ⟨x, v, hx⟩ := Gives.exists_gives serve (fun _ => none)
    (createEnvironmentNs A w.folders name environment (oneDimension d text)) w.withConfigMap
  rw [RefusedForQuota, (comes_addEnvironment hfolder hx).answerOf, ← Comes.answerOf hx,
    createEnvironmentNs_refused_iff, hsame]

theorem refusedForQuota_iff (hA : A.Lawful) (htext : parseQuantity A (some text) = some want) :
    RefusedForQuota A w name environment d text ↔
      ∃ found ∈ ceilingHolder A w.folders name d,
        ∃ allocated ∈ w.allocated A w.folders (depthOf w.folders) found.1,
          Lacks A found.2 (allocated.get d) want := by
  cases hfolder : (parseAllFolders w.folders).node name with
  | none =>
    rw [RefusedForQuota, (comes_addEnvironment_missing hfolder).answerOf,
      ceilingHolder_missing hfolder]
    simp
  | some info =>
    rw [refusedForQuota_iff_shortage (by rw [hfolder]; rfl)]
    cases hholder : ceilingHolder A w.folders name d with
    | none => simp [shortage_uncapped htext hholder]
    | some found =>
      obtain ⟨holder, limit⟩ := found
      rw [shortage_capped htext hholder]
      cases hallocated : w.allocated A w.folders (depthOf w.folders) holder with
      | none => simp [hallocated]
      | some allocated =>
        rw [map_some]
        simp only [some.injEq, mem_def, exists_eq_left', hallocated]
        rw [← isSome_iff_exists, shortageWithin_isSome hA htext]

theorem shownSmaller_iff :
    ShownSmaller A w name d want ↔ ∃ limit ∈ limitOf A (ceilingOf w.folders name) d,
      ∃ allocated ∈ w.allocated A w.folders (depthOf w.folders) name,
        A.lt (clamp A (A.sub limit (allocated.get d))) want := by
  cases hfolder : (parseAllFolders w.folders).node name with
  | none =>
    have hlimit : limitOf A (ceilingOf w.folders name) d = none := by
      rw [ceilingOf, hfolder]
      cases d <;> rfl
    rw [ShownSmaller, (comes_getFolderQuotaHeadroom_missing hfolder).answerOf, hlimit]
    simp
  | some info =>
    have hsome : ((parseAllFolders w.folders).node name).isSome := by rw [hfolder]; rfl
    rw [ShownSmaller, (comes_getFolderQuotaHeadroom hsome).answerOf]
    cases hallocated : w.allocated A w.folders (depthOf w.folders) name with
    | none => simp [orStopped]
    | some allocated =>
      cases hlimit : limitOf A (ceilingOf w.folders name) d with
      | none => simp [orStopped, headroomOf, hlimit]
      | some limit => simp [orStopped, headroomOf, hlimit]

/-- Where the folder caps the dimension, the two differ only by what is tolerated, and where there
is no number. -/
theorem lacks_iff_lt_clamp_iff (hA : A.Lawful) {limit allocated : α} :
    (Lacks A limit allocated want ↔ A.lt (clamp A (A.sub limit allocated)) want) ↔
      if A.le (A.sub limit allocated) (A.sub limit allocated) then
        A.lt (clamp A (A.sub limit allocated)) want →
          A.lt (A.add (clamp A (A.sub limit allocated)) A.tolerance) want
      else ¬A.lt (A.ofNat 0) want := by
  rw [Lacks]
  generalize A.sub limit allocated = free
  split
  · next hnumber =>
      rw [clamp]
      split
      · next hpos =>
          have hzero := ((hA.lt_iff _ _).mp hpos).1
          constructor
          · intro h hlt
            exact (h.mpr hlt).2
          · intro h
            constructor
            · intro hlacks
              exact hA.lt_of_le_of_lt (hA.le_add free hnumber) hlacks.2
            · intro hlt
              have hover := h hlt
              exact ⟨hA.not_le_of_lt (hA.lt_of_le_of_lt (hA.add_le_add_left free hzero) hover),
                hover⟩
      · next hpos =>
          have hzero : A.le free (A.ofNat 0) := by
            by_contra hnot
            exact hpos (hA.lt_of_not_le hA.zero_le_zero hnumber hnot)
          constructor
          · intro h hlt
            obtain ⟨hmore, hover⟩ := h.mpr hlt
            exact hA.lt_of_not_le (hA.le_right _ _ (hA.le_add _ hA.zero_le_zero))
              (hA.number_of_lt hlt).2 hmore
          · intro h
            constructor
            · intro hlacks
              have hwant := (hA.number_of_lt hlacks.2).2
              exact hA.lt_of_le_of_lt (hA.le_add _ hA.zero_le_zero)
                (hA.lt_of_not_le (hA.le_right _ _ (hA.le_add _ hA.zero_le_zero)) hwant hlacks.1)
            · intro hlt
              have hover := h hlt
              exact ⟨hA.not_le_of_lt hover,
                hA.lt_of_le_of_lt (hA.add_le_add_right free hzero) hover⟩
  · next hnumber =>
      have hfalse : ¬A.lt (A.add free A.tolerance) want := by
        intro hover
        exact hnumber (hA.of_add free (hA.number_of_lt hover).1)
      have hclamp : clamp A free = A.ofNat 0 := by
        rw [clamp, if_neg]
        intro hpos
        exact hnumber (hA.number_of_lt hpos).2
      rw [hclamp]
      simp [hfalse]

/-- What is shown is what is enforced under these conditions, and under no others. -/
theorem refusedForQuota_iff_shownSmaller (hA : A.Lawful) (hname : name ≠ "")
    (htext : parseQuantity A (some text) = some want) :
    (RefusedForQuota A w name environment d text ↔ ShownSmaller A w name d want) ↔
      HeadroomHolds A w name d want := by
  rw [refusedForQuota_iff hA htext, shownSmaller_iff, HeadroomHolds]
  cases hlimit : limitOf A (ceilingOf w.folders name) d with
  | none => simp
  | some limit =>
    rw [ceilingHolder_self hname hlimit]
    cases hallocated : w.allocated A w.folders (depthOf w.folders) name with
    | none => simp [hallocated]
    | some allocated =>
      simp only [mem_def, some.injEq, exists_eq_left', forall_eq', hallocated]
      exact lacks_iff_lt_clamp_iff hA

end Claim

/-- A folder of one CPU, which its one environment has, and a folder below that caps nothing. -/
def full : World where
  cluster :=
    { clock := 0
      configMap := some ((∅ : Data).insert "lab" (some { quota := some ⟨some "1", none, none⟩ })
        |>.insert "kid" (some { parentId := some "lab" }))
      namespaces := (∅ : AList fun _ : String => Access.Labels).insert "lab-a"
        { managed := some "true", folder := some "lab", environment := some "a" }
      bindings := ∅
      quotas := (∅ : Access.Placed FolderQuota).insert ("lab-a", "lab-a-quota")
        ⟨some "1", none, none⟩
      log := [] }
  used := ∅

/-- Of its own folder no CPU is free, and one more is asked for. -/
theorem full_refused_iff_shown :
    (RefusedForQuota floats full "lab" "b" .cpu "1" ↔ ShownSmaller floats full "lab" .cpu 1.0) ↔
      HeadroomHolds floats full "lab" .cpu 1.0 :=
  refusedForQuota_iff_shownSmaller floats_lawful (by decide) (by decide +kernel)

/-- The folder below shows no bound, and an environment in it is refused. -/
theorem full_refused_not_shown : parseQuantity floats (some "1") = some 1.0 ∧
      ¬(RefusedForQuota floats full "kid" "b" .cpu "1" ↔
        ShownSmaller floats full "kid" .cpu 1.0) := by
  refine ⟨by decide +kernel, ?_⟩
  intro h
  have hshort : (full.shortage floats full.folders "kid" (oneDimension .cpu "1")).join.isSome := by
    decide +kernel
  obtain ⟨s, hs⟩ := isSome_iff_exists.mp hshort
  have hrefused : RefusedForQuota floats full "kid" "b" .cpu "1" :=
    (refusedForQuota_iff_shortage (by decide +kernel)).mpr ⟨s, by
      cases hsum : full.shortage floats full.folders "kid" (oneDimension .cpu "1") with
      | none => rw [hsum] at hs; cases hs
      | some short => rw [hsum] at hs; exact congrArg some hs⟩
  have hlimit : limitOf floats (ceilingOf full.folders "kid") .cpu = none := by decide +kernel
  obtain ⟨limit, hmem, -⟩ := shownSmaller_iff.mp (h.mp hrefused)
  rw [hlimit] at hmem
  cases hmem

end Quotas
