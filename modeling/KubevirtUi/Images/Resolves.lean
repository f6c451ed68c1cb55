import KubevirtUi.Images.Passes
import KubevirtUi.Library.Machine

/-!
# What the `DataSource` of an image names

Those who clone an image read its `DataSource` only, at any moment. So the snapshot has to be there
before it is named, and as long as it is. A snapshot of a claim that is there no more is removed
first, and the `DataSource` named after that.
-/

namespace Images

open Option AList

variable {isQuantity : String → Bool} {i : ManagedImage}

def Cluster.Names (c : Cluster) (name : String) : Prop :=
  ∃ ds, c.dataSource = some ds ∧ ds.source = .snapshot name

def Cluster.Usable (c : Cluster) (name : String) : Prop :=
  ∃ snapshot, c.snapshots.lookup name = some snapshot ∧ snapshot.readyToUse = true

/-- The `DataSource` names the claim, or a snapshot that can be cloned. -/
def Cluster.Resolves (c : Cluster) : Prop :=
  ∃ ds, c.dataSource = some ds ∧ ∀ name, ds.source = .snapshot name → c.Usable name

def Cluster.Dangles (c : Cluster) : Prop := ∃ name, c.Names name ∧ ¬ c.Usable name

/-- The snapshot is the image's, and of the claim that is behind the image now. -/
def Cluster.Marked (c : Cluster) (i : ManagedImage) (name : String) : Prop :=
  ∃ snapshot claim, c.snapshots.lookup name = some snapshot ∧ snapshot.ownerUID = i.uid ∧
    c.claims.lookup i.disk = some claim ∧ snapshot.sourceClaimUID = claim.uid

/-- What is asked of a call. -/
structure Safe (i : ManagedImage) (s t : State) : Prop where
  resolves : s.cluster.Resolves → ¬ t.cluster.Dangles
  marked : ∀ written name, s.pos = .point written → t.cluster.Names name → t.cluster.Marked i name

/-- What a pass reads of a snapshot. -/
def VolumeSnapshot.marks (snapshot : VolumeSnapshot) : String × String × Bool :=
  (snapshot.ownerUID, snapshot.sourceClaimUID, snapshot.readyToUse)

/-- When a pass finds the image's snapshot to be one of another claim, the `DataSource` does not
name it; the claim is not another by the time that its snapshot is found, and neither changes
until the `DataSource` is written; and nobody else makes the `DataSource` name the snapshot. -/
def Calm (i : ManagedImage) (s : State) : Event → Prop
  | .call => ∀ claim snapshotClass snapshot, s.pos = .snapshot claim snapshotClass →
      s.cluster.snapshots.lookup i.name = some snapshot → snapshot.ownerUID = i.uid →
        if snapshot.sourceClaimUID ≠ claim.uid then ¬ s.cluster.Names i.name
        else (s.cluster.claims.lookup i.disk).map Claim.uid = some claim.uid
  | .change (.claim name claim) => ∀ written, s.pos = .point written → written ≠ "" →
      name = i.disk → claim.map Claim.uid = (s.cluster.claims.lookup name).map Claim.uid
  | .change (.snapshot name snapshot) => ∀ written, s.pos = .point written → written ≠ "" →
      name = i.name →
        snapshot.map VolumeSnapshot.marks =
          (s.cluster.snapshots.lookup name).map VolumeSnapshot.marks
  | .change (.dataSource ds) => ds.map DataSource.source ≠ some (.snapshot i.name)
  | _ => True

/-- Nothing has to be known where a pass is about to do this. -/
def Position.plain : Position → Bool
  | .point name => name = ""
  | .retake => false
  | .findSnapshot => false
  | .dropSnapshot => false
  | _ => true

structure Inv (i : ManagedImage) (s : State) : Prop where
  owner : ∀ ds, s.cluster.dataSource = some ds → ds.source = .snapshot i.name →
    ds.ownerUID = i.uid
  point : ∀ name, s.pos = .point name → name ≠ "" →
    name = i.name ∧ s.cluster.Usable i.name ∧ s.cluster.Marked i i.name
  remove : s.pos = .retake ∨ s.pos = .findSnapshot ∨ s.pos = .dropSnapshot →
    ¬ s.cluster.Names i.name

variable {claim : Claim} {snapshotClass : String} {α : Type}

section Calls

variable {s t : State}

theorem Safe.of_same (hsource : t.cluster.dataSource = s.cluster.dataSource)
    (hsnapshots : t.cluster.snapshots = s.cluster.snapshots)
    (hpoint : ∀ written, s.pos ≠ .point written) : Safe i s t := by
  refine ⟨?_, fun written name hpos => absurd hpos (hpoint written)⟩
  rintro ⟨ds, hds, husable⟩ ⟨name, ⟨other, hother, hnames⟩, hno⟩
  obtain rfl := mem_unique hds (hsource.symm.trans hother)
  obtain ⟨snapshot, hsnapshot, hready⟩ := husable name hnames
  exact hno ⟨snapshot, hsnapshots ▸ hsnapshot, hready⟩

theorem Safe.of_erase (hsource : t.cluster.dataSource = s.cluster.dataSource)
    (hsnapshots : t.cluster.snapshots = s.cluster.snapshots.erase i.name)
    (hnames : ¬ s.cluster.Names i.name) (hpoint : ∀ written, s.pos ≠ .point written) :
    Safe i s t := by
  refine ⟨?_, fun written name hpos => absurd hpos (hpoint written)⟩
  rintro ⟨ds, hds, husable⟩ ⟨name, ⟨other, hother, hname⟩, hno⟩
  obtain rfl := mem_unique hds (hsource.symm.trans hother)
  have hne : name ≠ i.name := by
    rintro rfl
    exact hnames ⟨ds, hds, hname⟩
  obtain ⟨snapshot, hsnapshot, hready⟩ := husable name hname
  refine hno ⟨snapshot, ?_, hready⟩
  rw [hsnapshots, lookup_erase_ne hne]
  exact hsnapshot

theorem Inv.of_plain (hpos : t.pos.plain = true)
    (howner : ∀ ds, t.cluster.dataSource = some ds → ds.source = .snapshot i.name →
      ds.ownerUID = i.uid) : Inv i t where
  owner := howner
  point := by
    intro name hpoint hne
    rw [hpoint] at hpos
    exact absurd (of_decide_eq_true hpos) hne
  remove := by
    rintro (hno | hno | hno)
    · rw [hno] at hpos
      contradiction
    · rw [hno] at hpos
      contradiction
    · rw [hno] at hpos
      contradiction

section

variable (h : Inv i s) (hs : ∀ written, s.pos ≠ .point written)

include h hs

theorem Inv.reads (hcluster : t.cluster = s.cluster) (hpos : t.pos.plain = true) :
    Inv i t ∧ Safe i s t := by
  refine ⟨.of_plain hpos (hcluster ▸ h.owner), .of_same ?_ ?_ hs⟩
  · rw [hcluster]
  · rw [hcluster]

theorem Inv.begin (stored : Stored) : Inv i (s.begin i stored) ∧ Safe i s (s.begin i stored) := by
  rw [State.begin]
  dsimp only
  split
  · exact h.reads hs rfl rfl
  split
  · split
    · exact h.reads hs rfl rfl
    split
    · exact h.reads hs rfl rfl
    · exact h.reads hs rfl rfl
  split
  · exact h.reads hs rfl rfl
  · exact h.reads hs rfl rfl

theorem Inv.findDataVolume :
    Inv i (s.findDataVolume isQuantity i) ∧ Safe i s (s.findDataVolume isQuantity i) := by
  rw [State.findDataVolume]
  split
  · split
    · exact h.reads hs rfl rfl
    split
    · exact h.reads hs rfl rfl
    · exact h.reads hs rfl rfl
  · split
    · exact h.reads hs rfl rfl
    split
    · exact h.reads hs rfl rfl
    · exact h.reads hs rfl rfl

end

theorem Inv.findSnapshot (h : Inv i s) (hpos : s.pos = .snapshot claim snapshotClass)
    (hcalm : Calm i s .call) : Inv i (s.findSnapshot i claim snapshotClass) ∧
      Safe i s (s.findSnapshot i claim snapshotClass) := by
  have hs : ∀ written, s.pos ≠ .point written := by
    intro written hno
    rw [hpos] at hno
    contradiction
  rw [State.findSnapshot]
  split
  · exact h.reads hs rfl rfl
  split
  · exact h.reads hs rfl rfl
  next existing hexisting =>
  split
  · exact h.reads hs rfl rfl
  next howner =>
  have hfound := hcalm claim snapshotClass existing hpos hexisting (not_not.mp howner)
  split
  · next hstale =>
    rw [if_pos hstale] at hfound
    refine ⟨⟨h.owner, fun name hno => by contradiction, fun _ => hfound⟩, .of_same rfl rfl hs⟩
  next hsame =>
  rw [if_neg hsame] at hfound
  split
  · split
    · exact h.reads hs rfl rfl
    · exact h.reads hs rfl rfl
  next hready =>
  obtain ⟨now, hnow, huid⟩ := map_eq_some_iff.mp hfound
  have hmarked : s.cluster.Marked i i.name :=
    ⟨existing, now, hexisting, not_not.mp howner, hnow, (not_not.mp hsame).trans huid.symm⟩
  refine ⟨⟨h.owner, fun name hname hne => ?_, fun hno => ?_⟩, .of_same rfl rfl hs⟩
  · obtain rfl := Position.point.inj hname
    exact ⟨rfl, ⟨existing, hexisting, Bool.not_eq_false _ ▸ hready⟩, hmarked⟩
  · obtain hno | hno | hno := hno <;> contradiction

theorem Inv.erase (h : Inv i s) (hs : ∀ written, s.pos ≠ .point written)
    (hnames : ¬ s.cluster.Names i.name) (hpos : t.pos.plain = true)
    (hcluster : t.cluster = { s.cluster with snapshots := s.cluster.snapshots.erase i.name }) :
    Inv i t ∧ Safe i s t := by
  refine ⟨.of_plain hpos ?_, .of_erase ?_ ?_ hnames hs⟩
  · rw [hcluster]
    exact h.owner
  · rw [hcluster]
  · rw [hcluster]

theorem Inv.take (h : Inv i s) (hpos : s.pos = .take claim snapshotClass) :
    Inv i (s.call isQuantity i) ∧ Safe i s (s.call isQuantity i) := by
  rw [State.call, hpos]
  dsimp only
  refine ⟨.of_plain rfl h.owner, ?_, fun written name hno => ?_⟩
  · rintro ⟨ds, hds, husable⟩ ⟨name, ⟨other, hother, hname⟩, hno⟩
    obtain rfl := mem_unique hds hother
    obtain ⟨snapshot, hsnapshot, hready⟩ := husable name hname
    refine hno ?_
    by_cases hsame : name = i.name
    · subst hsame
      refine ⟨_, lookup_insert _, ?_⟩
      rw [hsnapshot]
      exact hready
    · exact ⟨snapshot, (lookup_insert_ne hsame).trans hsnapshot, hready⟩
  · rw [hpos] at hno
    contradiction

theorem Inv.point_call (h : Inv i s) {written : String} (hpos : s.pos = .point written) :
    Inv i (s.call isQuantity i) ∧ Safe i s (s.call isQuantity i) := by
  rw [State.call, hpos]
  dsimp only
  have hnamed : ∀ name, (desiredDataSource i written).source = .snapshot name →
      name = i.name ∧ s.cluster.Usable i.name ∧ s.cluster.Marked i i.name := by
    intro name hname
    rw [desiredDataSource] at hname
    split at hname
    · next hne =>
      obtain rfl := DataSourceSource.snapshot.inj hname
      exact h.point written hpos hne
    · contradiction
  refine ⟨.of_plain rfl fun ds hds _ => ?_, fun _ => ?_, fun _ name _ hnames => ?_⟩
  · obtain rfl := some.inj hds
    rfl
  · rintro ⟨name, ⟨ds, hds, hname⟩, hno⟩
    obtain rfl := some.inj hds
    obtain ⟨rfl, husable, -⟩ := hnamed name hname
    exact hno husable
  · obtain ⟨ds, hds, hname⟩ := hnames
    obtain rfl := some.inj hds
    obtain ⟨rfl, -, hmarked⟩ := hnamed name hname
    exact hmarked

theorem Inv.findSource (h : Inv i s) (hpos : s.pos = .findSource) :
    Inv i (s.call isQuantity i) ∧ Safe i s (s.call isQuantity i) := by
  have hs : ∀ written, s.pos ≠ .point written := by
    intro written hno
    rw [hpos] at hno
    contradiction
  have hgoes : ¬ s.cluster.Names i.name →
      Inv i { s with pos := .findSnapshot } ∧ Safe i s { s with pos := .findSnapshot } :=
    fun hno => ⟨⟨h.owner, fun name hno => by contradiction, fun _ => hno⟩, .of_same rfl rfl hs⟩
  rw [State.call, hpos]
  dsimp only
  split
  · next hnone =>
    refine hgoes ?_
    rintro ⟨ds, hds, -⟩
    rw [hnone] at hds
    contradiction
  · next ds hds =>
    split
    · next hother =>
      refine hgoes ?_
      rintro ⟨found, hfound, hnames⟩
      obtain rfl := mem_unique hds hfound
      exact hother (h.owner ds hds hnames)
    · exact h.reads hs rfl rfl

theorem Inv.call (isQuantity : String → Bool) (h : Inv i s) (hcalm : Calm i s .call) :
    Inv i (s.call isQuantity i) ∧ Safe i s (s.call isQuantity i) := by
  by_cases hpoint : ∃ written, s.pos = .point written
  · obtain ⟨written, hpos⟩ := hpoint
    exact h.point_call hpos
  have hs : ∀ written, s.pos ≠ .point written := fun written hpos => hpoint ⟨written, hpos⟩
  cases hpos : s.pos with
  | point written => exact absurd hpos (hs written)
  | take claim snapshotClass => exact h.take hpos
  | findSource => exact h.findSource hpos
  | snapshot claim snapshotClass =>
    have hfound := h.findSnapshot hpos hcalm
    rw [State.call, hpos]
    exact hfound
  | idle =>
    rw [State.call, hpos]
    dsimp only
    split
    · exact ⟨h, .of_same rfl rfl hs⟩
    · exact h.begin hs _
  | disk =>
    rw [State.call, hpos]
    exact h.findDataVolume hs
  | choose dv =>
    rw [State.call, hpos]
    dsimp only
    split
    · exact h.reads hs rfl rfl
    split
    · exact h.reads hs rfl rfl
    · exact h.reads hs rfl rfl
  | claim =>
    rw [State.call, hpos]
    dsimp only
    split
    · exact h.reads hs rfl rfl
    · exact h.reads hs rfl rfl
  | classFor claim =>
    rw [State.call, hpos]
    dsimp only
    split
    · exact h.reads hs rfl rfl
    · exact h.reads hs rfl rfl
  | retake =>
    rw [State.call, hpos]
    exact h.erase hs (h.remove (.inl hpos)) rfl rfl
  | dropSource =>
    rw [State.call, hpos]
    refine ⟨⟨fun ds hno => by contradiction, fun name hno => by contradiction, fun _ => ?_⟩,
      fun _ => ?_, fun written name hno => absurd (hpos.symm.trans hno) nofun⟩
    · rintro ⟨ds, hno, -⟩
      contradiction
    · rintro ⟨name, ⟨ds, hno, -⟩, -⟩
      contradiction
  | findSnapshot =>
    rw [State.call, hpos]
    dsimp only
    split
    · exact h.reads hs rfl rfl
    split
    · exact h.reads hs rfl rfl
    split
    · exact h.reads hs rfl rfl
    · exact ⟨⟨h.owner, fun name hno => by contradiction,
        fun _ => h.remove (.inr (.inl hpos))⟩, .of_same rfl rfl hs⟩
  | dropSnapshot =>
    rw [State.call, hpos]
    exact h.erase hs (h.remove (.inr (.inr hpos))) rfl rfl
  | findDisk name =>
    rw [State.call, hpos]
    dsimp only
    split
    · exact h.reads hs rfl rfl
    split
    · exact h.reads hs rfl rfl
    · exact h.reads hs rfl rfl
  | _ =>
    -- the image or its disk is written
    rw [State.call, hpos]
    exact ⟨.of_plain rfl h.owner, .of_same rfl rfl hs⟩

end Calls

section Runs

variable {s t start : State}

theorem lookup_put (m : AList fun _ : String => α) (name : String) (a : Option α) :
    (put m name a).lookup name = a := by
  cases a with
  | none => exact lookup_erase name m
  | some a => exact lookup_insert m

theorem lookup_put_ne {m : AList fun _ : String => α} {name other : String} (h : other ≠ name)
    (a : Option α) : (put m name a).lookup other = m.lookup other := by
  cases a with
  | none => exact lookup_erase_ne h
  | some a => exact lookup_insert_ne h

theorem Inv.kept (h : Inv i s) {c : Cluster} (hsource : c.dataSource = s.cluster.dataSource)
    (hsnapshot : ∀ written, s.pos = .point written → written ≠ "" →
      (c.snapshots.lookup i.name).map VolumeSnapshot.marks =
        (s.cluster.snapshots.lookup i.name).map VolumeSnapshot.marks)
    (hclaim : ∀ written, s.pos = .point written → written ≠ "" →
      (c.claims.lookup i.disk).map Claim.uid = (s.cluster.claims.lookup i.disk).map Claim.uid) :
    Inv i { s with cluster := c } where
  owner := fun ds hds => h.owner ds (hsource ▸ hds)
  point := by
    intro name hpos hne
    obtain ⟨hname, ⟨snapshot, hlookup, hready⟩, ⟨marked, claim, hmarked, howner, hbehind, huid⟩⟩ :=
      h.point name hpos hne
    obtain rfl := mem_unique hlookup hmarked
    have hmarks := hsnapshot name hpos hne
    rw [hlookup, map_some] at hmarks
    obtain ⟨found, hfound, hsame⟩ := map_eq_some_iff.mp hmarks
    obtain ⟨howner', hrest⟩ := Prod.ext_iff.mp hsame
    obtain ⟨huid', hready'⟩ := Prod.ext_iff.mp hrest
    have huids := hclaim name hpos hne
    rw [hbehind, map_some] at huids
    obtain ⟨now, hnow, hnowUID⟩ := map_eq_some_iff.mp huids
    exact ⟨hname, ⟨found, hfound, hready'.trans hready⟩, found, now, hfound,
      howner'.trans howner, hnow, huid'.trans (huid.trans hnowUID.symm)⟩
  remove := by
    intro hpos
    rintro ⟨ds, hds, hnames⟩
    exact h.remove hpos ⟨ds, hsource ▸ hds, hnames⟩

theorem Inv.change (h : Inv i s) {change : Change} (hcalm : Calm i s (.change change)) :
    Inv i { s with cluster := s.cluster.change change } := by
  cases change with
  | claim name claim =>
    refine h.kept rfl (fun _ _ _ => rfl) fun written hpos hne => ?_
    by_cases hname : i.disk = name
    · subst hname
      rw [Cluster.change, lookup_put]
      exact hcalm written hpos hne rfl
    · rw [Cluster.change, lookup_put_ne hname]
  | snapshot name snapshot =>
    refine h.kept rfl (fun written hpos hne => ?_) fun _ _ _ => rfl
    by_cases hname : i.name = name
    · subst hname
      rw [Cluster.change, lookup_put]
      exact hcalm written hpos hne rfl
    · rw [Cluster.change, lookup_put_ne hname]
  | dataSource ds =>
    have hother : ∀ found, ds = some found → found.source ≠ .snapshot i.name := by
      rintro found rfl hsource
      exact hcalm (congrArg some hsource)
    refine ⟨fun found hfound hsource => absurd hsource (hother found hfound), h.point, fun _ => ?_⟩
    rintro ⟨found, hfound, hsource⟩
    exact hother found hfound hsource
  | _ => exact h.kept rfl (fun _ _ _ => rfl) fun _ _ _ => rfl

theorem Inv.step (h : Inv i s) {e : Event} (hcalm : Calm i s e)
    (hstep : s.step isQuantity i e = some t) : Inv i t := by
  cases e with
  | call =>
    obtain rfl := some.inj hstep
    exact (h.call isQuantity hcalm).1
  | fail =>
    obtain rfl := some.inj hstep
    exact .of_plain rfl h.owner
  | change change =>
    obtain rfl := some.inj hstep
    exact h.change hcalm

/-- The image has no `DataSource` yet, and no pass is under way. -/
structure Begins (s : State) : Prop where
  pos : s.pos = .idle
  dataSource : s.cluster.dataSource = none

theorem Begins.inv (h : Begins start) : Inv i start := by
  refine .of_plain (by rw [h.pos]; rfl) fun ds hds => ?_
  rw [h.dataSource] at hds
  contradiction

/-- In a run whose steps are calm, no call makes the `DataSource` dangle, and it names a snapshot
only with the marks of the image and of its claim. -/
theorem dataSource_safe (h : Begins start)
    (hrun : Machine.Run (State.step isQuantity i) (Calm i) start s) (hcalm : Calm i s .call)
    (hcall : s.step isQuantity i .call = some t) : Safe i s t := by
  have hinv : Inv i s := hrun.invariant h.inv fun hinv hcalm hstep => hinv.step hcalm hstep
  obtain rfl := some.inj hcall
  exact (hinv.call isQuantity hcalm).2

end Runs

def ManagedImage.golden : ManagedImage where
  name := "golden"
  uid := "image-1"
  source := some "https://images.example/golden.qcow2"
  size := "10Gi"

/-- The disk is imported, and its storage takes snapshots. -/
def State.imported : State where
  cluster :=
    { image := some { finalizer := true }
      disks := AList.insert "golden" { ownerUID := "image-1", phase := "Succeeded" } ∅
      claims := AList.insert "golden" ⟨"claim-1", some "rbd"⟩ ∅
      profiles := AList.insert "rbd" { snapshotClass := some "rbd-snapshots" } ∅ }

theorem begins_imported : Begins State.imported := ⟨rfl, rfl⟩

/-- The snapshot that there is gets ready between passes, and is of the claim that there is. -/
def quiet (i : ManagedImage) (s : State) : Event → Bool
  | .call => match s.pos with
    | .snapshot claim _ => (s.cluster.snapshots.lookup i.name).all (·.sourceClaimUID = claim.uid) &&
        (s.cluster.claims.lookup i.disk).map Claim.uid = some claim.uid
    | _ => true
  | .fail => true
  | .change (.snapshot _ _) => s.pos = .idle
  | .change _ => false

theorem calm_of_quiet {s : State} {e : Event} (h : quiet i s e = true) : Calm i s e := by
  cases e with
  | call =>
    intro claim snapshotClass snapshot hpos hsnapshot _
    rw [quiet, hpos, Bool.and_eq_true, hsnapshot, all_some] at h
    rw [if_neg (not_not.mpr (of_decide_eq_true h.1))]
    exact of_decide_eq_true h.2
  | fail => trivial
  | change change =>
    cases change with
    | snapshot name snapshot =>
      intro written hpos
      rw [quiet, hpos] at h
      contradiction
    | _ => contradiction

/-- A snapshot is taken, gets ready, and is named. -/
theorem dataSource_safe_golden : ∃ s t, Safe .golden s t ∧ t.cluster.Names "golden" := by
  have hplay : (Machine.play (State.step (fun _ => true) .golden)
      (fun s e => quiet .golden s e = true) State.imported
      (List.replicate 10 .call ++ .change (.snapshot "golden" (some
          { ownerUID := "image-1", sourceClaimUID := "claim-1", readyToUse := true })) ::
        List.replicate 7 .call)).any (fun s => s.pos = .point "golden") = true := by
    decide +kernel
  obtain ⟨s, hrun, hs⟩ := Machine.exists_run_of_play _ hplay
  have hpos : s.pos = .point "golden" := of_decide_eq_true hs
  have hcalm : Calm .golden s .call := by
    intro claim snapshotClass snapshot hno
    rw [hpos] at hno
    contradiction
  refine ⟨s, _, dataSource_safe begins_imported (hrun.mono fun u e => calm_of_quiet) hcalm rfl, ?_⟩
  rw [State.call, hpos]
  exact ⟨_, rfl, rfl⟩

/-- The claim is replaced when the `DataSource` names its snapshot. The next pass removes the
snapshot before it writes the `DataSource`. -/
theorem not_dataSource_safe :
    ¬ ∀ (isQuantity : String → Bool) (i : ManagedImage) (start s t : State), Begins start →
      Machine.Run (State.step isQuantity i) (fun _ _ => True) start s →
      s.step isQuantity i .call = some t → Safe i s t := by
  intro hall
  have hplay : (Machine.play (State.step (fun _ => true) .golden) (fun _ _ => True) State.imported
      (List.replicate 10 .call ++ .change (.snapshot "golden" (some
          { ownerUID := "image-1", sourceClaimUID := "claim-1", readyToUse := true })) ::
        List.replicate 9 .call ++ .change (.claim "golden" (some ⟨"claim-2", some "rbd"⟩)) ::
        List.replicate 7 .call)).any (fun s => s.pos = .retake ∧
          s.cluster.dataSource = some ⟨"image-1", .snapshot "golden"⟩ ∧
          (s.cluster.snapshots.lookup "golden").any (·.readyToUse)) = true := by
    decide +kernel
  obtain ⟨s, hrun, hs⟩ := Machine.exists_run_of_play _ hplay
  obtain ⟨hpos, hsource, hready⟩ := of_decide_eq_true hs
  obtain ⟨snapshot, hsnapshot, hready⟩ := (any_eq_true _ _).mp hready
  have hsafe := hall (fun _ => true) .golden State.imported s _ begins_imported hrun rfl
  refine hsafe.resolves ⟨_, hsource, fun name hname => ?_⟩ ⟨"golden", ?_, ?_⟩
  · obtain rfl := DataSourceSource.snapshot.inj hname
    exact ⟨snapshot, hsnapshot, hready⟩
  · rw [State.call, hpos]
    exact ⟨_, hsource, rfl⟩
  · rw [State.call, hpos]
    rintro ⟨found, hfound, -⟩
    have hgone : (s.cluster.snapshots.erase "golden").lookup "golden" = none :=
      lookup_erase _ _
    exact absurd (hgone.symm.trans hfound) nofun

end Images
