import KubevirtUi.Disks.Namespace

/-!
# Where holders and mounts agree

A claim puts the labels of its machine on a disk, and a release takes them off; neither touches
what another holds. A machine mounts what it has claimed, and releases what it has dropped. So as
long as volumes are named like their claims, what it mounts is its own, and what it holds is
declared or on record.
-/

namespace Disks

open List AList
open Option hiding mem_map

variable {holder other : Holder} {disks disks' disks'' : DataVolumes} {claim : String}
  {spec : List DiskAttachment} {l : List String}

/-- Only labels of these disks have changed, none that another machine's were on, and they are now
as `P` says. -/
def Changes (holder : Holder) (P : Labels → Prop) (l : List String) (disks disks' : DataVolumes) :
    Prop :=
  ∀ claim, disks'.lookup claim = disks.lookup claim ∨
    claim ∈ l ∧ ∃ labels labels', disks.lookup claim = some labels ∧
      disks'.lookup claim = some labels' ∧
      (∀ other : Holder, HeldBy labels other.name other.uid → other.uid = holder.uid) ∧ P labels'

def Claimed (holder : Holder) (labels : Labels) : Prop := HeldBy labels holder.name holder.uid

def Freed (labels : Labels) : Prop := labels.get attachedToLabel = ""

def Own (holder : Holder) (labels : Labels) : Prop := Claimed holder labels ∨ Freed labels

section Changes

variable {P Q : Labels → Prop}

theorem Changes.refl : Changes holder P l disks disks := fun _ => .inl rfl

section

variable (h : Changes holder P l disks disks')

include h

theorem Changes.trans (h' : Changes holder P l disks' disks'') :
    Changes holder P l disks disks'' := by
  intro claim
  obtain hsame' | ⟨hl, labels', labels'', hlookup', hlookup'', hown', hP⟩ := h' claim
  · obtain hsame | ⟨hl, labels, labels', hlookup, hlookup', hown, hP⟩ := h claim
    · exact .inl (hsame'.trans hsame)
    · exact .inr ⟨hl, labels, labels', hlookup, hsame'.trans hlookup', hown, hP⟩
  · obtain hsame | ⟨-, labels, -, hlookup, -, hown, -⟩ := h claim
    · exact .inr ⟨hl, labels', labels'', hsame.symm.trans hlookup', hlookup'', hown', hP⟩
    · exact .inr ⟨hl, labels, labels'', hlookup, hlookup'', hown, hP⟩

theorem Changes.mono {l' : List String} (hP : ∀ labels, P labels → Q labels)
    (hl : ∀ claim ∈ l, claim ∈ l') : Changes holder Q l' disks disks' := by
  intro claim
  obtain hsame | ⟨hmem, labels, labels', hlookup, hlookup', hown, hlabels⟩ := h claim
  · exact .inl hsame
  · exact .inr ⟨hl claim hmem, labels, labels', hlookup, hlookup', hown, hP labels' hlabels⟩

theorem Changes.mem_iff : claim ∈ disks' ↔ claim ∈ disks := by
  rw [← lookup_isSome, ← lookup_isSome]
  obtain hsame | ⟨-, labels, labels', hlookup, hlookup', -⟩ := h claim
  · rw [hsame]
  · rw [hlookup, hlookup']
    rfl

theorem Changes.heldIn_other (hother : other.uid ≠ holder.uid) (hheld : HeldIn disks claim other) :
    HeldIn disks' claim other := by
  obtain ⟨labels, hlookup, hlabels⟩ := hheld
  obtain hsame | ⟨-, old, -, hold, -, hown, -⟩ := h claim
  · exact ⟨labels, hsame.trans hlookup, hlabels⟩
  · obtain rfl := mem_unique hlookup hold
    exact absurd (hown other hlabels) hother

end

theorem Changes.heldIn_of_other (h : Changes holder (Own holder) l disks disks')
    (hother : other.uid ≠ holder.uid) (hheld : HeldIn disks' claim other) :
    HeldIn disks claim other := by
  obtain ⟨labels, hlookup, hlabels⟩ := hheld
  obtain hsame | ⟨-, -, labels', -, hlookup', -, hclaimed | hfreed⟩ := h claim
  · exact ⟨labels, hsame.symm.trans hlookup, hlabels⟩
  · obtain rfl := mem_unique hlookup hlookup'
    exact absurd (hlabels.uid.symm.trans hclaimed.uid) hother
  · obtain rfl := mem_unique hlookup hlookup'
    exact absurd (hlabels.name.symm.trans hfreed) other.name_ne

theorem Changes.heldIn_of_notMem (h : Changes holder P l disks disks') (hl : claim ∉ l)
    (hheld : HeldIn disks claim other) : HeldIn disks' claim other := by
  obtain ⟨labels, hlookup, hlabels⟩ := hheld
  obtain hsame | ⟨hmem, -⟩ := h claim
  · exact ⟨labels, hsame.trans hlookup, hlabels⟩
  · exact absurd hmem hl

theorem Changes.heldIn_claimed (h : Changes holder (Claimed holder) l disks disks')
    (hheld : HeldIn disks claim holder) : HeldIn disks' claim holder := by
  obtain ⟨labels, hlookup, hlabels⟩ := hheld
  obtain hsame | ⟨-, -, labels', -, hlookup', -, hclaimed⟩ := h claim
  · exact ⟨labels, hsame.trans hlookup, hlabels⟩
  · exact ⟨labels', hlookup', hclaimed⟩

theorem Changes.not_heldIn_freed (h : Changes holder Freed l disks disks')
    (hheld : ¬ HeldIn disks claim other) : ¬ HeldIn disks' claim other := by
  rintro ⟨labels, hlookup, hlabels⟩
  obtain hsame | ⟨-, -, labels', -, hlookup', -, hfreed⟩ := h claim
  · exact hheld ⟨labels, hsame.symm.trans hlookup, hlabels⟩
  · obtain rfl := mem_unique hlookup hlookup'
    exact other.name_ne (hlabels.name.symm.trans hfreed)

end Changes

variable {labels labels' : Labels} {ds : List DiskAttachment}

variable {d : DiskAttachment} {it : Iteration} {vm : VirtualMachine}

section Claims

variable {claims : Claims}

theorem uid_eq_of_claimDisk_update (h : claimDisk labels holder = .update labels')
    (hheld : HeldBy labels other.name other.uid) : other.uid = holder.uid := by
  by_contra hother
  have hrefused := claimDisk_eq_refused hheld other.name_ne other.uid_ne hother
  rw [hrefused] at h
  contradiction

theorem changes_claim (claims : Claims) (holder : Holder) (d : DiskAttachment) :
    Changes holder (Claimed holder) [d.claim] claims.disks (claims.claim holder d).disks := by
  intro claim
  rw [Claims.claim]
  split
  · exact .inl rfl
  · next labels hlookup =>
    split
    · exact .inl rfl
    · exact .inl rfl
    · next labels' hupdate =>
      by_cases hclaim : claim = d.claim
      · subst hclaim
        exact .inr ⟨mem_singleton_self _, labels, labels', hlookup, lookup_insert _,
          fun other => uid_eq_of_claimDisk_update hupdate, heldBy_of_claimDisk_update hupdate⟩
      · exact .inl (lookup_insert_ne hclaim)

theorem heldIn_of_mem_toAttach_claim {e : DiskAttachment}
    (hsofar : e ∈ claims.toAttach → e.claim ∈ claims.disks → HeldIn claims.disks e.claim holder)
    (h : e ∈ (claims.claim holder d).toAttach) (hdisk : e.claim ∈ (claims.claim holder d).disks) :
    HeldIn (claims.claim holder d).disks e.claim holder := by
  have hchanges := changes_claim claims holder d
  have hold : e ∈ claims.toAttach → HeldIn (claims.claim holder d).disks e.claim holder :=
    fun hmem => hchanges.heldIn_claimed (hsofar hmem (hchanges.mem_iff.mp hdisk))
  rw [hchanges.mem_iff] at hdisk
  revert h hold
  rw [Claims.claim]
  split
  · next hnone =>
    intro h hold
    obtain hmem | hsame := mem_append.mp h
    · exact hold hmem
    · obtain rfl := mem_singleton.mp hsame
      rw [← lookup_isSome, hnone] at hdisk
      contradiction
  · next labels hlookup =>
    split
    · next hfinished =>
      intro h hold
      obtain hmem | hsame := mem_append.mp h
      · exact hold hmem
      · obtain rfl := mem_singleton.mp hsame
        exact ⟨labels, hlookup, heldBy_of_claimDisk_finished hfinished⟩
    · exact fun h hold => hold h
    · next labels' hupdate =>
      intro h hold
      obtain hmem | hsame := mem_append.mp h
      · exact hold hmem
      · obtain rfl := mem_singleton.mp hsame
        exact ⟨labels', lookup_insert _, heldBy_of_claimDisk_update hupdate⟩

theorem changes_claimEach : Changes holder (Claimed holder) (ds.map DiskAttachment.claim) disks
      (claimEach holder disks ds).disks := by
  suffices hall : ∀ claims : Claims, Changes holder (Claimed holder) (ds.map DiskAttachment.claim)
      claims.disks (ds.foldl (·.claim holder) claims).disks from hall { disks }
  induction ds with
  | nil => exact fun _ => .refl
  | cons d ds ih =>
    intro claims
    have hfirst : Changes holder (Claimed holder) ((d :: ds).map DiskAttachment.claim)
        claims.disks (claims.claim holder d).disks :=
      (changes_claim claims holder d).mono (fun _ => id) fun c hc =>
        mem_cons.mpr (.inl (mem_singleton.mp hc))
    exact hfirst.trans ((ih _).mono (fun _ => id) fun c hc => mem_cons_of_mem _ hc)

theorem heldIn_of_mem_toAttach (h : d ∈ (claimEach holder disks ds).toAttach)
    (hdisk : d.claim ∈ disks) : HeldIn (claimEach holder disks ds).disks d.claim holder := by
  suffices hall : ∀ claims : Claims,
      (d ∈ claims.toAttach → d.claim ∈ claims.disks → HeldIn claims.disks d.claim holder) →
      d ∈ (ds.foldl (·.claim holder) claims).toAttach →
      d.claim ∈ (ds.foldl (·.claim holder) claims).disks →
      HeldIn (ds.foldl (·.claim holder) claims).disks d.claim holder from
    hall { disks } (fun hnone => absurd hnone not_mem_nil) h
      (changes_claimEach.mem_iff.mpr hdisk)
  clear h hdisk
  induction ds with
  | nil => exact fun claims hsofar h hdisk => hsofar h hdisk
  | cons e ds ih =>
    intro claims hsofar h hdisk
    exact ih (claims.claim holder e) (heldIn_of_mem_toAttach_claim hsofar) h hdisk

end Claims

section Releases

/-- A release that writes has found nobody's labels but its own, and takes them off. -/
theorem freed_of_releaseDisk_update (h : releaseDisk labels holder = .update labels') :
    Freed labels' := by
  rw [releaseDisk] at h
  split at h
  · contradiction
  · split at h
    · contradiction
    · split at h
      · contradiction
      · obtain rfl := Decision.update.inj h
        rw [Freed, Labels.get_erase_ne attachedToLabel_ne, Labels.get_erase]

theorem uid_eq_of_releaseDisk_update (h : releaseDisk labels holder = .update labels')
    (hheld : HeldBy labels other.name other.uid) : other.uid = holder.uid := by
  by_contra hother
  have hfinished := releaseDisk_eq_finished hheld other.uid_ne hother
  rw [hfinished] at h
  contradiction

theorem exists_releaseDisk_eq_update (h : Claimed holder labels) :
    ∃ labels', releaseDisk labels holder = .update labels' := by
  rw [releaseDisk, h.name, h.uid, if_neg holder.name_ne, if_neg (not_not.mpr rfl), if_neg (by simp)]
  exact ⟨_, rfl⟩

theorem changes_release : Changes holder Freed [claim] disks (release holder disks claim) := by
  intro c
  rw [release]
  split
  · exact .inl rfl
  · next labels hlookup =>
    split
    · next labels' hupdate =>
      by_cases hclaim : c = claim
      · subst hclaim
        exact .inr ⟨mem_singleton_self _, labels, labels', hlookup, lookup_insert _,
          fun other => uid_eq_of_releaseDisk_update hupdate, freed_of_releaseDisk_update hupdate⟩
      · exact .inl (lookup_insert_ne hclaim)
    · exact .inl rfl

theorem not_heldIn_release : ¬ HeldIn (release holder disks claim) claim holder := by
  rintro ⟨labels, hlookup, hlabels⟩
  rw [release] at hlookup
  split at hlookup
  · next hnone =>
    rw [hnone] at hlookup
    contradiction
  · next old hold =>
    split at hlookup
    · next labels' hupdate =>
      obtain rfl := mem_unique (lookup_insert _) hlookup
      exact holder.name_ne (hlabels.name.symm.trans (freed_of_releaseDisk_update hupdate))
    · next hno =>
      obtain rfl := mem_unique hold hlookup
      obtain ⟨labels', hupdate⟩ := exists_releaseDisk_eq_update hlabels
      exact hno labels' hupdate

theorem changes_releases : Changes holder Freed l disks (l.foldl (release holder) disks) := by
  induction l generalizing disks with
  | nil => exact .refl
  | cons c l ih =>
    have hfirst : Changes holder Freed (c :: l) disks (release holder disks c) :=
      changes_release.mono (fun _ => id) fun _ hc =>
        mem_cons.mpr (.inl (mem_singleton.mp hc))
    exact hfirst.trans (ih.mono (fun _ => id) fun _ hc => mem_cons_of_mem _ hc)

theorem not_heldIn_releases (h : claim ∈ l) :
    ¬ HeldIn (l.foldl (release holder) disks) claim holder := by
  induction l generalizing disks with
  | nil => contradiction
  | cons c l ih =>
    obtain rfl | hmem := mem_cons.mp h
    · exact (changes_releases (l := l)).not_heldIn_freed not_heldIn_release
    · exact ih hmem

end Releases

section Pass

variable {attached : List String} {n : Nat}

theorem claim_mem_of_mem_toClaim (h : d ∈ toClaim it spec vm) :
    d.claim ∈ spec.map DiskAttachment.claim :=
  mem_map_of_mem (mem_of_lookup_desired (mem_toClaim.mp h).1).1

theorem Plain.mem_desired_iff (h : Plain spec) :
    claim ∈ desired spec ↔ claim ∈ spec.map DiskAttachment.claim := by
  rw [Disks.mem_desired_iff, mem_map]
  constructor
  · rintro ⟨d, hd, rfl⟩
    exact ⟨d, hd, (h d hd).symm⟩
  · rintro ⟨d, hd, rfl⟩
    exact ⟨d, hd, h d hd⟩

theorem changes_claiming (holder : Holder) (disks : DataVolumes) (it : Iteration)
    (spec : List DiskAttachment) (vm : VirtualMachine) (n : Nat) : Changes holder (Claimed holder)
    (spec.map DiskAttachment.claim) disks
    (claimEach holder disks ((toClaim it spec vm).take n)).disks := by
  refine changes_claimEach.mono (fun _ => id) fun c hc => ?_
  obtain ⟨d, hd, rfl⟩ := mem_map.mp hc
  exact claim_mem_of_mem_toClaim (mem_of_mem_take hd)

theorem Claimed.own (h : Claimed holder labels) : Own holder labels := .inl h

theorem Freed.own (h : Freed labels) : Own holder labels := .inr h

theorem mountsDeclared_changed {toAttach : List DiskAttachment} {toDetach : List String}
    (h : (changed vm toAttach toDetach).MountsDeclared spec claim) :
    vm.MountsDeclared spec claim ∨ ∃ d ∈ toAttach, d.claim = claim := by
  obtain ⟨d, hd, hclaim, v, hv, hname, hmounts⟩ := h
  rw [volumes_changed] at hv
  obtain hold | hnew := mem_append.mp hv
  · exact .inl ⟨d, hd, hclaim, v, (Keyed.mem_drop.mp hold).1, hname, hmounts⟩
  · obtain ⟨e, he, rfl⟩ := mem_map.mp hnew
    exact .inr ⟨e, he, Volume.Mounts.unique (.inl ⟨true, rfl⟩) hmounts⟩

theorem heldIn_of_mountsDeclared_changed (hplain : Plain spec)
    (hsound : ∀ claim ∈ disks, vm.MountsDeclared spec claim → HeldIn disks claim holder)
    (hl : ∀ c ∈ l, c ∉ desired spec) (hdisk : claim ∈ disks)
    (h : (changed vm (claimEach holder disks (toClaim it spec vm)).toAttach
      (toDetach spec attached vm)).MountsDeclared spec claim) :
    HeldIn (l.foldl (release holder) (claimEach holder disks (toClaim it spec vm)).disks) claim
      holder := by
  have hdeclared : claim ∈ desired spec := by
    obtain ⟨d, hd, hclaim, -⟩ := h
    exact hplain.mem_desired_iff.mpr (mem_map.mpr ⟨d, hd, hclaim⟩)
  have hclaimed : HeldIn (claimEach holder disks (toClaim it spec vm)).disks claim holder := by
    obtain hold | ⟨d, hd, rfl⟩ := mountsDeclared_changed h
    · exact changes_claimEach.heldIn_claimed (hsound claim hdisk hold)
    · exact heldIn_of_mem_toAttach hd hdisk
  exact changes_releases.heldIn_of_notMem (fun hmem => hl claim hmem hdeclared) hclaimed

end Pass

/-- What holds of every machine. -/
structure Fine (s : Namespace) (name : String) (m : ManagedVM) : Prop where
  keyed : m.holder.name = name
  known : m.holder.uid ∈ s.uids
  plain : Plain m.disks
  sound : ∀ claim, s.Mounts m claim → HeldIn s.disks claim m.holder
  kept : ∀ claim, HeldIn s.disks claim m.holder →
    claim ∈ m.disks.map DiskAttachment.claim ∨ claim ∈ m.attached

structure Orderly (s : Namespace) : Prop where
  fine : ∀ name m, s.machines.lookup name = some m → Fine s name m
  apart : ∀ name₁ m₁ name₂ m₂, s.machines.lookup name₁ = some m₁ →
    s.machines.lookup name₂ = some m₂ → m₁.holder.uid = m₂.holder.uid → name₁ = name₂
  owners : ∀ name found, s.vms.lookup name = some found →
    found.owner = "" ∨ found.owner ∈ s.uids
  labelled : ∀ claim labels, s.disks.lookup claim = some labels → ¬ Freed labels →
    ∃ name m, s.machines.lookup name = some m ∧ Claimed m.holder labels

section Steps

variable {s s' : Namespace} {name : String} {m m' : ManagedVM} {outcome : Outcome}

/-- A step at one name, that takes nothing from the machines of other names. -/
structure Local (s s' : Namespace) (name : String) : Prop where
  machines : ∀ other, other ≠ name → s'.machines.lookup other = s.machines.lookup other
  vms : ∀ other, other ≠ name → s'.vms.lookup other = s.vms.lookup other
  uids : ∀ uid ∈ s.uids, uid ∈ s'.uids
  owner : ∀ found, s'.vms.lookup name = some found → found.owner = "" ∨ found.owner ∈ s'.uids
  held : ∀ other m, other ≠ name → s.machines.lookup other = some m → ∀ claim,
    HeldIn s'.disks claim m.holder ↔ HeldIn s.disks claim m.holder
  disks : ∀ claim, claim ∈ s'.disks ↔ claim ∈ s.disks

theorem Local.fine {other : String} (hlocal : Local s s' name) (hother : other ≠ name)
    (hm : s.machines.lookup other = some m) (h : Fine s other m) : Fine s' other m where
  keyed := h.keyed
  known := hlocal.uids _ h.known
  plain := h.plain
  sound := by
    rintro claim ⟨hdisk, found, hfound, hmounts⟩
    have hbefore : s.Mounts m claim := by
      refine ⟨(hlocal.disks claim).mp hdisk, found, ?_, hmounts⟩
      rw [h.keyed, hlocal.vms other hother] at hfound
      rwa [h.keyed]
    exact (hlocal.held other m hother hm claim).mpr (h.sound claim hbefore)
  kept := fun claim hheld => h.kept claim ((hlocal.held other m hother hm claim).mp hheld)

/-- So it is enough to look at the machine of the name, and at what is on the disks. -/
theorem Orderly.of_local (hinv : Orderly s) (name : String) (hlocal : Local s s' name)
    (hown : ∀ m, s'.machines.lookup name = some m → Fine s' name m ∧
      ∀ other m', other ≠ name → s.machines.lookup other = some m' →
        m'.holder.uid ≠ m.holder.uid)
    (hlabelled : ∀ claim labels, s'.disks.lookup claim = some labels → ¬ Freed labels →
      ∃ name m, s'.machines.lookup name = some m ∧ Claimed m.holder labels) : Orderly s' := by
  have hback : ∀ {other m}, other ≠ name → s'.machines.lookup other = some m →
      s.machines.lookup other = some m :=
    fun hother hm => (hlocal.machines _ hother).symm.trans hm
  constructor
  · intro other m hm
    by_cases hother : other = name
    · subst hother
      exact (hown m hm).1
    · exact hlocal.fine hother (hback hother hm) (hinv.fine other m (hback hother hm))
  · intro name₁ m₁ name₂ m₂ h₁ h₂ huid
    by_cases hname₁ : name₁ = name
    · by_cases hname₂ : name₂ = name
      · rw [hname₁, hname₂]
      · subst hname₁
        exact absurd huid.symm ((hown m₁ h₁).2 name₂ m₂ hname₂ (hback hname₂ h₂))
    · by_cases hname₂ : name₂ = name
      · subst hname₂
        exact absurd huid ((hown m₂ h₂).2 name₁ m₁ hname₁ (hback hname₁ h₁))
      · exact hinv.apart name₁ m₁ name₂ m₂ (hback hname₁ h₁) (hback hname₂ h₂) huid
  · intro other found hfound
    by_cases hother : other = name
    · subst hother
      exact hlocal.owner found hfound
    · rw [hlocal.vms other hother] at hfound
      exact (hinv.owners other found hfound).imp_right (hlocal.uids _)
  · exact hlabelled

theorem Orderly.of_changes (hinv : Orderly s) (hm : s.machines.lookup name = some m)
    (hchanges : Changes m.holder (Own m.holder) l s.disks s'.disks)
    (hmachines : ∀ other, other ≠ name → s'.machines.lookup other = s.machines.lookup other)
    (hvms : ∀ other, other ≠ name → s'.vms.lookup other = s.vms.lookup other)
    (huids : s'.uids = s.uids) (howner : ∀ found, s'.vms.lookup name = some found →
      found.owner = m.holder.uid ∨ s.vms.lookup name = some found)
    (hstays : ∀ m', s'.machines.lookup name = some m' → m'.holder = m.holder ∧ Plain m'.disks ∧
      (∀ claim, s'.Mounts m' claim → HeldIn s'.disks claim m.holder) ∧
      ∀ claim, HeldIn s'.disks claim m.holder →
        claim ∈ m'.disks.map DiskAttachment.claim ∨ claim ∈ m'.attached)
    (hgoes : s'.machines.lookup name = none → ∀ claim, ¬ HeldIn s'.disks claim m.holder) :
    Orderly s' := by
  have hapart : ∀ {other m'}, other ≠ name → s.machines.lookup other = some m' →
      m'.holder.uid ≠ m.holder.uid :=
    fun hother hm' huid => hother (hinv.apart _ _ _ _ hm' hm huid)
  have hlocal : Local s s' name := by
    refine ⟨hmachines, hvms, fun uid hu => huids ▸ hu, fun found hfound => ?_, ?_,
      fun claim => hchanges.mem_iff⟩
    · rw [huids]
      obtain hown | hold := howner found hfound
      · exact .inr (hown ▸ (hinv.fine name m hm).known)
      · exact hinv.owners name found hold
    · exact fun other m' hother hm' claim =>
        ⟨hchanges.heldIn_of_other (hapart hother hm'), hchanges.heldIn_other (hapart hother hm')⟩
  -- the labels of the machine are those of one that is still there
  have hheld : ∀ claim labels, s'.disks.lookup claim = some labels → Claimed m.holder labels →
      ∃ name m, s'.machines.lookup name = some m ∧ Claimed m.holder labels := by
    intro claim labels hlookup hclaimed
    cases hm' : s'.machines.lookup name with
    | none => exact absurd ⟨labels, hlookup, hclaimed⟩ (hgoes hm' claim)
    | some m' => exact ⟨name, m', hm', (hstays m' hm').1 ▸ hclaimed⟩
  refine hinv.of_local name hlocal (fun m' hm' => ?_) fun claim labels hlookup hfreed => ?_
  · obtain ⟨hholder, hplain, hsound, hkept⟩ := hstays m' hm'
    refine ⟨⟨?_, ?_, hplain, hholder ▸ hsound, hholder ▸ hkept⟩, ?_⟩
    · rw [hholder, (hinv.fine name m hm).keyed]
    · rw [hholder, huids]
      exact (hinv.fine name m hm).known
    · rw [hholder]
      exact fun other m' hother hm' => hapart hother hm'
  · obtain hsame | ⟨-, -, labels', -, hlookup', -, hclaimed | hfreed'⟩ := hchanges claim
    · obtain ⟨other, m', hm', hclaimed⟩ := hinv.labelled claim labels (hsame ▸ hlookup) hfreed
      by_cases hother : other = name
      · subst hother
        obtain rfl := mem_unique hm hm'
        exact hheld claim labels hlookup hclaimed
      · exact ⟨other, m', (hmachines other hother).trans hm', hclaimed⟩
    · obtain rfl := mem_unique hlookup hlookup'
      exact hheld claim labels hlookup hclaimed
    · obtain rfl := mem_unique hlookup hlookup'
      exact absurd hfreed' hfreed

theorem Orderly.of_vms (hinv : Orderly s) {vms : AList fun _ : String => Owned}
    (hvms : ∀ other, other ≠ name → vms.lookup other = s.vms.lookup other)
    (howner : ∀ found, vms.lookup name = some found → found.owner = "" ∨ found.owner ∈ s.uids)
    (hsound : ∀ m found, s.machines.lookup name = some m → vms.lookup name = some found →
      found.owner = m.holder.uid → s.Sound m.holder m.disks found.vm) : Orderly { s with vms } := by
  refine hinv.of_local name ⟨fun _ _ => rfl, hvms, fun _ => id, howner,
    fun _ _ _ _ _ => .rfl, fun _ => .rfl⟩ (fun m hm => ⟨?_, ?_⟩) hinv.labelled
  · have hfine := hinv.fine name m hm
    refine ⟨hfine.keyed, hfine.known, hfine.plain, ?_, hfine.kept⟩
    rintro claim ⟨hdisk, found, hfound, hown, hmounts⟩
    rw [hfine.keyed] at hfound
    exact hsound m found hm hfound hown claim hdisk hmounts
  · exact fun other m' hother hm' huid => hother (hinv.apart _ _ _ _ hm' hm huid)

theorem orderly_declare (hinv : Orderly s) (hname : m.holder.name ∉ s.machines)
    (huid : m.holder.uid ∉ s.uids) (hplain : Plain m.disks) : Orderly { s with
      machines := s.machines.insert m.holder.name m
      uids := m.holder.uid :: s.uids } := by
  have hnone : ∀ claim, ¬ HeldIn s.disks claim m.holder := by
    rintro claim ⟨labels, hlookup, hheld⟩
    have hfreed : ¬ Freed labels := fun hfreed => m.holder.name_ne (hheld.name.symm.trans hfreed)
    obtain ⟨other, m', hm', hheld'⟩ := hinv.labelled claim labels hlookup hfreed
    have hsame : m'.holder.uid = m.holder.uid := hheld'.uid.symm.trans hheld.uid
    exact huid (hsame ▸ (hinv.fine other m' hm').known)
  refine hinv.of_local m.holder.name ⟨fun other hother => lookup_insert_ne hother,
    fun _ _ => rfl, fun _ => mem_cons_of_mem _, fun found hfound =>
      (hinv.owners _ found hfound).imp_right (mem_cons_of_mem _), fun _ _ _ _ _ => .rfl,
    fun _ => .rfl⟩ (fun m' hm' => ?_) fun claim labels hlookup hfreed => ?_
  · obtain rfl := mem_unique (lookup_insert _) hm'
    refine ⟨⟨rfl, mem_cons_self, hplain, ?_, fun claim hheld => absurd hheld (hnone claim)⟩,
      fun other m' _ hm' hsame => huid (hsame ▸ (hinv.fine other m' hm').known)⟩
    rintro claim ⟨-, found, hfound, hown, -⟩
    obtain hempty | hknown := hinv.owners _ found hfound
    · exact absurd (hown.symm.trans hempty) m.holder.uid_ne
    · exact absurd (hown ▸ hknown) huid
  · obtain ⟨other, m', hm', hheld⟩ := hinv.labelled claim labels hlookup hfreed
    have hother : other ≠ m.holder.name := by
      rintro rfl
      exact hname (lookup_isSome.mp (isSome_of_eq_some hm'))
    exact ⟨other, m', (lookup_insert_ne hother).trans hm', hheld⟩

theorem orderly_insert (hinv : Orderly s) (hm : s.machines.lookup name = some m)
    (hholder : m'.holder = m.holder) (hplain : Plain m'.disks)
    (hsound : ∀ found, s.vms.lookup name = some found → found.owner = m.holder.uid →
      s.Sound m.holder m'.disks found.vm) (hkept : ∀ claim, HeldIn s.disks claim m.holder →
      claim ∈ m'.disks.map DiskAttachment.claim ∨ claim ∈ m'.attached) :
    Orderly { s with machines := s.machines.insert name m' } := by
  refine hinv.of_changes (l := []) hm .refl (fun other hother => lookup_insert_ne hother)
    (fun _ _ => rfl) rfl (fun found hfound => .inr hfound) (fun m'' hm'' => ?_) fun hnone => ?_
  · obtain rfl := mem_unique (lookup_insert _) hm''
    refine ⟨hholder, hplain, ?_, hkept⟩
    rintro claim ⟨hdisk, found, hfound, hown, hmounts⟩
    rw [hholder] at hfound hown
    rw [(hinv.fine name m hm).keyed] at hfound
    exact hsound found hfound hown claim hdisk hmounts
  · exact absurd ((lookup_insert _).symm.trans hnone) (some_ne_none m')

theorem Changes.declared_or_heldIn {P : Labels → Prop}
    (h : Changes holder P (spec.map DiskAttachment.claim) disks disks')
    (hheld : HeldIn disks' claim holder) :
    claim ∈ spec.map DiskAttachment.claim ∨ HeldIn disks claim holder := by
  obtain ⟨labels, hlookup, hlabels⟩ := hheld
  obtain hsame | ⟨hmem, -⟩ := h claim
  · exact .inr ⟨labels, hsame.symm.trans hlookup, hlabels⟩
  · exact .inl hmem

theorem changes_syncing (holder : Holder) (disks : DataVolumes) (it : Iteration)
    (spec : List DiskAttachment) (vm : VirtualMachine) (l : List String) :
    Changes holder (Claimed holder) (spec.map DiskAttachment.claim) disks
        (claimEach holder disks (toClaim it spec vm)).disks ∧
      Changes holder (Own holder) (spec.map DiskAttachment.claim ++ l) disks
        (l.foldl (release holder) (claimEach holder disks (toClaim it spec vm)).disks) := by
  have hclaims := changes_claiming holder disks it spec vm (toClaim it spec vm).length
  rw [take_length] at hclaims
  exact ⟨hclaims, (hclaims.mono (fun _ => Claimed.own) fun _ => mem_append_left _).trans
    (changes_releases.mono (fun _ => Freed.own) fun _ => mem_append_right _)⟩

/-- When all is released that has been dropped, the machine holds only what it declares. -/
theorem declared_of_heldIn_syncDisks {attached : List String} (hplain : Plain spec)
    (hkept : ∀ claim, HeldIn disks claim holder →
      claim ∈ spec.map DiskAttachment.claim ∨ claim ∈ attached)
    (h : HeldIn (syncDisks it holder spec attached vm disks).disks claim holder) :
    claim ∈ spec.map DiskAttachment.claim := by
  by_contra hdeclared
  have hclaimed : HeldIn (claimEach holder disks (toClaim it spec vm)).disks claim holder := by
    by_contra hno
    exact changes_releases.not_heldIn_freed hno h
  have hclaims := (changes_syncing holder disks it spec vm []).1
  obtain hmem | hbefore := hclaims.declared_or_heldIn hclaimed
  · exact hdeclared hmem
  · have hrecorded : claim ∈ attached := (hkept claim hbefore).resolve_left hdeclared
    have hrelease : claim ∈ toRelease it spec attached :=
      mem_toRelease.mpr ⟨hrecorded, mt hplain.mem_desired_iff.mp hdeclared⟩
    exact not_heldIn_releases hrelease h

theorem orderly_synced (hinv : Orderly s) (hm : s.machines.lookup name = some m)
    {machines : AList fun _ : String => ManagedVM} (attached : List String)
    (hmachines : ∀ other, other ≠ name → machines.lookup other = s.machines.lookup other)
    (hself : machines.lookup name = some { m with attached })
    (hchanges : Changes m.holder (Own m.holder) l s.disks disks)
    (hsound : ∀ claim ∈ s.disks, vm.MountsDeclared m.disks claim → HeldIn disks claim m.holder)
    (hkept : ∀ claim, HeldIn disks claim m.holder →
      claim ∈ m.disks.map DiskAttachment.claim ∨ claim ∈ attached) :
    Orderly { s with machines, disks, vms := s.vms.insert m.holder.name ⟨m.holder.uid, vm⟩ } := by
  have hfine := hinv.fine name m hm
  rw [hfine.keyed]
  refine hinv.of_changes hm hchanges hmachines (fun other hother => lookup_insert_ne hother)
    rfl (fun found hfound => ?_) (fun m' hm' => ?_) fun hnone => ?_
  · obtain rfl := mem_unique (lookup_insert _) hfound
    exact .inl rfl
  · obtain rfl := mem_unique hself hm'
    refine ⟨rfl, hfine.plain, ?_, hkept⟩
    rintro claim ⟨hdisk, found, hfound, -, hmounts⟩
    rw [hfine.keyed] at hfound
    obtain rfl := mem_unique (lookup_insert _) hfound
    exact hsound claim (hchanges.mem_iff.mp hdisk) hmounts
  · exact absurd (hself.symm.trans hnone) (some_ne_none _)

theorem orderly_sync (hinv : Orderly s) (hm : s.machines.lookup name = some m)
    (hsound : s.Sound m.holder m.disks vm) : Orderly (s.sync m vm it outcome) := by
  have hfine := hinv.fine name m hm
  have hsame : ∀ other, other ≠ name → s.machines.lookup other = s.machines.lookup other :=
    fun _ _ => rfl
  -- claims come first, and leave the machine as it is
  have hclaiming : ∀ n, Orderly { s with
      vms := s.vms.insert m.holder.name ⟨m.holder.uid, vm⟩
      disks := (claimEach m.holder s.disks ((toClaim it m.disks vm).take n)).disks } := by
    intro n
    have hclaims := changes_claiming m.holder s.disks it m.disks vm n
    refine orderly_synced hinv hm m.attached hsame hm
      (hclaims.mono (fun _ => Claimed.own) fun _ => id) (fun claim hdisk hmounts => ?_)
      fun claim hheld => ?_
    · exact hclaims.heldIn_claimed (hsound claim hdisk hmounts)
    · exact (hclaims.declared_or_heldIn hheld).elim .inl (hfine.kept claim)
  -- then the machine is changed, and what was dropped is released
  have hreleasing : ∀ l : List String, (∀ c ∈ l, c ∉ desired m.disks) → Orderly { s with
      vms := s.vms.insert m.holder.name
        ⟨m.holder.uid, (syncDisks it m.holder m.disks m.attached vm s.disks).vm⟩
      disks := l.foldl (release m.holder)
        (claimEach m.holder s.disks (toClaim it m.disks vm)).disks } := by
    intro l hl
    obtain ⟨hclaims, hchanges⟩ := changes_syncing m.holder s.disks it m.disks vm l
    refine orderly_synced hinv hm m.attached hsame hm hchanges
      (fun claim hdisk hmounts => ?_) fun claim hheld => ?_
    · exact heldIn_of_mountsDeclared_changed hfine.plain hsound hl hdisk hmounts
    · have hclaimed := not_imp_not.mp (changes_releases (l := l)).not_heldIn_freed hheld
      exact (hclaims.declared_or_heldIn hclaimed).elim .inl (hfine.kept claim)
  have hdropped : ∀ c ∈ toRelease it m.disks m.attached, c ∉ desired m.disks :=
    fun c hc => (mem_toRelease.mp hc).2
  cases outcome with
  | claiming n => exact hclaiming n
  | updating =>
    have h := hclaiming (toClaim it m.disks vm).length
    rwa [take_length] at h
  | releasing n => exact hreleasing _ fun c hc => hdropped c (mem_of_mem_take hc)
  | recording => exact hreleasing _ hdropped
  | done =>
    obtain ⟨-, hchanges⟩ := changes_syncing m.holder s.disks it m.disks vm
      (toRelease it m.disks m.attached)
    refine orderly_synced hinv hm (syncDisks it m.holder m.disks m.attached vm s.disks).attached
      (fun other hother => ?_) ?_ hchanges
      (fun claim hdisk hmounts => ?_) fun claim hheld =>
        .inl (declared_of_heldIn_syncDisks hfine.plain hfine.kept hheld)
    · rw [hfine.keyed]
      exact lookup_insert_ne hother
    · rw [hfine.keyed]
      exact lookup_insert _
    · exact heldIn_of_mountsDeclared_changed hfine.plain hsound hdropped hdisk hmounts

theorem mem_seen : claim ∈ m.seen ↔
    claim ∈ m.disks.map DiskAttachment.claim ∨ claim ∈ m.attached := by
  rw [ManagedVM.seen, mem_dedup, mem_append]

theorem not_heldIn_delete (hfine : Fine s name m) :
    ¬ HeldIn ((it.order m.seen).foldl (release m.holder) s.disks) claim m.holder := by
  intro hheld
  have hbefore := not_imp_not.mp
    (changes_releases (l := it.order m.seen)).not_heldIn_freed hheld
  have hmem : claim ∈ it.order m.seen :=
    (it.perm _).mem_iff.mpr (mem_seen.mpr (hfine.kept claim hbefore))
  exact not_heldIn_releases hmem hheld

theorem orderly_delete (hinv : Orderly s) (hm : s.machines.lookup name = some m) :
    Orderly (s.delete m it outcome) := by
  have hfine := hinv.fine name m hm
  let vms := if (s.vms.lookup m.holder.name).any (·.owner = m.holder.uid) then
    s.vms.erase m.holder.name else s.vms
  have hvms : ∀ other, other ≠ name → vms.lookup other = s.vms.lookup other := by
    intro other hother
    dsimp only [vms]
    split
    · rw [hfine.keyed]
      exact lookup_erase_ne hother
    · rfl
  -- its own `VirtualMachine` is gone
  have hleft : ∀ found, vms.lookup name = some found →
      s.vms.lookup name = some found ∧ found.owner ≠ m.holder.uid := by
    intro found hfound
    dsimp only [vms] at hfound
    rw [hfine.keyed] at hfound
    split at hfound
    · rw [lookup_erase] at hfound
      contradiction
    · next hother =>
      refine ⟨hfound, fun hown => hother ?_⟩
      rw [hfound, any_some, decide_eq_true_eq]
      exact hown
  have hmounts : ∀ {disks : DataVolumes} {claim},
      ¬ Namespace.Mounts { s with vms, disks } m claim := by
    rintro disks claim ⟨-, found, hfound, hown, -⟩
    rw [hfine.keyed] at hfound
    exact (hleft found hfound).2 hown
  have hreleasing : ∀ l : List String,
      Orderly { s with vms, disks := l.foldl (release m.holder) s.disks } := by
    intro l
    have hreleases : Changes m.holder Freed l s.disks (l.foldl (release m.holder) s.disks) :=
      changes_releases
    refine hinv.of_changes hm (hreleases.mono (fun _ => Freed.own) fun _ => id) (fun _ _ => rfl)
      hvms rfl (fun found hfound => .inr (hleft found hfound).1) (fun m' hm' => ?_) fun hnone => ?_
    · obtain rfl := mem_unique hm hm'
      refine ⟨rfl, hfine.plain, fun claim h => absurd h hmounts, fun claim hheld => ?_⟩
      exact hfine.kept claim (not_imp_not.mp hreleases.not_heldIn_freed hheld)
    · exact absurd (hm.symm.trans hnone) (some_ne_none m)
  cases outcome with
  | claiming n => exact hreleasing []
  | updating => exact hreleasing []
  | releasing n => exact hreleasing _
  | recording => exact hreleasing _
  | done =>
    have hreleases : Changes m.holder Freed (it.order m.seen) s.disks
        ((it.order m.seen).foldl (release m.holder) s.disks) := changes_releases
    have herased : (s.machines.erase m.holder.name).lookup name = none := by
      rw [hfine.keyed]
      exact lookup_erase _ _
    refine hinv.of_changes hm (hreleases.mono (fun _ => Freed.own) fun _ => id)
      (fun other hother => ?_) hvms rfl (fun found hfound => .inr (hleft found hfound).1)
      (fun m' hm' => ?_) fun _ claim => not_heldIn_delete hfine
    · rw [← hfine.keyed] at hother
      exact lookup_erase_ne hother
    · exact absurd (herased.symm.trans hm') (some_ne_none m').symm

theorem orderly_reconcile (hinv : Orderly s) (hm : s.machines.lookup name = some m)
    (hcreated : m.deleting = false → s.vms.lookup name = none →
      s.Sound m.holder m.disks (createVM m.rootDisk))
    (hadopted : m.deleting = false → ∀ found, s.vms.lookup name = some found →
      found.owner ≠ m.holder.uid → m.adopts = true → s.Sound m.holder m.disks found.vm) :
    Orderly (s.reconcile m it outcome) := by
  have hfine := hinv.fine name m hm
  rw [Namespace.reconcile]
  split
  · exact orderly_delete hinv hm
  · next hdeleting =>
    rw [Bool.not_eq_true] at hdeleting
    rw [hfine.keyed]
    split
    · next hnone =>
      refine hinv.of_vms (fun other hother => lookup_insert_ne hother)
        (fun found hfound => ?_) fun m' found hm' hfound _ => ?_
      · obtain rfl := mem_unique (lookup_insert _) hfound
        exact .inr hfine.known
      · obtain rfl := mem_unique hm hm'
        obtain rfl := mem_unique (lookup_insert _) hfound
        exact hcreated hdeleting hnone
    · next found hfound =>
      split
      · exact hinv
      · next hmay =>
        refine orderly_sync hinv hm ?_
        by_cases hown : found.owner = m.holder.uid
        · intro claim hdisk hmounts
          refine hfine.sound claim ⟨hdisk, found, ?_, hown, hmounts⟩
          rwa [hfine.keyed]
        · have hadopts : m.adopts = true :=
            (Bool.not_eq_false _).mp fun hno => hmay ⟨hown, hno⟩
          exact hadopted hdeleting found hfound hown hadopts

theorem orderly_step {e : Event} (hinv : Orderly s) (hclean : Clean s e) (h : s.step e = some s') :
    Orderly s' := by
  cases e with
  | declare m =>
    rw [Namespace.step] at h
    split at h
    · next hnew =>
      obtain rfl := some.inj h
      exact orderly_declare hinv hnew.1 hnew.2.1 hclean
    · contradiction
  | edit name disks adopts =>
    obtain ⟨m, hm, rfl⟩ := map_eq_some_iff.mp h
    obtain ⟨hkept, hsound⟩ := hclean.2 m hm
    exact orderly_insert hinv hm rfl hclean.1 hsound hkept
  | delete name =>
    obtain ⟨m, hm, rfl⟩ := map_eq_some_iff.mp h
    have hfine := hinv.fine name m hm
    refine orderly_insert hinv hm rfl hfine.plain
      (fun found hfound hown claim hdisk hmounts => ?_) hfine.kept
    refine hfine.sound claim ⟨hdisk, found, ?_, hown, hmounts⟩
    rwa [hfine.keyed]
  | pass name it outcome =>
    obtain ⟨m, hm, rfl⟩ := map_eq_some_iff.mp h
    exact orderly_reconcile hinv hm (fun hdeleting => (hclean m hm hdeleting).1)
      fun hdeleting => (hclean m hm hdeleting).2
  | rewire name vm =>
    obtain ⟨found, hfound, rfl⟩ := map_eq_some_iff.mp h
    refine hinv.of_vms (fun other hother => lookup_insert_ne hother)
      (fun found' hfound' => ?_) fun m found' hm hfound' hown => ?_
    · obtain rfl := mem_unique (lookup_insert _) hfound'
      exact hinv.owners name found hfound
    · obtain rfl := mem_unique (lookup_insert _) hfound'
      exact hclean m found hm hfound hown
  | appear name found =>
    rw [Namespace.step] at h
    split at h
    · next hnew =>
      obtain rfl := some.inj h
      refine hinv.of_vms (fun other hother => lookup_insert_ne hother)
        (fun found' hfound' => ?_) fun m found' hm hfound' hown => ?_
      · obtain rfl := mem_unique (lookup_insert _) hfound'
        exact hnew.2
      · obtain rfl := mem_unique (lookup_insert _) hfound'
        exact hclean m hm hown
    · contradiction
  | vanish name =>
    obtain rfl := some.inj h
    refine hinv.of_vms (fun other hother => lookup_erase_ne hother)
      (fun found' hfound' => ?_) fun m found' hm hfound' _ => ?_
    · rw [lookup_erase] at hfound'
      contradiction
    · rw [lookup_erase] at hfound'
      contradiction

theorem Fresh.orderly (h : Fresh s) : Orderly s := by
  have hmachines : ∀ name m, s.machines.lookup name ≠ some m := by
    intro name m hm
    rw [h.machines] at hm
    contradiction
  refine ⟨fun name m hm => absurd hm (hmachines name m),
    fun name₁ m₁ _ _ h₁ => absurd h₁ (hmachines name₁ m₁), fun name found hfound => ?_,
    fun claim labels hlookup hfreed => absurd (h.disks claim labels hlookup) hfreed⟩
  rw [h.vms] at hfound
  contradiction

/-- Where every machine holds only what it declares or has mounted, no disk that is not used is
held. -/
theorem Orderly.agree (hinv : Orderly s) (hsettled : ∀ name m, s.machines.lookup name = some m →
    s.Settled m) : Agree s := by
  refine ⟨fun name m hm => (hinv.fine name m hm).sound, fun claim labels hlookup hunused => ?_,
    fun name₁ m₁ name₂ m₂ claim h₁ h₂ hmounts₁ hmounts₂ => ?_⟩
  · by_contra hheld
    obtain ⟨name, m, hm, hclaimed⟩ := hinv.labelled claim labels hlookup hheld
    obtain hdeclared | ⟨found, hfound, v, hv, hmounts⟩ :=
      hsettled name m hm claim ⟨labels, hlookup, hclaimed⟩
    · exact hunused.undeclared name m hm hdeclared
    · exact hunused.unmounted _ found hfound v hv hmounts
  · obtain ⟨labels₁, hlookup₁, hheld₁⟩ := (hinv.fine name₁ m₁ h₁).sound claim hmounts₁
    obtain ⟨labels₂, hlookup₂, hheld₂⟩ := (hinv.fine name₂ m₂ h₂).sound claim hmounts₂
    obtain rfl := mem_unique hlookup₁ hlookup₂
    exact hinv.apart _ _ _ _ h₁ h₂ (hheld₁.uid.symm.trans hheld₂.uid)

theorem reconcile_others (s : Namespace) (it : Iteration) (hname : m.holder.name = name) :
    (∀ other, other ≠ name →
        (s.reconcile m it .done).machines.lookup other = s.machines.lookup other ∧
        (s.reconcile m it .done).vms.lookup other = s.vms.lookup other) ∧
      ∃ l, Changes m.holder (Own m.holder) l s.disks (s.reconcile m it .done).disks := by
  subst hname
  rw [Namespace.reconcile]
  split
  · refine ⟨fun other hother => ⟨lookup_erase_ne hother, ?_⟩, it.order m.seen,
      changes_releases.mono (fun _ => Freed.own) fun _ => id⟩
    dsimp only [Namespace.delete]
    split
    · exact lookup_erase_ne hother
    · rfl
  · split
    · exact ⟨fun other hother => ⟨rfl, lookup_insert_ne hother⟩, [], .refl⟩
    · next found _ =>
      split
      · exact ⟨fun _ _ => ⟨rfl, rfl⟩, [], .refl⟩
      · exact ⟨fun other hother =>
          ⟨lookup_insert_ne hother, lookup_insert_ne hother⟩, _,
          (changes_syncing m.holder s.disks it m.disks found.vm _).2⟩

theorem settled_reconcile (hinv : Orderly s) (hm : s.machines.lookup name = some m)
    (hreaches : s.Reaches m) (hm' : (s.reconcile m it .done).machines.lookup name = some m') :
    (s.reconcile m it .done).Settled m' := by
  have hfine := hinv.fine name m hm
  obtain rfl := hfine.keyed
  revert hm'
  rw [Namespace.reconcile]
  split
  · intro hm'
    have herased := lookup_erase m.holder.name s.machines
    exact absurd (herased.symm.trans hm') (some_ne_none m').symm
  · next hdeleting =>
    obtain ⟨found, hfound, hmay⟩ := hreaches.resolve_left hdeleting
    rw [hfound]
    dsimp only
    rw [if_neg fun hno => hmay.elim hno.1 fun hadopts => by simp [hadopts] at hno]
    intro hm' claim hheld
    obtain rfl := mem_unique (lookup_insert _) hm'
    exact .inl (declared_of_heldIn_syncDisks hfine.plain hfine.kept hheld)

theorem settled_of_not_reaches (hinv : Orderly s) (hm : s.machines.lookup name = some m)
    (hreaches : ¬ s.Reaches m) (hsettled : s.Settled m)
    (hm' : (s.reconcile m it .done).machines.lookup name = some m') :
    (s.reconcile m it .done).Settled m' := by
  obtain rfl := (hinv.fine name m hm).keyed
  revert hm'
  rw [Namespace.reconcile, if_neg fun hdeleting => hreaches (.inl hdeleting)]
  split
  · next hnone =>
    intro hm' claim hheld
    obtain rfl := mem_unique hm hm'
    obtain hdeclared | ⟨found, hfound, -⟩ := hsettled claim hheld
    · exact .inl hdeclared
    · exact absurd (hnone.symm.trans hfound) (some_ne_none found).symm
  · next found hfound =>
    have hmay : ¬ (found.owner = m.holder.uid ∨ m.adopts = true) :=
      fun hmay => hreaches (.inr ⟨found, hfound, hmay⟩)
    rw [if_pos ⟨fun hown => hmay (.inl hown),
      (Bool.not_eq_true _).mp fun hadopts => hmay (.inr hadopts)⟩]
    intro hm'
    obtain rfl := mem_unique hm hm'
    exact hsettled

theorem Namespace.Quiet.settled (hquiet : s.Quiet name) (hinv : Orderly s)
    (hm : s.machines.lookup name = some m) : ∀ other m',
      (s.reconcile m it .done).machines.lookup other = some m' →
      (s.reconcile m it .done).Settled m' := by
  intro other m' hm'
  by_cases hother : other = name
  · subst hother
    by_cases hreaches : s.Reaches m
    · exact settled_reconcile hinv hm hreaches hm'
    · obtain ⟨-, hno⟩ | hsettled := hquiet other m hm
      · exact absurd hno hreaches
      · exact settled_of_not_reaches hinv hm hreaches hsettled hm'
  · obtain ⟨hsame, l, hchanges⟩ := reconcile_others s it (hinv.fine name m hm).keyed
    obtain ⟨hmachines, hvms⟩ := hsame other hother
    rw [hmachines] at hm'
    have hapart : m'.holder.uid ≠ m.holder.uid :=
      fun huid => hother (hinv.apart _ _ _ _ hm' hm huid)
    intro claim hheld
    obtain hdeclared | ⟨found, hfound, hmounts⟩ := ((hquiet other m' hm').resolve_left
      fun hno => hother hno.1) claim (hchanges.heldIn_of_other hapart hheld)
    · exact .inl hdeclared
    · rw [(hinv.fine other m' hm').keyed] at hfound ⊢
      exact .inr ⟨found, hvms.trans hfound, hmounts⟩

/-- In a run whose volumes are named like their claims, in which nothing is dropped before it is on
record and no disk comes to be mounted by itself, holders and mounts agree after every pass. -/
theorem agree_of_pass {t u : Namespace} (hfresh : Fresh s)
    (hrun : Machine.Run Namespace.step Clean s t) (hclean : Clean t (.pass name it .done))
    (hquiet : t.Quiet name) (h : t.step (.pass name it .done) = some u) : Agree u := by
  have hinv : Orderly t :=
    hrun.invariant hfresh.orderly fun hinv hclean h => orderly_step hinv hclean h
  have hdone : Orderly u := orderly_step hinv hclean h
  obtain ⟨m, hm, rfl⟩ := map_eq_some_iff.mp h
  exact hdone.agree fun other m' hm' => hquiet.settled hinv hm other m' hm'

end Steps

theorem sound_createVM {s : Namespace} {rootDisk : String}
    (h : ∀ d ∈ spec, volumeNameOf d ∉ reservedVolumes) :
    s.Sound holder spec (createVM rootDisk) := by
  rintro claim - ⟨d, hd, -, v, hv, hname, -⟩
  refine absurd ?_ (h d hd)
  rw [← hname]
  exact mem_map_of_mem hv

/-- A machine is created, and then gets its first disk. -/
theorem agree_of_pass_first : let it : Iteration := ⟨id, fun _ => .refl _⟩
    let s : Namespace := ⟨AList.insert "data" ∅ ∅, ∅, ∅, []⟩
    ∃ t u, Machine.Run Namespace.step Clean s t ∧ t.step (.pass "web" it .done) = some u ∧
      Agree u := by
  intro it s
  let web : ManagedVM :=
    { holder := ⟨"web", "uid-1", by decide, by decide⟩
      disks := [⟨"data", "", ""⟩]
      rootDisk := "web-root-1" }
  have hfresh : Fresh s := by
    refine ⟨rfl, rfl, rfl, fun claim labels hlookup => ?_⟩
    by_cases hclaim : claim = "data"
    · subst hclaim
      obtain rfl := mem_unique (lookup_insert _) hlookup
      rfl
    · rw [lookup_insert_ne hclaim] at hlookup
      contradiction
  have hplain : Plain web.disks := fun d hd => mem_singleton.mp hd ▸ rfl
  -- the machine as it is declared, and with its `VirtualMachine`
  let declared : Namespace :=
    { s with machines := s.machines.insert "web" web, uids := ["uid-1"] }
  let created : Namespace :=
    { declared with vms := s.vms.insert "web" ⟨"uid-1", createVM "web-root-1"⟩ }
  have hdeclared : Machine.Run Namespace.step Clean s declared :=
    .step (i := .declare web) .refl hplain rfl
  have hcreate : Clean declared (.pass "web" it .done) := by
    intro m hm _
    obtain rfl := some.inj hm
    refine ⟨fun _ => sound_createVM fun d hd => ?_, fun found hfound => by contradiction⟩
    obtain rfl := mem_singleton.mp hd
    decide
  have hcreated : Machine.Run Namespace.step Clean s created := .step hdeclared hcreate rfl
  have hattach : Clean created (.pass "web" it .done) := by
    intro m hm _
    obtain rfl := some.inj hm
    refine ⟨fun hnone => by contradiction, fun found hfound hother => ?_⟩
    obtain rfl := some.inj hfound
    contradiction
  have hquiet : created.Quiet "web" := by
    intro other m hm
    by_cases hother : other = "web"
    · subst hother
      obtain rfl := some.inj hm
      exact .inl ⟨rfl, .inr ⟨_, rfl, .inl rfl⟩⟩
    · rw [lookup_insert_ne hother] at hm
      contradiction
  exact ⟨created, _, hcreated, rfl, agree_of_pass hfresh hcreated hattach hquiet rfl⟩

/-- A volume carries the name of another disk. Both are put in each other's place. -/
theorem not_agree_of_pass : ¬ ∀ (s t u : Namespace) (name : String) (it : Iteration), Fresh s →
      Machine.Run Namespace.step (fun _ _ => True) s t → t.step (.pass name it .done) = some u →
      Agree u := by
  intro hall
  let it : Iteration := ⟨id, fun _ => .refl _⟩
  let web : ManagedVM :=
    { holder := ⟨"web", "uid-1", by decide, by decide⟩
      disks := [⟨"a", "b", ""⟩]
      rootDisk := "web-root-1" }
  let s : Namespace := ⟨AList.insert "a" ∅ (AList.insert "b" ∅ ∅), ∅, ∅, []⟩
  have hfresh : Fresh s := by
    refine ⟨rfl, rfl, rfl, fun claim labels hlookup => ?_⟩
    by_cases ha : claim = "a"
    · subst ha
      obtain rfl := mem_unique (lookup_insert _) hlookup
      rfl
    · rw [lookup_insert_ne ha] at hlookup
      by_cases hb : claim = "b"
      · subst hb
        obtain rfl := mem_unique (lookup_insert _) hlookup
        rfl
      · rw [lookup_insert_ne hb] at hlookup
        contradiction
  obtain ⟨t, ht⟩ : ∃ t, Machine.play Namespace.step (fun _ _ => True) s
      [.declare web, .pass "web" it .done, .pass "web" it .done,
        .edit "web" [⟨"b", "x", ""⟩] false] = some t := ⟨_, rfl⟩
  obtain ⟨u, hu⟩ : ∃ u, t.step (.pass "web" it .done) = some u := by
    obtain rfl := some.inj ht
    exact ⟨_, rfl⟩
  have hagree := hall s t u "web" it hfresh (Machine.run_of_play .refl ht) hu
  obtain rfl := some.inj ht
  obtain rfl := some.inj hu
  have hheld := hagree.held "web" _ rfl "b" ⟨by decide +kernel, _, rfl, rfl, _,
    mem_singleton_self _, rfl, ⟨"x", .dataVolume "b" true⟩, by decide +kernel, rfl,
    .inl ⟨true, rfl⟩⟩
  obtain ⟨labels, hlookup, hlabels⟩ := hheld
  obtain rfl := some.inj hlookup
  have hname := hlabels.name
  revert hname
  decide +kernel

end Disks
