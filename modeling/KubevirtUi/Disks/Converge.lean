import KubevirtUi.Disks.Sync

/-!
# When a pass attaches what is declared

A pass compares volumes by name only. It leaves alone a declared name that the machine has,
whatever is mounted under it; so a machine goes on with the claim that it has when another is put
behind the name of its volume.
-/

namespace Disks

open List

variable {it : Iteration} {holder : Holder} {spec : List DiskAttachment} {attached : List String}
  {vm : VirtualMachine} {disks : DataVolumes}

/-- The volume mounts the claim. -/
def Volume.Mounts (v : Volume) (claim : String) : Prop :=
  (∃ hotpluggable, v.source = .dataVolume claim hotpluggable) ∨
    v.source = .persistentVolumeClaim claim

theorem Volume.Mounts.unique {v : Volume} {claim other : String} (h : v.Mounts claim)
    (h' : v.Mounts other) : claim = other := by
  obtain ⟨b, h⟩ | h := h <;> obtain ⟨b', h'⟩ | h' := h' <;> simp_all

/-- A pass from `vm` with the record `attached` has ended in `t` with what is declared. -/
structure Converged (spec : List DiskAttachment) (attached : List String) (vm : VirtualMachine)
    (t : Synced) : Prop where
  mounted : ∀ d ∈ spec,
    (∃ v, t.vm.volumes.filter (·.name = volumeNameOf d) = [v] ∧ v.Mounts d.claim) ∧
      ∃ disk, t.vm.disks.filter (·.name = volumeNameOf d) = [disk]
  kept : t.vm.volumes.filter (fun v => v.name ∉ attached ∧ v.name ∉ desired spec) =
    vm.volumes.filter fun v => v.name ∉ attached ∧ v.name ∉ desired spec
  gone : ∀ v ∈ t.vm.volumes, v.name ∈ attached → v.name ∈ desired spec
  still : ∀ it, toClaim it spec t.vm = [] ∧ toDetach spec t.attached t.vm = [] ∧
    toRelease it spec t.attached = [] ∧ attachedDisks spec t.vm = t.attached
  reported : t.condition.status = true → ∀ d ∈ spec, ∃ v ∈ t.vm.volumes, v.Mounts d.claim

/-- No two disks have one name, and what a machine has under a declared name is one disk with the
declared claim. -/
structure Fits (spec : List DiskAttachment) (vm : VirtualMachine) : Prop where
  names : (spec.map volumeNameOf).Nodup
  volumes : ∀ d ∈ spec, vm.volumes.filter (·.name = volumeNameOf d) = [] ∨
    ∃ v, vm.volumes.filter (·.name = volumeNameOf d) = [v] ∧ v.Mounts d.claim
  devices : ∀ d ∈ spec, (vm.disks.filter (·.name = volumeNameOf d)).length =
    (vm.volumes.filter (·.name = volumeNameOf d)).length

theorem claimEach_eq {l : List DiskAttachment} (h : (claimEach holder disks l).refused = []) :
    (claimEach holder disks l).toAttach = l := by
  suffices hall : ∀ claims : Claims, (l.foldl (·.claim holder) claims).refused = [] →
      claims.refused = [] ∧ (l.foldl (·.claim holder) claims).toAttach = claims.toAttach ++ l from
    (hall { disks } h).2
  clear h
  induction l with
  | nil => exact fun claims h => ⟨h, (append_nil _).symm⟩
  | cons d l ih =>
    intro claims h
    obtain ⟨hrefused, hattach⟩ := ih (claims.claim holder d) h
    obtain ⟨hkept, hgot⟩ | ⟨text, htext⟩ := claims.claim_cases holder d
    · rw [hkept] at hrefused
      rw [foldl_cons, hattach, hgot, append_assoc, singleton_append]
      exact ⟨hrefused, rfl⟩
    · rw [htext] at hrefused
      exact absurd hrefused (by simp)

section Lists

variable {α : Type*} {key : α → String} {make : DiskAttachment → α} {xs : List α} {n : String}

/-- What there is under a declared name: what there was, and the disk that was attached. -/
theorem filter_changed (hmake : ∀ d, key (make d) = volumeNameOf d) (hn : n ∈ desired spec) :
    (Keyed.drop key (toDetach spec attached vm) xs ++ (toClaim it spec vm).map make).filter
        (key · = n) =
      xs.filter (key · = n) ++
        if vm.Present n then [] else ((desired spec).lookup n).toList.map make := by
  have hkept : (Keyed.drop key (toDetach spec attached vm) xs).filter (key · = n) =
      xs.filter (key · = n) := by
    refine Keyed.filter_drop fun x _ hx hdetach => ?_
    rw [of_decide_eq_true hx] at hdetach
    exact (mem_toDetach.mp hdetach).2.1 hn
  have hkeys : ((toClaim it spec vm).map make).map key = (toClaim it spec vm).map volumeNameOf := by
    rw [map_map]
    exact map_congr_left fun d _ => hmake d
  rw [filter_append, hkept]
  split
  · next hpresent =>
    have hnone : ((toClaim it spec vm).map make).filter (key · = n) = [] := by
      refine filter_eq_nil_iff.mpr fun x hx hname => ?_
      obtain ⟨d, hd, rfl⟩ := mem_map.mp hx
      have hd := (mem_toClaim.mp hd).2
      rw [← hmake d, of_decide_eq_true hname] at hd
      exact hd hpresent
    rw [hnone]
  · next hpresent =>
    obtain ⟨d, hd⟩ := Option.isSome_iff_exists.mp (AList.lookup_isSome.mpr hn)
    obtain ⟨-, rfl⟩ := mem_of_lookup_desired hd
    have hmem : make d ∈ (toClaim it spec vm).map make :=
      mem_map_of_mem (mem_toClaim.mpr ⟨hd, hpresent⟩)
    have hsingle : _ = [make d] := Keyed.filter_eq_singleton (hkeys ▸ nodup_toClaim) hmem
    rw [hmake] at hsingle
    rw [hsingle, hd, Option.toList_some, map_singleton]

end Lists

theorem vm_syncDisks (h : (claimEach holder disks (toClaim it spec vm)).refused = []) :
    (syncDisks it holder spec attached vm disks).vm =
      changed vm (toClaim it spec vm) (toDetach spec attached vm) := by
  rw [syncDisks]
  dsimp only
  rw [claimEach_eq h]

section Pass

variable (h : (claimEach holder disks (toClaim it spec vm)).refused = [])

include h

variable {n : String}

theorem filter_volumes_syncDisks (hn : n ∈ desired spec) :
    (syncDisks it holder spec attached vm disks).vm.volumes.filter (·.name = n) =
      vm.volumes.filter (·.name = n) ++
        if vm.Present n then [] else ((desired spec).lookup n).toList.map volumeOf := by
  rw [vm_syncDisks h, volumes_changed]
  exact filter_changed (fun _ => rfl) hn

theorem filter_disks_syncDisks (hn : n ∈ desired spec) :
    (syncDisks it holder spec attached vm disks).vm.disks.filter (·.name = n) =
      vm.disks.filter (·.name = n) ++
        if vm.Present n then [] else ((desired spec).lookup n).toList.map diskOf := by
  rw [vm_syncDisks h, disks_changed]
  exact filter_changed (fun _ => rfl) hn

omit h in
theorem present_iff : vm.Present n ↔ vm.volumes.filter (·.name = n) ≠ [] := by
  simp [VirtualMachine.Present, filter_eq_nil_iff]

theorem present_syncDisks (hn : n ∈ desired spec) :
    (syncDisks it holder spec attached vm disks).vm.Present n := by
  have hne : (syncDisks it holder spec attached vm disks).vm.volumes.filter (·.name = n) ≠ [] := by
    rw [filter_volumes_syncDisks h hn]
    split
    · next hpresent =>
      obtain ⟨v, hv, hname⟩ := mem_map.mp hpresent
      rw [append_nil]
      exact ne_nil_of_mem (mem_filter.mpr ⟨hv, decide_eq_true hname⟩)
    · obtain ⟨d, hd⟩ := Option.isSome_iff_exists.mp (AList.lookup_isSome.mpr hn)
      simp [hd]
  obtain ⟨v, hv⟩ := exists_mem_of_ne_nil _ hne
  exact mem_map.mpr ⟨v, (mem_filter.mp hv).1, of_decide_eq_true (mem_filter.mp hv).2⟩

theorem still_syncDisks (it' : Iteration) : let t := syncDisks it holder spec attached vm disks
    toClaim it' spec t.vm = [] ∧ toDetach spec t.attached t.vm = [] ∧
      toRelease it' spec t.attached = [] ∧ attachedDisks spec t.vm = t.attached := by
  have hdeclared : ∀ n ∈ (syncDisks it holder spec attached vm disks).attached,
      n ∈ desired spec := fun n hn => (mem_attachedDisks.mp hn).2.2
  refine ⟨?_, ?_, ?_, rfl⟩
  · refine eq_nil_iff_forall_not_mem.mpr fun d hd => ?_
    obtain ⟨hlookup, hpresent⟩ := mem_toClaim.mp hd
    exact hpresent (present_syncDisks h (mem_desired (mem_of_lookup_desired hlookup).1))
  · exact eq_nil_iff_forall_not_mem.mpr fun n hn =>
      (mem_toDetach.mp hn).2.1 (hdeclared n (mem_toDetach.mp hn).1)
  · exact eq_nil_iff_forall_not_mem.mpr fun n hn =>
      (mem_toRelease.mp hn).2 (hdeclared n (mem_toRelease.mp hn).1)

theorem kept_syncDisks : (syncDisks it holder spec attached vm disks).vm.volumes.filter
        (fun v => v.name ∉ attached ∧ v.name ∉ desired spec) =
      vm.volumes.filter fun v => v.name ∉ attached ∧ v.name ∉ desired spec := by
  have hnone : ((toClaim it spec vm).map volumeOf).filter
      (fun v => v.name ∉ attached ∧ v.name ∉ desired spec) = [] := by
    refine filter_eq_nil_iff.mpr fun v hv hall => ?_
    obtain ⟨d, hd, rfl⟩ := mem_map.mp hv
    have hlookup := (mem_toClaim.mp hd).1
    exact (of_decide_eq_true hall).2 (mem_desired (mem_of_lookup_desired hlookup).1)
  rw [vm_syncDisks h, volumes_changed, filter_append, hnone, append_nil]
  exact Keyed.filter_drop fun v _ hall hdetach =>
    (of_decide_eq_true hall).1 (mem_toDetach.mp hdetach).1

theorem gone_syncDisks : ∀ v ∈ (syncDisks it holder spec attached vm disks).vm.volumes,
      v.name ∈ attached → v.name ∈ desired spec := by
  rw [vm_syncDisks h, volumes_changed]
  intro v hv hattached
  obtain hv | hv := mem_append.mp hv
  · obtain ⟨hv, hstays⟩ := Keyed.mem_drop.mp hv
    by_contra hdeclared
    exact hstays (mem_toDetach.mpr ⟨hattached, hdeclared, mem_map_of_mem hv⟩)
  · obtain ⟨d, hd, rfl⟩ := mem_map.mp hv
    exact mem_desired (mem_of_lookup_desired (mem_toClaim.mp hd).1).1

theorem Converged.fits (hclaims : (spec.map DiskAttachment.claim).Nodup)
    (hconverged : Converged spec attached vm (syncDisks it holder spec attached vm disks)) :
    Fits spec vm := by
  have hfound : ∀ d ∈ spec, (vm.volumes.filter (·.name = volumeNameOf d) = [] ∧
      vm.disks.filter (·.name = volumeNameOf d) = []) ∨
      ∃ v disk, vm.volumes.filter (·.name = volumeNameOf d) = [v] ∧ v.Mounts d.claim ∧
        vm.disks.filter (·.name = volumeNameOf d) = [disk] := by
    intro d hd
    obtain ⟨⟨v, hv, hmounts⟩, disk, hdisk⟩ := hconverged.mounted d hd
    rw [filter_volumes_syncDisks h (mem_desired hd)] at hv
    rw [filter_disks_syncDisks h (mem_desired hd)] at hdisk
    by_cases hhas : vm.Present (volumeNameOf d)
    · rw [if_pos hhas, append_nil] at hv hdisk
      exact .inr ⟨v, disk, hv, hmounts, hdisk⟩
    · obtain ⟨e, he⟩ := Option.isSome_iff_exists.mp (AList.lookup_isSome.mpr (mem_desired hd))
      rw [if_neg hhas, he, Option.toList_some, map_singleton] at hdisk
      refine .inl ⟨not_not.mp (mt present_iff.mpr hhas), ?_⟩
      obtain ⟨hnil, -⟩ | ⟨-, hcontra⟩ := append_eq_singleton_iff.mp hdisk
      · exact hnil
      · contradiction
  constructor
  · refine (nodup_map_iff_inj_on hclaims.of_map).mpr fun d hd e he hname => ?_
    obtain ⟨⟨v, hv, hmounts⟩, -⟩ := hconverged.mounted d hd
    obtain ⟨⟨w, hw, hmounts'⟩, -⟩ := hconverged.mounted e he
    rw [hname, hw] at hv
    obtain rfl := (List.cons.inj hv).1
    exact inj_on_of_nodup_map hclaims hd he (hmounts.unique hmounts')
  · intro d hd
    obtain ⟨hnil, -⟩ | ⟨v, -, hv, hmounts, -⟩ := hfound d hd
    · exact .inl hnil
    · exact .inr ⟨v, hv, hmounts⟩
  · intro d hd
    obtain ⟨hnil, hnil'⟩ | ⟨v, disk, hv, -, hdisk⟩ := hfound d hd
    · rw [hnil, hnil']
      rfl
    · rw [hv, hdisk]
      rfl

theorem Fits.mounted (hfits : Fits spec vm) {d : DiskAttachment} (hd : d ∈ spec) :
    let t := syncDisks it holder spec attached vm disks
    (∃ v, t.vm.volumes.filter (·.name = volumeNameOf d) = [v] ∧ v.Mounts d.claim) ∧
      ∃ disk, t.vm.disks.filter (·.name = volumeNameOf d) = [disk] := by
  have hlookup : (desired spec).lookup (volumeNameOf d) = some d := by
    rw [lookup_desired, Keyed.filter_eq_singleton hfits.names hd, List.getLast?_singleton]
  have hdevices := hfits.devices d hd
  dsimp only
  rw [filter_volumes_syncDisks h (mem_desired hd), filter_disks_syncDisks h (mem_desired hd),
    hlookup]
  obtain hnil | ⟨v, hv, hmounts⟩ := hfits.volumes d hd
  · have habsent : ¬ vm.Present (volumeNameOf d) := mt present_iff.mp (not_not.mpr hnil)
    rw [hnil, length_nil, length_eq_zero_iff] at hdevices
    rw [hnil, hdevices, if_neg habsent, if_neg habsent]
    exact ⟨⟨volumeOf d, rfl, .inl ⟨true, rfl⟩⟩, diskOf d, rfl⟩
  · have hhas : vm.Present (volumeNameOf d) :=
      present_iff.mpr (by rw [hv]; exact cons_ne_nil _ _)
    rw [hv, length_singleton, length_eq_one_iff] at hdevices
    obtain ⟨disk, hdisk⟩ := hdevices
    rw [hv, hdisk, if_pos hhas, if_pos hhas]
    exact ⟨⟨v, rfl, hmounts⟩, disk, rfl⟩

/-- A pass in which no claim is refused ends with what is declared exactly if it fits what the
machine has under the declared names. -/
theorem syncDisks_converged_iff (hclaims : (spec.map DiskAttachment.claim).Nodup) :
    Converged spec attached vm (syncDisks it holder spec attached vm disks) ↔ Fits spec vm := by
  refine ⟨Converged.fits h hclaims, fun hfits => ⟨fun d => hfits.mounted h, kept_syncDisks h,
    gone_syncDisks h, still_syncDisks h, fun _ d hd => ?_⟩⟩
  obtain ⟨⟨v, hv, hmounts⟩, -⟩ :
      (∃ v, (syncDisks it holder spec attached vm disks).vm.volumes.filter
        (·.name = volumeNameOf d) = [v] ∧ v.Mounts d.claim) ∧ _ := hfits.mounted h hd
  have hmem : v ∈ [v] := mem_singleton_self v
  rw [← hv] at hmem
  exact ⟨v, (mem_filter.mp hmem).1, hmounts⟩

end Pass

/-- A first disk. -/
theorem syncDisks_converged_first :
    Converged [⟨"data", "", ""⟩] [] ⟨[⟨"rootdisk", .dataVolume "web-root-1" false⟩],
        [⟨"rootdisk", .disk "virtio"⟩]⟩
      (syncDisks ⟨id, fun _ => .refl _⟩ ⟨"web", "uid-1", by decide, by decide⟩
        [⟨"data", "", ""⟩] [] ⟨[⟨"rootdisk", .dataVolume "web-root-1" false⟩],
          [⟨"rootdisk", .disk "virtio"⟩]⟩ (AList.insert "data" ∅ ∅)) := by
  refine (syncDisks_converged_iff (by decide +kernel) (by decide)).mpr ⟨by decide, ?_, ?_⟩
  · rw [forall_mem_singleton]
    exact .inl (by decide)
  · decide

/-- The disk of a volume with a name of its own is rolled back. -/
theorem not_syncDisks_converged :
    ¬ ∀ (it : Iteration) (holder : Holder) (spec : List DiskAttachment) (attached : List String)
      (vm : VirtualMachine) (disks : DataVolumes), (spec.map DiskAttachment.claim).Nodup →
      (claimEach holder disks (toClaim it spec vm)).refused = [] →
      Converged spec attached vm (syncDisks it holder spec attached vm disks) := by
  intro hall
  let vm : VirtualMachine :=
    ⟨[⟨"logs", .dataVolume "logs-1" true⟩], [⟨"logs", .disk "virtio"⟩]⟩
  have hconverged := hall ⟨id, fun _ => .refl _⟩ ⟨"web", "uid-1", by decide, by decide⟩
    [⟨"logs-1-rb-123456", "logs", ""⟩] ["logs"] vm ∅ (by decide) (by decide +kernel)
  obtain ⟨⟨v, hv, hmounts⟩, -⟩ := hconverged.mounted _ (mem_singleton_self _)
  have hvolumes : [v] = [⟨"logs", .dataVolume "logs-1" true⟩] :=
    hv.symm.trans (by decide +kernel)
  obtain rfl := singleton_inj.mp hvolumes
  have hclaim := hmounts.unique (.inl ⟨true, rfl⟩)
  revert hclaim
  decide

end Disks
