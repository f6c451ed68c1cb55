import KubevirtUi.Allocators.Links

/-!
# Peerings come and go

Every new peering takes a link, and a deleted one frees it; but the counter stays where
it is, and no link below it is looked at again. What decides whether a further peering
can be made is not whether a link is free, but whether one is free from the counter on.
-/

namespace Allocators

open Interference Python.Ipaddress

variable (parse6 : String → Option (Block 128))

/-- One side of a peering is written onto its router, in place of what there was. -/
def writeSide (vpc remoteVpc : String) (ip : BitVec 32) (link : PeeringLink)
    (peerings : List Peering) : List Peering :=
  peerings.filter (fun p => ¬ (p.vpc = vpc ∧ p.remoteVpc = remoteVpc)) ++
    [⟨vpc, remoteVpc, networkStr ⟨ip, link.cidr.bits, link.cidr.bits_le⟩⟩]

/-- Both sides are written. -/
def writePair (a b : String) (link : PeeringLink) (peerings : List Peering) : List Peering :=
  writeSide b a link.remoteIp link (writeSide a b link.localIp link peerings)

/-- Both sides are removed. -/
def removePair (a b : String) (peerings : List Peering) : List Peering :=
  peerings.filter fun p =>
    ¬ (p.vpc = a ∧ p.remoteVpc = b) ∧ ¬ (p.vpc = b ∧ p.remoteVpc = a)

abbrev LinkWorld := World Unit (List Peering)

/-- One call, which nobody disturbs. -/
def LinkWorld.allocate (w : LinkWorld) : Except Failure PeeringLink × LinkWorld :=
  (allocatePeeringLink parse6).run (serve ()) (onlyListing none) w

/-- The histories of peerings that are made and deleted, one after the other. -/
inductive Reached : LinkWorld → Prop where
  | start (peerings : List Peering) : Reached ⟨0, none, peerings, []⟩
  | created {w : LinkWorld} {link : PeeringLink} (a b : String) : Reached w →
      (w.allocate parse6).1 = .ok link →
      Reached (act (writePair a b link (w.allocate parse6).2.cluster) (w.allocate parse6).2)
  | deleted {w : LinkWorld} (a b : String) : Reached w → Reached (act (removePair a b w.cluster) w)

/-- No VPC holds the link of this index. -/
def Free (k : Nat) (w : LinkWorld) : Prop :=
  k < 62 ∧ .v4 (peeringLinkAddresses k).cidr ∉ peeringLinkCidrs parse6 w.cluster

/-- A further call succeeds if a link is free, and says that the pool is exhausted only if
none is. -/
def GivesBack (w : LinkWorld) : Prop :=
  ((∃ k, Free parse6 k w) → ∃ link, (w.allocate parse6).1 = .ok link) ∧
    ((w.allocate parse6).1 = .error (.http "VPC peering link pool exhausted (max 62 links)") →
      ∀ k, ¬ Free parse6 k w)

variable {parse6} {w : LinkWorld}

variable (parse6) in
theorem allocate_eq (w : LinkWorld) : (∀ e, chooseLink parse6 w.next (some w.cluster) = .error e →
      (w.allocate parse6).1 = .error e) ∧
    ∀ index link, chooseLink parse6 w.next (some w.cluster) = .ok (index, link) →
      (w.allocate parse6).1 = .ok link ∧ (w.allocate parse6).2.next = index + 1 ∧
        (w.allocate parse6).2.cluster = w.cluster := by
  have hconflict : ∀ e, chooseLink parse6 w.next (w.seen none) = .error e → e ≠ .api 409 := by
    intro e he
    rw [chooseLink] at he
    split at he
    · obtain rfl := Except.error.inj he
      simp
    · contradiction
  rw [LinkWorld.allocate, allocatePeeringLink, maxRetries, run_attempts _ _ _ _ _ _ hconflict]
  exact run_allocateOnce (chooseLink parse6) () none w

theorem Reached.next_nonneg (h : Reached parse6 w) : 0 ≤ w.next := by
  induction h with
  | start peerings => exact Int.le_refl 0
  | @created w link a b _ hlink ih =>
    obtain ⟨herror, hok⟩ := allocate_eq parse6 w
    cases hchoose : chooseLink parse6 w.next (some w.cluster) with
    | error e =>
      rw [herror e hchoose] at hlink
      contradiction
    | ok picked =>
      obtain ⟨hle, -⟩ := chooseLink_eq_ok hchoose
      obtain ⟨-, hnext, -⟩ := hok _ _ hchoose
      change 0 ≤ (w.allocate parse6).2.next
      omega
  | deleted a b _ ih => exact ih

theorem allocate_succeeds_iff (hnext : 0 ≤ w.next) :
    (∃ link, (w.allocate parse6).1 = .ok link) ↔ ∃ k : Nat, w.next ≤ k ∧ Free parse6 k w := by
  obtain ⟨herror, hok⟩ := allocate_eq parse6 w
  constructor
  · rintro ⟨link, hlink⟩
    cases hchoose : chooseLink parse6 w.next (some w.cluster) with
    | error e =>
      rw [herror e hchoose] at hlink
      contradiction
    | ok picked =>
      obtain ⟨index, link'⟩ := picked
      obtain ⟨hle, hlt, rfl, hfree⟩ := chooseLink_eq_ok hchoose
      obtain ⟨k, rfl⟩ := Int.eq_ofNat_of_zero_le (Int.le_trans hnext hle)
      simp only [peeringLinkMax] at hlt
      exact ⟨k, hle, by omega, hfree _ rfl⟩
  · rintro ⟨k, hle, hlt, hfree⟩
    cases hchoose : chooseLink parse6 w.next (some w.cluster) with
    | error e =>
      rw [chooseLink] at hchoose
      split at hchoose
      · next hnone =>
        have hlt' : (k : Int) < w.next + (peeringLinkMax - w.next).toNat := by
          simp only [peeringLinkMax]
          omega
        exact absurd (firstFree_eq_none hnone hle hlt') hfree
      · contradiction
    | ok picked => exact ⟨_, (hok _ _ hchoose).1⟩

/-- In every history a further call does justice to the links that are free exactly if no
link is free, or one is free that the counter has not passed. -/
theorem givesBack_iff (h : Reached parse6 w) : GivesBack parse6 w ↔
      (∀ k, ¬ Free parse6 k w) ∨ ∃ k : Nat, w.next ≤ k ∧ Free parse6 k w := by
  rw [← allocate_succeeds_iff h.next_nonneg]
  constructor
  · rintro ⟨hsucceeds, -⟩
    by_cases hfree : ∃ k, Free parse6 k w
    · exact .inr (hsucceeds hfree)
    · exact .inl (not_exists.mp hfree)
  · rintro (hnone | ⟨link, hlink⟩)
    · exact ⟨fun ⟨k, hk⟩ => absurd hk (hnone k), fun _ => hnone⟩
    · refine ⟨fun _ => ⟨link, hlink⟩, fun herror => ?_⟩
      rw [hlink] at herror
      contradiction

variable (parse6) in
/-- A peering that is made and deleted again leaves nothing but the counter behind. -/
theorem exists_reached (n : Nat) (hn : n ≤ 62) :
    ∃ w, Reached parse6 w ∧ w.cluster = [] ∧ w.next = n := by
  induction n with
  | zero => exact ⟨_, .start [], rfl, rfl⟩
  | succ n ih =>
    obtain ⟨w, hw, hcluster, hnext⟩ := ih (by omega)
    obtain ⟨-, hok⟩ := allocate_eq parse6 w
    obtain ⟨left, hleft⟩ : ∃ left, (peeringLinkMax - w.next).toNat = left + 1 :=
      ⟨61 - n, by simp only [peeringLinkMax]; omega⟩
    have hchoose : chooseLink parse6 w.next (some w.cluster) =
        .ok (w.next, peeringLinkAddresses w.next) := by
      simp [chooseLink, hleft, firstFree, hcluster, peeringLinkCidrs]
    obtain ⟨hlink, hmoved, hkept⟩ := hok _ _ hchoose
    refine ⟨_, .deleted "a" "b" (.created "a" "b" hw hlink), ?_, ?_⟩
    · rw [act, act, hkept, hcluster]
      simp [removePair, writePair, writeSide]
    · change (w.allocate parse6).2.next = _
      rw [hmoved, hnext]
      rfl

/-- Of a first peering, which is deleted, and a second one, which stands, link 0 is given
back; the next peering takes link 2. -/
theorem givesBack_second : ∃ w, Reached (fun _ => none) w ∧ Free (fun _ => none) 0 w ∧
    ¬ Free (fun _ => none) 1 w ∧ GivesBack (fun _ => none) w := by
  obtain ⟨w, hw, hcluster, hnext⟩ := exists_reached (fun _ => none) 1 (by decide)
  obtain ⟨-, hok⟩ := allocate_eq (fun _ => none) w
  have hchoose : chooseLink (fun _ => none) w.next (some w.cluster) =
      .ok (1, peeringLinkAddresses 1) := by
    rw [hcluster, hnext]
    rfl
  obtain ⟨hlink, hmoved, hkept⟩ := hok _ _ hchoose
  have hstands : (act (writePair "c" "d" (peeringLinkAddresses 1)
        (w.allocate (fun _ => none)).2.cluster) (w.allocate (fun _ => none)).2).cluster =
      writePair "c" "d" (peeringLinkAddresses 1) [] := by
    rw [act, hkept, hcluster]
  have hreached := Reached.created "c" "d" hw hlink
  refine ⟨_, hreached, ?_, ?_, (givesBack_iff hreached).mpr (.inr ⟨2, ?_, ?_⟩)⟩
  · rw [Free, hstands]
    decide
  · rw [Free, hstands]
    decide
  · exact Int.le_of_eq hmoved
  · rw [Free, hstands]
    decide

/-- After 62 peerings have been made and deleted, one after the other, every link is free
and no peering can be made. -/
theorem not_givesBack : ∃ w, Reached (fun _ => none) w ∧ ¬ GivesBack (fun _ => none) w := by
  obtain ⟨w, hw, hcluster, hnext⟩ := exists_reached (fun _ => none) 62 (Nat.le_refl 62)
  refine ⟨w, hw, fun hgives => ?_⟩
  have hfree : Free (fun _ => none) 0 w := by
    rw [Free, hcluster]
    exact ⟨by decide, by simp [peeringLinkCidrs]⟩
  obtain hnone | ⟨k, hle, hlt, -⟩ := (givesBack_iff hw).mp hgives
  · exact hnone 0 hfree
  · omega

end Allocators
