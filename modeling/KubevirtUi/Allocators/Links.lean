import KubevirtUi.Allocators.Calls
import KubevirtUi.Python.Ipaddress

/-!
# Links of peerings

A link is one of the 62 blocks of four addresses that the pool has, and the counter is
past every link that has been handed out. Two calls never return one link, however they
overlap; a call whose listing fails may return one that is in use.
-/

namespace Allocators

open Interference Python.Ipaddress

variable {ι : Type}

/-- An entry of a VPC's `vpcPeerings`. -/
structure Peering where
  vpc : String
  remoteVpc : String
  localConnectIP : String
  deriving DecidableEq

/-- The two addresses of a link, and its network; all three are printed when they are
returned. -/
structure PeeringLink where
  localIp : BitVec 32
  remoteIp : BitVec 32
  cidr : Block 32
  deriving DecidableEq

/-- `169.254.101.0` -/
def peeringLinkBase : Int := 0xA9FE6500

def peeringLinkMax : Int := 62

def peeringLinkAddresses (index : Int) : PeeringLink :=
  let net : Block 32 := Block.masked
    ⟨BitVec.ofInt 32 (peeringLinkBase + index * 4), 30, Block.le_bits_30⟩
  ⟨net.base + 1, net.base + 2, net⟩

variable (parse6 : String → Option (Block 128))

/-- The networks that are claimed by a peering; an address that cannot be read claims
none. -/
def peeringLinkCidrs (peerings : List Peering) : List Network :=
  peerings.filterMap fun p =>
    if p.localConnectIP = "" then none else ipNetwork parse6 p.localConnectIP

/-- The first link from an index on that is not used, with so many left. -/
def firstFree (used : List Network) : (left : Nat) → Int → Option Int
  | 0, _ => none
  | left + 1, index =>
    if .v4 (peeringLinkAddresses index).cidr ∉ used then some index
    else firstFree used left (index + 1)

def chooseLink : Choose (List Peering) PeeringLink := fun nextIndex seen =>
  let used := (seen.map (peeringLinkCidrs parse6)).getD []
  match firstFree used (peeringLinkMax - nextIndex).toNat nextIndex with
  | none => .error (.http "VPC peering link pool exhausted (max 62 links)")
  | some index => .ok (index, peeringLinkAddresses index)

def allocatePeeringLink : Call (List Peering) (Except Failure PeeringLink) :=
  attempts (allocateOnce (chooseLink parse6)) "Peering link allocation failed after retries"
    maxRetries

section Choice

variable {parse6} {used : List Network} {left : Nat} {nextIndex index : Int}
  {seen : Option (List Peering)} {link : PeeringLink}

theorem firstFree_eq_some (h : firstFree used left nextIndex = some index) :
    nextIndex ≤ index ∧ index < nextIndex + left ∧
      .v4 (peeringLinkAddresses index).cidr ∉ used := by
  induction left generalizing nextIndex with
  | zero => simp [firstFree] at h
  | succ left ih =>
    rw [firstFree] at h
    split at h
    · next hfree =>
      obtain rfl := Option.some.inj h
      exact ⟨Int.le_refl _, by omega, hfree⟩
    · obtain ⟨hle, hlt, hfree⟩ := ih h
      exact ⟨by omega, by omega, hfree⟩

theorem firstFree_eq_none (h : firstFree used left nextIndex = none) (hle : nextIndex ≤ index)
    (hlt : index < nextIndex + left) : .v4 (peeringLinkAddresses index).cidr ∈ used := by
  induction left generalizing nextIndex with
  | zero => omega
  | succ left ih =>
    rw [firstFree] at h
    split at h
    · contradiction
    · next hused =>
      obtain rfl | hne := eq_or_ne index nextIndex
      · exact not_not.mp hused
      · exact ih h (by omega) (by omega)

theorem chooseLink_eq_ok (h : chooseLink parse6 nextIndex seen = .ok (index, link)) :
    nextIndex ≤ index ∧ index < peeringLinkMax ∧ link = peeringLinkAddresses index ∧
      ∀ peerings, seen = some peerings → .v4 link.cidr ∉ peeringLinkCidrs parse6 peerings := by
  rw [chooseLink] at h
  split at h
  · contradiction
  · next picked hpicked =>
    simp only [Except.ok.injEq, Prod.mk.injEq] at h
    obtain ⟨rfl, rfl⟩ := h
    obtain ⟨hle, hlt, hfree⟩ := firstFree_eq_some hpicked
    refine ⟨hle, by omega, rfl, fun peerings hseen => ?_⟩
    subst hseen
    exact hfree

end Choice

theorem toNat_peeringLink (k : Nat) (hk : k < 62) :
    (peeringLinkAddresses k).cidr.base.toNat = 0xA9FE6500 + 4 * k := by
  have hall : ∀ k ∈ List.range 62,
      (peeringLinkAddresses k).cidr.base.toNat = 0xA9FE6500 + 4 * k := by decide
  exact hall k (List.mem_range.mpr hk)

theorem peeringLink_injective {k l : Nat} (hk : k < 62) (hl : l < 62)
    (h : (peeringLinkAddresses k).cidr = (peeringLinkAddresses l).cidr) : k = l := by
  have hbase := congrArg (fun p => p.base.toNat) h
  simp only [toNat_peeringLink k hk, toNat_peeringLink l hl] at hbase
  omega

section Runs

/-- What is there when the calls start; a counter that only allocations have moved is not
negative. -/
structure LinkStart extends Start (List Peering) where
  counted : 0 ≤ toStart.next

/-- The client has listed the peerings at this point, and not again since. -/
def ListedAt (i : ι) (seen : Option (List Peering)) (before log : List (Event ι (List Peering))) :
    Prop :=
  ∃ more, log = before ++ .listed i seen :: more ∧ ∀ s, .listed i s ∉ more

variable {parse6} {s : LinkStart} {log : List (Event ι (List Peering))} {i j : ι}
  {a b : PeeringLink}

section

variable (horderly : Orderly s.next (chooseLink parse6) s.cluster log)

include horderly

/-- A link that has been reserved is one of the pool, at or past the counter as it was. -/
theorem Done.link (h : Done s.next (chooseLink parse6) i a log) :
    ∃ (before : List (Event ι (List Peering))) (k : Nat), k < 62 ∧ a = peeringLinkAddresses k ∧
      before ++ [.reserved i ((k : Int) + 1)] <+: log ∧ current s.next before ≤ k := by
  obtain ⟨before, next, more, hlog, -, seen, -, hchoose⟩ := h
  obtain ⟨hle, hlt, ha, -⟩ := chooseLink_eq_ok hchoose
  have hpre : before ++ [.reserved i next] <+: log := ⟨more, by simp [hlog]⟩
  have hmono := horderly.current_le (fun _ _ _ _ hc => (chooseLink_eq_ok hc).1)
    (List.nil_prefix (l := before)) ((List.prefix_append _ _).trans hpre)
  have hcounted := s.counted
  have hnil : current s.next ([] : List (Event ι (List Peering))) = s.next := rfl
  rw [hnil] at hmono
  simp only [peeringLinkMax] at hlt
  obtain ⟨k, hk⟩ := Int.eq_ofNat_of_zero_le (a := next - 1) (by omega)
  rw [hk] at hle hlt ha
  refine ⟨before, k, by omega, ha, ?_, hle⟩
  rwa [show (k : Int) + 1 = next by omega]

theorem lt_of_reserved_before {earlier later : List (Event ι (List Peering))} {k l : Nat}
    (hij : i ≠ j)
    (hearlier : earlier ++ [.reserved i ((k : Int) + 1)] <+: later ++ [.reserved j ((l : Int) + 1)])
    (hlater : later ++ [.reserved j ((l : Int) + 1)] <+: log) (hle : current s.next later ≤ l) :
    k < l := by
  obtain ⟨-, hlast⟩ | hpre := Logs.last_or_before hearlier
  · exact absurd (Event.reserved.inj hlast).1 hij
  · have hmono := horderly.current_le (fun _ _ _ _ hc => (chooseLink_eq_ok hc).1) hpre
      ((List.prefix_append _ _).trans hlater)
    rw [current_concat_reserved] at hmono
    omega

theorem Done.cidr_ne (hij : i ≠ j) (ha : Done s.next (chooseLink parse6) i a log)
    (hb : Done s.next (chooseLink parse6) j b log) : a.cidr ≠ b.cidr := by
  obtain ⟨before, k, hk, rfl, hpre, hle⟩ := ha.link horderly
  obtain ⟨before', l, hl, rfl, hpre', hle'⟩ := hb.link horderly
  intro hcidr
  obtain rfl := peeringLink_injective hk hl hcidr
  obtain h | h := List.prefix_or_prefix_of_prefix hpre hpre'
  · exact absurd (lt_of_reserved_before horderly hij h hpre' hle') (Nat.lt_irrefl _)
  · exact absurd (lt_of_reserved_before horderly hij.symm h hpre hle) (Nat.lt_irrefl _)

/-- A link that has been reserved was not in use when its client listed the peerings. -/
theorem Done.listed (h : Done s.next (chooseLink parse6) i a log) :
    ∃ before seen, ListedAt i seen before log ∧ ∀ peerings, seen = some peerings →
      peerings = clusterAfter s.cluster before ∧ .v4 a.cidr ∉ peeringLinkCidrs parse6 peerings := by
  obtain ⟨reserved, next, more, rfl, hmore, seen, ⟨before, after, rfl, hafter⟩, hchoose⟩ := h
  obtain ⟨-, -, -, hfree⟩ := chooseLink_eq_ok hchoose
  refine ⟨before, seen, ⟨after ++ .reserved i next :: more, by simp, fun s' hs' => ?_⟩, ?_⟩
  · simp only [List.mem_append, List.mem_cons, reduceCtorEq, false_or] at hs'
    obtain hs' | hs' := hs'
    · exact hafter _ hs' rfl
    · exact hmore _ hs' rfl
  · intro peerings hseen
    subst hseen
    exact ⟨horderly.listed before i peerings ⟨after ++ .reserved i next :: more, by simp⟩,
      hfree peerings rfl⟩

end

/-- However the calls overlap, no two of them return one link, and each returns a link of
the pool; where the call's last listing was answered, the link was not in use then. -/
theorem links_distinct [DecidableEq ι] (parse6 : String → Option (Block 128)) (s : LinkStart)
    {t : Crowd (World ι (List Peering)) Request (Request.Response (List Peering)) ι
      (Except Failure PeeringLink)}
    (h : Crowd.Run serve act (fun _ _ => True) (calls s.toStart (allocatePeeringLink parse6)) t) :
    (∀ i j a b, i ≠ j → t.rest i = .pure (.ok a) → t.rest j = .pure (.ok b) →
      a.cidr ≠ b.cidr) ∧ ∀ i a, t.rest i = .pure (.ok a) →
      (∃ k : Nat, k < 62 ∧ a = peeringLinkAddresses k) ∧
      ∃ before seen, ListedAt i seen before t.world.log ∧ ∀ peerings, seen = some peerings →
        peerings = clusterAfter s.cluster before ∧
          .v4 a.cidr ∉ peeringLinkCidrs parse6 peerings := by
  have hcall : ∀ i : ι, Reserves s.next (chooseLink parse6) i (allocatePeeringLink parse6) :=
    fun i => reserves_attempts reserves_allocateOnce _ _
  obtain ⟨⟨horderly, -⟩, hdone⟩ := orderly_of_run hcall h
  refine ⟨fun i j a b hij ha hb => (hdone i a ha).cidr_ne horderly hij (hdone j b hb), ?_⟩
  intro i a ha
  obtain ⟨-, k, hk, hlink, -, -⟩ := (hdone i a ha).link horderly
  exact ⟨⟨k, hk, hlink⟩, (hdone i a ha).listed horderly⟩

/-- No counter yet. -/
def uncounted (peerings : List Peering) : LinkStart where
  clock := 0
  counter := none
  cluster := peerings
  timely := by simp
  counted := Int.le_refl 0

/-- Two calls find no counter; one creates it, the other starts over. -/
def firstEver : List (Turn (List Peering) Fault Bool) :=
  [.call false none, .call true none, .call false none, .call true none, .call true none,
    .call false none, .call true none, .call false none, .call true none,
    .call true none, .call true none, .call true none]

theorem links_distinct_firstEver : ∃ t a b,
    Crowd.play serve act (calls (uncounted []).toStart (allocatePeeringLink fun _ => none))
      firstEver = some t ∧
    t.rest false = .pure (.ok a) ∧ t.rest true = .pure (.ok b) ∧ a.cidr ≠ b.cidr := by
  have hplay : Crowd.play serve act
    (calls (uncounted []).toStart (allocatePeeringLink fun _ => none)) firstEver = some _ := rfl
  obtain ⟨hdistinct, -⟩ := links_distinct (fun _ => none) (uncounted []) (Crowd.run_of_play hplay)
  exact ⟨_, _, _, hplay, rfl, rfl, hdistinct false true _ _ (by decide) rfl rfl⟩

/-- The first link is in use, but the listing fails: the call returns that link. -/
theorem links_unlisted : ∃ t a, Crowd.play serve act
      (calls (uncounted [⟨"a", "b", "169.254.101.1/30"⟩]).toStart
        (allocatePeeringLink fun _ => none))
      [.call () none, .call () none, .call () (some 500), .call () none] = some t ∧
    t.rest () = .pure (.ok a) ∧ t.world.cluster = [⟨"a", "b", "169.254.101.1/30"⟩] ∧
    .v4 a.cidr ∈ peeringLinkCidrs (fun _ => none) t.world.cluster :=
  ⟨_, _, rfl, rfl, rfl, by decide⟩

end Runs

end Allocators
