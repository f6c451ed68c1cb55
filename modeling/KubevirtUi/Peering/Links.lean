import KubevirtUi.Peering.Passes

/-!
# Links apart

The allocator keeps away from every link it can see, and what it hands out it can
see again. A pinned link is taken as it is, so it has to be one the allocator can
see, and apart from the links the others hold, at the moment it is recorded; then
no two objects ever hold links that overlap.
-/

namespace Peering

open Go Go.Netip Interference

theorem overlaps_symm {p q : Prefix} (h : p.overlaps q = true) : q.overlaps p = true := by
  cases p with
  | v4 p =>
    cases q with
    | v4 q =>
      simp only [Prefix.overlaps, decide_eq_true_eq, Nat.min_comm q.bits] at h ⊢
      exact h.symm
    | v6 q => contradiction
  | v6 p =>
    cases q with
    | v4 q => contradiction
    | v6 q =>
      simp only [Prefix.overlaps, decide_eq_true_eq, Nat.min_comm q.bits] at h ⊢
      exact h.symm

theorem cidrsOverlap_symm {a b : String} (h : cidrsOverlap a b) : cidrsOverlap b a := by
  obtain ⟨p, q, hp, hq, hover⟩ := h
  exact ⟨q, p, hq, hp, overlaps_symm hover⟩

theorem parsePrefix_empty : parsePrefix "" = none := by decide

theorem not_cidrsOverlap_empty (b : String) : ¬ cidrsOverlap "" b := by
  rintro ⟨p, q, hp, -⟩
  rw [parsePrefix_empty] at hp
  contradiction

instance (a b : String) : Decidable (cidrsOverlap a b) :=
  decidable_of_iff (∃ p ∈ parsePrefix a, ∃ q ∈ parsePrefix b, p.overlaps q = true) <| by
    simp [cidrsOverlap, Option.mem_def]

/-- The allocator keeps away from this link: it is a /30, or away from the pool. -/
def SeenText (cidr : String) : Prop := ∀ p ∈ parsePrefix cidr, Seen p

instance (cidr : String) : Decidable (SeenText cidr) := by
  unfold SeenText
  infer_instance

/-- No link that another object holds overlaps this one. -/
def ApartFrom (w : World) (name cidr : String) : Prop :=
  ∀ e ∈ w.peerings.entries, e.1 ≠ name → ¬ cidrsOverlap e.2.value.status.linkCIDR cidr

instance (w : World) (name cidr : String) : Decidable (ApartFrom w name cidr) := by
  unfold ApartFrom
  infer_instance

/-- A pinned link that is about to be recorded is one the allocator can see, and
apart from the links of the others. -/
def PinApart (w : World) : Request → Prop
  | .updateStatus name link => ∀ current ∈ w.peerings.lookup name,
      (parse current.value.linkCIDR).toOption.map Link.cidr = some link.value.status.linkCIDR →
        SeenText link.value.status.linkCIDR ∧ ApartFrom w name link.value.status.linkCIDR
  | _ => True

instance (w : World) (r : Request) : Decidable (PinApart w r) := by
  unfold PinApart
  cases r <;> infer_instance

def PinsApart (s : State) : Step → Prop
  | .call _ => ∀ job ∈ s.request, PinApart s.world job.2
  | _ => True

instance (s : State) (label : Step) : Decidable (PinsApart s label) := by
  unfold PinsApart
  cases label <;> infer_instance

/-- The links held are links, the allocator can see them, and they are apart. -/
structure World.Apart (w : World) : Prop where
  kept : ∀ name link, w.peerings.lookup name = some link → ∀ chosen,
    parse link.value.status.linkCIDR = .ok chosen → chosen.cidr = link.value.status.linkCIDR
  seen : ∀ name link, w.peerings.lookup name = some link → SeenText link.value.status.linkCIDR
  apart : ∀ name other link link', name ≠ other → w.peerings.lookup name = some link →
    w.peerings.lookup other = some link' →
    ¬ cidrsOverlap link.value.status.linkCIDR link'.value.status.linkCIDR

variable {link : PeeringObject} {chosen : Link}

namespace World.Apart

variable {w : World} {name : String}

theorem putPeering (h : w.Apart) (hkept : ∀ chosen, parse link.status.linkCIDR = .ok chosen →
      chosen.cidr = link.status.linkCIDR) (hseen : SeenText link.status.linkCIDR)
    (hapart : ∀ other x, other ≠ name → w.peerings.lookup other = some x →
      ¬ cidrsOverlap x.value.status.linkCIDR link.status.linkCIDR) :
    (w.putPeering name link).Apart := by
  have hlookup {other : String} {x : Versioned PeeringObject}
      (hx : (w.putPeering name link).peerings.lookup other = some x) :
      (other = name ∧ x.value = link) ∨ (other ≠ name ∧ w.peerings.lookup other = some x) := by
    by_cases hname : other = name
    · subst hname
      rw [World.putPeering, AList.lookup_insert, Option.some.injEq] at hx
      exact .inl ⟨rfl, by rw [← hx]⟩
    · exact .inr ⟨hname, by rwa [World.putPeering, AList.lookup_insert_ne hname] at hx⟩
  refine ⟨fun other x hx => ?_, fun other x hx => ?_, fun first second x y hne hx hy => ?_⟩
  · obtain ⟨-, heq⟩ | ⟨-, hx⟩ := hlookup hx
    · rw [heq]
      exact hkept
    · exact h.kept other x hx
  · obtain ⟨-, heq⟩ | ⟨-, hx⟩ := hlookup hx
    · rw [heq]
      exact hseen
    · exact h.seen other x hx
  · rcases hlookup hx with ⟨hfirst, heq⟩ | ⟨hfirst, hold⟩ <;>
      obtain ⟨hsecond, heq'⟩ | ⟨hsecond, hold'⟩ := hlookup hy
    · exact absurd (hfirst.trans hsecond.symm) hne
    · rw [heq]
      exact fun hover => hapart second y hsecond hold' (cidrsOverlap_symm hover)
    · rw [heq']
      exact hapart first x hfirst hold
    · exact h.apart first second x y hne hold hold'

theorem rewrite {old : Versioned PeeringObject} (h : w.Apart)
    (hold : w.peerings.lookup name = some old)
    (hlink : link.status.linkCIDR = old.value.status.linkCIDR) :
    (w.putPeering name link).Apart := by
  refine h.putPeering ?_ ?_ fun other x hne hx => ?_ <;> rw [hlink]
  · exact h.kept name old hold
  · exact h.seen name old hold
  · exact h.apart other name x old hne hx hold

theorem congr {v : World} (h : w.Apart) (heq : v.peerings = w.peerings) : v.Apart :=
  ⟨by rw [heq]; exact h.kept, by rw [heq]; exact h.seen, by rw [heq]; exact h.apart⟩

theorem erasePeering (h : w.Apart) : (w.erasePeering name).Apart :=
  ⟨fun other x hx => h.kept other x (Store.lookup_of_erase hx),
    fun other x hx => h.seen other x (Store.lookup_of_erase hx),
    fun first second x y hne hx hy =>
      h.apart first second x y hne (Store.lookup_of_erase hx) (Store.lookup_of_erase hy)⟩

end World.Apart

theorem apart_act (action : Action) {w : World} (h : w.Apart) : (act action w).Apart := by
  rcases act_cases action w with ⟨name, link, heq, hlink⟩ | ⟨name, old, hold, -, heq⟩ |
    ⟨name, vpc, heq, -⟩ | ⟨name, heq⟩ | ⟨subnets, heq⟩ <;> rw [heq]
  · obtain ⟨hnone, hstatus, -⟩ | ⟨old, hold, hstatus, -⟩ := hlink
    · have hempty : link.status.linkCIDR = "" := by rw [hstatus]
      refine h.putPeering ?_ ?_ fun other x hne hx => ?_ <;> rw [hempty]
      · intro chosen hchosen
        simp [parse, parsePrefix_empty] at hchosen
      · simp [SeenText, parsePrefix_empty]
      · exact fun hover => not_cidrsOverlap_empty _ (cidrsOverlap_symm hover)
    · exact h.rewrite hold (by rw [hstatus])
  · exact h.erasePeering
  · exact h.congr rfl
  · exact h.congr rfl
  · exact h.congr rfl

theorem Chosen.parse_cidr {name : String} {w : World} (h : Chosen name link w chosen) :
    parse chosen.cidr = .ok chosen := by
  cases h with
  | pinned _ hparse => exact Link.parse_cidr hparse
  | kept _ hparse => exact Link.parse_cidr hparse
  | allocated used _ _ hfree _ =>
    obtain ⟨i, -, rfl, -⟩ := allocate_eq_ok hfree
    exact Link.parse_cidr (parse_poolLink i)

/-- What has been handed out can be seen again, and keeps away from the others. -/
theorem apart_allocated {w : World} (h : w.Apart) {name : String} {used : List String}
    (hfree : allocate used = .ok chosen) (hheld : HeldIn name used w) :
    SeenText chosen.cidr ∧ ∀ other x, other ≠ name → w.peerings.lookup other = some x →
      ¬ cidrsOverlap x.value.status.linkCIDR chosen.cidr := by
  refine ⟨fun p hp => ?_, fun other x hne hx hover => ?_⟩
  · obtain ⟨i, hi, rfl, -⟩ := allocate_eq_ok hfree
    rw [ofPrefix_poolLink_cidr hi, parsePrefix_prefixString, Option.mem_some_iff] at hp
    rw [← hp]
    exact .inl rfl
  · by_cases hempty : x.value.status.linkCIDR = ""
    · rw [hempty] at hover
      exact not_cidrsOverlap_empty _ hover
    · exact not_cidrsOverlap_of_allocate hfree (hheld other x hne hx hempty)
        (h.seen other x hx) hover

theorem ApartFrom.lookup {w : World} {name cidr other : String} {x : Versioned PeeringObject}
    (h : ApartFrom w name cidr) (hne : other ≠ name) (hx : w.peerings.lookup other = some x) :
    ¬ cidrsOverlap x.value.status.linkCIDR cidr :=
  h ⟨other, x⟩ (AList.mem_lookup_iff.mp hx) hne

theorem apart_newPlan {w : World} {name : String} {current : Versioned PeeringObject}
    {status : Status} (h : w.Apart) (hcurrent : w.peerings.lookup name = some current)
    (hplan : NewPlan name current.value status w)
    (hpin : (parse current.value.linkCIDR).toOption.map Link.cidr = some status.linkCIDR →
      SeenText status.linkCIDR ∧ ApartFrom w name status.linkCIDR) :
    (w.putPeering name { current.value with status }).Apart := by
  obtain ⟨-, chosen, hlink, hchosen⟩ := hplan
  have hself : ∀ c, parse status.linkCIDR = .ok c → c.cidr = status.linkCIDR := by
    intro c hc
    rw [hlink, hchosen.parse_cidr, Except.ok.injEq] at hc
    rw [← hc, hlink]
  cases hchosen with
  | kept _ hparse =>
    exact h.rewrite hcurrent (hlink.trans (h.kept name current hcurrent chosen hparse))
  | pinned _ hparse =>
    obtain ⟨hseen, hapart⟩ := hpin (by rw [hparse, hlink]; rfl)
    exact h.putPeering hself hseen fun other x hne hx => hapart.lookup hne hx
  | allocated used _ _ hfree hheld =>
    obtain ⟨hseen, hapart⟩ := apart_allocated h hfree hheld
    rw [← hlink] at hseen hapart
    exact h.putPeering hself hseen hapart

theorem apart_commit {w : World} {name : String} {r : Request} (hpin : PinApart w r)
    (hgood : Good name w r) (h : w.Apart) : (commit w r).2.Apart := by
  refine commit_rule h ?_ ?_ ?_
  · rintro target link current rfl hcurrent -
    split
    · exact h.erasePeering
    · exact h.rewrite hcurrent rfl
  · rintro target link current rfl hcurrent hversion
    obtain ⟨rfl, hgood⟩ := hgood
    have hput :
        (w.putPeering target { current.value with status := link.value.status }).Apart := by
      obtain hsame | hplan := (hgood current hcurrent hversion).2
      · exact h.rewrite hcurrent (congrArg Prod.fst hsame)
      · exact apart_newPlan h hcurrent hplan (hpin current hcurrent)
    exact hput.congr (by simp [World.putPeering])
  · rintro router vpc purpose current rfl - -
    exact h.congr (by simp)

/-- What the allocator hands out is one of the first sixty-two /30s of the pool and
keeps away from every link in use that it can see; it fails when all of them are in
use. And as long as pinned links are recorded apart, no two objects hold links that
overlap. -/
theorem links_apart (used : List String) {s : State} (h : Runs PinsApart s) :
    (∀ link, allocate used = .ok link → ∃ i < 62, link = Link.ofPrefix (poolLink i) ∧
      ∀ u ∈ used, SeenText u → ¬ cidrsOverlap u link.cidr) ∧
    (∀ e, allocate used = .error e → ∀ i < 62, ∃ u ∈ used, ∃ p,
      parsePrefix (trimSpace u) = some p ∧ p.masked = poolLink i) ∧
    ∀ name other link link', name ≠ other → s.world.peerings.lookup name = some link →
      s.world.peerings.lookup other = some link' →
      ¬ cidrsOverlap link.value.status.linkCIDR link'.value.status.linkCIDR := by
  have hapart : s.world.Apart := Runs.invariant ⟨by simp, by simp, by simp⟩
    (fun _ action _ _ h => apart_act action h)
    (fun _ _ _ _ hcond hrequest _ hgood h => apart_commit (hcond _ hrequest) hgood h) h
  refine ⟨fun link hfree => ?_, fun e herror i hi => ?_, hapart.apart⟩
  · obtain ⟨i, hi, hlink, -⟩ := allocate_eq_ok hfree
    exact ⟨i, hi, hlink, fun u hu hseen => not_cidrsOverlap_of_allocate hfree hu hseen⟩
  · exact mem_takenTexts.mp (allocate_eq_error herror i hi)

/-- Two peerings of one router, established one after the other, the second over a
pinned link. -/
def pinnedSecond (linkCIDR : String) : List Step :=
  threeRouters ++ [.act (.createPeering "p" "a" "b" "" false false),
    .act (.createPeering "q" "a" "c" linkCIDR false false)] ++
    pass "p" ++ pass "p" ++ pass "q" ++ pass "q"

/-- The link that an object holds. -/
def heldLink (s : State) (name : String) : String :=
  ((s.world.peerings.lookup name).map (·.value.status.linkCIDR)).getD ""

theorem links_apart_pinned : ∃ s, Runs PinsApart s ∧
    heldLink s "p" = "169.254.101.0/30" ∧ heldLink s "q" = "169.254.101.4/30" ∧
    (∀ link, allocate ["169.254.101.0/30"] = .ok link → ∃ i < 62,
      link = Link.ofPrefix (poolLink i) ∧
      ∀ u ∈ ["169.254.101.0/30"], SeenText u → ¬ cidrsOverlap u link.cidr) ∧
    ∀ name other link link', name ≠ other → s.world.peerings.lookup name = some link →
      s.world.peerings.lookup other = some link' →
      ¬ cidrsOverlap link.value.status.linkCIDR link'.value.status.linkCIDR := by
  obtain ⟨s, hrun, hp, hq⟩ : ∃ s, Runs PinsApart s ∧ heldLink s "p" = "169.254.101.0/30" ∧
      heldLink s "q" = "169.254.101.4/30" :=
    ⟨play (pinnedSecond "169.254.101.4/30") ⟨{}, none⟩, Runs.play .refl (by decide +kernel),
      by decide +kernel, by decide +kernel⟩
  have hapart := links_apart ["169.254.101.0/30"] hrun
  exact ⟨s, hrun, hp, hq, hapart.1, hapart.2.2⟩

/-- The texts of the first sixty-two /30s. -/
def firstLinks : List String := (List.range 62).map fun i => prefixString (poolLink i)

theorem not_overlaps_poolLink : ∀ i < 62, (poolLink i).overlaps (poolLink 62) = false := by
  decide

/-- A wide network in use is not seen; the last two /30s are never handed out; and a
pinned link is taken as it is. -/
theorem links_collide : (∃ link, allocate ["169.254.101.0/24"] = .ok link ∧
      cidrsOverlap "169.254.101.0/24" link.cidr) ∧ (∃ e, allocate firstLinks = .error e ∧
      ∀ u ∈ firstLinks, ¬ cidrsOverlap u (prefixString (poolLink 62))) ∧
    ∃ s, Runs (fun _ _ => True) s ∧ cidrsOverlap (heldLink s "p") (heldLink s "q") := by
  refine ⟨⟨Link.ofPrefix (poolLink 0), by decide +kernel, by decide +kernel⟩,
    ⟨.exhausted, allocate_exhausted fun i hi => ?_, fun u hu => ?_⟩,
    play (pinnedSecond "169.254.101.0/30") ⟨{}, none⟩, Runs.play .refl (by decide +kernel),
    by decide +kernel⟩
  · exact List.mem_map.mpr ⟨i, List.mem_range.mpr hi, rfl⟩
  · obtain ⟨i, hi, rfl⟩ := List.mem_map.mp hu
    rintro ⟨p, q, hp, hq, hover⟩
    rw [parsePrefix_prefixString, Option.some.injEq] at hp hq
    rw [← hp, ← hq, not_overlaps_poolLink i (List.mem_range.mp hi)] at hover
    exact Bool.false_ne_true hover

end Peering
