import KubevirtUi.Allocators.Calls
import KubevirtUi.Allocators.Ranges
import Mathlib.Data.Int.ModEq

/-!
# Coming around

The counter walks around the ranges. Until it has come around to a range again no call
can return this range a second time, whatever the listings show. When it does come
around only a listing tells that the range is in use: the Subnet of the range has to
exist by then, and the listing has to be answered.
-/

namespace Allocators

open Interference Python.Ipaddress

variable {ι : Type}

/-- How many positions a counter is moved, around so many. -/
def moves (count : Nat) (here there : Int) : Nat := ((there - 1 - here) % count).toNat + 1

/-- How many positions the counter has been moved in all. -/
def travelled {σ : Type} (count : Nat) (init : Int) : List (Event ι σ) → Nat
  | [] => 0
  | .reserved _ next :: log => moves count init next + travelled count next log
  | _ :: log => travelled count init log

variable (parse6 : String → Option (Block 128)) (plan : AddressPlan)

/-- The ranges of the supernet. -/
def ranges : List (Block 32) := (subnets plan.supernet plan.prefixLen).getD []

/-- The text of the range that a reservation was made for. -/
def rangeText (next : Int) : Option String := ((ranges plan)[(next - 1).toNat]?).map networkStr

/-- A Subnet with just this block exists. -/
def Shows (cidr : String) (items : List SubnetItem) : Prop :=
  ∃ name, (name, cidr) ∈ listSubnetCidrs items

/-- Whenever the counter comes around to a range that has been handed out, the Subnet of
that range had been created when the call listed the Subnets, and the listing was
answered. -/
def ComesAround (init : Int) (cluster : List SubnetItem) (j : ι) (next : Int)
    (log : List (Event ι (List SubnetItem))) : Prop :=
  ∀ before i u, before ++ [.reserved i u] <+: log →
    travelled (ranges plan).length init (before ++ [.reserved i u]) + (ranges plan).length ≤
      travelled (ranges plan).length init log +
        moves (ranges plan).length (current init log) next →
    ∀ listing seen more, log = listing ++ .listed j seen :: more →
      (∀ e ∈ more, e.client? ≠ some j) → seen ≠ none ∧
        ∃ created, before ++ [.reserved i u] <+: created ∧ created <+: listing ∧
          ∀ cidr, rangeText plan u = some cidr → Shows cidr (clusterAfter cluster created)

/-- Whoever is about to move the counter does so under a condition on what has been done
so far. -/
def Guarded {σ α : Type} (guard : ι → Int → List (Event ι σ) → Prop)
    (t : Crowd (World ι σ) Request (Request.Response σ) ι α) (turn : Turn σ Fault ι) : Prop :=
  ∀ j fault version next k, turn = .call j fault → t.rest j = .call (.replace version next) k →
    guard j next t.world.log

section Guard

variable {σ α : Type} [DecidableEq ι] {guard : ι → Int → List (Event ι σ) → Prop}
  {s t : Crowd (World ι σ) Request (Request.Response σ) ι α}

/-- What is required of every reservation when it is made is so of all that the log has. -/
theorem guarded_of_run (h : Crowd.Run serve act (Guarded guard) s t) (hempty : s.world.log = []) :
    ∀ before j next, before ++ [.reserved j next] <+: t.world.log → guard j next before := by
  induction h with
  | refl =>
    intro before j next hpre
    rw [hempty] at hpre
    exact absurd (List.prefix_nil.mp hpre) (by simp)
  | @step t u turn _ hcond hnext ih =>
    intro before j next hpre
    -- An event that reserves nothing leaves all there is to show to the log before it.
    have hkeep (e : Event ι σ) (he : ∀ i n, e ≠ .reserved i n)
        (hp : before ++ [.reserved j next] <+: t.world.log ++ [e]) : guard j next before := by
      obtain ⟨-, hlast⟩ | hp := Logs.last_or_before hp
      · exact absurd hlast.symm (he j next)
      · exact ih before j next hp
    obtain ⟨a, rfl, rfl⟩ | ⟨i, fault, r, k, rfl, hrest, rfl⟩ := Crowd.next_cases hnext
    · exact hkeep _ (by simp) hpre
    · dsimp only at hpre
      obtain hsame | ⟨seen, -, -, hlisted⟩ | ⟨-, -, hcreated⟩ | ⟨cm, n, rfl, -, hmoved⟩ :=
        serve_cases (i := i) fault t.world r
      · rw [hsame] at hpre
        exact ih before j next hpre
      · rw [hlisted] at hpre
        exact hkeep _ (by simp) hpre
      · rw [hcreated] at hpre
        exact ih before j next hpre
      · rw [hmoved] at hpre
        obtain ⟨rfl, hlast⟩ | hpre := Logs.last_or_before hpre
        · obtain ⟨rfl, rfl⟩ := Event.reserved.inj hlast
          exact hcond j fault cm.version next k rfl hrest
        · exact ih before j next hpre

end Guard

section Travel

variable {σ : Type} {count : Nat} {init : Int} {log : List (Event ι σ)}

theorem travelled_append (log more : List (Event ι σ)) : travelled count init (log ++ more) =
      travelled count init log + travelled count (current init log) more := by
  induction log generalizing init with
  | nil => simp [travelled, current]
  | cons e log ih =>
    cases e with
    | changed s => exact ih
    | listed i seen => exact ih
    | reserved i next =>
      simp only [List.cons_append, travelled, ih]
      rw [Nat.add_assoc]
      rfl

variable (count init) in
theorem travelled_le {earlier later : List (Event ι σ)} (h : earlier <+: later) :
    travelled count init earlier ≤ travelled count init later := by
  obtain ⟨more, rfl⟩ := h
  rw [travelled_append]
  exact Nat.le_add_right _ _

theorem moves_modEq (hcount : 0 < count) (here there : Int) :
    here + moves count here there ≡ there [ZMOD count] := by
  have hnonneg := Int.emod_nonneg (there - 1 - here) (by omega : (count : Int) ≠ 0)
  have hmod : (there - 1 - here) % count ≡ there - 1 - here [ZMOD count] := Int.mod_modEq _ _
  have hadd := (hmod.add_left here).add_right 1
  rw [moves]
  push_cast
  rw [Int.toNat_of_nonneg hnonneg, ← Int.add_assoc]
  rwa [show here + (there - 1 - here) + 1 = there by omega] at hadd

theorem travelled_modEq (hcount : 0 < count) (init : Int) (log : List (Event ι σ)) :
    init + travelled count init log ≡ current init log [ZMOD count] := by
  induction log generalizing init with
  | nil => simp [travelled, current]
  | cons e log ih =>
    cases e with
    | changed s => exact ih init
    | listed i seen => exact ih init
    | reserved i next =>
      have hmoved := (moves_modEq hcount init next).add_right (travelled count next log)
      simp only [travelled]
      push_cast
      rw [← Int.add_assoc]
      exact hmoved.trans (ih next)

/-- Between two reservations of one range the counter has come around. -/
theorem travelled_add_le (hcount : 0 < count) {earlier later : List (Event ι σ)} {i : ι}
    {next : Int} (h : earlier ++ [.reserved i next] <+: later) :
    travelled count init (earlier ++ [.reserved i next]) + count ≤
      travelled count init later + moves count (current init later) next := by
  have hle := travelled_le count init h
  have hthere := travelled_modEq hcount init (earlier ++ [.reserved i next])
  rw [current_concat_reserved] at hthere
  have hhere := (travelled_modEq hcount init later).add_right
    (moves count (current init later) next)
  have hagain := hthere.trans ((hhere.trans (moves_modEq hcount _ next)).symm)
  rw [Int.add_assoc] at hagain
  have hdvd := (Int.modEq_iff_dvd.mp (Int.ModEq.add_left_cancel' init hagain))
  have hpos : 0 < moves count (current init later) next := Nat.succ_pos _
  have hgap := Int.le_of_dvd (by omega) hdvd
  omega

end Travel

section Ranges

variable {parse6} {plan} {init : Int} {cluster : List SubnetItem} {i j : ι}
  {log : List (Event ι (List SubnetItem))} {a : String × String}

theorem ranges_eq {candidates : List (Block 32)}
    (h : subnets plan.supernet plan.prefixLen = some candidates) : ranges plan = candidates := by
  rw [ranges, h]
  rfl

/-- A range that has been reserved was free in the client's last listing. -/
theorem Done.range (h : Done init (chooseVpcCidr parse6 plan) i a log) :
    plan.supernet.bits ≤ plan.prefixLen ∧
    subnets plan.supernet plan.prefixLen = some (ranges plan) ∧
    ∃ (before : List (Event ι (List SubnetItem))) (k : Nat) (hk : k < (ranges plan).length),
      before ++ [.reserved i ((k : Int) + 1)] <+: log ∧ a.1 = networkStr (ranges plan)[k] ∧
      ∃ listing seen more, before = listing ++ .listed i seen :: more ∧
        (∀ e ∈ more, e.client? ≠ some i) ∧
        ¬ Taken parse6 ((seen.map listSubnetCidrs).getD []) (ranges plan)[k] := by
  obtain ⟨before, next, more, rfl, -, seen, ⟨listing, after, rfl, hafter⟩, hchoose⟩ := h
  obtain ⟨hle, candidates, hcandidates, offset, k, hk, -, -, hindex, hcidr, hfree⟩ :=
    chooseVpcCidr_eq_ok hchoose
  obtain rfl := ranges_eq hcandidates
  obtain rfl : next = (k : Int) + 1 := by omega
  exact ⟨hle, hcandidates, _, k, hk, ⟨more, by simp⟩, hcidr, listing, seen, after, rfl, hafter,
    hfree⟩

/-- The Subnet of a range was created, and deleted again, after one client had been given
the range and before another was. -/
def Recycled (cluster : List SubnetItem) (i : ι) (cidr : String) (j : ι)
    (log : List (Event ι (List SubnetItem))) : Prop :=
  ∃ given next created deleted again next', given ++ [.reserved i next] <+: created ∧
    created <+: deleted ∧ deleted <+: again ∧ again ++ [.reserved j next'] <+: log ∧
    Shows cidr (clusterAfter cluster created) ∧ ¬ Shows cidr (clusterAfter cluster deleted)

theorem taken_of_shows {items : List SubnetItem} {p : Block 32} (hp : p.masked = p)
    (h : Shows (networkStr p) items) : Taken parse6 (listSubnetCidrs items) p := by
  obtain ⟨name, hname⟩ := h
  refine ⟨name, networkStr p, p, hname, ?_, p.overlaps_self⟩
  rw [ipNetwork_networkStr, hp]

/-- A range that is given out a second time is one whose Subnet has come and gone. -/
theorem recycled_of_again (horderly : Orderly init (chooseVpcCidr parse6 plan) cluster log)
    (hguard : ∀ before j next, before ++ [.reserved j next] <+: log →
      ComesAround plan init cluster j next before) (hle : plan.supernet.bits ≤ plan.prefixLen)
    (hranges : subnets plan.supernet plan.prefixLen = some (ranges plan))
    {given again : List (Event ι (List SubnetItem))} {k : Nat} (hk : k < (ranges plan).length)
    (hgiven : given ++ [.reserved i ((k : Int) + 1)] <+: again)
    (hagain : again ++ [.reserved j ((k : Int) + 1)] <+: log)
    {listing more : List (Event ι (List SubnetItem))} {seen : Option (List SubnetItem)}
    (hlisting : again = listing ++ .listed j seen :: more) (hmore : ∀ e ∈ more, e.client? ≠ some j)
    (hfree : ¬ Taken parse6 ((seen.map listSubnetCidrs).getD []) (ranges plan)[k]) :
    Recycled cluster i (networkStr (ranges plan)[k]) j log := by
  have hcount : 0 < (ranges plan).length := Nat.zero_lt_of_lt hk
  obtain ⟨hseen, created, hcreated, hbefore, hshows⟩ := hguard again j _ hagain given i _ hgiven
    (travelled_add_le hcount hgiven) listing seen more hlisting hmore
  obtain ⟨items, rfl⟩ := Option.ne_none_iff_exists'.mp hseen
  have hitems : items = clusterAfter cluster listing :=
    horderly.listed listing j items (by
      refine List.IsPrefix.trans ⟨more ++ [.reserved j ((k : Int) + 1)], ?_⟩ hagain
      simp [hlisting])
  have htext : rangeText plan ((k : Int) + 1) = some (networkStr (ranges plan)[k]) := by
    simp [rangeText, hk]
  have hmasked := (of_mem_subnets plan.masked hle hranges (List.getElem_mem hk)).1
  refine ⟨given, _, created, listing, again, _, hcreated, hbefore, ?_, hagain,
    hshows _ htext, fun hgone => ?_⟩
  · exact hlisting ▸ List.prefix_append _ _
  · rw [← hitems] at hgone
    exact hfree (taken_of_shows hmasked hgone)

/-- If the counter never comes around to a range that has been handed out before the
range's Subnet is there to be listed, and is listed, then no two calls return ranges that
overlap, unless the Subnet of the one was created and deleted again before the other
returned. -/
theorem ranges_distinct [DecidableEq ι] (parse6 : String → Option (Block 128))
    (plan : AddressPlan) (s : Start (List SubnetItem))
    {t : Crowd (World ι (List SubnetItem)) Request (Request.Response (List SubnetItem)) ι
      (Except Failure (String × String))}
    (h : Crowd.Run serve act (Guarded (ComesAround plan s.next s.cluster))
      (calls s (allocateVpcCidr parse6 plan)) t) :
    ∀ i j a b p q, i ≠ j → t.rest i = .pure (.ok a) → t.rest j = .pure (.ok b) →
      ipNetwork parse6 a.1 = some (.v4 p) → ipNetwork parse6 b.1 = some (.v4 q) →
      p.Overlaps q →
        Recycled s.cluster i a.1 j t.world.log ∨ Recycled s.cluster j b.1 i t.world.log := by
  have hcall : ∀ i : ι, Reserves s.next (chooseVpcCidr parse6 plan) i
      (allocateVpcCidr parse6 plan) := fun i => reserves_attempts reserves_allocateOnce _ _
  obtain ⟨⟨horderly, -⟩, hdone⟩ := orderly_of_run hcall h
  have hguard := guarded_of_run h rfl
  intro i j a b p q hij ha hb hp hq hoverlap
  obtain ⟨hle, hranges, before, k, hk, hreserved, hcidr, listing, seen, more, hlisting, hmore,
    hfree⟩ := (hdone i a ha).range
  obtain ⟨-, -, before', l, hl, hreserved', hcidr', listing', seen', more', hlisting', hmore',
    hfree'⟩ := (hdone j b hb).range
  have hmasked {k : Nat} (hk : k < (ranges plan).length) :=
    (of_mem_subnets plan.masked hle hranges (List.getElem_mem hk)).1
  rw [hcidr, ipNetwork_networkStr, hmasked hk, Option.some.injEq, Network.v4.injEq] at hp
  rw [hcidr', ipNetwork_networkStr, hmasked hl, Option.some.injEq, Network.v4.injEq] at hq
  subst hp hq
  obtain rfl := eq_of_subnets_overlap plan.masked hle hranges hk hl hoverlap
  rw [hcidr, hcidr']
  -- Whoever reserved the range later is the one that got it again.
  have horder {i j : ι} (hij : i ≠ j) {xs ys : List (Event ι (List SubnetItem))}
      (h : xs ++ [.reserved i ((k : Int) + 1)] <+: ys ++ [.reserved j ((k : Int) + 1)]) :
      xs ++ [.reserved i ((k : Int) + 1)] <+: ys :=
    (Logs.last_or_before h).resolve_left fun hlast => hij (Event.reserved.inj hlast.2).1
  obtain hfirst | hfirst := List.prefix_or_prefix_of_prefix hreserved hreserved'
  · exact .inl (recycled_of_again horderly hguard hle hranges hk (horder hij hfirst) hreserved'
      hlisting' hmore' hfree')
  · exact .inr (recycled_of_again horderly hguard hle hranges hk (horder hij.symm hfirst)
      hreserved hlisting hmore hfree)

/-- However the calls overlap and Subnets come and go, a call returns a range of the supernet, and
one that overlapped no Subnet when the call listed them, if the listing was answered. -/
theorem range_listed [DecidableEq ι] {s : Start (List SubnetItem)}
    {t : Crowd (World ι (List SubnetItem)) Request (Request.Response (List SubnetItem)) ι
      (Except Failure (String × String))}
    (h : Crowd.Run serve act (fun _ _ => True) (calls s (allocateVpcCidr parse6 plan)) t)
    (ha : t.rest i = .pure (.ok a)) :
    ∃ p, ipNetwork parse6 a.1 = some (.v4 p) ∧ p.bits = min plan.prefixLen 32 ∧
      (∀ x, p.Contains x → plan.supernet.Contains x) ∧
      ∃ before seen more next,
        before ++ .listed i seen :: more ++ [.reserved i next] <+: t.world.log ∧
        ∀ items, seen = some items → items = clusterAfter s.cluster before ∧
          ¬ Taken parse6 (listSubnetCidrs items) p := by
  have hcall : ∀ i : ι, Reserves s.next (chooseVpcCidr parse6 plan) i
      (allocateVpcCidr parse6 plan) := fun i => reserves_attempts reserves_allocateOnce _ _
  obtain ⟨⟨horderly, -⟩, hdone⟩ := orderly_of_run hcall h
  obtain ⟨hle, hranges, _, k, hk, hreserved, hcidr, before, seen, more, rfl, -, hfree⟩ :=
    (hdone i a ha).range
  obtain ⟨hmasked, hbits, hinside⟩ :=
    of_mem_subnets plan.masked hle hranges (List.getElem_mem hk)
  refine ⟨(ranges plan)[k], ?_, hbits, hinside, before, seen, more, _, hreserved, ?_⟩
  · rw [hcidr, ipNetwork_networkStr, hmasked]
  · rintro items rfl
    refine ⟨horderly.listed before i items (List.IsPrefix.trans ?_ hreserved), hfree⟩
    simp

/-- A supernet that is four ranges. -/
def fourRanges : AddressPlan where
  supernet := ⟨0x0AC80000#32, 20, by omega⟩
  masked := by decide
  prefixLen := 22

/-- Both calls have picked the range beside a dual-stack Subnet; one reserves it, and its
Subnet is created before the other call lists again and returns the next range. -/
theorem range_listed_overlapping : ∃ t p before seen more next, Crowd.play serve act
      (calls ⟨0, none, dualAndOdd, nofun⟩ (allocateVpcCidr onePrefix fourRanges))
      [.call false none, .call false none, .call true none, .call false none, .call true none,
        .call true none, .act (⟨"late", "10.200.4.0/22"⟩ :: dualAndOdd), .call false none,
        .call false none, .call false none, .call false none] = some t ∧
    ipNetwork onePrefix "10.200.8.0/22" = some (.v4 p) ∧ p.bits = 22 ∧
    (∀ x, p.Contains x → fourRanges.supernet.Contains x) ∧
    before ++ .listed false seen :: more ++ [.reserved false next] <+: t.world.log ∧
    ∀ items, seen = some items → items = clusterAfter dualAndOdd before ∧
      ¬ Taken onePrefix (listSubnetCidrs items) p := by
  have hplay : Crowd.play serve act
      (calls ⟨0, none, dualAndOdd, nofun⟩ (allocateVpcCidr onePrefix fourRanges))
      [.call false none, .call false none, .call true none, .call false none, .call true none,
        .call true none, .act (⟨"late", "10.200.4.0/22"⟩ :: dualAndOdd), .call false none,
        .call false none, .call false none, .call false none] = some _ := rfl
  obtain ⟨p, hparse, hbits, hinside, before, seen, more, next, hlog, hseen⟩ :=
    range_listed (Crowd.run_of_play hplay) (i := false) (a := ("10.200.8.0/22", "10.200.8.1")) rfl
  exact ⟨_, p, before, seen, more, next, hplay, hparse, hbits, hinside, hlog, hseen⟩

variable {σ α : Type} {guard : ι → Int → List (Event ι σ) → Prop}
  {t : Crowd (World ι σ) Request (Request.Response σ) ι α}

theorem guarded_of_request (i : ι) (fault : Fault) {r : Request}
    {k : Request.Response σ r → Call σ α} (hrest : t.rest i = .call r k)
    (hr : ∀ version next, r = .replace version next → guard i next t.world.log) :
    Guarded guard t (.call i fault) := by
  intro j fault version next k' hturn hcall
  obtain ⟨rfl, -⟩ := Turn.call.inj hturn
  rw [hrest] at hcall
  obtain ⟨heq, -⟩ := Program.call.inj hcall
  exact hr version next heq

theorem guarded_act (cluster : σ) : Guarded guard t (.act cluster) := by
  intro j fault version next k hturn
  contradiction

theorem comesAround_of_unreserved {next : Int} (h : ∀ i u, .reserved i u ∉ log) :
    ComesAround plan init cluster j next log :=
  fun _ i u hpre => absurd (hpre.subset (by simp)) (h i u)

theorem comesAround_first : ComesAround onlyRange 0 [] false 1 [.listed false (some [])] :=
  comesAround_of_unreserved (by simp)

/-- The Subnet of the only range. -/
def onlySubnet : SubnetItem := ⟨"s", "10.200.0.0/22"⟩

/-- The range has been handed out, and its Subnet has come and gone. -/
def cameAndWent : List (Event Bool (List SubnetItem)) :=
  [.listed false (some []), .reserved false 1, .changed [onlySubnet], .changed []]

theorem comesAround_cameAndWent :
    ComesAround onlyRange 0 [] true 1 (cameAndWent ++ [.listed true (some [])]) := by
  intro before i u ⟨rest, hrest⟩ _ listing seen more hlog _
  obtain ⟨rfl, rfl, rfl⟩ : before = [.listed false (some [])] ∧ i = false ∧ u = 1 := by
    clear hlog
    rcases before with _ | ⟨e1, _ | ⟨e2, _ | ⟨e3, _ | ⟨e4, _ | ⟨e5, before⟩⟩⟩⟩⟩ <;>
      simp_all [cameAndWent]
  obtain ⟨rfl, rfl⟩ : listing = cameAndWent ∧ seen = some [] := by
    clear hrest
    rcases listing with _ | ⟨e1, _ | ⟨e2, _ | ⟨e3, _ | ⟨e4, _ | ⟨e5, listing⟩⟩⟩⟩⟩ <;>
      simp [cameAndWent] at hlog
    obtain ⟨rfl, rfl, rfl, rfl, rfl, -⟩ := hlog
    exact ⟨rfl, rfl⟩
  refine ⟨by simp, _, List.prefix_append _ [.changed [onlySubnet]], ⟨[.changed []], rfl⟩, ?_⟩
  intro cidr hcidr
  obtain rfl : cidr = "10.200.0.0/22" := by
    have htext : rangeText onlyRange 1 = some "10.200.0.0/22" := by decide
    exact Option.mem_unique hcidr htext
  exact ⟨"s", by decide⟩

/-- Two calls one after the other, the second after the first one's Subnet has come and
gone. -/
theorem ranges_distinct_recycled : ∃ t a b,
    Crowd.Run serve act (Guarded (ComesAround onlyRange 0 []))
      (calls ⟨0, none, [], nofun⟩ (allocateVpcCidr (fun _ => none) onlyRange)) t ∧
    t.rest false = .pure (.ok a) ∧ t.rest true = .pure (.ok b) ∧
    (Recycled [] false a.1 true t.world.log ∨ Recycled [] true b.1 false t.world.log) := by
  have h0 : Crowd.Run serve act
      (Guarded (ComesAround onlyRange 0 [] : Bool → Int → List (Event Bool _) → Prop))
      (calls ⟨0, none, [], nofun⟩ (allocateVpcCidr (fun _ => none) onlyRange)) _ := .refl
  have h1 := h0.step (guarded_of_request false none rfl (by simp)) rfl
  have h2 := h1.step (guarded_of_request false none rfl (by simp)) rfl
  have h3 := h2.step (guarded_of_request false none rfl (by simp)) rfl
  have h4 := h3.step (guarded_of_request false none rfl fun version next heq =>
    (Request.replace.inj heq).2 ▸ comesAround_first) rfl
  have h5 := h4.step (guarded_act [onlySubnet]) rfl
  have h6 := h5.step (guarded_act []) rfl
  have h7 := h6.step (guarded_of_request true none rfl (by simp)) rfl
  have h8 := h7.step (guarded_of_request true none rfl (by simp)) rfl
  have h9 := h8.step (guarded_of_request true none rfl fun version next heq =>
    (Request.replace.inj heq).2 ▸ comesAround_cameAndWent) rfl
  refine ⟨_, _, _, h9, rfl, rfl, ?_⟩
  refine ranges_distinct (fun _ => none) onlyRange ⟨0, none, [], nofun⟩ h9 false true _ _
    onlyRange.supernet onlyRange.supernet (by decide) rfl rfl ?_ ?_ (Block.overlaps_self _)
  · decide
  · decide

theorem clusterAfter_of_unchanged (start : σ) {log : List (Event ι σ)}
    (h : ∀ e ∈ log, e.client? ≠ none) : clusterAfter start log = start := by
  induction log with
  | nil => rfl
  | cons e log ih =>
    cases e with
    | changed c => exact absurd rfl (h _ List.mem_cons_self)
    | listed i seen => exact ih fun e he => h e (List.mem_cons_of_mem _ he)
    | reserved i next => exact ih fun e he => h e (List.mem_cons_of_mem _ he)

theorem not_recycled {cidr : String} (h : ∀ e ∈ log, e.client? ≠ none) :
    ¬ Recycled [] i cidr j log := by
  rintro ⟨given, next, created, deleted, again, next', -, hcreated, hdeleted, hagain, hshows, -⟩
  have hpre := hcreated.trans (hdeleted.trans ((List.prefix_append _ _).trans hagain))
  rw [clusterAfter_of_unchanged [] fun e he => h e (hpre.subset he)] at hshows
  obtain ⟨name, hname⟩ := hshows
  simp [listSubnetCidrs] at hname

/-- The supernet is one range; two calls are made before any Subnet is created, and both
are given the range. -/
theorem ranges_twice : ∃ t, Crowd.play serve act
      (calls ⟨0, none, [], nofun⟩ (allocateVpcCidr (fun _ => none) onlyRange))
      [.call false none, .call false none, .call false none, .call false none, .call true none,
        .call true none, .call true none] = some t ∧
    t.rest false = .pure (.ok ("10.200.0.0/22", "10.200.0.1")) ∧
    t.rest true = .pure (.ok ("10.200.0.0/22", "10.200.0.1")) ∧
    ¬ Recycled [] false "10.200.0.0/22" true t.world.log ∧
    ¬ Recycled [] true "10.200.0.0/22" false t.world.log := by
  have hnobody : ∀ e ∈ ([.listed false (some []), .reserved false 1, .listed true (some []),
      .reserved true 1] : List (Event Bool (List SubnetItem))), e.client? ≠ none := by
    simp [Event.client?]
  exact ⟨_, rfl, rfl, rfl, not_recycled hnobody, not_recycled hnobody⟩

end Ranges

end Allocators
