import KubevirtUi.Allocators.Counter
import KubevirtUi.Python.Ipaddress

/-!
# Ranges of VPCs

The supernet is cut into ranges of the configured length. The scan starts at the counter
and comes around once, and takes the first range that overlaps no Subnet. A listing of
the Subnets that fails counts as empty, so the range at the counter is taken unseen.
-/

namespace Allocators

open Interference Python Python.Ipaddress List

variable {ι : Type}

/-- A Subnet; a dual-stack one has two blocks in one text. -/
structure SubnetItem where
  name : String
  cidrBlock : String
  deriving DecidableEq

/-- Every Subnet's name with each of its blocks. -/
def listSubnetCidrs (items : List SubnetItem) : List (String × String) :=
  items.flatMap fun item =>
    (item.cidrBlock.toList.splitOn ',').filterMap fun part =>
      let part := strip part
      if part = [] then none else some (item.name, String.ofList part)

/-- The network that a VPC's range is cut from, host bits cleared, and the length that a
range has. -/
structure AddressPlan where
  supernet : Block 32
  masked : supernet.masked = supernet
  prefixLen : Nat

variable (parse6 : String → Option (Block 128)) (plan : AddressPlan)

/-- The Subnets whose range overlaps the given one; what cannot be read overlaps nothing. -/
def findCidrConflicts (cidr : String) (existing : List (String × String)) : List String :=
  match ipNetwork parse6 cidr with
  | none => []
  | some wanted => existing.filterMap fun (name, other) =>
    match ipNetwork parse6 other with
    | none => none
    | some parsed =>
      if wanted.overlaps parsed then some (name ++ " (" ++ other ++ ")") else none

/-- The first address of a range after its network address, where there is one. -/
def gatewayOf (cidr : String) : Option String :=
  match ipv4Network cidr.toList with
  | none => none
  | some p =>
    if p.base = BitVec.allOnes 32 then none
    else some (String.ofList (Go.Netip.formatIPv4 (p.base + 1)))

/-- The range of an index, if it is free. -/
def rangeAt (candidates : List (Block 32)) (existing : List (String × String)) (i : Int) :
    Option (Int × String) :=
  match candidates[i.toNat]? with
  | none => none
  | some candidate =>
    let cidr := networkStr candidate
    if findCidrConflicts parse6 cidr existing = [] then some (i, cidr) else none

/-- The first free range from an index on, coming around once. -/
def scanRanges (candidates : List (Block 32)) (existing : List (String × String))
    (nextIndex : Int) : Option (Int × String) :=
  (List.range candidates.length).findSome? fun (offset : Nat) =>
    rangeAt parse6 candidates existing ((nextIndex + offset) % candidates.length)

def widerDetail : String :=
  "TENANT_VPC_PREFIX /" ++ toString plan.prefixLen ++ " is wider than the supernet " ++
    networkStr plan.supernet ++ " — one VPC would not fit inside it"

def exhaustedDetail (count : Nat) : String :=
  "Tenant supernet " ++ networkStr plan.supernet ++ " is exhausted at /" ++
    toString plan.prefixLen ++ " (" ++ toString count ++ " ranges, all in use)"

def chooseVpcCidr : Choose (List SubnetItem) (String × String) := fun nextIndex seen =>
  let existing := (seen.map listSubnetCidrs).getD []
  if plan.prefixLen < plan.supernet.bits then .error (.http (widerDetail plan))
  else match subnets plan.supernet plan.prefixLen with
    | none => .error .value
    | some candidates =>
      match scanRanges parse6 candidates existing nextIndex with
      | none => .error (.http (exhaustedDetail plan candidates.length))
      | some (index, cidr) =>
        match gatewayOf cidr with
        | none => .error .value
        | some gateway => .ok (index, cidr, gateway)

def allocateVpcCidrOnce : Call (List SubnetItem) (Except Failure (String × String)) :=
  allocateOnce (chooseVpcCidr parse6 plan)

def allocateVpcCidr : Call (List SubnetItem) (Except Failure (String × String)) :=
  attempts (allocateVpcCidrOnce parse6 plan) "VPC CIDR allocation failed after retries" maxRetries

/-- A Subnet has a block that overlaps the range. -/
def Taken (existing : List (String × String)) (p : Block 32) : Prop :=
  ∃ name text q, (name, text) ∈ existing ∧ ipNetwork parse6 text = some (.v4 q) ∧ p.Overlaps q

variable {n k : Nat} {seen : Option (List SubnetItem)}

section Choice

variable {parse6} {plan} {existing : List (String × String)} {candidates : List (Block 32)}
  {nextIndex index : Int} {cidr : String} {p : Block 32}

theorem findCidrConflicts_eq_nil (hp : p.masked = p) :
    findCidrConflicts parse6 (networkStr p) existing = [] ↔ ¬ Taken parse6 existing p := by
  rw [findCidrConflicts, ipNetwork_networkStr, hp]
  simp only [filterMap_eq_nil_iff, Prod.forall, Taken, not_exists, not_and]
  refine forall_congr' fun name => forall_congr' fun text => ?_
  cases hparse : ipNetwork parse6 text with
  | none => simp
  | some parsed =>
    cases parsed with
    | v6 q => simp [Network.overlaps]
    | v4 q =>
      simp only [Network.overlaps, blocksOverlap_iff, ite_eq_right_iff, reduceCtorEq,
        imp_false, Option.some.injEq, Network.v4.injEq]
      constructor
      · intro h q' hmem hq
        subst hq
        exact h hmem
      · exact fun h hmem => h q hmem rfl

theorem exists_offset (hk : k < n) (start : Int) :
    ∃ offset < n, (start + (offset : Nat)) % n = k := by
  refine ⟨((k - start) % n).toNat, ?_, ?_⟩
  · have hlt := Int.emod_lt_of_pos ((k : Int) - start) (by omega : (0 : Int) < n)
    omega
  · have hnonneg := Int.emod_nonneg ((k : Int) - start) (by omega : (n : Int) ≠ 0)
    rw [Int.toNat_of_nonneg hnonneg, Int.add_emod_emod,
      show start + ((k : Int) - start) = k by omega]
    exact Int.emod_eq_of_lt (by omega) (by omega)

theorem exists_index (hn : 0 < n) (i : Int) : ∃ k < n, i % n = (k : Nat) := by
  have hnonneg := Int.emod_nonneg i (by omega : (n : Int) ≠ 0)
  have hlt := Int.emod_lt_of_pos i (by omega : (0 : Int) < n)
  exact ⟨(i % n).toNat, by omega, by omega⟩

theorem rangeAt_natCast (hk : k < candidates.length)
    (hmasked : candidates[k].masked = candidates[k]) : rangeAt parse6 candidates existing k =
      open Classical in if Taken parse6 existing candidates[k] then none
        else some ((k : Int), networkStr candidates[k]) := by
  have hconflicts : findCidrConflicts parse6 (networkStr candidates[k]) existing = [] ↔
      ¬ Taken parse6 existing candidates[k] := findCidrConflicts_eq_nil hmasked
  rw [rangeAt, Int.toNat_natCast, List.getElem?_eq_getElem hk]
  by_cases htaken : Taken parse6 existing candidates[k]
  · simp [htaken, hconflicts]
  · simp [htaken, hconflicts.mpr htaken]

variable (nextIndex) in
theorem scanRanges_eq_none (hmasked : ∀ c ∈ candidates, c.masked = c) :
    scanRanges parse6 candidates existing nextIndex = none ↔
      ∀ c ∈ candidates, Taken parse6 existing c := by
  rw [scanRanges, List.findSome?_eq_none_iff]
  constructor
  · intro h c hc
    obtain ⟨k, hk, rfl⟩ := mem_iff_getElem.mp hc
    obtain ⟨offset, hoffset, heq⟩ := exists_offset hk nextIndex
    have hnone := h offset (mem_range.mpr hoffset)
    rw [heq, rangeAt_natCast hk (hmasked _ hc)] at hnone
    by_contra hfree
    simp [hfree] at hnone
  · intro h offset hoffset
    have hn : 0 < candidates.length := Nat.zero_lt_of_lt (mem_range.mp hoffset)
    obtain ⟨k, hk, heq⟩ := exists_index hn (nextIndex + offset)
    have hc := getElem_mem hk
    rw [heq, rangeAt_natCast hk (hmasked _ hc), if_pos (h _ hc)]

theorem scanRanges_eq_some (hmasked : ∀ c ∈ candidates, c.masked = c)
    (h : scanRanges parse6 candidates existing nextIndex = some (index, cidr)) :
    ∃ (offset k : Nat) (hk : k < candidates.length), offset < candidates.length ∧
      index = (nextIndex + offset) % candidates.length ∧ index = k ∧
      cidr = networkStr candidates[k] ∧ ¬ Taken parse6 existing candidates[k] := by
  rw [scanRanges] at h
  obtain ⟨offset, hoffset, hsome⟩ := exists_of_findSome?_eq_some h
  have hoffset := mem_range.mp hoffset
  obtain ⟨k, hk, heq⟩ := exists_index (Nat.zero_lt_of_lt hoffset) (nextIndex + offset)
  rw [heq, rangeAt_natCast hk (hmasked _ (getElem_mem hk))] at hsome
  by_cases htaken : Taken parse6 existing candidates[k]
  · simp [htaken] at hsome
  · simp only [htaken, if_false, Option.some.injEq, Prod.mk.injEq] at hsome
    obtain ⟨rfl, rfl⟩ := hsome
    exact ⟨offset, k, hk, hoffset, heq.symm, rfl, rfl, htaken⟩

/-- What a choice is made of: the first free range from the counter on. -/
theorem chooseVpcCidr_eq_ok {result : String × String}
    (h : chooseVpcCidr parse6 plan nextIndex seen = .ok (index, result)) :
    plan.supernet.bits ≤ plan.prefixLen ∧ ∃ candidates,
      subnets plan.supernet plan.prefixLen = some candidates ∧
      ∃ (offset k : Nat) (hk : k < candidates.length), offset < candidates.length ∧
        index = (nextIndex + offset) % candidates.length ∧ index = k ∧
        result.1 = networkStr candidates[k] ∧
        ¬ Taken parse6 ((seen.map listSubnetCidrs).getD []) candidates[k] := by
  rw [chooseVpcCidr] at h
  split at h
  · contradiction
  · next hle =>
    split at h
    · contradiction
    · next candidates hcandidates =>
      split at h
      · contradiction
      · next picked cidr hscan =>
        split at h
        · contradiction
        · simp only [Except.ok.injEq, Prod.mk.injEq] at h
          obtain ⟨rfl, rfl⟩ := h
          have hmasked : ∀ c ∈ candidates, c.masked = c := fun c hc =>
            (of_mem_subnets plan.masked (by omega) hcandidates hc).1
          exact ⟨by omega, candidates, hcandidates, scanRanges_eq_some hmasked hscan⟩

/-- The supernet is reported exhausted where every range is taken, and nowhere else. -/
theorem chooseVpcCidr_exhausted_iff (hle : plan.supernet.bits ≤ plan.prefixLen)
    (hcandidates : subnets plan.supernet plan.prefixLen = some candidates) :
    chooseVpcCidr parse6 plan nextIndex seen =
        .error (.http (exhaustedDetail plan candidates.length)) ↔
      ∀ c ∈ candidates, Taken parse6 ((seen.map listSubnetCidrs).getD []) c := by
  have hmasked : ∀ c ∈ candidates, c.masked = c := fun c hc =>
    (of_mem_subnets plan.masked hle hcandidates hc).1
  rw [← scanRanges_eq_none nextIndex hmasked, chooseVpcCidr,
    if_neg (Nat.not_lt.mpr hle), hcandidates]
  dsimp only
  split
  · next hscan => simp [hscan]
  · next picked cidr hscan =>
    rw [hscan]
    split <;> simp

end Choice

section Once

/-- What one attempt returns on its own, for every counter and whether or not the listing
is answered: a range of the supernet that has the configured length, or that of a single
address where this is too long. If the listing is answered, the range overlaps no Subnet,
and the supernet is reported exhausted exactly if every range overlaps one; if it is not,
the supernet is never reported exhausted. -/
theorem range_free (hle : plan.supernet.bits ≤ plan.prefixLen) (i : ι)
    (w : World ι (List SubnetItem)) (fault : Fault) {x : Except Failure (String × String)}
    (hx : ((allocateVpcCidrOnce parse6 plan).run (serve i) (onlyListing fault) w).1 = x) :
    (∀ cidr gateway, x = .ok (cidr, gateway) → ∃ p, ipNetwork parse6 cidr = some (.v4 p) ∧
      p.bits = min plan.prefixLen 32 ∧ (∀ a, p.Contains a → plan.supernet.Contains a) ∧
      (fault = none → ∀ name text q, (name, text) ∈ listSubnetCidrs w.cluster →
        ipNetwork parse6 text = some (.v4 q) → ¬ p.Overlaps q)) ∧
    ∀ candidates, subnets plan.supernet plan.prefixLen = some candidates →
      (fault = none → (x = .error (.http (exhaustedDetail plan candidates.length)) ↔
        ∀ c ∈ candidates, Taken parse6 (listSubnetCidrs w.cluster) c)) ∧
      (fault ≠ none → x ≠ .error (.http (exhaustedDetail plan candidates.length))) := by
  obtain ⟨herror, hok⟩ := run_allocateOnce (chooseVpcCidr parse6 plan) i fault w
  have hresult : ∀ e,
      x = .error e ↔ chooseVpcCidr parse6 plan w.next (w.seen fault) = .error e := by
    intro e
    rw [← hx, allocateVpcCidrOnce]
    cases hchoose : chooseVpcCidr parse6 plan w.next (w.seen fault) with
    | error e' => rw [herror e' hchoose]; simp
    | ok picked => rw [(hok _ _ hchoose).1]; simp
  constructor
  · rintro cidr gateway rfl
    cases hchoose : chooseVpcCidr parse6 plan w.next (w.seen fault) with
    | error e => exact absurd ((hresult e).mpr hchoose) (by simp)
    | ok picked =>
      obtain ⟨index, result⟩ := picked
      obtain ⟨hpicked, -, -⟩ := hok _ _ hchoose
      obtain rfl := Except.ok.inj (hpicked.symm.trans hx)
      obtain ⟨-, candidates, hcandidates, offset, k, hk, -, -, -, rfl, hfree⟩ :=
        chooseVpcCidr_eq_ok hchoose
      obtain ⟨hmasked, hbits, hinside⟩ :=
        of_mem_subnets plan.masked hle hcandidates (getElem_mem hk)
      refine ⟨candidates[k], by rw [ipNetwork_networkStr, hmasked], hbits, hinside, ?_⟩
      rintro rfl name text q hmem hparse hoverlap
      exact hfree ⟨name, text, q, hmem, hparse, hoverlap⟩
  · intro candidates hcandidates
    have hexhausted := (hresult (.http (exhaustedDetail plan candidates.length))).trans
      (chooseVpcCidr_exhausted_iff hle hcandidates)
    refine ⟨?_, fun hfault hx => ?_⟩
    · rintro rfl
      exact hexhausted
    · have hall := hexhausted.mp hx
      obtain ⟨c, hc⟩ := exists_mem_of_ne_nil _ (subnets_ne_nil hcandidates)
      obtain ⟨status, rfl⟩ := Option.ne_none_iff_exists'.mp hfault
      obtain ⟨name, text, q, hmem, -, -⟩ := hall c hc
      simp [World.seen] at hmem

/-- A supernet that is one range. -/
def onlyRange : AddressPlan where
  supernet := ⟨0x0AC80000#32, 22, Block.le_bits_22⟩
  masked := by decide
  prefixLen := 22

/-- A supernet that is two ranges. -/
def twoRanges : AddressPlan where
  supernet := ⟨0x0AC80000#32, 21, by omega⟩
  masked := by decide
  prefixLen := 22

/-- The reading of the one IPv6 block that there is. -/
def onePrefix (s : String) : Option (Block 128) :=
  if s = "fd00::/64" then some ⟨0xFD00#128 <<< 112, 64, by omega⟩ else none

/-- A dual-stack Subnet in the first range, and one whose block cannot be read. -/
def dualAndOdd : List SubnetItem :=
  [⟨"dual", "10.200.1.0/24, fd00::/64"⟩, ⟨"odd", "10.200.4.0/22x"⟩]

/-- The range beside the dual-stack Subnet is returned; with a Subnet in this one as well
the supernet is exhausted. -/
theorem range_free_beside :
    (∃ p q, ipNetwork onePrefix "10.200.4.0/22" = some (.v4 p) ∧ p.bits = 22 ∧
      (∀ a, p.Contains a → twoRanges.supernet.Contains a) ∧
      ipNetwork onePrefix "10.200.1.0/24" = some (.v4 q) ∧ ¬ p.Overlaps q) ∧
    ∀ candidates, subnets twoRanges.supernet 22 = some candidates → ∀ c ∈ candidates,
      Taken onePrefix (listSubnetCidrs (⟨"late", "10.200.6.0/23"⟩ :: dualAndOdd)) c := by
  constructor
  · obtain ⟨hreturns, -⟩ := range_free onePrefix twoRanges (by decide) ()
      ⟨0, none, dualAndOdd, []⟩ none (x := .ok ("10.200.4.0/22", "10.200.4.1")) (by decide)
    obtain ⟨p, hparse, hbits, hinside, hfree⟩ := hreturns _ _ rfl
    exact ⟨p, _, hparse, hbits, hinside, rfl, hfree rfl "dual" "10.200.1.0/24" _ (by decide) rfl⟩
  · intro candidates hcandidates
    obtain ⟨-, hexhausted⟩ := range_free onePrefix twoRanges (by decide) ()
      ⟨0, none, ⟨"late", "10.200.6.0/23"⟩ :: dualAndOdd, []⟩ none
      (x := .error (.http (exhaustedDetail twoRanges 2))) (by decide)
    obtain ⟨hnone, -⟩ := hexhausted candidates hcandidates
    obtain rfl := Option.some.inj hcandidates
    exact (hnone rfl).mp rfl

/-- A supernet of a single address, and a length that no IPv4 network has. -/
def singleAddress : AddressPlan where
  supernet := ⟨0x0AC80000#32, 32, Block.le_bits_32⟩
  masked := by decide
  prefixLen := 40

/-- The listing fails, and the one range is handed out a second time; a range of a single
address does not have the configured length. -/
theorem range_taken :
    (((allocateVpcCidrOnce (fun _ => none) onlyRange).run (serve ()) (onlyListing (some 500))
        ⟨0, none, [⟨"only-one", "10.200.0.0/22"⟩], []⟩).1 = .ok ("10.200.0.0/22", "10.200.0.1") ∧
      Taken (fun _ => none) (listSubnetCidrs [⟨"only-one", "10.200.0.0/22"⟩])
        onlyRange.supernet) ∧
    ((allocateVpcCidrOnce (fun _ => none) singleAddress).run (serve ()) (onlyListing none)
      ⟨0, none, [], []⟩).1 = .ok ("10.200.0.0/32", "10.200.0.1") := by
  refine ⟨⟨by decide, "only-one", "10.200.0.0/22", onlyRange.supernet, ?_, ?_, ?_⟩, by decide⟩
  · decide
  · decide
  · exact Block.overlaps_self _

end Once

end Allocators
