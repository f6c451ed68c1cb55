import KubevirtUi.Python.Subtraction
import KubevirtUi.Transit.Entries

/-!
# The same drop from the backend

The backend computes the ranges of the plane too, with the operations of `ipaddress`: it takes the
reserved networks out of the subnet one after the other, and what they leave comes in another
order. Sorted, it is what the operator prints.

How IPv6 networks are read and written is a parameter.
-/

namespace Transit

open Go Go.Netip Acl List

variable {parse6 strict6 : String → Option (Block 128)}

namespace Backend

open Python Python.Ipaddress

section Model

variable (parse6 strict6 : String → Option (Block 128)) (format6 : Block 128 → String)

/-- The networks of one entry. What raises a `ValueError` is skipped; `strict6` reads the networks
that may have no host bits, which an IPv4 address alone never has. -/
def reserved (entry : String) : List Network :=
  let entry := strip entry.toList
  match cutChars "..".toList entry with
  | some (first, last) =>
    match ipv4Address (strip first), ipv4Address (strip last) with
    | some first, some last => ((summarizeAddressRange first last).getD []).map .v4
    | _, _ => []
  | none =>
    if '/' ∈ entry then (ipNetwork parse6 (String.ofList entry)).toList
    else if entry ≠ [] then (ipNetwork strict6 (String.ofList (entry ++ "/32".toList))).toList
    else []

/-- What a block leaves of a network. -/
def remove (block net : Network) : Option (List Network) := do
  if ← block.subnetOf net then net.addressExclude block
  else if ¬net.overlaps block then some [net] else some []

/-- The part of a subnet that addresses are handed out of. -/
def allocatableRanges (cidr : String) (excludeIPs : List String) : Option (List String) := do
  let network ← ipNetwork parse6 cidr
  let remaining ← (excludeIPs.flatMap (reserved parse6 strict6)).foldlM
    (fun remaining block => (remaining.mapM (remove block)).map List.flatten) [network]
  let kept := (remaining.insertionSort fun p q => q.lt p = false).filter fun p =>
    ¬ (p.prefixlen = 32 ∧ p.sameAddress network)
  return kept.map (·.str format6)

/-- The deny that the allows of the tenants are exceptions to. -/
def buildTransitDeny (transitCIDR : String) (excludeIPs : List String) : Option Rule := do
  let network ← ipNetwork parse6 transitCIDR
  let ranges ← allocatableRanges parse6 strict6 format6 transitCIDR excludeIPs
  let ranges := if ranges ≠ [] then ranges else [network.str format6]
  return {
    action := "drop"
    direction := "from-lport"
    priority := 3000
    matchExpr := match ranges with
      | [range] => "ip4.src == " ++ range
      | _ => "ip4.src == \x7b" ++ ", ".intercalate ranges ++ "\x7d" }

end Model

section Read

variable {entry : Entry} {a : BitVec 32}

theorem isSpace_of_isEntryChar {c : Char} (h : isEntryChar c = true) :
    Python.isSpace c = false := by
  obtain (h | rfl) | rfl : (c.isDigit = true ∨ c = '.') ∨ c = '/' := by
    simpa [isEntryChar] using h
  · exact isSpace_eq_false_of_isDigit h
  · decide
  · decide

theorem strip_formatIPv4 : strip (formatIPv4 a) = formatIPv4 a :=
  strip_eq_self fun _ hc => isSpace_of_isEntryChar (isEntryChar_of_mem_formatIPv4 hc)

theorem ipv4Address_formatIPv4 : ipv4Address (formatIPv4 a) = some a := by
  rw [ipv4Address, ipIntFromString_formatIPv4, Option.map_some, BitVec.ofNat_toNat,
    BitVec.setWidth_eq]

theorem networkStr_eq (p : Block 32) : networkStr p = prefixString (.v4 p) := rfl

theorem exists_reserved_text : ∃ bs : List (Block 32),
    reserved parse6 strict6 entry.text = bs.map Network.v4 ∧ entry.Blocks bs := by
  rw [reserved, strip_eq_self fun c hc => isSpace_of_isEntryChar (Entry.isEntryChar_of_mem_text hc)]
  cases entry with
  | address a =>
    have htext : (Entry.text (.address a)).toList = formatIPv4 a := String.toList_ofList
    let single : Block 32 := ⟨a, 32, Nat.le_refl 32⟩
    have hlength : "/32".toList = '/' :: Nat.toDigits 10 32 := by decide
    have hnetwork : String.ofList (formatIPv4 a ++ "/32".toList) = networkStr single := by
      rw [hlength]
      rfl
    have hmasked : single.masked = single := by
      rw [Block.masked_eq_self_iff]
      exact Nat.one_dvd a.toNat
    rw [htext, cutChars_dots_address]
    dsimp only
    rw [if_neg (foreign_slash.not_mem_formatIPv4 a), if_pos (formatIPv4_ne_nil a), hnetwork,
      ipNetwork_networkStr, hmasked]
    exact ⟨[single], rfl, rfl⟩
  | network p =>
    have htext : Entry.text (.network p) = prefixString (.v4 p) := rfl
    rw [htext, cutChars_dots_network]
    dsimp only
    rw [if_pos (slash_mem_prefixString _), String.ofList_toList, ← networkStr_eq,
      ipNetwork_networkStr]
    exact ⟨[p.masked], rfl, rfl⟩
  | range first last =>
    have htext : (Entry.text (.range first last)).toList =
        formatIPv4 first ++ ("..".toList ++ formatIPv4 last) := String.toList_ofList
    rw [htext, cutChars_dots_range]
    dsimp only
    rw [strip_formatIPv4, strip_formatIPv4, ipv4Address_formatIPv4, ipv4Address_formatIPv4]
    dsimp only
    rw [summarizeAddressRange]
    split
    · next hlt => exact ⟨[], rfl, Block.Covers.nil (BitVec.lt_def.mp hlt)⟩
    · exact ⟨_, rfl, summarizeFrom_covers (by omega)⟩

end Read

section Same

variable {format6 : Block 128 → String} {p b : Block 32} {ps bs : List (Block 32)}
  {entries : List Entry}

theorem remove_v4 : remove (.v4 b) (.v4 p) = some ((remains b p).map Network.v4) := by
  have hsubnet : (Network.v4 b).subnetOf (.v4 p) = some (blockSubnetOf b p) := rfl
  have hoverlaps : (Network.v4 p).overlaps (.v4 b) = blocksOverlap p b := rfl
  rw [remove, hsubnet, hoverlaps, remains]
  simp only [Option.bind_eq_bind, Option.bind_some]
  split
  · rfl
  · split <;> rfl

theorem foldlM_remove : (bs.map Network.v4).foldlM
    (fun remaining block => (remaining.mapM (remove block)).map List.flatten)
      (ps.map Network.v4) =
    some ((bs.foldl (fun ps b => ps.flatMap (remains b)) ps).map Network.v4) := by
  rw [foldlM_map]
  exact foldlM_flatten (fun b p => remove_v4) bs ps

theorem exists_blocks : ∃ (read : List (List Prefix)) (bs : List (Block 32)),
    (entries.map Entry.text).mapM parseReserved = some read ∧ v4Blocks read.flatten = bs ∧
      (entries.map Entry.text).flatMap (reserved parse6 strict6) = bs.map Network.v4 ∧
        ∀ b ∈ bs, b.masked = b := by
  induction entries with
  | nil => exact ⟨[], [], rfl, rfl, rfl, by simp⟩
  | cons entry entries ih =>
    obtain ⟨read, bs, hoperator, hblocks, hbackend, hmasked⟩ := ih
    obtain ⟨cs, hcs, hread⟩ := entry.exists_parseReserved_text
    obtain ⟨ds, hds, hread'⟩ := @exists_reserved_text parse6 strict6 entry
    obtain rfl := hread.unique hread'
    refine ⟨cs.map Prefix.v4 :: read, cs ++ bs, ?_, ?_, ?_, ?_⟩
    · rw [map_cons, mapM_cons, hcs, hoperator]
      rfl
    · have hall : v4Blocks (cs.map Prefix.v4) = cs := by
        rw [v4Blocks, filterMap_map]
        exact filterMap_some
      rw [flatten_cons, v4Blocks, filterMap_append, ← v4Blocks, ← v4Blocks, hall,
        hblocks]
    · rw [map_cons, flatMap_cons, hds, hbackend, map_append]
    · exact forall_mem_append.mpr ⟨hread.masked_eq, hmasked⟩

theorem before_iff_notAfter {q : Block 32} : before p q = true ↔ NotAfter p q := by
  have hless : less (piece p).addr (piece q).addr = decide (p.base < q.base) := rfl
  have hbits : (piece p).bits ≤ (piece q).bits ↔ p.bits ≤ q.bits := Int.ofNat_le
  rw [before, comesFirst, notAfter_iff, hless]
  by_cases hbase : p.base = q.base
  · have haddr : (piece p).addr = (piece q).addr := congrArg Addr.v4 hbase
    rw [if_neg (not_not_intro haddr), decide_eq_true_iff, hbase, hbits]
    simp
  · have haddr : (piece p).addr ≠ (piece q).addr := fun h => hbase (Addr.v4.inj h)
    have hne : p.base.toNat ≠ q.base.toNat := mt BitVec.eq_of_toNat_eq hbase
    rw [if_pos haddr, decide_eq_true_iff, BitVec.lt_def]
    omega

/-- The ranges of the operator, as the order of the backend sorts them. -/
theorem leftover_eq (hp : p.masked = p) (hbs : ∀ b ∈ bs, b.masked = b) :
    leftover p bs = ((bs.foldl (fun ps b => ps.flatMap (remains b)) [p]).insertionSort
      NotAfter).filter fun q => ¬(q.bits = 32 ∧ q.base = p.base) := by
  have hperm : (Block.without [p] bs).Perm
      (bs.foldl (fun ps b => ps.flatMap (remains b)) [p]) :=
    without_perm_foldl (List.Perm.refl [p]) (by simpa using hp) hbs
  have hsort := map_insertionSort (fun p q => before p q = true) NotAfter id
    (Block.without [p] bs) fun _ _ _ _ => before_iff_notAfter
  rw [map_id, map_id] at hsort
  rw [leftover, hsort, insertionSort_eq_of_perm hperm]

theorem allocatableRanges_eq_leftover (hbs : ∀ b ∈ bs, b.masked = b)
    (hread : (entries.map Entry.text).flatMap (reserved parse6 strict6) = bs.map Network.v4) :
    allocatableRanges parse6 strict6 format6 (prefixString (.v4 p)) (entries.map Entry.text) =
      some ((leftover p.masked bs).map fun q => prefixString (.v4 q)) := by
  have hfold : (bs.map Network.v4).foldlM
      (fun remaining block => (remaining.mapM (remove block)).map List.flatten)
      [Network.v4 p.masked] =
        some ((bs.foldl (fun ps b => ps.flatMap (remains b)) [p.masked]).map Network.v4) :=
    @foldlM_remove [p.masked] bs
  have hsort := map_insertionSort NotAfter (fun p q => Network.lt q p = false) Network.v4
    (bs.foldl (fun ps b => ps.flatMap (remains b)) [p.masked]) fun _ _ _ _ => Iff.rfl
  have hfilter : (fun q : Network => decide ¬(q.prefixlen = 32 ∧
      q.sameAddress (.v4 p.masked) = true)) ∘ Network.v4 =
        fun q => decide ¬(q.bits = 32 ∧ q.base = p.masked.base) := by
    funext q
    simp [Network.prefixlen, Network.sameAddress]
  rw [allocatableRanges, ← networkStr_eq, ipNetwork_networkStr, hread]
  simp only [hfold, Option.bind_eq_bind, Option.bind_some, Option.pure_def]
  rw [← hsort, filter_map, hfilter, map_map, leftover_eq p.masked_masked hbs]
  rfl

/-- Both sides find the same ranges and write the same drop. -/
theorem sameDeny (p : Block 32) (entries : List Entry)
    (parse6 strict6 : String → Option (Block 128)) (format6 : Block 128 → String) : ∃ ranges rule,
      Transit.allocatableRanges (prefixString (.v4 p)) (entries.map Entry.text) = some ranges ∧
      allocatableRanges parse6 strict6 format6 (prefixString (.v4 p))
        (entries.map Entry.text) = some ranges ∧
      deny (prefixString (.v4 p)) (entries.map Entry.text) = some rule ∧
      buildTransitDeny parse6 strict6 format6 (prefixString (.v4 p))
        (entries.map Entry.text) = some rule := by
  obtain ⟨read, bs, hread, hblocks, hreserved, hbs⟩ :=
    @exists_blocks parse6 strict6 entries
  have hoperator := allocatableRanges_eq (parsePrefix_prefixString (.v4 p)) hread
  rw [hblocks] at hoperator
  have hbackend := @allocatableRanges_eq_leftover parse6 strict6 format6 p bs entries hbs hreserved
  generalize (leftover p.masked bs).map (fun q => prefixString (.v4 q)) = ranges at *
  have hnetwork : ipNetwork parse6 (prefixString (.v4 p)) = some (.v4 p.masked) :=
    ipNetwork_networkStr parse6 p
  refine ⟨ranges, _, hoperator, hbackend, deny_eq (parsePrefix_prefixString (.v4 p)) hoperator, ?_⟩
  rw [buildTransitDeny, hbackend, hnetwork]
  rfl

end Same

end Backend

end Transit
