import KubevirtUi.Library.Json
import KubevirtUi.Network.Reconcile

/-!
# What a second pass finds

A pass lays what is declared on the two lists of a router, and takes back what it has put there.
The entries of the list of routes are of any shape. A route that is declared twice is put there
twice, and a declared default route through the hop that is taken back is taken back with it.
-/

namespace Network.Raw

open List

/-- A text under a key; what is no text is read as none. -/
def textAt (fields : List (String × Json)) (key : String) : String :=
  match fields.lookup key with
  | some (.str text) => text
  | _ => ""

/-- The live entry is the route that is wanted. -/
def found (want : Route) : Json → Bool
  | .obj route =>
    let policy := textAt route "policy"
    textAt route "cidr" = want.cidr && textAt route "nextHopIP" = want.nextHopIP &&
      (if policy = "" then "policyDst" else policy) = want.policy
  | _ => false

def entry (want : Route) : Json :=
  .obj [("cidr", .str want.cidr), ("nextHopIP", .str want.nextHopIP), ("policy", .str want.policy)]

/-- Those that are wanted and are on the live list are looked for there, and not among those
that have been added. -/
def mergeRoutes (liveRoutes : List Json) (desired : List Route) : List Json × Bool :=
  desired.foldl (fun (out, changed) want =>
    if liveRoutes.any (found want) then (out, changed) else (out ++ [entry want], true))
    (liveRoutes, false)

/-- A default route through a hop. -/
def isDefault (appliedNextHop : String) : Json → Bool
  | .obj route =>
    route.lookup "cidr" = some (.str defaultCIDR) &&
      route.lookup "nextHopIP" = some (.str appliedNextHop)
  | _ => false

def withdrawRoute (liveRoutes : List Json) (appliedNextHop : String) : List Json × Bool :=
  if appliedNextHop = "" then (liveRoutes, false)
  else liveRoutes.foldl (fun (out, changed) raw =>
    if isDefault appliedNextHop raw then (out, true) else (out ++ [raw], changed)) ([], false)

/-- What `ensureVPC` does to the routes, and whether it reports a change. -/
def ensureRoutes (desired : List Route) (nextHop applied : String) (live : List Json) :
    List Json × Bool :=
  let (merged, added) := mergeRoutes live desired
  let routes := if added then merged else live
  if nextHop = "" then
    let (kept, removed) := withdrawRoute routes applied
    (if removed then kept else routes, added || removed)
  else (routes, added)

/-- What `ensureVPC` does to the attachments. -/
def ensureAttachments (wanted held applied : List String) (live : List Leg) : List Leg × Bool :=
  let (legs, added) :=
    if wanted.length > 0 then
      let (merged, changed) := mergeStrings live wanted
      (if changed then merged else live, changed)
    else (live, false)
  let (kept, removed) := withdraw legs (wanted ++ held) applied
  (if removed then kept else legs, added || removed)

/-- What is not taken back is kept as it is and in order, what is wanted is there, what is added
was not there and is added once, and a second time nothing changes. -/
structure Settles {α β : Type} (pass : List α → List α × Bool) (gone : α → Bool)
    (found : β → α → Bool) (wanted : List β) (live : List α) : Prop where
  kept : ∃ added : List α, (pass live).1 = live.filter (!gone ·) ++ added ∧ added.Nodup ∧
    ∀ x ∈ added, ∃ want ∈ wanted, found want x ∧ ∀ y ∈ live, ¬ found want y
  present : ∀ want ∈ wanted, ∃ x ∈ (pass live).1, found want x
  again : pass (pass live).1 = ((pass live).1, false)

/-- The default route through this hop is taken back. -/
def withdrawn (nextHop applied : String) (route : Json) : Bool :=
  nextHop = "" && applied ≠ "" && isDefault applied route

/-- No declared route is twice on the list of those that are missing, and none is the default
route that is taken back. -/
def Clear (desired : List Route) (nextHop applied : String) (live : List Json) : Prop :=
  (desired.filter fun want => !live.any (found want)).Nodup ∧
    ∀ want ∈ desired, nextHop = "" → applied ≠ "" →
      ¬ (want.cidr = defaultCIDR ∧ want.nextHopIP = applied)

/-- Of both lists: the routes, and the attachments, of which none is taken back that is wanted or
is not on record. -/
structure BothSettle (staticRoutes : List Route) (nextHop appliedHop : String)
    (wanted held applied : List String) (live : List Json) (legs : List Leg) : Prop where
  routes : Settles (ensureRoutes (desiredRoutes staticRoutes nextHop) nextHop appliedHop)
    (withdrawn nextHop appliedHop) found (desiredRoutes staticRoutes nextHop) live
  attachments : Settles (ensureAttachments wanted held applied)
    (fun leg => leg.name ∈ applied && leg.name ∉ wanted ++ held) (fun name leg => leg.name = name)
    wanted legs

section Settles

variable {α β : Type} {pass : List α → List α × Bool} {gone : α → Bool} {found : β → α → Bool}
  {wanted : List β} {live new : List α}

/-- What is not found is added, and then what has to go is taken back. -/
structure Adds (pass : List α → List α × Bool) (gone : α → Bool) (found : β → α → Bool)
    (wanted : List β) (live new : List α) : Prop where
  result : pass live =
    ((live ++ new).filter (!gone ·), decide (new ≠ []) || (live ++ new).any gone)
  missing : ∀ x ∈ new, ∃ want ∈ wanted, found want x ∧ ∀ y ∈ live, ¬ found want y
  all : ∀ want ∈ wanted, ∃ x ∈ live ++ new, found want x

theorem Adds.rests (h : Adds pass gone found wanted live new)
    (hagain : ∀ live, ∃ new, Adds pass gone found wanted live new)
    (hgone : ∀ want ∈ wanted, ∀ x, found want x → gone x = false) (hnodup : new.Nodup) :
    Settles pass gone found wanted live := by
  have hpresent : ∀ want ∈ wanted, ∃ x ∈ (pass live).1, found want x := by
    intro want hwant
    obtain ⟨x, hx, hfound⟩ := h.all want hwant
    rw [h.result]
    exact ⟨x, mem_filter.mpr ⟨hx, by simp [hgone want hwant x hfound]⟩, hfound⟩
  have hnew : new.filter (!gone ·) = new := by
    rw [filter_eq_self]
    intro x hx
    obtain ⟨want, hwant, hfound, -⟩ := h.missing x hx
    simp [hgone want hwant x hfound]
  refine ⟨⟨new, ?_, hnodup, h.missing⟩, hpresent, ?_⟩
  · rw [h.result, filter_append, hnew]
  · obtain ⟨more, hmore⟩ := hagain (pass live).1
    have hnone : more = [] := by
      rw [eq_nil_iff_forall_not_mem]
      intro x hx
      obtain ⟨want, hwant, -, habsent⟩ := hmore.missing x hx
      obtain ⟨y, hy, hfound⟩ := hpresent want hwant
      exact habsent y hy hfound
    rw [hmore.result, hnone, append_nil, h.result]
    simp [filter_filter]

end Settles

section Lists

variable {live : List Json} {desired : List Route} {want : Route} {nextHop applied : String}
  {wanted held record : List String} {legs : List Leg}

theorem mergeRoutes_eq : mergeRoutes live desired =
    (live ++ (desired.filter fun want => !live.any (found want)).map entry,
      decide ((desired.filter fun want => !live.any (found want)).map entry ≠ [])) := by
  have hfold (out : List Json) (changed : Bool) : desired.foldl (fun (out, changed) want =>
      if live.any (found want) then (out, changed) else (out ++ [entry want], true))
      (out, changed) =
      (out ++ (desired.filter fun want => !live.any (found want)).map entry,
        changed || decide ((desired.filter fun want => !live.any (found want)).map entry ≠
          [])) := by
    induction desired generalizing out changed with
    | nil => simp
    | cons want desired ih =>
      rw [foldl_cons, filter_cons]
      by_cases hfound : live.any (found want)
      · simp only [hfound, if_true, ih]
        simp
      · simp only [hfound, ih]
        simp
  rw [mergeRoutes, hfold, Bool.false_or]

theorem withdrawRoute_eq (h : applied ≠ "") : withdrawRoute live applied =
    (live.filter (!isDefault applied ·), live.any (isDefault applied)) := by
  have hfold (out : List Json) (changed : Bool) : live.foldl (fun (out, changed) raw =>
      if isDefault applied raw then (out, true) else (out ++ [raw], changed)) (out, changed) =
      (out ++ live.filter (!isDefault applied ·), changed || live.any (isDefault applied)) := by
    induction live generalizing out changed with
    | nil => simp
    | cons raw live ih =>
      rw [foldl_cons, filter_cons, any_cons]
      by_cases hraw : isDefault applied raw
      · simp only [hraw, if_true, ih]
        simp
      · simp only [hraw, ih]
        simp
  rw [withdrawRoute, if_neg h, hfold]
  simp

theorem found_entry (h : want.policy ≠ "") : found want (entry want) := by
  simp [found, entry, textAt, h, lookup_cons]

theorem textAt_eq_iff {fields : List (String × Json)} {key text : String} (h : text ≠ "") :
    textAt fields key = text ↔ fields.lookup key = some (.str text) := by
  rw [textAt]
  split
  · next found hfound => simp [hfound]
  · next hnone => exact iff_of_false h.symm (hnone text)

theorem isDefault_iff_of_found {raw : Json} (happlied : applied ≠ "") (hfound : found want raw) :
    isDefault applied raw ↔ want.cidr = defaultCIDR ∧ want.nextHopIP = applied := by
  cases raw with
  | obj route =>
    simp only [found, Bool.and_eq_true, decide_eq_true_eq] at hfound
    rw [isDefault, Bool.and_eq_true, decide_eq_true_eq, decide_eq_true_eq,
      ← textAt_eq_iff happlied, ← textAt_eq_iff (by decide : defaultCIDR ≠ ""), hfound.1.1,
      hfound.1.2]
  | _ => contradiction

theorem policy_ne_of_desired {staticRoutes : List Route}
    (h : want ∈ desiredRoutes staticRoutes nextHop) : want.policy ≠ "" := by
  have hstatic : ∀ want ∈ staticRoutes.map fun route =>
      { route with policy := if route.policy = "" then "policyDst" else route.policy },
      want.policy ≠ "" := by
    intro want hwant
    obtain ⟨route, -, rfl⟩ := mem_map.mp hwant
    dsimp only
    split
    · decide
    · assumption
  simp only [desiredRoutes] at h
  split at h
  · rw [mem_append, mem_singleton] at h
    obtain h | rfl := h
    · exact hstatic want h
    · exact show "policyDst" ≠ "" by decide
  · exact hstatic want h

theorem adds_ensureRoutes (hpolicy : ∀ want ∈ desired, want.policy ≠ "") :
    Adds (ensureRoutes desired nextHop applied) (withdrawn nextHop applied) found desired live
      ((desired.filter fun want => !live.any (found want)).map entry) := by
  refine ⟨?_, ?_, ?_⟩
  · rw [ensureRoutes, mergeRoutes_eq]
    generalize (desired.filter fun want => !live.any (found want)).map entry = new
    have hmerged : (if decide (new ≠ []) then live ++ new else live) = live ++ new := by
      cases new <;> simp
    simp only [hmerged]
    by_cases hhop : nextHop = ""
    · by_cases happlied : applied = ""
      · simp [withdrawRoute, withdrawn, hhop, happlied]
      · have hgone : withdrawn nextHop applied = isDefault applied := by
          funext route
          simp [withdrawn, hhop, happlied]
        rw [if_pos hhop, withdrawRoute_eq happlied, hgone]
        split
        · rfl
        · next h => rw [filter_not_of_any (Bool.eq_false_iff.mpr h)]
    · simp [withdrawn, hhop]
  · intro x hx
    obtain ⟨want, hwant, rfl⟩ := mem_map.mp hx
    obtain ⟨hmem, habsent⟩ := mem_filter.mp hwant
    exact ⟨want, hmem, found_entry (hpolicy want hmem), by simpa using habsent⟩
  · intro want hwant
    by_cases hlive : live.any (found want)
    · obtain ⟨x, hx, hfound⟩ := any_eq_true.mp hlive
      exact ⟨x, mem_append_left _ hx, hfound⟩
    · refine ⟨entry want, mem_append_right _ (mem_map_of_mem ?_), found_entry (hpolicy want hwant)⟩
      exact mem_filter.mpr ⟨hwant, by simpa using hlive⟩

theorem exists_adds_ensureAttachments : ∃ new : List Leg, new.Nodup ∧
    Adds (ensureAttachments wanted held record)
      (fun leg => leg.name ∈ record && leg.name ∉ wanted ++ held) (fun name leg => leg.name = name)
      wanted legs new := by
  obtain ⟨new, hnew, hmem, hnodup⟩ := exists_mergeStrings legs wanted
  refine ⟨new.map fun name => ⟨name, .reconciler⟩, hnodup.map fun _ _ h => (Leg.mk.inj h).1, ?_,
    ?_, ?_⟩
  · have hmerged : (if wanted.length > 0 then
        ((if (mergeStrings legs wanted).2 then (mergeStrings legs wanted).1 else legs),
          (mergeStrings legs wanted).2) else (legs, false)) =
        ((mergeStrings legs wanted).1, (mergeStrings legs wanted).2) := by
      rw [ite_mergeStrings]
      cases wanted <;> rfl
    simp only [ensureAttachments, hmerged, ite_withdraw]
    rw [hnew]
    simp only [withdraw, ne_eq, map_eq_nil_iff]
  · intro leg hleg
    obtain ⟨name, hname, rfl⟩ := mem_map.mp hleg
    obtain ⟨hwanted, habsent⟩ := (hmem name).mp hname
    refine ⟨name, hwanted, by simp, fun y hy hsame => habsent ?_⟩
    exact mem_map.mpr ⟨y, hy, by simpa using hsame⟩
  · intro name hname
    by_cases hlive : name ∈ legs.map Leg.name
    · obtain ⟨leg, hleg, hsame⟩ := mem_map.mp hlive
      exact ⟨leg, mem_append_left _ hleg, by simpa using hsame⟩
    · refine ⟨⟨name, .reconciler⟩, mem_append_right _ (mem_map_of_mem ?_), by simp⟩
      exact (hmem name).mpr ⟨hname, hlive⟩

end Lists

/-- For the attachments it always is so, for the routes exactly where none is twice among the
missing ones, and the default route that is taken back is not declared. -/
theorem bothSettle_iff (staticRoutes : List Route) (nextHop appliedHop : String)
    (wanted held applied : List String) (live : List Json) (legs : List Leg) :
    BothSettle staticRoutes nextHop appliedHop wanted held applied live legs ↔
      Clear (desiredRoutes staticRoutes nextHop) nextHop appliedHop live := by
  have hroutes (live : List Json) : Adds (ensureRoutes (desiredRoutes staticRoutes nextHop) nextHop
      appliedHop) (withdrawn nextHop appliedHop) found (desiredRoutes staticRoutes nextHop)
      live _ :=
    adds_ensureRoutes fun want hwant => policy_ne_of_desired hwant
  have hinjective : Function.Injective entry := by
    rintro ⟨⟩ ⟨⟩ h
    simpa [entry] using h
  have hkept (hspared : ∀ want ∈ desiredRoutes staticRoutes nextHop, nextHop = "" →
      appliedHop ≠ "" → ¬ (want.cidr = defaultCIDR ∧ want.nextHopIP = appliedHop)) (want : Route)
      (hwant : want ∈ desiredRoutes staticRoutes nextHop) (x : Json) (hfound : found want x) :
      withdrawn nextHop appliedHop x = false := by
    by_contra hgone
    simp only [withdrawn, Bool.not_eq_false, Bool.and_eq_true, decide_eq_true_eq] at hgone
    exact hspared want hwant hgone.1.1 hgone.1.2
      ((isDefault_iff_of_found hgone.1.2 hfound).mp hgone.2)
  constructor
  · rintro ⟨⟨⟨added, hadded, hnodup, -⟩, hpresent, -⟩, -⟩
    have hspared (want : Route) (hwant : want ∈ desiredRoutes staticRoutes nextHop)
        (hhop : nextHop = "") (happlied : appliedHop ≠ "") :
        ¬ (want.cidr = defaultCIDR ∧ want.nextHopIP = appliedHop) := by
      rintro ⟨hcidr, hvia⟩
      obtain ⟨x, hx, hfound⟩ := hpresent want hwant
      rw [(hroutes live).result, mem_filter] at hx
      have hgone := (isDefault_iff_of_found happlied hfound).mpr ⟨hcidr, hvia⟩
      simp [withdrawn, hhop, happlied, hgone] at hx
    refine ⟨.of_map entry ?_, hspared⟩
    rw [(hroutes live).result, filter_append, append_cancel_left_eq, filter_eq_self.mpr] at hadded
    · rwa [hadded]
    · intro x hx
      obtain ⟨want, hwant, hfound, -⟩ := (hroutes live).missing x hx
      simp [hkept hspared want hwant x hfound]
  · rintro ⟨hnodup, hspared⟩
    refine ⟨(hroutes live).rests (fun live => ⟨_, hroutes live⟩) (hkept hspared)
      (hnodup.map hinjective), ?_⟩
    · obtain ⟨new, hnodup, hadds⟩ := @exists_adds_ensureAttachments wanted held applied legs
      refine hadds.rests (fun legs => ?_) ?_ hnodup
      · obtain ⟨new, -, hnew⟩ := @exists_adds_ensureAttachments wanted held applied legs
        exact ⟨new, hnew⟩
      · intro name hname leg hsame
        simp only [decide_eq_true_eq] at hsame
        simp [hsame, hname]

/-- One route, declared twice. -/
theorem not_bothSettle_twice : ¬ BothSettle [⟨"10.0.0.0/8", "10.1.0.1", ""⟩,
    ⟨"10.0.0.0/8", "10.1.0.1", "policyDst"⟩] "" "" [] [] [] [] [] := by
  rintro ⟨⟨⟨added, hadded, hnodup, -⟩, -, -⟩, -⟩
  rw [← show _ = added from hadded] at hnodup
  revert hnodup
  decide

end Network.Raw
