import KubevirtUi.Workers.Bootstrap

/-!
# When the pool comes to rest

The two reconcilers agree on the pool if the template that is there at the start has the CA, or if
none is there: then one is written with the CA, and the repair has nothing to do. A template
without the CA is repaired, and the next pass for the tenant turns the pool back to it.
-/

namespace Workers

open Json Option

/-- The config has this CA in both places. -/
def Carries (config : Config) (ca : String) : Prop :=
  look [.field "cluster", .field "ca", .field "crt"] (.obj config) = some (.str ca) ∧
    ∃ n, look [.field "cluster", .field "acceptedCAs", .item n, .field "crt"] (.obj config) =
      some (.str ca)

/-- The configs differ in the CA of the cluster only. -/
structure AlikeBesideCA (config config' : Config) : Prop where
  fields : ∀ key, key ≠ "cluster" → AlikeIf (config.lookup key) (config'.lookup key)
  cluster : ∀ key, key ≠ "ca" → key ≠ "acceptedCAs" →
    AlikeIf (((clusterOf config).getD []).lookup key) (((clusterOf config').getD []).lookup key)

/-- What is relied on of YAML: what is written is read again, in some order of fields. -/
structure Yaml (marshal : Config → String) (unmarshal : String → Option Config) : Prop where
  writes : ∀ config, marshal config ≠ ""
  reads : ∀ config, ∃ config', unmarshal (marshal config) = some config' ∧
    Alike (.obj config') (.obj config)

section Rest

variable (marshal : Config → String) (unmarshal : String → Option Config)
  (text : List UInt8 → String) (tenant : String) (crt : List UInt8)

/-- The world at the start: no Secret or this one, and no template, or one that can be read and
has this CA or none. -/
structure Start (w : World) : Prop where
  nonempty : crt ≠ []
  secret : w.secret = none ∨ w.secret = some crt
  template : ∀ template, w.template = some template → ∃ config lacks,
    templateLacksClusterCA unmarshal template = some (config, lacks) ∧
      (lacks = false → Carries config (encodeToString crt))

/-- The events that lead from one state to another. -/
def Leads (s t : State) : Prop :=
  Machine.Run (next marshal unmarshal text tenant crt) (fun _ _ => True) s t

/-- Once the Secret is there and both have passed since, the pool is never turned to another
template, and its template has the CA and is the original otherwise. -/
structure ComesToRest (w : World) : Prop where
  still : ∀ s, Leads marshal unmarshal text tenant crt (.start w) s → s.world.secret = some crt →
    s.tenantPassed = true → s.bootstrapPassed = true →
    ∀ event t, next marshal unmarshal text tenant crt s event = some t →
      t.world.deployment.map MachineDeployment.bootstrap =
        s.world.deployment.map MachineDeployment.bootstrap
  joins : ∀ s, Leads marshal unmarshal text tenant crt (.start w) s → s.world.secret = some crt →
    s.tenantPassed = true → s.bootstrapPassed = true →
    ∀ deployment, s.world.deployment = some deployment →
      ∃ template config lacks, s.world.named tenant deployment.bootstrap = some template ∧
        templateLacksClusterCA unmarshal template = some (config, lacks) ∧
        Carries config (encodeToString crt) ∧
        ∀ original, w.template = some original → ∀ config' lacks',
          templateLacksClusterCA unmarshal original = some (config', lacks') →
            AlikeBesideCA config config'

end Rest

section Config

variable {config config' : Config} {ca : String}

theorem Carries.of_alike (h : Alike (.obj config') (.obj config)) (hca : Carries config ca) :
    Carries config' ca := by
  obtain ⟨hca, n, haccepted⟩ := hca
  exact ⟨(h _).trans hca, n, (h _).trans haccepted⟩

theorem Carries.lacksCA_eq (h : Carries config ca) : lacksCA config = false := by
  obtain ⟨hca, -⟩ := h
  obtain ⟨branch, hbranch, hca⟩ := bind_eq_some_iff.mp hca
  cases branch with
  | obj cluster =>
    obtain ⟨value, hvalue, hca⟩ := bind_eq_some_iff.mp hca
    have hnull : value ≠ .null := by
      rintro rfl
      contradiction
    have hcluster : clusterOf config = some cluster := by
      rw [clusterOf, hbranch]
    rw [lacksCA, hcluster]
    simp [hvalue, hnull]
  | _ => contradiction

theorem AlikeBesideCA.refl (config : Config) : AlikeBesideCA config config :=
  ⟨fun _ _ => .refl _, fun _ _ _ => .refl _⟩

theorem carries_talosWorkerConfig (tenant : String) (pass : TenantPass) (secrets : MachineSecrets)
    (talosCA : String) : Carries (talosWorkerConfig tenant pass secrets talosCA ca) ca :=
  ⟨rfl, 0, rfl⟩

theorem encodeToString_ne_empty {data : List UInt8} (h : data ≠ []) : encodeToString data ≠ "" := by
  intro hempty
  have hnil : encode (data.map UInt8.toNat) = [] := by
    have htoList := congrArg String.toList hempty
    rwa [encodeToString, String.toList_ofList] at htoList
  cases data with
  | nil => exact h rfl
  | cons a data =>
    match data with
    | [] => contradiction
    | [b] => contradiction
    | b :: c :: rest => contradiction

end Config

variable {marshal : Config → String} {unmarshal : String → Option Config}
  {text : List UInt8 → String} {tenant : String} {crt : List UInt8} {w : World}

section Passes

variable {w' : World} {template : Template} {pass : TenantPass}

/-- A template with the CA. -/
def Sound (unmarshal : String → Option Config) (crt : List UInt8) (template : Template) : Prop :=
  ∃ config, templateLacksClusterCA unmarshal template = some (config, false) ∧
    Carries config (encodeToString crt)

theorem sound_createdTemplate (hyaml : Yaml marshal unmarshal) {config : Config}
    (hconfig : Carries config (encodeToString crt)) :
    Sound unmarshal crt (createdTemplate marshal tenant config) := by
  obtain ⟨config', hread, halike⟩ := hyaml.reads config
  have hcarries := hconfig.of_alike halike
  have hdata : (createdTemplate marshal tenant config).data = marshal config := rfl
  refine ⟨config', ?_, hcarries⟩
  rw [templateLacksClusterCA, hdata, if_neg (hyaml.writes config), hread, map_some,
    hcarries.lacksCA_eq]

theorem bind_eq_ok {α β : Type} {x : Except Stop α} {f : α → Except Stop β} {b : β}
    (h : x >>= f = .ok b) : ∃ a, x = .ok a ∧ f a = .ok b := by
  cases x with
  | error e => contradiction
  | ok a => exact ⟨a, rfl, h⟩

theorem of_certificateFrom {answered : Bool} {secret : Option (List UInt8)} {ca : String}
    (h : certificateFrom (if answered then some secret else none) = .ok ca) (hne : ca ≠ "") :
    ∃ data, secret = some data ∧ ca = encodeToString data := by
  cases answered with
  | false => contradiction
  | true =>
    cases secret with
    | none =>
      cases h
      contradiction
    | some data =>
      cases h
      exact ⟨data, rfl, rfl⟩

theorem of_ensureTalosBootstrap (h : ensureTalosBootstrap marshal tenant pass w = .ok w') :
    (w' = w ∧ ∃ template, w.template = some template) ∨
      ∃ secrets talosCA data, w.secret = some data ∧ w.template = none ∧
        w' = { w with template := some (createdTemplate marshal tenant
          (talosWorkerConfig tenant pass secrets talosCA (encodeToString data))) } := by
  rw [ensureTalosBootstrap] at h
  split at h
  · contradiction
  · contradiction
  · next secrets hsecrets =>
    split at h
    · contradiction
    · obtain ⟨talosCA, -, h⟩ := bind_eq_ok h
      split at h
      · contradiction
      · obtain ⟨k8sCA, hk8sCA, h⟩ := bind_eq_ok h
        split at h
        · contradiction
        · next hne =>
          split at h
          · contradiction
          · split at h
            · next template htemplate =>
              cases h
              exact .inl ⟨rfl, template, htemplate⟩
            · next htemplate =>
              split at h
              · contradiction
              · cases h
                obtain ⟨data, hdata, rfl⟩ := of_certificateFrom hk8sCA hne
                exact .inr ⟨secrets, talosCA, data, hdata, htemplate, rfl⟩

theorem of_reconcileWorkers {stop : Option Stop}
    (h : reconcileWorkers marshal tenant pass w = (w', stop)) :
    w'.secret = w.secret ∧ w'.repaired = w.repaired ∧
      (w'.template = w.template ∨ ∃ secrets talosCA data, w.secret = some data ∧
        w.template = none ∧ w'.template = some (createdTemplate marshal tenant
          (talosWorkerConfig tenant pass secrets talosCA (encodeToString data)))) ∧
      ((w'.deployment = w.deployment ∧ stop ≠ none) ∨
        ∃ deployment template, w'.deployment = some deployment ∧
          deployment.bootstrap = templateName tenant ∧ w'.template = some template) := by
  rw [reconcileWorkers] at h
  split at h
  · cases h
    exact ⟨rfl, rfl, .inl rfl, .inl ⟨rfl, by simp⟩⟩
  · next v hv =>
    have hdeployment : v.deployment = w.deployment ∧ v.secret = w.secret ∧
        v.repaired = w.repaired ∧ (∃ template, v.template = some template) ∧
          (v.template = w.template ∨ ∃ secrets talosCA data, w.secret = some data ∧
            w.template = none ∧ v.template = some (createdTemplate marshal tenant
              (talosWorkerConfig tenant pass secrets talosCA (encodeToString data)))) := by
      obtain ⟨rfl, hthere⟩ | ⟨secrets, talosCA, data, hdata, hnone, rfl⟩ :=
        of_ensureTalosBootstrap hv
      · exact ⟨rfl, rfl, rfl, hthere, .inl rfl⟩
      · exact ⟨rfl, rfl, rfl, ⟨_, rfl⟩, .inr ⟨secrets, talosCA, data, hdata, hnone, rfl⟩⟩
    obtain ⟨hsame, hsecret, hrepaired, ⟨template, hthere⟩, htemplate⟩ := hdeployment
    split at h
    · cases h
      exact ⟨hsecret, hrepaired, htemplate, .inl ⟨hsame, by simp⟩⟩
    · split at h
      · cases h
        exact ⟨hsecret, hrepaired, htemplate, .inl ⟨hsame, by simp⟩⟩
      · cases h
        exact ⟨hsecret, hrepaired, htemplate, .inr ⟨_, template, rfl, rfl, hthere⟩⟩

theorem reconcile_of_sound {repair : BootstrapPass}
    (h : ∀ template, w.template = some template → Sound unmarshal crt template) :
    (reconcile marshal unmarshal text tenant repair w).1 = w := by
  rw [reconcile]
  split
  · rfl
  · split
    · rfl
    · split
      · rfl
      · next template htemplate =>
        obtain ⟨config, hread, -⟩ := h template htemplate
        rw [hread]

end Passes

section Runs

variable {s t : State} {event : Event}

/-- The template is the original one or one that was written since, with the CA, and once a pass for
the tenant got to its end the pool refers to it. -/
structure Inv (unmarshal : String → Option Config) (tenant : String) (crt : List UInt8) (w : World)
    (s : State) : Prop where
  secret : s.world.secret = none ∨ s.world.secret = some crt
  template : ∀ template, s.world.template = some template → Sound unmarshal crt template
  original : ∀ template, w.template = some template → s.world.template = some template
  passed : s.tenantPassed = true → ∃ deployment template,
    s.world.deployment = some deployment ∧ deployment.bootstrap = templateName tenant ∧
      s.world.template = some template

theorem Inv.next (hyaml : w.template = none → Yaml marshal unmarshal)
    (h : Inv unmarshal tenant crt w s)
    (hstep : next marshal unmarshal text tenant crt s event = some t) :
    Inv unmarshal tenant crt w t := by
  cases event with
  | secretArrives =>
    rw [Workers.next] at hstep
    split at hstep
    · contradiction
    · obtain rfl := some.inj hstep
      exact ⟨.inr rfl, h.template, h.original, by simp [State.start]⟩
  | bootstrap repair =>
    have hsame : (reconcile marshal unmarshal text tenant repair s.world).1 = s.world :=
      reconcile_of_sound h.template
    generalize hpass : reconcile marshal unmarshal text tenant repair s.world = result at hsame
    obtain ⟨w', stop⟩ := result
    rw [Workers.next, hpass] at hstep
    obtain rfl := some.inj hstep
    subst hsame
    exact ⟨h.secret, h.template, h.original, h.passed⟩
  | tenant pass =>
    generalize hpass : reconcileWorkers marshal tenant pass s.world = result
    obtain ⟨w', stop⟩ := result
    obtain ⟨hsecret, -, htemplate, hdeployment⟩ := of_reconcileWorkers hpass
    rw [Workers.next, hpass] at hstep
    obtain rfl := some.inj hstep
    have hkept : ∀ template, s.world.template = some template → w'.template = some template := by
      intro template hthere
      obtain hsame | ⟨-, -, -, -, hnone, -⟩ := htemplate
      · exact hsame.trans hthere
      · rw [hnone] at hthere
        contradiction
    refine ⟨?_, fun template hthere => ?_, fun template hthere => ?_, fun hpassed => ?_⟩
    · exact hsecret ▸ h.secret
    · obtain hsame | ⟨secrets, talosCA, data, hdata, hnone, hcreated⟩ := htemplate
      · exact h.template template (hsame.symm.trans hthere)
      · have hwrites : w.template = none := by
          by_contra hsome
          obtain ⟨original, horiginal⟩ := ne_none_iff_exists'.mp hsome
          rw [h.original original horiginal] at hnone
          contradiction
        obtain rfl := mem_unique hcreated hthere
        obtain rfl : data = crt := by
          obtain hnone | hcrt := h.secret
          · rw [hnone] at hdata
            contradiction
          · exact mem_unique hdata hcrt
        apply sound_createdTemplate (hyaml hwrites)
        exact carries_talosWorkerConfig tenant pass secrets talosCA
    · exact hkept template (h.original template hthere)
    · obtain ⟨hsame, hstop⟩ | hreferred := hdeployment
      · have hbefore : s.tenantPassed = true := by simpa [hstop] using hpassed
        obtain ⟨deployment, template, hpool, hname, hthere⟩ := h.passed hbefore
        exact ⟨deployment, template, hsame.trans hpool, hname, hkept template hthere⟩
      · exact hreferred

theorem Leads.step {u : State} {e : Event} (h : Leads marshal unmarshal text tenant crt s t)
    (hstep : Workers.next marshal unmarshal text tenant crt t e = some u) :
    Leads marshal unmarshal text tenant crt s u :=
  Machine.Run.step h trivial hstep

theorem passed_next (hsecret : s.world.secret = some crt) (hpassed : s.tenantPassed = true)
    (hstep : Workers.next marshal unmarshal text tenant crt s event = some t) :
    t.tenantPassed = true := by
  cases event with
  | secretArrives => simp [Workers.next, hsecret] at hstep
  | tenant pass =>
    obtain rfl := some.inj hstep
    simp [hpassed]
  | bootstrap repair =>
    obtain rfl := some.inj hstep
    exact hpassed

theorem Inv.of_leads (hyaml : w.template = none → Yaml marshal unmarshal)
    (h : Inv unmarshal tenant crt w s)
    (hleads : Leads marshal unmarshal text tenant crt s t) : Inv unmarshal tenant crt w t :=
  Machine.Run.invariant h (fun hinv _ hstep => hinv.next hyaml hstep) hleads

theorem repairedName_ne (tenant : String) : repairedName tenant ≠ templateName tenant := by
  intro h
  have htoList := congrArg String.toList h
  rw [repairedName, templateName, String.toList_append, String.toList_append] at htoList
  have hsuffix := List.append_cancel_left htoList
  revert hsuffix
  decide

/-- A pass for the tenant that is answered everywhere. -/
def answered : TenantPass where
  namespaceName := ""
  kubernetesVersion := ""
  network := ""
  podCIDR := ""
  serviceCIDR := ""
  count := 1
  vip := ""
  addressNeeded := false
  secrets := some (some ⟨"", "", ""⟩)
  vpcResolver := ""
  talosCA := some (some [0])
  caAnswered := true
  templateAnswered := true
  createAnswered := true
  machineTemplate := some ""
  deploymentAnswered := true

/-- A pass of the repair that is answered everywhere. -/
def repairing : BootstrapPass := ⟨true, true, true, true, true, true⟩

theorem reconcileWorkers_answered {template : Template} (htemplate : w.template = some template)
    (hsecret : w.secret = some crt) (hcrt : crt ≠ []) : reconcileWorkers marshal tenant answered w =
      ({ w with deployment := some (declared tenant answered (templateName tenant) "") },
        none) := by
  have htalos : encodeToString [0] ≠ "" := encodeToString_ne_empty (by simp)
  have hca := encodeToString_ne_empty hcrt
  have hensure : ensureTalosBootstrap marshal tenant answered w = .ok w := by
    simp [ensureTalosBootstrap, answered, resolverPending, certificateFrom, hsecret, htemplate,
      bind, Except.bind, htalos, hca]
  rw [reconcileWorkers, hensure]
  rfl

theorem reconcile_repairing {template : Template} {config : Config}
    {deployment : MachineDeployment} (htemplate : w.template = some template)
    (hlacks : templateLacksClusterCA unmarshal template = some (config, true))
    (hsecret : w.secret = some crt) (hcrt : crt ≠ [])
    (hpool : w.deployment = some deployment) (hname : deployment.bootstrap = templateName tenant) :
    ∃ repaired, reconcile marshal unmarshal text tenant repairing w =
      ({ w with
        repaired := repaired
        deployment := some { deployment with bootstrap := repairedName tenant } }, none) := by
  obtain ⟨a, rest, rfl⟩ := List.exists_cons_of_ne_nil hcrt
  have hne : deployment.bootstrap ≠ repairedName tenant := by
    rw [hname]
    exact (repairedName_ne tenant).symm
  refine ⟨(writeRepairedTemplate marshal template config (text (a :: rest)) w).repaired, ?_⟩
  have hwritten : reconcile marshal unmarshal text tenant repairing w =
      repointDeployment tenant repairing
        (writeRepairedTemplate marshal template config (text (a :: rest)) w) := by
    simp [reconcile, repairing, htemplate, hlacks, hsecret]
  have hkeeps : (writeRepairedTemplate marshal template config (text (a :: rest)) w) = { w with
      repaired :=
        (writeRepairedTemplate marshal template config (text (a :: rest)) w).repaired } := by
    rw [writeRepairedTemplate]
    split <;> rfl
  rw [hwritten, hkeeps, repointDeployment]
  simp [repairing, hpool, hne]

theorem exists_arrived (h : Start unmarshal crt w) :
    ∃ v, v.template = w.template ∧ v.secret = some crt ∧
      Leads marshal unmarshal text tenant crt (.start w) (.start v) := by
  obtain hnone | hcrt := h.secret
  · refine ⟨{ w with secret := some crt }, rfl, rfl, ?_⟩
    apply Leads.step (e := .secretArrives) .refl
    simp [Workers.next, State.start, hnone]
  · exact ⟨w, rfl, hcrt, .refl⟩

theorem not_still_of_lacks (h : Start unmarshal crt w) {template : Template} {config : Config}
    (htemplate : w.template = some template)
    (hlacks : templateLacksClusterCA unmarshal template = some (config, true)) :
    ¬ComesToRest marshal unmarshal text tenant crt w := by
  intro hrest
  obtain ⟨v, hv, hsecret, hleads⟩ := @exists_arrived marshal unmarshal text tenant crt w h
  have hthere := hv.trans htemplate
  have hfirst := @reconcileWorkers_answered marshal tenant crt v template hthere hsecret h.nonempty
  generalize hu : { v with
    deployment := some (declared tenant answered (templateName tenant) "") } = u at hfirst
  have hutemplate : u.template = some template := hu ▸ hthere
  have husecret : u.secret = some crt := hu ▸ hsecret
  have hupool : u.deployment = some (declared tenant answered (templateName tenant) "") := hu ▸ rfl
  obtain ⟨repaired, hrepair⟩ := @reconcile_repairing marshal unmarshal text tenant crt u template
    config _ hutemplate hlacks husecret h.nonempty hupool rfl
  generalize hx : ({ u with
    repaired := repaired
    deployment := some { declared tenant answered (templateName tenant) "" with
      bootstrap := repairedName tenant } } : World) = x at hrepair
  have hxtemplate : x.template = some template := hx ▸ hutemplate
  have hxsecret : x.secret = some crt := hx ▸ husecret
  have hxpool : x.deployment.map MachineDeployment.bootstrap = some (repairedName tenant) :=
    hx ▸ rfl
  have hlast := @reconcileWorkers_answered marshal tenant crt x template hxtemplate hxsecret
    h.nonempty
  have hturned : Leads marshal unmarshal text tenant crt (.start w) ⟨x, true, true⟩ := by
    have hpool : Leads marshal unmarshal text tenant crt (.start w) ⟨u, true, false⟩ :=
      hleads.step (e := .tenant answered) (by simp [Workers.next, State.start, hfirst])
    exact hpool.step (e := .bootstrap repairing) (by simp [Workers.next, hrepair])
  have hstep : Workers.next marshal unmarshal text tenant crt ⟨x, true, true⟩ (.tenant answered) =
      some ⟨{ x with deployment := some (declared tenant answered (templateName tenant) "") },
        true, true⟩ := by
    simp [Workers.next, hlast]
  have hsame := hrest.still _ hturned hxsecret rfl rfl _ _ hstep
  rw [hxpool] at hsame
  exact repairedName_ne tenant (some.inj hsame).symm

/-- The pool comes to rest exactly where the template of the start is none or has the CA. Only where
there is none, one is written. -/
theorem comesToRest_iff (hyaml : w.template = none → Yaml marshal unmarshal)
    (h : Start unmarshal crt w) : ComesToRest marshal unmarshal text tenant crt w ↔
      ∀ template, w.template = some template → ∀ config,
        templateLacksClusterCA unmarshal template ≠ some (config, true) := by
  constructor
  · intro hrest template htemplate config hlacks
    exact not_still_of_lacks h htemplate hlacks hrest
  · intro hhas
    have hstart : Inv unmarshal tenant crt w (.start w) := by
      refine ⟨h.secret, fun template htemplate => ?_, fun _ htemplate => htemplate, by
        simp [State.start]⟩
      obtain ⟨config, lacks, hread, hcarries⟩ := h.template template htemplate
      cases lacks with
      | false => exact ⟨config, hread, hcarries rfl⟩
      | true => exact absurd hread (hhas template htemplate config)
    constructor
    · intro s hleads hsecret hpassed _ event t hstep
      have hinv := hstart.of_leads hyaml hleads
      have hthere := (hinv.next hyaml hstep).passed
      obtain ⟨deployment, template, hpool, hname, -⟩ := hinv.passed hpassed
      obtain ⟨deployment', -, hpool', hname', -⟩ := hthere (passed_next hsecret hpassed hstep)
      rw [hpool, hpool', map_some, map_some, hname, hname']
    · intro s hleads hsecret hpassed _ deployment hpool
      have hinv := hstart.of_leads hyaml hleads
      obtain ⟨deployment', template, hpool', hname, hthere⟩ := hinv.passed hpassed
      obtain rfl := mem_unique hpool hpool'
      obtain ⟨config, hread, hcarries⟩ := hinv.template template hthere
      refine ⟨template, config, false, ?_, hread, hcarries, ?_⟩
      · rw [World.named, if_pos hname, hthere]
      · intro original horiginal config' lacks' hread'
        obtain rfl := mem_unique hthere (hinv.original original horiginal)
        obtain ⟨rfl, -⟩ := Prod.mk.inj (mem_unique hread hread')
        exact .refl _

end Runs

/-- The config of a worker without the CA, and with it. -/
def without : String := "machine: {}\n"

def withCA (crt : String) : String :=
  "cluster:\n  acceptedCAs:\n  - crt: " ++ crt ++ "\n  ca:\n    crt: " ++ crt ++ "\n"

/-- What the two documents hold, and the replacement of the first, which has the bytes of the CA as
they are. -/
def documents (data : String) : Option Config :=
  if data = without then some [("machine", .obj [])]
  else if data = withCA "Q0E=" then
    some [("cluster", .obj [("acceptedCAs", .arr [certificate "Q0E="]),
      ("ca", certificate "Q0E=")])]
  else if data = withCA "CA" ++ without then
    some (repairedConfig [("machine", .obj [])] "CA")
  else none

/-- The first config is written as it was read, and with the CA if it has one by now. -/
def printed (config : Config) : String :=
  if lacksCA config then without else withCA "CA" ++ without

def ascii (bytes : List UInt8) : String := String.ofList (bytes.map fun b => Char.ofNat b.toNat)

/-- A pool and its template, before the Secret is there. -/
def pool (data : String) : World where
  template := some ⟨[], [("generateType", .str "none"), ("data", .str data)]⟩
  repaired := none
  secret := none
  deployment := none

theorem lacks_pool : templateLacksClusterCA documents
    ⟨[], [("generateType", .str "none"), ("data", .str without)]⟩ =
      some ([("machine", .obj [])], true) := by
  decide +kernel

theorem has_pool : templateLacksClusterCA documents
    ⟨[], [("generateType", .str "none"), ("data", .str (withCA "Q0E="))]⟩ =
      some ([("cluster", .obj [("acceptedCAs", .arr [certificate "Q0E="]),
        ("ca", certificate "Q0E=")])], false) := by
  decide +kernel

theorem not_comesToRest : Start documents [0x43, 0x41] (pool without) ∧
    ¬ComesToRest printed documents ascii "t" [0x43, 0x41] (pool without) := by
  have hstart : Start documents [0x43, 0x41] (pool without) := by
    refine ⟨by simp, .inl rfl, fun template htemplate => ?_⟩
    obtain rfl := some.inj htemplate
    exact ⟨_, true, lacks_pool, by simp⟩
  exact ⟨hstart, not_still_of_lacks hstart rfl lacks_pool⟩

theorem comesToRest_withCA :
    ComesToRest printed documents ascii "t" [0x43, 0x41] (pool (withCA "Q0E=")) := by
  have hca : encodeToString [0x43, 0x41] = "Q0E=" := by decide +kernel
  have hstart : Start documents [0x43, 0x41] (pool (withCA "Q0E=")) := by
    refine ⟨by simp, .inl rfl, fun template htemplate => ?_⟩
    obtain rfl := some.inj htemplate
    refine ⟨_, false, has_pool, fun _ => ?_⟩
    rw [hca]
    exact ⟨rfl, 0, rfl⟩
  apply (comesToRest_iff (fun hnone => by contradiction) hstart).mpr
  intro template htemplate config hlacks
  obtain rfl := some.inj htemplate
  rw [has_pool] at hlacks
  simp at hlacks

end Workers
