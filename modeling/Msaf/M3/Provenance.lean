import Msaf.M3.Delivery

/-!
# What an Application Server holds, and where it came from

The AF provisions an AS with the resources of its provisioning sessions: an M1 call queues a
session's certificates (their AF-unique ids, `msaf_retrieve_certificates_from_map`) and its CHC (the
session's id) on the nodes it drives, and `next_action_for_application_server` uploads them one
at a time. This module gives both halves of the account of an AS's content, in a deployment with a
strict AS behind each node.

**The laws.** `servers_hold_provisioned`: along every run from a fresh context, each AS keeps what
it held at the start, and holds besides only ids that the context's sessions provide. The
invariant behind it (`Deployment.Sourced`) traces every id an AS holds and every id queued for
upload to the start or to the store; a `POST` creates only the head of its node's queue
(`Shaped.mem_of_create`), and nothing is ever deleted. `provisioned_delivered`: every id an
admitted M1 call queues on a node it drives (`AssignOp.queues`) is held by the node's AS once the
deployment is served, whatever runs between the call and the serving.

**What it does not establish.** The documents: an AS's content is its ids, so that an upload
carries the session's current CHC is not said here. An AS whose node is never driven is not
provisioned, and two nodes of one AS are not modelled.
-/

namespace Msaf

/-! ## What an AS takes from a request -/

/-- A request adds to an AS's collection only the resource a `POST` creates. -/
theorem AsContent.mem_handle {c : AsContent} {op : M3Op} {k : M3Collection} {id : String}
    (h : id ∈ (c.handle op).1.get k) : id ∈ c.get k ∨ op = .create k id := by
  cases op with
  | create k' id' =>
    simp only [AsContent.handle] at h
    split_ifs at h
    · exact .inl h
    · by_cases hk : k' = k
      · subst hk
        simp only [AsContent.get_set_self, List.mem_append, List.mem_singleton] at h
        exact h.imp_right fun h => congrArg _ h.symm
      · exact .inl (by rwa [AsContent.get_set_of_ne _ _ hk] at h)
  | delete k' id' =>
    simp only [AsContent.handle] at h
    split_ifs at h
    · by_cases hk : k' = k
      · subst hk
        exact .inl (List.mem_of_mem_erase (by simpa using h))
      · exact .inl (by rwa [AsContent.get_set_of_ne _ _ hk] at h)
    · exact .inl h
  | list | replace | purge => exact .inl h

theorem AsContent.mem_answer {c : AsContent} {busy : Bool} {act : NextAction} {k : M3Collection}
    {id : String} (h : id ∈ (c.answer busy act).1.get k) :
    id ∈ c.get k ∨ act.op = .create k id := by
  cases busy
  · exact AsContent.mem_handle h
  · exact .inl h

/-- What a shaped node asks its AS to create is queued on it: the `POST` of an upload names the
head of the queue, a certificate by its AF-unique id re-joined. -/
theorem ApplicationServerState.Shaped.mem_of_create {a : ApplicationServerState} (hs : a.Shaped)
    {act : NextAction} (hact : nextAction a = some act) {k : M3Collection} {id : String}
    (hop : act.op = .create k id) : id ∈ a.uploads k := by
  have hd := nextAction_drivenBy hact
  cases act with
  | uploadCertificate id₀ found =>
    cases found <;> simp [NextAction.op] at hop
    obtain ⟨rfl, rfl⟩ := hop
    have hmem := List.mem_of_mem_head? hd
    exact (hs.certIds _ hmem).symm ▸ hmem
  | uploadContentHostingConfiguration id₀ found =>
    cases found <;> simp [NextAction.op] at hop
    obtain ⟨rfl, rfl⟩ := hop
    exact List.mem_of_mem_head? hd
  | _ => simp [NextAction.op] at hop

/-! ## What a reply does to the upload queues -/

/-- A 2xx only ever pops an upload queue. -/
theorem NextAction.onSuccess_uploads (act : NextAction) (ids : List String)
    (a : ApplicationServerState) (k : M3Collection) :
    ((act.onSuccess ids a).uploads k).Sublist (a.uploads k) := by
  cases act <;> cases k <;> first | exact List.Sublist.refl _ | exact List.tail_sublist _

/-- So does a failure. -/
theorem NextAction.onDrop_uploads (act : NextAction) (a : ApplicationServerState)
    (k : M3Collection) : ((act.onDrop a).uploads k).Sublist (a.uploads k) := by
  cases act <;> cases k <;> first | exact List.Sublist.refl _ | exact List.tail_sublist _

theorem Event.effect_uploads (ev : Event) (a : ApplicationServerState) (k : M3Collection) :
    ((ev.effect a).uploads k).Sublist (a.uploads k) := by
  unfold Event.effect
  split_ifs
  · exact List.Sublist.refl _
  · exact ev.sent.action.onSuccess_uploads _ _ _
  · exact ev.sent.action.onDrop_uploads _ _

/-- What a session provides depends on its id and certificates alone. -/
theorem ProvisioningSession.provides_congr {p q : ProvisioningSession}
    (hid : q.provisioningSessionId = p.provisioningSessionId)
    (hc : q.certificates = p.certificates) : q.provides = p.provides := by
  funext k
  cases k <;> simp [ProvisioningSession.provides, msafRetrieveCertificatesFromMap, hid, hc]

/-! ## Provenance -/

/-- Id `id` may be in collection `k` of node `i`'s AS: the AS held it at the start (`start`), or
a session of the store `pss` provides it. -/
def Provided (start : List AsContent) (pss : List ProvisioningSession) (i : Nat) (k : M3Collection)
    (id : String) : Prop :=
  (∃ c₀, start[i]? = some c₀ ∧ id ∈ c₀.get k) ∨ ∃ ps ∈ pss, id ∈ ps.provides k

/-- The provenance of a deployment's content, against the ASs' content `start` and the store `pss`
it started from: each AS keeps what it held at the start and holds besides only provided ids,
every queued upload is an id the store provides, and the store provides nothing new. -/
structure Deployment.Sourced (start : List AsContent) (pss : List ProvisioningSession)
    (d : Deployment) : Prop where
  kept : ∀ (i : Nat) (c₀ : AsContent), start[i]? = some c₀ →
    ∃ c, d.servers[i]? = some c ∧ ∀ k, c₀.get k ⊆ c.get k
  servers : ∀ (i : Nat) (c : AsContent), d.servers[i]? = some c →
    ∀ k, ∀ id ∈ c.get k, Provided start pss i k id
  uploads : ∀ (i : Nat) (a : ApplicationServerState),
    d.engine.context.applicationServerStates[i]? = some a →
    ∀ k, ∀ id ∈ a.uploads k, ∃ ps ∈ pss, id ∈ ps.provides k
  store : ∀ p ∈ d.engine.context.provisioningSessions, ∃ q ∈ pss, q.provides = p.provides

section Steps

variable {env : Env} {start : List AsContent} {pss : List ProvisioningSession} {d d' : Deployment}
  {e' : Engine}

theorem Deployment.sourced_init {ctx : Context} (hf : ctx.Fresh) :
    Deployment.Sourced start ctx.provisioningSessions ⟨Engine.init ctx, start⟩ where
  kept _ c₀ h := ⟨c₀, h, fun _ => List.Subset.refl _⟩
  servers _ c h _ id hid := .inl ⟨c, h, hid⟩
  uploads _ a ha k id hid := by
    obtain ⟨-, -, hu, hh, -⟩ := hf.1 a (List.getElem?_mem ha)
    cases k <;> simp_all [ApplicationServerState.uploads]
  store p hp := ⟨p, hp, rfl⟩

/-- A step that leaves the ASs and the store alone and only pops upload queues keeps the
provenance. -/
theorem Deployment.Sourced.of_pops (hsrc : d.Sourced start pss) (hsv : d'.servers = d.servers)
    (hstore : d'.engine.context.provisioningSessions = d.engine.context.provisioningSessions)
    (hnodes : ∀ (i : Nat) (a' : ApplicationServerState),
      d'.engine.context.applicationServerStates[i]? = some a' →
      ∃ a, d.engine.context.applicationServerStates[i]? = some a ∧
        ∀ k, a'.uploads k ⊆ a.uploads k) :
    d'.Sourced start pss where
  kept := hsv ▸ hsrc.kept
  servers := hsv ▸ hsrc.servers
  uploads i a' ha' k id hid := by
    obtain ⟨a, ha, hsub⟩ := hnodes i a' ha'
    exact hsrc.uploads i a ha k id (hsub k hid)
  store := hstore ▸ hsrc.store

/-- An M1 call queues only what sessions of the store provide, and keeps every session's id and
certificates. -/
theorem Deployment.sourced_m1 {op : AssignOp} (hsrc : d.Sourced start pss)
    (h : d.engine.step env (.m1 op) = some e') : Deployment.Sourced start pss ⟨e', d.servers⟩ := by
  obtain ⟨r, hr, rfl⟩ := Option.map_eq_some'.mp h
  have hstore : ∀ ps ∈ d.engine.context.provisioningSessions, ∀ k, ∀ id ∈ ps.provides k,
      ∃ q ∈ pss, id ∈ q.provides k := fun ps hps k id hid => by
    obtain ⟨q, hq, he⟩ := hsrc.store ps hps
    exact ⟨q, hq, he ▸ hid⟩
  refine ⟨hsrc.kept, hsrc.servers, fun i a' ha' k id hid => ?_, fun p hp => ?_⟩
  · obtain ⟨a, ha, hch⟩ := AssignOp.apply_change hr i a' ha'
    rcases hch.uploads k id hid with hid | ⟨ps, hps, hid⟩
    · exact hsrc.uploads i a ha k id hid
    · exact hstore ps hps k id hid
  · obtain ⟨q, hq, hid, hc⟩ := AssignOp.apply_sessions hr p hp
    obtain ⟨q₀, hq₀, he⟩ := hsrc.store q hq
    exact ⟨q₀, hq₀, he.trans (ProvisioningSession.provides_congr hid hc)⟩

/-- The worker handling a reply pops at most its node's upload queue. -/
theorem Deployment.sourced_dispatch (hsrc : d.Sourced start pss)
    (h : d.engine.step env .dispatch = some e') : Deployment.Sourced start pss ⟨e', d.servers⟩ := by
  obtain ⟨ev, rest, -, rfl⟩ := step_dispatch_eq h
  have hadv := handleM3Response_advances env ev { d.engine with workQueue := rest }
  refine hsrc.of_pops rfl hadv.sessions fun j a' ha' => ?_
  by_cases hj : ev.sent.asState = j
  · subst hj
    have hlt := (List.getElem?_eq_some_iff.mp ha').1
    rw [handleM3Response_length] at hlt
    have ha := List.getElem?_eq_getElem hlt
    obtain ⟨a'', ha'', hup⟩ := handleM3Response_node env ev { d.engine with workQueue := rest } ha
    obtain rfl : a'' = a' := Option.some_inj.mp (ha''.symm.trans ha')
    exact ⟨_, ha, fun k => hup k ▸ (ev.effect_uploads _ k).subset⟩
  · exact ⟨a', (hadv.states_of_ne j hj).symm.trans ha', fun _ => List.Subset.refl _⟩

/-- A timer firing changes no upload queue. -/
theorem Deployment.sourced_expire {n : Nat} (hsrc : d.Sourced start pss)
    (h : d.engine.step env (.expire n) = some e') :
    Deployment.Sourced start pss ⟨e', d.servers⟩ := by
  obtain ⟨j, -, rfl⟩ := Option.map_eq_some'.mp h
  refine hsrc.of_pops rfl (by simp) fun i a' ha' => ?_
  rw [nextActionFor_states_getElem?] at ha'
  split at ha'
  · obtain ⟨a, ha, rfl⟩ := Option.map_eq_some'.mp ha'
    exact ⟨a, ha, fun k => by simp⟩
  · exact ⟨a', ha', fun _ => List.Subset.refl _⟩

/-- An AS answering a request keeps what it holds and creates only the head of its node's upload
queue. -/
theorem Deployment.sourced_serve {n : Nat} {busy : Bool} (hsrc : d.Sourced start pss) (hi : d.Inv)
    (hp : d.engine.Paired) (h : d.step env (.serve n busy) = some d') : d'.Sourced start pss := by
  obtain ⟨s, c, hs, hc, he, hsv⟩ := Deployment.step_serve h
  obtain ⟨a, ha, hact⟩ := hp s (List.mem_append_left _ (List.getElem?_mem hs))
  have hsh := hi.shaped _ a ha
  have hctx : d'.engine.context = d.engine.context := by rw [he]
  have hlt := (List.getElem?_eq_some_iff.mp hc).1
  refine ⟨fun i c₀ hc₀ => ?_, fun i c' hc' k id hid => ?_, hctx ▸ hsrc.uploads,
    hctx ▸ hsrc.store⟩
  · obtain ⟨c₁, hc₁, hsub⟩ := hsrc.kept i c₀ hc₀
    rw [hsv]
    by_cases hj : s.asState = i
    · subst hj
      obtain rfl : c₁ = c := Option.some_inj.mp (hc₁.symm.trans hc)
      exact ⟨_, List.getElem?_set_self hlt, fun k id hid =>
        c₁.answer_keeps busy (hsh.op_ne_delete hact) k (hsub k hid)⟩
    · exact ⟨c₁, by rw [List.getElem?_set_ne hj]; exact hc₁, hsub⟩
  · rw [hsv] at hc'
    by_cases hj : s.asState = i
    · subst hj
      obtain rfl : (c.answer busy s.action).1 = c' := by
        simpa [List.getElem?_set_self', hc] using hc'
      rcases AsContent.mem_answer hid with hid | hop
      · exact hsrc.servers _ c hc k id hid
      · exact .inr (hsrc.uploads _ a ha k id (hsh.mem_of_create hact hop))
    · exact hsrc.servers i c' (by rwa [List.getElem?_set_ne hj] at hc') k id hid

/-- Every step of a deployment that keeps the mirror invariant keeps the provenance. -/
theorem Deployment.Sourced.step {inp : DeploymentInput} (hsrc : d.Sourced start pss) (hi : d.Inv)
    (hp : d.engine.Paired) (hs : d.step env inp = some d') : d'.Sourced start pss := by
  cases inp with
  | m1 op =>
    obtain ⟨e, he, rfl⟩ := Option.map_eq_some'.mp hs
    exact Deployment.sourced_m1 hsrc he
  | serve n busy => exact Deployment.sourced_serve hsrc hi hp hs
  | dispatch =>
    obtain ⟨e, he, rfl⟩ := Option.map_eq_some'.mp hs
    exact Deployment.sourced_dispatch hsrc he
  | expire n =>
    obtain ⟨e, he, rfl⟩ := Option.map_eq_some'.mp hs
    exact Deployment.sourced_expire hsrc he

end Steps

theorem Deployment.Sourced.of_run {env : Env} {start : List AsContent}
    {pss : List ProvisioningSession} {d d' : Deployment} (hsrc : d.Sourced start pss)
    (h : d.Reachable env) (hrun : Relation.ReflTransGen (Deployment.Next env) d d') :
    d'.Sourced start pss := by
  induction hrun with
  | refl => exact hsrc
  | tail hrun hnext ih =>
    obtain ⟨_, -, hs⟩ := hnext
    have hr := h.of_run hrun
    exact ih.step hr.inv hr.paired.1 hs

/-- Along every run of a deployment from a fresh context whose session ids are AF-unique, each AS
keeps what it held at the start, and holds besides only ids that the context's sessions provide:
the AF-unique ids of their certificates, and their own ids as CHC ids. -/
theorem servers_hold_provisioned {env : Env} {ctx : Context} (hf : ctx.Fresh)
    (hids : ctx.IdsAfUnique) {start : List AsContent} {d : Deployment}
    (hrun : Relation.ReflTransGen (Deployment.Next env) ⟨Engine.init ctx, start⟩ d) {i : Nat}
    {c₀ : AsContent} (hc₀ : start[i]? = some c₀) :
    ∃ c, d.servers[i]? = some c ∧ ∀ k, c₀.get k ⊆ c.get k ∧
      ∀ id ∈ c.get k, id ∈ c₀.get k ∨ ∃ ps ∈ ctx.provisioningSessions, id ∈ ps.provides k := by
  have hsrc := (Deployment.sourced_init hf).of_run (.init start hf hids) hrun
  obtain ⟨c, hc, hkept⟩ := hsrc.kept i c₀ hc₀
  refine ⟨c, hc, fun k => ⟨hkept k, fun id hid => ?_⟩⟩
  rcases hsrc.servers i c hc k id hid with ⟨c₁, hc₁, hid⟩ | hprov
  · exact .inl (Option.some_inj.mp (hc₁.symm.trans hc₀) ▸ hid)
  · exact .inr hprov

theorem servers_hold_provisioned_sample :
    let start : List AsContent := [⟨["other"], []⟩]
    let d₀ : Deployment := ⟨Engine.init Context.sample, start⟩
    let d₁ := (d₀.step Env.failing (.m1 (.setOnPost "ps1"))).getD d₀
    let d := (d₁.step Env.failing (.serve 0 false)).getD d₁
    Relation.ReflTransGen (Deployment.Next Env.failing) d₀ d ∧
      ∃ c, d.servers[0]? = some c ∧ ∀ k, (⟨["other"], []⟩ : AsContent).get k ⊆ c.get k ∧
        ∀ id ∈ c.get k, id ∈ (⟨["other"], []⟩ : AsContent).get k ∨
          ∃ ps ∈ Context.sample.provisioningSessions, id ∈ ps.provides k := by
  intro start d₀ d₁ d
  have hrun : Relation.ReflTransGen (Deployment.Next Env.failing) d₀ d :=
    .tail (.single ⟨.m1 (.setOnPost "ps1"), fun i _ => outstanding_init _ i, rfl⟩)
      ⟨.serve 0 false, trivial, rfl⟩
  exact ⟨hrun, servers_hold_provisioned Context.sample_fresh (by decide) hrun rfl⟩

/-! ## What an M1 call provisions -/

/-- Every node on a session's list is a node of the context. -/
def Context.NodesLive (ctx : Context) : Prop :=
  ∀ p ∈ ctx.provisioningSessions, ∀ i ∈ p.msafApplicationServerStateNodes,
    i < ctx.applicationServerStates.length

/-- An M1 call keeps every session's nodes live: `set_on_post` puts on a session's list only the
node it stops at. -/
theorem AssignOp.apply_nodesLive {env : Env} {op : AssignOp} {ctx : Context}
    {r : Context × List Sent} (h : op.apply env ctx = some r) (hl : ctx.NodesLive) :
    r.1.NodesLive := by
  intro p hp i hi
  rw [AssignOp.apply_length h]
  cases op with
  | setOnPost psId =>
    obtain ⟨ps, -, ⟨-, rfl⟩ | ⟨j, hj, rfl⟩⟩ := msafApplicationServerStateSetOnPost_eq_some h
    · exact hl p hp i hi
    · simp only [setOnPostBody, nextActionAt_fst, modifyState_sessions] at hp
      obtain ⟨q, hq, ⟨-, rfl⟩ | ⟨-, rfl⟩⟩ := mem_modifySession hp
      · obtain rfl := List.mem_singleton.mp hi
        obtain ⟨a, ha⟩ := setOnPostTarget_live hj
        exact (List.getElem?_eq_some_iff.mp ha).1
      · exact hl _ hq i hi
  | set j psId =>
    rw [(set_appends env j psId ctx r h).2] at hp
    exact hl p hp i hi
  | update psId =>
    obtain ⟨ps, -, rfl⟩ := msafApplicationServerStateUpdate_eq_some h
    rw [forEachState_sessions _ (updateBody_sessions env ps)] at hp
    exact hl p hp i hi

/-- No step of the engine puts a dead node on a session's list. -/
theorem Engine.step_nodesLive {env : Env} {e e' : Engine} {inp : Input}
    (h : e.step env inp = some e') (hl : e.context.NodesLive) : e'.context.NodesLive := by
  cases inp with
  | m1 op =>
    obtain ⟨r, hr, rfl⟩ := Option.map_eq_some'.mp h
    exact AssignOp.apply_nodesLive hr hl
  | notify =>
    obtain ⟨s, -, rfl⟩ := Option.map_eq_some'.mp h
    exact hl
  | dispatch =>
    obtain ⟨ev, rest, -, rfl⟩ := step_dispatch_eq h
    intro p hp i hi
    rw [(handleM3Response_advances env ev { e with workQueue := rest }).sessions] at hp
    rw [handleM3Response_length]
    exact hl p hp i hi
  | expire =>
    obtain ⟨j, -, rfl⟩ := Option.map_eq_some'.mp h
    intro p hp i hi
    simp only [nextActionFor_sessions] at hp
    simpa [Engine.nextActionFor, nextActionAt_fst] using hl p hp i hi

theorem Deployment.Reachable.nodesLive {env : Env} {d : Deployment} (h : d.Reachable env) :
    d.engine.context.NodesLive :=
  Engine.Reachable.induct' (fun e => e.context.NodesLive)
    (fun _ hf p hp i hi => by simp [hf.2 p hp] at hi)
    (fun _ _ _ hl _ hs => Engine.step_nodesLive hs hl) h.engine

/-- What an M1 call queues for upload on each node it drives: `set_on_post` and `set` what the
session provides (`ApplicationServerState.assign`), `update` the session's CHC
(`ApplicationServerState.reassign`). -/
def AssignOp.queues (ps : ProvisioningSession) : AssignOp → M3Collection → List String
  | .update _, .certificates => []
  | .update _, .contentHostingConfigurations => [ps.provisioningSessionId]
  | .setOnPost _, k | .set _ _, k => ps.provides k

/-- The block of `set` and `set_on_post` on a live node queues there what the session
provides. -/
theorem assignAt_queues (env : Env) (ps : ProvisioningSession) {ctx : Context} {i : Nat}
    {a : ApplicationServerState} (ha : ctx.applicationServerStates[i]? = some a)
    (k : M3Collection) :
    ∃ a', (nextActionAt env i
        (ctx.modifyState i (ApplicationServerState.assign ps))).1.applicationServerStates[i]? =
      some a' ∧ ps.provides k ⊆ a'.uploads k := by
  refine ⟨(a.assign ps).afterNextAction, by simp [assignAt_states, ha], ?_⟩
  rw [afterNextAction_uploads, ApplicationServerState.assign_uploads]
  exact List.subset_append_right _ _

/-- Every node an M1 call drives has what the call queues in its upload queues. -/
theorem AssignOp.apply_queues {env : Env} {op : AssignOp} {ctx : Context}
    {r : Context × List Sent} (h : op.apply env ctx = some r) (hl : ctx.NodesLive)
    {ps : ProvisioningSession}
    (hps : findProvisioningSession ctx.provisioningSessions op.psId = some ps) {i : Nat}
    (hi : i ∈ op.drives ctx) (k : M3Collection) :
    ∃ a, r.1.applicationServerStates[i]? = some a ∧ op.queues ps k ⊆ a.uploads k := by
  cases op with
  | setOnPost psId =>
    obtain ⟨ps', hps', ⟨htgt, -⟩ | ⟨j, htgt, rfl⟩⟩ := msafApplicationServerStateSetOnPost_eq_some h
    · simp [AssignOp.drives, htgt] at hi
    · obtain rfl : ps' = ps := Option.some_inj.mp (hps'.symm.trans hps)
      obtain rfl : i = j := by simpa [AssignOp.drives, htgt] using hi
      obtain ⟨a, ha⟩ := setOnPostTarget_live htgt
      rw [setOnPostBody_states]
      exact assignAt_queues env ps' ha k
  | set j psId =>
    obtain ⟨ps', hps', a, ha, rfl⟩ := msafApplicationServerStateSet_eq_some h
    obtain rfl : ps' = ps := Option.some_inj.mp (hps'.symm.trans hps)
    obtain rfl : i = j := by simpa [AssignOp.drives] using hi
    exact assignAt_queues env ps' ha k
  | update psId =>
    obtain ⟨ps', hps', rfl⟩ := msafApplicationServerStateUpdate_eq_some h
    obtain rfl : ps' = ps := Option.some_inj.mp (hps'.symm.trans hps)
    simp only [AssignOp.drives, hps', Option.map_some', Option.getD_some] at hi
    have hlt := hl ps' (List.mem_of_find?_eq_some hps') i hi
    rw [forEachState_states _ _ (updateBody_states env ps'), List.getElem?_eq_getElem hlt]
    refine ⟨_, rfl, ?_⟩
    obtain ⟨hchc, -⟩ := reassign_iterate ps' ctx.applicationServerStates[i]
      (ps'.msafApplicationServerStateNodes.count i)
    cases k
    · simp [AssignOp.queues]
    · intro id hid
      obtain rfl := List.mem_singleton.mp hid
      show _ ∈ (_ : ApplicationServerState).uploadContentHostingConfigurations
      rw [hchc]
      exact List.mem_append_right _
        (List.mem_replicate.mpr ⟨(List.count_pos_iff.mpr hi).ne', rfl⟩)

/-- In a reachable deployment, every id an admitted M1 call queues on a node it drives is held by
the node's AS once the deployment is served, whatever admitted steps run between the call and the
serving: `set_on_post` and `set` deliver the session's certificates and CHC, `update` its CHC. -/
theorem provisioned_delivered {env : Env} {d d' d'' : Deployment} (h : d.Reachable env)
    {op : AssignOp} (hal : d.Admits (.m1 op)) (hs : d.step env (.m1 op) = some d')
    (hrun : Relation.ReflTransGen (Deployment.Next env) d' d'') {ps : ProvisioningSession}
    (hps : findProvisioningSession d.engine.context.provisioningSessions op.psId = some ps)
    {i : Nat} (hi : i ∈ op.drives d.engine.context) {k : M3Collection} {id : String}
    (hid : id ∈ op.queues ps k)
    (hsv : d''.engine.context.applicationServerStates.length ≤ d''.servers.length)
    (sched : List Bool) (n : Nat) (hn : d''.engine.potential + 3 * sched.count true ≤ n) :
    ∃ c, (d''.serve env sched n).servers[i]? = some c ∧ id ∈ c.get k := by
  have h' : d'.Reachable env := .step h hal hs
  obtain ⟨e, he, rfl⟩ := Option.map_eq_some'.mp hs
  obtain ⟨r, hr, rfl⟩ := Option.map_eq_some'.mp he
  obtain ⟨a, ha, hsub⟩ := AssignOp.apply_queues hr h.nodesLive hps hi k
  exact (Deployment.QueuedOrHeld.of_run (by exact .inl ⟨a, ha, hsub hid⟩) h' hrun).delivered
    (h'.of_run hrun) hsv sched n hn

theorem provisioned_delivered_sample :
    let d : Deployment := ⟨Engine.init Context.sample, [⟨[], []⟩]⟩
    let d' := (d.step Env.failing (.m1 (.setOnPost "ps1"))).getD d
    d'.engine.context.applicationServerStates.length ≤ d'.servers.length ∧
      d'.engine.potential + 3 * [].count true ≤ 10 ∧
      ∃ c, (d'.serve Env.failing [] 10).servers[0]? = some c ∧
        "ps1:cert1" ∈ c.get .certificates := by
  intro d d'
  have hsv : d'.engine.context.applicationServerStates.length ≤ d'.servers.length := by decide
  have hn : d'.engine.potential + 3 * [].count true ≤ 10 := by decide
  exact ⟨hsv, hn, provisioned_delivered (.init _ Context.sample_fresh (by decide))
    (show d.Admits (.m1 (.setOnPost "ps1")) from fun i _ => outstanding_init _ i) rfl .refl
    (show findProvisioningSession _ _ = some ⟨"ps1", some "{}", ["cert1"], []⟩ from rfl)
    (by decide) (by decide) hsv [] 10 hn⟩

end Msaf
