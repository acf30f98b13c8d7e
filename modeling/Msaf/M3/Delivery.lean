import Mathlib.Logic.Relation
import Msaf.M3.Mirror

/-!
# Every queued upload reaches its Application Server

An M1 call queues the certificates and the CHC of a provisioning session on a node
(`upload_certificates`, `upload_content_hosting_configurations`), and
`next_action_for_application_server` works the queues off one request at a time. The reply
handler pops an entry on a 2xx and on a 4xx alike, so an entry the AS refused is gone. This module
shows that in a deployment with a strict AS behind each node that never happens, and that serving
the deployment delivers every queued entry.

**The laws.** `uploads_never_lost`: along every run of a reachable deployment, a certificate or CHC
queued for upload on a node stays queued there until the node's AS holds it, and the AS keeps it.
`uploads_delivered`: served for as many steps as the engine's potential and three more per busy
answer, a reachable deployment whose every node has an AS ends with each such id on the node's
AS; a busy AS's 503 arms the node's timer, and the retry sends the request again.
`caches_converge`: the nodes' cached lists end equal to their ASs' lists. All rest on the mirror
invariant (`Deployment.Inv`): the reply the handler takes for an upload is a 2xx or a 5xx, and a
2xx shows the id on the AS.

**What it does not establish.** Nothing here deletes: no modelled M1 call queues a delete or a
purge, so the ASs' lists only grow. An AS busy at every answer keeps the deployment from settling;
the bound on the run counts the busy answers of the schedule.
-/

namespace Msaf

/-! ## What an AS keeps -/

/-- An AS keeps what it holds under every request but a DELETE. -/
theorem AsContent.handle_keeps (c : AsContent) {op : M3Op} (hop : ∀ k id, op ≠ .delete k id)
    (k : M3Collection) {id : String} (h : id ∈ c.get k) : id ∈ (c.handle op).1.get k := by
  cases op with
  | create k' id' =>
    simp only [AsContent.handle]
    split_ifs
    · exact h
    · by_cases hk : k' = k
      · subst hk
        simp [h]
      · rwa [AsContent.get_set_of_ne _ _ hk]
  | delete k' id' => exact absurd rfl (hop k' id')
  | list | replace | purge => exact h

/-- A shaped node asks for no DELETE. -/
theorem ApplicationServerState.Shaped.op_ne_delete {a : ApplicationServerState}
    {act : NextAction} (hs : a.Shaped) (hact : nextAction a = some act) (k : M3Collection)
    (id : String) : act.op ≠ .delete k id := by
  have hd := nextAction_drivenBy hact
  cases act with
  | deleteContentHostingConfiguration =>
    simp [NextAction.DrivenBy, hs.deleteContentHostingConfigurations] at hd
  | deleteCertificate => simp [NextAction.DrivenBy, hs.deleteCertificates] at hd
  | uploadCertificate _ found | uploadContentHostingConfiguration _ found =>
    cases found <;> simp [NextAction.op]
  | _ => simp [NextAction.op]

theorem AsContent.answer_keeps (c : AsContent) (busy : Bool) {act : NextAction}
    (hop : ∀ k id, act.op ≠ .delete k id) (k : M3Collection) {id : String} (h : id ∈ c.get k) :
    id ∈ (c.answer busy act).1.get k := by
  cases busy
  · exact c.handle_keeps hop k h
  · exact h

/-! ## What a reply does to the upload queues -/

theorem mem_insertId_self (id : String) (l : List String) : id ∈ insertId id l := by
  unfold insertId
  split_ifs with h
  · exact h
  · exact List.mem_append_right _ (List.mem_singleton_self id)

/-- A branch past the two GETs has both lists known. -/
theorem nextAction_lists_known {a : ApplicationServerState} {act : NextAction}
    (hact : nextAction a = some act) (h₁ : act ≠ .getCertificates)
    (h₂ : act ≠ .getContentHostingConfigurations) :
    (∃ certs, a.currentCertificates = some certs) ∧
      ∃ chcs, a.currentContentHostingConfigurations = some chcs := by
  unfold nextAction at hact
  split at hact
  · exact absurd (Option.some_inj.mp hact).symm h₁
  · exact absurd (Option.some_inj.mp hact).symm h₂
  · exact ⟨⟨_, ‹_›⟩, _, ‹_›⟩

/-- A 2xx to the node's next action pops an upload only once the AS the node then mirrors holds
it. -/
theorem uploads_onSuccess {a : ApplicationServerState} {act : NextAction} {ids : List String}
    {c : AsContent} (hact : nextAction a = some act) (hm : (act.onSuccess ids a).Mirrors c)
    (k : M3Collection) {id : String} (h : id ∈ a.uploads k) :
    id ∈ (act.onSuccess ids a).uploads k ∨ id ∈ c.get k := by
  have hd := nextAction_drivenBy hact
  cases act with
  | uploadCertificate id₀ found =>
    obtain ⟨⟨certs, hcerts⟩, -⟩ := nextAction_lists_known hact nofun nofun
    cases k
    · obtain ⟨rest, hq⟩ : ∃ rest, a.uploadCertificates = id₀ :: rest :=
        ⟨_, (List.cons_head?_tail hd).symm⟩
      simp only [ApplicationServerState.uploads, NextAction.onSuccess, hq, List.tail_cons,
        AsContent.get] at h ⊢
      rcases List.mem_cons.mp h with rfl | h
      · exact .inr (hm.1 (insertId id certs) (by simp [NextAction.onSuccess, hcerts]) ▸
          mem_insertId_self _ _)
      · exact .inl h
    · exact .inl h
  | uploadContentHostingConfiguration id₀ found =>
    obtain ⟨-, chcs, hchcs⟩ := nextAction_lists_known hact nofun nofun
    cases k
    · exact .inl h
    · obtain ⟨rest, hq⟩ : ∃ rest, a.uploadContentHostingConfigurations = id₀ :: rest :=
        ⟨_, (List.cons_head?_tail hd).symm⟩
      simp only [ApplicationServerState.uploads, NextAction.onSuccess, hq, List.tail_cons,
        AsContent.get] at h ⊢
      rcases List.mem_cons.mp h with rfl | h
      · exact .inr (hm.2 (insertId id chcs) (by simp [NextAction.onSuccess, hchcs]) ▸
          mem_insertId_self _ _)
      · exact .inl h
  | _ => exact .inl (by cases k <;> exact h)

/-- The reply the handler takes for a node's next action, a 2xx or a 5xx, pops an upload only
once the AS the node then mirrors holds it. -/
theorem Event.uploads_effect {ev : Event} {a : ApplicationServerState} {c : AsContent}
    (hact : nextAction a = some ev.sent.action)
    (hans : ev.response.Ok ∨ ev.response.Retriable) (hm : (ev.effect a).Mirrors c)
    (k : M3Collection) {id : String} (h : id ∈ a.uploads k) :
    id ∈ (ev.effect a).uploads k ∨ id ∈ c.get k := by
  rcases hans with hok | hr
  · rw [effect_ok hok] at hm ⊢
    exact uploads_onSuccess hact hm k h
  · simp only [Event.effect, if_pos hr]
    exact .inl h

/-- The reply handler leaves its node with the upload queues of the reply's effect. -/
theorem handleM3Response_node (env : Env) (ev : Event) (e : Engine) {a : ApplicationServerState}
    (ha : e.context.applicationServerStates[ev.sent.asState]? = some a) :
    ∃ a', (handleM3Response env ev e).context.applicationServerStates[ev.sent.asState]? = some a' ∧
      ∀ k, a'.uploads k = (ev.effect a).uploads k := by
  rw [handleM3Response_eq]
  split_ifs with hr
  · exact ⟨a, ha, fun k => by simp only [Event.effect, if_pos hr]⟩
  · exact ⟨(ev.effect a).afterNextAction, by simp [nextActionFor_states_getElem?, ha],
      afterNextAction_uploads _⟩

/-! ## Queued or held -/

/-- Id `id` is queued for upload in collection `k` on node `i`, or node `i`'s AS holds it. -/
def Deployment.QueuedOrHeld (d : Deployment) (i : Nat) (k : M3Collection) (id : String) : Prop :=
  (∃ a, d.engine.context.applicationServerStates[i]? = some a ∧ id ∈ a.uploads k) ∨
    ∃ c, d.servers[i]? = some c ∧ id ∈ c.get k

section Steps

variable {env : Env} {d d' : Deployment} {e' : Engine} {i : Nat} {k : M3Collection} {id : String}

/-- An M1 call keeps every queued upload and leaves the ASs alone. -/
theorem Deployment.queuedOrHeld_m1 {op : AssignOp} (h : d.engine.step env (.m1 op) = some e')
    (hq : d.QueuedOrHeld i k id) : Deployment.QueuedOrHeld ⟨e', d.servers⟩ i k id := by
  obtain ⟨r, hr, rfl⟩ := Option.map_eq_some'.mp h
  rcases hq with ⟨a, ha, hid⟩ | held
  · have hlt : i < r.1.applicationServerStates.length :=
      AssignOp.apply_length hr ▸ (List.getElem?_eq_some_iff.mp ha).1
    obtain ⟨a₀, ha₀, hch⟩ := AssignOp.apply_change hr i _ (List.getElem?_eq_getElem hlt)
    obtain rfl : a₀ = a := Option.some_inj.mp (ha₀.symm.trans ha)
    exact .inl ⟨_, List.getElem?_eq_getElem hlt, hch.uploadsKept k id hid⟩
  · exact .inr held

/-- An AS answering a request keeps what it holds: the node in step asks for no DELETE. -/
theorem Deployment.queuedOrHeld_serve {n : Nat} {busy : Bool} (hi : d.Inv) (hp : d.engine.Paired)
    (h : d.step env (.serve n busy) = some d') (hq : d.QueuedOrHeld i k id) :
    d'.QueuedOrHeld i k id := by
  obtain ⟨s, c, hs, hc, he, hsv⟩ := Deployment.step_serve h
  have hctx : d'.engine.context = d.engine.context := by rw [he]
  rcases hq with ⟨a, ha, hid⟩ | ⟨c₀, hc₀, hid⟩
  · exact .inl ⟨a, hctx ▸ ha, hid⟩
  · rw [Deployment.QueuedOrHeld, hsv]
    by_cases hj : s.asState = i
    · subst hj
      obtain rfl : c₀ = c := Option.some_inj.mp (hc₀.symm.trans hc)
      obtain ⟨a, ha, hact⟩ := hp s (List.mem_append_left _ (List.getElem?_mem hs))
      exact .inr ⟨_, List.getElem?_set_self (List.getElem?_eq_some_iff.mp hc).1,
        c₀.answer_keeps busy ((hi.shaped _ a ha).op_ne_delete hact) k hid⟩
    · exact .inr ⟨c₀, by rw [List.getElem?_set_ne hj]; exact hc₀, hid⟩

/-- The worker handling a reply pops an upload only once the node's AS holds it. -/
theorem Deployment.queuedOrHeld_dispatch (hi : d.Inv) (hp : d.engine.Paired)
    (h : d.engine.step env .dispatch = some e') (hq : d.QueuedOrHeld i k id) :
    Deployment.QueuedOrHeld ⟨e', d.servers⟩ i k id := by
  obtain ⟨ev, rest, hq', rfl⟩ := step_dispatch_eq h
  rcases hq with ⟨a, ha, hid⟩ | held
  swap
  · exact .inr held
  by_cases hj : ev.sent.asState = i
  swap
  · exact .inl ⟨a, ((handleM3Response_advances env ev _).states_of_ne i hj).trans ha, hid⟩
  subst hj
  have hmem : ev ∈ d.engine.workQueue := hq' ▸ List.mem_cons_self _ _
  obtain ⟨hlt, hans⟩ := hi.answered ev hmem
  obtain ⟨a₀, ha₀, hact⟩ := hp ev.sent (List.mem_append_right _ (List.mem_map_of_mem _ hmem))
  obtain rfl : a₀ = a := Option.some_inj.mp (ha₀.symm.trans ha)
  have hc := List.getElem?_eq_getElem hlt
  have hm := hi.mirrored _ a₀ _ ha₀ hc
  rw [hq', queuedView_cons, if_pos rfl] at hm
  rcases Event.uploads_effect hact hans hm k hid with hid | hid
  · obtain ⟨a', ha', hup⟩ := handleM3Response_node env ev { d.engine with workQueue := rest } ha₀
    exact .inl ⟨a', ha', (hup k).symm ▸ hid⟩
  · exact .inr ⟨_, hc, hid⟩

/-- A timer firing changes no upload queue and no AS. -/
theorem Deployment.queuedOrHeld_expire {n : Nat} (h : d.engine.step env (.expire n) = some e')
    (hq : d.QueuedOrHeld i k id) : Deployment.QueuedOrHeld ⟨e', d.servers⟩ i k id := by
  obtain ⟨j, -, rfl⟩ := Option.map_eq_some'.mp h
  rcases hq with ⟨a, ha, hid⟩ | held
  · refine .inl ?_
    rw [nextActionFor_states_getElem?]
    split
    · exact ⟨a.afterNextAction, by simp [ha], by simpa using hid⟩
    · exact ⟨a, ha, hid⟩
  · exact .inr held

/-- Every step of a deployment that keeps the mirror invariant keeps an id queued or held. -/
theorem Deployment.QueuedOrHeld.step {inp : DeploymentInput} (hq : d.QueuedOrHeld i k id)
    (hi : d.Inv) (hp : d.engine.Paired) (hs : d.step env inp = some d') :
    d'.QueuedOrHeld i k id := by
  cases inp with
  | m1 op =>
    obtain ⟨e, he, rfl⟩ := Option.map_eq_some'.mp hs
    exact Deployment.queuedOrHeld_m1 he hq
  | serve n busy => exact Deployment.queuedOrHeld_serve hi hp hs hq
  | dispatch =>
    obtain ⟨e, he, rfl⟩ := Option.map_eq_some'.mp hs
    exact Deployment.queuedOrHeld_dispatch hi hp he hq
  | expire n =>
    obtain ⟨e, he, rfl⟩ := Option.map_eq_some'.mp hs
    exact Deployment.queuedOrHeld_expire he hq

end Steps

/-! ## Runs -/

/-- An admitted step of the deployment. -/
def Deployment.Next (env : Env) (d d' : Deployment) : Prop :=
  ∃ inp, d.Admits inp ∧ d.step env inp = some d'

theorem Deployment.Reachable.of_run {env : Env} {d d' : Deployment} (h : d.Reachable env)
    (hrun : Relation.ReflTransGen (Deployment.Next env) d d') : d'.Reachable env := by
  induction hrun with
  | refl => exact h
  | tail _ hnext ih =>
    obtain ⟨_, hal, hs⟩ := hnext
    exact .step ih hal hs

theorem Deployment.QueuedOrHeld.of_run {env : Env} {d d' : Deployment} {i : Nat}
    {k : M3Collection} {id : String} (hq : d.QueuedOrHeld i k id) (h : d.Reachable env)
    (hrun : Relation.ReflTransGen (Deployment.Next env) d d') : d'.QueuedOrHeld i k id := by
  induction hrun with
  | refl => exact hq
  | tail hrun hnext ih =>
    obtain ⟨_, -, hs⟩ := hnext
    have hr := h.of_run hrun
    exact ih.step hr.inv hr.paired.1 hs

/-- Along every run of a reachable deployment, a certificate or CHC queued for upload on a node
stays queued there until the node's AS holds it, and the AS keeps it. -/
theorem uploads_never_lost {env : Env} {d d' : Deployment} (h : d.Reachable env)
    (hrun : Relation.ReflTransGen (Deployment.Next env) d d') {i : Nat} {k : M3Collection}
    {id : String} (hq : d.QueuedOrHeld i k id) : d'.QueuedOrHeld i k id :=
  hq.of_run h hrun

theorem uploads_never_lost_sample :
    let d₀ : Deployment := ⟨Engine.init Context.sample, [⟨[], []⟩]⟩
    let d := (d₀.step Env.failing (.m1 (.setOnPost "ps1"))).getD d₀
    let d' := (d.step Env.failing (.serve 0 false)).getD d
    d.QueuedOrHeld 0 .certificates "ps1:cert1" ∧ d'.QueuedOrHeld 0 .certificates "ps1:cert1" := by
  intro d₀ d d'
  have hq : d.QueuedOrHeld 0 .certificates "ps1:cert1" := .inl ⟨_, rfl, by decide⟩
  have h : d.Reachable Env.failing := .step (.init _ Context.sample_fresh (by decide))
    (show d₀.Admits (.m1 (.setOnPost "ps1")) from fun i _ => outstanding_init _ i) rfl
  exact ⟨hq, uploads_never_lost h (.single ⟨.serve 0 false, trivial, rfl⟩) hq⟩

/-! ## Serving a deployment -/

/-- The environment's next step when it serves the deployment: the AS of the first request in
flight answers it (a busy AS with 503), else the worker takes the head event, else the first timer
fires. -/
def Deployment.serveInput (d : Deployment) (busy : Bool) : Option DeploymentInput :=
  match d.engine.inFlight, d.engine.workQueue, d.engine.retryTimers with
  | _ :: _, _, _ => some (.serve 0 busy)
  | [], _ :: _, _ => some .dispatch
  | [], [], _ :: _ => some (.expire 0)
  | [], [], [] => none

/-- Serve the deployment for `fuel` steps, or until nothing is under way; the schedule `sched`
says at each step whether an AS that answers is busy (past its end, none is). -/
def Deployment.serve (env : Env) : List Bool → Nat → Deployment → Deployment
  | _, 0, d => d
  | sched, fuel + 1, d =>
    match d.serveInput (sched.headD false) with
    | none => d
    | some inp =>
      match d.step env inp with
      | none => d
      | some d' => Deployment.serve env sched.tail fuel d'

theorem Deployment.serveInput_eq_none {d : Deployment} {busy : Bool}
    (h : d.serveInput busy = none) :
    d.engine.inFlight = [] ∧ d.engine.workQueue = [] ∧ d.engine.retryTimers = [] := by
  unfold Deployment.serveInput at h
  split at h <;> simp_all

theorem handleM3Response_length (env : Env) (ev : Event) (e : Engine) :
    (handleM3Response env ev e).context.applicationServerStates.length =
      e.context.applicationServerStates.length := by
  rw [handleM3Response_eq]
  split_ifs <;> simp [Engine.nextActionFor, nextActionAt_fst]

/-- While something is under way the serving environment has an admitted step, when every node
has an AS, and the step leaves every node an AS. It lowers the engine's potential, since an AS
that is not busy accepts every request in flight; a busy AS's 503 raises it by two, which the
retry that follows takes back. -/
theorem Deployment.serveInput_step (env : Env) {d : Deployment} {busy : Bool}
    {inp : DeploymentInput} (hi : d.Inv) (hp : d.engine.Paired) (ho : d.engine.OneAtATime)
    (hsv : d.engine.context.applicationServerStates.length ≤ d.servers.length)
    (h : d.serveInput busy = some inp) :
    d.Admits inp ∧ ∃ d', d.step env inp = some d' ∧
      d'.engine.potential + 1 ≤ d.engine.potential + (if busy then 3 else 0) ∧
      d'.engine.context.applicationServerStates.length ≤ d'.servers.length := by
  unfold Deployment.serveInput at h
  split at h <;> cases h
  · rename_i s _ hfl
    have hs : s ∈ d.engine.inFlight := hfl ▸ List.mem_cons_self _ _
    obtain ⟨a, ha, -⟩ := hp s (List.mem_append_left _ hs)
    have hlt := (List.getElem?_eq_some_iff.mp ha).1.trans_le hsv
    have hc := List.getElem?_eq_getElem hlt
    let r := d.servers[s.asState].answer busy s.action
    let e' : Engine := { d.engine with
      inFlight := d.engine.inFlight.eraseIdx 0
      workQueue := d.engine.workQueue ++ [⟨s, r.2⟩] }
    have heng : d.engine.step env (.notify 0 ogsOk r.2 ogsOk) = some e' := by
      simp [Engine.step, hfl, clientNotifyCb, e']
    refine ⟨trivial, ⟨e', d.servers.set s.asState r.1⟩, ?_, ?_, by simpa [e'] using hsv⟩
    · simp only [Deployment.step, hfl, List.getElem?_cons_zero, Option.some_bind, hc]
      rw [heng]
      rfl
    · cases busy
      · obtain ⟨a', ha', hact, hm⟩ := hi.mirrors_of_inFlight hp ho hs hc
        have hok := (answer_mirrors hm (hi.shaped _ a' ha') hact).1
        exact potential_step hp (by exact ⟨rfl, rfl, hok⟩) heng
      · simp [e', r, Engine.potential, hfl, AsContent.answer, Event.weight, M3Response.Ok]
        omega
  · rename_i ev rest _ hq
    have heng : d.engine.step env .dispatch =
        some (handleM3Response env ev { d.engine with workQueue := rest }) := by
      simp [Engine.step, hq]
    refine ⟨trivial, ⟨handleM3Response env ev { d.engine with workQueue := rest }, d.servers⟩,
      by simp only [Deployment.step, heng, Option.map_some'], ?_, ?_⟩
    · have := potential_step hp (by exact trivial) heng
      dsimp only at this ⊢
      split <;> omega
    · simpa [handleM3Response_length] using hsv
  · rename_i j _ _ _ ht
    have heng : d.engine.step env (.expire 0) = some (Engine.nextActionFor env j
        { d.engine with retryTimers := d.engine.retryTimers.eraseIdx 0 }) := by
      simp [Engine.step, ht]
    refine ⟨trivial, ⟨Engine.nextActionFor env j
        { d.engine with retryTimers := d.engine.retryTimers.eraseIdx 0 }, d.servers⟩,
      by simp only [Deployment.step, heng, Option.map_some'], ?_, ?_⟩
    · have := potential_step hp (by exact trivial) heng
      dsimp only at this ⊢
      split <;> omega
    · simpa [Engine.nextActionFor, nextActionAt_fst] using hsv

/-- A settled engine has every upload queue empty. -/
theorem Engine.Settled.uploads_nil {e : Engine} (hs : e.Settled) {i : Nat}
    {a : ApplicationServerState} (ha : e.context.applicationServerStates[i]? = some a)
    (k : M3Collection) : a.uploads k = [] := by
  by_cases hp : a.HasPendingWork
  · obtain ⟨-, -, h₁, h₂, -⟩ := hs.2.2.2 i a ha hp
    cases k
    · exact h₁
    · exact h₂
  · simp only [ApplicationServerState.HasPendingWork, not_or, ne_eq, not_not] at hp
    cases k
    · exact hp.2.2.1
    · exact hp.2.2.2.1

theorem count_true_headD (l : List Bool) :
    l.count true = l.tail.count true + if l.headD false then 1 else 0 := by
  cases l with
  | nil => rfl
  | cons b t => cases b <;> simp [List.count_cons]

/-- Serving a reachable deployment whose every node has an AS, for as many steps as the engine's
potential and three more per busy answer of the schedule, is a run of admitted steps that settles
the engine and leaves every node an AS. -/
theorem Deployment.serve_run {env : Env} {d : Deployment} (h : d.Reachable env)
    (hsv : d.engine.context.applicationServerStates.length ≤ d.servers.length) (sched : List Bool)
    (n : Nat) (hn : d.engine.potential + 3 * sched.count true ≤ n) :
    Relation.ReflTransGen (Deployment.Next env) d (d.serve env sched n) ∧
      (d.serve env sched n).engine.Settled ∧
      (d.serve env sched n).engine.context.applicationServerStates.length ≤
        (d.serve env sched n).servers.length := by
  have hstuck : ∀ {d : Deployment}, d.Reachable env → d.engine.NeverStuck := fun h =>
    neverStuck_of_lossless (h.engine.mono fun _ _ hal => hal.2)
  induction n generalizing d sched with
  | zero => exact ⟨.refl, (hstuck h).settled (quiet_of_potential_eq_zero (by omega)), hsv⟩
  | succ n ih =>
    simp only [Deployment.serve]
    cases hinp : d.serveInput (sched.headD false) with
    | none => exact ⟨.refl, (hstuck h).settled (Deployment.serveInput_eq_none hinp), hsv⟩
    | some inp =>
      obtain ⟨hp, ho⟩ := h.paired
      obtain ⟨hal, d', hs, hpot, hsv'⟩ := Deployment.serveInput_step env h.inv hp ho hsv hinp
      have hcount := count_true_headD sched
      simp only [hs]
      have hn' : d'.engine.potential + 3 * sched.tail.count true ≤ n := by
        cases hb : sched.headD false <;> rw [hb] at hpot hcount <;> simp at hpot hcount <;> omega
      obtain ⟨hrun, hrest⟩ := ih (.step h hal hs) hsv' sched.tail hn'
      exact ⟨.head ⟨inp, hal, hs⟩ hrun, hrest⟩

/-- Served as in `Deployment.serve_run`, a reachable deployment ends with an id queued or held on
a node held by the node's AS: the run keeps it queued or held, and the settled engine has nothing
queued. -/
theorem Deployment.QueuedOrHeld.delivered {env : Env} {d : Deployment} {i : Nat}
    {k : M3Collection} {id : String} (hq : d.QueuedOrHeld i k id) (h : d.Reachable env)
    (hsv : d.engine.context.applicationServerStates.length ≤ d.servers.length) (sched : List Bool)
    (n : Nat) (hn : d.engine.potential + 3 * sched.count true ≤ n) :
    ∃ c, (d.serve env sched n).servers[i]? = some c ∧ id ∈ c.get k := by
  obtain ⟨hrun, hset, -⟩ := Deployment.serve_run h hsv sched n hn
  rcases hq.of_run h hrun with ⟨a, ha, hid⟩ | held
  · rw [hset.uploads_nil ha k] at hid
    exact absurd hid (List.not_mem_nil _)
  · exact held

/-- Served for as many steps as the engine's potential and three more per busy answer of the
schedule, a reachable deployment whose every node has an AS ends with every certificate and CHC
that was queued for upload on a node held by the node's AS: a busy AS only delays an upload. -/
theorem uploads_delivered {env : Env} {d : Deployment} (h : d.Reachable env)
    (hsv : d.engine.context.applicationServerStates.length ≤ d.servers.length) {i : Nat}
    {k : M3Collection} {id : String} (hq : d.QueuedOrHeld i k id) (sched : List Bool) (n : Nat)
    (hn : d.engine.potential + 3 * sched.count true ≤ n) :
    ∃ c, (d.serve env sched n).servers[i]? = some c ∧ id ∈ c.get k :=
  hq.delivered h hsv sched n hn

theorem uploads_delivered_sample :
    let d₀ : Deployment := ⟨Engine.init Context.sample, [⟨[], []⟩]⟩
    let d := (d₀.step Env.failing (.m1 (.setOnPost "ps1"))).getD d₀
    d.engine.context.applicationServerStates.length ≤ d.servers.length ∧
      d.QueuedOrHeld 0 .certificates "ps1:cert1" ∧ d.engine.potential + 3 * [true].count true ≤ 13 ∧
      ∃ c, (d.serve Env.failing [true] 13).servers[0]? = some c ∧
        "ps1:cert1" ∈ c.get .certificates := by
  intro d₀ d
  have hsv : d.engine.context.applicationServerStates.length ≤ d.servers.length := by decide
  have hq : d.QueuedOrHeld 0 .certificates "ps1:cert1" := .inl ⟨_, rfl, by decide⟩
  have hn : d.engine.potential + 3 * [true].count true ≤ 13 := by decide
  exact ⟨hsv, hq, hn, uploads_delivered (.step (.init _ Context.sample_fresh (by decide))
    (show d₀.Admits (.m1 (.setOnPost "ps1")) from fun i _ => outstanding_init _ i) rfl)
    hsv hq [true] 13 hn⟩

/-- Served as above, every node of a reachable deployment that an M1 call has reached ends with
both cached lists known and equal to its AS's lists. -/
theorem caches_converge {env : Env} {d : Deployment} (h : d.Reachable env)
    (hsv : d.engine.context.applicationServerStates.length ≤ d.servers.length) (sched : List Bool)
    (n : Nat) (hn : d.engine.potential + 3 * sched.count true ≤ n) {i : Nat}
    {a : ApplicationServerState}
    (ha : (d.serve env sched n).engine.context.applicationServerStates[i]? = some a)
    (hu : ¬a.Untouched) :
    ∃ c, (d.serve env sched n).servers[i]? = some c ∧ a.currentCertificates = some c.certificates ∧
      a.currentContentHostingConfigurations = some c.contentHostingConfigurations := by
  obtain ⟨hrun, hset, hsv'⟩ := Deployment.serve_run h hsv sched n hn
  have hc := List.getElem?_eq_getElem ((List.getElem?_eq_some_iff.mp ha).1.trans_le hsv')
  have hm := (h.of_run hrun).inv.mirrored i a _ ha hc
  rw [hset.2.1] at hm
  have hp : ¬a.HasPendingWork := fun hp => hu (hset.2.2.2 i a ha hp)
  simp only [ApplicationServerState.HasPendingWork, not_or, ne_eq, not_not] at hp
  obtain ⟨certs, hcerts⟩ := Option.ne_none_iff_exists'.mp hp.1
  obtain ⟨chcs, hchcs⟩ := Option.ne_none_iff_exists'.mp hp.2.1
  exact ⟨_, hc, hcerts.trans (congrArg some (hm.1 certs hcerts)),
    hchcs.trans (congrArg some (hm.2 chcs hchcs))⟩

theorem caches_converge_sample :
    let d₀ : Deployment := ⟨Engine.init Context.sample, [⟨[], []⟩]⟩
    let d := (d₀.step Env.failing (.m1 (.setOnPost "ps1"))).getD d₀
    let a := (d.serve Env.failing [] 10).engine.context.applicationServerStates.getD 0
      (applicationServerStateInit ⟨"", "", 0⟩)
    d.engine.context.applicationServerStates.length ≤ d.servers.length ∧
      d.engine.potential + 3 * [].count true ≤ 10 ∧
      (d.serve Env.failing [] 10).engine.context.applicationServerStates[0]? = some a ∧
      ¬a.Untouched ∧ ∃ c, (d.serve Env.failing [] 10).servers[0]? = some c ∧
        a.currentCertificates = some c.certificates ∧
        a.currentContentHostingConfigurations = some c.contentHostingConfigurations := by
  intro d₀ d a
  have hsv : d.engine.context.applicationServerStates.length ≤ d.servers.length := by decide
  have hn : d.engine.potential + 3 * [].count true ≤ 10 := by decide
  have ha : (d.serve Env.failing [] 10).engine.context.applicationServerStates[0]? = some a := by
    decide
  have hu : ¬a.Untouched := by decide
  have h : d.Reachable Env.failing := .step (.init _ Context.sample_fresh (by decide))
    (show d₀.Admits (.m1 (.setOnPost "ps1")) from fun i _ => outstanding_init _ i) rfl
  have := caches_converge h hsv [] 10 hn ha hu
  exact ⟨hsv, hn, ha, hu, this⟩

/-- Served from empty with the AS busy at the first answer, the sample's AS ends with `ps1`'s
certificate and CHC, and its node's cached lists are the AS's. -/
example :
    let d₀ : Deployment := ⟨Engine.init Context.sample, [⟨[], []⟩]⟩
    let d := ((d₀.step Env.failing (.m1 (.setOnPost "ps1"))).getD d₀).serve Env.failing [true] 13
    d.servers = [⟨["ps1:cert1"], ["ps1"]⟩] ∧
      d.engine.context.applicationServerStates.map ApplicationServerState.caches =
        [(some ["ps1:cert1"], some ["ps1"])] := by
  decide

end Msaf
