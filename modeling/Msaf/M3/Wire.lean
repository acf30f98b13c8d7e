import Msaf.M3.Mirror

/-!
# Every request goes to its node's Application Server

`m3_client_as_state_requests` builds a request from the node's server: the URI starts with the M3
root of `as_state->application_server`. A node keeps its server for good (no modelled function
writes `application_server`), so a request in flight is still addressed to the server of the node
it is for when the reply comes back, whatever happened to the context in between.

**The law** (`requests_wired`). In every reachable state of the engine, under any admission of M1
calls, every request in flight is the operation of its branch (`NextAction.op`) sent to its node's
server: the operation's method, at the node's M3 root followed by the operation's path. This is
what lets the strict AS of `Msaf.M3.Mirror` read the operation off the request.

**What is never sent** (`requests_never_remove`). No modelled call queues a deletion or a purge:
`set_on_post`, `set` and `update` queue uploads, and a reply only pops queues. So in every
reachable state no request in flight or reply on the queue is for a DELETE or a purge, and the
last three branches of `next_action_for_application_server` never run. The code that would queue
them is not in the sources.

**What it does not establish.** That the AS parses the URI back into the same operation: two
operations could share a path only if a CHC id held a `/purge` suffix, which no modelled call
produces but nothing here excludes.
-/

namespace Msaf

/-! ## Node servers never change -/

/-- The server node `j` talks to, as a node of `ctx`. -/
def Context.serverAt (ctx : Context) (j : Nat) : Option ApplicationServer :=
  ctx.applicationServerStates[j]?.map ApplicationServerState.applicationServer

theorem Context.serverAt_modifyState (ctx : Context) (i : Nat)
    (f : ApplicationServerState → ApplicationServerState)
    (hf : ∀ a, (f a).applicationServer = a.applicationServer) (j : Nat) :
    (ctx.modifyState i f).serverAt j = ctx.serverAt j := by
  simp only [Context.serverAt, modifyState_states_getElem?]
  split
  · cases ctx.applicationServerStates[j]? <;> simp [hf]
  · rfl

theorem nextActionAt_serverAt (env : Env) (i : Nat) (ctx : Context) (j : Nat) :
    (nextActionAt env i ctx).1.serverAt j = ctx.serverAt j := by
  rw [nextActionAt_fst]
  exact ctx.serverAt_modifyState i ApplicationServerState.afterNextAction (fun _ => rfl) j

theorem updateBody_serverAt (env : Env) (ps : ProvisioningSession) (i : Nat) (ctx : Context)
    (j : Nat) : (updateBody env ps i ctx).1.serverAt j = ctx.serverAt j :=
  (nextActionAt_serverAt env i _ j).trans
    (ctx.serverAt_modifyState i (ApplicationServerState.reassign ps) (fun _ => rfl) j)

theorem Event.effect_applicationServer (ev : Event) (a : ApplicationServerState) :
    (ev.effect a).applicationServer = a.applicationServer := by
  unfold Event.effect
  split_ifs
  · rfl
  all_goals cases ev.sent.action <;> rfl

/-- An M1 call changes no node's server. -/
theorem AssignOp.apply_serverAt {env : Env} {op : AssignOp} {ctx : Context}
    {r : Context × List Sent} (h : op.apply env ctx = some r) (j : Nat) :
    r.1.serverAt j = ctx.serverAt j := by
  cases hop : op.isUpdate
  · exact (AssignOp.apply_appends hop h).1.server j
  · cases op with
    | update psId =>
      obtain ⟨ps, -, rfl⟩ := msafApplicationServerStateUpdate_eq_some h
      exact forEachState_inv (updateBody env ps) (fun c => c.serverAt j = ctx.serverAt j)
        (fun i c hc => (updateBody_serverAt env ps i c j).trans hc) _ ctx rfl
    | _ => cases hop

/-- No step of the engine changes a node's server. -/
theorem Engine.step_serverAt {env : Env} {e e' : Engine} {inp : Input}
    (h : e.step env inp = some e') (j : Nat) : e'.context.serverAt j = e.context.serverAt j := by
  cases inp with
  | m1 op =>
    obtain ⟨r, hr, rfl⟩ := Option.map_eq_some'.mp h
    exact AssignOp.apply_serverAt hr j
  | notify =>
    obtain ⟨s, -, rfl⟩ := Option.map_eq_some'.mp h
    rfl
  | dispatch =>
    obtain ⟨ev, rest, -, rfl⟩ := step_dispatch_eq h
    rw [handleM3Response_eq]
    split_ifs
    · rfl
    · exact (nextActionAt_serverAt env _ _ j).trans
        (Context.serverAt_modifyState _ _ _ ev.effect_applicationServer j)
  | expire =>
    obtain ⟨i, -, rfl⟩ := Option.map_eq_some'.mp h
    exact nextActionAt_serverAt env i _ j

/-! ## Requests built for their node's server -/

/-- A request is wired in `ctx` when it is its action's request, built with some store of
sessions, to the server of its node. -/
def Context.Wired (env : Env) (ctx : Context) (s : Sent) : Prop :=
  ∃ pss msafAs, ctx.serverAt s.asState = some msafAs ∧
    s.request = s.action.toRequest env pss msafAs

theorem Context.Wired.of_serverAt {env : Env} {ctx ctx' : Context} {s : Sent}
    (h : ctx.Wired env s) (hs : ctx'.serverAt s.asState = ctx.serverAt s.asState) :
    ctx'.Wired env s := by
  obtain ⟨pss, msafAs, hat, hreq⟩ := h
  exact ⟨pss, msafAs, hs.trans hat, hreq⟩

/-- What `next_action_for_application_server` sends is built for its node's server. -/
theorem nextActionAt_wired (env : Env) (i : Nat) (ctx : Context) :
    ∀ s ∈ (nextActionAt env i ctx).2, (nextActionAt env i ctx).1.Wired env s := by
  intro s hs
  have hi := (nextActionAt_sent env i ctx).2 s hs
  simp only [nextActionAt] at hs
  split at hs
  · simp at hs
  · rename_i a ha
    obtain ⟨act, -, rfl⟩ := List.mem_map.mp hs
    refine ⟨ctx.provisioningSessions, a.applicationServer, ?_, rfl⟩
    rw [nextActionAt_serverAt, Context.serverAt, ← hi, ha]
    rfl

/-- A loop of bodies that keep every node's server and wire what they send wires what it
sends. -/
theorem forEachState_wired (env : Env) (body : Nat → Context → Context × List Sent)
    (hframe : ∀ i ctx j, (body i ctx).1.serverAt j = ctx.serverAt j)
    (hsent : ∀ i ctx, ∀ s ∈ (body i ctx).2, (body i ctx).1.Wired env s) :
    ∀ (is : List Nat) (ctx : Context),
      ∀ s ∈ (forEachState body is ctx).2, (forEachState body is ctx).1.Wired env s
  | [], _, s, hs => by simp [forEachState] at hs
  | i :: is, ctx, s, hs => by
    simp only [forEachState, List.mem_append] at hs ⊢
    rcases hs with hs | hs
    · exact (hsent i ctx s hs).of_serverAt (forEachState_inv body
        (fun c => c.serverAt s.asState = (body i ctx).1.serverAt s.asState)
        (fun j c hc => (hframe j c _).trans hc) is _ rfl)
    · exact forEachState_wired env body hframe hsent is _ s hs

/-- What an M1 call sends is built for its node's server. -/
theorem AssignOp.apply_wired {env : Env} {op : AssignOp} {ctx : Context}
    {r : Context × List Sent} (h : op.apply env ctx = some r) : ∀ s ∈ r.2, r.1.Wired env s := by
  cases op with
  | setOnPost psId =>
    obtain ⟨ps, -, ⟨-, rfl⟩ | ⟨i, -, rfl⟩⟩ := msafApplicationServerStateSetOnPost_eq_some h
    · simp
    · exact nextActionAt_wired env i _
  | set j psId =>
    obtain ⟨ps, -, _, -, rfl⟩ := msafApplicationServerStateSet_eq_some h
    exact nextActionAt_wired env j _
  | update psId =>
    obtain ⟨ps, -, rfl⟩ := msafApplicationServerStateUpdate_eq_some h
    exact forEachState_wired env (updateBody env ps) (updateBody_serverAt env ps)
      (fun i c => nextActionAt_wired env i _) _ _

/-- Every step keeps each request in flight wired. -/
theorem Engine.wired_step {env : Env} {e e' : Engine} {inp : Input}
    (hw : ∀ s ∈ e.inFlight, e.context.Wired env s) (h : e.step env inp = some e') :
    ∀ s ∈ e'.inFlight, e'.context.Wired env s := by
  have hold : ∀ s ∈ e.inFlight, e'.context.Wired env s := fun s hs =>
    (hw s hs).of_serverAt (Engine.step_serverAt h s.asState)
  cases inp with
  | m1 op =>
    obtain ⟨r, hr, rfl⟩ := Option.map_eq_some'.mp h
    intro s hs
    rcases List.mem_append.mp hs with hs | hs
    · exact hold s hs
    · exact AssignOp.apply_wired hr s hs
  | notify =>
    obtain ⟨s₀, -, rfl⟩ := Option.map_eq_some'.mp h
    exact fun s hs => hw s (List.mem_of_mem_eraseIdx hs)
  | dispatch =>
    obtain ⟨ev, rest, -, rfl⟩ := step_dispatch_eq h
    rw [handleM3Response_eq] at hold ⊢
    split_ifs at hold ⊢
    · exact hold
    · intro s hs
      rcases List.mem_append.mp hs with hs | hs
      · exact hold s hs
      · exact nextActionAt_wired env _ _ s hs
  | expire =>
    obtain ⟨i, -, rfl⟩ := Option.map_eq_some'.mp h
    intro s hs
    rcases List.mem_append.mp hs with hs | hs
    · exact hold s hs
    · exact nextActionAt_wired env i _ s hs

/-- In every reachable state, under any admission of M1 calls, every request in flight is the
operation of its branch sent to its node's server: the operation's method, at the node's M3 root
followed by the operation's path. -/
theorem requests_wired {env : Env} {allowed : Engine → Input → Prop} {e : Engine}
    (h : Engine.Reachable env allowed e) {s : Sent} (hs : s ∈ e.inFlight) :
    ∃ msafAs, e.context.serverAt s.asState = some msafAs ∧
      s.request.method = s.action.op.method ∧ s.request.uri = m3Root msafAs ++ s.action.op.path := by
  have hw := Engine.Reachable.induct' (fun e => ∀ s ∈ e.inFlight, e.context.Wired env s)
    (fun _ _ s hs => absurd hs (List.not_mem_nil s))
    (fun _ _ _ hi _ hs => Engine.wired_step hi hs) h
  obtain ⟨pss, msafAs, hat, hreq⟩ := hw s hs
  rw [hreq]
  exact ⟨msafAs, hat, toRequest_op env pss msafAs s.action⟩

/-! ## Nothing is ever removed from an Application Server -/

/-- The branches of `next_action_for_application_server` that remove something from the AS: the
two DELETEs and the cache purge. -/
def NextAction.removes : NextAction → Bool
  | .deleteContentHostingConfiguration _ | .deleteCertificate _ | .purgeContentHostingCache _ =>
    true
  | _ => false

/-- A node with nothing queued for removal: its two delete queues and its purge queue are
empty. -/
def ApplicationServerState.RemovesNothing (a : ApplicationServerState) : Prop :=
  a.deleteCertificates = [] ∧ a.deleteContentHostingConfigurations = [] ∧
    a.purgeContentHostingCache = []

theorem ApplicationServerState.Untouched.removesNothing {a : ApplicationServerState}
    (h : a.Untouched) : a.RemovesNothing := by
  obtain ⟨-, -, -, -, h₁, h₂, h₃⟩ := h
  exact ⟨h₂, h₁, h₃⟩

/-- No node of the context has anything queued for removal. -/
def Context.RemovesNothing (ctx : Context) : Prop :=
  ∀ a ∈ ctx.applicationServerStates, a.RemovesNothing

/-- A node with nothing queued for removal takes a GET or an upload as its next step. -/
theorem nextAction_removes {a : ApplicationServerState} {act : NextAction}
    (ha : a.RemovesNothing) (h : nextAction a = some act) : act.removes = false := by
  have hd := nextAction_drivenBy h
  obtain ⟨h₁, h₂, h₃⟩ := ha
  cases act <;> simp_all [NextAction.DrivenBy, NextAction.removes]

theorem Context.RemovesNothing.modifyState {ctx : Context} (h : ctx.RemovesNothing) (i : Nat)
    {f : ApplicationServerState → ApplicationServerState}
    (hf : ∀ a, a.RemovesNothing → (f a).RemovesNothing) :
    (ctx.modifyState i f).RemovesNothing := by
  intro b hb
  obtain ⟨j, hj⟩ := List.mem_iff_getElem?.mp hb
  rw [modifyState_states_getElem?] at hj
  split at hj
  · obtain ⟨a, ha, rfl⟩ := Option.map_eq_some'.mp hj
    exact hf a (h a (List.getElem?_mem ha))
  · exact h b (List.getElem?_mem hj)

/-- `next_action_for_application_server` on a context with nothing queued for removal leaves it
so, and sends no removal. -/
theorem nextActionAt_removesNothing (env : Env) (i : Nat) {ctx : Context}
    (h : ctx.RemovesNothing) : (nextActionAt env i ctx).1.RemovesNothing ∧
      ∀ s ∈ (nextActionAt env i ctx).2, s.action.removes = false := by
  refine ⟨by rw [nextActionAt_fst]; exact h.modifyState i fun _ ha => ha, fun s hs => ?_⟩
  simp only [nextActionAt] at hs
  split at hs
  · simp at hs
  · rename_i a ha
    obtain ⟨act, hact, rfl⟩ := List.mem_map.mp hs
    exact nextAction_removes (h a (List.getElem?_mem ha)) (Option.mem_toList.mp hact)

/-- An M1 call queues no removal and sends none: `set_on_post`, `set` and `update` queue only
uploads. -/
theorem AssignOp.apply_removesNothing {env : Env} {op : AssignOp} {ctx : Context}
    {r : Context × List Sent} (h : op.apply env ctx = some r) (hc : ctx.RemovesNothing) :
    r.1.RemovesNothing ∧ ∀ s ∈ r.2, s.action.removes = false := by
  cases op with
  | setOnPost psId =>
    obtain ⟨ps, -, ⟨-, rfl⟩ | ⟨i, -, rfl⟩⟩ := msafApplicationServerStateSetOnPost_eq_some h
    · exact ⟨hc, by simp⟩
    · exact nextActionAt_removesNothing env i (hc.modifyState i fun _ ha => ha)
  | set j psId =>
    obtain ⟨ps, -, _, -, rfl⟩ := msafApplicationServerStateSet_eq_some h
    exact nextActionAt_removesNothing env j (hc.modifyState j fun _ ha => ha)
  | update psId =>
    obtain ⟨ps, -, rfl⟩ := msafApplicationServerStateUpdate_eq_some h
    have hbody : ∀ i c, Context.RemovesNothing c →
        (updateBody env ps i c).1.RemovesNothing ∧
          ∀ s ∈ (updateBody env ps i c).2, s.action.removes = false :=
      fun i c hc => nextActionAt_removesNothing env i (hc.modifyState i fun _ ha => ha)
    exact ⟨forEachState_inv _ _ (fun i c hc => (hbody i c hc).1) _ _ hc,
      forEachState_sent_forall _ _ _ (fun i c hc => (hbody i c hc).1)
        (fun i c hc => (hbody i c hc).2) _ _ hc⟩

/-- A reply's success or drop pops a queue, which keeps an empty queue empty. -/
theorem Event.effect_removesNothing (ev : Event) {a : ApplicationServerState}
    (h : a.RemovesNothing) : (ev.effect a).RemovesNothing := by
  obtain ⟨h₁, h₂, h₃⟩ := h
  unfold Event.effect
  split_ifs
  · exact ⟨h₁, h₂, h₃⟩
  all_goals cases ev.sent.action <;>
    simp [NextAction.onSuccess, NextAction.onDrop, ApplicationServerState.RemovesNothing, *]

/-- Nothing queued on any node for removal, and no removal in flight or on the work queue. -/
def Engine.RemovesNothing (e : Engine) : Prop :=
  e.context.RemovesNothing ∧ (∀ s ∈ e.inFlight, s.action.removes = false) ∧
    ∀ ev ∈ e.workQueue, ev.sent.action.removes = false

/-- Every step keeps the engine free of removals. -/
theorem Engine.removesNothing_step {env : Env} {e e' : Engine} {inp : Input}
    (hr : e.RemovesNothing) (h : e.step env inp = some e') : e'.RemovesNothing := by
  obtain ⟨hc, hf, hq⟩ := hr
  cases inp with
  | m1 op =>
    obtain ⟨r, hr, rfl⟩ := Option.map_eq_some'.mp h
    obtain ⟨hc', hs⟩ := AssignOp.apply_removesNothing hr hc
    exact ⟨hc', fun s hs' => (List.mem_append.mp hs').elim (hf s) (hs s), hq⟩
  | notify =>
    obtain ⟨s₀, hs₀, rfl⟩ := Option.map_eq_some'.mp h
    refine ⟨hc, fun s hs => hf s (List.mem_of_mem_eraseIdx hs), fun ev hev => ?_⟩
    unfold clientNotifyCb at hev
    split_ifs at hev
    · exact hq ev hev
    · exact hq ev hev
    · rcases List.mem_append.mp hev with hev | hev
      · exact hq ev hev
      · obtain rfl := List.mem_singleton.mp hev
        exact hf s₀ (List.getElem?_mem hs₀)
  | dispatch =>
    obtain ⟨ev, rest, hwq, rfl⟩ := step_dispatch_eq h
    have hrest : ∀ ev' ∈ rest, ev'.sent.action.removes = false :=
      fun ev' h' => hq ev' (hwq ▸ List.mem_cons_of_mem _ h')
    rw [handleM3Response_eq]
    split_ifs
    · exact ⟨hc, hf, hrest⟩
    · obtain ⟨hc', hs⟩ := nextActionAt_removesNothing env ev.sent.asState
        (hc.modifyState _ fun _ => ev.effect_removesNothing)
      exact ⟨hc', fun s hs' => (List.mem_append.mp hs').elim (hf s) (hs s), hrest⟩
  | expire =>
    obtain ⟨i, -, rfl⟩ := Option.map_eq_some'.mp h
    obtain ⟨hc', hs⟩ := nextActionAt_removesNothing env i hc
    exact ⟨hc', fun s hs' => (List.mem_append.mp hs').elim (hf s) (hs s), hq⟩

/-- In every reachable state, under any admission of M1 calls and any transport behaviour, no node
has a certificate or a CHC queued for deletion or a purge queued, and no request in flight and no
reply on the work queue is for a DELETE or a purge: the modelled calls never remove anything from
an Application Server, and those three branches of `next_action_for_application_server` never
run. -/
theorem requests_never_remove {env : Env} {allowed : Engine → Input → Prop} {e : Engine}
    (h : Engine.Reachable env allowed e) :
    (∀ a ∈ e.context.applicationServerStates, a.RemovesNothing) ∧
      (∀ s ∈ e.inFlight, s.action.removes = false) ∧
      ∀ ev ∈ e.workQueue, ev.sent.action.removes = false :=
  Engine.Reachable.induct' Engine.RemovesNothing
    (fun _ hf => ⟨fun a ha => (hf.1 a ha).removesNothing, nofun, nofun⟩)
    (fun _ _ _ hr _ hs => Engine.removesNothing_step hr hs) h

end Msaf
