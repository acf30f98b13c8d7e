import Msaf.M3.Invariants

/-!
# Each reply pops the entry that drove its request

The reply handler of §4.6 does not look at what a reply answers beyond the branch that built
the request: on success it pops the head of that branch's queue. That is right only if the
head is still the entry the request was built from. Under idle admission it is: a request in
flight, and its reply on the work queue, stay in step with their node, whose next action is the
request's action until the reply is handled.

**The law** (`replies_in_step_of_idleAdmission`). Under idle admission, in every reachable
state, every request in flight and every reply on the work queue is for its node's next action,
and that action is driven by the head of its queue (for a GET, by the list being unknown).

The step lemmas: an M1 call's requests are in step with the context it leaves
(`AssignOp.apply_inStep`), since each node is visited once and only its own visit changes it;
a reply or a timer is the only thing under way for its node, so the node's new request is the
only one for it (`nextActionFor_paired`).

**What it does not establish.** With the sources' unguarded M1 calls, a request stays in flight
while a second one for the node goes out, and the two replies pop two entries
(`setOnPost_twice_in_flight` shows the two requests).
-/

namespace Msaf

/-! ## The entry a branch is driven by -/

/-- The entry a branch of `next_action_for_application_server` is driven by: the head of its
queue, or for a GET the list being unknown. -/
def NextAction.DrivenBy (a : ApplicationServerState) : NextAction → Prop
  | .getCertificates => a.currentCertificates = none
  | .getContentHostingConfigurations => a.currentContentHostingConfigurations = none
  | .uploadCertificate id _ => a.uploadCertificates.head? = some id
  | .uploadContentHostingConfiguration id _ => a.uploadContentHostingConfigurations.head? = some id
  | .deleteContentHostingConfiguration id => a.deleteContentHostingConfigurations.head? = some id
  | .deleteCertificate id => a.deleteCertificates.head? = some id
  | .purgeContentHostingCache node => a.purgeContentHostingCache.head? = some node

theorem nextAction_drivenBy {a : ApplicationServerState} {act : NextAction}
    (h : nextAction a = some act) : act.DrivenBy a := by
  unfold nextAction at h
  split at h
  · cases h; assumption
  · cases h; assumption
  · split at h <;> cases h <;> simp_all [NextAction.DrivenBy]

theorem nextAction_afterNextAction (a : ApplicationServerState) :
    nextAction a.afterNextAction = nextAction a := rfl

/-! ## Requests in step with the context -/

/-- A request is in step with the context when its node's next action is the request's. -/
def Context.InStep (ctx : Context) (s : Sent) : Prop :=
  ∃ a, ctx.applicationServerStates[s.asState]? = some a ∧ nextAction a = some s.action

theorem Context.InStep.of_states_eq {ctx ctx' : Context} {s : Sent} (h : ctx.InStep s)
    (heq : ctx'.applicationServerStates[s.asState]? = ctx.applicationServerStates[s.asState]?) :
    ctx'.InStep s := by
  obtain ⟨a, ha, hact⟩ := h
  exact ⟨a, heq.trans ha, hact⟩

/-- The request `next_action_for_application_server` sends is in step with the node it
leaves. -/
theorem nextActionAt_inStep (env : Env) (i : Nat) (ctx : Context) :
    ∀ s ∈ (nextActionAt env i ctx).2, (nextActionAt env i ctx).1.InStep s := by
  intro s hs
  have hi := (nextActionAt_sent env i ctx).2 s hs
  simp only [nextActionAt] at hs
  split at hs
  · simp at hs
  · rename_i a ha
    obtain ⟨act, hact, rfl⟩ := List.mem_map.mp hs
    refine ⟨a.afterNextAction, by simp [nextActionAt_fst, ha], ?_⟩
    rw [nextAction_afterNextAction]
    exact Option.mem_toList.mp hact

section Loop

variable (body : Nat → Context → Context × List Sent)
  (hframe : ∀ i ctx j, i ≠ j →
    (body i ctx).1.applicationServerStates[j]? = ctx.applicationServerStates[j]?)

include hframe

/-- A loop leaves alone a node it does not visit. -/
theorem forEachState_states_of_not_mem :
    ∀ (is : List Nat) (ctx : Context) (j : Nat), j ∉ is →
      (forEachState body is ctx).1.applicationServerStates[j]? = ctx.applicationServerStates[j]?
  | [], _, _, _ => rfl
  | i :: is, ctx, j, hj => by
    simp only [List.mem_cons, not_or] at hj
    exact (forEachState_states_of_not_mem is _ j hj.2).trans (hframe i ctx j (Ne.symm hj.1))

/-- A loop that visits each node once leaves every request it sent in step. -/
theorem forEachState_inStep
    (hsent : ∀ i ctx, ∀ s ∈ (body i ctx).2, s.asState = i ∧ (body i ctx).1.InStep s) :
    ∀ (is : List Nat) (ctx : Context), is.Nodup →
      ∀ s ∈ (forEachState body is ctx).2, (forEachState body is ctx).1.InStep s
  | [], _, _, s, hs => by simp [forEachState] at hs
  | i :: is, ctx, hnd, s, hs => by
    rw [List.nodup_cons] at hnd
    simp only [forEachState, List.mem_append] at hs ⊢
    rcases hs with hs | hs
    · obtain ⟨rfl, hstep⟩ := hsent i ctx s hs
      exact hstep.of_states_eq (forEachState_states_of_not_mem body hframe is _ _ hnd.1)
    · exact forEachState_inStep hsent is _ hnd.2 s hs

end Loop

/-- An M1 call leaves every request it sent in step with the context. -/
theorem AssignOp.apply_inStep {env : Env} {op : AssignOp} {ctx : Context}
    {r : Context × List Sent} (h : op.apply env ctx = some r) (hw : ctx.NodesWF) :
    ∀ s ∈ r.2, r.1.InStep s := by
  cases op with
  | setOnPost psId =>
    obtain ⟨ps, -, ⟨-, rfl⟩ | ⟨i, -, rfl⟩⟩ := msafApplicationServerStateSetOnPost_eq_some h
    · simp
    · exact nextActionAt_inStep env i _
  | set j psId =>
    obtain ⟨ps, -, _, -, rfl⟩ := msafApplicationServerStateSet_eq_some h
    exact nextActionAt_inStep env j _
  | update psId =>
    obtain ⟨ps, hps, rfl⟩ := msafApplicationServerStateUpdate_eq_some h
    have hnodup : ps.msafApplicationServerStateNodes.Nodup := by
      match ps.msafApplicationServerStateNodes, hw ps (List.mem_of_find?_eq_some hps) with
      | [], _ => exact List.nodup_nil
      | [_], _ => exact List.nodup_singleton _
      | _ :: _ :: _, hlen => simp at hlen
    exact forEachState_inStep (updateBody env ps) (fun i c j hij => by simp [updateBody_states, hij])
      (fun i c s hs => ⟨(nextActionAt_sent env i _).2 s hs, nextActionAt_inStep env i _ s hs⟩) _ _
      hnodup

/-! ## The engine -/

/-- The requests in flight and the replies on the work queue. -/
def Engine.items (e : Engine) : List Sent := e.inFlight ++ e.workQueue.map Event.sent

/-- Every request in flight and every reply on the queue is in step with the context. -/
def Engine.Paired (e : Engine) : Prop := ∀ s ∈ e.items, e.context.InStep s

/-- A request in flight or a reply on the queue is under way for its node. -/
theorem Engine.outstanding_pos_of_mem_items {e : Engine} {s : Sent} (hs : s ∈ e.items) :
    0 < e.outstanding s.asState := by
  have : 0 < e.inFlight.countP (·.asState == s.asState) ∨
      0 < e.workQueue.countP (·.sent.asState == s.asState) := by
    rcases List.mem_append.mp hs with hs | hs
    · exact .inl (List.countP_pos_iff.mpr ⟨s, hs, by simp⟩)
    · obtain ⟨ev, hev, rfl⟩ := List.mem_map.mp hs
      exact .inr (List.countP_pos_iff.mpr ⟨ev, hev, by simp⟩)
  unfold Engine.outstanding
  omega

/-- With nothing in flight or queued for node `i`, the node's step leaves every request in
step. -/
theorem nextActionFor_paired (env : Env) (i : Nat) {e : Engine}
    (h : ∀ s ∈ e.items, s.asState ≠ i ∧ e.context.InStep s) : (e.nextActionFor env i).Paired := by
  intro s hs
  simp only [Engine.items, Engine.nextActionFor, List.mem_append] at hs
  rcases hs with (hs | hs) | hs
  · obtain ⟨hne, hstep⟩ := h s (List.mem_append_left _ hs)
    exact hstep.of_states_eq (nextActionFor_states_of_ne env i e (Ne.symm hne))
  · exact nextActionAt_inStep env i e.context s hs
  · obtain ⟨hne, hstep⟩ := h s (List.mem_append_right _ hs)
    exact hstep.of_states_eq (nextActionFor_states_of_ne env i e (Ne.symm hne))

/-- Nothing counted for node `i` in flight or on the queue: no item is for node `i`. -/
theorem items_ne_of_countP {e : Engine} {i : Nat}
    (h : e.inFlight.countP (·.asState == i) + e.workQueue.countP (·.sent.asState == i) = 0) :
    ∀ s ∈ e.items, s.asState ≠ i := by
  intro s hs hsi
  have := Engine.outstanding_pos_of_mem_items (e := { e with retryTimers := [] }) hs
  simp only [Engine.outstanding, hsi, List.countP_nil] at this
  omega

/-- The reply handler keeps every request in step when its event is the only thing under way for
its node. -/
theorem handleM3Response_paired (env : Env) (ev : Event) {e : Engine}
    (h : ∀ s ∈ e.items, s.asState ≠ ev.sent.asState ∧ e.context.InStep s) :
    (handleM3Response env ev e).Paired := by
  unfold handleM3Response
  split
  · exact fun s hs => (h s hs).2
  · refine nextActionFor_paired env _ fun s hs => ⟨(h s hs).1, ?_⟩
    exact (h s hs).2.of_states_eq (by simp [Ne.symm (h s hs).1])

section Steps

variable {env : Env} {e e' : Engine} {inp : Input}

/-- Under idle admission a step keeps every request in step: an M1 call reaches only nodes with
nothing under way, and a reply or a timer is the only thing under way for its node. -/
theorem paired_step (h : e.Paired) (ho : e.OneAtATime) (hal : e.IdleAdmission inp)
    (hs : e.step env inp = some e') : e'.Paired := by
  cases inp with
  | m1 op =>
    simp only [Engine.step, Option.map_eq_some'] at hs
    obtain ⟨r, hr, rfl⟩ := hs
    have hold : ∀ s ∈ e.items, r.1.InStep s := fun s hs =>
      (h s hs).of_states_eq (AssignOp.apply_states_of_not_mem hr fun hd =>
        (Engine.outstanding_pos_of_mem_items hs).ne' (hal _ hd))
    intro s hs
    simp only [Engine.items, List.mem_append] at hs
    rcases hs with (hs | hs) | hs
    · exact hold s (List.mem_append_left _ hs)
    · exact AssignOp.apply_inStep hr ho.nodesWF s hs
    · exact hold s (List.mem_append_right _ hs)
  | notify k status response pushRv =>
    simp only [Engine.step, Option.map_eq_some'] at hs
    obtain ⟨s₀, hs₀, rfl⟩ := hs
    intro s hs
    refine h s ?_
    simp only [Engine.items, clientNotifyCb, List.mem_append] at hs ⊢
    rcases hs with hs | hs
    · exact .inl (List.mem_of_mem_eraseIdx hs)
    · split_ifs at hs
      · exact .inr hs
      · exact .inr hs
      · rw [List.map_append, List.mem_append] at hs
        rcases hs with hs | hs
        · exact .inr hs
        · obtain rfl : s = s₀ := by simpa using hs
          exact .inl (List.getElem?_mem hs₀)
  | dispatch =>
    obtain ⟨ev, rest, hq, rfl⟩ := step_dispatch_eq hs
    have hone := ho.outstanding_le ev.sent.asState
    simp only [Engine.outstanding, hq, List.countP_cons, beq_self_eq_true, if_true] at hone
    refine handleM3Response_paired env ev fun s hs => ⟨?_, h s ?_⟩
    · exact items_ne_of_countP (e := { e with workQueue := rest }) (by simp only; omega) s hs
    · simp only [Engine.items, hq, List.map_cons, List.mem_append, List.mem_cons] at hs ⊢
      tauto
  | expire k =>
    simp only [Engine.step, Option.map_eq_some'] at hs
    obtain ⟨i, hi, rfl⟩ := hs
    have hone := ho.outstanding_le i
    have htimer : 0 < e.retryTimers.countP (· == i) :=
      List.countP_pos_iff.mpr ⟨i, List.getElem?_mem hi, by simp⟩
    unfold Engine.outstanding at hone
    exact nextActionFor_paired env i fun s hs =>
      ⟨items_ne_of_countP (e := { e with retryTimers := e.retryTimers.eraseIdx k })
        (by simp only; omega) s hs, h s hs⟩

end Steps

/-- Under idle admission every reachable state keeps its requests in step, one thing under way
per node at most. -/
theorem Engine.Reachable.paired {env : Env} {e : Engine}
    (h : Engine.Reachable env Engine.IdleAdmission e) : e.Paired ∧ e.OneAtATime :=
  Engine.Reachable.induct' (fun e => e.Paired ∧ e.OneAtATime)
    (fun ctx hf => ⟨fun s hs => by simp [Engine.items, Engine.init] at hs,
      ⟨fun p hp => by simp [hf.2 p hp], fun i => by simp [outstanding_init]⟩⟩)
    (fun _ _ _ hi hal hs => ⟨paired_step hi.1 hi.2 hal hs, oneAtATime_step hi.2 hal hs⟩) h

/-- Under idle admission, every request in flight and every reply on the work queue is for its
node's next action, driven by the head of that action's queue: each reply's handler pops the
entry its request was built from. -/
theorem replies_in_step_of_idleAdmission {env : Env} {e : Engine}
    (h : Engine.Reachable env Engine.IdleAdmission e) {s : Sent}
    (hs : s ∈ e.inFlight ++ e.workQueue.map Event.sent) :
    ∃ a, e.context.applicationServerStates[s.asState]? = some a ∧ nextAction a = some s.action ∧
      s.action.DrivenBy a := by
  obtain ⟨a, ha, hact⟩ := h.paired.1 s hs
  exact ⟨a, ha, hact, nextAction_drivenBy hact⟩

theorem replies_in_step_of_idleAdmission_sample :
    let e := ((Engine.init Context.sample).step Env.failing (.m1 (.setOnPost "ps1"))).getD
      (Engine.init Context.sample)
    let s : Sent := ⟨0, .getCertificates,
      ⟨"GET", "http://as.example.net:7777/3gpp-m3/v1/certificates", "v1", none, none⟩⟩
    s ∈ e.inFlight ++ e.workQueue.map Event.sent ∧
      ∃ a, e.context.applicationServerStates[s.asState]? = some a ∧
        nextAction a = some s.action ∧ s.action.DrivenBy a := by
  intro e s
  have hs : s ∈ e.inFlight ++ e.workQueue.map Event.sent := by decide
  exact ⟨hs, replies_in_step_of_idleAdmission (.step (.init Context.sample_fresh)
    (show (Engine.init Context.sample).IdleAdmission (.m1 (.setOnPost "ps1")) from
      fun i _ => outstanding_init _ i) rfl) hs⟩

end Msaf
