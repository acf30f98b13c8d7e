import Msaf.M3.Drives

/-!
# The M3 reconciliation engine

The AF drives each Application Server through one loop: an M1 change of a session
queues work on AS-state nodes and runs `next_action_for_application_server` on them;
the request goes out through the SBI client; `client_notify_cb` turns the transport's
outcome into a completion event on the work queue; the worker takes the event off the
queue and the reply handler pops the entry, updates the cached list, and takes the
next step. The engine is that loop as a state machine: the context, the requests in
flight, the work queue, and the retry timers.

The reply handler and the retry timer are not in the sources (`msaf-sm.c`); they are
modelled from §4.6 of the spec (`handleM3Response`). `client_notify_cb` is the
source's: a transport error and a failed push are logged and dropped.

**The accounting.** `Engine.outstanding e i` counts what is under way for node `i`:
its requests in flight, its events on the queue, and its armed timers. Each kind of step
changes it in one way, one lemma each: an M1 call adds what it sends
(`step_m1_outstanding`); the transport's outcome moves a request to the queue or drops it
(`step_notify_outstanding`); the worker and a timer each replace one thing under way for a
node by at most one request or timer of that node and touch no other node
(`step_dispatch_advances`, `step_expire_advances`, both through `Engine.Advances`).
-/

namespace Msaf

/-! ## Transport and the work queue -/

/-- What an AS answered to an M3 request: the HTTP status and, for a GET of a list, the ids
the AS lists. -/
structure M3Response where
  status : Nat
  ids : List String
  deriving DecidableEq, Repr

/-- `OGS_OK`. -/
def ogsOk : Int := 0

/-- `OGS_ERROR`. -/
def ogsError : Int := -1

/-- A completion event on the work queue: the `OGS_EVENT_SBI_CLIENT` event `client_notify_cb`
pushes, with the response and the node the request was for. -/
structure Event where
  sent : Sent
  response : M3Response
  deriving DecidableEq, Repr

/-- `client_notify_cb(status, response, data)`: the work queue after the callback, and its
result. A transport error is only logged; a response becomes an event on the queue, which is
freed again when `ogs_queue_push` (whose result is `pushRv`) fails. -/
def clientNotifyCb (status : Int) (response : M3Response) (data : Sent) (pushRv : Int)
    (queue : List Event) : List Event × Int :=
  if status ≠ ogsOk then (queue, ogsError)
  else if pushRv ≠ ogsOk then (queue, ogsError)
  else (queue ++ [⟨data, response⟩], ogsOk)

/-- The engine: the AF's context, the requests the SBI client has in flight, the completion
events on the work queue, and the nodes whose back-off timer is armed. -/
structure Engine where
  context : Context
  inFlight : List Sent
  workQueue : List Event
  retryTimers : List Nat
  deriving DecidableEq, Repr

/-! ## The reply handler -/

/-- Add an id to a cached list unless it is already there. -/
def insertId (id : String) (l : List String) : List String :=
  if id ∈ l then l else l ++ [id]

/-- Modelled from the spec: what a 2xx reply does to the node, by the branch that sent the
request. A GET caches the AS's list; an upload or a delete pops its queue and records the
change in the cached list; a purge pops its queue. -/
def NextAction.onSuccess (ids : List String) (a : ApplicationServerState) :
    NextAction → ApplicationServerState
  | .getCertificates => { a with currentCertificates := some ids }
  | .getContentHostingConfigurations => { a with currentContentHostingConfigurations := some ids }
  | .uploadCertificate id _ =>
    { a with uploadCertificates := a.uploadCertificates.tail
             currentCertificates := a.currentCertificates.map (insertId id) }
  | .uploadContentHostingConfiguration id _ =>
    { a with uploadContentHostingConfigurations := a.uploadContentHostingConfigurations.tail
             currentContentHostingConfigurations :=
               a.currentContentHostingConfigurations.map (insertId id) }
  | .deleteContentHostingConfiguration id =>
    { a with deleteContentHostingConfigurations := a.deleteContentHostingConfigurations.tail
             currentContentHostingConfigurations :=
               a.currentContentHostingConfigurations.map (·.erase id) }
  | .deleteCertificate id =>
    { a with deleteCertificates := a.deleteCertificates.tail
             currentCertificates := a.currentCertificates.map (·.erase id) }
  | .purgeContentHostingCache _ =>
    { a with purgeContentHostingCache := a.purgeContentHostingCache.tail }

/-- Modelled from the spec: a non-retriable failure drops the entry that drove the request (a
GET has none). -/
def NextAction.onDrop (a : ApplicationServerState) : NextAction → ApplicationServerState
  | .getCertificates | .getContentHostingConfigurations => a
  | .uploadCertificate _ _ => { a with uploadCertificates := a.uploadCertificates.tail }
  | .uploadContentHostingConfiguration _ _ =>
    { a with uploadContentHostingConfigurations := a.uploadContentHostingConfigurations.tail }
  | .deleteContentHostingConfiguration _ =>
    { a with deleteContentHostingConfigurations := a.deleteContentHostingConfigurations.tail }
  | .deleteCertificate _ => { a with deleteCertificates := a.deleteCertificates.tail }
  | .purgeContentHostingCache _ =>
    { a with purgeContentHostingCache := a.purgeContentHostingCache.tail }

/-- A 5xx reply: the AS may take the request again later. -/
def M3Response.Retriable (r : M3Response) : Prop := 500 ≤ r.status ∧ r.status < 600

instance (r : M3Response) : Decidable r.Retriable := inferInstanceAs (Decidable (_ ∧ _))

/-- `next_action_for_application_server` on node `i`, with what it sends handed to the SBI
client. -/
def Engine.nextActionFor (env : Env) (i : Nat) (e : Engine) : Engine :=
  let r := nextActionAt env i e.context
  { e with context := r.1, inFlight := e.inFlight ++ r.2 }

/-- Modelled from the spec: the reply handler (the `OGS_EVENT_SBI_CLIENT` case of the AF's
state machine, not in the sources), §4.6. A 5xx leaves the entry at the head and arms the
node's back-off timer. Otherwise a 2xx applies the success and anything else drops the entry,
and the node takes its next step. -/
def handleM3Response (env : Env) (ev : Event) (e : Engine) : Engine :=
  let i := ev.sent.asState
  if ev.response.Retriable then { e with retryTimers := e.retryTimers ++ [i] }
  else
    let ctx := e.context.modifyState i fun a =>
      if 200 ≤ ev.response.status ∧ ev.response.status < 300 then
        ev.sent.action.onSuccess ev.response.ids a
      else ev.sent.action.onDrop a
    Engine.nextActionFor env i { e with context := ctx }

/-! ## Steps and runs -/

/-- What can happen next: an M1 call; the transport's outcome for the `k`-th request in flight
(the `status` and response `client_notify_cb` gets, and what `ogs_queue_push` returns); the
worker taking the next event off the queue; or the `k`-th armed back-off timer firing. -/
inductive Input
  | m1 (op : AssignOp)
  | notify (k : Nat) (status : Int) (response : M3Response) (pushRv : Int)
  | dispatch
  | expire (k : Nat)
  deriving DecidableEq, Repr

/-- Modelled from the spec: the retry timers and their expiry, like the reply handler that arms
them (`handleM3Response`), since `msaf-sm.c` is not in the sources. One step of the engine;
`none` when the input cannot happen in the state. An expiring timer makes its node take its next
step. -/
def Engine.step (env : Env) (e : Engine) : Input → Option Engine
  | .m1 op => (op.apply env e.context).map fun r =>
      { e with context := r.1, inFlight := e.inFlight ++ r.2 }
  | .notify k status response pushRv => e.inFlight[k]?.map fun s =>
      { e with inFlight := e.inFlight.eraseIdx k
               workQueue := (clientNotifyCb status response s pushRv e.workQueue).1 }
  | .dispatch =>
    match e.workQueue with
    | [] => none
    | ev :: rest => some (handleM3Response env ev { e with workQueue := rest })
  | .expire k => e.retryTimers[k]?.map fun i =>
      Engine.nextActionFor env i { e with retryTimers := e.retryTimers.eraseIdx k }

/-- The engine after a sequence of inputs, if each can happen. -/
def Engine.run (env : Env) : List Input → Engine → Option Engine
  | [], e => some e
  | inp :: inps, e => (e.step env inp).bind (Engine.run env inps)

/-- A context as configuration leaves it: every node fresh and no session on any node's list. -/
def Context.Fresh (ctx : Context) : Prop :=
  (∀ a ∈ ctx.applicationServerStates, a.Untouched) ∧
    ∀ p ∈ ctx.provisioningSessions, p.msafApplicationServerStateNodes = []

instance (ctx : Context) : Decidable ctx.Fresh := inferInstanceAs (Decidable (_ ∧ _))

/-- The engine at start: nothing in flight, queued or armed. -/
def Engine.init (ctx : Context) : Engine := ⟨ctx, [], [], []⟩

/-- The states reachable from a fresh context by inputs that `allowed` admits. -/
inductive Engine.Reachable (env : Env) (allowed : Engine → Input → Prop) : Engine → Prop
  | init {ctx : Context} : ctx.Fresh → Engine.Reachable env allowed (Engine.init ctx)
  | step {e e' : Engine} {inp : Input} : Engine.Reachable env allowed e → allowed e inp →
      e.step env inp = some e' → Engine.Reachable env allowed e'

/-- An invariant that holds at start and that every admitted step keeps holds of every
reachable state. -/
theorem Engine.Reachable.induct' {env : Env} {allowed : Engine → Input → Prop}
    (P : Engine → Prop) (hinit : ∀ ctx : Context, ctx.Fresh → P (Engine.init ctx))
    (hstep : ∀ e e' inp, P e → allowed e inp → e.step env inp = some e' → P e')
    {e : Engine} (h : Engine.Reachable env allowed e) : P e := by
  induction h with
  | init hf => exact hinit _ hf
  | step _ hal hs ih => exact hstep _ _ _ ih hal hs

/-- A state reachable under a discipline is reachable under a weaker one. -/
theorem Engine.Reachable.mono {env : Env} {allowed allowed' : Engine → Input → Prop}
    (hle : ∀ e inp, allowed e inp → allowed' e inp) {e : Engine}
    (h : Engine.Reachable env allowed e) : Engine.Reachable env allowed' e := by
  induction h with
  | init hf => exact .init hf
  | step _ hal hs ih => exact .step ih (hle _ _ hal) hs

theorem Context.sample_fresh : Context.sample.Fresh := by decide

/-! ## What is under way for a node -/

/-- What is under way for node `i`: its requests in flight, its completion events on the work
queue, and its armed back-off timers. -/
def Engine.outstanding (e : Engine) (i : Nat) : Nat :=
  e.inFlight.countP (·.asState == i) + e.workQueue.countP (·.sent.asState == i) +
    e.retryTimers.countP (· == i)

theorem outstanding_init (ctx : Context) (i : Nat) : (Engine.init ctx).outstanding i = 0 := rfl

theorem countP_eraseIdx {α : Type} (p : α → Bool) :
    ∀ (l : List α) (k : Nat) (x : α), l[k]? = some x →
      l.countP p = (l.eraseIdx k).countP p + if p x then 1 else 0
  | [], _, _, h => by simp at h
  | y :: l, 0, x, h => by
    obtain rfl : y = x := by simpa using h
    simp [List.countP_cons]
  | y :: l, k + 1, x, h => by
    simp only [List.getElem?_cons_succ] at h
    simp only [List.eraseIdx_cons_succ, List.countP_cons, countP_eraseIdx p l k x h]
    omega

/-! ## A node taking its step -/

section NextActionFor

variable (env : Env) (i : Nat) (e : Engine)

@[simp] theorem nextActionFor_workQueue : (e.nextActionFor env i).workQueue = e.workQueue := rfl

@[simp] theorem nextActionFor_retryTimers :
    (e.nextActionFor env i).retryTimers = e.retryTimers := rfl

@[simp] theorem nextActionFor_sessions :
    (e.nextActionFor env i).context.provisioningSessions = e.context.provisioningSessions := by
  simp [Engine.nextActionFor, nextActionAt_fst]

theorem nextActionFor_states_of_ne {j : Nat} (h : i ≠ j) :
    (e.nextActionFor env i).context.applicationServerStates[j]? =
      e.context.applicationServerStates[j]? := by
  simp [Engine.nextActionFor, nextActionAt_fst, h]

/-- Node `i` takes its step; every other node is left alone. -/
theorem nextActionFor_states_getElem? (j : Nat) :
    (e.nextActionFor env i).context.applicationServerStates[j]? =
      if i = j then ApplicationServerState.afterNextAction <$> e.context.applicationServerStates[j]?
      else e.context.applicationServerStates[j]? := by
  simp [Engine.nextActionFor, nextActionAt_fst]

/-- The step adds at most one request, and only for node `i`. -/
theorem nextActionFor_outstanding (j : Nat) :
    e.outstanding j ≤ (e.nextActionFor env i).outstanding j ∧
      (e.nextActionFor env i).outstanding j ≤ e.outstanding j + if i = j then 1 else 0 := by
  have := nextActionAt_countP_le env i e.context j
  simp only [Engine.outstanding, Engine.nextActionFor, List.countP_append]
  split_ifs at this ⊢ <;> omega

/-- A node left with pending work has its request in flight. -/
theorem nextActionFor_outstanding_pos {a : ApplicationServerState}
    (ha : (e.nextActionFor env i).context.applicationServerStates[i]? = some a)
    (hp : a.HasPendingWork) : 0 < (e.nextActionFor env i).outstanding i := by
  simp only [Engine.nextActionFor, nextActionAt_fst, modifyState_states_getElem?, if_true,
    Option.map_eq_map, Option.map_eq_some'] at ha
  obtain ⟨a₀, ha₀, rfl⟩ := ha
  obtain ⟨s, hs, hsi⟩ : ∃ s ∈ (nextActionAt env i e.context).2, s.asState = i :=
    nextActionAt_sends ha₀ hp
  have : 0 < (e.inFlight ++ (nextActionAt env i e.context).2).countP (·.asState == i) :=
    List.countP_pos_iff.mpr ⟨s, List.mem_append_right _ hs, by simp [hsi]⟩
  simp only [Engine.outstanding, Engine.nextActionFor]
  omega

end NextActionFor

/-- What a reply or a timer does: node `i` takes its step. Nothing changes for any other node,
what is under way for node `i` does not grow, and if node `i` is left with pending work it has
something under way. -/
structure Engine.Advances (e : Engine) (i : Nat) (e' : Engine) : Prop where
  sessions : e'.context.provisioningSessions = e.context.provisioningSessions
  states_of_ne : ∀ j, i ≠ j →
    e'.context.applicationServerStates[j]? = e.context.applicationServerStates[j]?
  outstanding_of_ne : ∀ j, i ≠ j → e'.outstanding j = e.outstanding j
  outstanding_le : e'.outstanding i ≤ e.outstanding i
  pending : ∀ a, e'.context.applicationServerStates[i]? = some a → a.HasPendingWork →
    0 < e'.outstanding i

/-- Taking a step in place of one thing under way for the node advances it. -/
theorem advances_nextActionFor {env : Env} {i : Nat} {e e₁ : Engine}
    (hsessions : e₁.context.provisioningSessions = e.context.provisioningSessions)
    (hstates : ∀ j, i ≠ j →
      e₁.context.applicationServerStates[j]? = e.context.applicationServerStates[j]?)
    (hout : ∀ j, e₁.outstanding j + (if i = j then 1 else 0) = e.outstanding j) :
    e.Advances i (e₁.nextActionFor env i) where
  sessions := by simp [hsessions]
  states_of_ne j hij := (nextActionFor_states_of_ne env i e₁ hij).trans (hstates j hij)
  outstanding_of_ne j hij := by
    have h₁ := nextActionFor_outstanding env i e₁ j
    have h₂ := hout j
    simp only [hij, if_false] at h₁ h₂
    omega
  outstanding_le := by
    have h₁ := nextActionFor_outstanding env i e₁ i
    have h₂ := hout i
    simp only [if_true] at h₁ h₂
    omega
  pending _ ha hp := nextActionFor_outstanding_pos env i e₁ ha hp

/-- The reply handler advances the node the reply is for, in place of the reply's event. -/
theorem handleM3Response_advances (env : Env) (ev : Event) (e : Engine) :
    ({ e with workQueue := ev :: e.workQueue } : Engine).Advances ev.sent.asState
      (handleM3Response env ev e) := by
  have hq : ∀ j, (ev :: e.workQueue).countP (·.sent.asState == j) =
      e.workQueue.countP (·.sent.asState == j) + if ev.sent.asState = j then 1 else 0 := by
    intro j
    simp [List.countP_cons]
  unfold handleM3Response
  split
  · -- a 5xx: the event's place is taken by an armed timer
    have hout : ∀ j, ({ e with retryTimers := e.retryTimers ++ [ev.sent.asState] } : Engine).outstanding j =
        ({ e with workQueue := ev :: e.workQueue } : Engine).outstanding j := by
      intro j
      simp only [Engine.outstanding, List.countP_append, hq, List.countP_singleton, beq_iff_eq]
      omega
    refine ⟨rfl, fun _ _ => rfl, fun j _ => hout j, (hout _).le, fun _ _ _ => ?_⟩
    simp only [Engine.outstanding, List.countP_append, List.countP_singleton, beq_self_eq_true,
      if_true]
    omega
  · refine advances_nextActionFor rfl (fun j hij => by simp [hij]) fun j => ?_
    simp only [Engine.outstanding, hq]
    omega

/-! ## The four kinds of step -/

section Steps

variable {env : Env} {e e' : Engine}

/-- An M1 call adds what it sends. -/
theorem step_m1_outstanding {op : AssignOp} (h : e.step env (.m1 op) = some e') :
    ∃ r, op.apply env e.context = some r ∧ e'.context = r.1 ∧
      ∀ i, e'.outstanding i = e.outstanding i + r.2.countP (·.asState == i) := by
  simp only [Engine.step, Option.map_eq_some'] at h
  obtain ⟨r, hr, rfl⟩ := h
  refine ⟨r, hr, rfl, fun i => ?_⟩
  simp only [Engine.outstanding, List.countP_append]
  omega

/-- The transport's outcome takes a request out of flight and leaves the context alone; only a
response that is pushed puts an event for its node on the queue. -/
theorem step_notify_outstanding {k : Nat} {status : Int} {response : M3Response} {pushRv : Int}
    (h : e.step env (.notify k status response pushRv) = some e') :
    e'.context = e.context ∧ ∃ s, e.inFlight[k]? = some s ∧ ∀ i,
      e'.outstanding i + (if s.asState = i ∧ ¬(status = ogsOk ∧ pushRv = ogsOk) then 1 else 0) =
        e.outstanding i := by
  simp only [Engine.step, Option.map_eq_some'] at h
  obtain ⟨s, hs, rfl⟩ := h
  refine ⟨rfl, s, hs, fun i => ?_⟩
  have herase := countP_eraseIdx (·.asState == i) e.inFlight k s hs
  simp only [Engine.outstanding, clientNotifyCb]
  by_cases hst : status = ogsOk <;> by_cases hpush : pushRv = ogsOk <;>
    by_cases hi : s.asState = i <;> simp_all [List.countP_append] <;> omega

/-- The worker takes the head event off the queue and runs the reply handler on it. -/
theorem step_dispatch_eq (h : e.step env .dispatch = some e') :
    ∃ ev rest, e.workQueue = ev :: rest ∧
      e' = handleM3Response env ev { e with workQueue := rest } := by
  simp only [Engine.step] at h
  split at h
  · cases h
  · exact ⟨_, _, ‹_›, (Option.some_inj.mp h).symm⟩

/-- Taking an event off the queue advances its node. -/
theorem step_dispatch_advances (h : e.step env .dispatch = some e') :
    ∃ i, e.Advances i e' := by
  obtain ⟨ev, rest, hq, rfl⟩ := step_dispatch_eq h
  obtain ⟨ctx, inFlight, queue, timers⟩ := e
  subst hq
  exact ⟨_, handleM3Response_advances env ev ⟨ctx, inFlight, rest, timers⟩⟩

/-- A timer firing advances its node. -/
theorem step_expire_advances {k : Nat} (h : e.step env (.expire k) = some e') :
    ∃ i, e.Advances i e' := by
  simp only [Engine.step, Option.map_eq_some'] at h
  obtain ⟨i, hi, rfl⟩ := h
  refine ⟨i, advances_nextActionFor rfl (fun _ _ => rfl) fun j => ?_⟩
  have := countP_eraseIdx (· == j) e.retryTimers k i hi
  simp only [Engine.outstanding, beq_iff_eq] at this ⊢
  omega

end Steps

end Msaf
