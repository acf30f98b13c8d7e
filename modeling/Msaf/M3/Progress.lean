import Mathlib
import Msaf.M3.Pairing

/-!
# The engine settles

What the M3 engine is for: to bring each Application Server in line with the work the AF has
queued for it, and then to stop. Under idle admission, while the transport delivers and the AS
answers every request with a 2xx, it does.

**The potential.** `ApplicationServerState.work` counts what is left on a node: each of the
AS's two lists still unknown, and each entry of the five queues. A 2xx reply in step with its
node completes one unit of that work (`work_onSuccess`); a reply the handler drops adds none
(`work_onDrop_le`). `Engine.potential` weighs the work left, the requests in flight, the events
on the queue (a 2xx event less than any other) and the armed timers so that every step of a
serving run lowers it (`potential_step`): a request becomes a 2xx event; a 2xx event becomes a
unit of work done and at most one new request; any other event becomes at most one new request
or one timer; and a timer becomes at most one new request.

**The laws.**

- `serving_run_length_le`: from every state reachable under idle admission, every run without
  M1 calls in which the transport delivers and the AS answers 2xx lowers the potential by its
  length, so it has at most `Engine.potential e` steps.
- `serve_settles`: from every state reachable under idle admission with a transport that
  delivers, serving the engine (the AS answers each request with a 2xx of its choosing, the
  worker takes every event, every timer fires) for `Engine.potential e` steps leaves nothing
  under way, and every node an M1 call has reached with no pending work.

**What it does not establish.** Only the events already on the queue may be other than 2xx.
An AS that keeps answering 4xx to a GET keeps its list unknown, and the node asks again each
time: that run does not end.
-/

namespace Msaf

/-! ## Work left on a node -/

/-- A 2xx status: the reply handler applies the success. -/
def M3Response.Ok (r : M3Response) : Prop := 200 ≤ r.status ∧ r.status < 300

instance (r : M3Response) : Decidable r.Ok := inferInstanceAs (Decidable (_ ∧ _))

/-- What is left to do on a node: each of the AS's lists still unknown, and each entry of the
five queues. -/
def ApplicationServerState.work (a : ApplicationServerState) : Nat :=
  (if a.currentCertificates = none then 1 else 0) +
    (if a.currentContentHostingConfigurations = none then 1 else 0) +
    a.uploadCertificates.length + a.uploadContentHostingConfigurations.length +
    a.deleteContentHostingConfigurations.length + a.deleteCertificates.length +
    a.purgeContentHostingCache.length

@[simp] theorem work_afterNextAction (a : ApplicationServerState) :
    a.afterNextAction.work = a.work := rfl

/-- A 2xx reply to the node's next action completes one unit of its work: a GET makes its list
known, and every other branch pops the head of its queue. -/
theorem work_onSuccess {a : ApplicationServerState} {act : NextAction}
    (h : nextAction a = some act) (ids : List String) : (act.onSuccess ids a).work + 1 = a.work := by
  unfold nextAction at h
  split at h <;> try split at h
  all_goals cases h
  all_goals simp_all [NextAction.onSuccess, ApplicationServerState.work] <;> omega

/-- Dropping a reply's entry never adds work. -/
theorem work_onDrop_le (a : ApplicationServerState) (act : NextAction) :
    (act.onDrop a).work ≤ a.work := by
  cases act <;> simp only [NextAction.onDrop, ApplicationServerState.work, List.length_tail] <;>
    omega

/-- The work left on every node. -/
def Context.work (ctx : Context) : Nat :=
  (ctx.applicationServerStates.map ApplicationServerState.work).sum

/-- Rewriting one node changes the work left by what the rewrite does to that node. -/
theorem Context.work_modifyState (ctx : Context) (i : Nat) (f)
    {a : ApplicationServerState} (ha : ctx.applicationServerStates[i]? = some a) :
    (ctx.modifyState i f).work + a.work = ctx.work + (f a).work := by
  obtain ⟨l₁, b, l₂, hl, hlen, hm⟩ :=
    List.exists_of_modify f (List.getElem?_eq_some_iff.mp ha).1
  obtain rfl : b = a := by
    rw [hl, List.getElem?_append_right (by omega), hlen, Nat.sub_self] at ha
    simpa using ha
  simp only [Context.work, Context.modifyState, hm]
  rw [hl]
  simp only [List.map_append, List.map_cons, List.sum_append, List.sum_cons]
  omega

/-- A rewrite that adds no work to any node adds none to the context. -/
theorem Context.work_modifyState_le (ctx : Context) (i : Nat) {f}
    (hf : ∀ a, (f a).work ≤ a.work) : (ctx.modifyState i f).work ≤ ctx.work := by
  cases ha : ctx.applicationServerStates[i]? with
  | none =>
    simp [Context.modifyState, Context.work, List.modify_eq_self (List.getElem?_eq_none_iff.mp ha)]
  | some a =>
    have := ctx.work_modifyState i f ha
    have := hf a
    omega

/-! ## The potential -/

/-- An event's share of the potential: a 2xx reply completes a unit of work when it is handled,
so it weighs less than one that only drops its entry or arms a timer. -/
def Event.weight (ev : Event) : Nat := if ev.response.Ok then 1 else 4

/-- What a serving run has left to do: twice the work left and twice the requests in flight,
each event's weight, and three per armed timer. -/
def Engine.potential (e : Engine) : Nat :=
  2 * e.context.work + 2 * e.inFlight.length + (e.workQueue.map Event.weight).sum +
    3 * e.retryTimers.length

/-- A node's step adds one request at most, and no work. -/
theorem potential_nextActionFor (env : Env) (i : Nat) (e : Engine) :
    (e.nextActionFor env i).potential ≤ e.potential + 2 := by
  have hw : (nextActionAt env i e.context).1.work ≤ e.context.work := by
    rw [nextActionAt_fst]
    exact e.context.work_modifyState_le i fun a => (work_afterNextAction a).le
  have hs := (nextActionAt_sent env i e.context).1
  simp only [Engine.potential, Engine.nextActionFor, List.length_append]
  omega

/-- The reply handler on an event taken off the queue: a 2xx event in step with its node
completes a unit of work and sends one request at most; another event arms a timer, or drops its
entry and sends one request at most. Either way the potential falls below what it was with the
event on the queue. -/
theorem potential_handleM3Response (env : Env) (ev : Event) (e : Engine)
    (hstep : ev.response.Ok → e.context.InStep ev.sent) :
    (handleM3Response env ev e).potential + 1 ≤ e.potential + ev.weight := by
  unfold handleM3Response
  split
  · rename_i hretry
    have hok : ¬ev.response.Ok := fun hok => by
      unfold M3Response.Retriable at hretry
      unfold M3Response.Ok at hok
      omega
    simp only [Engine.potential, Event.weight, hok, if_false, List.length_append,
      List.length_singleton]
    omega
  · generalize hf : (fun a => if 200 ≤ ev.response.status ∧ ev.response.status < 300 then
      ev.sent.action.onSuccess ev.response.ids a else ev.sent.action.onDrop a) = f
    have hwork : (e.context.modifyState ev.sent.asState f).work +
        (if ev.response.Ok then 1 else 0) ≤ e.context.work := by
      by_cases hok : ev.response.Ok
      · obtain ⟨a, ha, hact⟩ := hstep hok
        have hfa : f a = ev.sent.action.onSuccess ev.response.ids a := by
          rw [← hf]
          exact if_pos hok
        have h₁ := e.context.work_modifyState ev.sent.asState f ha
        have h₂ := work_onSuccess hact ev.response.ids
        rw [hfa] at h₁
        rw [if_pos hok]
        omega
      · simpa [hok] using e.context.work_modifyState_le ev.sent.asState fun a => by
          rw [← hf]
          exact (congrArg ApplicationServerState.work (if_neg hok)).trans_le (work_onDrop_le a _)
    have := potential_nextActionFor env ev.sent.asState
      { e with context := e.context.modifyState ev.sent.asState f }
    simp only [Engine.potential, Event.weight] at this ⊢
    by_cases hok : ev.response.Ok <;> simp only [hok, if_true, if_false] at hwork ⊢ <;> omega

/-! ## Serving runs -/

/-- A step of a serving run: no M1 call comes, the transport delivers, and the AS answers
2xx. -/
def Input.Serving : Input → Prop
  | .m1 _ => False
  | .notify _ status response pushRv => status = ogsOk ∧ pushRv = ogsOk ∧ response.Ok
  | .dispatch | .expire _ => True

instance : DecidablePred Input.Serving
  | .m1 _ => isFalse id
  | .notify _ _ _ _ => inferInstanceAs (Decidable (_ ∧ _ ∧ _))
  | .dispatch => isTrue trivial
  | .expire _ => isTrue trivial

theorem Input.Serving.idleAdmission {inp : Input} (h : inp.Serving) (e : Engine) :
    e.IdleAdmission inp := by
  cases inp <;> first | exact h.elim | trivial

theorem Input.Serving.lossless {inp : Input} (h : inp.Serving) (e : Engine) :
    e.Lossless inp := by
  cases inp with
  | m1 => exact h.elim
  | notify => exact ⟨h.1, h.2.1⟩
  | dispatch | expire => trivial

section Steps

variable {env : Env} {e e' : Engine} {inp : Input}

/-- Every serving step lowers the potential. -/
theorem potential_step (hp : e.Paired) (hserve : inp.Serving) (hs : e.step env inp = some e') :
    e'.potential + 1 ≤ e.potential := by
  cases inp with
  | m1 => exact hserve.elim
  | notify k status response pushRv =>
    obtain ⟨rfl, rfl, hok⟩ := hserve
    simp only [Engine.step, Option.map_eq_some'] at hs
    obtain ⟨s, hs, rfl⟩ := hs
    have hk : k < e.inFlight.length := (List.getElem?_eq_some_iff.mp hs).1
    simp [Engine.potential, clientNotifyCb, List.length_eraseIdx, hk, Event.weight, hok]
    omega
  | dispatch =>
    obtain ⟨ev, rest, hq, rfl⟩ := step_dispatch_eq hs
    have hstep : e.context.InStep ev.sent := hp ev.sent (List.mem_append_right _ (by simp [hq]))
    have := potential_handleM3Response env ev { e with workQueue := rest } fun _ => hstep
    simp only [Engine.potential, hq, List.map_cons, List.sum_cons] at this ⊢
    omega
  | expire k =>
    simp only [Engine.step, Option.map_eq_some'] at hs
    obtain ⟨i, hi, rfl⟩ := hs
    have hk : k < e.retryTimers.length := (List.getElem?_eq_some_iff.mp hi).1
    have := potential_nextActionFor env i { e with retryTimers := e.retryTimers.eraseIdx k }
    simp only [Engine.potential, List.length_eraseIdx, hk, if_true] at this ⊢
    omega

end Steps

/-- Along a serving run the requests stay in step, and the potential falls by the run's length
at least. -/
theorem Engine.run_potential {env : Env} : ∀ {inps : List Input} {e e' : Engine},
    e.Paired → e.OneAtATime → (∀ inp ∈ inps, inp.Serving) → Engine.run env inps e = some e' →
      inps.length + e'.potential ≤ e.potential
  | [], _, _, _, _, _, h => by cases h; simp
  | inp :: inps, e, e', hp, ho, hserve, h => by
    simp only [Engine.run, Option.bind_eq_some] at h
    obtain ⟨e₁, h₁, h₂⟩ := h
    have hs := hserve inp (List.mem_cons_self _ _)
    have hrest := Engine.run_potential (paired_step hp ho (hs.idleAdmission e) h₁)
      (oneAtATime_step ho (hs.idleAdmission e) h₁)
      (fun inp h => hserve inp (List.mem_cons_of_mem _ h)) h₂
    have := potential_step hp hs h₁
    simp only [List.length_cons]
    omega

/-- From every state reachable under idle admission, a run without M1 calls in which the
transport delivers and the AS answers 2xx lowers the potential by its length: the engine cannot
keep stepping. -/
theorem serving_run_length_le {env : Env} {e e' : Engine}
    (h : Engine.Reachable env Engine.IdleAdmission e) {inps : List Input}
    (hserve : ∀ inp ∈ inps, inp.Serving) (hrun : Engine.run env inps e = some e') :
    inps.length + e'.potential ≤ e.potential :=
  Engine.run_potential h.paired.1 h.paired.2 hserve hrun

theorem serving_run_length_le_sample :
    let e := ((Engine.init Context.sample).step Env.failing (.m1 (.setOnPost "ps1"))).getD
      (Engine.init Context.sample)
    let inps : List Input := [.notify 0 ogsOk ⟨200, []⟩ ogsOk, .dispatch]
    let e' := (Engine.run Env.failing inps e).getD e
    (∀ inp ∈ inps, inp.Serving) ∧ Engine.run Env.failing inps e = some e' ∧
      inps.length + e'.potential ≤ e.potential := by
  intro e inps e'
  have hserve : ∀ inp ∈ inps, inp.Serving := by decide
  have hrun : Engine.run Env.failing inps e = some e' := by decide
  exact ⟨hserve, hrun, serving_run_length_le (.step (.init Context.sample_fresh)
    (show (Engine.init Context.sample).IdleAdmission (.m1 (.setOnPost "ps1")) from
      fun i _ => outstanding_init _ i) rfl) hserve hrun⟩

/-! ## A run that settles -/

/-- The environment's next step when it serves the engine: the AS answers the first request in
flight with `answer`, else the worker takes the head event, else the first timer fires. -/
def Engine.serveInput (answer : Sent → M3Response) (e : Engine) : Option Input :=
  match e.inFlight, e.workQueue, e.retryTimers with
  | s :: _, _, _ => some (.notify 0 ogsOk (answer s) ogsOk)
  | [], _ :: _, _ => some .dispatch
  | [], [], _ :: _ => some (.expire 0)
  | [], [], [] => none

/-- Serve the engine for `fuel` steps, or until nothing is under way. -/
def Engine.serve (env : Env) (answer : Sent → M3Response) : Nat → Engine → Engine
  | 0, e => e
  | fuel + 1, e =>
    match e.serveInput answer with
    | none => e
    | some inp =>
      match e.step env inp with
      | none => e
      | some e' => Engine.serve env answer fuel e'

/-- Nothing under way, and every node an M1 call has reached has no pending work. -/
def Engine.Settled (e : Engine) : Prop :=
  e.inFlight = [] ∧ e.workQueue = [] ∧ e.retryTimers = [] ∧
    ∀ (i : Nat) (a : ApplicationServerState), e.context.applicationServerStates[i]? = some a →
      a.HasPendingWork → a.Untouched

/-- The serving environment has a step while something is under way, and it is a serving step
the engine can take. -/
theorem serveInput_step {answer : Sent → M3Response} (hans : ∀ s, (answer s).Ok) (env : Env)
    {e : Engine} {inp : Input} (h : e.serveInput answer = some inp) :
    inp.Serving ∧ ∃ e', e.step env inp = some e' := by
  unfold Engine.serveInput at h
  split at h <;> cases h
  · exact ⟨⟨rfl, rfl, hans _⟩, Option.isSome_iff_exists.mp (by simp [Engine.step, *])⟩
  · exact ⟨trivial, Option.isSome_iff_exists.mp (by simp [Engine.step, *])⟩
  · exact ⟨trivial, Option.isSome_iff_exists.mp (by simp [Engine.step, *])⟩

theorem serveInput_eq_none {answer : Sent → M3Response} {e : Engine}
    (h : e.serveInput answer = none) :
    e.inFlight = [] ∧ e.workQueue = [] ∧ e.retryTimers = [] := by
  unfold Engine.serveInput at h
  split at h <;> simp_all

theorem quiet_of_potential_eq_zero {e : Engine} (h : e.potential = 0) :
    e.inFlight = [] ∧ e.workQueue = [] ∧ e.retryTimers = [] := by
  unfold Engine.potential at h
  refine ⟨List.eq_nil_of_length_eq_zero (by omega), ?_, List.eq_nil_of_length_eq_zero (by omega)⟩
  cases hq : e.workQueue with
  | nil => rfl
  | cons ev rest =>
    have : 1 ≤ ev.weight := by unfold Event.weight; split <;> omega
    simp only [hq, List.map_cons, List.sum_cons] at h
    omega

/-- With nothing under way, a state that is never stuck is settled. -/
theorem Engine.NeverStuck.settled {e : Engine} (hn : e.NeverStuck)
    (hq : e.inFlight = [] ∧ e.workQueue = [] ∧ e.retryTimers = []) : e.Settled := by
  obtain ⟨h₁, h₂, h₃⟩ := hq
  refine ⟨h₁, h₂, h₃, fun i a ha hp => by_contra fun hu => ?_⟩
  have := hn i a ha hp hu
  simp [Engine.outstanding, h₁, h₂, h₃] at this

/-- From every state reachable under idle admission with a transport that delivers, serving the
engine with any 2xx answers for as many steps as the potential settles it: nothing is left under
way, and every node an M1 call has reached is in line with the AF. -/
theorem serve_settles {env : Env} {e : Engine}
    (h : Engine.Reachable env (fun e inp => e.IdleAdmission inp ∧ e.Lossless inp) e)
    (answer : Sent → M3Response) (hans : ∀ s, (answer s).Ok) (n : Nat) (hn : e.potential ≤ n) :
    (e.serve env answer n).Settled := by
  have hstuck : ∀ {e}, Engine.Reachable env (fun e inp => e.IdleAdmission inp ∧ e.Lossless inp) e →
      e.NeverStuck := fun h => neverStuck_of_lossless (h.mono fun _ _ hal => hal.2)
  induction n generalizing e with
  | zero => exact (hstuck h).settled (quiet_of_potential_eq_zero (by omega))
  | succ n ih =>
    simp only [Engine.serve]
    cases hi : e.serveInput answer with
    | none => exact (hstuck h).settled (serveInput_eq_none hi)
    | some inp =>
      obtain ⟨hserve, e', hs⟩ := serveInput_step hans env hi
      have := potential_step (h.mono fun _ _ hal => hal.1).paired.1 hserve hs
      simp only [hs]
      exact ih (.step h ⟨hserve.idleAdmission e, hserve.lossless e⟩ hs) (by omega)

theorem serve_settles_sample :
    let e := ((Engine.init Context.sample).step Env.failing (.m1 (.setOnPost "ps1"))).getD
      (Engine.init Context.sample)
    e.potential ≤ 10 ∧ (e.serve Env.failing (fun _ => ⟨200, []⟩) 10).Settled := by
  intro e
  have hn : e.potential ≤ 10 := by decide
  exact ⟨hn, serve_settles (.step (.init Context.sample_fresh)
    (show (Engine.init Context.sample).IdleAdmission (.m1 (.setOnPost "ps1")) ∧
      (Engine.init Context.sample).Lossless (.m1 (.setOnPost "ps1")) from
      ⟨fun i _ => outstanding_init _ i, trivial⟩) rfl)
    (fun _ => ⟨200, []⟩) (fun _ => show 200 ≤ 200 ∧ 200 < 300 by decide) 10 hn⟩

/-- Served with empty 2xx lists, the sample's node learns both lists, then uploads `ps1`'s
certificate and CHC, and records them. -/
example :
    let e := ((Engine.init Context.sample).step Env.failing (.m1 (.setOnPost "ps1"))).getD
      (Engine.init Context.sample)
    (e.serve Env.failing (fun _ => ⟨200, []⟩) 10).context.applicationServerStates.map
      (fun a => (a.currentCertificates, a.currentContentHostingConfigurations)) =
      [(some ["ps1:cert1"], some ["ps1"])] := by
  decide

end Msaf
