import Msaf.M3.Engine

/-!
# What the engine keeps, and where the sources lose it

Two invariants of §5 and §4.6, each proved over every reachable state of the engine under the
discipline that keeps it, and each shown broken by the sources where that discipline is not
kept.

**The laws.**

- `outstanding_le_one_of_idleAdmission`: when an M1 call is admitted only while nothing is
  under way for the nodes it drives, each node has at most one thing under way: an M3 request in
  flight, an event queued, or a timer armed. Replies, pushes and timers never add to what is
  under way for a node: a reply's event or a timer is replaced by the one request of the node's
  next step.
- `neverStuck_of_lossless`: when every reply reaches the work queue, each node an M1 call has
  reached that has pending work has a request in flight, an event queued, or a timer armed.
  Nodes no M1 call has reached are left out: configuration gives them pending work (both lists
  unknown) and nothing under way, and they stay so until a call reaches them.

**What the sources do instead.** `next_action_for_application_server` sends whenever the node
has work, whether or not a request of the node is in flight, and every M1 call ends in it: two
`set_on_post` calls put the same GET in flight twice (`setOnPost_twice_in_flight`).
`client_notify_cb` logs a transport error and frees the event of a failed push, and arms
nothing; the sources have no retry anywhere. The node keeps its work with nothing under way
(`failed_notify_strands_node`), which is why the second law asks for a lossless transport.

**What it does not establish.** The back-off's durations are time, which the engine does not
model: a timer is armed or not. The reply handler and the timer's expiry are modelled from the
spec (`handleM3Response`).
-/

namespace Msaf

/-! ## At most one request in flight -/

/-- Admit an M1 call only while nothing is under way for any node it drives. Replies, pushes,
the worker and timers are always admitted. -/
def Engine.IdleAdmission (e : Engine) : Input → Prop
  | .m1 op => ∀ i ∈ op.drives e.context, e.outstanding i = 0
  | _ => True

/-- At most one thing under way for each node, and each session on one node at most. -/
structure Engine.OneAtATime (e : Engine) : Prop where
  nodesWF : e.context.NodesWF
  outstanding_le : ∀ i, e.outstanding i ≤ 1

theorem Engine.Advances.oneAtATime {e e' : Engine} {i : Nat} (ha : e.Advances i e')
    (h : e.OneAtATime) : e'.OneAtATime where
  nodesWF p hp := h.nodesWF p (ha.sessions ▸ hp)
  outstanding_le j := by
    by_cases hij : i = j
    · subst hij
      exact ha.outstanding_le.trans (h.outstanding_le i)
    · exact (ha.outstanding_of_ne j hij) ▸ h.outstanding_le j

/-- An admitted M1 call adds one request at most to a node it drives, which had nothing under
way, and nothing elsewhere. -/
theorem oneAtATime_step {env : Env} {e e' : Engine} {inp : Input} (h : e.OneAtATime)
    (hal : e.IdleAdmission inp) (hs : e.step env inp = some e') : e'.OneAtATime := by
  cases inp with
  | m1 op =>
    obtain ⟨r, hr, hctx, hout⟩ := step_m1_outstanding hs
    refine ⟨hctx ▸ AssignOp.apply_nodesWF hr h.nodesWF, fun i => ?_⟩
    have hsent := AssignOp.apply_sent_le hr i
    have hcount := AssignOp.drives_count_le h.nodesWF op i
    rw [hout]
    by_cases hi : i ∈ op.drives e.context
    · have := hal i hi
      omega
    · rw [List.count_eq_zero_of_not_mem hi] at hsent
      have := h.outstanding_le i
      omega
  | notify k status response pushRv =>
    obtain ⟨hctx, s, -, hout⟩ := step_notify_outstanding hs
    refine ⟨hctx ▸ h.nodesWF, fun i => ?_⟩
    have := hout i
    have := h.outstanding_le i
    omega
  | dispatch =>
    obtain ⟨i, ha⟩ := step_dispatch_advances hs
    exact ha.oneAtATime h
  | expire k =>
    obtain ⟨i, ha⟩ := step_expire_advances hs
    exact ha.oneAtATime h

/-- Under idle admission, no node ever has two things under way: at most one M3 request in
flight, event queued or timer armed for it, and so never two requests in flight. -/
theorem outstanding_le_one_of_idleAdmission {env : Env} {e : Engine}
    (h : Engine.Reachable env Engine.IdleAdmission e) (i : Nat) : e.outstanding i ≤ 1 :=
  (Engine.Reachable.induct' Engine.OneAtATime
    (fun ctx hf => ⟨fun p hp => by simp [hf.2 p hp], fun i => by simp [outstanding_init]⟩)
    (fun _ _ _ hi hal hs => oneAtATime_step hi hal hs) h).outstanding_le i

theorem outstanding_le_one_of_idleAdmission_sample :
    (((Engine.init Context.sample).step Env.failing (.m1 (.setOnPost "ps1"))).getD
      (Engine.init Context.sample)).outstanding 0 ≤ 1 :=
  outstanding_le_one_of_idleAdmission (.step (.init Context.sample_fresh)
    (show (Engine.init Context.sample).IdleAdmission (.m1 (.setOnPost "ps1")) from
      fun i _ => outstanding_init _ i) rfl) 0

/-- The sources admit every M1 call: a second `set_on_post` while the first one's GET is in
flight sends the same GET again. -/
theorem setOnPost_twice_in_flight :
    ((Engine.run Env.failing [.m1 (.setOnPost "ps1"), .m1 (.setOnPost "ps2")]
        (Engine.init Context.sample)).map fun e =>
          e.inFlight.map fun s => (s.asState, s.request.method, s.request.uri)) =
      some [(0, "GET", "http://as.example.net:7777/3gpp-m3/v1/certificates"),
        (0, "GET", "http://as.example.net:7777/3gpp-m3/v1/certificates")] := by
  decide

/-! ## Never stuck -/

/-- A run in which the transport delivers every reply and each push onto the work queue
succeeds. -/
def Engine.Lossless (_ : Engine) : Input → Prop
  | .notify _ status _ pushRv => status = ogsOk ∧ pushRv = ogsOk
  | _ => True

/-- Every node an M1 call has reached that has pending work has something under way: a request
in flight, an event on the queue, or an armed timer. -/
def Engine.NeverStuck (e : Engine) : Prop :=
  ∀ i a, e.context.applicationServerStates[i]? = some a → a.HasPendingWork → ¬a.Untouched →
    0 < e.outstanding i

theorem Engine.Advances.neverStuck {e e' : Engine} {i : Nat} (ha : e.Advances i e')
    (h : e.NeverStuck) : e'.NeverStuck := by
  intro j a hj hp hu
  by_cases hij : i = j
  · subst hij
    exact ha.pending a hj hp
  · rw [ha.states_of_ne j hij] at hj
    exact (ha.outstanding_of_ne j hij) ▸ h j a hj hp hu

/-- A lossless step keeps every reached node with work busy: an M1 call sends to each node it
drives and leaves the others, a delivered reply becomes an event, and the worker and timers
advance their node. -/
theorem neverStuck_step {env : Env} {e e' : Engine} {inp : Input} (h : e.NeverStuck)
    (hal : e.Lossless inp) (hs : e.step env inp = some e') : e'.NeverStuck := by
  cases inp with
  | m1 op =>
    obtain ⟨r, hr, hctx, hout⟩ := step_m1_outstanding hs
    intro i a ha hp hu
    rw [hout]
    rw [hctx] at ha
    by_cases hi : i ∈ op.drives e.context
    · have hn : i < e.context.applicationServerStates.length :=
        AssignOp.apply_length hr ▸ (List.getElem?_eq_some_iff.mp ha).1
      obtain ⟨s, hs, hsi⟩ := AssignOp.apply_sent_mem hr hi hn
      have : 0 < r.2.countP (·.asState == i) := List.countP_pos_iff.mpr ⟨s, hs, by simp [hsi]⟩
      omega
    · rw [AssignOp.apply_states_of_not_mem hr hi] at ha
      have := h i a ha hp hu
      omega
  | notify k status response pushRv =>
    obtain ⟨hctx, s, -, hout⟩ := step_notify_outstanding hs
    intro i a ha hp hu
    have hl : status = ogsOk ∧ pushRv = ogsOk := hal
    have hi := hout i
    rw [if_neg fun h' => h'.2 hl] at hi
    have := h i a (hctx ▸ ha) hp hu
    omega
  | dispatch =>
    obtain ⟨i, ha⟩ := step_dispatch_advances hs
    exact ha.neverStuck h
  | expire k =>
    obtain ⟨i, ha⟩ := step_expire_advances hs
    exact ha.neverStuck h

/-- When the transport loses nothing, no reached node with pending work is left idle. -/
theorem neverStuck_of_lossless {env : Env} {e : Engine}
    (h : Engine.Reachable env Engine.Lossless e) : e.NeverStuck :=
  Engine.Reachable.induct' Engine.NeverStuck
    (fun _ hf _ a ha _ hu => absurd (hf.1 a (List.getElem?_mem ha)) hu)
    (fun _ _ _ hi hal hs => neverStuck_step hi hal hs) h

theorem neverStuck_of_lossless_sample :
    (((Engine.init Context.sample).step Env.failing (.m1 (.setOnPost "ps1"))).getD
      (Engine.init Context.sample)).NeverStuck :=
  neverStuck_of_lossless (.step (.init Context.sample_fresh)
    (show (Engine.init Context.sample).Lossless (.m1 (.setOnPost "ps1")) from trivial) rfl)

/-- `client_notify_cb` on a transport error or a failed push: the request leaves flight, and
nothing takes its place. -/
theorem step_notify_of_failed {env : Env} {e : Engine} {k : Nat} {status : Int}
    {response : M3Response} {pushRv : Int} (hfail : ¬(status = ogsOk ∧ pushRv = ogsOk)) :
    e.step env (.notify k status response pushRv) =
      e.inFlight[k]?.map fun _ => { e with inFlight := e.inFlight.eraseIdx k } := by
  have hq : ∀ s, (clientNotifyCb status response s pushRv e.workQueue).1 = e.workQueue := by
    intro s
    unfold clientNotifyCb
    split_ifs <;> simp_all
  simp only [Engine.step, hq]

/-- A transport error or a failed push on the only request of a node leaves the node with its
work and nothing under way: no request, no event, no timer. -/
theorem failed_notify_strands_node (status : Int) (response : M3Response) (pushRv : Int)
    (hfail : ¬(status = ogsOk ∧ pushRv = ogsOk)) :
    ∃ e, Engine.run Env.failing [.m1 (.setOnPost "ps1"), .notify 0 status response pushRv]
        (Engine.init Context.sample) = some e ∧
      (∃ a, e.context.applicationServerStates[0]? = some a ∧ a.HasPendingWork ∧ ¬a.Untouched) ∧
      e.outstanding 0 = 0 := by
  simp only [Engine.run, step_notify_of_failed hfail]
  exact ⟨_, rfl, ⟨_, rfl, by decide, by decide⟩, by decide⟩

theorem failed_notify_strands_node_transport_error :
    ¬(ogsError = ogsOk ∧ ogsOk = ogsOk) ∧
    ∃ e, Engine.run Env.failing [.m1 (.setOnPost "ps1"), .notify 0 ogsError ⟨0, []⟩ ogsOk]
        (Engine.init Context.sample) = some e ∧
      (∃ a, e.context.applicationServerStates[0]? = some a ∧ a.HasPendingWork ∧ ¬a.Untouched) ∧
      e.outstanding 0 = 0 :=
  ⟨by decide, failed_notify_strands_node ogsError ⟨0, []⟩ ogsOk (by decide)⟩

end Msaf
