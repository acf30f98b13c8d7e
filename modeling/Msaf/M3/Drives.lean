import Msaf.M3.Assignment

/-!
# Which nodes an M1 call drives

Each of the three M1 calls ends its work on a node with
`next_action_for_application_server`, and it always leaves the node with work to do
(a CHC upload at least), so every node it reaches gets exactly one request. This
module says which nodes those are (`AssignOp.drives`) and proves the accounting the
engine's invariants are built from.

**The laws.**

- `AssignOp.apply_sent_le`: a call sends node `i` at most one request per time it drives
  it, and nothing to a node it does not drive.
- `AssignOp.apply_sent_mem`: a live node the call drives does get a request.
- `AssignOp.apply_states_of_not_mem`: a node the call does not drive is left as it was.
-/

namespace Msaf

/-! ## Work left on a driven node -/

theorem assign_pending (ps : ProvisioningSession) (a : ApplicationServerState) :
    (a.assign ps).HasPendingWork := by
  simp [ApplicationServerState.HasPendingWork, ApplicationServerState.assign]

theorem reassign_pending (ps : ProvisioningSession) (a : ApplicationServerState) :
    (a.reassign ps).HasPendingWork := by
  simp [ApplicationServerState.HasPendingWork, ApplicationServerState.reassign]

/-- A node with pending work gets its request. -/
theorem nextActionAt_sends {env : Env} {i : Nat} {ctx : Context} {a : ApplicationServerState}
    (ha : ctx.applicationServerStates[i]? = some a) (hp : a.HasPendingWork) :
    ∃ s ∈ (nextActionAt env i ctx).2, s.asState = i := by
  obtain ⟨act, hact⟩ := Option.isSome_iff_exists.mp ((nextAction_isSome_iff a).mpr hp)
  exact ⟨⟨i, act, act.toRequest env ctx.provisioningSessions a.applicationServer⟩,
    by simp [nextActionAt, ha, hact], rfl⟩

/-- What `nextActionAt` sends for node `i'`: one request at most, and only for its own node. -/
theorem nextActionAt_countP_le (env : Env) (j : Nat) (ctx : Context) (i : Nat) :
    (nextActionAt env j ctx).2.countP (·.asState == i) ≤ if j = i then 1 else 0 := by
  obtain ⟨hlen, hall⟩ := nextActionAt_sent env j ctx
  split
  · exact (List.countP_le_length _).trans hlen
  · rename_i hji
    exact (List.countP_eq_zero.mpr fun s hs => by simp [hall s hs, hji]).le

/-! ## Loops -/

section Loop

variable (body : Nat → Context → Context × List Sent)

/-- A loop sends node `i` at most one request per visit of it, when its body does. -/
theorem forEachState_countP_le (i : Nat)
    (hsent : ∀ j ctx, (body j ctx).2.countP (·.asState == i) ≤ if j = i then 1 else 0) :
    ∀ (is : List Nat) (ctx : Context),
      (forEachState body is ctx).2.countP (·.asState == i) ≤ is.count i
  | [], _ => by simp [forEachState]
  | j :: is, ctx => by
    have ih := forEachState_countP_le i hsent is (body j ctx).1
    calc (forEachState body (j :: is) ctx).2.countP (·.asState == i)
        = (body j ctx).2.countP (·.asState == i) +
            (forEachState body is (body j ctx).1).2.countP (·.asState == i) := List.countP_append ..
      _ ≤ (if j = i then 1 else 0) + is.count i := Nat.add_le_add (hsent j ctx) ih
      _ = (j :: is).count i := by
        by_cases hji : j = i
        · subst hji
          simp [List.count_cons, Nat.add_comm]
        · simp [hji, List.count_cons]

/-- A loop that visits node `i` sends it a request when its body does, as long as every body
keeps `Q` and `Q` holds when the loop reaches `i`. -/
theorem forEachState_sent_mem (Q : Context → Prop) (hQ : ∀ j ctx, Q ctx → Q (body j ctx).1)
    (i : Nat) (hdrive : ∀ ctx, Q ctx → ∃ s ∈ (body i ctx).2, s.asState = i) :
    ∀ (is : List Nat) (ctx : Context), Q ctx → i ∈ is →
      ∃ s ∈ (forEachState body is ctx).2, s.asState = i
  | [], _, _, hi => absurd hi (List.not_mem_nil _)
  | j :: is, ctx, h, hi => by
    simp only [forEachState, List.mem_append]
    by_cases hji : j = i
    · subst hji
      obtain ⟨s, hs, hsi⟩ := hdrive ctx h
      exact ⟨s, .inl hs, hsi⟩
    · obtain ⟨s, hs, hsi⟩ := forEachState_sent_mem Q hQ i hdrive is _ (hQ j ctx h)
        ((List.mem_cons.mp hi).resolve_left (Ne.symm hji))
      exact ⟨s, .inr hs, hsi⟩

end Loop

/-! ## The nodes a call drives -/

/-- The nodes a call runs `next_action_for_application_server` on: the node `set_on_post`
stops at, the node `set` names, and the session's own list for `update`. -/
def AssignOp.drives (ctx : Context) : AssignOp → List Nat
  | .setOnPost _ => ctx.setOnPostTarget.toList
  | .set i _ => [i]
  | .update p =>
    ((findProvisioningSession ctx.provisioningSessions p).map
      (·.msafApplicationServerStateNodes)).getD []

/-- What a call sends: at most one request per time it drives a node, none elsewhere. -/
theorem AssignOp.apply_sent_le {env : Env} {op : AssignOp} {ctx : Context}
    {r : Context × List Sent} (h : op.apply env ctx = some r) (i : Nat) :
    r.2.countP (·.asState == i) ≤ (op.drives ctx).count i := by
  cases op with
  | setOnPost psId =>
    obtain ⟨ps, -, ⟨-, rfl⟩ | ⟨j, hj, rfl⟩⟩ := msafApplicationServerStateSetOnPost_eq_some h
    · simp
    · simpa [AssignOp.drives, hj, List.count_singleton'] using nextActionAt_countP_le env j _ i
  | set j psId =>
    obtain ⟨ps, -, _, -, rfl⟩ := msafApplicationServerStateSet_eq_some h
    simpa [AssignOp.drives, List.count_singleton'] using nextActionAt_countP_le env j _ i
  | update psId =>
    obtain ⟨ps, hps, rfl⟩ := msafApplicationServerStateUpdate_eq_some h
    simpa [AssignOp.drives, hps] using forEachState_countP_le (updateBody env ps) i
      (fun j _ => nextActionAt_countP_le env j _ i) ps.msafApplicationServerStateNodes ctx

/-- A live node a call drives gets a request from it. -/
theorem AssignOp.apply_sent_mem {env : Env} {op : AssignOp} {ctx : Context}
    {r : Context × List Sent} (h : op.apply env ctx = some r) {i : Nat}
    (hi : i ∈ op.drives ctx) (hn : i < ctx.applicationServerStates.length) :
    ∃ s ∈ r.2, s.asState = i := by
  obtain ⟨a, ha⟩ : ∃ a, ctx.applicationServerStates[i]? = some a :=
    ⟨_, List.getElem?_eq_getElem hn⟩
  cases op with
  | setOnPost psId =>
    obtain ⟨ps, -, ⟨hnone, -⟩ | ⟨j, hj, rfl⟩⟩ := msafApplicationServerStateSetOnPost_eq_some h
    · simp [AssignOp.drives, hnone] at hi
    · obtain rfl : i = j := by simpa [AssignOp.drives, hj] using hi
      exact nextActionAt_sends (by simp [ha]) (assign_pending ps a)
  | set j psId =>
    obtain ⟨ps, -, _, -, rfl⟩ := msafApplicationServerStateSet_eq_some h
    obtain rfl : i = j := List.mem_singleton.mp hi
    exact nextActionAt_sends (by simp [ha]) (assign_pending ps a)
  | update psId =>
    obtain ⟨ps, hps, rfl⟩ := msafApplicationServerStateUpdate_eq_some h
    refine forEachState_sent_mem (updateBody env ps)
      (fun c => c.applicationServerStates[i]?.isSome) (fun j c hc => ?_) i (fun c hc => ?_) _ ctx
      (by simp [ha]) (by simpa [AssignOp.drives, hps] using hi)
    · show (updateBody env ps j c).1.applicationServerStates[i]?.isSome
      rw [updateBody_states]; split <;> simp_all
    · obtain ⟨a', ha'⟩ := Option.isSome_iff_exists.mp hc
      exact nextActionAt_sends (by simp [ha']) (reassign_pending ps a')

/-- A node a call does not drive is left as it was. -/
theorem AssignOp.apply_states_of_not_mem {env : Env} {op : AssignOp} {ctx : Context}
    {r : Context × List Sent} (h : op.apply env ctx = some r) {i : Nat}
    (hi : i ∉ op.drives ctx) : r.1.applicationServerStates[i]? = ctx.applicationServerStates[i]? := by
  cases op with
  | setOnPost psId =>
    obtain ⟨ps, -, ⟨-, rfl⟩ | ⟨j, hj, rfl⟩⟩ := msafApplicationServerStateSetOnPost_eq_some h
    · rfl
    · have hji : j ≠ i := fun hji => hi (by simp [AssignOp.drives, hj, hji])
      simp [assignAt_states, hji]
  | set j psId =>
    obtain ⟨ps, -, _, -, rfl⟩ := msafApplicationServerStateSet_eq_some h
    have hji : j ≠ i := fun hji => hi (by simp [AssignOp.drives, hji])
    simp [assignAt_states, hji]
  | update psId =>
    obtain ⟨ps, hps, rfl⟩ := msafApplicationServerStateUpdate_eq_some h
    rw [forEachState_states _ _ (updateBody_states env ps),
      List.count_eq_zero_of_not_mem (by simpa [AssignOp.drives, hps] using hi)]
    simp

/-- A call never changes how many nodes there are. -/
theorem AssignOp.apply_length {env : Env} {op : AssignOp} {ctx : Context}
    {r : Context × List Sent} (h : op.apply env ctx = some r) :
    r.1.applicationServerStates.length = ctx.applicationServerStates.length := by
  cases op with
  | setOnPost psId =>
    obtain ⟨ps, -, ⟨-, rfl⟩ | ⟨j, -, rfl⟩⟩ := msafApplicationServerStateSetOnPost_eq_some h
    · rfl
    · simp [nextActionAt_fst]
  | set j psId =>
    obtain ⟨ps, -, _, -, rfl⟩ := msafApplicationServerStateSet_eq_some h
    simp [nextActionAt_fst]
  | update psId =>
    obtain ⟨ps, -, rfl⟩ := msafApplicationServerStateUpdate_eq_some h
    exact forEachState_inv _ (fun c => c.applicationServerStates.length = _)
      (fun j c hc => by simpa [updateBody, nextActionAt_fst] using hc) _ _ rfl

/-! ## Each session on one node at most -/

/-- Every session's list of nodes has at most one entry: `set_on_post` resets it to the one
node it has just assigned, and nothing else writes it. -/
def Context.NodesWF (ctx : Context) : Prop :=
  ∀ p ∈ ctx.provisioningSessions, p.msafApplicationServerStateNodes.length ≤ 1

theorem setOnPostBody_nodesWF (env : Env) (ps : ProvisioningSession) (j : Nat) (ctx : Context)
    (hw : ctx.NodesWF) : (setOnPostBody env ps j ctx).1.NodesWF := by
  intro q hq
  simp only [setOnPostBody, nextActionAt_fst, modifyState_sessions] at hq
  obtain ⟨q₀, hq₀, ⟨-, rfl⟩ | ⟨-, rfl⟩⟩ := mem_modifySession hq
  · simp
  · exact hw q hq₀

theorem AssignOp.apply_nodesWF {env : Env} {op : AssignOp} {ctx : Context}
    {r : Context × List Sent} (h : op.apply env ctx = some r) (hw : ctx.NodesWF) :
    r.1.NodesWF := by
  cases op with
  | setOnPost psId =>
    obtain ⟨ps, -, ⟨-, rfl⟩ | ⟨j, -, rfl⟩⟩ := msafApplicationServerStateSetOnPost_eq_some h
    · exact hw
    · exact setOnPostBody_nodesWF env ps j ctx hw
  | set j psId =>
    obtain ⟨ps, -, _, -, rfl⟩ := msafApplicationServerStateSet_eq_some h
    simpa [Context.NodesWF, nextActionAt_fst] using hw
  | update psId =>
    obtain ⟨ps, -, rfl⟩ := msafApplicationServerStateUpdate_eq_some h
    intro q hq
    rw [forEachState_sessions _ (updateBody_sessions env ps)] at hq
    exact hw q hq

/-- With every session on one node at most, a call drives each node at most once. -/
theorem AssignOp.drives_count_le {ctx : Context} (hw : ctx.NodesWF) (op : AssignOp) (i : Nat) :
    (op.drives ctx).count i ≤ 1 := by
  cases op with
  | setOnPost psId =>
    refine (List.count_le_length _ _).trans ?_
    simp only [AssignOp.drives]
    cases ctx.setOnPostTarget <;> simp
  | set j psId => exact (List.count_le_length _ _).trans (by simp [AssignOp.drives])
  | update psId =>
    simp only [AssignOp.drives]
    cases hps : findProvisioningSession ctx.provisioningSessions psId with
    | none => simp
    | some ps =>
      exact (List.count_le_length _ _).trans (hw ps (List.mem_of_find?_eq_some hps))

end Msaf
