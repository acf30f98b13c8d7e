import Mathlib.Data.List.Nodup
import Msaf.M3.NextAction

/-!
# Assigning sessions to Application Servers

The three public functions of `application-server-context.c` that an M1 change of a
provisioning session runs: `msaf_application_server_state_set_on_post` (a session's
first CHC), `msaf_application_server_state_update` (a changed CHC) and
`msaf_application_server_state_set` (a session placed on a given node). Each queues
uploads on AS-state nodes, records the assignment, and runs
`next_action_for_application_server` on each node it touched; what the three send is
returned beside the new context.

A loop over nodes is `forEachState`. Its law (`forEachState_states`) is stated once:
a body that rewrites only its own node by a fixed map leaves every node rewritten as
many times as the loop visits it. The loop of `set_on_post` is not one of these: it runs
its block on the first node of the first configured server and ends there, since the block
relinks the node's `ogs_lnode_t` into the session's list (`setOnPostLoop_eq`).

**The laws.**

- `msafApplicationServerStateUpdate_eq`: the spec lemma of an update. Every node
  on the session's list gets one CHC upload of the session per visit, and every one of
  its assigned entries now names the session.
- `assignment_agrees`: over runs of `set_on_post` and `set` from a store where no
  session is assigned yet, a node on a session's list has the session among its
  assigned ones.
-/

namespace Msaf

/-! ## The step on a node of the context -/

/-- A request as the engine sees it leave: the AS-state node it is for, the branch of
`next_action_for_application_server` that built it (what the reply handler reads back from the
request's method and path), and the request. -/
structure Sent where
  asState : Nat
  action : NextAction
  request : M3Request
  deriving DecidableEq, Repr

/-- `next_action_for_application_server` run on the node at position `i`. -/
def nextActionAt (env : Env) (i : Nat) (ctx : Context) : Context × List Sent :=
  (ctx.modifyState i fun a => (nextActionForApplicationServer env ctx.provisioningSessions a).1,
    match ctx.applicationServerStates[i]? with
    | none => []
    | some a => (nextAction a).toList.map fun act =>
        ⟨i, act, act.toRequest env ctx.provisioningSessions a.applicationServer⟩)

theorem nextActionAt_fst (env : Env) (i : Nat) (ctx : Context) :
    (nextActionAt env i ctx).1 = ctx.modifyState i ApplicationServerState.afterNextAction := by
  simp only [nextActionAt, nextActionForApplicationServer_fst]

/-- Every request `nextActionAt` sends is for its node, and it sends at most one. -/
theorem nextActionAt_sent (env : Env) (i : Nat) (ctx : Context) :
    (nextActionAt env i ctx).2.length ≤ 1 ∧ ∀ s ∈ (nextActionAt env i ctx).2, s.asState = i := by
  simp only [nextActionAt]
  split
  · simp
  · rename_i a _
    cases nextAction a <;> simp

/-! ## Loops over nodes -/

/-- `ogs_list_for_each` over the nodes at positions `is`, running `body` on each in turn and
collecting what each sends. -/
def forEachState (body : Nat → Context → Context × List Sent) :
    List Nat → Context → Context × List Sent
  | [], ctx => (ctx, [])
  | i :: is, ctx =>
    let r := body i ctx
    let rs := forEachState body is r.1
    (rs.1, r.2 ++ rs.2)

section Loop

variable (body : Nat → Context → Context × List Sent)

/-- An invariant of every body is an invariant of the loop. -/
theorem forEachState_inv (P : Context → Prop) (hbody : ∀ i ctx, P ctx → P (body i ctx).1) :
    ∀ (is : List Nat) (ctx : Context), P ctx → P (forEachState body is ctx).1
  | [], _, h => h
  | i :: is, ctx, h => forEachState_inv P hbody is _ (hbody i ctx h)

/-- What every body sends under an invariant of the bodies, the loop sends. -/
theorem forEachState_sent_forall (P : Context → Prop) (R : Sent → Prop)
    (hbody : ∀ i ctx, P ctx → P (body i ctx).1)
    (hsent : ∀ i ctx, P ctx → ∀ s ∈ (body i ctx).2, R s) :
    ∀ (is : List Nat) (ctx : Context), P ctx → ∀ s ∈ (forEachState body is ctx).2, R s
  | [], _, _, s, hs => absurd hs (List.not_mem_nil s)
  | i :: is, ctx, h, s, hs => by
    simp only [forEachState, List.mem_append] at hs
    exact hs.elim (hsent i ctx h s)
      (forEachState_sent_forall P R hbody hsent is _ (hbody i ctx h) s)

/-- A body that rewrites only node `i`, by the map `f i`, leaves node `j` rewritten once per
visit of the loop. -/
theorem forEachState_states (f : Nat → ApplicationServerState → ApplicationServerState)
    (hbody : ∀ i ctx j, (body i ctx).1.applicationServerStates[j]? =
      if i = j then f i <$> ctx.applicationServerStates[j]? else ctx.applicationServerStates[j]?) :
    ∀ (is : List Nat) (ctx : Context) (j : Nat),
      (forEachState body is ctx).1.applicationServerStates[j]? =
        (f j)^[is.count j] <$> ctx.applicationServerStates[j]?
  | [], _, _ => by simp [forEachState]
  | i :: is, ctx, j => by
    simp only [forEachState, forEachState_states f hbody is, hbody, List.count_cons, beq_iff_eq]
    by_cases hij : i = j
    · subst hij
      simp [Function.iterate_succ_apply']
    · simp [hij, Ne.symm hij]

/-- A body that leaves the sessions alone leaves them to the loop. -/
theorem forEachState_sessions
    (hbody : ∀ i ctx, (body i ctx).1.provisioningSessions = ctx.provisioningSessions) :
    ∀ (is : List Nat) (ctx : Context),
      (forEachState body is ctx).1.provisioningSessions = ctx.provisioningSessions := fun is ctx =>
  forEachState_inv body (fun c => c.provisioningSessions = ctx.provisioningSessions)
    (fun i c h => (hbody i c).trans h) is ctx rfl

end Loop

/-! ## The three functions -/

/-- What `set_on_post` and `set` queue on a node for a session: its certificates, its CHC,
and the assignment itself. -/
def ApplicationServerState.assign (ps : ProvisioningSession) (a : ApplicationServerState) :
    ApplicationServerState :=
  { a with
    uploadCertificates := a.uploadCertificates ++ msafRetrieveCertificatesFromMap ps
    uploadContentHostingConfigurations :=
      a.uploadContentHostingConfigurations ++ [ps.provisioningSessionId]
    assignedProvisioningSessions := a.assignedProvisioningSessions ++ [ps.provisioningSessionId] }

/-- The block `set_on_post` runs on node `i`, whose server has the first configured server's
hostname: the session's work queued and recorded there, the session's list of nodes reset to
this node alone, and the node's next step. The C block also sets the session's CHC to itself,
which changes nothing. -/
def setOnPostBody (env : Env) (ps : ProvisioningSession) (i : Nat) (ctx : Context) :
    Context × List Sent :=
  let ctx := ctx.modifyState i (ApplicationServerState.assign ps)
  let ctx := ctx.modifySession ps.provisioningSessionId
    fun q => { q with msafApplicationServerStateNodes := [i] }
  nextActionAt env i ctx

/-- The `ogs_list_for_each` of `set_on_post` over `application_server_states`, from the nodes
`is` on. It ends at the first node whose server has `msafAs`'s hostname: the block links that
node into the session's fresh list with `ogs_list_add`, through the same `ogs_lnode_t` that
keeps it on `application_server_states`, and so sets the node's `next` to NULL. -/
def setOnPostLoop (env : Env) (msafAs : ApplicationServer) (ps : ProvisioningSession) :
    List Nat → Context → Context × List Sent
  | [], ctx => (ctx, [])
  | i :: is, ctx =>
    match ctx.applicationServerStates[i]? with
    | none => (ctx, [])
    | some asState =>
      if asState.applicationServer.canonicalHostname = msafAs.canonicalHostname then
        setOnPostBody env ps i ctx
      else setOnPostLoop env msafAs ps is ctx

/-- `msaf_application_server_state_set_on_post`: `none` is the `ogs_assert` on an empty
server list, or a session id that is not in the store (the C callers pass a live session). -/
def msafApplicationServerStateSetOnPost (env : Env) (psId : String) (ctx : Context) :
    Option (Context × List Sent) := do
  let msafAs ← ctx.applicationServersList.head?
  let ps ← findProvisioningSession ctx.provisioningSessions psId
  return setOnPostLoop env msafAs ps (List.range ctx.applicationServerStates.length) ctx

/-- What `update` does to a node on the session's list: one more CHC upload of the session, and
every assigned entry pointed at the session (the C loop also sets the session's CHC to
itself, which changes nothing). -/
def ApplicationServerState.reassign (ps : ProvisioningSession) (a : ApplicationServerState) :
    ApplicationServerState :=
  { a with
    uploadContentHostingConfigurations :=
      a.uploadContentHostingConfigurations ++ [ps.provisioningSessionId]
    assignedProvisioningSessions := a.assignedProvisioningSessions.map
      fun _ => ps.provisioningSessionId }

/-- The loop body of `update` on node `i`. -/
def updateBody (env : Env) (ps : ProvisioningSession) (i : Nat) (ctx : Context) :
    Context × List Sent :=
  nextActionAt env i (ctx.modifyState i (ApplicationServerState.reassign ps))

/-- `msaf_application_server_state_update`: the loop over the session's own list of nodes. -/
def msafApplicationServerStateUpdate (env : Env) (psId : String) (ctx : Context) :
    Option (Context × List Sent) := do
  let ps ← findProvisioningSession ctx.provisioningSessions psId
  return forEachState (updateBody env ps) ps.msafApplicationServerStateNodes ctx

/-- `msaf_application_server_state_set`: queue the session's work on node `i` and record the
assignment there; `none` when `i` or the session is not live. The session's own list of nodes
is not touched. -/
def msafApplicationServerStateSet (env : Env) (i : Nat) (psId : String) (ctx : Context) :
    Option (Context × List Sent) := do
  let ps ← findProvisioningSession ctx.provisioningSessions psId
  let _ ← ctx.applicationServerStates[i]?
  return nextActionAt env i (ctx.modifyState i (ApplicationServerState.assign ps))

/-! ## Where the loop of `set_on_post` stops -/

/-- The node the loop of `set_on_post` runs its block on, among the nodes `is`: the first whose
server has `msafAs`'s hostname. -/
def firstServed (ctx : Context) (msafAs : ApplicationServer) : List Nat → Option Nat
  | [] => none
  | i :: is =>
    match ctx.applicationServerStates[i]?.map ApplicationServerState.applicationServer with
    | none => none
    | some s => if s.canonicalHostname = msafAs.canonicalHostname then some i
      else firstServed ctx msafAs is

/-- The node `set_on_post` runs its block on, if any: the first node of
`application_server_states` that the first configured server's hostname names. -/
def Context.setOnPostTarget (ctx : Context) : Option Nat :=
  ctx.applicationServersList.head?.bind fun msafAs =>
    firstServed ctx msafAs (List.range ctx.applicationServerStates.length)

/-- The loop runs the block once, on the node `firstServed` finds, or nowhere. -/
theorem setOnPostLoop_eq (env : Env) (msafAs : ApplicationServer) (ps : ProvisioningSession) :
    ∀ (is : List Nat) (ctx : Context), setOnPostLoop env msafAs ps is ctx =
      match firstServed ctx msafAs is with
      | none => (ctx, [])
      | some i => setOnPostBody env ps i ctx
  | [], _ => rfl
  | i :: is, ctx => by
    simp only [setOnPostLoop, firstServed]
    cases ctx.applicationServerStates[i]? with
    | none => rfl
    | some a =>
      simp only [Option.map_some']
      split_ifs
      · rfl
      · exact setOnPostLoop_eq env msafAs ps is ctx

theorem firstServed_live {ctx : Context} {msafAs : ApplicationServer} :
    ∀ {is : List Nat} {i : Nat}, firstServed ctx msafAs is = some i →
      ∃ a, ctx.applicationServerStates[i]? = some a
  | [], _, h => nomatch h
  | j :: is, i, h => by
    simp only [firstServed] at h
    cases ha : ctx.applicationServerStates[j]? with
    | none => simp [ha] at h
    | some a =>
      simp only [ha, Option.map_some'] at h
      split_ifs at h
      · exact ⟨a, Option.some_inj.mp h ▸ ha⟩
      · exact firstServed_live h

/-- `firstServed` reads only the nodes' servers. -/
theorem firstServed_congr {ctx ctx' : Context}
    (h : ∀ j : Nat, ctx'.applicationServerStates[j]?.map ApplicationServerState.applicationServer =
      ctx.applicationServerStates[j]?.map ApplicationServerState.applicationServer)
    (msafAs : ApplicationServer) : ∀ is, firstServed ctx' msafAs is = firstServed ctx msafAs is
  | [] => rfl
  | i :: is => by simp only [firstServed, h i, firstServed_congr h msafAs is]

/-- So does `setOnPostTarget`, with the configured servers. -/
theorem setOnPostTarget_congr {ctx ctx' : Context}
    (hs : ctx'.applicationServersList = ctx.applicationServersList)
    (h : ∀ j : Nat, ctx'.applicationServerStates[j]?.map ApplicationServerState.applicationServer =
      ctx.applicationServerStates[j]?.map ApplicationServerState.applicationServer) :
    ctx'.setOnPostTarget = ctx.setOnPostTarget := by
  have hmap : ctx'.applicationServerStates.map ApplicationServerState.applicationServer =
      ctx.applicationServerStates.map ApplicationServerState.applicationServer :=
    List.ext_getElem? fun j => by simpa only [List.getElem?_map] using h j
  have hlen := congrArg List.length hmap
  simp only [List.length_map] at hlen
  simp only [Context.setOnPostTarget, hs, hlen, firstServed_congr h]

theorem setOnPostTarget_live {ctx : Context} {i : Nat} (h : ctx.setOnPostTarget = some i) :
    ∃ a, ctx.applicationServerStates[i]? = some a := by
  obtain ⟨msafAs, -, hf⟩ := Option.bind_eq_some.mp h
  exact firstServed_live hf

/-! ## When the three functions run -/

section Inversion

variable {env : Env} {psId : String} {ctx : Context} {r : Context × List Sent}

/-- `set_on_post` runs its block on the node `setOnPostTarget` names, or changes nothing. -/
theorem msafApplicationServerStateSetOnPost_eq_some
    (h : msafApplicationServerStateSetOnPost env psId ctx = some r) :
    ∃ ps, findProvisioningSession ctx.provisioningSessions psId = some ps ∧
      (ctx.setOnPostTarget = none ∧ r = (ctx, []) ∨
        ∃ i, ctx.setOnPostTarget = some i ∧ setOnPostBody env ps i ctx = r) := by
  simp only [msafApplicationServerStateSetOnPost, Option.bind_eq_bind, Option.bind_eq_some,
    Option.pure_def, Option.some_inj, setOnPostLoop_eq] at h
  obtain ⟨msafAs, hhead, ps, hps, rfl⟩ := h
  refine ⟨ps, hps, ?_⟩
  simp only [Context.setOnPostTarget, hhead, Option.some_bind]
  cases firstServed ctx msafAs (List.range ctx.applicationServerStates.length) <;> simp

theorem msafApplicationServerStateSet_eq_some {i : Nat}
    (h : msafApplicationServerStateSet env i psId ctx = some r) :
    ∃ ps, findProvisioningSession ctx.provisioningSessions psId = some ps ∧
      ∃ a, ctx.applicationServerStates[i]? = some a ∧
        nextActionAt env i (ctx.modifyState i (ApplicationServerState.assign ps)) = r := by
  simpa only [msafApplicationServerStateSet, Option.bind_eq_bind, Option.bind_eq_some,
    Option.pure_def, Option.some_inj] using h

theorem msafApplicationServerStateUpdate_eq_some
    (h : msafApplicationServerStateUpdate env psId ctx = some r) :
    ∃ ps, findProvisioningSession ctx.provisioningSessions psId = some ps ∧
      forEachState (updateBody env ps) ps.msafApplicationServerStateNodes ctx = r := by
  simpa only [msafApplicationServerStateUpdate, Option.bind_eq_bind, Option.bind_eq_some,
    Option.pure_def, Option.some_inj] using h

end Inversion

end Msaf

namespace Msaf

/-! ## What the three functions do to the nodes -/

/-- The block of `set` and of `set_on_post` on node `i`, as the nodes see it. -/
theorem assignAt_states (env : Env) (ps : ProvisioningSession) (i : Nat) (ctx : Context)
    (j : Nat) :
    (nextActionAt env i (ctx.modifyState i (ApplicationServerState.assign ps))).1.applicationServerStates[j]? =
      if i = j then (fun a => (a.assign ps).afterNextAction) <$> ctx.applicationServerStates[j]?
      else ctx.applicationServerStates[j]? := by
  simp only [nextActionAt_fst, modifyState_states_getElem?]
  split <;> simp_all [Function.comp_def]

@[simp] theorem setOnPostBody_states (env : Env) (ps : ProvisioningSession) (i : Nat)
    (ctx : Context) : (setOnPostBody env ps i ctx).1.applicationServerStates =
      (nextActionAt env i (ctx.modifyState i (ApplicationServerState.assign ps))).1.applicationServerStates := by
  simp only [setOnPostBody, nextActionAt_fst]
  rfl

@[simp] theorem setOnPostBody_servers (env : Env) (ps : ProvisioningSession) (i : Nat)
    (ctx : Context) :
    (setOnPostBody env ps i ctx).1.applicationServersList = ctx.applicationServersList := by
  simp [setOnPostBody, nextActionAt_fst]

theorem updateBody_states (env : Env) (ps : ProvisioningSession) (i : Nat) (ctx : Context)
    (j : Nat) :
    (updateBody env ps i ctx).1.applicationServerStates[j]? =
      if i = j then (fun a => (a.reassign ps).afterNextAction) <$> ctx.applicationServerStates[j]?
      else ctx.applicationServerStates[j]? := by
  simp only [updateBody, nextActionAt_fst, modifyState_states_getElem?]
  split <;> simp_all [Function.comp_def]

theorem updateBody_sessions (env : Env) (ps : ProvisioningSession) (i : Nat) (ctx : Context) :
    (updateBody env ps i ctx).1.provisioningSessions = ctx.provisioningSessions := by
  simp [updateBody, nextActionAt_fst]

theorem findProvisioningSession_id {pss : List ProvisioningSession} {id : String}
    {ps : ProvisioningSession} (h : findProvisioningSession pss id = some ps) :
    ps.provisioningSessionId = id := by
  simpa using List.find?_some h

/-- The spec lemma of `update`: node `j` is rewritten once per time it is on the session's
list, and the store is left as it was. -/
theorem msafApplicationServerStateUpdate_eq (env : Env) (psId : String) (ctx : Context)
    (ps : ProvisioningSession) (hps : findProvisioningSession ctx.provisioningSessions psId = some ps) :
    ∃ r, msafApplicationServerStateUpdate env psId ctx = some r ∧
      r.1.provisioningSessions = ctx.provisioningSessions ∧
      ∀ j, r.1.applicationServerStates[j]? =
        (fun a => (a.reassign ps).afterNextAction)^[ps.msafApplicationServerStateNodes.count j] <$>
          ctx.applicationServerStates[j]? :=
  ⟨_, by simp [msafApplicationServerStateUpdate, hps],
    forEachState_sessions _ (updateBody_sessions env ps) _ _,
    forEachState_states _ _ (updateBody_states env ps) _ _⟩

/-- `k` visits of `update` on a node: `k` CHC uploads of the session, the certificate queue
untouched, and (after at least one) every assigned entry naming the session. -/
theorem reassign_iterate (ps : ProvisioningSession) (a : ApplicationServerState) (k : Nat) :
    ((fun a => (a.reassign ps).afterNextAction)^[k] a).uploadContentHostingConfigurations =
        a.uploadContentHostingConfigurations ++ List.replicate k ps.provisioningSessionId ∧
      ((fun a => (a.reassign ps).afterNextAction)^[k] a).uploadCertificates =
        a.uploadCertificates ∧
      ((fun a => (a.reassign ps).afterNextAction)^[k] a).assignedProvisioningSessions =
        if k = 0 then a.assignedProvisioningSessions
        else List.replicate a.assignedProvisioningSessions.length ps.provisioningSessionId := by
  induction k with
  | zero => simp
  | succ k ih =>
    rw [Function.iterate_succ_apply']
    generalize (fun a => (a.reassign ps).afterNextAction)^[k] a = b at ih ⊢
    obtain ⟨h1, h2, h3⟩ := ih
    simp only [ApplicationServerState.afterNextAction, ApplicationServerState.reassign, h1, h2, h3,
      List.replicate_succ', List.append_assoc, Nat.succ_ne_zero, if_false, List.map_const',
      true_and]
    split <;> simp

end Msaf

namespace Msaf

/-! ## Runs of M1 calls -/

/-- The M1-side calls of the M3 engine. -/
inductive AssignOp
  | setOnPost (psId : String)
  | set (i : Nat) (psId : String)
  | update (psId : String)
  deriving DecidableEq, Repr

/-- The C function each call is. -/
def AssignOp.apply (env : Env) : AssignOp → Context → Option (Context × List Sent)
  | .setOnPost psId => msafApplicationServerStateSetOnPost env psId
  | .set i psId => msafApplicationServerStateSet env i psId
  | .update psId => msafApplicationServerStateUpdate env psId

/-- The context after a sequence of calls, if each of them runs. -/
def AssignOp.run (env : Env) : List AssignOp → Context → Option Context
  | [], ctx => some ctx
  | op :: ops, ctx => (op.apply env ctx).bind fun r => AssignOp.run env ops r.1

/-- One configured server, `as.example.net:7777`, and two sessions, `ps1` with one certificate
and `ps2` with none, neither yet assigned. -/
def Context.sample : Context :=
  { msafApplicationServerAdd ⟨[], [], []⟩ "as.example.net" "" 7777 with
    provisioningSessions := [⟨"ps1", some "{}", ["cert1"], []⟩, ⟨"ps2", some "{}", [], []⟩] }

/-- The assigned sessions of every node after a run. -/
def AssignOp.assignedAfter (ops : List AssignOp) : Option (List (List String)) :=
  (AssignOp.run Env.failing ops Context.sample).map
    fun c => c.applicationServerStates.map (·.assignedProvisioningSessions)

/-- The CHC uploads queued on every node after a run. -/
def AssignOp.chcUploadsAfter (ops : List AssignOp) : Option (List (List String)) :=
  (AssignOp.run Env.failing ops Context.sample).map
    fun c => c.applicationServerStates.map (·.uploadContentHostingConfigurations)

end Msaf

namespace Msaf

/-! ## Both sides of an assignment -/

/-- The call `update`, which rewrites assigned entries rather than adding one. -/
def AssignOp.isUpdate : AssignOp → Bool
  | .update _ => true
  | _ => false

/-- The session a call is about. -/
def AssignOp.psId : AssignOp → String
  | .setOnPost p | .set _ p | .update p => p

/-- Whether a call adds an assigned entry on node `j`: `set` names its node, and `set_on_post`
reaches the first node whose server has the hostname of the first configured server. -/
def AssignOp.reaches (ctx : Context) (j : Nat) : AssignOp → Bool
  | .setOnPost _ => ctx.setOnPostTarget == some j
  | .set i _ => i == j
  | .update _ => false

/-- Every node on a session's list has the session among its assigned ones. -/
def Context.Agrees (ctx : Context) : Prop :=
  ∀ q ∈ ctx.provisioningSessions, ∀ i ∈ q.msafApplicationServerStateNodes,
    ∃ a, ctx.applicationServerStates[i]? = some a ∧
      q.provisioningSessionId ∈ a.assignedProvisioningSessions

/-- What one call does to the nodes: the configured servers and each node's server stay, and
node `j` gains the call's session exactly when the call reaches it. -/
structure AssignOp.Appends (op : AssignOp) (ctx ctx' : Context) : Prop where
  servers : ctx'.applicationServersList = ctx.applicationServersList
  server : ∀ j : Nat, ctx'.applicationServerStates[j]?.map ApplicationServerState.applicationServer =
    ctx.applicationServerStates[j]?.map ApplicationServerState.applicationServer
  assigned : ∀ (j : Nat) (a : ApplicationServerState), ctx.applicationServerStates[j]? = some a →
    ∃ a', ctx'.applicationServerStates[j]? = some a' ∧ a'.assignedProvisioningSessions =
      a.assignedProvisioningSessions ++ if op.reaches ctx j then [op.psId] else []

theorem AssignOp.reaches_congr {ctx ctx' : Context} {op : AssignOp} (j : Nat)
    (h : op.Appends ctx ctx') (op' : AssignOp) : op'.reaches ctx' j = op'.reaches ctx j := by
  cases op' <;> simp only [AssignOp.reaches, setOnPostTarget_congr h.servers h.server]

/-- A call that changes no node and reaches none appends. -/
theorem AssignOp.appends_self {op : AssignOp} {ctx : Context}
    (h : ∀ j, op.reaches ctx j = false) : op.Appends ctx ctx :=
  ⟨rfl, fun _ => rfl, fun j a ha => ⟨a, ha, by simp [h j]⟩⟩

/-- A call whose whole effect on the nodes is the block of `set` or `set_on_post` on node `i`
for the call's session appends: node `i` gains the session, and no other node changes. -/
theorem AssignOp.appends_of_assignAt {op : AssignOp} {ctx ctx' : Context}
    {ps : ProvisioningSession} {i : Nat} (hid : ps.provisioningSessionId = op.psId)
    (hreach : ∀ j, op.reaches ctx j = (i == j))
    (hservers : ctx'.applicationServersList = ctx.applicationServersList)
    (hst : ∀ j, ctx'.applicationServerStates[j]? =
      if i = j then (fun a => (a.assign ps).afterNextAction) <$> ctx.applicationServerStates[j]?
      else ctx.applicationServerStates[j]?) :
    op.Appends ctx ctx' where
  servers := hservers
  server j := by
    rw [hst]
    split <;> simp [Function.comp_def, ApplicationServerState.afterNextAction,
      ApplicationServerState.assign]
  assigned j a ha := by
    rw [hst, ha, hreach]
    split <;> simp_all [ApplicationServerState.afterNextAction, ApplicationServerState.assign]

theorem setOnPost_appends (env : Env) (psId : String) (ctx : Context) (r : Context × List Sent)
    (h : msafApplicationServerStateSetOnPost env psId ctx = some r) :
    (AssignOp.setOnPost psId).Appends ctx r.1 := by
  obtain ⟨ps, hps, ⟨hnone, rfl⟩ | ⟨i, hi, rfl⟩⟩ := msafApplicationServerStateSetOnPost_eq_some h
  · exact AssignOp.appends_self fun j => by simp [AssignOp.reaches, hnone]
  · exact AssignOp.appends_of_assignAt (findProvisioningSession_id hps)
      (fun j => by simp [AssignOp.reaches, hi]) (setOnPostBody_servers env ps i ctx)
      (fun j => (congrArg (·[j]?) (setOnPostBody_states env ps i ctx)).trans
        (assignAt_states env ps i ctx j))

theorem set_appends (env : Env) (i : Nat) (psId : String) (ctx : Context) (r : Context × List Sent)
    (h : msafApplicationServerStateSet env i psId ctx = some r) :
    (AssignOp.set i psId).Appends ctx r.1 ∧ r.1.provisioningSessions = ctx.provisioningSessions := by
  obtain ⟨ps, hps, _, _, rfl⟩ := msafApplicationServerStateSet_eq_some h
  exact ⟨AssignOp.appends_of_assignAt (findProvisioningSession_id hps) (fun _ => rfl)
    (by simp [nextActionAt_fst]) (assignAt_states env ps i ctx), by simp [nextActionAt_fst]⟩

/-- A node keeps the sessions it had. -/
theorem agrees_of_appends {op : AssignOp} {ctx ctx' : Context} (h : ctx.Agrees)
    (hop : op.Appends ctx ctx') (hs : ctx'.provisioningSessions = ctx.provisioningSessions) :
    ctx'.Agrees := by
  intro q hq i hi
  obtain ⟨a, ha, hqa⟩ := h q (hs ▸ hq) i hi
  obtain ⟨a', ha', heq⟩ := hop.assigned i a ha
  exact ⟨a', ha', heq ▸ List.mem_append_left _ hqa⟩

/-- The block of `set_on_post` keeps the two sides agreeing: the session's list is reset to
the node that has just recorded it. -/
theorem setOnPostBody_agrees (env : Env) (ps : ProvisioningSession) (i : Nat) (ctx : Context)
    (a : ApplicationServerState) (ha : ctx.applicationServerStates[i]? = some a)
    (h : ctx.Agrees) : (setOnPostBody env ps i ctx).1.Agrees := by
  simp only [setOnPostBody, nextActionAt_fst]
  intro q hq j hj
  obtain ⟨q₀, hq₀, ⟨hid, hq'⟩ | ⟨_, hq'⟩⟩ := mem_modifySession hq <;> subst hq'
  · obtain rfl : j = i := List.mem_singleton.mp hj
    refine ⟨(a.assign ps).afterNextAction, by simp [ha], ?_⟩
    simp [ApplicationServerState.afterNextAction, ApplicationServerState.assign, hid]
  · obtain ⟨b, hb, hqb⟩ := h q hq₀ j hj
    by_cases hij : i = j
    · subst hij
      obtain rfl : a = b := Option.some_inj.mp (ha.symm.trans hb)
      refine ⟨(a.assign ps).afterNextAction, by simp [ha], ?_⟩
      simp [ApplicationServerState.afterNextAction, ApplicationServerState.assign, hqb]
    · exact ⟨b, by simp [hij, hb], hqb⟩

theorem setOnPost_agrees (env : Env) (psId : String) (ctx : Context) (r : Context × List Sent)
    (h : msafApplicationServerStateSetOnPost env psId ctx = some r) (hc : ctx.Agrees) :
    r.1.Agrees := by
  obtain ⟨ps, -, ⟨-, rfl⟩ | ⟨i, hi, rfl⟩⟩ := msafApplicationServerStateSetOnPost_eq_some h
  · exact hc
  · obtain ⟨a, ha⟩ := setOnPostTarget_live hi
    exact setOnPostBody_agrees env ps i ctx a ha hc

/-- A call other than `update` appends, and keeps the two sides agreeing. -/
theorem AssignOp.apply_appends {env : Env} {op : AssignOp} {ctx : Context} {r : Context × List Sent}
    (hop : op.isUpdate = false) (h : op.apply env ctx = some r) :
    op.Appends ctx r.1 ∧ (ctx.Agrees → r.1.Agrees) := by
  cases op with
  | setOnPost psId => exact ⟨setOnPost_appends env psId ctx r h, setOnPost_agrees env psId ctx r h⟩
  | set i psId =>
    obtain ⟨happ, hs⟩ := set_appends env i psId ctx r h
    exact ⟨happ, fun hc => agrees_of_appends hc happ hs⟩
  | update => cases hop

/-- Over a run of calls other than `update`, agreement is kept, and each node's assigned
entries are its first ones plus one entry per call that reached it. -/
theorem AssignOp.run_appends {env : Env} : ∀ {ops : List AssignOp} {ctx₀ ctx : Context},
    (∀ op ∈ ops, op.isUpdate = false) → AssignOp.run env ops ctx₀ = some ctx →
      (ctx₀.Agrees → ctx.Agrees) ∧
      ∀ j a₀, ctx₀.applicationServerStates[j]? = some a₀ →
        ∃ a, ctx.applicationServerStates[j]? = some a ∧ ∀ p,
          a.assignedProvisioningSessions.count p = a₀.assignedProvisioningSessions.count p +
            ops.countP (fun op => op.reaches ctx₀ j && op.psId == p)
  | [], _, _, _, h => by
    cases h
    exact ⟨id, fun _ a₀ h => ⟨a₀, h, by simp⟩⟩
  | op :: ops, ctx₀, ctx, hops, h => by
    simp only [AssignOp.run, Option.bind_eq_some] at h
    obtain ⟨r, hr, hrest⟩ := h
    obtain ⟨happ, hagr⟩ := AssignOp.apply_appends (hops op (List.mem_cons_self _ _)) hr
    obtain ⟨ih1, ih2⟩ := AssignOp.run_appends (fun op h => hops op (List.mem_cons_of_mem _ h)) hrest
    refine ⟨ih1 ∘ hagr, fun j a₀ ha₀ => ?_⟩
    obtain ⟨a₁, ha₁, heq⟩ := happ.assigned j a₀ ha₀
    obtain ⟨a, ha, hcount⟩ := ih2 j a₁ ha₁
    refine ⟨a, ha, fun p => ?_⟩
    rw [hcount p, heq, List.countP_cons, List.count_append]
    simp only [AssignOp.reaches_congr j happ]
    by_cases hr : op.reaches ctx₀ j = true <;> by_cases hp : op.psId = p <;>
      simp [hr, hp, List.count_singleton', Nat.add_assoc, Nat.add_comm 1]

/-- From a store where no session is on any node's list yet, over every run of `set_on_post`
and `set`: a node on a session's list has the session among its assigned ones, and a node holds
each session as often as it did at the start plus once per call that reached it for that
session (`set` reaches its own node; `set_on_post` the first node whose server has the first
configured server's hostname, where its loop ends). -/
theorem assignment_agrees (env : Env) (ctx₀ ctx : Context) (ops : List AssignOp)
    (hfresh : ∀ q ∈ ctx₀.provisioningSessions, q.msafApplicationServerStateNodes = [])
    (hops : ∀ op ∈ ops, op.isUpdate = false) (hrun : AssignOp.run env ops ctx₀ = some ctx) :
    ctx.Agrees ∧ ∀ j a₀, ctx₀.applicationServerStates[j]? = some a₀ →
      ∃ a, ctx.applicationServerStates[j]? = some a ∧ ∀ p,
        a.assignedProvisioningSessions.count p = a₀.assignedProvisioningSessions.count p +
          ops.countP (fun op => op.reaches ctx₀ j && op.psId == p) := by
  obtain ⟨h1, h2⟩ := AssignOp.run_appends hops hrun
  exact ⟨h1 fun q hq i hi => by simp [hfresh q hq] at hi, h2⟩

theorem assignment_agrees_sample :
    ((AssignOp.run Env.failing [.setOnPost "ps1", .set 0 "ps2", .setOnPost "ps1"]
        Context.sample).getD Context.sample).Agrees ∧
      ∀ j a₀, Context.sample.applicationServerStates[j]? = some a₀ →
        ∃ a, ((AssignOp.run Env.failing [.setOnPost "ps1", .set 0 "ps2", .setOnPost "ps1"]
            Context.sample).getD Context.sample).applicationServerStates[j]? = some a ∧ ∀ p,
          a.assignedProvisioningSessions.count p = a₀.assignedProvisioningSessions.count p +
            [AssignOp.setOnPost "ps1", .set 0 "ps2", .setOnPost "ps1"].countP
              (fun op => op.reaches Context.sample j && op.psId == p) :=
  assignment_agrees Env.failing Context.sample _ _ (by decide) (by decide) rfl

/-- `set` records the session on the node but, unlike `set_on_post`, does not put the node on
the session's list: a later `update` of the session then misses the node, which gets no CHC
upload though it holds the session. Neither call looks for an entry already there, so a second
`set_on_post` lists the session twice. -/
theorem set_skips_session_link :
    ((AssignOp.run Env.failing [.set 0 "ps1"] Context.sample).map fun c =>
        (c.applicationServerStates.map (·.assignedProvisioningSessions),
          c.provisioningSessions.map (·.msafApplicationServerStateNodes))) =
      some ([["ps1"]], [[], []]) ∧
    ((AssignOp.run Env.failing [.setOnPost "ps1"] Context.sample).map fun c =>
        (c.applicationServerStates.map (·.assignedProvisioningSessions),
          c.provisioningSessions.map (·.msafApplicationServerStateNodes))) =
      some ([["ps1"]], [[0], []]) ∧
    AssignOp.chcUploadsAfter [.set 0 "ps1", .update "ps1"] = some [["ps1"]] ∧
    AssignOp.chcUploadsAfter [.setOnPost "ps1", .update "ps1"] = some [["ps1", "ps1"]] ∧
    AssignOp.assignedAfter [.setOnPost "ps1", .setOnPost "ps1"] = some [["ps1", "ps1"]] := by
  decide

/-- `update` points every assigned entry of each node on the session's list at the session,
whichever session the entry named before: the entries keep their number, not their names. -/
theorem update_assigned_all_session (env : Env) (psId : String) (ctx : Context)
    (ps : ProvisioningSession)
    (hps : findProvisioningSession ctx.provisioningSessions psId = some ps) :
    ∃ r, msafApplicationServerStateUpdate env psId ctx = some r ∧
      ∀ j a, ctx.applicationServerStates[j]? = some a → j ∈ ps.msafApplicationServerStateNodes →
        ∃ a', r.1.applicationServerStates[j]? = some a' ∧
          a'.assignedProvisioningSessions =
            List.replicate a.assignedProvisioningSessions.length psId := by
  obtain ⟨r, h1, -, hst⟩ := msafApplicationServerStateUpdate_eq env psId ctx ps hps
  refine ⟨r, h1, fun j a ha hj => ⟨_, by rw [hst j, ha]; rfl, ?_⟩⟩
  rw [(reassign_iterate ps a _).2.2, if_neg (List.count_pos_iff.mpr hj).ne',
    findProvisioningSession_id hps]

theorem update_assigned_all_session_sample :
    let ctx := (AssignOp.run Env.failing [.setOnPost "ps1", .setOnPost "ps2"] Context.sample).getD
      Context.sample
    findProvisioningSession ctx.provisioningSessions "ps1" = some ⟨"ps1", some "{}", ["cert1"], [0]⟩ ∧
    ∃ r, msafApplicationServerStateUpdate Env.failing "ps1" ctx = some r ∧
      ∀ j a, ctx.applicationServerStates[j]? = some a →
        j ∈ (⟨"ps1", some "{}", ["cert1"], [0]⟩ : ProvisioningSession).msafApplicationServerStateNodes →
        ∃ a', r.1.applicationServerStates[j]? = some a' ∧
          a'.assignedProvisioningSessions =
            List.replicate a.assignedProvisioningSessions.length "ps1" := by
  intro ctx
  have hps : findProvisioningSession ctx.provisioningSessions "ps1" =
      some ⟨"ps1", some "{}", ["cert1"], [0]⟩ := by decide
  exact ⟨hps, update_assigned_all_session Env.failing "ps1" ctx _ hps⟩

/-- Updating `ps1` on a node that holds `ps1` and `ps2` points both entries at `ps1`: `ps2` is
no longer assigned there. -/
theorem update_overwrites_assigned :
    AssignOp.assignedAfter [.setOnPost "ps1", .setOnPost "ps2"] = some [["ps1", "ps2"]] ∧
    AssignOp.assignedAfter [.setOnPost "ps1", .setOnPost "ps2", .update "ps1"] =
      some [["ps1", "ps1"]] := by
  decide

/-! ## Updating twice -/

/-- `update` queues the session's CHC once more per visit of each node on its list, whether or
not an upload of it is pending there already, and leaves the certificate queue alone: run
twice, it queues the CHC twice as often. -/
theorem msafApplicationServerStateUpdate_twice (env : Env) (psId : String) (ctx : Context)
    (ps : ProvisioningSession)
    (hps : findProvisioningSession ctx.provisioningSessions psId = some ps) :
    ∃ once twice, msafApplicationServerStateUpdate env psId ctx = some once ∧
      msafApplicationServerStateUpdate env psId once.1 = some twice ∧
      ∀ j, (once.1.applicationServerStates[j]?.map fun a =>
              (a.uploadCertificates, a.uploadContentHostingConfigurations)) =
            (ctx.applicationServerStates[j]?.map fun a => (a.uploadCertificates,
              a.uploadContentHostingConfigurations ++
                List.replicate (ps.msafApplicationServerStateNodes.count j) psId)) ∧
           (twice.1.applicationServerStates[j]?.map fun a =>
              (a.uploadCertificates, a.uploadContentHostingConfigurations)) =
            (ctx.applicationServerStates[j]?.map fun a => (a.uploadCertificates,
              a.uploadContentHostingConfigurations ++
                List.replicate (2 * ps.msafApplicationServerStateNodes.count j) psId)) := by
  obtain ⟨once, h1, hs1, hst1⟩ := msafApplicationServerStateUpdate_eq env psId ctx ps hps
  obtain ⟨twice, h2, -, hst2⟩ :=
    msafApplicationServerStateUpdate_eq env psId once.1 ps (hs1 ▸ hps)
  refine ⟨once, twice, h1, h2, fun j => ?_⟩
  rw [hst2, hst1]
  have hid := findProvisioningSession_id hps
  cases ctx.applicationServerStates[j]? with
  | none => simp
  | some a =>
    simp only [Option.map_eq_map, Option.map_some', ← Function.iterate_add_apply, ← Nat.two_mul,
      (reassign_iterate ps a _).1, (reassign_iterate ps a _).2.1, hid, and_self]

theorem msafApplicationServerStateUpdate_twice_sample :
    let ctx := (AssignOp.run Env.failing [.setOnPost "ps1"] Context.sample).getD Context.sample
    let ps : ProvisioningSession := ⟨"ps1", some "{}", ["cert1"], [0]⟩
    findProvisioningSession ctx.provisioningSessions "ps1" = some ps ∧
    ∃ once twice, msafApplicationServerStateUpdate Env.failing "ps1" ctx = some once ∧
      msafApplicationServerStateUpdate Env.failing "ps1" once.1 = some twice ∧
      ∀ j, (once.1.applicationServerStates[j]?.map fun a =>
              (a.uploadCertificates, a.uploadContentHostingConfigurations)) =
            (ctx.applicationServerStates[j]?.map fun a => (a.uploadCertificates,
              a.uploadContentHostingConfigurations ++
                List.replicate (ps.msafApplicationServerStateNodes.count j) "ps1")) ∧
           (twice.1.applicationServerStates[j]?.map fun a =>
              (a.uploadCertificates, a.uploadContentHostingConfigurations)) =
            (ctx.applicationServerStates[j]?.map fun a => (a.uploadCertificates,
              a.uploadContentHostingConfigurations ++
                List.replicate (2 * ps.msafApplicationServerStateNodes.count j) "ps1")) := by
  intro ctx ps
  have hps : findProvisioningSession ctx.provisioningSessions "ps1" = some ps := by decide
  exact ⟨hps, msafApplicationServerStateUpdate_twice Env.failing "ps1" ctx ps hps⟩

/-- A pending upload of `ps1` is queued again by each update: once `[ps1]`, then `[ps1, ps1]`,
then `[ps1, ps1, ps1]`. -/
theorem update_requeues_pending :
    AssignOp.chcUploadsAfter [.setOnPost "ps1"] = some [["ps1"]] ∧
    AssignOp.chcUploadsAfter [.setOnPost "ps1", .update "ps1"] = some [["ps1", "ps1"]] ∧
    AssignOp.chcUploadsAfter [.setOnPost "ps1", .update "ps1", .update "ps1"] =
      some [["ps1", "ps1", "ps1"]] := by
  decide

end Msaf
