import Msaf.M3.Progress

/-!
# Each node's cached lists mirror its Application Server

Per AS-state node the AF keeps the AS's lists of certificates and CHCs
(`current_certificates`, `current_content_hosting_configurations`), and
`next_action_for_application_server` uploads with `PUT` when the cached list holds the id and with
`POST` otherwise. That choice is right only if the cache is what the AS holds. This module puts a
strict Application Server behind each node, one that refuses a `POST` of a resource it holds (409)
and a `PUT` of one it lacks (404), and proves that under idle admission the AS accepts every
request the AF has in flight.

**The AS.** `AsContent.handle` answers a request as its method and path read (`NextAction.op`;
`toRequest_op` shows the request on the wire is the operation's method at the operation's path,
and `Msaf.M3.Wire` that it goes to the node's server).
A certificate is keyed by the resource its path names: the AF-unique id split by `strtok_r` and
joined again.

**The laws.** `requests_accepted`: in every state of a deployment reachable from a fresh context
whose sessions have AF-unique ids (non-empty, without `':'`), under idle admission and a transport
that delivers, the node's AS accepts every request in flight. `caches_mirror_servers`: the
invariant behind it (`Deployment.Inv`), each node's cached lists, with the reply queued for the
node applied, are its AS's lists. The invariant also says that every queued certificate id comes
back from its path unchanged, that nothing queues a delete or a purge, and that every reply on the
work queue came from its node's AS as a 2xx or a 503.

**What it does not establish.** Each node has an AS of its own: two nodes whose servers share an
AS would each keep their own copy of its lists. A reply the transport loses after the AS acted on
the request is not a step of the deployment.
-/

namespace Msaf

/-! ## A strict Application Server -/

/-- The two collections of the M3 API. -/
inductive M3Collection
  | certificates
  | contentHostingConfigurations
  deriving DecidableEq, Repr

/-- A collection's path below `/3gpp-m3/v1/`, and the prefix of its resources' paths. -/
def M3Collection.name : M3Collection → String
  | .certificates => "certificates"
  | .contentHostingConfigurations => "content-hosting-configurations"

def M3Collection.dir : M3Collection → String
  | .certificates => "certificates/"
  | .contentHostingConfigurations => "content-hosting-configurations/"

/-- A request as the AS reads its method and path: list a collection, create, replace or delete a
resource of one, or purge the cache of a CHC. -/
inductive M3Op
  | list (k : M3Collection)
  | create (k : M3Collection) (id : String)
  | replace (k : M3Collection) (id : String)
  | delete (k : M3Collection) (id : String)
  | purge (id : String)
  deriving DecidableEq, Repr

def M3Op.method : M3Op → String
  | .list _ => "GET"
  | .create _ _ => "POST"
  | .replace _ _ => "PUT"
  | .delete _ _ => "DELETE"
  | .purge _ => "POST"

def M3Op.path : M3Op → String
  | .list k => k.name
  | .create k id | .replace k id | .delete k id => k.dir ++ id
  | .purge id => "content-hosting-configurations/" ++ id ++ "/purge"

/-- What a branch of `next_action_for_application_server` asks of the AS. A certificate upload
names the re-joined id, as its path does. -/
def NextAction.op : NextAction → M3Op
  | .getCertificates => .list .certificates
  | .getContentHostingConfigurations => .list .contentHostingConfigurations
  | .uploadCertificate id found =>
    (if found then M3Op.replace else M3Op.create) .certificates (afUniqueRejoin id)
  | .uploadContentHostingConfiguration id found =>
    (if found then M3Op.replace else M3Op.create) .contentHostingConfigurations id
  | .deleteContentHostingConfiguration id => .delete .contentHostingConfigurations id
  | .deleteCertificate id => .delete .certificates id
  | .purgeContentHostingCache node => .purge node.state

/-- The request on the wire is the operation's method, at the operation's path. -/
theorem toRequest_op (env : Env) (pss : List ProvisioningSession) (msafAs : ApplicationServer)
    (act : NextAction) :
    (act.toRequest env pss msafAs).method = act.op.method ∧
      (act.toRequest env pss msafAs).uri = m3Root msafAs ++ act.op.path := by
  cases act with
  | uploadCertificate _ found | uploadContentHostingConfiguration _ found =>
    cases found <;> exact ⟨rfl, rfl⟩
  | _ => exact ⟨rfl, rfl⟩

/-- What an AS holds, as its M3 API lists it: the ids of its certificates and of its CHCs. -/
structure AsContent where
  certificates : List String
  contentHostingConfigurations : List String
  deriving DecidableEq, Repr

def AsContent.get (c : AsContent) : M3Collection → List String
  | .certificates => c.certificates
  | .contentHostingConfigurations => c.contentHostingConfigurations

def AsContent.set (c : AsContent) (l : List String) : M3Collection → AsContent
  | .certificates => { c with certificates := l }
  | .contentHostingConfigurations => { c with contentHostingConfigurations := l }

/-- A strict AS answering one request: a GET lists the collection; a POST creates a resource the
AS does not hold (409 if it does); a PUT replaces one it holds (404 if it does not); a DELETE
removes one it holds (404 otherwise); a purge needs its CHC (404 otherwise). -/
def AsContent.handle (c : AsContent) : M3Op → AsContent × M3Response
  | .list k => (c, ⟨200, c.get k⟩)
  | .create k id =>
    if id ∈ c.get k then (c, ⟨409, []⟩) else (c.set (c.get k ++ [id]) k, ⟨201, []⟩)
  | .replace k id => (c, ⟨if id ∈ c.get k then 200 else 404, []⟩)
  | .delete k id =>
    if id ∈ c.get k then (c.set ((c.get k).erase id) k, ⟨204, []⟩) else (c, ⟨404, []⟩)
  | .purge id => (c, ⟨if id ∈ c.contentHostingConfigurations then 200 else 404, []⟩)

@[simp] theorem AsContent.get_set_self (c : AsContent) (l : List String) (k : M3Collection) :
    (c.set l k).get k = l := by
  cases k <;> rfl

theorem AsContent.get_set_of_ne (c : AsContent) (l : List String) {k k' : M3Collection}
    (h : k ≠ k') : (c.set l k).get k' = c.get k' := by
  cases k <;> cases k' <;> first | rfl | exact absurd rfl h

@[simp] theorem AsContent.set_get (c : AsContent) (k : M3Collection) : c.set (c.get k) k = c := by
  cases k <;> rfl

/-- An upload that chose `PUT` exactly when the AS holds the id is accepted, and leaves the
collection with the id added once. -/
theorem handle_upload (c : AsContent) (k : M3Collection) (id : String) :
    (c.handle ((if decide (id ∈ c.get k) then M3Op.replace else M3Op.create) k id)).2.Ok ∧
      (c.handle ((if decide (id ∈ c.get k) then M3Op.replace else M3Op.create) k id)).1 =
        c.set (insertId id (c.get k)) k := by
  by_cases hid : id ∈ c.get k
  · rw [decide_eq_true hid, if_pos rfl]
    simp [AsContent.handle, hid, insertId, M3Response.Ok]
  · rw [decide_eq_false hid, if_neg Bool.false_ne_true]
    simp [AsContent.handle, hid, insertId, M3Response.Ok]

/-! ## What a reply does to the cache -/

/-- What the reply handler does to the event's node before the node's next step (§4.6). -/
def Event.effect (ev : Event) (a : ApplicationServerState) : ApplicationServerState :=
  if ev.response.Retriable then a
  else if 200 ≤ ev.response.status ∧ ev.response.status < 300 then
    ev.sent.action.onSuccess ev.response.ids a
  else ev.sent.action.onDrop a

theorem handleM3Response_eq (env : Env) (ev : Event) (e : Engine) :
    handleM3Response env ev e =
      if ev.response.Retriable then { e with retryTimers := e.retryTimers ++ [ev.sent.asState] }
      else Engine.nextActionFor env ev.sent.asState
        { e with context := e.context.modifyState ev.sent.asState ev.effect } := by
  unfold handleM3Response Event.effect
  split
  · rfl
  · simp only [*, if_false]

theorem effect_ok {ev : Event} (h : ev.response.Ok) (a : ApplicationServerState) :
    ev.effect a = ev.sent.action.onSuccess ev.response.ids a := by
  have : ¬ev.response.Retriable := fun hr => by
    unfold M3Response.Ok at h
    unfold M3Response.Retriable at hr
    omega
  simp only [Event.effect, this, if_false]
  exact if_pos h

/-- A node's cached lists. -/
def ApplicationServerState.caches (a : ApplicationServerState) :
    Option (List String) × Option (List String) :=
  (a.currentCertificates, a.currentContentHostingConfigurations)

/-- A node's upload queue for a collection. -/
def ApplicationServerState.uploads (a : ApplicationServerState) : M3Collection → List String
  | .certificates => a.uploadCertificates
  | .contentHostingConfigurations => a.uploadContentHostingConfigurations

@[simp] theorem afterNextAction_uploads (a : ApplicationServerState) (k : M3Collection) :
    a.afterNextAction.uploads k = a.uploads k := by
  cases k <;> rfl

/-- The ids a provisioning session has an AS hold, by collection: the AF-unique ids of its
certificates, and its own id as the id of its CHC. -/
def ProvisioningSession.provides (ps : ProvisioningSession) : M3Collection → List String
  | .certificates => msafRetrieveCertificatesFromMap ps
  | .contentHostingConfigurations => [ps.provisioningSessionId]

/-- `set_on_post` and `set` queue what the session provides. -/
theorem ApplicationServerState.assign_uploads (ps : ProvisioningSession) (a : ApplicationServerState)
    (k : M3Collection) : (a.assign ps).uploads k = a.uploads k ++ ps.provides k := by
  cases k <;> rfl

@[simp] theorem afterNextAction_caches (a : ApplicationServerState) :
    a.afterNextAction.caches = a.caches := rfl

/-- A node's cached lists are its AS's lists, where known. -/
def ApplicationServerState.Mirrors (a : ApplicationServerState) (c : AsContent) : Prop :=
  (∀ l, a.currentCertificates = some l → l = c.certificates) ∧
    ∀ l, a.currentContentHostingConfigurations = some l → l = c.contentHostingConfigurations

theorem ApplicationServerState.Mirrors.of_caches {a b : ApplicationServerState} {c : AsContent}
    (hm : a.Mirrors c) (h : b.caches = a.caches) : b.Mirrors c := by
  simp only [ApplicationServerState.caches, Prod.mk.injEq] at h
  exact ⟨fun l hl => hm.1 l (h.1 ▸ hl), fun l hl => hm.2 l (h.2 ▸ hl)⟩

/-- What the engine queues on a node when every session id is AF-unique: certificate ids that come
back from their path unchanged, and no delete or purge. -/
structure ApplicationServerState.Shaped (a : ApplicationServerState) : Prop where
  certIds : ∀ id ∈ a.uploadCertificates, afUniqueRejoin id = id
  deleteCertificates : a.deleteCertificates = []
  deleteContentHostingConfigurations : a.deleteContentHostingConfigurations = []
  purgeContentHostingCache : a.purgeContentHostingCache = []

/-- A node's step keeps it shaped: it only sets the client handle. -/
theorem ApplicationServerState.Shaped.afterNextAction {a : ApplicationServerState}
    (hs : a.Shaped) : a.afterNextAction.Shaped :=
  ⟨hs.1, hs.2, hs.3, hs.4⟩

/-- The AS accepts a request in step with a shaped node whose cache mirrors it, and the reply's
success leaves the cache mirroring the AS's new content: a GET caches the AS's list, and an
upload adds the id on both sides. -/
theorem answer_mirrors {a : ApplicationServerState} {c : AsContent} {act : NextAction}
    (hm : a.Mirrors c) (hs : a.Shaped) (hact : nextAction a = some act) :
    (c.handle act.op).2.Ok ∧
      (act.onSuccess (c.handle act.op).2.ids a).Mirrors (c.handle act.op).1 := by
  obtain ⟨hcerts, hchcs⟩ := hm
  obtain ⟨as, assigned, _ | certs, chcs, uc, uh, dh, dc, pc, client⟩ := a
  · obtain rfl : act = .getCertificates := (Option.some_inj.mp hact).symm
    exact ⟨show 200 ≤ 200 ∧ 200 < 300 by decide, fun l hl => (Option.some_inj.mp hl).symm, hchcs⟩
  cases chcs with
  | none =>
    obtain rfl : act = .getContentHostingConfigurations := (Option.some_inj.mp hact).symm
    exact ⟨show 200 ≤ 200 ∧ 200 < 300 by decide, hcerts, fun l hl => (Option.some_inj.mp hl).symm⟩
  | some chcs =>
    have hc := hcerts certs rfl
    have hh := hchcs chcs rfl
    subst hc hh
    cases uc with
    | cons id _ =>
      obtain rfl : act = .uploadCertificate id (decide (id ∈ c.certificates)) :=
        (Option.some_inj.mp hact).symm
      obtain ⟨hok, heq⟩ := handle_upload c .certificates id
      simp only [AsContent.get] at hok heq
      simp only [NextAction.op, hs.certIds id (List.mem_cons_self _ _)]
      rw [heq]
      exact ⟨hok, by simp [NextAction.onSuccess, AsContent.set], hchcs⟩
    | nil =>
      cases uh with
      | cons id _ =>
        obtain rfl : act = .uploadContentHostingConfiguration id
            (decide (id ∈ c.contentHostingConfigurations)) := (Option.some_inj.mp hact).symm
        obtain ⟨hok, heq⟩ := handle_upload c .contentHostingConfigurations id
        simp only [AsContent.get] at hok heq
        simp only [NextAction.op]
        rw [heq]
        exact ⟨hok, hcerts, by simp [NextAction.onSuccess, AsContent.set]⟩
      | nil =>
        obtain ⟨_, h₁, h₂, h₃⟩ := hs
        simp only at h₁ h₂ h₃
        subst h₁ h₂ h₃
        cases hact

/-! ## What an M1 call does to a node -/

/-- What an M1 call may do to a node: leave its cached lists and its delete and purge queues
alone, keep every queued upload, and add to its upload queues only ids that sessions of the
store `pss` provide. -/
structure ApplicationServerState.M1Change (pss : List ProvisioningSession)
    (a a' : ApplicationServerState) : Prop where
  currentCertificates : a'.currentCertificates = a.currentCertificates
  currentContentHostingConfigurations :
    a'.currentContentHostingConfigurations = a.currentContentHostingConfigurations
  deleteCertificates : a'.deleteCertificates = a.deleteCertificates
  deleteContentHostingConfigurations :
    a'.deleteContentHostingConfigurations = a.deleteContentHostingConfigurations
  purgeContentHostingCache : a'.purgeContentHostingCache = a.purgeContentHostingCache
  uploads : ∀ k, ∀ id ∈ a'.uploads k, id ∈ a.uploads k ∨ ∃ ps ∈ pss, id ∈ ps.provides k
  uploadsKept : ∀ k, ∀ id ∈ a.uploads k, id ∈ a'.uploads k

namespace ApplicationServerState.M1Change

variable {pss : List ProvisioningSession}

theorem refl (a : ApplicationServerState) : M1Change pss a a :=
  ⟨rfl, rfl, rfl, rfl, rfl, fun _ _ h => .inl h, fun _ _ h => h⟩

theorem trans {a b c : ApplicationServerState} (h₁ : M1Change pss a b) (h₂ : M1Change pss b c) :
    M1Change pss a c where
  currentCertificates := h₂.1.trans h₁.1
  currentContentHostingConfigurations := h₂.2.trans h₁.2
  deleteCertificates := h₂.3.trans h₁.3
  deleteContentHostingConfigurations := h₂.4.trans h₁.4
  purgeContentHostingCache := h₂.5.trans h₁.5
  uploads k id h := (h₂.uploads k id h).elim (h₁.uploads k id) .inr
  uploadsKept k id h := h₂.uploadsKept k id (h₁.uploadsKept k id h)

theorem assign {ps : ProvisioningSession} (hps : ps ∈ pss) (a : ApplicationServerState) :
    M1Change pss a (a.assign ps).afterNextAction where
  currentCertificates := rfl
  currentContentHostingConfigurations := rfl
  deleteCertificates := rfl
  deleteContentHostingConfigurations := rfl
  purgeContentHostingCache := rfl
  uploads k id h := by
    rw [afterNextAction_uploads, assign_uploads] at h
    exact (List.mem_append.mp h).imp_right fun h => ⟨ps, hps, h⟩
  uploadsKept k _ h := by cases k <;> exact List.mem_append_left _ h

theorem reassign {ps : ProvisioningSession} (hps : ps ∈ pss) (a : ApplicationServerState) :
    M1Change pss a (a.reassign ps).afterNextAction where
  currentCertificates := rfl
  currentContentHostingConfigurations := rfl
  deleteCertificates := rfl
  deleteContentHostingConfigurations := rfl
  purgeContentHostingCache := rfl
  uploads k id h := by
    cases k
    · exact .inl h
    · exact (List.mem_append.mp h).imp_right fun h => ⟨ps, hps, h⟩
  uploadsKept k _ h := by
    cases k
    · exact h
    · exact List.mem_append_left _ h

end ApplicationServerState.M1Change

/-- Each node an M1 call leaves is an M1 change of the node it found. -/
theorem AssignOp.apply_change {env : Env} {op : AssignOp} {ctx : Context}
    {r : Context × List Sent} (h : op.apply env ctx = some r) (j : Nat) :
    ∀ a', r.1.applicationServerStates[j]? = some a' →
      ∃ a, ctx.applicationServerStates[j]? = some a ∧ a.M1Change ctx.provisioningSessions a' := by
  have hassign : ∀ (ps : ProvisioningSession) (i : Nat),
      ps ∈ ctx.provisioningSessions → ∀ a',
        (nextActionAt env i (ctx.modifyState i (ApplicationServerState.assign ps))).1.applicationServerStates[j]? = some a' →
        ∃ a, ctx.applicationServerStates[j]? = some a ∧ a.M1Change ctx.provisioningSessions a' := by
    intro ps i hps a' ha'
    rw [assignAt_states] at ha'
    split at ha'
    · obtain ⟨a, ha, rfl⟩ := Option.map_eq_some'.mp ha'
      exact ⟨a, ha, .assign hps a⟩
    · exact ⟨a', ha', .refl a'⟩
  cases op with
  | setOnPost psId =>
    obtain ⟨ps, hps, ⟨-, rfl⟩ | ⟨i, -, rfl⟩⟩ := msafApplicationServerStateSetOnPost_eq_some h
    · exact fun a' ha' => ⟨a', ha', .refl a'⟩
    · intro a' ha'
      rw [setOnPostBody_states] at ha'
      exact hassign ps i (List.mem_of_find?_eq_some hps) a' ha'
  | set i psId =>
    obtain ⟨ps, hps, _, _, rfl⟩ := msafApplicationServerStateSet_eq_some h
    exact hassign ps i (List.mem_of_find?_eq_some hps)
  | update psId =>
    obtain ⟨ps, hps, rfl⟩ := msafApplicationServerStateUpdate_eq_some h
    intro a' ha'
    rw [forEachState_states _ _ (updateBody_states env ps)] at ha'
    obtain ⟨a, ha, rfl⟩ := Option.map_eq_some'.mp ha'
    exact ⟨a, ha, Function.Iterate.rec _
      (fun b hb => hb.trans (.reassign (List.mem_of_find?_eq_some hps) b)) (.refl a) _⟩

/-- An M1 call keeps every session's id and certificates. -/
theorem AssignOp.apply_sessions {env : Env} {op : AssignOp} {ctx : Context}
    {r : Context × List Sent} (h : op.apply env ctx = some r) :
    ∀ p ∈ r.1.provisioningSessions, ∃ q ∈ ctx.provisioningSessions,
      q.provisioningSessionId = p.provisioningSessionId ∧ q.certificates = p.certificates := by
  cases op with
  | setOnPost psId =>
    obtain ⟨ps, -, ⟨-, rfl⟩ | ⟨i, -, rfl⟩⟩ := msafApplicationServerStateSetOnPost_eq_some h
    · exact fun p hp => ⟨p, hp, rfl, rfl⟩
    · intro p hp
      simp only [setOnPostBody, nextActionAt_fst, modifyState_sessions] at hp
      obtain ⟨q, hq, ⟨-, rfl⟩ | ⟨-, rfl⟩⟩ := mem_modifySession hp <;> exact ⟨_, hq, rfl, rfl⟩
  | set i psId =>
    rw [(set_appends env i psId ctx r h).2]
    exact fun p hp => ⟨p, hp, rfl, rfl⟩
  | update psId =>
    obtain ⟨ps, -, rfl⟩ := msafApplicationServerStateUpdate_eq_some h
    rw [forEachState_sessions _ (updateBody_sessions env ps)]
    exact fun p hp => ⟨p, hp, rfl, rfl⟩

/-- Every session id is AF-unique: non-empty and without `':'`, as the AF mints them. -/
def Context.IdsAfUnique (ctx : Context) : Prop :=
  ∀ p ∈ ctx.provisioningSessions, p.provisioningSessionId ≠ "" ∧ ':' ∉ p.provisioningSessionId.data

instance (ctx : Context) : Decidable ctx.IdsAfUnique :=
  inferInstanceAs (Decidable (∀ p ∈ ctx.provisioningSessions,
    p.provisioningSessionId ≠ "" ∧ ':' ∉ p.provisioningSessionId.data))

/-- With AF-unique session ids, an M1 change keeps a node shaped. -/
theorem ApplicationServerState.M1Change.shaped {pss : List ProvisioningSession}
    {a a' : ApplicationServerState} (h : a.M1Change pss a')
    (hids : ∀ p ∈ pss, p.provisioningSessionId ≠ "" ∧ ':' ∉ p.provisioningSessionId.data)
    (hs : a.Shaped) : a'.Shaped where
  certIds id hid := by
    rcases h.uploads .certificates id hid with hid | ⟨ps, hps, hid⟩
    · exact hs.certIds id hid
    · obtain ⟨certId, -, rfl⟩ := List.mem_map.mp hid
      exact afUniqueRejoin_split (hids ps hps).1 (hids ps hps).2
  deleteCertificates := h.deleteCertificates.trans hs.deleteCertificates
  deleteContentHostingConfigurations :=
    h.deleteContentHostingConfigurations.trans hs.deleteContentHostingConfigurations
  purgeContentHostingCache := h.purgeContentHostingCache.trans hs.purgeContentHostingCache

/-! ## What a reply does to a node -/

theorem shaped_onSuccess (act : NextAction) (ids : List String) {a : ApplicationServerState}
    (hs : a.Shaped) : (act.onSuccess ids a).Shaped := by
  obtain ⟨hc, h₁, h₂, h₃⟩ := hs
  cases act <;> refine ⟨fun id hid => hc id ?_, ?_, ?_, ?_⟩ <;>
    simp_all [NextAction.onSuccess, List.mem_of_mem_tail]

theorem shaped_onDrop (act : NextAction) {a : ApplicationServerState} (hs : a.Shaped) :
    (act.onDrop a).Shaped := by
  obtain ⟨hc, h₁, h₂, h₃⟩ := hs
  cases act <;> refine ⟨fun id hid => hc id ?_, ?_, ?_, ?_⟩ <;>
    simp_all [NextAction.onDrop, List.mem_of_mem_tail]

/-- A reply's effect keeps a node shaped: it only ever pops a queue. -/
theorem Event.effect_shaped (ev : Event) {a : ApplicationServerState} (hs : a.Shaped) :
    (ev.effect a).Shaped := by
  unfold Event.effect
  split_ifs
  · exact hs
  · exact shaped_onSuccess _ _ hs
  · exact shaped_onDrop _ hs

/-- What a reply does to the cached lists depends on them alone. -/
theorem Event.effect_caches (ev : Event) {a b : ApplicationServerState} (h : a.caches = b.caches) :
    (ev.effect a).caches = (ev.effect b).caches := by
  simp only [ApplicationServerState.caches, Prod.mk.injEq] at h ⊢
  unfold Event.effect
  split_ifs
  · exact h
  all_goals cases ev.sent.action <;> simp [NextAction.onSuccess, NextAction.onDrop, h.1, h.2]

theorem ApplicationServerState.M1Change.caches {pss : List ProvisioningSession}
    {a a' : ApplicationServerState} (h : a.M1Change pss a') : a'.caches = a.caches := by
  simp [ApplicationServerState.caches, h.currentCertificates, h.currentContentHostingConfigurations]

/-! ## The node as its AS will see it -/

/-- Node `i` as it will be once the reply queued for it on `q`, if any, is handled: what the AS
has done and the node has not yet heard of. -/
def queuedView (q : List Event) (i : Nat) (a : ApplicationServerState) : ApplicationServerState :=
  match q.find? (·.sent.asState == i) with
  | some ev => ev.effect a
  | none => a

theorem queuedView_cons (ev : Event) (q : List Event) (i : Nat) (a : ApplicationServerState) :
    queuedView (ev :: q) i a = if ev.sent.asState = i then ev.effect a else queuedView q i a := by
  by_cases h : ev.sent.asState = i <;> simp [queuedView, List.find?_cons, h]

theorem queuedView_of_countP {q : List Event} {i : Nat}
    (h : q.countP (·.sent.asState == i) = 0) (a : ApplicationServerState) : queuedView q i a = a := by
  simp [queuedView, List.find?_eq_none.mpr (List.countP_eq_zero.mp h)]

theorem queuedView_append_of_ne (q : List Event) (ev : Event) {i : Nat} (h : ev.sent.asState ≠ i)
    (a : ApplicationServerState) : queuedView (q ++ [ev]) i a = queuedView q i a := by
  simp [queuedView, List.find?_append, h]

theorem queuedView_append_self {q : List Event} (ev : Event)
    (h : q.countP (·.sent.asState == ev.sent.asState) = 0) (a : ApplicationServerState) :
    queuedView (q ++ [ev]) ev.sent.asState a = ev.effect a := by
  simp [queuedView, List.find?_append, List.find?_eq_none.mpr (List.countP_eq_zero.mp h)]

theorem queuedView_caches (q : List Event) (i : Nat) {a b : ApplicationServerState}
    (h : a.caches = b.caches) : (queuedView q i a).caches = (queuedView q i b).caches := by
  unfold queuedView
  split
  · exact Event.effect_caches _ h
  · exact h

/-- A request in flight is the only thing under way for its node: no reply is queued for it. -/
theorem Engine.OneAtATime.queue_countP_of_inFlight {e : Engine} (ho : e.OneAtATime) {s : Sent}
    (hs : s ∈ e.inFlight) : e.workQueue.countP (·.sent.asState == s.asState) = 0 := by
  have h₁ := ho.outstanding_le s.asState
  have h₂ : 0 < e.inFlight.countP (·.asState == s.asState) :=
    List.countP_pos_iff.mpr ⟨s, hs, by simp⟩
  unfold Engine.outstanding at h₁
  omega

/-! ## The deployment -/

/-- The engine with a strict AS behind each node: `servers[i]` answers node `i`'s requests. -/
structure Deployment where
  engine : Engine
  servers : List AsContent
  deriving DecidableEq, Repr

/-- What an AS answers to a request: a busy AS answers 503 and does nothing; otherwise it handles
the request. -/
def AsContent.answer (c : AsContent) (busy : Bool) (act : NextAction) : AsContent × M3Response :=
  if busy then (c, ⟨503, []⟩) else c.handle act.op

/-- What can happen next in a deployment: an M1 call; the AS of the `k`-th request in flight
answering it (busy or not), its reply delivered and pushed onto the work queue; the worker taking
the next event; or the `k`-th armed back-off timer firing. -/
inductive DeploymentInput
  | m1 (op : AssignOp)
  | serve (k : Nat) (busy : Bool)
  | dispatch
  | expire (k : Nat)
  deriving DecidableEq, Repr

/-- One step of the deployment; `none` when the input cannot happen. A reply reaches the engine
only from the AS the request went to. -/
def Deployment.step (env : Env) (d : Deployment) : DeploymentInput → Option Deployment
  | .m1 op => (d.engine.step env (.m1 op)).map fun e => { d with engine := e }
  | .serve k busy => d.engine.inFlight[k]?.bind fun s => d.servers[s.asState]?.bind fun c =>
      let r := c.answer busy s.action
      (d.engine.step env (.notify k ogsOk r.2 ogsOk)).map fun e => ⟨e, d.servers.set s.asState r.1⟩
  | .dispatch => (d.engine.step env .dispatch).map fun e => { d with engine := e }
  | .expire k => (d.engine.step env (.expire k)).map fun e => { d with engine := e }

/-- Idle admission of M1 calls. -/
def Deployment.Admits (d : Deployment) : DeploymentInput → Prop
  | .m1 op => d.engine.IdleAdmission (.m1 op)
  | _ => True

/-- The deployments reachable from a fresh context whose session ids are AF-unique, with any
content on the ASs, by admitted steps. -/
inductive Deployment.Reachable (env : Env) : Deployment → Prop
  | init {ctx : Context} (servers : List AsContent) : ctx.Fresh → ctx.IdsAfUnique →
      Deployment.Reachable env ⟨Engine.init ctx, servers⟩
  | step {d d' : Deployment} {inp : DeploymentInput} : Deployment.Reachable env d → d.Admits inp →
      d.step env inp = some d' → Deployment.Reachable env d'

section Steps

variable {env : Env} {d d' : Deployment} {e' : Engine}

/-- An AS answering the `k`-th request in flight: the request leaves flight, its reply is queued,
and the AS's content becomes what the answer left. -/
theorem Deployment.step_serve {k : Nat} {busy : Bool} (h : d.step env (.serve k busy) = some d') :
    ∃ s c, d.engine.inFlight[k]? = some s ∧ d.servers[s.asState]? = some c ∧
      d'.engine =
        { d.engine with
          inFlight := d.engine.inFlight.eraseIdx k
          workQueue := d.engine.workQueue ++ [⟨s, (c.answer busy s.action).2⟩] } ∧
      d'.servers = d.servers.set s.asState (c.answer busy s.action).1 := by
  simp only [Deployment.step, Option.bind_eq_some, Option.map_eq_some'] at h
  obtain ⟨s, hs, c, hc, e, he, rfl⟩ := h
  simp only [Engine.step, hs, Option.map_some', Option.some_inj] at he
  subst he
  exact ⟨s, c, hs, hc, by simp [clientNotifyCb], rfl⟩

/-- Every deployment step is an engine step under idle admission and a transport that
delivers. -/
theorem Deployment.step_engine {inp : DeploymentInput} (hal : d.Admits inp)
    (h : d.step env inp = some d') :
    ∃ einp, (d.engine.IdleAdmission einp ∧ d.engine.Lossless einp) ∧
      d.engine.step env einp = some d'.engine := by
  cases inp with
  | serve k busy =>
    obtain ⟨s, c, hs, -, he, -⟩ := Deployment.step_serve h
    refine ⟨.notify k ogsOk (c.answer busy s.action).2 ogsOk, ⟨trivial, rfl, rfl⟩, ?_⟩
    simp [Engine.step, hs, he, clientNotifyCb]
  | m1 | dispatch | expire =>
    obtain ⟨e, he, rfl⟩ := Option.map_eq_some'.mp h
    exact ⟨_, ⟨by exact hal, by exact trivial⟩, he⟩

/-- A reachable deployment's engine is reachable under idle admission and a transport that
delivers. -/
theorem Deployment.Reachable.engine (h : d.Reachable env) :
    Engine.Reachable env (fun e inp => e.IdleAdmission inp ∧ e.Lossless inp) d.engine := by
  induction h with
  | init _ hf _ => exact .init hf
  | step _ hal hs ih =>
    obtain ⟨_, hadm, he⟩ := Deployment.step_engine hal hs
    exact .step ih hadm he

/-- A reachable deployment's engine keeps its requests in step, one thing under way per node. -/
theorem Deployment.Reachable.paired (h : d.Reachable env) :
    d.engine.Paired ∧ d.engine.OneAtATime :=
  (h.engine.mono fun _ _ hal => hal.1).paired

/-- An AS's answer followed by the worker's turn keeps a deployment reachable. -/
theorem Deployment.Reachable.serve_dispatch {d₁ : Deployment} {k : Nat} {busy : Bool}
    (h : d.Reachable env) (hs : d.step env (.serve k busy) = some d₁)
    (hd : d₁.step env .dispatch = some d') : d'.Reachable env :=
  .step (.step h (show d.Admits (.serve k busy) from trivial) hs)
    (show d₁.Admits .dispatch from trivial) hd

/-! ## The mirror invariant -/

/-- What holds of every reachable deployment: session ids stay AF-unique, every node is shaped,
every node, with the reply queued for it applied, mirrors its AS, and every reply on the work
queue came from its node's AS, as a 2xx or a 5xx. -/
structure Deployment.Inv (d : Deployment) : Prop where
  ids : d.engine.context.IdsAfUnique
  shaped : ∀ (i : Nat) (a : ApplicationServerState),
    d.engine.context.applicationServerStates[i]? = some a → a.Shaped
  mirrored : ∀ (i : Nat) (a : ApplicationServerState) (c : AsContent),
    d.engine.context.applicationServerStates[i]? = some a →
    d.servers[i]? = some c → (queuedView d.engine.workQueue i a).Mirrors c
  answered : ∀ ev ∈ d.engine.workQueue,
    ev.sent.asState < d.servers.length ∧ (ev.response.Ok ∨ ev.response.Retriable)

theorem Deployment.inv_init {ctx : Context} (hf : ctx.Fresh) (hids : ctx.IdsAfUnique)
    (servers : List AsContent) : Deployment.Inv ⟨Engine.init ctx, servers⟩ where
  ids := hids
  shaped i a ha := by
    obtain ⟨-, -, hu, -, hdh, hdc, hp⟩ := hf.1 a (List.getElem?_mem ha)
    exact ⟨fun id hid => by simp [hu] at hid, hdc, hdh, hp⟩
  mirrored i a c ha _ := by
    obtain ⟨h₁, h₂, -⟩ := hf.1 a (List.getElem?_mem ha)
    exact ⟨fun l hl => by simp [queuedView, Engine.init, h₁] at hl,
      fun l hl => by simp [queuedView, Engine.init, h₂] at hl⟩
  answered _ h := absurd h (List.not_mem_nil _)

/-- A step that leaves the ASs alone and queues no reply keeps the invariant when each node it
leaves is shaped if the node it found was, and the node's view has the cached lists of the old
one's. -/
theorem Deployment.Inv.of_views (hi : d.Inv) (hids : d'.engine.context.IdsAfUnique)
    (hsv : d'.servers = d.servers) (hq : ∀ ev ∈ d'.engine.workQueue, ev ∈ d.engine.workQueue)
    (hnodes : ∀ i a', d'.engine.context.applicationServerStates[i]? = some a' →
      ∃ a, d.engine.context.applicationServerStates[i]? = some a ∧ (a.Shaped → a'.Shaped) ∧
        (queuedView d'.engine.workQueue i a').caches = (queuedView d.engine.workQueue i a).caches) :
    d'.Inv where
  ids := hids
  shaped i a' ha' := by
    obtain ⟨a, ha, hs, -⟩ := hnodes i a' ha'
    exact hs (hi.shaped i a ha)
  mirrored i a' c ha' hc := by
    obtain ⟨a, ha, -, hcaches⟩ := hnodes i a' ha'
    exact (hi.mirrored i a c ha (hsv ▸ hc)).of_caches hcaches
  answered ev h := hsv ▸ hi.answered ev (hq ev h)

/-- An M1 call keeps the invariant: it changes no cached list and queues certificates of
sessions with AF-unique ids. -/
theorem Deployment.inv_m1 {op : AssignOp} (hi : d.Inv) (h : d.engine.step env (.m1 op) = some e') :
    Deployment.Inv ⟨e', d.servers⟩ := by
  obtain ⟨r, hr, rfl⟩ := Option.map_eq_some'.mp h
  refine hi.of_views (fun p hp => ?_) rfl (fun _ h => h) fun i a' ha' => ?_
  · obtain ⟨q, hq, hid, -⟩ := AssignOp.apply_sessions hr p hp
    exact hid ▸ hi.ids q hq
  · obtain ⟨a, ha, hch⟩ := AssignOp.apply_change hr i a' ha'
    exact ⟨a, ha, hch.shaped hi.ids, queuedView_caches _ i hch.caches⟩

/-- A timer firing keeps the invariant: its node's step changes nothing the AS sees. -/
theorem Deployment.inv_expire {k : Nat} (hi : d.Inv) (h : d.engine.step env (.expire k) = some e') :
    Deployment.Inv ⟨e', d.servers⟩ := by
  obtain ⟨i, -, rfl⟩ := Option.map_eq_some'.mp h
  refine hi.of_views (fun p hp => hi.ids p (by simpa using hp)) rfl (fun _ h => h)
    fun j a' ha' => ?_
  rw [nextActionFor_states_getElem?] at ha'
  split at ha'
  · obtain ⟨a, ha, rfl⟩ := Option.map_eq_some'.mp ha'
    exact ⟨a, ha, ApplicationServerState.Shaped.afterNextAction, queuedView_caches _ j rfl⟩
  · exact ⟨a', ha', id, rfl⟩

/-- The worker handling a reply keeps the invariant: the reply's effect is what the node's view
already showed, and no other reply is queued for the node. -/
theorem Deployment.inv_dispatch (hi : d.Inv) (ho : d.engine.OneAtATime)
    (h : d.engine.step env .dispatch = some e') : Deployment.Inv ⟨e', d.servers⟩ := by
  obtain ⟨ev, rest, hq, rfl⟩ := step_dispatch_eq h
  have hone : rest.countP (·.sent.asState == ev.sent.asState) = 0 := by
    have := ho.outstanding_le ev.sent.asState
    simp only [Engine.outstanding, hq, List.countP_cons, beq_self_eq_true, if_true] at this
    omega
  have hself : ∀ a, queuedView d.engine.workQueue ev.sent.asState a = ev.effect a := fun a => by
    rw [hq, queuedView_cons, if_pos rfl]
  have hother : ∀ j a, ev.sent.asState ≠ j →
      queuedView rest j a = queuedView d.engine.workQueue j a := fun j a hj => by
    rw [hq, queuedView_cons, if_neg hj]
  have hrest : ∀ ev' ∈ rest, ev' ∈ d.engine.workQueue := fun _ h => hq ▸ List.mem_cons_of_mem _ h
  rw [handleM3Response_eq]
  split_ifs with hr
  · -- a 5xx: the AS did nothing, and the node's view is the node
    refine hi.of_views hi.ids rfl hrest fun j a ha => ⟨a, ha, id, ?_⟩
    by_cases hj : ev.sent.asState = j
    · subst hj
      simp only [queuedView_of_countP hone, hself, Event.effect, if_pos hr]
    · exact congrArg _ (hother j a hj)
  · -- the node takes the reply's effect and its next step
    refine hi.of_views (fun p hp => hi.ids p (by simpa using hp)) rfl hrest fun j a' ha' => ?_
    rw [nextActionFor_states_getElem?] at ha'
    by_cases hj : ev.sent.asState = j
    · subst hj
      simp only [if_true, modifyState_states_getElem?] at ha'
      obtain ⟨a, ha, rfl⟩ : ∃ a, d.engine.context.applicationServerStates[ev.sent.asState]? = some a ∧
          (ev.effect a).afterNextAction = a' := by
        simpa using ha'
      refine ⟨a, ha, fun hs => (ev.effect_shaped hs).afterNextAction, ?_⟩
      simp only [nextActionFor_workQueue, queuedView_of_countP hone, hself, afterNextAction_caches]
    · simp only [if_neg hj, modifyState_states_getElem?] at ha'
      exact ⟨a', ha', id, congrArg _ (hother j a' hj)⟩

/-- A request in flight is in step with its node, which mirrors the request's AS: nothing is
queued for the node. -/
theorem Deployment.Inv.mirrors_of_inFlight (hi : d.Inv) (hp : d.engine.Paired)
    (ho : d.engine.OneAtATime) {s : Sent} (hs : s ∈ d.engine.inFlight) {c : AsContent}
    (hc : d.servers[s.asState]? = some c) :
    ∃ a, d.engine.context.applicationServerStates[s.asState]? = some a ∧
      nextAction a = some s.action ∧ a.Mirrors c := by
  obtain ⟨a, ha, hact⟩ := hp s (List.mem_append_left _ hs)
  refine ⟨a, ha, hact, ?_⟩
  have hm := hi.mirrored _ a c ha hc
  rwa [queuedView_of_countP (ho.queue_countP_of_inFlight hs)] at hm

/-- An AS answering a request keeps the invariant: the node had no reply queued, so its view was
the node itself, in step with the request; the reply now queued is a 2xx or a 503 and shows what
the AS did. -/
theorem Deployment.inv_serve {k : Nat} {busy : Bool} (hi : d.Inv) (hp : d.engine.Paired)
    (ho : d.engine.OneAtATime) (h : d.step env (.serve k busy) = some d') : d'.Inv := by
  obtain ⟨s, c, hs, hc, he, hsv⟩ := Deployment.step_serve h
  have hmem := List.getElem?_mem hs
  obtain ⟨a, ha, hact, hm⟩ := hi.mirrors_of_inFlight hp ho hmem hc
  have hnone := ho.queue_countP_of_inFlight hmem
  have hanswer : ((c.answer busy s.action).2.Ok ∨ (c.answer busy s.action).2.Retriable) ∧
      (Event.effect ⟨s, (c.answer busy s.action).2⟩ a).Mirrors (c.answer busy s.action).1 := by
    cases busy
    · have hok := answer_mirrors hm (hi.shaped _ a ha) hact
      rw [effect_ok hok.1]
      exact ⟨.inl hok.1, hok.2⟩
    · refine ⟨.inr (show 500 ≤ 503 ∧ 503 < 600 by decide), ?_⟩
      simpa [AsContent.answer, Event.effect, M3Response.Retriable] using hm
  have hctx : d'.engine.context = d.engine.context := by rw [he]
  have hq : d'.engine.workQueue = d.engine.workQueue ++ [⟨s, (c.answer busy s.action).2⟩] := by
    rw [he]
  refine ⟨hctx ▸ hi.ids, hctx ▸ hi.shaped, fun j a' c' ha' hc' => ?_, fun ev hev => ?_⟩
  · rw [hctx] at ha'
    rw [hsv] at hc'
    rw [hq]
    by_cases hj : s.asState = j
    · subst hj
      obtain rfl : a' = a := Option.some_inj.mp (ha'.symm.trans ha)
      obtain rfl : (c.answer busy s.action).1 = c' := by
        simpa [List.getElem?_set_self', hc] using hc'
      exact queuedView_append_self ⟨s, _⟩ hnone _ ▸ hanswer.2
    · rw [List.getElem?_set_ne hj] at hc'
      rw [queuedView_append_of_ne _ ⟨s, _⟩ hj]
      exact hi.mirrored j a' c' ha' hc'
  · rw [hq, List.mem_append, List.mem_singleton] at hev
    rw [hsv, List.length_set]
    rcases hev with hev | rfl
    · exact hi.answered ev hev
    · exact ⟨(List.getElem?_eq_some_iff.mp hc).1, hanswer.1⟩

end Steps

/-- Every reachable deployment keeps the mirror invariant. -/
theorem Deployment.Reachable.inv {env : Env} {d : Deployment} (h : d.Reachable env) : d.Inv := by
  induction h with
  | init servers hf hids => exact Deployment.inv_init hf hids servers
  | @step d d' inp hr _ hs ih =>
    obtain ⟨hp, ho⟩ := hr.paired
    cases inp with
    | m1 op =>
      obtain ⟨e, he, rfl⟩ := Option.map_eq_some'.mp hs
      exact Deployment.inv_m1 ih he
    | serve k busy => exact Deployment.inv_serve ih hp ho hs
    | dispatch =>
      obtain ⟨e, he, rfl⟩ := Option.map_eq_some'.mp hs
      exact Deployment.inv_dispatch ih ho he
    | expire k =>
      obtain ⟨e, he, rfl⟩ := Option.map_eq_some'.mp hs
      exact Deployment.inv_expire ih he

/-! ## The laws -/

/-- In every reachable deployment, each node's cached lists, once the reply queued for the node is
handled, are its AS's lists. -/
theorem caches_mirror_servers {env : Env} {d : Deployment} (h : d.Reachable env) {i : Nat}
    {a : ApplicationServerState} (ha : d.engine.context.applicationServerStates[i]? = some a)
    {c : AsContent} (hc : d.servers[i]? = some c) : (queuedView d.engine.workQueue i a).Mirrors c :=
  h.inv.mirrored i a c ha hc

theorem caches_mirror_servers_sample :
    let d₀ : Deployment := ⟨Engine.init Context.sample, [⟨["ps1:cert1"], []⟩]⟩
    let d₁ := (d₀.step Env.failing (.m1 (.setOnPost "ps1"))).getD d₀
    let d := (d₁.step Env.failing (.serve 0 false)).getD d₁
    ∃ a, d.engine.context.applicationServerStates[0]? = some a ∧
      d.servers[0]? = some ⟨["ps1:cert1"], []⟩ ∧
      (queuedView d.engine.workQueue 0 a).Mirrors ⟨["ps1:cert1"], []⟩ := by
  intro d₀ d₁ d
  obtain ⟨a, ha⟩ := Option.isSome_iff_exists.mp
    (show (d.engine.context.applicationServerStates[0]?).isSome by decide)
  have hc : d.servers[0]? = some ⟨["ps1:cert1"], []⟩ := by decide
  have h₁ : d₁.Reachable Env.failing := .step (.init _ Context.sample_fresh (by decide))
    (show d₀.Admits (.m1 (.setOnPost "ps1")) from fun i _ => outstanding_init _ i) rfl
  exact ⟨a, ha, hc, caches_mirror_servers
    (.step h₁ (show d₁.Admits (.serve 0 false) from trivial) rfl) ha hc⟩

/-- In every reachable deployment the AS of each request in flight accepts it: an upload is a
`POST` exactly when the AS lacks the resource, and nothing the AS lacks is replaced. -/
theorem requests_accepted {env : Env} {d : Deployment} (h : d.Reachable env) {s : Sent}
    (hs : s ∈ d.engine.inFlight) {c : AsContent} (hc : d.servers[s.asState]? = some c) :
    (c.handle s.action.op).2.Ok := by
  obtain ⟨hp, ho⟩ := h.paired
  obtain ⟨a, ha, hact, hm⟩ := h.inv.mirrors_of_inFlight hp ho hs hc
  exact (answer_mirrors hm (h.inv.shaped _ a ha) hact).1

theorem requests_accepted_sample :
    let d₀ : Deployment := ⟨Engine.init Context.sample, [⟨["ps1:cert1"], []⟩]⟩
    let d₁ := (d₀.step Env.failing (.m1 (.setOnPost "ps1"))).getD d₀
    let d₂ := (d₁.step Env.failing (.serve 0 false)).getD d₁
    let d₃ := (d₂.step Env.failing .dispatch).getD d₂
    let d₄ := (d₃.step Env.failing (.serve 0 false)).getD d₃
    let d₅ := (d₄.step Env.failing .dispatch).getD d₄
    let d₆ := (d₅.step Env.failing (.serve 0 false)).getD d₅
    let d₇ := (d₆.step Env.failing .dispatch).getD d₆
    d₅.engine.inFlight.map (·.action) = [.uploadCertificate "ps1:cert1" true] ∧
    d₇.engine.inFlight.map (·.action) = [.uploadContentHostingConfiguration "ps1" false] ∧
    (∀ s ∈ d₅.engine.inFlight, ∀ c, d₅.servers[s.asState]? = some c →
      (c.handle s.action.op).2.Ok) ∧
    ∀ s ∈ d₇.engine.inFlight, ∀ c, d₇.servers[s.asState]? = some c →
      (c.handle s.action.op).2.Ok := by
  intro d₀ d₁ d₂ d₃ d₄ d₅ d₆ d₇
  have h₁ : d₁.Reachable Env.failing := .step (.init _ Context.sample_fresh (by decide))
    (show d₀.Admits (.m1 (.setOnPost "ps1")) from fun i _ => outstanding_init _ i) rfl
  have h₃ : d₃.Reachable Env.failing := h₁.serve_dispatch
    (Option.getD_of_ne_none (by decide) _).symm (Option.getD_of_ne_none (by decide) _).symm
  have h₅ : d₅.Reachable Env.failing := h₃.serve_dispatch
    (Option.getD_of_ne_none (by decide) _).symm (Option.getD_of_ne_none (by decide) _).symm
  have h₇ : d₇.Reachable Env.failing := h₅.serve_dispatch
    (Option.getD_of_ne_none (by decide) _).symm (Option.getD_of_ne_none (by decide) _).symm
  exact ⟨by decide, by decide, fun s hs c hc => requests_accepted h₅ hs hc,
    fun s hs c hc => requests_accepted h₇ hs hc⟩

end Msaf
