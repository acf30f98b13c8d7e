import Mathlib.Data.List.Basic

/-!
# Two HTTP backends behind one server API

The AF's patch to the SBI library lets HTTP/2 servers (`ogs_sbi_server_add`, nghttp2's action
table) and HTTP/1.1 servers (`ogs_sbih1_server_add`, MHD's table) live side by side. Each server
records its table in `actions`; each stream handle starts with a common prefix holding its
server, so `ogs_sbi_server_from_stream` reads the server without asking a backend, and
`ogs_sbi_server_send_response` dispatches through the stream's server's table.

The state is the server list, nghttp2's sessions (each accepted on one server), the stream
handles the backends have built, and which backend listens for which server. The backends'
own accept paths are not in the sources; they are modelled from the patch's structure: a
backend accepts only for a server whose `start` it ran, and MHD's `session_add` and nghttp2's
`stream_add` set the common prefix as the patch has it.

**The law** (`streams_dispatch_to_own_backend`). From the empty library, after any sequence
of server creations, starts, stops, accepts and stream additions: server `i`'s table is that
of the `i`-th creating call; `start` and `stop` go through each server's own table; every
stream's `common.server` is the server its accepting call named (`SbiOp.streamServers`: MHD's
accept, or the accept of the nghttp2 stream's session), and a server of the stream's own
backend; `ogs_sbi_server_from_stream` returns what the removed per-backend `server_from_stream`
returned; and both send functions dispatch to the backend that built the stream.

**What it does not establish.** Server removal is not modelled (the patch does not touch it):
a stream that outlives its server is out of scope. Sockets, requests and responses are not
modelled; a send is its dispatch.
-/

namespace Msaf.Sbi

/-! ## Servers and streams -/

/-- The two action tables a server can point at: `ogs_nghttp2_server_actions` (HTTP/2) and
`ogs_mhd_server_actions` (HTTP/1.1). -/
inductive Backend
  | nghttp2
  | mhd
  deriving DecidableEq, Repr

/-- `ogs_sbi_server_t`: its socket address and its `actions`. -/
structure Server where
  addr : Nat
  actions : Backend
  deriving DecidableEq, Repr

/-- `ogs_sbi_stream_common_t`: the back-reference to the owning server that every stream handle
starts with (its list node is not modelled). -/
structure StreamCommon where
  server : Nat
  deriving DecidableEq, Repr

/-- A stream handle as the upper layers hold it: MHD's `ogs_sbi_session_t`, or nghttp2's
`ogs_sbi_stream_t` with its session and stream id. -/
inductive Stream
  | mhdSession (common : StreamCommon)
  | nghttp2Stream (common : StreamCommon) (session : Nat) (streamId : Int)
  deriving DecidableEq, Repr

/-- The common prefix both structures start with. -/
def Stream.common : Stream → StreamCommon
  | .mhdSession c | .nghttp2Stream c _ _ => c

/-- The backend whose code built the handle. -/
def Stream.backend : Stream → Backend
  | .mhdSession _ => .mhd
  | .nghttp2Stream .. => .nghttp2

/-- The SBI server library's state: `server_list`, nghttp2's sessions (the server each was
accepted on), the stream handles, and which backend listens for which server. -/
structure SbiState where
  servers : List Server
  sessions : List Nat
  streams : List Stream
  listening : List (Nat × Backend)
  deriving DecidableEq, Repr

/-- After `ogs_sbi_server_init`: no server, session or stream. -/
def SbiState.empty : SbiState := ⟨[], [], [], []⟩

/-! ## The server API -/

/-- The body `ogs_sbi_server_add` and `ogs_sbih1_server_add` share: a server with the given
table, added to `server_list`; the result is its position. -/
def serverAddWith (actions : Backend) (addr : Nat) (st : SbiState) : SbiState × Nat :=
  ({ st with servers := st.servers ++ [⟨addr, actions⟩] }, st.servers.length)

/-- `ogs_sbi_server_add`: an HTTP/2 server. -/
def ogsSbiServerAdd : Nat → SbiState → SbiState × Nat := serverAddWith .nghttp2

/-- `ogs_sbih1_server_add`: an HTTP/1.1 server. -/
def ogsSbih1ServerAdd : Nat → SbiState → SbiState × Nat := serverAddWith .mhd

/-- The loop of `ogs_sbi_server_start_all`: `server->actions->start(server, cb)` on each server
in turn, whose result is the next of `rvs` (a missing one is `OGS_OK`); the first failure ends
the loop with `OGS_ERROR`. The result: the calls made, each a server and the table called
through, and the return code. A call that succeeds leaves the backend listening. -/
def startEach : List (Nat × Server) → List Int → List (Nat × Backend) × Int
  | [], _ => ([], 0)
  | (i, s) :: rest, rvs =>
    if rvs.headD 0 ≠ 0 then ([(i, s.actions)], -1)
    else
      let r := startEach rest rvs.tail
      ((i, s.actions) :: r.1, r.2)

/-- `ogs_sbi_server_start_all`: the state with the started backends listening, the calls made,
and the return code. -/
def ogsSbiServerStartAll (rvs : List Int) (st : SbiState) :
    SbiState × List (Nat × Backend) × Int :=
  let r := startEach st.servers.enum rvs
  let started := if r.2 = 0 then r.1 else r.1.dropLast
  ({ st with listening := st.listening ++ started }, r.1, r.2)

/-- `ogs_sbi_server_stop_all`: `server->actions->stop(server)` on each server; nothing listens
afterwards. The result: the state and the calls made. -/
def ogsSbiServerStopAll (st : SbiState) : SbiState × List (Nat × Backend) :=
  ({ st with listening := [] }, st.servers.enum.map fun p => (p.1, p.2.actions))

/-- `msaf_sbi_open`, the part that reaches the servers: `ogs_sbi_server_start_all(server_cb)`,
and `OGS_ERROR` when it fails. -/
def msafSbiOpen (rvs : List Int) (st : SbiState) : SbiState × Int :=
  let r := ogsSbiServerStartAll rvs st
  (r.1, if r.2.2 ≠ 0 then -1 else 0)

/-- `msaf_sbi_close`, the part that reaches the servers: `ogs_sbi_server_stop_all`. -/
def msafSbiClose (st : SbiState) : SbiState := (ogsSbiServerStopAll st).1

/-- `ogs_sbi_server_from_stream`: the server in the handle's common prefix. -/
def ogsSbiServerFromStream (stream : Stream) : Nat := stream.common.server

/-- The dispatch `ogs_sbi_server_send_response` and `ogs_sbi_server_send_rspmem_persistent`
share: the table of the stream's server. -/
def sendVia (st : SbiState) (stream : Stream) : Option Backend :=
  st.servers[ogsSbiServerFromStream stream]?.map (·.actions)

/-- `ogs_sbi_server_send_response`: the table the response is sent through. -/
def ogsSbiServerSendResponse : SbiState → Stream → Option Backend := sendVia

/-- `ogs_sbi_server_send_rspmem_persistent`: the table the response is sent through. -/
def ogsSbiServerSendRspmemPersistent : SbiState → Stream → Option Backend := sendVia

/-- The per-backend `server_from_stream` the patch removed: MHD's read `sbi_sess->server`, the
field the patch moved into `common`; nghttp2's read the server of the stream's session. -/
def serverFromStream (st : SbiState) : Stream → Option Nat
  | .mhdSession c => some c.server
  | .nghttp2Stream _ session _ => st.sessions[session]?

/-! ## The backends' accept paths -/

/-- MHD's `session_add(server, request, connection)`, on a connection to a server MHD listens
for: `common.server` is the server. -/
def mhdSessionAdd (server : Nat) (st : SbiState) : Option SbiState :=
  if (server, Backend.mhd) ∈ st.listening then
    some { st with streams := st.streams ++ [.mhdSession ⟨server⟩] }
  else none

/-- Modelled from the patch's structure (nghttp2's `session_add` is not in the sources): a
session accepted on a server nghttp2 listens for. -/
def nghttp2SessionAdd (server : Nat) (st : SbiState) : Option SbiState :=
  if (server, Backend.nghttp2) ∈ st.listening then
    some { st with sessions := st.sessions ++ [server] }
  else none

/-- nghttp2's `stream_add(sbi_sess, stream_id)`: `stream->session = sbi_sess` and
`stream->common.server = sbi_sess->server`. -/
def nghttp2StreamAdd (session : Nat) (streamId : Int) (st : SbiState) : Option SbiState :=
  st.sessions[session]?.map fun server =>
    { st with streams := st.streams ++ [.nghttp2Stream ⟨server⟩ session streamId] }

/-- What can happen to the library. -/
inductive SbiOp
  | serverAdd (addr : Nat)
  | sbih1ServerAdd (addr : Nat)
  | startAll (rvs : List Int)
  | stopAll
  | mhdAccept (server : Nat)
  | nghttp2Accept (server : Nat)
  | nghttp2Stream (session : Nat) (streamId : Int)
  deriving DecidableEq, Repr

/-- One operation; `none` when it cannot happen in the state. -/
def SbiOp.apply : SbiOp → SbiState → Option SbiState
  | .serverAdd addr, st => some (ogsSbiServerAdd addr st).1
  | .sbih1ServerAdd addr, st => some (ogsSbih1ServerAdd addr st).1
  | .startAll rvs, st => some (ogsSbiServerStartAll rvs st).1
  | .stopAll, st => some (ogsSbiServerStopAll st).1
  | .mhdAccept server, st => mhdSessionAdd server st
  | .nghttp2Accept server, st => nghttp2SessionAdd server st
  | .nghttp2Stream session streamId, st => nghttp2StreamAdd session streamId st

/-- A sequence of operations. -/
def SbiOp.run : List SbiOp → SbiState → Option SbiState
  | [], st => some st
  | op :: ops, st => (op.apply st).bind (SbiOp.run ops)

/-- The table a creating call gives its server. -/
def SbiOp.creates : SbiOp → Option Backend
  | .serverAdd _ => some .nghttp2
  | .sbih1ServerAdd _ => some .mhd
  | _ => none

/-! ## The invariant -/

/-- Server `i` has table `b`. -/
def SbiState.HasTable (st : SbiState) (i : Nat) (b : Backend) : Prop :=
  st.servers[i]?.map (·.actions) = some b

/-- Every listener, session and stream belongs to a server of its own backend, and every
nghttp2 stream's common prefix names its session's server. -/
structure SbiState.WF (st : SbiState) : Prop where
  listening : ∀ p ∈ st.listening, st.HasTable p.1 p.2
  sessions : ∀ server ∈ st.sessions, st.HasTable server .nghttp2
  streams : ∀ x ∈ st.streams, st.HasTable (ogsSbiServerFromStream x) x.backend
  fromStream : ∀ x ∈ st.streams, some (ogsSbiServerFromStream x) = serverFromStream st x

theorem hasTable_append {st : SbiState} {i : Nat} {b : Backend} (s : Server)
    (h : st.HasTable i b) : ({ st with servers := st.servers ++ [s] } : SbiState).HasTable i b := by
  unfold SbiState.HasTable at h ⊢
  obtain ⟨s', hs', -⟩ := Option.map_eq_some'.mp h
  rw [List.getElem?_append_left (List.getElem?_eq_some_iff.mp hs').1]
  exact h

theorem serverAddWith_wf (actions : Backend) (addr : Nat) {st : SbiState} (h : st.WF) :
    (serverAddWith actions addr st).1.WF where
  listening p hp := hasTable_append _ (h.listening p hp)
  sessions server hs := hasTable_append _ (h.sessions server hs)
  streams x hx := hasTable_append _ (h.streams x hx)
  fromStream x hx := h.fromStream x hx

/-- Each call of `start_all` goes through the server's own table. -/
theorem startEach_calls :
    ∀ (l : List (Nat × Server)) (rvs : List Int),
      ∀ p ∈ (startEach l rvs).1, ∃ s, (p.1, s) ∈ l ∧ p.2 = s.actions
  | [], _, _, hp => by simp [startEach] at hp
  | (i, s) :: rest, rvs, p, hp => by
    unfold startEach at hp
    split at hp
    · obtain rfl := List.mem_singleton.mp hp
      exact ⟨s, List.mem_cons_self _ _, rfl⟩
    · obtain rfl | hp := List.mem_cons.mp hp
      · exact ⟨s, List.mem_cons_self _ _, rfl⟩
      · obtain ⟨s', hs', he⟩ := startEach_calls rest rvs.tail p hp
        exact ⟨s', List.mem_cons_of_mem _ hs', he⟩

theorem hasTable_of_mem_enum {st : SbiState} {i : Nat} {s : Server}
    (h : (i, s) ∈ st.servers.enum) : st.HasTable i s.actions := by
  simp [SbiState.HasTable, List.mem_enum_iff_getElem?.mp h]

theorem startAll_calls (rvs : List Int) (st : SbiState) :
    ∀ p ∈ (ogsSbiServerStartAll rvs st).2.1, st.HasTable p.1 p.2 := fun p hp => by
  obtain ⟨s, hs, he⟩ := startEach_calls _ rvs p hp
  exact he ▸ hasTable_of_mem_enum hs

/-- A loop in which every start succeeds calls each server once, through its own table. -/
theorem startEach_ok : ∀ (l : List (Nat × Server)) (rvs : List Int), (startEach l rvs).2 = 0 →
    (startEach l rvs).1 = l.map fun p => (p.1, p.2.actions)
  | [], _, _ => rfl
  | (i, s) :: rest, rvs, h => by
    unfold startEach at h ⊢
    split
    · simp_all
    · simp_all only [ne_eq, Decidable.not_not, ite_false]
      simp [startEach_ok rest rvs.tail h]

/-- When `msaf_sbi_open` succeeds, every server is listening through the backend of its own
table. -/
theorem msafSbiOpen_listening (rvs : List Int) (st : SbiState) (h : (msafSbiOpen rvs st).2 = 0)
    {i : Nat} {s : Server} (hs : st.servers[i]? = some s) :
    (i, s.actions) ∈ (msafSbiOpen rvs st).1.listening := by
  have hok : (startEach st.servers.enum rvs).2 = 0 := by
    by_contra hne
    simp [msafSbiOpen, ogsSbiServerStartAll, hne] at h
  simp only [msafSbiOpen, ogsSbiServerStartAll, hok, if_true, startEach_ok _ rvs hok,
    List.mem_append, List.mem_map]
  exact .inr ⟨(i, s), List.mem_enum_iff_getElem?.mpr hs, rfl⟩

theorem startAll_wf (rvs : List Int) {st : SbiState} (h : st.WF) :
    (ogsSbiServerStartAll rvs st).1.WF where
  listening p hp := by
    simp only [ogsSbiServerStartAll, List.mem_append] at hp
    rcases hp with hp | hp
    · exact h.listening p hp
    · have hp' : p ∈ (startEach st.servers.enum rvs).1 := by
        split at hp
        · exact hp
        · exact List.dropLast_subset _ hp
      exact startAll_calls rvs st p hp'
  sessions := h.sessions
  streams := h.streams
  fromStream := h.fromStream

theorem mhdSessionAdd_eq {server : Nat} {st st' : SbiState} (h : mhdSessionAdd server st = some st') :
    (server, Backend.mhd) ∈ st.listening ∧
      st' = { st with streams := st.streams ++ [.mhdSession ⟨server⟩] } := by
  unfold mhdSessionAdd at h
  split at h
  · exact ⟨‹_›, (Option.some_inj.mp h).symm⟩
  · cases h

theorem nghttp2SessionAdd_eq {server : Nat} {st st' : SbiState}
    (h : nghttp2SessionAdd server st = some st') :
    (server, Backend.nghttp2) ∈ st.listening ∧ st' = { st with sessions := st.sessions ++ [server] } := by
  unfold nghttp2SessionAdd at h
  split at h
  · exact ⟨‹_›, (Option.some_inj.mp h).symm⟩
  · cases h

theorem nghttp2StreamAdd_eq {session : Nat} {streamId : Int} {st st' : SbiState}
    (h : nghttp2StreamAdd session streamId st = some st') :
    ∃ server, st.sessions[session]? = some server ∧
      st' = { st with streams := st.streams ++ [.nghttp2Stream ⟨server⟩ session streamId] } := by
  obtain ⟨server, hs, rfl⟩ := Option.map_eq_some'.mp h
  exact ⟨server, hs, rfl⟩

/-- A stream added at the end of the list keeps the invariant when it names a server of its
own backend and the server its removed `server_from_stream` names. -/
theorem wf_add_stream {st : SbiState} (hw : st.WF) (x : Stream)
    (htable : st.HasTable (ogsSbiServerFromStream x) x.backend)
    (hfrom : some (ogsSbiServerFromStream x) = serverFromStream st x) :
    ({ st with streams := st.streams ++ [x] } : SbiState).WF where
  listening := hw.listening
  sessions := hw.sessions
  streams y hy := by
    rcases List.mem_append.mp hy with hy | hy
    · exact hw.streams y hy
    · exact (List.mem_singleton.mp hy) ▸ htable
  fromStream y hy := by
    rcases List.mem_append.mp hy with hy | hy
    · exact hw.fromStream y hy
    · exact (List.mem_singleton.mp hy) ▸ hfrom

theorem SbiOp.apply_wf {op : SbiOp} {st st' : SbiState} (h : op.apply st = some st')
    (hw : st.WF) : st'.WF := by
  cases op with
  | serverAdd addr => cases h; exact serverAddWith_wf _ addr hw
  | sbih1ServerAdd addr => cases h; exact serverAddWith_wf _ addr hw
  | startAll rvs => cases h; exact startAll_wf rvs hw
  | stopAll =>
    cases h
    exact ⟨by simp [ogsSbiServerStopAll], hw.sessions, hw.streams, hw.fromStream⟩
  | mhdAccept server =>
    obtain ⟨hl, rfl⟩ := mhdSessionAdd_eq h
    exact wf_add_stream hw _ (hw.listening _ hl) rfl
  | nghttp2Accept server =>
    obtain ⟨hl, rfl⟩ := nghttp2SessionAdd_eq h
    refine ⟨hw.listening, fun s hs => ?_, hw.streams, fun x hx => ?_⟩
    · rcases List.mem_append.mp hs with hs | hs
      · exact hw.sessions s hs
      · exact (List.mem_singleton.mp hs) ▸ hw.listening _ hl
    · cases x with
      | mhdSession c => rfl
      | nghttp2Stream c session _ =>
        have := hw.fromStream _ hx
        simp only [serverFromStream] at this ⊢
        rw [List.getElem?_append_left (List.getElem?_eq_some_iff.mp this.symm).1]
        exact this
  | nghttp2Stream session streamId =>
    obtain ⟨server, hs, rfl⟩ := nghttp2StreamAdd_eq h
    exact wf_add_stream hw _ (hw.sessions server (List.getElem?_mem hs)) hs.symm

/-- The servers' tables are those of the creating calls, in order. -/
theorem SbiOp.apply_tables {op : SbiOp} {st st' : SbiState} (h : op.apply st = some st') :
    st'.servers.map (·.actions) = st.servers.map (·.actions) ++ op.creates.toList := by
  cases op with
  | serverAdd addr => cases h; simp [SbiOp.creates, ogsSbiServerAdd, serverAddWith]
  | sbih1ServerAdd addr => cases h; simp [SbiOp.creates, ogsSbih1ServerAdd, serverAddWith]
  | startAll rvs => cases h; simp [SbiOp.creates, ogsSbiServerStartAll]
  | stopAll => cases h; simp [SbiOp.creates, ogsSbiServerStopAll]
  | mhdAccept server => obtain ⟨-, rfl⟩ := mhdSessionAdd_eq h; simp [SbiOp.creates]
  | nghttp2Accept server => obtain ⟨-, rfl⟩ := nghttp2SessionAdd_eq h; simp [SbiOp.creates]
  | nghttp2Stream session streamId =>
    obtain ⟨-, -, rfl⟩ := nghttp2StreamAdd_eq h; simp [SbiOp.creates]

theorem SbiOp.run_wf : ∀ {ops : List SbiOp} {st st' : SbiState}, SbiOp.run ops st = some st' →
    st.WF → st'.WF ∧
      st'.servers.map (·.actions) = st.servers.map (·.actions) ++ ops.filterMap SbiOp.creates
  | [], _, _, h, hw => by cases h; simp [hw]
  | op :: ops, st, st', h, hw => by
    simp only [SbiOp.run, Option.bind_eq_some] at h
    obtain ⟨st₁, h₁, h₂⟩ := h
    obtain ⟨hw', htables⟩ := SbiOp.run_wf h₂ (SbiOp.apply_wf h₁ hw)
    refine ⟨hw', ?_⟩
    rw [htables, SbiOp.apply_tables h₁, List.filterMap_cons]
    cases op.creates <;> simp

/-! ## Which server accepted each stream -/

/-- The server each stream of a run was accepted on, in order, as the accepting calls name it: an
MHD accept names its server, an nghttp2 accept opens a session on the server it names, and an
nghttp2 stream is on its session's server. `sessions` are the servers of the sessions opened
before the run. -/
def SbiOp.streamServers (sessions : List Nat) : List SbiOp → List Nat
  | [] => []
  | .mhdAccept server :: ops => server :: SbiOp.streamServers sessions ops
  | .nghttp2Accept server :: ops => SbiOp.streamServers (sessions ++ [server]) ops
  | .nghttp2Stream session _ :: ops =>
    sessions[session]?.toList ++ SbiOp.streamServers sessions ops
  | _ :: ops => SbiOp.streamServers sessions ops

/-- Over a run, the streams added are on the servers their accepting calls named. -/
theorem SbiOp.run_streamServers : ∀ {ops : List SbiOp} {st st' : SbiState},
    SbiOp.run ops st = some st' →
    st'.streams.map (·.common.server) =
      st.streams.map (·.common.server) ++ SbiOp.streamServers st.sessions ops
  | [], _, _, h => by cases h; simp [SbiOp.streamServers]
  | op :: ops, st, st', h => by
    simp only [SbiOp.run, Option.bind_eq_some] at h
    obtain ⟨st₁, h₁, h₂⟩ := h
    rw [SbiOp.run_streamServers h₂]
    cases op with
    | serverAdd | sbih1ServerAdd | startAll | stopAll =>
      cases h₁
      simp [SbiOp.streamServers, ogsSbiServerAdd, ogsSbih1ServerAdd, serverAddWith,
        ogsSbiServerStartAll, ogsSbiServerStopAll]
    | mhdAccept server =>
      obtain ⟨-, rfl⟩ := mhdSessionAdd_eq h₁
      simp [SbiOp.streamServers, Stream.common]
    | nghttp2Accept server =>
      obtain ⟨-, rfl⟩ := nghttp2SessionAdd_eq h₁
      simp [SbiOp.streamServers]
    | nghttp2Stream session streamId =>
      obtain ⟨server, hs, rfl⟩ := nghttp2StreamAdd_eq h₁
      simp [SbiOp.streamServers, Stream.common, hs]

theorem empty_wf : SbiState.empty.WF :=
  ⟨by simp [SbiState.empty], by simp [SbiState.empty], by simp [SbiState.empty],
    by simp [SbiState.empty]⟩

/-- Over every run from the empty library: server `i`'s table is that of the `i`-th creating
call, `start` and `stop` go through each server's own table, every stream's `common.server` is
the server its accepting call named, and for every stream `ogs_sbi_server_from_stream` gives a
server of the stream's own backend, the server the removed per-backend `server_from_stream`
gave, and both sends dispatch to the stream's own backend. -/
theorem streams_dispatch_to_own_backend (ops : List SbiOp) (st : SbiState)
    (h : SbiOp.run ops SbiState.empty = some st) :
    st.servers.map (·.actions) = ops.filterMap SbiOp.creates ∧
    (∀ rvs, ∀ p ∈ (ogsSbiServerStartAll rvs st).2.1, st.HasTable p.1 p.2) ∧
    (∀ p ∈ (ogsSbiServerStopAll st).2, st.HasTable p.1 p.2) ∧
    st.streams.map (·.common.server) = SbiOp.streamServers [] ops ∧
    ∀ x ∈ st.streams, st.HasTable (ogsSbiServerFromStream x) x.backend ∧
      serverFromStream st x = some (ogsSbiServerFromStream x) ∧
      ogsSbiServerSendResponse st x = some x.backend ∧
      ogsSbiServerSendRspmemPersistent st x = some x.backend := by
  obtain ⟨hw, htables⟩ := SbiOp.run_wf h empty_wf
  refine ⟨by simpa [SbiState.empty] using htables, fun rvs => startAll_calls rvs st,
    fun p hp => ?_, by simpa [SbiState.empty] using SbiOp.run_streamServers h,
    fun x hx => ⟨hw.streams x hx, (hw.fromStream x hx).symm, hw.streams x hx,
      hw.streams x hx⟩⟩
  obtain ⟨q, hq, rfl⟩ := List.mem_map.mp hp
  exact hasTable_of_mem_enum hq

theorem streams_dispatch_to_own_backend_mixed :
    let ops := [SbiOp.serverAdd 1, .sbih1ServerAdd 2, .startAll [], .mhdAccept 1,
      .nghttp2Accept 0, .nghttp2Stream 0 7]
    let st := (SbiOp.run ops SbiState.empty).getD SbiState.empty
    st.servers.map (·.actions) = ops.filterMap SbiOp.creates ∧
    (∀ rvs, ∀ p ∈ (ogsSbiServerStartAll rvs st).2.1, st.HasTable p.1 p.2) ∧
    (∀ p ∈ (ogsSbiServerStopAll st).2, st.HasTable p.1 p.2) ∧
    st.streams.map (·.common.server) = SbiOp.streamServers [] ops ∧
    ∀ x ∈ st.streams, st.HasTable (ogsSbiServerFromStream x) x.backend ∧
      serverFromStream st x = some (ogsSbiServerFromStream x) ∧
      ogsSbiServerSendResponse st x = some x.backend ∧
      ogsSbiServerSendRspmemPersistent st x = some x.backend :=
  streams_dispatch_to_own_backend _ _ rfl

end Msaf.Sbi
