import Msaf.Sbi.Server

/-!
# The patch keeps single-backend programs as they were

Before the AF's patch the SBI library had one action table for all its servers, the global
`ogs_sbi_server_actions` (nghttp2's under `#if 1`, or the one a program installed before
`ogs_sbi_server_init`): `start`, `stop`, both sends and `from_stream` went through it, and the
backend's own `server_from_stream` read the server from the handle, MHD's from its session
(`sbi_sess->server`) and nghttp2's through the stream's session. The patch gives each server its
table and each stream handle a common prefix that holds its server.

**The law** (`patch_preserves_single_backend`). A program that creates all its servers with the
creating call of one backend runs on the patched library step for step as on the old one with
that backend's table as the global table. For HTTP/1.1 that call is `ogs_sbih1_server_add`, which
stands for the old `ogs_sbi_server_add` under MHD's table (`SbiOp.unpatch`). The old library
reaches the same state with the tables and the common prefixes dropped (`SbiState.unpatch`). In
it, `start_all` and `stop_all` make the same calls with the same result, every stream's sends go
through the table the old library used, and `ogs_sbi_server_from_stream` returns the server the
old `from_stream` returned.

**What it does not establish.** Initialisation and clean-up, where the patch now sets up and tears
down both backends' pools, are not modelled. Neither is a program that mixes the two backends,
which the old library could not run.
-/

namespace Msaf.Sbi

/-! ## The library before the patch -/

/-- A stream handle before the patch: MHD's session held its server in `sbi_sess->server`;
nghttp2's stream had only its session. -/
inductive StreamUnpatched
  | mhdSession (server : Nat)
  | nghttp2Stream (session : Nat) (streamId : Int)
  deriving DecidableEq, Repr

/-- The library's state before the patch: the servers' addresses, nghttp2's sessions, the stream
handles, and the servers the global table listens for. -/
structure SbiStateUnpatched where
  servers : List Nat
  sessions : List Nat
  streams : List StreamUnpatched
  listening : List Nat
  deriving DecidableEq, Repr

def SbiStateUnpatched.empty : SbiStateUnpatched := ⟨[], [], [], []⟩

/-- The loop of `ogs_sbi_server_start_all` before the patch, over the servers' positions:
`ogs_sbi_server_actions.start(server, cb)` through the global table, each call returning the next
of `rvs` (a missing one is `OGS_OK`); the first failure ends the loop with `OGS_ERROR`. -/
def startEachUnpatched (global : Backend) : List Nat → List Int → List (Nat × Backend) × Int
  | [], _ => ([], 0)
  | i :: rest, rvs =>
    if rvs.headD 0 ≠ 0 then ([(i, global)], -1)
    else
      let r := startEachUnpatched global rest rvs.tail
      ((i, global) :: r.1, r.2)

/-- `ogs_sbi_server_start_all` before the patch: the state with the started servers listening,
the calls made, and the return code. -/
def ogsSbiServerStartAllUnpatched (global : Backend) (rvs : List Int) (st : SbiStateUnpatched) :
    SbiStateUnpatched × List (Nat × Backend) × Int :=
  let r := startEachUnpatched global (List.range st.servers.length) rvs
  let started := if r.2 = 0 then r.1 else r.1.dropLast
  ({ st with listening := st.listening ++ started.map Prod.fst }, r.1, r.2)

/-- `ogs_sbi_server_stop_all` before the patch: `ogs_sbi_server_actions.stop(server)` on each
server. -/
def ogsSbiServerStopAllUnpatched (global : Backend) (st : SbiStateUnpatched) :
    SbiStateUnpatched × List (Nat × Backend) :=
  ({ st with listening := [] }, (List.range st.servers.length).map fun i => (i, global))

/-- The table `ogs_sbi_server_send_response` and `ogs_sbi_server_send_rspmem_persistent` sent
through before the patch: the global one, whatever the stream. -/
def sendViaUnpatched (global : Backend) (_ : StreamUnpatched) : Backend := global

/-- `ogs_sbi_server_from_stream` before the patch: the global table's `from_stream`, MHD's
reading `sbi_sess->server` and nghttp2's `stream->session->server`; `none` for a handle of the
other backend, which the cast would misread. -/
def ogsSbiServerFromStreamUnpatched (global : Backend) (st : SbiStateUnpatched) :
    StreamUnpatched → Option Nat
  | .mhdSession server => if global = .mhd then some server else none
  | .nghttp2Stream session _ => if global = .nghttp2 then st.sessions[session]? else none

/-- One operation on the library before the patch, with the global table `global`; `none` when
it cannot happen. There was no `ogs_sbih1_server_add`, and a backend accepts only when it is the
global one and listens for the server. -/
def SbiOp.applyUnpatched (global : Backend) : SbiOp → SbiStateUnpatched → Option SbiStateUnpatched
  | .serverAdd addr, st => some { st with servers := st.servers ++ [addr] }
  | .sbih1ServerAdd _, _ => none
  | .startAll rvs, st => some (ogsSbiServerStartAllUnpatched global rvs st).1
  | .stopAll, st => some (ogsSbiServerStopAllUnpatched global st).1
  | .mhdAccept server, st =>
    if global = .mhd ∧ server ∈ st.listening then
      some { st with streams := st.streams ++ [.mhdSession server] }
    else none
  | .nghttp2Accept server, st =>
    if global = .nghttp2 ∧ server ∈ st.listening then
      some { st with sessions := st.sessions ++ [server] }
    else none
  | .nghttp2Stream session streamId, st =>
    st.sessions[session]?.map fun _ =>
      { st with streams := st.streams ++ [.nghttp2Stream session streamId] }

def SbiOp.runUnpatched (global : Backend) :
    List SbiOp → SbiStateUnpatched → Option SbiStateUnpatched
  | [], st => some st
  | op :: ops, st => (op.applyUnpatched global st).bind (SbiOp.runUnpatched global ops)

/-! ## From the patched library to the old one -/

/-- The call of the old library a call of the patched one stands for: `ogs_sbih1_server_add` is
the old `ogs_sbi_server_add` under MHD's global table. -/
def SbiOp.unpatch : SbiOp → SbiOp
  | .sbih1ServerAdd addr => .serverAdd addr
  | op => op

/-- A stream handle without its common prefix. -/
def Stream.unpatch : Stream → StreamUnpatched
  | .mhdSession c => .mhdSession c.server
  | .nghttp2Stream _ session streamId => .nghttp2Stream session streamId

/-- The patched state as the old library has it: the servers' tables and the streams' common
prefixes dropped. -/
def SbiState.unpatch (st : SbiState) : SbiStateUnpatched :=
  ⟨st.servers.map (·.addr), st.sessions, st.streams.map Stream.unpatch, st.listening.map Prod.fst⟩

/-- Every server has table `b`. -/
def SbiState.AllOn (st : SbiState) (b : Backend) : Prop := ∀ s ∈ st.servers, s.actions = b

section Simulation

variable {b : Backend} {st st' : SbiState}

theorem SbiState.AllOn.hasTable (hall : st.AllOn b) {i : Nat} {b' : Backend}
    (h : st.HasTable i b') : b = b' := by
  obtain ⟨s, hs, rfl⟩ := Option.map_eq_some'.mp h
  exact (hall s (List.getElem?_mem hs)).symm

/-- With one table, a server listens through it exactly when the old library has it listening. -/
theorem SbiState.AllOn.listening_iff (hall : st.AllOn b) (hw : st.WF) (server : Nat)
    (b' : Backend) : (server, b') ∈ st.listening ↔ b = b' ∧ server ∈ st.unpatch.listening := by
  constructor
  · intro h
    exact ⟨hall.hasTable (hw.listening _ h), List.mem_map_of_mem _ h⟩
  · rintro ⟨rfl, h⟩
    obtain ⟨⟨i, b''⟩, hp, rfl⟩ := List.mem_map.mp h
    obtain rfl := hall.hasTable (hw.listening _ hp)
    exact hp

/-- With one table, the loop of `start_all` calls through it as the old loop did. -/
theorem startEach_eq_unpatched (b : Backend) : ∀ (l : List (Nat × Server)) (rvs : List Int),
    (∀ p ∈ l, p.2.actions = b) → startEach l rvs = startEachUnpatched b (l.map Prod.fst) rvs
  | [], _, _ => rfl
  | (i, s) :: rest, rvs, h => by
    have hs : s.actions = b := h (i, s) (List.mem_cons_self _ _)
    simp only [startEach, startEachUnpatched, List.map_cons, hs,
      startEach_eq_unpatched b rest rvs.tail fun p hp => h p (List.mem_cons_of_mem _ hp)]

theorem startAll_eq_unpatched (hall : st.AllOn b) (rvs : List Int) :
    (ogsSbiServerStartAll rvs st).2 = (ogsSbiServerStartAllUnpatched b rvs st.unpatch).2 ∧
      (ogsSbiServerStartAll rvs st).1.unpatch =
        (ogsSbiServerStartAllUnpatched b rvs st.unpatch).1 := by
  have he := startEach_eq_unpatched b st.servers.enum rvs fun p hp =>
    hall p.2 (List.snd_mem_of_mem_enum hp)
  rw [List.enum_map_fst] at he
  simp only [ogsSbiServerStartAll, ogsSbiServerStartAllUnpatched, SbiState.unpatch, he,
    List.length_map, List.map_append, true_and]

theorem stopAll_eq_unpatched (hall : st.AllOn b) :
    (ogsSbiServerStopAll st).2 = (ogsSbiServerStopAllUnpatched b st.unpatch).2 := by
  simp only [ogsSbiServerStopAll, ogsSbiServerStopAllUnpatched, SbiState.unpatch, List.length_map]
  rw [← List.enum_map_fst, List.map_map]
  exact List.map_congr_left fun p hp => by
    simp [hall p.2 (List.snd_mem_of_mem_enum hp)]

/-- One step of the patched library, with one table, is the old library's step on the call it
stands for. -/
theorem SbiOp.apply_unpatch {op : SbiOp} (hall : st.AllOn b) (hw : st.WF)
    (hop : op.creates = none ∨ op.creates = some b) :
    (op.apply st).map SbiState.unpatch = op.unpatch.applyUnpatched b st.unpatch := by
  cases op with
  | serverAdd addr | sbih1ServerAdd addr =>
    simp [SbiOp.apply, SbiOp.unpatch, SbiOp.applyUnpatched, ogsSbiServerAdd, ogsSbih1ServerAdd,
      serverAddWith, SbiState.unpatch]
  | startAll rvs =>
    simp [SbiOp.apply, SbiOp.unpatch, SbiOp.applyUnpatched, (startAll_eq_unpatched hall rvs).2]
  | stopAll =>
    simp [SbiOp.apply, SbiOp.unpatch, SbiOp.applyUnpatched, ogsSbiServerStopAll,
      ogsSbiServerStopAllUnpatched, SbiState.unpatch]
  | mhdAccept server =>
    have hiff := hall.listening_iff hw server .mhd
    simp only [SbiOp.apply, SbiOp.unpatch, SbiOp.applyUnpatched, mhdSessionAdd]
    by_cases hl : (server, Backend.mhd) ∈ st.listening
    · rw [if_pos hl, if_pos (hiff.mp hl)]
      simp [SbiState.unpatch, Stream.unpatch]
    · rw [if_neg hl, if_neg (mt hiff.mpr hl)]
      rfl
  | nghttp2Accept server =>
    have hiff := hall.listening_iff hw server .nghttp2
    simp only [SbiOp.apply, SbiOp.unpatch, SbiOp.applyUnpatched, nghttp2SessionAdd]
    by_cases hl : (server, Backend.nghttp2) ∈ st.listening
    · rw [if_pos hl, if_pos (hiff.mp hl)]
      simp [SbiState.unpatch]
    · rw [if_neg hl, if_neg (mt hiff.mpr hl)]
      rfl
  | nghttp2Stream session streamId =>
    simp only [SbiOp.apply, SbiOp.unpatch, SbiOp.applyUnpatched, nghttp2StreamAdd, SbiState.unpatch]
    cases st.sessions[session]? <;> simp [SbiState.unpatch, Stream.unpatch]

/-- A call that creates no server of another table keeps one table. -/
theorem SbiState.AllOn.apply (hall : st.AllOn b) {op : SbiOp}
    (hop : op.creates = none ∨ op.creates = some b) (h : op.apply st = some st') : st'.AllOn b := by
  intro s hs
  have hmem : s.actions ∈ st'.servers.map (·.actions) := List.mem_map_of_mem _ hs
  rw [SbiOp.apply_tables h, List.mem_append] at hmem
  rcases hmem with hmem | hmem
  · obtain ⟨s', hs', he⟩ := List.mem_map.mp hmem
    exact he ▸ hall s' hs'
  · rcases hop with hop | hop <;> simp [hop] at hmem
    exact hmem

end Simulation

theorem SbiOp.run_unpatch (b : Backend) : ∀ {ops : List SbiOp} {st st' : SbiState},
    (∀ op ∈ ops, op.creates = none ∨ op.creates = some b) → st.AllOn b → st.WF →
    SbiOp.run ops st = some st' →
      SbiOp.runUnpatched b (ops.map SbiOp.unpatch) st.unpatch = some st'.unpatch ∧ st'.AllOn b
  | [], _, _, _, hall, _, h => by cases h; exact ⟨rfl, hall⟩
  | op :: ops, st, st', hops, hall, hw, h => by
    simp only [SbiOp.run, Option.bind_eq_some] at h
    obtain ⟨st₁, h₁, h₂⟩ := h
    have hop := hops op (List.mem_cons_self _ _)
    have hsim := SbiOp.apply_unpatch hall hw hop
    rw [h₁, Option.map_some'] at hsim
    simp only [List.map_cons, SbiOp.runUnpatched, ← hsim, Option.some_bind]
    exact SbiOp.run_unpatch b (fun o ho => hops o (List.mem_cons_of_mem _ ho)) (hall.apply hop h₁)
      (SbiOp.apply_wf h₁ hw) h₂

/-- A program that creates all its servers with the creating call of one backend `b` runs on the
patched library as on the old one with `b`'s table as the global table: the old library reaches
the same state, with the tables and the common prefixes dropped, and in it `start_all` and
`stop_all` make the same calls with the same result, both sends go through the table the old
library used, and `ogs_sbi_server_from_stream` returns what the old `from_stream` returned. -/
theorem patch_preserves_single_backend (b : Backend) (ops : List SbiOp)
    (hops : ∀ op ∈ ops, op.creates = none ∨ op.creates = some b) {st : SbiState}
    (h : SbiOp.run ops SbiState.empty = some st) :
    SbiOp.runUnpatched b (ops.map SbiOp.unpatch) SbiStateUnpatched.empty = some st.unpatch ∧
    (∀ rvs, (ogsSbiServerStartAll rvs st).2 = (ogsSbiServerStartAllUnpatched b rvs st.unpatch).2) ∧
    (ogsSbiServerStopAll st).2 = (ogsSbiServerStopAllUnpatched b st.unpatch).2 ∧
    ∀ x ∈ st.streams, ogsSbiServerSendResponse st x = some (sendViaUnpatched b x.unpatch) ∧
      ogsSbiServerSendRspmemPersistent st x = some (sendViaUnpatched b x.unpatch) ∧
      ogsSbiServerFromStreamUnpatched b st.unpatch x.unpatch = some (ogsSbiServerFromStream x) := by
  have hall₀ : SbiState.empty.AllOn b := fun _ h => absurd h (List.not_mem_nil _)
  obtain ⟨hrun, hall⟩ := SbiOp.run_unpatch b hops hall₀ empty_wf h
  have hw := (SbiOp.run_wf h empty_wf).1
  refine ⟨hrun, fun rvs => (startAll_eq_unpatched hall rvs).1, stopAll_eq_unpatched hall,
    fun x hx => ?_⟩
  have hb := hall.hasTable (hw.streams x hx)
  have hsend : sendVia st x = some b := hb ▸ hw.streams x hx
  refine ⟨hsend, hsend, ?_⟩
  cases x with
  | mhdSession c =>
    subst hb
    simp [ogsSbiServerFromStreamUnpatched, Stream.unpatch, ogsSbiServerFromStream, Stream.common,
      Stream.backend]
  | nghttp2Stream c session streamId =>
    subst hb
    simpa [ogsSbiServerFromStreamUnpatched, Stream.unpatch, SbiState.unpatch, serverFromStream,
      Stream.backend] using (hw.fromStream _ hx).symm

theorem patch_preserves_single_backend_h1 :
    let ops := [SbiOp.sbih1ServerAdd 1, .sbih1ServerAdd 2, .startAll [], .mhdAccept 1]
    let st := (SbiOp.run ops SbiState.empty).getD SbiState.empty
    (∀ op ∈ ops, op.creates = none ∨ op.creates = some .mhd) ∧
    SbiOp.runUnpatched .mhd (ops.map SbiOp.unpatch) SbiStateUnpatched.empty = some st.unpatch ∧
    (∀ rvs, (ogsSbiServerStartAll rvs st).2 = (ogsSbiServerStartAllUnpatched .mhd rvs st.unpatch).2) ∧
    (ogsSbiServerStopAll st).2 = (ogsSbiServerStopAllUnpatched .mhd st.unpatch).2 ∧
    ∀ x ∈ st.streams, ogsSbiServerSendResponse st x = some (sendViaUnpatched .mhd x.unpatch) ∧
      ogsSbiServerSendRspmemPersistent st x = some (sendViaUnpatched .mhd x.unpatch) ∧
      ogsSbiServerFromStreamUnpatched .mhd st.unpatch x.unpatch = some (ogsSbiServerFromStream x) := by
  intro ops st
  have hops : ∀ op ∈ ops, op.creates = none ∨ op.creates = some .mhd := by decide
  exact ⟨hops, patch_preserves_single_backend .mhd ops hops rfl⟩

end Msaf.Sbi
