import Msaf.CString

/-!
# The AF's M3 bookkeeping: Application Servers, their state nodes, and sessions

The records of `application-server-context.c` as the M3 client engine reads them.
Per configured Application Server (`msaf_application_server_node_t`) the AF keeps
one **AS-state node** (`msaf_application_server_state_node_t`): the sessions
assigned to it, the AS's last-known certificate and CHC lists (NULL before the
first GET), five work queues, and whether its M3 client has been made.

Cross-references are by key, as the design notes of the spec have them: an
AS-state node is its position in `msaf_self()->application_server_states`, and a
provisioning session is its `provisioningSessionId`. Queue entries
(`resource_id_node_t`) are their `state` strings.

The code these functions call that is not in the sources (the certificate map,
the certificate file names, `read_file`, the CHC rewrite and its JSON encoding)
is one record of parameters, `Env`.

## What this does NOT model

The intrusive `ogs_lnode_t` links, but for one effect. `msaf_application_server_state_set_on_post`
puts an AS-state node on a session's list through the same link that keeps it on
`application_server_states`: the node's `next` becomes NULL, and the loop over
`application_server_states` ends at that node, which the model keeps. The model keeps the two
lists apart otherwise: the nodes after it drop off `application_server_states`, which only
`set_on_post` walks, and it stops at the same node every time. The M3 client
handle is a flag: the failure of `msaf_m3_client_init` to resolve the host is not
modelled.
-/

namespace Msaf

/-! ## Records -/

/-- A configured Application Server, `msaf_application_server_node_t`. -/
structure ApplicationServer where
  canonicalHostname : String
  urlPathPrefixFormat : String
  m3Port : Int
  deriving DecidableEq, Repr

/-- An entry of the cache-purge queue, `purge_resource_id_node_t`: the CHC id and the
optional filter regex. -/
structure PurgeResourceIdNode where
  state : String
  purgeRegex : Option String
  deriving DecidableEq, Repr

/-- An AS-state node, `msaf_application_server_state_node_t`. The two `current*` lists are
`none` while the AS's own list is unknown (the C pointer is NULL); `client` says whether
`as_state->client` has been set. -/
structure ApplicationServerState where
  applicationServer : ApplicationServer
  assignedProvisioningSessions : List String
  currentCertificates : Option (List String)
  currentContentHostingConfigurations : Option (List String)
  uploadCertificates : List String
  uploadContentHostingConfigurations : List String
  deleteCertificates : List String
  deleteContentHostingConfigurations : List String
  purgeContentHostingCache : List PurgeResourceIdNode
  client : Bool
  deriving DecidableEq, Repr

/-- The part of `msaf_provisioning_session_t` these functions read and write: its id, its
stored CHC document, the ids of its certificate map, and `msaf_application_server_state_nodes`. -/
structure ProvisioningSession where
  provisioningSessionId : String
  contentHostingConfiguration : Option String
  certificates : List String
  msafApplicationServerStateNodes : List Nat
  deriving DecidableEq, Repr

/-- The part of `msaf_self()` the M3 engine uses: the configured servers, the AS-state
nodes, and the provisioning-session store. -/
structure Context where
  applicationServersList : List ApplicationServer
  applicationServerStates : List ApplicationServerState
  provisioningSessions : List ProvisioningSession
  deriving DecidableEq, Repr

/-- The functions of the AF these routines call that live outside the sources, each as the
caller sees it: `msaf_get_certificate_filename`, `read_file`,
`msaf_content_hosting_configuration_with_af_unique_cert_id`, and
`OpenAPI_content_hosting_configuration_convertToJSON` followed by `cJSON_Print`. A NULL answer
is `none`. -/
structure Env where
  getCertificateFilename : Option String → String → String
  readFile : String → Option String
  contentHostingConfigurationWithAfUniqueCertId : Option ProvisioningSession → Option String
  contentHostingConfigurationPrint : String → Option String

/-! ## Construction -/

/-- `application_server_state_init`: a fresh node, all lists empty and both current lists
unknown. -/
def applicationServerStateInit (msafAs : ApplicationServer) : ApplicationServerState where
  applicationServer := msafAs
  assignedProvisioningSessions := []
  currentCertificates := none
  currentContentHostingConfigurations := none
  uploadCertificates := []
  uploadContentHostingConfigurations := []
  deleteCertificates := []
  deleteContentHostingConfigurations := []
  purgeContentHostingCache := []
  client := false

/-- `msaf_application_server_add`: record the server and give it a fresh AS-state node. -/
def msafApplicationServerAdd (ctx : Context) (canonicalHostname urlPathPrefixFormat : String)
    (m3Port : Int) : Context :=
  let msafAs : ApplicationServer := ⟨canonicalHostname, urlPathPrefixFormat, m3Port⟩
  { ctx with
    applicationServersList := ctx.applicationServersList ++ [msafAs]
    applicationServerStates := ctx.applicationServerStates ++ [applicationServerStateInit msafAs] }

/-! ## Pending work -/

/-- An AS-state node has **pending work** when one of the AS's lists is unknown or one of its
five queues is non-empty. -/
def ApplicationServerState.HasPendingWork (a : ApplicationServerState) : Prop :=
  a.currentCertificates = none ∨ a.currentContentHostingConfigurations = none ∨
    a.uploadCertificates ≠ [] ∨ a.uploadContentHostingConfigurations ≠ [] ∨
    a.deleteContentHostingConfigurations ≠ [] ∨ a.deleteCertificates ≠ [] ∨
    a.purgeContentHostingCache ≠ []

instance (a : ApplicationServerState) : Decidable a.HasPendingWork :=
  inferInstanceAs (Decidable (_ ∨ _))

/-- A node nothing has reached yet: both lists unknown and all five queues empty. This is
what `application_server_state_init` builds. -/
def ApplicationServerState.Untouched (a : ApplicationServerState) : Prop :=
  a.currentCertificates = none ∧ a.currentContentHostingConfigurations = none ∧
    a.uploadCertificates = [] ∧ a.uploadContentHostingConfigurations = [] ∧
    a.deleteContentHostingConfigurations = [] ∧ a.deleteCertificates = [] ∧
    a.purgeContentHostingCache = []

instance (a : ApplicationServerState) : Decidable a.Untouched :=
  inferInstanceAs (Decidable (_ ∧ _))

/-! ## The store -/

/-- Modelled from the spec: `msaf_retrieve_certificates_from_map`, not in the sources. It
lists the AF-unique ids `<provisioningSessionId>:<certificateId>` of the session's
certificates (a NULL list and an empty one are handled alike by its callers). -/
def msafRetrieveCertificatesFromMap (ps : ProvisioningSession) : List String :=
  ps.certificates.map fun certId => ps.provisioningSessionId ++ ":" ++ certId

/-- Modelled from the spec: `msaf_provisioning_session_find_by_provisioningSessionId`, not in
the sources. The store is indexed by `provisioningSessionId`; a deleted session is not found. -/
def findProvisioningSession (pss : List ProvisioningSession) (id : String) :
    Option ProvisioningSession :=
  pss.find? (·.provisioningSessionId = id)

/-- Apply `f` to the AS-state node at position `i` (no change past the end). -/
def Context.modifyState (ctx : Context) (i : Nat)
    (f : ApplicationServerState → ApplicationServerState) : Context :=
  { ctx with applicationServerStates := ctx.applicationServerStates.modify f i }

/-- Apply `f` to the session with id `id`. -/
def Context.modifySession (ctx : Context) (id : String)
    (f : ProvisioningSession → ProvisioningSession) : Context :=
  let g q := if q.provisioningSessionId = id then f q else q
  { ctx with provisioningSessions := ctx.provisioningSessions.map g }

@[simp] theorem modifyState_states_getElem? (ctx : Context) (i j : Nat) (f) :
    (ctx.modifyState i f).applicationServerStates[j]? =
      if i = j then f <$> ctx.applicationServerStates[j]? else ctx.applicationServerStates[j]? := by
  simp only [Context.modifyState, List.getElem?_modify]
  split <;> simp

@[simp] theorem modifyState_length (ctx : Context) (i : Nat) (f) :
    (ctx.modifyState i f).applicationServerStates.length = ctx.applicationServerStates.length :=
  List.length_modify f i _

@[simp] theorem modifyState_sessions (ctx : Context) (i : Nat) (f) :
    (ctx.modifyState i f).provisioningSessions = ctx.provisioningSessions := rfl

@[simp] theorem modifyState_servers (ctx : Context) (i : Nat) (f) :
    (ctx.modifyState i f).applicationServersList = ctx.applicationServersList := rfl

@[simp] theorem modifySession_states (ctx : Context) (id : String) (f) :
    (ctx.modifySession id f).applicationServerStates = ctx.applicationServerStates := rfl

@[simp] theorem modifySession_servers (ctx : Context) (id : String) (f) :
    (ctx.modifySession id f).applicationServersList = ctx.applicationServersList := rfl

/-- A session of the modified store is `f` of a session with the id, or a session of the
store with another id. -/
theorem mem_modifySession {ctx : Context} {id : String} {f} {q : ProvisioningSession}
    (h : q ∈ (ctx.modifySession id f).provisioningSessions) :
    ∃ q₀ ∈ ctx.provisioningSessions,
      (q₀.provisioningSessionId = id ∧ q = f q₀) ∨ (q₀.provisioningSessionId ≠ id ∧ q = q₀) := by
  obtain ⟨q₀, hq₀, rfl⟩ := List.mem_map.mp h
  by_cases hid : q₀.provisioningSessionId = id
  · exact ⟨q₀, hq₀, .inl ⟨hid, if_pos hid⟩⟩
  · exact ⟨q₀, hq₀, .inr ⟨hid, if_neg hid⟩⟩

end Msaf
