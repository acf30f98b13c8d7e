import Msaf.Context

/-!
# One reconciliation step: `next_action_for_application_server`

Per AS-state node the M3 client takes one step at a time: it looks at the node,
picks the next piece of work by a fixed priority, and sends one request for it
through `m3_client_as_state_requests`. The function is given here in two parts
that together are the C body: `nextAction` is the chain of conditions (which
branch runs, with the head entry it reads and, for an upload, the result of the
linear search of the current list), and `NextAction.request` is the body of each
branch (Content-Type, body, method and path).

**The laws.**

- `nextActionForApplicationServer_eq`: the step sends `nextAction`'s request and
  changes nothing of the node but its client handle.
- `nextAction_isSome_iff`: a request goes out exactly when the node has pending work.
- `uploadCertificate_request_split`: for an AF-unique id `p:c` the PEM is read from
  the file named for `(p, c)` and the path is `certificates/p:c`.

The priority the spec prescribes is written a second time, from the spec's words, as
`m3Prescribed`, and compared with the code in the module's last section.
-/

namespace Msaf

/-! ## The request -/

/-- An M3 request as `m3_client_as_state_requests` builds it: the method, the URI, the API
version, the body (`http.content`, absent when `data` is NULL) and the Content-Type header. -/
structure M3Request where
  method : String
  uri : String
  apiVersion : String
  content : Option String
  contentType : Option String
  deriving DecidableEq, Repr

/-- The root of an AS's M3 API, `http://<canonicalHostname>:<m3Port>/3gpp-m3/v1/`. -/
def m3Root (msafAs : ApplicationServer) : String :=
  "http://" ++ msafAs.canonicalHostname ++ ":" ++ toString msafAs.m3Port ++ "/3gpp-m3/v1/"

/-- `m3_client_as_state_requests`: build the request, make the node's M3 client if it has none,
and send; the second half is what `ogs_sbi_client_send_request` is handed. -/
def m3ClientAsStateRequests (a : ApplicationServerState) (type data : Option String)
    (method component : String) : ApplicationServerState × M3Request :=
  ({ a with client := true },
    { method := method, uri := m3Root a.applicationServer ++ component, apiVersion := "v1",
      content := data, contentType := type })

/-! ## The branches -/

/-- The branches of `next_action_for_application_server`, in its order. An upload carries the
head id and whether the search of the matching current list found it. -/
inductive NextAction
  | getCertificates
  | getContentHostingConfigurations
  | uploadCertificate (id : String) (found : Bool)
  | uploadContentHostingConfiguration (id : String) (found : Bool)
  | deleteContentHostingConfiguration (id : String)
  | deleteCertificate (id : String)
  | purgeContentHostingCache (node : PurgeResourceIdNode)
  deriving DecidableEq, Repr

/-- The chain of conditions of `next_action_for_application_server`: which branch runs. -/
def nextAction (a : ApplicationServerState) : Option NextAction :=
  match a.currentCertificates, a.currentContentHostingConfigurations with
  | none, _ => some .getCertificates
  | some _, none => some .getContentHostingConfigurations
  | some certs, some chcs =>
    match a.uploadCertificates, a.uploadContentHostingConfigurations,
      a.deleteContentHostingConfigurations, a.deleteCertificates,
      a.purgeContentHostingCache with
    | id :: _, _, _, _, _ => some (.uploadCertificate id (decide (id ∈ certs)))
    | [], id :: _, _, _, _ => some (.uploadContentHostingConfiguration id (decide (id ∈ chcs)))
    | [], [], id :: _, _, _ => some (.deleteContentHostingConfiguration id)
    | [], [], [], id :: _, _ => some (.deleteCertificate id)
    | [], [], [], [], node :: _ => some (.purgeContentHostingCache node)
    | [], [], [], [], [] => none

/-- `PUT` when the search found the id, `POST` otherwise. -/
def uploadMethod (found : Bool) : String := if found then "PUT" else "POST"

/-- The body of each branch: the Content-Type, the body, the method and the path below the
M3 root that it hands to `m3_client_as_state_requests`. The certificate upload splits the
AF-unique id with `strtok_r` and joins the halves again with `"certificates/%s:%s"`. -/
def NextAction.request (env : Env) (pss : List ProvisioningSession) :
    NextAction → Option String × Option String × String × String
  | .getCertificates => (none, none, "GET", "certificates")
  | .getContentHostingConfigurations => (none, none, "GET", "content-hosting-configurations")
  | .uploadCertificate id found =>
    let provisioningSession := (strtokR id.data [':']).1.map String.mk
    let certId := String.mk (strtokR id.data [':']).2
    let data := env.readFile (env.getCertificateFilename provisioningSession certId)
    (some "application/x-pem-file", data, uploadMethod found,
      "certificates/" ++ (cStr provisioningSession ++ ":" ++ certId))
  | .uploadContentHostingConfiguration id found =>
    let chc := env.contentHostingConfigurationWithAfUniqueCertId (findProvisioningSession pss id)
    (some "application/json", chc.bind env.contentHostingConfigurationPrint, uploadMethod found,
      "content-hosting-configurations/" ++ id)
  | .deleteContentHostingConfiguration id =>
    (none, none, "DELETE", "content-hosting-configurations/" ++ id)
  | .deleteCertificate id => (none, none, "DELETE", "certificates/" ++ id)
  | .purgeContentHostingCache node =>
    (some "application/x-www-form-urlencoded", node.purgeRegex, "POST",
      "content-hosting-configurations/" ++ node.state ++ "/purge")

/-- `next_action_for_application_server`: run the branch the node's state selects, if any.
The store `pss` is where the CHC branch looks the queued session up. -/
def nextActionForApplicationServer (env : Env) (pss : List ProvisioningSession)
    (a : ApplicationServerState) : ApplicationServerState × Option M3Request :=
  match nextAction a with
  | none => (a, none)
  | some act =>
    let (type, data, method, component) := act.request env pss
    let sent := m3ClientAsStateRequests a type data method component
    (sent.1, some sent.2)

/-! ## The step, as one equation -/

/-- The request built for a branch. -/
def NextAction.toRequest (env : Env) (pss : List ProvisioningSession)
    (msafAs : ApplicationServer) (act : NextAction) : M3Request :=
  let r := act.request env pss
  { method := r.2.2.1, uri := m3Root msafAs ++ r.2.2.2, apiVersion := "v1",
    content := r.2.1, contentType := r.1 }

/-- The spec lemma of the step: it sends the request of the selected branch and changes
nothing but the client handle. -/
theorem nextActionForApplicationServer_eq (env : Env) (pss : List ProvisioningSession)
    (a : ApplicationServerState) :
    nextActionForApplicationServer env pss a =
      match nextAction a with
      | none => (a, none)
      | some act => ({ a with client := true }, some (act.toRequest env pss a.applicationServer)) := by
  unfold nextActionForApplicationServer
  cases nextAction a <;> rfl

/-- The node as the step leaves it: only the client handle can change. -/
def ApplicationServerState.afterNextAction (a : ApplicationServerState) : ApplicationServerState :=
  { a with client := a.client || (nextAction a).isSome }

theorem nextActionForApplicationServer_fst (env : Env) (pss : List ProvisioningSession)
    (a : ApplicationServerState) :
    (nextActionForApplicationServer env pss a).1 = a.afterNextAction := by
  rw [nextActionForApplicationServer_eq, ApplicationServerState.afterNextAction]
  cases nextAction a <;> simp

theorem nextActionForApplicationServer_snd (env : Env) (pss : List ProvisioningSession)
    (a : ApplicationServerState) :
    (nextActionForApplicationServer env pss a).2 =
      (nextAction a).map (NextAction.toRequest env pss a.applicationServer) := by
  rw [nextActionForApplicationServer_eq]
  cases nextAction a <;> rfl

/-- A branch is selected exactly when the node has pending work. -/
theorem nextAction_isSome_iff (a : ApplicationServerState) :
    (nextAction a).isSome ↔ a.HasPendingWork := by
  unfold nextAction ApplicationServerState.HasPendingWork
  split
  · simp_all
  · simp_all
  · split <;> simp_all

/-! ## Fixed inputs -/

/-- An AF in which every call outside the sources fails: no certificate file can be read and
no session's CHC can be rewritten. -/
def Env.failing : Env where
  getCertificateFilename _ _ := ""
  readFile _ := none
  contentHostingConfigurationWithAfUniqueCertId _ := none
  contentHostingConfigurationPrint _ := none

/-- A node of the server `as.example.net:7777` whose two lists are known to be empty and whose
certificate upload queue holds `uploads`. -/
def knownState (uploads : List String) : ApplicationServerState :=
  { applicationServerStateInit ⟨"as.example.net", "", 7777⟩ with
    currentCertificates := some [], currentContentHostingConfigurations := some [],
    uploadCertificates := uploads }

/-! ## The certificate upload -/

/-- With the AS's lists known and `p:c` at the head of the certificate upload queue, `strtok_r`
splits the id into `p` and `c`, the body is read from the file named for `(p, c)`, and the path
is `certificates/p:c`. -/
theorem uploadCertificate_request_split (env : Env) (pss : List ProvisioningSession)
    (a : ApplicationServerState) (certs chcs : List String) (p c : String) (rest : List String)
    (hcerts : a.currentCertificates = some certs)
    (hchcs : a.currentContentHostingConfigurations = some chcs)
    (hhead : a.uploadCertificates = (p ++ ":" ++ c) :: rest) (hne : p ≠ "") (hp : ':' ∉ p.data) :
    strtokR (p ++ ":" ++ c).data [':'] = (some p.data, c.data) ∧
      ((nextActionForApplicationServer env pss a).2.map fun r => (r.content, r.uri)) =
        some (env.readFile (env.getCertificateFilename (some p) c),
          m3Root a.applicationServer ++ ("certificates/" ++ (p ++ ":" ++ c))) := by
  have hsplit : strtokR (p ++ ":" ++ c).data [':'] = (some p.data, c.data) := by
    have hdata : (p ++ ":" ++ c).data = p.data ++ ':' :: c.data := by simp
    rw [hdata, strtokR_split (fun h => hne (String.ext h)) hp]
  have hbranch : nextAction a =
      some (.uploadCertificate (p ++ ":" ++ c) (decide (p ++ ":" ++ c ∈ certs))) := by
    simp only [nextAction, hcerts, hchcs, hhead]
  refine ⟨hsplit, ?_⟩
  rw [nextActionForApplicationServer_snd, hbranch]
  simp only [Option.map_some', NextAction.toRequest, NextAction.request, hsplit]
  rfl

theorem uploadCertificate_request_split_ps1 :
    strtokR ("ps1" ++ ":" ++ "c:1").data [':'] = (some "ps1".data, "c:1".data) ∧
      ((nextActionForApplicationServer Env.failing [] (knownState ["ps1" ++ ":" ++ "c:1"])).2.map
        fun r => (r.content, r.uri)) =
        some (Env.failing.readFile (Env.failing.getCertificateFilename (some "ps1") "c:1"),
          m3Root (knownState ["ps1" ++ ":" ++ "c:1"]).applicationServer ++
            ("certificates/" ++ ("ps1" ++ ":" ++ "c:1"))) :=
  uploadCertificate_request_split Env.failing [] _ [] [] "ps1" "c:1" [] rfl rfl rfl
    (by decide) (by decide)

/-- An unreadable certificate file does not stop the upload: the `POST` goes out with no body. -/
theorem uploadCertificate_unreadable_sent :
    (nextActionForApplicationServer Env.failing [] (knownState ["ps1:cert1"])).2 =
      some { method := "POST",
             uri := "http://as.example.net:7777/3gpp-m3/v1/certificates/ps1:cert1",
             apiVersion := "v1", content := none, contentType := some "application/x-pem-file" } := by
  decide

/-! ## The priority the spec prescribes -/

/-- The next M3 request as §4.6 of the spec prescribes it: method, path below `/3gpp-m3/v1/`
and Content-Type, by strict priority; an upload is a `PUT` when the AS already lists the id.
`certificateResource` is the resource a certificate upload addresses for a queued id: in the
spec's words the id itself. -/
def m3Prescribed (certificateResource : String → String) (a : ApplicationServerState) :
    Option (String × String × Option String) :=
  match a.currentCertificates, a.currentContentHostingConfigurations with
  | none, _ => some ("GET", "certificates", none)
  | some _, none => some ("GET", "content-hosting-configurations", none)
  | some certs, some chcs =>
    (a.uploadCertificates.head?.map fun id =>
      (if id ∈ certs then "PUT" else "POST", "certificates/" ++ certificateResource id,
        some "application/x-pem-file")) <|>
    (a.uploadContentHostingConfigurations.head?.map fun id =>
      (if id ∈ chcs then "PUT" else "POST", "content-hosting-configurations/" ++ id,
        some "application/json")) <|>
    (a.deleteContentHostingConfigurations.head?.map fun id =>
      ("DELETE", "content-hosting-configurations/" ++ id, none)) <|>
    (a.deleteCertificates.head?.map fun id => ("DELETE", "certificates/" ++ id, none)) <|>
    (a.purgeContentHostingCache.head?.map fun node =>
      ("POST", "content-hosting-configurations/" ++ node.state ++ "/purge",
        some "application/x-www-form-urlencoded"))

/-- What a request shows on the wire apart from its body: method, URI and Content-Type. -/
def M3Request.shape (r : M3Request) : String × String × Option String :=
  (r.method, r.uri, r.contentType)

/-- A prescribed request placed under the root of the node's server. -/
def atRoot (msafAs : ApplicationServer) (x : String × String × Option String) :
    String × String × Option String :=
  (x.1, m3Root msafAs ++ x.2.1, x.2.2)

theorem uploadMethod_decide (p : Prop) [Decidable p] :
    uploadMethod (decide p) = if p then "PUT" else "POST" := by
  by_cases hp : p <;> simp [uploadMethod, hp]

/-- Branch by branch, the code sends what the prescription says, once a certificate upload's
resource is read as the code prints it back. -/
theorem nextAction_shape (env : Env) (pss : List ProvisioningSession)
    (a : ApplicationServerState) :
    (nextAction a).map (fun act => (act.toRequest env pss a.applicationServer).shape) =
      (m3Prescribed afUniqueRejoin a).map (atRoot a.applicationServer) := by
  obtain ⟨as, _, _ | certs, _ | chcs, uc, uh, dc, dh, pc, _⟩ := a
  · rfl
  · rfl
  · rfl
  · cases uc with
    | cons id _ =>
      show some (uploadMethod (decide (id ∈ certs)), _, _) = some (if id ∈ certs then _ else _, _, _)
      rw [uploadMethod_decide]; rfl
    | nil =>
      cases uh with
      | cons id _ =>
        show some (uploadMethod (decide (id ∈ chcs)), _, _) = some (if id ∈ chcs then _ else _, _, _)
        rw [uploadMethod_decide]; rfl
      | nil => cases dh <;> cases dc <;> cases pc <;> rfl

/-- The step sends exactly one request when the node has pending work and none otherwise, the
one the spec's priority picks, with a certificate upload addressed to the re-joined AF-unique
id; it changes no queue and no current list. The re-joined id is the queued id exactly when the
queued id is AF-unique. -/
theorem nextActionForApplicationServer_prescribed (env : Env) (pss : List ProvisioningSession)
    (a : ApplicationServerState) :
    ((nextActionForApplicationServer env pss a).2.isSome ↔ a.HasPendingWork) ∧
      (nextActionForApplicationServer env pss a).2.map M3Request.shape =
        (m3Prescribed afUniqueRejoin a).map (atRoot a.applicationServer) ∧
      (nextActionForApplicationServer env pss a).1 =
        (if a.HasPendingWork then { a with client := true } else a) ∧
      ∀ id, afUniqueRejoin id = id ↔ IsAfUniqueId id := by
  rw [nextActionForApplicationServer_snd, nextActionForApplicationServer_fst, Option.isSome_map',
    ← nextAction_shape env pss, Option.map_map, ApplicationServerState.afterNextAction]
  have hs := nextAction_isSome_iff a
  refine ⟨hs, rfl, ?_, afUniqueRejoin_eq_self_iff⟩
  by_cases h : a.HasPendingWork
  · simp [h, hs.mpr h]
  · simp only [h, if_false, Bool.eq_false_iff.mpr (mt hs.mp h), Bool.or_false]

/-- With `abc` queued for upload, the spec's words would address `certificates/abc`; the
code addresses `certificates/abc:`. -/
theorem nextAction_path_not_queued_id :
    (nextActionForApplicationServer Env.failing [] (knownState ["abc"])).2.map M3Request.shape ≠
      (m3Prescribed id (knownState ["abc"])).map (atRoot (knownState ["abc"]).applicationServer) := by
  decide

end Msaf
