import Msaf.CString

/-!
# Responses and problem documents (`server.c`)

The AF answers every request through `nf_server_new_response`, which sets the optional headers
from its arguments and always a `Server` header naming the AF, and reports errors through
`nf_server_send_error`, which builds an RFC 7807 problem document from the request's service
name, API version and resource components and sends it with `nf_server_send_problem`.

The strings `ogs_msprintf` builds live on a heap of cells (`StrHeap`); `ogs_free` frees a cell,
and a `%s` conversion of a freed cell is undefined behaviour, which the model answers with
`none`.

**The laws.**

- `nfServerSendErrorProblem_eq`: what `nf_server_send_error` sends, for every status, component
  count and message. `type` is `"/" ++ service name ++ "/" ++ API version`. With no component
  after the first the `instance` is `"/" ++ component[0]`; with one or more, the loop frees
  `problem.instance` and then formats the next value from it, so the document is built from
  freed memory.
- `nfServerSendProblem_response`: the response carrying a problem document has the document's
  status, the document as its body under `Content-Type: application/problem+json` (unless the
  status is 204), and the AF's `Server` header.

**What it does not establish.** JSON serialisation (`cJSON_Print` of
`OpenAPI_problem_details_convertToJSON`) and the parse of a caller's `invalidParams` are library
code: the first is a parameter, the second is not modelled. Allocation failure is not modelled.
-/

namespace Msaf

/-! ## A heap of strings -/

/-- The strings `ogs_msprintf` allocates, each live or freed (`none`); a pointer is a position. -/
structure StrHeap where
  cells : List (Option String)
  deriving DecidableEq, Repr

def StrHeap.empty : StrHeap := ⟨[]⟩

/-- `ogs_msprintf`: a fresh cell holding the string, and its pointer. -/
def StrHeap.alloc (h : StrHeap) (s : String) : StrHeap × Nat :=
  (⟨h.cells ++ [some s]⟩, h.cells.length)

/-- `ogs_free`. -/
def StrHeap.free (h : StrHeap) (p : Nat) : StrHeap := ⟨h.cells.set p none⟩

/-- The string a `%s` reads at `p`: `none` when the cell is freed, where the read is undefined
behaviour. -/
def StrHeap.read (h : StrHeap) (p : Nat) : Option String := h.cells[p]?.bind id

@[simp] theorem StrHeap.read_alloc (h : StrHeap) (s : String) :
    (h.alloc s).1.read (h.alloc s).2 = some s := by
  simp [StrHeap.alloc, StrHeap.read]

@[simp] theorem StrHeap.read_free (h : StrHeap) (p : Nat) : (h.free p).read p = none := by
  simp only [StrHeap.free, StrHeap.read, List.getElem?_set_self']
  cases h.cells[p]? <;> rfl

/-! ## `nf_server_send_error` -/

/-- The parts of `ogs_sbi_message_t` the error path reads: `h.service.name`, `h.api.version`
and the array `h.resource.component`, NULL past the parsed components. -/
structure SbiMessage where
  serviceName : Option String
  apiVersion : Option String
  component : List (Option String)
  deriving DecidableEq, Repr

/-- `message->h.resource.component[i]`. -/
def SbiMessage.componentAt (m : SbiMessage) (i : Nat) : Option String := m.component.getD i none

/-- `OpenAPI_problem_details_t`, the fields `nf_server_send_error` sets (`instance` is
`instanceUri`; `is_status` is `status` being present). -/
structure ProblemDetails where
  type : Option String
  instanceUri : Option String
  status : Option Int
  title : Option String
  detail : Option String
  deriving DecidableEq, Repr

/-- The loop `for (i = 1; i <= number_of_components; i++)` building `problem.instance`, from
component `i` with `k` turns left and `p` pointing at the instance so far. Each turn frees
`problem.instance` and then formats `"%s/%s"` from it and component `i`; `none` when a turn
reads freed memory. -/
def instanceLoop (m : SbiMessage) : Nat → Nat → StrHeap → Nat → Option (StrHeap × Nat)
  | _, 0, h, p => some (h, p)
  | i, k + 1, h, p =>
    let h := h.free p
    (h.read p).bind fun s =>
      let r := h.alloc (s ++ "/" ++ cStr (m.componentAt i))
      instanceLoop m (i + 1) k r.1 r.2

/-- `nf_server_send_error` up to the send: the problem document, or `none` when building its
`instance` reads freed memory. `problem_detail`'s `invalidParams` is not modelled. -/
def nfServerSendErrorProblem (status numberOfComponents : Int) (message : Option SbiMessage)
    (title detail : Option String) : Option ProblemDetails :=
  let problem : ProblemDetails := ⟨none, none, if status ≠ 0 then some status else none, title, detail⟩
  match message with
  | none => some problem
  | some m =>
    let type := "/" ++ cStr m.serviceName ++ "/" ++ cStr m.apiVersion
    let r := StrHeap.empty.alloc ("/" ++ cStr (m.componentAt 0))
    (instanceLoop m 1 numberOfComponents.toNat r.1 r.2).bind fun q =>
      (q.1.read q.2).map fun inst => { problem with type := some type, instanceUri := some inst }

/-- A turn of the loop reads the cell it has just freed. -/
theorem instanceLoop_succ (m : SbiMessage) (i k : Nat) (h : StrHeap) (p : Nat) :
    instanceLoop m i (k + 1) h p = none := by
  simp [instanceLoop]

/-- What `nf_server_send_error` sends for a message: with no component after the first, the
document with `type` `/<service>/<version>` and `instance` `/<component[0]>`; with any more,
nothing defined, since the loop formats from freed memory. -/
theorem nfServerSendErrorProblem_eq (status numberOfComponents : Int) (m : SbiMessage)
    (title detail : Option String) :
    nfServerSendErrorProblem status numberOfComponents (some m) title detail =
      if numberOfComponents ≤ 0 then
        some ⟨some ("/" ++ cStr m.serviceName ++ "/" ++ cStr m.apiVersion),
          some ("/" ++ cStr (m.componentAt 0)), if status ≠ 0 then some status else none, title,
          detail⟩
      else none := by
  by_cases hn : numberOfComponents ≤ 0
  · have h0 : numberOfComponents.toNat = 0 := by omega
    simp [nfServerSendErrorProblem, hn, h0, instanceLoop]
  · obtain ⟨k, hk⟩ : ∃ k, numberOfComponents.toNat = k + 1 :=
      ⟨numberOfComponents.toNat - 1, by omega⟩
    simp [nfServerSendErrorProblem, hn, hk, instanceLoop_succ]

/-! ## Building the response -/

/-- What `nf_server_new_response` and `nf_build_content` read beyond their arguments: the server
name, `FIVE_API_RELEASE`, `MSAF_NAME` and `MSAF_VERSION`, the `info.title` and `info.version`
of the three named interfaces' APIs, `get_time`, and the JSON a problem document prints as. -/
structure ServerInfo where
  serverName : String
  fiveApiRelease : String
  msafName : String
  msafVersion : String
  provisioningSessionInfo : String × String
  contentHostingConfigurationInfo : String × String
  serviceAccessInformationInfo : String × String
  getTime : Int → String
  problemDetailsJson : ProblemDetails → String

/-- `ogs_sbi_response_t`: status, headers and content. -/
structure Response where
  status : Int
  headers : List (String × String)
  content : Option String
  deriving DecidableEq, Repr

/-- `ogs_sbi_header_set`: the value replaces any earlier one under the key. -/
def headerSet (headers : List (String × String)) (key value : String) : List (String × String) :=
  headers.filter (·.1 ≠ key) ++ [(key, value)]

/-- `if (value) ogs_sbi_header_set(headers, key, value)`. -/
def headerSetOpt (headers : List (String × String)) (key : String) :
    Option String → List (String × String)
  | some value => headerSet headers key value
  | none => headers

/-- The value under a key. -/
def headerGet (headers : List (String × String)) (key : String) : Option String :=
  (headers.find? (·.1 = key)).map (·.2)

@[simp] theorem headerGet_headerSet_self (headers : List (String × String)) (key value : String) :
    headerGet (headerSet headers key value) key = some value := by
  simp [headerGet, headerSet, List.find?_append, List.find?_filter]

@[simp] theorem headerGet_headerSet_ne (headers : List (String × String)) {key key' : String}
    (value : String) (h : key ≠ key') :
    headerGet (headerSet headers key value) key' = headerGet headers key' := by
  have hnew : List.find? (fun kv : String × String => decide (kv.1 = key')) [(key, value)] = none := by
    simp [h]
  simp only [headerGet, headerSet, List.find?_append, List.find?_filter, hnew, Option.or_none]
  congr 2
  funext kv
  by_cases hk : kv.1 = key' <;> simp [hk, Ne.symm h]

/-- The `Server` header for an interface: the AF, with the API's title and version for the
three named interfaces. -/
def serverHeader (info : ServerInfo) (interface : Option String) : String :=
  let head := "5GMSdAF-" ++ info.serverName ++ "/" ++ info.fiveApiRelease
  let tail := info.msafName ++ "/" ++ info.msafVersion
  let withApi (api : String × String) :=
    head ++ " " ++ "(info.title=" ++ api.1 ++ "; info.version=" ++ api.2 ++ ")" ++ " " ++ tail
  match interface with
  | none => head ++ " " ++ tail
  | some i =>
    if i = "m1 provisioningSession" then withApi info.provisioningSessionInfo
    else if i = "m1 contentHostingConfiguration" then withApi info.contentHostingConfigurationInfo
    else if i = "m5" then withApi info.serviceAccessInformationInfo
    else head ++ " " ++ tail

/-- `nf_server_new_response(location, content_type, last_modified, etag, cache_control,
interface)`. -/
def nfServerNewResponse (info : ServerInfo) (location contentType : Option String)
    (lastModified : Int) (etag : Option String) (cacheControl : Int) (interface : Option String) :
    Response :=
  let hs := headerSetOpt [] "Content-Type" contentType
  let hs := headerSetOpt hs "Location" location
  let hs := headerSetOpt hs "Last-Modified"
    (if lastModified ≠ 0 then some (info.getTime lastModified) else none)
  let hs := headerSetOpt hs "ETag" etag
  let hs := headerSetOpt hs "Cache-Control"
    (if cacheControl ≠ 0 then some ("max-age=" ++ toString cacheControl) else none)
  ⟨0, headerSet hs "Server" (serverHeader info interface), none⟩

/-- `nf_server_populate_response`: the content and the status. -/
def nfServerPopulateResponse (response : Response) (content : Option String) (status : Int) :
    Response :=
  { response with content := content, status := status }

/-- The parts of `ogs_sbi_message_t` the response builders read. -/
structure HttpMessage where
  contentType : Option String
  location : Option String
  cacheControl : Option String
  problemDetails : Option ProblemDetails

/-- `nf_build_json`: the printed problem document, if the message carries one. -/
def nfBuildJson (info : ServerInfo) (message : HttpMessage) : Option String :=
  message.problemDetails.map info.problemDetailsJson

/-- `nf_build_content`: the body, under the message's content type or `application/json`. -/
def nfBuildContent (info : ServerInfo) (response : Response) (message : HttpMessage) : Response :=
  match nfBuildJson info message with
  | none => { response with content := none }
  | some content =>
    { response with
      content := some content
      headers := headerSet response.headers "Content-Type"
        (message.contentType.getD "application/json") }

/-- `nf_build_response(message, status)`. -/
def nfBuildResponse (info : ServerInfo) (message : HttpMessage) (status : Int) : Response :=
  let response := { nfServerNewResponse info none none 0 none 0 none with status := status }
  let response := if status ≠ 204 then nfBuildContent info response message else response
  let hs := headerSetOpt response.headers "Location" message.location
  { response with headers := headerSetOpt hs "Cache-Control" message.cacheControl }

/-- `nf_server_send_problem`: the response sent for a problem document. -/
def nfServerSendProblem (info : ServerInfo) (problem : ProblemDetails) : Response :=
  nfBuildResponse info ⟨some "application/problem+json", none, none, some problem⟩
    (problem.status.getD 0)

/-- `nf_server_send_error`: the response sent, or `none` when the problem document is built from
freed memory. -/
def nfServerSendError (info : ServerInfo) (status numberOfComponents : Int)
    (message : Option SbiMessage) (title detail : Option String) : Option Response :=
  (nfServerSendErrorProblem status numberOfComponents message title detail).map
    (nfServerSendProblem info)

/-- A problem's response: the problem's status and the AF's `Server` header; unless the status
is 204, the printed document as the body under `application/problem+json`, and with 204 no body
and no content type. -/
theorem nfServerSendProblem_response (info : ServerInfo) (problem : ProblemDetails) :
    (nfServerSendProblem info problem).status = problem.status.getD 0 ∧
      headerGet (nfServerSendProblem info problem).headers "Server" = some (serverHeader info none) ∧
      (nfServerSendProblem info problem).content =
        (if problem.status.getD 0 = 204 then none else some (info.problemDetailsJson problem)) ∧
      headerGet (nfServerSendProblem info problem).headers "Content-Type" =
        (if problem.status.getD 0 = 204 then none else some "application/problem+json") := by
  by_cases h204 : problem.status.getD 0 = 204 <;>
    simp [nfServerSendProblem, nfBuildResponse, nfBuildContent, nfBuildJson, nfServerNewResponse,
      headerSetOpt, headerGet, headerSet, h204]

end Msaf
