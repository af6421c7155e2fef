import CloudGame.Lib.Text
import CloudGame.Signal.Admission
import CloudGame.Worker.UrlUtils

/-!
# The worker's token at the server

The worker appends its token to the signaling URL (`resolve_signal_url`,
`arcade-worker/src/main.rs`) and the server compares the `token` of the query with its own
(`worker_ws`, `arcade-signal/src/ws.rs`).  Between them the query is read as a form:
`Query<WsAuthQuery>` refuses a query that gives `token` twice.  An environment variable that is not
Unicode counts as unset, and the request is taken to reach the server as a WebSocket request.

* `token_delivery`: the token arrives as it is, and the server accepts it unless the URL had a
  parameter of that name in another spelling.
-/

namespace CloudGame.Handshake

open CloudGame.Lib CloudGame.Worker
open CloudGame.Signal (wsAuthQuery)

/-! ## The two parties -/

/-- A token from the environment; the same code on both sides. -/
def trimmedToken (value : String) : Option String :=
  if trim value = "" then none else some (trim value)

structure WorkerEnv where
  workerSignalUrl : Option String
  workerSignalToken : Option String
  signalAuthToken : Option String

def WorkerEnv.baseUrl (env : WorkerEnv) : String :=
  env.workerSignalUrl.getD "ws://signal:8000/wws"

/-- An empty `WORKER_SIGNAL_TOKEN` is set: the other variable is not asked. -/
def WorkerEnv.token (env : WorkerEnv) : Option String :=
  (env.workerSignalToken.or env.signalAuthToken).bind trimmedToken

def resolveSignalUrl (env : WorkerEnv) : String :=
  appendQueryParam env.baseUrl "token" env.token

/-- The token of the server's `AppConfig`. -/
def authTokenFromEnv (signalAuthToken : Option String) : Option String :=
  signalAuthToken.bind trimmedToken

def isTokenValid (authToken candidate : Option String) : Bool :=
  match authToken with
  | some expected => candidate = some expected
  | none => true

/-- How decoded bytes become text: bytes of text are that text, others have replacements. -/
structure LossyUtf8 where
  decode : List UInt8 → String
  decode_toBytes : ∀ s, decode (toBytes s) = s

/-- The pairs of a query; empty segments are none. -/
def queryPairs (lossy : LossyUtf8) (url : String) : List (String × String) :=
  ((querySegments (toBytes url)).filter (· ≠ [])).map fun segment =>
    (lossy.decode (formPair segment).1, lossy.decode (formPair segment).2)

inductive WsReply where
  | badRequest
  | unauthorized
  | upgraded
deriving DecidableEq

def workerWs (lossy : LossyUtf8) (authToken : Option String) (url : String) : WsReply :=
  match wsAuthQuery (queryPairs lossy url) with
  | none => .badRequest
  | some token => if isTokenValid authToken token then .upgraded else .unauthorized

/-! ## Delivery -/

section Delivery

variable {lossy : LossyUtf8} {base : String}

/-- No parameter of the URL reads as `token`. -/
def NoToken (lossy : LossyUtf8) (base : String) : Prop :=
  ∀ segment ∈ querySegments (toBytes base), lossy.decode (formPair segment).1 ≠ "token"

/-- An empty segment has no name. -/
theorem noToken_iff :
    NoToken lossy base ↔ (queryPairs lossy base).filter (fun pair => pair.1 = "token") = [] := by
  have hempty : lossy.decode (formPair []).1 = "" := lossy.decode_toBytes ""
  rw [List.filter_eq_nil_iff]
  unfold NoToken queryPairs
  constructor
  · intro hnone pair hpair
    obtain ⟨segment, hsegment, rfl⟩ := List.mem_map.mp hpair
    simpa using hnone segment (List.mem_filter.mp hsegment).1
  · intro hnone segment hsegment htoken
    by_cases hs : segment = []
    · rw [hs, hempty] at htoken
      exact absurd htoken (by decide)
    · have hmem : segment ∈ (querySegments (toBytes base)).filter (· ≠ []) :=
        List.mem_filter.mpr ⟨hsegment, decide_eq_true hs⟩
      exact hnone _ (List.mem_map_of_mem hmem) (decide_eq_true htoken)

/-- The pairs of the URL, and the token behind them. -/
theorem queryPairs_append_token (hfragment : '#' ∉ base.toList) (hparam : ¬ HasParam base "token")
    (value : String) :
    queryPairs lossy (appendQueryParam base "token" (some value)) =
      queryPairs lossy base ++ [("token", value)] := by
  have hkeep : [paramSegment "token" value].filter (· ≠ []) = [paramSegment "token" value] :=
    List.filter_cons_of_pos rfl
  unfold queryPairs
  rw [querySegments_append_param (by decide) hfragment hparam, List.filter_append,
    hkeep, List.map_append, List.map_singleton, formPair_paramSegment (by simp),
    lossy.decode_toBytes, lossy.decode_toBytes]

/-- The server's answer to a URL with the token behind its own parameters. -/
theorem workerWs_upgraded_iff (hfragment : '#' ∉ base.toList) (hparam : ¬ HasParam base "token")
    (value : String) :
    workerWs lossy (some value) (appendQueryParam base "token" (some value)) = .upgraded ↔
      NoToken lossy base := by
  rw [noToken_iff, workerWs, queryPairs_append_token hfragment hparam, wsAuthQuery,
    List.filter_append]
  show _ ↔ (queryPairs lossy base).filter (fun pair => pair.1 = "token") = []
  cases (queryPairs lossy base).filter fun pair => pair.1 = "token" with
  | nil => simp [isTokenValid]
  | cons pair pairs =>
    cases pairs with
    | nil => simp
    | cons => simp

/-- **Token delivery.**  The query of the new URL is that of the old one with the token behind it,
escaped throughout, and appending again changes nothing.  A server with the same token accepts the
worker exactly when no parameter of the worker's base URL reads as `token`. -/
theorem token_delivery (lossy : LossyUtf8) (hfragment : '#' ∉ base.toList)
    (hquestion : ¬ "?token=".toList <:+: base.toList)
    (hamp : ¬ "&token=".toList <:+: base.toList) :
    (∀ value : String,
      querySegments (toBytes (appendQueryParam base "token" (some value))) =
        querySegments (toBytes base) ++ [paramSegment "token" value] ∧
      formPair (paramSegment "token" value) = (toBytes "token", toBytes value) ∧
      queryPairs lossy (appendQueryParam base "token" (some value)) =
        queryPairs lossy base ++ [("token", value)] ∧
      Escaped (urlEncodeQueryComponent value).toList ∧
      ∀ again : Option String,
        appendQueryParam (appendQueryParam base "token" (some value)) "token" again =
          appendQueryParam base "token" (some value)) ∧
    ∀ (worker : WorkerEnv) (signalAuthToken : Option String) (token : String),
      worker.baseUrl = base → worker.token = some token →
      authTokenFromEnv signalAuthToken = some token →
      (workerWs lossy (authTokenFromEnv signalAuthToken) (resolveSignalUrl worker) = .upgraded ↔
        NoToken lossy base) := by
  have hparam : ¬ HasParam base "token" := not_or.mpr ⟨hquestion, hamp⟩
  refine ⟨fun value => ⟨?_, ?_, ?_, ?_, ?_⟩, ?_⟩
  · exact querySegments_append_param (by decide) hfragment hparam value
  · exact formPair_paramSegment (by simp) value
  · exact queryPairs_append_token hfragment hparam value
  · exact urlEncode_escaped value
  · exact append_of_hasParam (append_hasParam base "token" value)
  · rintro worker signalAuthToken token rfl hworker hserver
    rw [hserver, resolveSignalUrl, hworker]
    exact workerWs_upgraded_iff hfragment hparam token

/-- Strict decoding, and one replacement for all the rest. -/
def LossyUtf8.strict : LossyUtf8 where
  decode bytes := (fromUtf8 bytes).getD "\uFFFD"
  decode_toBytes s := by rw [fromUtf8_toBytes, Option.getD_some]

theorem token_delivery_escaped :
    workerWs .strict (authTokenFromEnv (some "a b&c")) (resolveSignalUrl
      ⟨some "ws://signal:8000/wws?x=1", some " a b&c ", none⟩) = .upgraded :=
  have hdelivery := @token_delivery "ws://signal:8000/wws?x=1" .strict (by decide) (by decide)
    (by decide)
  have hnone : NoToken .strict "ws://signal:8000/wws?x=1" := by
    unfold NoToken
    decide +kernel
  (hdelivery.2 ⟨some "ws://signal:8000/wws?x=1", some " a b&c ", none⟩ (some "a b&c") "a b&c" rfl
    (by decide +kernel) (by decide +kernel)).mpr hnone

/-- A bare `token` in the base URL is not found, and the server refuses the second one. -/
theorem token_delivered_twice :
    let worker : WorkerEnv := ⟨some "ws://signal:8000/wws?token", some "abc", none⟩
    '#' ∉ worker.baseUrl.toList ∧ ¬ "?token=".toList <:+: worker.baseUrl.toList ∧
      ¬ "&token=".toList <:+: worker.baseUrl.toList ∧
      worker.token = some "abc" ∧ authTokenFromEnv (some "abc") = some "abc" ∧
      resolveSignalUrl worker = "ws://signal:8000/wws?token&token=abc" ∧
      workerWs .strict (authTokenFromEnv (some "abc")) (resolveSignalUrl worker) = .badRequest := by
  decide +kernel

end Delivery

end CloudGame.Handshake
