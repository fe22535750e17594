/-
The request pipeline (`handle_proxy_request`), as far as it counts and logs.

A request ends in one of some twenty exits. Each of them says by hand what it counts as an error,
which token usage it adds, and what it logs. A call brings what the functions that the pipeline
calls return; the effects of a request stand in their order, those of the spawned stream task
included. The logs and answers have the fields that others count.

* `handleProxyRequest` gives the effects of a request.
-/
import AiOpenRouter.ForwardHeaders
import AiOpenRouter.Requests
import AiOpenRouter.Routing
import AiOpenRouter.StreamLoop
import AiOpenRouter.StreamUsage

namespace AiOpenRouter

/-! ### Effects -/

inductive PipelineAnswer where
  /-- `proxy_error_response`, and the answer of `reject_and_log`. -/
  | error (status : ℕ) (code message : String)
  | json (body : Json)
  | stream (status : ℕ)

def PipelineAnswer.status : PipelineAnswer → ℕ
  | error status _ _ => status
  | json _ => 200
  | stream status => status

/-- What `finalize_log` is given. -/
structure FinalLog where
  traceId : String
  httpStatus : ℕ
  upstreamStatus : Option ℕ
  tokenUsage : Option TokenUsage
  status : String

/-- What a request does to the metrics, to the log, and to its client. -/
inductive PipelineEffect where
  | incrementRequest (stream : Bool)
  | incrementError
  | addLatency (elapsedMs : ℕ)
  | addTokenUsage (usage : TokenUsage)
  | appendProcessingLog (traceId : String)
  | finalizeLog (entry : FinalLog)
  | logSimple (traceId : String) (httpStatus : ℕ)
  | answer (answer : PipelineAnswer)
  /-- The end of the stream task. -/
  | streamEnd (failed : Bool)

/-! ### A call -/

/-- The body that `to_bytes` reads, and its value. -/
inductive RequestBody where
  | tooLarge
  | empty
  | bytes (value : Option Json)

def RequestBody.isTooLarge : RequestBody → Bool
  | tooLarge => true
  | _ => false

structure UpstreamAnswer where
  status : ℕ
  /-- The content type, in lower case. -/
  contentType : String
  text : Except String String
  /-- The chunks of a stream that the accumulator consumed. -/
  consumed : List Bytes
  /-- `stream_failed` at the end of the loop. -/
  streamFailed : Bool
  /-- How often the loop updates the processing log. -/
  progressLogs : ℕ

inductive UpstreamOutcome where
  | failed (message : String)
  | timedOut (message : String)
  | answered (answer : UpstreamAnswer)

/-- A request, and what the called functions return for it. -/
structure ProxyCall where
  traceId : String
  method : String
  groupId : String
  suffix : String
  /-- `request_matches_local_access_token`. -/
  tokenMatches : Bool
  /-- `refresh_route_index_if_needed`. -/
  refresh : Except String Unit
  /-- The configuration, unless its lock is poisoned. -/
  config : Option ProxyConfig
  routeIndex : Option (HashMap RouteResolution)
  body : RequestBody
  /-- The configuration in `resolve_runtime_active_route`. -/
  laterConfig : Option ProxyConfig
  /-- `prepare_transformer_for_route`: the name of the transformer. -/
  transformer : ActiveRoute → Except String String
  /-- `resolve_upstream_url`. -/
  upstreamUrl : ActiveRoute → Except String String
  /-- `build_upstream_body`, of the body with the default thinking. -/
  upstreamBody : ActiveRoute → Json → Except String Json
  upstream : UpstreamOutcome
  /-- `map_response_body`. -/
  mapResponseBody : Json → Json
  elapsedMs : ℕ

/-- `detect_entry_protocol`. -/
def detectEntryProtocol (suffix : String) : Option (EntryProtocol × EntryEndpoint) :=
  let normalized :=
    if suffix = "" ∨ suffix = "/" then "/chat/completions".toList
    else
      let s := match suffix.toList with
        | [] => []
        | c :: rest => c :: Text.trimEndMatches (· = '/') rest
      if s.head? = some '/' then s else '/' :: s
  if normalized = "/messages".toList ∨ normalized = "/v1/messages".toList then
    some (.anthropic, .messages)
  else if normalized = "/chat/completions".toList ∨
      normalized = "/v1/chat/completions".toList then
    some (.openai, .chatCompletions)
  else if normalized = "/responses".toList ∨ normalized = "/v1/responses".toList then
    some (.openai, .responses)
  else none

/-- `assert_rule_ready`. -/
def assertRuleReady (rule : Rule) : Except (ℕ × String) Unit :=
  if (Text.trim rule.name.toList).isEmpty then .error (409, "Active rule name is empty")
  else if (Text.trim rule.apiAddress.toList).isEmpty then
    .error (409, "Active rule apiAddress is empty")
  else .ok ()

def requestModel (body : Json) : String :=
  (((body.get "model").bind Json.asStr).filter fun model =>
    !(Text.trim model.toList).isEmpty).getD "default"

/-- `merge_token_usage`. -/
def mergeTokenUsage : Option TokenUsage → Option TokenUsage → Option TokenUsage
  | none, none => none
  | some upstream, none => some upstream
  | none, some output => some output
  | some upstream, some output =>
    let first (m n : ℕ) : ℕ := if 0 < m then m else n
    some {
      inputTokens := first upstream.inputTokens output.inputTokens
      outputTokens := first upstream.outputTokens output.outputTokens
      cacheReadTokens := first upstream.cacheReadTokens output.cacheReadTokens
      cacheWriteTokens := first upstream.cacheWriteTokens output.cacheWriteTokens }

/-- `resolve_request_timeout_ms`. -/
def resolveRequestTimeoutMs (stream : Bool) (transformerName : String) : ℕ :=
  if stream then 600000 else if transformerName = "cc_openai2" then 300000 else 60000

def readsAsStream (stream : Bool) (contentType : String) : Bool :=
  containsText contentType "text/event-stream" ||
    (stream && !containsText contentType "text/event-stream" &&
      !containsText contentType "application/json" &&
      (contentType = "" || containsText contentType "text/plain"))

/-! ### The exits -/

namespace ProxyCall

/-- `reject_and_log`. -/
def rejectAndLog (call : ProxyCall) (status : ℕ) (code message : String) : List PipelineEffect :=
  (if 400 ≤ status then [.incrementError] else []) ++
    [.logSimple call.traceId status, .answer (.error status code message)]

def fail (status : ℕ) (message : String) : List PipelineEffect :=
  [.incrementError, .answer (.error status "proxy_error" message)]

def failLogged (call : ProxyCall) (status : ℕ) (code message : String)
    (upstreamStatus : Option ℕ) (tokenUsage : Option TokenUsage) : List PipelineEffect :=
  [.incrementError,
    .finalizeLog ⟨call.traceId, status, upstreamStatus, tokenUsage, "error"⟩,
    .answer (.error status code message)]

def admission (call : ProxyCall) : Except (List PipelineEffect) ActiveRoute :=
  if call.method ≠ "POST" then
    .error (call.rejectAndLog 404 "not_found"
      "Use POST /oc/:groupId/:endpoint (messages/chat/completions/responses)")
  else
    match detectEntryProtocol call.suffix with
    | none => .error (call.rejectAndLog 404 "not_found"
        ("Unsupported entry path: /oc/" ++ call.groupId ++ call.suffix))
    | some _ =>
      match call.refresh with
      | .error message => .error (fail 500 message)
      | .ok () =>
        match call.config with
        | none => .error (fail 500 "Failed to acquire config lock")
        | some config =>
          if config.server.authEnabled && !call.tokenMatches then
            .error (call.rejectAndLog 401 "unauthorized" "Missing or invalid access token")
          else
            match call.routeIndex with
            | none => .error (fail 500 "Failed to acquire route index lock")
            | some index =>
              match index.get call.groupId with
              | some (.ready route) => .ok route
              | some (.noRoutingTable groupName) =>
                .error (fail 409 ("Group " ++ groupName ++ " has no routing table"))
              | some (.noDefaultRoute groupName) =>
                .error (fail 409 ("Group " ++ groupName ++ " routing table has no default route"))
              | none => .error (fail 404 ("Group not found for id: " ++ call.groupId))

def readBody (call : ProxyCall) : Except (List PipelineEffect) Json :=
  match call.body with
  | .tooLarge =>
    .error [.answer (.error 413 "proxy_error" "Request body too large (max 1048576000 bytes)")]
  | .empty => .ok (.obj [])
  | .bytes none => .error (fail 400 "Request body must be valid JSON")
  | .bytes (some value) => .ok value

/-- `resolve_runtime_active_route` and `assert_rule_ready`. -/
def resolveRule (call : ProxyCall) (route : ActiveRoute) (body : Json) :
    Except (List PipelineEffect) ActiveRoute :=
  match call.laterConfig with
  | none => .error (fail 500 "config lock poisoned")
  | some config =>
    match resolveRuntimeActiveRoute config route (requestModel body) with
    | .error message => .error (fail 500 message)
    | .ok resolved =>
      match assertRuleReady resolved.rule with
      | .error (status, message) => .error (fail status message)
      | .ok () => .ok resolved

def convert (call : ProxyCall) (route : ActiveRoute) (body : Json) :
    Except (List PipelineEffect) (String × Json) :=
  match call.transformer route with
  | .error message => .error (call.failLogged 422 "proxy_error" message none none)
  | .ok name =>
    match call.upstreamUrl route with
    | .error message => .error (call.failLogged 400 "proxy_error" message none none)
    | .ok _ =>
      match call.upstreamBody route body with
      | .error message => .error (call.failLogged 422 "proxy_error" message none none)
      | .ok upstreamBody => .ok (name, upstreamBody)

/-- The pipeline up to the request to the upstream: the name of the transformer, and the body. -/
def prepare (call : ProxyCall) : Except (List PipelineEffect) (String × Json) := do
  let route ← call.admission
  let body ← call.readBody
  let route ← call.resolveRule route body
  call.convert route body

def upstreamErrorMessage (status : ℕ) (body : Json) : String :=
  (((body.get "error").bind (Json.get · "message")).bind Json.asStr).getD
    ("Upstream returned HTTP " ++ toString status)

def forwardStream (env : Env) (call : ProxyCall) (answer : UpstreamAnswer) : List PipelineEffect :=
  let upstreamIsError := decide (400 ≤ answer.status)
  let usage := streamUsage env answer.consumed
  [.answer (.stream (if upstreamIsError then answer.status else 200))] ++
    List.replicate (answer.progressLogs + 1) (.appendProcessingLog call.traceId) ++
    (usage.map PipelineEffect.addTokenUsage).toList ++
    [.addLatency call.elapsedMs] ++
    (if answer.streamFailed || upstreamIsError then [.incrementError] else []) ++
    [.finalizeLog ⟨call.traceId,
        if answer.streamFailed then 502 else if upstreamIsError then answer.status else 200,
        some answer.status, usage,
        if answer.streamFailed || upstreamIsError then "error" else "ok"⟩,
      .streamEnd answer.streamFailed]

def succeed (call : ProxyCall) (upstreamStatus : ℕ) (usage : Option TokenUsage)
    (outputBody : Json) : List PipelineEffect :=
  (usage.map PipelineEffect.addTokenUsage).toList ++
    [.addLatency call.elapsedMs,
      .finalizeLog ⟨call.traceId, 200, some upstreamStatus, usage, "ok"⟩,
      .answer (.json outputBody)]

def forwardAnswer (env : Env) (call : ProxyCall) (answer : UpstreamAnswer) : List PipelineEffect :=
  match answer.text with
  | .error message =>
    call.failLogged 502 "upstream_error" ("Failed to read upstream response: " ++ message)
      (some answer.status) none
  | .ok text =>
    match env.fromStr text with
    | .error _ =>
      call.failLogged 502 "upstream_error"
        ("Upstream returned non-JSON response: " ++ String.ofList (text.toList.take 200))
        (some answer.status) none
    | .ok upstreamJson =>
      if 400 ≤ answer.status then
        call.failLogged answer.status "upstream_error"
          (upstreamErrorMessage answer.status upstreamJson) (some answer.status)
          (extractTokenUsage upstreamJson)
      else
        let outputBody := call.mapResponseBody upstreamJson
        call.succeed answer.status
          (mergeTokenUsage (extractTokenUsage upstreamJson) (extractTokenUsage outputBody))
          outputBody

def forward (env : Env) (call : ProxyCall) (name : String) (stream : Bool) : List PipelineEffect :=
  match call.upstream with
  | .failed message =>
    call.failLogged 502 "upstream_error" ("Upstream request failed: " ++ message) none none
  | .timedOut message =>
    if stream then
      call.failLogged 504 "upstream_error"
        ("Upstream response header timeout exceeded after " ++
          toString (resolveRequestTimeoutMs stream name) ++ "ms") none none
    else call.failLogged 502 "upstream_error" ("Upstream request failed: " ++ message) none none
  | .answered answer =>
    if readsAsStream stream answer.contentType then call.forwardStream env answer
    else call.forwardAnswer env answer

def asksStream (upstreamBody : Json) : Bool :=
  ((upstreamBody.get "stream").bind Json.asBool).getD false

/-- `handle_proxy_request`. -/
def handleProxyRequest (env : Env) (call : ProxyCall) : List PipelineEffect :=
  match call.prepare with
  | .error effects => effects
  | .ok (name, upstreamBody) =>
    let stream := asksStream upstreamBody
    [.incrementRequest stream, .appendProcessingLog call.traceId] ++ call.forward env name stream

end ProxyCall

end AiOpenRouter
