import ControlPlane.Intel.Agent

/-!
# The nodes of the agent

The model of `agent/nodes.py` up to the validation. A node is given the state and returns a patch, a
function on states, which its caller applies. It makes calls and may raise, and has no state of its
own.
-/

namespace ControlPlane.Intel

open Text AgentOp

/-- A patch of the state. -/
abbrev Patch := AgentState → AgentState

/-- `node_load_context`. -/
def nodeLoadContext (cfg : AgentConfig) (state : AgentState) : CallM Patch := do
  let sid ← Act.ofExcept (state.alert.sid cfg.py)
  let prompt ← Act.orRaise
    (Act.perform (buildAlertSpecificPrompt sid state.alert.srcIp state.alert.destIp))
  return fun s => { s with contextSnapshot := prompt }

/-- The classification in an answer of the fast model. Whatever cannot be read is suspicious. -/
def classificationOf (py : Py) (result : Json) : String :=
  match result with
  | .obj fields =>
    match Json.lookup "content" fields with
    | some (.str content) =>
      let raw := py.lower (strip content)
      if raw ∈ ["benign", "suspicious", "threat"] then raw else "suspicious"
    | _ => "suspicious"
  | _ => "suspicious"

/-- `node_classify_alert`. -/
def nodeClassifyAlert (cfg : AgentConfig) (state : AgentState) : CallM Patch := do
  let user ← Act.ofExcept (cfg.prompts.classify state.alert (ipToZone state.alert.srcIp))
  let injectionMeta :=
    cfg.prompts.injectionMeta (state.alert.signature cfg.py) (state.alert.category cfg.py)
  let system := cfg.prompts.system state.contextSnapshot
  let answer ← Act.perform (fastChat [("system", system), ("user", user)])
  let classification := match answer with
    | .ok result => classificationOf cfg.py result
    | .error _ => "suspicious"
  return fun s => { s with
    classification := some classification
    safetyChecks := [("prompt_injection", .obj injectionMeta)] }

/-- `node_log_and_end`. -/
def nodeLogAndEnd : Patch := fun s => { s with
  outcome := some .benign
  intent := none
  rejectionReason := "classified as benign"
  safetyChecks := [] }

/-- `alert.proto.lower() if alert.proto else "tcp"`. -/
def protoOf (py : Py) (alert : SuricataAlert) : String :=
  if alert.proto = "" then "tcp" else py.lower alert.proto

/-- The value of a fetch, with a default for one that raised. -/
def fetched (default : Json) : Except Exc Json → Json
  | .ok v => v
  | .error _ => default

/-- `node_gather_context`. The five fetches run side by side in the source; they do not depend on
one another. -/
def nodeGatherContext (cfg : AgentConfig) (state : AgentState) : CallM Patch := do
  let alert := state.alert
  Act.orRaise (Act.perform (pushAlertHistory alert.srcIp alert.raw))
  let sid ← Act.ofExcept (alert.sid cfg.py)
  let history ← Act.perform (getAlertHistory alert.srcIp 10)
  let summary ← Act.perform (getIpSummary alert.srcIp 30)
  let correlation ← Act.perform (getRecentAlertsForCorrelation alert.srcIp 10)
  let investigation ← Act.perform
    (prefetchInvestigation alert.srcIp alert.destIp alert.destPort sid (alert.signature cfg.py))
  let reputation ← Act.perform (fetchReputation alert.srcIp 1)
  let alertContext ← Act.orRaise (Act.perform (renderAlertContext alert.srcIp alert.destIp
    alert.destPort (protoOf cfg.py alert) sid (fetched .null summary) (fetched .null investigation)
    (fetched .null reputation)))
  let alertHistory ← Act.ofExcept
    ((fetched (.obj [("history", .arr [])]) history).getD "history" (.arr []))
  return fun s => { s with
    alertHistory := alertHistory
    ipSummary := fetched .null summary
    correlation := fetched .null correlation
    alertContext := alertContext
    reputation := fetched .null reputation }

/-! ## The cache lookup -/

/-- `response_cache.get`. Counters that cannot be incremented are ignored. -/
def cacheGet (cfg : AgentConfig) (key : String) : CallM (Option Json) := do
  if cfg.cache.enabled then
    match ← Act.perform (redisGet key) with
    | .error _ => return none
    | .ok raw =>
      if raw.getD "" = "" then
        let _ ← Act.perform (redisIncr STATS_MISSES)
        return none
      else
        match cfg.py.loads (raw.getD "") with
        | none => return none
        | some data =>
          let _ ← Act.perform (redisIncr STATS_HITS)
          return some data
  else return none

/-- `(x or {}).get(key, default)`. -/
def getOrEmpty (x : Json) (key : String) (default : Json) : Except Exc Json :=
  (x.orElse (.obj [])).getD key default

/-- The last sixteen characters of a key. -/
def keyTail (key : String) : String := String.ofList (key.toList.drop (key.toList.length - 16))

/-- The patch of a hit. -/
def cacheHitPatch (key : String) (cached : Json) (intent : PolicyIntent) : Patch := fun s => { s with
  cacheKey := key
  cacheHit := true
  intent := some intent
  safetyChecks := [("cache", .obj [("hit", .bool true), ("key", .str (keyTail key)),
    ("cached_at", match cached.getD "cached_at" .null with
      | .ok v => v
      | .error _ => .null)])] }

/-- `node_check_response_cache`. The text `null` is stored by nobody, and reads as a miss. -/
def nodeCheckResponseCache (cfg : AgentConfig) (state : AgentState) : CallM Patch := do
  let alert := state.alert
  let signal ← Act.ofExcept (getOrEmpty state.correlation "kill_chain_signal" (.str ""))
  let sid ← Act.ofExcept (alert.sid cfg.py)
  let key := computeKey cfg.py cfg.baselines sid alert.srcIp alert.destIp alert.destPort
    (protoOf cfg.py alert) signal
  let cached ← cacheGet cfg key
  match cached with
  | none | some .null => return fun s => { s with cacheKey := key, cacheHit := false }
  | some cached =>
    match rebindCachedIntent cfg.py cfg.pydantic cached alert with
    | none => return fun s => { s with cacheKey := key, cacheHit := false }
    | some intent => return cacheHitPatch key cached intent

/-! ## The policy decision -/

/-- `f"{type(exc).__name__}: {str(exc)[:140]}"`. -/
def attemptError (e : Exc) : String := e.name ++ ": " ++ String.ofList (e.msg.toList.take 140)

/-- The attempts of `node_decide_policy` at an answer: the answer, `null` when there is none, and the
text of the last error. -/
def policyAttempts (messages : Messages) : List ℕ → String → CallM (Json × String)
  | [], lastErr => return (.null, lastErr)
  | attempt :: rest, lastErr => do
    match ← Act.perform (chatJson messages "policy_decision") with
    | .ok result => return (result, lastErr)
    | .error e =>
      Act.perform (sleep (attempt + 1))
      policyAttempts messages rest (attemptError e)

/-- What follows the tool loop: its answer when it gives one, else the attempts. -/
def policyFrom (messages : Messages) (react : Except Exc Json) : CallM (Json × String) :=
  match react with
  | .ok .null | .error _ => policyAttempts messages [0, 1, 2] ""
  | .ok result => return (result, "")

/-- The answer of the first stage. The tool loop is entered when a graph is wired in. -/
def policyAnswer (cfg : AgentConfig) (messages : Messages) : CallM (Json × String) := do
  if cfg.neo4j then policyFrom messages (← Act.perform (chatReact messages))
  else policyFrom messages (.ok .null)

/-- `notif_severity`. -/
def notificationSeverity (py : Py) (v : Option Json) : NotificationSeverity :=
  match (v.getD .null).orElse (.str "info") with
  | .str s => (NotificationSeverity.ofString (py.lower s)).getD .info
  | _ => .info

/-- `(x or "")[:n]`. -/
def sliceText (n : ℕ) (v : Option Json) : Except Exc Json :=
  match (v.getD .null).orElse (.str "") with
  | .str s => .ok (.str (String.ofList (s.toList.take n)))
  | .arr items => .ok (.arr (items.take n))
  | .obj _ => .error ⟨"TypeError", "unhashable type: 'slice'"⟩
  | x => .error ⟨"TypeError", "'" ++ x.typeName ++ "' object is not subscriptable"⟩

/-- The notification of an answer. -/
def notificationOf (cfg : AgentConfig) (fields : List (String × Json)) :
    Except Exc UserNotification := do
  let severity := notificationSeverity cfg.py (Json.lookup "notification_severity" fields)
  let title ← sliceText 120 (Json.lookup "notification_title" fields)
  let body ← sliceText 400 (Json.lookup "notification_body" fields)
  match title, body with
  | .str title, .str body => .ok { title, body, severity }
  | _, _ => .error (cfg.pydantic.error [("title", title), ("body", body)])

/-- The arguments of the intent that an answer proposes. -/
def proposedFields (cfg : AgentConfig) (alert : SuricataAlert) (fields : List (String × Json))
    (notification : UserNotification) : Except Exc (List (String × Json)) := do
  let field (key : String) (default : Json) := (Json.lookup key fields).getD default
  let action := (PolicyAction.ofJson (field "action" (.str "log_only"))).getD .logOnly
  let dstPort ← (field "dst_port" (.int 0)).intOf cfg.py.toPyText
  let priority ← (field "priority" (.int 50)).intOf cfg.py.toPyText
  let ttlSeconds ← (field "ttl_seconds" (.int 3600)).intOf cfg.py.toPyText
  let confidence ← (field "confidence" (.float ⟨.fin 0, "0.0"⟩)).floatOf cfg.py.toPyText
  return [("action", .str action.value), ("src_ip", field "src_ip" (.str alert.srcIp)),
    ("dst_ip", field "dst_ip" (.str "")), ("dst_port", .int dstPort),
    ("protocol", field "protocol" (.str "tcp")), ("priority", .int priority),
    ("ttl_seconds", .int ttlSeconds), ("comment", field "comment" (.str "")),
    ("confidence", .float confidence), ("user_notification", notification.dump)]

/-- The intent that an answer proposes. -/
def proposedIntent (cfg : AgentConfig) (alert : SuricataAlert) (fields : List (String × Json))
    (notification : UserNotification) : Except Exc PolicyIntent := do
  let raw ← proposedFields cfg alert fields notification
  PolicyIntent.validate cfg.py cfg.pydantic raw

/-- The patch of a request that the first stage rejects. -/
def rejectPatch (reason : String) (checks : List (String × Json)) : Patch := fun s => { s with
  outcome := some .rejected
  intent := none
  rejectionReason := reason
  safetyChecks := checks }

/-- The part of `node_decide_policy` after an answer came in. -/
def decideFrom (cfg : AgentConfig) (state : AgentState) (result : Json) : CallM Patch := do
  match result with
  | .obj fields =>
    let notification ← Act.ofExcept (notificationOf cfg fields)
    match proposedIntent cfg state.alert fields notification with
    | .error e =>
      return rejectPatch ("L1 policy schema validation failed: " ++ e.msg)
        [("schema_error", .str e.msg)]
    | .ok intent => return fun s => { s with intent := some intent, safetyChecks := [] }
  | result =>
    Act.raise ⟨"AttributeError", "'" ++ result.typeName ++ "' object has no attribute 'get'"⟩

/-- `node_decide_policy`. -/
def nodeDecidePolicy (cfg : AgentConfig) (state : AgentState) : CallM Patch := do
  let alert := state.alert
  let user ← Act.ofExcept (cfg.prompts.policyDecision alert (ipToZone alert.srcIp)
    (ipToZone alert.destIp) state.alertHistory state.alertContext state.correlation)
  let messages := [("system", cfg.prompts.system state.contextSnapshot), ("user", user)]
  let (result, lastErr) ← policyAnswer cfg messages
  match result with
  | .null =>
    return rejectPatch ("L1: policy_decision LLM failed after retries — " ++ lastErr)
      [("policy_decision_error", .str lastErr)]
  | result => decideFrom cfg state result

/-! ## Validation -/

/-- The patch of a request that ends at the validation. -/
def endPatch (outcome : DecisionOutcome) (reason : String) (checks : List (String × Json)) :
    Patch := fun s => { s with
  outcome := some outcome
  rejectionReason := reason
  safetyChecks := checks }

/-- `node_validate_decision`. -/
def nodeValidateDecision (cfg : AgentConfig) (state : AgentState) : CallM Patch := do
  match state.intent with
  | none => return id
  | some intent =>
    let sid ← Act.ofExcept (state.alert.sid cfg.py)
    let val := validateIntent cfg.py cfg.kb intent.toPolicyRule sid cfg.ttlMin cfg.ttlMax
      state.alert.srcIp
    let checks := Json.setKey "validators" (.obj [("errors", .ofTexts val.errors),
      ("warnings", .ofTexts val.warnings)]) state.safetyChecks
    if val.ok then
      let (confOutcome, confReason) :=
        evaluateConfidence intent.confidence cfg.autoEnforce cfg.notify cfg.hold
      let checks := Json.setKey "confidence" (.obj [("score", .float intent.confidence),
        ("outcome", .str confOutcome.value)]) checks
      match confOutcome with
      | .hold => return endPatch .held confReason checks
      | .reject => return endPatch .rejected confReason checks
      | _ =>
        if intent.action = .logOnly then
          return endPatch .benign "action=log_only — no enforcement needed" checks
        else return fun s => { s with safetyChecks := checks }
    else return endPatch .rejected ("; ".intercalate val.errors) checks

end ControlPlane.Intel
