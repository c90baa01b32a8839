import ControlPlane.Lib.Interleaving
import ControlPlane.Intel.Validators
import ControlPlane.Intel.Limits
import ControlPlane.Intel.ResponseCache

/-!
# The state and the calls of the decision agent

The model of `agent/state.py`, and of everything that the agent calls out to: the tracer, the
knowledge base, the two language models, Redis, the circuit breaker, the rate limiter and the
enforcement backend. A call that may raise is answered in `Except`.

The circuit breaker and the rate limiter are shared with other requests. A call to one of them is
answered with the state it finds and the clock; what the call returns and leaves behind is computed
from these by the functions of `Limits`.

The last group of calls is for the two tasks that run side by side at the end of a request: they
read and write the one state dict, and the one intent object in it.
-/

namespace ControlPlane.Intel

open Text

/-- The messages of a chat: role and content. -/
abbrev Messages := List (String × String)

/-- The prompt builders, and the findings of the injection scan. -/
structure Prompts where
  /-- `build_system_prompt`. -/
  system : String → String
  /-- `build_classify_prompt`. -/
  classify : SuricataAlert → Option Zone → Except Exc String
  /-- `build_policy_decision_prompt`, with the history, the alert context and the correlation. -/
  policyDecision : SuricataAlert → Option Zone → Option Zone → Json → String → Json →
    Except Exc String
  /-- `build_reasoning_trace_prompt`, with the decided rule besides. -/
  reasoningTrace : SuricataAlert → Option Zone → Option Zone → Json → String → Json → PolicyRule →
    Except Exc String
  /-- The findings of `sanitize_alert_fields` on the signature and the category. -/
  injectionMeta : String → String → List (String × Json)

/-- What a `DecisionAgent` is built with. -/
structure AgentConfig where
  /-- The interpreter. -/
  py : Py
  /-- The schema library. -/
  pydantic : Pydantic
  /-- The prompt builders. -/
  prompts : Prompts
  /-- The knowledge base of the validators. -/
  kb : Knowledge
  /-- The traffic baselines. -/
  baselines : List TrafficPattern
  /-- The response cache. -/
  cache : CacheConfig
  /-- `safety_ttl_min_seconds`. -/
  ttlMin : ℤ
  /-- `safety_ttl_max_seconds`. -/
  ttlMax : ℤ
  /-- `agent_confidence_auto_enforce`. -/
  autoEnforce : PyFloat
  /-- `agent_confidence_notify`. -/
  notify : PyFloat
  /-- `agent_confidence_hold`. -/
  hold : PyFloat
  /-- `dry_run`. -/
  dryRun : Bool
  /-- Whether a graph driver is wired in. -/
  neo4j : Bool

/-- `AgentState`. A key that is not set yet holds the value that the readers default to. -/
structure AgentState where
  /-- `alert`. -/
  alert : SuricataAlert
  /-- `context_snapshot`. -/
  contextSnapshot : String := ""
  /-- `classification`. -/
  classification : Option String := none
  /-- `alert_history`. -/
  alertHistory : Json := .arr []
  /-- `ip_summary`. -/
  ipSummary : Json := .null
  /-- `correlation`. -/
  correlation : Json := .null
  /-- `reputation`. -/
  reputation : Json := .null
  /-- `alert_context`. -/
  alertContext : String := ""
  /-- `cache_key`. -/
  cacheKey : String := ""
  /-- `cache_hit`. -/
  cacheHit : Bool := false
  /-- `trace_id`. -/
  traceId : String := ""
  /-- `intent`. -/
  intent : Option PolicyIntent := none
  /-- `outcome`. -/
  outcome : Option DecisionOutcome := none
  /-- `rejection_reason`. -/
  rejectionReason : String := ""
  /-- `safety_checks`. -/
  safetyChecks : List (String × Json) := []
  /-- `reasoning_complete`. -/
  reasoningComplete : Option Bool := none
  /-- `reasoning_error`. -/
  reasoningError : String := ""

/-- The calls of the agent. -/
inductive AgentOp where
  /-- Opening a span. -/
  | spanOpen (name : String)
  /-- `sp.update`. -/
  | spanUpdate (name : String) (metadata : List (String × Json))
  /-- `knowledge.build_alert_specific_prompt`. -/
  | buildAlertSpecificPrompt (sid : ℤ) (srcIp dstIp : String)
  /-- `fast_llm.chat`. -/
  | fastChat (messages : Messages)
  /-- `redis.push_alert_history`. -/
  | pushAlertHistory (srcIp : String) (raw : List (String × Json))
  /-- `execute_get_alert_history`. -/
  | getAlertHistory (srcIp : String) (limit : ℕ)
  /-- `memory.get_ip_summary`. -/
  | getIpSummary (srcIp : String) (windowDays : ℕ)
  /-- `memory.get_recent_alerts_for_correlation`. -/
  | getRecentAlertsForCorrelation (srcIp : String) (windowMinutes : ℕ)
  /-- `prefetch_investigation_context`. -/
  | prefetchInvestigation (srcIp dstIp : String) (dstPort sid : ℤ) (signature : String)
  /-- `fetch_reputation`, as the dict of the reputation when there is one. -/
  | fetchReputation (srcIp : String) (windowHours : ℕ)
  /-- `knowledge.render_alert_context`. -/
  | renderAlertContext (srcIp dstIp : String) (dstPort : ℤ) (proto : String) (sid : ℤ)
      (summary investigation reputation : Json)
  /-- `redis.client.get`. -/
  | redisGet (key : String)
  /-- `redis.client.set`, with the time to live. -/
  | redisSet (key payload : String) (ttl : ℤ)
  /-- `redis.client.incr`. -/
  | redisIncr (key : String)
  /-- `primary_llm.chat_react`. -/
  | chatReact (messages : Messages)
  /-- `primary_llm.chat_json`, with the name of the schema. -/
  | chatJson (messages : Messages) (schema : String)
  /-- `asyncio.sleep`, in half seconds. -/
  | sleep (halves : ℕ)
  /-- `datetime.now(timezone.utc).isoformat()`. -/
  | nowIso
  /-- `circuit_breaker.is_open`. -/
  | breakerIsOpen
  /-- `circuit_breaker.record_success`. -/
  | breakerRecordSuccess
  /-- `circuit_breaker.record_failure`. -/
  | breakerRecordFailure
  /-- `rate_limiter.check_and_consume`. -/
  | checkAndConsume (srcIp : String)
  /-- `enforcement.enforce`. -/
  | enforce (intent : PolicyIntent)
  /-- Reading the state dict. -/
  | readState
  /-- Reading the fields of the intent object. -/
  | readIntent
  /-- `state["outcome"] = ...`. -/
  | setOutcome (outcome : DecisionOutcome)
  /-- `state["rejection_reason"] = ...`. -/
  | setRejectionReason (reason : String)
  /-- `state["safety_checks"] = ...`. -/
  | setSafetyChecks (checks : List (String × Json))
  /-- The assignments to the explaining fields of the intent object. -/
  | setReasoning (reasoning : Reasoning)
  /-- The patch of `node_collect_reasoning`. -/
  | patchReasoning (complete : Bool) (error : String)

/-- What a call is answered with. -/
@[reducible] def AgentAns : AgentOp → Type
  | .spanOpen _ | .spanUpdate _ _ => Except Exc Unit
  | .buildAlertSpecificPrompt _ _ _ => Except Exc String
  | .fastChat _ => Except Exc Json
  | .pushAlertHistory _ _ => Except Exc Unit
  | .getAlertHistory _ _ | .getIpSummary _ _ | .getRecentAlertsForCorrelation _ _ => Except Exc Json
  | .prefetchInvestigation _ _ _ _ _ | .fetchReputation _ _ => Except Exc Json
  | .renderAlertContext _ _ _ _ _ _ _ _ => Except Exc String
  | .redisGet _ => Except Exc (Option String)
  | .redisSet _ _ _ | .redisIncr _ => Except Exc Unit
  | .chatReact _ | .chatJson _ _ => Except Exc Json
  | .sleep _ => Unit
  | .nowIso => String
  | .breakerIsOpen => CircuitBreaker × ℚ × ℚ
  | .breakerRecordSuccess => CircuitBreaker
  | .breakerRecordFailure => CircuitBreaker × ℚ
  | .checkAndConsume _ => RateLimiter × ℚ
  | .enforce _ => Except Exc EnforcementResult
  | .readState => AgentState
  | .readIntent => PolicyIntent
  | .setOutcome _ | .setRejectionReason _ | .setSafetyChecks _ | .setReasoning _ => Unit
  | .patchReasoning _ _ => Unit

/-- An event of a request. -/
abbrev AgentEvent := Event AgentOp AgentAns

/-- A method that works on the state of its request. -/
abbrev AgentM := Act AgentOp AgentAns Exc AgentState

/-- A method that only makes calls: a node, or a task of the final fork. -/
abbrev CallM := Act AgentOp AgentAns Exc Unit

/-- The two tasks of the final fork. -/
inductive Task where
  | enforce
  | reasoning
  deriving DecidableEq

/-- The memory that the tasks share: the state dict with its intent object. -/
def agentMemory : Memory Task AgentOp AgentAns AgentState where
  answers _ s
    | ⟨.readState, a⟩ => a = s
    | ⟨.readIntent, a⟩ => ∀ i ∈ s.intent, a = i
    | _ => True
  next _ s
    | ⟨.setOutcome o, _⟩ => { s with outcome := some o }
    | ⟨.setRejectionReason r, _⟩ => { s with rejectionReason := r }
    | ⟨.setSafetyChecks c, _⟩ => { s with safetyChecks := c }
    | ⟨.setReasoning r, _⟩ => { s with intent := s.intent.map fun i => { i with reasoning := r } }
    | ⟨.patchReasoning complete error, _⟩ =>
      { s with reasoningComplete := some complete, reasoningError := error }
    | _ => s

end ControlPlane.Intel
