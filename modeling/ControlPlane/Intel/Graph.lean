import ControlPlane.Intel.Reasoning

/-!
# One request of the decision agent

The model of `agent/graph.py`. `prepare` is the part of `process` up to the validation, one node
after the other; it ends with whether the request goes on. Then two tasks run side by side over the
shared state: `enforcePath`, which goes through the circuit breaker and the rate limiter to the
backend, and `reasoningPath`. `Process` relates the events of a whole request to what it returns;
`sequential` computes one such request, in which the second task starts when the first is done.
-/

namespace ControlPlane.Intel

open Text AgentOp

/-- Opening a span around a block. -/
def span (name : String) : AgentM Unit := Act.orRaise (Act.perform (spanOpen name))

/-- `sp.update(metadata=...)`. -/
def updateSpan (name : String) (metadata : List (String × Json)) : AgentM Unit :=
  Act.orRaise (Act.perform (spanUpdate name metadata))

/-- `state.update(patch)`, for the patch of a node. -/
def step (node : AgentState → CallM Patch) : AgentM Unit := do
  let patch ← Act.lift (node (← Act.get))
  Act.modify patch

/-- `len(text) // 4`. -/
def quarter (s : String) : Json := .int (s.toList.length / 4 : ℕ)

/-- The block of the first node. -/
def loadContext (cfg : AgentConfig) : AgentM Unit := do
  span "load_context"
  step (nodeLoadContext cfg)
  updateSpan "load_context" [("prompt_tokens_estimate", quarter (← Act.get).contextSnapshot)]

/-- The block of the second node. -/
def classifyAlert (cfg : AgentConfig) : AgentM Unit := do
  span "classify_alert"
  step (nodeClassifyAlert cfg)

/-- The block of the third node. -/
def gatherContext (cfg : AgentConfig) : AgentM Unit := do
  span "gather_context"
  step (nodeGatherContext cfg)
  let state ← Act.get
  let alerts ← Act.ofExcept (getOrEmpty state.ipSummary "total_alerts" (.int 0))
  let signal ← Act.ofExcept (getOrEmpty state.correlation "kill_chain_signal" (.str ""))
  updateSpan "gather_context" [("alert_context_tokens", quarter state.alertContext),
    ("ip_summary_alerts", alerts), ("correlation_signal", signal)]

/-- The block of the cache lookup. -/
def cacheLookup (cfg : AgentConfig) : AgentM Unit := do
  span "cache_lookup"
  step (nodeCheckResponseCache cfg)
  updateSpan "cache_lookup" [("cache_hit", .bool (← Act.get).cacheHit)]

/-- The block of the fourth node, which a cache hit skips. -/
def policyDecision (cfg : AgentConfig) : AgentM Unit := do
  if (← Act.get).cacheHit then return ()
  else
    span "policy_decision"
    step (nodeDecidePolicy cfg)

/-- The block of the fifth node. -/
def validateDecision (cfg : AgentConfig) : AgentM Unit := do
  span "validate_decision"
  step (nodeValidateDecision cfg)
  let checks := (Json.lookup "validators" (← Act.get).safetyChecks).getD (.obj [])
  let errors ← Act.ofExcept (checks.getD "errors" (.arr []))
  let warnings ← Act.ofExcept (checks.getD "warnings" (.arr []))
  updateSpan "validate_decision" [("errors", errors), ("warnings", warnings)]

/-- The body of `process` up to the fork: whether the request goes on to it. -/
def prepare (cfg : AgentConfig) : AgentM Bool := do
  loadContext cfg
  classifyAlert cfg
  if (← Act.get).classification = some "benign" then
    Act.modify nodeLogAndEnd
    return false
  else
    gatherContext cfg
    cacheLookup cfg
    policyDecision cfg
    if (← Act.get).outcome ∈ [some .rejected, some .held] then return false
    else
      validateDecision cfg
      return (← Act.get).outcome ∉ [some .rejected, some .held, some .benign]

/-! ## Enforcement -/

/-- The writes of a request that a safety layer turns down. -/
def turnDown (reason : String) (checks : List (String × Json)) : CallM Unit := do
  Act.perform (setOutcome .rejected)
  Act.perform (setRejectionReason reason)
  Act.perform (setSafetyChecks checks)

/-- `response_cache.set`. An error of the store is ignored. -/
def cacheSet (cfg : AgentConfig) (key : String) : CallM Unit := do
  if cfg.cache.enabled then
    let intent ← Act.perform readIntent
    let now ← Act.perform nowIso
    let _ ← Act.perform (redisSet key (cachePayload cfg.py intent now) cfg.cache.ttl)
    return ()
  else return ()

/-- The part of `_enforce` after the safety layers: the call to the backend and its outcome. -/
def enforceLive (cfg : AgentConfig) (checks : List (String × Json)) : CallM Unit := do
  let intent ← Act.perform readIntent
  match ← Act.perform (enforce intent) with
  | .ok result =>
    if result.success then
      let _ ← Act.perform breakerRecordSuccess
      Act.perform (setOutcome .enforced)
      let state ← Act.perform readState
      if !state.cacheHit && state.cacheKey != "" then cacheSet cfg state.cacheKey
      Act.perform (setSafetyChecks (Json.setKey "enforcement"
        (.obj [("backend", .str result.backend), ("rule_id", .str result.ruleId)]) checks))
    else
      let _ ← Act.perform breakerRecordFailure
      Act.perform (setOutcome .error)
      Act.perform (setRejectionReason result.error)
      Act.perform (setSafetyChecks (Json.setKey "enforcement"
        (.obj [("error", .str result.error)]) checks))
  | .error e =>
    let _ ← Act.perform breakerRecordFailure
    Act.perform (setOutcome .error)
    Act.perform (setRejectionReason e.msg)
    Act.perform (setSafetyChecks checks)

/-- `_enforce`. -/
def enforceDecision (cfg : AgentConfig) : CallM Unit := do
  let state ← Act.perform readState
  match state.intent with
  | none => return ()
  | some intent =>
    if intent.action = .drop then
      let checks := state.safetyChecks
      let (breaker, now, now') ← Act.perform breakerIsOpen
      let (isOpen, cbReason) := breaker.isOpen now now'
      if isOpen then turnDown cbReason (Json.setKey "circuit_breaker" (.str cbReason) checks)
      else
        let (limiter, now) ← Act.perform (checkAndConsume intent.srcIp)
        match (limiter.checkAndConsume now intent.srcIp).1 with
        | some rlError => turnDown rlError (Json.setKey "rate_limiter" (.str rlError) checks)
        | none =>
          if cfg.dryRun then Act.perform (setOutcome .dryRun)
          else enforceLive cfg checks
    else return ()

/-- `_enforce_path`. -/
def enforcePath (cfg : AgentConfig) : CallM Unit := do
  Act.orRaise (Act.perform (spanOpen "enforce"))
  enforceDecision cfg

/-- The program of each task of the fork. -/
def tasks (cfg : AgentConfig) : Task → Prog AgentOp AgentAns (Except Exc Unit × Unit)
  | .enforce => enforcePath cfg ()
  | .reasoning => reasoningPath cfg ()

/-! ## A whole request -/

/-- The arguments of the root trace, which read the alert before anything else. -/
def rootTrace (cfg : AgentConfig) (alert : SuricataAlert) : Except Exc (ℤ × ℤ) := do
  let sid ← alert.sid cfg.py
  let severity ← alert.severity cfg.py
  return (sid, severity)

/-- `_finalize`. -/
def finalize (sid : ℤ) (state : AgentState) : PolicyDecision where
  alertSid := sid
  alertSrcIp := state.alert.srcIp
  intent := state.intent
  outcome := state.outcome.getD .error
  rejectionReason := state.rejectionReason
  safetyChecks := state.safetyChecks
  traceId := state.traceId

/-- The state after the `except` clause of `process`. -/
def failedState (e : Exc) (state : AgentState) : AgentState :=
  { state with outcome := some .error, rejectionReason := e.msg }

/-- `Process cfg alert h r`: a request for the alert makes the calls `h` and ends with `r`. In the
fork, the calls of the two tasks come in any order that the shared state allows; an exception of a
task is collected and dropped. -/
inductive Process (cfg : AgentConfig) (alert : SuricataAlert) :
    List AgentEvent → Except Exc PolicyDecision → Prop where
  /-- The alert cannot be read. -/
  | unreadable {e} (hroot : rootTrace cfg alert = .error e) : Process cfg alert [] (.error e)
  /-- The request ends before the fork. -/
  | ended {sid severity traceId h s} (hroot : rootTrace cfg alert = .ok (sid, severity))
      (hrun : Prog.Runs (prepare cfg { alert, traceId }) h (.ok false, s)) :
      Process cfg alert h (.ok (finalize sid s))
  /-- A node raises. -/
  | failed {sid severity traceId h s e} (hroot : rootTrace cfg alert = .ok (sid, severity))
      (hrun : Prog.Runs (prepare cfg { alert, traceId }) h (.error e, s)) :
      Process cfg alert h (.ok (finalize sid (failedState e s)))
  /-- The request goes through the fork. -/
  | forked {sid severity traceId h s l} {q : Task → Except Exc Unit × Unit}
      (hroot : rootTrace cfg alert = .ok (sid, severity))
      (hrun : Prog.Runs (prepare cfg { alert, traceId }) h (.ok true, s))
      (hfork : Interleaving (tasks cfg) l fun t => .ret (q t)) (hvalid : agentMemory.Valid s l) :
      Process cfg alert (h ++ l.map Prod.snd) (.ok (finalize sid (agentMemory.after s l)))

/-! ## One order of the tasks -/

/-- The answers to the calls of a task: those of an oracle, but for the reads of the shared state. -/
def taskOracle (oracle : (op : AgentOp) → AgentAns op) (s : AgentState) :
    (op : AgentOp) → AgentAns op
  | readState => s
  | readIntent => s.intent.getD (oracle readIntent)
  | op => oracle op

/-- The answers of the tasks are those that the shared state allows. -/
theorem answers_taskOracle (oracle : (op : AgentOp) → AgentAns op) (t : Task) (s : AgentState)
    (op : AgentOp) : agentMemory.answers t s ⟨op, taskOracle oracle s op⟩ := by
  cases op
  case readIntent =>
    intro i hi
    simp [taskOracle, Option.mem_def.mp hi]
  all_goals trivial

/-- The events of the fork when the enforcement is done before the reasoning starts. -/
def forkEvents (cfg : AgentConfig) (oracle : (op : AgentOp) → AgentAns op) (s : AgentState) :
    List (Task × AgentEvent) :=
  let enforced := (agentMemory.exec (taskOracle oracle) .enforce s (tasks cfg .enforce)).1
  enforced ++ (agentMemory.exec (taskOracle oracle) .reasoning (agentMemory.after s enforced)
    (tasks cfg .reasoning)).1

/-- The request for an alert with the answers of an oracle, one task after the other. -/
def sequential (cfg : AgentConfig) (alert : SuricataAlert) (traceId : String)
    (oracle : (op : AgentOp) → AgentAns op) : List AgentEvent × Except Exc PolicyDecision :=
  match rootTrace cfg alert with
  | .error e => ([], .error e)
  | .ok (sid, _) =>
    match Prog.run (fun _ op => oracle op) [] (prepare cfg { alert, traceId }) with
    | (h, .ok false, s) => (h, .ok (finalize sid s))
    | (h, .error e, s) => (h, .ok (finalize sid (failedState e s)))
    | (h, .ok true, s) =>
      let l := forkEvents cfg oracle s
      (h ++ l.map Prod.snd, .ok (finalize sid (agentMemory.after s l)))

/-- The two tasks run to their ends, one after the other. -/
theorem interleaving_forkEvents (cfg : AgentConfig) (oracle : (op : AgentOp) → AgentAns op)
    (s : AgentState) :
    agentMemory.Valid s (forkEvents cfg oracle s) ∧
      ∃ q : Task → Except Exc Unit × Unit,
        Interleaving (tasks cfg) (forkEvents cfg oracle s) fun t => .ret (q t) := by
  simp only [forkEvents]
  generalize hs : agentMemory.after s _ = s'
  constructor
  · rw [Memory.valid_append, hs]
    exact ⟨agentMemory.valid_exec (answers_taskOracle oracle _) _ _,
      agentMemory.valid_exec (answers_taskOracle oracle _) _ _⟩
  · refine ⟨fun t => (agentMemory.exec (taskOracle oracle) t
      (if t = .enforce then s else s') (tasks cfg t)).2, fun t => ?_⟩
    simp only [proj_append, proj_exec]
    cases t with
    | enforce => simpa [Prog.Runs] using agentMemory.runs_exec (taskOracle oracle) .enforce s _
    | reasoning => simpa [Prog.Runs] using agentMemory.runs_exec (taskOracle oracle) .reasoning s' _

/-- Every alert and every oracle have a request. -/
theorem process_sequential (cfg : AgentConfig) (alert : SuricataAlert) (traceId : String)
    (oracle : (op : AgentOp) → AgentAns op) :
    Process cfg alert (sequential cfg alert traceId oracle).1
      (sequential cfg alert traceId oracle).2 := by
  unfold sequential
  split
  · next e hroot => exact .unreadable hroot
  · next sid severity hroot =>
    obtain ⟨h, hh, hrun⟩ := Prog.runs_run (fun _ op => oracle op) (prepare cfg { alert, traceId }) []
    rw [List.nil_append] at hh
    subst hh
    split
    · next h s heq =>
      rw [heq] at hrun
      exact .ended hroot hrun
    · next h e s heq =>
      rw [heq] at hrun
      exact .failed hroot hrun
    · next h s heq =>
      rw [heq] at hrun
      obtain ⟨hvalid, q, hfork⟩ := interleaving_forkEvents cfg oracle s
      exact .forked hroot hrun hfork hvalid

end ControlPlane.Intel
