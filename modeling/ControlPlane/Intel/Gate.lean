import ControlPlane.Intel.Cleared
import ControlPlane.Intel.Placement

/-!
# The gate in front of the backend

`process_gate` is the contract of one request, over every answer of what the agent calls and every
order of the two tasks of the fork: the backend is called at most once, only through the `Gate`, and
the decision is enforced exactly when that call returned success.

The second part is a run to try such statements on: an agent whose model always gives one answer.
-/

namespace ControlPlane.Intel

open Text AgentOp

/-- The safety layers that an intent has passed when the events of the run so far are `h`. -/
structure Gate (cfg : AgentConfig) (alert : SuricataAlert) (h : List AgentEvent)
    (intent : PolicyIntent) : Prop where
  /-- The intent drops. -/
  drop : intent.action = .drop
  /-- The validators gave no error, so the time to live is in range and the signature is either
  uncatalogued or of severity 1 or 2. -/
  valid : ∃ sid, alert.sid cfg.py = .ok sid ∧
    (validateIntent cfg.py cfg.kb intent.toPolicyRule sid cfg.ttlMin cfg.ttlMax
      alert.srcIp).errors = [] ∧
    (cfg.ttlMin ≤ intent.ttlSeconds ∧ intent.ttlSeconds ≤ cfg.ttlMax) ∧
    (getSidInfo sid = none ∨ getSidInfo sid = some 1 ∨ getSidInfo sid = some 2)
  /-- The confidence is neither held nor rejected. -/
  confident : (evaluateConfidence intent.confidence cfg.autoEnforce cfg.notify cfg.hold).1 ≠ .hold ∧
    (evaluateConfidence intent.confidence cfg.autoEnforce cfg.notify cfg.hold).1 ≠ .reject
  /-- The circuit breaker answered closed. -/
  closed : ∃ b now now', ⟨breakerIsOpen, (b, now, now')⟩ ∈ h ∧ (b.isOpen now now').1 = false
  /-- The rate limiter accepted the source and consumed one slot. -/
  slot : ∃ r now, ⟨checkAndConsume intent.srcIp, (r, now)⟩ ∈ h ∧
    (r.checkAndConsume now intent.srcIp).1 = none ∧
    (r.checkAndConsume now intent.srcIp).2 = (r.evicted now (firstPart '/' intent.srcIp)).consume
      now (firstPart '/' intent.srcIp)
  /-- The agent is not on a dry run. -/
  live : cfg.dryRun = false

section

variable {cfg : AgentConfig} {alert : SuricataAlert} {h : List AgentEvent}

/-- A breaker that was seen closed is an event of the history. -/
theorem exists_of_seen_closed (hs : seen answeredClosed h = true) :
    ∃ b now now', ⟨breakerIsOpen, (b, now, now')⟩ ∈ h ∧ (b.isOpen now now').1 = false := by
  unfold seen at hs
  obtain ⟨e, he, hp⟩ := List.any_eq_true.mp hs
  unfold answeredClosed at hp
  split at hp
  · next b now now' => exact ⟨b, now, now', he, by simpa using hp⟩
  · simp at hp

/-- A slot that was taken is an event of the history, and was consumed. -/
theorem exists_of_seen_slot {srcIp : String} (hs : seen (slotTaken srcIp) h = true) :
    ∃ r now, ⟨checkAndConsume srcIp, (r, now)⟩ ∈ h ∧ (r.checkAndConsume now srcIp).1 = none ∧
      (r.checkAndConsume now srcIp).2 =
        (r.evicted now (firstPart '/' srcIp)).consume now (firstPart '/' srcIp) := by
  unfold seen at hs
  obtain ⟨e, he, hp⟩ := List.any_eq_true.mp hs
  unfold slotTaken at hp
  split at hp
  · next ip r now =>
    simp only [Bool.and_eq_true, beq_iff_eq, Option.isNone_iff_eq_none] at hp
    obtain ⟨rfl, hacc⟩ := hp
    exact ⟨r, now, he, hacc, (RateLimiter.consumed_of_accepted hacc).2⟩
  · simp at hp

/-- An intent that is cleared has passed the gate. -/
theorem Cleared.gate {sid : ℤ} {intent : PolicyIntent} (hc : Cleared cfg alert sid h intent) :
    Gate cfg alert h intent where
  drop := hc.drop
  valid := by
    have hacc := accepted_of_validateIntent hc.drop hc.valid
    refine ⟨sid, hc.readable, hc.valid, hacc.ttl, ?_⟩
    cases hs : getSidInfo sid with
    | none => exact .inl rfl
    | some severity =>
      obtain rfl | rfl := hacc.severity severity hs
      · exact .inr (.inl rfl)
      · exact .inr (.inr rfl)
  confident := hc.confident
  closed := exists_of_seen_closed hc.closed
  slot := exists_of_seen_slot hc.slot
  live := hc.live

/-- A call that only ever comes first comes at most once. -/
theorem countP_le_one {p : AgentEvent → Bool}
    (hfirst : ∀ h₁ e h₂, h = h₁ ++ e :: h₂ → p e = true → seen p h₁ = false) :
    h.countP p ≤ 1 := by
  -- The last event is the first of its kind, or no event of that kind.
  induction h using List.reverseRecOn with
  | nil => simp
  | append_singleton h e ih =>
    rw [List.countP_append, List.countP_singleton]
    split_ifs with he
    · have hnone := hfirst h e [] rfl he
      unfold seen at hnone
      rw [List.countP_eq_zero.mpr (List.any_eq_false.mp hnone)]
    · refine Nat.add_le_add_right (ih fun h₁ e' h₂ heq => ?_) 0
      exact hfirst h₁ e' (h₂ ++ [e]) (by rw [heq]; simp)

/-- A decision is enforced when the state is. -/
theorem finalize_outcome_eq {sid : ℤ} {s : AgentState} :
    (finalize sid s).outcome = .enforced ↔ s.outcome = some .enforced := by
  unfold finalize
  cases s.outcome with
  | none => simp
  | some o => simp

/-- A request ends enforced exactly when one of its calls to the backend returned success. -/
theorem outcome_of_process {r : Except Exc PolicyDecision} {d : PolicyDecision}
    (hp : Process cfg alert h r) (hd : r = .ok d) :
    d.outcome = .enforced ↔ seen succeeded h = true := by
  -- Only a request that forks can call the backend; the others end without the outcome as well.
  cases hp with
  | unreadable _ => simp at hd
  | ended _ hrun =>
    obtain ⟨⟨-, hne⟩, -⟩ := post_of_prepare hrun
    have hquiet := seen_succeeded_of_seen_isEnforce (not_isEnforce_of_prepare hrun)
    simp only [Except.ok.injEq] at hd
    rw [← hd, hquiet, finalize_outcome_eq]
    simpa using hne
  | failed _ hrun =>
    have hquiet := seen_succeeded_of_seen_isEnforce (not_isEnforce_of_prepare hrun)
    simp only [Except.ok.injEq] at hd
    rw [← hd, hquiet, finalize_outcome_eq]
    simp [failedState]
  | @forked _ _ _ h₀ s l _ _ hrun hfork hvalid =>
    obtain ⟨⟨-, hne⟩, hready⟩ := post_of_prepare hrun
    obtain ⟨sid, i, hi⟩ := hready rfl
    have hquiet := seen_succeeded_of_seen_isEnforce (not_isEnforce_of_prepare hrun)
    simp only [Except.ok.injEq] at hd
    rw [← hd, seen_append, hquiet, Bool.false_or, finalize_outcome_eq]
    exact (outcome_of_fork hi.intent_eq hne hfork hvalid).2

/-- A successful call was seen exactly when it is an event of the history. -/
theorem seen_succeeded_iff :
    seen succeeded h = true ↔
      ∃ intent result, ⟨.enforce intent, .ok result⟩ ∈ h ∧ result.success = true := by
  unfold seen
  rw [List.any_eq_true]
  constructor
  · rintro ⟨e, he, hs⟩
    unfold succeeded at hs
    split at hs
    · next intent result => exact ⟨intent, result, he, hs⟩
    · simp at hs
  · rintro ⟨intent, result, he, hs⟩
    exact ⟨_, he, hs⟩

/-- One request calls the backend at most once, and only through the gate; and it ends enforced
exactly when that call was made and returned success. -/
theorem process_gate {r : Except Exc PolicyDecision} (hp : Process cfg alert h r) :
    h.countP isEnforce ≤ 1 ∧
      (∀ h₁ intent a h₂, h = h₁ ++ ⟨.enforce intent, a⟩ :: h₂ → Gate cfg alert h₁ intent) ∧
      ∀ d, r = .ok d → (d.outcome = .enforced ↔
        ∃ intent result, ⟨.enforce intent, .ok result⟩ ∈ h ∧ result.success = true) := by
  refine ⟨countP_le_one fun h₁ e h₂ heq he => ?_, fun h₁ intent a h₂ heq => ?_, fun d hd => ?_⟩
  · obtain ⟨op, a⟩ := e
    cases op
    case enforce intent =>
      subst heq
      obtain ⟨sid, hc⟩ := cleared_of_process hp
      exact hc.first
    all_goals simp [isEnforce] at he
  · subst heq
    obtain ⟨sid, hc⟩ := cleared_of_process hp
    exact hc.gate
  · rw [← seen_succeeded_iff]
    exact outcome_of_process hp hd

end

/-! ## An agent to run -/

/-- The settings of the agent as they are shipped, but for the dry run, with prompts that carry
nothing. -/
def plainAgent : AgentConfig where
  py := .ascii (fun s => s) fun _ => none
  pydantic := ⟨fun _ => none, fun _ => none, fun _ => ""⟩
  prompts := ⟨fun _ => "", fun _ _ => .ok "", fun _ _ _ _ _ _ => .ok "",
    fun _ _ _ _ _ _ _ => .ok "", fun _ _ => []⟩
  kb := bareKnowledge
  baselines := []
  cache := ⟨60, true⟩
  ttlMin := 60
  ttlMax := 3600
  autoEnforce := ⟨.fin (17 / 20), "0.85"⟩
  notify := ⟨.fin (7 / 10), "0.7"⟩
  hold := ⟨.fin (1 / 2), "0.5"⟩
  dryRun := false
  neo4j := false

/-- An alert of the first catalogued signature. -/
def plainAlert (srcIp : String) : SuricataAlert where
  timestamp := "2025-01-01T00:00:00Z"
  srcIp := srcIp
  destIp := "10.1.200.10"
  srcPort := 40000
  destPort := 22
  proto := "TCP"
  alert := [("signature_id", .int 9000001), ("severity", .int 1)]
  raw := []

/-- The answer of a model that drops a flow. -/
def dropAnswer (srcIp dstIp : String) : Json :=
  .obj [("action", .str "DROP"), ("src_ip", .str srcIp), ("dst_ip", .str dstIp),
    ("ttl_seconds", .int 600), ("confidence", .float ⟨.fin (9 / 10), "0.9"⟩)]

/-- What the agent calls answers: the model drops the flow, the cache is empty, the breaker is
closed, the limiter has all its slots, and the backend takes the rule. -/
def plainOracle (srcIp dstIp : String) : (op : AgentOp) → AgentAns op
  | spanOpen _ | spanUpdate _ _ => .ok ()
  | buildAlertSpecificPrompt _ _ _ => .ok ""
  | fastChat _ => .ok (.obj [("content", .str "threat")])
  | pushAlertHistory _ _ => .ok ()
  | getAlertHistory _ _ => .ok (.obj [("history", .arr [])])
  | getIpSummary _ _ | getRecentAlertsForCorrelation _ _ => .ok (.obj [])
  | prefetchInvestigation _ _ _ _ _ | fetchReputation _ _ => .ok .null
  | renderAlertContext _ _ _ _ _ _ _ _ => .ok ""
  | redisGet _ => .ok none
  | redisSet _ _ _ | redisIncr _ => .ok ()
  | chatReact _ | chatJson _ _ => .ok (dropAnswer srcIp dstIp)
  | sleep _ => ()
  | nowIso => ""
  | breakerIsOpen => (⟨3, 300, 0, 0⟩, 1, 1)
  | breakerRecordSuccess => ⟨3, 300, 0, 0⟩
  | breakerRecordFailure => (⟨3, 300, 0, 0⟩, 1)
  | checkAndConsume _ => (⟨5, 50, 3, 300, [], 0, fun _ => []⟩, 1)
  | .enforce intent => .ok (proxyResult plainAgent.py intent.toPolicyRule (.ok ⟨201, .ok (.obj [])⟩))
  | readState => { alert := plainAlert "" }
  | readIntent => { dropRule srcIp dstIp with reasoning := {} }
  | setOutcome _ | setRejectionReason _ | setSafetyChecks _ | setReasoning _ => ()
  | patchReasoning _ _ => ()

/-- The request for an alert when the model drops a flow. -/
def plainRun (alertSrcIp srcIp dstIp : String) : List AgentEvent × Except Exc PolicyDecision :=
  sequential plainAgent (plainAlert alertSrcIp) "" (plainOracle srcIp dstIp)

/-- The flow of the rule that an event passes to the backend. -/
def enforcedFlow : AgentEvent → Option (String × String)
  | ⟨.enforce intent, _⟩ => some (intent.srcIp, intent.dstIp)
  | _ => none

/-- A run that passes a flow to the backend passes an intent with this flow to it. -/
theorem exists_enforce_of_flow {h : List AgentEvent} {src dst : String}
    (hf : h.findSome? enforcedFlow = some (src, dst)) :
    ∃ h₁ intent a h₂, h = h₁ ++ ⟨.enforce intent, a⟩ :: h₂ ∧ intent.srcIp = src ∧
      intent.dstIp = dst := by
  obtain ⟨e, he, hflow⟩ := List.exists_of_findSome?_eq_some hf
  obtain ⟨h₁, h₂, rfl⟩ := List.append_of_mem he
  unfold enforcedFlow at hflow
  split at hflow
  · next intent a =>
    simp only [Option.some.injEq, Prod.mk.injEq] at hflow
    exact ⟨h₁, intent, a, h₂, rfl, hflow.1, hflow.2⟩
  · simp at hflow

/-- A run of the plain agent that passes a flow to the backend is a request with such a call. -/
theorem exists_process_of_flow {alertSrcIp srcIp dstIp src dst : String}
    (hf : (plainRun alertSrcIp srcIp dstIp).1.findSome? enforcedFlow = some (src, dst)) :
    ∃ h₁ intent a h₂, (plainRun alertSrcIp srcIp dstIp).1 = h₁ ++ ⟨.enforce intent, a⟩ :: h₂ ∧
      intent.srcIp = src ∧ intent.dstIp = dst ∧
      Process plainAgent (plainAlert alertSrcIp) (h₁ ++ ⟨.enforce intent, a⟩ :: h₂)
        (plainRun alertSrcIp srcIp dstIp).2 := by
  obtain ⟨h₁, intent, a, h₂, heq, hsrc, hdst⟩ := exists_enforce_of_flow hf
  have hp : Process plainAgent (plainAlert alertSrcIp) (plainRun alertSrcIp srcIp dstIp).1
      (plainRun alertSrcIp srcIp dstIp).2 :=
    process_sequential plainAgent _ "" (plainOracle srcIp dstIp)
  rw [heq] at hp
  exact ⟨h₁, intent, a, h₂, heq, hsrc, hdst, hp⟩

/-- A host of the web zone is dropped, once and through the gate. -/
theorem process_gate_plain :
    (plainRun "10.1.100.10" "10.1.100.10/32" "").1.countP isEnforce = 1 ∧
      ∃ h₁ intent, Gate plainAgent (plainAlert "10.1.100.10") h₁ intent ∧
        intent.srcIp = "10.1.100.10/32" := by
  refine ⟨by decide +kernel, ?_⟩
  have hflow : (plainRun "10.1.100.10" "10.1.100.10/32" "").1.findSome? enforcedFlow =
      some ("10.1.100.10/32", "") := by decide +kernel
  obtain ⟨h₁, intent, a, h₂, -, hsrc, -, hp⟩ := exists_process_of_flow hflow
  exact ⟨h₁, intent, (process_gate hp).2.1 h₁ intent a h₂ rfl, hsrc⟩

end ControlPlane.Intel
