import ControlPlane.Lib.Json

/-!
# Alerts, intents and decisions

The model of `models/alert.py`, `models/decision.py` and `models/enforcement.py`. A `PolicyIntent`
is built by `PolicyIntent.validate` from the keyword arguments of its constructor, the way the
schema library checks them: a field of type `str` takes a text only, the number fields take what
the library's conversion (`Pydantic`) accepts, unknown keys are ignored.

The eight fields that the second stage of the agent fills in are kept together as `Reasoning`. The
second stage writes them without validation, so those that it copies from the model's answer may
hold any JSON value.
-/

namespace ControlPlane.Intel

open Text

/-- The schema library, as far as its result rests on code outside the repository. -/
structure Pydantic where
  /-- The integer that a field of type `int` makes of a value of another type, if any. -/
  int : Json → Option ℤ
  /-- The float that a field of type `float` makes of a value of another type, if any. -/
  float : Json → Option PyFloat
  /-- The text of the validation error for the given arguments. -/
  message : List (String × Json) → String

/-- The validation error for the given arguments. -/
def Pydantic.error (P : Pydantic) (raw : List (String × Json)) : Exc :=
  ⟨"ValidationError", P.message raw⟩

/-! ## Alerts -/

/-- `SuricataAlert`. -/
structure SuricataAlert where
  /-- The time of the alert. -/
  timestamp : String
  /-- The source address. -/
  srcIp : String
  /-- The destination address. -/
  destIp : String
  /-- The source port. -/
  srcPort : ℤ
  /-- The destination port. -/
  destPort : ℤ
  /-- The protocol. -/
  proto : String
  /-- The `alert` object of the event. -/
  alert : List (String × Json)
  /-- The event as it came in. -/
  raw : List (String × Json)

namespace SuricataAlert

/-- `alert.sid`. -/
def sid (py : Py) (a : SuricataAlert) : Except Exc ℤ :=
  ((Json.lookup "signature_id" a.alert).getD (.int 0)).intOf py.toPyText

/-- `alert.severity`. -/
def severity (py : Py) (a : SuricataAlert) : Except Exc ℤ :=
  ((Json.lookup "severity" a.alert).getD (.int 4)).intOf py.toPyText

/-- `alert.signature`. -/
def signature (py : Py) (a : SuricataAlert) : String :=
  py.fmt ((Json.lookup "signature" a.alert).getD (.str ""))

/-- `alert.category`. -/
def category (py : Py) (a : SuricataAlert) : String :=
  py.fmt ((Json.lookup "category" a.alert).getD (.str ""))

end SuricataAlert

/-! ## Intents -/

/-- `PolicyAction`. -/
inductive PolicyAction where
  | drop
  | logOnly
  | hold
  | reject
  deriving DecidableEq

namespace PolicyAction

/-- `action.value`. -/
def value : PolicyAction → String
  | drop => "DROP"
  | logOnly => "log_only"
  | hold => "hold"
  | reject => "reject"

/-- `PolicyAction(x)`, with `none` for the `ValueError`. -/
def ofJson : Json → Option PolicyAction
  | .str s => [drop, logOnly, hold, reject].find? fun a => a.value == s
  | _ => none

end PolicyAction

/-- `Hypothesis`. -/
structure Hypothesis where
  /-- A short name. -/
  name : String
  /-- What it says. -/
  description : String
  /-- How likely it is held to be. -/
  probability : PyFloat
  /-- Evidence for it. -/
  supportingEvidence : List String
  /-- Evidence against it. -/
  disconfirmingEvidence : List String

/-- `AlternativeAction`. -/
structure AlternativeAction where
  /-- When it applies. -/
  triggerCondition : String
  /-- What to do then. -/
  action : String
  /-- Why. -/
  rationale : String

/-- `RollbackPlan`. -/
structure RollbackPlan where
  /-- When to revert. -/
  trigger : String := ""
  /-- How to revert. -/
  action : String := ""
  /-- How long to watch. -/
  monitorSeconds : ℤ := 300

/-- `NotificationSeverity`. -/
inductive NotificationSeverity where
  | info
  | warn
  | alert
  | critical
  deriving DecidableEq

namespace NotificationSeverity

/-- `severity.value`. -/
def value : NotificationSeverity → String
  | info => "info"
  | warn => "warn"
  | alert => "alert"
  | critical => "critical"

/-- `NotificationSeverity(s)`, with `none` for the `ValueError`. -/
def ofString (s : String) : Option NotificationSeverity :=
  [info, warn, alert, critical].find? fun v => v.value == s

end NotificationSeverity

/-- `UserNotification`. -/
structure UserNotification where
  /-- At most 120 characters. -/
  title : String := ""
  /-- At most 400 characters. -/
  body : String := ""
  /-- How urgent it is. -/
  severity : NotificationSeverity := .info

/-- The fields of an intent that explain it. -/
structure Reasoning where
  /-- `reasoning_steps`. -/
  reasoningSteps : Json := .arr []
  /-- `mitre_technique`. -/
  mitreTechnique : Json := .str ""
  /-- `mitre_tactic`. -/
  mitreTactic : Json := .str ""
  /-- `hypotheses`. -/
  hypotheses : List Hypothesis := []
  /-- `primary_hypothesis`. -/
  primaryHypothesis : Json := .str ""
  /-- `alternative_actions`. -/
  alternativeActions : List AlternativeAction := []
  /-- `rollback_plan`. -/
  rollbackPlan : RollbackPlan := {}
  /-- `follow_up_actions`. -/
  followUpActions : Json := .arr []

/-- The fields of an intent that make up its rule. -/
structure PolicyRule where
  /-- `rule_id`. -/
  ruleId : String
  /-- `action`. -/
  action : PolicyAction
  /-- `src_ip`, in CIDR notation. -/
  srcIp : String
  /-- `dst_ip`. -/
  dstIp : String
  /-- `dst_port`. -/
  dstPort : ℤ
  /-- `protocol`. -/
  protocol : String
  /-- `priority`. -/
  priority : ℤ
  /-- `ttl_seconds`. -/
  ttlSeconds : ℤ
  /-- `comment`. -/
  comment : String
  /-- `confidence`. -/
  confidence : PyFloat
  /-- `user_notification`. -/
  userNotification : UserNotification

/-- `PolicyIntent`: a rule and what explains it. -/
structure PolicyIntent extends PolicyRule where
  /-- The fields that the second stage fills in. -/
  reasoning : Reasoning

/-- `_deterministic_rule_id`. -/
def deterministicRuleId (py : Py) (srcIp dstIp : String) (dstPort : ℤ) (protocol : String) :
    String :=
  let key := py.lower (srcIp ++ "|" ++ dstIp ++ "|" ++ toString dstPort ++ "|" ++ protocol)
  "agent-" ++ String.ofList ((py.sha256 key).toList.take 10)

/-! ## Validation -/

namespace Field

/-- A field of type `str`, required when it has no default. -/
def text (raw : List (String × Json)) (key : String) (default : Option String) : Option String :=
  match Json.lookup key raw with
  | none => default
  | some (.str s) => some s
  | some _ => none

/-- A field of type `int` with a default. -/
def int (P : Pydantic) (raw : List (String × Json)) (key : String) (default : ℤ) : Option ℤ :=
  match Json.lookup key raw with
  | none => some default
  | some (.int n) => some n
  | some v => P.int v

/-- The texts of an array of texts. -/
def textsOf : Json → Option (List String)
  | .arr items => items.mapM fun
    | .str s => some s
    | _ => none
  | _ => none

/-- A field of type `list[str]`, empty by default. -/
def texts (raw : List (String × Json)) (key : String) : Option (List String) :=
  match Json.lookup key raw with
  | none => some []
  | some v => textsOf v

/-- A float between zero and one, which a value that is not a number passes too. -/
def unitFloat (P : Pydantic) (v : Json) : Option PyFloat :=
  (match v with
    | .float x => some x
    | v => P.float v).filter fun x => !x.lt ⟨.fin 0, "0.0"⟩ && !PyFloat.lt ⟨.fin 1, "1.0"⟩ x

/-- A field that holds a list of models, empty by default. -/
def models {α : Type} (validate : List (String × Json) → Option α) (raw : List (String × Json))
    (key : String) : Option (List α) :=
  match Json.lookup key raw with
  | none => some []
  | some (.arr items) => items.mapM fun
    | .obj fields => validate fields
    | _ => none
  | some _ => none

/-- A field that holds a model, with a default. -/
def model {α : Type} (validate : List (String × Json) → Option α) (raw : List (String × Json))
    (key : String) (default : α) : Option α :=
  match Json.lookup key raw with
  | none => some default
  | some (.obj fields) => validate fields
  | some _ => none

end Field

/-- `Hypothesis(**raw)`. -/
def Hypothesis.validate (P : Pydantic) (raw : List (String × Json)) : Option Hypothesis := do
  let name ← Field.text raw "name" none
  let description ← Field.text raw "description" (some "")
  let probability ← (Json.lookup "probability" raw).bind (Field.unitFloat P)
  let supportingEvidence ← Field.texts raw "supporting_evidence"
  let disconfirmingEvidence ← Field.texts raw "disconfirming_evidence"
  return { name, description, probability, supportingEvidence, disconfirmingEvidence }

/-- `AlternativeAction(**raw)`. -/
def AlternativeAction.validate (raw : List (String × Json)) : Option AlternativeAction := do
  let triggerCondition ← Field.text raw "trigger_condition" none
  let action ← Field.text raw "action" none
  let rationale ← Field.text raw "rationale" (some "")
  return { triggerCondition, action, rationale }

/-- `RollbackPlan(**raw)`. -/
def RollbackPlan.validate (P : Pydantic) (raw : List (String × Json)) : Option RollbackPlan := do
  let trigger ← Field.text raw "trigger" (some "")
  let action ← Field.text raw "action" (some "")
  let monitorSeconds ← Field.int P raw "monitor_seconds" 300
  return { trigger, action, monitorSeconds }

/-- `UserNotification(**raw)`. -/
def UserNotification.validate (raw : List (String × Json)) : Option UserNotification := do
  let title ← Field.text raw "title" (some "")
  let body ← Field.text raw "body" (some "")
  let severity ← match Json.lookup "severity" raw with
    | none => some .info
    | some (.str s) => NotificationSeverity.ofString s
    | some _ => none
  if title.toList.length ≤ 120 ∧ body.toList.length ≤ 400 then
    return { title, body, severity }
  else none

/-- The explaining fields of `PolicyIntent(**raw)`. -/
def Reasoning.validate (P : Pydantic) (raw : List (String × Json)) : Option Reasoning := do
  let reasoningSteps ← Field.texts raw "reasoning_steps"
  let mitreTechnique ← Field.text raw "mitre_technique" (some "")
  let mitreTactic ← Field.text raw "mitre_tactic" (some "")
  let hypotheses ← Field.models (Hypothesis.validate P) raw "hypotheses"
  let primaryHypothesis ← Field.text raw "primary_hypothesis" (some "")
  let alternativeActions ← Field.models AlternativeAction.validate raw "alternative_actions"
  let rollbackPlan ← Field.model (RollbackPlan.validate P) raw "rollback_plan" {}
  let followUpActions ← Field.texts raw "follow_up_actions"
  return {
    reasoningSteps := .ofTexts reasoningSteps, mitreTechnique := .str mitreTechnique,
    mitreTactic := .str mitreTactic, hypotheses, primaryHypothesis := .str primaryHypothesis,
    alternativeActions, rollbackPlan, followUpActions := .ofTexts followUpActions }

/-- The rule of `PolicyIntent(**raw)`. A `rule_id` that is empty is computed from the flow. -/
def PolicyRule.validate (py : Py) (P : Pydantic) (raw : List (String × Json)) :
    Option PolicyRule := do
  let ruleId ← Field.text raw "rule_id" (some "")
  let action ← (Json.lookup "action" raw).bind PolicyAction.ofJson
  let srcIp ← Field.text raw "src_ip" none
  let dstIp ← Field.text raw "dst_ip" (some "")
  let dstPort ← Field.int P raw "dst_port" 0
  let protocol ← Field.text raw "protocol" (some "tcp")
  let priority ← Field.int P raw "priority" 50
  let ttlSeconds ← Field.int P raw "ttl_seconds" 3600
  let comment ← Field.text raw "comment" (some "")
  let confidence ← (Json.lookup "confidence" raw).bind (Field.unitFloat P)
  let userNotification ← Field.model UserNotification.validate raw "user_notification" {}
  return {
    ruleId := if ruleId = "" then deterministicRuleId py srcIp dstIp dstPort protocol else ruleId,
    action, srcIp, dstIp, dstPort, protocol, priority, ttlSeconds, comment, confidence,
    userNotification }

/-- `PolicyIntent(**raw)`. -/
def PolicyIntent.validate (py : Py) (P : Pydantic) (raw : List (String × Json)) :
    Except Exc PolicyIntent :=
  match PolicyRule.validate py P raw, Reasoning.validate P raw with
  | some rule, some reasoning => .ok { rule with reasoning }
  | _, _ => .error (P.error raw)

/-- A validated intent has the flow and the action of its arguments, and their id unless it is empty. -/
theorem PolicyIntent.validate_eq_ok {py : Py} {P : Pydantic} {raw : List (String × Json)}
    {intent : PolicyIntent} (h : PolicyIntent.validate py P raw = .ok intent) :
    Field.text raw "src_ip" none = some intent.srcIp ∧
      Field.text raw "dst_ip" (some "") = some intent.dstIp ∧
      (Json.lookup "action" raw).bind PolicyAction.ofJson = some intent.action ∧
      ∃ ruleId, Field.text raw "rule_id" (some "") = some ruleId ∧
        intent.ruleId = if ruleId = "" then
          deterministicRuleId py intent.srcIp intent.dstIp intent.dstPort intent.protocol
        else ruleId := by
  unfold PolicyIntent.validate at h
  split at h
  · next rule reasoning hrule _ =>
    simp only [Except.ok.injEq] at h
    subst h
    simp only [PolicyRule.validate, Option.bind_eq_bind, Option.bind_eq_some_iff] at hrule
    obtain ⟨ruleId, hruleId, action, haction, src, hsrc, dst, hdst, _, -, _, -, _, -, _, -, _, -,
      _, -, _, -, heq⟩ := hrule
    simp only [Option.pure_def, Option.some.injEq] at heq
    subst heq
    exact ⟨hsrc, hdst, Option.bind_eq_some_iff.mpr haction, ruleId, hruleId, rfl⟩
  · simp at h

/-- A validated intent has the priority of its arguments. -/
theorem PolicyIntent.priority_of_validate {py : Py} {P : Pydantic} {raw : List (String × Json)}
    {intent : PolicyIntent} (h : PolicyIntent.validate py P raw = .ok intent) :
    Field.int P raw "priority" 50 = some intent.priority := by
  unfold PolicyIntent.validate at h
  split at h
  · next rule reasoning hrule _ =>
    simp only [Except.ok.injEq] at h
    subst h
    simp only [PolicyRule.validate, Option.bind_eq_bind, Option.bind_eq_some_iff] at hrule
    obtain ⟨_, -, _, -, _, -, _, -, _, -, _, -, priority, hpriority, _, -, _, -, _, -, _, -, heq⟩ :=
      hrule
    simp only [Option.pure_def, Option.some.injEq] at heq
    subst heq
    exact hpriority
  · simp at h

/-! ## Decisions -/

/-- `EnforcementResult`. -/
structure EnforcementResult where
  /-- Whether the backend took the rule. -/
  success : Bool
  /-- The id of the rule. -/
  ruleId : String := ""
  /-- The name of the backend. -/
  backend : String := ""
  /-- What the backend answered. -/
  response : Json := .obj []
  /-- The error, when there is one. -/
  error : String := ""

/-- `DecisionOutcome`. -/
inductive DecisionOutcome where
  | enforced
  | dryRun
  | rejected
  | held
  | benign
  | error
  deriving DecidableEq

/-- `PolicyDecision`, less its random id and its times. -/
structure PolicyDecision where
  /-- The signature that fired. -/
  alertSid : ℤ
  /-- The source of the alert. -/
  alertSrcIp : String
  /-- The intent, when there is one. -/
  intent : Option PolicyIntent
  /-- What was done. -/
  outcome : DecisionOutcome
  /-- Why nothing was enforced. -/
  rejectionReason : String
  /-- What the safety layers recorded. -/
  safetyChecks : List (String × Json)
  /-- The id of the root trace. -/
  traceId : String

end ControlPlane.Intel
