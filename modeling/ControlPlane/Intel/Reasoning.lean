import ControlPlane.Intel.Nodes

/-!
# The reasoning trace

The model of `node_collect_reasoning`, the second stage of `agent/nodes.py`. It asks the model to
explain the decided rule, reads the answer into the explaining fields of the intent, and writes them
into the intent object that the enforcement is working with. It makes no call to the safety layers
or the backend, and writes no field of the rule.
-/

namespace ControlPlane.Intel

open Text AgentOp

/-! ## Reading the answer -/

/-- `probability\s*=\s*([0-9.]+)`, matched at the front of a text. -/
def probabilityAt (cs : List Char) : Option String :=
  let word := "probability".toList
  if word <+: cs then
    match (cs.drop word.length).dropWhile isSpace with
    | '=' :: rest =>
      let number := (rest.dropWhile isSpace).takeWhile fun c => isDigit c || c == '.'
      if number = [] then none else some (String.ofList number)
    | _ => none
  else none

/-- The first match of the probability in a text. -/
def probabilityIn (h : String) : Option String := h.toList.tails.findSome? probabilityAt

/-- `min(max(x, 0.0), 1.0)`. -/
def clampUnit (x : PyFloat) : PyFloat :=
  let lower := if x.lt ⟨.fin 0, "0.0"⟩ then ⟨.fin 0, "0.0"⟩ else x
  if PyFloat.lt ⟨.fin 1, "1.0"⟩ lower then ⟨.fin 1, "1.0"⟩ else lower

/-- The hypothesis in a text, with `none` for an exception. -/
def hypothesisOfText (py : Py) (h : String) : Option Hypothesis := do
  let probability ← match probabilityIn h with
    | some number => py.float number
    | none => some ⟨.fin (1 / 2), "0.5"⟩
  let name := strip (firstPart '(' h)
  let name := if name = "" then "unnamed" else name
  return {
    name := String.ofList (name.toList.take 80), description := h,
    probability := clampUnit probability, supportingEvidence := [], disconfirmingEvidence := [] }

/-- The hypothesis in an object, with `none` for an exception. -/
def hypothesisOfFields (cfg : AgentConfig) (fields : List (String × Json)) : Option Hypothesis := do
  let field (key : String) (default : Json) := (Json.lookup key fields).getD default
  let half : Json := .float ⟨.fin (1 / 2), "0.5"⟩
  let probability ← ((field "probability" half).floatOf cfg.py.toPyText).toOption
  Hypothesis.validate cfg.pydantic [("name", field "name" (.str "unnamed")),
    ("description", field "description" (.str "")), ("probability", .float probability),
    ("supporting_evidence", (field "supporting_evidence" (.arr [])).orElse (.arr [])),
    ("disconfirming_evidence", (field "disconfirming_evidence" (.arr [])).orElse (.arr []))]

/-- One round of the loop over the hypotheses. -/
def hypothesisOf (cfg : AgentConfig) : Json → Option Hypothesis
  | .str h => hypothesisOfText cfg.py h
  | .obj fields => hypothesisOfFields cfg fields
  | _ => none

/-- One round of the loop over the alternative actions. -/
def alternativeOf (cfg : AgentConfig) : Json → Option AlternativeAction
  | .str a =>
    let word := if containsText "DROP" (cfg.py.upper a) then "DROP"
      else if containsText "ESCALATE" (cfg.py.upper a) then "ESCALATE_HUMAN" else "log_only"
    some { triggerCondition := a, action := word, rationale := a }
  | .obj fields =>
    let field (key : String) (default : Json) := (Json.lookup key fields).getD default
    AlternativeAction.validate [("trigger_condition", field "trigger_condition" (.str "")),
      ("action", field "action" (.str "log_only")), ("rationale", field "rationale" (.str ""))]
  | _ => none

/-- The rollback plan of an answer. -/
def rollbackOf (cfg : AgentConfig) (v : Option Json) : Except Exc RollbackPlan :=
  match v with
  | some (.obj fields) => do
    let field (key : String) (default : Json) := (Json.lookup key fields).getD default
    let seconds ← (field "monitor_seconds" (.int 300)).intOf cfg.py.toPyText
    let raw := [("trigger", field "trigger" (.str "")), ("action", field "action" (.str "")),
      ("monitor_seconds", .int seconds)]
    match RollbackPlan.validate cfg.pydantic raw with
    | some plan => .ok plan
    | none => .error (cfg.pydantic.error raw)
  | some (.str s) => .ok { trigger := s, action := s, monitorSeconds := 300 }
  | _ => .ok {}

/-- The explaining fields in an answer. -/
def reasoningOf (cfg : AgentConfig) (fields : List (String × Json)) : Except Exc Reasoning := do
  let field (key : String) (default : Json) := (Json.lookup key fields).getD default
  let hypotheses ← ((field "hypotheses" .null).orElse (.arr [])).iter
  let alternatives ← ((field "alternative_actions" .null).orElse (.arr [])).iter
  let rollbackPlan ← rollbackOf cfg (Json.lookup "rollback_plan" fields)
  return {
    reasoningSteps := (field "reasoning_steps" (.arr [])).orElse (.arr [])
    hypotheses := hypotheses.filterMap (hypothesisOf cfg)
    primaryHypothesis := field "primary_hypothesis" (.str "")
    alternativeActions := alternatives.filterMap (alternativeOf cfg)
    rollbackPlan := rollbackPlan
    followUpActions := (field "follow_up_actions" (.arr [])).orElse (.arr [])
    mitreTechnique := field "mitre_technique" (.str "")
    mitreTactic := field "mitre_tactic" (.str "") }

/-! ## The second stage -/

/-- The two attempts at an answer, with the text of the last error. -/
def reasoningAttempts (messages : Messages) : ℕ → String → CallM (Json × String)
  | 0, lastErr => return (.null, lastErr)
  | n + 1, lastErr => do
    match ← Act.perform (chatJson messages "reasoning_trace") with
    | .ok result => return (result, lastErr)
    | .error e =>
      Act.perform (sleep 1)
      reasoningAttempts messages n (String.ofList (e.msg.toList.take 200))

/-- `node_collect_reasoning`, with the patch that its caller applies. -/
def collectReasoning (cfg : AgentConfig) : CallM Unit := do
  let state ← Act.perform readState
  match state.intent with
  | none => return ()
  | some intent =>
    let alert := state.alert
    let user ← Act.ofExcept (cfg.prompts.reasoningTrace alert (ipToZone alert.srcIp)
      (ipToZone alert.destIp) state.alertHistory state.alertContext state.correlation
      intent.toPolicyRule)
    let messages := [("system", cfg.prompts.system state.contextSnapshot), ("user", user)]
    let (result, lastErr) ← reasoningAttempts messages 2 ""
    match result with
    | .obj fields =>
      let reasoning ← Act.ofExcept (reasoningOf cfg fields)
      Act.perform (setReasoning reasoning)
      Act.perform (patchReasoning true "")
    | _ =>
      Act.perform (patchReasoning false (if lastErr = "" then "non-dict result" else lastErr))

/-- `_reasoning_path`: a decision from the cache has its reasoning already. -/
def reasoningPath (cfg : AgentConfig) : CallM Unit := do
  let state ← Act.perform readState
  if state.cacheHit then return ()
  else
    Act.orRaise (Act.perform (spanOpen "reasoning_trace"))
    collectReasoning cfg

end ControlPlane.Intel
