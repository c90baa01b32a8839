import ControlPlane.Intel.Topology
import ControlPlane.Intel.Guardrails
import ControlPlane.Intel.Models

/-!
# The validators and the confidence gate

The model of `agent/safety/validators.py` and `agent/safety/confidence.py`, with what they read of
`core/policy.py` and `core/knowledge.py`. `validateIntent` collects the errors of the layers in the
order of the source: the hard guardrails first, which end the check when one of them fails, then
topology, policy, severity and time to live.

`Accepted` is everything that a `DROP` without an error has passed, and
`accepted_of_validateIntent` is the one place where the function is opened: the results about
enforced rules start from that record.
-/

namespace ControlPlane.Intel

open Text Ip

/-! ## What the validators know -/

/-- The tables that the validators read from the knowledge base. -/
structure Knowledge where
  /-- `guardrails.ALLOWED_AGENT_ACTIONS`. -/
  allowedAgentActions : List String
  /-- `POLICY_MATRIX`, by source and destination zone. -/
  policyMatrix : List ((String × String) × String)
  /-- The `recommended_response` of `SID_DETECTIONS`. -/
  recommendedResponse : ℤ → Option String

/-- `SID_KNOWLEDGE`: the catalogued signatures and their severity. -/
def SID_KNOWLEDGE : List (ℤ × ℤ) :=
  [(9000001, 1), (9000002, 1), (9000010, 3), (9000011, 3), (9000020, 4), (9000030, 2),
    (9000031, 2), (9000032, 2), (9000033, 1), (9000034, 3), (9000035, 1)]

/-- `get_sid_info(sid)["severity"]`, for a catalogued signature. -/
def getSidInfo (sid : ℤ) : Option ℤ := SID_KNOWLEDGE.lookup sid

/-- An entry of `_SEVERITY_RULES`. -/
structure SeverityRule where
  /-- `allowed_actions`. -/
  allowedActions : List String
  /-- `ttl_min`. -/
  ttlMin : ℤ
  /-- `ttl_max`. -/
  ttlMax : ℤ

/-- `_SEVERITY_RULES`. -/
def SEVERITY_RULES : List (ℤ × SeverityRule) :=
  [(1, ⟨["DROP"], 60, 3600⟩), (2, ⟨["DROP"], 60, 1800⟩), (3, ⟨["log_only"], 0, 0⟩),
    (4, ⟨["log_only"], 0, 0⟩)]

/-- `_SEVERITY_RULES.get(severity, {}).get("allowed_actions", set())`. -/
def allowedActions (severity : ℤ) : List String :=
  ((SEVERITY_RULES.lookup severity).map SeverityRule.allowedActions).getD []

/-- `check_policy`. -/
def checkPolicy (kb : Knowledge) (src dst : Zone) : String :=
  (kb.policyMatrix.lookup (src.name, dst.name)).getD "DENY"

/-- `detect_conflict`. -/
def detectConflict (py : Py) (kb : Knowledge) (srcIp dstIp action : String) (sid : ℤ) :
    Option String :=
  match ipToZone srcIp, ipToZone dstIp with
  | some src, some dst =>
    if action = "DROP" ∧ checkPolicy kb src dst = "ALLOW" then
      -- A signature whose own response is a drop overrides the matrix.
      if (kb.recommendedResponse sid).any fun r => r != "" && containsText "DROP" (py.upper r)
      then none
      else some ("Conflict: " ++ src.name ++ "→" ++ dst.name ++ " is ALLOW in policy matrix "
        ++ "but proposed action is DROP (would break legitimate traffic)")
    else none
  | _, _ => none

/-! ## The validators -/

/-- `ValidationResult`. -/
structure ValidationResult where
  /-- What failed. -/
  errors : List String
  /-- What is only worth a note. -/
  warnings : List String

/-- `result.ok`. -/
def ValidationResult.ok (r : ValidationResult) : Bool := r.errors.isEmpty

/-- `_ip_matches_alert_src`. -/
def ipMatchesAlertSrc (intentSrcIp alertSrcIp : String) : Bool :=
  if alertSrcIp = "" then false
  else
    match ipAddress (strip alertSrcIp), ipNetwork false (strip intentSrcIp) with
    | some alertAddr, some intentNet => decide (alertAddr ∈ intentNet)
    | _, _ => false

/-- The note on a short comment. -/
def commentWarnings (comment : String) : List String :=
  if comment ≠ "" ∧ comment.toList.length < 10 then
    ["L1: comment is very short — may indicate shallow reasoning"]
  else []

/-- The errors of the hard guardrails and of the off-target check. -/
def guardrailErrors (py : Py) (kb : Knowledge) (rule : PolicyRule) (alertSrcIp : String) :
    List String :=
  (checkNeverBlock rule.srcIp rule.dstIp).toList
    ++ (checkAllowedAction py.toPyText kb.allowedAgentActions rule.action.value).toList
    ++ (if rule.action = .drop ∧ alertSrcIp ≠ "" ∧ ipMatchesAlertSrc rule.srcIp alertSrcIp = false
      then ["L4b OFF-TARGET: intent.src_ip=" ++ py.repr rule.srcIp ++ " does not contain "
        ++ "alert.src_ip=" ++ py.repr alertSrcIp
        ++ ". Possible LLM hallucination or prompt injection."]
      else [])

/-- The errors of the action gradation by severity. -/
def gradationErrors (py : Py) (rule : PolicyRule) (sid : ℤ) : List String :=
  match getSidInfo sid with
  | none => []
  | some severity =>
    (if rule.action.value ∈ allowedActions severity then []
      else ["L6: SID " ++ toString sid ++ " severity=" ++ toString severity
        ++ " only allows actions=" ++ py.set (allowedActions severity) ++ ", got action="
        ++ rule.action.value])
    ++ (if 3 ≤ severity ∧ rule.action = .drop then
        ["L6: Severity P" ++ toString severity ++ " (SID " ++ toString sid
          ++ ") must be log_only, not DROP"]
      else [])

/-- The errors of the layers after the guardrails. -/
def layerErrors (py : Py) (kb : Knowledge) (rule : PolicyRule) (sid ttlMin ttlMax : ℤ) :
    List String :=
  (if ipToZone rule.srcIp = none then
      ["L3: src_ip " ++ rule.srcIp ++ " not in any known zone"]
    else [])
    ++ (if rule.dstIp ≠ "" then
      ((detectConflict py kb rule.srcIp rule.dstIp rule.action.value sid).map ("L3: " ++ ·)).toList
    else [])
    ++ gradationErrors py rule sid
    ++ (if rule.action = .drop ∧ (rule.ttlSeconds < ttlMin ∨ ttlMax < rule.ttlSeconds) then
      ["L5: ttl_seconds=" ++ toString rule.ttlSeconds ++ " out of range [" ++ toString ttlMin
        ++ ", " ++ toString ttlMax ++ "]"]
    else [])

/-- `validate_intent`. It reads the rule of the intent and nothing of its reasoning. -/
def validateIntent (py : Py) (kb : Knowledge) (rule : PolicyRule) (sid ttlMin ttlMax : ℤ)
    (alertSrcIp : String) : ValidationResult :=
  let guardrails := guardrailErrors py kb rule alertSrcIp
  ⟨if guardrails = [] then layerErrors py kb rule sid ttlMin ttlMax else guardrails,
    commentWarnings rule.comment⟩

/-- What a `DROP` without a validation error has passed. -/
structure Accepted (kb : Knowledge) (rule : PolicyRule) (sid ttlMin ttlMax : ℤ)
    (alertSrcIp : String) : Prop where
  /-- The address before the slash of the source is not protected. -/
  src : isProtectedIp rule.srcIp = false
  /-- Nor is that of the destination, when there is one. -/
  dst : rule.dstIp ≠ "" → isProtectedIp rule.dstIp = false
  /-- The agent may drop. -/
  action : rule.action.value ∈ kb.allowedAgentActions
  /-- The source network holds the source of an alert that has one. -/
  onTarget : alertSrcIp ≠ "" → ipMatchesAlertSrc rule.srcIp alertSrcIp = true
  /-- The address before the slash of the source is in a zone. -/
  zone : ∃ z, ipToZone rule.srcIp = some z
  /-- A catalogued signature has severity 1 or 2. -/
  severity : ∀ s, getSidInfo sid = some s → s = 1 ∨ s = 2
  /-- The time to live is in the configured range. -/
  ttl : ttlMin ≤ rule.ttlSeconds ∧ rule.ttlSeconds ≤ ttlMax

/-- The severities of the catalogue that allow a `DROP`. -/
theorem severity_of_drop_allowed {severity : ℤ} (h : "DROP" ∈ allowedActions severity) :
    severity = 1 ∨ severity = 2 := by
  unfold allowedActions SEVERITY_RULES at h
  simp only [List.lookup_cons, List.lookup_nil] at h
  split at h
  · next h1 => exact .inl (by simpa using h1)
  · split at h
    · next h2 => exact .inr (by simpa using h2)
    · split at h
      · simp at h
      · split at h
        · simp at h
        · simp at h

/-- The source of a rule without a validation error is in a zone, whatever its action. -/
theorem zone_of_validateIntent {py : Py} {kb : Knowledge} {rule : PolicyRule}
    {sid ttlMin ttlMax : ℤ} {alertSrcIp : String}
    (h : (validateIntent py kb rule sid ttlMin ttlMax alertSrcIp).errors = []) :
    ∃ z, ipToZone rule.srcIp = some z := by
  unfold validateIntent at h
  simp only at h
  split_ifs at h with hg
  · unfold layerErrors at h
    simp only [List.append_eq_nil_iff] at h
    obtain ⟨⟨⟨hzone, -⟩, -⟩, -⟩ := h
    split_ifs at hzone with hz
    exact Option.ne_none_iff_exists'.mp hz
  · exact absurd h hg

/-- A rule without a validation error has no conflict with the policy, when it has a destination. -/
theorem conflict_of_validateIntent {py : Py} {kb : Knowledge} {rule : PolicyRule}
    {sid ttlMin ttlMax : ℤ} {alertSrcIp : String}
    (h : (validateIntent py kb rule sid ttlMin ttlMax alertSrcIp).errors = [])
    (hdst : rule.dstIp ≠ "") :
    detectConflict py kb rule.srcIp rule.dstIp rule.action.value sid = none := by
  unfold validateIntent at h
  simp only at h
  split_ifs at h with hg
  · unfold layerErrors at h
    simp only [List.append_eq_nil_iff] at h
    obtain ⟨⟨⟨-, hconflict⟩, -⟩, -⟩ := h
    rw [if_pos hdst, Option.toList_eq_nil_iff, Option.map_eq_none_iff] at hconflict
    exact hconflict
  · exact absurd h hg

/-- A `DROP` without a validation error has passed every layer. -/
theorem accepted_of_validateIntent {py : Py} {kb : Knowledge} {rule : PolicyRule}
    {sid ttlMin ttlMax : ℤ} {alertSrcIp : String} (hdrop : rule.action = .drop)
    (h : (validateIntent py kb rule sid ttlMin ttlMax alertSrcIp).errors = []) :
    Accepted kb rule sid ttlMin ttlMax alertSrcIp := by
  unfold validateIntent at h
  simp only at h
  split_ifs at h with hg
  · unfold guardrailErrors at hg
    simp only [List.append_eq_nil_iff, Option.toList_eq_nil_iff, checkNeverBlock_eq_none,
      checkAllowedAction_eq_none] at hg
    obtain ⟨⟨⟨hsrc, hdst⟩, haction⟩, htarget⟩ := hg
    unfold layerErrors at h
    simp only [List.append_eq_nil_iff] at h
    obtain ⟨⟨⟨hzone, -⟩, hgrad⟩, httl⟩ := h
    -- The later layers run only when the guardrails found nothing; what is left is one goal for each.
    refine ⟨hsrc, hdst, haction, fun halert => ?_, ?_, fun s hs => ?_, ?_⟩
    · by_contra hmatch
      rw [if_pos ⟨hdrop, halert, by simpa using hmatch⟩] at htarget
      simp at htarget
    · split_ifs at hzone with hz
      exact Option.ne_none_iff_exists'.mp hz
    · unfold gradationErrors at hgrad
      rw [hs] at hgrad
      simp only [List.append_eq_nil_iff] at hgrad
      obtain ⟨hallowed, -⟩ := hgrad
      split_ifs at hallowed with hin
      rw [hdrop] at hin
      exact severity_of_drop_allowed hin
    · split_ifs at httl with ht
      push Not at ht
      exact ht hdrop
  · exact absurd h hg

/-! ## The confidence gate -/

/-- `ConfidenceOutcome`. -/
inductive ConfidenceOutcome where
  | enforce
  | enforceAndNotify
  | hold
  | reject
  deriving DecidableEq

/-- `outcome.value`. -/
def ConfidenceOutcome.value : ConfidenceOutcome → String
  | enforce => "enforce"
  | enforceAndNotify => "enforce_and_notify"
  | hold => "hold"
  | reject => "reject"

/-- `evaluate_confidence`. -/
def evaluateConfidence (confidence autoEnforce notify hold : PyFloat) :
    ConfidenceOutcome × String :=
  let head := "L7: confidence=" ++ confidence.fixed2 ++ " < "
  if confidence.ge autoEnforce then (.enforce, "")
  else if confidence.ge notify then
    (.enforceAndNotify, head ++ autoEnforce.repr ++ " — enforcing with notification")
  else if confidence.ge hold then (.hold, head ++ notify.repr ++ " — placed in review queue")
  else (.reject, head ++ hold.repr ++ " — rejected (too uncertain)")

end ControlPlane.Intel
