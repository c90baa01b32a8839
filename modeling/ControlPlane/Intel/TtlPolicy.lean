import ControlPlane.Intel.Placement

/-!
# Two policies for the time to live

`_SEVERITY_RULES` has a range of times to live for each severity, and the settings have one for all
of them. `validate_intent` reads of the table the actions alone, so what it accepts is in the range
of the settings. The two agree exactly when the range of the settings is in the row of the signature
(`gradesTtl_iff`); the one that the settings ship with is not in the row of severity 2.
-/

namespace ControlPlane.Intel

open Text Ip

/-- The row of `_SEVERITY_RULES` for a catalogued signature. -/
def severityRule (sid : ℤ) : Option SeverityRule :=
  (getSidInfo sid).bind fun severity => SEVERITY_RULES.lookup severity

/-- With these settings, each drop that is accepted for a signature has a time to live in the range
of its severity. -/
def GradesTtl (py : Py) (kb : Knowledge) (sid ttlMin ttlMax : ℤ) : Prop :=
  ∀ (rule : PolicyRule) (alertSrcIp : String), rule.action = .drop →
    (validateIntent py kb rule sid ttlMin ttlMax alertSrcIp).errors = [] →
    ∀ row, severityRule sid = some row → row.ttlMin ≤ rule.ttlSeconds ∧
      rule.ttlSeconds ≤ row.ttlMax

/-- The range of the settings is in the row of a signature, when there is a drop to accept: the
agent may drop, the range has a time to live, and the row has the action. -/
def WithinRow (kb : Knowledge) (sid ttlMin ttlMax : ℤ) : Prop :=
  "DROP" ∈ kb.allowedAgentActions → ttlMin ≤ ttlMax →
    ∀ row, severityRule sid = some row → "DROP" ∈ row.allowedActions →
      row.ttlMin ≤ ttlMin ∧ ttlMax ≤ row.ttlMax

/-- A severity of the table that allows a drop is no severity of an observation. -/
theorem gradationErrors_eq_nil {py : Py} {rule : PolicyRule} {sid : ℤ} {row : SeverityRule}
    (hdrop : rule.action = .drop) (hrow : severityRule sid = some row)
    (hallowed : "DROP" ∈ row.allowedActions) : gradationErrors py rule sid = [] := by
  obtain ⟨severity, hsid, hlookup⟩ := Option.bind_eq_some_iff.mp hrow
  have hactions : "DROP" ∈ allowedActions severity := by
    unfold allowedActions
    rw [hlookup]
    exact hallowed
  have hlow : ¬ 3 ≤ severity := by
    have hseverity := severity_of_drop_allowed hactions
    omega
  unfold gradationErrors
  simp only [hsid, hdrop]
  rw [if_pos (show PolicyAction.drop.value ∈ _ from hactions), if_neg fun h => hlow h.1]
  rfl

/-- The drop of a host of the web zone with this time to live. -/
def ttlRule (ttl : ℤ) : PolicyRule := { dropRule "10.1.100.10/32" "" with ttlSeconds := ttl }

theorem ttlRule_srcIp (ttl : ℤ) : (ttlRule ttl).srcIp = "10.1.100.10/32" := rfl

theorem ttlRule_dstIp (ttl : ℤ) : (ttlRule ttl).dstIp = "" := rfl

/-- The drop of a host is accepted with every time to live of the settings. -/
theorem validateIntent_ttlRule (py : Py) {kb : Knowledge} {sid ttlMin ttlMax ttl : ℤ}
    {row : SeverityRule} (hagent : "DROP" ∈ kb.allowedAgentActions)
    (hrow : severityRule sid = some row) (hallowed : "DROP" ∈ row.allowedActions)
    (hmin : ttlMin ≤ ttl) (hmax : ttl ≤ ttlMax) :
    (validateIntent py kb (ttlRule ttl) sid ttlMin ttlMax "").errors = [] := by
  have hblock : checkNeverBlock "10.1.100.10/32" "" = none := rfl
  have haction : checkAllowedAction py.toPyText kb.allowedAgentActions
      (ttlRule ttl).action.value = none := checkAllowedAction_eq_none.mpr hagent
  have hguards : guardrailErrors py kb (ttlRule ttl) "" = [] := by
    unfold guardrailErrors
    rw [ttlRule_srcIp, ttlRule_dstIp, hblock, haction]
    rfl
  have hzone : ipToZone "10.1.100.10/32" ≠ none := Option.some_ne_none Zone.web
  have hgradation : gradationErrors py (ttlRule ttl) sid = [] :=
    gradationErrors_eq_nil rfl hrow hallowed
  have hrange : ¬ ((ttlRule ttl).action = .drop ∧
      ((ttlRule ttl).ttlSeconds < ttlMin ∨ ttlMax < (ttlRule ttl).ttlSeconds)) := by
    show ¬ (_ ∧ (ttl < ttlMin ∨ ttlMax < ttl))
    omega
  have hlayers : layerErrors py kb (ttlRule ttl) sid ttlMin ttlMax = [] := by
    unfold layerErrors
    rw [ttlRule_srcIp, ttlRule_dstIp, if_neg hzone, if_neg (not_not.mpr rfl), hgradation,
      if_neg hrange]
    rfl
  unfold validateIntent
  simp only
  rw [if_pos hguards]
  exact hlayers

/-- What is accepted for a signature is in the range of its severity exactly when the range of the
settings is. -/
theorem gradesTtl_iff {py : Py} {kb : Knowledge} {sid ttlMin ttlMax : ℤ} :
    GradesTtl py kb sid ttlMin ttlMax ↔ WithinRow kb sid ttlMin ttlMax := by
  constructor
  · intro h hagent hle row hrow hallowed
    have hlow := h (ttlRule ttlMin) "" rfl
      (validateIntent_ttlRule py hagent hrow hallowed le_rfl hle) row hrow
    have hhigh := h (ttlRule ttlMax) "" rfl
      (validateIntent_ttlRule py hagent hrow hallowed hle le_rfl) row hrow
    exact ⟨hlow.1, hhigh.2⟩
  · intro h rule alertSrcIp hdrop hvalid row hrow
    have hacc := accepted_of_validateIntent hdrop hvalid
    have hagent : "DROP" ∈ kb.allowedAgentActions := by
      have haction := hacc.action
      rwa [hdrop] at haction
    obtain ⟨hmin, hmax⟩ := hacc.ttl
    -- what is accepted has the severity of a row with the action
    have hallowed : "DROP" ∈ row.allowedActions := by
      obtain ⟨severity, hsid, hlookup⟩ := Option.bind_eq_some_iff.mp hrow
      rcases hacc.severity severity hsid with rfl | rfl
      · obtain rfl := Option.some_inj.mp hlookup
        exact List.mem_singleton_self _
      · obtain rfl := Option.some_inj.mp hlookup
        exact List.mem_singleton_self _
    have hwithin := h hagent (hmin.trans hmax) row hrow hallowed
    exact ⟨hwithin.1.trans hmin, hmax.trans hwithin.2⟩

/-- With the settings as they ship, a burst of connections may be dropped for an hour, although the
row of its severity ends after half of it. -/
theorem not_gradesTtl_shipped :
    ¬ ∀ (py : Py) (kb : Knowledge) (sid ttlMin ttlMax : ℤ), GradesTtl py kb sid ttlMin ttlMax := by
  intro hall
  have hvalid : (validateIntent (.ascii (fun s => s) fun _ => none) bareKnowledge (ttlRule 3600)
      9000030 60 3600 "10.1.100.10").errors = [] := by
    decide +kernel
  have hrange := hall _ bareKnowledge 9000030 60 3600 (ttlRule 3600) "10.1.100.10" rfl hvalid
    ⟨["DROP"], 60, 1800⟩ rfl
  exact absurd hrange (by decide)

end ControlPlane.Intel
