import ControlPlane.Intel.Gate

/-!
# From an alert to its request

The model of `pipeline/filters.py` and `pipeline/gate.py`, and of the handler that hands an alert
that passed the gate to the agent. The filters look at the severity, at duplicates and at protected
sources. None of them turns down an alert whose source is empty, and for such an alert the
off-target check of the validators is skipped; `onTarget_iff_of_onAlert` shows that this is the only
way a rule can miss the source of its alert.
-/

namespace ControlPlane.Intel

open Text Ip

/-- `FilterResult`. -/
structure FilterResult where
  /-- Whether the alert goes on. -/
  passed : Bool
  /-- Why it does not. -/
  reason : String := ""

/-- The settings of an `AlertGate`. -/
structure AlertGate where
  /-- `_min_severity`. -/
  minSeverity : ℤ
  /-- `_whitelist_ips`. -/
  whitelistIps : List String

/-- `severity_filter`. -/
def severityFilter (py : Py) (alert : SuricataAlert) (minSeverity : ℤ) :
    Except Exc FilterResult := do
  let severity ← alert.severity py
  if minSeverity < severity then
    return ⟨false, "severity " ++ toString severity ++ " > min " ++ toString minSeverity⟩
  else return { passed := true }

/-- `dedup_filter`, with the answer of `redis.is_duplicate`. -/
def dedupFilter (py : Py) (alert : SuricataAlert) (isDuplicate : String → ℤ → Except Exc Bool) :
    Except Exc FilterResult := do
  let sid ← alert.sid py
  if ← isDuplicate alert.srcIp sid then
    return ⟨false, "duplicate alert sid=" ++ toString sid ++ " src=" ++ alert.srcIp⟩
  else return { passed := true }

/-- `whitelist_filter`. -/
def whitelistFilter (alert : SuricataAlert) (whitelistIps : List String) : FilterResult :=
  let bare := firstPart '/' alert.srcIp
  if isProtectedIp alert.srcIp then
    ⟨false, "src_ip " ++ alert.srcIp ++ " is in NEVER_BLOCK whitelist"⟩
  else if bare ∈ whitelistIps then ⟨false, "src_ip " ++ bare ++ " is in whitelist"⟩
  else { passed := true }

/-- `zone_filter`, which lets every alert through. -/
def zoneFilter (alert : SuricataAlert) : FilterResult :=
  if alert.srcIp ≠ "" ∧ ipToZone alert.srcIp = none then
    ⟨true, "src_ip outside known zones — passing through for log_only"⟩
  else { passed := true }

/-- The loop of `should_process`. The first filter that fails ends it, and logs the signature. -/
def firstFailure (py : Py) (alert : SuricataAlert) :
    List (Unit → Except Exc FilterResult) → Except Exc (Bool × String)
  | [] => .ok (true, "")
  | makeCheck :: rest => do
    let result ← makeCheck ()
    if result.passed then firstFailure py alert rest
    else
      let _ ← alert.sid py
      return (false, result.reason)

/-- `should_process`. -/
def shouldProcess (py : Py) (gate : AlertGate) (isDuplicate : String → ℤ → Except Exc Bool)
    (alert : SuricataAlert) : Except Exc (Bool × String) :=
  firstFailure py alert [
    fun _ => severityFilter py alert gate.minSeverity,
    fun _ => dedupFilter py alert isDuplicate,
    fun _ => .ok (whitelistFilter alert gate.whitelistIps),
    fun _ => .ok (zoneFilter alert)]

/-- `OnAlert cfg gate isDuplicate alert h`: the handler of an alert makes the calls `h` of the
agent. -/
inductive OnAlert (cfg : AgentConfig) (gate : AlertGate)
    (isDuplicate : String → ℤ → Except Exc Bool) (alert : SuricataAlert) :
    List AgentEvent → Prop where
  /-- A filter raises. -/
  | raised {e} (hgate : shouldProcess cfg.py gate isDuplicate alert = .error e) :
      OnAlert cfg gate isDuplicate alert []
  /-- A filter turns the alert down. -/
  | filtered {reason} (hgate : shouldProcess cfg.py gate isDuplicate alert = .ok (false, reason)) :
      OnAlert cfg gate isDuplicate alert []
  /-- The alert passes, and the agent processes it. -/
  | processed {reason h r} (hgate : shouldProcess cfg.py gate isDuplicate alert = .ok (true, reason))
      (hp : Process cfg alert h r) : OnAlert cfg gate isDuplicate alert h

/-- The network of a rule's source, after trimming, contains the address of the alert's source. -/
def OnTarget (srcIp alertSrcIp : String) : Prop :=
  ∃ a net, ipAddress (strip alertSrcIp) = some a ∧ ipNetwork false (strip srcIp) = some net ∧
    a ∈ net

/-- Whenever the handler of an alert calls the backend, the rule is against the source of the alert
exactly when the alert has a source. -/
theorem onTarget_iff_of_onAlert {cfg : AgentConfig} {gate : AlertGate}
    {isDuplicate : String → ℤ → Except Exc Bool} {alert : SuricataAlert}
    {h₁ h₂ : List AgentEvent} {intent : PolicyIntent} {a : Except Exc EnforcementResult}
    (h : OnAlert cfg gate isDuplicate alert (h₁ ++ ⟨.enforce intent, a⟩ :: h₂)) :
    OnTarget intent.srcIp alert.srcIp ↔ alert.srcIp ≠ "" := by
  generalize hh : h₁ ++ ⟨.enforce intent, a⟩ :: h₂ = h' at h
  cases h with
  | raised _ => simp at hh
  | filtered _ => simp at hh
  | processed _ hp =>
    subst hh
    obtain ⟨sid, hc⟩ := cleared_of_process hp
    have hacc := accepted_of_validateIntent hc.drop hc.valid
    constructor
    · rintro ⟨a, net, ha, -, -⟩ hempty
      have hnone : ipAddress (strip "") = none := by decide +kernel
      rw [hempty, hnone] at ha
      simp at ha
    · intro hne
      exact ipMatchesAlertSrc_eq_true (hacc.onTarget hne)

/-- The gate with its default settings. -/
def plainGate : AlertGate := ⟨2, []⟩

/-- A request of the plain agent is one of the handler, when the gate lets the alert through. -/
theorem onAlert_of_process {alertSrcIp : String} {h : List AgentEvent}
    {r : Except Exc PolicyDecision}
    (hgate : (shouldProcess plainAgent.py plainGate (fun _ _ => .ok false)
      (plainAlert alertSrcIp)).toOption = some (true, ""))
    (hp : Process plainAgent (plainAlert alertSrcIp) h r) :
    OnAlert plainAgent plainGate (fun _ _ => .ok false) (plainAlert alertSrcIp) h := by
  cases hs : shouldProcess plainAgent.py plainGate (fun _ _ => .ok false)
      (plainAlert alertSrcIp) with
  | error e => simp [hs, Except.toOption] at hgate
  | ok x =>
    simp only [hs, Except.toOption, Option.some.injEq] at hgate
    subst hgate
    exact .processed hs hp

/-- An alert from a host of the web zone is handled with a rule against that host. -/
theorem onTarget_iff_of_onAlert_host :
    ∃ h₁ intent a h₂, (plainRun "10.1.100.10" "10.1.100.10/32" "").1 =
        h₁ ++ ⟨.enforce intent, a⟩ :: h₂ ∧ OnTarget intent.srcIp "10.1.100.10" := by
  have hflow : (plainRun "10.1.100.10" "10.1.100.10/32" "").1.findSome? enforcedFlow =
      some ("10.1.100.10/32", "") := by decide +kernel
  obtain ⟨h₁, intent, a, h₂, heq, -, -, hp⟩ := exists_process_of_flow hflow
  have h := onAlert_of_process (by decide +kernel) hp
  exact ⟨h₁, intent, a, h₂, heq, (onTarget_iff_of_onAlert h).mpr (by decide)⟩

/-- An alert without a source passes the gate, and the model may then drop any host of a zone. -/
theorem exists_onAlert_not_onTarget :
    ¬ ∀ (cfg : AgentConfig) (gate : AlertGate) (isDuplicate : String → ℤ → Except Exc Bool)
      (alert : SuricataAlert) (h₁ h₂ : List AgentEvent) (intent : PolicyIntent)
      (a : Except Exc EnforcementResult),
      OnAlert cfg gate isDuplicate alert (h₁ ++ ⟨.enforce intent, a⟩ :: h₂) →
      OnTarget intent.srcIp alert.srcIp := by
  intro hall
  have hflow : (plainRun "" "10.1.100.10/32" "").1.findSome? enforcedFlow =
      some ("10.1.100.10/32", "") := by decide +kernel
  obtain ⟨h₁, intent, a, h₂, -, -, -, hp⟩ := exists_process_of_flow hflow
  have h := onAlert_of_process (by decide +kernel) hp
  obtain ⟨b, net, hb, -, -⟩ := hall _ _ _ _ h₁ h₂ intent a h
  have hnone : ipAddress (strip "") = none := by decide +kernel
  rw [show (plainAlert "").srcIp = "" from rfl, hnone] at hb
  simp at hb

end ControlPlane.Intel
