import ControlPlane.Lib.Dict
import ControlPlane.Lib.JsonRoundTrip

/-!
# The knowledge base

The models of `core/system_model.py`, `core/baselines.py`, `core/threat_playbook.py` and
`core/enforcement_plane.py`, as they are validated from named values, and the knowledge base that is
made of them. What no model validates (the enforcement plane, the invariants, the policy matrix)
is kept as the Python values that YAML or the graph database gave.
-/

namespace ControlPlane.Know

open JsonText

variable {Obj : Type}

/-! ## The interpreter -/

/-- What the loaders use of Python and of pydantic, where `none` is an exception. -/
structure Python (Obj : Type) extends Interp Obj where
  /-- Whether two keys of a dict are one. -/
  same : PyVal Obj → PyVal Obj → Bool
  /-- `hash(v)` does not raise. -/
  hashable : PyVal Obj → Bool
  /-- `int(v)`. -/
  toInt : PyVal Obj → Option ℤ
  /-- `list(v)`. -/
  toList : PyVal Obj → Option (List (PyVal Obj))
  /-- A value in a field of type `str`. -/
  asStr : PyVal Obj → Option PyStr
  /-- A value in a field of type `int`. -/
  asInt : PyVal Obj → Option ℤ
  /-- A value in a field of type `bool`. -/
  asBool : PyVal Obj → Option Bool
  /-- The items of a value in a field of a list type. -/
  asList : PyVal Obj → Option (List (PyVal Obj))
  /-- A value in a field of type `dict[str, Any]`. -/
  asDict : PyVal Obj → Option (PyVal Obj)
  same_equiv : Equivalence fun v w => same v w = true
  same_str : ∀ s t, same (.str s) (.str t) = true ↔ s = t
  same_int : ∀ m n, same (.int m) (.int n) = true ↔ m = n
  hashable_str : ∀ s, hashable (.str s) = true
  toInt_int : ∀ n, toInt (.int n) = some n
  toList_seq : ∀ frozen xs, toList (.seq frozen xs) = some xs
  asStr_str : ∀ s, asStr (.str s) = some s
  asInt_int : ∀ n, asInt (.int n) = some n
  asBool_bool : ∀ b, asBool (.bool b) = some b
  asList_seq : ∀ frozen xs, asList (.seq frozen xs) = some xs
  asDict_dict : ∀ items, (∀ i ∈ items, (keyStr i.1).isSome = true) →
    asDict (.dict items) = some (.dict items)

namespace Python

variable (P : Python Obj)

/-- A value in a field of type `list[str]`. -/
def asStrs (v : PyVal Obj) : Option (List PyStr) := do (← P.asList v).mapM P.asStr

/-- A value in a field of type `list[int]`. -/
def asInts (v : PyVal Obj) : Option (List ℤ) := do (← P.asList v).mapM P.asInt

/-- A value in a field of type `list[dict[str, Any]]`. -/
def asDicts (v : PyVal Obj) : Option (List (PyVal Obj)) := do (← P.asList v).mapM P.asDict

end Python

/-- A member of an enumeration, by its value. -/
def memberOf {A : Type} (members : List (PyStr × A)) : PyVal Obj → Option A
  | .str s => members.lookup s
  | _ => none

/-! ## Models -/

/-- `Criticality` and `FlowCriticality`. -/
inductive Criticality where
  | critical
  | high
  | medium
  | low
  deriving DecidableEq

/-- The values of `Criticality`. -/
def CRITICALITIES : List (PyStr × Criticality) :=
  [(u "critical", .critical), (u "high", .high), (u "medium", .medium), (u "low", .low)]

/-- `DataClassification`. -/
inductive DataClassification where
  | pub
  | internal
  | confidential
  | restricted
  deriving DecidableEq

/-- The values of `DataClassification`. -/
def DATA_CLASSIFICATIONS : List (PyStr × DataClassification) :=
  [(u "public", .pub), (u "internal", .internal), (u "confidential", .confidential),
    (u "restricted", .restricted)]

/-- `TrustLevel`. -/
inductive TrustLevel where
  | untrusted
  | trustedInternal
  | crownJewel
  | privileged
  deriving DecidableEq

/-- The values of `TrustLevel`. -/
def TRUST_LEVELS : List (PyStr × TrustLevel) :=
  [(u "untrusted", .untrusted), (u "trusted-internal", .trustedInternal),
    (u "crown-jewel", .crownJewel), (u "privileged", .privileged)]

/-- `Zone`. -/
structure Zone where
  name : PyStr
  cidr : PyStr
  leaf : PyStr
  vlan : ℤ
  sviGateway : PyStr
  purpose : PyStr
  trustLevel : TrustLevel
  criticality : Criticality

/-- `Service`. -/
structure Service where
  port : ℤ
  proto : PyStr
  name : PyStr
  facing : PyStr
  purpose : PyStr

/-- `Asset`. -/
structure Asset where
  ip : PyStr
  hostname : PyStr
  zone : PyStr
  tier : PyStr
  role : PyStr
  criticality : Criticality
  dataClassification : DataClassification
  services : List Service
  expectedInboundSources : List PyStr
  expectedOutboundDestinations : List PyStr
  ifCompromisedImpact : PyStr
  ifBlockedImpact : PyStr
  ownerTeam : PyStr

/-- `Leaf`. -/
structure Leaf where
  name : PyStr
  mgmtIp : PyStr
  zones : List PyStr
  role : PyStr

/-- `TrafficPattern`. -/
structure TrafficPattern where
  name : PyStr
  srcZone : PyStr
  srcIp : PyStr
  dstZone : PyStr
  dstIp : PyStr
  dstPort : ℤ
  proto : PyStr
  cadence : PyStr
  expectedVolumePerHour : ℤ
  burstAnomalyThreshold : PyStr
  productionDescription : PyStr
  criticalityToBusiness : Criticality
  ifDisrupted : PyStr

/-- `SidDetection`. -/
structure SidDetection where
  sid : ℤ
  severityPLevel : ℤ
  signatureMsg : PyStr
  productionDescription : PyStr
  mitreTactic : PyStr
  mitreTechnique : PyStr
  detectionLogic : PyStr
  usesFlagsSWorkaround : Bool
  recommendedResponse : PyStr
  defaultTtlSeconds : ℤ
  falsePositiveLikelihood : PyStr
  falsePositiveScenarios : List PyStr

/-- `KillChainStage`. -/
structure KillChainStage where
  stage : ℤ
  tactic : PyStr
  expectedSignals : List ℤ
  productionIndicators : PyStr
  falsePositiveSources : List PyStr

/-- `KillChain`. -/
structure KillChain where
  name : PyStr
  productionDescription : PyStr
  stages : List KillChainStage
  typicalDwellBetweenStages : PyStr
  recommendedInterventionPoint : PyStr
  containmentStrategy : PyStr

/-- `FailureMode`. -/
structure FailureMode where
  name : PyStr
  trigger : PyStr
  restStatus : PyStr
  bodySignature : PyStr
  state : PyStr
  agentAction : PyStr

/-- `ThreatPattern`. -/
structure ThreatPattern (Obj : Type) where
  id : PyStr
  threatClass : PyStr
  flowSignature : PyVal Obj
  description : PyStr
  severity : Option PyStr
  severityInference : Option (List PyStr)
  severityProgression : Option (List (PyVal Obj))
  mitreTactic : PyStr
  mitreTechnique : Option PyStr
  recommendedAction : PyVal Obj
  recommendedScope : Option PyStr
  recommendedTtlSeconds : PyVal Obj
  confidenceBaseline : PyVal Obj
  requiresCorroboration : Option (PyVal Obj)
  falsePositiveScenarios : Option (List PyStr)
  refYatesbury : Option PyStr
  refLabScenario : Option PyStr
  note : Option PyStr

/-- `SeverityRubric`. -/
structure SeverityRubric (Obj : Type) where
  signalTable : PyVal Obj
  severityMapping : List (PyVal Obj)
  actionRules : List (PyVal Obj)
  confidenceCalibration : PyVal Obj
  hardOverrides : List (PyVal Obj)

/-- `FlowFeatureSet`. -/
structure FlowFeatureSet (Obj : Type) where
  featuresPerIpPair : List (PyVal Obj)
  detectionWindow : PyVal Obj
  unseenPortPolicy : List (PyVal Obj)
  aggregationTradeoff : PyVal Obj
  featureToPatternMap : PyVal Obj

/-! ## Validation -/

/-- The named values that a model is made of. -/
abbrev Args (Obj : Type) := String → Option (PyVal Obj)

/-- These values, by their names. -/
def named (items : List (String × PyVal Obj)) : Args Obj := fun name => items.lookup name

/-- `**v`: the values of a dict whose keys are texts. -/
def argsOf : PyVal Obj → Option (Args Obj)
  | .dict items =>
    if items.all fun i => (keyStr i.1).isSome then some fun name => getItem (u name) items else none
  | _ => none

/-- `0.0`. -/
def ZERO : FloatText where
  neg := false
  whole := [0]
  frac := [0]
  exp := none
  whole_ne := FloatText.zero_ne
  whole_head := FloatText.zero_head
  exp_ne := FloatText.none_ne
  isFloat := .inl (by decide)

namespace Python

variable (P : Python Obj)

/-- A field of type `str`. -/
def strArg (args : Args Obj) (name : String) : Option PyStr := do P.asStr (← args name)

/-- A field of type `int`. -/
def intArg (args : Args Obj) (name : String) : Option ℤ := do P.asInt (← args name)

/-- A field of type `list[str]`. -/
def strsArg (args : Args Obj) (name : String) : Option (List PyStr) := do P.asStrs (← args name)

/-- `Zone(**args)`. -/
def zone (args : Args Obj) : Option Zone := do
  return {
    name := ← P.strArg args "name"
    cidr := ← P.strArg args "cidr"
    leaf := ← P.strArg args "leaf"
    vlan := ← P.intArg args "vlan"
    sviGateway := ← P.strArg args "svi_gateway"
    purpose := ← P.strArg args "purpose"
    trustLevel := ← memberOf TRUST_LEVELS (← args "trust_level")
    criticality := ← memberOf CRITICALITIES (← args "criticality") }

/-- `Service(**args)`. -/
def service (args : Args Obj) : Option Service := do
  return {
    port := ← P.intArg args "port"
    proto := ← P.strArg args "proto"
    name := ← P.strArg args "name"
    facing := ← P.strArg args "facing"
    purpose := ← P.strArg args "purpose" }

/-- `Asset(**args)`, with the services validated. -/
def asset (args : Args Obj) (services : List Service) : Option Asset := do
  return {
    ip := ← P.strArg args "ip"
    hostname := ← P.strArg args "hostname"
    zone := ← P.strArg args "zone"
    tier := ← P.strArg args "tier"
    role := ← P.strArg args "role"
    criticality := ← memberOf CRITICALITIES (← args "criticality")
    dataClassification := ← memberOf DATA_CLASSIFICATIONS (← args "data_classification")
    services := services
    expectedInboundSources := ← P.strsArg args "expected_inbound_sources"
    expectedOutboundDestinations := ← P.strsArg args "expected_outbound_destinations"
    ifCompromisedImpact := ← P.strArg args "if_compromised_impact"
    ifBlockedImpact := ← P.strArg args "if_blocked_impact"
    ownerTeam := ← P.strArg args "owner_team" }

/-- `Leaf(**args)`. -/
def leaf (args : Args Obj) : Option Leaf := do
  return {
    name := ← P.strArg args "name"
    mgmtIp := ← P.strArg args "mgmt_ip"
    zones := ← P.strsArg args "zones"
    role := ← P.strArg args "role" }

/-- `TrafficPattern(**args)`. -/
def trafficPattern (args : Args Obj) : Option TrafficPattern := do
  return {
    name := ← P.strArg args "name"
    srcZone := ← P.strArg args "src_zone"
    srcIp := ← P.strArg args "src_ip"
    dstZone := ← P.strArg args "dst_zone"
    dstIp := ← P.strArg args "dst_ip"
    dstPort := ← P.intArg args "dst_port"
    proto := ← P.strArg args "proto"
    cadence := ← P.strArg args "cadence"
    expectedVolumePerHour := ← P.intArg args "expected_volume_per_hour"
    burstAnomalyThreshold := ← P.strArg args "burst_anomaly_threshold"
    productionDescription := ← P.strArg args "production_description"
    criticalityToBusiness := ← memberOf CRITICALITIES (← args "criticality_to_business")
    ifDisrupted := ← P.strArg args "if_disrupted" }

/-- `SidDetection(**args)`. -/
def sidDetection (args : Args Obj) : Option SidDetection := do
  return {
    sid := ← P.intArg args "sid"
    severityPLevel := ← P.intArg args "severity_p_level"
    signatureMsg := ← P.strArg args "signature_msg"
    productionDescription := ← P.strArg args "production_description"
    mitreTactic := ← P.strArg args "mitre_tactic"
    mitreTechnique := ← P.strArg args "mitre_technique"
    detectionLogic := ← P.strArg args "detection_logic"
    usesFlagsSWorkaround := ← P.asBool (← args "uses_flags_s_workaround")
    recommendedResponse := ← P.strArg args "recommended_response"
    defaultTtlSeconds := ← P.intArg args "default_ttl_seconds"
    falsePositiveLikelihood := ← P.strArg args "false_positive_likelihood"
    falsePositiveScenarios := ← P.strsArg args "false_positive_scenarios" }

/-- `KillChainStage(**args)`. -/
def killChainStage (args : Args Obj) : Option KillChainStage := do
  return {
    stage := ← P.intArg args "stage"
    tactic := ← P.strArg args "tactic"
    expectedSignals := ← P.asInts (← args "expected_signals")
    productionIndicators := ← P.strArg args "production_indicators"
    falsePositiveSources := ← P.strsArg args "false_positive_sources" }

/-- `KillChain(**args)`, with the stages validated. -/
def killChain (args : Args Obj) (stages : List KillChainStage) : Option KillChain := do
  return {
    name := ← P.strArg args "name"
    productionDescription := ← P.strArg args "production_description"
    stages := stages
    typicalDwellBetweenStages := ← P.strArg args "typical_dwell_between_stages"
    recommendedInterventionPoint := ← P.strArg args "recommended_intervention_point"
    containmentStrategy := ← P.strArg args "containment_strategy" }

/-- `FailureMode(**args)`. -/
def failureMode (args : Args Obj) : Option FailureMode := do
  return {
    name := ← P.strArg args "name"
    trigger := ← P.strArg args "trigger"
    restStatus := ← P.strArg args "rest_status"
    bodySignature := ← P.strArg args "body_signature"
    state := ← P.strArg args "state"
    agentAction := ← P.strArg args "agent_action" }

/-- A field that may be left out or be `None`. -/
def optArg {A : Type} (as : PyVal Obj → Option A) (args : Args Obj) (name : String) :
    Option (Option A) :=
  match args name with
  | none | some .none => some none
  | some v => (as v).map some

/-- A field of any type, which may be left out. -/
def anyArg (args : Args Obj) (name : String) (default : PyVal Obj) : PyVal Obj :=
  (args name).getD default

/-- `ThreatPattern(**args)`. -/
def threatPattern (args : Args Obj) : Option (ThreatPattern Obj) := do
  return {
    id := ← P.strArg args "id"
    threatClass := ← P.strArg args "threat_class"
    flowSignature := ← P.asDict (← args "flow_signature")
    description := ← P.strArg args "description"
    severity := ← optArg P.asStr args "severity"
    severityInference := ← optArg P.asStrs args "severity_inference"
    severityProgression := ← optArg P.asList args "severity_progression"
    mitreTactic := ← P.strArg args "mitre_tactic"
    mitreTechnique := ← optArg P.asStr args "mitre_technique"
    recommendedAction := ← args "recommended_action"
    recommendedScope := ← optArg P.asStr args "recommended_scope"
    recommendedTtlSeconds := anyArg args "recommended_ttl_seconds" (.int 0)
    confidenceBaseline := anyArg args "confidence_baseline" (.float (.fin ZERO))
    requiresCorroboration := ← optArg some args "requires_corroboration"
    falsePositiveScenarios := ← optArg P.asStrs args "false_positive_scenarios"
    refYatesbury := ← optArg P.asStr args "ref_yatesbury"
    refLabScenario := ← optArg P.asStr args "ref_lab_scenario"
    note := ← optArg P.asStr args "note" }

/-- `SeverityRubric(**args)`. -/
def severityRubric (args : Args Obj) : Option (SeverityRubric Obj) := do
  return {
    signalTable := ← P.asDict (← args "signal_table")
    severityMapping := ← P.asDicts (← args "severity_mapping")
    actionRules := ← P.asDicts (← args "action_rules")
    confidenceCalibration := ← P.asDict (← args "confidence_calibration")
    hardOverrides := ← P.asDicts (← args "hard_overrides") }

/-- `FlowFeatureSet(**args)`. -/
def flowFeatureSet (args : Args Obj) : Option (FlowFeatureSet Obj) := do
  return {
    featuresPerIpPair := ← P.asDicts (← args "features_per_ip_pair")
    detectionWindow := ← P.asDict (← args "detection_window")
    unseenPortPolicy := ← P.asDicts (← args "unseen_port_policy")
    aggregationTradeoff := ← P.asDict (← args "aggregation_tradeoff")
    featureToPatternMap := ← P.asDict (← args "feature_to_pattern_map") }

/-- The models in a list of dicts. -/
def models {A : Type} (make : Args Obj → Option A) (v : PyVal Obj) : Option (List A) := do
  (← P.asList v).mapM fun w => do make (← argsOf w)

end Python

/-! ## The knowledge base -/

/-- The `baselines` of a knowledge base. -/
structure Baselines (Obj : Type) where
  patterns : List TrafficPattern
  anomalousPatterns : List (PyVal Obj)
  steadyStateFlowsPerMinute : ℤ
  mgtAuditAlertRatePerMinute : ℤ

/-- The `enforcement_plane` of a knowledge base. -/
structure EnforcementPlane (Obj : Type) where
  endpointContracts : List (PyVal Obj × PyVal Obj)
  fieldNameMapping : PyVal Obj
  criticalGotchas : PyVal Obj
  failureModes : PyVal Obj
  rbacContract : PyVal Obj

/-- The `invariants` of a knowledge base. -/
structure Invariants (Obj : Type) where
  neverBlockCidrs : List (PyVal Obj)
  neverBlockRationale : List (PyVal Obj × PyVal Obj)
  /-- The items of the set. -/
  allowedAgentActions : List (PyVal Obj)
  protectedCommentPrefixes : List (PyVal Obj)
  agentCommentPrefix : PyVal Obj

/-- A knowledge base. -/
structure Knowledge (Obj : Type) where
  zones : List (PyVal Obj × Zone)
  assets : List (PyVal Obj × Asset)
  leafs : List (PyVal Obj × Leaf)
  baselines : Baselines Obj
  policyMatrix : List ((PyVal Obj × PyVal Obj) × PyVal Obj)
  sids : List (PyVal Obj × SidDetection)
  killChains : List KillChain
  enforcementPlane : EnforcementPlane Obj
  invariants : Invariants Obj

/-! ## An interpreter for concrete runs -/

/-- What tells the keys of a concrete run apart. -/
def keyImage : PyVal PyStr → Option (PyStr ⊕ ℤ)
  | .str s => some (.inl s)
  | .int n => some (.inr n)
  | .bool b => some (.inr b.toNat)
  | _ => none

/-- An interpreter that takes values as the models have them. -/
def plainPython : Python PyStr where
  toInterp := textInterp
  same v w := keyImage v = keyImage w
  hashable v := (keyImage v).isSome
  toInt
    | .int n => some n
    | .bool b => some b.toNat
    | _ => none
  toList
    | .seq _ xs => some xs
    | .str s => some (s.map fun c => .str [c])
    | _ => none
  asStr
    | .str s => some s
    | _ => none
  asInt
    | .int n => some n
    | .bool b => some b.toNat
    | _ => none
  asBool
    | .bool b => some b
    | _ => none
  asList
    | .seq _ xs => some xs
    | _ => none
  asDict
    | .dict items => if items.all fun i => (keyStr i.1).isSome then some (.dict items) else none
    | _ => none
  same_equiv := {
    refl := fun _ => decide_eq_true rfl
    symm := fun h => decide_eq_true (of_decide_eq_true h).symm
    trans := fun h h' => decide_eq_true ((of_decide_eq_true h).trans (of_decide_eq_true h')) }
  same_str s t := by simp [keyImage]
  same_int m n := by simp [keyImage]
  hashable_str _ := rfl
  toInt_int _ := rfl
  toList_seq _ _ := rfl
  asStr_str _ := rfl
  asInt_int _ := rfl
  asBool_bool _ := rfl
  asList_seq _ _ := rfl
  asDict_dict _ h := if_pos (List.all_eq_true.mpr h)

end ControlPlane.Know
