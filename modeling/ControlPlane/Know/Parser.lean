import ControlPlane.Know.Fences
import ControlPlane.Know.Reader

/-!
# Parsing the knowledge files

`core/knowledge_parser.py` on the texts of the files, where `none` is an exception. The YAML loader
is a parameter; the parsers work on the values that it gives for the blocks.
-/

namespace ControlPlane.Know

open JsonText

variable {Obj : Type}

/-- The files of `knowledge/infra`. -/
inductive File where
  | zones
  | assets
  | leafs
  | baselines
  | policyMatrix
  | sids
  | killChains
  | enforcementPlane
  | invariants
  | threatPatterns
  | severityScoring
  | flowFeatures
  deriving DecidableEq

/-- The texts of the files, `none` for one that cannot be read. -/
abbrev Files := File → Option PyStr

/-! ## Blocks -/

/-- `b[name]` of a dict. -/
def field (name : String) : PyVal Obj → Option (PyVal Obj)
  | .dict items => getItem (u name) items
  | _ => none

/-- `isinstance(b, dict) and name in b`. -/
def has (name : String) (b : PyVal Obj) : Bool := (field name b).isSome

/-- A key as a value. -/
def keyVal : PyKey Obj → PyVal Obj
  | .str s => .str s
  | .none => .none
  | .bool b => .bool b
  | .int n => .int n
  | .float x => .float x
  | .other o => .other o

/-- The items that `out.update(b)` sets, none for a block that is skipped. -/
def updates : PyVal Obj → List (PyVal Obj × PyVal Obj)
  | .dict items => items.map fun i => (keyVal i.1, i.2)
  | _ => []

/-! ## What the parsers return -/

/-- What `parse_enforcement_plane` returns. -/
structure ParsedPlane (Obj : Type) extends EnforcementPlane Obj where
  /-- The merged blocks, with the endpoint contracts as they were. -/
  merged : List (PyVal Obj × PyVal Obj)

/-- What `parse_invariants` returns. -/
structure ParsedInvariants (Obj : Type) extends Invariants Obj where
  agentPriorityMin : PyVal Obj
  agentPriorityMax : PyVal Obj

/-- What `parse_threat_patterns` returns. -/
structure ParsedPatterns (Obj : Type) where
  patterns : List (ThreatPattern Obj)
  detectionDifficultyTiers : PyVal Obj
  insights : List (PyVal Obj)

/-- What `parse_all` returns. -/
structure Parsed (Obj : Type) where
  zones : List (PyVal Obj × Zone)
  assets : List (PyVal Obj × Asset)
  leafs : List (PyVal Obj × Leaf)
  baselines : Baselines Obj
  policyMatrix : List ((PyVal Obj × PyVal Obj) × PyVal Obj)
  sids : List (PyVal Obj × SidDetection)
  killChains : List KillChain
  enforcementPlane : ParsedPlane Obj
  invariants : ParsedInvariants Obj
  threatPatterns : ParsedPatterns Obj
  severityScoring : SeverityRubric Obj
  flowFeatures : FlowFeatureSet Obj

/-- What the graph takes of it. -/
def Parsed.knowledge (kb : Parsed Obj) : Knowledge Obj where
  zones := kb.zones
  assets := kb.assets
  leafs := kb.leafs
  baselines := kb.baselines
  policyMatrix := kb.policyMatrix
  sids := kb.sids
  killChains := kb.killChains
  enforcementPlane := kb.enforcementPlane.toEnforcementPlane
  invariants := kb.invariants.toInvariants

/-- The blocks of `baselines.md` that were found so far. -/
structure BaselineBlocks (Obj : Type) where
  constantsBlock : Option (PyVal Obj)
  anomalousBlock : Option (PyVal Obj)
  patterns : List TrafficPattern

namespace Python

variable (P : Python Obj)

/-! ## Dictionaries of models -/

/-- A model and its key, of a block. -/
def entity {A : Type} (key : String) (make : Args Obj → Option A) (b : PyVal Obj) :
    Option (PyVal Obj × A) := do
  let k ← field key b
  let a ← make (← argsOf b)
  if P.hashable k then return (k, a) else none

/-- The dict of the models of the blocks. -/
def keyed {A : Type} (key : String) (make : Args Obj → Option A) (blocks : List (PyVal Obj)) :
    Option (List (PyVal Obj × A)) := do
  return Dict.ofList P.same (← blocks.mapM (P.entity key make))

/-- `parse_zones`. -/
def parseZones (blocks : List (PyVal Obj)) : Option (List (PyVal Obj × Zone)) :=
  P.keyed "name" P.zone blocks

/-- `Asset(**args)`. -/
def assetOf (args : Args Obj) : Option Asset := do
  P.asset args (← P.models P.service (← args "services"))

/-- `parse_assets`. -/
def parseAssets (blocks : List (PyVal Obj)) : Option (List (PyVal Obj × Asset)) :=
  P.keyed "ip" P.assetOf blocks

/-- `parse_leafs`. -/
def parseLeafs (blocks : List (PyVal Obj)) : Option (List (PyVal Obj × Leaf)) :=
  P.keyed "name" P.leaf blocks

/-- `parse_sids`. -/
def parseSids (blocks : List (PyVal Obj)) : Option (List (PyVal Obj × SidDetection)) :=
  P.keyed "sid" P.sidDetection blocks

/-- `KillChain(**b)`. -/
def killChainOf (b : PyVal Obj) : Option KillChain := do
  let args ← argsOf b
  P.killChain args (← P.models P.killChainStage (← args "stages"))

/-- `parse_kill_chains`. -/
def parseKillChains (blocks : List (PyVal Obj)) : Option (List KillChain) :=
  blocks.mapM P.killChainOf

/-! ## Blocks of several kinds -/

/-- `TrafficPattern(**b)`. -/
def patternOf (b : PyVal Obj) : Option TrafficPattern := do P.trafficPattern (← argsOf b)

/-- One block of `baselines.md`. -/
def baselineBlock (s : BaselineBlocks Obj) (b : PyVal Obj) : Option (BaselineBlocks Obj) :=
  if has "steady_state_flows_per_minute" b then some { s with constantsBlock := some b }
  else if has "anomalous_patterns" b then some { s with anomalousBlock := some b }
  else if has "name" b && has "src_ip" b then
    (P.patternOf b).map fun p => { s with patterns := s.patterns ++ [p] }
  else some s

/-- `parse_baselines`. -/
def parseBaselines (blocks : List (PyVal Obj)) : Option (Baselines Obj) := do
  let s ← blocks.foldlM P.baselineBlock ⟨none, none, []⟩
  let constantsBlock ← s.constantsBlock
  let anomalousBlock ← s.anomalousBlock
  return {
    patterns := s.patterns
    anomalousPatterns := ← P.toList (← field "anomalous_patterns" anomalousBlock)
    steadyStateFlowsPerMinute :=
      ← P.toInt (← field "steady_state_flows_per_minute" constantsBlock)
    mgtAuditAlertRatePerMinute :=
      ← P.toInt (← field "mgt_audit_alert_rate_per_minute" constantsBlock) }

/-- A row of the policy matrix: its zones and its verdict. -/
def ruleOf (row : PyVal Obj) : Option ((PyVal Obj × PyVal Obj) × PyVal Obj) := do
  let src ← field "src_zone" row
  let dst ← field "dst_zone" row
  let verdict ← field "verdict" row
  if P.hashable src && P.hashable dst then return ((src, dst), verdict) else none

/-- `parse_policy_matrix`: the first block with a matrix. -/
def parsePolicyMatrix (blocks : List (PyVal Obj)) :
    Option (List ((PyVal Obj × PyVal Obj) × PyVal Obj)) := do
  let b ← blocks.find? (has "policy_matrix")
  let rows ← P.toList (← field "policy_matrix" b)
  return Dict.ofList P.samePair (← rows.mapM P.ruleOf)

/-- Whether a block is a threat pattern. -/
def isPattern (b : PyVal Obj) : Bool := has "id" b && has "threat_class" b && has "flow_signature" b

/-- `ThreatPattern(**b)`. -/
def threatPatternOf (b : PyVal Obj) : Option (ThreatPattern Obj) := do P.threatPattern (← argsOf b)

/-- One block of `threat-patterns.md`. -/
def patternBlock (s : ParsedPatterns Obj) (b : PyVal Obj) : Option (ParsedPatterns Obj) :=
  if isPattern b then (P.threatPatternOf b).map fun p => { s with patterns := s.patterns ++ [p] }
  else
    match field "detection_difficulty_tiers" b, field "insights" b with
    | some tiers, _ => some { s with detectionDifficultyTiers := tiers }
    | none, some v => (P.toList v).map fun insights => { s with insights }
    | none, none => some s

/-- `parse_threat_patterns`. -/
def parseThreatPatterns (blocks : List (PyVal Obj)) : Option (ParsedPatterns Obj) := do
  let s ← blocks.foldlM P.patternBlock ⟨[], .dict [], []⟩
  if s.patterns = [] then none else return s

/-! ## Merged blocks -/

/-- The blocks in one dict. -/
def merged (blocks : List (PyVal Obj)) : List (PyVal Obj × PyVal Obj) :=
  Dict.ofList P.same (blocks.flatMap updates)

/-- `out.get(name)`. -/
def get (name : String) (out : List (PyVal Obj × PyVal Obj)) : Option (PyVal Obj) :=
  Dict.lookup P.same (.str (u name)) out

/-- A row of the endpoint contracts. -/
def contractOf (row : PyVal Obj) : Option (PyVal Obj × PyVal Obj) := do
  let endpoint ← field "endpoint" row
  let description ← field "description" row
  if P.hashable endpoint then return (endpoint, description) else none

/-- `parse_enforcement_plane`: a key that is missing is an error. -/
def parseEnforcementPlane (blocks : List (PyVal Obj)) : Option (ParsedPlane Obj) := do
  let out := P.merged blocks
  let rows ← P.toList (← P.get "endpoint_contracts" out)
  return {
    endpointContracts := Dict.ofList P.same (← rows.mapM P.contractOf)
    fieldNameMapping := ← P.get "field_name_mapping" out
    criticalGotchas := ← P.get "critical_gotchas" out
    failureModes := ← P.get "failure_modes" out
    rbacContract := ← P.get "rbac_contract" out
    merged := out }

/-- `parse_severity_scoring`: a key that is missing is an error. -/
def parseSeverityScoring (blocks : List (PyVal Obj)) : Option (SeverityRubric Obj) :=
  let merged := P.merged blocks
  P.severityRubric fun name => P.get name merged

/-- `parse_flow_features`. -/
def parseFlowFeatures (blocks : List (PyVal Obj)) : Option (FlowFeatureSet Obj) :=
  let merged := P.merged blocks
  P.flowFeatureSet (named [
    ("features_per_ip_pair", (P.get "features_per_ip_pair" merged).getD (.seq false [])),
    ("detection_window", (P.get "detection_window" merged).getD (.dict [])),
    ("unseen_port_policy", (P.get "policy" merged).getD (.seq false [])),
    ("aggregation_tradeoff", (P.get "aggregation_tradeoff" merged).getD (.dict [])),
    ("feature_to_pattern_map", (P.get "feature_to_pattern_map" merged).getD (.dict []))])

/-- An entry that is never blocked: its address, and why. -/
def neverBlockOf (row : PyVal Obj) : Option (PyVal Obj × PyVal Obj) := do
  let cidr ← field "cidr" row
  if P.hashable cidr then return (cidr, (field "rationale" row).getD (.str [])) else none

/-- `parse_invariants`. -/
def parseInvariants (blocks : List (PyVal Obj)) : Option (ParsedInvariants Obj) := do
  let out := P.merged blocks
  let rows ← P.toList (← P.get "never_block" out)
  let entries ← rows.mapM P.neverBlockOf
  return {
    neverBlockCidrs := entries.map Prod.fst
    neverBlockRationale := Dict.ofList P.same entries
    allowedAgentActions :=
      ← P.toSet ((P.get "allowed_agent_actions" out).getD (.seq false [.str (u "DROP")]))
    protectedCommentPrefixes :=
      ← P.toList ((P.get "protected_comment_prefixes" out).getD (.seq false []))
    agentCommentPrefix := (P.get "agent_comment_prefix" out).getD (.str (u "nos:agent-"))
    agentPriorityMin := (P.get "agent_priority_min" out).getD .none
    agentPriorityMax := (P.get "agent_priority_max" out).getD .none }

/-! ## All files -/

variable (safeLoad : PyStr → Option (PyVal Obj)) (files : Files)

/-- `_yaml_blocks`. -/
def blocksOf (file : File) : Option (List (PyVal Obj)) := do
  (yamlBlocks (← files file)).mapM safeLoad

/-- `parse_all`. -/
def parseAll : Option (Parsed Obj) := do
  return {
    zones := ← P.parseZones (← blocksOf safeLoad files .zones)
    assets := ← P.parseAssets (← blocksOf safeLoad files .assets)
    leafs := ← P.parseLeafs (← blocksOf safeLoad files .leafs)
    baselines := ← P.parseBaselines (← blocksOf safeLoad files .baselines)
    policyMatrix := ← P.parsePolicyMatrix (← blocksOf safeLoad files .policyMatrix)
    sids := ← P.parseSids (← blocksOf safeLoad files .sids)
    killChains := ← P.parseKillChains (← blocksOf safeLoad files .killChains)
    enforcementPlane := ← P.parseEnforcementPlane (← blocksOf safeLoad files .enforcementPlane)
    invariants := ← P.parseInvariants (← blocksOf safeLoad files .invariants)
    threatPatterns := ← P.parseThreatPatterns (← blocksOf safeLoad files .threatPatterns)
    severityScoring := ← P.parseSeverityScoring (← blocksOf safeLoad files .severityScoring)
    flowFeatures := ← P.parseFlowFeatures (← blocksOf safeLoad files .flowFeatures) }

end Python

end ControlPlane.Know
