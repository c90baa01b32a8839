import ControlPlane.Know.Parser
import ControlPlane.Lib.GraphPaths

/-!
# Writing the knowledge base into the graph

`Neo4jKG.reload_from_models` of `storage/neo4j_kg.py`: the nodes that an earlier reload has written
are deleted, and the statements for the knowledge base are run one after the other. The driver and
the database are parameters (`Neo4j`). The rows that the queries of the reader then give are those
of the graph (`AnswersOf`), in any order where a query asks for none.
-/

namespace ControlPlane.Know

open JsonText PropertyGraph

variable {Obj : Type}

/-! ## The database -/

/-- What the reload and the reader use of Python, of the driver and of the database. -/
structure Neo4j (Obj : Type) extends Python Obj where
  /-- The value that a property has after it was set to a parameter, null for none, or `none` when
  the statement fails. -/
  store : PyVal Obj → Option (PyVal Obj)
  /-- `v = w` is true in Cypher, for the value of a property and a parameter. -/
  equal : PyVal Obj → PyVal Obj → Bool
  /-- `sorted(xs)` for a set, by its items. -/
  sortedItems : List (PyVal Obj) → Option (List (PyVal Obj))
  store_scalar : ∀ {v w}, (∀ frozen xs, v ≠ .seq frozen xs) → store v = some w → w = v
  store_seq : ∀ {frozen xs w}, store (.seq frozen xs) = some w → ∃ ys, w = .seq false ys
  store_strs : ∀ {ss : List PyStr} {w}, store (.seq false (ss.map .str)) = some w →
    w = .seq false (ss.map .str)
  store_stored : ∀ {v w}, store v = some w → store w = some w
  equal_str : ∀ s t, equal (.str s) (.str t) = true ↔ s = t
  equal_int : ∀ m n, equal (.int m) (.int n) = true ↔ m = n
  equal_seq : ∀ {v xs}, equal v (.seq false xs) = true → ∃ ys, v = .seq false ys
  same_of_equal : ∀ {v w}, equal v w = true → same v w = true
  toInt_of_equal : ∀ {v n}, equal v (.int n) = true → toInt v = some n
  hashable_list : ∀ xs, hashable (.seq false xs) = false
  asStr_same : ∀ {v w s t}, same v w = true → asStr v = some s → asStr w = some t → s = t
  asInt_same : ∀ {v w m n}, same v w = true → asInt v = some m → asInt w = some n → m = n
  asStr_seq : ∀ frozen xs, asStr (.seq frozen xs) = none
  asInt_seq : ∀ frozen xs, asInt (.seq frozen xs) = none
  sortedItems_same : ∀ {xs ys}, sortedItems xs = some ys →
    ∀ v, (∃ y ∈ ys, same y v = true) ↔ ∃ x ∈ xs, same x v = true
  dumps_deep : 2 ≤ dumpsDepth
  loads_deep : 2 ≤ loadsDepth

/-- What ends a reload. -/
inductive Fault where
  /-- A statement fails. -/
  | statement
  /-- An exception of Python. -/
  | python
  deriving DecidableEq

/-- Statements of a reload. -/
abbrev Script (Obj : Type) := List (Statement (PyVal Obj))

/-! ## Values -/

/-- `.value` of a `TrustLevel`. -/
def TrustLevel.value : TrustLevel → PyStr
  | untrusted => u "untrusted"
  | trustedInternal => u "trusted-internal"
  | crownJewel => u "crown-jewel"
  | privileged => u "privileged"

/-- `.value` of a `Criticality` or a `FlowCriticality`. -/
def Criticality.value : Criticality → PyStr
  | critical => u "critical"
  | high => u "high"
  | medium => u "medium"
  | low => u "low"

/-- `.value` of a `DataClassification`. -/
def DataClassification.value : DataClassification → PyStr
  | pub => u "public"
  | internal => u "internal"
  | confidential => u "confidential"
  | restricted => u "restricted"

theorem memberOf_trustLevel (t : TrustLevel) :
    memberOf TRUST_LEVELS (.str t.value : PyVal Obj) = some t := by
  cases t <;> rfl

theorem memberOf_criticality (c : Criticality) :
    memberOf CRITICALITIES (.str c.value : PyVal Obj) = some c := by
  cases c <;> rfl

theorem memberOf_dataClassification (d : DataClassification) :
    memberOf DATA_CLASSIFICATIONS (.str d.value : PyVal Obj) = some d := by
  cases d <;> rfl

/-- A list of texts. -/
def texts (ss : List PyStr) : PyVal Obj := .seq false (ss.map .str)

/-- `s.model_dump()` of a service. -/
def Service.modelDump (s : Service) : PyVal Obj :=
  .dict [item "port" (.int s.port), item "proto" (.str s.proto), item "name" (.str s.name),
    item "facing" (.str s.facing), item "purpose" (.str s.purpose)]

/-- What raises an exception of Python. -/
def raise {A : Type} : Option A → Except Fault A
  | some a => .ok a
  | none => .error .python

/-- A value is null. -/
def isNull : PyVal Obj → Bool
  | .none => true
  | _ => false

/-- The mark of what a reload has written. -/
def KG_MANAGED : String × Option (PyVal Obj) := ("kg_managed", some (.bool true))

/-- Parameters of a statement, by the properties that are set to them. -/
abbrev Params (Obj : Type) := List (String × PyVal Obj)

namespace Neo4j

variable (N : Neo4j Obj)

/-- The value of a property that is set to a parameter. -/
def given (v : PyVal Obj) : Option (PyVal Obj) := (N.store v).filter fun w => !isNull w

/-- A parameter, as a property has it. -/
def stored (v : PyVal Obj) : PyVal Obj := (N.store v).getD v

/-- The properties that are set to parameters. -/
def setsOf (params : Params Obj) : Sets (PyVal Obj) :=
  KG_MANAGED :: params.map fun p => (p.1, N.given p.2)

/-- All parameters can be stored. -/
def storable (params : Params Obj) : Bool := params.all fun p => (N.store p.2).isSome

/-- `MERGE (n:label {key: $value}) SET n.kg_managed = true, …`. -/
def nodeStatement (label key : String) (value : PyVal Obj) (params : Params Obj) :
    Statement (PyVal Obj) :=
  .mergeNode ⟨label, key, N.stored value⟩ (N.setsOf params)

/-- Such a statement, which fails when the value is null or when a parameter cannot be stored. -/
def node (label key : String) (value : PyVal Obj) (params : Params Obj) :
    Except Fault (Statement (PyVal Obj)) :=
  if !isNull value && (N.store value).isSome && N.storable params then
    .ok (N.nodeStatement label key value params)
  else .error .statement

/-- `MATCH (s:…), (t:…) MERGE (s)-[r:type {…}]->(t) SET r.kg_managed = true, …`. -/
def edgeStatement (s t : Pattern (PyVal Obj)) (type : String) (keys params : Params Obj) :
    Statement (PyVal Obj) :=
  .mergeEdge s t type keys (N.setsOf params)

/-- Such a statement, which fails when a parameter cannot be stored. -/
def edge (s t : Pattern (PyVal Obj)) (type : String) (keys params : Params Obj) :
    Except Fault (Statement (PyVal Obj)) :=
  if N.storable (keys ++ params) then .ok (N.edgeStatement s t type keys params)
  else .error .statement

/-! ## The statements -/

/-- What is set of a zone. -/
def zoneParams (z : Zone) : Params Obj := [
  ("cidr", .str z.cidr), ("leaf", .str z.leaf), ("vlan", .int z.vlan),
  ("svi_gateway", .str z.sviGateway), ("trust_level", .str z.trustLevel.value),
  ("criticality", .str z.criticality.value), ("purpose", .str z.purpose)]

/-- The zones. -/
def zoneStatements (zones : List (PyVal Obj × Zone)) : Except Fault (Script Obj) :=
  zones.mapM fun i => N.node "Zone" "name" i.1 (zoneParams i.2)

/-- What is set of a leaf. -/
def leafParams (l : Leaf) : Params Obj :=
  [("mgmt_ip", .str l.mgmtIp), ("role", .str l.role), ("zones", texts l.zones)]

/-- A leaf, with the edges to its zones. -/
def leafStatement (i : PyVal Obj × Leaf) : Except Fault (Script Obj) := do
  let node ← N.node "Leaf" "name" i.1 (leafParams i.2)
  return node :: i.2.zones.map fun zone =>
    N.edgeStatement ⟨"Leaf", "name", i.1⟩ ⟨"Zone", "name", .str zone⟩ "ENFORCES" [] []

/-- The leafs. -/
def leafStatements (leafs : List (PyVal Obj × Leaf)) : Except Fault (Script Obj) := do
  return (← leafs.mapM N.leafStatement).flatten

/-- What is set of an asset, whose services are a JSON text. -/
def assetParams (a : Asset) (services : PyStr) : Params Obj := [
  ("hostname", .str a.hostname), ("tier", .str a.tier), ("criticality", .str a.criticality.value),
  ("data_classification", .str a.dataClassification.value), ("role", .str a.role),
  ("owner_team", .str a.ownerTeam), ("if_blocked_impact", .str a.ifBlockedImpact),
  ("if_compromised_impact", .str a.ifCompromisedImpact),
  ("expected_inbound_sources", texts a.expectedInboundSources),
  ("expected_outbound_destinations", texts a.expectedOutboundDestinations),
  ("services_json", .str services), ("zone", .str a.zone)]

/-- `[s.model_dump() for s in asset.services]`. -/
def servicesOf (a : Asset) : PyVal Obj := .seq false (a.services.map Service.modelDump)

/-- An asset, with the edge to its zone. -/
def assetStatement (i : PyVal Obj × Asset) : Except Fault (Script Obj) := do
  let services ← raise (N.dumps N.plain (servicesOf i.2)).toOption
  let node ← N.node "Asset" "ip" i.1 (assetParams i.2 services)
  return [node, N.edgeStatement ⟨"Asset", "ip", i.1⟩ ⟨"Zone", "name", .str i.2.zone⟩ "MEMBER_OF"
    [] []]

/-- The assets. -/
def assetStatements (assets : List (PyVal Obj × Asset)) : Except Fault (Script Obj) := do
  return (← assets.mapM N.assetStatement).flatten

/-- `verdict == "ALLOW"`. -/
def isAllow : PyVal Obj → Bool
  | .str s => s = u "ALLOW"
  | _ => false

/-- The type of the edge for a verdict. -/
def relOf (verdict : PyVal Obj) : String := if isAllow verdict then "ALLOW" else "DENY"

/-- The policy matrix. -/
def policyStatements (matrix : List ((PyVal Obj × PyVal Obj) × PyVal Obj)) :
    Script Obj :=
  matrix.map fun i =>
    N.edgeStatement ⟨"Zone", "name", i.1.1⟩ ⟨"Zone", "name", i.1.2⟩ (relOf i.2) [] []

/-- What is set of a signature. -/
def sidParams (d : SidDetection) : Params Obj := [
  ("severity_p_level", .int d.severityPLevel), ("signature_msg", .str d.signatureMsg),
  ("production_description", .str d.productionDescription), ("mitre_tactic", .str d.mitreTactic),
  ("mitre_technique", .str d.mitreTechnique), ("detection_logic", .str d.detectionLogic),
  ("uses_flags_s_workaround", .bool d.usesFlagsSWorkaround),
  ("recommended_response", .str d.recommendedResponse),
  ("default_ttl_seconds", .int d.defaultTtlSeconds),
  ("false_positive_likelihood", .str d.falsePositiveLikelihood),
  ("false_positive_scenarios", texts d.falsePositiveScenarios)]

/-- The signatures. -/
def sidStatements (sids : List (PyVal Obj × SidDetection)) : Except Fault (Script Obj) :=
  sids.mapM fun i => N.node "Sid" "sid" i.1 (sidParams i.2)

/-- What is set of a kill chain. -/
def chainParams (c : KillChain) : Params Obj := [
  ("production_description", .str c.productionDescription),
  ("typical_dwell", .str c.typicalDwellBetweenStages),
  ("recommended_intervention", .str c.recommendedInterventionPoint),
  ("containment_strategy", .str c.containmentStrategy), ("stage_count", .int c.stages.length)]

/-- What is set of a stage, on the edge of each of its signals. -/
def stageParams (s : KillChainStage) : Params Obj := [
  ("tactic", .str s.tactic), ("indicators", .str s.productionIndicators),
  ("false_positive_sources", texts s.falsePositiveSources)]

/-- A signal of a stage of a kill chain. -/
def signalStatement (c : KillChain) (s : KillChainStage) (sid : ℤ) :
    Except Fault (Statement (PyVal Obj)) :=
  N.edge ⟨"Sid", "sid", .int sid⟩ ⟨"KillChain", "name", .str c.name⟩ "EXPECTED_IN"
    [("stage", .int s.stage)] (stageParams s)

/-- A kill chain, with the edges of its stages. -/
def chainStatement (c : KillChain) : Except Fault (Script Obj) := do
  let node ← N.node "KillChain" "name" (.str c.name) (chainParams c)
  let stages ← c.stages.mapM fun s => s.expectedSignals.mapM (N.signalStatement c s)
  return node :: stages.flatten

/-- The kill chains. -/
def chainStatements (chains : List KillChain) : Except Fault (Script Obj) := do
  return (← chains.mapM N.chainStatement).flatten

/-- What is set of a baseline. -/
def patternParams (p : TrafficPattern) : Params Obj := [
  ("src_zone", .str p.srcZone), ("src_ip", .str p.srcIp), ("dst_zone", .str p.dstZone),
  ("dst_ip", .str p.dstIp), ("dst_port", .int p.dstPort), ("proto", .str p.proto),
  ("cadence", .str p.cadence), ("expected_volume_per_hour", .int p.expectedVolumePerHour),
  ("burst_anomaly_threshold", .str p.burstAnomalyThreshold),
  ("criticality_to_business", .str p.criticalityToBusiness.value),
  ("production_description", .str p.productionDescription), ("if_disrupted", .str p.ifDisrupted)]

/-- The baselines. -/
def patternStatements (patterns : List TrafficPattern) : Except Fault (Script Obj) :=
  patterns.mapM fun p => N.node "Baseline" "name" (.str p.name) (patternParams p)

/-- The constants of the baselines. -/
def constantsStatements (b : Baselines Obj) : Except Fault (Script Obj) := do
  let node ← N.node "KnowledgeMeta" "key" (.str (u "baseline_constants")) [
    ("steady_state_flows_per_minute", .int b.steadyStateFlowsPerMinute),
    ("mgt_audit_alert_rate_per_minute", .int b.mgtAuditAlertRatePerMinute),
    ("anomalous_patterns", .seq false b.anomalousPatterns)]
  return [node]

/-- The contracts of the endpoints. -/
def contractStatements (contracts : List (PyVal Obj × PyVal Obj)) : Except Fault (Script Obj) :=
  contracts.mapM fun i => N.node "ApiEndpoint" "endpoint" i.1 [("description", i.2)]

/-- The gotchas, by their places. -/
def gotchaStatements (gotchas : PyVal Obj) : Except Fault (Script Obj) := do
  let xs ← raise (N.toList gotchas)
  xs.zipIdx.mapM fun x => N.node "Gotcha" "idx" (.int x.2) [("text", x.1)]

/-- `row[name]` for some names. -/
def fieldsOf (names : List String) (row : PyVal Obj) : Except Fault (Params Obj) :=
  names.mapM fun name => do return (name, ← raise (field name row))

/-- The names of a field mapping. -/
def MAPPING_FIELDS : List String := ["rest_request", "yang_gnmi", "configdb"]

/-- The field mappings, by their places. -/
def mappingStatements (mappings : PyVal Obj) : Except Fault (Script Obj) := do
  let xs ← raise (N.toList mappings)
  xs.zipIdx.mapM fun x => do
    N.node "FieldMapping" "idx" (.int x.2) (← fieldsOf MAPPING_FIELDS x.1)

/-- The names of a failure mode, behind its own. -/
def FAILURE_FIELDS : List String :=
  ["trigger", "rest_status", "body_signature", "state", "agent_action"]

/-- The failure modes, by their names. -/
def failureStatements (failures : PyVal Obj) : Except Fault (Script Obj) := do
  let xs ← raise (N.toList failures)
  xs.mapM fun fm => do
    let name ← raise (field "name" fm)
    N.node "FailureMode" "name" name (← fieldsOf FAILURE_FIELDS fm)

/-- The RBAC contract. -/
def rbacStatements (text : PyVal Obj) : Except Fault (Script Obj) := do
  return [← N.node "KnowledgeMeta" "key" (.str (u "rbac_contract")) [("text", text)]]

/-- `inv["never_block_rationale"].get(cidr, "")`. -/
def rationaleOf (inv : Invariants Obj) (cidr : PyVal Obj) : PyVal Obj :=
  (Dict.lookup N.same cidr inv.neverBlockRationale).getD (.str [])

/-- What is never blocked. -/
def neverBlockStatements (inv : Invariants Obj) : Except Fault (Script Obj) :=
  inv.neverBlockCidrs.mapM fun cidr =>
    N.node "NeverBlockEntry" "cidr" cidr [("rationale", N.rationaleOf inv cidr)]

/-- The other invariants. -/
def invariantStatements (inv : Invariants Obj) : Except Fault (Script Obj) := do
  let actions ← raise (N.sortedItems inv.allowedAgentActions)
  return [← N.node "KnowledgeMeta" "key" (.str (u "agent_invariants")) [
    ("allowed_agent_actions", .seq false actions),
    ("protected_comment_prefixes", .seq false inv.protectedCommentPrefixes),
    ("agent_comment_prefix", inv.agentCommentPrefix)]]

/-- The statements for a knowledge base, behind the one that deletes. -/
def statements (kb : Knowledge Obj) : Except Fault (Script Obj) := do
  let zones ← N.zoneStatements kb.zones
  let leafs ← N.leafStatements kb.leafs
  let assets ← N.assetStatements kb.assets
  let sids ← N.sidStatements kb.sids
  let chains ← N.chainStatements kb.killChains
  let patterns ← N.patternStatements kb.baselines.patterns
  let constants ← N.constantsStatements kb.baselines
  let contracts ← N.contractStatements kb.enforcementPlane.endpointContracts
  let gotchas ← N.gotchaStatements kb.enforcementPlane.criticalGotchas
  let mappings ← N.mappingStatements kb.enforcementPlane.fieldNameMapping
  let failures ← N.failureStatements kb.enforcementPlane.failureModes
  let rbac ← N.rbacStatements kb.enforcementPlane.rbacContract
  let neverBlock ← N.neverBlockStatements kb.invariants
  let invariants ← N.invariantStatements kb.invariants
  return [zones, leafs, assets, N.policyStatements kb.policyMatrix, sids, chains, patterns,
    constants, contracts, gotchas, mappings, failures, rbac, neverBlock, invariants].flatten

/-! ## The reload -/

/-- What a reload counts. -/
structure Counts where
  nodes : ℕ
  edges : ℕ

/-- The counts of the statements that were run. -/
def Counts.of (ss : Script Obj) : Counts where
  nodes := ss.countP fun
    | .mergeNode _ _ => true
    | .mergeEdge _ _ _ _ _ => false
  edges := ss.countP fun
    | .mergeNode _ _ => false
    | .mergeEdge _ _ _ _ _ => true

/-- `kg_managed = true`. -/
def managed (p : Props (PyVal Obj)) : Bool :=
  match p "kg_managed" with
  | some (.bool b) => b
  | _ => false

/-- `reload_from_models`, with the knowledge base that is parsed: the graph that it leaves and the
counts that it returns, or what ends it. -/
def reloadFromModels (kb : Knowledge Obj) (g : Graph (PyVal Obj)) :
    Except Fault (Graph (PyVal Obj) × Counts) := do
  let ss ← N.statements kb
  return (run N.equal ss (g.detachDelete fun n => managed n.props), Counts.of ss)

/-! ## The answers of the queries -/

/-- `MATCH (n:label) WHERE n.kg_managed = true RETURN n`. -/
def managedRows (g : Graph (PyVal Obj)) (label : String) : List (Props (PyVal Obj)) :=
  (g.rows label).filter managed

/-- `MATCH (m:KnowledgeMeta {key: …}) RETURN m`. -/
def metaRows (g : Graph (PyVal Obj)) (key : String) : List (Props (PyVal Obj)) :=
  (g.rows "KnowledgeMeta").filter fun p => p.has N.equal "key" (.str (u key))

/-- `MATCH (s:source)-[r:type]->(t:target) WHERE r.kg_managed = true`. -/
def managedPaths (g : Graph (PyVal Obj)) (source type target : String) :
    List (Props (PyVal Obj) × Props (PyVal Obj) × Props (PyVal Obj)) :=
  (g.paths source type target).filter fun p => managed p.2.1

/-- `n.name`, which is null when the node has no such property. -/
def propOf (p : Props (PyVal Obj)) (name : String) : PyVal Obj := (p name).getD .none

/-- `RETURN s.name AS src, d.name AS dst`. -/
def endsOf (p : Props (PyVal Obj) × Props (PyVal Obj) × Props (PyVal Obj)) :
    PyVal Obj × PyVal Obj := (propOf p.1 "name", propOf p.2.2 "name")

/-- The row of an edge of a kill chain. -/
def stageRowOf (p : Props (PyVal Obj) × Props (PyVal Obj) × Props (PyVal Obj)) : StageRow Obj where
  chain := propOf p.2.2 "name"
  stage := propOf p.2.1 "stage"
  tactic := propOf p.2.1 "tactic"
  indicators := propOf p.2.1 "indicators"
  fpSources := propOf p.2.1 "false_positive_sources"
  sid := propOf p.1 "sid"

end Neo4j

/-- A query gives the rows in some order. -/
def Gives {R : Type} (a : Answer R) (rows : List R) : Prop := ∃ l, a = .ok l ∧ l.Perm rows

/-- A query gives the rows in the order of their `idx`. -/
def GivesByIdx (a : Answer (Args Obj)) (rows : List (Args Obj)) : Prop :=
  ∃ l, a = .ok l ∧ l.Perm rows ∧
    l.Pairwise fun p q => ∀ m n, p "idx" = some (.int m) → q "idx" = some (.int n) → m ≤ n

open Neo4j in
/-- What the queries of the reader answer on a graph. -/
structure Neo4j.AnswersOf (N : Neo4j Obj) (g : Graph (PyVal Obj)) (q : Answers Obj) : Prop where
  zones : Gives q.zones (managedRows g "Zone")
  assets : Gives q.assets (managedRows g "Asset")
  leafs : Gives q.leafs (managedRows g "Leaf")
  baselines : Gives q.baselines (managedRows g "Baseline")
  baselineConstants : Gives q.baselineConstants (N.metaRows g "baseline_constants")
  allow : Gives q.allow ((managedPaths g "Zone" "ALLOW" "Zone").map endsOf)
  deny : Gives q.deny ((managedPaths g "Zone" "DENY" "Zone").map endsOf)
  sids : Gives q.sids (managedRows g "Sid")
  killChains : Gives q.killChains (managedRows g "KillChain")
  expectedIn : Gives q.expectedIn ((managedPaths g "Sid" "EXPECTED_IN" "KillChain").map stageRowOf)
  apiEndpoints : Gives q.apiEndpoints (managedRows g "ApiEndpoint")
  fieldMappings : GivesByIdx q.fieldMappings (managedRows g "FieldMapping")
  gotchas : GivesByIdx q.gotchas (managedRows g "Gotcha")
  failureModes : Gives q.failureModes (managedRows g "FailureMode")
  rbacContract : Gives q.rbacContract (N.metaRows g "rbac_contract")
  neverBlock : Gives q.neverBlock (managedRows g "NeverBlockEntry")
  agentInvariants : Gives q.agentInvariants (N.metaRows g "agent_invariants")

end ControlPlane.Know
