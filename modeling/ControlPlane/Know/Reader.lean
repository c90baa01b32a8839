import ControlPlane.Know.Models
import ControlPlane.Lib.Traverse

/-!
# Reading the knowledge base from the graph

`storage/neo4j_reader.py`, on the answers of its queries: for each query the rows, or the exception
that it ended with. A row is the properties of its node or the values that the query names. What
the graph holds behind the answers is not modelled.
-/

namespace ControlPlane.Know

open JsonText

variable {Obj : Type}

/-- An exception: a `RuntimeError`, or another one. -/
inductive Failure where
  | runtime
  | other
  deriving DecidableEq

/-- A row of the query for the edges of the kill chains. -/
structure StageRow (Obj : Type) where
  chain : PyVal Obj
  stage : PyVal Obj
  tactic : PyVal Obj
  indicators : PyVal Obj
  fpSources : PyVal Obj
  sid : PyVal Obj

/-- What a query gives. -/
abbrev Answer (R : Type) := Except Failure (List R)

/-- The answers to the queries of `read_all`. -/
structure Answers (Obj : Type) where
  zones : Answer (Args Obj)
  assets : Answer (Args Obj)
  leafs : Answer (Args Obj)
  baselines : Answer (Args Obj)
  baselineConstants : Answer (Args Obj)
  /-- The ends of the `ALLOW` edges. -/
  allow : Answer (PyVal Obj × PyVal Obj)
  /-- The ends of the `DENY` edges. -/
  deny : Answer (PyVal Obj × PyVal Obj)
  sids : Answer (Args Obj)
  killChains : Answer (Args Obj)
  expectedIn : Answer (StageRow Obj)
  apiEndpoints : Answer (Args Obj)
  /-- In the order of `idx`. -/
  fieldMappings : Answer (Args Obj)
  /-- In the order of `idx`. -/
  gotchas : Answer (Args Obj)
  failureModes : Answer (Args Obj)
  rbacContract : Answer (Args Obj)
  neverBlock : Answer (Args Obj)
  agentInvariants : Answer (Args Obj)

/-- What raises no `RuntimeError`. -/
def orRaise {A : Type} : Option A → Except Failure A
  | some a => .ok a
  | none => .error .other

/-- `row[name]`. -/
def Args.need (row : Args Obj) (name : String) : Except Failure (PyVal Obj) := orRaise (row name)

/-- `row.get(name, default)`. -/
def Args.getD (row : Args Obj) (name : String) (default : PyVal Obj) : PyVal Obj :=
  (row name).getD default

/-- The values with another one under a name. -/
def Args.set (row : Args Obj) (name : String) (v : PyVal Obj) : Args Obj :=
  fun n => if n = name then some v else row n

/-- An item of a dict. -/
def item (name : String) (v : PyVal Obj) : PyKey Obj × PyVal Obj := (.str (u name), v)

/-- A value that is false as a condition. -/
def falsy : PyVal Obj → Bool
  | .none => true
  | .bool b => !b
  | .int n => n = 0
  | .float (.fin t) => (t.whole ++ t.frac).all (· = 0)
  | .str s => s.isEmpty
  | .seq _ xs => xs.isEmpty
  | .dict items => items.isEmpty
  | _ => false

namespace Python

variable (P : Python Obj)

/-- `out[key] = value`. -/
def setKey {V : Type} (key : PyVal Obj) (value : V) (out : List (PyVal Obj × V)) :
    Except Failure (List (PyVal Obj × V)) :=
  if P.hashable key then .ok (Dict.set P.same key value out) else .error .other

/-- `list(row.get(name, []))` in the place of the value of the name. -/
def listed (row : Args Obj) (name : String) : Except Failure (Args Obj) := do
  let xs ← orRaise (P.toList (row.getD name (.seq false [])))
  return row.set name (.seq false xs)

/-- A dict of models, by the value of their rows under a name. -/
def readDict {A : Type} (key : String) (make : Args Obj → Except Failure A)
    (rows : List (Args Obj)) : Except Failure (List (PyVal Obj × A)) :=
  rows.foldlM (fun out row => do
    let a ← make row
    P.setKey (← row.need key) a out) []

/-- `read_zones`. -/
def readZones (q : Answers Obj) : Except Failure (List (PyVal Obj × Zone)) := do
  P.readDict "name" (fun z => orRaise (P.zone z)) (← q.zones)

/-- `json.loads(v)`. -/
def loadsOf : PyVal Obj → Option (PyVal Obj)
  | .str s => (P.loads s).toOption
  | _ => none

/-- The asset of a row, whose services are a JSON text. -/
def assetOfRow (a : Args Obj) : Except Failure Asset := do
  let loaded ← orRaise (P.loadsOf (a.getD "services_json" (.str (u "[]"))))
  let services ← orRaise (do (← P.toList loaded).mapM fun s => do P.service (← argsOf s))
  let a ← P.listed a "expected_inbound_sources"
  let a ← P.listed a "expected_outbound_destinations"
  orRaise (P.asset a services)

/-- `read_assets`. -/
def readAssets (q : Answers Obj) : Except Failure (List (PyVal Obj × Asset)) := do
  P.readDict "ip" P.assetOfRow (← q.assets)

/-- `read_leafs`. -/
def readLeafs (q : Answers Obj) : Except Failure (List (PyVal Obj × Leaf)) := do
  P.readDict "name" (fun l => do orRaise (P.leaf (← P.listed l "zones"))) (← q.leafs)

/-- `read_baselines`: the patterns that do not come from the management zone first. -/
def readBaselines (q : Answers Obj) : Except Failure (Baselines Obj) := do
  let patterns ← (← q.baselines).mapM fun b => orRaise (P.trafficPattern b)
  let appFlows := patterns.filter fun p => p.srcZone ≠ u "MGT"
  let mgtFlows := patterns.filter fun p => p.srcZone = u "MGT"
  match ← q.baselineConstants with
  | [] => .error .runtime
  | m :: _ => do
    let anomalousPatterns ← orRaise (P.toList (m.getD "anomalous_patterns" (.seq false [])))
    let steady ← orRaise (P.toInt (← m.need "steady_state_flows_per_minute"))
    let audit ← orRaise (P.toInt (← m.need "mgt_audit_alert_rate_per_minute"))
    return {
      patterns := appFlows ++ mgtFlows
      anomalousPatterns
      steadyStateFlowsPerMinute := steady
      mgtAuditAlertRatePerMinute := audit }

/-- Whether two pairs are one key. -/
def samePair (p q : PyVal Obj × PyVal Obj) : Bool := P.same p.1 q.1 && P.same p.2 q.2

/-- The rows of a verdict, set in the matrix. -/
def setVerdict (verdict : String) (rows : List (PyVal Obj × PyVal Obj))
    (out : List ((PyVal Obj × PyVal Obj) × PyVal Obj)) :
    Except Failure (List ((PyVal Obj × PyVal Obj) × PyVal Obj)) :=
  rows.foldlM (fun out r =>
    if P.hashable r.1 && P.hashable r.2 then
      .ok (Dict.set P.samePair r (.str (u verdict)) out)
    else .error .other) out

/-- `read_policy_matrix`. -/
def readPolicyMatrix (q : Answers Obj) :
    Except Failure (List ((PyVal Obj × PyVal Obj) × PyVal Obj)) := do
  let out ← P.setVerdict "ALLOW" (← q.allow) []
  P.setVerdict "DENY" (← q.deny) out

/-- `read_sids`. -/
def readSids (q : Answers Obj) : Except Failure (List (PyVal Obj × SidDetection)) := do
  P.readDict "sid" (fun s => do orRaise (P.sidDetection (← P.listed s "false_positive_scenarios")))
    (← q.sids)

/-- The stage of an edge, without its signals. -/
def stageOfRow (n : ℤ) (er : StageRow Obj) : Except Failure KillChainStage := do
  let sources ← if falsy er.fpSources then pure [] else orRaise (P.toList er.fpSources)
  let tactic ← orRaise (P.asStr er.tactic)
  let indicators ← orRaise (P.asStr er.indicators)
  let sources ← orRaise (sources.mapM P.asStr)
  return {
    stage := n
    tactic
    expectedSignals := []
    productionIndicators := indicators
    falsePositiveSources := sources }

/-- The stages of one chain with an edge more. -/
def addSignal (n : ℤ) (er : StageRow Obj) (stages : List (ℤ × KillChainStage)) :
    Except Failure (List (ℤ × KillChainStage)) := do
  let st ← match Dict.lookup (· == ·) n stages with
    | some st => pure st
    | none => P.stageOfRow n er
  let sid ← orRaise (P.toInt er.sid)
  return Dict.set (· == ·) n { st with expectedSignals := st.expectedSignals ++ [sid] } stages

/-- `chain_stages`. -/
def chainStages (rows : List (StageRow Obj)) :
    Except Failure (List (PyVal Obj × List (ℤ × KillChainStage))) :=
  rows.foldlM (fun out er => do
    let n ← orRaise (P.toInt er.stage)
    let stages ← P.addSignal n er ((Dict.lookup P.same er.chain out).getD [])
    P.setKey er.chain stages out) []

/-- The stages in the order of their numbers, each with its signals in order. -/
def sortStages (stages : List (ℤ × KillChainStage)) : List KillChainStage :=
  (stages.insertionSort fun s t => s.1 ≤ t.1).map fun s =>
    { s.2 with expectedSignals := s.2.expectedSignals.insertionSort (· ≤ ·) }

/-- The kill chain of a row. -/
def killChainOfRow (stages : List (PyVal Obj × List (ℤ × KillChainStage))) (k : Args Obj) :
    Except Failure KillChain := do
  let name ← k.need "name"
  if P.hashable name then
    let args := (((k.set "typical_dwell_between_stages" (← k.need "typical_dwell")).set
      "recommended_intervention_point" (← k.need "recommended_intervention")))
    orRaise (P.killChain args (sortStages ((Dict.lookup P.same name stages).getD [])))
  else .error .other

/-- `read_kill_chains`. -/
def readKillChains (q : Answers Obj) : Except Failure (List KillChain) := do
  let rows ← q.killChains
  let stages ← P.chainStages (← q.expectedIn)
  rows.mapM (P.killChainOfRow stages)

/-- The dict of these names of a row. -/
def pick (names : List String) (row : Args Obj) : Except Failure (PyVal Obj) := do
  let items ← names.mapM fun name => do return item name (← row.need name)
  return .dict items

/-- `read_enforcement_plane`. -/
def readEnforcementPlane (q : Answers Obj) : Except Failure (EnforcementPlane Obj) := do
  let contracts ← P.readDict "endpoint" (fun e => e.need "description") (← q.apiEndpoints)
  let mapping ← (← q.fieldMappings).mapM (pick ["rest_request", "yang_gnmi", "configdb"])
  let gotchas ← (← q.gotchas).mapM fun g => g.need "text"
  let failures ← (← q.failureModes).mapM
    (pick ["name", "trigger", "rest_status", "body_signature", "state", "agent_action"])
  match ← q.rbacContract with
  | [] => .error .runtime
  | r :: _ => do
    return {
      endpointContracts := contracts
      fieldNameMapping := .seq false mapping
      criticalGotchas := .seq false gotchas
      failureModes := .seq false failures
      rbacContract := ← r.need "text" }

/-- `frozenset(v)`, by its items. -/
def toSet (v : PyVal Obj) : Option (List (PyVal Obj)) := do
  let xs ← P.toList v
  if xs.all P.hashable then return xs else none

/-- `read_invariants`. -/
def readInvariants (q : Answers Obj) : Except Failure (Invariants Obj) := do
  let (cidrs, rationale) ← (← q.neverBlock).foldlM (fun (cidrs, rationale) n => do
    let cidr ← n.need "cidr"
    let rationale ← P.setKey cidr (n.getD "rationale" (.str [])) rationale
    return (cidrs ++ [cidr], rationale)) ([], [])
  match ← q.agentInvariants with
  | [] => .error .runtime
  | m :: _ => do
    return {
      neverBlockCidrs := cidrs
      neverBlockRationale := rationale
      allowedAgentActions :=
        ← orRaise (P.toSet (m.getD "allowed_agent_actions" (.seq false [.str (u "DROP")])))
      protectedCommentPrefixes :=
        ← orRaise (P.toList (m.getD "protected_comment_prefixes" (.seq false [])))
      agentCommentPrefix := m.getD "agent_comment_prefix" (.str (u "nos:agent-")) }

/-- `read_all`. -/
def readAll (q : Answers Obj) : Except Failure (Knowledge Obj) := do
  return {
    zones := ← P.readZones q
    assets := ← P.readAssets q
    leafs := ← P.readLeafs q
    baselines := ← P.readBaselines q
    policyMatrix := ← P.readPolicyMatrix q
    sids := ← P.readSids q
    killChains := ← P.readKillChains q
    enforcementPlane := ← P.readEnforcementPlane q
    invariants := ← P.readInvariants q }

end Python

end ControlPlane.Know
