import ControlPlane.Know.Reader
import Mathlib.Data.List.ReduceOption

/-!
# The hot swap

What `lifespan` of `main.py` does with the tables of the core modules when the graph is read at
start-up. They are cleared and filled again one after the other, in one `try` block, and two of the
values that the graph may hold fail on the way: the properties of a failure mode and the text of
the RBAC contract, when they are no texts. The tables before this point are then the new ones, and
those from there on are the old ones (`swapTables`). `allOrNothing_iff` says when that is no
difference.
-/

namespace ControlPlane.Know

open JsonText

variable {Obj : Type}

/-- The tables of the core modules, in the order in which they are swapped. -/
structure Tables (Obj : Type) where
  /-- `ZONES`. -/
  zones : List (PyVal Obj × Zone)
  /-- `ASSETS`. -/
  assets : List (PyVal Obj × Asset)
  /-- `LEAFS`. -/
  leafs : List (PyVal Obj × Leaf)
  /-- `ALL_BASELINES`. -/
  allBaselines : List TrafficPattern
  /-- `APPLICATION_FLOWS`. -/
  applicationFlows : List TrafficPattern
  /-- `MANAGEMENT_FLOWS`. -/
  managementFlows : List TrafficPattern
  /-- `ANOMALOUS_PATTERNS`. -/
  anomalousPatterns : List (PyVal Obj)
  /-- `STEADY_STATE_FLOWS_PER_MINUTE`. -/
  steadyStateFlowsPerMinute : ℤ
  /-- `MGT_AUDIT_ALERT_RATE_PER_MINUTE`. -/
  mgtAuditAlertRatePerMinute : ℤ
  /-- `SID_DETECTIONS`. -/
  sidDetections : List (PyVal Obj × SidDetection)
  /-- `KILL_CHAINS`. -/
  killChains : List KillChain
  /-- `POLICY_MATRIX`. -/
  policyMatrix : List ((PyVal Obj × PyVal Obj) × PyVal Obj)
  /-- `ENDPOINT_CONTRACTS`. -/
  endpointContracts : List (PyVal Obj × PyVal Obj)
  /-- `FIELD_NAME_MAPPING`. -/
  fieldNameMapping : List (PyVal Obj)
  /-- `CRITICAL_GOTCHAS`. -/
  criticalGotchas : List (PyVal Obj)
  /-- `FAILURE_MODES`. -/
  failureModes : List FailureMode
  /-- `RBAC_CONTRACT`. -/
  rbacContract : PyStr
  /-- `NEVER_BLOCK_CIDRS`. -/
  neverBlockCidrs : List (PyVal Obj)
  /-- `NEVER_BLOCK_RATIONALE`. -/
  neverBlockRationale : List (PyVal Obj × PyVal Obj)
  /-- `ALLOWED_AGENT_ACTIONS`, by its items. -/
  allowedAgentActions : List (PyVal Obj)
  /-- `PROTECTED_COMMENT_PREFIXES`. -/
  protectedCommentPrefixes : List (PyVal Obj)
  /-- `AGENT_COMMENT_PREFIX`. -/
  agentCommentPrefix : PyVal Obj

/-- The fields of a `FailureMode`. -/
def FAILURE_MODE_FIELDS : List String :=
  ["name", "trigger", "rest_status", "body_signature", "state", "agent_action"]

/-- `_SAFETY_FLOOR`. -/
def SAFETY_FLOOR : List PyStr :=
  ["10.2.50.10/32", "192.168.122.205/32", "10.1.100.1/32", "10.1.200.1/32", "10.2.100.1/32",
    "10.2.50.1/32", "192.168.122.0/24"].map u

/-- The items of a list that are read of the graph. -/
def itemsOf : PyVal Obj → List (PyVal Obj)
  | .seq _ xs => xs
  | _ => []

namespace Python

variable (P : Python Obj)

/-- The tables up to the failure modes, taken from the knowledge base. -/
def swapFirst (kb : Knowledge Obj) (t : Tables Obj) : Tables Obj :=
  { t with
    zones := kb.zones
    assets := kb.assets
    leafs := kb.leafs
    allBaselines := kb.baselines.patterns
    applicationFlows := kb.baselines.patterns.filter fun p => p.srcZone ≠ u "MGT"
    managementFlows := kb.baselines.patterns.filter fun p => p.srcZone = u "MGT"
    anomalousPatterns := kb.baselines.anomalousPatterns
    steadyStateFlowsPerMinute := kb.baselines.steadyStateFlowsPerMinute
    mgtAuditAlertRatePerMinute := kb.baselines.mgtAuditAlertRatePerMinute
    sidDetections := kb.sids
    killChains := kb.killChains
    policyMatrix := kb.policyMatrix
    endpointContracts := kb.enforcementPlane.endpointContracts
    fieldNameMapping := itemsOf kb.enforcementPlane.fieldNameMapping
    criticalGotchas := itemsOf kb.enforcementPlane.criticalGotchas }

/-- The failure modes of a list that is extended with them one by one: what it holds then, and
whether it got to the end. -/
def extendModes : List (PyVal Obj) → List FailureMode → List FailureMode × Bool
  | [], modes => (modes, true)
  | fm :: rest, modes =>
    match (argsOf fm).bind P.failureMode with
    | some m => extendModes rest (modes ++ [m])
    | none => (modes, false)

/-- The tables behind the RBAC contract, taken from the knowledge base. -/
def swapLast (kb : Knowledge Obj) (t : Tables Obj) : Tables Obj :=
  { t with
    neverBlockCidrs := kb.invariants.neverBlockCidrs
    neverBlockRationale := kb.invariants.neverBlockRationale
    allowedAgentActions := kb.invariants.allowedAgentActions
    protectedCommentPrefixes := kb.invariants.protectedCommentPrefixes
    agentCommentPrefix := kb.invariants.agentCommentPrefix }

/-- The swap: the tables it leaves, and the exception that ended it. -/
def swapTables (kb : Knowledge Obj) (t : Tables Obj) : Tables Obj × Except Failure Unit :=
  let t := swapFirst kb t
  match P.extendModes (itemsOf kb.enforcementPlane.failureModes) [] with
  | (modes, false) => ({ t with failureModes := modes }, .error .other)
  | (modes, true) =>
    let t := { t with failureModes := modes }
    match kb.enforcementPlane.rbacContract with
    | .str text => (swapLast kb { t with rbacContract := [10] ++ text ++ [10] }, .ok ())
    | _ => (t, .error .other)

/-- `_SAFETY_FLOOR - set(NEVER_BLOCK_CIDRS)` is empty. -/
def floorHolds (t : Tables Obj) : Bool :=
  SAFETY_FLOOR.all fun cidr => t.neverBlockCidrs.any fun v => P.same (.str cidr) v

/-- How the start-up goes on. -/
inductive Boot where
  /-- The graph is the source of the tables. -/
  | graph
  /-- The tables are those of the files, as the code has it. -/
  | fallback
  /-- The service does not start. -/
  | aborted
  deriving DecidableEq

/-- The start-up: the connection and the reload of the graph, the reading, and the swap. A
`RuntimeError` ends it, and another exception makes the service go on without the graph. -/
def boot (reload : Except Failure Unit) (q : Answers Obj) (t : Tables Obj) : Tables Obj × Boot :=
  match reload, P.readAll q with
  | .ok (), .ok kb =>
    match P.swapTables kb t with
    | (t, .ok ()) => (t, if P.floorHolds t then .graph else .aborted)
    | (t, .error .runtime) => (t, .aborted)
    | (t, .error .other) => (t, .fallback)
  | .error .runtime, _ => (t, .aborted)
  | .error .other, _ => (t, .fallback)
  | .ok (), .error .runtime => (t, .aborted)
  | .ok (), .error .other => (t, .fallback)

/-! ## All or nothing -/

/-- When the start-up goes on without the graph the tables are those that were there. -/
def AllOrNothing (reload : Except Failure Unit) (q : Answers Obj) (t : Tables Obj) : Prop :=
  ∀ t', P.boot reload q t = (t', .fallback) → t' = t

/-- A row of a failure mode whose six properties are texts. -/
def FailureModeRow (row : Args Obj) : Prop :=
  ∀ name ∈ FAILURE_MODE_FIELDS, ∃ v, row name = some v ∧ (P.asStr v).isSome = true

/-- The answers hold texts where the swap needs them: in the failure modes, and in the RBAC
contract, which is the first of its rows. -/
def TextsHeld (q : Answers Obj) : Prop :=
  (∀ rows, q.failureModes = .ok rows → ∀ row ∈ rows, P.FailureModeRow row) ∧
    ∀ row rows, q.rbacContract = .ok (row :: rows) → ∃ text, row "text" = some (.str text)

/-- The failure mode of a dict. -/
def modeOf (fm : PyVal Obj) : Option FailureMode := (argsOf fm).bind P.failureMode

/-- The failure modes before the first that does not validate. -/
def modesBefore (fms : List (PyVal Obj)) : List FailureMode :=
  ((fms.map P.modeOf).takeWhile Option.isSome).reduceOption

/-- The tables hold what the swap sets before the RBAC contract, the last failure modes left out
if one does not validate. -/
@[mk_iff]
structure AlreadyThere (kb : Knowledge Obj) (t : Tables Obj) : Prop where
  zones : t.zones = kb.zones
  assets : t.assets = kb.assets
  leafs : t.leafs = kb.leafs
  allBaselines : t.allBaselines = kb.baselines.patterns
  applicationFlows :
    t.applicationFlows = kb.baselines.patterns.filter fun p => p.srcZone ≠ u "MGT"
  managementFlows :
    t.managementFlows = kb.baselines.patterns.filter fun p => p.srcZone = u "MGT"
  anomalousPatterns : t.anomalousPatterns = kb.baselines.anomalousPatterns
  steadyStateFlowsPerMinute : t.steadyStateFlowsPerMinute = kb.baselines.steadyStateFlowsPerMinute
  mgtAuditAlertRatePerMinute :
    t.mgtAuditAlertRatePerMinute = kb.baselines.mgtAuditAlertRatePerMinute
  sidDetections : t.sidDetections = kb.sids
  killChains : t.killChains = kb.killChains
  policyMatrix : t.policyMatrix = kb.policyMatrix
  endpointContracts : t.endpointContracts = kb.enforcementPlane.endpointContracts
  fieldNameMapping : t.fieldNameMapping = itemsOf kb.enforcementPlane.fieldNameMapping
  criticalGotchas : t.criticalGotchas = itemsOf kb.enforcementPlane.criticalGotchas
  failureModes : t.failureModes = P.modesBefore (itemsOf kb.enforcementPlane.failureModes)

variable {P}

/-! ### The swap -/

/-- The failure modes are extended with those before the first that does not validate. -/
theorem extendModes_eq (fms : List (PyVal Obj)) (modes : List FailureMode) :
    P.extendModes fms modes =
      (modes ++ P.modesBefore fms, fms.all fun fm => (P.modeOf fm).isSome) := by
  induction fms generalizing modes with
  | nil => simp [extendModes, modesBefore]
  | cons fm rest ih =>
    rw [extendModes]
    cases h : P.modeOf fm with
    | none =>
      rw [modeOf] at h
      rw [h]
      simp [modesBefore, modeOf, h]
    | some m =>
      have hrest : P.modesBefore (fm :: rest) = m :: P.modesBefore rest := by
        simp [modesBefore, h]
      rw [hrest, List.all_cons, h]
      rw [modeOf] at h
      rw [h]
      simp [ih]

/-- The tables of a swap that does not get through. -/
theorem swapTables_error {kb : Knowledge Obj} {t t' : Tables Obj} :
    P.swapTables kb t = (t', .error .other) ↔
      t' = { swapFirst kb t with
        failureModes := P.modesBefore (itemsOf kb.enforcementPlane.failureModes) } ∧
      ¬ ((∀ fm ∈ itemsOf kb.enforcementPlane.failureModes, (P.modeOf fm).isSome = true) ∧
        ∃ text, kb.enforcementPlane.rbacContract = .str text) := by
  rw [swapTables, extendModes_eq, List.nil_append, ← List.all_eq_true]
  cases h : (itemsOf kb.enforcementPlane.failureModes).all fun fm => (P.modeOf fm).isSome with
  | false => simp [eq_comm]
  | true =>
    cases hr : kb.enforcementPlane.rbacContract <;> simp [eq_comm]

/-- The swap leaves the tables as they were up to the RBAC contract when they hold its values. -/
theorem swapFirst_eq_iff {kb : Knowledge Obj} {t : Tables Obj} :
    { swapFirst kb t with
      failureModes := P.modesBefore (itemsOf kb.enforcementPlane.failureModes) } = t ↔
      P.AlreadyThere kb t := by
  cases t
  rw [alreadyThere_iff]
  simp only [swapFirst, Tables.mk.injEq, and_true, eq_comm]

/-- The start-up goes on without the graph after a failure of the reload, of the reading, or of the
swap. -/
theorem boot_fallback {reload : Except Failure Unit} {q : Answers Obj} {t t' : Tables Obj} :
    P.boot reload q t = (t', .fallback) ↔
      t' = t ∧ (reload = .error .other ∨ reload = .ok () ∧ P.readAll q = .error .other) ∨
      reload = .ok () ∧ ∃ kb, P.readAll q = .ok kb ∧ P.swapTables kb t = (t', .error .other) := by
  rcases reload with (_ | _) | _
  · simp [boot]
  · simp [boot, eq_comm]
  · cases hread : P.readAll q with
    | error e =>
      cases e with
      | runtime => simp [boot, hread]
      | other => simp [boot, hread, eq_comm]
    | ok kb =>
      rcases hswap : P.swapTables kb t with ⟨t₁, (_ | _) | _⟩
      · simp [boot, hread, hswap]
      · simp [boot, hread, hswap]
      · simp only [boot, hread, hswap]
        split_ifs <;> simp [hswap]

/-! ### The values that were read -/

/-- The dict of some names of a row has them, each with its value. -/
theorem pick_eq_ok {names : List String} {row : Args Obj} {v : PyVal Obj}
    (h : pick names row = .ok v) :
    ∃ args, argsOf v = some args ∧ ∀ name ∈ names, ∃ w, row name = some w ∧ args name = some w := by
  obtain ⟨items, hitems, hv⟩ := except_bind_eq_ok h
  obtain rfl := Except.ok.inj hv
  clear h hv
  have hkeys : (∀ i ∈ items, (keyStr i.1).isSome = true) ∧
      ∀ name ∈ names, ∃ w, row name = some w ∧ getItem (u name) items = some w := by
    induction names generalizing items with
    | nil =>
      obtain rfl := Except.ok.inj hitems
      simp
    | cons name rest ih =>
      rw [List.mapM_cons] at hitems
      obtain ⟨i, hi, hitems⟩ := except_bind_eq_ok hitems
      obtain ⟨w, hw, hi⟩ := except_bind_eq_ok hi
      obtain ⟨more, hmore, hitems⟩ := except_bind_eq_ok hitems
      obtain rfl := Except.ok.inj hi
      obtain rfl := Except.ok.inj hitems
      obtain ⟨hstr, hget⟩ := ih more hmore
      have hrow : row name = some w := by
        rw [Args.need] at hw
        cases hrow : row name with
        | none => simp [hrow, orRaise] at hw
        | some w' => simpa [hrow, orRaise] using hw
      constructor
      · intro j hj
        rcases List.mem_cons.mp hj with rfl | hj
        · rfl
        · exact hstr j hj
      · intro name' hname'
        rw [item, getItem_cons, keyStr]
        by_cases hsame : u name = u name'
        · obtain rfl := u_injective hsame
          exact ⟨w, hrow, by rw [if_pos rfl]⟩
        · have hne : name' ≠ name := fun h => hsame (congrArg u h.symm)
          rw [if_neg (by simpa using hsame)]
          exact hget name' ((List.mem_cons.mp hname').resolve_left hne)
  refine ⟨fun name => getItem (u name) items, ?_, hkeys.2⟩
  rw [argsOf, if_pos (List.all_eq_true.mpr hkeys.1)]

/-- A failure mode validates when its six values are texts. -/
theorem failureMode_isSome {args : Args Obj} :
    (P.failureMode args).isSome = true ↔
      ∀ name ∈ FAILURE_MODE_FIELDS, (P.strArg args name).isSome = true := by
  simp only [failureMode, FAILURE_MODE_FIELDS, Option.bind_eq_bind, List.forall_mem_cons,
    Option.isSome_bind]
  cases P.strArg args "name" <;> cases P.strArg args "trigger" <;>
    cases P.strArg args "rest_status" <;> cases P.strArg args "body_signature" <;>
    cases P.strArg args "state" <;> cases P.strArg args "agent_action" <;> simp

/-- A failure mode that was read of a row validates when the row has texts. -/
theorem modeOf_pick {row : Args Obj} {fm : PyVal Obj} (h : pick FAILURE_MODE_FIELDS row = .ok fm) :
    (P.modeOf fm).isSome = true ↔ P.FailureModeRow row := by
  obtain ⟨args, hargs, heq⟩ := pick_eq_ok h
  rw [modeOf, hargs, Option.bind_some, failureMode_isSome]
  refine forall₂_congr fun name hname => ?_
  obtain ⟨w, hrow, hw⟩ := heq name hname
  rw [strArg, hw, hrow]
  simp

/-- What an enforcement plane was read of. -/
theorem readEnforcementPlane_eq_ok {q : Answers Obj} {ep : EnforcementPlane Obj}
    (h : P.readEnforcementPlane q = .ok ep) :
    ∃ rows fms, q.failureModes = .ok rows ∧ ep.failureModes = .seq false fms ∧
      List.Forall₂ (fun row fm => pick FAILURE_MODE_FIELDS row = .ok fm) rows fms ∧
      ∃ row rest, q.rbacContract = .ok (row :: rest) ∧ row "text" = some ep.rbacContract := by
  rw [readEnforcementPlane] at h
  obtain ⟨endpoints, -, h⟩ := except_bind_eq_ok h
  obtain ⟨contracts, -, h⟩ := except_bind_eq_ok h
  obtain ⟨mappings, -, h⟩ := except_bind_eq_ok h
  obtain ⟨mapping, -, h⟩ := except_bind_eq_ok h
  obtain ⟨texts, -, h⟩ := except_bind_eq_ok h
  obtain ⟨gotchas, -, h⟩ := except_bind_eq_ok h
  obtain ⟨rows, hrows, h⟩ := except_bind_eq_ok h
  obtain ⟨fms, hfms, h⟩ := except_bind_eq_ok h
  obtain ⟨rbac, hrbac, h⟩ := except_bind_eq_ok h
  cases rbac with
  | nil => exact nomatch h
  | cons row rest =>
    obtain ⟨text, htext, h⟩ := except_bind_eq_ok h
    obtain rfl := Except.ok.inj h
    refine ⟨rows, fms, hrows, rfl, mapM_eq_ok.mp hfms, row, rest, hrbac, ?_⟩
    rw [Args.need] at htext
    cases hrow : row "text" with
    | none => simp [hrow, orRaise] at htext
    | some v => simpa [hrow, orRaise] using htext

/-- The swap gets through when the answers that were read hold texts. -/
theorem swappable_iff {q : Answers Obj} {kb : Knowledge Obj} (h : P.readAll q = .ok kb) :
    ((∀ fm ∈ itemsOf kb.enforcementPlane.failureModes, (P.modeOf fm).isSome = true) ∧
      ∃ text, kb.enforcementPlane.rbacContract = .str text) ↔ P.TextsHeld q := by
  rw [readAll] at h
  obtain ⟨zones, -, h⟩ := except_bind_eq_ok h
  obtain ⟨assets, -, h⟩ := except_bind_eq_ok h
  obtain ⟨leafs, -, h⟩ := except_bind_eq_ok h
  obtain ⟨baselines, -, h⟩ := except_bind_eq_ok h
  obtain ⟨matrix, -, h⟩ := except_bind_eq_ok h
  obtain ⟨sids, -, h⟩ := except_bind_eq_ok h
  obtain ⟨chains, -, h⟩ := except_bind_eq_ok h
  obtain ⟨ep, hep, h⟩ := except_bind_eq_ok h
  obtain ⟨inv, -, h⟩ := except_bind_eq_ok h
  obtain rfl := Except.ok.inj h
  obtain ⟨rows, fms, hrows, hfms, hpick, row, rest, hrbac, htext⟩ := readEnforcementPlane_eq_ok hep
  have hmodes : (∀ fm ∈ fms, (P.modeOf fm).isSome = true) ↔ ∀ r ∈ rows, P.FailureModeRow r := by
    clear hfms hrows
    induction hpick with
    | nil => simp
    | cons hp _ ih => rw [List.forall_mem_cons, List.forall_mem_cons, ih, modeOf_pick hp]
  rw [TextsHeld, hrows, hrbac]
  simp only [hfms, itemsOf, hmodes, Except.ok.injEq, List.cons.injEq, forall_eq', and_imp]
  simp [htext]

/-! ### When the swap is all or nothing -/

/-- The swap is all or nothing when the graph holds texts where it needs them, and otherwise only
when there is nothing to swap up to the point where it fails. -/
theorem allOrNothing_iff (P : Python Obj) (reload : Except Failure Unit) (q : Answers Obj)
    (t : Tables Obj) :
    P.AllOrNothing reload q t ↔
      ∀ kb, reload = .ok () → P.readAll q = .ok kb → P.TextsHeld q ∨ P.AlreadyThere kb t := by
  constructor
  · intro h kb hreload hread
    by_cases htexts : P.TextsHeld q
    · exact .inl htexts
    · refine .inr (swapFirst_eq_iff.mp (h _ ?_))
      rw [← swappable_iff hread] at htexts
      exact boot_fallback.mpr (.inr ⟨hreload, kb, hread, swapTables_error.mpr ⟨rfl, htexts⟩⟩)
  · intro h t' hboot
    rcases boot_fallback.mp hboot with ⟨heq, -⟩ | ⟨hreload, kb, hread, hswap⟩
    · exact heq
    · obtain ⟨heq, hno⟩ := swapTables_error.mp hswap
      rcases h kb hreload hread with htexts | hthere
      · exact absurd ((swappable_iff hread).mpr htexts) hno
      · rw [heq]
        exact swapFirst_eq_iff.mpr hthere

end Python

/-! ### A status that is a number -/

/-- The answers of a graph in which an operator has left the status of a failure mode a number. -/
def statusAnswers : Answers PyStr where
  zones := .ok []
  assets := .ok []
  leafs := .ok []
  baselines := .ok []
  baselineConstants := .ok [named [
    ("steady_state_flows_per_minute", .int 100), ("mgt_audit_alert_rate_per_minute", .int 5)]]
  allow := .ok []
  deny := .ok []
  sids := .ok []
  killChains := .ok []
  expectedIn := .ok []
  apiEndpoints := .ok []
  fieldMappings := .ok []
  gotchas := .ok []
  failureModes := .ok [named [("name", .str (u "fabric-down")), ("trigger", .str (u "timeout")),
    ("rest_status", .int 503), ("body_signature", .str (u "unavailable")),
    ("state", .str (u "not-applied")), ("agent_action", .str (u "retry"))]]
  rbacContract := .ok [named [("text", .str (u "agents may add and remove"))]]
  neverBlock := .ok []
  agentInvariants := .ok [named []]

/-- Tables as the files fill them, with one leaf and one address that is never blocked. -/
def bootstrapTables : Tables PyStr where
  zones := []
  assets := []
  leafs := [(.str (u "leaf-01"), {
    name := u "leaf-01", mgmtIp := u "192.168.122.11", zones := [u "WEB"], role := u "leaf" })]
  allBaselines := []
  applicationFlows := []
  managementFlows := []
  anomalousPatterns := []
  steadyStateFlowsPerMinute := 100
  mgtAuditAlertRatePerMinute := 5
  sidDetections := []
  killChains := []
  policyMatrix := []
  endpointContracts := []
  fieldNameMapping := []
  criticalGotchas := []
  failureModes := []
  rbacContract := []
  neverBlockCidrs := [.str (u "10.2.50.10/32")]
  neverBlockRationale := []
  allowedAgentActions := [.str (u "DROP")]
  protectedCommentPrefixes := []
  agentCommentPrefix := .str (u "nos:agent-")

/-- The start-up goes on without the graph, and the leaf of the files is gone. -/
theorem exists_boot_partial :
    ∃ t', plainPython.boot (.ok ()) statusAnswers bootstrapTables = (t', .fallback) ∧
      t'.leafs = [] ∧ t'.neverBlockCidrs = bootstrapTables.neverBlockCidrs ∧
      ¬ plainPython.AllOrNothing (.ok ()) statusAnswers bootstrapTables := by
  have hboot : ∃ t', plainPython.boot (.ok ()) statusAnswers bootstrapTables = (t', .fallback) ∧
      t'.leafs = [] ∧ t'.neverBlockCidrs = bootstrapTables.neverBlockCidrs := ⟨_, rfl, rfl, rfl⟩
  obtain ⟨t', hboot, hleafs, hcidrs⟩ := hboot
  refine ⟨t', hboot, hleafs, hcidrs, fun h => ?_⟩
  rw [h t' hboot] at hleafs
  exact nomatch hleafs

end ControlPlane.Know
