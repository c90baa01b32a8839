import ControlPlane.Know.ReadBack

/-!
# What the statements of a reload merge

The statements for a knowledge base, seen by what they merge: for each label the nodes with their
properties (`merged_statements`), and for each type of an edge that is read the statements that
merge it. None of them sets a name, an address or a number that nodes are merged by
(`unset_statements`).
-/

namespace ControlPlane.Know

open JsonText PropertyGraph

variable {Obj : Type}

namespace Neo4j

variable {N : Neo4j Obj}

/-! ## Statements for each entity -/

variable (N) in
/-- What is merged for a node. -/
def itemOf (label key : String) (value : PyVal Obj) (params : Params Obj) :
    Pattern (PyVal Obj) × Sets (PyVal Obj) := (⟨label, key, N.stored value⟩, N.setsOf params)

theorem freshRow_itemOf (label key : String) (value : PyVal Obj) (params : Params Obj) :
    freshRow (N.itemOf label key value params) = N.rowOf key value params := rfl

/-- Statements for nodes of one label. -/
theorem mapM_node_eq_ok {A : Type} {label key : String} {value : A → PyVal Obj}
    {params : A → Params Obj} {xs : List A} {ss : Script Obj}
    (h : (xs.mapM fun x => N.node label key (value x) (params x)) = .ok ss) :
    ss = (xs.map fun x => N.nodeStatement label key (value x) (params x)) ∧
      ∀ x ∈ xs, N.Sent (value x) (params x) := by
  have hall := mapM_eq_ok.mp h
  clear h
  induction hall with
  | nil => exact ⟨rfl, fun x hx => absurd hx List.not_mem_nil⟩
  | cons hx _ ih =>
    obtain ⟨hsent, rfl⟩ := node_eq_ok.mp hx
    obtain ⟨rfl, hrest⟩ := ih
    exact ⟨rfl, List.forall_mem_cons.mpr ⟨hsent, hrest⟩⟩

/-- Such statements merge nodes of their label. -/
theorem merged_nodes {A : Type} (l label key : String) (value : A → PyVal Obj)
    (params : A → Params Obj) (xs : List A) :
    merged l (xs.map fun x => N.nodeStatement label key (value x) (params x)) =
      if label = l then xs.map fun x => N.itemOf label key (value x) (params x) else [] := by
  unfold merged
  rw [List.filterMap_map]
  split_ifs with hl
  · rw [← List.filterMap_eq_map]
    refine List.filterMap_congr fun x _ => ?_
    exact if_pos hl
  · refine List.filterMap_eq_nil_iff.mpr fun x _ => ?_
    exact if_neg hl

/-- All statements are for edges. -/
def OnlyEdges (ss : Script Obj) : Prop := ∀ m sets, .mergeNode m sets ∉ ss

theorem merged_edges (l : String) {ss : Script Obj} (h : OnlyEdges ss) : merged l ss = [] := by
  refine List.filterMap_eq_nil_iff.mpr fun st hst => ?_
  cases st with
  | mergeNode m sets => exact absurd hst (h m sets)
  | mergeEdge s t type keys sets => rfl

theorem onlyEdges_map {A : Type} {xs : List A} {s t : A → Pattern (PyVal Obj)} {type : A → String}
    {keys params : A → Params Obj} :
    OnlyEdges (xs.map fun x => N.edgeStatement (s x) (t x) (type x) (keys x) (params x)) := by
  intro m sets hm
  obtain ⟨x, -, hx⟩ := List.mem_map.mp hm
  cases hx

theorem onlyEdges_singleton {s t : Pattern (PyVal Obj)} {type : String} {keys params : Params Obj} :
    OnlyEdges [N.edgeStatement s t type keys params] := by
  intro m sets hm
  cases List.mem_singleton.mp hm

/-- Statements that begin with one for a node, with edges behind it. -/
theorem merged_flatten_nodes {A : Type} (l label key : String) {value : A → PyVal Obj}
    {params : A → Params Obj} {xs : List A} {parts : List (Script Obj)}
    (h : List.Forall₂ (fun x part => ∃ edges, OnlyEdges edges ∧
      part = N.nodeStatement label key (value x) (params x) :: edges) xs parts) :
    merged l parts.flatten =
      if label = l then xs.map fun x => N.itemOf label key (value x) (params x) else [] := by
  induction h with
  | nil => simp [merged]
  | @cons x part xs parts hx _ ih =>
    obtain ⟨edges, hedges, rfl⟩ := hx
    rw [List.flatten_cons, merged_append, ih, ← List.singleton_append, merged_append,
      merged_edges l hedges, List.append_nil]
    have hone := merged_nodes (N := N) l label key value params [x]
    rw [List.map_singleton] at hone
    rw [hone]
    split_ifs
    · rfl
    · rfl

/-! ## The parts of the statements -/

/-- The statements, by what they are for. -/
structure Parts (Obj : Type) where
  zones : Script Obj
  leafs : List (Script Obj)
  assets : List (Script Obj)
  sids : Script Obj
  chains : List (Script Obj)
  patterns : Script Obj
  contracts : Script Obj
  gotchas : Script Obj
  mappings : Script Obj
  failures : Script Obj
  neverBlock : Script Obj

/-- The constants of the baselines. -/
def constantsParams (b : Baselines Obj) : Params Obj := [
  ("steady_state_flows_per_minute", .int b.steadyStateFlowsPerMinute),
  ("mgt_audit_alert_rate_per_minute", .int b.mgtAuditAlertRatePerMinute),
  ("anomalous_patterns", .seq false b.anomalousPatterns)]

/-- The other invariants. -/
def invariantParams (inv : Invariants Obj) (actions : List (PyVal Obj)) : Params Obj := [
  ("allowed_agent_actions", .seq false actions),
  ("protected_comment_prefixes", .seq false inv.protectedCommentPrefixes),
  ("agent_comment_prefix", inv.agentCommentPrefix)]

/-- The values under some names of a dict. -/
def fieldParams (names : List String) (row : PyVal Obj) : Params Obj :=
  names.map fun name => (name, (field name row).getD .none)

theorem raise_eq_ok {A : Type} {x : Option A} {a : A} : raise x = .ok a ↔ x = some a := by
  cases x with
  | none => simp [raise]
  | some b => simp [raise]

theorem fieldsOf_eq_ok {names : List String} {row : PyVal Obj} {params : Params Obj} :
    fieldsOf names row = .ok params ↔
      (∀ name ∈ names, (field name row).isSome = true) ∧ params = fieldParams names row := by
  unfold fieldsOf fieldParams
  rw [mapM_eq_ok]
  induction names generalizing params with
  | nil =>
    rw [List.forall₂_nil_left_iff]
    exact ⟨fun h => ⟨fun _ hname => absurd hname List.not_mem_nil, h⟩, fun h => h.2⟩
  | cons name rest ih =>
    have hone (p : String × PyVal Obj) :
        (do return (name, ← raise (field name row)) : Except Fault (String × PyVal Obj)) = .ok p ↔
          (field name row).isSome = true ∧ p = (name, (field name row).getD .none) := by
      cases hf : field name row with
      | none => simp [raise, bind, Except.bind]
      | some v => simp [raise, bind, Except.bind, pure, Except.pure, eq_comm]
    rw [List.forall₂_cons_left_iff, List.forall_mem_cons, List.map_cons]
    constructor
    · rintro ⟨p, more, hp, hmore, rfl⟩
      obtain ⟨hsome, rfl⟩ := (hone p).mp hp
      obtain ⟨hrest, rfl⟩ := ih.mp hmore
      exact ⟨⟨hsome, hrest⟩, rfl⟩
    · rintro ⟨⟨hsome, hrest⟩, rfl⟩
      exact ⟨_, _, (hone _).mpr ⟨hsome, rfl⟩, ih.mpr ⟨hrest, rfl⟩, rfl⟩

variable (N) in
/-- What the parts are for a knowledge base, when no statement fails and nothing is raised. -/
structure Parts.Of (p : Parts Obj) (kb : Knowledge Obj) (gotchas mappings failures actions :
    List (PyVal Obj)) : Prop where
  zones : N.zoneStatements kb.zones = .ok p.zones
  leafs : kb.leafs.mapM N.leafStatement = .ok p.leafs
  assets : kb.assets.mapM N.assetStatement = .ok p.assets
  sids : N.sidStatements kb.sids = .ok p.sids
  chains : kb.killChains.mapM N.chainStatement = .ok p.chains
  patterns : N.patternStatements kb.baselines.patterns = .ok p.patterns
  constants : N.Sent (.str (u "baseline_constants")) (constantsParams kb.baselines)
  contracts : N.contractStatements kb.enforcementPlane.endpointContracts = .ok p.contracts
  gotchasList : N.toList kb.enforcementPlane.criticalGotchas = some gotchas
  gotchas : N.gotchaStatements kb.enforcementPlane.criticalGotchas = .ok p.gotchas
  mappingsList : N.toList kb.enforcementPlane.fieldNameMapping = some mappings
  mappings : N.mappingStatements kb.enforcementPlane.fieldNameMapping = .ok p.mappings
  failuresList : N.toList kb.enforcementPlane.failureModes = some failures
  failures : N.failureStatements kb.enforcementPlane.failureModes = .ok p.failures
  rbac : N.Sent (.str (u "rbac_contract")) [("text", kb.enforcementPlane.rbacContract)]
  neverBlock : N.neverBlockStatements kb.invariants = .ok p.neverBlock
  actionsList : N.sortedItems kb.invariants.allowedAgentActions = some actions
  invariants : N.Sent (.str (u "agent_invariants")) (invariantParams kb.invariants actions)

variable (N) in
/-- The statements of the parts behind the kill chains. -/
def Parts.rest (p : Parts Obj) (kb : Knowledge Obj) (actions : List (PyVal Obj)) : Script Obj :=
  [p.patterns,
    [N.nodeStatement "KnowledgeMeta" "key" (.str (u "baseline_constants"))
      (constantsParams kb.baselines)],
    p.contracts, p.gotchas, p.mappings, p.failures,
    [N.nodeStatement "KnowledgeMeta" "key" (.str (u "rbac_contract"))
      [("text", kb.enforcementPlane.rbacContract)]],
    p.neverBlock,
    [N.nodeStatement "KnowledgeMeta" "key" (.str (u "agent_invariants"))
      (invariantParams kb.invariants actions)]].flatten

variable (N) in
/-- The statements of the parts. -/
def Parts.all (p : Parts Obj) (kb : Knowledge Obj) (actions : List (PyVal Obj)) : Script Obj :=
  p.zones ++ p.leafs.flatten ++ p.assets.flatten ++ N.policyStatements kb.policyMatrix ++ p.sids ++
    p.chains.flatten ++ p.rest N kb actions

/-- The statements are those of their parts. -/
theorem exists_parts {kb : Knowledge Obj} {ss : Script Obj} (h : N.statements kb = .ok ss) :
    ∃ (p : Parts Obj) (gotchas mappings failures actions : List (PyVal Obj)),
      p.Of N kb gotchas mappings failures actions ∧ ss = p.all N kb actions := by
  unfold statements at h
  obtain ⟨zones, hzones, h⟩ := except_bind_eq_ok h
  obtain ⟨leafs, hleafs, h⟩ := except_bind_eq_ok h
  obtain ⟨leafs', hleafs', hl⟩ := except_bind_eq_ok hleafs
  obtain ⟨assets, hassets, h⟩ := except_bind_eq_ok h
  obtain ⟨assets', hassets', ha⟩ := except_bind_eq_ok hassets
  obtain ⟨sids, hsids, h⟩ := except_bind_eq_ok h
  obtain ⟨chains, hchains, h⟩ := except_bind_eq_ok h
  obtain ⟨chains', hchains', hc⟩ := except_bind_eq_ok hchains
  obtain ⟨patterns, hpatterns, h⟩ := except_bind_eq_ok h
  obtain ⟨constants, hconstants, h⟩ := except_bind_eq_ok h
  obtain ⟨node₁, hnode₁, hc₁⟩ := except_bind_eq_ok hconstants
  obtain ⟨contracts, hcontracts, h⟩ := except_bind_eq_ok h
  obtain ⟨gotchas, hgotchas, h⟩ := except_bind_eq_ok h
  obtain ⟨gs, hgs, -⟩ := except_bind_eq_ok hgotchas
  obtain ⟨mappings, hmappings, h⟩ := except_bind_eq_ok h
  obtain ⟨ms, hms, -⟩ := except_bind_eq_ok hmappings
  obtain ⟨failures, hfailures, h⟩ := except_bind_eq_ok h
  obtain ⟨fs, hfs, -⟩ := except_bind_eq_ok hfailures
  obtain ⟨rbac, hrbac, h⟩ := except_bind_eq_ok h
  obtain ⟨node₂, hnode₂, hc₂⟩ := except_bind_eq_ok hrbac
  obtain ⟨neverBlock, hneverBlock, h⟩ := except_bind_eq_ok h
  obtain ⟨invariants, hinvariants, h⟩ := except_bind_eq_ok h
  obtain ⟨actions, hactions, hinv⟩ := except_bind_eq_ok hinvariants
  obtain ⟨node₃, hnode₃, hc₃⟩ := except_bind_eq_ok hinv
  obtain ⟨hsent₁, rfl⟩ := node_eq_ok.mp hnode₁
  obtain ⟨hsent₂, rfl⟩ := node_eq_ok.mp hnode₂
  obtain ⟨hsent₃, rfl⟩ := node_eq_ok.mp hnode₃
  obtain rfl := Except.ok.inj hl
  obtain rfl := Except.ok.inj ha
  obtain rfl := Except.ok.inj hc
  obtain rfl := Except.ok.inj hc₁
  obtain rfl := Except.ok.inj hc₂
  obtain rfl := Except.ok.inj hc₃
  refine ⟨⟨zones, leafs', assets', sids, chains', patterns, contracts, gotchas, mappings, failures,
    neverBlock⟩, gs, ms, fs, actions, ?_, ?_⟩
  rotate_left
  · refine (Except.ok.inj h).symm.trans ?_
    simp only [Parts.all, Parts.rest, List.flatten_cons, List.append_assoc]
    rfl
  exact {
    zones := hzones, leafs := hleafs', assets := hassets', sids := hsids, chains := hchains',
    patterns := hpatterns, constants := hsent₁, contracts := hcontracts,
    gotchasList := raise_eq_ok.mp hgs, gotchas := hgotchas,
    mappingsList := raise_eq_ok.mp hms, mappings := hmappings,
    failuresList := raise_eq_ok.mp hfs, failures := hfailures, rbac := hsent₂,
    neverBlock := hneverBlock, actionsList := raise_eq_ok.mp hactions, invariants := hsent₃ }

/-! ## Parts with edges -/

theorem leafStatement_eq_ok {i : PyVal Obj × Leaf} {part : Script Obj}
    (h : N.leafStatement i = .ok part) :
    N.Sent i.1 (leafParams i.2) ∧
      part = N.nodeStatement "Leaf" "name" i.1 (leafParams i.2) :: i.2.zones.map fun zone =>
        N.edgeStatement ⟨"Leaf", "name", i.1⟩ ⟨"Zone", "name", .str zone⟩ "ENFORCES" [] [] := by
  obtain ⟨node, hnode, h⟩ := except_bind_eq_ok h
  obtain ⟨hsent, rfl⟩ := node_eq_ok.mp hnode
  exact ⟨hsent, (Except.ok.inj h).symm⟩

/-- What is set of an asset. -/
def assetRow (a : Asset) : Params Obj := assetParams a (Interp.print (servicesOf a : PyVal Obj))

theorem assetStatement_eq_ok {i : PyVal Obj × Asset} {part : Script Obj}
    (h : N.assetStatement i = .ok part) :
    N.Writable (servicesOf i.2) ∧ N.Sent i.1 (assetRow i.2) ∧
      part = [N.nodeStatement "Asset" "ip" i.1 (assetRow i.2),
        N.edgeStatement ⟨"Asset", "ip", i.1⟩ ⟨"Zone", "name", .str i.2.zone⟩ "MEMBER_OF"
          [] []] := by
  obtain ⟨services, hservices, h⟩ := except_bind_eq_ok h
  obtain ⟨node, hnode, h⟩ := except_bind_eq_ok h
  have hdumps : N.dumps N.plain (servicesOf i.2) = .ok services := by
    have hsome := raise_eq_ok.mp hservices
    cases hd : N.dumps N.plain (servicesOf i.2) with
    | error e => simp [hd, Except.toOption] at hsome
    | ok t =>
      rw [hd] at hsome
      rw [Option.some.inj hsome]
  obtain ⟨⟨hwritable, -⟩, rfl⟩ := N.encode_plain_eq_ok.mp hdumps
  obtain ⟨hsent, rfl⟩ := node_eq_ok.mp hnode
  exact ⟨hwritable, hsent, (Except.ok.inj h).symm⟩

variable (N) in
/-- The statement for a signal. -/
def signal (c : KillChain) (s : KillChainStage) (sid : ℤ) : Statement (PyVal Obj) :=
  N.edgeStatement ⟨"Sid", "sid", .int sid⟩ ⟨"KillChain", "name", .str c.name⟩ "EXPECTED_IN"
    [("stage", .int s.stage)] (stageParams s)

variable (N) in
/-- The statements for the signals of a kill chain. -/
def signals (c : KillChain) : Script Obj :=
  c.stages.flatMap fun s => s.expectedSignals.map (N.signal c s)

theorem signalStatement_eq_ok {c : KillChain} {s : KillChainStage} {sid : ℤ}
    {st : Statement (PyVal Obj)} (h : N.signalStatement c s sid = .ok st) :
    (∀ p ∈ (stageParams s : Params Obj), (N.store p.2).isSome = true) ∧ st = N.signal c s sid := by
  unfold signalStatement edge at h
  split_ifs at h with hstorable
  have hall := List.all_eq_true.mp hstorable
  exact ⟨fun p hp => hall p (List.mem_append_right _ hp), (Except.ok.inj h).symm⟩

theorem chainStatement_eq_ok {c : KillChain} {part : Script Obj}
    (h : N.chainStatement c = .ok part) :
    N.Sent (.str c.name) (chainParams c) ∧
      (∀ s ∈ c.stages, s.expectedSignals ≠ [] →
        ∀ p ∈ (stageParams s : Params Obj), (N.store p.2).isSome = true) ∧
      part = N.nodeStatement "KillChain" "name" (.str c.name) (chainParams c) :: N.signals c := by
  obtain ⟨node, hnode, h⟩ := except_bind_eq_ok h
  obtain ⟨stages, hstages, h⟩ := except_bind_eq_ok h
  obtain ⟨hsent, rfl⟩ := node_eq_ok.mp hnode
  obtain rfl := Except.ok.inj h
  have hone {s : KillChainStage} {sids : List ℤ} {part : Script Obj}
      (hs : sids.mapM (N.signalStatement c s) = .ok part) :
      (sids ≠ [] → ∀ p ∈ (stageParams s : Params Obj), (N.store p.2).isSome = true) ∧
        part = sids.map (N.signal c s) := by
    have hall := mapM_eq_ok.mp hs
    clear hs
    induction hall with
    | nil => exact ⟨fun h => absurd rfl h, rfl⟩
    | cons hst _ ih =>
      obtain ⟨hstorable, rfl⟩ := signalStatement_eq_ok hst
      exact ⟨fun _ => hstorable, by rw [ih.2, List.map_cons]⟩
  have hparts {cs : List KillChainStage} {parts : List (Script Obj)}
      (hcs : cs.mapM (fun s => s.expectedSignals.mapM (N.signalStatement c s)) = .ok parts) :
      (∀ s ∈ cs, s.expectedSignals ≠ [] →
        ∀ p ∈ (stageParams s : Params Obj), (N.store p.2).isSome = true) ∧
        parts.flatten = cs.flatMap fun s => s.expectedSignals.map (N.signal c s) := by
    have hall := mapM_eq_ok.mp hcs
    clear hcs
    induction hall with
    | nil => exact ⟨fun s hs => absurd hs List.not_mem_nil, rfl⟩
    | cons hs _ ih =>
      obtain ⟨hstorable, rfl⟩ := hone hs
      refine ⟨List.forall_mem_cons.mpr ⟨hstorable, ih.1⟩, ?_⟩
      rw [List.flatten_cons, ih.2, List.flatMap_cons]
  obtain ⟨hstorable, hflat⟩ := hparts hstages
  exact ⟨hsent, hstorable, by rw [hflat, signals]⟩

theorem onlyEdges_signals (c : KillChain) : OnlyEdges (N.signals c) := by
  intro m sets hm
  obtain ⟨s, -, hm⟩ := List.mem_flatMap.mp hm
  obtain ⟨sid, -, hm⟩ := List.mem_map.mp hm
  cases hm

/-! ## The nodes -/

/-- The statements for nodes, behind those that have edges. -/
structure NodeParts (N : Neo4j Obj) (p : Parts Obj) (kb : Knowledge Obj)
    (gotchas mappings failures : List (PyVal Obj)) : Prop where
  zones : p.zones = kb.zones.map fun i => N.nodeStatement "Zone" "name" i.1 (zoneParams i.2)
  sids : p.sids = kb.sids.map fun i => N.nodeStatement "Sid" "sid" i.1 (sidParams i.2)
  patterns : p.patterns = kb.baselines.patterns.map fun b =>
    N.nodeStatement "Baseline" "name" (.str b.name) (patternParams b)
  contracts : p.contracts = kb.enforcementPlane.endpointContracts.map fun i =>
    N.nodeStatement "ApiEndpoint" "endpoint" i.1 [("description", i.2)]
  gotchas : p.gotchas = gotchas.zipIdx.map fun x =>
    N.nodeStatement "Gotcha" "idx" (.int x.2) [("text", x.1)]
  mappings : p.mappings = mappings.zipIdx.map fun x =>
    N.nodeStatement "FieldMapping" "idx" (.int x.2) (fieldParams MAPPING_FIELDS x.1)
  failures : p.failures = failures.map fun fm =>
    N.nodeStatement "FailureMode" "name" ((field "name" fm).getD .none)
      (fieldParams FAILURE_FIELDS fm)
  neverBlock : p.neverBlock = kb.invariants.neverBlockCidrs.map fun c =>
    N.nodeStatement "NeverBlockEntry" "cidr" c [("rationale", N.rationaleOf kb.invariants c)]

/-- No statement fails. -/
structure AllSent (N : Neo4j Obj) (kb : Knowledge Obj)
    (gotchas mappings failures actions : List (PyVal Obj)) : Prop where
  zones : ∀ i ∈ kb.zones, N.Sent i.1 (zoneParams i.2)
  leafs : ∀ i ∈ kb.leafs, N.Sent i.1 (leafParams i.2)
  assets : ∀ i ∈ kb.assets, N.Writable (servicesOf i.2) ∧ N.Sent i.1 (assetRow i.2)
  sids : ∀ i ∈ kb.sids, N.Sent i.1 (sidParams i.2)
  chains : ∀ c ∈ kb.killChains, N.Sent (.str c.name) (chainParams c)
  stages : ∀ c ∈ kb.killChains, ∀ s ∈ c.stages, s.expectedSignals ≠ [] →
    ∀ p ∈ (stageParams s : Params Obj), (N.store p.2).isSome = true
  patterns : ∀ b ∈ kb.baselines.patterns, N.Sent (.str b.name) (patternParams b)
  constants : N.Sent (.str (u "baseline_constants")) (constantsParams kb.baselines)
  contracts : ∀ i ∈ kb.enforcementPlane.endpointContracts, N.Sent i.1 [("description", i.2)]
  gotchas : ∀ x ∈ gotchas.zipIdx, N.Sent (.int x.2) [("text", x.1)]
  mappings : ∀ x ∈ mappings.zipIdx, (∀ name ∈ MAPPING_FIELDS, (field name x.1).isSome = true) ∧
    N.Sent (.int x.2) (fieldParams MAPPING_FIELDS x.1)
  failures : ∀ fm ∈ failures, (∀ name ∈ "name" :: FAILURE_FIELDS, (field name fm).isSome = true) ∧
    N.Sent ((field "name" fm).getD .none) (fieldParams FAILURE_FIELDS fm)
  rbac : N.Sent (.str (u "rbac_contract")) [("text", kb.enforcementPlane.rbacContract)]
  neverBlock : ∀ c ∈ kb.invariants.neverBlockCidrs,
    N.Sent c [("rationale", N.rationaleOf kb.invariants c)]
  invariants : N.Sent (.str (u "agent_invariants")) (invariantParams kb.invariants actions)

/-- Statements for nodes with what they read of a value. -/
theorem mapM_read_eq_ok {A : Type} {read : A → Except Fault (Statement (PyVal Obj))}
    {known : A → Prop} {label key : String} {value : A → PyVal Obj} {params : A → Params Obj}
    (hread : ∀ x st, read x = .ok st →
      (known x ∧ N.Sent (value x) (params x)) ∧ st = N.nodeStatement label key (value x) (params x))
    {xs : List A} {ss : Script Obj} (h : xs.mapM read = .ok ss) :
    ss = (xs.map fun x => N.nodeStatement label key (value x) (params x)) ∧
      ∀ x ∈ xs, known x ∧ N.Sent (value x) (params x) := by
  have hall := mapM_eq_ok.mp h
  clear h
  induction hall with
  | nil => exact ⟨rfl, fun x hx => absurd hx List.not_mem_nil⟩
  | cons hx _ ih =>
    obtain ⟨hsent, rfl⟩ := hread _ _ hx
    obtain ⟨rfl, hrest⟩ := ih
    exact ⟨rfl, List.forall_mem_cons.mpr ⟨hsent, hrest⟩⟩

theorem mappingStatement_eq_ok {x : PyVal Obj × ℕ} {st : Statement (PyVal Obj)}
    (h : (do N.node "FieldMapping" "idx" (.int x.2) (← fieldsOf MAPPING_FIELDS x.1) :
      Except Fault (Statement (PyVal Obj))) = .ok st) :
    ((∀ name ∈ MAPPING_FIELDS, (field name x.1).isSome = true) ∧
      N.Sent (.int x.2) (fieldParams MAPPING_FIELDS x.1)) ∧
      st = N.nodeStatement "FieldMapping" "idx" (.int x.2) (fieldParams MAPPING_FIELDS x.1) := by
  obtain ⟨params, hparams, h⟩ := except_bind_eq_ok h
  obtain ⟨hsome, rfl⟩ := fieldsOf_eq_ok.mp hparams
  obtain ⟨hsent, rfl⟩ := node_eq_ok.mp h
  exact ⟨⟨hsome, hsent⟩, rfl⟩

theorem failureStatement_eq_ok {fm : PyVal Obj} {st : Statement (PyVal Obj)}
    (h : (do
      let name ← raise (field "name" fm)
      N.node "FailureMode" "name" name (← fieldsOf FAILURE_FIELDS fm) :
        Except Fault (Statement (PyVal Obj))) = .ok st) :
    ((∀ name ∈ "name" :: FAILURE_FIELDS, (field name fm).isSome = true) ∧
      N.Sent ((field "name" fm).getD .none) (fieldParams FAILURE_FIELDS fm)) ∧
      st = N.nodeStatement "FailureMode" "name" ((field "name" fm).getD .none)
        (fieldParams FAILURE_FIELDS fm) := by
  obtain ⟨name, hname, h⟩ := except_bind_eq_ok h
  obtain ⟨params, hparams, h⟩ := except_bind_eq_ok h
  obtain ⟨hsome, rfl⟩ := fieldsOf_eq_ok.mp hparams
  obtain ⟨hsent, rfl⟩ := node_eq_ok.mp h
  have hfield := raise_eq_ok.mp hname
  have hget : (field "name" fm).getD .none = name := by rw [hfield]; rfl
  rw [hget]
  exact ⟨⟨List.forall_mem_cons.mpr ⟨Option.isSome_of_eq_some hfield, hsome⟩, hsent⟩, rfl⟩

/-- What the parts are. -/
theorem Parts.Of.spec {p : Parts Obj} {kb : Knowledge Obj}
    {gotchas mappings failures actions : List (PyVal Obj)}
    (h : p.Of N kb gotchas mappings failures actions) :
    NodeParts N p kb gotchas mappings failures ∧
      AllSent N kb gotchas mappings failures actions := by
  obtain ⟨hzones, szones⟩ := mapM_node_eq_ok h.zones
  obtain ⟨hsids, ssids⟩ := mapM_node_eq_ok h.sids
  obtain ⟨hpatterns, spatterns⟩ := mapM_node_eq_ok h.patterns
  obtain ⟨hcontracts, scontracts⟩ := mapM_node_eq_ok h.contracts
  obtain ⟨hneverBlock, sneverBlock⟩ := mapM_node_eq_ok h.neverBlock
  have hg := h.gotchas
  unfold gotchaStatements at hg
  rw [raise_eq_ok.mpr h.gotchasList] at hg
  obtain ⟨hgotchas, sgotchas⟩ := mapM_node_eq_ok hg
  have hm := h.mappings
  unfold mappingStatements at hm
  rw [raise_eq_ok.mpr h.mappingsList] at hm
  obtain ⟨hmappings, smappings⟩ := mapM_read_eq_ok (fun _ _ => mappingStatement_eq_ok) hm
  have hf := h.failures
  unfold failureStatements at hf
  rw [raise_eq_ok.mpr h.failuresList] at hf
  obtain ⟨hfailures, sfailures⟩ := mapM_read_eq_ok (fun _ _ => failureStatement_eq_ok) hf
  have hchain : ∀ c ∈ kb.killChains, ∃ part, N.chainStatement c = .ok part :=
    exists_mapM_eq_ok.mp ⟨_, h.chains⟩
  have hleaf : ∀ i ∈ kb.leafs, ∃ part, N.leafStatement i = .ok part :=
    exists_mapM_eq_ok.mp ⟨_, h.leafs⟩
  have hasset : ∀ i ∈ kb.assets, ∃ part, N.assetStatement i = .ok part :=
    exists_mapM_eq_ok.mp ⟨_, h.assets⟩
  refine ⟨⟨hzones, hsids, hpatterns, hcontracts, hgotchas, hmappings, hfailures, hneverBlock⟩, {
    zones := szones, sids := ssids, patterns := spatterns, contracts := scontracts
    gotchas := sgotchas, mappings := smappings, failures := sfailures, neverBlock := sneverBlock
    constants := h.constants, rbac := h.rbac, invariants := h.invariants
    leafs := fun i hi => ?_, assets := fun i hi => ?_, chains := fun c hc => ?_
    stages := fun c hc => ?_ }⟩
  · obtain ⟨part, hpart⟩ := hleaf i hi
    exact (leafStatement_eq_ok hpart).1
  · obtain ⟨part, hpart⟩ := hasset i hi
    obtain ⟨hwritable, hsent, -⟩ := assetStatement_eq_ok hpart
    exact ⟨hwritable, hsent⟩
  · obtain ⟨part, hpart⟩ := hchain c hc
    exact (chainStatement_eq_ok hpart).1
  · obtain ⟨part, hpart⟩ := hchain c hc
    exact (chainStatement_eq_ok hpart).2.1

/-! ## What is merged -/

variable (N) in
/-- What is merged for the nodes, by their labels. -/
def nodeItems (kb : Knowledge Obj) (gotchas mappings failures actions : List (PyVal Obj)) :
    List (String × List (Pattern (PyVal Obj) × Sets (PyVal Obj))) := [
  ("Zone", kb.zones.map fun i => N.itemOf "Zone" "name" i.1 (zoneParams i.2)),
  ("Leaf", kb.leafs.map fun i => N.itemOf "Leaf" "name" i.1 (leafParams i.2)),
  ("Asset", kb.assets.map fun i => N.itemOf "Asset" "ip" i.1 (assetRow i.2)),
  ("Sid", kb.sids.map fun i => N.itemOf "Sid" "sid" i.1 (sidParams i.2)),
  ("KillChain", kb.killChains.map fun c =>
    N.itemOf "KillChain" "name" (.str c.name) (chainParams c)),
  ("Baseline", kb.baselines.patterns.map fun b =>
    N.itemOf "Baseline" "name" (.str b.name) (patternParams b)),
  ("KnowledgeMeta", [N.itemOf "KnowledgeMeta" "key" (.str (u "baseline_constants"))
    (constantsParams kb.baselines)]),
  ("ApiEndpoint", kb.enforcementPlane.endpointContracts.map fun i =>
    N.itemOf "ApiEndpoint" "endpoint" i.1 [("description", i.2)]),
  ("Gotcha", gotchas.zipIdx.map fun x => N.itemOf "Gotcha" "idx" (.int x.2) [("text", x.1)]),
  ("FieldMapping", mappings.zipIdx.map fun x =>
    N.itemOf "FieldMapping" "idx" (.int x.2) (fieldParams MAPPING_FIELDS x.1)),
  ("FailureMode", failures.map fun fm => N.itemOf "FailureMode" "name"
    ((field "name" fm).getD .none) (fieldParams FAILURE_FIELDS fm)),
  ("KnowledgeMeta", [N.itemOf "KnowledgeMeta" "key" (.str (u "rbac_contract"))
    [("text", kb.enforcementPlane.rbacContract)]]),
  ("NeverBlockEntry", kb.invariants.neverBlockCidrs.map fun c =>
    N.itemOf "NeverBlockEntry" "cidr" c [("rationale", N.rationaleOf kb.invariants c)]),
  ("KnowledgeMeta", [N.itemOf "KnowledgeMeta" "key" (.str (u "agent_invariants"))
    (invariantParams kb.invariants actions)])]

section

variable {p : Parts Obj} {kb : Knowledge Obj}
  {gotchas mappings failures actions : List (PyVal Obj)}

/-- The nodes that the statements merge. -/
theorem merged_all (h : p.Of N kb gotchas mappings failures actions) (l : String) :
    merged l (p.all N kb actions) = (N.nodeItems kb gotchas mappings failures actions).flatMap
      fun x => if x.1 = l then x.2 else [] := by
  obtain ⟨hparts, -⟩ := h.spec
  have hleafs : merged l p.leafs.flatten = if "Leaf" = l then
      kb.leafs.map fun i => N.itemOf "Leaf" "name" i.1 (leafParams i.2) else [] :=
    merged_flatten_nodes l "Leaf" "name" ((mapM_eq_ok.mp h.leafs).imp fun i part hpart =>
      ⟨_, onlyEdges_map, (leafStatement_eq_ok hpart).2⟩)
  have hassets : merged l p.assets.flatten = if "Asset" = l then
      kb.assets.map fun i => N.itemOf "Asset" "ip" i.1 (assetRow i.2) else [] :=
    merged_flatten_nodes l "Asset" "ip" ((mapM_eq_ok.mp h.assets).imp fun i part hpart =>
      ⟨_, onlyEdges_singleton, (assetStatement_eq_ok hpart).2.2⟩)
  have hchains : merged l p.chains.flatten = if "KillChain" = l then
      kb.killChains.map fun c => N.itemOf "KillChain" "name" (.str c.name) (chainParams c)
      else [] :=
    merged_flatten_nodes l "KillChain" "name" ((mapM_eq_ok.mp h.chains).imp fun c part hpart =>
      ⟨_, onlyEdges_signals c, (chainStatement_eq_ok hpart).2.2⟩)
  have hpolicy : merged l (N.policyStatements kb.policyMatrix) = [] :=
    merged_edges l onlyEdges_map
  have hone (value : PyVal Obj) (params : Params Obj) :
      merged l [N.nodeStatement "KnowledgeMeta" "key" value params] =
        if "KnowledgeMeta" = l then [N.itemOf "KnowledgeMeta" "key" value params] else [] :=
    merged_nodes l "KnowledgeMeta" "key" (fun _ : Unit => value) (fun _ => params) [()]
  have hnil : merged l ([] : Script Obj) = [] := rfl
  unfold Parts.all Parts.rest
  simp only [List.flatten_cons, List.flatten_nil, merged_append, hnil, hleafs, hassets, hchains,
    hpolicy, hone, hparts.zones, hparts.sids, hparts.patterns, hparts.contracts, hparts.gotchas,
    hparts.mappings, hparts.failures, hparts.neverBlock, merged_nodes]
  simp only [nodeItems, List.flatMap_cons, List.flatMap_nil, List.append_nil, List.append_assoc]

/-! ## Edges -/

/-- The edges that the statements merge. -/
theorem mem_edges_all (h : p.Of N kb gotchas mappings failures actions)
    {s t : Pattern (PyVal Obj)} {type : String} {keys : List (String × PyVal Obj)}
    {sets : Sets (PyVal Obj)} (hmem : .mergeEdge s t type keys sets ∈ p.all N kb actions) :
    type = "ENFORCES" ∨ type = "MEMBER_OF" ∨
      (∃ i ∈ kb.policyMatrix, Statement.mergeEdge s t type keys sets =
        N.edgeStatement ⟨"Zone", "name", i.1.1⟩ ⟨"Zone", "name", i.1.2⟩ (relOf i.2) [] []) ∨
      ∃ c ∈ kb.killChains, ∃ stage ∈ c.stages, ∃ sid ∈ stage.expectedSignals,
        Statement.mergeEdge s t type keys sets = N.signal c stage sid := by
  obtain ⟨hparts, -⟩ := h.spec
  have hno {A : Type} {label key : String} {value : A → PyVal Obj} {params : A → Params Obj}
      {xs : List A} : Statement.mergeEdge s t type keys sets ∉
        xs.map fun x => N.nodeStatement label key (value x) (params x) := by
    intro hx
    obtain ⟨x, -, hx⟩ := List.mem_map.mp hx
    cases hx
  have hnode {label key : String} {value : PyVal Obj} {params : Params Obj} :
      Statement.mergeEdge s t type keys sets ≠ N.nodeStatement label key value params := by
    intro hx
    cases hx
  simp only [Parts.all, Parts.rest, List.flatten_cons, List.flatten_nil, List.append_nil,
    List.mem_append, or_assoc] at hmem
  rcases hmem with hmem | hmem | hmem | hmem | hmem | hmem | hmem | hmem | hmem | hmem | hmem |
    hmem | hmem | hmem | hmem
  · rw [hparts.zones] at hmem
    exact absurd hmem hno
  · obtain ⟨part, hpart, hmem⟩ := List.mem_flatten.mp hmem
    obtain ⟨i, -, hi⟩ := exists_of_mem_mapM_ok h.leafs hpart
    rw [(leafStatement_eq_ok hi).2] at hmem
    obtain ⟨zone, -, hzone⟩ := List.mem_map.mp ((List.mem_cons.mp hmem).resolve_left hnode)
    cases hzone
    exact .inl rfl
  · obtain ⟨part, hpart, hmem⟩ := List.mem_flatten.mp hmem
    obtain ⟨i, -, hi⟩ := exists_of_mem_mapM_ok h.assets hpart
    rw [(assetStatement_eq_ok hi).2.2] at hmem
    cases List.mem_singleton.mp ((List.mem_cons.mp hmem).resolve_left hnode)
    exact .inr (.inl rfl)
  · obtain ⟨i, hi, heq⟩ := List.mem_map.mp hmem
    exact .inr (.inr (.inl ⟨i, hi, heq.symm⟩))
  · rw [hparts.sids] at hmem
    exact absurd hmem hno
  · obtain ⟨part, hpart, hmem⟩ := List.mem_flatten.mp hmem
    obtain ⟨c, hc, hi⟩ := exists_of_mem_mapM_ok h.chains hpart
    rw [(chainStatement_eq_ok hi).2.2] at hmem
    obtain ⟨stage, hstage, hmem⟩ :=
      List.mem_flatMap.mp ((List.mem_cons.mp hmem).resolve_left hnode)
    obtain ⟨sid, hsid, heq⟩ := List.mem_map.mp hmem
    exact .inr (.inr (.inr ⟨c, hc, stage, hstage, sid, hsid, heq.symm⟩))
  · rw [hparts.patterns] at hmem
    exact absurd hmem hno
  · exact absurd (List.mem_singleton.mp hmem) hnode
  · rw [hparts.contracts] at hmem
    exact absurd hmem hno
  · rw [hparts.gotchas] at hmem
    exact absurd hmem hno
  · rw [hparts.mappings] at hmem
    exact absurd hmem hno
  · rw [hparts.failures] at hmem
    exact absurd hmem hno
  · exact absurd (List.mem_singleton.mp hmem) hnode
  · rw [hparts.neverBlock] at hmem
    exact absurd hmem hno
  · exact absurd (List.mem_singleton.mp hmem) hnode

/-- What is merged for a node is set under clean names, which are not those that edges go by. -/
theorem exists_item {x : String × List (Pattern (PyVal Obj) × Sets (PyVal Obj))}
    (hx : x ∈ N.nodeItems kb gotchas mappings failures actions)
    {i : Pattern (PyVal Obj) × Sets (PyVal Obj)} (hi : i ∈ x.2) :
    ∃ (value : PyVal Obj) (key : String) (params : Params Obj),
      i = N.itemOf x.1 key value params ∧ CleanNames key params ∧
        "name" ∉ params.map Prod.fst ∧ "sid" ∉ params.map Prod.fst := by
  simp only [nodeItems, List.mem_cons, List.not_mem_nil, or_false] at hx
  rcases hx with rfl | rfl | rfl | rfl | rfl | rfl | rfl | rfl | rfl | rfl | rfl | rfl | rfl | rfl
  all_goals
    first
      | obtain ⟨a, -, hi⟩ := List.mem_map.mp hi
        refine ⟨_, _, _, hi.symm, ?_, ?_, ?_⟩ <;>
          simp [CleanNames, zoneParams, leafParams, assetRow, assetParams, sidParams, chainParams,
            patternParams, fieldParams, MAPPING_FIELDS, FAILURE_FIELDS]
      | refine ⟨_, _, _, List.mem_singleton.mp hi, ?_, ?_, ?_⟩ <;>
          simp [CleanNames, constantsParams, invariantParams]

/-- No node is given a name or a number of a signature. -/
theorem unset_all (h : p.Of N kb gotchas mappings failures actions) {key : String}
    (hkey : key = "name" ∨ key = "sid") : Unset key (p.all N kb actions) := by
  intro m sets hm
  have hmem : (m, sets) ∈ merged m.label (p.all N kb actions) :=
    List.mem_filterMap.mpr ⟨_, hm, if_pos rfl⟩
  rw [merged_all h] at hmem
  obtain ⟨x, hx, hmem⟩ := List.mem_flatMap.mp hmem
  have hitem : (m, sets) ∈ x.2 := by
    split_ifs at hmem
    · exact hmem
    · exact absurd hmem List.not_mem_nil
  obtain ⟨value, key', params, heq, -, hname, hsid⟩ := exists_item hx hitem
  rw [(Prod.mk.inj heq).2, names_setsOf]
  rcases hkey with rfl | rfl
  · simpa using hname
  · simpa using hsid

end

end Neo4j

end ControlPlane.Know
