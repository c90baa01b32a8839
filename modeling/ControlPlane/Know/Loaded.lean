import ControlPlane.Know.Accepted
import ControlPlane.Know.Script

/-!
# What a reload leaves

The graph after a reload (`loaded_of_reload`): for each label the nodes that the statements merge,
and of the edges that are read those between the nodes that a statement matches. This needs that
the nodes under the labels are the reload's own, as they are when it was the only one to write them
(`owned_of_reload`).
-/

namespace ControlPlane.Know

open JsonText PropertyGraph

variable {Obj : Type}

/-- The labels of the nodes that a reload writes. -/
def LABELS : List String := ["Zone", "Leaf", "Asset", "Sid", "KillChain", "Baseline",
  "KnowledgeMeta", "ApiEndpoint", "Gotcha", "FieldMapping", "FailureMode", "NeverBlockEntry"]

/-- The nodes under these labels are those of a reload. -/
def Owned (g : Graph (PyVal Obj)) : Prop :=
  ∀ n ∈ g.nodes, (∃ l ∈ LABELS, l ∈ n.labels) → Neo4j.managed n.props = true

namespace Neo4j

variable {N : Neo4j Obj}

/-- The graph without what an earlier reload has written. -/
def wiped (g : Graph (PyVal Obj)) : Graph (PyVal Obj) := g.detachDelete fun n => managed n.props

theorem notMem_labels_wiped {g : Graph (PyVal Obj)} (hg : Owned g) {l : String} (hl : l ∈ LABELS) :
    ∀ n ∈ (wiped g).nodes, l ∉ n.labels := by
  intro n hn hmem
  obtain ⟨hn, hkept⟩ := List.mem_filter.mp hn
  have hmanaged := hg n hn ⟨l, hl, hmem⟩
  simp [hmanaged] at hkept

variable (N) in
/-- What is merged for the nodes of a label. -/
def itemsOf (kb : Knowledge Obj) (gotchas mappings failures actions : List (PyVal Obj))
    (l : String) : List (Pattern (PyVal Obj) × Sets (PyVal Obj)) :=
  (N.nodeItems kb gotchas mappings failures actions).flatMap fun x => if x.1 = l then x.2 else []

variable (N) in
/-- The properties of an edge of a kill chain. -/
def signalRow (s : KillChainStage) : Props (PyVal Obj) :=
  Props.fresh [("stage", .int s.stage)] (N.setsOf (stageParams s))

/-- What a reload leaves. -/
structure Loaded (N : Neo4j Obj) (kb : Knowledge Obj)
    (gotchas mappings failures actions : List (PyVal Obj)) (g : Graph (PyVal Obj)) : Prop where
  sent : AllSent N kb gotchas mappings failures actions
  gotchasList : N.toList kb.enforcementPlane.criticalGotchas = some gotchas
  mappingsList : N.toList kb.enforcementPlane.fieldNameMapping = some mappings
  failuresList : N.toList kb.enforcementPlane.failureModes = some failures
  actionsList : N.sortedItems kb.invariants.allowedAgentActions = some actions
  rows : ∀ l ∈ LABELS, g.rows l = built N.equal (N.itemsOf kb gotchas mappings failures actions l)
  /-- An edge for a verdict is one of the matrix. -/
  of_verdict : ∀ rel, rel = "ALLOW" ∨ rel = "DENY" → ∀ path ∈ g.paths "Zone" rel "Zone",
    path.1 ∈ g.rows "Zone" ∧ path.2.2 ∈ g.rows "Zone" ∧ managed path.2.1 = true ∧
      ∃ i ∈ kb.policyMatrix, relOf i.2 = rel ∧ path.1.has N.equal "name" i.1.1 = true ∧
        path.2.2.has N.equal "name" i.1.2 = true
  /-- The matrix has its edges where it has zones. -/
  verdict : ∀ i ∈ kb.policyMatrix, ∀ p ∈ g.rows "Zone", ∀ q ∈ g.rows "Zone",
    p.has N.equal "name" i.1.1 = true → q.has N.equal "name" i.1.2 = true →
      ∃ r, (p, r, q) ∈ g.paths "Zone" (relOf i.2) "Zone"
  /-- An edge of a kill chain is that of a signal. -/
  of_signal : ∀ path ∈ g.paths "Sid" "EXPECTED_IN" "KillChain",
    path.1 ∈ g.rows "Sid" ∧ path.2.2 ∈ g.rows "KillChain" ∧
      ∃ c ∈ kb.killChains, ∃ s ∈ c.stages, ∃ sid ∈ s.expectedSignals,
        path.2.1 = N.signalRow s ∧ path.1.has N.equal "sid" (.int sid) = true ∧
          path.2.2.has N.equal "name" (.str c.name) = true
  /-- The signals have their edges where they have signatures. -/
  signal : (kb.killChains.map KillChain.name).Nodup → ∀ c ∈ kb.killChains, ∀ s ∈ c.stages,
    ∀ sid ∈ s.expectedSignals, ∀ p ∈ g.rows "Sid", ∀ q ∈ g.rows "KillChain",
      p.has N.equal "sid" (.int sid) = true → q.has N.equal "name" (.str c.name) = true →
        ∃ r, (p, r, q) ∈ g.paths "Sid" "EXPECTED_IN" "KillChain" ∧
          r.has N.equal "stage" (.int s.stage) = true
  /-- No two edges of a kill chain are one. -/
  unlike : (kb.killChains.map KillChain.name).Nodup →
    (g.paths "Sid" "EXPECTED_IN" "KillChain").Pairwise fun p q => p.1 "sid" = q.1 "sid" →
      p.2.2 "name" = q.2.2 "name" → p.2.1 "stage" ≠ q.2.1 "stage"

/-! ## The nodes -/

section

variable {p : Parts Obj} {kb : Knowledge Obj} {gotchas mappings failures actions : List (PyVal Obj)}
  {g : Graph (PyVal Obj)}

theorem rows_loaded (h : p.Of N kb gotchas mappings failures actions) (hg : Owned g) {l : String}
    (hl : l ∈ LABELS) : (run N.equal (p.all N kb actions) (wiped g)).rows l =
      built N.equal (N.itemsOf kb gotchas mappings failures actions l) := by
  rw [rows_run_of_nil (notMem_labels_wiped hg hl), merged_all h]
  rfl

/-- What is merged for a label. -/
theorem exists_of_mem_itemsOf {l : String} {x : Pattern (PyVal Obj) × Sets (PyVal Obj)}
    (hx : x ∈ N.itemsOf kb gotchas mappings failures actions l) :
    ∃ (value : PyVal Obj) (key : String) (params : Params Obj),
      x = N.itemOf l key value params ∧ CleanNames key params := by
  obtain ⟨y, hy, hx⟩ := List.mem_flatMap.mp hx
  split_ifs at hx with hl
  · obtain ⟨value, key, params, heq, hclean, -⟩ := exists_item hy hx
    exact ⟨value, key, params, hl ▸ heq, hclean⟩
  · exact absurd hx List.not_mem_nil

theorem managed_setAll {key : String} {params : Params Obj} (hc : CleanNames key params)
    (p : Props (PyVal Obj)) : managed (p.setAll (N.setsOf params)) = true := by
  have hvalue : p.setAll (N.setsOf params) "kg_managed" = some (.bool true) := by
    refine Props.setAll_of_mem ?_ List.mem_cons_self
    rw [names_setsOf]
    exact (List.nodup_cons.mp hc).2
  rw [managed, hvalue]

/-- What is merged is marked. -/
theorem managed_of_mem_built {l : String} {p : Props (PyVal Obj)}
    (hp : p ∈ built N.equal (N.itemsOf kb gotchas mappings failures actions l)) :
    managed p = true := by
  refine of_mem_built (P := fun p => managed p = true) (fun x hx => ?_) (fun x hx q _ => ?_) hp
  · obtain ⟨value, key, params, rfl, hclean⟩ := exists_of_mem_itemsOf hx
    exact managed_rowOf hclean
  · obtain ⟨value, key, params, rfl, hclean⟩ := exists_of_mem_itemsOf hx
    exact managed_setAll hclean q

/-- The nodes that a reload leaves under its labels are its own. -/
theorem owned_of_reload {g' : Graph (PyVal Obj)} {counts : Counts}
    (h : N.reloadFromModels kb g = .ok (g', counts)) (hg : Owned g) : Owned g' := by
  obtain ⟨ss, hss, h⟩ := except_bind_eq_ok h
  obtain ⟨p, gotchas, mappings, failures, actions, hp, rfl⟩ := exists_parts hss
  obtain ⟨rfl, -⟩ := Prod.mk.inj (Except.ok.inj h)
  rintro n hn ⟨l, hl, hmem⟩
  have hrow : n.props ∈ (run N.equal (p.all N kb actions) (wiped g)).rows l :=
    List.mem_map_of_mem (List.mem_filter.mpr ⟨hn, decide_eq_true hmem⟩)
  rw [rows_loaded hp hg hl] at hrow
  exact managed_of_mem_built hrow

end

/-! ## The edges -/

/-- The edges for a verdict. -/
def verdictKind (rel : String) : EdgeKind where
  type := rel
  source := "Zone"
  sourceKey := "name"
  target := "Zone"
  targetKey := "name"
  names := []
  sets := ["kg_managed"]
  nodup := List.nodup_nil
  apart _ h := absurd h List.not_mem_nil

/-- The edges of the kill chains. -/
def signalKind : EdgeKind where
  type := "EXPECTED_IN"
  source := "Sid"
  sourceKey := "sid"
  target := "KillChain"
  targetKey := "name"
  names := ["stage"]
  sets := ["kg_managed", "tactic", "indicators", "false_positive_sources"]
  nodup := List.nodup_singleton _
  apart := by decide

section

variable {p : Parts Obj} {kb : Knowledge Obj} {gotchas mappings failures actions : List (PyVal Obj)}

theorem relOf_eq (v : PyVal Obj) : relOf v = "ALLOW" ∨ relOf v = "DENY" := by
  unfold relOf
  split_ifs
  · exact .inl rfl
  · exact .inr rfl

/-- An edge for a verdict that is merged is one of the matrix. -/
theorem mem_policy_of_mem_all (h : p.Of N kb gotchas mappings failures actions) {rel : String}
    (hrel : rel = "ALLOW" ∨ rel = "DENY") {s t : Pattern (PyVal Obj)}
    {keys : List (String × PyVal Obj)} {sets : Sets (PyVal Obj)}
    (hmem : .mergeEdge s t rel keys sets ∈ p.all N kb actions) :
    ∃ i ∈ kb.policyMatrix, s = ⟨"Zone", "name", i.1.1⟩ ∧ t = ⟨"Zone", "name", i.1.2⟩ ∧
      rel = relOf i.2 ∧ keys = [] ∧ sets = N.setsOf [] := by
  rcases mem_edges_all h hmem with hother | hother | ⟨i, hi, heq⟩ | ⟨c, -, stage, -, sid, -, heq⟩
  · rcases hrel with rfl | rfl <;> simp at hother
  · rcases hrel with rfl | rfl <;> simp at hother
  · obtain ⟨hs, ht, hr, hk, hset⟩ := Statement.mergeEdge.inj heq
    exact ⟨i, hi, hs, ht, hr, hk, hset⟩
  · obtain ⟨-, -, hr, -, -⟩ := Statement.mergeEdge.inj heq
    rcases hrel with rfl | rfl <;> simp at hr

theorem merges_verdict (h : p.Of N kb gotchas mappings failures actions) {rel : String}
    (hrel : rel = "ALLOW" ∨ rel = "DENY") :
    Merges N.equal (verdictKind rel) (p.all N kb actions) where
  shape s t keys sets hmem := by
    obtain ⟨i, -, rfl, rfl, -, rfl, rfl⟩ := mem_policy_of_mem_all h hrel hmem
    exact ⟨⟨rfl, rfl⟩, ⟨rfl, rfl⟩, rfl, rfl⟩
  equal_iff s t keys sets hmem s' t' keys' sets' hmem' x hx y hy := by
    obtain ⟨i, -, -, -, -, rfl, -⟩ := mem_policy_of_mem_all h hrel hmem
    exact absurd hx List.not_mem_nil
  unsetSource := unset_all h (.inl rfl)
  unsetTarget := unset_all h (.inl rfl)

/-- An edge of a kill chain that is merged is that of a signal. -/
theorem mem_signals_of_mem_all (h : p.Of N kb gotchas mappings failures actions)
    {s t : Pattern (PyVal Obj)} {keys : List (String × PyVal Obj)} {sets : Sets (PyVal Obj)}
    (hmem : .mergeEdge s t "EXPECTED_IN" keys sets ∈ p.all N kb actions) :
    ∃ c ∈ kb.killChains, ∃ stage ∈ c.stages, ∃ sid ∈ stage.expectedSignals,
      s = ⟨"Sid", "sid", .int sid⟩ ∧ t = ⟨"KillChain", "name", .str c.name⟩ ∧
        keys = [("stage", .int stage.stage)] ∧ sets = N.setsOf (stageParams stage) := by
  rcases mem_edges_all h hmem with hother | hother | ⟨i, -, heq⟩ |
    ⟨c, hc, stage, hstage, sid, hsid, heq⟩
  · simp at hother
  · simp at hother
  · obtain ⟨-, -, hr, -, -⟩ := Statement.mergeEdge.inj heq
    rcases relOf_eq i.2 with hrel | hrel <;> simp [hrel] at hr
  · obtain ⟨hs, ht, -, hk, hset⟩ := Statement.mergeEdge.inj heq
    exact ⟨c, hc, stage, hstage, sid, hsid, hs, ht, hk, hset⟩

theorem merges_signal (h : p.Of N kb gotchas mappings failures actions) :
    Merges N.equal signalKind (p.all N kb actions) where
  shape s t keys sets hmem := by
    obtain ⟨c, -, stage, -, sid, -, rfl, rfl, rfl, rfl⟩ := mem_signals_of_mem_all h hmem
    exact ⟨⟨rfl, rfl⟩, ⟨rfl, rfl⟩, rfl, names_setsOf _⟩
  equal_iff s t keys sets hmem s' t' keys' sets' hmem' x hx y hy := by
    obtain ⟨c, -, stage, -, sid, -, -, -, rfl, -⟩ := mem_signals_of_mem_all h hmem
    obtain ⟨c', -, stage', -, sid', -, -, -, rfl, -⟩ := mem_signals_of_mem_all h hmem'
    rw [List.mem_singleton.mp hx, List.mem_singleton.mp hy, N.equal_int, PyVal.int.injEq]
  unsetSource := unset_all h (.inr rfl)
  unsetTarget := unset_all h (.inl rfl)

/-- A statement of the matrix is behind those for the zones. -/
theorem exists_split_policy (h : p.Of N kb gotchas mappings failures actions)
    {i : (PyVal Obj × PyVal Obj) × PyVal Obj} (hi : i ∈ kb.policyMatrix) :
    ∃ ss tt, p.all N kb actions = ss ++ N.edgeStatement ⟨"Zone", "name", i.1.1⟩
        ⟨"Zone", "name", i.1.2⟩ (relOf i.2) [] [] :: tt ∧
      ∀ z ∈ kb.zones, N.nodeStatement "Zone" "name" z.1 (zoneParams z.2) ∈ ss := by
  obtain ⟨before, after, hmatrix⟩ := List.append_of_mem hi
  obtain ⟨hparts, -⟩ := h.spec
  refine ⟨p.zones ++ p.leafs.flatten ++ p.assets.flatten ++ N.policyStatements before,
    N.policyStatements after ++ p.sids ++ p.chains.flatten ++ p.rest N kb actions, ?_,
    fun z hz => ?_⟩
  · simp [Parts.all, policyStatements, hmatrix]
  · rw [hparts.zones]
    simp only [List.append_assoc]
    exact List.mem_append_left _ (List.mem_map_of_mem hz)

/-- A statement of a kill chain is behind those for the signatures and for the chain. -/
theorem exists_split_signal (h : p.Of N kb gotchas mappings failures actions) {c : KillChain}
    (hc : c ∈ kb.killChains) {s : KillChainStage} (hs : s ∈ c.stages) {sid : ℤ}
    (hsid : sid ∈ s.expectedSignals) :
    ∃ ss tt, p.all N kb actions = ss ++ N.signal c s sid :: tt ∧
      (∀ d ∈ kb.sids, N.nodeStatement "Sid" "sid" d.1 (sidParams d.2) ∈ ss) ∧
      N.nodeStatement "KillChain" "name" (.str c.name) (chainParams c) ∈ ss := by
  obtain ⟨hparts, -⟩ := h.spec
  obtain ⟨part, hpart, hchain⟩ := exists_mem_of_mapM_ok h.chains hc
  obtain ⟨-, -, rfl⟩ := chainStatement_eq_ok hchain
  obtain ⟨before, after, hchains⟩ := List.append_of_mem hpart
  have hmem : N.signal c s sid ∈ N.signals c :=
    List.mem_flatMap.mpr ⟨s, hs, List.mem_map_of_mem hsid⟩
  obtain ⟨first, last, hsignals⟩ := List.append_of_mem hmem
  refine ⟨p.zones ++ p.leafs.flatten ++ p.assets.flatten ++ N.policyStatements kb.policyMatrix ++
    p.sids ++ before.flatten ++
      N.nodeStatement "KillChain" "name" (.str c.name) (chainParams c) :: first,
    last ++ after.flatten ++ p.rest N kb actions, ?_, fun d hd => ?_, by simp⟩
  · simp [Parts.all, hchains, hsignals]
  · have hnode : N.nodeStatement "Sid" "sid" d.1 (sidParams d.2) ∈ p.sids := by
      rw [hparts.sids]
      exact List.mem_map_of_mem hd
    simp [hnode]

theorem itemsOf_zone : N.itemsOf kb gotchas mappings failures actions "Zone" =
    kb.zones.map fun i => N.itemOf "Zone" "name" i.1 (zoneParams i.2) := by
  simp [itemsOf, nodeItems]

theorem itemsOf_leaf : N.itemsOf kb gotchas mappings failures actions "Leaf" =
    kb.leafs.map fun i => N.itemOf "Leaf" "name" i.1 (leafParams i.2) := by
  simp [itemsOf, nodeItems]

theorem itemsOf_asset : N.itemsOf kb gotchas mappings failures actions "Asset" =
    kb.assets.map fun i => N.itemOf "Asset" "ip" i.1 (assetRow i.2) := by
  simp [itemsOf, nodeItems]

theorem itemsOf_sid : N.itemsOf kb gotchas mappings failures actions "Sid" =
    kb.sids.map fun i => N.itemOf "Sid" "sid" i.1 (sidParams i.2) := by
  simp [itemsOf, nodeItems]

theorem itemsOf_killChain : N.itemsOf kb gotchas mappings failures actions "KillChain" =
    kb.killChains.map fun c => N.itemOf "KillChain" "name" (.str c.name) (chainParams c) := by
  simp [itemsOf, nodeItems]

theorem itemsOf_baseline : N.itemsOf kb gotchas mappings failures actions "Baseline" =
    kb.baselines.patterns.map fun b =>
      N.itemOf "Baseline" "name" (.str b.name) (patternParams b) := by
  simp [itemsOf, nodeItems]

/-- The nodes that are there once, by their keys. -/
def metaNodes (kb : Knowledge Obj) (actions : List (PyVal Obj)) : List (String × Params Obj) := [
  ("baseline_constants", constantsParams kb.baselines),
  ("rbac_contract", [("text", kb.enforcementPlane.rbacContract)]),
  ("agent_invariants", invariantParams kb.invariants actions)]

theorem itemsOf_meta : N.itemsOf kb gotchas mappings failures actions "KnowledgeMeta" =
    (metaNodes kb actions).map fun m => N.itemOf "KnowledgeMeta" "key" (.str (u m.1)) m.2 := by
  simp [itemsOf, nodeItems, metaNodes]

/-- Nodes whose values are different keys of Python do not match one value. -/
theorem pairwise_items {A : Type} {l key : String} {value : A → PyVal Obj} {params : A → Params Obj}
    {xs : List A} (hstored : ∀ x ∈ xs, N.stored (value x) = value x)
    (hdiff : xs.Pairwise fun x y => N.same (value x) (value y) = false) :
    (xs.map fun x => N.itemOf l key (value x) (params x)).Pairwise fun x y =>
      ∀ v, N.equal x.1.value v = true → N.equal y.1.value v = false := by
  refine List.pairwise_map.mpr (hdiff.imp_of_mem fun {x y} hx hy hxy v hxv => ?_)
  rw [← Bool.not_eq_true]
  intro hyv
  have hx' : N.same (value x) v = true := hstored x hx ▸ N.same_of_equal hxv
  have hy' : N.same (value y) v = true := hstored y hy ▸ N.same_of_equal hyv
  rw [N.same_equiv.trans hx' (N.same_equiv.symm hy')] at hxy
  exact Bool.noConfusion hxy

theorem byKey_items {A : Type} {l key : String} {value : A → PyVal Obj} {params : A → Params Obj}
    (hclean : ∀ x, CleanNames key (params x)) (xs : List A) :
    ByKey key (xs.map fun x => N.itemOf l key (value x) (params x)) := by
  intro i hi
  obtain ⟨x, -, rfl⟩ := List.mem_map.mp hi
  refine ⟨rfl, ?_⟩
  show key ∉ (N.setsOf (params x)).map Prod.fst
  rw [names_setsOf]
  exact (List.nodup_cons.mp (hclean x)).1

theorem cleanNames_zone (z : Zone) : CleanNames "name" (zoneParams z : Params Obj) := by
  simp [CleanNames, zoneParams]

theorem cleanNames_leaf (l : Leaf) : CleanNames "name" (leafParams l : Params Obj) := by
  simp [CleanNames, leafParams]

theorem cleanNames_pattern (b : TrafficPattern) :
    CleanNames "name" (patternParams b : Params Obj) := by
  simp [CleanNames, patternParams]

theorem cleanNames_sid (d : SidDetection) : CleanNames "sid" (sidParams d : Params Obj) := by
  simp [CleanNames, sidParams]

theorem cleanNames_chain (c : KillChain) : CleanNames "name" (chainParams c : Params Obj) := by
  simp [CleanNames, chainParams]

end

end Neo4j

/-- The keys of models are no lists. -/
theorem Keyed.stored_eq {A B : Type} {N : Neo4j Obj} {as : PyVal Obj → Option B} {of : A → B}
    {items : List (PyVal Obj × A)} (h : Keyed N.toPython as of items)
    (has : ∀ frozen xs, as (.seq frozen xs) = none) {i : PyVal Obj × A} (hi : i ∈ items) :
    N.stored i.1 = i.1 := by
  refine Neo4j.stored_of_scalar fun frozen xs heq => ?_
  have hkey := h.key i hi
  rw [heq, has] at hkey
  cases hkey

namespace Neo4j

variable {N : Neo4j Obj} {p : Parts Obj} {kb : Knowledge Obj}
  {gotchas mappings failures actions : List (PyVal Obj)} {g : Graph (PyVal Obj)}

/-- A row that matches is that of a statement. -/
theorem exists_of_mem_rows {A : Type} {l key : String} {value : A → PyVal Obj}
    {params : A → Params Obj} {xs : List A} {ss : Script Obj}
    (hl : ∀ n ∈ g.nodes, l ∉ n.labels) (hclean : ∀ x, CleanNames key (params x))
    (hmerged : merged l ss = xs.map fun x => N.itemOf l key (value x) (params x))
    {q : Props (PyVal Obj)} (hq : q ∈ (run N.equal ss g).rows l) {v : PyVal Obj}
    (hv : q.has N.equal key v = true) : ∃ x ∈ xs, N.equal (N.stored (value x)) v = true := by
  rw [rows_run_of_nil hl, hmerged] at hq
  obtain ⟨i, hi, hvalue⟩ := exists_of_mem_built (byKey_items hclean xs) hq
  obtain ⟨x, hx, rfl⟩ := List.mem_map.mp hi
  rw [Props.has, hvalue] at hv
  exact ⟨x, hx, hv⟩

/-- Nothing more is created for a pattern behind the statements for the nodes. -/
theorem notCreated_of_split {A : Type} {l key : String} {value : A → PyVal Obj}
    {params : A → Params Obj} {xs : List A} {ss tt : Script Obj} {st : Statement (PyVal Obj)}
    (hmerged : merged l (ss ++ st :: tt) = xs.map fun x => N.itemOf l key (value x) (params x))
    (hstored : ∀ x ∈ xs, N.stored (value x) = value x)
    (hdiff : xs.Pairwise fun x y => N.same (value x) (value y) = false) {x : A}
    (hx : N.nodeStatement l key (value x) (params x) ∈ ss) {v : PyVal Obj}
    (hv : N.equal (N.stored (value x)) v = true) : NotCreated N.equal ⟨l, key, v⟩ tt := by
  have hkey : ∀ i ∈ merged l (ss ++ st :: tt), i.1.key = key := by
    rw [hmerged]
    intro i hi
    obtain ⟨y, -, rfl⟩ := List.mem_map.mp hi
    rfl
  have hapart : (merged l (ss ++ st :: tt)).Pairwise fun i j =>
      ∀ v, N.equal i.1.value v = true → N.equal j.1.value v = false := by
    rw [hmerged]
    exact pairwise_items hstored hdiff
  have hmem : .mergeNode (N.itemOf l key (value x) (params x)).1
      (N.itemOf l key (value x) (params x)).2 ∈ ss := hx
  exact NotCreated.of_merged hkey hapart hmem rfl hv

/-- Keys that are different in Python are merged to a node each. -/
theorem built_of_distinct {A : Type} {l key : String} {value : A → PyVal Obj}
    {params : A → Params Obj} {xs : List A} (hclean : ∀ x, CleanNames key (params x))
    (hstored : ∀ x ∈ xs, N.stored (value x) = value x)
    (hdiff : xs.Pairwise fun x y => N.same (value x) (value y) = false) :
    built N.equal (xs.map fun x => N.itemOf l key (value x) (params x)) =
      xs.map fun x => N.rowOf key (value x) (params x) := by
  rw [built_of_different (byKey_items hclean xs), List.map_map]
  · rfl
  · refine List.pairwise_map.mpr (hdiff.imp_of_mem fun {x y} hx hy hxy => ?_)
    rw [← Bool.not_eq_true]
    intro heq
    have hsame : N.same (value x) (value y) = true := by
      have h : N.same (N.stored (value x)) (N.stored (value y)) = true := N.same_of_equal heq
      rwa [hstored x hx, hstored y hy] at h
    rw [hsame] at hxy
    exact Bool.noConfusion hxy

/-- The values of these nodes are different ones. -/
theorem nodup_rows {A : Type} {key : String} {value : A → PyVal Obj} {params : A → Params Obj}
    {xs : List A} (hclean : ∀ x, CleanNames key (params x))
    (hstored : ∀ x ∈ xs, N.stored (value x) = value x)
    (hdiff : xs.Pairwise fun x y => N.same (value x) (value y) = false) :
    ((xs.map fun x => N.rowOf key (value x) (params x)).map fun p => p key).Nodup := by
  rw [List.map_map]
  refine List.pairwise_map.mpr (hdiff.imp_of_mem fun {x y} hx hy hxy heq => ?_)
  have hvalue : value x = value y := by
    have hkeys : N.rowOf key (value x) (params x) key = N.rowOf key (value y) (params y) key := heq
    rw [rowOf_key (hclean x), rowOf_key (hclean y), hstored x hx, hstored y hy] at hkeys
    exact Option.some.inj hkeys
  rw [hvalue, N.same_equiv.refl] at hxy
  exact Bool.noConfusion hxy

theorem pairwise_texts {A : Type} {name : A → PyStr} {xs : List A} (hnd : (xs.map name).Nodup) :
    xs.Pairwise fun x y => N.same (.str (name x)) (.str (name y)) = false := by
  refine (List.pairwise_map.mp hnd).imp fun {x y} hne => ?_
  rw [← Bool.not_eq_true, N.same_str]
  exact hne

/-- The graph that a reload leaves. -/
theorem loaded_of_parts (h : p.Of N kb gotchas mappings failures actions) (hg : Owned g)
    (hkb : Accepted N.toPython kb) :
    Loaded N kb gotchas mappings failures actions (run N.equal (p.all N kb actions) (wiped g)) := by
  have hno {l : String} (hl : l ∈ LABELS) := notMem_labels_wiped hg hl
  have hlabelZone : "Zone" ∈ LABELS := by decide
  have hlabelSid : "Sid" ∈ LABELS := by decide
  have hlabelChain : "KillChain" ∈ LABELS := by decide
  have hzones : merged "Zone" (p.all N kb actions) =
      kb.zones.map fun i => N.itemOf "Zone" "name" i.1 (zoneParams i.2) :=
    (merged_all h "Zone").trans itemsOf_zone
  have hsids : merged "Sid" (p.all N kb actions) =
      kb.sids.map fun i => N.itemOf "Sid" "sid" i.1 (sidParams i.2) :=
    (merged_all h "Sid").trans itemsOf_sid
  have hchains : merged "KillChain" (p.all N kb actions) =
      kb.killChains.map fun c => N.itemOf "KillChain" "name" (.str c.name) (chainParams c) :=
    (merged_all h "KillChain").trans itemsOf_killChain
  have hzone {z : PyVal Obj × Zone} (hz : z ∈ kb.zones) : N.stored z.1 = z.1 :=
    hkb.zones.stored_eq N.asStr_seq hz
  have hsid {d : PyVal Obj × SidDetection} (hd : d ∈ kb.sids) : N.stored d.1 = d.1 :=
    hkb.sids.stored_eq N.asInt_seq hd
  obtain ⟨-, hsent⟩ := h.spec
  refine ⟨hsent, h.gotchasList, h.mappingsList, h.failuresList, h.actionsList,
    fun l hl => rows_loaded h hg hl, ?_, ?_, ?_, ?_, ?_⟩
  · -- A verdict that is read.
    intro rel hrel path hpath
    obtain ⟨hsource, htarget, s, t, keys, sets, hst, hprops, hs, ht⟩ :=
      exists_of_mem_paths (hno hlabelZone) (merges_verdict h hrel) hpath
    obtain ⟨i, hi, rfl, rfl, hr, rfl, rfl⟩ := mem_policy_of_mem_all h hrel hst
    refine ⟨hsource, htarget, ?_, i, hi, hr.symm, hs, ht⟩
    rw [hprops]
    rfl
  · -- A verdict that is merged.
    intro i hi q hq r hr hqi hri
    obtain ⟨z, hz, hzq⟩ := exists_of_mem_rows (hno hlabelZone)
      (fun z => cleanNames_zone (Prod.snd z)) hzones hq hqi
    obtain ⟨w, hw, hwr⟩ := exists_of_mem_rows (hno hlabelZone)
      (fun z => cleanNames_zone (Prod.snd z)) hzones hr hri
    obtain ⟨ss, tt, hall, hbefore⟩ := exists_split_policy h hi
    have hkind := merges_verdict h (relOf_eq i.2)
    rw [hall] at hq hr hkind hzones ⊢
    obtain ⟨e, he, -⟩ := exists_path hkind
      (notCreated_of_split hzones (fun z hz => hzone hz) hkb.zones.distinct (hbefore z hz) hzq)
      (notCreated_of_split hzones (fun z hz => hzone hz) hkb.zones.distinct (hbefore w hw) hwr)
      hq hr hqi hri
    exact ⟨e, he⟩
  · -- A signal that is read.
    intro path hpath
    obtain ⟨hsource, htarget, s, t, keys, sets, hst, hprops, hs, ht⟩ :=
      exists_of_mem_paths (hno hlabelSid) (merges_signal h) hpath
    obtain ⟨c, hc, stage, hstage, sid, hsid, rfl, rfl, rfl, rfl⟩ := mem_signals_of_mem_all h hst
    exact ⟨hsource, htarget, c, hc, stage, hstage, sid, hsid, hprops, hs, ht⟩
  · -- A signal that is merged.
    intro hnd c hc s hs sid hsid' q hq r hr hqi hri
    obtain ⟨d, hd, hdq⟩ := exists_of_mem_rows (hno hlabelSid) (fun d => cleanNames_sid (Prod.snd d))
      hsids hq hqi
    obtain ⟨ss, tt, hall, hbefore, hchain⟩ := exists_split_signal h hc hs hsid'
    have hkind := merges_signal h
    rw [hall] at hq hr hkind hsids hchains ⊢
    have hself : N.equal (N.stored (.str c.name)) (.str c.name) = true := by
      rw [stored_of_scalar (by simp), N.equal_str]
    obtain ⟨e, he, hvalues⟩ := exists_path hkind
      (notCreated_of_split hsids (fun d hd => hsid hd) hkb.sids.distinct (hbefore d hd) hdq)
      (notCreated_of_split hchains (fun c _ => stored_of_scalar (by simp)) (pairwise_texts hnd)
        hchain hself)
      hq hr hqi hri
    exact ⟨e, he, hvalues _ (List.mem_singleton_self _)⟩
  · -- No two edges are one.
    intro hnd
    have hsource : (((run N.equal (p.all N kb actions) (wiped g)).rows "Sid").map fun q =>
        q "sid").Nodup := by
      rw [rows_run_of_nil (hno hlabelSid), hsids,
        built_of_distinct (fun d => cleanNames_sid (Prod.snd d)) (fun d hd => hsid hd)
          hkb.sids.distinct]
      exact nodup_rows (fun d => cleanNames_sid (Prod.snd d)) (fun d hd => hsid hd)
        hkb.sids.distinct
    have htarget : (((run N.equal (p.all N kb actions) (wiped g)).rows "KillChain").map fun q =>
        q "name").Nodup := by
      rw [rows_run_of_nil (hno hlabelChain), hchains,
        built_of_distinct cleanNames_chain (fun c _ => stored_of_scalar (by simp))
          (pairwise_texts hnd)]
      exact nodup_rows cleanNames_chain (fun c _ => stored_of_scalar (by simp))
        (pairwise_texts hnd)
    refine (pairwise_paths (hno hlabelSid) (merges_signal h) hsource htarget).imp
      fun {q r} hqr hs ht hstage => ?_
    refine hqr hs ht fun name hname => ?_
    rw [List.mem_singleton.mp hname]
    exact hstage

/-- What a reload leaves, when no statement fails and nothing is raised. -/
theorem loaded_of_reload {g' : Graph (PyVal Obj)} {counts : Counts}
    (h : N.reloadFromModels kb g = .ok (g', counts)) (hg : Owned g)
    (hkb : Accepted N.toPython kb) :
    ∃ gotchas mappings failures actions, Loaded N kb gotchas mappings failures actions g' := by
  obtain ⟨ss, hss, h⟩ := except_bind_eq_ok h
  obtain ⟨p, gotchas, mappings, failures, actions, hp, rfl⟩ := exists_parts hss
  obtain ⟨rfl, -⟩ := Prod.mk.inj (Except.ok.inj h)
  exact ⟨gotchas, mappings, failures, actions, loaded_of_parts hp hg hkb⟩

end Neo4j

end ControlPlane.Know
