import ControlPlane.Know.Plane

/-!
# The round trip through the graph

The knowledge base that the files are parsed to is what is read back after it was reloaded into the
graph, up to the order of what is listed in no order, exactly when it is `Recoverable`
(`readAll_reload_iff`). This is so after any run of reloads: nothing of an earlier knowledge base is
left.
-/

namespace ControlPlane.Know

open JsonText PropertyGraph

variable {Obj : Type}

namespace Neo4j

variable {N : Neo4j Obj} {kb : Knowledge Obj} {gotchas mappings failures actions : List (PyVal Obj)}
  {g : Graph (PyVal Obj)} {q : Answers Obj}

/-- What is read of a graph that was reloaded is the knowledge base when it is recoverable. -/
theorem Loaded.readAll_iff (h : Loaded N kb gotchas mappings failures actions g)
    (hkb : Accepted N.toPython kb) (hq : N.AnswersOf g q) :
    (∃ kb', N.readAll q = .ok kb' ∧ SameKnowledge N.toPython kb kb') ↔ N.Recoverable kb := by
  constructor
  · rintro ⟨kb', hread, hsame⟩
    unfold Python.readAll at hread
    obtain ⟨zones, -, hread⟩ := except_bind_eq_ok hread
    obtain ⟨assets, hassets, hread⟩ := except_bind_eq_ok hread
    obtain ⟨leafs, -, hread⟩ := except_bind_eq_ok hread
    obtain ⟨baselines, hbaselines, hread⟩ := except_bind_eq_ok hread
    obtain ⟨matrix, hmatrix, hread⟩ := except_bind_eq_ok hread
    obtain ⟨sids, -, hread⟩ := except_bind_eq_ok hread
    obtain ⟨chains, hchains, hread⟩ := except_bind_eq_ok hread
    obtain ⟨plane, hplane, hread⟩ := except_bind_eq_ok hread
    obtain ⟨inv, hinv, hread⟩ := except_bind_eq_ok hread
    obtain rfl := Except.ok.inj hread
    have services := (h.readAssets_iff hkb hq).mp ⟨assets, hassets, hsame.assets⟩
    obtain ⟨patterns, anomalous⟩ :=
      (h.readBaselines_iff hq).mp ⟨baselines, hbaselines, hsame.baselines⟩
    have verdicts := (h.readPolicyMatrix_iff hkb hq).mp ⟨matrix, hmatrix, hsame.policyMatrix⟩
    obtain ⟨names, stages⟩ :=
      (h.readKillChains_iff hkb hq).mp ⟨chains, hchains, hsame.killChains⟩
    obtain ⟨contracts, mappings, gotchas, failures, rbac⟩ :=
      (h.readEnforcementPlane_iff hq hkb).mp ⟨plane, hplane, hsame.enforcementPlane⟩
    obtain ⟨⟨cidrs, rationale⟩, actions, prefixes, agentPrefix⟩ :=
      (h.readInvariants_iff hq hkb).mp ⟨inv, hinv, hsame.invariants⟩
    exact ⟨services, patterns, anomalous, verdicts, names, stages, contracts, mappings, gotchas,
      failures, rbac, cidrs, rationale, actions, prefixes, agentPrefix⟩
  · intro hr
    obtain ⟨zones, hzones, sameZones⟩ := h.readZones hkb hq
    obtain ⟨leafs, hleafs, sameLeafs⟩ := h.readLeafs hkb hq
    obtain ⟨sids, hsids, sameSids⟩ := h.readSids hkb hq
    obtain ⟨assets, hassets, sameAssets⟩ := (h.readAssets_iff hkb hq).mpr hr.services
    obtain ⟨baselines, hbaselines, sameBaselines⟩ :=
      (h.readBaselines_iff hq).mpr ⟨hr.patterns, hr.anomalousPatterns⟩
    obtain ⟨matrix, hmatrix, sameMatrix⟩ := (h.readPolicyMatrix_iff hkb hq).mpr hr.verdicts
    obtain ⟨chains, hchains, sameChains⟩ :=
      (h.readKillChains_iff hkb hq).mpr ⟨hr.chains, hr.stages⟩
    obtain ⟨plane, hplane, samePlane⟩ := (h.readEnforcementPlane_iff hq hkb).mpr
      ⟨hr.contracts, hr.mappings, hr.gotchas, hr.failures, hr.rbac⟩
    obtain ⟨inv, hinv, sameInv⟩ := (h.readInvariants_iff hq hkb).mpr
      ⟨⟨hr.cidrs, hr.rationale⟩, hr.actions, hr.prefixes, hr.agentPrefix⟩
    refine ⟨⟨zones, assets, leafs, baselines, matrix, sids, chains, plane, inv⟩, ?_, sameZones, sameAssets, sameLeafs, sameBaselines, sameMatrix, sameSids,
      sameChains, samePlane, sameInv⟩
    unfold Python.readAll
    rw [hzones, ok_bind, hassets, ok_bind, hleafs, ok_bind, hbaselines, ok_bind, hmatrix, ok_bind,
      hsids, ok_bind, hchains, ok_bind, hplane, ok_bind, hinv, ok_bind]
    rfl

variable (N) in
/-- Reloads of knowledge bases, one after the other. -/
def reloads (kbs : List (Knowledge Obj)) (g : Graph (PyVal Obj)) :
    Except Fault (Graph (PyVal Obj)) :=
  kbs.foldlM (fun g kb => do return (← N.reloadFromModels kb g).1) g

/-- The nodes under the labels are those of reloads after any run of them. -/
theorem owned_of_reloads {kbs : List (Knowledge Obj)} {g g' : Graph (PyVal Obj)} (hg : Owned g)
    (h : N.reloads kbs g = .ok g') : Owned g' := by
  unfold reloads at h
  induction kbs generalizing g with
  | nil =>
    obtain rfl := Except.ok.inj h
    exact hg
  | cons kb kbs ih =>
    rw [List.foldlM_cons] at h
    obtain ⟨g₁, hstep, h⟩ := except_bind_eq_ok h
    obtain ⟨⟨g₂, counts⟩, hreload, hg₂⟩ := except_bind_eq_ok hstep
    obtain rfl := Except.ok.inj hg₂
    exact ih (owned_of_reload hreload hg) h

/-- After any run of reloads the knowledge base of the last one is read back just when it is
recoverable. -/
theorem readAll_reload_iff {safeLoad : PyStr → Option (PyVal Obj)} {files : Files}
    {parsed : Parsed Obj} (hparsed : N.parseAll safeLoad files = some parsed)
    {kbs : List (Knowledge Obj)} {g g' : Graph (PyVal Obj)} (hg : Owned g)
    (hrun : N.reloads (kbs ++ [parsed.knowledge]) g = .ok g') (hq : N.AnswersOf g' q) :
    (∃ kb, N.readAll q = .ok kb ∧ SameKnowledge N.toPython parsed.knowledge kb) ↔
      N.Recoverable parsed.knowledge := by
  have hkb := accepted_of_parseAll hparsed
  unfold reloads at hrun
  rw [List.foldlM_append] at hrun
  obtain ⟨g₁, hbefore, hlast⟩ := except_bind_eq_ok hrun
  obtain ⟨g₂, hstep, hg₂⟩ := except_bind_eq_ok hlast
  obtain rfl := Except.ok.inj hg₂
  obtain ⟨⟨g₃, counts⟩, hreload, hg₃⟩ := except_bind_eq_ok hstep
  obtain rfl := Except.ok.inj hg₃
  have howned := owned_of_reloads hg hbefore
  obtain ⟨gotchas, mappings, failures, actions, hloaded⟩ := loaded_of_reload hreload howned hkb
  exact hloaded.readAll_iff hkb hq

/-! ## Answers of a graph -/

/-- The place of a row. -/
def placeOf (row : Args Obj) : ℤ :=
  match row "idx" with
  | some (.int n) => n
  | _ => 0

variable (N) in
/-- Answers in the order of the nodes, or of their places. -/
def query (g : Graph (PyVal Obj)) : Answers Obj where
  zones := .ok (managedRows g "Zone")
  assets := .ok (managedRows g "Asset")
  leafs := .ok (managedRows g "Leaf")
  baselines := .ok (managedRows g "Baseline")
  baselineConstants := .ok (N.metaRows g "baseline_constants")
  allow := .ok ((managedPaths g "Zone" "ALLOW" "Zone").map endsOf)
  deny := .ok ((managedPaths g "Zone" "DENY" "Zone").map endsOf)
  sids := .ok (managedRows g "Sid")
  killChains := .ok (managedRows g "KillChain")
  expectedIn := .ok ((managedPaths g "Sid" "EXPECTED_IN" "KillChain").map stageRowOf)
  apiEndpoints := .ok (managedRows g "ApiEndpoint")
  fieldMappings :=
    .ok ((managedRows g "FieldMapping").insertionSort fun p q => placeOf p ≤ placeOf q)
  gotchas := .ok ((managedRows g "Gotcha").insertionSort fun p q => placeOf p ≤ placeOf q)
  failureModes := .ok (managedRows g "FailureMode")
  rbacContract := .ok (N.metaRows g "rbac_contract")
  neverBlock := .ok (managedRows g "NeverBlockEntry")
  agentInvariants := .ok (N.metaRows g "agent_invariants")

theorem answersOf_query (g : Graph (PyVal Obj)) : N.AnswersOf g (N.query g) := by
  have hsorted (rows : List (Args Obj)) :
      GivesByIdx (.ok (rows.insertionSort fun p q => placeOf p ≤ placeOf q)) rows := by
    have htotal : Std.Total fun p q : Args Obj => placeOf p ≤ placeOf q :=
      ⟨fun p q => le_total _ _⟩
    have htrans : IsTrans (Args Obj) fun p q => placeOf p ≤ placeOf q :=
      ⟨fun _ _ _ => le_trans⟩
    refine ⟨_, rfl, List.perm_insertionSort _ _, ?_⟩
    refine (List.pairwise_insertionSort _ rows).imp fun {p q} hpq m n hm hn => ?_
    unfold placeOf at hpq
    rw [hm, hn] at hpq
    exact hpq
  have hgives {R : Type} (rows : List R) : Gives (.ok rows) rows := ⟨rows, rfl, .rfl⟩
  exact ⟨hgives _, hgives _, hgives _, hgives _, hgives _, hgives _, hgives _, hgives _, hgives _,
    hgives _, hgives _, hsorted _, hsorted _, hgives _, hgives _, hgives _, hgives _⟩

end Neo4j

/-! ## A signal that is lost -/

/-- The values of properties: scalars and lists of texts. -/
def plainStore : PyVal PyStr → Option (PyVal PyStr)
  | .seq _ xs => (xs.mapM plainPython.asStr).map texts
  | .dict _ => none
  | .other _ => none
  | v => some v

/-- Scalars of one kind that are equal. -/
def plainEqual : PyVal PyStr → PyVal PyStr → Bool
  | .str s, .str t => s = t
  | .int m, .int n => m = n
  | .bool b, .bool c => b = c
  | _, _ => false

theorem eq_str_of_asStr {v : PyVal PyStr} {s : PyStr} (h : plainPython.asStr v = some s) :
    v = .str s := by
  cases v with
  | str t => exact congrArg PyVal.str (Option.some.inj h)
  | _ => cases h

theorem keyImage_of_asInt {v : PyVal PyStr} {n : ℤ} (h : plainPython.asInt v = some n) :
    keyImage v = some (.inr n) := by
  cases v with
  | int m => exact congrArg (some ∘ Sum.inr) (Option.some.inj h)
  | bool b => exact congrArg (some ∘ Sum.inr) (Option.some.inj h)
  | _ => cases h

theorem eq_map_of_mapM_asStr {xs : List (PyVal PyStr)} {ss : List PyStr}
    (h : xs.mapM plainPython.asStr = some ss) : xs = ss.map .str := by
  refine List.forall₂_eq_eq_eq ▸ List.forall₂_map_right_iff.mpr ?_
  exact (forall₂_of_mapM h).imp fun v s hv => eq_str_of_asStr hv

theorem plainEqual_iff {v w : PyVal PyStr} : plainEqual v w = true ↔
    v = w ∧ ((∃ s, v = .str s) ∨ (∃ n, v = .int n) ∨ ∃ b, v = .bool b) := by
  unfold plainEqual
  split
  · simp
  · simp
  · simp
  · rename_i hstr hint hbool
    simp only [Bool.false_eq_true, false_iff, not_and, not_or]
    rintro rfl
    refine ⟨?_, ?_, ?_⟩
    · rintro ⟨s, rfl⟩
      exact hstr s s rfl rfl
    · rintro ⟨n, rfl⟩
      exact hint n n rfl rfl
    · rintro ⟨b, rfl⟩
      exact hbool b b rfl rfl

/-- A database that stores texts, numbers and lists of texts as they are. -/
def plainNeo4j : Neo4j PyStr where
  toPython := plainPython
  store := plainStore
  equal := plainEqual
  sortedItems xs := (xs.mapM plainPython.asStr).map fun ss => (ss.insertionSort (· ≤ ·)).map .str
  store_scalar := by
    intro v w hv h
    unfold plainStore at h
    split at h
    · exact absurd rfl (hv _ _)
    · cases h
    · cases h
    · exact (Option.some.inj h).symm
  store_seq := by
    intro frozen xs w h
    obtain ⟨ss, -, rfl⟩ := Option.map_eq_some_iff.mp h
    exact ⟨_, rfl⟩
  store_strs := by
    intro ss w h
    obtain ⟨ts, hts, rfl⟩ := Option.map_eq_some_iff.mp h
    exact congrArg (PyVal.seq false) (eq_map_of_mapM_asStr hts).symm
  store_stored := by
    intro v w h
    unfold plainStore at h
    split at h
    · obtain ⟨ss, hss, rfl⟩ := Option.map_eq_some_iff.mp h
      refine Option.map_eq_some_iff.mpr ⟨ss, ?_, rfl⟩
      rw [← eq_map_of_mapM_asStr hss]
      exact hss
    · cases h
    · cases h
    · obtain rfl := Option.some.inj h
      unfold plainStore
      split
      · simp_all
      · simp_all
      · simp_all
      · rfl
  equal_str s t := decide_eq_true_iff
  equal_int m n := decide_eq_true_iff
  equal_seq := by
    intro v xs h
    exact ⟨xs, (plainEqual_iff.mp h).1⟩
  same_of_equal := by
    intro v w h
    rw [(plainEqual_iff.mp h).1]
    exact plainPython.same_equiv.refl w
  toInt_of_equal := by
    intro v n h
    rw [(plainEqual_iff.mp h).1]
    rfl
  hashable_list _ := rfl
  asStr_same := by
    intro v w s t h hs ht
    rw [eq_str_of_asStr hs, eq_str_of_asStr ht] at h
    exact (plainPython.same_str s t).mp h
  asInt_same := by
    intro v w m n h hm hn
    have hkeys : keyImage v = keyImage w := of_decide_eq_true h
    rw [keyImage_of_asInt hm, keyImage_of_asInt hn] at hkeys
    exact Sum.inr.inj (Option.some.inj hkeys)
  asStr_seq _ _ := rfl
  asInt_seq _ _ := rfl
  sortedItems_same := by
    intro xs ys h v
    obtain ⟨ss, hss, rfl⟩ := Option.map_eq_some_iff.mp h
    have hperm : ((ss.insertionSort (· ≤ ·)).map PyVal.str).Perm xs := by
      rw [eq_map_of_mapM_asStr hss]
      exact (List.perm_insertionSort _ _).map _
    simp only [hperm.mem_iff]
  dumps_deep := Nat.le_of_ble_eq_true rfl
  loads_deep := Nat.le_of_ble_eq_true rfl

/-- Blocks of a kill chain whose signal has no signature, and of an enforcement plane. -/
def LOST_BLOCKS : List (String × PyVal PyStr) := [
  ("name: pivot\nproduction_description: A\nstages:\n- stage: 1\n  tactic: B\n" ++
      "  expected_signals: [9000003]\n  production_indicators: C\n" ++
      "  false_positive_sources: []\ntypical_dwell_between_stages: D\n" ++
      "recommended_intervention_point: E\ncontainment_strategy: F",
    dictOf [("name", .str (u "pivot")), ("production_description", .str (u "A")),
      ("stages", .seq false [dictOf [("stage", .int 1), ("tactic", .str (u "B")),
        ("expected_signals", .seq false [.int 9000003]),
        ("production_indicators", .str (u "C")), ("false_positive_sources", .seq false [])]]),
      ("typical_dwell_between_stages", .str (u "D")),
      ("recommended_intervention_point", .str (u "E")),
      ("containment_strategy", .str (u "F"))]),
  ("endpoint_contracts: []\nfield_name_mapping: []\ncritical_gotchas: []\n" ++
      "failure_modes: []\nrbac_contract: A",
    dictOf [("endpoint_contracts", .seq false []), ("field_name_mapping", .seq false []),
      ("critical_gotchas", .seq false []), ("failure_modes", .seq false []),
      ("rbac_contract", .str (u "A"))])]

/-- The loader on these blocks and those of the other sample. -/
def lostLoad (text : PyStr) : Option (PyVal PyStr) :=
  ((LOST_BLOCKS ++ SAMPLE_BLOCKS).find? fun e => u e.1 ++ [LF] = text).map Prod.snd

/-- A file with one of these blocks. -/
def lostFile (place : ℕ) : PyStr :=
  ((LOST_BLOCKS.drop place).take 1).flatMap fun e =>
    u "```yaml" ++ [LF] ++ u e.1 ++ [LF] ++ u "```" ++ [LF]

/-- Files in which a kill chain has a signal without a signature. -/
def lostFiles : Files := fun file => some <|
  match file with
  | .baselines => fileOf 0 2
  | .policyMatrix => fileOf 2 1
  | .killChains => lostFile 0
  | .enforcementPlane => lostFile 1
  | .invariants => fileOf 5 1
  | .threatPatterns => fileOf 7 1
  | .severityScoring => fileOf 8 2
  | _ => []

/-- A graph with nothing in it. -/
def emptyGraph : Graph (PyVal PyStr) where
  nodes := []
  edges := []
  next := 0
  ids := List.nodup_nil
  fresh _ h := absurd h List.not_mem_nil
  ends _ h := absurd h List.not_mem_nil

/-- A kill chain has signals, and there are no signatures. -/
def losesSignals (kb : Knowledge PyStr) : Bool :=
  kb.sids.isEmpty && kb.killChains.any fun c => c.stages.any fun s => !s.expectedSignals.isEmpty

theorem not_recoverable_of_losesSignals {kb : Knowledge PyStr} (h : losesSignals kb = true) :
    ¬ plainNeo4j.Recoverable kb := by
  intro hr
  obtain ⟨hsids, hchains⟩ := Bool.and_eq_true_iff.mp h
  obtain ⟨c, hc, hstages⟩ := List.any_eq_true.mp hchains
  obtain ⟨s, hs, hsignals⟩ := List.any_eq_true.mp hstages
  obtain ⟨hne, -, hknown⟩ := (hr.stages c hc).signals s hs
  obtain ⟨sid, hsid⟩ := List.exists_mem_of_ne_nil _ hne
  obtain ⟨d, hd, -⟩ := hknown sid hsid
  rw [List.isEmpty_iff.mp hsids] at hd
  exact absurd hd List.not_mem_nil

/-- Where a signal has no signature the reload goes through, and what is read is another knowledge
base. -/
theorem lost_signal_sample : ∃ (parsed : Parsed PyStr) (g : Graph (PyVal PyStr)),
    plainNeo4j.parseAll lostLoad lostFiles = some parsed ∧
      plainNeo4j.reloads [parsed.knowledge] emptyGraph = .ok g ∧
        ¬ ∃ kb, plainNeo4j.readAll (plainNeo4j.query g) = .ok kb ∧
          SameKnowledge plainPython parsed.knowledge kb := by
  have hrun : ((plainNeo4j.parseAll lostLoad lostFiles).any fun p => losesSignals p.knowledge &&
      (plainNeo4j.reloads [p.knowledge] emptyGraph).toOption.isSome) = true := by decide +kernel
  obtain ⟨parsed, hparsed, hboth⟩ := (Option.any_eq_true _ _).mp hrun
  obtain ⟨hloses, hreloads⟩ := Bool.and_eq_true_iff.mp hboth
  cases hg : plainNeo4j.reloads [parsed.knowledge] emptyGraph with
  | error fault => simp [hg, Except.toOption] at hreloads
  | ok g =>
    have howned : Owned emptyGraph := fun n hn => absurd hn List.not_mem_nil
    have hrun : plainNeo4j.reloads ([] ++ [parsed.knowledge]) emptyGraph = .ok g := hg
    refine ⟨parsed, g, hparsed, hg, fun hread => ?_⟩
    exact not_recoverable_of_losesSignals hloses
      ((Neo4j.readAll_reload_iff hparsed howned hrun (Neo4j.answersOf_query g)).mp hread)

end ControlPlane.Know
