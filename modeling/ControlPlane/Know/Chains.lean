import ControlPlane.Know.Edges

/-!
# The kill chains that are read

A kill chain has its stages on the edges of their signals only. The reader makes of these edges a
dict of stages for each chain (`chainStages_eq`): the stage of a number is what its first edge says,
with the signatures of all its edges. So a chain comes back when each of its stages has a number of
its own and signals, which are different ones that there are signatures for
(`Loaded.readKillChains_iff`).
-/

namespace ControlPlane.Know

open JsonText PropertyGraph

variable {Obj : Type}

/-! ## Signals -/

/-- A signal of a stage of a kill chain. -/
structure Signal where
  chain : PyStr
  stage : KillChainStage
  sid : ℤ

/-- The row of the edge of a signal. -/
structure Signal.Row (P : Python Obj) (er : StageRow Obj) (e : Signal) : Prop where
  chain : er.chain = .str e.chain
  stage : er.stage = .int e.stage.stage
  tactic : er.tactic = .str e.stage.tactic
  indicators : er.indicators = .str e.stage.productionIndicators
  fpSources : er.fpSources = texts e.stage.falsePositiveSources
  sid : P.toInt er.sid = some e.sid

/-- A stage with a signal more. -/
def Signal.add (st : Option KillChainStage) (e : Signal) : KillChainStage :=
  let st := st.getD { e.stage with expectedSignals := [] }
  { st with expectedSignals := st.expectedSignals ++ [e.sid] }

/-- The stages of some signals, by their numbers. -/
def stagesOf (es : List Signal) : List (ℤ × KillChainStage) :=
  Dict.upsert (· == ·) Signal.add (es.map fun e => (e.stage.stage, e))

/-- The stages of one chain, with a signal more. -/
def Signal.put (stages : List (ℤ × KillChainStage)) (e : Signal) : List (ℤ × KillChainStage) :=
  Dict.set (· == ·) e.stage.stage
    (Signal.add (Dict.lookup (· == ·) e.stage.stage stages) e) stages

theorem stagesOf_eq_foldl (es : List Signal) : stagesOf es = es.foldl Signal.put [] := by
  unfold stagesOf Dict.upsert
  rw [List.foldl_map]
  rfl

/-- The signals of one stage make the stage with their signatures. -/
theorem foldl_add {s : KillChainStage} {es : List Signal} (hes : ∀ e ∈ es, e.stage = s) :
    es.foldl (fun o e => some (Signal.add o e)) none =
      if es = [] then none else some { s with expectedSignals := es.map Signal.sid } := by
  induction es using List.reverseRecOn with
  | nil => rfl
  | append_singleton es e ih =>
    have hbefore := ih fun e he => hes e (List.mem_append_left _ he)
    have hstage : e.stage = s := hes e (by simp)
    rw [List.foldl_append, List.foldl_cons, List.foldl_nil, hbefore]
    have hne : es ++ [e] ≠ [] := by simp
    rw [if_neg hne]
    by_cases hnil : es = []
    · rw [if_pos hnil, hnil, Signal.add, Option.getD_none, hstage]
      rfl
    · rw [if_neg hnil, Signal.add, Option.getD_some, List.map_append, List.map_singleton]

namespace Python

variable {P : Python Obj}

theorem stageOfRow_eq {er : StageRow Obj} {e : Signal} (h : e.Row P er) :
    P.stageOfRow e.stage.stage er = .ok { e.stage with expectedSignals := [] } := by
  obtain ⟨chain, ⟨n, tactic, signals, indicators, sources⟩, sid⟩ := e
  have htexts : (sources.map (PyVal.str : PyStr → PyVal Obj)).mapM P.asStr = some sources := by
    rw [List.mapM_map]
    have hone : ∀ s ∈ sources, (P.asStr ∘ PyVal.str) s = some (id s) := fun s _ => P.asStr_str s
    rw [mapM_of_forall hone, List.map_id]
  unfold stageOfRow
  rw [h.fpSources, h.tactic, h.indicators, P.asStr_str, P.asStr_str]
  unfold texts
  rw [P.toList_seq]
  cases sources with
  | nil => rfl
  | cons s rest =>
    show (do
      let sources ← orRaise (((s :: rest).map PyVal.str).mapM P.asStr)
      pure ({ stage := n, tactic := tactic, expectedSignals := [],
              productionIndicators := indicators, falsePositiveSources := sources } :
        KillChainStage)) = _
    rw [htexts]
    rfl

theorem addSignal_eq {er : StageRow Obj} {e : Signal} (h : e.Row P er)
    (stages : List (ℤ × KillChainStage)) :
    P.addSignal e.stage.stage er stages = .ok (e.put stages) := by
  unfold addSignal Signal.put
  rw [stageOfRow_eq h, h.sid]
  cases Dict.lookup (· == ·) e.stage.stage stages with
  | none => rfl
  | some st => rfl

/-- The stages that are read for a chain are those of its signals. -/
theorem chainStages_eq {rows : List (StageRow Obj)} {es : List Signal}
    (h : List.Forall₂ (fun er e => Signal.Row P er e) rows es) :
    ∃ stages, P.chainStages rows = .ok stages ∧ ∀ name,
      (Dict.lookup P.same (.str name) stages).getD [] =
        stagesOf (es.filter fun e => e.chain = name) := by
  have hread : P.chainStages rows = .ok (Dict.upsert P.same
      (fun o e => Signal.put (o.getD []) e) (es.map fun e => (.str e.chain, e))) := by
    unfold chainStages Dict.upsert
    rw [List.foldl_map]
    generalize ([] : List (PyVal Obj × List (ℤ × KillChainStage))) = out
    induction h generalizing out with
    | nil => rfl
    | @cons er e rows es her _ ih =>
      have hn : orRaise (P.toInt er.stage) = .ok e.stage.stage := by
        rw [her.stage, P.toInt_int]
        rfl
      rw [List.foldlM_cons, hn, ok_bind, addSignal_eq her, ok_bind, her.chain, setKey,
        if_pos (P.hashable_str e.chain), ok_bind, ih]
      rfl
  refine ⟨_, hread, fun name => ?_⟩
  have hkey : ((es.map fun e => ((.str e.chain : PyVal Obj), e)).filter fun i =>
      P.same i.1 (.str name)).map Prod.snd = es.filter fun e => e.chain = name := by
    rw [List.filter_map, List.map_map]
    have hfilter : es.filter ((fun i : PyVal Obj × Signal => P.same i.1 (.str name)) ∘
        fun e => (.str e.chain, e)) = es.filter fun e => e.chain = name := by
      refine List.filter_congr fun e _ => ?_
      rw [Bool.eq_iff_iff, decide_eq_true_eq]
      exact P.same_str e.chain name
    rw [hfilter]
    exact List.map_id _
  rw [Dict.lookup_upsert P.same_equiv, hkey, Dict.foldl_getD, stagesOf_eq_foldl]
  rfl

end Python

/-! ## The stages of a chain -/

theorem lookup_stagesOf (es : List Signal) (n : ℤ) :
    Dict.lookup (· == ·) n (stagesOf es) =
      (es.filter fun e => e.stage.stage = n).foldl (fun o e => some (Signal.add o e)) none := by
  have hkey : ((es.map fun e => (e.stage.stage, e)).filter fun i => i.1 == n).map Prod.snd =
      es.filter fun e => e.stage.stage = n := by
    rw [List.filter_map, List.map_map]
    have hfilter : es.filter ((fun i : ℤ × Signal => i.1 == n) ∘ fun e => (e.stage.stage, e)) =
        es.filter fun e => e.stage.stage = n := List.filter_congr fun e _ => rfl
    rw [hfilter]
    exact List.map_id _
  unfold stagesOf
  rw [Dict.lookup_upsert Dict.beq_equivalence, hkey]

/-- A stage keeps its number when a signal comes. -/
theorem stage_add {st : Option KillChainStage} {e : Signal}
    (hst : ∀ s ∈ st, s.stage = e.stage.stage) : (Signal.add st e).stage = e.stage.stage := by
  cases st with
  | none => rfl
  | some s => exact hst s rfl

/-- The stages of signals are under their numbers. -/
theorem stage_of_mem_stagesOf {es : List Signal} {i : ℤ × KillChainStage} (hi : i ∈ stagesOf es) :
    i.2.stage = i.1 := by
  rw [stagesOf_eq_foldl] at hi
  induction es using List.reverseRecOn generalizing i with
  | nil => exact absurd hi List.not_mem_nil
  | append_singleton es e ih =>
    rw [List.foldl_append, List.foldl_cons, List.foldl_nil] at hi
    generalize es.foldl Signal.put [] = stages at hi ih
    unfold Signal.put at hi
    rcases Dict.mem_set Dict.beq_equivalence hi with hi | ⟨hvalue, hkey⟩
    · exact ih hi
    · rw [hvalue, eq_of_beq hkey]
      refine stage_add fun s hs => ?_
      obtain ⟨j, hj, hjkey, rfl⟩ := Dict.exists_of_lookup hs
      exact (ih hj).trans (eq_of_beq hjkey)

/-- The signals of the stage of a number. -/
def signalsOf (es : List Signal) (n : ℤ) : List Signal := es.filter fun e => e.stage.stage = n

/-- A stage with the signatures of its signals. -/
def signalled (es : List Signal) (s : KillChainStage) : KillChainStage :=
  { s with expectedSignals := (signalsOf es s.stage).map Signal.sid }

/-- A stage with its signatures in order. -/
def sorted (s : KillChainStage) : KillChainStage :=
  { s with expectedSignals := s.expectedSignals.insertionSort (· ≤ ·) }

/-- The stages that are read have different numbers. -/
theorem nodup_of_sameUpTo {stages : List KillChainStage} {es : List Signal}
    (h : SameUpTo SameStage stages (Python.sortStages (stagesOf es))) :
    (stages.map KillChainStage.stage).Nodup := by
  obtain ⟨l, hl, hperm⟩ := h
  have hnumbers : stages.map KillChainStage.stage = l.map KillChainStage.stage := by
    rw [← List.forall₂_eq_eq_eq, List.forall₂_map_left_iff, List.forall₂_map_right_iff]
    exact hl.imp fun _ _ hst => hst.stage
  have hsorted : ((Python.sortStages (stagesOf es)).map KillChainStage.stage).Perm
      ((stagesOf es).map Prod.fst) := by
    unfold Python.sortStages
    rw [List.map_map]
    refine ((List.perm_insertionSort _ _).map _).trans ?_
    exact List.Perm.of_eq (List.map_congr_left fun i hi => stage_of_mem_stagesOf hi)
  have hdistinct : ((stagesOf es).map Prod.fst).Nodup := by
    refine List.pairwise_map.mpr ((Dict.distinct_upsert Dict.beq_equivalence _ _).imp ?_)
    intro i j hij
    exact ne_of_beq_false hij
  rw [hnumbers]
  exact ((hperm.map _).trans hsorted).nodup_iff.mpr hdistinct

section

variable {stages : List KillChainStage} {es : List Signal}
  (hnd : (stages.map KillChainStage.stage).Nodup) (hes : ∀ e ∈ es, e.stage ∈ stages)
include hnd hes

/-- The stages of signals are those that have one, with the signatures of their signals. -/
theorem perm_stagesOf :
    (stagesOf es).Perm ((stages.filter fun s => signalsOf es s.stage ≠ []).map fun s =>
      (s.stage, signalled es s)) := by
  have hdistinct : Dict.Distinct (· == ·) ((stages.filter fun s => signalsOf es s.stage ≠ []).map
      fun s => (s.stage, signalled es s)) := by
    have hkept : ((stages.filter fun s => signalsOf es s.stage ≠ []).map
        KillChainStage.stage).Nodup := hnd.sublist (List.filter_sublist.map _)
    refine List.pairwise_map.mpr ((List.pairwise_map.mp hkept).imp fun {s t} hst => ?_)
    exact beq_false_of_ne hst
  refine Dict.perm_of_lookup (Dict.distinct_upsert Dict.beq_equivalence _ _) hdistinct fun n => ?_
  rw [lookup_stagesOf]
  change (signalsOf es n).foldl (fun o e => some (Signal.add o e)) none = _
  by_cases hnone : signalsOf es n = []
  · -- There is no signal of this number, so there is no stage of it either.
    rw [hnone]
    symm
    rw [List.foldl_nil, ← Option.not_isSome_iff_eq_none, ← Dict.exists_key_iff]
    rintro ⟨i, hi, hin⟩
    obtain ⟨s, hs, rfl⟩ := List.mem_map.mp hi
    have hsome := of_decide_eq_true (List.mem_filter.mp hs).2
    have hn : s.stage = n := eq_of_beq hin
    exact hsome (hn ▸ hnone)
  · obtain ⟨e, he⟩ := List.exists_mem_of_ne_nil _ hnone
    obtain ⟨hmem, hn⟩ := List.mem_filter.mp he
    obtain rfl := of_decide_eq_true hn
    have hstage := hes e hmem
    have hsame : ∀ f ∈ signalsOf es e.stage.stage, f.stage = e.stage := by
      intro f hf
      obtain ⟨hf, hfn⟩ := List.mem_filter.mp hf
      exact List.inj_on_of_nodup_map hnd (hes f hf) hstage (of_decide_eq_true hfn)
    have hitem : (e.stage.stage, signalled es e.stage) ∈
        (stages.filter fun s => signalsOf es s.stage ≠ []).map fun s =>
          (s.stage, signalled es s) :=
      List.mem_map_of_mem (List.mem_filter.mpr ⟨hstage, decide_eq_true hnone⟩)
    rw [foldl_add hsame, if_neg hnone,
      Dict.lookup_of_mem Dict.beq_equivalence hdistinct hitem]
    rfl

/-- What is read of the stages is the stages just when each has its signatures on its signals. -/
theorem sameUpTo_sortStages_iff :
    SameUpTo SameStage stages (Python.sortStages (stagesOf es)) ↔
      ∀ s ∈ stages, signalsOf es s.stage ≠ [] ∧
        s.expectedSignals.Perm ((signalsOf es s.stage).map Signal.sid) := by
  have hsorted : (Python.sortStages (stagesOf es)).Perm
      ((stages.filter fun s => signalsOf es s.stage ≠ []).map fun s =>
        sorted (signalled es s)) := by
    have hsort := (List.perm_insertionSort (fun s t : ℤ × KillChainStage => s.1 ≤ t.1)
      (stagesOf es)).trans (perm_stagesOf hnd hes)
    have hmap := hsort.map fun s => sorted s.2
    rw [List.map_map] at hmap
    exact hmap
  constructor
  · rintro ⟨l, hl, hperm⟩
    have hread := hperm.trans hsorted
    have hlength := hl.length_eq.trans hread.length_eq
    rw [List.length_map, eq_comm, List.length_filter_eq_length_iff] at hlength
    intro s hs
    refine ⟨of_decide_eq_true (hlength s hs), ?_⟩
    obtain ⟨t, ht, hst⟩ := exists_of_forall₂ hl hs
    obtain ⟨s', hs', rfl⟩ := List.mem_map.mp (hread.mem_iff.mp ht)
    obtain rfl := List.inj_on_of_nodup_map hnd hs (List.mem_of_mem_filter hs') hst.stage
    exact hst.expectedSignals.trans (List.perm_insertionSort _ _)
  · intro hall
    have hfilter : (stages.filter fun s => signalsOf es s.stage ≠ []) = stages :=
      List.filter_eq_self.mpr fun s hs => decide_eq_true (hall s hs).1
    rw [hfilter] at hsorted
    refine ⟨stages.map fun s => sorted (signalled es s), ?_, hsorted.symm⟩
    rw [List.forall₂_map_right_iff, List.forall₂_same]
    intro s hs
    exact ⟨rfl, rfl, (hall s hs).2.trans (List.perm_insertionSort _ _).symm, rfl, rfl⟩

end

/-! ## The edges of the signals -/

namespace Neo4j

variable {N : Neo4j Obj} {kb : Knowledge Obj} {gotchas mappings failures actions : List (PyVal Obj)}
  {g : Graph (PyVal Obj)} {q : Answers Obj}

variable (N) in
/-- There is a signature for a signal. -/
def HasSid (kb : Knowledge Obj) (sid : ℤ) : Prop := ∃ d ∈ kb.sids, N.equal d.1 (.int sid) = true

/-- The path of a signal in the graph. -/
structure PathOf (N : Neo4j Obj) (kb : Knowledge Obj)
    (path : Props (PyVal Obj) × Props (PyVal Obj) × Props (PyVal Obj)) (e : Signal) : Prop where
  of_chain : ∃ c ∈ kb.killChains, c.name = e.chain ∧ e.stage ∈ c.stages
  signal : e.sid ∈ e.stage.expectedSignals
  sid : ∃ d ∈ kb.sids, path.1 "sid" = some d.1 ∧ N.equal d.1 (.int e.sid) = true
  edge : path.2.1 = N.signalRow e.stage
  chain : path.2.2 "name" = some (.str e.chain)
  sent : ∀ p ∈ (stageParams e.stage : Params Obj), (N.store p.2).isSome = true

theorem cleanNames_stage (s : KillChainStage) :
    CleanNames "stage" (stageParams s : Params Obj) := by
  simp [CleanNames, stageParams]

theorem signalRow_eq (s : KillChainStage) :
    N.signalRow s = N.rowOf "stage" (.int s.stage) (stageParams s) := by
  rw [rowOf, stored_of_scalar (by simp)]
  rfl

theorem signalRow_stage (s : KillChainStage) : N.signalRow s "stage" = some (.int s.stage) := by
  rw [signalRow_eq, rowOf_key (cleanNames_stage s), stored_of_scalar (by simp)]

theorem PathOf.row {path : Props (PyVal Obj) × Props (PyVal Obj) × Props (PyVal Obj)} {e : Signal}
    (h : PathOf N kb path e) : e.Row N.toPython (stageRowOf path) := by
  obtain ⟨d, -, hsid, hequal⟩ := h.sid
  have hc : CleanNames "stage" (stageParams e.stage : Params Obj) := cleanNames_stage e.stage
  have hrow : path.2.1 = N.rowOf "stage" (.int e.stage.stage) (stageParams e.stage) :=
    h.edge.trans (signalRow_eq e.stage)
  have htactic : path.2.1 "tactic" = some (.str e.stage.tactic) := by
    rw [hrow, rowOf_param hc (p := ("tactic", .str e.stage.tactic)) (by simp [stageParams])]
    exact given_str (h.sent ("tactic", _) (by simp [stageParams]))
  have hindicators : path.2.1 "indicators" = some (.str e.stage.productionIndicators) := by
    rw [hrow, rowOf_param hc (p := ("indicators", .str e.stage.productionIndicators))
      (by simp [stageParams])]
    exact given_str (h.sent ("indicators", _) (by simp [stageParams]))
  have hsources : path.2.1 "false_positive_sources" =
      some (texts e.stage.falsePositiveSources) := by
    have hmem : ("false_positive_sources", texts e.stage.falsePositiveSources) ∈
        (stageParams e.stage : Params Obj) := by simp [stageParams]
    exact hrow ▸ (rowOf_param hc hmem).trans (given_texts (h.sent _ hmem))
  have hstage : path.2.1 "stage" = some (.int e.stage.stage) := by
    rw [h.edge, signalRow_stage]
  have hprop {p : Props (PyVal Obj)} {name : String} {v : PyVal Obj} (hv : p name = some v) :
      propOf p name = v := by
    rw [propOf, hv]
    rfl
  have htoInt : N.toInt (propOf path.1 "sid") = some e.sid := by
    rw [hprop hsid]
    exact N.toInt_of_equal hequal
  exact ⟨hprop h.chain, hprop hstage, hprop htactic, hprop hindicators, hprop hsources, htoInt⟩

variable (N) in
/-- The signals that are read: they are those of the kill chains that there are signatures for, each
once. -/
structure SignalsRead (kb : Knowledge Obj) (es : List Signal) : Prop where
  of : ∀ e ∈ es, (∃ c ∈ kb.killChains, c.name = e.chain ∧ e.stage ∈ c.stages) ∧
    e.sid ∈ e.stage.expectedSignals ∧ N.HasSid kb e.sid
  apart : es.Pairwise fun e f => e.chain = f.chain → e.stage.stage = f.stage.stage → e.sid ≠ f.sid
  all : ∀ c ∈ kb.killChains, ∀ s ∈ c.stages, ∀ sid ∈ s.expectedSignals, N.HasSid kb sid →
    ∃ e ∈ es, e.chain = c.name ∧ e.stage.stage = s.stage ∧ e.sid = sid

section

variable {c : KillChain} {es : List Signal} (hes : N.SignalsRead kb es) (hc : c ∈ kb.killChains)
  (hnd : (kb.killChains.map KillChain.name).Nodup)
include hes hc hnd

/-- The signals of a chain are those of its stages. -/
theorem SignalsRead.stage_mem {e : Signal} (he : e ∈ es.filter fun e => e.chain = c.name) :
    e.stage ∈ c.stages := by
  obtain ⟨hmem, hname⟩ := List.mem_filter.mp he
  obtain ⟨⟨c', hc', hname', hstage⟩, -⟩ := hes.of e hmem
  have heq : c'.name = c.name := hname'.trans (of_decide_eq_true hname)
  obtain rfl := List.inj_on_of_nodup_map hnd hc' hc heq
  exact hstage

/-- The signals of a stage are its signatures that are known. -/
theorem SignalsRead.stage_signals (hnumbers : (c.stages.map KillChainStage.stage).Nodup)
    {s : KillChainStage} (hs : s ∈ c.stages) :
    ((signalsOf (es.filter fun e => e.chain = c.name) s.stage).map Signal.sid).Nodup ∧
      ∀ sid, sid ∈ (signalsOf (es.filter fun e => e.chain = c.name) s.stage).map Signal.sid ↔
        sid ∈ s.expectedSignals ∧ N.HasSid kb sid := by
  constructor
  · refine List.pairwise_map.mpr (((hes.apart.filter _).filter _).imp_of_mem ?_)
    intro e f he hf hef
    obtain ⟨hemem, hestage⟩ := List.mem_filter.mp he
    obtain ⟨hfmem, hfstage⟩ := List.mem_filter.mp hf
    have hechain := of_decide_eq_true (List.mem_filter.mp hemem).2
    have hfchain := of_decide_eq_true (List.mem_filter.mp hfmem).2
    exact hef (hechain.trans hfchain.symm)
      ((of_decide_eq_true hestage).trans (of_decide_eq_true hfstage).symm)
  · intro sid
    constructor
    · intro hsid
      obtain ⟨e, he, rfl⟩ := List.mem_map.mp hsid
      obtain ⟨hchain, hnumber⟩ := List.mem_filter.mp he
      have hstage := hes.stage_mem hc hnd hchain
      obtain rfl := List.inj_on_of_nodup_map hnumbers hstage hs (of_decide_eq_true hnumber)
      exact (hes.of e (List.mem_of_mem_filter hchain)).2
    · rintro ⟨hsid, hknown⟩
      obtain ⟨e, he, hname, hnumber, rfl⟩ := hes.all c hc s hs sid hsid hknown
      refine List.mem_map_of_mem (List.mem_filter.mpr ⟨?_, decide_eq_true hnumber⟩)
      exact List.mem_filter.mpr ⟨he, decide_eq_true hname⟩

/-- The stages of a chain are read back when they are kept by its signals. -/
theorem SignalsRead.stages_iff :
    SameUpTo SameStage c.stages
        (Python.sortStages (stagesOf (es.filter fun e => e.chain = c.name))) ↔
      N.KeptStages kb c := by
  have hmem : ∀ e ∈ es.filter fun e => e.chain = c.name, e.stage ∈ c.stages := fun e he =>
    hes.stage_mem hc hnd he
  constructor
  · intro hsame
    have hnumbers := nodup_of_sameUpTo hsame
    refine ⟨hnumbers, fun s hs => ?_⟩
    obtain ⟨hne, hperm⟩ := (sameUpTo_sortStages_iff hnumbers hmem).mp hsame s hs
    obtain ⟨hnodup, hsids⟩ := hes.stage_signals hc hnd hnumbers hs
    refine ⟨?_, hperm.nodup_iff.mpr hnodup, fun sid hsid => ?_⟩
    · intro hnil
      rw [hnil, List.nil_perm, List.map_eq_nil_iff] at hperm
      exact hne hperm
    · exact ((hsids sid).mp (hperm.mem_iff.mp hsid)).2
  · intro hkept
    refine (sameUpTo_sortStages_iff hkept.stages hmem).mpr fun s hs => ?_
    obtain ⟨hne, hdifferent, hknown⟩ := hkept.signals s hs
    obtain ⟨hnodup, hsids⟩ := hes.stage_signals hc hnd hkept.stages hs
    have hperm : s.expectedSignals.Perm
        ((signalsOf (es.filter fun e => e.chain = c.name) s.stage).map Signal.sid) := by
      rw [List.perm_ext_iff_of_nodup hdifferent hnodup]
      intro sid
      rw [hsids]
      exact ⟨fun hsid => ⟨hsid, hknown sid hsid⟩, fun hsid => hsid.1⟩
    refine ⟨fun hnil => hne ?_, hperm⟩
    rw [hnil] at hperm
    exact hperm.eq_nil

end

section

variable (h : Loaded N kb gotchas mappings failures actions g) (hkb : Accepted N.toPython kb)
include h hkb

/-- A path is that of a signal. -/
theorem Loaded.exists_pathOf {path : Props (PyVal Obj) × Props (PyVal Obj) × Props (PyVal Obj)}
    (hpath : path ∈ g.paths "Sid" "EXPECTED_IN" "KillChain") : ∃ e, PathOf N kb path e := by
  obtain ⟨hp, hq, c, hc, s, hs, sid, hsid, hedge, hhas, hname⟩ := h.of_signal path hpath
  obtain ⟨d, hd, hd'⟩ := h.exists_value (by decide) (fun d => cleanNames_sid (Prod.snd d))
    itemsOf_sid (fun _ hd => hkb.sids.stored_eq N.asInt_seq hd) hp
  obtain ⟨c', -, hc'⟩ := h.exists_value (by decide) cleanNames_chain itemsOf_killChain
    (fun _ _ => stored_of_scalar (by simp)) hq
  rw [Props.has, hd'] at hhas
  rw [Props.has, hc'] at hname
  have heq : c'.name = c.name := (N.equal_str _ _).mp hname
  rw [heq] at hc'
  have hne : s.expectedSignals ≠ [] := List.ne_nil_of_mem hsid
  exact ⟨⟨c.name, s, sid⟩, ⟨⟨c, hc, rfl, hs⟩, hsid, ⟨d, hd, hd', hhas⟩, hedge, hc',
    h.sent.stages c hc s hs hne⟩⟩

/-- The edges of the kill chains that are read are those of their signals. -/
theorem Loaded.exists_signals (hq : N.AnswersOf g q)
    (hnd : (kb.killChains.map KillChain.name).Nodup) :
    ∃ rows es, q.expectedIn = .ok rows ∧
      List.Forall₂ (fun er e => Signal.Row N.toPython er e) rows es ∧ N.SignalsRead kb es := by
  have hmanaged : managedPaths g "Sid" "EXPECTED_IN" "KillChain" =
      g.paths "Sid" "EXPECTED_IN" "KillChain" := by
    refine List.filter_eq_self.mpr fun path hpath => ?_
    obtain ⟨e, he⟩ := h.exists_pathOf hkb hpath
    rw [he.edge, signalRow_eq]
    exact managed_rowOf (cleanNames_stage e.stage)
  obtain ⟨rows, hrows, hperm⟩ := hq.expectedIn
  rw [hmanaged] at hperm
  obtain ⟨ps, hps, rfl⟩ := exists_of_perm_map hperm
  obtain ⟨es, hes⟩ := exists_forall₂ fun path hpath => h.exists_pathOf hkb (hps.mem_iff.mp hpath)
  have hapart : ps.Pairwise fun p q => p.1 "sid" = q.1 "sid" → p.2.2 "name" = q.2.2 "name" →
      p.2.1 "stage" ≠ q.2.1 "stage" := by
    refine (hps.pairwise_iff ?_).mpr (h.unlike hnd)
    intro p q hpq hsid hname hstage
    exact hpq hsid.symm hname.symm hstage.symm
  refine ⟨_, es, hrows, ?_, fun e he => ?_, ?_, fun c hc s hs sid hsid hknown => ?_⟩
  · rw [List.forall₂_map_left_iff]
    exact hes.imp fun _ _ hpath => hpath.row
  · obtain ⟨path, -, hpath⟩ := exists_of_forall₂_right hes he
    obtain ⟨d, hd, -, hequal⟩ := hpath.sid
    exact ⟨hpath.of_chain, hpath.signal, d, hd, hequal⟩
  · refine pairwise_of_forall₂ hes hapart fun p e q f hp hq hpq hchain hstage hsid => ?_
    obtain ⟨d, hd, hpd, hde⟩ := hp.sid
    obtain ⟨d', hd', hqd, hdf⟩ := hq.sid
    -- Signatures of one number are one.
    rw [← hsid] at hdf
    have hsame : N.same d.1 d'.1 = true :=
      N.same_equiv.trans (N.same_of_equal hde) (N.same_equiv.symm (N.same_of_equal hdf))
    obtain rfl := Dict.eq_of_same N.same_equiv hkb.sids.distinct hd hd' hsame
    refine hpq (hpd.trans hqd.symm) ?_ ?_
    · rw [hp.chain, hq.chain, hchain]
    · rw [hp.edge, hq.edge, signalRow_stage, signalRow_stage, hstage]
  · obtain ⟨d, hd, hequal⟩ := hknown
    obtain ⟨p, hp, hpd⟩ := h.exists_node (by decide) (fun d => cleanNames_sid (Prod.snd d))
      itemsOf_sid (fun _ hd => hkb.sids.stored_eq N.asInt_seq hd) hkb.sids.distinct hd
    obtain ⟨q, hq, hqc⟩ := h.exists_node (by decide) cleanNames_chain itemsOf_killChain
      (fun _ _ => stored_of_scalar (by simp)) (pairwise_texts hnd) hc
    have hpsid : p.has N.equal "sid" (.int sid) = true := by
      rw [Props.has, hpd]
      exact hequal
    have hqname : q.has N.equal "name" (.str c.name) = true := by
      rw [Props.has, hqc]
      exact (N.equal_str _ _).mpr rfl
    obtain ⟨r, hr, hstage⟩ := h.signal hnd c hc s hs sid hsid p hp q hq hpsid hqname
    obtain ⟨e, he, hpath⟩ := exists_of_forall₂ hes (hps.mem_iff.mpr hr)
    obtain ⟨d', -, hpd', hequal'⟩ := hpath.sid
    have hdd : d'.1 = d.1 := Option.some.inj (hpd'.symm.trans hpd)
    have hedge : r = N.signalRow e.stage := hpath.edge
    have hchain : q "name" = some (.str e.chain) := hpath.chain
    rw [hdd] at hequal'
    rw [hqc, Option.some.injEq, PyVal.str.injEq] at hchain
    rw [Props.has, hedge, signalRow_stage] at hstage
    exact ⟨e, he, hchain.symm, (N.equal_int _ _).mp hstage,
      Option.some.inj ((N.toInt_of_equal hequal').symm.trans (N.toInt_of_equal hequal))⟩

/-! ## The chains -/

omit h hkb in
/-- The row of a chain is read as the chain, with the stages of its signals. -/
theorem killChain_rowOf {c : KillChain} (hs : N.Sent (.str c.name) (chainParams c))
    (stages : List (PyVal Obj × List (ℤ × KillChainStage))) :
    N.killChainOfRow stages (N.rowOf "name" (.str c.name) (chainParams c)) = .ok { c with
      stages := Python.sortStages ((Dict.lookup N.same (.str c.name) stages).getD []) } := by
  have hc : CleanNames "name" (chainParams c : Params Obj) := cleanNames_chain c
  generalize hrow : N.rowOf "name" (.str c.name) (chainParams c) = row
  have hname : row "name" = some (.str c.name) := by
    rw [← hrow, rowOf_key hc, stored_of_scalar (by simp)]
  have hdescription : row "production_description" = some (.str c.productionDescription) :=
    hrow ▸ rowOf_str hc hs (by simp [chainParams])
  have hdwell : row "typical_dwell" = some (.str c.typicalDwellBetweenStages) :=
    hrow ▸ rowOf_str hc hs (by simp [chainParams])
  have hpoint : row "recommended_intervention" = some (.str c.recommendedInterventionPoint) :=
    hrow ▸ rowOf_str hc hs (by simp [chainParams])
  have hstrategy : row "containment_strategy" = some (.str c.containmentStrategy) :=
    hrow ▸ rowOf_str hc hs (by simp [chainParams])
  unfold Python.killChainOfRow
  simp only [Args.need, hname, hdwell, hpoint, orRaise, ok_bind, N.hashable_str, if_true]
  generalize Python.sortStages ((Dict.lookup N.same (.str c.name) stages).getD []) = stages
  simp [Python.killChain, Python.strArg, Args.set, hname, hdescription, hstrategy, N.asStr_str]

/-- The kill chains are read back when they have names of their own and their stages are kept. -/
theorem Loaded.readKillChains_iff (hq : N.AnswersOf g q) :
    (∃ out, N.readKillChains q = .ok out ∧ SameUpTo SameChain kb.killChains out) ↔
      (kb.killChains.map KillChain.name).Nodup ∧ ∀ c ∈ kb.killChains, N.KeptStages kb c := by
  obtain ⟨rows, hrows, hperm⟩ := hq.killChains
  rw [h.managedRows_eq (by decide), itemsOf_killChain] at hperm
  -- The names are different ones when as many chains are read as there are.
  have hnodup : (∃ out, N.readKillChains q = .ok out ∧ SameUpTo SameChain kb.killChains out) →
      (kb.killChains.map KillChain.name).Nodup := by
    rintro ⟨out, hout, l, hl, hlout⟩
    unfold Python.readKillChains at hout
    rw [hrows, ok_bind] at hout
    obtain ⟨expected, -, hout⟩ := except_bind_eq_ok hout
    obtain ⟨stages, -, hout⟩ := except_bind_eq_ok hout
    have hread : rows.length = out.length := (mapM_eq_ok.mp hout).length_eq
    have hall : kb.killChains.length = out.length := hl.length_eq.trans hlout.length_eq
    have hlength : (built N.equal (kb.killChains.map fun c =>
        N.itemOf "KillChain" "name" (.str c.name) (chainParams c))).length =
          kb.killChains.length := by
      have hnodes := hperm.length_eq
      omega
    exact nodup_of_length cleanNames_chain hlength
  by_cases hnd : (kb.killChains.map KillChain.name).Nodup
  · obtain ⟨expected, es, hexpected, hsignals, hes⟩ := h.exists_signals hkb hq hnd
    obtain ⟨stages, hstages, hlookup⟩ := Python.chainStages_eq hsignals
    rw [built_of_distinct cleanNames_chain (fun c _ => stored_of_scalar (by simp))
      (pairwise_texts hnd)] at hperm
    obtain ⟨cs, hcs, rfl⟩ := exists_of_perm_map hperm
    let read (c : KillChain) : KillChain := { c with
      stages := Python.sortStages (stagesOf (es.filter fun e => e.chain = c.name)) }
    have hread : N.readKillChains q = .ok (cs.map read) := by
      unfold Python.readKillChains
      rw [hrows, ok_bind, hexpected, ok_bind, hstages, ok_bind, mapM_eq_ok,
        List.forall₂_map_left_iff, List.forall₂_map_right_iff, List.forall₂_same]
      intro c hc
      rw [killChain_rowOf (h.sent.chains c (hcs.mem_iff.mp hc)), hlookup]
    rw [and_iff_right hnd]
    constructor
    · rintro ⟨out, hout, l, hl, hlout⟩ c hc
      obtain rfl := Except.ok.inj (hread.symm.trans hout)
      obtain ⟨d, hd, hcd⟩ := exists_of_forall₂ hl hc
      obtain ⟨c', hc', rfl⟩ := List.mem_map.mp (hlout.mem_iff.mp hd)
      have hname : c.name = c'.name := hcd.name
      obtain rfl := List.inj_on_of_nodup_map hnd hc (hcs.mem_iff.mp hc') hname
      exact (hes.stages_iff hc hnd).mp hcd.stages
    · intro hkept
      refine ⟨_, hread, kb.killChains.map read, ?_, hcs.symm.map read⟩
      rw [List.forall₂_map_right_iff, List.forall₂_same]
      intro c hc
      exact ⟨rfl, rfl, (hes.stages_iff hc hnd).mpr (hkept c hc), rfl, rfl, rfl⟩
  · constructor
    · intro hsame
      exact absurd (hnodup hsame) hnd
    · rintro ⟨hnd', -⟩
      exact absurd hnd' hnd

end

end Neo4j

end ControlPlane.Know
