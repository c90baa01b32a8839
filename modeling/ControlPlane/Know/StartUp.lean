import ControlPlane.Know.HotSwap
import ControlPlane.Know.RoundTrip

/-!
# The start-up through the graph

The start-up takes its tables from the graph, which the reload has just filled from the files. When
the knowledge base is recoverable this is a detour: the start-up ends as it would on what was parsed
(`boot_agrees`), and where the swap gets through the tables are the same, up to the order of what is
listed in no order.
-/

namespace ControlPlane.Know

open JsonText PropertyGraph

variable {Obj : Type}

/-- The same tables, up to the order of what is listed in no order. -/
structure SameTables (P : Python Obj) (t t' : Tables Obj) : Prop where
  zones : SameDict P.same t.zones t'.zones
  assets : SameDict P.same t.assets t'.assets
  leafs : SameDict P.same t.leafs t'.leafs
  allBaselines : t.allBaselines.Perm t'.allBaselines
  applicationFlows : t.applicationFlows.Perm t'.applicationFlows
  managementFlows : t.managementFlows.Perm t'.managementFlows
  anomalousPatterns : t.anomalousPatterns = t'.anomalousPatterns
  steadyStateFlowsPerMinute : t.steadyStateFlowsPerMinute = t'.steadyStateFlowsPerMinute
  mgtAuditAlertRatePerMinute : t.mgtAuditAlertRatePerMinute = t'.mgtAuditAlertRatePerMinute
  sidDetections : SameDict P.same t.sidDetections t'.sidDetections
  killChains : SameUpTo SameChain t.killChains t'.killChains
  policyMatrix : SameDict P.samePair t.policyMatrix t'.policyMatrix
  endpointContracts : SameDict P.same t.endpointContracts t'.endpointContracts
  fieldNameMapping : List.Forall₂ SameItems t.fieldNameMapping t'.fieldNameMapping
  criticalGotchas : t.criticalGotchas = t'.criticalGotchas
  failureModes : t.failureModes.Perm t'.failureModes
  rbacContract : t.rbacContract = t'.rbacContract
  neverBlockCidrs : t.neverBlockCidrs.Perm t'.neverBlockCidrs
  neverBlockRationale : SameDict P.same t.neverBlockRationale t'.neverBlockRationale
  allowedAgentActions : ∀ v, (∃ a ∈ t.allowedAgentActions, P.same a v = true) ↔
    ∃ a ∈ t'.allowedAgentActions, P.same a v = true
  protectedCommentPrefixes : t.protectedCommentPrefixes = t'.protectedCommentPrefixes
  agentCommentPrefix : t.agentCommentPrefix = t'.agentCommentPrefix

namespace Python

variable {P : Python Obj}

variable (P) in
/-- The start-up on a knowledge base that is there. -/
def bootFrom (kb : Knowledge Obj) (t : Tables Obj) : Tables Obj × Boot :=
  match P.swapTables kb t with
  | (t, .ok ()) => (t, if P.floorHolds t then .graph else .aborted)
  | (t, .error .runtime) => (t, .aborted)
  | (t, .error .other) => (t, .fallback)

theorem boot_of_readAll {q : Answers Obj} {kb : Knowledge Obj} (h : P.readAll q = .ok kb)
    (t : Tables Obj) : P.boot (.ok ()) q t = P.bootFrom kb t := by
  unfold boot
  generalize P.readAll q = r at h
  subst h
  rfl

/-- The swap gets through. -/
def Swappable (P : Python Obj) (kb : Knowledge Obj) : Prop :=
  (∀ fm ∈ itemsOf kb.enforcementPlane.failureModes, (P.modeOf fm).isSome = true) ∧
    ∃ text, kb.enforcementPlane.rbacContract = .str text

variable (P) in
/-- The tables of a swap that gets through. -/
def swapped (kb : Knowledge Obj) (text : PyStr) (t : Tables Obj) : Tables Obj :=
  swapLast kb { swapFirst kb t with
    failureModes := P.modesBefore (itemsOf kb.enforcementPlane.failureModes)
    rbacContract := [10] ++ text ++ [10] }

theorem bootFrom_of_swappable {kb : Knowledge Obj} {t : Tables Obj} {text : PyStr}
    (hmodes : ∀ fm ∈ itemsOf kb.enforcementPlane.failureModes, (P.modeOf fm).isSome = true)
    (htext : kb.enforcementPlane.rbacContract = .str text) :
    P.bootFrom kb t = (P.swapped kb text t,
      if P.floorHolds (P.swapped kb text t) then .graph else .aborted) := by
  unfold bootFrom swapTables swapped
  rw [extendModes_eq, List.all_eq_true.mpr hmodes, htext, List.nil_append]

/-- When all failure modes validate they are all there. -/
theorem modesBefore_of_forall {fms : List (PyVal Obj)}
    (h : ∀ fm ∈ fms, (P.modeOf fm).isSome = true) : P.modesBefore fms = fms.filterMap P.modeOf := by
  induction fms with
  | nil => rfl
  | cons fm rest ih =>
    obtain ⟨hfm, hrest⟩ := List.forall_mem_cons.mp h
    obtain ⟨m, hm⟩ := Option.isSome_iff_exists.mp hfm
    have hcons : P.modesBefore (fm :: rest) = m :: P.modesBefore rest := by
      simp [modesBefore, hm]
    rw [hcons, List.filterMap_cons_some hm, ih hrest]

end Python

namespace Neo4j

variable {N : Neo4j Obj}

/-- A failure mode that comes back is the same one. -/
theorem modeOf_eq {fm fm' : PyVal Obj} (hkept : N.KeptRow ("name" :: FAILURE_FIELDS) fm)
    (hsame : SameItems fm fm') : N.modeOf fm = N.modeOf fm' := by
  obtain ⟨is, js, rfl, rfl, hperm⟩ := hsame
  obtain ⟨value, ⟨items, heq, hitems⟩, -⟩ := hkept
  obtain rfl := PyVal.dict.inj heq
  have hkeys : (is.map Prod.fst).Nodup := by
    refine (hitems.map Prod.fst).nodup_iff.mpr ?_
    rw [List.map_map]
    have hnames : ("name" :: FAILURE_FIELDS).Nodup := by decide
    exact List.pairwise_map.mpr (hnames.imp fun {n m} hne heq =>
      hne (u_injective (PyKey.str.inj heq)))
  have hkeys' : (js.map Prod.fst).Nodup := (hperm.map Prod.fst).nodup_iff.mp hkeys
  have hget (key : PyStr) : getItem key is = getItem key js := by
    ext v
    rw [getItem_eq_some hkeys, getItem_eq_some hkeys', hperm.mem_iff]
  have hall : (is.all fun i => (keyStr i.1).isSome) = js.all fun i => (keyStr i.1).isSome := by
    rw [Bool.eq_iff_iff, List.all_eq_true, List.all_eq_true]
    simp only [hperm.mem_iff]
  have hargs : argsOf (.dict is) = argsOf (.dict js) := by
    unfold argsOf
    simp only [hall, hget]
  rw [Python.modeOf, Python.modeOf, hargs]

section

variable {kb kb' : Knowledge Obj} (hr : N.Recoverable kb) (h : SameKnowledge N.toPython kb kb')
include hr h

/-- The failure modes that are read are those of the knowledge base in some order. -/
theorem exists_failureModes : ∃ modes : List (PyVal Obj),
    (Know.itemsOf kb.enforcementPlane.failureModes).map N.modeOf = modes.map N.modeOf ∧
      modes.Perm (Know.itemsOf kb'.enforcementPlane.failureModes) := by
  obtain ⟨xs, hxs, hkept, -⟩ := hr.failures
  obtain ⟨xs', ys, hxs', hys, l, hl, hperm⟩ := h.enforcementPlane.failureModes
  obtain ⟨-, rfl⟩ := PyVal.seq.inj (hxs.symm.trans hxs')
  refine ⟨l, ?_, by rw [hys]; exact hperm⟩
  rw [hxs]
  have hboth := (List.forall₂_and_left (p := N.KeptRow ("name" :: FAILURE_FIELDS)) xs l).mpr
    ⟨hkept, hl⟩
  rw [← List.forall₂_eq_eq_eq, List.forall₂_map_left_iff, List.forall₂_map_right_iff]
  exact hboth.imp fun fm fm' hfm => modeOf_eq hfm.1 hfm.2

theorem swappable_congr : N.Swappable kb ↔ N.Swappable kb' := by
  obtain ⟨modes, hmap, hperm⟩ := exists_failureModes hr h
  have hall : (∀ fm ∈ Know.itemsOf kb.enforcementPlane.failureModes, (N.modeOf fm).isSome = true) ↔
      ∀ fm ∈ Know.itemsOf kb'.enforcementPlane.failureModes, (N.modeOf fm).isSome = true := by
    have hforall (fms : List (PyVal Obj)) : (∀ fm ∈ fms, (N.modeOf fm).isSome = true) ↔
        ∀ m ∈ fms.map N.modeOf, m.isSome = true := by rw [List.forall_mem_map]
    rw [hforall, hmap, ← hforall]
    simp only [hperm.mem_iff]
  unfold Python.Swappable
  rw [hall, h.enforcementPlane.rbacContract]

omit hr h in
theorem floorHolds_congr {t t' : Tables Obj}
    (ht : t.neverBlockCidrs.Perm t'.neverBlockCidrs) : N.floorHolds t = N.floorHolds t' := by
  unfold Python.floorHolds
  refine List.all_congr rfl fun cidr => ?_
  rw [Bool.eq_iff_iff, List.any_eq_true, List.any_eq_true]
  simp only [ht.mem_iff]

/-- The start-up on the knowledge base that is read ends as that on the knowledge base that was
parsed. -/
theorem bootFrom_congr (t : Tables Obj) :
    (N.bootFrom kb t).2 = (N.bootFrom kb' t).2 ∧
      ((N.bootFrom kb t).2 ≠ .fallback →
        SameTables N.toPython (N.bootFrom kb t).1 (N.bootFrom kb' t).1) := by
  by_cases hswap : N.Swappable kb
  · obtain ⟨modes, hmap, hperm⟩ := exists_failureModes hr h
    obtain ⟨hmodes, text, htext⟩ := hswap
    have hmodes' := ((swappable_congr hr h).mp ⟨hmodes, text, htext⟩).1
    have htext' : kb'.enforcementPlane.rbacContract = .str text := by
      rw [← h.enforcementPlane.rbacContract, htext]
    have hfound : (N.modesBefore (Know.itemsOf kb.enforcementPlane.failureModes)).Perm
        (N.modesBefore (Know.itemsOf kb'.enforcementPlane.failureModes)) := by
      have hread (fms : List (PyVal Obj)) :
          fms.filterMap N.modeOf = (fms.map N.modeOf).filterMap id := by
        rw [List.filterMap_map]
        rfl
      rw [Python.modesBefore_of_forall hmodes, Python.modesBefore_of_forall hmodes', hread, hmap,
        ← hread]
      exact hperm.filterMap N.modeOf
    have htables : SameTables N.toPython (N.swapped kb text t) (N.swapped kb' text t) := by
      obtain ⟨fs, fs', hfs, hfs', hmappings⟩ := h.enforcementPlane.fieldNameMapping
      have hmapped : List.Forall₂ SameItems (Know.itemsOf kb.enforcementPlane.fieldNameMapping)
          (Know.itemsOf kb'.enforcementPlane.fieldNameMapping) := by
        rw [hfs, hfs']
        exact hmappings
      have hgotchas : Know.itemsOf kb.enforcementPlane.criticalGotchas =
          Know.itemsOf kb'.enforcementPlane.criticalGotchas := by
        rw [h.enforcementPlane.criticalGotchas]
      exact {
        zones := h.zones, assets := h.assets, leafs := h.leafs
        allBaselines := h.baselines.patterns
        applicationFlows := h.baselines.patterns.filter _
        managementFlows := h.baselines.patterns.filter _
        anomalousPatterns := h.baselines.anomalousPatterns
        steadyStateFlowsPerMinute := h.baselines.steadyStateFlowsPerMinute
        mgtAuditAlertRatePerMinute := h.baselines.mgtAuditAlertRatePerMinute
        sidDetections := h.sids, killChains := h.killChains, policyMatrix := h.policyMatrix
        endpointContracts := h.enforcementPlane.endpointContracts
        fieldNameMapping := hmapped, criticalGotchas := hgotchas, failureModes := hfound
        rbacContract := rfl
        neverBlockCidrs := h.invariants.neverBlockCidrs
        neverBlockRationale := h.invariants.neverBlockRationale
        allowedAgentActions := h.invariants.allowedAgentActions
        protectedCommentPrefixes := h.invariants.protectedCommentPrefixes
        agentCommentPrefix := h.invariants.agentCommentPrefix }
    rw [Python.bootFrom_of_swappable hmodes htext, Python.bootFrom_of_swappable hmodes' htext',
      floorHolds_congr htables.neverBlockCidrs]
    exact ⟨rfl, fun _ => htables⟩
  · have hswap' := (swappable_congr hr h).not.mp hswap
    unfold Python.bootFrom
    rw [Python.swapTables_error.mpr ⟨rfl, hswap⟩, Python.swapTables_error.mpr ⟨rfl, hswap'⟩]
    exact ⟨rfl, fun hne => absurd rfl hne⟩

end

/-- A start-up after any run of reloads ends as it would on what the last one has parsed, when that
is recoverable, and unless it falls back it leaves the same tables. -/
theorem boot_agrees {safeLoad : PyStr → Option (PyVal Obj)} {files : Files} {parsed : Parsed Obj}
    (hparsed : N.parseAll safeLoad files = some parsed) {kbs : List (Knowledge Obj)}
    {g g' : Graph (PyVal Obj)} (hg : Owned g)
    (hrun : N.reloads (kbs ++ [parsed.knowledge]) g = .ok g') {q : Answers Obj}
    (hq : N.AnswersOf g' q) (hr : N.Recoverable parsed.knowledge) (t : Tables Obj) :
    (N.boot (.ok ()) q t).2 = (N.bootFrom parsed.knowledge t).2 ∧
      ((N.boot (.ok ()) q t).2 ≠ .fallback →
        SameTables N.toPython (N.bootFrom parsed.knowledge t).1 (N.boot (.ok ()) q t).1) := by
  obtain ⟨kb, hread, hsame⟩ := (readAll_reload_iff hparsed hg hrun hq).mpr hr
  obtain ⟨hhow, htables⟩ := bootFrom_congr hr hsame t
  rw [Python.boot_of_readAll hread]
  exact ⟨hhow.symm, fun hne => htables (hhow ▸ hne)⟩

end Neo4j

/-! ## A small knowledge base -/

/-- Files with one address that is never blocked. -/
def smallFiles : Files := fun file => if file = .killChains then some [] else lostFiles file

/-- A text. -/
def isText (v : PyVal PyStr) : Bool := (plainPython.asStr v).isSome

/-- A list with nothing in it. -/
def isNil : PyVal PyStr → Bool
  | .seq false [] => true
  | _ => false

/-- There is nothing in a knowledge base but one address and texts. -/
def isSmall (kb : Knowledge PyStr) : Bool :=
  (kb.assets.isEmpty && kb.baselines.patterns.isEmpty && kb.baselines.anomalousPatterns.isEmpty &&
    kb.policyMatrix.isEmpty && kb.killChains.isEmpty &&
    kb.enforcementPlane.endpointContracts.isEmpty) &&
  (isNil kb.enforcementPlane.fieldNameMapping && isNil kb.enforcementPlane.criticalGotchas &&
    isNil kb.enforcementPlane.failureModes && isText kb.enforcementPlane.rbacContract) &&
  (kb.invariants.neverBlockCidrs.length = 1 && kb.invariants.neverBlockCidrs.all isText &&
    kb.invariants.neverBlockCidrs.all (fun c => isText (plainNeo4j.rationaleOf kb.invariants c)) &&
    kb.invariants.allowedAgentActions.all isText &&
    kb.invariants.protectedCommentPrefixes.isEmpty && isText kb.invariants.agentCommentPrefix)

theorem eq_of_isNil {v : PyVal PyStr} (h : isNil v = true) : v = .seq false [] := by
  unfold isNil at h
  split at h
  · rfl
  · cases h

theorem exists_of_isText {v : PyVal PyStr} (h : isText v = true) : ∃ s, v = .str s := by
  obtain ⟨s, hs⟩ := Option.isSome_iff_exists.mp h
  exact ⟨s, eq_str_of_asStr hs⟩

theorem kept_of_isText {v : PyVal PyStr} (h : isText v = true) : plainNeo4j.Kept v := by
  obtain ⟨s, rfl⟩ := exists_of_isText h
  rfl

theorem keptSet_of_isText {xs : List (PyVal PyStr)} (h : xs.all isText = true) :
    plainNeo4j.KeptSet xs := by
  have hmap : (xs.mapM plainPython.asStr).isSome = true :=
    mapM_isSome.mpr (List.all_eq_true.mp h)
  obtain ⟨ss, hss⟩ := Option.isSome_iff_exists.mp hmap
  have hsorted : plainNeo4j.sortedItems xs = some ((ss.insertionSort (· ≤ ·)).map .str) := by
    show (xs.mapM plainPython.asStr).map _ = _
    rw [hss]
    rfl
  have htexts (ts : List PyStr) :
      (ts.map (PyVal.str : PyStr → PyVal PyStr)).mapM plainPython.asStr = some ts := by
    rw [List.mapM_map]
    have hone : ∀ t ∈ ts, (plainPython.asStr ∘ PyVal.str) t = some (id t) := fun t _ => rfl
    rw [mapM_of_forall hone, List.map_id]
  refine ⟨_, (ss.insertionSort (· ≤ ·)).map .str, hsorted, ?_, ?_, fun v => ?_⟩
  · show ((((ss.insertionSort (· ≤ ·)).map PyVal.str).mapM plainPython.asStr).map texts) = _
    rw [htexts]
    rfl
  · refine List.all_eq_true.mpr fun v hv => ?_
    obtain ⟨s, -, rfl⟩ := List.mem_map.mp hv
    rfl
  · exact (plainNeo4j.sortedItems_same hsorted v).symm

theorem recoverable_of_isSmall {kb : Knowledge PyStr} (h : isSmall kb = true) :
    plainNeo4j.Recoverable kb := by
  simp only [isSmall, Bool.and_eq_true, List.isEmpty_iff, decide_eq_true_eq] at h
  obtain ⟨⟨⟨⟨⟨⟨⟨hassets, hpatterns⟩, hanomalous⟩, hmatrix⟩, hchains⟩, hcontracts⟩,
    ⟨⟨hmapping, hgotchas⟩, hfailures⟩, hrbac⟩,
    ⟨⟨⟨⟨hlength, hcidrs⟩, hrationale⟩, hactions⟩, hprefixes⟩, hprefix⟩ := h
  exact {
    services := by simp [hassets]
    patterns := by simp [hpatterns]
    anomalousPatterns := by rw [hanomalous]; rfl
    verdicts := by simp [hmatrix]
    chains := by simp [hchains]
    stages := by simp [hchains]
    contracts := by simp [hcontracts]
    mappings := ⟨[], eq_of_isNil hmapping, by simp⟩
    gotchas := ⟨[], eq_of_isNil hgotchas, by simp⟩
    failures := ⟨[], eq_of_isNil hfailures, by simp, List.Pairwise.nil⟩
    rbac := kept_of_isText hrbac
    cidrs := by
      obtain ⟨c, hc⟩ := List.length_eq_one_iff.mp hlength
      rw [hc]
      exact List.pairwise_singleton _ _
    rationale := fun c hc => by
      obtain ⟨s, rfl⟩ := exists_of_isText (List.all_eq_true.mp hcidrs c hc)
      exact ⟨by simp, kept_of_isText (List.all_eq_true.mp hrationale _ hc)⟩
    actions := keptSet_of_isText hactions
    prefixes := by rw [hprefixes]; rfl
    agentPrefix := kept_of_isText hprefix }

theorem boot_agrees_small : ∃ (parsed : Parsed PyStr) (g : Graph (PyVal PyStr)),
    plainNeo4j.parseAll lostLoad smallFiles = some parsed ∧
      plainNeo4j.reloads [parsed.knowledge] emptyGraph = .ok g ∧
        (plainNeo4j.boot (.ok ()) (plainNeo4j.query g) bootstrapTables).2 =
          (plainNeo4j.bootFrom parsed.knowledge bootstrapTables).2 := by
  have hrun : ((plainNeo4j.parseAll lostLoad smallFiles).any fun p => isSmall p.knowledge &&
      (plainNeo4j.reloads [p.knowledge] emptyGraph).toOption.isSome) = true := by decide +kernel
  obtain ⟨parsed, hparsed, hboth⟩ := (Option.any_eq_true _ _).mp hrun
  obtain ⟨hsmall, hreloads⟩ := Bool.and_eq_true_iff.mp hboth
  cases hg : plainNeo4j.reloads [parsed.knowledge] emptyGraph with
  | error fault => simp [hg, Except.toOption] at hreloads
  | ok g =>
    have howned : Owned emptyGraph := fun n hn => absurd hn List.not_mem_nil
    have hrun : plainNeo4j.reloads ([] ++ [parsed.knowledge]) emptyGraph = .ok g := hg
    exact ⟨parsed, g, hparsed, hg, (Neo4j.boot_agrees hparsed howned hrun
      (Neo4j.answersOf_query g) (recoverable_of_isSmall hsmall) bootstrapTables).1⟩

end ControlPlane.Know
