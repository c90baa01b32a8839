import ControlPlane.Know.Graph
import Mathlib.Data.List.Perm.Basic

/-!
# What is to be read back

Two knowledge bases are the same up to the order of what the queries list in no order
(`SameKnowledge`). `Recoverable` is what has to hold of a knowledge base for the graph to give it
back: the values come back from the properties that they are stored in, what is merged by a name or
by an address has one of its own, and what is only an edge has nodes at its ends.
-/

namespace ControlPlane.Know

open JsonText PropertyGraph

variable {Obj : Type}

/-! ## The same knowledge base -/

/-- Two dicts that are equal. -/
def SameDict {K V : Type} (same : K → K → Bool) (d e : List (K × V)) : Prop :=
  ∀ k, Dict.lookup same k d = Dict.lookup same k e

/-- Two lists that are the same in some order. -/
def SameUpTo {A : Type} (R : A → A → Prop) (xs ys : List A) : Prop :=
  ∃ l, List.Forall₂ R xs l ∧ l.Perm ys

/-- Two dicts that are equal, with their keys in any order. -/
def SameItems (v w : PyVal Obj) : Prop :=
  ∃ is js, v = .dict is ∧ w = .dict js ∧ is.Perm js

/-- The same stage. -/
structure SameStage (s t : KillChainStage) : Prop where
  stage : s.stage = t.stage
  tactic : s.tactic = t.tactic
  expectedSignals : s.expectedSignals.Perm t.expectedSignals
  productionIndicators : s.productionIndicators = t.productionIndicators
  falsePositiveSources : s.falsePositiveSources = t.falsePositiveSources

/-- The same kill chain. -/
structure SameChain (c d : KillChain) : Prop where
  name : c.name = d.name
  productionDescription : c.productionDescription = d.productionDescription
  stages : SameUpTo SameStage c.stages d.stages
  typicalDwellBetweenStages : c.typicalDwellBetweenStages = d.typicalDwellBetweenStages
  recommendedInterventionPoint : c.recommendedInterventionPoint = d.recommendedInterventionPoint
  containmentStrategy : c.containmentStrategy = d.containmentStrategy

/-- The same baselines. -/
structure SameBaselines (b c : Baselines Obj) : Prop where
  patterns : b.patterns.Perm c.patterns
  anomalousPatterns : b.anomalousPatterns = c.anomalousPatterns
  steadyStateFlowsPerMinute : b.steadyStateFlowsPerMinute = c.steadyStateFlowsPerMinute
  mgtAuditAlertRatePerMinute : b.mgtAuditAlertRatePerMinute = c.mgtAuditAlertRatePerMinute

/-- The same enforcement plane. -/
structure SamePlane (P : Python Obj) (e f : EnforcementPlane Obj) : Prop where
  endpointContracts : SameDict P.same e.endpointContracts f.endpointContracts
  fieldNameMapping : ∃ xs ys, e.fieldNameMapping = .seq false xs ∧
    f.fieldNameMapping = .seq false ys ∧ List.Forall₂ SameItems xs ys
  criticalGotchas : e.criticalGotchas = f.criticalGotchas
  failureModes : ∃ xs ys, e.failureModes = .seq false xs ∧ f.failureModes = .seq false ys ∧
    SameUpTo SameItems xs ys
  rbacContract : e.rbacContract = f.rbacContract

/-- The same invariants. -/
structure SameInvariants (P : Python Obj) (i j : Invariants Obj) : Prop where
  neverBlockCidrs : i.neverBlockCidrs.Perm j.neverBlockCidrs
  neverBlockRationale : SameDict P.same i.neverBlockRationale j.neverBlockRationale
  allowedAgentActions : ∀ v, (∃ a ∈ i.allowedAgentActions, P.same a v = true) ↔
    ∃ a ∈ j.allowedAgentActions, P.same a v = true
  protectedCommentPrefixes : i.protectedCommentPrefixes = j.protectedCommentPrefixes
  agentCommentPrefix : i.agentCommentPrefix = j.agentCommentPrefix

/-- The same knowledge base, up to the order of what is listed in no order. -/
structure SameKnowledge (P : Python Obj) (kb kb' : Knowledge Obj) : Prop where
  zones : SameDict P.same kb.zones kb'.zones
  assets : SameDict P.same kb.assets kb'.assets
  leafs : SameDict P.same kb.leafs kb'.leafs
  baselines : SameBaselines kb.baselines kb'.baselines
  policyMatrix : SameDict P.samePair kb.policyMatrix kb'.policyMatrix
  sids : SameDict P.same kb.sids kb'.sids
  killChains : SameUpTo SameChain kb.killChains kb'.killChains
  enforcementPlane : SamePlane P kb.enforcementPlane kb'.enforcementPlane
  invariants : SameInvariants P kb.invariants kb'.invariants

/-! ## What comes back -/

namespace Neo4j

variable (N : Neo4j Obj)

/-- A value is there, and comes back from the property that is set to it. -/
def Kept (v : PyVal Obj) : Prop := N.given v = some v

/-- A dict of these names and no others, whose values come back. -/
def KeptRow (names : List String) (row : PyVal Obj) : Prop :=
  ∃ value : String → PyVal Obj, (∃ items, row = .dict items ∧
    items.Perm (names.map fun name => item name (value name))) ∧ ∀ name ∈ names, N.Kept (value name)

/-- The services of an asset come back from their JSON text: their ports are not too long to be
written, and their texts have no pairs of surrogates, which are joined. -/
structure KeptService (s : Service) : Prop where
  port : (natText s.port.natAbs).length ≤ N.maxDigits
  proto : Joined s.proto
  name : Joined s.name
  facing : Joined s.facing
  purpose : Joined s.purpose

/-- A set comes back from the list that it is stored as. -/
def KeptSet (xs : List (PyVal Obj)) : Prop :=
  ∃ ys zs, N.sortedItems xs = some ys ∧ N.store (.seq false ys) = some (.seq false zs) ∧
    zs.all N.hashable = true ∧
    ∀ v, (∃ x ∈ xs, N.same x v = true) ↔ ∃ z ∈ zs, N.same z v = true

/-- A zone has the name. -/
def HasZone (kb : Knowledge Obj) (name : PyVal Obj) : Prop :=
  ∃ z ∈ kb.zones, N.equal z.1 name = true

/-- The stages of a kill chain come back: they are told apart by their numbers, and each of them has
signals, which are different ones and have a signature each. -/
structure KeptStages (kb : Knowledge Obj) (c : KillChain) : Prop where
  stages : (c.stages.map KillChainStage.stage).Nodup
  signals : ∀ s ∈ c.stages, s.expectedSignals ≠ [] ∧ s.expectedSignals.Nodup ∧
    ∀ sid ∈ s.expectedSignals, ∃ d ∈ kb.sids, N.equal d.1 (.int sid) = true

/-- What has to hold of a knowledge base for the graph to give it back. -/
structure Recoverable (kb : Knowledge Obj) : Prop where
  services : ∀ i ∈ kb.assets, ∀ s ∈ i.2.services, N.KeptService s
  patterns : (kb.baselines.patterns.map TrafficPattern.name).Nodup
  anomalousPatterns : N.Kept (.seq false kb.baselines.anomalousPatterns)
  verdicts : ∀ i ∈ kb.policyMatrix, (i.2 = .str (u "ALLOW") ∨ i.2 = .str (u "DENY")) ∧
    N.HasZone kb i.1.1 ∧ N.HasZone kb i.1.2
  chains : (kb.killChains.map KillChain.name).Nodup
  stages : ∀ c ∈ kb.killChains, N.KeptStages kb c
  contracts : ∀ i ∈ kb.enforcementPlane.endpointContracts,
    (∀ frozen xs, i.1 ≠ .seq frozen xs) ∧ N.Kept i.2
  mappings : ∃ rows, kb.enforcementPlane.fieldNameMapping = .seq false rows ∧
    ∀ row ∈ rows, N.KeptRow MAPPING_FIELDS row
  gotchas : ∃ xs, kb.enforcementPlane.criticalGotchas = .seq false xs ∧ ∀ x ∈ xs, N.Kept x
  failures : ∃ rows, kb.enforcementPlane.failureModes = .seq false rows ∧
    (∀ row ∈ rows, N.KeptRow ("name" :: FAILURE_FIELDS) row) ∧
    rows.Pairwise fun row row' => ∀ v w, field "name" row = some v → field "name" row' = some w →
      N.equal v w = false
  rbac : N.Kept kb.enforcementPlane.rbacContract
  cidrs : kb.invariants.neverBlockCidrs.Pairwise fun c d => N.equal c d = false
  rationale : ∀ c ∈ kb.invariants.neverBlockCidrs, (∀ frozen xs, c ≠ .seq frozen xs) ∧
    N.Kept (N.rationaleOf kb.invariants c)
  actions : N.KeptSet kb.invariants.allowedAgentActions
  prefixes : N.Kept (.seq false kb.invariants.protectedCommentPrefixes)
  agentPrefix : N.Kept kb.invariants.agentCommentPrefix

/-! ## Values in properties -/

variable {N}

theorem given_of_scalar {v : PyVal Obj} (hv : ∀ frozen xs, v ≠ .seq frozen xs)
    (hnull : isNull v = false) (h : (N.store v).isSome = true) : N.given v = some v := by
  obtain ⟨w, hw⟩ := Option.isSome_iff_exists.mp h
  have hwv := N.store_scalar hv hw
  rw [given, hw, hwv, Option.filter_some, hnull]
  rfl

theorem given_str {s : PyStr} (h : (N.store (.str s)).isSome = true) :
    N.given (.str s) = some (.str s) := given_of_scalar (by simp) rfl h

theorem given_int {n : ℤ} (h : (N.store (.int n)).isSome = true) :
    N.given (.int n) = some (.int n) := given_of_scalar (by simp) rfl h

theorem given_bool {b : Bool} (h : (N.store (.bool b)).isSome = true) :
    N.given (.bool b) = some (.bool b) := given_of_scalar (by simp) rfl h

theorem given_texts {ss : List PyStr} (h : (N.store (texts ss)).isSome = true) :
    N.given (texts ss) = some (texts ss) := by
  obtain ⟨w, hw⟩ := Option.isSome_iff_exists.mp h
  rw [given, hw, N.store_strs hw]
  rfl

theorem stored_of_scalar {v : PyVal Obj} (hv : ∀ frozen xs, v ≠ .seq frozen xs) :
    N.stored v = v := by
  unfold stored
  cases hw : N.store v with
  | none => rfl
  | some w => exact N.store_scalar hv hw

/-- A list that is stored comes back as a list. -/
theorem exists_given_seq {frozen : Bool} {xs : List (PyVal Obj)}
    (h : (N.store (.seq frozen xs)).isSome = true) :
    ∃ ys, N.store (.seq frozen xs) = some (.seq false ys) ∧
      N.given (.seq frozen xs) = some (.seq false ys) := by
  obtain ⟨w, hw⟩ := Option.isSome_iff_exists.mp h
  obtain ⟨ys, rfl⟩ := N.store_seq hw
  refine ⟨ys, hw, ?_⟩
  rw [given, hw]
  rfl

/-! ## Rows -/

variable (N) in
/-- The node that a statement creates. -/
def rowOf (key : String) (value : PyVal Obj) (params : Params Obj) : Args Obj :=
  Props.fresh [(key, N.stored value)] (N.setsOf params)

variable (N) in
/-- A statement for a node does not fail. -/
structure Sent (value : PyVal Obj) (params : Params Obj) : Prop where
  value_ne : isNull value = false
  value_stored : (N.store value).isSome = true
  params_stored : ∀ p ∈ params, (N.store p.2).isSome = true

theorem node_eq_ok {label key : String} {value : PyVal Obj} {params : Params Obj}
    {st : Statement (PyVal Obj)} : N.node label key value params = .ok st ↔
      N.Sent value params ∧ st = N.nodeStatement label key value params := by
  unfold node
  split_ifs with h
  · simp only [storable, Bool.and_eq_true, Bool.not_eq_true', List.all_eq_true] at h
    constructor
    · intro hst
      exact ⟨⟨h.1.1, h.1.2, h.2⟩, (Except.ok.inj hst).symm⟩
    · rintro ⟨-, rfl⟩
      rfl
  · constructor
    · intro hst
      cases hst
    · rintro ⟨hsent, -⟩
      refine absurd ?_ h
      simp only [storable, Bool.and_eq_true, Bool.not_eq_true', List.all_eq_true]
      exact ⟨⟨hsent.value_ne, hsent.value_stored⟩, hsent.params_stored⟩

/-- The names of a node's properties are different. -/
def CleanNames (key : String) (params : Params Obj) : Prop :=
  (key :: "kg_managed" :: params.map Prod.fst).Nodup

theorem names_setsOf (params : Params Obj) :
    (N.setsOf params).map Prod.fst = "kg_managed" :: params.map Prod.fst := by
  simp [setsOf, KG_MANAGED]

section

variable {key : String} {value : PyVal Obj} {params : Params Obj}

theorem rowOf_key (hc : CleanNames key params) :
    N.rowOf key value params key = some (N.stored value) := by
  refine Props.fresh_key ?_
  rw [names_setsOf]
  exact (List.nodup_cons.mp hc).1

theorem rowOf_param (hc : CleanNames key params) {p : String × PyVal Obj} (hp : p ∈ params) :
    N.rowOf key value params p.1 = N.given p.2 := by
  refine Props.setAll_of_mem ?_ (List.mem_cons_of_mem _ (List.mem_map_of_mem hp))
  rw [names_setsOf]
  exact (List.nodup_cons.mp hc).2

theorem managed_rowOf (hc : CleanNames key params) : managed (N.rowOf key value params) = true := by
  have hvalue : N.rowOf key value params "kg_managed" = some (.bool true) := by
    refine Props.setAll_of_mem ?_ List.mem_cons_self
    rw [names_setsOf]
    exact (List.nodup_cons.mp hc).2
  rw [managed, hvalue]

theorem rowOf_str (hc : CleanNames key params) (hs : N.Sent value params) {name : String}
    {s : PyStr} (h : (name, .str s) ∈ params) :
    N.rowOf key value params name = some (.str s) :=
  (rowOf_param hc h).trans (given_str (hs.params_stored _ h))

theorem strArg_rowOf (hc : CleanNames key params) (hs : N.Sent value params) {name : String}
    {s : PyStr} (h : (name, .str s) ∈ params) :
    N.strArg (N.rowOf key value params) name = some s := by
  rw [Python.strArg, rowOf_str hc hs h]
  exact N.asStr_str s

theorem rowOf_int (hc : CleanNames key params) (hs : N.Sent value params) {name : String}
    {n : ℤ} (h : (name, .int n) ∈ params) :
    N.rowOf key value params name = some (.int n) :=
  (rowOf_param hc h).trans (given_int (hs.params_stored _ h))

theorem intArg_rowOf (hc : CleanNames key params) (hs : N.Sent value params) {name : String}
    {n : ℤ} (h : (name, .int n) ∈ params) :
    N.intArg (N.rowOf key value params) name = some n := by
  rw [Python.intArg, rowOf_int hc hs h]
  exact N.asInt_int n

theorem rowOf_texts (hc : CleanNames key params) (hs : N.Sent value params) {name : String}
    {ss : List PyStr} (h : (name, texts ss) ∈ params) :
    N.rowOf key value params name = some (texts ss) :=
  (rowOf_param hc h).trans (given_texts (hs.params_stored _ h))

end

end Neo4j

end ControlPlane.Know
