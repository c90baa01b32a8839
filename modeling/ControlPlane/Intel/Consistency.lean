import ControlPlane.Intel.Topology
import ControlPlane.Lib.Dict
import ControlPlane.Lib.Json
import ControlPlane.Lib.Traverse
import Mathlib.Data.List.MinMax

/-!
# The vote over several runs

The model of `agent/safety/consistency.py` and of `agent/safety/semantic_uncertainty.py`. The runs
vote on an action, and are to agree on the source as well. What is returned is the last result with
the winning action, whatever its source is, so the vote is right exactly when that result proposes
what the runs agree on (`voteRight_iff`); and the shape of a result is read without a check, so one
that cannot be read raises.
-/

namespace ControlPlane.Intel

open Text

/-- What a call of `chat_json` does. -/
inductive LlmCall where
  | failed (e : Exc)
  | value (result : Json)

/-- The interpreter, as the vote meets it. -/
structure VoteTypes extends Py where
  /-- Two values that can be hashed are one key of a dict. -/
  same : Json → Json → Bool
  same_equiv : Equivalence fun k l => same k l = true
  /-- A text is one key with an equal text only. -/
  same_str : ∀ (s : String) (x : Json), same (.str s) x = x.isStr s
  /-- The loop of `semantic_entropy` over the sizes of the clusters. -/
  entropy : List ℕ → PyFloat
  /-- `f"{d / n:.0%}"`. -/
  percent : ℕ → ℕ → String
  /-- `str` of the votes for each action. -/
  actionsSummary : List (Json × ℕ) → String
  /-- `str` of the clusters. -/
  clusters : List (String × ℕ) → String

/-- A value that can be hashed. -/
def hashable : Json → Bool
  | .arr _ | .obj _ => false
  | _ => true

/-- The exception for a value that cannot be hashed. -/
def unhashable (x : Json) : Exc := ⟨"TypeError", "unhashable type: '" ++ x.typeName ++ "'"⟩

/-- `Counter(xs)`. -/
def counter {A : Type} (same : A → A → Bool) (xs : List A) : List (A × ℕ) :=
  (Dict.group same (xs.map fun x => (x, ()))).map fun i => (i.1, i.2.length)

/-! ## The shape of a result -/

/-- `_ttl_bucket`. -/
def ttlBucket (ttl : ℤ) : String :=
  if ttl ≤ 0 then "none"
  else if ttl < 600 then "short"
  else if ttl < 1800 then "medium"
  else if ttl < 3600 then "long"
  else "max"

/-- `ip_to_zone(ip) or "unknown"`, for any value. -/
def zoneOrUnknown : Json → Except Exc String
  | .str ip => .ok ((ipToZone ip).elim "unknown" Zone.name)
  | x => .error ⟨"AttributeError", "'" ++ x.typeName ++ "' object has no attribute 'split'"⟩

section

variable (V : VoteTypes)

/-- `_decision_signature`. -/
def decisionSignature (intent : Json) : Except Exc String := do
  let srcIp ← intent.getD "src_ip" (.str "")
  let dstIp ← intent.getD "dst_ip" (.str "")
  let srcZone ← zoneOrUnknown srcIp
  let dstZone ← if dstIp.truthy then zoneOrUnknown dstIp else .ok "none"
  let action ← intent.getD "action" (.str "UNKNOWN")
  let dstPort ← intent.getD "dst_port" (.int 0)
  let ttl ← intent.getD "ttl_seconds" (.int 0)
  let ttl ← (ttl.orElse (.int 0)).intOf V.toPyText
  return V.fmt action ++ "|src=" ++ srcZone ++ "|dst=" ++ dstZone ++ "|port=" ++ V.fmt dstPort ++
    "|ttl=" ++ ttlBucket ttl

/-- `semantic_entropy`, of results: the entropy and the clusters. -/
def semanticEntropy (intents : List Json) : Except Exc (PyFloat × List (String × ℕ)) := do
  let signatures ← intents.mapM (decisionSignature V)
  let counts := counter (fun s t => s = t) signatures
  return (V.entropy (counts.map Prod.snd), counts)

/-- The sources that the results propose. -/
def srcIps (intents : List Json) : Except Exc (List Json) := do
  let all ← intents.mapM fun i => i.getD "src_ip" (.str "")
  return all.filter Json.truthy

/-- `src_ip_consensus_ratio`: the number of the results that propose the dominant source, which is
to be divided by that of all results, and the source. -/
def srcIpConsensus (intents : List Json) : Except Exc (ℕ × Json) := do
  let ips ← srcIps intents
  match ips.find? fun ip => !hashable ip with
  | some ip => .error (unhashable ip)
  | none =>
    match (counter V.same ips).argmax Prod.snd with
    | none => .ok (0, .str "")
    | some (dominant, domCount) => .ok (domCount, dominant)

/-- `d / n < 0.67`. The quotient is rounded to the nearest float, and 0.67 is the float
`6034823500676465 / 2 ^ 53`; from the middle between it and the float before, which is even, the
quotient is rounded down. -/
def belowConsensus (d n : ℕ) : Bool := decide (2 ^ 54 * d ≤ 12069647001352929 * n)

/-- `evaluate_uncertainty`. -/
def evaluateUncertainty (intents : List Json) : Except Exc (Bool × String) := do
  if intents.length ≤ 1 then return (true, "")
  let (entropy, clusters) ← semanticEntropy V intents
  if PyFloat.lt ⟨.fin 1, "1.0"⟩ entropy then
    return (false, "L2+ semantic entropy " ++ entropy.fixed2 ++ " bits exceeds 1.0 — " ++
      "runs disagreed on decision shape: " ++ V.clusters clusters)
  let (domCount, dominant) ← srcIpConsensus V intents
  if belowConsensus domCount intents.length then
    return (false, "L2+ src_ip consensus " ++ V.percent domCount intents.length ++
      " below 67% — dominant target was " ++ (match dominant with
        | .str s => V.repr s
        | x => V.fmt x) ++ ", possible hallucination")
  return (true, "")

/-! ## The runs -/

/-- The body of the `try`: the action of a result that votes for one. -/
def voteOf : LlmCall → Except Exc (Json × Json)
  | .failed e => .error e
  | .value result => do
    let action ← result.getD "action" (.str "UNKNOWN")
    if hashable action then return (action, result) else .error (unhashable action)

/-- `f"{type(exc).__name__}: {str(exc)[:120]}"`. -/
def errorText (e : Exc) : String := e.name ++ ": " ++ String.ofList (e.msg.toList.take 120)

/-- The attempts of a run, from the given call on: the vote, if there is one, the next call and the
last error. -/
def runAttempts (calls : ℕ → LlmCall) :
    ℕ → ℕ → String → Option (Json × Json) × ℕ × String
  | 0, call, lastError => (none, call, lastError)
  | attempts + 1, call, lastError =>
    match voteOf (calls call) with
    | .ok vote => (some vote, call + 1, lastError)
    | .error e => runAttempts calls attempts (call + 1) (errorText e)

/-- The runs, from the given call on: the votes in the order of the runs, and the last error. -/
def runVotes (calls : ℕ → LlmCall) (attempts : ℕ) :
    ℕ → ℕ → String → List (Json × Json) × String
  | 0, _, lastError => ([], lastError)
  | runs + 1, call, lastError =>
    let (vote, call, lastError) := runAttempts calls attempts call lastError
    let (votes, lastError) := runVotes calls attempts runs call lastError
    (vote.toList ++ votes, lastError)

/-- `self_consistency_vote`. -/
def selfConsistencyVote (calls : ℕ → LlmCall) (nRuns minAgree maxRetriesPerRun : ℤ) :
    Except Exc (Option Json × String) := do
  let (cast, lastError) := runVotes calls (maxRetriesPerRun + 1).toNat nRuns.toNat 0 ""
  let votes := Dict.group V.same cast
  match votes.argmax fun v => v.2.length with
  | none => return (none, "L2: All self-consistency runs failed (last: " ++ lastError ++ ")")
  | some (_, best) =>
    if (best.length : ℤ) < minAgree then
      return (none, "L2: Self-consistency failed — no action reached " ++ toString minAgree ++
        "/" ++ toString nRuns ++ " agreement. Votes: " ++
        V.actionsSummary (votes.map fun v => (v.1, v.2.length)))
    let (passed, reason) ← evaluateUncertainty V (votes.flatMap Prod.snd)
    if passed then return (best.getLast?, "") else return (none, reason)

end

/-! ## What a vote is to give -/

/-- The votes that the runs cast, in their order: an action and the result that has it. -/
def castVotes (calls : ℕ → LlmCall) (nRuns maxRetriesPerRun : ℤ) : List (Json × Json) :=
  (runVotes calls (maxRetriesPerRun + 1).toNat nRuns.toNat 0 "").1

/-- The source that a result proposes, if it proposes one. -/
def sourceOf (result : Json) : Option String :=
  match result.getD "src_ip" (.str "") with
  | .ok (.str s) => if s = "" then none else some s
  | _ => none

/-- How many of the votes propose a source. -/
def proposing (cast : List (Json × Json)) (ip : String) : ℕ :=
  cast.countP fun v => sourceOf v.2 = some ip

/-- A result proposes the dominant source, and at least 67% of the results do. -/
def IsDominant (cast : List (Json × Json)) (result : Json) : Prop :=
  ∃ ip, sourceOf result = some ip ∧ (∀ ip', proposing cast ip' ≤ proposing cast ip) ∧
    67 * cast.length ≤ 100 * proposing cast ip

section

variable (V : VoteTypes)

/-- How many votes an action has. -/
def votesFor (cast : List (Json × Json)) (action : Json) : ℕ :=
  cast.countP fun v => V.same v.1 action

/-- A result has an action with the most votes, which are enough. -/
def IsPlurality (cast : List (Json × Json)) (minAgree : ℤ) (result : Json) : Prop :=
  ∃ action, (action, result) ∈ cast ∧
    (∀ v ∈ cast, votesFor V cast v.1 ≤ votesFor V cast action) ∧
    minAgree ≤ votesFor V cast action

/-- The vote does not raise, and it returns an error, or a result that the runs agree on. -/
def VoteRight (calls : ℕ → LlmCall) (nRuns minAgree maxRetriesPerRun : ℤ) : Prop :=
  ∃ result error, selfConsistencyVote V calls nRuns minAgree maxRetriesPerRun =
      .ok (result, error) ∧
    ((result = none ∧ error ≠ "") ∨ ∃ r, result = some r ∧ error = "" ∧
      IsPlurality V (castVotes calls nRuns maxRetriesPerRun) minAgree r ∧
      (2 ≤ (castVotes calls nRuns maxRetriesPerRun).length →
        IsDominant (castVotes calls nRuns maxRetriesPerRun) r))

/-- The results, by their action. -/
def resultsOf (cast : List (Json × Json)) : List Json := (Dict.group V.same cast).flatMap Prod.snd

/-- The last result with the winning action. -/
def lastWinner (cast : List (Json × Json)) : Option Json :=
  ((Dict.group V.same cast).argmax fun v => v.2.length).bind fun v => v.2.getLast?

/-- The runs disagree: the entropy of the shapes is too high, or too few propose any source. -/
def Disagree (cast : List (Json × Json)) : Prop :=
  (∃ entropy clusters, semanticEntropy V (resultsOf V cast) = .ok (entropy, clusters) ∧
    PyFloat.lt ⟨.fin 1, "1.0"⟩ entropy = true) ∨
  ∀ ip, belowConsensus (proposing cast ip) cast.length = true

/-- There is nothing to agree on, or the shapes can be read and the runs disagree, or the last
result with the winning action proposes what at least 67% of the runs propose. -/
def VoteFine (cast : List (Json × Json)) (minAgree : ℤ) : Prop :=
  cast.length ≤ 1 ∨ (∀ v ∈ cast, (votesFor V cast v.1 : ℤ) < minAgree) ∨
    ((∀ v ∈ cast, ∃ signature, decisionSignature V v.2 = .ok signature) ∧
      (Disagree V cast ∨ ∃ r ip, lastWinner V cast = some r ∧ sourceOf r = some ip ∧
        67 * cast.length ≤ 100 * proposing cast ip))

end

/-! ## Counting -/

section

variable {A W : Type} {same : A → A → Bool}

/-- A key of a grouping has the values of its items, and there is one. -/
theorem of_mem_group (hsame : Equivalence fun k l => same k l = true) {items : List (A × W)}
    {i : A × List W} (hi : i ∈ Dict.group same items) :
    i.2 = (items.filter fun j => same j.1 i.1).map Prod.snd ∧
      ∃ j ∈ items, same j.1 i.1 = true := by
  have hfound := Dict.lookup_of_mem hsame (Dict.distinct_group hsame items) hi
  have hvalues := Dict.lookup_group hsame items i.1
  rw [hfound, Option.getD_some] at hvalues
  refine ⟨hvalues, (Dict.lookup_group_isSome hsame items i.1).mp ?_⟩
  rw [hfound]
  rfl

/-- Each item has its key in the grouping. -/
theorem exists_mem_group (hsame : Equivalence fun k l => same k l = true) {items : List (A × W)}
    {j : A × W} (hj : j ∈ items) : ∃ i ∈ Dict.group same items, same i.1 j.1 = true := by
  rw [Dict.exists_key_iff, Dict.lookup_group_isSome hsame]
  exact ⟨j, hj, hsame.refl _⟩

/-- Keys that are one are counted alike. -/
theorem countP_congr_same (hsame : Equivalence fun k l => same k l = true) {k l : A}
    (h : same k l = true) (items : List (A × W)) :
    (items.countP fun j => same j.1 k) = items.countP fun j => same j.1 l := by
  refine List.countP_congr fun j _ => ?_
  exact ⟨fun hj => hsame.trans hj h, fun hj => hsame.trans hj (hsame.symm h)⟩

/-- The length of the values of a key is the number of its items. -/
theorem length_of_mem_group (hsame : Equivalence fun k l => same k l = true)
    {items : List (A × W)} {i : A × List W} (hi : i ∈ Dict.group same items) :
    i.2.length = items.countP fun j => same j.1 i.1 := by
  rw [(of_mem_group hsame hi).1, List.length_map, List.countP_eq_length_filter]

end

/-- What has 67% of the results has more than any other source. -/
theorem proposing_le_of_share {cast : List (Json × Json)} {ip : String}
    (h : 67 * cast.length ≤ 100 * proposing cast ip) (ip' : String) :
    proposing cast ip' ≤ proposing cast ip := by
  by_cases heq : ip' = ip
  · rw [heq]
  · -- no result proposes both
    have hothers : proposing cast ip' ≤
        cast.countP fun v => ¬ decide (sourceOf v.2 = some ip) = true := by
      refine List.countP_mono_left fun v _ hv => ?_
      have hv : sourceOf v.2 = some ip' := of_decide_eq_true hv
      refine decide_eq_true fun hip => heq ?_
      exact Option.some_inj.mp (hv.symm.trans (of_decide_eq_true hip))
    have htotal : cast.length = proposing cast ip + _ := List.length_eq_countP_add_countP _
    omega

/-! ## The consensus on the source -/

/-- The source of a result whose shape can be read is a text. -/
theorem exists_src_of_decisionSignature {V : VoteTypes} {intent : Json} {signature : String}
    (h : decisionSignature V intent = .ok signature) :
    ∃ s, intent.getD "src_ip" (.str "") = .ok (.str s) := by
  obtain ⟨srcIp, hsrc, h⟩ := except_bind_eq_ok h
  obtain ⟨dstIp, -, h⟩ := except_bind_eq_ok h
  obtain ⟨srcZone, hzone, -⟩ := except_bind_eq_ok h
  cases srcIp with
  | str s => exact ⟨s, hsrc⟩
  | _ => cases hzone

/-- The sources of results that have texts for them are the texts that are not empty. -/
theorem srcIps_eq {intents : List Json}
    (h : ∀ i ∈ intents, ∃ s, i.getD "src_ip" (.str "") = .ok (.str s)) :
    srcIps intents = .ok ((intents.filterMap sourceOf).map .str) := by
  have hall : ∃ all, intents.mapM (fun i => i.getD "src_ip" (.str "")) = .ok all ∧
      all.filter Json.truthy = (intents.filterMap sourceOf).map .str := by
    induction intents with
    | nil => exact ⟨[], rfl, rfl⟩
    | cons i intents ih =>
      obtain ⟨⟨s, hs⟩, hrest⟩ := List.forall_mem_cons.mp h
      obtain ⟨all, hmap, hfilter⟩ := ih hrest
      refine ⟨.str s :: all, ?_, ?_⟩
      · rw [List.mapM_cons, hs, hmap]
        rfl
      · by_cases hempty : s = ""
        · have hsource : sourceOf i = none := by
            unfold sourceOf
            rw [hs]
            simp [hempty]
          rw [List.filterMap_cons_none hsource,
            List.filter_cons_of_neg (by simp [Json.truthy, hempty]), hfilter]
        · have hsource : sourceOf i = some s := by
            unfold sourceOf
            rw [hs]
            simp [hempty]
          rw [List.filterMap_cons_some hsource,
            List.filter_cons_of_pos (by simp [Json.truthy, hempty]), hfilter]
          rfl
  obtain ⟨all, hmap, hfilter⟩ := hall
  unfold srcIps
  rw [hmap, ← hfilter]
  rfl

/-- An entry of the counter of texts is a text with its count. -/
theorem of_mem_counter_str {V : VoteTypes} {texts : List String} {i : Json × ℕ}
    (hi : i ∈ counter V.same (texts.map .str)) : ∃ s, i = (.str s, texts.count s) := by
  obtain ⟨g, hg, rfl⟩ := List.mem_map.mp hi
  obtain ⟨-, j, hj, hsame⟩ := of_mem_group V.same_equiv hg
  rw [List.map_map] at hj
  obtain ⟨s, -, rfl⟩ := List.mem_map.mp hj
  have hkey : g.1 = .str s := by
    have hstr : g.1.isStr s = true := (V.same_str s g.1).symm.trans hsame
    unfold Json.isStr at hstr
    split at hstr
    · next t ht => rw [ht, eq_of_beq hstr]
    · cases hstr
  refine ⟨s, ?_⟩
  have hlength := length_of_mem_group V.same_equiv hg
  rw [hkey, List.map_map, List.countP_map] at hlength
  rw [hkey, hlength]
  refine congrArg (Prod.mk (Json.str s)) (List.countP_congr fun t _ => ?_)
  show V.same (.str t) (.str s) = true ↔ (t == s) = true
  rw [V.same_str]
  show (s == t) = true ↔ (t == s) = true
  rw [beq_iff_eq, beq_iff_eq, eq_comm]

/-- The consensus counts the source that the most results propose. -/
theorem srcIpConsensus_spec (V : VoteTypes) {intents : List Json}
    (h : ∀ i ∈ intents, ∃ s, i.getD "src_ip" (.str "") = .ok (.str s)) :
    ∃ d dominant, srcIpConsensus V intents = .ok (d, dominant) ∧
      (∀ ip, (intents.filterMap sourceOf).count ip ≤ d) ∧
      (d = 0 ∨ ∃ ip, (intents.filterMap sourceOf).count ip = d) := by
  have hhash : ((intents.filterMap sourceOf).map Json.str).find? (fun ip => !hashable ip) =
      none := by
    rw [List.find?_eq_none]
    intro x hx
    obtain ⟨s, -, rfl⟩ := List.mem_map.mp hx
    simp [hashable]
  -- each source that is proposed is counted
  have hcounted : ∀ ip ∈ intents.filterMap sourceOf, ∃ i ∈ counter V.same
      ((intents.filterMap sourceOf).map .str),
        i = (Json.str ip, (intents.filterMap sourceOf).count ip) := by
    intro ip hip
    have hitem : ((Json.str ip, ()) : Json × Unit) ∈
        ((intents.filterMap sourceOf).map Json.str).map fun x => (x, ()) :=
      List.mem_map_of_mem (List.mem_map_of_mem hip)
    obtain ⟨g, hg, hsame⟩ := exists_mem_group V.same_equiv hitem
    have hi := List.mem_map_of_mem (f := fun i : Json × List Unit => (i.1, i.2.length)) hg
    obtain ⟨s, hs⟩ := of_mem_counter_str hi
    rw [Prod.mk.injEq] at hs
    have hsip : s = ip := by
      rw [hs.1, V.same_str] at hsame
      exact (eq_of_beq hsame).symm
    refine ⟨_, hi, ?_⟩
    rw [hs.1, hs.2, hsip]
  unfold srcIpConsensus
  rw [srcIps_eq h]
  simp only [bind, Except.bind, hhash]
  cases hmax : (counter V.same ((intents.filterMap sourceOf).map .str)).argmax Prod.snd with
  | none =>
    refine ⟨0, .str "", rfl, fun ip => ?_, .inl rfl⟩
    by_contra hpos
    obtain ⟨i, hi, -⟩ := hcounted ip (List.count_pos_iff.mp (Nat.pos_of_ne_zero fun h0 => by omega))
    rw [List.argmax_eq_none.mp hmax] at hi
    exact List.not_mem_nil hi
  | some found =>
    obtain ⟨s, hfound⟩ := of_mem_counter_str (List.argmax_mem hmax)
    subst hfound
    refine ⟨_, _, rfl, fun ip => ?_, .inr ⟨s, rfl⟩⟩
    by_cases hip : ip ∈ intents.filterMap sourceOf
    · obtain ⟨i, hi, rfl⟩ := hcounted ip hip
      exact List.le_of_mem_argmax hi hmax
    · rw [List.count_eq_zero_of_not_mem hip]
      exact Nat.zero_le _

/-! ## The gate -/

theorem belowConsensus_of_le {d d' n : ℕ} (h : d' ≤ d) (hd : belowConsensus d n = true) :
    belowConsensus d' n = true := by
  have hd : 2 ^ 54 * d ≤ 12069647001352929 * n := of_decide_eq_true hd
  exact decide_eq_true (by omega)

/-- A result whose shape cannot be read makes the gate raise. -/
theorem evaluateUncertainty_of_unread {V : VoteTypes} {intents : List Json}
    (hlen : 2 ≤ intents.length) {i : Json} (hi : i ∈ intents)
    (h : ¬ ∃ signature, decisionSignature V i = .ok signature) :
    ∃ e, evaluateUncertainty V intents = .error e := by
  cases hgate : evaluateUncertainty V intents with
  | error e => exact ⟨e, rfl⟩
  | ok out =>
    unfold evaluateUncertainty at hgate
    rw [if_neg (by omega)] at hgate
    obtain ⟨entropy, hentropy, -⟩ := except_bind_eq_ok hgate
    obtain ⟨signatures, hsignatures, -⟩ := except_bind_eq_ok hentropy
    exact absurd (exists_mapM_eq_ok.mp ⟨signatures, hsignatures⟩ i hi) h

/-- The gate on results whose shapes can be read: it is passed exactly when the entropy is not too
high and some source is proposed by enough of them. -/
theorem evaluateUncertainty_of_read {V : VoteTypes} {intents : List Json}
    (hlen : 2 ≤ intents.length)
    (h : ∀ i ∈ intents, ∃ signature, decisionSignature V i = .ok signature) :
    ∃ passed reason, evaluateUncertainty V intents = .ok (passed, reason) ∧
      (passed = false → reason ≠ "") ∧
      (passed = false ↔ (∃ entropy clusters, semanticEntropy V intents = .ok (entropy, clusters) ∧
        PyFloat.lt ⟨.fin 1, "1.0"⟩ entropy = true) ∨
        ∀ ip, belowConsensus ((intents.filterMap sourceOf).count ip) intents.length = true) := by
  obtain ⟨signatures, hsignatures⟩ := exists_mapM_eq_ok.mpr h
  have hentropy : semanticEntropy V intents = .ok
      (V.entropy ((counter (fun s t => s = t) signatures).map Prod.snd),
        counter (fun s t => s = t) signatures) := by
    unfold semanticEntropy
    rw [hsignatures]
    rfl
  obtain ⟨d, dominant, hconsensus, hle, hattained⟩ := srcIpConsensus_spec V fun i hi => by
    obtain ⟨signature, hsignature⟩ := h i hi
    exact exists_src_of_decisionSignature hsignature
  -- too few propose the dominant source exactly when too few propose any
  have hbelow : belowConsensus d intents.length = true ↔
      ∀ ip, belowConsensus ((intents.filterMap sourceOf).count ip) intents.length = true := by
    constructor
    · exact fun hd ip => belowConsensus_of_le (hle ip) hd
    · intro hall
      rcases hattained with rfl | ⟨ip, rfl⟩
      · exact decide_eq_true (by omega)
      · exact hall ip
  unfold evaluateUncertainty
  rw [if_neg (by omega), hentropy, hconsensus]
  simp only [bind, Except.bind, pure, Except.pure]
  rw [← hbelow]
  by_cases hhigh : PyFloat.lt ⟨.fin 1, "1.0"⟩
      (V.entropy ((counter (fun s t => s = t) signatures).map Prod.snd)) = true
  · rw [if_pos hhigh]
    refine ⟨_, _, rfl, fun _ => ?_, iff_of_true rfl (.inl ⟨_, _, rfl, hhigh⟩)⟩
    simp [String.append_assoc]
  · rw [if_neg hhigh]
    have hlow : ¬ ∃ entropy clusters, (Except.ok
        (V.entropy ((counter (fun s t => s = t) signatures).map Prod.snd),
          counter (fun s t => s = t) signatures) : Except Exc _) = .ok (entropy, clusters) ∧
        PyFloat.lt ⟨.fin 1, "1.0"⟩ entropy = true := by
      rintro ⟨entropy, clusters, heq, hlt⟩
      obtain ⟨rfl, rfl⟩ := Prod.mk.inj (Except.ok.inj heq)
      exact hhigh hlt
    by_cases hd : belowConsensus d intents.length = true
    · rw [if_pos hd]
      refine ⟨_, _, rfl, fun _ => ?_, iff_of_true rfl (.inr hd)⟩
      simp [String.append_assoc]
    · rw [if_neg hd]
      exact ⟨true, "", rfl, fun h => absurd h (by simp),
        iff_of_false (by simp) fun h => h.elim hlow hd⟩

/-! ## The vote -/

section

variable {V : VoteTypes} {cast : List (Json × Json)} {minAgree : ℤ}

/-- The results by their action are those of the votes. -/
theorem perm_resultsOf : (resultsOf V cast).Perm (cast.map Prod.snd) := Dict.perm_group V.same cast

theorem count_resultsOf (ip : String) :
    ((resultsOf V cast).filterMap sourceOf).count ip = proposing cast ip := by
  rw [(perm_resultsOf.filterMap sourceOf).count_eq, List.count_filterMap, List.countP_map]
  exact List.countP_congr fun v _ => by simp

theorem length_resultsOf : (resultsOf V cast).length = cast.length := by
  rw [perm_resultsOf.length_eq, List.length_map]

/-- The gate on the results of the votes. -/
theorem evaluateUncertainty_resultsOf (hlen : 2 ≤ cast.length)
    (h : ∀ v ∈ cast, ∃ signature, decisionSignature V v.2 = .ok signature) :
    ∃ passed reason, evaluateUncertainty V (resultsOf V cast) = .ok (passed, reason) ∧
      (passed = false → reason ≠ "") ∧ (passed = false ↔ Disagree V cast) := by
  have hread : ∀ i ∈ resultsOf V cast, ∃ signature, decisionSignature V i = .ok signature := by
    intro i hi
    obtain ⟨v, hv, rfl⟩ := List.mem_map.mp (perm_resultsOf.mem_iff.mp hi)
    exact h v hv
  obtain ⟨passed, reason, hgate, hreason, hiff⟩ :=
    evaluateUncertainty_of_read (by rw [length_resultsOf]; exact hlen) hread
  simp only [count_resultsOf, length_resultsOf] at hiff
  exact ⟨passed, reason, hgate, hreason, hiff⟩

/-- The winning action: all its results are votes for it, there is one, and no action has more. -/
theorem of_argmax {action : Json} {best : List Json}
    (h : (Dict.group V.same cast).argmax (fun v => v.2.length) = some (action, best)) :
    best = (cast.filter fun v => V.same v.1 action).map Prod.snd ∧
      (∃ v ∈ cast, V.same v.1 action = true) ∧
      ∀ v ∈ cast, votesFor V cast v.1 ≤ best.length := by
  have hmem := List.argmax_mem h
  obtain ⟨hbest, hvote⟩ := of_mem_group V.same_equiv hmem
  refine ⟨hbest, hvote, fun v hv => ?_⟩
  obtain ⟨i, hi, hsame⟩ := exists_mem_group V.same_equiv hv
  have hle : i.2.length ≤ best.length :=
    List.le_of_mem_argmax (f := fun v : Json × List Json => v.2.length) hi h
  rw [length_of_mem_group V.same_equiv hi, countP_congr_same V.same_equiv hsame] at hle
  exact hle

/-- The last result with the winning action is a vote that no action has more of. -/
theorem isPlurality_getLast {action : Json} {best : List Json} {r : Json}
    (h : (Dict.group V.same cast).argmax (fun v => v.2.length) = some (action, best))
    (hr : best.getLast? = some r) (hagree : minAgree ≤ best.length) :
    IsPlurality V cast minAgree r := by
  obtain ⟨rfl, -, hmost⟩ := of_argmax h
  obtain ⟨v, hv, rfl⟩ := List.mem_map.mp (List.mem_of_getLast? hr)
  obtain ⟨hmem, hsame⟩ := List.mem_filter.mp hv
  have hvotes : votesFor V cast v.1 =
      ((cast.filter fun v => V.same v.1 action).map Prod.snd).length := by
    rw [List.length_map, ← List.countP_eq_length_filter]
    exact countP_congr_same V.same_equiv hsame cast
  refine ⟨v.1, hmem, ?_, ?_⟩
  · rw [hvotes]
    exact hmost
  · rw [hvotes]
    exact hagree

/-- A result proposes the dominant source with enough of the others exactly when at least 67%
propose what it proposes. -/
theorem isDominant_iff {r : Json} : IsDominant cast r ↔ ∃ ip, sourceOf r = some ip ∧
    67 * cast.length ≤ 100 * proposing cast ip :=
  exists_congr fun _ => and_congr_right fun _ =>
    ⟨fun h => h.2, fun h => ⟨fun ip' => proposing_le_of_share h ip', h⟩⟩

/-- What the gate does with the results of the votes. -/
theorem gate_cases (V : VoteTypes) (cast : List (Json × Json)) :
    (cast.length ≤ 1 ∧ evaluateUncertainty V (resultsOf V cast) = .ok (true, "")) ∨
    2 ≤ cast.length ∧
      ((¬ (∀ v ∈ cast, ∃ signature, decisionSignature V v.2 = .ok signature) ∧
          ∃ e, evaluateUncertainty V (resultsOf V cast) = .error e) ∨
        (∀ v ∈ cast, ∃ signature, decisionSignature V v.2 = .ok signature) ∧
          ∃ passed reason, evaluateUncertainty V (resultsOf V cast) = .ok (passed, reason) ∧
            (passed = false → reason ≠ "") ∧ (passed = false ↔ Disagree V cast)) := by
  rcases Nat.lt_or_ge 1 cast.length with hlen | hlen
  · refine .inr ⟨hlen, ?_⟩
    by_cases hread : ∀ v ∈ cast, ∃ signature, decisionSignature V v.2 = .ok signature
    · exact .inr ⟨hread, evaluateUncertainty_resultsOf hlen hread⟩
    · obtain ⟨v, hv⟩ := not_forall.mp hread
      obtain ⟨hmem, hunread⟩ := Classical.not_imp.mp hv
      have hresult : v.2 ∈ resultsOf V cast :=
        perm_resultsOf.mem_iff.mpr (List.mem_map_of_mem hmem)
      have htwo : 2 ≤ (resultsOf V cast).length := by
        rw [length_resultsOf]
        exact hlen
      exact .inl ⟨hread, evaluateUncertainty_of_unread htwo hresult hunread⟩
  · refine .inl ⟨hlen, ?_⟩
    unfold evaluateUncertainty
    rw [if_pos (by rw [length_resultsOf]; exact hlen)]
    rfl

/-- Where no action has enough votes, no vote has one that does. -/
theorem few_iff {action : Json} {best : List Json}
    (h : (Dict.group V.same cast).argmax (fun v => v.2.length) = some (action, best)) :
    (best.length : ℤ) < minAgree ↔ ∀ v ∈ cast, (votesFor V cast v.1 : ℤ) < minAgree := by
  obtain ⟨rfl, ⟨voted, hvoted, hsame⟩, hmost⟩ := of_argmax h
  constructor
  · intro hfew v hv
    have hle := hmost v hv
    omega
  · intro hall
    have hfew := hall voted hvoted
    have hvotes : votesFor V cast voted.1 =
        ((cast.filter fun v => V.same v.1 action).map Prod.snd).length := by
      rw [List.length_map, ← List.countP_eq_length_filter]
      exact countP_congr_same V.same_equiv hsame cast
    omega

/-- The winning action has a last result. -/
theorem exists_of_enough {action : Json} {best : List Json}
    (h : (Dict.group V.same cast).argmax (fun v => v.2.length) = some (action, best)) :
    ∃ r, best.getLast? = some r ∧ lastWinner V cast = some r := by
  obtain ⟨hbest, ⟨voted, hvoted, hsame⟩, -⟩ := of_argmax h
  have hne : best ≠ [] := by
    rw [hbest]
    exact List.ne_nil_of_mem (List.mem_map_of_mem (List.mem_filter.mpr ⟨hvoted, hsame⟩))
  refine ⟨_, List.getLast?_eq_some_getLast hne, ?_⟩
  unfold lastWinner
  rw [h]
  exact List.getLast?_eq_some_getLast hne

end

/-- A vote is right exactly when there is nothing to agree on, or the shapes of the results can be
read and the runs disagree or the last result with the winning action proposes what at least 67% of
them propose. -/
theorem voteRight_iff {V : VoteTypes} {calls : ℕ → LlmCall} {nRuns minAgree maxRetriesPerRun : ℤ} :
    VoteRight V calls nRuns minAgree maxRetriesPerRun ↔
      VoteFine V (castVotes calls nRuns maxRetriesPerRun) minAgree := by
  unfold VoteRight VoteFine selfConsistencyVote castVotes
  generalize runVotes calls (maxRetriesPerRun + 1).toNat nRuns.toNat 0 "" = run
  obtain ⟨cast, lastError⟩ := run
  simp only
  cases hmax : (Dict.group V.same cast).argmax fun v => v.2.length with
  | none =>
    -- no run has voted
    have hnone : cast = [] := by
      by_contra hne
      obtain ⟨v, hv⟩ := List.exists_mem_of_ne_nil cast hne
      obtain ⟨i, hi, -⟩ := exists_mem_group V.same_equiv hv
      rw [List.argmax_eq_none.mp hmax] at hi
      exact List.not_mem_nil hi
    refine iff_of_true ⟨none, _, rfl, .inl ⟨rfl, ?_⟩⟩ (.inl ?_)
    · simp [String.append_assoc]
    · simp [hnone]
  | some found =>
    obtain ⟨action, best⟩ := found
    obtain ⟨r, hlast, hwinner⟩ := exists_of_enough hmax
    simp only
    rw [← few_iff hmax]
    by_cases hfew : (best.length : ℤ) < minAgree
    · rw [if_pos hfew]
      refine iff_of_true ⟨none, _, rfl, .inl ⟨rfl, ?_⟩⟩ (.inr (.inl hfew))
      simp [String.append_assoc]
    · rw [if_neg hfew]
      have hplurality : IsPlurality V cast minAgree r :=
        isPlurality_getLast hmax hlast (by omega)
      show (∃ result error, (evaluateUncertainty V (resultsOf V cast) >>= fun gate =>
        if gate.1 then pure (best.getLast?, "") else pure (none, gate.2)) = _ ∧ _) ↔ _
      rw [hlast]
      obtain ⟨hone, hgate⟩ | ⟨hlen, ⟨hunread, e, hgate⟩ |
        ⟨hread, passed, reason, hgate, hreason, hdisagree⟩⟩ := gate_cases V cast
      · rw [hgate]
        refine iff_of_true ⟨some r, "", rfl, .inr ⟨r, rfl, rfl, hplurality, ?_⟩⟩ (.inl hone)
        intro htwo
        omega
      · -- a shape that cannot be read makes the vote raise
        rw [hgate]
        refine iff_of_false ?_ ?_
        · rintro ⟨result, error, hout, -⟩
          cases hout
        · rintro (hone | hall | ⟨hread, -⟩)
          · omega
          · exact hfew hall
          · exact hunread hread
      · rw [hgate]
        cases passed with
        | false =>
          exact iff_of_true ⟨none, reason, rfl, .inl ⟨rfl, hreason rfl⟩⟩
            (.inr (.inr ⟨hread, .inl (hdisagree.mp rfl)⟩))
        | true =>
          have hagree : ¬ Disagree V cast := fun h => by simpa using hdisagree.mpr h
          constructor
          · rintro ⟨result, error, hout, ⟨hnone, -⟩ | ⟨r', hr, -, -, hdominant⟩⟩
            · obtain ⟨rfl, -⟩ := Prod.mk.inj (Except.ok.inj hout)
              cases hnone
            · obtain ⟨rfl, -⟩ := Prod.mk.inj (Except.ok.inj hout)
              obtain rfl := Option.some_inj.mp hr
              obtain ⟨ip, hip, hshare⟩ := isDominant_iff.mp (hdominant hlen)
              exact .inr (.inr ⟨hread, .inr ⟨r, ip, hwinner, hip, hshare⟩⟩)
          · rintro (hone | hall | ⟨-, hd | ⟨r', ip, hr', hip, hshare⟩⟩)
            · omega
            · exact absurd hall hfew
            · exact absurd hd hagree
            · obtain rfl := Option.some_inj.mp (hwinner.symm.trans hr')
              exact ⟨some r, "", rfl, .inr ⟨r, rfl, rfl, hplurality,
                fun _ => isDominant_iff.mpr ⟨ip, hip, hshare⟩⟩⟩

/-- A value as the key of a dict: numbers are one key when they are equal. -/
def dictKey : Json → Option (String ⊕ FloatVal)
  | .str s => some (.inl s)
  | .bool b => some (.inr (.fin (if b then 1 else 0)))
  | .int n => some (.inr (.fin n))
  | .float x => some (.inr x.val)
  | _ => none

/-- The interpreter of the example below, where the results have one shape. -/
def oneShapeVotes : VoteTypes where
  toPy := Py.ascii (fun _ => "") fun _ => none
  same k l := decide (dictKey k = dictKey l)
  same_equiv := by
    constructor
    · exact fun k => decide_eq_true rfl
    · exact fun h => decide_eq_true (of_decide_eq_true h).symm
    · exact fun h h' => decide_eq_true ((of_decide_eq_true h).trans (of_decide_eq_true h'))
  same_str s x := by
    cases x with
    | str t =>
      rw [Bool.eq_iff_iff, decide_eq_true_iff]
      show some (Sum.inl s) = some (Sum.inl t) ↔ (t == s) = true
      rw [Option.some_inj, Sum.inl.injEq, beq_iff_eq, eq_comm]
    | _ => simp [dictKey, Json.isStr]
  entropy counts := ⟨.fin (counts.length - 1), toString (counts.length - 1) ++ ".0"⟩
  percent d n := toString (100 * d / n) ++ "%"
  actionsSummary _ := ""
  clusters _ := ""

/-- The result that drops a host. -/
def dropOf (ip : String) : Json := .obj [("action", .str "DROP"), ("src_ip", .str ip)]

/-- Of four runs that drop, the last one drops another host than the three before it, and its host
is what the vote returns. -/
theorem exists_not_voteRight :
    ¬ ∀ (V : VoteTypes) (calls : ℕ → LlmCall) (nRuns minAgree maxRetriesPerRun : ℤ),
      VoteRight V calls nRuns minAgree maxRetriesPerRun := by
  intro hall
  let calls : ℕ → LlmCall := fun call =>
    .value (if call < 3 then dropOf "10.1.100.10" else dropOf "10.1.100.11")
  have hgate : evaluateUncertainty oneShapeVotes [dropOf "10.1.100.10", dropOf "10.1.100.10",
      dropOf "10.1.100.10", dropOf "10.1.100.11"] = .ok (true, "") := by decide +kernel
  have hvote : selfConsistencyVote oneShapeVotes calls 4 2 0 =
      .ok (some (dropOf "10.1.100.11"), "") := by
    show (evaluateUncertainty oneShapeVotes [dropOf "10.1.100.10", dropOf "10.1.100.10",
      dropOf "10.1.100.10", dropOf "10.1.100.11"] >>= _) = _
    rw [hgate]
    rfl
  obtain ⟨result, error, hout, ⟨hnone, -⟩ | ⟨r, hr, -, -, hdominant⟩⟩ :=
    hall oneShapeVotes calls 4 2 0
  · rw [hvote] at hout
    obtain ⟨rfl, -⟩ := Prod.mk.inj (Except.ok.inj hout)
    cases hnone
  · rw [hvote] at hout
    obtain ⟨rfl, -⟩ := Prod.mk.inj (Except.ok.inj hout)
    obtain rfl := Option.some_inj.mp hr
    obtain ⟨ip, hip, hshare⟩ := isDominant_iff.mp (hdominant (by decide))
    obtain rfl : "10.1.100.11" = ip := Option.some_inj.mp hip
    exact absurd hshare (by decide)

end ControlPlane.Intel
