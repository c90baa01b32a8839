import ControlPlane.Stream.Conservation

/-!
# One alert for each suspect

The calls of `on_alert` at the close of a window. A call that raises is logged, and the loop goes on
(`dispatchLoop_eq`). The key of a record has its addresses (`addresses_of_keyText`), so no two
suspects have one key, and each of them has its own call (`dispatchesSuspects_of_sumsPrint`) when
the sums in its alert can be written; the alert of a suspect whose sums have too many digits is not
built, and nothing is called for it (`exists_suspect_not_dispatched`).
-/

namespace ControlPlane.Stream

open JsonText

variable {Obj : Type}

/-! ## The loop over the suspects -/

/-- How a call of `on_alert` ends. -/
inductive AlertEnd where
  | returned
  /-- With an `Exception`. -/
  | raised
  /-- With an exception that is none, as when the task is cancelled. -/
  | left
  deriving DecidableEq

/-- The loop over the suspects: the alerts that `on_alert` is called with, after these. What ends a
call may depend on the calls before it. -/
def dispatchLoop (alertOf : PyStr → Option (SuricataAlert Obj))
    (onAlert : List (SuricataAlert Obj) → SuricataAlert Obj → AlertEnd) :
    List PyStr → List (SuricataAlert Obj) → List (SuricataAlert Obj)
  | [], calls => calls
  | pid :: pids, calls =>
    match alertOf pid with
    -- the alert is not built: the exception is logged
    | none => dispatchLoop alertOf onAlert pids calls
    | some a =>
      match onAlert calls a with
      | .left => calls ++ [a]
      | .returned | .raised => dispatchLoop alertOf onAlert pids (calls ++ [a])

/-- The calls of the loop, when none of them leaves it. -/
theorem dispatchLoop_eq {alertOf : PyStr → Option (SuricataAlert Obj)}
    {onAlert : List (SuricataAlert Obj) → SuricataAlert Obj → AlertEnd}
    (h : ∀ calls a, onAlert calls a ≠ .left) (pids : List PyStr)
    (calls : List (SuricataAlert Obj)) :
    dispatchLoop alertOf onAlert pids calls = calls ++ pids.filterMap alertOf := by
  induction pids generalizing calls with
  | nil => simp [dispatchLoop]
  | cons pid pids ih =>
    cases halert : alertOf pid with
    | none =>
      simp only [dispatchLoop, halert]
      rw [ih, List.filterMap_cons_none halert]
    | some a =>
      have hnext : dispatchLoop alertOf onAlert (pid :: pids) calls =
          dispatchLoop alertOf onAlert pids (calls ++ [a]) := by
        simp only [dispatchLoop, halert]
        cases hend : onAlert calls a with
        | returned => rfl
        | raised => rfl
        | left => exact absurd hend (h calls a)
      rw [hnext, ih, List.filterMap_cons_some halert, List.append_assoc]
      rfl

section

variable (B : BatchTypes Obj) (D : FlowBatchDispatcher) (trigger : TriggerRead)
  (answer : LlmAnswer Obj)
  (onAlert : List (SuricataAlert Obj) → SuricataAlert Obj → AlertEnd)
  (flows : List (SuricataFlowEvent Obj)) (windowStart windowEnd : PyStr)

/-- `on_window_close`, as the alerts that `on_alert` is called with; `none` is an exception before
the first call. -/
def onAlertCalls : Option (List (SuricataAlert Obj)) := do
  if flows.isEmpty then return []
  let aggregated ← aggregateFlows B flows windowStart windowEnd D.ipToZone
  let heuristic ← heuristicSuspects B D aggregated
  if triggerEnabled trigger then
    let results ← llamaResults B D answer aggregated
    let llama ← llamaSuspects B results aggregated
    return dispatchLoop (dispatch B heuristic llama) onAlert
      (B.listOfSet (unionKeys heuristic llama)) []
  else return []

/-- The calls are the alerts of these pairs, one for each. -/
def OnePerSuspect (results : List (PyStr × Classification)) (pairs : List AggregatedIPPair)
    (calls : List (SuricataAlert Obj)) : Prop :=
  ∃ suspects : List AggregatedIPPair, suspects.Nodup ∧
    (∀ p, p ∈ suspects ↔ p ∈ pairs ∧ IsSuspect B D results p) ∧
    List.Forall₂ (fun p a => buildSyntheticAlert B p (dispatchScore B D p)
      (suspectClass results (keyText p)) = some a) suspects calls

/-- The keys of the records tell them apart, and `on_alert` is called once for each suspect. -/
structure DispatchesSuspects (results : List (PyStr × Classification))
    (pairs : List AggregatedIPPair) : Prop where
  injOn : Set.InjOn (pairKey B) {p | p ∈ pairs}
  pairId : ∀ p ∈ pairs, pairKey B p = buildPairId B p
  enabled : triggerEnabled trigger = true →
    ∃ calls, onAlertCalls B D trigger answer onAlert flows windowStart windowEnd = some calls ∧
      OnePerSuspect B D results pairs calls
  disabled : triggerEnabled trigger = false →
    ∀ calls, onAlertCalls B D trigger answer onAlert flows windowStart windowEnd = some calls →
      calls = []

end

/-! ## Keys -/

/-- The texts on both sides of the first separator. -/
theorem append_cons_inj_first {A : Type} {sep : A} {xs ys xs' ys' : List A}
    (h : xs ++ sep :: ys = xs' ++ sep :: ys') (hxs : sep ∉ xs) (hxs' : sep ∉ xs') :
    xs = xs' ∧ ys = ys' := by
  rcases List.append_eq_append_iff.mp h with ⟨c, rfl, hc⟩ | ⟨c, rfl, hc⟩
  · cases c with
    | nil => exact ⟨(List.append_nil xs).symm, List.tail_eq_of_cons_eq hc⟩
    | cons a c =>
      obtain rfl := List.head_eq_of_cons_eq hc
      exact absurd (List.mem_append_right xs List.mem_cons_self) hxs'
  · cases c with
    | nil => exact ⟨List.append_nil xs', (List.tail_eq_of_cons_eq hc).symm⟩
    | cons a c =>
      obtain rfl := List.head_eq_of_cons_eq hc
      exact absurd (List.mem_append_right xs' List.mem_cons_self) hxs

/-- The texts on both sides of the last separator. -/
theorem append_cons_inj_last {A : Type} {sep : A} {xs ys xs' ys' : List A}
    (h : xs ++ sep :: ys = xs' ++ sep :: ys') (hys : sep ∉ ys) (hys' : sep ∉ ys') :
    xs = xs' ∧ ys = ys' := by
  have hreverse := congrArg List.reverse h
  rw [List.reverse_append, List.reverse_append, List.reverse_cons, List.reverse_cons,
    List.append_assoc, List.append_assoc] at hreverse
  obtain ⟨hsuffix, hprefix⟩ := append_cons_inj_first hreverse
    (fun hmem => hys (List.mem_reverse.mp hmem)) fun hmem => hys' (List.mem_reverse.mp hmem)
  exact ⟨List.reverse_inj.mp hprefix, List.reverse_inj.mp hsuffix⟩

/-- An integer is written without a colon. -/
theorem colon_not_mem_intText (n : ℤ) : (58 : CodePoint) ∉ intText n := by
  have hdigits : (58 : CodePoint) ∉ natText n.natAbs := fun hmem =>
    absurd ((whole_natText n.natAbs).digits 58 hmem) (by decide)
  unfold intText
  split_ifs
  · intro hmem
    rcases List.mem_cons.mp hmem with h | h
    · exact absurd h (by decide)
    · exact hdigits h
  · exact hdigits

variable {B : BatchTypes Obj} {D : FlowBatchDispatcher} {trigger : TriggerRead}
  {answer : LlmAnswer Obj} {flows : List (SuricataFlowEvent Obj)} {windowStart windowEnd : PyStr}
  {pairs : List AggregatedIPPair} {results : List (PyStr × Classification)}

/-- The key of a record has its addresses, when the first of them has no arrow. -/
theorem addresses_of_keyText {p q : AggregatedIPPair} (h : keyText p = keyText q)
    (hp : (8594 : CodePoint) ∉ p.srcIp) (hq : (8594 : CodePoint) ∉ q.srcIp) :
    p.srcIp = q.srcIp ∧ p.destIp = q.destIp := by
  have hkey (r : AggregatedIPPair) :
      keyText r = r.srcIp ++ 8594 :: (r.destIp ++ 58 :: intText (firstPort r)) := by
    show r.srcIp ++ [8594] ++ r.destIp ++ [58] ++ intText (firstPort r) = _
    simp only [List.append_assoc, List.cons_append, List.nil_append]
  rw [hkey, hkey] at h
  obtain ⟨hsrc, hrest⟩ := append_cons_inj_first h hp hq
  exact ⟨hsrc, (append_cons_inj_last hrest (colon_not_mem_intText _)
    (colon_not_mem_intText _)).1⟩

/-- The addresses of a record are those of a flow. -/
theorem exists_flow_of_mem_aggregateFlows {ipToZone : Option (PyStr → Option PyStr)}
    {p : AggregatedIPPair}
    (h : aggregateFlows B flows windowStart windowEnd ipToZone = some pairs) (hp : p ∈ pairs) :
    ∃ f ∈ flows, f.srcIp = p.srcIp ∧ f.destIp = p.destIp := by
  obtain ⟨i, hi, hbucket⟩ := exists_of_mem_mapM h hp
  have haddresses := addresses_of_aggregateBucket hbucket
  obtain ⟨-, -, f, hf, hfkey⟩ := mem_keysOf.mp (List.mem_map_of_mem hi)
  rw [← haddresses] at hfkey
  exact ⟨f, hf, (Prod.mk.inj hfkey).1, (Prod.mk.inj hfkey).2⟩

/-- The keys of the records of a window tell them apart, when no source has an arrow. -/
theorem injOn_keyText {ipToZone : Option (PyStr → Option PyStr)}
    (harrow : ∀ f ∈ flows, (8594 : CodePoint) ∉ f.srcIp)
    (h : aggregateFlows B flows windowStart windowEnd ipToZone = some pairs) :
    Set.InjOn keyText {p | p ∈ pairs} := by
  intro p hp q hq hkey
  have hno : ∀ r ∈ pairs, (8594 : CodePoint) ∉ r.srcIp := fun r hr => by
    obtain ⟨f, hf, hsrc, -⟩ := exists_flow_of_mem_aggregateFlows h hr
    rw [← hsrc]
    exact harrow f hf
  obtain ⟨hsrc, hdest⟩ := addresses_of_keyText hkey (hno p hp) (hno q hq)
  exact eq_of_mem_aggregateFlows h hp hq hsrc hdest

/-! ## The calls -/

/-- Without a call that leaves the loop, the calls are the alerts of the window. -/
theorem onAlertCalls_eq {onAlert : List (SuricataAlert Obj) → SuricataAlert Obj → AlertEnd}
    (hstays : ∀ calls a, onAlert calls a ≠ .left) :
    onAlertCalls B D trigger answer onAlert flows windowStart windowEnd =
      onWindowClose B D trigger answer flows windowStart windowEnd := by
  unfold onAlertCalls onWindowClose dispatchPairs
  simp only [dispatchLoop_eq hstays, List.nil_append]

/-- The records whose keys these are, with their alerts. -/
theorem exists_forall₂_of_keys {good : AggregatedIPPair → Prop}
    {alertOf : PyStr → Option (SuricataAlert Obj)}
    {build : AggregatedIPPair → Option (SuricataAlert Obj)} {pids : List PyStr}
    (h : ∀ pid ∈ pids, ∃ p a, good p ∧ keyText p = pid ∧ alertOf pid = some a ∧
      build p = some a) :
    ∃ ps : List AggregatedIPPair, ps.map keyText = pids ∧ (∀ p ∈ ps, good p) ∧
      List.Forall₂ (fun p a => build p = some a) ps (pids.filterMap alertOf) := by
  induction pids with
  | nil => exact ⟨[], rfl, fun p hp => absurd hp List.not_mem_nil, .nil⟩
  | cons pid pids ih =>
    obtain ⟨hpid, hpids⟩ := List.forall_mem_cons.mp h
    obtain ⟨p, a, hgood, hkey, halert, hbuild⟩ := hpid
    obtain ⟨ps, hmap, hall, hforall⟩ := ih hpids
    refine ⟨p :: ps, ?_, List.forall_mem_cons.mpr ⟨hgood, hall⟩, ?_⟩
    · rw [List.map_cons, hkey, hmap]
    · rw [List.filterMap_cons_some halert]
      exact .cons hbuild hforall

/-- The alerts of a window are those of its suspects. -/
theorem onePerSuspect_alertsOf (hinj : Set.InjOn keyText {p | p ∈ pairs})
    (hsums : ∀ p ∈ pairs, IsSuspect B D results p → SumsPrint B p) :
    OnePerSuspect B D results pairs (alertsOf B D results pairs) := by
  -- What is dispatched for a key is the one suspect that has it.
  have hkey : ∀ pid ∈ B.listOfSet (suspectKeys B D results pairs), ∃ p a,
      (p ∈ pairs ∧ IsSuspect B D results p) ∧ keyText p = pid ∧
        alertFor B D results pairs pid = some a ∧
        buildSyntheticAlert B p (dispatchScore B D p) (suspectClass results (keyText p)) =
          some a := by
    intro pid hpid
    rw [(B.perm_listOfSet _).mem_iff, mem_suspectKeys] at hpid
    obtain ⟨⟨p, score, cls⟩, hchosen⟩ := Option.isSome_iff_exists.mp hpid
    obtain ⟨⟨hp, rfl, hs⟩, rfl, rfl, -⟩ := of_chosenFor hchosen
    obtain ⟨a, ha⟩ := Option.isSome_iff_exists.mp
      (buildSyntheticAlert_isSome.mpr (hsums p hp hs))
    exact ⟨p, a, ⟨hp, hs⟩, rfl, alertFor_eq_some.mpr ⟨p, _, _, hchosen, ha⟩, ha⟩
  have hnodup : (B.listOfSet (suspectKeys B D results pairs)).Nodup :=
    (B.perm_listOfSet _).nodup_iff.mpr (List.nodup_dedup _)
  have hall : ∀ p ∈ pairs, IsSuspect B D results p →
      keyText p ∈ B.listOfSet (suspectKeys B D results pairs) := fun p hp hs => by
    rw [(B.perm_listOfSet _).mem_iff, mem_suspectKeys]
    exact chosenFor_isSome hp hs
  obtain ⟨suspects, hmap, hgood, halerts⟩ := exists_forall₂_of_keys hkey
  refine ⟨suspects, ?_, fun p => ⟨hgood p, fun ⟨hp, hs⟩ => ?_⟩, halerts⟩
  · rw [← hmap] at hnodup
    exact hnodup.of_map _
  · have hmem := hall p hp hs
    rw [← hmap] at hmem
    obtain ⟨q, hq, hqp⟩ := List.mem_map.mp hmem
    obtain rfl := hinj (hgood q hq).1 hp hqp
    exact hq

/-- Of a window that is aggregated and classified, the alerts are passed on when the trigger is
enabled. -/
theorem onWindowClose_eq_alertsOf (htrigger : triggerEnabled trigger = true)
    (hpairs : aggregateFlows B flows windowStart windowEnd D.ipToZone = some pairs)
    (hresults : llamaResults B D answer pairs = some results)
    (hwrites : ∀ p ∈ pairs, Writes B (firstPort p)) :
    onWindowClose B D trigger answer flows windowStart windowEnd =
      some (alertsOf B D results pairs) := by
  have hpassed : dispatchPairs B D trigger answer pairs = some (alertsOf B D results pairs) :=
    (dispatchPairs_eq_some htrigger).mpr ⟨hwrites, results, hresults, rfl⟩
  cases flows with
  | cons f flows =>
    unfold onWindowClose
    rw [hpairs]
    exact hpassed
  | nil =>
    -- nothing is dispatched for no records
    obtain rfl : [] = pairs := Option.some_inj.mp hpairs
    have hkeys : B.listOfSet (suspectKeys B D results []) = [] :=
      List.perm_nil.mp (B.perm_listOfSet _)
    show some [] = some ((B.listOfSet (suspectKeys B D results [])).filterMap _)
    rw [hkeys]
    rfl

/-- While the trigger is disabled nothing is passed on. -/
theorem eq_nil_of_disabled (htrigger : triggerEnabled trigger = false)
    {alerts : List (SuricataAlert Obj)}
    (h : onWindowClose B D trigger answer flows windowStart windowEnd = some alerts) :
    alerts = [] := by
  unfold onWindowClose dispatchPairs at h
  rw [htrigger] at h
  cases flows with
  | nil => exact (Option.some_inj.mp h).symm
  | cons f flows =>
    simp only [List.isEmpty_cons, Bool.false_eq_true, if_false, Option.bind_eq_bind,
      Option.bind_eq_some_iff, Option.pure_def, Option.some_inj] at h
    obtain ⟨aggregated, -, heuristic, -, hnil⟩ := h
    exact hnil.symm

/-- Each suspect has its own call, when no source has an arrow and the numbers of the records are
written. -/
theorem dispatchesSuspects_of_sumsPrint
    {onAlert : List (SuricataAlert Obj) → SuricataAlert Obj → AlertEnd}
    (harrow : ∀ f ∈ flows, (8594 : CodePoint) ∉ f.srcIp)
    (hpairs : aggregateFlows B flows windowStart windowEnd D.ipToZone = some pairs)
    (hresults : llamaResults B D answer pairs = some results)
    (hwrites : ∀ p ∈ pairs, Writes B (firstPort p))
    (hsums : ∀ p ∈ pairs, IsSuspect B D results p → SumsPrint B p)
    (hstays : ∀ calls a, onAlert calls a ≠ .left) :
    DispatchesSuspects B D trigger answer onAlert flows windowStart windowEnd results pairs := by
  have hinj : Set.InjOn keyText {p | p ∈ pairs} := injOn_keyText harrow hpairs
  constructor
  · intro p hp q hq hkey
    rw [pairKey_of_writes (hwrites p hp), pairKey_of_writes (hwrites q hq)] at hkey
    exact hinj hp hq (Option.some_inj.mp hkey)
  · exact fun p _ => rfl
  · intro htrigger
    rw [onAlertCalls_eq hstays]
    exact ⟨_, onWindowClose_eq_alertsOf htrigger hpairs hresults hwrites,
      onePerSuspect_alertsOf hinj hsums⟩
  · intro htrigger calls hcalls
    rw [onAlertCalls_eq hstays] at hcalls
    exact eq_nil_of_disabled htrigger hcalls

/-! ## Windows to dispatch -/

/-- The suspect of a window has its call, also when that call raises. -/
theorem dispatchesSuspects_sshWindow :
    DispatchesSuspects plainBatch plainDispatcher .noRedis .raised (fun _ _ => .raised) sshWindow
      (u "12:00") (u "12:02") [] [sshPair] := by
  refine dispatchesSuspects_of_sumsPrint (fun f hf => ?_) aggregateFlows_sshWindow rfl ?_ ?_ ?_
  · obtain rfl := List.mem_singleton.mp hf
    decide
  · intro p hp
    obtain rfl := List.mem_singleton.mp hp
    exact summaryPrints_sshPair.writes_firstPort
  · intro p hp _
    obtain rfl := List.mem_singleton.mp hp
    exact summaryPrints_sshPair.sumsPrint
  · simp

/-- A connection to an SSH server with many bytes. -/
def heavyFlow : SuricataFlowEvent PyStr :=
  { plainFlow "10.1.100.5" "10.2.100.10" 22 with
    flow := [item "bytes_toserver" (.int (5 * 10 ^ 4299))] }

/-- Two counters that can be read have a sum with too many digits to write: the alert of the suspect
is not built, and nothing is called for it. -/
theorem exists_suspect_not_dispatched :
    ∃ (flows : List (SuricataFlowEvent PyStr)) (pairs : List AggregatedIPPair)
      (results : List (PyStr × Classification)),
      (∀ f ∈ flows, (8594 : CodePoint) ∉ f.srcIp) ∧
      aggregateFlows plainBatch flows (u "12:00") (u "12:02") plainDispatcher.ipToZone =
        some pairs ∧
      llamaResults plainBatch { plainDispatcher with hasFastLlm := false } .raised pairs =
        some results ∧
      ¬ DispatchesSuspects plainBatch { plainDispatcher with hasFastLlm := false } .noRedis .raised
        (fun _ _ => .returned) flows (u "12:00") (u "12:02") results pairs := by
  have hsome : (aggregateFlows plainBatch [heavyFlow, heavyFlow] (u "12:00") (u "12:02")
      plainDispatcher.ipToZone).isSome = true := by
    decide +kernel
  have hheur : ((aggregateFlows plainBatch [heavyFlow, heavyFlow] (u "12:00") (u "12:02")
      plainDispatcher.ipToZone).getD []).any (IsHeuristic plainBatch
        { plainDispatcher with hasFastLlm := false } ·) = true := by
    decide +kernel
  have hnone : (onAlertCalls plainBatch { plainDispatcher with hasFastLlm := false } .noRedis
      .raised (fun _ _ => .returned) [heavyFlow, heavyFlow] (u "12:00") (u "12:02")).map
        List.isEmpty = some true := by
    decide +kernel
  obtain ⟨pairs, hpairs⟩ := Option.isSome_iff_exists.mp hsome
  refine ⟨[heavyFlow, heavyFlow], pairs, [], fun f hf => ?_, hpairs, rfl, fun h => ?_⟩
  · obtain rfl : f = heavyFlow := by simpa using hf
    decide
  · obtain ⟨calls, hcalls, suspects, -, hmem, halerts⟩ := h.enabled rfl
    rw [hcalls] at hnone
    obtain rfl : calls = [] := List.isEmpty_iff.mp (Option.some_inj.mp hnone)
    obtain rfl := List.forall₂_nil_right_iff.mp halerts
    rw [hpairs] at hheur
    obtain ⟨p, hp, hheur⟩ := List.any_eq_true.mp hheur
    exact absurd ((hmem p).mpr ⟨hp, .inl (of_decide_eq_true hheur)⟩) List.not_mem_nil
end ControlPlane.Stream
