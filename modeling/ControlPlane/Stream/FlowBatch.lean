import ControlPlane.Stream.LlamaClassifier

/-!
# The close of a window

`FlowBatchDispatcher.on_window_close`: the pairs of a window that the heuristic or the classifier
suspects are passed on as alerts. `suspectsPassed_iff` says when every suspect of the heuristic is:
an exception of the classifier, or a number that is not written, stops the window before the first
alert, and of two suspects with one key the second replaces the first.
-/

namespace ControlPlane.Stream

open JsonText

variable {Obj : Type}

/-- `_SYNTHETIC_SID_BASE`. -/
def SYNTHETIC_SID_BASE : ℤ := 9900000

/-- What a `FlowBatchDispatcher` was made with. -/
structure FlowBatchDispatcher where
  ipToZone : Option (PyStr → Option PyStr)
  suspectThreshold : ℤ
  /-- `fast_llm is not None`. -/
  hasFastLlm : Bool

/-- `pair.unique_dst_ports[0] if pair.unique_dst_ports else 0`. -/
def firstPort (pair : AggregatedIPPair) : ℤ := pair.uniqueDstPorts.head?.getD 0

/-- The text of `_pair_key`, when there is one. -/
def keyText (pair : AggregatedIPPair) : PyStr :=
  pair.srcIp ++ u "→" ++ pair.destIp ++ u ":" ++ intText (firstPort pair)

/-! ## The synthetic alert -/

/-- The label of a classification, or `""`. -/
def labelOf (cls : Option Classification) : PyStr := (cls.map (·.label)).getD []

/-- `high_signal_labels`. -/
def HIGH_SIGNAL_LABELS : List PyStr :=
  [u "SUSPECT_content", u "SUSPECT_lateral", u "SUSPECT_exfil"]

/-- `mid_signal_labels`. -/
def MID_SIGNAL_LABELS : List PyStr := [u "SUSPECT_burst", u "SUSPECT_scan", u "SUSPECT_c2_beacon"]

/-- The severity of a synthetic alert. -/
def severityOf (score : ℕ) (label : PyStr) : ℤ :=
  if 6 ≤ score ∨ label = u "SUSPECT_content" then 1
  else if 4 ≤ score ∨ label ∈ HIGH_SIGNAL_LABELS then 2
  else if 2 ≤ score ∨ label ∈ MID_SIGNAL_LABELS then 3
  else 4

/-- The signature id of a synthetic alert. -/
def sidOf (score : ℕ) : ℤ := SYNTHETIC_SID_BASE + min score 99

/-- A key of a dict. -/
def item (key : String) (value : PyVal Obj) : PyKey Obj × PyVal Obj := (.str (u key), value)

/-- A list of integers. -/
def intList (xs : List ℤ) : PyVal Obj := .seq false (xs.map .int)

/-- A list of texts. -/
def strList (xs : List PyStr) : PyVal Obj := .seq false (xs.map .str)

/-- `pair.model_dump()`. -/
def AggregatedIPPair.modelDump (pair : AggregatedIPPair) : PyVal Obj :=
  .dict [item "src_ip" (.str pair.srcIp), item "dest_ip" (.str pair.destIp),
    item "window_start" (.str pair.windowStart), item "window_end" (.str pair.windowEnd),
    item "flow_count" (.int pair.flowCount), item "tcp_flow_count" (.int pair.tcpFlowCount),
    item "udp_flow_count" (.int pair.udpFlowCount),
    item "pkts_toserver_sum" (.int pair.pktsToserverSum),
    item "pkts_toclient_sum" (.int pair.pktsToclientSum),
    item "bytes_toserver_sum" (.int pair.bytesToserverSum),
    item "bytes_toclient_sum" (.int pair.bytesToclientSum),
    item "pkts_toserver_max" (.int pair.pktsToserverMax),
    item "pkts_toclient_max" (.int pair.pktsToclientMax),
    item "bytes_toserver_max" (.int pair.bytesToserverMax),
    item "bytes_toclient_max" (.int pair.bytesToclientMax),
    item "unique_dst_ports" (intList pair.uniqueDstPorts),
    item "unique_dst_port_count" (.int pair.uniqueDstPortCount),
    item "unique_app_protos" (strList pair.uniqueAppProtos),
    item "states_observed" (strList pair.statesObserved), item "src_zone" (.str pair.srcZone),
    item "dest_zone" (.str pair.destZone), item "flow_ids" (intList pair.flowIds)]

/-- A classification as a dict, the empty one for none. -/
def classificationDict : Option Classification → PyVal Obj
  | none => .dict []
  | some cls => .dict [item "label" (.str cls.label), item "confidence" (.float cls.confidence),
      item "reason" (.str cls.reason)]

/-- `alert_blob`. -/
def alertBlob (pair : AggregatedIPPair) (score : ℕ) (cls : Option Classification)
    (signature : PyStr) : Items Obj :=
  [item "signature_id" (.int (sidOf score)), item "signature" (.str signature),
    item "severity" (.int (severityOf score (labelOf cls))),
    item "category" (.str (u "flow-batch-anomaly")), item "flow_features" pair.modelDump,
    item "suspect_score" (.int score), item "llama_classification" (classificationDict cls)]

section

variable (B : BatchTypes Obj)

/-- The signature of a synthetic alert. -/
def signatureOf (pair : AggregatedIPPair) (score : ℕ) : Option PyStr := do
  let bytesToServer ← fmtInt B pair.bytesToserverSum
  let bytesToClient ← fmtInt B pair.bytesToclientSum
  return u "FLOW_BATCH suspect (score=" ++ natText score ++ u ") " ++ zoneText pair.srcZone ++
    u "→" ++ zoneText pair.destZone ++ u " " ++ pair.srcIp ++ u "→" ++ pair.destIp ++
    u " flows=" ++ natText pair.flowCount ++ u " unique_ports=" ++
    natText pair.uniqueDstPortCount ++ u " bytes_to_server=" ++ bytesToServer ++
    u " bytes_to_client=" ++ bytesToClient

/-- `_build_synthetic_alert`. -/
def buildSyntheticAlert (pair : AggregatedIPPair) (score : ℕ) (cls : Option Classification) :
    Option (SuricataAlert Obj) := do
  let signature ← signatureOf B pair score
  let proto := if pair.udpFlowCount ≤ pair.tcpFlowCount then u "tcp" else u "udp"
  let blob := alertBlob pair score cls signature
  return {
    timestamp := pair.windowEnd, srcIp := pair.srcIp, destIp := pair.destIp, srcPort := 0
    destPort := firstPort pair, proto := proto, alert := blob
    raw := [item "event_type" (.str (u "flow_batch")), item "src_ip" (.str pair.srcIp),
      item "dest_ip" (.str pair.destIp), item "dest_port" (.int (firstPort pair)),
      item "proto" (.str proto), item "alert" (.dict blob),
      item "flow_window" (.dict [item "start" (.str pair.windowStart),
        item "end" (.str pair.windowEnd)]),
      item "flow_features" pair.modelDump] }

/-! ## The suspects -/

/-- `_pair_key`. -/
def pairKey (pair : AggregatedIPPair) : Option PyStr := do
  let port ← fmtInt B (firstPort pair)
  return pair.srcIp ++ u "→" ++ pair.destIp ++ u ":" ++ port

/-- `suspect_score(pair) >= self._suspect_threshold`. -/
def IsHeuristic (D : FlowBatchDispatcher) (pair : AggregatedIPPair) : Prop :=
  D.suspectThreshold ≤ suspectScore B pair

instance (D : FlowBatchDispatcher) (pair : AggregatedIPPair) : Decidable (IsHeuristic B D pair) :=
  inferInstanceAs (Decidable (_ ≤ _))

/-- `heuristic_suspects`. -/
def heuristicSuspects (D : FlowBatchDispatcher) (aggregated : List AggregatedIPPair) :
    Option (List (PyStr × (AggregatedIPPair × ℕ))) := do
  let items ← (aggregated.filter fun p => IsHeuristic B D p).mapM fun p =>
    (pairKey B p).map fun pid => (pid, (p, suspectScore B p))
  return Dict.ofList (fun k l => k = l) items

/-- `cls and cls.get("label", "").startswith("SUSPECT")`: the classification of a suspect. -/
def suspectClass (results : List (PyStr × Classification)) (pid : PyStr) : Option Classification :=
  (Dict.lookup (fun k l => k = l) pid results).filter fun cls => (u "SUSPECT").isPrefixOf cls.label

/-- `llama_suspects`. -/
def llamaSuspects (results : List (PyStr × Classification)) (aggregated : List AggregatedIPPair) :
    Option (List (PyStr × (AggregatedIPPair × Classification))) := do
  let entries ← aggregated.mapM fun p => (pairKey B p).map fun pid =>
    (suspectClass results pid).map fun cls => (pid, (p, cls))
  return Dict.ofList (fun k l => k = l) entries.reduceOption

/-- `set(heuristic_suspects) | set(llama_suspects)`. -/
def unionKeys {V W : Type} (heuristic : List (PyStr × V)) (llama : List (PyStr × W)) : List PyStr :=
  (heuristic.map Prod.fst ++ llama.map Prod.fst).dedup

/-- The pair, the score and the classification that are dispatched for a key. -/
def chosen (heuristic : List (PyStr × (AggregatedIPPair × ℕ)))
    (llama : List (PyStr × (AggregatedIPPair × Classification))) (pid : PyStr) :
    Option (AggregatedIPPair × ℕ × Option Classification) :=
  let found := Dict.lookup (fun k l => k = l) pid llama
  match Dict.lookup (fun k l => k = l) pid heuristic with
  | some (pair, score) => some (pair, score, found.map Prod.snd)
  | none => found.map fun (pair, cls) => (pair, 0, some cls)

/-- The body of the loop over the suspects; `none` is an exception, which is logged. -/
def dispatch (heuristic : List (PyStr × (AggregatedIPPair × ℕ)))
    (llama : List (PyStr × (AggregatedIPPair × Classification))) (pid : PyStr) :
    Option (SuricataAlert Obj) := do
  let (pair, score, cls) ← chosen heuristic llama pid
  buildSyntheticAlert B pair score cls

/-- The results of the classifier, if there is one. -/
def llamaResults (D : FlowBatchDispatcher) (answer : LlmAnswer Obj)
    (aggregated : List AggregatedIPPair) : Option (List (PyStr × Classification)) :=
  if D.hasFastLlm && !aggregated.isEmpty then classifyBatch B answer aggregated else some []

/-- The alerts that are passed to `on_alert`, from the pairs of a window; `none` is an exception. -/
def dispatchPairs (D : FlowBatchDispatcher) (trigger : TriggerRead) (answer : LlmAnswer Obj)
    (aggregated : List AggregatedIPPair) : Option (List (SuricataAlert Obj)) := do
  let heuristic ← heuristicSuspects B D aggregated
  if triggerEnabled trigger then
    let results ← llamaResults B D answer aggregated
    let llama ← llamaSuspects B results aggregated
    return (B.listOfSet (unionKeys heuristic llama)).filterMap (dispatch B heuristic llama)
  else return []

/-- `on_window_close`, as the alerts that it passes to `on_alert`; `none` is an exception that
leaves it. -/
def onWindowClose (D : FlowBatchDispatcher) (trigger : TriggerRead) (answer : LlmAnswer Obj)
    (flows : List (SuricataFlowEvent Obj)) (windowStart windowEnd : PyStr) :
    Option (List (SuricataAlert Obj)) := do
  if flows.isEmpty then return []
  let aggregated ← aggregateFlows B flows windowStart windowEnd D.ipToZone
  dispatchPairs B D trigger answer aggregated

/-! ## What is dispatched -/

/-- The dict of the heuristic suspects, when all the keys are written. -/
def heuristicDict (D : FlowBatchDispatcher) (pairs : List AggregatedIPPair) :
    List (PyStr × (AggregatedIPPair × ℕ)) :=
  Dict.ofList (fun k l => k = l)
    ((pairs.filter fun p => IsHeuristic B D p).map fun p => (keyText p, (p, suspectScore B p)))

/-- The dict of the suspects of the classifier, when all the keys are written. -/
def llamaDict (results : List (PyStr × Classification)) (pairs : List AggregatedIPPair) :
    List (PyStr × (AggregatedIPPair × Classification)) :=
  Dict.ofList (fun k l => k = l)
    (pairs.filterMap fun p =>
      (suspectClass results (keyText p)).map fun cls => (keyText p, (p, cls)))

/-- The keys of the suspects. -/
def suspectKeys (D : FlowBatchDispatcher) (results : List (PyStr × Classification))
    (pairs : List AggregatedIPPair) : List PyStr :=
  unionKeys (heuristicDict B D pairs) (llamaDict results pairs)

/-- What is dispatched for a key. -/
def chosenFor (D : FlowBatchDispatcher) (results : List (PyStr × Classification))
    (pairs : List AggregatedIPPair) (pid : PyStr) :
    Option (AggregatedIPPair × ℕ × Option Classification) :=
  chosen (heuristicDict B D pairs) (llamaDict results pairs) pid

/-- The alert for a key. -/
def alertFor (D : FlowBatchDispatcher) (results : List (PyStr × Classification))
    (pairs : List AggregatedIPPair) (pid : PyStr) : Option (SuricataAlert Obj) :=
  dispatch B (heuristicDict B D pairs) (llamaDict results pairs) pid

/-- The alerts of the suspects. -/
def alertsOf (D : FlowBatchDispatcher) (results : List (PyStr × Classification))
    (pairs : List AggregatedIPPair) : List (SuricataAlert Obj) :=
  (B.listOfSet (suspectKeys B D results pairs)).filterMap (alertFor B D results pairs)

/-- A suspect of the heuristic or of the classifier. -/
def IsSuspect (D : FlowBatchDispatcher) (results : List (PyStr × Classification))
    (pair : AggregatedIPPair) : Prop :=
  IsHeuristic B D pair ∨ (suspectClass results (keyText pair)).isSome = true

/-- The score with which a suspect is dispatched. -/
def dispatchScore (D : FlowBatchDispatcher) (pair : AggregatedIPPair) : ℕ :=
  if IsHeuristic B D pair then suspectScore B pair else 0

/-- The sums in the signature of a pair are written. -/
def SumsPrint (pair : AggregatedIPPair) : Prop :=
  Writes B pair.bytesToserverSum ∧ Writes B pair.bytesToclientSum

end

variable {B : BatchTypes Obj} {D : FlowBatchDispatcher} {trigger : TriggerRead}
  {answer : LlmAnswer Obj} {pairs : List AggregatedIPPair}
  {results : List (PyStr × Classification)}

theorem fmtInt_of_writes {n : ℤ} (h : Writes B n) : fmtInt B n = some (intText n) := by
  unfold Writes at h
  unfold fmtInt Interp.int
  rw [if_neg (by omega)]
  rfl

theorem pairKey_of_writes {p : AggregatedIPPair} (h : Writes B (firstPort p)) :
    pairKey B p = some (keyText p) := by
  unfold pairKey
  rw [fmtInt_of_writes h]
  rfl

theorem writes_of_pairKey {p : AggregatedIPPair} {pid : PyStr} (h : pairKey B p = some pid) :
    Writes B (firstPort p) := by
  rw [← fmtInt_isSome]
  unfold pairKey at h
  cases hport : fmtInt B (firstPort p) with
  | none => simp [hport] at h
  | some port => rfl

/-- The key is written when the summary is. -/
theorem SummaryPrints.writes_firstPort {p : AggregatedIPPair} (h : SummaryPrints B p) :
    Writes B (firstPort p) := by
  refine h.1 _ ?_
  unfold firstPort portsShown
  cases p.uniqueDstPorts with
  | nil => simp
  | cons port ports => simp

theorem SummaryPrints.sumsPrint {p : AggregatedIPPair} (h : SummaryPrints B p) : SumsPrint B p :=
  h.2

theorem buildSyntheticAlert_isSome {p : AggregatedIPPair} {score : ℕ}
    {cls : Option Classification} :
    (buildSyntheticAlert B p score cls).isSome = true ↔ SumsPrint B p := by
  unfold buildSyntheticAlert signatureOf SumsPrint
  rw [← fmtInt_isSome, ← fmtInt_isSome]
  cases fmtInt B p.bytesToserverSum with
  | none => simp
  | some bytesToServer => cases fmtInt B p.bytesToclientSum <;> simp

/-- The alert of a pair has its addresses, and the signature id and the severity that follow from
its score and its label. -/
theorem of_buildSyntheticAlert {p : AggregatedIPPair} {score : ℕ} {cls : Option Classification}
    {a : SuricataAlert Obj} (h : buildSyntheticAlert B p score cls = some a) :
    (a.srcIp = p.srcIp ∧ a.destIp = p.destIp) ∧
      getD a.alert "signature_id" (.int 0) = .int (sidOf score) ∧
      getD a.alert "severity" (.int 4) = .int (severityOf score (labelOf cls)) := by
  unfold buildSyntheticAlert at h
  cases hsig : signatureOf B p score with
  | none => simp [hsig] at h
  | some signature =>
    rw [hsig] at h
    obtain rfl := Option.some_inj.mp h
    refine ⟨⟨rfl, rfl⟩, ?_, ?_⟩
    · simp [alertBlob, item, getD, getItem, keyStr]
    · simp [alertBlob, item, getD, getItem, keyStr, u_injective.eq_iff]

theorem heuristicSuspects_of_writes (h : ∀ p ∈ pairs, Writes B (firstPort p)) :
    heuristicSuspects B D pairs = some (heuristicDict B D pairs) := by
  unfold heuristicSuspects heuristicDict
  rw [mapM_of_forall fun p hp => ?_]
  · rfl
  · rw [pairKey_of_writes (h p (List.mem_of_mem_filter hp))]
    rfl

theorem llamaSuspects_of_writes (h : ∀ p ∈ pairs, Writes B (firstPort p)) :
    llamaSuspects B results pairs = some (llamaDict results pairs) := by
  unfold llamaSuspects llamaDict
  have hentries := mapM_of_forall (f := fun p => (pairKey B p).map fun pid =>
      (suspectClass results pid).map fun cls => (pid, (p, cls)))
    (g := fun p => (suspectClass results (keyText p)).map fun cls => (keyText p, (p, cls)))
    fun p hp => by rw [pairKey_of_writes (h p hp)]; rfl
  have hreduce : ∀ entries : List (Option (PyStr × (AggregatedIPPair × Classification))),
      entries.reduceOption = entries.filterMap id := fun _ => rfl
  rw [hentries, Option.bind_eq_bind, Option.bind_some, hreduce, List.filterMap_map]
  rfl

/-- The keys are written when the suspects of the classifier are found. -/
theorem writes_of_llamaSuspects {llama : List (PyStr × (AggregatedIPPair × Classification))}
    (h : llamaSuspects B results pairs = some llama) : ∀ p ∈ pairs, Writes B (firstPort p) := by
  unfold llamaSuspects at h
  cases hentries : pairs.mapM fun p => (pairKey B p).map fun pid =>
      (suspectClass results pid).map fun cls => (pid, (p, cls)) with
  | none => simp [hentries] at h
  | some entries =>
    intro p hp
    obtain ⟨entry, -, hentry⟩ := exists_mem_of_mapM hentries hp
    obtain ⟨pid, hpid, -⟩ := Option.map_eq_some_iff.mp hentry
    exact writes_of_pairKey hpid

/-- The alerts of a window whose trigger is enabled: the keys of the pairs are written, and the
classifier does not raise. -/
theorem dispatchPairs_eq_some (htrigger : triggerEnabled trigger = true)
    {alerts : List (SuricataAlert Obj)} :
    dispatchPairs B D trigger answer pairs = some alerts ↔
      (∀ p ∈ pairs, Writes B (firstPort p)) ∧ ∃ results,
        llamaResults B D answer pairs = some results ∧ alerts = alertsOf B D results pairs := by
  unfold dispatchPairs
  simp only [htrigger, if_true]
  constructor
  · intro h
    simp only [Option.bind_eq_bind, Option.bind_eq_some_iff, Option.pure_def,
      Option.some_inj] at h
    obtain ⟨heuristic, hheuristic, results, hresults, llama, hllama, rfl⟩ := h
    have hwrites := writes_of_llamaSuspects hllama
    obtain rfl := Option.some_inj.mp ((heuristicSuspects_of_writes hwrites).symm.trans hheuristic)
    obtain rfl := Option.some_inj.mp ((llamaSuspects_of_writes hwrites).symm.trans hllama)
    exact ⟨hwrites, results, hresults, rfl⟩
  · rintro ⟨hwrites, results, hresults, rfl⟩
    rw [heuristicSuspects_of_writes hwrites, hresults]
    simp only [Option.bind_eq_bind, Option.bind_some, llamaSuspects_of_writes hwrites]
    rfl

/-! ## The pair that is dispatched for a key -/

theorem of_lookup_heuristicDict {pid : PyStr} {r : AggregatedIPPair} {score : ℕ}
    (h : Dict.lookup (fun k l => k = l) pid (heuristicDict B D pairs) = some (r, score)) :
    r ∈ pairs ∧ IsHeuristic B D r ∧ keyText r = pid ∧ score = suspectScore B r := by
  obtain ⟨i, hi, hkey, hval⟩ := Dict.exists_of_lookup_ofList equivalence_eq h
  obtain ⟨p, hp, rfl⟩ := List.mem_map.mp hi
  obtain ⟨hmem, hheur⟩ := List.mem_filter.mp hp
  obtain ⟨rfl, rfl⟩ := Prod.mk.injEq .. ▸ hval
  exact ⟨hmem, by simpa using hheur, by simpa using hkey, rfl⟩

theorem lookup_heuristicDict_isSome {p : AggregatedIPPair} (hp : p ∈ pairs)
    (hheur : IsHeuristic B D p) :
    (Dict.lookup (fun k l => k = l) (keyText p) (heuristicDict B D pairs)).isSome = true := by
  have hi : (keyText p, (p, suspectScore B p)) ∈
      (pairs.filter fun p => IsHeuristic B D p).map fun p => (keyText p, (p, suspectScore B p)) :=
    List.mem_map.mpr ⟨p, List.mem_filter.mpr ⟨hp, by simpa using hheur⟩, rfl⟩
  exact Dict.lookup_ofList_isSome equivalence_eq hi (by simp)

theorem of_lookup_llamaDict {pid : PyStr} {r : AggregatedIPPair} {cls : Classification}
    (h : Dict.lookup (fun k l => k = l) pid (llamaDict results pairs) = some (r, cls)) :
    r ∈ pairs ∧ keyText r = pid ∧ suspectClass results pid = some cls := by
  obtain ⟨i, hi, hkey, hval⟩ := Dict.exists_of_lookup_ofList equivalence_eq h
  obtain ⟨p, hp, hcls⟩ := List.mem_filterMap.mp hi
  obtain ⟨cls', hcls', rfl⟩ := Option.map_eq_some_iff.mp hcls
  obtain ⟨rfl, rfl⟩ := Prod.mk.injEq .. ▸ hval
  obtain rfl : keyText p = pid := by simpa using hkey
  exact ⟨hp, rfl, hcls'⟩

theorem lookup_llamaDict_isSome {p : AggregatedIPPair} (hp : p ∈ pairs)
    (hcls : (suspectClass results (keyText p)).isSome = true) :
    (Dict.lookup (fun k l => k = l) (keyText p) (llamaDict results pairs)).isSome = true := by
  obtain ⟨cls, hcls⟩ := Option.isSome_iff_exists.mp hcls
  have hi : (keyText p, (p, cls)) ∈ pairs.filterMap fun p =>
      (suspectClass results (keyText p)).map fun cls => (keyText p, (p, cls)) :=
    List.mem_filterMap.mpr ⟨p, hp, by rw [hcls]; rfl⟩
  exact Dict.lookup_ofList_isSome equivalence_eq hi (by simp)

/-- What is dispatched for a key: a suspect with that key, one of the heuristic if there is one. -/
theorem of_chosenFor {pid : PyStr} {r : AggregatedIPPair} {score : ℕ}
    {cls : Option Classification} (h : chosenFor B D results pairs pid = some (r, score, cls)) :
    (r ∈ pairs ∧ keyText r = pid ∧ IsSuspect B D results r) ∧ score = dispatchScore B D r ∧
      cls = suspectClass results pid ∧
      ∀ p ∈ pairs, IsHeuristic B D p → keyText p = pid → IsHeuristic B D r := by
  unfold chosenFor chosen at h
  cases hheur : Dict.lookup (fun k l => k = l) pid (heuristicDict B D pairs) with
  | some found =>
    obtain ⟨p, s⟩ := found
    obtain ⟨hp, hpheur, hkey, rfl⟩ := of_lookup_heuristicDict hheur
    simp only [hheur, Option.some.injEq, Prod.mk.injEq] at h
    obtain ⟨rfl, rfl, rfl⟩ := h
    refine ⟨⟨hp, hkey, .inl hpheur⟩, ?_, ?_, fun _ _ _ _ => hpheur⟩
    · unfold dispatchScore
      rw [if_pos hpheur]
    · cases hllama : Dict.lookup (fun k l => k = l) pid (llamaDict results pairs) with
      | some found =>
        obtain ⟨q, cls⟩ := found
        rw [(of_lookup_llamaDict hllama).2.2]
        rfl
      | none =>
        -- the pair itself would be in the dict of the classifier
        cases hcls : suspectClass results pid with
        | none => rfl
        | some cls =>
          have hsome : (suspectClass results (keyText p)).isSome = true := by
            rw [hkey, hcls]
            rfl
          have hfound := lookup_llamaDict_isSome hp hsome
          rw [hkey, hllama] at hfound
          exact absurd hfound (by simp)
  | none =>
    simp only [hheur] at h
    cases hllama : Dict.lookup (fun k l => k = l) pid (llamaDict results pairs) with
    | none => simp [hllama] at h
    | some found =>
      obtain ⟨q, c⟩ := found
      obtain ⟨hq, hkey, hcls⟩ := of_lookup_llamaDict hllama
      simp only [hllama, Option.map_some, Option.some.injEq, Prod.mk.injEq] at h
      obtain ⟨rfl, rfl, rfl⟩ := h
      have hno : ∀ p ∈ pairs, IsHeuristic B D p → keyText p = pid → False := by
        intro p hp hpheur hpkey
        have hfound := lookup_heuristicDict_isSome hp hpheur
        rw [hpkey, hheur] at hfound
        exact absurd hfound (by simp)
      refine ⟨⟨hq, hkey, .inr (by rw [hkey, hcls]; rfl)⟩, ?_, hcls.symm, ?_⟩
      · unfold dispatchScore
        rw [if_neg fun hqheur => hno q hq hqheur hkey]
      · exact fun p hp hpheur hpkey => (hno p hp hpheur hpkey).elim

/-- There is something to dispatch for the key of a suspect. -/
theorem chosenFor_isSome {p : AggregatedIPPair} (hp : p ∈ pairs) (hs : IsSuspect B D results p) :
    (chosenFor B D results pairs (keyText p)).isSome = true := by
  unfold chosenFor chosen
  rcases hs with hheur | hcls
  · obtain ⟨found, hfound⟩ := Option.isSome_iff_exists.mp (lookup_heuristicDict_isSome hp hheur)
    simp [hfound]
  · obtain ⟨found, hfound⟩ := Option.isSome_iff_exists.mp (lookup_llamaDict_isSome hp hcls)
    cases Dict.lookup (fun k l => k = l) (keyText p) (heuristicDict B D pairs) <;> simp [hfound]

/-- The keys of the union are those for which there is something to dispatch. -/
theorem mem_unionKeys {V W : Type} {heuristic : List (PyStr × V)} {llama : List (PyStr × W)}
    {pid : PyStr} :
    pid ∈ unionKeys heuristic llama ↔
      (Dict.lookup (fun k l => k = l) pid heuristic).isSome = true ∨
        (Dict.lookup (fun k l => k = l) pid llama).isSome = true := by
  unfold unionKeys
  rw [List.mem_dedup, List.mem_append, ← Dict.exists_key_iff, ← Dict.exists_key_iff]
  simp

/-- The keys of the suspects are those for which there is something to dispatch. -/
theorem mem_suspectKeys {pid : PyStr} :
    pid ∈ suspectKeys B D results pairs ↔ (chosenFor B D results pairs pid).isSome = true := by
  unfold suspectKeys chosenFor chosen
  rw [mem_unionKeys]
  cases Dict.lookup (fun k l => k = l) pid (heuristicDict B D pairs) <;>
    simp

/-- The alert for a key is that of what is dispatched for it. -/
theorem alertFor_eq_some {pid : PyStr} {a : SuricataAlert Obj} :
    alertFor B D results pairs pid = some a ↔ ∃ r score cls,
      chosenFor B D results pairs pid = some (r, score, cls) ∧
        buildSyntheticAlert B r score cls = some a := by
  unfold alertFor dispatch
  constructor
  · intro halert
    obtain ⟨⟨r, score, cls⟩, hchosen, hbuild⟩ := Option.bind_eq_some_iff.mp halert
    exact ⟨r, score, cls, hchosen, hbuild⟩
  · rintro ⟨r, score, cls, hchosen, hbuild⟩
    exact Option.bind_eq_some_iff.mpr ⟨(r, score, cls), hchosen, hbuild⟩

/-- The alerts are those for the keys. -/
theorem mem_alertsOf {a : SuricataAlert Obj} :
    a ∈ alertsOf B D results pairs ↔ ∃ pid, alertFor B D results pairs pid = some a := by
  unfold alertsOf
  rw [List.mem_filterMap]
  constructor
  · rintro ⟨pid, -, halert⟩
    exact ⟨pid, halert⟩
  · rintro ⟨pid, halert⟩
    obtain ⟨r, score, cls, hchosen, -⟩ := alertFor_eq_some.mp halert
    refine ⟨pid, ?_, halert⟩
    rw [(B.perm_listOfSet _).mem_iff, mem_suspectKeys, hchosen]
    rfl

/-! ## When the suspects of the heuristic are passed on -/

section

variable (B D answer)

/-- Nothing raises on the way to the suspects: with a classifier, the summaries are written and the
answer raises nothing; without one, the keys are written. -/
def LlamaFine (pairs : List AggregatedIPPair) : Prop :=
  if D.hasFastLlm = true then (∀ p ∈ pairs, SummaryPrints B p) ∧ AnswerFine B answer
  else ∀ p ∈ pairs, Writes B (firstPort p)

/-- Nothing raises, and the suspects of the heuristic have keys of their own and sums that are
written. -/
def HeuristicFine (pairs : List AggregatedIPPair) : Prop :=
  LlamaFine B D answer pairs ∧ Set.InjOn keyText {p | p ∈ pairs ∧ IsHeuristic B D p} ∧
    ∀ p ∈ pairs, IsHeuristic B D p → SumsPrint B p

/-- Each pair of the window that the heuristic suspects is passed to `on_alert`. -/
def SuspectsPassed (trigger : TriggerRead) (flows : List (SuricataFlowEvent Obj))
    (windowStart windowEnd : PyStr) : Prop :=
  ∀ pairs, aggregateFlows B flows windowStart windowEnd D.ipToZone = some pairs →
    ∀ p ∈ pairs, IsHeuristic B D p →
      ∃ alerts, onWindowClose B D trigger answer flows windowStart windowEnd = some alerts ∧
        ∃ a ∈ alerts, a.srcIp = p.srcIp ∧ a.destIp = p.destIp

end

theorem llamaFine_iff (hne : pairs ≠ []) :
    LlamaFine B D answer pairs ↔
      (∀ p ∈ pairs, Writes B (firstPort p)) ∧ (llamaResults B D answer pairs).isSome = true := by
  unfold LlamaFine llamaResults
  cases D.hasFastLlm with
  | false => simp
  | true =>
    have hempty : pairs.isEmpty = false := by simpa using hne
    simp only [hempty, Bool.not_false, Bool.and_self, if_true, classifyBatch_isSome hne]
    constructor
    · intro h
      exact ⟨fun p hp => (h.1 p hp).writes_firstPort, h⟩
    · exact And.right

/-- What is passed on of a window with flows. -/
theorem onWindowClose_of_aggregateFlows {flows : List (SuricataFlowEvent Obj)}
    {windowStart windowEnd : PyStr} (hne : pairs ≠ [])
    (h : aggregateFlows B flows windowStart windowEnd D.ipToZone = some pairs) :
    onWindowClose B D trigger answer flows windowStart windowEnd =
      dispatchPairs B D trigger answer pairs := by
  have hflows : flows.isEmpty = false := by
    cases flows with
    | nil => exact absurd (Option.some_inj.mp h.symm) hne
    | cons f flows => rfl
  unfold onWindowClose
  rw [hflows, h]
  rfl

/-- Each suspect of the heuristic is passed on exactly when there is none or nothing raises and the
suspects have keys of their own and sums that are written. -/
theorem suspectsPassed_iff {flows : List (SuricataFlowEvent Obj)} {windowStart windowEnd : PyStr}
    (htrigger : triggerEnabled trigger = true) :
    SuspectsPassed B D answer trigger flows windowStart windowEnd ↔
      ∀ pairs, aggregateFlows B flows windowStart windowEnd D.ipToZone = some pairs →
        (∃ p ∈ pairs, IsHeuristic B D p) → HeuristicFine B D answer pairs := by
  refine forall₂_congr fun pairs hpairs => ?_
  constructor
  · rintro h ⟨p, hp, hheur⟩
    have hne := List.ne_nil_of_mem hp
    rw [onWindowClose_of_aggregateFlows hne hpairs] at h
    obtain ⟨alerts, halerts, -⟩ := h p hp hheur
    obtain ⟨hwrites, results, hresults, rfl⟩ := (dispatchPairs_eq_some htrigger).mp halerts
    -- the alert of a suspect is what is dispatched for its own key
    have hown : ∀ q ∈ pairs, IsHeuristic B D q → ∃ score cls,
        chosenFor B D results pairs (keyText q) = some (q, score, cls) ∧
          (buildSyntheticAlert B q score cls).isSome = true := by
      intro q hq hqheur
      obtain ⟨alerts', halerts', a, ha, hsrc, hdest⟩ := h q hq hqheur
      obtain rfl := Option.some_inj.mp (halerts'.symm.trans halerts)
      obtain ⟨pid, halert⟩ := mem_alertsOf.mp ha
      obtain ⟨r, score, cls, hchosen, hbuild⟩ := alertFor_eq_some.mp halert
      obtain ⟨⟨hr, hkey, -⟩, -⟩ := of_chosenFor hchosen
      obtain ⟨⟨hasrc, hadest⟩, -⟩ := of_buildSyntheticAlert hbuild
      obtain rfl := eq_of_mem_aggregateFlows hpairs hr hq (hasrc.symm.trans hsrc)
        (hadest.symm.trans hdest)
      exact ⟨score, cls, hkey ▸ hchosen, by rw [hbuild]; rfl⟩
    refine ⟨?_, ?_, ?_⟩
    · rw [llamaFine_iff hne, hresults]
      exact ⟨hwrites, rfl⟩
    · rintro q ⟨hq, hqheur⟩ r ⟨hr, hrheur⟩ hkey
      obtain ⟨score, cls, hchosen, -⟩ := hown q hq hqheur
      obtain ⟨score', cls', hchosen', -⟩ := hown r hr hrheur
      rw [← hkey, hchosen] at hchosen'
      exact (Prod.mk.inj (Option.some_inj.mp hchosen')).1
    · intro q hq hqheur
      obtain ⟨score, cls, -, hbuild⟩ := hown q hq hqheur
      exact buildSyntheticAlert_isSome.mp hbuild
  · intro h p hp hheur
    have hne := List.ne_nil_of_mem hp
    obtain ⟨hllama, hinj, hsums⟩ := h ⟨p, hp, hheur⟩
    obtain ⟨hwrites, hsome⟩ := (llamaFine_iff hne).mp hllama
    obtain ⟨results, hresults⟩ := Option.isSome_iff_exists.mp hsome
    rw [onWindowClose_of_aggregateFlows hne hpairs]
    refine ⟨_, (dispatchPairs_eq_some htrigger).mpr ⟨hwrites, results, hresults, rfl⟩, ?_⟩
    have hfound : (chosenFor B D results pairs (keyText p)).isSome = true :=
      chosenFor_isSome hp (.inl hheur)
    obtain ⟨⟨r, score, cls⟩, hchosen⟩ := Option.isSome_iff_exists.mp hfound
    obtain ⟨⟨hr, hkey, -⟩, -, -, hfirst⟩ := of_chosenFor hchosen
    obtain rfl := hinj ⟨hr, hfirst p hp hheur rfl⟩ ⟨hp, hheur⟩ hkey
    obtain ⟨a, ha⟩ := Option.isSome_iff_exists.mp
      (buildSyntheticAlert_isSome.mpr (hsums r hp hheur))
    have halert := alertFor_eq_some.mpr ⟨r, score, cls, hchosen, ha⟩
    exact ⟨a, mem_alertsOf.mpr ⟨_, halert⟩, (of_buildSyntheticAlert ha).1⟩

/-! ## A window to run -/

/-- The range of floats: an integer from here on is rounded beyond it. -/
def FLOAT_LIMIT : ℕ := 2 ^ 1024 - 2 ^ 970

/-- An interpreter for concrete runs, in which a set has the order of its list and only ASCII
letters have a case. -/
def plainBatch : BatchTypes PyStr where
  toEventTypes := plainTypes
  listOfSet keys := keys
  perm_listOfSet _ := .rfl
  strOf
    | .str s => some s
    | .int n => (textInterp.int n).toOption
    | v => some (plainTypes.fmt v)
  reprStr s := u "'" ++ s ++ u "'"
  lower s := s.map fun c => if 65 ≤ c ∧ c ≤ 90 then c + 32 else c
  upper s := s.map fun c => if 97 ≤ c ∧ c ≤ 122 then c - 32 else c
  truth o := o ≠ []
  toFloatVal
    | .float x => .ok x
    | .int n => if n.natAbs < FLOAT_LIMIT then .ok (readFloat (intText n ++ u ".0"))
      else .error .overflow
    | .bool b => .ok (readFloat (if b then u "1.0" else u "0.0"))
    | _ => .error .typeOrValue
  literalEval _ := .error .valueOrSyntax
  toInt_int _ := rfl
  digits_threshold := by decide

/-- A flow between two hosts. -/
def plainFlow (srcIp destIp : String) (destPort : ℤ) : SuricataFlowEvent PyStr where
  timestamp := u "2026-01-01T12:00:00.000000+0000"
  flowId := 1
  inIface := u "br0"
  srcIp := u srcIp
  srcPort := 40000
  destIp := u destIp
  destPort := destPort
  proto := u "TCP"
  appProto := u "ssh"
  flow := [item "pkts_toserver" (.int 10), item "bytes_toserver" (.int 1200)]
  tcp := []
  raw := []

/-- The dispatcher as it is wired up, with the zones of some hosts. -/
def plainDispatcher : FlowBatchDispatcher where
  ipToZone := some fun ip =>
    if (u "10.1.100.").isPrefixOf ip then some (u "WEB")
    else if (u "10.2.100.").isPrefixOf ip then some (u "APP")
    else none
  suspectThreshold := 2
  hasFastLlm := true

/-- An answer that classifies one pair. -/
def plainAnswer (pairId label : String) (confidence : PyVal PyStr) : LlmAnswer PyStr :=
  .value (.dict [item "classifications" (.seq false [.dict [item "pair_id" (.str (u pairId)),
    item "label" (.str (u label)), item "confidence" confidence]])])

/-- The flows of a window with one connection to an SSH server. -/
def sshWindow : List (SuricataFlowEvent PyStr) := [plainFlow "10.1.100.5" "10.2.100.10" 22]

/-- The only pair of the window has a score of 2. -/
def sshPair : AggregatedIPPair where
  srcIp := u "10.1.100.5"
  destIp := u "10.2.100.10"
  windowStart := u "12:00"
  windowEnd := u "12:02"
  flowCount := 1
  tcpFlowCount := 1
  udpFlowCount := 0
  pktsToserverSum := 10
  pktsToclientSum := 0
  bytesToserverSum := 1200
  bytesToclientSum := 0
  pktsToserverMax := 10
  pktsToclientMax := 0
  bytesToserverMax := 1200
  bytesToclientMax := 0
  uniqueDstPorts := [22]
  uniqueDstPortCount := 1
  uniqueAppProtos := [u "ssh"]
  statesObserved := [u "unknown"]
  srcZone := u "WEB"
  destZone := u "APP"
  flowIds := [1]

theorem aggregateFlows_sshWindow :
    aggregateFlows plainBatch sshWindow (u "12:00") (u "12:02") plainDispatcher.ipToZone =
      some [sshPair] := by
  decide +kernel

theorem summaryPrints_sshPair : SummaryPrints plainBatch sshPair :=
  buildPairSummary_isSome.mp (by decide +kernel)

/-- When the model cannot be reached the suspect is passed on. -/
theorem suspectsPassed_sshWindow :
    SuspectsPassed plainBatch plainDispatcher .raised .noRedis sshWindow (u "12:00")
      (u "12:02") := by
  refine (suspectsPassed_iff rfl).mpr fun pairs hpairs _ => ?_
  obtain rfl := Option.some_inj.mp (aggregateFlows_sshWindow.symm.trans hpairs)
  refine ⟨⟨?_, ?_⟩, ?_, ?_⟩
  · intro p hp
    obtain rfl := List.mem_singleton.mp hp
    exact summaryPrints_sshPair
  · intro result hresult
    cases hresult
  · rintro p ⟨hp, -⟩ q ⟨hq, -⟩ -
    rw [List.mem_singleton.mp hp, List.mem_singleton.mp hq]
  · intro p hp _
    obtain rfl := List.mem_singleton.mp hp
    exact summaryPrints_sshPair.sumsPrint

/-- A confidence beyond the range of floats raises an `OverflowError`, which stops the window. -/
theorem exists_suspect_lost :
    ∃ (answer : LlmAnswer PyStr) (trigger : TriggerRead) (flows : List (SuricataFlowEvent PyStr))
      (windowStart windowEnd : PyStr), triggerEnabled trigger = true ∧
        ¬ SuspectsPassed plainBatch plainDispatcher answer trigger flows windowStart windowEnd := by
  refine ⟨plainAnswer "10.1.100.5→10.2.100.10:22" "SUSPECT_lateral" (.int (10 ^ 400)), .noRedis,
    sshWindow, u "12:00", u "12:02", rfl, fun h => ?_⟩
  have hheur : IsHeuristic plainBatch plainDispatcher sshPair := by decide +kernel
  obtain ⟨alerts, halerts, -⟩ := h _ aggregateFlows_sshWindow sshPair (List.mem_singleton_self _)
    hheur
  have hnone : (onWindowClose plainBatch plainDispatcher .noRedis
      (plainAnswer "10.1.100.5→10.2.100.10:22" "SUSPECT_lateral" (.int (10 ^ 400)))
      sshWindow (u "12:00") (u "12:02")).isNone = true := by
    decide +kernel
  rw [halerts] at hnone
  exact absurd hnone (by simp)

end ControlPlane.Stream
