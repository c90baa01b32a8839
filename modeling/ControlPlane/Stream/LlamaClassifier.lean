import ControlPlane.Stream.FlowAggregator

/-!
# The classifier of a window

`classify_batch` asks a model about all the pairs of a window and reads its answer: it is to return
an empty result on any error. `classifyBatch_isSome` says when no exception leaves it.
-/

namespace ControlPlane.Stream

open JsonText

variable {Obj : Type}

/-- What comes back from the model. -/
inductive LlmAnswer (Obj : Type) where
  /-- The call raised. -/
  | raised
  | value (result : PyVal Obj)

/-- What is found for a pair. -/
structure Classification where
  label : PyStr
  confidence : JsonFloat
  reason : PyStr

/-- `0.5`. -/
def half : JsonFloat :=
  .fin ⟨false, [0], [5], none, FloatText.zero_ne, FloatText.zero_head, FloatText.none_ne, by decide⟩

/-- A float that is not zero. -/
def nonzero : JsonFloat → Bool
  | .fin t => t.whole.any (· ≠ 0) || t.frac.any (· ≠ 0)
  | _ => true

section

variable (B : BatchTypes Obj)

/-- An integer in an f-string. -/
def fmtInt (n : ℤ) : Option PyStr := (B.int n).toOption

/-- The interpreter writes the integer. -/
def Writes (n : ℤ) : Prop := (natText n.natAbs).length ≤ B.maxDigits

/-- `bool(x)`. -/
def truthy : PyVal Obj → Bool
  | .none => false
  | .bool b => b
  | .int n => n ≠ 0
  | .float x => nonzero x
  | .str s => s ≠ []
  | .seq _ xs => !xs.isEmpty
  | .dict items => !items.isEmpty
  | .other o => B.truth o

/-- `item.get(key, default) or default`. -/
def getOr (item : Items Obj) (key : String) (default : PyVal Obj) : PyVal Obj :=
  if truthy B (getD item key default) then getD item key default else default

/-- `str(item.get(key, default) or default)`. -/
def getText (item : Items Obj) (key default : String) : Option PyStr :=
  B.strOf (getOr B item key (.str (u default)))

/-! ## The prompt -/

/-- `zone or '?'`. -/
def zoneText (zone : PyStr) : PyStr := if zone = [] then u "?" else zone

/-- `pair.unique_dst_ports[:3] or [0]`. -/
def portsShown (pair : AggregatedIPPair) : List ℤ :=
  if pair.uniqueDstPorts.take 3 = [] then [0] else pair.uniqueDstPorts.take 3

/-- `_build_pair_summary`. The lengths have few digits; the other integers may have too many. -/
def buildPairSummary (pair : AggregatedIPPair) : Option PyStr := do
  let ports ← (portsShown pair).mapM (fmtInt B)
  let bytesTx ← fmtInt B pair.bytesToserverSum
  let bytesRx ← fmtInt B pair.bytesToclientSum
  return pair.srcIp ++ u "→" ++ pair.destIp ++ u ":" ++ listText ports ++ u " (" ++
    zoneText pair.srcZone ++ u "→" ++ zoneText pair.destZone ++ u ") flows=" ++
    natText pair.flowCount ++ u " tcp=" ++ natText pair.tcpFlowCount ++ u " udp=" ++
    natText pair.udpFlowCount ++ u " unique_dst_ports=" ++ natText pair.uniqueDstPortCount ++
    u " bytes_tx=" ++ bytesTx ++ u " bytes_rx=" ++ bytesRx ++ u " states=" ++
    listText (pair.statesObserved.map B.reprStr)

/-- `_build_pair_id`. -/
def buildPairId (pair : AggregatedIPPair) : Option PyStr := do
  let port ← fmtInt B (pair.uniqueDstPorts.head?.getD 0)
  return pair.srcIp ++ u "→" ++ pair.destIp ++ u ":" ++ port

/-- The message of the user. -/
def userMsg (pairs : List AggregatedIPPair) : Option PyStr := do
  let summaries ← pairs.mapM (buildPairSummary B)
  return u "Window batch — " ++ natText pairs.length ++ u " IP-pair(s):\n\n" ++
    [10].intercalate (summaries.map (u "- " ++ ·)) ++
    u "\n\nClassify each pair. Echo `pair_id` exactly as src_ip→dest_ip:port " ++
    u "(use the FIRST dst port if multiple)."

/-! ## The answer -/

/-- The confidence of an item. -/
def confidenceOf (item : Items Obj) : Option JsonFloat :=
  match B.toFloatVal (getOr B item "confidence" (.float half)) with
  | .ok conf => some conf
  | .error .typeOrValue => some half
  | .error .overflow => none

/-- The body of the loop over the items: an exception, nothing, or the entry of a pair. -/
def classifyItem : PyVal Obj → Option (Option (PyStr × Classification))
  | .dict item => do
    let pid ← getText B item "pair_id" ""
    if pid = [] then return none
    let conf ← confidenceOf B item
    let label ← getText B item "label" "SUSPECT_other"
    let reason ← getText B item "reason" ""
    return some (pid, { label := label, confidence := conf, reason := reason.take 160 })
  | _ => some none

/-- The entries for the items, which are to be a list. -/
def classifyItems : PyVal Obj → Option (List (PyStr × Classification))
  | .seq false items => do
    let entries ← items.mapM (classifyItem B)
    return Dict.ofList (fun k l => k = l) entries.reduceOption
  | _ => some []

/-- The items that come as a text. -/
def parseItems (rawItems : PyStr) : Option (PyVal Obj) :=
  match B.loads rawItems with
  | .ok parsed => some parsed
  | .error .decode =>
    match B.literalEval rawItems with
    | .ok parsed => some parsed
    -- the function returns here; what is no list has the same result
    | .error .valueOrSyntax => some .none
    | .error .other => none
  | .error _ => none

/-- `classify_batch`; `none` is an exception that leaves it. -/
def classifyBatch (answer : LlmAnswer Obj) (pairs : List AggregatedIPPair) :
    Option (List (PyStr × Classification)) :=
  if pairs = [] then some []
  else do
    let _ ← userMsg B pairs
    match answer with
    | .raised => return []
    | .value (.dict result) =>
      match getD result "classifications" (.seq false []) with
      | .str rawItems => (parseItems B rawItems).bind (classifyItems B)
      | rawItems => classifyItems B rawItems
    | .value _ => return []

/-! ## When no exception leaves it -/

/-- The numbers of the summary of a pair are written. -/
def SummaryPrints (pair : AggregatedIPPair) : Prop :=
  (∀ n ∈ portsShown pair, Writes B n) ∧ Writes B pair.bytesToserverSum ∧
    Writes B pair.bytesToclientSum

/-- An item raises nothing: its pair has a text, and when this is not empty, so have the label and
the reason, and the confidence is no integer beyond the range of floats. -/
def ItemFine (item : Items Obj) : Prop :=
  ∃ pid, getText B item "pair_id" "" = some pid ∧
    (pid = [] ∨
      B.toFloatVal (getOr B item "confidence" (.float half)) ≠ .error .overflow ∧
      (getText B item "label" "SUSPECT_other").isSome = true ∧
      (getText B item "reason" "").isSome = true)

/-- If there is a list of items, each of its dicts raises nothing. -/
def ItemsFine (rawItems : PyVal Obj) : Prop :=
  ∀ items, rawItems = .seq false items → ∀ item, .dict item ∈ items → ItemFine B item

/-- A text in place of the list is read, as JSON or else as a literal, and its items raise nothing;
or it fails as JSON with a `JSONDecodeError` and as a literal with one of the two errors that are
expected. -/
def TextFine (rawItems : PyStr) : Prop :=
  (∃ v, B.loads rawItems = .ok v ∧ ItemsFine B v) ∨
  B.loads rawItems = .error .decode ∧
    ((∃ v, B.literalEval rawItems = .ok v ∧ ItemsFine B v) ∨
      B.literalEval rawItems = .error .valueOrSyntax)

/-- The answer of the model raises nothing. -/
def AnswerFine (answer : LlmAnswer Obj) : Prop :=
  ∀ result, answer = .value (.dict result) →
    match getD result "classifications" (.seq false []) with
    | .str rawItems => TextFine B rawItems
    | rawItems => ItemsFine B rawItems

end

variable {B : BatchTypes Obj}

theorem fmtInt_isSome {n : ℤ} : (fmtInt B n).isSome = true ↔ Writes B n := by
  unfold fmtInt Writes Interp.int
  split_ifs with h
  · simp [Except.toOption]
    omega
  · simp [Except.toOption]
    omega

theorem buildPairSummary_isSome {pair : AggregatedIPPair} :
    (buildPairSummary B pair).isSome = true ↔ SummaryPrints B pair := by
  have hports : ((portsShown pair).mapM (fmtInt B)).isSome = true ↔
      ∀ n ∈ portsShown pair, Writes B n := by
    rw [mapM_isSome]
    exact forall₂_congr fun n _ => fmtInt_isSome
  unfold buildPairSummary SummaryPrints
  rw [← hports, ← fmtInt_isSome, ← fmtInt_isSome]
  cases (portsShown pair).mapM (fmtInt B) with
  | none => simp
  | some ports =>
    cases fmtInt B pair.bytesToserverSum with
    | none => simp
    | some bytesTx => cases fmtInt B pair.bytesToclientSum <;> simp

theorem userMsg_isSome {pairs : List AggregatedIPPair} :
    (userMsg B pairs).isSome = true ↔ ∀ p ∈ pairs, SummaryPrints B p := by
  have hmap : (pairs.mapM (buildPairSummary B)).isSome = true ↔
      ∀ p ∈ pairs, SummaryPrints B p := by
    rw [mapM_isSome]
    exact forall₂_congr fun p _ => buildPairSummary_isSome
  unfold userMsg
  rw [← hmap]
  cases pairs.mapM (buildPairSummary B) <;> simp

theorem confidenceOf_isSome {item : Items Obj} :
    (confidenceOf B item).isSome = true ↔
      B.toFloatVal (getOr B item "confidence" (.float half)) ≠ .error .overflow := by
  unfold confidenceOf
  cases B.toFloatVal (getOr B item "confidence" (.float half)) with
  | ok conf => simp
  | error e => cases e <;> simp

theorem classifyItem_isSome {item : Items Obj} :
    (classifyItem B (.dict item)).isSome = true ↔ ItemFine B item := by
  unfold classifyItem ItemFine
  rw [← confidenceOf_isSome]
  cases hpid : getText B item "pair_id" "" with
  | none => simp [hpid]
  | some pid =>
    by_cases hnil : pid = []
    · simp [hpid, hnil]
    · cases hconf : confidenceOf B item with
      | none => simp [hpid, hnil, hconf]
      | some conf =>
        cases hlabel : getText B item "label" "SUSPECT_other" with
        | none => simp [hpid, hnil, hconf, hlabel]
        | some label =>
          cases hreason : getText B item "reason" "" <;> simp [hpid, hnil, hconf, hlabel, hreason]

theorem classifyItems_isSome {rawItems : PyVal Obj} :
    (classifyItems B rawItems).isSome = true ↔ ItemsFine B rawItems := by
  unfold classifyItems ItemsFine
  split
  · rename_i items
    have hmap : (items.mapM (classifyItem B)).isSome = true ↔
        ∀ item, .dict item ∈ items → ItemFine B item := by
      rw [mapM_isSome]
      constructor
      · intro h item hitem
        exact classifyItem_isSome.mp (h _ hitem)
      · intro h v hv
        cases v with
        | dict item => exact classifyItem_isSome.mpr (h item hv)
        | _ => rfl
    have hsome : (do
        let entries ← items.mapM (classifyItem B)
        return Dict.ofList (fun k l => k = l) entries.reduceOption).isSome = true ↔
          (items.mapM (classifyItem B)).isSome = true := by
      cases items.mapM (classifyItem B) <;> simp
    rw [hsome, hmap]
    constructor
    · intro h items' hitems item hitem
      rw [PyVal.seq.injEq] at hitems
      exact h item (hitems.2 ▸ hitem)
    · intro h
      exact h items rfl
  · rename_i hno
    simp only [Option.isSome_some, true_iff]
    intro items hitems
    exact absurd hitems (hno items)

theorem parseItems_bind_isSome {rawItems : PyStr} :
    ((parseItems B rawItems).bind (classifyItems B)).isSome = true ↔ TextFine B rawItems := by
  unfold parseItems TextFine
  cases B.loads rawItems with
  | ok v => simp [classifyItems_isSome]
  | error e =>
    cases e with
    | decode =>
      cases B.literalEval rawItems with
      | ok v => simp [classifyItems_isSome]
      | error e => cases e <;> simp [classifyItems]
    | _ => simp

/-- No exception leaves the classifier when the summaries are written and the answer raises
nothing. -/
theorem classifyBatch_isSome {answer : LlmAnswer Obj} {pairs : List AggregatedIPPair}
    (hne : pairs ≠ []) :
    (classifyBatch B answer pairs).isSome = true ↔
      (∀ p ∈ pairs, SummaryPrints B p) ∧ AnswerFine B answer := by
  unfold classifyBatch AnswerFine
  rw [if_neg hne, ← userMsg_isSome]
  cases userMsg B pairs with
  | none => simp
  | some msg =>
    cases answer with
    | raised => simp
    | value result =>
      cases result with
      | dict result =>
        cases hraw : getD result "classifications" (.seq false []) with
        | str rawItems => simpa [hraw] using parseItems_bind_isSome
        | _ => simpa [hraw] using classifyItems_isSome
      | _ => simp

end ControlPlane.Stream
