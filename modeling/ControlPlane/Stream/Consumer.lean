import ControlPlane.Lib.JsonRoundTrip

/-!
# The consumer of the event stream

`SSEConsumer._consume`: what the loop does with each line of the stream, as the calls that it makes,
and where it raises, so that the connection is dropped and the lines after it are not processed.
`processes_iff` says which lines and which states of the trigger it gets through.
-/

namespace ControlPlane.Stream

open JsonText

variable {Obj : Type}

/-- The items of a dict. -/
abbrev Items (Obj : Type) := List (PyKey Obj × PyVal Obj)

/-- The interpreter, and the checks of pydantic for a field of each type; `none` is an exception. -/
structure EventTypes (Obj : Type) extends Interp Obj where
  /-- `str(x)`, in an f-string. -/
  fmt : PyVal Obj → PyStr
  /-- `int(x)`. -/
  toInt : PyVal Obj → Option ℤ
  /-- A field of type `str`. -/
  strField : PyVal Obj → Option PyStr
  /-- A field of type `int`. -/
  intField : PyVal Obj → Option ℤ
  /-- A field of type `dict`. -/
  dictField : PyVal Obj → Option (Items Obj)

/-- `data.get(key, default)`. -/
def getD (data : Items Obj) (key : String) (default : PyVal Obj) : PyVal Obj :=
  (getItem (u key) data).getD default

/-- `key in data`. -/
def hasKey (data : Items Obj) (key : String) : Bool := (getItem (u key) data).isSome

/-- `SuricataAlert`. -/
structure SuricataAlert (Obj : Type) where
  timestamp : PyStr
  srcIp : PyStr
  destIp : PyStr
  srcPort : ℤ
  destPort : ℤ
  proto : PyStr
  alert : Items Obj
  raw : Items Obj

/-- `SuricataFlowEvent`. -/
structure SuricataFlowEvent (Obj : Type) where
  timestamp : PyStr
  flowId : ℤ
  inIface : PyStr
  srcIp : PyStr
  srcPort : ℤ
  destIp : PyStr
  destPort : ℤ
  proto : PyStr
  appProto : PyStr
  flow : Items Obj
  tcp : Items Obj
  raw : Items Obj

namespace EventTypes

variable (E : EventTypes Obj)

/-- A field of type `str` with a default. -/
def getStr (data : Items Obj) (key default : String) : Option PyStr :=
  E.strField (getD data key (.str (u default)))

/-- `SuricataAlert.from_raw`. -/
def alertFromRaw (data : Items Obj) : Option (SuricataAlert Obj) := do
  let timestamp ← E.getStr data "timestamp" ""
  let srcIp ← E.getStr data "src_ip" ""
  let destIp ← E.getStr data "dest_ip" ""
  let srcPort ← E.intField (getD data "src_port" (.int 0))
  let destPort ← E.intField (getD data "dest_port" (.int 0))
  let proto ← E.getStr data "proto" "tcp"
  let alert ← E.dictField (getD data "alert" (.dict []))
  let raw ← E.dictField (.dict data)
  return {
    timestamp := timestamp, srcIp := srcIp, destIp := destIp, srcPort := srcPort
    destPort := destPort, proto := proto, alert := alert, raw := raw }

/-- `SuricataFlowEvent.from_raw`. -/
def flowFromRaw (data : Items Obj) : Option (SuricataFlowEvent Obj) := do
  let timestamp ← E.getStr data "timestamp" ""
  let flowId ← (E.toInt (getD data "flow_id" (.int 0))).bind fun n => E.intField (.int n)
  let inIface ← E.getStr data "in_iface" ""
  let srcIp ← E.getStr data "src_ip" ""
  let srcPort ← (E.toInt (getD data "src_port" (.int 0))).bind fun n => E.intField (.int n)
  let destIp ← E.getStr data "dest_ip" ""
  let destPort ← (E.toInt (getD data "dest_port" (.int 0))).bind fun n => E.intField (.int n)
  let proto ← E.getStr data "proto" "tcp"
  let appProto ← E.getStr data "app_proto" ""
  let flow ← E.dictField (getD data "flow" (.dict []))
  let tcp ← E.dictField (getD data "tcp" (.dict []))
  let raw ← E.dictField (.dict data)
  return {
    timestamp := timestamp, flowId := flowId, inIface := inIface, srcIp := srcIp
    srcPort := srcPort, destIp := destIp, destPort := destPort, proto := proto
    appProto := appProto, flow := flow, tcp := tcp, raw := raw }

end EventTypes

/-! ## The loop over the lines -/

/-- What `_trigger_enabled` finds. -/
inductive TriggerRead where
  /-- There is no Redis. -/
  | noRedis
  /-- `get` raised. -/
  | failed
  | value (val : Option PyStr)

/-- `_trigger_enabled`. -/
def triggerEnabled : TriggerRead → Bool
  | .noRedis | .failed | .value none => true
  | .value (some val) => val = u "1" || val = u "true"

/-- A line of the stream, and what the trigger is when it is processed. -/
structure SseLine where
  line : PyStr
  trigger : TriggerRead

/-- The calls for one line. -/
inductive ConsumeCall (Obj : Type) where
  | pushFlow (data : Items Obj)
  /-- `FlowWindow.push`. -/
  | windowPush (flow : SuricataFlowEvent Obj)
  | pushViolation (data : Items Obj)
  | onAlert (alert : SuricataAlert Obj)

/-- What leaves `_consume`. -/
inductive ConsumeError where
  /-- An error of `json.loads` that is no `JSONDecodeError`. -/
  | loads
  /-- A value that is no dict has no `get`. -/
  | attribute
  /-- The type of the message cannot be looked up in `_HANDSHAKE_TYPES`. -/
  | unhashable
  /-- The alert is not valid. -/
  | validation
  /-- `alert.signature_id`, which an alert does not have. -/
  | signatureId
  deriving DecidableEq

/-- The JSON text of a data line that has one. -/
def payloadOf (line : PyStr) : Option PyStr :=
  if (u "data: ").isPrefixOf line then
    let payload := strip (line.drop 6)
    if payload = [] then none else some payload
  else none

/-- `data.get("type") in _HANDSHAKE_TYPES`, with `none` for a `TypeError`. -/
def isHandshake (data : Items Obj) : Option Bool :=
  match getItem (u "type") data with
  | some (.str s) => some (s = u "connected" || s = u "heartbeat")
  | some (.seq _ _) | some (.dict _) | some (.other _) => none
  | _ => some false

/-- `data.get("event_type") == "flow"`. -/
def isFlow (data : Items Obj) : Bool :=
  match getItem (u "event_type") data with
  | some (.str s) => s = u "flow"
  | _ => false

variable (E : EventTypes Obj)

/-- The calls for a flow event. -/
def flowCalls (data : Items Obj) : List (ConsumeCall Obj) :=
  .pushFlow data :: (E.flowFromRaw data).toList.map .windowPush

/-- The body of the loop, for a dict: the calls, and the exception, if there is one. -/
def consumeDict (trigger : TriggerRead) (data : Items Obj) :
    List (ConsumeCall Obj) × Option ConsumeError :=
  match isHandshake data with
  | none => ([], some .unhashable)
  | some true => ([], none)
  | some false =>
    if isFlow data then (flowCalls E data, none)
    else if hasKey data "alert" && hasKey data "src_ip" then
      match E.alertFromRaw data with
      | none => ([.pushViolation data], some .validation)
      | some alert =>
        if triggerEnabled trigger then ([.pushViolation data, .onAlert alert], none)
        else ([.pushViolation data], some .signatureId)
    else ([], none)

/-- The body of the loop. -/
def consumeLine (l : SseLine) : List (ConsumeCall Obj) × Option ConsumeError :=
  match payloadOf l.line with
  | none => ([], none)
  | some payload =>
    match E.loads payload with
    | .error .decode => ([], none)
    | .error _ => ([], some .loads)
    | .ok (.dict data) => consumeDict E l.trigger data
    | .ok _ => ([], some .attribute)

/-- `_consume`, over the lines that come while the consumer runs. -/
def consume : List SseLine → List (ConsumeCall Obj) × Option ConsumeError
  | [] => ([], none)
  | l :: rest =>
    match consumeLine E l with
    | (calls, some e) => (calls, some e)
    | (calls, none) => (calls ++ (consume rest).1, (consume rest).2)

/-! ## What the loop should do -/

/-- What was mirrored to the events store as a violation. -/
def mirrored (calls : List (ConsumeCall Obj)) : List (Items Obj) :=
  calls.filterMap fun c => match c with | .pushViolation data => some data | _ => none

/-- What was passed to `on_alert`. -/
def passed (calls : List (ConsumeCall Obj)) : List (SuricataAlert Obj) :=
  calls.filterMap fun c => match c with | .onAlert alert => some alert | _ => none

/-- An object has the fields of an alert. -/
def Fields (data : Items Obj) : Prop := hasKey data "alert" = true ∧ hasKey data "src_ip" = true

instance (data : Items Obj) : Decidable (Fields data) :=
  inferInstanceAs (Decidable (_ ∧ _))

/-- The object with the fields of an alert that a line carries. -/
def carried (l : SseLine) : Option (Items Obj) :=
  match (payloadOf l.line).map E.loads with
  | some (.ok (.dict data)) => if Fields data then some data else none
  | _ => none

/-- The lines are processed: no exception leaves the loop, each object with the fields of an alert
is mirrored once, and those that come while the trigger is enabled are passed on as alerts. -/
def Processes (lines : List SseLine) : Prop :=
  (consume E lines).2 = none ∧
  mirrored (consume E lines).1 = lines.filterMap (carried E) ∧
  (passed (consume E lines).1).map some =
    ((lines.filter fun l => triggerEnabled l.trigger).filterMap (carried E)).map E.alertFromRaw

/-- A line that carries JSON carries a text that can be read or fails with a `JSONDecodeError`, and
an object whose type is no list or object; with the fields of an alert, it is no handshake, no flow
event and a valid alert, and comes while the trigger is enabled. -/
def Fine (l : SseLine) : Prop :=
  ∀ payload, payloadOf l.line = some payload →
    E.loads payload = .error .decode ∨
    ∃ data, E.loads payload = .ok (.dict data) ∧ isHandshake data ≠ none ∧
      (Fields data → isHandshake data = some false ∧ isFlow data = false ∧
        (E.alertFromRaw data).isSome = true ∧ triggerEnabled l.trigger = true)

variable {E}

theorem carried_of_dict {l : SseLine} {payload : PyStr} {data : Items Obj}
    (hpayload : payloadOf l.line = some payload) (hdata : E.loads payload = .ok (.dict data)) :
    carried E l = if Fields data then some data else none := by
  unfold carried
  rw [hpayload, Option.map_some, hdata]

/-- An object is mirrored when it gets as far as its fields. -/
theorem mirrored_consumeDict (trigger : TriggerRead) (data : Items Obj) :
    mirrored (consumeDict E trigger data).1 =
      if isHandshake data = some false ∧ isFlow data = false ∧ Fields data then [data] else [] := by
  unfold consumeDict Fields
  cases hhand : isHandshake data with
  | none => simp [mirrored]
  | some b =>
    cases b with
    | true => simp [mirrored]
    | false =>
      cases hflow : isFlow data with
      | true =>
        cases hevent : E.flowFromRaw data <;> simp [mirrored, flowCalls, hevent]
      | false =>
        by_cases hfields : hasKey data "alert" = true ∧ hasKey data "src_ip" = true
        · cases halert : E.alertFromRaw data with
          | none => simp [mirrored, hfields]
          | some alert => cases triggerEnabled trigger <;> simp [mirrored, hfields]
        · have hno : (hasKey data "alert" && hasKey data "src_ip") = false := by
            rw [Bool.eq_false_iff]
            simpa using hfields
          simp [mirrored, hfields, hno]

/-- A line that is not fine raises, or is not mirrored although it carries an alert. -/
theorem of_not_fine {l : SseLine} (h : ¬ Fine E l) :
    (consumeLine E l).2 ≠ none ∨
      mirrored (consumeLine E l).1 = [] ∧ (carried E l).isSome = true := by
  unfold Fine at h
  push Not at h
  obtain ⟨payload, hpayload, hdecode, hdict⟩ := h
  unfold consumeLine
  rw [hpayload]
  cases hloads : E.loads payload with
  | error e =>
    cases e with
    | decode => exact absurd hloads hdecode
    | digits => simp [hloads]
    | depth => simp [hloads]
    | fuel => simp [hloads]
  | ok v =>
    cases v with
    | dict data =>
      simp only [hloads]
      by_cases hhand : isHandshake data = none
      · left
        simp [consumeDict, hhand]
      obtain ⟨hfields, hrest⟩ := hdict data hloads hhand
      obtain ⟨halert, hsrc⟩ := id hfields
      by_cases hgoes : isHandshake data = some false ∧ isFlow data = false
      · left
        obtain ⟨hno, hflow⟩ := hgoes
        have hrest' := hrest hno hflow
        cases hraw : E.alertFromRaw data with
        | none => simp [consumeDict, hno, hflow, halert, hsrc, hraw]
        | some alert =>
          have hoff : triggerEnabled l.trigger = false := by
            simpa [hraw] using hrest'
          simp [consumeDict, hno, hflow, halert, hsrc, hraw, hoff]
      · right
        rw [mirrored_consumeDict, if_neg fun hall => hgoes ⟨hall.1, hall.2.1⟩,
          carried_of_dict hpayload hloads, if_pos hfields]
        exact ⟨rfl, rfl⟩
    | none => simp [hloads]
    | bool b => simp [hloads]
    | int n => simp [hloads]
    | float x => simp [hloads]
    | str s => simp [hloads]
    | seq frozen xs => simp [hloads]
    | other o => simp [hloads]

/-- What happens with a line that is fine. -/
theorem of_fine {l : SseLine} (h : Fine E l) :
    (consumeLine E l).2 = none ∧ mirrored (consumeLine E l).1 = (carried E l).toList ∧
      (passed (consumeLine E l).1).map some = (carried E l).toList.map E.alertFromRaw ∧
      ((carried E l).isSome = true → triggerEnabled l.trigger = true) := by
  unfold consumeLine
  cases hpayload : payloadOf l.line with
  | none => simp [carried, hpayload, mirrored, passed]
  | some payload =>
    rcases h payload hpayload with hdecode | ⟨data, hdata, hhand, hfine⟩
    · simp [carried, hpayload, hdecode, mirrored, passed]
    · rw [carried_of_dict hpayload hdata]
      simp only [hdata]
      rw [mirrored_consumeDict]
      by_cases hfields : Fields data
      · obtain ⟨hno, hflow, hraw, hon⟩ := hfine hfields
        obtain ⟨alert, halert⟩ := Option.isSome_iff_exists.mp hraw
        obtain ⟨hkey, hsrc⟩ := id hfields
        simp [consumeDict, hno, hflow, hfields, hkey, hsrc, halert, hon, passed]
      · have hkeys : (hasKey data "alert" && hasKey data "src_ip") = false := by
          rw [Bool.eq_false_iff]
          simpa [Fields] using hfields
        obtain ⟨b, hb⟩ := Option.ne_none_iff_exists'.mp hhand
        cases b with
        | true => simp [consumeDict, hb, hfields, passed]
        | false =>
          cases hflow : isFlow data with
          | true =>
            cases hevent : E.flowFromRaw data <;>
              simp [consumeDict, hb, hflow, hfields, passed, flowCalls, hevent]
          | false => simp [consumeDict, hb, hflow, hkeys, hfields, passed]

theorem mirrored_append (calls more : List (ConsumeCall Obj)) :
    mirrored (calls ++ more) = mirrored calls ++ mirrored more := List.filterMap_append

theorem passed_append (calls more : List (ConsumeCall Obj)) :
    passed (calls ++ more) = passed calls ++ passed more := List.filterMap_append

/-- After a line that does not raise the loop goes on. -/
theorem consume_cons {l : SseLine} {lines : List SseLine} (h : (consumeLine E l).2 = none) :
    consume E (l :: lines) =
      ((consumeLine E l).1 ++ (consume E lines).1, (consume E lines).2) := by
  rw [consume]
  split
  · rename_i calls e heq
    rw [heq] at h
    exact absurd h (by simp)
  · rename_i calls heq
    rw [heq]

/-- A line that raises ends the loop. -/
theorem consume_cons_of_raise {l : SseLine} {lines : List SseLine}
    (h : (consumeLine E l).2 ≠ none) : (consume E (l :: lines)).2 ≠ none := by
  rw [consume]
  split
  · simp
  · rename_i calls heq
    rw [heq] at h
    exact absurd rfl h

/-- No more is mirrored than comes in. -/
theorem length_mirrored_consume_le {lines : List SseLine} (h : (consume E lines).2 = none) :
    (mirrored (consume E lines).1).length ≤ (lines.filterMap (carried E)).length := by
  induction lines with
  | nil => simp [consume, mirrored]
  | cons l lines ih =>
    have hl : (consumeLine E l).2 = none := by
      by_contra hraise
      exact consume_cons_of_raise hraise h
    rw [consume_cons hl] at h ⊢
    have hrest := ih h
    have hfirst : (mirrored (consumeLine E l).1).length ≤ (carried E l).toList.length := by
      by_cases hfine : Fine E l
      · rw [(of_fine hfine).2.1]
      · rcases of_not_fine hfine with hraise | ⟨hnil, -⟩
        · exact absurd hl hraise
        · rw [hnil]
          exact Nat.zero_le _
    rw [mirrored_append, List.length_append]
    cases hc : carried E l with
    | none =>
      rw [hc] at hfirst
      rw [List.filterMap_cons_none hc]
      simp only [Option.toList_none, List.length_nil] at hfirst
      omega
    | some data =>
      rw [hc] at hfirst
      rw [List.filterMap_cons_some hc]
      simp only [Option.toList_some, List.length_cons, List.length_nil] at hfirst ⊢
      omega

/-- The first line is fine, and the others are processed. -/
theorem processes_cons {l : SseLine} {lines : List SseLine} :
    Processes E (l :: lines) ↔ Fine E l ∧ Processes E lines := by
  constructor
  · rintro ⟨hnone, hmirrored, hpassed⟩
    have hl : (consumeLine E l).2 = none := by
      by_contra hraise
      exact consume_cons_of_raise hraise hnone
    rw [consume_cons hl] at hnone hmirrored hpassed
    have hfine : Fine E l := by
      by_contra hnot
      rcases of_not_fine hnot with hraise | ⟨hnil, hcarried⟩
      · exact hraise hl
      · -- what this line carries is missing, and the others give no more than they carry
        obtain ⟨data, hdata⟩ := Option.isSome_iff_exists.mp hcarried
        have hle := length_mirrored_consume_le hnone
        have hlen := congrArg List.length hmirrored
        rw [mirrored_append, hnil, List.nil_append, List.filterMap_cons_some hdata,
          List.length_cons] at hlen
        omega
    obtain ⟨-, hm, hp, hon⟩ := of_fine hfine
    refine ⟨hfine, hnone, ?_, ?_⟩
    · rw [mirrored_append, hm] at hmirrored
      cases hc : carried E l with
      | none => simpa [hc] using hmirrored
      | some data => simpa [hc] using hmirrored
    · rw [passed_append, List.map_append, hp] at hpassed
      cases hc : carried E l with
      | none =>
        by_cases hen : triggerEnabled l.trigger = true
        · simpa [hc, hen] using hpassed
        · simpa [hc, hen] using hpassed
      | some data =>
        have hen := hon (by rw [hc]; rfl)
        simpa [hc, hen] using hpassed
  · rintro ⟨hfine, hnone, hmirrored, hpassed⟩
    obtain ⟨hl, hm, hp, hon⟩ := of_fine hfine
    unfold Processes
    rw [consume_cons hl]
    refine ⟨hnone, ?_, ?_⟩
    · rw [mirrored_append, hm, hmirrored]
      cases hc : carried E l with
      | none => simp [hc]
      | some data => simp [hc]
    · rw [passed_append, List.map_append, hp, hpassed]
      cases hc : carried E l with
      | none =>
        by_cases hen : triggerEnabled l.trigger = true
        · simp [hc, hen]
        · simp [hen]
      | some data =>
        have hen := hon (by rw [hc]; rfl)
        simp [hc, hen]

/-- The lines are processed exactly when each of them is fine. -/
theorem processes_iff {lines : List SseLine} : Processes E lines ↔ ∀ l ∈ lines, Fine E l := by
  induction lines with
  | nil => simp [Processes, consume, mirrored, passed]
  | cons l lines ih => rw [processes_cons, ih, List.forall_mem_cons]

/-- An interpreter for concrete runs, with fields of type `str` and `dict` that take values of their
own type. -/
def plainTypes : EventTypes PyStr where
  toInterp := textInterp
  fmt
    | .str s => s
    | .int n => intText n
    | .none => u "None"
    | .bool b => if b then u "True" else u "False"
    | _ => []
  toInt
    | .int n => some n
    | _ => none
  strField
    | .str s => some s
    | _ => none
  intField
    | .int n => some n
    | _ => none
  dictField
    | .dict items => some items
    | _ => none

/-- An alert. -/
def alertLine : PyStr :=
  u "data: \x7b\"src_ip\": \"10.1.100.5\", \"alert\": \x7b\"signature_id\": 9000001\x7d\x7d"

/-- An alert that comes while the trigger is disabled drops the connection: it is not skipped, and
the alert after it is lost. -/
theorem exists_not_processed :
    ∃ lines : List SseLine, ¬ Processes plainTypes lines ∧
      (consume plainTypes lines).2 = some .signatureId := by
  have hraise : (consume plainTypes
      [⟨alertLine, .value (some (u "0"))⟩, ⟨alertLine, .value (some (u "1"))⟩]).2 =
        some .signatureId := by
    decide +kernel
  refine ⟨_, fun h => ?_, hraise⟩
  exact absurd (hraise.symm.trans h.1) (by simp)

end ControlPlane.Stream
