import ControlPlane.Intel.Gate
import ControlPlane.Secure.AgentSource

/-!
# The rule that arrives at the leaf

A rule of the agent passes three programs before the gNMI Set: the backend writes it as a JSON body,
the IDS agent decodes and encodes the body with its source forced, and the REST front-end of the
Secure Framework reads it again. `Arrives` is that chain, for one rule and one payload, and
`arrives_data` says what the payload is made of.

The IDS agent holds every number as a double, and the front-end takes a field that holds zero for a
field that is not there. `Reads` is what a number of the rule can be after both.
-/

namespace ControlPlane.Intel

open Text Secure

/-! ## The chain -/

/-- What decoding and encoding makes of a value in the IDS agent, where it is done by the JSON
package of its language: a text is kept, an integer is kept as long as a double holds it exactly,
and a larger one becomes the double next to it, or is refused. -/
structure Transcodes (go : Json → Option Json) : Prop where
  /-- A text is kept. -/
  str : ∀ s, go (.str s) = some (.str s)
  /-- So is an integer that every double of its size holds. -/
  int : ∀ n : ℤ, |n| ≤ 2^53 → go (.int n) = some (.int n)
  /-- A larger one stays that large. As a float it is not written with digits alone. -/
  large : ∀ (n : ℤ) (v : Json), 2^53 < |n| → go (.int n) = some v →
    (∃ m : ℤ, v = .int m ∧ 2^53 ≤ |m|) ∨
      ∃ (q : ℚ) (repr : String), v = .float ⟨.fin q, repr⟩ ∧ 2^53 ≤ |q| ∧
        ∃ c ∈ repr.toList, isDigit c = false

/-- The body that the IDS agent forwards for a rule, when it can decode the one that it gets. -/
def forwardedRule (go : Json → Option Json) (rule : PolicyRule) : Option Json :=
  if (proxyPayload rule).all fun f => (go f.2).isSome then
    forwardedBody (fun v => (go v).getD v) (.obj (proxyPayload rule))
  else none

/-- The payload is what a gNMI Set carries for the rule. -/
def Arrives (go : Json → Option Json) (sf : SfConfig) (rule : PolicyRule)
    (payload : List (String × Json)) : Prop :=
  ∃ body h r client path answer, forwardedRule go rule = some body ∧
    Prog.Runs (handlePostRule sf body ()) h r ∧
    ⟨.gnmiUpdate client path payload, answer⟩ ∈ h

/-! ## Numbers -/

/-- What is read for a number of the rule, in a field with the given default. -/
def Reads (n default m : ℤ) : Prop :=
  m = (if n = 0 then default else n) ∨ (2^53 < |n| ∧ 2^53 ≤ |m|)

/-- A range of small numbers does not see the difference. -/
theorem Reads.mem_iff {n default m : ℤ} (h : Reads n default m) {lo hi : ℤ} (hlo : -2^53 < lo)
    (hhi : hi < 2^53) :
    (lo ≤ m ∧ m ≤ hi) ↔
      lo ≤ (if n = 0 then default else n) ∧ (if n = 0 then default else n) ≤ hi := by
  obtain rfl | ⟨hn, hm⟩ := h
  · exact Iff.rfl
  · have hne : n ≠ 0 := by
      rintro rfl
      norm_num at hn
    rw [if_neg hne]
    rw [lt_abs] at hn
    rw [le_abs] at hm
    constructor
    · rintro ⟨h1, h2⟩
      omega
    · rintro ⟨h1, h2⟩
      omega

/-- Cutting off at the point keeps a number large. -/
theorem le_abs_trunc {q : ℚ} (h : 2^53 ≤ |q|) : 2^53 ≤ |Json.trunc q| := by
  unfold Json.trunc
  split_ifs with hq
  · rw [abs_of_nonneg hq] at h
    have hle : (2^53 : ℤ) ≤ q.floor := Rat.le_floor_iff.mpr (by exact_mod_cast h)
    rw [abs_of_nonneg (by omega)]
    exact hle
  · push Not at hq
    rw [abs_of_neg hq] at h
    have hle : (2^53 : ℤ) ≤ (-q).floor := Rat.le_floor_iff.mpr (by exact_mod_cast h)
    rw [abs_neg, abs_of_nonneg (by omega)]
    exact hle

section

variable {go : Json → Option Json} {rule : PolicyRule}

/-- A number is zero after the IDS agent exactly when it was before. -/
theorem Transcodes.truthy (hgo : Transcodes go) {n : ℤ} {v : Json} (hv : go (.int n) = some v) :
    v.truthy = true ↔ n ≠ 0 := by
  by_cases hn : |n| ≤ 2^53
  · rw [hgo.int n hn, Option.some.injEq] at hv
    rw [← hv]
    simp [Json.truthy]
  · push Not at hn
    have hn0 : n ≠ 0 := by
      rintro rfl
      norm_num at hn
    obtain ⟨k, rfl, hk⟩ | ⟨q, repr, rfl, hq, -⟩ := hgo.large n v hn hv
    · have hk0 : k ≠ 0 := by
        rintro rfl
        norm_num at hk
      simp [Json.truthy, hk0, hn0]
    · have hq0 : q ≠ 0 := by
        rintro rfl
        norm_num at hq
      simp [Json.truthy, hq0, hn0]

/-- What is read for a number that passed the IDS agent. -/
theorem Transcodes.reads (hgo : Transcodes go) {T : PyText} {n default m : ℤ} {v : Json}
    (hv : go (.int n) = some v)
    (hm : (if v.truthy then v else .int default).intOf T = .ok m) : Reads n default m := by
  have htruthy := hgo.truthy hv
  by_cases h0 : n = 0
  · rw [if_neg (by simp [htruthy, h0]), Json.intOf, Except.ok.injEq] at hm
    left
    rw [if_pos h0, hm]
  rw [if_pos (htruthy.mpr h0)] at hm
  by_cases hn : |n| ≤ 2^53
  · rw [hgo.int n hn, Option.some.injEq] at hv
    rw [← hv, Json.intOf, Except.ok.injEq] at hm
    left
    rw [if_neg h0, hm]
  · push Not at hn
    right
    obtain ⟨k, rfl, hk⟩ | ⟨q, repr, rfl, hq, -⟩ := hgo.large n v hn hv
    · rw [Json.intOf, Except.ok.injEq] at hm
      exact ⟨hn, hm ▸ hk⟩
    · rw [Json.intOf, Except.ok.injEq] at hm
      exact ⟨hn, hm ▸ le_abs_trunc hq⟩

/-! ## Fields -/

/-- The fields of the body that the IDS agent forwards. -/
def forwardedFields (go : Json → Option Json) (rule : PolicyRule) : List (String × Json) :=
  Json.setKey "source" (.str "agent")
    ((proxyPayload rule).map fun f => (f.1, (go f.2).getD f.2))

/-- Only the source is forced; the other fields are those of the backend's body. -/
theorem lookup_forwardedFields {key : String} (hkey : key ≠ "source") :
    Json.lookup key (forwardedFields go rule) =
      (Json.lookup key (proxyPayload rule)).map fun v => (go v).getD v := by
  unfold forwardedFields
  rw [Json.lookup_setKey_of_ne _ _ hkey]
  induction proxyPayload rule with
  | nil => rfl
  | cons f rest ih =>
    unfold Json.lookup at ih ⊢
    rw [List.map_cons, List.lookup_cons, List.lookup_cons]
    cases key == f.1 with
    | true => rfl
    | false => exact ih

/-- A field with one spelling. -/
theorem pick_one (fields : List (String × Json)) (key : String) :
    pick fields [key] = (Json.lookup key fields).filter Json.truthy := by
  unfold pick
  rw [List.findSome?_cons, List.findSome?_nil]
  cases (Json.lookup key fields).filter Json.truthy with
  | none => rfl
  | some v => rfl

/-- A field with a second spelling that the body does not have. -/
theorem pick_two {fields : List (String × Json)} {key key' : String}
    (h : Json.lookup key' fields = none) :
    pick fields [key, key'] = (Json.lookup key fields).filter Json.truthy := by
  rw [← pick_one]
  unfold pick
  rw [List.findSome?_cons, List.findSome?_cons, List.findSome?_cons, h]
  rfl

/-- The data that the REST front-end builds for a rule. -/
def arrivingData (py : Py) (go : Json → Option Json) (rule : PolicyRule) (action : String)
    (priority ttlSeconds : ℤ) : List (String × Json) :=
  let dstPort := Json.int rule.dstPort
  [("rule-id", .str rule.ruleId), ("action", .str action), ("src-ip", .str (pushedSrc rule.srcIp)),
    ("dst-ip", .str (pushedDst rule.dstIp)),
    ("protocol", .str (py.lower (if rule.protocol = "" then "all" else rule.protocol))),
    ("src-port", .str (py.fmt (.str ""))),
    ("dst-port", .str (py.fmt (if rule.dstPort = 0 then .str "" else (go dstPort).getD dstPort))),
    ("priority", .int priority), ("source", .str (py.lower "agent")),
    ("comment", .str rule.comment), ("ttl-seconds", .int ttlSeconds)]

/-- A number of the rule, as the front-end reads it. -/
theorem reads_of_pick (hgo : Transcodes go) {T : PyText} {key : String} {n default m : ℤ} {v : Json}
    (hkey : Json.lookup key (forwardedFields go rule) = some ((go (.int n)).getD (.int n)))
    (hv : go (.int n) = some v)
    (hm : (((Json.lookup key (forwardedFields go rule)).filter Json.truthy).getD
      (.int default)).intOf T = .ok m) : Reads n default m := by
  rw [hkey, hv, Option.getD_some, Option.filter_some] at hm
  refine hgo.reads hv (T := T) ?_
  rw [← hm]
  cases v.truthy with
  | true => rfl
  | false => rfl

/-- The fields that every body of the backend has, and some that none has. -/
theorem lookup_proxyPayload (rule : PolicyRule) :
    Json.lookup "rule_id" (proxyPayload rule) = some (.str rule.ruleId) ∧
      Json.lookup "src_ip" (proxyPayload rule) = some (.str (pushedSrc rule.srcIp)) ∧
      Json.lookup "priority" (proxyPayload rule) = some (.int rule.priority) ∧
      Json.lookup "comment" (proxyPayload rule) = some (.str rule.comment) ∧
      Json.lookup "ttl_seconds" (proxyPayload rule) = some (.int rule.ttlSeconds) ∧
      ∀ key ∈ ["rule-id", "src-ip", "dst-ip", "src_port", "src-port", "dst-port", "ttl-seconds"],
        Json.lookup key (proxyPayload rule) = none := by
  refine ⟨rfl, rfl, rfl, rfl, rfl, fun key hkey => ?_⟩
  unfold Json.lookup proxyPayload
  simp only [List.mem_cons, List.not_mem_nil, or_false] at hkey
  rcases hkey with rfl | rfl | rfl | rfl | rfl | rfl | rfl
  all_goals split_ifs <;> simp [List.lookup_cons]

/-- The fields that a body of the backend has when they hold something. -/
theorem lookup_optional_proxyPayload (rule : PolicyRule) :
    Json.lookup "dst_ip" (proxyPayload rule) =
        (if pushedDst rule.dstIp = "" then none else some (.str (pushedDst rule.dstIp))) ∧
      Json.lookup "dst_port" (proxyPayload rule) =
        (if rule.dstPort = 0 then none else some (.int rule.dstPort)) ∧
      Json.lookup "protocol" (proxyPayload rule) =
        (if rule.protocol = "" then none else some (.str rule.protocol)) := by
  unfold proxyPayload Json.lookup
  refine ⟨?_, ?_, ?_⟩
  all_goals split_ifs <;> simp_all [List.lookup_cons]

/-- A field that is found is one of the items. -/
theorem mem_of_lookup {key : String} {v : Json} {fields : List (String × Json)}
    (h : Json.lookup key fields = some v) : (key, v) ∈ fields := by
  obtain ⟨l₁, l₂, rfl, -⟩ := List.lookup_eq_some_iff.mp h
  simp

/-- A text of the body that holds something, or the empty text. -/
theorem orEmpty_filter (s : String) :
    orEmpty ((some (Json.str s)).filter Json.truthy) = .str s := by
  unfold orEmpty
  rw [Option.filter_some, Json.truthy]
  by_cases hs : s = ""
  · simp [hs]
  · simp [hs]

/-- A method of a text of the body, or of the default for the empty one. -/
theorem textMethod_filter (name : String) (f : String → String) (s default : String) :
    textMethod name f ((some (Json.str s)).filter Json.truthy) default =
      .ok (f (if s = "" then default else s)) := by
  rw [Option.filter_some, Json.truthy]
  by_cases hs : s = ""
  · simp [hs, textMethod]
  · simp [hs, textMethod]

/-- What the front-end builds from the forwarded fields. -/
theorem restRuleData_forwardedFields (hgo : Transcodes go) {py : Py} {action : String}
    {data : List (String × Json)} (hdecoded : ∀ f ∈ proxyPayload rule, ∃ v, go f.2 = some v)
    (hd : restRuleData py (.str rule.ruleId) action (forwardedFields go rule) = .ok data) :
    ∃ priority ttlSeconds, Reads rule.priority 1000 priority ∧ Reads rule.ttlSeconds 0 ttlSeconds ∧
      data = arrivingData py go rule action priority ttlSeconds := by
  obtain ⟨-, hsrc, hprio, hcomment, httl, hnone⟩ := lookup_proxyPayload rule
  obtain ⟨hdst, hport, hproto⟩ := lookup_optional_proxyPayload rule
  have hmissing : ∀ key ∈ ["rule-id", "src-ip", "dst-ip", "src_port", "src-port", "dst-port",
      "ttl-seconds"], Json.lookup key (forwardedFields go rule) = none := by
    intro key hkey
    rw [lookup_forwardedFields (by rintro rfl; simp at hkey), hnone key hkey]
    rfl
  unfold restRuleData at hd
  obtain ⟨protocol, hprotocol, hd⟩ := except_bind_eq_ok hd
  obtain ⟨priority, hpriority, hd⟩ := except_bind_eq_ok hd
  obtain ⟨source, hsource, hd⟩ := except_bind_eq_ok hd
  obtain ⟨ttlSeconds, hseconds, hd⟩ := except_bind_eq_ok hd
  simp only [pure, Except.pure, Except.ok.injEq] at hd
  refine ⟨priority, ttlSeconds, ?_, ?_, ?_⟩
  · obtain ⟨v, hv⟩ := hdecoded _ (mem_of_lookup hprio)
    rw [pick_one] at hpriority
    refine reads_of_pick hgo ?_ hv hpriority
    rw [lookup_forwardedFields (by decide), hprio]
    rfl
  · obtain ⟨v, hv⟩ := hdecoded _ (mem_of_lookup httl)
    rw [pick_two (hmissing _ (by simp))] at hseconds
    refine reads_of_pick hgo ?_ hv hseconds
    rw [lookup_forwardedFields (by decide), httl]
    rfl
  -- The texts of the data, in the order of its fields.
  have hprotocol' : protocol = py.lower (if rule.protocol = "" then "all" else rule.protocol) := by
    rw [pick_one, lookup_forwardedFields (by decide), hproto] at hprotocol
    split_ifs at hprotocol ⊢ with h0
    · exact (Except.ok.inj hprotocol).symm
    · rw [Option.map_some, hgo.str, Option.getD_some, textMethod_filter, if_neg h0] at hprotocol
      exact (Except.ok.inj hprotocol).symm
  have hsource' : source = py.lower "agent" := by
    rw [pick_one, forwardedFields, Json.lookup_setKey, textMethod_filter] at hsource
    exact (Except.ok.inj hsource).symm
  have hsrc' : orEmpty (pick (forwardedFields go rule) ["src_ip", "src-ip"]) =
      .str (pushedSrc rule.srcIp) := by
    rw [pick_two (hmissing _ (by simp)), lookup_forwardedFields (by decide), hsrc, Option.map_some,
      hgo.str, Option.getD_some, orEmpty_filter]
  have hdst' : orEmpty (pick (forwardedFields go rule) ["dst_ip", "dst-ip"]) =
      .str (pushedDst rule.dstIp) := by
    rw [pick_two (hmissing _ (by simp)), lookup_forwardedFields (by decide), hdst]
    split_ifs with h0
    · rw [h0]
      rfl
    · rw [Option.map_some, hgo.str, Option.getD_some, orEmpty_filter]
  have hsrcPort : orEmpty (pick (forwardedFields go rule) ["src_port", "src-port"]) = .str "" := by
    rw [pick_two (hmissing _ (by simp)), hmissing _ (by simp)]
    rfl
  have hdstPort : orEmpty (pick (forwardedFields go rule) ["dst_port", "dst-port"]) =
      if rule.dstPort = 0 then .str "" else (go (.int rule.dstPort)).getD (.int rule.dstPort) := by
    rw [pick_two (hmissing _ (by simp)), lookup_forwardedFields (by decide), hport]
    split_ifs with h0
    · rfl
    · obtain ⟨v, hv⟩ := hdecoded _ (mem_of_lookup (hport.trans (if_neg h0)))
      rw [Option.map_some, hv, Option.getD_some, Option.filter_some, (hgo.truthy hv).mpr h0]
      rfl
  have hcomment' : orEmpty (pick (forwardedFields go rule) ["comment"]) = .str rule.comment := by
    rw [pick_one, lookup_forwardedFields (by decide), hcomment, Option.map_some, hgo.str,
      Option.getD_some, orEmpty_filter]
  rw [← hd, hprotocol', hsource', hsrc', hdst', hsrcPort, hdstPort, hcomment']
  rfl

/-- Every field of a rule that arrives could be decoded. -/
theorem decoded_of_forwardedRule {body : Json} (h : forwardedRule go rule = some body) :
    body = .obj (forwardedFields go rule) ∧ ∀ f ∈ proxyPayload rule, ∃ v, go f.2 = some v := by
  unfold forwardedRule at h
  split_ifs at h with hall
  refine ⟨?_, fun f hf => Option.isSome_iff_exists.mp (List.all_eq_true.mp hall f hf)⟩
  simpa [forwardedBody, forwardedFields, eq_comm] using h

/-- A port of a rule that arrives could be decoded. -/
theorem exists_of_arrives {sf : SfConfig} {payload : List (String × Json)}
    (h : Arrives go sf rule payload) (hport : rule.dstPort ≠ 0) :
    ∃ v, go (.int rule.dstPort) = some v := by
  obtain ⟨body, _, _, _, _, _, hbody, -, -⟩ := h
  obtain ⟨-, hdecoded⟩ := decoded_of_forwardedRule hbody
  have hlookup := (lookup_optional_proxyPayload rule).2.1
  rw [if_neg hport] at hlookup
  exact hdecoded _ (mem_of_lookup hlookup)

/-- What arrives for a rule: its texts, and its numbers as they are read. -/
theorem arrives_data (hgo : Transcodes go) {sf : SfConfig} {payload : List (String × Json)}
    (h : Arrives go sf rule payload) :
    ∃ action priority ttlSeconds, action ∈ VALID_ACTIONS ∧ rule.ruleId ≠ "" ∧
      Reads rule.priority 1000 priority ∧ Reads rule.ttlSeconds 0 ttlSeconds ∧
      payload = clean (arrivingData sf.py go rule action priority ttlSeconds) := by
  obtain ⟨body, h, r, client, path, answer, hbody, hrun, hmem⟩ := h
  obtain ⟨fields, ruleId, action, data, rfl, hp, -, rfl⟩ := exists_pushes_of_update hrun hmem
  obtain ⟨heq, hdecoded⟩ := decoded_of_forwardedRule hbody
  rw [Json.obj.injEq] at heq
  subst heq
  have hid := hp.ruleId_eq
  obtain ⟨hruleId, -, -, -, -, hnone⟩ := lookup_proxyPayload rule
  rw [pick_two (by rw [lookup_forwardedFields (by decide), hnone _ (by simp)]; rfl),
    lookup_forwardedFields (by decide), hruleId, Option.map_some, hgo.str, Option.getD_some,
    Option.filter_some, Option.ite_none_right_eq_some, Option.some.injEq] at hid
  obtain ⟨hne, rfl⟩ := hid
  obtain ⟨priority, ttlSeconds, hprio, httl, rfl⟩ :=
    restRuleData_forwardedFields hgo hdecoded hp.read
  exact ⟨action, priority, ttlSeconds, hp.valid, by simpa [Json.truthy] using hne, hprio, httl, rfl⟩

/-! ## The priority -/

/-- `PRIORITY_DANGER_FLOOR`: from here on a rule is appended, after the default drop. -/
def PRIORITY_DANGER_FLOOR : ℤ := 1000

/-- A payload whose rule is put on top of the chain. -/
def OnTop (payload : List (String × Json)) : Prop :=
  ∃ n : ℤ, Json.lookup "priority" payload = some (.int n) ∧ (1 ≤ n ∧ n ≤ 99) ∧
    n < PRIORITY_DANGER_FLOOR

/-- What is read for the priority is what the payload carries. -/
theorem lookup_priority (py : Py) (action : String) (priority ttlSeconds : ℤ) :
    Json.lookup "priority" (clean (arrivingData py go rule action priority ttlSeconds)) =
      some (.int priority) :=
  lookup_clean rfl rfl

/-- A rule arrives on top exactly when it has a priority from 1 to 99: zero arrives as the default
of the front-end, and everything else as it is, or as large as it was. -/
theorem onTop_iff (hgo : Transcodes go) {sf : SfConfig} {payload : List (String × Json)}
    (h : Arrives go sf rule payload) :
    OnTop payload ↔ 1 ≤ rule.priority ∧ rule.priority ≤ 99 := by
  obtain ⟨action, priority, ttlSeconds, -, -, hprio, -, rfl⟩ := arrives_data hgo h
  have hlo : -2^53 < (1 : ℤ) := by norm_num
  have hhi : (99 : ℤ) < 2^53 := by norm_num
  have hread := hprio.mem_iff hlo hhi
  unfold OnTop PRIORITY_DANGER_FLOOR
  rw [lookup_priority]
  constructor
  · rintro ⟨n, hn, hrange, -⟩
    simp only [Option.some.injEq, Json.int.injEq] at hn
    subst hn
    have hin := hread.mp hrange
    split_ifs at hin with h0
    · omega
    · exact hin
  · intro hrange
    have hin : 1 ≤ priority ∧ priority ≤ 99 := by
      rw [hread, if_neg (by omega)]
      exact hrange
    exact ⟨priority, rfl, hin, by omega⟩

/-- The priority of an intent that the model proposes is the one in its answer. -/
theorem priority_of_proposedIntent {cfg : AgentConfig} {alert : SuricataAlert}
    {fields : List (String × Json)} {notification : UserNotification} {intent : PolicyIntent}
    (h : proposedIntent cfg alert fields notification = .ok intent) :
    ((Json.lookup "priority" fields).getD (.int 50)).intOf cfg.py.toPyText =
      .ok intent.priority := by
  unfold proposedIntent at h
  obtain ⟨raw, hraw, hval⟩ := except_bind_eq_ok h
  unfold proposedFields at hraw
  obtain ⟨dstPort, -, hraw⟩ := except_bind_eq_ok hraw
  obtain ⟨priority, hprio, hraw⟩ := except_bind_eq_ok hraw
  obtain ⟨ttl, -, hraw⟩ := except_bind_eq_ok hraw
  obtain ⟨confidence, -, hraw⟩ := except_bind_eq_ok hraw
  simp only [pure, Except.pure, Except.ok.injEq] at hraw
  have hpriority := PolicyIntent.priority_of_validate hval
  rw [← hraw] at hpriority
  rw [hprio, Except.ok.injEq]
  exact Option.some.inj hpriority

end

/-- Wherever a run of `process` calls the backend, the rule has passed every safety layer; and what
arrives for it at the gNMI Set is on top exactly when its priority is one from 1 to 99. -/
theorem onTop_iff_of_process {go : Json → Option Json} (hgo : Transcodes go) {cfg : AgentConfig}
    {alert : SuricataAlert} {h₁ h₂ : List AgentEvent} {intent : PolicyIntent}
    {a : Except Exc EnforcementResult} {r : Except Exc PolicyDecision}
    (hp : Process cfg alert (h₁ ++ ⟨.enforce intent, a⟩ :: h₂) r) {sf : SfConfig}
    {payload : List (String × Json)} (harr : Arrives go sf intent.toPolicyRule payload) :
    Gate cfg alert h₁ intent ∧
      (OnTop payload ↔ 1 ≤ intent.priority ∧ intent.priority ≤ 99) :=
  ⟨(process_gate hp).2.1 h₁ intent a h₂ rfl, onTop_iff hgo harr⟩

/-! ## A rule with a priority of its own -/

/-- An encoder that keeps every value. -/
theorem transcodes_some : Transcodes some where
  str _ := rfl
  int _ _ := rfl
  large n v hn hv := .inl ⟨n, (Option.some.inj hv).symm, by omega⟩

/-- What the agent calls answers, when the model drops a host with the given fields besides. -/
def answeringOracle (fields : List (String × Json)) : (op : AgentOp) → AgentAns op
  | .chatJson _ _ => .ok (.obj ([("action", .str "DROP"), ("src_ip", .str "10.1.100.10/32"),
      ("ttl_seconds", .int 600), ("confidence", .float ⟨.fin (9 / 10), "0.9"⟩)] ++ fields))
  | op => plainOracle "10.1.100.10/32" "" op

/-- The request for an alert of the host. -/
def answeredRun (fields : List (String × Json)) : List AgentEvent × Except Exc PolicyDecision :=
  sequential plainAgent (plainAlert "10.1.100.10") "" (answeringOracle fields)

/-- The rule that an event passes to the backend. -/
def enforcedRule : AgentEvent → Option PolicyRule
  | ⟨.enforce intent, _⟩ => some intent.toPolicyRule
  | _ => none

deriving instance DecidableEq for UserNotification, PolicyRule

/-- The rule of the host with the given priority. -/
def hostRule (priority : ℤ) : PolicyRule :=
  { dropRule "10.1.100.10/32" "" with
    ruleId := "agent-10.1.100.1", ttlSeconds := 600, priority }

/-- A run that passes a rule to the backend is a request with such a call. -/
theorem exists_process_of_rule {fields : List (String × Json)} {rule : PolicyRule}
    (h : (answeredRun fields).1.findSome? enforcedRule = some rule) :
    ∃ h₁ intent a h₂, intent.toPolicyRule = rule ∧
      Process plainAgent (plainAlert "10.1.100.10") (h₁ ++ ⟨.enforce intent, a⟩ :: h₂)
        (answeredRun fields).2 := by
  obtain ⟨e, he, hrule⟩ := List.exists_of_findSome?_eq_some h
  obtain ⟨h₁, h₂, hsplit⟩ := List.append_of_mem he
  have hp : Process plainAgent (plainAlert "10.1.100.10") (answeredRun fields).1
      (answeredRun fields).2 := process_sequential plainAgent _ "" (answeringOracle fields)
  rw [hsplit] at hp
  unfold enforcedRule at hrule
  split at hrule
  · next intent a => exact ⟨h₁, intent, a, h₂, Option.some.inj hrule, hp⟩
  · simp at hrule

/-- The payload of an update. -/
def updatePayload : SfEvent → Option (List (String × Json))
  | ⟨.gnmiUpdate _ _ payload, _⟩ => some payload
  | _ => none

/-- The calls of the front-end for a rule, when all is well. -/
def arrivingRun (rule : PolicyRule) : List SfEvent :=
  match forwardedRule some rule with
  | some body => (Prog.run (fun _ => sunny none) [] (handlePostRule plainSf body ())).1
  | none => []

/-- What an update of these calls carries arrives. -/
theorem arrives_of_arrivingRun {rule : PolicyRule} {payload : List (String × Json)}
    (h : (arrivingRun rule).findSome? updatePayload = some payload) :
    Arrives some plainSf rule payload := by
  obtain ⟨e, he, hpayload⟩ := List.exists_of_findSome?_eq_some h
  unfold arrivingRun at he
  split at he
  · next body hbody =>
    obtain ⟨hrun, -⟩ := Prog.runs_const (sunny none) (handlePostRule plainSf body ())
    unfold updatePayload at hpayload
    split at hpayload
    · next client path payload' answer =>
      rw [Option.some.injEq] at hpayload
      subst hpayload
      exact ⟨body, _, _, client, path, answer, hbody, hrun, he⟩
    · simp at hpayload
  · simp at he

/-- A rule of the default priority arrives on top. -/
theorem onTop_iff_of_process_default :
    ∃ payload, Arrives some plainSf (hostRule 50) payload ∧ OnTop payload := by
  have hrule : (answeredRun []).1.findSome? enforcedRule = some (hostRule 50) := by
    decide +kernel
  obtain ⟨h₁, intent, a, h₂, heq, hp⟩ := exists_process_of_rule hrule
  have hsome : ((arrivingRun (hostRule 50)).findSome? updatePayload).isSome = true := by
    decide +kernel
  obtain ⟨payload, hpayload⟩ := Option.isSome_iff_exists.mp hsome
  have harr := arrives_of_arrivingRun hpayload
  refine ⟨payload, harr, ?_⟩
  rw [← heq] at harr
  have hiff := (onTop_iff_of_process transcodes_some hp harr).2
  rw [hiff, show intent.priority = (hostRule 50).priority by rw [← heq]]
  decide

/-- When the model answers with the priority zero, its rule arrives with the priority of the
front-end's default, and is appended after the default drop. -/
theorem exists_process_not_onTop :
    ¬ ∀ (go : Json → Option Json), Transcodes go → ∀ (cfg : AgentConfig) (alert : SuricataAlert)
      (h₁ h₂ : List AgentEvent) (intent : PolicyIntent) (a : Except Exc EnforcementResult)
      (r : Except Exc PolicyDecision) (sf : SfConfig) (payload : List (String × Json)),
      Process cfg alert (h₁ ++ ⟨.enforce intent, a⟩ :: h₂) r →
      Arrives go sf intent.toPolicyRule payload → OnTop payload := by
  intro hall
  have hrule : (answeredRun [("priority", .int 0)]).1.findSome? enforcedRule =
      some (hostRule 0) := by
    decide +kernel
  obtain ⟨h₁, intent, a, h₂, heq, hp⟩ := exists_process_of_rule hrule
  have hsome : ((arrivingRun (hostRule 0)).findSome? updatePayload).isSome = true := by
    decide +kernel
  obtain ⟨payload, hpayload⟩ := Option.isSome_iff_exists.mp hsome
  have harr := arrives_of_arrivingRun hpayload
  rw [← heq] at harr
  have htop := hall some transcodes_some _ _ h₁ h₂ intent a _ plainSf payload hp harr
  obtain ⟨hlow, -⟩ := (onTop_iff transcodes_some harr).mp htop
  rw [show intent.priority = (hostRule 0).priority by rw [← heq]] at hlow
  exact absurd hlow (by decide)

end ControlPlane.Intel
