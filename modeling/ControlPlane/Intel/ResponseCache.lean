import ControlPlane.Intel.Topology
import ControlPlane.Intel.Models

/-!
# The response cache

The model of `agent/response_cache.py`: the key under which an enforced intent is stored, the text
that is stored, and the intent that a stored template becomes for another alert. The key is made of
the zones of the flow and not of its addresses, so `rebindCachedIntent` puts the source of the alert
at hand in the place of the stored one (`flow_of_rebind`).
-/

namespace ControlPlane.Intel

open Text

/-- The fields of a `TrafficPattern` that the cache reads. -/
structure TrafficPattern where
  /-- The name of the baseline. -/
  name : String
  /-- The protocol. -/
  proto : String
  /-- The destination port. -/
  dstPort : ℤ
  /-- The source address. -/
  srcIp : String
  /-- The destination address, or `rotating`. -/
  dstIp : String

/-- `match_baseline`, over the patterns `ALL_BASELINES`. -/
def matchBaseline (baselines : List TrafficPattern) (srcIp dstIp : String) (dstPort : ℤ)
    (proto : String) : Option TrafficPattern :=
  baselines.find? fun p =>
    p.proto == proto && p.dstPort == dstPort && p.srcIp == firstPart '/' srcIp
      && (p.dstIp == "rotating" || p.dstIp == firstPart '/' dstIp)

/-- The settings of a `ResponseCache`. -/
structure CacheConfig where
  /-- `_ttl`. -/
  ttl : ℤ
  /-- `_enabled`. -/
  enabled : Bool

/-- `_CACHE_KEY_PREFIX`. -/
def CACHE_KEY_PREFIX : String := "agent:resp_cache:"

/-- `_STATS_HITS`. -/
def STATS_HITS : String := "agent:resp_cache:stats:hits"

/-- `_STATS_MISSES`. -/
def STATS_MISSES : String := "agent:resp_cache:stats:misses"

/-- The text that is hashed for a key. -/
def featureBlob (py : Py) (baselines : List TrafficPattern) (sid : ℤ) (srcIp dstIp : String)
    (dstPort : ℤ) (protocol : String) (correlationSignal : Json) : String :=
  let srcZone := ((ipToZone srcIp).map Zone.name).getD "unknown"
  let dstZone := if dstIp = "" then "none" else ((ipToZone dstIp).map Zone.name).getD "unknown"
  let proto := if protocol = "" then "tcp" else py.lower protocol
  let baseline := ((matchBaseline baselines srcIp dstIp dstPort proto).map (·.name)).getD "none"
  "sid=" ++ toString sid ++ "|src_zone=" ++ srcZone ++ "|dst_zone=" ++ dstZone ++ "|dst_port="
    ++ toString dstPort ++ "|proto=" ++ protocol ++ "|baseline=" ++ baseline ++ "|corr="
    ++ py.fmt correlationSignal

/-- `compute_key`. -/
def computeKey (py : Py) (baselines : List TrafficPattern) (sid : ℤ) (srcIp dstIp : String)
    (dstPort : ℤ) (protocol : String) (correlationSignal : Json) : String :=
  let blob := featureBlob py baselines sid srcIp dstIp dstPort protocol correlationSignal
  CACHE_KEY_PREFIX ++ String.ofList ((py.sha256 blob).toList.take 16)

/-! ## Stored templates -/

/-- `hypothesis.model_dump(mode="json")`. -/
def Hypothesis.dump (h : Hypothesis) : Json :=
  .obj [("name", .str h.name), ("description", .str h.description),
    ("probability", .float h.probability),
    ("supporting_evidence", .ofTexts h.supportingEvidence),
    ("disconfirming_evidence", .ofTexts h.disconfirmingEvidence)]

/-- `alternative.model_dump(mode="json")`. -/
def AlternativeAction.dump (a : AlternativeAction) : Json :=
  .obj [("trigger_condition", .str a.triggerCondition), ("action", .str a.action),
    ("rationale", .str a.rationale)]

/-- `rollback_plan.model_dump(mode="json")`. -/
def RollbackPlan.dump (r : RollbackPlan) : Json :=
  .obj [("trigger", .str r.trigger), ("action", .str r.action),
    ("monitor_seconds", .int r.monitorSeconds)]

/-- `user_notification.model_dump(mode="json")`. -/
def UserNotification.dump (n : UserNotification) : Json :=
  .obj [("title", .str n.title), ("body", .str n.body), ("severity", .str n.severity.value)]

/-- `intent.model_dump(mode="json")`. -/
def PolicyIntent.dump (i : PolicyIntent) : Json :=
  .obj [("rule_id", .str i.ruleId), ("action", .str i.action.value), ("src_ip", .str i.srcIp),
    ("dst_ip", .str i.dstIp), ("dst_port", .int i.dstPort), ("protocol", .str i.protocol),
    ("priority", .int i.priority), ("ttl_seconds", .int i.ttlSeconds),
    ("comment", .str i.comment), ("confidence", .float i.confidence),
    ("reasoning_steps", i.reasoning.reasoningSteps),
    ("mitre_technique", i.reasoning.mitreTechnique), ("mitre_tactic", i.reasoning.mitreTactic),
    ("hypotheses", .arr (i.reasoning.hypotheses.map Hypothesis.dump)),
    ("primary_hypothesis", i.reasoning.primaryHypothesis),
    ("alternative_actions", .arr (i.reasoning.alternativeActions.map AlternativeAction.dump)),
    ("rollback_plan", i.reasoning.rollbackPlan.dump),
    ("follow_up_actions", i.reasoning.followUpActions),
    ("user_notification", i.userNotification.dump)]

/-- The text that `set` stores for an intent. -/
def cachePayload (py : Py) (intent : PolicyIntent) (cachedAt : String) : String :=
  py.dumps (.obj [("intent", intent.dump), ("cached_at", .str cachedAt)])

/-- The source that a template is bound to. -/
def reboundSrc (alert : SuricataAlert) : String :=
  if contains '/' alert.srcIp then alert.srcIp else alert.srcIp ++ "/32"

/-- The arguments that `rebind_cached_intent` makes of a stored intent. -/
def reboundFields (raw : List (String × Json)) (alert : SuricataAlert) : List (String × Json) :=
  let raw := Json.setKey "rule_id" (.str "") (Json.setKey "src_ip" (.str (reboundSrc alert)) raw)
  let action := (Json.lookup "action" raw).getD (.str "log_only")
  if action.isStr PolicyAction.drop.value || action.isStr PolicyAction.logOnly.value then raw
  else Json.setKey "action" (.str PolicyAction.logOnly.value) raw

/-- `rebind_cached_intent`. A template that is no object makes the assignment raise, which is
caught. -/
def rebindCachedIntent (py : Py) (P : Pydantic) (cached : Json) (alert : SuricataAlert) :
    Option PolicyIntent :=
  match cached with
  | .obj fields =>
    match Json.lookup "intent" fields with
    | some (.obj raw) => (PolicyIntent.validate py P (reboundFields raw alert)).toOption
    | _ => none
  | _ => none

/-- The destination text that a stored template proposes. -/
def cachedDst (cached : Json) : Option String :=
  match cached with
  | .obj fields =>
    match Json.lookup "intent" fields with
    | some (.obj raw) => Field.text raw "dst_ip" (some "")
    | _ => none
  | _ => none

/-- Rebinding changes the source, the id and the action, and nothing else. -/
theorem lookup_reboundFields {raw : List (String × Json)} {alert : SuricataAlert} {key : String}
    (h1 : key ≠ "rule_id") (h2 : key ≠ "src_ip") (h3 : key ≠ "action") :
    Json.lookup key (reboundFields raw alert) = Json.lookup key raw := by
  unfold reboundFields
  simp only
  split_ifs
  · rw [Json.lookup_setKey_of_ne _ _ h1, Json.lookup_setKey_of_ne _ _ h2]
  · rw [Json.lookup_setKey_of_ne _ _ h3, Json.lookup_setKey_of_ne _ _ h1,
      Json.lookup_setKey_of_ne _ _ h2]

/-- The source of a rebound template is that of the alert. -/
theorem lookup_src_reboundFields (raw : List (String × Json)) (alert : SuricataAlert) :
    Json.lookup "src_ip" (reboundFields raw alert) = some (.str (reboundSrc alert)) := by
  unfold reboundFields
  simp only
  split_ifs
  · rw [Json.lookup_setKey_of_ne _ _ (by decide), Json.lookup_setKey]
  · rw [Json.lookup_setKey_of_ne _ _ (by decide), Json.lookup_setKey_of_ne _ _ (by decide),
      Json.lookup_setKey]

/-- A rebound intent has the source of the alert and the destination of the template. -/
theorem flow_of_rebind {py : Py} {P : Pydantic} {cached : Json} {alert : SuricataAlert}
    {intent : PolicyIntent} (h : rebindCachedIntent py P cached alert = some intent) :
    intent.srcIp = reboundSrc alert ∧ cachedDst cached = some intent.dstIp := by
  unfold rebindCachedIntent at h
  split at h
  · next fields =>
    split at h
    · next raw hraw =>
      cases hval : PolicyIntent.validate py P (reboundFields raw alert) with
      | error e => simp [hval, Except.toOption] at h
      | ok i =>
        simp only [hval, Except.toOption, Option.some.injEq] at h
        subst h
        -- The source was overwritten before the validation; the destination comes through.
        obtain ⟨hsrc, hdst, -⟩ := PolicyIntent.validate_eq_ok hval
        unfold Field.text at hsrc hdst
        rw [lookup_src_reboundFields] at hsrc
        rw [lookup_reboundFields (by decide) (by decide) (by decide)] at hdst
        simp only [Option.some.injEq] at hsrc
        refine ⟨hsrc.symm, ?_⟩
        simp only [cachedDst, hraw, Field.text]
        exact hdst
    · simp at h
  · simp at h

end ControlPlane.Intel
