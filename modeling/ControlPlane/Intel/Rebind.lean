import ControlPlane.Intel.Gate

/-!
# What a cached template is bound to

The cache lookup of an alert, when the cache holds the template of an alert with the same key. The
source and the id of the rule are made anew from the alert at hand; the destination stays that of
the template, and the key knows no more of it than its zone. So the rule is about the flow of the
alert exactly when the destination of the template happens to fit (`onFlow_iff_of_lookup`).
-/

namespace ControlPlane.Intel

open Text Ip AgentOp

/-- The key under which the cache holds the decision for an alert. -/
def cacheKeyOf (cfg : AgentConfig) (alert : SuricataAlert) (sid : ℤ) (signal : Json) : String :=
  computeKey cfg.py cfg.baselines sid alert.srcIp alert.destIp alert.destPort
    (protoOf cfg.py alert) signal

/-- A text denotes a network that contains the address of another text. -/
def Holds (net addr : String) : Prop :=
  ∃ n a, ipNetwork false net = some n ∧ ipAddress addr = some a ∧ a ∈ n

/-- Whether a network holds an address can be computed. -/
theorem holds_iff {net addr : String} :
    Holds net addr ↔
      ((ipNetwork false net).any fun n => (ipAddress addr).any fun a => a ∈ n) = true := by
  unfold Holds
  cases ipNetwork false net with
  | none => simp
  | some n =>
    cases ipAddress addr with
    | none => simp
    | some a => simp

/-- An intent is about the flow of an alert. -/
structure OnFlow (py : Py) (alert : SuricataAlert) (intent : PolicyIntent) : Prop where
  /-- The source is that of the alert, as a `/32`. -/
  src : intent.srcIp = firstPart '/' alert.srcIp ++ "/32"
  /-- The destination, when there is one, contains that of the alert. -/
  dst : intent.dstIp ≠ "" → Holds intent.dstIp alert.destIp
  /-- The id is the one of the flow. -/
  ruleId : intent.ruleId =
    deterministicRuleId py intent.srcIp intent.dstIp intent.dstPort intent.protocol

/-- A template fits an alert: the source of the alert has no prefix but `/32`, and the destination of
the template, when there is one, contains that of the alert. -/
def Fits (alert : SuricataAlert) (template : PolicyIntent) : Prop :=
  (contains '/' alert.srcIp = true → alert.srcIp = firstPart '/' alert.srcIp ++ "/32") ∧
    (template.dstIp ≠ "" → Holds template.dstIp alert.destIp)

/-! ## Rebinding -/

/-- An intent that is built with an empty id has the id of its flow. -/
theorem ruleId_of_validate {py : Py} {P : Pydantic} {raw : List (String × Json)}
    {intent : PolicyIntent} (h : PolicyIntent.validate py P raw = .ok intent)
    (hid : Json.lookup "rule_id" raw = some (.str "")) :
    intent.ruleId =
      deterministicRuleId py intent.srcIp intent.dstIp intent.dstPort intent.protocol := by
  obtain ⟨-, -, -, ruleId, hruleId, heq⟩ := PolicyIntent.validate_eq_ok h
  simp only [Field.text, hid, Option.some.injEq] at hruleId
  rw [heq, if_pos hruleId.symm]

/-- Rebinding empties the id. -/
theorem lookup_ruleId_reboundFields (raw : List (String × Json)) (alert : SuricataAlert) :
    Json.lookup "rule_id" (reboundFields raw alert) = some (.str "") := by
  unfold reboundFields
  simp only
  split_ifs
  · rw [Json.lookup_setKey]
  · rw [Json.lookup_setKey_of_ne _ _ (by decide), Json.lookup_setKey]

/-- A rebound intent has the id of its own flow. -/
theorem ruleId_of_rebind {py : Py} {P : Pydantic} {cached : Json} {alert : SuricataAlert}
    {intent : PolicyIntent} (h : rebindCachedIntent py P cached alert = some intent) :
    intent.ruleId =
      deterministicRuleId py intent.srcIp intent.dstIp intent.dstPort intent.protocol := by
  unfold rebindCachedIntent at h
  split at h
  · split at h
    · next raw _ =>
      cases hval : PolicyIntent.validate py P (reboundFields raw alert) with
      | error e => simp [hval, Except.toOption] at h
      | ok i =>
        simp only [hval, Except.toOption, Option.some.injEq] at h
        subst h
        exact ruleId_of_validate hval (lookup_ruleId_reboundFields raw alert)
    · simp at h
  · simp at h

/-- The source that a template is bound to is the alert's as a `/32`, unless the alert has a prefix
of its own. -/
theorem reboundSrc_eq_iff (alert : SuricataAlert) :
    reboundSrc alert = firstPart '/' alert.srcIp ++ "/32" ↔
      (contains '/' alert.srcIp = true → alert.srcIp = firstPart '/' alert.srcIp ++ "/32") := by
  unfold reboundSrc
  split_ifs with hslash
  · exact ⟨fun h _ => h, fun h => h hslash⟩
  · have hno : '/' ∉ alert.srcIp.toList := by simpa [contains] using hslash
    have hfirst : firstPart '/' alert.srcIp = alert.srcIp := by
      rw [firstPart, split_of_not_mem hno]
      rfl
    simp [hfirst, hslash]

/-- The destination of a stored template is that of the intent that was stored. -/
theorem cachedDst_dump (template : PolicyIntent) (now : String) :
    cachedDst (.obj [("intent", template.dump), ("cached_at", .str now)]) =
      some template.dstIp := by
  rfl

/-- A template of the cache, bound to an alert, is about the flow of the alert exactly when it fits
the alert. -/
theorem onFlow_iff_of_rebind {py : Py} {P : Pydantic} {template intent : PolicyIntent}
    {now : String} {alert : SuricataAlert}
    (h : rebindCachedIntent py P (.obj [("intent", template.dump), ("cached_at", .str now)]) alert =
      some intent) :
    OnFlow py alert intent ↔ Fits alert template := by
  obtain ⟨hsrc, hdst⟩ := flow_of_rebind h
  rw [cachedDst_dump, Option.some.injEq] at hdst
  unfold Fits
  rw [← reboundSrc_eq_iff, ← hsrc, hdst]
  exact ⟨fun hflow => ⟨hflow.src, hflow.dst⟩,
    fun hfits => ⟨hfits.1, hfits.2, ruleId_of_rebind h⟩⟩

/-! ## The lookup -/

/-- What the lookup relies on: under the key, the store holds the text. -/
def storeRely (key payload : String) (_ : List AgentEvent) (e : AgentEvent) : Prop :=
  ∀ a, e = ⟨redisGet key, a⟩ → a = .ok (some payload)

section

variable {cfg : AgentConfig} {h : List AgentEvent}

/-- What the cache answers under a key is read from the text that the store holds. -/
theorem sat_cacheGet_store {key payload : String} {cached : Json}
    (hload : cfg.py.loads payload = some cached) :
    Act.Sat (storeRely key payload) (fun _ _ => True) h () (cacheGet cfg key) fun _ r _ =>
      ∀ found, r = .ok (some found) → found = cached := by
  unfold cacheGet
  split_ifs
  · simp only [Act.sat_bind, Act.sat_perform]
    refine ⟨trivial, fun answer ha => ?_⟩
    obtain rfl : answer = .ok (some payload) := ha answer rfl
    simp only [Option.getD_some]
    split_ifs
    · simp
    · rw [hload]
      simp
  · simp

/-- A hit binds the template that the store holds under the key of the alert. -/
theorem sat_nodeCheckResponseCache {state : AgentState} {sid : ℤ} {signal cached : Json}
    {payload : String} (hsid : state.alert.sid cfg.py = .ok sid)
    (hsignal : getOrEmpty state.correlation "kill_chain_signal" (.str "") = .ok signal)
    (hload : cfg.py.loads payload = some cached) :
    Act.Sat (storeRely (cacheKeyOf cfg state.alert sid signal) payload) (fun _ _ => True) h ()
      (nodeCheckResponseCache cfg state) fun _ r _ => ∀ patch, r = .ok patch →
        (patch state).cacheHit = true → ∃ intent, (patch state).intent = some intent ∧
          rebindCachedIntent cfg.py cfg.pydantic cached state.alert = some intent := by
  unfold nodeCheckResponseCache
  simp only [hsid, hsignal, Act.sat_bind, Act.sat_ofExcept]
  refine (sat_cacheGet_store hload).mono fun h r _ hr => ?_
  cases r with
  | error e => simp
  | ok found =>
    simp only
    split
    · simp
    · simp
    -- What the lookup returns is the parsed payload, since the store holds nothing else there.
    · next found _ =>
      obtain rfl : found = cached := hr found rfl
      split
      · simp
      · next intent hintent =>
        simp only [Act.sat_pure, Except.ok.injEq]
        rintro patch rfl -
        exact ⟨intent, rfl, hintent⟩

/-- A hit for an alert binds the template that the cache holds under the key of another alert with
the same key. -/
theorem exists_rebound {key : String} {sid : ℤ} {signal cached : Json} {payload : String}
    {state : AgentState} {patch : Patch} (hkey : key = cacheKeyOf cfg state.alert sid signal)
    (hload : cfg.py.loads payload = some cached) (hsid : state.alert.sid cfg.py = .ok sid)
    (hsignal : getOrEmpty state.correlation "kill_chain_signal" (.str "") = .ok signal)
    (hrun : Prog.Runs (nodeCheckResponseCache cfg state ()) h (.ok patch, ()))
    (hstore : ∀ a, ⟨redisGet key, a⟩ ∈ h → a = .ok (some payload))
    (hhit : (patch state).cacheHit = true) :
    ∃ intent, (patch state).intent = some intent ∧
      rebindCachedIntent cfg.py cfg.pydantic cached state.alert = some intent := by
  subst hkey
  have hrely : Prog.Relied (storeRely (cacheKeyOf cfg state.alert sid signal) payload) [] h := by
    refine Prog.relied_of_forall fun e he a => ?_
    rintro rfl
    exact hstore a he
  exact hrun.post (sat_nodeCheckResponseCache hsid hsignal hload) hrely patch rfl hhit

/-- When the cache holds a template under the key of one alert, and the lookup for another alert with
that key is a hit, the intent is about the flow of that alert exactly when the template fits it. -/
theorem onFlow_iff_of_lookup {alert : SuricataAlert} {sidA sid : ℤ} {signalA signal : Json}
    {template : PolicyIntent} {now : String} {state : AgentState} {patch : Patch}
    (hkey : cacheKeyOf cfg alert sidA signalA = cacheKeyOf cfg state.alert sid signal)
    (hback : cfg.py.loads (cachePayload cfg.py template now) =
      some (.obj [("intent", template.dump), ("cached_at", .str now)]))
    (hsid : state.alert.sid cfg.py = .ok sid)
    (hsignal : getOrEmpty state.correlation "kill_chain_signal" (.str "") = .ok signal)
    (hrun : Prog.Runs (nodeCheckResponseCache cfg state ()) h (.ok patch, ()))
    (hstore : ∀ a, ⟨redisGet (cacheKeyOf cfg alert sidA signalA), a⟩ ∈ h →
      a = .ok (some (cachePayload cfg.py template now)))
    (hhit : (patch state).cacheHit = true) :
    ∃ intent, (patch state).intent = some intent ∧
      (OnFlow cfg.py state.alert intent ↔ Fits state.alert template) := by
  obtain ⟨intent, hintent, hrebind⟩ := exists_rebound hkey hback hsid hsignal hrun hstore hhit
  exact ⟨intent, hintent, onFlow_iff_of_rebind hrebind⟩

end

/-! ## Two alerts with one key -/

/-- An alert of a flow. -/
def flowAlert (srcIp destIp : String) : SuricataAlert := { plainAlert srcIp with destIp }

/-- A rule that was decided for one host of the database zone. -/
def hostTemplate : PolicyIntent :=
  { dropRule "10.1.100.10/32" "10.1.200.10/32" with reasoning := {} }

/-- What the cache stores for it. -/
def hostDocument : Json :=
  .obj [("intent", hostTemplate.dump), ("cached_at", .str "2025-01-01T00:00:00Z")]

/-- The plain agent, with an interpreter that reads the stored text back. -/
def cachingAgent : AgentConfig :=
  { plainAgent with
    py := .ascii (fun s => s) fun s => if s = hostDocument.print then some hostDocument else none }

/-- The stored text is read back. -/
theorem cachingAgent_loads :
    cachingAgent.py.loads (cachePayload cachingAgent.py hostTemplate "2025-01-01T00:00:00Z") =
      some (.obj [("intent", hostTemplate.dump), ("cached_at", .str "2025-01-01T00:00:00Z")]) := by
  have hback : ∀ (f : String → String) (doc : Json), (Py.ascii f fun s => if s = doc.print
      then some doc else none).loads doc.print = some doc := fun _ _ => if_pos rfl
  exact hback (fun s => s) hostDocument

/-- The state of the request for an alert, at the lookup. -/
def lookupState (srcIp destIp : String) : AgentState where
  alert := flowAlert srcIp destIp
  correlation := .obj []

/-- What the agent calls answers, when the store holds the template. -/
def storeOracle : (op : AgentOp) → AgentAns op
  | redisGet _ => .ok (some (cachePayload cachingAgent.py hostTemplate "2025-01-01T00:00:00Z"))
  | op => plainOracle "" "" op

/-- The lookup of a request for an alert. -/
def lookupRun (srcIp destIp : String) : List AgentEvent × (Except Exc Patch × Unit) :=
  Prog.run (fun _ => storeOracle) []
    (nodeCheckResponseCache cachingAgent (lookupState srcIp destIp) ())

/-- Whether the lookup is a hit. -/
def isHit (srcIp destIp : String) : Bool :=
  match (lookupRun srcIp destIp).2.1 with
  | .ok patch => (patch (lookupState srcIp destIp)).cacheHit
  | .error _ => false

/-- The lookup is a run in which the store holds the template, and is a hit when it says so. -/
theorem exists_lookup {srcIp destIp : String} (hhit : isHit srcIp destIp = true) :
    ∃ patch, Prog.Runs (nodeCheckResponseCache cachingAgent (lookupState srcIp destIp) ())
        (lookupRun srcIp destIp).1 (.ok patch, ()) ∧
      (∀ key a, ⟨redisGet key, a⟩ ∈ (lookupRun srcIp destIp).1 →
        a = .ok (some (cachePayload cachingAgent.py hostTemplate "2025-01-01T00:00:00Z"))) ∧
      (patch (lookupState srcIp destIp)).cacheHit = true := by
  have hrun : Prog.Runs (nodeCheckResponseCache cachingAgent (lookupState srcIp destIp) ())
      (lookupRun srcIp destIp).1 (lookupRun srcIp destIp).2 ∧
        ∀ e ∈ (lookupRun srcIp destIp).1, e.ans = storeOracle e.op :=
    Prog.runs_const storeOracle _
  unfold isHit at hhit
  generalize lookupRun srcIp destIp = x at hrun hhit ⊢
  obtain ⟨h, r, u⟩ := x
  cases r with
  | error e => simp at hhit
  | ok patch => exact ⟨patch, hrun.1, fun key a ha => hrun.2 ⟨redisGet key, a⟩ ha, hhit⟩

/-- The template fits an alert for the same destination. -/
theorem onFlow_iff_of_lookup_host :
    ∃ intent, OnFlow cachingAgent.py (flowAlert "10.1.100.11" "10.1.200.10") intent := by
  obtain ⟨patch, hrun, hstore, hhit⟩ :=
    exists_lookup (by decide +kernel : isHit "10.1.100.11" "10.1.200.10" = true)
  have hkey : cacheKeyOf cachingAgent (flowAlert "10.1.100.10" "10.1.200.10") 9000001 (.str "") =
      cacheKeyOf cachingAgent (lookupState "10.1.100.11" "10.1.200.10").alert 9000001
        (.str "") := by
    decide +kernel
  obtain ⟨intent, -, hiff⟩ := onFlow_iff_of_lookup hkey cachingAgent_loads rfl rfl hrun
    (hstore _) hhit
  have hholds : Holds "10.1.200.10/32" "10.1.200.10" := holds_iff.mpr (by decide +kernel)
  exact ⟨intent, hiff.mpr ⟨fun hslash => absurd hslash (by decide +kernel), fun _ => hholds⟩⟩

/-- A validated template for one host of a zone is bound to an alert for another host of the zone,
and keeps its destination. -/
theorem exists_rebound_not_onFlow :
    ¬ ∀ (cfg : AgentConfig) (alert : SuricataAlert) (sidA sid : ℤ) (signalA signal : Json)
      (template intent : PolicyIntent) (now : String) (state : AgentState) (patch : Patch)
      (h : List AgentEvent),
      featureBlob cfg.py cfg.baselines sidA alert.srcIp alert.destIp alert.destPort
          (protoOf cfg.py alert) signalA =
        featureBlob cfg.py cfg.baselines sid state.alert.srcIp state.alert.destIp
          state.alert.destPort (protoOf cfg.py state.alert) signal →
      (validateIntent cfg.py cfg.kb template.toPolicyRule sidA cfg.ttlMin cfg.ttlMax
        alert.srcIp).errors = [] →
      cfg.py.loads (cachePayload cfg.py template now) =
        some (.obj [("intent", template.dump), ("cached_at", .str now)]) →
      state.alert.sid cfg.py = .ok sid →
      getOrEmpty state.correlation "kill_chain_signal" (.str "") = .ok signal →
      Prog.Runs (nodeCheckResponseCache cfg state ()) h (.ok patch, ()) →
      (∀ a, ⟨redisGet (cacheKeyOf cfg alert sidA signalA), a⟩ ∈ h →
        a = .ok (some (cachePayload cfg.py template now))) →
      (patch state).cacheHit = true → (patch state).intent = some intent →
      OnFlow cfg.py state.alert intent := by
  intro hall
  obtain ⟨patch, hrun, hstore, hhit⟩ :=
    exists_lookup (by decide +kernel : isHit "10.1.100.11" "10.1.200.11" = true)
  let alert := flowAlert "10.1.100.10" "10.1.200.10"
  let state := lookupState "10.1.100.11" "10.1.200.11"
  have hblob : featureBlob cachingAgent.py cachingAgent.baselines 9000001 alert.srcIp alert.destIp
        alert.destPort (protoOf cachingAgent.py alert) (.str "") =
      featureBlob cachingAgent.py cachingAgent.baselines 9000001 state.alert.srcIp
        state.alert.destIp state.alert.destPort (protoOf cachingAgent.py state.alert) (.str "") := by
    decide +kernel
  have hkey : cacheKeyOf cachingAgent alert 9000001 (.str "") =
      cacheKeyOf cachingAgent state.alert 9000001 (.str "") := by
    decide +kernel
  -- Both hosts fall into one zone, so the two alerts have one key; the template names the first host.
  obtain ⟨intent, hintent, hrebind⟩ :=
    exists_rebound hkey cachingAgent_loads rfl rfl hrun (hstore _) hhit
  have hvalid : (validateIntent cachingAgent.py cachingAgent.kb hostTemplate.toPolicyRule 9000001
      cachingAgent.ttlMin cachingAgent.ttlMax alert.srcIp).errors = [] := by
    decide +kernel
  have hflow := hall cachingAgent alert 9000001 9000001 (.str "") (.str "") hostTemplate intent
    "2025-01-01T00:00:00Z" state patch _ hblob hvalid cachingAgent_loads rfl rfl hrun (hstore _)
    hhit hintent
  have hholds : Holds "10.1.200.10/32" "10.1.200.11" :=
    ((onFlow_iff_of_rebind hrebind).mp hflow).2 (by decide)
  exact absurd (holds_iff.mp hholds) (by decide +kernel)

end ControlPlane.Intel
