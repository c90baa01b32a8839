import ControlPlane.Intel.Graph

/-!
# What a request has been through when it forks

`Ready` is everything that holds of the state when `prepare` lets a request go on: the intent has
passed the validators and the confidence gate, and its flow was proposed by an event of the run, an
answer of the model or a template of the cache. `sat_prepare` proves it block by block; none of the
blocks calls the backend.
-/

namespace ControlPlane.Intel

open Text AgentOp

/-- The source and destination texts that an answer of the model proposes. -/
def answerFlow (alert : SuricataAlert) (answer : Except Exc Json) : Option (String × String) :=
  match answer with
  | .ok (.obj fields) =>
    match Field.text fields "src_ip" (some alert.srcIp), Field.text fields "dst_ip" (some "") with
    | some src, some dst => some (src, dst)
    | _, _ => none
  | _ => none

/-- The source and destination texts that an event proposes: an answer of the model to the policy
decision, or a template of the cache, bound to the source of the alert. -/
def proposal (cfg : AgentConfig) (alert : SuricataAlert) : AgentEvent → Option (String × String)
  | ⟨chatReact _, answer⟩ => answerFlow alert answer
  | ⟨chatJson _ schema, answer⟩ =>
    if schema = "policy_decision" then answerFlow alert answer else none
  | ⟨redisGet _, .ok (some raw)⟩ =>
    ((cfg.py.loads raw).bind cachedDst).map fun dst => (reboundSrc alert, dst)
  | _ => none

/-- The flow of a rule was proposed by an event of the history. -/
def Proposed (cfg : AgentConfig) (alert : SuricataAlert) (h : List AgentEvent)
    (rule : PolicyRule) : Prop :=
  ∃ e ∈ h, proposal cfg alert e = some (rule.srcIp, rule.dstIp)

/-- A proposal stays one when more events follow. -/
theorem Proposed.append {cfg : AgentConfig} {alert : SuricataAlert} {h : List AgentEvent}
    {rule : PolicyRule} (hp : Proposed cfg alert h rule) (h' : List AgentEvent) :
    Proposed cfg alert (h ++ h') rule := by
  obtain ⟨e, he, heq⟩ := hp
  exact ⟨e, List.mem_append_left _ he, heq⟩

/-- The blocks before the fork do not call the backend. -/
def prepareGuarantee (_ : List AgentEvent) : AgentOp → Prop
  | .enforce _ => False
  | _ => True

/-- A state that no block before the fork leaves behind: enforced, or of another alert. -/
def Harmless (alert : SuricataAlert) (s : AgentState) : Prop :=
  s.alert = alert ∧ s.outcome ≠ some .enforced

/-- The state before the cache lookup: no intent, and no outcome. -/
def Fresh (alert : SuricataAlert) (_ : List AgentEvent) (s : AgentState) : Prop :=
  s.alert = alert ∧ s.outcome = none ∧ s.intent = none ∧ s.cacheHit = false

/-- The state with a proposed intent. -/
def Intended (cfg : AgentConfig) (alert : SuricataAlert) (h : List AgentEvent) (s : AgentState) :
    Prop :=
  s.alert = alert ∧ s.outcome = none ∧
    ∃ intent, s.intent = some intent ∧ Proposed cfg alert h intent.toPolicyRule

/-- The state after the cache lookup. -/
def Looked (cfg : AgentConfig) (alert : SuricataAlert) (h : List AgentEvent) (s : AgentState) :
    Prop :=
  (s.cacheHit = false ∧ Fresh alert h s) ∨ (s.cacheHit = true ∧ Intended cfg alert h s)

/-- The state after the policy decision. -/
def Decided (cfg : AgentConfig) (alert : SuricataAlert) (h : List AgentEvent) (s : AgentState) :
    Prop :=
  s.alert = alert ∧ (s.outcome = some .rejected ∨ Intended cfg alert h s)

/-- Everything that holds when a request goes on to the fork. -/
structure Ready (cfg : AgentConfig) (alert : SuricataAlert) (sid : ℤ) (h : List AgentEvent)
    (s : AgentState) (intent : PolicyIntent) : Prop where
  /-- The alert can be read. -/
  readable : alert.sid cfg.py = .ok sid
  /-- The state is that of the alert. -/
  alert_eq : s.alert = alert
  /-- Nothing is enforced yet. -/
  outcome_ne : s.outcome ≠ some .enforced
  /-- The intent is set. -/
  intent_eq : s.intent = some intent
  /-- An event of the run proposed its flow. -/
  proposed : Proposed cfg alert h intent.toPolicyRule
  /-- It has no validation error. -/
  valid : (validateIntent cfg.py cfg.kb intent.toPolicyRule sid cfg.ttlMin cfg.ttlMax
    alert.srcIp).errors = []
  /-- Its confidence is neither held nor rejected. -/
  confident : (evaluateConfidence intent.confidence cfg.autoEnforce cfg.notify cfg.hold).1 ≠ .hold ∧
    (evaluateConfidence intent.confidence cfg.autoEnforce cfg.notify cfg.hold).1 ≠ .reject

/-- The state after the validation. -/
def Validated (cfg : AgentConfig) (alert : SuricataAlert) (h : List AgentEvent) (s : AgentState) :
    Prop :=
  (s.alert = alert ∧ s.outcome ∈ [some .rejected, some .held, some .benign]) ∨
    ∃ sid intent, Ready cfg alert sid h s intent

/-- A block that starts where `P` holds makes no call to the backend, ends where `P'` holds, and
leaves a harmless state when it raises. -/
def Block (alert : SuricataAlert) (P : List AgentEvent → AgentState → Prop) (m : AgentM Unit)
    (P' : List AgentEvent → AgentState → Prop) : Prop :=
  ∀ h s, P h s → Act.Sat (fun _ _ => True) prepareGuarantee h s m fun h r s => match r with
    | .ok _ => P' h s
    | .error _ => Harmless alert s

/-- A property that more events leave true, and that makes a state harmless. -/
structure Stable (alert : SuricataAlert) (P : List AgentEvent → AgentState → Prop) : Prop where
  /-- More events leave it true. -/
  append : ∀ h s e, P h s → P (h ++ [e]) s
  /-- It makes a state harmless. -/
  harmless : ∀ h s, P h s → Harmless alert s

section

variable {cfg : AgentConfig} {alert : SuricataAlert} {h : List AgentEvent} {s : AgentState}
  {P P' P'' : List AgentEvent → AgentState → Prop}

theorem stable_fresh : Stable alert (Fresh alert) where
  append _ _ _ hp := hp
  harmless _ _ hp := ⟨hp.1, by simp [hp.2.1]⟩

theorem stable_intended : Stable alert (Intended cfg alert) where
  append _ _ _ := by
    rintro ⟨halert, hout, intent, hi, hprop⟩
    exact ⟨halert, hout, intent, hi, hprop.append _⟩
  harmless _ _ hp := ⟨hp.1, by simp [hp.2.1]⟩

theorem stable_looked : Stable alert (Looked cfg alert) where
  append h s e hp := hp.imp id fun hp => ⟨hp.1, stable_intended.append h s e hp.2⟩
  harmless h s hp := hp.elim (fun hp => stable_fresh.harmless h s hp.2)
    fun hp => stable_intended.harmless h s hp.2

/-- A block, and what follows it. -/
theorem Block.andThen {α : Type} {m : AgentM Unit} {k : AgentM α}
    {Q : List AgentEvent → Except Exc α → AgentState → Prop} (hm : Block alert P m P')
    (hk : ∀ h s, P' h s → Act.Sat (fun _ _ => True) prepareGuarantee h s k Q)
    (he : ∀ h s e, Harmless alert s → Q h (.error e) s) (hp : P h s) :
    Act.Sat (fun _ _ => True) prepareGuarantee h s (do m; k) Q := by
  rw [Act.sat_bind]
  refine (hm h s hp).mono fun h r s hr => ?_
  cases r with
  | ok _ => exact hk h s hr
  | error e => exact he h s e hr

/-- Blocks in sequence. -/
theorem Block.seq {m m' : AgentM Unit} (hm : Block alert P m P') (hm' : Block alert P' m' P'') :
    Block alert P (do m; m') P'' :=
  fun _ _ hp => hm.andThen hm' (fun _ _ _ hh => hh) hp

/-- Opening a span. -/
theorem block_span (hP : Stable alert P) (name : String) : Block alert P (span name) P := by
  intro h s hp
  unfold span
  simp only [Act.sat_orRaise, Act.sat_perform]
  refine ⟨trivial, fun answer _ => ?_⟩
  cases answer with
  | ok _ => exact hP.append _ _ _ hp
  | error e => exact hP.harmless _ _ hp

/-- Updating a span with what the state holds. -/
theorem block_updateSpan (hP : Stable alert P) (name : String)
    (metadata : AgentState → List (String × Json)) :
    Block alert P (do updateSpan name (metadata (← Act.get))) P := by
  intro h s hp
  unfold updateSpan
  simp only [Act.sat_bind, Act.sat_get, Act.sat_orRaise, Act.sat_perform]
  refine ⟨trivial, fun answer _ => ?_⟩
  cases answer with
  | ok _ => exact hP.append _ _ _ hp
  | error e => exact hP.harmless _ _ hp

/-- Applying the patch of a node. -/
theorem block_step (hP : Stable alert P) {node : AgentState → CallM Patch}
    (hnode : ∀ h s, P h s → Act.Sat (fun _ _ => True) prepareGuarantee h () (node s)
      fun h r _ => ∀ patch, r = .ok patch → P' h (patch s)) :
    Block alert P (step node) P' := by
  intro h s hp
  unfold step
  simp only [Act.sat_bind, Act.sat_get, Act.sat_lift, Act.sat_modify]
  refine (hnode h s hp).mono fun h r _ hr => ?_
  cases r with
  | ok patch => exact hr patch rfl
  | error e => exact hP.harmless _ _ hp

/-! ## The blocks before the cache -/

theorem block_loadContext : Block alert (Fresh alert) (loadContext cfg) (Fresh alert) := by
  unfold loadContext
  refine (block_span stable_fresh _).seq (.seq (block_step stable_fresh fun h s hp => ?_)
    (block_updateSpan stable_fresh _ _))
  unfold nodeLoadContext
  simp only [Act.sat_bind, Act.sat_ofExcept, Act.sat_orRaise, Act.sat_perform, Act.sat_pure]
  split
  · refine ⟨trivial, fun answer _ => ?_⟩
    cases answer with
    | ok prompt => simpa [Fresh] using hp
    | error e => simp
  · simp

theorem block_classifyAlert : Block alert (Fresh alert) (classifyAlert cfg) (Fresh alert) := by
  unfold classifyAlert
  refine (block_span stable_fresh _).seq (block_step stable_fresh fun h s hp => ?_)
  unfold nodeClassifyAlert
  simp only [Act.sat_bind, Act.sat_ofExcept, Act.sat_perform, Act.sat_pure]
  split
  · refine ⟨trivial, fun answer _ => ?_⟩
    simpa [Fresh] using hp
  · simp

/-- The patch of the third node leaves the intent and the outcome alone. -/
theorem sat_nodeGatherContext (hp : Fresh alert h s) :
    Act.Sat (fun _ _ => True) prepareGuarantee h () (nodeGatherContext cfg s)
      fun h r _ => ∀ patch, r = .ok patch → Fresh alert h (patch s) := by
  unfold nodeGatherContext
  simp only [Act.sat_bind, Act.sat_ofExcept, Act.sat_orRaise, Act.sat_perform, Act.sat_pure]
  refine ⟨trivial, fun pushed _ => ?_⟩
  cases pushed with
  | error e => simp
  | ok _ =>
    simp only
    split
    · refine ⟨trivial, fun _ _ => ⟨trivial, fun _ _ => ⟨trivial, fun _ _ => ⟨trivial, fun _ _ =>
        ⟨trivial, fun _ _ => ⟨trivial, fun context _ => ?_⟩⟩⟩⟩⟩⟩
      cases context with
      | error e => simp
      | ok _ =>
        simp only
        split
        · simpa [Fresh] using hp
        · simp
    · simp

theorem block_gatherContext : Block alert (Fresh alert) (gatherContext cfg) (Fresh alert) := by
  unfold gatherContext
  refine (block_span stable_fresh _).seq (.seq
    (block_step stable_fresh fun h s hp => sat_nodeGatherContext hp) fun h s hp => ?_)
  have hh := stable_fresh.harmless _ _ hp
  unfold updateSpan
  simp only [Act.sat_bind, Act.sat_get, Act.sat_ofExcept, Act.sat_orRaise, Act.sat_perform]
  split
  · split
    · refine ⟨trivial, fun answer _ => ?_⟩
      cases answer with
      | ok _ => exact hp
      | error e => exact hh
    · exact hh
  · exact hh

/-! ## The cache lookup -/

/-- What a lookup finds was read from the store. -/
theorem sat_cacheGet (alert : SuricataAlert) (key : String) :
    Act.Sat (fun _ _ => True) prepareGuarantee h () (cacheGet cfg key) fun h r _ =>
      ∀ cached, r = .ok (some cached) → ∃ e ∈ h,
        proposal cfg alert e = (cachedDst cached).map fun dst => (reboundSrc alert, dst) := by
  unfold cacheGet
  split_ifs
  · simp only [Act.sat_bind, Act.sat_perform]
    refine ⟨trivial, fun answer _ => ?_⟩
    -- A store that fails, an empty value and a value that is no JSON are all misses.
    cases answer with
    | error e => simp
    | ok raw =>
      simp only
      split_ifs with hraw
      · simp [prepareGuarantee]
      · cases hload : cfg.py.loads (raw.getD "") with
        | none => simp
        | some data =>
          simp only [Act.sat_bind, Act.sat_perform, Act.sat_pure]
          refine ⟨trivial, fun _ _ cached hc => ?_⟩
          simp only [Except.ok.injEq, Option.some.injEq] at hc
          subst hc
          refine ⟨⟨redisGet key, .ok raw⟩, by simp, ?_⟩
          cases raw with
          | none => simp at hraw
          | some text =>
            simp only [Option.getD_some] at hload
            simp [proposal, hload]
  · simp

theorem block_cacheLookup : Block alert (Fresh alert) (cacheLookup cfg) (Looked cfg alert) := by
  unfold cacheLookup
  refine (block_span stable_fresh _).seq (.seq (block_step stable_fresh fun h s hp => ?_)
    (block_updateSpan stable_looked _ _))
  have hmiss : ∀ h key, Looked cfg alert h { s with cacheKey := key, cacheHit := false } :=
    fun _ _ => .inl ⟨rfl, hp.1, hp.2.1, hp.2.2.1, rfl⟩
  unfold nodeCheckResponseCache
  simp only [Act.sat_bind, Act.sat_ofExcept]
  split
  · split
    · refine (sat_cacheGet alert _).mono fun h r _ hr => ?_
      cases r with
      | error e => simp
      | ok found =>
        simp only
        split
        · simpa using hmiss h _
        · simpa using hmiss h _
        · next cached hnull =>
          split
          · simpa using hmiss h _
          · next intent hintent =>
            -- A hit: the source is the alert's, the destination that of the stored value.
            simp only [Act.sat_pure, Except.ok.injEq]
            rintro patch rfl
            rw [hp.1] at hintent
            obtain ⟨hsrc, hdst⟩ := flow_of_rebind hintent
            obtain ⟨e, he, hprop⟩ := hr cached rfl
            refine .inr ⟨rfl, hp.1, hp.2.1, intent, rfl, e, he, ?_⟩
            rw [hprop, hdst, hsrc]
            rfl
    · simp
  · simp

/-! ## The policy decision -/

/-- A text argument that was copied from an object with a default is a text field of the object. -/
theorem text_of_getD {raw fields : List (String × Json)} {key default v : String}
    {required : Option String} (hraw : Field.text raw key required = some v)
    (hkey : Json.lookup key raw = some ((Json.lookup key fields).getD (.str default))) :
    Field.text fields key (some default) = some v := by
  unfold Field.text at hraw ⊢
  rw [hkey] at hraw
  cases hl : Json.lookup key fields with
  | none => simpa [hl] using hraw
  | some x =>
    simp only [hl, Option.getD_some] at hraw
    cases x with
    | str t => simpa using hraw
    | _ => simp at hraw

/-- An answer of the model that becomes an intent proposes its flow. -/
theorem answerFlow_of_proposedIntent {fields : List (String × Json)}
    {notification : UserNotification} {intent : PolicyIntent}
    (h : proposedIntent cfg alert fields notification = .ok intent) :
    answerFlow alert (.ok (.obj fields)) = some (intent.srcIp, intent.dstIp) := by
  unfold proposedIntent at h
  obtain ⟨raw, hraw, hval⟩ := except_bind_eq_ok h
  unfold proposedFields at hraw
  obtain ⟨dstPort, -, hraw⟩ := except_bind_eq_ok hraw
  obtain ⟨priority, -, hraw⟩ := except_bind_eq_ok hraw
  obtain ⟨ttl, -, hraw⟩ := except_bind_eq_ok hraw
  obtain ⟨confidence, -, hraw⟩ := except_bind_eq_ok hraw
  simp only [pure, Except.pure, Except.ok.injEq] at hraw
  obtain ⟨hsrc, hdst, -⟩ := PolicyIntent.validate_eq_ok hval
  have hsrc' : Field.text fields "src_ip" (some alert.srcIp) = some intent.srcIp :=
    text_of_getD hsrc (by subst hraw; rfl)
  have hdst' : Field.text fields "dst_ip" (some "") = some intent.dstIp :=
    text_of_getD hdst (by subst hraw; rfl)
  simp [answerFlow, hsrc', hdst']

/-- The answer to the policy decision is an answer of the model, or there is none. -/
theorem sat_policyAttempts (alert : SuricataAlert) (messages : Messages) (attempts : List ℕ)
    (lastErr : String) :
    Act.Sat (fun _ _ => True) prepareGuarantee h () (policyAttempts messages attempts lastErr)
      fun h r _ => ∀ x, r = .ok x → x.1 = .null ∨
        ∃ e ∈ h, proposal cfg alert e = answerFlow alert (.ok x.1) := by
  induction attempts generalizing h lastErr with
  | nil => simp [policyAttempts]
  | cons attempt rest ih =>
    unfold policyAttempts
    simp only [Act.sat_bind, Act.sat_perform]
    refine ⟨trivial, fun answer _ => ?_⟩
    cases answer with
    | ok result =>
      simp only [Act.sat_pure, Except.ok.injEq]
      rintro x rfl
      exact .inr ⟨⟨chatJson messages "policy_decision", .ok result⟩, by simp, rfl⟩
    | error e =>
      simp only [Act.sat_bind, Act.sat_perform]
      exact ⟨trivial, fun _ _ => ih _⟩

/-- What follows the tool loop keeps to its answer, when it is one of the model. -/
theorem sat_policyFrom {messages : Messages} {react : Except Exc Json}
    (hreact : ∀ result, react = .ok result → result = .null ∨
      ∃ e ∈ h, proposal cfg alert e = answerFlow alert (.ok result)) :
    Act.Sat (fun _ _ => True) prepareGuarantee h () (policyFrom messages react)
      fun h r _ => ∀ x, r = .ok x → x.1 = .null ∨
        ∃ e ∈ h, proposal cfg alert e = answerFlow alert (.ok x.1) := by
  unfold policyFrom
  split
  · exact sat_policyAttempts alert messages _ _
  · exact sat_policyAttempts alert messages _ _
  · simp only [Act.sat_pure, Except.ok.injEq]
    rintro x rfl
    exact hreact _ rfl

/-- The answer of the first stage is an answer of the model, or there is none. -/
theorem sat_policyAnswer (alert : SuricataAlert) (messages : Messages) :
    Act.Sat (fun _ _ => True) prepareGuarantee h () (policyAnswer cfg messages)
      fun h r _ => ∀ x, r = .ok x → x.1 = .null ∨
        ∃ e ∈ h, proposal cfg alert e = answerFlow alert (.ok x.1) := by
  unfold policyAnswer
  split_ifs
  · rw [Act.sat_bind, Act.sat_perform]
    refine ⟨trivial, fun react _ => sat_policyFrom fun result hresult => .inr ?_⟩
    exact ⟨⟨chatReact messages, react⟩, by simp, by rw [hresult]; rfl⟩
  · exact sat_policyFrom fun result hresult => .inl (by simpa using hresult.symm)

/-- The patch of the fourth node rejects the request, or sets a proposed intent. -/
theorem sat_nodeDecidePolicy (hp : Fresh alert h s) :
    Act.Sat (fun _ _ => True) prepareGuarantee h () (nodeDecidePolicy cfg s)
      fun h r _ => ∀ patch, r = .ok patch → Decided cfg alert h (patch s) := by
  have hreject : ∀ h reason checks, Decided cfg alert h (rejectPatch reason checks s) :=
    fun _ _ _ => ⟨hp.1, .inl rfl⟩
  unfold nodeDecidePolicy
  simp only [Act.sat_bind, Act.sat_ofExcept]
  split
  · refine (sat_policyAnswer alert _).mono fun h r _ hr => ?_
    cases r with
    | error e => simp
    | ok x =>
      simp only
      split
      · simpa using hreject h _ _
      · next hnull =>
        unfold decideFrom
        split
        · next fields hfields =>
          simp only [Act.sat_bind, Act.sat_ofExcept]
          split
          · split
            · simpa using hreject h _ _
            · next intent hintent =>
              -- The intent is the model's, and its answer is an event of the history.
              simp only [Act.sat_pure, Except.ok.injEq]
              rintro patch rfl
              rw [hp.1] at hintent
              obtain hx | ⟨e, he, hprop⟩ := hr x rfl
              · exact absurd hx hnull
              · refine ⟨hp.1, .inr ⟨hp.1, hp.2.1, intent, rfl, e, he, ?_⟩⟩
                rw [hprop, hfields]
                exact answerFlow_of_proposedIntent hintent
          · simp
        · simp
  · simp

theorem block_policyDecision :
    Block alert (Looked cfg alert) (policyDecision cfg) (Decided cfg alert) := by
  intro h s hp
  unfold policyDecision
  simp only [Act.sat_bind, Act.sat_get]
  split_ifs with hhit
  · obtain ⟨hmiss, -⟩ | ⟨-, hi⟩ := hp
    · simp [hmiss] at hhit
    · exact ⟨hi.1, .inr hi⟩
  · obtain ⟨-, hf⟩ | ⟨hc, -⟩ := hp
    · exact (block_span stable_fresh _).seq
        (block_step stable_fresh fun h s hp => sat_nodeDecidePolicy hp) h s hf
    · exact absurd hc hhit

/-! ## The validation -/

theorem stable_validated : Stable alert (Validated cfg alert) where
  append h s e hp := hp.imp id fun ⟨sid, intent, hr⟩ =>
    ⟨sid, intent, { hr with proposed := hr.proposed.append _ }⟩
  harmless h s hp := by
    obtain ⟨halert, hout⟩ | ⟨sid, intent, hr⟩ := hp
    · refine ⟨halert, fun hs => ?_⟩
      simp [hs] at hout
    · exact ⟨hr.alert_eq, hr.outcome_ne⟩

/-- The patch of the fifth node ends the request, or leaves it ready. -/
theorem sat_nodeValidateDecision (hp : Intended cfg alert h s) :
    Act.Sat (fun _ _ => True) prepareGuarantee h () (nodeValidateDecision cfg s)
      fun h r _ => ∀ patch, r = .ok patch → Validated cfg alert h (patch s) := by
  obtain ⟨halert, hout, intent, hi, hprop⟩ := hp
  have hend : ∀ o reason checks, some o ∈ [some .rejected, some .held, some .benign] →
      Validated cfg alert h (endPatch o reason checks s) :=
    fun _ _ _ ho => .inl ⟨halert, ho⟩
  unfold nodeValidateDecision
  simp only [hi, Act.sat_bind, Act.sat_ofExcept, halert]
  cases hsid : alert.sid cfg.py with
  | error e => simp
  | ok sid =>
    simp only
    obtain hok | hok := eq_or_ne (validateIntent cfg.py cfg.kb intent.toPolicyRule sid cfg.ttlMin
        cfg.ttlMax alert.srcIp).ok true
    · rw [if_pos hok]
      have hready : ∀ checks,
          (evaluateConfidence intent.confidence cfg.autoEnforce cfg.notify cfg.hold).1 ≠ .hold ∧
            (evaluateConfidence intent.confidence cfg.autoEnforce cfg.notify cfg.hold).1 ≠ .reject →
          Validated cfg alert h { s with safetyChecks := checks } := fun checks hconf =>
        .inr ⟨sid, intent, hsid, halert, by simp [hout], hi, hprop,
          by simpa [ValidationResult.ok] using hok, hconf⟩
      -- Holding and rejecting end the request; the other two go on unless the action only logs.
      cases hconf : (evaluateConfidence intent.confidence cfg.autoEnforce cfg.notify cfg.hold).1
      case hold => simpa using hend .held _ _ (by simp)
      case reject => simpa using hend .rejected _ _ (by simp)
      all_goals
        obtain hlog | hlog := eq_or_ne intent.action .logOnly
        · simpa [hlog] using hend .benign _ _ (by simp)
        · simp only [if_neg hlog, Act.sat_pure, Except.ok.injEq]
          rintro patch rfl
          exact hready _ (by simp [hconf])
    · rw [if_neg hok]
      simpa using hend .rejected _ _ (by simp)

theorem block_validateDecision :
    Block alert (Intended cfg alert) (validateDecision cfg) (Validated cfg alert) := by
  unfold validateDecision
  refine (block_span stable_intended _).seq (.seq
    (block_step stable_intended fun h s hp => sat_nodeValidateDecision hp) fun h s hp => ?_)
  have hh := stable_validated.harmless _ _ hp
  unfold updateSpan
  simp only [Act.sat_bind, Act.sat_get, Act.sat_ofExcept, Act.sat_orRaise, Act.sat_perform]
  split
  · split
    · refine ⟨trivial, fun answer _ => ?_⟩
      cases answer with
      | ok _ => exact stable_validated.append _ _ _ hp
      | error e => exact hh
    · exact hh
  · exact hh

/-! ## Up to the fork -/

/-- A request that goes on to the fork is ready for it, and no request has called the backend
before. -/
theorem sat_prepare (traceId : String) :
    Act.Sat (fun _ _ => True) prepareGuarantee [] { alert, traceId } (prepare cfg)
      fun h r s => Harmless alert s ∧
        (r = .ok true → ∃ sid intent, Ready cfg alert sid h s intent) := by
  have herr : ∀ (h : List AgentEvent) (s : AgentState) (e : Exc), Harmless alert s →
      Harmless alert s ∧ ((.error e : Except Exc Bool) = .ok true →
        ∃ sid intent, Ready cfg alert sid h s intent) :=
    fun _ _ _ hh => ⟨hh, by simp⟩
  -- The nodes one after the other, each starting from what the one before it established.
  unfold prepare
  refine block_loadContext.andThen (fun h s hp => ?_) herr ⟨rfl, rfl, rfl, rfl⟩
  refine block_classifyAlert.andThen (fun h s hp => ?_) herr hp
  simp only [Act.sat_bind, Act.sat_get]
  split_ifs with hbenign
  · simp [nodeLogAndEnd, Harmless, hp.1]
  · refine block_gatherContext.andThen (fun h s hp => ?_) herr hp
    refine block_cacheLookup.andThen (fun h s hp => ?_) herr hp
    refine block_policyDecision.andThen (fun h s hp => ?_) herr hp
    simp only [Act.sat_bind, Act.sat_get]
    split_ifs with hout
    · have hne : s.outcome ≠ some .enforced := fun hs => by simp [hs] at hout
      simpa using ⟨hp.1, hne⟩
    · have hi : Intended cfg alert h s := by
        obtain ⟨-, hrej | hi⟩ := hp
        · simp [hrej] at hout
        · exact hi
      refine block_validateDecision.andThen (fun h s hp => ?_) herr hi
      simp only [Act.sat_bind, Act.sat_get, Act.sat_pure]
      refine ⟨stable_validated.harmless _ _ hp, fun htrue => ?_⟩
      obtain ⟨-, hend⟩ | hready := hp
      · simp [hend] at htrue
      · exact hready

end

end ControlPlane.Intel
