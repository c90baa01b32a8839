import ControlPlane.Intel.Gate

/-!
# The template that a request stores

After a successful enforcement, the task of the enforcement reads the intent once more and stores it
as the template for later alerts. The task of the reasoning writes its fields into the same object
when the model has answered. Neither waits for the other, so what is stored has the fields exactly
when they were written before that read (`stored_reasoning_iff`).
-/

namespace ControlPlane.Intel

open Text AgentOp

/-- The fork stores a template: the task of the enforcement reads it after the events `before`, and
its next calls are for the time and for the store. -/
def Stores (cfg : AgentConfig) (l before : List (Task × AgentEvent)) (payload : String)
    (template : PolicyIntent) : Prop :=
  ∃ now key ttl a rest h, l = before ++ (.enforce, ⟨readIntent, template⟩) :: rest ∧
    proj .enforce rest = ⟨nowIso, now⟩ :: ⟨redisSet key payload ttl, a⟩ :: h ∧
    payload = cachePayload cfg.py template now

/-! ## The tasks -/

/-- What each task guarantees about the template: the enforcement stores what it has just read, and
the reasoning writes its fields once, and before it reports that it is complete. -/
def templateGuarantee (cfg : AgentConfig) : Task → List AgentEvent → AgentOp → Prop
  | .enforce, h, redisSet _ payload _ =>
    ∃ h' template now, h = h' ++ [⟨readIntent, template⟩, ⟨nowIso, now⟩] ∧
      payload = cachePayload cfg.py template now
  | .enforce, _, setReasoning _ | .enforce, _, patchReasoning _ _ => False
  | .reasoning, _, redisSet _ _ _ => False
  | .reasoning, h, setReasoning _ => h.filterMap assigned = []
  | .reasoning, h, patchReasoning complete _ => complete = true → h.filterMap assigned ≠ []
  | _, _, _ => True

section

variable {cfg : AgentConfig} {R : List AgentEvent → AgentEvent → Prop} {h : List AgentEvent}

/-- `response_cache.set` stores what it reads. -/
theorem sat_template_cacheSet (key : String) :
    Act.Sat R (templateGuarantee cfg .enforce) h () (cacheSet cfg key) fun _ _ _ => True := by
  unfold cacheSet
  split_ifs
  · simp only [Act.sat_bind, Act.sat_perform]
    exact ⟨trivial, fun template _ => ⟨trivial, fun now _ =>
      ⟨⟨h, template, now, by simp, rfl⟩, fun _ _ => trivial⟩⟩⟩
  · simp

/-- The enforcement behind the safety layers stores what it has just read. -/
theorem sat_template_enforceLive (checks : List (String × Json)) :
    Act.Sat R (templateGuarantee cfg .enforce) h () (enforceLive cfg checks) fun _ _ _ => True := by
  unfold enforceLive
  simp only [Act.sat_bind, Act.sat_perform]
  refine ⟨trivial, fun intent _ => ⟨trivial, fun answer _ => ?_⟩⟩
  cases answer with
  | error e => simp [templateGuarantee]
  | ok result =>
    simp only
    split_ifs
    · simp only [Act.sat_bind, Act.sat_perform]
      refine ⟨trivial, fun _ _ => ⟨trivial, fun _ _ => ⟨trivial, fun state _ => ?_⟩⟩⟩
      split_ifs
      · rw [Act.sat_bind]
        refine (sat_template_cacheSet _).mono fun h r _ _ => ?_
        cases r with
        | error e => trivial
        | ok _ => simp [templateGuarantee]
      · simp [templateGuarantee]
    · simp [templateGuarantee]

/-- The task of the enforcement stores what it has just read. -/
theorem sat_template_enforcePath :
    Act.Sat R (templateGuarantee cfg .enforce) h () (enforcePath cfg) fun _ _ _ => True := by
  unfold enforcePath enforceDecision
  simp only [Act.sat_bind, Act.sat_orRaise, Act.sat_perform]
  refine ⟨trivial, fun answer _ => ?_⟩
  cases answer with
  | error e => trivial
  | ok _ =>
    refine ⟨trivial, fun state _ => ?_⟩
    cases state.intent with
    | none => simp
    | some intent =>
      by_cases hdrop : intent.action = .drop
      · simp only [if_pos hdrop, Act.sat_bind, Act.sat_perform]
        refine ⟨trivial, fun b _ => ?_⟩
        by_cases hopen : (b.1.isOpen b.2.1 b.2.2).1 = true
        · simp [hopen, turnDown, templateGuarantee]
        · simp only [if_neg hopen, Act.sat_bind, Act.sat_perform]
          refine ⟨trivial, fun r _ => ?_⟩
          cases (r.1.checkAndConsume r.2 intent.srcIp).1 with
          | some rlError => simp [turnDown, templateGuarantee]
          | none =>
            simp only
            split_ifs
            · simp [templateGuarantee]
            · exact sat_template_enforceLive _
      · simp [hdrop]

/-- The task of the reasoning writes its fields once, and before it reports that it is complete. -/
theorem sat_template_reasoningPath :
    Act.Sat R (templateGuarantee cfg .reasoning) [] () (reasoningPath cfg) fun _ _ _ => True := by
  unfold reasoningPath collectReasoning
  simp only [Act.sat_bind, Act.sat_perform]
  refine ⟨trivial, fun state _ => ?_⟩
  split_ifs
  · simp
  · simp only [Act.sat_bind, Act.sat_orRaise, Act.sat_perform]
    refine ⟨trivial, fun answer _ => ?_⟩
    cases answer with
    | error e => trivial
    | ok _ =>
      refine ⟨trivial, fun state' _ => ?_⟩
      cases state'.intent with
      | none => simp
      | some intent =>
        simp only [Act.sat_bind, Act.sat_ofExcept]
        split
        · refine (sat_reasoningAttempts (fun _ _ _ => trivial) (fun _ _ => trivial) _ _ _).mono
            fun h r s hr => ?_
          -- Nothing is written up to the answer of the model.
          have hnone : h.filterMap assigned = [] := by
            rw [hr]
            simp [assigned]
          cases r with
          | error e => trivial
          | ok x =>
            simp only
            split
            · simp only [Act.sat_bind, Act.sat_ofExcept, Act.sat_perform]
              split
              · refine ⟨hnone, fun _ _ => ⟨fun _ => ?_, fun _ _ => trivial⟩⟩
                simp [assigned]
              · trivial
            · simp [templateGuarantee]
        · trivial

end

/-! ## The fork -/

/-- The invariant of the fork: the intent has the reasoning that was written, or the one it had. -/
def TemplateInv (reasoning₀ : Reasoning) (hist : Task → List AgentEvent) (s : AgentState) : Prop :=
  ((hist .reasoning).filterMap assigned).length ≤ 1 ∧
    ∃ intent, s.intent = some intent ∧
      intent.reasoning = ((hist .reasoning).filterMap assigned).head?.getD reasoning₀

/-- Each task meets its guarantee about the template. -/
theorem sat_template_tasks (cfg : AgentConfig) (t : Task) :
    Prog.Sat (fun _ _ => True) (templateGuarantee cfg t) (fun _ _ => True) [] (tasks cfg t) := by
  cases t with
  | enforce => exact sat_template_enforcePath
  | reasoning => exact sat_template_reasoningPath

/-- An event writes a reasoning, or it leaves the intent as it is. -/
theorem setReasoning_or_intent_eq (e : AgentEvent) :
    (∃ reasoning, e = ⟨setReasoning reasoning, ()⟩) ∨
      (assigned e = none ∧ ∀ t s, (agentMemory.next t s e).intent = s.intent) := by
  obtain ⟨op, a⟩ := e
  cases op
  case setReasoning reasoning => exact .inl ⟨reasoning, rfl⟩
  all_goals exact .inr ⟨rfl, fun _ _ => rfl⟩

/-- Every event of the fork keeps its invariant. -/
theorem templateInv_step {cfg : AgentConfig} {reasoning₀ : Reasoning}
    (hist : Task → List AgentEvent) (s : AgentState) (t : Task) (e : AgentEvent)
    (hJ : TemplateInv reasoning₀ hist s) (hG : templateGuarantee cfg t (hist t) e.op)
    (_ha : agentMemory.answers t s e) :
    True ∧ TemplateInv reasoning₀ (Function.update hist t (hist t ++ [e]))
      (agentMemory.next t s e) := by
  refine ⟨trivial, ?_⟩
  obtain ⟨hlen, intent, hi, hr⟩ := hJ
  cases t with
  | enforce =>
    -- Its events are not those that the invariant counts, and none of them writes a reasoning.
    unfold TemplateInv
    rw [Function.update_of_ne (by simp)]
    rcases setReasoning_or_intent_eq e with ⟨reasoning, rfl⟩ | ⟨-, hnext⟩
    · exact hG.elim
    · exact ⟨hlen, intent, by rw [hnext, hi], hr⟩
  | reasoning =>
    unfold TemplateInv
    rw [Function.update_self, List.filterMap_append]
    rcases setReasoning_or_intent_eq e with ⟨reasoning, rfl⟩ | ⟨hnone, hnext⟩
    · -- The first reasoning that is written becomes the one of the intent.
      have hbefore : (hist .reasoning).filterMap assigned = [] := hG
      rw [hbefore]
      exact ⟨by simp [assigned], { intent with reasoning }, by simp [agentMemory, hi],
        by simp [assigned]⟩
    · rw [List.filterMap_cons_none hnone, List.filterMap_nil, List.append_nil]
      exact ⟨hlen, intent, by rw [hnext, hi], hr⟩

/-- An assignment among the events of the reasoning is an event of the fork. -/
theorem mem_of_assigned {l : List (Task × AgentEvent)} {reasoning : Reasoning} :
    reasoning ∈ (proj .reasoning l).filterMap assigned ↔
      (.reasoning, ⟨setReasoning reasoning, ()⟩) ∈ l := by
  rw [List.mem_filterMap]
  constructor
  · rintro ⟨e, he, hassign⟩
    unfold assigned at hassign
    split at hassign
    · simp only [Option.some.injEq] at hassign
      subst hassign
      simpa [proj] using he
    · simp at hassign
  · intro hmem
    exact ⟨⟨setReasoning reasoning, ()⟩, by simpa [proj] using hmem, rfl⟩

section

variable {cfg : AgentConfig} {s : AgentState} {intent : PolicyIntent}
  {l : List (Task × AgentEvent)} {q : Task → Except Exc Unit × Unit}

/-- What is stored was read by the task of the enforcement just before. -/
theorem exists_stores (hi : s.intent = some intent)
    (hfork : Interleaving (tasks cfg) l fun t => .ret (q t)) (hv : agentMemory.Valid s l)
    {t : Task} {key payload : String} {ttl : ℤ} {a : Except Exc Unit}
    (hset : (t, ⟨redisSet key payload ttl, a⟩) ∈ l) :
    ∃ before template, Stores cfg l before payload template := by
  obtain ⟨l₁, l₂, rfl⟩ := List.append_of_mem hset
  have hJ₀ : TemplateInv intent.reasoning (fun _ => []) s := ⟨by simp, intent, hi, rfl⟩
  obtain ⟨hG, -⟩ := Interleaving.guarantee (sat_template_tasks cfg) hJ₀ templateInv_step hfork hv
  cases t with
  | reasoning => exact hG.elim
  | enforce =>
    obtain ⟨h', template, now, hh, hpayload⟩ := hG
    obtain ⟨k₁, k₂, rfl, -, hrest⟩ := exists_of_proj hh
    refine ⟨k₁, template, now, key, ttl, a,
      k₂ ++ (.enforce, ⟨redisSet key payload ttl, a⟩) :: l₂, proj .enforce l₂, by simp, ?_,
      hpayload⟩
    rw [proj_append, hrest]
    simp [proj]

/-- A template has the reasoning that was written before it was read, or the one of the intent at
the fork when none was. -/
theorem reasoning_of_stores (hi : s.intent = some intent)
    (hfork : Interleaving (tasks cfg) l fun t => .ret (q t)) (hv : agentMemory.Valid s l)
    {before : List (Task × AgentEvent)} {payload : String} {template : PolicyIntent}
    (hs : Stores cfg l before payload template) {reasoning : Reasoning}
    (hr : (.reasoning, ⟨setReasoning reasoning, ()⟩) ∈ l) :
    template.reasoning = reasoning ↔
      (.reasoning, ⟨setReasoning reasoning, ()⟩) ∈ before ∨ intent.reasoning = reasoning := by
  obtain ⟨now, key, ttl, a, rest, h, rfl, -, -⟩ := hs
  have hJ₀ : TemplateInv intent.reasoning (fun _ => []) s := ⟨by simp, intent, hi, rfl⟩
  -- The reasoning is written once in the whole fork.
  obtain ⟨⟨hone, -⟩, -⟩ :=
    Interleaving.coupled (sat_template_tasks cfg) hJ₀ templateInv_step hfork hv
  have hall : (proj .reasoning
      (before ++ (.enforce, ⟨readIntent, template⟩) :: rest)).filterMap assigned = [reasoning] := by
    obtain ⟨x, hx⟩ := List.length_eq_one_iff.mp
      (le_antisymm hone (List.length_pos_of_mem (mem_of_assigned.mpr hr)))
    have hmem := mem_of_assigned.mpr hr
    rw [hx] at hmem ⊢
    rw [List.mem_singleton.mp hmem]
  -- The template is the intent in the memory after the events before the read.
  obtain ⟨-, -, i, hmem, hread⟩ :=
    Interleaving.guarantee (sat_template_tasks cfg) hJ₀ templateInv_step hfork hv
  obtain ⟨-, hanswer, -⟩ := agentMemory.valid_append.mp hv
  obtain rfl : template = i := hanswer i hmem
  rw [hread, ← mem_of_assigned]
  rw [proj_append, List.filterMap_append, List.append_eq_singleton_iff] at hall
  obtain ⟨hnone, -⟩ | ⟨hwritten, -⟩ := hall
  · simp [hnone]
  · simp [hwritten]

/-- In a request whose reasoning completes, what is stored has the completed reasoning exactly when
the reasoning was written before the intent was read for the store, or when the intent had that
reasoning all along. -/
theorem stored_reasoning_iff {alert : SuricataAlert} {traceId : String} {h : List AgentEvent}
    (hrun : Prog.Runs (prepare cfg { alert, traceId }) h (.ok true, s))
    (hfork : Interleaving (tasks cfg) l fun t => .ret (q t)) (hv : agentMemory.Valid s l)
    {t t' : Task} {key payload error : String} {ttl : ℤ} {a : Except Exc Unit}
    (hset : (t, ⟨redisSet key payload ttl, a⟩) ∈ l)
    (hcomplete : (t', ⟨patchReasoning true error, ()⟩) ∈ l) :
    ∃ reasoning, (.reasoning, ⟨setReasoning reasoning, ()⟩) ∈ l ∧
      ∃ before template, Stores cfg l before payload template ∧
        (template.reasoning = reasoning ↔
          (.reasoning, ⟨setReasoning reasoning, ()⟩) ∈ before ∨
            s.intent.map PolicyIntent.reasoning = some reasoning) := by
  obtain ⟨-, hready⟩ := post_of_prepare hrun
  obtain ⟨sid, intent, hi⟩ := hready rfl
  have hJ₀ : TemplateInv intent.reasoning (fun _ => []) s := ⟨by simp, intent, hi.intent_eq, rfl⟩
  obtain ⟨l₁, l₂, rfl⟩ := List.append_of_mem hcomplete
  obtain ⟨hG, -⟩ := Interleaving.guarantee (sat_template_tasks cfg) hJ₀ templateInv_step hfork hv
  cases t' with
  | enforce => exact hG.elim
  | reasoning =>
    -- It reports that it is complete only after it has written a reasoning.
    obtain ⟨reasoning, hmem⟩ := List.exists_mem_of_ne_nil _ (hG rfl)
    have hr := List.mem_append_left ((Task.reasoning, ⟨patchReasoning true error, ()⟩) :: l₂)
      (mem_of_assigned.mp hmem)
    obtain ⟨before, template, hs⟩ := exists_stores hi.intent_eq hfork hv hset
    refine ⟨reasoning, hr, before, template, hs, ?_⟩
    rw [reasoning_of_stores hi.intent_eq hfork hv hs hr, hi.intent_eq]
    simp

end

/-! ## A run in which the enforcement is faster -/

/-- What the agent calls answers, when the model explains a rule with one step. -/
def tracedOracle : (op : AgentOp) → AgentAns op
  | chatJson _ schema =>
    if schema = "reasoning_trace" then .ok (.obj [("reasoning_steps", .ofTexts ["port scan"])])
    else .ok (dropAnswer "10.1.100.10/32" "")
  | op => plainOracle "10.1.100.10/32" "" op

/-- The part of the request before the fork. -/
def tracedPrepare : List AgentEvent × (Except Exc Bool × AgentState) :=
  Prog.run (fun _ => tracedOracle) []
    (prepare plainAgent { alert := plainAlert "10.1.100.10", traceId := "" })

/-- The fork, when the enforcement is done before the reasoning starts. -/
def tracedFork : List (Task × AgentEvent) := forkEvents plainAgent tracedOracle tracedPrepare.2.2

/-- An event that stores a template. -/
def isStore : AgentEvent → Bool
  | ⟨redisSet _ _ _, _⟩ => true
  | _ => false

/-- An event that reports a complete reasoning. -/
def isComplete : AgentEvent → Bool
  | ⟨patchReasoning complete _, _⟩ => complete
  | _ => false

/-- Whether a reasoning has no steps. -/
def Reasoning.isBare (r : Reasoning) : Bool :=
  match r.reasoningSteps with
  | .arr items => items.isEmpty
  | _ => false

/-- An event that reads an intent without steps, or no read; and writes no reasoning without steps. -/
def readsBare : AgentEvent → Bool
  | ⟨readIntent, intent⟩ => intent.reasoning.isBare
  | ⟨setReasoning reasoning, _⟩ => !reasoning.isBare
  | _ => true

/-- The fork of the run is one of a request that stores a template and completes its reasoning. -/
theorem tracedFork_spec :
    Prog.Runs (prepare plainAgent { alert := plainAlert "10.1.100.10", traceId := "" })
        tracedPrepare.1 (.ok true, tracedPrepare.2.2) ∧
      (∃ q : Task → Except Exc Unit × Unit,
        Interleaving (tasks plainAgent) tracedFork fun t => .ret (q t)) ∧
      agentMemory.Valid tracedPrepare.2.2 tracedFork ∧
      (∃ t key payload ttl a, (t, ⟨redisSet key payload ttl, a⟩) ∈ tracedFork) ∧
      ∃ t error, (t, ⟨patchReasoning true error, ()⟩) ∈ tracedFork := by
  obtain ⟨hvalid, hfork⟩ := interleaving_forkEvents plainAgent tracedOracle tracedPrepare.2.2
  refine ⟨?_, hfork, hvalid, ?_, ?_⟩
  · have hruns := (Prog.runs_const tracedOracle
      (prepare plainAgent { alert := plainAlert "10.1.100.10", traceId := "" })).1
    have hok : tracedPrepare.2.1 = .ok true := by decide +kernel
    rw [← hok]
    exact hruns
  · have hany : (tracedFork.any fun x => isStore x.2) = true := by decide +kernel
    obtain ⟨⟨t, e⟩, hmem, he⟩ := List.any_eq_true.mp hany
    obtain ⟨op, a⟩ := e
    cases op
    case redisSet key payload ttl => exact ⟨t, key, payload, ttl, a, hmem⟩
    all_goals simp [isStore] at he
  · have hany : (tracedFork.any fun x => isComplete x.2) = true := by decide +kernel
    obtain ⟨⟨t, e⟩, hmem, he⟩ := List.any_eq_true.mp hany
    obtain ⟨op, a⟩ := e
    cases op
    case patchReasoning complete error =>
      obtain rfl : complete = true := he
      exact ⟨t, error, hmem⟩
    all_goals simp [isComplete] at he

/-- The run stores a template, whose reasoning is decided by the order of the events. -/
theorem stored_reasoning_iff_traced :
    ∃ reasoning before payload template,
      (.reasoning, ⟨setReasoning reasoning, ()⟩) ∈ tracedFork ∧
      Stores plainAgent tracedFork before payload template ∧
      (template.reasoning = reasoning ↔
        (.reasoning, ⟨setReasoning reasoning, ()⟩) ∈ before ∨
          tracedPrepare.2.2.intent.map PolicyIntent.reasoning = some reasoning) := by
  obtain ⟨hrun, ⟨q, hfork⟩, hvalid, ⟨t, key, payload, ttl, a, hset⟩, t', error, hcomplete⟩ :=
    tracedFork_spec
  obtain ⟨reasoning, hr, before, template, hs, hiff⟩ :=
    stored_reasoning_iff hrun hfork hvalid hset hcomplete
  exact ⟨reasoning, before, payload, template, hr, hs, hiff⟩

/-- When the enforcement is done before the model has answered, the template has no reasoning. -/
theorem exists_stored_without_reasoning :
    ¬ ∀ (cfg : AgentConfig) (alert : SuricataAlert) (traceId : String) (h : List AgentEvent)
      (s : AgentState) (l : List (Task × AgentEvent)) (q : Task → Except Exc Unit × Unit)
      (t : Task) (error : String),
      Prog.Runs (prepare cfg { alert, traceId }) h (.ok true, s) →
      Interleaving (tasks cfg) l (fun t => .ret (q t)) → agentMemory.Valid s l →
      (t, ⟨patchReasoning true error, ()⟩) ∈ l →
      ∀ before payload template reasoning, Stores cfg l before payload template →
        (.reasoning, ⟨setReasoning reasoning, ()⟩) ∈ l → template.reasoning = reasoning := by
  intro hall
  obtain ⟨hrun, ⟨q, hfork⟩, hvalid, ⟨t, key, payload, ttl, a, hset⟩, t', error, hcomplete⟩ :=
    tracedFork_spec
  obtain ⟨-, hready⟩ := post_of_prepare hrun
  obtain ⟨sid, intent, hi⟩ := hready rfl
  obtain ⟨before, template, hs⟩ := exists_stores hi.intent_eq hfork hvalid hset
  obtain ⟨reasoning, hr⟩ : ∃ reasoning, (.reasoning, ⟨setReasoning reasoning, ()⟩) ∈ tracedFork := by
    have hlen : ((proj .reasoning tracedFork).filterMap assigned).length = 1 := by
      decide +kernel
    obtain ⟨reasoning, hone⟩ := List.length_eq_one_iff.mp hlen
    exact ⟨reasoning, mem_of_assigned.mp (by rw [hone]; simp)⟩
  have heq := hall _ _ _ _ _ _ q t' error hrun hfork hvalid hcomplete before payload template
    reasoning hs hr
  -- Every read of the intent finds no steps, and the reasoning that is written has one.
  have hbare : (tracedFork.all fun x => readsBare x.2) = true := by decide +kernel
  obtain ⟨now, key, ttl, a, rest, h, hl, -⟩ := hs
  have hread := List.all_eq_true.mp hbare (.enforce, ⟨readIntent, template⟩) (by rw [hl]; simp)
  have hwritten := List.all_eq_true.mp hbare _ hr
  simp only [readsBare] at hread hwritten
  rw [heq] at hread
  rw [hread] at hwritten
  simp at hwritten

end ControlPlane.Intel
