import ControlPlane.Intel.Graph

/-!
# The fork

The two tasks of the final fork, each verified on its own and then side by side. The enforcement
calls the backend at most once, behind the circuit breaker and the rate limiter, and writes the
outcome; the reasoning does neither. The invariant that couples them (`ForkInv`) is that the
reasoning changes no field of the rule, so that what the enforcement reads is what was validated.
-/

namespace ControlPlane.Intel

open Text AgentOp

/-! ## What an event says -/

/-- A call to the backend. -/
def isEnforce : AgentEvent → Bool
  | ⟨enforce _, _⟩ => true
  | _ => false

/-- A call to the backend that returned success. -/
def succeeded : AgentEvent → Bool
  | ⟨enforce _, .ok result⟩ => result.success
  | _ => false

/-- A circuit breaker that answered closed. -/
def answeredClosed : AgentEvent → Bool
  | ⟨breakerIsOpen, (b, now, now')⟩ => !(b.isOpen now now').1
  | _ => false

/-- A call of the rate limiter for a source that was accepted. -/
def slotTaken (srcIp : String) : AgentEvent → Bool
  | ⟨checkAndConsume ip, (r, now)⟩ => ip == srcIp && (r.checkAndConsume now ip).1.isNone
  | _ => false

/-- The outcome that an event writes. -/
def written : AgentEvent → Option DecisionOutcome
  | ⟨setOutcome o, _⟩ => some o
  | _ => none

/-- The reasoning that an event writes into the intent. -/
def assigned : AgentEvent → Option Reasoning
  | ⟨setReasoning reasoning, _⟩ => some reasoning
  | _ => none

/-- Some event of a history has a property. -/
def seen (p : AgentEvent → Bool) (h : List AgentEvent) : Bool := h.any p

@[simp] theorem seen_nil (p : AgentEvent → Bool) : seen p [] = false := rfl

@[simp] theorem seen_cons (p : AgentEvent → Bool) (e : AgentEvent) (h : List AgentEvent) :
    seen p (e :: h) = (p e || seen p h) := List.any_cons

@[simp] theorem seen_append (p : AgentEvent → Bool) (h h' : List AgentEvent) :
    seen p (h ++ h') = (seen p h || seen p h') := List.any_append

/-- The outcome written last. -/
def lastOutcome : List AgentEvent → Option DecisionOutcome
  | [] => none
  | e :: h => (lastOutcome h).or (written e)

@[simp] theorem lastOutcome_nil : lastOutcome [] = none := rfl

@[simp] theorem lastOutcome_cons (e : AgentEvent) (h : List AgentEvent) :
    lastOutcome (e :: h) = (lastOutcome h).or (written e) := rfl

@[simp] theorem lastOutcome_append (h h' : List AgentEvent) :
    lastOutcome (h ++ h') = (lastOutcome h').or (lastOutcome h) := by
  induction h with
  | nil => simp
  | cons e h ih => simp [ih, Option.or_assoc]

/-- Only a call to the backend can succeed. -/
theorem seen_succeeded_of_seen_isEnforce {h : List AgentEvent} (hn : seen isEnforce h = false) :
    seen succeeded h = false := by
  unfold seen at hn ⊢
  rw [List.any_eq_false] at hn ⊢
  intro e he hs
  apply hn e he
  unfold succeeded at hs
  split at hs
  · rfl
  · simp at hs

/-! ## The task of the enforcement -/

/-- What one task relies on: the rule of the intent stays what it was at the fork. -/
def taskRely (rule : PolicyRule) (_ : List AgentEvent) : AgentEvent → Prop
  | ⟨readState, a⟩ => a.intent.map PolicyIntent.toPolicyRule = some rule
  | ⟨readIntent, a⟩ => a.toPolicyRule = rule
  | _ => True

/-- What the task of the enforcement guarantees of its calls. -/
def enforceGuarantee (cfg : AgentConfig) (rule : PolicyRule) (h : List AgentEvent) :
    AgentOp → Prop
  | .enforce intent => intent.toPolicyRule = rule ∧ rule.action = .drop ∧ cfg.dryRun = false ∧
      seen isEnforce h = false ∧ seen answeredClosed h = true ∧
      seen (slotTaken rule.srcIp) h = true
  | _ => True

/-- How the task of the enforcement ends: enforced exactly when the backend returned success. -/
def EnforcePost (h : List AgentEvent) : Prop :=
  lastOutcome h = some .enforced ↔ seen succeeded h = true

section

variable {cfg : AgentConfig} {rule : PolicyRule} {h : List AgentEvent}

/-- A request that is turned down ends rejected, without a call to the backend. -/
theorem sat_turnDown (hn : seen isEnforce h = false) (reason : String)
    (checks : List (String × Json)) :
    Act.Sat (taskRely rule) (enforceGuarantee cfg rule) h () (turnDown reason checks)
      fun h _ _ => EnforcePost h := by
  have hs := seen_succeeded_of_seen_isEnforce hn
  unfold turnDown
  simp [enforceGuarantee, EnforcePost, written, succeeded, hs]

/-- Writing the checks leaves the outcome and the calls to the backend as they are. -/
theorem sat_setSafetyChecks (hp : EnforcePost h) (checks : List (String × Json)) :
    Act.Sat (taskRely rule) (enforceGuarantee cfg rule) h ()
      (Act.perform (setSafetyChecks checks) : CallM Unit) fun h _ _ => EnforcePost h := by
  unfold EnforcePost at hp
  simp [enforceGuarantee, EnforcePost, written, succeeded, hp]

/-- Storing the template leaves the outcome and the calls to the backend as they are. -/
theorem sat_cacheSet (hp : EnforcePost h) (key : String) :
    Act.Sat (taskRely rule) (enforceGuarantee cfg rule) h () (cacheSet cfg key)
      fun h r _ => r = .ok () ∧ EnforcePost h := by
  unfold EnforcePost at hp
  unfold cacheSet
  split_ifs
  · simp [enforceGuarantee, EnforcePost, written, succeeded, hp]
  · simpa [EnforcePost] using hp

/-- Behind the safety layers, the outcome is enforced exactly when the backend returned success. -/
theorem sat_enforceLive (hn : seen isEnforce h = false) (hdrop : rule.action = .drop)
    (hdry : cfg.dryRun = false) (hb : seen answeredClosed h = true)
    (hr : seen (slotTaken rule.srcIp) h = true) (checks : List (String × Json)) :
    Act.Sat (taskRely rule) (enforceGuarantee cfg rule) h () (enforceLive cfg checks)
      fun h _ _ => EnforcePost h := by
  have hs := seen_succeeded_of_seen_isEnforce hn
  unfold enforceLive
  simp only [Act.sat_bind, Act.sat_perform]
  -- Every layer has left its event in the history before the call.
  refine ⟨trivial, fun intent hintent => ⟨?_, fun answer _ => ?_⟩⟩
  · exact ⟨hintent, hdrop, hdry, by simp [hn, isEnforce], by simp [hb], by simp [hr]⟩
  · cases answer with
    | error e => simp [enforceGuarantee, EnforcePost, written, succeeded, hs]
    | ok result =>
      simp only
      split_ifs with hok
      · simp only [Act.sat_bind, Act.sat_perform]
        refine ⟨trivial, fun _ _ => ⟨trivial, fun _ _ => ⟨trivial, fun state _ => ?_⟩⟩⟩
        -- The success and the outcome are both in the history; what comes after changes neither.
        generalize hh : h ++ _ ++ _ ++ _ ++ _ ++ _ = h'
        have hpost : EnforcePost h' := by
          rw [← hh]
          simp [EnforcePost, written, succeeded, hok]
        split_ifs
        · rw [Act.sat_bind]
          refine (sat_cacheSet hpost _).mono fun h' r _ hr => ?_
          rw [hr.1]
          exact sat_setSafetyChecks hr.2 _
        · exact sat_setSafetyChecks hpost _
      · simp [enforceGuarantee, EnforcePost, written, succeeded, hs, hok]

/-- `_enforce` calls the backend only behind the safety layers. -/
theorem sat_enforceDecision (hn : seen isEnforce h = false) (hnone : lastOutcome h = none) :
    Act.Sat (taskRely rule) (enforceGuarantee cfg rule) h () (enforceDecision cfg)
      fun h _ _ => EnforcePost h := by
  have hs := seen_succeeded_of_seen_isEnforce hn
  unfold enforceDecision
  simp only [Act.sat_bind, Act.sat_perform]
  refine ⟨trivial, fun state hstate => ?_⟩
  simp only [taskRely] at hstate
  cases hi : state.intent with
  | none => simp [hi] at hstate
  | some intent =>
    have hrule : intent.toPolicyRule = rule := by simpa [hi] using hstate
    -- The layers in the order of the source: the action, the breaker, the limiter, the dry run.
    by_cases hdrop : intent.action = .drop
    · simp only [if_pos hdrop, Act.sat_bind, Act.sat_perform]
      refine ⟨trivial, fun b _ => ?_⟩
      by_cases hopen : (b.1.isOpen b.2.1 b.2.2).1 = true
      · rw [if_pos hopen]
        exact sat_turnDown (by simp [hn, isEnforce]) _ _
      · simp only [if_neg hopen, Act.sat_bind, Act.sat_perform]
        refine ⟨trivial, fun r _ => ?_⟩
        cases hslot : (r.1.checkAndConsume r.2 intent.srcIp).1 with
        | some rlError => exact sat_turnDown (by simp [hn, isEnforce]) _ _
        | none =>
          simp only
          split_ifs with hdry
          · simp [enforceGuarantee, EnforcePost, written, succeeded, hs]
          · subst hrule
            refine sat_enforceLive (by simp [hn, isEnforce]) hdrop (by simpa using hdry) ?_ ?_ _
            · simp [answeredClosed, hopen]
            · simp [slotTaken, hslot]
    · simp [if_neg hdrop, EnforcePost, written, succeeded, hs, hnone]

/-- The task of the enforcement calls the backend only behind the safety layers. -/
theorem sat_enforcePath :
    Act.Sat (taskRely rule) (enforceGuarantee cfg rule) [] () (enforcePath cfg)
      fun h _ _ => EnforcePost h := by
  unfold enforcePath
  simp only [Act.sat_bind, Act.sat_orRaise, Act.sat_perform]
  refine ⟨trivial, fun answer _ => ?_⟩
  cases answer with
  | error e => simp [EnforcePost, written, succeeded]
  | ok _ => exact sat_enforceDecision (by simp [isEnforce]) (by simp [written])

/-! ## The task of the reasoning -/

/-- What the task of the reasoning guarantees: it neither calls the backend nor writes the
outcome. -/
def reasoningGuarantee (_ : List AgentEvent) : AgentOp → Prop
  | .enforce _ | setOutcome _ => False
  | _ => True

/-- The attempts at a reasoning trace only call the model and wait. -/
theorem sat_reasoningAttempts {R : List AgentEvent → AgentEvent → Prop}
    {G : List AgentEvent → AgentOp → Prop} (hchat : ∀ h messages schema, G h (chatJson messages schema))
    (hsleep : ∀ h halves, G h (sleep halves)) (messages : Messages) (n : ℕ) (lastErr : String) :
    Act.Sat R G h () (reasoningAttempts messages n lastErr)
      fun h' _ _ => h'.filterMap assigned = h.filterMap assigned := by
  induction n generalizing h lastErr with
  | zero => simp [reasoningAttempts]
  | succ n ih =>
    unfold reasoningAttempts
    simp only [Act.sat_bind, Act.sat_perform]
    refine ⟨hchat _ _ _, fun answer _ => ?_⟩
    cases answer with
    | ok result => simp [assigned]
    | error e =>
      simp only [Act.sat_bind, Act.sat_perform]
      refine ⟨hsleep _ _, fun _ _ => (ih _).mono fun h' _ _ hr => ?_⟩
      rw [hr]
      simp [assigned]

/-- The second stage neither calls the backend nor writes the outcome. -/
theorem sat_collectReasoning :
    Act.Sat (fun _ _ => True) reasoningGuarantee h () (collectReasoning cfg)
      fun _ _ _ => True := by
  unfold collectReasoning
  simp only [Act.sat_bind, Act.sat_perform]
  refine ⟨trivial, fun state _ => ?_⟩
  cases state.intent with
  | none => simp
  | some intent =>
    simp only [Act.sat_bind, Act.sat_ofExcept]
    split
    · refine (sat_reasoningAttempts (fun _ _ _ => trivial) (fun _ _ => trivial) _ _ _).mono
        fun h r s _ => ?_
      cases r with
      | error e => trivial
      | ok x =>
        simp only
        split
        · simp only [Act.sat_bind, Act.sat_ofExcept, Act.sat_perform]
          split
          · exact ⟨trivial, fun _ _ => ⟨trivial, fun _ _ => trivial⟩⟩
          · trivial
        · simp only [Act.sat_perform]
          exact ⟨trivial, fun _ _ => trivial⟩
    · trivial

/-- The task of the reasoning neither calls the backend nor writes the outcome. -/
theorem sat_reasoningPath :
    Act.Sat (fun _ _ => True) reasoningGuarantee [] () (reasoningPath cfg)
      fun _ _ _ => True := by
  unfold reasoningPath
  simp only [Act.sat_bind, Act.sat_perform]
  refine ⟨trivial, fun state _ => ?_⟩
  split_ifs
  · simp
  · simp only [Act.sat_bind, Act.sat_orRaise, Act.sat_perform]
    refine ⟨trivial, fun answer _ => ?_⟩
    cases answer with
    | error e => trivial
    | ok _ => exact sat_collectReasoning

end

/-! ## The fork -/

/-- What each task relies on. -/
def forkRely (rule : PolicyRule) : Task → List AgentEvent → AgentEvent → Prop
  | .enforce => taskRely rule
  | .reasoning => fun _ _ => True

/-- What each task guarantees. -/
def forkGuarantee (cfg : AgentConfig) (rule : PolicyRule) : Task → List AgentEvent → AgentOp → Prop
  | .enforce => enforceGuarantee cfg rule
  | .reasoning => reasoningGuarantee

/-- How each task ends. -/
def forkPost : Task → List AgentEvent → Except Exc Unit × Unit → Prop
  | .enforce => fun h _ => EnforcePost h
  | .reasoning => fun _ _ => True

/-- The invariant of the fork: the rule of the intent stays, the outcome is the one that the
enforcement wrote last, and the reasoning has not called the backend. -/
def ForkInv (rule : PolicyRule) (s₀ : AgentState) (hist : Task → List AgentEvent)
    (s : AgentState) : Prop :=
  s.alert = s₀.alert ∧ s.intent.map PolicyIntent.toPolicyRule = some rule ∧
    s.outcome = (lastOutcome (hist .enforce)).or s₀.outcome ∧
    seen isEnforce (hist .reasoning) = false

/-- Each task meets its specification on its own. -/
theorem sat_tasks (cfg : AgentConfig) (rule : PolicyRule) (t : Task) :
    Prog.Sat (forkRely rule t) (forkGuarantee cfg rule t) (forkPost t) [] (tasks cfg t) := by
  cases t with
  | enforce => exact sat_enforcePath
  | reasoning => exact sat_reasoningPath

/-- What an event does to the memory: the alert and the rule stay, and the outcome is the one that it
writes. -/
theorem agentMemory_next (t : Task) (s : AgentState) (e : AgentEvent) :
    (agentMemory.next t s e).alert = s.alert ∧
      (agentMemory.next t s e).intent.map PolicyIntent.toPolicyRule =
        s.intent.map PolicyIntent.toPolicyRule ∧
      (agentMemory.next t s e).outcome = (written e).or s.outcome := by
  obtain ⟨op, a⟩ := e
  cases op
  case setReasoning reasoning => exact ⟨rfl, Option.map_map _ _ _, rfl⟩
  all_goals exact ⟨rfl, rfl, rfl⟩

/-- The reasoning writes no outcome, and does not call the backend. -/
theorem quiet_of_reasoningGuarantee {h : List AgentEvent} {e : AgentEvent}
    (hG : reasoningGuarantee h e.op) : written e = none ∧ isEnforce e = false := by
  obtain ⟨op, a⟩ := e
  cases op
  case enforce => exact hG.elim
  case setOutcome => exact hG.elim
  all_goals exact ⟨rfl, rfl⟩

/-- Every event of the fork keeps its invariant, and gives the tasks what they rely on. -/
theorem forkInv_step {cfg : AgentConfig} {rule : PolicyRule} {s₀ s : AgentState}
    {hist : Task → List AgentEvent} {t : Task} {e : AgentEvent} (hJ : ForkInv rule s₀ hist s)
    (hG : forkGuarantee cfg rule t (hist t) e.op) (ha : agentMemory.answers t s e) :
    forkRely rule t (hist t) e ∧
      ForkInv rule s₀ (Function.update hist t (hist t ++ [e])) (agentMemory.next t s e) := by
  obtain ⟨halert, hrule, hout, hquiet⟩ := hJ
  obtain ⟨hnextAlert, hnextRule, hnextOut⟩ := agentMemory_next t s e
  -- What the task of the enforcement reads is the intent that was validated, since no event of either
  -- task changes its rule.
  constructor
  · cases t with
    | reasoning => trivial
    | enforce =>
      obtain ⟨op, a⟩ := e
      cases op
      case readState =>
        simp only [agentMemory] at ha
        simpa [forkRely, taskRely, ha] using hrule
      case readIntent =>
        obtain ⟨i, hi, hir⟩ := Option.map_eq_some_iff.mp hrule
        have hai : a = i := ha i hi
        simpa [forkRely, taskRely, hai] using hir
      all_goals trivial
  · refine ⟨hnextAlert.trans halert, hnextRule.trans hrule, ?_, ?_⟩
    · rw [hnextOut, hout]
      cases t with
      | enforce =>
        rw [Function.update_self, lastOutcome_append, lastOutcome_cons, lastOutcome_nil,
          Option.none_or, Option.or_assoc]
      | reasoning =>
        obtain ⟨hnone, -⟩ := quiet_of_reasoningGuarantee (h := hist .reasoning) hG
        rw [hnone, Option.none_or, Function.update_of_ne (by simp)]
    · cases t with
      | enforce => rwa [Function.update_of_ne (by simp)]
      | reasoning =>
        obtain ⟨-, hcall⟩ := quiet_of_reasoningGuarantee (h := hist .reasoning) hG
        rw [Function.update_self, seen_append, hquiet, seen_cons, hcall, seen_nil]
        rfl

/-- The invariant holds where the fork starts. -/
theorem forkInv_init {s : AgentState} {intent : PolicyIntent} (hi : s.intent = some intent) :
    ForkInv intent.toPolicyRule s (fun _ => []) s := by
  simp [ForkInv, hi]

/-- An event of one of the tasks is an event of the fork. -/
theorem seen_of_seen_proj {p : AgentEvent → Bool} {t : Task} {l : List (Task × AgentEvent)}
    (h : seen p (proj t l) = true) : seen p (l.map Prod.snd) = true := by
  unfold seen proj at *
  rw [List.any_eq_true] at h ⊢
  obtain ⟨e, he, hp⟩ := h
  obtain ⟨x, hx, rfl⟩ := List.mem_map.mp he
  exact ⟨x.2, List.mem_map_of_mem (List.mem_of_mem_filter hx), hp⟩

/-- An event of the fork is an event of one of the tasks. -/
theorem seen_map_snd {p : AgentEvent → Bool} {l : List (Task × AgentEvent)} :
    seen p (l.map Prod.snd) = (seen p (proj .enforce l) || seen p (proj .reasoning l)) := by
  induction l with
  | nil => rfl
  | cons x l ih =>
    obtain ⟨t, e⟩ := x
    cases t with
    | enforce => simp [proj, ih, Bool.or_assoc]
    | reasoning => simp [proj, ih, Bool.or_left_comm]

section

variable {cfg : AgentConfig} {s : AgentState} {intent : PolicyIntent}
  {l : List (Task × AgentEvent)} {q : Task → Except Exc Unit × Unit}

/-- A call to the backend in the fork meets the guarantee of the enforcement, over the events of the
fork so far. -/
theorem guarantee_of_fork (hi : s.intent = some intent) {l₁ l₂ : List (Task × AgentEvent)}
    {t : Task} {i : PolicyIntent} {a : Except Exc EnforcementResult}
    {q : Task → Prog AgentOp AgentAns (Except Exc Unit × Unit)}
    (hfork : Interleaving (tasks cfg) (l₁ ++ (t, ⟨.enforce i, a⟩) :: l₂) q)
    (hv : agentMemory.Valid s (l₁ ++ (t, ⟨.enforce i, a⟩) :: l₂)) :
    enforceGuarantee cfg intent.toPolicyRule (l₁.map Prod.snd) (.enforce i) := by
  obtain ⟨hG, -, -, -, hquiet⟩ := Interleaving.guarantee (sat_tasks cfg intent.toPolicyRule)
    (forkInv_init hi) (fun _ _ _ _ => forkInv_step) hfork hv
  cases t with
  | reasoning => exact hG.elim
  | enforce =>
    obtain ⟨hrule, hdrop, hdry, hn, hb, hr⟩ := hG
    refine ⟨hrule, hdrop, hdry, ?_, seen_of_seen_proj hb, seen_of_seen_proj hr⟩
    rw [seen_map_snd, hn, hquiet]
    rfl

/-- After the fork, the outcome is enforced exactly when a call to the backend returned success. -/
theorem outcome_of_fork (hi : s.intent = some intent) (hout : s.outcome ≠ some .enforced)
    (hfork : Interleaving (tasks cfg) l fun t => .ret (q t)) (hv : agentMemory.Valid s l) :
    (agentMemory.after s l).alert = s.alert ∧
      ((agentMemory.after s l).outcome = some .enforced ↔
        seen succeeded (l.map Prod.snd) = true) := by
  obtain ⟨⟨halert, -, hlast, hquiet⟩, hpost⟩ := Interleaving.coupled
    (sat_tasks cfg intent.toPolicyRule) (forkInv_init hi) (fun _ _ _ _ => forkInv_step) hfork hv
  have hp : EnforcePost (proj .enforce l) := hpost .enforce
  unfold EnforcePost at hp
  refine ⟨halert, ?_⟩
  rw [seen_map_snd, seen_succeeded_of_seen_isEnforce hquiet, Bool.or_false, ← hp, hlast]
  cases lastOutcome (proj .enforce l) with
  | none => simpa using hout
  | some o => simp

end

end ControlPlane.Intel
