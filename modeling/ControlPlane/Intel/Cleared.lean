import ControlPlane.Intel.Prepare
import ControlPlane.Intel.Enforcement

/-!
# What stands in front of the backend

`cleared_of_process` joins the two halves of a request: the blocks up to the fork, which leave it
`Ready`, and the fork, whose enforcement task goes through the circuit breaker and the rate limiter.
Wherever a run of `process` calls the backend, the intent it passes is `Cleared` by the calls that
came before.
-/

namespace ControlPlane.Intel

open Text AgentOp

/-- Everything that a call to the backend has behind it, in a run with the events `h` so far. -/
structure Cleared (cfg : AgentConfig) (alert : SuricataAlert) (sid : ℤ) (h : List AgentEvent)
    (intent : PolicyIntent) : Prop where
  /-- The alert can be read. -/
  readable : alert.sid cfg.py = .ok sid
  /-- An event of the run proposed the flow of the intent. -/
  proposed : Proposed cfg alert h intent.toPolicyRule
  /-- The intent drops. -/
  drop : intent.action = .drop
  /-- It has no validation error. -/
  valid : (validateIntent cfg.py cfg.kb intent.toPolicyRule sid cfg.ttlMin cfg.ttlMax
    alert.srcIp).errors = []
  /-- Its confidence is neither held nor rejected. -/
  confident : (evaluateConfidence intent.confidence cfg.autoEnforce cfg.notify cfg.hold).1 ≠ .hold ∧
    (evaluateConfidence intent.confidence cfg.autoEnforce cfg.notify cfg.hold).1 ≠ .reject
  /-- The circuit breaker answered closed. -/
  closed : seen answeredClosed h = true
  /-- The rate limiter gave a slot for the source. -/
  slot : seen (slotTaken intent.srcIp) h = true
  /-- The agent is not on a dry run. -/
  live : cfg.dryRun = false
  /-- The backend has not been called before. -/
  first : seen isEnforce h = false

section

variable {cfg : AgentConfig} {alert : SuricataAlert} {h : List AgentEvent}

/-- The blocks before the fork make no call to the backend. -/
theorem not_isEnforce_of_prepare {traceId : String} {x : Except Exc Bool × AgentState}
    (hrun : Prog.Runs (prepare cfg { alert, traceId }) h x) : seen isEnforce h = false := by
  unfold seen
  rw [List.any_eq_false]
  intro e he hcall
  obtain ⟨h₁, h₂, rfl⟩ := List.append_of_mem he
  have hG := Prog.Steps.guarantee hrun (sat_prepare traceId) (Prog.relied_true [] h₁)
  unfold isEnforce at hcall
  split at hcall
  · exact hG
  · simp at hcall

/-- How the blocks before the fork end. -/
theorem post_of_prepare {traceId : String} {r : Except Exc Bool} {s : AgentState}
    (hrun : Prog.Runs (prepare cfg { alert, traceId }) h (r, s)) :
    Harmless alert s ∧ (r = .ok true → ∃ sid intent, Ready cfg alert sid h s intent) :=
  Prog.Runs.post hrun (sat_prepare traceId) (Prog.relied_true [] h)

/-- An event that is not in the first stretch of a history splits the second. -/
theorem split_of_quiet {p : AgentEvent → Bool} {e : AgentEvent} {h₁ h₂ h' : List AgentEvent}
    (hquiet : seen p h = false) (he : p e = true) (hh : h ++ h' = h₁ ++ e :: h₂) :
    ∃ c, h₁ = h ++ c ∧ h' = c ++ e :: h₂ := by
  obtain ⟨c, h1, h2⟩ | ⟨c, rfl, h2⟩ := List.append_eq_append_iff.mp hh
  · exact ⟨c, h1, h2⟩
  · cases c with
    | nil => exact ⟨[], by simp, h2.symm⟩
    | cons x c =>
      obtain ⟨rfl, -⟩ := List.cons_eq_cons.mp h2
      simp [he] at hquiet

/-- Wherever a request calls the backend, the intent is cleared by the events before. -/
theorem cleared_of_process {r : Except Exc PolicyDecision} {h₁ h₂ : List AgentEvent}
    {intent : PolicyIntent} {a : Except Exc EnforcementResult}
    (hp : Process cfg alert (h₁ ++ ⟨.enforce intent, a⟩ :: h₂) r) :
    ∃ sid, Cleared cfg alert sid h₁ intent := by
  have hcall : seen isEnforce (h₁ ++ ⟨.enforce intent, a⟩ :: h₂) = true := by simp [isEnforce]
  generalize hh : h₁ ++ ⟨.enforce intent, a⟩ :: h₂ = h at hp hcall
  cases hp with
  | unreadable _ => simp at hcall
  | ended _ hrun => simp [not_isEnforce_of_prepare hrun] at hcall
  | failed _ hrun => simp [not_isEnforce_of_prepare hrun] at hcall
  | @forked _ _ _ h₀ s l _ _ hrun hfork hvalid =>
    obtain ⟨-, hready⟩ := post_of_prepare hrun
    obtain ⟨sid, i, hi⟩ := hready rfl
    have hquiet := not_isEnforce_of_prepare hrun
    -- The call is one of the fork, since there is none before.
    obtain ⟨c, rfl, hl⟩ := split_of_quiet hquiet rfl hh.symm
    obtain ⟨l₁, l', rfl, rfl, hl'⟩ := List.map_eq_append_iff.mp hl
    obtain ⟨⟨t, e⟩, l₂, rfl, rfl, rfl⟩ := List.map_eq_cons_iff.mp hl'
    obtain ⟨hrule, hdrop, hdry, hn, hb, hr⟩ := guarantee_of_fork hi.intent_eq hfork hvalid
    refine ⟨sid, hi.readable, ?_, ?_, ?_, ?_, ?_, ?_, hdry, ?_⟩
    · rw [hrule]
      exact hi.proposed.append _
    · rw [hrule]
      exact hdrop
    · rw [hrule]
      exact hi.valid
    · rw [hrule]
      exact hi.confident
    · rw [seen_append, hb, Bool.or_true]
    · rw [hrule, seen_append, hr, Bool.or_true]
    · rw [seen_append, hquiet, hn]
      rfl

end

end ControlPlane.Intel
