import ControlPlane.Secure.AdapterSpec
import ControlPlane.Secure.RoleApi

/-!
# What the REST front-end does with a rule

The rules for the handlers of `sam/role_api.py`, in the manner of those for the adapter: a proof about
a body says what has to hold of the push, and a proof about a delete gets the calls that it makes.
-/

namespace ControlPlane.Secure

open Text SfOp

/-- Nothing in a body keeps the REST front-end from pushing the data. -/
structure RestPushes (cfg : SfConfig) (fields : List (String × Json)) (ruleId : Json)
    (action : String) (data : List (String × Json)) : Prop where
  /-- The rule has an id. -/
  ruleId_eq : pick fields ["rule_id", "rule-id"] = some ruleId
  /-- Its action is a text. -/
  action_eq : textMethod "upper" cfg.py.upper (pick fields ["action"]) "DROP" = .ok action
  /-- The action is a valid one. -/
  valid : action ∈ VALID_ACTIONS
  /-- The other fields can be read. -/
  read : restRuleData cfg.py ruleId action fields = .ok data
  /-- There is a leaf to push it to. -/
  routed : ∃ leaf, restLeaf cfg.py (pick fields ["src_ip", "src-ip"]) = .ok leaf ∧
    (leaf = none → cfg.leaves ≠ [])

section

variable {R : List SfEvent → SfEvent → Prop} {G : List SfEvent → SfOp → Prop}
  {cfg : SfConfig} {h : List SfEvent}

/-- A client is found only for a source that can be routed, by one look at the pool. -/
theorem sat_restClient (hG : ∀ h op, op.quiet = true → G h op) (srcIp : Option Json) :
    Act.Sat R G h () (restClient cfg srcIp) fun h' r _ =>
      (h' = h ∨ ∃ p, h' = h ++ [⟨pool, p⟩]) ∧ ∀ client, r = .ok (some client) →
        ∃ leaf, restLeaf cfg.py srcIp = .ok leaf ∧ (leaf = none → cfg.leaves ≠ []) := by
  unfold restClient
  rw [Act.sat_bind, Act.sat_ofExcept]
  cases hl : restLeaf cfg.py srcIp with
  | error e => simp
  | ok leaf =>
    simp only [Act.sat_bind, Act.sat_perform]
    refine ⟨hG _ _ rfl, fun p _ => ?_⟩
    cases leaf with
    | some leafIp => exact ⟨.inr ⟨p, rfl⟩, fun _ _ => ⟨_, rfl, by simp⟩⟩
    | none =>
      refine ⟨.inr ⟨p, rfl⟩, fun client hc => ⟨_, rfl, fun _ h0 => ?_⟩⟩
      simp [SfConfig.leafIps, h0, Pool.getAnyClient] at hc

/-- A body is answered without a push, or by the push of its data: what holds before the push and
wherever there is none holds at the end when the push leads to it. -/
theorem sat_handlePostRule (hG : ∀ h op, op.quiet = true → G h op) {body : Json}
    {J Q : List SfEvent → Prop} (hpool : ∀ h p, J h → J (h ++ [⟨pool, p⟩]))
    (hend : ∀ h, J h → Q h)
    (hpush : ∀ h fields ruleId action data client, body = .obj fields →
      RestPushes cfg fields ruleId action data → J h →
      Act.Sat R G h () (restPush client (cfg.py.fmt ruleId) (clean data)) fun h _ _ => Q h)
    (hJ : J h) : Act.Sat R G h () (handlePostRule cfg body) fun h _ _ => Q h := by
  have hq := hend h hJ
  unfold handlePostRule
  split_ifs with ht
  · exact hq
  cases body with
  | obj fields =>
    simp only
    cases hid : pick fields ["rule_id", "rule-id"] with
    | none => exact hq
    | some ruleId =>
      rw [Act.sat_bind, Act.sat_ofExcept]
      cases ha : textMethod "upper" cfg.py.upper (pick fields ["action"]) "DROP" with
      | error e => exact hq
      | ok action =>
        simp only
        by_cases hv : action ∈ VALID_ACTIONS
        · rw [if_neg (by simpa using hv), Act.sat_bind, Act.sat_ofExcept]
          cases hd : restRuleData cfg.py ruleId action fields with
          | error e => exact hq
          | ok data =>
            simp only
            rw [Act.sat_bind]
            refine (sat_restClient hG _).mono fun h' r _ hr => ?_
            -- The lookup of the client has read the pool at most once.
            have hJ' : J h' := by
              obtain rfl | ⟨p, rfl⟩ := hr.1
              · exact hJ
              · exact hpool h p hJ
            cases r with
            | error e => exact hend h' hJ'
            | ok found =>
              cases found with
              | none => exact hend h' hJ'
              | some client =>
                have hp : RestPushes cfg fields ruleId action data :=
                  ⟨hid, ha, hv, hd, hr.2 client rfl⟩
                exact hpush h' fields ruleId action data client rfl hp hJ'
        · rw [if_pos hv]
          exact hq
  | _ => exact hq

/-- The push of a body makes one update, and logs it when it succeeded. -/
theorem sat_restPush (hG : ∀ h op, op.quiet = true → G h op) {client : Client} {ruleId : String}
    {payload : List (String × Json)}
    (hupdate : G h (gnmiUpdate client (rulePath ruleId) payload)) :
    Act.Sat R G h () (restPush client ruleId payload) fun h' _ _ =>
      (∃ e, h' = h ++ [⟨gnmiUpdate client (rulePath ruleId) payload, .error e⟩]) ∨
      ∃ logged, h' = h ++ [⟨gnmiUpdate client (rulePath ruleId) payload, .ok ()⟩,
        ⟨tamperLog (restPushedLog client ruleId payload), logged⟩] := by
  unfold restPush
  simp only [Act.sat_bind, Act.sat_perform]
  refine ⟨hupdate, fun answer _ => ?_⟩
  cases answer with
  | error e => exact .inl ⟨e, rfl⟩
  | ok _ =>
    simp only [Act.sat_bind, Act.sat_orRaise, Act.sat_perform]
    refine ⟨hG _ _ rfl, fun logged _ => ?_⟩
    cases logged with
    | error e => exact .inr ⟨.error e, by simp⟩
    | ok _ => exact .inr ⟨.ok (), by simp⟩

/-- An update that a body leads to is the push of its data. -/
theorem exists_pushes_of_update {body : Json} {r : Except Exc RestReply × Unit} {client : Client}
    {path : String} {payload : List (String × Json)} {answer : Except Exc Unit}
    (hrun : Prog.Runs (handlePostRule cfg body ()) h r)
    (hmem : ⟨gnmiUpdate client path payload, answer⟩ ∈ h) :
    ∃ fields ruleId action data, body = .obj fields ∧ RestPushes cfg fields ruleId action data ∧
      path = rulePath (cfg.py.fmt ruleId) ∧ payload = clean data := by
  let Pushed : SfOp → Prop
    | gnmiUpdate _ path payload => ∃ fields ruleId action data, body = .obj fields ∧
        RestPushes cfg fields ruleId action data ∧ path = rulePath (cfg.py.fmt ruleId) ∧
        payload = clean data
    | _ => True
  have hquiet : ∀ (_ : List SfEvent) (op : SfOp), op.quiet = true → Pushed op := by
    intro _ op hq
    cases op
    case gnmiUpdate => simp [SfOp.quiet] at hq
    all_goals trivial
  have hsat : Act.Sat (fun _ _ => True) (fun _ op => Pushed op) [] () (handlePostRule cfg body)
      fun _ _ _ => True := by
    refine sat_handlePostRule (J := fun _ => True) (Q := fun _ => True) hquiet
      (fun _ _ _ => trivial) (fun _ _ => trivial)
      (fun _ fields ruleId action data client hb hp _ => ?_) trivial
    exact (sat_restPush hquiet ⟨fields, ruleId, action, data, hb, hp, rfl, rfl⟩).mono
      fun _ _ _ _ => trivial
  obtain ⟨h₁, h₂, rfl⟩ := List.append_of_mem hmem
  exact Prog.Steps.guarantee hrun hsat (Prog.relied_true _ _)

/-- The calls of the loop of a REST delete, and what it counts: the leaves of the calls that succeeded,
and the errors of those that failed. -/
theorem sat_restDeleteOn_counts (path : String) (leafIps : List String) :
    Act.Sat R (fun _ _ => True) h () (restDeleteOn path leafIps) fun h' r _ =>
      ∃ s errors deleted, h' = h ++ s ∧ r = .ok (errors, deleted) ∧
        (∀ e ∈ s, e.op = pool ∨ ∃ client, e.op = gnmiDelete client path) ∧
        (deleted = [] ↔ ∀ client, ⟨gnmiDelete client path, .ok ()⟩ ∉ s) ∧
        (errors = [] ↔ ∀ client e, ⟨gnmiDelete client path, .error e⟩ ∉ s) := by
  induction leafIps generalizing h with
  | nil => exact ⟨[], [], [], by simp, rfl, by simp, by simp, by simp⟩
  | cons leafIp rest ih =>
    unfold restDeleteOn
    simp only [Act.sat_bind, Act.sat_perform]
    refine ⟨trivial, fun p _ => ?_⟩
    cases p.getClientByKey .admin leafIp with
    | none =>
      -- A leaf without a client is passed over, and counted nowhere.
      refine ih.mono fun h' r _ hr => ?_
      obtain ⟨s, errors, deleted, rfl, rfl, hops, hdel, herr⟩ := hr
      exact ⟨⟨pool, p⟩ :: s, errors, deleted, by simp, rfl, by simpa using hops, by simpa using hdel,
        by simpa using herr⟩
    | some client =>
      simp only [Act.sat_bind, Act.sat_perform]
      refine ⟨trivial, fun answer _ => ih.mono fun h' r _ hr => ?_⟩
      obtain ⟨s, errors, deleted, rfl, rfl, hops, hdel, herr⟩ := hr
      cases answer with
      | ok _ =>
        refine ⟨⟨pool, p⟩ :: ⟨gnmiDelete client path, .ok ()⟩ :: s, errors, leafIp :: deleted,
          by simp, rfl, by simpa using hops, ?_, by simpa using herr⟩
        exact ⟨fun h0 => absurd h0 (by simp), fun hnone => absurd (by simp) (hnone client)⟩
      | error e =>
        refine ⟨⟨pool, p⟩ :: ⟨gnmiDelete client path, .error e⟩ :: s,
          (leafIp ++ ": " ++ e.msg) :: errors, deleted, by simp, rfl, by simpa using hops,
          by simpa using hdel, ?_⟩
        exact ⟨fun h0 => absurd h0 (by simp), fun hnone => absurd (by simp) (hnone client e)⟩

end

end ControlPlane.Secure
