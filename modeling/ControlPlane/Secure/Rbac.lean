import ControlPlane.Secure.Sunny

/-!
# Deletes and roles

The adapter checks the role of a session when it pushes a rule, and not when it deletes one. So a
session of any role deletes whatever a document asks for, as far as the document is processed:
`noDelete_iff` says exactly which documents lead to no delete.

The one direction is an invariant of the loop over the rules: those that are done were all pushed.
The other is a run in which every call succeeds.
-/

namespace ControlPlane.Secure

open Text SfOp

/-- Handling a document in the session of a context issues no delete. -/
def NoDelete (cfg : SfConfig) (session : Client) (ctx : SessionContext) (rpc : Xml) : Prop :=
  ∀ h r, SessionRuns ctx (handleEditConfig cfg (some session) rpc) h r → ∀ e ∈ h, isDelete e = false

/-- A document that asks a session of the role for a delete which it can get to. -/
def ReachesDelete (py : Py) (role : OnapRole) : Form → Prop
  | .nos rules => Reaches (Pushable py role) AsksDelete rules
  | .openconfigDelete _ => True
  | .nothing | .openconfig _ _ => False

/-! ## Documents without a delete -/

/-- The guarantee of a document without a delete. -/
def noDeleteGuarantee (_ : List SfEvent) : SfOp → Prop
  | gnmiDelete _ _ => False
  | _ => True

/-- Quiet calls are no deletes. -/
theorem noDeleteGuarantee_quiet (h : List SfEvent) (op : SfOp) (hq : op.quiet = true) :
    noDeleteGuarantee h op := by
  cases op
  case gnmiDelete => simp [SfOp.quiet] at hq
  all_goals trivial

section

variable {cfg : SfConfig} {session : Option Client} {role : OnapRole} {ctx : SessionContext}
  {h : List SfEvent}

/-- Where no delete can be reached, none is issued. -/
theorem sat_noDelete {form : Form} (hn : ¬ ReachesDelete cfg.py role form) (messageId : String) :
    Act.Sat (inSession (some role)) noDeleteGuarantee h ()
      (handleForm cfg session messageId form) fun _ r _ => Answers True r := by
  cases form with
  | nothing => exact .inr trivial
  | openconfigDelete table => exact absurd trivial hn
  | openconfig table entries =>
    refine (sat_eachRule (fun _ _ => True) trivial fun done entry rest h _ _ => ?_).mono
      fun _ _ _ hr => hr.imp fun _ => trivial
    exact (sat_entryRule noDeleteGuarantee_quiet (fun _ _ hR => hR)
      fun _ _ _ _ _ _ _ _ => trivial).mono fun _ _ _ hr => hr.imp fun _ => trivial
  | nos rules =>
    -- Every rule that is done was pushable, so that a rule that deletes is never reached.
    refine (sat_eachRule (fun done _ => ∀ x ∈ done, Pushable cfg.py role x) (by simp)
      fun done rule rest h heq hdone => ?_).mono fun _ _ _ hr => hr.imp fun _ => trivial
    have hno : ¬ AsksDelete rule := fun hask => hn ⟨done, rule, rest, heq, hdone, hask⟩
    refine (sat_nosRule noDeleteGuarantee_quiet (fun _ _ hR => hR)
      (fun hid hop => absurd ⟨hid, hop⟩ hno) fun _ _ _ _ _ _ _ _ _ => trivial).mono
      fun _ _ _ hr => hr.imp ?_
    rintro ⟨hid, ⟨hop, -⟩ | ⟨hop, data, hdata, hperm, p, client, hc, -⟩⟩
    · exact absurd ⟨hid, hop⟩ hno
    · intro x hx
      rcases List.mem_append.mp hx with hx | hx
      · exact hdone x hx
      · rw [List.mem_singleton.mp hx]
        exact ⟨data, hid, hop, hdata, hperm, exists_leaf_of_chosen hc⟩

/-! ## Documents that reach a delete -/

/-- In a sunny run, a document that reaches a delete issues one. -/
theorem sat_sunny_delete {form : Form} {client : Client} {messageId : String}
    (hr : ReachesDelete cfg.py ctx.onapRole form) :
    Act.Sat (sunnyRely (some ctx)) (fun _ _ => True) h ()
      (handleForm cfg (some client) messageId form) fun h _ _ => ∃ e ∈ h, isDelete e = true := by
  cases form with
  | nothing => exact hr.elim
  | openconfig table entries => exact hr.elim
  | openconfigDelete table =>
    unfold handleForm
    rw [Act.sat_bind]
    refine sat_sunny_deleteRule.mono fun h r _ hr => ?_
    obtain ⟨rfl, he⟩ := hr
    exact he
  | nos rules =>
    obtain ⟨done, rule, rest, rfl, hdone, hask⟩ := hr
    refine sat_eachRule_of_reaches ?_ (fun x hx h => ?_) fun h => ?_
    · rintro h h' ⟨e, he, hd⟩ hpre
      exact ⟨e, hpre.subset he, hd⟩
    · obtain ⟨data, hp⟩ := hdone x hx
      exact (sat_sunny_nosRule hp).mono fun _ _ _ hr => hr.1
    · exact (sat_sunny_nosRule_delete hask).mono fun _ _ _ hr => hr.2

end

/-! ## The condition -/

/-- Handling a document in a session issues no delete exactly when the document does not ask for one
that a session of this role can get to. -/
theorem noDelete_iff (cfg : SfConfig) (session : Client) (ctx : SessionContext) (rpc : Xml) :
    NoDelete cfg session ctx rpc ↔ ¬ ReachesDelete cfg.py ctx.onapRole (formOf rpc) := by
  constructor
  · intro hno hreach
    obtain ⟨h, r, hrun, e, he, hd⟩ := exists_sunny_run cfg (some session) ctx rpc
      (sat_sunny_delete hreach)
    rw [hno h r hrun e he] at hd
    simp at hd
  · intro hn h r hrun e he
    obtain ⟨h₁, h₂, rfl⟩ := List.append_of_mem he
    have hG := hrun.guarantee (sat_noDelete hn _)
    cases hd : isDelete e with
    | false => rfl
    | true =>
      unfold isDelete at hd
      split at hd
      · exact hG.elim
      · simp at hd

/-- An OPERATOR session. -/
def operatorSession : SessionContext :=
  ⟨("10.1.0.7", 40023), .operator, .operator, [.operator], some "aws-1"⟩

/-- An OPERATOR session deletes a rule when it asks for that. -/
theorem exists_delete_of_operator :
    ¬ ∀ (cfg : SfConfig) (session : Client) (ctx : SessionContext) (rpc : Xml),
      ctx.onapRole = .operator ∨ ctx.onapRole = .agent → NoDelete cfg session ctx rpc := by
  intro hall
  have hrun := @sessionRuns_run _ (sunny (some operatorSession)) operatorSession rfl
    (handleEditConfig plainSf (some ⟨DEFAULT_LEAF1, 0⟩) deleteDoc)
  have hnone := hall plainSf ⟨DEFAULT_LEAF1, 0⟩ operatorSession deleteDoc (.inl rfl) _ _ hrun
  have hany : (Prog.run (fun _ => sunny (some operatorSession)) []
      (handleEditConfig plainSf (some ⟨DEFAULT_LEAF1, 0⟩) deleteDoc ())).1.any isDelete = true := by
    decide +kernel
  obtain ⟨e, he, hd⟩ := List.any_eq_true.mp hany
  rw [hnone e he] at hd
  simp at hd

end ControlPlane.Secure
