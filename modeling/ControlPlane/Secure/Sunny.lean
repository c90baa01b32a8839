import ControlPlane.Secure.AdapterSpec
import ControlPlane.Secure.Server

/-!
# Runs in which all is well

A rule of a document is reached only when the rules before it are done, and whether they are depends
on what the adapter calls. To show that a document can lead to a call, this module follows the run in
which every connection is up and every call succeeds (`sunny`): there the adapter stops at a rule only
for what the rule itself says, so that every rule before it has to be `Pushable` or a delete.
-/

namespace ControlPlane.Secure

open Text SfOp

/-- The framework with its two leaves. -/
def plainSf : SfConfig where
  py := .ascii (fun s => s) fun _ => none
  leaves := [("leaf-1", DEFAULT_LEAF1), ("leaf-2", DEFAULT_LEAF2)]
  isMonitoring _ := false

/-- What the framework calls answers when all is well: every connection is up and every call
succeeds, in the session of the given context. -/
def sunny (ctx : Option SessionContext) : (op : SfOp) → SfAns op
  | localSession => ctx
  | setLocalSession _ => ()
  | isSecurityBypassed => false
  | getPolicy _ => some ⟨[.admin], .admin⟩
  | pool => .full
  | connected _ => true
  | gnmiGet _ _ => .ok .null
  | gnmiUpdate _ _ _ | gnmiDelete _ _ | tamperLog _ => .ok ()
  | sendResponse _ => true

/-- The pool in which the connections of one leaf are up. -/
def Pool.only (leafIp : String) : Pool where
  connections _ leaf := if leaf = leafIp then some ⟨leaf, 0⟩ else none
  connected _ := true
  host_eq _ leaf client h := by
    split_ifs at h
    simp only [Option.some.injEq] at h
    rw [← h]

/-- What the framework calls answers when one leaf is up, and all else is well. -/
def oneLeaf (leafIp : String) (ctx : SessionContext) : (op : SfOp) → SfAns op
  | pool => .only leafIp
  | op => sunny (some ctx) op

/-- An ADMIN session. -/
def adminSession : SessionContext :=
  ⟨("10.1.0.5", 40022), .admin, .admin, [.admin, .operator], some "sdnc-1"⟩

/-- An element that holds a text. -/
def leafElem (name text : String) : Xml := .node NS_NOS name [] (some text) []

/-- An `edit-config` document with native rules. -/
def nosDoc (rules : List Xml) : Xml :=
  .node NS_NC "rpc" [("message-id", "7")] none [.node NS_NC "edit-config" [] none
    [.node NS_NC "config" [] none [.node NS_NOS "acl" [] none rules]]]

/-- A native rule with the given fields. -/
def nosElem (operation : String) (fields : List (String × String)) : Xml :=
  .node NS_NOS "rule" [(OPERATION, operation)] none (fields.map fun f => leafElem f.1 f.2)

/-- A document that deletes one rule. -/
def deleteDoc : Xml := nosDoc [nosElem "delete" [("rule-id", "r1")]]

/-! ## The runs of a session -/

/-- What a session relies on: the thread has a session of its role. -/
def inSession (role : Option OnapRole) (_ : List SfEvent) : SfEvent → Prop
  | ⟨localSession, ctx⟩ => ctx.map SessionContext.onapRole = role
  | _ => True

/-- The runs of a method in the session of a context. -/
def SessionRuns {α : Type} (ctx : SessionContext) (m : SfM α) (h : List SfEvent)
    (r : Except Exc α) : Prop :=
  Prog.Runs (m ()) h (r, ()) ∧ ∀ a, ⟨localSession, a⟩ ∈ h → a = some ctx

/-- What a run in a session relies on. -/
theorem SessionRuns.relied {α : Type} {ctx : SessionContext} {m : SfM α} {h : List SfEvent}
    {r : Except Exc α} (hrun : SessionRuns ctx m h r) :
    Prog.Relied (inSession (some ctx.onapRole)) [] h := by
  intro h₁ e h₂ heq
  obtain ⟨op, a⟩ := e
  cases op
  case localSession =>
    have ha := hrun.2 a (by rw [heq]; simp)
    simp [inSession, ha]
  all_goals trivial

/-- The run that an oracle picks is one of the session that it answers with. -/
theorem sessionRuns_run {α : Type} {oracle : (op : SfOp) → SfAns op} {ctx : SessionContext}
    (hctx : oracle localSession = some ctx) (m : SfM α) :
    SessionRuns ctx m (Prog.run (fun _ => oracle) [] (m ())).1
      (Prog.run (fun _ => oracle) [] (m ())).2.1 := by
  obtain ⟨hrun, hans⟩ := Prog.runs_const oracle (m ())
  exact ⟨hrun, fun a ha => (hans ⟨localSession, a⟩ ha).trans hctx⟩

/-- What the forms of documents guarantee holds of every event of a document in a session. -/
theorem SessionRuns.guarantee {G : List SfEvent → SfOp → Prop} {cfg : SfConfig}
    {session : Option Client} {ctx : SessionContext} {rpc : Xml} {h₁ h₂ : List SfEvent}
    {e : SfEvent} {r : Except Exc Reply}
    (hrun : SessionRuns ctx (handleEditConfig cfg session rpc) (h₁ ++ e :: h₂) r)
    {Done : List SfEvent → Prop}
    (hform : Act.Sat (inSession (some ctx.onapRole)) G [] ()
      (handleForm cfg session (messageIdOf rpc) (formOf rpc))
      fun h r _ => Answers (Done h) r) : G h₁ e.op := by
  refine Prog.Steps.guarantee hrun.1 (sat_handleEditConfig hform) fun h' e' h'' heq => ?_
  exact hrun.relied h' e' (h'' ++ e :: h₂) (by rw [heq]; simp)

/-! ## Rules that are reached -/

/-- The first element of a list that has one property comes after elements that all have another. -/
def Reaches (pass hit : Xml → Prop) (l : List Xml) : Prop :=
  ∃ done x rest, l = done ++ x :: rest ∧ (∀ y ∈ done, pass y) ∧ hit x

/-- Nothing in a rule keeps a session of the role from pushing the data. -/
structure Pushes (py : Py) (role : OnapRole) (rule : Xml) (data : RuleData) : Prop where
  /-- The rule has an id. -/
  ruleId : textOf rule "rule-id" ≠ ""
  /-- It does not delete. -/
  keeps : ¬ Deletes rule
  /-- Its numbers can be read. -/
  read : nosRuleData py rule = .ok data
  /-- The session may push it. -/
  permitted : Permitted py (some role) data
  /-- The lookup of its zone does not raise. -/
  routed : ∃ leaf, ipToLeaf (routedSrc data.srcIp) = .ok leaf

/-- A rule that nothing in it keeps a session of the role from pushing. -/
def Pushable (py : Py) (role : OnapRole) (rule : Xml) : Prop := ∃ data, Pushes py role rule data

/-- A push for which a client was chosen could be routed. -/
theorem exists_leaf_of_chosen {session : Option Client} {srcIp : String} {p : Pool}
    {client : Client} (hc : Chosen session srcIp p client) :
    ∃ leaf, ipToLeaf (routedSrc srcIp) = .ok leaf := by
  obtain ⟨routed, hz, -⟩ := hc
  unfold Pool.getClientForZone at hz
  obtain ⟨leaf, hleaf, -⟩ := except_bind_eq_ok hz
  exact ⟨leaf, hleaf⟩

/-- A rule that asks for a delete. -/
def AsksDelete (rule : Xml) : Prop := textOf rule "rule-id" ≠ "" ∧ Deletes rule

/-- A rule that asks for a delete is a call of `_delete_rule`. -/
theorem nosRule_of_asksDelete {cfg : SfConfig} {session : Option Client} {messageId : String}
    {rule : Xml} (hask : AsksDelete rule) :
    nosRule cfg session messageId rule =
      deleteRule cfg session (textOf rule "rule-id") messageId := by
  have hop : operationOf rule ∈ ["delete", "remove"] := hask.2
  unfold nosRule
  simp only
  rw [if_neg hask.1, if_pos hop]

/-! ## The adapter in a sunny run -/

/-- An event that deletes. -/
def isDelete : SfEvent → Bool
  | ⟨gnmiDelete _ _, _⟩ => true
  | _ => false

/-- The path of the update in an event. -/
def updatePath : SfEvent → Option String
  | ⟨gnmiUpdate _ path _, _⟩ => some path
  | _ => none

/-- The answers are those of a sunny run. -/
def sunnyRely (ctx : Option SessionContext) (_ : List SfEvent) (e : SfEvent) : Prop :=
  e.ans = sunny ctx e.op

section

variable {cfg : SfConfig} {session : Option Client} {ctx : SessionContext} {h : List SfEvent}

/-- In a sunny run, a push that can be routed is done. -/
theorem sat_sunny_pushRule {ruleId srcIp messageId : String} {data : RuleData} {leaf : Option String}
    (hleaf : ipToLeaf (routedSrc srcIp) = .ok leaf) :
    Act.Sat (sunnyRely (some ctx)) (fun _ _ => True) h () (pushRule session ruleId data srcIp messageId)
      fun h r _ => r = .ok none ∧
        ∃ client, ⟨gnmiUpdate client (rulePath ruleId) (clean data.items), .ok ()⟩ ∈ h := by
  have hzone : Pool.full.getClientForZone .admin (if srcIp = "" then "0.0.0.0/0" else srcIp) =
      .ok (some ⟨leaf.getD DEFAULT_LEAF1, 0⟩) := by
    unfold routedSrc at hleaf
    unfold Pool.getClientForZone
    rw [hleaf]
    rfl
  -- From here each answer is the one that the oracle gives, in the order of the calls.
  unfold pushRule getRoutedClient
  simp only [Act.sat_bind, Act.sat_perform, Act.sat_ofExcept]
  refine ⟨trivial, fun p hp => ?_⟩
  have hp : p = .full := hp
  subst hp
  rw [hzone]
  simp only [Option.some_or, Act.sat_bind, Act.sat_perform]
  refine ⟨trivial, fun up hup => ?_⟩
  have hup : up = true := hup
  subst hup
  simp only [if_true, Act.sat_bind, Act.sat_attempt, Act.sat_orRaise, Act.sat_perform]
  refine ⟨trivial, fun answer ha => ?_⟩
  have ha : answer = .ok () := ha
  subst ha
  simp only [identity, Act.sat_bind, Act.sat_perform, Act.sat_pure]
  refine ⟨trivial, fun current _ => ⟨trivial, fun logged hl => ?_⟩⟩
  have hl : logged = .ok () := hl
  subst hl
  simp only [Act.sat_pure, true_and]
  exact ⟨⟨leaf.getD DEFAULT_LEAF1, 0⟩, by simp⟩

/-- In a sunny run, permitted data that can be routed is pushed. -/
theorem sat_sunny_validateAndPush {ruleId messageId : String} {data : RuleData}
    {leaf : Option String} (hperm : Permitted cfg.py (some ctx.onapRole) data)
    (hleaf : ipToLeaf (routedSrc data.srcIp) = .ok leaf) :
    Act.Sat (sunnyRely (some ctx)) (fun _ _ => True) h ()
      (validateAndPush cfg session ruleId data messageId) fun h r _ => r = .ok none ∧
        ∃ client, ⟨gnmiUpdate client (rulePath ruleId)
          (clean (pushedData (some ctx.onapRole) ruleId data).items), .ok ()⟩ ∈ h := by
  unfold validateAndPush
  rw [hperm.1]
  simp only [Act.sat_bind, Act.sat_perform]
  refine ⟨trivial, fun session hs => ?_⟩
  have hs : session = some ctx := hs
  subst hs
  simp only [Option.map_some]
  by_cases hagent : some ctx.onapRole = some .agent
  · have hdrop := hperm.2 hagent
    have hpushed : pushedData (some ctx.onapRole) ruleId data = stamp ruleId data := if_pos hagent
    rw [if_pos hagent, if_neg (by simpa using hdrop), hpushed]
    exact sat_sunny_pushRule hleaf
  · have hpushed : pushedData (some ctx.onapRole) ruleId data = data := if_neg hagent
    rw [if_neg hagent, hpushed]
    exact sat_sunny_pushRule hleaf

/-- In a sunny run, a rule that can be pushed is. -/
theorem sat_sunny_nosRule {rule : Xml} {messageId : String}
    {data : RuleData} (hp : Pushes cfg.py ctx.onapRole rule data) :
    Act.Sat (sunnyRely (some ctx)) (fun _ _ => True) h () (nosRule cfg session messageId rule)
      fun h r _ => r = .ok none ∧
        ∃ client, ⟨gnmiUpdate client (rulePath data.ruleId)
          (clean (pushedData (some ctx.onapRole) data.ruleId data).items), .ok ()⟩ ∈ h := by
  obtain ⟨leaf, hleaf⟩ := hp.routed
  have hop : operationOf rule ∉ ["delete", "remove"] := hp.keeps
  unfold nosRule
  simp only
  rw [if_neg hp.ruleId, if_neg hop, hp.read, Act.sat_bind, Act.sat_ofExcept]
  simp only
  rw [← ruleId_of_nosRuleData hp.read]
  exact sat_sunny_validateAndPush hp.permitted hleaf

/-- In a sunny run, every leaf has a live client. -/
theorem sat_sunny_liveClients (leafIps : List String) :
    Act.Sat (sunnyRely (some ctx)) (fun _ _ => True) h () (liveClients leafIps)
      fun _ r _ => r = .ok (leafIps.map fun leaf => ⟨leaf, 0⟩) := by
  induction leafIps generalizing h with
  | nil => simp [liveClients]
  | cons leaf rest ih =>
    unfold liveClients
    simp only [Act.sat_bind, Act.sat_perform]
    refine ⟨trivial, fun p hp => ih.mono fun _ r _ hr => ?_⟩
    have hp : p = .full := hp
    subst hp
    rw [hr]
    simp

/-- In a sunny run, every client deletes. -/
theorem sat_sunny_deleteOn (path : String) (clients : List Client) :
    Act.Sat (sunnyRely (some ctx)) (fun _ _ => True) h () (deleteOn path clients)
      fun h r _ => r = .ok [] ∧ (clients ≠ [] → ∃ e ∈ h, isDelete e = true) := by
  induction clients generalizing h with
  | nil => simp [deleteOn]
  | cons client rest ih =>
    unfold deleteOn
    simp only [Act.sat_bind, Act.sat_perform]
    refine ⟨trivial, fun answer ha => ih.extends.mono fun _ r _ hr => ?_⟩
    have ha : answer = .ok () := ha
    subst ha
    obtain ⟨⟨rfl, -⟩, hpre⟩ := hr
    simp only [Act.sat_pure, true_and]
    exact fun _ => ⟨⟨gnmiDelete client path, .ok ()⟩, hpre.subset (by simp), rfl⟩

/-- In a sunny run, a delete is done, and is issued on some client. -/
theorem sat_sunny_deleteRule {ruleId messageId : String} {client : Client} :
    Act.Sat (sunnyRely (some ctx)) (fun _ _ => True) h () (deleteRule cfg (some client) ruleId messageId)
      fun h r _ => r = .ok none ∧ ∃ e ∈ h, isDelete e = true := by
  have hclients : Act.Sat (sunnyRely (some ctx)) (fun _ _ => True) h ()
      (deleteClients cfg (some client)) fun _ r _ => ∃ clients, r = .ok clients ∧ clients ≠ [] := by
    unfold deleteClients
    rw [Act.sat_bind]
    refine (sat_sunny_liveClients cfg.leafIps).mono fun h r _ hr => ?_
    rw [hr]
    simp only
    -- Without leaves in the configuration, the client of the session is left.
    cases hl : cfg.leafIps.map fun leaf => (⟨leaf, 0⟩ : Client) with
    | cons c rest => exact ⟨_, rfl, by simp⟩
    | nil =>
      simp only [Act.sat_bind, Act.sat_perform]
      refine ⟨trivial, fun up hup => ?_⟩
      have hup : up = true := hup
      subst hup
      exact ⟨_, rfl, by simp⟩
  unfold deleteRule
  rw [Act.sat_bind]
  refine hclients.mono fun h r _ hr => ?_
  obtain ⟨clients, rfl, hne⟩ := hr
  simp only
  rw [if_neg hne, Act.sat_bind]
  refine (sat_sunny_deleteOn _ clients).mono fun h r _ hr => ?_
  obtain ⟨rfl, he⟩ := hr
  exact ⟨rfl, he hne⟩

/-- In a sunny run, a rule that asks for a delete is done. -/
theorem sat_sunny_nosRule_delete {rule : Xml} {client : Client} {messageId : String}
    (hask : AsksDelete rule) :
    Act.Sat (sunnyRely (some ctx)) (fun _ _ => True) h ()
      (nosRule cfg (some client) messageId rule)
      fun h r _ => r = .ok none ∧ ∃ e ∈ h, isDelete e = true := by
  rw [nosRule_of_asksDelete hask]
  exact sat_sunny_deleteRule

/-- A rule that is reached after rules that are all done leaves its mark in the history. -/
theorem sat_eachRule_of_reaches {R : List SfEvent → SfEvent → Prop} {Mark : List SfEvent → Prop}
    {step : Xml → SfM (Option Reply)} {messageId : String} {done rest : List Xml} {rule : Xml}
    (hmono : ∀ h h', Mark h → h <+: h' → Mark h')
    (hpass : ∀ x ∈ done, ∀ h, Act.Sat R (fun _ _ => True) h () (step x)
      fun _ r _ => r = .ok none)
    (hhit : ∀ h, Act.Sat R (fun _ _ => True) h () (step rule) fun h _ _ => Mark h) :
    Act.Sat R (fun _ _ => True) h () (eachRule step messageId (done ++ rule :: rest))
      fun h _ _ => Mark h := by
  induction done generalizing h with
  | nil =>
    -- What comes after the rule only makes the history longer, whatever it is.
    rw [List.nil_append]
    unfold eachRule
    rw [Act.sat_bind]
    refine (hhit h).mono fun h r _ hm => ?_
    cases r with
    | error e => exact hm
    | ok reply =>
      cases reply with
      | some reply => exact hm
      | none =>
        have htrue : Act.Sat R (fun _ _ => True) h () (eachRule step messageId rest)
            fun _ _ _ => True := Prog.sat_true _ _
        exact htrue.extends.mono fun h' _ _ hr => hmono h h' hm hr.2
  | cons x done ih =>
    rw [List.cons_append]
    unfold eachRule
    rw [Act.sat_bind]
    refine (hpass x (by simp) h).mono fun h r _ hr => ?_
    rw [hr]
    exact ih fun y hy => hpass y (by simp [hy])

/-- A run in which every call succeeds, of a document in a session. -/
theorem exists_sunny_run (cfg : SfConfig) (session : Option Client) (ctx : SessionContext)
    (rpc : Xml) {Mark : List SfEvent → Prop}
    (hsat : Act.Sat (sunnyRely (some ctx)) (fun _ _ => True) [] ()
      (handleForm cfg session (messageIdOf rpc) (formOf rpc)) fun h _ _ => Mark h) :
    ∃ h r, SessionRuns ctx (handleEditConfig cfg session rpc) h r ∧ Mark h := by
  have hedit : Act.Sat (sunnyRely (some ctx)) (fun _ _ => True) [] ()
      (handleEditConfig cfg session rpc) fun h _ _ => Mark h := by
    unfold handleEditConfig
    rw [Act.sat_bind, Act.sat_attempt, editConfigBody_eq]
    refine hsat.mono fun h r _ hm => ?_
    cases r with
    | error e => exact hm
    | ok reply => exact hm
  obtain ⟨hrun, hans⟩ := Prog.runs_const (sunny (some ctx)) (handleEditConfig cfg session rpc ())
  exact ⟨_, _, sessionRuns_run rfl _, hrun.post hedit (Prog.relied_of_forall hans)⟩

end

end ControlPlane.Secure
