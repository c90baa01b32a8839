import ControlPlane.Secure.Adapter

/-!
# What the adapter does with a rule

The rules for the adapter's methods, for any guarantee that lets its quiet calls through: a proof
about the adapter says what its guarantee has to hold at the one update of a push and at the
deletes, and gets back what a rule that was done has passed. The methods themselves are opened here
and nowhere else.
-/

namespace ControlPlane.Secure

open Text SfOp

/-- A call that neither updates nor deletes, and does not set the session. -/
def SfOp.quiet : SfOp → Bool
  | gnmiUpdate _ _ _ | gnmiDelete _ _ | setLocalSession _ => false
  | _ => true

/-- How a rule can end: done, answered with an error, or with an exception. -/
def Ends (done : Prop) : Except Exc (Option Reply) → Prop
  | .ok none => done
  | .ok (some reply) => reply.isError = true
  | .error _ => True

/-- A rule that ends one way ends the weaker way. -/
theorem Ends.imp {P Q : Prop} (h : P → Q) {r : Except Exc (Option Reply)} (hr : Ends P r) :
    Ends Q r := by
  unfold Ends at hr ⊢
  split
  · exact h hr
  · exact hr
  · trivial

@[simp] theorem ends_ok_none {P : Prop} : Ends P (.ok none) ↔ P := Iff.rfl

@[simp] theorem ends_appError {P : Prop} {msgId errTag errMsg : String} :
    Ends P (.ok (some (appError msgId errTag errMsg))) ↔ True := by
  simp [Ends, appError, Reply.isError]

@[simp] theorem ends_error {P : Prop} {e : Exc} : Ends P (.error e) ↔ True := Iff.rfl

/-- The source by which a push is routed. -/
def routedSrc (srcIp : String) : String := if srcIp = "" then "0.0.0.0/0" else srcIp

/-- The client that a push chooses in a state of the pool. -/
def Chosen (session : Option Client) (srcIp : String) (p : Pool) (client : Client) : Prop :=
  ∃ routed, p.getClientForZone .admin (routedSrc srcIp) = .ok routed ∧
    routed.or session = some client

section

variable {R : List SfEvent → SfEvent → Prop} {G : List SfEvent → SfOp → Prop}
  {cfg : SfConfig} {session : Option Client} {h : List SfEvent}

/-- A failed push is logged and answered with an error. -/
theorem sat_pushFailed (hG : ∀ h op, op.quiet = true → G h op) {done : List SfEvent → Prop}
    (ruleId messageId : String) (clean : List (String × Json)) (e : Exc) :
    Act.Sat R G h () (pushFailed ruleId messageId clean e) fun h r _ => Ends (done h) r := by
  unfold pushFailed identity
  -- The failure is logged and answered with an error; a log that fails raises.
  simp only [Act.sat_bind, Act.sat_orRaise, Act.sat_perform, Act.sat_pure]
  refine ⟨hG _ _ rfl, fun ctx _ => ⟨hG _ _ rfl, fun logged _ => ?_⟩⟩
  cases logged with
  | ok _ => simp
  | error e => simp

/-- A push looks at the pool, chooses a client, and issues the update on it when it is connected. -/
theorem sat_pushRule (hG : ∀ h op, op.quiet = true → G h op) {ruleId : String} {data : RuleData}
    {srcIp messageId : String}
    (hupdate : ∀ p client, Chosen session srcIp p client →
      G (h ++ [⟨pool, p⟩] ++ [⟨connected client, true⟩])
        (gnmiUpdate client (rulePath ruleId) (clean data.items))) :
    Act.Sat R G h () (pushRule session ruleId data srcIp messageId) fun h' r _ =>
      Ends (∃ p client, Chosen session srcIp p client ∧
        ⟨gnmiUpdate client (rulePath ruleId) (clean data.items), .ok ()⟩ ∈ h') r := by
  unfold pushRule getRoutedClient
  simp only [Act.sat_bind, Act.sat_perform, Act.sat_ofExcept]
  refine ⟨hG _ _ rfl, fun p _ => ?_⟩
  cases hz : p.getClientForZone .admin (if srcIp = "" then "0.0.0.0/0" else srcIp) with
  | error e => simp
  | ok routed =>
    simp only
    cases hc : routed.or session with
    | none => simp
    | some client =>
      have hchosen : Chosen session srcIp p client := ⟨routed, hz, hc⟩
      simp only [Act.sat_bind, Act.sat_perform]
      refine ⟨hG _ _ rfl, fun up _ => ?_⟩
      cases up with
      | false => simp
      | true =>
        simp only [if_true, Act.sat_bind, Act.sat_attempt, Act.sat_orRaise, Act.sat_perform]
        refine ⟨hupdate p client hchosen, fun answer _ => ?_⟩
        cases answer with
        | error e => exact sat_pushFailed hG _ _ _ _
        | ok _ =>
          -- The entry about the push is written inside the `try`: when it fails, a push that was
          -- done is answered as a failure.
          simp only [identity, Act.sat_bind, Act.sat_perform, Act.sat_pure]
          refine ⟨hG _ _ rfl, fun ctx _ => ⟨hG _ _ rfl, fun logged _ => ?_⟩⟩
          cases logged with
          | error e => exact sat_pushFailed hG _ _ _ _
          | ok _ =>
            simp only [Act.sat_pure, ends_ok_none]
            exact ⟨p, client, hchosen, by simp⟩

/-- Rule data that a session of the given role may push. -/
def Permitted (py : Py) (role : Option OnapRole) (data : RuleData) : Prop :=
  schemaError py data = none ∧ (role = some .agent → data.action = "DROP")

/-- The data that a session of the given role pushes. -/
def pushedData (role : Option OnapRole) (ruleId : String) (data : RuleData) : RuleData :=
  if role = some .agent then stamp ruleId data else data

/-- A validated push issues the update of permitted data, stamped in an AGENT session. -/
theorem sat_validateAndPush (hG : ∀ h op, op.quiet = true → G h op) {role : Option OnapRole}
    (hrole : ∀ ctx, R h ⟨localSession, ctx⟩ → ctx.map SessionContext.onapRole = role)
    {ruleId : String} {data : RuleData} {messageId : String}
    (hupdate : ∀ ctx p client, Permitted cfg.py role data → Chosen session data.srcIp p client →
      G (h ++ [⟨localSession, ctx⟩] ++ [⟨pool, p⟩] ++ [⟨connected client, true⟩])
        (gnmiUpdate client (rulePath ruleId) (clean (pushedData role ruleId data).items))) :
    Act.Sat R G h () (validateAndPush cfg session ruleId data messageId) fun h' r _ =>
      Ends (Permitted cfg.py role data ∧ ∃ p client, Chosen session data.srcIp p client ∧
        ⟨gnmiUpdate client (rulePath ruleId) (clean (pushedData role ruleId data).items), .ok ()⟩
          ∈ h') r := by
  unfold validateAndPush
  cases hs : schemaError cfg.py data with
  | some msg => simp
  | none =>
    simp only [Act.sat_bind, Act.sat_perform]
    -- The role is read from the thread's session; the relied-on `hrole` says that it is `role`.
    refine ⟨hG _ _ rfl, fun ctx hctx => ?_⟩
    have hctx := hrole ctx hctx
    by_cases hagent : role = some .agent
    · rw [if_pos (hctx.trans hagent)]
      have hpushed : pushedData role ruleId data = stamp ruleId data := if_pos hagent
      by_cases hdrop : data.action = "DROP"
      · have hperm : Permitted cfg.py role data := ⟨hs, fun _ => hdrop⟩
        rw [if_neg (by simpa using hdrop)]
        rw [hpushed] at hupdate ⊢
        exact (sat_pushRule hG fun p client hc => hupdate ctx p client hperm hc).mono
          fun _ _ _ hr => hr.imp fun hdone => ⟨hperm, hdone⟩
      · rw [if_pos hdrop]
        simp only [Act.sat_bind, Act.sat_orRaise, Act.sat_perform]
        refine ⟨hG _ _ rfl, fun logged _ => ?_⟩
        cases logged with
        | ok _ => simp
        | error e => simp
    · rw [if_neg fun heq => hagent (hctx.symm.trans heq)]
      have hperm : Permitted cfg.py role data := ⟨hs, fun h0 => absurd h0 hagent⟩
      have hpushed : pushedData role ruleId data = data := if_neg hagent
      rw [hpushed] at hupdate ⊢
      exact (sat_pushRule hG fun p client hc => hupdate ctx p client hperm hc).mono
        fun _ _ _ hr => hr.imp fun hdone => ⟨hperm, hdone⟩

/-! ## Deleting -/

/-- A call by which the adapter looks for connections. -/
def SfOp.looks : SfOp → Bool
  | pool | connected _ => true
  | _ => false

/-- Such a call is quiet. -/
theorem quiet_of_looks {op : SfOp} (hl : op.looks = true) : op.quiet = true := by
  cases op
  case pool | connected => rfl
  all_goals simp [SfOp.looks] at hl

/-- The events of looks at the pool. -/
def lookups (pools : List Pool) : List SfEvent := pools.map fun p => ⟨pool, p⟩

/-- The clients that are live when each leaf is looked up in its state of the pool. -/
def found (leafIps : List String) (pools : List Pool) : List Client :=
  (leafIps.zip pools).flatMap fun x => (x.2.getClientByKey .admin x.1).toList

/-- The events of successful deletes. -/
def deletes (path : String) (clients : List Client) : List SfEvent :=
  clients.map fun c => ⟨gnmiDelete c path, .ok ()⟩

/-- The events of a delete that was done: every leaf is looked up, and the rule is deleted on the
clients that were live, or on that of the session when there were none. -/
def DeleteDone (cfg : SfConfig) (session : Option Client) (ruleId : String) (h : List SfEvent) :
    Prop :=
  ∃ pools, pools.length = cfg.leafIps.length ∧
    ((found cfg.leafIps pools ≠ [] ∧
        h = lookups pools ++ deletes (rulePath ruleId) (found cfg.leafIps pools)) ∨
      (found cfg.leafIps pools = [] ∧ ∃ client, session = some client ∧
        h = lookups pools ++ [⟨connected client, true⟩] ++ deletes (rulePath ruleId) [client]))

/-- The first loop of a delete looks up every leaf. -/
theorem sat_liveClients (hG : ∀ h op, op.looks = true → G h op) (leafIps : List String) :
    Act.Sat R G h () (liveClients leafIps) fun h' r _ =>
      ∃ pools, pools.length = leafIps.length ∧ h' = h ++ lookups pools ∧
        r = .ok (found leafIps pools) := by
  induction leafIps generalizing h with
  | nil =>
    simp only [liveClients, Act.sat_pure]
    exact ⟨[], rfl, by simp [lookups], rfl⟩
  | cons leafIp rest ih =>
    unfold liveClients
    simp only [Act.sat_bind, Act.sat_perform]
    refine ⟨hG _ _ rfl, fun p _ => ih.mono fun h' r _ hr => ?_⟩
    -- The pool is read anew for every leaf, so that each lookup has its own state of it.
    obtain ⟨pools, hlen, heq, rfl⟩ := hr
    simp only [Act.sat_pure]
    exact ⟨p :: pools, by simp [hlen], by simp [heq, lookups], by simp [found]⟩

/-- The second loop of a delete calls every client. Without an error, every call succeeded. -/
theorem sat_deleteOn {path : String} (hdelete : ∀ h client, G h (gnmiDelete client path))
    (clients : List Client) :
    Act.Sat R G h () (deleteOn path clients) fun h' r _ =>
      ∃ errors, r = .ok errors ∧ (errors = [] → h' = h ++ deletes path clients) := by
  induction clients generalizing h with
  | nil => simp [deleteOn, deletes]
  | cons client rest ih =>
    unfold deleteOn
    simp only [Act.sat_bind, Act.sat_perform]
    refine ⟨hdelete _ _, fun answer _ => ih.mono fun h' r _ hr => ?_⟩
    obtain ⟨errors, rfl, hall⟩ := hr
    -- A call that fails is collected, and the loop goes on.
    cases answer with
    | error e => simp
    | ok _ =>
      simp only [Act.sat_pure]
      exact ⟨errors, rfl, fun h0 => by simp [hall h0, deletes]⟩

/-- The clients of a delete: the live ones, or that of the session. -/
theorem sat_deleteClients (hG : ∀ h op, op.looks = true → G h op) :
    Act.Sat R G h () (deleteClients cfg session) fun h' r _ =>
      ∃ clients pools, r = .ok clients ∧ pools.length = cfg.leafIps.length ∧
        (clients = [] ∨
          (found cfg.leafIps pools ≠ [] ∧ clients = found cfg.leafIps pools ∧
            h' = h ++ lookups pools) ∨
          (found cfg.leafIps pools = [] ∧ ∃ client, session = some client ∧ clients = [client] ∧
            h' = h ++ lookups pools ++ [⟨connected client, true⟩])) := by
  unfold deleteClients
  rw [Act.sat_bind]
  refine (sat_liveClients hG cfg.leafIps).mono fun h' r _ hr => ?_
  obtain ⟨pools, hlen, rfl, rfl⟩ := hr
  simp only
  -- The client of the session is used only when no leaf is live.
  cases hf : found cfg.leafIps pools with
  | cons c rest =>
    simp only [Act.sat_pure]
    exact ⟨_, pools, rfl, hlen, .inr (.inl ⟨by simp [hf], hf.symm, rfl⟩)⟩
  | nil =>
    cases session with
    | none =>
      simp only [Act.sat_pure]
      exact ⟨_, pools, rfl, hlen, .inl rfl⟩
    | some client =>
      simp only [Act.sat_bind, Act.sat_perform]
      refine ⟨hG _ _ rfl, fun up _ => ?_⟩
      cases up with
      | false => exact ⟨_, pools, rfl, hlen, .inl rfl⟩
      | true => exact ⟨_, pools, rfl, hlen, .inr (.inr ⟨hf, client, rfl, rfl, rfl⟩)⟩

/-- A delete that is done without an error has deleted the rule on all of its clients. -/
theorem sat_deleteRule (hG : ∀ h op, op.looks = true → G h op) {ruleId messageId : String}
    (hdelete : ∀ h client, G h (gnmiDelete client (rulePath ruleId))) :
    Act.Sat R G h () (deleteRule cfg session ruleId messageId) fun h' r _ =>
      Ends (∃ h'', h' = h ++ h'' ∧ DeleteDone cfg session ruleId h'') r := by
  unfold deleteRule
  rw [Act.sat_bind]
  refine (sat_deleteClients hG).mono fun h' r _ hr => ?_
  obtain ⟨clients, pools, rfl, hlen, hclients⟩ := hr
  simp only
  split_ifs with h0
  · simp
  · rw [Act.sat_bind]
    refine (sat_deleteOn hdelete clients).mono fun h'' r _ hr => ?_
    obtain ⟨errors, rfl, hall⟩ := hr
    simp only
    split_ifs with he
    -- Without an error, the history is that of the lookups followed by one delete for each client.
    · rw [Act.sat_pure, ends_ok_none, hall he]
      obtain rfl | ⟨hf, rfl, rfl⟩ | ⟨hf, client, rfl, rfl, rfl⟩ := hclients
      · exact absurd rfl h0
      · exact ⟨_, List.append_assoc _ _ _, pools, hlen, .inl ⟨hf, rfl⟩⟩
      · refine ⟨lookups pools ++ [⟨connected client, true⟩] ++
          deletes (rulePath ruleId) [client], by simp, pools, hlen, .inr ⟨hf, client, rfl, rfl⟩⟩
    · simp

end

/-! ## Documents -/

/-- The operation of an element deletes. -/
def Deletes (elem : Xml) : Prop := operationOf elem ∈ ["delete", "remove"]

/-- What an `edit-config` document asks for. -/
inductive Form where
  /-- Nothing that the adapter knows. -/
  | nothing
  /-- The rules of the native form. -/
  | nos (rules : List Xml)
  /-- The deletion of an ACL set. -/
  | openconfigDelete (table : String)
  /-- The entries of an ACL set. -/
  | openconfig (table : String) (entries : List Xml)

/-- A document asks to delete the rule. -/
def Form.AsksDelete (ruleId : String) : Form → Prop
  | .nos rules => ∃ rule ∈ rules, Deletes rule ∧ textOf rule "rule-id" = ruleId
  | .openconfigDelete table => table = ruleId
  | .nothing | .openconfig _ _ => False

/-- A document asks to push the data. -/
def Form.AsksPush (py : Py) (data : RuleData) : Form → Prop
  | .nos rules => ∃ rule ∈ rules, ¬ Deletes rule ∧ nosRuleData py rule = .ok data
  | .openconfig table entries => ∃ entry ∈ entries, entryData py table entry = .ok data
  | .nothing | .openconfigDelete _ => False

/-- The form of the OpenConfig payload of a document. -/
def openconfigForm (config : Xml) : Form :=
  match config.select "acl-sets" with
  | [] => .nothing
  | aclSets :: _ =>
    match aclSets.select "acl-set" with
    | [] => .nothing
    | aclSet :: _ =>
      if operationOf aclSet = "delete" then .openconfigDelete (tableName aclSet)
      else .openconfig (tableName aclSet) (aclSet.select "acl-entry")

/-- The form of a document. -/
def formOf (rpc : Xml) : Form :=
  match rpc.select "config" with
  | [] => .nothing
  | config :: _ =>
    match config.selectNs NS_NOS "acl" with
    | aclRoot :: _ => .nos (aclRoot.select "rule")
    | [] => openconfigForm config

/-- What the adapter does with a document of each form. -/
def handleForm (cfg : SfConfig) (session : Option Client) (messageId : String) : Form → SfM Reply
  | .nothing => return .ok messageId
  | .nos rules => eachRule (nosRule cfg session messageId) messageId rules
  | .openconfigDelete table => do
    return (← deleteRule cfg session table messageId).getD (.ok messageId)
  | .openconfig table entries =>
    eachRule (entryRule cfg session table messageId) messageId entries

/-- The adapter handles a document by its form. -/
theorem editConfigBody_eq (cfg : SfConfig) (session : Option Client) (rpc : Xml) :
    editConfigBody cfg session rpc = handleForm cfg session (messageIdOf rpc) (formOf rpc) := by
  unfold editConfigBody formOf
  cases rpc.select "config" with
  | nil => rfl
  | cons config _ =>
    simp only
    cases config.selectNs NS_NOS "acl" with
    | cons aclRoot _ => rfl
    | nil =>
      -- The OpenConfig form is looked at only when there is no native one.
      unfold handleOpenconfigAcl openconfigForm
      cases config.select "acl-sets" with
      | nil => rfl
      | cons aclSets _ =>
        simp only
        cases aclSets.select "acl-set" with
        | nil => rfl
        | cons aclSet _ =>
          simp only
          split_ifs
          · rfl
          · rfl

section

variable {R : List SfEvent → SfEvent → Prop} {G : List SfEvent → SfOp → Prop}
  {cfg : SfConfig} {session : Option Client} {h : List SfEvent}

/-- How a document can end: with an error, with everything done, or with an exception. -/
def Answers (done : Prop) : Except Exc Reply → Prop
  | .ok reply => reply.isError = true ∨ done
  | .error _ => True

/-- A document that ends one way ends the weaker way. -/
theorem Answers.imp {P Q : Prop} (h : P → Q) {r : Except Exc Reply} (hr : Answers P r) :
    Answers Q r := by
  cases r with
  | ok reply => exact hr.imp_right h
  | error e => trivial

@[simp] theorem answers_error {P : Prop} {e : Exc} : Answers P (.error e) ↔ True := Iff.rfl

/-- What holds of the rules done so far, and is kept by every rule that is done, holds of all the rules
of a document that is not answered with an error. -/
theorem sat_eachRule {step : Xml → SfM (Option Reply)} {messageId : String} {rules : List Xml}
    (Inv : List Xml → List SfEvent → Prop) (h0 : Inv [] h)
    (hstep : ∀ done rule rest h, rules = done ++ rule :: rest → Inv done h →
      Act.Sat R G h () (step rule) fun h r _ => Ends (Inv (done ++ [rule]) h) r) :
    Act.Sat R G h () (eachRule step messageId rules) fun h r _ => Answers (Inv rules h) r := by
  -- The induction is on the rules that are left; `done` grows from the empty list.
  suffices haux : ∀ rest done h, rules = done ++ rest → Inv done h →
      Act.Sat R G h () (eachRule step messageId rest) fun h r _ => Answers (Inv rules h) r from
    haux rules [] h rfl h0
  intro rest
  induction rest with
  | nil =>
    intro done h heq hinv
    rw [List.append_nil] at heq
    subst heq
    exact .inr hinv
  | cons rule rest ih =>
    intro done h heq hinv
    unfold eachRule
    rw [Act.sat_bind]
    refine (hstep done rule rest h heq hinv).mono fun h r _ hr => ?_
    cases r with
    | error e => trivial
    | ok reply =>
      cases reply with
      | none => exact ih (done ++ [rule]) h (by rw [heq]; simp) hr
      | some reply => exact .inl hr

/-- Every rule of a document that is not answered with an error has been done. -/
theorem sat_eachRule_forall {step : Xml → SfM (Option Reply)} {messageId : String}
    {rules : List Xml} {Done : Xml → List SfEvent → Prop}
    (hmono : ∀ rule h h', Done rule h → h <+: h' → Done rule h')
    (hstep : ∀ rule ∈ rules, ∀ h, Act.Sat R G h () (step rule)
      fun h r _ => Ends (Done rule h) r) :
    Act.Sat R G h () (eachRule step messageId rules) fun h r _ =>
      Answers (∀ rule ∈ rules, Done rule h) r := by
  refine sat_eachRule (fun done h => ∀ rule ∈ done, Done rule h) (by simp) ?_
  intro done rule rest h heq hinv
  refine (hstep rule (by simp [heq]) h).extends.mono fun h' r _ hr => hr.1.imp fun hdone x hx => ?_
  rcases List.mem_append.mp hx with hx | hx
  · exact hmono x h h' (hinv x hx) hr.2
  · rw [List.mem_singleton.mp hx]
    exact hdone

/-- What a push that was done has left in the history. -/
def PushDone (cfg : SfConfig) (session : Option Client) (role : Option OnapRole) (data : RuleData)
    (h : List SfEvent) : Prop :=
  Permitted cfg.py role data ∧ ∃ p client, Chosen session data.srcIp p client ∧
    ⟨gnmiUpdate client (rulePath data.ruleId) (clean (pushedData role data.ruleId data).items),
      .ok ()⟩ ∈ h

/-- A stretch of the history has a property. -/
def Within (P : List SfEvent → Prop) (h : List SfEvent) : Prop :=
  ∃ h₁ h₂ h₃, h = h₁ ++ h₂ ++ h₃ ∧ P h₂

/-- What a native rule that was done has left in the history. -/
def NosDone (cfg : SfConfig) (session : Option Client) (role : Option OnapRole) (rule : Xml)
    (h : List SfEvent) : Prop :=
  textOf rule "rule-id" ≠ "" ∧
    ((Deletes rule ∧ Within (DeleteDone cfg session (textOf rule "rule-id")) h) ∨
      (¬ Deletes rule ∧ ∃ data, nosRuleData cfg.py rule = .ok data ∧
        PushDone cfg session role data h))

/-- The id of a native rule is that of its data. -/
theorem ruleId_of_nosRuleData {py : Py} {rule : Xml} {data : RuleData}
    (hd : nosRuleData py rule = .ok data) : data.ruleId = textOf rule "rule-id" := by
  unfold nosRuleData at hd
  obtain ⟨priority, -, hd⟩ := except_bind_eq_ok hd
  obtain ⟨ttlSeconds, -, hd⟩ := except_bind_eq_ok hd
  simp only [pure, Except.pure, Except.ok.injEq] at hd
  rw [← hd]

/-- A native rule deletes, or pushes its data. -/
theorem sat_nosRule (hG : ∀ h op, op.quiet = true → G h op) {role : Option OnapRole}
    (hrole : ∀ h ctx, R h ⟨localSession, ctx⟩ → ctx.map SessionContext.onapRole = role)
    {rule : Xml} {messageId : String}
    (hdelete : textOf rule "rule-id" ≠ "" → Deletes rule → ∀ h client,
      G h (gnmiDelete client (rulePath (textOf rule "rule-id"))))
    (hupdate : ∀ data ctx p client, data.ruleId ≠ "" → ¬ Deletes rule →
      nosRuleData cfg.py rule = .ok data → Permitted cfg.py role data →
      Chosen session data.srcIp p client →
      G (h ++ [⟨localSession, ctx⟩] ++ [⟨pool, p⟩] ++ [⟨connected client, true⟩])
        (gnmiUpdate client (rulePath data.ruleId)
          (clean (pushedData role data.ruleId data).items))) :
    Act.Sat R G h () (nosRule cfg session messageId rule) fun h' r _ =>
      Ends (NosDone cfg session role rule h') r := by
  unfold nosRule
  simp only
  split_ifs with hid hop
  · simp
  · refine (sat_deleteRule (fun h op hl => hG h op (quiet_of_looks hl)) (hdelete hid hop)).mono fun h' r _ hr => hr.imp ?_
    rintro ⟨h'', rfl, hdone⟩
    exact ⟨hid, .inl ⟨hop, h, h'', [], by simp, hdone⟩⟩
  · rw [Act.sat_bind, Act.sat_ofExcept]
    cases hd : nosRuleData cfg.py rule with
    | error e => simp
    | ok data =>
      -- The source takes the id from the element, the update from the data: they are the same.
      have hdid := ruleId_of_nosRuleData hd
      simp only
      rw [← hdid]
      refine (sat_validateAndPush hG (hrole h) fun ctx p client hperm hc =>
        hupdate data ctx p client (hdid ▸ hid) hop hd hperm hc).mono fun h' r _ hr => hr.imp ?_
      rintro ⟨hperm, hpush⟩
      exact ⟨hid, .inr ⟨hop, data, hd, hperm, hpush⟩⟩

/-- The id of an entry is that of its data. -/
theorem ruleId_of_entryData {py : Py} {table : String} {entry : Xml} {data : RuleData}
    (hd : entryData py table entry = .ok data) :
    data.ruleId = table ++ "-" ++ sequenceId entry ∧ data.ruleId ≠ "" := by
  unfold entryData at hd
  obtain ⟨priority, -, hd⟩ := except_bind_eq_ok hd
  simp only [pure, Except.pure, Except.ok.injEq] at hd
  rw [← hd]
  -- The dash alone keeps the id from being empty.
  refine ⟨rfl, fun h0 => ?_⟩
  have hlen := congrArg String.length h0
  simp at hlen

/-- An entry pushes its data. -/
theorem sat_entryRule (hG : ∀ h op, op.quiet = true → G h op) {role : Option OnapRole}
    (hrole : ∀ h ctx, R h ⟨localSession, ctx⟩ → ctx.map SessionContext.onapRole = role)
    {table messageId : String} {entry : Xml}
    (hupdate : ∀ data ctx p client, data.ruleId ≠ "" → entryData cfg.py table entry = .ok data →
      Permitted cfg.py role data → Chosen session data.srcIp p client →
      G (h ++ [⟨localSession, ctx⟩] ++ [⟨pool, p⟩] ++ [⟨connected client, true⟩])
        (gnmiUpdate client (rulePath data.ruleId)
          (clean (pushedData role data.ruleId data).items))) :
    Act.Sat R G h () (entryRule cfg session table messageId entry) fun h' r _ =>
      Ends (∃ data, entryData cfg.py table entry = .ok data ∧
        PushDone cfg session role data h') r := by
  unfold entryRule
  rw [Act.sat_bind, Act.sat_ofExcept]
  cases hd : entryData cfg.py table entry with
  | error e => simp
  | ok data =>
    obtain ⟨hdid, hne⟩ := ruleId_of_entryData hd
    simp only
    rw [← hdid]
    refine (sat_validateAndPush hG (hrole h) fun ctx p client hperm hc =>
      hupdate data ctx p client hne hd hperm hc).mono fun h' r _ hr => hr.imp ?_
    rintro ⟨hperm, hpush⟩
    exact ⟨data, rfl, hperm, hpush⟩

/-- A stretch of a history is one of a longer history. -/
theorem Within.mono {P : List SfEvent → Prop} {h h' : List SfEvent} (hw : Within P h)
    (hpre : h <+: h') : Within P h' := by
  obtain ⟨h₁, h₂, h₃, rfl, hp⟩ := hw
  obtain ⟨t, rfl⟩ := hpre
  exact ⟨h₁, h₂, h₃ ++ t, by simp, hp⟩

/-- A push that was done stays done. -/
theorem PushDone.mono {role : Option OnapRole} {data : RuleData} {h' : List SfEvent}
    (hd : PushDone cfg session role data h) (hpre : h <+: h') :
    PushDone cfg session role data h' := by
  obtain ⟨hperm, p, client, hc, he⟩ := hd
  exact ⟨hperm, p, client, hc, hpre.subset he⟩

/-- A native rule that was done stays done. -/
theorem NosDone.mono {role : Option OnapRole} {rule : Xml} {h' : List SfEvent}
    (hd : NosDone cfg session role rule h) (hpre : h <+: h') :
    NosDone cfg session role rule h' := by
  obtain ⟨hid, ⟨hop, hw⟩ | ⟨hop, data, hdata, hp⟩⟩ := hd
  · exact ⟨hid, .inl ⟨hop, hw.mono hpre⟩⟩
  · exact ⟨hid, .inr ⟨hop, data, hdata, hp.mono hpre⟩⟩

/-- What a document that was answered without an error has left in the history. -/
def FormDone (cfg : SfConfig) (session : Option Client) (role : Option OnapRole)
    (h : List SfEvent) : Form → Prop
  | .nothing => True
  | .nos rules => ∀ rule ∈ rules, NosDone cfg session role rule h
  | .openconfigDelete table => Within (DeleteDone cfg session table) h
  | .openconfig table entries => ∀ entry ∈ entries, ∃ data,
      entryData cfg.py table entry = .ok data ∧ PushDone cfg session role data h

/-- What an update of a document has behind it. -/
structure Issued (cfg : SfConfig) (session : Option Client) (role : Option OnapRole)
    (data : RuleData) (p : Pool) (client : Client) : Prop where
  /-- The rule has an id. -/
  ruleId : data.ruleId ≠ ""
  /-- The session may push it. -/
  permitted : Permitted cfg.py role data
  /-- The client was chosen for its source. -/
  chosen : Chosen session data.srcIp p client

/-- A document is handled rule by rule: a guarantee that holds for the deletes and for the updates
with `Issued` behind them holds for the document, and without an error everything was done. -/
theorem sat_handleForm (hG : ∀ h op, op.quiet = true → G h op) {role : Option OnapRole}
    (hrole : ∀ h ctx, R h ⟨localSession, ctx⟩ → ctx.map SessionContext.onapRole = role)
    {form : Form} (hdelete : ∀ h client ruleId, form.AsksDelete ruleId →
      form = .openconfigDelete ruleId ∨ ruleId ≠ "" → G h (gnmiDelete client (rulePath ruleId)))
    (hupdate : ∀ h data ctx p client, form.AsksPush cfg.py data →
      Issued cfg session role data p client →
      G (h ++ [⟨localSession, ctx⟩] ++ [⟨pool, p⟩] ++ [⟨connected client, true⟩])
        (gnmiUpdate client (rulePath data.ruleId)
          (clean (pushedData role data.ruleId data).items)))
    (messageId : String) :
    Act.Sat R G h () (handleForm cfg session messageId form) fun h r _ =>
      Answers (FormDone cfg session role h form) r := by
  cases form with
  | nothing => exact .inr trivial
  | nos rules =>
    refine sat_eachRule_forall (fun _ _ _ hd hpre => hd.mono hpre) fun rule hmem h => ?_
    exact sat_nosRule hG hrole
      (fun hid hop h client => hdelete h client _ ⟨rule, hmem, hop, rfl⟩ (.inr hid))
      fun data ctx p client hid hop hd hperm hc =>
        hupdate h data ctx p client ⟨rule, hmem, hop, hd⟩ ⟨hid, hperm, hc⟩
  | openconfigDelete table =>
    unfold handleForm
    rw [Act.sat_bind]
    refine (sat_deleteRule (fun h op hl => hG h op (quiet_of_looks hl))
      fun h client => hdelete h client table rfl (.inl rfl)).mono fun h' r _ hr => ?_
    -- A delete that answers nothing is answered with `<ok/>`.
    cases r with
    | error e => trivial
    | ok reply =>
      cases reply with
      | none =>
        obtain ⟨h'', rfl, hdone⟩ := hr
        exact .inr ⟨h, h'', [], by simp, hdone⟩
      | some reply => exact .inl hr
  | openconfig table entries =>
    refine sat_eachRule_forall (fun _ _ _ hd hpre => ?_) fun entry hmem h => ?_
    · obtain ⟨data, hdata, hp⟩ := hd
      exact ⟨data, hdata, hp.mono hpre⟩
    · exact sat_entryRule hG hrole fun data ctx p client hid hd hperm hc =>
        hupdate h data ctx p client ⟨entry, hmem, hd⟩ ⟨hid, hperm, hc⟩

/-- A document is answered, and without an error only when its form was done. -/
theorem sat_handleEditConfig {rpc : Xml} {Done : List SfEvent → Prop}
    (hform : Act.Sat R G h () (handleForm cfg session (messageIdOf rpc) (formOf rpc))
      fun h r _ => Answers (Done h) r) :
    Act.Sat R G h () (handleEditConfig cfg session rpc) fun h r _ =>
      ∃ reply, r = .ok reply ∧ (reply.isError = true ∨ Done h) := by
  unfold handleEditConfig
  rw [Act.sat_bind, Act.sat_attempt, editConfigBody_eq]
  refine hform.mono fun h r _ hr => ?_
  -- The outer `except` turns an exception into an error reply.
  cases r with
  | error e => exact ⟨_, rfl, .inl rfl⟩
  | ok reply => exact ⟨reply, rfl, hr⟩

end

/-! ## What the adapter keeps -/

/-- A call that neither updates nor logs. -/
def SfOp.silent : SfOp → Bool
  | gnmiUpdate _ _ _ | tamperLog _ => false
  | _ => true

/-- What has to be shown of a property of histories for the adapter to keep it: a silent call keeps
it, and so do a push as a whole and the entry about a rule that is blocked. -/
structure Kept (R : List SfEvent → SfEvent → Prop) (session : Option Client)
    (J : List SfEvent → Prop) : Prop where
  /-- Silent calls. -/
  silent : ∀ h e, J h → e.op.silent = true → R h e → J (h ++ [e])
  /-- The entry about a rule that is blocked. -/
  blocked : ∀ h msg a, J h → R h ⟨tamperLog (blockedLog msg), a⟩ →
    J (h ++ [⟨tamperLog (blockedLog msg), a⟩])
  /-- Pushes. -/
  push : ∀ h ruleId data srcIp messageId, J h →
    Act.Sat R (fun _ _ => True) h () (pushRule session ruleId data srcIp messageId) fun h _ _ => J h

section

variable {R : List SfEvent → SfEvent → Prop} {J : List SfEvent → Prop} {cfg : SfConfig}
  {session : Option Client} {h : List SfEvent}

/-- A validated push keeps it. -/
theorem Kept.sat_validateAndPush (hk : Kept R session J) {ruleId : String} {data : RuleData}
    {messageId : String} (hJ : J h) :
    Act.Sat R (fun _ _ => True) h () (validateAndPush cfg session ruleId data messageId)
      fun h _ _ => J h := by
  unfold validateAndPush
  cases schemaError cfg.py data with
  | some msg => exact hJ
  | none =>
    simp only [Act.sat_bind, Act.sat_perform]
    refine ⟨trivial, fun ctx hctx => ?_⟩
    have hJ := hk.silent _ _ hJ rfl hctx
    split_ifs
    · simp only [Act.sat_bind, Act.sat_orRaise, Act.sat_perform]
      refine ⟨trivial, fun logged hl => ?_⟩
      have hJ := hk.blocked _ _ _ hJ hl
      cases logged with
      | ok _ => exact hJ
      | error e => exact hJ
    · exact hk.push _ _ _ _ _ hJ
    · exact hk.push _ _ _ _ _ hJ

/-- A delete keeps it: all of its calls are silent. -/
theorem Kept.sat_deleteRule (hk : Kept R session J) {ruleId messageId : String} (hJ : J h) :
    Act.Sat R (fun _ _ => True) h () (deleteRule cfg session ruleId messageId)
      fun h _ _ => J h := by
  -- The calls of a delete are known from its specification; `transfer` turns what each of them keeps
  -- into what the delete keeps.
  have hcalls : Act.Sat R (fun _ op => op.silent = true) h ()
      (deleteRule cfg session ruleId messageId) fun _ _ _ => True := by
    refine (ControlPlane.Secure.sat_deleteRule ?_ fun _ _ => rfl).mono fun _ _ _ _ => trivial
    intro h op hl
    cases op
    case pool | connected => rfl
    all_goals simp [SfOp.looks] at hl
  exact (hcalls.transfer (fun _ _ _ _ => trivial)
    (fun h e hJ hs hR => ⟨hR, hk.silent h e hJ hs hR⟩) hJ).mono fun _ _ _ hr => hr.2

/-- A native rule keeps it. -/
theorem Kept.sat_nosRule (hk : Kept R session J) {rule : Xml} {messageId : String} (hJ : J h) :
    Act.Sat R (fun _ _ => True) h () (nosRule cfg session messageId rule) fun h _ _ => J h := by
  unfold nosRule
  simp only
  split_ifs
  · exact hJ
  · exact hk.sat_deleteRule hJ
  · rw [Act.sat_bind, Act.sat_ofExcept]
    cases nosRuleData cfg.py rule with
    | error e => exact hJ
    | ok data => exact hk.sat_validateAndPush hJ

/-- An entry keeps it. -/
theorem Kept.sat_entryRule (hk : Kept R session J) {table messageId : String} {entry : Xml}
    (hJ : J h) :
    Act.Sat R (fun _ _ => True) h () (entryRule cfg session table messageId entry)
      fun h _ _ => J h := by
  unfold entryRule
  rw [Act.sat_bind, Act.sat_ofExcept]
  cases entryData cfg.py table entry with
  | error e => exact hJ
  | ok data => exact hk.sat_validateAndPush hJ

/-- The loop over the rules keeps what each round keeps. -/
theorem sat_eachRule_of_keeps {step : Xml → SfM (Option Reply)} {messageId : String}
    (hstep : ∀ h rule, J h → Act.Sat R (fun _ _ => True) h () (step rule) fun h _ _ => J h)
    (rules : List Xml) (hJ : J h) :
    Act.Sat R (fun _ _ => True) h () (eachRule step messageId rules) fun h _ _ => J h := by
  induction rules generalizing h with
  | nil => exact hJ
  | cons rule rest ih =>
    unfold eachRule
    rw [Act.sat_bind]
    refine (hstep h rule hJ).mono fun h r _ hJ => ?_
    cases r with
    | error e => exact hJ
    | ok reply =>
      cases reply with
      | none => exact ih hJ
      | some reply => exact hJ

/-- A document keeps it, however it ends. -/
theorem Kept.sat_handleEditConfig (hk : Kept R session J) (rpc : Xml) (hJ : J h) :
    Act.Sat R (fun _ _ => True) h () (handleEditConfig cfg session rpc) fun h _ _ => J h := by
  have hform : Act.Sat R (fun _ _ => True) h ()
      (handleForm cfg session (messageIdOf rpc) (formOf rpc)) fun h _ _ => J h := by
    cases formOf rpc with
    | nothing => exact hJ
    | nos rules => exact sat_eachRule_of_keeps (fun _ _ hJ => hk.sat_nosRule hJ) rules hJ
    | openconfigDelete table =>
      unfold handleForm
      rw [Act.sat_bind]
      refine (hk.sat_deleteRule hJ).mono fun h r _ hJ => ?_
      cases r with
      | error e => exact hJ
      | ok reply => exact hJ
    | openconfig table entries =>
      exact sat_eachRule_of_keeps (fun _ _ hJ => hk.sat_entryRule hJ) entries hJ
  unfold handleEditConfig
  rw [Act.sat_bind, Act.sat_attempt, editConfigBody_eq]
  refine hform.mono fun h r _ hJ => ?_
  cases r with
  | error e => exact hJ
  | ok reply => exact hJ

end

end ControlPlane.Secure
