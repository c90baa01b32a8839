import ControlPlane.Secure.Payload
import ControlPlane.Secure.RoleApiSpec

/-!
# Rules with the source of the agent

A rule that carries the source of the agent is meant to be a drop. The adapter checks that for a
session of the AGENT role, whose rules it stamps; but the source is also a field that a document or
a JSON body can set by itself, and the IDS agent sets it in every body that it forwards. The main
result, `agentDrops_iff`, goes over the requests of both front-ends and says which of them lead to
nothing but drops under that source.
-/

namespace ControlPlane.Secure

open Text SfOp

/-- A call that pushes a rule with the source of the agent pushes a drop. -/
def agentDrops : SfOp → Bool
  | gnmiUpdate _ _ payload => !carries "source" "agent" payload || carries "action" "DROP" payload
  | _ => true

/-- A request to one of the front-ends. -/
inductive Request where
  /-- A `POST` or `PUT` of `/api/rules`. -/
  | rule (body : Json)
  /-- A `POST` of `/rules` to the IDS agent. -/
  | forwarded (body : Json)
  /-- An `edit-config` in a session, with the client of the session. -/
  | editConfig (client : Client) (ctx : SessionContext) (rpc : Xml)

/-- The histories of a request. -/
def Request.Runs (cfg : SfConfig) (transcode : Json → Json) : Request → List SfEvent → Prop
  | rule body, h => ∃ r, Prog.Runs (handlePostRule cfg body ()) h r
  | forwarded body, h =>
    match forwardedBody transcode body with
    | none => h = []
    | some body => ∃ r, Prog.Runs (handlePostRule cfg body ()) h r
  | editConfig client ctx rpc, h =>
    ∃ r, SessionRuns ctx (handleEditConfig cfg (some client) rpc) h r

/-! ## Which requests push -/

/-- A body that asks for something other than a drop with the source of the agent. -/
def RestExposes (cfg : SfConfig) (body : Json) : Prop :=
  ∃ fields ruleId action data, body = .obj fields ∧ RestPushes cfg fields ruleId action data ∧
    textMethod "lower" cfg.py.lower (pick fields ["source"]) "manual" = .ok "agent" ∧
    action ≠ "DROP"

/-- A rule that asks for something other than a drop with the source of the agent. -/
def AsksAgent (py : Py) (rule : Xml) : Prop :=
  py.lower (textOr rule "source" "sdnc") = "agent" ∧ py.upper (textOr rule "action" "DROP") ≠ "DROP"

/-- A document with such a rule, which a session of the role can get to and push. -/
def ReachesAgent (py : Py) (role : OnapRole) : Form → Prop
  | .nos rules => Reaches (fun x => Pushable py role x ∨ AsksDelete x)
      (fun x => Pushable py role x ∧ AsksAgent py x) rules
  | .nothing | .openconfigDelete _ | .openconfig _ _ => False

/-- A request that asks for something other than a drop with the source of the agent. -/
def Request.Exposes (cfg : SfConfig) (transcode : Json → Json) : Request → Prop
  | rule body => RestExposes cfg body
  | forwarded body => ∃ body', forwardedBody transcode body = some body' ∧ RestExposes cfg body'
  | editConfig _ ctx rpc => ReachesAgent cfg.py ctx.onapRole (formOf rpc)

/-! ## Payloads -/

/-- A push whose action and source are read from its data drops, unless its data says otherwise. -/
theorem agentDrops_iff_of_lookup {client : Client} {path action source : String}
    {items : List (String × Json)} (hnd : (items.map Prod.fst).Nodup)
    (ha : Json.lookup "action" items = some (.str action)) (hv : action ∈ VALID_ACTIONS)
    (hs : Json.lookup "source" items = some (.str source)) :
    agentDrops (gnmiUpdate client path (clean items)) = true ↔
      (source = "agent" → action = "DROP") := by
  -- A valid action is not blank, so that `clean` keeps it.
  have hne : action ≠ "" := by
    rintro rfl
    simp [VALID_ACTIONS] at hv
  have haction := carries_of_lookup (lookup_clean ha (by simpa [isBlank] using hne)) "DROP"
  simp only [agentDrops, Bool.or_eq_true, Bool.not_eq_true', haction, beq_iff_eq]
  constructor
  · rintro (hno | hdrop) rfl
    · rw [carries_of_lookup (lookup_clean hs rfl) "agent"] at hno
      simp at hno
    · exact hdrop
  · intro himp
    cases hc : carries "source" "agent" (clean items) with
    | false => exact .inl rfl
    | true =>
      have heq := hs.symm.trans (lookup_of_carries hnd hc)
      simp only [Option.some.injEq, Json.str.injEq] at heq
      exact .inr (himp heq)

/-! ## The REST front-end -/

/-- Quiet calls push nothing. -/
theorem agentDrops_quiet (_ : List SfEvent) (op : SfOp) (hq : op.quiet = true) :
    agentDrops op = true := by
  cases op
  case gnmiUpdate => simp [SfOp.quiet] at hq
  all_goals rfl

section

variable {cfg : SfConfig} {h : List SfEvent}

/-- In a sunny run, there is a client for every source that can be routed. -/
theorem sat_sunny_restClient {srcIp : Option Json} {leaf : Option String}
    (hleaf : restLeaf cfg.py srcIp = .ok leaf) (hne : leaf = none → cfg.leaves ≠ []) :
    Act.Sat (sunnyRely none) (fun _ _ => True) h () (restClient cfg srcIp)
      fun _ r _ => ∃ client, r = .ok (some client) := by
  unfold restClient
  rw [Act.sat_bind, Act.sat_ofExcept, hleaf]
  simp only [Act.sat_bind, Act.sat_perform]
  refine ⟨trivial, fun p hp => ?_⟩
  have hp : p = .full := hp
  subst hp
  cases leaf with
  | some leafIp => exact ⟨_, rfl⟩
  | none =>
    obtain ⟨⟨name, leafIp⟩, rest, hl⟩ := List.exists_cons_of_ne_nil (hne rfl)
    refine ⟨⟨leafIp, 0⟩, ?_⟩
    unfold SfConfig.leafIps Pool.getAnyClient
    rw [hl]
    rfl

/-- In a sunny run, a body that nothing in it keeps from being pushed is. -/
theorem sat_sunny_handlePostRule {fields : List (String × Json)} {ruleId : Json} {action : String}
    {data : List (String × Json)} (hp : RestPushes cfg fields ruleId action data) :
    Act.Sat (sunnyRely none) (fun _ _ => True) h () (handlePostRule cfg (.obj fields))
      fun h _ _ => ∃ client,
        ⟨gnmiUpdate client (rulePath (cfg.py.fmt ruleId)) (clean data), .ok ()⟩ ∈ h := by
  -- A body with a rule id is not the empty object, which the handler turns away.
  have htruthy : (Json.obj fields).truthy = true := by
    cases hf : fields with
    | nil =>
      have hid := hp.ruleId_eq
      simp [hf, pick, Json.lookup] at hid
    | cons f rest => rfl
  obtain ⟨leaf, hleaf, hne⟩ := hp.routed
  unfold handlePostRule
  rw [if_neg (by simp [htruthy])]
  simp only [hp.ruleId_eq]
  rw [Act.sat_bind, Act.sat_ofExcept, hp.action_eq]
  simp only
  rw [if_neg (by simpa using hp.valid), Act.sat_bind, Act.sat_ofExcept, hp.read]
  simp only
  rw [Act.sat_bind]
  refine (sat_sunny_restClient hleaf hne).mono fun h r _ hr => ?_
  obtain ⟨client, rfl⟩ := hr
  simp only [restPush, Act.sat_bind, Act.sat_perform]
  refine ⟨trivial, fun answer ha => ?_⟩
  have ha : answer = .ok () := ha
  subst ha
  simp only [Act.sat_bind, Act.sat_orRaise, Act.sat_perform]
  refine ⟨trivial, fun logged hl => ?_⟩
  have hl : logged = .ok () := hl
  subst hl
  exact ⟨client, by simp⟩

/-- What the data of a body holds. -/
theorem lookup_of_restRuleData {py : Py} {ruleId : Json} {action : String}
    {fields data : List (String × Json)} (hd : restRuleData py ruleId action fields = .ok data) :
    (data.map Prod.fst).Nodup ∧ Json.lookup "action" data = some (.str action) ∧
      ∃ source, textMethod "lower" py.lower (pick fields ["source"]) "manual" = .ok source ∧
        Json.lookup "source" data = some (.str source) := by
  unfold restRuleData at hd
  obtain ⟨protocol, -, hd⟩ := except_bind_eq_ok hd
  obtain ⟨priority, -, hd⟩ := except_bind_eq_ok hd
  obtain ⟨source, hs, hd⟩ := except_bind_eq_ok hd
  obtain ⟨ttlSeconds, -, hd⟩ := except_bind_eq_ok hd
  simp only [pure, Except.pure, Except.ok.injEq] at hd
  subst hd
  exact ⟨by simp, rfl, source, hs, rfl⟩

/-- The push of a body drops, unless the body asks for something else with the source of the
agent. -/
theorem RestPushes.drops_iff {fields : List (String × Json)} {ruleId : Json} {action : String}
    {data : List (String × Json)} (hp : RestPushes cfg fields ruleId action data)
    (client : Client) (path : String) :
    agentDrops (gnmiUpdate client path (clean data)) = true ↔
      (textMethod "lower" cfg.py.lower (pick fields ["source"]) "manual" = .ok "agent" →
        action = "DROP") := by
  obtain ⟨hnd, ha, source, hs, hl⟩ := lookup_of_restRuleData hp.read
  rw [agentDrops_iff_of_lookup hnd ha hp.valid hl, hs, Except.ok.injEq]

/-- Every push of a body drops exactly when the body does not ask for something else. -/
theorem agentDrops_iff_of_body (cfg : SfConfig) (body : Json) :
    (∀ h, (∃ r, Prog.Runs (handlePostRule cfg body ()) h r) → ∀ e ∈ h, agentDrops e.op = true) ↔
      ¬ RestExposes cfg body := by
  constructor
  -- A body that exposes is pushed in the sunny run, with an action that is not a drop.
  · rintro hall ⟨fields, ruleId, action, data, rfl, hp, hsource, hne⟩
    obtain ⟨hrun, hans⟩ := Prog.runs_const (sunny none) (handlePostRule cfg (.obj fields) ())
    have hsunny := sat_sunny_handlePostRule hp (h := [])
    obtain ⟨client, he⟩ := hrun.post hsunny (Prog.relied_of_forall hans)
    have hdrops := hall _ ⟨_, hrun⟩ _ he
    exact hne ((hp.drops_iff client _).mp hdrops hsource)
  · rintro hno h ⟨r, hrun⟩ e he
    obtain ⟨h₁, h₂, rfl⟩ := List.append_of_mem he
    have hsat : Act.Sat (fun _ _ => True) (fun _ op => agentDrops op = true) [] ()
        (handlePostRule cfg body) fun _ _ _ => True := by
      refine sat_handlePostRule (J := fun _ => True) (Q := fun _ => True) agentDrops_quiet
        (fun _ _ _ => trivial) (fun _ _ => trivial)
        (fun _ fields ruleId action data client hb hp _ => ?_) trivial
      refine (sat_restPush agentDrops_quiet ?_).mono fun _ _ _ _ => trivial
      refine (hp.drops_iff client _).mpr fun hsource => ?_
      by_contra hne
      exact hno ⟨fields, ruleId, action, data, hb, hp, hsource, hne⟩
    exact Prog.Steps.guarantee hrun hsat (Prog.relied_true _ _)

end

/-! ## Documents -/

section

variable {cfg : SfConfig} {session : Option Client} {role : OnapRole} {ctx : SessionContext}
  {h : List SfEvent}

/-- The push of permitted data drops, unless a session of another role than AGENT pushes data that
says otherwise. -/
theorem agentDrops_iff_of_permitted {data : RuleData} (hperm : Permitted cfg.py (some role) data)
    (client : Client) (path : String) :
    agentDrops (gnmiUpdate client path (clean (pushedData (some role) data.ruleId data).items)) =
      true ↔ (data.source = "agent" → data.action = "DROP") := by
  have hvalid : data.action ∈ VALID_ACTIONS := by
    have hs := hperm.1
    unfold schemaError at hs
    split_ifs at hs with h1
    exact h1
  unfold pushedData
  split_ifs with hagent
  · have hdrop := hperm.2 hagent
    rw [agentDrops_iff_of_lookup (by simp [RuleData.items]) rfl hvalid rfl]
    simp [stamp, hdrop]
  · exact agentDrops_iff_of_lookup (by simp [RuleData.items]) rfl hvalid rfl

/-- The action and the source of a native rule. -/
theorem source_of_nosRuleData {py : Py} {rule : Xml} {data : RuleData}
    (hd : nosRuleData py rule = .ok data) :
    data.source = py.lower (textOr rule "source" "sdnc") ∧
      data.action = py.upper (textOr rule "action" "DROP") := by
  unfold nosRuleData at hd
  obtain ⟨priority, -, hd⟩ := except_bind_eq_ok hd
  obtain ⟨ttlSeconds, -, hd⟩ := except_bind_eq_ok hd
  simp only [pure, Except.pure, Except.ok.injEq] at hd
  rw [← hd]
  exact ⟨rfl, rfl⟩

/-- The source of an entry. -/
theorem source_of_entryData {py : Py} {table : String} {entry : Xml} {data : RuleData}
    (hd : entryData py table entry = .ok data) : data.source = "sdnc" := by
  unfold entryData at hd
  obtain ⟨priority, -, hd⟩ := except_bind_eq_ok hd
  simp only [pure, Except.pure, Except.ok.injEq] at hd
  rw [← hd]

/-- Where no other rule with the source of the agent can be reached, every push drops. -/
theorem sat_agentDrops {form : Form} (hn : ¬ ReachesAgent cfg.py role form) (messageId : String) :
    Act.Sat (inSession (some role)) (fun _ op => agentDrops op = true) h ()
      (handleForm cfg session messageId form) fun _ r _ => Answers True r := by
  cases form with
  | nothing => exact .inr trivial
  | openconfigDelete table =>
    unfold handleForm
    rw [Act.sat_bind]
    refine (sat_deleteRule (fun h op hl => agentDrops_quiet h op (quiet_of_looks hl))
      fun _ _ => rfl).mono fun h r _ _ => ?_
    cases r with
    | error e => trivial
    | ok reply => exact .inr trivial
  | openconfig table entries =>
    refine (sat_eachRule (fun _ _ => True) trivial fun done entry rest h _ _ => ?_).mono
      fun _ _ _ hr => hr.imp fun _ => trivial
    refine (sat_entryRule agentDrops_quiet (fun _ _ hR => hR)
      fun data _ _ client _ hd hperm _ => ?_).mono fun _ _ _ hr => hr.imp fun _ => trivial
    refine (agentDrops_iff_of_permitted hperm client _).mpr fun hs => ?_
    rw [source_of_entryData hd] at hs
    simp at hs
  | nos rules =>
    -- Every rule that is done was pushable or a delete.
    refine (sat_eachRule (fun done _ => ∀ x ∈ done, Pushable cfg.py role x ∨ AsksDelete x) (by simp)
      fun done rule rest h heq hdone => ?_).mono fun _ _ _ hr => hr.imp fun _ => trivial
    refine (sat_nosRule agentDrops_quiet (fun _ _ hR => hR) (fun _ _ _ _ => rfl)
      fun data _ p client hid hop hd hperm hc => ?_).mono fun _ _ _ hr => hr.imp ?_
    · refine (agentDrops_iff_of_permitted hperm client _).mpr fun hs => ?_
      by_contra hne
      obtain ⟨hsource, haction⟩ := source_of_nosRuleData hd
      have hpush : Pushes cfg.py role rule data :=
        ⟨ruleId_of_nosRuleData hd ▸ hid, hop, hd, hperm, exists_leaf_of_chosen hc⟩
      exact hn ⟨done, rule, rest, heq, hdone, ⟨data, hpush⟩, hsource ▸ hs, haction ▸ hne⟩
    · intro hrule x hx
      rcases List.mem_append.mp hx with hx | hx
      · exact hdone x hx
      · rw [List.mem_singleton.mp hx]
        obtain ⟨hid, ⟨hop, -⟩ | ⟨hop, data, hd, hperm, p, client, hc, -⟩⟩ := hrule
        · exact .inr ⟨hid, hop⟩
        · exact .inl ⟨data, hid, hop, hd, hperm, exists_leaf_of_chosen hc⟩

/-- In a sunny run, a document that reaches such a rule pushes it. -/
theorem sat_sunny_agent {form : Form} {client : Client} {messageId : String}
    (hr : ReachesAgent cfg.py ctx.onapRole form) :
    Act.Sat (sunnyRely (some ctx)) (fun _ _ => True) h ()
      (handleForm cfg (some client) messageId form)
      fun h _ _ => ∃ e ∈ h, agentDrops e.op = false := by
  cases form with
  | nothing => exact hr.elim
  | openconfig table entries => exact hr.elim
  | openconfigDelete table => exact hr.elim
  | nos rules =>
    obtain ⟨done, rule, rest, rfl, hdone, ⟨data, hp⟩, hsource, haction⟩ := hr
    refine sat_eachRule_of_reaches ?_ (fun x hx h => ?_) fun h => ?_
    · rintro h h' ⟨e, he, hd⟩ hpre
      exact ⟨e, hpre.subset he, hd⟩
    -- The rules before it can all be done, so the loop does not stop at any of them.
    · rcases hdone x hx with ⟨data, hx⟩ | hask
      · exact (sat_sunny_nosRule hx).mono fun _ _ _ hr => hr.1
      · exact (sat_sunny_nosRule_delete hask).mono fun _ _ _ hr => hr.1
    · refine (sat_sunny_nosRule hp).mono fun h r _ hr => ?_
      obtain ⟨-, client, he⟩ := hr
      refine ⟨_, he, Bool.eq_false_iff.mpr fun hdrops => ?_⟩
      obtain ⟨hs, ha⟩ := source_of_nosRuleData hp.read
      rw [← hs] at hsource
      rw [← ha] at haction
      exact haction ((agentDrops_iff_of_permitted hp.permitted client _).mp hdrops hsource)

/-- Every push of a document drops exactly when it does not reach a rule that asks for something
else. -/
theorem agentDrops_iff_of_document (cfg : SfConfig) (client : Client) (ctx : SessionContext)
    (rpc : Xml) :
    (∀ h, (∃ r, SessionRuns ctx (handleEditConfig cfg (some client) rpc) h r) →
      ∀ e ∈ h, agentDrops e.op = true) ↔
      ¬ ReachesAgent cfg.py ctx.onapRole (formOf rpc) := by
  constructor
  · intro hall hreach
    obtain ⟨h, r, hrun, e, he, hd⟩ := exists_sunny_run cfg (some client) ctx rpc
      (sat_sunny_agent hreach)
    rw [hall h ⟨r, hrun⟩ e he] at hd
    simp at hd
  · rintro hn h ⟨r, hrun⟩ e he
    obtain ⟨h₁, h₂, rfl⟩ := List.append_of_mem he
    exact hrun.guarantee (sat_agentDrops hn _)

end

/-! ## Requests -/

/-- Every rule that a request pushes with the source of the agent is a drop, exactly when the request
does not itself ask for something else under that source. -/
theorem agentDrops_iff (cfg : SfConfig) (transcode : Json → Json) (request : Request) :
    (∀ h, request.Runs cfg transcode h → ∀ e ∈ h, agentDrops e.op = true) ↔
      ¬ request.Exposes cfg transcode := by
  cases request with
  | rule body => exact agentDrops_iff_of_body cfg body
  | editConfig client ctx rpc => exact agentDrops_iff_of_document cfg client ctx rpc
  | forwarded body =>
    cases hf : forwardedBody transcode body with
    | none => simp [Request.Runs, Request.Exposes, hf]
    | some body =>
      simp only [Request.Runs, Request.Exposes, hf, Option.some.injEq, exists_eq_left']
      exact agentDrops_iff_of_body cfg body

/-- A body that the IDS agent forwards accepts traffic with the source of the agent. -/
theorem exists_request_not_agentDrops :
    ¬ ∀ (cfg : SfConfig) (transcode : Json → Json) (request : Request) (h : List SfEvent),
      request.Runs cfg transcode h → ∀ e ∈ h, agentDrops e.op = true := by
  intro hall
  obtain ⟨hrun, -⟩ := Prog.runs_const (sunny none) (handlePostRule plainSf
    (.obj [("rule_id", .str "r1"), ("action", .str "ACCEPT"), ("source", .str "agent")]) ())
  have hdrops := hall plainSf id (.forwarded (.obj [("rule_id", .str "r1"),
    ("action", .str "ACCEPT")])) _ ⟨_, hrun⟩
  have hnot : (Prog.run (fun _ => sunny none) [] (handlePostRule plainSf
      (.obj [("rule_id", .str "r1"), ("action", .str "ACCEPT"), ("source", .str "agent")])
      ())).1.all (fun e => agentDrops e.op) = false := by
    decide +kernel
  rw [List.all_eq_true.mpr hdrops] at hnot
  simp at hnot

end ControlPlane.Secure
