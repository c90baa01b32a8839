import ControlPlane.Lib.GnmiPath
import ControlPlane.Secure.Payload
import ControlPlane.Secure.RoleApiSpec
import ControlPlane.Secure.SetDelete

/-!
# The paths of rules

Both front-ends put the id of a rule into a path as it is, `rule[rule-id=...]`, and of an id they
only ask that it is there. The YANG model keeps ids to letters, digits, underscores and dashes, but
none of the handlers looks at it. An id with a closing bracket or a backslash is read as another
one, or not at all: a history addresses the rules that it is about exactly when it has no such id
(`addressedExactly_iff`).
-/

namespace ControlPlane.Secure

open SfOp

/-! ## Reading a rule -/

/-- The loop of `_handle_get_rule`: what the leaves have, by their names. A leaf that raises is
passed over. -/
def getRuleOn (path : String) : List (String × String) → SfM (List (String × Json))
  | [] => return []
  | (leafName, leafIp) :: rest => do
    let p ← Act.perform pool
    match p.getClientByKey .admin leafIp with
    | none => getRuleOn path rest
    | some client =>
      let answer ← Act.perform (gnmiGet client path)
      let results ← getRuleOn path rest
      match answer with
      | .ok data => return if data.truthy then (leafName, data) :: results else results
      | .error _ => return results

/-- `_handle_get_rule`: what the leaves have, or an error when none of them has anything. -/
def handleGetRule (cfg : SfConfig) (ruleId : String) :
    SfM (Except RestReply (List (String × Json))) := do
  let results ← getRuleOn (rulePath ruleId) cfg.leaves
  if results ≠ [] then return .ok results
  else return .error (sendError ("Rule '" ++ ruleId ++ "' not found") 404)

/-! ## Requests about rules -/

/-- A request about rules. -/
inductive RuleAccess where
  /-- A `GET` of `/api/rules/{id}`. -/
  | get (ruleId : String)
  /-- A `POST` or `PUT` of `/api/rules`. -/
  | post (body : Json)
  /-- A `DELETE` of `/api/rules/{id}`. -/
  | delete (ruleId : String)
  /-- An `edit-config` in a session, with the client of the session. -/
  | editConfig (session : Option Client) (ctx : SessionContext) (rpc : Xml)

/-- The histories of a request. -/
def RuleAccess.Runs (cfg : SfConfig) : RuleAccess → List SfEvent → Prop
  | get ruleId, h => ∃ r, Prog.Runs (handleGetRule cfg ruleId ()) h r
  | post body, h => ∃ r, Prog.Runs (handlePostRule cfg body ()) h r
  | delete ruleId, h => ∃ r, Prog.Runs (handleDeleteRule cfg ruleId ()) h r
  | editConfig session ctx rpc, h => ∃ r, SessionRuns ctx (handleEditConfig cfg session rpc) h r

/-- A document has a rule with the id: in its leaf `rule-id`, or made of the names of an ACL set and
of an entry. -/
def Form.Names (ruleId : String) : Form → Prop
  | .nothing => False
  | .nos rules => ruleId ≠ "" ∧ ∃ rule ∈ rules, textOf rule "rule-id" = ruleId
  | .openconfigDelete table => table = ruleId
  | .openconfig table entries => ∃ entry ∈ entries, table ++ "-" ++ sequenceId entry = ruleId

/-- A request gives the id. -/
def RuleAccess.Accepts (ruleId : String) : RuleAccess → Prop
  | get id | delete id => id = ruleId
  | post body => ∃ fields, body = .obj fields ∧
      pick fields ["rule_id", "rule-id"] = some (.str ruleId)
  | editConfig _ _ rpc => (formOf rpc).Names ruleId

/-- The id in a body is a text. -/
def RuleAccess.HasText : RuleAccess → Prop
  | post body => ∀ fields id, body = .obj fields →
      pick fields ["rule_id", "rule-id"] = some id → ∃ ruleId, id = .str ruleId
  | get _ | delete _ | editConfig _ _ _ => True

/-- The path of a call about a rule: of one that sets it, and of one by which a `GET` reads it. -/
def RuleAccess.pathOf : RuleAccess → SfOp → Option String
  | _, gnmiUpdate _ path _ | _, gnmiDelete _ path => some path
  | get _, gnmiGet _ path => some path
  | _, _ => none

/-- A request whose id is a text, with the calls that were made for it. -/
structure HandledRequest (cfg : SfConfig) where
  request : RuleAccess
  events : List SfEvent
  hasText : request.HasText
  runs : request.Runs cfg events

/-! ## What is addressed -/

/-- The path to a rule: the list `rule` in the container `acl`, with the single key `rule-id`. -/
def addressOf (ruleId : String) : GnmiPath.Path :=
  [⟨"nos-iptables:acl".toList, [], by simp⟩,
    ⟨"rule".toList, [("rule-id".toList, ruleId.toList)], by simp⟩]

/-- A text is read as the path to the rule of that id. -/
def Addresses (path ruleId : String) : Prop :=
  GnmiPath.parse path.toList = some (addressOf ruleId)

/-- A call of the history has the path that was made of the id. -/
def CalledFor {cfg : SfConfig} (trace : List (HandledRequest cfg)) (ruleId : String) : Prop :=
  ∃ x ∈ trace, ∃ e ∈ x.events, x.request.pathOf e.op = some (rulePath ruleId)

/-- The calls about rules are about the rules that the requests give. -/
structure AddressedExactly {cfg : SfConfig} (trace : List (HandledRequest cfg)) : Prop where
  /-- A path is read as the path to the rule of an id that the request gives, the one that it was
  made of. -/
  exact : ∀ x ∈ trace, ∀ e ∈ x.events, ∀ path, x.request.pathOf e.op = some path →
    ∃ ruleId, x.request.Accepts ruleId ∧ path = rulePath ruleId ∧ Addresses path ruleId
  /-- Distinct ids are read as paths to distinct rules. -/
  distinct : ∀ a b, CalledFor trace a → CalledFor trace b → a ≠ b →
    GnmiPath.parse (rulePath a).toList ≠ GnmiPath.parse (rulePath b).toList
  /-- The key in the path of an update is the id in its payload. -/
  carried : ∀ x ∈ trace, ∀ client path payload a, ⟨gnmiUpdate client path payload, a⟩ ∈ x.events →
    ∃ ruleId, Addresses path ruleId ∧ Json.lookup "rule-id" payload = some (.str ruleId)

/-- An id that stands in a path as it is. -/
def isPlainId (ruleId : String) : Bool := ruleId.toList.all fun c => c != ']' && c != '\\'

theorem rulePath_toList (ruleId : String) :
    (rulePath ruleId).toList = GnmiPath.plain (addressOf ruleId) := by
  have hstart : "/nos-iptables:acl/rule[rule-id=".toList = '/' :: ("nos-iptables:acl".toList ++
      '/' :: ("rule".toList ++ '[' :: ("rule-id".toList ++ ['=']))) := rfl
  have hend : "]".toList = [']'] := rfl
  unfold rulePath
  rw [String.toList_append, String.toList_append, hstart, hend]
  simp only [addressOf, GnmiPath.plain, GnmiPath.write, GnmiPath.Elem.write, GnmiPath.writeKey,
    List.flatMap_cons, List.flatMap_nil, List.append_nil, List.append_assoc, List.cons_append,
    List.nil_append, id_eq]

theorem isPlainId_iff (ruleId : String) :
    isPlainId ruleId = true ↔ GnmiPath.Place.value.Clean ruleId.toList := by
  simp [isPlainId, GnmiPath.Place.Clean, GnmiPath.Place.special]

/-- The path of a rule is read as the path to it exactly when the id is plain. -/
theorem addresses_rulePath_iff (ruleId : String) :
    Addresses (rulePath ruleId) ruleId ↔ isPlainId ruleId = true := by
  -- Nothing else in the path needs a backslash.
  have hnames : GnmiPath.Place.name.Clean "nos-iptables:acl".toList ∧
      GnmiPath.Place.name.Clean "rule".toList ∧ GnmiPath.Place.key.Clean "rule-id".toList := by
    exact ⟨GnmiPath.Place.clean_of_all rfl, GnmiPath.Place.clean_of_all rfl,
      GnmiPath.Place.clean_of_all rfl⟩
  unfold Addresses
  rw [rulePath_toList, GnmiPath.parse_plain_iff, isPlainId_iff]
  constructor
  · intro h
    have hrule := (h _ (List.mem_cons_of_mem _ List.mem_cons_self)).keys _ List.mem_cons_self
    exact hrule.2
  · intro h e he
    rcases List.mem_cons.mp he with rfl | he
    · exact ⟨hnames.1, fun k hk => absurd hk List.not_mem_nil⟩
    · rw [List.mem_singleton.mp he]
      refine ⟨hnames.2.1, fun k hk => ?_⟩
      rw [List.mem_singleton.mp hk]
      exact ⟨hnames.2.2, h⟩

theorem addressOf_injective {a b : String} (h : addressOf a = addressOf b) : a = b := by
  simp only [addressOf, List.cons.injEq, GnmiPath.Elem.mk.injEq, Prod.mk.injEq, true_and,
    and_true] at h
  exact String.toList_inj.mp h

/-! ## The calls of a request -/

/-- A call about a rule is about one that the request gives, and an update carries its id. -/
def RuleAccess.Built (r : RuleAccess) : SfOp → Prop
  | gnmiUpdate _ path payload => ∃ ruleId, r.Accepts ruleId ∧ path = rulePath ruleId ∧
      Json.lookup "rule-id" payload = some (.str ruleId)
  | gnmiDelete _ path => ∃ ruleId, r.Accepts ruleId ∧ path = rulePath ruleId
  | gnmiGet _ path => ∀ ruleId, r = get ruleId → path = rulePath ruleId
  | _ => True

/-- Quiet calls only have to be looked at in a `GET`. -/
theorem RuleAccess.built_quiet {r : RuleAccess} (hr : ∀ ruleId, r ≠ get ruleId)
    (_ : List SfEvent) (op : SfOp) (hq : op.quiet = true) : r.Built op := by
  cases op
  case gnmiUpdate | gnmiDelete => simp [SfOp.quiet] at hq
  case gnmiGet => exact fun ruleId h => absurd h (hr ruleId)
  all_goals trivial

theorem RuleAccess.Built.accepts {r : RuleAccess} {op : SfOp} (h : r.Built op) {path : String}
    (hpath : r.pathOf op = some path) : ∃ ruleId, r.Accepts ruleId ∧ path = rulePath ruleId := by
  cases op
  case gnmiUpdate client p payload =>
    obtain ⟨ruleId, hr, rfl, -⟩ := h
    obtain rfl : rulePath ruleId = path := by cases r <;> exact Option.some.inj hpath
    exact ⟨ruleId, hr, rfl⟩
  case gnmiDelete client p =>
    obtain ⟨ruleId, hr, rfl⟩ := h
    obtain rfl : rulePath ruleId = path := by cases r <;> exact Option.some.inj hpath
    exact ⟨ruleId, hr, rfl⟩
  case gnmiGet client p =>
    cases r with
    | get ruleId =>
      obtain rfl := Option.some.inj hpath
      exact ⟨ruleId, rfl, h ruleId rfl⟩
    | post body => cases hpath
    | delete ruleId => cases hpath
    | editConfig session ctx rpc => cases hpath
  all_goals cases r <;> cases hpath

section

variable {R : List SfEvent → SfEvent → Prop} {G : List SfEvent → SfOp → Prop} {cfg : SfConfig}
  {h : List SfEvent} {path ruleId : String}

/-- A `GET` looks at the pool and reads the path. -/
theorem sat_getRuleOn (hpool : ∀ h, G h pool) (hget : ∀ h client, G h (gnmiGet client path))
    (leaves : List (String × String)) :
    Act.Sat R G h () (getRuleOn path leaves) fun _ _ _ => True := by
  induction leaves generalizing h with
  | nil => trivial
  | cons leaf rest ih =>
    unfold getRuleOn
    simp only [Act.sat_bind, Act.sat_perform]
    refine ⟨hpool h, fun p _ => ?_⟩
    cases p.getClientByKey .admin leaf.2 with
    | none => exact ih
    | some client =>
      simp only [Act.sat_bind, Act.sat_perform]
      refine ⟨hget _ client, fun answer _ => ih.mono fun h' r _ _ => ?_⟩
      cases r with
      | error e => trivial
      | ok results => cases answer <;> trivial

/-- The loop of a REST delete looks at the pool and deletes the path. -/
theorem sat_restDeleteOn_calls (hpool : ∀ h, G h pool)
    (hdelete : ∀ h client, G h (gnmiDelete client path)) (leafIps : List String) :
    Act.Sat R G h () (restDeleteOn path leafIps) fun _ _ _ => True := by
  induction leafIps generalizing h with
  | nil => trivial
  | cons leafIp rest ih =>
    unfold restDeleteOn
    simp only [Act.sat_bind, Act.sat_perform]
    refine ⟨hpool h, fun p _ => ?_⟩
    cases p.getClientByKey .admin leafIp with
    | none => exact ih
    | some client =>
      simp only [Act.sat_bind, Act.sat_perform]
      refine ⟨hdelete _ client, fun answer _ => ih.mono fun h' r _ _ => ?_⟩
      cases r with
      | error e => trivial
      | ok found => cases answer <;> trivial

theorem sat_built_get :
    Act.Sat R (fun _ op => (RuleAccess.get ruleId).Built op) h () (handleGetRule cfg ruleId)
      fun _ _ _ => True := by
  unfold handleGetRule
  rw [Act.sat_bind]
  refine (sat_getRuleOn (fun _ => trivial) (fun _ _ id hid => ?_) _).mono fun h' r _ _ => ?_
  · rw [RuleAccess.get.inj hid]
  · cases r with
    | error e => trivial
    | ok results =>
      simp only
      split_ifs <;> trivial

theorem sat_built_delete :
    Act.Sat R (fun _ op => (RuleAccess.delete ruleId).Built op) h () (handleDeleteRule cfg ruleId)
      fun _ _ _ => True := by
  unfold handleDeleteRule
  rw [Act.sat_bind]
  refine (sat_restDeleteOn_calls (fun _ => trivial) (fun _ _ => ⟨ruleId, rfl, rfl⟩) _).mono
    fun h' r _ _ => ?_
  cases r with
  | error e => trivial
  | ok found =>
    simp only
    split_ifs
    · trivial
    · simp only [Act.sat_bind, Act.sat_orRaise, Act.sat_perform]
      refine ⟨trivial, fun logged _ => ?_⟩
      cases logged <;> trivial

/-- What is picked from a body holds something. -/
theorem truthy_of_pick {fields : List (String × Json)} {keys : List String} {v : Json}
    (h : pick fields keys = some v) : v.truthy = true := by
  obtain ⟨key, -, hkey⟩ := List.exists_of_findSome?_eq_some h
  exact (Option.filter_eq_some_iff.mp hkey).2

theorem lookup_ruleId_of_restRuleData {py : Py} {id : Json} {action : String}
    {fields data : List (String × Json)} (hd : restRuleData py id action fields = .ok data) :
    Json.lookup "rule-id" data = some id := by
  unfold restRuleData at hd
  obtain ⟨protocol, -, hd⟩ := except_bind_eq_ok hd
  obtain ⟨priority, -, hd⟩ := except_bind_eq_ok hd
  obtain ⟨source, -, hd⟩ := except_bind_eq_ok hd
  obtain ⟨ttlSeconds, -, hd⟩ := except_bind_eq_ok hd
  obtain rfl := Except.ok.inj hd
  rfl

theorem sat_built_post (hfmt : ∀ s, cfg.py.fmt (.str s) = s) {body : Json}
    (htext : (RuleAccess.post body).HasText) :
    Act.Sat (fun _ _ => True) (fun _ op => (RuleAccess.post body).Built op) h ()
      (handlePostRule cfg body) fun _ _ _ => True := by
  have hquiet : ∀ (h : List SfEvent) (op : SfOp), op.quiet = true →
      (RuleAccess.post body).Built op :=
    RuleAccess.built_quiet fun ruleId => RuleAccess.noConfusion
  refine sat_handlePostRule (J := fun _ => True) (Q := fun _ => True) hquiet
    (fun _ _ _ => trivial) (fun _ _ => trivial)
    (fun _ fields id action data client hb hp _ => ?_) trivial
  obtain ⟨ruleId, rfl⟩ := htext fields id hb hp.ruleId_eq
  have hfull : isBlank (.str ruleId) = false := by
    have htruthy := truthy_of_pick hp.ruleId_eq
    simpa [Json.truthy, isBlank] using htruthy
  have hlookup := lookup_clean (lookup_ruleId_of_restRuleData hp.read) hfull
  rw [hfmt]
  refine (sat_restPush hquiet ?_).mono fun _ _ _ _ => trivial
  exact ⟨ruleId, ⟨fields, hb, hp.ruleId_eq⟩, rfl, hlookup⟩

theorem lookup_ruleId_pushedData (role : Option OnapRole) (ruleId : String) (data : RuleData) :
    Json.lookup "rule-id" (pushedData role ruleId data).items = some (.str data.ruleId) := by
  unfold pushedData
  split_ifs
  · rfl
  · rfl

/-- The rules that a document asks to push have ids of it. -/
theorem Form.names_of_asksPush {py : Py} {form : Form} {data : RuleData}
    (hask : form.AsksPush py data) (hne : data.ruleId ≠ "") : form.Names data.ruleId := by
  cases form with
  | nothing => exact hask.elim
  | openconfigDelete table => exact hask.elim
  | nos rules =>
    obtain ⟨rule, hmem, -, hd⟩ := hask
    exact ⟨hne, rule, hmem, (ruleId_of_nosRuleData hd).symm⟩
  | openconfig table entries =>
    obtain ⟨entry, hmem, hd⟩ := hask
    exact ⟨entry, hmem, (ruleId_of_entryData hd).1.symm⟩

/-- The rules that a document asks to delete have ids of it. -/
theorem Form.names_of_asksDelete {form : Form} (hask : form.AsksDelete ruleId)
    (hne : form = .openconfigDelete ruleId ∨ ruleId ≠ "") : form.Names ruleId := by
  cases form with
  | nothing => exact hask.elim
  | openconfigDelete table => exact hask
  | openconfig table entries => exact hask.elim
  | nos rules =>
    obtain ⟨rule, hmem, -, hid⟩ := hask
    obtain hform | hne := hne
    · cases hform
    · exact ⟨hne, rule, hmem, hid⟩

theorem sat_built_editConfig {session : Option Client} {ctx : SessionContext} {rpc : Xml}
    (messageId : String) :
    Act.Sat (inSession (some ctx.onapRole))
      (fun _ op => (RuleAccess.editConfig session ctx rpc).Built op) h ()
      (handleForm cfg session messageId (formOf rpc))
      fun h r _ => Answers (FormDone cfg session (some ctx.onapRole) h (formOf rpc)) r := by
  refine sat_handleForm (RuleAccess.built_quiet fun ruleId => RuleAccess.noConfusion)
    (fun _ _ hR => hR) (fun _ client id hask hne => ?_)
    (fun _ data ctx' p client hask hi => ?_) messageId
  · exact ⟨id, Form.names_of_asksDelete hask hne, rfl⟩
  · have hfull : isBlank (.str data.ruleId) = false := by simpa [isBlank] using hi.ruleId
    exact ⟨data.ruleId, Form.names_of_asksPush hask hi.ruleId, rfl,
      lookup_clean (lookup_ruleId_pushedData _ _ data) hfull⟩

end

/-- Every call of a request about a rule is about one that the request gives. -/
theorem HandledRequest.built {cfg : SfConfig} (hfmt : ∀ s, cfg.py.fmt (.str s) = s)
    (x : HandledRequest cfg) {e : SfEvent} (he : e ∈ x.events) : x.request.Built e.op := by
  obtain ⟨request, events, htext, hruns⟩ := x
  obtain ⟨h₁, h₂, rfl⟩ := List.append_of_mem he
  cases request with
  | get ruleId =>
    obtain ⟨r, hrun⟩ := hruns
    exact Prog.Steps.guarantee hrun (sat_built_get (h := [])) (Prog.relied_true _ _)
  | post body =>
    obtain ⟨r, hrun⟩ := hruns
    exact Prog.Steps.guarantee hrun (sat_built_post (h := []) hfmt htext) (Prog.relied_true _ _)
  | delete ruleId =>
    obtain ⟨r, hrun⟩ := hruns
    exact Prog.Steps.guarantee hrun (sat_built_delete (h := [])) (Prog.relied_true _ _)
  | editConfig session ctx rpc =>
    obtain ⟨r, hrun⟩ := hruns
    exact hrun.guarantee (sat_built_editConfig _)

/-- In every history of requests, the calls about rules address the rules that the requests give,
and no others, exactly when all the ids that calls are made for are plain. -/
theorem addressedExactly_iff {cfg : SfConfig} (hfmt : ∀ s, cfg.py.fmt (.str s) = s)
    (trace : List (HandledRequest cfg)) :
    AddressedExactly trace ↔ ∀ ruleId, CalledFor trace ruleId → isPlainId ruleId = true := by
  constructor
  · rintro h ruleId ⟨x, hx, e, he, hpath⟩
    obtain ⟨id, -, heq, haddr⟩ := h.exact x hx e he _ hpath
    obtain rfl := rulePath_injective heq
    exact (addresses_rulePath_iff ruleId).mp haddr
  · intro hplain
    have haddr : ∀ ruleId, CalledFor trace ruleId → Addresses (rulePath ruleId) ruleId :=
      fun ruleId hcall => (addresses_rulePath_iff ruleId).mpr (hplain ruleId hcall)
    constructor
    · intro x hx e he path hpath
      obtain ⟨ruleId, haccepts, rfl⟩ := (x.built hfmt he).accepts hpath
      exact ⟨ruleId, haccepts, rfl, haddr ruleId ⟨x, hx, e, he, hpath⟩⟩
    · intro a b ha hb hne heq
      have hsome := (haddr a ha).symm.trans (heq.trans (haddr b hb))
      exact hne (addressOf_injective (Option.some.inj hsome))
    · intro x hx client path payload a he
      obtain ⟨ruleId, haccepts, rfl, hlookup⟩ := x.built hfmt he
      have hpath : x.request.pathOf (gnmiUpdate client (rulePath ruleId) payload) =
          some (rulePath ruleId) := by
        cases x.request <;> rfl
      exact ⟨ruleId, haddr ruleId ⟨x, hx, _, he, hpath⟩, hlookup⟩

/-! ## An id with a backslash -/

/-- The body of a rule that drops the traffic of a host. -/
def hostBody (ruleId : String) : Json :=
  .obj [("rule_id", .str ruleId), ("src_ip", .str "10.1.100.10/32")]

/-- A rule that is posted when all is well. -/
def posted (ruleId : String) : HandledRequest plainSf where
  request := .post (hostBody ruleId)
  events := (Prog.run (fun _ => sunny none) [] (handlePostRule plainSf (hostBody ruleId) ())).1
  hasText := by
    intro fields id hb hpick
    obtain rfl := Json.obj.inj hb
    have hkeys : pick [("rule_id", .str ruleId), ("src_ip", .str "10.1.100.10/32")]
        ["rule_id", "rule-id"] = (some (Json.str ruleId)).filter Json.truthy := by
      unfold pick
      cases ht : (Json.str ruleId).truthy <;>
        simp [Json.lookup, List.lookup_cons, Option.filter_some, ht]
    rw [hkeys] at hpick
    exact ⟨ruleId, (Option.some.inj (Option.filter_eq_some_iff.mp hpick).1).symm⟩
  runs := ⟨_, (Prog.runs_const (sunny none) _).1⟩

/-- A rule that is asked for when all is well. -/
def asked (ruleId : String) : HandledRequest plainSf where
  request := .get ruleId
  events := (Prog.run (fun _ => sunny none) [] (handleGetRule plainSf ruleId ())).1
  hasText := trivial
  runs := ⟨_, (Prog.runs_const (sunny none) _).1⟩

/-- The paths of the calls about rules. -/
def pathsOf {cfg : SfConfig} (x : HandledRequest cfg) : List String :=
  x.events.filterMap fun e => x.request.pathOf e.op

theorem calledFor_iff {cfg : SfConfig} {trace : List (HandledRequest cfg)} {ruleId : String} :
    CalledFor trace ruleId ↔ rulePath ruleId ∈ trace.flatMap pathsOf := by
  simp only [CalledFor, pathsOf, List.mem_flatMap, List.mem_filterMap]

/-- A rule with a plain id is posted and asked for. -/
theorem addressedExactly_iff_agent :
    CalledFor [posted "agent-5c5875aa62", asked "agent-5c5875aa62"] "agent-5c5875aa62" ∧
      AddressedExactly [posted "agent-5c5875aa62", asked "agent-5c5875aa62"] := by
  have hpaths : [posted "agent-5c5875aa62", asked "agent-5c5875aa62"].flatMap pathsOf =
      [rulePath "agent-5c5875aa62", rulePath "agent-5c5875aa62",
        rulePath "agent-5c5875aa62"] := by
    decide +kernel
  refine ⟨calledFor_iff.mpr (by rw [hpaths]; exact List.mem_cons_self), ?_⟩
  refine (addressedExactly_iff (fun _ => rfl) _).mpr fun ruleId hcall => ?_
  have hmem := calledFor_iff.mp hcall
  rw [hpaths] at hmem
  have heq : rulePath ruleId = rulePath "agent-5c5875aa62" := by simpa using hmem
  rw [rulePath_injective heq]
  decide

/-- The update of the rule `a\b` has the path of the rule `ab`. -/
theorem exists_not_addressedExactly :
    ¬ ∀ (cfg : SfConfig), (∀ s, cfg.py.fmt (.str s) = s) →
      ∀ trace : List (HandledRequest cfg), AddressedExactly trace := by
  intro hall
  have hexact := hall plainSf (fun _ => rfl) [posted "a\\b", posted "ab"]
  have hpaths : [posted "a\\b", posted "ab"].flatMap pathsOf =
      [rulePath "a\\b", rulePath "ab"] := by
    decide +kernel
  have hcalled (ruleId : String) (h : rulePath ruleId ∈ [rulePath "a\\b", rulePath "ab"]) :
      CalledFor [posted "a\\b", posted "ab"] ruleId := by
    rw [calledFor_iff, hpaths]
    exact h
  have hne := hexact.distinct "a\\b" "ab" (hcalled _ (by simp)) (hcalled _ (by simp)) (by decide)
  exact hne (by decide +kernel)

end ControlPlane.Secure
