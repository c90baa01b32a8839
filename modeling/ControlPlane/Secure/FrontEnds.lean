import ControlPlane.Secure.Payload
import ControlPlane.Secure.RoleApi

/-!
# The two front-ends side by side

The same rule can be pushed by a JSON body or by an `edit-config` document. The two front-ends read it
by code of their own: the adapter trims every text, checks the protocol and the source, sends a source
outside the zones to the first leaf, and falls back on the client of the session; the REST front-end
does none of that, and reads a priority of zero as none. The main result, `agree_iff`, says for which
rules and states of the pool the two do the same.
-/

namespace ControlPlane.Secure

open Text SfOp

/-! ## A rule in a body and in a document -/

/-- A rule that gives all of its texts. -/
structure RuleData.Explicit (d : RuleData) : Prop where
  ruleId : d.ruleId ≠ ""
  action : d.action ≠ ""
  srcIp : d.srcIp ≠ ""
  dstIp : d.dstIp ≠ ""
  protocol : d.protocol ≠ ""
  srcPort : d.srcPort ≠ ""
  dstPort : d.dstPort ≠ ""
  source : d.source ≠ ""
  comment : d.comment ≠ ""

/-- The fields of a body hold a rule, its numbers as JSON numbers. -/
structure RuleData.InBody (d : RuleData) (fields : List (String × Json)) : Prop where
  ruleId : Json.lookup "rule_id" fields = some (.str d.ruleId)
  action : Json.lookup "action" fields = some (.str d.action)
  srcIp : Json.lookup "src_ip" fields = some (.str d.srcIp)
  dstIp : Json.lookup "dst_ip" fields = some (.str d.dstIp)
  protocol : Json.lookup "protocol" fields = some (.str d.protocol)
  srcPort : Json.lookup "src_port" fields = some (.str d.srcPort)
  dstPort : Json.lookup "dst_port" fields = some (.str d.dstPort)
  priority : Json.lookup "priority" fields = some (.int d.priority)
  source : Json.lookup "source" fields = some (.str d.source)
  comment : Json.lookup "comment" fields = some (.str d.comment)
  ttlSeconds : Json.lookup "ttl_seconds" fields = some (.int d.ttlSeconds)
  ttlOnce : Json.lookup "ttl-seconds" fields = none

/-- The text in the first descendant of a name. -/
def textIn (elem : Xml) (name : String) : Option String := (elem.select name).head?.bind Xml.text

/-- A text that is read as a number. -/
def Denotes (py : Py) (text : Option String) (n : ℤ) : Prop :=
  ∃ s, text = some s ∧ strip s ≠ "" ∧ py.int (strip s) = some n

/-- An element holds a rule, its numbers as texts that are read as them. -/
structure RuleData.InElem (py : Py) (d : RuleData) (elem : Xml) : Prop where
  keeps : ¬ Deletes elem
  ruleId : textIn elem "rule-id" = some d.ruleId
  action : textIn elem "action" = some d.action
  srcIp : textIn elem "src-ip" = some d.srcIp
  dstIp : textIn elem "dst-ip" = some d.dstIp
  protocol : textIn elem "protocol" = some d.protocol
  srcPort : textIn elem "src-port" = some d.srcPort
  dstPort : textIn elem "dst-port" = some d.dstPort
  priority : Denotes py (textIn elem "priority") d.priority
  source : textIn elem "source" = some d.source
  comment : textIn elem "comment" = some d.comment
  ttlSeconds : Denotes py (textIn elem "ttl-seconds") d.ttlSeconds

/-! ## What is accepted -/

/-- What the framework calls answers in one state of the pool, with all calls succeeding. -/
def steady (p : Pool) (ctx : Option SessionContext) : (op : SfOp) → SfAns op
  | pool => p
  | connected client => p.connected client
  | op => sunny ctx op

/-- The updates of a history: the leaf and the payload of each. -/
def updatesOf (h : List SfEvent) : List (String × List (String × Json)) :=
  h.filterMap fun e => match e with
    | ⟨gnmiUpdate client _ payload, _⟩ => some (client.host, payload)
    | _ => none

/-- The updates of a body that is accepted. -/
def postAccepted : List SfEvent × Except Exc RestReply × Unit →
    Option (List (String × List (String × Json)))
  | (h, .ok reply, _) => if reply.success then some (updatesOf h) else none
  | (_, .error _, _) => none

/-- The updates of a document that is accepted. -/
def editAccepted : List SfEvent × Except Exc Reply × Unit →
    Option (List (String × List (String × Json)))
  | (h, .ok (.ok _), _) => some (updatesOf h)
  | _ => none

/-- What comes of a body in a state of the pool. -/
def postOutcome (cfg : SfConfig) (p : Pool) (fields : List (String × Json)) :
    Option (List (String × List (String × Json))) :=
  postAccepted (Prog.run (fun _ => steady p none) [] (handlePostRule cfg (.obj fields) ()))

/-- What comes of a document in a state of the pool, in a session with its client. -/
def editOutcome (cfg : SfConfig) (p : Pool) (session : Client) (ctx : SessionContext) (rpc : Xml) :
    Option (List (String × List (String × Json))) :=
  editAccepted (Prog.run (fun _ => steady p (some ctx)) []
    (handleEditConfig cfg (some session) rpc ()))

/-! ## How the front-ends read a rule -/

/-- The data that the REST front-end makes of a rule. -/
def postData (py : Py) (d : RuleData) : RuleData :=
  { d with
    action := py.upper d.action
    protocol := py.lower d.protocol
    priority := if d.priority = 0 then 1000 else d.priority
    source := py.lower d.source }

/-- A trimmed text, or the default for one that is blank. -/
def trimmedOr (s default : String) : String := if strip s = "" then default else strip s

/-- The data that the adapter makes of a rule. -/
def editData (py : Py) (d : RuleData) : RuleData where
  ruleId := strip d.ruleId
  action := py.upper (trimmedOr d.action "DROP")
  srcIp := strip d.srcIp
  dstIp := strip d.dstIp
  protocol := py.lower (trimmedOr d.protocol "all")
  srcPort := strip d.srcPort
  dstPort := strip d.dstPort
  priority := d.priority
  source := py.lower (trimmedOr d.source "sdnc")
  comment := strip d.comment
  ttlSeconds := d.ttlSeconds

/-- The client that the REST front-end finds for a source. -/
def postClient (cfg : SfConfig) (p : Pool) (srcIp : String) : Option Client :=
  match ipToLeaf srcIp with
  | .ok (some leaf) => p.getClientByKey .admin leaf
  | .ok none => p.getAnyClient cfg.leafIps .admin
  | .error _ => none

/-- The client that the adapter finds for a source. -/
def editClient (p : Pool) (session : Client) (srcIp : String) : Option Client :=
  match p.getClientForZone .admin (routedSrc srcIp) with
  | .ok routed => (routed.or (some session)).filter p.connected
  | .error _ => none

section

variable {py : Py} {d : RuleData} {fields : List (String × Json)} {elem : Xml}

/-- A text under the first of the keys is picked. -/
theorem pick_of_lookup {key : String} {keys : List String} {s : String}
    (hl : Json.lookup key fields = some (.str s)) (hs : s ≠ "") :
    pick fields (key :: keys) = some (.str s) := by
  have ht : (Json.str s).truthy = true := by simpa [Json.truthy] using hs
  simp [pick, hl, ht]

/-- A number under the first of the keys is picked, unless it is zero. -/
theorem pick_of_int {key : String} {keys : List String} {n : ℤ}
    (hl : Json.lookup key fields = some (.int n)) (hkeys : ∀ k ∈ keys, Json.lookup k fields = none) :
    pick fields (key :: keys) = if n = 0 then none else some (.int n) := by
  have hrest : pick fields keys = none := by
    unfold pick
    rw [List.findSome?_eq_none_iff]
    intro k hk
    rw [hkeys k hk]
    rfl
  split_ifs with h0
  · subst h0
    simpa [pick, hl, Json.truthy] using hrest
  · have ht : (Json.int n).truthy = true := by simpa [Json.truthy] using h0
    simp [pick, hl, ht]

/-- The REST front-end reads a rule that gives all of its texts. -/
theorem restRuleData_eq (hfmt : ∀ s, py.fmt (.str s) = s) (hd : d.Explicit) (hb : d.InBody fields) :
    restRuleData py (.str d.ruleId) (py.upper d.action) fields = .ok (postData py d).items := by
  -- A priority of zero is as good as none, and gives the default.
  have hpriority : (pick fields ["priority"]).getD (.int 1000) =
      .int (if d.priority = 0 then 1000 else d.priority) := by
    rw [pick_of_int hb.priority (by simp)]
    split_ifs
    · rfl
    · rfl
  -- A lifetime of zero gives the default too, which is zero.
  have httl : (pick fields ["ttl_seconds", "ttl-seconds"]).getD (.int 0) = .int d.ttlSeconds := by
    rw [pick_of_int hb.ttlSeconds (by simpa using hb.ttlOnce)]
    split_ifs with h0
    · rw [h0]
      rfl
    · rfl
  unfold restRuleData
  rw [pick_of_lookup hb.protocol hd.protocol, hpriority, pick_of_lookup hb.source hd.source, httl,
    pick_of_lookup hb.srcIp hd.srcIp, pick_of_lookup hb.dstIp hd.dstIp,
    pick_of_lookup hb.srcPort hd.srcPort, pick_of_lookup hb.dstPort hd.dstPort,
    pick_of_lookup hb.comment hd.comment]
  simp [textMethod, Json.intOf, orEmpty, hfmt, postData, RuleData.items, bind, Except.bind, pure,
    Except.pure]

/-- The text that the adapter reads is the trimmed one. -/
theorem textOf_of_textIn {name s : String} (ht : textIn elem name = some s) :
    textOf elem name = strip s := by
  unfold textIn at ht
  unfold textOf
  cases hsel : elem.select name with
  | nil => simp [hsel] at ht
  | cons child rest =>
    rw [hsel] at ht
    simp only [List.head?_cons, Option.bind_some] at ht
    simp [ht]

/-- So is a text with a default. -/
theorem textOr_of_textIn {name s : String} (default : String) (ht : textIn elem name = some s) :
    textOr elem name default = trimmedOr s default := by
  rw [textOr, textOf_of_textIn ht]
  rfl

/-- The adapter reads the number that a text denotes. -/
theorem intOr_of_denotes {name : String} {n : ℤ} (default : ℤ)
    (hn : Denotes py (textIn elem name) n) : intOr py elem name default = .ok n := by
  obtain ⟨s, hs, hne, hint⟩ := hn
  rw [intOr, textOf_of_textIn hs, if_neg hne]
  simp [Json.intOf, hint]

/-- The adapter reads a rule that an element holds. -/
theorem nosRuleData_eq (he : d.InElem py elem) : nosRuleData py elem = .ok (editData py d) := by
  unfold nosRuleData editData
  rw [intOr_of_denotes _ he.priority, intOr_of_denotes _ he.ttlSeconds, textOf_of_textIn he.ruleId,
    textOr_of_textIn _ he.action, textOf_of_textIn he.srcIp, textOf_of_textIn he.dstIp,
    textOr_of_textIn _ he.protocol, textOf_of_textIn he.srcPort, textOf_of_textIn he.dstPort,
    textOr_of_textIn _ he.source, textOf_of_textIn he.comment]
  rfl

/-! ## What comes of a rule -/

variable {cfg : SfConfig} {p : Pool} {session : Client} {ctx : SessionContext} {rpc : Xml}

/-- The answers are those of one state of the pool. -/
def steadyRely (p : Pool) (ctx : Option SessionContext) (_ : List SfEvent) (e : SfEvent) : Prop :=
  e.ans = steady p ctx e.op

/-- What a method is verified to end with is what its run ends with. -/
theorem run_of_sat {α β : Type} {m : SfM α} {f : List SfEvent × Except Exc α × Unit → β} {b : β}
    {ctx : Option SessionContext} (hm : Act.Sat (steadyRely p ctx) (fun _ _ => True) [] () m
      fun h r s => f (h, r, s) = b) : f (Prog.run (fun _ => steady p ctx) [] (m ())) = b := by
  obtain ⟨hrun, hans⟩ := Prog.runs_const (steady p ctx) (m ())
  exact hrun.post hm (Prog.relied_of_forall hans)

/-- The updates of two stretches. -/
@[simp] theorem updatesOf_append (h t : List SfEvent) :
    updatesOf (h ++ t) = updatesOf h ++ updatesOf t :=
  List.filterMap_append

/-- The REST front-end finds its client, or raises where there is none. -/
theorem sat_steady_restClient {h : List SfEvent} {ctx : Option SessionContext} (srcIp : String) :
    Act.Sat (steadyRely p ctx) (fun _ _ => True) h () (restClient cfg (some (.str srcIp)))
      fun h' r _ => updatesOf h' = updatesOf h ∧
        (r = .ok (postClient cfg p srcIp) ∨ postClient cfg p srcIp = none ∧ ∃ e, r = .error e) := by
  have hleaf : restLeaf cfg.py (some (.str srcIp)) = ipToLeaf srcIp := rfl
  unfold restClient postClient
  rw [Act.sat_bind, Act.sat_ofExcept, hleaf]
  cases ipToLeaf srcIp with
  | error e => exact ⟨rfl, .inr ⟨rfl, e, rfl⟩⟩
  | ok leaf =>
    simp only [Act.sat_bind, Act.sat_perform]
    refine ⟨trivial, fun p' hp' => ?_⟩
    obtain rfl : p' = p := hp'
    cases leaf with
    | some leafIp => exact ⟨by simp [updatesOf], .inl rfl⟩
    | none => exact ⟨by simp [updatesOf], .inl rfl⟩

/-- A push over REST is accepted. -/
theorem sat_steady_restPush {h : List SfEvent} {ctx : Option SessionContext} (client : Client)
    (ruleId : String) (payload : List (String × Json)) :
    Act.Sat (steadyRely p ctx) (fun _ _ => True) h () (restPush client ruleId payload)
      fun h' r _ => postAccepted (h', r, ()) = some (updatesOf h ++ [(client.host, payload)]) := by
  unfold restPush
  simp only [Act.sat_bind, Act.sat_perform]
  refine ⟨trivial, fun answer ha => ?_⟩
  obtain rfl : answer = .ok () := ha
  simp only [Act.sat_bind, Act.sat_orRaise, Act.sat_perform]
  refine ⟨trivial, fun logged hl => ?_⟩
  obtain rfl : logged = .ok () := hl
  simp [postAccepted, updatesOf]

/-- What comes of a body. -/
theorem postOutcome_eq (hfmt : ∀ s, cfg.py.fmt (.str s) = s) (hd : d.Explicit)
    (hb : d.InBody fields) :
    postOutcome cfg p fields =
      if cfg.py.upper d.action ∈ VALID_ACTIONS then
        (postClient cfg p d.srcIp).map fun c => [(c.host, clean (postData cfg.py d).items)]
      else none := by
  refine run_of_sat ?_
  -- The body is not empty, as it has an identifier.
  have hbody : (Json.obj fields).truthy = true := by
    have hne : fields ≠ [] := by
      rintro rfl
      simpa [Json.lookup] using hb.ruleId
    simpa [Json.truthy] using hne
  unfold handlePostRule
  rw [hbody]
  simp only [Bool.not_true, Bool.false_eq_true, if_false]
  rw [pick_of_lookup hb.ruleId hd.ruleId, pick_of_lookup hb.action hd.action,
    pick_of_lookup hb.srcIp hd.srcIp]
  simp only [textMethod, Act.sat_bind, Act.sat_ofExcept]
  by_cases hv : cfg.py.upper d.action ∈ VALID_ACTIONS
  · rw [if_neg (by simpa using hv), if_pos hv, restRuleData_eq hfmt hd hb]
    simp only [Act.sat_bind, Act.sat_ofExcept]
    refine (sat_steady_restClient d.srcIp).mono fun h r _ hr => ?_
    obtain ⟨hupdates, rfl | ⟨hnone, e, rfl⟩⟩ := hr
    -- Without a client the answer is an error, and so it is when the source cannot be looked up.
    · cases postClient cfg p d.srcIp with
      | none => rfl
      | some client =>
        refine (sat_steady_restPush client _ _).mono fun h' r _ hr => ?_
        rw [hr, hupdates]
        rfl
    · rw [hnone]
      rfl
  · rw [if_pos hv, if_neg hv]
    rfl

/-- A rule has led to the updates, or to an error where there are none. -/
def Made (updates : Option (List (String × List (String × Json)))) (h : List SfEvent)
    (r : Except Exc (Option Reply)) : Prop :=
  (updates = some (updatesOf h) ∧ r = .ok none) ∨
    updates = none ∧ ∀ x, r = .ok x → ∃ reply, x = some reply ∧ reply.isError = true

/-- A rule that is answered with an error has led to none. -/
theorem made_none {h : List SfEvent} {msgId errTag errMsg : String} :
    Made none h (.ok (some (appError msgId errTag errMsg))) := by
  refine .inr ⟨rfl, fun x hx => ?_⟩
  obtain rfl := Except.ok.inj hx
  exact ⟨_, rfl, rfl⟩

/-- The adapter pushes on the client that it finds, when there is one. -/
theorem sat_steady_pushRule {h : List SfEvent} {ctx : Option SessionContext}
    {ruleId srcIp messageId : String} {data : RuleData} (hh : updatesOf h = []) :
    Act.Sat (steadyRely p ctx) (fun _ _ => True) h ()
      (pushRule (some session) ruleId data srcIp messageId) fun h' r _ =>
        Made ((editClient p session srcIp).map fun c => [(c.host, clean data.items)]) h' r := by
  have hroute : (if srcIp = "" then "0.0.0.0/0" else srcIp) = routedSrc srcIp := rfl
  unfold pushRule getRoutedClient editClient
  simp only [Act.sat_bind, Act.sat_perform, Act.sat_ofExcept]
  refine ⟨trivial, fun p' hp' => ?_⟩
  obtain rfl : p' = p := hp'
  rw [hroute]
  cases p'.getClientForZone .admin (routedSrc srcIp) with
  | error e => exact .inr ⟨rfl, fun x hx => by simp at hx⟩
  | ok routed =>
    -- The client of the session stands in where the zone has none.
    obtain ⟨client, hclient⟩ : ∃ client, routed.or (some session) = some client := by
      cases routed with
      | none => exact ⟨session, rfl⟩
      | some client => exact ⟨client, rfl⟩
    simp only [hclient, Act.sat_bind, Act.sat_perform]
    refine ⟨trivial, fun up hup => ?_⟩
    obtain rfl : up = p'.connected client := hup
    cases hc : p'.connected client with
    | false =>
      have hnone : (some client).filter p'.connected = none := by simp [Option.filter, hc]
      rw [hnone]
      exact made_none
    | true =>
      have hsome : (some client).filter p'.connected = some client := by simp [Option.filter, hc]
      simp only [if_true, Act.sat_bind, Act.sat_attempt, Act.sat_orRaise, Act.sat_perform]
      refine ⟨trivial, fun answer ha => ?_⟩
      obtain rfl : answer = .ok () := ha
      simp only [identity, Act.sat_bind, Act.sat_perform, Act.sat_pure]
      refine ⟨trivial, fun current _ => ⟨trivial, fun logged hl => ?_⟩⟩
      obtain rfl : logged = .ok () := hl
      rw [hsome]
      exact .inl ⟨by simpa [updatesOf] using hh, rfl⟩

/-- A document with one rule comes to the step of the rule. -/
theorem sat_steady_eachRule {step : Xml → SfM (Option Reply)} {messageId : String} {rule : Xml}
    {ctx : Option SessionContext} {b : Option (List (String × List (String × Json)))}
    (hstep : Act.Sat (steadyRely p ctx) (fun _ _ => True) [] () (step rule)
      fun h r _ => Made b h r) :
    Act.Sat (steadyRely p ctx) (fun _ _ => True) [] () (eachRule step messageId [rule])
      fun h r _ => editAccepted (h, r, ()) = b := by
  unfold eachRule
  rw [Act.sat_bind]
  refine hstep.mono fun h r _ hr => ?_
  obtain ⟨rfl, rfl⟩ | ⟨rfl, hr⟩ := hr
  · rfl
  · cases r with
    | error e => rfl
    | ok x =>
      obtain ⟨reply, rfl, herr⟩ := hr x rfl
      cases reply with
      | error _ _ _ _ => rfl
      | ok m => simp [Reply.isError] at herr
      | data m => simp [Reply.isError] at herr

/-- The updates that the adapter makes for a rule. -/
def editUpdates (py : Py) (p : Pool) (session : Client) (d : RuleData) :
    Option (List (String × List (String × Json))) :=
  if strip d.ruleId ≠ "" ∧ schemaError py (editData py d) = none then
    (editClient p session (strip d.srcIp)).map fun c => [(c.host, clean (editData py d).items)]
  else none

/-- The step of a rule makes those updates, in a session of another role than AGENT. -/
theorem sat_steady_nosRule {messageId : String} (hrole : ctx.onapRole ≠ .agent)
    (he : d.InElem cfg.py elem) :
    Act.Sat (steadyRely p (some ctx)) (fun _ _ => True) [] ()
      (nosRule cfg (some session) messageId elem)
      fun h r _ => Made (editUpdates cfg.py p session d) h r := by
  have hop : operationOf elem ∉ ["delete", "remove"] := he.keeps
  unfold nosRule
  simp only [textOf_of_textIn he.ruleId]
  -- The adapter asks for an identifier first, and then for the schema.
  by_cases hid : strip d.ruleId = ""
  · have hnone : editUpdates cfg.py p session d = none := if_neg fun hboth => hboth.1 hid
    rw [if_pos hid, hnone]
    exact made_none
  rw [if_neg hid, if_neg hop, nosRuleData_eq he]
  simp only [Act.sat_bind, Act.sat_ofExcept]
  unfold validateAndPush
  cases hs : schemaError cfg.py (editData cfg.py d) with
  | some msg =>
    have hnone : editUpdates cfg.py p session d = none := by
      refine if_neg fun hboth => ?_
      rw [hs] at hboth
      simp at hboth
    rw [hnone]
    exact made_none
  | none =>
    have hsome : editUpdates cfg.py p session d = (editClient p session (strip d.srcIp)).map fun c =>
        [(c.host, clean (editData cfg.py d).items)] := if_pos ⟨hid, hs⟩
    simp only [Act.sat_bind, Act.sat_perform]
    refine ⟨trivial, fun current hcur => ?_⟩
    obtain rfl : current = some ctx := hcur
    -- Only a session of the role AGENT has the source of the rule checked.
    rw [if_neg (by simpa using hrole), hsome]
    exact sat_steady_pushRule rfl

/-- What comes of a document with one rule, in a session of another role than AGENT. -/
theorem editOutcome_eq (hrole : ctx.onapRole ≠ .agent) (hform : formOf rpc = .nos [elem])
    (he : d.InElem cfg.py elem) :
    editOutcome cfg p session ctx rpc = editUpdates cfg.py p session d := by
  refine run_of_sat ?_
  unfold handleEditConfig
  rw [Act.sat_bind, Act.sat_attempt, editConfigBody_eq, hform]
  refine (sat_steady_eachRule (sat_steady_nosRule hrole he)).mono fun h r _ hr => ?_
  cases r with
  | error e => exact hr
  | ok reply => exact hr

end

/-! ## Payloads -/

/-- The keys of a rule are distinct. -/
theorem RuleData.nodup_items (d : RuleData) : (d.items.map Prod.fst).Nodup := by
  have hkeys : d.items.map Prod.fst = ["rule-id", "action", "src-ip", "dst-ip", "protocol", "src-port",
      "dst-port", "priority", "source", "comment", "ttl-seconds"] := rfl
  rw [hkeys]
  decide

/-- A value that is not blank can be read off the payload. -/
theorem eq_of_clean_eq {d d' : RuleData} (heq : clean d.items = clean d'.items) (key : String)
    {v w : Json} (hv : Json.lookup key d.items = some v) (hw : Json.lookup key d'.items = some w)
    (hb : isBlank w = false) : v = w := by
  have hclean := lookup_clean hw hb
  rw [← heq] at hclean
  exact Option.some.inj (hv.symm.trans (lookup_of_clean d.nodup_items hclean))

/-- So can a text, since only an empty one is blank. -/
theorem text_eq_of_clean_eq {d d' : RuleData} (heq : clean d.items = clean d'.items) (key : String)
    {s t : String} (hs : Json.lookup key d.items = some (.str s))
    (ht : Json.lookup key d'.items = some (.str t)) : s = t := by
  by_cases ht0 : t = ""
  · by_cases hs0 : s = ""
    · rw [hs0, ht0]
    · exact Json.str.inj (eq_of_clean_eq heq.symm key ht hs (by simpa [isBlank] using hs0)).symm
  · exact Json.str.inj (eq_of_clean_eq heq key hs ht (by simpa [isBlank] using ht0))

/-- A payload shows all of its rule. -/
theorem eq_of_clean_items {d d' : RuleData} (heq : clean d.items = clean d'.items) : d = d' := by
  have htext := @text_eq_of_clean_eq d d' heq
  -- A number is never blank, so that it is in the payload of both.
  have hpriority := Json.int.inj (eq_of_clean_eq heq "priority" rfl rfl rfl)
  have httl := Json.int.inj (eq_of_clean_eq heq "ttl-seconds" rfl rfl rfl)
  have hid := htext "rule-id" rfl rfl
  have haction := htext "action" rfl rfl
  have hsrc := htext "src-ip" rfl rfl
  have hdst := htext "dst-ip" rfl rfl
  have hprotocol := htext "protocol" rfl rfl
  have hsport := htext "src-port" rfl rfl
  have hdport := htext "dst-port" rfl rfl
  have hsource := htext "source" rfl rfl
  have hcomment := htext "comment" rfl rfl
  cases d
  cases d'
  simp only at hid haction hsrc hdst hprotocol hsport hdport hpriority hsource hcomment httl
  subst hid haction hsrc hdst hprotocol hsport hdport hpriority hsource hcomment httl
  rfl

/-- Both front-ends read the same data in a rule: its texts need no trimming, as far as that shows, and
its priority is not zero. -/
structure Alike (py : Py) (d : RuleData) : Prop where
  ruleId : strip d.ruleId = d.ruleId
  action : py.upper (trimmedOr d.action "DROP") = py.upper d.action
  srcIp : strip d.srcIp = d.srcIp
  dstIp : strip d.dstIp = d.dstIp
  protocol : py.lower (trimmedOr d.protocol "all") = py.lower d.protocol
  srcPort : strip d.srcPort = d.srcPort
  dstPort : strip d.dstPort = d.dstPort
  priority : d.priority ≠ 0
  source : py.lower (trimmedOr d.source "sdnc") = py.lower d.source
  comment : strip d.comment = d.comment

/-- The data that the front-ends make of a rule is the same for such rules and no others. -/
theorem editData_eq_iff {py : Py} {d : RuleData} : editData py d = postData py d ↔ Alike py d := by
  unfold editData postData
  rw [RuleData.mk.injEq]
  constructor
  · rintro ⟨hid, haction, hsrc, hdst, hprotocol, hsport, hdport, hpriority, hsource, hcomment, -⟩
    refine ⟨hid, haction, hsrc, hdst, hprotocol, hsport, hdport, fun h0 => ?_, hsource, hcomment⟩
    rw [h0] at hpriority
    simp at hpriority
  · intro h
    exact ⟨h.ruleId, h.action, h.srcIp, h.dstIp, h.protocol, h.srcPort, h.dstPort,
      (if_neg h.priority).symm, h.source, h.comment, rfl⟩

/-! ## Leaves -/

/-- Both front-ends send a source to the same leaf: the leaf of its zone is connected; or it is outside
the zones, and the first leaf that is connected is the one that the adapter takes, the first leaf of
all or that of the session. -/
def SameLeaf (cfg : SfConfig) (p : Pool) (session : Client) (srcIp : String) : Prop :=
  (∃ leaf, ipToLeaf srcIp = .ok (some leaf) ∧ (p.getClientByKey .admin leaf).isSome = true) ∨
    ipToLeaf srcIp = .ok none ∧ ∃ client, p.getAnyClient cfg.leafIps .admin = some client ∧
      (((p.getClientByKey .admin DEFAULT_LEAF1).isSome = true ∧ client.host = DEFAULT_LEAF1) ∨
        (p.getClientByKey .admin DEFAULT_LEAF1 = none ∧ p.connected session = true ∧
          client.host = session.host))

/-- A client that is found for a leaf is connected. -/
theorem Pool.connected_of_getClientByKey {p : Pool} {role : SonicRole} {leafIp : String}
    {client : Client} (h : p.getClientByKey role leafIp = some client) :
    p.connected client = true := by
  unfold getClientByKey at h
  exact (Option.filter_eq_some_iff.mp h).2

/-- The client of the adapter, for a source that can be looked up. -/
theorem editClient_eq {p : Pool} {session : Client} {srcIp : String} {leaf : Option String}
    (hne : srcIp ≠ "") (hleaf : ipToLeaf srcIp = .ok leaf) :
    editClient p session srcIp =
      ((p.getClientByKey .admin (leaf.getD DEFAULT_LEAF1)).or (some session)).filter p.connected := by
  unfold editClient routedSrc Pool.getClientForZone
  rw [if_neg hne, hleaf]
  rfl

/-- The same leaf is that of the clients that both front-ends find. -/
theorem sameLeaf_iff {cfg : SfConfig} {p : Pool} {session : Client} {srcIp : String}
    (hne : srcIp ≠ "") :
    SameLeaf cfg p session srcIp ↔ ∃ c c', postClient cfg p srcIp = some c ∧
      editClient p session srcIp = some c' ∧ c.host = c'.host := by
  unfold SameLeaf postClient
  cases hl : ipToLeaf srcIp with
  | error e => simp
  | ok leaf =>
    rw [editClient_eq hne hl]
    cases leaf with
    | some leaf =>
      -- Inside the zones, both ask the pool for the leaf of the zone.
      simp only [Option.getD_some]
      cases hc : p.getClientByKey .admin leaf with
      | none => simp [hc]
      | some c =>
        have hup := Pool.connected_of_getClientByKey hc
        simp [hc, Option.filter, hup]
    | none =>
      -- Outside, the REST front-end takes any leaf, and the adapter the first one or the session's.
      simp only [Option.getD_none]
      cases hc : p.getClientByKey .admin DEFAULT_LEAF1 with
      | none =>
        cases hup : p.connected session with
        | false => simp [Option.filter, hup]
        | true => simp [Option.filter, hup]
      | some c =>
        have hup := Pool.connected_of_getClientByKey hc
        have hhost := Pool.host_of_getClientByKey hc
        simp [Option.filter, hup, hhost]

/-! ## The condition -/

/-- The REST front-end does not accept a rule. -/
def PostRejects (cfg : SfConfig) (p : Pool) (d : RuleData) : Prop :=
  cfg.py.upper d.action ∉ VALID_ACTIONS ∨ postClient cfg p d.srcIp = none

/-- The adapter does not accept a rule. -/
def EditRejects (py : Py) (p : Pool) (session : Client) (d : RuleData) : Prop :=
  strip d.ruleId = "" ∨ schemaError py (editData py d) ≠ none ∨
    editClient p session (strip d.srcIp) = none

/-- A rule passes the schema check when its action, protocol and source are valid. -/
theorem schemaError_eq_none {py : Py} {data : RuleData} :
    schemaError py data = none ↔ data.action ∈ VALID_ACTIONS ∧ data.protocol ∈ VALID_PROTOCOLS ∧
      data.source ∈ VALID_SOURCES := by
  unfold schemaError
  split_ifs with ha hp hs
  · simp [ha, hp, hs]
  · simp [hs]
  · simp [hp]
  · simp [ha]

/-- The outcomes of both front-ends for a rule, when the first accepts it. -/
theorem agree_iff_of_accepted {cfg : SfConfig} {p : Pool} {session : Client} {d : RuleData}
    {client : Client} (hd : d.Explicit) (hv : cfg.py.upper d.action ∈ VALID_ACTIONS)
    (hc : postClient cfg p d.srcIp = some client) :
    some [(client.host, clean (postData cfg.py d).items)] = editUpdates cfg.py p session d ↔
      Alike cfg.py d ∧ cfg.py.lower d.protocol ∈ VALID_PROTOCOLS ∧
        cfg.py.lower d.source ∈ VALID_SOURCES ∧ SameLeaf cfg p session d.srcIp := by
  constructor
  · intro heq
    unfold editUpdates at heq
    split_ifs at heq with hboth
    obtain ⟨c', hc', hsent⟩ := Option.map_eq_some_iff.mp heq.symm
    simp only [List.cons.injEq, Prod.mk.injEq, and_true] at hsent
    obtain ⟨hhost, hpayload⟩ := hsent
    -- Equal payloads come from equal data, which is a condition on the rule alone.
    have hdata := eq_of_clean_items hpayload
    have halike := editData_eq_iff.mp hdata
    rw [hdata, schemaError_eq_none] at hboth
    rw [halike.srcIp] at hc'
    exact ⟨halike, hboth.2.2.1, hboth.2.2.2,
      (sameLeaf_iff hd.srcIp).mpr ⟨client, c', hc, hc', hhost.symm⟩⟩
  · rintro ⟨halike, hp, hs, hleaf⟩
    obtain ⟨c, c', hpost, hedit, hhost⟩ := (sameLeaf_iff hd.srcIp).mp hleaf
    have hschema : schemaError cfg.py (editData cfg.py d) = none := by
      rw [editData_eq_iff.mpr halike, schemaError_eq_none]
      exact ⟨hv, hp, hs⟩
    obtain rfl : c = client := Option.some.inj (hpost.symm.trans hc)
    unfold editUpdates
    rw [if_pos ⟨by rw [halike.ruleId]; exact hd.ruleId, hschema⟩, halike.srcIp, hedit,
      editData_eq_iff.mpr halike, Option.map_some, hhost]

/-- A document with no updates is one that the adapter does not accept. -/
theorem editUpdates_eq_none {py : Py} {p : Pool} {session : Client} {d : RuleData} :
    editUpdates py p session d = none ↔ EditRejects py p session d := by
  unfold editUpdates EditRejects
  split_ifs with hboth
  · simp [hboth.1, hboth.2]
  · simp only [true_iff]
    by_contra hno
    refine hboth ⟨fun h0 => hno (.inl h0), ?_⟩
    by_contra hs
    exact hno (.inr (.inl hs))

/-- A body and a document with the same rule, all of whose fields are given, come to the same in an
ADMIN session, whatever is connected, exactly when neither is accepted, or the rule reads the same in
both, its action, protocol and source are valid, and both find the same leaf. -/
theorem agree_iff (cfg : SfConfig) (p : Pool) (session : Client) (ctx : SessionContext)
    (hadmin : ctx.onapRole = .admin) (hfmt : ∀ s, cfg.py.fmt (.str s) = s) {d : RuleData}
    (hd : d.Explicit) {fields : List (String × Json)} (hb : d.InBody fields) {rpc elem : Xml}
    (hform : formOf rpc = .nos [elem]) (he : d.InElem cfg.py elem) :
    postOutcome cfg p fields = editOutcome cfg p session ctx rpc ↔
      (PostRejects cfg p d ∧ EditRejects cfg.py p session d) ∨
        (Alike cfg.py d ∧ cfg.py.upper d.action ∈ VALID_ACTIONS ∧
          cfg.py.lower d.protocol ∈ VALID_PROTOCOLS ∧ cfg.py.lower d.source ∈ VALID_SOURCES ∧
          SameLeaf cfg p session d.srcIp) := by
  rw [postOutcome_eq hfmt hd hb, editOutcome_eq (by simp [hadmin]) hform he, eq_comm]
  by_cases hv : cfg.py.upper d.action ∈ VALID_ACTIONS
  · rw [if_pos hv]
    cases hc : postClient cfg p d.srcIp with
    | none =>
      -- The REST front-end has no client: they agree when the adapter turns the rule down as well.
      have hleaf : ¬ SameLeaf cfg p session d.srcIp := by
        rw [sameLeaf_iff hd.srcIp]
        simp [hc]
      rw [Option.map_none, editUpdates_eq_none]
      simp [PostRejects, hc, hleaf]
    | some client =>
      have hpost : ¬ PostRejects cfg p d := by simp [PostRejects, hv, hc]
      rw [Option.map_some, eq_comm, agree_iff_of_accepted hd hv hc]
      simp [hpost, hv]
  · have hpost : PostRejects cfg p d := .inl hv
    rw [if_neg hv, editUpdates_eq_none]
    simp [hpost, hv]

/-- The body of a rule. -/
def ruleFields (d : RuleData) : List (String × Json) :=
  [("rule_id", .str d.ruleId), ("action", .str d.action), ("src_ip", .str d.srcIp),
    ("dst_ip", .str d.dstIp), ("protocol", .str d.protocol), ("src_port", .str d.srcPort),
    ("dst_port", .str d.dstPort), ("priority", .int d.priority), ("source", .str d.source),
    ("comment", .str d.comment), ("ttl_seconds", .int d.ttlSeconds)]

/-- The native element of a rule. -/
def ruleElem (d : RuleData) : Xml :=
  nosElem "merge" [("rule-id", d.ruleId), ("action", d.action), ("src-ip", d.srcIp),
    ("dst-ip", d.dstIp), ("protocol", d.protocol), ("src-port", d.srcPort), ("dst-port", d.dstPort),
    ("priority", toString d.priority), ("source", d.source), ("comment", d.comment),
    ("ttl-seconds", toString d.ttlSeconds)]

/-- The body holds the rule. -/
theorem inBody_ruleFields (d : RuleData) : d.InBody (ruleFields d) :=
  ⟨rfl, rfl, rfl, rfl, rfl, rfl, rfl, rfl, rfl, rfl, rfl, rfl⟩

/-- So does the element, when its numbers can be read. -/
theorem inElem_ruleElem {py : Py} {d : RuleData}
    (hp : Denotes py (some (toString d.priority)) d.priority)
    (ht : Denotes py (some (toString d.ttlSeconds)) d.ttlSeconds) : d.InElem py (ruleElem d) := by
  have hop : operationOf (ruleElem d) = "merge" := rfl
  exact ⟨by simp [Deletes, hop], rfl, rfl, rfl, rfl, rfl, rfl, rfl, hp, rfl, rfl, ht⟩

/-- A rule with a protocol of its own, and all else in order. -/
def ruleOf (protocol : String) : RuleData where
  ruleId := "r1"
  action := "DROP"
  srcIp := "10.1.100.10/32"
  dstIp := "10.2.100.5/32"
  protocol := protocol
  srcPort := "1024"
  dstPort := "443"
  priority := 50
  source := "manual"
  comment := "scan"
  ttlSeconds := 60

/-- Its element holds it. -/
theorem inElem_ruleOf (protocol : String) :
    (ruleOf protocol).InElem plainSf.py (ruleElem (ruleOf protocol)) := by
  have hp : plainSf.py.int (strip "50") = some 50 := by decide
  have ht : plainSf.py.int (strip "60") = some 60 := by decide
  exact inElem_ruleElem ⟨"50", rfl, by decide, hp⟩ ⟨"60", rfl, by decide, ht⟩

/-- A rule for TCP comes to the same over both front-ends when all leaves are connected. -/
theorem agree_iff_tcp :
    postOutcome plainSf .full (ruleFields (ruleOf "tcp")) =
      editOutcome plainSf .full ⟨DEFAULT_LEAF1, 0⟩ adminSession (nosDoc [ruleElem (ruleOf "tcp")]) := by
  refine (agree_iff plainSf .full ⟨DEFAULT_LEAF1, 0⟩ adminSession rfl (fun _ => rfl)
    ⟨by decide, by decide, by decide, by decide, by decide, by decide, by decide, by decide,
      by decide⟩ (inBody_ruleFields _) rfl (inElem_ruleOf "tcp")).mpr (.inr ?_)
  refine ⟨⟨?_, ?_, ?_, ?_, ?_, ?_, ?_, ?_, ?_, ?_⟩, ?_, ?_, ?_, .inl ⟨DEFAULT_LEAF1, ?_, rfl⟩⟩
  all_goals decide +kernel

/-- A rule for GRE is pushed over REST, and is turned down by the adapter. -/
theorem exists_not_agree :
    ¬ ∀ (cfg : SfConfig) (p : Pool) (session : Client) (ctx : SessionContext) (d : RuleData)
      (fields : List (String × Json)) (rpc elem : Xml), ctx.onapRole = .admin →
      (∀ s, cfg.py.fmt (.str s) = s) → d.Explicit → d.InBody fields → formOf rpc = .nos [elem] →
      d.InElem cfg.py elem → postOutcome cfg p fields = editOutcome cfg p session ctx rpc := by
  intro hall
  have heq := hall plainSf .full ⟨DEFAULT_LEAF1, 0⟩ adminSession (ruleOf "gre") _ _ _ rfl
    (fun _ => rfl) ⟨by decide, by decide, by decide, by decide, by decide, by decide, by decide,
      by decide, by decide⟩ (inBody_ruleFields _)
    (show formOf (nosDoc [ruleElem (ruleOf "gre")]) = _ from rfl) (inElem_ruleOf "gre")
  have hpost : (postOutcome plainSf .full (ruleFields (ruleOf "gre"))).isSome = true := by
    decide +kernel
  have hedit : (editOutcome plainSf .full ⟨DEFAULT_LEAF1, 0⟩ adminSession
      (nosDoc [ruleElem (ruleOf "gre")])).isSome = false := by
    decide +kernel
  rw [heq, hedit] at hpost
  simp at hpost

end ControlPlane.Secure
