import ControlPlane.Secure.Sunny

/-!
# What the NETCONF front-end pushes

Every update that a thread of the server issues is well formed, and one of an AGENT session is a
drop with the source of the agent (`updates_valid`). Each thread is verified on its own, from the
pushes up to a whole connection: the role that the adapter reads is the one its own thread set last
(`currentSession`). That other threads cannot change it is the invariant of the interleaving.
-/

namespace ControlPlane.Secure

open Text SfOp

/-- An update as the bridge takes it. -/
structure ValidUpdate (path : String) (payload : List (String × Json)) : Prop where
  /-- The action is a valid one. -/
  action : ∃ a ∈ VALID_ACTIONS, Json.lookup "action" payload = some (.str a)
  /-- So is the protocol. -/
  protocol : ∃ p ∈ VALID_PROTOCOLS, Json.lookup "protocol" payload = some (.str p)
  /-- So is the source. -/
  source : ∃ s ∈ VALID_SOURCES, Json.lookup "source" payload = some (.str s)
  /-- The id of the rule is the one in the path. -/
  ruleId : ∃ id, Json.lookup "rule-id" payload = some (.str id) ∧ path = rulePath id
  /-- No field is null or empty. -/
  filled : ∀ x ∈ payload, x.2 ≠ .null ∧ x.2 ≠ .str ""

/-- An update that the AGENT role may push. -/
def AgentUpdate (payload : List (String × Json)) : Prop :=
  Json.lookup "action" payload = some (.str "DROP") ∧
    Json.lookup "source" payload = some (.str "agent")

/-- The session that a thread has set last. -/
def currentSession (h : List SfEvent) : Option SessionContext :=
  h.foldl (fun s e => match e with
    | ⟨setLocalSession ctx, _⟩ => ctx
    | _ => s) none

@[simp] theorem currentSession_append (h : List SfEvent) (e : SfEvent) :
    currentSession (h ++ [e]) = match e with
      | ⟨setLocalSession ctx, _⟩ => ctx
      | _ => currentSession h := by
  unfold currentSession
  rw [List.foldl_append]
  rfl

/-- What a thread relies on: it reads the session that it has set. -/
def sessionRely (h : List SfEvent) : SfEvent → Prop
  | ⟨localSession, a⟩ => a = currentSession h
  | _ => True

/-! ## Payloads -/

/-- A payload has a text under a key. -/
def carries (key text : String) (payload : List (String × Json)) : Bool :=
  (Json.lookup key payload).any (Json.isStr text)

/-- A field that holds something is kept. -/
theorem lookup_clean {key : String} {v : Json} {items : List (String × Json)}
    (h : Json.lookup key items = some v) (hv : isBlank v = false) :
    Json.lookup key (clean items) = some v := by
  induction items with
  | nil => simp [Json.lookup] at h
  | cons x rest ih =>
    obtain ⟨k, w⟩ := x
    unfold Json.lookup clean at *
    rw [List.lookup_cons] at h
    cases hk : key == k with
    | true =>
      simp only [hk, Option.some.injEq] at h
      subst h
      simp [hv, List.lookup_cons, hk]
    | false =>
      simp only [hk] at h
      rw [List.filter_cons]
      split_ifs
      · rw [List.lookup_cons, hk]
        exact ih h
      · exact ih h

/-- A payload with a text under a key has just that text there. -/
theorem carries_of_lookup {key s : String} {payload : List (String × Json)}
    (h : Json.lookup key payload = some (.str s)) (text : String) :
    carries key text payload = (s == text) := by
  unfold carries
  rw [h]
  rfl

/-- A payload that carries a text under a key has it there. -/
theorem lookup_eq_of_carries {key text : String} {payload : List (String × Json)}
    (h : carries key text payload = true) : Json.lookup key payload = some (.str text) := by
  unfold carries at h
  obtain ⟨v, hv, hs⟩ := (Option.any_eq_true _ _).mp h
  rw [hv]
  cases v with
  | str t => rw [show t = text by simpa [Json.isStr] using hs]
  | _ => simp [Json.isStr] at hs

/-- What a cleaned payload has, the payload has, when its keys are distinct. -/
theorem lookup_of_clean {key : String} {v : Json} {items : List (String × Json)}
    (hnd : (items.map Prod.fst).Nodup) (h : Json.lookup key (clean items) = some v) :
    Json.lookup key items = some v := by
  induction items with
  | nil => exact h
  | cons x rest ih =>
    obtain ⟨k, w⟩ := x
    rw [List.map_cons, List.nodup_cons] at hnd
    unfold Json.lookup clean at *
    rw [List.filter_cons] at h
    split_ifs at h with hw
    · rw [List.lookup_cons] at h ⊢
      cases hk : key == k with
      | true => simpa [hk] using h
      | false =>
        simp only [hk] at h ⊢
        exact ih hnd.2 h
    · have hrest := ih hnd.2 h
      -- The dropped key is not the one that was looked up, which is still there.
      have hk : key ≠ k := by
        rintro rfl
        obtain ⟨l₁, l₂, rfl, -⟩ := List.lookup_eq_some_iff.mp hrest
        exact hnd.1 (by simp)
      rw [List.lookup_cons, beq_false_of_ne hk]
      exact hrest

/-- A text that a cleaned payload carries is that of the field. -/
theorem lookup_of_carries {key text : String} {items : List (String × Json)}
    (hnd : (items.map Prod.fst).Nodup) (h : carries key text (clean items) = true) :
    Json.lookup key items = some (.str text) :=
  lookup_of_clean hnd (lookup_eq_of_carries h)

/-- What is left holds something. -/
theorem filled_clean (items : List (String × Json)) :
    ∀ x ∈ clean items, x.2 ≠ .null ∧ x.2 ≠ .str "" := by
  intro x hx
  unfold clean at hx
  have hb := (List.mem_filter.mp hx).2
  constructor
  · intro h0
    simp [h0, isBlank] at hb
  · intro h0
    simp [h0, isBlank] at hb

/-- Rule data that passes the schema check, under an id. -/
structure ValidData (data : RuleData) : Prop where
  /-- There is an id. -/
  ruleId : data.ruleId ≠ ""
  /-- The action is a valid one. -/
  action : data.action ∈ VALID_ACTIONS
  /-- So is the protocol. -/
  protocol : data.protocol ∈ VALID_PROTOCOLS
  /-- So is the source. -/
  source : data.source ∈ VALID_SOURCES

/-- Rule data without a schema error is valid. -/
theorem validData_of_schemaError {py : Py} {data : RuleData} (hid : data.ruleId ≠ "")
    (h : schemaError py data = none) : ValidData data := by
  unfold schemaError at h
  split_ifs at h with h1 h2 h3
  exact ⟨hid, by simpa using h1, by simpa using h2, by simpa using h3⟩

/-- A member of a list without the empty text holds something. -/
theorem isBlank_of_mem {s : String} {l : List String} (hs : s ∈ l) (hl : "" ∉ l) :
    isBlank (.str s) = false := by
  have hne : s ≠ "" := by
    rintro rfl
    exact hl hs
  simpa [isBlank] using hne

/-- Valid data gives a valid update. -/
theorem ValidData.update {data : RuleData} (hd : ValidData data) :
    ValidUpdate (rulePath data.ruleId) (clean data.items) where
  action := ⟨data.action, hd.action, lookup_clean rfl (isBlank_of_mem hd.action (by decide))⟩
  protocol :=
    ⟨data.protocol, hd.protocol, lookup_clean rfl (isBlank_of_mem hd.protocol (by decide))⟩
  source := ⟨data.source, hd.source, lookup_clean rfl (isBlank_of_mem hd.source (by decide))⟩
  ruleId := ⟨data.ruleId, lookup_clean rfl (by simpa [isBlank] using hd.ruleId), rfl⟩
  filled := filled_clean _

/-- The stamp of the AGENT role keeps the data valid. -/
theorem ValidData.stamp {data : RuleData} (hd : ValidData data) (ruleId : String) :
    ValidData (stamp ruleId data) :=
  ⟨hd.ruleId, hd.action, hd.protocol, by simp [Secure.stamp, VALID_SOURCES]⟩

/-- A stamped drop is an update that the AGENT role may push. -/
theorem agentUpdate_stamp {data : RuleData} (hdrop : data.action = "DROP") (ruleId : String) :
    AgentUpdate (clean (stamp ruleId data).items) := by
  constructor
  · refine lookup_clean ?_ rfl
    simp [RuleData.items, stamp, Json.lookup, List.lookup_cons, hdrop]
  · exact lookup_clean rfl rfl

/-! ## A session -/

/-- What a session guarantees: its updates are valid for its role, and it stays the session of the
thread. -/
def sessionGuarantee (role : Option OnapRole) (_ : List SfEvent) : SfOp → Prop
  | gnmiUpdate _ path payload =>
    ValidUpdate path payload ∧ (role = some .agent → AgentUpdate payload)
  | setLocalSession _ => False
  | _ => True

/-- Quiet calls meet the guarantee of a session. -/
theorem sessionGuarantee_quiet (role : Option OnapRole) (h : List SfEvent) (op : SfOp)
    (hq : op.quiet = true) : sessionGuarantee role h op := by
  cases op
  case gnmiUpdate => simp [SfOp.quiet] at hq
  case setLocalSession => simp [SfOp.quiet] at hq
  all_goals trivial

/-- The update that a session issues for permitted data is valid for its role. -/
theorem Issued.validUpdate {cfg : SfConfig} {session : Option Client} {role : Option OnapRole}
    {data : RuleData} {p : Pool} {client : Client} (hi : Issued cfg session role data p client) :
    ValidUpdate (rulePath data.ruleId) (clean (pushedData role data.ruleId data).items) ∧
      (role = some .agent →
        AgentUpdate (clean (pushedData role data.ruleId data).items)) := by
  have hd := validData_of_schemaError hi.ruleId hi.permitted.1
  unfold pushedData
  split_ifs with hagent
  · exact ⟨(hd.stamp data.ruleId).update,
      fun _ => agentUpdate_stamp (hi.permitted.2 hagent) data.ruleId⟩
  · exact ⟨hd.update, fun h0 => absurd h0 hagent⟩

section

variable {cfg : SfConfig} {session : Option Client} {role : Option OnapRole} {h : List SfEvent}

/-- Reading the tables keeps the guarantee, and answers whatever a leaf says. -/
theorem sat_handleGetConfig :
    Act.Sat (inSession role) (sessionGuarantee role) h () (handleGetConfig session)
      fun _ r _ => r = .ok () := by
  unfold handleGetConfig
  simp only [Act.sat_bind, Act.sat_attempt, Act.sat_orRaise, Act.sat_perform]
  refine ⟨trivial, fun logged _ => ?_⟩
  -- Whatever raises on the way is caught, and the reply is an error.
  cases logged with
  | error e => simp
  | ok _ =>
    cases session with
    | none => simp
    | some client =>
      simp only [Act.sat_bind, Act.sat_perform]
      refine ⟨trivial, fun up _ => ?_⟩
      cases up with
      | false => simp
      | true =>
        simp only [if_true, Act.sat_bind, Act.sat_orRaise, Act.sat_perform]
        refine ⟨trivial, fun answer _ => ?_⟩
        cases answer with
        | error e => simp
        | ok _ => simp

/-- Sending a reply keeps the guarantee. -/
theorem sat_sendResponse (reply : Reply) :
    Act.Sat (inSession role) (sessionGuarantee role) h ()
      (Act.perform (sendResponse reply) : SfM Bool) fun _ _ _ => True :=
  ⟨trivial, fun _ _ => trivial⟩

/-- Handling a message keeps the guarantee of the session. -/
theorem sat_handleRpc (message : Except Exc Xml) :
    Act.Sat (inSession role) (sessionGuarantee role) h () (handleRpc cfg session message)
      fun _ _ _ => True := by
  have hget : ∀ reply, Act.Sat (inSession role) (sessionGuarantee role) h ()
      (do handleGetConfig session; Act.perform (sendResponse reply) : SfM Bool)
      fun _ _ _ => True := by
    intro reply
    rw [Act.sat_bind]
    refine sat_handleGetConfig.mono fun h r _ hr => ?_
    rw [hr]
    exact sat_sendResponse reply
  cases message with
  | error e => exact sat_sendResponse _
  | ok root =>
    unfold handleRpc
    simp only
    -- In the order of the source; `edit-config` is the only request that can lead to an update.
    split_ifs
    · exact hget _
    · exact sat_sendResponse _
    · exact hget _
    · rw [Act.sat_bind]
      refine (sat_handleEditConfig (sat_handleForm (sessionGuarantee_quiet role)
        (fun _ _ hR => hR) (fun _ _ _ _ _ => trivial)
        (fun _ _ _ _ _ _ hi => hi.validUpdate) _)).mono fun h r _ hr => ?_
      obtain ⟨reply, rfl, -⟩ := hr
      exact sat_sendResponse reply
    · exact sat_sendResponse _
    · exact sat_sendResponse _
    · simp only [Act.sat_bind, Act.sat_perform, Act.sat_pure]
      exact ⟨trivial, fun _ _ => trivial⟩
    · exact sat_sendResponse _

/-- The messages of a client keep the guarantee of its session. -/
theorem sat_runSession (inbox : List (Except Exc Xml)) :
    Act.Sat (inSession role) (sessionGuarantee role) h () (runSession cfg session inbox)
      fun _ _ _ => True := by
  induction inbox generalizing h with
  | nil => simp [runSession]
  | cons message rest ih =>
    unfold runSession
    rw [Act.sat_bind]
    refine (sat_handleRpc message).mono fun h r _ _ => ?_
    cases r with
    | error e => trivial
    | ok goesOn =>
      cases goesOn with
      | false => simp
      | true => exact ih

/-- A session as a whole keeps its guarantee. -/
theorem sat_serveClient (ctx : SessionContext) (inbox : List (Except Exc Xml)) :
    Act.Sat (inSession role) (sessionGuarantee role) h () (serveClient cfg ctx inbox)
      fun _ _ _ => True := by
  unfold serveClient
  simp only [Act.sat_bind, Act.sat_perform]
  refine ⟨trivial, fun p _ => ?_⟩
  cases p.getAnyClient cfg.leafIps ctx.sonicRole with
  | none => simp
  | some client => exact sat_runSession inbox

end

/-! ## A thread -/

/-- What a thread guarantees: its updates are valid, and come in a session that was created from its
certificate, with the restrictions of an AGENT session. -/
def threadGuarantee (cfg : SfConfig) (conn : Connection) (h : List SfEvent) : SfOp → Prop
  | gnmiUpdate _ path payload => ValidUpdate path payload ∧ ∃ ctx bypassed,
      currentSession h = some ctx ∧
      extractOnapRoleFromCert cfg.py bypassed conn.cert = some ctx.onapRole ∧
      (ctx.onapRole = .agent → AgentUpdate payload)
  | _ => True

/-- A session that is created is that of the thread, with the role of the certificate. -/
theorem sat_createSession {cfg : SfConfig} {conn : Connection} {h : List SfEvent} :
    Act.Sat sessionRely (threadGuarantee cfg conn) h () (createSession cfg conn.addr conn.cert)
      fun h r _ => ∀ ctx, r = .ok ctx → currentSession h = some ctx ∧
        ∃ bypassed, extractOnapRoleFromCert cfg.py bypassed conn.cert = some ctx.onapRole := by
  unfold createSession
  simp only [Act.sat_bind, Act.sat_perform]
  refine ⟨trivial, fun bypassed _ => ?_⟩
  cases hrole : extractOnapRoleFromCert cfg.py bypassed conn.cert with
  | none => simp
  | some onapRole =>
    simp only [Act.sat_bind, Act.sat_perform]
    refine ⟨trivial, fun policy _ => ⟨trivial, fun policy' _ => ?_⟩⟩
    split
    · simp
    -- With the policy and without it, the context gets the role of the certificate.
    · next ctx hctx =>
      have honap : ctx.onapRole = onapRole := by
        split_ifs at hctx
        · simp only [Option.some.injEq] at hctx
          rw [← hctx]
        · obtain ⟨role, -, rfl⟩ := Option.map_eq_some_iff.mp hctx
          rfl
      simp only [Act.sat_bind, Act.sat_perform, Act.sat_pure, Except.ok.injEq]
      refine ⟨trivial, fun _ _ ctx' hc => ?_⟩
      subst hc
      exact ⟨currentSession_append _ _, bypassed, by rw [hrole, honap]⟩

/-- A thread keeps its guarantee, from the start of its connection to the end. -/
theorem sat_handleClient (cfg : SfConfig) (conn : Connection) :
    Act.Sat sessionRely (threadGuarantee cfg conn) [] () (handleClient cfg conn)
      fun _ _ _ => True := by
  unfold handleClient
  rw [Act.sat_bind, Act.sat_attempt]
  refine sat_createSession.mono fun h r _ hr => ?_
  cases r with
  | error e => simp
  | ok ctx =>
    obtain ⟨hcur, bypassed, hrole⟩ := hr ctx rfl
    simp only [Act.sat_bind, Act.sat_attempt]
    -- Inside the session, the session of the thread does not change.
    have hserve : Act.Sat (inSession (some ctx.onapRole)) (sessionGuarantee (some ctx.onapRole)) h
        () (serveClient cfg ctx conn.inbox) fun _ _ _ => True := sat_serveClient ctx conn.inbox
    refine (hserve.transfer (J := fun h => currentSession h = some ctx) ?_ ?_ hcur).mono
      fun h r _ _ => ?_
    · intro h op hJ hG
      cases op
      case gnmiUpdate client path payload =>
        refine ⟨hG.1, ctx, bypassed, hJ, hrole, fun hagent => hG.2 ?_⟩
        rw [hagent]
      all_goals trivial
    · intro h e hJ hG hR
      obtain ⟨op, a⟩ := e
      cases op
      case localSession =>
        simp only [sessionRely] at hR
        exact ⟨by simp [inSession, hR, hJ], by simpa using hJ⟩
      case setLocalSession => exact hG.elim
      all_goals exact ⟨trivial, by simpa using hJ⟩
    · simp [removeSession, threadGuarantee]

/-! ## The threads side by side -/

section

variable {Tid : Type} [DecidableEq Tid]

/-- The thread-local storage of each thread holds the session that the thread has set last. -/
def LocalInv (hist : Tid → List SfEvent) (s : Tid → Option SessionContext) : Prop :=
  ∀ t, s t = currentSession (hist t)

/-- Every event keeps the invariant, and gives the threads what they rely on. -/
theorem localInv_step {cfg : SfConfig} {conns : Tid → Connection}
    (hist : Tid → List SfEvent) (s : Tid → Option SessionContext) (t : Tid) (e : SfEvent)
    (hJ : LocalInv hist s) (_ : threadGuarantee cfg (conns t) (hist t) e.op)
    (ha : (threadMemory Tid).answers t s e) :
    sessionRely (hist t) e ∧
      LocalInv (Function.update hist t (hist t ++ [e])) ((threadMemory Tid).next t s e) := by
  obtain ⟨op, a⟩ := e
  constructor
  · cases op
    case localSession =>
      simp only [threadMemory] at ha
      simpa [sessionRely, ha] using hJ t
    all_goals trivial
  -- A thread writes its own storage only.
  · intro t'
    rcases eq_or_ne t' t with rfl | ht
    · rw [Function.update_self]
      cases op
      all_goals simp [threadMemory, hJ t']
    · rw [Function.update_of_ne ht]
      cases op
      case setLocalSession => simpa [threadMemory, ht] using hJ t'
      all_goals simpa [threadMemory] using hJ t'

/-- However the threads of the server are interleaved, every update is valid, and comes in a session
of its thread that has the role of the thread's certificate; in an AGENT session it is a drop with
the source of the agent. -/
theorem updates_valid {cfg : SfConfig} {conns : Tid → Connection}
    {l₁ l₂ : List (Tid × SfEvent)} {t : Tid} {client : Client} {path : String}
    {payload : List (String × Json)} {a : Except Exc Unit}
    {q : Tid → Prog SfOp SfAns (Except Exc Unit × Unit)}
    (hrun : Interleaving (clientThreads cfg conns)
      (l₁ ++ (t, ⟨gnmiUpdate client path payload, a⟩) :: l₂) q)
    (hvalid : (threadMemory Tid).Valid (fun _ => none)
      (l₁ ++ (t, ⟨gnmiUpdate client path payload, a⟩) :: l₂)) :
    ValidUpdate path payload ∧ ∃ ctx bypassed,
      (threadMemory Tid).after (fun _ => none) l₁ t = some ctx ∧
      extractOnapRoleFromCert cfg.py bypassed (conns t).cert = some ctx.onapRole ∧
      (ctx.onapRole = .agent → AgentUpdate payload) := by
  obtain ⟨⟨hv, ctx, bypassed, hcur, hrole, hagent⟩, hJ⟩ :=
    Interleaving.guarantee (fun t => sat_handleClient cfg (conns t)) (J := LocalInv)
      (fun _ => rfl) localInv_step hrun hvalid
  exact ⟨hv, ctx, bypassed, (hJ t).trans hcur, hrole, hagent⟩

end

/-! ## A server to run -/

/-- A history with the path of an update has the update. -/
theorem exists_update_of_path {h : List SfEvent} {path : String}
    (hp : h.findSome? updatePath = some path) :
    ∃ client payload a, ⟨gnmiUpdate client path payload, a⟩ ∈ h := by
  obtain ⟨e, he, hpath⟩ := List.exists_of_findSome?_eq_some hp
  unfold updatePath at hpath
  split at hpath
  · next client path' payload a =>
    simp only [Option.some.injEq] at hpath
    subst hpath
    exact ⟨client, payload, a, he⟩
  · simp at hpath

/-- An AGENT connection that drops a host. -/
def agentConnection : Connection where
  addr := ("10.1.0.9", 40024)
  cert := some [[("organizationalUnitName", "auto")], [("commonName", "ids-agent")]]
  inbox := [.ok (nosDoc [nosElem "merge" [("rule-id", "r1"), ("src-ip", "10.1.100.10/32")]])]

/-- The run of the thread of an AGENT connection, next to a thread that has not started. -/
def agentRun : List (Bool × SfEvent) :=
  ((threadMemory Bool).exec (fun s op => sunny (s true) op) true (fun _ => none)
    (clientThreads plainSf (fun _ => agentConnection) true)).1

/-- The thread of an AGENT connection issues a valid update. -/
theorem updates_valid_agent :
    ∃ l₁ client payload a l₂,
      agentRun = l₁ ++ (true, ⟨gnmiUpdate client (rulePath "r1") payload, a⟩) :: l₂ ∧
      ValidUpdate (rulePath "r1") payload := by
  have hpath : (agentRun.map Prod.snd).findSome? updatePath = some (rulePath "r1") := by
    decide +kernel
  obtain ⟨client, payload, a, he⟩ := exists_update_of_path hpath
  obtain ⟨⟨t, e⟩, hmem, rfl⟩ := List.mem_map.mp he
  obtain ⟨l₁, l₂, heq⟩ := List.append_of_mem hmem
  have htrue : ∀ x ∈ agentRun, x.1 = true := by decide +kernel
  obtain rfl := htrue _ hmem
  have hrun := interleaving_exec (threadMemory Bool) (fun s op => sunny (s true) op) true
    (fun _ => none) (clientThreads plainSf fun _ => agentConnection)
  have hvalid := (threadMemory Bool).valid_exec
    (fun s op => show (threadMemory Bool).answers true s ⟨op, sunny (s true) op⟩ by
      cases op <;> trivial)
    (fun _ => none) (clientThreads plainSf (fun _ => agentConnection) true)
  change Interleaving _ agentRun _ at hrun
  change (threadMemory Bool).Valid _ agentRun at hvalid
  rw [heq] at hrun hvalid
  exact ⟨l₁, client, payload, a, l₂, heq, (updates_valid hrun hvalid).1⟩

end ControlPlane.Secure
