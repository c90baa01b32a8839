import ControlPlane.Secure.RoleApiSpec
import ControlPlane.Secure.Sunny

/-!
# The audit of the changes to the leaves

Each handler writes its own entries into the audit log: the adapter for every push, whatever came of
it, and never for a delete; the REST front-end after an update that succeeded, and after a delete
unless it failed on every leaf it tried. The adapter names the role of a session under keys that the
logger does not read, so none of its entries has a role. The main result, `audited_iff`, says of each
update and delete that a request makes when it is recorded as it should be.
-/

namespace ControlPlane.Secure

open Text SfOp

/-- A request that can change the rules of a leaf. -/
inductive RuleRequest where
  /-- An `edit-config` in a session, with the client of the session. -/
  | editConfig (client : Client) (ctx : SessionContext) (rpc : Xml)
  /-- A `POST` or `PUT` of `/api/rules`. -/
  | post (body : Json)
  /-- A `DELETE` of `/api/rules`. -/
  | delete (ruleId : String)

/-- The histories of a request. -/
def RuleRequest.Runs (cfg : SfConfig) : RuleRequest → List SfEvent → Prop
  | editConfig client ctx rpc, h =>
    ∃ r, SessionRuns ctx (handleEditConfig cfg (some client) rpc) h r
  | post body, h => ∃ r, Prog.Runs (handlePostRule cfg body ()) h r
  | delete ruleId, h => ∃ r, Prog.Runs (handleDeleteRule cfg ruleId ()) h r

/-- A call of `gc.set` that updates. -/
def SfOp.isUpdate : SfOp → Bool
  | gnmiUpdate _ _ _ => true
  | _ => false

/-- A call of `gc.set`. -/
def SfOp.isSet : SfOp → Bool
  | gnmiUpdate _ _ _ | gnmiDelete _ _ => true
  | _ => false

/-- A call of `gc.set` that succeeded. -/
def succeeded : SfEvent → Bool
  | ⟨gnmiUpdate _ _ _, .ok _⟩ | ⟨gnmiDelete _ _, .ok _⟩ => true
  | _ => false

/-! ## Entries -/

/-- An entry is about a call of `gc.set`: it has the action of the call, with its data or its rule. -/
def About (entry : LogEntry) : SfOp → Prop
  | gnmiUpdate _ _ payload =>
    entry.action = "push_acl_rule" ∧ entry.requestData = some (.obj payload)
  | gnmiDelete _ path => entry.action = "delete_acl_rule" ∧
    ∃ ruleId, Json.lookup "rule_id" entry.clientInfo = some (.str ruleId) ∧ path = rulePath ruleId
  | _ => False

/-- An identity carries the name, the address and a role of a session. -/
def UserIdentity.Carries (ctx : SessionContext) (u : UserIdentity) : Prop :=
  u.cn = (ctx.clientCn.map Json.str).getD .null ∧ u.ip = .str ctx.clientAddr.1 ∧
    (u.role = .str ctx.onapRole.value ∨ u.role = .str ctx.sonicRole.value)

/-- An entry names who made a request, where the request comes from a session. -/
def RuleRequest.Named (entry : LogEntry) : RuleRequest → Prop
  | editConfig _ ctx _ => entry.userIdentity.Carries ctx
  | post _ | delete _ => True

/-- A call is followed by an entry about it. -/
def Logged (py : Py) (e : SfEvent) (h : List SfEvent) : Prop :=
  ∃ call a, ⟨tamperLog call, a⟩ ∈ h ∧ About (call.entry py) e.op

/-- A call of a request is followed by an entry about it that names who made the request. -/
def Audited (py : Py) (r : RuleRequest) (e : SfEvent) (h : List SfEvent) : Prop :=
  ∃ call a, ⟨tamperLog call, a⟩ ∈ h ∧ About (call.entry py) e.op ∧ r.Named (call.entry py)

/-- The calls of `gc.set` that are logged, among the events `h` of a request: all the updates of a
document, and over REST an update that succeeded, or every delete when one of them did. -/
def RuleRequest.Logs (h : List SfEvent) (e : SfEvent) : RuleRequest → Prop
  | editConfig _ _ _ => e.op.isUpdate = true
  | post _ => succeeded e = true
  | delete _ => ∃ e' ∈ h, succeeded e' = true

/-- Those among them whose entry names who made the request: none in a session. -/
def RuleRequest.Audits (h : List SfEvent) (e : SfEvent) : RuleRequest → Prop
  | editConfig _ _ _ => False
  | post _ => succeeded e = true
  | delete _ => ∃ e' ∈ h, succeeded e' = true

/-- The payload of an update is an object, which has data to hash. -/
theorem about_update {call : LogCall} {py : Py} {client : Client} {path : String}
    {payload : List (String × Json)} (hne : payload ≠ []) (ha : call.action = "push_acl_rule")
    (hd : call.requestData = .obj payload) : About (call.entry py) (gnmiUpdate client path payload) := by
  refine ⟨ha, ?_⟩
  simp [LogCall.entry, hd, Json.truthy, hne]

/-! ## The REST front-end -/

/-- An event that comes before the last one of a history is followed by it. -/
theorem mem_of_append_eq_concat {h₁ h₂ s : List SfEvent} {e l : SfEvent} (hne : e ≠ l)
    (heq : h₁ ++ e :: h₂ = s ++ [l]) : l ∈ h₂ := by
  obtain rfl | ⟨t, x, rfl⟩ := List.eq_nil_or_concat h₂
  · have hlast := List.append_inj_right' heq rfl
    exact absurd (List.singleton_injective hlast) hne
  · have heq : h₁ ++ e :: t ++ [x] = s ++ [l] := by simpa using heq
    have hlast := List.append_inj_right' heq rfl
    simp [List.singleton_injective hlast]

/-- A history without an entry logs nothing. -/
theorem not_logged {py : Py} {e : SfEvent} {h h₁ h₂ : List SfEvent} (heq : h = h₁ ++ e :: h₂)
    (hno : ∀ e ∈ h, e.op.silent = true ∨ e.op.isUpdate = true) : ¬ Logged py e h₂ := by
  rintro ⟨call, a, he, -⟩
  have := hno ⟨tamperLog call, a⟩ (by simp [heq, he])
  simp [SfOp.silent, SfOp.isUpdate] at this

/-- What is pushed has a priority, so that it is not empty. -/
theorem clean_ne_nil {items : List (String × Json)} {n : ℤ} (hn : ("priority", .int n) ∈ items) :
    clean items ≠ [] :=
  List.ne_nil_of_mem (List.mem_filter.mpr ⟨hn, rfl⟩)

/-- The data of a body has a priority. -/
theorem RestPushes.clean_ne_nil {cfg : SfConfig} {fields : List (String × Json)} {ruleId : Json}
    {action : String} {data : List (String × Json)} (hp : RestPushes cfg fields ruleId action data) :
    clean data ≠ [] := by
  have hd := hp.read
  unfold restRuleData at hd
  obtain ⟨protocol, -, hd⟩ := except_bind_eq_ok hd
  obtain ⟨priority, -, hd⟩ := except_bind_eq_ok hd
  obtain ⟨source, -, hd⟩ := except_bind_eq_ok hd
  obtain ⟨ttlSeconds, -, hd⟩ := except_bind_eq_ok hd
  simp only [pure, Except.pure, Except.ok.injEq] at hd
  rw [← hd]
  exact ControlPlane.Secure.clean_ne_nil (n := priority) (by simp)

/-- The update of a body is logged exactly when it succeeded. -/
theorem logged_iff_of_post {cfg : SfConfig} {body : Json} {h₁ h₂ : List SfEvent} {e : SfEvent}
    {r : Except Exc RestReply × Unit}
    (hrun : Prog.Runs (handlePostRule cfg body ()) (h₁ ++ e :: h₂) r) (hset : e.op.isSet = true) :
    Logged cfg.py e h₂ ↔ succeeded e = true := by
  have hsat : Act.Sat (fun _ _ => True) (fun _ _ => True) [] () (handlePostRule cfg body)
      fun h _ _ => ∀ h₁ e h₂, h = h₁ ++ e :: h₂ → e.op.isSet = true →
        (Logged cfg.py e h₂ ↔ succeeded e = true) := by
    -- Up to the push, the request has only looked at the pool.
    refine sat_handlePostRule (J := fun h => ∀ e ∈ h, e.op = pool) (fun _ _ _ => trivial) ?_ ?_ ?_
      (by simp)
    · intro h p hJ e he
      rcases List.mem_append.mp he with he | he
      · exact hJ e he
      · rw [List.mem_singleton.mp he]
    · rintro h hJ h₁ e h₂ rfl hset
      rw [hJ e (by simp)] at hset
      simp [SfOp.isSet] at hset
    · intro h fields ruleId action data client _ hp hJ
      refine (sat_restPush (fun _ _ _ => trivial) trivial).mono fun h' _ _ hr => ?_
      intro h₁ e h₂ heq hset
      have hnot : e ∉ h := by
        intro he
        rw [hJ e he] at hset
        simp [SfOp.isSet] at hset
      have hmem : e ∈ h' := by simp [heq]
      obtain ⟨exc, rfl⟩ | ⟨logged, rfl⟩ := hr
      · -- The update failed, and nothing comes after it.
        obtain rfl : e = _ := by simpa [hnot] using hmem
        simp only [succeeded, Bool.false_eq_true, iff_false]
        refine not_logged heq fun e' he' => ?_
        rcases List.mem_append.mp he' with he' | he'
        · exact .inl (by rw [hJ e' he']; rfl)
        · exact .inr (by rw [List.mem_singleton.mp he']; rfl)
      · -- The update succeeded, and the entry comes right after it.
        simp only [List.mem_append, hnot, List.mem_cons, List.not_mem_nil, or_false, false_or] at hmem
        obtain rfl | rfl := hmem
        · simp only [succeeded, iff_true]
          rw [List.append_cons] at heq
          exact ⟨_, logged, mem_of_append_eq_concat (by simp) heq.symm,
            about_update hp.clean_ne_nil rfl rfl⟩
        · simp [SfOp.isSet] at hset
  exact hrun.post hsat (Prog.relied_true _ _) h₁ e h₂ rfl hset

/-- A delete over REST is logged exactly when the request has deleted the rule somewhere. -/
theorem logged_iff_of_delete {cfg : SfConfig} {ruleId : String} {h₁ h₂ : List SfEvent}
    {e : SfEvent} {r : Except Exc RestReply × Unit}
    (hrun : Prog.Runs (handleDeleteRule cfg ruleId ()) (h₁ ++ e :: h₂) r)
    (hset : e.op.isSet = true) :
    Logged cfg.py e h₂ ↔ ∃ e' ∈ h₁ ++ e :: h₂, succeeded e' = true := by
  have hsat : Act.Sat (fun _ _ => True) (fun _ _ => True) [] () (handleDeleteRule cfg ruleId)
      fun h _ _ => ∀ h₁ e h₂, h = h₁ ++ e :: h₂ → e.op.isSet = true →
        (Logged cfg.py e h₂ ↔ ∃ e' ∈ h, succeeded e' = true) := by
    unfold handleDeleteRule
    rw [Act.sat_bind]
    refine (sat_restDeleteOn_counts _ _).mono fun h r _ hr => ?_
    obtain ⟨s, errors, deleted, hs, rfl, hops, hdel, herr⟩ := hr
    rw [List.nil_append] at hs
    subst hs
    -- The calls of the loop that succeed are deletes.
    have hsucc : ∀ e ∈ h, succeeded e = true ↔
        ∃ client, e = ⟨gnmiDelete client (rulePath ruleId), .ok ()⟩ := by
      intro e he
      obtain ⟨op, a⟩ := e
      obtain rfl | ⟨client, rfl⟩ : op = _ ∨ ∃ client, op = _ := hops _ he
      · simp [succeeded]
      · cases a with
        | ok _ => simp [succeeded]
        | error exc => simp [succeeded]
    simp only
    split_ifs with hfail
    · -- All deletes failed: the request ends with an error, before the log.
      intro h₁ e h₂ heq hset
      refine iff_of_false (not_logged heq fun e' he' => .inl ?_) ?_
      · obtain hop | ⟨client, hop⟩ := hops e' he'
        · rw [hop]
          rfl
        · rw [hop]
          rfl
      · rintro ⟨e', he', hok⟩
        obtain ⟨client, rfl⟩ := (hsucc e' he').mp hok
        exact hdel.mp hfail.1 client he'
    · simp only [Act.sat_bind, Act.sat_orRaise, Act.sat_perform]
      refine ⟨trivial, fun logged _ => ?_⟩
      have hlog : ∀ h₁ e h₂, h ++ [⟨tamperLog (restDeletedLog cfg ruleId deleted), logged⟩] =
          h₁ ++ e :: h₂ → e.op.isSet = true → (Logged cfg.py e h₂ ↔
            ∃ e' ∈ h ++ [⟨tamperLog (restDeletedLog cfg ruleId deleted), logged⟩],
              succeeded e' = true) := by
        intro h₁ e h₂ heq hset
        have hne : e ≠ ⟨tamperLog (restDeletedLog cfg ruleId deleted), logged⟩ := by
          rintro rfl
          simp [SfOp.isSet] at hset
        have hmem : e ∈ h ++ [⟨tamperLog (restDeletedLog cfg ruleId deleted), logged⟩] := by
          rw [heq]
          simp
        simp only [List.mem_append, List.mem_singleton, hne, or_false] at hmem
        obtain ⟨op, a⟩ := e
        obtain rfl | ⟨client, rfl⟩ : op = _ ∨ ∃ client, op = _ := hops _ hmem
        · simp [SfOp.isSet] at hset
        · refine iff_of_true ⟨_, logged, mem_of_append_eq_concat hne heq.symm, rfl, ruleId, rfl, rfl⟩ ?_
          -- Without a success there would be no error either, but this call has one outcome.
          by_contra hnone
          have hok : ∀ client, ⟨gnmiDelete client (rulePath ruleId), .ok ()⟩ ∉ h := by
            intro client he
            exact hnone ⟨_, List.mem_append_left _ he, rfl⟩
          cases a with
          | ok _ => exact hok client hmem
          | error exc =>
            refine hfail ⟨hdel.mpr hok, fun h0 => ?_⟩
            exact herr.mp h0 client exc hmem
      cases logged with
      | ok _ => exact hlog
      | error exc => exact hlog
  exact hrun.post hsat (Prog.relied_true _ _) h₁ e h₂ rfl hset

/-! ## Documents -/

/-- Every update of a history is followed by an entry about it. -/
def UpdatesLogged (py : Py) : List SfEvent → Prop
  | [] => True
  | e :: h => (e.op.isUpdate = true → Logged py e h) ∧ UpdatesLogged py h

/-- A call that is followed by an entry about it stays so. -/
theorem Logged.append {py : Py} {e : SfEvent} {h : List SfEvent} (hl : Logged py e h)
    (t : List SfEvent) : Logged py e (h ++ t) := by
  obtain ⟨call, a, he, habout⟩ := hl
  exact ⟨call, a, List.mem_append_left t he, habout⟩

/-- A history whose updates are logged can be followed by another. -/
theorem UpdatesLogged.append {py : Py} {h t : List SfEvent} (hh : UpdatesLogged py h)
    (ht : UpdatesLogged py t) : UpdatesLogged py (h ++ t) := by
  induction h with
  | nil => exact ht
  | cons e h ih => exact ⟨fun hu => (hh.1 hu).append t, ih hh.2⟩

/-- An update of such a history is logged. -/
theorem UpdatesLogged.logged {py : Py} {h₁ h₂ : List SfEvent} {e : SfEvent}
    (hh : UpdatesLogged py (h₁ ++ e :: h₂)) (hu : e.op.isUpdate = true) : Logged py e h₂ := by
  induction h₁ with
  | nil => exact hh.1 hu
  | cons e' h₁ ih => exact ih hh.2

/-- What the entries of the adapter have in common: none is about a delete, and none has a role. -/
structure AdapterEntry (entry : LogEntry) : Prop where
  /-- It is about something else than a delete. -/
  action : entry.action ≠ "delete_acl_rule"
  /-- It has no role. -/
  role : entry.userIdentity.role = .null

/-- What a document keeps: its updates are logged, and its entries are those of the adapter. -/
structure AdapterLogs (py : Py) (h : List SfEvent) : Prop where
  /-- The updates. -/
  updates : UpdatesLogged py h
  /-- The entries. -/
  entries : ∀ call a, ⟨tamperLog call, a⟩ ∈ h → AdapterEntry (call.entry py)

/-- The history before anything. -/
theorem adapterLogs_nil {py : Py} : AdapterLogs py [] := ⟨trivial, by simp⟩

/-- Two such histories make one. -/
theorem AdapterLogs.append {py : Py} {h t : List SfEvent} (hh : AdapterLogs py h)
    (ht : AdapterLogs py t) : AdapterLogs py (h ++ t) := by
  refine ⟨hh.updates.append ht.updates, fun call a he => ?_⟩
  rcases List.mem_append.mp he with he | he
  · exact hh.entries call a he
  · exact ht.entries call a he

/-- A silent call. -/
theorem adapterLogs_silent {py : Py} {e : SfEvent} (hs : e.op.silent = true) :
    AdapterLogs py [e] := by
  obtain ⟨op, a⟩ := e
  refine ⟨⟨fun hu => ?_, trivial⟩, fun call a' he => ?_⟩
  · cases op
    case gnmiUpdate => simp [SfOp.silent] at hs
    all_goals simp [SfOp.isUpdate] at hu
  · have heq := List.mem_singleton.mp he
    rw [← heq] at hs
    simp [SfOp.silent] at hs

/-- An entry of the adapter. -/
theorem adapterLogs_log {py : Py} {call : LogCall} {a : Except Exc Unit}
    (hentry : AdapterEntry (call.entry py)) : AdapterLogs py [⟨tamperLog call, a⟩] := by
  refine ⟨⟨by simp [SfOp.isUpdate], trivial⟩, fun call' a' he => ?_⟩
  have heq := List.mem_singleton.mp he
  simp only [Event.mk.injEq, tamperLog.injEq] at heq
  rw [heq.1]
  exact hentry

/-- The dict of a session holds its roles under keys that the logger does not read. -/
theorem lookup_identityOf_role (ctx : Option SessionContext) :
    Json.lookup "role" (identityOf ctx) = none := by
  cases ctx with
  | none => rfl
  | some ctx => rfl

/-- The entry of an update that succeeded. -/
theorem adapterEntry_pushedLog (py : Py) (ruleId : String) (client : Client)
    (payload : List (String × Json)) (ctx : Option SessionContext) :
    AdapterEntry ((pushedLog ruleId client payload (identityOf ctx)).entry py) :=
  ⟨by simp [LogCall.entry, pushedLog, logDataModification],
    role_buildUserIdentity py (lookup_identityOf_role ctx) rfl rfl⟩

/-- The entry of an update that failed. -/
theorem adapterEntry_failedLog (py : Py) (ruleId : String) (payload : List (String × Json))
    (ctx : Option SessionContext) (e : Exc) :
    AdapterEntry ((failedLog ruleId payload (identityOf ctx) e).entry py) := by
  refine ⟨by simp [LogCall.entry, failedLog, logDataModification], ?_⟩
  refine role_buildUserIdentity py (lookup_identityOf_role ctx) ?_ ?_
  all_goals
    simp only [failedLog, logDataModification, Outcome.addTo]
    split_ifs
    all_goals rfl

/-- The entry about a rule that is blocked. -/
theorem adapterEntry_blockedLog (py : Py) (msg : String) :
    AdapterEntry ((blockedLog msg).entry py) :=
  ⟨by simp [LogCall.entry, blockedLog], rfl⟩

/-- An update and what the adapter does after it, which ends with an entry about it. -/
theorem adapterLogs_update {py : Py} {client : Client} {path : String} {data : RuleData}
    {answer logged : Except Exc Unit} {call : LogCall} {h : List SfEvent} (hh : AdapterLogs py h)
    (ha : call.action = "push_acl_rule") (hd : call.requestData = .obj (clean data.items))
    (hentry : AdapterEntry (call.entry py)) :
    AdapterLogs py (⟨gnmiUpdate client path (clean data.items), answer⟩ ::
      (h ++ [⟨tamperLog call, logged⟩])) := by
  have hrest := hh.append (adapterLogs_log (a := logged) hentry)
  refine ⟨⟨fun _ => ⟨call, logged, by simp, about_update ?_ ha hd⟩, hrest.updates⟩, ?_⟩
  · exact clean_ne_nil (n := data.priority) (by simp [RuleData.items])
  · intro call' a he
    exact hrest.entries call' a (by simpa using he)

/-- A push that failed is logged as such. -/
theorem sat_pushFailed_logs {R : List SfEvent → SfEvent → Prop} {py : Py} {h h₁ : List SfEvent}
    {client : Client} {path ruleId messageId : String} {data : RuleData} {answer : Except Exc Unit}
    {e : Exc} (hh : AdapterLogs py h) (hh₁ : AdapterLogs py h₁) :
    Act.Sat R (fun _ _ => True) (h ++ ⟨gnmiUpdate client path (clean data.items), answer⟩ :: h₁) ()
      (pushFailed ruleId messageId (clean data.items) e) fun h _ _ => AdapterLogs py h := by
  unfold pushFailed identity
  simp only [Act.sat_bind, Act.sat_orRaise, Act.sat_perform, Act.sat_pure]
  refine ⟨trivial, fun ctx _ => ⟨trivial, fun logged _ => ?_⟩⟩
  have hsession := hh₁.append (adapterLogs_silent (e := ⟨localSession, ctx⟩) rfl)
  have hentry := adapterEntry_failedLog py ruleId (clean data.items) ctx e
  have hdone : AdapterLogs py (h ++ ⟨gnmiUpdate client path (clean data.items), answer⟩ :: h₁ ++
      [⟨localSession, ctx⟩] ++ [⟨tamperLog (failedLog ruleId (clean data.items) (identityOf ctx) e),
        logged⟩]) := by
    rw [List.append_assoc h, List.append_assoc h]
    exact hh.append (adapterLogs_update hsession rfl rfl hentry)
  cases logged with
  | ok _ => exact hdone
  | error e => exact hdone

/-- A push keeps the log of the adapter. -/
theorem sat_pushRule_logs {R : List SfEvent → SfEvent → Prop} {py : Py} {h : List SfEvent}
    {session : Option Client} {ruleId srcIp messageId : String} {data : RuleData}
    (hh : AdapterLogs py h) :
    Act.Sat R (fun _ _ => True) h () (pushRule session ruleId data srcIp messageId)
      fun h _ _ => AdapterLogs py h := by
  unfold pushRule getRoutedClient
  simp only [Act.sat_bind, Act.sat_perform, Act.sat_ofExcept]
  refine ⟨trivial, fun p _ => ?_⟩
  have hpool := hh.append (adapterLogs_silent (e := ⟨pool, p⟩) rfl)
  cases p.getClientForZone .admin (if srcIp = "" then "0.0.0.0/0" else srcIp) with
  | error e => exact hpool
  | ok routed =>
    simp only
    cases routed.or session with
    | none => exact hpool
    | some client =>
      simp only [Act.sat_bind, Act.sat_perform]
      refine ⟨trivial, fun up _ => ?_⟩
      have hup := hpool.append (adapterLogs_silent (e := ⟨connected client, up⟩) rfl)
      cases up with
      | false => exact hup
      | true =>
        simp only [if_true, Act.sat_bind, Act.sat_attempt, Act.sat_orRaise, Act.sat_perform]
        refine ⟨trivial, fun answer _ => ?_⟩
        cases answer with
        | error e => exact sat_pushFailed_logs hup adapterLogs_nil
        | ok _ =>
          -- The log comes inside the same `try`: when it fails, the failure is logged as well.
          simp only [identity, Act.sat_bind, Act.sat_perform, Act.sat_pure]
          refine ⟨trivial, fun ctx _ => ⟨trivial, fun logged _ => ?_⟩⟩
          have hsession : AdapterLogs py [⟨localSession, ctx⟩] := adapterLogs_silent rfl
          have hentry := adapterEntry_pushedLog py ruleId client (clean data.items) ctx
          rw [List.append_assoc, ← List.append_cons]
          cases logged with
          | error e =>
            exact sat_pushFailed_logs hup (hsession.append (adapterLogs_log hentry))
          | ok _ => exact hup.append (adapterLogs_update hsession rfl rfl hentry)

/-- The log of the adapter is kept by a document. -/
theorem kept_adapterLogs (R : List SfEvent → SfEvent → Prop) (py : Py) (session : Option Client) :
    Kept R session (AdapterLogs py) where
  silent _ _ hh hs _ := hh.append (adapterLogs_silent hs)
  blocked _ msg _ hh _ := hh.append (adapterLogs_log (adapterEntry_blockedLog py msg))
  push _ _ _ _ _ hh := sat_pushRule_logs hh

/-- The log of a document, however it ends. -/
theorem adapterLogs_of_runs {cfg : SfConfig} {session : Option Client} {rpc : Xml}
    {h : List SfEvent} {r : Except Exc Reply × Unit}
    (hrun : Prog.Runs (handleEditConfig cfg session rpc ()) h r) : AdapterLogs cfg.py h :=
  hrun.post ((kept_adapterLogs (fun _ _ => True) cfg.py session).sat_handleEditConfig rpc
    adapterLogs_nil) (Prog.relied_true _ _)

/-- An update of a document is logged, and a delete is not. -/
theorem logged_iff_of_editConfig {cfg : SfConfig} {session : Option Client} {rpc : Xml}
    {h₁ h₂ : List SfEvent} {e : SfEvent} {r : Except Exc Reply × Unit}
    (hrun : Prog.Runs (handleEditConfig cfg session rpc ()) (h₁ ++ e :: h₂) r)
    (hset : e.op.isSet = true) : Logged cfg.py e h₂ ↔ e.op.isUpdate = true := by
  have hlogs := adapterLogs_of_runs hrun
  constructor
  · rintro ⟨call, a, he, habout⟩
    have hentry := hlogs.entries call a (by simp [he])
    obtain ⟨op, a⟩ := e
    cases op
    case gnmiUpdate => rfl
    case gnmiDelete => exact absurd habout.1 hentry.action
    all_goals simp [SfOp.isSet] at hset
  · exact fun hu => hlogs.updates.logged hu

/-! ## The condition -/

/-- When an update or a delete is followed by an entry about it. -/
theorem logged_iff (cfg : SfConfig) (r : RuleRequest) {h₁ h₂ : List SfEvent} {e : SfEvent}
    (hrun : r.Runs cfg (h₁ ++ e :: h₂)) (hset : e.op.isSet = true) :
    Logged cfg.py e h₂ ↔ r.Logs (h₁ ++ e :: h₂) e := by
  cases r with
  | editConfig client ctx rpc =>
    obtain ⟨reply, hrun⟩ := hrun
    exact logged_iff_of_editConfig hrun.1 hset
  | post body =>
    obtain ⟨reply, hrun⟩ := hrun
    exact logged_iff_of_post hrun hset
  | delete ruleId =>
    obtain ⟨reply, hrun⟩ := hrun
    exact logged_iff_of_delete hrun hset

/-- An update or a delete is followed by an entry about it, which in a session carries the name, the
address and the role, exactly when the request came over REST and its own update succeeded, or one of
its deletes did. -/
theorem audited_iff (cfg : SfConfig) (r : RuleRequest) {h₁ h₂ : List SfEvent} {e : SfEvent}
    (hrun : r.Runs cfg (h₁ ++ e :: h₂)) (hset : e.op.isSet = true) :
    Audited cfg.py r e h₂ ↔ r.Audits (h₁ ++ e :: h₂) e := by
  have hlogged := logged_iff cfg r hrun hset
  cases r with
  | editConfig client ctx rpc =>
    -- An entry of a session would have to carry a role, and none of the adapter has one.
    refine iff_of_false ?_ fun h0 => h0
    rintro ⟨call, a, he, -, -, -, hrole⟩
    obtain ⟨reply, hrun⟩ := hrun
    have hentry := (adapterLogs_of_runs hrun.1).entries call a (by simp [he])
    rw [hentry.role] at hrole
    simp at hrole
  | post body =>
    refine Iff.trans ?_ hlogged
    simp [Audited, Logged, RuleRequest.Named]
  | delete ruleId =>
    refine Iff.trans ?_ hlogged
    simp [Audited, Logged, RuleRequest.Named]

/-- The body of a rule that drops. -/
def dropBody : Json := .obj [("rule_id", .str "r1"), ("src_ip", .str "10.1.100.10/32")]

/-- A rule is pushed over REST when all is well, and its update is audited. -/
theorem audited_iff_posted :
    ∃ h₁ e h₂, (RuleRequest.post dropBody).Runs plainSf (h₁ ++ e :: h₂) ∧ e.op.isSet = true ∧
      Audited plainSf.py (.post dropBody) e h₂ := by
  obtain ⟨hrun, -⟩ := Prog.runs_const (sunny none) (handlePostRule plainSf dropBody ())
  have hany : (Prog.run (fun _ => sunny none) [] (handlePostRule plainSf dropBody ())).1.any
      (fun e => e.op.isSet && succeeded e) = true := by decide +kernel
  obtain ⟨e, he, hboth⟩ := List.any_eq_true.mp hany
  obtain ⟨hset, hok⟩ := Bool.and_eq_true_iff.mp hboth
  obtain ⟨h₁, h₂, heq⟩ := List.append_of_mem he
  rw [heq] at hrun
  exact ⟨h₁, e, h₂, ⟨_, hrun⟩, hset,
    (audited_iff plainSf (.post dropBody) ⟨_, hrun⟩ hset).mpr hok⟩

/-- An event of the audit log. -/
def isLog : SfEvent → Bool
  | ⟨tamperLog _, _⟩ => true
  | _ => false

/-- A rule is deleted in a session, on both leaves, and nothing is logged. -/
theorem exists_delete_not_audited :
    ¬ ∀ (cfg : SfConfig) (r : RuleRequest) (h₁ h₂ : List SfEvent) (e : SfEvent),
      r.Runs cfg (h₁ ++ e :: h₂) → e.op.isSet = true → Audited cfg.py r e h₂ := by
  intro hall
  have hrun := @sessionRuns_run _ (sunny (some adminSession)) adminSession rfl
    (handleEditConfig plainSf (some ⟨DEFAULT_LEAF1, 0⟩) deleteDoc)
  have hany : (Prog.run (fun _ => sunny (some adminSession)) []
      (handleEditConfig plainSf (some ⟨DEFAULT_LEAF1, 0⟩) deleteDoc ())).1.any isDelete = true := by
    decide +kernel
  have hnone : (Prog.run (fun _ => sunny (some adminSession)) []
      (handleEditConfig plainSf (some ⟨DEFAULT_LEAF1, 0⟩) deleteDoc ())).1.any isLog = false := by
    decide +kernel
  obtain ⟨e, he, hdel⟩ := List.any_eq_true.mp hany
  obtain ⟨h₁, h₂, heq⟩ := List.append_of_mem he
  rw [heq] at hrun hnone
  have hset : e.op.isSet = true := by
    obtain ⟨op, a⟩ := e
    cases op
    case gnmiDelete => rfl
    all_goals simp [isDelete] at hdel
  obtain ⟨call, a, hlog, -⟩ := hall plainSf
    (.editConfig ⟨DEFAULT_LEAF1, 0⟩ adminSession deleteDoc) h₁ h₂ e ⟨_, hrun⟩ hset
  -- An audited call would have an entry after it, and there is none in the whole run.
  rw [List.any_eq_false] at hnone
  exact hnone ⟨tamperLog call, a⟩ (by simp [hlog]) rfl

end ControlPlane.Secure
