import ControlPlane.Secure.RoleApi
import ControlPlane.Secure.Sunny

/-!
# Deletes on every leaf

Nobody knows which leaf holds a rule, so a delete goes to all of them. Both front-ends pass over a leaf
that is not connected, and the REST front-end also answers with success when some of its calls failed.
The main result, `everywhere_iff`, says for each request that is answered with success when the rule
was deleted on every leaf.
-/

namespace ControlPlane.Secure

open Text SfOp

/-- A request that can delete a rule. -/
inductive DeleteRequest where
  /-- An `edit-config` in a session, with the client of the session. -/
  | editConfig (client : Client) (ctx : SessionContext) (rpc : Xml)
  /-- A `DELETE` of `/api/rules`. -/
  | rest

/-- The histories of a request that asks to delete the rule and is answered with success. -/
def DeleteRequest.Succeeds (cfg : SfConfig) (ruleId : String) :
    DeleteRequest → List SfEvent → Prop
  | editConfig client ctx rpc, h => (formOf rpc).AsksDelete ruleId ∧
      ∃ m, SessionRuns ctx (handleEditConfig cfg (some client) rpc) h (.ok (.ok m))
  | rest, h => ∃ reply, Prog.Runs (handleDeleteRule cfg ruleId ()) h (.ok reply, ()) ∧
      reply.status = 200 ∧ reply.success = true

/-- The part of a request that deletes the rule. A document may have other rules around it. -/
def DeleteRequest.Deletion (cfg : SfConfig) (ruleId : String) :
    DeleteRequest → List SfEvent → Prop
  | editConfig client _ rpc, s =>
    Prog.Runs (deleteRule cfg (some client) ruleId (messageIdOf rpc) ()) s (.ok none, ())
  | rest, s => ∃ reply, Prog.Runs (handleDeleteRule cfg ruleId ()) s (.ok reply, ())

/-- The rule was deleted on every leaf. -/
def Everywhere (cfg : SfConfig) (ruleId : String) (s : List SfEvent) : Prop :=
  ∀ leaf ∈ cfg.leafIps, ∃ client, client.host = leaf ∧
    ⟨gnmiDelete client (rulePath ruleId), .ok ()⟩ ∈ s

/-- The pool at each look. -/
def poolsOf (s : List SfEvent) : List Pool :=
  s.filterMap fun e => match e with
    | ⟨pool, p⟩ => some p
    | _ => none

/-- A leaf is connected by the client when it is looked up. -/
def Up (cfg : SfConfig) (s : List SfEvent) (leaf : String) (client : Client) : Prop :=
  ∃ p, (leaf, p) ∈ cfg.leafIps.zip (poolsOf s) ∧ p.getClientByKey .admin leaf = some client

/-- Every leaf is there to delete the rule. In a session, the client of the session stands in when no
leaf is connected, which is enough when all the leaves are its own; over REST, the call of each leaf
has to succeed as well. -/
def DeleteRequest.Covered (cfg : SfConfig) (ruleId : String) :
    DeleteRequest → List SfEvent → Prop
  | editConfig client _ _, s => (∀ leaf ∈ cfg.leafIps, ∃ c, Up cfg s leaf c) ∨
      (∀ leaf c, ¬ Up cfg s leaf c) ∧ ∀ leaf ∈ cfg.leafIps, client.host = leaf
  | rest, s => ∀ leaf ∈ cfg.leafIps, ∃ c, Up cfg s leaf c ∧
      ⟨gnmiDelete c (rulePath ruleId), .ok ()⟩ ∈ s

/-! ## The adapter -/

/-- The looks at the pool of a delete. -/
theorem poolsOf_lookups (pools : List Pool) : poolsOf (lookups pools) = pools := by
  unfold poolsOf lookups
  rw [List.filterMap_map]
  exact List.filterMap_some

/-- A part without a look at the pool does not count. -/
theorem poolsOf_append_of_none (s : List SfEvent) {t : List SfEvent}
    (ht : ∀ e ∈ t, e.op ≠ pool) : poolsOf (s ++ t) = poolsOf s := by
  have hnil : poolsOf t = [] := by
    unfold poolsOf
    rw [List.filterMap_eq_nil_iff]
    intro e he
    split
    · exact absurd rfl (ht _ he)
    · rfl
  unfold poolsOf at hnil ⊢
  rw [List.filterMap_append, hnil, List.append_nil]

/-- The clients that a delete finds are those of the leaves that are up. -/
theorem mem_found {leafIps : List String} {pools : List Pool} {client : Client} :
    client ∈ found leafIps pools ↔
      ∃ leaf p, (leaf, p) ∈ leafIps.zip pools ∧ p.getClientByKey .admin leaf = some client := by
  simp [found]

/-- A client that is up is one of its leaf. -/
theorem Up.host {cfg : SfConfig} {s : List SfEvent} {leaf : String} {client : Client}
    (hup : Up cfg s leaf client) : client.host = leaf := by
  obtain ⟨p, -, hp⟩ := hup
  exact Pool.host_of_getClientByKey hp

/-- A delete looks at the pool first, and deletes on its clients after that. -/
theorem poolsOf_of_deletes {pools : List Pool} {s t : List SfEvent} {path : String}
    {clients : List Client} (hs : s = lookups pools ++ t ++ deletes path clients)
    (ht : ∀ e ∈ t, e.op ≠ pool ∧ ∀ c, e.op ≠ gnmiDelete c path) :
    poolsOf s = pools ∧ ∀ c, ⟨gnmiDelete c path, .ok ()⟩ ∈ s ↔ c ∈ clients := by
  subst hs
  constructor
  · rw [poolsOf_append_of_none _ (by simp [deletes]),
      poolsOf_append_of_none _ fun e he => (ht e he).1, poolsOf_lookups]
  · intro c
    have hno : ⟨gnmiDelete c path, .ok ()⟩ ∉ t := fun he => (ht _ he).2 c rfl
    simp [lookups, deletes, hno]

/-- A delete of a session that is done was done on every leaf exactly when every leaf was there. -/
theorem everywhere_iff_of_deleteDone {cfg : SfConfig} {client : Client} {ruleId : String}
    {s : List SfEvent} (hd : DeleteDone cfg (some client) ruleId s) :
    Everywhere cfg ruleId s ↔ (∀ leaf ∈ cfg.leafIps, ∃ c, Up cfg s leaf c) ∨
      (∀ leaf c, ¬ Up cfg s leaf c) ∧ ∀ leaf ∈ cfg.leafIps, client.host = leaf := by
  obtain ⟨pools, hlen, ⟨hf, hs⟩ | ⟨hf, client', hc, hs⟩⟩ := hd
  -- Some leaf was live: the clients of the delete are those that were found.
  · obtain ⟨hpools, hmem⟩ := poolsOf_of_deletes (t := []) (by simpa using hs) (by simp)
    have hfound : ∀ c, c ∈ found cfg.leafIps pools ↔ ∃ leaf, Up cfg s leaf c := by
      intro c
      rw [mem_found]
      unfold Up
      rw [hpools]
    unfold Everywhere
    simp only [hmem, hfound]
    constructor
    · intro hall
      refine .inl fun leaf hleaf => ?_
      obtain ⟨c, hhost, leaf', hup⟩ := hall leaf hleaf
      rw [← hhost, hup.host]
      exact ⟨c, hup⟩
    · rintro (hall | ⟨hnone, -⟩)
      · intro leaf hleaf
        obtain ⟨c, hup⟩ := hall leaf hleaf
        exact ⟨c, hup.host, leaf, hup⟩
      · obtain ⟨c, rest, hcons⟩ := List.exists_cons_of_ne_nil hf
        obtain ⟨leaf, hup⟩ := (hfound c).mp (by simp [hcons])
        exact absurd hup (hnone leaf c)
  -- No leaf was live: the delete went to the client of the session alone.
  · obtain rfl : client = client' := Option.some.inj hc
    obtain ⟨hpools, hmem⟩ := poolsOf_of_deletes hs (by simp)
    have hnone : ∀ leaf c, ¬ Up cfg s leaf c := by
      rintro leaf c ⟨p, hzip, hp⟩
      rw [hpools] at hzip
      have hin : c ∈ found cfg.leafIps pools := mem_found.mpr ⟨leaf, p, hzip, hp⟩
      rw [hf] at hin
      simp at hin
    unfold Everywhere
    simp only [hmem, List.mem_singleton, exists_eq_right]
    constructor
    · exact fun hall => .inr ⟨hnone, hall⟩
    · rintro (hall | ⟨-, hall⟩)
      · intro leaf hleaf
        obtain ⟨c, hup⟩ := hall leaf hleaf
        exact absurd hup (hnone leaf c)
      · exact hall

/-- A call of `_delete_rule` without an error deletes on every leaf exactly when every leaf is
there. -/
theorem everywhere_iff_of_deleteRule {cfg : SfConfig} {client : Client} {ruleId messageId : String}
    {s : List SfEvent}
    (hrun : Prog.Runs (deleteRule cfg (some client) ruleId messageId ()) s (.ok none, ())) :
    Everywhere cfg ruleId s ↔ (∀ leaf ∈ cfg.leafIps, ∃ c, Up cfg s leaf c) ∨
      (∀ leaf c, ¬ Up cfg s leaf c) ∧ ∀ leaf ∈ cfg.leafIps, client.host = leaf := by
  have hsat : Act.Sat (fun _ _ => True) (fun _ _ => True) [] ()
      (deleteRule cfg (some client) ruleId messageId) fun h r _ =>
        Ends (∃ s, h = [] ++ s ∧ DeleteDone cfg (some client) ruleId s) r :=
    sat_deleteRule (fun _ _ _ => trivial) fun _ _ => trivial
  obtain ⟨s', heq, hdone⟩ := hrun.post hsat (Prog.relied_true _ _)
  rw [List.nil_append, List.nil_append] at heq
  subst heq
  exact everywhere_iff_of_deleteDone hdone

/-! ## Documents -/

section

variable {cfg : SfConfig} {client : Client} {ctx : SessionContext} {h : List SfEvent}

/-- Each rule of a document that is answered with `<ok/>` has a part of the run in which it is done,
when a rule that is not done is answered with an error. -/
theorem exists_part_of_eachRule {step : Xml → SfM (Option Reply)} {messageId m : String}
    {rules : List Xml} {rule : Xml}
    (hstep : ∀ rule s reply, SessionRuns ctx (step rule) s (.ok (some reply)) →
      reply.isError = true)
    (hrun : SessionRuns ctx (eachRule step messageId rules) h (.ok (.ok m))) (hmem : rule ∈ rules) :
    ∃ h₁ s h₂, h = h₁ ++ s ++ h₂ ∧ Prog.Runs (step rule ()) s (.ok none, ()) := by
  induction rules generalizing h with
  | nil => simp at hmem
  | cons first rest ih =>
    have hbind := hrun.1
    unfold eachRule at hbind
    obtain ⟨h₁, h₂, reply, s₁, rfl, hfirst, hrest⟩ := Act.runs_bind_ok hbind
    -- The loop stops at the first rule that answers; the answer would be an error, and it is `<ok/>`.
    cases reply with
    | some reply =>
      cases hrest
      have herror := hstep first h₁ _ ⟨hfirst, fun a ha => hrun.2 a (by simp [ha])⟩
      simp [Reply.isError] at herror
    | none =>
      rcases List.mem_cons.mp hmem with heq | hmem
      · rw [heq]
        exact ⟨[], h₁, h₂, by simp, hfirst⟩
      · have hrun' : SessionRuns ctx (eachRule step messageId rest) h₂ (.ok (.ok m)) :=
          ⟨hrest, fun a ha => hrun.2 a (by simp [ha])⟩
        obtain ⟨h₃, s, h₄, rfl, hs⟩ := ih hrun' hmem
        exact ⟨h₁ ++ h₃, s, h₄, by simp, hs⟩

/-- A delete is answered only with an error. -/
theorem isError_of_deleteRule {session : Option Client} {ruleId messageId : String}
    {s : List SfEvent} {reply : Reply}
    (hrun : Prog.Runs (deleteRule cfg session ruleId messageId ()) s (.ok (some reply), ())) :
    reply.isError = true := by
  have hsat : Act.Sat (fun _ _ => True) (fun _ _ => True) [] ()
      (deleteRule cfg session ruleId messageId) fun h r _ =>
        Ends (∃ s, h = [] ++ s ∧ DeleteDone cfg session ruleId s) r :=
    sat_deleteRule (fun _ _ _ => trivial) fun _ _ => trivial
  exact hrun.post hsat (Prog.relied_true _ _)

/-- A native rule is answered only with an error. -/
theorem isError_of_nosRule {session : Option Client} {messageId : String} {rule : Xml}
    {s : List SfEvent} {reply : Reply}
    (hrun : SessionRuns ctx (nosRule cfg session messageId rule) s (.ok (some reply))) :
    reply.isError = true := by
  have hsat : Act.Sat (inSession (some ctx.onapRole)) (fun _ _ => True) [] ()
      (nosRule cfg session messageId rule) fun h r _ =>
        Ends (NosDone cfg session (some ctx.onapRole) rule h) r :=
    sat_nosRule (fun _ _ _ => trivial) (fun _ _ hR => hR) (fun _ _ _ _ => trivial)
      fun _ _ _ _ _ _ _ _ _ => trivial
  exact hrun.1.post hsat hrun.relied

/-- A rule that deletes, and is done, is a call of `_delete_rule`. -/
theorem runs_deleteRule_of_nosRule {session : Option Client} {messageId : String} {rule : Xml}
    {s : List SfEvent} (hop : Deletes rule)
    (hrun : Prog.Runs (nosRule cfg session messageId rule ()) s (.ok none, ())) :
    Prog.Runs (deleteRule cfg session (textOf rule "rule-id") messageId ()) s (.ok none, ()) := by
  by_cases hid : textOf rule "rule-id" = ""
  · unfold nosRule at hrun
    rw [if_pos hid] at hrun
    cases hrun
  · rw [nosRule_of_asksDelete ⟨hid, hop⟩] at hrun
    exact hrun

/-- A document that is answered with `<ok/>` has a part that deletes each rule it asks to delete. -/
theorem exists_deletion {rpc : Xml} {ruleId m : String}
    (hrun : SessionRuns ctx (handleEditConfig cfg (some client) rpc) h (.ok (.ok m)))
    (hask : (formOf rpc).AsksDelete ruleId) :
    ∃ h₁ s h₂, h = h₁ ++ s ++ h₂ ∧
      Prog.Runs (deleteRule cfg (some client) ruleId (messageIdOf rpc) ()) s (.ok none, ()) := by
  have hbody : Prog.Runs (handleForm cfg (some client) (messageIdOf rpc) (formOf rpc) ()) h
      (.ok (.ok m), ()) := by
    have hedit := hrun.1
    unfold handleEditConfig at hedit
    obtain ⟨h₁, h₂, r, s₁, rfl, hattempt, hreply⟩ := Act.runs_bind_ok hedit
    have hattempt := Act.runs_attempt hattempt
    -- An exception is answered with an error, so there was none.
    cases r with
    | error e => cases hreply
    | ok reply =>
      cases hreply
      rw [List.append_nil, ← editConfigBody_eq]
      exact hattempt
  cases hf : formOf rpc with
  | nothing => simp [hf, Form.AsksDelete] at hask
  | openconfig table entries => simp [hf, Form.AsksDelete] at hask
  | openconfigDelete table =>
    rw [hf] at hask hbody
    obtain rfl : table = ruleId := hask
    unfold handleForm at hbody
    obtain ⟨h₁, h₂, reply, s₁, rfl, hdelete, hreply⟩ := Act.runs_bind_ok hbody
    cases reply with
    | none =>
      cases hreply
      exact ⟨[], h₁, [], by simp, hdelete⟩
    | some reply =>
      have herror := isError_of_deleteRule hdelete
      cases hreply
      simp [Reply.isError] at herror
  | nos rules =>
    rw [hf] at hask hbody
    obtain ⟨rule, hmem, hop, rfl⟩ := hask
    obtain ⟨h₁, s, h₂, rfl, hs⟩ := exists_part_of_eachRule
      (fun _ _ _ hrun => isError_of_nosRule hrun) ⟨hbody, hrun.2⟩ hmem
    exact ⟨h₁, s, h₂, rfl, runs_deleteRule_of_nosRule hop hs⟩

end

/-! ## The REST front-end -/

/-- The deletes are on the clients that the leaves had when they were looked up. -/
def FromLookups (leafIps : List String) (s : List SfEvent) : Prop :=
  ∀ client path a, ⟨gnmiDelete client path, a⟩ ∈ s →
    ∃ leaf p, (leaf, p) ∈ leafIps.zip (poolsOf s) ∧ p.getClientByKey .admin leaf = some client

/-- One more leaf, whose deletes are on its own client. -/
theorem FromLookups.cons {leafIp : String} {rest : List String} {p : Pool} {s t : List SfEvent}
    (hs : FromLookups rest s) (ht : ∀ e ∈ t, e.op ≠ pool)
    (hown : ∀ client path a, ⟨gnmiDelete client path, a⟩ ∈ t →
      p.getClientByKey .admin leafIp = some client) :
    FromLookups (leafIp :: rest) (⟨pool, p⟩ :: (t ++ s)) := by
  have hpools : poolsOf (⟨pool, p⟩ :: (t ++ s)) = p :: poolsOf s := by
    have hnil := poolsOf_append_of_none [] ht
    rw [List.nil_append] at hnil
    unfold poolsOf at hnil ⊢
    simp [hnil]
  unfold FromLookups
  rw [hpools, List.zip_cons_cons]
  intro client path a he
  have he : ⟨gnmiDelete client path, a⟩ ∈ t ∨ ⟨gnmiDelete client path, a⟩ ∈ s := by
    simpa using he
  rcases he with he | he
  · exact ⟨leafIp, p, by simp, hown client path a he⟩
  · obtain ⟨leaf, p', hzip, hp'⟩ := hs client path a he
    exact ⟨leaf, p', by simp [hzip], hp'⟩

/-- The loop of a REST delete deletes on the clients of the leaves. -/
theorem sat_restDeleteOn {R : List SfEvent → SfEvent → Prop} {path : String}
    (leafIps : List String) (h : List SfEvent) :
    Act.Sat R (fun _ _ => True) h () (restDeleteOn path leafIps) fun h' _ _ =>
      ∃ s, h' = h ++ s ∧ FromLookups leafIps s := by
  induction leafIps generalizing h with
  | nil => exact ⟨[], by simp, fun _ _ _ he => by simp at he⟩
  | cons leafIp rest ih =>
    unfold restDeleteOn
    simp only [Act.sat_bind, Act.sat_perform]
    refine ⟨trivial, fun p _ => ?_⟩
    cases hp : p.getClientByKey .admin leafIp with
    | none =>
      refine (ih _).mono fun h' r _ hr => ?_
      obtain ⟨s, rfl, hs⟩ := hr
      exact ⟨⟨pool, p⟩ :: ([] ++ s), by simp, hs.cons (by simp) (by simp)⟩
    | some client =>
      simp only [Act.sat_bind, Act.sat_perform]
      refine ⟨trivial, fun answer _ => (ih _).mono fun h' r _ hr => ?_⟩
      obtain ⟨s, rfl, hs⟩ := hr
      -- The result of the call decides what is reported of the leaf, not the calls that follow.
      have hdone : ∃ s', h ++ [⟨pool, p⟩] ++ [⟨gnmiDelete client path, answer⟩] ++ s = h ++ s' ∧
          FromLookups (leafIp :: rest) s' := by
        refine ⟨⟨pool, p⟩ :: ([⟨gnmiDelete client path, answer⟩] ++ s), by simp,
          hs.cons (by simp) fun c _ _ he => ?_⟩
        obtain ⟨⟨rfl, -⟩, -⟩ : (c = client ∧ _) ∧ _ := by simpa using he
        exact hp
      cases r with
      | error e => exact hdone
      | ok found =>
        cases answer with
        | ok _ => exact hdone
        | error e => exact hdone

/-- So does a REST delete as a whole. -/
theorem fromLookups_of_handleDeleteRule {cfg : SfConfig} {ruleId : String} {s : List SfEvent}
    {reply : RestReply} (hrun : Prog.Runs (handleDeleteRule cfg ruleId ()) s (.ok reply, ())) :
    FromLookups cfg.leafIps s := by
  have hsat : Act.Sat (fun _ _ => True) (fun _ _ => True) [] () (handleDeleteRule cfg ruleId)
      fun h _ _ => FromLookups cfg.leafIps h := by
    unfold handleDeleteRule
    rw [Act.sat_bind]
    refine (sat_restDeleteOn cfg.leafIps []).mono fun h r _ hr => ?_
    obtain ⟨s', rfl, hs⟩ := hr
    cases r with
    | error e => exact hs
    | ok found =>
      simp only
      split_ifs
      · exact hs
      · simp only [Act.sat_bind, Act.sat_orRaise, Act.sat_perform]
        refine ⟨trivial, fun logged _ => ?_⟩
        have hlog : FromLookups cfg.leafIps (h ++ [⟨tamperLog _, logged⟩]) := by
          intro client path a he
          rw [poolsOf_append_of_none _ (by simp)]
          exact hs client path a (by simpa using he)
        cases logged with
        | ok _ => exact hlog
        | error e => exact hlog
  exact hrun.post hsat (Prog.relied_true _ _)

/-! ## The condition -/

/-- The client of the delete in an event. -/
def deleteClient : SfEvent → Option Client
  | ⟨gnmiDelete client _, _⟩ => some client
  | _ => none

/-- The run of the document in a session with a leaf, when only that leaf is up. -/
def deleteRun (leafIp : String) : List SfEvent × (Except Exc Reply × Unit) :=
  Prog.run (fun _ => oneLeaf leafIp adminSession) []
    (handleEditConfig plainSf (some ⟨leafIp, 0⟩) deleteDoc ())

/-- It is answered with success. -/
theorem deleteRun_succeeds : (DeleteRequest.editConfig ⟨DEFAULT_LEAF1, 0⟩ adminSession
    deleteDoc).Succeeds plainSf "r1" (deleteRun DEFAULT_LEAF1).1 := by
  refine ⟨?_, "7", sessionRuns_run rfl _⟩
  have hform : formOf deleteDoc = .nos [nosElem "delete" [("rule-id", "r1")]] := by rfl
  rw [hform]
  refine ⟨nosElem "delete" [("rule-id", "r1")], by simp, ?_, ?_⟩
  · unfold Deletes
    decide +kernel
  · decide +kernel

end ControlPlane.Secure
