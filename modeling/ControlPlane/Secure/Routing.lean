import ControlPlane.Secure.Payload

/-!
# Which leaf a rule is sent to

A rule whose source lies inside a zone belongs on the leaf of the zone. The adapter asks the pool for
the ADMIN connection of that leaf, and when there is none it falls back on the client of the session,
which the server took from any leaf that was up when the session began. The main result,
`routedRight_iff`, says for each run of a document when no rule ends up on another leaf.
-/

namespace ControlPlane.Secure

open Text SfOp

/-- The pool as it was at the last look. -/
def lastPool (h : List SfEvent) : Option Pool :=
  h.foldl (fun s e => match e with
    | ⟨pool, p⟩ => some p
    | _ => s) none

@[simp] theorem lastPool_append (h : List SfEvent) (e : SfEvent) :
    lastPool (h ++ [e]) = match e with
      | ⟨pool, p⟩ => some p
      | _ => lastPool h := by
  unfold lastPool
  rw [List.foldl_append]
  rfl

/-- The payload is that of a rule inside a zone of the leaf. -/
def OfZone (payload : List (String × Json)) (leaf : String) : Prop :=
  ∃ src, Json.lookup "src-ip" payload = some (.str src) ∧ InZone src leaf

/-- Every rule inside a zone goes to the leaf of the zone, or is answered with an error. -/
structure RoutedRight (py : Py) (form : Form) (h : List SfEvent) (reply : Reply) : Prop where
  /-- No update goes to another leaf. -/
  updates : ∀ client path payload a leaf, ⟨gnmiUpdate client path payload, a⟩ ∈ h →
    OfZone payload leaf → client.host = leaf
  /-- Without an error, every rule is sent to its leaf. -/
  answered : reply.isError = true ∨ ∀ data leaf, form.AsksPush py data →
    InZone data.srcIp leaf → ∃ client payload, client.host = leaf ∧
      Json.lookup "src-ip" payload = some (.str data.srcIp) ∧
      ⟨gnmiUpdate client (rulePath data.ruleId) payload, .ok ()⟩ ∈ h

/-- Whenever a rule inside a zone is pushed, the pool has the leaf of the zone, or the session is one
with that leaf. -/
def Served (session : Client) (h : List SfEvent) : Prop :=
  ∀ h₁ client path payload a h₂ leaf, h = h₁ ++ ⟨gnmiUpdate client path payload, a⟩ :: h₂ →
    OfZone payload leaf →
    (∃ p, lastPool h₁ = some p ∧ (p.getClientByKey .admin leaf).isSome = true) ∨
      session.host = leaf

/-- The empty text names no prefix. -/
theorem ne_empty_of_inZone {src leaf : String} (hz : InZone src leaf) : src ≠ "" := by
  rintro rfl
  obtain ⟨net, -, hnet, -⟩ := hz
  simp [show Ip.ipNetwork false "" = none from rfl] at hnet

/-- The client that is chosen for a rule inside a zone is one of the zone's leaf exactly when the pool
has such a client, or the session does. -/
theorem host_of_chosen {session client : Client} {src leaf : String} {p : Pool}
    (hc : Chosen (some session) src p client) (hz : InZone src leaf) :
    client.host = leaf ↔
      (p.getClientByKey .admin leaf).isSome = true ∨ session.host = leaf := by
  have hleaf := inZone_iff.mp hz
  obtain ⟨routed, hrouted, hor⟩ := hc
  unfold routedSrc Pool.getClientForZone at hrouted
  rw [if_neg (ne_empty_of_inZone hz), hleaf] at hrouted
  have hrouted : p.getClientByKey .admin leaf = routed := Except.ok.inj hrouted
  rw [hrouted]
  cases routed with
  | some c =>
    simp only [Option.some_or, Option.some.injEq] at hor
    rw [← hor]
    simp [Pool.host_of_getClientByKey hrouted]
  | none =>
    simp only [Option.none_or, Option.some.injEq] at hor
    simp [hor]

/-- The source address in pushed data. -/
theorem lookup_srcIp_pushedData (role : Option OnapRole) (ruleId : String) (data : RuleData) :
    Json.lookup "src-ip" (pushedData role ruleId data).items = some (.str data.srcIp) := by
  unfold pushedData
  split_ifs
  · rfl
  · rfl

/-- The source address in the payload of pushed data is that of the data. -/
theorem srcIp_of_pushedData {role : Option OnapRole} {ruleId src : String} {data : RuleData}
    (h : Json.lookup "src-ip" (clean (pushedData role ruleId data).items) = some (.str src)) :
    data.srcIp = src := by
  have hl := lookup_of_clean (by simp [RuleData.items]) h
  rw [lookup_srcIp_pushedData, Option.some.injEq, Json.str.injEq] at hl
  exact hl

/-- What every update of a document has behind it. -/
def routingGuarantee (session : Client) (h : List SfEvent) : SfOp → Prop
  | gnmiUpdate client _ payload => ∃ p, lastPool h = some p ∧
      ∀ src, Json.lookup "src-ip" payload = some (.str src) → Chosen (some session) src p client
  | _ => True

section

variable {cfg : SfConfig} {session : Client} {ctx : SessionContext} {rpc : Xml}
  {h : List SfEvent} {r : Except Exc Reply}

/-- A document is pushed by the clients that are chosen for its rules, and without an error all of it
is. -/
theorem sat_routing (role : Option OnapRole) (messageId : String) (form : Form) :
    Act.Sat (inSession role) (routingGuarantee session) h ()
      (handleForm cfg (some session) messageId form) fun h r _ =>
        Answers (FormDone cfg (some session) role h form) r := by
  refine sat_handleForm ?_ (fun _ _ hR => hR) (fun _ _ _ _ _ => trivial) ?_ messageId
  · intro h op hq
    cases op
    case gnmiUpdate => simp [SfOp.quiet] at hq
    all_goals trivial
  · intro h data ctx p client _ hi
    refine ⟨p, by simp only [lastPool_append], fun src hl => ?_⟩
    rw [← srcIp_of_pushedData hl]
    exact hi.chosen

/-- An update of a rule inside a zone goes to the leaf of the zone exactly when the pool has that
leaf, or the session does. -/
theorem host_of_update {h₁ h₂ : List SfEvent} {client : Client} {path leaf : String}
    {payload : List (String × Json)} {a : Except Exc Unit}
    (hrun : SessionRuns ctx (handleEditConfig cfg (some session) rpc)
      (h₁ ++ ⟨gnmiUpdate client path payload, a⟩ :: h₂) r) (hz : OfZone payload leaf) :
    client.host = leaf ↔
      (∃ p, lastPool h₁ = some p ∧ (p.getClientByKey .admin leaf).isSome = true) ∨
        session.host = leaf := by
  obtain ⟨src, hsrc, hz⟩ := hz
  obtain ⟨p, hp, hchosen⟩ := hrun.guarantee (sat_routing _ _ _)
  rw [host_of_chosen (hchosen src hsrc) hz, hp]
  simp

/-- The rules that a document asks to push are pushed when all of it is done. -/
theorem pushDone_of_formDone {role : Option OnapRole} {form : Form} {data : RuleData}
    (hdone : FormDone cfg (some session) role h form) (hask : form.AsksPush cfg.py data) :
    PushDone cfg (some session) role data h := by
  cases form with
  | nothing => exact hask.elim
  | openconfigDelete table => exact hask.elim
  | nos rules =>
    obtain ⟨rule, hmem, hop, hd⟩ := hask
    obtain ⟨-, ⟨hdel, -⟩ | ⟨-, data', hd', hpush⟩⟩ := hdone rule hmem
    · exact absurd hdel hop
    · obtain rfl : data = data' := Except.ok.inj (hd.symm.trans hd')
      exact hpush
  | openconfig table entries =>
    obtain ⟨entry, hmem, hd⟩ := hask
    obtain ⟨data', hd', hpush⟩ := hdone entry hmem
    obtain rfl : data = data' := Except.ok.inj (hd.symm.trans hd')
    exact hpush

/-- In every run of a document, the rules inside a zone go to the leaf of the zone or are answered
with an error, exactly when the leaf is there whenever such a rule is pushed, or is the one of the
session. -/
theorem routedRight_iff (hrun : SessionRuns ctx (handleEditConfig cfg (some session) rpc) h r) :
    ∃ reply, r = .ok reply ∧
      (RoutedRight cfg.py (formOf rpc) h reply ↔ Served session h) := by
  obtain ⟨reply, rfl, hdone⟩ := hrun.1.post
    (sat_handleEditConfig (sat_routing (some ctx.onapRole) _ _)) hrun.relied
  refine ⟨reply, rfl, ?_, ?_⟩
  · rintro hright h₁ client path payload a h₂ leaf rfl hz
    exact (host_of_update hrun hz).mp (hright.updates client path payload a leaf (by simp) hz)
  · intro hserved
    have hupdates : ∀ client path payload a leaf, ⟨gnmiUpdate client path payload, a⟩ ∈ h →
        OfZone payload leaf → client.host = leaf := by
      intro client path payload a leaf he hz
      obtain ⟨h₁, h₂, rfl⟩ := List.append_of_mem he
      exact (host_of_update hrun hz).mpr (hserved h₁ client path payload a h₂ leaf rfl hz)
    refine ⟨hupdates, hdone.imp_right fun hdone data leaf hask hz => ?_⟩
    obtain ⟨-, p, client, -, he⟩ := pushDone_of_formDone hdone hask
    have hblank : isBlank (.str data.srcIp) = false := by
      simpa [isBlank] using ne_empty_of_inZone hz
    have hsrc := lookup_clean (lookup_srcIp_pushedData (some ctx.onapRole) data.ruleId data) hblank
    exact ⟨client, _, hupdates client _ _ _ leaf he ⟨data.srcIp, hsrc, hz⟩, hsrc, he⟩

end

/-! ## A leaf that is down -/

/-- A document with one rule, whose source is in a zone of the first leaf. -/
def webDoc : Xml := nosDoc [nosElem "merge" [("rule-id", "r1"), ("src-ip", "10.1.100.10/32")]]

/-- The source of the rule is in a zone of the first leaf. -/
theorem webDoc_inZone : InZone "10.1.100.10/32" DEFAULT_LEAF1 := by
  rw [inZone_iff]
  rfl

/-- The history of the document when the given leaf is up, in a session with that leaf. -/
def webRun (leafIp : String) : List SfEvent × (Except Exc Reply × Unit) :=
  Prog.run (fun _ => oneLeaf leafIp adminSession) []
    (handleEditConfig plainSf (some ⟨leafIp, 0⟩) webDoc ())

/-- It is one of a session. -/
theorem webRun_runs (leafIp : String) : SessionRuns adminSession
    (handleEditConfig plainSf (some ⟨leafIp, 0⟩) webDoc) (webRun leafIp).1 (webRun leafIp).2.1 :=
  sessionRuns_run rfl _

/-- An event that is no update, or one that pushes the rule of the document to the given leaf. -/
def pushesWeb (leafIp : String) : SfEvent → Bool
  | ⟨gnmiUpdate client _ payload, _⟩ =>
    client.host == leafIp && carries "src-ip" "10.1.100.10/32" payload
  | _ => true

/-- The updates of the document go to the given leaf, and are of a rule of the first leaf. -/
theorem webRun_update {leafIp path : String} {client : Client} {payload : List (String × Json)}
    {a : Except Exc Unit} (hall : (webRun leafIp).1.all (pushesWeb leafIp) = true)
    (he : ⟨gnmiUpdate client path payload, a⟩ ∈ (webRun leafIp).1) :
    client.host = leafIp ∧ Json.lookup "src-ip" payload = some (.str "10.1.100.10/32") := by
  obtain ⟨hhost, hsrc⟩ := Bool.and_eq_true_iff.mp (List.all_eq_true.mp hall _ he)
  exact ⟨by simpa using hhost, lookup_eq_of_carries hsrc⟩

/-- A document that pushes a rule to the leaf of its zone. -/
theorem routedRight_iff_web :
    (∃ client payload a, client.host = DEFAULT_LEAF1 ∧
      ⟨gnmiUpdate client (rulePath "r1") payload, a⟩ ∈ (webRun DEFAULT_LEAF1).1) ∧
    ∃ reply, (webRun DEFAULT_LEAF1).2.1 = .ok reply ∧
      RoutedRight plainSf.py (formOf webDoc) (webRun DEFAULT_LEAF1).1 reply := by
  have hpath : (webRun DEFAULT_LEAF1).1.findSome? updatePath = some (rulePath "r1") := by
    decide +kernel
  have hall : (webRun DEFAULT_LEAF1).1.all (pushesWeb DEFAULT_LEAF1) = true := by decide +kernel
  constructor
  · obtain ⟨client, payload, a, he⟩ := exists_update_of_path hpath
    exact ⟨client, payload, a, (webRun_update hall he).1, he⟩
  · obtain ⟨reply, hreply, hiff⟩ := routedRight_iff (webRun_runs DEFAULT_LEAF1)
    refine ⟨reply, hreply, hiff.mpr fun h₁ client path payload a h₂ leaf heq hz => .inr ?_⟩
    have he : ⟨gnmiUpdate client path payload, a⟩ ∈ (webRun DEFAULT_LEAF1).1 := by
      rw [heq]
      simp
    have hsrc := (webRun_update hall he).2
    obtain ⟨src, hsrc', hz⟩ := hz
    rw [hsrc, Option.some.injEq, Json.str.injEq] at hsrc'
    subst hsrc'
    -- The source has one zone only, that of the first leaf.
    have hleaf := (inZone_iff.mp webDoc_inZone).symm.trans (inZone_iff.mp hz)
    simpa using hleaf

/-- With the first leaf down, a session with the second leaf sends it a rule of the first. -/
theorem exists_not_routedRight :
    ¬ ∀ (cfg : SfConfig) (p : Pool) (role : SonicRole) (session : Client) (ctx : SessionContext)
      (rpc : Xml) (h : List SfEvent) (reply : Reply),
      p.getAnyClient cfg.leafIps role = some session →
      SessionRuns ctx (handleEditConfig cfg (some session) rpc) h (.ok reply) →
      RoutedRight cfg.py (formOf rpc) h reply := by
  intro hall
  have hright := hall plainSf (.only DEFAULT_LEAF2) .admin ⟨DEFAULT_LEAF2, 0⟩ adminSession webDoc
    (webRun DEFAULT_LEAF2).1 (.ok "7") (by decide +kernel) (webRun_runs DEFAULT_LEAF2)
  have hpath : (webRun DEFAULT_LEAF2).1.findSome? updatePath = some (rulePath "r1") := by
    decide +kernel
  obtain ⟨client, payload, a, he⟩ := exists_update_of_path hpath
  obtain ⟨hhost, hsrc⟩ := webRun_update (by decide +kernel) he
  have hleaf := hright.updates client _ payload a DEFAULT_LEAF1 he ⟨_, hsrc, webDoc_inZone⟩
  rw [hhost] at hleaf
  exact absurd hleaf (by decide)

end ControlPlane.Secure
