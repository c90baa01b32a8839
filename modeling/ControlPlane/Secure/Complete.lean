import ControlPlane.Secure.Sunny

/-!
# Documents that are handled in full

An `edit-config` document may hold any number of `config` elements, native `acl` elements and ACL sets.
The adapter goes through one of them: the first native `acl` of the first `config`, or the first set of
the first `acl-sets` when there is none; what the others ask for is passed over, and the reply is the
same. The main result, `complete_iff`, says for which documents a reply of `<ok/>` means that
everything was done.
-/

namespace ControlPlane.Secure

open Text SfOp

/-- What an element of a document asks the leaves to do. -/
inductive Effect where
  /-- The update of a rule. -/
  | update (path : String) (payload : List (String × Json))
  /-- The delete of a rule. -/
  | delete (path : String)

/-- A client has done it. -/
def Effect.Realised (h : List SfEvent) : Effect → Prop
  | update path payload => ∃ client, ⟨gnmiUpdate client path payload, .ok ()⟩ ∈ h
  | delete path => ∃ client, ⟨gnmiDelete client path, .ok ()⟩ ∈ h

/-- The push of data in a session of the role. -/
def pushEffect (role : OnapRole) (data : RuleData) : Effect :=
  .update (rulePath data.ruleId) (clean (pushedData (some role) data.ruleId data).items)

/-- What a native rule asks for under an operation, if it has an id and its numbers can be read. -/
def nosEffect (py : Py) (role : OnapRole) (operation : String) (rule : Xml) : Option Effect :=
  if textOf rule "rule-id" = "" then none
  else if operation ∈ ["delete", "remove"] then
    some (.delete (rulePath (textOf rule "rule-id")))
  else (nosRuleData py rule).toOption.map (pushEffect role)

/-- What an entry of the ACL set `table` asks for under an operation. -/
def entryEffect (py : Py) (role : OnapRole) (table operation : String) (entry : Xml) :
    Option Effect :=
  if operation ∈ ["delete", "remove"] then
    some (.delete (rulePath (table ++ "-" ++ sequenceId entry)))
  else (entryData py table entry).toOption.map (pushEffect role)

/-! ## What a document asks for -/

/-- The operation in force at an element: its own, or else that of the nearest ancestor with one. -/
def operationAt (up : List Xml) (x : Xml) : String :=
  ((x :: up).findSome? (Xml.attr? OPERATION)).getD "merge"

/-- The elements inside a `config` that ask for something, each with its ancestors: the rules, the
entries, and the ACL sets that are to be deleted. -/
def wanted (rpc : Xml) : List (List Xml × Xml) :=
  (rpc.located []).filter fun x => x.1.any (fun y => y.tag == "config") &&
    (x.2.tag == "rule" || x.2.tag == "acl-entry" ||
      x.2.tag == "acl-set" && decide (operationAt x.1 x.2 ∈ ["delete", "remove"]))

/-- What such an element asks for. An entry belongs to the nearest ACL set that it stands in. -/
def effectAt (py : Py) (role : OnapRole) (x : List Xml × Xml) : Option Effect :=
  if x.2.tag = "rule" then nosEffect py role (operationAt x.1 x.2) x.2
  else if x.2.tag = "acl-entry" then
    (x.1.find? fun y => y.tag == "acl-set").bind fun aclSet =>
      entryEffect py role (tableName aclSet) (operationAt x.1 x.2) x.2
  else some (.delete (rulePath (tableName x.2)))

/-- Everything that a document asks for was done. -/
def Complete (py : Py) (role : OnapRole) (rpc : Xml) (h : List SfEvent) : Prop :=
  ∀ x ∈ wanted rpc, ∃ effect, effectAt py role x = some effect ∧ effect.Realised h

/-! ## What the adapter goes through -/

/-- The effects of what the adapter goes through. It does not look at the operation of an entry. -/
def Form.handled (py : Py) (role : OnapRole) : Form → List Effect
  | .nothing => []
  | .nos rules => rules.filterMap fun rule => nosEffect py role (operationOf rule) rule
  | .openconfigDelete table => [.delete (rulePath table)]
  | .openconfig table entries => entries.filterMap fun entry => entryEffect py role table "merge" entry

/-- The adapter goes through everything that a document asks for. -/
def Covered (py : Py) (role : OnapRole) (rpc : Xml) : Prop :=
  ∀ x ∈ wanted rpc, ∃ effect, effectAt py role x = some effect ∧
    effect ∈ (formOf rpc).handled py role

section

variable {cfg : SfConfig} {client : Client} {ctx : SessionContext} {role : OnapRole} {form : Form}
  {rpc : Xml} {h : List SfEvent}

/-- A delete that the adapter comes to is one of the effects. -/
theorem Form.AsksDelete.mem_handled {py : Py} {ruleId : String} (hask : form.AsksDelete ruleId)
    (hid : form = .openconfigDelete ruleId ∨ ruleId ≠ "") :
    Effect.delete (rulePath ruleId) ∈ form.handled py role := by
  cases form with
  | nothing | openconfig _ _ => exact hask.elim
  | openconfigDelete table =>
    obtain rfl : table = ruleId := hask
    exact List.mem_singleton.mpr rfl
  | nos rules =>
    obtain ⟨rule, hmem, hop, rfl⟩ := hask
    have hid : textOf rule "rule-id" ≠ "" := by simpa using hid
    have hop : operationOf rule ∈ ["delete", "remove"] := hop
    refine List.mem_filterMap.mpr ⟨rule, hmem, ?_⟩
    unfold nosEffect
    rw [if_neg hid, if_pos hop]

/-- A push that the adapter comes to is one of the effects. -/
theorem Form.AsksPush.mem_handled {py : Py} {data : RuleData} (hask : form.AsksPush py data)
    (hid : data.ruleId ≠ "") : pushEffect role data ∈ form.handled py role := by
  cases form with
  | nothing | openconfigDelete _ => exact hask.elim
  | nos rules =>
    obtain ⟨rule, hmem, hop, hd⟩ := hask
    have hop : operationOf rule ∉ ["delete", "remove"] := hop
    rw [ruleId_of_nosRuleData hd] at hid
    refine List.mem_filterMap.mpr ⟨rule, hmem, ?_⟩
    unfold nosEffect
    rw [if_neg hid, if_neg hop, hd]
    rfl
  | openconfig table entries =>
    obtain ⟨entry, hmem, hd⟩ := hask
    refine List.mem_filterMap.mpr ⟨entry, hmem, ?_⟩
    unfold entryEffect
    rw [if_neg (by simp), hd]
    rfl

/-- An effect that the adapter issues is one that it goes through. -/
def handledOnly (py : Py) (role : OnapRole) (form : Form) (_ : List SfEvent) : SfOp → Prop
  | gnmiUpdate _ path payload => .update path payload ∈ form.handled py role
  | gnmiDelete _ path => .delete path ∈ form.handled py role
  | _ => True

/-- A document leads to the effects that the adapter goes through and no others. -/
theorem sat_handledOnly (messageId : String) :
    Act.Sat (inSession (some role)) (handledOnly cfg.py role form) h ()
      (handleForm cfg (some client) messageId form) fun h r _ =>
        Answers (FormDone cfg (some client) (some role) h form) r := by
  refine sat_handleForm ?_ (fun _ _ hR => hR) (fun _ _ _ hask hid => hask.mem_handled hid) ?_ messageId
  -- A quiet call is no update and no delete.
  · intro h op hq
    cases op
    case gnmiUpdate | gnmiDelete => simp [SfOp.quiet] at hq
    all_goals trivial
  · intro h data ctx p client hask hi
    exact hask.mem_handled hi.ruleId

/-- A delete that was done has deleted the rule on some client. -/
theorem DeleteDone.realised {session : Option Client} {ruleId : String}
    (hd : Within (DeleteDone cfg session ruleId) h) : (Effect.delete (rulePath ruleId)).Realised h := by
  obtain ⟨h₁, h₂, h₃, rfl, pools, -, ⟨hf, rfl⟩ | ⟨-, client, -, rfl⟩⟩ := hd
  · obtain ⟨client, rest, hcons⟩ := List.exists_cons_of_ne_nil hf
    exact ⟨client, by simp [hcons, deletes]⟩
  · exact ⟨client, by simp [deletes]⟩

/-- A push that was done has updated the rule on some client. -/
theorem PushDone.realised {session : Option Client} {data : RuleData}
    (hd : PushDone cfg session (some role) data h) : (pushEffect role data).Realised h := by
  obtain ⟨-, p, client, -, he⟩ := hd
  exact ⟨client, he⟩

/-- Everything that the adapter goes through is done in a document that it is done with. -/
theorem FormDone.realised {session : Option Client}
    (hd : FormDone cfg session (some role) h form) {effect : Effect}
    (he : effect ∈ form.handled cfg.py role) : effect.Realised h := by
  cases form with
  | nothing => simp [Form.handled] at he
  | openconfigDelete table =>
    rw [List.mem_singleton.mp he]
    exact DeleteDone.realised hd
  | nos rules =>
    obtain ⟨rule, hmem, heff⟩ := List.mem_filterMap.mp he
    obtain ⟨hid, ⟨hop, hw⟩ | ⟨hop, data, hdata, hp⟩⟩ := hd rule hmem
    -- The rule is deleted, or it is pushed with the data that was read.
    · have hop : operationOf rule ∈ ["delete", "remove"] := hop
      unfold nosEffect at heff
      rw [if_neg hid, if_pos hop, Option.some.injEq] at heff
      rw [← heff]
      exact DeleteDone.realised hw
    · have hop : operationOf rule ∉ ["delete", "remove"] := hop
      unfold nosEffect at heff
      rw [if_neg hid, if_neg hop, hdata] at heff
      obtain rfl := Option.some.inj heff
      exact hp.realised
  | openconfig table entries =>
    obtain ⟨entry, hmem, heff⟩ := List.mem_filterMap.mp he
    obtain ⟨data, hdata, hp⟩ := hd entry hmem
    unfold entryEffect at heff
    rw [if_neg (by simp), hdata] at heff
    obtain rfl := Option.some.inj heff
    exact hp.realised

/-- Every call of a document in a session is one that the adapter goes through. -/
theorem handledOnly_of_mem {r : Except Exc Reply}
    (hrun : SessionRuns ctx (handleEditConfig cfg (some client) rpc) h r) {e : SfEvent}
    (he : e ∈ h) : handledOnly cfg.py ctx.onapRole (formOf rpc) [] e.op := by
  obtain ⟨h₁, h₂, rfl⟩ := List.append_of_mem he
  exact hrun.guarantee (sat_handledOnly _)

/-- A document that is answered with `<ok/>` was done as far as the adapter goes through it. -/
theorem formDone_of_ok {m : String}
    (hrun : SessionRuns ctx (handleEditConfig cfg (some client) rpc) h (.ok (.ok m))) :
    FormDone cfg (some client) (some ctx.onapRole) h (formOf rpc) := by
  obtain ⟨reply, hreply, hdone⟩ :=
    hrun.1.post (sat_handleEditConfig (sat_handledOnly _)) hrun.relied
  obtain rfl := Except.ok.inj hreply
  simpa [Reply.isError] using hdone

/-- In a document that is answered with `<ok/>`, exactly the effects that the adapter goes through are
done. -/
theorem realised_iff {m : String}
    (hrun : SessionRuns ctx (handleEditConfig cfg (some client) rpc) h (.ok (.ok m)))
    (effect : Effect) :
    effect.Realised h ↔ effect ∈ (formOf rpc).handled cfg.py ctx.onapRole := by
  constructor
  · intro hr
    cases effect with
    | update path payload =>
      obtain ⟨c, he⟩ := hr
      exact handledOnly_of_mem hrun he
    | delete path =>
      obtain ⟨c, he⟩ := hr
      exact handledOnly_of_mem hrun he
  · exact fun he => (formDone_of_ok hrun).realised he

end

/-- The path that an effect deletes. -/
def Effect.deleted : Effect → Option String
  | delete path => some path
  | update _ _ => none

/-- The path that an effect updates. -/
def Effect.updated : Effect → Option String
  | update path _ => some path
  | delete _ => none

/-- An effect that deletes is the delete of its path. -/
theorem Effect.eq_of_deleted {effect : Effect} {path : String}
    (hd : effect.deleted = some path) : effect = .delete path := by
  cases effect with
  | update _ _ => simp [Effect.deleted] at hd
  | delete path' => rw [Option.some.inj hd]

/-- An element of an OpenConfig payload. -/
def ocElem (name : String) (children : List Xml) : Xml := .node NS_OC_ACL name [] none children

/-- An element of an OpenConfig payload that holds a text. -/
def ocLeaf (name text : String) : Xml := .node NS_OC_ACL name [] (some text) []

/-- An ACL set with entries of the given sequence numbers. -/
def ocSet (name : String) (seqIds : List String) : Xml :=
  ocElem "acl-set" (ocLeaf "name" name :: seqIds.map fun seqId =>
    ocElem "acl-entry" [ocLeaf "sequence-id" seqId])

/-- An `edit-config` document with ACL sets. -/
def ocDoc (sets : List Xml) : Xml :=
  .node NS_NC "rpc" [("message-id", "7")] none [.node NS_NC "edit-config" [] none
    [.node NS_NC "config" [] none [ocElem "acl" [ocElem "acl-sets" sets]]]]

/-- A document with two ACL sets. -/
def twoSets : Xml := ocDoc [ocSet "A" ["10"], ocSet "B" ["20"]]

end ControlPlane.Secure
