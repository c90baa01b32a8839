import ControlPlane.Lib.XmlText
import ControlPlane.Secure.Adapter

/-!
# The texts of replies

The session and the adapter put a reply together out of strings. The message id of the request, as
the parser gives it, is put between quotes as it is; so is the message of an exception between tags.
A reply is a document with the message id of its request exactly when the message id is plain and
what the reply is about can be read where it stands (`correlates_reply_iff`).
-/

namespace ControlPlane.Secure

open XmlText

/-! ## The replies of the session -/

/-- `saxutils.escape`. -/
def saxEscape (s : String) : String := String.ofList (escape s.toList)

/-- An `<rpc-reply>`. -/
def rpcReply (msgId body : String) : String :=
  "<?xml version=\"1.0\" encoding=\"UTF-8\"?>" ++
  "\n<rpc-reply xmlns=\"urn:ietf:params:xml:ns:netconf:base:1.0\" message-id=\"" ++ msgId ++
  "\">\n" ++ body ++ "\n</rpc-reply>"

/-- An `<rpc-error>`. -/
def rpcError (errType errTag msgPart : String) : String :=
  "    <rpc-error>\n        <error-type>" ++ errType ++ "</error-type>\n        <error-tag>" ++
  errTag ++ "</error-tag>\n        " ++ msgPart ++ "\n    </rpc-error>"

/-- `_build_rpc_reply`. -/
def buildRpcReply (dataXml msgId : String) : String := rpcReply msgId dataXml

/-- `_build_ok_reply`. -/
def buildOkReply (msgId : String) : String := rpcReply msgId "    <ok/>"

/-- `_build_error_reply`, which does not escape the message. -/
def buildErrorReply (msgId errType errTag errMsg : String) : String :=
  let msgPart := if errMsg ≠ "" then "<error-message>" ++ errMsg ++ "</error-message>" else ""
  rpcReply msgId (rpcError errType errTag msgPart)

/-- `_build_schema_response`, with the text of the module. -/
def buildSchemaResponse (msgId yangText : String) : String :=
  rpcReply msgId
    ("    <data xmlns=\"urn:ietf:params:xml:ns:yang:ietf-netconf-monitoring\">" ++
      saxEscape yangText ++ "</data>")

/-- A character of the name or the revision of a YANG module. -/
def isModuleChar (c : Char) : Bool := c.isAlphanum || c == '-' || c == '_' || c == '.'

/-- A module that the server has. Its name and its revision come from the name of its file; its
namespace is whatever the file has between quotes. -/
structure Schema where
  moduleName : String
  revision : String
  nsUri : String
  moduleName_spec : ∀ c ∈ moduleName.toList, isModuleChar c = true
  revision_spec : ∀ c ∈ revision.toList, isModuleChar c = true

/-- The entry of a module in the list of schemas. -/
def schemaEntry (e : Schema) : String :=
  "        <schema>\n          <identifier>" ++ e.moduleName ++
  "</identifier>\n          <version>" ++ e.revision ++
  "</version>\n          <format>yang</format>\n          <namespace>" ++ saxEscape e.nsUri ++
  "</namespace>\n          <location>NETCONF</location>\n        </schema>"

/-- `_build_monitoring_schemas`. -/
def buildMonitoringSchemas (schemaEntries : List Schema) : String :=
  ("    <data>\n    <netconf-state " ++
    "xmlns=\"urn:ietf:params:xml:ns:yang:ietf-netconf-monitoring\">") ++
  "\n      <schemas>\n" ++ "\n".intercalate (schemaEntries.map schemaEntry) ++
  "\n      </schemas>\n    </netconf-state>\n  </data>"

/-! ## The replies of the adapter -/

/-- `_gnmi_to_netconf_xml`, with what `json.dumps` makes of the result. -/
def gnmiToNetconfXml (dataStr : String) : String :=
  "    <data><acl xmlns=\"" ++ NS_NOS ++ "\"><raw>" ++ saxEscape dataStr ++
  "</raw></acl></data>"

/-- `_ok`. -/
def adapterOk (msgId : String) : String := rpcReply msgId "    <ok/>"

/-- `_error`, which escapes the message. -/
def adapterError (msgId errType errTag errMsg : String) : String :=
  let msgPart := if errMsg ≠ "" then "<error-message>" ++ saxEscape errMsg ++ "</error-message>"
    else ""
  rpcReply msgId (rpcError errType errTag msgPart)

/-- The tags of the errors of the adapter. -/
inductive AdapterTag where
  | operationFailed
  | invalidValue
  | accessDenied

/-- The text of a tag. -/
def AdapterTag.text : AdapterTag → String
  | operationFailed => "operation-failed"
  | invalidValue => "invalid-value"
  | accessDenied => "access-denied"

/-! ## What is replied -/

/-- What the handling of a message comes to. -/
inductive Answer where
  /-- The session replies `ok`. -/
  | ok
  /-- The rules that the bridge has, or nothing of them. -/
  | rules (dataStr : Option String)
  | schemas (schemaEntries : List Schema)
  | schema (yangText : String)
  /-- An exception came to the session. -/
  | raised (errMsg : String)
  /-- The adapter replies `ok`. -/
  | edited
  | refused (errTag : AdapterTag) (errMsg : String)

/-- The reply to a message. -/
def reply (msgId : String) : Answer → String
  | .ok => buildOkReply msgId
  | .rules none => buildRpcReply "    <data/>" msgId
  | .rules (some dataStr) => buildRpcReply (gnmiToNetconfXml dataStr) msgId
  | .schemas schemaEntries => buildRpcReply (buildMonitoringSchemas schemaEntries) msgId
  | .schema yangText => buildSchemaResponse msgId yangText
  | .raised errMsg => buildErrorReply msgId "application" "operation-failed" errMsg
  | .edited => adapterOk msgId
  | .refused errTag errMsg => adapterError msgId "application" errTag.text errMsg

/-- A reply is a well-formed document with the message id. -/
def Correlates (msgId text : String) : Prop :=
  ∃ attrs, XmlText.read text.toList = some attrs ∧
    attrs.lookup "message-id".toList = some msgId.toList

/-! ## The message id -/

/-- The start tag of a reply, up to the message id. -/
def replyTag : Tag :=
  ⟨"rpc-reply".toList, [("xmlns".toList, "urn:ietf:params:xml:ns:netconf:base:1.0".toList)]⟩

/-- Inside of `<rpc-reply>`. The attributes make no difference. -/
def inReply (names : List String) : State :=
  ⟨.content 0, names.map String.toList ++ ["rpc-reply".toList], some []⟩

/-- A text that closes what is open. -/
def Closes (σ : State) (s : List Char) : Prop :=
  ∃ k, XmlText.run σ s = some ⟨.content k, [], some []⟩

theorem run_reply :
    XmlText.run ⟨.content 0, [], none⟩
      "\n<rpc-reply xmlns=\"urn:ietf:params:xml:ns:netconf:base:1.0\" message-id=\"".toList =
      some ⟨.attrValue replyTag "message-id".toList '"' [] false, [], none⟩ := by
  decide +kernel

/-- A reply has its message id exactly when the message id is plain and its body can be read. -/
theorem correlates_rpcReply_iff (msgId body : String) :
    Correlates msgId (rpcReply msgId body) ↔ (∀ c ∈ msgId.toList, isPlain '"' c = true) ∧
      Closes (inReply []) ('\n' :: (body.toList ++ "\n</rpc-reply>".toList)) := by
  have htext : (rpcReply msgId body).toList = xmlDeclaration ++
      ("\n<rpc-reply xmlns=\"urn:ietf:params:xml:ns:netconf:base:1.0\" message-id=\"".toList ++
        (msgId.toList ++ '"' :: '>' :: '\n' :: (body.toList ++ "\n</rpc-reply>".toList))) := by
    unfold rpcReply
    simp only [String.toList_append, List.append_assoc]
    rfl
  have hnew : "message-id".toList ∉ replyTag.attrs.map Prod.fst := by decide
  unfold Correlates
  rw [htext]
  constructor
  · rintro ⟨attrs, hread, hlookup⟩
    obtain ⟨k, hrun⟩ := read_append_eq_some.mp hread
    rw [run_append, run_reply, Option.bind_some] at hrun
    obtain ⟨hplain, k, attrs, hrun⟩ :=
      (reads_value_iff (by decide) (by decide) hnew).mp ⟨k, attrs, hrun, hlookup⟩
    refine ⟨hplain, k, ?_⟩
    have hroot := @run_root (.content 0) ["rpc-reply".toList]
      (replyTag.attrs ++ [("message-id".toList, msgId.toList)]) []
      ('\n' :: (body.toList ++ "\n</rpc-reply>".toList))
    rw [show inReply [] = ⟨.content 0, ["rpc-reply".toList], some []⟩ from rfl, hroot]
    exact congrArg (Option.map _) hrun
  · rintro ⟨hplain, k, hrun⟩
    have hroot := @run_root (.content 0) ["rpc-reply".toList] []
      (replyTag.attrs ++ [("message-id".toList, msgId.toList)])
      ('\n' :: (body.toList ++ "\n</rpc-reply>".toList))
    have hrest : XmlText.run
        ⟨.tag ⟨replyTag.name, replyTag.attrs ++ [("message-id".toList, msgId.toList)]⟩ false, [],
          none⟩ ('>' :: '\n' :: (body.toList ++ "\n</rpc-reply>".toList)) =
          some ⟨.content k, [], some (replyTag.attrs ++ [("message-id".toList, msgId.toList)])⟩ :=
      hroot.trans (congrArg (Option.map _) hrun)
    obtain ⟨k, attrs, hrun, hlookup⟩ :=
      (reads_value_iff (by decide) (by decide) hnew).mpr ⟨hplain, k, _, hrest⟩
    refine ⟨attrs, read_append_eq_some.mpr ⟨k, ?_⟩, hlookup⟩
    rw [run_append, run_reply, Option.bind_some]
    exact hrun

/-! ## What a reply is about -/

/-- An escaped text between tags can be read exactly when a document may have its characters. -/
theorem closes_escape_iff {σ : State} {names : List String} {name : String}
    {head s rest : List Char} (hhead : XmlText.run σ head = some (inReply (name :: names)))
    (hrest : Closes { inReply (name :: names) with mode := .markup } rest) :
    Closes σ (head ++ (escape s ++ '<' :: rest)) ↔ ∀ c ∈ s, isChar c = true := by
  have hrun : ∀ τ, XmlText.run σ (head ++ (escape s ++ '<' :: rest)) = some τ ↔
      (∀ c ∈ s, isChar c = true) ∧
        XmlText.run { inReply (name :: names) with mode := .markup } rest = some τ := by
    intro τ
    rw [run_append, hhead, Option.bind_some]
    exact run_escape_eq_some
  constructor
  · rintro ⟨k, h⟩
    exact ((hrun _).mp h).1
  · intro hs
    obtain ⟨k, hk⟩ := hrest
    exact ⟨k, (hrun _).mpr ⟨hs, hk⟩⟩

theorem closes_ok : Closes (inReply []) ('\n' :: ("    <ok/>".toList ++ "\n</rpc-reply>".toList)) :=
  ⟨0, rfl⟩

theorem closes_noData :
    Closes (inReply []) ('\n' :: ("    <data/>".toList ++ "\n</rpc-reply>".toList)) :=
  ⟨0, rfl⟩

theorem closes_gnmiToNetconfXml_iff (dataStr : String) :
    Closes (inReply []) ('\n' :: ((gnmiToNetconfXml dataStr).toList ++ "\n</rpc-reply>".toList)) ↔
      ∀ c ∈ dataStr.toList, isChar c = true := by
  have htext : '\n' :: ((gnmiToNetconfXml dataStr).toList ++ "\n</rpc-reply>".toList) =
      "\n    <data><acl xmlns=\"urn:3snos:iptables\"><raw>".toList ++ (escape dataStr.toList ++
        '<' :: "/raw></acl></data>\n</rpc-reply>".toList) := by
    unfold gnmiToNetconfXml saxEscape
    simp only [String.toList_append, String.toList_ofList, List.append_assoc]
    rfl
  rw [htext]
  exact @closes_escape_iff _ ["acl", "data"] "raw" _ _ _ rfl ⟨0, rfl⟩

theorem closes_schema_iff (yangText : String) :
    Closes (inReply []) ('\n' ::
      (("    <data xmlns=\"urn:ietf:params:xml:ns:yang:ietf-netconf-monitoring\">" ++
        saxEscape yangText ++ "</data>").toList ++ "\n</rpc-reply>".toList)) ↔
      ∀ c ∈ yangText.toList, isChar c = true := by
  have htext : '\n' :: (("    <data xmlns=\"urn:ietf:params:xml:ns:yang:ietf-netconf-monitoring\">"
      ++ saxEscape yangText ++ "</data>").toList ++ "\n</rpc-reply>".toList) =
      "\n    <data xmlns=\"urn:ietf:params:xml:ns:yang:ietf-netconf-monitoring\">".toList ++
        (escape yangText.toList ++ '<' :: "/data>\n</rpc-reply>".toList) := by
    unfold saxEscape
    simp only [String.toList_append, String.toList_ofList, List.append_assoc]
    rfl
  rw [htext]
  exact @closes_escape_iff _ [] "data" _ _ _ (by decide +kernel) ⟨0, rfl⟩

/-! ## The list of the schemas -/

/-- A character of a module's name or revision is no markup. -/
theorem isText_of_isModuleChar {c : Char} (h : isModuleChar c = true) : isText c = true := by
  have hne : ∀ x : Char, isModuleChar x = false → c ≠ x := by
    rintro x hx rfl
    rw [h] at hx
    cases hx
  refine isText_iff.mpr ⟨?_, hne _ (by decide), hne _ (by decide), hne _ (by decide)⟩
  unfold isModuleChar at h
  unfold isChar
  simp only [Bool.or_eq_true, beq_iff_eq] at h
  obtain ((halnum | rfl) | rfl) | rfl := h
  · have hle : 32 ≤ c.val.toNat ∧ c.val.toNat ≤ 65533 := by
      have hranges : (decide ((65 : UInt32) ≤ c.val ∧ c.val ≤ 90) ||
          decide ((97 : UInt32) ≤ c.val) && decide (c.val ≤ 122) ||
            decide ((48 : UInt32) ≤ c.val) && decide (c.val ≤ 57)) = true := halnum
      simp only [Bool.or_eq_true, Bool.and_eq_true, decide_eq_true_eq,
        UInt32.le_iff_toNat_le] at hranges
      obtain (⟨h₁, h₂⟩ | ⟨h₁, h₂⟩) | ⟨h₁, h₂⟩ := hranges <;> refine ⟨?_, ?_⟩ <;>
        first
        | exact Nat.le_trans (by decide) h₁
        | exact Nat.le_trans h₂ (by decide)
    have hbetween : (decide (32 ≤ c.toNat) && decide (c.toNat ≤ 65533)) = true := by
      simpa using hle
    rw [hbetween]
    simp
  · decide
  · decide
  · decide

/-- In the list of the schemas. -/
def inSchemas : State := inReply ["schemas", "netconf-state", "data"]

/-- An entry is read to its end, if a document may have the characters of its namespace. -/
theorem run_schemaEntry_eq_some {e : Schema} {rest : List Char} {τ : State} :
    XmlText.run inSchemas ((schemaEntry e).toList ++ rest) = some τ ↔
      (∀ c ∈ e.nsUri.toList, isChar c = true) ∧ XmlText.run inSchemas rest = some τ := by
  have htext : (schemaEntry e).toList ++ rest =
      "        <schema>\n          <identifier>".toList ++ (e.moduleName.toList ++
        '<' :: ("/identifier>\n          <version>".toList ++ (e.revision.toList ++
          '<' :: ("/version>\n          <format>yang</format>\n          <namespace>".toList ++
            (escape e.nsUri.toList ++
              '<' :: ("/namespace>\n          <location>NETCONF</location>\n".toList ++
                ("        </schema>".toList ++ rest))))))) := by
    unfold schemaEntry saxEscape
    simp only [String.toList_append, String.toList_ofList, List.append_assoc]
    rfl
  -- the state after each of the tags
  have hidentifier : XmlText.run inSchemas "        <schema>\n          <identifier>".toList =
      some (inReply ["identifier", "schema", "schemas", "netconf-state", "data"]) := by
    rfl
  have hversion : XmlText.run
      { inReply ["identifier", "schema", "schemas", "netconf-state", "data"] with mode := .markup }
        "/identifier>\n          <version>".toList =
        some (inReply ["version", "schema", "schemas", "netconf-state", "data"]) := by
    rfl
  have hnamespace : XmlText.run
      { inReply ["version", "schema", "schemas", "netconf-state", "data"] with mode := .markup }
        "/version>\n          <format>yang</format>\n          <namespace>".toList =
        some (inReply ["namespace", "schema", "schemas", "netconf-state", "data"]) := by
    rfl
  have hlocation : XmlText.run
      { inReply ["namespace", "schema", "schemas", "netconf-state", "data"] with mode := .markup }
        "/namespace>\n          <location>NETCONF</location>\n".toList =
        some (inReply ["schema", "schemas", "netconf-state", "data"]) := by
    rfl
  have hschema : XmlText.run (inReply ["schema", "schemas", "netconf-state", "data"])
      "        </schema>".toList = some inSchemas := by
    rfl
  have hname := fun c hc => isText_of_isModuleChar (e.moduleName_spec c hc)
  have hrevision := fun c hc => isText_of_isModuleChar (e.revision_spec c hc)
  rw [htext, run_append, hidentifier, Option.bind_some]
  refine (run_text_eq_some hname).trans ?_
  rw [run_append]
  refine (iff_of_eq (congrArg (Option.bind · _ = some τ) hversion)).trans ?_
  refine (run_text_eq_some hrevision).trans ?_
  rw [run_append]
  refine (iff_of_eq (congrArg (Option.bind · _ = some τ) hnamespace)).trans ?_
  refine run_escape_eq_some.trans (and_congr_right' ?_)
  rw [run_append]
  refine (iff_of_eq (congrArg (Option.bind · _ = some τ) hlocation)).trans ?_
  rw [Option.bind_some, run_append, hschema, Option.bind_some]

/-- What comes before the list of the schemas. -/
def schemasStart : List Char :=
  ("    <data>\n    <netconf-state " ++
    "xmlns=\"urn:ietf:params:xml:ns:yang:ietf-netconf-monitoring\">").toList ++
    "\n      <schemas>\n".toList

theorem run_schemasStart : XmlText.run (inReply []) ('\n' :: schemasStart) = some inSchemas := by
  decide +kernel

/-- What comes behind the list of the schemas. -/
def schemasEnd : List Char :=
  "\n      </schemas>\n    </netconf-state>\n  </data>\n</rpc-reply>".toList

theorem run_schemasEnd : XmlText.run inSchemas schemasEnd = some ⟨.content 0, [], some []⟩ := by
  rfl

theorem run_schemaEntries_eq_some {schemaEntries : List Schema} {τ : State} :
    XmlText.run inSchemas
        (("\n".intercalate (schemaEntries.map schemaEntry)).toList ++ schemasEnd) = some τ ↔
      (∀ e ∈ schemaEntries, ∀ c ∈ e.nsUri.toList, isChar c = true) ∧
        XmlText.run inSchemas schemasEnd = some τ := by
  rw [String.toList_intercalate, List.map_map]
  induction schemaEntries with
  | nil =>
    have hall : ∀ e ∈ ([] : List Schema), ∀ c ∈ e.nsUri.toList, isChar c = true :=
      fun e he => absurd he List.not_mem_nil
    exact (and_iff_right hall).symm
  | cons e entries ih =>
    -- the rest of the list is read from where the entry ends
    have hrest : ∃ rest, "\n".toList.intercalate
          ((e :: entries).map (String.toList ∘ schemaEntry)) ++ schemasEnd =
        (schemaEntry e).toList ++ rest ∧
          (XmlText.run inSchemas rest = some τ ↔
            (∀ e ∈ entries, ∀ c ∈ e.nsUri.toList, isChar c = true) ∧
              XmlText.run inSchemas schemasEnd = some τ) := by
      cases entries with
      | nil =>
        refine ⟨schemasEnd, ?_, ih⟩
        rw [List.map_singleton, List.intercalate_singleton]
        rfl
      | cons e' entries =>
        refine ⟨"\n".toList ++ ("\n".toList.intercalate
          ((e' :: entries).map (String.toList ∘ schemaEntry)) ++ schemasEnd), ?_, ih⟩
        simp only [List.map_cons, List.intercalate_cons_cons, List.append_assoc,
          Function.comp_apply]
    obtain ⟨rest, htext, hrest⟩ := hrest
    rw [htext, run_schemaEntry_eq_some, hrest, List.forall_mem_cons, and_assoc]

/-- The list of the schemas can be read exactly when a document may have the characters of every
namespace. -/
theorem closes_buildMonitoringSchemas_iff (schemaEntries : List Schema) :
    Closes (inReply []) ('\n' ::
      ((buildMonitoringSchemas schemaEntries).toList ++ "\n</rpc-reply>".toList)) ↔
      ∀ e ∈ schemaEntries, ∀ c ∈ e.nsUri.toList, isChar c = true := by
  have htext : (buildMonitoringSchemas schemaEntries).toList ++ "\n</rpc-reply>".toList =
      schemasStart ++
        (("\n".intercalate (schemaEntries.map schemaEntry)).toList ++ schemasEnd) := by
    unfold buildMonitoringSchemas schemasStart
    simp only [String.toList_append, List.append_assoc]
    rfl
  have hrun : ∀ τ, XmlText.run (inReply []) ('\n' ::
      ((buildMonitoringSchemas schemaEntries).toList ++ "\n</rpc-reply>".toList)) = some τ ↔
      (∀ e ∈ schemaEntries, ∀ c ∈ e.nsUri.toList, isChar c = true) ∧
        XmlText.run inSchemas schemasEnd = some τ := by
    intro τ
    rw [htext, ← List.cons_append, run_append, run_schemasStart, Option.bind_some,
      run_schemaEntries_eq_some]
  constructor
  · rintro ⟨k, h⟩
    exact ((hrun _).mp h).1
  · intro hall
    exact ⟨0, (hrun _).mpr ⟨hall, run_schemasEnd⟩⟩

/-! ## Errors -/

/-- A text that can stand as it is where the message of an error is. Read there, it comes back to
the text of `<error-message>`. -/
def StandsInMessage (errMsg : String) : Prop :=
  ∃ k, XmlText.run (inReply ["error-message", "rpc-error"]) errMsg.toList =
    some { inReply ["error-message", "rpc-error"] with mode := .content k }

/-- A message without markup can stand there. -/
theorem standsInMessage_of_isText {errMsg : String}
    (h : ∀ c ∈ errMsg.toList, XmlText.isText c = true) :
    StandsInMessage errMsg :=
  exists_run_text 0 h

/-- What the parser says about a text that is no document cannot. -/
example : XmlText.run (inReply ["error-message", "rpc-error"])
    "Start tag expected, '<' not found, line 1, column 1".toList = none := by
  rfl

/-- What comes behind the message of an error. -/
def errorEnd : List Char := "</error-message>\n    </rpc-error>\n</rpc-reply>".toList

theorem markup_errorEnd {names : List (List Char)} {k : ℕ}
    (h : XmlText.run ⟨.markup, names, some []⟩ errorEnd.tail = some ⟨.content k, [], some []⟩) :
    names = (inReply ["error-message", "rpc-error"]).stack := by
  have h₁ : XmlText.run ⟨.markup, names, some []⟩ ('/' :: ("error-message".toList ++ '>' ::
      ("\n    ".toList ++ '<' :: "/rpc-error>\n</rpc-reply>".toList))) =
        some ⟨.content k, [], some []⟩ := h
  obtain ⟨names, rfl, h₂⟩ := (run_endTag_eq_some (List.all_eq_true.mp (by decide))).mp h₁
  rw [run_space 0 names _ _ (List.all_eq_true.mp (by decide))] at h₂
  have h₃ : XmlText.run ⟨.markup, names, some []⟩ ('/' :: ("rpc-error".toList ++ '>' ::
      ("\n".toList ++ '<' :: "/rpc-reply>".toList))) = some ⟨.content k, [], some []⟩ := h₂
  obtain ⟨names, rfl, h₄⟩ := (run_endTag_eq_some (List.all_eq_true.mp (by decide))).mp h₃
  rw [run_space 0 names _ _ (List.all_eq_true.mp (by decide))] at h₄
  have h₅ : XmlText.run ⟨.markup, names, some []⟩ ('/' :: ("rpc-reply".toList ++ '>' :: [])) =
      some ⟨.content k, [], some []⟩ := h₄
  obtain ⟨names, rfl, h₆⟩ := (run_endTag_eq_some (List.all_eq_true.mp (by decide))).mp h₅
  obtain ⟨-, hnames, -⟩ := State.mk.inj (Option.some_inj.mp h₆)
  rw [hnames]
  rfl

/-- The end of an error is read to the end of the reply exactly from the text of
`<error-message>`. -/
theorem closes_errorEnd_iff {σ : State} (hroot : σ.root = some []) : Closes σ errorEnd ↔
    ∃ k, σ = { inReply ["error-message", "rpc-error"] with mode := .content k } := by
  constructor
  · rintro ⟨k, hrun⟩
    have hcons : XmlText.run σ ('<' :: errorEnd.tail) = some ⟨.content k, [], some []⟩ := hrun
    rw [run_cons] at hcons
    obtain ⟨τ, hstep, hrest⟩ := Option.bind_eq_some_iff.mp hcons
    obtain ⟨j, hmode, rfl⟩ | ⟨t, hmode⟩ | hmode | hmode | hmode := step_lt hstep
    · rw [hroot] at hrest
      have hstack := markup_errorEnd hrest
      refine ⟨j, ?_⟩
      obtain ⟨mode, stack, root⟩ := σ
      obtain rfl : mode = .content j := hmode
      obtain rfl : root = some [] := hroot
      exact congrArg (State.mk (.content j) · (some [])) hstack
    -- a start tag has no end tag in it, and nothing else that goes over `<` ends at an end tag
    all_goals
      obtain ⟨mode, stack, root⟩ := τ
      obtain rfl := hmode
      have hmode' := congrArg (Option.map State.mode) hrest
      cases hmode'
  · rintro ⟨k, rfl⟩
    exact ⟨0, rfl⟩

/-- What comes before the tag of an error. -/
def errorStart : List Char :=
  '\n' :: ("    <rpc-error>\n        <error-type>".toList ++
    ("application".toList ++ "</error-type>\n        <error-tag>".toList))

theorem run_errorStart :
    XmlText.run (inReply []) errorStart = some (inReply ["error-tag", "rpc-error"]) := by
  decide +kernel

/-- An error can be read exactly when what stands for its message can. -/
theorem closes_rpcError_iff {errTag : String}
    (htag : ∀ c ∈ errTag.toList, XmlText.isText c = true)
    (msgPart : String) :
    Closes (inReply []) ('\n' ::
      ((rpcError "application" errTag msgPart).toList ++ "\n</rpc-reply>".toList)) ↔
      Closes (inReply ["rpc-error"])
        (msgPart.toList ++ "\n    </rpc-error>\n</rpc-reply>".toList) := by
  have htext : '\n' ::
      ((rpcError "application" errTag msgPart).toList ++ "\n</rpc-reply>".toList) =
      errorStart ++ (errTag.toList ++ '<' :: ("/error-tag>\n        ".toList ++
        (msgPart.toList ++ "\n    </rpc-error>\n</rpc-reply>".toList))) := by
    unfold rpcError errorStart
    simp only [String.toList_append, List.append_assoc, List.cons_append]
    rfl
  have hend : XmlText.run { inReply ["error-tag", "rpc-error"] with mode := .markup }
      "/error-tag>\n        ".toList = some (inReply ["rpc-error"]) := by
    rfl
  have hrun : ∀ τ, XmlText.run (inReply []) ('\n' ::
      ((rpcError "application" errTag msgPart).toList ++ "\n</rpc-reply>".toList)) = some τ ↔
      XmlText.run (inReply ["rpc-error"])
        (msgPart.toList ++ "\n    </rpc-error>\n</rpc-reply>".toList) = some τ := by
    intro τ
    rw [htext, run_append, run_errorStart, Option.bind_some]
    refine (run_text_eq_some htag).trans ?_
    rw [run_append]
    exact iff_of_eq (congrArg (Option.bind · _ = some τ) hend)
  exact exists_congr fun k => hrun _

theorem closes_noMessage :
    Closes (inReply ["rpc-error"]) ("".toList ++ "\n    </rpc-error>\n</rpc-reply>".toList) :=
  ⟨0, rfl⟩

theorem closes_escaped_iff (errMsg : String) :
    Closes (inReply ["rpc-error"]) (("<error-message>" ++ saxEscape errMsg ++
      "</error-message>").toList ++ "\n    </rpc-error>\n</rpc-reply>".toList) ↔
      ∀ c ∈ errMsg.toList, isChar c = true := by
  have htext : ("<error-message>" ++ saxEscape errMsg ++ "</error-message>").toList ++
      "\n    </rpc-error>\n</rpc-reply>".toList =
      "<error-message>".toList ++ (escape errMsg.toList ++ '<' :: errorEnd.tail) := by
    unfold saxEscape
    simp only [String.toList_append, String.toList_ofList, List.append_assoc]
    rfl
  rw [htext]
  exact @closes_escape_iff _ ["rpc-error"] "error-message" _ _ _ rfl
    ⟨0, rfl⟩

theorem closes_unescaped_iff (errMsg : String) :
    Closes (inReply ["rpc-error"]) (("<error-message>" ++ errMsg ++ "</error-message>").toList ++
      "\n    </rpc-error>\n</rpc-reply>".toList) ↔ StandsInMessage errMsg := by
  have htext : ("<error-message>" ++ errMsg ++ "</error-message>").toList ++
      "\n    </rpc-error>\n</rpc-reply>".toList =
      "<error-message>".toList ++ (errMsg.toList ++ errorEnd) := by
    simp only [String.toList_append, List.append_assoc]
    rfl
  have hstart : XmlText.run (inReply ["rpc-error"]) "<error-message>".toList =
      some (inReply ["error-message", "rpc-error"]) := by
    rfl
  have hrun : XmlText.run (inReply ["rpc-error"]) ("<error-message>".toList ++
      (errMsg.toList ++ errorEnd)) =
      (XmlText.run (inReply ["error-message", "rpc-error"]) errMsg.toList).bind
        fun σ => XmlText.run σ errorEnd := by
    rw [run_append, hstart, Option.bind_some, run_append]
  rw [htext]
  unfold Closes StandsInMessage
  rw [hrun]
  constructor
  · rintro ⟨k, hbind⟩
    obtain ⟨σ, hmsg, hend⟩ := Option.bind_eq_some_iff.mp hbind
    obtain ⟨j, rfl⟩ := (closes_errorEnd_iff (root_of_run rfl hmsg)).mp ⟨k, hend⟩
    exact ⟨j, hmsg⟩
  · rintro ⟨j, hmsg⟩
    obtain ⟨k, hend⟩ := (closes_errorEnd_iff rfl).mpr ⟨j, rfl⟩
    exact ⟨k, Option.bind_eq_some_iff.mpr ⟨_, hmsg, hend⟩⟩

/-- A tag of the adapter is no markup. -/
theorem AdapterTag.isText (errTag : AdapterTag) :
    ∀ c ∈ errTag.text.toList, XmlText.isText c = true := by
  cases errTag <;> exact List.all_eq_true.mp rfl

theorem correlates_buildErrorReply_iff (msgId errMsg : String) :
    Correlates msgId (buildErrorReply msgId "application" "operation-failed" errMsg) ↔
      (∀ c ∈ msgId.toList, isPlain '"' c = true) ∧ (errMsg = "" ∨ StandsInMessage errMsg) := by
  unfold buildErrorReply
  have htag : ∀ c ∈ "operation-failed".toList, XmlText.isText c = true :=
    AdapterTag.isText .operationFailed
  rw [correlates_rpcReply_iff, closes_rpcError_iff htag]
  refine and_congr_right' ?_
  by_cases hempty : errMsg = ""
  · rw [if_neg (not_not.mpr hempty)]
    exact iff_of_true closes_noMessage (.inl hempty)
  · rw [if_pos hempty, closes_unescaped_iff]
    exact (or_iff_right hempty).symm

theorem correlates_adapterError_iff (msgId : String) (errTag : AdapterTag) (errMsg : String) :
    Correlates msgId (adapterError msgId "application" errTag.text errMsg) ↔
      (∀ c ∈ msgId.toList, isPlain '"' c = true) ∧ ∀ c ∈ errMsg.toList, isChar c = true := by
  unfold adapterError
  rw [correlates_rpcReply_iff, closes_rpcError_iff errTag.isText]
  refine and_congr_right' ?_
  by_cases hempty : errMsg = ""
  · rw [if_neg (not_not.mpr hempty), hempty]
    exact iff_of_true closes_noMessage fun c hc => absurd hc List.not_mem_nil
  · rw [if_pos hempty, closes_escaped_iff]

/-! ## All replies -/

/-- What an answer puts into the reply can be read there. -/
def Readable : Answer → Prop
  | .ok | .rules none | .edited => True
  | .rules (some text) | .schema text | .refused _ text => ∀ c ∈ text.toList, isChar c = true
  | .schemas schemaEntries => ∀ e ∈ schemaEntries, ∀ c ∈ e.nsUri.toList, isChar c = true
  | .raised errMsg => errMsg = "" ∨ StandsInMessage errMsg

/-- Every reply, of the session or of the adapter, is a document with the message id of its request
exactly when the message id is plain and what the answer puts into it can be read there. -/
theorem correlates_reply_iff (msgId : String) (answer : Answer) :
    Correlates msgId (reply msgId answer) ↔
      (∀ c ∈ msgId.toList, isPlain '"' c = true) ∧ Readable answer := by
  cases answer with
  | ok | edited =>
    show Correlates msgId (rpcReply msgId _) ↔ _
    rw [correlates_rpcReply_iff]
    exact and_congr_right' (iff_true_intro closes_ok)
  | rules dataStr =>
    cases dataStr with
    | none =>
      show Correlates msgId (rpcReply msgId _) ↔ _
      rw [correlates_rpcReply_iff]
      exact and_congr_right' (iff_true_intro closes_noData)
    | some dataStr =>
      show Correlates msgId (rpcReply msgId (gnmiToNetconfXml dataStr)) ↔ _
      rw [correlates_rpcReply_iff, closes_gnmiToNetconfXml_iff]
      rfl
  | schemas schemaEntries =>
    show Correlates msgId (rpcReply msgId (buildMonitoringSchemas schemaEntries)) ↔ _
    rw [correlates_rpcReply_iff, closes_buildMonitoringSchemas_iff]
    rfl
  | schema yangText =>
    show Correlates msgId (buildSchemaResponse msgId yangText) ↔ _
    unfold buildSchemaResponse
    rw [correlates_rpcReply_iff, closes_schema_iff]
    rfl
  | raised errMsg => exact correlates_buildErrorReply_iff msgId errMsg
  | refused errTag errMsg => exact correlates_adapterError_iff msgId errTag errMsg

/-- The message id `a&b`, which a request writes `a&amp;b`, makes a reply that is no document. -/
theorem exists_not_correlates : ¬ ∀ msgId answer, Correlates msgId (reply msgId answer) := by
  intro h
  obtain ⟨attrs, hread, -⟩ := h "a&b" .ok
  have hnone : XmlText.read (reply "a&b" .ok).toList = none := by decide +kernel
  rw [hnone] at hread
  cases hread

end ControlPlane.Secure
