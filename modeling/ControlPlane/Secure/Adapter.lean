import ControlPlane.Secure.Calls

/-!
# The NETCONF to gNMI adapter

The model of `netconf_gnmi_adapter.py`. An adapter is made for one session with the gNMI client that
the server chose for it (`session`). It reads the rules out of an `edit-config` document, in the
native form or in the OpenConfig form, and pushes or deletes them one after the other; the first
rule that fails ends the document (`eachRule`).
-/

namespace ControlPlane.Secure

open Text SfOp

/-- `NS_NOS`. -/
def NS_NOS : String := "urn:3snos:iptables"

/-- `NS_OC_ACL`. -/
def NS_OC_ACL : String := "http://openconfig.net/yang/acl"

/-- The attribute that carries the operation of an element. -/
def OPERATION : String := "\x7burn:ietf:params:xml:ns:netconf:base:1.0\x7doperation"

/-- `VALID_ACTIONS`. -/
def VALID_ACTIONS : List String := ["ACCEPT", "DROP", "RETURN"]

/-- `VALID_PROTOCOLS`. -/
def VALID_PROTOCOLS : List String := ["tcp", "udp", "icmp", "all"]

/-- `VALID_SOURCES`. -/
def VALID_SOURCES : List String := ["manual", "sdnc", "agent"]

/-- The path of a rule. -/
def rulePath (ruleId : String) : String := "/nos-iptables:acl/rule[rule-id=" ++ ruleId ++ "]"

/-- `rule_data`. -/
structure RuleData where
  /-- `rule-id`. -/
  ruleId : String
  /-- `action`. -/
  action : String
  /-- `src-ip`. -/
  srcIp : String
  /-- `dst-ip`. -/
  dstIp : String
  /-- `protocol`. -/
  protocol : String
  /-- `src-port`. -/
  srcPort : String
  /-- `dst-port`. -/
  dstPort : String
  /-- `priority`. -/
  priority : ℤ
  /-- `source`. -/
  source : String
  /-- `comment`. -/
  comment : String
  /-- `ttl-seconds`. -/
  ttlSeconds : ℤ

/-- The items of the dict. -/
def RuleData.items (d : RuleData) : List (String × Json) :=
  [("rule-id", .str d.ruleId), ("action", .str d.action), ("src-ip", .str d.srcIp),
    ("dst-ip", .str d.dstIp), ("protocol", .str d.protocol), ("src-port", .str d.srcPort),
    ("dst-port", .str d.dstPort), ("priority", .int d.priority), ("source", .str d.source),
    ("comment", .str d.comment), ("ttl-seconds", .int d.ttlSeconds)]

/-- `v in (None, "")`. -/
def isBlank : Json → Bool
  | .null => true
  | .str s => s == ""
  | _ => false

/-- `clean`: the items that hold something. -/
def clean (items : List (String × Json)) : List (String × Json) :=
  items.filter fun x => !isBlank x.2

/-- `_error` for the type `application`. -/
def appError (msgId errTag errMsg : String) : Reply := .error msgId "application" errTag errMsg

/-- `_text(elem, name) or ""`: the trimmed text of the first descendant of that name. -/
def textOf (elem : Xml) (name : String) : String :=
  match elem.select name with
  | [] => ""
  | child :: _ => strip (child.text.getD "")

/-- `_text(elem, name) or default`. -/
def textOr (elem : Xml) (name default : String) : String :=
  if textOf elem name = "" then default else textOf elem name

/-- `int(_text(elem, name) or default)`. -/
def intOr (py : Py) (elem : Xml) (name : String) (default : ℤ) : Except Exc ℤ :=
  if textOf elem name = "" then .ok default else (Json.str (textOf elem name)).intOf py.toPyText

/-! ## Pushing and deleting -/

/-- `_get_routed_client`. -/
def getRoutedClient (role : SonicRole) (srcIp : String) : SfM (Option Client) := do
  let p ← Act.perform pool
  Act.ofExcept (p.getClientForZone role (if srcIp = "" then "0.0.0.0/0" else srcIp))

/-- The dict that `_identity` makes of a session. -/
def identityOf : Option SessionContext → List (String × Json)
  | none => []
  | some ctx => [("cn", (ctx.clientCn.map Json.str).getD .null), ("ip", .str ctx.clientAddr.1),
      ("onap_role", .str ctx.onapRole.value), ("sonic_role", .str ctx.sonicRole.value)]

/-- `_identity`. -/
def identity : SfM (List (String × Json)) := return identityOf (← Act.perform localSession)

/-- The entry of `_push_rule` for an update that succeeded. -/
def pushedLog (ruleId : String) (client : Client) (clean userIdentity : List (String × Json)) :
    LogCall :=
  logDataModification
    { eventType := "gnmi"
      action := "push_acl_rule"
      details := "Pushed rule " ++ ruleId ++ " → bridge@" ++ client.host
      userIdentity
      requestData := .obj clean
      dataAfter := .obj clean } .success

/-- The entry of `_push_rule` for a failure. -/
def failedLog (ruleId : String) (clean userIdentity : List (String × Json)) (e : Exc) : LogCall :=
  logDataModification
    { eventType := "gnmi"
      action := "push_acl_rule"
      details := "Failed rule " ++ ruleId ++ ": " ++ e.msg
      userIdentity
      requestData := .obj clean } (.failure e.msg)

/-- The `except` clause of `_push_rule`. -/
def pushFailed (ruleId messageId : String) (clean : List (String × Json)) (e : Exc) :
    SfM (Option Reply) := do
  Act.orRaise (Act.perform (tamperLog (failedLog ruleId clean (← identity) e)))
  return some (appError messageId "operation-failed" e.msg)

/-- `_push_rule`. A failure of the audit log after the update counts as one of the update. -/
def pushRule (session : Option Client) (ruleId : String) (data : RuleData)
    (srcIp messageId : String) : SfM (Option Reply) := do
  let noClient := some (appError messageId "operation-failed" "No gNMI connection available")
  let routed ← getRoutedClient .admin srcIp
  match routed.or session with
  | none => return noClient
  | some client =>
    if ← Act.perform (connected client) then
      let body : SfM Unit := do
        Act.orRaise (Act.perform (gnmiUpdate client (rulePath ruleId) (clean data.items)))
        Act.orRaise (Act.perform (tamperLog
          (pushedLog ruleId client (clean data.items) (← identity))))
      match ← Act.attempt body with
      | .ok _ => return none
      | .error e => pushFailed ruleId messageId (clean data.items) e
    else return noClient

/-- The data of a rule that the AGENT role pushes: its source is stamped. -/
def stamp (ruleId : String) (data : RuleData) : RuleData :=
  { data with
    source := "agent"
    comment := if data.comment = "" then "agent:" ++ ruleId else data.comment }

/-- The error of the schema check, when there is one. -/
def schemaError (py : Py) (data : RuleData) : Option String :=
  if data.action ∉ VALID_ACTIONS then
    some ("Invalid action '" ++ data.action ++ "'. Allowed: " ++ py.set VALID_ACTIONS)
  else if data.protocol ∉ VALID_PROTOCOLS then
    some ("Invalid protocol '" ++ data.protocol ++ "'. Allowed: " ++ py.set VALID_PROTOCOLS)
  else if data.source ∉ VALID_SOURCES then
    some ("Invalid source '" ++ data.source ++ "'. Allowed: " ++ py.set VALID_SOURCES)
  else none

/-- The entry of `_validate_and_push`. -/
def blockedLog (msg : String) : LogCall where
  eventType := "security"
  action := "agent_action_blocked"
  details := msg
  severity := .warning

/-- `_validate_and_push`. -/
def validateAndPush (cfg : SfConfig) (session : Option Client) (ruleId : String) (data : RuleData)
    (messageId : String) : SfM (Option Reply) := do
  match schemaError cfg.py data with
  | some msg => return some (appError messageId "invalid-value" msg)
  | none =>
    let ctx ← Act.perform localSession
    if ctx.map SessionContext.onapRole = some .agent then
      if data.action ≠ "DROP" then
        let msg := "AGENT role may only push DROP rules (got " ++ data.action ++ ")"
        Act.orRaise (Act.perform (tamperLog (blockedLog msg)))
        return some (appError messageId "access-denied" msg)
      else pushRule session ruleId (stamp ruleId data) data.srcIp messageId
    else pushRule session ruleId data data.srcIp messageId

/-- The first loop of `_delete_rule`: the live clients of the leaves. -/
def liveClients : List String → SfM (List Client)
  | [] => return []
  | leafIp :: rest => do
    let p ← Act.perform pool
    let more ← liveClients rest
    return (p.getClientByKey .admin leafIp).toList ++ more

/-- The clients of `_delete_rule`: that of the session stands in when no leaf has one. -/
def deleteClients (cfg : SfConfig) (session : Option Client) : SfM (List Client) := do
  let live ← liveClients cfg.leafIps
  match live, session with
  | [], some client => if ← Act.perform (connected client) then return [client] else return []
  | live, _ => return live

/-- The second loop of `_delete_rule`: the errors of the clients. -/
def deleteOn (path : String) : List Client → SfM (List String)
  | [] => return []
  | client :: rest => do
    let answer ← Act.perform (gnmiDelete client path)
    let errors ← deleteOn path rest
    match answer with
    | .ok _ => return errors
    | .error e => return (client.host ++ ": " ++ e.msg) :: errors

/-- `_delete_rule`. -/
def deleteRule (cfg : SfConfig) (session : Option Client) (ruleId messageId : String) :
    SfM (Option Reply) := do
  let clients ← deleteClients cfg session
  if clients = [] then
    return some (appError messageId "operation-failed" "No gNMI connection available for delete")
  else
    let errors ← deleteOn (rulePath ruleId) clients
    if errors = [] then return none
    else return some (appError messageId "operation-failed" ("; ".intercalate errors))

/-! ## The native form -/

/-- The operation of an element. -/
def operationOf (elem : Xml) : String := elem.attr OPERATION "merge"

/-- The data of a native rule. -/
def nosRuleData (py : Py) (rule : Xml) : Except Exc RuleData := do
  let priority ← intOr py rule "priority" 1000
  let ttlSeconds ← intOr py rule "ttl-seconds" 0
  return {
    ruleId := textOf rule "rule-id"
    action := py.upper (textOr rule "action" "DROP")
    srcIp := textOf rule "src-ip"
    dstIp := textOf rule "dst-ip"
    protocol := py.lower (textOr rule "protocol" "all")
    srcPort := textOf rule "src-port"
    dstPort := textOf rule "dst-port"
    priority := priority
    source := py.lower (textOr rule "source" "sdnc")
    comment := textOf rule "comment"
    ttlSeconds := ttlSeconds }

/-- One round of the loop of `_handle_nos_acl`: an error, or `none` to go on. -/
def nosRule (cfg : SfConfig) (session : Option Client) (messageId : String) (rule : Xml) :
    SfM (Option Reply) := do
  let ruleId := textOf rule "rule-id"
  if ruleId = "" then return some (appError messageId "invalid-value" "Missing rule-id")
  else if operationOf rule ∈ ["delete", "remove"] then deleteRule cfg session ruleId messageId
  else
    let data ← Act.ofExcept (nosRuleData cfg.py rule)
    validateAndPush cfg session ruleId data messageId

/-- The loop over the rules of a document: the first error ends it. -/
def eachRule (step : Xml → SfM (Option Reply)) (messageId : String) : List Xml → SfM Reply
  | [] => return .ok messageId
  | rule :: rest => do
    match ← step rule with
    | some err => return err
    | none => eachRule step messageId rest

/-- `_handle_nos_acl`. -/
def handleNosAcl (cfg : SfConfig) (session : Option Client) (aclRoot : Xml) (messageId : String) :
    SfM Reply :=
  eachRule (nosRule cfg session messageId) messageId (aclRoot.select "rule")

/-! ## The OpenConfig form -/

/-- `proto_map`. -/
def PROTO_MAP : List (String × String) :=
  [("IP_TCP", "tcp"), ("IP_UDP", "udp"), ("IP_ICMP", "icmp"), ("TCP", "tcp"), ("UDP", "udp"),
    ("ICMP", "icmp"), ("6", "tcp"), ("17", "udp"), ("1", "icmp")]

/-- `text.split(":")[-1]`. -/
def lastPart (s : String) : String := (split ':' s).getLast?.getD ""

/-- The name of an ACL set, as an f-string prints it. An empty element has the text `None`. -/
def tableName (aclSet : Xml) : String :=
  match aclSet.select "name" with
  | [] => "unnamed"
  | name :: _ => name.text.getD "None"

/-- The sequence number of an entry. -/
def sequenceId (entry : Xml) : String := textOr entry "sequence-id" "1000"

/-- The priority of an entry: its sequence number, when that is one. -/
def entryPriority (py : Py) (seqId : String) : Except Exc ℤ :=
  if py.isdigit seqId then (Json.str seqId).intOf py.toPyText else .ok 1000

/-- The data of an OpenConfig entry. An action that the bridge does not know becomes a drop. -/
def entryData (py : Py) (table : String) (entry : Xml) : Except Exc RuleData := do
  let seqId := sequenceId entry
  let actionRaw := py.upper (lastPart (textOr entry "forwarding-action" "DROP"))
  let protoRaw := py.upper (textOr entry "protocol" "all")
  let priority ← entryPriority py seqId
  return {
    ruleId := table ++ "-" ++ seqId
    action := if actionRaw ∈ VALID_ACTIONS then actionRaw else "DROP"
    srcIp := textOf entry "source-address"
    dstIp := textOf entry "destination-address"
    protocol := (PROTO_MAP.lookup protoRaw).getD "all"
    srcPort := textOf entry "source-port"
    dstPort := textOf entry "destination-port"
    priority := priority
    source := "sdnc"
    comment := "oc-acl:" ++ table
    ttlSeconds := 0 }

/-- One round of the loop of `_handle_openconfig_acl`. -/
def entryRule (cfg : SfConfig) (session : Option Client) (table messageId : String) (entry : Xml) :
    SfM (Option Reply) := do
  let data ← Act.ofExcept (entryData cfg.py table entry)
  validateAndPush cfg session (table ++ "-" ++ sequenceId entry) data messageId

/-- `_handle_openconfig_acl`, for the first set of the document. -/
def handleOpenconfigAcl (cfg : SfConfig) (session : Option Client) (config : Xml)
    (messageId : String) : SfM Reply := do
  match config.select "acl-sets" with
  | [] => return .ok messageId
  | aclSets :: _ =>
    match aclSets.select "acl-set" with
    | [] => return .ok messageId
    | aclSet :: _ =>
      let table := tableName aclSet
      if operationOf aclSet = "delete" then
        return (← deleteRule cfg session table messageId).getD (.ok messageId)
      else eachRule (entryRule cfg session table messageId) messageId (aclSet.select "acl-entry")

/-! ## The document -/

/-- The `message-id` of an RPC. -/
def messageIdOf (rpc : Xml) : String := rpc.attr "message-id" "1"

/-- The body of `handle_edit_config`. -/
def editConfigBody (cfg : SfConfig) (session : Option Client) (rpc : Xml) : SfM Reply :=
  match rpc.select "config" with
  | [] => return .ok (messageIdOf rpc)
  | config :: _ =>
    match config.selectNs NS_NOS "acl" with
    | aclRoot :: _ => handleNosAcl cfg session aclRoot (messageIdOf rpc)
    | [] => handleOpenconfigAcl cfg session config (messageIdOf rpc)

/-- `handle_edit_config`. An exception becomes an error reply. -/
def handleEditConfig (cfg : SfConfig) (session : Option Client) (rpc : Xml) : SfM Reply := do
  match ← Act.attempt (editConfigBody cfg session rpc) with
  | .ok reply => return reply
  | .error e => return appError (messageIdOf rpc) "operation-failed" e.msg

end ControlPlane.Secure
