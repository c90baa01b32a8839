import ControlPlane.Secure.Adapter

/-!
# The rules of the REST front-end

The model of the rule handlers in `sam/role_api.py`, and of the handler of the IDS agent that
forwards a rule to them. The body of a request is any JSON value; a field may hold a value of any
type, and a method that the type does not have raises, which ends the request without a reply.
-/

namespace ControlPlane.Secure

open Text Ip SfOp

/-- A reply of the REST front-end. -/
structure RestReply where
  /-- The status. -/
  status : ℕ
  /-- `success`. -/
  success : Bool
  /-- `error`, of a reply without success. -/
  message : String := ""
  /-- `pushed_to` or `deleted_from`. -/
  leaves : List String := []
  /-- `errors`. -/
  errors : List String := []

/-- `_send_error`. -/
def sendError (message : String) (status : ℕ) : RestReply :=
  { status, success := false, message }

/-- `body.get(k₁) or body.get(k₂) or ...`: the first that holds something. -/
def pick (fields : List (String × Json)) (keys : List String) : Option Json :=
  keys.findSome? fun k => (Json.lookup k fields).filter Json.truthy

/-- A method of texts, applied to a value or to a default for one that holds nothing. -/
def textMethod (name : String) (f : String → String) (v : Option Json) (default : String) :
    Except Exc String :=
  match v with
  | none => .ok (f default)
  | some (.str s) => .ok (f s)
  | some x => .error ⟨"AttributeError", "'" ++ x.typeName ++ "' object has no attribute '" ++ name
      ++ "'"⟩

/-- The value of a field, or the empty text. -/
def orEmpty (v : Option Json) : Json := v.getD (.str "")

/-- The address that `ip_network` makes of an integer. -/
def intAddress (n : ℤ) : Option Address :=
  if h : n.toNat < 2^Version.v4.width ∧ 0 ≤ n then some ⟨.v4, n.toNat, h.1⟩
  else if h : n.toNat < 2^Version.v6.width ∧ 0 ≤ n then some ⟨.v6, n.toNat, h.1⟩
  else none

/-- `ip_network(v, strict=False)`, for a value of any type. -/
def networkOf (py : Py) : Json → Option Network
  | .str s => ipNetwork false s
  | .int n => (intAddress n).map fun a => .ofAddress a a.version.width le_rfl
  | .bool b => (intAddress (if b then 1 else 0)).map fun a => .ofAddress a a.version.width le_rfl
  | v => ipNetwork false (py.fmt v)

/-- `ip_to_leaf(src_ip) if src_ip else None`. -/
def restLeaf (py : Py) (srcIp : Option Json) : Except Exc (Option String) :=
  match srcIp.bind (networkOf py) with
  | none => .ok none
  | some net => leafOf net ZONE_NETWORKS

/-- What a request asks to push: the items of `rule_data`, in the order in which they are built. -/
def restRuleData (py : Py) (ruleId : Json) (action : String) (fields : List (String × Json)) :
    Except Exc (List (String × Json)) := do
  let protocol ← textMethod "lower" py.lower (pick fields ["protocol"]) "all"
  let priority ← ((pick fields ["priority"]).getD (.int 1000)).intOf py.toPyText
  let source ← textMethod "lower" py.lower (pick fields ["source"]) "manual"
  let ttlSeconds ← ((pick fields ["ttl_seconds", "ttl-seconds"]).getD (.int 0)).intOf py.toPyText
  return [("rule-id", ruleId), ("action", .str action),
    ("src-ip", orEmpty (pick fields ["src_ip", "src-ip"])),
    ("dst-ip", orEmpty (pick fields ["dst_ip", "dst-ip"])), ("protocol", .str protocol),
    ("src-port", .str (py.fmt (orEmpty (pick fields ["src_port", "src-port"])))),
    ("dst-port", .str (py.fmt (orEmpty (pick fields ["dst_port", "dst-port"])))),
    ("priority", .int priority), ("source", .str source),
    ("comment", orEmpty (pick fields ["comment"])), ("ttl-seconds", .int ttlSeconds)]

/-- The client that a rule is pushed to. -/
def restClient (cfg : SfConfig) (srcIp : Option Json) : SfM (Option Client) := do
  let leaf ← Act.ofExcept (restLeaf cfg.py srcIp)
  let p ← Act.perform pool
  match leaf with
  | some leafIp => return p.getClientByKey .admin leafIp
  | none => return p.getAnyClient cfg.leafIps .admin

/-- The entry of `_handle_post_rule`. -/
def restPushedLog (client : Client) (ruleId : String) (payload : List (String × Json)) : LogCall :=
  logDataModification
    { eventType := "gnmi"
      action := "push_acl_rule"
      details := "REST API pushed rule " ++ ruleId ++ " → ['" ++ client.host ++ "']"
      clientInfo := [("rule_data", .obj payload), ("leaf", .arr [.str client.host]),
        ("endpoint", .str "/api/rules")]
      requestData := .obj payload
      dataAfter := .obj payload } .success

/-- The push of `_handle_post_rule`. -/
def restPush (client : Client) (ruleId : String) (payload : List (String × Json)) :
    SfM RestReply := do
  match ← Act.perform (gnmiUpdate client (rulePath ruleId) payload) with
  | .error e => return sendError (client.host ++ ": " ++ e.msg) 500
  | .ok _ =>
    Act.orRaise (Act.perform (tamperLog (restPushedLog client ruleId payload)))
    return { status := 201, success := true, leaves := [client.host] }

/-- `_handle_post_rule`. -/
def handlePostRule (cfg : SfConfig) (body : Json) : SfM RestReply := do
  if !body.truthy then return sendError "JSON body required: \x7brule_id, action, src_ip, ...\x7d" 400
  else
    match body with
    | .obj fields =>
      match pick fields ["rule_id", "rule-id"] with
      | none => return sendError "rule_id required" 400
      | some ruleId =>
        let action ← Act.ofExcept (textMethod "upper" cfg.py.upper (pick fields ["action"]) "DROP")
        if action ∉ VALID_ACTIONS then
          return sendError ("Invalid action '" ++ action ++ "'. Allowed: ACCEPT, DROP, RETURN") 400
        else
          let data ← Act.ofExcept (restRuleData cfg.py ruleId action fields)
          match ← restClient cfg (pick fields ["src_ip", "src-ip"]) with
          | none => return sendError "No gNMI connection available" 503
          | some client => restPush client (cfg.py.fmt ruleId) (clean data)
    | x => Act.raise ⟨"AttributeError", "'" ++ x.typeName ++ "' object has no attribute 'get'"⟩

/-- The loop of `_handle_delete_rule`: the errors, and the leaves that were deleted from. -/
def restDeleteOn (path : String) : List String → SfM (List String × List String)
  | [] => return ([], [])
  | leafIp :: rest => do
    let p ← Act.perform pool
    match p.getClientByKey .admin leafIp with
    | none => restDeleteOn path rest
    | some client =>
      let answer ← Act.perform (gnmiDelete client path)
      let (errors, deleted) ← restDeleteOn path rest
      match answer with
      | .ok _ => return (errors, leafIp :: deleted)
      | .error e => return ((leafIp ++ ": " ++ e.msg) :: errors, deleted)

/-- The entry of `_handle_delete_rule`. -/
def restDeletedLog (cfg : SfConfig) (ruleId : String) (deleted : List String) : LogCall :=
  logDataModification
    { eventType := "gnmi"
      action := "delete_acl_rule"
      details := "REST API deleted rule " ++ ruleId ++ " from ["
        ++ ", ".intercalate (deleted.map cfg.py.repr) ++ "]"
      clientInfo := [("rule_id", .str ruleId), ("leaves", .arr (deleted.map Json.str)),
        ("endpoint", .str "/api/rules")] } .success

/-- `_handle_delete_rule`. -/
def handleDeleteRule (cfg : SfConfig) (ruleId : String) : SfM RestReply := do
  let (errors, deleted) ← restDeleteOn (rulePath ruleId) cfg.leafIps
  if deleted = [] ∧ errors ≠ [] then return sendError ("; ".intercalate errors) 500
  else
    Act.orRaise (Act.perform (tamperLog (restDeletedLog cfg ruleId deleted)))
    return { status := 200, success := true, leaves := deleted, errors := errors }

/-- The body that `rulesPostHandler` of the IDS agent forwards: an object whose source is forced.
`transcode` is what decoding and encoding makes of a value, which changes large numbers. -/
def forwardedBody (transcode : Json → Json) : Json → Option Json
  | .obj fields => some (.obj (Json.setKey "source" (.str "agent")
      (fields.map fun f => (f.1, transcode f.2))))
  | _ => none

end ControlPlane.Secure
