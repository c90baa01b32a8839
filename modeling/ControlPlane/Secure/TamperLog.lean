import ControlPlane.Lib.Json

/-!
# The audit log

The model of what `tamper_logger.py` makes of a call: `log` with its arguments is a `LogCall`, and
`LogCall.entry` is the entry that it appends. Left out are what is made up for an entry (its time,
its transaction id and its signature) and the flag by which reports are filtered. Where the source
keeps the hash of some data, an entry holds the data itself.
-/

namespace ControlPlane.Secure

open Text

/-- The severity of an entry. -/
inductive Severity where
  | info
  | warning
  | error
  | critical
  deriving DecidableEq

/-- A call of `log`. A dict that is not given is empty. -/
structure LogCall where
  /-- `event_type`. -/
  eventType : String
  /-- `action`. -/
  action : String
  /-- `details`. -/
  details : String
  /-- `client_info`. -/
  clientInfo : List (String × Json) := []
  /-- `severity`. -/
  severity : Severity := .info
  /-- `request_data`. -/
  requestData : Json := .null
  /-- `data_before`. -/
  dataBefore : Json := .null
  /-- `data_after`. -/
  dataAfter : Json := .null
  /-- `user_identity`. -/
  userIdentity : List (String × Json) := []

/-- The outcome that `log_data_modification` is told: `success`, and `error_msg` without it. -/
inductive Outcome where
  | success
  | failure (errorMsg : String)

/-- `enhanced_client_info`. -/
def Outcome.addTo (clientInfo : List (String × Json)) : Outcome → List (String × Json)
  | success => Json.setKey "success" (.bool true) clientInfo
  | failure errorMsg =>
    let info := Json.setKey "success" (.bool false) clientInfo
    if errorMsg = "" then info else Json.setKey "error" (.str errorMsg) info

/-- `log_data_modification`: the outcome goes into the client info and decides the severity. -/
def logDataModification (call : LogCall) (outcome : Outcome) : LogCall :=
  { call with
    clientInfo := outcome.addTo call.clientInfo
    severity := match outcome with
      | .success => .info
      | .failure _ => .error }

/-! ## The entry -/

/-- The `user_identity` of an entry. -/
structure UserIdentity where
  /-- The common name of the certificate. -/
  cn : Json
  /-- The organizational unit of the certificate. -/
  ou : Json
  /-- The address of the client. -/
  ip : Json
  /-- The port of the client. -/
  port : Json
  /-- The role of the user. -/
  role : Json
  /-- The id of the session. -/
  sessionId : Json

/-- What the given identity holds under one of the keys of an entry. -/
def givenIdentity (userIdentity : List (String × Json)) (key : String) : Json :=
  match Json.lookup key userIdentity with
  | some v => if v.truthy then v else .null
  | none => .null

/-- A value of the client info in the place of one that holds nothing. -/
def orInfo (clientInfo : List (String × Json)) (key : String) (x : Json) : Json :=
  if x.truthy then x else (Json.lookup key clientInfo).getD x

/-- The address and port of `client_addr`, in the place of an address that holds nothing. -/
def orAddr (py : Py) (clientInfo : List (String × Json)) (ip port : Json) : Json × Json :=
  if ip.truthy then (ip, port)
  else
    match Json.lookup "client_addr" clientInfo with
    | some (.arr (host :: rest)) => (.str (py.fmt host), rest.head?.getD port)
    | some (.str addr) => (.str ((split ':' addr).head?.getD ""), port)
    | _ => (ip, port)

/-- `_build_user_identity`. -/
def buildUserIdentity (py : Py) (userIdentity clientInfo : List (String × Json)) : UserIdentity :=
  let given := givenIdentity userIdentity
  let info := orInfo clientInfo
  let (ip, port) := orAddr py clientInfo (info "client_ip" (given "ip")) (given "port")
  { cn := info "cert_cn" (given "cn")
    ou := info "cert_ou" (given "ou")
    ip
    port
    role := info "sonic_role" (info "onap_role" (given "role"))
    sessionId := info "session_id" (given "session_id") }

/-- An entry of the audit log. -/
structure LogEntry where
  /-- `event_type`. -/
  eventType : String
  /-- `action`. -/
  action : String
  /-- `severity`. -/
  severity : Severity
  /-- `details`. -/
  details : String
  /-- `user_identity`. -/
  userIdentity : UserIdentity
  /-- The data of `request_hash`. -/
  requestData : Option Json
  /-- The data of `data_before_hash`. -/
  dataBefore : Option Json
  /-- The data of `data_after_hash`. -/
  dataAfter : Option Json
  /-- `client_info`. -/
  clientInfo : List (String × Json)

/-- The entry that a call appends. -/
def LogCall.entry (py : Py) (call : LogCall) : LogEntry where
  eventType := call.eventType
  action := call.action
  severity := call.severity
  details := call.details
  userIdentity := buildUserIdentity py call.userIdentity call.clientInfo
  requestData := (some call.requestData).filter Json.truthy
  dataBefore := (some call.dataBefore).filter Json.truthy
  dataAfter := (some call.dataAfter).filter Json.truthy
  clientInfo := call.clientInfo

/-! ## Who an entry names -/

/-- A role that neither dict holds under the keys of the logger is not in the entry. -/
theorem role_buildUserIdentity (py : Py) {userIdentity clientInfo : List (String × Json)}
    (hrole : Json.lookup "role" userIdentity = none)
    (honap : Json.lookup "onap_role" clientInfo = none)
    (hsonic : Json.lookup "sonic_role" clientInfo = none) :
    (buildUserIdentity py userIdentity clientInfo).role = .null := by
  simp [buildUserIdentity, orInfo, givenIdentity, hrole, honap, hsonic]

end ControlPlane.Secure
