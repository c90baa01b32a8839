import ControlPlane.Lib.JsonRead

/-!
# The tamper logger

`TamperLogger` of `tamper_logger.py` on values of any type: what `log` makes of its arguments, how
an entry is signed, written to the file, printed and verified, and how the file is read. The time of
a call and its new transaction id are arguments, and what an object of another type does when it is
asked for its truth, its items or its text is a parameter (`Runtime`). Subscribers see an entry
after the file does and are left out.
-/

namespace ControlPlane.Secure

open JsonText

variable {Obj : Type}

/-! ## The interpreter -/

/-- What the logger uses of the interpreter. An exception is its text. -/
structure Runtime (Obj : Type) extends Interp Obj where
  /-- `bool(o)`. -/
  truthyOf : Obj → Except PyStr Bool
  /-- `key in o`. -/
  containsOf : Obj → PyStr → Except PyStr Bool
  /-- `o[key]`. -/
  itemOf : Obj → PyStr → Except PyStr (PyVal Obj)
  /-- `o == s`. -/
  equalsOf : Obj → PyStr → Except PyStr Bool
  /-- `o.lower()`, as a text. -/
  lowerOf : Obj → Except PyStr PyStr
  /-- `hash(o)`. -/
  hashOf : Obj → Except PyStr Unit
  /-- `o[:n]`. -/
  sliceOf : Obj → Except PyStr Unit
  /-- `o.upper()`. -/
  upperOf : Obj → Except PyStr Unit
  /-- The text of some bytes, with what does not decode replaced. -/
  decodeOf : Obj → Option PyStr
  /-- `s.lower()`. -/
  lower : PyStr → PyStr
  /-- `repr(v)` of a list, a tuple or a dict. -/
  repr : PyVal Obj → Except PyStr PyStr
  /-- `print` of the line for an entry. -/
  emit : PyVal Obj → Except PyStr Unit
  /-- `hashlib.sha256(s.encode('utf-8')).hexdigest()`. -/
  sha256 : PyStr → PyStr
  /-- The text of the `UnicodeEncodeError` for a text with a surrogate. -/
  encodeError : PyStr → PyStr
  /-- `hmac.new(key, s.encode('utf-8'), hashlib.sha256).hexdigest()`. -/
  hmac : PyStr → PyStr

/-- A float that is not zero, a digit of it at least. -/
def JsonFloat.truthy : JsonFloat → Bool
  | .fin t => !(t.whole ++ t.frac).all (· = 0)
  | _ => true

namespace Runtime

variable (R : Runtime Obj)

/-- `bool(v)`. -/
def truthy : PyVal Obj → Except PyStr Bool
  | .none => .ok false
  | .bool b => .ok b
  | .int n => .ok (n != 0)
  | .float x => .ok (JsonFloat.truthy x)
  | .str s => .ok (!s.isEmpty)
  | .seq _ xs => .ok (!xs.isEmpty)
  | .dict items => .ok (!items.isEmpty)
  | .other o => R.truthyOf o

/-- `v == s`. -/
def equals (s : PyStr) : PyVal Obj → Except PyStr Bool
  | .str t => .ok (t = s)
  | .other o => R.equalsOf o s
  | _ => .ok false

/-- `any(v == s for v in xs)`. -/
def anyEquals (s : PyStr) : List (PyVal Obj) → Except PyStr Bool
  | [] => .ok false
  | v :: rest => do if ← R.equals s v then return true else anyEquals s rest

/-- `key in v`. -/
def contains (key : PyStr) : PyVal Obj → Except PyStr Bool
  | .dict items => .ok (items.any fun i => keyStr i.1 = some key)
  | .str s => .ok (key <:+: s)
  | .seq _ xs => R.anyEquals key xs
  | .other o => R.containsOf o key
  | _ => .error (u "TypeError")

/-- `v[key]`. -/
def item (key : PyStr) : PyVal Obj → Except PyStr (PyVal Obj)
  | .dict items =>
    match getItem key items with
    | some v => .ok v
    | none => .error (u "KeyError")
  | .other o => R.itemOf o key
  | _ => .error (u "TypeError")

/-- `str(v)`. -/
def strOf : PyVal Obj → Except PyStr PyStr
  | .none => .ok (u "None")
  | .bool b => .ok (if b then u "True" else u "False")
  | .int n => R.int n
  | .float .nan => .ok (u "nan")
  | .float (.inf neg) => .ok (if neg then u "-inf" else u "inf")
  | .float (.fin t) => .ok t.text
  | .str s => .ok s
  | .other o => R.str o
  | v => R.repr v

/-- `v.lower()`. -/
def lowered : PyVal Obj → Except PyStr PyStr
  | .str s => .ok (R.lower s)
  | .other o => R.lowerOf o
  | _ => .error (u "AttributeError")

mutual

/-- `hash(v)`. -/
def hash : PyVal Obj → Except PyStr Unit
  | .seq true xs => hashAll xs
  | .seq false _ => .error (u "TypeError")
  | .dict _ => .error (u "TypeError")
  | .other o => R.hashOf o
  | .none => .ok ()
  | .bool _ => .ok ()
  | .int _ => .ok ()
  | .float _ => .ok ()
  | .str _ => .ok ()

/-- The hashes of the items of a tuple. -/
def hashAll : List (PyVal Obj) → Except PyStr Unit
  | [] => .ok ()
  | v :: rest => do
    hash v
    hashAll rest

end

/-- `v[:n]`. -/
def sliced : PyVal Obj → Except PyStr Unit
  | .str _ => .ok ()
  | .seq _ _ => .ok ()
  | .other o => R.sliceOf o
  | _ => .error (u "TypeError")

end Runtime

/-! ## What a call logs -/

/-- The arguments of `log`, with their defaults. -/
structure LogArgs (Obj : Type) where
  /-- `event_type`. -/
  eventType : PyVal Obj
  /-- `action`. -/
  action : PyVal Obj
  /-- `details`. -/
  details : PyVal Obj
  /-- `client_info`. -/
  clientInfo : PyVal Obj := .none
  /-- `severity`. -/
  severity : PyVal Obj := .str (u "info")
  /-- `is_tampering`. -/
  isTampering : PyVal Obj := .none
  /-- `transaction_id`. -/
  transactionId : PyVal Obj := .none
  /-- `request_data`. -/
  requestData : PyVal Obj := .none
  /-- `data_before`. -/
  dataBefore : PyVal Obj := .none
  /-- `data_after`. -/
  dataAfter : PyVal Obj := .none
  /-- `user_identity`. -/
  userIdentity : PyVal Obj := .none

/-- What a call finds: the time, and a new id. -/
structure Stamp where
  /-- `datetime.now(timezone.utc).isoformat()`. -/
  timestamp : PyStr
  /-- `str(uuid.uuid4())`. -/
  uuid : PyStr
  timestamp_ascii : ∀ c ∈ timestamp, c.val < 128
  uuid_ascii : ∀ c ∈ uuid, c.val < 128

/-- The id of a call. -/
def LogArgs.idOr (args : LogArgs Obj) (stamp : Stamp) : PyVal Obj :=
  match args.transactionId with
  | .none => .str stamp.uuid
  | v => v

/-- `modification_keywords + auth_keywords`. -/
def ERROR_KEYWORDS : List PyStr :=
  ["create", "delete", "update", "set", "modify", "acl", "rule", "table", "unauthorized", "denied",
    "permission", "access denied", "forbidden"].map u

/-- `modification_actions`. -/
def MODIFICATION_ACTIONS : List PyStr :=
  ["create", "delete", "update", "set", "modify", "edit", "create_acl", "delete_acl", "acl_create",
    "acl_delete", "create_acl_rule", "delete_acl_table", "edit_config"].map u

/-- `auth_failure_keywords`. -/
def AUTH_FAILURE_KEYWORDS : List PyStr :=
  ["unauthorized", "denied", "forbidden", "permission", "not allowed"].map u

/-- The keys of an identity, in their order. -/
def IDENTITY_KEYS : List PyStr := ["cn", "ou", "ip", "port", "role", "session_id"].map u

/-- `identity`. -/
structure Identity (Obj : Type) where
  /-- The common name of the certificate. -/
  cn : PyVal Obj
  /-- The organizational unit of the certificate. -/
  ou : PyVal Obj
  /-- The address of the client. -/
  ip : PyVal Obj
  /-- The port of the client. -/
  port : PyVal Obj
  /-- The role of the user. -/
  role : PyVal Obj
  /-- The id of the session. -/
  sessionId : PyVal Obj

/-- An item of a dict of the logger. -/
def field (name : String) (v : PyVal Obj) : PyKey Obj × PyVal Obj := (.str (u name), v)

/-- The identity as a dict. -/
def Identity.toVal (i : Identity Obj) : PyVal Obj :=
  .dict [field "cn" i.cn, field "ou" i.ou, field "ip" i.ip, field "port" i.port, field "role" i.role,
    field "session_id" i.sessionId]

namespace Runtime

variable (R : Runtime Obj)

/-- `_is_tampering_relevant`. The actions that it lists as read-only or as events of the system
leave the answer as it is. -/
def isTamperingRelevant (action details severity : PyVal Obj) : Except PyStr Bool := do
  let actionLower ← R.lowered action
  let detailsLower ← R.lowered details
  let errors := ERROR_KEYWORDS.any fun kw => kw <:+: actionLower || kw <:+: detailsLower
  let severe ← if ← R.equals (u "error") severity then pure true
    else R.equals (u "critical") severity
  if severe && errors then return true
  if MODIFICATION_ACTIONS.any fun kw => kw <:+: actionLower then return true
  return AUTH_FAILURE_KEYWORDS.any fun kw => kw <:+: actionLower || kw <:+: detailsLower

/-- What `user_identity` gives an identity under a key. -/
def given (userIdentity : PyVal Obj) (key : PyStr) : Except PyStr (PyVal Obj) := do
  if ← R.truthy userIdentity then
    if ← R.contains key userIdentity then
      let v ← R.item key userIdentity
      if ← R.truthy v then return v
  return .none

/-- The value of a key of the client info, in the place of one that holds nothing. -/
def orInfo (clientInfo : PyVal Obj) (key : PyStr) (v : PyVal Obj) : Except PyStr (PyVal Obj) := do
  if ← R.truthy v then return v
  if ← R.contains key clientInfo then R.item key clientInfo else return v

/-- The address and the port of `client_addr`, in the place of an address that holds nothing. -/
def orAddr (clientInfo ip port : PyVal Obj) : Except PyStr (PyVal Obj × PyVal Obj) := do
  if ← R.truthy ip then return (ip, port)
  if ← R.contains (u "client_addr") clientInfo then
    match ← R.item (u "client_addr") clientInfo with
    | .seq _ (host :: rest) => return (.str (← R.strOf host), rest.head?.getD port)
    | .str addr => return (.str (addr.takeWhile (· ≠ 58)), port)
    | _ => return (ip, port)
  else return (ip, port)

/-- What the client info adds to an identity. -/
def addInfo (clientInfo : PyVal Obj) (i : Identity Obj) : Except PyStr (Identity Obj) := do
  if ← R.truthy clientInfo then
    let ip ← R.orInfo clientInfo (u "client_ip") i.ip
    let (ip, port) ← R.orAddr clientInfo ip i.port
    let cn ← R.orInfo clientInfo (u "cert_cn") i.cn
    let ou ← R.orInfo clientInfo (u "cert_ou") i.ou
    let role ← R.orInfo clientInfo (u "onap_role") i.role
    let role ← R.orInfo clientInfo (u "sonic_role") role
    let sessionId ← R.orInfo clientInfo (u "session_id") i.sessionId
    return { cn, ou, ip, port, role, sessionId }
  else return i

/-- `_build_user_identity`. -/
def buildIdentity (userIdentity clientInfo : PyVal Obj) : Except PyStr (Identity Obj) := do
  let cn ← R.given userIdentity (u "cn")
  let ou ← R.given userIdentity (u "ou")
  let ip ← R.given userIdentity (u "ip")
  let port ← R.given userIdentity (u "port")
  let role ← R.given userIdentity (u "role")
  let sessionId ← R.given userIdentity (u "session_id")
  R.addInfo clientInfo { cn, ou, ip, port, role, sessionId }

/-- The text that `_compute_hash` hashes. -/
def hashed : PyVal Obj → Except PyStr PyStr
  | .str s => .ok s
  | .other o =>
    match R.decodeOf o with
    | some s => .ok s
    | none => R.dumps R.sorted (.other o)
  | v => R.dumps R.sorted v

/-- `_compute_hash`, of data that is not `None`. -/
def computeHash (data : PyVal Obj) : PyStr :=
  match R.hashed data with
  | .error e => u "hash_error:" ++ e
  | .ok s =>
    if s.any fun c => isHigh c || isLow c then u "hash_error:" ++ R.encodeError s else R.sha256 s

/-- `self._compute_hash(data) if data else None`. -/
def hashField (data : PyVal Obj) : Except PyStr (PyVal Obj) := do
  if ← R.truthy data then return .str (R.computeHash data) else return .none

/-- `_sign_log_entry`. -/
def sign (entry : List (PyKey Obj × PyVal Obj)) : PyStr :=
  match R.dumps R.sorted
      (.dict (entry.filter fun i => keyStr i.1 ≠ some (u "integrity_signature"))) with
  | .ok canonical => R.hmac canonical
  | .error e => u "signature_error:" ++ e

/-- The flag of a call, found out when it is not given. -/
def tamperingOr (args : LogArgs Obj) : Except PyStr (PyVal Obj) :=
  match args.isTampering with
  | .none => do
    let b ← R.isTamperingRelevant args.action args.details args.severity
    return .bool b
  | v => .ok v

/-- `client_info or {}`. -/
def infoOr (clientInfo : PyVal Obj) : Except PyStr (PyVal Obj) := do
  if ← R.truthy clientInfo then return clientInfo else return .dict []

/-- The fields of an entry, without its signature. -/
def fields (stamp : Stamp) (args : LogArgs Obj) :
    Except PyStr (List (PyKey Obj × PyVal Obj)) := do
  let isTampering ← R.tamperingOr args
  let identity ← R.buildIdentity args.userIdentity args.clientInfo
  let requestHash ← R.hashField args.requestData
  let dataBeforeHash ← R.hashField args.dataBefore
  let dataAfterHash ← R.hashField args.dataAfter
  let clientInfo ← R.infoOr args.clientInfo
  return [field "timestamp" (.str stamp.timestamp), field "event_type" args.eventType,
    field "action" args.action, field "severity" args.severity, field "details" args.details,
    field "is_tampering" isTampering, field "transaction_id" (args.idOr stamp),
    field "user_identity" identity.toVal, field "request_hash" requestHash,
    field "data_before_hash" dataBeforeHash, field "data_after_hash" dataAfterHash,
    field "client_info" clientInfo]

/-- `log_entry`. -/
def entry (stamp : Stamp) (args : LogArgs Obj) : Except PyStr (List (PyKey Obj × PyVal Obj)) := do
  let fields ← R.fields stamp args
  return fields ++ [field "integrity_signature" (.str (R.sign fields))]

end Runtime

/-! ## The logger -/

/-- The logger: its entries in memory, and the file. -/
structure TamperLogger (Obj : Type) where
  /-- `logs`, a deque. -/
  logs : List (PyVal Obj)
  /-- `max_logs`. -/
  maxLogs : ℕ
  /-- The contents of `log_file`. -/
  file : PyStr

namespace Runtime

variable (R : Runtime Obj)

/-- `_print_log`: the steps of it that may raise. -/
def printLog (entry : List (PyKey Obj × PyVal Obj)) : Except PyStr Unit := do
  let get := fun name => (getItem (u name) entry).getD .none
  R.hash (get "severity")
  for key in [u "cn", u "ip", u "role"] do
    let v ← R.item key (get "user_identity")
    if ← R.truthy v then
      let _ ← R.strOf v
  if ← R.truthy (get "transaction_id") then R.sliced (get "transaction_id")
  let _ ← R.truthy (get "is_tampering")
  match get "event_type" with
  | .str _ => pure ()
  | .other o => R.upperOf o
  | _ => .error (u "AttributeError")
  let _ ← R.strOf (get "action")
  let _ ← R.strOf (get "details")
  R.emit (.dict entry)

/-- `_write_to_file`, where writing itself succeeds. -/
def writeToFile (entry : List (PyKey Obj × PyVal Obj)) (file : PyStr) : PyStr :=
  match R.dumps R.plain (.dict entry) with
  | .ok line => file ++ line ++ [10]
  | .error _ => file

/-- The logger with an entry more. -/
def append (entry : List (PyKey Obj × PyVal Obj)) (s : TamperLogger Obj) : TamperLogger Obj :=
  { s with
    logs := (s.logs ++ [PyVal.dict entry]).drop (s.logs.length + 1 - s.maxLogs)
    file := R.writeToFile entry s.file }

/-- `log`: the logger behind the call, and the id that it returns. -/
def log (stamp : Stamp) (args : LogArgs Obj) (s : TamperLogger Obj) :
    TamperLogger Obj × Except PyStr (PyVal Obj) :=
  match R.entry stamp args with
  | .error e => (s, .error e)
  | .ok entry => (R.append entry s, (R.printLog entry).map fun _ => args.idOr stamp)

end Runtime

/-! ## Verifying -/

/-- `hmac.compare_digest`, of a stored value and a text. -/
def compareDigest (stored : PyVal Obj) (computed : PyStr) : Except PyStr Bool :=
  match stored with
  | .str s =>
    if (s ++ computed).all (·.val < 128) then .ok (s = computed) else .error (u "TypeError")
  | _ => .error (u "TypeError")

namespace Runtime

variable (R : Runtime Obj)

/-- `verify_log_integrity`. -/
def verifyLogIntegrity (entry : List (PyKey Obj × PyVal Obj)) : Except PyStr Bool :=
  match getItem (u "integrity_signature") entry with
  | none => .ok false
  | some stored => compareDigest stored (R.sign entry)

end Runtime

/-! ## Reading the file -/

/-- A text that is read line by line: the lines so far, whether the last one ended with a carriage
return, and the line that has not ended. -/
structure LineState where
  done : List PyStr
  cr : Bool
  line : PyStr

/-- One more character: a line ends with a carriage return, a line feed, or both. -/
def LineState.step (s : LineState) (c : CodePoint) : LineState :=
  if c = 10 then
    if s.cr then { s with cr := false } else ⟨s.done ++ [s.line], false, []⟩
  else if c = 13 then ⟨s.done ++ [s.line], true, []⟩
  else ⟨s.done, false, s.line ++ [c]⟩

/-- The state behind a text. -/
def lineState (s : PyStr) : LineState := s.foldl LineState.step ⟨[], false, []⟩

/-- The lines of a text, the last one without its end when there is none. -/
def fileLines (s : PyStr) : List PyStr :=
  (lineState s).done ++ if (lineState s).line = [] then [] else [(lineState s).line]

namespace Runtime

variable (R : Runtime Obj)

/-- The entries of these lines: blank ones and ones that do not parse are passed over, and any other
exception ends the reading. -/
def readLines : List PyStr → List (PyVal Obj)
  | [] => []
  | line :: rest =>
    if strip line = [] then readLines rest
    else
      match R.loads (strip line) with
      | .ok v => v :: readLines rest
      | .error .decode => readLines rest
      | .error _ => []

/-- `_read_from_file`, of lines that are texts or, for one that does not decode, `none`. The file is
decoded in blocks, so that the exception may come some lines before it. -/
def readFromFile (ahead : ℕ) (file : List (Option PyStr)) : List (PyVal Obj) :=
  if file.all Option.isSome then R.readLines file.reduceOption
  else R.readLines ((file.takeWhile Option.isSome).reduceOption.take ahead)

end Runtime

end ControlPlane.Secure
