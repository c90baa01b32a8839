import ControlPlane.Secure.Adapter

/-!
# The NETCONF server

The model of `sam/session_context.py`, of the dispatch in `netconf/netconf_session.py` and of
`handle_client` in `netconf/netconfserver.py`. Each connection is served by a thread of its own. The
thread creates a session from the certificate of its client, which it keeps in its thread-local
storage; chooses a gNMI client for the session; and handles the messages of the client one after the
other.

The threads of the server share a `threadMemory` that holds nothing but their thread-local storage:
no thread can write that of another.
-/

namespace ControlPlane.Secure

open Text SfOp

/-! ## Sessions -/

/-- A client certificate: the names in its subject, each with its attributes, in order. -/
abbrev Cert := List (List (String × String))

/-- `subject.get(name)`: a later attribute of the same name replaces an earlier one. -/
def subjectGet (name : String) (cert : Cert) : Option String :=
  List.lookup name cert.flatten.reverse

/-- `client_cn`: the first `commonName` of the last name that has one. -/
def commonName (cert : Cert) : Option String :=
  cert.foldl (fun clientCn rdn => (List.lookup "commonName" rdn).or clientCn) none

/-- `extract_onap_role_from_cert`, with `none` for no access. -/
def extractOnapRoleFromCert (py : Py) (bypassed : Bool) (cert : Option Cert) : Option OnapRole :=
  if bypassed then some .admin
  else
    match cert with
    | none => some .admin
    | some cert =>
      let ou := py.lower ((subjectGet "organizationalUnitName" cert).getD "")
      if ou ∈ ["internal", "sdnc"] then some .admin
      else if ou ∈ ["aws"] then some .operator
      else if ou ∈ ["auto"] then some .agent
      else none

/-- `create_session`. -/
def createSession (cfg : SfConfig) (clientAddr : String × ℕ) (cert : Option Cert) :
    SfM SessionContext := do
  match extractOnapRoleFromCert cfg.py (← Act.perform isSecurityBypassed) cert with
  | none => Act.raise ⟨"ValueError", "Access denied: No valid certificate or untrusted OU"⟩
  | some onapRole =>
    let clientCn := cert.bind commonName
    let allowed := ((← Act.perform (getPolicy onapRole)).map RolePolicy.allowedSonicRoles).getD []
    let default := (← Act.perform (getPolicy onapRole)).map RolePolicy.defaultSonicRole
    let ctx : Option SessionContext :=
      if allowed = [] then some ⟨clientAddr, onapRole, .operator, [.operator], clientCn⟩
      else default.map fun role => ⟨clientAddr, onapRole, role, allowed, clientCn⟩
    match ctx with
    | none => Act.raise ⟨"AttributeError", "'NoneType' object has no attribute 'value'"⟩
    | some ctx =>
      Act.perform (setLocalSession (some ctx))
      return ctx

/-- `remove_session`. -/
def removeSession : SfM Unit := Act.perform (setLocalSession none)

/-! ## Messages -/

/-- `handle_get_config` and `handle_get`. Every failure gives empty data. -/
def handleGetConfig (session : Option Client) : SfM Unit := do
  let body : SfM Unit := do
    Act.orRaise (Act.perform (tamperLog
      { eventType := "gnmi", action := "get_acl_rules"
        details := "Reading /nos-iptables:acl/rule via bridge" }))
    match session with
    | none => return ()
    | some client =>
      if ← Act.perform (connected client) then
        let _ ← Act.orRaise (Act.perform (gnmiGet client "/nos-iptables:acl/rule"))
        return ()
      else return ()
  let _ ← Act.attempt body
  return ()

/-- The namespace of NETCONF. -/
def NS_NC : String := "urn:ietf:params:xml:ns:netconf:base:1.0"

/-- `handle_rpc` for a message that was parsed, or could not be: whether the session goes on. The
operations that the adapter has no part in are answered from the server's own files. -/
def handleRpc (cfg : SfConfig) (session : Option Client) (message : Except Exc Xml) : SfM Bool := do
  match message with
  | .error e => Act.perform (sendResponse (appError "1" "operation-failed" e.msg))
  | .ok root =>
    let msgId := messageIdOf root
    let has (name : String) := root.selectNs NS_NC name ≠ []
    if has "get-config" then
      handleGetConfig session
      Act.perform (sendResponse (.data msgId))
    else if has "get" then
      if cfg.isMonitoring root then Act.perform (sendResponse (.data msgId))
      else
        handleGetConfig session
        Act.perform (sendResponse (.data msgId))
    else if has "edit-config" then
      Act.perform (sendResponse (← handleEditConfig cfg session root))
    else if root.select "get-schema" ≠ [] then Act.perform (sendResponse (.data msgId))
    else if has "lock" ∨ has "unlock" ∨ has "commit" then Act.perform (sendResponse (.ok msgId))
    else if has "close-session" then
      let _ ← Act.perform (sendResponse (.ok msgId))
      return false
    else Act.perform (sendResponse (.ok msgId))

/-- The loop of `run` over the messages that a client sends. -/
def runSession (cfg : SfConfig) (session : Option Client) : List (Except Exc Xml) → SfM Unit
  | [] => return ()
  | message :: rest => do
    if ← handleRpc cfg session message then runSession cfg session rest else return ()

/-! ## Connections -/

/-- A connection: the address and the certificate of the client, and the messages it sends. -/
structure Connection where
  /-- The address. -/
  addr : String × ℕ
  /-- The certificate, when there is one. -/
  cert : Option Cert
  /-- The messages after the hello, parsed where they can be. -/
  inbox : List (Except Exc Xml)

/-- The part of `handle_client` inside the session: without a client for it there is no adapter. -/
def serveClient (cfg : SfConfig) (ctx : SessionContext) (inbox : List (Except Exc Xml)) :
    SfM Unit := do
  let p ← Act.perform pool
  match p.getAnyClient cfg.leafIps ctx.sonicRole with
  | none => return ()
  | some client => runSession cfg (some client) inbox

/-- `handle_client`. -/
def handleClient (cfg : SfConfig) (conn : Connection) : SfM Unit := do
  match ← Act.attempt (createSession cfg conn.addr conn.cert) with
  | .error _ => return ()
  | .ok ctx =>
    let _ ← Act.attempt (serveClient cfg ctx conn.inbox)
    removeSession

/-- The memory of the threads: the thread-local session of each. -/
def threadMemory (Tid : Type) [DecidableEq Tid] :
    Memory Tid SfOp SfAns (Tid → Option SessionContext) where
  answers t s
    | ⟨localSession, a⟩ => a = s t
    | _ => True
  next t s
    | ⟨setLocalSession ctx, _⟩ => Function.update s t ctx
    | _ => s

/-- The program of each thread. -/
def clientThreads {Tid : Type} (cfg : SfConfig) (conns : Tid → Connection) (t : Tid) :
    Prog SfOp SfAns (Except Exc Unit × Unit) :=
  handleClient cfg (conns t) ()

end ControlPlane.Secure
