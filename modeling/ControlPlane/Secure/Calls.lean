import ControlPlane.Lib.Interleaving
import ControlPlane.Lib.Xml
import ControlPlane.Secure.Pool
import ControlPlane.Secure.TamperLog

/-!
# The calls of the Secure Framework

Everything that the two front-ends call out to: the connection pool, the gNMI clients, the audit
log, the policies, the environment, the socket, and the session of the current thread. A look at the
pool is answered with the pool as it is at that moment; other threads may connect and disconnect
clients between any two calls, so nothing ties one answer to the next.
-/

namespace ControlPlane.Secure

/-- What the front-ends are started with. -/
structure SfConfig where
  /-- The interpreter. -/
  py : Py
  /-- `pool.leaves`: names and addresses. -/
  leaves : List (String × String)
  /-- Whether the filter of a `get` asks for the monitoring schemas. -/
  isMonitoring : Xml → Bool

/-- `pool.leaves.values()`. -/
def SfConfig.leafIps (cfg : SfConfig) : List String := cfg.leaves.map Prod.snd

/-- `SessionContext`. -/
structure SessionContext where
  /-- `client_addr`: host and port. -/
  clientAddr : String × ℕ
  /-- `onap_role`. -/
  onapRole : OnapRole
  /-- `sonic_role`. -/
  sonicRole : SonicRole
  /-- `allowed_sonic_roles`. -/
  allowedSonicRoles : List SonicRole
  /-- `client_cn`. -/
  clientCn : Option String := none

/-- `RolePolicy`. -/
structure RolePolicy where
  /-- `allowed_sonic_roles`. -/
  allowedSonicRoles : List SonicRole
  /-- `default_sonic_role`. -/
  defaultSonicRole : SonicRole

/-- A reply to an RPC, with its message id. -/
inductive Reply where
  /-- `<ok/>`. -/
  | ok (msgId : String)
  /-- A reply with data. -/
  | data (msgId : String)
  /-- `<rpc-error>`, with its type, tag and message. -/
  | error (msgId errType errTag errMsg : String)
  deriving DecidableEq

/-- Whether a reply is an `<rpc-error>`. -/
def Reply.isError : Reply → Bool
  | error _ _ _ _ => true
  | _ => false

/-- The calls. -/
inductive SfOp where
  /-- `getattr(_session_local, 'current', None)`. -/
  | localSession
  /-- `_session_local.current = ...`. -/
  | setLocalSession (ctx : Option SessionContext)
  /-- `is_security_bypassed()`. -/
  | isSecurityBypassed
  /-- `policy_engine.get_policy`. -/
  | getPolicy (role : OnapRole)
  /-- A look at the pool, under its lock. -/
  | pool
  /-- `client.connected`. -/
  | connected (client : Client)
  /-- `client.gc.get`. -/
  | gnmiGet (client : Client) (path : String)
  /-- `client.gc.set(update=[(path, payload)])`. -/
  | gnmiUpdate (client : Client) (path : String) (payload : List (String × Json))
  /-- `client.gc.set(delete=[path])`. -/
  | gnmiDelete (client : Client) (path : String)
  /-- `tamper_logger.log`. -/
  | tamperLog (call : LogCall)
  /-- `send_response`, which answers whether the session goes on. -/
  | sendResponse (reply : Reply)

/-- What a call is answered with. -/
@[reducible] def SfAns : SfOp → Type
  | .localSession => Option SessionContext
  | .setLocalSession _ => Unit
  | .isSecurityBypassed => Bool
  | .getPolicy _ => Option RolePolicy
  | .pool => Pool
  | .connected _ => Bool
  | .gnmiGet _ _ => Except Exc Json
  | .gnmiUpdate _ _ _ | .gnmiDelete _ _ | .tamperLog _ => Except Exc Unit
  | .sendResponse _ => Bool

/-- An event of a front-end. -/
abbrev SfEvent := Event SfOp SfAns

/-- A method of a front-end. -/
abbrev SfM := Act SfOp SfAns Exc Unit

end ControlPlane.Secure
