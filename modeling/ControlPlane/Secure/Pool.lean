import ControlPlane.Secure.Zones
import Mathlib.Logic.Function.Basic

/-!
# The connection pool

The model of `NosGnmiConnectionPool`. A `Pool` is the pool at one moment: the connection of each
role to each leaf, and which of the clients are connected. That the client under a key was built for
the leaf of the key is part of the type; the methods that change the pool are given below, so that
this is what they keep.
-/

namespace ControlPlane.Secure

/-- `SonicRole`. -/
inductive SonicRole where
  | admin
  | operator
  deriving DecidableEq

/-- The value of the role. -/
def SonicRole.value : SonicRole → String
  | admin => "admin"
  | operator => "operator"

/-- `OnapRole`. -/
inductive OnapRole where
  | admin
  | operator
  | agent
  deriving DecidableEq

/-- The value of the role. -/
def OnapRole.value : OnapRole → String
  | admin => "admin"
  | operator => "operator"
  | agent => "auto"

/-- A `SonicGnmiClient`: the leaf it was built for, and which of the clients for it this is. -/
structure Client where
  /-- `client.host`. -/
  host : String
  /-- Tells the clients for one leaf apart. -/
  serial : ℕ
  deriving DecidableEq

/-- The pool at one moment. -/
structure Pool where
  /-- `_connections`. -/
  connections : SonicRole → String → Option Client
  /-- `client.connected`. -/
  connected : Client → Bool
  /-- The client under a key was built for the leaf of the key. -/
  host_eq : ∀ role leaf client, connections role leaf = some client → client.host = leaf

namespace Pool

/-- A new pool. -/
def empty : Pool where
  connections _ _ := none
  connected _ := false
  host_eq _ _ _ h := by simp at h

/-- `_connections[key] = client`, with the clients that are connected afterwards. -/
def setConnection (p : Pool) (role : SonicRole) (leafIp : String) (client : Option Client)
    (hhost : ∀ c ∈ client, c.host = leafIp) (connected : Client → Bool) : Pool where
  connections := Function.update p.connections role
    (Function.update (p.connections role) leafIp client)
  connected := connected
  host_eq := by
    intro role' leaf c h
    rcases eq_or_ne role' role with rfl | hr
    · rw [Function.update_self] at h
      rcases eq_or_ne leaf leafIp with rfl | hl
      · rw [Function.update_self] at h
        exact hhost c h
      · rw [Function.update_of_ne hl] at h
        exact p.host_eq _ _ _ h
    · rw [Function.update_of_ne hr] at h
      exact p.host_eq _ _ _ h

/-- The end of `connect_role_leaf`, with the outcome of `client.connect`: a client that is connected
replaces the one under its key, which is closed. -/
def connectRoleLeaf (p : Pool) (role : SonicRole) (leafIp : String) (serial : ℕ) (ok : Bool) :
    Pool :=
  let client : Client := ⟨leafIp, serial⟩
  if ok then
    p.setConnection role leafIp (some client) (by simp [client]) fun c =>
      c = client || (p.connected c && p.connections role leafIp ≠ some c)
  else p

/-- The disconnect handler: the connection of a key is lost. -/
def lost (p : Pool) (role : SonicRole) (leafIp : String) : Pool :=
  p.setConnection role leafIp none (by simp) fun c =>
    p.connected c && p.connections role leafIp ≠ some c

/-- `reconnect`: the old connection is closed before the new one is made. -/
def reconnect (p : Pool) (role : SonicRole) (leafIp : String) (serial : ℕ) (ok : Bool) : Pool :=
  (p.lost role leafIp).connectRoleLeaf role leafIp serial ok

/-- `get_client_by_key`. -/
def getClientByKey (p : Pool) (role : SonicRole) (leafIp : String) : Option Client :=
  (p.connections role leafIp).filter p.connected

/-- `get_client_for_zone`. A source outside the zones goes to the first leaf. -/
def getClientForZone (p : Pool) (role : SonicRole) (srcPrefix : String) :
    Except Exc (Option Client) := do
  let leafIp := (← ipToLeaf srcPrefix).getD DEFAULT_LEAF1
  return p.getClientByKey role leafIp

/-- `get_any_client`, over the addresses of the leaves. -/
def getAnyClient (p : Pool) (leaves : List String) (role : SonicRole) : Option Client :=
  leaves.findSome? (p.getClientByKey role)

/-- A client that is found for a leaf is a client of the leaf. -/
theorem host_of_getClientByKey {p : Pool} {role : SonicRole} {leafIp : String} {client : Client}
    (h : p.getClientByKey role leafIp = some client) : client.host = leafIp := by
  unfold getClientByKey at h
  exact p.host_eq role leafIp client (Option.filter_eq_some_iff.mp h).1

/-- The pool in which every connection is up. -/
def full : Pool where
  connections _ leaf := some ⟨leaf, 0⟩
  connected _ := true
  host_eq _ _ _ h := by
    simp only [Option.some.injEq] at h
    rw [← h]

@[simp] theorem full_getClientByKey (role : SonicRole) (leafIp : String) :
    full.getClientByKey role leafIp = some ⟨leafIp, 0⟩ := rfl

end Pool

end ControlPlane.Secure
