import ControlPlane.Lib.Json
import ControlPlane.Lib.Runs
import ControlPlane.Secure.Pool

/-!
# Runs of the connection pool

The steps by which the threads of the framework change the pool: `connect_role_leaf`, whose client
is built outside of the lock and stored under it, the first half of `reconnect`, the calls over a
client that end in an error, and the disconnect handlers. A handler has only the key of its client,
so it clears the slot of the key whichever client is in it; and a call that goes to `client.gc`
itself does not tell the client of an error. `agrees_iff` is what the pool has without these two.
-/

namespace ControlPlane.Secure

open Runs Text

/-- The texts that tell `_handle_rpc_error` that a connection is lost. -/
def connectionErrors : List String :=
  ["unavailable", "connection", "eof", "reset", "broken pipe", "deadline"]

/-- The test of `_handle_rpc_error`. -/
def isConnectionError (py : PyText) (error : String) : Bool :=
  connectionErrors.any fun err => containsText err (py.lower error)

/-- How far `connect_role_leaf` is with a client, and the role that the disconnect handler of the
client has. -/
inductive Stage where
  | unbuilt
  /-- `client.connect` returned `False`. -/
  | failed
  /-- `client.connect` returned `True`. -/
  | ready (role : SonicRole)
  /-- The client was put into the pool. -/
  | stored (role : SonicRole)
  deriving DecidableEq

/-- The pool, its clients, and what was observed of them. -/
structure PoolRun where
  pool : Pool
  stage : Client → Stage
  /-- How many calls of the disconnect handler of a client are under way. -/
  pending : Client → ℕ
  /-- What `connect_role_leaf` and `reconnect` have stored last for a key. -/
  latest : SonicRole → String → Option Client
  /-- An error that means connection loss has been observed on the client. -/
  lost : Client → Bool

/-- The steps. -/
inductive PoolStep where
  /-- A client is built, and `client.connect` returns. -/
  | build (role : SonicRole) (leafIp : String) (serial : ℕ) (ok : Bool)
  /-- The end of `connect_role_leaf`, under the lock. -/
  | store (client : Client)
  /-- The part of `reconnect` under the lock. -/
  | withdraw (role : SonicRole) (leafIp : String)
  /-- A call through a method of the client ends in an error, up to the disconnect handler. -/
  | handled (client : Client) (error : String)
  /-- A call of `client.gc` itself ends in an error. -/
  | direct (client : Client) (error : String)
  /-- The disconnect handler of the client. -/
  | callback (client : Client)

/-- The pool with another value of `client._connected`. -/
def Pool.setConnected (p : Pool) (client : Client) (b : Bool) : Pool :=
  { p with connected := Function.update p.connected client b }

namespace PoolRun

/-- Nothing was built yet. -/
def initial : PoolRun where
  pool := Pool.empty
  stage _ := .unbuilt
  pending _ := 0
  latest _ _ := none
  lost _ := false

/-- What was stored last for a key. -/
def setLatest (s : PoolRun) (role : SonicRole) (leafIp : String) (client : Option Client) :
    SonicRole → String → Option Client :=
  Function.update s.latest role (Function.update (s.latest role) leafIp client)

/-- One step, where a thread can take it. -/
def step (py : PyText) (s : PoolRun) : PoolStep → Option PoolRun
  | .build role leafIp serial ok =>
    let client : Client := ⟨leafIp, serial⟩
    match s.stage client with
    | .unbuilt =>
      some { s with
        pool := s.pool.setConnected client ok
        stage := Function.update s.stage client (if ok then .ready role else .failed) }
    | _ => none
  | .store client =>
    match s.stage client with
    | .ready role =>
      some { s with
        pool := s.pool.connectRoleLeaf role client.host client.serial true
        stage := Function.update s.stage client (.stored role)
        latest := s.setLatest role client.host (some client) }
    | _ => none
  | .withdraw role leafIp =>
    some { s with
      pool := s.pool.lost role leafIp
      latest := s.setLatest role leafIp none }
  | .handled client error =>
    match s.stage client with
    | .stored _ =>
      if isConnectionError py error then
        some { s with
          pool := s.pool.setConnected client false
          pending := Function.update s.pending client (s.pending client + 1)
          lost := Function.update s.lost client true }
      else some s
    | _ => none
  | .direct client error =>
    match s.stage client with
    | .stored _ =>
      some { s with
        lost := Function.update s.lost client (s.lost client || isConnectionError py error) }
    | _ => none
  | .callback client =>
    match s.stage client, s.pending client with
    | .stored role, n + 1 =>
      some { s with
        pool := s.pool.setConnection role client.host none (by simp) s.pool.connected
        pending := Function.update s.pending client n }
    | _, _ => none

/-- A client is handed out for a key exactly when it was stored last for the key and no loss of its
connection has been observed. -/
def Agrees (s : PoolRun) : Prop :=
  ∀ role leafIp client, s.pool.getClientByKey role leafIp = some client ↔
    s.latest role leafIp = some client ∧ s.lost client = false

/-- The client is connected and in the slot of a key. -/
def Serves (s : PoolRun) (role : SonicRole) (leafIp : String) (client : Client) : Prop :=
  s.pool.connections role leafIp = some client ∧ s.pool.connected client = true

/-- A disconnect handler finds no other connected client in the slot of its key; and an error that
bypasses the handler, and means connection loss, is not of a connected client in the slot. -/
def Clean (py : PyText) (s : PoolRun) : PoolStep → Prop
  | .callback client =>
    ∀ role, s.stage client = .stored role → ∀ other, s.Serves role client.host other →
      other = client
  | .direct client error =>
    isConnectionError py error = true → ∀ role, ¬ s.Serves role client.host client
  | _ => True

/-- What every run without the two has. -/
structure Inv (s : PoolRun) : Prop where
  agrees : s.Agrees
  /-- A client is only in the slot of its own key. -/
  stored_of_slot : ∀ role leafIp client, s.pool.connections role leafIp = some client →
    s.stage client = .stored role
  /-- A client is only stored for its own key. -/
  stored_of_latest : ∀ role leafIp client, s.latest role leafIp = some client →
    s.stage client = .stored role ∧ client.host = leafIp
  /-- No call was made over a client that was not in the pool. -/
  kept : ∀ client role, s.stage client = .ready role → s.lost client = false
  unbuilt : ∀ client, s.stage client = .unbuilt → s.lost client = false
  /-- A handler runs after an error of its client. -/
  pending : ∀ client, s.pending client ≠ 0 → s.lost client = true

variable {py : PyText} {s s' : PoolRun} {role role' : SonicRole} {leafIp leafIp' : String}
  {client other : Client}

theorem getClientByKey_eq_some :
    s.pool.getClientByKey role leafIp = some client ↔ s.Serves role leafIp client := by
  unfold Pool.getClientByKey Serves
  exact Option.filter_eq_some_iff

theorem Agrees.serves (h : s.Agrees) :
    s.Serves role leafIp client ↔
      s.latest role leafIp = some client ∧ s.lost client = false := by
  rw [← getClientByKey_eq_some]
  exact h role leafIp client

/-- What is stored last, after a store. -/
theorem setLatest_apply (x : Option Client) :
    s.setLatest role leafIp x role' leafIp' =
      if role' = role ∧ leafIp' = leafIp then x else s.latest role' leafIp' := by
  unfold setLatest
  rcases eq_or_ne role' role with rfl | hr
  · rcases eq_or_ne leafIp' leafIp with rfl | hl
    · simp
    · simp [hl]
  · simp [hr]

end PoolRun

/-- The slots, after one of them is set. -/
theorem Pool.setConnection_connections (p : Pool) (role role' : SonicRole)
    (leafIp leafIp' : String) (x : Option Client) (hx : ∀ c ∈ x, c.host = leafIp)
    (connected : Client → Bool) :
    (p.setConnection role leafIp x hx connected).connections role' leafIp' =
      if role' = role ∧ leafIp' = leafIp then x else p.connections role' leafIp' := by
  unfold setConnection
  rcases eq_or_ne role' role with rfl | hr
  · rcases eq_or_ne leafIp' leafIp with rfl | hl
    · simp
    · simp [hl]
  · simp [hr]

namespace PoolRun

variable {py : PyText} {s s' : PoolRun} {role role' : SonicRole} {leafIp leafIp' : String}
  {client other : Client}

/-- A client in a slot that is not the slot of a key is not the one in the slot of the key. -/
theorem Inv.slot_ne (h : s.Inv) (hslot : s.pool.connections role' leafIp' = some client)
    (hne : ¬ (role' = role ∧ leafIp' = leafIp)) :
    s.pool.connections role leafIp ≠ some client := by
  intro hother
  have hrole : Stage.stored role' = .stored role :=
    (h.stored_of_slot _ _ _ hslot).symm.trans (h.stored_of_slot _ _ _ hother)
  have hleaf : leafIp' = leafIp :=
    (s.pool.host_eq _ _ _ hslot).symm.trans (s.pool.host_eq _ _ _ hother)
  exact hne ⟨Stage.stored.inj hrole, hleaf⟩

/-- A client that is not in the pool serves no key. -/
theorem Inv.not_serves (h : s.Inv) (hstage : ∀ role, s.stage client ≠ .stored role) :
    ¬ s.Serves role leafIp client := fun hserves =>
  hstage role (h.stored_of_slot _ _ _ hserves.1)

theorem Inv.initial : initial.Inv where
  agrees role leafIp client := by simp [PoolRun.initial, Pool.empty, Pool.getClientByKey]
  stored_of_slot role leafIp client h := by simp [PoolRun.initial, Pool.empty] at h
  stored_of_latest role leafIp client h := by simp [PoolRun.initial] at h
  kept _ _ _ := rfl
  unbuilt _ _ := rfl
  pending _ h := absurd rfl h

/-! ## What each step does

The inversion of `step`, one lemma for each action. -/

theorem step_build {serial : ℕ} {ok : Bool}
    (h : step py s (.build role leafIp serial ok) = some s') :
    s.stage ⟨leafIp, serial⟩ = .unbuilt ∧
      s' = { s with
        pool := s.pool.setConnected ⟨leafIp, serial⟩ ok
        stage := Function.update s.stage ⟨leafIp, serial⟩
          (if ok then .ready role else .failed) } := by
  simp only [step] at h
  cases hstage : s.stage ⟨leafIp, serial⟩ with
  | unbuilt =>
    rw [hstage] at h
    exact ⟨rfl, (Option.some.inj h).symm⟩
  | failed => simp [hstage] at h
  | ready _ => simp [hstage] at h
  | stored _ => simp [hstage] at h

theorem step_store (h : step py s (.store client) = some s') :
    ∃ role, s.stage client = .ready role ∧
      s' = { s with
        pool := s.pool.connectRoleLeaf role client.host client.serial true
        stage := Function.update s.stage client (.stored role)
        latest := s.setLatest role client.host (some client) } := by
  simp only [step] at h
  cases hstage : s.stage client with
  | ready role =>
    rw [hstage] at h
    exact ⟨role, rfl, (Option.some.inj h).symm⟩
  | unbuilt => simp [hstage] at h
  | failed => simp [hstage] at h
  | stored _ => simp [hstage] at h

theorem step_handled {error : String} (h : step py s (.handled client error) = some s') :
    (∃ role, s.stage client = .stored role) ∧
      (isConnectionError py error = false ∧ s' = s ∨
        isConnectionError py error = true ∧
        s' = { s with
          pool := s.pool.setConnected client false
          pending := Function.update s.pending client (s.pending client + 1)
          lost := Function.update s.lost client true }) := by
  simp only [step] at h
  cases hstage : s.stage client with
  | stored role =>
    rw [hstage] at h
    refine ⟨⟨role, rfl⟩, ?_⟩
    cases herror : isConnectionError py error with
    | false =>
      simp only [herror, Bool.false_eq_true, if_false, Option.some.injEq] at h
      exact .inl ⟨rfl, h.symm⟩
    | true =>
      simp only [herror, if_true, Option.some.injEq] at h
      exact .inr ⟨rfl, h.symm⟩
  | unbuilt => simp [hstage] at h
  | failed => simp [hstage] at h
  | ready _ => simp [hstage] at h

theorem step_direct {error : String} (h : step py s (.direct client error) = some s') :
    (∃ role, s.stage client = .stored role) ∧
      s' = { s with
        lost := Function.update s.lost client
          (s.lost client || isConnectionError py error) } := by
  simp only [step] at h
  cases hstage : s.stage client with
  | stored role =>
    rw [hstage] at h
    exact ⟨⟨role, rfl⟩, (Option.some.inj h).symm⟩
  | unbuilt => simp [hstage] at h
  | failed => simp [hstage] at h
  | ready _ => simp [hstage] at h

theorem step_callback (h : step py s (.callback client) = some s') :
    ∃ role n, s.stage client = .stored role ∧ s.pending client = n + 1 ∧
      s' = { s with
        pool := s.pool.setConnection role client.host none (by simp) s.pool.connected
        pending := Function.update s.pending client n } := by
  simp only [step] at h
  cases hstage : s.stage client with
  | stored role =>
    cases hpending : s.pending client with
    | zero => simp [hstage, hpending] at h
    | succ n =>
      rw [hstage, hpending] at h
      exact ⟨role, n, rfl, rfl, (Option.some.inj h).symm⟩
  | unbuilt => simp [hstage] at h
  | failed => simp [hstage] at h
  | ready _ => simp [hstage] at h

/-! ## What each step keeps -/

theorem Inv.build (h : s.Inv) {serial : ℕ} {ok : Bool}
    (hstep : step py s (.build role leafIp serial ok) = some s') : s'.Inv := by
  obtain ⟨hunbuilt, rfl⟩ := step_build hstep
  have hstage : ∀ c role', s.stage c = .stored role' → c ≠ ⟨leafIp, serial⟩ := by
    rintro c role' hc rfl
    rw [hunbuilt] at hc
    exact absurd hc (by simp)
  constructor
  · intro role' leaf c
    rw [getClientByKey_eq_some]
    have hsame : s.Serves role' leaf c ↔ s.pool.connections role' leaf = some c ∧
        Function.update s.pool.connected ⟨leafIp, serial⟩ ok c = true := by
      refine and_congr_right fun hslot => ?_
      rw [Function.update_of_ne (hstage c role' (h.stored_of_slot _ _ _ hslot))]
    exact hsame.symm.trans h.agrees.serves
  · intro role' leaf c hslot
    have hc := h.stored_of_slot role' leaf c hslot
    exact (Function.update_of_ne (hstage c role' hc) _ _).trans hc
  · intro role' leaf c hlatest
    obtain ⟨hc, hhost⟩ := h.stored_of_latest role' leaf c hlatest
    exact ⟨(Function.update_of_ne (hstage c role' hc) _ _).trans hc, hhost⟩
  · intro c role' hc
    rcases eq_or_ne c ⟨leafIp, serial⟩ with rfl | hne
    · exact h.unbuilt _ hunbuilt
    · exact h.kept c role' ((Function.update_of_ne hne _ _).symm.trans hc)
  · intro c hc
    rcases eq_or_ne c ⟨leafIp, serial⟩ with rfl | hne
    · exact h.unbuilt _ hunbuilt
    · exact h.unbuilt c ((Function.update_of_ne hne _ _).symm.trans hc)
  · exact h.pending

/-- After a store, the new client serves its key, and the other keys are served as before. -/
theorem Inv.serves_store (h : s.Inv) (hready : s.stage client = .ready role) {t : PoolRun}
    (ht : t.pool = s.pool.connectRoleLeaf role client.host client.serial true) :
    t.Serves role' leafIp' other ↔
      if role' = role ∧ leafIp' = client.host then other = client
      else s.Serves role' leafIp' other := by
  unfold Serves
  rw [ht]
  unfold Pool.connectRoleLeaf
  simp only [if_true, Pool.setConnection_connections]
  by_cases hkey : role' = role ∧ leafIp' = client.host
  · rw [if_pos hkey, if_pos hkey]
    constructor
    · rintro ⟨hslot, -⟩
      exact (Option.some.inj hslot).symm
    · rintro rfl
      exact ⟨rfl, by simp [Pool.setConnection]⟩
  · rw [if_neg hkey, if_neg hkey]
    refine and_congr_right fun hslot => ?_
    have hother : other ≠ client := by
      rintro rfl
      have := (h.stored_of_slot _ _ _ hslot).symm.trans hready
      exact absurd this (by simp)
    have hslot' := h.slot_ne hslot hkey
    simp [Pool.setConnection, hother, hslot']

theorem Inv.store (h : s.Inv) (hstep : step py s (.store client) = some s') : s'.Inv := by
  obtain ⟨role, hready, rfl⟩ := step_store hstep
  have hstage : ∀ c role', s.stage c = .stored role' → c ≠ client := by
    rintro c role' hc rfl
    rw [hready] at hc
    exact absurd hc (by simp)
  constructor
  · intro role' leaf c
    rw [getClientByKey_eq_some, h.serves_store hready rfl]
    dsimp only
    rw [setLatest_apply]
    split
    · constructor
      · rintro rfl
        exact ⟨rfl, h.kept _ role hready⟩
      · rintro ⟨hlatest, -⟩
        exact (Option.some.inj hlatest).symm
    · exact h.agrees.serves
  · intro role' leaf c hslot
    dsimp only at hslot ⊢
    unfold Pool.connectRoleLeaf at hslot
    simp only [if_true, Pool.setConnection_connections] at hslot
    split at hslot
    · obtain rfl := Option.some.inj hslot
      simp [*]
    · have hc := h.stored_of_slot role' leaf c hslot
      exact (Function.update_of_ne (hstage c role' hc) _ _).trans hc
  · intro role' leaf c hlatest
    dsimp only at hlatest ⊢
    rw [setLatest_apply] at hlatest
    split at hlatest
    · obtain rfl := Option.some.inj hlatest
      simp [*]
    · obtain ⟨hc, hhost⟩ := h.stored_of_latest role' leaf c hlatest
      exact ⟨(Function.update_of_ne (hstage c role' hc) _ _).trans hc, hhost⟩
  · intro c role' hc
    dsimp only at hc
    rcases eq_or_ne c client with rfl | hne
    · exact absurd hc (by simp)
    · exact h.kept c role' ((Function.update_of_ne hne _ _).symm.trans hc)
  · intro c hc
    dsimp only at hc
    rcases eq_or_ne c client with rfl | hne
    · exact absurd hc (by simp)
    · exact h.unbuilt c ((Function.update_of_ne hne _ _).symm.trans hc)
  · exact h.pending

theorem Inv.withdraw (h : s.Inv) (hstep : step py s (.withdraw role leafIp) = some s') :
    s'.Inv := by
  obtain rfl := Option.some.inj hstep
  constructor
  · intro role' leaf c
    rw [getClientByKey_eq_some]
    unfold Serves Pool.lost
    simp only [Pool.setConnection_connections, setLatest_apply]
    split
    · simp
    · rename_i hkey
      rw [← h.agrees.serves, Serves]
      refine and_congr_right fun hslot => ?_
      simp [Pool.setConnection, h.slot_ne hslot hkey]
  · intro role' leaf c hslot
    unfold Pool.lost at hslot
    simp only [Pool.setConnection_connections] at hslot
    split at hslot
    · exact absurd hslot (by simp)
    · exact h.stored_of_slot role' leaf c hslot
  · intro role' leaf c hlatest
    simp only [setLatest_apply] at hlatest
    split at hlatest
    · exact absurd hlatest (by simp)
    · exact h.stored_of_latest role' leaf c hlatest
  · exact h.kept
  · exact h.unbuilt
  · exact h.pending

theorem Inv.handled (h : s.Inv) {error : String}
    (hstep : step py s (.handled client error) = some s') : s'.Inv := by
  obtain ⟨⟨role, hstage⟩, ⟨-, rfl⟩ | ⟨-, rfl⟩⟩ := step_handled hstep
  · exact h
  constructor
  · intro role' leaf c
    rw [getClientByKey_eq_some]
    unfold Serves Pool.setConnected
    dsimp only
    rcases eq_or_ne c client with rfl | hne
    · simp
    · rw [Function.update_of_ne hne, Function.update_of_ne hne]
      exact h.agrees.serves
  · exact h.stored_of_slot
  · exact h.stored_of_latest
  · intro c role' hc
    rcases eq_or_ne c client with rfl | hne
    · exact absurd (hstage.symm.trans hc) (by simp)
    · exact (Function.update_of_ne hne _ _).trans (h.kept c role' hc)
  · intro c hc
    rcases eq_or_ne c client with rfl | hne
    · exact absurd (hstage.symm.trans hc) (by simp)
    · exact (Function.update_of_ne hne _ _).trans (h.unbuilt c hc)
  · intro c hc
    rcases eq_or_ne c client with rfl | hne
    · simp
    · have hc' : s.pending c ≠ 0 := by
        simpa only [ne_eq, Function.update_of_ne hne] using hc
      exact (Function.update_of_ne hne _ _).trans (h.pending c hc')

theorem Inv.direct (h : s.Inv) {error : String} (hclean : Clean py s (.direct client error))
    (hstep : step py s (.direct client error) = some s') : s'.Inv := by
  obtain ⟨⟨role, hstage⟩, rfl⟩ := step_direct hstep
  constructor
  · intro role' leaf c
    rw [getClientByKey_eq_some]
    dsimp only
    rcases eq_or_ne c client with rfl | hne
    · -- an error that means loss is not of a client that serves the key
      rw [Function.update_self, Bool.or_eq_false_iff, ← and_assoc, ← h.agrees.serves]
      refine ⟨fun hserves => ⟨hserves, ?_⟩, And.left⟩
      obtain rfl : c.host = leaf := s.pool.host_eq _ _ _ hserves.1
      by_contra herror
      exact hclean (by simpa using herror) role' hserves
    · rw [Function.update_of_ne hne]
      exact h.agrees.serves
  · exact h.stored_of_slot
  · exact h.stored_of_latest
  · intro c role' hc
    rcases eq_or_ne c client with rfl | hne
    · exact absurd (hstage.symm.trans hc) (by simp)
    · exact (Function.update_of_ne hne _ _).trans (h.kept c role' hc)
  · intro c hc
    rcases eq_or_ne c client with rfl | hne
    · exact absurd (hstage.symm.trans hc) (by simp)
    · exact (Function.update_of_ne hne _ _).trans (h.unbuilt c hc)
  · intro c hc
    have hlost := h.pending c hc
    rcases eq_or_ne c client with rfl | hne
    · simp [hlost]
    · exact (Function.update_of_ne hne _ _).trans hlost

theorem Inv.callback (h : s.Inv) (hclean : Clean py s (.callback client))
    (hstep : step py s (.callback client) = some s') : s'.Inv := by
  obtain ⟨role, n, hstage, hpending, rfl⟩ := step_callback hstep
  have hlost : s.lost client = true := h.pending client (by omega)
  constructor
  · intro role' leaf c
    rw [getClientByKey_eq_some]
    unfold Serves
    simp only [Pool.setConnection_connections]
    split
    · rename_i hkey
      obtain ⟨rfl, rfl⟩ := hkey
      -- a client that should be handed out would be in the slot, so it is the lost one
      refine iff_of_false (by simp) fun hlatest => ?_
      have hserves := h.agrees.serves.mpr hlatest
      obtain rfl := hclean role' hstage c hserves
      exact absurd (hlost.symm.trans hlatest.2) (by simp)
    · exact h.agrees.serves
  · intro role' leaf c hslot
    simp only [Pool.setConnection_connections] at hslot
    split at hslot
    · exact absurd hslot (by simp)
    · exact h.stored_of_slot role' leaf c hslot
  · exact h.stored_of_latest
  · exact h.kept
  · exact h.unbuilt
  · intro c hc
    rcases eq_or_ne c client with rfl | hne
    · exact hlost
    · have hc' : s.pending c ≠ 0 := by
        simpa only [ne_eq, Function.update_of_ne hne] using hc
      exact h.pending c hc'

/-- A step that meets the condition keeps the invariant. -/
theorem Inv.next {a : PoolStep} (h : s.Inv) (hclean : Clean py s a)
    (hstep : step py s a = some s') : s'.Inv := by
  cases a with
  | build role leafIp serial ok => exact h.build hstep
  | store client => exact h.store hstep
  | withdraw role leafIp => exact h.withdraw hstep
  | handled client error => exact h.handled hstep
  | direct client error => exact h.direct hclean hstep
  | callback client => exact h.callback hclean hstep

/-- A handler that finds another connected client in the slot of its key evicts a client that was
stored last and is not lost. -/
theorem Inv.clean_of_callback (h : s.Inv) (hstep : step py s (.callback client) = some s')
    (hagrees : s'.Agrees) : Clean py s (.callback client) := by
  obtain ⟨role, n, hstage, -, rfl⟩ := step_callback hstep
  intro role' hrole other hserves
  obtain rfl : role' = role := Stage.stored.inj (hrole.symm.trans hstage)
  have hafter := hagrees.serves.mpr (h.agrees.serves.mp hserves)
  unfold Serves at hafter
  simp only [Pool.setConnection_connections, and_self, if_true] at hafter
  exact absurd hafter.1 (by simp)

/-- A client that serves a key goes on serving it after an error that bypasses the handler. -/
theorem clean_of_direct {error : String}
    (hstep : step py s (.direct client error) = some s') (hagrees : s'.Agrees) :
    Clean py s (.direct client error) := by
  obtain ⟨-, rfl⟩ := step_direct hstep
  intro herror role hserves
  have hafter := (hagrees.serves.mp (show Serves _ role client.host client from hserves)).2
  simp [herror] at hafter

/-- After a run that kept the invariant, a step keeps the agreement exactly when it meets the
condition. -/
theorem Inv.agrees_iff {a : PoolStep} (h : s.Inv) (hstep : step py s a = some s') :
    s'.Agrees ↔ Clean py s a := by
  constructor
  · intro hagrees
    cases a with
    | build role leafIp serial ok => trivial
    | store client => trivial
    | withdraw role leafIp => trivial
    | handled client error => trivial
    | direct client error => exact clean_of_direct hstep hagrees
    | callback client => exact h.clean_of_callback hstep hagrees
  · intro hclean
    exact (h.next hclean hstep).agrees

/-- In every state of a run the pool hands out, for each key, exactly the client that was stored
last and is not lost, if and only if each handler and each error of the run is a clean one. -/
theorem always_agrees_iff {actions : List PoolStep}
    (hrun : exec (step py) initial actions = some s') :
    (∀ before after, actions = before ++ after →
      ∀ t, exec (step py) initial before = some t → t.Agrees) ↔
    Always (step py) (Clean py) initial actions :=
  forall_iff_always Inv.initial Inv.initial.agrees (fun _ _ _ h hclean => h.next hclean)
    (fun _ _ _ h => h.agrees_iff) hrun

/-- The interpreter of the runs below. -/
def asciiText : PyText := (Py.ascii (fun _ => "") fun _ => none).toPyText

/-- The first client for a leaf. -/
def first : Client := ⟨DEFAULT_LEAF1, 0⟩

/-- Its replacement. -/
def second : Client := ⟨DEFAULT_LEAF1, 1⟩

/-- A connection is lost, its handler clears the slot, and `reconnect` fills it again. -/
theorem always_agrees_reconnect :
    ∃ s', exec (step asciiText) initial
        [.build .admin DEFAULT_LEAF1 0 true, .store first,
          .handled first "StatusCode.UNAVAILABLE", .callback first,
          .withdraw .admin DEFAULT_LEAF1, .build .admin DEFAULT_LEAF1 1 true,
          .store second] = some s' ∧
      s'.pool.getClientByKey .admin DEFAULT_LEAF1 = some second ∧
      ((∀ before after, [PoolStep.build .admin DEFAULT_LEAF1 0 true, .store first,
          .handled first "StatusCode.UNAVAILABLE", .callback first,
          .withdraw .admin DEFAULT_LEAF1, .build .admin DEFAULT_LEAF1 1 true,
          .store second] = before ++ after →
        ∀ t, exec (step asciiText) initial before = some t → t.Agrees) ↔
      Always (step asciiText) (Clean asciiText) initial
        [.build .admin DEFAULT_LEAF1 0 true, .store first,
          .handled first "StatusCode.UNAVAILABLE", .callback first,
          .withdraw .admin DEFAULT_LEAF1, .build .admin DEFAULT_LEAF1 1 true,
          .store second]) :=
  ⟨_, rfl, by decide +kernel, always_agrees_iff rfl⟩

/-- A connection is lost and made again before the handler of the lost one runs; and a connection is
lost in a call of `client.gc` itself. -/
theorem exists_disagree :
    (∃ actions s, exec (step asciiText) initial actions = some s ∧ ¬ s.Agrees ∧
      s.latest .admin DEFAULT_LEAF1 = some second ∧ s.lost second = false ∧
      s.pool.getClientByKey .admin DEFAULT_LEAF1 = none) ∧
    ∃ actions s, exec (step asciiText) initial actions = some s ∧ ¬ s.Agrees ∧
      s.lost first = true ∧ s.pool.getClientByKey .admin DEFAULT_LEAF1 = some first := by
  constructor
  · refine ⟨[.build .admin DEFAULT_LEAF1 0 true, .store first,
      .handled first "StatusCode.UNAVAILABLE", .withdraw .admin DEFAULT_LEAF1,
      .build .admin DEFAULT_LEAF1 1 true, .store second, .callback first], _, rfl,
      fun hagrees => ?_, by decide +kernel, by decide +kernel, by decide +kernel⟩
    have hget := (hagrees .admin DEFAULT_LEAF1 second).mpr (by decide +kernel)
    revert hget
    decide +kernel
  · refine ⟨[.build .admin DEFAULT_LEAF1 0 true, .store first,
      .direct first "StatusCode.UNAVAILABLE"], _, rfl,
      fun hagrees => ?_, by decide +kernel, by decide +kernel⟩
    have hlost := ((hagrees .admin DEFAULT_LEAF1 first).mp (by decide +kernel)).2
    revert hlost
    decide +kernel

end PoolRun

end ControlPlane.Secure
