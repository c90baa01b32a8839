import ControlPlane.Lib.Runs
import Mathlib.Data.List.Nodup
import Mathlib.Data.List.Perm.Subperm

/-!
# The stream of the alerts

The server-sent events of `ids-api.py`: `_broadcast`, which the tailing thread calls for each alert,
and `H._stream`, which runs in a thread for each client. A broadcast drops a client whose queue is
full from the list of clients, but its thread goes on with what is in the queue, and from then on
with heartbeats only. `kept_of_room` is what holds as long as no queue is found full; and a client
that is dropped while its thread runs breaks it (`exists_dropped`).
-/

namespace ControlPlane.Ids

open Runs

/-- `SSE_MAX_CLIENTS`. -/
def SSE_MAX_CLIENTS : ℕ := 8

/-- `SSE_QUEUE_SIZE`. -/
def SSE_QUEUE_SIZE : ℕ := 256

/-- Where the thread of a client is in `_stream`. -/
inductive Phase (Msg : Type) where
  /-- The client has not come yet. -/
  | new
  /-- There were too many clients. -/
  | refused
  /-- The client is in the list, and the headers are being written. -/
  | opening
  /-- In the loop, at the queue. -/
  | waiting
  /-- In the loop, at the socket, with a message or a heartbeat. -/
  | writing (msg : Option Msg)
  /-- Before `finally`. -/
  | closing
  | closed

/-- A client: its thread, its queue, and the messages that were written to it. -/
structure Conn (Msg : Type) where
  phase : Phase Msg
  queue : List Msg
  written : List Msg

/-- The state of the server. -/
structure SseServer (Client Msg : Type) where
  /-- `_sse_clients`. -/
  sseClients : List Client
  conns : Client → Conn Msg

/-- What the threads do. -/
inductive SseStep (Client Msg : Type) where
  /-- A request for the stream, up to the end of the lock. -/
  | connect (c : Client)
  /-- The headers and the first line, and whether they could be written. -/
  | open (c : Client) (ok : Bool)
  /-- `q.get`. -/
  | get (c : Client)
  /-- `q.get` after 15 seconds. -/
  | timeout (c : Client)
  /-- The write and the flush, and whether both succeeded. -/
  | write (c : Client) (ok : Bool)
  /-- `finally`. -/
  | finish (c : Client)
  /-- `_broadcast`. -/
  | broadcast (msg : Msg)

variable {Client Msg : Type}

/-- The stream loop of a client runs. -/
def Phase.Looping : Phase Msg → Prop
  | waiting | writing _ => True
  | _ => False

/-- The thread of a client is in the body of `try`. -/
def Phase.Serving : Phase Msg → Prop
  | opening | waiting | writing _ => True
  | _ => False

/-- The message that a thread has taken and not written yet. -/
def Phase.taken : Phase Msg → List Msg
  | writing (some msg) => [msg]
  | _ => []

namespace SseServer

/-- No client has come yet. -/
def initial : SseServer Client Msg where
  sseClients := []
  conns _ := { phase := .new, queue := [], written := [] }

variable [DecidableEq Client]

/-- The server with another state of one client. -/
def setConn (s : SseServer Client Msg) (c : Client) (conn : Conn Msg) : SseServer Client Msg :=
  { s with conns := fun d => if d = c then conn else s.conns d }

/-- Whether a broadcast finds the queue of a client full. -/
def full (s : SseServer Client Msg) (c : Client) : Bool :=
  SSE_QUEUE_SIZE ≤ (s.conns c).queue.length

/-- `_broadcast`: the message goes to the registered clients, and those with a full queue are
removed. -/
def broadcast (s : SseServer Client Msg) (msg : Msg) : SseServer Client Msg where
  sseClients := s.sseClients.filter fun c => !s.full c
  conns c :=
    if c ∈ s.sseClients ∧ s.full c = false then
      { s.conns c with queue := (s.conns c).queue ++ [msg] }
    else s.conns c

/-- One step, where the thread that takes it is there. -/
def step (s : SseServer Client Msg) : SseStep Client Msg → Option (SseServer Client Msg)
  | .connect c =>
    match (s.conns c).phase with
    | .new =>
      if SSE_MAX_CLIENTS ≤ s.sseClients.length then
        some (s.setConn c { s.conns c with phase := .refused })
      else
        some { s.setConn c { phase := .opening, queue := [], written := [] } with
          sseClients := s.sseClients ++ [c] }
    | _ => none
  | .open c ok =>
    match (s.conns c).phase with
    | .opening => some (s.setConn c { s.conns c with phase := if ok then .waiting else .closing })
    | _ => none
  | .get c =>
    match (s.conns c).phase, (s.conns c).queue with
    | .waiting, msg :: rest =>
      some (s.setConn c { s.conns c with phase := .writing (some msg), queue := rest })
    | _, _ => none
  | .timeout c =>
    match (s.conns c).phase, (s.conns c).queue with
    | .waiting, [] => some (s.setConn c { s.conns c with phase := .writing none })
    | _, _ => none
  | .write c ok =>
    match (s.conns c).phase with
    | .writing msg =>
      if ok then
        some (s.setConn c { s.conns c with
          phase := .waiting
          written := (s.conns c).written ++ msg.toList })
      else some (s.setConn c { s.conns c with phase := .closing })
    | _ => none
  | .finish c =>
    match (s.conns c).phase with
    | .closing =>
      some { s.setConn c { s.conns c with phase := .closed } with
        sseClients := s.sseClients.erase c }
    | _ => none
  | .broadcast msg => some (s.broadcast msg)

end SseServer

/-! ## What the clients get -/

/-- The messages that were broadcast after a client connected. -/
def later [DecidableEq Client] (c : Client) (steps : List (SseStep Client Msg)) : List Msg :=
  steps.foldl (fun msgs step =>
    match step with
    | .connect d => if d = c then [] else msgs
    | .broadcast msg => msgs ++ [msg]
    | _ => msgs) []

variable [DecidableEq Client]

/-- The list of clients and the stream loops are in step. -/
structure SseKept (steps : List (SseStep Client Msg)) (s : SseServer Client Msg) : Prop where
  /-- A client whose loop runs is registered. -/
  registered : ∀ c, (s.conns c).phase.Looping → c ∈ s.sseClients
  /-- It was written every later alert, but for one it is being written and those in its queue. -/
  received : ∀ c, (s.conns c).phase.Looping →
    (s.conns c).written ++ (s.conns c).phase.taken ++ (s.conns c).queue = later c steps
  /-- There are no more loops than the limit. -/
  bounded : ∀ cs : List Client, cs.Nodup → (∀ c ∈ cs, (s.conns c).phase.Looping) →
    cs.length ≤ SSE_MAX_CLIENTS

/-- A broadcast finds no full queue of a client that is being served. -/
def Room (s : SseServer Client Msg) : SseStep Client Msg → Prop
  | .broadcast _ => ∀ c ∈ s.sseClients, (s.conns c).phase.Serving → s.full c = false
  | _ => True

/-! ## The invariant -/

/-- What each step keeps, where a client is served from the end of the lock on. -/
structure SseInv (steps : List (SseStep Client Msg)) (s : SseServer Client Msg) : Prop where
  nodup : s.sseClients.Nodup
  length_le : s.sseClients.length ≤ SSE_MAX_CLIENTS
  known : ∀ c ∈ s.sseClients, (s.conns c).phase ≠ .new
  registered : ∀ c, (s.conns c).phase.Serving → c ∈ s.sseClients
  received : ∀ c, (s.conns c).phase.Serving →
    (s.conns c).written ++ (s.conns c).phase.taken ++ (s.conns c).queue = later c steps

theorem Phase.Looping.serving {p : Phase Msg} (h : p.Looping) : p.Serving := by
  cases p with
  | waiting => trivial
  | writing _ => trivial
  | _ => exact h.elim

theorem Phase.not_serving_closing : ¬ (Phase.closing : Phase Msg).Serving := id

theorem Phase.not_serving_closed : ¬ (Phase.closed : Phase Msg).Serving := id

theorem Phase.closed_ne_new : (Phase.closed : Phase Msg) ≠ .new := nofun

theorem Phase.closing_ne_new : (Phase.closing : Phase Msg) ≠ .new := nofun

theorem SseInv.kept {steps : List (SseStep Client Msg)} {s : SseServer Client Msg}
    (h : SseInv steps s) : SseKept steps s where
  registered c hc := h.registered c hc.serving
  received c hc := h.received c hc.serving
  bounded cs hnodup hcs := by
    have hsub : cs ⊆ s.sseClients := fun c hc => h.registered c (hcs c hc).serving
    exact Nat.le_trans (hnodup.subperm hsub).length_le h.length_le

/-- A step that is no request and no broadcast leaves the alerts as they were. -/
theorem later_append (c : Client) (steps : List (SseStep Client Msg)) (step : SseStep Client Msg) :
    later c (steps ++ [step]) =
      match step with
      | .connect d => if d = c then [] else later c steps
      | .broadcast msg => later c steps ++ [msg]
      | _ => later c steps := by
  rw [later, List.foldl_append]
  cases step <;> rfl

section Steps

variable {steps : List (SseStep Client Msg)} {s : SseServer Client Msg} {step : SseStep Client Msg}

@[simp] theorem conns_setConn (c d : Client) (conn : Conn Msg) :
    (s.setConn c conn).conns d = if d = c then conn else s.conns d := rfl

@[simp] theorem sseClients_setConn (c : Client) (conn : Conn Msg) :
    (s.setConn c conn).sseClients = s.sseClients := rfl

/-- A client that goes on in its thread, with what it was sent in the same order. -/
theorem SseInv.setConn (h : SseInv steps s) {c : Client} {conn : Conn Msg}
    (hlater : ∀ d, later d (steps ++ [step]) = later d steps)
    (hserving : (s.conns c).phase.Serving) (hnew : conn.phase ≠ .new)
    (hsame : conn.phase.Serving → conn.written ++ conn.phase.taken ++ conn.queue =
      (s.conns c).written ++ (s.conns c).phase.taken ++ (s.conns c).queue) :
    SseInv (steps ++ [step]) (s.setConn c conn) := by
  refine ⟨h.nodup, h.length_le, fun d hd => ?_, fun d hd => ?_, fun d hd => ?_⟩
  all_goals
    rw [conns_setConn] at *
    by_cases hdc : d = c
  · rw [if_pos hdc]
    exact hnew
  · rw [if_neg hdc]
    exact h.known d hd
  · rw [hdc]
    exact h.registered c hserving
  · rw [if_neg hdc] at hd
    exact h.registered d hd
  · rw [if_pos hdc] at hd ⊢
    rw [hlater, hdc, hsame hd]
    exact h.received c hserving
  · rw [if_neg hdc] at hd ⊢
    rw [hlater]
    exact h.received d hd

/-- A client that leaves the thread is not served, registered or not. -/
theorem SseInv.leave (h : SseInv steps s) {c : Client} {phase : Phase Msg}
    (hlater : ∀ d, later d (steps ++ [step]) = later d steps) (hserving : ¬ phase.Serving)
    (hnew : phase ≠ .new) {cs : List Client} (hcs : cs = s.sseClients ∨ cs = s.sseClients.erase c) :
    SseInv (steps ++ [step])
      { s.setConn c { s.conns c with phase := phase } with sseClients := cs } := by
  have hmem : ∀ d ∈ cs, d ∈ s.sseClients := by
    rcases hcs with rfl | rfl
    · exact fun d hd => hd
    · exact fun d hd => List.mem_of_mem_erase hd
  have hback : ∀ d, d ≠ c → d ∈ s.sseClients → d ∈ cs := by
    rcases hcs with rfl | rfl
    · exact fun d _ hd => hd
    · exact fun d hdc hd => (List.mem_erase_of_ne hdc).mpr hd
  have hnodup : cs.Nodup := by
    rcases hcs with rfl | rfl
    · exact h.nodup
    · exact h.nodup.erase c
  refine ⟨hnodup, ?_, fun d hd => ?_, fun d hd => ?_, fun d hd => ?_⟩
  · have hsub : cs ⊆ s.sseClients := hmem
    exact Nat.le_trans (hnodup.subperm hsub).length_le h.length_le
  all_goals
    dsimp only at hd ⊢
    rw [conns_setConn] at *
    by_cases hdc : d = c
  · rw [if_pos hdc]
    exact hnew
  · rw [if_neg hdc]
    exact h.known d (hmem d hd)
  · rw [if_pos hdc] at hd
    exact absurd hd hserving
  · rw [if_neg hdc] at hd
    exact hback d hdc (h.registered d hd)
  · rw [if_pos hdc] at hd
    exact absurd hd hserving
  · rw [if_neg hdc] at hd ⊢
    rw [hlater]
    exact h.received d hd

/-- A client that comes is registered, and nothing was broadcast since. -/
theorem SseInv.connect (h : SseInv steps s) {c : Client} (hnew : (s.conns c).phase = .new)
    (hlt : s.sseClients.length < SSE_MAX_CLIENTS) :
    SseInv (steps ++ [.connect c])
      { s.setConn c { phase := .opening, queue := [], written := [] } with
        sseClients := s.sseClients ++ [c] } := by
  have hc : c ∉ s.sseClients := fun hmem => h.known c hmem hnew
  refine ⟨?_, ?_, fun d hd => ?_, fun d hd => ?_, fun d hd => ?_⟩
  · rw [List.nodup_append]
    refine ⟨h.nodup, List.nodup_singleton c, fun d hd e he => ?_⟩
    rw [List.mem_singleton.mp he]
    rintro rfl
    exact hc hd
  · rw [List.length_append, List.length_singleton]
    omega
  all_goals
    dsimp only at hd ⊢
    rw [conns_setConn] at *
    by_cases hdc : d = c
  · rw [if_pos hdc]
    exact nofun
  · rw [if_neg hdc]
    refine h.known d ((List.mem_append.mp hd).resolve_right fun hd => ?_)
    exact hdc (List.mem_singleton.mp hd)
  · rw [hdc]
    exact List.mem_append_right _ (List.mem_singleton_self c)
  · rw [if_neg hdc] at hd
    exact List.mem_append_left _ (h.registered d hd)
  · rw [if_pos hdc, later_append, hdc]
    exact (if_pos rfl).symm
  · rw [if_neg hdc] at hd ⊢
    rw [later_append]
    dsimp only
    rw [if_neg fun hcd => hdc hcd.symm]
    exact h.received d hd

/-- A broadcast that finds no queue full reaches every client that is served. -/
theorem SseInv.broadcast (h : SseInv steps s) (msg : Msg) (hroom : Room s (.broadcast msg)) :
    SseInv (steps ++ [.broadcast msg]) (s.broadcast msg) := by
  have hphase : ∀ c, ((s.broadcast msg).conns c).phase = (s.conns c).phase := by
    intro c
    rw [SseServer.broadcast]
    dsimp only
    split_ifs
    · rfl
    · rfl
  refine ⟨h.nodup.filter _, ?_, fun c hc => ?_, fun c hc => ?_, fun c hc => ?_⟩
  · exact Nat.le_trans (List.length_filter_le _ _) h.length_le
  · rw [hphase]
    exact h.known c (List.mem_filter.mp hc).1
  · rw [hphase] at hc
    have hmem := h.registered c hc
    exact List.mem_filter.mpr ⟨hmem, by rw [hroom c hmem hc, Bool.not_false]⟩
  · rw [hphase] at hc
    have hmem := h.registered c hc
    rw [later_append, hphase, SseServer.broadcast]
    dsimp only
    rw [if_pos ⟨hmem, hroom c hmem hc⟩, ← h.received c hc]
    exact (List.append_assoc _ _ _).symm

/-- Each step keeps the invariant. -/
theorem SseInv.next (h : SseInv steps s) (hroom : Room s step) {t : SseServer Client Msg}
    (ht : s.step step = some t) : SseInv (steps ++ [step]) t := by
  cases step with
  | connect c =>
    cases hphase : (s.conns c).phase with
    | new =>
      simp only [SseServer.step, hphase] at ht
      have hc : c ∉ s.sseClients := fun hmem => h.known c hmem hphase
      split_ifs at ht with hlen
      · obtain rfl := Option.some.inj ht
        refine ⟨h.nodup, h.length_le, fun d hd => ?_, fun d hd => ?_, fun d hd => ?_⟩
        all_goals
          rw [conns_setConn] at *
          by_cases hdc : d = c
        · exact absurd (hdc ▸ hd) hc
        · rw [if_neg hdc]
          exact h.known d hd
        · rw [if_pos hdc] at hd
          exact hd.elim
        · rw [if_neg hdc] at hd
          exact h.registered d hd
        · rw [if_pos hdc] at hd
          exact hd.elim
        · rw [if_neg hdc] at hd ⊢
          rw [later_append]
          dsimp only
          rw [if_neg fun hcd => hdc hcd.symm]
          exact h.received d hd
      · obtain rfl := Option.some.inj ht
        exact h.connect hphase (by omega)
    | _ => simp [SseServer.step, hphase] at ht
  | «open» c ok =>
    have hlater : ∀ d, later d (steps ++ [.open c ok]) = later d steps :=
      fun d => later_append d steps _
    cases hphase : (s.conns c).phase with
    | opening =>
      simp only [SseServer.step, hphase] at ht
      obtain rfl := Option.some.inj ht
      cases ok with
      | true => exact h.setConn hlater (hphase ▸ trivial) nofun fun _ => by rw [hphase]; rfl
      | false => exact h.leave hlater Phase.not_serving_closing Phase.closing_ne_new (.inl rfl)
    | _ => simp [SseServer.step, hphase] at ht
  | get c =>
    have hlater : ∀ d, later d (steps ++ [.get c]) = later d steps :=
      fun d => later_append d steps _
    cases hphase : (s.conns c).phase with
    | waiting =>
      cases hqueue : (s.conns c).queue with
      | nil => simp [SseServer.step, hphase, hqueue] at ht
      | cons msg rest =>
        simp only [SseServer.step, hphase, hqueue] at ht
        obtain rfl := Option.some.inj ht
        refine h.setConn hlater (hphase ▸ trivial) nofun fun _ => ?_
        rw [hphase, hqueue]
        simp [Phase.taken]
    | _ => simp [SseServer.step, hphase] at ht
  | timeout c =>
    have hlater : ∀ d, later d (steps ++ [.timeout c]) = later d steps :=
      fun d => later_append d steps _
    cases hphase : (s.conns c).phase with
    | waiting =>
      cases hqueue : (s.conns c).queue with
      | nil =>
        simp only [SseServer.step, hphase, hqueue] at ht
        obtain rfl := Option.some.inj ht
        exact h.setConn hlater (hphase ▸ trivial) nofun fun _ => by rw [hphase, hqueue]; rfl
      | cons msg rest => simp [SseServer.step, hphase, hqueue] at ht
    | _ => simp [SseServer.step, hphase] at ht
  | write c ok =>
    have hlater : ∀ d, later d (steps ++ [.write c ok]) = later d steps :=
      fun d => later_append d steps _
    cases hphase : (s.conns c).phase with
    | writing msg =>
      simp only [SseServer.step, hphase] at ht
      cases ok with
      | true =>
        obtain rfl := Option.some.inj ht
        refine h.setConn hlater (hphase ▸ trivial) nofun fun _ => ?_
        rw [hphase]
        cases msg with
        | none => simp [Phase.taken]
        | some m => simp [Phase.taken]
      | false =>
        obtain rfl := Option.some.inj ht
        exact h.leave hlater Phase.not_serving_closing Phase.closing_ne_new (.inl rfl)
    | _ => simp [SseServer.step, hphase] at ht
  | finish c =>
    have hlater : ∀ d, later d (steps ++ [.finish c]) = later d steps :=
      fun d => later_append d steps _
    cases hphase : (s.conns c).phase with
    | closing =>
      simp only [SseServer.step, hphase] at ht
      obtain rfl := Option.some.inj ht
      exact h.leave hlater Phase.not_serving_closed Phase.closed_ne_new (.inr rfl)
    | _ => simp [SseServer.step, hphase] at ht
  | broadcast msg =>
    obtain rfl := Option.some.inj ht
    exact h.broadcast msg hroom

end Steps

/-! ## Every run -/

/-- As long as no broadcast finds the queue of a served client full, the list of clients and the
loops are in step. -/
theorem kept_of_room (steps : List (SseStep Client Msg)) (s : SseServer Client Msg)
    (hrun : exec SseServer.step .initial steps = some s)
    (hroom : Always SseServer.step Room .initial steps) : SseKept steps s := by
  refine (invariant (I := SseInv) ?_ ?_ hroom hrun).kept
  · exact ⟨List.nodup_nil, Nat.zero_le _, nofun, fun c hc => hc.elim, fun c hc => hc.elim⟩
  · exact fun _ _ _ _ h hP ht => h.next hP ht

/-- A client that reads the alerts as they come. -/
theorem kept_of_room_reader :
    ∃ s, exec SseServer.step (.initial : SseServer ℕ String)
        [.connect 1, .open 1 true, .broadcast "a", .get 1, .write 1 true] = some s ∧
      SseKept [.connect 1, .open 1 true, .broadcast "a", .get 1, .write 1 true] s := by
  refine ⟨_, rfl, kept_of_room _ _ rfl ?_⟩
  intro before step after hsteps s hbefore
  cases step with
  | broadcast msg =>
    -- The queue is empty when the alert is broadcast.
    have hprefix : before = [.connect 1, .open 1 true] := by
      rcases before with _ | ⟨a, _ | ⟨b, _ | ⟨c, _ | ⟨d, _ | ⟨e, before⟩⟩⟩⟩⟩
      all_goals simp_all
    subst hprefix
    obtain rfl := Option.some.inj hbefore
    intro c hc _
    obtain rfl := List.mem_singleton.mp hc
    rfl
  | _ => trivial

/-! ### A client that does not read -/

/-- The queue of a client that does not read holds what is broadcast. -/
theorem exec_broadcasts (msg : String) (n : ℕ) (hn : n ≤ SSE_QUEUE_SIZE) :
    ∃ s, exec SseServer.step (.initial : SseServer ℕ String)
        ([.connect 1, .open 1 true] ++ List.replicate n (.broadcast msg)) = some s ∧
      s.sseClients = [1] ∧ (s.conns 1).phase = .waiting ∧ (s.conns 1).queue.length = n := by
  induction n with
  | zero => exact ⟨_, rfl, rfl, rfl, rfl⟩
  | succ n ih =>
    obtain ⟨s, hrun, hclients, hphase, hlen⟩ := ih (by omega)
    have hroom : s.full 1 = false := by
      rw [SseServer.full, hlen]
      exact decide_eq_false (by omega)
    refine ⟨s.broadcast msg, ?_, ?_, ?_, ?_⟩
    · rw [List.replicate_succ', ← List.append_assoc]
      exact exec_append_singleton.mpr ⟨s, hrun, rfl⟩
    · rw [SseServer.broadcast, hclients]
      simp [hroom]
    · simp [SseServer.broadcast, hphase, hclients, hroom]
    · simp [SseServer.broadcast, hlen, hclients, hroom]

/-- After one alert more than its queue holds, the loop of the client goes on outside of the
list. -/
theorem exists_dropped :
    ∃ (steps : List (SseStep ℕ String)) (s : SseServer ℕ String),
      exec SseServer.step .initial steps = some s ∧ (s.conns 1).phase.Looping ∧
        s.sseClients = [] ∧ ¬ SseKept steps s := by
  obtain ⟨s, hrun, hclients, hphase, hlen⟩ := exec_broadcasts "alert" SSE_QUEUE_SIZE (Nat.le_refl _)
  have hfull : s.full 1 = true := by
    rw [SseServer.full, hlen]
    exact decide_eq_true (Nat.le_refl _)
  have hloop : ((s.broadcast "alert").conns 1).phase.Looping := by
    simp [SseServer.broadcast, hphase, hfull, Phase.Looping]
  have hnone : (s.broadcast "alert").sseClients = [] := by
    rw [SseServer.broadcast, hclients]
    simp [hfull]
  have hlast : s.step (.broadcast "alert") = some (s.broadcast "alert") := rfl
  refine ⟨_, _, exec_append_singleton.mpr ⟨s, hrun, hlast⟩, hloop, hnone, fun h => ?_⟩
  have hmem := h.registered 1 hloop
  rw [hnone] at hmem
  exact absurd hmem (List.not_mem_nil)

end ControlPlane.Ids
