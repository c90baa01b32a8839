import ControlPlane.Lib.Fanout
import ControlPlane.Lib.JsonText
import Mathlib.Data.Finset.Insert

/-!
# The hub of the agent

The event side of `main.go`. Two goroutines broadcast: `runBridge` what comes from the upstream
stream, and `runServiceHeartbeat` the state of the services, which it also keeps in `hbCache`.
`Hub.broadcast` goes round the clients with the lock held for reading, so that both can be under way
at once; it waits for no channel, and drops the message when the channel of a client is full. A
client of `/events` is registered first, is then written what is in `hbCache`, and from then on what
comes to its channel.

`stream_of_run` says what a client is written in any run, and that a client whose channel is never
found full misses nothing, whatever the other clients do. `current_of_run` says that a client sees
the current state of each service, unless the last heartbeat of the service was dropped.
-/

namespace ControlPlane.Ids.Hub

open JsonText Runs Fanout

/-- The capacity of the channels in `eventsHandler`. -/
def CHANNEL_SIZE : ℕ := 64

/-! ## Messages -/

/-- The goroutines that broadcast, `runBridge` and `runServiceHeartbeat`. -/
inductive Source where
  | bridge
  | heartbeats
  deriving DecidableEq

instance : Fintype Source where
  elems := {.bridge, .heartbeats}
  complete source := by cases source <;> decide

/-- A service in the answer of `/service-health`. -/
structure Service where
  name : String
  ip : String
  port : ℤ
  zone : String
  status : String

/-- The message about a service. -/
structure Heartbeat where
  type : String
  service : String
  zone : String
  status : String
  destIp : String
  timestamp : String
  method : String
  deriving DecidableEq

/-- The message that `emit` makes for a service. -/
def heartbeatOf (ts : String) (svc : Service) : Heartbeat where
  type := "heartbeat"
  service := svc.name
  zone := svc.zone
  status := svc.status
  destIp := svc.ip ++ ":" ++ toString svc.port
  timestamp := ts
  method := "flow-inference"

/-- What is broadcast: the data of a line of the upstream stream, or a heartbeat. -/
inductive Msg where
  | data (line : PyStr)
  | heartbeat (hb : Heartbeat)
  deriving DecidableEq

/-- The heartbeats among some messages. -/
def beats (msgs : List Msg) : List Heartbeat :=
  msgs.filterMap fun msg => match msg with
    | .heartbeat hb => some hb
    | .data _ => none

/-- The last heartbeat of a service. -/
def latest (name : String) (hbs : List Heartbeat) : Option Heartbeat :=
  (hbs.filter fun hb => hb.service = name).getLast?

/-- `cacheHeartbeat`. -/
def cacheHeartbeat (hbCache : List Heartbeat) (hb : Heartbeat) : List Heartbeat :=
  (hbCache.filter fun other => other.service ≠ hb.service) ++ [hb]

/-! ## The agent -/

/-- The keys of `wsClients` and `sseClients`. -/
inductive Subscriber (Conn Chan : Type) where
  | ws (c : Conn)
  | sse (ch : Chan)
  deriving DecidableEq

/-- A client of `/ws`. -/
def Subscriber.isWs {Conn Chan : Type} : Subscriber Conn Chan → Bool
  | .ws _ => true
  | .sse _ => false

/-- Where a handler of `/events` is. -/
inductive Phase where
  /-- The request has not come. -/
  | new
  /-- The client is registered, and has been written nothing. -/
  | opening
  /-- In the loop. -/
  | looping
  | closed
  deriving DecidableEq

/-- What is written to a client of `/events`. -/
inductive Frame where
  | connected
  | data (msg : Msg)
  | ping

/-- The messages in what is written. -/
def datas (written : List Frame) : List Msg :=
  written.filterMap fun frame => match frame with
    | .data msg => some msg
    | _ => none

/-- A handler of `/events`. -/
structure Handler where
  phase : Phase
  /-- The heartbeats that were written before the loop. -/
  replayed : List Heartbeat
  written : List Frame

/-- The state of the agent. -/
structure Agent (Conn Chan : Type) where
  hub : Group (Subscriber Conn Chan) Source Msg
  chans : Chan → Mailbox CHANNEL_SIZE (Source × Msg)
  handlers : Chan → Handler
  hbCache : List Heartbeat
  /-- The heartbeats of the last poll that are to be sent. -/
  services : List Heartbeat
  /-- The heartbeat that is in the cache and is not broadcast yet, or is being broadcast. -/
  current : Option Heartbeat

/-- What the goroutines do. -/
inductive AgentStep (Conn Chan : Type) where
  | addWS (c : Conn)
  | removeWS (c : Conn)
  | addSSE (ch : Chan)
  /-- The first line of the stream, and `heartbeatSnapshot` in the order of the map. -/
  | replay (ch : Chan) (out : List Heartbeat)
  /-- A message from the channel. -/
  | receive (ch : Chan)
  | ping (ch : Chan)
  /-- The request is done, and `removeSSE` is called. -/
  | done (ch : Chan)
  /-- The answer of `/service-health`. -/
  | poll (services : List Service) (ts : String)
  /-- `cacheHeartbeat`, for the next service. -/
  | cache
  /-- A broadcast of `consumeSSE` takes the lock, to go over both maps in an order. -/
  | relay (line : PyStr) (order : List (Subscriber Conn Chan))
  /-- A broadcast of `emit` takes the lock. -/
  | emit (hb : Heartbeat) (order : List (Subscriber Conn Chan))
  /-- A broadcast comes to the next client. -/
  | send (source : Source)
  /-- A broadcast is over. -/
  | unlock (source : Source)

variable {Conn Chan : Type}

/-- `broadcast` goes over `wsClients` before `sseClients`. -/
def WsFirst (order : List (Subscriber Conn Chan)) : Prop :=
  (order.map Subscriber.isWs).Pairwise (· ≥ ·)

instance (order : List (Subscriber Conn Chan)) : Decidable (WsFirst order) :=
  inferInstanceAs (Decidable (List.Pairwise _ _))

namespace Agent

/-- The agent when it starts. -/
def initial : Agent Conn Chan where
  hub := Group.empty
  chans _ := Mailbox.empty
  handlers _ := { phase := .new, replayed := [], written := [] }
  hbCache := []
  services := []
  current := none

variable [DecidableEq Chan]

/-- The agent with another handler for one client. -/
def setHandler (s : Agent Conn Chan) (ch : Chan) (h : Handler) : Agent Conn Chan :=
  { s with handlers := Function.update s.handlers ch h }

/-- `ch <- msg` where there is room. A write to a websocket waits for no one here. -/
def deliver (s : Agent Conn Chan) (source : Source) (msg : Msg) :
    Subscriber Conn Chan → Agent Conn Chan
  | .ws _ => s
  | .sse ch => { s with chans := Function.update s.chans ch ((s.chans ch).offer (source, msg)) }

variable [DecidableEq Conn]

/-- One step, where the goroutine that takes it is there. -/
def step (s : Agent Conn Chan) : AgentStep Conn Chan → Option (Agent Conn Chan)
  | .addWS c => (s.hub.step (.join (.ws c))).map fun hub => { s with hub := hub }
  | .removeWS c => (s.hub.step (.leave (.ws c))).map fun hub => { s with hub := hub }
  | .addSSE ch =>
    if (s.handlers ch).phase = .new then
      (s.hub.step (.join (.sse ch))).map fun hub =>
        { s.setHandler ch { phase := .opening, replayed := [], written := [] } with
          hub := hub
          chans := Function.update s.chans ch Mailbox.empty }
    else none
  | .replay ch out =>
    if (s.handlers ch).phase = .opening ∧ out.Perm s.hbCache then
      some (s.setHandler ch {
        phase := .looping
        replayed := out
        written := .connected :: out.map fun hb => .data (.heartbeat hb) })
    else none
  | .receive ch =>
    if (s.handlers ch).phase = .looping then
      (s.chans ch).take.map fun r =>
        { s.setHandler ch { s.handlers ch with
            written := (s.handlers ch).written ++ [.data r.1.2] } with
          chans := Function.update s.chans ch r.2 }
    else none
  | .ping ch =>
    if (s.handlers ch).phase = .looping then
      some (s.setHandler ch { s.handlers ch with written := (s.handlers ch).written ++ [.ping] })
    else none
  | .done ch =>
    if (s.handlers ch).phase = .looping then
      (s.hub.step (.leave (.sse ch))).map fun hub =>
        { s.setHandler ch { s.handlers ch with phase := .closed } with hub := hub }
    else none
  | .poll services ts =>
    if s.services = [] ∧ s.current = none then
      some { s with services := services.map (heartbeatOf ts) }
    else none
  | .cache =>
    match s.current, s.services with
    | none, hb :: rest => some { s with
        hbCache := cacheHeartbeat s.hbCache hb
        services := rest
        current := some hb }
    | _, _ => none
  | .relay line order =>
    if WsFirst order then
      (s.hub.step (.start .bridge (.data line) order)).map fun hub => { s with hub := hub }
    else none
  | .emit hb order =>
    if s.current = some hb ∧ WsFirst order then
      (s.hub.step (.start .heartbeats (.heartbeat hb) order)).map fun hub => { s with hub := hub }
    else none
  | .send source =>
    match s.hub.round source with
    | some (msg, m :: _) =>
      (s.hub.step (.offer source)).map fun hub => { s.deliver source msg m with hub := hub }
    | _ => none
  | .unlock source =>
    (s.hub.step (.finish source)).map fun hub => { s with
      hub := hub
      current := if source = .heartbeats then none else s.current }

end Agent

/-! ## The hub in a run -/

/-- What a step is for the hub. -/
def AgentStep.hub : AgentStep Conn Chan → Option (GroupStep (Subscriber Conn Chan) Source Msg)
  | .addWS c => some (.join (.ws c))
  | .removeWS c => some (.leave (.ws c))
  | .addSSE ch => some (.join (.sse ch))
  | .done ch => some (.leave (.sse ch))
  | .relay line order => some (.start .bridge (.data line) order)
  | .emit hb order => some (.start .heartbeats (.heartbeat hb) order)
  | .send source => some (.offer source)
  | .unlock source => some (.finish source)
  | _ => none

/-- What happens to the hub in a run. -/
def hubSteps (actions : List (AgentStep Conn Chan)) :
    List (GroupStep (Subscriber Conn Chan) Source Msg) := actions.filterMap AgentStep.hub

/-- What a goroutine has started to broadcast since a client was registered. -/
def broadcasts [DecidableEq Conn] [DecidableEq Chan] (m : Subscriber Conn Chan) (source : Source)
    (actions : List (AgentStep Conn Chan)) : List Msg := since m source (hubSteps actions)

variable [DecidableEq Conn] [DecidableEq Chan]

section Steps

variable {s s' : Agent Conn Chan}

/-- A step is a step of the hub, or leaves the hub as it is. -/
theorem Agent.hub_of_step {a : AgentStep Conn Chan} (h : s.step a = some s') :
    match a.hub with
    | some b => s.hub.step b = some s'.hub
    | none => s'.hub = s.hub := by
  cases a with
  | addWS c | removeWS c | unlock source =>
    obtain ⟨hub, hhub, rfl⟩ := Option.map_eq_some_iff.mp h
    exact hhub
  | addSSE ch | done ch | relay line order | emit hb order =>
    dsimp only [Agent.step] at h
    split_ifs at h
    obtain ⟨hub, hhub, rfl⟩ := Option.map_eq_some_iff.mp h
    exact hhub
  | replay ch out | ping ch | poll services ts =>
    dsimp only [Agent.step] at h
    split_ifs at h
    obtain rfl := Option.some.inj h
    rfl
  | receive ch =>
    dsimp only [Agent.step] at h
    split_ifs at h
    obtain ⟨r, -, rfl⟩ := Option.map_eq_some_iff.mp h
    rfl
  | cache =>
    dsimp only [Agent.step] at h
    split at h
    · obtain rfl := Option.some.inj h
      rfl
    · exact absurd h nofun
  | send source =>
    dsimp only [Agent.step] at h
    split at h
    · obtain ⟨hub, hhub, rfl⟩ := Option.map_eq_some_iff.mp h
      exact hhub
    · exact absurd h nofun

/-- The hub of a run is a group that has taken the steps of the run. -/
theorem Agent.exec_hub {actions : List (AgentStep Conn Chan)}
    (hrun : exec Agent.step .initial actions = some s) :
    exec Group.step .empty (hubSteps actions) = some s.hub :=
  exec_filterMap Agent.hub
    (fun s a s' b ha hb => by simpa [hb] using Agent.hub_of_step ha)
    (fun s a s' ha hb => by simpa [hb] using Agent.hub_of_step ha) hrun

end Steps

/-! ## What a client is written -/

@[simp] theorem datas_append (written more : List Frame) :
    datas (written ++ more) = datas written ++ datas more := List.filterMap_append

theorem datas_replay (out : List Heartbeat) :
    datas (.connected :: out.map fun hb => .data (.heartbeat hb)) = out.map Msg.heartbeat := by
  show (out.map _).filterMap _ = _
  rw [List.filterMap_map, ← List.filterMap_eq_map]
  rfl

/-- The client of a handler is registered. -/
def Agent.Serving (s : Agent Conn Chan) (ch : Chan) : Prop :=
  (s.handlers ch).phase = .opening ∨ (s.handlers ch).phase = .looping

/-- The channel and the handler of a client are in step with the hub. -/
structure Streams (s : Agent Conn Chan) (ch : Chan) : Prop where
  registered : .sse ch ∈ s.hub.members
  offered : (s.chans ch).offers.map Prod.fst = s.hub.log (.sse ch)
  written : datas (s.handlers ch).written =
    (s.handlers ch).replayed.map Msg.heartbeat ++ (s.chans ch).taken.map Prod.snd
  /-- A handler reads its channel in the loop only. -/
  unread : (s.handlers ch).phase = .opening → (s.chans ch).taken = []

section Steps

variable {s s' : Agent Conn Chan}

/-- A step leaves a client alone. -/
structure Alone (s s' : Agent Conn Chan) (ch : Chan) : Prop where
  mem : .sse ch ∈ s.hub.members → .sse ch ∈ s'.hub.members
  log : s'.hub.log (.sse ch) = s.hub.log (.sse ch)
  chan : s'.chans ch = s.chans ch
  handler : s'.handlers ch = s.handlers ch

omit [DecidableEq Conn] [DecidableEq Chan] in
/-- A step that leaves all clients but some alone, and keeps those in step. -/
theorem streams_of_alone (h : ∀ ch, s.Serving ch → Streams s ch) (touched : Chan → Prop)
    (halone : ∀ ch, ¬ touched ch → Alone s s' ch)
    (htouched : ∀ ch, touched ch → s'.Serving ch → Streams s' ch) :
    ∀ ch, s'.Serving ch → Streams s' ch := by
  intro ch hch
  by_cases ht : touched ch
  · exact htouched ch ht hch
  · obtain ⟨hmem, hlog, hchan, hhandler⟩ := halone ch ht
    rw [Agent.Serving, hhandler] at hch
    obtain ⟨hreg, hoffered, hwritten, hunread⟩ := h ch hch
    refine ⟨hmem hreg, ?_, ?_, ?_⟩
    · rw [hchan, hlog, hoffered]
    · rw [hchan, hhandler, hwritten]
    · rw [hchan, hhandler]
      exact hunread

omit [DecidableEq Conn] in
theorem Agent.handlers_setHandler_of_ne {ch d : Chan} (h : d ≠ ch) (handler : Handler) :
    (s.setHandler ch handler).handlers d = s.handlers d := Function.update_of_ne h _ _

omit [DecidableEq Conn] in
theorem Agent.handlers_setHandler_self (ch : Chan) (handler : Handler) :
    (s.setHandler ch handler).handlers ch = handler := Function.update_self _ _ _

omit [DecidableEq Conn] in
/-- A step of the handler of one client, which leaves the hub and the channels as they are. -/
theorem alone_setHandler {ch d : Chan} (h : ¬ d = ch) (handler : Handler) :
    Alone s (s.setHandler ch handler) d :=
  ⟨id, rfl, rfl, Agent.handlers_setHandler_of_ne h handler⟩

omit [DecidableEq Conn] [DecidableEq Chan] in
/-- A step that changes the hub only, and not what a client was offered. -/
theorem alone_hub {hub : Group (Subscriber Conn Chan) Source Msg} {ch : Chan}
    (hmem : .sse ch ∈ s.hub.members → .sse ch ∈ hub.members)
    (hlog : hub.log (.sse ch) = s.hub.log (.sse ch)) : Alone s { s with hub := hub } ch :=
  ⟨hmem, hlog, rfl, rfl⟩

omit [DecidableEq Conn] in
@[simp] theorem Agent.handlers_deliver (source : Source) (msg : Msg) (m : Subscriber Conn Chan) :
    (s.deliver source msg m).handlers = s.handlers := by
  cases m <;> rfl

omit [DecidableEq Conn] in
theorem Agent.chans_deliver_self (ch : Chan) (source : Source) (msg : Msg) :
    (s.deliver source msg (.sse ch)).chans ch = (s.chans ch).offer (source, msg) :=
  Function.update_self _ _ _

omit [DecidableEq Conn] in
theorem Agent.chans_deliver_of_ne {ch : Chan} {m : Subscriber Conn Chan} (h : .sse ch ≠ m)
    (source : Source) (msg : Msg) : (s.deliver source msg m).chans ch = s.chans ch := by
  cases m with
  | ws c => rfl
  | sse d => exact Function.update_of_ne (fun heq => h (congrArg _ heq)) _ _

/-- Each step keeps the channels and the handlers in step with the hub. -/
theorem streams_of_step {a : AgentStep Conn Chan} (h : ∀ ch, s.Serving ch → Streams s ch)
    (ha : s.step a = some s') : ∀ ch, s'.Serving ch → Streams s' ch := by
  have hne {c : Conn} {ch : Chan} : Subscriber.sse ch ≠ Subscriber.ws c :=
    fun h => by cases h
  cases a with
  | addWS c =>
    obtain ⟨hub, hhub, rfl⟩ := Option.map_eq_some_iff.mp ha
    obtain ⟨-, -, rfl⟩ := Group.step_join.mp hhub
    refine streams_of_alone h (fun _ => False) (fun ch _ => ?_) fun _ hf => hf.elim
    exact alone_hub (List.mem_append_left _) (Group.add_of_ne hne)
  | removeWS c =>
    obtain ⟨hub, hhub, rfl⟩ := Option.map_eq_some_iff.mp ha
    obtain ⟨-, rfl⟩ := Group.step_leave.mp hhub
    refine streams_of_alone h (fun _ => False) (fun ch _ => ?_) fun _ hf => hf.elim
    exact alone_hub (List.mem_erase_of_ne hne).mpr rfl
  | addSSE ch =>
    dsimp only [Agent.step] at ha
    split_ifs at ha with hnew
    obtain ⟨hub, hhub, rfl⟩ := Option.map_eq_some_iff.mp ha
    obtain ⟨-, -, rfl⟩ := Group.step_join.mp hhub
    refine streams_of_alone h (· = ch) (fun d hd => ?_) fun d hd _ => ?_
    · refine ⟨List.mem_append_left _, Group.add_of_ne fun heq => hd (Subscriber.sse.inj heq), ?_, ?_⟩
      · exact Function.update_of_ne hd _ _
      · exact Agent.handlers_setHandler_of_ne hd _
    · subst hd
      refine ⟨List.mem_append_right _ (List.mem_singleton_self _), ?_, ?_, fun _ => ?_⟩
      · simp [Mailbox.empty]
      · simp [Agent.setHandler, Mailbox.empty, datas]
      · simp [Mailbox.empty]
  | replay ch out =>
    dsimp only [Agent.step] at ha
    split_ifs at ha with hguard
    obtain rfl := Option.some.inj ha
    refine streams_of_alone h (· = ch) (fun d hd => alone_setHandler hd _) ?_
    rintro d rfl -
    obtain ⟨hreg, hoffered, -, hunread⟩ := h d (.inl hguard.1)
    refine ⟨hreg, hoffered, ?_, ?_⟩
    · rw [Agent.handlers_setHandler_self]
      show datas (.connected :: _) = _ ++ (s.chans d).taken.map Prod.snd
      rw [datas_replay, hunread hguard.1, List.map_nil, List.append_nil]
    · rw [Agent.handlers_setHandler_self]
      intro hopen
      cases hopen
  | receive ch =>
    dsimp only [Agent.step] at ha
    split_ifs at ha with hloop
    obtain ⟨⟨⟨source, msg⟩, box⟩, htake, rfl⟩ := Option.map_eq_some_iff.mp ha
    obtain ⟨-, htaken, hoffers⟩ := Mailbox.take_eq_some htake
    refine streams_of_alone h (· = ch) (fun d hd => ?_) ?_
    · exact ⟨id, rfl, Function.update_of_ne hd _ _, Agent.handlers_setHandler_of_ne hd _⟩
    · rintro d rfl -
      obtain ⟨hreg, hoffered, hwritten, -⟩ := h d (.inr hloop)
      refine ⟨hreg, ?_, ?_, ?_⟩
      · show ((Function.update s.chans d box) d).offers.map Prod.fst = _
        rw [Function.update_self, hoffers]
        exact hoffered
      · show datas ((s.setHandler d _).handlers d).written =
          ((s.setHandler d _).handlers d).replayed.map _ ++
            ((Function.update s.chans d box) d).taken.map _
        rw [Agent.handlers_setHandler_self, Function.update_self, htaken, datas_append, hwritten]
        simp [datas]
      · show ((s.setHandler d _).handlers d).phase = .opening → _
        rw [Agent.handlers_setHandler_self]
        intro hopen
        cases hloop.symm.trans hopen
  | ping ch =>
    dsimp only [Agent.step] at ha
    split_ifs at ha with hloop
    obtain rfl := Option.some.inj ha
    refine streams_of_alone h (· = ch) (fun d hd => alone_setHandler hd _) ?_
    rintro d rfl -
    obtain ⟨hreg, hoffered, hwritten, hunread⟩ := h d (.inr hloop)
    refine ⟨hreg, hoffered, ?_, ?_⟩
    · rw [Agent.handlers_setHandler_self, datas_append]
      exact (List.append_nil _).trans hwritten
    · rw [Agent.handlers_setHandler_self]
      exact hunread
  | done ch =>
    dsimp only [Agent.step] at ha
    split_ifs at ha with hloop
    obtain ⟨hub, hhub, rfl⟩ := Option.map_eq_some_iff.mp ha
    obtain ⟨-, rfl⟩ := Group.step_leave.mp hhub
    refine streams_of_alone h (· = ch) (fun d hd => ?_) ?_
    · refine ⟨fun hm => ?_, rfl, rfl, Agent.handlers_setHandler_of_ne hd _⟩
      exact (List.mem_erase_of_ne fun heq => hd (Subscriber.sse.inj heq)).mpr hm
    · rintro d rfl hserving
      simp [Agent.Serving, Agent.setHandler] at hserving
  | poll services ts =>
    dsimp only [Agent.step] at ha
    split_ifs at ha
    obtain rfl := Option.some.inj ha
    exact streams_of_alone h (fun _ => False) (fun ch _ => ⟨id, rfl, rfl, rfl⟩)
      fun _ hf => hf.elim
  | cache =>
    dsimp only [Agent.step] at ha
    split at ha
    · obtain rfl := Option.some.inj ha
      exact streams_of_alone h (fun _ => False) (fun ch _ => ⟨id, rfl, rfl, rfl⟩)
        fun _ hf => hf.elim
    · cases ha
  | relay line order =>
    dsimp only [Agent.step] at ha
    split_ifs at ha
    obtain ⟨hub, hhub, rfl⟩ := Option.map_eq_some_iff.mp ha
    obtain ⟨-, -, rfl⟩ := Group.step_start.mp hhub
    exact streams_of_alone h (fun _ => False) (fun ch _ => ⟨id, rfl, rfl, rfl⟩)
      fun _ hf => hf.elim
  | emit hb order =>
    dsimp only [Agent.step] at ha
    split_ifs at ha
    obtain ⟨hub, hhub, rfl⟩ := Option.map_eq_some_iff.mp ha
    obtain ⟨-, -, rfl⟩ := Group.step_start.mp hhub
    exact streams_of_alone h (fun _ => False) (fun ch _ => ⟨id, rfl, rfl, rfl⟩)
      fun _ hf => hf.elim
  | send source =>
    dsimp only [Agent.step] at ha
    split at ha
    next msg m rest hround =>
      obtain ⟨hub, hhub, rfl⟩ := Option.map_eq_some_iff.mp ha
      obtain ⟨msg', m', rest', hround', rfl⟩ := Group.step_offer.mp hhub
      obtain ⟨rfl, hcons⟩ := Prod.mk.inj (Option.some.inj (hround.symm.trans hround'))
      obtain ⟨rfl, rfl⟩ := List.cons.inj hcons
      refine streams_of_alone h (fun d => .sse d = m) (fun d hd => ?_) ?_
      · exact ⟨id, Group.record_of_ne hd _ _, Agent.chans_deliver_of_ne hd _ _,
          congrFun (Agent.handlers_deliver _ _ _) d⟩
      · rintro d rfl hserving
        obtain ⟨hreg, hoffered, hwritten, hunread⟩ := h d hserving
        have hchan := Agent.chans_deliver_self (s := s) d source msg
        refine ⟨hreg, ?_, ?_, ?_⟩
        · show ((s.deliver source msg (.sse d)).chans d).offers.map Prod.fst =
            (s.hub.record (.sse d) source msg).log (.sse d)
          rw [hchan, Mailbox.offers_offer, Group.record_self, List.map_append, hoffered]
          rfl
        · show datas (s.handlers d).written = _ ++ ((s.deliver source msg (.sse d)).chans d).taken.map _
          rw [hchan, Mailbox.taken_offer]
          exact hwritten
        · show _ → ((s.deliver source msg (.sse d)).chans d).taken = []
          rw [hchan, Mailbox.taken_offer]
          exact hunread
    next => cases ha
  | unlock source =>
    obtain ⟨hub, hhub, rfl⟩ := Option.map_eq_some_iff.mp ha
    obtain ⟨-, rfl⟩ := Group.step_finish.mp hhub
    exact streams_of_alone h (fun _ => False) (fun ch _ => ⟨id, rfl, rfl, rfl⟩)
      fun _ hf => hf.elim

/-- The clients of a run are in step with the hub. -/
theorem streams_of_run {actions : List (AgentStep Conn Chan)}
    (hrun : exec Agent.step .initial actions = some s) {ch : Chan} (hch : s.Serving ch) :
    Streams s ch := by
  have hinitial : ∀ ch, (Agent.initial : Agent Conn Chan).Serving ch →
      Streams (Agent.initial : Agent Conn Chan) ch := by
    intro ch hserving
    simp [Agent.Serving, Agent.initial] at hserving
  exact invariant (I := fun _ s => ∀ ch, s.Serving ch → Streams s ch) (P := fun _ _ => True)
    hinitial (fun _ _ _ _ h _ ha => streams_of_step h ha) (always_of_forall fun _ _ _ => trivial)
    hrun ch hch

/-- A broadcast that comes to a client finds room in its channel. -/
def Room (ch : Chan) (s : Agent Conn Chan) : AgentStep Conn Chan → Prop
  | .send source => ∀ msg rest, s.hub.round source = some (msg, .sse ch :: rest) →
      (s.chans ch).queue.length < CHANNEL_SIZE
  | _ => True

/-- Where a client has room, nothing that came to it was refused. -/
theorem accepted_of_step {ch : Chan} {a : AgentStep Conn Chan} (hroom : Room ch s a)
    (h : ∀ o ∈ (s.chans ch).offers, o.2 = true) (ha : s.step a = some s') :
    ∀ o ∈ (s'.chans ch).offers, o.2 = true := by
  cases a with
  | addWS c | removeWS c | unlock source =>
    obtain ⟨hub, -, rfl⟩ := Option.map_eq_some_iff.mp ha
    exact h
  | addSSE d =>
    dsimp only [Agent.step] at ha
    split_ifs at ha
    obtain ⟨hub, -, rfl⟩ := Option.map_eq_some_iff.mp ha
    show ∀ o ∈ ((Function.update s.chans d Mailbox.empty) ch).offers, _
    by_cases hd : ch = d
    · rw [hd, Function.update_self]
      nofun
    · rw [Function.update_of_ne hd]
      exact h
  | receive d =>
    dsimp only [Agent.step] at ha
    split_ifs at ha
    obtain ⟨⟨msg, box⟩, htake, rfl⟩ := Option.map_eq_some_iff.mp ha
    show ∀ o ∈ ((Function.update s.chans d box) ch).offers, _
    by_cases hd : ch = d
    · rw [hd, Function.update_self, (Mailbox.take_eq_some htake).2.2, ← hd]
      exact h
    · rw [Function.update_of_ne hd]
      exact h
  | done d | relay line order | emit hb order =>
    dsimp only [Agent.step] at ha
    split_ifs at ha
    obtain ⟨hub, -, rfl⟩ := Option.map_eq_some_iff.mp ha
    exact h
  | replay d out | ping d | poll services ts =>
    dsimp only [Agent.step] at ha
    split_ifs at ha
    obtain rfl := Option.some.inj ha
    exact h
  | cache =>
    dsimp only [Agent.step] at ha
    split at ha
    · obtain rfl := Option.some.inj ha
      exact h
    · exact absurd ha nofun
  | send source =>
    dsimp only [Agent.step] at ha
    split at ha
    next msg m rest hround =>
      obtain ⟨hub, -, rfl⟩ := Option.map_eq_some_iff.mp ha
      show ∀ o ∈ ((s.deliver source msg m).chans ch).offers, _
      by_cases hm : .sse ch = m
      · subst hm
        have hlt : (s.chans ch).queue.length < CHANNEL_SIZE := hroom msg rest hround
        intro o ho
        rw [Agent.chans_deliver_self, Mailbox.offers_offer, List.mem_append] at ho
        rcases ho with ho | ho
        · exact h o ho
        · rw [List.mem_singleton.mp ho]
          exact decide_eq_true hlt
      · rw [Agent.chans_deliver_of_ne hm]
        exact h
    next => exact absurd ha nofun

/-- In any run, a client of `/events` is written the heartbeats that were in the cache and then what
it has read from its channel, which holds at most 64 messages more. Of each goroutine, what comes
through the channel is a part of what was broadcast since the client was registered, in the same
order and nothing twice; and it is all of it when the channel of this client was never found full,
but for a message that is being broadcast and has not come to the client yet. -/
theorem stream_of_run {actions : List (AgentStep Conn Chan)}
    (hrun : exec Agent.step .initial actions = some s) {ch : Chan} (hch : s.Serving ch)
    (source : Source) :
    datas (s.handlers ch).written =
        (s.handlers ch).replayed.map Msg.heartbeat ++ (s.chans ch).taken.map Prod.snd ∧
      (s.chans ch).queue.length ≤ CHANNEL_SIZE ∧
      (of source ((s.chans ch).taken ++ (s.chans ch).queue)).Sublist
        (broadcasts (.sse ch) source actions) ∧
      (Always Agent.step (Room ch) .initial actions →
        of source ((s.chans ch).taken ++ (s.chans ch).queue) ++ s.hub.pending source (.sse ch) =
          broadcasts (.sse ch) source actions) := by
  obtain ⟨hreg, hoffered, hwritten, -⟩ := streams_of_run hrun hch
  have hall := delivered (Agent.exec_hub hrun) hreg source
  rw [← hoffered] at hall
  change _ = broadcasts (.sse ch) source actions at hall
  refine ⟨hwritten, (s.chans ch).bounded, ?_, fun hroom => ?_⟩
  · have hpart := of_sublist (p := source) (s.chans ch).sublist
    rw [← hall]
    exact hpart.trans (List.sublist_append_left _ _)
  · have hnone : ∀ o ∈ ((Agent.initial : Agent Conn Chan).chans ch).offers, o.2 = true :=
      fun o ho => absurd ho List.not_mem_nil
    have hkept : ∀ o ∈ (s.chans ch).offers, o.2 = true :=
      invariant (I := fun _ s => ∀ o ∈ (Agent.chans s ch).offers, o.2 = true) hnone
        (fun _ _ _ _ h hP ha => accepted_of_step hP h ha) hroom hrun
    rw [Mailbox.eq_of_forall hkept]
    exact hall

/-- A run in which a client reads the first of two lines. -/
def lineRun : List (AgentStep ℕ ℕ) := [
  .addWS 7, .addSSE 1, .replay 1 [], .relay [97] [.ws 7, .sse 1], .send .bridge, .send .bridge,
  .unlock .bridge, .receive 1, .relay [98] [.ws 7, .sse 1]]

theorem stream_of_lineRun :
    ∃ s, exec Agent.step .initial lineRun = some s ∧ datas (s.handlers 1).written = [.data [97]] ∧
      of .bridge ((s.chans 1).taken ++ (s.chans 1).queue) ++ s.hub.pending .bridge (.sse 1) =
        broadcasts (.sse 1) .bridge lineRun := by
  have hrun : exec Agent.step .initial lineRun = some _ := rfl
  have hstream := stream_of_run hrun (show Agent.Serving _ 1 from .inr rfl) .bridge
  exact ⟨_, hrun, hstream.1, rfl⟩

end Steps

/-! ## The state of the services -/

@[simp] theorem beats_append (msgs more : List Msg) :
    beats (msgs ++ more) = beats msgs ++ beats more := List.filterMap_append

@[simp] theorem beats_map_heartbeat (hbs : List Heartbeat) :
    beats (hbs.map Msg.heartbeat) = hbs := by
  simp [beats, List.filterMap_map]

theorem latest_append (name : String) (hbs more : List Heartbeat) :
    latest name (hbs ++ more) = (latest name more).or (latest name hbs) := by
  rw [latest, List.filter_append, List.getLast?_append]
  rfl

theorem latest_cacheHeartbeat (name : String) (hbCache : List Heartbeat) (hb : Heartbeat) :
    latest name (cacheHeartbeat hbCache hb) =
      if hb.service = name then some hb else latest name hbCache := by
  rw [cacheHeartbeat, latest_append]
  by_cases h : hb.service = name
  · simp [latest, h]
  · have hkept : (hbCache.filter fun other => other.service ≠ hb.service).filter
        (fun other => other.service = name) = hbCache.filter fun other => other.service = name := by
      rw [List.filter_filter]
      refine List.filter_congr fun other _ => ?_
      by_cases hname : other.service = name
      · simp [hname, Ne.symm h]
      · simp [hname]
    rw [if_neg h, latest, latest, hkept]
    simp [h, latest]

theorem nodup_cacheHeartbeat {hbCache : List Heartbeat} (hb : Heartbeat)
    (h : (hbCache.map Heartbeat.service).Nodup) :
    ((cacheHeartbeat hbCache hb).map Heartbeat.service).Nodup := by
  rw [cacheHeartbeat, List.map_append, List.nodup_append]
  refine ⟨h.sublist (List.filter_sublist.map _), List.nodup_singleton _, ?_⟩
  intro a ha b hb' hab
  obtain ⟨other, hother, rfl⟩ := List.mem_map.mp ha
  obtain rfl := List.mem_singleton.mp hb'
  simp [hab] at hother

/-- With one heartbeat for each service, the order says nothing. -/
theorem latest_perm {name : String} {hbs out : List Heartbeat} (hperm : out.Perm hbs)
    (h : (hbs.map Heartbeat.service).Nodup) : latest name out = latest name hbs := by
  have hfilter := hperm.filter fun hb => decide (hb.service = name)
  have hlen : (hbs.filter fun hb => hb.service = name).length ≤ 1 := by
    have hnd : ((hbs.filter fun hb => hb.service = name).map Heartbeat.service).Nodup :=
      h.sublist (List.filter_sublist.map _)
    have hrep : (hbs.filter fun hb => hb.service = name).map Heartbeat.service =
        List.replicate (hbs.filter fun hb => hb.service = name).length name := by
      refine List.eq_replicate_iff.mpr ⟨List.length_map _, ?_⟩
      intro a ha
      obtain ⟨hb, hmem, rfl⟩ := List.mem_map.mp ha
      simpa using (List.mem_filter.mp hmem).2
    rw [hrep] at hnd
    exact List.nodup_replicate.mp hnd
  rw [latest, latest]
  generalize (hbs.filter fun hb => decide (hb.service = name)) = l at hfilter hlen
  match l, hlen with
  | [], _ => rw [hfilter.eq_nil]
  | [hb], _ => rw [List.perm_singleton.mp hfilter]

/-- The last heartbeat of a service that came to a channel, and whether there was room for it. -/
def lastOffer (name : String) (offers : List ((Source × Msg) × Bool)) : Option (Heartbeat × Bool) :=
  (offers.filterMap fun o => match o.1.2 with
    | .heartbeat hb => if hb.service = name then some (hb, o.2) else none
    | .data _ => none).getLast?

theorem lastOffer_data (name : String) (offers : List ((Source × Msg) × Bool)) (source : Source)
    (line : PyStr) (room : Bool) :
    lastOffer name (offers ++ [((source, .data line), room)]) = lastOffer name offers := by
  simp [lastOffer]

theorem lastOffer_heartbeat (name : String) (offers : List ((Source × Msg) × Bool))
    (source : Source) (hb : Heartbeat) (room : Bool) :
    lastOffer name (offers ++ [((source, .heartbeat hb), room)]) =
      if hb.service = name then some (hb, room) else lastOffer name offers := by
  by_cases h : hb.service = name
  · simp [lastOffer, h]
  · simp [lastOffer, h]

/-- The last heartbeat of a service that came is the last one that got through, unless it was
refused. -/
theorem latest_accepted (name : String) (offers : List ((Source × Msg) × Bool)) :
    (∃ hb, lastOffer name offers = some (hb, false)) ∨
      latest name (beats (((offers.filter Prod.snd).map Prod.fst).map Prod.snd)) =
        (lastOffer name offers).map Prod.fst := by
  induction offers using List.reverseRecOn with
  | nil => exact .inr rfl
  | append_singleton offers o ih =>
    obtain ⟨⟨source, msg⟩, room⟩ := o
    cases msg with
    | data line =>
      rw [lastOffer_data]
      refine ih.imp id fun h => ?_
      rw [← h]
      cases room
      · simp
      · simp [beats]
    | heartbeat hb =>
      rw [lastOffer_heartbeat]
      by_cases hname : hb.service = name
      · rw [if_pos hname]
        cases room
        · exact .inl ⟨hb, rfl⟩
        · refine .inr ?_
          simp [beats, latest, hname]
      · rw [if_neg hname]
        refine ih.imp id fun h => ?_
        rw [← h]
        cases room
        · simp
        · have hlast : latest name [hb] = none := by simp [latest, hname]
          have hbeats : beats [.heartbeat hb] = [hb] := rfl
          simp only [List.filter_append, List.map_append, beats_append, latest_append]
          simp [hbeats, hlast]

/-- A heartbeat of the service is in the cache and has not come to the client yet. -/
def Agent.Due (s : Agent Conn Chan) (ch : Chan) (name : String) : Prop :=
  ∃ hb, s.current = some hb ∧ hb.service = name ∧
    ∀ msg todo, s.hub.round .heartbeats = some (msg, todo) → .sse ch ∈ todo

/-- What a client has been sent of a service is what the cache has. -/
def Agent.Sent (s : Agent Conn Chan) (ch : Chan) (name : String) : Prop :=
  match lastOffer name (s.chans ch).offers with
  | some (hb, _) => latest name s.hbCache = some hb
  | none => (s.handlers ch).phase = .looping →
      latest name (s.handlers ch).replayed = latest name s.hbCache

/-- The cache, the heartbeat that is being sent, and what the clients were sent. -/
structure Fresh (s : Agent Conn Chan) : Prop where
  distinct : (s.hbCache.map Heartbeat.service).Nodup
  cached : ∀ hb, s.current = some hb → latest hb.service s.hbCache = some hb
  sending : ∀ msg todo, s.hub.round .heartbeats = some (msg, todo) →
    ∃ hb, s.current = some hb ∧ msg = .heartbeat hb
  relaying : ∀ msg todo, s.hub.round .bridge = some (msg, todo) → ∃ line, msg = .data line
  sent : ∀ ch, s.Serving ch → ∀ name, ¬ s.Due ch name → s.Sent ch name

section Steps

variable {s s' : Agent Conn Chan}

omit [DecidableEq Conn] [DecidableEq Chan] in
/-- A step that has no part in the heartbeats. -/
theorem Fresh.congr (h : Fresh s) (hround : s'.hub.round = s.hub.round)
    (hcache : s'.hbCache = s.hbCache) (hcurrent : s'.current = s.current)
    (hsent : ∀ ch, s'.Serving ch → ∀ name,
      s.Serving ch ∧ (s.Sent ch name → s'.Sent ch name) ∨ s'.Sent ch name) : Fresh s' := by
  obtain ⟨hdistinct, hcached, hsending, hrelaying, hbefore⟩ := h
  rw [← hcache] at hdistinct hcached
  rw [← hcurrent] at hcached hsending
  rw [← hround] at hsending hrelaying
  refine ⟨hdistinct, hcached, hsending, hrelaying, fun ch hch name hdue => ?_⟩
  rcases hsent ch hch name with ⟨hserving, hkeep⟩ | hnew
  · rw [Agent.Due, hround, hcurrent] at hdue
    exact hkeep (hbefore ch hserving name hdue)
  · exact hnew

omit [DecidableEq Conn] [DecidableEq Chan] in
/-- What was sent of a service depends on what came to the channel and on what was replayed. -/
theorem sent_congr {ch : Chan} {name : String} (h : s.Sent ch name)
    (hoffers : lastOffer name (s'.chans ch).offers = lastOffer name (s.chans ch).offers)
    (hhandler : (s'.handlers ch).phase = (s.handlers ch).phase ∧
      (s'.handlers ch).replayed = (s.handlers ch).replayed)
    (hcache : latest name s'.hbCache = latest name s.hbCache) : s'.Sent ch name := by
  rw [Agent.Sent, hoffers, hhandler.1, hhandler.2, hcache]
  exact h

omit [DecidableEq Conn] [DecidableEq Chan] in
theorem same_handler {ch : Chan} (h : s'.handlers ch = s.handlers ch) :
    (s'.handlers ch).phase = (s.handlers ch).phase ∧
      (s'.handlers ch).replayed = (s.handlers ch).replayed := by
  rw [h]
  exact ⟨rfl, rfl⟩

omit [DecidableEq Conn] in
/-- A step of the handler of one client. -/
theorem Fresh.setHandler (h : Fresh s) {ch : Chan} {handler : Handler} (hch : s.Serving ch)
    (hsent : ∀ name, s.Sent ch name → (s.setHandler ch handler).Sent ch name) :
    Fresh (s.setHandler ch handler) := by
  refine h.congr rfl rfl rfl fun d hd name => .inl ?_
  by_cases hdc : d = ch
  · subst hdc
    exact ⟨hch, hsent name⟩
  · have hhandler := Agent.handlers_setHandler_of_ne (s := s) hdc handler
    rw [Agent.Serving, hhandler] at hd
    exact ⟨hd, fun hs => sent_congr hs rfl (same_handler hhandler) rfl⟩

omit [DecidableEq Conn] [DecidableEq Chan] in
theorem round_heartbeats (g : Group (Subscriber Conn Chan) Source Msg)
    (r : Option (Msg × List (Subscriber Conn Chan))) :
    (g.setRound .bridge r).round .heartbeats = g.round .heartbeats :=
  Group.setRound_of_ne (by decide) r

omit [DecidableEq Conn] [DecidableEq Chan] in
theorem round_bridge (g : Group (Subscriber Conn Chan) Source Msg)
    (r : Option (Msg × List (Subscriber Conn Chan))) :
    (g.setRound .heartbeats r).round .bridge = g.round .bridge :=
  Group.setRound_of_ne (by decide) r

omit [DecidableEq Conn] in
@[simp] theorem deliver_hbCache (source : Source) (msg : Msg) (m : Subscriber Conn Chan) :
    (s.deliver source msg m).hbCache = s.hbCache := by
  cases m <;> rfl

omit [DecidableEq Conn] in
@[simp] theorem deliver_current (source : Source) (msg : Msg) (m : Subscriber Conn Chan) :
    (s.deliver source msg m).current = s.current := by
  cases m <;> rfl

/-- A client was sent what it was before, and nothing about the service. -/
theorem sent_deliver {ch : Chan} {name : String} (h : s.Sent ch name) {source : Source} {msg : Msg}
    {m : Subscriber Conn Chan} {hub : Group (Subscriber Conn Chan) Source Msg}
    (hother : .sse ch = m → ∀ hb, msg = .heartbeat hb → hb.service ≠ name) :
    ({ s.deliver source msg m with hub := hub } : Agent Conn Chan).Sent ch name := by
  refine sent_congr h ?_ (same_handler (congrFun (Agent.handlers_deliver source msg m) ch)) ?_
  · show lastOffer name ((s.deliver source msg m).chans ch).offers = _
    by_cases hm : .sse ch = m
    · rw [← hm, Agent.chans_deliver_self, Mailbox.offers_offer]
      cases msg with
      | data line => exact lastOffer_data name _ source line _
      | heartbeat hb => rw [lastOffer_heartbeat, if_neg (hother hm hb rfl)]
    · rw [Agent.chans_deliver_of_ne hm]
  · exact congrArg (latest name) (deliver_hbCache source msg m)

/-- A broadcast comes to a client. -/
theorem Fresh.send (h : Fresh s) {source : Source} {msg : Msg} {m : Subscriber Conn Chan}
    {rest : List (Subscriber Conn Chan)} (hnodup : (m :: rest).Nodup)
    (hround : s.hub.round source = some (msg, m :: rest)) :
    Fresh { s.deliver source msg m with
      hub := (s.hub.record m source msg).setRound source (some (msg, rest)) } := by
  have hcache := deliver_hbCache (s := s) source msg m
  have hcurrent := deliver_current (s := s) source msg m
  have hserving (ch : Chan) (hch : ({ s.deliver source msg m with
      hub := (s.hub.record m source msg).setRound source (some (msg, rest)) } :
        Agent Conn Chan).Serving ch) : s.Serving ch := by
    have hhandlers := congrFun (Agent.handlers_deliver (s := s) source msg m) ch
    rw [Agent.Serving, ← hhandlers]
    exact hch
  cases source with
  | bridge =>
    obtain ⟨line, rfl⟩ := h.relaying msg _ hround
    refine ⟨?_, ?_, ?_, ?_, fun ch hch name hdue => ?_⟩
    · rw [hcache]
      exact h.distinct
    · rw [hcache, hcurrent]
      exact h.cached
    · rw [hcurrent, round_heartbeats]
      exact h.sending
    · intro msg todo hmsg
      rw [Group.setRound_self] at hmsg
      exact ⟨line, (Prod.mk.inj (Option.some.inj hmsg)).1.symm⟩
    · rw [Agent.Due, hcurrent, round_heartbeats] at hdue
      exact sent_deliver (h.sent ch (hserving ch hch) name hdue) nofun
  | heartbeats =>
    obtain ⟨hb, hsome, rfl⟩ := h.sending msg _ hround
    refine ⟨?_, ?_, ?_, ?_, fun ch hch name hdue => ?_⟩
    · rw [hcache]
      exact h.distinct
    · rw [hcache, hcurrent]
      exact h.cached
    · intro msg todo hmsg
      rw [Group.setRound_self] at hmsg
      exact ⟨hb, hcurrent.trans hsome, (Prod.mk.inj (Option.some.inj hmsg)).1.symm⟩
    · rw [round_bridge]
      exact h.relaying
    · by_cases hname : hb.service = name ∧ .sse ch = m
      · -- The heartbeat that comes to the client is the one in the cache.
        obtain ⟨hname, rfl⟩ := hname
        have hlast : lastOffer name ((s.deliver .heartbeats (.heartbeat hb) (.sse ch)).chans ch).offers
            = some (hb, decide ((s.chans ch).queue.length < CHANNEL_SIZE)) := by
          rw [Agent.chans_deliver_self, Mailbox.offers_offer, lastOffer_heartbeat, if_pos hname]
        rw [Agent.Sent, hlast, ← hname]
        exact h.cached hb hsome
      · refine sent_deliver (h.sent ch (hserving ch hch) name fun hbefore => hdue ?_) ?_
        · obtain ⟨other, hother, hservice, hall⟩ := hbefore
          obtain rfl := Option.some.inj (hsome.symm.trans hother)
          refine ⟨hb, hcurrent.trans hsome, hservice, fun msg todo hmsg => ?_⟩
          rw [Group.setRound_self] at hmsg
          rw [← (Prod.mk.inj (Option.some.inj hmsg)).2]
          have hmem := hall _ _ hround
          exact (List.mem_cons.mp hmem).resolve_left fun hm => hname ⟨hservice, hm⟩
        · rintro hm other ⟨⟩ hservice
          exact hname ⟨hservice, hm⟩

/-- Each step keeps the clients up to date. -/
theorem fresh_of_step {a : AgentStep Conn Chan} (hstreams : ∀ ch, s.Serving ch → Streams s ch)
    (hnodup : ∀ source msg todo, s.hub.round source = some (msg, todo) → todo.Nodup)
    (h : Fresh s) (ha : s.step a = some s') : Fresh s' := by
  cases a with
  | addWS c =>
    obtain ⟨hub, hhub, rfl⟩ := Option.map_eq_some_iff.mp ha
    obtain ⟨-, -, rfl⟩ := Group.step_join.mp hhub
    exact h.congr rfl rfl rfl fun ch hch name => .inl ⟨hch, id⟩
  | removeWS c =>
    obtain ⟨hub, hhub, rfl⟩ := Option.map_eq_some_iff.mp ha
    obtain ⟨-, rfl⟩ := Group.step_leave.mp hhub
    exact h.congr rfl rfl rfl fun ch hch name => .inl ⟨hch, id⟩
  | addSSE ch =>
    dsimp only [Agent.step] at ha
    split_ifs at ha with hnew
    obtain ⟨hub, hhub, rfl⟩ := Option.map_eq_some_iff.mp ha
    obtain ⟨-, -, rfl⟩ := Group.step_join.mp hhub
    refine h.congr rfl rfl rfl fun d hd name => ?_
    by_cases hdc : d = ch
    · subst hdc
      refine .inr ?_
      simp [Agent.Sent, Agent.setHandler, lastOffer, Mailbox.empty]
    · have hhandler := Agent.handlers_setHandler_of_ne (s := s) hdc ⟨.opening, [], []⟩
      have hchan : Function.update s.chans ch Mailbox.empty d = s.chans d :=
        Function.update_of_ne hdc _ _
      refine .inl ⟨?_, fun hs => sent_congr hs ?_ (same_handler hhandler) rfl⟩
      · rw [Agent.Serving, ← hhandler]
        exact hd
      · exact congrArg (lastOffer name ·.offers) hchan
  | replay ch out =>
    dsimp only [Agent.step] at ha
    split_ifs at ha with hguard
    obtain rfl := Option.some.inj ha
    refine h.setHandler (.inl hguard.1) fun name hs => ?_
    have hchans (handler : Handler) : (s.setHandler ch handler).chans = s.chans := rfl
    rw [Agent.Sent] at hs
    rw [Agent.Sent, hchans]
    cases hlast : lastOffer name (s.chans ch).offers with
    | some o =>
      rw [hlast] at hs
      exact hs
    | none =>
      -- Nothing came through the channel, and what is replayed is the cache.
      intro _
      rw [Agent.handlers_setHandler_self]
      exact latest_perm hguard.2 h.distinct
  | receive ch =>
    dsimp only [Agent.step] at ha
    split_ifs at ha with hloop
    obtain ⟨⟨msg, box⟩, htake, rfl⟩ := Option.map_eq_some_iff.mp ha
    refine h.congr rfl rfl rfl fun d hd name => .inl ?_
    by_cases hdc : d = ch
    · subst hdc
      have hoffers : (Function.update s.chans d box d).offers = (s.chans d).offers := by
        rw [Function.update_self, (Mailbox.take_eq_some htake).2.2]
      refine ⟨.inr hloop, fun hs => sent_congr hs (congrArg (lastOffer name) hoffers) ?_ rfl⟩
      simp [Agent.setHandler]
    · have hhandler := Agent.handlers_setHandler_of_ne (s := s) hdc
        { s.handlers ch with written := (s.handlers ch).written ++ [.data msg.2] }
      have hchan : Function.update s.chans ch box d = s.chans d := Function.update_of_ne hdc _ _
      refine ⟨?_, fun hs => sent_congr hs ?_ (same_handler hhandler) rfl⟩
      · rw [Agent.Serving, ← hhandler]
        exact hd
      · exact congrArg (lastOffer name ·.offers) hchan
  | ping ch =>
    dsimp only [Agent.step] at ha
    split_ifs at ha with hloop
    obtain rfl := Option.some.inj ha
    refine h.setHandler (.inr hloop) fun name hs => sent_congr hs rfl ?_ rfl
    rw [Agent.handlers_setHandler_self]
    exact ⟨rfl, rfl⟩
  | done ch =>
    dsimp only [Agent.step] at ha
    split_ifs at ha with hloop
    obtain ⟨hub, hhub, rfl⟩ := Option.map_eq_some_iff.mp ha
    obtain ⟨-, rfl⟩ := Group.step_leave.mp hhub
    refine h.congr rfl rfl rfl fun d hd name => .inl ?_
    by_cases hdc : d = ch
    · subst hdc
      simp [Agent.Serving, Agent.setHandler] at hd
    · have hhandler := Agent.handlers_setHandler_of_ne (s := s) hdc
        { s.handlers ch with phase := .closed }
      refine ⟨?_, fun hs => sent_congr hs rfl (same_handler hhandler) rfl⟩
      rw [Agent.Serving, ← hhandler]
      exact hd
  | poll services ts =>
    dsimp only [Agent.step] at ha
    split_ifs at ha
    obtain rfl := Option.some.inj ha
    exact h.congr rfl rfl rfl fun ch hch name => .inl ⟨hch, id⟩
  | cache =>
    dsimp only [Agent.step] at ha
    split at ha
    next hb rest hnone hservices =>
      obtain rfl := Option.some.inj ha
      have hidle (msg todo) : s.hub.round .heartbeats ≠ some (msg, todo) := by
        intro hround
        obtain ⟨hb, hcurrent, -⟩ := h.sending msg todo hround
        cases hnone.symm.trans hcurrent
      refine ⟨nodup_cacheHeartbeat hb h.distinct, ?_, ?_, h.relaying, fun ch hch name hdue => ?_⟩
      · rintro _ ⟨⟩
        rw [latest_cacheHeartbeat, if_pos rfl]
      · exact fun msg todo hround => absurd hround (hidle msg todo)
      · -- The heartbeat of this service is due from now on, and the others are as they were.
        have hname : ¬ hb.service = name := fun hname =>
          hdue ⟨hb, rfl, hname, fun msg todo hround => absurd hround (hidle msg todo)⟩
        have hbefore : ¬ s.Due ch name := by
          rintro ⟨other, hcurrent, -⟩
          cases hnone.symm.trans hcurrent
        refine sent_congr (h.sent ch hch name hbefore) rfl ⟨rfl, rfl⟩ ?_
        rw [latest_cacheHeartbeat, if_neg hname]
    next => cases ha
  | relay line order =>
    dsimp only [Agent.step] at ha
    split_ifs at ha
    obtain ⟨hub, hhub, rfl⟩ := Option.map_eq_some_iff.mp ha
    obtain ⟨-, -, rfl⟩ := Group.step_start.mp hhub
    refine ⟨h.distinct, h.cached, ?_, ?_, fun ch hch name hdue => ?_⟩
    · rw [round_heartbeats]
      exact h.sending
    · intro msg todo hmsg
      rw [Group.setRound_self] at hmsg
      exact ⟨line, (Prod.mk.inj (Option.some.inj hmsg)).1.symm⟩
    · rw [Agent.Due, round_heartbeats] at hdue
      exact h.sent ch hch name hdue
  | emit hb order =>
    dsimp only [Agent.step] at ha
    split_ifs at ha with hguard
    obtain ⟨hub, hhub, rfl⟩ := Option.map_eq_some_iff.mp ha
    obtain ⟨hidle, hperm, rfl⟩ := Group.step_start.mp hhub
    refine ⟨h.distinct, h.cached, ?_, ?_, fun ch hch name hdue => ?_⟩
    · intro msg todo hmsg
      rw [Group.setRound_self] at hmsg
      exact ⟨hb, hguard.1, (Prod.mk.inj (Option.some.inj hmsg)).1.symm⟩
    · rw [round_bridge]
      exact h.relaying
    · refine h.sent ch hch name fun hbefore => hdue ?_
      obtain ⟨other, hcurrent, hname, -⟩ := hbefore
      refine ⟨other, hcurrent, hname, fun msg todo hmsg => ?_⟩
      -- The round starts with all the clients that are registered.
      rw [Group.setRound_self] at hmsg
      rw [← (Prod.mk.inj (Option.some.inj hmsg)).2]
      exact hperm.mem_iff.mpr (hstreams ch hch).registered
  | send source =>
    dsimp only [Agent.step] at ha
    split at ha
    next msg m rest hround =>
      obtain ⟨hub, hhub, rfl⟩ := Option.map_eq_some_iff.mp ha
      obtain ⟨msg', m', rest', hround', rfl⟩ := Group.step_offer.mp hhub
      obtain ⟨rfl, hcons⟩ := Prod.mk.inj (Option.some.inj (hround.symm.trans hround'))
      obtain ⟨rfl, rfl⟩ := List.cons.inj hcons
      exact h.send (hnodup source msg _ hround) hround
    next => cases ha
  | unlock source =>
    obtain ⟨hub, hhub, rfl⟩ := Option.map_eq_some_iff.mp ha
    obtain ⟨⟨msg, hround⟩, rfl⟩ := Group.step_finish.mp hhub
    cases source with
    | bridge =>
      refine ⟨h.distinct, h.cached, ?_, ?_, fun ch hch name hdue => ?_⟩
      · rw [round_heartbeats]
        exact h.sending
      · rw [Group.setRound_self]
        intro msg todo hsome
        cases hsome
      · rw [Agent.Due, round_heartbeats] at hdue
        exact h.sent ch hch name hdue
    | heartbeats =>
      refine ⟨h.distinct, fun hb hsome => ?_, ?_, ?_, fun ch hch name hdue => ?_⟩
      · cases hsome
      · rw [Group.setRound_self]
        intro msg todo hsome
        cases hsome
      · rw [round_bridge]
        exact h.relaying
      · -- The round has come to everyone.
        refine h.sent ch hch name fun hbefore => ?_
        obtain ⟨hb, _, _, hall⟩ := hbefore
        exact absurd (hall msg [] hround) List.not_mem_nil

/-- The clients of a run are up to date. -/
theorem fresh_of_run {actions : List (AgentStep Conn Chan)}
    (hrun : exec Agent.step .initial actions = some s) : Fresh s := by
  have hinitial : Fresh (Agent.initial : Agent Conn Chan) := by
    refine ⟨List.nodup_nil, nofun, nofun, nofun, fun ch hch => ?_⟩
    simp [Agent.Serving, Agent.initial] at hch
  -- The run so far gives what the step needs of the hub.
  have hall := invariant (I := fun actions s => exec Agent.step .initial actions = some s ∧ Fresh s)
    (P := fun _ _ => True) ⟨rfl, hinitial⟩
    (fun actions t a t' ⟨hbefore, h⟩ _ ha => ⟨exec_append_singleton.mpr ⟨t, hbefore, ha⟩,
      fresh_of_step (fun ch hch => streams_of_run hbefore hch)
        (fun source msg todo hround =>
          ((kept_of_run (Agent.exec_hub hbefore)).todo source msg todo hround).1) h ha⟩)
    (always_of_forall fun _ _ _ => trivial) hrun
  exact hall.2

/-- In any run, once no heartbeat of a service is on its way to a client, the last one that the
client was written, or has waiting in its channel, is the one in the cache. It is not so only when
the last one that came to the client found its channel full. -/
theorem current_of_run {actions : List (AgentStep Conn Chan)}
    (hrun : exec Agent.step .initial actions = some s) {ch : Chan}
    (hloop : (s.handlers ch).phase = .looping) {name : String} (hdue : ¬ s.Due ch name) :
    (∃ hb, lastOffer name (s.chans ch).offers = some (hb, false)) ∨
      latest name (beats (datas (s.handlers ch).written ++ (s.chans ch).queue.map Prod.snd)) =
        latest name s.hbCache := by
  have hstream := streams_of_run hrun (.inr hloop)
  have hsent : s.Sent ch name := (fresh_of_run hrun).sent ch (.inr hloop) name hdue
  refine (latest_accepted name (s.chans ch).offers).imp id fun hlatest => ?_
  rw [hstream.written, List.append_assoc, ← List.map_append, (s.chans ch).kept, beats_append,
    beats_map_heartbeat, latest_append, hlatest]
  rw [Agent.Sent] at hsent
  cases hlast : lastOffer name (s.chans ch).offers with
  | none =>
    rw [hlast] at hsent
    exact hsent hloop
  | some o =>
    rw [hlast] at hsent
    exact hsent.symm

/-- A run in which the heartbeat of a service is in the cache when a client comes. -/
def heartbeatRun : List (AgentStep ℕ ℕ) := [
  .poll [⟨"web", "10.0.0.1", 80, "DMZ", "up"⟩] "t", .cache, .addSSE 1,
  .replay 1 [heartbeatOf "t" ⟨"web", "10.0.0.1", 80, "DMZ", "up"⟩],
  .emit (heartbeatOf "t" ⟨"web", "10.0.0.1", 80, "DMZ", "up"⟩) [.sse 1], .send .heartbeats,
  .unlock .heartbeats]

theorem current_of_heartbeatRun :
    ∃ s, exec Agent.step .initial heartbeatRun = some s ∧
      ((∃ hb, lastOffer "web" (s.chans 1).offers = some (hb, false)) ∨
        latest "web" (beats (datas (s.handlers 1).written ++ (s.chans 1).queue.map Prod.snd)) =
          latest "web" s.hbCache) := by
  have hrun : exec Agent.step .initial heartbeatRun = some _ := rfl
  refine ⟨_, hrun, current_of_run hrun rfl ?_⟩
  -- The round is over.
  rintro ⟨hb, h, -⟩
  exact absurd h nofun

end Steps

end ControlPlane.Ids.Hub
