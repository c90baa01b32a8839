import ControlPlane.Lib.GoJson
import ControlPlane.Stream.Relay
import Mathlib.Data.List.Flatten

/-!
# The events that the consumer reads

`eventsHandler` writes the messages of the hub as server-sent events, and `_consume` reads them line
by line. `alerts_reach` follows the alerts from the frames of `ids-api.py` through any run of the
hub to the events store: as long as the channel of the consumer is never found full, every alert
that was broadcast since the consumer was registered is mirrored once, in the order in which they
came and as it was sent, but for those that still wait. Neither the heartbeats in between nor the
pings change that.
-/

namespace ControlPlane.Stream

open JsonText Ids.Hub Fanout Runs

variable {Obj : Type}

/-! ## What the agent writes -/

/-- The map that `emit` makes for a service, in the order of its keys. -/
def heartbeatMembers (hb : Heartbeat) : List (String × String) :=
  [("dest_ip", hb.destIp), ("method", hb.method), ("service", hb.service), ("status", hb.status),
    ("timestamp", hb.timestamp), ("type", hb.type), ("zone", hb.zone)]

/-- The text of a message. -/
def msgText : Ids.Hub.Msg → PyStr
  | .data line => line
  | .heartbeat hb => goObject (heartbeatMembers hb)

/-- The text of the first event of a stream. -/
def CONNECTED : PyStr := 123 :: (u "\"type\":\"connected\"" ++ [125])

/-- The line of an event, which a blank line follows. -/
def frameLine : Frame → PyStr
  | .connected => u "data: " ++ CONNECTED
  | .data msg => u "data: " ++ msgText msg
  | .ping => u ": ping"

/-- The lines of what is written to a client. -/
def eventLines (written : List Frame) : List PyStr := written.flatMap fun frame => [frameLine frame, []]

/-- The text of what is written to a client. -/
def eventText (written : List Frame) : PyStr := (eventLines written).flatMap fun l => l ++ [10]

/-! ## The lines that the consumer is given -/

/-- The ends of a line, as `str.splitlines` has them. -/
def isBreak (c : CodePoint) : Bool :=
  (10 ≤ c ∧ c ≤ 13) ∨ (28 ≤ c ∧ c ≤ 30) ∨ c = 0x85 ∨ c = 0x2028 ∨ c = 0x2029

/-- A text without an end of a line in it. -/
def Unbroken (s : PyStr) : Prop := ∀ c ∈ s, isBreak c = false

/-- What `aiter_lines` gives: a text that is put together from lines is taken apart into them. -/
def ReadsLines (aiterLines : PyStr → List PyStr) : Prop :=
  ∀ lines : List PyStr, (∀ l ∈ lines, Unbroken l) →
    aiterLines (lines.flatMap fun l => l ++ [10]) = lines

theorem isBreak_of_printable {c : CodePoint} (hc : 32 ≤ c.val ∧ c.val ≤ 126) :
    isBreak c = false := by
  rw [← Bool.not_eq_true]
  intro hbreak
  simp only [isBreak, Bool.decide_or, Bool.or_eq_true, decide_eq_true_eq, Fin.le_def] at hbreak
  rcases hbreak with ⟨h1, h2⟩ | ⟨h1, h2⟩ | rfl | rfl | rfl
  · exact absurd (hc.1.trans h2) (by decide)
  · exact absurd (hc.1.trans h2) (by decide)
  · exact absurd hc (by decide)
  · exact absurd hc (by decide)
  · exact absurd hc (by decide)

theorem unbroken_of_printable {s : PyStr} (h : Printable s) : Unbroken s :=
  fun c hc => isBreak_of_printable (h c hc)

theorem Unbroken.append {s t : PyStr} (hs : Unbroken s) (ht : Unbroken t) : Unbroken (s ++ t) := by
  intro c hc
  rcases List.mem_append.mp hc with hc | hc
  · exact hs c hc
  · exact ht c hc

/-- The texts of a heartbeat are without U+0085, which ends a line for the consumer and is left as
it is by `json.Marshal`. -/
def Heartbeat.Clear (hb : Heartbeat) : Prop :=
  ∀ m ∈ heartbeatMembers hb, 0x85 ∉ u m.2

/-- The line of a heartbeat is one line, when there is no U+0085 in it. -/
theorem unbroken_heartbeat {hb : Heartbeat} (h : Heartbeat.Clear hb) :
    Unbroken (goObject (heartbeatMembers hb)) := by
  have hkey (m : String × String) (hm : m ∈ heartbeatMembers hb) : Printable (u m.1) := by
    simp only [heartbeatMembers, List.mem_cons, List.not_mem_nil, or_false] at hm
    have hprint (key : String) (hkey : (key.toList.all fun c => 32 ≤ c.toNat ∧ c.toNat ≤ 126) = true) :
        Printable (u key) := printable_u hkey
    rcases hm with rfl | rfl | rfl | rfl | rfl | rfl | rfl
    · exact hprint "dest_ip" (by decide)
    · exact hprint "method" (by decide)
    · exact hprint "service" (by decide)
    · exact hprint "status" (by decide)
    · exact hprint "timestamp" (by decide)
    · exact hprint "type" (by decide)
    · exact hprint "zone" (by decide)
  refine forall_mem_goObject (p := fun c => isBreak c = false) (fun c hc => isBreak_of_printable hc)
    fun m hm c hc hsafe => ?_
  rcases List.mem_append.mp hc with hc | hc
  · exact isBreak_of_printable (hkey m hm c hc)
  · -- All the other ends of a line are escaped.
    rw [← Bool.not_eq_true]
    intro hbreak
    simp only [isBreak, Bool.decide_or, Bool.or_eq_true, decide_eq_true_eq] at hbreak
    have h32 : ¬ c < 32 := fun hlt => by simp [goUnsafe, hlt] at hsafe
    rcases hbreak with ⟨-, h13⟩ | ⟨-, h30⟩ | rfl | rfl | rfl
    · exact h32 (lt_of_le_of_lt h13 (by decide))
    · exact h32 (lt_of_le_of_lt h30 (by decide))
    · exact h m hm hc
    · exact absurd hsafe (by decide)
    · exact absurd hsafe (by decide)

/-! ## What a line is mirrored as -/

variable (E : EventTypes Obj)

/-- What is mirrored of an object as a violation. -/
def storedDict (data : Items Obj) : List (Items Obj) :=
  if isHandshake data = some false ∧ isFlow data = false ∧ Fields data then [data] else []

/-- What is mirrored of a line as a violation. -/
def storedLine (line : PyStr) : List (Items Obj) :=
  match (payloadOf line).map E.loads with
  | some (.ok (.dict data)) => storedDict data
  | _ => []

/-- What should be mirrored of a frame. -/
def UpFrame.stored : UpFrame Obj → List (Items Obj)
  | .alert ev =>
    match readBack ev with
    | .dict data => storedDict data
    | _ => []
  | _ => []

theorem mirrored_consumeLine (l : SseLine) :
    mirrored (consumeLine E l).1 = storedLine E l.line := by
  unfold consumeLine storedLine
  cases payloadOf l.line with
  | none => rfl
  | some payload =>
    dsimp only [Option.map_some]
    cases E.loads payload with
    | error e =>
      cases e with
      | decode => rfl
      | _ => rfl
    | ok v =>
      cases v with
      | dict data => exact mirrored_consumeDict l.trigger data
      | _ => rfl

/-- What is mirrored when no exception leaves the loop. -/
theorem mirrored_consume {lines : List SseLine} (h : (consume E lines).2 = none) :
    mirrored (consume E lines).1 = (lines.map SseLine.line).flatMap (storedLine E) := by
  induction lines with
  | nil => rfl
  | cons l lines ih =>
    have hl : (consumeLine E l).2 = none := by
      by_contra hraise
      exact consume_cons_of_raise hraise h
    rw [consume_cons hl] at h ⊢
    rw [mirrored_append, mirrored_consumeLine, ih h, List.map_cons, List.flatMap_cons]

/-- Up to an exception, what is mirrored is in the order of the lines. -/
theorem mirrored_consume_le (lines : List SseLine) :
    mirrored (consume E lines).1 <+: (lines.map SseLine.line).flatMap (storedLine E) := by
  induction lines with
  | nil => exact List.prefix_refl []
  | cons l lines ih =>
    rw [List.map_cons, List.flatMap_cons, ← mirrored_consumeLine]
    by_cases hl : (consumeLine E l).2 = none
    · rw [consume_cons hl, mirrored_append]
      exact (List.prefix_append_right_inj _).mpr ih
    · obtain ⟨e, he⟩ := Option.ne_none_iff_exists'.mp hl
      have hconsume : consume E (l :: lines) = consumeLine E l := by
        rw [consume]
        generalize consumeLine E l = r at he ⊢
        obtain ⟨calls, err⟩ := r
        obtain rfl : err = some e := he
        rfl
      rw [hconsume]
      exact List.prefix_append _ _

/-! ### The lines of the agent -/

theorem payloadOf_data {s : PyStr} (hbraces : ∃ body, s = 123 :: (body ++ [125])) :
    payloadOf (u "data: " ++ s) = some s := by
  have hstrip : strip s = s := trim_eq_self hbraces (by decide) (by decide)
  have hdrop : (u "data: " ++ s).drop 6 = s := rfl
  rw [payloadOf, if_pos (List.isPrefixOf_iff_prefix.mpr ⟨s, rfl⟩), hdrop, hstrip]
  obtain ⟨body, rfl⟩ := hbraces
  exact if_neg (List.cons_ne_nil _ _)

/-- A map without an alert in it is not mirrored. -/
theorem storedLine_goObject {members : List (String × String)} (hne : members ≠ [])
    (halert : "alert" ∉ members.map Prod.fst) :
    storedLine E (u "data: " ++ goObject members) = [] := by
  have hpayload : payloadOf (u "data: " ++ goObject members) = some (goObject members) :=
    payloadOf_data ⟨_, rfl⟩
  unfold storedLine
  rw [hpayload, Option.map_some]
  cases hloads : E.loads (goObject members) with
  | error e => rfl
  | ok v =>
    rw [E.dict_of_loads_goObject hne hloads]
    have hkey : hasKey (asDict (goItems members) : Items Obj) "alert" = false := by
      rw [hasKey, getItem_goItems halert]
      rfl
    refine if_neg fun hall => ?_
    rw [Fields, hkey] at hall
    exact absurd hall.2.2.1 Bool.false_ne_true

theorem connected_eq : CONNECTED = goObject [("type", "connected")] := by decide

/-- The texts of the data among some messages. -/
def linesOf (msgs : List Ids.Hub.Msg) : List PyStr :=
  msgs.filterMap fun msg => match msg with
    | .data line => some line
    | .heartbeat _ => none

theorem linesOf_append (msgs more : List Ids.Hub.Msg) :
    linesOf (msgs ++ more) = linesOf msgs ++ linesOf more := List.filterMap_append

theorem linesOf_heartbeats (hbs : List Heartbeat) :
    linesOf (hbs.map Ids.Hub.Msg.heartbeat) = [] := by
  induction hbs with
  | nil => rfl
  | cons hb hbs ih => exact ih

theorem linesOf_data (lines : List PyStr) : linesOf (lines.map Ids.Hub.Msg.data) = lines := by
  induction lines with
  | nil => rfl
  | cons line lines ih => exact congrArg (line :: ·) ih

/-- Of what is written to a client, the data is all that is mirrored. -/
theorem stored_eventLines (written : List Frame) :
    (eventLines written).flatMap (storedLine E) =
      (linesOf (datas written)).flatMap fun line => storedLine E (u "data: " ++ line) := by
  have hempty : payloadOf [] = none := by decide
  have hblank : storedLine E [] = [] := by
    unfold storedLine
    rw [hempty]
    rfl
  induction written with
  | nil => rfl
  | cons frame written ih =>
    have hlines : (eventLines (frame :: written)).flatMap (storedLine E) =
        storedLine E (frameLine frame) ++ (eventLines written).flatMap (storedLine E) := by
      rw [eventLines, List.flatMap_cons, List.flatMap_append, List.flatMap_cons,
        List.flatMap_singleton, hblank, List.append_nil]
      rfl
    rw [hlines, ih]
    cases frame with
    | connected =>
      have hconnected : storedLine E (frameLine .connected) = [] := by
        rw [frameLine, connected_eq]
        exact storedLine_goObject E (List.cons_ne_nil _ _) (by decide)
      rw [hconnected]
      rfl
    | ping =>
      have hping : payloadOf (frameLine .ping) = none := by decide
      have hnone : storedLine E (frameLine .ping) = [] := by
        unfold storedLine
        rw [hping]
        rfl
      rw [hnone]
      rfl
    | data msg =>
      cases msg with
      | data line => rfl
      | heartbeat hb =>
        have hkeys : (heartbeatMembers hb).map Prod.fst =
            ["dest_ip", "method", "service", "status", "timestamp", "type", "zone"] := rfl
        have hnone : storedLine E (frameLine (.data (.heartbeat hb))) = [] := by
          refine storedLine_goObject E (List.cons_ne_nil _ _) ?_
          rw [hkeys]
          decide
        rw [hnone]
        rfl

variable {E}

/-- An alert that was written is mirrored as it is read back. -/
theorem storedLine_alert {ev : PyVal Obj} (hdict : ∃ items, ev = .dict items)
    (hwritable : E.Writable ev) (hdepth : ev.NestedIn E.loadsDepth) :
    storedLine E (u "data: " ++ Interp.print ev) = (UpFrame.alert ev).stored := by
  unfold storedLine
  rw [payloadOf_data (dictLine_print hdict).braces, Option.map_some,
    E.loads_print hwritable hdepth]
  obtain ⟨items, rfl⟩ := hdict
  rfl

theorem stored_alertTexts {frames : List (UpFrame Obj)} (hsent : ∀ f ∈ frames, f.Sent)
    (hread : ∀ ev, .alert ev ∈ frames → E.Writable ev ∧ ev.NestedIn E.loadsDepth) :
    (alertTexts frames).flatMap (fun line => storedLine E (u "data: " ++ line)) =
      frames.flatMap UpFrame.stored := by
  induction frames with
  | nil => rfl
  | cons f frames ih =>
    rw [alertTexts_cons, List.flatMap_append, List.flatMap_cons,
      ih (fun g hg => hsent g (List.mem_cons_of_mem f hg))
        fun ev hev => hread ev (List.mem_cons_of_mem f hev)]
    refine congrArg (· ++ frames.flatMap UpFrame.stored) ?_
    cases f with
    | connected => rfl
    | heartbeat => rfl
    | alert ev =>
      obtain ⟨hwritable, hdepth⟩ := hread ev List.mem_cons_self
      exact (List.flatMap_singleton _ _).trans
        (storedLine_alert (hsent _ List.mem_cons_self) hwritable hdepth)

/-! ## Through the hub -/

section Hub

variable {Conn Chan : Type}

/-- What the bridge has broadcast in a run. -/
def relayed (actions : List (AgentStep Conn Chan)) : List PyStr :=
  actions.filterMap fun a => match a with
    | .relay line _ => some line
    | _ => none

theorem published_bridge (actions : List (AgentStep Conn Chan)) :
    published .bridge (hubSteps actions) = (relayed actions).map Ids.Hub.Msg.data := by
  induction actions with
  | nil => rfl
  | cons a actions ih =>
    cases a with
    | relay line order => exact congrArg (Ids.Hub.Msg.data line :: ·) ih
    | _ => exact ih

theorem published_heartbeats (actions : List (AgentStep Conn Chan)) :
    ∃ hbs : List Heartbeat,
      published .heartbeats (hubSteps actions) = hbs.map Ids.Hub.Msg.heartbeat := by
  induction actions with
  | nil => exact ⟨[], rfl⟩
  | cons a actions ih =>
    obtain ⟨hbs, ih⟩ := ih
    cases a with
    | emit hb order => exact ⟨hb :: hbs, congrArg (Ids.Hub.Msg.heartbeat hb :: ·) ih⟩
    | _ => exact ⟨hbs, ih⟩

variable [DecidableEq Conn] [DecidableEq Chan]

/-- What the bridge has broadcast since a client was registered. -/
theorem broadcasts_bridge (ch : Chan) (actions : List (AgentStep Conn Chan)) :
    ∃ before later, relayed actions = before ++ later ∧
      broadcasts (.sse ch) .bridge actions = later.map Ids.Hub.Msg.data := by
  obtain ⟨before, hbefore⟩ := since_suffix (.sse ch) .bridge (hubSteps actions)
  rw [published_bridge] at hbefore
  obtain ⟨front, later, hsplit, hfront, hlater⟩ := List.map_eq_append_iff.mp hbefore.symm
  exact ⟨front, later, hsplit, hlater.symm⟩

/-- The data among what came to a client is what came from the bridge. -/
theorem linesOf_of {log : List (Source × Ids.Hub.Msg)}
    (h : ∀ msg ∈ of .heartbeats log, ∃ hb, msg = .heartbeat hb) :
    linesOf (log.map Prod.snd) = linesOf (of .bridge log) := by
  induction log with
  | nil => rfl
  | cons e log ih =>
    obtain ⟨source, msg⟩ := e
    cases source with
    | bridge =>
      have hof : of .bridge ((Source.bridge, msg) :: log) = msg :: of .bridge log := rfl
      have hlog := ih h
      have hcons (msgs : List Ids.Hub.Msg) : linesOf (msg :: msgs) = linesOf [msg] ++ linesOf msgs :=
        linesOf_append [msg] msgs
      rw [List.map_cons, hof, hcons, hlog, ← hcons]
    | heartbeats =>
      obtain ⟨hb, rfl⟩ := h msg List.mem_cons_self
      exact ih fun m hm => h m (List.mem_cons_of_mem _ hm)

/-- What a client was written of the data is a part of what the bridge has broadcast since the
client was registered, and with what waits it is all of it, where the channel was never full. -/
theorem linesOf_written {actions : List (AgentStep Conn Chan)} {s : Agent Conn Chan}
    (hrun : exec Agent.step .initial actions = some s) {ch : Chan} (hch : s.Serving ch) :
    (linesOf (datas (s.handlers ch).written)).Sublist
        (linesOf (broadcasts (.sse ch) .bridge actions)) ∧
      (Always Agent.step (Room ch) .initial actions →
        linesOf (datas (s.handlers ch).written) ++ (linesOf ((s.chans ch).queue.map Prod.snd) ++
          linesOf (s.hub.pending .bridge (.sse ch))) =
            linesOf (broadcasts (.sse ch) .bridge actions)) := by
  obtain ⟨hwritten, -, hpart, hbridge⟩ := stream_of_run hrun hch .bridge
  obtain ⟨-, -, hbeats, -⟩ := stream_of_run hrun hch .heartbeats
  obtain ⟨hbs, hpublished⟩ := published_heartbeats actions
  have hof : ∀ msg ∈ of .heartbeats ((s.chans ch).taken ++ (s.chans ch).queue),
      ∃ hb, msg = Ids.Hub.Msg.heartbeat hb := by
    intro msg hmsg
    have hmem := (since_suffix (.sse ch) .heartbeats (hubSteps actions)).subset (hbeats.subset hmsg)
    rw [hpublished] at hmem
    obtain ⟨hb, -, rfl⟩ := List.mem_map.mp hmem
    exact ⟨hb, rfl⟩
  have hall := linesOf_of hof
  rw [List.map_append, linesOf_append] at hall
  have hdata : linesOf (datas (s.handlers ch).written) =
      linesOf ((s.chans ch).taken.map Prod.snd) := by
    rw [hwritten, linesOf_append, linesOf_heartbeats, List.nil_append]
  rw [hdata]
  refine ⟨?_, fun hroom => ?_⟩
  · have hsub := hpart.filterMap fun msg => match msg with
      | Ids.Hub.Msg.data line => some line
      | Ids.Hub.Msg.heartbeat _ => none
    change (linesOf _).Sublist (linesOf _) at hsub
    rw [← hall] at hsub
    exact (List.sublist_append_left _ _).trans hsub
  · rw [← List.append_assoc, hall, ← linesOf_append, hbridge hroom]

theorem mem_linesOf {written : List Frame} {line : PyStr}
    (h : .data (.data line) ∈ written) : line ∈ linesOf (datas written) :=
  List.mem_filterMap.mpr ⟨.data line, List.mem_filterMap.mpr ⟨_, h, rfl⟩, rfl⟩

theorem printable_alertTexts {frames : List (UpFrame Obj)} :
    ∀ line ∈ alertTexts frames, Printable line := by
  intro line hline
  obtain ⟨f, -, hf⟩ := List.mem_filterMap.mp hline
  cases f with
  | alert ev =>
    obtain rfl := Option.some.inj hf
    exact printable_print ev
  | connected => exact absurd hf (Option.some_ne_none _).symm
  | heartbeat => exact absurd hf (Option.some_ne_none _).symm

/-- The lines of a stream are unbroken when the data and the heartbeats in it are. -/
theorem unbroken_eventLines {written : List Frame}
    (hclear : ∀ hb, .data (.heartbeat hb) ∈ written → Heartbeat.Clear hb)
    (hdata : ∀ line, .data (.data line) ∈ written → Printable line) :
    ∀ l ∈ eventLines written, Unbroken l := by
  have hprefix : Unbroken (u "data: ") := unbroken_of_printable printable_data
  intro l hl
  obtain ⟨frame, hframe, hl⟩ := List.mem_flatMap.mp hl
  rcases List.mem_cons.mp hl with rfl | hl
  · cases frame with
    | connected =>
      have hbody : Printable (u "\"type\":\"connected\"" ++ [125]) :=
        (printable_u (by decide)).append (printable_nil.cons (by decide))
      exact hprefix.append (unbroken_of_printable (hbody.cons (by decide)))
    | ping => exact unbroken_of_printable (printable_u (by decide))
    | data msg =>
      cases msg with
      | data line => exact hprefix.append (unbroken_of_printable (hdata line hframe))
      | heartbeat hb => exact hprefix.append (unbroken_heartbeat (hclear hb hframe))
  · rw [List.mem_singleton.mp hl]
    exact fun c hc => absurd hc List.not_mem_nil

variable (E)

/-- What is mirrored of messages that have not come to the consumer yet. -/
def storedMsgs (msgs : List Ids.Hub.Msg) : List (Items Obj) :=
  (linesOf msgs).flatMap fun line => storedLine E (u "data: " ++ line)

variable {E}

/-- Let the agent have broadcast a part of what it took from the stream of `ids-api.py`. In any run, what the consumer mirrors of the events that it was written are alerts
that were broadcast since it was registered, as they were sent, each at most once and in the order
in which they came. It is all of them, but for those that are still to come to the consumer, when
its channel was never found full and no exception left the loop. -/
theorem alerts_reach {aiterLines : PyStr → List PyStr} (hlines : ReadsLines aiterLines)
    {frames : List (UpFrame Obj)} (hsent : ∀ f ∈ frames, f.Sent)
    (hread : ∀ ev, .alert ev ∈ frames → E.Writable ev ∧ ev.NestedIn E.loadsDepth)
    {actions : List (AgentStep Conn Chan)} {s : Agent Conn Chan}
    (hrun : exec Agent.step .initial actions = some s)
    (hrelayed : relayed actions <+: (consumeSSE (upText frames)).1)
    {ch : Chan} (hch : s.Serving ch)
    (hclear : ∀ hb, .data (.heartbeat hb) ∈ (s.handlers ch).written → Heartbeat.Clear hb)
    {lines : List SseLine}
    (hconsumed : lines.map SseLine.line = aiterLines (eventText (s.handlers ch).written)) :
    ∃ before later more, frames = before ++ (later ++ more) ∧
      alertTexts (before ++ later) = relayed actions ∧
      (alertTexts later).map Ids.Hub.Msg.data = broadcasts (.sse ch) .bridge actions ∧
      (mirrored (consume E lines).1).Sublist (later.flatMap UpFrame.stored) ∧
      (Always Agent.step (Room ch) .initial actions → (consume E lines).2 = none →
        mirrored (consume E lines).1 ++ (storedMsgs E ((s.chans ch).queue.map Prod.snd) ++
          storedMsgs E (s.hub.pending .bridge (.sse ch))) = later.flatMap UpFrame.stored) := by
  obtain ⟨front, back, hsplit, hbroadcasts⟩ := broadcasts_bridge ch actions
  -- What was relayed are the alerts of the first frames.
  obtain ⟨rest, hrest⟩ := hrelayed.trans (consumeSSE_isPrefix hsent)
  rw [hsplit, List.append_assoc] at hrest
  obtain ⟨before, others, hframes, hbefore, hothers⟩ := List.filterMap_eq_append_iff.mp hrest.symm
  obtain ⟨later, more, rfl, hlater, -⟩ := List.filterMap_eq_append_iff.mp hothers
  change alertTexts before = front at hbefore
  change alertTexts later = back at hlater
  have hsub (f : UpFrame Obj) (hf : f ∈ later) : f ∈ frames := by
    rw [hframes]
    exact List.mem_append_right _ (List.mem_append_left _ hf)
  obtain ⟨hpart, hall⟩ := linesOf_written hrun hch
  rw [hbroadcasts, linesOf_data, ← hlater] at hpart hall
  have hstored := stored_alertTexts (fun f hf => hsent f (hsub f hf))
    fun ev hev => hread ev (hsub _ hev)
  have hunbroken : ∀ l ∈ eventLines (s.handlers ch).written, Unbroken l :=
    unbroken_eventLines hclear fun line hline =>
      printable_alertTexts line (hpart.subset (mem_linesOf hline))
  have hmirrored : (lines.map SseLine.line).flatMap (storedLine E) =
      storedMsgs E (datas (s.handlers ch).written) := by
    rw [hconsumed, eventText, hlines _ hunbroken, stored_eventLines, storedMsgs]
  refine ⟨before, later, more, hframes, ?_, ?_, ?_, fun hroom hok => ?_⟩
  · rw [hsplit, ← hbefore, ← hlater]
    exact List.filterMap_append
  · rw [hbroadcasts, hlater]
  · rw [← hstored]
    refine (mirrored_consume_le E lines).sublist.trans ?_
    rw [hmirrored]
    exact hpart.flatMap _
  · rw [mirrored_consume E hok, hmirrored, ← hstored, ← hall hroom, List.flatMap_append,
      List.flatMap_append]
    rfl

/-! ### An alert on its way -/

/-- The lines of a text, without what is behind the last one. -/
def splitLines (text : PyStr) : List PyStr := (text.splitOnP isBreak).dropLast

theorem readsLines_splitLines : ReadsLines splitLines := by
  intro lines hlines
  unfold splitLines
  induction lines with
  | nil => decide
  | cons l lines ih =>
    have hne := List.splitOnP_ne_nil isBreak (lines.flatMap fun l => l ++ [10])
    rw [List.flatMap_cons, List.append_assoc, List.singleton_append,
      List.splitOnP_append_cons_of_forall_mem (hlines l List.mem_cons_self) 10 (by decide),
      List.dropLast_cons_of_ne_nil hne, ih fun m hm => hlines m (List.mem_cons_of_mem l hm)]

/-- The alert is broadcast to a client, which reads it. -/
def alertRun : List (AgentStep ℕ ℕ) := [
  .addSSE 1, .replay 1 [], .relay (Interp.print (.dict smallAlert)) [.sse 1], .send .bridge,
  .unlock .bridge, .receive 1]

theorem always_room_alertRun : Always Agent.step (Room 1) .initial alertRun := by
  refine always_cons trivial fun s hs => ?_
  obtain rfl := Option.some.inj hs
  refine always_cons trivial fun s hs => ?_
  obtain rfl := Option.some.inj hs
  refine always_cons trivial fun s hs => ?_
  obtain rfl := Option.some.inj hs
  refine always_cons (fun _ _ _ => by decide) fun s hs => ?_
  obtain rfl := Option.some.inj hs
  refine always_cons trivial fun s hs => ?_
  obtain rfl := Option.some.inj hs
  exact always_cons trivial fun s _ => always_nil s

theorem reads_smallAlert : textInterp.Writable (.dict smallAlert) ∧
    (PyVal.dict smallAlert).NestedIn textInterp.loadsDepth := by
  have hstr : textInterp.Writable (.str (u "a")) ∧ (PyVal.str (u "a") : PyVal PyStr).NestedIn 989 := by
    refine (textInterp.writable_scalar ?_ ?_).mpr trivial
    · simp
    · simp
  have hempty : textInterp.Writable (.dict []) ∧ (PyVal.dict [] : PyVal PyStr).NestedIn 989 := by
    refine ⟨textInterp.writable_dict.mpr ?_, PyVal.nestedIn_dict.mpr ?_⟩
    · simp
    · simp
  constructor
  · refine textInterp.writable_dict.mpr fun i hi => ?_
    simp only [smallAlert, List.mem_cons, List.not_mem_nil, or_false] at hi
    rcases hi with rfl | rfl
    · exact ⟨trivial, hstr.1⟩
    · exact ⟨trivial, hempty.1⟩
  · refine PyVal.nestedIn_dict.mpr fun i hi => ?_
    simp only [smallAlert, List.mem_cons, List.not_mem_nil, or_false] at hi
    rcases hi with rfl | rfl
    · exact hstr.2
    · exact hempty.2

/-- What is written in the run. -/
def alertWritten : List Frame := [.connected, .data (.data (Interp.print (.dict smallAlert)))]

theorem exec_alertRun :
    ∃ s, exec Agent.step .initial alertRun = some s ∧ s.Serving 1 ∧
      (s.handlers 1).written = alertWritten ∧ (s.chans 1).queue = [] ∧
      s.hub.pending .bridge (.sse 1) = [] :=
  ⟨_, rfl, .inr rfl, rfl, rfl, rfl⟩

theorem alerts_reach_alertRun :
    ∃ later : List (UpFrame PyStr),
      (alertTexts later).map Ids.Hub.Msg.data = broadcasts (.sse 1) .bridge alertRun ∧
        mirrored (consume plainTypes ((splitLines (eventText alertWritten)).map
          fun l => SseLine.mk l .noRedis)).1 = later.flatMap UpFrame.stored := by
  obtain ⟨s, hrun, hserving, hwritten, hqueue, hpending⟩ := exec_alertRun
  have hread : ∀ ev, .alert ev ∈ smallFrames →
      plainTypes.Writable ev ∧ ev.NestedIn plainTypes.loadsDepth := by
    intro ev hev
    obtain rfl : ev = .dict smallAlert := by simpa [smallFrames] using hev
    exact reads_smallAlert
  have hclear : ∀ hb, .data (.heartbeat hb) ∈ (s.handlers 1).written → Heartbeat.Clear hb := by
    rw [hwritten]
    simp [alertWritten]
  have hconsumed : ((splitLines (eventText alertWritten)).map fun l => SseLine.mk l .noRedis).map
      SseLine.line = splitLines (eventText (s.handlers 1).written) := by
    rw [hwritten, List.map_map]
    exact List.map_id _
  obtain ⟨-, later, -, -, -, hbroadcasts, -, hall⟩ := alerts_reach (E := plainTypes)
    readsLines_splitLines sent_smallFrames hread hrun (by decide +kernel) hserving hclear hconsumed
  have hmirrored := hall always_room_alertRun (by decide +kernel)
  rw [hqueue, hpending] at hmirrored
  exact ⟨later, hbroadcasts, (List.append_nil _).symm.trans hmirrored⟩

end Hub

end ControlPlane.Stream
