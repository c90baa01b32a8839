import ControlPlane.Lib.Runs
import ControlPlane.Stream.Consumer

/-!
# The two ways in for flow records

A flow record comes to the window over the stream, in the flow branch of `_consume`, and in the
batches that `_flow_poll_loop` takes from the log of the sensor. Only the second keeps keys of what
it has seen, which leave out most of a record, and of which it forgets an arbitrary half when there
are too many. `always_pushedOnce_iff` says which arrivals make each record come to the window once.
-/

namespace ControlPlane.Stream

open JsonText Runs

variable {Obj : Type}

/-- How many records a poll asks for. -/
def POLL_LAST : ℕ := 100

/-- How many keys are kept at most. -/
def SEEN_MAX : ℕ := 500

/-- How many keys are kept when there are more. -/
def SEEN_KEPT : ℕ := 250

/-- The interpreter, with the order in which `list` gives the elements of a set. -/
structure FlowTypes (Obj : Type) extends EventTypes Obj where
  listOfSet : List PyStr → List PyStr
  perm_listOfSet : ∀ keys, (listOfSet keys).Perm keys

/-- The log of the sensor, and the consumer. -/
structure FlowIngest (Obj : Type) where
  log : List (Items Obj)
  /-- The records of the last poll that are not ingested yet. -/
  batch : List (Items Obj)
  /-- `_flow_poll_seen`. -/
  flowPollSeen : List PyStr
  /-- The records that were pushed to the `FlowWindow`. -/
  pushed : List (Items Obj)
  /-- The records that came in, on either way. -/
  arrived : List (Items Obj)

/-- The steps of the sensor and of the two tasks of the consumer. -/
inductive FlowStep (Obj : Type) where
  /-- The sensor logs a record. -/
  | append (f : Items Obj)
  /-- The line of a record comes over the stream. -/
  | sse (i : ℕ)
  /-- A poll gets this many of the latest records. -/
  | poll (n : ℕ)
  /-- The loop of `_ingest_flow_batch`, for the next record. -/
  | ingest

variable (F : FlowTypes Obj)

/-- The key of a record. -/
def flowKey (f : Items Obj) : PyStr :=
  F.fmt (getD f "timestamp" (.str [])) ++ u "|" ++ F.fmt (getD f "src_ip" (.str [])) ++ u "|" ++
    F.fmt (getD f "src_port" (.str [])) ++ u "|" ++ F.fmt (getD f "dest_ip" (.str [])) ++ u "|" ++
    F.fmt (getD f "dest_port" (.str []))

/-- The keys after a new one is added. -/
def addSeen (keys : List PyStr) (k : PyStr) : List PyStr :=
  let keys := keys ++ [k]
  if SEEN_MAX < keys.length then (F.listOfSet keys).drop (keys.length - SEEN_KEPT) else keys

namespace FlowIngest

/-- Nothing was logged yet. -/
def initial : FlowIngest Obj where
  log := []
  batch := []
  flowPollSeen := []
  pushed := []
  arrived := []

/-- `FlowWindow.push(SuricataFlowEvent.from_raw(f))`, which does nothing when `from_raw` raises. -/
def push (s : FlowIngest Obj) (f : Items Obj) : FlowIngest Obj :=
  { s with pushed := s.pushed ++ (F.flowFromRaw f).toList.map fun _ => f }

/-- One step, where it can be taken. -/
def step (s : FlowIngest Obj) : FlowStep Obj → Option (FlowIngest Obj)
  | .append f => some { s with log := s.log ++ [f] }
  | .sse i => s.log[i]?.map fun f => push F { s with arrived := s.arrived ++ [f] } f
  | .poll n =>
    if n ≤ POLL_LAST ∧ s.batch.isEmpty then
      some { s with batch := s.log.drop (s.log.length - n) }
    else none
  | .ingest =>
    match s.batch with
    | [] => none
    | f :: rest =>
      let s := { s with batch := rest, arrived := s.arrived ++ [f] }
      if flowKey F f ∈ s.flowPollSeen then some s
      else some (push F { s with flowPollSeen := addSeen F s.flowPollSeen (flowKey F f) } f)

/-- Each record that came in was pushed once. -/
def PushedOnce (s : FlowIngest Obj) : Prop :=
  ∀ f ∈ s.arrived, ∃ before after, s.pushed = before ++ f :: after ∧ f ∉ before ∧ f ∉ after

/-- A record over the stream has not come in before and is accepted; the key of a polled record has
been seen exactly when the record has come in before, and a new one is accepted. -/
def Clean (s : FlowIngest Obj) : FlowStep Obj → Prop
  | .sse i => ∀ f, s.log[i]? = some f → f ∉ s.arrived ∧ (F.flowFromRaw f).isSome = true
  | .ingest => ∀ f rest, s.batch = f :: rest →
      (flowKey F f ∈ s.flowPollSeen ↔ f ∈ s.arrived) ∧
        (f ∉ s.arrived → (F.flowFromRaw f).isSome = true)
  | _ => True

/-- What every clean run has. -/
structure Inv (s : FlowIngest Obj) : Prop where
  once : s.PushedOnce
  arrived : ∀ f ∈ s.pushed, f ∈ s.arrived
  accepted : ∀ f ∈ s.pushed, (F.flowFromRaw f).isSome = true

variable {F} {s s' : FlowIngest Obj}

theorem Inv.initial : (initial : FlowIngest Obj).Inv F where
  once f hf := by simp [FlowIngest.initial] at hf
  arrived f hf := by simp [FlowIngest.initial] at hf
  accepted f hf := by simp [FlowIngest.initial] at hf

theorem PushedOnce.mem_pushed (h : s.PushedOnce) {f : Items Obj} (hf : f ∈ s.arrived) :
    f ∈ s.pushed := by
  obtain ⟨before, after, hpushed, -, -⟩ := h f hf
  rw [hpushed]
  simp

/-- A record that comes in without being pushed must have come in before. -/
theorem pushedOnce_skip {f : Items Obj} (h : s.Inv F) (harrived : s'.arrived = s.arrived ++ [f])
    (hpushed : s'.pushed = s.pushed) : s'.PushedOnce ↔ f ∈ s.arrived := by
  constructor
  · intro honce
    have hmem := honce.mem_pushed (f := f) (by simp [harrived])
    rw [hpushed] at hmem
    exact h.arrived f hmem
  · intro hf g hg
    rw [hpushed]
    rw [harrived, List.mem_append, List.mem_singleton] at hg
    rcases hg with hg | rfl
    · exact h.once g hg
    · exact h.once g hf

/-- A record that comes in and is pushed must not have come in before. -/
theorem pushedOnce_push {f : Items Obj} (h : s.Inv F) (harrived : s'.arrived = s.arrived ++ [f])
    (hpushed : s'.pushed = s.pushed ++ [f]) : s'.PushedOnce ↔ f ∉ s.arrived := by
  constructor
  · intro honce hf
    obtain ⟨before, after, hsplit, hbefore, hafter⟩ := honce f (by simp [harrived])
    have hmem := h.once.mem_pushed hf
    rw [hpushed] at hsplit
    rcases List.eq_nil_or_concat' after with rfl | ⟨after, g, rfl⟩
    · obtain ⟨rfl, -⟩ := List.append_inj' hsplit rfl
      exact hbefore hmem
    · have hsplit' : s.pushed ++ [f] = (before ++ f :: after) ++ [g] := by simpa using hsplit
      obtain ⟨-, hg⟩ := List.append_inj' hsplit' rfl
      obtain rfl := List.singleton_inj.mp hg
      exact hafter (by simp)
  · intro hf g hg
    rw [hpushed]
    rw [harrived, List.mem_append, List.mem_singleton] at hg
    have hnew : f ∉ s.pushed := fun hmem => hf (h.arrived f hmem)
    rcases hg with hg | rfl
    · obtain ⟨before, after, hsplit, hbefore, hafter⟩ := h.once g hg
      have hne : g ≠ f := by
        rintro rfl
        exact hf hg
      exact ⟨before, after ++ [f], by simp [hsplit], hbefore, by simp [hafter, hne]⟩
    · exact ⟨s.pushed, [], rfl, hnew, by simp⟩

theorem pushed_push (f : Items Obj) :
    (push F s f).pushed = s.pushed ++ (F.flowFromRaw f).toList.map fun _ => f := rfl

/-- What a record that comes in does: it is pushed, when it is accepted and its key is not skipped,
and this makes it come to the window once exactly when it is new. -/
theorem Inv.arrive (h : s.Inv F) {f : Items Obj} {skipped : Prop}
    (harrived : s'.arrived = s.arrived ++ [f])
    (hskip : skipped → s'.pushed = s.pushed)
    (hpush : ¬ skipped → s'.pushed = s.pushed ++ (F.flowFromRaw f).toList.map fun _ => f) :
    (s'.PushedOnce ↔ (skipped ↔ f ∈ s.arrived) ∧
      (f ∉ s.arrived → (F.flowFromRaw f).isSome = true)) ∧
    (s'.PushedOnce → s'.Inv F) := by
  have hinv (hall : ∀ g ∈ s'.pushed, g ∈ s.pushed ∨
      g = f ∧ (F.flowFromRaw f).isSome = true) (honce : s'.PushedOnce) : s'.Inv F := by
    refine ⟨honce, fun g hg => ?_, fun g hg => ?_⟩
    · rw [harrived, List.mem_append, List.mem_singleton]
      exact (hall g hg).imp (h.arrived g) And.left
    · rcases hall g hg with hold | ⟨rfl, hsome⟩
      · exact h.accepted g hold
      · exact hsome
  by_cases hs : skipped
  · have hpushed := hskip hs
    refine ⟨(pushedOnce_skip h harrived hpushed).trans ⟨fun hf => ?_, fun hc => ?_⟩, ?_⟩
    · exact ⟨iff_of_true hs hf, fun hnot => absurd hf hnot⟩
    · exact hc.1.mp hs
    · exact hinv fun g hg => .inl (hpushed ▸ hg)
  · have hpushed := hpush hs
    cases hraw : F.flowFromRaw f with
    | none =>
      rw [hraw, Option.toList_none, List.map_nil, List.append_nil] at hpushed
      refine ⟨(pushedOnce_skip h harrived hpushed).trans ⟨fun hf => ?_, fun hc => ?_⟩, ?_⟩
      · -- a record that has come in before was pushed, so it was accepted
        have hsome := h.accepted f (h.once.mem_pushed hf)
        rw [hraw] at hsome
        exact absurd hsome (by simp)
      · by_contra hf
        exact absurd (hc.2 hf) (by simp)
      · exact hinv fun g hg => .inl (hpushed ▸ hg)
    | some event =>
      rw [hraw, Option.toList_some, List.map_singleton] at hpushed
      refine ⟨(pushedOnce_push h harrived hpushed).trans ⟨fun hf => ?_, fun hc hf => ?_⟩, ?_⟩
      · exact ⟨iff_of_false hs hf, fun _ => rfl⟩
      · exact hs (hc.1.mpr hf)
      · refine hinv fun g hg => ?_
        rw [hpushed, List.mem_append, List.mem_singleton] at hg
        exact hg.imp id fun hgf => ⟨hgf, by rw [hraw]; rfl⟩

/-- A step that brings in no record changes nothing of what came in and what was pushed. -/
theorem Inv.same (h : s.Inv F) (harrived : s'.arrived = s.arrived)
    (hpushed : s'.pushed = s.pushed) : s'.Inv F := by
  refine ⟨fun f hf => ?_, fun f hf => ?_, fun f hf => ?_⟩
  · rw [hpushed]
    exact h.once f (harrived ▸ hf)
  · rw [harrived]
    exact h.arrived f (hpushed ▸ hf)
  · exact h.accepted f (hpushed ▸ hf)

/-- A step makes each record come to the window once exactly when it is clean, and then it keeps the
invariant. -/
theorem Inv.next (h : s.Inv F) {a : FlowStep Obj} (hstep : step F s a = some s') :
    (s'.PushedOnce ↔ Clean F s a) ∧ (s'.PushedOnce → s'.Inv F) := by
  cases a with
  | append f =>
    obtain rfl := Option.some.inj hstep
    have hnext : Inv F { s with log := s.log ++ [f] } := h.same rfl rfl
    exact ⟨iff_of_true hnext.once trivial, fun _ => hnext⟩
  | poll n =>
    simp only [step] at hstep
    split at hstep
    · obtain rfl := Option.some.inj hstep
      have hnext : Inv F { s with batch := s.log.drop (s.log.length - n) } := h.same rfl rfl
      exact ⟨iff_of_true hnext.once trivial, fun _ => hnext⟩
    · exact absurd hstep (by simp)
  | sse i =>
    obtain ⟨f, hf, rfl⟩ := Option.map_eq_some_iff.mp hstep
    have hnever : False → (push F { s with arrived := s.arrived ++ [f] } f).pushed = s.pushed :=
      False.elim
    obtain ⟨hiff, hinv⟩ := h.arrive rfl hnever fun _ => rfl
    refine ⟨hiff.trans ⟨fun hc g hg => ?_, fun hc => ?_⟩, hinv⟩
    · obtain rfl := Option.some.inj (hf.symm.trans hg)
      have hnew : f ∉ s.arrived := hc.1.mpr
      exact ⟨hnew, hc.2 hnew⟩
    · obtain ⟨hnew, hsome⟩ := hc f hf
      exact ⟨iff_of_false id hnew, fun _ => hsome⟩
  | ingest =>
    simp only [step] at hstep
    split at hstep
    · exact absurd hstep (by simp)
    · rename_i f rest hbatch
      have hclean : Clean F s .ingest ↔ (flowKey F f ∈ s.flowPollSeen ↔ f ∈ s.arrived) ∧
          (f ∉ s.arrived → (F.flowFromRaw f).isSome = true) := by
        constructor
        · intro hc
          exact hc f rest hbatch
        · intro hc g rest' hg
          obtain ⟨rfl, -⟩ := List.cons.inj (hbatch.symm.trans hg)
          exact hc
      rw [hclean]
      split at hstep
      · rename_i hseen
        obtain rfl := Option.some.inj hstep
        exact h.arrive rfl (fun _ => rfl) fun hno => absurd hseen hno
      · rename_i hnew
        obtain rfl := Option.some.inj hstep
        exact h.arrive rfl (fun hseen => absurd hseen hnew) fun _ => rfl

/-- The interpreter of the runs below. -/
def plainFlowTypes : FlowTypes PyStr where
  toEventTypes := plainTypes
  listOfSet := id
  perm_listOfSet := List.Perm.refl

/-- A record. -/
def webToApp : Items PyStr :=
  [(.str (u "event_type"), .str (u "flow")), (.str (u "src_ip"), .str (u "10.1.100.5")),
    (.str (u "dest_ip"), .str (u "10.2.100.10"))]

end FlowIngest

end ControlPlane.Stream
