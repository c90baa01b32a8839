import Mathlib.Data.List.Induction
import Mathlib.Data.List.Range
import Mathlib.Data.List.Chain

/-!
# The window of flows

`FlowWindow` of `pipeline/flow_window.py`. Every `push` and every snapshot of `_fire` is one step,
since both hold the lock of the buffer. `Conserved` says where each flow of a run ends up, by the
position at which it was pushed: in the window that is taken next, in the buffer, or dropped at the
front of a full buffer. `conserved_of_pos` shows it of every run, from what one step does to the
part of the pushed flows that the buffer holds (`Tracked`).
-/

namespace ControlPlane.Intel

variable {Flow : Type}

/-- The window of flows; the limit of the buffer is an argument of the steps. -/
structure FlowWindow (Flow : Type) where
  /-- `_buffer`. -/
  buffer : List Flow
  /-- `_window_start_iso`. -/
  windowStartIso : String

/-- What `_fire` hands to the callback. -/
structure Snapshot (Flow : Type) where
  flows : List Flow
  windowStart : String
  windowEnd : String

namespace FlowWindow

/-- `push`, with `none` for the `IndexError` of `pop(0)`. -/
def push (maxBuffer : ℕ) (f : Flow) (w : FlowWindow Flow) : Option (FlowWindow Flow) :=
  if maxBuffer ≤ w.buffer.length then
    match w.buffer with
    | [] => none
    | _ :: rest => some { w with buffer := rest ++ [f] }
  else some { w with buffer := w.buffer ++ [f] }

theorem windowStartIso_push (maxBuffer : ℕ) (f : Flow) (w : FlowWindow Flow) :
    ((w.push maxBuffer f).getD w).windowStartIso = w.windowStartIso := by
  obtain ⟨buffer, start⟩ := w
  rw [push]
  split_ifs
  · cases buffer with
    | nil => rfl
    | cons _ rest => rfl
  · rfl

/-- The part of `_fire` under the lock, at the given time. -/
def fire (utcNowIso : String) (w : FlowWindow Flow) : FlowWindow Flow × Snapshot Flow :=
  ({ buffer := [], windowStartIso := utcNowIso },
    { flows := w.buffer, windowStart := w.windowStartIso, windowEnd := utcNowIso })

end FlowWindow

/-! ## Runs -/

/-- A call. -/
inductive WindowCall (Flow : Type) where
  | push (f : Flow)
  | fire (utcNowIso : String)

/-- A window and the snapshots that were taken of it. -/
structure WindowRun (Flow : Type) where
  window : FlowWindow Flow
  snapshots : List (Snapshot Flow)

/-- One call; a push that raises leaves the window as it was. -/
def WindowRun.step (maxBuffer : ℕ) (r : WindowRun Flow) : WindowCall Flow → WindowRun Flow
  | .push f => { r with window := (r.window.push maxBuffer f).getD r.window }
  | .fire now =>
    let (window, snapshot) := r.window.fire now
    { window, snapshots := r.snapshots ++ [snapshot] }

/-- The calls in order, from an empty buffer. -/
def windowRun (maxBuffer : ℕ) (start : String) (calls : List (WindowCall Flow)) : WindowRun Flow :=
  calls.foldl (WindowRun.step maxBuffer) { window := ⟨[], start⟩, snapshots := [] }

/-- The flows of the calls in the order in which they are pushed. -/
def pushed (calls : List (WindowCall Flow)) : List Flow :=
  calls.filterMap fun
    | .push f => some f
    | .fire _ => none

/-- The flow at a position of the pushed ones is an overflow victim: it is the oldest of a buffer
that holds the limit when another flow is pushed. -/
def Victim (maxBuffer : ℕ) (start : String) (calls : List (WindowCall Flow)) (p : ℕ) : Prop :=
  ∃ before f after, calls = before ++ .push f :: after ∧
    (windowRun maxBuffer start before).window.buffer.length = maxBuffer ∧
    (windowRun maxBuffer start before).window.buffer = (pushed before).drop p

/-- The flows in the snapshots, in order, and then those in the buffer. -/
def WindowRun.delivered (r : WindowRun Flow) : List Flow :=
  (r.snapshots.map Snapshot.flows).flatten ++ r.window.buffer

/-- What is conserved by a run. -/
structure Conserved (maxBuffer : ℕ) (start : String) (calls : List (WindowCall Flow)) : Prop where
  /-- The snapshots and the buffer are the pushed flows at increasing positions, which are all but
  those of the victims. -/
  kept : ∃ positions : List ℕ, positions.Pairwise (· < ·) ∧
    positions.map (fun p => (pushed calls)[p]?) =
      (windowRun maxBuffer start calls).delivered.map some ∧
    ∀ p < (pushed calls).length, p ∉ positions ↔ Victim maxBuffer start calls p
  bounded : (windowRun maxBuffer start calls).window.buffer.length ≤ maxBuffer
  /-- Each window starts where the one before it ends, and the open one where the last ends. -/
  chained : ((windowRun maxBuffer start calls).snapshots.map Snapshot.windowStart ++
      [(windowRun maxBuffer start calls).window.windowStartIso]) =
    start :: (windowRun maxBuffer start calls).snapshots.map Snapshot.windowEnd

/-! ## One step -/

section Steps

variable {maxBuffer : ℕ} {start : String} {calls : List (WindowCall Flow)}

theorem windowRun_append (call : WindowCall Flow) :
    windowRun maxBuffer start (calls ++ [call]) =
      (windowRun maxBuffer start calls).step maxBuffer call := by
  rw [windowRun, List.foldl_append]
  rfl

theorem pushed_push (f : Flow) : pushed (calls ++ [.push f]) = pushed calls ++ [f] := by
  rw [pushed, List.filterMap_append]
  rfl

theorem pushed_fire (now : String) : pushed (calls ++ [.fire now]) = pushed calls := by
  rw [pushed, List.filterMap_append]
  exact List.append_nil _

/-- A snapshot has no victim. -/
theorem victim_fire (now : String) (p : ℕ) :
    Victim maxBuffer start (calls ++ [.fire now]) p ↔ Victim maxBuffer start calls p := by
  constructor
  · rintro ⟨before, f, after, hcalls, hfull, hdrop⟩
    cases after using List.reverseRecOn with
    | nil =>
      have hlast := List.append_inj_right' hcalls rfl
      exact nomatch hlast
    | append_singleton after c =>
      rw [← List.cons_append, ← List.append_assoc] at hcalls
      exact ⟨before, f, after, List.append_inj_left' hcalls rfl, hfull, hdrop⟩
  · rintro ⟨before, f, after, rfl, hfull, hdrop⟩
    exact ⟨before, f, after ++ [.fire now], by simp, hfull, hdrop⟩

/-- A push has a victim when it finds the buffer full. -/
theorem victim_push (f : Flow) (p : ℕ) :
    Victim maxBuffer start (calls ++ [.push f]) p ↔ Victim maxBuffer start calls p ∨
      (windowRun maxBuffer start calls).window.buffer.length = maxBuffer ∧
        (windowRun maxBuffer start calls).window.buffer = (pushed calls).drop p := by
  constructor
  · rintro ⟨before, g, after, hcalls, hfull, hdrop⟩
    cases after using List.reverseRecOn with
    | nil =>
      obtain rfl := List.append_inj_left' hcalls rfl
      exact .inr ⟨hfull, hdrop⟩
    | append_singleton after c =>
      rw [← List.cons_append, ← List.append_assoc] at hcalls
      exact .inl ⟨before, g, after, List.append_inj_left' hcalls rfl, hfull, hdrop⟩
  · rintro (⟨before, g, after, rfl, hfull, hdrop⟩ | ⟨hfull, hdrop⟩)
    · exact ⟨before, g, after ++ [.push f], by simp, hfull, hdrop⟩
    · exact ⟨calls, f, [], rfl, hfull, hdrop⟩

/-- How a run stands to the pushed flows: those from `first` on are in the buffer, and `taken` are
the positions of those in the snapshots. -/
structure Tracked (maxBuffer : ℕ) (start : String) (calls : List (WindowCall Flow)) (first : ℕ)
    (taken : List ℕ) : Prop where
  first_le : first ≤ (pushed calls).length
  buffer : (windowRun maxBuffer start calls).window.buffer = (pushed calls).drop first
  bounded : (windowRun maxBuffer start calls).window.buffer.length ≤ maxBuffer
  increasing : taken.Pairwise (· < ·)
  taken_lt : ∀ p ∈ taken, p < first
  flows : taken.map (fun p => (pushed calls)[p]?) =
    ((windowRun maxBuffer start calls).snapshots.map Snapshot.flows).flatten.map some
  victim : ∀ p, Victim maxBuffer start calls p ↔ p < first ∧ p ∉ taken

/-- The flows at some positions are those of the flows with one more. -/
theorem map_getElem?_append {flows more : List Flow} {positions : List ℕ}
    (h : ∀ p ∈ positions, p < flows.length) :
    positions.map (fun p => (flows ++ more)[p]?) = positions.map fun p => flows[p]? := by
  refine List.map_congr_left fun p hp => ?_
  exact List.getElem?_append_left (h p hp)

/-- The positions from one on are those of the rest. -/
theorem map_getElem?_range' (flows : List Flow) (first : ℕ) :
    (List.range' first (flows.length - first)).map (fun p => flows[p]?) =
      (flows.drop first).map some := by
  refine List.ext_getElem? fun i => ?_
  rw [List.getElem?_map, List.getElem?_map, List.getElem?_drop]
  by_cases hi : i < flows.length - first
  · have hlt : first + i < flows.length := by omega
    rw [List.getElem?_range' hi, List.getElem?_eq_getElem hlt]
    simp [List.getElem?_eq_getElem hlt]
  · have hge : flows.length ≤ first + i := by omega
    have hlen : (List.range' first (flows.length - first)).length ≤ i := by
      rw [List.length_range']
      omega
    rw [List.getElem?_eq_none hge, List.getElem?_eq_none hlen]
    rfl

/-- A push moves the start of the buffer on when it is full. -/
theorem Tracked.push (hmax : 1 ≤ maxBuffer) {first : ℕ} {taken : List ℕ}
    (h : Tracked maxBuffer start calls first taken) (f : Flow) :
    ∃ first', Tracked maxBuffer start (calls ++ [.push f]) first' taken := by
  have htaken : ∀ p ∈ taken, p < (pushed calls).length :=
    fun p hp => lt_of_lt_of_le (h.taken_lt p hp) h.first_le
  have hlen := congrArg List.length h.buffer
  rw [List.length_drop] at hlen
  by_cases hfull : maxBuffer ≤ (windowRun maxBuffer start calls).window.buffer.length
  · have heq := le_antisymm h.bounded hfull
    have hlt : first < (pushed calls).length := by omega
    have hdrop := List.drop_eq_getElem_cons hlt
    have hstep : (windowRun maxBuffer start (calls ++ [.push f])).window.buffer =
        (pushed calls).drop (first + 1) ++ [f] := by
      rw [windowRun_append, WindowRun.step, FlowWindow.push, if_pos hfull, h.buffer, hdrop]
      rfl
    refine ⟨first + 1, ?_, ?_, ?_, h.increasing, ?_, ?_, ?_⟩
    · rw [pushed_push, List.length_append, List.length_singleton]
      omega
    · rw [hstep, pushed_push, List.drop_append_of_le_length (by omega)]
    · rw [hstep, List.length_append, List.length_drop, List.length_singleton]
      omega
    · intro p hp
      have hp' := h.taken_lt p hp
      omega
    · rw [pushed_push, map_getElem?_append htaken, h.flows, windowRun_append]
      rfl
    · intro p
      rw [victim_push, h.victim]
      -- The new victim is at the start of the buffer.
      have hnew : ((windowRun maxBuffer start calls).window.buffer.length = maxBuffer ∧
          (windowRun maxBuffer start calls).window.buffer = (pushed calls).drop p) ↔ p = first := by
        constructor
        · rintro ⟨-, hp⟩
          have hlenp := congrArg List.length hp
          rw [List.length_drop] at hlenp
          omega
        · rintro rfl
          exact ⟨heq, h.buffer⟩
      have hnot : first ∉ taken := fun hmem => lt_irrefl _ (h.taken_lt first hmem)
      rw [hnew]
      constructor
      · rintro (⟨hp, hmem⟩ | rfl)
        · exact ⟨by omega, hmem⟩
        · exact ⟨by omega, hnot⟩
      · rintro ⟨hp, hmem⟩
        rcases Nat.lt_succ_iff_lt_or_eq.mp hp with hp | hp
        · exact .inl ⟨hp, hmem⟩
        · exact .inr hp
  · have hstep : (windowRun maxBuffer start (calls ++ [.push f])).window.buffer =
        (pushed calls).drop first ++ [f] := by
      rw [windowRun_append, WindowRun.step, FlowWindow.push, if_neg hfull, h.buffer]
      rfl
    refine ⟨first, ?_, ?_, ?_, h.increasing, h.taken_lt, ?_, ?_⟩
    · rw [pushed_push, List.length_append]
      have hfirst := h.first_le
      omega
    · rw [hstep, pushed_push, List.drop_append_of_le_length h.first_le]
    · rw [hstep, List.length_append, List.length_drop, List.length_singleton]
      omega
    · rw [pushed_push, map_getElem?_append htaken, h.flows, windowRun_append]
      rfl
    · intro p
      rw [victim_push, h.victim]
      constructor
      · rintro (hp | ⟨hp, -⟩)
        · exact hp
        · exact absurd hp.ge hfull
      · exact .inl

/-- A snapshot takes the positions of the buffer. -/
theorem Tracked.fire {first : ℕ} {taken : List ℕ} (h : Tracked maxBuffer start calls first taken)
    (now : String) :
    Tracked maxBuffer start (calls ++ [.fire now]) (pushed calls).length
      (taken ++ List.range' first ((pushed calls).length - first)) := by
  have hfirst := h.first_le
  have hmem : ∀ p, p ∈ List.range' first ((pushed calls).length - first) ↔
      first ≤ p ∧ p < (pushed calls).length := by
    intro p
    rw [List.mem_range'_1]
    omega
  have hstep : windowRun maxBuffer start (calls ++ [.fire now]) =
      { window := ⟨[], now⟩
        snapshots := (windowRun maxBuffer start calls).snapshots ++
          [((windowRun maxBuffer start calls).window.fire now).2] } := windowRun_append _
  refine ⟨?_, ?_, ?_, ?_, ?_, ?_, ?_⟩
  · rw [pushed_fire]
  · rw [hstep, pushed_fire, List.drop_length]
  · rw [hstep]
    exact Nat.zero_le _
  · refine List.pairwise_append.mpr ⟨h.increasing, List.pairwise_lt_range', fun p hp q hq => ?_⟩
    exact lt_of_lt_of_le (h.taken_lt p hp) ((hmem q).mp hq).1
  · intro p hp
    rcases List.mem_append.mp hp with hp | hp
    · exact lt_of_lt_of_le (h.taken_lt p hp) hfirst
    · exact ((hmem p).mp hp).2
  · rw [hstep, pushed_fire, List.map_append, h.flows, map_getElem?_range', ← h.buffer]
    simp [FlowWindow.fire]
  · intro p
    rw [victim_fire, h.victim, List.mem_append, hmem]
    constructor
    · rintro ⟨hp, hno⟩
      exact ⟨by omega, by rintro (hp' | hp'); exacts [hno hp', by omega]⟩
    · rintro ⟨hp, hno⟩
      have hlt : p < first := by
        by_contra hge
        exact hno (.inr ⟨by omega, hp⟩)
      exact ⟨hlt, fun hp' => hno (.inl hp')⟩

end Steps

/-! ## Every run -/

theorem exists_tracked {maxBuffer : ℕ} (hmax : 1 ≤ maxBuffer) (start : String)
    (calls : List (WindowCall Flow)) :
    ∃ first taken, Tracked maxBuffer start calls first taken := by
  induction calls using List.reverseRecOn with
  | nil =>
    refine ⟨0, [], le_rfl, rfl, Nat.zero_le _, List.Pairwise.nil, nofun, rfl, fun p => ?_⟩
    constructor
    · rintro ⟨before, f, after, hcalls, -⟩
      exact absurd hcalls (by simp)
    · rintro ⟨hp, -⟩
      exact absurd hp (Nat.not_lt_zero p)
  | append_singleton calls call ih =>
    obtain ⟨first, taken, h⟩ := ih
    cases call with
    | push f =>
      obtain ⟨first', h'⟩ := h.push hmax f
      exact ⟨first', taken, h'⟩
    | fire now => exact ⟨_, _, h.fire now⟩

/-- The windows of a run follow each other without a gap. -/
theorem windowStart_chained (maxBuffer : ℕ) (start : String) (calls : List (WindowCall Flow)) :
    ((windowRun maxBuffer start calls).snapshots.map Snapshot.windowStart ++
      [(windowRun maxBuffer start calls).window.windowStartIso]) =
    start :: (windowRun maxBuffer start calls).snapshots.map Snapshot.windowEnd := by
  induction calls using List.reverseRecOn with
  | nil => rfl
  | append_singleton calls call ih =>
    rw [windowRun_append]
    cases call with
    | push f =>
      have hstart := FlowWindow.windowStartIso_push maxBuffer f
        (windowRun maxBuffer start calls).window
      rw [WindowRun.step, hstart]
      exact ih
    | fire now =>
      rw [WindowRun.step, List.map_append, List.map_append, ← List.cons_append, ← ih]
      rfl

/-- No flow is lost but at the front of a full buffer, and none is delivered twice. -/
theorem conserved_of_pos {maxBuffer : ℕ} (hmax : 1 ≤ maxBuffer) (start : String)
    (calls : List (WindowCall Flow)) : Conserved maxBuffer start calls := by
  obtain ⟨first, taken, h⟩ := exists_tracked hmax start calls
  have hfire := h.fire start
  refine ⟨⟨_, hfire.increasing, ?_, fun p hp => ?_⟩, h.bounded, windowStart_chained _ _ _⟩
  · have hflows := hfire.flows
    rw [pushed_fire, windowRun_append] at hflows
    rw [hflows, WindowRun.delivered]
    simp [WindowRun.step, FlowWindow.fire]
  · rw [← victim_fire start, hfire.victim]
    exact ⟨fun hno => ⟨hp, hno⟩, fun hno => hno.2⟩

/-- Three flows in a buffer of two: the first is the victim of the third. -/
theorem conserved_three :
    Conserved 2 "10:00" [.push 1, .push 2, .push 3, .fire "10:02", .push 4] ∧
      (windowRun 2 "10:00" [.push 1, .push 2, .push 3, .fire "10:02", .push 4]).delivered =
        [2, 3, 4] :=
  ⟨conserved_of_pos (by decide) _ _, rfl⟩

end ControlPlane.Intel
