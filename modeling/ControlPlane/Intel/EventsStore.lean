import ControlPlane.Lib.JsonRoundTrip
import ControlPlane.Lib.SortedSet
import Mathlib.Data.List.Lex

/-!
# The buffer of events

`EventsStore` of `storage/events_store.py`, on two sorted sets of Redis. What a set holds after an
operation is computed of the history alone: of the payloads that were ever pushed to it, each with
the time of its last push (`lastPushes`), those behind the cutoff, and of these the newest ones
(`newest_of_sorted`). The invariant `Newest` is kept by each operation.
-/

namespace ControlPlane.Intel

open JsonText

variable {Obj : Type}

/-- The sets: `KEY_VIOLATIONS` and `KEY_FLOWS`. -/
inductive EventKind where
  | violation
  | flow
  deriving DecidableEq

/-- The settings of the store. -/
structure EventsConfig where
  /-- `_retention_ms`. -/
  retentionMs : ℤ
  /-- `_max_total`. -/
  maxTotal : ℕ

/-- A sorted set of payloads by the time of their push, in milliseconds. -/
abbrev EventSet := SortedSet ℤ PyStr

/-- The sorted sets of the database. -/
abbrev EventSets := EventKind → EventSet

/-- `json.dumps(event, default=str)`. -/
def payload (J : Interp Obj) (event : PyVal Obj) : Except PyStr PyStr :=
  J.dumps { sortKeys := false, default := J.str } event

/-- An operation, at a time of the clock. -/
inductive StoreCall (Obj : Type) where
  /-- `push_violation` and `push_flow`. -/
  | push (kind : EventKind) (event : PyVal Obj) (tsMs : ℤ)
  /-- `prune`. -/
  | prune (nowMs : ℤ)

namespace StoreCall

/-- The time of an operation. -/
def time : StoreCall Obj → ℤ
  | push _ _ tsMs => tsMs
  | prune nowMs => nowMs

end StoreCall

namespace EventsConfig

variable (cfg : EventsConfig)

/-- What `prune` does to one set. -/
def trim (cutoff : ℤ) (s : EventSet) : EventSet :=
  (s.zremrangebyscore cutoff).zremrangebyrank 0 (-cfg.maxTotal - 1)

/-- The commands of `_push`. -/
def pushPayload (tsMs : ℤ) (member : PyStr) (s : EventSet) : EventSet :=
  cfg.trim (tsMs - cfg.retentionMs) (s.zadd tsMs member)

variable (J : Interp Obj)

/-- An operation; a push of an event that has no payload does nothing. -/
def step (sets : EventSets) : StoreCall Obj → EventSets
  | .push kind event tsMs =>
    match payload J event with
    | .ok member => fun k => if k = kind then cfg.pushPayload tsMs member (sets k) else sets k
    | .error _ => sets
  | .prune nowMs => fun k => cfg.trim (nowMs - cfg.retentionMs) (sets k)

/-- The sets after some operations on an empty database. -/
def setsAfter (calls : List (StoreCall Obj)) : EventSets :=
  calls.foldl (cfg.step J) fun _ => .empty

end EventsConfig

/-! ## What was pushed -/

variable (J : Interp Obj)

/-- The payload that an operation pushes to a set, and when. -/
def StoreCall.pushes (kind : EventKind) : StoreCall Obj → Option (ℤ × PyStr)
  | .push k event tsMs => if k = kind then (payload J event).toOption.map (tsMs, ·) else none
  | .prune _ => none

/-- The payloads that were pushed to a set, in order. -/
def pushesTo (kind : EventKind) (calls : List (StoreCall Obj)) : List (ℤ × PyStr) :=
  calls.filterMap (StoreCall.pushes J kind)

/-- When a payload was pushed the last time. -/
def lastTime (pushes : List (ℤ × PyStr)) (member : PyStr) : Option ℤ :=
  (pushes.filter (·.2 = member)).getLast?.map Prod.fst

/-- The payloads, each with the time of its last push. -/
def lastPushes (pushes : List (ℤ × PyStr)) : Finset (ℤ ×ₗ PyStr) :=
  (pushes.map toLex).toFinset.filter fun e => lastTime pushes (ofLex e).2 = some (ofLex e).1

/-- The payloads whose last push is later than a cutoff. -/
def alive (cutoff : ℤ) (pushes : List (ℤ × PyStr)) : Finset (ℤ ×ₗ PyStr) :=
  (lastPushes pushes).filter fun e => cutoff < (ofLex e).1

/-- The cutoff of an operation for a set, when it is a prune or a push to it. -/
def StoreCall.cutoff (cfg : EventsConfig) (kind : EventKind) : StoreCall Obj → Option ℤ
  | .push k event tsMs =>
    if k = kind ∧ (payload J event).isOk then some (tsMs - cfg.retentionMs) else none
  | .prune nowMs => some (nowMs - cfg.retentionMs)

section LastPushes

variable {pushes : List (ℤ × PyStr)}

theorem mem_lastPushes {e : ℤ ×ₗ PyStr} :
    e ∈ lastPushes pushes ↔ lastTime pushes (ofLex e).2 = some (ofLex e).1 := by
  rw [lastPushes, Finset.mem_filter, and_iff_right_of_imp]
  intro h
  obtain ⟨i, hi, htime⟩ := Option.map_eq_some_iff.mp h
  obtain ⟨hmem, hmember⟩ := List.mem_filter.mp (List.mem_of_getLast? hi)
  have he : toLex i = e := congrArg toLex (Prod.ext htime (of_decide_eq_true hmember))
  exact List.mem_toFinset.mpr (List.mem_map.mpr ⟨i, hmem, he⟩)

theorem lastTime_append (tsMs : ℤ) (member m : PyStr) :
    lastTime (pushes ++ [(tsMs, member)]) m =
      if member = m then some tsMs else lastTime pushes m := by
  rw [lastTime, List.filter_append]
  by_cases hm : member = m
  · rw [if_pos hm]
    simp [hm]
  · rw [if_neg hm]
    simp [hm, lastTime]

/-- A push gives its payload the new time. -/
theorem lastPushes_append (tsMs : ℤ) (member : PyStr) :
    lastPushes (pushes ++ [(tsMs, member)]) = insert (toLex (tsMs, member))
      ((lastPushes pushes).filter fun e => ¬ (ofLex e).2 = member) := by
  ext e
  rw [mem_lastPushes, lastTime_append, Finset.mem_insert, Finset.mem_filter, mem_lastPushes]
  by_cases hm : member = (ofLex e).2
  · rw [if_pos hm, or_iff_left (fun h => h.2 hm.symm), Option.some_inj]
    constructor
    · intro htime
      exact congrArg toLex (Prod.ext htime.symm hm.symm)
    · intro he
      exact (congrArg (fun e => (ofLex e).1) he).symm
  · rw [if_neg hm, or_iff_right, and_iff_left (Ne.symm hm)]
    intro he
    exact hm (congrArg (fun e => (ofLex e).2) he).symm

/-- What is put in the place of some entries, behind a cutoff. -/
theorem filter_insert_filter (cutoff tsMs : ℤ) (member : PyStr) (X : Finset (ℤ ×ₗ PyStr)) :
    (insert (toLex (tsMs, member)) (X.filter fun e => ¬ (ofLex e).2 = member)).filter
        (fun e => cutoff < (ofLex e).1) =
      if cutoff < tsMs then insert (toLex (tsMs, member))
        ((X.filter fun e => cutoff < (ofLex e).1).filter fun e => ¬ (ofLex e).2 = member)
      else (X.filter fun e => cutoff < (ofLex e).1).filter fun e => ¬ (ofLex e).2 = member := by
  rw [Finset.filter_insert, Finset.filter_comm]
  rfl

theorem alive_append (cutoff tsMs : ℤ) (member : PyStr) :
    alive cutoff (pushes ++ [(tsMs, member)]) =
      if cutoff < tsMs then insert (toLex (tsMs, member))
        ((alive cutoff pushes).filter fun e => ¬ (ofLex e).2 = member)
      else (alive cutoff pushes).filter fun e => ¬ (ofLex e).2 = member := by
  rw [alive, lastPushes_append]
  exact filter_insert_filter _ _ _ _

/-- A payload has one last push. -/
theorem eq_of_mem_lastPushes {e e' : ℤ ×ₗ PyStr} (he : e ∈ lastPushes pushes)
    (he' : e' ∈ lastPushes pushes) (h : (ofLex e).2 = (ofLex e').2) : e = e' := by
  rw [mem_lastPushes] at he he'
  rw [h, he', Option.some_inj] at he
  exact congrArg toLex (Prod.ext he.symm h)

theorem time_of_mem_lastPushes {now : ℤ} (hnow : ∀ i ∈ pushes, i.1 ≤ now) {e : ℤ ×ₗ PyStr}
    (he : e ∈ lastPushes pushes) : (ofLex e).1 ≤ now := by
  obtain ⟨i, hi, rfl⟩ := List.mem_map.mp (List.mem_toFinset.mp (Finset.mem_filter.mp he).1)
  exact hnow i hi

end LastPushes

/-! ## The invariant -/

section Newest

variable {J} {cfg : EventsConfig} {calls : List (StoreCall Obj)} {kind : EventKind}

/-- Later entries are greater. -/
theorem cutoff_mono {cutoff : ℤ} (e e' : ℤ ×ₗ PyStr) (h : e ≤ e') (he : cutoff < (ofLex e).1) :
    cutoff < (ofLex e').1 := by
  rcases Prod.Lex.le_iff.mp h with hlt | ⟨heq, -⟩
  · exact lt_trans he hlt
  · exact heq ▸ he

/-- Behind any cutoff that is not before those of the operations, the set has the newest
payloads. -/
def Newest (J : Interp Obj) (cfg : EventsConfig) (kind : EventKind)
    (calls : List (StoreCall Obj)) : Prop :=
  ∀ cutoff, (∀ call ∈ calls, call.time - cfg.retentionMs ≤ cutoff) →
    (cfg.setsAfter J calls kind).entries.filter (fun e => cutoff < (ofLex e).1) =
      greatest cfg.maxTotal (alive cutoff (pushesTo J kind calls))

theorem setsAfter_append (call : StoreCall Obj) :
    cfg.setsAfter J (calls ++ [call]) = cfg.step J (cfg.setsAfter J calls) call := by
  rw [EventsConfig.setsAfter, List.foldl_append]
  rfl

/-- The entries that are left behind a cutoff. -/
theorem entries_trim (cutoff : ℤ) (s : EventSet) :
    (cfg.trim cutoff s).entries =
      greatest cfg.maxTotal (s.entries.filter fun e => cutoff < (ofLex e).1) :=
  SortedSet.zremrangebyrank_cap _ _

/-- A set that has the newest payloads at a cutoff has them at every later one. -/
theorem newest_of_entries {c : ℤ} {pushes : List (ℤ × PyStr)} {s : EventSet}
    (h : s.entries = greatest cfg.maxTotal (alive c pushes)) {cutoff : ℤ} (hle : c ≤ cutoff) :
    s.entries.filter (fun e => cutoff < (ofLex e).1) =
      greatest cfg.maxTotal (alive cutoff pushes) := by
  rw [h, ← greatest_filter cutoff_mono, alive, alive, Finset.filter_filter]
  congr 1
  refine Finset.filter_congr fun e _ => ?_
  exact ⟨fun h => h.2, fun h => ⟨lt_of_le_of_lt hle h, h⟩⟩

/-- A push at a time that is not before any other leaves the newest payloads. -/
theorem entries_pushPayload {tsMs : ℤ} {member : PyStr} {pushes : List (ℤ × PyStr)} {s : EventSet}
    (htime : ∀ i ∈ pushes, i.1 ≤ tsMs)
    (h : s.entries.filter (fun e => tsMs - cfg.retentionMs < (ofLex e).1) =
      greatest cfg.maxTotal (alive (tsMs - cfg.retentionMs) pushes)) :
    (cfg.pushPayload tsMs member s).entries =
      greatest cfg.maxTotal (alive (tsMs - cfg.retentionMs) (pushes ++ [(tsMs, member)])) := by
  have hone : ∀ e ∈ alive (tsMs - cfg.retentionMs) pushes,
      ∀ e' ∈ alive (tsMs - cfg.retentionMs) pushes, (ofLex e).2 = member → (ofLex e').2 = member →
        e = e' := by
    intro e he e' he' hm hm'
    exact eq_of_mem_lastPushes (Finset.mem_filter.mp he).1 (Finset.mem_filter.mp he').1
      (hm.trans hm'.symm)
  have hle : ∀ e ∈ alive (tsMs - cfg.retentionMs) pushes, (ofLex e).2 = member →
      e ≤ toLex (tsMs, member) := by
    intro e he hm
    have htimes := time_of_mem_lastPushes htime (Finset.mem_filter.mp he).1
    rcases htimes.lt_or_eq with hlt | heq
    · exact Prod.Lex.le_iff.mpr (.inl hlt)
    · exact Prod.Lex.le_iff.mpr (.inr ⟨heq, hm.le⟩)
  rw [EventsConfig.pushPayload, entries_trim, SortedSet.entries_zadd, filter_insert_filter, h,
    alive_append]
  split_ifs with hnew
  · exact greatest_replace hone hle fun _ => rfl
  · -- Nothing is newer than the cutoff.
    have hempty : alive (tsMs - cfg.retentionMs) pushes = ∅ := by
      refine Finset.filter_eq_empty_iff.mpr fun e he => ?_
      have hbefore := time_of_mem_lastPushes htime he
      omega
    rw [hempty]
    rfl

/-- The pushes were made at the times of the operations. -/
theorem exists_call_of_mem_pushesTo {i : ℤ × PyStr} (hi : i ∈ pushesTo J kind calls) :
    ∃ call ∈ calls, call.time = i.1 := by
  obtain ⟨call, hcall, hpush⟩ := List.mem_filterMap.mp hi
  refine ⟨call, hcall, ?_⟩
  cases call with
  | prune nowMs => exact nomatch hpush
  | push k event tsMs =>
    rw [StoreCall.pushes] at hpush
    split_ifs at hpush
    obtain ⟨member, -, rfl⟩ := Option.map_eq_some_iff.mp hpush
    rfl

/-- What an operation does to a set: a push to it, a prune, or nothing. -/
theorem step_cases (cfg : EventsConfig) (sets : EventSets) (call : StoreCall Obj)
    (kind : EventKind) :
    (∃ member, call.pushes J kind = some (call.time, member) ∧
      call.cutoff J cfg kind = some (call.time - cfg.retentionMs) ∧
      cfg.step J sets call kind = cfg.pushPayload call.time member (sets kind)) ∨
    (call.pushes J kind = none ∧ call.cutoff J cfg kind = some (call.time - cfg.retentionMs) ∧
      cfg.step J sets call kind = cfg.trim (call.time - cfg.retentionMs) (sets kind)) ∨
    (call.pushes J kind = none ∧ call.cutoff J cfg kind = none ∧
      cfg.step J sets call kind = sets kind) := by
  cases call with
  | prune nowMs => exact .inr (.inl ⟨rfl, rfl, rfl⟩)
  | push k event tsMs =>
    rw [StoreCall.pushes, StoreCall.cutoff, EventsConfig.step]
    cases hp : payload J event with
    | error e =>
      refine .inr (.inr ⟨?_, ?_, rfl⟩)
      · simp [Except.toOption]
      · simp [Except.isOk, Except.toBool]
    | ok member =>
      by_cases hk : k = kind
      · subst hk
        refine .inl ⟨member, ?_, ?_, ?_⟩
        · rw [if_pos rfl]
          rfl
        · exact if_pos ⟨rfl, rfl⟩
        · exact if_pos rfl
      · refine .inr (.inr ⟨if_neg hk, if_neg fun h => hk h.1, ?_⟩)
        exact if_neg (Ne.symm hk)

theorem pushesTo_append (call : StoreCall Obj) :
    pushesTo J kind (calls ++ [call]) =
      pushesTo J kind calls ++ (call.pushes J kind).toList := by
  rw [pushesTo, List.filterMap_append]
  cases h : call.pushes J kind with
  | none => simp [pushesTo, h]
  | some i => simp [pushesTo, h]

/-- After an operation on a set it has the newest payloads behind the cutoff of the operation. -/
theorem entries_append {call : StoreCall Obj} {cutoff : ℤ} (h : Newest J cfg kind calls)
    (htime : ∀ c ∈ calls, c.time ≤ call.time) (hcut : call.cutoff J cfg kind = some cutoff) :
    (cfg.setsAfter J (calls ++ [call]) kind).entries =
      greatest cfg.maxTotal (alive cutoff (pushesTo J kind (calls ++ [call]))) := by
  have hlast := h (call.time - cfg.retentionMs) fun c hc => by
    have hle := htime c hc
    omega
  rw [setsAfter_append, pushesTo_append]
  rcases step_cases (J := J) cfg (cfg.setsAfter J calls) call kind with
    ⟨member, hpush, hc, hstep⟩ | ⟨hpush, hc, hstep⟩ | ⟨-, hc, -⟩
  · obtain rfl := Option.some_inj.mp (hcut.symm.trans hc)
    rw [hstep, hpush]
    refine entries_pushPayload (fun i hi => ?_) hlast
    obtain ⟨c, hcall, hci⟩ := exists_call_of_mem_pushesTo hi
    exact hci ▸ htime c hcall
  · obtain rfl := Option.some_inj.mp (hcut.symm.trans hc)
    rw [hstep, hpush, entries_trim, hlast, greatest_greatest]
    simp
  · exact nomatch hcut.symm.trans hc

/-- Each operation keeps the invariant. -/
theorem Newest.append {call : StoreCall Obj} (h : Newest J cfg kind calls)
    (htime : ∀ c ∈ calls, c.time ≤ call.time) : Newest J cfg kind (calls ++ [call]) := by
  intro cutoff hle
  have hcalls : ∀ c ∈ calls, c.time - cfg.retentionMs ≤ cutoff :=
    fun c hc => hle c (List.mem_append_left _ hc)
  cases hcut : call.cutoff J cfg kind with
  | some c =>
    refine newest_of_entries (entries_append h htime hcut) ?_
    have hcall := hle call (by simp)
    rcases step_cases (J := J) cfg (cfg.setsAfter J calls) call kind with
      ⟨_, -, hc, -⟩ | ⟨-, hc, -⟩ | ⟨-, hc, -⟩
    · exact (Option.some_inj.mp (hcut.symm.trans hc)).trans_le hcall
    · exact (Option.some_inj.mp (hcut.symm.trans hc)).trans_le hcall
    · exact nomatch hcut.symm.trans hc
  | none =>
    rcases step_cases (J := J) cfg (cfg.setsAfter J calls) call kind with
      ⟨_, -, hc, -⟩ | ⟨-, hc, -⟩ | ⟨hpush, -, hstep⟩
    · exact nomatch hcut.symm.trans hc
    · exact nomatch hcut.symm.trans hc
    · rw [setsAfter_append, hstep, pushesTo_append, hpush, h cutoff hcalls]
      simp

end Newest

/-! ## Every history -/

theorem newest_of_sorted (J : Interp Obj) (cfg : EventsConfig) (kind : EventKind)
    (calls : List (StoreCall Obj)) (htimes : calls.Pairwise fun c d => c.time ≤ d.time) :
    Newest J cfg kind calls := by
  induction calls using List.reverseRecOn with
  | nil =>
    intro cutoff _
    rfl
  | append_singleton calls call ih =>
    obtain ⟨hcalls, -, hlast⟩ := List.pairwise_append.mp htimes
    exact (ih hcalls).append fun c hc => hlast c hc call (by simp)

/-- After an operation on a set it has the payloads whose last push is behind the cutoff, and of
these the newest. -/
theorem set_eq_newest (J : Interp Obj) (cfg : EventsConfig) (kind : EventKind)
    (calls : List (StoreCall Obj)) (call : StoreCall Obj)
    (htimes : (calls ++ [call]).Pairwise fun c d => c.time ≤ d.time) (cutoff : ℤ)
    (hcut : call.cutoff J cfg kind = some cutoff) :
    (cfg.setsAfter J (calls ++ [call]) kind).entries =
        greatest cfg.maxTotal (alive cutoff (pushesTo J kind (calls ++ [call]))) ∧
      (cfg.setsAfter J (calls ++ [call]) kind).entries.card ≤ cfg.maxTotal := by
  obtain ⟨hcalls, -, hlast⟩ := List.pairwise_append.mp htimes
  have heq := entries_append (newest_of_sorted J cfg kind calls hcalls)
    (fun c hc => hlast c hc call (by simp)) hcut
  refine ⟨heq, ?_⟩
  rw [heq]
  exact card_greatest_le _ _

/-- An event with a port. -/
def portEvent (port : ℤ) : PyVal PyStr := .dict [(.str (u "dest_port"), .int port)]

/-- A flow that is pushed twice to a store for one flow, with another one between. -/
theorem set_eq_newest_flow :
    ∃ cutoff, (StoreCall.push .flow (portEvent 80) 30).cutoff textInterp ⟨1000, 1⟩ .flow =
        some cutoff ∧
      ((EventsConfig.mk 1000 1).setsAfter textInterp [.push .flow (portEvent 80) 10,
          .push .flow (portEvent 22) 20, .push .flow (portEvent 80) 30] .flow).entries =
        greatest 1 (alive cutoff (pushesTo textInterp .flow [.push .flow (portEvent 80) 10,
          .push .flow (portEvent 22) 20, .push .flow (portEvent 80) 30])) :=
  ⟨-970, rfl, (set_eq_newest textInterp ⟨1000, 1⟩ .flow
    [.push .flow (portEvent 80) 10, .push .flow (portEvent 22) 20]
    (.push .flow (portEvent 80) 30) (by simp [StoreCall.time]) (-970) rfl).1⟩

end ControlPlane.Intel
