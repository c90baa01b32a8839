import ControlPlane.Stream.Consumer
import Mathlib.Data.List.Lex

/-!
# The label of a decision

`IncidentLabeler._label_one` asks for the alerts since a decision through `GET /alerts` of the agent
on the sensor, which passes the request on to `ids-api.py`. The labeler counts on the time in its
request, which the agent drops, and itself compares the alerts with the end of the window only.
`labelRight_iff` says for which alerts of the ring the label is right all the same.
-/

namespace ControlPlane.Stream

open JsonText

variable {Obj : Type}

/-! ## The alerts of the sensor -/

/-- The query of a request for the alerts. -/
structure AlertQuery where
  last : Option ℕ
  since : Option PyStr

/-- The text in the field `timestamp`, with `none` for another value. -/
def timestampText (a : Items Obj) : Option PyStr :=
  match getD a "timestamp" (.str []) with
  | .str s => some s
  | _ => none

/-- `get_alerts`, with `none` for a `TypeError`. -/
def getAlerts (ring : List (Items Obj)) (q : AlertQuery) : Option (List (Items Obj)) := do
  let data ← match q.since with
    | none => some ring
    | some since =>
      if ring.all fun a => (timestampText a).isSome then
        some (ring.filter fun a => since < (timestampText a).getD [])
      else none
  return match q.last with
    | none => data
    | some n => data.drop (data.length - n)

/-- The field `alert` has a `get`. -/
def hasSummary (a : Items Obj) : Bool :=
  match getD a "alert" (.dict []) with
  | .dict _ => true
  | _ => false

/-- The route `/alerts` of `ids-api.py`, with `none` for an exception, after which the reply has no
body. -/
def alertsRoute (ring : List (Items Obj)) (q : AlertQuery) : Option (List (Items Obj)) := do
  let alerts ← getAlerts ring q
  if alerts.all hasSummary then some alerts else none

/-- `alertsHandler` of the agent on the sensor. -/
def alertsHandler (ring : List (Items Obj)) (q : AlertQuery) : Option (List (Items Obj)) :=
  alertsRoute ring { q with since := none }

/-! ## The labeler -/

/-- A `datetime`, in microseconds: the time of an aware one, and the clock of a naive one. -/
inductive Datetime where
  | aware (t : ℤ)
  | naive (t : ℤ)

/-- The texts of times. -/
structure TimeTexts where
  /-- `datetime.fromisoformat(s)`, with `none` for a `ValueError`. -/
  fromisoformat : PyStr → Option Datetime
  /-- `t.isoformat()`, for an aware time. -/
  isoformat : ℤ → PyStr

/-- The label. -/
inductive IncidentLabel where
  | truePositive
  | recurrence
  | inconclusive
  deriving DecidableEq

/-- The fields of a decision that the labeler reads. -/
structure EnforcedDecision where
  alertSrcIp : Option PyStr
  /-- `created_at`, which is aware. -/
  createdAt : ℤ
  ttlSeconds : Option ℤ

namespace EnforcedDecision

/-- `decision.ttl_seconds or 3600`. -/
def ttl (d : EnforcedDecision) : ℤ :=
  match d.ttlSeconds with
  | some n => if n = 0 then 3600 else n
  | none => 3600

/-- `decision.created_at + timedelta(seconds=ttl)`. -/
def ttlEnd (d : EnforcedDecision) : ℤ := d.createdAt + d.ttl * 1000000

end EnforcedDecision

/-- How many alerts the labeler asks for. -/
def LABEL_LAST : ℕ := 200

/-- `ts_str.replace("Z", "+00:00")`. -/
def replaceZ (s : PyStr) : PyStr := s.flatMap fun c => if c = 90 then u "+00:00" else [c]

/-- `a.get("src_ip") == src`. -/
def isFrom (src : PyStr) (a : Items Obj) : Bool :=
  match getItem (u "src_ip") a with
  | some (.str s) => s = src
  | _ => false

variable (T : TimeTexts)

/-- The time of an alert, with `none` for one that is passed over. -/
def timeOf (a : Items Obj) : Option Datetime :=
  match getItem (u "timestamp") a with
  | some (.str s) => T.fromisoformat (replaceZ s)
  | _ => none

/-- The alerts within and after the time to live; `none` is the `TypeError` of a naive time. -/
def splitTtl (ttlEnd : ℤ) : List (Items Obj) → Option (List (Items Obj) × List (Items Obj))
  | [] => some ([], [])
  | a :: rest =>
    match timeOf T a with
    | none => splitTtl ttlEnd rest
    | some (.naive _) => none
    | some (.aware t) => do
      let (withinTtl, afterTtl) ← splitTtl ttlEnd rest
      if t < ttlEnd then some (a :: withinTtl, afterTtl) else some (withinTtl, a :: afterTtl)

/-- The label for these alerts; `none` is an exception. -/
def labelAlerts (d : EnforcedDecision) (src : PyStr) (alerts : List (Items Obj)) :
    Option IncidentLabel := do
  let recurrences := alerts.filter (isFrom src)
  let (withinTtl, _) ← splitTtl T d.ttlEnd recurrences
  if recurrences.isEmpty then some .truePositive
  else if !withinTtl.isEmpty then some .recurrence
  else some .truePositive

/-- `_label_one`, with what the request gives. -/
def labelOne (d : EnforcedDecision) (get : AlertQuery → Option (List (Items Obj))) :
    Option IncidentLabel :=
  match d.alertSrcIp with
  | none => some .inconclusive
  | some src =>
    match get { last := some LABEL_LAST, since := some (T.isoformat d.createdAt) } with
    | none => some .inconclusive
    | some alerts => labelAlerts T d src alerts

/-- The label through the agent on the sensor. -/
def labelThroughAgent (d : EnforcedDecision) (ring : List (Items Obj)) : Option IncidentLabel :=
  labelOne T d (alertsHandler ring)

/-! ## Which labels are right -/

/-- An alert of the source of the decision at this time. -/
def At (d : EnforcedDecision) (a : Items Obj) (t : ℤ) : Prop :=
  (∃ src, d.alertSrcIp = some src ∧ isFrom src a = true) ∧ timeOf T a = some (.aware t)

/-- The ring holds an alert of the source of the decision while the rule was in place. -/
def Recurs (d : EnforcedDecision) (ring : List (Items Obj)) : Prop :=
  ∃ a ∈ ring, ∃ t, At T d a t ∧ d.createdAt ≤ t ∧ t < d.ttlEnd

/-- A label is found, which is `recurrence` exactly when the source has come back in time, and
`true_positive` only if it has not. -/
def LabelRight (d : EnforcedDecision) (ring : List (Items Obj)) : Prop :=
  ∃ label, labelThroughAgent T d ring = some label ∧
    (label = .recurrence ↔ Recurs T d ring) ∧ (label = .truePositive → ¬ Recurs T d ring)

/-- The latest alerts of the ring, of which the labeler gets to know. -/
def latest (ring : List (Items Obj)) : List (Items Obj) := ring.drop (ring.length - LABEL_LAST)

/-- Without a reply the source has not come back. With one, no alert of the source among the latest
has a naive time; if one of them is from before the decision, the source has come back; and if it
has, one of them is from before the end of the window. -/
structure Tells (d : EnforcedDecision) (ring : List (Items Obj)) : Prop where
  silent : (latest ring).all hasSummary = false → ¬ Recurs T d ring
  aware : (latest ring).all hasSummary = true → ∀ src, d.alertSrcIp = some src →
    ∀ a ∈ latest ring, isFrom src a = true → ∀ t, timeOf T a ≠ some (.naive t)
  before : (latest ring).all hasSummary = true → ∀ a ∈ latest ring, ∀ t, At T d a t →
    t < d.createdAt → t < d.ttlEnd → Recurs T d ring
  latest : (latest ring).all hasSummary = true → Recurs T d ring →
    ∃ a ∈ latest ring, ∃ t, At T d a t ∧ t < d.ttlEnd

variable {T} {d : EnforcedDecision} {ring : List (Items Obj)}

/-- The alerts before the end of the window are found, unless an alert has a naive time. -/
theorem splitTtl_eq_some {ttlEnd : ℤ} {l withinTtl afterTtl : List (Items Obj)}
    (h : splitTtl T ttlEnd l = some (withinTtl, afterTtl)) :
    (∀ a ∈ l, ∀ t, timeOf T a ≠ some (.naive t)) ∧
      ∀ a, a ∈ withinTtl ↔ a ∈ l ∧ ∃ t, timeOf T a = some (.aware t) ∧ t < ttlEnd := by
  induction l generalizing withinTtl afterTtl with
  | nil =>
    simp only [splitTtl, Option.some.injEq, Prod.mk.injEq] at h
    obtain ⟨rfl, rfl⟩ := h
    simp
  | cons a l ih =>
    rw [splitTtl] at h
    cases htime : timeOf T a with
    | none =>
      rw [htime] at h
      obtain ⟨haware, hwithin⟩ := ih h
      refine ⟨?_, fun b => ?_⟩
      · rw [List.forall_mem_cons]
        exact ⟨by simp [htime], haware⟩
      · rw [hwithin, List.mem_cons]
        refine ⟨fun hb => ⟨.inr hb.1, hb.2⟩, ?_⟩
        rintro ⟨rfl | hb, t, ht, hlt⟩
        · rw [htime] at ht
          exact absurd ht (by simp)
        · exact ⟨hb, t, ht, hlt⟩
    | some dt =>
      rw [htime] at h
      cases dt with
      | naive t => exact absurd h (by simp)
      | aware t =>
        obtain ⟨⟨w, aft⟩, hrest, h⟩ := Option.bind_eq_some_iff.mp h
        obtain ⟨haware, hwithin⟩ := ih hrest
        refine ⟨?_, fun b => ?_⟩
        · rw [List.forall_mem_cons]
          exact ⟨by simp [htime], haware⟩
        · by_cases hlt : t < ttlEnd
          · simp only [if_pos hlt, Option.some.injEq, Prod.mk.injEq] at h
            obtain ⟨rfl, rfl⟩ := h
            rw [List.mem_cons, List.mem_cons, hwithin]
            constructor
            · rintro (rfl | hb)
              · exact ⟨.inl rfl, t, htime, hlt⟩
              · exact ⟨.inr hb.1, hb.2⟩
            · rintro ⟨rfl | hb, hb'⟩
              · exact .inl rfl
              · exact .inr ⟨hb, hb'⟩
          · simp only [if_neg hlt, Option.some.injEq, Prod.mk.injEq] at h
            obtain ⟨rfl, rfl⟩ := h
            rw [List.mem_cons, hwithin]
            refine ⟨fun hb => ⟨.inr hb.1, hb.2⟩, ?_⟩
            rintro ⟨rfl | hb, t', ht', hlt'⟩
            · obtain rfl := Datetime.aware.inj (Option.some.inj (htime.symm.trans ht'))
              exact absurd hlt' hlt
            · exact ⟨hb, t', ht', hlt'⟩

/-- Without naive times the alerts are split. -/
theorem exists_splitTtl {ttlEnd : ℤ} {l : List (Items Obj)}
    (h : ∀ a ∈ l, ∀ t, timeOf T a ≠ some (.naive t)) :
    ∃ withinTtl afterTtl, splitTtl T ttlEnd l = some (withinTtl, afterTtl) := by
  induction l with
  | nil => exact ⟨[], [], rfl⟩
  | cons a l ih =>
    obtain ⟨ha, hl⟩ := List.forall_mem_cons.mp h
    obtain ⟨w, aft, hrest⟩ := ih hl
    rw [splitTtl, hrest]
    cases htime : timeOf T a with
    | none => exact ⟨w, aft, rfl⟩
    | some dt =>
      cases dt with
      | naive t => exact absurd htime (ha t)
      | aware t =>
        by_cases hlt : t < ttlEnd
        · exact ⟨a :: w, aft, by simp [hlt]⟩
        · exact ⟨w, a :: aft, by simp [hlt]⟩

/-- What the agent passes on: the time in the query is dropped. -/
theorem alertsHandler_eq (ring : List (Items Obj)) (since : Option PyStr) :
    alertsHandler ring { last := some LABEL_LAST, since := since } =
      if (latest ring).all hasSummary then some (latest ring) else none := by
  simp [alertsHandler, alertsRoute, getAlerts, latest]

/-- The label is `recurrence` exactly when there is an alert within the time to live. -/
theorem labelAlerts_eq {src : PyStr} {alerts withinTtl afterTtl : List (Items Obj)}
    (h : splitTtl T d.ttlEnd (alerts.filter (isFrom src)) = some (withinTtl, afterTtl)) :
    labelAlerts T d src alerts =
      some (if withinTtl = [] then .truePositive else .recurrence) := by
  unfold labelAlerts
  simp only [h, Option.bind_eq_bind, Option.bind_some]
  cases hrec : alerts.filter (isFrom src) with
  | nil =>
    rw [hrec, splitTtl, Option.some.injEq, Prod.mk.injEq] at h
    rw [← h.1]
    rfl
  | cons a rest =>
    cases withinTtl with
    | nil => rfl
    | cons b w => rfl

/-- With a reply, there is a label unless an alert has a naive time, and it is `recurrence` exactly
when an alert of the source is from before the end of the window. -/
theorem labelAlerts_eq_some {src : PyStr} (hsrc : d.alertSrcIp = some src)
    {alerts : List (Items Obj)} {label : IncidentLabel} :
    labelAlerts T d src alerts = some label ↔
      (∀ a ∈ alerts, isFrom src a = true → ∀ t, timeOf T a ≠ some (.naive t)) ∧
        label ≠ .inconclusive ∧
        (label = .recurrence ↔ ∃ a ∈ alerts, ∃ t, At T d a t ∧ t < d.ttlEnd) := by
  have hat (a : Items Obj) (t : ℤ) :
      At T d a t ↔ isFrom src a = true ∧ timeOf T a = some (.aware t) := by
    unfold At
    rw [hsrc]
    simp
  have hex {w aft : List (Items Obj)}
      (hsplit : splitTtl T d.ttlEnd (alerts.filter (isFrom src)) = some (w, aft)) :
      (if w = [] then IncidentLabel.truePositive else .recurrence) = .recurrence ↔
        ∃ a ∈ alerts, ∃ t, At T d a t ∧ t < d.ttlEnd := by
    have hwithin := (splitTtl_eq_some hsplit).2
    have hne : (if w = [] then IncidentLabel.truePositive else .recurrence) = .recurrence ↔
        ∃ a, a ∈ w := by
      cases w with
      | nil => simp
      | cons b w => simp
    rw [hne]
    refine exists_congr fun a => ?_
    rw [hwithin, List.mem_filter, and_assoc]
    refine and_congr_right fun _ => ?_
    simp only [hat, and_assoc, exists_and_left]
  constructor
  · intro h
    obtain ⟨⟨w, aft⟩, hsplit, -⟩ := Option.bind_eq_some_iff.mp h
    rw [labelAlerts_eq hsplit, Option.some.injEq] at h
    refine ⟨fun a ha hfrom => ?_, ?_, ?_⟩
    · exact (splitTtl_eq_some hsplit).1 a (List.mem_filter.mpr ⟨ha, hfrom⟩)
    · rw [← h]
      split <;> simp
    · rw [← h]
      exact hex hsplit
  · rintro ⟨haware, hlabel, hiff⟩
    obtain ⟨w, aft, hsplit⟩ :
        ∃ w aft, splitTtl T d.ttlEnd (alerts.filter (isFrom src)) = some (w, aft) := by
      refine exists_splitTtl fun a ha => ?_
      obtain ⟨hmem, hfrom⟩ := List.mem_filter.mp ha
      exact haware a hmem hfrom
    rw [labelAlerts_eq hsplit, Option.some.injEq]
    have hsame := (hex hsplit).trans hiff.symm
    revert hsame
    cases label with
    | inconclusive => exact absurd rfl hlabel
    | truePositive => split <;> simp
    | recurrence => split <;> simp

/-- Without a reply the label is `inconclusive`. -/
theorem labelThroughAgent_of_no_reply (hsrc : d.alertSrcIp.isSome = true)
    (hreply : (latest ring).all hasSummary = false) :
    labelThroughAgent T d ring = some .inconclusive := by
  obtain ⟨src, hsrc⟩ := Option.isSome_iff_exists.mp hsrc
  have hget := alertsHandler_eq ring (some (T.isoformat d.createdAt))
  rw [if_neg (by simp [hreply])] at hget
  simp only [labelThroughAgent, labelOne, hsrc, hget]

/-- With a reply the label is that of the latest alerts. -/
theorem labelThroughAgent_of_reply {src : PyStr} (hsrc : d.alertSrcIp = some src)
    (hreply : (latest ring).all hasSummary = true) :
    labelThroughAgent T d ring = labelAlerts T d src (latest ring) := by
  have hget := alertsHandler_eq ring (some (T.isoformat d.createdAt))
  rw [if_pos hreply] at hget
  simp only [labelThroughAgent, labelOne, hsrc, hget]

/-- A decision without a source is not one that a source comes back from. -/
theorem not_recurs (hsrc : d.alertSrcIp = none) : ¬ Recurs T d ring := by
  rintro ⟨a, -, t, ⟨⟨src, hsome, -⟩, -⟩, -⟩
  rw [hsrc] at hsome
  exact absurd hsome (by simp)

/-- The label through the agent is right exactly when the latest alerts tell whether the source has
come back. -/
theorem labelRight_iff : LabelRight T d ring ↔ Tells T d ring := by
  cases hsrc : d.alertSrcIp with
  | none =>
    have hno : ¬ Recurs T d ring := not_recurs hsrc
    refine iff_of_true ⟨.inconclusive, ?_, ?_, ?_⟩ ⟨fun _ => hno, ?_, ?_, ?_⟩
    · simp only [labelThroughAgent, labelOne, hsrc]
    · exact iff_of_false (by simp) hno
    · exact fun _ => hno
    · intro _ src hsome
      rw [hsrc] at hsome
      exact absurd hsome (by simp)
    · rintro - a - t ⟨⟨src, hsome, -⟩, -⟩
      rw [hsrc] at hsome
      exact absurd hsome (by simp)
    · exact fun _ hrec => absurd hrec hno
  | some src =>
    cases hreply : (latest ring).all hasSummary with
    | false =>
      have hlabel := labelThroughAgent_of_no_reply (T := T) (by rw [hsrc]; rfl) hreply
      constructor
      · rintro ⟨label, heq, hiff, -⟩
        obtain rfl := Option.some.inj (hlabel.symm.trans heq)
        have hno : ¬ Recurs T d ring := fun hrec => absurd (hiff.mpr hrec) (by simp)
        refine ⟨fun _ => hno, ?_, ?_, ?_⟩ <;>
          exact fun htrue => absurd (hreply.symm.trans htrue) (by simp)
      · intro htells
        have hno := htells.silent hreply
        exact ⟨_, hlabel, iff_of_false (by simp) hno, fun _ => hno⟩
    | true =>
      have hlabel := labelThroughAgent_of_reply (T := T) hsrc hreply
      constructor
      · rintro ⟨label, heq, hiff, -⟩
        rw [hlabel, labelAlerts_eq_some hsrc] at heq
        obtain ⟨haware, -, hearly⟩ := heq
        refine ⟨fun hfalse => absurd (hreply.symm.trans hfalse) (by simp), ?_, ?_, ?_⟩
        · intro _ src' hsrc'
          obtain rfl := Option.some.inj (hsrc.symm.trans hsrc')
          exact haware
        · intro _ a ha t hat _ hlt
          exact hiff.mp (hearly.mpr ⟨a, ha, t, hat, hlt⟩)
        · exact fun _ hrec => hearly.mp (hiff.mpr hrec)
      · intro htells
        have hearly : Recurs T d ring ↔ ∃ a ∈ latest ring, ∃ t, At T d a t ∧ t < d.ttlEnd := by
          refine ⟨htells.latest hreply, ?_⟩
          rintro ⟨a, ha, t, hat, hlt⟩
          rcases lt_or_ge t d.createdAt with hbefore | hafter
          · exact htells.before hreply a ha t hat hbefore hlt
          · exact ⟨a, List.mem_of_mem_drop ha, t, hat, hafter, hlt⟩
        have haware := htells.aware hreply src hsrc
        by_cases hrec : Recurs T d ring
        · refine ⟨.recurrence, ?_, iff_of_true rfl hrec, by simp⟩
          rw [hlabel, labelAlerts_eq_some hsrc]
          exact ⟨haware, by simp, iff_of_true rfl (hearly.mp hrec)⟩
        · refine ⟨.truePositive, ?_, iff_of_false (by simp) hrec, fun _ => hrec⟩
          rw [hlabel, labelAlerts_eq_some hsrc]
          exact ⟨haware, by simp, iff_of_false (by simp) fun he => hrec (hearly.mpr he)⟩

/-- The time texts of the run below. -/
def plainTimes : TimeTexts where
  fromisoformat s :=
    if s = u "2026-01-01T10:00:00.000000+0000" then some (.aware 1767261600000000) else none
  isoformat _ := u "2026-01-01T12:00:00+00:00"

/-- A decision at noon. -/
def noon : EnforcedDecision where
  alertSrcIp := some (u "10.1.100.5")
  createdAt := 1767268800000000
  ttlSeconds := some 3600

/-- An alert two hours before it. -/
def earlier : Items PyStr :=
  [(.str (u "timestamp"), .str (u "2026-01-01T10:00:00.000000+0000")),
    (.str (u "event_type"), .str (u "alert")), (.str (u "src_ip"), .str (u "10.1.100.5"))]

/-- An alert from before the decision, which the time in the request would have kept out, makes it a
recurrence. -/
theorem exists_label_wrong :
    ∃ (T : TimeTexts) (d : EnforcedDecision) (ring : List (Items PyStr)),
      labelThroughAgent T d ring = some .recurrence ∧ ¬ LabelRight T d ring := by
  have hlabel : labelThroughAgent plainTimes noon [earlier] = some .recurrence := by
    decide +kernel
  refine ⟨plainTimes, noon, [earlier], hlabel, ?_⟩
  rintro ⟨label, heq, hiff, -⟩
  obtain rfl := Option.some.inj (hlabel.symm.trans heq)
  obtain ⟨a, ha, t, ⟨-, htime⟩, hcreated, -⟩ := hiff.mp rfl
  obtain rfl := List.mem_singleton.mp ha
  have htime' : timeOf plainTimes earlier = some (.aware 1767261600000000) := by
    simp [timeOf, earlier, plainTimes, getItem, keyStr, replaceZ, u, ofChar]
  obtain rfl := Datetime.aware.inj (Option.some.inj (htime'.symm.trans htime))
  exact absurd hcreated (by decide)

end ControlPlane.Stream
