import Mathlib.Data.List.Dedup
import Mathlib.Data.List.Sort

/-!
# The signal of a kill chain

`get_recent_alerts_for_correlation` of `storage/operational_memory.py`. It names a pattern of one
stage that leads to another, and it looks for the stages in the set of the signatures of a window
(`signal_eq_recon_iff`, `signal_eq_lateral_iff`), which has no order. What it says of the order is
right for exactly the windows in which the stages did not come the other way round
(`signalsInOrder_iff`).
-/

namespace ControlPlane.Intel

/-! ## The window -/

/-- A row of `decisions`, with the time in microseconds. -/
structure DecisionRecord where
  alertSid : ℤ
  alertSrcIp : String
  createdAt : ℤ

/-- What the function returns; `unique_sids` is left out when there is nothing. -/
structure Correlation where
  srcIp : String
  windowMinutes : ℤ
  alertCount : ℕ
  uniqueSids : Option (List ℤ)
  sidSequence : List (ℤ × String)
  killChainSignal : String

/-- The stage of a signature. -/
inductive Stage where
  | recon
  | lateral
  | critical
  deriving DecidableEq

/-- What the list of severities has for a stage. -/
def Stage.text : Stage → String
  | recon => "recon"
  | lateral => "lateral"
  | critical => "critical"

/-- The stage of a signature, `none` for one that is passed over. -/
def stageOf (sid : ℤ) : Option Stage :=
  if sid ∈ [9000010, 9000011, 9000020] then some .recon
  else if sid ∈ [9000003, 9000004, 9000005] then some .lateral
  else if sid ∈ [9000001, 9000002] then some .critical
  else none

/-- The signal that reconnaissance was followed by more. -/
def RECON_SIGNAL : String := "MULTI-STAGE — recon → escalation pattern detected"

/-- The signal that a lateral movement was followed by something critical. -/
def LATERAL_SIGNAL : String := "MULTI-STAGE — lateral → critical pattern detected"

/-- `sorted(set(...))` of the signatures. -/
def uniqueSids (rows : List DecisionRecord) : List ℤ :=
  (rows.map DecisionRecord.alertSid).dedup.insertionSort (· ≤ ·)

/-- `severities`. -/
def severities (rows : List DecisionRecord) : List String :=
  (uniqueSids rows).filterMap fun sid => (stageOf sid).map Stage.text

/-- `signal`, of the rows of a window that has some. -/
def signal (rows : List DecisionRecord) : String :=
  let severities := severities rows
  if 2 ≤ (uniqueSids rows).length then
    if "recon" ∈ severities ∧ ("lateral" ∈ severities ∨ "critical" ∈ severities) then RECON_SIGNAL
    else if "lateral" ∈ severities ∧ "critical" ∈ severities then LATERAL_SIGNAL
    else "multi-SID activity (" ++ ", ".intercalate severities ++ ")"
  else "single-SID activity"

/-- The query: the rows of the source since the cutoff, in the order of their times. -/
def recentRows (decisions : List DecisionRecord) (srcIp : String) (cutoff : ℤ) :
    List DecisionRecord :=
  (decisions.filter fun r => r.alertSrcIp = srcIp ∧ cutoff ≤ r.createdAt).insertionSort
    fun r s => r.createdAt ≤ s.createdAt

/-- `get_recent_alerts_for_correlation`, at the given time. -/
def OperationalMemory.getRecentAlertsForCorrelation (isoformat : ℤ → String)
    (decisions : List DecisionRecord) (srcIp : String) (windowMinutes now : ℤ) : Correlation :=
  let rows := recentRows decisions srcIp (now - windowMinutes * 60000000)
  if rows = [] then
    { srcIp, windowMinutes, alertCount := 0, uniqueSids := none, sidSequence := [],
      killChainSignal := "no recent activity" }
  else
    let sidSequence := rows.map fun r => (r.alertSid, isoformat r.createdAt)
    { srcIp, windowMinutes, alertCount := rows.length, uniqueSids := some (uniqueSids rows),
      sidSequence := sidSequence.drop (sidSequence.length - 10), killChainSignal := signal rows }

/-! ## The stages of a window -/

/-- A row of a stage. -/
def DecisionRecord.At (r : DecisionRecord) (s : Stage) : Prop := stageOf r.alertSid = some s

instance (r : DecisionRecord) (s : Stage) : Decidable (r.At s) :=
  inferInstanceAs (Decidable (stageOf r.alertSid = some s))

/-- A stage occurs among the rows. -/
def Occurs (rows : List DecisionRecord) (s : Stage) : Prop := ∃ r ∈ rows, r.At s

theorem mem_uniqueSids {rows : List DecisionRecord} {sid : ℤ} :
    sid ∈ uniqueSids rows ↔ ∃ r ∈ rows, r.alertSid = sid := by
  unfold uniqueSids
  rw [List.mem_insertionSort, List.mem_dedup, List.mem_map]

theorem Stage.text_injective : Function.Injective Stage.text := by
  intro s t h
  cases s <;> cases t <;> first | rfl | exact absurd h (by decide)

theorem mem_severities {rows : List DecisionRecord} {s : Stage} :
    s.text ∈ severities rows ↔ Occurs rows s := by
  unfold severities Occurs
  rw [List.mem_filterMap]
  constructor
  · rintro ⟨sid, hmem, htext⟩
    obtain ⟨r, hr, rfl⟩ := mem_uniqueSids.mp hmem
    obtain ⟨t, ht, heq⟩ := Option.map_eq_some_iff.mp htext
    exact ⟨r, hr, ht.trans (congrArg some (Stage.text_injective heq))⟩
  · rintro ⟨r, hr, hstage⟩
    exact ⟨r.alertSid, mem_uniqueSids.mpr ⟨r, hr, rfl⟩, by rw [hstage]; rfl⟩

/-- Two stages are at least two signatures. -/
theorem two_le_of_occurs {rows : List DecisionRecord} {s t : Stage} (hne : s ≠ t)
    (hs : Occurs rows s) (ht : Occurs rows t) : 2 ≤ (uniqueSids rows).length := by
  obtain ⟨a, ha, hsa⟩ := hs
  obtain ⟨b, hb, htb⟩ := ht
  have hab : a.alertSid ≠ b.alertSid := by
    intro h
    have hstage : stageOf a.alertSid = some t := by
      rw [h]
      exact htb
    exact hne (Option.some_inj.mp (hsa.symm.trans hstage))
  have hmem : ∀ r ∈ rows, r.alertSid ∈ uniqueSids rows :=
    fun r hr => mem_uniqueSids.mpr ⟨r, hr, rfl⟩
  match huniq : uniqueSids rows with
  | [] => exact absurd (huniq ▸ hmem a ha) List.not_mem_nil
  | [sid] =>
    have hla := List.mem_singleton.mp (huniq ▸ hmem a ha)
    have hlb := List.mem_singleton.mp (huniq ▸ hmem b hb)
    exact absurd (hla.trans hlb.symm) hab
  | _ :: _ :: _ =>
    simp only [List.length_cons]
    omega

/-- The text for other windows is none of the two signals. -/
theorem activity_ne (s : String) : "multi-SID activity (" ++ s ++ ")" ≠ RECON_SIGNAL ∧
    "multi-SID activity (" ++ s ++ ")" ≠ LATERAL_SIGNAL := by
  have hhead : ("multi-SID activity (" ++ s ++ ")").toList.head? = some 'm' := by
    rw [String.toList_append, String.toList_append]
    rfl
  refine ⟨fun h => ?_, fun h => ?_⟩
  all_goals
    rw [h] at hhead
    exact absurd hhead (by decide)

/-- The signal of a window, by the stages that occur in it. -/
theorem signal_cases (rows : List DecisionRecord) :
    (Occurs rows .recon ∧ (Occurs rows .lateral ∨ Occurs rows .critical) ∧
        signal rows = RECON_SIGNAL) ∨
      (¬ Occurs rows .recon ∧ Occurs rows .lateral ∧ Occurs rows .critical ∧
        signal rows = LATERAL_SIGNAL) ∨
      (¬ (Occurs rows .recon ∧ (Occurs rows .lateral ∨ Occurs rows .critical)) ∧
        ¬ (Occurs rows .lateral ∧ Occurs rows .critical) ∧
        signal rows ≠ RECON_SIGNAL ∧ signal rows ≠ LATERAL_SIGNAL) := by
  have hrecon : "recon" ∈ severities rows ↔ Occurs rows .recon := @mem_severities rows .recon
  have hlateral : "lateral" ∈ severities rows ↔ Occurs rows .lateral :=
    @mem_severities rows .lateral
  have hcritical : "critical" ∈ severities rows ↔ Occurs rows .critical :=
    @mem_severities rows .critical
  have hescalation := and_congr hrecon (or_congr hlateral hcritical)
  have hboth := and_congr hlateral hcritical
  unfold signal
  dsimp only
  by_cases hfirst : Occurs rows .recon ∧ (Occurs rows .lateral ∨ Occurs rows .critical)
  · have htwo : 2 ≤ (uniqueSids rows).length := by
      obtain ⟨hr, hl | hc⟩ := hfirst
      · exact two_le_of_occurs (by decide) hr hl
      · exact two_le_of_occurs (by decide) hr hc
    rw [if_pos htwo, if_pos (hescalation.mpr hfirst)]
    exact .inl ⟨hfirst.1, hfirst.2, rfl⟩
  by_cases hsecond : Occurs rows .lateral ∧ Occurs rows .critical
  · have hnone : ¬ Occurs rows .recon := fun hr => hfirst ⟨hr, .inl hsecond.1⟩
    rw [if_pos (two_le_of_occurs (by decide) hsecond.1 hsecond.2),
      if_neg (mt hescalation.mp hfirst), if_pos (hboth.mpr hsecond)]
    exact .inr (.inl ⟨hnone, hsecond.1, hsecond.2, rfl⟩)
  · refine .inr (.inr ⟨hfirst, hsecond, ?_⟩)
    by_cases htwo : 2 ≤ (uniqueSids rows).length
    · rw [if_pos htwo, if_neg (mt hescalation.mp hfirst), if_neg (mt hboth.mp hsecond)]
      exact activity_ne _
    · rw [if_neg htwo]
      exact ⟨by decide, by decide⟩

/-- The first pattern is signalled when reconnaissance and a later stage both occur. -/
theorem signal_eq_recon_iff (rows : List DecisionRecord) : signal rows = RECON_SIGNAL ↔
    Occurs rows .recon ∧ (Occurs rows .lateral ∨ Occurs rows .critical) := by
  obtain ⟨hr, hlater, hsignal⟩ | ⟨hr, -, -, hsignal⟩ | ⟨hno, -, hsignal, -⟩ := signal_cases rows
  · exact iff_of_true hsignal ⟨hr, hlater⟩
  · refine iff_of_false (fun h => ?_) (fun h => hr h.1)
    rw [hsignal] at h
    exact absurd h (by decide)
  · exact iff_of_false hsignal hno

/-- The second pattern is signalled when the two later stages occur without reconnaissance. -/
theorem signal_eq_lateral_iff (rows : List DecisionRecord) : signal rows = LATERAL_SIGNAL ↔
    ¬ Occurs rows .recon ∧ Occurs rows .lateral ∧ Occurs rows .critical := by
  obtain ⟨hr, -, hsignal⟩ | ⟨hr, hl, hc, hsignal⟩ | ⟨-, hno, -, hsignal⟩ := signal_cases rows
  · refine iff_of_false (fun h => ?_) (fun h => h.1 hr)
    rw [hsignal] at h
    exact absurd h (by decide)
  · exact iff_of_true hsignal ⟨hr, hl, hc⟩
  · exact iff_of_false hsignal (fun h => hno h.2)

/-! ## The order of the stages -/

/-- The alerts of a source in a window. -/
def windowAlerts (decisions : List DecisionRecord) (srcIp : String) (windowMinutes now : ℤ) :
    List DecisionRecord :=
  decisions.filter fun r => r.alertSrcIp = srcIp ∧ now - windowMinutes * 60000000 ≤ r.createdAt

/-- An alert of one stage comes before an alert of one of the others. -/
def Precedes (alerts : List DecisionRecord) (s : Stage) (later : List Stage) : Prop :=
  ∃ a ∈ alerts, ∃ b ∈ alerts, a.At s ∧ (∃ t ∈ later, b.At t) ∧ a.createdAt < b.createdAt

/-- A signalled pattern has an alert of its earlier stage before one of its later stage. -/
def SignalsInOrder (isoformat : ℤ → String) (decisions : List DecisionRecord) (srcIp : String)
    (windowMinutes now : ℤ) : Prop :=
  let signal :=
    (OperationalMemory.getRecentAlertsForCorrelation isoformat decisions srcIp windowMinutes
      now).killChainSignal
  let alerts := windowAlerts decisions srcIp windowMinutes now
  (signal = RECON_SIGNAL → Precedes alerts .recon [.lateral, .critical]) ∧
    (signal = LATERAL_SIGNAL → Precedes alerts .lateral [.critical])

/-- Stages that came the other way round: both occur, and no alert of the stage that should be the
later one has a time behind an alert of the earlier one. -/
def Reversed (alerts : List DecisionRecord) (s : Stage) (later : List Stage) : Prop :=
  Occurs alerts s ∧ (∃ t ∈ later, Occurs alerts t) ∧
    ∀ a ∈ alerts, ∀ b ∈ alerts, a.At s → (∃ t ∈ later, b.At t) → b.createdAt ≤ a.createdAt

theorem mem_recentRows {decisions : List DecisionRecord} {srcIp : String} {windowMinutes now : ℤ}
    {r : DecisionRecord} : r ∈ recentRows decisions srcIp (now - windowMinutes * 60000000) ↔
      r ∈ windowAlerts decisions srcIp windowMinutes now := by
  unfold recentRows windowAlerts
  rw [List.mem_insertionSort]

theorem occurs_recentRows {decisions : List DecisionRecord} {srcIp : String}
    {windowMinutes now : ℤ} {s : Stage} :
    Occurs (recentRows decisions srcIp (now - windowMinutes * 60000000)) s ↔
      Occurs (windowAlerts decisions srcIp windowMinutes now) s :=
  exists_congr fun _ => and_congr_left' mem_recentRows

/-- The signal of the function is that of its rows, as far as the two patterns go. -/
theorem killChainSignal_eq_iff (isoformat : ℤ → String) (decisions : List DecisionRecord)
    (srcIp : String) (windowMinutes now : ℤ) {pattern : String}
    (hpattern : pattern = RECON_SIGNAL ∨ pattern = LATERAL_SIGNAL) :
    (OperationalMemory.getRecentAlertsForCorrelation isoformat decisions srcIp windowMinutes
      now).killChainSignal =
        pattern ↔
      signal (recentRows decisions srcIp (now - windowMinutes * 60000000)) = pattern := by
  unfold OperationalMemory.getRecentAlertsForCorrelation
  simp only
  split_ifs with hrows
  · rw [hrows]
    -- an empty window has neither signal, with or without the early return
    have hempty : "no recent activity" ≠ RECON_SIGNAL ∧ "no recent activity" ≠ LATERAL_SIGNAL :=
      ⟨by decide, by decide⟩
    have hsingle : signal [] ≠ RECON_SIGNAL ∧ signal [] ≠ LATERAL_SIGNAL :=
      ⟨by decide, by decide⟩
    obtain rfl | rfl := hpattern
    · exact iff_of_false hempty.1 hsingle.1
    · exact iff_of_false hempty.2 hsingle.2
  · exact Iff.rfl

/-- Where two stages occur, one precedes the other or they are reversed. -/
theorem precedes_iff {alerts : List DecisionRecord} {s : Stage} {later : List Stage}
    (hs : Occurs alerts s) (hlater : ∃ t ∈ later, Occurs alerts t) :
    Precedes alerts s later ↔ ¬ Reversed alerts s later := by
  constructor
  · rintro ⟨a, ha, b, hb, has, hbt, hlt⟩ ⟨-, -, hall⟩
    have hle := hall a ha b hb has hbt
    omega
  · intro hno
    by_contra hnone
    refine hno ⟨hs, hlater, fun a ha b hb has hbt => ?_⟩
    by_contra hlt
    exact hnone ⟨a, ha, b, hb, has, hbt, by omega⟩

/-- The signal says nothing wrong about the order of the stages exactly when reconnaissance and the
later stages are not reversed and, where there was no reconnaissance, neither are the lateral and
the critical stage. -/
theorem signalsInOrder_iff (isoformat : ℤ → String) (decisions : List DecisionRecord)
    (srcIp : String) (windowMinutes now : ℤ) :
    SignalsInOrder isoformat decisions srcIp windowMinutes now ↔
      ¬ Reversed (windowAlerts decisions srcIp windowMinutes now) .recon [.lateral, .critical] ∧
        (Occurs (windowAlerts decisions srcIp windowMinutes now) .recon ∨
          ¬ Reversed (windowAlerts decisions srcIp windowMinutes now) .lateral [.critical]) := by
  unfold SignalsInOrder
  simp only
  rw [killChainSignal_eq_iff _ _ _ _ _ (.inl rfl), killChainSignal_eq_iff _ _ _ _ _ (.inr rfl),
    signal_eq_recon_iff, signal_eq_lateral_iff]
  simp only [occurs_recentRows]
  generalize windowAlerts decisions srcIp windowMinutes now = alerts
  have hlater : (∃ t ∈ [Stage.lateral, .critical], Occurs alerts t) ↔
      Occurs alerts .lateral ∨ Occurs alerts .critical := by
    simp
  have hcritical : (∃ t ∈ [Stage.critical], Occurs alerts t) ↔ Occurs alerts .critical := by
    simp
  refine and_congr ?_ ?_
  · constructor
    · intro h hrev
      have hboth := And.intro hrev.1 (hlater.mp hrev.2.1)
      exact (precedes_iff hrev.1 hrev.2.1).mp (h hboth) hrev
    · intro hno hboth
      exact (precedes_iff hboth.1 (hlater.mpr hboth.2)).mpr hno
  · constructor
    · intro h
      by_cases hr : Occurs alerts .recon
      · exact .inl hr
      · refine .inr fun hrev => ?_
        have hall := And.intro hr (And.intro hrev.1 (hcritical.mp hrev.2.1))
        exact (precedes_iff hrev.1 hrev.2.1).mp (h hall) hrev
    · rintro (hr | hno) ⟨hnone, hl, hc⟩
      · exact absurd hr hnone
      · exact (precedes_iff hl (hcritical.mpr hc)).mpr hno

/-- A connection from the web zone to a database, and a scan a minute later. -/
def reversedAlerts : List DecisionRecord :=
  [⟨9000001, "10.1.100.10", 0⟩, ⟨9000010, "10.1.100.10", 60000000⟩]

/-- The scan is signalled as the stage that led to the connection. -/
theorem exists_not_signalsInOrder : ¬ ∀ isoformat decisions srcIp windowMinutes now,
    SignalsInOrder isoformat decisions srcIp windowMinutes now := by
  intro h
  have hsignal : (OperationalMemory.getRecentAlertsForCorrelation (fun _ => "") reversedAlerts
      "10.1.100.10" 10
      120000000).killChainSignal = RECON_SIGNAL := by
    decide +kernel
  obtain ⟨a, ha, b, hb, has, ⟨t, -, hbt⟩, hlt⟩ :=
    (h (fun _ => "") reversedAlerts "10.1.100.10" 10 120000000).1 hsignal
  have hwindow : windowAlerts reversedAlerts "10.1.100.10" 10 120000000 = reversedAlerts := by
    rfl
  rw [hwindow] at ha hb
  simp only [reversedAlerts, List.mem_cons, List.not_mem_nil, or_false] at ha hb
  -- the only pair in the order of time begins with the connection
  obtain rfl | rfl := ha
  · exact absurd has (by decide)
  · obtain rfl | rfl := hb
    · exact absurd hlt (by decide)
    · exact absurd hlt (by decide)

end ControlPlane.Intel
