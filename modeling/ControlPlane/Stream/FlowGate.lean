import ControlPlane.Intel.Guardrails
import ControlPlane.Lib.Expiring
import ControlPlane.Stream.FlowBatch

/-!
# The gate before the agent

`AlertGate.should_process` filters the alerts that come to the agent, by their severity, by source
and signature id, and by the source alone. `processedOnce_iff` says when the agent processes each
suspect of a window once: the severity of a synthetic alert follows from the score and the label,
and its signature id from the score alone, so that the gate drops most of the suspects with a low
score, and takes two suspects with one source and one score for duplicates.
-/

namespace ControlPlane.Stream

open JsonText Expiring

variable {Obj : Type}

/-- `filter_severity_min`. -/
def FILTER_SEVERITY_MIN : ℤ := 2

/-- `filter_dedup_window_seconds`. -/
def FILTER_DEDUP_WINDOW_SECONDS : ℕ := 30

/-- The gate, with the setting of its store. -/
structure AlertGate where
  minSeverity : ℤ
  whitelistIps : List PyStr
  /-- `RedisStore._dedup_window`, in seconds. -/
  dedupWindow : ℕ

/-- The gate with the default settings. -/
def defaultGate (whitelistIps : List PyStr) : AlertGate where
  minSeverity := FILTER_SEVERITY_MIN
  whitelistIps := whitelistIps
  dedupWindow := FILTER_DEDUP_WINDOW_SECONDS

/-- The times, in milliseconds, at which the keys of the de-duplication expire. -/
abbrev Dedup := PyStr → ℕ

/-- No key was set yet. -/
def Dedup.empty : Dedup := fun _ => 0

/-- A text without surrogates. -/
def asText (s : PyStr) : Option String :=
  let chars := s.mapM fun c : CodePoint =>
    if c.val.isValidChar then some (Char.ofNat c.val) else none
  chars.map String.ofList

/-- `ip.split("/")[0]`. -/
def bareIp (ip : PyStr) : PyStr := ip.takeWhile (· ≠ 47)

/-- `is_protected_ip`; a text with a surrogate is no address. -/
def isProtectedIp (ip : PyStr) : Bool :=
  match asText (bareIp ip) with
  | none => false
  | some bare => Intel.isProtectedIp bare

/-- `whitelist_filter` rejects a source. -/
def isWhitelisted (g : AlertGate) (srcIp : PyStr) : Bool :=
  isProtectedIp srcIp || bareIp srcIp ∈ g.whitelistIps

/-- The key of the de-duplication. -/
def dedupKey (srcIp : PyStr) (sid : ℤ) : PyStr := u "dedup:" ++ srcIp ++ u ":" ++ intText sid

section

variable (B : BatchTypes Obj) (g : AlertGate)

/-- `SuricataAlert.sid`. -/
def SuricataAlert.sid (a : SuricataAlert Obj) : Option ℤ :=
  B.toInt (getD a.alert "signature_id" (.int 0))

/-- `SuricataAlert.severity`. -/
def SuricataAlert.severity (a : SuricataAlert Obj) : Option ℤ :=
  B.toInt (getD a.alert "severity" (.int 4))

/-- `is_duplicate`: `SET` with `NX` and `EX`, at a time. -/
def isDuplicate (now : ℕ) (dedup : Dedup) (srcIp : PyStr) (sid : ℤ) : Option (Bool × Dedup) := do
  let sidText ← fmtInt B sid
  let key := u "dedup:" ++ srcIp ++ u ":" ++ sidText
  if dedup key ≤ now then
    return (false, Function.update dedup key (now + 1000 * g.dedupWindow))
  else return (true, dedup)

/-- `should_process`; `none` is an exception. The zone filter passes every alert. -/
def shouldProcess (now : ℕ) (dedup : Dedup) (a : SuricataAlert Obj) : Option (Bool × Dedup) := do
  let severity ← a.severity B
  if g.minSeverity < severity then return (false, dedup)
  let sid ← a.sid B
  let (duplicate, dedup) ← isDuplicate B g now dedup a.srcIp sid
  return (!duplicate && !isWhitelisted g a.srcIp, dedup)

/-- `on_alert` for each of the alerts: those that the agent processes. The clock tells when the
alert between two addresses comes to the gate. -/
def onAlerts (clock : PyStr → PyStr → ℕ) : Dedup → List (SuricataAlert Obj) →
    List (SuricataAlert Obj)
  | _, [] => []
  | dedup, a :: rest =>
    match shouldProcess B g (clock a.srcIp a.destIp) dedup a with
    | none => onAlerts clock dedup rest
    | some (false, dedup) => onAlerts clock dedup rest
    | some (true, dedup) => a :: onAlerts clock dedup rest

/-- The alerts that the agent processes for a window, when no key was set before. -/
def processedOf (D : FlowBatchDispatcher) (clock : PyStr → PyStr → ℕ) (trigger : TriggerRead)
    (answer : LlmAnswer Obj) (flows : List (SuricataFlowEvent Obj))
    (windowStart windowEnd : PyStr) : List (SuricataAlert Obj) :=
  onAlerts B g clock .empty
    ((onWindowClose B D trigger answer flows windowStart windowEnd).getD [])

/-! ## What the gate accepts -/

/-- An alert that comes to the de-duplication: its severity is not filtered and its signature id is
written. -/
def Eligible (a : SuricataAlert Obj) : Prop :=
  (∃ severity, a.severity B = some severity ∧ severity ≤ g.minSeverity) ∧
    ∃ sid, a.sid B = some sid ∧ Writes B sid

/-- The key of an alert. -/
def keyOf (a : SuricataAlert Obj) : PyStr := dedupKey a.srcIp ((a.sid B).getD 0)

end

variable {B : BatchTypes Obj} {g : AlertGate} {clock : PyStr → PyStr → ℕ}

/-- What the gate does with an alert that comes to the de-duplication. -/
theorem shouldProcess_of_eligible {now : ℕ} {dedup : Dedup} {a : SuricataAlert Obj}
    (ha : Eligible B g a) (hw : isWhitelisted g a.srcIp = false) :
    shouldProcess B g now dedup a =
      if dedup (keyOf B a) ≤ now then
        some (true, Function.update dedup (keyOf B a) (now + 1000 * g.dedupWindow))
      else some (false, dedup) := by
  obtain ⟨⟨severity, hseverity, hle⟩, sid, hsid, hwrites⟩ := ha
  have hkey : keyOf B a = u "dedup:" ++ a.srcIp ++ u ":" ++ intText sid := by
    unfold keyOf dedupKey
    rw [hsid]
    rfl
  unfold shouldProcess isDuplicate
  rw [hseverity, hsid, hkey]
  have hlt : ¬ g.minSeverity < severity := by omega
  simp only [Option.bind_eq_bind, Option.bind_some, hlt, if_false, fmtInt_of_writes hwrites]
  split_ifs
  · simp [hw]
  · simp

/-- The gate drops an alert that does not come to the de-duplication, and no key is set. -/
theorem shouldProcess_of_not_eligible {now : ℕ} {dedup : Dedup} {a : SuricataAlert Obj}
    (ha : ¬ Eligible B g a) :
    shouldProcess B g now dedup a = none ∨ shouldProcess B g now dedup a = some (false, dedup) := by
  unfold shouldProcess isDuplicate
  cases hseverity : a.severity B with
  | none => exact .inl rfl
  | some severity =>
    by_cases hlt : g.minSeverity < severity
    · right
      simp [hlt]
    · left
      cases hsid : a.sid B with
      | none => simp [hlt]
      | some sid =>
        cases hfmt : fmtInt B sid with
        | none => simp [hlt, hfmt]
        | some sidText =>
          have hwrites : Writes B sid := fmtInt_isSome.mp (by rw [hfmt]; rfl)
          exact absurd ⟨⟨severity, hseverity, by omega⟩, sid, hsid, hwrites⟩ ha

/-- The agent processes the alerts that set their keys, out of those that come to the
de-duplication. -/
theorem onAlerts_eq {dedup : Dedup} {alerts : List (SuricataAlert Obj)}
    (hw : ∀ a ∈ alerts, isWhitelisted g a.srcIp = false) [DecidablePred (Eligible B g)] :
    onAlerts B g clock dedup alerts =
      accepted (keyOf B) (fun a => clock a.srcIp a.destIp) (1000 * g.dedupWindow) dedup
        (alerts.filter fun a => Eligible B g a) := by
  induction alerts generalizing dedup with
  | nil => rfl
  | cons a rest ih =>
    obtain ⟨ha, hrest⟩ := List.forall_mem_cons.mp hw
    rw [onAlerts]
    by_cases hel : Eligible B g a
    · rw [List.filter_cons_of_pos (by simpa using hel), accepted, shouldProcess_of_eligible hel ha]
      split_ifs with hle
      · simp only [ih hrest]
      · simp only [ih hrest]
    · rw [List.filter_cons_of_neg (by simpa using hel)]
      have hdrop : shouldProcess B g (clock a.srcIp a.destIp) dedup a = none ∨
          shouldProcess B g (clock a.srcIp a.destIp) dedup a = some (false, dedup) :=
        shouldProcess_of_not_eligible hel
      rcases hdrop with hnone | hsome
      · simp only [hnone, ih hrest]
      · simp only [hsome, ih hrest]

/-- The agent processes all the alerts exactly when each comes to the de-duplication and none comes
before the key of an earlier one has expired. -/
theorem onAlerts_eq_self_iff {alerts : List (SuricataAlert Obj)}
    (hw : ∀ a ∈ alerts, isWhitelisted g a.srcIp = false) :
    onAlerts B g clock .empty alerts = alerts ↔
      (∀ a ∈ alerts, Eligible B g a) ∧
        Spaced (keyOf B) (fun a => clock a.srcIp a.destIp) (1000 * g.dedupWindow) alerts := by
  classical
  rw [onAlerts_eq hw]
  constructor
  · intro h
    have hall : alerts.filter (fun a => Eligible B g a) = alerts := by
      refine List.filter_sublist.eq_of_length_le ?_
      have hsub : alerts.Sublist (alerts.filter fun a => Eligible B g a) := by
        conv_lhs => rw [← h]
        exact accepted_sublist _ _
      exact hsub.length_le
    rw [hall] at h
    refine ⟨fun a ha => ?_, (accepted_eq_self_iff.mp h).2⟩
    rw [← hall] at ha
    simpa using (List.mem_filter.mp ha).2
  · rintro ⟨hel, hspaced⟩
    have hall : alerts.filter (fun a => Eligible B g a) = alerts :=
      List.filter_eq_self.mpr fun a ha => by simpa using hel a ha
    rw [hall, accepted_eq_self_iff]
    exact ⟨fun _ _ => Nat.zero_le _, hspaced⟩

/-! ## The synthetic alerts at the gate -/

/-- The severities that pass with the default setting. -/
theorem severityOf_le_two_iff {score : ℕ} {label : PyStr} :
    severityOf score label ≤ 2 ↔ 4 ≤ score ∨ label ∈ HIGH_SIGNAL_LABELS := by
  have hhigh : u "SUSPECT_content" ∈ HIGH_SIGNAL_LABELS := List.mem_cons_self
  unfold severityOf
  split_ifs with h1 h2 h3
  · refine iff_of_true (by decide) ?_
    rcases h1 with h1 | rfl
    · left
      omega
    · right
      exact hhigh
  · exact iff_of_true (by decide) h2
  · exact iff_of_false (by decide) h2
  · exact iff_of_false (by decide) h2

/-- The signature id of a synthetic alert has seven digits. -/
theorem length_natText_sidOf (score : ℕ) : (natText (sidOf score).natAbs).length = 7 := by
  have hseven : ∀ i : Fin 100, (natText (SYNTHETIC_SID_BASE + i).natAbs).length = 7 := by
    decide +kernel
  have hle : min score 99 < 100 := by omega
  exact hseven ⟨min score 99, hle⟩

theorem writes_sidOf {B : BatchTypes Obj} (score : ℕ) : Writes B (sidOf score) := by
  have hdigits := B.digits_threshold
  unfold Writes
  rw [length_natText_sidOf]
  omega

theorem natText_injective : Function.Injective natText := by
  intro m n h
  rw [← ofDigits_natText m, h, ofDigits_natText n]

theorem intText_sidOf (score : ℕ) : intText (sidOf score) = natText (sidOf score).natAbs := by
  have hpos : ¬ sidOf score < 0 := by
    unfold sidOf SYNTHETIC_SID_BASE
    omega
  unfold intText
  rw [if_neg hpos]

/-- Synthetic alerts have one key when they have one source and one score. -/
theorem dedupKey_sidOf_inj {s s' : PyStr} {m n : ℕ} (hm : m ≤ 99) (hn : n ≤ 99) :
    dedupKey s (sidOf m) = dedupKey s' (sidOf n) ↔ s = s' ∧ m = n := by
  constructor
  · intro h
    unfold dedupKey at h
    rw [intText_sidOf, intText_sidOf] at h
    have hlen : (natText (sidOf m).natAbs).length = (natText (sidOf n).natAbs).length := by
      rw [length_natText_sidOf, length_natText_sidOf]
    obtain ⟨hsource, hsid⟩ := List.append_inj' h hlen
    refine ⟨?_, ?_⟩
    · exact List.append_cancel_left (List.append_cancel_right hsource)
    · have habs := natText_injective hsid
      unfold sidOf SYNTHETIC_SID_BASE at habs
      omega
  · rintro ⟨rfl, rfl⟩
    rfl

/-- An alert that is dispatched: the suspect that it is for. -/
theorem of_alertFor {D : FlowBatchDispatcher} {results : List (PyStr × Classification)}
    {pairs : List AggregatedIPPair} {pid : PyStr} {a : SuricataAlert Obj}
    (h : alertFor B D results pairs pid = some a) :
    ∃ r ∈ pairs, (IsSuspect B D results r ∧ keyText r = pid ∧ SumsPrint B r) ∧
      (a.srcIp = r.srcIp ∧ a.destIp = r.destIp) ∧
      getD a.alert "signature_id" (.int 0) = .int (sidOf (dispatchScore B D r)) ∧
      getD a.alert "severity" (.int 4) =
        .int (severityOf (dispatchScore B D r) (labelOf (suspectClass results (keyText r)))) := by
  obtain ⟨r, score, cls, hchosen, hbuild⟩ := alertFor_eq_some.mp h
  obtain ⟨⟨hr, hkey, hsuspect⟩, rfl, rfl, -⟩ := of_chosenFor hchosen
  obtain ⟨haddresses, hsid, hseverity⟩ := of_buildSyntheticAlert hbuild
  have hsums : SumsPrint B r :=
    buildSyntheticAlert_isSome.mp (Option.isSome_iff_exists.mpr ⟨a, hbuild⟩)
  refine ⟨r, hr, ⟨hsuspect, hkey, hsums⟩, haddresses, hsid, ?_⟩
  rw [hkey]
  exact hseverity

section

variable (B) (D : FlowBatchDispatcher) (answer : LlmAnswer Obj) (clock : PyStr → PyStr → ℕ)

/-- What the classifier finds, nothing when it raises. -/
def resultsOf (pairs : List AggregatedIPPair) : List (PyStr × Classification) :=
  (llamaResults B D answer pairs).getD []

/-- A suspect whose severity passes with the default setting: the heuristic scores it with at least
4, or the classifier has given it a label of high signal. -/
def HighSignal (results : List (PyStr × Classification)) (pair : AggregatedIPPair) : Prop :=
  4 ≤ dispatchScore B D pair ∨
    labelOf (suspectClass results (keyText pair)) ∈ HIGH_SIGNAL_LABELS

/-- Two suspects with one source and one score come to the gate far enough apart, where `k` is the
key of the first and `l` that of the second. -/
def FarApart (window : ℕ) (results : List (PyStr × Classification))
    (pairs : List AggregatedIPPair) (k l : PyStr) : Prop :=
  ∀ p ∈ pairs, ∀ q ∈ pairs, IsSuspect B D results p → IsSuspect B D results q → keyText p = k →
    keyText q = l → p.srcIp = q.srcIp → dispatchScore B D p = dispatchScore B D q →
      clock p.srcIp p.destIp + 1000 * window ≤ clock q.srcIp q.destIp

/-- What each suspect of a window needs to come to the agent. -/
structure SuspectsFine (pairs : List AggregatedIPPair) : Prop where
  /-- Nothing raises on the way to the suspects. -/
  llama : LlamaFine B D answer pairs
  /-- The suspects have keys of their own. -/
  keys : Set.InjOn keyText {p | p ∈ pairs ∧ IsSuspect B D (resultsOf B D answer pairs) p}
  /-- Their sums are written. -/
  sums : ∀ p ∈ pairs, IsSuspect B D (resultsOf B D answer pairs) p → SumsPrint B p
  /-- Their severities pass. -/
  signal : ∀ p ∈ pairs, IsSuspect B D (resultsOf B D answer pairs) p →
    HighSignal B D (resultsOf B D answer pairs) p
  /-- In the order of the loop, those with one source and one score are far enough apart. -/
  apart : (B.listOfSet (suspectKeys B D (resultsOf B D answer pairs) pairs)).Pairwise
    (FarApart B D clock FILTER_DEDUP_WINDOW_SECONDS (resultsOf B D answer pairs) pairs)

/-- When no source of the window is whitelisted, the agent processes one alert for each suspect. -/
def ProcessedOnce (whitelistIps : List PyStr) (trigger : TriggerRead)
    (flows : List (SuricataFlowEvent Obj)) (windowStart windowEnd : PyStr) : Prop :=
  ∀ pairs, aggregateFlows B flows windowStart windowEnd D.ipToZone = some pairs →
    (∀ p ∈ pairs, isWhitelisted (defaultGate whitelistIps) p.srcIp = false) →
      ∀ p ∈ pairs, IsSuspect B D (resultsOf B D answer pairs) p →
        ((processedOf B (defaultGate whitelistIps) D clock trigger answer flows windowStart
          windowEnd).map fun a => (a.srcIp, a.destIp)).count (p.srcIp, p.destIp) = 1

end

variable {D : FlowBatchDispatcher} {answer : LlmAnswer Obj} {trigger : TriggerRead}
  {results : List (PyStr × Classification)} {pairs : List AggregatedIPPair}
  {flows : List (SuricataFlowEvent Obj)} {windowStart windowEnd : PyStr}
  {whitelistIps : List PyStr}

theorem sid_of_getD {a : SuricataAlert Obj} {n : ℤ}
    (h : getD a.alert "signature_id" (.int 0) = .int n) : a.sid B = some n := by
  unfold SuricataAlert.sid
  rw [h, B.toInt_int]

theorem severity_of_getD {a : SuricataAlert Obj} {n : ℤ}
    (h : getD a.alert "severity" (.int 4) = .int n) : a.severity B = some n := by
  unfold SuricataAlert.severity
  rw [h, B.toInt_int]

/-- The suspect that an alert is for, and what the gate reads of the alert. -/
structure AlertIsFor (B : BatchTypes Obj) (D : FlowBatchDispatcher)
    (results : List (PyStr × Classification)) (whitelistIps : List PyStr)
    (a : SuricataAlert Obj) (r : AggregatedIPPair) : Prop where
  suspect : IsSuspect B D results r
  sums : SumsPrint B r
  addresses : (a.srcIp, a.destIp) = (r.srcIp, r.destIp)
  key : keyOf B a = dedupKey r.srcIp (sidOf (dispatchScore B D r))
  eligible : Eligible B (defaultGate whitelistIps) a ↔ HighSignal B D results r

theorem exists_alertIsFor (whitelistIps : List PyStr) {pid : PyStr} {a : SuricataAlert Obj}
    (h : alertFor B D results pairs pid = some a) :
    ∃ r ∈ pairs, keyText r = pid ∧ AlertIsFor B D results whitelistIps a r := by
  obtain ⟨r, hr, ⟨hsuspect, hkey, hsums⟩, ⟨hsrc, hdest⟩, hsid, hseverity⟩ := of_alertFor h
  have hsid' : a.sid B = some _ := sid_of_getD hsid
  have hseverity' : a.severity B = some _ := severity_of_getD hseverity
  refine ⟨r, hr, hkey, hsuspect, hsums, by rw [hsrc, hdest], ?_, ?_⟩
  · unfold keyOf
    rw [hsid', hsrc]
    rfl
  · unfold Eligible HighSignal
    rw [← severityOf_le_two_iff, hsid', hseverity']
    simp [writes_sidOf, defaultGate, FILTER_SEVERITY_MIN]

/-- The alerts have addresses of their own. -/
theorem nodup_addresses_alertsOf
    (hpairs : aggregateFlows B flows windowStart windowEnd D.ipToZone = some pairs) :
    ((alertsOf B D results pairs).map fun a => (a.srcIp, a.destIp)).Nodup := by
  have hkeys : (B.listOfSet (suspectKeys B D results pairs)).Nodup := by
    rw [(B.perm_listOfSet _).nodup_iff]
    exact List.nodup_dedup _
  unfold alertsOf List.Nodup
  rw [List.pairwise_map, List.pairwise_filterMap]
  refine hkeys.imp fun {k l} hkl a ha b hb heq => hkl ?_
  obtain ⟨r, hr, rfl, hfor⟩ := exists_alertIsFor [] ha
  obtain ⟨r', hr', rfl, hfor'⟩ := exists_alertIsFor [] hb
  have haddr := hfor.addresses.symm.trans (heq.trans hfor'.addresses)
  obtain ⟨hsrc, hdest⟩ := Prod.mk.inj haddr
  rw [eq_of_mem_aggregateFlows hpairs hr hr' hsrc hdest]

/-- Where the keys are distinct and the sums are written, each suspect has its own alert. -/
theorem exists_alertFor (whitelistIps : List PyStr)
    (hkeys : Set.InjOn keyText {p | p ∈ pairs ∧ IsSuspect B D results p}) {p : AggregatedIPPair}
    (hp : p ∈ pairs) (hs : IsSuspect B D results p) (hsums : SumsPrint B p) :
    ∃ a, alertFor B D results pairs (keyText p) = some a ∧
      AlertIsFor B D results whitelistIps a p := by
  obtain ⟨⟨r, score, cls⟩, hchosen⟩ := Option.isSome_iff_exists.mp (chosenFor_isSome hp hs)
  obtain ⟨⟨hr, hkey, hrs⟩, -⟩ := of_chosenFor hchosen
  obtain rfl := hkeys ⟨hr, hrs⟩ ⟨hp, hs⟩ hkey
  have hbuild : (buildSyntheticAlert B r score cls).isSome = true :=
    buildSyntheticAlert_isSome.mpr hsums
  obtain ⟨a, ha⟩ := Option.isSome_iff_exists.mp hbuild
  have halert := alertFor_eq_some.mpr ⟨r, score, cls, hchosen, ha⟩
  obtain ⟨q, hq, hqkey, hfor⟩ := exists_alertIsFor whitelistIps halert
  obtain rfl := hkeys ⟨hq, hfor.suspect⟩ ⟨hr, hrs⟩ hqkey
  exact ⟨a, halert, hfor⟩

/-- The keys of the alerts are spaced exactly when the suspects are far enough apart. -/
theorem spaced_alertsOf_iff
    (hkeys : Set.InjOn keyText {p | p ∈ pairs ∧ IsSuspect B D results p})
    (hsums : ∀ p ∈ pairs, IsSuspect B D results p → SumsPrint B p) (window : ℕ) :
    Spaced (keyOf B) (fun a => clock a.srcIp a.destIp) (1000 * window)
        (alertsOf B D results pairs) ↔
      (B.listOfSet (suspectKeys B D results pairs)).Pairwise
        (FarApart B D clock window results pairs) := by
  unfold Spaced alertsOf
  rw [List.pairwise_filterMap]
  have hscore : ∀ r : AggregatedIPPair, dispatchScore B D r ≤ 99 := by
    intro r
    have hle := suspectScore_le (B := B) r
    unfold dispatchScore
    split_ifs
    · omega
    · omega
  constructor
  · intro h
    refine h.imp fun {k l} hkl p hp q hq hps hqs hpk hql hsrc hsc => ?_
    obtain ⟨a, ha, hfor⟩ := exists_alertFor [] hkeys hp hps (hsums p hp hps)
    obtain ⟨b, hb, hfor'⟩ := exists_alertFor [] hkeys hq hqs (hsums q hq hqs)
    have hle := hkl a (hpk ▸ ha) b (hql ▸ hb) (by rw [hfor.key, hfor'.key, hsrc, hsc])
    obtain ⟨hasrc, hadest⟩ := Prod.mk.inj hfor.addresses
    obtain ⟨hbsrc, hbdest⟩ := Prod.mk.inj hfor'.addresses
    simpa only [hasrc, hadest, hbsrc, hbdest] using hle
  · intro h
    refine h.imp fun {k l} hkl a ha b hb heq => ?_
    obtain ⟨r, hr, hrk, hfor⟩ := exists_alertIsFor [] ha
    obtain ⟨q, hq, hqk, hfor'⟩ := exists_alertIsFor [] hb
    rw [hfor.key, hfor'.key, dedupKey_sidOf_inj (hscore r) (hscore q)] at heq
    obtain ⟨hasrc, hadest⟩ := Prod.mk.inj hfor.addresses
    obtain ⟨hbsrc, hbdest⟩ := Prod.mk.inj hfor'.addresses
    simp only [hasrc, hadest, hbsrc, hbdest]
    exact hkl r hr q hq hfor.suspect hfor'.suspect hrk hqk heq.1 heq.2

/-- The sources of the alerts are not whitelisted when those of the pairs are not. -/
theorem isWhitelisted_of_mem_alertsOf
    (hw : ∀ p ∈ pairs, isWhitelisted (defaultGate whitelistIps) p.srcIp = false) :
    ∀ a ∈ alertsOf B D results pairs, isWhitelisted (defaultGate whitelistIps) a.srcIp = false := by
  intro a ha
  obtain ⟨pid, halert⟩ := mem_alertsOf.mp ha
  obtain ⟨r, hr, -, hfor⟩ := exists_alertIsFor whitelistIps halert
  rw [(Prod.mk.inj hfor.addresses).1]
  exact hw r hr

theorem onAlerts_sublist {alerts : List (SuricataAlert Obj)}
    (hw : ∀ a ∈ alerts, isWhitelisted g a.srcIp = false) :
    (onAlerts B g clock .empty alerts).Sublist alerts := by
  classical
  rw [onAlerts_eq hw]
  exact (accepted_sublist _ _).trans List.filter_sublist

/-- When each suspect has an alert that is processed, all the alerts are processed. -/
theorem onAlerts_eq_self_of_mem
    (hpairs : aggregateFlows B flows windowStart windowEnd D.ipToZone = some pairs)
    (hw : ∀ p ∈ pairs, isWhitelisted (defaultGate whitelistIps) p.srcIp = false)
    (hmem : ∀ p ∈ pairs, IsSuspect B D results p →
      ∃ a ∈ onAlerts B (defaultGate whitelistIps) clock .empty (alertsOf B D results pairs),
        (a.srcIp, a.destIp) = (p.srcIp, p.destIp)) :
    onAlerts B (defaultGate whitelistIps) clock .empty (alertsOf B D results pairs) =
      alertsOf B D results pairs := by
  have hnodup : ((alertsOf B D results pairs).map fun a => (a.srcIp, a.destIp)).Nodup :=
    nodup_addresses_alertsOf hpairs
  have hsub : (onAlerts B (defaultGate whitelistIps) clock .empty
      (alertsOf B D results pairs)).Sublist (alertsOf B D results pairs) :=
    onAlerts_sublist (isWhitelisted_of_mem_alertsOf hw)
  refine hsub.eq_of_length_le
    (List.subperm_of_subset (List.Nodup.of_map _ hnodup) fun a ha => ?_).length_le
  obtain ⟨pid, halert⟩ := mem_alertsOf.mp ha
  obtain ⟨r, hr, -, hfor⟩ := exists_alertIsFor whitelistIps halert
  obtain ⟨b, hb, haddresses⟩ := hmem r hr hfor.suspect
  -- the alert that is processed for this suspect is the alert itself
  have hab : b = a := List.inj_on_of_nodup_map hnodup (hsub.subset hb) ha
    (haddresses.trans hfor.addresses.symm)
  exact hab ▸ hb

/-- If each suspect has one alert that is processed, then each has what it needs. -/
theorem suspectsFine_of_count (htrigger : triggerEnabled trigger = true)
    (hpairs : aggregateFlows B flows windowStart windowEnd D.ipToZone = some pairs)
    (hw : ∀ p ∈ pairs, isWhitelisted (defaultGate whitelistIps) p.srcIp = false)
    {p : AggregatedIPPair} (hp : p ∈ pairs) (hs : IsSuspect B D (resultsOf B D answer pairs) p)
    (h : ∀ p ∈ pairs, IsSuspect B D (resultsOf B D answer pairs) p →
      ((processedOf B (defaultGate whitelistIps) D clock trigger answer flows windowStart
        windowEnd).map fun a => (a.srcIp, a.destIp)).count (p.srcIp, p.destIp) = 1) :
    SuspectsFine B D answer clock pairs := by
  have hne := List.ne_nil_of_mem hp
  unfold processedOf at h
  rw [onWindowClose_of_aggregateFlows hne hpairs] at h
  cases halerts : dispatchPairs B D trigger answer pairs with
  | none =>
    have hcount := h p hp hs
    simp [halerts, onAlerts] at hcount
  | some alerts =>
    obtain ⟨hwrites, results, hresults, rfl⟩ := (dispatchPairs_eq_some htrigger).mp halerts
    have hof : resultsOf B D answer pairs = results := by
      unfold resultsOf
      rw [hresults]
      rfl
    rw [halerts, hof, Option.getD_some] at h
    have hall : onAlerts B (defaultGate whitelistIps) clock .empty (alertsOf B D results pairs) =
        alertsOf B D results pairs := by
      refine onAlerts_eq_self_of_mem hpairs hw fun q hq hqs => ?_
      have hpos := Nat.lt_of_lt_of_eq Nat.one_pos (h q hq hqs).symm
      exact List.mem_map.mp (List.count_pos_iff.mp hpos)
    rw [hall] at h
    obtain ⟨heligible, hspaced⟩ :=
      (onAlerts_eq_self_iff (isWhitelisted_of_mem_alertsOf hw)).mp hall
    have hown : ∀ q ∈ pairs, IsSuspect B D results q → ∃ a,
        alertFor B D results pairs (keyText q) = some a ∧
          AlertIsFor B D results whitelistIps a q := by
      intro q hq hqs
      have hpos := Nat.lt_of_lt_of_eq Nat.one_pos (h q hq hqs).symm
      obtain ⟨a, ha, haddresses⟩ := List.mem_map.mp (List.count_pos_iff.mp hpos)
      obtain ⟨pid, halert⟩ := mem_alertsOf.mp ha
      obtain ⟨r, hr, rfl, hfor⟩ := exists_alertIsFor whitelistIps halert
      obtain ⟨hsrc, hdest⟩ := Prod.mk.inj (hfor.addresses.symm.trans haddresses)
      obtain rfl := eq_of_mem_aggregateFlows hpairs hr hq hsrc hdest
      exact ⟨a, halert, hfor⟩
    have hkeys : Set.InjOn keyText {p | p ∈ pairs ∧ IsSuspect B D results p} := by
      rintro q ⟨hq, hqs⟩ r ⟨hr, hrs⟩ hkey
      obtain ⟨a, ha, hfor⟩ := hown q hq hqs
      obtain ⟨b, hb, hfor'⟩ := hown r hr hrs
      rw [hkey, hb] at ha
      obtain rfl := Option.some_inj.mp ha
      obtain ⟨hsrc, hdest⟩ := Prod.mk.inj (hfor.addresses.symm.trans hfor'.addresses)
      exact eq_of_mem_aggregateFlows hpairs hq hr hsrc hdest
    have hsums : ∀ q ∈ pairs, IsSuspect B D results q → SumsPrint B q := by
      intro q hq hqs
      obtain ⟨a, -, hfor⟩ := hown q hq hqs
      exact hfor.sums
    rw [← hof] at hkeys hsums
    refine ⟨?_, hkeys, hsums, ?_, ?_⟩
    · rw [llamaFine_iff hne, hresults]
      exact ⟨hwrites, rfl⟩
    · rw [hof]
      intro q hq hqs
      obtain ⟨a, ha, hfor⟩ := hown q hq hqs
      exact hfor.eligible.mp (heligible a (mem_alertsOf.mpr ⟨_, ha⟩))
    · rw [hof] at hkeys hsums ⊢
      exact (spaced_alertsOf_iff hkeys hsums _).mp hspaced

/-- If each suspect has what it needs, then one alert is processed for each. -/
theorem count_of_suspectsFine (htrigger : triggerEnabled trigger = true)
    (hpairs : aggregateFlows B flows windowStart windowEnd D.ipToZone = some pairs)
    (hw : ∀ p ∈ pairs, isWhitelisted (defaultGate whitelistIps) p.srcIp = false)
    {p : AggregatedIPPair} (hp : p ∈ pairs) (hs : IsSuspect B D (resultsOf B D answer pairs) p)
    (h : SuspectsFine B D answer clock pairs) :
    ((processedOf B (defaultGate whitelistIps) D clock trigger answer flows windowStart
      windowEnd).map fun a => (a.srcIp, a.destIp)).count (p.srcIp, p.destIp) = 1 := by
  have hne := List.ne_nil_of_mem hp
  obtain ⟨hwrites, hsome⟩ := (llamaFine_iff hne).mp h.llama
  obtain ⟨results, hresults⟩ := Option.isSome_iff_exists.mp hsome
  have hof : resultsOf B D answer pairs = results := by
    unfold resultsOf
    rw [hresults]
    rfl
  have hkeys := h.keys
  have hsums := h.sums
  have hsignal := h.signal
  have hapart := h.apart
  rw [hof] at hkeys hsums hsignal hapart hs
  have halerts := (dispatchPairs_eq_some htrigger).mpr ⟨hwrites, results, hresults, rfl⟩
  have hall : onAlerts B (defaultGate whitelistIps) clock .empty (alertsOf B D results pairs) =
      alertsOf B D results pairs := by
    rw [onAlerts_eq_self_iff (isWhitelisted_of_mem_alertsOf hw)]
    refine ⟨fun a ha => ?_, ?_⟩
    · obtain ⟨pid, halert⟩ := mem_alertsOf.mp ha
      obtain ⟨r, hr, -, hfor⟩ := exists_alertIsFor whitelistIps halert
      exact hfor.eligible.mpr (hsignal r hr hfor.suspect)
    · exact (spaced_alertsOf_iff hkeys hsums _).mpr hapart
  unfold processedOf
  rw [onWindowClose_of_aggregateFlows hne hpairs, halerts, Option.getD_some, hall]
  obtain ⟨a, ha, hfor⟩ := exists_alertFor whitelistIps hkeys hp hs (hsums p hp hs)
  refine List.count_eq_one_of_mem (nodup_addresses_alertsOf hpairs) ?_
  exact List.mem_map.mpr ⟨a, mem_alertsOf.mpr ⟨_, ha⟩, hfor.addresses⟩

/-- The agent processes one alert for each suspect of a window exactly when there is no suspect or
each has what it needs. -/
theorem processedOnce_iff (htrigger : triggerEnabled trigger = true) :
    ProcessedOnce B D answer clock whitelistIps trigger flows windowStart windowEnd ↔
      ∀ pairs, aggregateFlows B flows windowStart windowEnd D.ipToZone = some pairs →
        (∀ p ∈ pairs, isWhitelisted (defaultGate whitelistIps) p.srcIp = false) →
          (∃ p ∈ pairs, IsSuspect B D (resultsOf B D answer pairs) p) →
            SuspectsFine B D answer clock pairs := by
  refine forall₂_congr fun pairs hpairs => forall_congr' fun hw => ?_
  constructor
  · rintro h ⟨p, hp, hs⟩
    exact suspectsFine_of_count htrigger hpairs hw hp hs h
  · intro h p hp hs
    exact count_of_suspectsFine htrigger hpairs hw hp hs (h ⟨p, hp, hs⟩)

/-! ## The window at the gate -/

/-- The answer of a classifier that suspects the connection, too. -/
def lateralAnswer : LlmAnswer PyStr :=
  plainAnswer "10.1.100.5→10.2.100.10:22" "SUSPECT_lateral" (.float half)

/-- With the label of the classifier the alert has a severity of 2, and is processed. -/
theorem processedOnce_sshWindow :
    ProcessedOnce plainBatch plainDispatcher lateralAnswer (fun _ _ => 0) [] .noRedis sshWindow
      (u "12:00") (u "12:02") := by
  refine (processedOnce_iff rfl).mpr fun pairs hpairs _ _ => ?_
  obtain rfl := Option.some_inj.mp (aggregateFlows_sshWindow.symm.trans hpairs)
  have hclassified : (classifyBatch plainBatch lateralAnswer [sshPair]).isSome = true := by
    decide +kernel
  have hkeys : plainBatch.listOfSet (suspectKeys plainBatch plainDispatcher
      (resultsOf plainBatch plainDispatcher lateralAnswer [sshPair]) [sshPair]) =
        [keyText sshPair] := by
    decide +kernel
  have hlabel : labelOf (suspectClass
      (resultsOf plainBatch plainDispatcher lateralAnswer [sshPair]) (keyText sshPair)) ∈
        HIGH_SIGNAL_LABELS := by
    decide +kernel
  refine ⟨(classifyBatch_isSome (by simp)).mp hclassified, ?_, ?_, ?_, ?_⟩
  · rintro p ⟨hp, -⟩ q ⟨hq, -⟩ -
    rw [List.mem_singleton.mp hp, List.mem_singleton.mp hq]
  · intro p hp _
    obtain rfl := List.mem_singleton.mp hp
    exact summaryPrints_sshPair.sumsPrint
  · intro p hp _
    obtain rfl := List.mem_singleton.mp hp
    exact .inr hlabel
  · rw [hkeys]
    exact List.pairwise_singleton _ _

/-- A suspect of the heuristic with a score of 2 has a severity of 3, which the gate drops. -/
theorem exists_suspect_not_processed :
    ∃ (answer : LlmAnswer PyStr) (trigger : TriggerRead) (flows : List (SuricataFlowEvent PyStr))
      (windowStart windowEnd : PyStr), triggerEnabled trigger = true ∧
        ¬ ProcessedOnce plainBatch plainDispatcher answer (fun _ _ => 0) [] trigger flows
          windowStart windowEnd := by
  refine ⟨.raised, .noRedis, sshWindow, u "12:00", u "12:02", rfl, fun h => ?_⟩
  have hheur : IsHeuristic plainBatch plainDispatcher sshPair := by decide +kernel
  have hallowed : isWhitelisted (defaultGate []) sshPair.srcIp = false := by decide +kernel
  have hcount := h _ aggregateFlows_sshWindow
    (fun p hp => by rw [List.mem_singleton.mp hp]; exact hallowed) sshPair
    (List.mem_singleton_self _) (.inl hheur)
  have hdropped : (processedOf plainBatch (defaultGate []) plainDispatcher (fun _ _ => 0) .noRedis
      .raised sshWindow (u "12:00") (u "12:02")).isEmpty = true := by
    decide +kernel
  rw [List.isEmpty_iff.mp hdropped] at hcount
  exact absurd hcount (by simp)

end ControlPlane.Stream
