import ControlPlane.Secure.AuditTrail
import Mathlib.Data.List.ReduceOption

/-!
# The audit report

`generate_audit_report` of the tamper logger, made from the file. Its loop takes every value that
the reading gives for an entry, so that one of another shape ends it with an exception, and lines
that the reading passes over are in none of its numbers. `accounted_iff` says for which files there
is a report that accounts for every line and counts each line that is not of an entry that was
written as a failure.
-/

namespace ControlPlane.Secure

open JsonText

variable {Obj : Type}

/-! ## The report -/

/-- One of `recent_critical_events`. -/
structure CriticalEvent (Obj : Type) where
  timestamp : PyVal Obj
  action : PyVal Obj
  user : PyVal Obj
  /-- The first hundred characters or items of the details. -/
  details : PyVal Obj

/-- `report`. The counts are dicts, in the order of their keys' first uses. -/
structure Report (Obj : Type) where
  /-- `generated_at`. -/
  generatedAt : PyStr
  /-- `total_events`. -/
  totalEvents : ℕ
  /-- `tampering_events`. -/
  tamperingEvents : ℕ := 0
  /-- `access_denials`. -/
  accessDenials : ℕ := 0
  /-- `by_user`. -/
  byUser : List (PyVal Obj × ℕ) := []
  /-- `by_action`. -/
  byAction : List (PyVal Obj × ℕ) := []
  /-- `by_severity`. -/
  bySeverity : List (PyVal Obj × ℕ) := []
  /-- `integrity_verified`. -/
  integrityVerified : ℕ := 0
  /-- `integrity_failed`. -/
  integrityFailed : ℕ := 0
  /-- `recent_critical_events`. -/
  recentCriticalEvents : List (CriticalEvent Obj) := []

/-- A count more under a key; `same` tells whether two keys are one. -/
def bump (same : PyVal Obj → PyVal Obj → Bool) (key : PyVal Obj) :
    List (PyVal Obj × ℕ) → List (PyVal Obj × ℕ)
  | [] => [(key, 1)]
  | (k, n) :: rest => if same k key then (k, n + 1) :: rest else (k, n) :: bump same key rest

/-- The sum of the counts. -/
def total (counts : List (PyVal Obj × ℕ)) : ℕ := (counts.map Prod.snd).sum

/-- `d.get(key, default)`. -/
def getOr (key : String) (default : PyVal Obj) (items : List (PyKey Obj × PyVal Obj)) :
    PyVal Obj :=
  (getItem (u key) items).getD default

/-- `v[:100]`, of a value of JSON. -/
def firstHundred : PyVal Obj → Except PyStr (PyVal Obj)
  | .str s => .ok (.str (s.take 100))
  | .seq frozen xs => .ok (.seq frozen (xs.take 100))
  | _ => .error (u "TypeError")

namespace Runtime

variable (R : Runtime Obj)

/-- `identity.get("cn") or identity.get("ip") or "unknown"`. -/
def userKey (identity : List (PyKey Obj × PyVal Obj)) : Except PyStr (PyVal Obj) := do
  if ← R.truthy (getOr "cn" .none identity) then return getOr "cn" .none identity
  if ← R.truthy (getOr "ip" .none identity) then return getOr "ip" .none identity
  return .str (u "unknown")

/-- What an event adds to the critical ones. -/
def criticalEvents (log : List (PyKey Obj × PyVal Obj)) (user : PyVal Obj) :
    Except PyStr (List (CriticalEvent Obj)) := do
  let severity := getOr "severity" (.str (u "info")) log
  if ← R.equals (u "critical") severity then
    let details ← firstHundred (getOr "details" (.str []) log)
    return [{ timestamp := getOr "timestamp" .none log,
              action := getOr "action" (.str (u "unknown")) log, user, details }]
  else return []

/-- The loop's body for a dict whose `client_info` and `user_identity` are these. -/
def countFields (same : PyVal Obj → PyVal Obj → Bool) (report : Report Obj)
    (log clientInfo identity : List (PyKey Obj × PyVal Obj)) : Except PyStr (Report Obj) := do
  let tampering ← R.truthy (getOr "is_tampering" .none log)
  let denied ← R.truthy (getOr "access_denied" .none clientInfo)
  let user ← R.userKey identity
  R.hash user
  let action := getOr "action" (.str (u "unknown")) log
  R.hash action
  let severity := getOr "severity" (.str (u "info")) log
  R.hash severity
  let verified ← R.verifyLogIntegrity log
  let critical ← R.criticalEvents log user
  return { report with
    tamperingEvents := report.tamperingEvents + tampering.toNat
    accessDenials := report.accessDenials + denied.toNat
    byUser := bump same user report.byUser
    byAction := bump same action report.byAction
    bySeverity := bump same severity report.bySeverity
    integrityVerified := report.integrityVerified + verified.toNat
    integrityFailed := report.integrityFailed + (!verified).toNat
    recentCriticalEvents := report.recentCriticalEvents ++ critical }

/-- The loop's body. Only a dict has a `get`. -/
def countEvent (same : PyVal Obj → PyVal Obj → Bool) (report : Report Obj) :
    PyVal Obj → Except PyStr (Report Obj)
  | .dict log =>
    match getOr "client_info" (.dict []) log, getOr "user_identity" (.dict []) log with
    | .dict clientInfo, .dict identity => R.countFields same report log clientInfo identity
    | _, _ => .error (u "AttributeError")
  | _ => .error (u "AttributeError")

/-- `generate_audit_report`, of a file: at the end the last ten critical events are kept. -/
def generateAuditReport (same : PyVal Obj → PyVal Obj → Bool) (now : PyStr) (ahead : ℕ)
    (file : List (Option PyStr)) : Except PyStr (Report Obj) := do
  let allLogs := R.readFromFile ahead file
  let report ← allLogs.foldlM (R.countEvent same)
    { generatedAt := now, totalEvents := allLogs.length }
  return { report with
    recentCriticalEvents :=
      report.recentCriticalEvents.drop (report.recentCriticalEvents.length - 10) }

end Runtime

/-! ## What one event adds -/

theorem total_bump (same : PyVal Obj → PyVal Obj → Bool) (key : PyVal Obj)
    (counts : List (PyVal Obj × ℕ)) : total (bump same key counts) = total counts + 1 := by
  induction counts with
  | nil => rfl
  | cons i rest ih =>
    obtain ⟨k, n⟩ := i
    unfold total at ih ⊢
    rw [bump]
    split_ifs
    · rw [List.map_cons, List.map_cons, List.sum_cons, List.sum_cons]
      omega
    · rw [List.map_cons, List.map_cons, List.sum_cons, List.sum_cons, ih]
      omega

/-- The numbers of a report with an event more, which verifies or does not. -/
structure Counted (report report' : Report Obj) (b : Bool) : Prop where
  verified : report'.integrityVerified = report.integrityVerified + b.toNat
  failed : report'.integrityFailed = report.integrityFailed + (!b).toNat
  byUser : total report'.byUser = total report.byUser + 1
  byAction : total report'.byAction = total report.byAction + 1
  bySeverity : total report'.bySeverity = total report.bySeverity + 1

namespace Runtime

variable (R : Runtime Obj)

/-- A dict that the loop gets through: `client_info` and `user_identity` are dicts where they are
there, the keys of the counts are hashable, a signature is an ASCII text, and the details of a
critical event are a text or a list. -/
structure Countable (log : List (PyKey Obj × PyVal Obj)) : Prop where
  clientInfo : ∃ clientInfo, getOr "client_info" (.dict []) log = .dict clientInfo
  identity : ∃ identity user, getOr "user_identity" (.dict []) log = .dict identity ∧
    R.userKey identity = .ok user ∧ R.hash user = .ok ()
  action : R.hash (getOr "action" (.str (u "unknown")) log) = .ok ()
  severity : R.hash (getOr "severity" (.str (u "info")) log) = .ok ()
  signature : ∀ v, getItem (u "integrity_signature") log = some v → ∃ s, v = .str s ∧ Ascii s
  details : getOr "severity" (.str (u "info")) log = .str (u "critical") →
    ∃ v, firstHundred (getOr "details" (.str []) log) = .ok v

variable {R}

/-- A value of JSON is true or false. -/
theorem exists_truthy {v : PyVal Obj} (hv : IsJson v) : ∃ b, R.truthy v = .ok b := by
  cases v with
  | other o => exact hv.here.elim
  | _ => exact ⟨_, rfl⟩

theorem isJson_getOr {log : List (PyKey Obj × PyVal Obj)} (hlog : IsJson (.dict log)) (key : String)
    {default : PyVal Obj} (hdefault : IsJson default) : IsJson (getOr key default log) := by
  unfold getOr
  cases hget : getItem (u key) log with
  | none => exact hdefault
  | some v =>
    obtain ⟨i, hi, rfl⟩ := Option.map_eq_some_iff.mp hget
    exact hlog.inside (List.mem_map_of_mem (List.mem_of_find?_eq_some hi))

/-- The signature of a value of JSON is compared when it is an ASCII text. -/
theorem verify_isOk_iff (hR : Lawful R) {log : List (PyKey Obj × PyVal Obj)}
    (hlog : IsJson (.dict log)) : (∃ b, R.verifyLogIntegrity log = .ok b) ↔
      ∀ v, getItem (u "integrity_signature") log = some v → ∃ s, v = .str s ∧ Ascii s := by
  have hsign := ascii_sign hR hlog
  unfold verifyLogIntegrity
  cases hget : getItem (u "integrity_signature") log with
  | none => simp
  | some stored =>
    simp only [Option.some.injEq, forall_eq']
    constructor
    · rintro ⟨b, hb⟩
      unfold compareDigest at hb
      split at hb
      · next s =>
        split_ifs at hb with hall
        rw [List.all_append, Bool.and_eq_true, List.all_eq_true] at hall
        exact ⟨s, rfl, fun c hc => of_decide_eq_true (hall.1 c hc)⟩
      · exact absurd hb (by simp)
    · rintro ⟨s, rfl, hs⟩
      exact ⟨_, compareDigest_str hs hsign⟩

/-- A value of JSON equals a text when it is the text. -/
theorem exists_equals {v : PyVal Obj} (hv : IsJson v) (s : PyStr) :
    ∃ b, R.equals s v = .ok b ∧ (b = true ↔ v = .str s) := by
  cases v with
  | other o => exact hv.here.elim
  | str t => exact ⟨_, rfl, by simp⟩
  | _ => exact ⟨_, rfl, by simp⟩

theorem criticalEvents_isOk_iff {log : List (PyKey Obj × PyVal Obj)} (hlog : IsJson (.dict log))
    (user : PyVal Obj) : (∃ events, R.criticalEvents log user = .ok events) ↔
      (getOr "severity" (.str (u "info")) log = .str (u "critical") →
        ∃ v, firstHundred (getOr "details" (.str []) log) = .ok v) := by
  have hdefault : IsJson (.str (u "info") : PyVal Obj) := isJson_of_children rfl trivial
  obtain ⟨b, hb, hcritical⟩ := exists_equals (R := R) (isJson_getOr hlog "severity" hdefault)
    (u "critical")
  unfold criticalEvents
  simp only [hb, bind, Except.bind, ← hcritical]
  cases b with
  | false => simp [pure, Except.pure]
  | true =>
    cases firstHundred (getOr "details" (.str []) log) with
    | ok v => simp [pure, Except.pure]
    | error e => simp

/-- The event is counted exactly when it is a dict that the loop gets through. -/
theorem countFields_isOk_iff (hR : Lawful R) (same : PyVal Obj → PyVal Obj → Bool)
    (report : Report Obj) {log clientInfo identity : List (PyKey Obj × PyVal Obj)}
    (hlog : IsJson (.dict log)) (hinfo : IsJson (.dict clientInfo)) :
    (∃ report', R.countFields same report log clientInfo identity = .ok report') ↔
      (∃ user, R.userKey identity = .ok user ∧ R.hash user = .ok ()) ∧
      R.hash (getOr "action" (.str (u "unknown")) log) = .ok () ∧
      R.hash (getOr "severity" (.str (u "info")) log) = .ok () ∧
      (∀ v, getItem (u "integrity_signature") log = some v → ∃ s, v = .str s ∧ Ascii s) ∧
      (getOr "severity" (.str (u "info")) log = .str (u "critical") →
        ∃ v, firstHundred (getOr "details" (.str []) log) = .ok v) := by
  have hnone : IsJson (.none : PyVal Obj) := isJson_of_children rfl trivial
  obtain ⟨tampering, htampering⟩ := exists_truthy (R := R) (isJson_getOr hlog "is_tampering" hnone)
  obtain ⟨denied, hdenied⟩ := exists_truthy (R := R) (isJson_getOr hinfo "access_denied" hnone)
  rw [← verify_isOk_iff hR hlog]
  unfold countFields
  simp only [htampering, hdenied, bind, Except.bind]
  cases huser : R.userKey identity with
  | error e => simp
  | ok user =>
    rw [← criticalEvents_isOk_iff hlog user]
    simp only [Except.ok.injEq, exists_eq_left']
    cases R.hash user with
    | error e => simp
    | ok _ =>
      cases R.hash (getOr "action" (.str (u "unknown")) log) with
      | error e => simp
      | ok _ =>
        cases R.hash (getOr "severity" (.str (u "info")) log) with
        | error e => simp
        | ok _ =>
          cases R.verifyLogIntegrity log with
          | error e => simp
          | ok verified =>
            cases R.criticalEvents log user with
            | error e => simp
            | ok critical => simp [pure, Except.pure]

theorem countEvent_isOk_iff (hR : Lawful R) (same : PyVal Obj → PyVal Obj → Bool)
    (report : Report Obj) {log : List (PyKey Obj × PyVal Obj)} (hlog : IsJson (.dict log)) :
    (∃ report', R.countEvent same report (.dict log) = .ok report') ↔ R.Countable log := by
  have hempty : IsJson (.dict [] : PyVal Obj) := isJson_dict ⟨by simp, List.nodup_nil⟩ (by simp)
  have hinfo := isJson_getOr hlog "client_info" hempty
  constructor
  · rintro ⟨report', h⟩
    rw [countEvent] at h
    split at h
    · next clientInfo identity hclient hident =>
      rw [hclient] at hinfo
      obtain ⟨⟨user, huser, hhash⟩, haction, hseverity, hsignature, hdetails⟩ :=
        (countFields_isOk_iff hR same report hlog hinfo).mp ⟨report', h⟩
      exact ⟨⟨clientInfo, hclient⟩, ⟨identity, user, hident, huser, hhash⟩, haction, hseverity,
        hsignature, hdetails⟩
    · simp at h
  · rintro ⟨⟨clientInfo, hclient⟩, ⟨identity, user, hident, huser, hhash⟩, haction, hseverity,
      hsignature, hdetails⟩
    rw [hclient] at hinfo
    rw [countEvent, hclient, hident]
    exact (countFields_isOk_iff hR same report hlog hinfo).mpr
      ⟨⟨user, huser, hhash⟩, haction, hseverity, hsignature, hdetails⟩

/-- What the loop's body does to the numbers. -/
theorem counted_of_countEvent {same : PyVal Obj → PyVal Obj → Bool} {report report' : Report Obj}
    {v : PyVal Obj} (h : R.countEvent same report v = .ok report') :
    ∃ log verified, v = .dict log ∧ R.verifyLogIntegrity log = .ok verified ∧
      Counted report report' verified := by
  cases v with
  | dict log =>
    rw [countEvent] at h
    split at h
    · unfold countFields at h
      obtain ⟨tampering, -, h⟩ := except_bind_eq_ok h
      obtain ⟨denied, -, h⟩ := except_bind_eq_ok h
      obtain ⟨user, -, h⟩ := except_bind_eq_ok h
      obtain ⟨_, -, h⟩ := except_bind_eq_ok h
      obtain ⟨_, -, h⟩ := except_bind_eq_ok h
      obtain ⟨_, -, h⟩ := except_bind_eq_ok h
      obtain ⟨verified, hverified, h⟩ := except_bind_eq_ok h
      obtain ⟨critical, -, h⟩ := except_bind_eq_ok h
      obtain rfl := Except.ok.inj h
      exact ⟨log, verified, rfl, hverified, rfl, rfl, total_bump _ _ _, total_bump _ _ _,
        total_bump _ _ _⟩
    · simp at h
  | _ => simp [countEvent] at h

/-! ## What the loop adds -/

variable (R) in
/-- Whether an event verifies, when the comparison does not raise. -/
def verdict : PyVal Obj → Option Bool
  | .dict log => (R.verifyLogIntegrity log).toOption
  | _ => none

theorem verdict_of_verify {log : List (PyKey Obj × PyVal Obj)} {b : Bool}
    (h : R.verifyLogIntegrity log = .ok b) : R.verdict (.dict log) = some b := by
  rw [verdict, h]
  rfl

/-- The numbers behind the loop: each event is counted once, by its verdict. -/
structure CountedAll (R : Runtime Obj) (logs : List (PyVal Obj)) (report report' : Report Obj) :
    Prop where
  verified : report'.integrityVerified =
    report.integrityVerified + logs.countP fun v => R.verdict v = some true
  failed : report'.integrityFailed =
    report.integrityFailed + logs.countP fun v => R.verdict v = some false
  all : report'.integrityVerified + report'.integrityFailed =
    report.integrityVerified + report.integrityFailed + logs.length
  byUser : total report'.byUser = total report.byUser + logs.length
  byAction : total report'.byAction = total report.byAction + logs.length
  bySeverity : total report'.bySeverity = total report.bySeverity + logs.length

theorem countedAll_of_foldlM {same : PyVal Obj → PyVal Obj → Bool} {logs : List (PyVal Obj)}
    {report report' : Report Obj} (h : logs.foldlM (R.countEvent same) report = .ok report') :
    CountedAll R logs report report' := by
  induction logs generalizing report with
  | nil =>
    obtain rfl := Except.ok.inj h
    exact ⟨rfl, rfl, rfl, rfl, rfl, rfl⟩
  | cons v rest ih =>
    rw [List.foldlM_cons] at h
    obtain ⟨middle, hmiddle, hfold⟩ := except_bind_eq_ok h
    obtain ⟨log, verified, rfl, hverified, hcounted⟩ := counted_of_countEvent hmiddle
    obtain ⟨hv, hf, hall, hu, ha, hs⟩ := ih hfold
    have hverdict := verdict_of_verify hverified
    have hone : verified.toNat + (!verified).toNat = 1 := by
      cases verified with
      | true => rfl
      | false => rfl
    have h1 := hcounted.verified
    have h2 := hcounted.failed
    have h3 := hcounted.byUser
    have h4 := hcounted.byAction
    have h5 := hcounted.bySeverity
    refine ⟨?_, ?_, ?_, ?_, ?_, ?_⟩
    · rw [hv, h1, List.countP_cons, hverdict]
      cases verified with
      | true => simp; omega
      | false => simp
    · rw [hf, h2, List.countP_cons, hverdict]
      cases verified with
      | true => simp
      | false => simp; omega
    all_goals
      rw [List.length_cons]
      omega

/-- The loop gets through exactly when it gets through each event. -/
theorem foldlM_isOk_iff (hR : Lawful R) (same : PyVal Obj → PyVal Obj → Bool)
    {logs : List (PyVal Obj)} (hlogs : ∀ v ∈ logs, IsJson v) (report : Report Obj) :
    (∃ report', logs.foldlM (R.countEvent same) report = .ok report') ↔
      ∀ v ∈ logs, ∃ log, v = .dict log ∧ R.Countable log := by
  induction logs generalizing report with
  | nil => exact ⟨fun _ v hv => absurd hv List.not_mem_nil, fun _ => ⟨report, rfl⟩⟩
  | cons v rest ih =>
    obtain ⟨hv, hrest⟩ := List.forall_mem_cons.mp hlogs
    rw [List.forall_mem_cons, List.foldlM_cons]
    constructor
    · rintro ⟨report', h⟩
      obtain ⟨middle, hmiddle, hfold⟩ := except_bind_eq_ok h
      obtain ⟨log, verified, rfl, -, -⟩ := counted_of_countEvent hmiddle
      exact ⟨⟨log, rfl, (countEvent_isOk_iff hR same report hv).mp ⟨middle, hmiddle⟩⟩,
        (ih hrest middle).mp ⟨report', hfold⟩⟩
    · rintro ⟨⟨log, rfl, hcountable⟩, hall⟩
      obtain ⟨middle, hmiddle⟩ := (countEvent_isOk_iff hR same report hv).mpr hcountable
      obtain ⟨report', h⟩ := (ih hrest middle).mpr hall
      exact ⟨report', by rw [hmiddle]; exact h⟩

/-! ## The lines of the file -/

/-- The lines that are not blank; one that does not decode is not. -/
def nonBlank (file : List (Option PyStr)) : List (Option PyStr) :=
  file.filter fun line => line.map strip ≠ some []

theorem nonBlank_map_some (lines : List PyStr) :
    nonBlank (lines.map some) = (lines.filter fun line => strip line ≠ []).map some := by
  unfold nonBlank
  rw [List.filter_map]
  congr 2
  funext line
  simp

/-- A file that decodes is read line by line. -/
theorem exists_lines_of_all {file : List (Option PyStr)} (h : file.all Option.isSome = true) :
    ∃ lines : List PyStr, file = lines.map some := by
  refine ⟨file.reduceOption, ?_⟩
  induction file with
  | nil => rfl
  | cons line rest ih =>
    rw [List.all_cons, Bool.and_eq_true] at h
    obtain ⟨s, rfl⟩ := Option.isSome_iff_exists.mp h.1
    rw [List.reduceOption_cons_of_some, List.map_cons, ← ih h.2]

theorem readFromFile_of_not_all {file : List (Option PyStr)}
    (h : file.all Option.isSome = false) (ahead : ℕ) {lines : List PyStr}
    (hlines : file.takeWhile Option.isSome = lines.map some) :
    R.readFromFile ahead file = R.readLines (lines.take ahead) := by
  unfold readFromFile
  have hreduce : (lines.map some).reduceOption = (lines.map some).filterMap id := rfl
  rw [if_neg (by simp [h]), hlines, hreduce, List.filterMap_map]
  simp

/-- A file that does not decode has lines that are not read. -/
theorem length_readFromFile_lt {file : List (Option PyStr)} (h : file.all Option.isSome = false)
    (ahead : ℕ) : (R.readFromFile ahead file).length < (nonBlank file).length := by
  obtain ⟨lines, hlines⟩ :=
    exists_lines_of_all (List.all_takeWhile (l := file) (p := Option.isSome))
  have hrest : none ∈ file.dropWhile Option.isSome := by
    cases hdrop : file.dropWhile Option.isSome with
    | nil =>
      rw [List.dropWhile_eq_nil_iff, ← List.all_eq_true, h] at hdrop
      simp at hdrop
    | cons line rest =>
      have hhead := List.head?_dropWhile_not Option.isSome file
      rw [hdrop, List.head?_cons] at hhead
      obtain rfl := Option.isNone_iff_eq_none.mp (Option.isSome_eq_false_iff.mp hhead)
      exact List.mem_cons_self
  have hle := length_readLines_le (R := R) (lines.take ahead)
  have hsub : ((lines.take ahead).filter fun line => strip line ≠ []).length ≤
      (lines.filter fun line => strip line ≠ []).length :=
    ((List.take_sublist ahead lines).filter _).length_le
  have hblank : 0 < (nonBlank (file.dropWhile Option.isSome)).length :=
    List.length_pos_of_mem (List.mem_filter.mpr ⟨hrest, by simp⟩)
  have hsplit : (nonBlank file).length = (lines.filter fun line => strip line ≠ []).length +
      (nonBlank (file.dropWhile Option.isSome)).length := by
    conv_lhs => rw [← List.takeWhile_append_dropWhile (p := Option.isSome) (l := file), hlines]
    rw [nonBlank, List.filter_append, List.length_append, ← nonBlank, nonBlank_map_some,
      List.length_map, ← nonBlank]
  rw [readFromFile_of_not_all h ahead hlines]
  omega

/-! ## The lines in the report -/

variable (R)

/-- The line is that of a written entry: its fields have the same text with sorted keys, and the
signature is the same. -/
def IsWritten (written : List (PyKey Obj × PyVal Obj) → Prop) (line : Option PyStr) : Prop :=
  ∃ s log e t, line = some s ∧ R.loads (strip s) = .ok (.dict log) ∧ written e ∧
    R.dumps R.sorted (signed log) = .ok t ∧ R.dumps R.sorted (signed e) = .ok t ∧
    getItem (u "integrity_signature") log = getItem (u "integrity_signature") e

/-- The loop counts the line in `integrity_failed`. -/
def lineFails (line : Option PyStr) : Bool :=
  match line.map fun s => R.loads (strip s) with
  | some (.ok v) => R.verdict v = some false
  | _ => false

/-- The report accounts for each line of the file, and a line that is not of a written entry is
counted as a failure. -/
structure Audited (written : List (PyKey Obj × PyVal Obj) → Prop) (file : List (Option PyStr))
    (report : Report Obj) : Prop where
  lines : report.integrityVerified + report.integrityFailed = (nonBlank file).length
  byUser : total report.byUser = report.integrityVerified + report.integrityFailed
  byAction : total report.byAction = report.integrityVerified + report.integrityFailed
  bySeverity : total report.bySeverity = report.integrityVerified + report.integrityFailed
  counted : report.integrityFailed = (nonBlank file).countP R.lineFails
  failed : ∀ line ∈ nonBlank file, ¬ R.IsWritten written line → R.lineFails line = true

/-- Who carries the signature that the signer computes for it has a digest, and this is that of a
written entry. -/
def Genuine (written : List (PyKey Obj × PyVal Obj) → Prop)
    (log : List (PyKey Obj × PyVal Obj)) : Prop :=
  getItem (u "integrity_signature") log = some (.str (R.sign log)) →
    (∃ t, R.dumps R.sorted (signed log) = .ok t) ∧
      ∃ e, written e ∧ R.sign e = R.sign log ∧
        getItem (u "integrity_signature") e = some (.str (R.sign e))

/-- A line that is not blank decodes and is the text of a dict that the loop gets through and that
has its signature, when this is right, from a written entry. -/
def Auditable (written : List (PyKey Obj × PyVal Obj) → Prop) (file : List (Option PyStr)) : Prop :=
  ∀ line ∈ nonBlank file, ∃ s log, line = some s ∧ R.loads (strip s) = .ok (.dict log) ∧
    R.Countable log ∧ R.Genuine written log

variable {R}

/-- What verifies carries the signature that the signer computes. -/
theorem verify_eq_true_iff (hR : Lawful R) {log : List (PyKey Obj × PyVal Obj)}
    (hlog : IsJson (.dict log)) : R.verifyLogIntegrity log = .ok true ↔
      getItem (u "integrity_signature") log = some (.str (R.sign log)) := by
  have hsign := ascii_sign hR hlog
  constructor
  · intro h
    have hascii := (verify_isOk_iff hR hlog).mp ⟨true, h⟩
    unfold verifyLogIntegrity at h
    cases hget : getItem (u "integrity_signature") log with
    | none => simp [hget] at h
    | some stored =>
      obtain ⟨s, rfl, hs⟩ := hascii stored hget
      rw [hget] at h
      simp only at h
      rw [compareDigest_str hs hsign, Except.ok.injEq, decide_eq_true_eq] at h
      rw [h]
  · intro h
    unfold verifyLogIntegrity
    rw [h]
    simp only
    rw [compareDigest_str hsign hsign, decide_eq_true rfl]

/-- A line that verifies is of a written entry exactly when it has its signature from one. -/
theorem isWritten_iff_genuine (hR : Lawful R) (written : List (PyKey Obj × PyVal Obj) → Prop)
    {s : PyStr} {log : List (PyKey Obj × PyVal Obj)}
    (hloads : R.loads (strip s) = .ok (.dict log)) :
    (R.verifyLogIntegrity log = .ok true → R.IsWritten written (some s)) ↔
      R.Genuine written log := by
  rw [verify_eq_true_iff hR (R.isJson_of_loads hloads).1]
  refine imp_congr_right fun hstored => ?_
  constructor
  · rintro ⟨s', log', e, t, hs, hloads', he, htlog, ht, hsignature⟩
    obtain rfl := Option.some.inj hs
    obtain rfl := PyVal.dict.inj (Except.ok.inj (hloads.symm.trans hloads'))
    have hsign : R.sign e = R.sign log := by
      rw [sign_of_dumps ht, sign_of_dumps htlog]
    refine ⟨⟨t, htlog⟩, e, he, hsign, ?_⟩
    rw [← hsignature, hstored, hsign]
  · rintro ⟨⟨t, ht⟩, e, he, hsign, hsignature⟩
    refine ⟨s, log, e, t, rfl, hloads, he, ht, ?_, ?_⟩
    · rw [sign_of_dumps ht] at hsign
      cases hdumps : R.dumps R.sorted (signed e) with
      | ok t' =>
        rw [sign_of_dumps hdumps] at hsign
        rw [hR.hmac_injective hsign]
      | error err =>
        have herror : R.sign e = u "signature_error:" ++ err := by
          unfold signed at hdumps
          rw [sign, hdumps]
        rw [herror] at hsign
        exact absurd hsign.symm (error_ne_hex (hR.hmac_hex t))
    · rw [hstored, hsignature, hsign]

/-- The report for these values, where the reading gave them. -/
theorem generate_isOk_iff (hR : Lawful R) (same : PyVal Obj → PyVal Obj → Bool) (now : PyStr)
    {ahead : ℕ} {file : List (Option PyStr)} (hlogs : ∀ v ∈ R.readFromFile ahead file, IsJson v) :
    (∃ report, R.generateAuditReport same now ahead file = .ok report) ↔
      ∀ v ∈ R.readFromFile ahead file, ∃ log, v = .dict log ∧ R.Countable log := by
  rw [← foldlM_isOk_iff hR same hlogs
    { generatedAt := now, totalEvents := (R.readFromFile ahead file).length }]
  unfold generateAuditReport
  constructor
  · rintro ⟨report, h⟩
    obtain ⟨report', hfold, -⟩ := except_bind_eq_ok h
    exact ⟨report', hfold⟩
  · rintro ⟨report', hfold⟩
    simp only [hfold, bind, Except.bind, pure, Except.pure]
    exact ⟨_, rfl⟩

theorem countedAll_of_generate {same : PyVal Obj → PyVal Obj → Bool} {now : PyStr} {ahead : ℕ}
    {file : List (Option PyStr)} {report : Report Obj}
    (h : R.generateAuditReport same now ahead file = .ok report) :
    CountedAll R (R.readFromFile ahead file)
      { generatedAt := now, totalEvents := (R.readFromFile ahead file).length } report := by
  unfold generateAuditReport at h
  obtain ⟨report', hfold, h⟩ := except_bind_eq_ok h
  obtain rfl := Except.ok.inj h
  have hall := countedAll_of_foldlM hfold
  exact ⟨hall.verified, hall.failed, hall.all, hall.byUser, hall.byAction, hall.bySeverity⟩

/-- The values of a file all of whose lines are read, line by line. -/
theorem forall₂_readFromFile {lines : List PyStr} (ahead : ℕ)
    (h : ∀ line ∈ lines, strip line ≠ [] → ∃ v, R.loads (strip line) = .ok v) :
    List.Forall₂ (fun line v => R.loads (strip line) = .ok v)
      (lines.filter fun line => strip line ≠ []) (R.readFromFile ahead (lines.map some)) := by
  rw [readFromFile_of_lines]
  exact forall₂_readLines h

theorem isJson_of_forall₂ {lines : List PyStr} {logs : List (PyVal Obj)}
    (h : List.Forall₂ (fun line v => R.loads (strip line) = .ok v) lines logs) :
    ∀ v ∈ logs, IsJson v := by
  intro v hv
  obtain ⟨line, -, hline⟩ := exists_of_mem_right h hv
  exact (R.isJson_of_loads hline).1

theorem lineFails_some {s : PyStr} {v : PyVal Obj} (h : R.loads (strip s) = .ok v) :
    R.lineFails (some s) = decide (R.verdict v = some false) := by
  rw [lineFails, Option.map_some, h]

/-- As many failures are counted as lines fail. -/
theorem countP_lineFails {lines : List PyStr} {logs : List (PyVal Obj)}
    (h : List.Forall₂ (fun line v => R.loads (strip line) = .ok v) lines logs) :
    (lines.map some).countP R.lineFails = logs.countP fun v => R.verdict v = some false := by
  induction h with
  | nil => rfl
  | cons hline hrest ih =>
    rw [List.map_cons, List.countP_cons, List.countP_cons, ih, lineFails_some hline]

/-- There is a report that accounts for each line of the file and counts each that is not of a
written entry as a failure exactly when the file is auditable. -/
theorem accounted_iff (hR : Lawful R) (written : List (PyKey Obj × PyVal Obj) → Prop)
    (same : PyVal Obj → PyVal Obj → Bool) (now : PyStr) (ahead : ℕ) (file : List (Option PyStr)) :
    (∃ report, R.generateAuditReport same now ahead file = .ok report ∧
      R.Audited written file report) ↔ R.Auditable written file := by
  constructor
  · rintro ⟨report, hreport, haudited⟩
    have hcounted := countedAll_of_generate hreport
    have hlen : (R.readFromFile ahead file).length = (nonBlank file).length := by
      rw [← haudited.lines, hcounted.all]
      simp only
      omega
    have hall : file.all Option.isSome = true := by
      by_contra hno
      have hlt := length_readFromFile_lt (R := R) (Bool.not_eq_true _ ▸ hno) ahead
      omega
    obtain ⟨lines, rfl⟩ := exists_lines_of_all hall
    rw [nonBlank_map_some, List.length_map, readFromFile_of_lines] at hlen
    have hloads := loads_of_length_readLines hlen.ge
    have hvalues := forall₂_readFromFile ahead hloads
    have hjson := isJson_of_forall₂ hvalues
    have hcountable := (generate_isOk_iff hR same now hjson).mp ⟨report, hreport⟩
    intro line hline
    have hmem := hline
    rw [nonBlank_map_some] at hmem
    obtain ⟨s, hs, rfl⟩ := List.mem_map.mp hmem
    obtain ⟨v, hv, hsv⟩ := exists_of_mem_left hvalues hs
    obtain ⟨log, rfl, hlog⟩ := hcountable v hv
    refine ⟨s, log, rfl, hsv, hlog, (isWritten_iff_genuine hR written hsv).mp fun hverify => ?_⟩
    by_contra hno
    have hfails := haudited.failed (some s) hline hno
    rw [lineFails_some hsv, verdict_of_verify hverify] at hfails
    simp at hfails
  · intro hauditable
    have hall : file.all Option.isSome = true := by
      rw [List.all_eq_true]
      intro line hline
      by_contra hnone
      obtain rfl := Option.not_isSome_iff_eq_none.mp hnone
      obtain ⟨s, -, hs, -⟩ := hauditable none (List.mem_filter.mpr ⟨hline, by simp⟩)
      simp at hs
    obtain ⟨lines, rfl⟩ := exists_lines_of_all hall
    have hline {s : PyStr} (hs : s ∈ lines.filter fun line => strip line ≠ []) :
        ∃ log, R.loads (strip s) = .ok (.dict log) ∧ R.Countable log ∧ R.Genuine written log := by
      have hmem : some s ∈ nonBlank (lines.map some) := by
        rw [nonBlank_map_some]
        exact List.mem_map_of_mem hs
      obtain ⟨s', log, hs', hlog⟩ := hauditable (some s) hmem
      obtain rfl := Option.some.inj hs'
      exact ⟨log, hlog⟩
    have hloads : ∀ line ∈ lines, strip line ≠ [] → ∃ v, R.loads (strip line) = .ok v := by
      intro line hmem hne
      obtain ⟨log, hlog, -⟩ := hline (List.mem_filter.mpr ⟨hmem, decide_eq_true hne⟩)
      exact ⟨_, hlog⟩
    have hvalues := forall₂_readFromFile ahead hloads
    have hjson := isJson_of_forall₂ hvalues
    have hcountable : ∀ v ∈ R.readFromFile ahead (lines.map some),
        ∃ log, v = .dict log ∧ R.Countable log := by
      intro v hv
      obtain ⟨s, hs, hsv⟩ := exists_of_mem_right hvalues hv
      obtain ⟨log, hlog, hcount, -⟩ := hline hs
      exact ⟨log, Except.ok.inj (hsv.symm.trans hlog), hcount⟩
    obtain ⟨report, hreport⟩ := (generate_isOk_iff hR same now hjson).mpr hcountable
    have hcounted := countedAll_of_generate hreport
    have hlen := hvalues.length_eq
    have hlines : (nonBlank (lines.map some)).length =
        (R.readFromFile ahead (lines.map some)).length := by
      rw [nonBlank_map_some, List.length_map, hlen]
    have hsum := hcounted.all
    simp only [Nat.zero_add] at hsum
    refine ⟨report, hreport, ?_, ?_, ?_, ?_, ?_, fun line hmem hno => ?_⟩
    · rw [hlines, hsum]
    · rw [hcounted.byUser, hsum]
      exact Nat.zero_add _
    · rw [hcounted.byAction, hsum]
      exact Nat.zero_add _
    · rw [hcounted.bySeverity, hsum]
      exact Nat.zero_add _
    · rw [hcounted.failed, nonBlank_map_some, countP_lineFails hvalues]
      exact Nat.zero_add _
    · rw [nonBlank_map_some] at hmem
      obtain ⟨s, hs, rfl⟩ := List.mem_map.mp hmem
      obtain ⟨log, hlog, hcount, hgenuine⟩ := hline hs
      obtain ⟨b, hb⟩ := (verify_isOk_iff hR (R.isJson_of_loads hlog).1).mpr hcount.signature
      rw [lineFails_some hlog, verdict_of_verify hb]
      cases b with
      | false => rfl
      | true => exact absurd ((isWritten_iff_genuine hR written hlog).mpr hgenuine hb) hno

end Runtime

/-! ## A signature that is no text -/

/-- Two texts are one key when they are equal. -/
def sameText : PyVal PyStr → PyVal PyStr → Bool
  | .str s, .str t => s = t
  | _, _ => false

/-- The line of a dict with one item is read as the dict. -/
theorem loads_field {R : Runtime Obj} (hdepth : 0 < R.loadsDepth) (name : String) {v : PyVal Obj}
    (hwritable : R.Writable v) (hjson : IsJson v) (hjoined : JoinedVal v) (hnested : v.NestedIn 0) :
    R.loads (strip (Interp.print (.dict [field name v]))) = .ok (.dict [field name v]) := by
  have hdict : R.Writable (.dict [field name v]) := by
    refine R.writable_dict.mpr fun i hi => ?_
    rw [List.mem_singleton.mp hi]
    exact ⟨trivial, hwritable⟩
  have hdeep : (PyVal.dict [field name v]).NestedIn R.loadsDepth := by
    obtain ⟨d, hd⟩ := Nat.exists_eq_succ_of_ne_zero hdepth.ne'
    rw [hd, PyVal.nestedIn_dict]
    intro i hi
    rw [List.mem_singleton.mp hi]
    exact hnested.mono (Nat.zero_le d)
  have hjoinedDict : JoinedVal (.dict [field name v]) := by
    refine ⟨_, fun i hi s hs => ?_, fun w hw => ?_⟩
    · rw [List.mem_singleton.mp hi] at hs
      rw [← PyKey.str.inj hs]
      exact joined_u name
    · rw [List.mem_singleton.mp (show w ∈ [v] from hw)]
      exact hjoined
  rw [Runtime.strip_print_dict, R.loads_print hdict hdeep,
    readBack_eq_self (isJson_field name hjson) hjoinedDict]

/-- `{"action": "login"}`. -/
def actionLog : List (PyKey PyStr × PyVal PyStr) := [field "action" (.str (u "login"))]

/-- `{"integrity_signature": null}`. -/
def nullLog : List (PyKey PyStr × PyVal PyStr) := [field "integrity_signature" .none]

/-- The file of one entry. -/
def fileOf (log : List (PyKey PyStr × PyVal PyStr)) : List (Option PyStr) :=
  [some (Interp.print (.dict log))]

/-- A line with an action and no signature is in the report, and failed. -/
theorem accounted_iff_action :
    ∃ report, dateRuntime.generateAuditReport sameText noon.timestamp 0 (fileOf actionLog) =
        .ok report ∧ dateRuntime.Audited (fun _ => False) (fileOf actionLog) report := by
  refine (Runtime.accounted_iff lawful_dateRuntime (fun _ => False) sameText noon.timestamp 0
    (fileOf actionLog)).mpr ?_
  intro line hline
  rw [List.mem_singleton.mp (List.mem_of_mem_filter hline)]
  have hloads : dateRuntime.loads (strip (Interp.print (.dict actionLog))) =
      .ok (.dict actionLog) :=
    loads_field (by decide) "action" (dateRuntime.writable_of_scalar (by simp) (by simp) trivial)
      (Runtime.isJson_of_children rfl trivial) (Runtime.joinedVal_scalar rfl (joined_u _))
      (.scalar 0 _ (by simp) (by simp))
  have hunsigned : getItem (u "integrity_signature") actionLog = none := rfl
  refine ⟨_, _, rfl, hloads, ⟨⟨[], rfl⟩, ⟨[], _, rfl, rfl, rfl⟩, rfl, rfl, fun v hv => ?_,
    fun h => ?_⟩, fun h => ?_⟩
  · rw [hunsigned] at hv
    simp at hv
  · exact absurd (PyVal.str.inj h) (by decide)
  · rw [hunsigned] at h
    simp at h

/-- A line whose signature is `null` ends the report with a `TypeError`. -/
theorem not_exists_audited_null :
    ¬ ∃ report, dateRuntime.generateAuditReport sameText noon.timestamp 0 (fileOf nullLog) =
        .ok report ∧ dateRuntime.Audited (fun _ => False) (fileOf nullLog) report := by
  rintro ⟨report, hreport, -⟩
  have hnull : IsJson (.none : PyVal PyStr) := Runtime.isJson_of_children rfl trivial
  have hloads : dateRuntime.loads (strip (Interp.print (.dict nullLog))) = .ok (.dict nullLog) :=
    loads_field (by decide) "integrity_signature"
      (dateRuntime.writable_of_scalar (by simp) (by simp) trivial) hnull
      (Runtime.joinedVal_scalar rfl trivial) (.scalar 0 _ (by simp) (by simp))
  have hread : dateRuntime.readFromFile 0 (fileOf nullLog) = [.dict nullLog] := by
    rw [fileOf, ← List.map_singleton, Runtime.readFromFile_of_lines, Runtime.readLines, if_neg,
      hloads]
    · rfl
    · rw [Runtime.strip_print_dict]
      exact print_dict_ne_nil _
  have hlogs : ∀ v ∈ dateRuntime.readFromFile 0 (fileOf nullLog), IsJson v := by
    rw [hread]
    intro v hv
    rw [List.mem_singleton.mp hv]
    exact isJson_field "integrity_signature" hnull
  have hcountable := (Runtime.generate_isOk_iff lawful_dateRuntime sameText noon.timestamp hlogs).mp
    ⟨report, hreport⟩
  rw [hread] at hcountable
  obtain ⟨log, hlog, hcount⟩ := hcountable _ (List.mem_singleton_self _)
  obtain rfl := PyVal.dict.inj hlog
  obtain ⟨s, hs, -⟩ := hcount.signature .none rfl
  simp at hs

end ControlPlane.Secure
