import ControlPlane.Secure.AuditTrail

/-!
# The log in memory and the log in the file

`TamperLogger` keeps its entries twice: the last `max_logs` in a deque, and all of them in the file,
of which a new logger fills its deque. `get_logs` reads either of them.

With a limit, `get_logs` gives the first entries of the deque, but the last ones of the file. So the
two agree along every history of calls, however often the logger is constructed again, just when
each entry is read from the file as it was written, and the limit cuts nothing off, or everything,
or entries that repeat (`stores_agree_iff`).
-/

namespace ControlPlane.Secure

open JsonText

variable {Obj : Type}

/-! ## Slices -/

/-- `l[:n]`. -/
def sliceTo {α : Type} (n : ℤ) (l : List α) : List α :=
  l.take (if 0 ≤ n then n.toNat else l.length - (-n).toNat)

/-- `l[n:]`. -/
def sliceFrom {α : Type} (n : ℤ) (l : List α) : List α :=
  l.drop (if 0 ≤ n then n.toNat else l.length - (-n).toNat)

/-- The last `n` items. -/
def lastOf {α : Type} (n : ℕ) (l : List α) : List α := l.drop (l.length - n)

/-- `append` of a deque with a `maxlen`. -/
def push {α : Type} (maxlen : ℕ) (l : List α) (x : α) : List α :=
  (l ++ [x]).drop (l.length + 1 - maxlen)

/-- The last items with one more are the last items of them all. -/
theorem push_lastOf {α : Type} (n : ℕ) (l : List α) (x : α) :
    push n (lastOf n l) x = lastOf n (l ++ [x]) := by
  have hlast : lastOf n l ++ [x] = (l ++ [x]).drop (l.length - n) := by
    rw [lastOf, List.drop_append_of_le_length (Nat.sub_le _ _)]
  have hlength : (lastOf n l).length = l.length - (l.length - n) := List.length_drop
  rw [push, hlast, List.drop_drop, hlength, lastOf, List.length_append, List.length_singleton]
  congr 1
  omega

/-- A deque holds the last items that were appended. -/
theorem foldl_push {α : Type} (n : ℕ) (l : List α) : l.foldl (push n) [] = lastOf n l := by
  induction l using List.reverseRecOn with
  | nil => simp [lastOf]
  | append_singleton l x ih => rw [List.foldl_append, ih, List.foldl_cons, List.foldl_nil, push_lastOf]

theorem lastOf_lastOf {α : Type} (n : ℕ) (l : List α) : lastOf n (lastOf n l) = lastOf n l := by
  unfold lastOf
  rw [List.drop_drop, List.length_drop]
  congr 1
  omega

theorem lastOf_of_length_le {α : Type} {n : ℕ} {l : List α} (h : l.length ≤ n) : lastOf n l = l := by
  rw [lastOf, Nat.sub_eq_zero_of_le h, List.drop_zero]

/-! ## The two stores -/

namespace Runtime

variable (R : Runtime Obj)

/-- `_load_logs_from_file`. -/
def loadLogsFromFile (maxLogs : ℕ) (lines : List PyStr) : List (PyVal Obj) :=
  let recentLines := if maxLogs < lines.length then sliceFrom (-maxLogs) lines else lines
  (R.readLines recentLines).foldl (push maxLogs) []

/-- `TamperLogger(max_logs)`, where the file is missing or has these contents. -/
def construct (maxLogs : ℕ) : Option PyStr → TamperLogger Obj
  | none => ⟨[], maxLogs, []⟩
  | some file => ⟨R.loadLogsFromFile maxLogs (fileLines file), maxLogs, file⟩

/-- The entries of the file, all of whose lines decode: they are ASCII. -/
def fileEntries (s : TamperLogger Obj) : List (PyVal Obj) :=
  R.readFromFile 0 ((fileLines s.file).map some)

/-- `[log for log in logs if log[name] == s]`. -/
def having (name : String) (s : PyStr) : List (PyVal Obj) → Except PyStr (List (PyVal Obj))
  | [] => .ok []
  | log :: rest => do
    let value ← R.item (u name) log
    let keep ← R.equals s value
    let logs ← having name s rest
    return if keep then log :: logs else logs

/-- A filter of `get_logs`, which is off for `None` and for the empty text. -/
def filtered (name : String) (want : Option PyStr) (logs : List (PyVal Obj)) :
    Except PyStr (List (PyVal Obj)) :=
  match want with
  | none => .ok logs
  | some s => if s = [] then .ok logs else R.having name s logs

/-- The entries that pass both filters. -/
def matching (eventType severity : Option PyStr) (logs : List (PyVal Obj)) :
    Except PyStr (List (PyVal Obj)) := do
  let logs ← R.filtered "event_type" eventType logs
  R.filtered "severity" severity logs

/-- The limit of `get_logs`, which is off for `None` and for zero. -/
def limited (limit : Option ℤ) (fromFile : Bool) (logs : List (PyVal Obj)) : List (PyVal Obj) :=
  match limit with
  | none => logs
  | some n => if n = 0 then logs else if fromFile then sliceFrom (-n) logs else sliceTo n logs

/-- `get_logs`. -/
def getLogs (limit : Option ℤ) (eventType severity : Option PyStr) (fromFile : Bool)
    (s : TamperLogger Obj) : Except PyStr (List (PyVal Obj)) := do
  let logs := if fromFile then R.fileEntries s else s.logs
  let logs ← R.matching eventType severity logs
  return limited limit fromFile logs

/-- A logger that constructions and calls lead to, with the entries of the calls, all of which were
written. A call that raises before it has an entry leaves everything as it was. -/
inductive Reached : TamperLogger Obj → List (List (PyKey Obj × PyVal Obj)) → Prop
  | create (maxLogs : ℕ) : Reached (R.construct maxLogs none) []
  | restart {s : TamperLogger Obj} {entries : List (List (PyKey Obj × PyVal Obj))} (maxLogs : ℕ) :
      Reached s entries → Reached (R.construct maxLogs (some s.file)) entries
  | log {s : TamperLogger Obj} {entries : List (List (PyKey Obj × PyVal Obj))} {stamp : Stamp}
      {args : LogArgs Obj} {e : List (PyKey Obj × PyVal Obj)} {line : PyStr} :
      Reached s entries → R.entry stamp args = .ok e → R.lineOf e = some line →
      Reached (R.log stamp args s).1 (entries ++ [e])
  | raise {s : TamperLogger Obj} {entries : List (List (PyKey Obj × PyVal Obj))} {stamp : Stamp}
      {args : LogArgs Obj} {err : PyStr} :
      Reached s entries → R.entry stamp args = .error err → Reached (R.log stamp args s).1 entries

/-- The deque has the last entries of the file; and where these are all there, `get_logs` gives the
same from both. -/
def Agree (limit : Option ℤ) (eventType severity : Option PyStr) (s : TamperLogger Obj) : Prop :=
  s.logs = lastOf s.maxLogs (R.fileEntries s) ∧
    ((R.fileEntries s).length ≤ s.maxLogs →
      R.getLogs limit eventType severity false s = R.getLogs limit eventType severity true s)

/-- An entry that is read from its line as it was written. -/
def GivenBack (e : List (PyKey Obj × PyVal Obj)) : Prop :=
  IsJson (.dict e) ∧ R.PlainAt 0 (.dict e)

end Runtime

/-- How many of the entries a limit cuts off. -/
def cut (limit : Option ℤ) (length : ℕ) : ℕ :=
  match limit with
  | none => 0
  | some n => if n = 0 then 0 else if 0 < n then length - n.toNat else (-n).toNat

/-- Each item comes again so many places on, as far as there are items. -/
def Repeats {α : Type} (k : ℕ) (l : List α) : Prop := ∀ i, i + k < l.length → l[i]? = l[i + k]?

/-! ## What a limit leaves -/

/-- The first and the last items are the same when each item comes again. -/
theorem take_eq_drop_iff {α : Type} (k : ℕ) (l : List α) :
    l.take (l.length - k) = l.drop k ↔ Repeats k l := by
  constructor
  · intro h i hi
    have hget := congrArg (·[i]?) h
    simp only [List.getElem?_drop] at hget
    rw [List.getElem?_take_of_lt (by omega)] at hget
    rw [hget, Nat.add_comm]
  · intro h
    refine List.ext_getElem? fun i => ?_
    rw [List.getElem?_drop]
    rcases lt_or_ge (i + k) l.length with hi | hi
    · rw [List.getElem?_take_of_lt (by omega), h i hi, Nat.add_comm]
    · rw [List.getElem?_take_eq_none (by omega), List.getElem?_eq_none (by omega)]

/-- A limit leaves the same of the deque and of the file just when the entries that it cuts off
repeat. -/
theorem limited_eq_iff (limit : Option ℤ) (logs : List (PyVal Obj)) :
    Runtime.limited limit false logs = Runtime.limited limit true logs ↔
      Repeats (cut limit logs.length) logs := by
  have hzero : Repeats 0 logs := fun i _ => rfl
  cases limit with
  | none => exact iff_of_true rfl hzero
  | some n =>
    by_cases hn : n = 0
    · subst hn
      exact iff_of_true rfl hzero
    · rw [← take_eq_drop_iff]
      unfold Runtime.limited cut sliceTo sliceFrom
      simp only [hn, if_false, Bool.false_eq_true, if_true, neg_neg]
      rcases lt_or_gt_of_ne hn with hneg | hpos
      · rw [if_neg (by omega), if_pos (by omega), if_neg (by omega)]
      · rw [if_pos (by omega), if_neg (by omega), if_pos hpos]
        have htake : logs.take n.toNat = logs.take (logs.length - (logs.length - n.toNat)) := by
          rcases le_total n.toNat logs.length with h | h
          · rw [Nat.sub_sub_self h]
          · rw [Nat.sub_eq_zero_of_le h, Nat.sub_zero, List.take_length, List.take_of_length_le h]
        rw [htake]

/-! ## The file -/

namespace Runtime

variable {R : Runtime Obj} {s : TamperLogger Obj} {entries : List (List (PyKey Obj × PyVal Obj))}

theorem fileEntries_eq (s : TamperLogger Obj) : R.fileEntries s = R.readLines (fileLines s.file) :=
  readFromFile_of_lines 0 _

/-- The file has the lines of the entries. -/
theorem fileLines_of_reached (h : R.Reached s entries) :
    WholeLines s.file ∧ fileLines s.file = entries.filterMap R.lineOf := by
  induction h with
  | create maxLogs => exact ⟨by simp [WholeLines, construct], rfl⟩
  | restart maxLogs _ ih => exact ih
  | @log s entries stamp args e line hs hentry hline ih =>
    have hstate : (R.log stamp args s).1 = R.append e s := by
      unfold log
      rw [hentry]
    obtain ⟨hwhole, hlines⟩ := lines_of_append (R := R) (e := e) ih.1
    rw [hstate]
    refine ⟨hwhole, ?_⟩
    rw [hlines, ih.2, List.filterMap_append, hline]
    simp [hline]
  | @raise s entries stamp args err hs hentry ih =>
    have hstate : (R.log stamp args s).1 = s := by
      unfold log
      rw [hentry]
    rw [hstate]
    exact ih

/-- Entries that are given back are what the file has. -/
theorem fileEntries_of_reached (h : R.Reached s entries)
    (hentries : ∀ e ∈ entries, R.GivenBack e) : R.fileEntries s = entries.map .dict := by
  rw [fileEntries_eq, (fileLines_of_reached h).2]
  exact (readLines_eq_iff fun e he => (hentries e he).1).mpr fun e he => (hentries e he).2

/-! ## The deque -/

/-- A new logger has the last entries of the file. -/
theorem loadLogsFromFile_eq (maxLogs : ℕ) (hentries : ∀ e ∈ entries, R.GivenBack e) :
    R.loadLogsFromFile maxLogs (entries.filterMap R.lineOf) =
      lastOf maxLogs (entries.map .dict) := by
  have hread : ∀ es : List (List (PyKey Obj × PyVal Obj)), (∀ e ∈ es, R.GivenBack e) →
      R.readLines (es.filterMap R.lineOf) = es.map .dict := fun es hes =>
    (readLines_eq_iff fun e he => (hes e he).1).mpr fun e he => (hes e he).2
  have hline : ∀ e ∈ entries, R.lineOf e = some (Interp.print (.dict e)) := by
    intro e he
    obtain ⟨-, hwritable, -, ⟨-, hnested⟩, -⟩ := hentries e he
    exact lineOf_eq_some.mpr ⟨⟨hwritable, hnested⟩, rfl⟩
  have hlines : entries.filterMap R.lineOf = entries.map fun e => Interp.print (.dict e) := by
    rw [← List.filterMap_eq_map]
    exact List.filterMap_congr hline
  have hdrop (k : ℕ) : (entries.filterMap R.lineOf).drop k =
      (entries.drop k).filterMap R.lineOf := by
    rw [hlines, ← List.map_drop, ← List.filterMap_eq_map]
    exact (List.filterMap_congr fun e he => hline e (List.mem_of_mem_drop he)).symm
  have hlength : (entries.filterMap R.lineOf).length = entries.length := by
    rw [hlines, List.length_map]
  have hall : (R.readLines (entries.filterMap R.lineOf)).foldl (push maxLogs) [] =
      lastOf maxLogs (entries.map .dict) := by
    rw [hread entries hentries, foldl_push]
  unfold loadLogsFromFile
  simp only
  split_ifs with hlong
  · rcases Nat.eq_zero_or_pos maxLogs with rfl | hpos
    · exact hall
    · have hrecent : sliceFrom (-(maxLogs : ℤ)) (entries.filterMap R.lineOf) =
          (entries.drop (entries.length - maxLogs)).filterMap R.lineOf := by
        rw [sliceFrom, if_neg (by omega), neg_neg, Int.toNat_natCast, hlength, hdrop]
      rw [hrecent, hread _ fun e he => hentries e (List.mem_of_mem_drop he), foldl_push,
        List.map_drop]
      have hlast : (entries.map PyVal.dict).drop (entries.length - maxLogs) =
          lastOf maxLogs (entries.map PyVal.dict) := by
        rw [lastOf, List.length_map]
      rw [hlast, lastOf_lastOf]
  · exact hall

/-- The deque has the last of the entries, when they are given back. -/
theorem logs_of_reached (h : R.Reached s entries) (hentries : ∀ e ∈ entries, R.GivenBack e) :
    s.logs = lastOf s.maxLogs (entries.map .dict) := by
  induction h with
  | create maxLogs => simp [construct, lastOf]
  | @restart s entries maxLogs hs ih =>
    show R.loadLogsFromFile maxLogs (fileLines s.file) = _
    rw [(fileLines_of_reached hs).2]
    exact loadLogsFromFile_eq maxLogs hentries
  | @log s entries stamp args e line hs hentry hline ih =>
    have hstate : (R.log stamp args s).1 = R.append e s := by
      unfold log
      rw [hentry]
    have hlogs := ih fun e' he' => hentries e' (List.mem_append_left _ he')
    rw [hstate, List.map_append, List.map_singleton]
    show push s.maxLogs s.logs (.dict e) = lastOf s.maxLogs _
    rw [hlogs, push_lastOf]
  | @raise s entries stamp args err hs hentry ih =>
    have hstate : (R.log stamp args s).1 = s := by
      unfold log
      rw [hentry]
    rw [hstate]
    exact ih hentries

/-- Where the entries are given back, the two stores agree just when the limit cuts off nothing but
entries that repeat. -/
theorem agree_of_givenBack (h : R.Reached s entries) (hentries : ∀ e ∈ entries, R.GivenBack e)
    (limit : Option ℤ) (eventType severity : Option PyStr) :
    R.Agree limit eventType severity s ↔ (entries.length ≤ s.maxLogs →
      ∀ logs, R.matching eventType severity (entries.map .dict) = .ok logs →
        Repeats (cut limit logs.length) logs) := by
  have hfile := fileEntries_of_reached h hentries
  have hlogs := logs_of_reached h hentries
  unfold Agree
  rw [hfile, hlogs, List.length_map, eq_self_iff_true, true_and]
  refine forall_congr' fun hlength => ?_
  have hall : s.logs = entries.map .dict := by
    rw [hlogs, lastOf_of_length_le (by rw [List.length_map]; exact hlength)]
  unfold getLogs
  simp only [hfile, hall, Bool.false_eq_true, if_false, if_true]
  cases R.matching eventType severity (entries.map .dict) with
  | error err => exact iff_of_true rfl fun logs hno => nomatch hno
  | ok logs =>
    simp only [bind, Except.bind, pure, Except.pure, Except.ok.injEq, forall_eq', limited_eq_iff]

/-! ## Histories -/

/-- The history of a logger begins with the histories of others. -/
theorem reached_of_prefix (h : R.Reached s entries) {first : List (List (PyKey Obj × PyVal Obj))}
    (hfirst : first <+: entries) : ∃ s', R.Reached s' first := by
  induction h with
  | create maxLogs =>
    obtain rfl := List.prefix_nil.mp hfirst
    exact ⟨_, .create maxLogs⟩
  | restart maxLogs _ ih => exact ih hfirst
  | raise _ _ ih => exact ih hfirst
  | log hs hentry hline ih =>
    rcases List.prefix_concat_iff.mp hfirst with rfl | hfirst
    · exact ⟨_, .log hs hentry hline⟩
    · exact ih hfirst

/-- The last call of a history. -/
theorem exists_last_call {e : List (PyKey Obj × PyVal Obj)} (h : R.Reached s (entries ++ [e])) :
    ∃ s' stamp args line, R.Reached s' entries ∧ R.entry stamp args = .ok e ∧
      R.lineOf e = some line := by
  generalize hall : entries ++ [e] = all at h
  induction h with
  | create maxLogs => simp at hall
  | restart maxLogs _ ih => exact ih hall
  | raise _ _ ih => exact ih hall
  | log hs hentry hline ih =>
    obtain ⟨rfl, hlast⟩ := List.append_inj' hall rfl
    obtain rfl := List.singleton_inj.mp hlast
    exact ⟨_, _, _, _, hs, hentry, hline⟩

/-- Behind entries that are given back, the rest of the lines is read. -/
theorem readLines_append (hentries : ∀ e ∈ entries, R.GivenBack e) (rest : List PyStr) :
    R.readLines (entries.filterMap R.lineOf ++ rest) = entries.map .dict ++ R.readLines rest := by
  induction entries with
  | nil => rfl
  | cons e entries ih =>
    obtain ⟨hjson, hwritable, hjoined, ⟨-, hnested⟩, ⟨-, hdepth⟩⟩ := hentries e List.mem_cons_self
    have hline := lineOf_eq_some.mpr ⟨⟨hwritable, hnested⟩, rfl⟩
    have hloads := R.loads_print hwritable hdepth
    rw [readBack_eq_self hjson hjoined] at hloads
    rw [List.filterMap_cons, hline, List.cons_append, readLines, strip_print_dict,
      if_neg (print_dict_ne_nil e), hloads, List.map_cons, List.cons_append,
      ← ih fun e' he' => hentries e' (List.mem_cons_of_mem e he')]

/-- An entry that the file ends with as it was written is given back, when those in front of it
are. -/
theorem givenBack_of_last {e : List (PyKey Obj × PyVal Obj)} {line : PyStr}
    (hentries : ∀ e ∈ entries, R.GivenBack e) (hline : R.lineOf e = some line)
    (hlast : (R.readLines ((entries ++ [e]).filterMap R.lineOf)).getLast? = some (.dict e)) :
    R.GivenBack e := by
  obtain ⟨⟨hwritable, hnested⟩, rfl⟩ := lineOf_eq_some.mp hline
  have hsingle : [e].filterMap R.lineOf = [Interp.print (.dict e)] := by simp [hline]
  rw [List.filterMap_append, readLines_append hentries, hsingle, readLines, strip_print_dict,
    if_neg (print_dict_ne_nil e)] at hlast
  -- The file ends with what was read last, which may be the entry before when this one is not read.
  have hbefore (h : (entries.map PyVal.dict).getLast? = some (.dict e)) : R.GivenBack e := by
    obtain ⟨e', he', heq⟩ := List.mem_map.mp (List.mem_of_getLast? h)
    exact PyVal.dict.inj heq ▸ hentries e' he'
  split at hlast
  · next v hv =>
    rw [readLines, List.getLast?_append] at hlast
    obtain rfl : v = .dict e := by simpa using hlast
    obtain ⟨hjson, hdepth⟩ := R.isJson_of_loads hv
    rw [R.loads_print hwritable hdepth, Except.ok.injEq, readBack_eq_self_iff hjson] at hv
    exact ⟨hjson, hwritable, hv, ⟨Nat.zero_le _, hnested⟩, ⟨Nat.zero_le _, hdepth⟩⟩
  · rw [readLines, List.append_nil] at hlast
    exact hbefore hlast
  · rw [List.append_nil] at hlast
    exact hbefore hlast

/-- Where the deque has the last entries of the file after every call, each entry is given back. -/
theorem givenBack_of_agree (h : R.Reached s entries)
    (hagree : ∀ s' first, first <+: entries → R.Reached s' first →
      s'.logs = lastOf s'.maxLogs (R.fileEntries s')) : ∀ e ∈ entries, R.GivenBack e := by
  induction entries using List.reverseRecOn generalizing s with
  | nil => exact fun e he => absurd he List.not_mem_nil
  | append_singleton entries e ih =>
    obtain ⟨s', stamp, args, line, hs', hentry, hline⟩ := exists_last_call h
    have hentries : ∀ e' ∈ entries, R.GivenBack e' := ih hs' fun s'' first hfirst =>
      hagree s'' first (hfirst.trans (List.prefix_append _ _))
    -- The call on a logger that keeps one entry.
    have hone := (Reached.restart 1 hs').log hentry hline
    have hstate : (R.log stamp args (R.construct 1 (some s'.file))).1 =
        R.append e (R.construct 1 (some s'.file)) := by
      unfold log
      rw [hentry]
    rw [hstate] at hone
    have hlogs := hagree _ _ (List.prefix_refl _) hone
    have hlast : (R.append e (R.construct 1 (some s'.file))).logs.getLast? = some (.dict e) := by
      show (push 1 (R.construct 1 (some s'.file)).logs (.dict e)).getLast? = _
      rw [push, Nat.add_sub_cancel, List.drop_append_of_le_length le_rfl, List.getLast?_append]
      rfl
    have hfile := (fileLines_of_reached hone).2
    rw [hlogs, fileEntries_eq, hfile] at hlast
    have hgiven : R.GivenBack e := by
      refine givenBack_of_last hentries hline ?_
      rw [lastOf, List.getLast?_drop] at hlast
      split_ifs at hlast with hempty
      exact hlast
    intro e' he'
    rcases List.mem_append.mp he' with he' | he'
    · exact hentries e' he'
    · exact List.mem_singleton.mp he' ▸ hgiven

/-- Along every history of calls, the two stores agree on a request just when each entry is given
back, and the limit cuts off nothing but entries that repeat. -/
theorem stores_agree_iff (h : R.Reached s entries) (limit : Option ℤ)
    (eventType severity : Option PyStr) :
    (∀ s' first, first <+: entries → R.Reached s' first → R.Agree limit eventType severity s') ↔
      (∀ e ∈ entries, R.GivenBack e) ∧ ∀ first, first <+: entries →
        ∀ logs, R.matching eventType severity (first.map .dict) = .ok logs →
          Repeats (cut limit logs.length) logs := by
  constructor
  · intro hagree
    have hentries := givenBack_of_agree h fun s' first hfirst hs' => (hagree s' first hfirst hs').1
    refine ⟨hentries, fun first hfirst => ?_⟩
    have hgiven : ∀ e ∈ first, R.GivenBack e := fun e he => hentries e (hfirst.subset he)
    obtain ⟨s', hs'⟩ := reached_of_prefix h hfirst
    have hlong := Reached.restart first.length hs'
    exact (agree_of_givenBack hlong hgiven limit eventType severity).mp
      (hagree _ first hfirst hlong) le_rfl
  · rintro ⟨hentries, hlimit⟩ s' first hfirst hs'
    have hgiven : ∀ e ∈ first, R.GivenBack e := fun e he => hentries e (hfirst.subset he)
    exact (agree_of_givenBack hs' hgiven limit eventType severity).mpr fun _ =>
      hlimit first hfirst

end Runtime

/-! ## Two calls, and a limit of one -/

/-- A call whose entry is written, by its line. -/
theorem exists_written {R : Runtime Obj} {stamp : Stamp} {args : LogArgs Obj}
    (h : ((R.entry stamp args).toOption.bind R.lineOf).isSome = true) :
    ∃ e line, R.entry stamp args = .ok e ∧ R.lineOf e = some line := by
  cases hentry : R.entry stamp args with
  | error err => simp [hentry, Except.toOption] at h
  | ok e =>
    obtain ⟨line, hline⟩ := Option.isSome_iff_exists.mp h
    rw [hentry] at hline
    exact ⟨e, line, rfl, hline⟩

/-- The action of an entry is that of its call. -/
theorem action_of_entry {R : Runtime Obj} {stamp : Stamp} {args : LogArgs Obj}
    {e : List (PyKey Obj × PyVal Obj)} (h : R.entry stamp args = .ok e) :
    e[2]? = some (field "action" args.action) := by
  obtain ⟨fs, hfs, rfl⟩ := Runtime.entry_eq_ok h
  obtain ⟨_, _, _, _, _, _, -, -, -, -, -, -, rfl⟩ := Runtime.fields_eq_ok hfs
  rfl

/-- With a single entry the two stores agree on a limit of five. -/
theorem agree_iff_address :
    ∃ s e, dateRuntime.Reached s [e] ∧ ∀ s' first, first <+: [e] →
      dateRuntime.Reached s' first → dateRuntime.Agree (some 5) none none s' := by
  have hwritten : ((dateRuntime.entry noon addressArgs).toOption.bind
      dateRuntime.lineOf).isSome = true := by
    decide +kernel
  obtain ⟨e, line, hentry, hline⟩ := exists_written hwritten
  have hreached := (Runtime.Reached.create 1000).log hentry hline
  refine ⟨_, e, hreached, (Runtime.stores_agree_iff hreached (some 5) none none).mpr ⟨?_, ?_⟩⟩
  · intro e' he'
    rw [List.mem_singleton.mp he']
    exact ⟨Runtime.isJson_entry native_addressArgs hentry,
      (Runtime.plainAt_entry_iff lawful_dateRuntime native_addressArgs hentry).mpr
        plain_addressArgs⟩
  · intro first hfirst logs hlogs i hi
    obtain rfl : first.map PyVal.dict = logs := Except.ok.inj hlogs
    have hlength : (first.map (@PyVal.dict PyStr)).length ≤ 1 := by
      rw [List.length_map]
      exact hfirst.length_le
    have hcut : cut (some 5) (first.map (@PyVal.dict PyStr)).length = 0 := by
      show (first.map (@PyVal.dict PyStr)).length - 5 = 0
      omega
    rw [hcut, Nat.add_zero]

/-- A call about the end of a session. -/
def disconnectArgs : LogArgs PyStr := { addressArgs with action := .str (u "disconnect") }

/-- After two calls, a limit of one gives the first entry of the deque, or the last one of the
file. -/
theorem exists_stores_disagree :
    ¬ ∀ (R : Runtime PyStr) (s : TamperLogger PyStr)
      (entries : List (List (PyKey PyStr × PyVal PyStr))) (limit : Option ℤ)
      (eventType severity : Option PyStr), R.Reached s entries →
      R.Agree limit eventType severity s := by
  intro hall
  have hwritten : ((dateRuntime.entry noon addressArgs).toOption.bind
      dateRuntime.lineOf).isSome = true := by
    decide +kernel
  have hwritten' : ((dateRuntime.entry noon disconnectArgs).toOption.bind
      dateRuntime.lineOf).isSome = true := by
    decide +kernel
  obtain ⟨e, line, hentry, hline⟩ := exists_written hwritten
  obtain ⟨e', line', hentry', hline'⟩ := exists_written hwritten'
  have hreached := ((Runtime.Reached.create 1000).log hentry hline).log hentry' hline'
  have hgiven := Runtime.givenBack_of_agree hreached fun s first _ hs =>
    (hall dateRuntime s first (some 1) none none hs).1
  have hrepeats := (Runtime.agree_of_givenBack (.restart 1000 hreached) hgiven (some 1) none none).mp
    (hall dateRuntime _ _ (some 1) none none (.restart 1000 hreached)) (show 2 ≤ 1000 by decide) _
    rfl
  -- A limit of one cuts off one entry of the two, which are different ones.
  have hsame : e = e' := by
    have hget := hrepeats 0 (show 0 + 1 < 2 by decide)
    exact PyVal.dict.inj (Option.some.inj hget)
  have haction := action_of_entry hentry
  rw [hsame, action_of_entry hentry', Option.some.injEq] at haction
  have htext := u_injective (PyVal.str.inj (Prod.mk.inj haction).2)
  exact absurd htext (by decide)

end ControlPlane.Secure
