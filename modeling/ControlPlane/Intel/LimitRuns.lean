import ControlPlane.Intel.Limits
import Mathlib.Data.List.Induction
import Mathlib.Tactic.Linarith

/-!
# The limiter and the breaker over whole runs

What the counts of the rate limiter and the deadline of the circuit breaker say about the calls that
led to them. The limiter evicts old calls when it is called, for the address at hand only, so its
windows are not those of the history; `RateLimiter.Tracks` says that they become so as soon as they
are evicted at the time of the next call. Two limiters that track one history answer alike, which is
why a rejected call changes nothing (`RateLimiter.answers_of_tracks`).
-/

namespace ControlPlane.Intel

open Text

namespace RateLimiter

/-- A limiter with the given limits, before any call. -/
def new (maxPerMinute maxTotal maxPerIp perIpWindow : ℤ) : RateLimiter where
  maxPerMinute := maxPerMinute
  maxTotal := maxTotal
  maxPerIp := maxPerIp
  perIpWindow := perIpWindow
  minuteWindow := []
  totalCount := 0
  perIp _ := []

/-- A call of a method, with the clock it reads. -/
inductive Call where
  /-- `check_and_consume`. -/
  | check (now : ℚ) (srcIp : String)
  /-- `reset`. -/
  | reset

/-- The reading of the clock in a call. -/
def Call.time : Call → Option ℚ
  | check now _ => some now
  | reset => none

/-- The state after a call. -/
def step (r : RateLimiter) : Call → RateLimiter
  | .check now srcIp => (r.checkAndConsume now srcIp).2
  | .reset => r.reset

/-- What a call returns. -/
def answer (r : RateLimiter) : Call → Option String
  | .check now srcIp => (r.checkAndConsume now srcIp).1
  | .reset => none

/-- What the calls of a sequence return. -/
def answers : RateLimiter → List Call → List (Option String)
  | _, [] => []
  | r, c :: rest => r.answer c :: answers (r.step c) rest

/-- The accepted calls since the last reset, after one more call. -/
def record (r : RateLimiter) (log : List (ℚ × String)) : Call → List (ℚ × String)
  | .check now srcIp =>
    if (r.checkAndConsume now srcIp).1 = none then log ++ [(now, srcIp)] else log
  | .reset => []

/-- A sequence of calls: the limiter after it, and the time and address of each call that was
accepted since the last reset. -/
def run (r : RateLimiter) (calls : List Call) : RateLimiter × List (ℚ × String) :=
  calls.foldl (fun x c => (x.1.step c, x.1.record x.2 c)) (r, [])

/-- The clock does not go back along the calls, up to the time `t`. -/
def Clocked (calls : List Call) (t : ℚ) : Prop :=
  (calls.filterMap Call.time ++ [t]).Pairwise (· ≤ ·)

/-- The times of the calls for a bare address. -/
def timesOf (bareIp : String) (log : List (ℚ × String)) : List ℚ :=
  (log.filter fun x => firstPart '/' x.2 = bareIp).map Prod.fst

/-! ## Eviction -/

/-- Eviction at a later time makes an earlier one superfluous. -/
theorem evict_evict {c c' : ℚ} (hc : c ≤ c') (window : List ℚ) :
    evict c' (evict c window) = evict c' window := by
  induction window with
  | nil => rfl
  | cons x rest ih =>
    unfold evict at ih ⊢
    rw [List.dropWhile_cons (p := fun t => decide (t < c))]
    split_ifs with hx
    · have hx' : x < c' := lt_of_lt_of_le (by simpa using hx) hc
      rw [ih, List.dropWhile_cons_of_pos (by simpa using hx')]
    · rfl

/-- A call that is no older than those of a window stays at its end, unless all of them go. -/
theorem evict_append_singleton {c x : ℚ} {window : List ℚ} (hx : ∀ y ∈ window, y ≤ x) :
    evict c (window ++ [x]) = evict c window ++ (if c ≤ x then [x] else []) := by
  unfold evict
  split_ifs with hc
  · have hkeep : [x].dropWhile (fun t => decide (t < c)) = [x] :=
      List.dropWhile_cons_of_neg (by simpa using hc)
    rw [List.dropWhile_append, hkeep]
    split_ifs with hnil
    · rw [List.isEmpty_iff.mp hnil, List.nil_append]
    · rfl
  · have hall : ∀ y ∈ window ++ [x], decide (y < c) = true := by
      intro y hy
      have hyx : y ≤ x := by
        rcases List.mem_append.mp hy with hy | hy
        · exact hx y hy
        · exact (List.mem_singleton.mp hy).le
      simpa using lt_of_le_of_lt hyx (not_le.mp hc)
    rw [List.dropWhile_eq_nil_iff.mpr hall,
      List.dropWhile_eq_nil_iff.mpr fun y hy => hall y (by simp [hy])]
    rfl

/-! ## The history that a limiter tracks -/

/-- A limiter stands for the accepted calls `log` of a limiter that started as `r₀`, from the time
`t` on: its windows, evicted at any later time, are those of the calls. -/
structure Tracks (r₀ r : RateLimiter) (log : List (ℚ × String)) (t : ℚ) : Prop where
  /-- The limits stay. -/
  limits : r.maxPerMinute = r₀.maxPerMinute ∧ r.maxTotal = r₀.maxTotal ∧
    r.maxPerIp = r₀.maxPerIp ∧ r.perIpWindow = r₀.perIpWindow
  /-- The total is the number of the calls. -/
  total : r.totalCount = log.length
  /-- The calls are in the past. -/
  past : ∀ x ∈ log, x.1 ≤ t
  /-- The window of the last minute. -/
  minute : ∀ now, t ≤ now →
    evict (now - 60) r.minuteWindow = (log.map Prod.fst).filter (now - 60 ≤ ·)
  /-- The window of each address. -/
  ip : ∀ now, t ≤ now → ∀ bareIp,
    evict (now - r₀.perIpWindow) (r.perIp bareIp) =
      (timesOf bareIp log).filter (now - r₀.perIpWindow ≤ ·)

section

variable {r₀ r : RateLimiter} {log : List (ℚ × String)} {t now : ℚ}

/-- A new limiter tracks no calls. -/
theorem tracks_new (maxPerMinute maxTotal maxPerIp perIpWindow : ℤ) (t : ℚ) :
    Tracks (new maxPerMinute maxTotal maxPerIp perIpWindow)
      (new maxPerMinute maxTotal maxPerIp perIpWindow) [] t where
  limits := ⟨rfl, rfl, rfl, rfl⟩
  total := rfl
  past := by simp
  minute _ _ := rfl
  ip _ _ _ := rfl

/-- What a limiter tracks it tracks later too. -/
theorem Tracks.mono (h : Tracks r₀ r log t) (ht : t ≤ now) : Tracks r₀ r log now where
  limits := h.limits
  total := h.total
  past x hx := (h.past x hx).trans ht
  minute now' hnow := h.minute now' (ht.trans hnow)
  ip now' hnow := h.ip now' (ht.trans hnow)

/-- Eviction leaves what a limiter tracks as it is. -/
theorem Tracks.evicted (h : Tracks r₀ r log t) (ht : t ≤ now) (bareIp : String) :
    Tracks r₀ (r.evicted now bareIp) log now := by
  refine ⟨h.limits, h.total, (h.mono ht).past, fun now' hnow => ?_, fun now' hnow ip => ?_⟩
  · have hcut : now - 60 ≤ now' - 60 := by linarith
    rw [← h.minute now' (ht.trans hnow)]
    exact evict_evict hcut _
  · have hcut : now - r₀.perIpWindow ≤ now' - r₀.perIpWindow := by linarith
    rw [← h.ip now' (ht.trans hnow)]
    simp only [RateLimiter.evicted, h.limits.2.2.2]
    rcases eq_or_ne ip bareIp with rfl | hip
    · rw [Function.update_self]
      exact evict_evict hcut _
    · rw [Function.update_of_ne hip]

/-- The times of the calls for an address, after one more call. -/
theorem timesOf_append (bareIp srcIp : String) (now : ℚ) (log : List (ℚ × String)) :
    timesOf bareIp (log ++ [(now, srcIp)]) =
      timesOf bareIp log ++ (if firstPart '/' srcIp = bareIp then [now] else []) := by
  unfold timesOf
  rw [List.filter_append, List.map_append]
  split_ifs with h
  · simp [h]
  · simp [h]

/-- A call that is accepted is one more call to track. -/
theorem Tracks.consume (h : Tracks r₀ r log t) (ht : t ≤ now) (srcIp : String) :
    Tracks r₀ ((r.evicted now (firstPart '/' srcIp)).consume now (firstPart '/' srcIp))
      (log ++ [(now, srcIp)]) now := by
  have he := h.evicted ht (firstPart '/' srcIp)
  -- What is left in the windows after the eviction lies in the past of the call.
  have hminute : ∀ y ∈ (r.evicted now (firstPart '/' srcIp)).minuteWindow, y ≤ now := by
    intro y hy
    have hy : y ∈ evict (now - 60) r.minuteWindow := hy
    rw [h.minute now ht] at hy
    obtain ⟨x, hx, rfl⟩ := List.mem_map.mp (List.mem_of_mem_filter hy)
    exact he.past x hx
  have hip : ∀ y ∈ (r.evicted now (firstPart '/' srcIp)).perIp (firstPart '/' srcIp), y ≤ now := by
    intro y hy
    simp only [RateLimiter.evicted, Function.update_self, h.limits.2.2.2, h.ip now ht] at hy
    obtain ⟨x, hx, rfl⟩ := List.mem_map.mp (List.mem_of_mem_filter hy)
    exact he.past x (List.mem_of_mem_filter hx)
  refine ⟨he.limits, ?_, ?_, fun now' hnow => ?_, fun now' hnow ip => ?_⟩
  · simp only [RateLimiter.consume, List.length_append, List.length_singleton]
    rw [he.total]
    push_cast
    rfl
  · intro x hx
    rcases List.mem_append.mp hx with hx | hx
    · exact he.past x hx
    · rw [List.mem_singleton.mp hx]
  · rw [RateLimiter.consume, evict_append_singleton hminute, he.minute now' hnow, List.map_append,
      List.filter_append]
    simp [List.filter_singleton]
  · rw [timesOf_append, List.filter_append, ← he.ip now' hnow ip, RateLimiter.consume]
    simp only
    rcases eq_or_ne ip (firstPart '/' srcIp) with rfl | hne
    · rw [Function.update_self, evict_append_singleton hip, if_pos rfl]
      simp [List.filter_singleton]
    · rw [Function.update_of_ne hne, if_neg hne.symm]
      simp

/-- A call of `check_and_consume` evicts, and consumes a slot when it is accepted. -/
theorem checkAndConsume_snd (r : RateLimiter) (now : ℚ) (srcIp : String) :
    (r.checkAndConsume now srcIp).2 =
      if (r.checkAndConsume now srcIp).1 = none then
        (r.evicted now (firstPart '/' srcIp)).consume now (firstPart '/' srcIp)
      else r.evicted now (firstPart '/' srcIp) := by
  split_ifs with h
  · exact (consumed_of_accepted h).2
  · unfold checkAndConsume at h ⊢
    simp only at h ⊢
    split_ifs at h ⊢
    · rfl
    · rfl
    · rfl
    · exact absurd rfl h

/-- One call keeps track of the accepted calls. -/
theorem Tracks.check (h : Tracks r₀ r log t) (ht : t ≤ now) (srcIp : String) :
    Tracks r₀ (r.step (.check now srcIp)) (r.record log (.check now srcIp)) now := by
  simp only [step, record]
  rw [checkAndConsume_snd]
  split_ifs
  · exact h.consume ht srcIp
  · exact h.evicted ht _

/-- A reset forgets every call. -/
theorem Tracks.reset (h : Tracks r₀ r log t) (now : ℚ) :
    Tracks r₀ (r.step .reset) (r.record log .reset) now where
  limits := h.limits
  total := rfl
  past := by simp [record]
  minute _ _ := rfl
  ip _ _ _ := rfl

/-- After any calls, a new limiter tracks those that were accepted since the last reset. -/
theorem tracks_run (maxPerMinute maxTotal maxPerIp perIpWindow : ℤ) {calls : List Call} {t : ℚ}
    (hclock : Clocked calls t) :
    Tracks (new maxPerMinute maxTotal maxPerIp perIpWindow)
      ((new maxPerMinute maxTotal maxPerIp perIpWindow).run calls).1
      ((new maxPerMinute maxTotal maxPerIp perIpWindow).run calls).2 t := by
  induction calls using List.reverseRecOn generalizing t with
  | nil => exact tracks_new _ _ _ _ t
  | append_singleton calls c ih =>
    unfold Clocked at hclock ih
    rw [List.filterMap_append] at hclock
    simp only [run, List.foldl_append, List.foldl_cons, List.foldl_nil]
    cases c with
    | reset =>
      simp only [List.filterMap_cons, Call.time, List.filterMap_nil, List.append_nil] at hclock
      exact (ih hclock).reset t
    | check now srcIp =>
      simp only [List.filterMap_cons, Call.time, List.filterMap_nil] at hclock
      obtain ⟨hbefore, -, hle⟩ := List.pairwise_append.mp hclock
      exact ((ih hbefore).check le_rfl srcIp).mono (hle now (by simp) t (by simp))

/-! ## Answers -/

/-- The counts that decide a call, of a limiter that tracks some calls. -/
theorem Tracks.counts (h : Tracks r₀ r log t) (ht : t ≤ now) (bareIp : String) :
    ((r.evicted now bareIp).minuteWindow.length =
        log.countP fun x => decide (now - 60 ≤ x.1 ∧ x.1 ≤ now)) ∧
      ((r.evicted now bareIp).perIp bareIp).length =
        log.countP fun x => decide (firstPart '/' x.2 = bareIp ∧
          now - r₀.perIpWindow ≤ x.1 ∧ x.1 ≤ now) := by
  have hpast := (h.mono ht).past
  simp only [RateLimiter.evicted, Function.update_self]
  rw [h.limits.2.2.2, h.minute now ht, h.ip now ht]
  constructor
  · rw [← List.countP_eq_length_filter, List.countP_map]
    refine List.countP_congr fun x hx => ?_
    simp [hpast x hx]
  · unfold timesOf
    rw [← List.countP_eq_length_filter, List.countP_map, List.countP_filter]
    refine List.countP_congr fun x hx => ?_
    simp [hpast x hx, and_comm]

/-- A call is accepted exactly when it is under the three limits. -/
theorem checkAndConsume_eq_none {srcIp : String} :
    (r.checkAndConsume now srcIp).1 = none ↔
      ((r.evicted now (firstPart '/' srcIp)).minuteWindow.length : ℤ) < r.maxPerMinute ∧
        r.totalCount < r.maxTotal ∧
        (((r.evicted now (firstPart '/' srcIp)).perIp (firstPart '/' srcIp)).length : ℤ)
          < r.maxPerIp := by
  unfold checkAndConsume
  simp only
  split_ifs with h1 h2 h3
  · simp [h1]
  · simp [h2]
  · simp [h3]
  · simpa using ⟨not_le.mp h1, not_le.mp h2, not_le.mp h3⟩

/-- Limiters that track the same calls answer the next call alike. -/
theorem Tracks.answer_eq {r' : RateLimiter} (h : Tracks r₀ r log t) (h' : Tracks r₀ r' log t)
    (ht : t ≤ now) (srcIp : String) :
    (r.checkAndConsume now srcIp).1 = (r'.checkAndConsume now srcIp).1 := by
  obtain ⟨hm, hT, hp, hw⟩ := h.limits
  obtain ⟨hm', hT', hp', hw'⟩ := h'.limits
  unfold checkAndConsume RateLimiter.evicted
  simp only [Function.update_self]
  rw [hm, hT, hp, hw, hm', hT', hp', hw', h.total, h'.total, h.minute now ht, h'.minute now ht,
    h.ip now ht, h'.ip now ht]
  split_ifs
  · rfl
  · rfl
  · rfl
  · rfl

/-- Limiters that track the same calls answer every later call alike. -/
theorem answers_of_tracks {r' : RateLimiter} {later : List Call}
    (hclock : (t :: later.filterMap Call.time).Pairwise (· ≤ ·))
    (h : Tracks r₀ r log t) (h' : Tracks r₀ r' log t) : answers r later = answers r' later := by
  induction later generalizing r r' log t with
  | nil => rfl
  | cons c rest ih =>
    unfold answers
    cases c with
    | reset =>
      have hrest : (t :: rest.filterMap Call.time).Pairwise (· ≤ ·) := hclock
      rw [ih hrest (h.reset t) (h'.reset t)]
      rfl
    | check now srcIp =>
      simp only [List.filterMap_cons, Call.time, List.pairwise_cons] at hclock
      have ht : t ≤ now := hclock.1 now (by simp)
      -- The same answer makes the same log, which both track after the call.
      have heq := h.answer_eq h' ht srcIp
      have hlog : r'.record log (.check now srcIp) = r.record log (.check now srcIp) := by
        simp only [record, heq]
      have hnext' := h'.check ht srcIp
      rw [hlog] at hnext'
      rw [ih (List.pairwise_cons.mpr hclock.2) (h.check ht srcIp) hnext']
      simp only [answer, heq]

end

/-- After any calls, a call is accepted exactly when the accepted calls since the last reset are
under the three limits: in the last minute, in total, and for the bare address in its window. A call
that is rejected changes the answer of no later call. -/
theorem accepted_iff {maxPerMinute maxTotal maxPerIp perIpWindow : ℤ} {calls : List Call} {t : ℚ}
    (hclock : Clocked calls t) (srcIp : String) {r : RateLimiter} {log : List (ℚ × String)}
    (hrun : (new maxPerMinute maxTotal maxPerIp perIpWindow).run calls = (r, log)) :
    ((r.checkAndConsume t srcIp).1 = none ↔
      (log.countP fun x => decide (t - 60 ≤ x.1 ∧ x.1 ≤ t) : ℤ) < maxPerMinute ∧
        (log.length : ℤ) < maxTotal ∧
        (log.countP fun x => decide (firstPart '/' x.2 = firstPart '/' srcIp ∧
          t - perIpWindow ≤ x.1 ∧ x.1 ≤ t) : ℤ) < maxPerIp) ∧
      ∀ later, (t :: later.filterMap Call.time).Pairwise (· ≤ ·) →
        (r.checkAndConsume t srcIp).1 ≠ none →
          answers (r.step (.check t srcIp)) later = answers r later := by
  have h := tracks_run maxPerMinute maxTotal maxPerIp perIpWindow hclock
  rw [hrun] at h
  constructor
  · obtain ⟨hminute, hip⟩ := h.counts le_rfl (firstPart '/' srcIp)
    rw [checkAndConsume_eq_none, hminute, hip, h.total, h.limits.1, h.limits.2.1, h.limits.2.2.1]
    rfl
  · intro later hlater hrejected
    have hsame := h.check le_rfl srcIp
    rw [record, if_neg hrejected] at hsame
    exact answers_of_tracks hlater hsame h

/-- Calls for two addresses, with a reset between them. -/
def plainCalls : List Call :=
  [.check 0 "10.1.100.10/32", .reset, .check 5 "10.1.100.10/32", .check 65 "10.1.100.11"]

/-- One call left the last minute, so that there is room for another. -/
theorem accepted_iff_plainCalls :
    Clocked plainCalls 66 ∧
      (((new 2 50 3 300).run plainCalls).1.checkAndConsume 66 "10.1.100.12/32").1 = none := by
  have hclock : Clocked plainCalls 66 := by
    unfold Clocked
    decide +kernel
  exact ⟨hclock, (accepted_iff hclock _ rfl).1.mpr (by decide +kernel)⟩

end RateLimiter

/-! ## The circuit breaker -/

namespace CircuitBreaker

/-- A breaker with the given settings, before any call. -/
def new (failThreshold haltSeconds : ℤ) : CircuitBreaker where
  failThreshold := failThreshold
  haltSeconds := haltSeconds
  consecutiveFailures := 0
  openUntil := 0

/-- A call of a method, with the clock it reads. -/
inductive Call where
  /-- `is_open`, which reads the clock a second time for the text. -/
  | isOpen (now now' : ℚ)
  /-- `record_success`. -/
  | recordSuccess
  /-- `record_failure`. -/
  | recordFailure (now : ℚ)

/-- The state after a call. -/
def step (b : CircuitBreaker) : Call → CircuitBreaker
  | .isOpen _ _ => b
  | .recordSuccess => b.recordSuccess
  | .recordFailure now => b.recordFailure now

/-- The state after a sequence of calls. -/
def after (b : CircuitBreaker) (calls : List Call) : CircuitBreaker := calls.foldl step b

/-- The times of the failures since the last success, after one more call. -/
def record (failures : List ℚ) : Call → List ℚ
  | .isOpen _ _ => failures
  | .recordSuccess => []
  | .recordFailure now => failures ++ [now]

/-- The times of the failures since the last success, the last one at the end. -/
def failures (calls : List Call) : List ℚ := calls.foldl record []

/-- A breaker stands for the failures since the last success. Below the threshold there is no
deadline, and from the threshold on every failure moves it. -/
structure Counts (failThreshold haltSeconds : ℤ) (b : CircuitBreaker) (failures : List ℚ) :
    Prop where
  /-- The threshold stays. -/
  threshold : b.failThreshold = failThreshold
  /-- The duration stays. -/
  halt : b.haltSeconds = haltSeconds
  /-- The counter is the number of the failures. -/
  counter : b.consecutiveFailures = failures.length
  /-- Below the threshold. -/
  closed : (failures.length : ℤ) < failThreshold → b.openUntil = 0
  /-- From the threshold on. -/
  deadline : failThreshold ≤ failures.length →
    ∀ last ∈ failures.getLast?, b.openUntil = last + haltSeconds

section

variable {failThreshold haltSeconds : ℤ}

/-- One call keeps the counts. -/
theorem Counts.step (hth : 1 ≤ failThreshold) {b : CircuitBreaker} {failures : List ℚ}
    (h : Counts failThreshold haltSeconds b failures) (c : Call) :
    Counts failThreshold haltSeconds (b.step c) (record failures c) := by
  cases c with
  | isOpen now now' => exact h
  | recordSuccess =>
    refine ⟨h.threshold, h.halt, rfl, fun _ => rfl, fun hle => ?_⟩
    simp only [record, List.length_nil] at hle
    omega
  | recordFailure now =>
    have hcounter : b.consecutiveFailures + 1 = ((failures ++ [now]).length : ℕ) := by
      rw [h.counter, List.length_append, List.length_singleton]
      push_cast
      rfl
    refine ⟨h.threshold, h.halt, hcounter, fun hlt => ?_, fun hle last hlast => ?_⟩
    -- Below the threshold after this failure, the breaker was below it before, and keeps its deadline.
    · simp only [record] at hlt
      have hbefore : (failures.length : ℤ) < failThreshold := by
        rw [← hcounter, h.counter] at hlt
        omega
      simp only [CircuitBreaker.step, recordFailure]
      rw [h.threshold, hcounter, if_neg (not_le.mpr hlt)]
      exact h.closed hbefore
    · simp only [record] at hle hlast
      rw [List.getLast?_concat, Option.mem_some_iff] at hlast
      subst hlast
      simp only [CircuitBreaker.step, recordFailure]
      rw [h.threshold, hcounter, if_pos hle, h.halt]

/-- After any calls, a new breaker stands for the failures since the last success. -/
theorem counts_after (hth : 1 ≤ failThreshold) (calls : List Call) :
    Counts failThreshold haltSeconds ((new failThreshold haltSeconds).after calls)
      (failures calls) := by
  induction calls using List.reverseRecOn with
  | nil =>
    refine ⟨rfl, rfl, rfl, fun _ => rfl, fun hle => ?_⟩
    simp only [failures, List.foldl_nil, List.length_nil] at hle
    omega
  | append_singleton calls c ih =>
    simp only [after, failures, List.foldl_append, List.foldl_cons, List.foldl_nil]
    exact ih.step hth c

end

/-- A success, three failures, and a fourth while the breaker is open. -/
def plainCalls : List Call :=
  [.recordFailure 1, .recordSuccess, .recordFailure 2, .recordFailure 3, .recordFailure 4,
    .isOpen 5 5, .recordFailure 200]

end CircuitBreaker

end ControlPlane.Intel
