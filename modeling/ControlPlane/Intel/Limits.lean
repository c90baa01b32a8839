import ControlPlane.Lib.Json
import Mathlib.Logic.Function.Basic

/-!
# The rate limiter and the circuit breaker

The model of `agent/safety/rate_limiter.py` and `agent/safety/circuit_breaker.py`. Both are states
with methods that run under a lock, so each method is one function from the state and the clock to
its answer and the next state. The clock is `time.monotonic()`, a rational number of seconds.

A call that the limiter accepts consumes one slot in each of its three counts
(`RateLimiter.consumed_of_accepted`).
-/

namespace ControlPlane.Intel

open Text

/-- `RateLimiter`: its limits and its counts. -/
structure RateLimiter where
  /-- `_max_per_minute`. -/
  maxPerMinute : ℤ
  /-- `_max_total`. -/
  maxTotal : ℤ
  /-- `_max_per_ip`. -/
  maxPerIp : ℤ
  /-- `_per_ip_window`, in seconds. -/
  perIpWindow : ℤ
  /-- `_minute_window`, the oldest call first. -/
  minuteWindow : List ℚ
  /-- `_total_count`. -/
  totalCount : ℤ
  /-- `_per_ip`, empty by default, the oldest call first. -/
  perIp : String → List ℚ

namespace RateLimiter

/-- The calls that are left when those before the cutoff are evicted from the front. -/
def evict (cutoff : ℚ) (window : List ℚ) : List ℚ := window.dropWhile fun t => decide (t < cutoff)

/-- The state after the evictions of `check_and_consume`. -/
def evicted (r : RateLimiter) (now : ℚ) (bareIp : String) : RateLimiter :=
  { r with
    minuteWindow := evict (now - 60) r.minuteWindow
    perIp := Function.update r.perIp bareIp (evict (now - r.perIpWindow) (r.perIp bareIp)) }

/-- The state after one more slot is consumed. -/
def consume (r : RateLimiter) (now : ℚ) (bareIp : String) : RateLimiter :=
  { r with
    minuteWindow := r.minuteWindow ++ [now]
    totalCount := r.totalCount + 1
    perIp := Function.update r.perIp bareIp (r.perIp bareIp ++ [now]) }

/-- `check_and_consume`: an error text, or `none` for an accepted call, and the next state. -/
def checkAndConsume (r : RateLimiter) (now : ℚ) (srcIp : String) : Option String × RateLimiter :=
  let bareIp := firstPart '/' srcIp
  let e := r.evicted now bareIp
  let minute : ℤ := e.minuteWindow.length
  let ip : ℤ := (e.perIp bareIp).length
  if r.maxPerMinute ≤ minute then
    (some ("L5: Rate limit exceeded — " ++ toString minute ++ " rules pushed in last 60s (max="
      ++ toString r.maxPerMinute ++ ")"), e)
  else if r.maxTotal ≤ r.totalCount then
    (some ("L5: Total agent rule cap reached — " ++ toString r.totalCount ++ " (max="
      ++ toString r.maxTotal ++ "). Manual review required."), e)
  else if r.maxPerIp ≤ ip then
    (some ("L5: Per-IP rate limit for " ++ bareIp ++ " — " ++ toString ip ++ " rules in "
      ++ toString r.perIpWindow ++ "s (max=" ++ toString r.maxPerIp ++ ")"), e)
  else (none, e.consume now bareIp)

/-- `reset`. -/
def reset (r : RateLimiter) : RateLimiter :=
  { r with minuteWindow := [], totalCount := 0, perIp := fun _ => [] }

/-- An accepted call was under the three limits, and consumes one slot of each count. -/
theorem consumed_of_accepted {r : RateLimiter} {now : ℚ} {srcIp : String}
    (h : (r.checkAndConsume now srcIp).1 = none) :
    r.totalCount < r.maxTotal ∧ (r.checkAndConsume now srcIp).2 =
      (r.evicted now (firstPart '/' srcIp)).consume now (firstPart '/' srcIp) := by
  unfold checkAndConsume at h ⊢
  simp only at h ⊢
  split_ifs at h ⊢ with h1 h2 h3
  exact ⟨by omega, rfl⟩

end RateLimiter

/-- `CircuitBreaker`. -/
structure CircuitBreaker where
  /-- `_fail_threshold`. -/
  failThreshold : ℤ
  /-- `_halt_seconds`. -/
  haltSeconds : ℤ
  /-- `_consecutive_failures`. -/
  consecutiveFailures : ℤ
  /-- `_open_until`. -/
  openUntil : ℚ

namespace CircuitBreaker

/-- `is_open`, with the two readings of the clock. -/
def isOpen (b : CircuitBreaker) (now now' : ℚ) : Bool × String :=
  if now < b.openUntil then
    (true, "L8: Circuit breaker OPEN — " ++ toString b.consecutiveFailures
      ++ " consecutive failures. Halted for " ++ toString (Json.trunc (b.openUntil - now'))
      ++ "s more.")
  else (false, "")

/-- `record_success`. -/
def recordSuccess (b : CircuitBreaker) : CircuitBreaker :=
  { b with consecutiveFailures := 0, openUntil := 0 }

/-- `record_failure`. -/
def recordFailure (b : CircuitBreaker) (now : ℚ) : CircuitBreaker :=
  let failures := b.consecutiveFailures + 1
  { b with
    consecutiveFailures := failures
    openUntil := if b.failThreshold ≤ failures then now + b.haltSeconds else b.openUntil }

end CircuitBreaker

end ControlPlane.Intel
