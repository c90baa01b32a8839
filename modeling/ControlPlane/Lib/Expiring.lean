import Mathlib.Data.List.Basic
import Mathlib.Tactic.SplitIfs
import Mathlib.Tactic.Tauto

/-!
# Keys that expire

Arrivals that each try to set a key which expires after a time, as with `SET` and the options `NX`
and `EX` of Redis: one that finds its key there is turned away. `accepted_eq_self_iff` says when
none is.
-/

namespace ControlPlane.Expiring

variable {A K : Type} [DecidableEq K] (key : A → K) (time : A → ℕ) (ttl : ℕ)

/-- The arrivals that set their key, from the times at which the keys expire. -/
def accepted : (K → ℕ) → List A → List A
  | _, [] => []
  | expiry, a :: rest =>
    if expiry (key a) ≤ time a then
      a :: accepted (Function.update expiry (key a) (time a + ttl)) rest
    else accepted expiry rest

/-- No arrival comes before the key of an earlier one has expired. -/
def Spaced (arrivals : List A) : Prop :=
  arrivals.Pairwise fun a b => key a = key b → time a + ttl ≤ time b

variable {key time ttl}

theorem accepted_sublist (expiry : K → ℕ) (arrivals : List A) :
    (accepted key time ttl expiry arrivals).Sublist arrivals := by
  induction arrivals generalizing expiry with
  | nil => exact .slnil
  | cons a rest ih =>
    rw [accepted]
    split_ifs
    · exact (ih _).cons_cons a
    · exact (ih _).cons a

/-- After an arrival the others are in time for the new keys exactly when they are in time for the
old ones and come after the new key has expired. -/
theorem forall_update_le_iff {expiry : K → ℕ} {a : A} {rest : List A}
    (ha : expiry (key a) ≤ time a) :
    (∀ b ∈ rest, Function.update expiry (key a) (time a + ttl) (key b) ≤ time b) ↔
      (∀ b ∈ rest, expiry (key b) ≤ time b) ∧
        ∀ b ∈ rest, key a = key b → time a + ttl ≤ time b := by
  rw [← forall₂_and]
  refine forall₂_congr fun b _ => ?_
  by_cases hkey : key a = key b
  · rw [hkey, Function.update_self, ← hkey]
    constructor
    · intro h
      exact ⟨by omega, fun _ => h⟩
    · intro h
      exact h.2 rfl
  · rw [Function.update_of_ne (Ne.symm hkey)]
    constructor
    · intro h
      exact ⟨h, fun e => absurd e hkey⟩
    · exact And.left

/-- All the arrivals are accepted exactly when each is in time for the keys that are there, and none
comes before the key of an earlier one has expired. -/
theorem accepted_eq_self_iff {expiry : K → ℕ} {arrivals : List A} :
    accepted key time ttl expiry arrivals = arrivals ↔
      (∀ a ∈ arrivals, expiry (key a) ≤ time a) ∧ Spaced key time ttl arrivals := by
  induction arrivals generalizing expiry with
  | nil => simp [accepted, Spaced]
  | cons a rest ih =>
    unfold Spaced at ih ⊢
    rw [accepted, List.forall_mem_cons, List.pairwise_cons]
    split_ifs with ha
    · rw [List.cons.injEq, ih, forall_update_le_iff ha]
      tauto
    · constructor
      · intro h
        have hle : (accepted key time ttl expiry rest).length ≤ rest.length :=
          (accepted_sublist expiry rest).length_le
        rw [h, List.length_cons] at hle
        omega
      · rintro ⟨⟨h, -⟩, -⟩
        exact absurd h ha

end ControlPlane.Expiring
