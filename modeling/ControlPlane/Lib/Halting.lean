import Mathlib.Computability.StateTransition
import Mathlib.Data.Fintype.Pigeonhole
import Mathlib.Order.Interval.Finset.Basic

/-!
# When a machine halts

A machine is a partial step function, and it halts when its run ends. A machine that goes on from
finitely many states only halts exactly when no state that it comes to is come to again, and then it
does after at most one step for each of them (`iterate_eq_none`). Where the states are ordered, a run
that comes to a state again goes back somewhere on the way, so that only the steps that go back need
to be looked at (`dom_eval_iff_of_back`).
-/

namespace ControlPlane.Halting

open StateTransition

variable {σ : Type} {f : σ → Option σ} {a : σ}

/-- The state after so many steps, if there is one. -/
def after (f : σ → Option σ) (n : ℕ) (a : σ) : Option σ := (flip bind f)^[n] (some a)

@[simp]
theorem after_zero (f : σ → Option σ) (a : σ) : after f 0 a = some a := rfl

theorem after_succ (f : σ → Option σ) (n : ℕ) (a : σ) :
    after f (n + 1) a = (after f n a).bind f := by
  unfold after
  rw [Function.iterate_succ_apply']
  rfl

/-- The first step comes first. -/
theorem after_succ' (f : σ → Option σ) (n : ℕ) (a : σ) :
    after f (n + 1) a = (f a).bind (after f n) := by
  induction n with
  | zero =>
    rw [after_succ, after_zero, Option.bind_some]
    cases f a <;> rfl
  | succ n ih =>
    rw [after_succ, ih]
    cases f a with
    | none => rfl
    | some b =>
      show (after f n b).bind f = after f (n + 1) b
      rw [after_succ]

theorem reaches_of_after {n : ℕ} {b : σ} (h : after f n a = some b) : Reaches f a b := by
  induction n generalizing b with
  | zero =>
    obtain rfl := Option.some_inj.mp h
    exact .refl
  | succ n ih =>
    rw [after_succ] at h
    obtain ⟨c, hc, hb⟩ := Option.bind_eq_some_iff.mp h
    exact (ih hc).tail hb

theorem exists_after_of_reaches {b : σ} (h : Reaches f a b) : ∃ n, after f n a = some b := by
  induction h with
  | refl => exact ⟨0, rfl⟩
  | tail _ hstep ih =>
    obtain ⟨n, hn⟩ := ih
    refine ⟨n + 1, ?_⟩
    rw [after_succ, hn]
    exact hstep

/-- More steps from a state that is come to later. -/
theorem reaches₁_of_after {m n : ℕ} {b c : σ} (hmn : m < n) (hm : after f m a = some b)
    (hn : after f n a = some c) : Reaches₁ f b c := by
  induction n generalizing c with
  | zero => exact absurd hmn (Nat.not_lt_zero m)
  | succ n ih =>
    rw [after_succ] at hn
    obtain ⟨d, hd, hc⟩ := Option.bind_eq_some_iff.mp hn
    rcases Nat.lt_succ_iff_lt_or_eq.mp hmn with hlt | rfl
    · exact (ih hlt hd).tail hc
    · obtain rfl := Option.some_inj.mp (hm.symm.trans hd)
      exact .single hc

/-- A machine halts exactly when its run has an end. -/
theorem dom_eval_iff : (eval f a).Dom ↔ ∃ n, after f n a = none := by
  constructor
  · intro h
    obtain ⟨hreach, hend⟩ := mem_eval.mp (Part.get_mem h)
    obtain ⟨n, hn⟩ := exists_after_of_reaches hreach
    refine ⟨n + 1, ?_⟩
    rw [after_succ, hn]
    exact hend
  · rintro ⟨n, hn⟩
    induction n with
    | zero => exact absurd hn (by simp)
    | succ n ih =>
      cases hprev : after f n a with
      | none => exact ih hprev
      | some b =>
        rw [after_succ, hprev] at hn
        exact Part.dom_iff_mem.mpr ⟨b, mem_eval.mpr ⟨reaches_of_after hprev, hn⟩⟩

/-- A machine that halts comes to no state again. -/
theorem not_reaches₁_self (h : (eval f a).Dom) {b : σ} (hb : Reaches f a b) :
    ¬ Reaches₁ f b b := by
  intro hback
  obtain ⟨hreach, hend⟩ := mem_eval.mp (Part.get_mem h)
  -- the last state is come to from every state of the run, and `b` from each that it leads to
  have hagain : ∀ c, Reaches f b c → Reaches₁ f c b := by
    intro c hc
    induction hc with
    | refl => exact hback
    | tail _ hstep ih =>
      rcases Relation.reflTransGen_iff_eq_or_transGen.mp (reaches₁_fwd ih hstep) with heq | hlate
      · rw [← heq]
        exact hback
      · exact hlate
  rcases reaches_total hb hreach with hlast | hlast
  · obtain ⟨c, hc, -⟩ := Relation.TransGen.head'_iff.mp (hagain _ hlast)
    rw [Option.mem_def, hend] at hc
    cases hc
  · rcases Relation.ReflTransGen.cases_head hlast with heq | ⟨c, hc, -⟩
    · rw [← heq] at hback
      obtain ⟨c, hc, -⟩ := Relation.TransGen.head'_iff.mp hback
      rw [Option.mem_def, hend] at hc
      cases hc
    · rw [Option.mem_def, hend] at hc
      cases hc

/-- A machine that goes on from finitely many states, and comes to none of them again, halts after a
step for each of them. -/
theorem after_eq_none {S : Finset σ} (hS : ∀ b, Reaches f a b → f b ≠ none → b ∈ S)
    (h : ∀ b, Reaches f a b → ¬ Reaches₁ f b b) : after f (S.card + 1) a = none := by
  classical
  by_contra hgoes
  -- there is a state after each number of steps up to that, and the machine goes on from it
  have hsome : ∀ n, n ≤ S.card + 1 → ∃ b, after f n a = some b := by
    intro n hn
    by_contra hno
    have hnone : ∀ k, after f (n + k) a = none := by
      intro k
      induction k with
      | zero => exact Option.eq_none_iff_forall_ne_some.mpr fun b hb => hno ⟨b, hb⟩
      | succ k ih => rw [← Nat.add_assoc, after_succ, ih, Option.bind_none]
    have hlast := hnone (S.card + 1 - n)
    rw [Nat.add_sub_cancel' hn] at hlast
    exact hgoes hlast
  choose state hstate using fun n : Fin (S.card + 1) => hsome n.val (Nat.le_of_lt n.isLt)
  have hmem : ∀ n, state n ∈ S := by
    intro n
    refine hS _ (reaches_of_after (hstate n)) fun hend => ?_
    obtain ⟨b, hb⟩ := hsome (n.val + 1) n.isLt
    rw [after_succ, hstate n, Option.bind_some, hend] at hb
    cases hb
  obtain ⟨m, n, hne, heq⟩ := Fintype.exists_ne_map_eq_of_card_lt
    (fun n => (⟨state n, hmem n⟩ : S)) (by simp)
  have heq : state m = state n := congrArg Subtype.val heq
  have hagain : ∀ {m n : Fin (S.card + 1)}, m < n → state m = state n → False := by
    intro m n hlt heq
    have hback := reaches₁_of_after hlt (hstate m) (hstate n)
    rw [heq] at hback
    exact h _ (reaches_of_after (hstate n)) hback
  rcases lt_or_gt_of_ne hne with hlt | hlt
  · exact hagain hlt heq
  · exact hagain hlt heq.symm

/-- A machine that goes on from finitely many states halts exactly when it does after a step for
each of them. -/
theorem dom_eval_iff_after {S : Finset σ} (hS : ∀ b, Reaches f a b → f b ≠ none → b ∈ S) :
    (eval f a).Dom ↔ after f (S.card + 1) a = none :=
  ⟨fun h => after_eq_none hS fun _ hb => not_reaches₁_self h hb,
    fun h => dom_eval_iff.mpr ⟨_, h⟩⟩

/-! ## Ordered states -/

/-- A run that only goes on to greater states, as far as they lead back, comes to a greater one. -/
theorem lt_of_reaches₁ [Preorder σ] {b c : σ}
    (h : ∀ s, Reaches f b s → ∀ t ∈ f s, Reaches f t s → s < t) (hc : Reaches₁ f b c)
    (hback : Reaches f c b) : b < c := by
  induction hc with
  | single hstep => exact h b .refl _ hstep hback
  | tail hd hstep ih =>
    have hreach := Relation.TransGen.to_reflTransGen hd
    exact (ih (Relation.ReflTransGen.head hstep hback)).trans
      (h _ hreach _ hstep (Relation.ReflTransGen.trans hback hreach))

/-- A machine that goes on from finitely many states halts exactly when no state that it comes to is
come to again after a step that goes back. -/
theorem dom_eval_iff_of_back [LinearOrder σ] {S : Finset σ}
    (hS : ∀ b, Reaches f a b → f b ≠ none → b ∈ S) :
    (eval f a).Dom ↔ ∀ s, Reaches f a s → ∀ t ∈ f s, t ≤ s → ¬ Reaches f t s := by
  constructor
  · intro h s hs t ht _ hback
    exact not_reaches₁_self h hs (Relation.TransGen.head' ht hback)
  · intro h
    refine (dom_eval_iff_after hS).mpr (after_eq_none hS fun b hb hagain => ?_)
    refine lt_irrefl b (lt_of_reaches₁ (fun s hs t ht hback => ?_) hagain .refl)
    by_contra hle
    exact h s (Relation.ReflTransGen.trans hb hs) t ht (not_lt.mp hle) hback

end ControlPlane.Halting
