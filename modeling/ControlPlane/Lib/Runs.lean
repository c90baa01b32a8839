import Mathlib.Data.List.Basic
import Mathlib.Data.List.Induction

/-!
# Runs of a state machine

A machine takes actions one after the other; `none` stands for an action that is not possible in a
state. `Runs.invariant` is the rule for what holds after every run whose actions meet a condition:
it holds of the empty run, and each action that meets the condition keeps it. The invariant may
speak of the actions so far.
-/

namespace ControlPlane.Runs

variable {S A : Type} (step : S → A → Option S)

/-- The state after some actions. -/
def exec (s : S) (actions : List A) : Option S := actions.foldlM step s

/-- Each action meets a condition in the state in which it is taken. -/
def Always (P : S → A → Prop) (s : S) (actions : List A) : Prop :=
  ∀ before a after, actions = before ++ a :: after → ∀ s', exec step s before = some s' → P s' a

variable {step}

theorem exec_append (s : S) (before after : List A) :
    exec step s (before ++ after) = (exec step s before).bind fun s' => exec step s' after :=
  List.foldlM_append

/-- A run with one action more. -/
theorem exec_append_singleton {s s' : S} {actions : List A} {a : A} :
    exec step s (actions ++ [a]) = some s' ↔
      ∃ t, exec step s actions = some t ∧ step t a = some s' := by
  rw [exec_append, Option.bind_eq_some_iff]
  refine exists_congr fun t => and_congr_right fun _ => ?_
  rw [exec, List.foldlM_cons, Option.bind_eq_bind]
  cases step t a with
  | none => simp
  | some t' => rfl

variable {P : S → A → Prop}

theorem always_append_singleton {s : S} {actions : List A} {a : A}
    (h : Always step P s (actions ++ [a])) :
    Always step P s actions ∧ ∀ s', exec step s actions = some s' → P s' a := by
  constructor
  · rintro before b after rfl
    exact h before b (after ++ [a]) (by simp)
  · exact h actions a [] rfl

/-- The actions before the last one decide the state in which it is taken. -/
theorem always_append_singleton_of {s t : S} {actions : List A} {a : A}
    (h : Always step P s actions) (ht : exec step s actions = some t) (ha : P t a) :
    Always step P s (actions ++ [a]) := by
  intro before b after hsplit s' hs'
  rcases List.eq_nil_or_concat' after with rfl | ⟨after, x, rfl⟩
  · obtain ⟨rfl, hb⟩ := List.append_inj' hsplit rfl
    obtain rfl := List.singleton_inj.mp hb
    obtain rfl := Option.some.inj (ht.symm.trans hs')
    exact ha
  · have hsplit' : actions ++ [a] = (before ++ b :: after) ++ [x] := by simpa using hsplit
    obtain ⟨rfl, -⟩ := List.append_inj' hsplit' rfl
    exact h before b after rfl s' hs'

theorem always_nil (s : S) : Always step P s [] := by
  intro before a after h
  exact absurd h (by simp)

/-- A run with one action before it. -/
theorem always_cons {s : S} {a : A} {actions : List A} (ha : P s a)
    (h : ∀ t, step s a = some t → Always step P t actions) : Always step P s (a :: actions) := by
  intro before b after hsplit s' hs'
  cases before with
  | nil =>
    obtain ⟨rfl, rfl⟩ := List.cons.inj hsplit
    obtain rfl := Option.some.inj hs'
    exact ha
  | cons c before =>
    obtain ⟨rfl, rfl⟩ := List.cons.inj hsplit
    obtain ⟨t, ht, hs'⟩ := Option.bind_eq_some_iff.mp hs'
    exact h t ht before b after rfl s' hs'

/-- A condition that every action meets in every state. -/
theorem always_of_forall {s : S} {actions : List A} (h : ∀ a ∈ actions, ∀ s', P s' a) :
    Always step P s actions := by
  rintro before a after rfl s' -
  exact h a (by simp) s'

/-- What the empty run has and each action keeps holds after every run. -/
theorem invariant {I : List A → S → Prop} {s : S} (hnil : I [] s)
    (hstep : ∀ actions t a t', I actions t → P t a → step t a = some t' → I (actions ++ [a]) t')
    {actions : List A} {s' : S} (hP : Always step P s actions)
    (hrun : exec step s actions = some s') : I actions s' := by
  induction actions using List.reverseRecOn generalizing s' with
  | nil =>
    obtain rfl := Option.some.inj hrun
    exact hnil
  | append_singleton actions a ih =>
    obtain ⟨hbefore, hlast⟩ := always_append_singleton hP
    obtain ⟨t, ht, ha⟩ := exec_append_singleton.mp hrun
    exact hstep actions t a s' (ih hbefore ht) (hlast t ht) ha

/-- Where the invariant makes an action keep a property exactly when it meets the condition, a run
has the property in every state exactly when each of its actions meets the condition. -/
theorem forall_iff_always {I Q : S → Prop} {s : S} (hI : I s) (hQ : Q s)
    (hkeep : ∀ t a t', I t → P t a → step t a = some t' → I t')
    (hiff : ∀ t a t', I t → step t a = some t' → (Q t' ↔ P t a))
    {actions : List A} {s' : S} (hrun : exec step s actions = some s') :
    (∀ before after, actions = before ++ after → ∀ t, exec step s before = some t → Q t) ↔
      Always step P s actions := by
  constructor
  · intro hall
    induction actions using List.reverseRecOn generalizing s' with
    | nil => exact always_nil s
    | append_singleton actions a ih =>
      obtain ⟨t, ht, ha⟩ := exec_append_singleton.mp hrun
      have hbefore : Always step P s actions := by
        apply ih ht
        rintro before after rfl
        exact hall before (after ++ [a]) (by simp)
      have hIt : I t := invariant (I := fun _ => I) hI (fun _ t a t' => hkeep t a t') hbefore ht
      have hPt : P t a := (hiff t a s' hIt ha).mp (hall _ [] (by simp) s' hrun)
      exact always_append_singleton_of hbefore ht hPt
  · intro hP before after hsplit t ht
    rcases List.eq_nil_or_concat' before with rfl | ⟨before, a, rfl⟩
    · obtain rfl := Option.some.inj ht
      exact hQ
    · obtain ⟨t', ht', ha⟩ := exec_append_singleton.mp ht
      have hbefore : Always step P s before := by
        rintro b x after' rfl
        exact hP b x (after' ++ [a] ++ after) (by simp [hsplit])
      have hIt : I t' := invariant (I := fun _ => I) hI (fun _ t a t' => hkeep t a t') hbefore ht'
      exact (hiff t' a t hIt ha).mpr (hP before a after (by simp [hsplit]) t' ht')

/-- Where each action is one of another machine, or none, on the part of the state that the view
shows, the view of a run is a run of the other machine. -/
theorem exec_filterMap {T B : Type} {step' : T → B → Option T} (view : S → T) {part : A → Option B}
    (hsome : ∀ s a s' b, step s a = some s' → part a = some b → step' (view s) b = some (view s'))
    (hnone : ∀ s a s', step s a = some s' → part a = none → view s' = view s)
    {s s' : S} {actions : List A} (hrun : exec step s actions = some s') :
    exec step' (view s) (actions.filterMap part) = some (view s') := by
  induction actions using List.reverseRecOn generalizing s' with
  | nil =>
    obtain rfl := Option.some.inj hrun
    rfl
  | append_singleton actions a ih =>
    obtain ⟨t, ht, ha⟩ := exec_append_singleton.mp hrun
    rw [List.filterMap_append]
    cases hb : part a with
    | none =>
      rw [List.filterMap_cons_none hb, List.filterMap_nil, List.append_nil, hnone t a s' ha hb]
      exact ih ht
    | some b =>
      rw [List.filterMap_cons_some hb, List.filterMap_nil]
      exact exec_append_singleton.mpr ⟨view t, ih ht, hsome t a s' b ha hb⟩

end ControlPlane.Runs
