import ControlPlane.Lib.Prog
import Mathlib.Data.List.Induction

/-!
# Interleaved programs over a shared memory

Several programs run at once. An interleaving is one list of events, each tagged with the program
that made it, in which the events of each program are a run of that program. The memory they share
is a state that every event moves on (`next`), and that decides which answers an event can have
(`answers`).

`Interleaving.coupled` is the rule for such a system: each program is verified on its own, by
`Prog.Sat`, over its own history; and an invariant that couples the histories to the memory, kept by
every event, shows that the answers are those each program relies on.
-/

namespace ControlPlane

/-- A shared memory for the programs `Tid`. -/
structure Memory (Tid Op : Type) (Ans : Op → Type) (σ : Type) where
  /-- The answers a call can get in a state. -/
  answers : Tid → σ → Event Op Ans → Prop
  /-- The state after an event. -/
  next : Tid → σ → Event Op Ans → σ

namespace Memory

variable {Tid Op σ : Type} {Ans : Op → Type} (m : Memory Tid Op Ans σ)

/-- The state after a list of events. -/
def after (s : σ) (l : List (Tid × Event Op Ans)) : σ := l.foldl (fun s x => m.next x.1 s x.2) s

/-- Every event of the list has an answer that the memory allows. -/
def Valid : σ → List (Tid × Event Op Ans) → Prop
  | _, [] => True
  | s, x :: l => m.answers x.1 s x.2 ∧ Valid (m.next x.1 s x.2) l

/-- Validity of two stretches of events. -/
theorem valid_append {s : σ} {l₁ l₂ : List (Tid × Event Op Ans)} :
    m.Valid s (l₁ ++ l₂) ↔ m.Valid s l₁ ∧ m.Valid (m.after s l₁) l₂ := by
  induction l₁ generalizing s with
  | nil => simp [Valid, after]
  | cons x l₁ ih =>
    simp only [List.cons_append, Valid, ih, and_assoc]
    rfl

/-- Every event of the list meets the condition in the state in which it is made. -/
def Always (P : Tid → σ → Event Op Ans → Prop) : σ → List (Tid × Event Op Ans) → Prop
  | _, [] => True
  | s, x :: l => P x.1 s x.2 ∧ Always P (m.next x.1 s x.2) l

/-- A condition that every event of the list meets in every state. -/
theorem always_of_forall {P : Tid → σ → Event Op Ans → Prop} {s : σ}
    {l : List (Tid × Event Op Ans)} (h : ∀ x ∈ l, ∀ s, P x.1 s x.2) : m.Always P s l := by
  induction l generalizing s with
  | nil => trivial
  | cons x l ih =>
    exact ⟨h x (by simp) s, ih fun y hy => h y (List.mem_cons_of_mem x hy)⟩

/-- The memory in which only events that meet the condition are made. -/
def restrict (P : Tid → σ → Event Op Ans → Prop) : Memory Tid Op Ans σ where
  answers t s e := m.answers t s e ∧ P t s e
  next := m.next

/-- A valid list of events that all meet the condition is one of the restricted memory. -/
theorem valid_restrict {P : Tid → σ → Event Op Ans → Prop} {s : σ}
    {l : List (Tid × Event Op Ans)} :
    (m.restrict P).Valid s l ↔ m.Valid s l ∧ m.Always P s l := by
  induction l generalizing s with
  | nil => simp [Valid, Always]
  | cons x l ih =>
    have hrest := ih (s := m.next x.1 s x.2)
    unfold Valid Always
    rw [and_and_and_comm, ← hrest]
    rfl

/-- A program run to its end on its own, with the answers that an oracle gives in each state. -/
def exec {α : Type} (oracle : σ → (op : Op) → Ans op) (t : Tid) :
    σ → Prog Op Ans α → List (Tid × Event Op Ans) × α
  | _, .ret a => ([], a)
  | s, .call op k =>
    let e : Event Op Ans := ⟨op, oracle s op⟩
    let rest := exec oracle t (m.next t s e) (k (oracle s op))
    ((t, e) :: rest.1, rest.2)

/-- An oracle that gives the answers the memory allows runs a program validly. -/
theorem valid_exec {α : Type} {oracle : σ → (op : Op) → Ans op} {t : Tid}
    (ho : ∀ s op, m.answers t s ⟨op, oracle s op⟩) (s : σ) (p : Prog Op Ans α) :
    m.Valid s (m.exec oracle t s p).1 := by
  induction p generalizing s with
  | ret a => trivial
  | call op k ih => exact ⟨ho s op, ih _ _⟩

/-- The events of a program on its own are a run of it. -/
theorem runs_exec {α : Type} (oracle : σ → (op : Op) → Ans op) (t : Tid) (s : σ)
    (p : Prog Op Ans α) :
    Prog.Runs p ((m.exec oracle t s p).1.map Prod.snd) (m.exec oracle t s p).2 := by
  induction p generalizing s with
  | ret a => exact .nil _
  | call op k ih => exact .cons (ih _ _)

end Memory

section

variable {Tid Op α : Type} {Ans : Op → Type} [DecidableEq Tid]

/-- The events of one program. -/
def proj (t : Tid) (l : List (Tid × Event Op Ans)) : List (Event Op Ans) :=
  (l.filter fun x => x.1 = t).map Prod.snd

/-- The events of a program in two stretches. -/
theorem proj_append (t : Tid) (l₁ l₂ : List (Tid × Event Op Ans)) :
    proj t (l₁ ++ l₂) = proj t l₁ ++ proj t l₂ := by
  simp [proj]

/-- One more event is one more of its own program, and none of another's. -/
theorem proj_append_singleton (t : Tid) (l : List (Tid × Event Op Ans)) (x : Tid × Event Op Ans) :
    proj t (l ++ [x]) = Function.update (fun t => proj t l) x.1 (proj x.1 l ++ [x.2]) t := by
  rw [proj_append]
  rcases eq_or_ne t x.1 with rfl | ht
  · simp [proj]
  · rw [Function.update_of_ne ht]
    simp [proj, ht.symm]

/-- An event of one program is an event of the whole, with the same events of the program around
it. -/
theorem exists_of_proj {t : Tid} {l : List (Tid × Event Op Ans)} {e : Event Op Ans}
    {h₁ h₂ : List (Event Op Ans)} (h : proj t l = h₁ ++ e :: h₂) :
    ∃ l₁ l₂, l = l₁ ++ (t, e) :: l₂ ∧ proj t l₁ = h₁ ∧ proj t l₂ = h₂ := by
  induction l generalizing h₁ with
  | nil => simp [proj] at h
  | cons x l ih =>
    obtain ⟨t', e'⟩ := x
    have hcons : proj t ((t', e') :: l) = (if t' = t then [e'] else []) ++ proj t l := by
      unfold proj
      split_ifs with ht
      · simp [ht]
      · simp [ht]
    rw [hcons] at h
    -- The first event is one of the program, the one that is looked for or an earlier one; or it is
    -- not, and stays before it.
    split_ifs at h with ht
    · subst ht
      cases h₁ with
      | nil =>
        obtain ⟨rfl, hrest⟩ := List.cons_eq_cons.mp h
        exact ⟨[], l, rfl, rfl, hrest⟩
      | cons e₁ h₁ =>
        obtain ⟨rfl, hrest⟩ := List.cons_eq_cons.mp h
        obtain ⟨l₁, l₂, rfl, h1, h2⟩ := ih hrest
        exact ⟨(t', e') :: l₁, l₂, rfl, by simp [proj, ← h1], h2⟩
    · obtain ⟨l₁, l₂, rfl, h1, h2⟩ := ih h
      exact ⟨(t', e') :: l₁, l₂, rfl, by simpa [proj, ht] using h1, h2⟩

/-- A program on its own has only events of its own. -/
theorem proj_exec {σ : Type} (m : Memory Tid Op Ans σ) (oracle : σ → (op : Op) → Ans op)
    (t t' : Tid) (s : σ) (p : Prog Op Ans α) :
    proj t' (m.exec oracle t s p).1 =
      if t' = t then (m.exec oracle t s p).1.map Prod.snd else [] := by
  induction p generalizing s with
  | ret a => simp [Memory.exec, proj]
  | call op k ih =>
    have hrest := ih (oracle s op) (m.next t s ⟨op, oracle s op⟩)
    unfold proj at hrest ⊢
    rcases eq_or_ne t' t with rfl | ht
    · simpa [Memory.exec] using hrest
    · simpa [Memory.exec, ht, ht.symm] using hrest

/-- `Interleaving p l q`: the events `l` take each program `p t` to `q t`. -/
def Interleaving (p : Tid → Prog Op Ans α) (l : List (Tid × Event Op Ans))
    (q : Tid → Prog Op Ans α) : Prop :=
  ∀ t, Prog.Steps (p t) (proj t l) (q t)

/-- One program runs to its end while the others wait. -/
theorem interleaving_exec {σ : Type} (m : Memory Tid Op Ans σ) (oracle : σ → (op : Op) → Ans op)
    (t : Tid) (s : σ) (p : Tid → Prog Op Ans α) :
    Interleaving p (m.exec oracle t s (p t)).1
      (Function.update p t (.ret (m.exec oracle t s (p t)).2)) := by
  intro t'
  rw [proj_exec]
  rcases eq_or_ne t' t with rfl | ht
  · rw [if_pos rfl, Function.update_self]
    exact m.runs_exec oracle t' s (p t')
  · rw [if_neg ht, Function.update_of_ne ht]
    exact .nil _

namespace Interleaving

variable {p q : Tid → Prog Op Ans α} {l l₁ l₂ : List (Tid × Event Op Ans)}

/-- One program makes a call, and the others have not moved. -/
theorem cons {t : Tid} {e : Event Op Ans} {k : Ans e.op → Prog Op Ans α} (hk : p t = .call e.op k)
    (h : Interleaving (Function.update p t (k e.ans)) l q) : Interleaving p ((t, e) :: l) q := by
  intro t'
  have hrest := h t'
  rcases eq_or_ne t' t with rfl | ht
  · rw [Function.update_self] at hrest
    have hproj : proj t' ((t', e) :: l) = e :: proj t' l := by simp [proj]
    rw [hproj, hk]
    exact .cons hrest
  · rw [Function.update_of_ne ht] at hrest
    have hproj : proj t' ((t, e) :: l) = proj t' l := by simp [proj, ht.symm]
    rw [hproj]
    exact hrest

/-- An interleaving of two stretches passes through the programs between them. -/
theorem split (h : Interleaving p (l₁ ++ l₂) q) :
    ∃ r, Interleaving p l₁ r ∧ Interleaving r l₂ q := by
  have hex : ∀ t, ∃ r, Prog.Steps (p t) (proj t l₁) r ∧ Prog.Steps r (proj t l₂) (q t) := by
    intro t
    rw [← Prog.steps_append, ← proj_append]
    exact h t
  choose r h1 h2 using hex
  exact ⟨r, h1, h2⟩

variable {σ : Type} {m : Memory Tid Op Ans σ}
  {R : Tid → List (Event Op Ans) → Event Op Ans → Prop} {G : Tid → List (Event Op Ans) → Op → Prop}
  {Q : Tid → List (Event Op Ans) → α → Prop} {J : (Tid → List (Event Op Ans)) → σ → Prop} {s : σ}

/-- Programs verified on their own stay verified side by side, when an invariant that couples their
histories to the memory is kept by every event and gives each program the answers it relies on. -/
theorem coupled (hp : ∀ t, Prog.Sat (R t) (G t) (Q t) [] (p t)) (h0 : J (fun _ => []) s)
    (hstep : ∀ hist s t e, J hist s → G t (hist t) e.op → m.answers t s e →
      R t (hist t) e ∧ J (Function.update hist t (hist t ++ [e])) (m.next t s e))
    (hi : Interleaving p l q) (hv : m.Valid s l) :
    J (fun t => proj t l) (m.after s l) ∧ ∀ t, Prog.Sat (R t) (G t) (Q t) (proj t l) (q t) := by
  -- The induction adds an event at the end, where the histories and the memory are known.
  induction l using List.reverseRecOn generalizing q with
  | nil =>
    refine ⟨h0, fun t => ?_⟩
    rw [(hi t).eq_of_nil]
    exact hp t
  | append_singleton l x ih =>
    obtain ⟨t, e⟩ := x
    obtain ⟨r, hr, hx⟩ := hi.split
    obtain ⟨hvl, hvx⟩ := m.valid_append.mp hv
    obtain ⟨hJ, hsat⟩ := ih hr hvl
    obtain ⟨k, hk, hnext⟩ := (by simpa [proj] using hx t : Prog.Steps (r t) [e] (q t)).of_cons
    have hown := hsat t
    rw [hk] at hown
    obtain ⟨hR, hJ'⟩ := hstep _ _ t e hJ hown.1 hvx.1
    have hproj := fun t' => proj_append_singleton t' l (t, e)
    constructor
    · simp only [hproj, Memory.after, List.foldl_append]
      exact hJ'
    · intro t'
      rw [hproj]
      rcases eq_or_ne t' t with rfl | ht
      · rw [Function.update_self, hnext.eq_of_nil]
        exact hown.2 e.ans hR
      · rw [Function.update_of_ne ht]
        -- The other programs have not moved.
        have hother : Prog.Steps (r t') [] (q t') := by simpa [proj, ht.symm] using hx t'
        rw [hother.eq_of_nil]
        exact hsat t'

/-- Every call of verified programs that run side by side meets its guarantee, in a state where the
invariant holds. -/
theorem guarantee (hp : ∀ t, Prog.Sat (R t) (G t) (Q t) [] (p t)) (h0 : J (fun _ => []) s)
    (hstep : ∀ hist s t e, J hist s → G t (hist t) e.op → m.answers t s e →
      R t (hist t) e ∧ J (Function.update hist t (hist t ++ [e])) (m.next t s e))
    {t : Tid} {e : Event Op Ans} (hi : Interleaving p (l₁ ++ (t, e) :: l₂) q)
    (hv : m.Valid s (l₁ ++ (t, e) :: l₂)) :
    G t (proj t l₁) e.op ∧ J (fun t => proj t l₁) (m.after s l₁) := by
  obtain ⟨r, hr, hx⟩ := hi.split
  obtain ⟨hJ, hsat⟩ := coupled hp h0 hstep hr (m.valid_append.mp hv).1
  refine ⟨?_, hJ⟩
  have hown : Prog.Steps (r t) (e :: proj t l₂) (q t) := by simpa [proj] using hx t
  obtain ⟨k, hk, -⟩ := hown.of_cons
  have hst := hsat t
  rw [hk] at hst
  exact hst.1

end Interleaving

end

end ControlPlane
