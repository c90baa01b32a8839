import Mathlib.Logic.Function.Basic
import Mathlib.Data.List.Basic
import Mathlib.Tactic.Common

/-!
# Programs that call out

A `Prog` is a program as a tree: it returns, or it makes a call and goes on with the answer. Which
answers a call can get is left open, so a run is any path through the tree (`Steps`), and a result
for every run holds for every behaviour of what the program calls.

`Sat` is the weakest-precondition reading of such a program: each call meets a guarantee, and the
end meets a postcondition, as long as the answers meet what the program relies on. Both speak of
the history of events so far. `Steps.sat` and `Steps.guarantee` are its soundness.

`Act` adds what a method of the source has besides its calls: a mutable state that survives an
exception, and exceptions. The `sat` lemmas of its operations are the rules by which the model's
programs are verified.
-/

namespace ControlPlane

/-- A program over the calls `Op`, where `op` is answered in `Ans op`. -/
inductive Prog (Op : Type) (Ans : Op → Type) (α : Type) : Type where
  | ret (a : α)
  | call (op : Op) (k : Ans op → Prog Op Ans α)

/-- A call and its answer. -/
structure Event (Op : Type) (Ans : Op → Type) where
  /-- The call. -/
  op : Op
  /-- Its answer. -/
  ans : Ans op

namespace Prog

variable {Op : Type} {Ans : Op → Type} {α β : Type}

/-- Sequencing. -/
def bind : Prog Op Ans α → (α → Prog Op Ans β) → Prog Op Ans β
  | ret a, f => f a
  | call op k, f => call op fun x => (k x).bind f

instance : Monad (Prog Op Ans) where
  pure := ret
  bind := bind

/-- The program that makes one call and returns its answer. -/
def perform (op : Op) : Prog Op Ans (Ans op) := call op ret

/-- The run that an oracle for the answers picks, with the events so far in `h`. -/
def run (oracle : List (Event Op Ans) → (op : Op) → Ans op) :
    List (Event Op Ans) → Prog Op Ans α → List (Event Op Ans) × α
  | h, ret a => (h, a)
  | h, call op k => run oracle (h ++ [⟨op, oracle h op⟩]) (k (oracle h op))

/-- `Steps p h q`: the events `h` take the program `p` to `q`. -/
inductive Steps : Prog Op Ans α → List (Event Op Ans) → Prog Op Ans α → Prop where
  | nil (p) : Steps p [] p
  | cons {op k a h q} (hk : Steps (k a) h q) : Steps (call op k) (⟨op, a⟩ :: h) q

/-- `Runs p h a`: the program `p` returns `a` after the events `h`. -/
def Runs (p : Prog Op Ans α) (h : List (Event Op Ans)) (a : α) : Prop := Steps p h (ret a)

/-- No event leads back to the program itself. -/
theorem Steps.eq_of_nil {p q : Prog Op Ans α} (h : Steps p [] q) : q = p := by
  cases h
  rfl

/-- A program whose run starts with an event is at that call. -/
theorem Steps.of_cons {p q : Prog Op Ans α} {e : Event Op Ans} {h : List (Event Op Ans)}
    (hs : Steps p (e :: h) q) : ∃ k, p = call e.op k ∧ Steps (k e.ans) h q := by
  cases hs with
  | cons hk => exact ⟨_, rfl, hk⟩

/-- A run of two stretches passes through the program between them. -/
theorem steps_append {p r : Prog Op Ans α} {h₁ h₂ : List (Event Op Ans)} :
    Steps p (h₁ ++ h₂) r ↔ ∃ q, Steps p h₁ q ∧ Steps q h₂ r := by
  constructor
  · intro h
    induction h₁ generalizing p with
    | nil => exact ⟨p, .nil p, h⟩
    | cons e h₁ ih =>
      cases h with
      | cons hk =>
        obtain ⟨q, hq, hr⟩ := ih hk
        exact ⟨q, .cons hq, hr⟩
  · rintro ⟨q, hq, hr⟩
    induction hq with
    | nil => exact hr
    | cons _ ih => exact .cons (ih hr)

/-- The run that an oracle picks is a run. -/
theorem runs_run (oracle : List (Event Op Ans) → (op : Op) → Ans op) (p : Prog Op Ans α)
    (h : List (Event Op Ans)) :
    ∃ h', (run oracle h p).1 = h ++ h' ∧ Runs p h' (run oracle h p).2 := by
  induction p generalizing h with
  | ret a => exact ⟨[], by simp [run], .nil _⟩
  | call op k ih =>
    obtain ⟨h', heq, hrun⟩ := ih (oracle h op) (h ++ [⟨op, oracle h op⟩])
    refine ⟨⟨op, oracle h op⟩ :: h', ?_, .cons hrun⟩
    rw [run, heq, List.append_assoc]
    rfl

/-- In the run that a constant oracle picks, every answer is that of the oracle. -/
theorem mem_run {oracle : (op : Op) → Ans op} {p : Prog Op Ans α} {h : List (Event Op Ans)}
    (hh : ∀ e ∈ h, e.ans = oracle e.op) :
    ∀ e ∈ (run (fun _ => oracle) h p).1, e.ans = oracle e.op := by
  induction p generalizing h with
  | ret a => exact hh
  | call op k ih =>
    refine ih (oracle op) fun e he => ?_
    rcases List.mem_append.mp he with he | he
    · exact hh e he
    · rw [List.mem_singleton.mp he]

/-- Every program has a run with the answers of an oracle. -/
theorem runs_const (oracle : (op : Op) → Ans op) (p : Prog Op Ans α) :
    Runs p (run (fun _ => oracle) [] p).1 (run (fun _ => oracle) [] p).2 ∧
      ∀ e ∈ (run (fun _ => oracle) [] p).1, e.ans = oracle e.op := by
  obtain ⟨h, hh, hrun⟩ := runs_run (fun _ => oracle) p []
  rw [List.nil_append] at hh
  refine ⟨?_, mem_run (by simp)⟩
  rw [hh]
  exact hrun

/-- A run ends where the run of the first part goes on into the second. -/
theorem runs_bind {p : Prog Op Ans α} {f : α → Prog Op Ans β} {h : List (Event Op Ans)} {b : β} :
    Runs (p.bind f) h b ↔ ∃ h₁ h₂ a, h = h₁ ++ h₂ ∧ Runs p h₁ a ∧ Runs (f a) h₂ b := by
  constructor
  · intro hrun
    induction p generalizing h with
    | ret a => exact ⟨[], h, a, rfl, .nil _, hrun⟩
    | call op k ih =>
      cases hrun with
      | cons hk =>
        obtain ⟨h₁, h₂, a, rfl, h1, h2⟩ := ih _ hk
        exact ⟨_ :: h₁, h₂, a, rfl, .cons h1, h2⟩
  · rintro ⟨h₁, h₂, a, rfl, h1, h2⟩
    induction p generalizing h₁ with
    | ret a' =>
      cases h1
      exact h2
    | call op k ih =>
      cases h1 with
      | cons hk => exact .cons (ih _ _ hk)

/-! ## Verifying a program -/

/-- `Sat R G Q h p`: from the history `h`, as long as every answer meets the rely `R`, every call of
`p` meets the guarantee `G`, and `p` can only return where `Q` holds. -/
def Sat (R : List (Event Op Ans) → Event Op Ans → Prop) (G : List (Event Op Ans) → Op → Prop)
    (Q : List (Event Op Ans) → α → Prop) : List (Event Op Ans) → Prog Op Ans α → Prop
  | h, ret a => Q h a
  | h, call op k => G h op ∧ ∀ a, R h ⟨op, a⟩ → Sat R G Q (h ++ [⟨op, a⟩]) (k a)

variable {R : List (Event Op Ans) → Event Op Ans → Prop} {G : List (Event Op Ans) → Op → Prop}

/-- A weaker postcondition is met too. -/
theorem Sat.mono {Q Q' : List (Event Op Ans) → α → Prop} (hQ : ∀ h a, Q h a → Q' h a)
    {p : Prog Op Ans α} {h : List (Event Op Ans)} (hp : Sat R G Q h p) : Sat R G Q' h p := by
  induction p generalizing h with
  | ret a => exact hQ h a hp
  | call op k ih => exact ⟨hp.1, fun a ha => ih a (hp.2 a ha)⟩

/-- A sequence meets what its second part meets where its first part ends. -/
theorem sat_bind {Q : List (Event Op Ans) → β → Prop} {p : Prog Op Ans α} {f : α → Prog Op Ans β}
    {h : List (Event Op Ans)} :
    Sat R G Q h (p.bind f) ↔ Sat R G (fun h a => Sat R G Q h (f a)) h p := by
  induction p generalizing h with
  | ret a => exact Iff.rfl
  | call op k ih =>
    constructor
    · exact fun hp => ⟨hp.1, fun a ha => (ih a).mp (hp.2 a ha)⟩
    · exact fun hp => ⟨hp.1, fun a ha => (ih a).mpr (hp.2 a ha)⟩

/-- A program that is verified under one rely and guarantee is verified under another, when an
invariant of the history turns the one into the other and is kept by every event. -/
theorem Sat.transfer {R' : List (Event Op Ans) → Event Op Ans → Prop}
    {G' : List (Event Op Ans) → Op → Prop} {J : List (Event Op Ans) → Prop}
    {Q : List (Event Op Ans) → α → Prop} (hG : ∀ h op, J h → G' h op → G h op)
    (hR : ∀ h e, J h → G' h e.op → R h e → R' h e ∧ J (h ++ [e])) {p : Prog Op Ans α}
    {h : List (Event Op Ans)} (hp : Sat R' G' Q h p) (hJ : J h) :
    Sat R G (fun h a => Q h a ∧ J h) h p := by
  induction p generalizing h with
  | ret a => exact ⟨hp, hJ⟩
  | call op k ih =>
    refine ⟨hG h op hJ hp.1, fun a ha => ?_⟩
    obtain ⟨ha', hJ'⟩ := hR h ⟨op, a⟩ hJ hp.1 ha
    exact ih a (hp.2 a ha') hJ'

/-- Every program meets the trivial specification. -/
theorem sat_true (p : Prog Op Ans α) (h : List (Event Op Ans)) :
    Sat R (fun _ _ => True) (fun _ _ => True) h p := by
  induction p generalizing h with
  | ret a => trivial
  | call op k ih => exact ⟨trivial, fun a _ => ih a _⟩

/-- Every answer of the events `h'`, after the history `h`, meets the rely. -/
def Relied (R : List (Event Op Ans) → Event Op Ans → Prop) (h h' : List (Event Op Ans)) : Prop :=
  ∀ h₁ e h₂, h' = h₁ ++ e :: h₂ → R (h ++ h₁) e

/-- The rest of a verified program is verified. -/
theorem Steps.sat {Q : List (Event Op Ans) → α → Prop} {p q : Prog Op Ans α}
    {h h' : List (Event Op Ans)} (hs : Steps p h' q) (hp : Sat R G Q h p) (hr : Relied R h h') :
    Sat R G Q (h ++ h') q := by
  induction hs generalizing h with
  | nil => simpa using hp
  | @cons op k a h' q hk ih =>
    have hra : R h ⟨op, a⟩ := by simpa using hr [] ⟨op, a⟩ h' rfl
    have hrest : Relied R (h ++ [⟨op, a⟩]) h' := by
      intro h₁ e h₂ heq
      have := hr (⟨op, a⟩ :: h₁) e h₂ (by rw [heq]; rfl)
      simpa using this
    have := ih (hp.2 a hra) hrest
    simpa using this

/-- Every call of a verified program meets its guarantee. -/
theorem Steps.guarantee {Q : List (Event Op Ans) → α → Prop} {p q : Prog Op Ans α}
    {h h₁ h₂ : List (Event Op Ans)} {e : Event Op Ans} (hs : Steps p (h₁ ++ e :: h₂) q)
    (hp : Sat R G Q h p) (hr : Relied R h h₁) : G (h ++ h₁) e.op := by
  obtain ⟨r, h1, h2⟩ := steps_append.mp hs
  have hsat := h1.sat hp hr
  cases h2 with
  | cons hk => exact hsat.1

/-- A verified program returns only where its postcondition holds. -/
theorem Runs.post {Q : List (Event Op Ans) → α → Prop} {p : Prog Op Ans α}
    {h h' : List (Event Op Ans)} {a : α} (hs : Runs p h' a) (hp : Sat R G Q h p)
    (hr : Relied R h h') : Q (h ++ h') a :=
  Steps.sat hs hp hr

/-- A rely that speaks of single events is met when every event meets it. -/
theorem relied_of_forall {P : Event Op Ans → Prop} {h h' : List (Event Op Ans)}
    (hP : ∀ e ∈ h', P e) : Relied (fun _ => P) h h' := by
  intro h₁ e h₂ heq
  exact hP e (by rw [heq]; simp)

/-- Nothing is relied on when the rely is trivial. -/
theorem relied_true (h h' : List (Event Op Ans)) : Relied (fun _ _ => True) h h' :=
  fun _ _ _ _ => trivial

end Prog

/-! ## More calls -/

section

variable {Op Op' α : Type} {Ans : Op → Type} {Ans' : Op' → Type}

/-- An event of a program, among the events of programs with more calls. -/
def Event.inl (e : Event Op Ans) : Event (Op ⊕ Op') (Sum.elim Ans Ans') := ⟨.inl e.op, e.ans⟩

namespace Prog

/-- A program, among programs with more calls. -/
def inl : Prog Op Ans α → Prog (Op ⊕ Op') (Sum.elim Ans Ans') α
  | ret a => ret a
  | call op k => call (.inl op) fun x => (k x).inl

/-- What a program meets among more calls is what it meets on its own. -/
theorem sat_inl {R : List (Event (Op ⊕ Op') (Sum.elim Ans Ans')) →
      Event (Op ⊕ Op') (Sum.elim Ans Ans') → Prop}
    {G : List (Event (Op ⊕ Op') (Sum.elim Ans Ans')) → Op ⊕ Op' → Prop}
    {Q : List (Event (Op ⊕ Op') (Sum.elim Ans Ans')) → α → Prop} {p : Prog Op Ans α}
    {h : List (Event Op Ans)} :
    Sat R G Q (h.map Event.inl) p.inl ↔
      Sat (fun h e => R (h.map Event.inl) e.inl) (fun h op => G (h.map Event.inl) (.inl op))
        (fun h a => Q (h.map Event.inl) a) h p := by
  induction p generalizing h with
  | ret a => exact Iff.rfl
  | call op k ih =>
    unfold inl Sat
    refine and_congr Iff.rfl (forall_congr' fun a => imp_congr Iff.rfl ?_)
    have hnext := ih (show Ans op from a) (h := h ++ [⟨op, a⟩])
    rw [List.map_append] at hnext
    exact hnext

end Prog

end

/-! ## Methods: state and exceptions -/

/-- A method: it reads and changes a state in `σ`, calls out, and returns or raises. An exception
leaves the state as it was when it was raised. -/
def Act (Op : Type) (Ans : Op → Type) (ε σ α : Type) : Type := σ → Prog Op Ans (Except ε α × σ)

namespace Act

variable {Op : Type} {Ans : Op → Type} {ε σ α β : Type}

instance : Monad (Act Op Ans ε σ) where
  pure a := fun s => .ret (.ok a, s)
  bind m f := fun s => (m s).bind fun
    | (.ok a, s') => f a s'
    | (.error e, s') => .ret (.error e, s')

/-- `raise`. -/
def raise (e : ε) : Act Op Ans ε σ α := fun s => .ret (.error e, s)

/-- The value of a computation that may have raised. -/
def ofExcept (x : Except ε α) : Act Op Ans ε σ α := fun s => .ret (x, s)

/-- The body of a `try`, whose exception is handed to the code that follows. -/
def attempt (m : Act Op Ans ε σ α) : Act Op Ans ε σ (Except ε α) :=
  fun s => (m s).bind fun r => .ret (.ok r.1, r.2)

/-- The state. -/
def get : Act Op Ans ε σ σ := fun s => .ret (.ok s, s)

/-- A change of the state. -/
def modify (f : σ → σ) : Act Op Ans ε σ Unit := fun s => .ret (.ok (), f s)

/-- A call. -/
def perform (op : Op) : Act Op Ans ε σ (Ans op) := fun s => .call op fun a => .ret (.ok a, s)

/-- A method without a state of its own, as part of one that has a state. -/
def lift (m : Act Op Ans ε Unit α) : Act Op Ans ε σ α :=
  fun s => (m ()).bind fun r => .ret (r.1, s)

/-- `Prog.Sat` for a method started in the state `s`. -/
def Sat (R : List (Event Op Ans) → Event Op Ans → Prop) (G : List (Event Op Ans) → Op → Prop)
    (h : List (Event Op Ans)) (s : σ) (m : Act Op Ans ε σ α)
    (Q : List (Event Op Ans) → Except ε α → σ → Prop) : Prop :=
  Prog.Sat R G (fun h r => Q h r.1 r.2) h (m s)

variable {R : List (Event Op Ans) → Event Op Ans → Prop} {G : List (Event Op Ans) → Op → Prop}
  {h : List (Event Op Ans)} {s : σ}

/-- A weaker postcondition is met too. -/
theorem Sat.mono {Q Q' : List (Event Op Ans) → Except ε α → σ → Prop}
    (hQ : ∀ h r s, Q h r s → Q' h r s) {m : Act Op Ans ε σ α} (hm : Sat R G h s m Q) :
    Sat R G h s m Q' :=
  Prog.Sat.mono (Q := fun h (r : Except ε α × σ) => Q h r.1 r.2) (fun h r => hQ h r.1 r.2) hm

/-- `Prog.Sat.transfer` for methods. -/
theorem Sat.transfer {R' : List (Event Op Ans) → Event Op Ans → Prop}
    {G' : List (Event Op Ans) → Op → Prop} {J : List (Event Op Ans) → Prop}
    {Q : List (Event Op Ans) → Except ε α → σ → Prop} (hG : ∀ h op, J h → G' h op → G h op)
    (hR : ∀ h e, J h → G' h e.op → R h e → R' h e ∧ J (h ++ [e])) {m : Act Op Ans ε σ α}
    (hm : Sat R' G' h s m Q) (hJ : J h) : Sat R G h s m fun h r s => Q h r s ∧ J h :=
  Prog.Sat.transfer (Q := fun h (r : Except ε α × σ) => Q h r.1 r.2) hG hR hm hJ

/-- A method only adds events to the history. -/
theorem Sat.extends {Q : List (Event Op Ans) → Except ε α → σ → Prop} {m : Act Op Ans ε σ α}
    (hm : Sat R G h s m Q) : Sat R G h s m fun h' r s => Q h' r s ∧ h <+: h' :=
  hm.transfer (fun _ _ _ hG => hG)
    (fun _ _ hJ _ hR => ⟨hR, hJ.trans (List.prefix_append _ _)⟩) (List.prefix_refl h)

@[simp] theorem sat_pure {Q : List (Event Op Ans) → Except ε α → σ → Prop} {a : α} :
    Sat R G h s (pure a) Q ↔ Q h (.ok a) s := Iff.rfl

@[simp] theorem sat_raise {Q : List (Event Op Ans) → Except ε α → σ → Prop} {e : ε} :
    Sat R G h s (raise e) Q ↔ Q h (.error e) s := Iff.rfl

@[simp] theorem sat_ofExcept {Q : List (Event Op Ans) → Except ε α → σ → Prop} {x : Except ε α} :
    Sat R G h s (ofExcept x) Q ↔ Q h x s := Iff.rfl

@[simp] theorem sat_get {Q : List (Event Op Ans) → Except ε σ → σ → Prop} :
    Sat R G h s get Q ↔ Q h (.ok s) s := Iff.rfl

@[simp] theorem sat_modify {Q : List (Event Op Ans) → Except ε Unit → σ → Prop} {f : σ → σ} :
    Sat R G h s (modify f) Q ↔ Q h (.ok ()) (f s) := Iff.rfl

@[simp] theorem sat_perform {op : Op} {Q : List (Event Op Ans) → Except ε (Ans op) → σ → Prop} :
    Sat R G h s (perform op) Q ↔
      G h op ∧ ∀ a, R h ⟨op, a⟩ → Q (h ++ [⟨op, a⟩]) (.ok a) s := Iff.rfl

@[simp] theorem sat_bind {Q : List (Event Op Ans) → Except ε β → σ → Prop}
    {m : Act Op Ans ε σ α} {f : α → Act Op Ans ε σ β} :
    Sat R G h s (m >>= f) Q ↔
      Sat R G h s m fun h r s => match r with
        | .ok a => Sat R G h s (f a) Q
        | .error e => Q h (.error e) s := by
  refine Prog.sat_bind.trans ?_
  constructor
  all_goals
    refine Prog.Sat.mono fun h r hr => ?_
    obtain ⟨r, s'⟩ := r
    cases r
    all_goals exact hr

@[simp] theorem sat_attempt {Q : List (Event Op Ans) → Except ε (Except ε α) → σ → Prop}
    {m : Act Op Ans ε σ α} :
    Sat R G h s (attempt m) Q ↔ Sat R G h s m fun h r s => Q h (.ok r) s :=
  Prog.sat_bind

@[simp] theorem sat_lift {Q : List (Event Op Ans) → Except ε α → σ → Prop}
    {m : Act Op Ans ε Unit α} :
    Sat R G h s (lift m) Q ↔ Sat R G h () m fun h r _ => Q h r s :=
  Prog.sat_bind

/-- A sequence that returns has run its first part, which returned, and then its second. -/
theorem runs_bind_ok {m : Act Op Ans ε σ α} {f : α → Act Op Ans ε σ β} {s s' : σ} {b : β}
    (hrun : Prog.Runs ((m >>= f) s) h (.ok b, s')) :
    ∃ h₁ h₂ a s₁, h = h₁ ++ h₂ ∧ Prog.Runs (m s) h₁ (.ok a, s₁) ∧
      Prog.Runs (f a s₁) h₂ (.ok b, s') := by
  obtain ⟨h₁, h₂, ⟨r, s₁⟩, rfl, h1, h2⟩ := Prog.runs_bind.mp hrun
  cases r with
  | ok a => exact ⟨h₁, h₂, a, s₁, rfl, h1, h2⟩
  | error e => cases h2

/-- A `try` runs its body, and hands on how that ended. -/
theorem runs_attempt {m : Act Op Ans ε σ α} {s s' : σ} {x : Except ε α}
    (hrun : Prog.Runs (attempt m s) h (.ok x, s')) : Prog.Runs (m s) h (x, s') := by
  obtain ⟨h₁, h₂, r, rfl, h1, h2⟩ := Prog.runs_bind.mp hrun
  cases h2
  rw [List.append_nil]
  exact h1

/-- A call that may raise, whose exception is raised on. -/
def orRaise (m : Act Op Ans ε σ (Except ε α)) : Act Op Ans ε σ α := do
  ofExcept (← m)

@[simp] theorem sat_orRaise {Q : List (Event Op Ans) → Except ε α → σ → Prop}
    {m : Act Op Ans ε σ (Except ε α)} :
    Sat R G h s (orRaise m) Q ↔
      Sat R G h s m fun h r s => match r with
        | .ok x => Q h x s
        | .error e => Q h (.error e) s := by
  unfold orRaise
  rw [sat_bind]
  constructor
  all_goals
    refine Sat.mono fun h r s hr => ?_
    cases r
    all_goals exact hr

end Act

end ControlPlane
