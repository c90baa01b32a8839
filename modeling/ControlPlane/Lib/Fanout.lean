import ControlPlane.Lib.Runs
import Mathlib.Data.Fintype.Defs
import Mathlib.Data.List.Perm.Basic
import Mathlib.Logic.Function.Basic

/-!
# Fan-out to a changing group

Publishers offer their messages to the members of a group. A publisher holds a lock for reading
while it goes round the members, one at a time and in an order of its own, so the rounds of several
publishers may overlap; a member joins or leaves under the same lock for writing. `delivered` says
what a member is offered: of each publisher every message since the member joined, once and in the
order in which they were published.

A `Mailbox` is a queue with a bound. What does not fit in is refused, and what was taken from it is,
with what waits in it, all that was not refused.
-/

namespace ControlPlane.Fanout

open Runs

variable {Member Publisher Msg : Type}

/-! ## The group -/

/-- The members, what they were offered, and the publishers that hold the lock. -/
structure Group (Member Publisher Msg : Type) where
  members : List Member
  /-- What a member was offered since it joined, with the publishers. -/
  log : Member → List (Publisher × Msg)
  /-- The message that a publisher goes round with, and the members it has not come to. -/
  round : Publisher → Option (Msg × List Member)

/-- What happens to a group. -/
inductive GroupStep (Member Publisher Msg : Type) where
  | join (m : Member)
  | leave (m : Member)
  /-- A publisher takes the lock, to come to the members in an order. -/
  | start (p : Publisher) (msg : Msg) (order : List Member)
  | offer (p : Publisher)
  | finish (p : Publisher)

/-- The messages of one publisher, in a list of messages with their publishers. -/
def of [DecidableEq Publisher] (p : Publisher) (log : List (Publisher × Msg)) : List Msg :=
  (log.filter fun e => e.1 = p).map Prod.snd

/-- What a publisher has started to offer in a run. -/
def published [DecidableEq Publisher] (p : Publisher)
    (steps : List (GroupStep Member Publisher Msg)) : List Msg :=
  steps.filterMap fun step => match step with
    | .start q msg _ => if q = p then some msg else none
    | _ => none

/-- What a publisher has started to offer since a member joined. -/
def since [DecidableEq Member] [DecidableEq Publisher] (m : Member) (p : Publisher)
    (steps : List (GroupStep Member Publisher Msg)) : List Msg :=
  steps.foldl (fun msgs step =>
    match step with
    | .join d => if d = m then [] else msgs
    | .start q msg _ => if q = p then msgs ++ [msg] else msgs
    | _ => msgs) []

namespace Group

/-- A group without members. -/
def empty : Group Member Publisher Msg where
  members := []
  log _ := []
  round _ := none

/-- No publisher holds the lock. -/
def Free (g : Group Member Publisher Msg) : Prop := ∀ p, (g.round p).isNone = true

instance [Fintype Publisher] (g : Group Member Publisher Msg) : Decidable g.Free :=
  inferInstanceAs (Decidable (∀ _, _))

theorem Free.round_eq {g : Group Member Publisher Msg} (h : g.Free) (p : Publisher) :
    g.round p = none := Option.isNone_iff_eq_none.mp (h p)

section Round

variable [DecidableEq Publisher]

/-- The group with another round of one publisher. -/
def setRound (g : Group Member Publisher Msg) (p : Publisher) (r : Option (Msg × List Member)) :
    Group Member Publisher Msg :=
  { g with round := Function.update g.round p r }

@[simp] theorem setRound_self (g : Group Member Publisher Msg) (p : Publisher)
    (r : Option (Msg × List Member)) : (g.setRound p r).round p = r := Function.update_self _ _ _

theorem setRound_of_ne {g : Group Member Publisher Msg} {p q : Publisher} (h : q ≠ p)
    (r : Option (Msg × List Member)) : (g.setRound p r).round q = g.round q :=
  Function.update_of_ne h _ _

end Round

variable [DecidableEq Member]

/-- The message that a publisher has not offered to a member yet. -/
def pending (g : Group Member Publisher Msg) (p : Publisher) (m : Member) : List Msg :=
  match g.round p with
  | some (msg, todo) => if m ∈ todo then [msg] else []
  | none => []

theorem pending_of_round {g : Group Member Publisher Msg} {p : Publisher} {msg : Msg}
    {todo : List Member} (h : g.round p = some (msg, todo)) (m : Member) :
    g.pending p m = if m ∈ todo then [msg] else [] := by
  rw [pending, h]

theorem pending_of_none {g : Group Member Publisher Msg} {p : Publisher}
    (h : g.round p = none) (m : Member) : g.pending p m = [] := by
  rw [pending, h]

/-- What a publisher has still to offer depends on its round only. -/
theorem pending_congr {g g' : Group Member Publisher Msg} {p : Publisher}
    (h : g'.round p = g.round p) (m : Member) : g'.pending p m = g.pending p m := by
  rw [pending, h, pending]

/-- The group with one member more, which was offered nothing yet. -/
def add (g : Group Member Publisher Msg) (m : Member) : Group Member Publisher Msg :=
  { g with members := g.members ++ [m], log := Function.update g.log m [] }

/-- The group after a member was offered a message. -/
def record (g : Group Member Publisher Msg) (m : Member) (p : Publisher) (msg : Msg) :
    Group Member Publisher Msg :=
  { g with log := Function.update g.log m (g.log m ++ [(p, msg)]) }

@[simp] theorem add_self (g : Group Member Publisher Msg) (m : Member) : (g.add m).log m = [] :=
  Function.update_self _ _ _

theorem add_of_ne {g : Group Member Publisher Msg} {m d : Member} (h : d ≠ m) :
    (g.add m).log d = g.log d := Function.update_of_ne h _ _

@[simp] theorem record_self (g : Group Member Publisher Msg) (m : Member) (p : Publisher)
    (msg : Msg) : (g.record m p msg).log m = g.log m ++ [(p, msg)] := Function.update_self _ _ _

theorem record_of_ne {g : Group Member Publisher Msg} {m d : Member} (h : d ≠ m) (p : Publisher)
    (msg : Msg) : (g.record m p msg).log d = g.log d := Function.update_of_ne h _ _

variable [DecidableEq Publisher]

theorem pending_setRound_self (g : Group Member Publisher Msg) (p : Publisher) (msg : Msg)
    (todo : List Member) (m : Member) :
    (g.setRound p (some (msg, todo))).pending p m = if m ∈ todo then [msg] else [] :=
  pending_of_round (g.setRound_self p _) m

theorem pending_setRound_of_ne {g : Group Member Publisher Msg} {p q : Publisher} (h : q ≠ p)
    (r : Option (Msg × List Member)) (m : Member) :
    (g.setRound p r).pending q m = g.pending q m := pending_congr (setRound_of_ne h r) m

variable [Fintype Publisher]

/-- One step, where it is possible. -/
def step (g : Group Member Publisher Msg) :
    GroupStep Member Publisher Msg → Option (Group Member Publisher Msg)
  | .join m => if g.Free ∧ m ∉ g.members then some (g.add m) else none
  | .leave m => if g.Free then some { g with members := g.members.erase m } else none
  | .start p msg order =>
    if (g.round p).isNone ∧ order.Perm g.members then
      some (g.setRound p (some (msg, order)))
    else none
  | .offer p =>
    match g.round p with
    | some (msg, m :: rest) => some ((g.record m p msg).setRound p (some (msg, rest)))
    | _ => none
  | .finish p =>
    match g.round p with
    | some (_, []) => some (g.setRound p none)
    | _ => none

end Group

variable [DecidableEq Member] [DecidableEq Publisher]

/-! ## What the members are offered -/

section History

variable {steps : List (GroupStep Member Publisher Msg)}

@[simp] theorem since_join (m d : Member) (p : Publisher) :
    since m p (steps ++ [.join d]) = if d = m then [] else since m p steps := by
  simp [since]

@[simp] theorem since_leave (m d : Member) (p : Publisher) :
    since m p (steps ++ [.leave d]) = since m p steps := by
  simp [since]

@[simp] theorem since_start (m : Member) (p q : Publisher) (msg : Msg) (order : List Member) :
    since m p (steps ++ [.start q msg order]) =
      if q = p then since m p steps ++ [msg] else since m p steps := by
  simp [since]

@[simp] theorem since_offer (m : Member) (p q : Publisher) :
    since m p (steps ++ [.offer q]) = since m p steps := by
  simp [since]

@[simp] theorem since_finish (m : Member) (p q : Publisher) :
    since m p (steps ++ [.finish q]) = since m p steps := by
  simp [since]

/-- What a publisher offers a member is the end of what it has offered. -/
theorem since_suffix (m : Member) (p : Publisher) (steps : List (GroupStep Member Publisher Msg)) :
    since m p steps <:+ published p steps := by
  have hpublished (a : GroupStep Member Publisher Msg) (steps) :
      published p (steps ++ [a]) = published p steps ++ published p [a] := List.filterMap_append
  induction steps using List.reverseRecOn with
  | nil => exact List.suffix_refl []
  | append_singleton steps a ih =>
    rw [hpublished]
    cases a with
    | join d =>
      rw [since_join, show published p [GroupStep.join d] = ([] : List Msg) from rfl,
        List.append_nil]
      split_ifs
      · exact List.nil_suffix
      · exact ih
    | leave d =>
      rw [since_leave]
      exact ih.trans (List.append_nil _ ▸ List.suffix_refl _)
    | start q msg order =>
      rw [since_start]
      by_cases hq : q = p
      · have hone : published p [GroupStep.start q msg order] = [msg] := by simp [published, hq]
        rw [if_pos hq, hone]
        obtain ⟨before, hbefore⟩ := ih
        exact ⟨before, by rw [← List.append_assoc, hbefore]⟩
      · have hnone : published p [GroupStep.start q msg order] = [] := by simp [published, hq]
        rw [if_neg hq, hnone, List.append_nil]
        exact ih
    | offer q =>
      rw [since_offer]
      exact ih.trans (List.append_nil _ ▸ List.suffix_refl _)
    | finish q =>
      rw [since_finish]
      exact ih.trans (List.append_nil _ ▸ List.suffix_refl _)

end History

@[simp] theorem of_append (p : Publisher) (log more : List (Publisher × Msg)) :
    of p (log ++ more) = of p log ++ of p more := by
  simp [of]

theorem of_singleton (p q : Publisher) (msg : Msg) :
    of p [(q, msg)] = if q = p then [msg] else [] := by
  by_cases h : q = p
  · simp [of, h]
  · simp [of, h]

/-- A part of what was offered is, of each publisher, a part of its messages. -/
theorem of_sublist {p : Publisher} {log more : List (Publisher × Msg)} (h : log.Sublist more) :
    (of p log).Sublist (of p more) := (h.filter _).map _

/-- What each step keeps. -/
structure Kept (steps : List (GroupStep Member Publisher Msg))
    (g : Group Member Publisher Msg) : Prop where
  nodup : g.members.Nodup
  /-- A publisher has no one to come to but members, and to each of them once. -/
  todo : ∀ p msg todo, g.round p = some (msg, todo) → todo.Nodup ∧ ∀ m ∈ todo, m ∈ g.members
  delivered : ∀ m ∈ g.members, ∀ p, of p (g.log m) ++ g.pending p m = since m p steps

/-! ## What a step is -/

section Inversion

variable {g g' : Group Member Publisher Msg}

variable [Fintype Publisher]

theorem Group.step_join {m : Member} : g.step (.join m) = some g' ↔
    g.Free ∧ m ∉ g.members ∧ g' = g.add m := by
  dsimp only [Group.step]
  split_ifs with h
  · rw [Option.some_inj, eq_comm, ← and_assoc, and_iff_right h]
  · rw [← and_assoc]
    exact iff_of_false nofun fun h' => h h'.1

theorem Group.step_leave {m : Member} : g.step (.leave m) = some g' ↔
    g.Free ∧ g' = { g with members := g.members.erase m } := by
  dsimp only [Group.step]
  split_ifs with h
  · rw [Option.some_inj, eq_comm, and_iff_right h]
  · exact iff_of_false nofun fun h' => h h'.1

theorem Group.step_start {p : Publisher} {msg : Msg} {order : List Member} :
    g.step (.start p msg order) = some g' ↔ g.round p = none ∧ order.Perm g.members ∧
      g' = g.setRound p (some (msg, order)) := by
  dsimp only [Group.step]
  split_ifs with h
  · have hnone : g.round p = none := Option.isNone_iff_eq_none.mp h.1
    rw [Option.some_inj, eq_comm, and_iff_right hnone, and_iff_right h.2]
  · refine iff_of_false nofun fun ⟨hnone, hperm, _⟩ => h ⟨?_, hperm⟩
    exact Option.isNone_iff_eq_none.mpr hnone

theorem Group.step_offer {p : Publisher} : g.step (.offer p) = some g' ↔
    ∃ msg m rest, g.round p = some (msg, m :: rest) ∧
      g' = (g.record m p msg).setRound p (some (msg, rest)) := by
  dsimp only [Group.step]
  split
  next msg m rest hround =>
    rw [Option.some_inj]
    constructor
    · intro h
      exact ⟨msg, m, rest, hround, h.symm⟩
    · rintro ⟨msg', m', rest', hround', rfl⟩
      simp only [hround, Option.some_inj, Prod.mk.injEq, List.cons.injEq] at hround'
      obtain ⟨rfl, rfl, rfl⟩ := hround'
      rfl
  next hother => exact iff_of_false nofun fun ⟨msg, m, rest, h, _⟩ => hother msg m rest h

theorem Group.step_finish {p : Publisher} : g.step (.finish p) = some g' ↔
    (∃ msg, g.round p = some (msg, [])) ∧ g' = g.setRound p none := by
  dsimp only [Group.step]
  split
  next msg hround => rw [Option.some_inj, eq_comm, and_iff_right ⟨msg, hround⟩]
  next hother => exact iff_of_false nofun fun ⟨⟨msg, h⟩, _⟩ => hother msg h

end Inversion

/-! ## What every run keeps -/

section Runs

variable {steps : List (GroupStep Member Publisher Msg)} {g : Group Member Publisher Msg}

/-- No one is being offered anything while a member joins. -/
theorem Kept.join (h : Kept steps g) (hfree : g.Free) {m : Member} (hm : m ∉ g.members) :
    Kept (steps ++ [.join m]) (g.add m) := by
  refine ⟨?_, fun p msg todo hround => ?_, fun d hd p => ?_⟩
  · exact List.nodup_append.mpr ⟨h.nodup, List.nodup_singleton m, by
      intro a ha b hb hab
      rw [List.mem_singleton.mp hb] at hab
      exact hm (hab ▸ ha)⟩
  · exact absurd (hround.symm.trans (hfree.round_eq p)) nofun
  · have hnone : (g.add m).pending p d = [] := Group.pending_of_none (hfree.round_eq p) d
    rw [since_join, hnone, List.append_nil]
    by_cases hdm : m = d
    · rw [if_pos hdm, ← hdm, Group.add_self]
      rfl
    · have hold : d ∈ g.members := by
        rcases List.mem_append.mp hd with hd | hd
        · exact hd
        · exact absurd (List.mem_singleton.mp hd).symm hdm
      have hlog := h.delivered d hold p
      rw [Group.pending_of_none (hfree.round_eq p), List.append_nil] at hlog
      rw [if_neg hdm, ← hlog, Group.add_of_ne (Ne.symm hdm)]

/-- Another round of a publisher, where it has for each member what was published. -/
theorem Kept.setRound {a : GroupStep Member Publisher Msg} {p : Publisher}
    {r : Option (Msg × List Member)} (h : Kept steps g)
    (htodo : ∀ msg todo, r = some (msg, todo) → todo.Nodup ∧ ∀ m ∈ todo, m ∈ g.members)
    (hself : ∀ m ∈ g.members,
      of p (g.log m) ++ (g.setRound p r).pending p m = since m p (steps ++ [a]))
    (hother : ∀ m q, q ≠ p → since m q (steps ++ [a]) = since m q steps) :
    Kept (steps ++ [a]) (g.setRound p r) := by
  refine ⟨h.nodup, fun q msg todo hround => ?_, fun m hm q => ?_⟩
  · by_cases hqp : q = p
    · subst hqp
      exact htodo msg todo ((g.setRound_self q r).symm.trans hround)
    · exact h.todo q msg todo ((Group.setRound_of_ne hqp r).symm.trans hround)
  · by_cases hqp : q = p
    · subst hqp
      exact hself m hm
    · rw [hother m q hqp, ← h.delivered m hm q, Group.pending_setRound_of_ne hqp]
      rfl

variable [Fintype Publisher]

/-- Each step keeps the invariant. -/
theorem Kept.step {g' : Group Member Publisher Msg} {a : GroupStep Member Publisher Msg}
    (h : Kept steps g) (ha : g.step a = some g') : Kept (steps ++ [a]) g' := by
  cases a with
  | join m =>
    obtain ⟨hfree, hm, rfl⟩ := Group.step_join.mp ha
    exact h.join hfree hm
  | leave m =>
    obtain ⟨hfree, rfl⟩ := Group.step_leave.mp ha
    refine ⟨h.nodup.erase m, fun p msg todo hround => ?_, fun d hd p => ?_⟩
    · exact absurd (hround.symm.trans (hfree.round_eq p)) nofun
    · rw [since_leave]
      exact h.delivered d (List.mem_of_mem_erase hd) p
  | start p msg order =>
    obtain ⟨hnone, hperm, rfl⟩ := Group.step_start.mp ha
    refine h.setRound ?_ (fun m hm => ?_) fun m q hqp => ?_
    · rintro msg' todo ⟨⟩
      exact ⟨hperm.nodup_iff.mpr h.nodup, fun m hm => hperm.mem_iff.mp hm⟩
    · -- The publisher had nothing to offer, and now has the message for each of the members.
      have hbefore := h.delivered m hm p
      rw [Group.pending_of_none hnone, List.append_nil] at hbefore
      rw [since_start, if_pos rfl, ← hbefore, Group.pending_setRound_self,
        if_pos (hperm.mem_iff.mpr hm)]
    · rw [since_start, if_neg (Ne.symm hqp)]
  | offer p =>
    obtain ⟨msg, m, rest, hround, rfl⟩ := Group.step_offer.mp ha
    obtain ⟨hnd, hmem⟩ := h.todo p msg _ hround
    obtain ⟨hm, hrest⟩ := List.nodup_cons.mp hnd
    have hsince (d q) : since d q (steps ++ [GroupStep.offer p]) = since d q steps :=
      since_offer d q p
    refine ⟨h.nodup, fun q msg' todo hq => ?_, fun d hd q => ?_⟩
    · by_cases hqp : q = p
      · subst hqp
        obtain ⟨-, rfl⟩ := Prod.mk.inj (Option.some.inj ((Group.setRound_self _ q _).symm.trans hq))
        exact ⟨hrest, fun d hd => hmem d (List.mem_cons_of_mem m hd)⟩
      · exact h.todo q msg' todo ((Group.setRound_of_ne hqp _).symm.trans hq)
    · rw [hsince, ← h.delivered d hd q]
      by_cases hqp : q = p
      · subst hqp
        rw [Group.pending_setRound_self, Group.pending_of_round hround]
        show of q ((g.record m q msg).log d) ++ _ = _
        by_cases hdm : d = m
        · -- What was pending for the member is what it has been offered.
          subst hdm
          rw [Group.record_self, of_append, of_singleton, if_pos rfl, if_neg hm,
            if_pos List.mem_cons_self, List.append_nil]
        · rw [Group.record_of_ne hdm]
          simp only [List.mem_cons, hdm, false_or]
      · rw [Group.pending_setRound_of_ne hqp]
        show of q ((g.record m p msg).log d) ++ g.pending q d = _
        by_cases hdm : d = m
        · subst hdm
          rw [Group.record_self, of_append, of_singleton, if_neg (Ne.symm hqp), List.append_nil]
        · rw [Group.record_of_ne hdm]
  | finish p =>
    obtain ⟨⟨msg, hround⟩, rfl⟩ := Group.step_finish.mp ha
    refine h.setRound nofun (fun m hm => ?_) fun m q _ => since_finish m q p
    rw [since_finish, ← h.delivered m hm p, Group.pending_of_round hround,
      if_neg List.not_mem_nil, Group.pending_of_none (g.setRound_self p none)]

/-- After every run of a group. -/
theorem kept_of_run (hrun : exec Group.step Group.empty steps = some g) : Kept steps g := by
  have hnil : Kept [] (Group.empty : Group Member Publisher Msg) :=
    ⟨List.nodup_nil, nofun, nofun⟩
  exact invariant (P := fun _ _ => True) hnil (fun _ _ _ _ h _ ha => h.step ha)
    (always_of_forall fun _ _ _ => trivial) hrun

/-- A member is offered every message since it joined, of each publisher in order, but for the one
that the publisher is going round with and has not come to the member with. -/
theorem delivered (hrun : exec Group.step Group.empty steps = some g) {m : Member} (hm : m ∈ g.members)
    (p : Publisher) : of p (g.log m) ++ g.pending p m = since m p steps :=
  (kept_of_run hrun).delivered m hm p

end Runs

/-! ## Queues with a bound -/

/-- A queue with a bound, and everything that came to it, with whether there was room for it. -/
structure Mailbox (capacity : ℕ) (Msg : Type) where
  taken : List Msg
  queue : List Msg
  offers : List (Msg × Bool)
  kept : taken ++ queue = (offers.filter Prod.snd).map Prod.fst
  bounded : queue.length ≤ capacity

namespace Mailbox

variable {capacity : ℕ}

/-- A queue that nothing came to. -/
def empty : Mailbox capacity Msg where
  taken := []
  queue := []
  offers := []
  kept := rfl
  bounded := Nat.zero_le _

/-- A message comes: it is put into the queue when there is room, and is gone otherwise. -/
def offer (b : Mailbox capacity Msg) (msg : Msg) : Mailbox capacity Msg :=
  if h : b.queue.length < capacity then {
    taken := b.taken
    queue := b.queue ++ [msg]
    offers := b.offers ++ [(msg, true)]
    kept := by simp [← b.kept]
    bounded := by
      rw [List.length_append, List.length_singleton]
      omega }
  else { b with
    offers := b.offers ++ [(msg, false)]
    kept := by simp [← b.kept] }

/-- The reader takes the first message. -/
def take (b : Mailbox capacity Msg) : Option (Msg × Mailbox capacity Msg) :=
  match hb : b.queue with
  | [] => none
  | msg :: rest => some (msg, {
      taken := b.taken ++ [msg]
      queue := rest
      offers := b.offers
      kept := by rw [← b.kept, hb, List.append_assoc, List.singleton_append]
      bounded := by
        have h := b.bounded
        rw [hb, List.length_cons] at h
        omega })

@[simp] theorem taken_offer (b : Mailbox capacity Msg) (msg : Msg) :
    (b.offer msg).taken = b.taken := by
  unfold offer
  split <;> rfl

theorem offers_offer (b : Mailbox capacity Msg) (msg : Msg) :
    (b.offer msg).offers = b.offers ++ [(msg, decide (b.queue.length < capacity))] := by
  unfold offer
  split <;> simp_all

theorem take_eq_some {b b' : Mailbox capacity Msg} {msg : Msg} (h : b.take = some (msg, b')) :
    b.queue = msg :: b'.queue ∧ b'.taken = b.taken ++ [msg] ∧ b'.offers = b.offers := by
  unfold take at h
  split at h
  · exact absurd h nofun
  · next head rest hb =>
    obtain ⟨rfl, rfl⟩ := Prod.mk.inj (Option.some.inj h)
    exact ⟨hb, rfl, rfl⟩

/-- What got through is a part of what came. -/
theorem sublist (b : Mailbox capacity Msg) :
    (b.taken ++ b.queue).Sublist (b.offers.map Prod.fst) := by
  rw [b.kept]
  exact List.filter_sublist.map _

/-- Where nothing was refused it is all of it. -/
theorem eq_of_forall {b : Mailbox capacity Msg} (h : ∀ o ∈ b.offers, o.2 = true) :
    b.taken ++ b.queue = b.offers.map Prod.fst := by
  rw [b.kept, List.filter_eq_self.mpr h]

end Mailbox

end ControlPlane.Fanout
