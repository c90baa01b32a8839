import Mathlib.Data.List.Infix
import Mathlib.Tactic.Common

/-!
# Receiving frames in pieces

A stream is a sequence of frames, each of which ends with a delimiter, and it arrives in pieces that
need not agree with the frames. `splitOnce` cuts a buffer at the first delimiter. A receiver keeps
what it has not read in a buffer, and looks at the buffer once for each piece that arrives: it waits
for more, or takes one message out of the buffer. What such a receiver reads is all of the stream
exactly when the pieces are paced: from every point between two pieces on, the frames that are not
complete by then are at most as many as the pieces that are still to come (`receive_iff_paced`).
-/

namespace ControlPlane.Receiver

variable {α : Type} [DecidableEq α]

/-! ## Cutting at a delimiter -/

/-- `s.split(sep, 1)` for a separator that is not empty, with `none` when `sep` is not in `s`. -/
def splitOnce (sep : List α) : List α → Option (List α × List α)
  | [] => none
  | c :: s =>
    if sep <+: c :: s then some ([], (c :: s).drop sep.length)
    else (splitOnce sep s).map fun r => (c :: r.1, r.2)

/-- A frame is whole when its first delimiter is its end. -/
def Whole (sep frame : List α) : Prop := ∃ body, splitOnce sep frame = some (body, [])

/-- What is cut is the text before the separator and the text after it. -/
theorem eq_of_splitOnce {sep s a b : List α} (h : splitOnce sep s = some (a, b)) :
    s = a ++ sep ++ b := by
  induction s generalizing a with
  | nil => simp [splitOnce] at h
  | cons c s ih =>
    rw [splitOnce] at h
    split_ifs at h with hsep
    · -- The separator is at the front, and `t` is what follows it.
      obtain ⟨rfl, rfl⟩ := Prod.mk.inj (Option.some.inj h)
      obtain ⟨t, ht⟩ := hsep
      simp [← ht]
    · obtain ⟨⟨a', b'⟩, hr, he⟩ := Option.map_eq_some_iff.mp h
      obtain ⟨rfl, rfl⟩ := Prod.mk.inj he
      rw [ih hr]
      simp

/-- Nothing is cut exactly when the separator does not occur. -/
theorem splitOnce_eq_none_iff {sep : List α} (hsep : sep ≠ []) (s : List α) :
    splitOnce sep s = none ↔ ¬ sep <:+: s := by
  induction s with
  | nil => simp [splitOnce, hsep]
  | cons c s ih =>
    rw [splitOnce, List.infix_cons_iff, not_or]
    split_ifs with h
    · simp [h]
    · simp [h, ih]

/-- What follows the first separator does not move it. -/
theorem splitOnce_append {sep s a b : List α} (h : splitOnce sep s = some (a, b)) (t : List α) :
    splitOnce sep (s ++ t) = some (a, b ++ t) := by
  induction s generalizing a with
  | nil => simp [splitOnce] at h
  | cons c s ih =>
    rw [splitOnce] at h
    rw [List.cons_append, splitOnce]
    split_ifs at h with hsep
    · obtain ⟨rfl, rfl⟩ := Prod.mk.inj (Option.some.inj h)
      have hlen : sep.length ≤ (c :: s).length := hsep.length_le
      have hpre : sep <+: c :: (s ++ t) := hsep.trans ⟨t, by simp⟩
      rw [if_pos hpre, ← List.cons_append, List.drop_append_of_le_length hlen]
    · obtain ⟨⟨a', b'⟩, hr, he⟩ := Option.map_eq_some_iff.mp h
      obtain ⟨rfl, rfl⟩ := Prod.mk.inj he
      -- The separator is inside `s`, so one at the front of the longer text would be in `c :: s`.
      have hpre : ¬ sep <+: c :: (s ++ t) := by
        intro hp
        refine hsep (List.prefix_of_prefix_length_le hp ⟨t, by simp⟩ ?_)
        have hl := congrArg List.length (eq_of_splitOnce hr)
        simp only [List.length_append, List.length_cons] at hl ⊢
        omega
      rw [if_neg hpre, ih hr]
      rfl

/-- No proper part of a whole frame from its start on holds the delimiter. -/
theorem Whole.splitOnce_eq_none {sep frame part : List α} (h : Whole sep frame)
    (hpart : part <+: frame) (hne : part ≠ frame) : splitOnce sep part = none := by
  obtain ⟨body, hbody⟩ := h
  obtain ⟨t, rfl⟩ := hpart
  cases hs : splitOnce sep part with
  | none => rfl
  | some r =>
    -- A delimiter in the part would be the first one of the frame, with the rest of it behind.
    rw [splitOnce_append (a := r.1) (b := r.2) hs] at hbody
    have ht : r.2 ++ t = [] := (Prod.mk.inj (Option.some.inj hbody)).2
    exact absurd (by simp [(List.append_eq_nil_iff.mp ht).2]) hne

theorem Whole.ne_nil {sep frame : List α} (h : Whole sep frame) : frame ≠ [] := by
  rintro rfl
  obtain ⟨body, hbody⟩ := h
  simp [splitOnce] at hbody

/-! ## What has arrived -/

/-- The frames that are not complete in the data that has arrived, and the part of the first of
them that is there. -/
def unread : List (List α) → List α → List (List α) × List α
  | [], data => ([], data)
  | f :: fs, data => if f <+: data then unread fs (data.drop f.length) else (f :: fs, data)

/-- From every point between two pieces on, the frames that are not complete by then are at most as
many as the pieces that are still to come. -/
def Paced (frames pieces : List (List α)) : Prop :=
  ∀ before after, pieces = before ++ after →
    (unread frames before.flatten).1.length ≤ after.length

/-- No point between two pieces leaves an unfinished frame that is not clear. -/
def ClearCuts (Clear : List α → Prop) (frames pieces : List (List α)) : Prop :=
  ∀ before after, pieces = before ++ after → Clear (unread frames before.flatten).2

/-- What holds at every point between two pieces holds for every number of pieces before it. -/
theorem forall_append_iff_forall_take {β : Type} {P : List β → List β → Prop} {pieces : List β} :
    (∀ before after, pieces = before ++ after → P before after) ↔
      ∀ k < pieces.length + 1, P (pieces.take k) (pieces.drop k) := by
  constructor
  · exact fun h k _ => h _ _ (List.take_append_drop k pieces).symm
  · rintro h before after rfl
    have hk := h before.length (by rw [List.length_append]; omega)
    rwa [List.take_left, List.drop_left] at hk

instance (frames pieces : List (List α)) : Decidable (Paced frames pieces) :=
  decidable_of_iff _ forall_append_iff_forall_take.symm

instance (Clear : List α → Prop) [DecidablePred Clear] (frames pieces : List (List α)) :
    Decidable (ClearCuts Clear frames pieces) :=
  decidable_of_iff _ (forall_append_iff_forall_take
    (P := fun before _ => Clear (unread frames before.flatten).2)).symm

/-- A frame that has arrived is complete. -/
theorem unread_cons_append (f : List α) (fs : List (List α)) (data : List α) :
    unread (f :: fs) (f ++ data) = unread fs data := by
  simp [unread]

/-- There are no more frames to read than there are frames. -/
theorem length_unread_le (fs : List (List α)) (data : List α) :
    (unread fs data).1.length ≤ fs.length := by
  induction fs generalizing data with
  | nil => simp [unread]
  | cons f fs ih =>
    rw [unread]
    split_ifs
    · exact (ih _).trans (Nat.le_succ _)
    · exact le_rfl

/-! ## The receiver -/

/-- What a receiver finds in its buffer: nothing yet; a message, with the mode it goes on in and
the rest of the buffer; or something that it never returns from. -/
inductive Look (σ α M : Type) where
  | wait
  | take (message : M) (mode : σ) (rest : List α)
  | stuck

variable {σ M : Type} (look : σ → List α → Look σ α M)

/-- The messages that a receiver reads from the pieces, and its mode and its buffer after them. -/
def receive : σ → List α → List (List α) → List M × σ × List α
  | mode, buffer, [] => ([], mode, buffer)
  | mode, buffer, piece :: pieces =>
    match look mode (buffer ++ piece) with
    | .wait => receive mode (buffer ++ piece) pieces
    | .take m mode' rest => ((m :: (receive mode' rest pieces).1), (receive mode' rest pieces).2)
    | .stuck => ([], mode, buffer ++ piece)

/-- The receiver reads the messages off the frames, one after the other: it takes the message out of
a complete frame, whatever follows it, and waits while an unfinished frame is clear. -/
inductive Reads (Clear : List α → Prop) : σ → List (List α) → List M → Prop
  | nil (mode : σ) : Reads Clear mode [] []
  | cons {mode mode' : σ} {f : List α} {m : M} {fs : List (List α)} {ms : List M} (hne : f ≠ [])
      (htake : ∀ rest, look mode (f ++ rest) = .take m mode' rest)
      (hwait : ∀ part, part <+: f → part ≠ f → Clear part → look mode part = .wait)
      (hrest : Reads Clear mode' fs ms) : Reads Clear mode (f :: fs) (m :: ms)

/-- The pacing that is left when some of the stream is in the buffer. The frames that are complete in
the buffer have to be read too, so that the frames are at most as many as the pieces. -/
def PacedFrom (frames : List (List α)) (buffer : List α) (pieces : List (List α)) : Prop :=
  frames.length ≤ pieces.length ∧ ∀ before after, pieces = before ++ after → before ≠ [] →
    (unread frames (buffer ++ before.flatten)).1.length ≤ after.length

/-- A piece that completes the first frame leaves the pacing of the other frames. -/
theorem pacedFrom_cons_of_eq {f : List α} {fs : List (List α)} {buffer piece rest : List α}
    (pieces : List (List α)) (h : buffer ++ piece = f ++ rest) :
    PacedFrom (f :: fs) buffer (piece :: pieces) ↔ PacedFrom fs rest pieces := by
  have hdata (before : List (List α)) : unread (f :: fs) (buffer ++ (piece :: before).flatten) =
      unread fs (rest ++ before.flatten) := by
    rw [List.flatten_cons, ← List.append_assoc, h, List.append_assoc, unread_cons_append]
  constructor
  · rintro ⟨hlen, hcut⟩
    refine ⟨Nat.le_of_succ_le_succ hlen, fun before after he _ => ?_⟩
    have hle := hcut (piece :: before) after (by rw [he]; rfl) (List.cons_ne_nil _ _)
    rwa [hdata] at hle
  · rintro ⟨hlen, hcut⟩
    refine ⟨Nat.succ_le_succ hlen, fun before after he hne => ?_⟩
    -- The points after the first piece are those of the other pieces, and the one right after it.
    obtain ⟨p, before, rfl⟩ := List.exists_cons_of_ne_nil hne
    rw [List.cons_append] at he
    obtain ⟨rfl, rfl⟩ := List.cons.inj he
    rw [hdata]
    by_cases hb : before = []
    · rw [hb, List.nil_append] at hlen
      exact (length_unread_le _ _).trans hlen
    · exact hcut before after rfl hb

/-- A piece that completes no frame has to leave as many pieces as there are frames. -/
theorem pacedFrom_cons_of_not {f : List α} {fs : List (List α)} {buffer piece : List α}
    (pieces : List (List α)) (h : ¬ f <+: buffer ++ piece) :
    PacedFrom (f :: fs) buffer (piece :: pieces) ↔
      PacedFrom (f :: fs) (buffer ++ piece) pieces := by
  have hdata (before : List (List α)) : buffer ++ (piece :: before).flatten =
      buffer ++ piece ++ before.flatten := by
    rw [List.flatten_cons, List.append_assoc]
  have hnone : (unread (f :: fs) (buffer ++ piece ++ [].flatten)).1 = f :: fs := by
    simp [unread, h]
  constructor
  · rintro ⟨-, hcut⟩
    constructor
    · -- Right after this piece, every frame is still to be read.
      have hle := hcut [piece] pieces rfl (List.cons_ne_nil _ _)
      rwa [hdata, hnone] at hle
    · intro before after he _
      have hle := hcut (piece :: before) after (by rw [he]; rfl) (List.cons_ne_nil _ _)
      rwa [hdata] at hle
  · rintro ⟨hlen, hcut⟩
    refine ⟨hlen.trans (Nat.le_succ _), fun before after he hne => ?_⟩
    obtain ⟨p, before, rfl⟩ := List.exists_cons_of_ne_nil hne
    rw [List.cons_append] at he
    obtain ⟨rfl, rfl⟩ := List.cons.inj he
    rw [hdata]
    by_cases hb : before = []
    · rw [hb, hnone]
      rwa [hb, List.nil_append] at hlen
    · exact hcut before after rfl hb

variable {look}

/-- The receiver reads all that is left of the stream exactly when what is left is paced. -/
theorem receive_iff_pacedFrom {Clear : List α → Prop} {mode : σ} {fs : List (List α)}
    {ms : List M} (hreads : Reads look Clear mode fs ms) {buffer : List α}
    {pieces : List (List α)} (hne : ∀ p ∈ pieces, p ≠ [])
    (hstream : buffer ++ pieces.flatten = fs.flatten)
    (hclear : ∀ before after, pieces = before ++ after → before ≠ [] →
      Clear (unread fs (buffer ++ before.flatten)).2) :
    ((receive look mode buffer pieces).1 = ms ∧ (receive look mode buffer pieces).2.2 = []) ↔
      PacedFrom fs buffer pieces := by
  induction pieces generalizing mode fs ms buffer with
  | nil =>
    -- Nothing more comes: what is in the buffer has to be nothing.
    cases hreads with
    | nil =>
      have hb : buffer = [] := by simpa using hstream
      simp [receive, PacedFrom, hb, unread]
    | cons => simp [receive, PacedFrom]
  | cons piece pieces ih =>
    cases hreads with
    | nil =>
      have hp : piece = [] := by
        rw [List.flatten_nil, List.flatten_cons] at hstream
        exact (List.append_eq_nil_iff.mp (List.append_eq_nil_iff.mp hstream).2).1
      exact absurd hp (hne piece List.mem_cons_self)
    | @cons _ mode' f m fs ms hf htake hwait hrest =>
      have hne' : ∀ p ∈ pieces, p ≠ [] := fun p hp => hne p (List.mem_cons_of_mem _ hp)
      have hassoc : buffer ++ piece ++ pieces.flatten = f ++ fs.flatten := by
        rw [List.append_assoc, ← List.flatten_cons, hstream, List.flatten_cons]
      by_cases hpre : f <+: buffer ++ piece
      · -- The frame is complete: its message is taken, and the rest stays in the buffer.
        obtain ⟨rest, hfr⟩ := hpre
        have hstream' : rest ++ pieces.flatten = fs.flatten := by
          rw [← hfr, List.append_assoc] at hassoc
          exact List.append_cancel_left hassoc
        have hstep : receive look mode buffer (piece :: pieces) =
            (m :: (receive look mode' rest pieces).1, (receive look mode' rest pieces).2) := by
          simp only [receive, ← hfr, htake]
        rw [hstep, pacedFrom_cons_of_eq pieces hfr.symm, ← ih hrest hne' hstream' ?_]
        · simp
        · intro before after he hb
          have hc := hclear (piece :: before) after (by rw [he]; rfl) (List.cons_ne_nil _ _)
          rwa [List.flatten_cons, ← List.append_assoc, ← hfr, List.append_assoc,
            unread_cons_append] at hc
      · -- The frame is not complete, so that all there is in the buffer is a part of it.
        have hpart : buffer ++ piece <+: f := by
          rcases List.prefix_or_prefix_of_prefix (⟨_, hassoc⟩ : buffer ++ piece <+: f ++ fs.flatten)
            (List.prefix_append f fs.flatten) with h | h
          · exact h
          · exact absurd h hpre
        have hproper : buffer ++ piece ≠ f := by
          intro h
          exact hpre (h ▸ List.prefix_rfl)
        have hcl : Clear (buffer ++ piece) := by
          have hc := hclear [piece] pieces rfl (List.cons_ne_nil _ _)
          simpa [unread, hpre] using hc
        have hstep : receive look mode buffer (piece :: pieces) =
            receive look mode (buffer ++ piece) pieces := by
          simp only [receive, hwait _ hpart hproper hcl]
        rw [hstep, pacedFrom_cons_of_not pieces hpre]
        refine ih (.cons hf htake hwait hrest) hne' ?_ ?_
        · rw [hassoc, List.flatten_cons]
        · intro before after he hb
          have hc := hclear (piece :: before) after (by rw [he]; rfl) (List.cons_ne_nil _ _)
          rwa [List.flatten_cons, ← List.append_assoc] at hc

/-- A receiver that starts with an empty buffer reads every message, in order, and leaves nothing,
exactly when the pieces are paced. -/
theorem receive_iff_paced {Clear : List α → Prop} {mode : σ} {fs : List (List α)} {ms : List M}
    (hreads : Reads look Clear mode fs ms) {pieces : List (List α)} (hne : ∀ p ∈ pieces, p ≠ [])
    (hstream : pieces.flatten = fs.flatten) (hclear : ClearCuts Clear fs pieces) :
    ((receive look mode [] pieces).1 = ms ∧ (receive look mode [] pieces).2.2 = []) ↔
      Paced fs pieces := by
  rw [receive_iff_pacedFrom hreads hne hstream fun before after he _ => hclear before after he]
  -- With nothing in the buffer, the point before the first piece is one like the others.
  have hstart : (unread fs []).1 = fs := by
    cases hreads with
    | nil => rfl
    | cons hf => simp [unread, hf]
  constructor
  · rintro ⟨hlen, hcut⟩ before after he
    by_cases hb : before = []
    · rw [hb, List.flatten_nil, hstart]
      rwa [he, hb, List.nil_append] at hlen
    · exact hcut before after he hb
  · intro hpaced
    constructor
    · have hle := hpaced [] pieces rfl
      rwa [List.flatten_nil, hstart] at hle
    · exact fun before after he _ => hpaced before after he

end ControlPlane.Receiver
