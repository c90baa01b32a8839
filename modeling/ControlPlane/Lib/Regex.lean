import Mathlib.Data.List.Basic
import Mathlib.Tactic.SplitIfs

/-!
# Backtracking patterns

Regular expressions as a backtracking matcher runs them, over any characters and classes of them:
the ways in which a pattern matches at a place are tried in order (`run`), the first of them is the
match, and `sub` puts a text in the place of the matches from left to right.

A text that is put in may be inert for a pattern (`Inert`): no match takes in a part of it, and
what is in front of it and behind it is matched as if the text ended there. The matches in a text
with such markers are those of the pieces between them (`search_joined`, `sub_joined`).
-/

namespace ControlPlane

/-- A pattern, over classes of characters. -/
inductive Rx (κ : Type) where
  /-- The empty text. -/
  | eps
  /-- A character of the class. -/
  | chr (k : κ)
  /-- A word boundary, `\b`. -/
  | boundary
  | seq (a b : Rx κ)
  /-- One or the other, tried in this order. -/
  | alt (a b : Rx κ)
  /-- Any number of characters of the class, as many as possible first. -/
  | star (k : κ)
  deriving DecidableEq

namespace Rx

variable {κ α : Type}

/-! ## Patterns from smaller ones -/

/-- The classes one after the other. -/
def word (ks : List κ) : Rx κ := ks.foldr (fun k r => seq (chr k) r) eps

/-- One of the patterns. -/
def anyOf (first : Rx κ) (rest : List (Rx κ)) : Rx κ :=
  match rest with
  | [] => first
  | r :: rest => alt first (anyOf r rest)

/-- One character of the class at least. -/
def plus (k : κ) : Rx κ := seq (chr k) (star k)

/-- The pattern, or nothing. -/
def opt (r : Rx κ) : Rx κ := alt r eps

/-- The patterns one after the other. -/
def all (rs : List (Rx κ)) : Rx κ := rs.foldr seq eps

/-! ## Matching -/

section

variable (has : κ → α → Bool) (isWord : α → Bool)

/-- Whether a word ends or begins between a place and the text behind it; `before` says whether a
word character is in front of the place. -/
def atBoundary (before : Bool) (s : List α) : Bool := before != s.head?.any isWord

/-- The rests that are left by the ways to take characters of a class, as many as possible first. -/
def starRun (k : κ) : Bool → List α → List (Bool × List α)
  | w, [] => [(w, [])]
  | w, c :: s => if has k c then starRun k (isWord c) s ++ [(w, c :: s)] else [(w, c :: s)]

/-- The ways in which a pattern matches at a place, in the order in which they are tried: what is
left of the text, and whether a word character is in front of that. -/
def run : Rx κ → Bool → List α → List (Bool × List α)
  | eps, w, s => [(w, s)]
  | chr _, _, [] => []
  | chr k, _, c :: s => if has k c then [(isWord c, s)] else []
  | boundary, w, s => if atBoundary isWord w s then [(w, s)] else []
  | seq a b, w, s => (run a w s).flatMap fun x => run b x.1 x.2
  | alt a b, w, s => run a w s ++ run b w s
  | star k, w, s => starRun has isWord k w s

/-- `re.search`, from a place on. -/
def searchFrom (r : Rx κ) : Bool → List α → Bool
  | w, [] => !(run has isWord r w []).isEmpty
  | w, c :: s => !(run has isWord r w (c :: s)).isEmpty || searchFrom r (isWord c) s

/-- `re.search`. -/
def search (r : Rx κ) (s : List α) : Bool := searchFrom has isWord r false s

/-- `re.sub` of a pattern that takes a character at least, from a place on, with so many characters
of the last match to pass over. -/
def subFrom (repl : List α) (r : Rx κ) : Bool → ℕ → List α → List α
  | _, _, [] => []
  | _, n + 1, c :: s => subFrom repl r (isWord c) n s
  | w, 0, c :: s =>
    match run has isWord r w (c :: s) with
    | [] => c :: subFrom repl r (isWord c) 0 s
    | x :: _ => repl ++ subFrom repl r (isWord c) (s.length - x.2.length) s

/-- `re.sub`. -/
def sub (repl : List α) (r : Rx κ) (s : List α) : List α := subFrom has isWord repl r false 0 s

/-- What is left in front of the first match, and between the matches and behind them, from a place
on. -/
def splitFrom (r : Rx κ) : Bool → ℕ → List α → List α × List (List α)
  | _, _, [] => ([], [])
  | _, n + 1, c :: s => splitFrom r (isWord c) n s
  | w, 0, c :: s =>
    match run has isWord r w (c :: s) with
    | [] =>
      let (first, rest) := splitFrom r (isWord c) 0 s
      (c :: first, rest)
    | x :: _ =>
      let (first, rest) := splitFrom r (isWord c) (s.length - x.2.length) s
      ([], first :: rest)

/-- The pieces of a text that the matches of a pattern leave. -/
def split (r : Rx κ) (s : List α) : List (List α) :=
  let (first, rest) := splitFrom has isWord r false 0 s
  first :: rest

end

/-- Pieces with a marker in between. -/
def joined (marker : List α) : List (List α) → List α
  | [] => []
  | f :: fs => f ++ fs.flatMap fun g => marker ++ g

/-! ## Classes in a pattern -/

/-- Every class of the pattern passes. -/
def each (p : κ → Bool) : Rx κ → Bool
  | eps => true
  | boundary => true
  | chr k => p k
  | star k => p k
  | seq a b => each p a && each p b
  | alt a b => each p a && each p b

/-- In every way to match there is a character of a class that passes. -/
def needs (p : κ → Bool) : Rx κ → Bool
  | eps => false
  | boundary => false
  | chr k => p k
  | star _ => false
  | seq a b => needs p a || needs p b
  | alt a b => needs p a && needs p b

section

variable {has : κ → α → Bool} {isWord : α → Bool}

/-- A character, and what comes behind it. -/
theorem run_chr_seq (k : κ) (r : Rx κ) (w : Bool) (c : α) (s : List α) :
    run has isWord (seq (chr k) r) w (c :: s) =
      if has k c then run has isWord r (isWord c) s else [] := by
  cases h : has k c with
  | true => simp [run, h]
  | false => simp [run, h]

/-! ## A place that is not passed -/

/-- A pattern that takes no character of a kind ends in front of one, and does not see beyond it
when it is none of a word. -/
theorem run_append {r : Rx κ} {p : κ → Bool} {b : α} (hr : r.each p = true)
    (hp : ∀ k, p k = true → has k b = false) (hb : isWord b = false) (w : Bool) (f t : List α) :
    run has isWord r w (f ++ b :: t) =
      (run has isWord r w f).map fun x => (x.1, x.2 ++ b :: t) := by
  have hhead (f : List α) : (f ++ b :: t).head?.any isWord = f.head?.any isWord := by
    cases f with
    | nil => simp [hb]
    | cons c f => rfl
  induction r generalizing w f with
  | eps => rfl
  | boundary =>
    have hsame : atBoundary isWord w (f ++ b :: t) = atBoundary isWord w f := by
      unfold atBoundary
      rw [hhead]
    rw [run, run, hsame]
    cases atBoundary isWord w f with
    | true => rfl
    | false => rfl
  | chr k =>
    have hk := hp k hr
    cases f with
    | nil => simp [run, hk]
    | cons c f =>
      simp only [List.cons_append, run]
      split_ifs
      · rfl
      · rfl
  | star k =>
    have hk := hp k hr
    simp only [run]
    induction f generalizing w with
    | nil => simp [starRun, hk]
    | cons c f ih =>
      simp only [List.cons_append, starRun]
      split_ifs
      · rw [ih, List.map_append]
        rfl
      · rfl
  | seq a c iha ihc =>
    obtain ⟨ha, hc⟩ := Bool.and_eq_true_iff.mp hr
    simp only [run, iha ha, List.flatMap_map, List.map_flatMap]
    exact List.flatMap_congr fun x _ => ihc hc x.1 x.2
  | alt a c iha ihc =>
    obtain ⟨ha, hc⟩ := Bool.and_eq_true_iff.mp hr
    simp only [run, iha ha, ihc hc, List.map_append]

/-- What is left of a text is an end of it. -/
theorem suffix_of_mem_run {r : Rx κ} {w : Bool} {s : List α} {x : Bool × List α}
    (hx : x ∈ run has isWord r w s) : x.2 <:+ s := by
  induction r generalizing w s x with
  | eps =>
    obtain rfl := List.mem_singleton.mp hx
    exact List.suffix_refl s
  | boundary =>
    simp only [run] at hx
    split_ifs at hx
    · obtain rfl := List.mem_singleton.mp hx
      exact List.suffix_refl s
    · exact absurd hx List.not_mem_nil
  | chr k =>
    cases s with
    | nil => exact absurd hx List.not_mem_nil
    | cons c s =>
      simp only [run] at hx
      split_ifs at hx
      · rw [List.mem_singleton.mp hx]
        exact List.suffix_cons c s
      · exact absurd hx List.not_mem_nil
  | star k =>
    simp only [run] at hx
    induction s generalizing w with
    | nil =>
      obtain rfl := List.mem_singleton.mp hx
      exact List.suffix_refl []
    | cons c s ih =>
      have hstay (h : x ∈ [(w, c :: s)]) : x.2 <:+ c :: s := by
        obtain rfl := List.mem_singleton.mp h
        exact List.suffix_refl (c :: s)
      simp only [starRun] at hx
      split_ifs at hx
      · rcases List.mem_append.mp hx with hx | hx
        · exact (ih hx).trans (List.suffix_cons c s)
        · exact hstay hx
      · exact hstay hx
  | seq a b iha ihb =>
    obtain ⟨y, hy, hx⟩ := List.mem_flatMap.mp hx
    exact (ihb hx).trans (iha hy)
  | alt a b iha ihb =>
    rcases List.mem_append.mp hx with hx | hx
    · exact iha hx
    · exact ihb hx

/-- A text without a character that the pattern needs is not matched anywhere in it. -/
theorem run_eq_nil {r : Rx κ} {p : κ → Bool} (hr : r.needs p = true) {s : List α}
    (hp : ∀ k, p k = true → ∀ c ∈ s, has k c = false) (w : Bool) : run has isWord r w s = [] := by
  induction r generalizing w s with
  | eps => exact absurd hr Bool.false_ne_true
  | boundary => exact absurd hr Bool.false_ne_true
  | star k => exact absurd hr Bool.false_ne_true
  | chr k =>
    cases s with
    | nil => rfl
    | cons c s => simp [run, hp k hr c List.mem_cons_self]
  | seq a b iha ihb =>
    rw [run]
    rcases Bool.or_eq_true_iff.mp hr with ha | hb
    · rw [iha ha hp]
      rfl
    · rw [List.flatMap_eq_nil_iff]
      intro x hx
      have hsub : ∀ k, p k = true → ∀ c ∈ x.2, has k c = false := fun k hk c hc =>
        hp k hk c ((suffix_of_mem_run hx).subset hc)
      exact ihb hb hsub x.1
  | alt a b iha ihb =>
    obtain ⟨ha, hb⟩ := Bool.and_eq_true_iff.mp hr
    rw [run, iha ha hp, ihb hb hp]
    rfl

/-! ## Inert markers -/

variable (has isWord) in
/-- A marker that a pattern does not touch: a match in front of it ends there, no match begins in
it, and none is empty. -/
structure Inert (marker : List α) (r : Rx κ) : Prop where
  ne_nil : marker ≠ []
  last : ∀ c ∈ marker.getLast?, isWord c = false
  nonempty : ∀ w, run has isWord r w [] = []
  front : ∀ w f t, run has isWord r w (f ++ (marker ++ t)) =
    (run has isWord r w f).map fun x => (x.1, x.2 ++ (marker ++ t))
  inside : ∀ w a b t, marker = a ++ b → a ≠ [] → b ≠ [] → run has isWord r w (b ++ t) = []

namespace Inert

variable {marker : List α} {r : Rx κ} (h : Inert has isWord marker r)
include h

/-- Nothing begins at a marker, or in it. -/
theorem run_end (w : Bool) {a b : List α} (hab : marker = a ++ b) (hb : b ≠ []) (t : List α) :
    run has isWord r w (b ++ t) = [] := by
  by_cases ha : a = []
  · have hwhole : marker = b := by rw [hab, ha, List.nil_append]
    have hfront := h.front w [] t
    rw [h.nonempty w] at hfront
    rw [← hwhole]
    exact hfront
  · exact h.inside w a b t hab ha hb

end Inert

/-- Whether a word character is in front of what follows this text. -/
def wordBehind (isWord : α → Bool) (w : Bool) (s : List α) : Bool :=
  (s.getLast?.map isWord).getD w

theorem wordBehind_cons (w : Bool) (c : α) (s : List α) :
    wordBehind isWord w (c :: s) = wordBehind isWord (isWord c) s := by
  cases s with
  | nil => rfl
  | cons d s => simp [wordBehind, List.getLast?_cons]

theorem wordBehind_append (w : Bool) (s t : List α) :
    wordBehind isWord w (s ++ t) = wordBehind isWord (wordBehind isWord w s) t := by
  induction s generalizing w with
  | nil => rfl
  | cons c s ih => rw [List.cons_append, wordBehind_cons, ih, wordBehind_cons]

theorem Inert.wordBehind {marker : List α} {r : Rx κ} (h : Inert has isWord marker r) (w : Bool) :
    Rx.wordBehind isWord w marker = false := by
  obtain ⟨c, hc⟩ := Option.isSome_iff_exists.mp (List.getLast?_isSome.mpr h.ne_nil)
  unfold Rx.wordBehind
  rw [hc, Option.map_some, Option.getD_some]
  exact h.last c hc

section Marker

variable {marker : List α} {r : Rx κ} (h : Inert has isWord marker r)
include h

/-- A substitution leaves the rest of a marker as it is. -/
theorem subFrom_rest (repl : List α) (w : Bool) {a b : List α} (hab : marker = a ++ b)
    (t : List α) : subFrom has isWord repl r w 0 (b ++ t) =
      b ++ subFrom has isWord repl r (wordBehind isWord w b) 0 t := by
  induction b generalizing a w with
  | nil => rfl
  | cons c b ih =>
    have hnone := h.run_end w hab (List.cons_ne_nil c b) t
    have hrest := ih (isWord c) (hab.trans (List.append_cons a c b))
    rw [List.cons_append] at hnone ⊢
    rw [subFrom, hnone, hrest, wordBehind_cons, List.cons_append]

/-- Nothing is found in the rest of a marker. -/
theorem searchFrom_rest (w : Bool) {a b : List α} (hab : marker = a ++ b) (t : List α) :
    searchFrom has isWord r w (b ++ t) = searchFrom has isWord r (wordBehind isWord w b) t := by
  induction b generalizing a w with
  | nil => rfl
  | cons c b ih =>
    have hnone := h.run_end w hab (List.cons_ne_nil c b) t
    have hrest := ih (isWord c) (hab.trans (List.append_cons a c b))
    rw [List.cons_append] at hnone ⊢
    rw [searchFrom, hnone, hrest, wordBehind_cons]
    rfl

/-- What is in front of a marker and what is behind it are substituted each by itself. -/
theorem subFrom_append (repl : List α) (w : Bool) (n : ℕ) (f t : List α) (hn : n ≤ f.length) :
    subFrom has isWord repl r w n (f ++ (marker ++ t)) =
      subFrom has isWord repl r w n f ++ (marker ++ subFrom has isWord repl r false 0 t) := by
  induction f generalizing w n with
  | nil =>
    obtain rfl : n = 0 := Nat.le_zero.mp hn
    rw [List.nil_append, subFrom_rest h repl w (a := []) rfl, h.wordBehind]
    rfl
  | cons c f ih =>
    cases n with
    | succ n =>
      rw [List.cons_append, subFrom, subFrom]
      exact ih (isWord c) n (Nat.le_of_succ_le_succ hn)
    | zero =>
      have hfront := h.front w (c :: f) t
      rw [List.cons_append] at hfront ⊢
      rw [subFrom, subFrom, hfront]
      cases hrun : run has isWord r w (c :: f) with
      | nil =>
        rw [List.map_nil, ih (isWord c) 0 (Nat.zero_le _)]
        rfl
      | cons x xs =>
        have hskip : (f ++ (marker ++ t)).length - (x.2 ++ (marker ++ t)).length =
            f.length - x.2.length := by
          simp only [List.length_append]
          omega
        rw [List.map_cons]
        simp only [hskip]
        rw [ih (isWord c) _ (Nat.sub_le _ _), List.append_assoc]

/-- A pattern is found in front of a marker, or behind it. -/
theorem searchFrom_append (w : Bool) (f t : List α) :
    searchFrom has isWord r w (f ++ (marker ++ t)) =
      (searchFrom has isWord r w f || searchFrom has isWord r false t) := by
  induction f generalizing w with
  | nil =>
    rw [List.nil_append, searchFrom_rest h w (a := []) rfl, h.wordBehind, searchFrom, h.nonempty]
    rfl
  | cons c f ih =>
    have hfront := h.front w (c :: f) t
    rw [List.cons_append] at hfront ⊢
    rw [searchFrom, searchFrom, hfront, ih, List.isEmpty_map, Bool.or_assoc]

/-- A pattern is found in pieces with markers in between just when it is found in one of them. -/
theorem search_joined (fs : List (List α)) :
    search has isWord r (joined marker fs) = fs.any (search has isWord r) := by
  cases fs with
  | nil =>
    show searchFrom has isWord r false [] = false
    rw [searchFrom, h.nonempty]
    rfl
  | cons f fs =>
    induction fs generalizing f with
    | nil => simp [joined]
    | cons g fs ih =>
      have hjoined : joined marker (f :: g :: fs) = f ++ (marker ++ joined marker (g :: fs)) := by
        simp [joined]
      have hrest := ih g
      unfold search at hrest ⊢
      rw [hjoined, searchFrom_append h, hrest]
      exact List.any_cons.symm

end Marker

/-! ## Matches -/

variable (has isWord) in
/-- The pattern matches this text, in front of a rest. -/
def Takes (r : Rx κ) (w : Bool) (m rest : List α) : Prop :=
  (wordBehind isWord w m, rest) ∈ run has isWord r w (m ++ rest)

theorem Takes.seq {a b : Rx κ} {w : Bool} {m n rest : List α}
    (ha : Takes has isWord a w m (n ++ rest))
    (hb : Takes has isWord b (wordBehind isWord w m) n rest) :
    Takes has isWord (.seq a b) w (m ++ n) rest := by
  unfold Takes at ha hb ⊢
  rw [run, List.append_assoc, wordBehind_append]
  exact List.mem_flatMap.mpr ⟨_, ha, hb⟩

theorem Takes.anyOf {first r : Rx κ} {rs : List (Rx κ)} {w : Bool} {m rest : List α}
    (hr : r ∈ first :: rs) (h : Takes has isWord r w m rest) :
    Takes has isWord (Rx.anyOf first rs) w m rest := by
  induction rs generalizing first with
  | nil =>
    obtain rfl := List.mem_singleton.mp hr
    exact h
  | cons next rs ih =>
    show _ ∈ run has isWord (.alt first (Rx.anyOf next rs)) w (m ++ rest)
    rw [run, List.mem_append]
    rcases List.mem_cons.mp hr with rfl | hr
    · exact .inl h
    · exact .inr (ih hr)

theorem takes_boundary {w : Bool} {rest : List α} (h : atBoundary isWord w rest = true) :
    Takes has isWord .boundary w [] rest := by
  unfold Takes
  rw [List.nil_append, run, if_pos h]
  exact List.mem_singleton.mpr rfl

/-- A word of classes matches a text that has a character of each. -/
theorem takes_word {ks : List κ} {m : List α}
    (h : List.Forall₂ (fun k c => has k c = true) ks m) (w : Bool) (rest : List α) :
    Takes has isWord (word ks) w m rest := by
  induction h generalizing w with
  | nil => exact List.mem_singleton.mpr rfl
  | @cons k c ks m hc _ ih =>
    show _ ∈ run has isWord (.seq (chr k) (word ks)) w (c :: (m ++ rest))
    rw [run_chr_seq, if_pos hc, wordBehind_cons]
    exact ih (isWord c)

theorem takes_plus {k : κ} {m : List α} (hne : m ≠ []) (h : ∀ c ∈ m, has k c = true) (w : Bool)
    (rest : List α) : Takes has isWord (plus k) w m rest := by
  have hstar (m : List α) (h : ∀ c ∈ m, has k c = true) (w : Bool) :
      Takes has isWord (.star k) w m rest := by
    unfold Takes
    rw [run]
    induction m generalizing w with
    | nil =>
      rw [List.nil_append]
      cases rest with
      | nil => exact List.mem_singleton.mpr rfl
      | cons d rest =>
        rw [starRun]
        split_ifs
        · exact List.mem_append_right _ (List.mem_singleton.mpr rfl)
        · exact List.mem_singleton.mpr rfl
    | cons c m ih =>
      rw [List.forall_mem_cons] at h
      rw [List.cons_append, starRun, if_pos h.1, wordBehind_cons]
      exact List.mem_append_left _ (ih h.2 (isWord c))
  obtain ⟨c, m, rfl⟩ := List.exists_cons_of_ne_nil hne
  rw [List.forall_mem_cons] at h
  show _ ∈ run has isWord (.seq (chr k) (.star k)) w (c :: (m ++ rest))
  rw [run_chr_seq, if_pos h.1, wordBehind_cons]
  exact hstar m h.2 (isWord c)

/-- A pattern that matches somewhere is found. -/
theorem search_of_takes {r : Rx κ} {before m rest : List α}
    (h : Takes has isWord r (wordBehind isWord false before) m rest) :
    search has isWord r (before ++ (m ++ rest)) = true := by
  unfold search
  generalize false = w at h
  induction before generalizing w with
  | nil =>
    have hne : run has isWord r w (m ++ rest) ≠ [] := List.ne_nil_of_mem h
    rw [List.nil_append]
    cases hs : m ++ rest with
    | nil => rw [hs] at hne; simp [searchFrom, hne]
    | cons c s => rw [hs] at hne; simp [searchFrom, hne]
  | cons c before ih =>
    rw [wordBehind_cons] at h
    rw [List.cons_append, searchFrom, ih (isWord c) h, Bool.or_true]

/-- A substitution joins the pieces that the matches leave. -/
theorem subFrom_eq_joined (repl : List α) (r : Rx κ) (w : Bool) (n : ℕ) (s : List α) :
    subFrom has isWord repl r w n s = joined repl
      ((splitFrom has isWord r w n s).1 :: (splitFrom has isWord r w n s).2) := by
  induction s generalizing w n with
  | nil => simp [subFrom, splitFrom, joined]
  | cons c s ih =>
    cases n with
    | succ n =>
      rw [subFrom, splitFrom]
      exact ih (isWord c) n
    | zero =>
      rw [subFrom, splitFrom]
      cases run has isWord r w (c :: s) with
      | nil =>
        simp only [ih]
        rfl
      | cons x xs =>
        simp only [ih]
        simp [joined]

theorem sub_eq_joined (repl : List α) (r : Rx κ) (s : List α) :
    sub has isWord repl r s = joined repl (split has isWord r s) :=
  subFrom_eq_joined repl r false 0 s

/-- Pieces of pieces are pieces. -/
theorem joined_flatMap {β : Type} (marker : List α) (f : β → List (List α)) (hf : ∀ b, f b ≠ [])
    (bs : List β) : joined marker (bs.map fun b => joined marker (f b)) =
      joined marker (bs.flatMap f) := by
  have hpiece (b : β) : marker ++ joined marker (f b) = (f b).flatMap fun g => marker ++ g := by
    cases hb : f b with
    | nil => exact absurd hb (hf b)
    | cons p ps => simp [joined]
  have hrest (bs : List β) : (bs.map fun b => joined marker (f b)).flatMap (fun g => marker ++ g) =
      (bs.flatMap f).flatMap fun g => marker ++ g := by
    simp only [List.flatMap_map, List.flatMap_assoc, hpiece]
  cases bs with
  | nil => rfl
  | cons b bs =>
    rw [List.map_cons, joined, hrest, List.flatMap_cons]
    cases hb : f b with
    | nil => exact absurd hb (hf b)
    | cons p ps => simp [joined]

/-- A substitution of an inert marker splits each of the pieces. -/
theorem sub_joined {marker : List α} {r : Rx κ} (h : Inert has isWord marker r)
    (fs : List (List α)) : sub has isWord marker r (joined marker fs) =
      joined marker (fs.flatMap (split has isWord r)) := by
  have hpieces : sub has isWord marker r (joined marker fs) =
      joined marker (fs.map fun f => sub has isWord marker r f) := by
    cases fs with
    | nil => rfl
    | cons f fs =>
      induction fs generalizing f with
      | nil => simp [joined]
      | cons g fs ih =>
        have hjoined (a b : List α) (cs : List (List α)) :
            joined marker (a :: b :: cs) = a ++ (marker ++ joined marker (b :: cs)) := by
          simp [joined]
        have hrest := ih g
        unfold sub at hrest ⊢
        rw [hjoined, subFrom_append h marker false 0 f _ (Nat.zero_le _), hrest]
        simp only [List.map_cons, hjoined]
  have hsplit (f : List α) : sub has isWord marker r f = joined marker (split has isWord r f) :=
    sub_eq_joined marker r f
  simp only [hpieces, hsplit]
  exact joined_flatMap marker (split has isWord r) (fun f => List.cons_ne_nil _ _) fs

/-- Where a pattern is not found, nothing is put in. -/
theorem subFrom_eq_self {repl : List α} {r : Rx κ} {w : Bool} {s : List α}
    (h : searchFrom has isWord r w s = false) : subFrom has isWord repl r w 0 s = s := by
  induction s generalizing w with
  | nil => rfl
  | cons c s ih =>
    rw [searchFrom, Bool.or_eq_false_iff] at h
    obtain ⟨hhere, hrest⟩ := h
    have hnone : run has isWord r w (c :: s) = [] := by simpa using hhere
    rw [subFrom, hnone]
    simp only [ih hrest]

end

end Rx

end ControlPlane
