import Mathlib.Data.Finset.Max
import Mathlib.Data.Prod.Lex

/-!
# Sorted sets

The greatest elements of a finite set, and the sorted sets of Redis: members with a score each, in
the order of the scores and, where two are equal, of the members. A set that is cut down to its
`n` greatest elements after each change has at any time the `n` greatest of all that it would have
without the cuts, as long as elements go from the bottom and only move up: `greatest_filter` is the
rule for the first, `greatest_replace` for the second.
-/

namespace ControlPlane

/-! ## The greatest elements -/

section Greatest

variable {A : Type} [LinearOrder A]

/-- The `n` greatest elements: those with fewer than `n` greater ones. -/
def greatest (n : ℕ) (X : Finset A) : Finset A := X.filter fun e => (X.filter (e < ·)).card < n

theorem mem_greatest {n : ℕ} {X : Finset A} {e : A} :
    e ∈ greatest n X ↔ e ∈ X ∧ (X.filter (e < ·)).card < n := Finset.mem_filter

theorem greatest_subset (n : ℕ) (X : Finset A) : greatest n X ⊆ X := Finset.filter_subset _ _

/-- There are at most `n` of them. -/
theorem card_greatest_le (n : ℕ) (X : Finset A) : (greatest n X).card ≤ n := by
  by_cases hne : (greatest n X).Nonempty
  · -- The smallest of them has all others above it.
    obtain ⟨e, he, hmin⟩ := (greatest n X).exists_min_image id hne
    have hrest : (greatest n X).erase e ⊆ X.filter (e < ·) := by
      intro e' he'
      obtain ⟨hne', he'⟩ := Finset.mem_erase.mp he'
      exact Finset.mem_filter.mpr
        ⟨greatest_subset n X he', lt_of_le_of_ne (hmin e' he') (Ne.symm hne')⟩
    have hcard := Finset.card_le_card hrest
    have hlt := (mem_greatest.mp he).2
    rw [Finset.card_erase_of_mem he] at hcard
    omega
  · rw [Finset.not_nonempty_iff_eq_empty.mp hne]
    exact Nat.zero_le n

/-- A part of a set that has its greatest elements has the same greatest elements. -/
theorem greatest_of_between {n : ℕ} {X Y : Finset A} (hXY : greatest n X ⊆ Y) (hYX : Y ⊆ X) :
    greatest n Y = greatest n X := by
  ext e
  constructor
  · intro he
    obtain ⟨heY, hlt⟩ := mem_greatest.mp he
    refine mem_greatest.mpr ⟨hYX heY, ?_⟩
    by_cases hall : X.filter (e < ·) ⊆ Y
    · refine lt_of_le_of_lt (Finset.card_le_card fun e' he' => ?_) hlt
      exact Finset.mem_filter.mpr ⟨hall he', (Finset.mem_filter.mp he').2⟩
    · -- Above the greatest one that is missing there are `n` elements, and all are in the part.
      exfalso
      obtain ⟨w, hw, hwY⟩ := Finset.not_subset.mp hall
      obtain ⟨z, hz, hmax⟩ := ((X.filter (e < ·)).filter (· ∉ Y)).exists_max_image id
        ⟨w, Finset.mem_filter.mpr ⟨hw, hwY⟩⟩
      obtain ⟨hz, hzY⟩ := Finset.mem_filter.mp hz
      obtain ⟨hzX, hez⟩ := Finset.mem_filter.mp hz
      have hmany : n ≤ (X.filter (z < ·)).card := by
        by_contra hfew
        exact hzY (hXY (mem_greatest.mpr ⟨hzX, not_le.mp hfew⟩))
      have habove : X.filter (z < ·) ⊆ Y.filter (e < ·) := by
        intro y hy
        obtain ⟨hyX, hzy⟩ := Finset.mem_filter.mp hy
        have hey := lt_trans hez hzy
        refine Finset.mem_filter.mpr ⟨?_, hey⟩
        by_contra hyY
        have hle := hmax y (Finset.mem_filter.mpr ⟨Finset.mem_filter.mpr ⟨hyX, hey⟩, hyY⟩)
        exact absurd hzy (not_lt.mpr hle)
      have hcard := Finset.card_le_card habove
      omega
  · intro he
    obtain ⟨heX, hlt⟩ := mem_greatest.mp he
    refine mem_greatest.mpr ⟨hXY he, lt_of_le_of_lt (Finset.card_le_card ?_) hlt⟩
    exact Finset.filter_subset_filter _ hYX

theorem greatest_greatest (n : ℕ) (X : Finset A) : greatest n (greatest n X) = greatest n X :=
  greatest_of_between (Finset.Subset.refl _) (greatest_subset n X)

/-- The greatest elements of an upper part are the upper part of the greatest elements. -/
theorem greatest_filter {p : A → Prop} [DecidablePred p] (hp : ∀ e e', e ≤ e' → p e → p e') (n : ℕ)
    (X : Finset A) : greatest n (X.filter p) = (greatest n X).filter p := by
  ext e
  rw [mem_greatest, Finset.mem_filter, Finset.mem_filter, mem_greatest, and_right_comm]
  refine and_congr_left fun he => ?_
  have hsame : (X.filter p).filter (e < ·) = X.filter (e < ·) := by
    ext e'
    simp only [Finset.mem_filter]
    constructor
    · rintro ⟨⟨hX, -⟩, hlt⟩
      exact ⟨hX, hlt⟩
    · rintro ⟨hX, hlt⟩
      exact ⟨⟨hX, hp e e' hlt.le he⟩, hlt⟩
  rw [hsame]

/-- An element that takes the place of at most one below it can be put to the greatest elements, as
well as to all of them. -/
theorem greatest_replace [DecidableEq A] {old : A → Prop} [DecidablePred old] {n : ℕ}
    {X : Finset A} {x : A}
    (hone : ∀ e ∈ X, ∀ e' ∈ X, old e → old e' → e = e') (hle : ∀ e ∈ X, old e → e ≤ x)
    (hx : x ∈ X → old x) :
    greatest n (insert x ((greatest n X).filter (¬ old ·))) =
      greatest n (insert x (X.filter (¬ old ·))) := by
  refine greatest_of_between ?_ ?_
  · intro e he
    obtain ⟨he, hlt⟩ := mem_greatest.mp he
    rcases Finset.mem_insert.mp he with rfl | he
    · exact Finset.mem_insert_self _ _
    · obtain ⟨heX, hold⟩ := Finset.mem_filter.mp he
      refine Finset.mem_insert_of_mem (Finset.mem_filter.mpr ⟨mem_greatest.mpr ⟨heX, ?_⟩, hold⟩)
      refine lt_of_le_of_lt ?_ hlt
      -- Above `e` the new element stands where the old one was.
      refine Finset.card_le_card_of_injOn (fun e' => if old e' then x else e') ?_ ?_
      · intro e' he'
        obtain ⟨he'X, hee'⟩ := Finset.mem_filter.mp he'
        dsimp only
        by_cases hold' : old e'
        · rw [if_pos hold']
          exact Finset.mem_filter.mpr
            ⟨Finset.mem_insert_self _ _, lt_of_lt_of_le hee' (hle e' he'X hold')⟩
        · rw [if_neg hold']
          exact Finset.mem_filter.mpr
            ⟨Finset.mem_insert_of_mem (Finset.mem_filter.mpr ⟨he'X, hold'⟩), hee'⟩
      · intro y hy z hz hyz
        have hyX := (Finset.mem_filter.mp hy).1
        have hzX := (Finset.mem_filter.mp hz).1
        by_cases hoy : old y
        · by_cases hoz : old z
          · exact hone y hyX z hzX hoy hoz
          · simp only [if_pos hoy, if_neg hoz] at hyz
            exact absurd (hyz ▸ hx (hyz ▸ hzX)) hoz
        · by_cases hoz : old z
          · simp only [if_neg hoy, if_pos hoz] at hyz
            exact absurd (hyz ▸ hx (hyz ▸ hyX)) hoy
          · simpa only [if_neg hoy, if_neg hoz] using hyz
  · exact Finset.insert_subset_insert _ (Finset.filter_subset_filter _ (greatest_subset n X))

end Greatest

/-! ## Sorted sets -/

/-- A sorted set of Redis: its entries, each a score and a member, by score and member. -/
structure SortedSet (Score Member : Type) [LinearOrder Score] [LinearOrder Member] where
  entries : Finset (Score ×ₗ Member)
  unique : ∀ e ∈ entries, ∀ e' ∈ entries, (ofLex e).2 = (ofLex e').2 → e = e'

namespace SortedSet

variable {Score Member : Type} [LinearOrder Score] [LinearOrder Member]

/-- The empty set. -/
def empty : SortedSet Score Member where
  entries := ∅
  unique _ he := absurd he (Finset.notMem_empty _)

/-- The set of those entries that meet a condition. -/
def keep (p : Score ×ₗ Member → Prop) [DecidablePred p] (s : SortedSet Score Member) :
    SortedSet Score Member where
  entries := s.entries.filter p
  unique e he e' he' := s.unique e (Finset.filter_subset _ _ he) e' (Finset.filter_subset _ _ he')

/-- `ZADD` of one member: one that is there gets the new score. -/
def zadd (score : Score) (member : Member) (s : SortedSet Score Member) :
    SortedSet Score Member where
  entries := insert (toLex (score, member)) (s.entries.filter fun e => ¬ (ofLex e).2 = member)
  unique e he e' he' heq := by
    rcases Finset.mem_insert.mp he with rfl | he
    · rcases Finset.mem_insert.mp he' with rfl | he'
      · rfl
      · exact absurd heq.symm (Finset.mem_filter.mp he').2
    · rcases Finset.mem_insert.mp he' with rfl | he'
      · exact absurd heq (Finset.mem_filter.mp he).2
      · exact s.unique e (Finset.mem_filter.mp he).1 e' (Finset.mem_filter.mp he').1 heq

theorem entries_zadd (score : Score) (member : Member) (s : SortedSet Score Member)
    [DecidableEq (Score ×ₗ Member)]
    [DecidablePred fun e : Score ×ₗ Member => ¬ (ofLex e).2 = member] :
    (s.zadd score member).entries =
      insert (toLex (score, member)) (s.entries.filter fun e => ¬ (ofLex e).2 = member) := by
  ext e
  rw [zadd]
  simp only [Finset.mem_insert, Finset.mem_filter]

/-- `ZREMRANGEBYSCORE` from `-inf` to a score. -/
def zremrangebyscore (cutoff : Score) (s : SortedSet Score Member) : SortedSet Score Member :=
  s.keep fun e => cutoff < (ofLex e).1

/-- The rank of an entry, from the lowest one on. -/
def rank (s : SortedSet Score Member) (e : Score ×ₗ Member) : ℕ := (s.entries.filter (· < e)).card

/-- The rank that an index stands for; a negative one counts from the highest entry. -/
def index (s : SortedSet Score Member) (i : ℤ) : ℤ := if i < 0 then i + s.entries.card else i

/-- `ZREMRANGEBYRANK`. -/
def zremrangebyrank (start stop : ℤ) (s : SortedSet Score Member) : SortedSet Score Member :=
  s.keep fun e => ¬ (s.index start ≤ s.rank e ∧ s.rank e ≤ s.index stop)

/-- The entries of a set are one, those below one of them, and those above. -/
theorem card_eq_rank (s : SortedSet Score Member) {e : Score ×ₗ Member} (he : e ∈ s.entries) :
    s.entries.card = s.rank e + 1 + (s.entries.filter (e < ·)).card := by
  have hsplit := Finset.card_filter_add_card_filter_not (s := s.entries) (· < e)
  have hupper : s.entries.filter (¬ · < e) = insert e (s.entries.filter (e < ·)) := by
    ext e'
    simp only [Finset.mem_filter, Finset.mem_insert, not_lt]
    constructor
    · rintro ⟨hmem, hle⟩
      rcases eq_or_lt_of_le hle with rfl | hlt
      · exact .inl rfl
      · exact .inr ⟨hmem, hlt⟩
    · rintro (rfl | ⟨hmem, hlt⟩)
      · exact ⟨he, le_rfl⟩
      · exact ⟨hmem, hlt.le⟩
  rw [hupper, Finset.card_insert_of_notMem (by simp)] at hsplit
  rw [rank]
  omega

/-- Removing all ranks but the last `n` leaves the `n` greatest entries. -/
theorem zremrangebyrank_cap (n : ℕ) (s : SortedSet Score Member) :
    (s.zremrangebyrank 0 (-n - 1)).entries = greatest n s.entries := by
  ext e
  rw [zremrangebyrank, keep, Finset.mem_filter, mem_greatest]
  refine and_congr_right fun he => ?_
  have hcard := s.card_eq_rank he
  have hstop : s.index (-n - 1) = -n - 1 + s.entries.card := if_pos (by omega)
  have hstart : s.index 0 = 0 := if_neg (lt_irrefl 0)
  rw [hstop, hstart, hcard]
  push_cast
  omega

end SortedSet

end ControlPlane
