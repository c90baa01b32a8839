import Mathlib.Data.List.Basic
import Mathlib.Data.List.Induction
import Mathlib.Data.List.Pairwise

/-!
# Dictionaries

A dictionary as the list of its items, in the order in which their keys came in. Two keys are one
when a given test says so, which is an equivalence. What is set last is found (`lookup_ofList`).
-/

namespace ControlPlane.Dict

variable {K V A : Type}

/-- `d[key] = value`: a key that is there keeps its place. -/
def set (same : K → K → Bool) (key : K) (value : V) : List (K × V) → List (K × V)
  | [] => [(key, value)]
  | (k, v) :: rest => if same k key then (k, value) :: rest else (k, v) :: set same key value rest

/-- `d[key]`. -/
def lookup (same : K → K → Bool) (key : K) : List (K × V) → Option V
  | [] => none
  | (k, v) :: rest => if same k key then some v else lookup same key rest

/-- The dictionary of these items. -/
def ofList (same : K → K → Bool) (items : List (K × V)) : List (K × V) :=
  items.foldl (fun d i => set same i.1 i.2 d) []

/-- The values of each key, in the order in which they come in. -/
def group (same : K → K → Bool) (items : List (K × V)) : List (K × List V) :=
  items.foldl (fun d i => set same i.1 ((lookup same i.1 d).getD [] ++ [i.2]) d) []

/-- The values of each key, made one after the other of the value before and of an item. -/
def upsert (same : K → K → Bool) (f : Option V → A → V) (items : List (K × A)) : List (K × V) :=
  items.foldl (fun d i => set same i.1 (f (lookup same i.1 d) i.2) d) []

/-- No two keys are one. -/
def Distinct (same : K → K → Bool) (items : List (K × V)) : Prop :=
  items.Pairwise fun i j => same i.1 j.1 = false

/-- Setting a key to the value that it has changes nothing. -/
theorem set_eq_self {same : K → K → Bool} {key : K} {value : V} {items : List (K × V)}
    (h : lookup same key items = some value) : set same key value items = items := by
  induction items with
  | nil => simp [lookup] at h
  | cons i rest ih =>
    obtain ⟨k, v⟩ := i
    rw [lookup] at h
    rw [set]
    split_ifs at h ⊢ with hk
    · rw [Option.some.inj h]
    · rw [ih h]

/-- What is found is the value of an item with the key. -/
theorem exists_of_lookup {same : K → K → Bool} {items : List (K × V)} {k : K} {v : V}
    (h : lookup same k items = some v) : ∃ i ∈ items, same i.1 k = true ∧ i.2 = v := by
  induction items with
  | nil => cases h
  | cons i rest ih =>
    obtain ⟨l, w⟩ := i
    rw [lookup] at h
    split_ifs at h with hl
    · exact ⟨(l, w), List.mem_cons_self, hl, Option.some.inj h⟩
    · obtain ⟨j, hj, hjk⟩ := ih h
      exact ⟨j, List.mem_cons_of_mem _ hj, hjk⟩

/-- The keys of a dictionary are those that are found. -/
theorem exists_key_iff {same : K → K → Bool} {items : List (K × V)} {k : K} :
    (∃ i ∈ items, same i.1 k = true) ↔ (lookup same k items).isSome = true := by
  induction items with
  | nil => simp [lookup]
  | cons i rest ih =>
    obtain ⟨l, v⟩ := i
    rw [lookup]
    split_ifs with h
    · simp [h]
    · rw [← ih]
      simp [h]

/-- A key whose values get more has them behind the others. -/
theorem perm_flatMap_set (same : K → K → Bool) (key : K) (more : List V) (d : List (K × List V)) :
    ((set same key ((lookup same key d).getD [] ++ more) d).flatMap Prod.snd).Perm
      (d.flatMap Prod.snd ++ more) := by
  induction d with
  | nil => simp [set, lookup]
  | cons i rest ih =>
    obtain ⟨l, v⟩ := i
    rw [set, lookup]
    split_ifs with h
    · show (v ++ more ++ rest.flatMap Prod.snd).Perm (v ++ rest.flatMap Prod.snd ++ more)
      rw [List.append_assoc, List.append_assoc]
      exact List.perm_append_comm.append_left v
    · show (v ++ (set same key ((lookup same key rest).getD [] ++ more) rest).flatMap Prod.snd).Perm
        (v ++ rest.flatMap Prod.snd ++ more)
      rw [List.append_assoc]
      exact ih.append_left v

/-- The groups have the values of the items, each once. -/
theorem perm_group (same : K → K → Bool) (items : List (K × V)) :
    ((group same items).flatMap Prod.snd).Perm (items.map Prod.snd) := by
  unfold group
  induction items using List.reverseRecOn with
  | nil => exact .rfl
  | append_singleton items i ih =>
    rw [List.foldl_append, List.foldl_cons, List.foldl_nil, List.map_append]
    exact (perm_flatMap_set same i.1 [i.2] _).trans (ih.append_right _)

/-- What is made of a value that is there in any case. -/
theorem foldl_getD (step : V → A → V) (init : V) (o : Option V) (l : List A) :
    (l.foldl (fun o a => some (step (o.getD init) a)) o).getD init = l.foldl step (o.getD init) := by
  induction l generalizing o with
  | nil => rfl
  | cons a rest ih =>
    rw [List.foldl_cons, List.foldl_cons, ih, Option.getD_some]

section Same

variable {same : K → K → Bool} (hsame : Equivalence fun k l => same k l = true)
include hsame

theorem same_comm (k l : K) : same k l = same l k := by
  rw [Bool.eq_iff_iff]
  exact ⟨hsame.symm, hsame.symm⟩

/-- Keys that are one have the same value. -/
theorem lookup_congr {k l : K} (h : same k l = true) (items : List (K × V)) :
    lookup same k items = lookup same l items := by
  induction items with
  | nil => rfl
  | cons i rest ih =>
    obtain ⟨j, v⟩ := i
    have hkl : same j k = same j l := by
      rw [Bool.eq_iff_iff]
      exact ⟨fun hj => hsame.trans hj h, fun hj => hsame.trans hj (hsame.symm h)⟩
    rw [lookup, lookup, hkl, ih]

/-- What a key has after another one, or itself, was set. -/
theorem lookup_set (key k : K) (value : V) (items : List (K × V)) :
    lookup same k (set same key value items) =
      if same key k then some value else lookup same k items := by
  induction items with
  | nil => rfl
  | cons i rest ih =>
    obtain ⟨l, v⟩ := i
    rw [set]
    by_cases hl : same l key = true
    · rw [if_pos hl, lookup, lookup]
      have hlk : same l k = same key k := by
        rw [Bool.eq_iff_iff]
        exact ⟨fun h => hsame.trans (hsame.symm hl) h, fun h => hsame.trans hl h⟩
      rw [hlk]
      split_ifs with h
      · rfl
      · rfl
    · rw [if_neg hl, lookup, lookup, ih]
      by_cases hk : same l k = true
      · rw [if_pos hk, if_pos hk, if_neg]
        intro h
        exact hl (hsame.trans hk (hsame.symm h))
      · rw [if_neg hk, if_neg hk]

theorem lookup_foldl (items d : List (K × V)) (k : K) :
    lookup same k (items.foldl (fun d i => set same i.1 i.2 d) d) =
      ((items.filter fun i => same i.1 k).getLast?.map Prod.snd).or (lookup same k d) := by
  induction items using List.reverseRecOn with
  | nil => rfl
  | append_singleton items i ih =>
    rw [List.foldl_append, List.foldl_cons, List.foldl_nil, lookup_set hsame, ih,
      List.filter_append, List.filter_singleton]
    cases h : same i.1 k with
    | true => simp
    | false => simp

/-- The last item with a key is the one that is found. -/
theorem lookup_ofList (items : List (K × V)) (k : K) :
    lookup same k (ofList same items) =
      (items.filter fun i => same i.1 k).getLast?.map Prod.snd := by
  rw [ofList, lookup_foldl hsame]
  simp [lookup]

/-- What is found is the value of an item. -/
theorem exists_of_lookup_ofList {items : List (K × V)} {k : K} {v : V}
    (h : lookup same k (ofList same items) = some v) :
    ∃ i ∈ items, same i.1 k = true ∧ i.2 = v := by
  rw [lookup_ofList hsame, Option.map_eq_some_iff] at h
  obtain ⟨i, hi, rfl⟩ := h
  obtain ⟨hmem, hkey⟩ := List.mem_filter.mp (List.mem_of_getLast? hi)
  exact ⟨i, hmem, hkey, rfl⟩

/-- The key of an item is found. -/
theorem lookup_ofList_isSome {items : List (K × V)} {i : K × V} (hi : i ∈ items) {k : K}
    (hk : same i.1 k = true) : (lookup same k (ofList same items)).isSome = true := by
  have hmem : i ∈ items.filter fun j => same j.1 k := List.mem_filter.mpr ⟨hi, hk⟩
  rw [lookup_ofList hsame, Option.isSome_map, List.getLast?_isSome]
  exact List.ne_nil_of_mem hmem

theorem mem_set {key : K} {value : V} {items : List (K × V)} {i : K × V}
    (h : i ∈ set same key value items) : i ∈ items ∨ i.2 = value ∧ same i.1 key = true := by
  induction items with
  | nil =>
    obtain rfl := List.mem_singleton.mp h
    exact .inr ⟨rfl, hsame.refl _⟩
  | cons j rest ih =>
    obtain ⟨l, v⟩ := j
    rw [set] at h
    split_ifs at h with hl
    · rcases List.mem_cons.mp h with rfl | h
      · exact .inr ⟨rfl, hl⟩
      · exact .inl (List.mem_cons_of_mem _ h)
    · rcases List.mem_cons.mp h with rfl | h
      · exact .inl List.mem_cons_self
      · exact (ih h).imp_left (List.mem_cons_of_mem _)

/-- Setting a key keeps the keys apart. -/
theorem distinct_set {key : K} {value : V} {items : List (K × V)} (h : Distinct same items) :
    Distinct same (set same key value items) := by
  induction items with
  | nil => exact List.pairwise_singleton _ _
  | cons j rest ih =>
    obtain ⟨l, v⟩ := j
    obtain ⟨hhead, hrest⟩ := List.pairwise_cons.mp h
    rw [set]
    split_ifs with hl
    · exact List.pairwise_cons.mpr ⟨hhead, hrest⟩
    · refine List.pairwise_cons.mpr ⟨fun i hi => ?_, ih hrest⟩
      rcases mem_set hsame hi with hi | ⟨-, hkey⟩
      · exact hhead i hi
      · rw [← Bool.not_eq_true]
        exact fun hli => hl (hsame.trans hli hkey)

theorem distinct_ofList (items : List (K × V)) : Distinct same (ofList same items) := by
  unfold ofList
  induction items using List.reverseRecOn with
  | nil => exact List.Pairwise.nil
  | append_singleton items i ih =>
    rw [List.foldl_append, List.foldl_cons, List.foldl_nil]
    exact distinct_set hsame ih

theorem distinct_group (items : List (K × V)) : Distinct same (group same items) := by
  unfold group
  induction items using List.reverseRecOn with
  | nil => exact List.Pairwise.nil
  | append_singleton items i ih =>
    rw [List.foldl_append, List.foldl_cons, List.foldl_nil]
    exact distinct_set hsame ih

/-- A key has the values of its items. -/
theorem lookup_group (items : List (K × V)) (k : K) :
    (lookup same k (group same items)).getD [] =
      (items.filter fun i => same i.1 k).map Prod.snd := by
  unfold group
  induction items using List.reverseRecOn with
  | nil => rfl
  | append_singleton items i ih =>
    rw [List.foldl_append, List.foldl_cons, List.foldl_nil, lookup_set hsame, List.filter_append,
      List.filter_singleton, List.map_append, ← ih]
    cases h : same i.1 k with
    | true => simp [lookup_congr hsame h]
    | false => simp

/-- A key has values exactly when it has an item. -/
theorem lookup_group_isSome (items : List (K × V)) (k : K) :
    (lookup same k (group same items)).isSome = true ↔ ∃ i ∈ items, same i.1 k = true := by
  unfold group
  induction items using List.reverseRecOn with
  | nil => simp [lookup]
  | append_singleton items i ih =>
    rw [List.foldl_append, List.foldl_cons, List.foldl_nil, lookup_set hsame]
    cases h : same i.1 k with
    | true => simp [h]
    | false => simp [h, ih]

/-- What is in a dictionary is found, when its keys are distinct. -/
theorem lookup_of_mem {items : List (K × V)} (h : Distinct same items) {i : K × V}
    (hi : i ∈ items) : lookup same i.1 items = some i.2 := by
  induction items with
  | nil => exact absurd hi List.not_mem_nil
  | cons j rest ih =>
    obtain ⟨hhead, hrest⟩ := List.pairwise_cons.mp h
    rw [lookup]
    rcases List.mem_cons.mp hi with rfl | hi
    · rw [if_pos (hsame.refl _)]
    · rw [if_neg (by rw [hhead i hi]; exact Bool.false_ne_true), ih hrest hi]

/-- Setting different keys changes nothing just when each has its value already. -/
theorem foldl_set_eq_self_iff {items : List (K × V)} (h : Distinct same items) (d : List (K × V)) :
    items.foldl (fun d i => set same i.1 i.2 d) d = d ↔
      ∀ i ∈ items, lookup same i.1 d = some i.2 := by
  constructor
  · intro heq i hi
    have hfound := lookup_foldl hsame items d i.1
    rw [heq] at hfound
    have hmem : i ∈ items.filter fun j => same j.1 i.1 :=
      List.mem_filter.mpr ⟨hi, hsame.refl _⟩
    obtain ⟨j, hj⟩ : ∃ j, (items.filter fun j => same j.1 i.1).getLast? = some j :=
      Option.isSome_iff_exists.mp (List.getLast?_isSome.mpr (List.ne_nil_of_mem hmem))
    obtain ⟨hjmem, hkey⟩ := List.mem_filter.mp (List.mem_of_getLast? hj)
    have hsymm : Std.Symm fun i j : K × V => same i.1 j.1 = false :=
      ⟨fun i j hij => by rw [same_comm hsame, hij]⟩
    have hji : j = i := by
      by_contra hne
      have hfalse : same j.1 i.1 = false := List.Pairwise.forall h hjmem hi hne
      rw [hfalse] at hkey
      simp at hkey
    rw [hfound, hj, hji]
    rfl
  · intro hall
    induction items with
    | nil => rfl
    | cons i rest ih =>
      have hrest : Distinct same rest := (List.pairwise_cons.mp h).2
      rw [List.foldl_cons, set_eq_self (hall i List.mem_cons_self)]
      exact ih hrest fun j hj => hall j (List.mem_cons_of_mem i hj)

/-- An item of a dictionary has the key of an item, and the value of one with this key. -/
theorem exists_of_mem_ofList {items : List (K × V)} {i : K × V} (hi : i ∈ ofList same items) :
    (∃ j ∈ items, j.1 = i.1) ∧ ∃ j ∈ items, same i.1 j.1 = true ∧ j.2 = i.2 := by
  unfold ofList at hi
  induction items using List.reverseRecOn generalizing i with
  | nil => exact absurd hi List.not_mem_nil
  | append_singleton items last ih =>
    rw [List.foldl_append, List.foldl_cons, List.foldl_nil] at hi
    have hkey : ∀ (d : List (K × V)) (j : K × V), j ∈ set same last.1 last.2 d →
        j.1 = last.1 ∨ ∃ l ∈ d, l.1 = j.1 := by
      intro d
      induction d with
      | nil =>
        intro j hj
        rw [List.mem_singleton.mp hj]
        exact .inl rfl
      | cons l rest ihd =>
        intro j hj
        obtain ⟨k, v⟩ := l
        rw [set] at hj
        split_ifs at hj with hl
        · rcases List.mem_cons.mp hj with rfl | hj
          · exact .inr ⟨_, List.mem_cons_self, rfl⟩
          · exact .inr ⟨j, List.mem_cons_of_mem _ hj, rfl⟩
        · rcases List.mem_cons.mp hj with rfl | hj
          · exact .inr ⟨_, List.mem_cons_self, rfl⟩
          · rcases ihd j hj with h | ⟨l, hl, h⟩
            · exact .inl h
            · exact .inr ⟨l, List.mem_cons_of_mem _ hl, h⟩
    constructor
    · rcases hkey _ i hi with h | ⟨l, hl, h⟩
      · exact ⟨last, by simp, h.symm⟩
      · obtain ⟨⟨j, hj, hjl⟩, -⟩ := ih hl
        exact ⟨j, List.mem_append_left _ hj, hjl.trans h⟩
    · rcases mem_set hsame hi with hi | ⟨hvalue, hsame'⟩
      · obtain ⟨-, j, hj, hij⟩ := ih hi
        exact ⟨j, List.mem_append_left _ hj, hij⟩
      · exact ⟨last, by simp, hsame', hvalue.symm⟩

/-- What is found is the value of the item with the key, when the keys are distinct. -/
theorem lookup_eq_some_iff {items : List (K × V)} (h : Distinct same items) {k : K} {v : V} :
    lookup same k items = some v ↔ ∃ i ∈ items, same i.1 k = true ∧ i.2 = v := by
  constructor
  · intro hk
    have hsome : (lookup same k items).isSome = true := by rw [hk]; rfl
    obtain ⟨i, hi, hik⟩ := exists_key_iff.mpr hsome
    have hlookup := (lookup_congr hsame hik items).symm.trans (lookup_of_mem hsame h hi)
    exact ⟨i, hi, hik, Option.some.inj (hlookup.symm.trans hk)⟩
  · rintro ⟨i, hi, hik, rfl⟩
    rw [← lookup_congr hsame hik]
    exact lookup_of_mem hsame h hi

theorem Distinct.perm {d e : List (K × V)} (h : Distinct same d) (hp : d.Perm e) :
    Distinct same e :=
  (hp.pairwise_iff fun {i j} hij => by rwa [same_comm hsame]).mp h

/-- The order of the items does not matter. -/
theorem lookup_perm {d e : List (K × V)} (h : Distinct same d) (hp : d.Perm e) (k : K) :
    lookup same k d = lookup same k e := by
  ext v
  rw [lookup_eq_some_iff hsame h, lookup_eq_some_iff hsame (h.perm hsame hp)]
  simp only [hp.mem_iff]

theorem lookup_ofList_of_distinct {items : List (K × V)} (h : Distinct same items) (k : K) :
    lookup same k (ofList same items) = lookup same k items := by
  ext v
  rw [lookup_eq_some_iff hsame h, lookup_eq_some_iff hsame (distinct_ofList hsame items)]
  constructor
  · rintro ⟨i, hi, hik, rfl⟩
    obtain ⟨-, j, hj, hij, hv⟩ := exists_of_mem_ofList hsame hi
    exact ⟨j, hj, hsame.trans (hsame.symm hij) hik, hv⟩
  · rintro ⟨i, hi, hik, rfl⟩
    obtain ⟨v, hv⟩ := Option.isSome_iff_exists.mp (lookup_ofList_isSome hsame hi (hsame.refl i.1))
    obtain ⟨j, hj, hji, rfl⟩ :=
      (lookup_eq_some_iff hsame (distinct_ofList hsame items)).mp hv
    obtain ⟨-, l, hl, hjl, hvl⟩ := exists_of_mem_ofList hsame hj
    -- The item with this key is the one of the list.
    have hil : lookup same i.1 items = lookup same l.1 items :=
      lookup_congr hsame (hsame.trans (hsame.symm hji) hjl) items
    rw [lookup_of_mem hsame h hi, lookup_of_mem hsame h hl] at hil
    exact ⟨j, hj, hsame.trans hji hik, hvl.symm.trans (Option.some.inj hil).symm⟩

/-- Items of a dictionary with one key are one. -/
theorem eq_of_same {items : List (K × V)} (h : Distinct same items) {i j : K × V} (hi : i ∈ items)
    (hj : j ∈ items) (hij : same i.1 j.1 = true) : i = j := by
  by_contra hne
  have hsymm : Std.Symm fun i j : K × V => same i.1 j.1 = false := by
    refine ⟨fun i j hij => ?_⟩
    rwa [same_comm hsame]
  have hapart : same i.1 j.1 = false := List.Pairwise.forall h hi hj hne
  rw [hij] at hapart
  exact Bool.noConfusion hapart

/-- A key has what its own items make. -/
theorem lookup_upsert (f : Option V → A → V) (items : List (K × A)) (k : K) :
    lookup same k (upsert same f items) =
      ((items.filter fun i => same i.1 k).map Prod.snd).foldl (fun o a => some (f o a)) none := by
  unfold upsert
  induction items using List.reverseRecOn with
  | nil => rfl
  | append_singleton items i ih =>
    rw [List.foldl_append, List.foldl_cons, List.foldl_nil, lookup_set hsame, List.filter_append,
      List.filter_singleton]
    cases h : same i.1 k with
    | true =>
      rw [lookup_congr hsame h, ih]
      simp
    | false =>
      rw [ih]
      simp

theorem distinct_upsert (f : Option V → A → V) (items : List (K × A)) :
    Distinct same (upsert same f items) := by
  unfold upsert
  induction items using List.reverseRecOn with
  | nil => exact List.Pairwise.nil
  | append_singleton items i ih =>
    rw [List.foldl_append, List.foldl_cons, List.foldl_nil]
    exact distinct_set hsame ih

end Same

section Beq

variable [BEq K] [LawfulBEq K]

theorem beq_equivalence : Equivalence fun k l : K => (k == l) = true where
  refl k := beq_self_eq_true k
  symm h := by rw [eq_of_beq h, beq_self_eq_true]
  trans h h' := by rw [eq_of_beq h, h']

/-- Dictionaries that find the same have the same items. -/
theorem perm_of_lookup {d e : List (K × V)} (hd : Distinct (· == ·) d) (he : Distinct (· == ·) e)
    (h : ∀ k, lookup (· == ·) k d = lookup (· == ·) k e) : d.Perm e := by
  have hnodup {l : List (K × V)} (hl : Distinct (· == ·) l) : l.Nodup := by
    refine hl.imp fun {i j} hij heq => ?_
    have hkey : (i.1 == j.1) = true := by rw [heq, beq_self_eq_true]
    exact Bool.noConfusion (hij.symm.trans hkey)
  have hmem {l : List (K × V)} (hl : Distinct (· == ·) l) (i : K × V) :
      i ∈ l ↔ lookup (· == ·) i.1 l = some i.2 := by
    rw [lookup_eq_some_iff beq_equivalence hl]
    constructor
    · intro hi
      exact ⟨i, hi, beq_self_eq_true _, rfl⟩
    · rintro ⟨j, hj, hkey, hvalue⟩
      have hji : j = i := Prod.ext (eq_of_beq hkey) hvalue
      exact hji ▸ hj
  rw [List.perm_ext_iff_of_nodup (hnodup hd) (hnodup he)]
  intro i
  rw [hmem hd, hmem he, h]

end Beq

end ControlPlane.Dict
