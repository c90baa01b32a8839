import ControlPlane.Lib.Binary64
import ControlPlane.Lib.JsonScan
import Mathlib.Data.List.Lex
import Mathlib.Data.List.Sort
import Mathlib.Data.List.Nodup

/-!
# Decoding to generic values, and encoding again

A decoder without a schema holds a number as a `binary64`, a text as Unicode with U+FFFD for what is
none, and an object as a dictionary, whose members are encoded in the order of their keys. What
comes out is the value that went in, up to the order of members, just when the numbers are the
decimals that their floating point numbers are printed as, the texts are Unicode and no key comes
twice (`recode_eq_canon_iff`).
-/

namespace ControlPlane.JsonScan

/-! ## Dictionaries in the order of their keys -/

section Dictionaries

variable {K V : Type} [LinearOrder K]

/-- `d[key] = value`. -/
def insertKey (k : K) (v : V) : List (K × V) → List (K × V)
  | [] => [(k, v)]
  | m :: d =>
    if k < m.1 then (k, v) :: m :: d else if k = m.1 then (k, v) :: d else m :: insertKey k v d

/-- The dictionary of these members, of which a later one replaces an earlier one. -/
def dictOf (members : List (K × V)) : List (K × V) :=
  members.foldl (fun d m => insertKey m.1 m.2 d) []

/-- The value of a key, the last one where it comes twice. -/
def member (k : K) : List (K × V) → Option V
  | [] => none
  | m :: members => (member k members).or (if m.1 = k then some m.2 else none)

/-- The members in the order of their keys. -/
def sortKeys (members : List (K × V)) : List (K × V) :=
  members.insertionSort fun a b => a.1 ≤ b.1

theorem mem_insertKey {k : K} {v : V} {d : List (K × V)} {m : K × V} (h : m ∈ insertKey k v d) :
    m = (k, v) ∨ m ∈ d := by
  induction d with
  | nil => exact .inl (List.mem_singleton.mp h)
  | cons n d ih =>
    rw [insertKey] at h
    split_ifs at h with hlt heq
    · exact List.mem_cons.mp h
    · rcases List.mem_cons.mp h with rfl | hd
      · exact .inl rfl
      · exact .inr (List.mem_cons_of_mem n hd)
    · rcases List.mem_cons.mp h with rfl | hd
      · exact .inr List.mem_cons_self
      · exact (ih hd).imp_right (List.mem_cons_of_mem n)

theorem pairwise_insertKey (k : K) (v : V) {d : List (K × V)}
    (hd : d.Pairwise fun a b => a.1 < b.1) :
    (insertKey k v d).Pairwise fun a b => a.1 < b.1 := by
  induction d with
  | nil => exact List.pairwise_singleton _ _
  | cons n d ih =>
    obtain ⟨hn, hd⟩ := List.pairwise_cons.mp hd
    rw [insertKey]
    split_ifs with hlt heq
    · refine List.pairwise_cons.mpr ⟨fun m hm => ?_, List.pairwise_cons.mpr ⟨hn, hd⟩⟩
      rcases List.mem_cons.mp hm with rfl | hm
      · exact hlt
      · exact hlt.trans (hn m hm)
    · exact List.pairwise_cons.mpr ⟨fun m hm => heq ▸ hn m hm, hd⟩
    · refine List.pairwise_cons.mpr ⟨fun m hm => ?_, ih hd⟩
      rcases mem_insertKey hm with rfl | hm
      · exact lt_of_le_of_ne (not_lt.mp hlt) fun h => heq h.symm
      · exact hn m hm

/-- A new key adds a member. -/
theorem insertKey_perm {k : K} (v : V) {d : List (K × V)} (hk : k ∉ d.map Prod.fst) :
    (insertKey k v d).Perm ((k, v) :: d) := by
  induction d with
  | nil => exact List.Perm.refl _
  | cons n d ih =>
    rw [List.map_cons, List.mem_cons, not_or] at hk
    rw [insertKey, if_neg hk.1]
    split_ifs with hlt
    · exact List.Perm.refl _
    · exact ((ih hk.2).cons n).trans (List.Perm.swap _ _ d)

/-- The last value of a key counts. -/
theorem insertKey_insertKey_same (k : K) (v w : V) (d : List (K × V)) :
    insertKey k v (insertKey k w d) = insertKey k v d := by
  induction d with
  | nil => simp [insertKey]
  | cons n d ih =>
    rw [insertKey]
    split_ifs with hlt heq
    · simp [insertKey, hlt]
    · simp [insertKey, heq]
    · rw [insertKey, if_neg hlt, if_neg heq, ih, insertKey, if_neg hlt, if_neg heq]

/-- The order in which two keys are set does not count. -/
theorem insertKey_comm {k l : K} (hne : k ≠ l) (v w : V) (d : List (K × V)) :
    insertKey k v (insertKey l w d) = insertKey l w (insertKey k v d) := by
  induction d with
  | nil => grind [insertKey]
  | cons n d ih => grind [insertKey]

/-- What is in the dictionary after some members have been set. -/
theorem mem_foldl_insertKey {members d : List (K × V)} {m : K × V}
    (h : m ∈ members.foldl (fun d m => insertKey m.1 m.2 d) d) : m ∈ d ∨ m ∈ members := by
  induction members generalizing d with
  | nil => exact .inl h
  | cons n members ih =>
    rw [List.foldl_cons] at h
    rcases ih h with h | h
    · exact (mem_insertKey h).elim (fun h => .inr (h ▸ List.mem_cons_self)) .inl
    · exact .inr (List.mem_cons_of_mem n h)

theorem mem_of_mem_dictOf {members : List (K × V)} {m : K × V} (h : m ∈ dictOf members) :
    m ∈ members :=
  (mem_foldl_insertKey h).resolve_left List.not_mem_nil

theorem pairwise_dictOf (members : List (K × V)) :
    (dictOf members).Pairwise fun a b => a.1 < b.1 := by
  have hfold (d : List (K × V)) (hd : d.Pairwise fun a b => a.1 < b.1) :
      (members.foldl (fun d m => insertKey m.1 m.2 d) d).Pairwise fun a b => a.1 < b.1 := by
    induction members generalizing d with
    | nil => exact hd
    | cons n members ih => exact ih _ (pairwise_insertKey n.1 n.2 hd)
  exact hfold [] List.Pairwise.nil

theorem nodup_keys_dictOf (members : List (K × V)) : ((dictOf members).map Prod.fst).Nodup := by
  rw [List.nodup_iff_pairwise_ne, List.pairwise_map]
  exact (pairwise_dictOf members).imp fun h => h.ne

/-- Members with different keys are all in the dictionary. -/
theorem foldl_insertKey_perm {members d : List (K × V)}
    (h : ((members ++ d).map Prod.fst).Nodup) :
    (members.foldl (fun d m => insertKey m.1 m.2 d) d).Perm (members ++ d) := by
  induction members generalizing d with
  | nil => exact List.Perm.refl _
  | cons n members ih =>
    have hmiddle : (members ++ n :: d).Perm (n :: (members ++ d)) := List.perm_middle
    have hnodup : ((members ++ n :: d).map Prod.fst).Nodup := (hmiddle.map _).nodup_iff.mpr h
    have hnew : n.1 ∉ d.map Prod.fst := fun hmem => by
      rw [List.cons_append, List.map_cons, List.nodup_cons, List.map_append] at h
      exact h.1 (List.mem_append_right _ hmem)
    have hinsert : (members ++ insertKey n.1 n.2 d).Perm (members ++ n :: d) :=
      (insertKey_perm n.2 hnew).append_left members
    have hrest := ih ((hinsert.map _).nodup_iff.mpr hnodup)
    exact (hrest.trans hinsert).trans hmiddle

/-- Members with different keys are the dictionary when they are sorted. -/
theorem dictOf_eq_sortKeys {members : List (K × V)} (h : (members.map Prod.fst).Nodup) :
    dictOf members = sortKeys members := by
  have hperm : (dictOf members).Perm (sortKeys members) := by
    have hdict : (dictOf members).Perm members := by
      have hfold := @foldl_insertKey_perm K V _ members [] (by rwa [List.append_nil])
      rwa [List.append_nil] at hfold
    exact hdict.trans (List.perm_insertionSort _ members).symm
  refine List.Perm.eq_of_pairwise (fun a b ha hb hab hba => ?_)
    ((pairwise_dictOf members).imp fun h => h.le) (List.pairwise_insertionSort _ members) hperm
  -- Two members with the same key are the same one.
  have hb : b ∈ members := (List.perm_insertionSort _ members).mem_iff.mp hb
  exact List.inj_on_of_nodup_map h (mem_of_mem_dictOf ha) hb (le_antisymm hab hba)

theorem member_eq_none {k : K} {members : List (K × V)} (h : ∀ m ∈ members, m.1 ≠ k) :
    member k members = none := by
  induction members with
  | nil => rfl
  | cons m members ih =>
    rw [List.forall_mem_cons] at h
    rw [member, ih h.2, if_neg h.1]
    rfl

theorem mem_of_member {k : K} {v : V} {members : List (K × V)} (h : member k members = some v) :
    (k, v) ∈ members := by
  induction members with
  | nil => exact absurd h (Option.some_ne_none v).symm
  | cons m members ih =>
    rw [member, Option.or_eq_some_iff] at h
    rcases h with h | ⟨-, h⟩
    · exact List.mem_cons_of_mem m (ih h)
    · split_ifs at h with hk
      obtain rfl := hk
      obtain rfl := Option.some.inj h
      exact List.mem_cons_self

/-- A dictionary has the value that has been set. -/
theorem member_insertKey (k l : K) (v : V) {d : List (K × V)}
    (hd : d.Pairwise fun a b => a.1 < b.1) :
    member k (insertKey l v d) = if l = k then some v else member k d := by
  induction d with
  | nil => rfl
  | cons n d ih =>
    obtain ⟨hn, hd⟩ := List.pairwise_cons.mp hd
    -- Behind a key that is smaller than all the others it does not come again.
    have hbehind (hlt : k ≤ n.1) : member k d = none :=
      member_eq_none fun m hm => (hlt.trans_lt (hn m hm)).ne'
    rw [insertKey]
    split_ifs with hlt heq heq hk hk
    · subst heq
      rw [member, member, hbehind hlt.le, if_neg hlt.ne', if_pos rfl]
      rfl
    · rw [member, if_neg heq, Option.or_none]
    · subst hk
      rw [member, hbehind heq.le, if_pos rfl]
      rfl
    · rw [member, member, if_neg hk, if_neg fun h => hk (heq.trans h)]
    · rw [member, ih hd, if_pos hk]
      rfl
    · rw [member, ih hd, if_neg hk, member]

/-- The members of a dictionary are the last ones of its keys. -/
theorem member_dictOf (k : K) (members : List (K × V)) :
    member k (dictOf members) = member k members := by
  have hfold (d : List (K × V)) (hd : d.Pairwise fun a b => a.1 < b.1) :
      member k (members.foldl (fun d m => insertKey m.1 m.2 d) d) =
        (member k members).or (member k d) := by
    induction members generalizing d with
    | nil => rfl
    | cons n members ih =>
      rw [List.foldl_cons, ih _ (pairwise_insertKey n.1 n.2 hd), member_insertKey k n.1 n.2 hd,
        member, Option.or_assoc]
      congr 1
      split_ifs <;> rfl
  have h := hfold [] List.Pairwise.nil
  rwa [show member k ([] : List (K × V)) = none from rfl, Option.or_none] at h

/-- A key that is set last is as good as set first, with no other value for it. -/
theorem insertKey_dictOf {k : K} {p : K × V → Bool} (hp : ∀ m, p m = true ↔ m.1 ≠ k) (v : V)
    (members : List (K × V)) :
    insertKey k v (dictOf members) = dictOf ((k, v) :: members.filter p) := by
  have hfold (d : List (K × V)) :
      insertKey k v (members.foldl (fun d m => insertKey m.1 m.2 d) d) =
        (members.filter p).foldl (fun d m => insertKey m.1 m.2 d) (insertKey k v d) := by
    induction members generalizing d with
    | nil => rfl
    | cons n members ih =>
      rw [List.foldl_cons, ih, List.filter_cons]
      by_cases hn : n.1 = k
      · rw [if_neg (by simp [hp, hn]), hn, insertKey_insertKey_same]
      · rw [if_pos ((hp n).mpr hn), List.foldl_cons, insertKey_comm (Ne.symm hn)]
  exact hfold []

end Dictionaries

/-! ## Recoding -/

/-- A character of Unicode. -/
def isScalar (c : ℕ) : Bool := c < 0xd800 || (0xe000 ≤ c && c < 0x110000)

/-- The text with U+FFFD for what is no character. -/
def clean (s : Str) : Str := s.map fun c => if isScalar c then c else 0xfffd

mutual

/-- The value with the members of each object in the order of their keys. -/
def canon : Value → Value
  | .null => .null
  | .bool b => .bool b
  | .num q => .num q
  | .str s => .str s
  | .arr items => .arr (canonItems items)
  | .obj members => .obj (sortKeys (canonMembers members))

def canonItems : List Value → List Value
  | [] => []
  | v :: items => canon v :: canonItems items

def canonMembers : List (Str × Value) → List (Str × Value)
  | [] => []
  | (k, v) :: members => (k, canon v) :: canonMembers members

end

mutual

/-- What comes out when the value is decoded and encoded again, and `none` for a number that is too
large for the decoder. -/
def recode : Value → Option Value
  | .null => some .null
  | .bool b => some (.bool b)
  | .num q => (Binary64.ofRat q).map fun x => .num (Binary64.shortest x)
  | .str s => some (.str (clean s))
  | .arr items => (recodeItems items).map .arr
  | .obj members => (recodeMembers members).map fun ms => .obj (dictOf ms)

def recodeItems : List Value → Option (List Value)
  | [] => some []
  | v :: items => do
    let w ← recode v
    let rest ← recodeItems items
    return w :: rest

def recodeMembers : List (Str × Value) → Option (List (Str × Value))
  | [] => some []
  | (k, v) :: members => do
    let w ← recode v
    let rest ← recodeMembers members
    return (clean k, w) :: rest

end

mutual

/-- Every number is the decimal that its floating point number is printed as, every text is Unicode,
and no object has a key twice. -/
def Kept : Value → Prop
  | .null => True
  | .bool _ => True
  | .num q => (Binary64.ofRat q).map Binary64.shortest = some q
  | .str s => s.all isScalar = true
  | .arr items => KeptItems items
  | .obj members => (members.map Prod.fst).Nodup ∧ KeptMembers members

def KeptItems : List Value → Prop
  | [] => True
  | v :: items => Kept v ∧ KeptItems items

def KeptMembers : List (Str × Value) → Prop
  | [] => True
  | (k, v) :: members => (k.all isScalar = true ∧ Kept v) ∧ KeptMembers members

end

/-- Integers below `2^53` are kept. -/
theorem kept_intCast {n : ℤ} (hn : |n| < 2 ^ 53) : Kept (.num n) :=
  Binary64.shortest_ofRat_intCast hn

example : (Binary64.ofRat (2 ^ 53 + 1)).map Binary64.shortest = some (2 ^ 53) := by decide +kernel

theorem clean_eq_self_iff (s : Str) : clean s = s ↔ s.all isScalar = true := by
  have hself : clean s = s ↔ s.map (fun c => if isScalar c then c else 0xfffd) = s.map id := by
    rw [List.map_id]
    rfl
  rw [hself, List.map_inj_left, List.all_eq_true]
  refine forall₂_congr fun c _ => ?_
  constructor
  · intro h
    by_contra hc
    rw [if_neg hc] at h
    have hc' : isScalar c = true := by rw [← show 0xfffd = c from h]; rfl
    exact hc hc'
  · intro h
    exact if_pos h

theorem all_isScalar_clean (s : Str) : (clean s).all isScalar = true := by
  rw [List.all_eq_true]
  intro c hc
  obtain ⟨d, -, rfl⟩ := List.mem_map.mp hc
  split_ifs with hd
  · exact hd
  · rfl

theorem canonMembers_eq_map (members : List (Str × Value)) :
    canonMembers members = members.map fun m => (m.1, canon m.2) := by
  induction members with
  | nil => rfl
  | cons m members ih => rw [canonMembers, ih, List.map_cons]

theorem keptMembers_iff (members : List (Str × Value)) :
    KeptMembers members ↔ ∀ m ∈ members, m.1.all isScalar = true ∧ Kept m.2 := by
  induction members with
  | nil => simp [KeptMembers]
  | cons m members ih => rw [KeptMembers, ih, List.forall_mem_cons]

/-- The members are recoded one by one. -/
theorem recodeMembers_eq_some_iff {members ns : List (Str × Value)} :
    recodeMembers members = some ns ↔
      List.Forall₂ (fun m n => n.1 = clean m.1 ∧ recode m.2 = some n.2) members ns := by
  induction members generalizing ns with
  | nil => simp [recodeMembers, eq_comm]
  | cons m members ih =>
    obtain ⟨k, v⟩ := m
    rw [recodeMembers]
    constructor
    · intro h
      obtain ⟨w, hw, h⟩ := Option.bind_eq_some_iff.mp h
      obtain ⟨rest, hrest, h⟩ := Option.bind_eq_some_iff.mp h
      obtain rfl := Option.some.inj h
      exact .cons ⟨rfl, hw⟩ (ih.mp hrest)
    · intro h
      cases h with
      | cons hm hrest =>
        rename_i n ns
        obtain ⟨hk, hw⟩ := hm
        rw [hw, ih.mpr hrest]
        exact congrArg (fun x => some ((x, n.2) :: ns)) hk.symm

theorem exists_of_mem_recodeMembers {members ns : List (Str × Value)}
    (h : recodeMembers members = some ns) {n : Str × Value} (hn : n ∈ ns) :
    ∃ m ∈ members, n.1 = clean m.1 ∧ recode m.2 = some n.2 := by
  have hall := recodeMembers_eq_some_iff.mp h
  clear h
  induction hall with
  | nil => exact absurd hn List.not_mem_nil
  | @cons m n' members ns hm _ ih =>
    rcases List.mem_cons.mp hn with rfl | hn
    · exact ⟨m, List.mem_cons_self, hm⟩
    · obtain ⟨m', hm', h⟩ := ih hn
      exact ⟨m', List.mem_cons_of_mem m hm', h⟩

theorem recodeItems_eq_some_iff {items ws : List Value} :
    recodeItems items = some ws ↔ List.Forall₂ (fun v w => recode v = some w) items ws := by
  induction items generalizing ws with
  | nil => simp [recodeItems, eq_comm]
  | cons v items ih =>
    rw [recodeItems]
    constructor
    · intro h
      obtain ⟨w, hw, h⟩ := Option.bind_eq_some_iff.mp h
      obtain ⟨rest, hrest, h⟩ := Option.bind_eq_some_iff.mp h
      obtain rfl := Option.some.inj h
      exact .cons hw (ih.mp hrest)
    · intro h
      cases h with
      | cons hw hrest =>
        rw [hw, ih.mpr hrest]
        rfl

/-- The member of a clean key is recoded. -/
theorem member_of_recodeMembers {k : Str} (hk : ∀ l, clean l = k ↔ l = k)
    {members ns : List (Str × Value)} (h : recodeMembers members = some ns) :
    member k ns = (member k members).bind recode := by
  have hall := recodeMembers_eq_some_iff.mp h
  clear h
  have hsome {ms ns : List (Str × Value)} {v : Value}
      (hall : List.Forall₂ (fun m n => n.1 = clean m.1 ∧ recode m.2 = some n.2) ms ns)
      (hv : member k ms = some v) : ∃ w, recode v = some w := by
    induction hall with
    | nil => exact absurd hv (Option.some_ne_none v).symm
    | @cons m n ms ns hm _ ih =>
      rw [member, Option.or_eq_some_iff] at hv
      rcases hv with hv | ⟨-, hv⟩
      · exact ih hv
      · split_ifs at hv with hkey
        obtain rfl := Option.some.inj hv
        exact ⟨n.2, hm.2⟩
  induction hall with
  | nil => rfl
  | @cons m n ms ns hm hrest ih =>
    rw [member, ih, hm.1, member]
    cases hv : member k ms with
    | some v =>
      obtain ⟨w, hw⟩ := hsome hrest hv
      rw [Option.bind_some, hw, Option.some_or, Option.some_or, Option.bind_some, hw]
    | none =>
      rw [Option.bind_none, Option.none_or, Option.none_or]
      by_cases hkey : m.1 = k
      · rw [if_pos ((hk m.1).mpr hkey), if_pos hkey, Option.bind_some, hm.2]
      · rw [if_neg fun h => hkey ((hk m.1).mp h), if_neg hkey, Option.bind_none]

/-- The keys of a dictionary that is equal to the sorted members are theirs, so that all of them are
Unicode and none comes twice. -/
theorem keys_of_dictOf_eq {members ns : List (Str × Value)} (hns : recodeMembers members = some ns)
    (h : dictOf ns = sortKeys (canonMembers members)) :
    (members.map Prod.fst).Nodup ∧ ∀ m ∈ members, m.1.all isScalar = true := by
  have hkeys : (canonMembers members).map Prod.fst = members.map Prod.fst := by
    rw [canonMembers_eq_map, List.map_map]
    rfl
  have hperm : ((dictOf ns).map Prod.fst).Perm (members.map Prod.fst) := by
    rw [h, ← hkeys]
    exact (List.perm_insertionSort _ _).map Prod.fst
  refine ⟨hperm.nodup_iff.mp (nodup_keys_dictOf ns), fun m hm => ?_⟩
  -- The key is one of the dictionary, and all of these have been cleaned.
  have hmem : m.1 ∈ (dictOf ns).map Prod.fst := hperm.mem_iff.mpr (List.mem_map_of_mem hm)
  obtain ⟨n, hn, hnm⟩ := List.mem_map.mp hmem
  obtain ⟨m', -, hm'⟩ := exists_of_mem_recodeMembers hns (mem_of_mem_dictOf hn)
  rw [← hnm, hm'.1]
  exact all_isScalar_clean m'.1

/-- An object whose members are recoded as they are is its dictionary. -/
theorem recode_obj_of_kept {members : List (Str × Value)} (hnodup : (members.map Prod.fst).Nodup)
    (hmembers : ∀ m ∈ members, m.1.all isScalar = true ∧ recode m.2 = some (canon m.2)) :
    recode (.obj members) = some (canon (.obj members)) := by
  have hall : recodeMembers members = some (canonMembers members) := by
    rw [recodeMembers_eq_some_iff, canonMembers_eq_map, List.forall₂_map_right_iff,
      List.forall₂_same]
    exact fun m hm => ⟨((clean_eq_self_iff m.1).mpr (hmembers m hm).1).symm, (hmembers m hm).2⟩
  have hkeys : ((canonMembers members).map Prod.fst).Nodup := by
    rw [canonMembers_eq_map, List.map_map]
    exact hnodup
  rw [recode, hall, Option.map_some, dictOf_eq_sortKeys hkeys, canon]

/-- An object that is recoded as itself has members that are, with different keys. -/
theorem kept_of_recode_obj {members : List (Str × Value)}
    (h : recode (.obj members) = some (canon (.obj members))) :
    (members.map Prod.fst).Nodup ∧
      ∀ m ∈ members, m.1.all isScalar = true ∧ recode m.2 = some (canon m.2) := by
  rw [recode, canon, Option.map_eq_some_iff] at h
  obtain ⟨ns, hns, h⟩ := h
  have hdict : dictOf ns = sortKeys (canonMembers members) := Value.obj.inj h
  obtain ⟨hnodup, hscalar⟩ := keys_of_dictOf_eq hns hdict
  refine ⟨hnodup, fun m hm => ⟨hscalar m hm, ?_⟩⟩
  -- The sorted member comes from a member with the same key, which can only be the same one.
  have hcanon : (m.1, canon m.2) ∈ canonMembers members := by
    rw [canonMembers_eq_map]
    exact List.mem_map_of_mem hm
  have hmem : (m.1, canon m.2) ∈ dictOf ns := by
    rw [hdict]
    exact (List.perm_insertionSort _ _).mem_iff.mpr hcanon
  obtain ⟨m', hm', hkey, hvalue⟩ := exists_of_mem_recodeMembers hns (mem_of_mem_dictOf hmem)
  have hclean : clean m'.1 = m'.1 := (clean_eq_self_iff m'.1).mpr (hscalar m' hm')
  have hsame : m' = m := List.inj_on_of_nodup_map hnodup hm' hm (hkey.trans hclean).symm
  rw [← hsame]
  exact hsame ▸ hvalue

mutual

/-- A value is recoded as itself, up to the order of members, just when it is kept. -/
theorem recode_eq_canon_iff (v : Value) : recode v = some (canon v) ↔ Kept v := by
  cases v with
  | null => simp [recode, canon, Kept]
  | bool b => simp [recode, canon, Kept]
  | num q =>
    rw [recode, canon, Kept]
    cases Binary64.ofRat q <;> simp
  | str s =>
    rw [recode, canon, Kept, ← clean_eq_self_iff]
    simp
  | arr items =>
    have hitems := recodeItems_eq_canonItems_iff items
    rw [recode, canon, Kept, ← hitems]
    cases recodeItems items <;> simp
  | obj members =>
    have hmembers := recode_member_iff members
    rw [Kept, keptMembers_iff]
    constructor
    · intro h
      obtain ⟨hnodup, hall⟩ := kept_of_recode_obj h
      exact ⟨hnodup, fun m hm => ⟨(hall m hm).1, (hmembers m hm).mp (hall m hm).2⟩⟩
    · rintro ⟨hnodup, hall⟩
      exact recode_obj_of_kept hnodup fun m hm =>
        ⟨(hall m hm).1, (hmembers m hm).mpr (hall m hm).2⟩

theorem recodeItems_eq_canonItems_iff (items : List Value) :
    recodeItems items = some (canonItems items) ↔ KeptItems items := by
  cases items with
  | nil => simp [recodeItems, canonItems, KeptItems]
  | cons v items =>
    have hv := recode_eq_canon_iff v
    have hitems := recodeItems_eq_canonItems_iff items
    rw [recodeItems, canonItems, KeptItems, ← hv, ← hitems]
    cases recode v <;> cases recodeItems items <;> simp

theorem recode_member_iff (members : List (Str × Value)) :
    ∀ m ∈ members, (recode m.2 = some (canon m.2) ↔ Kept m.2) := by
  cases members with
  | nil => simp
  | cons m members =>
    obtain ⟨k, v⟩ := m
    rw [List.forall_mem_cons]
    exact ⟨recode_eq_canon_iff v, recode_member_iff members⟩

end

/-! ## What is refused -/

mutual

/-- The numbers of a value. -/
def numbers : Value → List ℚ
  | .num q => [q]
  | .arr items => numbersItems items
  | .obj members => numbersMembers members
  | _ => []

def numbersItems : List Value → List ℚ
  | [] => []
  | v :: items => numbers v ++ numbersItems items

def numbersMembers : List (Str × Value) → List ℚ
  | [] => []
  | (_, v) :: members => numbers v ++ numbersMembers members

end

mutual

/-- A value is refused just when one of its numbers is too large. -/
theorem recode_eq_none_iff (v : Value) :
    recode v = none ↔ ∃ q ∈ numbers v, Binary64.ofRat q = none := by
  cases v with
  | null => simp [recode, numbers]
  | bool b => simp [recode, numbers]
  | num q => simp [recode, numbers]
  | str s => simp [recode, numbers]
  | arr items =>
    rw [recode, numbers, Option.map_eq_none_iff]
    exact recodeItems_eq_none_iff items
  | obj members =>
    rw [recode, numbers, Option.map_eq_none_iff]
    exact recodeMembers_eq_none_iff members

theorem recodeItems_eq_none_iff (items : List Value) :
    recodeItems items = none ↔ ∃ q ∈ numbersItems items, Binary64.ofRat q = none := by
  cases items with
  | nil => simp [recodeItems, numbersItems]
  | cons v items =>
    have hv := recode_eq_none_iff v
    have hitems := recodeItems_eq_none_iff items
    simp only [recodeItems, numbersItems, List.mem_append, or_and_right, exists_or, ← hv, ← hitems]
    cases recode v <;> cases recodeItems items <;> simp

theorem recodeMembers_eq_none_iff (members : List (Str × Value)) :
    recodeMembers members = none ↔ ∃ q ∈ numbersMembers members, Binary64.ofRat q = none := by
  cases members with
  | nil => simp [recodeMembers, numbersMembers]
  | cons m members =>
    obtain ⟨k, v⟩ := m
    have hv := recode_eq_none_iff v
    have hmembers := recodeMembers_eq_none_iff members
    simp only [recodeMembers, numbersMembers, List.mem_append, or_and_right, exists_or, ← hv,
      ← hmembers]
    cases recode v <;> cases recodeMembers members <;> simp

end

/-! ## What comes out is sorted -/

/-- A dictionary of such values is in the order of its keys. -/
theorem sortKeys_canonMembers_dictOf {ns : List (Str × Value)} (h : ∀ n ∈ ns, canon n.2 = n.2) :
    sortKeys (canonMembers (dictOf ns)) = dictOf ns := by
  have hvalues : canonMembers (dictOf ns) = dictOf ns := by
    rw [canonMembers_eq_map]
    conv_rhs => rw [← List.map_id (dictOf ns)]
    refine List.map_congr_left fun n hn => ?_
    rw [h n (mem_of_mem_dictOf hn)]
    rfl
  rw [hvalues]
  exact List.Pairwise.insertionSort_eq ((pairwise_dictOf ns).imp fun h => h.le)

mutual

/-- What comes out is the same when its members are sorted. -/
theorem canon_of_recode (v : Value) {w : Value} (h : recode v = some w) : canon w = w := by
  cases v with
  | null => obtain rfl := Option.some.inj h; rfl
  | bool b => obtain rfl := Option.some.inj h; rfl
  | num q =>
    obtain ⟨x, -, rfl⟩ := Option.map_eq_some_iff.mp h
    rfl
  | str s => obtain rfl := Option.some.inj h; rfl
  | arr items =>
    rw [recode] at h
    obtain ⟨ws, hws, rfl⟩ := Option.map_eq_some_iff.mp h
    rw [canon, canonItems_of_recodeItems items hws]
  | obj members =>
    rw [recode] at h
    obtain ⟨ns, hns, rfl⟩ := Option.map_eq_some_iff.mp h
    rw [canon, sortKeys_canonMembers_dictOf (canon_of_mem_recodeMembers members hns)]

theorem canonItems_of_recodeItems (items : List Value) {ws : List Value}
    (h : recodeItems items = some ws) : canonItems ws = ws := by
  cases items with
  | nil => obtain rfl := Option.some.inj h; rfl
  | cons v items =>
    rw [recodeItems] at h
    obtain ⟨w, hw, h⟩ := Option.bind_eq_some_iff.mp h
    obtain ⟨rest, hrest, h⟩ := Option.bind_eq_some_iff.mp h
    obtain rfl := Option.some.inj h
    rw [canonItems, canon_of_recode v hw, canonItems_of_recodeItems items hrest]

theorem canon_of_mem_recodeMembers (members : List (Str × Value)) {ns : List (Str × Value)}
    (h : recodeMembers members = some ns) : ∀ n ∈ ns, canon n.2 = n.2 := by
  cases members with
  | nil =>
    obtain rfl := Option.some.inj h
    exact fun n hn => absurd hn List.not_mem_nil
  | cons m members =>
    obtain ⟨k, v⟩ := m
    rw [recodeMembers] at h
    obtain ⟨w, hw, h⟩ := Option.bind_eq_some_iff.mp h
    obtain ⟨rest, hrest, h⟩ := Option.bind_eq_some_iff.mp h
    obtain rfl := Option.some.inj h
    exact List.forall_mem_cons.mpr
      ⟨canon_of_recode v hw, canon_of_mem_recodeMembers members hrest⟩

end

/-- What comes out is the value up to the order of members just when it is kept. -/
theorem canon_eq_iff_kept {v w : Value} (h : recode v = some w) : canon w = canon v ↔ Kept v := by
  rw [← recode_eq_canon_iff, h, Option.some_inj, canon_of_recode v h]

end ControlPlane.JsonScan
