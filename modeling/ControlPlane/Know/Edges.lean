import ControlPlane.Know.Rows

/-!
# The policy matrix that is read

The policy matrix is edges only. It comes back when its verdicts are the two that there are edges
for and its zones are known ones (`Loaded.readPolicyMatrix_iff`).
-/

namespace ControlPlane.Know

open JsonText PropertyGraph

variable {Obj : Type}

namespace Python

variable {P : Python Obj}

/-- The entries of a verdict. -/
def verdicts (verdict : String) (rows : List (PyVal Obj × PyVal Obj)) :
    List ((PyVal Obj × PyVal Obj) × PyVal Obj) := rows.map fun r => (r, .str (u verdict))

theorem setVerdict_of_hashable {verdict : String} {rows : List (PyVal Obj × PyVal Obj)}
    (h : ∀ r ∈ rows, P.hashable r.1 = true ∧ P.hashable r.2 = true)
    (out : List ((PyVal Obj × PyVal Obj) × PyVal Obj)) :
    P.setVerdict verdict rows out = .ok ((verdicts verdict rows).foldl
      (fun d i => Dict.set P.samePair i.1 i.2 d) out) := by
  unfold setVerdict verdicts
  induction rows generalizing out with
  | nil => rfl
  | cons r rest ih =>
    obtain ⟨⟨hr₁, hr₂⟩, hrest⟩ := List.forall_mem_cons.mp h
    rw [List.foldlM_cons, if_pos (by rw [hr₁, hr₂]; rfl), ok_bind, ih hrest]
    rfl

end Python

namespace Neo4j

variable {N : Neo4j Obj} {kb : Knowledge Obj} {gotchas mappings failures actions : List (PyVal Obj)}
  {g : Graph (PyVal Obj)} {q : Answers Obj}

theorem endsOf_of_names {p q r : Props (PyVal Obj)} {v w : PyVal Obj} (hv : p "name" = some v)
    (hw : q "name" = some w) : endsOf (p, r, q) = (v, w) := by
  show ((p "name").getD .none, (q "name").getD .none) = (v, w)
  rw [hv, hw]
  rfl

theorem relOf_of_known {v : PyVal Obj} (h : v = .str (u "ALLOW") ∨ v = .str (u "DENY")) :
    v = .str (u (relOf v)) := by
  rcases h with rfl | rfl
  · simp [relOf, isAllow]
  · simp [relOf, isAllow, u_injective.eq_iff]

/-- A node that a statement has merged has the value of one of its kind. -/
theorem Loaded.exists_value (h : Loaded N kb gotchas mappings failures actions g) {A : Type}
    {l key : String} {value : A → PyVal Obj} {params : A → Params Obj} {xs : List A}
    (hl : l ∈ LABELS) (hclean : ∀ x, CleanNames key (params x))
    (hitems : N.itemsOf kb gotchas mappings failures actions l =
      xs.map fun x => N.itemOf l key (value x) (params x))
    (hstored : ∀ x ∈ xs, N.stored (value x) = value x) {p : Props (PyVal Obj)}
    (hp : p ∈ g.rows l) : ∃ x ∈ xs, p key = some (value x) := by
  rw [h.rows l hl, hitems] at hp
  obtain ⟨i, hi, hvalue⟩ := exists_of_mem_built (byKey_items hclean xs) hp
  obtain ⟨x, hx, rfl⟩ := List.mem_map.mp hi
  exact ⟨x, hx, hvalue.trans (congrArg some (hstored x hx))⟩

/-- There is a node for each of a kind whose values are different ones. -/
theorem Loaded.exists_node (h : Loaded N kb gotchas mappings failures actions g) {A : Type}
    {l key : String} {value : A → PyVal Obj} {params : A → Params Obj} {xs : List A}
    (hl : l ∈ LABELS) (hclean : ∀ x, CleanNames key (params x))
    (hitems : N.itemsOf kb gotchas mappings failures actions l =
      xs.map fun x => N.itemOf l key (value x) (params x))
    (hstored : ∀ x ∈ xs, N.stored (value x) = value x)
    (hdiff : xs.Pairwise fun x y => N.same (value x) (value y) = false) {x : A} (hx : x ∈ xs) :
    ∃ p ∈ g.rows l, p key = some (value x) := by
  rw [h.rows l hl, hitems, built_of_distinct hclean hstored hdiff]
  refine ⟨_, List.mem_map_of_mem hx, ?_⟩
  rw [rowOf_key (hclean x), hstored x hx]

section

variable (h : Loaded N kb gotchas mappings failures actions g) (hkb : Accepted N.toPython kb)
include h hkb

/-- A node of a zone has the name of a zone. -/
theorem Loaded.exists_zone {p : Props (PyVal Obj)} (hp : p ∈ g.rows "Zone") :
    ∃ z ∈ kb.zones, p "name" = some z.1 :=
  h.exists_value (by decide) (fun z => cleanNames_zone (Prod.snd z)) itemsOf_zone
    (fun _ hz => hkb.zones.stored_eq N.asStr_seq hz) hp

/-- A zone has a node. -/
theorem Loaded.exists_zoneRow {z : PyVal Obj × Zone} (hz : z ∈ kb.zones) :
    ∃ p ∈ g.rows "Zone", p "name" = some z.1 :=
  h.exists_node (by decide) (fun z => cleanNames_zone (Prod.snd z)) itemsOf_zone
    (fun _ hz => hkb.zones.stored_eq N.asStr_seq hz) hkb.zones.distinct hz

/-- The ends of an edge for a verdict are those of an entry of the matrix with this verdict, and
they are zones. -/
theorem Loaded.exists_entry {rel : String} (hrel : rel = "ALLOW" ∨ rel = "DENY")
    {ends : PyVal Obj × PyVal Obj} (hends : ends ∈ (managedPaths g "Zone" rel "Zone").map endsOf) :
    (N.hashable ends.1 = true ∧ N.hashable ends.2 = true) ∧ ∃ i ∈ kb.policyMatrix,
      relOf i.2 = rel ∧ N.samePair ends i.1 = true ∧ N.HasZone kb i.1.1 ∧ N.HasZone kb i.1.2 := by
  obtain ⟨path, hpath, rfl⟩ := List.mem_map.mp hends
  obtain ⟨hp, hq, -, i, hi, hr, hsrc, hdst⟩ :=
    h.of_verdict rel hrel path (List.mem_of_mem_filter hpath)
  obtain ⟨z, hz, hzname⟩ := h.exists_zone hkb hp
  obtain ⟨w, hw, hwname⟩ := h.exists_zone hkb hq
  rw [Props.has, hzname] at hsrc
  rw [Props.has, hwname] at hdst
  have hsame : N.samePair (z.1, w.1) i.1 = true :=
    Bool.and_eq_true_iff.mpr ⟨N.same_of_equal hsrc, N.same_of_equal hdst⟩
  have hpair : endsOf path = (z.1, w.1) := endsOf_of_names hzname hwname
  rw [hpair]
  exact ⟨⟨hkb.zones.hashable z hz, hkb.zones.hashable w hw⟩, i, hi, hr, hsame, ⟨z, hz, hsrc⟩,
    ⟨w, hw, hdst⟩⟩

/-- An entry between zones has an edge. -/
theorem Loaded.exists_ends {i : (PyVal Obj × PyVal Obj) × PyVal Obj} (hi : i ∈ kb.policyMatrix)
    (hsrc : N.HasZone kb i.1.1) (hdst : N.HasZone kb i.1.2) :
    ∃ ends ∈ (managedPaths g "Zone" (relOf i.2) "Zone").map endsOf,
      N.samePair ends i.1 = true := by
  obtain ⟨z, hz, hzi⟩ := hsrc
  obtain ⟨w, hw, hwi⟩ := hdst
  obtain ⟨p, hp, hpname⟩ := h.exists_zoneRow hkb hz
  obtain ⟨q, hq, hqname⟩ := h.exists_zoneRow hkb hw
  have hpi : p.has N.equal "name" i.1.1 = true := by
    rw [Props.has, hpname]
    exact hzi
  have hqi : q.has N.equal "name" i.1.2 = true := by
    rw [Props.has, hqname]
    exact hwi
  obtain ⟨r, hr⟩ := h.verdict i hi p hp q hq hpi hqi
  have hmanaged : managed r = true := (h.of_verdict _ (relOf_eq i.2) (p, r, q) hr).2.2.1
  refine ⟨endsOf (p, r, q), List.mem_map_of_mem (List.mem_filter.mpr ⟨hr, hmanaged⟩), ?_⟩
  rw [endsOf_of_names hpname hqname]
  exact Bool.and_eq_true_iff.mpr ⟨N.same_of_equal hzi, N.same_of_equal hwi⟩

/-- The matrix that is read is that of the edges. -/
theorem Loaded.readPolicyMatrix_eq (hq : N.AnswersOf g q) :
    ∃ allow deny, N.readPolicyMatrix q = .ok (Dict.ofList N.samePair
        (Python.verdicts "ALLOW" allow ++ Python.verdicts "DENY" deny)) ∧
      (∀ ends, ends ∈ allow ↔ ends ∈ (managedPaths g "Zone" "ALLOW" "Zone").map endsOf) ∧
      ∀ ends, ends ∈ deny ↔ ends ∈ (managedPaths g "Zone" "DENY" "Zone").map endsOf := by
  obtain ⟨allow, hallow, hallowed⟩ := hq.allow
  obtain ⟨deny, hdeny, hdenied⟩ := hq.deny
  have hallowHash : ∀ r ∈ allow, N.hashable r.1 = true ∧ N.hashable r.2 = true := fun r hr =>
    (h.exists_entry hkb (.inl rfl) (hallowed.mem_iff.mp hr)).1
  have hdenyHash : ∀ r ∈ deny, N.hashable r.1 = true ∧ N.hashable r.2 = true := fun r hr =>
    (h.exists_entry hkb (.inr rfl) (hdenied.mem_iff.mp hr)).1
  refine ⟨allow, deny, ?_, fun _ => hallowed.mem_iff, fun _ => hdenied.mem_iff⟩
  unfold Python.readPolicyMatrix Dict.ofList
  rw [hallow, ok_bind, Python.setVerdict_of_hashable hallowHash, ok_bind, hdeny, ok_bind,
    Python.setVerdict_of_hashable hdenyHash, List.foldl_append]

/-- The policy matrix is read back when its verdicts are known ones and its zones too. -/
theorem Loaded.readPolicyMatrix_iff (hq : N.AnswersOf g q) :
    (∃ out, N.readPolicyMatrix q = .ok out ∧ SameDict N.samePair kb.policyMatrix out) ↔
      ∀ i ∈ kb.policyMatrix, (i.2 = .str (u "ALLOW") ∨ i.2 = .str (u "DENY")) ∧
        N.HasZone kb i.1.1 ∧ N.HasZone kb i.1.2 := by
  obtain ⟨allow, deny, hread, hallow, hdeny⟩ := h.readPolicyMatrix_eq hkb hq
  generalize hitems : Python.verdicts "ALLOW" allow ++ Python.verdicts "DENY" deny = items at hread
  -- An item that is read is that of an entry.
  have hentry : ∀ j ∈ items, (j.2 = .str (u "ALLOW") ∨ j.2 = .str (u "DENY")) ∧
      ∃ i ∈ kb.policyMatrix, j.2 = .str (u (relOf i.2)) ∧ N.samePair j.1 i.1 = true ∧
        N.HasZone kb i.1.1 ∧ N.HasZone kb i.1.2 := by
    intro j hj
    rw [← hitems] at hj
    rcases List.mem_append.mp hj with hj | hj
    · obtain ⟨ends, hends, rfl⟩ := List.mem_map.mp hj
      obtain ⟨-, i, hi, hr, hrest⟩ := h.exists_entry hkb (.inl rfl) ((hallow ends).mp hends)
      exact ⟨.inl rfl, i, hi, by rw [hr], hrest⟩
    · obtain ⟨ends, hends, rfl⟩ := List.mem_map.mp hj
      obtain ⟨-, i, hi, hr, hrest⟩ := h.exists_entry hkb (.inr rfl) ((hdeny ends).mp hends)
      exact ⟨.inr rfl, i, hi, by rw [hr], hrest⟩
  have hequiv := N.samePair_equiv
  constructor
  · rintro ⟨out, hout, hsame⟩ i hi
    obtain rfl := Except.ok.inj (hread.symm.trans hout)
    have hfound := (hsame i.1).symm.trans (Dict.lookup_of_mem hequiv hkb.policy hi)
    obtain ⟨j, hj, hji, hvalue⟩ := Dict.exists_of_lookup_ofList hequiv hfound
    obtain ⟨hknown, i', hi', -, hji', hzones⟩ := hentry j hj
    -- The entry of the item is this one.
    obtain rfl := Dict.eq_of_same hequiv hkb.policy hi hi'
      (hequiv.trans (hequiv.symm hji) hji')
    exact ⟨hvalue ▸ hknown, hzones⟩
  · intro hall
    have hof : ∀ k v, Dict.lookup N.samePair k (Dict.ofList N.samePair items) = some v →
        ∃ i ∈ kb.policyMatrix, N.samePair i.1 k = true ∧ i.2 = v := by
      intro k v hk
      obtain ⟨j, hj, hjk, rfl⟩ := Dict.exists_of_lookup_ofList hequiv hk
      obtain ⟨-, i, hi, hvalue, hji, -⟩ := hentry j hj
      refine ⟨i, hi, hequiv.trans (hequiv.symm hji) hjk, ?_⟩
      rw [hvalue]
      exact relOf_of_known (hall i hi).1
    refine ⟨_, hread, fun k => Option.ext fun v => ?_⟩
    rw [Dict.lookup_eq_some_iff hequiv hkb.policy]
    constructor
    · rintro ⟨i, hi, hik, rfl⟩
      obtain ⟨-, hsrc, hdst⟩ := hall i hi
      obtain ⟨ends, hends, hsame⟩ := h.exists_ends hkb hi hsrc hdst
      have hmem : (ends, .str (u (relOf i.2))) ∈ items := by
        rw [← hitems]
        rcases relOf_eq i.2 with hr | hr
        · rw [hr] at hends ⊢
          exact List.mem_append_left _ (List.mem_map_of_mem ((hallow ends).mpr hends))
        · rw [hr] at hends ⊢
          exact List.mem_append_right _ (List.mem_map_of_mem ((hdeny ends).mpr hends))
      have hsome := Dict.lookup_ofList_isSome hequiv hmem (hequiv.trans hsame hik)
      obtain ⟨w, hw⟩ := Option.isSome_iff_exists.mp hsome
      obtain ⟨i', hi', hi'k, rfl⟩ := hof k w hw
      rw [Dict.eq_of_same hequiv hkb.policy hi hi' (hequiv.trans hik (hequiv.symm hi'k))]
      exact hw
    · intro hv
      exact hof k v hv

end

end Neo4j

end ControlPlane.Know
