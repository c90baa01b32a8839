import ControlPlane.Know.Chains

/-!
# The enforcement plane and the invariants that are read

The parts of the enforcement plane, and when each of them is what was written. What is listed by
place comes back in its order, and what is merged by a name or an endpoint in any.
-/

namespace ControlPlane.Know

open JsonText PropertyGraph

variable {Obj : Type}

/-! ## Rows by place -/

/-- The rows of a list by its places are given in the order of the list. -/
theorem eq_of_givesByIdx {A : Type} {a : Answer (Args Obj)} {xs : List A} {row : A × ℕ → Args Obj}
    (hrow : ∀ x, row x "idx" = some (.int x.2)) (h : GivesByIdx a (xs.zipIdx.map row)) :
    a = .ok (xs.zipIdx.map row) := by
  obtain ⟨l, rfl, hperm, hsorted⟩ := h
  obtain ⟨ys, hys, rfl⟩ := exists_of_perm_map hperm
  have hplaces : ys.Pairwise fun x y => x.2 ≤ y.2 := by
    refine (List.pairwise_map.mp hsorted).imp fun {x y} hxy => ?_
    have hle := hxy _ _ (hrow x) (hrow y)
    omega
  have hzip : xs.zipIdx.Pairwise fun x y => x.2 ≤ y.2 := by
    have hrange : (xs.zipIdx.map Prod.snd).Pairwise (· < ·) := by
      rw [List.zipIdx_map_snd]
      exact List.pairwise_lt_range'
    exact (List.pairwise_map.mp hrange).imp fun hlt => le_of_lt hlt
  have hone : ∀ x y, x ∈ ys → y ∈ xs.zipIdx → x.2 ≤ y.2 → y.2 ≤ x.2 → x = y := by
    intro x y hx hy hxy hyx
    have hxs := List.mem_zipIdx_iff_getElem?.mp (hys.mem_iff.mp hx)
    have hyy := List.mem_zipIdx_iff_getElem?.mp hy
    have hplace : x.2 = y.2 := le_antisymm hxy hyx
    rw [hplace, hyy] at hxs
    exact Prod.ext (Option.some.inj hxs).symm hplace
  rw [List.Perm.eq_of_pairwise hone hplaces hzip hys]

namespace Neo4j

variable {N : Neo4j Obj} {kb : Knowledge Obj} {gotchas mappings failures actions : List (PyVal Obj)}
  {g : Graph (PyVal Obj)} {q : Answers Obj}

/-- Places are different ones. -/
theorem pairwise_places {A : Type} (xs : List A) :
    xs.zipIdx.Pairwise fun x y => N.same (.int x.2) (.int y.2) = false := by
  have hnodup : (xs.zipIdx.map Prod.snd).Nodup := by
    rw [List.zipIdx_map_snd]
    exact List.nodup_range'
  refine (List.pairwise_map.mp hnodup).imp fun {x y} hne => ?_
  rw [← Bool.not_eq_true, N.same_int]
  omega

/-- The rows of a list by its places come in the order of the list. -/
theorem Loaded.answer_by_place (h : Loaded N kb gotchas mappings failures actions g) {l : String}
    {params : PyVal Obj → Params Obj} {xs : List (PyVal Obj)} (hl : l ∈ LABELS)
    (hclean : ∀ x, CleanNames "idx" (params x))
    (hitems : N.itemsOf kb gotchas mappings failures actions l =
      xs.zipIdx.map fun x => N.itemOf l "idx" (.int x.2) (params x.1))
    {answer : Answer (Args Obj)} (hgives : GivesByIdx answer (managedRows g l)) :
    ∃ rows, answer = .ok rows ∧
      List.Forall₂ (fun x row => ∃ n : ℕ, row = N.rowOf "idx" (.int n) (params x)) xs rows := by
  rw [h.managedRows_eq hl, hitems,
    built_of_distinct (fun x => hclean (Prod.fst x)) (fun _ _ => stored_of_scalar (by simp))
      (pairwise_places xs)] at hgives
  refine ⟨_, eq_of_givesByIdx (fun x => ?_) hgives, ?_⟩
  · rw [rowOf_key (hclean x.1), stored_of_scalar (by simp)]
  · rw [List.forall₂_map_right_iff]
    clear hgives hitems
    generalize 0 = start
    induction xs generalizing start with
    | nil => exact .nil
    | cons x xs ih =>
      rw [List.zipIdx_cons]
      exact .cons ⟨start, rfl⟩ (ih _)

/-! ## Values that come back -/

/-- What a property has comes back from a property. -/
theorem kept_of_given {v w : PyVal Obj} (h : N.given v = some w) : N.Kept w := by
  obtain ⟨hstore, hnull⟩ := Option.filter_eq_some_iff.mp h
  unfold Kept given
  rw [N.store_stored hstore, Option.filter_some, if_pos hnull]

/-- A value that is no null is there. -/
theorem given_of_stored {v : PyVal Obj} (hv : isNull v = false) (h : (N.store v).isSome = true) :
    N.given v = some (N.stored v) := by
  obtain ⟨w, hw⟩ := Option.isSome_iff_exists.mp h
  have hnull : isNull w = false := by
    by_cases hseq : ∃ frozen xs, v = .seq frozen xs
    · obtain ⟨frozen, xs, rfl⟩ := hseq
      obtain ⟨ys, rfl⟩ := N.store_seq hw
      rfl
    · have hscalar : ∀ frozen xs, v ≠ .seq frozen xs := fun frozen xs heq => hseq ⟨frozen, xs, heq⟩
      rw [N.store_scalar hscalar hw]
      exact hv
  rw [given, stored, hw, Option.filter_some, hnull]
  rfl

/-- A value that is read with a text for one that is not there. -/
theorem kept_iff_getD {v : PyVal Obj} {s : PyStr} (h : (N.store v).isSome = true) :
    N.Kept v ↔ (N.given v).getD (.str s) = v := by
  constructor
  · intro hv
    rw [hv, Option.getD_some]
  · intro hv
    cases hgiven : N.given v with
    | none =>
      -- A text would be there.
      rw [hgiven, Option.getD_none] at hv
      rw [← hv] at h hgiven
      rw [given_str h] at hgiven
      cases hgiven
    | some w =>
      rw [hgiven, Option.getD_some] at hv
      rw [Kept, hgiven, hv]

/-- What is read of a row under these names. -/
theorem pick_eq_ok {names : List String} {p : Args Obj} {w : PyVal Obj} :
    Python.pick names p = .ok w ↔ (∀ name ∈ names, (p name).isSome = true) ∧
      w = .dict (names.map fun name => item name ((p name).getD .none)) := by
  unfold Python.pick
  constructor
  · intro h
    obtain ⟨items, hitems, hw⟩ := except_bind_eq_ok h
    obtain rfl := Except.ok.inj hw
    have hall := mapM_eq_ok.mp hitems
    clear hitems hw h
    induction hall with
    | nil => exact ⟨fun name hname => absurd hname List.not_mem_nil, rfl⟩
    | @cons name i names items hi _ ih =>
      obtain ⟨v, hv, hi⟩ := except_bind_eq_ok hi
      obtain rfl := Except.ok.inj hi
      have hp : p name = some v := orRaise_eq_ok.mp hv
      refine ⟨List.forall_mem_cons.mpr ⟨by rw [hp]; rfl, ih.1⟩, ?_⟩
      rw [List.map_cons, hp, ← PyVal.dict.inj ih.2]
      rfl
  · rintro ⟨hall, rfl⟩
    have hitems : names.mapM (fun name => do return item name (← p.need name)) =
        (.ok (names.map fun name => item name ((p name).getD .none)) : Except Failure _) := by
      rw [mapM_eq_ok, List.forall₂_map_right_iff, List.forall₂_same]
      intro name hname
      obtain ⟨v, hv⟩ := Option.isSome_iff_exists.mp (hall name hname)
      have hneed : p.need name = .ok v := orRaise_eq_ok.mpr hv
      rw [hneed, hv]
      rfl
    rw [hitems]
    rfl

/-- A dict that is read of properties has values that come back. -/
theorem keptRow_of_sameItems {names : List String} {p : Args Obj} {row w : PyVal Obj}
    (hp : ∀ name ∈ names, ∃ v, p name = N.given v) (hpick : Python.pick names p = .ok w)
    (hsame : SameItems row w) : N.KeptRow names row := by
  obtain ⟨hall, rfl⟩ := pick_eq_ok.mp hpick
  obtain ⟨is, js, rfl, hjs, hperm⟩ := hsame
  obtain rfl := PyVal.dict.inj hjs
  refine ⟨fun name => (p name).getD .none, ⟨is, rfl, hperm⟩, fun name hname => ?_⟩
  obtain ⟨v, hv⟩ := hp name hname
  obtain ⟨x, hx⟩ := Option.isSome_iff_exists.mp (hall name hname)
  have hvalue : (p name).getD .none = x := by rw [hx, Option.getD_some]
  show N.Kept ((p name).getD .none)
  rw [hvalue]
  exact kept_of_given (hv.symm.trans hx)

/-- The values of a dict of different names. -/
theorem KeptRow.exists_fields {names : List String} {row : PyVal Obj} (h : N.KeptRow names row)
    (hnames : names.Nodup) : ∃ value : String → PyVal Obj,
      SameItems row (.dict (names.map fun name => item name (value name))) ∧
        ∀ name ∈ names, field name row = some (value name) ∧ N.Kept (value name) := by
  obtain ⟨value, ⟨items, rfl, hperm⟩, hkept⟩ := h
  refine ⟨value, ⟨items, _, rfl, rfl, hperm⟩, fun name hname => ⟨?_, hkept name hname⟩⟩
  have hkeys : (items.map Prod.fst).Nodup := by
    refine (hperm.map Prod.fst).nodup_iff.mpr ?_
    rw [List.map_map]
    refine List.pairwise_map.mpr (hnames.imp fun {n m} hne heq => hne ?_)
    exact u_injective (PyKey.str.inj heq)
  show getItem (u name) items = some (value name)
  rw [getItem_eq_some hkeys]
  exact hperm.mem_iff.mpr (List.mem_map_of_mem hname)

/-- A dict of different names that is written to properties is read back. -/
theorem KeptRow.exists_pick {names : List String} {row : PyVal Obj} (h : N.KeptRow names row)
    (hnames : names.Nodup) {p : Args Obj}
    (hp : ∀ name ∈ names, p name = N.given ((field name row).getD .none)) :
    ∃ w, Python.pick names p = .ok w ∧ SameItems row w := by
  obtain ⟨value, hsame, hfields⟩ := h.exists_fields hnames
  have hvalue : ∀ name ∈ names, p name = some (value name) := by
    intro name hname
    obtain ⟨hfield, hkept⟩ := hfields name hname
    rw [hp name hname, hfield, Option.getD_some]
    exact hkept
  refine ⟨_, pick_eq_ok.mpr ⟨fun name hname => ?_, rfl⟩, ?_⟩
  · rw [hvalue name hname]
    rfl
  · have hmap : (names.map fun name => item name ((p name).getD .none)) =
        names.map fun name => item name (value name) := by
      refine List.map_congr_left fun name hname => ?_
      rw [hvalue name hname, Option.getD_some]
    rw [hmap]
    exact hsame

/-! ## The parts of the enforcement plane -/

section

variable (h : Loaded N kb gotchas mappings failures actions g) (hq : N.AnswersOf g q)
include h hq

/-- The gotchas are read back when each of them comes back. -/
theorem Loaded.gotchas_iff : ∃ rows, q.gotchas = .ok rows ∧
    ((∃ xs, rows.mapM (fun g => g.need "text") = .ok xs ∧
        kb.enforcementPlane.criticalGotchas = .seq false xs) ↔
      ∃ xs, kb.enforcementPlane.criticalGotchas = .seq false xs ∧ ∀ x ∈ xs, N.Kept x) := by
  have hclean (x : PyVal Obj) : CleanNames "idx" [("text", x)] := by simp [CleanNames]
  have hitems : N.itemsOf kb gotchas mappings failures actions "Gotcha" =
      gotchas.zipIdx.map fun x => N.itemOf "Gotcha" "idx" (.int x.2) [("text", x.1)] := by
    simp [itemsOf, nodeItems]
  obtain ⟨rows, hrows, hall⟩ := h.answer_by_place (by decide) hclean hitems hq.gotchas
  have htext {x : PyVal Obj} {row : Args Obj}
      (hrow : ∃ n : ℕ, row = N.rowOf "idx" (.int n) [("text", x)]) :
      row.need "text" = orRaise (N.given x) := by
    obtain ⟨n, rfl⟩ := hrow
    unfold Args.need
    rw [rowOf_param (hclean x) (p := ("text", x)) List.mem_cons_self]
  refine ⟨rows, hrows, ?_⟩
  constructor
  · rintro ⟨xs, hxs, heq⟩
    refine ⟨xs, heq, fun y hy => ?_⟩
    obtain ⟨row, hrow, hread⟩ := exists_of_mem_mapM_ok hxs hy
    obtain ⟨x, -, hx⟩ := exists_of_forall₂_right hall hrow
    rw [htext hx] at hread
    exact kept_of_given (orRaise_eq_ok.mp hread)
  · rintro ⟨xs, heq, hkept⟩
    have hlist := h.gotchasList
    rw [heq, N.toList_seq] at hlist
    obtain rfl := Option.some.inj hlist
    have hread : List.Forall₂ (fun row x => row.need "text" = .ok x) rows xs := by
      have hboth := (List.forall₂_and_left (p := N.Kept) xs rows).mpr ⟨hkept, hall⟩
      refine (hboth.imp fun x row hx => ?_).flip
      show row.need "text" = .ok x
      rw [htext hx.2]
      exact orRaise_eq_ok.mpr hx.1
    exact ⟨xs, mapM_eq_ok.mpr hread, heq⟩

/-- The field mappings are read back when the values of each of them come back. -/
theorem Loaded.mappings_iff : ∃ rows, q.fieldMappings = .ok rows ∧
    ((∃ ys, rows.mapM (Python.pick MAPPING_FIELDS) = .ok ys ∧
        ∃ xs, kb.enforcementPlane.fieldNameMapping = .seq false xs ∧
          List.Forall₂ SameItems xs ys) ↔
      ∃ xs, kb.enforcementPlane.fieldNameMapping = .seq false xs ∧
        ∀ row ∈ xs, N.KeptRow MAPPING_FIELDS row) := by
  have hclean (x : PyVal Obj) : CleanNames "idx" (fieldParams MAPPING_FIELDS x) := by
    simp [CleanNames, fieldParams, MAPPING_FIELDS]
  have hitems : N.itemsOf kb gotchas mappings failures actions "FieldMapping" =
      mappings.zipIdx.map fun x =>
        N.itemOf "FieldMapping" "idx" (.int x.2) (fieldParams MAPPING_FIELDS x.1) := by
    simp [itemsOf, nodeItems]
  obtain ⟨rows, hrows, hall⟩ := h.answer_by_place (by decide) hclean hitems hq.fieldMappings
  have hvalue {x : PyVal Obj} {row : Args Obj}
      (hrow : ∃ n : ℕ, row = N.rowOf "idx" (.int n) (fieldParams MAPPING_FIELDS x)) :
      ∀ name ∈ MAPPING_FIELDS, row name = N.given ((field name x).getD .none) := by
    obtain ⟨n, rfl⟩ := hrow
    intro name hname
    have hmem : (name, (field name x).getD .none) ∈ fieldParams MAPPING_FIELDS x :=
      List.mem_map_of_mem (f := fun name => (name, (field name x).getD .none)) hname
    exact rowOf_param (hclean x) hmem
  have hlist {xs : List (PyVal Obj)} (heq : kb.enforcementPlane.fieldNameMapping = .seq false xs) :
      mappings = xs := by
    have hlist := h.mappingsList
    rw [heq, N.toList_seq] at hlist
    exact (Option.some.inj hlist).symm
  refine ⟨rows, hrows, ?_⟩
  constructor
  · rintro ⟨ys, hys, xs, heq, hsame⟩
    obtain rfl := hlist heq
    refine ⟨mappings, heq, fun x hx => ?_⟩
    have hboth := List.Forall₂.mp (fun _ _ hread hsame => And.intro hread hsame)
      (forall₂_trans hall (mapM_eq_ok.mp hys)) hsame
    obtain ⟨y, -, ⟨row, hrow, hpick⟩, hxy⟩ := exists_of_forall₂ hboth hx
    exact keptRow_of_sameItems (fun name hname => ⟨_, hvalue hrow name hname⟩) hpick hxy
  · rintro ⟨xs, heq, hkept⟩
    obtain rfl := hlist heq
    have hstep : ∀ x ∈ mappings, ∀ row : Args Obj,
        (∃ n : ℕ, row = N.rowOf "idx" (.int n) (fieldParams MAPPING_FIELDS x)) →
          ∃ y, Python.pick MAPPING_FIELDS row = .ok y ∧ SameItems x y := by
      intro x hx row hrow
      exact (hkept x hx).exists_pick (by decide) (hvalue hrow)
    obtain ⟨ys, hys, hsame⟩ := exists_forall₂_step hall hstep
    exact ⟨ys, mapM_eq_ok.mpr hys, mappings, heq, hsame⟩

/-- The failure modes are read back when the values of each of them come back and their names are
different. -/
theorem Loaded.failures_iff : ∃ rows, q.failureModes = .ok rows ∧
    ((∃ ys, rows.mapM (Python.pick ("name" :: FAILURE_FIELDS)) = .ok ys ∧
        ∃ xs, kb.enforcementPlane.failureModes = .seq false xs ∧ SameUpTo SameItems xs ys) ↔
      ∃ xs, kb.enforcementPlane.failureModes = .seq false xs ∧
        (∀ row ∈ xs, N.KeptRow ("name" :: FAILURE_FIELDS) row) ∧
        xs.Pairwise fun row row' => ∀ v w, field "name" row = some v → field "name" row' = some w →
          N.equal v w = false) := by
  let nameOf (fm : PyVal Obj) : PyVal Obj := (field "name" fm).getD .none
  have hclean (fm : PyVal Obj) : CleanNames "name" (fieldParams FAILURE_FIELDS fm) := by
    simp [CleanNames, fieldParams, FAILURE_FIELDS]
  have hitems : N.itemsOf kb gotchas mappings failures actions "FailureMode" =
      failures.map fun fm =>
        N.itemOf "FailureMode" "name" (nameOf fm) (fieldParams FAILURE_FIELDS fm) := by
    simp [itemsOf, nodeItems, nameOf]
  have hvalue {fm : PyVal Obj} (hfm : fm ∈ failures) :
      ∀ name ∈ "name" :: FAILURE_FIELDS,
        N.rowOf "name" (nameOf fm) (fieldParams FAILURE_FIELDS fm) name =
          N.given ((field name fm).getD .none) := by
    have hsent := (h.sent.failures fm hfm).2
    refine List.forall_mem_cons.mpr ⟨?_, fun name hname => ?_⟩
    · rw [rowOf_key (hclean fm)]
      exact (given_of_stored hsent.value_ne hsent.value_stored).symm
    · have hmem : (name, (field name fm).getD .none) ∈ fieldParams FAILURE_FIELDS fm :=
        List.mem_map_of_mem (f := fun name => (name, (field name fm).getD .none)) hname
      exact rowOf_param (hclean fm) hmem
  have hlist {xs : List (PyVal Obj)} (heq : kb.enforcementPlane.failureModes = .seq false xs) :
      failures = xs := by
    have hlist := h.failuresList
    rw [heq, N.toList_seq] at hlist
    exact (Option.some.inj hlist).symm
  -- The names of dicts whose values come back are as they are stored.
  have hname {fm : PyVal Obj} (hkept : N.KeptRow ("name" :: FAILURE_FIELDS) fm) :
      ∃ v, field "name" fm = some v ∧ nameOf fm = v ∧ N.stored v = v := by
    obtain ⟨value, -, hfields⟩ := hkept.exists_fields (by decide)
    obtain ⟨hfield, hv⟩ := hfields "name" List.mem_cons_self
    obtain ⟨hstore, -⟩ := Option.filter_eq_some_iff.mp hv
    refine ⟨_, hfield, ?_, ?_⟩
    · show (field "name" fm).getD .none = _
      rw [hfield, Option.getD_some]
    · rw [stored, hstore, Option.getD_some]
  have hbykey : ByKey "name" (N.itemsOf kb gotchas mappings failures actions "FailureMode") := by
    rw [hitems]
    exact byKey_items hclean failures
  have hdifferent : Different N.equal
      (N.itemsOf kb gotchas mappings failures actions "FailureMode") ↔
        failures.Pairwise fun fm fm' =>
          N.equal (N.stored (nameOf fm)) (N.stored (nameOf fm')) = false := by
    rw [hitems]
    exact List.pairwise_map
  obtain ⟨rows, hrows, hperm⟩ := hq.failureModes
  rw [h.managedRows_eq (by decide)] at hperm
  have hfresh (hd : Different N.equal
      (N.itemsOf kb gotchas mappings failures actions "FailureMode")) :
      ∃ fms : List (PyVal Obj), fms.Perm failures ∧ rows = fms.map fun fm =>
        N.rowOf "name" (nameOf fm) (fieldParams FAILURE_FIELDS fm) := by
    rw [built_of_different hbykey hd, hitems, List.map_map] at hperm
    exact exists_of_perm_map hperm
  refine ⟨rows, hrows, ?_⟩
  constructor
  · rintro ⟨ys, hys, xs, heq, l, hl, hlys⟩
    obtain rfl := hlist heq
    have hlength : (built N.equal
        (N.itemsOf kb gotchas mappings failures actions "FailureMode")).length =
          (N.itemsOf kb gotchas mappings failures actions "FailureMode").length := by
      have hread := (mapM_eq_ok.mp hys).length_eq
      have hnodes := hperm.length_eq
      have hall := hl.length_eq.trans hlys.length_eq
      have hcount := congrArg List.length hitems
      rw [List.length_map] at hcount
      omega
    have hd := (length_built_iff hbykey).mp hlength
    obtain ⟨fms, hfms, rfl⟩ := hfresh hd
    have hkept : ∀ row ∈ failures, N.KeptRow ("name" :: FAILURE_FIELDS) row := by
      intro row hrow
      obtain ⟨y, hy, hsame⟩ := exists_of_forall₂ hl hrow
      obtain ⟨p, hp, hpick⟩ := exists_of_mem_mapM_ok hys (hlys.mem_iff.mp hy)
      obtain ⟨fm, hfm, rfl⟩ := List.mem_map.mp hp
      exact keptRow_of_sameItems
        (fun name hname => ⟨_, hvalue (hfms.mem_iff.mp hfm) name hname⟩) hpick hsame
    refine ⟨failures, heq, hkept, (hdifferent.mp hd).imp_of_mem ?_⟩
    intro fm fm' hfm hfm' hunequal v w hv hw
    obtain ⟨v', hv', hvname, hvstored⟩ := hname (hkept fm hfm)
    obtain ⟨w', hw', hwname, hwstored⟩ := hname (hkept fm' hfm')
    obtain rfl := Option.some.inj (hv'.symm.trans hv)
    obtain rfl := Option.some.inj (hw'.symm.trans hw)
    rw [hvname, hwname, hvstored, hwstored] at hunequal
    exact hunequal
  · rintro ⟨xs, heq, hkept, hapart⟩
    obtain rfl := hlist heq
    have hd : Different N.equal
        (N.itemsOf kb gotchas mappings failures actions "FailureMode") := by
      refine hdifferent.mpr (hapart.imp_of_mem fun {fm fm'} hfm hfm' hunequal => ?_)
      obtain ⟨v, hv, hvname, hvstored⟩ := hname (hkept fm hfm)
      obtain ⟨w, hw, hwname, hwstored⟩ := hname (hkept fm' hfm')
      rw [hvname, hwname, hvstored, hwstored]
      exact hunequal v w hv hw
    obtain ⟨fms, hfms, rfl⟩ := hfresh hd
    have hpick : ∀ fm ∈ fms, ∃ y, Python.pick ("name" :: FAILURE_FIELDS)
        (N.rowOf "name" (nameOf fm) (fieldParams FAILURE_FIELDS fm)) = .ok y ∧
          SameItems fm y := by
      intro fm hfm
      have hmem := hfms.mem_iff.mp hfm
      exact (hkept fm hmem).exists_pick (by decide) (hvalue hmem)
    obtain ⟨ys, hys⟩ := exists_forall₂ hpick
    have hread : (fms.map fun fm =>
        N.rowOf "name" (nameOf fm) (fieldParams FAILURE_FIELDS fm)).mapM
          (Python.pick ("name" :: FAILURE_FIELDS)) = .ok ys := by
      rw [mapM_eq_ok, List.forall₂_map_left_iff]
      exact hys.imp fun _ _ hy => hy.1
    have hsame : List.Forall₂ SameItems fms ys := hys.imp fun _ _ hy => hy.2
    exact ⟨ys, hread, failures, heq, List.perm_comp_forall₂ hfms.symm hsame⟩

omit hq in
/-- The keys of nodes that are hashed when they are read are no lists. -/
theorem Loaded.scalar_of_hashable {A : Type} {l key : String} {value : A → PyVal Obj}
    {params : A → Params Obj} {xs : List A} (hl : l ∈ LABELS)
    (hclean : ∀ x, CleanNames key (params x))
    (hitems : N.itemsOf kb gotchas mappings failures actions l =
      xs.map fun x => N.itemOf l key (value x) (params x))
    (hsent : ∀ x ∈ xs, N.Sent (value x) (params x))
    (hhash : ∀ p ∈ managedRows g l, ∀ v, p key = some v → N.hashable v = true) :
    ∀ x ∈ xs, ∀ frozen ys, value x ≠ .seq frozen ys := by
  intro x hx frozen ys heq
  have hmem : N.itemOf l key (value x) (params x) ∈
      N.itemsOf kb gotchas mappings failures actions l := by
    rw [hitems]
    exact List.mem_map_of_mem hx
  have hbykey : ByKey key (N.itemsOf kb gotchas mappings failures actions l) := by
    rw [hitems]
    exact byKey_items hclean xs
  have hrow : ∃ p ∈ built N.equal (N.itemsOf kb gotchas mappings failures actions l), ∃ v,
      p key = some v ∧ (v = N.stored (value x) ∨ N.equal v (N.stored (value x)) = true) :=
    exists_row_of_mem hbykey hmem
  obtain ⟨p, hp, v, hv, hvalue⟩ := hrow
  have hstored : ∃ zs, N.stored (value x) = .seq false zs := by
    obtain ⟨w, hw⟩ := Option.isSome_iff_exists.mp (hsent x hx).value_stored
    rw [heq] at hw ⊢
    obtain ⟨zs, rfl⟩ := N.store_seq hw
    exact ⟨zs, by rw [stored, hw, Option.getD_some]⟩
  obtain ⟨zs, hzs⟩ := hstored
  have hlist : ∃ zs, v = .seq false zs := by
    rcases hvalue with hvalue | hvalue
    · exact ⟨zs, hvalue.trans hzs⟩
    · have hequal : N.equal v (.seq false zs) = true := hzs ▸ hvalue
      exact N.equal_seq hequal
  obtain ⟨us, rfl⟩ := hlist
  rw [← h.managedRows_eq hl] at hp
  have hfalse := hhash p hp _ hv
  rw [N.hashable_list] at hfalse
  exact Bool.noConfusion hfalse

/-- The endpoint contracts are read back when their texts come back. -/
theorem Loaded.contracts_iff (hkb : Accepted N.toPython kb) : ∃ rows, q.apiEndpoints = .ok rows ∧
    ((∃ out, N.readDict "endpoint" (fun e => e.need "description") rows = .ok out ∧
        SameDict N.same kb.enforcementPlane.endpointContracts out) ↔
      ∀ i ∈ kb.enforcementPlane.endpointContracts,
        (∀ frozen xs, i.1 ≠ .seq frozen xs) ∧ N.Kept i.2) := by
  generalize hcontracts : kb.enforcementPlane.endpointContracts = contracts
  have hclean (v : PyVal Obj) : CleanNames "endpoint" [("description", v)] := by simp [CleanNames]
  have hitems : N.itemsOf kb gotchas mappings failures actions "ApiEndpoint" =
      contracts.map fun i => N.itemOf "ApiEndpoint" "endpoint" i.1 [("description", i.2)] := by
    simp [itemsOf, nodeItems, hcontracts]
  have hsent : ∀ i ∈ contracts, N.Sent i.1 [("description", i.2)] := hcontracts ▸ h.sent.contracts
  have hdistinct : Dict.Distinct N.same contracts := hcontracts ▸ hkb.contracts
  have hhash : ∀ i ∈ contracts, N.hashable i.1 = true := hcontracts ▸ hkb.endpoints
  obtain ⟨rows, hrows, hperm⟩ := id hq.apiEndpoints
  have hdescription (i : PyVal Obj × PyVal Obj) :
      N.rowOf "endpoint" i.1 [("description", i.2)] "description" = N.given i.2 :=
    rowOf_param (hclean i.2) (p := ("description", i.2)) List.mem_cons_self
  -- What is read when no endpoint is a list and each text is there.
  have hread (read : PyVal Obj → PyVal Obj)
      (hscalar : ∀ i ∈ contracts, ∀ frozen xs, i.1 ≠ .seq frozen xs)
      (hgiven : ∀ i ∈ contracts, N.given i.2 = some (read i.2)) :
      ∃ out, N.readDict "endpoint" (fun e => e.need "description") rows = .ok out ∧
        SameDict N.same (contracts.map fun i => (i.1, read i.2)) out := by
    obtain ⟨rows', hrows', hout⟩ := h.exists_readDict (fun e => e.need "description") read
      (by decide) hclean hitems (fun i hi => stored_of_scalar (hscalar i hi)) hhash hdistinct
      (fun i hi => orRaise_eq_ok.mpr ((hdescription i).trans (hgiven i hi))) hq.apiEndpoints
    obtain rfl := Except.ok.inj (hrows.symm.trans hrows')
    exact hout
  refine ⟨rows, hrows, ?_⟩
  constructor
  · rintro ⟨out, hout, hsame⟩
    obtain ⟨items, hall, -⟩ := Python.readDict_eq_ok.mp hout
    have hrow : ∀ p ∈ managedRows g "ApiEndpoint", (∃ v, p "description" = some v) ∧
        ∀ v, p "endpoint" = some v → N.hashable v = true := by
      intro p hp
      obtain ⟨i, -, hmake, hkey, hi⟩ := exists_of_forall₂ hall (hperm.mem_iff.mpr hp)
      refine ⟨⟨i.2, orRaise_eq_ok.mp hmake⟩, fun v hv => ?_⟩
      obtain rfl := Option.some.inj (hkey.symm.trans hv)
      exact hi
    have hscalar := h.scalar_of_hashable (by decide) (fun i => hclean (Prod.snd i)) hitems hsent
      fun p hp => (hrow p hp).2
    have hgiven : ∀ i ∈ contracts, N.given i.2 = some ((N.given i.2).getD .none) := by
      intro i hi
      have hnode : N.rowOf "endpoint" i.1 [("description", i.2)] ∈ managedRows g "ApiEndpoint" := by
        rw [h.managedRows_eq (by decide), hitems, built_of_distinct (fun i => hclean (Prod.snd i))
          (fun i hi => stored_of_scalar (hscalar i hi)) hdistinct]
        exact List.mem_map_of_mem (f := fun i : PyVal Obj × PyVal Obj =>
          N.rowOf "endpoint" i.1 [("description", i.2)]) hi
      obtain ⟨v, hv⟩ := (hrow _ hnode).1
      rw [hdescription] at hv
      rw [hv, Option.getD_some]
    obtain ⟨out', hout', hsame'⟩ := hread (fun v => (N.given v).getD .none) hscalar hgiven
    obtain rfl := Except.ok.inj (hout.symm.trans hout')
    have hback := (Python.sameDict_map_iff (f := fun i => (N.given i.2).getD .none) hdistinct).mp
      fun k => (hsame k).trans (hsame' k).symm
    intro i hi
    refine ⟨hscalar i hi, ?_⟩
    have hvalue := hgiven i hi
    rw [hback i hi] at hvalue
    exact hvalue
  · intro hall
    obtain ⟨out, hout, hsame⟩ := hread id (fun i hi => (hall i hi).1)
      fun i hi => (hall i hi).2
    refine ⟨out, hout, ?_⟩
    simpa using hsame

/-- The contract of the roles is read back when it comes back. -/
theorem Loaded.rbac_iff : ∃ r, q.rbacContract = .ok [r] ∧
    (r.need "text" = .ok kb.enforcementPlane.rbacContract ↔
      N.Kept kb.enforcementPlane.rbacContract) := by
  refine ⟨_, (h.meta_answers hq).2.1, ?_⟩
  have hc := cleanNames_rbac kb.enforcementPlane.rbacContract
  unfold Args.need
  rw [rowOf_param hc (p := ("text", kb.enforcementPlane.rbacContract)) List.mem_cons_self]
  exact orRaise_eq_ok

omit h hq in
/-- What the enforcement plane is read of. -/
theorem readEnforcementPlane_eq_ok {contractRows mappingRows gotchaRows failureRows : List (Args Obj)}
    {r : Args Obj} (hcontracts : q.apiEndpoints = .ok contractRows)
    (hmappings : q.fieldMappings = .ok mappingRows) (hgotchas : q.gotchas = .ok gotchaRows)
    (hfailures : q.failureModes = .ok failureRows) (hrbac : q.rbacContract = .ok [r])
    {out : EnforcementPlane Obj} : N.readEnforcementPlane q = .ok out ↔
      N.readDict "endpoint" (fun e => e.need "description") contractRows =
        .ok out.endpointContracts ∧
      (∃ ys, mappingRows.mapM (Python.pick MAPPING_FIELDS) = .ok ys ∧
        out.fieldNameMapping = .seq false ys) ∧
      (∃ xs, gotchaRows.mapM (fun g => g.need "text") = .ok xs ∧
        out.criticalGotchas = .seq false xs) ∧
      (∃ ys, failureRows.mapM (Python.pick ("name" :: FAILURE_FIELDS)) = .ok ys ∧
        out.failureModes = .seq false ys) ∧
      r.need "text" = .ok out.rbacContract := by
  unfold Python.readEnforcementPlane
  rw [hcontracts, hmappings, hgotchas, hfailures, hrbac]
  simp only [ok_bind]
  constructor
  · intro hout
    obtain ⟨contracts, hreadContracts, hout⟩ := except_bind_eq_ok hout
    obtain ⟨mapping, hreadMapping, hout⟩ := except_bind_eq_ok hout
    obtain ⟨xs, hreadTexts, hout⟩ := except_bind_eq_ok hout
    obtain ⟨failures', hreadFailures, hout⟩ := except_bind_eq_ok hout
    obtain ⟨text, hreadText, hout⟩ := except_bind_eq_ok hout
    obtain rfl := Except.ok.inj hout
    exact ⟨hreadContracts, ⟨mapping, hreadMapping, rfl⟩, ⟨xs, hreadTexts, rfl⟩,
      ⟨failures', hreadFailures, rfl⟩, hreadText⟩
  · obtain ⟨contracts, mapping, texts, failures', text⟩ := out
    rintro ⟨hreadContracts, ⟨ys, hreadMapping, rfl⟩, ⟨xs, hreadTexts, rfl⟩,
      ⟨zs, hreadFailures, rfl⟩, hreadText⟩
    unfold MAPPING_FIELDS at hreadMapping
    unfold FAILURE_FIELDS at hreadFailures
    rw [hreadContracts, ok_bind, hreadMapping, ok_bind, hreadTexts, ok_bind, hreadFailures,
      ok_bind, hreadText]
    rfl

/-- The enforcement plane is read back when each of its parts comes back. -/
theorem Loaded.readEnforcementPlane_iff (hkb : Accepted N.toPython kb) :
    (∃ out, N.readEnforcementPlane q = .ok out ∧
        SamePlane N.toPython kb.enforcementPlane out) ↔
      (∀ i ∈ kb.enforcementPlane.endpointContracts,
        (∀ frozen xs, i.1 ≠ .seq frozen xs) ∧ N.Kept i.2) ∧
      (∃ rows, kb.enforcementPlane.fieldNameMapping = .seq false rows ∧
        ∀ row ∈ rows, N.KeptRow MAPPING_FIELDS row) ∧
      (∃ xs, kb.enforcementPlane.criticalGotchas = .seq false xs ∧ ∀ x ∈ xs, N.Kept x) ∧
      (∃ rows, kb.enforcementPlane.failureModes = .seq false rows ∧
        (∀ row ∈ rows, N.KeptRow ("name" :: FAILURE_FIELDS) row) ∧
        rows.Pairwise fun row row' => ∀ v w, field "name" row = some v →
          field "name" row' = some w → N.equal v w = false) ∧
      N.Kept kb.enforcementPlane.rbacContract := by
  obtain ⟨contractRows, hcontracts, contracts_iff⟩ := h.contracts_iff hq hkb
  obtain ⟨mappingRows, hmappings, mappings_iff⟩ := h.mappings_iff hq
  obtain ⟨gotchaRows, hgotchas, gotchas_iff⟩ := h.gotchas_iff hq
  obtain ⟨failureRows, hfailures, failures_iff⟩ := h.failures_iff hq
  obtain ⟨r, hrbac, rbac_iff⟩ := h.rbac_iff hq
  rw [← contracts_iff, ← mappings_iff, ← gotchas_iff, ← failures_iff, ← rbac_iff]
  have hread (out : EnforcementPlane Obj) : N.readEnforcementPlane q = .ok out ↔ _ :=
    readEnforcementPlane_eq_ok hcontracts hmappings hgotchas hfailures hrbac
  constructor
  · rintro ⟨out, hout, hsame⟩
    obtain ⟨hreadContracts, ⟨ys, hys, hmapping⟩, ⟨texts, htexts, hgotchas⟩, ⟨zs, hzs, hmodes⟩,
      htext⟩ := (hread out).mp hout
    obtain ⟨xs, ys', hxs, hys', hall⟩ := hsame.fieldNameMapping
    obtain ⟨fs, zs', hfs, hzs', hfailures⟩ := hsame.failureModes
    obtain ⟨-, rfl⟩ := PyVal.seq.inj (hmapping.symm.trans hys')
    obtain ⟨-, rfl⟩ := PyVal.seq.inj (hmodes.symm.trans hzs')
    refine ⟨⟨_, hreadContracts, hsame.endpointContracts⟩, ⟨ys, hys, xs, hxs, hall⟩,
      ⟨texts, htexts, hsame.criticalGotchas.trans hgotchas⟩, ⟨zs, hzs, fs, hfs, hfailures⟩, ?_⟩
    rw [htext, hsame.rbacContract]
  · rintro ⟨⟨contracts, hreadContracts, hsameContracts⟩, ⟨ys, hys, xs, hxs, hall⟩,
      ⟨texts, htexts, hgotchas⟩, ⟨zs, hzs, fs, hfs, hfailures⟩, htext⟩
    refine ⟨{
      endpointContracts := contracts
      fieldNameMapping := .seq false ys
      criticalGotchas := .seq false texts
      failureModes := .seq false zs
      rbacContract := kb.enforcementPlane.rbacContract },
      (hread _).mpr ⟨hreadContracts, ⟨ys, hys, rfl⟩, ⟨texts, htexts, rfl⟩, ⟨zs, hzs, rfl⟩, htext⟩, ?_⟩
    exact ⟨hsameContracts, ⟨xs, ys, hxs, rfl, hall⟩, hgotchas, ⟨fs, zs, hfs, rfl, hfailures⟩, rfl⟩

/-! ## The invariants -/

variable (N) in
/-- The loop over the rows of what is never blocked. -/
def readCidrs (rows : List (Args Obj)) :
    Except Failure (List (PyVal Obj) × List (PyVal Obj × PyVal Obj)) :=
  rows.foldlM (fun (cidrs, rationale) n => do
    let cidr ← n.need "cidr"
    let rationale ← N.setKey cidr (n.getD "rationale" (.str [])) rationale
    return (cidrs ++ [cidr], rationale)) ([], [])

omit h hq in
theorem readCidrs_eq_ok {rows : List (Args Obj)}
    {out : List (PyVal Obj) × List (PyVal Obj × PyVal Obj)} : N.readCidrs rows = .ok out ↔
      ∃ items : List (PyVal Obj × PyVal Obj), List.Forall₂ (fun row i =>
        row "cidr" = some i.1 ∧ N.hashable i.1 = true ∧
          row.getD "rationale" (.str []) = i.2) rows items ∧
        out = (items.map Prod.fst, Dict.ofList N.same items) := by
  have hgeneral (before : List (PyVal Obj × PyVal Obj)) :
      rows.foldlM (fun (cidrs, rationale) n => do
        let cidr ← n.need "cidr"
        let rationale ← N.setKey cidr (n.getD "rationale" (.str [])) rationale
        return (cidrs ++ [cidr], rationale))
          (before.map Prod.fst, Dict.ofList N.same before) = .ok out ↔
        ∃ items : List (PyVal Obj × PyVal Obj), List.Forall₂ (fun row i =>
          row "cidr" = some i.1 ∧ N.hashable i.1 = true ∧
            row.getD "rationale" (.str []) = i.2) rows items ∧
          out = ((before ++ items).map Prod.fst, Dict.ofList N.same (before ++ items)) := by
    induction rows generalizing before with
    | nil =>
      rw [List.foldlM_nil]
      constructor
      · intro h
        exact ⟨[], .nil, by rw [List.append_nil]; exact (Except.ok.inj h).symm⟩
      · rintro ⟨items, hitems, rfl⟩
        rw [List.forall₂_nil_left_iff.mp hitems, List.append_nil]
        rfl
    | cons row rows ih =>
      have hstep (i : PyVal Obj × PyVal Obj) :
          ((before.map Prod.fst) ++ [i.1], Dict.set N.same i.1 i.2 (Dict.ofList N.same before)) =
            ((before ++ [i]).map Prod.fst, Dict.ofList N.same (before ++ [i])) := by
        rw [List.map_append, Dict.ofList, Dict.ofList, List.foldl_append]
        rfl
      rw [List.foldlM_cons]
      constructor
      · intro h
        obtain ⟨⟨cidrs, rationale⟩, hrow, h⟩ := except_bind_eq_ok h
        obtain ⟨cidr, hcidr, hrow⟩ := except_bind_eq_ok hrow
        obtain ⟨more, hmore, hrow⟩ := except_bind_eq_ok hrow
        unfold Python.setKey at hmore
        split_ifs at hmore with hhash
        have hstate := (Except.ok.inj hrow).symm
        rw [← Except.ok.inj hmore,
          hstep (cidr, row.getD "rationale" (.str []))] at hstate
        rw [hstate] at h
        obtain ⟨items, hitems, hout⟩ := (ih _).mp h
        refine ⟨(cidr, row.getD "rationale" (.str [])) :: items,
          .cons ⟨orRaise_eq_ok.mp hcidr, hhash, rfl⟩ hitems, ?_⟩
        rw [hout, List.append_assoc]
        rfl
      · rintro ⟨items, hitems, hout⟩
        obtain ⟨i, more, ⟨hcidr, hhash, hvalue⟩, hmore, rfl⟩ :=
          List.forall₂_cons_left_iff.mp hitems
        have hneed : row.need "cidr" = .ok i.1 := orRaise_eq_ok.mpr hcidr
        dsimp only
        rw [hneed, ok_bind, Python.setKey, if_pos hhash, ok_bind, hvalue]
        show rows.foldlM _ ((before.map Prod.fst) ++ [i.1],
          Dict.set N.same i.1 i.2 (Dict.ofList N.same before)) = (Except.ok out : Except Failure _)
        rw [hstep]
        refine (ih _).mpr ⟨more, hmore, ?_⟩
        rw [hout, List.append_assoc]
        rfl
  exact hgeneral []

/-- What is never blocked is read back when no two addresses are equal and each rationale comes
back. -/
theorem Loaded.neverBlock_iff (hkb : Accepted N.toPython kb) : ∃ rows, q.neverBlock = .ok rows ∧
    ((∃ out, N.readCidrs rows = .ok out ∧
        kb.invariants.neverBlockCidrs.Perm out.1 ∧
          SameDict N.same kb.invariants.neverBlockRationale out.2) ↔
      (kb.invariants.neverBlockCidrs.Pairwise fun c d => N.equal c d = false) ∧
        ∀ c ∈ kb.invariants.neverBlockCidrs, (∀ frozen xs, c ≠ .seq frozen xs) ∧
          N.Kept (N.rationaleOf kb.invariants c)) := by
  generalize hinv : kb.invariants = inv
  have hsent : ∀ c ∈ inv.neverBlockCidrs, N.Sent c [("rationale", N.rationaleOf inv c)] :=
    hinv ▸ h.sent.neverBlock
  have hhash : ∀ c ∈ inv.neverBlockCidrs, N.hashable c = true := hinv ▸ hkb.cidrs
  have hkeys : ∀ k, (Dict.lookup N.same k inv.neverBlockRationale).isSome = true ↔
      ∃ c ∈ inv.neverBlockCidrs, N.same c k = true := hinv ▸ hkb.rationale
  have hclean (c : PyVal Obj) : CleanNames "cidr" [("rationale", N.rationaleOf inv c)] := by
    simp [CleanNames]
  have hitems : N.itemsOf kb gotchas mappings failures actions "NeverBlockEntry" =
      inv.neverBlockCidrs.map fun c =>
        N.itemOf "NeverBlockEntry" "cidr" c [("rationale", N.rationaleOf inv c)] := by
    simp [itemsOf, nodeItems, hinv]
  have hbykey : ByKey "cidr"
      (N.itemsOf kb gotchas mappings failures actions "NeverBlockEntry") := by
    rw [hitems]
    exact byKey_items hclean _
  have hdifferent (hscalar : ∀ c ∈ inv.neverBlockCidrs, ∀ frozen xs, c ≠ .seq frozen xs) :
      Different N.equal (N.itemsOf kb gotchas mappings failures actions "NeverBlockEntry") ↔
        inv.neverBlockCidrs.Pairwise fun c d => N.equal c d = false := by
    rw [hitems]
    refine List.pairwise_map.trans (List.Pairwise.iff_of_mem fun {c d} hc hd => ?_)
    show N.equal (N.stored c) (N.stored d) = false ↔ _
    rw [stored_of_scalar (hscalar c hc), stored_of_scalar (hscalar d hd)]
  let read (v : PyVal Obj) : PyVal Obj := (N.given v).getD (.str [])
  -- The rationale of an address that is a key of the dict.
  have hrationale {c k : PyVal Obj} (hck : N.same c k = true) {v : PyVal Obj}
      (hv : Dict.lookup N.same k inv.neverBlockRationale = some v) : N.rationaleOf inv c = v := by
    rw [rationaleOf, Dict.lookup_congr N.same_equiv hck, hv, Option.getD_some]
  obtain ⟨rows, hrows, hperm⟩ := hq.neverBlock
  rw [h.managedRows_eq (by decide)] at hperm
  have hread (hscalar : ∀ c ∈ inv.neverBlockCidrs, ∀ frozen xs, c ≠ .seq frozen xs)
      (hapart : inv.neverBlockCidrs.Pairwise fun c d => N.equal c d = false) :
      ∃ cs : List (PyVal Obj), cs.Perm inv.neverBlockCidrs ∧
        List.Forall₂ (fun row (i : PyVal Obj × PyVal Obj) => row "cidr" = some i.1 ∧
          N.hashable i.1 = true ∧ Args.getD row "rationale" (.str []) = i.2) rows
            (cs.map fun c => (c, read (N.rationaleOf inv c))) := by
    rw [built_of_different hbykey ((hdifferent hscalar).mpr hapart), hitems, List.map_map] at hperm
    obtain ⟨cs, hcs, rfl⟩ := exists_of_perm_map hperm
    refine ⟨cs, hcs, ?_⟩
    rw [List.forall₂_map_left_iff, List.forall₂_map_right_iff, List.forall₂_same]
    intro c hc
    have hmem := hcs.mem_iff.mp hc
    refine ⟨?_, hhash c hmem, ?_⟩
    · exact (rowOf_key (hclean c)).trans (congrArg some (stored_of_scalar (hscalar c hmem)))
    · show (N.rowOf "cidr" c [("rationale", N.rationaleOf inv c)] "rationale").getD _ = _
      rw [rowOf_param (hclean c) (p := ("rationale", N.rationaleOf inv c)) List.mem_cons_self]
  have hlookup {cs : List (PyVal Obj)} (hcs : cs.Perm inv.neverBlockCidrs) (k : PyVal Obj) :
      Dict.lookup N.same k (Dict.ofList N.same (cs.map fun c => (c, read (N.rationaleOf inv c)))) =
        (Dict.lookup N.same k inv.neverBlockRationale).map read := by
    generalize hread : cs.map (fun c => (c, read (N.rationaleOf inv c))) = items
    have hitem : ∀ i ∈ items, ∃ c ∈ inv.neverBlockCidrs, i = (c, read (N.rationaleOf inv c)) := by
      rw [← hread]
      intro i hi
      obtain ⟨c, hc, rfl⟩ := List.mem_map.mp hi
      exact ⟨c, hcs.mem_iff.mp hc, rfl⟩
    cases hk : Dict.lookup N.same k inv.neverBlockRationale with
    | none =>
      rw [Option.map_none, Option.eq_none_iff_forall_not_mem]
      intro v hv
      obtain ⟨i, hi, hik, -⟩ := Dict.exists_of_lookup_ofList N.same_equiv hv
      obtain ⟨c, hc, rfl⟩ := hitem i hi
      have hsome := (hkeys k).mpr ⟨c, hc, hik⟩
      rw [hk] at hsome
      cases hsome
    | some v =>
      obtain ⟨c, hc, hck⟩ := (hkeys k).mp (by rw [hk]; rfl)
      have hmem : (c, read (N.rationaleOf inv c)) ∈ items := by
        rw [← hread]
        exact List.mem_map_of_mem (f := fun c => (c, read (N.rationaleOf inv c)))
          (hcs.mem_iff.mpr hc)
      have hsome := Dict.lookup_ofList_isSome N.same_equiv hmem hck
      obtain ⟨w, hw⟩ := Option.isSome_iff_exists.mp hsome
      obtain ⟨i, hi, hik, hvalue⟩ := Dict.exists_of_lookup_ofList N.same_equiv hw
      obtain ⟨d, hd, rfl⟩ := hitem i hi
      rw [hw, Option.map_some, ← hvalue, hrationale hik hk]
  have hsame {cs : List (PyVal Obj)} (hcs : cs.Perm inv.neverBlockCidrs) :
      SameDict N.same inv.neverBlockRationale
        (Dict.ofList N.same (cs.map fun c => (c, read (N.rationaleOf inv c)))) ↔
          ∀ c ∈ inv.neverBlockCidrs, N.Kept (N.rationaleOf inv c) := by
    constructor
    · intro hall c hc
      have hstored := (hsent c hc).params_stored ("rationale", N.rationaleOf inv c) (by simp)
      obtain ⟨v, hv⟩ := Option.isSome_iff_exists.mp ((hkeys c).mpr ⟨c, hc, N.same_equiv.refl c⟩)
      have hback := hall c
      rw [hlookup hcs, hv, Option.map_some, Option.some.injEq,
        ← hrationale (N.same_equiv.refl c) hv] at hback
      exact (kept_iff_getD hstored).mpr hback.symm
    · intro hall k
      rw [hlookup hcs]
      cases hk : Dict.lookup N.same k inv.neverBlockRationale with
      | none => rfl
      | some v =>
        obtain ⟨c, hc, hck⟩ := (hkeys k).mp (by rw [hk]; rfl)
        have hkept := hall c hc
        rw [hrationale hck hk] at hkept
        show some v = some ((N.given v).getD (.str []))
        rw [hkept, Option.getD_some]
  refine ⟨rows, hrows, ?_⟩
  constructor
  · rintro ⟨out, hout, hperm', hdict⟩
    obtain ⟨items, hall, rfl⟩ := readCidrs_eq_ok.mp hout
    have hscalar := h.scalar_of_hashable (by decide) hclean hitems hsent fun p hp v hv => by
      rw [h.managedRows_eq (by decide)] at hp
      obtain ⟨i, -, hcidr, hi, -⟩ := exists_of_forall₂ hall (hperm.mem_iff.mpr hp)
      obtain rfl := Option.some.inj (hcidr.symm.trans hv)
      exact hi
    have hlength : (built N.equal
        (N.itemsOf kb gotchas mappings failures actions "NeverBlockEntry")).length =
          (N.itemsOf kb gotchas mappings failures actions "NeverBlockEntry").length := by
      have hread := hall.length_eq
      have hnodes := hperm.length_eq
      have hcidrs := hperm'.length_eq
      have hcount := congrArg List.length hitems
      rw [List.length_map] at hcidrs hcount
      omega
    have hapart := (hdifferent hscalar).mp ((length_built_iff hbykey).mp hlength)
    obtain ⟨cs, hcs, hcsrows⟩ := hread hscalar hapart
    have hback : N.readCidrs rows = .ok _ := readCidrs_eq_ok.mpr ⟨_, hcsrows, rfl⟩
    have hout' := Except.ok.inj (hout.symm.trans hback)
    have hdict' : SameDict N.same inv.neverBlockRationale (Dict.ofList N.same items) := hdict
    rw [(Prod.mk.inj hout').2] at hdict'
    exact ⟨hapart, fun c hc => ⟨hscalar c hc, (hsame hcs).mp hdict' c hc⟩⟩
  · rintro ⟨hapart, hall⟩
    obtain ⟨cs, hcs, hcsrows⟩ := hread (fun c hc => (hall c hc).1) hapart
    refine ⟨_, readCidrs_eq_ok.mpr ⟨_, hcsrows, rfl⟩, ?_, (hsame hcs).mpr fun c hc => (hall c hc).2⟩
    rw [List.map_map]
    have hmap : cs.map (Prod.fst ∘ fun c => (c, read (N.rationaleOf inv c))) = cs :=
      List.map_id cs
    rw [hmap]
    exact hcs.symm

/-- The invariants are read back when each of their parts comes back. -/
theorem Loaded.readInvariants_iff (hkb : Accepted N.toPython kb) :
    (∃ out, N.readInvariants q = .ok out ∧ SameInvariants N.toPython kb.invariants out) ↔
      ((kb.invariants.neverBlockCidrs.Pairwise fun c d => N.equal c d = false) ∧
        ∀ c ∈ kb.invariants.neverBlockCidrs, (∀ frozen xs, c ≠ .seq frozen xs) ∧
          N.Kept (N.rationaleOf kb.invariants c)) ∧
      N.KeptSet kb.invariants.allowedAgentActions ∧
      N.Kept (.seq false kb.invariants.protectedCommentPrefixes) ∧
      N.Kept kb.invariants.agentCommentPrefix := by
  obtain ⟨rows, hrows, cidrs_iff⟩ := h.neverBlock_iff hq hkb
  have hmeta := (h.meta_answers hq).2.2
  generalize hm : N.rowOf "key" (.str (u "agent_invariants"))
    (invariantParams kb.invariants actions) = m at hmeta
  have hc := cleanNames_invariants kb.invariants actions
  have hparams := h.sent.invariants.params_stored
  have hactions : m "allowed_agent_actions" = N.given (.seq false actions) := by
    rw [← hm, rowOf_param hc (p := ("allowed_agent_actions", .seq false actions))
      (by simp [invariantParams])]
  have hprefixes : m "protected_comment_prefixes" =
      N.given (.seq false kb.invariants.protectedCommentPrefixes) := by
    rw [← hm, rowOf_param hc
      (p := ("protected_comment_prefixes", .seq false kb.invariants.protectedCommentPrefixes))
      (by simp [invariantParams])]
  have hprefix : m "agent_comment_prefix" = N.given kb.invariants.agentCommentPrefix := by
    rw [← hm, rowOf_param hc (p := ("agent_comment_prefix", kb.invariants.agentCommentPrefix))
      (by simp [invariantParams])]
  have hprefixStored := hparams ("agent_comment_prefix", kb.invariants.agentCommentPrefix)
    (by simp [invariantParams])
  obtain ⟨zs, hstored, hgiven⟩ := exists_given_seq (hparams
    ("allowed_agent_actions", .seq false actions) (by simp [invariantParams]))
  obtain ⟨ps, -, hpsgiven⟩ := exists_given_seq (hparams
    ("protected_comment_prefixes", .seq false kb.invariants.protectedCommentPrefixes)
    (by simp [invariantParams]))
  rw [hgiven] at hactions
  rw [hpsgiven] at hprefixes
  have hset : N.toSet (m.getD "allowed_agent_actions" (.seq false [.str (u "DROP")])) =
      if zs.all N.hashable then some zs else none := by
    unfold Python.toSet Args.getD
    rw [hactions, Option.getD_some, N.toList_seq]
    rfl
  have hlist : N.toList (m.getD "protected_comment_prefixes" (.seq false [])) = some ps := by
    rw [Args.getD, hprefixes, Option.getD_some, N.toList_seq]
  have hread (out : Invariants Obj) : N.readInvariants q = .ok out ↔
      ∃ read, N.readCidrs rows = .ok read ∧ zs.all N.hashable = true ∧ out = {
        neverBlockCidrs := read.1
        neverBlockRationale := read.2
        allowedAgentActions := zs
        protectedCommentPrefixes := ps
        agentCommentPrefix :=
          (N.given kb.invariants.agentCommentPrefix).getD (.str (u "nos:agent-")) } := by
    unfold Python.readInvariants
    rw [hrows, hmeta, ok_bind]
    change (N.readCidrs rows >>= fun read => _) = _ ↔ _
    simp only [ok_bind, hset, hlist, orRaise]
    constructor
    · intro hout
      obtain ⟨read, hcidrs, hout⟩ := except_bind_eq_ok hout
      obtain ⟨set, hset, hout⟩ := except_bind_eq_ok hout
      split_ifs at hset with hhash
      obtain rfl := Except.ok.inj hset
      refine ⟨read, hcidrs, hhash, ?_⟩
      rw [← Except.ok.inj hout, Args.getD, hprefix]
    · rintro ⟨read, hcidrs, hhash, rfl⟩
      rw [hcidrs, ok_bind, if_pos hhash, Args.getD, hprefix]
      rfl
  -- The set is stored as one list only.
  have hkeptSet : N.KeptSet kb.invariants.allowedAgentActions ↔ zs.all N.hashable = true ∧
      ∀ v, (∃ x ∈ kb.invariants.allowedAgentActions, N.same x v = true) ↔
        ∃ z ∈ zs, N.same z v = true := by
    constructor
    · rintro ⟨ys, zs', hys, hzs, hhash, hsame⟩
      obtain rfl := Option.some.inj (hys.symm.trans h.actionsList)
      rw [hstored, Option.some.injEq, PyVal.seq.injEq] at hzs
      rw [hzs.2]
      exact ⟨hhash, hsame⟩
    · rintro ⟨hhash, hsame⟩
      exact ⟨actions, zs, h.actionsList, hstored, hhash, hsame⟩
  have hkeptPrefixes : N.Kept (.seq false kb.invariants.protectedCommentPrefixes) ↔
      kb.invariants.protectedCommentPrefixes = ps := by
    rw [Kept, hpsgiven, Option.some.injEq, PyVal.seq.injEq, eq_comm (a := ps)]
    exact and_iff_right rfl
  rw [← cidrs_iff, hkeptSet, hkeptPrefixes, kept_iff_getD (s := u "nos:agent-") hprefixStored]
  constructor
  · rintro ⟨out, hout, hsame⟩
    obtain ⟨read, hcidrs, hhash, rfl⟩ := (hread out).mp hout
    exact ⟨⟨read, hcidrs, hsame.neverBlockCidrs, hsame.neverBlockRationale⟩,
      ⟨hhash, hsame.allowedAgentActions⟩, hsame.protectedCommentPrefixes,
      hsame.agentCommentPrefix.symm⟩
  · rintro ⟨⟨read, hcidrs, hperm, hdict⟩, ⟨hhash, hset⟩, hpre, hagent⟩
    exact ⟨_, (hread _).mpr ⟨read, hcidrs, hhash, rfl⟩, hperm, hdict, hset, hpre, hagent.symm⟩

end

end Neo4j

end ControlPlane.Know
