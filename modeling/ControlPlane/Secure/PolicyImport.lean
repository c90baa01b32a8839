import ControlPlane.Secure.Calls
import ControlPlane.Lib.Dict
import ControlPlane.Lib.JsonIndent

/-!
# The export and the import of the role policies

`export_policies` and `import_policies` of `sam/role_policy.py`, with the JSON text in between. The
table of the policies is a dictionary with a policy for each role, in the order of the roles in
`DEFAULT_POLICIES`: no call takes a role out (`keys_of_reachable`).

An import of what was exported puts the table back, whatever has become of it. An import that raises
has stored the entries in front of the one that it raises at, so it leaves the table as it was just
when these were there already (`restores_and_atomic_iff`).
-/

namespace ControlPlane.Secure.PolicyEngine

open JsonText

variable {Obj : Type}

/-! ## The table -/

deriving instance DecidableEq for Secure.RolePolicy

/-- `RolePolicy`, with the role that it names itself, which may be another one than the role that it
is stored for. -/
structure RolePolicy extends Secure.RolePolicy where
  /-- `onap_role`. -/
  onapRole : OnapRole
  deriving DecidableEq

/-- Whether two roles are one. -/
def sameRole (r s : OnapRole) : Bool := r = s

/-- `_policies`. -/
abbrev PolicyTable := List (OnapRole × RolePolicy)

/-- `DEFAULT_POLICIES`. -/
def DEFAULT_POLICIES : PolicyTable :=
  [(.admin, ⟨⟨[.admin, .operator], .admin⟩, .admin⟩),
    (.operator, ⟨⟨[.operator], .operator⟩, .operator⟩),
    (.agent, ⟨⟨[.admin], .admin⟩, .agent⟩)]

/-- `update_policy`. -/
def updatePolicy (role : OnapRole) (allowed : Option (List SonicRole)) (default : Option SonicRole)
    (p : PolicyTable) : PolicyTable :=
  let current := Dict.lookup sameRole role p
  let allowed := allowed.getD ((current.map (·.allowedSonicRoles)).getD [.operator])
  let default := default.getD ((current.map (·.defaultSonicRole)).getD .operator)
  let default := if default ∈ allowed then default else allowed.headD .operator
  Dict.set sameRole role ⟨⟨allowed, default⟩, role⟩ p

/-! ## The export -/

/-- `to_dict`. -/
def RolePolicy.toDict (p : RolePolicy) : PyVal Obj :=
  .dict [(.str (u "onap_role"), .str (u p.onapRole.value)),
    (.str (u "allowed_sonic_roles"),
      .seq false (p.allowedSonicRoles.map fun r => .str (u r.value))),
    (.str (u "default_sonic_role"), .str (u p.defaultSonicRole.value))]

/-- `get_all_policies`. -/
def getAllPolicies (p : PolicyTable) : PyVal Obj :=
  .dict (p.map fun i => (.str (u i.1.value), i.2.toDict))

/-- `export_policies`. -/
def exportPolicies (J : Interp Obj) (p : PolicyTable) : Except PyStr PyStr :=
  J.dumpsIndented 2 (getAllPolicies p)

/-! ## The import -/

/-- What an import raises. -/
inductive ImportError where
  /-- What `json.loads` raises. -/
  | load (e : LoadError)
  /-- The `AttributeError` for a document that is no dict. -/
  | attribute
  /-- The `ValueError` for a value that is no role. -/
  | value
  /-- The `KeyError` for a missing field. -/
  | key
  /-- The `TypeError` for a value without fields or without items. -/
  | type
  deriving DecidableEq

/-- `OnapRole(x)`. -/
def toOnapRole : PyVal Obj → Except ImportError OnapRole
  | .str s =>
    match [OnapRole.admin, .operator, .agent].find? fun role => u role.value = s with
    | some role => .ok role
    | none => .error .value
  | _ => .error .value

/-- `SonicRole(x)`. -/
def toSonicRole : PyVal Obj → Except ImportError SonicRole
  | .str s =>
    match [SonicRole.admin, .operator].find? fun role => u role.value = s with
    | some role => .ok role
    | none => .error .value
  | _ => .error .value

/-- `data[key]`. -/
def field (key : PyStr) : PyVal Obj → Except ImportError (PyVal Obj)
  | .dict items =>
    match getItem key items with
    | some v => .ok v
    | none => .error .key
  | _ => .error .type

/-- The key of a dict that was read, as a value. -/
def keyVal (k : PyKey Obj) : PyVal Obj := .str (Interp.keyText k)

/-- The values that `for r in x` goes through. -/
def iter : PyVal Obj → Except ImportError (List (PyVal Obj))
  | .seq _ xs => .ok xs
  | .dict items => .ok (items.map fun i => keyVal i.1)
  | .str s => .ok (s.map fun c => .str [c])
  | _ => .error .type

/-- `from_dict`. -/
def RolePolicy.fromDict (data : PyVal Obj) : Except ImportError RolePolicy := do
  let role ← toOnapRole (← field (u "onap_role") data)
  let items ← iter (← field (u "allowed_sonic_roles") data)
  let allowed ← firstError (items.map toSonicRole)
  let default ← toSonicRole (← field (u "default_sonic_role") data)
  return ⟨⟨allowed, default⟩, role⟩

/-- An item of the document: the role, and its policy. -/
def readEntry (i : PyKey Obj × PyVal Obj) : Except ImportError (OnapRole × RolePolicy) := do
  let role ← toOnapRole (keyVal i.1)
  let policy ← RolePolicy.fromDict i.2
  return (role, policy)

/-- The loop of `import_policies`: the table, and what it raises. -/
def importItems : List (PyKey Obj × PyVal Obj) → PolicyTable → PolicyTable × Option ImportError
  | [], p => (p, none)
  | i :: rest, p =>
    match readEntry i with
    | .ok (role, policy) => importItems rest (Dict.set sameRole role policy p)
    | .error e => (p, some e)

/-- `import_policies`: the table afterwards, and what it raises. -/
def importPolicies (J : Interp Obj) (jsonStr : PyStr) (p : PolicyTable) :
    PolicyTable × Option ImportError :=
  match J.loads jsonStr with
  | .ok (.dict items) => importItems items p
  | .ok _ => (p, some .attribute)
  | .error e => (p, some (.load e))

/-- A table that calls of the engine lead to. -/
inductive Reachable (J : Interp Obj) : PolicyTable → Prop
  | start : Reachable J DEFAULT_POLICIES
  | update {p : PolicyTable} (role : OnapRole) (allowed : Option (List SonicRole))
      (default : Option SonicRole) : Reachable J p → Reachable J (updatePolicy role allowed default p)
  | importing {p : PolicyTable} (jsonStr : PyStr) :
      Reachable J p → Reachable J (importPolicies J jsonStr p).1
  | reset {p : PolicyTable} : Reachable J p → Reachable J DEFAULT_POLICIES

/-! ## The roles of a table -/

theorem sameRole_equivalence : Equivalence fun r s => sameRole r s = true := by
  have h (r s : OnapRole) : sameRole r s = true ↔ r = s := decide_eq_true_iff
  simp only [h]
  exact eq_equivalence

/-- A role that has a policy keeps its place when it gets another one. -/
theorem keys_set {role : OnapRole} {p : PolicyTable} (h : role ∈ p.map Prod.fst)
    (policy : RolePolicy) : (Dict.set sameRole role policy p).map Prod.fst = p.map Prod.fst := by
  induction p with
  | nil => simp at h
  | cons i rest ih =>
    obtain ⟨r, x⟩ := i
    rw [Dict.set]
    split_ifs with hr
    · rfl
    · have hne : role ≠ r := by
        rintro rfl
        exact hr (sameRole_equivalence.refl role)
      have hrest : role ∈ rest.map Prod.fst := (List.mem_cons.mp h).resolve_left hne
      rw [List.map_cons, List.map_cons, ih hrest]

/-- The roles, in the order of the default table. -/
def ROLES : List OnapRole := [.admin, .operator, .agent]

theorem mem_ROLES (role : OnapRole) : role ∈ ROLES := by
  cases role
  all_goals decide

/-- A table with a policy for each role still has one for each after another was stored. -/
theorem keys_set_eq {p : PolicyTable} (hp : p.map Prod.fst = ROLES) (role : OnapRole)
    (policy : RolePolicy) : (Dict.set sameRole role policy p).map Prod.fst = ROLES := by
  rw [keys_set (hp ▸ mem_ROLES role), hp]

/-- An import stores policies only. -/
theorem keys_importItems {p : PolicyTable} (hp : p.map Prod.fst = ROLES)
    (items : List (PyKey Obj × PyVal Obj)) : (importItems items p).1.map Prod.fst = ROLES := by
  induction items generalizing p with
  | nil => exact hp
  | cons i rest ih =>
    unfold importItems
    split
    · exact ih (keys_set_eq hp _ _)
    · exact hp

/-- There is a policy for each role, in the order of the default table. -/
theorem keys_of_reachable {J : Interp Obj} {p : PolicyTable} (hp : Reachable J p) :
    p.map Prod.fst = ROLES := by
  induction hp with
  | start => rfl
  | reset => rfl
  | update role allowed default _ ih => exact keys_set_eq ih _ _
  | importing jsonStr _ ih =>
    unfold importPolicies
    split
    · exact keys_importItems ih _
    · exact ih
    · exact ih

/-- A table with a policy for each role. -/
theorem exists_policies {p : PolicyTable} (hp : p.map Prod.fst = ROLES) :
    ∃ a o g, p = [(.admin, a), (.operator, o), (.agent, g)] := by
  match p, hp with
  | [(r, a), (s, o), (t, g)], h =>
    simp only [ROLES, List.map_cons, List.map_nil, List.cons.injEq, and_true] at h
    obtain ⟨rfl, rfl, rfl⟩ := h
    exact ⟨a, o, g, rfl⟩

/-! ## What was exported is imported -/

theorem toOnapRole_value (role : OnapRole) :
    toOnapRole (.str (u role.value) : PyVal Obj) = .ok role := by
  cases role
  all_goals rfl

theorem toSonicRole_value (role : SonicRole) :
    toSonicRole (.str (u role.value) : PyVal Obj) = .ok role := by
  cases role
  all_goals rfl

/-- The roles of a list are read back. -/
theorem firstError_toSonicRole (roles : List SonicRole) :
    firstError ((roles.map fun r => (.str (u r.value) : PyVal Obj)).map toSonicRole) =
      .ok roles := by
  induction roles with
  | nil => rfl
  | cons r rest ih =>
    rw [List.map_cons, List.map_cons, firstError, toSonicRole_value, ih]
    rfl

/-- A policy is read back from its dict. -/
theorem fromDict_toDict (p : RolePolicy) : RolePolicy.fromDict (p.toDict : PyVal Obj) = .ok p := by
  have hrole : field (u "onap_role") (p.toDict : PyVal Obj) =
      .ok (.str (u p.onapRole.value)) := rfl
  have hallowed : field (u "allowed_sonic_roles") (p.toDict : PyVal Obj) =
      .ok (.seq false (p.allowedSonicRoles.map fun r => .str (u r.value))) := rfl
  have hdefault : field (u "default_sonic_role") (p.toDict : PyVal Obj) =
      .ok (.str (u p.defaultSonicRole.value)) := rfl
  unfold RolePolicy.fromDict
  rw [hrole, hallowed, hdefault]
  simp only [bind, Except.bind, toOnapRole_value, iter, firstError_toSonicRole, toSonicRole_value]
  rfl

theorem readEntry_toDict (role : OnapRole) (p : RolePolicy) :
    readEntry ((.str (u role.value), p.toDict) : PyKey Obj × PyVal Obj) = .ok (role, p) := by
  have hrole : toOnapRole (keyVal (.str (u role.value) : PyKey Obj)) = .ok role :=
    toOnapRole_value role
  unfold readEntry
  simp only [hrole, fromDict_toDict, bind, Except.bind]
  rfl

/-- The entries of a table are stored in place of those of any other one. -/
theorem importItems_getAllPolicies {p q : PolicyTable} (hp : p.map Prod.fst = ROLES)
    (hq : q.map Prod.fst = ROLES) :
    importItems (p.map fun i => ((.str (u i.1.value), i.2.toDict) : PyKey Obj × PyVal Obj)) q =
      (p, none) := by
  obtain ⟨a, o, g, rfl⟩ := exists_policies hp
  obtain ⟨a', o', g', rfl⟩ := exists_policies hq
  simp only [List.map_cons, List.map_nil, importItems, readEntry_toDict]
  rfl

/-- A value that is written, and read as it was: at most `d` levels deep, of JSON, and without
pairs of surrogates. -/
structure Kept (J : Interp Obj) (d : ℕ) (v : PyVal Obj) : Prop where
  writable : J.Writable v
  isJson : IsJson v
  joined : JoinedVal v
  nested : v.NestedIn d

section Kept

variable {J : Interp Obj} {d : ℕ}

theorem kept_str (s : String) : Kept J d (.str (u s)) where
  writable := ⟨_, trivial, fun _ hw => absurd hw List.not_mem_nil⟩
  isJson := ⟨_, trivial, fun _ hw => absurd hw List.not_mem_nil⟩
  joined := ⟨_, joined_u s, fun _ hw => absurd hw List.not_mem_nil⟩
  nested := .scalar d _ (by simp) (by simp)

theorem kept_seq {xs : List (PyVal Obj)} (h : ∀ w ∈ xs, Kept J d w) :
    Kept J (d + 1) (.seq false xs) where
  writable := J.writable_seq.mpr fun w hw => (h w hw).writable
  isJson := isJson_seq fun w hw => (h w hw).isJson
  joined := ⟨_, trivial, fun w hw => (h w hw).joined⟩
  nested := PyVal.nestedIn_seq.mpr fun w hw => (h w hw).nested

/-- A dict of different keys that are texts of the program. -/
theorem kept_dict {items : List (String × PyVal Obj)} (hnodup : (items.map Prod.fst).Nodup)
    (h : ∀ i ∈ items, Kept J d i.2) :
    Kept J (d + 1) (.dict (items.map fun i => (.str (u i.1), i.2))) where
  writable := J.writable_dict.mpr (by
    intro j hj
    obtain ⟨i, hi, rfl⟩ := List.mem_map.mp hj
    exact ⟨trivial, (h i hi).writable⟩)
  isJson := by
    refine isJson_dict ⟨?_, ?_⟩ ?_
    · intro j hj
      obtain ⟨i, -, rfl⟩ := List.mem_map.mp hj
      exact ⟨u i.1, rfl⟩
    · have hkeys : (items.map fun i => ((.str (u i.1) : PyKey Obj), i.2)).map Prod.fst =
          (items.map Prod.fst).map fun s => .str (u s) := by simp
      rw [hkeys]
      exact hnodup.map fun s t hst => u_injective (PyKey.str.inj hst)
    · intro j hj
      obtain ⟨i, hi, rfl⟩ := List.mem_map.mp hj
      exact (h i hi).isJson
  joined := by
    refine ⟨_, ?_, ?_⟩
    · intro j hj s hs
      obtain ⟨i, -, rfl⟩ := List.mem_map.mp hj
      obtain rfl := PyKey.str.inj hs
      exact joined_u i.1
    · intro w hw
      obtain ⟨j, hj, rfl⟩ := List.mem_map.mp hw
      obtain ⟨i, hi, rfl⟩ := List.mem_map.mp hj
      exact (h i hi).joined
  nested := PyVal.nestedIn_dict.mpr (by
    intro j hj
    obtain ⟨i, hi, rfl⟩ := List.mem_map.mp hj
    exact (h i hi).nested)

/-- What is kept is read back from its text. -/
theorem Kept.loads {v : PyVal Obj} (h : Kept J d v) (hdumps : d ≤ J.dumpsDepth)
    (hloads : d ≤ J.loadsDepth) (indent : ℕ) :
    ∃ t, J.dumpsIndented indent v = .ok t ∧ J.loads t = .ok v := by
  have hdump : J.dumps J.plain v = .ok (Interp.print v) :=
    J.encode_plain_eq_ok.mpr ⟨⟨h.writable, h.nested.mono hdumps⟩, rfl⟩
  refine ⟨printIndented indent 0 v, ?_, ?_⟩
  · rw [Interp.dumpsIndented, hdump]
    rfl
  · rw [J.loads_printIndented indent h.writable (h.nested.mono hloads),
      readBack_eq_self h.isJson h.joined]

end Kept

/-- The dict of a policy is two levels deep. -/
theorem kept_toDict (J : Interp Obj) (p : RolePolicy) : Kept J 2 p.toDict := by
  have hroles : Kept J 1
      (.seq false (p.allowedSonicRoles.map fun r => (.str (u r.value) : PyVal Obj))) := by
    refine kept_seq fun w hw => ?_
    obtain ⟨r, -, rfl⟩ := List.mem_map.mp hw
    exact kept_str r.value
  let items : List (String × PyVal Obj) := [("onap_role", .str (u p.onapRole.value)),
    ("allowed_sonic_roles", .seq false (p.allowedSonicRoles.map fun r => .str (u r.value))),
    ("default_sonic_role", .str (u p.defaultSonicRole.value))]
  have hnodup : (items.map Prod.fst).Nodup :=
    show ["onap_role", "allowed_sonic_roles", "default_sonic_role"].Nodup by decide
  have hitems : ∀ i ∈ items, Kept J 1 i.2 := by
    intro i hi
    simp only [items, List.mem_cons, List.not_mem_nil, or_false] at hi
    rcases hi with rfl | rfl | rfl
    · exact kept_str _
    · exact hroles
    · exact kept_str _
  exact kept_dict hnodup hitems

/-- The document of a table is three levels deep. -/
theorem kept_getAllPolicies (J : Interp Obj) {p : PolicyTable} (hp : p.map Prod.fst = ROLES) :
    Kept J 3 (getAllPolicies p) := by
  have hnodup : ((p.map fun i => (i.1.value, (i.2.toDict : PyVal Obj))).map Prod.fst).Nodup := by
    have hkeys : (p.map fun i => (i.1.value, (i.2.toDict : PyVal Obj))).map Prod.fst =
        (p.map Prod.fst).map OnapRole.value := by simp
    rw [hkeys, hp]
    decide
  have h := kept_dict (J := J) (d := 2) hnodup fun i hi => by
    obtain ⟨j, -, rfl⟩ := List.mem_map.mp hi
    exact kept_toDict J j.2
  rw [List.map_map] at h
  exact h

/-- An import of what was exported puts the table back, whatever has become of it. -/
theorem importPolicies_exportPolicies {J : Interp Obj} (hdumps : 3 ≤ J.dumpsDepth)
    (hloads : 3 ≤ J.loadsDepth) {p q : PolicyTable} (hp : p.map Prod.fst = ROLES)
    (hq : q.map Prod.fst = ROLES) :
    ∃ t, exportPolicies J p = .ok t ∧ importPolicies J t q = (p, none) := by
  obtain ⟨t, hexport, hload⟩ := (kept_getAllPolicies J hp).loads hdumps hloads 2
  refine ⟨t, hexport, ?_⟩
  unfold importPolicies
  rw [hload]
  exact importItems_getAllPolicies hp hq

/-! ## What is left of an import that raises -/

/-- The role of an entry is what its key says. -/
theorem key_of_readEntry {i : PyKey Obj × PyVal Obj} {role : OnapRole} {policy : RolePolicy}
    (h : readEntry i = .ok (role, policy)) : Interp.keyText i.1 = u role.value := by
  obtain ⟨r, hr, h⟩ := except_bind_eq_ok h
  obtain ⟨x, -, h⟩ := except_bind_eq_ok h
  obtain ⟨rfl, rfl⟩ := Prod.mk.inj (Except.ok.inj h)
  rw [keyVal, toOnapRole] at hr
  split at hr
  · next role hfind =>
    obtain rfl := Except.ok.inj hr
    have hvalue := List.find?_some hfind
    exact (of_decide_eq_true hvalue).symm
  · exact nomatch hr

/-- The entries in front of the first one that is none. -/
def readable (items : List (PyKey Obj × PyVal Obj)) : List (OnapRole × RolePolicy) :=
  match items with
  | [] => []
  | i :: rest =>
    match readEntry i with
    | .ok e => e :: readable rest
    | .error _ => []

/-- An import stores the entries in front of the first one that is none. -/
theorem importItems_fst (items : List (PyKey Obj × PyVal Obj)) (p : PolicyTable) :
    (importItems items p).1 =
      (readable items).foldl (fun d e => Dict.set sameRole e.1 e.2 d) p := by
  induction items generalizing p with
  | nil => rfl
  | cons i rest ih =>
    rw [importItems, readable]
    cases readEntry i with
    | error e => rfl
    | ok e => exact ih _

theorem exists_of_mem_readable {items : List (PyKey Obj × PyVal Obj)} {e : OnapRole × RolePolicy}
    (he : e ∈ readable items) : ∃ i ∈ items, readEntry i = .ok e := by
  induction items with
  | nil => exact absurd he List.not_mem_nil
  | cons i rest ih =>
    rw [readable] at he
    split at he
    · next e' hi =>
      rcases List.mem_cons.mp he with rfl | he
      · exact ⟨i, List.mem_cons_self, hi⟩
      · obtain ⟨j, hj, hread⟩ := ih he
        exact ⟨j, List.mem_cons_of_mem i hj, hread⟩
    · exact absurd he List.not_mem_nil

/-- The entries of a document of different keys are of different roles. -/
theorem distinct_readable {items : List (PyKey Obj × PyVal Obj)}
    (hkeys : ∀ i ∈ items, ∃ s, i.1 = .str s) (hnodup : (items.map Prod.fst).Nodup) :
    Dict.Distinct sameRole (readable items) := by
  induction items with
  | nil => exact List.Pairwise.nil
  | cons i rest ih =>
    obtain ⟨hi, hrest⟩ := List.nodup_cons.mp hnodup
    rw [readable]
    split
    · next e hread =>
      refine List.pairwise_cons.mpr ⟨fun e' he' => ?_, ih
        (fun j hj => hkeys j (List.mem_cons_of_mem i hj)) hrest⟩
      obtain ⟨j, hj, hread'⟩ := exists_of_mem_readable he'
      obtain ⟨s, hs⟩ := hkeys i List.mem_cons_self
      obtain ⟨t, ht⟩ := hkeys j (List.mem_cons_of_mem i hj)
      refine decide_eq_false fun hrole => hi ?_
      -- Two entries of one role have one key, and there is but one of that.
      have hkey : s = t := by
        have hs' := key_of_readEntry hread
        have ht' := key_of_readEntry hread'
        rw [hs] at hs'
        rw [ht] at ht'
        exact hs'.trans ((congrArg (fun r => u (OnapRole.value r)) hrole).trans ht'.symm)
      rw [hs, hkey, ← ht]
      exact List.mem_map_of_mem hj
    · exact List.Pairwise.nil

/-- An import raises at the first entry that is none. -/
theorem importItems_snd {items : List (PyKey Obj × PyVal Obj)} {p : PolicyTable} {e : ImportError} :
    (importItems items p).2 = some e ↔
      ∃ before bad after, items = before ++ bad :: after ∧
        (∀ i ∈ before, ∃ entry, readEntry i = .ok entry) ∧ readEntry bad = .error e := by
  induction items generalizing p with
  | nil => simp [importItems]
  | cons i rest ih =>
    rw [importItems]
    split
    · next role policy hi =>
      rw [ih]
      constructor
      · rintro ⟨before, bad, after, rfl, hbefore, hbad⟩
        refine ⟨i :: before, bad, after, rfl, fun j hj => ?_, hbad⟩
        rcases List.mem_cons.mp hj with rfl | hj
        · exact ⟨_, hi⟩
        · exact hbefore j hj
      · rintro ⟨before, bad, after, heq, hbefore, hbad⟩
        cases before with
        | nil =>
          obtain ⟨rfl, rfl⟩ := List.cons.inj heq
          rw [hi] at hbad
          exact nomatch hbad
        | cons j before =>
          obtain ⟨rfl, rfl⟩ := List.cons.inj heq
          exact ⟨before, bad, after, rfl, fun k hk => hbefore k (List.mem_cons_of_mem i hk), hbad⟩
    · next e' hi =>
      constructor
      · intro he
        obtain rfl := Option.some.inj he
        exact ⟨[], i, rest, rfl, fun j hj => absurd hj List.not_mem_nil, hi⟩
      · rintro ⟨before, bad, after, heq, hbefore, hbad⟩
        cases before with
        | nil =>
          obtain ⟨rfl, rfl⟩ := List.cons.inj heq
          rw [hi] at hbad
          rw [Except.error.inj hbad]
        | cons j before =>
          obtain ⟨rfl, rfl⟩ := List.cons.inj heq
          obtain ⟨entry, hentry⟩ := hbefore i List.mem_cons_self
          rw [hi] at hentry
          exact nomatch hentry

/-- The entries that are stored are those in front of the first one that is none. -/
theorem mem_readable {before after : List (PyKey Obj × PyVal Obj)} {bad : PyKey Obj × PyVal Obj}
    (hbefore : ∀ i ∈ before, ∃ entry, readEntry i = .ok entry) {e : ImportError}
    (hbad : readEntry bad = .error e) {entry : OnapRole × RolePolicy} :
    entry ∈ readable (before ++ bad :: after) ↔ ∃ i ∈ before, readEntry i = .ok entry := by
  induction before with
  | nil => simp [readable, hbad]
  | cons i before ih =>
    obtain ⟨first, hi⟩ := hbefore i List.mem_cons_self
    have hrest := ih fun j hj => hbefore j (List.mem_cons_of_mem i hj)
    rw [List.cons_append, readable, hi]
    rw [List.mem_cons, hrest, List.exists_mem_cons_iff, hi, Except.ok.injEq]
    exact or_congr_left eq_comm

/-! ## Both together -/

/-- An import of what was exported from one table puts it in the place of the other one. -/
def Restores (J : Interp Obj) (p q : PolicyTable) : Prop :=
  ∃ t, exportPolicies J p = .ok t ∧ importPolicies J t q = (p, none)

/-- An import of this text leaves the table as it was if it raises. -/
def UnchangedOnError (J : Interp Obj) (jsonStr : PyStr) (q : PolicyTable) : Prop :=
  ∀ e, (importPolicies J jsonStr q).2 = some e → (importPolicies J jsonStr q).1 = q

/-- The entries in front of the first one of the text that is none are there already. -/
def AlreadyThere (J : Interp Obj) (jsonStr : PyStr) (q : PolicyTable) : Prop :=
  ∀ before bad after e, J.loads jsonStr = .ok (.dict (before ++ bad :: after)) →
    (∀ i ∈ before, ∃ entry, readEntry i = .ok entry) → readEntry bad = .error e →
    ∀ i ∈ before, ∀ entry, readEntry i = .ok entry →
      Dict.lookup sameRole entry.1 q = some entry.2

/-- An import that raises leaves the table as it was just when what it has stored was there. -/
theorem unchangedOnError_iff {J : Interp Obj} {jsonStr : PyStr} {q : PolicyTable} :
    UnchangedOnError J jsonStr q ↔ AlreadyThere J jsonStr q := by
  unfold UnchangedOnError AlreadyThere importPolicies
  split
  · next items hload =>
    obtain ⟨hkeys, hnodup⟩ : JsonNode (.dict items) := (J.isJson_of_loads hload).1.here
    have hsame : (importItems items q).1 = q ↔
        ∀ entry ∈ readable items, Dict.lookup sameRole entry.1 q = some entry.2 := by
      rw [importItems_fst]
      exact Dict.foldl_set_eq_self_iff sameRole_equivalence (distinct_readable hkeys hnodup) q
    constructor
    · intro h before bad after e hdoc hbefore hbad i hi entry hentry
      obtain rfl : items = before ++ bad :: after :=
        PyVal.dict.inj (Except.ok.inj (hload.symm.trans hdoc))
      have hraise := (importItems_snd (p := q)).mpr ⟨before, bad, after, rfl, hbefore, hbad⟩
      exact hsame.mp (h e hraise) entry ((mem_readable hbefore hbad).mpr ⟨i, hi, hentry⟩)
    · intro h e hraise
      obtain ⟨before, bad, after, rfl, hbefore, hbad⟩ := importItems_snd.mp hraise
      refine hsame.mpr fun entry hentry => ?_
      obtain ⟨i, hi, hread⟩ := (mem_readable hbefore hbad).mp hentry
      exact h before bad after e hload hbefore hbad i hi entry hread
  · next v hne hload =>
    refine iff_of_true (fun e _ => rfl) fun before bad after e hdoc => ?_
    exact absurd (hload.symm.trans hdoc) (by simpa using hne _)
  · next e' hload =>
    refine iff_of_true (fun e _ => rfl) fun before bad after e hdoc => ?_
    exact nomatch hload.symm.trans hdoc

/-- For all tables that the engine gets to: an import puts back what was exported, and one that
raises leaves the table as it was, just when each entry that it has stored was there already. -/
theorem restores_and_atomic_iff {J : Interp Obj} (hdumps : 3 ≤ J.dumpsDepth)
    (hloads : 3 ≤ J.loadsDepth) {p q : PolicyTable} (hp : Reachable J p) (hq : Reachable J q)
    (jsonStr : PyStr) :
    Restores J p q ∧ UnchangedOnError J jsonStr q ↔ AlreadyThere J jsonStr q := by
  rw [unchangedOnError_iff]
  exact and_iff_right (importPolicies_exportPolicies hdumps hloads (keys_of_reachable hp)
    (keys_of_reachable hq))

/-- A document with the policy that the OPERATOR role has, and an unknown role behind it. -/
def sameDocument : PyStr :=
  u ("\x7b\"operator\": \x7b\"onap_role\": \"operator\", " ++
    "\"allowed_sonic_roles\": [\"operator\"], \"default_sonic_role\": \"operator\"\x7d, " ++
    "\"root\": null\x7d")

/-- An import of that document raises, and the default table is as it was. -/
theorem restores_and_atomic_default :
    Restores textInterp DEFAULT_POLICIES DEFAULT_POLICIES ∧
      UnchangedOnError textInterp sameDocument DEFAULT_POLICIES := by
  have hsame : (importPolicies textInterp sameDocument DEFAULT_POLICIES).1 = DEFAULT_POLICIES := by
    decide +kernel
  refine (restores_and_atomic_iff (by decide) (by decide) .start .start sameDocument).mpr ?_
  exact unchangedOnError_iff.mp fun _ _ => hsame

/-- A document with a new policy of the ADMIN role, and an unknown role behind it. -/
def halfDocument : PyStr :=
  u ("\x7b\"admin\": \x7b\"onap_role\": \"admin\", \"allowed_sonic_roles\": [\"operator\"], " ++
    "\"default_sonic_role\": \"operator\"\x7d, \"root\": null\x7d")

/-- An import of that document raises, and has changed the policy of the ADMIN role. -/
theorem exists_not_atomic :
    ¬ ∀ (J : Interp PyStr) (p q : PolicyTable) (jsonStr : PyStr), 3 ≤ J.dumpsDepth →
      3 ≤ J.loadsDepth → Reachable J p → Reachable J q →
      Restores J p q ∧ UnchangedOnError J jsonStr q := by
  intro hall
  obtain ⟨-, h⟩ := hall textInterp DEFAULT_POLICIES DEFAULT_POLICIES halfDocument (by decide)
    (by decide) .start .start
  have hraise : (importPolicies textInterp halfDocument DEFAULT_POLICIES).2 = some .value := by
    decide +kernel
  have hchanged : Dict.lookup sameRole .admin
      (importPolicies textInterp halfDocument DEFAULT_POLICIES).1 =
        some ⟨⟨[.operator], .operator⟩, .admin⟩ := by
    decide +kernel
  rw [h .value hraise] at hchanged
  exact absurd hchanged (by decide)

end ControlPlane.Secure.PolicyEngine
