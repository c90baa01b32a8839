import ControlPlane.Lib.JsonText

/-!
# Reading JSON texts

`json.loads` of Python. The decoder fails with a `JSONDecodeError` on a text that is none of JSON,
with a `RecursionError` on one that is nested too deep, and with another `ValueError` on an integer
with too many digits. What it returns is a value of JSON that is no deeper than it goes
(`isJson_of_loads`). The fuel of the model is always enough (`loads_ne_fuel`).
-/

namespace ControlPlane.JsonText

/-! ## Texts -/

/-- A high surrogate. -/
def isHigh (c : CodePoint) : Bool := 0xd800 ≤ c.val && c.val ≤ 0xdbff

/-- A low surrogate. -/
def isLow (c : CodePoint) : Bool := 0xdc00 ≤ c.val && c.val ≤ 0xdfff

/-- The code point of a pair of surrogates. -/
def joinPair (high low : CodePoint) : CodePoint :=
  Fin.ofNat _ (0x10000 + (high.val - 0xd800) * 0x400 + (low.val - 0xdc00))

/-- The value of a hexadecimal digit. -/
def hexVal (c : CodePoint) : Option ℕ :=
  if 48 ≤ c.val ∧ c.val ≤ 57 then some (c.val - 48)
  else if 97 ≤ c.val ∧ c.val ≤ 102 then some (c.val - 87)
  else if 65 ≤ c.val ∧ c.val ≤ 70 then some (c.val - 55)
  else none

/-- The code unit of four hexadecimal digits. -/
def hex4 (a b c d : CodePoint) : Option CodePoint := do
  let a ← hexVal a
  let b ← hexVal b
  let c ← hexVal c
  let d ← hexVal d
  return Fin.ofNat _ (4096 * a + 256 * b + 16 * c + d)

/-- The escapes with a letter: the letter, and the code point. -/
def UNESCAPES : List (CodePoint × CodePoint) :=
  [(34, 34), (92, 92), (47, 47), (98, 8), (102, 12), (110, 10), (114, 13), (116, 9)]

/-- The rest of a text in quotes: its code points, each with whether it stands as `\uXXXX`, and what
follows the quote. -/
def scanUnits : PyStr → Option (List (Bool × CodePoint) × PyStr)
  | [] => none
  | c :: rest =>
    if c = 34 then some ([], rest)
    else if c = 92 then
      match rest with
      | [] => none
      | e :: rest =>
        if e = 117 then
          match rest with
          | a :: b :: c :: d :: rest => do
            let x ← hex4 a b c d
            let (units, rest) ← scanUnits rest
            return ((true, x) :: units, rest)
          | _ => none
        else do
          let x ← UNESCAPES.lookup e
          let (units, rest) ← scanUnits rest
          return ((false, x) :: units, rest)
    else if c < 32 then none
    else do
      let (units, rest) ← scanUnits rest
      return ((false, c) :: units, rest)

/-- The text of these units: an escaped high surrogate and an escaped low one are joined. -/
def joinUnits : List (Bool × CodePoint) → PyStr
  | [] => []
  | [x] => [x.2]
  | x :: y :: rest =>
    if x.1 && y.1 && isHigh x.2 && isLow y.2 then joinPair x.2 y.2 :: joinUnits rest
    else x.2 :: joinUnits (y :: rest)

/-- `scanstring`, behind the quote. -/
def scanString (s : PyStr) : Option (PyStr × PyStr) := do
  let (units, rest) ← scanUnits s
  return (joinUnits units, rest)

/-! ## Numbers -/

/-- A digit. -/
def isDigit (c : CodePoint) : Bool := 48 ≤ c.val && c.val ≤ 57

/-- A sign, if there is one, and what follows it. -/
def scanSign (signs : List CodePoint) : PyStr → PyStr × PyStr
  | [] => ([], [])
  | c :: rest => if c ∈ signs then ([c], rest) else ([], c :: rest)

/-- The digits before the point: a zero, or as many as there are. -/
def scanWhole : PyStr → Option (PyStr × PyStr)
  | [] => none
  | c :: rest =>
    if c = 48 then some ([48], rest)
    else if isDigit c then some (c :: rest.takeWhile isDigit, rest.dropWhile isDigit)
    else none

/-- The point with the digits behind it, when there are any. -/
def scanFrac : PyStr → PyStr × PyStr
  | [] => ([], [])
  | c :: rest =>
    if c = 46 ∧ rest.takeWhile isDigit ≠ [] then
      (46 :: rest.takeWhile isDigit, rest.dropWhile isDigit)
    else ([], c :: rest)

/-- The exponent, when it has digits. -/
def scanExp : PyStr → PyStr × PyStr
  | [] => ([], [])
  | c :: rest =>
    let (sign, digits) := scanSign [43, 45] rest
    if (c = 101 ∨ c = 69) ∧ digits.takeWhile isDigit ≠ [] then
      (c :: (sign ++ digits.takeWhile isDigit), digits.dropWhile isDigit)
    else ([], c :: rest)

/-- A number of a text: its parts, and what follows it. -/
structure NumberToken where
  /-- The minus, if there is one. -/
  sign : PyStr
  /-- The digits before the point. -/
  whole : PyStr
  /-- The point and the digits behind it. -/
  frac : PyStr
  /-- The exponent. -/
  exp : PyStr
  /-- What follows. -/
  rest : PyStr

/-- `_match_number_unicode`. -/
def scanNumber (s : PyStr) : Option NumberToken := do
  let (sign, s) := scanSign [45] s
  let (whole, s) ← scanWhole s
  let (frac, s) := scanFrac s
  let (exp, s) := scanExp s
  return ⟨sign, whole, frac, exp, s⟩

/-- The number that these digits write. -/
def ofDigits (digits : PyStr) : ℕ := digits.foldl (fun n c => 10 * n + (c.val - 48)) 0

/-! ## Values -/

/-- Why a text is not read. -/
inductive LoadError where
  /-- A `JSONDecodeError`. -/
  | decode
  /-- The `ValueError` for an integer with too many digits. -/
  | digits
  /-- The `RecursionError`. -/
  | depth
  /-- The fuel of the model has run out. -/
  | fuel
  deriving DecidableEq

/-- White space of JSON. -/
def isBlank (c : CodePoint) : Bool := c = 32 || c = 9 || c = 10 || c = 13

/-- What follows the white space. -/
def skipBlanks (s : PyStr) : PyStr := s.dropWhile isBlank

variable {Obj : Type}

/-- `d[key] = value`. -/
def setItem (key : PyStr) (value : PyVal Obj) :
    List (PyKey Obj × PyVal Obj) → List (PyKey Obj × PyVal Obj)
  | [] => [(.str key, value)]
  | (k, v) :: rest =>
    if keyStr k = some key then (k, value) :: rest else (k, v) :: setItem key value rest

/-- The dict of these items: the first place and the last value of each key. -/
def asDict (items : List (PyStr × PyVal Obj)) : List (PyKey Obj × PyVal Obj) :=
  items.foldl (fun d i => setItem i.1 i.2 d) []

/-- The words of JSON. -/
def WORDS : List (PyStr × PyVal Obj) :=
  [(u "null", .none), (u "true", .bool true), (u "false", .bool false), (u "NaN", .float .nan),
    (u "Infinity", .float (.inf false)), (u "-Infinity", .float (.inf true))]

/-- A word, and what follows it. -/
def scanWord (s : PyStr) : Option (PyVal Obj × PyStr) :=
  WORDS.findSome? fun w => (s.dropPrefix? w.1).map (w.2, ·)

namespace Interp

variable (J : Interp Obj)

/-- The number of a token. -/
def number (t : NumberToken) : Except LoadError (PyVal Obj × PyStr) :=
  if t.frac = [] ∧ t.exp = [] then
    if J.maxDigits < t.whole.length then .error .digits
    else if t.sign = [] then .ok (.int (ofDigits t.whole), t.rest)
    else .ok (.int (-ofDigits t.whole), t.rest)
  else .ok (.float (J.toFloat (t.sign ++ t.whole ++ t.frac ++ t.exp)), t.rest)

/-- A text, a word or a number. -/
def scanScalar : PyStr → Except LoadError (PyVal Obj × PyStr)
  | [] => .error .decode
  | c :: rest =>
    if c = 34 then
      match scanString rest with
      | some (s, rest) => .ok (.str s, rest)
      | none => .error .decode
    else
      match scanWord (c :: rest) with
      | some r => .ok r
      | none =>
        match scanNumber (c :: rest) with
        | some t => J.number t
        | none => .error .decode

mutual

/-- `scan_once`, which may go `d` levels down. -/
def scanValue : ℕ → ℕ → PyStr → Except LoadError (PyVal Obj × PyStr)
  | 0, _, _ => .error .fuel
  | n + 1, d, s =>
    if s.head? = some 91 then
      match d with
      | 0 => .error .depth
      | d + 1 => do
        let s := skipBlanks s.tail
        if s.head? = some 93 then return (.seq false [], s.tail)
        let (xs, rest) ← scanElements n d s
        return (.seq false xs, rest)
    else if s.head? = some 123 then
      match d with
      | 0 => .error .depth
      | d + 1 => do
        let s := skipBlanks s.tail
        if s.head? = some 125 then return (.dict [], s.tail)
        let (items, rest) ← scanMembers n d s
        return (.dict (asDict items), rest)
    else J.scanScalar s

/-- The items of a list, from the first one on. -/
def scanElements : ℕ → ℕ → PyStr → Except LoadError (List (PyVal Obj) × PyStr)
  | 0, _, _ => .error .fuel
  | n + 1, d, s => do
    let (v, rest) ← scanValue n d s
    let rest := skipBlanks rest
    if rest.head? = some 93 then return ([v], rest.tail)
    else if rest.head? = some 44 then do
      let (vs, rest) ← scanElements n d (skipBlanks rest.tail)
      return (v :: vs, rest)
    else .error .decode

/-- The items of a dict, from the first one on. -/
def scanMembers : ℕ → ℕ → PyStr → Except LoadError (List (PyStr × PyVal Obj) × PyStr)
  | 0, _, _ => .error .fuel
  | n + 1, d, s =>
    if s.head? = some 34 then
      match scanString s.tail with
      | none => .error .decode
      | some (key, rest) => do
        let rest := skipBlanks rest
        if rest.head? = some 58 then do
          let (v, rest) ← scanValue n d (skipBlanks rest.tail)
          let rest := skipBlanks rest
          if rest.head? = some 125 then return ([(key, v)], rest.tail)
          else if rest.head? = some 44 then do
            let (items, rest) ← scanMembers n d (skipBlanks rest.tail)
            return ((key, v) :: items, rest)
          else .error .decode
        else .error .decode
    else .error .decode

end

/-- `json.loads(s)`. -/
def loads (s : PyStr) : Except LoadError (PyVal Obj) :=
  if s.head? = some 0xfeff then .error .decode
  else do
    let (v, rest) ← J.scanValue (2 * s.length + 2) J.loadsDepth (skipBlanks s)
    if skipBlanks rest = [] then return v else .error .decode

end Interp

/-! ## What the decoder returns -/

theorem u_null : u "null" = [110, 117, 108, 108] := by decide

theorem u_true : u "true" = [116, 114, 117, 101] := by decide

theorem u_false : u "false" = [102, 97, 108, 115, 101] := by decide

theorem u_nan : u "NaN" = [78, 97, 78] := by decide

theorem u_infinity : u "Infinity" = [73, 110, 102, 105, 110, 105, 116, 121] := by decide

theorem u_minus_infinity : u "-Infinity" = [45, 73, 110, 102, 105, 110, 105, 116, 121] := by decide

/-- A word begins with a letter, or with a minus and a letter. -/
theorem head_word {w : PyStr × PyVal Obj} (hw : w ∈ WORDS) :
    ∃ c more, w.1 = c :: more ∧ isDigit c = false ∧ c ≠ 34 ∧ c ≠ 91 ∧ c ≠ 123 ∧
      (c = 45 → more.head? = some 73) := by
  simp only [WORDS, List.mem_cons, List.not_mem_nil, or_false] at hw
  rcases hw with rfl | rfl | rfl | rfl | rfl | rfl
  all_goals
    simp only [u_null, u_true, u_false, u_nan, u_infinity, u_minus_infinity]
    exact ⟨_, _, rfl, by decide, by decide, by decide, by decide, by decide⟩

theorem length_skipBlanks (s : PyStr) : (skipBlanks s).length ≤ s.length :=
  (List.dropWhile_suffix isBlank).length_le

theorem length_of_bind_scanUnits {s rest : PyStr} {units : List (Bool × CodePoint)}
    {f : List (Bool × CodePoint) → List (Bool × CodePoint)}
    (ih : ∀ {units : List (Bool × CodePoint)} {rest : PyStr},
      scanUnits s = some (units, rest) → rest.length < s.length)
    (hs : (scanUnits s).bind (fun r => some (f r.1, r.2)) = some (units, rest)) :
    rest.length < s.length := by
  obtain ⟨r, hr, hrest⟩ := Option.bind_eq_some_iff.mp hs
  obtain ⟨-, rfl⟩ := Prod.mk.inj (Option.some.inj hrest)
  exact ih hr

/-- A text in quotes takes some of what there is. -/
theorem length_of_scanUnits {s rest : PyStr} {units : List (Bool × CodePoint)}
    (h : scanUnits s = some (units, rest)) : rest.length < s.length := by
  fun_induction scanUnits s generalizing units rest with
  | case1 => simp at h
  | case2 rest' =>
    obtain ⟨-, rfl⟩ := Prod.mk.inj (Option.some.inj h)
    simp
  | case3 => simp at h
  | case4 _ a b c d s' ih =>
    obtain ⟨x, -, hs⟩ := Option.bind_eq_some_iff.mp h
    have hlt := length_of_bind_scanUnits (f := fun us => (true, x) :: us) ih hs
    simp only [List.length_cons]
    omega
  | case5 => simp at h
  | case6 _ e s' he ih =>
    obtain ⟨x, -, hs⟩ := Option.bind_eq_some_iff.mp h
    have hlt := length_of_bind_scanUnits (f := fun us => (false, x) :: us) ih hs
    simp only [List.length_cons]
    omega
  | case7 => simp at h
  | case8 c s' _ _ _ ih =>
    have hlt := length_of_bind_scanUnits (f := fun us => (false, c) :: us) ih h
    rw [List.length_cons]
    omega

theorem length_of_scanString {s rest key : PyStr} (h : scanString s = some (key, rest)) :
    rest.length < s.length := by
  obtain ⟨r, hr, hrest⟩ := Option.bind_eq_some_iff.mp h
  obtain ⟨-, rfl⟩ := Prod.mk.inj (Option.some.inj hrest)
  exact length_of_scanUnits hr

/-- A word takes some of what there is. -/
theorem length_of_scanWord {s rest : PyStr} {v : PyVal Obj} (h : scanWord s = some (v, rest)) :
    rest.length < s.length ∧ (∃ w ∈ WORDS, v = w.2) := by
  obtain ⟨w, hw, hrest⟩ := List.exists_of_findSome?_eq_some h
  obtain ⟨r, hr, hv⟩ := Option.map_eq_some_iff.mp hrest
  obtain ⟨rfl, rfl⟩ := Prod.mk.inj hv
  obtain ⟨p, rfl, hp⟩ := List.dropPrefix?_eq_some_iff.mp hr
  rw [beq_iff_eq] at hp
  obtain ⟨c, more, hc, -⟩ := head_word hw
  refine ⟨?_, w, hw, rfl⟩
  rw [List.length_append, hp, hc, List.length_cons]
  omega

theorem length_scanSign (signs : List CodePoint) (s : PyStr) :
    (scanSign signs s).2.length ≤ s.length := by
  cases s with
  | nil => exact le_rfl
  | cons c rest =>
    rw [scanSign]
    split_ifs
    · exact Nat.le_succ _
    · exact le_rfl

theorem length_of_scanWhole {s ds rest : PyStr} (h : scanWhole s = some (ds, rest)) :
    rest.length < s.length := by
  cases s with
  | nil => simp [scanWhole] at h
  | cons c s =>
    rw [scanWhole] at h
    split_ifs at h
    · obtain ⟨-, rfl⟩ := Prod.mk.inj (Option.some.inj h)
      exact Nat.lt_succ_self _
    · obtain ⟨-, rfl⟩ := Prod.mk.inj (Option.some.inj h)
      have hle := (List.dropWhile_suffix isDigit (l := s)).length_le
      rw [List.length_cons]
      omega

theorem length_scanFrac (s : PyStr) : (scanFrac s).2.length ≤ s.length := by
  cases s with
  | nil => exact le_rfl
  | cons c rest =>
    have hle := (List.dropWhile_suffix isDigit (l := rest)).length_le
    rw [scanFrac]
    split_ifs
    · rw [List.length_cons]
      exact Nat.le_succ_of_le hle
    · exact le_rfl

theorem length_scanExp (s : PyStr) : (scanExp s).2.length ≤ s.length := by
  cases s with
  | nil => exact le_rfl
  | cons c rest =>
    have hsign := length_scanSign [43, 45] rest
    have hle := (List.dropWhile_suffix isDigit (l := (scanSign [43, 45] rest).2)).length_le
    rw [scanExp]
    simp only
    split_ifs
    · rw [List.length_cons]
      simp only
      omega
    · exact le_rfl

/-- A number takes some of what there is. -/
theorem length_of_scanNumber {s : PyStr} {t : NumberToken} (h : scanNumber s = some t) :
    t.rest.length < s.length := by
  obtain ⟨r, hr, ht⟩ := Option.bind_eq_some_iff.mp h
  obtain rfl := Option.some.inj ht
  have hsign := length_scanSign [45] s
  have hwhole : r.2.length < (scanSign [45] s).2.length := length_of_scanWhole hr
  have hfrac := length_scanFrac r.2
  have hexp := length_scanExp (scanFrac r.2).2
  change (scanExp (scanFrac r.2).2).2.length < s.length
  omega

/-! ### Dicts -/

theorem mem_setItem {key : PyStr} {value : PyVal Obj} {items : List (PyKey Obj × PyVal Obj)}
    {i : PyKey Obj × PyVal Obj} (hi : i ∈ setItem key value items) :
    i ∈ items ∨ i.2 = value ∧ (i.1 = .str key ∨ i.1 ∈ items.map Prod.fst) := by
  induction items with
  | nil =>
    obtain rfl := List.mem_singleton.mp hi
    exact .inr ⟨rfl, .inl rfl⟩
  | cons j rest ih =>
    obtain ⟨k, v⟩ := j
    rw [setItem] at hi
    split_ifs at hi with hk
    · rcases List.mem_cons.mp hi with rfl | hi
      · exact .inr ⟨rfl, .inr (by simp)⟩
      · exact .inl (List.mem_cons_of_mem _ hi)
    · rcases List.mem_cons.mp hi with rfl | hi
      · exact .inl List.mem_cons_self
      · rcases ih hi with h | ⟨hv, h | h⟩
        · exact .inl (List.mem_cons_of_mem _ h)
        · exact .inr ⟨hv, .inl h⟩
        · exact .inr ⟨hv, .inr (by simp [h])⟩

theorem keyStr_eq_some {k : PyKey Obj} {s : PyStr} : keyStr k = some s ↔ k = .str s := by
  cases k with
  | str t => simp [keyStr]
  | _ => simp [keyStr]

/-- Setting an item keeps a dict one of JSON. -/
theorem jsonNode_setItem {key : PyStr} (value : PyVal Obj) {items : List (PyKey Obj × PyVal Obj)}
    (h : JsonNode (.dict items)) : JsonNode (.dict (setItem key value items)) := by
  induction items with
  | nil => exact ⟨fun i hi => ⟨key, by rw [List.mem_singleton.mp hi]⟩, by simp [setItem]⟩
  | cons j rest ih =>
    obtain ⟨k, v⟩ := j
    obtain ⟨hkeys, hnd⟩ := h
    rw [setItem]
    split_ifs with hk
    · refine ⟨fun i hi => ?_, hnd⟩
      rcases List.mem_cons.mp hi with rfl | hi
      · exact ⟨key, keyStr_eq_some.mp hk⟩
      · exact hkeys i (List.mem_cons_of_mem _ hi)
    · rw [List.map_cons, List.nodup_cons] at hnd
      have hrest := ih ⟨fun i hi => hkeys i (List.mem_cons_of_mem _ hi), hnd.2⟩
      refine ⟨fun i hi => ?_, ?_⟩
      · rcases List.mem_cons.mp hi with rfl | hi
        · exact hkeys _ List.mem_cons_self
        · exact hrest.1 i hi
      · rw [List.map_cons, List.nodup_cons]
        refine ⟨fun hmem => ?_, hrest.2⟩
        obtain ⟨i, hi, hik⟩ := List.mem_map.mp hmem
        rcases mem_setItem hi with hin | ⟨-, hkey | hin⟩
        · exact hnd.1 (List.mem_map.mpr ⟨i, hin, hik⟩)
        · exact hk (keyStr_eq_some.mpr (hik.symm.trans hkey))
        · exact hnd.1 (hik ▸ hin)

/-- The items of a JSON object make a dict of JSON, with values of theirs. -/
theorem jsonNode_asDict (items : List (PyStr × PyVal Obj)) :
    JsonNode (.dict (asDict items)) ∧ ∀ i ∈ asDict items, ∃ j ∈ items, i.2 = j.2 := by
  unfold asDict
  induction items using List.reverseRecOn with
  | nil => exact ⟨⟨fun i hi => absurd hi List.not_mem_nil, List.nodup_nil⟩,
      fun i hi => absurd hi List.not_mem_nil⟩
  | append_singleton items j ih =>
    rw [List.foldl_append, List.foldl_cons, List.foldl_nil]
    refine ⟨jsonNode_setItem j.2 ih.1, fun i hi => ?_⟩
    rcases mem_setItem hi with hin | ⟨hv, -⟩
    · obtain ⟨j', hj', hv⟩ := ih.2 i hin
      exact ⟨j', List.mem_append_left _ hj', hv⟩
    · exact ⟨j, by simp, hv⟩

/-- The keys of the dict are those of the items. -/
theorem key_of_mem_asDict {items : List (PyStr × PyVal Obj)} {i : PyKey Obj × PyVal Obj}
    (hi : i ∈ asDict items) : ∃ j ∈ items, i.1 = .str j.1 := by
  unfold asDict at hi
  induction items using List.reverseRecOn generalizing i with
  | nil => exact absurd hi List.not_mem_nil
  | append_singleton items j ih =>
    rw [List.foldl_append, List.foldl_cons, List.foldl_nil] at hi
    have hold {k : PyKey Obj × PyVal Obj}
        (hk : k ∈ items.foldl (fun d i => setItem i.1 i.2 d) []) :
        ∃ j' ∈ items ++ [j], k.1 = .str j'.1 := by
      obtain ⟨j', hj', hkey⟩ := ih hk
      exact ⟨j', List.mem_append_left _ hj', hkey⟩
    rcases mem_setItem hi with hin | ⟨-, hkey | hin⟩
    · exact hold hin
    · exact ⟨j, by simp, hkey⟩
    · obtain ⟨k, hk, hki⟩ := List.mem_map.mp hin
      rw [← hki]
      exact hold hk

/-- A new key goes to the end. -/
theorem setItem_of_not_mem {key : PyStr} (value : PyVal Obj) {items : List (PyKey Obj × PyVal Obj)}
    (h : .str key ∉ items.map Prod.fst) : setItem key value items = items ++ [(.str key, value)] := by
  induction items with
  | nil => rfl
  | cons j rest ih =>
    obtain ⟨k, v⟩ := j
    rw [List.map_cons, List.mem_cons, not_or] at h
    rw [setItem, if_neg fun hk => h.1 (keyStr_eq_some.mp hk).symm, ih h.2, List.cons_append]

/-- Items with different keys are the dict's own. -/
theorem asDict_of_nodup {items : List (PyStr × PyVal Obj)} (h : (items.map Prod.fst).Nodup) :
    asDict items = items.map fun i => (.str i.1, i.2) := by
  induction items using List.reverseRecOn with
  | nil => rfl
  | append_singleton items j ih =>
    rw [List.map_append, List.map_singleton, List.nodup_append] at h
    have hitems := ih h.1
    unfold asDict at hitems ⊢
    rw [List.foldl_append, List.foldl_cons, List.foldl_nil, hitems, setItem_of_not_mem,
      List.map_append, List.map_singleton]
    rw [List.map_map]
    intro hmem
    obtain ⟨i, hi, hij⟩ := List.mem_map.mp hmem
    exact h.2.2 i.1 (List.mem_map_of_mem hi) j.1 (List.mem_singleton_self _) (PyKey.str.inj hij)

/-! ### Values -/

/-- A value that is neither a container nor an object is one of JSON, and nested in nothing. -/
theorem isJson_scalar {v : PyVal Obj} (hs : ∀ frozen xs, v ≠ .seq frozen xs)
    (hd : ∀ items, v ≠ .dict items) (ho : ∀ o, v ≠ .other o) (d : ℕ) :
    IsJson v ∧ v.NestedIn d := by
  refine ⟨?_, .scalar d v hs hd⟩
  unfold IsJson
  rw [PyVal.each_iff]
  cases v with
  | seq frozen xs => exact absurd rfl (hs frozen xs)
  | dict items => exact absurd rfl (hd items)
  | other o => exact absurd rfl (ho o)
  | _ => exact ⟨trivial, fun w hw => absurd hw List.not_mem_nil⟩

theorem isJson_seq {xs : List (PyVal Obj)} (h : ∀ w ∈ xs, IsJson w) : IsJson (.seq false xs) :=
  ⟨_, rfl, h⟩

theorem isJson_dict {items : List (PyKey Obj × PyVal Obj)} (hnode : JsonNode (.dict items))
    (h : ∀ i ∈ items, IsJson i.2) : IsJson (.dict items) := by
  refine ⟨_, hnode, fun w hw => ?_⟩
  obtain ⟨i, hi, rfl⟩ := List.mem_map.mp hw
  exact h i hi

namespace Interp

variable (J : Interp Obj)

theorem scanElements_eq_ok {n d : ℕ} {s rest : PyStr} {vs : List (PyVal Obj)}
    (h : J.scanElements (n + 1) d s = .ok (vs, rest)) :
    ∃ v r, J.scanValue n d s = .ok (v, r) ∧
      (vs = [v] ∧ rest = (skipBlanks r).tail ∧ skipBlanks r ≠ [] ∨
        ∃ ws, J.scanElements n d (skipBlanks (skipBlanks r).tail) = .ok (ws, rest) ∧
          vs = v :: ws ∧ skipBlanks r ≠ []) := by
  rw [scanElements] at h
  obtain ⟨⟨v, r⟩, hv, h⟩ := except_bind_eq_ok h
  refine ⟨v, r, hv, ?_⟩
  simp only at h
  have hne {c : CodePoint} (hc : (skipBlanks r).head? = some c) : skipBlanks r ≠ [] := by
    intro hnil
    rw [hnil] at hc
    simp at hc
  split_ifs at h with h93 h44
  · obtain ⟨rfl, rfl⟩ := Prod.mk.inj (Except.ok.inj h)
    exact .inl ⟨rfl, rfl, hne h93⟩
  · obtain ⟨⟨ws, r'⟩, hws, h⟩ := except_bind_eq_ok h
    obtain ⟨rfl, rfl⟩ := Prod.mk.inj (Except.ok.inj h)
    exact .inr ⟨ws, hws, rfl, hne h44⟩

theorem scanMembers_eq_ok {n d : ℕ} {s rest : PyStr} {items : List (PyStr × PyVal Obj)}
    (h : J.scanMembers (n + 1) d s = .ok (items, rest)) :
    ∃ key r₁ v r, s ≠ [] ∧ scanString s.tail = some (key, r₁) ∧
      J.scanValue n d (skipBlanks (skipBlanks r₁).tail) = .ok (v, r) ∧
      (items = [(key, v)] ∧ rest = (skipBlanks r).tail ∨
        ∃ more, J.scanMembers n d (skipBlanks (skipBlanks r).tail) = .ok (more, rest) ∧
          items = (key, v) :: more) := by
  rw [scanMembers] at h
  split_ifs at h with h34
  have hs : s ≠ [] := by
    rintro rfl
    simp at h34
  cases hkey : scanString s.tail with
  | none => simp [hkey] at h
  | some kr =>
    obtain ⟨key, r₁⟩ := kr
    simp only [hkey] at h
    split_ifs at h with h58
    obtain ⟨⟨v, r⟩, hv, h⟩ := except_bind_eq_ok h
    refine ⟨key, r₁, v, r, hs, rfl, hv, ?_⟩
    simp only at h
    split_ifs at h with h125 h44
    · obtain ⟨rfl, rfl⟩ := Prod.mk.inj (Except.ok.inj h)
      exact .inl ⟨rfl, rfl⟩
    · obtain ⟨⟨more, r'⟩, hmore, h⟩ := except_bind_eq_ok h
      obtain ⟨rfl, rfl⟩ := Prod.mk.inj (Except.ok.inj h)
      exact .inr ⟨more, hmore, rfl⟩

/-- A text, a word or a number takes some of what there is. -/
theorem scanScalar_eq_ok {s rest : PyStr} {v : PyVal Obj} (h : J.scanScalar s = .ok (v, rest))
    (d : ℕ) : rest.length < s.length ∧ IsJson v ∧ v.NestedIn d := by
  cases s with
  | nil => simp [scanScalar] at h
  | cons c s =>
    rw [scanScalar] at h
    split_ifs at h with h34
    · cases hstr : scanString s with
      | none => simp [hstr] at h
      | some r =>
        simp only [hstr, Except.ok.injEq, Prod.mk.injEq] at h
        obtain ⟨rfl, rfl⟩ := h
        have hlt := length_of_scanString hstr
        refine ⟨?_, isJson_scalar (by simp) (by simp) (by simp) d⟩
        rw [List.length_cons]
        omega
    · cases hword : @scanWord Obj (c :: s) with
      | some r =>
        simp only [hword, Except.ok.injEq] at h
        rw [h] at hword
        obtain ⟨hlt, w, hw, rfl⟩ := length_of_scanWord hword
        refine ⟨hlt, ?_⟩
        simp only [WORDS, List.mem_cons, List.not_mem_nil, or_false] at hw
        rcases hw with rfl | rfl | rfl | rfl | rfl | rfl
        all_goals exact isJson_scalar (by simp) (by simp) (by simp) d
      | none =>
        cases hnum : scanNumber (c :: s) with
        | none => simp [hword, hnum] at h
        | some t =>
          simp only [hword, hnum, number] at h
          have hlt := length_of_scanNumber hnum
          split_ifs at h
          all_goals
            obtain ⟨rfl, rfl⟩ := Prod.mk.inj (Except.ok.inj h)
            exact ⟨hlt, isJson_scalar (by simp) (by simp) (by simp) d⟩

/-- What the decoder takes with this fuel: some of the text, and values of JSON that are as deep as
it may go. -/
structure Sound (n : ℕ) : Prop where
  value : ∀ (d : ℕ) (s : PyStr) (v : PyVal Obj) (rest : PyStr),
    J.scanValue n d s = .ok (v, rest) → rest.length < s.length ∧ IsJson v ∧ v.NestedIn d
  elements : ∀ (d : ℕ) (s : PyStr) (vs : List (PyVal Obj)) (rest : PyStr),
    J.scanElements n d s = .ok (vs, rest) →
      rest.length < s.length ∧ ∀ v ∈ vs, IsJson v ∧ v.NestedIn d
  members : ∀ (d : ℕ) (s : PyStr) (items : List (PyStr × PyVal Obj)) (rest : PyStr),
    J.scanMembers n d s = .ok (items, rest) →
      rest.length < s.length ∧ ∀ i ∈ items, IsJson i.2 ∧ i.2.NestedIn d

theorem sound_elements {n : ℕ} (ih : J.Sound n) (d : ℕ) (s : PyStr) (vs : List (PyVal Obj))
    (rest : PyStr) (h : J.scanElements (n + 1) d s = .ok (vs, rest)) :
    rest.length < s.length ∧ ∀ v ∈ vs, IsJson v ∧ v.NestedIn d := by
  obtain ⟨v, r, hv, htail⟩ := J.scanElements_eq_ok h
  obtain ⟨hlt, hjson⟩ := ih.value d s v r hv
  have hskip := length_skipBlanks r
  have htl := List.length_tail (l := skipBlanks r)
  rcases htail with ⟨rfl, rfl, -⟩ | ⟨ws, hws, rfl, -⟩
  · refine ⟨by omega, fun w hw => ?_⟩
    rw [List.mem_singleton.mp hw]
    exact hjson
  · obtain ⟨hlt', hall⟩ := ih.elements d _ ws rest hws
    have hskip' := length_skipBlanks (skipBlanks r).tail
    exact ⟨by omega, List.forall_mem_cons.mpr ⟨hjson, hall⟩⟩

theorem sound_members {n : ℕ} (ih : J.Sound n) (d : ℕ) (s : PyStr)
    (items : List (PyStr × PyVal Obj)) (rest : PyStr)
    (h : J.scanMembers (n + 1) d s = .ok (items, rest)) :
    rest.length < s.length ∧ ∀ i ∈ items, IsJson i.2 ∧ i.2.NestedIn d := by
  obtain ⟨key, r₁, v, r, hs, hkey, hv, htail⟩ := J.scanMembers_eq_ok h
  have hlt₁ := length_of_scanString hkey
  obtain ⟨hlt, hjson⟩ := ih.value d _ v r hv
  have hs₁ := length_skipBlanks (skipBlanks r₁).tail
  have hs₂ := length_skipBlanks r₁
  have hs₃ := length_skipBlanks r
  have ht₁ := List.length_tail (l := s)
  have ht₂ := List.length_tail (l := skipBlanks r₁)
  have ht₃ := List.length_tail (l := skipBlanks r)
  rcases htail with ⟨rfl, rfl⟩ | ⟨more, hmore, rfl⟩
  · refine ⟨by omega, fun i hi => ?_⟩
    rw [List.mem_singleton.mp hi]
    exact hjson
  · obtain ⟨hlt', hall⟩ := ih.members d _ more rest hmore
    have hs₄ := length_skipBlanks (skipBlanks r).tail
    exact ⟨by omega, List.forall_mem_cons.mpr ⟨hjson, hall⟩⟩

theorem sound_value {n : ℕ} (ih : J.Sound n) (d : ℕ) (s : PyStr) (v : PyVal Obj) (rest : PyStr)
    (h : J.scanValue (n + 1) d s = .ok (v, rest)) :
    rest.length < s.length ∧ IsJson v ∧ v.NestedIn d := by
  have hne {c : CodePoint} (hc : s.head? = some c) : 0 < s.length := by
    rw [List.length_pos_iff]
    rintro rfl
    simp at hc
  have hskip := length_skipBlanks s.tail
  have ht := List.length_tail (l := s)
  have ht' := List.length_tail (l := skipBlanks s.tail)
  rw [scanValue.eq_def] at h
  simp only at h
  by_cases h91 : s.head? = some 91
  · have hpos := hne h91
    rw [if_pos h91] at h
    cases d with
    | zero => simp at h
    | succ d =>
      simp only at h
      split_ifs at h with h93
      · obtain ⟨rfl, rfl⟩ := Prod.mk.inj (Except.ok.inj h)
        exact ⟨by omega, isJson_seq (by simp), PyVal.nestedIn_seq.mpr (by simp)⟩
      · obtain ⟨⟨xs, r⟩, hxs, h⟩ := except_bind_eq_ok h
        obtain ⟨rfl, rfl⟩ := Prod.mk.inj (Except.ok.inj h)
        obtain ⟨hlt, hall⟩ := ih.elements d _ xs r hxs
        simp only
        exact ⟨by omega, isJson_seq fun w hw => (hall w hw).1,
          PyVal.nestedIn_seq.mpr fun w hw => (hall w hw).2⟩
  rw [if_neg h91] at h
  by_cases h123 : s.head? = some 123
  · have hpos := hne h123
    rw [if_pos h123] at h
    cases d with
    | zero => simp at h
    | succ d =>
      simp only at h
      split_ifs at h with h125
      · obtain ⟨rfl, rfl⟩ := Prod.mk.inj (Except.ok.inj h)
        exact ⟨by omega, isJson_dict ⟨by simp, List.nodup_nil⟩ (by simp),
          PyVal.nestedIn_dict.mpr (by simp)⟩
      · obtain ⟨⟨items, r⟩, hitems, h⟩ := except_bind_eq_ok h
        obtain ⟨rfl, rfl⟩ := Prod.mk.inj (Except.ok.inj h)
        obtain ⟨hlt, hall⟩ := ih.members d _ items r hitems
        simp only
        obtain ⟨hnode, hvals⟩ := jsonNode_asDict items
        refine ⟨by omega, isJson_dict hnode fun i hi => ?_, PyVal.nestedIn_dict.mpr fun i hi => ?_⟩
        · obtain ⟨j, hj, hij⟩ := hvals i hi
          rw [hij]
          exact (hall j hj).1
        · obtain ⟨j, hj, hij⟩ := hvals i hi
          rw [hij]
          exact (hall j hj).2
  · rw [if_neg h123] at h
    exact J.scanScalar_eq_ok h d

theorem sound (n : ℕ) : J.Sound n := by
  induction n with
  | zero => exact ⟨by simp [scanValue], by simp [scanElements], by simp [scanMembers]⟩
  | succ n ih => exact ⟨J.sound_value ih, J.sound_elements ih, J.sound_members ih⟩

/-- What is read is a value of JSON, and no deeper than the decoder goes. -/
theorem isJson_of_loads {s : PyStr} {v : PyVal Obj} (h : J.loads s = .ok v) :
    IsJson v ∧ v.NestedIn J.loadsDepth := by
  unfold loads at h
  split_ifs at h
  obtain ⟨⟨w, rest⟩, hw, h⟩ := except_bind_eq_ok h
  simp only at h
  split_ifs at h
  obtain rfl := Except.ok.inj h
  exact ((J.sound _).value _ _ _ _ hw).2

/-! ### The fuel -/

theorem bind_ne_fuel {α β : Type} {x : Except LoadError α} {f : α → Except LoadError β}
    (hx : x ≠ .error .fuel) (hf : ∀ a, x = .ok a → f a ≠ .error .fuel) :
    x >>= f ≠ .error .fuel := by
  cases x with
  | error e => exact fun h => hx (by simpa [bind, Except.bind] using h)
  | ok a => exact hf a rfl

/-- The fuel that is enough for a text. -/
structure Enough (n : ℕ) : Prop where
  value : ∀ (d : ℕ) (s : PyStr), 2 * s.length + 1 ≤ n → J.scanValue n d s ≠ .error .fuel
  elements : ∀ (d : ℕ) (s : PyStr), 2 * s.length + 2 ≤ n → J.scanElements n d s ≠ .error .fuel
  members : ∀ (d : ℕ) (s : PyStr), 2 * s.length + 2 ≤ n → J.scanMembers n d s ≠ .error .fuel

theorem enough_value {n : ℕ} (ih : J.Enough n) (d : ℕ) (s : PyStr) (hn : 2 * s.length + 1 ≤ n + 1) :
    J.scanValue (n + 1) d s ≠ .error .fuel := by
  have hne {c : CodePoint} (hc : s.head? = some c) : 0 < s.length := by
    rw [List.length_pos_iff]
    rintro rfl
    simp at hc
  have hskip := length_skipBlanks s.tail
  have ht := List.length_tail (l := s)
  rw [scanValue.eq_def]
  simp only
  by_cases h91 : s.head? = some 91
  · have hpos := hne h91
    rw [if_pos h91]
    cases d with
    | zero => simp
    | succ d =>
      simp only
      split_ifs
      · simp [pure, Except.pure]
      · exact bind_ne_fuel (ih.elements d _ (by omega)) fun _ _ => by simp [pure, Except.pure]
  rw [if_neg h91]
  by_cases h123 : s.head? = some 123
  · have hpos := hne h123
    rw [if_pos h123]
    cases d with
    | zero => simp
    | succ d =>
      simp only
      split_ifs
      · simp [pure, Except.pure]
      · exact bind_ne_fuel (ih.members d _ (by omega)) fun _ _ => by simp [pure, Except.pure]
  · rw [if_neg h123]
    cases s with
    | nil => simp [scanScalar]
    | cons c s =>
      rw [scanScalar]
      split_ifs
      · cases scanString s with
        | none => simp
        | some r => simp
      · cases @scanWord Obj (c :: s) with
        | some r => simp
        | none =>
          cases scanNumber (c :: s) with
          | none => simp
          | some t =>
            simp only [number]
            split_ifs
            all_goals simp

theorem enough_elements {n : ℕ} (ih : J.Enough n) (d : ℕ) (s : PyStr)
    (hn : 2 * s.length + 2 ≤ n + 1) : J.scanElements (n + 1) d s ≠ .error .fuel := by
  rw [scanElements]
  refine bind_ne_fuel (ih.value d s (by omega)) fun vr hvr => ?_
  have hlt := ((J.sound n).value d s vr.1 vr.2 hvr).1
  have hskip := length_skipBlanks vr.2
  have ht := List.length_tail (l := skipBlanks vr.2)
  have hskip' := length_skipBlanks (skipBlanks vr.2).tail
  simp only
  split_ifs with h93 h44
  · simp [pure, Except.pure]
  · have hpos : 0 < (skipBlanks vr.2).length := by
      rw [List.length_pos_iff]
      intro hnil
      simp [hnil] at h44
    exact bind_ne_fuel (ih.elements d _ (by omega)) fun _ _ => by simp [pure, Except.pure]
  · simp

theorem enough_members {n : ℕ} (ih : J.Enough n) (d : ℕ) (s : PyStr)
    (hn : 2 * s.length + 2 ≤ n + 1) : J.scanMembers (n + 1) d s ≠ .error .fuel := by
  rw [scanMembers]
  split_ifs with h34
  · cases hkey : scanString s.tail with
    | none => simp
    | some kr =>
      have hlt₁ := length_of_scanString hkey
      have hs₁ := length_skipBlanks kr.2
      have hs₂ := length_skipBlanks (skipBlanks kr.2).tail
      have ht := List.length_tail (l := s)
      have ht₁ := List.length_tail (l := skipBlanks kr.2)
      simp only
      split_ifs with h58
      · refine bind_ne_fuel (ih.value d _ (by omega)) fun vr hvr => ?_
        have hlt := ((J.sound n).value d _ vr.1 vr.2 hvr).1
        have hs₃ := length_skipBlanks vr.2
        have ht₃ := List.length_tail (l := skipBlanks vr.2)
        have hs₄ := length_skipBlanks (skipBlanks vr.2).tail
        split_ifs with h125 h44
        · simp [pure, Except.pure]
        · exact bind_ne_fuel (ih.members d _ (by omega)) fun _ _ => by simp [pure, Except.pure]
        · simp
      · simp
  · simp

theorem enough (n : ℕ) : J.Enough n := by
  induction n with
  | zero => exact ⟨fun d s h => by omega, fun d s h => by omega, fun d s h => by omega⟩
  | succ n ih => exact ⟨J.enough_value ih, J.enough_elements ih, J.enough_members ih⟩

/-- The fuel is enough for every text. -/
theorem loads_ne_fuel (s : PyStr) : J.loads s ≠ .error .fuel := by
  have hskip := length_skipBlanks s
  unfold loads
  split_ifs
  · simp
  · refine bind_ne_fuel ((J.enough _).value _ _ (by omega)) fun vr _ => ?_
    simp only
    split_ifs
    · simp [pure, Except.pure]
    · simp

end Interp

end ControlPlane.JsonText
