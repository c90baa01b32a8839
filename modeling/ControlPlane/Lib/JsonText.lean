import ControlPlane.Lib.Json
import Mathlib.Data.List.Lex
import Mathlib.Data.List.Sort

/-!
# The texts of `json.dumps`

Python values and the texts that the `json` module writes for them, with the exceptions that keep it
from writing. A text is a list of code points, so that it may hold a surrogate, as a Python text may
and a `String` may not. What is read back is in `Lib/JsonRead.lean`.

`encode` follows the module's encoder: it fails on an integer with too many digits, on a value that
is nested too deep, on a key of another type, and on an object that the given `default` does not
turn into a text. `encode_eq_print` and `writable_of_encode` say that without a `default` it fails
on exactly these, and what it writes otherwise. With sorted keys it writes the text of the value
whose dicts are in the order of their keys (`encode_sortKeys`).
-/

namespace ControlPlane.JsonText

/-- A code point. -/
abbrev CodePoint := Fin 0x110000

/-- A Python text. -/
abbrev PyStr := List CodePoint

instance codePointNeZero : NeZero 0x110000 := ⟨by decide⟩

instance digitNeZero : NeZero 10 := ⟨by decide⟩

instance codePointLawfulBEq : LawfulBEq CodePoint := inferInstance

instance pyStrLawfulBEq : LawfulBEq PyStr := inferInstance

/-- The code point of a character. -/
def ofChar (c : Char) : CodePoint := ⟨c.toNat, by
  have h := c.valid
  change c.toNat < 0xd800 ∨ 0xdfff < c.toNat ∧ c.toNat < 0x110000 at h
  omega⟩

/-- A text without surrogates. -/
def u (s : String) : PyStr := s.toList.map ofChar

theorem ofChar_injective : Function.Injective ofChar := by
  intro c d h
  have hnat : c.toNat = d.toNat := Fin.mk.inj_iff.mp h
  exact Char.toNat_inj.mp hnat

theorem u_injective : Function.Injective u :=
  fun _ _ h => String.toList_inj.mp (List.map_injective_iff.mpr ofChar_injective h)

/-- The code points that `str.isspace` accepts. -/
def isSpace (c : CodePoint) : Bool :=
  (9 ≤ c ∧ c ≤ 13) ∨ (28 ≤ c ∧ c ≤ 32) ∨ c = 0x85 ∨ c = 0xa0 ∨ c = 0x1680 ∨
    (0x2000 ≤ c ∧ c ≤ 0x200a) ∨ c = 0x2028 ∨ c = 0x2029 ∨ c = 0x202f ∨ c = 0x205f ∨ c = 0x3000

/-- `s.strip()`. -/
def strip (s : PyStr) : PyStr := (s.dropWhile isSpace).rdropWhile isSpace

/-! ## Values -/

/-- What `repr` writes for a finite float: there is a point or an exponent. -/
structure FloatText where
  /-- Whether there is a minus. -/
  neg : Bool
  /-- The digits before the point. -/
  whole : List (Fin 10)
  /-- The digits after the point, none for no point. -/
  frac : List (Fin 10)
  /-- Whether the exponent is negative, and its digits. -/
  exp : Option (Bool × List (Fin 10))
  whole_ne : whole ≠ []
  whole_head : whole.head? = some 0 → whole = [0]
  exp_ne : ∀ e ∈ exp, e.2 ≠ []
  isFloat : frac ≠ [] ∨ exp.isSome = true

namespace FloatText

theorem zero_ne : ([0] : List (Fin 10)) ≠ [] := by decide

theorem zero_head : ([0] : List (Fin 10)).head? = some 0 → ([0] : List (Fin 10)) = [0] :=
  fun _ => rfl

theorem none_ne : ∀ e ∈ (none : Option (Bool × List (Fin 10))), e.2 ≠ [] :=
  fun _ h => nomatch h

end FloatText

/-- A float. -/
inductive JsonFloat where
  | nan
  | inf (neg : Bool)
  | fin (t : FloatText)

/-- A key of a dict; the `Obj`s are the objects of other types. -/
inductive PyKey (Obj : Type) where
  | str (s : PyStr)
  | none
  | bool (b : Bool)
  | int (n : ℤ)
  | float (x : JsonFloat)
  | other (o : Obj)

/-- A value: a list or, when `frozen`, a tuple is a `seq`; a dict is the list of its items. An `Obj`
is an object that the `json` module has no text for: one of another type, or a list or dict that
contains itself. -/
inductive PyVal (Obj : Type) where
  | none
  | bool (b : Bool)
  | int (n : ℤ)
  | float (x : JsonFloat)
  | str (s : PyStr)
  | seq (frozen : Bool) (xs : List (PyVal Obj))
  | dict (items : List (PyKey Obj × PyVal Obj))
  | other (o : Obj)

variable {Obj : Type}

namespace PyVal

/-- The values in a value. -/
def children : PyVal Obj → List (PyVal Obj)
  | seq _ xs => xs
  | dict items => items.map Prod.snd
  | _ => []

/-- A value in a value is smaller. -/
theorem sizeOf_lt_of_mem_children {v w : PyVal Obj} (h : w ∈ v.children) : sizeOf w < sizeOf v := by
  cases v with
  | seq frozen xs =>
    have hlt := List.sizeOf_lt_of_mem (show w ∈ xs from h)
    rw [seq.sizeOf_spec]
    omega
  | dict items =>
    obtain ⟨i, hi, rfl⟩ := List.mem_map.mp (show w ∈ items.map Prod.snd from h)
    have hlt := List.sizeOf_lt_of_mem hi
    have hpair : sizeOf i = 1 + sizeOf i.1 + sizeOf i.2 := rfl
    rw [dict.sizeOf_spec]
    omega
  | _ => exact absurd h List.not_mem_nil

/-- What holds of a value once it holds of the values in it holds of every value. -/
theorem induct {P : PyVal Obj → Prop} (h : ∀ v, (∀ w ∈ v.children, P w) → P v) (v : PyVal Obj) :
    P v :=
  h v fun w _ => induct h w
termination_by sizeOf v
decreasing_by exact sizeOf_lt_of_mem_children ‹_›

/-- A property of a value and of all the values in it. -/
inductive Each (P : PyVal Obj → Prop) : PyVal Obj → Prop
  | intro (v : PyVal Obj) (here : P v) (inside : ∀ w ∈ v.children, Each P w) : Each P v

theorem Each.here {P : PyVal Obj → Prop} {v : PyVal Obj} (h : Each P v) : P v := by
  cases h with
  | intro _ hv _ => exact hv

theorem Each.inside {P : PyVal Obj → Prop} {v w : PyVal Obj} (h : Each P v) (hw : w ∈ v.children) :
    Each P w := by
  cases h with
  | intro _ _ hin => exact hin w hw

theorem each_iff {P : PyVal Obj → Prop} {v : PyVal Obj} :
    Each P v ↔ P v ∧ ∀ w ∈ v.children, Each P w :=
  ⟨fun h => ⟨h.here, fun _ hw => h.inside hw⟩, fun h => ⟨v, h.1, h.2⟩⟩

/-- A value with at most `d` lists and dicts around any value in it, its own included. -/
inductive NestedIn : ℕ → PyVal Obj → Prop
  | scalar (d : ℕ) (v : PyVal Obj) (hs : ∀ frozen xs, v ≠ seq frozen xs)
      (hd : ∀ items, v ≠ dict items) : NestedIn d v
  | seq (d : ℕ) (frozen : Bool) (xs : List (PyVal Obj)) (h : ∀ w ∈ xs, NestedIn d w) :
      NestedIn (d + 1) (seq frozen xs)
  | dict (d : ℕ) (items : List (PyKey Obj × PyVal Obj)) (h : ∀ i ∈ items, NestedIn d i.2) :
      NestedIn (d + 1) (dict items)

theorem not_nestedIn_zero_seq (frozen : Bool) (xs : List (PyVal Obj)) :
    ¬ NestedIn 0 (seq frozen xs) := by
  intro h
  cases h with
  | scalar _ _ hs _ => exact hs frozen xs rfl

theorem not_nestedIn_zero_dict (items : List (PyKey Obj × PyVal Obj)) :
    ¬ NestedIn 0 (dict items) := by
  intro h
  cases h with
  | scalar _ _ _ hd => exact hd items rfl

theorem nestedIn_seq {d : ℕ} {frozen : Bool} {xs : List (PyVal Obj)} :
    NestedIn (d + 1) (seq frozen xs) ↔ ∀ w ∈ xs, NestedIn d w := by
  constructor
  · intro h
    cases h with
    | scalar _ _ hs _ => exact absurd rfl (hs frozen xs)
    | seq _ _ _ hin => exact hin
  · exact NestedIn.seq d frozen xs

theorem nestedIn_dict {d : ℕ} {items : List (PyKey Obj × PyVal Obj)} :
    NestedIn (d + 1) (dict items) ↔ ∀ i ∈ items, NestedIn d i.2 := by
  constructor
  · intro h
    cases h with
    | scalar _ _ _ hd => exact absurd rfl (hd items)
    | dict _ _ hin => exact hin
  · exact NestedIn.dict d items

/-- A value of some depth is of any greater one. -/
theorem NestedIn.mono {v : PyVal Obj} {d e : ℕ} (h : v.NestedIn d) (hde : d ≤ e) :
    v.NestedIn e := by
  induction v using PyVal.induct generalizing d e with
  | h v ih =>
    cases h with
    | scalar _ _ hs hd => exact .scalar e v hs hd
    | seq d frozen xs hin =>
      obtain ⟨e, rfl⟩ : ∃ m, e = m + 1 := ⟨e - 1, by omega⟩
      exact .seq e frozen xs fun w hw => ih w hw (hin w hw) (by omega)
    | dict d items hin =>
      obtain ⟨e, rfl⟩ : ∃ m, e = m + 1 := ⟨e - 1, by omega⟩
      exact .dict e items fun i hi => ih i.2 (List.mem_map_of_mem hi) (hin i hi) (by omega)

/-- A value at level `k` of one that may be `depth` deep. -/
def Under (depth k : ℕ) (v : PyVal Obj) : Prop := k ≤ depth ∧ v.NestedIn (depth - k)

theorem under_scalar {depth k : ℕ} (hk : k ≤ depth) {v : PyVal Obj}
    (hs : ∀ frozen xs, v ≠ seq frozen xs) (hd : ∀ items, v ≠ dict items) : v.Under depth k :=
  ⟨hk, .scalar _ v hs hd⟩

theorem Under.up {depth k : ℕ} {v : PyVal Obj} (h : v.Under depth (k + 1)) : v.Under depth k := by
  have hk := h.1
  exact ⟨by omega, h.2.mono (by omega)⟩

theorem Under.elems {depth k : ℕ} {frozen : Bool} {xs : List (PyVal Obj)}
    (h : (seq frozen xs).Under depth k) : ∀ w ∈ xs, w.Under depth (k + 1) := by
  obtain ⟨hk, hd⟩ := h
  intro w hw
  cases hdepth : depth - k with
  | zero =>
    rw [hdepth] at hd
    exact absurd hd (not_nestedIn_zero_seq frozen xs)
  | succ e =>
    rw [hdepth, nestedIn_seq] at hd
    have he : depth - (k + 1) = e := by omega
    exact ⟨by omega, he ▸ hd w hw⟩

theorem Under.items {depth k : ℕ} {items : List (PyKey Obj × PyVal Obj)}
    (h : (dict items).Under depth k) : ∀ i ∈ items, i.2.Under depth (k + 1) := by
  obtain ⟨hk, hd⟩ := h
  intro i hi
  cases hdepth : depth - k with
  | zero =>
    rw [hdepth] at hd
    exact absurd hd (not_nestedIn_zero_dict items)
  | succ e =>
    rw [hdepth, nestedIn_dict] at hd
    have he : depth - (k + 1) = e := by omega
    exact ⟨by omega, he ▸ hd i hi⟩

theorem under_dict {depth k : ℕ} {items : List (PyKey Obj × PyVal Obj)} (hk : k + 1 ≤ depth)
    (h : ∀ i ∈ items, i.2.Under depth (k + 1)) : (dict items).Under depth k := by
  refine ⟨by omega, ?_⟩
  have he : depth - k = depth - (k + 1) + 1 := by omega
  rw [he, nestedIn_dict]
  exact fun i hi => (h i hi).2

end PyVal

/-! ## Numbers and texts -/

/-- A digit. -/
def digit (n : Fin 10) : CodePoint := ⟨48 + n, by omega⟩

/-- A number in decimal. -/
def natText (n : ℕ) : PyStr := (Nat.toDigits 10 n).map ofChar

/-- `repr(n)`. -/
def intText (n : ℤ) : PyStr := if n < 0 then 45 :: natText n.natAbs else natText n.natAbs

/-- The exponent of a float. -/
def expText : Option (Bool × List (Fin 10)) → PyStr
  | none => []
  | some (neg, digits) => 101 :: (if neg then 45 else 43) :: digits.map digit

/-- `repr(x)` of a finite float. -/
def FloatText.text (t : FloatText) : PyStr :=
  (if t.neg then [45] else []) ++ t.whole.map digit ++
    (if t.frac = [] then [] else 46 :: t.frac.map digit) ++ expText t.exp

/-- The text of a float. -/
def JsonFloat.text : JsonFloat → PyStr
  | nan => u "NaN"
  | inf neg => if neg then u "-Infinity" else u "Infinity"
  | fin t => t.text

/-- A digit of a code unit in hexadecimal. -/
def hexDigit (n : ℕ) : CodePoint :=
  if h : n < 10 then ⟨48 + n, by omega⟩ else if h : n < 16 then ⟨87 + n, by omega⟩ else 48

/-- `\uXXXX`. -/
def unitText (n : ℕ) : PyStr :=
  [92, 117, hexDigit (n / 4096), hexDigit (n / 256 % 16), hexDigit (n / 16 % 16), hexDigit (n % 16)]

/-- The high surrogate of a code point beyond the first plane. -/
def highOf (c : CodePoint) : ℕ := 0xd800 + (c.val - 0x10000) / 0x400

/-- The low surrogate of a code point beyond the first plane. -/
def lowOf (c : CodePoint) : ℕ := 0xdc00 + (c.val - 0x10000) % 0x400

/-- The escapes with a letter: the code point, and the letter. -/
def ESCAPES : List (CodePoint × CodePoint) :=
  [(34, 34), (92, 92), (10, 110), (13, 114), (9, 116), (12, 102), (8, 98)]

/-- A code point of a text that is written with `ensure_ascii`. -/
def escape (c : CodePoint) : PyStr :=
  match ESCAPES.lookup c with
  | some letter => [92, letter]
  | none =>
    if 32 ≤ c ∧ c ≤ 126 then [c]
    else if c.val < 0x10000 then unitText c.val
    else unitText (highOf c) ++ unitText (lowOf c)

/-- `encode_basestring_ascii`. -/
def quoted (s : PyStr) : PyStr := 34 :: (s.flatMap escape ++ [34])

/-- The text of a boolean. -/
def boolText (b : Bool) : PyStr := if b then u "true" else u "false"

/-- Texts with commas in between. -/
def commaSep : List PyStr → PyStr
  | [] => []
  | t :: rest => t ++ rest.flatMap fun t => [44, 32] ++ t

/-- The text of a list of these items. -/
def listText (ts : List PyStr) : PyStr := 91 :: (commaSep ts ++ [93])

/-- The text of a dict of these items. -/
def dictText (ts : List PyStr) : PyStr := 123 :: (commaSep ts ++ [125])

/-- The text of an item of a dict. -/
def itemText (key value : PyStr) : PyStr := quoted key ++ [58, 32] ++ value

/-! ## The encoder -/

/-- The interpreter, as the `json` module meets it. -/
structure Interp (Obj : Type) where
  /-- `sys.get_int_max_str_digits()`. -/
  maxDigits : ℕ
  /-- How deep the encoder goes down a value before the `RecursionError`. -/
  dumpsDepth : ℕ
  /-- How deep the decoder goes down a text before the `RecursionError`. -/
  loadsDepth : ℕ
  /-- The text of the `ValueError` for an integer with too many digits. -/
  digitsError : PyStr
  /-- The text of the `RecursionError`. -/
  depthError : PyStr
  /-- The text of the `TypeError` for a key that is an object. -/
  keyError : Obj → PyStr
  /-- The text of the `TypeError` for an object. -/
  typeError : Obj → PyStr
  /-- `str(o)`, or the text of the exception that it raises. -/
  str : Obj → Except PyStr PyStr
  /-- The items of a dict with other keys than texts in the order of their keys, or the text of the
  `TypeError` when they have none. -/
  sortOther : {R : Type} → List (PyKey Obj × R) → Except PyStr (List (PyKey Obj × R))
  /-- `float(s)`, for the text of a number with a point or an exponent. -/
  toFloat : PyStr → JsonFloat
  /-- A float is the one that its `repr` is read as. -/
  toFloat_text : ∀ t : FloatText, toFloat t.text = .fin t

/-- The arguments of `json.dumps`. -/
structure Options (Obj : Type) where
  /-- `sort_keys`. -/
  sortKeys : Bool
  /-- `default`, of which the callers here want a text. -/
  default : Obj → Except PyStr PyStr

/-- The first error, or all the values. -/
def firstError {ε α : Type} : List (Except ε α) → Except ε (List α)
  | [] => .ok []
  | x :: rest => do
    let a ← x
    let as ← firstError rest
    return a :: as

/-- The text of a key that is one. -/
def keyStr : PyKey Obj → Option PyStr
  | .str s => some s
  | _ => none

/-- The value of a key that is a text. -/
def getItem (key : PyStr) (items : List (PyKey Obj × PyVal Obj)) : Option (PyVal Obj) :=
  (items.find? fun i => keyStr i.1 = some key).map Prod.snd

/-- Items in the order of their keys, when these are texts. -/
def sortByKey {R : Type} (items : List (PyKey Obj × R)) : List (PyKey Obj × R) :=
  items.insertionSort fun i j => (keyStr i.1).getD [] ≤ (keyStr j.1).getD []

namespace Interp

variable (J : Interp Obj)

/-- The text of an integer. -/
def int (n : ℤ) : Except PyStr PyStr :=
  if J.maxDigits < (natText n.natAbs).length then .error J.digitsError else .ok (intText n)

/-- The text of a key. -/
def key : PyKey Obj → Except PyStr PyStr
  | .str s => .ok s
  | .none => .ok (u "null")
  | .bool b => .ok (boolText b)
  | .int n => J.int n
  | .float x => .ok x.text
  | .other o => .error (J.keyError o)

/-- `sorted(dct.items())`. -/
def sortItems {R : Type} (items : List (PyKey Obj × R)) : Except PyStr (List (PyKey Obj × R)) :=
  if items.all fun i => (keyStr i.1).isSome then .ok (sortByKey items) else J.sortOther items

mutual

/-- `encoder_listencode_obj`, which may go `d` levels down. -/
def encode (o : Options Obj) : PyVal Obj → ℕ → Except PyStr PyStr
  | .none, _ => .ok (u "null")
  | .bool b, _ => .ok (boolText b)
  | .int n, _ => J.int n
  | .float x, _ => .ok x.text
  | .str s, _ => .ok (quoted s)
  | .seq _ _, 0 => .error J.depthError
  | .seq _ xs, d + 1 => do
    let texts ← firstError (encodeList o xs d)
    return listText texts
  | .dict _, 0 => .error J.depthError
  | .dict items, d + 1 => do
    let items ← if o.sortKeys then J.sortItems (encodeItems o items d)
      else pure (encodeItems o items d)
    let texts ← firstError (items.map Prod.snd)
    return dictText texts
  | .other x, d => do
    let s ← o.default x
    if d = 0 then .error J.depthError else return quoted s

/-- The texts of the items of a list. -/
def encodeList (o : Options Obj) : List (PyVal Obj) → ℕ → List (Except PyStr PyStr)
  | [], _ => []
  | v :: rest, d => encode o v d :: encodeList o rest d

/-- The keys of a dict with the texts of the items. -/
def encodeItems (o : Options Obj) :
    List (PyKey Obj × PyVal Obj) → ℕ → List (PyKey Obj × Except PyStr PyStr)
  | [], _ => []
  | (k, v) :: rest, d =>
    (k, do
      let k ← J.key k
      let t ← encode o v d
      return itemText k t) :: encodeItems o rest d

end

/-- `json.dumps(v)`. -/
def plain : Options Obj where
  sortKeys := false
  default x := .error (J.typeError x)

/-- `json.dumps(v, sort_keys=True, default=str)`. -/
def sorted : Options Obj where
  sortKeys := true
  default := J.str

/-- `json.dumps`. -/
def dumps (o : Options Obj) (v : PyVal Obj) : Except PyStr PyStr := J.encode o v J.dumpsDepth

/-! ## What is written -/

/-- The text of a key, when it is no object. -/
def keyText : PyKey Obj → PyStr
  | .str s => s
  | .none => u "null"
  | .bool b => boolText b
  | .int n => intText n
  | .float x => x.text
  | .other _ => []

mutual

/-- The text of a value without objects. -/
def print : PyVal Obj → PyStr
  | .none => u "null"
  | .bool b => boolText b
  | .int n => intText n
  | .float x => x.text
  | .str s => quoted s
  | .seq _ xs => listText (printList xs)
  | .dict items => dictText (printItems items)
  | .other _ => []

/-- The texts of the items of a list. -/
def printList : List (PyVal Obj) → List PyStr
  | [] => []
  | v :: rest => print v :: printList rest

/-- The texts of the items of a dict. -/
def printItems : List (PyKey Obj × PyVal Obj) → List PyStr
  | [] => []
  | (k, v) :: rest => itemText (keyText k) (print v) :: printItems rest

end

/-- A key that can be written. -/
def WritesKey : PyKey Obj → Prop
  | .int n => (natText n.natAbs).length ≤ J.maxDigits
  | .other _ => False
  | _ => True

/-- A value that can be written when the values in it can. -/
def WritesNode : PyVal Obj → Prop
  | .int n => (natText n.natAbs).length ≤ J.maxDigits
  | .dict items => ∀ i ∈ items, J.WritesKey i.1
  | .other _ => False
  | _ => True

/-- A value that can be written but for its depth: its integers are not too long, its keys are of
the types that have texts, and there is no object in it. -/
def Writable (v : PyVal Obj) : Prop := PyVal.Each J.WritesNode v

theorem printList_eq_map (xs : List (PyVal Obj)) : printList xs = xs.map print := by
  induction xs with
  | nil => rfl
  | cons v rest ih => rw [printList, ih, List.map_cons]

theorem printItems_eq_map (items : List (PyKey Obj × PyVal Obj)) :
    printItems items = items.map fun i => itemText (keyText i.1) (print i.2) := by
  induction items with
  | nil => rfl
  | cons i rest ih => rw [printItems, ih, List.map_cons]

theorem encodeList_eq_map (o : Options Obj) (xs : List (PyVal Obj)) (d : ℕ) :
    J.encodeList o xs d = xs.map fun v => J.encode o v d := by
  induction xs with
  | nil => rfl
  | cons v rest ih => rw [encodeList, ih, List.map_cons]

/-- The text of an item of a dict. -/
def encodeItem (o : Options Obj) (d : ℕ) (i : PyKey Obj × PyVal Obj) : Except PyStr PyStr := do
  let k ← J.key i.1
  let t ← J.encode o i.2 d
  return itemText k t

theorem encodeItems_eq_map (o : Options Obj) (items : List (PyKey Obj × PyVal Obj)) (d : ℕ) :
    J.encodeItems o items d = items.map fun i => (i.1, J.encodeItem o d i) := by
  induction items with
  | nil => rfl
  | cons i rest ih => rw [encodeItems, ih, List.map_cons, encodeItem]

/-- There is no error exactly when all the values are there. -/
theorem firstError_eq_ok {ε α : Type} {l : List (Except ε α)} {as : List α} :
    firstError l = .ok as ↔ l = as.map .ok := by
  induction l generalizing as with
  | nil =>
    rw [firstError, Except.ok.injEq, eq_comm, eq_comm (a := []), List.map_eq_nil_iff]
  | cons x rest ih =>
    cases x with
    | error e =>
      constructor
      · intro h
        simp [firstError, bind, Except.bind] at h
      · intro h
        obtain ⟨a, as', -, ha, -⟩ := List.map_eq_cons_iff.mp h.symm
        simp at ha
    | ok a =>
      cases hrest : firstError rest with
      | error e =>
        constructor
        · intro h
          simp [firstError, bind, Except.bind, hrest] at h
        · intro h
          obtain ⟨a', as', -, -, has⟩ := List.map_eq_cons_iff.mp h.symm
          rw [ih.mpr has.symm] at hrest
          simp at hrest
      | ok as' =>
        have hl := ih.mp hrest
        simp only [firstError, bind, Except.bind, hrest, pure, Except.pure, Except.ok.injEq]
        constructor
        · rintro rfl
          rw [List.map_cons, hl]
        · intro h
          obtain ⟨b, bs, rfl, hb, hbs⟩ := List.map_eq_cons_iff.mp h.symm
          rw [Except.ok.injEq] at hb
          rw [hb]
          rw [hl] at hbs
          have hinj : Function.Injective (Except.ok : α → Except ε α) :=
            fun _ _ h => Except.ok.inj h
          rw [List.map_injective_iff.mpr hinj hbs]

/-- An integer with few digits is written. -/
theorem int_eq_ok {n : ℤ} {t : PyStr} :
    J.int n = .ok t ↔ (natText n.natAbs).length ≤ J.maxDigits ∧ t = intText n := by
  unfold int
  split_ifs with h
  · simp [h]
  · rw [Except.ok.injEq, eq_comm]
    simp [Nat.not_lt.mp h]

/-- A key that can be written is. -/
theorem key_eq_ok {k : PyKey Obj} {t : PyStr} :
    J.key k = .ok t ↔ J.WritesKey k ∧ t = keyText k := by
  cases k with
  | int n => exact J.int_eq_ok
  | other o => simp [key, WritesKey]
  | _ => simp [key, WritesKey, keyText, eq_comm]

/-- Steps that succeed on just some items, with a value of each, are without error on a list of
them. -/
theorem firstError_map_eq_ok {ε α β : Type} {f : α → Except ε β} {g : α → β} {Q : α → Prop}
    {l : List α} (h : ∀ a ∈ l, ∀ b, f a = .ok b ↔ Q a ∧ b = g a) (bs : List β) :
    firstError (l.map f) = .ok bs ↔ (∀ a ∈ l, Q a) ∧ bs = l.map g := by
  rw [firstError_eq_ok]
  induction l generalizing bs with
  | nil => simp [eq_comm]
  | cons a rest ih =>
    have ih := ih fun a' ha' => h a' (List.mem_cons_of_mem a ha')
    cases bs with
    | nil => simp
    | cons b bs =>
      rw [List.map_cons, List.map_cons, List.map_cons, List.cons.injEq, List.cons.injEq, ih,
        h a List.mem_cons_self, List.forall_mem_cons]
      tauto

/-- The text around the texts of items. -/
theorem texts_eq_ok {x : Except PyStr (List PyStr)} {Q : Prop} {ps : List PyStr}
    (h : ∀ ts, x = .ok ts ↔ Q ∧ ts = ps) (K : List PyStr → PyStr) (t : PyStr) :
    (do let ts ← x; return K ts) = (.ok t : Except PyStr PyStr) ↔ Q ∧ t = K ps := by
  cases hx : x with
  | error e =>
    have hno : ¬ Q := fun hq => by
      rw [(h ps).mpr ⟨hq, rfl⟩] at hx
      simp at hx
    simp [bind, Except.bind, hno]
  | ok ts =>
    obtain ⟨hq, rfl⟩ := (h ts).mp hx
    simp [bind, Except.bind, pure, Except.pure, hq, eq_comm]

/-- The text of an item, when that of its value is known. -/
theorem encodeItem_eq_ok {o : Options Obj} {d : ℕ} {i : PyKey Obj × PyVal Obj} {Q : Prop}
    {p : PyStr} (h : ∀ t, J.encode o i.2 d = .ok t ↔ Q ∧ t = p) (t : PyStr) :
    J.encodeItem o d i = .ok t ↔ (J.WritesKey i.1 ∧ Q) ∧ t = itemText (keyText i.1) p := by
  unfold encodeItem
  cases hk : J.key i.1 with
  | error e =>
    have hno : ¬ J.WritesKey i.1 := fun hw => by
      rw [J.key_eq_ok.mpr ⟨hw, rfl⟩] at hk
      simp at hk
    simp [bind, Except.bind, hno]
  | ok k =>
    obtain ⟨hw, rfl⟩ := J.key_eq_ok.mp hk
    cases ht : J.encode o i.2 d with
    | error e =>
      have hno : ¬ Q := fun hq => by
        rw [(h p).mpr ⟨hq, rfl⟩] at ht
        simp at ht
      simp [bind, Except.bind, hno]
    | ok t' =>
      obtain ⟨hq, rfl⟩ := (h t').mp ht
      simp [bind, Except.bind, pure, Except.pure, hw, hq, eq_comm]

theorem writable_seq {frozen : Bool} {xs : List (PyVal Obj)} :
    J.Writable (.seq frozen xs) ↔ ∀ w ∈ xs, J.Writable w := by
  unfold Writable
  rw [PyVal.each_iff]
  exact and_iff_right trivial

theorem writable_dict {items : List (PyKey Obj × PyVal Obj)} :
    J.Writable (.dict items) ↔ ∀ i ∈ items, J.WritesKey i.1 ∧ J.Writable i.2 := by
  unfold Writable
  rw [PyVal.each_iff]
  simp only [WritesNode, PyVal.children, List.forall_mem_map]
  exact ⟨fun h i hi => ⟨h.1 i hi, h.2 i hi⟩, fun h => ⟨fun i hi => (h i hi).1, fun i hi =>
    (h i hi).2⟩⟩

/-- A list is written when its items are. -/
theorem encode_seq_eq_ok {o : Options Obj} {frozen : Bool} {xs : List (PyVal Obj)} {d : ℕ}
    {g : PyVal Obj → PyStr} (h : ∀ w ∈ xs, ∀ d t, J.encode o w d = .ok t ↔
      (J.Writable w ∧ w.NestedIn d) ∧ t = g w) (t : PyStr) :
    J.encode o (.seq frozen xs) d = .ok t ↔
      (J.Writable (.seq frozen xs) ∧ (PyVal.seq frozen xs).NestedIn d) ∧
        t = listText (xs.map g) := by
  cases d with
  | zero => simp [encode, PyVal.not_nestedIn_zero_seq]
  | succ d =>
    rw [encode, encodeList_eq_map, texts_eq_ok (firstError_map_eq_ok fun w hw => h w hw d),
      J.writable_seq, PyVal.nestedIn_seq, ← forall₂_and]

/-- A value that is no container can be written when it can be by itself. -/
theorem writable_scalar {v : PyVal Obj} (hs : ∀ frozen xs, v ≠ .seq frozen xs)
    (hd : ∀ items, v ≠ .dict items) {d : ℕ} : (J.Writable v ∧ v.NestedIn d) ↔ J.WritesNode v := by
  have hchildren : v.children = [] := by
    cases v with
    | seq frozen xs => exact absurd rfl (hs frozen xs)
    | dict items => exact absurd rfl (hd items)
    | _ => rfl
  unfold Writable
  rw [PyVal.each_iff, hchildren]
  exact ⟨fun h => h.1.1, fun h => ⟨⟨h, fun w hw => absurd hw List.not_mem_nil⟩, .scalar d v hs hd⟩⟩

/-- A value that is no container and no object is written when its integer has few digits. -/
theorem encode_scalar_eq_ok {v : PyVal Obj} (hs : ∀ frozen xs, v ≠ .seq frozen xs)
    (hd : ∀ items, v ≠ .dict items) (ho : ∀ o, v ≠ .other o) {o : Options Obj} {d : ℕ} {t : PyStr} :
    J.encode o v d = .ok t ↔ J.WritesNode v ∧ t = print v := by
  cases v with
  | seq frozen xs => exact absurd rfl (hs frozen xs)
  | dict items => exact absurd rfl (hd items)
  | other x => exact absurd rfl (ho x)
  | int n => exact J.int_eq_ok
  | _ => simp [encode, print, WritesNode, eq_comm]

/-- The items of a dict are written when their keys and values are. -/
theorem dictText_eq_ok {o : Options Obj} {items : List (PyKey Obj × PyVal Obj)} {d : ℕ}
    {g : PyVal Obj → PyStr} (h : ∀ i ∈ items, ∀ d t, J.encode o i.2 d = .ok t ↔
      (J.Writable i.2 ∧ i.2.NestedIn d) ∧ t = g i.2) (t : PyStr) :
    (do let ts ← firstError (items.map (J.encodeItem o d)); return dictText ts) = Except.ok t ↔
      (J.Writable (.dict items) ∧ (PyVal.dict items).NestedIn (d + 1)) ∧
        t = dictText (items.map fun i => itemText (keyText i.1) (g i.2)) := by
  rw [texts_eq_ok (firstError_map_eq_ok fun i hi => J.encodeItem_eq_ok (h i hi d)),
    J.writable_dict, PyVal.nestedIn_dict, ← forall₂_and]
  simp only [and_assoc]

/-- Without a `default` the encoder writes what is writable and not too deep, and only that. -/
theorem encode_plain_eq_ok {v : PyVal Obj} {d : ℕ} {t : PyStr} :
    J.encode J.plain v d = .ok t ↔ (J.Writable v ∧ v.NestedIn d) ∧ t = print v := by
  induction v using PyVal.induct generalizing d t with
  | h v ih =>
    cases v with
    | seq frozen xs =>
      have hitems : ∀ w ∈ xs, ∀ d t, J.encode J.plain w d = .ok t ↔
          (J.Writable w ∧ w.NestedIn d) ∧ t = print w := fun w hw d t => ih w hw
      rw [J.encode_seq_eq_ok hitems, print, printList_eq_map]
    | dict items =>
      cases d with
      | zero => simp [encode, PyVal.not_nestedIn_zero_dict]
      | succ d =>
        have hitems : ∀ i ∈ items, ∀ d t, J.encode J.plain i.2 d = .ok t ↔
            (J.Writable i.2 ∧ i.2.NestedIn d) ∧ t = print i.2 :=
          fun i hi d t => ih i.2 (List.mem_map_of_mem hi)
        have hencode : J.encode J.plain (.dict items) (d + 1) =
            (do let ts ← firstError (items.map (J.encodeItem J.plain d)); return dictText ts) := by
          simp [encode, plain, encodeItems_eq_map, Function.comp_def]
        rw [hencode, J.dictText_eq_ok hitems, print, printItems_eq_map]
    | other o =>
      have hno : ¬ J.Writable (.other o) := fun h => h.here
      simp [encode, plain, hno, bind, Except.bind]
    | _ => rw [J.writable_scalar (by simp) (by simp), J.encode_scalar_eq_ok (by simp) (by simp)
        (by simp)]

/-! ## Sorted keys -/

end Interp

/-- A value of JSON when the values in it are: its keys are texts, each there once. -/
def JsonNode : PyVal Obj → Prop
  | .seq frozen _ => frozen = false
  | .dict items => (∀ i ∈ items, ∃ s, i.1 = .str s) ∧ (items.map Prod.fst).Nodup
  | .other _ => False
  | _ => True

/-- A value of JSON. -/
def IsJson (v : PyVal Obj) : Prop := v.Each JsonNode

mutual

/-- A value with all its dicts in the order of their keys. -/
def sortKeys : PyVal Obj → PyVal Obj
  | .seq frozen xs => .seq frozen (sortKeysList xs)
  | .dict items => .dict (sortByKey (sortKeysItems items))
  | .none => .none
  | .bool b => .bool b
  | .int n => .int n
  | .float x => .float x
  | .str s => .str s
  | .other o => .other o

/-- The items of a list, sorted. -/
def sortKeysList : List (PyVal Obj) → List (PyVal Obj)
  | [] => []
  | v :: rest => sortKeys v :: sortKeysList rest

/-- The items of a dict, with their values sorted. -/
def sortKeysItems : List (PyKey Obj × PyVal Obj) → List (PyKey Obj × PyVal Obj)
  | [] => []
  | (k, v) :: rest => (k, sortKeys v) :: sortKeysItems rest

end

theorem sortKeysList_eq_map (xs : List (PyVal Obj)) : sortKeysList xs = xs.map sortKeys := by
  induction xs with
  | nil => rfl
  | cons v rest ih => rw [sortKeysList, ih, List.map_cons]

theorem sortKeysItems_eq_map (items : List (PyKey Obj × PyVal Obj)) :
    sortKeysItems items = items.map fun i => (i.1, sortKeys i.2) := by
  induction items with
  | nil => rfl
  | cons i rest ih => rw [sortKeysItems, ih, List.map_cons]

/-- The order rests on the keys alone. -/
theorem sortByKey_map {R S : Type} (f : PyKey Obj × R → S) (items : List (PyKey Obj × R)) :
    sortByKey (items.map fun i => (i.1, f i)) = (sortByKey items).map fun i => (i.1, f i) := by
  unfold sortByKey
  rw [List.map_insertionSort _ (fun i j : PyKey Obj × S => (keyStr i.1).getD [] ≤
    (keyStr j.1).getD [])]
  exact fun _ _ _ _ => Iff.rfl

theorem mem_sortByKey {R : Type} {items : List (PyKey Obj × R)} {i : PyKey Obj × R} :
    i ∈ sortByKey items ↔ i ∈ items := List.mem_insertionSort _

theorem perm_sortByKey {R : Type} (items : List (PyKey Obj × R)) :
    (sortByKey items).Perm items := List.perm_insertionSort _ _

namespace Interp

variable (J : Interp Obj)

/-- Sorting keeps what can be written. -/
theorem writable_dict_sortByKey {items : List (PyKey Obj × PyVal Obj)} :
    J.Writable (.dict (sortByKey items)) ↔ J.Writable (.dict items) := by
  simp only [writable_dict, mem_sortByKey]

/-- With sorted keys the encoder goes through the items in the order of their keys. -/
theorem encode_dict_sorted {items : List (PyKey Obj × PyVal Obj)}
    (hkeys : ∀ i ∈ items, ∃ s, i.1 = .str s) (d : ℕ) :
    J.encode J.sorted (.dict items) (d + 1) =
      (do let ts ← firstError ((sortByKey items).map (J.encodeItem J.sorted d))
          return dictText ts) := by
  have hsort : J.sortItems (items.map fun i => (i.1, J.encodeItem J.sorted d i)) =
      .ok ((sortByKey items).map fun i => (i.1, J.encodeItem J.sorted d i)) := by
    unfold sortItems
    rw [if_pos, sortByKey_map]
    simp only [List.all_map, List.all_eq_true]
    intro i hi
    obtain ⟨s, hs⟩ := hkeys i hi
    simp [hs, keyStr]
  have hsorted : J.sorted.sortKeys = true := rfl
  rw [encode, encodeItems_eq_map]
  simp only [hsorted, if_true, hsort]
  simp only [bind, Except.bind, List.map_map, Function.comp_def]

/-- With sorted keys the encoder writes the text of the sorted value. -/
theorem encode_sorted_eq_ok {v : PyVal Obj} (hv : IsJson v) {d : ℕ} {t : PyStr} :
    J.encode J.sorted v d = .ok t ↔ (J.Writable v ∧ v.NestedIn d) ∧ t = print (sortKeys v) := by
  induction v using PyVal.induct generalizing d t with
  | h v ih =>
    cases v with
    | seq frozen xs =>
      have hitems : ∀ w ∈ xs, ∀ d t, J.encode J.sorted w d = .ok t ↔
          (J.Writable w ∧ w.NestedIn d) ∧ t = print (sortKeys w) :=
        fun w hw d t => ih w hw (hv.inside hw)
      rw [J.encode_seq_eq_ok hitems, sortKeys, print, printList_eq_map, sortKeysList_eq_map,
        List.map_map]
      rfl
    | dict items =>
      cases d with
      | zero => simp [encode, PyVal.not_nestedIn_zero_dict]
      | succ d =>
        have hitems : ∀ i ∈ sortByKey items, ∀ d t, J.encode J.sorted i.2 d = .ok t ↔
            (J.Writable i.2 ∧ i.2.NestedIn d) ∧ t = print (sortKeys i.2) := by
          intro i hi d t
          have hmem : i.2 ∈ (PyVal.dict items).children :=
            List.mem_map_of_mem (mem_sortByKey.mp hi)
          exact ih i.2 hmem (hv.inside hmem)
        rw [J.encode_dict_sorted hv.here.1,
          J.dictText_eq_ok (g := fun v => print (sortKeys v)) hitems, writable_dict_sortByKey,
          sortKeys, print, printItems_eq_map, sortKeysItems_eq_map,
          sortByKey_map fun i => sortKeys i.2, List.map_map, PyVal.nestedIn_dict,
          PyVal.nestedIn_dict]
        simp only [mem_sortByKey]
        rfl
    | other o => exact hv.here.elim
    | _ => rw [J.writable_scalar (by simp) (by simp), J.encode_scalar_eq_ok (by simp) (by simp)
        (by simp)]; rfl

/-- The first error is one of them. -/
theorem exists_of_firstError {ε α : Type} {l : List (Except ε α)} {e : ε}
    (h : firstError l = .error e) : .error e ∈ l := by
  induction l with
  | nil => simp [firstError] at h
  | cons x rest ih =>
    cases x with
    | error e' =>
      obtain rfl : e' = e := by simpa [firstError, bind, Except.bind] using h
      exact List.mem_cons_self
    | ok a =>
      cases hrest : firstError rest with
      | error e' =>
        obtain rfl : e' = e := by simpa [firstError, bind, Except.bind, hrest] using h
        exact List.mem_cons_of_mem _ (ih hrest)
      | ok as => simp [firstError, bind, Except.bind, pure, Except.pure, hrest] at h

/-- On a value of JSON the encoder stops at an integer with too many digits or for the depth. -/
theorem error_of_encode_sorted {v : PyVal Obj} (hv : IsJson v) {d : ℕ} {e : PyStr}
    (h : J.encode J.sorted v d = .error e) : e = J.digitsError ∨ e = J.depthError := by
  have htexts {x : Except PyStr (List PyStr)} {K : List PyStr → PyStr} {e : PyStr}
      (h : (do let ts ← x; return K ts) = (.error e : Except PyStr PyStr)) : x = .error e := by
    cases x with
    | error e' => simpa [bind, Except.bind] using h
    | ok ts => simp [bind, Except.bind, pure, Except.pure] at h
  induction v using PyVal.induct generalizing d e with
  | h v ih =>
    cases v with
    | int n =>
      rw [encode, int] at h
      split_ifs at h
      exact .inl (Except.error.inj h).symm
    | seq frozen xs =>
      cases d with
      | zero =>
        rw [encode, Except.error.injEq] at h
        exact .inr h.symm
      | succ d =>
        rw [encode, encodeList_eq_map] at h
        obtain ⟨w, hw, hwe⟩ := List.mem_map.mp (exists_of_firstError (htexts h))
        exact ih w hw (hv.inside hw) hwe
    | dict items =>
      cases d with
      | zero =>
        rw [encode, Except.error.injEq] at h
        exact .inr h.symm
      | succ d =>
        rw [J.encode_dict_sorted hv.here.1] at h
        obtain ⟨i, hi, hie⟩ := List.mem_map.mp (exists_of_firstError (htexts h))
        have hi := mem_sortByKey.mp hi
        have hmem : i.2 ∈ (PyVal.dict items).children := List.mem_map_of_mem hi
        obtain ⟨s, hs⟩ := hv.here.1 i hi
        unfold encodeItem at hie
        rw [hs, key] at hie
        cases hval : J.encode J.sorted i.2 d with
        | error e' =>
          obtain rfl : e' = e := by simpa [bind, Except.bind, hval] using hie
          exact ih i.2 hmem (hv.inside hmem) hval
        | ok t => simp [bind, Except.bind, pure, Except.pure, hval] at hie
    | other o => exact hv.here.elim
    | _ => simp [encode] at h

end Interp

end ControlPlane.JsonText
