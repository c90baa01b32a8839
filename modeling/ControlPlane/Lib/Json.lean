import ControlPlane.Lib.Text

/-!
# JSON values as Python holds them

A value of `json.loads`: numbers are Python integers of any size or floats, an object is a dict, kept
as its list of items. `intOf` and `floatOf` are the constructors `int` and `float` applied to such a
value, with the exception they raise.
-/

namespace ControlPlane

open Text

/-- A raised exception: the name of its class and its text. -/
structure Exc where
  /-- `type(exc).__name__`. -/
  name : String
  /-- `str(exc)`. -/
  msg : String
  deriving DecidableEq

/-- A computation that returns has returned at each step. -/
theorem except_bind_eq_ok {ε α β : Type} {x : Except ε α} {f : α → Except ε β} {b : β}
    (h : x >>= f = .ok b) : ∃ a, x = .ok a ∧ f a = .ok b := by
  cases x with
  | error e => simp [bind, Except.bind] at h
  | ok a => exact ⟨a, rfl, h⟩

/-- A JSON value. -/
inductive Json where
  | null
  | bool (b : Bool)
  | int (n : ℤ)
  | float (x : PyFloat)
  | str (s : String)
  | arr (items : List Json)
  | obj (fields : List (String × Json))

namespace Json

/-- `type(x).__name__`. -/
def typeName : Json → String
  | null => "NoneType"
  | bool _ => "bool"
  | int _ => "int"
  | float _ => "float"
  | str _ => "str"
  | arr _ => "list"
  | obj _ => "dict"

/-- `bool(x)`. -/
def truthy : Json → Bool
  | null => false
  | bool b => b
  | int n => n != 0
  | float x => x.val != .fin 0
  | str s => s != ""
  | arr l => !l.isEmpty
  | obj l => !l.isEmpty

/-- `x == s`, for a text `s`. -/
def isStr (s : String) : Json → Bool
  | str t => t == s
  | _ => false

/-- The value of a key of a dict. -/
def lookup (key : String) (fields : List (String × Json)) : Option Json := List.lookup key fields

/-- `x.get(key)`, which only a dict has. -/
def get (x : Json) (key : String) : Except Exc (Option Json) :=
  match x with
  | obj fields => .ok (lookup key fields)
  | _ => .error ⟨"AttributeError", "'" ++ x.typeName ++ "' object has no attribute 'get'"⟩

/-- `x.get(key, default)`. -/
def getD (x : Json) (key : String) (default : Json) : Except Exc Json :=
  (x.get key).map (·.getD default)

/-- `d[key] = value`: the item keeps its place when the key is there. -/
def setKey (key : String) (value : Json) : List (String × Json) → List (String × Json)
  | [] => [(key, value)]
  | (k, v) :: rest => if k = key then (key, value) :: rest else (k, v) :: setKey key value rest

/-- What a key holds after it was set. -/
theorem lookup_setKey (key : String) (value : Json) (fields : List (String × Json)) :
    lookup key (setKey key value fields) = some value := by
  induction fields with
  | nil => simp [setKey, lookup]
  | cons f rest ih =>
    obtain ⟨k, v⟩ := f
    unfold setKey
    split_ifs with h
    · simp [lookup]
    · unfold lookup at ih ⊢
      rw [List.lookup_cons, beq_false_of_ne (Ne.symm h)]
      exact ih

/-- The other keys keep what they hold. -/
theorem lookup_setKey_of_ne {key k : String} (value : Json) (fields : List (String × Json))
    (hk : k ≠ key) : lookup k (setKey key value fields) = lookup k fields := by
  induction fields with
  | nil => simp [setKey, lookup, List.lookup_cons, beq_false_of_ne hk]
  | cons f rest ih =>
    obtain ⟨k', v⟩ := f
    unfold lookup at ih ⊢
    unfold setKey
    split_ifs with h
    · subst h
      simp [List.lookup_cons, beq_false_of_ne hk]
    · rw [List.lookup_cons, List.lookup_cons, ih]

/-- `x or default`. -/
def orElse (x default : Json) : Json := if x.truthy then x else default

/-- The items that `for item in x` goes through. -/
def iter (x : Json) : Except Exc (List Json) :=
  match x with
  | arr items => .ok items
  | obj fields => .ok (fields.map fun f => str f.1)
  | str s => .ok (s.toList.map fun c => str (String.singleton c))
  | x => .error ⟨"TypeError", "'" ++ x.typeName ++ "' object is not iterable"⟩

/-- A list of texts, as a JSON array. -/
def ofTexts (l : List String) : Json := arr (l.map str)

/-- A rational cut off at the point. -/
def trunc (q : ℚ) : ℤ := if 0 ≤ q then q.floor else -(-q).floor

/-- `int(x)`. -/
def intOf (T : PyText) (x : Json) : Except Exc ℤ :=
  match x with
  | bool b => .ok (if b then 1 else 0)
  | int n => .ok n
  | float ⟨.fin q, _⟩ => .ok (trunc q)
  | float ⟨.nan, _⟩ => .error ⟨"ValueError", "cannot convert float NaN to integer"⟩
  | float ⟨.inf _, _⟩ => .error ⟨"OverflowError", "cannot convert float infinity to integer"⟩
  | str s =>
    match T.int s with
    | some n => .ok n
    | none => .error ⟨"ValueError", "invalid literal for int() with base 10: " ++ T.repr s⟩
  | x => .error ⟨"TypeError", "int() argument must be a string, a bytes-like object or a real "
      ++ "number, not '" ++ x.typeName ++ "'"⟩

/-- `float(x)`. -/
def floatOf (T : PyText) (x : Json) : Except Exc PyFloat :=
  match x with
  | bool b => .ok (if b then ⟨.fin 1, "1.0"⟩ else ⟨.fin 0, "0.0"⟩)
  | int n =>
    match T.floatOfInt n with
    | some y => .ok y
    | none => .error ⟨"OverflowError", "int too large to convert to float"⟩
  | float y => .ok y
  | str s =>
    match T.float s with
    | some y => .ok y
    | none => .error ⟨"ValueError", "could not convert string to float: " ++ T.repr s⟩
  | x => .error ⟨"TypeError", "float() argument must be a string or a real number, not '"
      ++ x.typeName ++ "'"⟩

/-! ## Printing -/

/-- A text in quotes. -/
def quote (s : String) : String :=
  "\"" ++ String.ofList (s.toList.flatMap fun c =>
    if c.toNat = 34 ∨ c.toNat = 92 then [Char.ofNat 92, c] else [c]) ++ "\""

mutual

/-- The text of `json.dumps`, for texts without control characters. -/
def print : Json → String
  | null => "null"
  | bool b => if b then "true" else "false"
  | int n => toString n
  | float x => x.repr
  | str s => quote s
  | arr items => "[" ++ printItems items ++ "]"
  | obj fields => "\x7b" ++ printFields fields ++ "\x7d"

/-- The items of an array. -/
def printItems : List Json → String
  | [] => ""
  | [x] => print x
  | x :: rest => print x ++ ", " ++ printItems rest

/-- The fields of an object. -/
def printFields : List (String × Json) → String
  | [] => ""
  | [f] => printField f
  | f :: rest => printField f ++ ", " ++ printFields rest

/-- One field of an object. -/
def printField : String × Json → String
  | (key, x) => quote key ++ ": " ++ print x

end

end Json

/-- The interpreter: its text functions, and its functions on JSON values. -/
structure Py extends PyText where
  /-- `str(x)`, which an f-string applies. -/
  fmt : Json → String
  /-- `json.loads(s)`, with `none` for an exception. -/
  loads : String → Option Json
  /-- `json.dumps(x)`. -/
  dumps : Json → String
  /-- `hashlib.sha256(s.encode("utf-8")).hexdigest()`. -/
  sha256 : String → String

/-- An interpreter for concrete runs on ASCII texts and small integers, where it agrees with the
real one. The digests and the parsed texts of a run are given as tables. -/
def Py.ascii (sha256 : String → String) (loads : String → Option Json) : Py where
  upper s := String.ofList (s.toList.map Char.toUpper)
  lower s := String.ofList (s.toList.map Char.toLower)
  isdigit s := s != "" && s.toList.all isDigit
  int s := if s ≠ "" ∧ s.toList.all isDigit then some (decimal s) else none
  float _ := none
  floatOfInt n := some ⟨.fin n, toString n ++ ".0"⟩
  repr s := "'" ++ s ++ "'"
  set l := "\x7b" ++ ", ".intercalate (l.map fun s => "'" ++ s ++ "'") ++ "\x7d"
  fmt
    | .str s => s
    | .int n => toString n
    | .float x => x.repr
    | .bool b => if b then "True" else "False"
    | _ => "None"
  loads := loads
  dumps := Json.print
  sha256 := sha256

end ControlPlane
