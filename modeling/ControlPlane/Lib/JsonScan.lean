import Mathlib.Algebra.Field.Rat
import Mathlib.Data.List.Basic

/-!
# A reader of JSON that takes one byte after another

The scanner and the values of a decoder that reads a stream: a step for each byte, over the stack of
the arrays and objects that are open. A value that begins the stream is found as soon as it is
complete, whatever comes behind it, and the reader fails at the first byte that no text of JSON can
have there. What it does with a stream does not depend on the pieces in which the stream comes
(`run_append`, `decodeStream_fst`).
-/

namespace ControlPlane.JsonScan

/-- A text: code points, where a surrogate can stand by itself, and a byte `b` that belongs to no
character is `0x110000 + b`. -/
abbrev Str := List ℕ

/-- A value of JSON, with the members of an object as they come. -/
inductive Value where
  | null
  | bool (b : Bool)
  | num (q : ℚ)
  | str (s : Str)
  | arr (items : List Value)
  | obj (members : List (Str × Value))

/-! ## Texts in quotes -/

/-- What a text in quotes is made of. -/
inductive Piece where
  | byte (b : UInt8)
  /-- An escape. -/
  | code (x : ℕ)

def isHigh (x : ℕ) : Bool := 0xd800 ≤ x && x < 0xdc00

def isLow (x : ℕ) : Bool := 0xdc00 ≤ x && x < 0xe000

/-- The bytes up to the next escape. -/
def leadingBytes : List Piece → List UInt8
  | .byte b :: pieces => b :: leadingBytes pieces
  | _ => []

/-- The text of these pieces, without the first ones, which belong to the last character. -/
def textFrom : ℕ → List Piece → Str
  | _, [] => []
  | skip + 1, _ :: pieces => textFrom skip pieces
  | 0, .byte b :: pieces =>
    if b < 128 then b.toNat :: textFrom 0 pieces
    else
      match (b :: (leadingBytes pieces).take 3).toByteArray.utf8DecodeChar? 0 with
      | some c => c.toNat :: textFrom (c.utf8Size - 1) pieces
      | none => (0x110000 + b.toNat) :: textFrom 0 pieces
  | 0, .code x :: pieces =>
    match pieces with
    | .code y :: _ =>
      -- Two surrogates are one character.
      if isHigh x && isLow y then
        (0x10000 + (x - 0xd800) * 0x400 + (y - 0xdc00)) :: textFrom 1 pieces
      else x :: textFrom 0 pieces
    | _ => x :: textFrom 0 pieces

/-- The escapes with a letter. -/
def ESCAPES : List (UInt8 × ℕ) :=
  [(34, 34), (92, 92), (47, 47), (98, 8), (102, 12), (110, 10), (114, 13), (116, 9)]

/-- The value of a hexadecimal digit. -/
def hexDigit (c : UInt8) : Option ℕ :=
  if 48 ≤ c ∧ c ≤ 57 then some (c.toNat - 48)
  else if 97 ≤ c ∧ c ≤ 102 then some (c.toNat - 87)
  else if 65 ≤ c ∧ c ≤ 70 then some (c.toNat - 55)
  else none

/-! ## Numbers -/

/-- What has been read of a number. -/
structure Num where
  neg : Bool
  /-- The digits, as one number. -/
  mantissa : ℕ
  /-- How many of them stand behind the point. -/
  fracDigits : ℕ
  expNeg : Bool
  exp : ℕ

def Num.val (n : Num) : ℚ :=
  (if n.neg then -1 else 1) * n.mantissa *
    10 ^ ((if n.expNeg then -(n.exp : ℤ) else n.exp) - n.fracDigits)

/-- The last thing that has been read of a number. -/
inductive NumPart where
  | minus
  | zero
  | digit
  | dot
  | fracDigit
  | e
  | eSign
  | expDigit

/-! ## The scanner -/

/-- An array or an object that is open, with what has been read of it, the last first. -/
inductive Frame where
  | arr (items : List Value)
  /-- In front of the colon. -/
  | key (members : List (Str × Value))
  /-- Behind it. -/
  | val (members : List (Str × Value)) (key : Str)

/-- What the scanner is at. -/
inductive Mode where
  | beginValue
  | beginValueOrEmpty
  | beginString
  | beginStringOrEmpty
  /-- Behind a value. -/
  | endValue (v : Value)
  /-- In a text, with its pieces, the last first. -/
  | inString (pieces : List Piece)
  | inStringEsc (pieces : List Piece)
  /-- In an escape with so many digits to come. -/
  | inStringEscU (pieces : List Piece) (digits : ℕ) (code : ℕ)
  | number (part : NumPart) (n : Num)
  /-- In a word with these letters to come. -/
  | literal (left : List UInt8) (v : Value)

structure State where
  stack : List Frame
  mode : Mode

/-- What a byte does. -/
inductive Next where
  | go (s : State)
  /-- The value is complete. -/
  | stop (v : Value) (took : Bool)
  | fail

/-- `maxNestingDepth`. -/
def MAX_NESTING_DEPTH : ℕ := 10000

def isSpace (c : UInt8) : Bool := c = 32 || c = 9 || c = 13 || c = 10

def isDigit (c : UInt8) : Bool := 48 ≤ c && c ≤ 57

/-- An array or an object opens. -/
def push (stack : List Frame) (f : Frame) (m : Mode) : Next :=
  if stack.length < MAX_NESTING_DEPTH then .go ⟨f :: stack, m⟩ else .fail

/-- An array or an object is complete. -/
def close (stack : List Frame) (v : Value) : Next :=
  if stack = [] then .stop v true else .go ⟨stack, .endValue v⟩

/-- The first byte of a value. -/
def stepBegin (stack : List Frame) (c : UInt8) : Next :=
  if isSpace c then .go ⟨stack, .beginValue⟩
  else if c = 123 then push stack (.key []) .beginStringOrEmpty
  else if c = 91 then push stack (.arr []) .beginValueOrEmpty
  else if c = 34 then .go ⟨stack, .inString []⟩
  else if c = 45 then .go ⟨stack, .number .minus ⟨true, 0, 0, false, 0⟩⟩
  else if c = 48 then .go ⟨stack, .number .zero ⟨false, 0, 0, false, 0⟩⟩
  else if isDigit c then .go ⟨stack, .number .digit ⟨false, c.toNat - 48, 0, false, 0⟩⟩
  else if c = 116 then .go ⟨stack, .literal [114, 117, 101] (.bool true)⟩
  else if c = 102 then .go ⟨stack, .literal [97, 108, 115, 101] (.bool false)⟩
  else if c = 110 then .go ⟨stack, .literal [117, 108, 108] .null⟩
  else .fail

/-- The first byte of a key. -/
def stepBeginString (stack : List Frame) (c : UInt8) : Next :=
  if isSpace c then .go ⟨stack, .beginString⟩
  else if c = 34 then .go ⟨stack, .inString []⟩
  else .fail

/-- A byte behind a value. -/
def stepEnd (stack : List Frame) (v : Value) (c : UInt8) : Next :=
  match stack with
  | [] => .stop v false
  | f :: stack =>
    if isSpace c then .go ⟨f :: stack, .endValue v⟩
    else
      match f, v with
      | .key members, .str key =>
        if c = 58 then .go ⟨.val members key :: stack, .beginValue⟩ else .fail
      | .key _, _ => .fail
      | .val members key, v =>
        if c = 44 then .go ⟨.key ((key, v) :: members) :: stack, .beginString⟩
        else if c = 125 then close stack (.obj ((key, v) :: members).reverse)
        else .fail
      | .arr items, v =>
        if c = 44 then .go ⟨.arr (v :: items) :: stack, .beginValue⟩
        else if c = 93 then close stack (.arr (v :: items).reverse)
        else .fail

/-- A byte in a number, or behind it. -/
def stepNumber (stack : List Frame) (part : NumPart) (n : Num) (c : UInt8) : Next :=
  let d := c.toNat - 48
  let go (part : NumPart) (n : Num) : Next := .go ⟨stack, .number part n⟩
  let digit := go .digit { n with mantissa := 10 * n.mantissa + d }
  let fracDigit := go .fracDigit
    { n with mantissa := 10 * n.mantissa + d, fracDigits := n.fracDigits + 1 }
  let expDigit := go .expDigit { n with exp := 10 * n.exp + d }
  let behindFrac := if c = 101 ∨ c = 69 then go .e n else stepEnd stack (.num n.val) c
  let behindWhole := if c = 46 then go .dot n else behindFrac
  match part with
  | .minus => if c = 48 then go .zero n else if isDigit c then digit else .fail
  | .zero => behindWhole
  | .digit => if isDigit c then digit else behindWhole
  | .dot => if isDigit c then fracDigit else .fail
  | .fracDigit => if isDigit c then fracDigit else behindFrac
  | .e =>
    if c = 43 then go .eSign n
    else if c = 45 then go .eSign { n with expNeg := true }
    else if isDigit c then expDigit
    else .fail
  | .eSign => if isDigit c then expDigit else .fail
  | .expDigit => if isDigit c then expDigit else stepEnd stack (.num n.val) c

/-- The step for a byte. -/
def step (s : State) (c : UInt8) : Next :=
  match s.mode with
  | .beginValue => stepBegin s.stack c
  | .beginValueOrEmpty =>
    if isSpace c then .go s
    else
      match s.stack with
      | .arr _ :: stack => if c = 93 then close stack (.arr []) else stepBegin s.stack c
      | _ => .fail
  | .beginString => stepBeginString s.stack c
  | .beginStringOrEmpty =>
    if isSpace c then .go s
    else
      match s.stack with
      | .key _ :: stack => if c = 125 then close stack (.obj []) else stepBeginString s.stack c
      | _ => .fail
  | .endValue v => stepEnd s.stack v c
  | .inString pieces =>
    if c = 34 then .go ⟨s.stack, .endValue (.str (textFrom 0 pieces.reverse))⟩
    else if c = 92 then .go ⟨s.stack, .inStringEsc pieces⟩
    else if c < 32 then .fail
    else .go ⟨s.stack, .inString (.byte c :: pieces)⟩
  | .inStringEsc pieces =>
    if c = 117 then .go ⟨s.stack, .inStringEscU pieces 4 0⟩
    else
      match ESCAPES.lookup c with
      | some x => .go ⟨s.stack, .inString (.code x :: pieces)⟩
      | none => .fail
  | .inStringEscU pieces digits code =>
    match hexDigit c, digits with
    | some d, 1 => .go ⟨s.stack, .inString (.code (16 * code + d) :: pieces)⟩
    | some d, left + 1 => .go ⟨s.stack, .inStringEscU pieces left (16 * code + d)⟩
    | _, _ => .fail
  | .number part n => stepNumber s.stack part n c
  | .literal left v =>
    match left with
    | x :: left =>
      if c = x then .go ⟨s.stack, if left = [] then .endValue v else .literal left v⟩ else .fail
    | [] => .fail

/-- What comes of some bytes. -/
inductive Outcome where
  /-- A value, and the bytes that are left. -/
  | done (v : Value) (rest : List UInt8)
  | bad
  /-- No value yet. -/
  | more (s : State)

def run : State → List UInt8 → Outcome
  | s, [] => .more s
  | s, c :: bytes =>
    match step s c with
    | .go s => run s bytes
    | .stop v true => .done v bytes
    | .stop v false => .done v (c :: bytes)
    | .fail => .bad

def start : State := ⟨[], .beginValue⟩

/-- What comes of the state at the end of the stream: a number, a text or a word is complete there.
-/
def atEnd (s : State) : Option Value :=
  match step s 32 with
  | .stop v _ => some v
  | _ => none

/-- The first value of some bytes, and what is behind it. -/
def readValue (bytes : List UInt8) : Option (Value × List UInt8) :=
  match run start bytes with
  | .done v rest => some (v, rest)
  | .bad => none
  | .more s => (atEnd s).map fun v => (v, [])

/-- The value that all the bytes are a text of. -/
def wholeValue (bytes : List UInt8) : Option Value :=
  match readValue bytes with
  | some (v, rest) => if rest.all isSpace then some v else none
  | none => none

theorem wholeValue_eq_some_iff {bytes : List UInt8} {v : Value} :
    wholeValue bytes = some v ↔
      ∃ rest, readValue bytes = some (v, rest) ∧ rest.all isSpace = true := by
  rw [wholeValue]
  cases readValue bytes with
  | none => simp
  | some p =>
    obtain ⟨v', rest⟩ := p
    by_cases hrest : rest.all isSpace = true
    · simp only [hrest, if_true, Option.some_inj, Prod.mk.injEq]
      constructor
      · rintro rfl
        exact ⟨rest, ⟨rfl, rfl⟩, hrest⟩
      · rintro ⟨_, ⟨rfl, rfl⟩, -⟩
        rfl
    · simp only [hrest, if_false, reduceCtorEq, Option.some_inj, Prod.mk.injEq, false_iff,
        Bool.false_eq_true]
      rintro ⟨_, ⟨rfl, rfl⟩, hblank⟩
      exact hrest hblank

/-! ## Streams -/

/-- The first value of a stream from a state on, with the pieces that have not been asked for. -/
def decodeStream : State → List (List UInt8) → Option Value × List (List UInt8)
  | s, [] => (atEnd s, [])
  | s, chunk :: chunks =>
    match run s chunk with
    | .done v _ => (some v, chunks)
    | .bad => (none, chunks)
    | .more s => decodeStream s chunks

/-- A run over more bytes. -/
theorem run_append (s : State) (a b : List UInt8) : run s (a ++ b) =
    match run s a with
    | .done v rest => .done v (rest ++ b)
    | .bad => .bad
    | .more s' => run s' b := by
  induction a generalizing s with
  | nil => rfl
  | cons c a ih =>
    rw [List.cons_append, run, run]
    cases hstep : step s c with
    | go s' => exact ih s'
    | stop v took => cases took <;> rfl
    | fail => rfl

/-- The value that a stream gives is the one of all its bytes. -/
theorem decodeStream_fst (s : State) (chunks : List (List UInt8)) : (decodeStream s chunks).1 =
    match run s chunks.flatten with
    | .done v _ => some v
    | .bad => none
    | .more s' => atEnd s' := by
  induction chunks generalizing s with
  | nil => rfl
  | cons chunk chunks ih =>
    rw [decodeStream, List.flatten_cons, run_append]
    cases hrun : run s chunk with
    | done v rest => rfl
    | bad => rfl
    | more s' => exact ih s'

theorem decodeStream_start (chunks : List (List UInt8)) :
    (decodeStream start chunks).1 = (readValue chunks.flatten).map Prod.fst := by
  rw [decodeStream_fst, readValue]
  cases run start chunks.flatten with
  | done v rest => rfl
  | bad => rfl
  | more s => cases hend : atEnd s <;> simp [hend]

/-- The first piece of a stream is always asked for. -/
theorem decodeStream_snd_suffix (s : State) (chunk : List UInt8) (chunks : List (List UInt8)) :
    (decodeStream s (chunk :: chunks)).2 <:+ chunks := by
  induction chunks generalizing s chunk with
  | nil =>
    rw [decodeStream]
    cases run s chunk <;> exact List.suffix_rfl
  | cons next chunks ih =>
    rw [decodeStream]
    cases run s chunk with
    | done v rest => exact List.suffix_rfl
    | bad => exact List.suffix_rfl
    | more s' => exact (ih s' next).trans (List.suffix_cons next chunks)

/-- What has not been asked for is behind the value. -/
theorem unread_suffix_of_run {s : State} {chunks : List (List UInt8)} {v : Value}
    {rest : List UInt8} (h : run s chunks.flatten = .done v rest) :
    (decodeStream s chunks).2.flatten <:+ rest := by
  induction chunks generalizing s with
  | nil => exact absurd h (by simp [run])
  | cons chunk chunks ih =>
    rw [List.flatten_cons, run_append] at h
    rw [decodeStream]
    cases hrun : run s chunk with
    | done v' rest' =>
      rw [hrun] at h
      obtain ⟨-, rfl⟩ := Outcome.done.inj h
      exact List.suffix_append rest' chunks.flatten
    | bad => exact absurd (hrun ▸ h) (by simp)
    | more s' =>
      rw [hrun] at h
      exact ih h

theorem unread_eq_nil_of_run {s s' : State} {chunks : List (List UInt8)}
    (h : run s chunks.flatten = .more s') : (decodeStream s chunks).2 = [] := by
  induction chunks generalizing s with
  | nil => rfl
  | cons chunk chunks ih =>
    rw [List.flatten_cons, run_append] at h
    rw [decodeStream]
    cases hrun : run s chunk with
    | done v' rest' => exact absurd (hrun ▸ h) (by simp)
    | bad => exact absurd (hrun ▸ h) (by simp)
    | more s'' =>
      rw [hrun] at h
      exact ih h

theorem unread_suffix {chunks : List (List UInt8)} {v : Value} {rest : List UInt8}
    (h : readValue chunks.flatten = some (v, rest)) :
    (decodeStream start chunks).2.flatten <:+ rest := by
  rw [readValue] at h
  cases hrun : run start chunks.flatten with
  | done v' rest' =>
    rw [hrun] at h
    obtain ⟨-, rfl⟩ := Prod.mk.inj (Option.some.inj h)
    exact unread_suffix_of_run hrun
  | bad => exact absurd (hrun ▸ h) (by simp)
  | more s =>
    rw [unread_eq_nil_of_run hrun]
    exact List.nil_suffix

/-- White space is no text of a value. -/
theorem wholeValue_of_blank {bytes : List UInt8} (h : bytes.all isSpace = true) :
    wholeValue bytes = none := by
  have hrun : run start bytes = .more start := by
    induction bytes with
    | nil => rfl
    | cons c bytes ih =>
      rw [List.all_cons, Bool.and_eq_true] at h
      have hstep : step start c = .go start := by
        show stepBegin [] c = _
        rw [stepBegin, if_pos h.1]
        rfl
      rw [run, hstep]
      exact ih h.2
  rw [wholeValue, readValue, hrun]
  rfl

end ControlPlane.JsonScan
