import Mathlib.Data.List.DropRight
import Mathlib.Data.List.Infix
import Mathlib.Data.List.TakeWhile
import Mathlib.Data.Rat.Floor
import Mathlib.Tactic.Common

/-!
# Text as Python sees it

A Python `str` is a sequence of code points, so every operation here goes through `String.toList`.
`split` and `strip` are the methods of that name, for a separator of one character and for the
default white space. What depends on the Unicode tables of the interpreter, on the hash order of a
set, or on the text of a float is a field of `PyText`: results hold for every value of it, and a
concrete run picks one that agrees with the interpreter on the characters in hand.
-/

namespace ControlPlane.Text

/-- `c in s`, for a single character `c`. -/
def contains (c : Char) (s : String) : Bool := decide (c ∈ s.toList)

/-- `p in s`, for a text `p`. -/
def containsText (p s : String) : Bool := decide (p.toList <:+: s.toList)

/-- `s.split(sep)`, for a separator of one character. -/
def split (sep : Char) (s : String) : List String := (s.toList.splitOn sep).map String.ofList

/-- `s.split(sep)[0]`, the text before the first separator. -/
def firstPart (sep : Char) (s : String) : String := (split sep s).headD ""

/-- The code points that `str.isspace` accepts, and that `str.strip` removes. -/
def isSpace (c : Char) : Bool :=
  let n := c.toNat
  (9 ≤ n && n ≤ 13) || (28 ≤ n && n ≤ 32) || n == 0x85 || n == 0xa0 || n == 0x1680 ||
    (0x2000 ≤ n && n ≤ 0x200a) || n == 0x2028 || n == 0x2029 || n == 0x202f || n == 0x205f ||
    n == 0x3000

/-- `s.strip()`. -/
def strip (s : String) : String :=
  String.ofList ((s.toList.dropWhile isSpace).rdropWhile isSpace)

/-- The position in a text of the given length that a slice bound stands for. A negative one counts
from the end, and one outside the text is moved to its nearer end. -/
def bound (length : ℕ) (i : ℤ) : ℕ := if i < 0 then (i + length).toNat else min i.toNat length

/-- `s[i:j]`. -/
def slice (s : List Char) (i j : ℤ) : List Char :=
  (s.take (bound s.length j)).drop (bound s.length i)

/-- `s[i]`, with `none` for an `IndexError`. -/
def getAt (s : List Char) (i : ℤ) : Option Char :=
  if 0 ≤ i then s[i.toNat]? else if 0 ≤ i + s.length then s[(i + s.length).toNat]? else none

/-- `s.find(c, start)`, with `none` for `-1`. -/
def find (c : Char) (s : List Char) (start : ℤ) : Option ℕ :=
  ((s.drop (bound s.length start)).idxOf? c).map (· + bound s.length start)

/-- The test `c.isascii() and c.isdigit()`. -/
def isDigit (c : Char) : Bool := 48 ≤ c.toNat && c.toNat ≤ 57

/-- `int(s)` on a text of ASCII digits. -/
def decimal (s : String) : ℕ := s.toList.foldl (fun n c => 10 * n + (c.toNat - 48)) 0

/-- The value of a Python float. Every finite double is rational. -/
inductive FloatVal where
  | nan
  | inf (negative : Bool)
  | fin (q : ℚ)
  deriving DecidableEq

/-- A Python float: its exact value, and the text that `repr` gives it. -/
structure PyFloat where
  /-- The value. -/
  val : FloatVal
  /-- `repr(x)`. -/
  repr : String
  deriving DecidableEq

/-- `x >= y`, which is false when one of the two is not a number. -/
def PyFloat.ge (x y : PyFloat) : Bool :=
  match x.val, y.val with
  | .fin p, .fin q => decide (q ≤ p)
  | .inf false, .inf _ | .inf false, .fin _ => true
  | .inf true, .inf true | .fin _, .inf true => true
  | _, _ => false

/-- `x < y`, which is false when one of the two is not a number. -/
def PyFloat.lt (x y : PyFloat) : Bool :=
  match x.val, y.val with
  | .fin p, .fin q => decide (p < q)
  | .inf true, .inf false | .inf true, .fin _ | .fin _, .inf false => true
  | _, _ => false

/-- The integer nearest to a rational, an even one in a tie. -/
def roundHalfEven (q : ℚ) : ℤ :=
  let r := q - q.floor
  if r < 1 / 2 ∨ (r = 1 / 2 ∧ q.floor % 2 = 0) then q.floor else q.floor + 1

/-- `f"{x:.2f}"`. -/
def PyFloat.fixed2 (x : PyFloat) : String :=
  match x.val with
  | .nan => "nan"
  | .inf negative => if negative then "-inf" else "inf"
  | .fin q =>
    let n := (roundHalfEven (100 * |q|)).toNat
    let sign := if x.repr.toList.head? = some '-' then "-" else ""
    let cents := if n % 100 < 10 then "0" ++ toString (n % 100) else toString (n % 100)
    sign ++ toString (n / 100) ++ "." ++ cents

/-- The text functions whose result rests on the interpreter's Unicode tables, on its hash order,
or on its float parser. -/
structure PyText where
  /-- `s.upper()`. -/
  upper : String → String
  /-- `s.lower()`. -/
  lower : String → String
  /-- `s.isdigit()`. -/
  isdigit : String → Bool
  /-- `int(s)`, with `none` for a `ValueError`. -/
  int : String → Option ℤ
  /-- `float(s)`, with `none` for a `ValueError`. -/
  float : String → Option PyFloat
  /-- `float(n)`, with `none` for an `OverflowError`. -/
  floatOfInt : ℤ → Option PyFloat
  /-- `repr(s)`. -/
  repr : String → String
  /-- `str` of a set of texts, whose order is the interpreter's. -/
  set : List String → String

/-! ## Numbers in decimal -/

/-- The digits of a number, as a text. -/
theorem toList_toString (n : ℕ) : (toString n).toList = Nat.toDigits 10 n := by
  rw [Nat.toString_eq_repr, Nat.toList_repr]

/-- A number is written with digits. -/
theorem isDigit_of_mem_toDigits {n : ℕ} {c : Char} (h : c ∈ Nat.toDigits 10 n) :
    isDigit c = true := by
  have hd := Nat.isDigit_of_mem_toDigits (by decide) (by decide) h
  simp only [Char.isDigit, Bool.and_eq_true, decide_eq_true_eq, UInt32.le_iff_toNat_le] at hd
  simp only [isDigit, Bool.and_eq_true, decide_eq_true_eq]
  exact hd

/-- A number is read back from its digits. -/
theorem decimal_toString (n : ℕ) : decimal (toString n) = n := by
  unfold decimal
  rw [toList_toString]
  exact Nat.ofDigitChars_ten_toDigits

/-! ## Splitting -/

/-- A text without the separator is its own first part. -/
theorem split_of_not_mem {sep : Char} {s : String} (h : sep ∉ s.toList) : split sep s = [s] := by
  simp [split, List.splitOn_eq_singleton h]

/-- A text is split at its first separator. -/
theorem split_append_cons {sep : Char} {p : List Char} (h : sep ∉ p) (m : List Char) :
    split sep (String.ofList (p ++ sep :: m)) = String.ofList p :: split sep (String.ofList m) := by
  simp [split, List.splitOn_append_cons_self_of_not_mem h]

/-- A text that starts with a part and the separator has that part first. -/
theorem firstPart_of_toList {sep : Char} {s : String} {p m : List Char} (hp : sep ∉ p)
    (h : s.toList = p ++ sep :: m) : firstPart sep s = String.ofList p := by
  have hs : s = String.ofList (p ++ sep :: m) := by rw [← h, String.ofList_toList]
  rw [firstPart, hs, split_append_cons hp]
  rfl

/-- The first part of a text, and what follows it: nothing, or a separator and the rest. -/
theorem exists_firstPart (sep : Char) (s : String) :
    (sep ∉ s.toList ∧ firstPart sep s = s) ∨
      ∃ m, sep ∉ (firstPart sep s).toList ∧ s.toList = (firstPart sep s).toList ++ sep :: m := by
  by_cases h : sep ∈ s.toList
  · right
    obtain ⟨p, m, hs, hp⟩ := List.eq_append_cons_of_mem h
    rw [firstPart_of_toList hp hs, String.toList_ofList]
    exact ⟨m, hp, hs⟩
  · left
    exact ⟨h, by rw [firstPart, split_of_not_mem h]; rfl⟩

/-- Every character of a text is the separator or belongs to one of the parts. -/
theorem mem_or_mem_split (sep : Char) {c : Char} {s : String} (h : c ∈ s.toList) :
    c = sep ∨ ∃ p ∈ split sep s, c ∈ p.toList := by
  have key : ∀ l : List Char, c ∈ l → c = sep ∨ ∃ p ∈ l.splitOn sep, c ∈ p := by
    intro l
    induction l with
    | nil => simp
    | cons x xs ih =>
      intro hc
      rw [List.splitOn_cons_eq_if_modifyHead]
      -- The first part of the tail, which takes `x` at its front when `x` is no separator.
      obtain ⟨q, qs, hq⟩ := List.exists_cons_of_ne_nil (List.splitOn_ne_nil sep xs)
      rcases List.mem_cons.mp hc with rfl | hc
      · by_cases hx : c = sep
        · exact .inl hx
        · right
          simp [hx, hq]
      · rcases ih hc with hsep | ⟨p, hp, hcp⟩
        · exact .inl hsep
        · right
          by_cases hx : (x == sep) = true
          · exact ⟨p, by simp [hx, hp], hcp⟩
          · rw [hq] at hp ⊢
            simp only [hx, List.modifyHead_cons]
            rcases List.mem_cons.mp hp with rfl | hp
            · exact ⟨x :: p, by simp, by simp [hcp]⟩
            · exact ⟨p, by simp [hp], hcp⟩
  rcases key s.toList h with hsep | ⟨p, hp, hcp⟩
  · exact .inl hsep
  · exact .inr ⟨String.ofList p, List.mem_map_of_mem hp, by rw [String.toList_ofList]; exact hcp⟩

/-! ## Stripping -/

/-- A text without white space is its own trimmed form. -/
theorem strip_of_forall {s : String} (h : ∀ c ∈ s.toList, isSpace c = false) : strip s = s := by
  have h1 : s.toList.dropWhile isSpace = s.toList := by
    rw [List.dropWhile_eq_self_iff]
    intro hl
    simp [h _ (List.getElem_mem hl)]
  have h2 : s.toList.rdropWhile isSpace = s.toList := by
    rw [List.rdropWhile_eq_self_iff]
    intro hl
    simp [h _ (List.getLast_mem hl)]
  rw [strip, h1, h2, String.ofList_toList]

/-- Trimming the end of a text keeps every part that ends before a character that is no space. -/
theorem rdropWhile_append_cons {p m : List Char} {c : Char} (hc : isSpace c = false) :
    (p ++ c :: m).rdropWhile isSpace = p ++ c :: m.rdropWhile isSpace := by
  induction m using List.reverseRecOn with
  | nil => simpa using List.rdropWhile_concat_neg isSpace p c (by simp [hc])
  | append_singleton m x ih =>
    have hassoc : p ++ c :: (m ++ [x]) = (p ++ c :: m) ++ [x] := by simp
    rw [hassoc]
    by_cases hx : isSpace x = true
    · rw [List.rdropWhile_concat_pos _ _ _ hx, List.rdropWhile_concat_pos _ _ _ hx, ih]
    · rw [List.rdropWhile_concat_neg _ _ _ hx, List.rdropWhile_concat_neg _ _ _ hx, hassoc]

/-- Trimming leaves the first part alone when that part holds no white space and is not empty. -/
theorem firstPart_strip {sep : Char} {s : String} (hsep : isSpace sep = false)
    (hne : firstPart sep s ≠ "") (h : ∀ c ∈ (firstPart sep s).toList, isSpace c = false) :
    firstPart sep (strip s) = firstPart sep s := by
  rcases exists_firstPart sep s with ⟨-, hs⟩ | ⟨m, hp, hs⟩
  · rw [hs] at h ⊢
    rw [strip_of_forall h, hs]
  · have hfront : s.toList.dropWhile isSpace = s.toList := by
      rw [List.dropWhile_eq_self_iff]
      intro hl
      obtain ⟨x, xs, hx⟩ := List.exists_cons_of_ne_nil
        (fun e => hne (String.toList_inj.mp (by rw [e]; rfl)) : (firstPart sep s).toList ≠ [])
      have hx0 : s.toList[0] = x := by simp [hs, hx]
      rw [hx0]
      simp [h x (by rw [hx]; simp)]
    have hstrip : (strip s).toList = (firstPart sep s).toList ++ sep :: m.rdropWhile isSpace := by
      rw [strip, String.toList_ofList, hfront, hs, rdropWhile_append_cons hsep]
    rw [firstPart_of_toList hp hstrip, String.ofList_toList]

/-- Trimming keeps every character that is no space. -/
theorem mem_strip {c : Char} {s : String} (hc : isSpace c = false) :
    c ∈ (strip s).toList ↔ c ∈ s.toList := by
  rw [strip, String.toList_ofList]
  constructor
  · intro h
    exact (List.dropWhile_sublist _).mem ((List.rdropWhile_prefix _ _).mem h)
  · intro h
    have hd : c ∈ s.toList.dropWhile isSpace := by
      have hsplit := List.takeWhile_append_dropWhile (p := isSpace) (l := s.toList)
      rw [← hsplit, List.mem_append] at h
      rcases h with h | h
      · have := List.mem_takeWhile_imp h
        simp [hc] at this
      · exact h
    obtain ⟨p, m, hpm⟩ := List.append_of_mem hd
    rw [hpm, rdropWhile_append_cons hc]
    simp

/-- Trimming keeps every occurrence of a character that is no space. -/
theorem count_strip {c : Char} (hc : isSpace c = false) (s : String) :
    (strip s).toList.count c = s.toList.count c := by
  have hzero {l : List Char} (hl : ∀ x ∈ l, isSpace x = true) : l.count c = 0 := by
    rw [List.count_eq_zero]
    intro hmem
    simp [hl c hmem] at hc
  have hfront := List.takeWhile_append_dropWhile (p := isSpace) (l := s.toList)
  have hback := List.rdropWhile_append_rtakeWhile (p := isSpace)
    (l := s.toList.dropWhile isSpace)
  have h1 := hzero (l := s.toList.takeWhile isSpace) fun x hx => List.mem_takeWhile_imp hx
  have h2 := hzero (l := (s.toList.dropWhile isSpace).rtakeWhile isSpace)
    fun x hx => List.mem_rtakeWhile_imp hx
  rw [strip, String.toList_ofList]
  conv_rhs => rw [← hfront, ← hback, List.count_append, List.count_append, h1, h2]
  simp

/-! ## Indexing -/

/-- A position inside a text stands for itself. -/
theorem bound_natCast {n k : ℕ} (h : k ≤ n) : bound n k = k := by
  simp [bound, h]

/-- A slice that starts after a part of the text is a start of what follows that part. -/
theorem slice_append (p s : List Char) (n : ℕ) :
    slice (p ++ s) p.length ((p.length + n : ℕ) : ℤ) = s.take n := by
  have hi : bound (p ++ s).length p.length = p.length := bound_natCast (by simp)
  have hj : bound (p ++ s).length ((p.length + n : ℕ) : ℤ) =
      min (p.length + n) (p.length + s.length) := by
    simp only [bound, List.length_append, Int.toNat_natCast]
    rw [if_neg (by omega)]
  have hn : min (p.length + n) (p.length + s.length) - p.length = min n s.length := by omega
  rw [slice, hi, hj, List.drop_take, List.drop_left, hn, List.take_eq_take_iff]
  omega

/-- The character after a part of the text. -/
theorem getAt_append (p s : List Char) : getAt (p ++ s) p.length = s.head? := by
  rw [getAt, if_pos (Int.natCast_nonneg _), Int.toNat_natCast, List.head?_eq_getElem?,
    List.getElem?_append_right le_rfl, Nat.sub_self]

/-- A character is found where it first occurs after a part of the text. -/
theorem find_append {c : Char} {q : List Char} (hq : c ∉ q) (p s : List Char) :
    find c (p ++ (q ++ c :: s)) p.length = some (p.length + q.length) := by
  have hb : bound (p ++ (q ++ c :: s)).length p.length = p.length := bound_natCast (by simp)
  have hidx : (q ++ c :: s).idxOf? c = some q.length := by
    rw [List.idxOf?_eq_some_iff]
    refine ⟨by simp, by simp, fun j hj he => hq ?_⟩
    rw [List.getElem_append_left hj] at he
    exact he ▸ List.getElem_mem hj
  rw [find, hb, List.drop_left, hidx, Option.map_some, Nat.add_comm]

/-- A character that does not occur after a part of the text is not found from there on. -/
theorem find_append_of_not_mem {c : Char} {s : List Char} (hs : c ∉ s) (p : List Char) :
    find c (p ++ s) p.length = none := by
  have hb : bound (p ++ s).length p.length = p.length := bound_natCast (by simp)
  rw [find, hb, List.drop_left, List.idxOf?_eq_none_iff.mpr hs, Option.map_none]

end ControlPlane.Text
