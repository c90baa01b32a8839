import ControlPlane.Lib.Traverse
import ControlPlane.Lib.Utf8
import Mathlib.Data.List.Infix

/-!
# Percent-encoding

A byte is escaped as a percent sign and its two hexadecimal digits. `unescape` reads a text back and
fails at a percent sign that no digits follow, and `decode` leaves such a sign as it is. Both make a
text shorter wherever they read an escape, so that a text of which they keep the length has none.
-/

namespace ControlPlane.Percent

/-- The percent sign. -/
def sign : UInt8 := 37

/-- A hexadecimal digit, in upper case. -/
def hexDigit (n : ℕ) : UInt8 := .ofNat (if n < 10 then 48 + n else 55 + n)

/-- The value of a hexadecimal digit. -/
def hexValue (c : UInt8) : Option ℕ :=
  if 48 ≤ c ∧ c ≤ 57 then some (c.toNat - 48)
  else if 65 ≤ c ∧ c ≤ 70 then some (c.toNat - 55)
  else if 97 ≤ c ∧ c ≤ 102 then some (c.toNat - 87)
  else none

/-- The byte of two hexadecimal digits. -/
def byteOf (a b : UInt8) : Option UInt8 := do
  let high ← hexValue a
  let low ← hexValue b
  return .ofNat (16 * high + low)

/-- The escape of a byte. -/
def escapeByte (c : UInt8) : List UInt8 := [sign, hexDigit (c.toNat / 16), hexDigit (c.toNat % 16)]

/-- A text with the bytes escaped that are not kept. -/
def escape (keep : UInt8 → Bool) (s : List UInt8) : List UInt8 :=
  s.flatMap fun c => if keep c then [c] else escapeByte c

/-- A text with its escapes read, when every percent sign is one. -/
def unescape : List UInt8 → Option (List UInt8)
  | c :: a :: b :: rest =>
    if c = sign then (byteOf a b).bind fun x => (unescape rest).map (x :: ·)
    else (unescape (a :: b :: rest)).map (c :: ·)
  | short => if sign ∈ short then none else some short

/-- A text with its escapes read, and the other percent signs left. -/
def decode : List UInt8 → List UInt8
  | c :: a :: b :: rest =>
    match if c = sign then byteOf a b else none with
    | some x => x :: decode rest
    | none => c :: decode (a :: b :: rest)
  | short => short

/-! ## One byte -/

section Bytes

set_option maxRecDepth 4096

theorem byteOf_hexDigit : ∀ c : UInt8,
    byteOf (hexDigit (c.toNat / 16)) (hexDigit (c.toNat % 16)) = some c :=
  Utf8.forall_byte (by decide)

theorem hexValue_hexDigit : ∀ c : UInt8, (hexValue (hexDigit (c.toNat / 16))).isSome = true ∧
    (hexValue (hexDigit (c.toNat % 16))).isSome = true :=
  Utf8.forall_byte (by decide)

end Bytes

/-- What is no digit ends an escape too early. -/
theorem byteOf_eq_none_left {a : UInt8} (h : hexValue a = none) (b : UInt8) : byteOf a b = none := by
  unfold byteOf
  rw [h]
  rfl

theorem byteOf_eq_none_right {b : UInt8} (h : hexValue b = none) (a : UInt8) :
    byteOf a b = none := by
  unfold byteOf
  rw [h]
  cases hexValue a <;> rfl

/-! ## Reading a text -/

@[simp]
theorem unescape_nil : unescape [] = some [] := rfl

theorem unescape_cons_of_ne {c : UInt8} (h : c ≠ sign) (s : List UInt8) :
    unescape (c :: s) = (unescape s).map (c :: ·) := by
  match s with
  | [] =>
    unfold unescape
    simp [h.symm]
  | [a] =>
    unfold unescape
    by_cases ha : sign = a
    · simp [ha]
    · simp [h.symm, ha]
  | a :: b :: rest =>
    conv_lhs => unfold unescape
    rw [if_neg h]

theorem unescape_sign_cons (a b : UInt8) (s : List UInt8) :
    unescape (sign :: a :: b :: s) = (byteOf a b).bind fun x => (unescape s).map (x :: ·) := by
  conv_lhs => unfold unescape
  rw [if_pos rfl]

/-- An escape is read back. -/
theorem unescape_escapeByte_append (c : UInt8) (s : List UInt8) :
    unescape (escapeByte c ++ s) = (unescape s).map (c :: ·) := by
  show unescape (sign :: _ :: _ :: s) = _
  rw [unescape_sign_cons, byteOf_hexDigit]
  rfl

/-- A text is read back from its escapes. -/
theorem unescape_escape {keep : UInt8 → Bool} (hkeep : keep sign = false) (s : List UInt8) :
    unescape (escape keep s) = some s := by
  induction s with
  | nil => rfl
  | cons c s ih =>
    unfold escape at ih ⊢
    rw [List.flatMap_cons]
    by_cases hc : keep c = true
    · have hne : c ≠ sign := by
        rintro rfl
        rw [hkeep] at hc
        cases hc
      rw [if_pos hc, List.singleton_append, unescape_cons_of_ne hne, ih]
      rfl
    · rw [if_neg hc, unescape_escapeByte_append, ih]
      rfl

/-- A text without a percent sign reads as itself. -/
theorem unescape_of_not_mem {s : List UInt8} (h : sign ∉ s) : unescape s = some s := by
  induction s with
  | nil => rfl
  | cons c s ih =>
    rw [List.mem_cons, not_or] at h
    rw [unescape_cons_of_ne (Ne.symm h.1), ih h.2]
    rfl

/-- A text is empty, or begins with another byte, or with a percent sign that two bytes follow or that
they do not. -/
@[elab_as_elim]
theorem induct {P : List UInt8 → Prop} (nil : P [])
    (cons : ∀ c s, c ≠ sign → P s → P (c :: s)) (short : ∀ s, s.length < 2 → P (sign :: s))
    (escaped : ∀ a b s, P s → P (a :: b :: s) → P (sign :: a :: b :: s)) (s : List UInt8) : P s := by
  induction hn : s.length using Nat.strong_induction_on generalizing s with
  | _ n ih =>
    subst hn
    cases s with
    | nil => exact nil
    | cons c s =>
      by_cases hc : c = sign
      · subst hc
        match s with
        | [] => exact short [] (by simp)
        | [a] => exact short [a] (by simp)
        | a :: b :: s =>
          refine escaped a b s (ih s.length ?_ s rfl) (ih (a :: b :: s).length ?_ _ rfl)
          · simp only [List.length_cons]
            omega
          · simp only [List.length_cons]
            omega
      · exact cons c s hc (ih s.length (by simp) s rfl)

/-- A percent sign at the end of a text is not an escape. -/
theorem unescape_sign_short {s : List UInt8} (h : s.length < 2) : unescape (sign :: s) = none := by
  match s with
  | [] => rfl
  | [a] => simp [unescape]
  | a :: b :: s =>
    simp only [List.length_cons] at h
    omega

theorem decode_cons_of_ne {c : UInt8} (h : c ≠ sign) (s : List UInt8) :
    decode (c :: s) = c :: decode s := by
  match s with
  | [] => rfl
  | [a] => rfl
  | a :: b :: s =>
    conv_lhs => unfold decode
    rw [if_neg h]

/-- A text reads as it does without what comes before it, if that has no percent sign. -/
theorem decode_append_of_not_mem {p : List UInt8} (h : sign ∉ p) (s : List UInt8) :
    decode (p ++ s) = p ++ decode s := by
  induction p with
  | nil => rfl
  | cons c p ih =>
    rw [List.mem_cons, not_or] at h
    rw [List.cons_append, decode_cons_of_ne (Ne.symm h.1), ih h.2, List.cons_append]

theorem unescape_append_of_not_mem {p : List UInt8} (h : sign ∉ p) (s : List UInt8) :
    unescape (p ++ s) = (unescape s).map (p ++ ·) := by
  induction p with
  | nil =>
    rw [List.nil_append]
    cases unescape s <;> rfl
  | cons c p ih =>
    rw [List.mem_cons, not_or] at h
    rw [List.cons_append, unescape_cons_of_ne (Ne.symm h.1), ih h.2]
    cases unescape s <;> rfl

/-- Where every percent sign is an escape, the two readings agree. -/
theorem decode_of_unescape {s t : List UInt8} (h : unescape s = some t) : decode s = t := by
  induction s using induct generalizing t with
  | nil => exact Option.some_inj.mp h
  | cons c s hc ih =>
    rw [unescape_cons_of_ne hc] at h
    obtain ⟨t', ht, rfl⟩ := Option.map_eq_some_iff.mp h
    rw [decode_cons_of_ne hc, ih ht]
  | short s hs =>
    rw [unescape_sign_short hs] at h
    cases h
  | escaped a b s ih _ =>
    rw [unescape_sign_cons] at h
    obtain ⟨x, hx, h⟩ := Option.bind_eq_some_iff.mp h
    obtain ⟨t', ht, rfl⟩ := Option.map_eq_some_iff.mp h
    unfold decode
    rw [if_pos rfl, hx]
    exact congrArg (x :: ·) (ih ht)

/-- Reading a text does not make it longer, and keeps its length only if there is no escape. -/
theorem length_unescape {s t : List UInt8} (h : unescape s = some t) :
    t.length ≤ s.length ∧ (t.length = s.length → sign ∉ s) := by
  induction s using induct generalizing t with
  | nil =>
    obtain rfl := Option.some_inj.mp h
    exact ⟨le_rfl, fun _ => List.not_mem_nil⟩
  | cons c s hc ih =>
    rw [unescape_cons_of_ne hc] at h
    obtain ⟨t', ht, rfl⟩ := Option.map_eq_some_iff.mp h
    obtain ⟨hle, heq⟩ := ih ht
    simp only [List.length_cons, List.mem_cons, not_or]
    exact ⟨by omega, fun hlen => ⟨Ne.symm hc, heq (by omega)⟩⟩
  | short s hs =>
    rw [unescape_sign_short hs] at h
    cases h
  | escaped a b s ih _ =>
    rw [unescape_sign_cons] at h
    obtain ⟨x, hx, h⟩ := Option.bind_eq_some_iff.mp h
    obtain ⟨t', ht, rfl⟩ := Option.map_eq_some_iff.mp h
    have hle := (ih ht).1
    simp only [List.length_cons]
    exact ⟨by omega, fun hlen => by omega⟩

/-- Only the empty text reads as it. -/
theorem eq_nil_of_unescape {s : List UInt8} (h : unescape s = some []) : s = [] := by
  induction s using induct with
  | nil => rfl
  | cons c s hc _ =>
    rw [unescape_cons_of_ne hc] at h
    obtain ⟨t, -, ht⟩ := Option.map_eq_some_iff.mp h
    cases ht
  | short s hs =>
    rw [unescape_sign_short hs] at h
    cases h
  | escaped a b s _ _ =>
    rw [unescape_sign_cons] at h
    obtain ⟨x, -, h⟩ := Option.bind_eq_some_iff.mp h
    obtain ⟨t, -, ht⟩ := Option.map_eq_some_iff.mp h
    cases ht

/-- A byte that is no part of an escape separates what is read. -/
theorem unescape_append_cons {c : UInt8} (hc : c ≠ sign) (hdigit : hexValue c = none)
    (s t : List UInt8) : unescape (s ++ c :: t) =
      (unescape s).bind fun s' => (unescape t).map fun t' => s' ++ c :: t' := by
  induction s using induct with
  | nil =>
    rw [List.nil_append, unescape_cons_of_ne hc]
    rfl
  | cons a s ha ih =>
    rw [List.cons_append, unescape_cons_of_ne ha, unescape_cons_of_ne ha, ih]
    cases unescape s <;> cases unescape t <;> rfl
  | short s hs =>
    rw [unescape_sign_short hs]
    match s with
    | [] =>
      match t with
      | [] => exact unescape_sign_short (by simp)
      | b :: t =>
        show unescape (sign :: c :: b :: t) = none
        rw [unescape_sign_cons, byteOf_eq_none_left hdigit]
        rfl
    | [a] =>
      show unescape (sign :: a :: c :: t) = none
      rw [unescape_sign_cons, byteOf_eq_none_right hdigit]
      rfl
    | a :: b :: s =>
      simp only [List.length_cons] at hs
      omega
  | escaped a b s ih _ =>
    show unescape (sign :: a :: b :: (s ++ c :: t)) = _
    rw [unescape_sign_cons, unescape_sign_cons, ih]
    cases byteOf a b <;> cases unescape s <;> cases unescape t <;> rfl

/-- The parts between such bytes are read one by one. -/
theorem unescape_intercalate {c : UInt8} (hc : c ≠ sign) (hdigit : hexValue c = none)
    {parts : List (List UInt8)} (hne : parts ≠ []) :
    unescape ([c].intercalate parts) = (parts.mapM unescape).map fun read => [c].intercalate read := by
  induction parts with
  | nil => exact absurd rfl hne
  | cons part rest ih =>
    cases rest with
    | nil =>
      rw [List.mapM_cons]
      cases hpart : unescape part <;> simp [List.intercalate, hpart]
    | cons next rest =>
      have hjoin (x : List UInt8) (y : List UInt8) (ys : List (List UInt8)) :
          [c].intercalate (x :: y :: ys) = x ++ c :: [c].intercalate (y :: ys) := by
        simp [List.intercalate]
      rw [hjoin, unescape_append_cons hc hdigit, ih (by simp)]
      conv_rhs => rw [List.mapM_cons]
      cases unescape part with
      | none => rfl
      | some read =>
        cases hrest : (next :: rest).mapM unescape with
        | none => rfl
        | some more =>
          cases forall₂_of_mapM hrest with
          | cons _ _ => exact congrArg some (hjoin _ _ _).symm

/-- What an escaped text is made of. -/
theorem of_mem_escape {keep : UInt8 → Bool} {s : List UInt8} {c : UInt8} (h : c ∈ escape keep s) :
    (keep c = true ∧ c ∈ s) ∨ c = sign ∨ (hexValue c).isSome = true := by
  obtain ⟨x, hx, hc⟩ := List.mem_flatMap.mp h
  by_cases hkeep : keep x = true
  · rw [if_pos hkeep, List.mem_singleton] at hc
    subst hc
    exact .inl ⟨hkeep, hx⟩
  · rw [if_neg hkeep] at hc
    have hdigits := hexValue_hexDigit x
    simp only [escapeByte, List.mem_cons, List.not_mem_nil, or_false] at hc
    rcases hc with rfl | rfl | rfl
    · exact .inr (.inl rfl)
    · exact .inr (.inr hdigits.1)
    · exact .inr (.inr hdigits.2)

end ControlPlane.Percent
