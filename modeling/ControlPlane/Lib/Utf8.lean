import Mathlib.Tactic.Common

/-!
# UTF-8, with the errors ignored

`encode` is `s.encode('utf-8')`, and `decodeIgnore` is `data.decode('utf-8', errors='ignore')`. The
second reads a character wherever the bytes in front of it are the encoding of one, and otherwise
drops a byte. An encoding is read back whatever follows it, and a byte below 128 is a character by
itself wherever it stands in an encoding, so that an encoding can be cut there.
-/

namespace ControlPlane.Utf8

/-- `s.encode('utf-8')`. -/
def encode (s : List Char) : List UInt8 := s.flatMap String.utf8EncodeChar

/-- `decodeIgnore` with the next bytes to be passed over, which belong to the last character. -/
def decodeFrom : ℕ → List UInt8 → List Char
  | _, [] => []
  | skip + 1, _ :: bytes => decodeFrom skip bytes
  | 0, b :: bytes =>
    match (b :: bytes).toByteArray.utf8DecodeChar? 0 with
    | some c => c :: decodeFrom (c.utf8Size - 1) bytes
    | none => decodeFrom 0 bytes

/-- `data.decode('utf-8', errors='ignore')`. -/
def decodeIgnore (data : List UInt8) : List Char := decodeFrom 0 data

@[simp]
theorem encode_nil : encode [] = [] := rfl

@[simp]
theorem encode_cons (c : Char) (s : List Char) :
    encode (c :: s) = String.utf8EncodeChar c ++ encode s := List.flatMap_cons

@[simp]
theorem encode_append (s t : List Char) : encode (s ++ t) = encode s ++ encode t :=
  List.flatMap_append

@[simp]
theorem decodeIgnore_nil : decodeIgnore [] = [] := rfl

/-! ## Reading an encoding back -/

/-- The bytes that are passed over leave the rest to be decoded. -/
theorem decodeFrom_append (skipped bytes : List UInt8) :
    decodeFrom skipped.length (skipped ++ bytes) = decodeIgnore bytes := by
  induction skipped with
  | nil => rfl
  | cons b skipped ih => exact ih

/-- The encoding of a character is read back, whatever follows it. -/
theorem decodeIgnore_utf8EncodeChar_append (c : Char) (bytes : List UInt8) :
    decodeIgnore (String.utf8EncodeChar c ++ bytes) = c :: decodeIgnore bytes := by
  have hlen : (String.utf8EncodeChar c).length = c.utf8Size := String.length_utf8EncodeChar c
  have hdec : (String.utf8EncodeChar c ++ bytes).toByteArray.utf8DecodeChar? 0 = some c := by
    rw [List.toByteArray_append, ByteArray.utf8DecodeChar?_utf8EncodeChar_append]
  cases h : String.utf8EncodeChar c with
  | nil =>
    -- No character is encoded as nothing.
    rw [h] at hlen
    exact absurd hlen.symm (Nat.ne_of_gt c.utf8Size_pos)
  | cons b more =>
    -- The character is read off its first byte, and its other bytes are passed over.
    rw [h, List.length_cons] at hlen
    rw [h] at hdec
    have hskip : c.utf8Size - 1 = more.length := by omega
    rw [List.cons_append] at hdec ⊢
    simp only [decodeIgnore, decodeFrom, hdec, hskip, decodeFrom_append]

/-- An encoding is read back, whatever follows it. -/
theorem decodeIgnore_encode_append (s : List Char) (bytes : List UInt8) :
    decodeIgnore (encode s ++ bytes) = s ++ decodeIgnore bytes := by
  induction s with
  | nil => rfl
  | cons c s ih =>
    rw [encode_cons, List.append_assoc, decodeIgnore_utf8EncodeChar_append, ih, List.cons_append]

@[simp]
theorem decodeIgnore_encode (s : List Char) : decodeIgnore (encode s) = s := by
  simpa using decodeIgnore_encode_append s []

theorem encode_injective : Function.Injective encode :=
  Function.LeftInverse.injective decodeIgnore_encode

/-! ## ASCII -/

section HighBytes

set_option maxRecDepth 4096

/-- A fact about every byte is one about 256 of them. -/
theorem forall_byte {P : UInt8 → Prop} (h : ∀ i : Fin 256, P (UInt8.ofFin i)) (b : UInt8) : P b :=
  h b.toFin

theorem le_lead2 : ∀ b : UInt8, 128 ≤ b &&& 0x1f ||| 0xc0 := forall_byte (by decide)

theorem le_lead3 : ∀ b : UInt8, 128 ≤ b &&& 0x0f ||| 0xe0 := forall_byte (by decide)

theorem le_lead4 : ∀ b : UInt8, 128 ≤ b &&& 0x07 ||| 0xf0 := forall_byte (by decide)

theorem le_continuation : ∀ b : UInt8, 128 ≤ b &&& 0x3f ||| 0x80 := forall_byte (by decide)

end HighBytes

/-- A character that has a byte below 128 in its encoding is encoded as that byte alone. -/
theorem utf8EncodeChar_of_mem {c : Char} {b : UInt8} (hb : b ∈ String.utf8EncodeChar c)
    (h : b < 128) : String.utf8EncodeChar c = [b] := by
  have hnot {x : UInt8} (hx : 128 ≤ x) (e : b = x) : False := by
    rw [e] at h
    exact absurd hx (UInt8.not_le.mpr h)
  obtain h1 | h2 | h3 | h4 := Char.utf8Size_eq c
  · rw [String.utf8EncodeChar_eq_singleton h1] at hb ⊢
    rw [List.mem_singleton.mp hb]
  -- The bytes of a longer encoding have their high bit set, the first as well as the others.
  · rw [String.utf8EncodeChar_eq_cons_cons h2] at hb
    simp only [List.mem_cons, List.not_mem_nil, or_false] at hb
    rcases hb with e | e
    · exact (hnot (le_lead2 _) e).elim
    · exact (hnot (le_continuation _) e).elim
  · rw [String.utf8EncodeChar_eq_cons_cons_cons h3] at hb
    simp only [List.mem_cons, List.not_mem_nil, or_false] at hb
    rcases hb with e | e | e
    · exact (hnot (le_lead3 _) e).elim
    · exact (hnot (le_continuation _) e).elim
    · exact (hnot (le_continuation _) e).elim
  · rw [String.utf8EncodeChar_eq_cons_cons_cons_cons h4] at hb
    simp only [List.mem_cons, List.not_mem_nil, or_false] at hb
    rcases hb with e | e | e | e
    · exact (hnot (le_lead4 _) e).elim
    · exact (hnot (le_continuation _) e).elim
    · exact (hnot (le_continuation _) e).elim
    · exact (hnot (le_continuation _) e).elim

/-- An encoding can be cut before and after each byte below 128 in it. -/
theorem exists_of_encode_eq_append_cons {s : List Char} {p q : List UInt8} {b : UInt8}
    (h : encode s = p ++ b :: q) (hb : b < 128) :
    ∃ s1 c s2, s = s1 ++ c :: s2 ∧ encode s1 = p ∧ String.utf8EncodeChar c = [b] ∧
      encode s2 = q := by
  induction s generalizing p with
  | nil => simp at h
  | cons c s ih =>
    rw [encode_cons] at h
    -- The byte is in the encoding of the first character, or comes after it.
    rcases List.append_eq_append_iff.mp h with ⟨p', hp, hs⟩ | ⟨more, hc, hq⟩
    · obtain ⟨s1, c', s2, rfl, h1, h2, h3⟩ := ih hs
      exact ⟨c :: s1, c', s2, rfl, by rw [encode_cons, h1, hp], h2, h3⟩
    · cases more with
      | nil =>
        rw [List.append_nil] at hc
        obtain ⟨s1, c', s2, rfl, h1, h2, h3⟩ := ih (p := []) (by simpa using hq.symm)
        refine ⟨c :: s1, c', s2, rfl, ?_, h2, h3⟩
        rw [encode_cons, h1, hc, List.append_nil]
      | cons x more =>
        rw [List.cons_append] at hq
        obtain ⟨rfl, hrest⟩ := List.cons.inj hq
        -- The byte is one of the first character, which is therefore that byte.
        have hone := utf8EncodeChar_of_mem (c := c) (b := b) (by rw [hc]; simp) hb
        rw [hone] at hc
        cases p with
        | nil =>
          obtain ⟨-, hmore⟩ := List.cons.inj hc
          refine ⟨[], c, s, rfl, rfl, hone, ?_⟩
          rw [hrest, ← hmore, List.nil_append]
        | cons y p => simp at hc

/-- An encoding that starts with bytes below 128 starts with as many characters. -/
theorem exists_of_encode_eq_append {s : List Char} {p q : List UInt8} (h : encode s = p ++ q)
    (hp : ∀ b ∈ p, b < 128) :
    ∃ s1 s2, s = s1 ++ s2 ∧ encode s1 = p ∧ s1.length = p.length ∧ encode s2 = q := by
  induction p generalizing s with
  | nil => exact ⟨[], s, rfl, rfl, rfl, h⟩
  | cons b p ih =>
    obtain ⟨s0, c, s, rfl, h0, hc, hs⟩ :=
      exists_of_encode_eq_append_cons (p := []) h (hp b List.mem_cons_self)
    obtain ⟨s1, s2, rfl, h1, hlen, h2⟩ := ih hs fun b hb => hp b (List.mem_cons_of_mem _ hb)
    obtain rfl : s0 = [] := encode_injective h0
    exact ⟨c :: s1, s2, rfl, by rw [encode_cons, hc, h1]; rfl, by simp [hlen], h2⟩

/-! ## Valid data -/

/-- The data is the encoding of a text: no character is cut at its start or at its end. -/
def Valid (data : List UInt8) : Prop := ∃ s, encode s = data

theorem Valid.encode_decodeIgnore {data : List UInt8} (h : Valid data) :
    encode (decodeIgnore data) = data := by
  obtain ⟨s, rfl⟩ := h
  rw [decodeIgnore_encode]

instance (data : List UInt8) : Decidable (Valid data) :=
  decidable_of_iff (encode (decodeIgnore data) = data)
    ⟨fun h => ⟨decodeIgnore data, h⟩, Valid.encode_decodeIgnore⟩

/-- The texts of valid pieces make up the text of the whole. -/
theorem encode_flatten_decodeIgnore {l : List (List UInt8)} (h : ∀ data ∈ l, Valid data) :
    encode (l.map decodeIgnore).flatten = l.flatten := by
  induction l with
  | nil => rfl
  | cons data l ih =>
    rw [List.map_cons, List.flatten_cons, encode_append, List.flatten_cons,
      (h data List.mem_cons_self).encode_decodeIgnore,
      ih fun d hd => h d (List.mem_cons_of_mem _ hd)]

/-- An encoding that is put together from pieces which end with a byte below 128 is put together from
encodings. -/
theorem valid_of_encode_eq_flatten {l : List (List UInt8)} {s : List Char}
    (h : encode s = l.flatten) (hl : ∀ data ∈ l, ∃ p b, data = p ++ [b] ∧ b < 128) :
    ∀ data ∈ l, Valid data := by
  induction l generalizing s with
  | nil => simp
  | cons data l ih =>
    obtain ⟨p, b, rfl, hb⟩ := hl data List.mem_cons_self
    rw [List.flatten_cons, List.append_assoc, List.singleton_append] at h
    obtain ⟨s1, c, s2, rfl, h1, hc, h2⟩ := exists_of_encode_eq_append_cons h hb
    intro d hd
    rcases List.mem_cons.mp hd with rfl | hd
    · exact ⟨s1 ++ [c], by simp [h1, hc]⟩
    · exact ih h2 (fun d hd => hl d (List.mem_cons_of_mem _ hd)) d hd

/-- A text has at most as many characters as its encoding has bytes. -/
theorem length_le_length_encode (s : List Char) : s.length ≤ (encode s).length := by
  induction s with
  | nil => exact Nat.le_refl _
  | cons c s ih =>
    have hpos : 0 < c.utf8Size := c.utf8Size_pos
    rw [encode_cons, List.length_append, String.length_utf8EncodeChar, List.length_cons]
    omega

end ControlPlane.Utf8
