import ControlPlane.Lib.Json
import ControlPlane.Secure.Framing

/-!
# Reading a message in chunks

What `receive_message` returns for a message in chunks. The size of a chunk counts bytes, and the
loop counts characters, so that a chunk that is not the last one is read right when it is ASCII; the
last chunk is read right in any case, as the text ends with it. The end of the chunks is looked for
in the text, before the sizes are read, so that a message that holds the marker is cut there. For a
message whose chunks but the last are ASCII, and which arrives in slices that cut no character, the
message is returned exactly when the marker first occurs at its end and no slice ends after an
end-of-message delimiter in it (`receiveMessage_iff`).
-/

namespace ControlPlane.Secure

open Text Utf8 Receiver

variable {py : PyText}

/-! ## The loop over the chunks -/

/-- The loop ends at a size that no newline follows. -/
theorem chunkLoop_of_not_mem {size : List Char} (hsize : '\n' ∉ size) (p decoded : List Char)
    (fuel : ℕ) :
    chunkLoop py (p ++ '#' :: size) (fuel + 1) p.length decoded = some decoded := by
  have hpos : (p.length : ℤ) < ((p ++ '#' :: size).length : ℤ) := by simp
  have hget : getAt (p ++ '#' :: size) p.length = some '#' := by simp [getAt_append]
  have hfind : find '\n' (p ++ '#' :: size) p.length = none :=
    find_append_of_not_mem (by simp [hsize]) p
  simp only [chunkLoop, hpos, if_true, hget, hfind]

/-- The loop takes as many characters as the size says, and goes on after them, or after the newline
that follows them. -/
theorem chunkLoop_header {size : List Char} {n : ℕ} (hsize : '\n' ∉ size)
    (hint : py.int (String.ofList size) = some (n : ℤ)) {p data msg : List Char}
    (hmsg : msg = p ++ '#' :: (size ++ '\n' :: data)) (decoded : List Char) (fuel : ℕ) :
    chunkLoop py msg (fuel + 1) p.length decoded =
      (let dataEnd : ℤ := ((p ++ '#' :: (size ++ ['\n'])).length + n : ℕ)
      if dataEnd < msg.length then
        (getAt msg dataEnd).elim (some (decoded ++ data.take n)) fun c =>
          chunkLoop py msg fuel (if c = '\n' then dataEnd + 1 else dataEnd)
            (decoded ++ data.take n)
      else chunkLoop py msg fuel dataEnd (decoded ++ data.take n)) := by
  have hpos : (p.length : ℤ) < (msg.length : ℤ) := by
    rw [hmsg, List.length_append, List.length_cons]
    omega
  have hget : getAt msg p.length = some '#' := by simp [hmsg, getAt_append]
  have hfind : find '\n' msg p.length = some (p.length + (size.length + 1)) := by
    have h := find_append (c := '\n') (q := '#' :: size) (by simp [hsize]) p data
    simpa [hmsg] using h
  -- The size is the text between the `#` and the newline, and the data starts after the newline.
  have hnumber : slice msg ((p.length : ℤ) + 1) ((p.length + (size.length + 1) : ℕ) : ℤ) = size := by
    have h := slice_append (p ++ ['#']) (size ++ '\n' :: data) size.length
    simp only [List.append_assoc, List.singleton_append, ← hmsg, List.take_left] at h
    convert h using 2
    · simp
    · simp only [List.length_append, List.length_cons, List.length_nil]
      omega
  have hend : ((p.length + (size.length + 1) : ℕ) : ℤ) + 1 + n =
      (((p ++ '#' :: (size ++ ['\n'])).length + n : ℕ) : ℤ) := by
    simp only [List.length_append, List.length_cons, List.length_nil]
    omega
  have hdata : slice msg (((p.length + (size.length + 1) : ℕ) : ℤ) + 1)
      (((p ++ '#' :: (size ++ ['\n'])).length + n : ℕ) : ℤ) = data.take n := by
    have h := slice_append (p ++ '#' :: (size ++ ['\n'])) data n
    simp only [List.append_assoc, List.cons_append, List.nil_append, ← hmsg] at h
    convert h using 2
    simp only [List.length_append, List.length_cons, List.length_nil]
    omega
  simp only [chunkLoop, hpos, if_true, hget, hfind, hnumber, hint, hend, hdata]
  cases getAt msg (((p ++ '#' :: (size ++ ['\n'])).length + n : ℕ) : ℤ) <;> rfl

/-- The loop ends with the chunk that the text ends with, however large its size is. -/
theorem chunkLoop_last {size : List Char} {n : ℕ} (hsize : '\n' ∉ size)
    (hint : py.int (String.ofList size) = some (n : ℤ)) (p : List Char) {data : List Char}
    (hdata : data.length ≤ n) (decoded : List Char) (fuel : ℕ) :
    chunkLoop py (p ++ '#' :: (size ++ '\n' :: data)) (fuel + 2) p.length decoded =
      some (decoded ++ data) := by
  rw [chunkLoop_header hsize hint rfl]
  -- The chunk is to end at the end of the text or behind it, so that there is no next step.
  have hend : ¬ (((p ++ '#' :: (size ++ ['\n'])).length + n : ℕ) : ℤ) <
      ((p ++ '#' :: (size ++ '\n' :: data)).length : ℤ) := by
    simp only [List.length_append, List.length_cons, List.length_nil]
    omega
  simp only [hend, if_false, chunkLoop, List.take_of_length_le hdata]

/-- The loop goes on at the next chunk when it has taken as many characters as a chunk has. -/
theorem chunkLoop_next {size : List Char} {n : ℕ} (hsize : '\n' ∉ size)
    (hint : py.int (String.ofList size) = some (n : ℤ)) {p chunk rest msg : List Char}
    (hchunk : chunk.length = n)
    (hmsg : msg = p ++ '#' :: (size ++ '\n' :: (chunk ++ '\n' :: rest))) (decoded : List Char)
    (fuel : ℕ) :
    chunkLoop py msg (fuel + 1) p.length decoded =
      chunkLoop py msg fuel (p ++ '#' :: (size ++ '\n' :: (chunk ++ ['\n']))).length
        (decoded ++ chunk) := by
  rw [chunkLoop_header hsize hint hmsg]
  have hend : (p ++ '#' :: (size ++ ['\n'])).length + n =
      (p ++ '#' :: (size ++ '\n' :: chunk)).length := by
    simp only [List.length_append, List.length_cons, List.length_nil, hchunk]
    omega
  have hlt : ((p ++ '#' :: (size ++ '\n' :: chunk)).length : ℤ) < msg.length := by
    simp [hmsg]
  -- The newline of the next header is passed over.
  have hget : getAt msg (p ++ '#' :: (size ++ '\n' :: chunk)).length = some '\n' := by
    have h := getAt_append (p ++ '#' :: (size ++ '\n' :: chunk)) ('\n' :: rest)
    simpa [hmsg] using h
  have hnext : (((p ++ '#' :: (size ++ '\n' :: chunk)).length : ℕ) : ℤ) + 1 =
      (p ++ '#' :: (size ++ '\n' :: (chunk ++ ['\n']))).length := by
    simp only [List.length_append, List.length_cons, List.length_nil]
    omega
  have htake : (chunk ++ '\n' :: rest).take n = chunk := by rw [← hchunk, List.take_left]
  simp only [hend, hlt, if_true, hget, Option.elim_some, hnext, htake]

/-! ## Where the end of the chunks is found -/

/-- The characters of a size are digits. -/
theorem isDigit_of_mem_toString {n : ℕ} {c : Char} (h : c ∈ (toString n).toList) :
    c.isDigit = true := by
  rw [Nat.toString_eq_repr, Nat.toList_repr] at h
  exact Nat.isDigit_of_mem_toDigits (by decide) (by decide) h

theorem newline_not_mem_toString (n : ℕ) : '\n' ∉ (toString n).toList := fun h =>
  absurd (isDigit_of_mem_toString h) (by decide)

theorem hash_not_mem_toString (n : ℕ) : '#' ∉ (toString n).toList := fun h =>
  absurd (isDigit_of_mem_toString h) (by decide)

theorem toList_toString_ne_nil (n : ℕ) : (toString n).toList ≠ [] := by
  rw [Nat.toString_eq_repr, Nat.toList_repr]
  exact Nat.toDigits_ne_nil

/-- The text of a chunk: the size that is sent with it, and its characters. -/
def chunkText (chunk : ℕ × List Char) : List Char :=
  '\n' :: '#' :: ((toString chunk.1).toList ++ '\n' :: chunk.2)

theorem chunkText_append (n : ℕ) (text tail : List Char) :
    chunkText (n, text) ++ tail = '\n' :: '#' :: ((toString n).toList ++ '\n' :: (text ++ tail)) := by
  simp [chunkText]

/-- The chunks of a message that the loop reads right: each one but the last has as many characters
as its size says. -/
inductive Sized : List (ℕ × List Char) → Prop
  | last {n : ℕ} {text : List Char} (hne : text ≠ []) (hle : text.length ≤ n)
      (hmax : n ≤ 4294967295) : Sized [(n, text)]
  | cons {text : List Char} {chunks : List (ℕ × List Char)} (hne : text ≠ [])
      (hmax : text.length ≤ 4294967295) (hrest : Sized chunks) :
      Sized ((text.length, text) :: chunks)

/-- The end of the chunks is not found in the header of a chunk: it is after the header, or its
first newline is the one that ends the header. -/
theorem endOfChunks_after_header {n : ℕ} {a r tail : List Char}
    (h : a ++ endOfChunks ++ r = '\n' :: '#' :: ((toString n).toList ++ '\n' :: tail)) :
    (∃ b, a = '\n' :: '#' :: ((toString n).toList ++ '\n' :: b) ∧ b ++ endOfChunks ++ r = tail) ∨
      (a = '\n' :: '#' :: (toString n).toList ∧ '#' :: '#' :: '\n' :: r = tail) := by
  have hnl := newline_not_mem_toString n
  have hhash := hash_not_mem_toString n
  obtain ⟨d, ds, hd⟩ := List.exists_cons_of_ne_nil (toList_toString_ne_nil n)
  generalize (toString n).toList = size at *
  match a with
  | [] =>
    -- The header would have a second `#` in place of the first digit.
    simp only [hd, endOfChunks, List.nil_append, List.cons_append, List.cons.injEq] at h
    rw [hd, ← h.2.2.1] at hhash
    simp at hhash
  | [x] => simp [endOfChunks] at h
  | x :: y :: b =>
    simp only [List.cons_append, List.cons.injEq, List.append_assoc] at h
    obtain ⟨rfl, rfl, h⟩ := h
    -- Both sides have a newline after `b` and after the size, and the size has none in it.
    rcases List.append_eq_append_iff.mp h with ⟨z, hz, hrest⟩ | ⟨z, hz, hrest⟩
    · cases z with
      | nil =>
        right
        simp only [endOfChunks, List.nil_append, List.cons_append, List.cons.injEq] at hrest
        exact ⟨by simpa using hz.symm, hrest.2⟩
      | cons w z =>
        -- The end would start at a newline in the size.
        simp only [endOfChunks, List.cons_append, List.cons.injEq] at hrest
        rw [hz, ← hrest.1] at hnl
        simp at hnl
    · cases z with
      | nil =>
        right
        simp only [endOfChunks, List.nil_append, List.cons_append, List.cons.injEq] at hrest
        exact ⟨by simpa using hz, hrest.2.symm⟩
      | cons w z =>
        left
        rw [List.cons_append, List.cons.injEq] at hrest
        refine ⟨z, by rw [hz, ← hrest.1], ?_⟩
        rw [hrest.2, List.append_assoc]

/-- The end of the chunks that is found in the characters of a chunk takes a `#` of them. What
follows the chunk starts with a newline. -/
theorem endOfChunks_in_chunk {b r text tail : List Char}
    (h : b ++ endOfChunks ++ r = text ++ '\n' :: tail) :
    (∃ x, b = text ++ x ∧ x ++ endOfChunks ++ r = '\n' :: tail) ∨
      ∃ y, text = b ++ y ∧ '#' ∈ y := by
  rw [List.append_assoc] at h
  rcases List.append_eq_append_iff.mp h with ⟨y, hy, hrest⟩ | ⟨x, hx, hrest⟩
  · match y with
    | [] => exact .inl ⟨[], by simpa using hy.symm, by simpa using hrest⟩
    -- Of the end of the chunks, only its newline would be in the chunk, and another would follow.
    | [w] => simp [endOfChunks] at hrest
    | w :: v :: y =>
      simp only [endOfChunks, List.cons_append, List.cons.injEq] at hrest
      exact .inr ⟨w :: v :: y, hy, by simp [← hrest.2.1]⟩
  · exact .inl ⟨x, hx, by rw [hrest, List.append_assoc]⟩

/-- The sizes that RFC 6242 allows are read by `int`. -/
def ReadsSizes (py : PyText) : Prop :=
  ∀ n : ℕ, n ≤ 4294967295 → py.int (toString n) = some (n : ℤ)

theorem ReadsSizes.int_ofList (h : ReadsSizes py) {n : ℕ} (hn : n ≤ 4294967295) :
    py.int (String.ofList (toString n).toList) = some (n : ℤ) := by
  rw [String.ofList_toList]
  exact h n hn

/-- The end of the chunks is found after the first chunk; or it is found in it, and the loop then
gives a part of the chunk that leaves a `#` of it out. -/
theorem chunkLoop_first (hint : ReadsSizes py) {n : ℕ} {text : List Char} (hne : text ≠ [])
    (hle : text.length ≤ n) (hmax : n ≤ 4294967295) {a r tail : List Char}
    (htail : 3 ≤ tail.length) (h : a ++ endOfChunks ++ r = chunkText (n, text) ++ '\n' :: tail) :
    (∃ x, a = '\n' :: '#' :: ((toString n).toList ++ '\n' :: (text ++ x)) ∧
      x ++ endOfChunks ++ r = '\n' :: tail) ∨
    (r ≠ [] ∧ ∃ b part rest, a = '\n' :: '#' :: b ∧ text = part ++ rest ∧ '#' ∈ rest ∧
      ∀ p decoded fuel, chunkLoop py (p ++ '#' :: b) (fuel + 2) p.length decoded =
        some (decoded ++ part)) := by
  have hlen : a.length + 4 + r.length = 3 + (toString n).toList.length + text.length + 1 +
      tail.length := by
    have := congrArg List.length h
    simp only [endOfChunks, chunkText, List.length_append, List.length_cons, List.length_nil] at this
    omega
  have htext : 1 ≤ text.length := List.length_pos_iff.mpr hne
  have hnl := newline_not_mem_toString n
  rw [chunkText_append] at h
  rcases endOfChunks_after_header h with ⟨b, rfl, hb⟩ | ⟨rfl, hb⟩
  · rcases endOfChunks_in_chunk hb with ⟨x, rfl, hx⟩ | ⟨y, rfl, hy⟩
    · exact .inl ⟨x, rfl, hx⟩
    · -- The end is found in the characters of the chunk: the loop ends with those before it.
      right
      have hy0 : 1 ≤ y.length := List.length_pos_of_mem hy
      rw [List.length_append] at hle
      constructor
      · rintro rfl
        simp only [List.length_cons, List.length_append, List.length_nil] at hlen
        omega
      · refine ⟨_, b, y, rfl, rfl, hy, fun p decoded fuel => ?_⟩
        exact chunkLoop_last hnl (hint.int_ofList hmax) p (by omega) decoded fuel
  · -- The end is found at the newline of the header: the loop finds no size.
    right
    constructor
    · rintro rfl
      simp only [List.length_cons, List.length_nil] at hlen
      omega
    · refine ⟨_, [], text, rfl, rfl, ?_, fun p decoded fuel => ?_⟩
      · obtain ⟨c, text, rfl⟩ := List.exists_cons_of_ne_nil hne
        rw [List.cons_append, List.cons.injEq] at hb
        simp [← hb.1]
      · rw [chunkLoop_of_not_mem hnl, List.append_nil]

/-- What the loop makes of the text before the end of the chunks, wherever this is found: all of the
message when it is found at the end of the frame, and otherwise a part of the message that leaves a
`#` of it out. -/
theorem chunkLoop_of_sized (hint : ReadsSizes py) {chunks : List (ℕ × List Char)}
    (hsized : Sized chunks) {a r : List Char}
    (h : a ++ endOfChunks ++ r = chunks.flatMap chunkText ++ endOfChunks)
    (p decoded : List Char) (fuel : ℕ) (hfuel : a.length ≤ fuel) :
    ∃ b part rest, a = '\n' :: '#' :: b ∧
      chunkLoop py (p ++ '#' :: b) fuel p.length decoded = some (decoded ++ part) ∧
      chunks.flatMap Prod.snd = part ++ rest ∧ (r = [] → rest = []) ∧ (r ≠ [] → '#' ∈ rest) := by
  induction hsized generalizing a p decoded fuel with
  | @last n text hne hle hmax =>
    rw [List.flatMap_singleton] at h ⊢
    rcases chunkLoop_first hint hne hle hmax (show 3 ≤ ['#', '#', '\n'].length by decide) h with
      ⟨x, rfl, hx⟩ | ⟨hr, b, part, rest, rfl, rfl, hrest, hloop⟩
    · obtain ⟨rfl, rfl⟩ : x = [] ∧ r = [] := by
        have hlen := congrArg List.length hx
        simp only [endOfChunks, List.length_append, List.length_cons, List.length_nil] at hlen
        exact ⟨List.length_eq_zero_iff.mp (by omega), List.length_eq_zero_iff.mp (by omega)⟩
      obtain ⟨fuel, rfl⟩ := Nat.exists_eq_add_of_le' (show 2 ≤ fuel by simp at hfuel; omega)
      refine ⟨_, text, [], rfl, ?_, by simp, by simp, by simp⟩
      rw [List.append_nil]
      exact chunkLoop_last (newline_not_mem_toString n) (hint.int_ofList hmax) p hle decoded fuel
    · obtain ⟨fuel, rfl⟩ := Nat.exists_eq_add_of_le' (show 2 ≤ fuel by simp at hfuel; omega)
      exact ⟨b, part, rest, rfl, hloop p decoded fuel, rfl, fun h => absurd h hr, fun _ => hrest⟩
  | @cons text chunks hne hmax hrest ih =>
    -- The other chunks, or the end of them, start with a newline.
    obtain ⟨tail, htail, hlen⟩ : ∃ tail, chunks.flatMap chunkText ++ endOfChunks = '\n' :: tail ∧
        3 ≤ tail.length := by
      cases chunks with
      | nil => exact ⟨_, rfl, by decide⟩
      | cons c chunks => exact ⟨_, rfl, by simp [endOfChunks]; omega⟩
    rw [List.flatMap_cons, List.append_assoc (chunkText _), htail] at h
    rw [List.flatMap_cons]
    rcases chunkLoop_first hint hne le_rfl hmax hlen h with
      ⟨x, rfl, hx⟩ | ⟨hr, b, part, rest, rfl, rfl, hmem, hloop⟩
    · -- The first chunk is taken whole, and the loop goes on with the others.
      obtain ⟨fuel, rfl⟩ := Nat.exists_eq_add_of_le' (show 1 ≤ fuel by simp at hfuel; omega)
      rw [← htail] at hx
      obtain ⟨b, part, rest, rfl, hloop, hflat, hnil, hhash⟩ := ih hx
        (p ++ '#' :: ((toString text.length).toList ++ '\n' :: (text ++ ['\n']))) (decoded ++ text)
        fuel (by simp at hfuel ⊢; omega)
      refine ⟨_, text ++ part, rest, rfl, ?_, by rw [hflat, List.append_assoc], hnil, hhash⟩
      rw [chunkLoop_next (newline_not_mem_toString _) (hint.int_ofList hmax) rfl rfl,
        ← List.append_assoc, ← hloop]
      simp
    · obtain ⟨fuel, rfl⟩ := Nat.exists_eq_add_of_le' (show 2 ≤ fuel by simp at hfuel; omega)
      refine ⟨b, part, rest ++ chunks.flatMap Prod.snd, rfl, hloop p decoded fuel, by simp,
        fun h => absurd h hr, fun _ => ?_⟩
      exact List.mem_append_left _ hmem

/-- What is decoded of the text before the end of the chunks, wherever this is found. -/
theorem decodeChunks_of_sized (hint : ReadsSizes py) {chunks : List (ℕ × List Char)}
    (hsized : Sized chunks) {a r : List Char}
    (h : a ++ endOfChunks ++ r = chunks.flatMap chunkText ++ endOfChunks) :
    ∃ part rest, decodeChunks py a = some part ∧ chunks.flatMap Prod.snd = part ++ rest ∧
      (r = [] → rest = []) ∧ (r ≠ [] → '#' ∈ rest) := by
  obtain ⟨b, part, rest, rfl, hloop, hflat, hnil, hhash⟩ :=
    chunkLoop_of_sized hint hsized h [] [] (2 * (a.length - 1) + 1) (by omega)
  refine ⟨part, rest, ?_, hflat, hnil, hhash⟩
  have hstrip : ('\n' :: '#' :: b).dropWhile (· = '\n') = '#' :: b := by
    rw [List.dropWhile_cons_of_pos (by simp), List.dropWhile_cons_of_neg (by simp)]
  rw [decodeChunks, hstrip]
  simpa using hloop

/-! ## A message and its chunks -/

/-- A chunk whose bytes are the encoding of a text. -/
theorem chunkFrame_encode (text : List Char) :
    chunkFrame (encode text) = encode (chunkText ((encode text).length, text)) := by
  rw [chunkFrame, ← encode_append, chunkText]
  simp

/-- A message whose chunks but the last are ASCII has chunks of text that the loop reads right. -/
theorem exists_sized {chunks : List (List UInt8)} (hne : chunks ≠ [])
    (hmem : ∀ chunk ∈ chunks, chunk ≠ [] ∧ chunk.length ≤ 4294967295)
    (hascii : ∀ chunk ∈ chunks.dropLast, ∀ b ∈ chunk, b < 128) {text : List Char}
    (htext : chunks.flatten = encode text) :
    ∃ texts, Sized texts ∧ texts.flatMap Prod.snd = text ∧
      chunks.flatMap chunkFrame = encode (texts.flatMap chunkText) := by
  induction chunks generalizing text with
  | nil => exact absurd rfl hne
  | cons chunk chunks ih =>
    obtain ⟨hchunk, hmax⟩ := hmem chunk List.mem_cons_self
    by_cases hlast : chunks = []
    · -- The size of the last chunk is at least the number of its characters.
      subst hlast
      rw [List.flatten_cons, List.flatten_nil, List.append_nil] at htext
      subst htext
      refine ⟨[((encode text).length, text)], .last ?_ (length_le_length_encode text) hmax, by simp,
        by simp [chunkFrame_encode]⟩
      rintro rfl
      exact hchunk rfl
    · -- An ASCII chunk has as many characters as bytes, and leaves an encoding for the others.
      rw [List.dropLast_cons_of_ne_nil hlast] at hascii
      rw [List.flatten_cons] at htext
      obtain ⟨first, rest, rfl, rfl, hlen, hrest⟩ := exists_of_encode_eq_append htext.symm
        fun b hb => hascii chunk List.mem_cons_self b hb
      obtain ⟨texts, hsized, hflat, hframe⟩ := ih hlast
        (fun c hc => hmem c (List.mem_cons_of_mem _ hc))
        (fun c hc => hascii c (List.mem_cons_of_mem _ hc)) hrest.symm
      rw [← hlen] at hmax
      refine ⟨(first.length, first) :: texts, .cons ?_ hmax hsized, by simp [hflat], ?_⟩
      · rintro rfl
        exact hchunk rfl
      · rw [List.flatMap_cons, List.flatMap_cons, encode_append, hframe, chunkFrame_encode, hlen]

/-- The chunks of such a message, and their end, as text. -/
theorem Message.exists_sized (msg : Message)
    (hascii : ∀ chunk ∈ msg.chunks.dropLast, ∀ b ∈ chunk, b < 128) :
    ∃ texts, Sized texts ∧ texts.flatMap Prod.snd = msg.text.toList ∧
      chunkedFrame msg.chunks = encode (texts.flatMap chunkText ++ endOfChunks) := by
  obtain ⟨texts, hsized, hflat, hframe⟩ := Secure.exists_sized msg.chunks_ne_nil
    (fun c hc => ⟨msg.ne_nil_of_mem c hc, msg.length_le_of_mem c hc⟩) hascii msg.flatten_chunks
  refine ⟨texts, hsized, hflat, ?_⟩
  rw [chunkedFrame, hframe, encode_append]

/-! ## What is returned -/

/-- A text is not trimmed to a part of it that leaves a `#` out. -/
theorem strip_ne_of_hash_mem {part rest : List Char} (h : '#' ∈ rest) :
    strip (String.ofList part) ≠ strip (String.ofList (part ++ rest)) := by
  intro he
  have hcount := congrArg (fun s => s.toList.count '#') he
  simp only [count_strip (show isSpace '#' = false by decide), String.toList_ofList,
    List.count_append] at hcount
  have hpos := List.count_pos_iff.mpr h
  omega

/-- The headers of the chunks hold no `]`. -/
theorem count_flatMap_chunkText (chunks : List (ℕ × List Char)) :
    (chunks.flatMap chunkText).count ']' = (chunks.flatMap Prod.snd).count ']' := by
  induction chunks with
  | nil => rfl
  | cons chunk chunks ih =>
    have hsize : ((toString chunk.1).toList).count ']' = 0 := by
      rw [List.count_eq_zero]
      exact fun h => absurd (isDigit_of_mem_toString h) (by decide)
    rw [List.flatMap_cons, List.flatMap_cons, List.count_append, List.count_append, ih, chunkText,
      List.count_cons_of_ne (by decide), List.count_cons_of_ne (by decide), List.count_append, hsize,
      List.count_cons_of_ne (by decide), Nat.zero_add]

/-- The text before an end-of-message delimiter in the frame is not trimmed to the message. -/
theorem strip_ne_of_endOfMessage {chunks : List (ℕ × List Char)} {a r tail : List Char}
    (h : a ++ endOfMessage ++ r ++ tail = chunks.flatMap chunkText ++ endOfChunks) :
    strip (String.ofList a) ≠ strip (String.ofList (chunks.flatMap Prod.snd)) := by
  intro he
  -- The delimiter takes four of the `]` of the message, and the headers have none.
  have hcount := congrArg (fun s => s.toList.count ']') he
  have htotal := congrArg (List.count ']') h
  simp only [count_strip (show isSpace ']' = false by decide), String.toList_ofList] at hcount
  rw [List.count_append, List.count_append, List.count_append, List.count_append,
    count_flatMap_chunkText] at htotal
  have hone : endOfMessage.count ']' = 4 := by decide
  have hzero : endOfChunks.count ']' = 0 := by decide
  omega

/-- No piece but the last ends after an end-of-message delimiter. -/
def EomFree (pieces : List (List Char)) : Prop :=
  ∀ before after, pieces = before ++ after → after ≠ [] → ¬ endOfMessage <:+: before.flatten

/-- A frame without the delimiter can be cut anywhere. -/
theorem eomFree_of_not_infix {pieces : List (List Char)}
    (h : ¬ endOfMessage <:+: pieces.flatten) : EomFree pieces := by
  rintro before after rfl -
  rw [List.flatten_append] at h
  exact fun hin => h (hin.trans (List.prefix_append _ _).isInfix)

/-- The framing of a session that has negotiated NETCONF 1.1. -/
def Framing.base11 : Framing := { useChunked := true, helloComplete := true }

/-- What a session in chunked mode finds in its buffer. -/
theorem examine_base11 (buffer : List Char) : examine py .base11 buffer =
    match splitOnce endOfChunks buffer with
    | some (msg, rest) =>
      match decodeChunks py msg with
      | some decoded => .take (strip (String.ofList decoded)) .base11 rest
      | none => .stuck
    | none =>
      match splitOnce endOfMessage buffer with
      | some (msg, rest) => .take (strip (String.ofList msg)) .base11 rest
      | none => .wait := by
  rfl

/-- What a session in chunked mode returns of a frame, when a part of the frame that holds no
delimiter is in its buffer. -/
theorem receive_iff_of_sized (hint : ReadsSizes py) {chunks : List (ℕ × List Char)}
    (hsized : Sized chunks) {buffer : List Char} {pieces : List (List Char)}
    (hne : ∀ p ∈ pieces, p ≠ [])
    (h : buffer ++ pieces.flatten = chunks.flatMap chunkText ++ endOfChunks)
    (hchunks : splitOnce endOfChunks buffer = none) (heom : ¬ endOfMessage <:+: buffer) :
    (receive (examine py) .base11 buffer pieces).1.head? =
        some (strip (String.ofList (chunks.flatMap Prod.snd))) ↔
      Whole endOfChunks (chunks.flatMap chunkText ++ endOfChunks) ∧
        ∀ before after, pieces = before ++ after → after ≠ [] →
          ¬ endOfMessage <:+: buffer ++ before.flatten := by
  -- A part of the frame without the end of the chunks is not all of it.
  have hpart {part : List Char} (hnone : splitOnce endOfChunks part = none) :
      part ≠ chunks.flatMap chunkText ++ endOfChunks := by
    rintro rfl
    rw [splitOnce_eq_none_iff (by decide)] at hnone
    exact hnone (List.suffix_append _ _).isInfix
  induction pieces generalizing buffer with
  | nil => exact absurd (by simpa using h) (hpart hchunks)
  | cons piece pieces ih =>
    have hne' : ∀ p ∈ pieces, p ≠ [] := fun p hp => hne p (List.mem_cons_of_mem _ hp)
    have h' : buffer ++ piece ++ pieces.flatten = chunks.flatMap chunkText ++ endOfChunks := by
      rw [← h, List.flatten_cons, List.append_assoc]
    cases hs : splitOnce endOfChunks (buffer ++ piece) with
    | some cut =>
      obtain ⟨a, r⟩ := cut
      have hsplit := splitOnce_append hs pieces.flatten
      rw [h'] at hsplit
      obtain ⟨part, rest, hdec, hflat, hnil, hhash⟩ :=
        decodeChunks_of_sized hint hsized (eq_of_splitOnce hsplit).symm
      have hstep : (receive (examine py) .base11 buffer (piece :: pieces)).1.head? =
          some (strip (String.ofList part)) := by
        simp only [receive, examine_base11, hs, hdec, List.head?_cons]
      rw [hstep, Option.some_inj, hflat]
      by_cases hr : r ++ pieces.flatten = []
      · -- The end of the chunks is found at the end of the frame, which is all there.
        obtain rfl := hnil hr
        have hlast : pieces = [] := by
          rw [List.eq_nil_iff_forall_not_mem]
          intro p hp
          exact hne' p hp (List.flatten_eq_nil_iff.mp (List.append_eq_nil_iff.mp hr).2 p hp)
        refine iff_of_true (by rw [List.append_nil]) ⟨⟨a, by rw [hsplit, hr]⟩, ?_⟩
        intro before after he hafter
        obtain rfl : before = [] := by
          cases before with
          | nil => rfl
          | cons p before =>
            rw [hlast, List.cons_append, List.cons.injEq] at he
            exact absurd (List.append_eq_nil_iff.mp he.2.symm).2 hafter
        simpa using heom
      · -- It is found before the end, so that a part of the message is left out.
        refine iff_of_false (strip_ne_of_hash_mem (hhash hr)) ?_
        rintro ⟨⟨body, hbody⟩, -⟩
        rw [hsplit] at hbody
        exact hr (Prod.mk.inj (Option.some.inj hbody)).2
    | none =>
      cases he : splitOnce endOfMessage (buffer ++ piece) with
      | some cut =>
        obtain ⟨a, r⟩ := cut
        have hcut : buffer ++ piece = a ++ endOfMessage ++ r := eq_of_splitOnce he
        have hstep : (receive (examine py) .base11 buffer (piece :: pieces)).1.head? =
            some (strip (String.ofList a)) := by
          simp only [receive, examine_base11, hs, he, List.head?_cons]
        rw [hstep, Option.some_inj]
        -- A text up to the delimiter is returned, and more of the frame is to come.
        refine iff_of_false (strip_ne_of_endOfMessage (by rw [← hcut, h'])) ?_
        rintro ⟨-, hcuts⟩
        refine hcuts [piece] pieces rfl ?_ ⟨a, r, by rw [← hcut]; simp⟩
        rintro rfl
        exact hpart hs (by simpa using h')
      | none =>
        have heom' : ¬ endOfMessage <:+: buffer ++ piece :=
          (splitOnce_eq_none_iff (by decide) _).mp he
        have hstep : receive (examine py) .base11 buffer (piece :: pieces) =
            receive (examine py) .base11 (buffer ++ piece) pieces := by
          simp only [receive, examine_base11, hs, he]
        rw [hstep]
        refine (ih hne' h' hs heom').trans ?_
        refine and_congr_right fun _ => ⟨fun hcuts before after heq hafter => ?_,
          fun hcuts before after heq hafter => ?_⟩
        · cases before with
          | nil => simpa using heom
          | cons p before =>
            rw [List.cons_append, List.cons.injEq] at heq
            rw [List.flatten_cons, ← List.append_assoc, ← heq.1]
            exact hcuts before after heq.2 hafter
        · have hcut := hcuts (piece :: before) after (by rw [heq]; rfl) hafter
          rwa [List.flatten_cons, ← List.append_assoc] at hcut

/-- A session that has negotiated NETCONF 1.1 and has nothing in its buffer. -/
def NetconfSession.established : NetconfSession :=
  { toFraming := .base11, buffer := [], running := true }

/-- A message in chunks, of which all but the last are ASCII, that arrives in slices which cut no
character: it is returned exactly when the end of the chunks first occurs at the end of its frame,
and no slice but the last ends after an end-of-message delimiter. -/
theorem receiveMessage_iff (hint : ReadsSizes py) (msg : Message)
    (hascii : ∀ chunk ∈ msg.chunks.dropLast, ∀ b ∈ chunk, b < 128) {recvs : List Recv}
    (hopen : Open recvs) (hvalid : ∀ data ∈ slices recvs, Valid data)
    (hbytes : (slices recvs).flatten = chunkedFrame msg.chunks) :
    (receiveMessage py .established recvs).1 = .message (strip msg.text) ↔
      Whole endOfChunks (decodeIgnore (chunkedFrame msg.chunks)) ∧ EomFree (pieces recvs) := by
  obtain ⟨texts, hsized, hflat, hframe⟩ := msg.exists_sized hascii
  have htext : (pieces recvs).flatten = texts.flatMap chunkText ++ endOfChunks := by
    apply encode_injective
    rw [pieces, encode_flatten_decodeIgnore hvalid, hbytes, hframe]
  have hiff := receive_iff_of_sized hint hsized (fun p hp => ne_nil_of_mem_pieces hopen hvalid hp)
    (show [] ++ (pieces recvs).flatten = _ from htext) rfl (by decide)
  rw [hflat, String.ofList_toList] at hiff
  rw [hframe, decodeIgnore_encode]
  exact (receiveMessage_eq_message_iff .base11 [] hopen _).trans hiff

/-- The interpreter of the concrete runs reads sizes. -/
theorem readsSizes_ascii (sha256 : String → String) (loads : String → Option Json) :
    ReadsSizes (Py.ascii sha256 loads).toPyText := by
  intro n _
  have hne : toString n ≠ "" := by
    intro he
    exact toList_toString_ne_nil n (by rw [he]; rfl)
  have hall : (toString n).toList.all isDigit = true := by
    rw [List.all_eq_true]
    intro c hc
    have hdigit := isDigit_of_mem_toString hc
    simpa [isDigit, Char.isDigit, UInt32.le_iff_toNat_le] using hdigit
  have hvalue : decimal (toString n) = n := by
    rw [Nat.toString_eq_repr, decimal, Nat.toList_repr]
    exact Nat.ofDigitChars_ten_toDigits
  simp only [Py.ascii, hne, hall, hvalue, ne_eq, not_false_eq_true, and_self, if_true]

/-- A message in two chunks, the first of which is ASCII. -/
def accentLast : Message where
  text := "<a>é</a>"
  chunks := [encode ['<', 'a', '>'], encode ['é', '<', '/', 'a', '>']]
  chunks_ne_nil := by decide +kernel
  ne_nil_of_mem := by decide +kernel
  length_le_of_mem := by decide +kernel
  flatten_chunks := by decide +kernel

/-- The message arrives in two slices with a timeout between them. -/
theorem receiveMessage_accentLast :
    (receiveMessage (Py.ascii id fun _ => none).toPyText .established
      [.data (encode ['\n', '#', '3', '\n', '<', 'a', '>', '\n', '#', '6', '\n', 'é']), .timeout,
        .data (encode ['<', '/', 'a', '>', '\n', '#', '#', '\n'])]).1 =
      .message (strip accentLast.text) := by
  exact (receiveMessage_iff (readsSizes_ascii id fun _ => none) accentLast (by decide +kernel)
    (by decide +kernel) (by decide +kernel) (by decide +kernel)).mpr
      ⟨⟨_, rfl⟩, eomFree_of_not_infix (by decide +kernel)⟩

/-- The same message, cut after the character that is not ASCII. -/
def accentFirst : Message where
  text := "<a>é</a>"
  chunks := [encode ['<', 'a', '>', 'é'], encode ['<', '/', 'a', '>']]
  chunks_ne_nil := by decide +kernel
  ne_nil_of_mem := by decide +kernel
  length_le_of_mem := by decide +kernel
  flatten_chunks := by decide +kernel

/-- It is returned with a newline that it does not hold: the size of the first chunk is five bytes,
and the chunk has four characters. -/
theorem exists_receiveMessage_ne :
    ∃ (py : PyText) (msg : Message) (recvs : List Recv), ReadsSizes py ∧ Open recvs ∧
      (slices recvs).flatten = chunkedFrame msg.chunks ∧
      (receiveMessage py .established recvs).1 = .message "<a>é\n</a>" ∧
      strip msg.text = "<a>é</a>" ∧
      (receiveMessage py .established recvs).1 ≠ .message (strip msg.text) := by
  refine ⟨(Py.ascii id fun _ => none).toPyText, accentFirst,
    [.data (chunkedFrame accentFirst.chunks)], readsSizes_ascii id _, ?_⟩
  decide +kernel

end ControlPlane.Secure
