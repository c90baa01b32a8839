import ControlPlane.Secure.Chunks

/-!
# Messages that arrive in slices

What the successive calls of `receive_message` return when a client sends its hello and its messages
one after the other, and the bytes arrive in slices that need not agree with the frames. A call looks
at the buffer only after a `recv`, and takes one message. For slices that cut no character, frames
whose delimiter is first at their end, and no slice that ends after an end-of-message delimiter in an
unfinished frame, the calls return what each frame is read as, in order, and leave nothing in the
buffer exactly when the slices are paced: after every slice, the frames that are not complete yet are
at most as many as the slices that are still to come (`receiveAll_iff_paced`). Two frames that are
complete with the last slice are one too many.
-/

namespace ControlPlane.Secure

open Text Utf8 Receiver

variable {py : PyText}

/-- The delimiter of the frames in a framing. -/
def Framing.delimiter (framing : Framing) : List Char :=
  if framing.chunked then endOfChunks else endOfMessage

/-- What `receive_message` makes of a frame that arrives by itself. -/
def readFrame (py : PyText) (framing : Framing) (frame : List Char) : Option String :=
  match examine py framing frame with
  | .take m _ _ => some m
  | _ => none

/-- The texts of the frames that a client sends. -/
def Exchange.texts (e : Exchange) : List (List Char) := e.frames.map decodeIgnore

/-- What each of the frames is read as. -/
def Exchange.reads (py : PyText) (e : Exchange) : List (Option String) :=
  readFrame py NetconfSession.init.toFraming (decodeIgnore (eomFrame e.hello)) ::
    e.messages.map fun msg => readFrame py e.framing (decodeIgnore (msg.frame e.framing))

/-- The delimiter of each frame is first at the end of the frame. -/
def Exchange.Delimited (e : Exchange) : Prop :=
  Whole endOfMessage (decodeIgnore (eomFrame e.hello)) ∧
    ∀ msg ∈ e.messages, Whole e.framing.delimiter (decodeIgnore (msg.frame e.framing))

/-- An unfinished frame holds no end-of-message delimiter. -/
def Clear (part : List Char) : Prop := ¬ endOfMessage <:+: part

instance : DecidablePred Clear := fun part => inferInstanceAs (Decidable (¬ endOfMessage <:+: part))

/-! ## One frame -/

/-- A frame is read, and what follows it stays in the buffer. -/
theorem examine_append {framing : Framing} {frame : List Char} {m : String}
    (hwhole : Whole framing.delimiter frame) (hread : readFrame py framing frame = some m)
    (rest : List Char) : examine py framing (frame ++ rest) = .take m (framing.after m) rest := by
  obtain ⟨body, hbody⟩ := hwhole
  have happend := splitOnce_append hbody rest
  rw [List.nil_append] at happend
  rw [readFrame, examine] at hread
  rw [examine]
  by_cases hc : framing.chunked = true
  · rw [Framing.delimiter, if_pos hc] at hbody happend
    simp only [hc, if_true, hbody] at hread
    simp only [hc, if_true, happend]
    -- The frame is one that the loop over the chunks comes to an end with.
    cases hdec : decodeChunks py body with
    | none => simp [hdec] at hread
    | some decoded =>
      rw [hdec] at hread
      obtain rfl := Option.some.inj hread
      rfl
  · rw [Framing.delimiter, if_neg hc] at hbody happend
    simp only [hc, hbody] at hread
    simp only [hc, happend]
    obtain rfl := Option.some.inj hread
    rfl

/-- A part of a frame is waited on. -/
theorem examine_part {framing : Framing} {frame part : List Char}
    (hwhole : Whole framing.delimiter frame) (hpart : part <+: frame) (hne : part ≠ frame)
    (hclear : Clear part) : examine py framing part = .wait := by
  have hnone := hwhole.splitOnce_eq_none hpart hne
  have heom : splitOnce endOfMessage part = none :=
    (splitOnce_eq_none_iff (by decide) part).mpr hclear
  rw [examine]
  by_cases hc : framing.chunked = true
  · rw [Framing.delimiter, if_pos hc] at hnone
    simp only [hc, if_true, hnone, heom]
  · simp only [hc, heom]
    rfl

/-- A text with the end-of-message delimiter is read as the text. -/
theorem readFrame_eomFrame {framing : Framing} (hframing : framing.chunked = false) {text : String}
    (hwhole : Whole endOfMessage (decodeIgnore (eomFrame text))) :
    readFrame py framing (decodeIgnore (eomFrame text)) = some (strip text) := by
  rw [eomFrame, decodeIgnore_encode] at hwhole ⊢
  obtain ⟨body, hbody⟩ := hwhole
  have htext : text.toList = body := by
    have h := eq_of_splitOnce hbody
    rw [List.append_nil] at h
    exact List.append_cancel_right h
  simp only [readFrame, examine, hframing, hbody, ← htext, String.ofList_toList]
  rfl

/-- A message is read as its text, if all of its chunks but the last are ASCII where it is sent in
chunks. -/
theorem Message.readFrame_frame (hint : ReadsSizes py) (msg : Message) {framing : Framing}
    (hascii : framing.chunked = true → ∀ chunk ∈ msg.chunks.dropLast, ∀ b ∈ chunk, b < 128)
    (hwhole : Whole framing.delimiter (decodeIgnore (msg.frame framing))) :
    readFrame py framing (decodeIgnore (msg.frame framing)) = some (strip msg.text) := by
  rw [Message.frame, Framing.delimiter] at *
  by_cases hc : framing.chunked = true
  · simp only [hc, if_true] at hwhole ⊢
    obtain ⟨texts, hsized, hflat, hframe⟩ := msg.exists_sized (hascii hc)
    rw [hframe, decodeIgnore_encode] at hwhole ⊢
    obtain ⟨body, hbody⟩ := hwhole
    obtain ⟨part, rest, hdec, hpart, hnil, -⟩ :=
      decodeChunks_of_sized hint hsized (eq_of_splitOnce hbody).symm
    rw [hnil rfl, List.append_nil] at hpart
    simp only [readFrame, examine, hc, if_true, hbody, hdec, ← hpart, hflat, String.ofList_toList]
  · rw [if_neg hc] at hwhole ⊢
    rw [if_neg hc] at hwhole
    exact readFrame_eomFrame (by simpa using hc) hwhole

/-! ## All of the frames -/

/-- The messages after the hello are read in the negotiated framing. -/
theorem reads_messages (framing : Framing) (hhello : framing.helloComplete = true)
    {frames : List (List Char)} (hwhole : ∀ f ∈ frames, Whole framing.delimiter f)
    {messages : List String} (hread : frames.map (readFrame py framing) = messages.map some) :
    Reads (examine py) Clear framing frames messages := by
  have hafter (m : String) : framing.after m = framing := by rw [Framing.after, if_pos hhello]
  induction frames generalizing messages with
  | nil =>
    obtain rfl : messages = [] := by simpa using hread.symm
    exact .nil framing
  | cons f frames ih =>
    cases messages with
    | nil => simp at hread
    | cons m messages =>
      rw [List.map_cons, List.map_cons, List.cons.injEq] at hread
      have hf := hwhole f List.mem_cons_self
      refine .cons hf.ne_nil (fun rest => ?_) (fun part => examine_part hf)
        (ih (fun g hg => hwhole g (List.mem_cons_of_mem _ hg)) hread.2)
      rw [examine_append hf hread.1, hafter]

/-- The hello is read before the framing is negotiated, and the messages after it. -/
theorem Exchange.reads_texts {e : Exchange} (hdelimited : e.Delimited) {messages : List String}
    (hread : e.reads py = messages.map some) :
    Reads (examine py) Clear NetconfSession.init.toFraming e.texts messages := by
  obtain ⟨hwhole, hall⟩ := hdelimited
  have hfirst : readFrame py NetconfSession.init.toFraming (decodeIgnore (eomFrame e.hello)) =
      some (strip e.hello) := readFrame_eomFrame rfl hwhole
  rw [Exchange.reads, hfirst] at hread
  cases messages with
  | nil => simp at hread
  | cons hello messages =>
    rw [List.map_cons, List.cons.injEq] at hread
    obtain ⟨hhello, hrest⟩ := hread
    obtain rfl := Option.some.inj hhello
    -- The hello is read in the framing of a new session, and the rest in the one it negotiates.
    refine .cons hwhole.ne_nil (examine_append hwhole hfirst) (fun part => examine_part hwhole) ?_
    refine reads_messages e.framing rfl ?_ ?_
    · intro f hf
      simp only [List.mem_map] at hf
      obtain ⟨frame, ⟨msg, hmsg, rfl⟩, rfl⟩ := hf
      exact hall msg hmsg
    · simp only [← hrest, List.map_map, Function.comp_def]

/-- The bytes of a frame end with a character that is ASCII. -/
theorem exists_last_of_mem_frames (e : Exchange) :
    ∀ frame ∈ e.frames, ∃ p b, frame = p ++ [b] ∧ b < 128 := by
  have heom (text : String) : ∃ p b, eomFrame text = p ++ [b] ∧ b < 128 :=
    ⟨encode (text.toList ++ [']', ']', '>', ']', ']']), 62, by simp [eomFrame, endOfMessage]; rfl,
      by decide⟩
  have hchunked (chunks : List (List UInt8)) :
      ∃ p b, chunkedFrame chunks = p ++ [b] ∧ b < 128 :=
    ⟨chunks.flatMap chunkFrame ++ encode ['\n', '#', '#'], 10,
      by simp [chunkedFrame, endOfChunks]; rfl, by decide⟩
  intro frame hframe
  rcases List.mem_cons.mp hframe with rfl | hframe
  · exact heom e.hello
  · obtain ⟨msg, -, rfl⟩ := List.mem_map.mp hframe
    rw [Message.frame]
    split_ifs
    · exact hchunked msg.chunks
    · exact heom msg.text

/-- What a receiver reads off the pieces of the frames, in slices that cut no character. -/
theorem Exchange.receive_iff_paced {e : Exchange} {recvs : List Recv} (hopen : Open recvs)
    (hvalid : ∀ data ∈ slices recvs, Valid data)
    (hbytes : (slices recvs).flatten = e.frames.flatten) (hdelimited : e.Delimited)
    (hclear : ClearCuts Clear e.texts (pieces recvs)) {messages : List String}
    (hread : e.reads py = messages.map some) :
    ((receive (examine py) NetconfSession.init.toFraming [] (pieces recvs)).1 = messages ∧
      (receive (examine py) NetconfSession.init.toFraming [] (pieces recvs)).2.2 = []) ↔
      Paced e.texts (pieces recvs) := by
  -- The frames end with ASCII characters, so that the text of the stream is that of the frames.
  have hpieces : encode (pieces recvs).flatten = e.frames.flatten := by
    rw [pieces, encode_flatten_decodeIgnore hvalid, hbytes]
  have htexts : encode e.texts.flatten = e.frames.flatten :=
    encode_flatten_decodeIgnore (valid_of_encode_eq_flatten hpieces (exists_last_of_mem_frames e))
  have hstream : (pieces recvs).flatten = e.texts.flatten :=
    encode_injective (hpieces.trans htexts.symm)
  exact Receiver.receive_iff_paced (e.reads_texts hdelimited hread)
    (fun p hp => ne_nil_of_mem_pieces hopen hvalid hp) hstream hclear

/-- A hello that does not announce NETCONF 1.1, and a message after it. -/
def helloAndRpc : Exchange where
  hello := "<hello/>"
  messages :=
    [{  text := "<rpc/>"
        chunks := [encode ['<', 'r', 'p', 'c', '/', '>']]
        chunks_ne_nil := by decide +kernel
        ne_nil_of_mem := by decide +kernel
        length_le_of_mem := by decide +kernel
        flatten_chunks := by decide +kernel }]

/-- In paced slices that cut no character, the calls return the hello and the messages themselves, up
to the white space around them, if all of the chunks of a message but the last are ASCII where there
are chunks. -/
theorem receiveAll_of_paced (hint : ReadsSizes py) {e : Exchange} {recvs : List Recv}
    (hopen : Open recvs) (hvalid : ∀ data ∈ slices recvs, Valid data)
    (hbytes : (slices recvs).flatten = e.frames.flatten) (hdelimited : e.Delimited)
    (hclear : ClearCuts Clear e.texts (pieces recvs)) (hpaced : Paced e.texts (pieces recvs))
    (hascii : e.framing.chunked = true →
      ∀ msg ∈ e.messages, ∀ chunk ∈ msg.chunks.dropLast, ∀ b ∈ chunk, b < 128) :
    (receiveAll py recvs).1 = strip e.hello :: e.messages.map (strip ·.text) ∧
      (receiveAll py recvs).2.buffer = [] := by
  obtain ⟨hmessages, hbuffer⟩ := receiveAll_eq_receive py hopen
  rw [hmessages, hbuffer]
  refine (e.receive_iff_paced hopen hvalid hbytes hdelimited hclear ?_).mpr hpaced
  rw [Exchange.reads, readFrame_eomFrame rfl hdelimited.1, List.map_cons, List.map_map]
  refine congrArg (_ :: ·) (List.map_congr_left fun msg hmsg => ?_)
  exact msg.readFrame_frame hint (fun hc => hascii hc msg hmsg) (hdelimited.2 msg hmsg)

end ControlPlane.Secure
