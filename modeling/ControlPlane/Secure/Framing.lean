import ControlPlane.Lib.Receiver
import ControlPlane.Lib.Text
import ControlPlane.Lib.Utf8

/-!
# The framing of NETCONF messages

The model of `receive_message` in `netconf/netconf_session.py` and of the calls that `run` makes of
it, and the two framings that a client sends its messages in: the end-of-message delimiter of
NETCONF 1.0, and the chunks of NETCONF 1.1. The socket is the list of what its `recv` calls give, one
after the other. A session decodes each piece of data by itself and puts the text at the end of its
buffer, and it looks at the buffer once for each piece.
-/

namespace ControlPlane.Secure

open Text Utf8 Receiver

/-! ## Decoding -/

/-- `'\n##\n'`, the end of a message in chunks. -/
def endOfChunks : List Char := ['\n', '#', '#', '\n']

/-- `']]>]]>'`, the end of a message without chunks. -/
def endOfMessage : List Char := [']', ']', '>', ']', ']', '>']

/-- The loop of `receive_message` over a message in chunks, from `pos` on, with what it has decoded.
The size of a chunk may be negative, so that the loop can go back and then never ends. Its course
depends on `pos` alone, which is in the range of the indices of `msg` until the loop ends, so that
it never ends if it has not ended after twice as many steps as `msg` has characters: the answer is
then `none`. -/
def chunkLoop (py : PyText) (msg : List Char) : ℕ → ℤ → List Char → Option (List Char)
  | 0, _, _ => none
  | fuel + 1, pos, decoded =>
    if pos < msg.length then
      if getAt msg pos = some '#' then
        match find '\n' msg pos with
        | none => some decoded
        | some newlinePos =>
          match py.int (String.ofList (slice msg (pos + 1) newlinePos)) with
          | none => some decoded
          | some chunkSize =>
            let dataStart : ℤ := newlinePos + 1
            -- The size counts the bytes of the chunk, and the slice takes as many characters.
            let dataEnd : ℤ := dataStart + chunkSize
            let decoded := decoded ++ slice msg dataStart dataEnd
            if dataEnd < msg.length then
              match getAt msg dataEnd with
              -- The `IndexError` of a position before the start of the text ends the loop.
              | none => some decoded
              | some c => chunkLoop py msg fuel (if c = '\n' then dataEnd + 1 else dataEnd) decoded
            else chunkLoop py msg fuel dataEnd decoded
      else chunkLoop py msg fuel (pos + 1) decoded
    else some decoded

/-- The text of a message in chunks, with `none` when the loop over it never ends. -/
def decodeChunks (py : PyText) (msg : List Char) : Option (List Char) :=
  let msg := msg.dropWhile (· = '\n')
  chunkLoop py msg (2 * msg.length + 1) 0 []

/-! ## Sessions -/

/-- The framing that a session is in. -/
structure Framing where
  /-- `use_chunked`: NETCONF 1.1 was negotiated. -/
  useChunked : Bool
  /-- `hello_complete`: the exchange of hellos is over. -/
  helloComplete : Bool
  deriving DecidableEq

/-- Whether the messages are in chunks. -/
def Framing.chunked (framing : Framing) : Bool := framing.useChunked && framing.helloComplete

/-- The capability of NETCONF 1.1. -/
def BASE_1_1 : String := "urn:ietf:params:netconf:base:1.1"

/-- What `run` makes of the hello of a client. -/
def Framing.negotiate (framing : Framing) (hello : String) : Framing :=
  { useChunked := framing.useChunked || containsText BASE_1_1 hello, helloComplete := true }

/-- The framing after a message: the first message is the hello. -/
def Framing.after (framing : Framing) (msg : String) : Framing :=
  if framing.helloComplete then framing else framing.negotiate msg

/-- The part of `NetconfSession` that `receive_message` uses. -/
structure NetconfSession extends Framing where
  /-- What has been received and not been read yet. -/
  buffer : List Char
  /-- `running`: the session has not been closed. -/
  running : Bool

/-- What the buffer holds once a piece of data has come in. A message comes with the framing that
`run` goes on in after it. -/
def examine (py : PyText) (framing : Framing) (buffer : List Char) : Look Framing Char String :=
  -- The end of the chunks is looked for in the text, before any size is read.
  match if framing.chunked then splitOnce endOfChunks buffer else none with
  | some (msg, rest) =>
    match decodeChunks py msg with
    | some decoded =>
      let result := strip (String.ofList decoded)
      .take result (framing.after result) rest
    | none => .stuck
  | none =>
    -- Without it, a session in chunked mode looks for the other delimiter too.
    match splitOnce endOfMessage buffer with
    | some (msg, rest) =>
      let result := strip (String.ofList msg)
      .take result (framing.after result) rest
    | none => .wait

/-- What a call of `recv` gives: data, which is empty when the peer has closed the connection; a
timeout; or an error of the connection. -/
inductive Recv where
  | data (bytes : List UInt8)
  | timeout
  | error
  deriving DecidableEq

/-- What becomes of a call of `receive_message`: it returns a message, or `(None, True)`; it waits
for the next `recv`; or it is in a loop that never ends. -/
inductive Received where
  | message (text : String)
  | closed
  | waiting
  | stuck
  deriving DecidableEq

/-- `receive_message`, with the session and the rest of the socket after it. -/
def receiveMessage (py : PyText) :
    NetconfSession → List Recv → Received × NetconfSession × List Recv
  | s, [] => if s.running then (.waiting, s, []) else (.closed, s, [])
  | s, recv :: recvs =>
    if s.running then
      match recv with
      | .timeout => receiveMessage py s recvs
      | .error => (.closed, s, recvs)
      | .data data =>
        if data = [] then (.closed, s, recvs)
        else
          -- Each piece of data is decoded by itself: a character that it cuts is lost.
          let buffer := s.buffer ++ decodeIgnore data
          match examine py s.toFraming buffer with
          | .take msg _ rest => (.message msg, { s with buffer := rest }, recvs)
          | .wait => receiveMessage py { s with buffer := buffer } recvs
          | .stuck => (.stuck, { s with buffer := buffer }, recvs)
    else (.closed, s, recv :: recvs)

/-- The messages that so many calls of `receive_message` return, one after the other, and the session
after them. The calls end when one of them returns no message. -/
def successive (py : PyText) : ℕ → NetconfSession → List Recv → List String × NetconfSession
  | 0, s, _ => ([], s)
  | calls + 1, s, recvs =>
    match receiveMessage py s recvs with
    | (.message msg, s', recvs') =>
      let r := successive py calls { s' with toFraming := s'.toFraming.after msg } recvs'
      (msg :: r.1, r.2)
    | (_, s', _) => ([], s')

/-- A session as `NetconfSession.__init__` makes it. -/
def NetconfSession.init : NetconfSession :=
  { useChunked := false, helloComplete := false, buffer := [], running := true }

/-- The messages that the successive calls of `receive_message` return in a new session. Each call
takes at least one `recv`, so that there are no more calls to make than there are of these. -/
def receiveAll (py : PyText) (recvs : List Recv) : List String × NetconfSession :=
  successive py recvs.length .init recvs

/-- The loop of `run` over the messages after the hello: those that it hands to `handle_rpc`, from
the given numbers of calls, of requests and of idle turns on. `handleRpc` tells whether the session
still runs after the request of the given number. An empty message counts as an idle turn, and the
loop ends with the 60th of them in a row. -/
def runLoop (py : PyText) (handleRpc : ℕ → String → Bool) :
    ℕ → ℕ → ℕ → NetconfSession → List Recv → List String
  | 0, _, _, _, _ => []
  | calls + 1, requestCount, idleCount, s, recvs =>
    match receiveMessage py s recvs with
    | (.message msg, s', recvs') =>
      if msg = "" then
        if 60 ≤ idleCount + 1 then []
        else runLoop py handleRpc calls requestCount (idleCount + 1) s' recvs'
      else if handleRpc (requestCount + 1) msg then
        msg :: runLoop py handleRpc calls (requestCount + 1) 0 s' recvs'
      else [msg]
    | _ => []

/-- `run`: the messages that it hands to `handle_rpc`. Without a hello there are none. The call for
the hello has taken one `recv` at least, which leaves as many calls as there are others. -/
def run (py : PyText) (handleRpc : ℕ → String → Bool) (recvs : List Recv) : List String :=
  match receiveMessage py .init recvs with
  | (.message hello, s, recvs') =>
    if hello = "" then []
    else
      runLoop py handleRpc (recvs.length - 1) 0 0
        { s with toFraming := s.toFraming.negotiate hello } recvs'
  | _ => []

/-! ## What a client sends -/

/-- A text with the end-of-message delimiter, as bytes. -/
def eomFrame (text : String) : List UInt8 := encode (text.toList ++ endOfMessage)

/-- A chunk: its size in bytes, and the bytes. -/
def chunkFrame (chunk : List UInt8) : List UInt8 :=
  encode ('\n' :: '#' :: (toString chunk.length).toList ++ ['\n']) ++ chunk

/-- Chunks, and the end of them. -/
def chunkedFrame (chunks : List (List UInt8)) : List UInt8 :=
  chunks.flatMap chunkFrame ++ encode endOfChunks

/-- A message, with a chunking of its UTF-8 bytes that RFC 6242 allows. -/
structure Message where
  /-- The text of the message. -/
  text : String
  /-- The bytes of its chunks. -/
  chunks : List (List UInt8)
  /-- There is a chunk. -/
  chunks_ne_nil : chunks ≠ []
  /-- No chunk is empty. -/
  ne_nil_of_mem : ∀ chunk ∈ chunks, chunk ≠ []
  /-- The size of a chunk is at most 4294967295. -/
  length_le_of_mem : ∀ chunk ∈ chunks, chunk.length ≤ 4294967295
  /-- The chunks are the bytes of the text. -/
  flatten_chunks : chunks.flatten = encode text.toList

/-- What a client sends: a hello, and messages. -/
structure Exchange where
  /-- The text of the hello. -/
  hello : String
  /-- The messages after the hello. -/
  messages : List Message

/-- The framing that the hello of the client negotiates. -/
def Exchange.framing (e : Exchange) : Framing := NetconfSession.init.after (strip e.hello)

/-- The bytes of a message in a framing. -/
def Message.frame (msg : Message) (framing : Framing) : List UInt8 :=
  if framing.chunked then chunkedFrame msg.chunks else eomFrame msg.text

/-- The frames that the client sends: the hello with the end-of-message delimiter, and the messages
in the negotiated framing. -/
def Exchange.frames (e : Exchange) : List (List UInt8) :=
  eomFrame e.hello :: e.messages.map (Message.frame · e.framing)

/-- The data that arrives at a socket. -/
def slices (recvs : List Recv) : List (List UInt8) :=
  recvs.filterMap fun recv =>
    match recv with
    | .data data => some data
    | _ => none

/-- The connection is open: there is no error at the socket, and the peer has not closed it. -/
def Open (recvs : List Recv) : Prop := ∀ recv ∈ recvs, recv ≠ .error ∧ recv ≠ .data []

instance (recvs : List Recv) : Decidable (Open recvs) :=
  inferInstanceAs (Decidable (∀ recv ∈ recvs, recv ≠ .error ∧ recv ≠ .data []))

/-! ## The calls as a receiver -/

variable {py : PyText}

/-- The texts that a session puts into its buffer, one after the other. -/
def pieces (recvs : List Recv) : List (List Char) := (slices recvs).map decodeIgnore

@[simp]
theorem pieces_nil : pieces [] = [] := rfl

@[simp]
theorem pieces_timeout (recvs : List Recv) : pieces (.timeout :: recvs) = pieces recvs := rfl

@[simp]
theorem pieces_data (data : List UInt8) (recvs : List Recv) :
    pieces (.data data :: recvs) = decodeIgnore data :: pieces recvs := rfl

theorem Open.tail {recv : Recv} {recvs : List Recv} (h : Open (recv :: recvs)) : Open recvs :=
  fun r hr => h r (List.mem_cons_of_mem _ hr)

theorem mem_slices {data : List UInt8} {recvs : List Recv} :
    data ∈ slices recvs ↔ .data data ∈ recvs := by
  rw [slices, List.mem_filterMap]
  constructor
  · rintro ⟨recv, hmem, he⟩
    cases recv with
    | data d =>
      obtain rfl : d = data := by simpa using he
      exact hmem
    | timeout => simp at he
    | error => simp at he
  · exact fun hmem => ⟨_, hmem, rfl⟩

/-- Valid slices are texts that are not empty. -/
theorem ne_nil_of_mem_pieces {recvs : List Recv} (hopen : Open recvs)
    (hvalid : ∀ data ∈ slices recvs, Valid data) {p : List Char} (hp : p ∈ pieces recvs) :
    p ≠ [] := by
  obtain ⟨data, hdata, rfl⟩ := List.mem_map.mp hp
  intro hnil
  have hempty := (hvalid data hdata).encode_decodeIgnore
  rw [hnil, encode_nil] at hempty
  subst hempty
  exact (hopen _ (mem_slices.mp hdata)).2 rfl

theorem Open.data_ne_nil {data : List UInt8} {recvs : List Recv}
    (h : Open (.data data :: recvs)) : data ≠ [] := by
  rintro rfl
  exact (h _ List.mem_cons_self).2 rfl

/-- A call returns the first message that a receiver reads off the pieces. -/
theorem receiveMessage_eq_message_iff (framing : Framing) (buffer : List Char) {recvs : List Recv}
    (hopen : Open recvs) (m : String) :
    (receiveMessage py ⟨framing, buffer, true⟩ recvs).1 = .message m ↔
      (receive (examine py) framing buffer (pieces recvs)).1.head? = some m := by
  induction recvs generalizing buffer with
  | nil => simp [receiveMessage, receive]
  | cons recv recvs ih =>
    cases recv with
    | timeout => simpa [receiveMessage] using ih buffer hopen.tail
    | error => exact absurd rfl (hopen _ List.mem_cons_self).1
    | data data =>
      simp only [receiveMessage, if_true, hopen.data_ne_nil, if_false, pieces_data, receive]
      cases hex : examine py framing (buffer ++ decodeIgnore data) with
      | wait => exact ih _ hopen.tail
      | take msg framing' rest => simp
      | stuck => simp

/-- The framing that comes with a message is the one after it. -/
theorem eq_after_of_examine {framing framing' : Framing} {buffer rest : List Char} {m : String}
    (h : examine py framing buffer = .take m framing' rest) : framing' = framing.after m := by
  rw [examine] at h
  split at h
  · split at h
    · cases h
      rfl
    · cases h
  · split at h
    · cases h
      rfl
    · cases h

/-- As many calls as there are `recv`s give what a receiver reads off the pieces. -/
theorem successive_eq_receive (py : PyText) (framing : Framing) (buffer : List Char) {recvs : List Recv}
    (hopen : Open recvs) (calls : ℕ) (hcalls : recvs.length ≤ calls) :
    (successive py calls ⟨framing, buffer, true⟩ recvs).1 =
        (receive (examine py) framing buffer (pieces recvs)).1 ∧
      (successive py calls ⟨framing, buffer, true⟩ recvs).2.buffer =
        (receive (examine py) framing buffer (pieces recvs)).2.2 := by
  induction recvs generalizing framing buffer calls with
  | nil => cases calls <;> simp [successive, receiveMessage, receive]
  | cons recv recvs ih =>
    rw [List.length_cons] at hcalls
    obtain ⟨calls, rfl⟩ := Nat.exists_eq_succ_of_ne_zero (Nat.ne_of_gt (Nat.zero_lt_of_lt hcalls))
    cases recv with
    | timeout =>
      -- A timeout is passed over by the call that it comes in.
      have hskip : successive py (calls + 1) ⟨framing, buffer, true⟩ (.timeout :: recvs) =
          successive py (calls + 1) ⟨framing, buffer, true⟩ recvs := by
        simp only [successive, receiveMessage, if_true]
      rw [Nat.succ_eq_add_one, hskip]
      exact ih framing buffer hopen.tail (calls + 1) (by omega)
    | error => exact absurd rfl (hopen _ List.mem_cons_self).1
    | data data =>
      simp only [successive, receiveMessage, if_true, hopen.data_ne_nil, if_false, pieces_data,
        receive]
      cases hex : examine py framing (buffer ++ decodeIgnore data) with
      | wait =>
        -- The call goes on, so that the number of calls stays.
        exact ih framing _ hopen.tail (calls + 1) (by omega)
      | take msg framing' rest =>
        rw [eq_after_of_examine hex]
        have hrest := ih (framing.after msg) rest hopen.tail calls (by omega)
        exact ⟨congrArg (msg :: ·) hrest.1, hrest.2⟩
      | stuck => exact ⟨rfl, rfl⟩

/-- The calls in a new session give what a receiver with an empty buffer reads off the pieces. -/
theorem receiveAll_eq_receive (py : PyText) {recvs : List Recv} (hopen : Open recvs) :
    (receiveAll py recvs).1 =
        (receive (examine py) NetconfSession.init.toFraming [] (pieces recvs)).1 ∧
      (receiveAll py recvs).2.buffer =
        (receive (examine py) NetconfSession.init.toFraming [] (pieces recvs)).2.2 :=
  successive_eq_receive py NetconfSession.init.toFraming [] hopen recvs.length le_rfl

/-! ## What `run` hands on -/

/-- A call of `receive_message` leaves the framing as it is. -/
theorem toFraming_receiveMessage (py : PyText) (s : NetconfSession) (recvs : List Recv) :
    (receiveMessage py s recvs).2.1.toFraming = s.toFraming := by
  induction recvs generalizing s with
  | nil =>
    simp only [receiveMessage]
    split_ifs <;> rfl
  | cons recv recvs ih =>
    by_cases hrun : s.running = true
    · cases recv with
      | timeout => simpa only [receiveMessage, hrun, if_true] using ih s
      | error => simp only [receiveMessage, hrun, if_true]
      | data data =>
        by_cases hdata : data = []
        · simp only [receiveMessage, hrun, if_true, hdata]
        · simp only [receiveMessage, hrun, if_true, hdata, if_false]
          cases examine py s.toFraming (s.buffer ++ decodeIgnore data) with
          | take msg framing rest => rfl
          | wait => exact ih _
          | stuck => rfl
    · cases recv <;> simp [receiveMessage, hrun]

/-- The loop of `run` hands on the messages that the calls return, in order, the empty ones left
out. -/
theorem runLoop_prefix (handleRpc : ℕ → String → Bool) {s : NetconfSession}
    (hhello : s.helloComplete = true) (calls requestCount idleCount : ℕ) (recvs : List Recv) :
    runLoop py handleRpc calls requestCount idleCount s recvs <+:
      (successive py calls s recvs).1.filter (· ≠ "") := by
  induction calls generalizing requestCount idleCount s recvs with
  | zero => exact List.prefix_rfl
  | succ calls ih =>
    have hframing := toFraming_receiveMessage py s recvs
    rw [runLoop, successive]
    generalize receiveMessage py s recvs = out at hframing ⊢
    obtain ⟨received, s', recvs'⟩ := out
    cases received with
    | message msg =>
      have hs' : s'.helloComplete = true := by
        rw [← hhello]
        exact congrArg Framing.helloComplete hframing
      -- The hello is over, so that both go on with the same session.
      have hafter : { s' with toFraming := s'.toFraming.after msg } = s' := by
        rw [Framing.after, if_pos hs']
      simp only [hafter]
      split_ifs with hempty hidle hgoes
      -- Too many empty messages in a row; one that is passed over; a request after which the
      -- session still runs; and one after which it does not.
      · exact List.nil_prefix
      · simpa [hempty] using ih hs' requestCount (idleCount + 1) recvs'
      · simpa [hempty] using ih hs' (requestCount + 1) 0 recvs'
      · simp [hempty]
    | closed => exact List.nil_prefix
    | waiting => exact List.nil_prefix
    | stuck => exact List.nil_prefix

/-- `run` hands on a part of what the calls return after the hello, from the start on and in order,
the empty messages left out. -/
theorem run_prefix (handleRpc : ℕ → String → Bool) (recvs : List Recv) :
    run py handleRpc recvs <+: (receiveAll py recvs).1.tail.filter (· ≠ "") := by
  cases recvs with
  | nil => exact List.nil_prefix
  | cons recv recvs =>
    have hframing := toFraming_receiveMessage py .init (recv :: recvs)
    rw [run, receiveAll, List.length_cons, successive]
    generalize receiveMessage py .init (recv :: recvs) = out at hframing ⊢
    obtain ⟨received, s, recvs'⟩ := out
    cases received with
    | message hello =>
      -- The first message is the hello, and the framing is negotiated with it.
      have hafter : s.toFraming.after hello = s.toFraming.negotiate hello := by
        have hhello : s.helloComplete = false := congrArg Framing.helloComplete hframing
        rw [Framing.after, hhello]
        rfl
      simp only [hafter, Nat.add_sub_cancel]
      split_ifs
      · exact List.nil_prefix
      · exact runLoop_prefix handleRpc rfl _ _ _ _
    | closed => exact List.nil_prefix
    | waiting => exact List.nil_prefix
    | stuck => exact List.nil_prefix

end ControlPlane.Secure
