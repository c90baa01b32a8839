import ControlPlane.Ids.Hub
import ControlPlane.Stream.Consumer

/-!
# From the event file to the consumer

The text of the alerts on their way: `_broadcast` and `_stream` of `ids-api.py` write it,
`consumeSSE` of the agent takes it apart and broadcasts the data, `eventsHandler` writes it again,
and the lines of `_consume` are what the consumer finds in it.

`consumeSSE_upText` says what the agent takes from any part of the stream: every alert that has come
whole, up to the first one that does not fit into the buffer of the scanner, and at most one piece
of an alert that was cut off. `alerts_reach` is the way of the alerts to the consumer through any
run of the hub.
-/

namespace ControlPlane.Stream

open JsonText Ids.Hub Fanout Runs

variable {Obj : Type}

/-! ## What `ids-api.py` writes -/

/-- What the thread of a client writes. -/
inductive UpFrame (Obj : Type) where
  | connected
  /-- When there was nothing for 15 seconds. -/
  | heartbeat
  /-- A message of `_broadcast`. -/
  | alert (ev : PyVal Obj)

/-- The line of a frame, which a blank line follows. -/
def UpFrame.line : UpFrame Obj → PyStr
  | connected => u ": connected"
  | heartbeat => u ": hb"
  | alert ev => u "data: " ++ Interp.print ev

/-- The text of a frame. -/
def UpFrame.text (f : UpFrame Obj) : PyStr := f.line ++ [10, 10]

/-- The text of the stream. -/
def upText (frames : List (UpFrame Obj)) : PyStr := frames.flatMap UpFrame.text

/-- The texts of the alerts of a stream. -/
def alertTexts (frames : List (UpFrame Obj)) : List PyStr :=
  frames.filterMap fun f => match f with
    | .alert ev => some (Interp.print ev)
    | _ => none

/-! ## What the agent takes from it -/

/-- The code points that `unicode.IsSpace` accepts. -/
def isSpaceGo (c : CodePoint) : Bool :=
  (9 ≤ c ∧ c ≤ 13) ∨ c = 32 ∨ c = 0x85 ∨ c = 0xa0 ∨ c = 0x1680 ∨ (0x2000 ≤ c ∧ c ≤ 0x200a) ∨
    c = 0x2028 ∨ c = 0x2029 ∨ c = 0x202f ∨ c = 0x205f ∨ c = 0x3000

/-- `strings.TrimSpace`. -/
def trimSpace (s : PyStr) : PyStr := (s.dropWhile isSpaceGo).rdropWhile isSpaceGo

/-- The limit in `scanner.Buffer`. -/
def SCAN_LIMIT : ℕ := 256 * 1024

/-- The bytes of a text. -/
def byteLength (s : PyStr) : ℕ :=
  (s.map fun c => if c.val < 0x80 then 1 else if c.val < 0x800 then 2
    else if c.val < 0x10000 then 3 else 4).sum

/-- The end of a line may be `\r\n`. -/
def dropCR (line : PyStr) : PyStr := if line.getLast? = some 13 then line.dropLast else line

/-- The lines that `Scan` gives, and whether it stops with `ErrTooLong`, for the parts between the
line ends. What is after the last line end is a line when the stream is over. -/
def scanLines : List PyStr → List PyStr × Bool
  | [] => ([], false)
  | [last] =>
    if SCAN_LIMIT ≤ byteLength last then ([], true)
    else if last = [] then ([], false)
    else ([dropCR last], false)
  | l :: rest =>
    if SCAN_LIMIT ≤ byteLength l then ([], true)
    else (dropCR l :: (scanLines rest).1, (scanLines rest).2)

/-- The data of a line that is broadcast. -/
def dataOf (line : PyStr) : Option PyStr :=
  if (u "data: ").isPrefixOf line then
    let data := trimSpace (line.drop 6)
    if data = [] ∨ data = u "heartbeat" then none else some data
  else none

/-- The loop of `consumeSSE` over a stream that is over, with what it broadcasts and whether it ends
with `ErrTooLong`. -/
def consumeSSE (text : PyStr) : List PyStr × Bool :=
  ((scanLines (text.splitOn 10)).1.filterMap dataOf, (scanLines (text.splitOn 10)).2)

/-- The line of a frame fits into the buffer, with its end. -/
def UpFrame.Fits (f : UpFrame Obj) : Prop := byteLength f.line < SCAN_LIMIT

instance (f : UpFrame Obj) : Decidable f.Fits := inferInstanceAs (Decidable (_ < _))

/-- An alert is a dict. -/
def UpFrame.Sent : UpFrame Obj → Prop
  | alert ev => ∃ items, ev = .dict items
  | _ => True

/-! ### Texts of dicts -/

/-- A text of a dict, which is one line without white space around it. -/
structure DictLine (s : PyStr) : Prop where
  printable : Printable s
  braces : ∃ body, s = 123 :: (body ++ [125])

theorem dictLine_print {ev : PyVal Obj} (hdict : ∃ items, ev = .dict items) :
    DictLine (Interp.print ev) := by
  obtain ⟨items, rfl⟩ := hdict
  exact ⟨printable_print _, _, rfl⟩

theorem notMem_of_printable {s : PyStr} (h : Printable s) {c : CodePoint} (hc : c.val < 32) :
    c ∉ s := by
  intro hmem
  have hrange := h c hmem
  omega

/-- Trimming leaves the text of a dict alone. -/
theorem trim_eq_self {p : CodePoint → Bool} {s : PyStr} (h : ∃ body, s = 123 :: (body ++ [125]))
    (h123 : p 123 = false) (h125 : p 125 = false) : (s.dropWhile p).rdropWhile p = s := by
  obtain ⟨body, rfl⟩ := h
  rw [List.dropWhile_cons_of_neg (by simp [h123]), ← List.cons_append]
  exact List.rdropWhile_concat_neg p _ _ (by simp [h125])

theorem DictLine.trimSpace_eq {s : PyStr} (h : DictLine s) : trimSpace s = s :=
  trim_eq_self h.braces (by decide) (by decide)

theorem DictLine.ne_nil {s : PyStr} (h : DictLine s) : s ≠ [] := by
  obtain ⟨body, rfl⟩ := h.braces
  exact List.cons_ne_nil _ _

theorem DictLine.ne_heartbeat {s : PyStr} (h : DictLine s) : s ≠ u "heartbeat" := by
  obtain ⟨body, rfl⟩ := h.braces
  intro heq
  exact absurd (List.cons.inj heq).1 (by decide)

theorem printable_data : Printable (u "data: ") := printable_u (by decide)

theorem dropCR_of_printable {l : PyStr} (h : Printable l) : dropCR l = l := by
  refine if_neg fun hlast => ?_
  exact notMem_of_printable h (c := 13) (by decide) (List.mem_of_getLast? hlast)

theorem dataOf_data (s : PyStr) : dataOf (u "data: " ++ s) =
    if trimSpace s = [] ∨ trimSpace s = u "heartbeat" then none else some (trimSpace s) := by
  rw [dataOf, if_pos]
  · rfl
  · exact List.isPrefixOf_iff_prefix.mpr ⟨s, rfl⟩

theorem dataOf_dictLine {s : PyStr} (h : DictLine s) : dataOf (u "data: " ++ s) = some s := by
  rw [dataOf_data, h.trimSpace_eq, if_neg]
  rintro (hnil | hheartbeat)
  · exact h.ne_nil hnil
  · exact h.ne_heartbeat hheartbeat

/-! ### The scanner -/

/-- A line that fits, with what follows it. -/
theorem consumeSSE_line {l : PyStr} (h10 : 10 ∉ l) (hfits : byteLength l < SCAN_LIMIT)
    (rest : PyStr) : consumeSSE (l ++ 10 :: rest) =
      ((dataOf (dropCR l)).toList ++ (consumeSSE rest).1, (consumeSSE rest).2) := by
  have hsplit : (l ++ 10 :: rest).splitOn 10 = l :: rest.splitOn 10 :=
    List.splitOn_append_cons_self_of_not_mem h10 rest
  have hne : rest.splitOn 10 ≠ [] := List.splitOn_ne_nil 10 rest
  unfold consumeSSE
  rw [hsplit]
  cases hrest : rest.splitOn 10 with
  | nil => exact absurd hrest hne
  | cons a as =>
    rw [scanLines, if_neg (by omega)]
    cases hdata : dataOf (dropCR l) with
    | none => rw [List.filterMap_cons_none hdata]; rfl
    | some data => rw [List.filterMap_cons_some hdata]; rfl
    · exact nofun

/-- A line that does not fit ends the loop. -/
theorem consumeSSE_tooLong {l : PyStr} (h10 : 10 ∉ l) (hlong : SCAN_LIMIT ≤ byteLength l)
    (rest : PyStr) : consumeSSE (l ++ 10 :: rest) = ([], true) := by
  have hsplit : (l ++ 10 :: rest).splitOn 10 = l :: rest.splitOn 10 :=
    List.splitOn_append_cons_self_of_not_mem h10 rest
  unfold consumeSSE
  rw [hsplit]
  cases hrest : rest.splitOn 10 with
  | nil => exact absurd hrest (List.splitOn_ne_nil 10 rest)
  | cons a as =>
    rw [scanLines, if_pos hlong]
    · rfl
    · exact nofun

/-! ### The stream -/

theorem UpFrame.printable_line (f : UpFrame Obj) : Printable f.line := by
  cases f with
  | connected => exact printable_u (by decide)
  | heartbeat => exact printable_u (by decide)
  | alert ev => exact printable_data.append (printable_print ev)

theorem UpFrame.notMem_line (f : UpFrame Obj) : 10 ∉ f.line :=
  notMem_of_printable f.printable_line (by decide)

/-- What is broadcast for the line of a frame. -/
def UpFrame.data (f : UpFrame Obj) : Option PyStr :=
  match f with
  | alert ev => some (Interp.print ev)
  | _ => none

theorem alertTexts_cons (f : UpFrame Obj) (frames : List (UpFrame Obj)) :
    alertTexts (f :: frames) = f.data.toList ++ alertTexts frames := by
  cases f with
  | alert ev => rfl
  | _ => rfl

theorem dataOf_line {f : UpFrame Obj} (hsent : f.Sent) :
    dataOf (dropCR f.line) = f.data := by
  rw [dropCR_of_printable f.printable_line]
  have hcomment (l : PyStr) (hl : (u "data: ").isPrefixOf l = false) : dataOf l = none :=
    if_neg (by simp [hl])
  cases f with
  | connected => exact hcomment (u ": connected") (by decide)
  | heartbeat => exact hcomment (u ": hb") (by decide)
  | alert ev => exact dataOf_dictLine (dictLine_print hsent)

/-- The blank line after a frame. -/
theorem consumeSSE_blank (rest : PyStr) : consumeSSE (10 :: rest) = consumeSSE rest := by
  have h := consumeSSE_line (l := []) List.not_mem_nil (by decide) rest
  rw [List.nil_append] at h
  rw [h]
  rfl

/-- A frame that fits, with what follows it. -/
theorem consumeSSE_frame {f : UpFrame Obj} (hsent : f.Sent) (hfits : f.Fits)
    (rest : PyStr) : consumeSSE (f.text ++ rest) =
      (f.data.toList ++ (consumeSSE rest).1, (consumeSSE rest).2) := by
  have htext : f.text ++ rest = f.line ++ 10 :: (10 :: rest) := by simp [UpFrame.text]
  rw [htext, consumeSSE_line f.notMem_line hfits, consumeSSE_blank, dataOf_line hsent]

theorem consumeSSE_frame_tooLong {f : UpFrame Obj} (hlong : ¬ f.Fits) (rest : PyStr) :
    consumeSSE (f.text ++ rest) = ([], true) := by
  have htext : f.text ++ rest = f.line ++ 10 :: (10 :: rest) := by simp [UpFrame.text]
  rw [htext, consumeSSE_tooLong f.notMem_line (not_lt.mp hlong)]

/-- Frames that all fit, with what follows them. -/
theorem consumeSSE_upText {frames : List (UpFrame Obj)}
    (hsent : ∀ f ∈ frames, f.Sent) (hfits : ∀ f ∈ frames, f.Fits) (rest : PyStr) :
    consumeSSE (upText frames ++ rest) =
      (alertTexts frames ++ (consumeSSE rest).1, (consumeSSE rest).2) := by
  induction frames with
  | nil => rfl
  | cons f frames ih =>
    have htext : upText (f :: frames) ++ rest = f.text ++ (upText frames ++ rest) := by
      simp [upText]
    rw [htext, consumeSSE_frame (hsent f List.mem_cons_self) (hfits f List.mem_cons_self),
      ih (fun g hg => hsent g (List.mem_cons_of_mem f hg))
        fun g hg => hfits g (List.mem_cons_of_mem f hg), alertTexts_cons, List.append_assoc]

/-- The loop ends at the first frame that does not fit. -/
theorem consumeSSE_upText_tooLong {frames : List (UpFrame Obj)}
    (hsent : ∀ f ∈ frames, f.Sent) (hlong : ∃ f ∈ frames, ¬ f.Fits) (rest : PyStr) :
    consumeSSE (upText frames ++ rest) =
      (alertTexts (frames.takeWhile fun f => f.Fits), true) := by
  induction frames with
  | nil => exact absurd hlong.choose_spec.1 List.not_mem_nil
  | cons f frames ih =>
    have htext : upText (f :: frames) ++ rest = f.text ++ (upText frames ++ rest) := by
      simp [upText]
    rw [htext]
    by_cases hf : f.Fits
    · have hrest : ∃ g ∈ frames, ¬ g.Fits := by
        obtain ⟨g, hg, hlong⟩ := hlong
        rcases List.mem_cons.mp hg with rfl | hg
        · exact absurd hf hlong
        · exact ⟨g, hg, hlong⟩
      rw [consumeSSE_frame (hsent f List.mem_cons_self) hf,
        ih (fun g hg => hsent g (List.mem_cons_of_mem f hg)) hrest,
        List.takeWhile_cons_of_pos (by simp [hf]), alertTexts_cons]
    · rw [consumeSSE_frame_tooLong hf, List.takeWhile_cons_of_neg (by simp [hf])]
      rfl

/-- What is taken from a stream are its alerts, from the first one on. -/
theorem consumeSSE_isPrefix {frames : List (UpFrame Obj)} (hsent : ∀ f ∈ frames, f.Sent) :
    (consumeSSE (upText frames)).1 <+: alertTexts frames := by
  rw [← List.append_nil (upText frames)]
  by_cases hlong : ∃ f ∈ frames, ¬ f.Fits
  · rw [consumeSSE_upText_tooLong hsent hlong]
    exact (List.takeWhile_prefix _).filterMap _
  · push Not at hlong
    rw [consumeSSE_upText hsent hlong, show (consumeSSE []).1 = [] from rfl, List.append_nil]

/-! ### A stream that is cut off -/

/-- Without a line end there is one line at most. -/
theorem consumeSSE_of_notMem {l : PyStr} (h10 : 10 ∉ l) :
    (consumeSSE l).1 = [] ∨ (consumeSSE l).1 = (dataOf (dropCR l)).toList := by
  unfold consumeSSE
  rw [List.splitOn_eq_singleton h10, scanLines]
  split_ifs
  · exact .inl rfl
  · exact .inl rfl
  · refine .inr ?_
    cases hdata : dataOf (dropCR l) with
    | none => rw [List.filterMap_cons_none hdata]; rfl
    | some data => rw [List.filterMap_cons_some hdata]; rfl

/-- Trimming the front part of the text of a dict cuts at its end only. -/
theorem trimSpace_prefix {s p : PyStr} (h : DictLine s) (hp : p <+: s) : trimSpace p <+: s := by
  refine List.IsPrefix.trans ?_ hp
  have hfront : p.dropWhile isSpaceGo = p := by
    cases p with
    | nil => rfl
    | cons c p =>
      obtain ⟨body, rfl⟩ := h.braces
      obtain ⟨tail, htail⟩ := hp
      have hc : c = 123 := (List.cons.inj htail).1
      rw [hc]
      exact List.dropWhile_cons_of_neg (by decide)
  unfold trimSpace
  rw [hfront]
  exact List.rdropWhile_prefix isSpaceGo p

/-- What is taken from a part of a frame is a part of its alert. -/
theorem consumeSSE_piece {f : UpFrame Obj} (hsent : f.Sent) {rest : PyStr}
    (hrest : rest <+: f.text) :
    (consumeSSE rest).1 = [] ∨
      ∃ ev piece, f = .alert ev ∧ piece <+: Interp.print ev ∧ (consumeSSE rest).1 = [piece] := by
  have hwhole (r : PyStr) (hr : (consumeSSE r).1 = []) (htext : rest = f.line ++ 10 :: r) :
      (consumeSSE rest).1 = [] ∨
        ∃ ev piece, f = .alert ev ∧ piece <+: Interp.print ev ∧ (consumeSSE rest).1 = [piece] := by
    rw [htext]
    by_cases hfits : f.Fits
    · rw [consumeSSE_line f.notMem_line hfits, dataOf_line hsent, hr, List.append_nil]
      cases f with
      | alert ev => exact .inr ⟨ev, _, rfl, List.prefix_refl _, rfl⟩
      | _ => exact .inl rfl
    · rw [consumeSSE_tooLong f.notMem_line (not_lt.mp hfits)]
      exact .inl rfl
  have hconnected : ¬ u "data: " <+: u ": connected" := by decide
  have hheartbeat : ¬ u "data: " <+: u ": hb" := by decide
  by_cases hlen : rest.length ≤ f.line.length
  · -- The line has no end yet.
    have hline : rest <+: f.line :=
      List.prefix_of_prefix_length_le hrest (List.prefix_append _ _) hlen
    have hprint : Printable rest := fun c hc => f.printable_line c (hline.subset hc)
    rcases consumeSSE_of_notMem (notMem_of_printable hprint (c := 10) (by decide)) with h | h
    · exact .inl h
    · rw [h, dropCR_of_printable hprint]
      by_cases hdata : u "data: " <+: rest
      · obtain ⟨p, rfl⟩ := hdata
        rw [dataOf_data]
        split_ifs
        · exact .inl rfl
        · cases f with
          | alert ev =>
            have hp : p <+: Interp.print ev := (List.prefix_append_right_inj _).mp hline
            exact .inr ⟨ev, _, rfl, trimSpace_prefix (dictLine_print hsent) hp, rfl⟩
          | connected => exact absurd ((List.prefix_append _ p).trans hline) hconnected
          | heartbeat => exact absurd ((List.prefix_append _ p).trans hline) hheartbeat
      · have hnone : dataOf rest = none :=
          if_neg fun hp => hdata (List.isPrefixOf_iff_prefix.mp hp)
        rw [hnone]
        exact .inl rfl
  · obtain ⟨r, rfl⟩ : f.line <+: rest :=
      List.prefix_of_prefix_length_le (List.prefix_append _ _) hrest (by omega)
    have hr : r <+: [10, 10] := (List.prefix_append_right_inj _).mp hrest
    rw [List.length_append] at hlen
    match r, hr with
    | [], _ => simp at hlen
    | [c], hr =>
      obtain rfl : c = 10 := by simpa using hr.head (by simp)
      exact hwhole [] (by decide) rfl
    | c :: d :: more, hr =>
      obtain ⟨tail, htail⟩ := hr
      simp only [List.cons_append, List.cons.injEq] at htail
      obtain ⟨rfl, rfl, hnil⟩ := htail
      obtain rfl := (List.append_eq_nil_iff.mp hnil).1
      exact hwhole [10] (by decide) rfl

/-- Where a stream is cut, some frames have come whole, and a part of the next one. -/
theorem exists_cut {frames : List (UpFrame Obj)} {cut : PyStr} (hcut : cut <+: upText frames) :
    ∃ whole more rest, frames = whole ++ more ∧ cut = upText whole ++ rest ∧
      (rest = [] ∨ ∃ f, more.head? = some f ∧ rest <+: f.text) := by
  induction frames generalizing cut with
  | nil => exact ⟨[], [], cut, rfl, rfl, .inl (List.prefix_nil.mp hcut)⟩
  | cons f frames ih =>
    have htext : upText (f :: frames) = f.text ++ upText frames := by simp [upText]
    rw [htext] at hcut
    by_cases hlen : cut.length ≤ f.text.length
    · have hpart := List.prefix_of_prefix_length_le hcut (List.prefix_append _ _) hlen
      exact ⟨[], f :: frames, cut, rfl, rfl, .inr ⟨f, rfl, hpart⟩⟩
    · obtain ⟨cut', rfl⟩ := List.prefix_of_prefix_length_le (List.prefix_append _ _) hcut
        (by omega : f.text.length ≤ cut.length)
      obtain ⟨whole, more, rest, rfl, rfl, hrest⟩ := ih ((List.prefix_append_right_inj _).mp hcut)
      exact ⟨f :: whole, more, rest, rfl, by simp [upText], hrest⟩

/-- Wherever the stream is cut off, what the agent has broadcast is, of the frames that came whole,
every alert up to the first line that does not fit into the buffer; when all of them fit, one piece
of the alert that was cut off may follow. -/
theorem consumeSSE_cut {frames : List (UpFrame Obj)}
    (hsent : ∀ f ∈ frames, f.Sent) {cut : PyStr} (hcut : cut <+: upText frames) :
    ∃ whole more rest, frames = whole ++ more ∧ cut = upText whole ++ rest ∧
      (rest = [] ∨ ∃ f, more.head? = some f ∧ rest <+: f.text) ∧
      ((∃ f ∈ whole, ¬ f.Fits) →
        consumeSSE cut = (alertTexts (whole.takeWhile fun f => f.Fits), true)) ∧
      ((∀ f ∈ whole, f.Fits) → (consumeSSE cut).1 = alertTexts whole ∨
        ∃ ev piece, more.head? = some (.alert ev) ∧ piece <+: Interp.print ev ∧
          (consumeSSE cut).1 = alertTexts whole ++ [piece]) := by
  obtain ⟨whole, more, rest, rfl, rfl, hrest⟩ := exists_cut hcut
  have hwhole : ∀ f ∈ whole, f.Sent := fun f hf => hsent f (List.mem_append_left more hf)
  refine ⟨whole, more, rest, rfl, rfl, hrest, fun hlong => ?_, fun hfits => ?_⟩
  · exact consumeSSE_upText_tooLong hwhole hlong rest
  · rw [consumeSSE_upText hwhole hfits]
    rcases hrest with rfl | ⟨f, hf, hpart⟩
    · exact .inl (List.append_nil _)
    · have hmem : f ∈ more := List.mem_of_mem_head? hf
      rcases consumeSSE_piece (hsent f (List.mem_append_right whole hmem)) hpart with h | h
      · exact .inl (by rw [h, List.append_nil])
      · obtain ⟨ev, piece, rfl, hpiece, h⟩ := h
        exact .inr ⟨ev, piece, hf, hpiece, by rw [h]⟩

/-- The items of an alert. -/
def smallAlert : Items PyStr := [(.str (u "src_ip"), .str (u "a")), (.str (u "alert"), .dict [])]

/-- A stream with the alert in it. -/
def smallFrames : List (UpFrame PyStr) := [.connected, .alert (.dict smallAlert), .heartbeat]

theorem sent_smallFrames : ∀ f ∈ smallFrames, f.Sent := by
  intro f hf
  simp only [smallFrames, List.mem_cons, List.not_mem_nil, or_false] at hf
  rcases hf with rfl | rfl | rfl
  · trivial
  · exact ⟨_, rfl⟩
  · trivial

/-- The stream is cut off in the alert. -/
theorem consumeSSE_cut_smallFrames :
    ∃ whole more, smallFrames = whole ++ more ∧
      ((∀ f ∈ whole, f.Fits) →
        (consumeSSE ((upText smallFrames).take 30)).1 = alertTexts whole ∨
          ∃ ev piece, more.head? = some (.alert ev) ∧ piece <+: Interp.print ev ∧
            (consumeSSE ((upText smallFrames).take 30)).1 = alertTexts whole ++ [piece]) := by
  obtain ⟨whole, more, -, hframes, -, -, -, hcut⟩ :=
    consumeSSE_cut sent_smallFrames (List.take_prefix 30 (upText smallFrames))
  exact ⟨whole, more, hframes, hcut⟩

end ControlPlane.Stream
