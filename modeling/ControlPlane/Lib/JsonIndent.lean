import ControlPlane.Lib.JsonRoundTrip

/-!
# JSON texts with indentation

`json.dumps` with `indent`, which puts each item of a list or a dict on a line of its own. What is
written so is read back as what is written on one line: the reader skips the white space between the
tokens, whatever it is (`scanElements_spaced`, `scanMembers_spaced`).
-/

namespace ControlPlane.JsonText

open Interp (print keyText)

variable {Obj : Type}

/-! ## The encoder -/

/-- The end of a line, and the blanks in front of the next one, which is `level` levels down. -/
def newline (indent level : ℕ) : PyStr := 10 :: List.replicate (indent * level) 32

/-- Texts with a comma and this white space in between. -/
def spaced (space : PyStr) : List PyStr → PyStr
  | [] => []
  | t :: rest => t ++ rest.flatMap fun t => 44 :: (space ++ t)

/-- The items of a list or a dict between its brackets, each on a line of its own. -/
def block (opening closing : CodePoint) (inner outer : PyStr) (ts : List PyStr) : PyStr :=
  if ts = [] then [opening, closing]
  else opening :: (inner ++ (spaced inner ts ++ (outer ++ [closing])))

mutual

/-- The text of a value without objects, `level` levels down. -/
def printIndented (indent : ℕ) : ℕ → PyVal Obj → PyStr
  | level, .seq _ xs =>
    block 91 93 (newline indent (level + 1)) (newline indent level)
      (printIndentedList indent (level + 1) xs)
  | level, .dict items =>
    block 123 125 (newline indent (level + 1)) (newline indent level)
      (printIndentedItems indent (level + 1) items)
  | _, v => print v

/-- The texts of the items of a list. -/
def printIndentedList (indent : ℕ) : ℕ → List (PyVal Obj) → List PyStr
  | _, [] => []
  | level, v :: rest => printIndented indent level v :: printIndentedList indent level rest

/-- The texts of the items of a dict. -/
def printIndentedItems (indent : ℕ) : ℕ → List (PyKey Obj × PyVal Obj) → List PyStr
  | _, [] => []
  | level, (k, v) :: rest =>
    itemText (keyText k) (printIndented indent level v) :: printIndentedItems indent level rest

end

/-- `json.dumps(v, indent=indent)`, which fails where it fails without the indentation. -/
def Interp.dumpsIndented (J : Interp Obj) (indent : ℕ) (v : PyVal Obj) : Except PyStr PyStr :=
  (J.dumps J.plain v).map fun _ => printIndented indent 0 v

theorem printIndentedList_eq_map (indent level : ℕ) (xs : List (PyVal Obj)) :
    printIndentedList indent level xs = xs.map (printIndented indent level) := by
  induction xs with
  | nil => rfl
  | cons v rest ih => rw [printIndentedList, ih, List.map_cons]

theorem printIndentedItems_eq_map (indent level : ℕ) (items : List (PyKey Obj × PyVal Obj)) :
    printIndentedItems indent level items =
      items.map fun i => itemText (keyText i.1) (printIndented indent level i.2) := by
  induction items with
  | nil => rfl
  | cons i rest ih => rw [printIndentedItems, ih, List.map_cons]

/-! ## White space between the tokens -/

/-- White space. -/
def Blanks (s : PyStr) : Prop := ∀ c ∈ s, isBlank c = true

theorem blanks_newline (indent level : ℕ) : Blanks (newline indent level) := by
  intro c hc
  rcases List.mem_cons.mp hc with rfl | hc
  · decide
  · rw [List.eq_of_mem_replicate hc]
    decide

/-- The reader skips white space. -/
theorem Blanks.skip {space : PyStr} (h : Blanks space) (s : PyStr) :
    skipBlanks (space ++ s) = skipBlanks s := by
  unfold skipBlanks
  exact List.dropWhile_append_of_pos h

/-- A number ends in front of white space, and of what it ends in front of anyway. -/
theorem Blanks.stops {space : PyStr} (h : Blanks space) {s : PyStr} (hs : Stops s) :
    Stops (space ++ s) := by
  cases space with
  | nil => exact hs
  | cons b space =>
    have hb := h b List.mem_cons_self
    simp only [isBlank, Bool.or_eq_true, decide_eq_true_eq] at hb
    refine Interp.stops_cons ?_ _
    rcases hb with ((rfl | rfl) | rfl) | rfl
    all_goals decide

namespace Interp

variable (J : Interp Obj)

/-- This text is read as what the value is read back as, whatever follows it. -/
def ReadsAs (v : PyVal Obj) (t : PyStr) : Prop :=
  ∀ (d n : ℕ) (tail : PyStr), v.NestedIn d → 2 * t.length ≤ n → Stops tail →
    J.scanValue n d (t ++ tail) = .ok (readBack v, tail)

/-- A text that begins with neither white space nor the end of a list. -/
def Begins (t : PyStr) : Prop := ∃ c more, t = c :: more ∧ isBlank c = false ∧ c ≠ 93

theorem Begins.skip {t : PyStr} (h : Begins t) (s : PyStr) : skipBlanks (t ++ s) = t ++ s := by
  obtain ⟨c, more, rfl, hb, -⟩ := h
  exact skipBlanks_cons hb (more ++ s)

/-- A text that begins so, behind white space. -/
theorem Begins.skip_behind {t space : PyStr} (h : Begins t) (hspace : Blanks space) (s : PyStr) :
    skipBlanks (space ++ (t ++ s)) = t ++ s := by
  rw [hspace.skip, h.skip]

/-- The items of a list are read back from their texts, whatever white space is in between. -/
theorem scanElements_spaced (f : PyVal Obj → PyStr) {space last : PyStr} (hspace : Blanks space)
    (hlast : Blanks last) (tail : PyStr) {v : PyVal Obj} {rest : List (PyVal Obj)} {d n : ℕ}
    (hf : ∀ w ∈ v :: rest, Begins (f w)) (hback : ∀ w ∈ v :: rest, J.ReadsAs w (f w))
    (hd : ∀ w ∈ v :: rest, w.NestedIn d)
    (hn : 2 * (spaced space ((v :: rest).map f)).length + 1 ≤ n) :
    J.scanElements n d (spaced space ((v :: rest).map f) ++ (last ++ 93 :: tail)) =
      .ok ((v :: rest).map readBack, tail) := by
  induction rest generalizing v n with
  | nil =>
    obtain ⟨n, rfl⟩ : ∃ m, n = m + 1 := ⟨n - 1, by omega⟩
    simp only [List.map_cons, List.map_nil, spaced, List.flatMap_nil, List.append_nil] at hn ⊢
    have hstop : Stops (last ++ 93 :: tail) := hlast.stops (stops_cons (by decide) tail)
    have hv := hback v List.mem_cons_self d n _ (hd v List.mem_cons_self) (by omega) hstop
    have hskip : skipBlanks (last ++ 93 :: tail) = 93 :: tail := by
      rw [hlast.skip, skipBlanks_cons (by decide)]
    rw [scanElements, hv]
    simp [bind, Except.bind, pure, Except.pure, hskip]
  | cons w rest ih =>
    obtain ⟨n, rfl⟩ : ∃ m, n = m + 1 := ⟨n - 1, by omega⟩
    have htext : spaced space ((v :: w :: rest).map f) =
        f v ++ 44 :: (space ++ spaced space ((w :: rest).map f)) := by
      simp [spaced]
    rw [htext] at hn ⊢
    rw [List.length_append, List.length_cons, List.length_append] at hn
    have hv := hback v List.mem_cons_self d n
      (44 :: (space ++ (spaced space ((w :: rest).map f) ++ (last ++ 93 :: tail))))
      (hd v List.mem_cons_self) (by omega) (stops_cons (by decide) _)
    have hrest := @ih w n (fun x hx => hf x (List.mem_cons_of_mem v hx))
      (fun x hx => hback x (List.mem_cons_of_mem v hx))
      (fun x hx => hd x (List.mem_cons_of_mem v hx)) (by omega)
    have hskip : skipBlanks (space ++ (spaced space ((w :: rest).map f) ++ (last ++ 93 :: tail))) =
        spaced space ((w :: rest).map f) ++ (last ++ 93 :: tail) := by
      rw [List.map_cons, spaced, List.append_assoc]
      exact (hf w (by simp)).skip_behind hspace _
    rw [List.append_assoc, List.cons_append, List.append_assoc, List.map_cons (f := readBack)]
    generalize spaced space ((w :: rest).map f) = t at hv hskip hrest ⊢
    rw [scanElements, hv]
    simp [bind, Except.bind, pure, Except.pure, skipBlanks_cons (c := 44) (by decide), hskip, hrest]

/-- The items of a dict are read back from their texts, whatever white space is in between. -/
theorem scanMembers_spaced (f : PyVal Obj → PyStr) {space last : PyStr} (hspace : Blanks space)
    (hlast : Blanks last) (tail : PyStr) {i : PyKey Obj × PyVal Obj}
    {rest : List (PyKey Obj × PyVal Obj)} {d n : ℕ} (hf : ∀ j ∈ i :: rest, Begins (f j.2))
    (hback : ∀ j ∈ i :: rest, J.ReadsAs j.2 (f j.2)) (hd : ∀ j ∈ i :: rest, j.2.NestedIn d)
    (hn : 2 * (spaced space ((i :: rest).map fun j => itemText (keyText j.1) (f j.2))).length ≤ n) :
    J.scanMembers n d (spaced space ((i :: rest).map fun j => itemText (keyText j.1) (f j.2)) ++
      (last ++ 125 :: tail)) = .ok (readBackItems (i :: rest), tail) := by
  -- An item and what follows it, up to the end of its value.
  have hitem (j : PyKey Obj × PyVal Obj) (s : PyStr) :
      itemText (keyText j.1) (f j.2) ++ s =
        34 :: ((keyText j.1).flatMap escape ++ 34 :: 58 :: 32 :: (f j.2 ++ s)) := by
    simp [itemText, quoted]
  have hlen (j : PyKey Obj × PyVal Obj) :
      (f j.2).length + 4 ≤ (itemText (keyText j.1) (f j.2)).length := by
    simp only [itemText, quoted, List.length_append, List.length_cons, List.length_nil]
    omega
  have hskip {j : PyKey Obj × PyVal Obj} (hj : Begins (f j.2)) (s : PyStr) :
      skipBlanks (32 :: (f j.2 ++ s)) = f j.2 ++ s :=
    (List.dropWhile_cons_of_pos (by decide)).trans (hj.skip s)
  induction rest generalizing i n with
  | nil =>
    have hi := hlen i
    simp only [List.map_cons, List.map_nil, spaced, List.flatMap_nil, List.append_nil] at hn ⊢
    obtain ⟨n, rfl⟩ : ∃ m, n = m + 1 := ⟨n - 1, by omega⟩
    have hstop : Stops (last ++ 125 :: tail) := hlast.stops (stops_cons (by decide) tail)
    have hv := hback i List.mem_cons_self d n _ (hd i List.mem_cons_self) (by omega) hstop
    have hsp := hskip (hf i List.mem_cons_self) (last ++ 125 :: tail)
    have hend : skipBlanks (last ++ 125 :: tail) = 125 :: tail := by
      rw [hlast.skip, skipBlanks_cons (by decide)]
    rw [hitem, scanMembers, if_pos List.head?_cons, List.tail_cons, scanString_quoted]
    simp [bind, Except.bind, pure, Except.pure, skipBlanks_cons (c := 58) (by decide), hsp, hv,
      hend, readBackItems]
  | cons j rest ih =>
    let g := fun j : PyKey Obj × PyVal Obj => itemText (keyText j.1) (f j.2)
    have hi : (f i.2).length + 4 ≤ (g i).length := hlen i
    have htext : spaced space ((i :: j :: rest).map g) =
        g i ++ 44 :: (space ++ spaced space ((j :: rest).map g)) := by
      simp [spaced]
    change 2 * (spaced space ((i :: j :: rest).map g)).length ≤ n at hn
    change J.scanMembers n d (spaced space ((i :: j :: rest).map g) ++ _) = _
    rw [htext] at hn ⊢
    rw [List.length_append, List.length_cons, List.length_append] at hn
    obtain ⟨n, rfl⟩ : ∃ m, n = m + 1 := ⟨n - 1, by omega⟩
    have hv := hback i List.mem_cons_self d n
      (44 :: (space ++ (spaced space ((j :: rest).map g) ++ (last ++ 125 :: tail))))
      (hd i List.mem_cons_self) (by omega) (stops_cons (by decide) _)
    have hsp := hskip (hf i List.mem_cons_self)
      (44 :: (space ++ (spaced space ((j :: rest).map g) ++ (last ++ 125 :: tail))))
    have hrest := @ih j n (fun x hx => hf x (List.mem_cons_of_mem i hx))
      (fun x hx => hback x (List.mem_cons_of_mem i hx))
      (fun x hx => hd x (List.mem_cons_of_mem i hx))
      (show 2 * (spaced space ((j :: rest).map g)).length ≤ n by omega)
    have hsep : skipBlanks (space ++ (spaced space ((j :: rest).map g) ++ (last ++ 125 :: tail))) =
        spaced space ((j :: rest).map g) ++ (last ++ 125 :: tail) := by
      rw [List.map_cons, spaced, List.append_assoc, hspace.skip, hitem]
      exact skipBlanks_cons (by decide) _
    rw [List.append_assoc, List.cons_append, List.append_assoc,
      show readBackItems (i :: j :: rest) =
        (join (keyText i.1), readBack i.2) :: readBackItems (j :: rest) from rfl]
    change J.scanMembers n d (spaced space ((j :: rest).map g) ++ _) = _ at hrest
    generalize spaced space ((j :: rest).map g) = t at hv hsp hsep hrest ⊢
    rw [hitem, scanMembers, if_pos List.head?_cons, List.tail_cons, scanString_quoted]
    simp [bind, Except.bind, pure, Except.pure, skipBlanks_cons (c := 58) (by decide), hsp, hv,
      skipBlanks_cons (c := 44) (by decide), hsep, hrest]

/-- A block of items is read back as a list when the items are. -/
theorem readsAs_seq {frozen : Bool} (f : PyVal Obj → PyStr) {inner outer : PyStr}
    (hinner : Blanks inner) (houter : Blanks outer) {xs : List (PyVal Obj)}
    (hf : ∀ w ∈ xs, Begins (f w)) (hback : ∀ w ∈ xs, J.ReadsAs w (f w)) :
    J.ReadsAs (.seq frozen xs) (block 91 93 inner outer (xs.map f)) := by
  intro d n tail hd hn _
  obtain ⟨d, rfl⟩ : ∃ e, d = e + 1 := by
    cases d with
    | zero => exact absurd hd (PyVal.not_nestedIn_zero_seq frozen xs)
    | succ d => exact ⟨d, rfl⟩
  rw [PyVal.nestedIn_seq] at hd
  cases xs with
  | nil =>
    obtain ⟨n, rfl⟩ : ∃ m, n = m + 1 := ⟨n - 1, by simp [block] at hn; omega⟩
    rw [readBack, readBackList_eq_map, scanValue.eq_def]
    simp [block, skipBlanks_cons (c := 93) (by decide), pure, Except.pure]
  | cons w rest =>
    rw [block, if_neg (by simp), List.length_cons, List.length_append, List.length_append,
      List.length_append, List.length_singleton] at hn
    obtain ⟨n, rfl⟩ : ∃ m, n = m + 1 := ⟨n - 1, by omega⟩
    have helems := J.scanElements_spaced (n := n) f hinner houter tail hf hback hd (by omega)
    obtain ⟨c, more, hc, hb, h93⟩ := hf w List.mem_cons_self
    have hskip : skipBlanks (inner ++ (spaced inner ((w :: rest).map f) ++ (outer ++ 93 :: tail))) =
        c :: (more ++ ((rest.map f).flatMap (fun t => 44 :: (inner ++ t)) ++
          (outer ++ 93 :: tail))) := by
      rw [hinner.skip, List.map_cons, spaced, hc]
      simp [skipBlanks_cons hb]
    have hstart : spaced inner ((w :: rest).map f) ++ (outer ++ 93 :: tail) =
        c :: (more ++ ((rest.map f).flatMap (fun t => 44 :: (inner ++ t)) ++
          (outer ++ 93 :: tail))) := by
      rw [List.map_cons, spaced, hc]
      simp
    rw [hstart] at helems
    have htext : block 91 93 inner outer ((w :: rest).map f) ++ tail =
        91 :: (inner ++ (spaced inner ((w :: rest).map f) ++ (outer ++ 93 :: tail))) := by
      simp [block]
    rw [htext, readBack, readBackList_eq_map, scanValue.eq_def]
    simp only [List.head?_cons, List.tail_cons, ↓reduceIte, hskip]
    simp [h93, helems, bind, Except.bind, pure, Except.pure]

/-- A block of items is read back as a dict when the values are. -/
theorem readsAs_dict (f : PyVal Obj → PyStr) {inner outer : PyStr} (hinner : Blanks inner)
    (houter : Blanks outer) {items : List (PyKey Obj × PyVal Obj)}
    (hf : ∀ i ∈ items, Begins (f i.2)) (hback : ∀ i ∈ items, J.ReadsAs i.2 (f i.2)) :
    J.ReadsAs (.dict items)
      (block 123 125 inner outer (items.map fun i => itemText (keyText i.1) (f i.2))) := by
  intro d n tail hd hn _
  obtain ⟨d, rfl⟩ : ∃ e, d = e + 1 := by
    cases d with
    | zero => exact absurd hd (PyVal.not_nestedIn_zero_dict items)
    | succ d => exact ⟨d, rfl⟩
  rw [PyVal.nestedIn_dict] at hd
  cases items with
  | nil =>
    obtain ⟨n, rfl⟩ : ∃ m, n = m + 1 := ⟨n - 1, by simp [block] at hn; omega⟩
    rw [readBack, scanValue.eq_def]
    simp [block, skipBlanks_cons (c := 125) (by decide), pure, Except.pure, readBackItems, asDict]
  | cons i rest =>
    rw [block, if_neg (by simp), List.length_cons, List.length_append, List.length_append,
      List.length_append, List.length_singleton] at hn
    obtain ⟨n, rfl⟩ : ∃ m, n = m + 1 := ⟨n - 1, by omega⟩
    have hmembers := J.scanMembers_spaced (n := n) f hinner houter tail hf hback hd (by omega)
    have htext : block 123 125 inner outer
          ((i :: rest).map fun i => itemText (keyText i.1) (f i.2)) ++ tail =
        123 :: (inner ++ (spaced inner ((i :: rest).map fun i => itemText (keyText i.1) (f i.2)) ++
          (outer ++ 125 :: tail))) := by
      simp [block]
    have hstart : ∃ more, spaced inner
          ((i :: rest).map fun i => itemText (keyText i.1) (f i.2)) ++ (outer ++ 125 :: tail) =
        34 :: more := by
      simp [spaced, itemText, quoted]
    obtain ⟨more, hmore⟩ := hstart
    rw [htext, readBack, scanValue.eq_def]
    rw [hmore] at hmembers ⊢
    have hskip : skipBlanks (inner ++ 34 :: more) = 34 :: more := by
      rw [hinner.skip, skipBlanks_cons (by decide)]
    simp [hskip, hmembers, bind, Except.bind, pure, Except.pure]

/-- The text of a value begins with neither white space nor the end of a list. -/
theorem begins_printIndented (indent level : ℕ) {v : PyVal Obj} (hv : J.Writable v) :
    Begins (printIndented indent level v) := by
  have hblock (opening closing : CodePoint) (inner outer : PyStr) (ts : List PyStr)
      (h : isBlank opening = false ∧ opening ≠ 93) :
      Begins (block opening closing inner outer ts) := by
    unfold block
    split_ifs
    · exact ⟨opening, _, rfl, h.1, h.2⟩
    · exact ⟨opening, _, rfl, h.1, h.2⟩
  cases v with
  | seq frozen xs => exact hblock _ _ _ _ _ (by decide)
  | dict items => exact hblock _ _ _ _ _ (by decide)
  | none => exact J.head_print hv
  | bool b => exact J.head_print hv
  | int n => exact J.head_print hv
  | float x => exact J.head_print hv
  | str s => exact J.head_print hv
  | other o => exact hv.here.elim

/-- What was written with indentation is read back, whatever follows it. -/
theorem readsAs_printIndented (indent level : ℕ) {v : PyVal Obj} (hv : J.Writable v) :
    J.ReadsAs v (printIndented indent level v) := by
  induction v using PyVal.induct generalizing level with
  | h v ih =>
    cases v with
    | seq frozen xs =>
      have hxs := J.writable_seq.mp hv
      rw [printIndented, printIndentedList_eq_map]
      exact J.readsAs_seq _ (blanks_newline _ _) (blanks_newline _ _)
        (fun w hw => J.begins_printIndented _ _ (hxs w hw)) fun w hw => ih w hw _ (hxs w hw)
    | dict items =>
      have hitems := J.writable_dict.mp hv
      rw [printIndented, printIndentedItems_eq_map]
      exact J.readsAs_dict _ (blanks_newline _ _) (blanks_newline _ _)
        (fun i hi => J.begins_printIndented _ _ (hitems i hi).2)
        fun i hi => ih i.2 (List.mem_map_of_mem hi) _ (hitems i hi).2
    | none => exact J.readsBack hv
    | bool b => exact J.readsBack hv
    | int n => exact J.readsBack hv
    | float x => exact J.readsBack hv
    | str s => exact J.readsBack hv
    | other o => exact hv.here.elim

/-- No text of a value begins with a byte order mark. -/
theorem head_printIndented_ne (indent level : ℕ) (v : PyVal Obj) :
    (printIndented indent level v).head? ≠ some 0xfeff := by
  have hprint : (print v).head? ≠ some 0xfeff := fun h =>
    absurd (printable_print v _ (List.mem_of_mem_head? h)) (by decide)
  have hblock (opening closing : CodePoint) (inner outer : PyStr) (ts : List PyStr) :
      (block opening closing inner outer ts).head? = some opening := by
    unfold block
    split_ifs
    · rfl
    · rfl
  cases v with
  | seq frozen xs =>
    rw [printIndented, hblock]
    decide
  | dict items =>
    rw [printIndented, hblock]
    decide
  | _ => exact hprint

/-- A text that was written with indentation is read back, when it is not too deep for the
decoder. -/
theorem loads_printIndented (indent : ℕ) {v : PyVal Obj} (hv : J.Writable v)
    (hd : v.NestedIn J.loadsDepth) : J.loads (printIndented indent 0 v) = .ok (readBack v) := by
  have hread := J.readsAs_printIndented indent 0 hv J.loadsDepth
    (2 * (printIndented indent 0 v).length + 2) [] hd (by omega) fun c hc => by simp at hc
  have hbegins := J.begins_printIndented indent 0 hv
  have hskip := hbegins.skip []
  rw [List.append_nil] at hread hskip
  unfold loads
  rw [if_neg (head_printIndented_ne indent 0 v), hskip, hread]
  simp [bind, Except.bind, pure, Except.pure, skipBlanks]

end Interp

end ControlPlane.JsonText
