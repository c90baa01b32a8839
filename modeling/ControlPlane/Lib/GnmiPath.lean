import Mathlib.Data.List.Basic
import Mathlib.Tactic.SplitIfs

/-!
# The text form of gNMI paths

A path is a sequence of elements with a slash before each of them, and an element is a name with any
number of keys, `name[key=value]`. A backslash makes the next character stand for itself. In the
value of a key the bracket that closes it and the backslash need one; a slash there is a character
like others. What is written with the backslashes is read back (`parse_render`), and what is written
without them is read back exactly when nothing in the path needs one (`parse_plain_iff`).
-/

namespace ControlPlane.GnmiPath

/-! ## Paths and their texts -/

/-- An element of a path. -/
structure Elem where
  name : List Char
  keys : List (List Char × List Char)
  name_ne : name ≠ []
  deriving DecidableEq

/-- A path. -/
abbrev Path := List Elem

/-- What a character of an element belongs to. -/
inductive Place where
  | name
  | key
  | value

/-- The characters that only stand for themselves behind a backslash. -/
def Place.special : Place → Char → Bool
  | name, c => c == '/' || c == '[' || c == ']' || c == '\\'
  | key, c => c == '=' || c == ']' || c == '\\'
  | value, c => c == ']' || c == '\\'

section

variable {α : Type*} (raw : Char → α) (text : Place → List Char → List α)

/-- A key, with its brackets. -/
def writeKey (k : List Char × List Char) : List α :=
  raw '[' :: (text .key k.1 ++ raw '=' :: (text .value k.2 ++ [raw ']']))

/-- An element: its name, and its keys. -/
def Elem.write (e : Elem) : List α := text .name e.name ++ e.keys.flatMap (writeKey raw text)

/-- A path: its elements, with a slash before each of them. -/
def write (p : Path) : List α := p.flatMap fun e => raw '/' :: e.write raw text

end

/-- A text with a backslash before each of the special characters. -/
def escape (special : Char → Bool) (s : List Char) : List Char :=
  s.flatMap fun c => if special c then ['\\', c] else [c]

/-- The text of a path. -/
def render (p : Path) : List Char := write id (fun place => escape place.special) p

/-- A path that is written down without a backslash. -/
def plain (p : Path) : List Char := write id (fun _ s => s) p

/-! ## Reading -/

/-- A character, and whether a backslash was before it. -/
structure Token where
  char : Char
  escaped : Bool

/-- The token is this character, in its role in the path. -/
def Token.is (c : Char) (t : Token) : Bool := !t.escaped && t.char == c

/-- The characters without the backslashes before them. A backslash at the end is none. -/
def tokens : List Char → Option (List Token)
  | [] => some []
  | c :: rest =>
    if c = '\\' then
      match rest with
      | [] => none
      | d :: rest => (tokens rest).map (⟨d, true⟩ :: ·)
    else (tokens rest).map (⟨c, false⟩ :: ·)

/-- What is being read. -/
inductive State where
  | name (s : List Char)
  /-- A key of the element has been closed. -/
  | closed (e : Elem)
  | key (e : Elem) (s : List Char)
  | value (e : Elem) (k s : List Char)

/-- The elements that have been read, and what is being read. -/
structure Reader where
  done : Path
  state : State

/-- The element of a name, if it is not empty. -/
def named (s : List Char) : Option Elem := if h : s ≠ [] then some ⟨s, [], h⟩ else none

/-- An element with one more key. -/
def Elem.add (e : Elem) (k s : List Char) : Elem := { e with keys := e.keys ++ [(k, s)] }

/-- One token. -/
def step (r : Reader) (t : Token) : Option Reader :=
  match r.state with
  | .name s =>
    if t.is '/' then (named s).map fun e => ⟨r.done ++ [e], .name []⟩
    else if t.is '[' then (named s).map fun e => ⟨r.done, .key e []⟩
    else if t.is ']' then none
    else some ⟨r.done, .name (s ++ [t.char])⟩
  | .closed e =>
    if t.is '/' then some ⟨r.done ++ [e], .name []⟩
    else if t.is '[' then some ⟨r.done, .key e []⟩
    else none
  | .key e s =>
    if t.is '=' then some ⟨r.done, .value e s []⟩
    else if t.is ']' then none
    else some ⟨r.done, .key e (s ++ [t.char])⟩
  | .value e k s =>
    if t.is ']' then some ⟨r.done, .closed (e.add k s)⟩
    else some ⟨r.done, .value e k (s ++ [t.char])⟩

/-- The path, where it may end. -/
def finish (r : Reader) : Option Path :=
  match r.state with
  | .name s => (named s).map fun e => r.done ++ [e]
  | .closed e => some (r.done ++ [e])
  | .key _ _ | .value _ _ _ => none

/-- One token after the other. -/
def run (r : Reader) (ts : List Token) : Option Reader := ts.foldlM step r

/-- The path from the tokens, behind the first slash. -/
def readTokens (ts : List Token) : Option Path := (run ⟨[], .name []⟩ ts).bind finish

/-- The path of a text. The first slash may be left out. -/
def parse (s : List Char) : Option Path :=
  let s := if s.head? = some '/' then s.tail else s
  if s = [] then some [] else (tokens s).bind readTokens

theorem parse_cons {s : List Char} (hs : s ≠ []) :
    parse ('/' :: s) = (tokens s).bind readTokens := by
  simp [parse, hs]

theorem run_cons (r : Reader) (t : Token) (ts : List Token) :
    run r (t :: ts) = (step r t).bind fun r' => run r' ts := List.foldlM_cons

theorem run_append (r : Reader) (s t : List Token) :
    run r (s ++ t) = (run r s).bind fun r' => run r' t := List.foldlM_append

/-! ## The tokens of what is written -/

/-- A character without a backslash before it. -/
def bare (c : Char) : Token := ⟨c, false⟩

/-- A text whose special characters had their backslashes. -/
def marked (place : Place) (s : List Char) : List Token := s.map fun c => ⟨c, place.special c⟩

theorem tokens_backslash (c : Char) (s : List Char) :
    tokens ('\\' :: c :: s) = (tokens s).map (⟨c, true⟩ :: ·) := by
  rfl

theorem tokens_cons {c : Char} (h : c ≠ '\\') (s : List Char) :
    tokens (c :: s) = (tokens s).map (bare c :: ·) := by
  rw [tokens.eq_def]
  simp [h, bare]

theorem Place.special_backslash (place : Place) : place.special '\\' = true := by
  cases place <;> rfl

theorem tokens_escape_append (place : Place) (s rest : List Char) :
    tokens (escape place.special s ++ rest) = (tokens rest).map (marked place s ++ ·) := by
  induction s with
  | nil => simp [escape, marked]
  | cons c s ih =>
    have hrest : ∀ t : Token, ((tokens rest).map (marked place s ++ ·)).map (t :: ·) =
        (tokens rest).map (t :: marked place s ++ ·) := by
      intro t
      rw [Option.map_map]
      rfl
    by_cases hc : place.special c = true
    · have hescape : escape place.special (c :: s) = '\\' :: c :: escape place.special s := by
        simp [escape, hc]
      rw [hescape, List.cons_append, List.cons_append, tokens_backslash, ih, hrest]
      simp [marked, hc]
    · have hescape : escape place.special (c :: s) = c :: escape place.special s := by
        simp [escape, hc]
      have hne : c ≠ '\\' := by
        rintro rfl
        exact hc place.special_backslash
      rw [hescape, List.cons_append, tokens_cons hne, ih, hrest]
      simp [marked, bare, hc]

/-- What holds of the parts of a text holds of all of it. -/
theorem tokens_flatMap_append {β : Type*} {f : β → List Char} {g : β → List Token}
    (h : ∀ x rest, tokens (f x ++ rest) = (tokens rest).map (g x ++ ·)) (l : List β)
    (rest : List Char) : tokens (l.flatMap f ++ rest) = (tokens rest).map (l.flatMap g ++ ·) := by
  induction l with
  | nil => simp
  | cons x l ih =>
    rw [List.flatMap_cons, List.append_assoc, h, ih, Option.map_map]
    apply congrArg (Option.map · (tokens rest))
    funext ts
    simp

theorem tokens_writeKey_append (k : List Char × List Char) (rest : List Char) :
    tokens (writeKey id (fun place => escape place.special) k ++ rest) =
      (tokens rest).map (writeKey bare marked k ++ ·) := by
  simp only [writeKey, id_eq, List.cons_append, List.append_assoc, List.nil_append]
  rw [tokens_cons (by decide), tokens_escape_append, tokens_cons (by decide),
    tokens_escape_append, tokens_cons (by decide)]
  simp only [Option.map_map]
  apply congrArg (Option.map · (tokens rest))
  funext ts
  simp

theorem Elem.tokens_write_append (e : Elem) (rest : List Char) :
    tokens (e.write id (fun place => escape place.special) ++ rest) =
      (tokens rest).map (e.write bare marked ++ ·) := by
  unfold Elem.write
  rw [List.append_assoc, tokens_escape_append, tokens_flatMap_append tokens_writeKey_append,
    Option.map_map]
  apply congrArg (Option.map · (tokens rest))
  funext ts
  simp

theorem tokens_render (p : Path) : tokens (render p) = some (write bare marked p) := by
  have hall := tokens_flatMap_append (f := fun e : Elem => '/' :: e.write id fun place =>
    escape place.special) (g := fun e => bare '/' :: e.write bare marked) (fun e rest => ?_) p []
  · simpa [render, write, tokens] using hall
  · rw [List.cons_append, tokens_cons (by decide), e.tokens_write_append, Option.map_map]
    rfl

/-! ## Reading what was written -/

theorem named_name (e : Elem) (h : e.keys = []) : named e.name = some e := by
  obtain ⟨name, keys, hne⟩ := e
  obtain rfl : keys = [] := h
  exact dif_pos hne

/-- What was read of an element when a slash, a bracket or the end may follow it. -/
def Follows (e : Elem) (σ : State) : Prop := σ = .closed e ∨ σ = .name e.name ∧ e.keys = []

theorem Follows.slash {e : Elem} {σ : State} (h : Follows e σ) (done : Path) :
    step ⟨done, σ⟩ (bare '/') = some ⟨done ++ [e], .name []⟩ := by
  obtain rfl | ⟨rfl, hkeys⟩ := h
  · rfl
  · simp [step, bare, Token.is, named_name e hkeys]

theorem Follows.bracket {e : Elem} {σ : State} (h : Follows e σ) (done : Path) :
    step ⟨done, σ⟩ (bare '[') = some ⟨done, .key e []⟩ := by
  obtain rfl | ⟨rfl, hkeys⟩ := h
  · rfl
  · simp [step, bare, Token.is, named_name e hkeys]

theorem Follows.finish {e : Elem} {σ : State} (h : Follows e σ) (done : Path) :
    finish ⟨done, σ⟩ = some (done ++ [e]) := by
  obtain rfl | ⟨rfl, hkeys⟩ := h
  · rfl
  · simp [GnmiPath.finish, named_name e hkeys]

/-- A token that has no role in a text is added to it. -/
def Takes (place : Place) (done : Path) (σ : List Char → State) : Prop :=
  ∀ s t, (∀ c, place.special c = true → t.is c = false) →
    step ⟨done, σ s⟩ t = some ⟨done, σ (s ++ [t.char])⟩

theorem takes_name (done : Path) : Takes .name done .name := by
  intro s t ht
  simp [step, ht '/' rfl, ht '[' rfl, ht ']' rfl]

theorem takes_key (done : Path) (e : Elem) : Takes .key done (.key e) := by
  intro s t ht
  simp [step, ht '=' rfl, ht ']' rfl]

theorem takes_value (done : Path) (e : Elem) (k : List Char) : Takes .value done (.value e k) := by
  intro s t ht
  simp [step, ht ']' rfl]

/-- A text is read to its end. -/
theorem Takes.run {place : Place} {done : Path} {σ : List Char → State}
    (h : Takes place done σ) (s acc : List Char) :
    run ⟨done, σ acc⟩ (marked place s) = some ⟨done, σ (acc ++ s)⟩ := by
  induction s generalizing acc with
  | nil => simp [marked, GnmiPath.run]
  | cons c s ih =>
    have hstep : step ⟨done, σ acc⟩ ⟨c, place.special c⟩ = some ⟨done, σ (acc ++ [c])⟩ := by
      apply h acc
      intro d hd
      by_cases hdc : c = d
      · subst hdc
        simp [Token.is, hd]
      · simp [Token.is, hdc]
    have hrest := ih (acc ++ [c])
    rw [List.append_assoc] at hrest
    calc GnmiPath.run ⟨done, σ acc⟩ (marked place (c :: s))
        = (step ⟨done, σ acc⟩ ⟨c, place.special c⟩).bind fun r => GnmiPath.run r (marked place s) :=
          run_cons _ _ _
      _ = GnmiPath.run ⟨done, σ (acc ++ [c])⟩ (marked place s) := by rw [hstep, Option.bind_some]
      _ = some ⟨done, σ (acc ++ c :: s)⟩ := hrest

theorem run_writeKey {e : Elem} {σ : State} (h : Follows e σ) (done : Path)
    (k : List Char × List Char) :
    run ⟨done, σ⟩ (writeKey bare marked k) = some ⟨done, .closed (e.add k.1 k.2)⟩ := by
  have hkey := (takes_key done e).run k.1 []
  have hvalue := (takes_value done e k.1).run k.2 []
  unfold writeKey
  rw [run_cons, h.bracket, Option.bind_some, run_append, hkey, Option.bind_some, run_cons]
  show (run ⟨done, .value e ([] ++ k.1) []⟩ (marked .value k.2 ++ [bare ']'])) = _
  rw [List.nil_append, run_append, hvalue]
  rfl

/-- The keys of an element are read behind one another. -/
theorem exists_run_keys {e : Elem} {σ : State} (h : Follows e σ) (done : Path)
    (ks : List (List Char × List Char)) :
    ∃ τ, run ⟨done, σ⟩ (ks.flatMap (writeKey bare marked)) = some ⟨done, τ⟩ ∧
      Follows { e with keys := e.keys ++ ks } τ := by
  induction ks generalizing e σ with
  | nil =>
    refine ⟨σ, rfl, ?_⟩
    simpa using h
  | cons k ks ih =>
    obtain ⟨τ, hrun, hτ⟩ := ih (e := e.add k.1 k.2) (.inl rfl)
    refine ⟨τ, ?_, ?_⟩
    · rw [List.flatMap_cons, run_append, run_writeKey h, Option.bind_some, hrun]
    · have hkeys : (e.add k.1 k.2).keys ++ ks = e.keys ++ k :: ks := by simp [Elem.add]
      rw [← hkeys]
      exact hτ

theorem Elem.exists_run (e : Elem) (done : Path) :
    ∃ σ, run ⟨done, .name []⟩ (e.write bare marked) = some ⟨done, σ⟩ ∧ Follows e σ := by
  have hname := (takes_name done).run e.name []
  have hfollows : Follows ⟨e.name, [], e.name_ne⟩ (.name e.name) := .inr ⟨rfl, rfl⟩
  obtain ⟨σ, hrun, hσ⟩ := exists_run_keys hfollows done e.keys
  refine ⟨σ, ?_, hσ⟩
  unfold Elem.write
  rw [run_append, hname]
  exact hrun

/-- The elements of a path are read one after the other. -/
theorem run_path (e : Elem) (p done : Path) :
    (run ⟨done, .name []⟩ (e.write bare marked ++ write bare marked p)).bind finish =
      some (done ++ e :: p) := by
  induction p generalizing e done with
  | nil =>
    obtain ⟨σ, hrun, hσ⟩ := e.exists_run done
    simp [write, hrun, hσ.finish]
  | cons e' p ih =>
    obtain ⟨σ, hrun, hσ⟩ := e.exists_run done
    have hwrite : write bare marked (e' :: p) =
        bare '/' :: (e'.write bare marked ++ write bare marked p) := by
      simp [write]
    have hrest := ih e' (done ++ [e])
    rw [hwrite, run_append, hrun, Option.bind_some, run_cons, hσ.slash, Option.bind_some, hrest]
    simp

theorem escape_ne_nil (special : Char → Bool) {s : List Char} (h : s ≠ []) :
    escape special s ≠ [] := by
  obtain ⟨c, s, rfl⟩ := List.exists_cons_of_ne_nil h
  unfold escape
  rw [List.flatMap_cons]
  split_ifs <;> simp

/-- A path is read back from its text. -/
theorem parse_render (p : Path) : parse (render p) = some p := by
  cases p with
  | nil => rfl
  | cons e p =>
    have hrender : render (e :: p) =
        '/' :: (e.write id (fun place => escape place.special) ++ render p) := by
      simp [render, write]
    have hne : e.write id (fun place => escape place.special) ++ render p ≠ [] := by
      simp [Elem.write, escape_ne_nil _ e.name_ne]
    rw [hrender, parse_cons hne, e.tokens_write_append, tokens_render]
    exact run_path e p []

/-! ## Paths without backslashes -/

/-- The text that is being read, without the backslashes that were in it. -/
def State.text : State → List Char
  | .name s => s
  | .closed e => e.write id fun _ s => s
  | .key e s => (e.write id fun _ s => s) ++ '[' :: s
  | .value e k s => (e.write id fun _ s => s) ++ '[' :: (k ++ '=' :: s)

/-- The text that has been read. -/
def Reader.text (r : Reader) : List Char := plain r.done ++ '/' :: r.state.text

theorem write_of_named {s : List Char} {e : Elem} (h : named s = some e) :
    (e.write id fun _ s => s) = s := by
  unfold named at h
  split_ifs at h
  obtain rfl := Option.some.inj h
  simp [Elem.write]

theorem plain_concat (p : Path) (e : Elem) :
    plain (p ++ [e]) = plain p ++ '/' :: (e.write id fun _ s => s) := by
  simp [plain, write]

theorem char_of_is {c : Char} {t : Token} (h : t.is c = true) : t.char = c := by
  simp only [Token.is, Bool.and_eq_true, beq_iff_eq] at h
  exact h.2

/-- Every token adds its character. -/
theorem step_text {r r' : Reader} {t : Token} (h : step r t = some r') :
    r'.text = r.text ++ [t.char] := by
  obtain ⟨done, σ⟩ := r
  cases σ with
  | name s =>
    simp only [step] at h
    split_ifs at h with hslash hbracket
    · obtain ⟨e, he, rfl⟩ := Option.map_eq_some_iff.mp h
      simp [Reader.text, State.text, plain_concat, write_of_named he, char_of_is hslash]
    · obtain ⟨e, he, rfl⟩ := Option.map_eq_some_iff.mp h
      simp [Reader.text, State.text, write_of_named he, char_of_is hbracket]
    · obtain rfl := Option.some.inj h
      simp [Reader.text, State.text]
  | closed e =>
    simp only [step] at h
    split_ifs at h with hslash hbracket
    · obtain rfl := Option.some.inj h
      simp [Reader.text, State.text, plain_concat, char_of_is hslash]
    · obtain rfl := Option.some.inj h
      simp [Reader.text, State.text, char_of_is hbracket]
  | key e s =>
    simp only [step] at h
    split_ifs at h with hequals
    · obtain rfl := Option.some.inj h
      simp [Reader.text, State.text, char_of_is hequals]
    · obtain rfl := Option.some.inj h
      simp [Reader.text, State.text]
  | value e k s =>
    simp only [step] at h
    split_ifs at h with hbracket
    · obtain rfl := Option.some.inj h
      simp [Reader.text, State.text, Elem.write, Elem.add, writeKey, char_of_is hbracket]
    · obtain rfl := Option.some.inj h
      simp [Reader.text, State.text]

theorem run_text {r r' : Reader} {ts : List Token} (h : run r ts = some r') :
    r'.text = r.text ++ ts.map Token.char := by
  induction ts generalizing r with
  | nil =>
    obtain rfl := Option.some.inj h
    simp
  | cons t ts ih =>
    rw [run_cons] at h
    obtain ⟨r₁, hstep, hrun⟩ := Option.bind_eq_some_iff.mp h
    rw [ih hrun, step_text hstep]
    simp

theorem finish_text {r : Reader} {p : Path} (h : finish r = some p) : plain p = r.text := by
  obtain ⟨done, σ⟩ := r
  cases σ with
  | name s =>
    obtain ⟨e, he, rfl⟩ := Option.map_eq_some_iff.mp h
    simp [Reader.text, State.text, plain_concat, write_of_named he]
  | closed e =>
    obtain rfl := Option.some.inj h
    exact plain_concat done e
  | key e s => cases h
  | value e k s => cases h

/-- A text has no more tokens than characters. -/
theorem length_tokens {s : List Char} {ts : List Token} (h : tokens s = some ts) :
    ts.length ≤ s.length := by
  fun_induction tokens s generalizing ts with
  | case1 =>
    obtain rfl := Option.some.inj h
    exact Nat.le_refl _
  | case2 => cases h
  | case3 d rest ih =>
    obtain ⟨us, hus, rfl⟩ := Option.map_eq_some_iff.mp h
    have hlen := ih hus
    simp only [List.length_cons]
    omega
  | case4 c rest hc ih =>
    obtain ⟨us, hus, rfl⟩ := Option.map_eq_some_iff.mp h
    have hlen := ih hus
    simp only [List.length_cons]
    omega

/-- The tokens have all the characters of a text only if none of these is a backslash. -/
theorem tokens_eq_bare {s : List Char} {ts : List Token} (h : tokens s = some ts)
    (hchars : ts.map Token.char = s) : ts = s.map bare ∧ '\\' ∉ s := by
  induction s generalizing ts with
  | nil =>
    obtain rfl := Option.some.inj h
    exact ⟨rfl, List.not_mem_nil⟩
  | cons c s ih =>
    have hlen := congrArg List.length hchars
    rw [List.length_map, List.length_cons] at hlen
    by_cases hc : c = '\\'
    -- A backslash is no token of its own, so that there are too few of them.
    · subst hc
      cases s with
      | nil => cases h
      | cons d s =>
        rw [tokens_backslash] at h
        obtain ⟨us, hus, rfl⟩ := Option.map_eq_some_iff.mp h
        have hshort := length_tokens hus
        simp only [List.length_cons] at hlen
        omega
    · rw [tokens_cons hc] at h
      obtain ⟨us, hus, rfl⟩ := Option.map_eq_some_iff.mp h
      obtain ⟨rfl, hs⟩ := ih hus (List.cons.inj hchars).2
      refine ⟨rfl, ?_⟩
      rw [List.mem_cons, not_or]
      exact ⟨Ne.symm hc, hs⟩

/-- No character of the text needs a backslash there. -/
def Place.Clean (place : Place) (s : List Char) : Prop := ∀ c ∈ s, place.special c = false

/-- Nothing in an element needs a backslash. -/
structure Elem.Clean (e : Elem) : Prop where
  name : Place.name.Clean e.name
  keys : ∀ k ∈ e.keys, Place.key.Clean k.1 ∧ Place.value.Clean k.2

/-- Nothing that is being read needs a backslash. -/
def State.Clean : State → Prop
  | .name s => Place.name.Clean s
  | .closed e => e.Clean
  | .key e s => e.Clean ∧ Place.key.Clean s
  | .value e k s => e.Clean ∧ Place.key.Clean k ∧ Place.value.Clean s

/-- Nothing that has been read needs a backslash. -/
structure Reader.Clean (r : Reader) : Prop where
  done : ∀ e ∈ r.done, e.Clean
  state : r.state.Clean

theorem Place.clean_nil (place : Place) : place.Clean [] := fun _ h => absurd h List.not_mem_nil

theorem Place.clean_of_all {place : Place} {s : List Char}
    (h : s.all (fun c => !place.special c) = true) : place.Clean s :=
  fun c hc => by simpa using List.all_eq_true.mp h c hc

theorem Place.Clean.concat {place : Place} {s : List Char} {c : Char} (hs : place.Clean s)
    (hc : place.special c = false) : place.Clean (s ++ [c]) := by
  intro d hd
  rcases List.mem_append.mp hd with hd | hd
  · exact hs d hd
  · rw [List.mem_singleton.mp hd]
    exact hc

theorem Elem.Clean.add {e : Elem} {k s : List Char} (he : e.Clean) (hk : Place.key.Clean k)
    (hs : Place.value.Clean s) : (e.add k s).Clean where
  name := he.name
  keys x hx := by
    rcases List.mem_append.mp hx with hx | hx
    · exact he.keys x hx
    · rw [List.mem_singleton.mp hx]
      exact ⟨hk, hs⟩

theorem clean_of_named {s : List Char} {e : Elem} (h : named s = some e)
    (hs : Place.name.Clean s) : e.Clean := by
  unfold named at h
  split_ifs at h
  obtain rfl := Option.some.inj h
  exact ⟨hs, fun _ hk => absurd hk List.not_mem_nil⟩

theorem Reader.Clean.concat {r : Reader} {e : Elem} {σ : State} (hr : r.Clean) (he : e.Clean)
    (hσ : σ.Clean) : Reader.Clean ⟨r.done ++ [e], σ⟩ where
  done x hx := by
    rcases List.mem_append.mp hx with hx | hx
    · exact hr.done x hx
    · rw [List.mem_singleton.mp hx]
      exact he
  state := hσ

theorem bare_is (c d : Char) : (bare c).is d = (c == d) := by simp [bare, Token.is]

/-- What is read without a backslash needs none. -/
theorem step_clean {r r' : Reader} {c : Char} (h : step r (bare c) = some r') (hc : c ≠ '\\')
    (hr : r.Clean) : r'.Clean := by
  obtain ⟨done, σ⟩ := r
  have hσ := hr.state
  cases σ with
  | name s =>
    simp only [step, bare_is, beq_iff_eq] at h
    split_ifs at h with hslash hbracket hclosing
    · obtain ⟨e, he, rfl⟩ := Option.map_eq_some_iff.mp h
      exact hr.concat (clean_of_named he hσ) (Place.clean_nil _)
    · obtain ⟨e, he, rfl⟩ := Option.map_eq_some_iff.mp h
      exact ⟨hr.done, clean_of_named he hσ, Place.clean_nil _⟩
    · obtain rfl := Option.some.inj h
      exact ⟨hr.done, Place.Clean.concat hσ (by simp [Place.special, bare, *])⟩
  | closed e =>
    simp only [step, bare_is, beq_iff_eq] at h
    split_ifs at h with hslash hbracket
    · obtain rfl := Option.some.inj h
      exact hr.concat hσ (Place.clean_nil _)
    · obtain rfl := Option.some.inj h
      exact ⟨hr.done, hσ, Place.clean_nil _⟩
  | key e s =>
    simp only [step, bare_is, beq_iff_eq] at h
    split_ifs at h with hequals hclosing
    · obtain rfl := Option.some.inj h
      exact ⟨hr.done, hσ.1, hσ.2, Place.clean_nil _⟩
    · obtain rfl := Option.some.inj h
      exact ⟨hr.done, hσ.1, hσ.2.concat (by simp [Place.special, bare, *])⟩
  | value e k s =>
    simp only [step, bare_is, beq_iff_eq] at h
    split_ifs at h with hclosing
    · obtain rfl := Option.some.inj h
      exact ⟨hr.done, hσ.1.add hσ.2.1 hσ.2.2⟩
    · obtain rfl := Option.some.inj h
      exact ⟨hr.done, hσ.1, hσ.2.1, hσ.2.2.concat (by simp [Place.special, bare, *])⟩

theorem run_clean {r r' : Reader} {s : List Char} (h : run r (s.map bare) = some r')
    (hs : '\\' ∉ s) (hr : r.Clean) : r'.Clean := by
  induction s generalizing r with
  | nil =>
    obtain rfl := Option.some.inj h
    exact hr
  | cons c s ih =>
    rw [List.mem_cons, not_or] at hs
    rw [List.map_cons, run_cons] at h
    obtain ⟨r₁, hstep, hrun⟩ := Option.bind_eq_some_iff.mp h
    exact ih hrun hs.2 (step_clean hstep (Ne.symm hs.1) hr)

theorem finish_clean {r : Reader} {p : Path} (h : finish r = some p) (hr : r.Clean) :
    ∀ e ∈ p, e.Clean := by
  obtain ⟨done, σ⟩ := r
  have hσ := hr.state
  have hstart : State.Clean (.name []) := Place.clean_nil _
  cases σ with
  | name s =>
    obtain ⟨e, he, rfl⟩ := Option.map_eq_some_iff.mp h
    exact (hr.concat (clean_of_named he hσ) hstart).done
  | closed e =>
    obtain rfl := Option.some.inj h
    exact (hr.concat hσ hstart).done
  | key e s => cases h
  | value e k s => cases h

theorem escape_eq_self {place : Place} {s : List Char} (h : place.Clean s) :
    escape place.special s = s := by
  induction s with
  | nil => rfl
  | cons c s ih =>
    have hc := h c List.mem_cons_self
    have hs := ih fun d hd => h d (List.mem_cons_of_mem c hd)
    unfold escape at hs ⊢
    rw [List.flatMap_cons, hc, hs]
    rfl

/-- Nothing is escaped in a path where nothing needs a backslash. -/
theorem render_eq_plain {p : Path} (h : ∀ e ∈ p, e.Clean) : render p = plain p := by
  unfold render plain write Elem.write
  refine List.flatMap_congr fun e he => ?_
  have hkeys : e.keys.flatMap (writeKey id fun place => escape place.special) =
      e.keys.flatMap (writeKey id fun _ s => s) := by
    refine List.flatMap_congr fun k hk => ?_
    obtain ⟨hkey, hvalue⟩ := (h e he).keys k hk
    simp [writeKey, escape_eq_self hkey, escape_eq_self hvalue]
  have hname : escape Place.name.special e.name = e.name := escape_eq_self (h e he).name
  simp only [hkeys, hname]

/-- A path that is written without backslashes is read back exactly when nothing in it needs one. -/
theorem parse_plain_iff (p : Path) : parse (plain p) = some p ↔ ∀ e ∈ p, e.Clean := by
  constructor
  · intro h
    cases p with
    | nil => exact fun e he => absurd he List.not_mem_nil
    | cons e p =>
      have hplain : plain (e :: p) = '/' :: ((e.write id fun _ s => s) ++ plain p) := by
        simp [plain, write]
      have hne : (e.write id fun _ s => s) ++ plain p ≠ [] := by simp [Elem.write, e.name_ne]
      rw [hplain, parse_cons hne] at h
      obtain ⟨ts, htokens, hread⟩ := Option.bind_eq_some_iff.mp h
      obtain ⟨r, hrun, hfinish⟩ := Option.bind_eq_some_iff.mp hread
      -- The characters of the tokens are those of the text.
      have hchars : ts.map Token.char = (e.write id fun _ s => s) ++ plain p := by
        have htext := finish_text hfinish
        rw [run_text hrun, hplain] at htext
        exact (List.cons.inj htext).2.symm
      obtain ⟨rfl, hback⟩ := tokens_eq_bare htokens hchars
      have hstart : Reader.Clean ⟨[], .name []⟩ :=
        ⟨fun e he => absurd he List.not_mem_nil, Place.clean_nil _⟩
      exact finish_clean hfinish (run_clean hrun hback hstart)
  · intro h
    rw [← render_eq_plain h]
    exact parse_render p

end ControlPlane.GnmiPath
