import ControlPlane.Lib.JsonRead
import Mathlib.Data.List.SplitBy

/-!
# The tokens of a Cypher query

A query is read with its Unicode escapes decoded, and each character of it is one of a word, white
space, a symbol, or one of a text or a quoted name; a comment is white space. Characters of the same
kind that stand next to each other make up a token. The tokens with the white space in between make
up the query as it is written (`flatMap_written_groups`), so that a sequence of tokens can be found
in it again (`containsTokens_iff`).
-/

namespace ControlPlane.Cypher

open JsonText

/-! ## Characters -/

/-- A character of a query, and how it is written. -/
structure Glyph where
  char : CodePoint
  written : PyStr
  deriving DecidableEq

/-- The code point of an escape, behind its backslash. -/
def escaped (s : PyStr) : Option CodePoint :=
  match s with
  | e :: h1 :: h2 :: h3 :: h4 :: _ => if e = 117 then hex4 h1 h2 h3 h4 else none
  | _ => none

/-- The characters of a query behind so many code points: `\uXXXX` is one, unless the backslash is
escaped itself. -/
def glyphsFrom : ℕ → PyStr → List Glyph
  | _, [] => []
  | skip + 1, _ :: rest => glyphsFrom skip rest
  | 0, c :: rest =>
    if c = 92 then
      match escaped rest with
      | some x => ⟨x, c :: rest.take 5⟩ :: glyphsFrom 5 rest
      | none =>
        if rest.head? = some 92 then ⟨c, [c]⟩ :: ⟨92, [92]⟩ :: glyphsFrom 1 rest
        else ⟨c, [c]⟩ :: glyphsFrom 0 rest
    else ⟨c, [c]⟩ :: glyphsFrom 0 rest

/-- The characters of a query. -/
def glyphs (query : PyStr) : List Glyph := glyphsFrom 0 query

/-- The characters as they are written. -/
def writtenAs (gs : List Glyph) : PyStr := gs.flatMap Glyph.written

@[simp]
theorem writtenAs_cons (g : Glyph) (gs : List Glyph) :
    writtenAs (g :: gs) = g.written ++ writtenAs gs := List.flatMap_cons

theorem writtenAs_glyphsFrom (skip : ℕ) (s : PyStr) :
    writtenAs (glyphsFrom skip s) = s.drop skip := by
  induction s generalizing skip with
  | nil => simp [glyphsFrom, writtenAs]
  | cons c rest ih =>
    cases skip with
    | succ skip => exact ih skip
    | zero =>
      rw [glyphsFrom, List.drop_zero]
      by_cases hc : c = 92
      · rw [if_pos hc]
        cases escaped rest with
        | some x =>
          show writtenAs (⟨x, c :: rest.take 5⟩ :: glyphsFrom 5 rest) = c :: rest
          rw [writtenAs_cons, ih, List.cons_append, List.take_append_drop]
        | none =>
          by_cases hhead : rest.head? = some 92
          · obtain ⟨rest', rfl⟩ : ∃ rest', rest = 92 :: rest' := by
              cases rest with
              | nil => exact absurd hhead (by simp)
              | cons d rest' => exact ⟨rest', by rw [Option.some.inj hhead]⟩
            simp only [hhead, if_true, writtenAs_cons, ih]
            rfl
          · simp only [hhead, if_false, writtenAs_cons, ih]
            rfl
      · rw [if_neg hc, writtenAs_cons, ih]
        rfl

theorem writtenAs_glyphs (query : PyStr) : writtenAs (glyphs query) = query :=
  writtenAs_glyphsFrom 0 query

/-! ## Kinds -/

/-- What the lexer knows of single characters. -/
structure Tables where
  /-- The characters of words: of keywords, names and numbers. -/
  isPart : CodePoint → Bool
  /-- White space. -/
  isBlank : CodePoint → Bool

/-- What a character belongs to. -/
inductive Kind where
  | word
  | blank
  | symbol
  /-- A text or a quoted name. -/
  | literal
  deriving DecidableEq

/-- What the lexer is in. -/
inductive Mode where
  | code
  | lineComment
  | blockComment
  /-- A text or a quoted name that this character ends, with or without escapes. -/
  | literal (close : CodePoint) (escapes : Bool)
  deriving DecidableEq

/-- The kind of a character, the mode behind it, and whether the next character belongs to the same
opening, closing or escape. -/
def kindOf (T : Tables) (m : Mode) (c : CodePoint) (next : Option CodePoint) : Kind × Mode × Bool :=
  match m with
  | .code =>
    if c = 47 ∧ next = some 47 then (.blank, .lineComment, true)
    else if c = 47 ∧ next = some 42 then (.blank, .blockComment, true)
    else if c = 39 ∨ c = 34 then (.literal, .literal c true, false)
    else if c = 96 then (.literal, .literal c false, false)
    else if T.isBlank c then (.blank, .code, false)
    else if T.isPart c then (.word, .code, false)
    else (.symbol, .code, false)
  | .lineComment => (.blank, if c = 10 ∨ c = 13 then .code else .lineComment, false)
  | .blockComment =>
    if c = 42 ∧ next = some 47 then (.blank, .code, true) else (.blank, .blockComment, false)
  | .literal close escapes =>
    if escapes ∧ c = 92 then (.literal, m, true)
    else (.literal, if c = close then .code else m, false)

/-- The characters with their kinds. Where the last one has taken the next one along, that one is of
the same kind. -/
def kindsFrom (T : Tables) : Mode → Option Kind → List Glyph → List (Kind × Glyph)
  | _, _, [] => []
  | m, some k, g :: gs => (k, g) :: kindsFrom T m none gs
  | m, none, g :: gs =>
    let (k, m', takes) := kindOf T m g.char (gs.head?.map Glyph.char)
    (k, g) :: kindsFrom T m' (if takes then some k else none) gs

theorem map_snd_kindsFrom (T : Tables) (m : Mode) (taken : Option Kind) (gs : List Glyph) :
    (kindsFrom T m taken gs).map Prod.snd = gs := by
  induction gs generalizing m taken with
  | nil => simp [kindsFrom]
  | cons g gs ih => cases taken <;> simp [kindsFrom, ih]

/-! ## Tokens -/

/-- Characters of one kind. -/
structure Group where
  kind : Kind
  glyphs : List Glyph
  deriving DecidableEq

/-- What a group spells. -/
def Group.spelling (g : Group) : PyStr := g.glyphs.map Glyph.char

/-- How it is written. -/
def Group.written (g : Group) : PyStr := writtenAs g.glyphs

/-- Characters of the same kind belong together, except for symbols. -/
def together (a b : Kind × Glyph) : Bool := a.1 = b.1 && a.1 ≠ .symbol

/-- The group of some characters. -/
def groupOf (l : List (Kind × Glyph)) : Group :=
  ⟨(l.head?.map Prod.fst).getD .blank, l.map Prod.snd⟩

/-- The tokens of a query with the white space in between. -/
def groups (T : Tables) (query : PyStr) : List Group :=
  ((kindsFrom T .code none (glyphs query)).splitBy together).map groupOf

/-- The tokens of a query. -/
def tokens (T : Tables) (query : PyStr) : List Group :=
  (groups T query).filter fun g => g.kind ≠ .blank

/-- The tokens and the white space make up the query. -/
theorem flatMap_written_groups (T : Tables) (query : PyStr) :
    (groups T query).flatMap Group.written = query := by
  have hglyphs : (groups T query).flatMap Group.glyphs = glyphs query := by
    rw [groups, List.flatMap_map, List.flatMap_def]
    show (List.map (List.map Prod.snd) _).flatten = _
    rw [← List.map_flatten, List.flatten_splitBy, map_snd_kindsFrom]
  calc (groups T query).flatMap Group.written
      = writtenAs ((groups T query).flatMap Group.glyphs) := by
        rw [writtenAs, List.flatMap_assoc]
        rfl
    _ = query := by rw [hglyphs, writtenAs_glyphs]

/-! ## Sequences of tokens -/

/-- The upper case of an ASCII letter. -/
def upper (c : CodePoint) : CodePoint :=
  if h : 97 ≤ c.val ∧ c.val ≤ 122 then ⟨c.val - 32, by omega⟩ else c

/-- A token that is looked for. -/
inductive Piece where
  /-- A word, in either case; it is given in upper case. -/
  | word (s : PyStr)
  | symbol (c : CodePoint)

def Piece.is : Piece → Group → Bool
  | word s, g => g.kind = .word && g.spelling.map upper = s
  | symbol c, g => g.kind = .symbol && g.spelling = [c]

/-- The tokens begin with these. -/
def beginsWith : List Piece → List Group → Bool
  | [], _ => true
  | _ :: _, [] => false
  | p :: ps, g :: gs => p.is g && beginsWith ps gs

/-- These are in the tokens, one after the other. -/
def containsTokens (ps : List Piece) (gs : List Group) : Bool := gs.tails.any (beginsWith ps)

/-- The groups are these tokens, with white space in between. -/
def Spells : List Piece → List Group → Prop
  | [], gs => gs = []
  | [p], gs => ∃ g, gs = [g] ∧ p.is g = true
  | p :: q :: ps, gs => ∃ g blanks rest, gs = g :: (blanks ++ rest) ∧ p.is g = true ∧
      (∀ b ∈ blanks, b.kind = .blank) ∧ Spells (q :: ps) rest

/-- No token is white space. -/
theorem Piece.kind_ne_blank {p : Piece} {g : Group} (h : p.is g = true) : g.kind ≠ .blank := by
  cases p with
  | word s =>
    rw [Piece.is, Bool.and_eq_true, decide_eq_true_iff] at h
    rw [h.1]
    decide
  | symbol c =>
    rw [Piece.is, Bool.and_eq_true, decide_eq_true_iff] at h
    rw [h.1]
    decide

/-- Tokens that the rest of a query begins with are spelled there, behind white space. -/
theorem exists_spells {p : Piece} {ps : List Piece} {gs : List Group}
    (h : beginsWith (p :: ps) (gs.filter fun g => g.kind ≠ .blank) = true) :
    ∃ blanks middle after, gs = blanks ++ (middle ++ after) ∧ (∀ b ∈ blanks, b.kind = .blank) ∧
      Spells (p :: ps) middle := by
  induction ps generalizing p gs with
  | nil =>
    cases hfilter : gs.filter fun g => g.kind ≠ .blank with
    | nil =>
      rw [hfilter] at h
      exact absurd h Bool.false_ne_true
    | cons g tail =>
      obtain ⟨blanks, after, rfl, hblanks, -, -⟩ := List.filter_eq_cons_iff.mp hfilter
      rw [hfilter, beginsWith, Bool.and_eq_true] at h
      exact ⟨blanks, [g], after, rfl, fun b hb => by simpa using hblanks b hb, g, rfl, h.1⟩
  | cons q ps ih =>
    cases hfilter : gs.filter fun g => g.kind ≠ .blank with
    | nil =>
      rw [hfilter] at h
      exact absurd h Bool.false_ne_true
    | cons g tail =>
      obtain ⟨blanks, rest, rfl, hblanks, -, hrest⟩ := List.filter_eq_cons_iff.mp hfilter
      rw [hfilter, beginsWith, Bool.and_eq_true, ← hrest] at h
      -- The next token comes behind more white space.
      obtain ⟨blanks', middle, after, rfl, hblanks', hspells⟩ := ih h.2
      refine ⟨blanks, g :: (blanks' ++ middle), after, by simp, fun b hb => ?_, ?_⟩
      · simpa using hblanks b hb
      · exact ⟨g, blanks', middle, rfl, h.1, hblanks', hspells⟩

theorem beginsWith_of_spells {p : Piece} {ps : List Piece} {middle : List Group}
    (h : Spells (p :: ps) middle) (after : List Group) :
    beginsWith (p :: ps) ((middle ++ after).filter fun g => g.kind ≠ .blank) = true := by
  induction ps generalizing p middle with
  | nil =>
    obtain ⟨g, rfl, hg⟩ := h
    have hkind := Piece.kind_ne_blank hg
    simp [beginsWith, hkind, hg]
  | cons q ps ih =>
    obtain ⟨g, blanks, rest, rfl, hg, hblanks, hrest⟩ := h
    have hkind := Piece.kind_ne_blank hg
    have hnone : blanks.filter (fun g => g.kind ≠ .blank) = [] :=
      List.filter_eq_nil_iff.mpr fun b hb => by simp [hblanks b hb]
    have hnext := ih hrest
    rw [List.cons_append, List.append_assoc, List.filter_cons, if_pos (by simp [hkind]),
      List.filter_append, hnone, List.nil_append, beginsWith, hg, hnext]
    rfl

/-- A sequence of tokens is in a query just when it is spelled somewhere in it. -/
theorem containsTokens_iff {p : Piece} {ps : List Piece} {gs : List Group} :
    containsTokens (p :: ps) (gs.filter fun g => g.kind ≠ .blank) = true ↔
      ∃ before middle after, gs = before ++ (middle ++ after) ∧ Spells (p :: ps) middle := by
  rw [containsTokens, List.any_eq_true]
  constructor
  · rintro ⟨tail, htail, hbegins⟩
    obtain ⟨front, hfront⟩ := (List.mem_tails tail _).mp htail
    obtain ⟨before, rest, rfl, -, rfl⟩ := List.filter_eq_append_iff.mp hfront.symm
    obtain ⟨blanks, middle, after, rfl, -, hspells⟩ := exists_spells hbegins
    exact ⟨before ++ blanks, middle, after, by simp, hspells⟩
  · rintro ⟨before, middle, after, rfl, hspells⟩
    refine ⟨(middle ++ after).filter fun g => g.kind ≠ .blank, ?_, beginsWith_of_spells hspells _⟩
    rw [List.mem_tails, List.filter_append before]
    exact List.suffix_append _ _

end ControlPlane.Cypher
