import ControlPlane.Lib.JsonText

/-!
# The fenced blocks of a knowledge file

`_YAML_BLOCK` of `core/knowledge_parser.py` as a function on texts (`yamlBlocks`), and beside it what
Markdown takes for a fenced block of YAML (`fencedYaml`): its fences may be indented by three
spaces, may be longer than three marks or made of tildes, and the last one may be missing.
-/

namespace ControlPlane.Know

open JsonText

/-- The line feed. -/
def LF : CodePoint := 10

/-! ## The expression -/

/-- The text from its last line feed on. -/
def fromLastLF (s : PyStr) : PyStr :=
  if LF ∈ s then LF :: (s.reverse.takeWhile (· ≠ LF)).reverse else []

/-- `\s*$` behind a fence: the text behind the match. -/
def fenceEnd (s : PyStr) : Option PyStr :=
  let rest := s.dropWhile isSpace
  let blanks := s.takeWhile isSpace
  if rest = [] then some [] else if LF ∈ blanks then some (fromLastLF blanks ++ rest) else none

/-- The text behind a prefix. -/
def behind (p s : PyStr) : Option PyStr := if p.isPrefixOf s then some (s.drop p.length) else none

/-- The group and the last fence, searched from here on: the group, and the text behind the match.
The flag says whether this is the start of a line. -/
def closing : Bool → PyStr → Option (PyStr × PyStr)
  | _, [] => none
  | start, c :: s =>
    match if start then (behind (u "```") (c :: s)).bind fenceEnd else none with
    | some rest => some ([], rest)
    | none => (closing (c = LF) s).map fun (group, rest) => (c :: group, rest)

/-- The match that begins here, at the start of a line. -/
def yamlBlock (s : PyStr) : Option (PyStr × PyStr) := do
  let s ← behind (u "```yaml") s
  let blanks := s.takeWhile isSpace
  if LF ∈ blanks then closing true ((fromLastLF blanks).tail ++ s.dropWhile isSpace) else none

/-- The groups of the matches from here on, the number of characters before which none begins. -/
def search : ℕ → Bool → PyStr → List PyStr
  | _, _, [] => []
  | skip + 1, _, c :: s => search skip (c = LF) s
  | 0, start, c :: s =>
    match if start then yamlBlock (c :: s) else none with
    | some (group, rest) => group :: search (s.length - rest.length) (c = LF) s
    | none => search 0 (c = LF) s

/-- `m.group(1)` of the matches of `_YAML_BLOCK`. -/
def yamlBlocks (text : PyStr) : List PyStr := search 0 true text

/-! ## Markdown -/

/-- A fence that is open. -/
structure Fence where
  /-- The code point that it is made of. -/
  mark : CodePoint
  /-- How many there are. -/
  count : ℕ
  /-- The number of spaces before it. -/
  indent : ℕ
  /-- Whether YAML is the language. -/
  yaml : Bool

/-- The lines of a text, without their line feeds. -/
def linesOf (text : PyStr) : List PyStr := text.splitOn LF

/-- The spaces before a line, and the line behind them. -/
def indentOf (line : PyStr) : ℕ × PyStr :=
  ((line.takeWhile (· = 32)).length, line.dropWhile (· = 32))

/-- The first word. -/
def firstWord (s : PyStr) : PyStr := (s.dropWhile isSpace).takeWhile fun c => !isSpace c

/-- The fence that a line opens. -/
def opens (line : PyStr) : Option Fence :=
  let (indent, s) := indentOf line
  match s with
  | [] => none
  | mark :: _ =>
    let count := (s.takeWhile (· = mark)).length
    let info := s.dropWhile (· = mark)
    if indent ≤ 3 ∧ 3 ≤ count ∧ (mark = ofChar '~' ∨ mark = ofChar '`' ∧ mark ∉ info) then
      some { mark, count, indent, yaml := firstWord info = u "yaml" }
    else none

/-- Whether a line closes a fence. -/
def Fence.closedBy (f : Fence) (line : PyStr) : Bool :=
  let (indent, s) := indentOf line
  indent ≤ 3 ∧ f.count ≤ (s.takeWhile (· = f.mark)).length ∧
    (s.dropWhile (· = f.mark)).all isSpace

/-- A line of a block, without the indentation of its fence. -/
def Fence.content (f : Fence) (line : PyStr) : PyStr :=
  line.drop (min f.indent (indentOf line).1) ++ [LF]

/-- The blocks of YAML in lines, where a fence may be open with a block so far. -/
def fenced : Option (Fence × PyStr) → List PyStr → List PyStr
  | none, [] => []
  | some (f, block), [] => if f.yaml then [block] else []
  | none, line :: rest =>
    match opens line with
    | some f => fenced (some (f, [])) rest
    | none => fenced none rest
  | some (f, block), line :: rest =>
    if f.closedBy line then
      if f.yaml then block :: fenced none rest else fenced none rest
    else fenced (some (f, block ++ f.content line)) rest

/-- The fenced blocks of YAML of a Markdown text. -/
def fencedYaml (text : PyStr) : List PyStr := fenced none (linesOf text)

end ControlPlane.Know
