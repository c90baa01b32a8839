import Mathlib.Data.List.Basic
import Mathlib.Tactic.Common

/-!
# Texts of XML documents

A reader of XML 1.0 that goes over a text character by character, with a stack of the elements that
are open: `run` follows it over a text, and `read` gives the attributes of the root of a document.
There are no document types, so that the references are those to characters and to the five entities
that every document has. White space in the value of an attribute reads as blanks. What an element
holds is not kept.
-/

namespace ControlPlane.XmlText

/-! ## Characters -/

/-- A character that a document may have. -/
def isChar (c : Char) : Bool :=
  c == '\t' || c == '\n' || c == '\r' || (0x20 ≤ c.toNat && c.toNat ≤ 0xFFFD) || 0x10000 ≤ c.toNat

/-- White space. -/
def isSpace (c : Char) : Bool := c == ' ' || c == '\t' || c == '\n' || c == '\r'

/-- The ranges of characters that a name may begin with, beside ASCII. -/
def nameRanges : List (ℕ × ℕ) :=
  [(0xC0, 0xD6), (0xD8, 0xF6), (0xF8, 0x2FF), (0x370, 0x37D), (0x37F, 0x1FFF), (0x200C, 0x200D),
    (0x2070, 0x218F), (0x2C00, 0x2FEF), (0x3001, 0xD7FF), (0xF900, 0xFDCF), (0xFDF0, 0xFFFD),
    (0x10000, 0xEFFFF)]

/-- A character that a name may begin with. -/
def isNameStart (c : Char) : Bool :=
  c.isAlpha || c == '_' || c == ':' || nameRanges.any fun r => r.1 ≤ c.toNat && c.toNat ≤ r.2

/-- A character of a name. -/
def isName (c : Char) : Bool :=
  isNameStart c || c.isDigit || c == '-' || c == '.' || c.toNat == 0xB7 ||
    (0x300 ≤ c.toNat && c.toNat ≤ 0x36F) || (0x203F ≤ c.toNat && c.toNat ≤ 0x2040)

/-- A character of a reference. -/
def isRefChar (c : Char) : Bool := c.isAlphanum || c == '#'

/-- The value of a digit. -/
def digit (c : Char) : ℕ :=
  if c.isDigit then c.toNat - 48 else if c.isUpper then c.toNat - 55 else c.toNat - 87

/-- The character that a number refers to. -/
def charOf (base : ℕ) (digits : List Char) : Option Char :=
  let n := digits.foldl (fun n c => base * n + digit c) 0
  if digits ≠ [] ∧ digits.all (digit · < base) ∧ n.isValidChar ∧ isChar (Char.ofNat n) then
    some (Char.ofNat n)
  else none

/-- The character of a reference, from what stands between `&` and `;`. -/
def resolve (ref : List Char) : Option Char :=
  match ref with
  | ['l', 't'] => some '<'
  | ['g', 't'] => some '>'
  | ['a', 'm', 'p'] => some '&'
  | ['a', 'p', 'o', 's'] => some '\''
  | ['q', 'u', 'o', 't'] => some '"'
  | '#' :: 'x' :: digits => charOf 16 digits
  | '#' :: digits => charOf 10 digits
  | _ => none

/-! ## The reader -/

/-- Attributes, by name. -/
abbrev Attrs := List (List Char × List Char)

/-- A start tag, as far as it was read. -/
structure Tag where
  name : List Char
  attrs : Attrs
  deriving DecidableEq

/-- Where the reader is. -/
inductive Mode where
  /-- In the text of an element, after some closing brackets, or outside of the root. -/
  | content (brackets : ℕ)
  | contentRef (ref : List Char)
  /-- After `<`. -/
  | markup
  | startName (name : List Char)
  /-- In a start tag, where an attribute may come if there was white space. -/
  | tag (t : Tag) (spaced : Bool)
  | attrName (t : Tag) (attr : List Char)
  | attrEq (t : Tag) (attr : List Char)
  | attrStart (t : Tag) (attr : List Char)
  /-- In the value of an attribute, perhaps after a carriage return. -/
  | attrValue (t : Tag) (attr : List Char) (quote : Char) (value : List Char) (returned : Bool)
  | attrRef (t : Tag) (attr : List Char) (quote : Char) (value ref : List Char)
  /-- In a start tag, after `/`. -/
  | emptyTag (t : Tag)
  | endName (name : List Char)
  | endSpace (name : List Char)
  /-- After `<!`. -/
  | declaration (text : List Char)
  | comment (dashes : ℕ)
  | cdata (brackets : ℕ)
  /-- After `<?`. -/
  | target (name : List Char)
  | targetEnd
  | instruction (question : Bool)
  deriving DecidableEq

/-- What the reader knows: where it is, the open elements, and the attributes of the root. -/
structure State where
  mode : Mode
  stack : List (List Char)
  root : Option Attrs
  deriving DecidableEq

/-- The end of a start tag. A document has one root. -/
def openTag (σ : State) (t : Tag) : Option State :=
  match σ.stack, σ.root with
  | [], some _ => none
  | [], none => some ⟨.content 0, [t.name], some t.attrs⟩
  | stack, root => some ⟨.content 0, t.name :: stack, root⟩

/-- The end of an end tag. -/
def closeTag (σ : State) (name : List Char) : Option State :=
  match σ.stack with
  | [] => none
  | top :: rest => if top = name then some ⟨.content 0, rest, σ.root⟩ else none

/-- A start tag with one more attribute, which has to have another name than those before it. -/
def addAttr (t : Tag) (attr value : List Char) : Option Tag :=
  if attr ∈ t.attrs.map Prod.fst then none else some ⟨t.name, t.attrs ++ [(attr, value)]⟩

/-- What may follow a name or an attribute in a start tag. -/
def afterTag (σ : State) (t : Tag) (c : Char) : Option State :=
  if isSpace c then some { σ with mode := .tag t true }
  else if c = '/' then some { σ with mode := .emptyTag t }
  else if c = '>' then openTag σ t
  else none

/-- The closing brackets that were just read, of which two count. -/
def brackets (k : ℕ) (c : Char) : ℕ := if c = ']' then min 2 (k + 1) else 0

/-- One character. -/
def step (σ : State) (c : Char) : Option State :=
  let go (mode : Mode) : Option State := some { σ with mode }
  match σ.mode with
  | .content k =>
    if c = '<' then go .markup
    else if σ.stack = [] then if isSpace c then go (.content 0) else none
    else if c = '&' then go (.contentRef [])
    else if c = '>' ∧ k = 2 then none
    else if isChar c then go (.content (brackets k c))
    else none
  | .contentRef ref =>
    if c = ';' then if (resolve ref).isSome then go (.content 0) else none
    else if isRefChar c then go (.contentRef (ref ++ [c]))
    else none
  | .markup =>
    if c = '/' then go (.endName [])
    else if c = '!' then go (.declaration [])
    else if c = '?' then go (.target [])
    else if isNameStart c then go (.startName [c])
    else none
  | .startName name => if isName c then go (.startName (name ++ [c])) else afterTag σ ⟨name, []⟩ c
  | .tag t spaced => if spaced ∧ isNameStart c then go (.attrName t [c]) else afterTag σ t c
  | .attrName t attr =>
    if isName c then go (.attrName t (attr ++ [c]))
    else if c = '=' then go (.attrStart t attr)
    else if isSpace c then go (.attrEq t attr)
    else none
  | .attrEq t attr =>
    if c = '=' then go (.attrStart t attr) else if isSpace c then go (.attrEq t attr) else none
  | .attrStart t attr =>
    if c = '"' ∨ c = '\'' then go (.attrValue t attr c [] false)
    else if isSpace c then go (.attrStart t attr)
    else none
  | .attrValue t attr quote value returned =>
    if c = quote then (addAttr t attr value).bind fun t => go (.tag t false)
    else if c = '<' then none
    else if c = '&' then go (.attrRef t attr quote value [])
    else if c = '\n' ∧ returned then go (.attrValue t attr quote value false)
    else if isSpace c then go (.attrValue t attr quote (value ++ [' ']) (c = '\r'))
    else if isChar c then go (.attrValue t attr quote (value ++ [c]) false)
    else none
  | .attrRef t attr quote value ref =>
    if c = ';' then (resolve ref).bind fun x => go (.attrValue t attr quote (value ++ [x]) false)
    else if isRefChar c then go (.attrRef t attr quote value (ref ++ [c]))
    else none
  | .emptyTag t =>
    if c = '>' then (openTag σ t).map fun τ => { τ with stack := σ.stack } else none
  | .endName name =>
    if isName c then go (.endName (name ++ [c]))
    else if c = '>' then closeTag σ name
    else if isSpace c then go (.endSpace name)
    else none
  | .endSpace name =>
    if isSpace c then go (.endSpace name) else if c = '>' then closeTag σ name else none
  | .declaration text =>
    let text := text ++ [c]
    if text = ['-', '-'] then go (.comment 0)
    else if text = ['[', 'C', 'D', 'A', 'T', 'A', '['] then
      if σ.stack = [] then none else go (.cdata 0)
    else if text <+: ['-', '-'] ∨ text <+: ['[', 'C', 'D', 'A', 'T', 'A', '['] then
      go (.declaration text)
    else none
  | .comment dashes =>
    if dashes = 2 then if c = '>' then go (.content 0) else none
    else if c = '-' then go (.comment (dashes + 1))
    else if isChar c then go (.comment 0)
    else none
  | .cdata k =>
    if c = '>' ∧ k = 2 then go (.content 0)
    else if isChar c then go (.cdata (brackets k c))
    else none
  | .target name =>
    if isNameStart c ∨ (name ≠ [] ∧ isName c) then go (.target (name ++ [c]))
    else if name = [] ∨ name.map Char.toLower = ['x', 'm', 'l'] then none
    else if c = '?' then go .targetEnd
    else if isSpace c then go (.instruction false)
    else none
  | .targetEnd => if c = '>' then go (.content 0) else none
  | .instruction question =>
    if c = '>' ∧ question then go (.content 0)
    else if isChar c then go (.instruction (c = '?'))
    else none

/-- The characters of a text, one after the other. -/
def run (σ : State) (s : List Char) : Option State := s.foldlM step σ

/-- The declaration at the beginning of a document. -/
def xmlDeclaration : List Char := "<?xml version=\"1.0\" encoding=\"UTF-8\"?>".toList

/-- The attributes of the root of a well-formed document that begins with the declaration. -/
def read (s : List Char) : Option Attrs :=
  if xmlDeclaration <+: s then
    match run ⟨.content 0, [], none⟩ (s.drop xmlDeclaration.length) with
    | some ⟨.content _, [], root⟩ => root
    | _ => none
  else none

/-! ## Runs -/

theorem run_nil (σ : State) : run σ [] = some σ := rfl

theorem run_cons (σ : State) (c : Char) (s : List Char) :
    run σ (c :: s) = (step σ c).bind fun τ => run τ s := List.foldlM_cons

theorem run_append (σ : State) (s t : List Char) :
    run σ (s ++ t) = (run σ s).bind fun τ => run τ t := List.foldlM_append

/-- A document is read by following its text after the declaration. -/
theorem read_append (s : List Char) :
    read (xmlDeclaration ++ s) = match run ⟨.content 0, [], none⟩ s with
      | some ⟨.content _, [], root⟩ => root
      | _ => none := by
  unfold read
  rw [if_pos (List.prefix_append _ _), List.drop_left]

theorem read_append_eq_some {s : List Char} {attrs : Attrs} :
    read (xmlDeclaration ++ s) = some attrs ↔
      ∃ k, run ⟨.content 0, [], none⟩ s = some ⟨.content k, [], some attrs⟩ := by
  rw [read_append]
  constructor
  · intro h
    split at h
    · next k root hrun => exact ⟨k, by rw [hrun, h]⟩
    · cases h
  · rintro ⟨k, hrun⟩
    rw [hrun]

/-! ## The root -/

section

variable {mode : Mode} {stack : List (List Char)} {r : Attrs}

theorem openTag_root (r' : Attrs) (t : Tag) : openTag ⟨mode, stack, some r'⟩ t =
    (openTag ⟨mode, stack, some r⟩ t).map fun τ => ⟨τ.mode, τ.stack, some r'⟩ := by
  cases stack <;> rfl

theorem closeTag_root (r' : Attrs) (name : List Char) : closeTag ⟨mode, stack, some r'⟩ name =
    (closeTag ⟨mode, stack, some r⟩ name).map fun τ => ⟨τ.mode, τ.stack, some r'⟩ := by
  cases stack with
  | nil => rfl
  | cons top rest =>
    unfold closeTag
    simp only
    split_ifs <;> rfl

theorem afterTag_root (r' : Attrs) (t : Tag) (c : Char) : afterTag ⟨mode, stack, some r'⟩ t c =
    (afterTag ⟨mode, stack, some r⟩ t c).map fun τ => ⟨τ.mode, τ.stack, some r'⟩ := by
  unfold afterTag
  split_ifs
  · rfl
  · rfl
  · exact openTag_root r' t
  · rfl

/-- Once the root is open, nothing that is read depends on its attributes. -/
theorem step_root (r' : Attrs) (c : Char) : step ⟨mode, stack, some r'⟩ c =
    (step ⟨mode, stack, some r⟩ c).map fun τ => ⟨τ.mode, τ.stack, some r'⟩ := by
  cases mode
  case tag t spaced =>
    simp only [step]
    split_ifs
    · rfl
    · exact afterTag_root r' t c
  case startName name =>
    simp only [step]
    split_ifs
    · rfl
    · exact afterTag_root r' _ c
  case emptyTag t =>
    simp only [step]
    split_ifs
    · rw [openTag_root (r := r) r', Option.map_map, Option.map_map]
      rfl
    · rfl
  case endName name =>
    simp only [step]
    split_ifs
    · rfl
    · exact closeTag_root r' name
    · rfl
    · rfl
  case endSpace name =>
    simp only [step]
    split_ifs
    · rfl
    · exact closeTag_root r' name
    · rfl
  case attrValue t attr quote value returned =>
    simp only [step]
    split_ifs <;> first | rfl | (cases addAttr t attr value <;> rfl)
  case attrRef t attr quote value ref =>
    simp only [step]
    split_ifs <;> first | rfl | (cases resolve ref <;> rfl)
  -- the other modes look neither at the stack nor at the root, or at whether the stack is empty
  all_goals
    simp only [step]
    split_ifs <;> rfl

end

/-- A step leaves the root open. -/
theorem root_of_step {σ τ : State} {c : Char} {r : Attrs} (hr : σ.root = some r)
    (h : step σ c = some τ) : τ.root = some r := by
  obtain ⟨mode, stack, root⟩ := σ
  obtain rfl : root = some r := hr
  rw [step_root (r := r) r] at h
  obtain ⟨τ', -, rfl⟩ := Option.map_eq_some_iff.mp h
  rfl

theorem run_root {mode : Mode} {stack : List (List Char)} {r : Attrs} (r' : Attrs)
    (s : List Char) : run ⟨mode, stack, some r'⟩ s =
      (run ⟨mode, stack, some r⟩ s).map fun τ => ⟨τ.mode, τ.stack, some r'⟩ := by
  induction s generalizing mode stack with
  | nil => rfl
  | cons c s ih =>
    rw [run_cons, run_cons, step_root (r := r) r']
    cases hstep : step ⟨mode, stack, some r⟩ c with
    | none => rfl
    | some τ =>
      obtain ⟨mode', stack', root'⟩ := τ
      obtain rfl : root' = some r := root_of_step rfl hstep
      exact ih

theorem root_of_run {σ τ : State} {s : List Char} {r : Attrs} (hr : σ.root = some r)
    (h : run σ s = some τ) : τ.root = some r := by
  obtain ⟨mode, stack, root⟩ := σ
  obtain rfl : root = some r := hr
  rw [run_root (r := r) r] at h
  obtain ⟨τ', -, rfl⟩ := Option.map_eq_some_iff.mp h
  rfl

/-! ## Start tags -/

/-- The start tag that is being read. -/
def Mode.tag? : Mode → Option Tag
  | .tag t _ | .attrName t _ | .attrEq t _ | .attrStart t _ | .attrValue t _ _ _ _
  | .attrRef t _ _ _ _ | .emptyTag t => some t
  | _ => none

/-- What a step makes of a start tag: it goes on, with the attributes that it has, or it ends. -/
def Follows (σ : State) (t : Tag) (τ : State) : Prop :=
  (∃ t', τ.mode.tag? = some t' ∧ t.attrs <+: t'.attrs ∧ τ.stack = σ.stack ∧ τ.root = σ.root) ∨
    (σ.stack = [] → σ.root = none → τ.root = some t.attrs)

theorem follows_openTag {σ τ : State} {t : Tag} (h : openTag σ t = some τ) : Follows σ t τ := by
  refine .inr fun hstack hroot => ?_
  obtain ⟨mode, stack, root⟩ := σ
  obtain rfl : stack = [] := hstack
  obtain rfl : root = none := hroot
  obtain rfl := Option.some_inj.mp h
  rfl

theorem follows_go {σ : State} {t : Tag} {mode : Mode} (h : mode.tag? = some t) :
    Follows σ t { σ with mode } :=
  .inl ⟨t, h, List.prefix_rfl, rfl, rfl⟩

theorem follows_afterTag {σ τ : State} {t : Tag} {c : Char} (h : afterTag σ t c = some τ) :
    Follows σ t τ := by
  unfold afterTag at h
  split_ifs at h
  · obtain rfl := Option.some_inj.mp h
    exact follows_go rfl
  · obtain rfl := Option.some_inj.mp h
    exact follows_go rfl
  · exact follows_openTag h

theorem step_of_tag {σ τ : State} {c : Char} {t : Tag} (ht : σ.mode.tag? = some t)
    (h : step σ c = some τ) : Follows σ t τ := by
  obtain ⟨mode, stack, root⟩ := σ
  cases mode
  case tag t spaced =>
    obtain rfl := Option.some_inj.mp ht
    simp only [step] at h
    split_ifs at h
    · obtain rfl := Option.some_inj.mp h
      exact follows_go rfl
    · exact follows_afterTag h
  case emptyTag t =>
    obtain rfl := Option.some_inj.mp ht
    simp only [step] at h
    split_ifs at h
    obtain ⟨τ', hopen, rfl⟩ := Option.map_eq_some_iff.mp h
    obtain ⟨t', ht', hattrs, hstack, hroot⟩ | hroot := follows_openTag hopen
    · exact .inl ⟨t', ht', hattrs, rfl, hroot⟩
    · exact .inr hroot
  case attrValue t attr quote value returned =>
    obtain rfl := Option.some_inj.mp ht
    simp only [step] at h
    split_ifs at h
    · obtain ⟨t', hadd, h⟩ := Option.bind_eq_some_iff.mp h
      obtain rfl := Option.some_inj.mp h
      unfold addAttr at hadd
      split_ifs at hadd
      obtain rfl := Option.some_inj.mp hadd
      exact .inl ⟨_, rfl, List.prefix_append _ _, rfl, rfl⟩
    all_goals
      obtain rfl := Option.some_inj.mp h
      exact follows_go rfl
  case attrRef t attr quote value ref =>
    obtain rfl := Option.some_inj.mp ht
    simp only [step] at h
    split_ifs at h
    · obtain ⟨x, -, h⟩ := Option.bind_eq_some_iff.mp h
      obtain rfl := Option.some_inj.mp h
      exact follows_go rfl
    · obtain rfl := Option.some_inj.mp h
      exact follows_go rfl
  case attrName t attr | attrEq t attr | attrStart t attr =>
    obtain rfl := Option.some_inj.mp ht
    simp only [step] at h
    split_ifs at h
    all_goals
      obtain rfl := Option.some_inj.mp h
      exact follows_go rfl
  all_goals cases ht

/-- The attributes of the start tag of the root are in the root. -/
theorem run_of_tag {σ τ : State} {s : List Char} {t : Tag} (ht : σ.mode.tag? = some t)
    (hstack : σ.stack = []) (hroot : σ.root = none) (h : run σ s = some τ)
    (hend : τ.mode.tag? = none) : ∃ attrs, τ.root = some attrs ∧ t.attrs <+: attrs := by
  induction s generalizing σ t with
  | nil =>
    obtain rfl := Option.some_inj.mp h
    rw [ht] at hend
    cases hend
  | cons c s ih =>
    rw [run_cons] at h
    obtain ⟨σ', hstep, hrun⟩ := Option.bind_eq_some_iff.mp h
    obtain ⟨t', ht', hattrs, hstack', hroot'⟩ | hopen := step_of_tag ht hstep
    · obtain ⟨attrs, hattrs', hsub⟩ := ih ht' (hstack'.trans hstack) (hroot'.trans hroot) hrun
      exact ⟨attrs, hattrs', hattrs.trans hsub⟩
    · exact ⟨t.attrs, root_of_run (hopen hstack hroot) hrun, List.prefix_rfl⟩

/-! ## Values of attributes -/

/-- A character that a quoted value may have as it stands, and that is kept as it is. -/
def isPlain (quote c : Char) : Bool :=
  isChar c && c != quote && c != '<' && c != '&' && (!isSpace c || c == ' ')

/-- What the reader makes of a character of a value that stands for itself. -/
def blank (c : Char) : Char := if isSpace c then ' ' else c

section

variable {t : Tag} {attr value : List Char} {quote : Char} {returned : Bool}
  {stack : List (List Char)} {root : Option Attrs} {τ : State}

/-- A plain character is kept. -/
theorem step_plain {c : Char} (h : isPlain quote c = true) :
    step ⟨.attrValue t attr quote value returned, stack, root⟩ c =
      some ⟨.attrValue t attr quote (value ++ [c]) false, stack, root⟩ := by
  unfold isPlain at h
  simp only [Bool.and_eq_true, bne_iff_ne, Bool.or_eq_true, Bool.not_eq_true', beq_iff_eq] at h
  obtain ⟨⟨⟨⟨hchar, hquote⟩, hlt⟩, hamp⟩, hspace⟩ := h
  simp only [step]
  rw [if_neg hquote, if_neg hlt, if_neg hamp]
  rcases hspace with hspace | rfl
  · have hnewline : c ≠ '\n' := by
      rintro rfl
      exact absurd hspace (by decide)
    rw [if_neg (fun h => hnewline h.1), if_neg (by rw [hspace]; simp), if_pos hchar]
  · rw [if_neg (by simp), if_pos (by decide)]
    rfl

/-- A plain text is read as it is. -/
theorem run_plain {s : List Char} (h : ∀ c ∈ s, isPlain quote c = true) :
    ∃ returned', run ⟨.attrValue t attr quote value returned, stack, root⟩ s =
      some ⟨.attrValue t attr quote (value ++ s) returned', stack, root⟩ := by
  induction s generalizing value returned with
  | nil =>
    rw [List.append_nil]
    exact ⟨returned, rfl⟩
  | cons c s ih =>
    obtain ⟨hc, hs⟩ := List.forall_mem_cons.mp h
    obtain ⟨returned', hrun⟩ := @ih (value ++ [c]) false hs
    rw [run_cons, step_plain hc, Option.bind_some, hrun, List.append_assoc]
    exact ⟨returned', rfl⟩

/-- A reference goes on to its semicolon, and then stands for a character. -/
theorem exists_reference {ref s : List Char} {k : ℕ} (hquote : isRefChar quote = false)
    (hsemicolon : quote ≠ ';')
    (h : run ⟨.attrRef t attr quote value ref, stack, root⟩ s = some τ)
    (hend : τ.mode = .content k) :
    ∃ y x rest, s = y ++ rest ∧ y ≠ [] ∧ quote ∉ y ∧
      run ⟨.attrValue t attr quote (value ++ [x]) false, stack, root⟩ rest = some τ := by
  induction s generalizing ref with
  | nil =>
    obtain rfl := Option.some_inj.mp h
    cases hend
  | cons c s ih =>
    rw [run_cons] at h
    obtain ⟨σ, hstep, hrun⟩ := Option.bind_eq_some_iff.mp h
    simp only [step] at hstep
    split_ifs at hstep with hc href
    · obtain ⟨x, -, hstep⟩ := Option.bind_eq_some_iff.mp hstep
      obtain rfl := Option.some_inj.mp hstep
      refine ⟨[c], x, s, rfl, List.cons_ne_nil _ _, ?_, hrun⟩
      rw [List.mem_singleton, hc]
      exact hsemicolon
    · obtain rfl := Option.some_inj.mp hstep
      obtain ⟨y, x, rest, rfl, -, hno, hrun⟩ := ih hrun
      refine ⟨c :: y, x, rest, rfl, List.cons_ne_nil _ _, ?_, hrun⟩
      rw [List.mem_cons, not_or]
      refine ⟨?_, hno⟩
      rintro rfl
      rw [hquote] at href
      cases href

/-- A value goes on to its quote. What is read of it is no longer than it is, and has its length
only if each of its characters stands for itself. -/
theorem exists_value {s : List Char} {k : ℕ} (hquote : isRefChar quote = false)
    (hsemicolon : quote ≠ ';')
    (h : run ⟨.attrValue t attr quote value returned, stack, root⟩ s = some τ)
    (hend : τ.mode = .content k) :
    ∃ x rest read t', s = x ++ quote :: rest ∧ quote ∉ x ∧
      addAttr t attr (value ++ read) = some t' ∧
      run ⟨.tag t' false, stack, root⟩ rest = some τ ∧ read.length ≤ x.length ∧
      (read.length = x.length →
        read = x.map blank ∧ ∀ c ∈ x, c ≠ '<' ∧ c ≠ '&' ∧ isChar c = true) := by
  induction hn : s.length using Nat.strongRecOn generalizing s value returned with
  | _ n ih =>
    subst hn
    cases s with
    | nil =>
      obtain rfl := Option.some_inj.mp h
      cases hend
    | cons c s =>
      rw [run_cons] at h
      obtain ⟨σ, hstep, hrun⟩ := Option.bind_eq_some_iff.mp h
      simp only [step] at hstep
      split_ifs at hstep with hc hlt hamp hreturn hspace hchar
      · -- the quote
        obtain ⟨t', hadd, hstep⟩ := Option.bind_eq_some_iff.mp hstep
        obtain rfl := Option.some_inj.mp hstep
        refine ⟨[], s, [], t', by rw [hc]; rfl, List.not_mem_nil, ?_, hrun, Nat.le_refl _, ?_⟩
        · rw [List.append_nil]
          exact hadd
        · exact fun _ => ⟨rfl, fun c hc => absurd hc List.not_mem_nil⟩
      · -- a reference, which is longer than its character
        obtain rfl := Option.some_inj.mp hstep
        obtain ⟨y, x, rest, rfl, hne, hno, hrun⟩ := exists_reference hquote hsemicolon hrun hend
        obtain ⟨x', rest', read, t', rfl, hno', hadd, hrun, hle, -⟩ :=
          ih rest.length (by simp only [List.length_cons, List.length_append]; omega) hrun rfl
        have hy : 0 < y.length := List.length_pos_of_ne_nil hne
        refine ⟨c :: (y ++ x'), rest', x :: read, t', by simp, ?_, ?_, hrun, ?_, fun hlen => ?_⟩
        · simp only [List.mem_cons, List.mem_append, not_or]
          exact ⟨Ne.symm hc, hno, hno'⟩
        · rw [List.append_assoc] at hadd
          exact hadd
        · simp only [List.length_cons, List.length_append]
          omega
        · simp only [List.length_cons, List.length_append] at hlen
          omega
      · -- the newline of a line end, which is passed over
        obtain rfl := Option.some_inj.mp hstep
        obtain ⟨x, rest, read, t', rfl, hno, hadd, hrun, hle, -⟩ := ih s.length (by simp) hrun rfl
        refine ⟨c :: x, rest, read, t', rfl, ?_, hadd, hrun, ?_, fun hlen => ?_⟩
        · rw [List.mem_cons, not_or]
          exact ⟨Ne.symm hc, hno⟩
        · rw [List.length_cons]
          omega
        · rw [List.length_cons] at hlen
          omega
      · obtain rfl := Option.some_inj.mp hstep
        obtain ⟨x, rest, read, t', rfl, hno, hadd, hrun, hle, heq⟩ := ih s.length (by simp) hrun rfl
        refine ⟨c :: x, rest, ' ' :: read, t', rfl, ?_, ?_, hrun, ?_, fun hlen => ?_⟩
        · rw [List.mem_cons, not_or]
          exact ⟨Ne.symm hc, hno⟩
        · rw [List.append_assoc] at hadd
          exact hadd
        · rw [List.length_cons, List.length_cons]
          omega
        · rw [List.length_cons, List.length_cons] at hlen
          obtain ⟨hread, hall⟩ := heq (by omega)
          have hblank : blank c = ' ' := if_pos hspace
          refine ⟨by rw [List.map_cons, hblank, hread], List.forall_mem_cons.mpr ⟨?_, hall⟩⟩
          refine ⟨hlt, hamp, ?_⟩
          unfold isSpace at hspace
          unfold isChar
          simp only [Bool.or_eq_true, beq_iff_eq] at hspace
          rcases hspace with ((rfl | rfl) | rfl) | rfl <;> decide
      · obtain rfl := Option.some_inj.mp hstep
        obtain ⟨x, rest, read, t', rfl, hno, hadd, hrun, hle, heq⟩ := ih s.length (by simp) hrun rfl
        refine ⟨c :: x, rest, c :: read, t', rfl, ?_, ?_, hrun, ?_, fun hlen => ?_⟩
        · rw [List.mem_cons, not_or]
          exact ⟨Ne.symm hc, hno⟩
        · rw [List.append_assoc] at hadd
          exact hadd
        · rw [List.length_cons, List.length_cons]
          omega
        · rw [List.length_cons, List.length_cons] at hlen
          obtain ⟨hread, hall⟩ := heq (by omega)
          have hblank : blank c = c := if_neg hspace
          refine ⟨by rw [List.map_cons, hblank, hread], List.forall_mem_cons.mpr ⟨?_, hall⟩⟩
          exact ⟨hlt, hamp, hchar⟩

/-- A value reads as itself only if it is plain. -/
theorem isPlain_of_map_blank {s : List Char} (hquote : quote ∉ s) (hblank : s = s.map blank)
    (h : ∀ c ∈ s, c ≠ '<' ∧ c ≠ '&' ∧ isChar c = true) : ∀ c ∈ s, isPlain quote c = true := by
  have hall : ∀ c ∈ s, blank c = c := by
    intro c hc
    obtain ⟨i, hi, rfl⟩ := List.getElem_of_mem hc
    have hget := congrArg (·[i]?) hblank
    simp only [List.getElem?_map, List.getElem?_eq_getElem hi, Option.map_some,
      Option.some_inj] at hget
    exact hget.symm
  intro c hc
  obtain ⟨hlt, hamp, hchar⟩ := h c hc
  have hne : c ≠ quote := by
    rintro rfl
    exact hquote hc
  have hspace : isSpace c = false ∨ c = ' ' := by
    have hb := hall c hc
    unfold blank at hb
    split_ifs at hb with hs
    · exact .inr hb.symm
    · exact .inl (Bool.eq_false_iff.mpr hs)
  unfold isPlain
  simp only [Bool.and_eq_true, bne_iff_ne, Bool.or_eq_true, Bool.not_eq_true', beq_iff_eq]
  exact ⟨⟨⟨⟨hchar, hne⟩, hlt⟩, hamp⟩, hspace⟩

/-- A plain text ends at the quote. -/
theorem run_plain_append {s rest : List Char} (h : ∀ c ∈ s, isPlain quote c = true) :
    run ⟨.attrValue t attr quote value returned, stack, root⟩ (s ++ quote :: rest) =
      (addAttr t attr (value ++ s)).bind fun t' => run ⟨.tag t' false, stack, root⟩ rest := by
  obtain ⟨returned', hrun⟩ := @run_plain t attr value quote returned stack root s h
  rw [run_append, hrun, Option.bind_some, run_cons]
  have hstep : step ⟨.attrValue t attr quote (value ++ s) returned', stack, root⟩ quote =
      (addAttr t attr (value ++ s)).bind fun t' => some ⟨.tag t' false, stack, root⟩ := if_pos rfl
  rw [hstep]
  cases addAttr t attr (value ++ s) <;> rfl

end

/-- What stands before the first quote is no longer than a text that a quote follows, and is that
text if it is no shorter. -/
theorem length_le_of_append {s x rest rest' : List Char} {quote : Char} (hx : quote ∉ x)
    (h : s ++ quote :: rest = x ++ quote :: rest') :
    x.length ≤ s.length ∧ (s.length ≤ x.length → s = x) := by
  have hle : x.length ≤ s.length := by
    by_contra hlt
    have hlen : s.length < x.length := by omega
    have hget := congrArg (·[s.length]?) h
    simp only [List.getElem?_append_left hlen, List.getElem?_append_right (Nat.le_refl _),
      Nat.sub_self, List.getElem?_cons_zero] at hget
    exact hx (List.mem_of_getElem? hget.symm)
  refine ⟨hle, fun hge => ?_⟩
  exact (List.append_inj h (by omega)).1

theorem lookup_of_added {attrs attrs' : Attrs} {attr x : List Char}
    (hnew : attr ∉ attrs.map Prod.fst) (h : attrs ++ [(attr, x)] <+: attrs') :
    attrs'.lookup attr = some x := by
  obtain ⟨more, rfl⟩ := h
  have hnone : attrs.lookup attr = none := by
    rw [List.lookup_eq_none_iff]
    intro p hp
    have hne : attr ≠ p.1 := fun h => hnew (h ▸ List.mem_map_of_mem hp)
    simpa using hne
  rw [List.lookup_append, List.lookup_append, hnone, Option.none_or, List.lookup_cons_self,
    Option.some_or]

/-- A text that is put into the start tag of the root as the value of an attribute. The document is
well formed and the attribute has the text exactly when the text is plain and the reader comes from
behind it to the end. -/
theorem reads_value_iff {t : Tag} {attr s rest : List Char} {quote : Char}
    (hquote : isRefChar quote = false) (hsemicolon : quote ≠ ';')
    (hnew : attr ∉ t.attrs.map Prod.fst) :
    (∃ k attrs, run ⟨.attrValue t attr quote [] false, [], none⟩ (s ++ quote :: rest) =
        some ⟨.content k, [], some attrs⟩ ∧ attrs.lookup attr = some s) ↔
      (∀ c ∈ s, isPlain quote c = true) ∧ ∃ k attrs,
        run ⟨.tag ⟨t.name, t.attrs ++ [(attr, s)]⟩ false, [], none⟩ rest =
          some ⟨.content k, [], some attrs⟩ := by
  have hadd : ∀ x, addAttr t attr x = some ⟨t.name, t.attrs ++ [(attr, x)]⟩ := fun _ => if_neg hnew
  have hvalue : (∀ c ∈ s, isPlain quote c = true) →
      run ⟨.attrValue t attr quote [] false, [], none⟩ (s ++ quote :: rest) =
        run ⟨.tag ⟨t.name, t.attrs ++ [(attr, s)]⟩ false, [], none⟩ rest := by
    intro hs
    rw [run_plain_append hs, List.nil_append, hadd, Option.bind_some]
  constructor
  · rintro ⟨k, attrs, hrun, hlookup⟩
    obtain ⟨x, rest', read, t', heq, hno, hadd', htag, hle, hall⟩ :=
      exists_value hquote hsemicolon hrun rfl
    rw [List.nil_append, hadd] at hadd'
    obtain rfl := Option.some_inj.mp hadd'
    obtain ⟨attrs', hattrs', hbegins⟩ := run_of_tag rfl rfl rfl htag rfl
    obtain rfl := Option.some_inj.mp hattrs'
    -- what is read is the text, so that the text is no longer than what it was read from
    have hread : read = s := by
      rw [lookup_of_added hnew hbegins] at hlookup
      exact Option.some_inj.mp hlookup
    obtain ⟨hxs, hsx⟩ := length_le_of_append hno heq
    subst hread
    obtain rfl := hsx hle
    obtain ⟨hblank, hchars⟩ := hall rfl
    have hplain := isPlain_of_map_blank hno hblank hchars
    exact ⟨hplain, k, attrs, (hvalue hplain).symm.trans hrun⟩
  · rintro ⟨hs, k, attrs, hrun⟩
    obtain ⟨attrs', hattrs', hbegins⟩ := run_of_tag rfl rfl rfl hrun rfl
    obtain rfl := Option.some_inj.mp hattrs'
    exact ⟨k, attrs, (hvalue hs).trans hrun, lookup_of_added hnew hbegins⟩

/-! ## Texts in elements -/

/-- How the characters of a text are written in an element. -/
def escapeChar (c : Char) : List Char :=
  if c = '&' then ['&', 'a', 'm', 'p', ';']
  else if c = '>' then ['&', 'g', 't', ';']
  else if c = '<' then ['&', 'l', 't', ';']
  else [c]

/-- A text as it is written in an element. -/
def escape (s : List Char) : List Char := s.flatMap escapeChar

theorem escape_cons (c : Char) (s : List Char) : escape (c :: s) = escapeChar c ++ escape s :=
  List.flatMap_cons

/-- A character that a document may have and that is no markup. -/
def isText (c : Char) : Bool := isChar c && c != '&' && c != '>' && c != '<'

theorem isText_iff {c : Char} :
    isText c = true ↔ isChar c = true ∧ c ≠ '&' ∧ c ≠ '>' ∧ c ≠ '<' := by
  unfold isText
  simp only [Bool.and_eq_true, bne_iff_ne, and_assoc]

/-- A text without markup is written as it is. -/
theorem escape_eq_self {s : List Char} (h : ∀ c ∈ s, isText c = true) : escape s = s := by
  induction s with
  | nil => rfl
  | cons c s ih =>
    obtain ⟨hc, hs⟩ := List.forall_mem_cons.mp h
    obtain ⟨-, hamp, hgt, hlt⟩ := isText_iff.mp hc
    have hself : escapeChar c = [c] := by
      unfold escapeChar
      rw [if_neg hamp, if_neg hgt, if_neg hlt]
    rw [escape_cons, hself, ih hs, List.singleton_append]

section

variable {name : List Char} {names : List (List Char)} {root : Option Attrs}

/-- The writing of a character is read, in an element, exactly if a document may have it. -/
theorem run_escapeChar (k : ℕ) (c : Char) : ∃ k', ∀ s,
    run ⟨.content k, name :: names, root⟩ (escapeChar c ++ s) =
      if isChar c then run ⟨.content k', name :: names, root⟩ s else none := by
  unfold escapeChar
  by_cases hamp : c = '&'
  · subst hamp
    exact ⟨0, fun s => rfl⟩
  by_cases hgt : c = '>'
  · subst hgt
    exact ⟨0, fun s => rfl⟩
  by_cases hlt : c = '<'
  · subst hlt
    exact ⟨0, fun s => rfl⟩
  refine ⟨brackets k c, fun s => ?_⟩
  have hstep : step ⟨.content k, name :: names, root⟩ c =
      if isChar c then some ⟨.content (brackets k c), name :: names, root⟩ else none := by
    simp only [step]
    rw [if_neg hlt, if_neg (List.cons_ne_nil _ _), if_neg hamp, if_neg (fun h => hgt h.1)]
  rw [if_neg hamp, if_neg hgt, if_neg hlt, List.singleton_append, run_cons, hstep]
  split_ifs <;> rfl

/-- An escaped text is read up to the next tag, if a document may have its characters. -/
theorem run_escape_eq_some {k : ℕ} {s rest : List Char} {τ : State} :
    run ⟨.content k, name :: names, root⟩ (escape s ++ '<' :: rest) = some τ ↔
      (∀ c ∈ s, isChar c = true) ∧ run ⟨.markup, name :: names, root⟩ rest = some τ := by
  induction s generalizing k with
  | nil =>
    have hall : ∀ c ∈ ([] : List Char), isChar c = true := fun c hc => absurd hc List.not_mem_nil
    exact (and_iff_right hall).symm
  | cons c s ih =>
    obtain ⟨k', hrun⟩ := @run_escapeChar name names root k c
    rw [escape_cons, List.append_assoc, hrun, List.forall_mem_cons, and_assoc, ← @ih k']
    by_cases hc : isChar c = true
    · rw [if_pos hc]
      exact (and_iff_right hc).symm
    · rw [if_neg hc]
      exact iff_of_false (fun h => by cases h) (fun h => hc h.1)

/-- A text without markup is read up to the next tag. -/
theorem run_text_eq_some {k : ℕ} {s rest : List Char} {τ : State}
    (h : ∀ c ∈ s, isText c = true) :
    run ⟨.content k, name :: names, root⟩ (s ++ '<' :: rest) = some τ ↔
      run ⟨.markup, name :: names, root⟩ rest = some τ := by
  have hrun := @run_escape_eq_some name names root k s rest τ
  rw [escape_eq_self h] at hrun
  exact hrun.trans (and_iff_right fun c hc => (isText_iff.mp (h c hc)).1)

end

/-! ## Tags in texts -/

/-- What `<` does. Only in the text of an element does it begin a tag; a comment, a section of
characters or an instruction goes on over it. -/
theorem step_lt {σ τ : State} (h : step σ '<' = some τ) :
    (∃ k, σ.mode = .content k ∧ τ = ⟨.markup, σ.stack, σ.root⟩) ∨
      (∃ t, τ.mode = .tag t false) ∨
      τ.mode = .comment 0 ∨ τ.mode = .cdata 0 ∨ τ.mode = .instruction false := by
  obtain ⟨mode, stack, root⟩ := σ
  cases mode
  case content k =>
    obtain rfl := Option.some_inj.mp h
    exact .inl ⟨k, rfl, rfl⟩
  case comment dashes =>
    have h' : (if dashes = 2 then none else some (State.mk (.comment 0) stack root)) = some τ := h
    split_ifs at h'
    obtain rfl := Option.some_inj.mp h'
    exact .inr (.inr (.inl rfl))
  case cdata k =>
    obtain rfl := Option.some_inj.mp h
    exact .inr (.inr (.inr (.inl rfl)))
  case instruction question =>
    obtain rfl := Option.some_inj.mp h
    exact .inr (.inr (.inr (.inr rfl)))
  case attrValue t attr quote value returned =>
    simp only [step] at h
    split_ifs at h
    obtain ⟨t', -, h⟩ := Option.bind_eq_some_iff.mp h
    obtain rfl := Option.some_inj.mp h
    exact .inr (.inl ⟨t', rfl⟩)
  case declaration text =>
    have hno : ∀ s : List Char, '<' ∉ s → ¬ text ++ ['<'] <+: s := fun s hs hpre =>
      hs (hpre.subset (List.mem_append_right _ List.mem_cons_self))
    have heq : ∀ s : List Char, '<' ∉ s → text ++ ['<'] ≠ s := fun s hs h =>
      hno s hs (h ▸ List.prefix_rfl)
    simp only [step] at h
    rw [if_neg (heq _ (by decide)), if_neg (heq _ (by decide)),
      if_neg (not_or.mpr ⟨hno _ (by decide), hno _ (by decide)⟩)] at h
    cases h
  case target name =>
    simp only [step] at h
    rw [if_neg (not_or.mpr ⟨by decide, fun h => absurd h.2 (by decide)⟩)] at h
    split_ifs at h
    all_goals contradiction
  -- everywhere else it is no character that may come
  case tag t spaced =>
    cases spaced <;> cases h
  all_goals cases h

/-- A text without markup leads back to the text of the element. -/
theorem exists_run_text {name : List Char} {names : List (List Char)} {root : Option Attrs}
    (k : ℕ) {s : List Char} (h : ∀ c ∈ s, isText c = true) :
    ∃ k', run ⟨.content k, name :: names, root⟩ s =
      some ⟨.content k', name :: names, root⟩ := by
  -- the next tag can be read from where the text ends
  have hnext : run ⟨.content k, name :: names, root⟩ (s ++ ['<']) =
      some ⟨.markup, name :: names, root⟩ := (run_text_eq_some h).mpr rfl
  rw [run_append] at hnext
  obtain ⟨σ, hrun, hlt⟩ := Option.bind_eq_some_iff.mp hnext
  rw [run_cons] at hlt
  obtain ⟨τ, hstep, hτ⟩ := Option.bind_eq_some_iff.mp hlt
  obtain rfl := Option.some_inj.mp hτ
  obtain ⟨k', hmode, hσ⟩ | ⟨t, ht⟩ | ht | ht | ht := step_lt hstep
  · obtain ⟨mode, stack, root'⟩ := σ
    obtain rfl : mode = .content k' := hmode
    obtain ⟨-, rfl, rfl⟩ := State.mk.inj hσ
    exact ⟨k', hrun⟩
  all_goals cases ht

/-- White space is passed over up to the next tag. -/
theorem run_space (k : ℕ) (names : List (List Char)) (root : Option Attrs) {s : List Char}
    (rest : List Char) (h : ∀ c ∈ s, isSpace c = true) :
    run ⟨.content k, names, root⟩ (s ++ '<' :: rest) = run ⟨.markup, names, root⟩ rest := by
  induction s generalizing k with
  | nil => rfl
  | cons c s ih =>
    obtain ⟨hc, hs⟩ := List.forall_mem_cons.mp h
    have hstep : step ⟨.content k, names, root⟩ c = some ⟨.content 0, names, root⟩ := by
      unfold isSpace at hc
      simp only [Bool.or_eq_true, beq_iff_eq] at hc
      obtain ((rfl | rfl) | rfl) | rfl := hc <;> cases names <;> rfl
    rw [List.cons_append, run_cons, hstep, Option.bind_some]
    exact ih 0 hs

theorem run_endName {name read : List Char} (names : List (List Char)) (root : Option Attrs)
    (rest : List Char) (h : ∀ c ∈ name, isName c = true) :
    run ⟨.endName read, names, root⟩ (name ++ '>' :: rest) =
      (closeTag ⟨.endName (read ++ name), names, root⟩ (read ++ name)).bind
        fun τ => run τ rest := by
  induction name generalizing read with
  | nil =>
    rw [List.append_nil]
    rfl
  | cons c name ih =>
    obtain ⟨hc, hname⟩ := List.forall_mem_cons.mp h
    have hstep : step ⟨.endName read, names, root⟩ c = some ⟨.endName (read ++ [c]), names, root⟩ :=
      if_pos hc
    have hread : read ++ c :: name = read ++ [c] ++ name := by
      rw [List.append_assoc, List.singleton_append]
    rw [List.cons_append, run_cons, hstep, Option.bind_some, ih hname, hread]

/-- An end tag closes the element that was opened last, which has its name. -/
theorem run_endTag_eq_some {name : List Char} {names : List (List Char)} {root : Option Attrs}
    {rest : List Char} {τ : State} (h : ∀ c ∈ name, isName c = true) :
    run ⟨.markup, names, root⟩ ('/' :: (name ++ '>' :: rest)) = some τ ↔
      ∃ outer, names = name :: outer ∧ run ⟨.content 0, outer, root⟩ rest = some τ := by
  have hrun : run ⟨.markup, names, root⟩ ('/' :: (name ++ '>' :: rest)) =
      run ⟨.endName [], names, root⟩ (name ++ '>' :: rest) := rfl
  rw [hrun, run_endName names root rest h, List.nil_append]
  constructor
  · intro h
    obtain ⟨σ, hclose, hrest⟩ := Option.bind_eq_some_iff.mp h
    unfold closeTag at hclose
    split at hclose
    · cases hclose
    · next top outer hnames =>
      split_ifs at hclose with htop
      obtain rfl := Option.some_inj.mp hclose
      refine ⟨outer, ?_, hrest⟩
      rw [← htop]
      exact hnames
  · rintro ⟨outer, rfl, hrest⟩
    have hclose : closeTag ⟨.endName name, name :: outer, root⟩ name =
        some ⟨.content 0, outer, root⟩ := if_pos rfl
    rw [hclose]
    exact hrest

end ControlPlane.XmlText
