import ControlPlane.Intel.PromptInjection
import ControlPlane.Lib.CypherTokens

/-!
# The queries that the agent runs

`execute_query_kg` of `agent/tools.py`, which refuses a query that a pattern finds a keyword for
writing in. The pattern looks at the query as it is written, and the database at its tokens: between
and in them there can be escapes and comments that the pattern does not know. A query that is run
has none of the keywords just when none of them is hidden so (`runs_readOnly_iff`).
-/

namespace ControlPlane.Intel

open JsonText Cypher

/-! ## The pattern -/

open Rx Pattern in
/-- The alternatives of `_KG_WRITE_KEYWORD_RE` behind the first. -/
def MORE_WRITE_KEYWORDS : List Pattern :=
  [text "DELETE", text "MERGE", text "SET", text "REMOVE", text "DROP", text "DETACH",
    text "FOREACH", all [text "LOAD", spaces, text "CSV"], all [text "CALL", spaces, text "DBMS"],
    all [text "CALL", spaces, text "APOC.LOAD"]]

open Rx Pattern in
/-- `_KG_WRITE_KEYWORD_RE`. -/
def KG_WRITE_KEYWORD_RE : Pattern :=
  all [boundary, anyOf (text "CREATE") MORE_WRITE_KEYWORDS, boundary]

/-- What becomes of a query. -/
inductive KgOutcome where
  /-- There is no driver. -/
  | offline
  /-- "Write operation ... rejected". -/
  | rejected
  /-- The session runs the query. -/
  | runs (cypher : PyStr)
  deriving DecidableEq

/-- `execute_query_kg`, up to what the session does. -/
def executeQueryKg (U : UnicodeTables) (driver : Bool) (cypher : PyStr) : KgOutcome :=
  if driver = false then .offline
  else if KG_WRITE_KEYWORD_RE.found U cypher then .rejected
  else .runs cypher

/-! ## What should not be run -/

/-- A token that is this word. -/
def keyword (s : String) : Piece := .word (u s)

/-- The keywords and phrases for writing, by their tokens. -/
def WRITE_TOKENS : List (Piece × List Piece) :=
  [(keyword "CREATE", []), (keyword "DELETE", []), (keyword "MERGE", []), (keyword "SET", []),
    (keyword "REMOVE", []), (keyword "DROP", []), (keyword "DETACH", []), (keyword "FOREACH", []),
    (keyword "LOAD", [keyword "CSV"]), (keyword "CALL", [keyword "DBMS"]),
    (keyword "CALL", [keyword "APOC", .symbol 46, keyword "LOAD"])]

/-- The tokens of the query have none of them. -/
def ReadOnly (T : Tables) (cypher : PyStr) : Prop :=
  ∀ p ∈ WRITE_TOKENS, containsTokens (p.1 :: p.2) (tokens T cypher) = false

/-- How a token is written plainly. -/
def IsWritten : Piece → PyStr → Prop
  | .word s, w => w.map upper = s
  | .symbol c, w => w = [c]

/-- What stands between two tokens that are written plainly: white space between words, and nothing
at a symbol. -/
def PlainGap : Piece → Piece → PyStr → Prop
  | .word _, .word _, gap => gap ≠ [] ∧ ∀ c ∈ gap, isSpace c = true
  | _, _, gap => gap = []

/-- The tokens are written plainly. -/
def PlainlyWritten : List Piece → PyStr → Prop
  | [], s => s = []
  | [p], s => IsWritten p s
  | p :: q :: ps, s => ∃ w gap rest, s = w ++ (gap ++ rest) ∧ IsWritten p w ∧ PlainGap p q gap ∧
      PlainlyWritten (q :: ps) rest

/-- Tokens in a query are not hidden from the pattern: they are written plainly, and between
characters that do not belong to words. -/
def Plain (U : UnicodeTables) (ps : List Piece) (before middle after : List Group) : Prop :=
  PlainlyWritten ps (middle.flatMap Group.written) ∧
    (∀ c ∈ (before.flatMap Group.written).getLast?, U.isWord c = false) ∧
    ∀ c ∈ (after.flatMap Group.written).head?, U.isWord c = false

/-- No keyword or phrase for writing is hidden in the query: wherever the tokens of one are, they
are plain. -/
def NothingHidden (U : UnicodeTables) (T : Tables) (cypher : PyStr) : Prop :=
  ∀ p ∈ WRITE_TOKENS, ∀ before middle after, groups T cypher = before ++ (middle ++ after) →
    Spells (p.1 :: p.2) middle → Plain U (p.1 :: p.2) before middle after

/-! ## Plain tokens are found -/

variable {U : UnicodeTables}

/-- A character of a pattern in upper case stands for its lower case too. -/
theorem sameLetter_upper (c : CodePoint) : sameLetter (upper c) c = true := by
  have hlower : lowerAscii c = lowerAscii (upper c) := by
    unfold upper
    split_ifs with hletter
    · have hc : ¬ (65 ≤ c.val ∧ c.val ≤ 90) := by omega
      have hupper : 65 ≤ c.val - 32 ∧ c.val - 32 ≤ 90 := by omega
      rw [lowerAscii, dif_neg hc, if_neg (by omega), if_neg (by omega), lowerAscii, dif_pos hupper]
      exact Fin.ext (by simp only; omega)
    · rfl
  rw [sameLetter, hlower, decide_eq_true rfl, Bool.true_or, Bool.true_or]

/-- A word that is written in either case is matched. -/
theorem takes_text {s : String} {w : PyStr} (hw : w.map upper = u s) (before : Bool)
    (rest : PyStr) : Rx.Takes (CharClass.has U) U.isWord (Pattern.text s) before w rest := by
  refine Rx.takes_word ?_ before rest
  rw [← hw, List.map_map, List.forall₂_map_left_iff, List.forall₂_same]
  exact fun c _ => sameLetter_upper c

theorem takes_spaces {gap : PyStr} (hne : gap ≠ []) (hgap : ∀ c ∈ gap, isSpace c = true)
    (before : Bool) (rest : PyStr) :
    Rx.Takes (CharClass.has U) U.isWord Pattern.spaces before gap rest :=
  Rx.takes_plus hne hgap before rest

theorem takes_cons {r : Pattern} {rs : List Pattern} {before : Bool} {m n rest : PyStr}
    (hr : Rx.Takes (CharClass.has U) U.isWord r before m (n ++ rest))
    (hrs : Rx.Takes (CharClass.has U) U.isWord (Rx.all rs) (Rx.wordBehind U.isWord before m) n
      rest) : Rx.Takes (CharClass.has U) U.isWord (Rx.all (r :: rs)) before (m ++ n) rest :=
  hr.seq hrs

theorem takes_single {r : Pattern} {before : Bool} {m rest : PyStr}
    (hr : Rx.Takes (CharClass.has U) U.isWord r before m rest) :
    Rx.Takes (CharClass.has U) U.isWord (Rx.all [r]) before m rest := by
  have hcons := @takes_cons U r [] before m [] rest hr (List.mem_singleton.mpr rfl)
  rwa [List.append_nil] at hcons

/-- Two words with white space in between. -/
theorem takes_phrase {s t : String} {w gap v : PyStr} (hw : w.map upper = u s) (hne : gap ≠ [])
    (hgap : ∀ c ∈ gap, isSpace c = true) (hv : v.map upper = u t) (before : Bool)
    (rest : PyStr) : Rx.Takes (CharClass.has U) U.isWord
      (Rx.all [Pattern.text s, Pattern.spaces, Pattern.text t]) before (w ++ (gap ++ v)) rest :=
  takes_cons (takes_text hw before _)
    (takes_cons (takes_spaces hne hgap _ _) (takes_single (takes_text hv _ rest)))

/-- The name of a procedure with a dot in it is one text of the pattern. -/
theorem map_upper_of_dotted {s t : String} {m : PyStr}
    (h : PlainlyWritten [keyword s, .symbol 46, keyword t] m) :
    m.map upper = u s ++ 46 :: u t := by
  obtain ⟨w, gap, rest, rfl, hw, rfl, dot, gap', v, rfl, rfl, rfl, hv⟩ := h
  have hw' : w.map upper = u s := hw
  have hv' : v.map upper = u t := hv
  simp only [List.nil_append, List.map_append, List.map_cons, List.map_nil, hw', hv']
  rfl

/-- Plain tokens are matched by an alternative of the pattern. -/
theorem takes_alternative {p : Piece × List Piece} (hp : p ∈ WRITE_TOKENS) {m : PyStr}
    (hm : PlainlyWritten (p.1 :: p.2) m) (before : Bool) (rest : PyStr) :
    Rx.Takes (CharClass.has U) U.isWord (Rx.anyOf (Pattern.text "CREATE") MORE_WRITE_KEYWORDS)
      before m rest := by
  have hword {s : String} (hs : Pattern.text s ∈ Pattern.text "CREATE" :: MORE_WRITE_KEYWORDS)
      (hw : m.map upper = u s) := Rx.Takes.anyOf hs (@takes_text U s m hw before rest)
  simp only [WRITE_TOKENS, List.mem_cons, List.not_mem_nil, or_false] at hp
  rcases hp with rfl | rfl | rfl | rfl | rfl | rfl | rfl | rfl | rfl | rfl | rfl
  · exact hword List.mem_cons_self hm
  · exact @hword "DELETE" (by simp [MORE_WRITE_KEYWORDS]) hm
  · exact @hword "MERGE" (by simp [MORE_WRITE_KEYWORDS]) hm
  · exact @hword "SET" (by simp [MORE_WRITE_KEYWORDS]) hm
  · exact @hword "REMOVE" (by simp [MORE_WRITE_KEYWORDS]) hm
  · exact @hword "DROP" (by simp [MORE_WRITE_KEYWORDS]) hm
  · exact @hword "DETACH" (by simp [MORE_WRITE_KEYWORDS]) hm
  · exact @hword "FOREACH" (by simp [MORE_WRITE_KEYWORDS]) hm
  · obtain ⟨w, gap, v, rfl, hw, hgap, hv⟩ := hm
    exact Rx.Takes.anyOf (by simp [MORE_WRITE_KEYWORDS])
      (@takes_phrase U "LOAD" "CSV" w gap v hw hgap.1 hgap.2 hv before rest)
  · obtain ⟨w, gap, v, rfl, hw, hgap, hv⟩ := hm
    exact Rx.Takes.anyOf (by simp [MORE_WRITE_KEYWORDS])
      (@takes_phrase U "CALL" "DBMS" w gap v hw hgap.1 hgap.2 hv before rest)
  · obtain ⟨w, gap, v, rfl, hw, hgap, hv⟩ := hm
    have hdotted : v.map upper = u "APOC.LOAD" :=
      (map_upper_of_dotted hv).trans (by decide +kernel)
    exact Rx.Takes.anyOf (by simp [MORE_WRITE_KEYWORDS])
      (@takes_phrase U "CALL" "APOC.LOAD" w gap v hw hgap.1 hgap.2 hdotted before rest)

/-- A piece that is a word of letters. -/
def lettered : Piece → Bool
  | .word s => s ≠ [] && s.all fun c => 65 ≤ c.val && c.val ≤ 90
  | .symbol _ => false

theorem isWord_of_upper {c : CodePoint} (h : 65 ≤ (upper c).val ∧ (upper c).val ≤ 90) :
    U.isWord c = true := by
  unfold upper at h
  split_ifs at h with hletter
  · rw [U.word_ascii c (by omega)]
    simp [hletter]
  · rw [U.word_ascii c (by omega)]
    simp [h]

/-- A word of letters is written with characters of words. -/
theorem isWord_of_writes {p : Piece} (hp : lettered p = true) {w : PyStr} (hw : IsWritten p w) :
    w ≠ [] ∧ ∀ c ∈ w, U.isWord c = true := by
  cases p with
  | symbol c => exact absurd hp Bool.false_ne_true
  | word s =>
    obtain rfl : w.map upper = s := hw
    rw [lettered, Bool.and_eq_true, decide_eq_true_iff, List.all_eq_true] at hp
    refine ⟨fun hnil => hp.1 (by rw [hnil]; rfl), fun c hc => ?_⟩
    exact isWord_of_upper (by simpa using hp.2 _ (List.mem_map_of_mem hc))

/-- Tokens that begin with a word of letters begin with a character of words. -/
theorem head_of_plainlyWritten {p : Piece} {ps : List Piece} (hp : lettered p = true) {m : PyStr}
    (hm : PlainlyWritten (p :: ps) m) : ∃ c rest, m = c :: rest ∧ U.isWord c = true := by
  obtain ⟨w, rest, rfl, hw⟩ : ∃ w rest, m = w ++ rest ∧ IsWritten p w := by
    cases ps with
    | nil => exact ⟨m, [], (List.append_nil m).symm, hm⟩
    | cons q ps =>
      obtain ⟨w, gap, rest, rfl, hw, -, -⟩ := hm
      exact ⟨w, gap ++ rest, rfl, hw⟩
  obtain ⟨hne, hword⟩ := @isWord_of_writes U p hp w hw
  obtain ⟨c, w, rfl⟩ := List.exists_cons_of_ne_nil hne
  exact ⟨c, w ++ rest, rfl, hword c List.mem_cons_self⟩

/-- Tokens that end with a word of letters end with a character of words. -/
theorem wordBehind_of_plainlyWritten {p : Piece} {ps : List Piece}
    (hp : ∀ q ∈ (p :: ps).getLast?, lettered q = true) {m : PyStr}
    (hm : PlainlyWritten (p :: ps) m) (before : Bool) :
    Rx.wordBehind U.isWord before m = true := by
  induction ps generalizing p m before with
  | nil =>
    obtain ⟨hne, hword⟩ := @isWord_of_writes U p (hp p rfl) m hm
    obtain ⟨c, hc⟩ := Option.isSome_iff_exists.mp (List.getLast?_isSome.mpr hne)
    rw [Rx.wordBehind, hc, Option.map_some, Option.getD_some]
    exact hword c (List.mem_of_getLast? hc)
  | cons q ps ih =>
    obtain ⟨w, gap, rest, rfl, -, -, hrest⟩ := hm
    rw [Rx.wordBehind_append, Rx.wordBehind_append]
    exact ih (fun r hr => hp r (by simpa [List.getLast?_cons_cons] using hr)) hrest _

/-- The words in front and at the end of what is looked for. -/
theorem lettered_write_tokens : ∀ p ∈ WRITE_TOKENS, lettered p.1 = true ∧
    ∀ q ∈ (p.1 :: p.2).getLast?, lettered q = true := by
  have hall : (WRITE_TOKENS.all fun p => lettered p.1 &&
      ((p.1 :: p.2).getLast?.map lettered).getD true) = true := by decide +kernel
  intro p hp
  have h := List.all_eq_true.mp hall p hp
  rw [Bool.and_eq_true] at h
  refine ⟨h.1, fun q hq => ?_⟩
  have hq' : (p.1 :: p.2).getLast? = some q := hq
  rw [hq'] at h
  exact h.2

/-- A query with plain tokens is refused. -/
theorem found_of_plain {T : Tables} {cypher : PyStr} {p : Piece × List Piece}
    (hp : p ∈ WRITE_TOKENS) {before middle after : List Group}
    (hgroups : groups T cypher = before ++ (middle ++ after))
    (h : Plain U (p.1 :: p.2) before middle after) :
    KG_WRITE_KEYWORD_RE.found U cypher = true := by
  obtain ⟨hplain, hbefore, hafter⟩ := h
  obtain ⟨hfirst, hlast⟩ := lettered_write_tokens p hp
  have hcypher : cypher = before.flatMap Group.written ++
      (middle.flatMap Group.written ++ after.flatMap Group.written) := by
    rw [← flatMap_written_groups T cypher, hgroups, List.flatMap_append, List.flatMap_append]
  have hfront : Rx.wordBehind U.isWord false (before.flatMap Group.written) = false := by
    unfold Rx.wordBehind
    cases hend : (before.flatMap Group.written).getLast? with
    | none => rfl
    | some c => exact hbefore c hend
  have hback : (after.flatMap Group.written).head?.any U.isWord = false := by
    cases hend : (after.flatMap Group.written).head? with
    | none => rfl
    | some c => exact hafter c hend
  obtain ⟨c, rest, hmiddle, hc⟩ := @head_of_plainlyWritten U p.1 p.2 hfirst _ hplain
  have hbegin : Rx.Takes (CharClass.has U) U.isWord .boundary false []
      (middle.flatMap Group.written ++ after.flatMap Group.written) :=
    Rx.takes_boundary (by rw [hmiddle]; simp [Rx.atBoundary, hc])
  have hend : Rx.Takes (CharClass.has U) U.isWord .boundary true []
      (after.flatMap Group.written) :=
    Rx.takes_boundary (by rw [Rx.atBoundary, hback]; rfl)
  have hword := @wordBehind_of_plainlyWritten U p.1 p.2 hlast _ hplain false
  have hrest : Rx.Takes (CharClass.has U) U.isWord
      (Rx.all [Rx.anyOf (Pattern.text "CREATE") MORE_WRITE_KEYWORDS, .boundary]) false
      (middle.flatMap Group.written ++ []) (after.flatMap Group.written) :=
    takes_cons (takes_alternative hp hplain false _) (takes_single (hword ▸ hend))
  rw [List.append_nil] at hrest
  have htakes : Rx.Takes (CharClass.has U) U.isWord KG_WRITE_KEYWORD_RE
      (Rx.wordBehind U.isWord false (before.flatMap Group.written))
      (middle.flatMap Group.written) (after.flatMap Group.written) := by
    rw [hfront]
    exact takes_cons hbegin hrest
  rw [hcypher]
  exact Rx.search_of_takes htakes

/-! ## The queries that are run -/

/-- The tokens of a query have one of the keywords or phrases where it is spelled. -/
theorem not_readOnly_iff (T : Tables) (cypher : PyStr) :
    ¬ ReadOnly T cypher ↔ ∃ p ∈ WRITE_TOKENS, ∃ before middle after,
      groups T cypher = before ++ (middle ++ after) ∧ Spells (p.1 :: p.2) middle := by
  simp only [ReadOnly, not_forall, exists_prop, Bool.not_eq_false, tokens, containsTokens_iff]

/-- A query that is run has no keyword or phrase for writing among its tokens, just when there is no
driver, or the pattern finds something, or nothing is hidden in the query. -/
theorem runs_readOnly_iff (U : UnicodeTables) (T : Tables) (driver : Bool) (cypher : PyStr) :
    (executeQueryKg U driver cypher = .runs cypher → ReadOnly T cypher) ↔
      driver = false ∨ KG_WRITE_KEYWORD_RE.found U cypher = true ∨ NothingHidden U T cypher := by
  by_cases hdriver : driver = false
  · subst hdriver
    exact iff_of_true (fun h => absurd h (by simp [executeQueryKg])) (.inl rfl)
  by_cases hfound : KG_WRITE_KEYWORD_RE.found U cypher = true
  · exact iff_of_true (fun h => absurd h (by simp [executeQueryKg, hdriver, hfound]))
      (.inr (.inl hfound))
  have hruns : executeQueryKg U driver cypher = .runs cypher := by
    rw [executeQueryKg, if_neg hdriver, if_neg hfound]
  rw [or_iff_right hdriver, or_iff_right hfound]
  constructor
  · intro hread p hp before middle after hgroups hspells
    -- There is no such place.
    exact absurd (hread hruns) ((not_readOnly_iff T cypher).mpr
      ⟨p, hp, before, middle, after, hgroups, hspells⟩)
  · intro hplain _
    by_contra hread
    obtain ⟨p, hp, before, middle, after, hgroups, hspells⟩ := (not_readOnly_iff T cypher).mp hread
    exact hfound (found_of_plain hp hgroups (hplain p hp before middle after hgroups hspells))

/-- The words of ASCII characters. -/
def asciiCypher : Tables where
  isPart c := decide (48 ≤ c.val) && decide (c.val ≤ 57) ||
    decide (65 ≤ c.val) && decide (c.val ≤ 90) || decide (97 ≤ c.val) && decide (c.val ≤ 122) ||
      decide (c.val = 95)
  isBlank := isSpace

/-- A letter of a keyword can be an escape. -/
theorem exists_runs_write :
    ¬ ∀ (U : UnicodeTables) (T : Tables) (driver : Bool) (cypher : PyStr),
      executeQueryKg U driver cypher = .runs cypher → ReadOnly T cypher := by
  intro hall
  have hruns : executeQueryKg asciiTables true (u "MATCH (n) \\u0053ET n.x = 1") =
      .runs (u "MATCH (n) \\u0053ET n.x = 1") := by
    decide +kernel
  have hset : containsTokens [keyword "SET"]
      (tokens asciiCypher (u "MATCH (n) \\u0053ET n.x = 1")) = true := by
    decide +kernel
  have hread := hall asciiTables asciiCypher true _ hruns (keyword "SET", []) (by
    simp [WRITE_TOKENS])
  exact Bool.false_ne_true (hread.symm.trans hset)

end ControlPlane.Intel
