import ControlPlane.Lib.JsonRecode

/-!
# The rules behind `/rules`

`rulesPostHandler` and `rulesGetHandler` of the agent, between the bytes that come in and the values
that go out. A posted rule goes through a decoder without a schema: `null` is a nil map, to which
the handler cannot assign, and a rule is forwarded as it is just when it is kept on that way
(`rulesPost_faithful_iff`). The rules of one source are decoded from an array, but the Secure
Framework answers with an object, and what the decoder has read of it cannot be copied any more
(`rulesGet_faithful_iff`).
-/

namespace ControlPlane.Ids

open JsonScan

/-- The code points of a constant. -/
def constant (s : String) : Str := s.toList.map Char.toNat

/-- The key `source`. -/
def SOURCE : Str := constant "source"

/-- What the agent sets it to. -/
def AGENT : Value := .str (constant "agent")

/-! ## Posting a rule -/

/-- What becomes of a post. -/
inductive PostOutcome where
  /-- The answer 400, and no request to the Secure Framework. -/
  | badRequest
  /-- An assignment to an entry of a nil map: there is no answer at all. -/
  | panics
  /-- A request to the Secure Framework with the text of this value. -/
  | forwards (v : Value)

/-- `rulesPostHandler`, up to its request. -/
def rulesPostHandler (body : List UInt8) : PostOutcome :=
  match readValue body with
  | some (.obj members, _) =>
    match recodeMembers members with
    | some ms => .forwards (.obj (insertKey SOURCE AGENT (dictOf ms)))
    | none => .badRequest
  | some (.null, _) => .panics
  | _ => .badRequest

/-- The object with these members, except that its source is the agent. -/
def withSource (members : List (Str × Value)) : Value :=
  .obj ((SOURCE, AGENT) :: members.filter fun m => m.1 ≠ SOURCE)

/-- The answer is 400, or what is forwarded is the object that the whole body is a text of, with the
agent for its source and up to the order of members. -/
def PostOutcome.Faithful (body : List UInt8) : PostOutcome → Prop
  | badRequest => True
  | panics => False
  | forwards w => ∃ members,
    wholeValue body = some (.obj members) ∧ canon w = canon (withSource members)

/-- The bodies that are forwarded as they are, or refused: where an object begins the body, one of
its numbers is too large for the decoder, or nothing comes behind it and all but its source is kept
by the decoder. -/
def Forwardable (body : List UInt8) : Prop :=
  match readValue body with
  | some (.obj members, rest) =>
    (∃ q ∈ numbers (.obj members), Binary64.ofRat q = none) ∨
      rest.all isSpace = true ∧ Kept (withSource members)
  | some (.null, _) => False
  | _ => True

/-- The constant is not what a text becomes that is none of Unicode. -/
theorem clean_eq_SOURCE_iff (k : Str) : clean k = SOURCE ↔ k = SOURCE := by
  constructor
  · intro h
    rw [← h]
    symm
    rw [clean_eq_self_iff, List.all_eq_true]
    intro c hc
    by_contra hno
    have hmem : 0xfffd ∈ clean k := List.mem_map.mpr ⟨c, hc, if_neg hno⟩
    rw [h] at hmem
    exact absurd hmem (by decide +kernel)
  · rintro rfl
    decide +kernel

/-- The forwarded object is what the body with the agent for its source is recoded as. -/
theorem recode_withSource {members ms : List (Str × Value)} (h : recodeMembers members = some ms) :
    recode (withSource members) = some (.obj (insertKey SOURCE AGENT (dictOf ms))) := by
  have hfilter : List.Forall₂ (fun m n => n.1 = clean m.1 ∧ recode m.2 = some n.2)
      (members.filter fun m => m.1 ≠ SOURCE) (ms.filter fun m => m.1 ≠ SOURCE) := by
    refine List.rel_filter (fun m n hm => ?_) (recodeMembers_eq_some_iff.mp h)
    show decide (m.1 ≠ SOURCE) = true ↔ decide (n.1 ≠ SOURCE) = true
    rw [hm.1, decide_eq_true_iff, decide_eq_true_iff, ne_eq, ne_eq, clean_eq_SOURCE_iff]
  have hcons : recodeMembers ((SOURCE, AGENT) :: members.filter fun m => m.1 ≠ SOURCE) =
      some ((SOURCE, AGENT) :: ms.filter fun m => m.1 ≠ SOURCE) :=
    recodeMembers_eq_some_iff.mpr (.cons ⟨by decide +kernel, rfl⟩ hfilter)
  have hinsert : insertKey SOURCE AGENT (dictOf ms) =
      dictOf ((SOURCE, AGENT) :: ms.filter fun m => m.1 ≠ SOURCE) :=
    insertKey_dictOf (fun m => decide_eq_true_iff) AGENT ms
  rw [withSource, recode, hcons, Option.map_some, hinsert]

/-- A post is answered with 400, or forwarded as it is with the agent for its source, just when its
body is forwardable. -/
theorem rulesPost_faithful_iff (body : List UInt8) :
    (rulesPostHandler body).Faithful body ↔ Forwardable body := by
  unfold rulesPostHandler Forwardable
  cases hread : readValue body with
  | none => exact iff_of_true trivial trivial
  | some p =>
    obtain ⟨v, rest⟩ := p
    cases v with
    | null => exact Iff.rfl
    | bool b => exact iff_of_true trivial trivial
    | num q => exact iff_of_true trivial trivial
    | str s => exact iff_of_true trivial trivial
    | arr items => exact iff_of_true trivial trivial
    | obj members =>
      have hlarge : recodeMembers members = none ↔
          ∃ q ∈ numbers (.obj members), Binary64.ofRat q = none := recodeMembers_eq_none_iff members
      simp only [← hlarge]
      cases hms : recodeMembers members with
      | none => exact iff_of_true trivial (.inl rfl)
      | some ms =>
        have hkept := canon_eq_iff_kept (recode_withSource hms)
        have hwhole (members' : List (Str × Value)) : wholeValue body = some (.obj members') ↔
            rest.all isSpace = true ∧ members = members' := by
          rw [wholeValue, hread]
          by_cases hrest : rest.all isSpace = true
          · simp only [hrest, if_true, Option.some_inj, Value.obj.injEq, true_and]
          · simp only [hrest, if_false, reduceCtorEq, false_and, Bool.false_eq_true]
        simp only [PostOutcome.Faithful, hwhole, reduceCtorEq, false_or]
        constructor
        · rintro ⟨_, ⟨hrest, rfl⟩, hcanon⟩
          exact ⟨hrest, hkept.mp hcanon⟩
        · rintro ⟨hrest, hk⟩
          exact ⟨members, ⟨hrest, rfl⟩, hkept.mpr hk⟩

/-- The body `null` leaves a nil map. -/
theorem exists_not_faithful : ¬ ∀ body, (rulesPostHandler body).Faithful body := by
  intro hall
  have hpanics : rulesPostHandler [110, 117, 108, 108] = .panics := rfl
  have hnull := hall [110, 117, 108, 108]
  rw [hpanics] at hnull
  exact hnull

/-! ## Getting the rules -/

/-- The source of a rule, where it is a text. -/
def sourceOf : Value → Option Str
  | .obj members =>
    match member SOURCE members with
    | some (.str s) => some s
    | _ => none
  | _ => none

/-- What a map is decoded from: `null` leaves a nil one. -/
def isRule : Value → Bool
  | .obj _ => true
  | .null => true
  | _ => false

/-- `[]map[string]interface{}`. -/
def decodeRules : Value → Option (List Value)
  | .arr items => if items.all isRule then recodeItems items else none
  | .null => some []
  | _ => none

/-- What the handler answers with. -/
inductive GetResponse where
  /-- Bytes from the body of the Secure Framework. -/
  | raw (bytes : List UInt8)
  /-- The text of a value. -/
  | json (v : Value)

/-- `rulesGetHandler` with a source and the pieces in which the body of the Secure Framework comes.
What has been asked for by the decoder cannot be copied any more. -/
def rulesGetHandler (sourceFilter : Str) (chunks : List (List UInt8)) : GetResponse :=
  if sourceFilter = [] then .raw chunks.flatten
  else
    let (value, unread) := decodeStream start chunks
    match value.bind decodeRules with
    | none => .raw unread.flatten
    | some rules =>
      -- A source that is no text is the empty one.
      .json (.arr (rules.filter fun rule => (sourceOf rule).getD [] = sourceFilter))

/-! ## The rules of the Secure Framework -/

/-- What a leaf answers. -/
inductive LeafAnswer where
  | disconnected
  /-- The data of the request. -/
  | data (rules : Value)
  /-- The text of an exception. -/
  | failed (error : Str)

/-- An entry of `results`. -/
def leafResult : LeafAnswer → Value
  | .disconnected =>
    .obj [(constant "connected", .bool false), (constant "rules", .arr [])]
  | .data rules => .obj [(constant "connected", .bool true), (constant "rules", rules)]
  | .failed error => .obj [(constant "connected", .bool true), (constant "error", .str error),
      (constant "rules", .arr [])]

/-- `_handle_get_rules`, with the leaves of the pool if there is one. -/
def handleGetRules : Option (List (Str × LeafAnswer)) → Value
  | none => .obj [(constant "error", .str (constant "gNMI pool not available")),
      (constant "success", .bool false)]
  | some leaves => .obj [(constant "success", .bool true),
      (constant "leaves", .obj (leaves.map fun leaf => (leaf.1, leafResult leaf.2)))]

/-- The values that a notification of a leaf updates, where they are rules. -/
def notifiedRules : Value → List Value
  | .obj notification =>
    match member (constant "update") notification with
    | some (.arr updates) => updates.filterMap fun
        | .obj update =>
          match member (constant "val") update with
          | some (.obj (m :: ms)) => some (.obj (m :: ms))
          | _ => none
        | _ => none
    | _ => []
  | _ => []

/-- The rules of a leaf. -/
def leafRules : Value → List Value
  | .obj leaf =>
    match member (constant "rules") leaf with
    | some (.obj rules) =>
      match member (constant "notification") rules with
      | some (.arr notifications) => notifications.flatMap notifiedRules
      | _ => []
    | _ => []
  | _ => []

/-- The rules that a document reports: an array is one of rules, and an object has them by leaf. Any
other document does not have the expected shape. -/
def reportedRules : Value → Option (List Value)
  | .arr items => some items
  | .obj members =>
    match member (constant "leaves") members with
    | some (.obj leaves) => some (leaves.flatMap fun leaf => leafRules leaf.2)
    | _ => none
  | _ => none

/-- The document that is answered. -/
def GetResponse.value : GetResponse → Option Value
  | raw bytes => wholeValue bytes
  | json v => some v

/-- The answer is one document that reports the rules of the body with this source, or the body
itself where it does not have the expected shape. -/
def GetResponse.Faithful (source : Str) (body : List UInt8) (r : GetResponse) : Prop :=
  match (wholeValue body).bind reportedRules with
  | some rules => ∃ answered, r.value.bind reportedRules = some answered ∧
      answered.map canon = (rules.filter fun rule => sourceOf rule = some source).map canon
  | none => r = .raw body

/-- The bodies that a source gets the right answer for: without a source, those that report no rule
with another source, or do not have the expected shape. With one, the empty body, and an array of
objects and nulls in which no number is too large, and the rules are kept that have the source, or
have it as soon as they are decoded. -/
def Gettable (source : Str) (body : List UInt8) : Prop :=
  if source = [] then
    ∀ rules, (wholeValue body).bind reportedRules = some rules → ∀ r ∈ rules, sourceOf r = some []
  else
    body = [] ∨ ∃ items, wholeValue body = some (.arr items) ∧ items.all isRule = true ∧
      (∀ q ∈ numbersItems items, Binary64.ofRat q ≠ none) ∧
      ∀ i ∈ items, (sourceOf i).map clean = some source ∨ sourceOf i = some source → Kept i

/-- The source of what a rule is recoded as. -/
theorem sourceOf_recode {v w : Value} (h : recode v = some w) :
    sourceOf w = (sourceOf v).map clean := by
  cases v with
  | null => obtain rfl := Option.some.inj h; rfl
  | bool b => obtain rfl := Option.some.inj h; rfl
  | num q =>
    obtain ⟨x, -, rfl⟩ := Option.map_eq_some_iff.mp h
    rfl
  | str s => obtain rfl := Option.some.inj h; rfl
  | arr items =>
    rw [recode] at h
    obtain ⟨ws, -, rfl⟩ := Option.map_eq_some_iff.mp h
    rfl
  | obj members =>
    rw [recode] at h
    obtain ⟨ns, hns, rfl⟩ := Option.map_eq_some_iff.mp h
    have hmember : member SOURCE (dictOf ns) = (member SOURCE members).bind recode := by
      rw [member_dictOf, member_of_recodeMembers clean_eq_SOURCE_iff hns]
    rw [sourceOf, sourceOf, hmember]
    cases member SOURCE members with
    | none => rfl
    | some v =>
      rw [Option.bind_some]
      -- Only a text is recoded as a text.
      cases v with
      | num q => cases hq : Binary64.ofRat q <;> simp [recode, hq]
      | arr items => cases hi : recodeItems items <;> simp [recode, hi]
      | obj ms => cases hm : recodeMembers ms <;> simp [recode, hm]
      | _ => rfl

theorem clean_sourceOf_of_kept {v : Value} (h : Kept v) : (sourceOf v).map clean = sourceOf v := by
  cases hsource : sourceOf v with
  | none => rfl
  | some s =>
    cases v with
    | obj members =>
      rw [sourceOf] at hsource
      split at hsource
      next s' hmember =>
        obtain rfl := Option.some.inj hsource
        rw [Kept, keptMembers_iff] at h
        have hs : Kept (.str s') := (h.2 _ (mem_of_member hmember)).2
        rw [Kept, ← clean_eq_self_iff] at hs
        rw [Option.map_some, hs]
      next => exact absurd hsource.symm (Option.some_ne_none s)
    | _ => exact absurd hsource.symm (Option.some_ne_none s)

/-- The rules with a source after decoding, as values that come out of the encoder. -/
theorem forall₂_filter_recoded {source : Str} {items ws : List Value}
    (h : recodeItems items = some ws) :
    List.Forall₂ (fun i w => recode i = some w)
      (items.filter fun i => (sourceOf i).map clean = some source)
      (ws.filter fun w => sourceOf w = some source) := by
  refine List.rel_filter (fun i w hw => ?_) (recodeItems_eq_some_iff.mp h)
  show decide _ = true ↔ decide _ = true
  rw [sourceOf_recode hw]

/-- Recoded values are the same as before, up to the order of members, just when all are kept. -/
theorem map_canon_eq_iff {items ws : List Value}
    (h : List.Forall₂ (fun i w => recode i = some w) items ws) :
    ws.map canon = items.map canon ↔ ∀ i ∈ items, Kept i := by
  induction h with
  | nil => simp
  | cons hw _ ih =>
    rw [List.map_cons, List.map_cons, List.cons.injEq, ih, canon_eq_iff_kept hw,
      List.forall_mem_cons]

/-- The rules that are filtered after decoding are the rules that should be, just when they are
kept. -/
theorem filter_recoded_iff {source : Str} {items ws : List Value}
    (h : recodeItems items = some ws) :
    (ws.filter fun w => sourceOf w = some source).map canon =
        (items.filter fun i => sourceOf i = some source).map canon ↔
      ∀ i ∈ items, (sourceOf i).map clean = some source ∨ sourceOf i = some source → Kept i := by
  have hdecoded := @forall₂_filter_recoded source items ws h
  have hmap := map_canon_eq_iff hdecoded
  constructor
  · intro heq
    have hlength : (items.filter fun i => (sourceOf i).map clean = some source).length =
        (items.filter fun i => sourceOf i = some source).length := by
      rw [hdecoded.length_eq, ← List.length_map canon, heq, List.length_map]
    -- Nothing is lost, so that both conditions are about the same rules.
    have hsame : (items.filter fun i => (sourceOf i).map clean = some source) =
        items.filter fun i => sourceOf i = some source := by
      by_cases hclean : clean source = source
      · refine (List.Sublist.eq_of_length (List.monotone_filter_right items fun i hi => ?_)
          hlength.symm).symm
        rw [decide_eq_true_iff] at hi ⊢
        rw [hi, Option.map_some, hclean]
      · have hnone : (items.filter fun i => (sourceOf i).map clean = some source) = [] := by
          refine List.filter_eq_nil_iff.mpr fun i _ hi => hclean ?_
          obtain ⟨s, -, rfl⟩ := Option.map_eq_some_iff.mp (of_decide_eq_true hi)
          exact (clean_eq_self_iff (clean s)).mpr (all_isScalar_clean s)
        rw [hnone, List.length_nil] at hlength
        rw [hnone, List.eq_nil_of_length_eq_zero hlength.symm]
    have hkept := hmap.mp (hsame ▸ heq)
    intro i hi hsource
    refine hkept i ?_
    rcases hsource with hsource | hsource
    · exact List.mem_filter.mpr ⟨hi, decide_eq_true hsource⟩
    · rw [hsame]
      exact List.mem_filter.mpr ⟨hi, decide_eq_true hsource⟩
  · intro hkept
    have hsame : (items.filter fun i => (sourceOf i).map clean = some source) =
        items.filter fun i => sourceOf i = some source := by
      refine List.filter_congr fun i hi => decide_eq_decide.mpr ?_
      constructor
      · intro hsource
        rwa [← clean_sourceOf_of_kept (hkept i hi (.inl hsource))]
      · intro hsource
        rwa [clean_sourceOf_of_kept (hkept i hi (.inr hsource))]
    rw [← hsame]
    exact hmap.mpr fun i hi => hkept i (List.mem_of_mem_filter hi)
      (.inl (of_decide_eq_true (List.mem_filter.mp hi).2))

/-! ## The answer -/

/-- A filter can only leave a list as it is, up to such a function, when all pass it. -/
theorem map_eq_map_filter_iff {α β : Type} (f : α → β) (p : α → Bool) (l : List α) :
    l.map f = (l.filter p).map f ↔ ∀ a ∈ l, p a = true := by
  rw [← List.filter_eq_self]
  constructor
  · intro h
    have hlength : (l.filter p).length = l.length := by
      rw [← List.length_map f, ← h, List.length_map]
    exact List.filter_sublist.eq_of_length hlength
  · intro h
    rw [h]

/-- Without a source the body is passed on. -/
theorem rulesGet_of_no_source (chunks : List (List UInt8)) :
    (rulesGetHandler [] chunks).Faithful [] chunks.flatten ↔ Gettable [] chunks.flatten := by
  have hraw : rulesGetHandler [] chunks = .raw chunks.flatten := if_pos rfl
  rw [hraw, Gettable, if_pos rfl, GetResponse.Faithful]
  cases hreported : (wholeValue chunks.flatten).bind reportedRules with
  | none => simp
  | some rules =>
    have hfilter := map_eq_map_filter_iff canon (fun rule => sourceOf rule = some []) rules
    simp only [decide_eq_true_iff] at hfilter
    simp only [GetResponse.value, hreported, Option.some_inj, exists_eq_left', hfilter,
      forall_eq']

/-- With a source, what the decoder has asked for is lost when it fails. -/
theorem unread_ne {chunks : List (List UInt8)} (hchunks : ∀ chunk ∈ chunks, chunk ≠ [])
    (hne : chunks ≠ []) : (decodeStream start chunks).2.flatten ≠ chunks.flatten := by
  obtain ⟨chunk, rest, rfl⟩ := List.exists_cons_of_ne_nil hne
  intro h
  obtain ⟨front, hfront⟩ := decodeStream_snd_suffix start chunk rest
  have hlength := congrArg List.length h
  have hrest := congrArg (fun l => l.flatten.length) hfront
  have hchunk : 0 < chunk.length :=
    List.length_pos_iff.mpr (hchunks chunk List.mem_cons_self)
  simp only [List.flatten_append, List.length_append, List.flatten_cons] at hlength hrest
  omega

/-- When the decoder fails there is no right answer. -/
theorem not_faithful_unread {source : Str} {chunks : List (List UInt8)}
    (hchunks : ∀ chunk ∈ chunks, chunk ≠ []) (hne : chunks ≠ []) :
    ¬ (GetResponse.raw (decodeStream start chunks).2.flatten).Faithful source chunks.flatten := by
  rw [GetResponse.Faithful]
  cases hwhole : wholeValue chunks.flatten with
  | none => exact fun h => unread_ne hchunks hne (GetResponse.raw.inj h)
  | some v =>
    obtain ⟨rest, hread, hblank⟩ := wholeValue_eq_some_iff.mp hwhole
    -- Only white space can be left.
    have hunread : (decodeStream start chunks).2.flatten.all isSpace = true :=
      List.all_eq_true.mpr fun c hc =>
        List.all_eq_true.mp hblank c ((unread_suffix hread).subset hc)
    rw [Option.bind_some]
    cases reportedRules v with
    | none => exact fun h => unread_ne hchunks hne (GetResponse.raw.inj h)
    | some rules => simp [GetResponse.value, wholeValue_of_blank hunread]

theorem rulesGet_of_source {source : Str} (hsource : source ≠ []) {chunks : List (List UInt8)}
    (hchunks : ∀ chunk ∈ chunks, chunk ≠ []) :
    (rulesGetHandler source chunks).Faithful source chunks.flatten ↔
      Gettable source chunks.flatten := by
  rw [rulesGetHandler, if_neg hsource, Gettable, if_neg hsource]
  by_cases hne : chunks = []
  · subst hne
    exact iff_of_true rfl (.inl rfl)
  have hbody : chunks.flatten ≠ [] := by
    obtain ⟨chunk, rest, rfl⟩ := List.exists_cons_of_ne_nil hne
    rw [List.flatten_cons]
    exact List.append_ne_nil_of_left_ne_nil (hchunks chunk List.mem_cons_self) _
  have hfirst := decodeStream_start chunks
  rcases hdecode : decodeStream start chunks with ⟨value, unread⟩
  rw [hdecode] at hfirst
  have hunread := @not_faithful_unread source chunks hchunks hne
  rw [hdecode] at hunread
  -- What the whole body is a text of is what the decoder has found.
  have hvalue {v : Value} (h : wholeValue chunks.flatten = some v) : value = some v := by
    obtain ⟨rest, hread, -⟩ := wholeValue_eq_some_iff.mp h
    rw [hread] at hfirst
    exact hfirst
  simp only [or_iff_right hbody]
  cases hrules : value.bind decodeRules with
  | none =>
    refine iff_of_false hunread ?_
    rintro ⟨items, hwhole, hall, hnumbers, -⟩
    rw [hvalue hwhole, Option.bind_some, decodeRules, if_pos hall,
      recodeItems_eq_none_iff] at hrules
    obtain ⟨q, hq, hlarge⟩ := hrules
    exact hnumbers q hq hlarge
  | some ws =>
    have hfilter : (ws.filter fun rule => (sourceOf rule).getD [] = source) =
        ws.filter fun w => sourceOf w = some source := by
      refine List.filter_congr fun w _ => decide_eq_decide.mpr ?_
      cases sourceOf w with
      | none => simpa using hsource.symm
      | some s => simp
    show GetResponse.Faithful source chunks.flatten
      (.json (.arr (ws.filter fun rule => (sourceOf rule).getD [] = source))) ↔ _
    rw [hfilter, GetResponse.Faithful]
    cases hwhole : wholeValue chunks.flatten with
    | none => simp
    | some v =>
      rw [hvalue hwhole, Option.bind_some] at hrules
      cases v with
      | arr items =>
        rw [decodeRules, Option.ite_none_right_eq_some] at hrules
        obtain ⟨hall, hws⟩ := hrules
        have hnumbers : ∀ q ∈ numbersItems items, Binary64.ofRat q ≠ none := by
          intro q hq hlarge
          have hnone := (recodeItems_eq_none_iff items).mpr ⟨q, hq, hlarge⟩
          exact absurd (hnone.symm.trans hws) (Option.some_ne_none ws).symm
        constructor
        · rintro ⟨answered, hanswered, hsame⟩
          obtain rfl := Option.some.inj hanswered
          exact ⟨items, rfl, hall, hnumbers, (filter_recoded_iff hws).mp hsame⟩
        · rintro ⟨items', hitems, -, -, hkept⟩
          obtain rfl := Value.arr.inj (Option.some.inj hitems)
          exact ⟨_, rfl, (filter_recoded_iff hws).mpr hkept⟩
      | null => simp [reportedRules]
      | _ => exact absurd hrules.symm (Option.some_ne_none ws)

theorem rulesGet_iff (source : Str) {chunks : List (List UInt8)}
    (hchunks : ∀ chunk ∈ chunks, chunk ≠ []) :
    (rulesGetHandler source chunks).Faithful source chunks.flatten ↔
      Gettable source chunks.flatten := by
  by_cases hsource : source = []
  · subst hsource
    exact rulesGet_of_no_source chunks
  · exact rulesGet_of_source hsource hchunks

/-- The document of the Secure Framework is an object, for which no source gets the right answer. -/
theorem not_faithful_of_leaves {source : Str} (hsource : source ≠ []) {chunks : List (List UInt8)}
    (hchunks : ∀ chunk ∈ chunks, chunk ≠ []) {leaves : Option (List (Str × LeafAnswer))}
    (hleaves : wholeValue chunks.flatten = some (handleGetRules leaves)) :
    ¬ (rulesGetHandler source chunks).Faithful source chunks.flatten := by
  rw [rulesGet_iff source hchunks, Gettable, if_neg hsource]
  rintro (hempty | ⟨items, hitems, -⟩)
  · rw [hempty] at hleaves
    exact absurd hleaves.symm (Option.some_ne_none _)
  · rw [hleaves] at hitems
    cases leaves <;> exact absurd hitems (by simp [handleGetRules])

/-- The agent answers right for a source just when the body of the Secure Framework is one for it.
The rules of its leaves never are, for any source. -/
theorem rulesGet_faithful_iff (source : Str) (chunks : List (List UInt8))
    (hchunks : ∀ chunk ∈ chunks, chunk ≠ []) :
    ((rulesGetHandler source chunks).Faithful source chunks.flatten ↔
        Gettable source chunks.flatten) ∧
      ∀ leaves, wholeValue chunks.flatten = some (handleGetRules leaves) → source ≠ [] →
        ¬ (rulesGetHandler source chunks).Faithful source chunks.flatten :=
  ⟨rulesGet_iff source hchunks,
    fun _ hleaves hsource => not_faithful_of_leaves hsource hchunks hleaves⟩

/-- The bytes of a constant of ASCII characters. -/
def asciiBytes (s : String) : List UInt8 := s.toList.map fun c => UInt8.ofNat c.toNat

/-- An array in two pieces, with one rule of the agent. -/
theorem rulesGet_array :
    (rulesGetHandler (constant "agent")
      [asciiBytes "[null,\x7b\"sou", asciiBytes "rce\":\"agent\"\x7d]"]).Faithful (constant "agent")
      [asciiBytes "[null,\x7b\"sou", asciiBytes "rce\":\"agent\"\x7d]"].flatten := by
  refine (rulesGet_faithful_iff _ _ (by decide +kernel)).1.mpr ?_
  rw [Gettable, if_neg (by decide +kernel)]
  have hagent : Kept (.obj [(SOURCE, AGENT)]) :=
    ⟨List.nodup_singleton SOURCE, ⟨by decide +kernel, show (constant "agent").all isScalar = true by
      decide +kernel⟩, trivial⟩
  refine .inr ⟨[.null, .obj [(SOURCE, AGENT)]], rfl, rfl,
    fun q hq => absurd hq List.not_mem_nil, ?_⟩
  exact List.forall_mem_cons.mpr ⟨fun _ => trivial,
    List.forall_mem_singleton.mpr fun _ => hagent⟩

/-- One leaf with one rule of the agent. -/
def oneRule : Option (List (Str × LeafAnswer)) :=
  some [(constant "leaf1", .data (.obj [(constant "notification", .arr [.obj [(constant "update",
    .arr [.obj [(constant "val", .obj [(SOURCE, AGENT)])]])]])]))]

/-- The text of the rules of this leaf. -/
def oneRuleText : List UInt8 :=
  asciiBytes ("\x7b\"success\":true,\"leaves\":\x7b\"leaf1\":\x7b\"connected\":true," ++
    "\"rules\":\x7b\"notification\":[\x7b\"update\":[\x7b\"val\":" ++
    "\x7b\"source\":\"agent\"\x7d\x7d]\x7d]\x7d\x7d\x7d\x7d")

set_option maxRecDepth 10000 in
theorem exists_oneRuleText : ∃ text, text ≠ [] ∧ wholeValue text = some (handleGetRules oneRule) :=
  ⟨oneRuleText, by decide +kernel, rfl⟩

/-- The rule of this leaf is not in the answer, which is empty. -/
theorem exists_not_gets_rules :
    ¬ ∀ leaves source chunks, (∀ chunk ∈ chunks, chunk ≠ []) →
      wholeValue chunks.flatten = some (handleGetRules leaves) →
        (rulesGetHandler source chunks).Faithful source chunks.flatten := by
  intro hall
  obtain ⟨text, hne, hwhole⟩ := exists_oneRuleText
  have hchunks : ∀ chunk ∈ [text], chunk ≠ [] := List.forall_mem_singleton.mpr hne
  have hflatten : wholeValue [text].flatten = some (handleGetRules oneRule) := by
    rwa [List.flatten_cons, List.flatten_nil, List.append_nil]
  have hsource : constant "agent" ≠ [] := by decide +kernel
  exact not_faithful_of_leaves hsource hchunks hflatten (hall _ _ _ hchunks hflatten)

end ControlPlane.Ids
