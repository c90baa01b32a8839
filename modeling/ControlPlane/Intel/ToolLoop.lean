import ControlPlane.Intel.OpenaiCompat

/-!
# The rounds of the tool loop

What `chat_react` does in any run, whatever the language model answers and whatever the handlers of
the tools do. `Rounds` says what the rounds that are over have sent, called and recorded: each tool
call of the model was answered by one message, in the order of the calls. `react_requests` says
that every request of the loop sends such a conversation, that the last round forces the object, and
how many requests there are; `react_handled` which handlers are called; and `react_result` that what
is returned stands in the last answer of the model.
-/

namespace ControlPlane.Intel.Llm

open JsonText

variable {Obj : Type} (L : LlmTypes Obj) (C : LlmClient Obj) (handlers : List PyStr)
  (args : ReactArgs Obj)

/-! ## What a run is -/

/-- How many requests there are among some events. -/
def posts (h : List (LlmEvent Obj)) : ℕ :=
  h.countP fun e => match e.op with
    | .post _ => true
    | .handle _ _ => false

/-- The tool calls were executed with these events and these results: a handler is called for each
call of a tool that there is, and no other tool is called. -/
inductive Executed : List (ToolCall Obj) → List (LlmEvent Obj) → List PyStr → Prop where
  | nil : Executed [] [] []
  | handled {tc : ToolCall Obj} {name : PyStr} {calls : List (ToolCall Obj)}
      {h : List (LlmEvent Obj)} {results : List PyStr} (answer : Except PyStr (PyVal Obj))
      (hname : handlerOf handlers tc.name = some name) (rest : Executed calls h results) :
      Executed (tc :: calls) (⟨.handle name tc.arguments, answer⟩ :: h)
        (resultText L answer :: results)
  | unknown {tc : ToolCall Obj} {calls : List (ToolCall Obj)} {h : List (LlmEvent Obj)}
      {results : List PyStr} (hname : handlerOf handlers tc.name = none)
      (rest : Executed calls h results) :
      Executed (tc :: calls) h (unknownText L tc.name :: results)

/-- The request of the round after `i` rounds. -/
def roundRequest (i : ℕ) (msgs : List (PyVal Obj)) : Request Obj :=
  chatRequest C msgs (allTools args.tools args.finalSchema) (choiceFor (i + 1 = args.maxIterations))

/-- The events and the messages after some rounds. -/
inductive Rounds : ℕ → List (LlmEvent Obj) → List (PyVal Obj) → Prop where
  | start : Rounds 0 [] args.messages
  | round {i : ℕ} {h h' : List (LlmEvent Obj)} {msgs : List (PyVal Obj)} {data : PyVal Obj}
      {reply : Reply Obj} {assistant : PyVal Obj} {results : List PyStr}
      (before : Rounds i h msgs) (hi : i < args.maxIterations)
      (hreply : parseReply L data = .ok reply) (hcalls : reply.calls ≠ [])
      (hfinal : ∀ tc ∈ reply.calls, tc.isFinal = false)
      (hassistant : assistantMessage L reply = .ok assistant)
      (hexec : Executed L handlers reply.calls h' results) :
      Rounds (i + 1) (h ++ ⟨.post (roundRequest C args i msgs), .ok data⟩ :: h')
        (msgs ++ roundMessages assistant reply.calls results)

/-- The requests of `chat_json`, in their order. -/
inductive JsonRequest (base : List (PyVal Obj)) (schema : PyVal Obj) : ℕ → Request Obj → Prop where
  | tool : JsonRequest base schema 0 (chatRequest C base [jsonTool schema] forced)
  | plain {fallback : List (PyVal Obj)} (attempt : ℕ) (hattempt : attempt < 2)
      (hfallback : fallbackMessages L base schema = .ok fallback) :
      JsonRequest base schema (attempt + 1) (plainRequest C fallback attempt)

/-- A request after these events: of the next round, or of `chat_json` with the messages that the
loop was called with; only when the final round was refused, with those of the rounds. -/
def Requested (h : List (LlmEvent Obj)) (req : Request Obj) : Prop :=
  (∃ i msgs, Rounds L C handlers args i h msgs ∧ i < args.maxIterations ∧
      req = roundRequest C args i msgs) ∨
    ∃ i before msgs base j, Rounds L C handlers args i before msgs ∧ before <+: h ∧
      (base = args.messages ∨ base = msgs ∧ i + 1 = args.maxIterations) ∧
      JsonRequest L C base args.finalSchema j req ∧ posts h ≤ args.maxIterations + j

/-- A handler is called after these events for a call of the last answer, whose calls before it were
executed, and in which there is no object. -/
def Handled (h : List (LlmEvent Obj)) (name : PyStr) (arguments : PyVal Obj) : Prop :=
  ∃ i before msgs data reply, Rounds L C handlers args i before msgs ∧ i < args.maxIterations ∧
    parseReply L data = .ok reply ∧ (∀ tc ∈ reply.calls, tc.isFinal = false) ∧
    ∃ events done tc rest results,
      h = before ++ ⟨.post (roundRequest C args i msgs), .ok data⟩ :: events ∧
      reply.calls = done ++ tc :: rest ∧ Executed L handlers done events results ∧
      handlerOf handlers tc.name = some name ∧ arguments = tc.arguments

/-- What the loop may call. -/
def Allowed (h : List (LlmEvent Obj)) : LlmOp Obj → Prop
  | .post req => Requested L C handlers args h req
  | .handle name arguments => Handled L C handlers args h name arguments

/-- A value stands in an answer, as the arguments of a tool call or as the JSON of the content. -/
def Stands (v data : PyVal Obj) : Prop :=
  (∃ reply tc, parseReply L data = .ok reply ∧ tc ∈ reply.calls ∧ v = tc.arguments) ∨
    ∃ msg content s, messageOf data = .ok msg ∧ get msg "content" .none = .ok content ∧
      orEmpty L content = .str s ∧ L.loads s = .ok v

/-- What is returned stands in the last answer. -/
def Resulted (h : List (LlmEvent Obj)) (r : Except LlmError (PyVal Obj)) : Prop :=
  ∀ v, r = .ok v → ∃ h₁ req data, h = h₁ ++ [⟨.post req, .ok data⟩] ∧ Stands L v data

/-- A conversation: the messages that it starts with, and then rounds, in each of which the calls of
the model are recorded and each of them is answered by one message, in their order. -/
inductive Conversation (original : List (PyVal Obj)) : List (PyVal Obj) → Prop where
  | start : Conversation original original
  | round {msgs : List (PyVal Obj)} {reply : Reply Obj} {assistant : PyVal Obj}
      {results : List PyStr} (before : Conversation original msgs)
      (hassistant : assistantMessage L reply = .ok assistant)
      (hlength : results.length = reply.calls.length) :
      Conversation original (msgs ++ roundMessages assistant reply.calls results)

/-! ## Small facts -/

theorem posts_append (h more : List (LlmEvent Obj)) : posts (h ++ more) = posts h + posts more :=
  List.countP_append

@[simp] theorem posts_post (req : Request Obj) (answer : LlmAns (.post req)) :
    posts [⟨.post req, answer⟩] = 1 := rfl

variable {L C handlers args}

theorem resulted_error (h : List (LlmEvent Obj)) (e : LlmError) : Resulted L h (.error e) := by
  intro v hv
  cases hv

theorem Executed.posts {calls : List (ToolCall Obj)} {h : List (LlmEvent Obj)}
    {results : List PyStr} (hexec : Executed L handlers calls h results) : Llm.posts h = 0 := by
  induction hexec with
  | nil => rfl
  | handled answer hname rest ih => exact ih
  | unknown hname rest ih => exact ih

theorem Executed.length {calls : List (ToolCall Obj)} {h : List (LlmEvent Obj)}
    {results : List PyStr} (hexec : Executed L handlers calls h results) :
    results.length = calls.length := by
  induction hexec with
  | nil => rfl
  | handled answer hname rest ih => exact congrArg Nat.succ ih
  | unknown hname rest ih => exact congrArg Nat.succ ih

theorem Rounds.conversation {i : ℕ} {h : List (LlmEvent Obj)} {msgs : List (PyVal Obj)}
    (hrounds : Rounds L C handlers args i h msgs) : Conversation L args.messages msgs := by
  induction hrounds with
  | start => exact .start
  | round before hi hreply hcalls hfinal hassistant hexec ih =>
    exact .round ih hassistant hexec.length

/-- There is one request in each round. -/
theorem Rounds.posts {i : ℕ} {h : List (LlmEvent Obj)} {msgs : List (PyVal Obj)}
    (hrounds : Rounds L C handlers args i h msgs) : Llm.posts h = i := by
  induction hrounds with
  | start => rfl
  | round before hi hreply hcalls hfinal hassistant hexec ih =>
    rw [← List.singleton_append, posts_append, posts_append, ih, posts_post, hexec.posts]

theorem orEmpty_orEmpty (v : PyVal Obj) : orEmpty L (orEmpty L v) = orEmpty L v := by
  by_cases hv : truthy L v = true
  · rw [orEmpty, orEmpty, if_pos hv, if_pos hv]
  · rw [orEmpty, orEmpty, if_neg hv]
    exact if_neg (by simp [truthy])

/-- The content of a reply is that of the message. -/
theorem content_of_parseReply {data : PyVal Obj} {reply : Reply Obj}
    (hreply : parseReply L data = .ok reply) :
    ∃ msg content, messageOf data = .ok msg ∧ get msg "content" .none = .ok content ∧
      reply.content = orEmpty L content := by
  obtain ⟨msg, hmsg, hreply⟩ := except_bind_eq_ok hreply
  obtain ⟨calls, -, hreply⟩ := except_bind_eq_ok hreply
  obtain ⟨toolCalls, -, hreply⟩ := except_bind_eq_ok hreply
  obtain ⟨usage, -, hreply⟩ := except_bind_eq_ok hreply
  obtain ⟨content, hcontent, hreply⟩ := except_bind_eq_ok hreply
  obtain rfl := Except.ok.inj hreply
  exact ⟨msg, content, hmsg, hcontent, rfl⟩

theorem loadsVal_eq_ok {w v : PyVal Obj} (h : loadsVal L w = .ok v) :
    ∃ s, w = .str s ∧ L.loads s = .ok v := by
  cases w with
  | str s =>
    refine ⟨s, rfl, ?_⟩
    dsimp only [loadsVal] at h
    cases hloads : L.loads s with
    | ok v' =>
      rw [hloads] at h
      obtain rfl : v' = v := Except.ok.inj h
      rfl
    | error e =>
      rw [hloads] at h
      cases e <;> cases h
  | _ => cases h

/-- The content of a reply stands in the answer. -/
theorem stands_content {data v : PyVal Obj} {reply : Reply Obj}
    (hreply : parseReply L data = .ok reply) (hv : loadsVal L reply.content = .ok v) :
    Stands L v data := by
  obtain ⟨msg, content, hmsg, hcontent, heq⟩ := content_of_parseReply hreply
  obtain ⟨s, hs, hloads⟩ := loadsVal_eq_ok hv
  exact .inr ⟨msg, content, s, hmsg, hcontent, heq.symm.trans hs, hloads⟩

/-- The object of an answer without tools stands in it. -/
theorem stands_plainObject {data v : PyVal Obj} (h : plainObject L data = .ok (some v)) :
    Stands L v data := by
  obtain ⟨msg, hmsg, h⟩ := except_bind_eq_ok h
  obtain ⟨content, hcontent, h⟩ := except_bind_eq_ok h
  split at h
  next s hs =>
    split_ifs at h with hblank
    · cases h
    · cases hloads : loadsVal L (.str s) with
      | error e =>
        rw [hloads] at h
        cases h
      | ok w =>
        rw [hloads] at h
        obtain rfl : w = v := Option.some.inj (Except.ok.inj h)
        obtain ⟨t, ht, hw⟩ := loadsVal_eq_ok hloads
        obtain rfl := PyVal.str.inj ht
        exact .inr ⟨msg, content, s, hmsg, hcontent, hs, hw⟩
  next => cases h

/-- The object that the content of a reply is stands in the answer. -/
theorem stands_contentObject {data v : PyVal Obj} {reply : Reply Obj}
    (hreply : parseReply L data = .ok reply)
    (h : contentObject L reply.content = .ok (some v)) : Stands L v data := by
  obtain ⟨msg, content, hmsg, hcontent, heq⟩ := content_of_parseReply hreply
  unfold contentObject at h
  rw [heq, orEmpty_orEmpty] at h
  split at h
  next s hs =>
    split_ifs at h with hblank
    · cases h
    · cases hloads : loadsVal L (.str s) with
      | error e =>
        rw [hloads] at h
        cases e <;> cases h
      | ok w =>
        rw [hloads] at h
        obtain rfl : w = v := Option.some.inj (Except.ok.inj h)
        obtain ⟨t, ht, hw⟩ := loadsVal_eq_ok hloads
        obtain rfl := PyVal.str.inj ht
        exact .inr ⟨msg, content, s, hmsg, hcontent, hs, hw⟩
  next => cases h

/-! ## One request -/

section Sat

variable {G : List (LlmEvent Obj) → LlmOp Obj → Prop} {h : List (LlmEvent Obj)}

/-- A request is allowed, and what is behind it goes on from the answer. -/
theorem sat_chat {msgs tools : List (PyVal Obj)} {choice : PyVal Obj}
    {Q : List (LlmEvent Obj) → Except LlmError (Reply Obj) → Unit → Prop}
    (hG : G h (.post (chatRequest C msgs tools choice)))
    (herror : ∀ e, Q (h ++ [⟨.post (chatRequest C msgs tools choice), .error e⟩]) (.error e) ())
    (hok : ∀ data, Q (h ++ [⟨.post (chatRequest C msgs tools choice), .ok data⟩])
      (parseReply L data) ()) :
    Act.Sat (fun _ _ => True) G h () (chat L C msgs tools choice) Q := by
  unfold chat
  rw [Act.sat_bind, Act.sat_orRaise, Act.sat_perform]
  refine ⟨hG, fun answer _ => ?_⟩
  cases answer with
  | error e => exact herror e
  | ok data => exact hok data

theorem sat_plainAttempt {msgs : List (PyVal Obj)} {attempt : ℕ}
    {Q : List (LlmEvent Obj) → Except LlmError (Option (PyVal Obj)) → Unit → Prop}
    (hG : G h (.post (plainRequest C msgs attempt)))
    (herror : ∀ e, Q (h ++ [⟨.post (plainRequest C msgs attempt), .error e⟩]) (.error e) ())
    (hok : ∀ data, Q (h ++ [⟨.post (plainRequest C msgs attempt), .ok data⟩])
      (plainObject L data) ()) :
    Act.Sat (fun _ _ => True) G h () (plainAttempt L C msgs attempt) Q := by
  unfold plainAttempt
  rw [Act.sat_bind, Act.sat_orRaise, Act.sat_perform]
  refine ⟨hG, fun answer _ => ?_⟩
  cases answer with
  | error e => exact herror e
  | ok data => exact hok data

/-! ## `chat_json` -/

/-- The last attempt. -/
theorem sat_lastAttempt {msgs : List (PyVal Obj)} (hG : G h (.post (plainRequest C msgs 1))) :
    Act.Sat (fun _ _ => True) G h () (lastAttempt L C msgs) fun h r _ => Resulted L h r := by
  unfold lastAttempt
  rw [Act.sat_bind]
  refine sat_plainAttempt hG (fun e => resulted_error _ e) fun data => ?_
  cases hobject : plainObject L data with
  | error e => exact resulted_error _ e
  | ok o =>
    cases o with
    | none => exact resulted_error _ _
    | some v =>
      intro w hw
      obtain rfl := Except.ok.inj hw
      exact ⟨h, _, data, rfl, stands_plainObject hobject⟩

/-- The attempts without tools: the second one goes on from any answer to the first. -/
theorem sat_plainAttempts {msgs : List (PyVal Obj)} (hfirst : G h (.post (plainRequest C msgs 0)))
    (hsecond : ∀ answer, G (h ++ [⟨.post (plainRequest C msgs 0), answer⟩])
      (.post (plainRequest C msgs 1))) :
    Act.Sat (fun _ _ => True) G h () (plainAttempts L C msgs) fun h r _ => Resulted L h r := by
  have hretry (answer : LlmAns (.post (plainRequest C msgs 0))) (e : LlmError) :
      Act.Sat (fun _ _ => True) G (h ++ [⟨.post (plainRequest C msgs 0), answer⟩]) ()
        (if e.retried then lastAttempt L C msgs else Act.raise e) fun h r _ => Resulted L h r := by
    split_ifs
    · exact sat_lastAttempt (hsecond answer)
    · exact resulted_error _ e
  unfold plainAttempts
  rw [Act.sat_bind, Act.sat_attempt]
  refine sat_plainAttempt hfirst (fun e => ?_) fun data => ?_
  · exact hretry _ e
  · cases hobject : plainObject L data with
    | error e => exact hretry _ e
    | ok o =>
      cases o with
      | none => exact sat_lastAttempt (hsecond _)
      | some v =>
        intro w hw
        obtain rfl := Except.ok.inj hw
        exact ⟨h, _, data, rfl, stands_plainObject hobject⟩

/-- `chat_json`: each of its requests is allowed after any answers to those before it. -/
theorem sat_chatJson {base : List (PyVal Obj)} {schema : PyVal Obj}
    (hG : ∀ j req h', JsonRequest L C base schema j req → posts h' = j → G (h ++ h') (.post req)) :
    Act.Sat (fun _ _ => True) G h () (chatJson L C base schema) fun h r _ => Resulted L h r := by
  have hfirst : G h (.post (chatRequest C base [jsonTool schema] forced)) := by
    have hnil := hG 0 _ [] .tool rfl
    rw [List.append_nil] at hnil
    exact hnil
  have hfallback (answer : LlmAns (.post (chatRequest C base [jsonTool schema] forced))) :
      Act.Sat (fun _ _ => True) G
        (h ++ [⟨.post (chatRequest C base [jsonTool schema] forced), answer⟩]) ()
        (jsonFallback L C base schema) fun h r _ => Resulted L h r := by
    unfold jsonFallback
    rw [Act.sat_bind, Act.sat_ofExcept]
    cases hmessages : fallbackMessages L base schema with
    | error e => exact resulted_error _ e
    | ok fallback =>
      refine sat_plainAttempts (hG 1 _ [_] (.plain 0 (by omega) hmessages) rfl) fun again => ?_
      rw [List.append_assoc]
      exact hG 2 _ [_, _] (.plain 1 (by omega) hmessages) rfl
  have herror (answer : LlmAns (.post (chatRequest C base [jsonTool schema] forced)))
      (e : LlmError) : Act.Sat (fun _ _ => True) G
        (h ++ [⟨.post (chatRequest C base [jsonTool schema] forced), answer⟩]) ()
        (if e = .status 400 then jsonFallback L C base schema else Act.raise e)
        fun h r _ => Resulted L h r := by
    split_ifs
    · exact hfallback answer
    · exact resulted_error _ e
  unfold chatJson
  rw [Act.sat_bind, Act.sat_attempt]
  refine sat_chat hfirst (fun e => herror _ e) fun data => ?_
  cases hreply : parseReply L data with
  | error e => exact herror _ e
  | ok reply =>
    dsimp only
    cases hcalls : reply.calls with
    | cons tc rest =>
      intro v hv
      obtain rfl := Except.ok.inj hv
      exact ⟨h, _, data, rfl, .inl ⟨reply, tc, hreply, by simp [hcalls], rfl⟩⟩
    | nil =>
      cases hcontent : loadsVal L reply.content with
      | ok v =>
        intro w hw
        obtain rfl := Except.ok.inj hw
        exact ⟨h, _, data, rfl, stands_content hreply hcontent⟩
      | error e =>
        cases e with
        | decode => exact hfallback _
        | type => exact hfallback _
        | status code => exact resulted_error _ _
        | key => exact resulted_error _ _
        | other => exact resulted_error _ _

/-! ## The tool calls -/

/-- The tool calls: a handler is called after the calls before it were executed. -/
theorem sat_execCalls {calls : List (ToolCall Obj)}
    (hG : ∀ done tc rest events results name, calls = done ++ tc :: rest →
      Executed L handlers done events results → handlerOf handlers tc.name = some name →
      G (h ++ events) (.handle name tc.arguments)) :
    Act.Sat (fun _ _ => True) G h () (execCalls L handlers calls) fun h' r _ =>
      ∀ results, r = .ok results → ∃ events, h' = h ++ events ∧
        Executed L handlers calls events results := by
  induction calls generalizing h with
  | nil =>
    intro results hresults
    obtain rfl := Except.ok.inj hresults
    exact ⟨[], (List.append_nil h).symm, .nil⟩
  | cons tc calls ih =>
    unfold execCalls execCall
    by_cases hhash : hashable tc.name = true
    · rw [if_pos hhash]
      cases hname : handlerOf handlers tc.name with
      | some name =>
        have hcall := hG [] tc calls [] [] name rfl .nil hname
        rw [List.append_nil] at hcall
        rw [Act.sat_bind, Act.sat_bind, Act.sat_perform]
        refine ⟨hcall, fun answer _ => ?_⟩
        have hnext := ih (h := h ++ [⟨.handle name tc.arguments, answer⟩])
          fun done tc' rest events results name' hsplit hexec hname' => by
            rw [List.append_assoc]
            exact hG (tc :: done) tc' rest _ _ name' (by rw [hsplit]; rfl)
              (.handled answer hname hexec) hname'
        dsimp only
        rw [Act.sat_pure]
        dsimp only
        rw [Act.sat_bind]
        refine hnext.mono fun h' r _ hr => ?_
        cases r with
        | error e =>
          intro results hresults
          cases hresults
        | ok results =>
          obtain ⟨events, rfl, hexec⟩ := hr results rfl
          intro results' hresults
          obtain rfl := Except.ok.inj hresults
          exact ⟨_ :: events, by simp, .handled answer hname hexec⟩
      | none =>
        have hnext := ih (h := h) fun done tc' rest events results name' hsplit hexec hname' =>
          hG (tc :: done) tc' rest _ _ name' (by rw [hsplit]; rfl) (.unknown hname hexec) hname'
        rw [Act.sat_bind, Act.sat_pure]
        dsimp only
        rw [Act.sat_bind]
        refine hnext.mono fun h' r _ hr => ?_
        cases r with
        | error e =>
          intro results hresults
          cases hresults
        | ok results =>
          obtain ⟨events, rfl, hexec⟩ := hr results rfl
          intro results' hresults
          obtain rfl := Except.ok.inj hresults
          exact ⟨events, rfl, .unknown hname hexec⟩
    · rw [if_neg hhash]
      intro results hresults
      cases hresults

end Sat

/-! ## The loop -/

/-- The loop, after the rounds that are over. -/
theorem sat_reactLoop {k i : ℕ} {h : List (LlmEvent Obj)} {msgs : List (PyVal Obj)}
    (hrounds : Rounds L C handlers args i h msgs) (hk : i + k = args.maxIterations) :
    Act.Sat (fun _ _ => True) (Allowed L C handlers args) h ()
      (reactLoop L C handlers args k msgs) fun h r _ => Resulted L h r := by
  induction k generalizing i h msgs with
  | zero =>
    refine sat_chatJson fun j req h' hreq hposts => .inr ?_
    refine ⟨i, h, msgs, _, j, hrounds, List.prefix_append h h', .inl rfl, hreq, ?_⟩
    rw [posts_append, hrounds.posts, hposts]
    omega
  | succ k ih =>
    have hi : i < args.maxIterations := by omega
    have hreq : chatRequest C msgs (allTools args.tools args.finalSchema)
        (choiceFor (decide (k = 0))) = roundRequest C args i msgs := by
      have hlast : decide (k = 0) = decide (i + 1 = args.maxIterations) :=
        decide_eq_decide.mpr (by omega)
      rw [hlast]
      rfl
    have hallowed : Allowed L C handlers args h (.post (chatRequest C msgs
        (allTools args.tools args.finalSchema) (choiceFor (decide (k = 0))))) :=
      .inl ⟨i, msgs, hrounds, hi, hreq⟩
    -- After an answer of this round `chat_json` may go on from the messages of the call.
    have hjson (answer) (base : List (PyVal Obj))
        (hbase : base = args.messages ∨ base = msgs ∧ i + 1 = args.maxIterations) :
        Act.Sat (fun _ _ => True) (Allowed L C handlers args)
          (h ++ [⟨.post (chatRequest C msgs (allTools args.tools args.finalSchema)
            (choiceFor (decide (k = 0)))), answer⟩]) () (chatJson L C base args.finalSchema)
          fun h r _ => Resulted L h r := by
      refine sat_chatJson fun j req h' hjreq hposts => .inr ?_
      refine ⟨i, h, msgs, base, j, hrounds, ?_, hbase, hjreq, ?_⟩
      · rw [List.append_assoc]
        exact List.prefix_append _ _
      · rw [posts_append, posts_append, hrounds.posts, hposts, posts_post]
        omega
    have herror (answer) (e : LlmError) :
        Act.Sat (fun _ _ => True) (Allowed L C handlers args)
          (h ++ [⟨.post (chatRequest C msgs (allTools args.tools args.finalSchema)
            (choiceFor (decide (k = 0)))), answer⟩]) ()
          (if e = .status 400 ∧ k = 0 then chatJson L C msgs args.finalSchema else Act.raise e)
          fun h r _ => Resulted L h r := by
      split_ifs with hlast
      · exact hjson answer msgs (.inr ⟨rfl, by omega⟩)
      · exact resulted_error _ e
    unfold reactLoop
    rw [Act.sat_bind, Act.sat_attempt]
    refine sat_chat hallowed (fun e => herror _ e) fun data => ?_
    cases hreply : parseReply L data with
    | error e => exact herror _ e
    | ok reply =>
      dsimp only
      by_cases hcalls : reply.calls = []
      · rw [if_pos hcalls, Act.sat_bind, Act.sat_ofExcept]
        cases hcontent : contentObject L reply.content with
        | error e => exact resulted_error _ e
        | ok o =>
          cases o with
          | none => exact hjson _ args.messages (.inl rfl)
          | some v =>
            intro w hw
            obtain rfl := Except.ok.inj hw
            exact ⟨h, _, data, rfl, stands_contentObject hreply hcontent⟩
      · rw [if_neg hcalls]
        cases hfind : reply.calls.find? ToolCall.isFinal with
        | some tc =>
          intro w hw
          obtain rfl := Except.ok.inj hw
          exact ⟨h, _, data, rfl, .inl ⟨reply, tc, hreply, List.mem_of_find?_eq_some hfind, rfl⟩⟩
        | none =>
          have hfinal : ∀ tc ∈ reply.calls, tc.isFinal = false := by
            intro tc htc
            exact Bool.not_eq_true _ ▸ List.find?_eq_none.mp hfind tc htc
          dsimp only
          rw [Act.sat_bind, Act.sat_ofExcept]
          cases hassistant : assistantMessage L reply with
          | error e => exact resulted_error _ e
          | ok assistant =>
            dsimp only
            rw [Act.sat_bind, hreq]
            refine (sat_execCalls ?_).mono fun h' r _ hr => ?_
            · intro done tc rest events results name hsplit hexec hname
              rw [List.append_assoc]
              exact ⟨i, h, msgs, data, reply, hrounds, hi, hreply, hfinal, events, done, tc, rest,
                results, rfl, hsplit, hexec, hname, rfl⟩
            · cases r with
              | error e => exact resulted_error _ e
              | ok results =>
                obtain ⟨events, rfl, hexec⟩ := hr results rfl
                rw [List.append_assoc]
                exact ih (.round hrounds hi hreply hcalls hfinal hassistant hexec) (by omega)

variable (L C handlers args) in
/-- `chat_react`. -/
theorem sat_chatReact : Act.Sat (fun _ _ => True) (Allowed L C handlers args) [] ()
    (chatReact L C handlers args) fun h r _ => Resulted L h r :=
  sat_reactLoop .start (Nat.zero_add _)

/-- The messages of a request are a conversation, behind which there may be the description of the
schema, and it is one of the first requests. -/
theorem Requested.conversation {h : List (LlmEvent Obj)} {req : Request Obj}
    (hreq : Requested L C handlers args h req) :
    posts h < args.maxIterations + 3 ∧ ∃ msgs rest, req.messages = msgs ++ rest ∧
      Conversation L args.messages msgs ∧ (rest = [] ∨ ∃ hint, rest = [schemaMessage hint]) := by
  rcases hreq with ⟨i, msgs, hrounds, hi, rfl⟩ |
    ⟨i, before, msgs, base, j, hrounds, -, hbase, hjson, hposts⟩
  · refine ⟨?_, msgs, [], (List.append_nil msgs).symm, hrounds.conversation, .inl rfl⟩
    rw [hrounds.posts]
    omega
  · have hconversation : Conversation L args.messages base := by
      rcases hbase with rfl | ⟨rfl, -⟩
      · exact .start
      · exact hrounds.conversation
    cases hjson with
    | tool => exact ⟨by omega, base, [], (List.append_nil base).symm, hconversation, .inl rfl⟩
    | plain attempt hattempt hfallback =>
      refine ⟨by omega, base, ?_⟩
      unfold fallbackMessages at hfallback
      cases hhint : L.dumpsIndented 2 args.finalSchema with
      | error e =>
        rw [hhint] at hfallback
        cases hfallback
      | ok hint =>
        rw [hhint] at hfallback
        obtain rfl := Except.ok.inj hfallback
        exact ⟨_, rfl, hconversation, .inr ⟨hint, rfl⟩⟩

/-- In any run, however far it has got, each request is that of the next round of the loop, which
offers all the tools and forces the object in the last round only, or one of `chat_json`. What it
sends is a conversation in which every tool call of the model is answered, and there are at most
three requests more than rounds. -/
theorem react_requests {h₁ h₂ : List (LlmEvent Obj)} {e : LlmEvent Obj} {q}
    (hrun : Prog.Steps (chatReact L C handlers args ()) (h₁ ++ e :: h₂) q) {req : Request Obj}
    (hreq : e.op = .post req) :
    Requested L C handlers args h₁ req ∧ posts h₁ < args.maxIterations + 3 ∧
      ∃ msgs rest, req.messages = msgs ++ rest ∧ Conversation L args.messages msgs ∧
        (rest = [] ∨ ∃ hint, rest = [schemaMessage hint]) := by
  have hallowed := hrun.guarantee (sat_chatReact L C handlers args) (Prog.relied_true [] h₁)
  rw [List.nil_append, hreq] at hallowed
  exact ⟨hallowed, hallowed.conversation⟩

/-- In any run, a handler is called for a tool call of the last answer of the model only, by its
name and with its arguments, after the tool calls before it were executed; and in that answer there
is no object. -/
theorem react_handled {h₁ h₂ : List (LlmEvent Obj)} {e : LlmEvent Obj} {q}
    (hrun : Prog.Steps (chatReact L C handlers args ()) (h₁ ++ e :: h₂) q) {name : PyStr}
    {arguments : PyVal Obj} (hcall : e.op = .handle name arguments) :
    Handled L C handlers args h₁ name arguments := by
  have hallowed := hrun.guarantee (sat_chatReact L C handlers args) (Prog.relied_true [] h₁)
  rw [List.nil_append, hcall] at hallowed
  exact hallowed

/-- What is returned stands in the last answer of the model, behind which nothing is called. -/
theorem react_result {h : List (LlmEvent Obj)} {v : PyVal Obj}
    (hrun : Prog.Runs (chatReact L C handlers args ()) h (.ok v, ())) :
    ∃ h₁ req data, h = h₁ ++ [⟨.post req, .ok data⟩] ∧ Stands L v data := by
  have hresult := hrun.post (sat_chatReact L C handlers args) (Prog.relied_true [] h)
  rw [List.nil_append] at hresult
  exact hresult v rfl

/-! ## A run of two rounds -/

/-- An interpreter for concrete runs. -/
def smallTypes : LlmTypes PyStr where
  toInterp := textInterp
  truth _ := true
  fmt
    | .str s => s
    | _ => []
  dumpsFailed e := e

def smallClient : LlmClient PyStr := ⟨u "m", .int 0, .int 1, 64⟩

def smallArgs : ReactArgs PyStr where
  messages := []
  tools := []
  finalSchema := .dict []
  maxIterations := 2

/-- An answer with one tool call. -/
def callAnswer (name : String) : PyVal PyStr :=
  dictOf [("choices", .seq false [dictOf [("message", dictOf [("tool_calls", .seq false [
    dictOf [("id", .str (u "1")), ("function", dictOf [("name", .str (u name)),
      ("arguments", .str [123, 125])])]])])]])]

/-- The model asks for a tool first, and then gives the object. -/
def smallOracle (h : List (LlmEvent PyStr)) : (op : LlmOp PyStr) → LlmAns op
  | .post _ => .ok (if h.isEmpty then callAnswer "get" else callAnswer "structured_output")
  | .handle _ _ => .ok .none

/-- The run. -/
def smallRun : List (LlmEvent PyStr) × Except LlmError (PyVal PyStr) × Unit :=
  Prog.run smallOracle [] (chatReact smallTypes smallClient [u "get"] smallArgs ())

/-- Whether a call is a request. -/
def isPost : LlmOp PyStr → Bool
  | .post _ => true
  | .handle _ _ => false

theorem exists_smallRun :
    ∃ e₁ e₂ e₃ v, Prog.Runs (chatReact smallTypes smallClient [u "get"] smallArgs ()) [e₁, e₂, e₃]
      (.ok v, ()) ∧ (∃ name arguments, e₂.op = .handle name arguments) ∧
        ∃ req, e₃.op = .post req := by
  have hops : smallRun.1.map (fun e => isPost e.op) = [true, false, true] := by decide +kernel
  have hok : smallRun.2.1.toOption.isSome = true := by decide +kernel
  obtain ⟨h, hh, hrun⟩ := Prog.runs_run smallOracle
    (chatReact smallTypes smallClient [u "get"] smallArgs ()) []
  change smallRun.1 = h at hh
  change Prog.Runs _ h smallRun.2 at hrun
  generalize smallRun = r at hops hok hh hrun
  obtain ⟨events, result, ⟨⟩⟩ := r
  obtain rfl : events = h := hh
  obtain ⟨e₁, e₂, e₃, rfl⟩ : ∃ e₁ e₂ e₃, events = [e₁, e₂, e₃] := by
    have hlength := congrArg List.length hops
    rw [List.length_map] at hlength
    exact List.length_eq_three.mp hlength
  obtain ⟨v, rfl⟩ : ∃ v, result = .ok v := by
    cases result with
    | ok v => exact ⟨v, rfl⟩
    | error e => exact absurd hok Bool.false_ne_true
  simp only [List.map_cons, List.map_nil, List.cons.injEq, and_true] at hops
  refine ⟨e₁, e₂, e₃, v, hrun, ?_, ?_⟩
  · cases hop : e₂.op with
    | handle name arguments => exact ⟨name, arguments, rfl⟩
    | post req =>
      rw [hop] at hops
      cases hops.2.1
  · cases hop : e₃.op with
    | post req => exact ⟨req, rfl⟩
    | handle name arguments =>
      rw [hop] at hops
      cases hops.2.2

/-- The request of the second round. -/
theorem react_requests_smallRun :
    ∃ h req, h.length = 2 ∧
      Requested smallTypes smallClient [u "get"] smallArgs h req ∧ posts h < 5 := by
  obtain ⟨e₁, e₂, e₃, v, hrun, -, req, hreq⟩ := exists_smallRun
  have hsteps : Prog.Steps (chatReact smallTypes smallClient [u "get"] smallArgs ())
      ([e₁, e₂] ++ e₃ :: []) _ := hrun
  have hall := react_requests hsteps hreq
  exact ⟨_, req, rfl, hall.1, hall.2.1⟩

/-- The handler that is called in between. -/
theorem react_handled_smallRun :
    ∃ h name arguments, h.length = 1 ∧
      Handled smallTypes smallClient [u "get"] smallArgs h name arguments := by
  obtain ⟨e₁, e₂, e₃, v, hrun, ⟨name, arguments, hcall⟩, -⟩ := exists_smallRun
  have hsteps : Prog.Steps (chatReact smallTypes smallClient [u "get"] smallArgs ())
      ([e₁] ++ e₂ :: [e₃]) _ := hrun
  exact ⟨_, name, arguments, rfl, react_handled hsteps hcall⟩

/-- What is returned in the end. -/
theorem react_result_smallRun :
    ∃ h₁ req data v, h₁.length = 2 ∧ Stands smallTypes v data ∧
      Prog.Runs (chatReact smallTypes smallClient [u "get"] smallArgs ())
        (h₁ ++ [⟨.post req, .ok data⟩]) (.ok v, ()) := by
  obtain ⟨e₁, e₂, e₃, v, hrun, -, -⟩ := exists_smallRun
  obtain ⟨h₁, req, data, heq, hstands⟩ := react_result hrun
  refine ⟨h₁, req, data, v, ?_, hstands, heq ▸ hrun⟩
  have hlength := congrArg List.length heq
  rw [List.length_append, List.length_singleton] at hlength
  exact (Nat.succ.inj hlength).symm

end ControlPlane.Intel.Llm
