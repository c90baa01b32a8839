import ControlPlane.Lib.JsonIndent
import ControlPlane.Lib.Prog
import ControlPlane.Stream.LlamaClassifier

/-!
# The client of the language model

`agent/llm/openai_compat.py`: `chat` makes one request and takes the answer apart, `chat_json` asks
for an object with up to three requests, and `chat_react` lets the model call tools, round by round,
until it gives the object. What the model answers and what the handlers of the tools return is left
open.

`react_requests` and `react_handled` say what is sent and which handlers are called in any run,
however far it has got, and `react_result` where the object comes from.
-/

namespace ControlPlane.Intel.Llm

open JsonText
open ControlPlane.Stream (nonzero)

variable {Obj : Type}

/-! ## Values -/

/-- The exceptions that the client tells apart. -/
inductive LlmError where
  /-- `httpx.HTTPStatusError`. -/
  | status (code : ℕ)
  /-- `json.JSONDecodeError`. -/
  | decode
  /-- `KeyError`. -/
  | key
  /-- `TypeError`. -/
  | type
  | other
  deriving DecidableEq

/-- The interpreter. -/
structure LlmTypes (Obj : Type) extends Interp Obj where
  /-- `bool(o)`. -/
  truth : Obj → Bool
  /-- `str(x)`, in an f-string. -/
  fmt : PyVal Obj → PyStr
  /-- An exception of `json.dumps`, with the name of its class before its text. -/
  dumpsFailed : PyStr → PyStr

/-- A dict with these items. -/
def dictOf (items : List (String × PyVal Obj)) : PyVal Obj :=
  .dict (items.map fun i => (.str (u i.1), i.2))

/-- `v[key]`. -/
def subscript (v : PyVal Obj) (key : String) : Except LlmError (PyVal Obj) :=
  match v with
  | .dict items =>
    match getItem (u key) items with
    | some w => .ok w
    | none => .error .key
  | .other _ => .error .other
  | _ => .error .type

/-- `v[0]`, for a value of JSON. -/
def first (v : PyVal Obj) : Except LlmError (PyVal Obj) :=
  match v with
  | .seq _ (x :: _) => .ok x
  | .str (c :: _) => .ok (.str [c])
  | .seq _ [] | .str [] | .other _ => .error .other
  | .dict _ => .error .key
  | _ => .error .type

/-- `v.get(key)`. -/
def get (v : PyVal Obj) (key : String) (default : PyVal Obj) : Except LlmError (PyVal Obj) :=
  match v with
  | .dict items => .ok ((getItem (u key) items).getD default)
  | _ => .error .other

/-- The values that a `for` goes over. -/
def iterate : PyVal Obj → Except LlmError (List (PyVal Obj))
  | .seq _ xs => .ok xs
  | .str s => .ok (s.map fun c => .str [c])
  | .dict items => .ok (items.map fun i => .str (Interp.keyText i.1))
  | .other _ => .error .other
  | _ => .error .type

section

variable (L : LlmTypes Obj)

/-- `bool(v)`. -/
def truthy : PyVal Obj → Bool
  | .none => false
  | .bool b => b
  | .int n => n ≠ 0
  | .float x => nonzero x
  | .str s => s ≠ []
  | .seq _ xs => !xs.isEmpty
  | .dict items => !items.isEmpty
  | .other o => L.truth o

/-- `json.loads(v)`. -/
def loadsVal : PyVal Obj → Except LlmError (PyVal Obj)
  | .str s =>
    match L.loads s with
    | .ok v => .ok v
    | .error .decode => .error .decode
    | .error _ => .error .other
  | _ => .error .type

/-! ## A request -/

/-- What the requests of a client have in common. -/
structure LlmClient (Obj : Type) where
  model : PyStr
  temperature : PyVal Obj
  /-- `self._temperature + 0.1`. -/
  warmer : PyVal Obj
  maxTokens : ℤ

/-- The payload of a request. -/
structure Request (Obj : Type) where
  model : PyStr
  messages : List (PyVal Obj)
  temperature : PyVal Obj
  maxTokens : ℤ
  /-- `tools`, left out when there are none. -/
  tools : List (PyVal Obj)
  toolChoice : Option (PyVal Obj)
  responseFormat : Option (PyVal Obj)

/-- What the client calls. -/
inductive LlmOp (Obj : Type) where
  /-- The request, up to `resp.json()`. -/
  | post (req : Request Obj)
  /-- The handler of a tool. -/
  | handle (name : PyStr) (args : PyVal Obj)

/-- What a call is answered with; an exception of a handler as its class and text. -/
@[reducible] def LlmAns {Obj : Type} : LlmOp Obj → Type
  | .post _ => Except LlmError (PyVal Obj)
  | .handle _ _ => Except PyStr (PyVal Obj)

/-- An event of the client. -/
abbrev LlmEvent (Obj : Type) := Event (LlmOp Obj) LlmAns

/-- A method of the client. -/
abbrev LlmM (Obj : Type) := Act (LlmOp Obj) LlmAns LlmError Unit

/-- A tool call of the model. -/
structure ToolCall (Obj : Type) where
  name : PyVal Obj
  arguments : PyVal Obj
  id : PyVal Obj

/-- What `chat` returns. -/
structure Reply (Obj : Type) where
  content : PyVal Obj
  toolCalls : Option (List (ToolCall Obj))
  usage : PyVal Obj

/-- `result.get("tool_calls") or []`. -/
def Reply.calls (reply : Reply Obj) : List (ToolCall Obj) := reply.toolCalls.getD []

/-- A tool call in an answer. -/
def parseCall (tc : PyVal Obj) : Except LlmError (ToolCall Obj) := do
  let function ← subscript tc "function"
  let name ← subscript function "name"
  let text ← subscript function "arguments"
  let arguments ← loadsVal L text
  let id ← get tc "id" (.str [])
  return { name := name, arguments := arguments, id := id }

/-- `v or ""`. -/
def orEmpty (v : PyVal Obj) : PyVal Obj := if truthy L v then v else .str []

/-- The message of the first choice in an answer. -/
def messageOf (data : PyVal Obj) : Except LlmError (PyVal Obj) := do
  let choices ← subscript data "choices"
  let choice ← first choices
  subscript choice "message"

/-- The tool calls in a message, when there are any. -/
def parseCalls (calls : PyVal Obj) : Except LlmError (Option (List (ToolCall Obj))) :=
  if truthy L calls then do
    let items ← iterate calls
    let toolCalls ← items.mapM (parseCall L)
    return some toolCalls
  else .ok none

/-- What `chat` takes from the answer. -/
def parseReply (data : PyVal Obj) : Except LlmError (Reply Obj) := do
  let msg ← messageOf data
  let calls ← get msg "tool_calls" .none
  let toolCalls ← parseCalls L calls
  let usage ← get data "usage" (.dict [])
  let content ← get msg "content" .none
  return { content := orEmpty L content, toolCalls := toolCalls, usage := usage }

variable (C : LlmClient Obj)

/-- The request of `chat`. -/
def chatRequest (messages tools : List (PyVal Obj)) (toolChoice : PyVal Obj) : Request Obj where
  model := C.model
  messages := messages
  temperature := C.temperature
  maxTokens := C.maxTokens
  tools := tools
  toolChoice := some toolChoice
  responseFormat := none

/-- `chat`. -/
def chat (messages tools : List (PyVal Obj)) (toolChoice : PyVal Obj) : LlmM Obj (Reply Obj) := do
  let data ← Act.orRaise (Act.perform (LlmOp.post (chatRequest C messages tools toolChoice)))
  Act.ofExcept (parseReply L data)

/-! ## `chat_json` -/

/-- The tool whose arguments are the object. -/
def structuredTool (description : String) (schema : PyVal Obj) : PyVal Obj :=
  dictOf [("type", .str (u "function")), ("function", dictOf [
    ("name", .str (u "structured_output")), ("description", .str (u description)),
    ("parameters", schema)])]

/-- The choice of this tool. -/
def forced : PyVal Obj :=
  dictOf [("type", .str (u "function")), ("function", dictOf [
    ("name", .str (u "structured_output"))])]

/-- The tool of `chat_json`. -/
def jsonTool (schema : PyVal Obj) : PyVal Obj :=
  structuredTool "Return the structured output" schema

/-- The message that describes the schema. -/
def schemaMessage (hint : PyStr) : PyVal Obj :=
  dictOf [("role", .str (u "system")), ("content", .str (
    u "Output ONLY a single JSON object matching this schema. " ++
    u "No prose, no markdown fences. Begin with `\x7b` and end with `\x7d`.\n\n" ++
    u "SCHEMA:\n" ++ hint))]

/-- The request of an attempt without tools. -/
def plainRequest (messages : List (PyVal Obj)) (attempt : ℕ) : Request Obj where
  model := C.model
  messages := messages
  temperature := if attempt > 0 then C.warmer else C.temperature
  maxTokens := C.maxTokens
  tools := []
  toolChoice := none
  responseFormat := some (dictOf [("type", .str (u "json_object"))])

/-- The object in the answer to an attempt without tools, with `none` for an empty content. -/
def plainObject (data : PyVal Obj) : Except LlmError (Option (PyVal Obj)) := do
  let msg ← messageOf data
  let content ← get msg "content" .none
  match orEmpty L content with
  | .str s => if strip s = [] then pure none else (loadsVal L (.str s)).map some
  | _ => .error .other

/-- One attempt without tools. -/
def plainAttempt (messages : List (PyVal Obj)) (attempt : ℕ) :
    LlmM Obj (Option (PyVal Obj)) := do
  let data ← Act.orRaise (Act.perform (LlmOp.post (plainRequest C messages attempt)))
  Act.ofExcept (plainObject L data)

/-- The exceptions after which there is another attempt. -/
def LlmError.retried : LlmError → Bool
  | .status _ | .decode | .key => true
  | _ => false

/-- The last attempt, behind which there is the `ValueError`. -/
def lastAttempt (messages : List (PyVal Obj)) : LlmM Obj (PyVal Obj) := do
  match ← plainAttempt L C messages 1 with
  | some v => pure v
  | none => Act.raise .other

/-- The attempts without tools. -/
def plainAttempts (messages : List (PyVal Obj)) : LlmM Obj (PyVal Obj) := do
  match ← Act.attempt (plainAttempt L C messages 0) with
  | .ok (some v) => pure v
  | .ok none => lastAttempt L C messages
  | .error e => if e.retried then lastAttempt L C messages else Act.raise e

/-- The messages of an attempt without tools. -/
def fallbackMessages (messages : List (PyVal Obj)) (schema : PyVal Obj) :
    Except LlmError (List (PyVal Obj)) :=
  match L.dumpsIndented 2 schema with
  | .ok hint => .ok (messages ++ [schemaMessage hint])
  | .error _ => .error .other

/-- What is behind the first request. -/
def jsonFallback (messages : List (PyVal Obj)) (schema : PyVal Obj) : LlmM Obj (PyVal Obj) := do
  let fallback ← Act.ofExcept (fallbackMessages L messages schema)
  plainAttempts L C fallback

/-- `chat_json`. -/
def chatJson (messages : List (PyVal Obj)) (schema : PyVal Obj) : LlmM Obj (PyVal Obj) := do
  match ← Act.attempt (chat L C messages [jsonTool schema] forced) with
  | .ok reply =>
    match reply.calls with
    | tc :: _ => pure tc.arguments
    | [] =>
      match loadsVal L reply.content with
      | .ok v => pure v
      | .error .decode | .error .type => jsonFallback L C messages schema
      | .error e => Act.raise e
  | .error e =>
    if e = .status 400 then jsonFallback L C messages schema else Act.raise e

/-! ## `chat_react` -/

/-- `tc["name"] == "structured_output"`. -/
def ToolCall.isFinal (tc : ToolCall Obj) : Bool :=
  match tc.name with
  | .str s => s = u "structured_output"
  | _ => false

variable (Obj) in
/-- The text of `{"error": ...}`. -/
def errorText (error : PyStr) : PyStr := (Interp.print (dictOf [("error", .str error)] : PyVal Obj))

/-- The result of a tool, as it is told the model. -/
def resultText : Except PyStr (PyVal Obj) → PyStr
  | .ok (.str s) => s
  | .ok v =>
    match L.dumps ⟨false, L.str⟩ v with
    | .ok text => text.take 4000
    | .error e => errorText Obj (L.dumpsFailed e)
  | .error e => errorText Obj e

/-- The result of a tool that there is not. -/
def unknownText (name : PyVal Obj) : PyStr :=
  errorText Obj (u "Unknown tool: " ++ L.fmt name)

/-- A key that a dict may be asked for. -/
def hashable : PyVal Obj → Bool
  | .seq _ _ | .dict _ | .other _ => false
  | _ => true

variable (handlers : List PyStr)

/-- `tool_handlers.get(name)`, as the name of the handler. -/
def handlerOf : PyVal Obj → Option PyStr
  | .str s => if s ∈ handlers then some s else none
  | _ => none

/-- One tool call. -/
def execCall (tc : ToolCall Obj) : LlmM Obj PyStr :=
  if hashable tc.name then
    match handlerOf handlers tc.name with
    | some name => do
      let answer ← Act.perform (LlmOp.handle name tc.arguments)
      pure (resultText L answer)
    | none => pure (unknownText L tc.name)
  else Act.raise .type

/-- The tool calls, one after the other. -/
def execCalls : List (ToolCall Obj) → LlmM Obj (List PyStr)
  | [] => pure []
  | tc :: rest => do
    let result ← execCall L handlers tc
    let results ← execCalls rest
    pure (result :: results)

/-- The record of a tool call. -/
def callRecord (tc : ToolCall Obj) : Except LlmError (PyVal Obj) :=
  match L.dumps L.plain tc.arguments with
  | .ok text => .ok (dictOf [("id", tc.id), ("type", .str (u "function")), ("function",
      dictOf [("name", tc.name), ("arguments", .str text)])])
  | .error _ => .error .other

/-- The message that records the tool calls. -/
def assistantMessage (reply : Reply Obj) : Except LlmError (PyVal Obj) := do
  let records ← reply.calls.mapM (callRecord L)
  return dictOf [("role", .str (u "assistant")),
    ("content", if truthy L reply.content then reply.content else .none),
    ("tool_calls", .seq false records)]

/-- The message with the result of a tool call. -/
def toolMessage (tc : ToolCall Obj) (result : PyStr) : PyVal Obj :=
  dictOf [("role", .str (u "tool")), ("tool_call_id", tc.id), ("name", tc.name),
    ("content", .str result)]

/-- The messages of a round. -/
def roundMessages (assistant : PyVal Obj) (calls : List (ToolCall Obj)) (results : List PyStr) :
    List (PyVal Obj) := assistant :: List.zipWith toolMessage calls results

/-- The tools of `chat_react`. -/
def allTools (tools : List (PyVal Obj)) (schema : PyVal Obj) : List (PyVal Obj) :=
  tools ++ [structuredTool
    "Emit the final structured policy decision after sufficient reasoning." schema]

/-- The choice of the tool: free, but for the final round. -/
def choiceFor (isFinalRound : Bool) : PyVal Obj :=
  if isFinalRound then forced else .str (u "auto")

/-- The object that the content of a reply without tool calls is, with `none` where there is none. -/
def contentObject (content : PyVal Obj) : Except LlmError (Option (PyVal Obj)) :=
  match orEmpty L content with
  | .str s =>
    if strip s = [] then .ok none
    else
      match loadsVal L (.str s) with
      | .ok v => .ok (some v)
      | .error .decode => .ok none
      | .error e => .error e
  | _ => .error .other

/-- What `chat_react` is called with. -/
structure ReactArgs (Obj : Type) where
  messages : List (PyVal Obj)
  tools : List (PyVal Obj)
  finalSchema : PyVal Obj
  maxIterations : ℕ

variable (args : ReactArgs Obj)

/-- The loop of `chat_react`, with this many rounds to go. -/
def reactLoop : ℕ → List (PyVal Obj) → LlmM Obj (PyVal Obj)
  | 0, _ => chatJson L C args.messages args.finalSchema
  | k + 1, msgs => do
    match ← Act.attempt (chat L C msgs (allTools args.tools args.finalSchema)
        (choiceFor (k = 0))) with
    | .error e =>
      if e = .status 400 ∧ k = 0 then chatJson L C msgs args.finalSchema else Act.raise e
    | .ok reply =>
      if reply.calls = [] then do
        match ← Act.ofExcept (contentObject L reply.content) with
        | some v => pure v
        | none => chatJson L C args.messages args.finalSchema
      else
        match reply.calls.find? ToolCall.isFinal with
        | some tc => pure tc.arguments
        | none => do
          let assistant ← Act.ofExcept (assistantMessage L reply)
          let results ← execCalls L handlers reply.calls
          reactLoop k (msgs ++ roundMessages assistant reply.calls results)

/-- `chat_react`. -/
def chatReact : LlmM Obj (PyVal Obj) := reactLoop L C handlers args args.maxIterations args.messages

end

end ControlPlane.Intel.Llm
