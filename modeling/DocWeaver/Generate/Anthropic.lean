import DocWeaver.Generate.Client
import DocWeaver.Data.Json
import DocWeaver.Text.Lines

/-!
The messages API as a generation backend.

A prompt becomes one user message with the configured model, token limit and temperature. The
text of an answer is the text of its `text` blocks, joined. An error status becomes a message the
way the API client words it: the trimmed body, or `Error code: N` for an empty body, or
`Error code: N - <value>` when the body is JSON. Timeouts, conflicts, rate limits, overload and
server errors are worth retrying; other statuses are refusals.
-/

namespace DocWeaver

/-- One block of an answer's content: its type and, for text blocks, its text. -/
structure ContentBlock where
  kind : String
  text : String
  deriving Repr, DecidableEq, Inhabited

/-- What the API does with one request. -/
inductive ApiExchange where
  | message (blocks : List ContentBlock)
  | status (code : Nat) (body : String)
  | unreachable
  | silent
  deriving Repr, DecidableEq, Inhabited

namespace Anthropic

def messagesPath : String := "/v1/messages"

def requestBody (g : GenerationConfig) (prompt : String) : JsonValue :=
  .obj [("model", .str g.model), ("max_tokens", .int g.maxTokens), ("temperature", .num g.temperature),
    ("messages", .arr [.obj [("role", .str "user"), ("content", .str prompt)]])]

def statusMessage (code : Nat) (body : String) : String :=
  let text := Text.strip body
  match JsonValue.parse text with
  | some (.str s) => s!"Error code: {code} - " ++ s
  | some v => s!"Error code: {code} - " ++ v.literal
  | none => if text.isEmpty then s!"Error code: {code}" else text

def retryStatuses : List Nat := [408, 409, 429, 529]

def isTransientStatus (code : Nat) : Bool := retryStatuses.contains code || code ≥ 500

def answerText (blocks : List ContentBlock) : String :=
  String.join ((blocks.filter (·.kind == "text")).map (·.text))

def reply : ApiExchange → Reply
  | .message blocks => .text (answerText blocks)
  | .status code body =>
    let m := statusMessage code body
    if isTransientStatus code then .transient m
    else .rejected (s!"Anthropic API error {code}: " ++ m)
  | .unreachable => .transient "Connection error."
  | .silent => .hang

def missingKeyMessage : String :=
  "No API key provided. Set ANTHROPIC_API_KEY environment variable or pass in config"

def apiKey (g : GenerationConfig) (envKey : Option String) : Option String :=
  match g.apiKey with
  | some k => if k.isEmpty then envKey.filter (· != "") else some k
  | none => envKey.filter (· != "")

def backend {σ : Type} (g : GenerationConfig) (api : σ → JsonValue → ApiExchange × σ) :
    Backend (σ × List JsonValue) where
  call := fun (s, sent) prompt =>
    let body := requestBody g prompt
    let (ex, s) := api s body
    (reply ex, (s, body :: sent))

end Anthropic

end DocWeaver
