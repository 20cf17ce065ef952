import Daku.Readers.Tools

/-!
# The MCP stdio loop

`handle_message` and `run_lines` of `crates/daku-core/src/mcp.rs:20–77, 371–402`: one JSON-RPC
message a line, replies on the output. Input and output are the bytes of the lines and the reply
documents; the store and the Environments file may change between two lines.
-/

namespace Daku.Readers

open Daku.Base Daku.Protocol Daku.Store Daku.Environments

/-- The library functions and the path a server is started with. -/
structure Server where
  fromStr : FromStr
  toPretty : ToPretty
  environmentsPath : String

/-- A successful reply (`mcp.rs:39–42`). -/
def resultReply (id result : Value) : Value :=
  .object [("id", id), ("jsonrpc", .string "2.0"), ("result", result)]

/-- A failed reply (`mcp.rs:43–47`). -/
def errorReply (id : Value) (code : Int) (text : String) : Value :=
  .object [("error", .object [("code", intValue code), ("message", .string text)]), ("id", id),
    ("jsonrpc", .string "2.0")]

/-- The result of `initialize` (`mcp.rs:49–53`). -/
def initializeResult : Value :=
  .object [("capabilities", .object [("tools", .object [])]),
    ("protocolVersion", .string "2024-11-05"),
    ("serverInfo", .object [("name", .string "daku"), ("version", .string "0.1.0")])]

/-- One entry of the tool list. -/
def toolEntry (name description : String) (properties : List (String × Value))
    (required : List String) : Value :=
  let requirement := if required = [] then [] else
    [("required", .array (required.map .string))]
  .object [("description", .string description),
    ("inputSchema", .object ([("properties", .object properties)] ++ requirement ++
      [("type", .string "object")])),
    ("name", .string name)]

/-- The schema of the Environment argument. -/
def environmentIdSchema : String × Value := ("environment_id", .object [("type", .string "string")])

/-- The schema of an integer argument. -/
def integerSchema (name : String) (default : Int) : String × Value :=
  (name, .object [("default", intValue default), ("type", .string "integer")])

/-- The result of `tools/list` (`mcp.rs:54–62`). -/
def toolsListResult : Value :=
  .object [("tools", .array [
    toolEntry "environments_list" "List monitored Environments with platform and health." [] [],
    toolEntry "health_get" "Rolled-up health plus per-Signal votes for one Environment."
      [environmentIdSchema] ["environment_id"],
    toolEntry "signals_get"
      "Latest snapshot per Signal for one Environment (states plus redacted drill-in rows, never raw payloads or URLs)."
      [environmentIdSchema] ["environment_id"],
    toolEntry "events_recent"
      "Recent health and Signal transitions for one Environment, newest first."
      [environmentIdSchema, integerSchema "limit" 20] ["environment_id"],
    toolEntry "digest_week"
      "Markdown week-in-review for one Environment: transitions, builds, current states."
      [integerSchema "days" 7, environmentIdSchema] ["environment_id"]])]

/-- The reply to a method; `fail` and `reply` keep the id (`mcp.rs:48–76`). -/
def dispatch (server : Server) (world : World) (message id : Value) (method : String) : Value :=
  match method with
  | "initialize" => resultReply id initializeResult
  | "tools/list" => resultReply id toolsListResult
  | "tools/call" =>
    let params := (message.get "params").getD .null
    let name := ((params.get "name").bind Value.asStr).getD ""
    let args := (params.get "arguments").getD .null
    match callTool server.fromStr server.toPretty server.environmentsPath world name args with
    | .ok text => resultReply id
        (.object [("content", .array [.object [("text", .string text), ("type", .string "text")]])])
    | .error error => errorReply id (-32602) error
  | _ => errorReply id (-32601) s!"unknown method {method}"

/-- `handle_message` (`mcp.rs:30–77`). -/
def handleMessage (server : Server) (world : World) (message : Value) : Option Value := do
  let id := message.get "id"
  let method ← (← message.get "method").asStr
  id.map fun id ↦ dispatch server world message id method

/-- The reply to a line that is no JSON (`mcp.rs:390–393`). -/
def parseErrorReply : Value := errorReply .null (-32700) "parse error"

/-- A line without the carriage return `BufRead::lines` strips. -/
def dropCr (line : List UInt8) : List UInt8 :=
  if line.getLast? = some 13 then line.dropLast else line

/-- The lines of the input, the first of them begun already. `BufRead::lines` strips the line
ends and hands on a last line without one. -/
def inputLines : List UInt8 → List UInt8 → List (List UInt8)
  | [], [] => []
  | line, [] => [line]
  | line, byte :: bytes =>
    if byte = 10 then dropCr line :: inputLines [] bytes else inputLines (line ++ [byte]) bytes

/-- The text of a line; `BufRead::lines` fails on bytes that are no UTF-8. -/
def lineText (line : List UInt8) : Option String := String.fromUTF8? line.toByteArray

/-- The reply to a line's text, if there is one (`mcp.rs:385–394`). -/
def replyTo (server : Server) (world : World) (text : String) : Option Value :=
  if trim text = "" then none
  else
    match server.fromStr text with
    | some message => handleMessage server world message
    | none => some parseErrorReply

/-- How the loop ends: at the end of the input, at a line it cannot decode, or with a reply it
cannot write. The last two are errors. -/
inductive Ended where
  | eof
  | undecodable
  | unwritable
  deriving DecidableEq, Repr

/-- What the loop leaves behind: the replies written, the lines not read, and why it ended. -/
structure Outcome where
  replies : List Value
  unread : List (List UInt8)
  ended : Ended

/-- `run_lines` after some replies (`mcp.rs:384–399`). The line read next finds the world
`worlds 0`; the `n`-th reply of all can be written if `accepts n`. -/
def runLines (server : Server) (accepts : Nat → Bool) :
    (Nat → World) → List Value → List (List UInt8) → Outcome
  | _, replies, [] => ⟨replies, [], .eof⟩
  | worlds, replies, line :: lines =>
    match lineText line with
    | none => ⟨replies, lines, .undecodable⟩
    | some text =>
      match replyTo server (worlds 0) text with
      | none => runLines server accepts (fun n ↦ worlds (n + 1)) replies lines
      | some reply =>
        if accepts replies.length then
          runLines server accepts (fun n ↦ worlds (n + 1)) (replies ++ [reply]) lines
        else ⟨replies, lines, .unwritable⟩

/-- `run_stdio` on an input (`mcp.rs:374–381`). -/
def runStdio (server : Server) (accepts : Nat → Bool) (worlds : Nat → World)
    (input : List UInt8) : Outcome :=
  runLines server accepts worlds [] (inputLines [] input)

/-- A dispatched reply carries the id. -/
theorem get_id_dispatch (server : Server) (world : World) (message id : Value) (method : String) :
    (dispatch server world message id method).get "id" = some id := by
  unfold dispatch
  split
  · rfl
  · rfl
  · dsimp only
    split <;> rfl
  · rfl

/-- Whatever a message is answered with carries its id. -/
theorem get_id_of_handleMessage {server : Server} {world : World} {message reply : Value}
    (h : handleMessage server world message = some reply) :
    (message.get "id").isSome ∧ reply.get "id" = message.get "id" := by
  simp only [handleMessage, Option.bind_eq_bind, Option.bind_eq_some_iff,
    Option.map_eq_some_iff] at h
  obtain ⟨value, _, method, _, id, hid, rfl⟩ := h
  rw [hid, get_id_dispatch]
  exact ⟨rfl, rfl⟩

/-- A message goes without a reply if it has no id, or no text as its method. -/
theorem handleMessage_eq_none {server : Server} {world : World} {message : Value} :
    handleMessage server world message = none ↔
      message.get "id" = none ∨ (message.get "method").bind Value.asStr = none := by
  rw [handleMessage]
  cases hid : message.get "id" with
  | none => cases hmethod : message.get "method" <;> simp
  | some id =>
    cases hmethod : message.get "method" with
    | none => simp
    | some value => cases hstr : value.asStr <;> simp [hstr]

/-- A line begun goes on to its newline. -/
theorem inputLines_append_of_not_mem {line : List UInt8} (h : 10 ∉ line)
    (begun rest : List UInt8) :
    inputLines begun (line ++ 10 :: rest) = dropCr (begun ++ line) :: inputLines [] rest := by
  induction line generalizing begun with
  | nil =>
    rw [List.nil_append, List.append_nil, inputLines.eq_def]
    cases begun <;> rfl
  | cons byte line ih =>
    have hbyte : byte ≠ 10 := fun heq ↦ h (heq ▸ List.mem_cons_self)
    have hline : 10 ∉ line := fun hmem ↦ h (List.mem_cons_of_mem _ hmem)
    have hstep : inputLines begun (byte :: (line ++ 10 :: rest)) =
        inputLines (begun ++ [byte]) (line ++ 10 :: rest) := by
      rw [inputLines.eq_def]
      cases begun <;> exact if_neg hbyte
    rw [List.cons_append, hstep, ih hline, List.append_assoc, List.singleton_append]

/-- Lines that are ended by a newline each are the lines of the input. -/
theorem inputLines_of_lines (lines : List (List UInt8)) (h : ∀ line ∈ lines, 10 ∉ line) :
    inputLines [] (lines.flatMap (· ++ [10])) = lines.map dropCr := by
  induction lines with
  | nil => rfl
  | cons line lines ih =>
    rw [List.flatMap_cons, List.append_assoc, List.singleton_append,
      inputLines_append_of_not_mem (h line List.mem_cons_self), List.nil_append, List.map_cons,
      ih fun l hl ↦ h l (List.mem_cons_of_mem _ hl)]

end Daku.Readers
