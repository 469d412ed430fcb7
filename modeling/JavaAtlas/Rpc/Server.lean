import JavaAtlas.Dispatch
import JavaAtlas.Rpc.Message
import JavaAtlas.Text.Blank

set_option autoImplicit false

/-! # The server

The server answers one request for each line of its input. Calls of tools run side by side and are
answered in the order in which they finish; everything else is answered in the order of the input.
When the input ends, the calls in flight are finished and the session is closed. -/

namespace JavaAtlas.Rpc

/-! ## Statistics -/

/-- The counts of a server. -/
structure Stats where
  totalRequests : Nat := 0
  toolCalls : Nat := 0
  errors : Nat := 0
  toolCallCounts : Dict String Nat := .empty
deriving Inhabited

namespace Stats

/-- Counts a request. -/
def countRequest (stats : Stats) : Stats :=
  { stats with totalRequests := stats.totalRequests + 1 }

/-- Counts a call of a tool. -/
def countCall (stats : Stats) (name : String) : Stats :=
  { stats with
    toolCalls := stats.toolCalls + 1
    toolCallCounts := stats.toolCallCounts.alter name fun count => count.getD 0 + 1 }

/-- Counts a response, if it carries an error. -/
def countResponse (stats : Stats) (response : Response) : Stats :=
  if response.isError then { stats with errors := stats.errors + 1 } else stats

/-- The counts as a value; the counts of the tools are in the order of their names. -/
def toJson (stats : Stats) : Json :=
  let counts := sortByText Prod.fst stats.toolCallCounts.entries
  .object [
    ("total_requests", .int stats.totalRequests),
    ("tool_calls", .int stats.toolCalls),
    ("errors", .int stats.errors),
    ("tool_call_counts", .object (counts.map fun (name, count) => (name, .int count)))]

end Stats

/-! ## Requests -/

/-- A server: the operations, the session and the files that they work on, and the counts. -/
structure Server where
  registry : Registry
  session : Session
  files : FileSystem
  stats : Stats := {}

/-- The version of the protocol that the server speaks. -/
def protocolVersion : String := "2024-11-05"

/-- The name under which the server presents itself. -/
def serverName : String := "cocoa"

/-- The version of the program. -/
def programVersion : String := "0.3.0"

/-- The answer to the first request of a client. -/
def greeting : Json := .object [
  ("protocolVersion", .string protocolVersion),
  ("capabilities", .object [("tools", .object [])]),
  ("serverInfo", .object [
    ("name", .string serverName),
    ("version", .string programVersion)])]

/-- The value that a tool answered as content for the client: its text, and an object also as it
is. -/
def toolResult (value : Json) : Json :=
  let text := match value with
    | .string s => s
    | value => value.compact
  let content := ("content", .array [.object [("type", .string "text"), ("text", .string text)]])
  .object (if value.isObject then [content, ("structuredContent", value)] else [content])

namespace Server

/-- The listing of all operations. -/
def listing (server : Server) : Json :=
  .object [("tools", WriteJson.write (server.registry.list.map ToolDefinition.ofDescriptor))]

/-- The name of the tool that a call asks for, or what is wrong with the call. -/
def calledTool (params : Option Json) : Except String (String × List (String × Json)) :=
  match params with
  | some (.object members) =>
    match (Assoc.find? "name" members).bind Json.asString? with
    | some name => .ok (name, members)
    | none => .error "missing 'name' in tools/call params"
  | _ => .error "missing params for tools/call"

/-- What a call of a tool answers. -/
def callTool (server : Server) (name : String) (members : List (String × Json)) :
    Except Failure Json := do
  let raw ← Arguments.members name (Assoc.find? "arguments" members)
  server.registry.invoke server.session server.files name raw

/-- The response to a call of a tool. -/
def callResponse (server : Server) (id : Json) (params : Option Json) : Response :=
  match calledTool params with
  | .error problem => .protocolError id .invalidParams problem
  | .ok (name, members) =>
    match server.callTool name members with
    | .ok value => .success id (toolResult value)
    | .error failure => .failure id failure

/-- The counts after a call of a tool. -/
def countCall (stats : Stats) (params : Option Json) : Stats :=
  match calledTool params with
  | .error _ => stats
  | .ok (name, _) => stats.countCall name

/-- The method that calls a tool. -/
def callMethod : String := "tools/call"

/-- The response to a request; none for a notification. -/
def respond (server : Server) (request : Request) : Option Response :=
  if request.method = "initialize" then some (.success request.id greeting)
  else if request.method = "initialized" then none
  else if request.isNotification then none
  else if request.method = "tools/list" then some (.success request.id server.listing)
  else if request.method = callMethod then some (server.callResponse request.id request.params)
  else if request.method = "ping" then some (.success request.id (.object []))
  else some (.protocolError request.id .methodNotFound ("method not found: " ++ request.method))

/-- Handles one request outside of a stream of lines. -/
def handle (server : Server) (request : Request) : Option Response × Server :=
  let stats :=
    if request.method = callMethod then countCall server.stats request.params else server.stats
  (server.respond request, { server with stats := stats })

/-! ## Lines -/

/-- What a line of the input asks for. -/
inductive Line where
  | blank
  | unreadable (error : Json.ReadError)
  | call (id : Json) (params : Option Json)
  | request (request : Request)

/-- Reads a line, without the blanks at its ends. -/
def readLine (line : String) : Line :=
  let line := Text.trim line
  if line.isEmpty then .blank
  else match (Json.readText line : Except Json.ReadError Request) with
    | .error error => .unreadable error
    | .ok request =>
      if request.method = callMethod then .call request.id request.params else .request request

/-- A response, with the mark of a call that runs beside the other requests. -/
structure Reply where
  response : Response
  isCall : Bool

/-- The response to a line that cannot be read as a request. -/
def unreadableResponse (error : Json.ReadError) : Response :=
  .protocolError .null .parseError ("failed to parse JSON-RPC request: " ++ error.message)

/-- The reply to a line, if it gets one. -/
def reply (server : Server) : Line → Option Reply
  | .blank => none
  | .unreadable error => some ⟨unreadableResponse error, false⟩
  | .call id params => some ⟨server.callResponse id params, true⟩
  | .request request => (server.respond request).map fun response => ⟨response, false⟩

/-- The counts after a line and its reply. -/
def countLine (stats : Stats) (line : Line) (reply : Option Reply) : Stats :=
  let stats := match line with
    | .blank => stats
    | .call _ params => countCall stats.countRequest params
    | _ => stats.countRequest
  match reply with
  | some reply => stats.countResponse reply.response
  | none => stats

/-- Handles one line. -/
def handleLine (server : Server) (line : String) : Option Reply × Server :=
  let line := readLine line
  let reply := server.reply line
  (reply, { server with stats := countLine server.stats line reply })

/-- The replies to lines, in the order of the lines, and the server when its input has ended. -/
def serve (server : Server) : List String → List Reply × Server
  | [] => ([], { server with session := server.session.close })
  | line :: lines =>
    let (reply, server) := server.handleLine line
    let (replies, server) := server.serve lines
    (reply.toList ++ replies, server)

/-! ## Bytes -/

/-- The lines of an input: each ends with a line feed, which the last one may lack. -/
def splitLines : List UInt8 → List (List UInt8)
  | [] => []
  | b :: rest =>
    if b = 0x0A then [] :: splitLines rest
    else match splitLines rest, rest with
      | line :: lines, _ :: _ => (b :: line) :: lines
      | lines, _ => [b] :: lines

/-- The text of the lines up to the first one that is not well-formed. -/
def textLines (lines : List (List UInt8)) : List String :=
  (lines.map Utf8.toString?).takeWhile Option.isSome |>.filterMap id

/-- The replies to an input. -/
def serveBytes (server : Server) (input : List UInt8) : List Reply × Server :=
  server.serve (textLines (splitLines input))

end Server

end JavaAtlas.Rpc
