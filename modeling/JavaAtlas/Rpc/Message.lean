import JavaAtlas.Failure
import JavaAtlas.Operation.Parameter

set_option autoImplicit false

/-! # Messages of the remote protocol

Requests and responses of JSON-RPC 2.0. A response carries a result or an error; the error of a
failed operation names the kind of the failure, so that a client need not read its text. -/

namespace JavaAtlas.Rpc

/-! ## Requests -/

/-- A request. Without an identifier, or with `null` for one, it is `null`. -/
structure Request where
  jsonrpc : String := ""
  id : Json := .null
  method : String := ""
  params : Option Json := none
deriving Inhabited

instance : Record Request where
  schema := {
    title := "JsonRpcRequest"
    blank := {}
    members := [
      .of "jsonrpc" (·.jsonrpc) (fun v r => { r with jsonrpc := v }) .required,
      .of "id" (·.id) (fun v r => { r with id := v }),
      .of "method" (·.method) (fun v r => { r with method := v }) .required,
      .of "params" (·.params) (fun v r => { r with params := v })]
  }

/-- Whether the request asks for no response. -/
def Request.isNotification (request : Request) : Bool :=
  request.id.isNull && "notifications/".toList.isPrefixOf request.method.toList

/-! ## Responses -/

/-- The error of a response. -/
structure ResponseError where
  code : Int32 := 0
  message : String := ""
  data : Option Json := none
deriving Inhabited

instance : Record ResponseError where
  schema := {
    title := "JsonRpcError"
    blank := {}
    members := [
      .of "code" (·.code) (fun v r => { r with code := v }) .required,
      .of "message" (·.message) (fun v r => { r with message := v }) .required,
      .ifPresent "data" (·.data) (fun v r => { r with data := v })]
  }

/-- A response. -/
structure Response where
  jsonrpc : String := "2.0"
  id : Json := .null
  result : Option Json := none
  error : Option ResponseError := none
deriving Inhabited

instance : Record Response where
  schema := {
    title := "JsonRpcResponse"
    blank := {}
    members := [
      .of "jsonrpc" (·.jsonrpc) (fun v r => { r with jsonrpc := v }) .required,
      .of "id" (·.id) (fun v r => { r with id := v }) .required,
      .ifPresent "result" (·.result) (fun v r => { r with result := v }),
      .ifPresent "error" (·.error) (fun v r => { r with error := v })]
  }

/-- The kinds of errors that the protocol knows. -/
inductive ErrorCode where
  | parseError
  | invalidRequest
  | methodNotFound
  | invalidParams
  | internalError
  | serverError
deriving DecidableEq, Repr

namespace ErrorCode

/-- The number of the code. -/
def number : ErrorCode → Int32
  | parseError => -32700
  | invalidRequest => -32600
  | methodNotFound => -32601
  | invalidParams => -32602
  | internalError => -32603
  | serverError => -32000

/-- The code for a kind of failure: faults of the request are told apart from faults of the
operation and of the program. -/
def ofFailure : FailureKind → ErrorCode
  | .unknownOperation | .invalidArguments => invalidParams
  | .internal => internalError
  | _ => serverError

end ErrorCode

namespace Response

/-- The response with a result. -/
def success (id result : Json) : Response := { id := id, result := some result }

/-- The response with an error of the protocol. -/
def protocolError (id : Json) (code : ErrorCode) (message : String) : Response :=
  { id := id, error := some { code := code.number, message := message } }

/-- The response to an operation that failed. -/
def failure (id : Json) (failure : Failure) : Response :=
  { id := id
    error := some {
      code := (ErrorCode.ofFailure failure.kind).number
      message := failure.message
      data := some (.object [("kind", .string failure.kind.name)]) } }

/-- Whether the response carries an error. -/
def isError (response : Response) : Bool := response.error.isSome

/-- The text of the response. -/
def text (response : Response) : String := (WriteJson.write response).compact

end Response

/-! ## Tools -/

/-- An operation as the protocol lists it. -/
structure ToolDefinition where
  name : String := ""
  description : String := ""
  inputSchema : Json := .null
deriving Inhabited

instance : Record ToolDefinition where
  schema := {
    title := "ToolDefinition"
    blank := {}
    members := [
      .of "name" (·.name) (fun v r => { r with name := v }) .required,
      .of "description" (·.description) (fun v r => { r with description := v }) .required,
      .of "inputSchema" (·.inputSchema) (fun v r => { r with inputSchema := v }) .required]
  }

/-- The listing of a descriptor. -/
def ToolDefinition.ofDescriptor (d : Descriptor) : ToolDefinition where
  name := d.name
  description := d.description
  inputSchema := d.inputSchema

end JavaAtlas.Rpc
