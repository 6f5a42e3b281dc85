import McpBridge.Core.Common
import McpBridge.Lib.Map
/-!
# JSON-RPC envelopes and the router (`core/jsonrpc.cpp`, `core/mcp_router.cpp`)

`parseRequest` reads an envelope, `makeResponse` and `makeError` write one, and
`makeDefaultRouter` is the table of the MCP methods. A handler returns a value,
returns nothing, or throws. The tools are a registry of functions.
-/

open McpBridge.Lib McpBridge.Core

namespace McpBridge.Server

/-! ## Envelopes -/

def kParseError : Int := -32700
def kInvalidRequest : Int := -32600
def kMethodNotFound : Int := -32601
def kInvalidParams : Int := -32602
def kInternalError : Int := -32603

structure Request where
  id : Json
  hasId : Bool
  method : Str
  params : Json

def Request.isNotification (rpc : Request) : Bool := !rpc.hasId

def makeResponse (id result : Json) : Json :=
  .ofFields [(lit "jsonrpc", .str (lit "2.0")), (lit "id", id), (lit "result", result)]

def makeError (id : Json) (code : Int) (message : Str) : Json :=
  .ofFields [(lit "jsonrpc", .str (lit "2.0")), (lit "id", id),
    (lit "error", .ofFields [(lit "code", .int code), (lit "message", .str message)])]

/-- The id of a request and whether it has one, or nothing where it has the wrong type. -/
def parseId (doc : Json) : Option (Json × Bool) :=
  match doc.get? (lit "id") with
  | none | some .null => some (.null, false)
  | some id => if id.isString || id.isNumber then some (id, true) else none

/-- The request in an envelope, or the error envelope to answer with. -/
def parseRequest (doc : Json) : Except Json Request :=
  if doc.isArray then .error (makeError .null kInvalidRequest (lit "batch requests are not supported"))
  else if !doc.isObject then .error (makeError .null kInvalidRequest (lit "request must be a JSON object"))
  else match doc.get? (lit "jsonrpc") with
    | some (.str v) =>
      if v ≠ lit "2.0" then .error (makeError .null kInvalidRequest (lit "jsonrpc must be \"2.0\""))
      else match doc.get? (lit "method") with
        | some (.str method) =>
          match parseId doc with
          | none => .error (makeError .null kInvalidRequest (lit "id must be a string or number"))
          | some (id, hasId) =>
            match doc.get? (lit "params") with
            | some p =>
              if !p.isObject && !p.isArray then
                .error (makeError id kInvalidRequest (lit "params must be an object or array"))
              else .ok ⟨id, hasId, method, p⟩
            | none => .ok ⟨id, hasId, method, .obj []⟩
        | _ => .error (makeError .null kInvalidRequest (lit "method must be a string"))
    | _ => .error (makeError .null kInvalidRequest (lit "jsonrpc must be \"2.0\""))

/-! ## Handlers -/

/-- What a handler does. An exception carries its `what()`. -/
inductive HandlerResult where
  | value (j : Json)
  | nothing
  | mcpError (code : Int) (what : Str)
  | exception (what : Str)

abbrev Handler := RequestContext → Json → HandlerResult

/-- The methods of a router. -/
abbrev McpRouter := Map Str Handler

def McpRouter.dispatch (r : McpRouter) (method : Str) (ctx : RequestContext) (params : Json) : HandlerResult :=
  match AList.lookup method r with
  | none => .mcpError kMethodNotFound (lit "method not found: " ++ method)
  | some h => h ctx params

structure ToolDef where
  description : Str
  required : List Str
  optional : List Str
  handler : RequestContext → Json → Except Str Json

abbrev ToolRegistry := Map Str ToolDef

/-- What a message reads as once it went through `what()`: it ends at a NUL. -/
def cstr (s : Str) : Str := s.takeWhile (· ≠ 0)

/-! ## The methods -/

/-- What the registry says about a tool, with a schema made from its argument names. -/
def ToolDef.toJson (d : ToolDef) : Json :=
  let properties := (d.required ++ d.optional).foldl (fun o a => Json.insertField a (.obj []) o) []
  .ofFields [(lit "description", .str d.description), (lit "required", .arr (d.required.map .str)),
    (lit "optional", .arr (d.optional.map .str)),
    (lit "inputSchema", .ofFields [(lit "type", .str (lit "object")), (lit "properties", .obj properties),
      (lit "required", .arr (d.required.map .str)), (lit "additionalProperties", .bool true)])]

def ToolRegistry.listAll (reg : ToolRegistry) : List (Str × Json) :=
  reg.entries.foldl (fun o e => Json.insertField e.1 e.2.toJson o) []

/-- `tools/list`. -/
def mcpToolsList (reg : ToolRegistry) : Except JsonError Json := do
  let arr ← reg.listAll.mapM fun kv => do
    let description ← kv.2.value Json.asStr (lit "description") []
    let schema ← kv.2.value .ok (lit "inputSchema")
      (.ofFields [(lit "type", .str (lit "object")), (lit "properties", .obj [])])
    .ok (Json.ofFields [(lit "name", .str kv.1), (lit "description", .str description), (lit "inputSchema", schema)])
  .ok (.ofFields [(lit "tools", .arr arr)])

/-- What a tool call answers: its text, and whether it is an error. -/
def toolAnswer (text : Str) (isError : Bool) : Json :=
  .ofFields [(lit "content", .arr [.ofFields [(lit "type", .str (lit "text")), (lit "text", .str text)]]),
    (lit "isError", .bool isError)]

/-- `tools/call`. What a tool throws, or what its result throws when it is
serialised, is answered as an error text. -/
def mcpToolsCall (J : JsonText) (reg : ToolRegistry) (ctx : RequestContext) (params : Json) : HandlerResult :=
  if !params.isObject then .mcpError kInvalidParams (lit "params must be an object")
  else match params.get? (lit "name") with
    | some (.str toolName) =>
      let args := (params.get? (lit "arguments")).getD (.obj [])
      if !args.isObject then .mcpError kInvalidParams (lit "params.arguments must be an object")
      else match AList.lookup toolName reg with
        | none => .mcpError kInvalidParams (lit "unknown tool: " ++ toolName)
        | some tool =>
          match tool.required.find? fun a => !args.contains a with
          | some a => .mcpError kInvalidParams (lit "missing required argument: " ++ a)
          | none =>
            match tool.handler ctx args with
            | .error what => .value (toolAnswer (lit "Error: " ++ cstr what) true)
            | .ok result =>
              match J.dump (some 2) result with
              | .error e => .value (toolAnswer (lit "Error: " ++ cstr e.what) true)
              | .ok text => .value (toolAnswer text false)
    | _ => .mcpError kInvalidParams (lit "params.name must be a string")

/-- `initialize`: the protocol version is the client's. -/
def initializeResult (params : Json) : Json :=
  let clientProto := match params.get? (lit "protocolVersion") with
    | some (.str v) => v
    | _ => lit "2025-03-26"
  .ofFields [(lit "protocolVersion", .str clientProto),
    (lit "capabilities", .ofFields [(lit "tools", .obj [])]),
    (lit "serverInfo", .ofFields [(lit "name", .str (lit "mcp_bridge")), (lit "version", .str (lit "2.0.0"))])]

def makeDefaultRouter (J : JsonText) (reg : ToolRegistry) : McpRouter :=
  (((((((∅ : McpRouter).insert (lit "initialize") fun _ params => .value (initializeResult params)).insert
    (lit "notifications/initialized") fun _ _ => .nothing).insert
    (lit "ping") fun _ _ => .value (.obj [])).insert
    (lit "shutdown") fun _ _ => .value (.obj [])).insert
    (lit "tools/list") fun _ _ => match mcpToolsList reg with
      | .ok j => .value j
      | .error e => .exception e.what).insert
    (lit "tools/call") fun ctx params => mcpToolsCall J reg ctx params)

end McpBridge.Server
