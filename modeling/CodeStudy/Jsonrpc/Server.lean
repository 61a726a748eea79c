import CodeStudy.Jsonrpc.Json

/-!
# The JSON-RPC server

`dispatcher.hpp` and `server.hpp`. Handlers may keep a state `σ` and are any
functions of it; what they throw is a value. Reading a vector past its end and
converting a double out of range are undefined, and the result is then `none`.
-/

namespace CodeStudy.Jsonrpc

/-- `MethodHandle` and `NotificationHandle`. -/
abbrev Handle (σ α : Type) := Json → σ → Except Thrown α × σ

structure Dispatcher (σ : Type) where
  methods : String → Option (Handle σ Json)
  notifications : String → Option (Handle σ Unit)
  /-- An empty mapping is not stored. -/
  mapping : String → Option { names : List String // names ≠ [] }

/-- What `HandleRequest` ends with: the dump of a value or nothing. -/
inductive Reply where
  | dump (v : Json)
  | empty

/-- The string that `HandleRequest` returns. It catches only a `parse_error`, so
that what `dump` throws is thrown on. -/
def Reply.text (lib : Library) : Reply → Except Thrown String
  | .dump v => lib.dump v
  | .empty => .ok ""

namespace Dispatcher

variable {σ : Type}

def initial : Dispatcher σ := ⟨fun _ => none, fun _ => none, fun _ => none⟩

def contains (d : Dispatcher σ) (name : String) : Bool :=
  (d.methods name).isSome || (d.notifications name).isSome

def mappingWith (d : Dispatcher σ) (name : String) (names : List String) :
    String → Option { names : List String // names ≠ [] } :=
  if h : names ≠ [] then Function.update d.mapping name (some ⟨names, h⟩) else d.mapping

/-- `JsonRpcServer::Add` of a method. -/
def addMethod (d : Dispatcher σ) (name : String) (callback : Handle σ Json)
    (names : List String) : Bool × Dispatcher σ :=
  if name.startsWith "rpc." || d.contains name then (false, d)
  else
    (true,
      { d with
        methods := Function.update d.methods name (some callback)
        mapping := d.mappingWith name names })

/-- `JsonRpcServer::Add` of a notification. -/
def addNotification (d : Dispatcher σ) (name : String) (callback : Handle σ Unit)
    (names : List String) : Bool × Dispatcher σ :=
  if name.startsWith "rpc." || d.contains name then (false, d)
  else
    (true,
      { d with
        notifications := Function.update d.notifications name (some callback)
        mapping := d.mappingWith name names })

def processTypeError (lib : Library) (d : Dispatcher σ) (name : String) (e : JsonRpcException) :
    Option (Except Thrown JsonRpcException) :=
  if e.code = -32602 ∧ e.data.empty = false then
    (e.data.getUnsigned lib).bind fun converted =>
      match converted with
      | .error t => some (.error t)
      | .ok index =>
        match d.mapping name with
        | some names =>
          (names.val[index.toNat]?).map fun parameter =>
            .ok ⟨e.code, e.message ++ " for parameter " ++ "\"" ++ parameter ++ "\"", .null⟩
        | none => some (.ok ⟨e.code, e.message ++ " for parameter " ++ toString index, .null⟩)
  else some (.ok e)

def namedParameter (params : Json) (p : String) : Except Thrown Json :=
  match params.find p with
  | some value => .ok value
  | none =>
    .error (.rpc ⟨invalidParams, "invalid parameter: missing named parameter \"" ++ p ++ "\"", .null⟩)

def normalizeParameter (d : Dispatcher σ) (name : String) (params : Json) :
    Except Thrown Json :=
  match params with
  | .array _ => .ok params
  | .object _ =>
    match d.mapping name with
    | none =>
      .error (.rpc ⟨invalidParams,
        "invalid parameter: procedure doesn't support named parameter", .null⟩)
    | some names => (names.val.mapM (namedParameter params)).map .array
  | _ =>
    .error (.rpc ⟨invalidRequest, "invalid request: params field must be an array, object", .null⟩)

/-- What the two `catch` clauses make of an exception; an exception thrown
inside the second takes the place of the first. -/
def rethrow (lib : Library) (d : Dispatcher σ) (name : String) : Thrown → Option Thrown
  | .typeError what => some (.rpc ⟨invalidParams, "invalid parameter: " ++ what, .null⟩)
  | .rpc e =>
    (d.processTypeError lib name e).map fun processed =>
      match processed with
      | .ok e' => .rpc e'
      | .error t => t
  | .std what => some (.std what)
  | .other => some .other

/-- The common body of `InvokeMethod` and `InvokeNotification`. -/
def invoke {α : Type} (lib : Library) (d : Dispatcher σ) (handle : Option (Handle σ α))
    (missing name : String) (params : Json) (s : σ) : Option (Except Thrown α × σ) :=
  match handle with
  | none => some (.error (.rpc ⟨methodNotFound, missing ++ name, .null⟩), s)
  | some handle =>
    match d.normalizeParameter name params with
    | .error t => (d.rethrow lib name t).map fun t' => (.error t', s)
    | .ok positional =>
      match handle positional s with
      | (.ok v, s') => some (.ok v, s')
      | (.error t, s') => (d.rethrow lib name t).map fun t' => (.error t', s')

def invokeMethod (lib : Library) (d : Dispatcher σ) (name : String) (params : Json) (s : σ) :
    Option (Except Thrown Json × σ) :=
  d.invoke lib (d.methods name) "method not found: " name params s

def invokeNotification (lib : Library) (d : Dispatcher σ) (name : String) (params : Json) (s : σ) :
    Option (Except Thrown Unit × σ) :=
  d.invoke lib (d.notifications name) "notification not found: " name params s

end Dispatcher

/-! ### `JsonRpc2Server` -/

/-- The checks at the head of `ProcessSingleRequest`: the message of the first
that fails, or else the method's name. -/
def checkRequest (request : Json) : Except String String :=
  match request.find "jsonrpc" with
  | some (.string "2.0") =>
    match request.find "method" with
    | some (.string method) =>
      if (request.find "id").isSome && !validId request then
        .error "invalid request: id field must be a number, string or null"
      else
        match request.find "params" with
        | none | some (.array _) | some (.object _) | some .null => .ok method
        | some _ => .error "invalid request: params field must be an array, object or null"
    | _ => .error "invalid request: method field must be a string"
  | _ => .error "invalid request: missing jsonrpc field set to \"2.0\""

/-- The parameters of a request, an empty array if there are none. -/
def requestParams (request : Json) : Json :=
  match request.find "params" with
  | none | some .null => .array []
  | some params => params

def resultResponse (id result : Json) : Json :=
  .ofEntries [("jsonrpc", .string "2.0"), ("id", id), ("result", result)]

def errorResponse (id error : Json) : Json :=
  .ofEntries [("id", id), ("error", error), ("jsonrpc", .string "2.0")]

def errorObject (code : Int32) (message : String) : Json :=
  .ofEntries [("code", .int code.toInt), ("message", .string message)]

/-- The error object that `HandleSingleRequest` makes of an exception. -/
def Thrown.toError : Thrown → Json
  | .rpc e =>
    if e.data.isNull then errorObject e.code e.message
    else (errorObject e.code e.message).set "data" e.data
  | .typeError what | .std what => errorObject internalError ("internal server error: " ++ what)
  | .other => errorObject internalError "internal server error"

/-- The id that the response to a request carries. -/
def responseId (request : Json) : Json :=
  if validId request then (request.find "id").getD .null else .null

namespace Dispatcher

variable {σ : Type}

def processSingleRequest (lib : Library) (d : Dispatcher σ) (request : Json) (s : σ) :
    Option (Except Thrown Json × σ) :=
  match checkRequest request with
  | .error message => some (.error (.rpc ⟨invalidRequest, message, .null⟩), s)
  | .ok method =>
    match request.find "id" with
    | none =>
      (d.invokeNotification lib method (requestParams request) s).map fun (outcome, s') =>
        match outcome with
        | .error .other => (.error .other, s')
        | _ => (.ok .null, s')
    | some id =>
      (d.invokeMethod lib method (requestParams request) s).map fun (outcome, s') =>
        (outcome.map (resultResponse id), s')

def handleSingleRequest (lib : Library) (d : Dispatcher σ) (request : Json) (s : σ) :
    Option (Json × σ) :=
  (d.processSingleRequest lib request s).map fun (outcome, s') =>
    match outcome with
    | .ok v => (v, s')
    | .error t => (errorResponse (responseId request) t.toError, s')

/-- The loop over the elements of a batch; a null result is left out. -/
def handleBatch (lib : Library) (d : Dispatcher σ) : List Json → σ → Option (List Json × σ)
  | [], s => some ([], s)
  | request :: requests, s =>
    (d.handleSingleRequest lib request s).bind fun (response, s₁) =>
      (d.handleBatch lib requests s₁).map fun (responses, s₂) =>
        (if response.isNull then responses else response :: responses, s₂)

/-- `HandleRequest` after the request string has been parsed. -/
def handleJson (lib : Library) (d : Dispatcher σ) (request : Json) (s : σ) :
    Option (Reply × σ) :=
  match request with
  | .array requests =>
    (d.handleBatch lib requests s).map fun (responses, s') => (.dump (.array responses), s')
  | .object _ =>
    (d.handleSingleRequest lib request s).map fun (response, s') =>
      (if response.isNull then .empty else .dump response, s')
  | _ =>
    some (.dump (errorResponse .null
      (errorObject invalidRequest "invalid request: expected array or object")), s)

def handleRequest (lib : Library) (d : Dispatcher σ) (text : String) (s : σ) :
    Option (Reply × σ) :=
  match lib.parse text with
  | .ok request => d.handleJson lib request s
  | .error what =>
    some (.dump (errorResponse .null (errorObject parseError ("parse error: " ++ what))), s)

end Dispatcher

end CodeStudy.Jsonrpc
