import McpBridge.Server.Session
import McpBridge.Server.Router
/-!
# The HTTP endpoints (`core/auth.cpp`, `core/server.cpp`)

`Srv` is what the handlers share: the configuration, the index of users, the
rate limiter, the sessions, and the flag a SIGHUP sets. A request is answered
in one step. The environment of a request gives what the clock reads, the UUID
a new session gets, and what a reload would find on disk; the salted hash is
the parameter `hash`.

`history` records what happened to the sessions, newest first. The handlers
never read it.
-/

open McpBridge.Lib McpBridge.Core

namespace McpBridge.Server

structure UserRecord where
  userId : Str
  osUsername : Str
  name : Str
  email : Str
  isAdmin : Bool
  tokenHash : Str
  createdAt : Int64
deriving DecidableEq

structure Config where
  allowedIps : List Str
  globalTokenSalt : Str
  adminTokenHash : Str

inductive SessionEvent where
  | issued (id bearerHash : Str) (at_ : Int)
  | used (id : Str) (at_ : Int)
  | invalidated (id : Str)
deriving DecidableEq

structure Srv where
  config : Config
  byHash : Map Str UserRecord
  rateLimiter : RateLimiter
  sessions : SessionStore
  reloadUsers : Bool
  history : List SessionEvent

/-- What a reload reads: the users, or what reading them threw, and the
configuration where it could be loaded. -/
structure Disk where
  users : Except Str (Map Str UserRecord)
  config : Option Config

structure HttpRequest where
  remoteAddr : Str
  authorization : Str
  sessionHeader : Str
  body : Str

/-- What a request meets: the clock at the rate limiter and at the session
store, the next UUID, and the disk. -/
structure Env where
  rateNow : Int
  now : Int
  uuid : Str
  disk : Disk

structure Response where
  status : Nat
  sessionHeader : Option Str
  content : Option Str

/-- How a handler ends: with a response, by reading an empty optional, or with
an exception that leaves it. -/
inductive Outcome where
  | response (r : Response)
  | undefined
  | escaped (what : Str)

/-! ## Authentication -/

/-- The token of an `Authorization: Bearer …` header. -/
def extractBearer (authHeader : Str) : Option Str :=
  if authHeader.length ≤ (lit "Bearer ").length then none
  else if !(lit "Bearer ").isPrefixOf authHeader then none
  else
    let token := authHeader.drop (lit "Bearer ").length
    if token = [] then none else some token

/-- The identity of a bearer: its user record, or the install admin. -/
def authResolve (hash : Str → Str → Str) (authHeader globalSalt adminTokenHash : Str) (users : Map Str UserRecord)
    (clientIp : Str) : Option RequestContext :=
  (extractBearer authHeader).bind fun token =>
    let computed := hash globalSalt token
    match users.lookup computed with
    | some user =>
      some { userId := user.userId, osUsername := user.osUsername, isAdmin := user.isAdmin,
             bearerHash := computed, clientIp := clientIp }
    | none =>
      if adminTokenHash ≠ [] ∧ constantTimeEqual computed adminTokenHash then
        some { userId := lit "admin", osUsername := lit "mcp_user_mcpadmin", isAdmin := true,
               bearerHash := computed, clientIp := clientIp }
      else none

def isIpAllowed (ip : Str) (allowed : List Str) : Bool := allowed = [] || allowed.contains ip

/-! ## Shared state -/

namespace Srv

/-- Takes a pending reload. The flag is cleared before anything is read. -/
def handleReload (s : Srv) (disk : Disk) : Except Str Unit × Srv :=
  if !s.reloadUsers then (.ok (), s)
  else match disk.users with
    | .error what => (.error what, { s with reloadUsers := false })
    | .ok users =>
      (.ok (), { s with reloadUsers := false, byHash := users, config := disk.config.getD s.config })

def issue (s : Srv) (id bearerHash userId : Str) (now : Int) : Srv :=
  { s with
    sessions := (s.sessions.issue id bearerHash userId now).2
    history := .issued id bearerHash now :: s.history }

def validate (s : Srv) (id bearerHash : Str) (now : Int) : Option Session × Srv :=
  match s.sessions.validate id bearerHash now with
  | (none, sessions) => (none, { s with sessions })
  | (some sess, sessions) => (some sess, { s with sessions, history := .used id now :: s.history })

def invalidate (s : Srv) (id : Str) : Srv :=
  { s with sessions := s.sessions.invalidate id, history := .invalidated id :: s.history }

end Srv

/-! ## POST / -/

section Post
variable (J : JsonText) (hash : Str → Str → Str) (router : McpRouter)

def plain (status : Nat) (text : String) : Outcome := .response ⟨status, none, some (lit text)⟩

/-- Answers with an envelope; serialising it may throw. -/
def send (status : Nat) (header : Option Str) (j : Json) : Outcome :=
  match J.dump none j with
  | .ok text => .response ⟨status, header, some text⟩
  | .error e => .escaped e.what

/-- The session of a request: `initialize` opens one, every other method needs
one. Otherwise the status and the envelope to answer with. -/
def openSession (env : Env) (sessHdr : Str) (ctx : RequestContext) (rpc : Request) (s : Srv) :
    Except (Nat × Json) (RequestContext × Option Str) × Srv :=
  if rpc.method = lit "initialize" then
    let s := if sessHdr ≠ [] then s.invalidate sessHdr else s
    (.ok ({ ctx with sessionId := env.uuid }, some env.uuid), s.issue env.uuid ctx.bearerHash ctx.userId env.now)
  else if sessHdr = [] then
    (.error (400, makeError rpc.id kInvalidRequest (lit "missing Mcp-Session-Id; call initialize first")), s)
  else match s.validate sessHdr ctx.bearerHash env.now with
    | (none, s) =>
      (.error (401, makeError rpc.id kInvalidRequest (lit "session unknown or bound to a different bearer")), s)
    | (some sess, s) => (.ok ({ ctx with sessionId := sess.id }, none), s)

/-- The reply to what the handler did. -/
def reply (rpc : Request) (header : Option Str) (r : HandlerResult) : Outcome :=
  match r with
  | .mcpError code what =>
    if rpc.isNotification then .response ⟨204, header, none⟩
    else send J (if code = kMethodNotFound then 404 else 400) header (makeError rpc.id code (cstr what))
  | .exception what =>
    if rpc.isNotification then .response ⟨204, header, none⟩
    else send J 500 header (makeError rpc.id kInternalError (cstr what))
  | .value result =>
    if rpc.isNotification then .response ⟨204, header, none⟩
    else send J 200 header (makeResponse rpc.id result)
  | .nothing =>
    -- `*result` on an empty optional
    if rpc.isNotification then .response ⟨204, header, none⟩ else .undefined

/-- The sessions after a handler returned: `shutdown` closes its own. -/
def afterDispatch (rpc : Request) (ctx : RequestContext) (r : HandlerResult) (s : Srv) : Srv :=
  match r with
  | .value _ | .nothing => if rpc.method = lit "shutdown" then s.invalidate ctx.sessionId else s
  | _ => s

/-- What a request leads to: how it ends, the call of `router_.dispatch` if
there was one, and the state afterwards. -/
structure Served where
  outcome : Outcome
  dispatched : Option (RequestContext × Request)
  srv : Srv

/-- The POST handler, once a pending reload is done. -/
def servePost (env : Env) (req : HttpRequest) (s : Srv) : Served :=
  if !isIpAllowed req.remoteAddr s.config.allowedIps then ⟨plain 403 "Forbidden\n", none, s⟩
  else
    match authResolve hash req.authorization s.config.globalTokenSalt s.config.adminTokenHash s.byHash req.remoteAddr with
    | none => ⟨plain 401 "Unauthorized\n", none, s⟩
    | some ctx =>
      let (ok, rateLimiter) := s.rateLimiter.allow ctx.userId env.rateNow
      let s := { s with rateLimiter }
      if !ok then ⟨plain 429 "Rate limit exceeded\n", none, s⟩
      else match J.parse req.body with
        | none => ⟨send J 400 none (makeError .null kParseError (lit "invalid JSON body")), none, s⟩
        | some body =>
          match parseRequest body with
          | .error envErr => ⟨send J 400 none envErr, none, s⟩
          | .ok rpc =>
            match openSession env req.sessionHeader ctx rpc s with
            | (.error (status, err), s) => ⟨send J status none err, none, s⟩
            | (.ok (ctx, header), s) =>
              let r := router.dispatch rpc.method ctx rpc.params
              ⟨reply J rpc header r, some (ctx, rpc), afterDispatch rpc ctx r s⟩

def post (env : Env) (req : HttpRequest) (s : Srv) : Served :=
  match s.handleReload env.disk with
  | (.error what, s) => ⟨.escaped what, none, s⟩
  | (.ok (), s) => servePost J hash router env req s

/-- The GET handler, up to the stream it opens. -/
def get (env : Env) (req : HttpRequest) (s : Srv) : Outcome × Srv :=
  match s.handleReload env.disk with
  | (.error what, s) => (.escaped what, s)
  | (.ok (), s) =>
    if !isIpAllowed req.remoteAddr s.config.allowedIps then (plain 403 "Forbidden\n", s)
    else match authResolve hash req.authorization s.config.globalTokenSalt s.config.adminTokenHash s.byHash req.remoteAddr with
      | none => (plain 401 "Unauthorized\n", s)
      | some ctx =>
        if req.sessionHeader = [] then (plain 401 "session required (call initialize first)\n", s)
        else match s.validate req.sessionHeader ctx.bearerHash env.now with
          | (none, s) => (plain 401 "session required (call initialize first)\n", s)
          | (some _, s) => (.response ⟨200, none, none⟩, s)

end Post

/-! ## A server with one user -/

/-- One user, whose token is `t`, under a hash that prepends the salt. -/
def exampleSrv : Srv where
  config := ⟨[], lit "salt", []⟩
  byHash := AList.singleton (lit "saltt") ⟨lit "abcdefgh", lit "mcp_user_abcdefgh", [], [], false, lit "saltt", 0⟩
  rateLimiter := ⟨60, ∅, 0⟩
  sessions := ⟨hours 1, ∅, 0⟩
  reloadUsers := false
  history := []

def exampleEnv (now : Int) : Env := ⟨now, now, lit "u", ⟨.ok ∅, none⟩⟩

def exampleRequest (sessionHeader method : String) : HttpRequest :=
  ⟨lit "127.0.0.1", lit "Bearer t", lit sessionHeader, write none 0 (.ofFields [(lit "jsonrpc", .str (lit "2.0")),
    (lit "id", .int 1), (lit "method", .str (lit method))])⟩

/-- The server once the user has opened the session `u`. -/
def exampleOpened : Srv :=
  (post jsonText (· ++ ·) (makeDefaultRouter jsonText ∅) (exampleEnv 10) (exampleRequest "" "initialize") exampleSrv).srv

end McpBridge.Server
