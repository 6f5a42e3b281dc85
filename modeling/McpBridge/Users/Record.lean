import McpBridge.Grants.Template
import McpBridge.Core.Common
import McpBridge.Lib.JsonStream
/-!
# The record of a user (`tools/admin/user_ops.cpp`, `cli/auth_rotate.cpp`)

`<users_dir>/<shortid>.json` holds one user. `user_update` and `auth rotate` read
it, edit the document and replace the file; `user_delete` unlinks it. The
functions are about the record of one `shortid`, as its content or `none` where
there is no file. What a call returns comes with the content it leaves.
-/

open McpBridge.Lib McpBridge.Core McpBridge.Grants

namespace McpBridge.Users

/-- `\s` in a regular expression. -/
def isSpace (c : UInt8) : Bool := c = ch ' ' || (9 ≤ c && c ≤ 13)

/-- The pattern `^[^\s@]+@[^\s@]+\.[^\s@]+$`: one `@`, and a dot inside what follows it. -/
def isEmailIsh (s : Str) : Bool :=
  match s.span (· ≠ ch '@') with
  | (_, []) => false
  | (name, _ :: domain) =>
    name ≠ [] && s.all (!isSpace ·) && domain.all (· ≠ ch '@') && (domain.drop 1).dropLast.contains (ch '.')

/-- What the outside answers to a call: the clock, the hash of the token it
draws, and the outcomes of its system calls and of the helper. -/
structure Answer where
  now : Int64 := 0
  tokenHash : Str := []
  replace : ReplaceOutcome := {}
  unlinked : Bool := true
  userdelExit : Int := 0
  cleanupExit : Int := 0

/-- A call that reads the record and replaces it. -/
inductive Edit where
  | update (ctx : RequestContext) (args : Json)
  | rotate

inductive Call where
  | edit (e : Edit)
  | delete (ctx : RequestContext)

/-- Replaces the record; the outcome of `fsync` is not looked at. -/
def atomicReplace (data : Str) (o : ReplaceOutcome) (file : Option Str) : Except Str Unit × Option Str :=
  if !o.opened then (.error (lit "open tmp"), file)
  else if !o.written then (.error (lit "write"), file)
  else if !o.renamed then (.error (lit "rename"), file)
  else (.ok (), some data)

/-- Sets a field, with the message of the exception where the document takes none. -/
def setField (k : Str) (v : Json) (doc : Json) : Except Str Json := (doc.set k v).mapError JsonError.what

/-- The checks of one argument of `user_update`. -/
def checkName (v : Json) : Except Str Json := do
  let s ← v.asStr.mapError JsonError.what
  if s = [] then .error (lit "name cannot be empty") else .ok (.str s)

def checkEmail (v : Json) : Except Str Json := do
  let s ← v.asStr.mapError JsonError.what
  if !isEmailIsh s then .error (lit "email is not well-formed") else .ok (.str s)

def checkIsAdmin (v : Json) : Except Str Json := do
  let b ← v.asBool.mapError JsonError.what
  .ok (.bool b)

/-- An argument that is given is checked and set; the flag says whether any was. -/
def applyArg (args : Json) (k : Str) (check : Json → Except Str Json) (r : Json × Bool) : Except Str (Json × Bool) :=
  match args.get? k with
  | none => .ok r
  | some v => do
    let v ← check v
    let doc ← setField k v r.1
    .ok (doc, true)

/-- The edit of `user_update`. -/
def updateDoc (args : Json) (now : Int64) (doc : Json) : Except Str Json := do
  let r ← applyArg args (lit "name") checkName (doc, false)
  let r ← applyArg args (lit "email") checkEmail r
  let r ← applyArg args (lit "is_admin") checkIsAdmin r
  if !r.2 then .error (lit "no updatable field provided")
  else setField (lit "updated_at") (.int now.toInt) r.1

/-- The edit of `auth rotate`. -/
def rotateDoc (tokenHash : Str) (now : Int64) (doc : Json) : Except Str Json := do
  let doc ← setField (lit "token_hash") (.str tokenHash) doc
  setField (lit "rotated_at") (.int now.toInt) doc

def publicView (doc : Json) : Except JsonError Json := do
  let userId ← doc.value Json.asStr (lit "user_id") []
  let osUsername ← doc.value Json.asStr (lit "os_username") []
  let name ← doc.value Json.asStr (lit "name") []
  let email ← doc.value Json.asStr (lit "email") []
  let isAdmin ← doc.value Json.asBool (lit "is_admin") false
  let createdAt ← doc.value Json.asInt (lit "created_at") 0
  let rotatedAt ← doc.value Json.asInt (lit "rotated_at") 0
  .ok (.ofFields [(lit "user_id", .str userId), (lit "os_username", .str osUsername), (lit "name", .str name),
    (lit "email", .str email), (lit "is_admin", .bool isAdmin), (lit "created_at", .int createdAt.toInt),
    (lit "rotated_at", .int rotatedAt.toInt)])

section
variable (J : JsonText) (stream : Str → Streamed) (usersDir shortid : Str)

def userPath : Str := usersDir ++ lit "/" ++ shortid ++ lit ".json"

def readUserDoc (file : Option Str) : Except Str Json :=
  match file with
  | none => .error (lit "no user record at " ++ userPath usersDir shortid)
  | some text =>
    match stream text with
    | .value doc => if !doc.isObject then .error (lit "user record is not an object") else .ok doc
    | _ => .error (lit "malformed user record")

/-- How `auth rotate` reads: it takes any document. -/
def readDocToRotate (file : Option Str) : Except Str Json :=
  match file with
  | none => .error (lit "ERROR: no user record at " ++ userPath usersDir shortid ++ lit "\n")
  | some text =>
    match stream text with
    | .value doc => .ok doc
    | _ => .error (lit "ERROR: malformed user record\n")

/-- The checks up to the reading of the record, and the document read. -/
def Edit.read (file : Option Str) : Edit → Except Str Json
  | .update ctx _ =>
    if !ctx.isAdmin then .error (lit "admin only")
    else if !validShortid shortid then .error (lit "invalid shortid")
    else readUserDoc stream usersDir shortid file
  | .rotate =>
    if shortid = [] ∨ !validShortid shortid then
      .error (lit "usage: mcp_bridge auth rotate <shortid> [--non-interactive]\n")
    else readDocToRotate stream usersDir shortid file

def Edit.apply (a : Answer) (doc : Json) : Edit → Except Str Json
  | .update _ args => updateDoc args a.now doc
  | .rotate => rotateDoc a.tokenHash a.now doc

/-- How a failure to write the document is reported. -/
def Edit.rewriteError (m : Str) : Edit → Str
  | .update _ _ => m
  | .rotate => lit "ERROR: rewrite: " ++ m ++ lit "\n"

/-- What the call returns once the record is replaced; `auth rotate` prints
whether the user is an admin. -/
def Edit.reply (doc : Json) : Edit → Except Str Json
  | .update _ _ => (publicView doc).mapError JsonError.what
  | .rotate => ((doc.value Json.asBool (lit "is_admin") false).map Json.bool).mapError JsonError.what

/-- The rest of the call, from the document it read. -/
def Edit.finish (e : Edit) (a : Answer) (doc : Json) (file : Option Str) : Except Str Json × Option Str :=
  match e.apply a doc with
  | .error m => (.error m, file)
  | .ok doc =>
    match J.dump (some 2) doc with
    | .error m => (.error (e.rewriteError m.what), file)
    | .ok text =>
      match atomicReplace (text ++ lit "\n") a.replace file with
      | (.error m, file) => (.error (e.rewriteError m), file)
      | (.ok (), file) => (e.reply doc, file)

def userDelete (ctx : RequestContext) (a : Answer) (file : Option Str) : Except Str Json × Option Str :=
  if !ctx.isAdmin then (.error (lit "admin only"), file)
  else if !validShortid shortid then (.error (lit "invalid shortid"), file)
  else if shortid = ctx.userId then (.error (lit "refusing to delete the calling user"), file)
  -- Without a record, the account is removed all the same.
  else if file.isSome && !a.unlinked then (.error (lit "unlink: " ++ a.replace.strerror), file)
  else
    (.ok (.ofFields [(lit "user_id", .str shortid), (lit "record_deleted", .bool file.isSome),
      (lit "os_account_removed", .bool (a.userdelExit = 0)), (lit "helper_exit", .int a.userdelExit),
      (lit "state_dir_removed", .bool (a.cleanupExit = 0))]), none)

/-- A call that nothing interrupts. -/
def Call.exec (file : Option Str) : Call × Answer → Except Str Json × Option Str
  | (.edit e, a) =>
    match e.read stream usersDir shortid file with
    | .error m => (.error m, file)
    | .ok doc => e.finish J a doc file
  | (.delete ctx, a) => userDelete shortid ctx a file

end

end McpBridge.Users
