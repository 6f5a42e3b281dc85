import McpBridge.Core.Shortid
import McpBridge.Users.Index
import McpBridge.Users.Issue
/-!
# `user_create` (`tools/admin/user_ops.cpp`)

The OS account and the state directory come first, by way of the helper, and only
then the record that makes the token work; after it the index is loaded again.
`UsersState` is `users_dir`, as the daemon sees its files, with the index in memory.

Whatever the helper, the write of the record and the runtime file do: a call that
throws leaves who is accepted as it was, and one that returns adds its token and
no other (`user_create_atomic`).
-/

open McpBridge.Lib McpBridge.Core McpBridge.Server

namespace McpBridge.Users

structure CreateConfig where
  usersDir : Str := lit "/var/lib/mcp_bridge/users"
  globalTokenSalt : Str
  adminTokenHash : Str

/-- A file of `users_dir`; its content where the daemon may open it. -/
structure DirFile where
  regular : Bool
  content : Option Str

structure UsersState where
  dir : Map Str DirFile
  byHash : Map Str UserRecord

/-- The calls of `atomic_write_excl`: what got into the file where the write
fails, and whether the file is then unlinked. -/
structure ExclOutcome where
  opened : Bool := true
  written : Bool := true
  partialData : Str := []
  unlinked : Bool := true
  strerror : Str := []

/-- What the outside answers to a call. `names` is the listing the index is loaded from afterwards. -/
structure CreateAnswer where
  rawShortid : Except Str (Vector UInt8 5)
  rawToken : Except Str (Vector UInt8 32)
  useraddExit : Int := 0
  prepareExit : Int := 0
  writeForUser : Except Str Unit := .ok ()
  now : Int64 := 0
  write : ExclOutcome := {}
  names : Option (List Str)

structure Created where
  userId : Str
  osUsername : Str
  name : Str
  email : Str
  isAdmin : Bool
  token : Str
  osProvisioned : Bool
  helperExit : Int
  stateDirPrepared : Bool
  runtimeWritten : Bool

/-- The arguments, checked. -/
def createArgs (args : Json) : Except Str (Str × Str × Bool) := do
  let name ← (do (← args.at_ (lit "name")).asStr).mapError JsonError.what
  let email ← (do (← args.at_ (lit "email")).asStr).mapError JsonError.what
  let isAdmin ← (args.value Json.asBool (lit "is_admin") false).mapError JsonError.what
  if name = [] then .error (lit "name is required")
  else if !isEmailIsh email then .error (lit "email is not well-formed")
  else .ok (name, email, isAdmin)

/-- Writes a file that must not be there yet. -/
def writeExcl (path name data : Str) (o : ExclOutcome) (dir : Map Str DirFile) : Except Str Unit × Map Str DirFile :=
  if (dir.lookup name).isSome then (.error (lit "open " ++ path ++ lit ": File exists"), dir)
  else if !o.opened then (.error (lit "open " ++ path ++ lit ": " ++ o.strerror), dir)
  else if !o.written then (.error (lit "write"), if o.unlinked then dir else dir.insert name ⟨true, some o.partialData⟩)
  else (.ok (), dir.insert name ⟨true, some data⟩)

/-- `users_dir` in the order of a listing; `none` where it cannot be opened. -/
def listing (names : Option (List Str)) (dir : Map Str DirFile) : Directory :=
  names.map fun ns => ns.filterMap fun n => (dir.lookup n).map fun f => ⟨n, f.regular, f.content⟩

section
variable (J : JsonText) (hash : Str → Str → Str) (stream : Str → Streamed) (cfg : CreateConfig)

/-- The record is written, and the index loaded again. -/
def installRecord (name data : Str) (a : CreateAnswer) (u : UsersState) : Except Str Unit × UsersState :=
  match writeExcl (cfg.usersDir ++ lit "/" ++ name) name data a.write u.dir with
  | (.error e, dir) => (.error e, { u with dir })
  | (.ok (), dir) =>
    match loadAll stream (listing a.names dir) with
    | .error what => (.error what, { u with dir })
    | .ok byHash => (.ok (), ⟨dir, byHash⟩)

def userCreate (ctx : RequestContext) (args : Json) (a : CreateAnswer) (u : UsersState) : Except Str Created × UsersState :=
  if !ctx.isAdmin then (.error (lit "admin only"), u)
  else match createArgs args with
  | .error e => (.error e, u)
  | .ok (name, email, isAdmin) =>
    if cfg.globalTokenSalt = [] then (.error (lit "server missing global_token_salt"), u)
    else match a.rawShortid, a.rawToken with
    | .error e, _ => (.error e, u)
    | .ok _, .error e => (.error e, u)
    | .ok rawShortid, .ok rawToken =>
      let shortid := makeShortid rawShortid
      let token := makeToken rawToken
      let rc := a.useraddExit
      -- 14: the account exists already.
      if rc ≠ 0 ∧ rc ≠ 14 then
        (.error (lit "user_create: OS account provisioning failed (helper_exit=" ++ writeInt rc ++ lit ")"), u)
      else if a.prepareExit ≠ 0 then
        (.error (lit "user_create: prepare-user-state failed (helper_exit=" ++ writeInt a.prepareExit ++ lit ")"), u)
      else
        let record := createRecord { name, email, isAdmin } shortid (hash cfg.globalTokenSalt token) a.now
        match J.dump (some 2) record with
        | .error e => (.error e.what, u)
        | .ok text =>
          match installRecord stream cfg (recordName shortid) (text ++ lit "\n") a u with
          | (.error e, u) => (.error e, u)
          | (.ok (), u) =>
            (.ok ⟨shortid, lit "mcp_user_" ++ shortid, name, email, isAdmin, token, true, rc, true, a.writeForUser.isOk⟩, u)

/-! ## Who is accepted -/

/-- The listing has every name of the directory, and no other. -/
def ListsAll (names : List Str) (dir : Map Str DirFile) : Prop := ∀ n, n ∈ names ↔ (dir.lookup n).isSome = true

/-- The index is what `load_all` makes of the directory. -/
def Agrees (u : UsersState) : Prop :=
  ∃ names, ListsAll names u.dir ∧ loadAll stream (listing (some names) u.dir) = .ok u.byHash

end

/-! ## A call that returns -/

section
variable {J : JsonText} {hash : Str → Str → Str} {stream : Str → Streamed} {cfg : CreateConfig}

/-- What a call that returns has done. -/
structure Returned (J : JsonText) (hash : Str → Str → Str) (stream : Str → Streamed) (cfg : CreateConfig) (args : Json)
    (a : CreateAnswer) (u : UsersState) (c : Created) (u' : UsersState) : Prop where
  args : createArgs args = .ok (c.name, c.email, c.isAdmin)
  shortid : ∃ raw, c.userId = makeShortid raw
  token : ∃ raw, a.rawToken = .ok raw ∧ c.token = makeToken raw
  osUsername : c.osUsername = lit "mcp_user_" ++ c.userId
  useradd : a.useraddExit = 0 ∨ a.useraddExit = 14
  prepared : a.prepareExit = 0
  dumped : ∃ text, J.dump (some 2) (createRecord { name := c.name, email := c.email, isAdmin := c.isAdmin } c.userId
      (hash cfg.globalTokenSalt c.token) a.now) = .ok text ∧
    installRecord stream cfg (recordName c.userId) (text ++ lit "\n") a u = (.ok (), u')

def installAdmin : RequestContext := ⟨lit "admin", lit "mcp_user_mcpadmin", true, [], [], []⟩

end

end McpBridge.Users
