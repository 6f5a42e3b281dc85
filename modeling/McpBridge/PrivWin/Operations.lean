import McpBridge.Grants.WindowsRecord
import McpBridge.PrivWin.Spawn
/-!
# The Windows privileged service (`priv_win/operations.cpp`)

The service keeps the local accounts `mcp_user_<shortid>`, a ledger of their
SIDs, and the grant files. `Svc` is that state. What the Windows calls answer
is an argument of each handler; an exception of the JSON library that leaves a
handler is its `.error`. The LSA secrets and the access tokens are left to the
outcomes: they decide whether a call fails, not for whom it runs.
-/

open McpBridge.Lib McpBridge.Core McpBridge.Grants

namespace McpBridge.PrivWin

/-- A file under the grants directory. `sidAtInstall` is the SID the account
had when the file was written; the file itself does not carry it. -/
structure GrantFile where
  text : Str
  sidAtInstall : Option Str

/-- What elevated a command. -/
inductive GrantSource where
  | systemAdmin
  | grant (id : Str)
deriving DecidableEq

/-- A process started for an account. -/
structure Spawn where
  shortid : Str
  command : Str
  cwd : Str
  timeout : Int32
  env : List (Str × Str)
  elevated : Bool
  source : Option GrantSource

/-- `usedSids` are the SIDs any account ever had. -/
structure Svc where
  accounts : Map Str Str
  usedSids : List Str
  userSids : Option Str
  grantFiles : Map Str GrantFile
  systemAdmin : Option Str
  audit : List (Str × Str)
  ioLog : List (Str × Str)

def Svc.auditEvent (s : Svc) (event detail : Str) : Svc := { s with audit := s.audit ++ [(event, detail)] }

def validGrantid (s : Str) : Bool := isHexId s

def validGrantPathSegment (s : Str) : Bool := s ≠ [] && !s.contains 0 && decide (¬ lit ".." <:+: s)

/-- The account of a shortid, or the empty string. -/
def usernameFromShortid (shortid : Str) : Str := if validShortid shortid then lit "mcp_user_" ++ shortid else []

/-- The SID of an account, or the empty string; the lookup itself can fail. -/
def sidStringForUser (found : Bool) (user : Str) (s : Svc) : Str := if found then (s.accounts.lookup user).getD [] else []

/-- A refusal. -/
def refuse (msg : Str) : Json := .ofFields [(lit "ok", .bool false), (lit "error", .str msg)]

def okReply : Json := .ofFields [(lit "ok", .bool true)]

section Handlers
variable (J : JsonText)

/-! ## The SID ledger -/

def persistUserSid (written : Bool) (username sid : Str) (s : Svc) : Except JsonError Svc := do
  let raw := s.userSids.getD []
  let doc ← (if raw = [] then .obj [] else (J.parse raw).getD (.obj [])).set username (.str sid)
  let text ← J.dump (some 2) doc
  .ok (if written then { s with userSids := some text } else s)

def lookupPersistedSid (username : Str) (s : Svc) : Str :=
  let raw := s.userSids.getD []
  if raw = [] then []
  else match J.parse raw with
    | some doc => sval doc username
    | none => []

/-- Removes the entry; what goes wrong is ignored. -/
def forgetPersistedSid (written : Bool) (username : Str) (s : Svc) : Svc :=
  let raw := s.userSids.getD []
  if raw = [] then s
  else match J.parse raw with
    | some (.obj l) =>
      match J.dump (some 2) (.obj (l.filter (·.1 ≠ username))) with
      | .ok text => if written then { s with userSids := some text } else s
      | .error _ => s
    | _ => s

/-! ## Accounts -/

/-- What `NetUserAdd` answers. -/
inductive NetUserAdd where
  | success (sid : Str)
  | userExists
  | failed (st parmErr : Nat)

structure UserAddOutcome where
  add : NetUserAdd
  lsaStored : Bool := true
  sidFound : Bool := true
  ledgerWritten : Bool := true

/-- The part of `handleUseradd` after the account is there. -/
def bindSid (o : UserAddOutcome) (username : Str) (s : Svc) : Except JsonError Json × Svc :=
  if !o.lsaStored then
    (.ok (refuse (lit "LSA store failed")), s.auditEvent (lit "useradd_lsa_failed") (lit "user=" ++ username))
  else
    let sid := sidStringForUser o.sidFound username s
    if sid = [] then
      (.ok (refuse (lit "LookupAccountName failed post-add")),
        s.auditEvent (lit "useradd_sid_lookup_failed") (lit "user=" ++ username))
    else match persistUserSid J o.ledgerWritten username sid s with
      | .error e => (.error e, s)
      | .ok s =>
        (.ok (.ofFields [(lit "ok", .bool true), (lit "username", .str username), (lit "sid", .str sid)]),
          s.auditEvent (lit "useradd") (lit "user=" ++ username ++ lit " sid=" ++ sid))

/-- Creates the account, or keeps the one there is. -/
def handleUseradd (o : UserAddOutcome) (req : Json) (s : Svc) : Except JsonError Json × Svc :=
  match req.value Json.asStr (lit "shortid") [] with
  | .error e => (.error e, s)
  | .ok shortid =>
    let username := usernameFromShortid shortid
    if username = [] then (.ok (refuse (lit "invalid shortid")), s)
    else match o.add with
      | .failed st parmErr =>
        (.ok (refuse (lit "NetUserAdd failed: " ++ writeNat st)),
          s.auditEvent (lit "useradd_failed")
            (lit "user=" ++ username ++ lit " err=" ++ writeNat st ++ lit " parm=" ++ writeNat parmErr))
      | .userExists => bindSid J o username s
      | .success sid =>
        bindSid J o username
          { s with accounts := s.accounts.insert username sid, usedSids := sid :: s.usedSids }

/-- What `NetUserDel` answers: done (or no such user), or an error code. -/
inductive NetUserDel where
  | success
  | failed (st : Nat)

structure UserDelOutcome where
  del : NetUserDel := .success
  ledgerWritten : Bool := true

/-- Deletes the account and its ledger entry. The grant files stay. -/
def handleUserdel (o : UserDelOutcome) (req : Json) (s : Svc) : Except JsonError Json × Svc :=
  match req.value Json.asStr (lit "shortid") [] with
  | .error e => (.error e, s)
  | .ok shortid =>
    let username := usernameFromShortid shortid
    if username = [] then (.ok (refuse (lit "invalid shortid")), s)
    else match o.del with
      | .failed st =>
        (.ok (refuse (lit "NetUserDel failed: " ++ writeNat st)),
          s.auditEvent (lit "userdel_failed") (lit "user=" ++ username ++ lit " err=" ++ writeNat st))
      | .success =>
        let s := forgetPersistedSid J o.ledgerWritten username { s with accounts := s.accounts.erase username }
        (.ok okReply, s.auditEvent (lit "userdel") (lit "user=" ++ username))

/-! ## Grant files -/

structure InstallOutcome where
  sidFound : Bool := true
  written : Bool := true

/-- Checks a record and writes it verbatim. -/
def handleInstallGrant (o : InstallOutcome) (req : Json) (s : Svc) : Except JsonError Json × Svc :=
  match req.value Json.asStr (lit "grantid") [] with
  | .error e => (.error e, s)
  | .ok grantid =>
    if !validGrantid grantid then (.ok (refuse (lit "invalid grantid")), s)
    else match req.get? (lit "record") with
      | some (.obj fields) =>
        let record := Json.obj fields
        match record.value Json.asStr (lit "shortid") [] with
        | .error e => (.error e, s)
        | .ok shortid =>
          if !validShortid shortid then (.ok (refuse (lit "invalid record.shortid")), s)
          else match record.value Json.asStr (lit "command_pattern") [] with
            | .error e => (.error e, s)
            | .ok pat =>
              if !validGrantPathSegment pat then (.ok (refuse (lit "invalid command_pattern")), s)
              else
                let username := usernameFromShortid shortid
                let liveSid := sidStringForUser o.sidFound username s
                match record.value Json.asStr (lit "sid") [] with
                | .error e => (.error e, s)
                | .ok recSid =>
                  if recSid ≠ [] ∧ liveSid ≠ [] ∧ recSid ≠ liveSid then
                    (.ok (refuse (lit "SID binding mismatch")), s.auditEvent (lit "install_grant_sid_mismatch")
                      (lit "grantid=" ++ grantid ++ lit " user=" ++ username))
                  else match J.dump (some 2) record with
                    | .error e => (.error e, s)
                    | .ok text =>
                      if !o.written then (.ok (refuse (lit "failed to write grant file")), s)
                      else
                        let file : GrantFile := ⟨text, s.accounts.lookup username⟩
                        let s := { s with grantFiles := s.grantFiles.insert grantid file }
                        match record.value Json.asBool (lit "elevated") false with
                        | .error e => (.error e, s)
                        | .ok elevated =>
                          (.ok okReply, s.auditEvent (lit "install_grant") (lit "grantid=" ++ grantid ++
                            lit " user=" ++ username ++ lit " elevated=" ++ writeNat elevated.toNat))
      | _ => (.ok (refuse (lit "missing record")), s)

/-- Removes the file; whether that worked is not checked. -/
def handleRevokeGrant (removed : Bool) (req : Json) (s : Svc) : Except JsonError Json × Svc :=
  match req.value Json.asStr (lit "grantid") [] with
  | .error e => (.error e, s)
  | .ok grantid =>
    if !validGrantid grantid then (.ok (refuse (lit "invalid grantid")), s)
    else
      let s := if removed then { s with grantFiles := s.grantFiles.erase grantid } else s
      (.ok okReply, s.auditEvent (lit "revoke_grant") (lit "grantid=" ++ grantid))

/-- The record of the system administrator. -/
def systemAdminRecord (shortid sid : Str) : Json :=
  .ofFields [(lit "shortid", .str shortid), (lit "sid", .str sid), (lit "template", .str (lit "full_admin")),
    (lit "command_pattern", .str (lit "*")), (lit "elevated", .bool true), (lit "expires_at", .int 0)]

/-- Writes `system_admin.json`, bound to the SID the account has. -/
def handleInstallSystemAdmin (o : InstallOutcome) (req : Json) (s : Svc) : Except JsonError Json × Svc :=
  match req.value Json.asStr (lit "shortid") [] with
  | .error e => (.error e, s)
  | .ok shortid =>
    if !validShortid shortid then (.ok (refuse (lit "invalid shortid")), s)
    else
      let username := usernameFromShortid shortid
      let sid := sidStringForUser o.sidFound username s
      if sid = [] then (.ok (refuse (lit "user does not exist")), s)
      else match J.dump (some 2) (systemAdminRecord shortid sid) with
        | .error e => (.error e, s)
        | .ok text =>
          if !o.written then (.ok (refuse (lit "failed to write system_admin.json")), s)
          else (.ok okReply, { s with systemAdmin := some text }.auditEvent (lit "install_system_admin")
            (lit "user=" ++ username ++ lit " sid=" ++ sid))

/-! ## Looking up a grant -/

def pathGlobMatch (pattern cmd : Str) : Bool := pattern = lit "*" || pattern = cmd

structure GrantMatch where
  matched : Bool := false
  elevated : Bool := false
  source : Option GrantSource := none

/-- The record is for the shortid, for this SID, not expired, and covers the command. -/
def grantCovers (shortid command liveSid : Str) (now : Int64) (doc : Json) : Except JsonError Bool := do
  let sh ← doc.value Json.asStr (lit "shortid") []
  if sh ≠ shortid ∧ sh ≠ lit "*" then .ok false else do
  let sidInGrant ← doc.value Json.asStr (lit "sid") []
  if sidInGrant ≠ [] ∧ liveSid ≠ [] ∧ sidInGrant ≠ liveSid then .ok false else do
  let exp ← doc.value Json.asInt (lit "expires_at") 0
  if 0 < exp ∧ exp ≤ now then .ok false else do
  let pat ← doc.value Json.asStr (lit "command_pattern") []
  .ok (pathGlobMatch pat command)

/-- The lambda `try_file`: whether the search ends here, and what it found. An
exception ends the file, not the search. -/
def tryFile (shortid command liveSid : Str) (now : Int64) (source : GrantSource) (raw : Str) (out : GrantMatch) :
    Bool × GrantMatch :=
  if raw = [] then (false, out)
  else match J.parse raw with
    | some doc =>
      if !doc.isObject then (false, out)
      else match grantCovers shortid command liveSid now doc with
        | .ok true =>
          match doc.value Json.asBool (lit "elevated") false with
          | .ok elevated => (true, ⟨true, elevated, some source⟩)
          | .error _ => (false, { out with matched := true })
        | _ => (false, out)
    | none => (false, out)

/-- The loop over the grants directory. -/
def scanGrants (shortid command liveSid : Str) (now : Int64) (s : Svc) : List Str → GrantMatch → GrantMatch
  | [], out => out
  | id :: ids, out =>
    match s.grantFiles.lookup id with
    | none => scanGrants shortid command liveSid now s ids out
    | some file =>
      match tryFile J shortid command liveSid now (.grant id) file.text out with
      | (true, out) => out
      | (false, out) => scanGrants shortid command liveSid now s ids out

/-- The outcomes of `handleRunAs`. The grants directory is listed in any order,
and not always to its end; `spawned` is what starting the command returns, if it does. -/
structure RunAsOutcome where
  now : Int64
  sidFound : Bool := true
  grantSidFound : Bool := true
  listing : List Str
  token : Except Str Unit := .ok ()
  spawned : Option SpawnResult := some { ok := true, exitCode := 0 }
  logOpened : Bool := true
  date : Str := []
  time : Str := []

def findGrantFor (o : RunAsOutcome) (shortid command : Str) (s : Svc) : GrantMatch :=
  let liveSid := sidStringForUser o.grantSidFound (lit "mcp_user_" ++ shortid) s
  match tryFile J shortid command liveSid o.now .systemAdmin (s.systemAdmin.getD []) {} with
  | (true, out) => out
  | (false, out) => scanGrants J shortid command liveSid o.now s o.listing out

/-! ## Running a command -/

structure RunAsArgs where
  shortid : Str
  command : Str
  cwd : Str
  timeout : Int32

/-- The arguments, or a refusal. -/
def parseRunAs (req : Json) : Except JsonError (Except Str RunAsArgs) := do
  let shortid ← req.value Json.asStr (lit "shortid") []
  if !validShortid shortid then .ok (.error (lit "invalid shortid")) else do
  let command ← req.value Json.asStr (lit "command") []
  if command = [] ∨ 0 ∈ command then .ok (.error (lit "invalid command")) else do
  let cwd ← req.value Json.asStr (lit "cwd") []
  let timeout ← req.value Json.asInt32 (lit "timeout_secs") 0
  .ok (.ok ⟨shortid, command, cwd, timeout⟩)

/-- The string fields of `env`. -/
def envOf (req : Json) : List (Str × Str) :=
  match req.get? (lit "env") with
  | some (.obj l) => l.filterMap fun kv => match kv.2 with
    | .str v => some (kv.1, v)
    | _ => none
  | _ => []

/-- The line an elevated run adds to the I/O log. -/
def ioRecord (o : RunAsOutcome) (r : SpawnResult) (username : Str) (args : RunAsArgs) : Json :=
  .ofFields [(lit "ts", .str o.time), (lit "user", .str username), (lit "command", .str args.command),
    (lit "cwd", .str args.cwd), (lit "exit_code", .int r.exitCode), (lit "stdout", .str (r.stdout.take 65536))]

/-- The part of `handleRunAs` after the process ended: the I/O log and the reply. -/
def finishRun (o : RunAsOutcome) (r : SpawnResult) (username : Str) (args : RunAsArgs) (elevated : Bool) (s : Svc) :
    Except JsonError Json × Svc :=
  let s := s.auditEvent (if elevated then lit "run_as_elevated" else lit "run_as")
    (lit "user=" ++ username ++ lit " exit=" ++ writeInt r.exitCode ++ lit " cmd=" ++ args.command.take 200)
  let reply := Json.ofFields [(lit "ok", .bool r.ok), (lit "exit_code", .int r.exitCode),
    (lit "stdout", .str r.stdout), (lit "stderr", .str r.stderr)]
  if elevated ∧ o.logOpened then
    match J.dump none (ioRecord o r username args) with
    | .error e => (.error e, s)
    | .ok line => (.ok reply, { s with ioLog := s.ioLog ++ [(o.date, line ++ lit "\n")] })
  else (.ok reply, s)

/-- Runs a command as the account, elevated where a grant covers it. The
process it starts, if any, is part of the result; there is no reply where the
start of it does not return. -/
def handleRunAs (o : RunAsOutcome) (req : Json) (s : Svc) : Option (Except JsonError Json × Svc) × Option Spawn :=
  match parseRunAs req with
  | .error e => (some (.error e, s), none)
  | .ok (.error msg) => (some (.ok (refuse msg), s), none)
  | .ok (.ok args) =>
    let username := usernameFromShortid args.shortid
    let liveSid := sidStringForUser o.sidFound username s
    if liveSid = [] then
      (some (.ok (refuse (lit "user does not exist")), s.auditEvent (lit "run_as_no_user") (lit "user=" ++ username)), none)
    else
      let persisted := lookupPersistedSid J username s
      if persisted ≠ [] ∧ persisted ≠ liveSid then
        (some (.ok (refuse (lit "SID rebinding detected")), s.auditEvent (lit "run_as_sid_mismatch")
          (lit "user=" ++ username ++ lit " persisted=" ++ persisted ++ lit " live=" ++ liveSid)), none)
      else
        let gm := findGrantFor J o args.shortid args.command s
        let elevated := gm.matched && gm.elevated
        match o.token with
        | .error err =>
          (some (.ok (refuse err), s.auditEvent (lit "run_as_token_failed") (lit "user=" ++ username ++ lit " elevated=" ++
            writeNat elevated.toNat ++ lit " err=" ++ err)), none)
        | .ok () =>
          (o.spawned.map fun r => finishRun J o r username args elevated s,
            some ⟨args.shortid, args.command, args.cwd, args.timeout, envOf req, elevated, gm.source⟩)

end Handlers

end McpBridge.PrivWin
