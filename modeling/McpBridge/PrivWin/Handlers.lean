import McpBridge.PrivWin.Operations
/-!
# The rest of the service's operations (`priv_win/operations.cpp`)

Processes and tools, the state directories of accounts, the cron operations,
and the table of operations (`dispatch`). `Host` is the state of the service
with the directories and what it asked `schtasks.exe` to do.

A wide string is modelled as the UTF-8 forms of its characters, so that
`narrow` joins them. What a code page makes of the bytes a tool printed is the
parameter `Oem`.
-/

open McpBridge.Lib McpBridge.Core McpBridge.Grants

namespace McpBridge.PrivWin

structure Host where
  svc : Svc
  /-- The state directory of each account, with the cron metadata by job. -/
  userDirs : Map Str (Map Str Str) := ∅
  toolRuns : List (List Str) := []

def Host.auditEvent (h : Host) (event detail : Str) : Host := { h with svc := h.svc.auditEvent event detail }

/-! ## Processes -/

inductive TokenOutcome where
  | acquired
  | openProcessToken (code : UInt32)
  | duplicateToken (code : UInt32)
  | noPassword
  | logonUser (code : UInt32)

/-- The token a command runs with, or an error text. -/
def acquireTokenFor (shortid : Str) (elevated : Bool) (o : TokenOutcome) : Except Str Unit :=
  if elevated then
    match o with
    | .openProcessToken code => .error (lit "OpenProcessToken failed: " ++ writeNat code.toNat)
    | .duplicateToken code => .error (lit "DuplicateTokenEx failed: " ++ writeNat code.toNat)
    | _ => .ok ()
  else
    match o with
    | .noPassword => .error (lit "LSA password lookup failed for mcp_user_" ++ shortid)
    | .logonUser code => .error (lit "LogonUserW failed: " ++ writeNat code.toNat)
    | _ => .ok ()

structure SystemTime where
  year : UInt16
  month : UInt16
  day : UInt16
  hour : UInt16
  minute : UInt16
  second : UInt16

/-- `%0<w>u`. -/
def padded (w : Nat) (n : UInt16) : Str :=
  List.replicate (w - (writeNat n.toNat).length) (ch '0') ++ writeNat n.toNat

def SystemTime.date (t : SystemTime) : Str :=
  (padded 4 t.year ++ lit "-" ++ padded 2 t.month ++ lit "-" ++ padded 2 t.day).take 15

def SystemTime.stamp (t : SystemTime) : Str :=
  (padded 4 t.year ++ lit "-" ++ padded 2 t.month ++ lit "-" ++ padded 2 t.day ++ lit "T" ++ padded 2 t.hour ++ lit ":" ++
    padded 2 t.minute ++ lit ":" ++ padded 2 t.second ++ lit "Z").take 31

structure RunOutcome where
  now : Int64
  sidFound : Bool := true
  grantSidFound : Bool := true
  listing : List Str
  token : TokenOutcome := .acquired
  spawn : SpawnOutcome
  logOpened : Bool := true
  time : SystemTime

/-- Whether a grant elevates the command. -/
def RunOutcome.elevated (J : JsonText) (o : RunOutcome) (args : RunAsArgs) (s : Svc) : Bool :=
  let gm := findGrantFor J { now := o.now, grantSidFound := o.grantSidFound, listing := o.listing } args.shortid args.command s
  gm.matched && gm.elevated

/-- What the calls of `handleRunAs` answer. -/
def RunOutcome.answers (J : JsonText) (o : RunOutcome) (req : Json) (s : Svc) : RunAsOutcome where
  now := o.now
  sidFound := o.sidFound
  grantSidFound := o.grantSidFound
  listing := o.listing
  token := match parseRunAs req with
    | .ok (.ok args) => acquireTokenFor args.shortid (o.elevated J args s) o.token
    | _ => .ok ()
  spawned := match parseRunAs req with
    | .ok (.ok args) => spawnWithToken true args.timeout o.spawn
    | _ => none
  logOpened := o.logOpened
  date := o.time.date
  time := o.time.stamp

structure BackgroundOutcome where
  token : TokenOutcome := .acquired
  spawn : SpawnOutcome

/-- The arguments, or a refusal. -/
def parseBackground (req : Json) : Except JsonError (Except Str (Str × Str × Str)) := do
  let shortid ← req.value Json.asStr (lit "shortid") []
  if !validShortid shortid then .ok (.error (lit "invalid shortid")) else do
  let command ← req.value Json.asStr (lit "command") []
  if command = [] ∨ 0 ∈ command then .ok (.error (lit "invalid command")) else do
  let cwd ← req.value Json.asStr (lit "cwd") []
  .ok (.ok (shortid, command, cwd))

def handleSpawnBackgroundAs (o : BackgroundOutcome) (req : Json) (h : Host) : Except JsonError Json × Host :=
  match parseBackground req with
  | .error e => (.error e, h)
  | .ok (.error msg) => (.ok (refuse msg), h)
  | .ok (.ok (shortid, _, _)) =>
    match acquireTokenFor shortid false o.token with
    | .error err => (.ok (refuse err), h)
    | .ok () =>
      -- The process is not waited for.
      let r := (spawnWithToken false 0 o.spawn).getD {}
      if !r.ok then (.ok (refuse r.stderr), h)
      else
        (.ok (.ofFields [(lit "ok", .bool true), (lit "pid", .int (intOf o.spawn.pid))]), h.auditEvent
          (lit "spawn_background_as") (lit "user=mcp_user_" ++ shortid ++ lit " pid=" ++ writeNat o.spawn.pid.toNat))

/-! ## System tools -/

/-- `MultiByteToWideChar` for the OEM code page: a byte gives at most one
character, which is ASCII or has two or three bytes in UTF-8. -/
structure Oem where
  decode : Str → List Str
  length_le : ∀ s, (decode s).length ≤ s.length
  char : ∀ s, ∀ c ∈ decode s, validUtf8 c = true ∧ (c.length = 1 ∨ c.length ≤ 3 ∧ ∀ b ∈ c, 0x80 ≤ b)

def narrow (w : List Str) : Str := w.flatten

/-- An ASCII text as a wide string. -/
def wide (s : Str) : List Str := s.map fun c => [c]

/-- The tool ends, and `printed` is what it prints: it is read before it is waited for. -/
structure ToolOutcome where
  pipe : Bool := true
  process : Except UInt32 Unit := .ok ()
  printed : List Chunk := []
  exitCode : UInt32 := 0

def runSystemTool (oem : Oem) (exe : Str) (args : List Str) (o : ToolOutcome) (h : Host) : (Int × List Str) × Host :=
  if !o.pipe then ((-1, wide (lit "CreatePipe failed")), h)
  else match o.process with
    | .error e => ((-1, wide (lit "CreateProcess failed: " ++ writeNat e.toNat)), h)
    | .ok () =>
      ((intOf o.exitCode, oem.decode (capture (256 * 1024) [] o.printed)), { h with toolRuns := h.toolRuns ++ [exe :: args] })

/-! ## State directories -/

/-- An operation on the account of `shortid`. -/
def forAccount (req : Json) (h : Host) (act : Str → Except JsonError Json × Host) : Except JsonError Json × Host :=
  match req.value Json.asStr (lit "shortid") [] with
  | .error e => (.error e, h)
  | .ok shortid =>
    let username := usernameFromShortid shortid
    if username = [] then (.ok (refuse (lit "invalid shortid")), h) else act username

def Host.makeDir (h : Host) (username : Str) : Host :=
  match h.userDirs.lookup username with
  | none => { h with userDirs := h.userDirs.insert username ∅ }
  | some _ => h

def handlePrepareUserState (made : Bool) (req : Json) (h : Host) : Except JsonError Json × Host :=
  forAccount req h fun username =>
    (.ok okReply, (if made then h.makeDir username else h).auditEvent (lit "prepare_user_state") (lit "user=" ++ username))

def handleCleanupUserState (removed : Bool) (req : Json) (h : Host) : Except JsonError Json × Host :=
  forAccount req h fun username =>
    (.ok okReply, (if removed then { h with userDirs := h.userDirs.erase username } else h).auditEvent
      (lit "cleanup_user_state") (lit "user=" ++ username))

def handleRevokeSystemAdmin (removed : Bool) (h : Host) : Except JsonError Json × Host :=
  (.ok okReply, (if removed then { h with svc := { h.svc with systemAdmin := none } } else h).auditEvent
    (lit "revoke_system_admin") [])

/-! ## Cron -/

def cronTaskFolder (shortid : Str) : Str := lit "\\mcp_bridge\\" ++ shortid

def cronTaskPath (shortid jobId : Str) : Str := cronTaskFolder shortid ++ lit "\\" ++ jobId

/-- An operation on a job of an account. -/
def forJob (req : Json) (h : Host) (act : Str → Str → Except JsonError Json × Host) : Except JsonError Json × Host :=
  match req.value Json.asStr (lit "shortid") [] with
  | .error e => (.error e, h)
  | .ok shortid =>
    match req.value Json.asStr (lit "job_id") [] with
    | .error e => (.error e, h)
    | .ok jobId =>
      if !validShortid shortid then (.ok (refuse (lit "invalid shortid")), h)
      else if !validGrantid jobId then (.ok (refuse (lit "invalid job_id")), h)
      else act shortid jobId

structure CronInstallOutcome where
  sidFound : Bool := true
  password : Option Str
  installDir : Str
  tool : ToolOutcome := {}

/-- The strings of `sched_args`. -/
def schedArgs (l : List Json) : List Str := l.filterMap fun v => match v with
  | .str s => some s
  | _ => none

section
variable (J : JsonText) (oem : Oem)

def handleCronInstallJob (o : CronInstallOutcome) (req : Json) (h : Host) : Except JsonError Json × Host :=
  forJob req h fun shortid jobId =>
    match req.get? (lit "sched_args") with
    | some (.arr sched) =>
      let username := lit "mcp_user_" ++ shortid
      let liveSid := sidStringForUser o.sidFound username h.svc
      if liveSid = [] then (.ok (refuse (lit "user does not exist")), h)
      else
        let persisted := lookupPersistedSid J username h.svc
        if persisted ≠ [] ∧ persisted ≠ liveSid then
          (.ok (refuse (lit "SID rebinding detected")),
            h.auditEvent (lit "cron_install_sid_mismatch") (lit "user=" ++ username ++ lit " job=" ++ jobId))
        else match o.password with
          | none => (.ok (refuse (lit "cron: LSA password lookup failed")), h)
          | some pw =>
            if o.installDir = [] then (.ok (refuse (lit "cron: cannot resolve install dir")), h)
            else
              let runner := o.installDir ++ lit "\\mcp_bridge-cron-runner.ps1"
              let tr := lit "powershell.exe -NoProfile -ExecutionPolicy Bypass -File \"" ++ runner ++ lit "\" " ++ jobId
              let args := [lit "/Create", lit "/TN", cronTaskPath shortid jobId, lit "/TR", tr, lit "/F", lit "/RU", username,
                lit "/RP", pw] ++ schedArgs sched
              let ((rc, out), h) := runSystemTool oem (lit "schtasks.exe") args o.tool h
              if rc ≠ 0 then
                (.ok (refuse (lit "schtasks /Create exit=" ++ writeInt rc ++ lit " out=" ++ narrow out)),
                  h.auditEvent (lit "cron_install_failed")
                    (lit "user=" ++ username ++ lit " job=" ++ jobId ++ lit " rc=" ++ writeInt rc))
              else (.ok okReply, h.auditEvent (lit "cron_install") (lit "user=" ++ username ++ lit " job=" ++ jobId))
    | _ => (.ok (refuse (lit "missing sched_args")), h)

def handleCronRemoveJob (o : ToolOutcome) (req : Json) (h : Host) : Except JsonError Json × Host :=
  forJob req h fun shortid jobId =>
    let ((rc, _), h) := runSystemTool oem (lit "schtasks.exe") [lit "/Delete", lit "/TN", cronTaskPath shortid jobId, lit "/F"] o h
    if rc ≠ 0 then
      (.ok (.ofFields [(lit "ok", .bool true), (lit "existed", .bool false)]), h.auditEvent (lit "cron_remove_noop")
        (lit "user=mcp_user_" ++ shortid ++ lit " job=" ++ jobId ++ lit " rc=" ++ writeInt rc))
    else
      (.ok (.ofFields [(lit "ok", .bool true), (lit "existed", .bool true)]),
        h.auditEvent (lit "cron_remove") (lit "user=mcp_user_" ++ shortid ++ lit " job=" ++ jobId))

/-- The name without the backslash it may start with. -/
def trimName (name : Str) : Str := if name.head? = some (ch '\\') then name.tail else name

/-- The id of the job a line of the task list is for. -/
def jobOfLine (shortid line : Str) : Option Str :=
  match line with
  | [] => none
  | c :: rest =>
    if c ≠ ch '"' then none
    else if ch '"' ∉ rest then none
    else
      let name := rest.takeWhile (· ≠ ch '"')
      let trimmed := trimName name
      let fp := lit "mcp_bridge\\" ++ shortid ++ lit "\\"
      if fp.length < trimmed.length ∧ fp.isPrefixOf trimmed then
        let id := trimmed.drop fp.length
        if validGrantid id then some id else none
      else none

/-- The list the tool printed, line by line. -/
def jobIds (shortid out : Str) : List Str := (lines out).filterMap (jobOfLine shortid)

def handleCronListJobs (o : ToolOutcome) (req : Json) (h : Host) : Except JsonError Json × Host :=
  match req.value Json.asStr (lit "shortid") [] with
  | .error e => (.error e, h)
  | .ok shortid =>
    if !validShortid shortid then (.ok (refuse (lit "invalid shortid")), h)
    else
      let ((rc, out), h) := runSystemTool oem (lit "schtasks.exe")
        [lit "/Query", lit "/TN", cronTaskFolder shortid, lit "/FO", lit "CSV", lit "/NH"] o h
      let ids := if rc = 0 then jobIds shortid (narrow out) else []
      (.ok (.ofFields [(lit "ok", .bool true), (lit "job_ids", .arr (ids.map .str))]), h)

structure MetaOutcome where
  written : Bool := true
  sidFound : Bool := true
  readable : Bool := true

def handleCronWriteMeta (usersStateDir : Str) (o : MetaOutcome) (req : Json) (h : Host) : Except JsonError Json × Host :=
  forJob req h fun shortid jobId =>
    match req.get? (lit "content") with
    | some (.obj content) =>
      let username := lit "mcp_user_" ++ shortid
      match J.dump (some 2) (.obj content) with
      | .error e => (.error e, h.makeDir username)
      | .ok text =>
        if !o.written then (.ok (refuse (lit "failed to write metadata file")), h)
        else
          let h := h.makeDir username
          let metas := (h.userDirs.lookup username).getD ∅
          let h := { h with userDirs := h.userDirs.insert username (metas.insert jobId (text ++ lit "\n")) }
          let path := usersStateDir ++ lit "\\mcp_user_" ++ shortid ++ lit "\\crons\\" ++ jobId ++ lit ".json"
          if sidStringForUser o.sidFound username h.svc = [] ∨ o.readable = false then
            (.ok okReply, h.auditEvent (lit "cron_meta_acl_warn")
              (lit "user=" ++ username ++ lit " job=" ++ jobId ++ lit " path=" ++ path))
          else (.ok okReply, h)
    | _ => (.ok (refuse (lit "missing content")), h)

def handleCronDeleteMeta (removed : Bool) (req : Json) (h : Host) : Except JsonError Json × Host :=
  forJob req h fun shortid jobId =>
    let username := lit "mcp_user_" ++ shortid
    match removed, h.userDirs.lookup username with
    | true, some metas => (.ok okReply, { h with userDirs := h.userDirs.insert username (metas.erase jobId) })
    | _, _ => (.ok okReply, h)

/-! ## The table of operations -/

/-- What the Windows calls answer to one request. -/
structure Answers where
  useradd : UserAddOutcome
  userdel : UserDelOutcome := {}
  install : InstallOutcome := {}
  removed : Bool := true
  made : Bool := true
  run : RunOutcome
  background : BackgroundOutcome
  cronInstall : CronInstallOutcome
  tool : ToolOutcome := {}
  metadata : MetaOutcome := {}
  usersStateDir : Str := lit "C:\\ProgramData\\mcp_bridge\\users_state"

/-- A handler of the accounts and grants, on the whole state. -/
def onSvc (act : Svc → Except JsonError Json × Svc) (h : Host) : Except JsonError Json × Host :=
  let (r, svc) := act h.svc
  (r, { h with svc })

/-- `none` where the operation does not return. -/
def dispatch (a : Answers) (req : Json) (h : Host) : Option (Except JsonError Json × Host) :=
  match req.get? (lit "op") with
  | some (.str op) =>
    if op = lit "useradd" then some (onSvc (handleUseradd J a.useradd req) h)
    else if op = lit "userdel" then some (onSvc (handleUserdel J a.userdel req) h)
    else if op = lit "install_grant" then some (onSvc (handleInstallGrant J a.install req) h)
    else if op = lit "revoke_grant" then some (onSvc (handleRevokeGrant a.removed req) h)
    else if op = lit "install_system_admin" then some (onSvc (handleInstallSystemAdmin J a.install req) h)
    else if op = lit "revoke_system_admin" then some (handleRevokeSystemAdmin a.removed h)
    else if op = lit "prepare_user_state" then some (handlePrepareUserState a.made req h)
    else if op = lit "cleanup_user_state" then some (handleCleanupUserState a.removed req h)
    else if op = lit "run_as" then
      (handleRunAs J (a.run.answers J req h.svc) req h.svc).1.map fun (r, svc) => (r, { h with svc })
    else if op = lit "spawn_background_as" then some (handleSpawnBackgroundAs a.background req h)
    else if op = lit "cron_install_job" then some (handleCronInstallJob J oem a.cronInstall req h)
    else if op = lit "cron_remove_job" then some (handleCronRemoveJob oem a.tool req h)
    else if op = lit "cron_list_jobs" then some (handleCronListJobs oem a.tool req h)
    else if op = lit "cron_write_meta" then some (handleCronWriteMeta J a.usersStateDir a.metadata req h)
    else if op = lit "cron_delete_meta" then some (handleCronDeleteMeta a.removed req h)
    else some (.ok (refuse (lit "unknown op: " ++ op)), h)
  | _ => some (.ok (refuse (lit "missing op")), h)

end

end McpBridge.PrivWin
