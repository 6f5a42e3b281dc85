import McpBridge.Users.Store
import McpBridge.Users.Record
import McpBridge.Lib.FileSystem
/-!
# Tokens issued on the command line (`cli/auth_create.cpp`, `cli/auth_rotate.cpp`)

`auth create` and `auth rotate` run as root and leave a record in `users_dir`;
the daemon, which runs under an account of its own, reads it at its next
`load_all`. A file of the directory has an owner and a mode. Of what happens
after the record is written (the account, its state directory, the signal to the
daemon) the outcomes are part of `CliEnv`.

The files are written with mode 0600 by the process that makes them, and nothing
hands them to the daemon's account. `issued_reaches_iff` says when the token that
is printed works all the same.
-/

open McpBridge.Lib McpBridge.Core McpBridge.Grants McpBridge.Server

namespace McpBridge.Users

/-- A file of `users_dir`, or something else under its name. -/
structure StoredFile where
  regular : Bool
  attr : Attr
  content : Str

abbrev UsersDir := Map Str StoredFile

structure CliConfig where
  usersDir : Str := lit "/var/lib/mcp_bridge/users"
  stateDir : Str := lit "/var/lib/mcp_bridge/state"
  helperPath : Str := lit "/usr/lib/mcp_bridge/mcp_bridge-priv"
  globalTokenSalt : Str
  adminTokenHash : Str

/-- What the outside answers to a command. -/
structure CliEnv where
  loadConfig : Str → Except Str CliConfig
  /-- The lines on the standard input. -/
  stdin : List Str := []
  rawShortid : Except Str (Vector UInt8 5)
  rawToken : Except Str (Vector UInt8 32)
  now : Int64
  process : Process
  pid : Nat
  /-- The calls that write the record; `strerror` is the text of an `open` that fails. -/
  replace : ReplaceOutcome := {}
  useraddExit : Int := 0
  prepareExit : Int := 0
  writeForUser : Except Str Unit := .ok ()
  daemonPid : Option Int := none
  tty : Bool := true

structure ConnectionBlock where
  shortid : Str
  token : Str
  isAdmin : Bool
deriving DecidableEq

inductive Sink where
  | tty
  | stdout
deriving DecidableEq

/-- How a command ends: with an exit code other than 0, by an exception that
nothing catches, or with 0, having printed the block and signalled the daemon. -/
inductive Done where
  | exited (code : Nat)
  | thrown (what : Str)
  | issued (block : ConnectionBlock) (sink : Option Sink) (hup : Option Int)

structure CliRun where
  done : Done
  stderr : Str
  dir : UsersDir

def recordName (shortid : Str) : Str := shortid ++ lit ".json"

/-- Where the block is printed. -/
def printConnectionBlock (tty nonInteractive : Bool) : Option Sink :=
  if tty then some .tty else if nonInteractive then some .stdout else none

/-- The process that is signalled. -/
def trySighupDaemon (daemonPid : Option Int) : Option Int := daemonPid.filter (1 < ·)

/-! ## `auth create` -/

structure CreateOptions where
  configPath : Str := lit "/etc/mcp_bridge/mcp.json"
  name : Str := []
  email : Str := []
  isAdmin : Bool := false
  nonInteractive : Bool := false

/-- A flag without a value. -/
def createFlag (a : Str) (o : CreateOptions) : Except Str CreateOptions :=
  if a = lit "--admin" then .ok { o with isAdmin := true }
  else if a = lit "--non-interactive" then .ok { o with nonInteractive := true }
  else .error (lit "unknown flag: " ++ a ++ lit "\n")

def createOptions : List Str → CreateOptions → Except Str CreateOptions
  | [], o => .ok o
  | [a], o => createFlag a o
  | a :: v :: rest, o =>
    if a = lit "--config" then createOptions rest { o with configPath := v }
    else if a = lit "--name" then createOptions rest { o with name := v }
    else if a = lit "--email" then createOptions rest { o with email := v }
    else match createFlag a o with
      | .error m => .error m
      | .ok o => createOptions (v :: rest) o

/-- A value that was not given is asked for: the value, what was prompted, and the lines left. -/
def promptFor (nonInteractive : Bool) (flag label : String) (given : Str) (stdin : List Str) :
    Except Str (Str × Str × List Str) :=
  if given ≠ [] then .ok (given, [], stdin)
  else if nonInteractive then .error (lit flag ++ lit " required in non-interactive mode\n")
  else .ok (stdin.headD [], lit label ++ lit ": ", stdin.tail)

/-- All that comes before the record is made: the options, the configuration and what was prompted. -/
def prepareCreate (env : CliEnv) (argv : List Str) : Except (Nat × Str) (CreateOptions × CliConfig × Str) := do
  let o ← (createOptions argv {}).mapError fun m => (2, m)
  let cfg ← (env.loadConfig o.configPath).mapError fun what => (1, lit "ERROR: " ++ what ++ lit "\n")
  if cfg.globalTokenSalt = [] then .error (1, lit "ERROR: " ++ o.configPath ++ lit " has no auth.global_token_salt\n")
  else
    let (name, asked, stdin) ← (promptFor o.nonInteractive "--name" "Name" o.name env.stdin).mapError fun m => (2, m)
    let (email, asked', _) ← (promptFor o.nonInteractive "--email" "Email" o.email stdin).mapError fun m => (2, asked ++ m)
    if name = [] ∨ !isEmailIsh email then
      .error (2, asked ++ asked' ++ lit "ERROR: name and a well-formed email are required\n")
    else .ok ({ o with name, email }, cfg, asked ++ asked')

def createRecord (o : CreateOptions) (shortid tokenHash : Str) (now : Int64) : Json :=
  .ofFields [(lit "user_id", .str shortid), (lit "os_username", .str (lit "mcp_user_" ++ shortid)),
    (lit "name", .str o.name), (lit "email", .str o.email), (lit "is_admin", .bool o.isAdmin),
    (lit "token_hash", .str tokenHash), (lit "created_at", .int now.toInt)]

/-- Writes a file that must not be there yet. -/
def atomicWriteExcl (env : CliEnv) (path name data : Str) (dir : UsersDir) : Except Str UsersDir :=
  if (dir.lookup name).isSome then .error (lit "open " ++ path ++ lit ": File exists")
  else if !env.replace.opened then .error (lit "open " ++ path ++ lit ": " ++ env.replace.strerror)
  else if !env.replace.written then .error (lit "write")
  else .ok (dir.insert name ⟨true, env.process.attr 0o600, data⟩)

/-- The warnings of what follows the record. -/
def provisionWarnings (env : CliEnv) (cfg : CliConfig) (shortid : Str) : Str :=
  if env.useraddExit ≠ 0 ∧ env.useraddExit ≠ 14 then
    lit "WARNING: helper useradd returned " ++ writeInt env.useraddExit ++
      lit "; user record was written but the OS account mcp_user_" ++ shortid ++
      lit " may not exist. Re-run as root or fix the helper at " ++ cfg.helperPath ++ lit "\n"
  else if env.prepareExit ≠ 0 then
    lit "WARNING: helper prepare-user-state returned " ++ writeInt env.prepareExit ++
      lit "; per-user state dir may not be in place for mcp_user_" ++ shortid ++ lit "\n"
  else match env.writeForUser with
    | .error what => lit "WARNING: could not seed runtime.json for mcp_user_" ++ shortid ++ lit ": " ++ what ++ lit "\n"
    | .ok () => []

section
variable (J : JsonText) (stream : Str → Streamed) (hash : Str → Str → Str) (env : CliEnv)

def cliAuthCreate (argv : List Str) (dir : UsersDir) : CliRun :=
  match prepareCreate env argv with
  | .error (code, m) => ⟨.exited code, m, dir⟩
  | .ok (o, cfg, asked) =>
    match env.rawShortid, env.rawToken with
    | .error what, _ => ⟨.thrown what, asked, dir⟩
    | .ok _, .error what => ⟨.thrown what, asked, dir⟩
    | .ok rawShortid, .ok rawToken =>
      let shortid := makeShortid rawShortid
      let token := makeToken rawToken
      let path := userPath cfg.usersDir shortid
      let record := createRecord o shortid (hash cfg.globalTokenSalt token) env.now
      match (J.dump (some 2) record).mapError JsonError.what >>= fun text =>
          atomicWriteExcl env path (recordName shortid) (text ++ lit "\n") dir with
      | .error m => ⟨.exited 1, asked ++ lit "ERROR: write " ++ path ++ lit ": " ++ m ++ lit "\n", dir⟩
      | .ok dir =>
        ⟨.issued ⟨shortid, token, o.isAdmin⟩ (printConnectionBlock env.tty o.nonInteractive) (trySighupDaemon env.daemonPid),
          asked ++ provisionWarnings env cfg shortid, dir⟩

/-! ## `auth rotate` -/

structure RotateOptions where
  configPath : Str := lit "/etc/mcp_bridge/mcp.json"
  shortid : Str := []
  nonInteractive : Bool := false

/-- A flag without a value, or the shortid. -/
def rotateFlag (a : Str) (o : RotateOptions) : Except Str RotateOptions :=
  if a = lit "--non-interactive" then .ok { o with nonInteractive := true }
  else if o.shortid = [] then .ok { o with shortid := a }
  else .error (lit "unexpected arg: " ++ a ++ lit "\n")

def rotateOptions : List Str → RotateOptions → Except Str RotateOptions
  | [], o => .ok o
  | [a], o => rotateFlag a o
  | a :: v :: rest, o =>
    if a = lit "--config" then rotateOptions rest { o with configPath := v }
    else match rotateFlag a o with
      | .error m => .error m
      | .ok o => rotateOptions (v :: rest) o

def prepareRotate (argv : List Str) : Except (Nat × Str) (RotateOptions × CliConfig) := do
  let o ← (rotateOptions argv {}).mapError fun m => (2, m)
  if o.shortid = [] ∨ !validShortid o.shortid then
    .error (2, lit "usage: mcp_bridge auth rotate <shortid> [--non-interactive]\n")
  else
    let cfg ← (env.loadConfig o.configPath).mapError fun what => (1, lit "ERROR: " ++ what ++ lit "\n")
    .ok (o, cfg)

/-- The name of the temporary file, and what is in it once it is written: one that
was there keeps its owner and its mode. -/
def tmpName (shortid : Str) : Str := tmpOf env.pid (recordName shortid)

def tmpFile (shortid data : Str) (dir : UsersDir) : StoredFile :=
  match dir.lookup (tmpName env shortid) with
  | some left => { left with content := data }
  | none => ⟨true, env.process.attr 0o600, data⟩

/-- Replaces the record. What is not a file cannot be opened for writing. -/
def replaceRecord (shortid data : Str) (dir : UsersDir) : Except Str UsersDir × UsersDir :=
  let tmp := tmpName env shortid
  if !env.replace.opened || !(tmpFile env shortid data dir).regular then (.error (lit "open tmp"), dir)
  else if !env.replace.written then (.error (lit "write"), dir.erase tmp)
  else if !env.replace.renamed then (.error (lit "rename"), dir.erase tmp)
  else
    let dir' := (dir.erase tmp).insert (recordName shortid) (tmpFile env shortid data dir)
    (.ok dir', dir')

/-- The content of the record, where the process may open it. -/
def openRecord (shortid : Str) (dir : UsersDir) : Option Str :=
  (dir.lookup (recordName shortid)).bind fun f => if env.process.may .read f.attr then some f.content else none

def cliAuthRotate (argv : List Str) (dir : UsersDir) : CliRun :=
  match prepareRotate env argv with
  | .error (code, m) => ⟨.exited code, m, dir⟩
  | .ok (o, cfg) =>
    match readDocToRotate stream cfg.usersDir o.shortid (openRecord env o.shortid dir) with
    | .error m => ⟨.exited 1, m, dir⟩
    | .ok doc =>
      match env.rawToken with
      | .error what => ⟨.thrown what, [], dir⟩
      | .ok rawToken =>
        let token := makeToken rawToken
        match rotateDoc (hash cfg.globalTokenSalt token) env.now doc with
        | .error what => ⟨.thrown what, [], dir⟩
        | .ok doc =>
          match J.dump (some 2) doc with
          | .error e => ⟨.exited 1, lit "ERROR: rewrite: " ++ e.what ++ lit "\n", dir⟩
          | .ok text =>
            match replaceRecord env o.shortid (text ++ lit "\n") dir with
            | (.error m, dir) => ⟨.exited 1, lit "ERROR: rewrite: " ++ m ++ lit "\n", dir⟩
            | (.ok _, dir) =>
              match doc.value Json.asBool (lit "is_admin") false with
              | .error e => ⟨.thrown e.what, [], dir⟩
              | .ok isAdmin =>
                ⟨.issued ⟨o.shortid, token, isAdmin⟩ (printConnectionBlock env.tty o.nonInteractive)
                  (trySighupDaemon env.daemonPid), [], dir⟩

/-! ## What the daemon makes of it -/

inductive Command where
  | create (argv : List Str)
  | rotate (argv : List Str)

def Command.exec : Command → UsersDir → CliRun
  | .create argv => cliAuthCreate J hash env argv
  | .rotate argv => cliAuthRotate J stream hash env argv

/-- The configuration the command loads. -/
def Command.config : Command → Option CliConfig
  | .create argv => (prepareCreate env argv).toOption.map (·.2.1)
  | .rotate argv => (prepareRotate env argv).toOption.map (·.2)

/-- The document `auth rotate` reads. -/
def Command.document : Command → UsersDir → Option Json
  | .create _, _ => none
  | .rotate argv, dir =>
    (prepareRotate env argv).toOption.bind fun r =>
      (readDocToRotate stream r.2.usersDir r.1.shortid (openRecord env r.1.shortid dir)).toOption

/-- A token that worked for the record before: its hash is the one in the document. -/
def Command.WasToken (cfg : CliConfig) (cmd : Command) (dir : UsersDir) (old : Str) : Prop :=
  old ≠ [] ∧ ∃ doc, cmd.document stream env dir = some doc ∧ doc.get? (lit "token_hash") = some (.str (hash cfg.globalTokenSalt old))

/-- The printed token stands for the printed user. -/
def Resolves (cfg : CliConfig) (users : Map Str UserRecord) (b : ConnectionBlock) : Prop :=
  ∀ ip, ∃ ctx, authResolve hash (lit "Bearer " ++ b.token) cfg.globalTokenSalt cfg.adminTokenHash users ip = some ctx ∧
    ctx.userId = b.shortid ∧ ctx.isAdmin = b.isAdmin

def Revoked (cfg : CliConfig) (users : Map Str UserRecord) (token : Str) : Prop :=
  ∀ ip, authResolve hash (lit "Bearer " ++ token) cfg.globalTokenSalt cfg.adminTokenHash users ip = none

variable (daemon : Account)

def seenAs (name : Str) (f : StoredFile) : DirEntry :=
  ⟨name, f.regular, if daemon.may .read f.attr then some f.content else none⟩

/-- What the daemon gets to read of the names it lists; `none` where it cannot list the directory. -/
def listingFor (names : Option (List Str)) (dir : UsersDir) : Directory :=
  names.map fun ns => ns.filterMap fun n => (dir.lookup n).map (seenAs daemon n)

/-- A temporary file of the record was left behind, and the daemon may read it. -/
def leftover (shortid : Str) (dir : UsersDir) : Bool :=
  match dir.lookup (tmpName env shortid) with
  | some f => daemon.may .read f.attr
  | none => false

/-- The record the daemon gets to see of the user the command is about. -/
def Command.seen (cfg : CliConfig) (cmd : Command) (b : ConnectionBlock) (dir : UsersDir) : Option UserRecord :=
  if leftover env daemon b.shortid dir then
    ((cmd.document stream env dir).bind fun doc => (rotateDoc (hash cfg.globalTokenSalt b.token) env.now doc).toOption).bind recordOf
  else none

/-- The record under a hash: of the files as they were before the command, with
the record `mine` for the one called `name`. -/
def expected (byHash : Map Str UserRecord) (dir : UsersDir) (name : Str) (mine : Option UserRecord)
    (names : Option (List Str)) (h : Str) : Option UserRecord :=
  match names with
  | none => none
  | some ns =>
    let other := fun n => if n = name then none else (dir.lookup n).map (seenAs daemon n)
    if (ns.filterMap other).any (·.throws stream) then byHash.lookup h
    else firstWith (ns.filterMap fun n => if n = name then mine else (other n).bind (·.record stream)) h

end

/-! ## The commands -/

section
variable {J : JsonText} {stream : Str → Streamed} {hash : Str → Str → Str} {env : CliEnv}

theorem create_issued {argv : List Str} {dir : UsersDir} {b : ConnectionBlock} {sink : Option Sink} {hup : Option Int}
    (h : (cliAuthCreate J hash env argv dir).done = .issued b sink hup) :
    ∃ raw rawToken data, b.shortid = makeShortid raw ∧ b.token = makeToken rawToken ∧
      dir.lookup (recordName b.shortid) = none ∧
      (cliAuthCreate J hash env argv dir).dir = dir.insert (recordName b.shortid) ⟨true, env.process.attr 0o600, data⟩ := by
  unfold cliAuthCreate at h ⊢
  split at h
  · cases h
  split at h
  · cases h
  · cases h
  next rawShortid rawToken hs ht =>
  simp only at h ⊢
  split at h
  · cases h
  next dir' hw =>
  obtain ⟨text, -, hw⟩ := bind_eq_ok.1 hw
  unfold atomicWriteExcl at hw
  split at hw
  · cases hw
  next hfree =>
  repeat' split at hw
  all_goals cases hw
  cases h
  exact ⟨rawShortid, rawToken, _, rfl, rfl, by simpa using hfree, rfl⟩

/-- What `auth rotate` read, and what it left. -/
structure Rotated (J : JsonText) (stream : Str → Streamed) (hash : Str → Str → Str) (env : CliEnv) (argv : List Str)
    (dir : UsersDir) (b : ConnectionBlock) (dir' : UsersDir) (o : RotateOptions) (cfg : CliConfig) (doc doc' : Json) (text : Str) : Prop where
  prepared : prepareRotate env argv = .ok (o, cfg)
  shortid : b.shortid = o.shortid
  token : ∃ raw, b.token = makeToken raw
  read : readDocToRotate stream cfg.usersDir o.shortid (openRecord env o.shortid dir) = .ok doc
  edited : rotateDoc (hash cfg.globalTokenSalt b.token) env.now doc = .ok doc'
  dumped : J.dump (some 2) doc' = .ok text
  written : dir' = (dir.erase (tmpName env b.shortid)).insert (recordName b.shortid)
    (tmpFile env b.shortid (text ++ lit "\n") dir)
  regular : (tmpFile env b.shortid (text ++ lit "\n") dir).regular = true

theorem rotate_issued {argv : List Str} {dir : UsersDir} {b : ConnectionBlock} {sink : Option Sink} {hup : Option Int}
    (h : (cliAuthRotate J stream hash env argv dir).done = .issued b sink hup) :
    ∃ o cfg doc doc' text, Rotated J stream hash env argv dir b (cliAuthRotate J stream hash env argv dir).dir o cfg doc doc' text := by
  unfold cliAuthRotate at h ⊢
  split at h
  · cases h
  next o cfg hprep =>
  split at h
  · cases h
  next doc hread =>
  split at h
  · cases h
  next raw hraw =>
  simp only at h ⊢
  split at h
  · cases h
  next doc' hedit =>
  split at h
  · cases h
  next text hdump =>
  split at h
  · cases h
  next dir' dir'' hreplace =>
  split at h
  · cases h
  next isAdmin hadmin =>
  cases h
  unfold replaceRecord at hreplace
  simp only at hreplace
  split at hreplace
  · cases hreplace
  next hopened =>
  repeat' split at hreplace
  all_goals cases hreplace
  have hregular : (tmpFile env o.shortid (text ++ lit "\n") dir).regular = true := by
    simp only [Bool.or_eq_true, Bool.not_eq_true', not_or, Bool.not_eq_false] at hopened
    exact hopened.2
  exact ⟨o, cfg, doc, doc', text, hprep, rfl, ⟨raw, rfl⟩, hread, hedit, hdump, rfl, hregular⟩

/-! ## Authentication -/

theorem extractBearer_header {token : Str} (h : token ≠ []) : extractBearer (lit "Bearer " ++ token) = some token := by
  have hlen : 0 < token.length := List.length_pos_iff.2 h
  have hpre : (lit "Bearer ").isPrefixOf (lit "Bearer " ++ token) = true :=
    List.isPrefixOf_iff_prefix.2 (List.prefix_append _ _)
  unfold extractBearer
  rw [if_neg (by simp only [List.length_append]; omega), if_neg (by simp [hpre])]
  simp [h]

/-- A token stands for a user by the record under its hash; the install admin has another name. -/
theorem resolves_iff (cfg : CliConfig) (users : Map Str UserRecord) {b : ConnectionBlock} (htoken : b.token ≠ [])
    (hname : b.shortid ≠ lit "admin") :
    Resolves hash cfg users b ↔
      ∃ r, users.lookup (hash cfg.globalTokenSalt b.token) = some r ∧ r.userId = b.shortid ∧ r.isAdmin = b.isAdmin := by
  simp only [Resolves, authResolve, extractBearer_header htoken, Option.bind_some]
  rcases users.lookup (hash cfg.globalTokenSalt b.token) with _ | r
  · simp only [reduceCtorEq, false_and, exists_false, iff_false]
    intro hres
    obtain ⟨ctx, hctx, hid, -⟩ := hres []
    split at hctx
    · cases hctx
      exact hname hid.symm
    · cases hctx
  · simp

theorem revoked_iff (cfg : CliConfig) (users : Map Str UserRecord) {token : Str} (htoken : token ≠ []) :
    Revoked hash cfg users token ↔ users.lookup (hash cfg.globalTokenSalt token) = none ∧
      ¬ (cfg.adminTokenHash ≠ [] ∧ hash cfg.globalTokenSalt token = cfg.adminTokenHash) := by
  simp only [Revoked, authResolve, extractBearer_header htoken, Option.bind_some, constantTimeEqual_iff]
  rcases users.lookup (hash cfg.globalTokenSalt token) with _ | r
  · simp
  · simp

/-! ## The next load -/

/-- The index after a load of a directory in which one file, called `name`, is new. -/
theorem reloaded_lookup {daemon : Account} {dir dir' : UsersDir} {name : Str}
    {f : StoredFile} {mine : Option UserRecord} {names : Option (List Str)} (byHash : Map Str UserRecord)
    (hname : dir'.lookup name = some f) (hother : ∀ ns, names = some ns → ∀ n ∈ ns, n ≠ name → dir'.lookup n = dir.lookup n)
    (hthrows : (seenAs daemon name f).throws stream = false) (hmine : (seenAs daemon name f).record stream = mine) (h : Str) :
    (reloaded stream byHash (listingFor daemon names dir')).lookup h =
      expected stream daemon byHash dir name mine names h := by
  rcases names with _ | ns
  · rfl
  have hother := hother ns rfl
  simp only [reloaded, listingFor, Option.map_some, loadAll, expected]
  split_ifs with hany
  · have hthrow : ∃ e ∈ ns.filterMap (fun n => (dir'.lookup n).map (seenAs daemon n)), e.throws stream = true := by
      obtain ⟨e, he, ht⟩ := List.any_eq_true.1 hany
      obtain ⟨n, hn, hsome⟩ := List.mem_filterMap.1 he
      split at hsome
      · cases hsome
      · next hne => exact ⟨e, List.mem_filterMap.2 ⟨n, hn, by rw [hother n hn hne]; exact hsome⟩, ht⟩
    obtain ⟨what, hwhat⟩ := loadEntries_error stream hthrow ∅
    rw [hwhat]
  · have hquiet : ∀ e ∈ ns.filterMap (fun n => (dir'.lookup n).map (seenAs daemon n)), e.throws stream = false := by
      intro e he
      obtain ⟨n, hn, hsome⟩ := List.mem_filterMap.1 he
      by_cases hne : n = name
      · subst hne
        rw [hname] at hsome
        cases hsome
        exact hthrows
      · rw [Bool.not_eq_true, List.any_eq_false] at hany
        refine Bool.eq_false_iff.2 (hany e (List.mem_filterMap.2 ⟨n, hn, ?_⟩))
        rw [if_neg hne, ← hother n hn hne]
        exact hsome
    obtain ⟨m, hm, hl⟩ := loadEntries_ok stream hquiet ∅
    rw [hm]
    simp only [hl, AList.lookup_empty, Option.none_or, List.filterMap_filterMap]
    congr 1
    apply List.filterMap_congr
    intro n hn
    by_cases hne : n = name
    · subst hne
      simp [hname, hmine]
    · simp [hne, hother n hn hne]

/-! ## When the token works -/

theorem rotateDoc_edited {tokenHash : Str} {now : Int64} {doc doc' : Json} (hdoc : doc.Edited stream)
    (h : rotateDoc tokenHash now doc = .ok doc') : doc'.Edited stream := by
  have hset : ∀ {k v} {j j' : Json}, v.plain = true → j.Edited stream → setField k v j = .ok j' → j'.Edited stream := by
    intro k v j j' hv hj hs
    unfold setField at hs
    rcases hset : j.set k v with e | j''
    · rw [hset] at hs
      cases hs
    · rw [hset] at hs
      cases hs
      exact .set hj hv hset
  obtain ⟨mid, hmid, h⟩ := bind_eq_ok.1 h
  exact hset rfl (hset rfl hdoc hmid) h

theorem readDocToRotate_ok {usersDir shortid : Str} {file : Option Str} {doc : Json}
    (h : readDocToRotate stream usersDir shortid file = .ok doc) : doc.Edited stream := by
  unfold readDocToRotate at h
  split at h
  · cases h
  · split at h
    · next hp =>
      cases h
      exact .read hp
    · cases h

/-- A record whose name does not begin with a dot is looked into. -/
theorem candidate_of_head {c : UInt8} (hc : c ≠ ch '.') (cs : Str) (content : Option Str) :
    (DirEntry.mk (recordName (c :: cs)) true content).candidate = true := by
  have hjson : (lit ".json").isSuffixOf (recordName (c :: cs)) = true :=
    List.isSuffixOf_iff_suffix.2 (List.suffix_append _ _)
  have hlong : 5 < (recordName (c :: cs)).length := by
    have hfive : (lit ".json").length = 5 := rfl
    simp only [recordName, List.length_append, List.length_cons]
    omega
  simp only [DirEntry.candidate, endsWithJson, hjson, hlong]
  simp [recordName, hc]

theorem candidate_recordName {shortid : Str} (h : validShortid shortid = true) (content : Option Str) :
    (DirEntry.mk (recordName shortid) true content).candidate = true := by
  simp only [validShortid, Bool.and_eq_true, decide_eq_true_eq] at h
  obtain ⟨hlen, hall⟩ := h
  rcases shortid with _ | ⟨c, cs⟩
  · simp at hlen
  refine candidate_of_head ?_ cs content
  rintro rfl
  simp only [List.all_cons, Bool.and_eq_true] at hall
  exact absurd hall.1 (by decide)

/-- A file the daemon may not read is passed over. -/
theorem seenAs_closed (stream : Str → Streamed) {daemon : Account} {f : StoredFile} (name : Str)
    (h : daemon.may .read f.attr = false) :
    (seenAs daemon name f).throws stream = false ∧ (seenAs daemon name f).record stream = none := by
  constructor
  · simp [DirEntry.throws, seenAs, h, readUserFile]
  · simp [DirEntry.record, seenAs, h, readUserFile, Except.toOption]

/-- One it may read is the record of the document that was written. -/
theorem seenAs_open {daemon : Account} {f : StoredFile} {shortid : Str} {doc : Json}
    (hid : validShortid shortid = true) (hmay : daemon.may .read f.attr = true) (hregular : f.regular = true)
    (hread : stream f.content = .value doc) :
    (seenAs daemon (recordName shortid) f).throws stream = false ∧
      (seenAs daemon (recordName shortid) f).record stream = recordOf doc := by
  have hcand := candidate_recordName hid (some f.content)
  have hseen : seenAs daemon (recordName shortid) f = ⟨recordName shortid, true, some f.content⟩ := by
    simp [seenAs, hmay, hregular]
  rw [hseen]
  constructor
  · simp [DirEntry.throws, readUserFile, hread]
  · simp [DirEntry.record, hcand, readUserFile, hread, Except.toOption]

/-- What either command leaves for the daemon. -/
structure Left (stream : Str → Streamed) (daemon : Account) (dir dir' : UsersDir) (b : ConnectionBlock)
    (mine : Option UserRecord) : Prop where
  token : b.token ≠ []
  shortid : b.shortid.length = 8
  file : ∃ f, dir'.lookup (recordName b.shortid) = some f ∧
    (seenAs daemon (recordName b.shortid) f).throws stream = false ∧
    (seenAs daemon (recordName b.shortid) f).record stream = mine
  others : ∀ n, n ≠ recordName b.shortid → (dir'.lookup n).isSome = true → dir'.lookup n = dir.lookup n

theorem create_left (stream : Str → Streamed) {daemon : Account} (hclosed : daemon.may .read (env.process.attr 0o600) = false)
    {argv : List Str} {dir : UsersDir} {b : ConnectionBlock} {sink : Option Sink} {hup : Option Int}
    (hrun : (cliAuthCreate J hash env argv dir).done = .issued b sink hup) :
    Left stream daemon dir (cliAuthCreate J hash env argv dir).dir b none := by
  obtain ⟨raw, rawToken, data, hid, htoken, -, hdir⟩ := create_issued hrun
  rw [hdir]
  refine ⟨htoken ▸ makeToken_ne_nil rawToken, by rw [hid]; rfl, ⟨_, AList.lookup_insert _, ?_⟩, ?_⟩
  · exact seenAs_closed stream _ hclosed
  · intro n hn _
    rw [Map.lookup_insert_if, if_neg hn]

theorem prepareRotate_valid {argv : List Str} {o : RotateOptions} {cfg : CliConfig}
    (h : prepareRotate env argv = .ok (o, cfg)) : validShortid o.shortid = true := by
  unfold prepareRotate at h
  obtain ⟨o', -, h⟩ := bind_eq_ok.1 h
  split at h
  · cases h
  next hvalid =>
  obtain ⟨cfg', -, h⟩ := bind_eq_ok.1 h
  cases h
  simpa using (not_or.1 hvalid).2

/-- The temporary file the record is replaced with, as the daemon sees it. -/
theorem tmpFile_seen {daemon : Account}
    (hclosed : daemon.may .read (env.process.attr 0o600) = false) {shortid data : Str} (hid : validShortid shortid = true)
    {dir : UsersDir} (hregular : (tmpFile env shortid data dir).regular = true) {doc : Json} (hread : stream data = .value doc) :
    (seenAs daemon (recordName shortid) (tmpFile env shortid data dir)).throws stream = false ∧
      (seenAs daemon (recordName shortid) (tmpFile env shortid data dir)).record stream =
        if leftover env daemon shortid dir then recordOf doc else none := by
  unfold leftover
  rcases hl : dir.lookup (tmpName env shortid) with _ | left
  · exact seenAs_closed stream _ (by simpa [tmpFile, hl] using hclosed)
  · have hattr : (tmpFile env shortid data dir).attr = left.attr := by simp [tmpFile, hl]
    rcases hmay : daemon.may .read left.attr with _ | _
    · simp only [hmay, Bool.false_eq_true, if_false]
      exact seenAs_closed stream _ (by rw [hattr]; exact hmay)
    · simp only [hmay, if_true]
      exact seenAs_open hid (by rw [hattr]; exact hmay) hregular (by simpa [tmpFile, hl] using hread)

theorem rotate_left (hJ : J.Rereads stream) {daemon : Account}
    (hclosed : daemon.may .read (env.process.attr 0o600) = false) {argv : List Str} {dir dir' : UsersDir} {b : ConnectionBlock}
    {o : RotateOptions} {cfg : CliConfig} {doc doc' : Json} {text : Str}
    (hr : Rotated J stream hash env argv dir b dir' o cfg doc doc' text) :
    Left stream daemon dir dir' b (if leftover env daemon b.shortid dir then recordOf doc' else none) := by
  have hid : validShortid b.shortid = true := by
    rw [hr.shortid]
    exact prepareRotate_valid hr.prepared
  have hread := hJ (some 2) doc' text (rotateDoc_edited (readDocToRotate_ok hr.read) hr.edited) hr.dumped
  obtain ⟨rawToken, htoken⟩ := hr.token
  rw [hr.written]
  refine ⟨htoken ▸ makeToken_ne_nil rawToken, ?_, ⟨_, AList.lookup_insert _, tmpFile_seen hclosed hid hr.regular hread⟩, ?_⟩
  · simp only [validShortid, Bool.and_eq_true, decide_eq_true_eq] at hid
    exact hid.1
  · intro n hn hsome
    rw [Map.lookup_insert_if, if_neg hn, Map.lookup_erase_if] at hsome ⊢
    split at hsome
    · cases hsome
    · next hne => rw [if_neg hne]

theorem exec_left (hJ : J.Rereads stream) {daemon : Account} (hroot : env.process.uid = 0)
    (hd : daemon.uid ≠ 0) {cmd : Command} {dir : UsersDir} {cfg : CliConfig} {b : ConnectionBlock} {sink : Option Sink}
    {hup : Option Int} (hcfg : cmd.config env = some cfg) (hrun : (cmd.exec J stream hash env dir).done = .issued b sink hup) :
    Left stream daemon dir (cmd.exec J stream hash env dir).dir b (cmd.seen stream hash env daemon cfg b dir) := by
  have hclosed : daemon.may .read (env.process.attr 0o600) = false :=
    not_may_of_private env.process .read (by decide) hd (by rw [hroot]; exact hd)
  cases cmd with
  | create argv =>
    have hnone : (Command.create argv).seen stream hash env daemon cfg b dir = none := by simp [Command.seen, Command.document]
    rw [hnone]
    exact create_left stream hclosed hrun
  | rotate argv =>
    obtain ⟨o, cfg', doc, doc', text, hr⟩ := rotate_issued hrun
    have hcfg' : cfg' = cfg := by simpa [Command.config, hr.prepared, Except.toOption] using hcfg
    subst hcfg'
    have hseen : (Command.rotate argv).seen stream hash env daemon cfg' b dir =
        if leftover env daemon b.shortid dir then recordOf doc' else none := by
      simp [Command.seen, Command.document, hr.prepared, hr.read, hr.edited, Except.toOption]
    rw [hseen]
    exact rotate_left hJ hclosed hr

/-- The token that is printed works, and the one before it no longer does, exactly
where the records the daemon could read already say so: the record that was written
counts only where it took the place of a temporary file the daemon may read. -/
theorem issued_reaches_iff (hJ : J.Rereads stream) {daemon : Account}
    (hroot : env.process.uid = 0) (hd : daemon.uid ≠ 0) {cmd : Command} {dir : UsersDir} {cfg : CliConfig}
    {b : ConnectionBlock} {sink : Option Sink} {hup : Option Int} (hcfg : cmd.config env = some cfg)
    (hrun : (cmd.exec J stream hash env dir).done = .issued b sink hup) {byHash users : Map Str UserRecord}
    {names : Option (List Str)}
    (hnames : ∀ ns, names = some ns → ∀ n, n ∈ ns ↔ ((cmd.exec J stream hash env dir).dir.lookup n).isSome = true)
    (husers : users = reloaded stream byHash (listingFor daemon names (cmd.exec J stream hash env dir).dir))
    {found : Str → Option UserRecord}
    (hfound : found = expected stream daemon byHash dir (recordName b.shortid) (cmd.seen stream hash env daemon cfg b dir) names) :
    (Resolves hash cfg users b ∧ ∀ old, cmd.WasToken stream hash env cfg dir old → Revoked hash cfg users old) ↔
      (∃ r, found (hash cfg.globalTokenSalt b.token) = some r ∧ r.userId = b.shortid ∧ r.isAdmin = b.isAdmin) ∧
      ∀ old, cmd.WasToken stream hash env cfg dir old → found (hash cfg.globalTokenSalt old) = none ∧
        ¬ (cfg.adminTokenHash ≠ [] ∧ hash cfg.globalTokenSalt old = cfg.adminTokenHash) := by
  have hleft := exec_left hJ hroot hd hcfg hrun
  obtain ⟨f, hf, hthrows, hmine⟩ := hleft.file
  have hlookup : ∀ h, users.lookup h = found h := by
    intro h
    rw [husers, hfound]
    refine reloaded_lookup byHash hf ?_ hthrows hmine h
    intro ns hns n hn hne
    exact hleft.others n hne ((hnames ns hns n).1 hn)
  have hadmin : b.shortid ≠ lit "admin" := by
    intro h
    have hlen := hleft.shortid
    rw [h] at hlen
    exact absurd hlen (by decide)
  rw [resolves_iff cfg users hleft.token hadmin, hlookup]
  refine and_congr_right fun _ => forall_congr' fun old => ?_
  refine imp_congr_right fun hold => ?_
  rw [revoked_iff cfg users hold.1, hlookup]

end

/-! ## An issued token -/

def cliConfig : CliConfig := { globalTokenSalt := lit "s", adminTokenHash := [] }

def exampleCli : CliEnv where
  loadConfig _ := .ok cliConfig
  rawShortid := .ok (Vector.replicate 5 0)
  rawToken := .ok (Vector.replicate 32 0)
  now := 0
  process := { uid := 0, gid := 0, umask := 0o022, cwd := [] }
  pid := 7

def mcpAccount : Account := { uid := 997, gid := 997 }

def rotated : Command := .rotate [lit "aaaaaaaa", lit "--non-interactive"]

/-- The record of a user the daemon can read, and a temporary file of it that the daemon made. -/
def leftBehind : UsersDir :=
  ((∅ : UsersDir).insert (lit "aaaaaaaa.json.tmp.7") ⟨true, ⟨997, 997, 0o600⟩, []⟩).insert (lit "aaaaaaaa.json")
    ⟨true, ⟨997, 997, 0o600⟩, lit "\x7b\"is_admin\":true,\"token_hash\":\"sold\",\"user_id\":\"aaaaaaaa\"\x7d"⟩

def rotatedBlock : ConnectionBlock := ⟨lit "aaaaaaaa", makeToken (Vector.replicate 32 0), true⟩

theorem rotated_runs : ∃ sink hup,
    (rotated.exec jsonPlain (streamOf jsonPlain) (· ++ ·) exampleCli leftBehind).done = .issued rotatedBlock sink hup := by
  have h : (match (rotated.exec jsonPlain (streamOf jsonPlain) (· ++ ·) exampleCli leftBehind).done with
      | .issued b sink hup => some (b, sink, hup)
      | _ => none) = some (rotatedBlock, some Sink.tty, none) := by decide +kernel
  split at h
  · next b sink hup hdone =>
    cases h
    exact ⟨_, _, hdone⟩
  · cases h

/-- Where the temporary file of a rotation that the daemon broke off lies there, the new token works. -/
theorem issued_reaches_iff_leftover :
    Resolves (· ++ ·) cliConfig (reloaded (streamOf jsonPlain) ∅ (listingFor mcpAccount (some [lit "aaaaaaaa.json"])
      (rotated.exec jsonPlain (streamOf jsonPlain) (· ++ ·) exampleCli leftBehind).dir)) rotatedBlock ∧
    ∀ old, rotated.WasToken (streamOf jsonPlain) (· ++ ·) exampleCli cliConfig leftBehind old →
      Revoked (· ++ ·) cliConfig (reloaded (streamOf jsonPlain) ∅ (listingFor mcpAccount (some [lit "aaaaaaaa.json"])
        (rotated.exec jsonPlain (streamOf jsonPlain) (· ++ ·) exampleCli leftBehind).dir)) old := by
  obtain ⟨sink, hup, hrun⟩ := rotated_runs
  have hconfig : rotated.config exampleCli = some cliConfig := rfl
  have hkeys : (rotated.exec jsonPlain (streamOf jsonPlain) (· ++ ·) exampleCli leftBehind).dir.keys =
      [lit "aaaaaaaa.json"] := by decide +kernel
  refine (issued_reaches_iff jsonPlain_rereads rfl (by decide) hconfig hrun ?_ rfl rfl).2 ⟨?_, ?_⟩
  · rintro ns ⟨⟩ n
    rw [AList.lookup_isSome, AList.mem_keys, hkeys]
  · have hfirst : (expected (streamOf jsonPlain) mcpAccount ∅ leftBehind (recordName rotatedBlock.shortid)
        (rotated.seen (streamOf jsonPlain) (· ++ ·) exampleCli mcpAccount cliConfig rotatedBlock leftBehind)
        (some [lit "aaaaaaaa.json"]) (lit "s" ++ rotatedBlock.token)).map (fun r => (r.userId, r.isAdmin)) =
        some (rotatedBlock.shortid, true) := by decide +kernel
    obtain ⟨r, hr, hrec⟩ := Option.map_eq_some_iff.1 hfirst
    rw [Prod.mk.injEq] at hrec
    exact ⟨r, hr, hrec⟩
  · rintro old ⟨-, doc, hdoc, hhash⟩
    have hold : ((rotated.document (streamOf jsonPlain) exampleCli leftBehind).bind (·.get? (lit "token_hash"))).bind
        (·.asStr.toOption) = some (lit "sold") := by decide +kernel
    rw [hdoc, Option.bind_some, hhash] at hold
    have hsold : lit "s" ++ old = lit "sold" := Option.some.inj hold
    constructor
    · change expected _ _ _ _ _ _ _ (lit "s" ++ old) = none
      rw [hsold]
      decide +kernel
    · rintro ⟨hne, -⟩
      exact hne rfl

def created : Command := .create [lit "--name", lit "A", lit "--email", lit "a@b.c", lit "--non-interactive"]

/-- `auth create` in an empty directory: the daemon cannot open the record, and the token that was printed is unknown. -/
theorem created_token_unknown :
    ∃ b sink hup, (created.exec jsonPlain (streamOf jsonPlain) (· ++ ·) exampleCli ∅).done = .issued b sink hup ∧
      ¬ Resolves (· ++ ·) cliConfig (reloaded (streamOf jsonPlain) ∅ (listingFor mcpAccount (some [recordName b.shortid])
        (created.exec jsonPlain (streamOf jsonPlain) (· ++ ·) exampleCli ∅).dir)) b := by
  have h : (match (created.exec jsonPlain (streamOf jsonPlain) (· ++ ·) exampleCli ∅).done with
      | .issued b sink hup => some (b, sink, hup)
      | _ => none) = some (⟨lit "aaaaaaaa", makeToken (Vector.replicate 32 0), false⟩, some Sink.tty, none) := by decide +kernel
  split at h
  · next b sink hup hdone =>
    cases h
    refine ⟨_, _, _, hdone, fun hres => ?_⟩
    obtain ⟨ctx, hctx, -⟩ := hres []
    have hnone : authResolve (· ++ ·) (lit "Bearer " ++ makeToken (Vector.replicate 32 0)) cliConfig.globalTokenSalt
        cliConfig.adminTokenHash (reloaded (streamOf jsonPlain) ∅ (listingFor mcpAccount
          (some [recordName (lit "aaaaaaaa")])
          (created.exec jsonPlain (streamOf jsonPlain) (· ++ ·) exampleCli ∅).dir)) [] = none := by
      decide +kernel
    rw [hnone] at hctx
    cases hctx
  · cases h

end McpBridge.Users
