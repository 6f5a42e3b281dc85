import Mathlib.Data.List.Infix
import McpBridge.Lib.Guarded
import McpBridge.Grants.Helper
import McpBridge.Grants.Manager
import McpBridge.Priv.Decoding
/-!
# The commands of the helper (`priv/main.c`)

Each command is a program of system calls with the exit code as its result.
`helperMain` picks one by its name. The helper runs as root with the umask 0077;
what it runs are `useradd`, `userdel`, `visudo` and `rm`.

How long it waits for a lock or before it tries again is left out.
-/

open McpBridge.Lib
open McpBridge.Lib.Shell (cString)
open McpBridge.Grants (validShortid validGrantid specWellFormed prefixA wildcardTail)

namespace McpBridge.Priv

/-! ## The surroundings -/

/-- The directories of the helper, which are constants in it. The names on the way are plain,
and the sudoers directory and the others are apart. -/
structure Dirs where
  stateDir : AbsPath
  sudoersDir : AbsPath
  usersStateDir : AbsPath
  plain : ∀ c ∈ stateDir ++ sudoersDir ++ usersStateDir, Plain c
  apart : ¬ stateDir <+: sudoersDir ∧ ¬ usersStateDir <+: sudoersDir ∧ usersStateDir.dropLast ≠ sudoersDir ∧
    ¬ sudoersDir <+: stateDir

def mcpDirs : Dirs where
  stateDir := [lit "var", lit "lib", lit "mcp_bridge", lit "state"]
  sudoersDir := [lit "etc", lit "sudoers.d"]
  usersStateDir := [lit "var", lit "lib", lit "mcp_bridge", lit "users_state"]
  plain := by decide
  apart := by decide

/-- What the helper has run. -/
inductive Tool where
  | useradd (username : Str)
  | userdel (username : Str)
  | visudo (path : PathStr)
  | rm (path : PathStr)

abbrev Command := Prog Tool Int

/-- The content of the file a path leads to. -/
def contentAt (p : Process) (fs : Fs) (path : PathStr) : Option Str :=
  match (p.locate true fs path).2.toOption.bind fs.lookup with
  | some (.file _ content) => some content
  | _ => none

/-- `rm -rf` of a tree; where it fails, some nodes are spared. -/
def removeTree (q : AbsPath) (o : Outcome) (fs : Fs) : Fs :=
  fs.keep fun r _ => !q.isPrefixOf r || (o.exit ≠ 0 && o.spared.contains r)

/-- How a tool ends, and the tree it leaves. `visudo -cf` accepts a file by its content. The tools of the
account database change nothing in the tree the helper works on. -/
def tool (visudo : Str → Bool) (p : Process) : Tool → Outcome → Fs → (Int × Str) × Fs
  | .useradd _, o, fs => ((o.exit, o.output), fs)
  | .userdel _, o, fs => ((o.exit, o.output), fs)
  | .visudo path, o, fs =>
    ((if o.exit = 0 then (if (contentAt p fs path).any visudo then 0 else 1) else o.exit, o.output), fs)
  | .rm path, o, fs =>
    match p.entry fs path with
    | .ok q => ((o.exit, o.output), removeTree q o fs)
    | .error _ => ((o.exit, o.output), fs)

/-- `visudo` exits 0 for a file it accepts. -/
theorem tool_visudo {visudo : Str → Bool} {p : Process} {path : PathStr} {o : Outcome} {fs : Fs} {spec : Str}
    (hcontent : contentAt p fs path = some spec) (h : (tool visudo p (.visudo path) o fs).1.1 = 0) :
    visudo spec = true := by
  simp only [tool, hcontent, Option.any_some] at h
  by_contra hno
  by_cases hexit : o.exit = 0
  · simp [hexit, hno] at h
  · rw [if_neg hexit] at h
    exact hexit h

/-- The process of the helper, run by an account of the group `gid`. -/
def helperProcess (gid : Nat) : Process where
  uid := 0
  gid := gid
  umask := 0o077
  cwd := []

theorem helperProcess_uid (gid : Nat) : (helperProcess gid).uid = 0 := rfl

/-! ## Accounts -/

def username (shortid : Str) : Str := lit "mcp_user_" ++ shortid

/-- A file in a directory. -/
def inDir (d : AbsPath) (name : Str) : PathStr := ⟨true, d ++ [name], false⟩

/-- The files shadow-utils lock. -/
def lockFiles : List PathStr :=
  [lit "passwd.lock", lit "shadow.lock", lit "group.lock", lit "gshadow.lock", lit ".pwd.lock"].map (inDir [lit "etc"])

/-- One more attempt at `useradd` while the account database seems to be locked. -/
def useraddAttempts (user : Str) : Nat → Command
  | 0 => .done 11
  | n + 1 => .ask (.spawn (.useradd user)) fun (rc, output) =>
    let err := cString (output.take 2047)
    let msgLooksLikeLock := decide (lit "cannot lock" <:+: err) || decide (lit "try again later" <:+: err)
    if rc = 0 then .done 0
    else if rc = 9 then .done 14
    else if rc = 1 then .ask (.locked lockFiles) fun locked =>
      if locked || msgLooksLikeLock then useraddAttempts user n else .done 11
    else .done 11

section
variable (D : Dirs)

/-- The lock that serializes the helpers. -/
def serialLock (k : Command) : Command :=
  .ask (.openCreate (inDir D.stateDir (lit "passwd_db.serial.lock")) 0o600) fun
  | .error _ => .done 11
  | .ok fd => .ask (.flock fd) fun
    | false => .done 11
    | true => k

def cmdUseradd : List Str → Command
  | [shortid] => if !validShortid shortid then .done 10 else serialLock D (useraddAttempts (username shortid) 60)
  | _ => .done 10

def cmdUserdel : List Str → Command
  | [shortid] =>
    if !validShortid shortid then .done 10
    else serialLock D (.ask (.spawn (.userdel (username shortid))) fun (rc, _) =>
      if rc = 0 ∨ rc = 6 then .done 0 else .done 11)
  | _ => .done 10

/-! ## Grants -/

/-- The loop around `write`. -/
def writeLoop (fd : AbsPath) (data : Str) (failed written : Command) : Nat → Nat → Command
  | 0, _ => written
  | fuel + 1, off =>
    if off < data.length then .ask (.pwrite fd off (data.drop off)) fun
      | .error _ => failed
      | .ok w => writeLoop fd data failed written fuel (off + w)
    else written

/-- Takes the staged file away. -/
def discard (tmp : Str) (rc : Int) : Command := .ask (.unlink (inDir D.sudoersDir tmp)) fun _ => .done rc

/-- Has the staged file checked, and renames it into place. -/
def commit (fd : AbsPath) (tmp final : Str) : Command :=
  .ask (.fsync fd) fun
  | .error _ => discard D tmp 11
  | .ok _ => .ask (.chown (inDir D.sudoersDir tmp) 0 0) fun
    | .error _ => discard D tmp 11
    | .ok _ => .ask (.spawn (.visudo (inDir D.sudoersDir tmp))) fun (rc, _) =>
      if rc ≠ 0 then discard D tmp 13
      else .ask (.sys (.rename (inDir D.sudoersDir tmp) (inDir D.sudoersDir final))) fun
        | .error _ => discard D tmp 11
        | .ok _ => .done 0

/-- Stages a spec, and puts it into place. -/
def stage (tmp final spec : Str) : Command :=
  .ask (.openTrunc (inDir D.sudoersDir tmp) 0o440) fun
  | .error _ => .done 11
  | .ok fd => writeLoop fd spec (discard D tmp 11) (commit D fd tmp final) spec.length 0

def grantTmp (grantid : Str) : Str := lit ".mcp_grant_" ++ grantid ++ lit ".tmp"

def grantFinal (grantid : Str) : Str := lit "mcp_grant_" ++ grantid

/-- The spec file of a grant, which the daemon wrote. -/
def specPath (grantid : Str) : PathStr := inDir D.stateDir (lit "grant_" ++ grantid ++ lit ".spec")

def cmdInstallGrant : List Str → Command
  | [grantid] =>
    if !validGrantid grantid then .done 10
    else .ask (.openRead (specPath D grantid)) fun
    | .error _ => .done 11
    | .ok fd => .ask (.fstat fd) fun
      | .error _ => .done 13
      | .ok st =>
        if !st.regular || 4096 < st.size then .done 13
        else .ask (.read fd 4096) fun
        | .error _ => .done 13
        | .ok buf =>
          if buf = [] then .done 13
          else if !specWellFormed buf then .done 13
          else .ask (.access (inDir D.sudoersDir (grantFinal grantid))) fun
          | .ok _ => .done 14
          | .error _ => stage D (grantTmp grantid) (grantFinal grantid) buf
  | _ => .done 10

/-- `unlink`; what is not there is removed already. -/
def unlinkIdempotent (path : PathStr) : Command :=
  .ask (.unlink path) fun
  | .ok _ | .error .noent => .done 0
  | .error _ => .done 11

def cmdRevokeGrant : List Str → Command
  | [grantid] =>
    if !validGrantid grantid then .done 10 else unlinkIdempotent (inDir D.sudoersDir (grantFinal grantid))
  | _ => .done 10

def cmdInstallSystemAdmin : List Str → Command
  | [shortid] =>
    if !validShortid shortid then .done 10
    else
      let spec := prefixA ++ shortid ++ wildcardTail
      if 64 ≤ spec.length then .done 11
      else if !specWellFormed spec then .done 13
      else stage D (lit ".mcp_system_admin.tmp") (lit "mcp_system_admin") spec
  | _ => .done 10

def cmdRevokeSystemAdmin : List Str → Command
  | [] => unlinkIdempotent (inDir D.sudoersDir (lit "mcp_system_admin"))
  | _ => .done 10

/-! ## State directories -/

/-- `chown` and `chmod` -/
def handOver (path : PathStr) (uid gid : Nat) (mode : BitVec 12) (k : Command) : Command :=
  .ask (.chown path uid gid) fun
  | .error _ => .done 11
  | .ok _ => .ask (.sys (.chmod path mode)) fun
    | .error _ => .done 11
    | .ok _ => k

/-- `mkdir`, `chown` and `chmod`; a name that is taken is no error. -/
def ensureOwnedDir (path : PathStr) (uid gid : Nat) (mode : BitVec 12) (k : Command) : Command :=
  .ask (.sys (.mkdir path mode)) fun
  | .ok _ | .error .exist => handOver path uid gid mode k
  | .error _ => .done 11

def userDir (shortid : Str) : AbsPath := D.usersStateDir ++ [username shortid]

def cmdPrepareUserState : List Str → Command
  | [shortid] =>
    if !validShortid shortid then .done 10
    else .ask (.getpwnam (username shortid)) fun
    | none => .done 12
    | some (uid, gid) => .ask (.sys (.mkdir ⟨true, D.usersStateDir, false⟩ 0o755)) fun
      | .ok _ | .error .exist => ensureOwnedDir (inDir D.usersStateDir (username shortid)) uid gid 0o700
        (ensureOwnedDir (inDir (userDir D shortid) (lit "crons")) uid gid 0o700 (.done 0))
      | .error _ => .done 11
  | _ => .done 10

def cmdCleanupUserState : List Str → Command
  | [shortid] =>
    if !validShortid shortid then .done 10
    else .ask (.lstat (inDir D.usersStateDir (username shortid))) fun
    | .ok _ => .ask (.spawn (.rm (inDir D.usersStateDir (username shortid)))) fun (rc, _) =>
      if rc = 0 then .done 0 else .done 11
    | .error .noent => .done 0
    | .error _ => .done 11
  | _ => .done 10

def runtimeFile : Str := lit "runtime.json"

def runtimeTmp : Str := lit "runtime.json.tmp"

def dropRuntime (dir : AbsPath) : Command := .ask (.unlink (inDir dir runtimeTmp)) fun _ => .done 11

/-- Gives the temporary file to the user, and renames it into place. -/
def giveRuntime (dir : AbsPath) (uid gid : Nat) : Command :=
  .ask (.chown (inDir dir runtimeTmp) uid gid) fun
  | .error _ => dropRuntime dir
  | .ok _ => .ask (.sys (.chmod (inDir dir runtimeTmp) 0o600)) fun
    | .error _ => dropRuntime dir
    | .ok _ => .ask (.sys (.rename (inDir dir runtimeTmp) (inDir dir runtimeFile))) fun
      | .error _ => dropRuntime dir
      | .ok _ => .done 0

/-- Writes the bytes to a file of the user, by way of a temporary file. -/
def installRuntime (dir : AbsPath) (uid gid : Nat) (data : Str) : Command :=
  .ask (.openTrunc (inDir dir runtimeTmp) 0o600) fun
  | .error _ => .done 11
  | .ok fd => writeLoop fd data (dropRuntime dir)
    (.ask (.fsync fd) fun
    | .error _ => dropRuntime dir
    | .ok _ => giveRuntime dir uid gid)
    data.length 0

/-- What `base64_decode` leaves in a buffer of 4096 bytes. -/
def decodedArgument (b64 : Str) : Option Str :=
  match base64Decode b64 (List.replicate 4096 0) with
  | some (n, dst) => if n < 0 then none else some (dst.take n.toNat)
  | none => none

def cmdWriteRuntime : List Str → Command
  | [shortid, b64] =>
    if !validShortid shortid || b64 = [] then .done 10
    else .ask (.getpwnam (username shortid)) fun
    | none => .done 12
    | some (uid, gid) => ensureOwnedDir (inDir D.usersStateDir (username shortid)) uid gid 0o700
      (match decodedArgument b64 with
      | none => .done 11
      | some data => installRuntime (userDir D shortid) uid gid data)
  | _ => .done 10

/-- The arguments after the name of the program. -/
def helperMain : List Str → Command
  | [] => .done 10
  | sub :: args => .ask (.setuid 0) fun
    | .error _ => .done 11
    | .ok _ =>
      if sub = lit "useradd" then cmdUseradd D args
      else if sub = lit "userdel" then cmdUserdel D args
      else if sub = lit "install-grant" then cmdInstallGrant D args
      else if sub = lit "revoke-grant" then cmdRevokeGrant D args
      else if sub = lit "install-system-admin" then cmdInstallSystemAdmin D args
      else if sub = lit "revoke-system-admin" then cmdRevokeSystemAdmin D args
      else if sub = lit "prepare-user-state" then cmdPrepareUserState D args
      else if sub = lit "cleanup-user-state" then cmdCleanupUserState D args
      else if sub = lit "write-runtime" then cmdWriteRuntime D args
      else .done 10

theorem helperMain_installGrant (args : List Str) : helperMain D (lit "install-grant" :: args) = .ask (.setuid 0) fun
    | .error _ => .done 11
    | .ok _ => cmdInstallGrant D args := rfl

theorem helperMain_writeRuntime (args : List Str) : helperMain D (lit "write-runtime" :: args) = .ask (.setuid 0) fun
    | .error _ => .done 11
    | .ok _ => cmdWriteRuntime D args := rfl

end

end McpBridge.Priv
