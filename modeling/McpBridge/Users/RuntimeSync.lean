import McpBridge.Cron.Tools
import McpBridge.Users.Store
/-!
# The runtime files of the users (`core/runtime_sync.cpp`)

`write_for_user` writes the webhook settings into the state directory of a user,
by way of the helper or of a shell that runs as the user. `write_all` does it for
every record of `users_dir`: what it cannot open or read it passes over, and a
user whose file cannot be written it counts as a failure. A user name that is not
a string throws out of the loop.
-/

open McpBridge.Lib McpBridge.Core

namespace McpBridge.Users

structure RuntimeConfig where
  usersStateDir : Str := lit "/var/lib/mcp_bridge/users_state"
  helperPath : Str := lit "/usr/lib/mcp_bridge/mcp_bridge-priv"
  webhookUrl : Str := []
  webhookSecretToken : Str := []

/-- Three bytes as four characters of six bits; a group that is not full is padded. -/
def base64Encode : Str → Str
  | [] => []
  | [a] =>
    let v := a.toNat * 0x10000
    [pick (v / 0x40000), pick (v / 0x1000), ch '=', ch '=']
  | [a, b] =>
    let v := a.toNat * 0x10000 + b.toNat * 0x100
    [pick (v / 0x40000), pick (v / 0x1000), pick (v / 0x40), ch '=']
  | a :: b :: c :: rest =>
    let v := a.toNat * 0x10000 + b.toNat * 0x100 + c.toNat
    pick (v / 0x40000) :: pick (v / 0x1000) :: pick (v / 0x40) :: pick v :: base64Encode rest
where
  pick (i : Nat) : UInt8 := (lit "ABCDEFGHIJKLMNOPQRSTUVWXYZabcdefghijklmnopqrstuvwxyz0123456789+/").getD (i % 64) 0

/-- What is run to write the file. -/
inductive RuntimeWrite where
  | helper (shortid b64 : Str)
  | shell (osUsername cmd : Str)

section
variable (J : JsonText) (cfg : RuntimeConfig)

def runtimeWrite (osUsername : Str) : Except Str RuntimeWrite :=
  if osUsername = [] ∨ ch '/' ∈ osUsername then .error (lit "runtime_sync: invalid os_username")
  else
    match J.dump (some 2) (.ofFields [(lit "webhook_url", .str cfg.webhookUrl),
        (lit "webhook_secret_token", .str cfg.webhookSecretToken)]) with
    | .error e => .error e.what
    | .ok body =>
      let b64 := base64Encode (body ++ lit "\n")
      let pre := lit "mcp_user_"
      if cfg.helperPath ≠ [] ∧ pre.isPrefixOf osUsername ∧ osUsername.length = pre.length + 8 then
        .ok (.helper (osUsername.drop pre.length) b64)
      else
        let runtimePath := cfg.usersStateDir ++ lit "/" ++ osUsername ++ lit "/runtime.json"
        let tmpPath := runtimePath ++ lit ".tmp"
        .ok (.shell osUsername (lit "umask 077 && printf '%s' '" ++ b64 ++ lit "' | base64 -d > '" ++ tmpPath ++
          lit "' && chmod 600 '" ++ tmpPath ++ lit "' && mv '" ++ tmpPath ++ lit "' '" ++ runtimePath ++ lit "'"))

/-- `answer` is how the helper or the shell ends. -/
def writeForUser (answer : RuntimeWrite → Cron.ProcessResult) (osUsername : Str) : Except Str Unit :=
  match runtimeWrite J cfg osUsername with
  | .error e => .error e
  | .ok w =>
    let r := answer w
    if r.exitCode = 0 then .ok ()
    else .error (match w with
      | .helper .. => lit "runtime_sync: write for " ++ osUsername ++ lit " failed (helper_exit=" ++ writeInt r.exitCode ++ lit ")"
      | .shell .. => lit "runtime_sync: write for " ++ osUsername ++ lit " exit=" ++ writeInt r.exitCode ++ lit " stderr=" ++ r.stderrStr)

end

/-! ## All users -/

/-- What `write_all` has done so far. -/
structure Sync where
  attempted : List Str := []
  ok : Nat := 0
  failed : Nat := 0
  warnings : List Str := []

def Sync.attempt (write : Str → Except Str Unit) (osUser : Str) (s : Sync) : Sync :=
  match write osUser with
  | .ok () => { s with attempted := s.attempted ++ [osUser], ok := s.ok + 1 }
  | .error what =>
    { s with
      attempted := s.attempted ++ [osUser]
      failed := s.failed + 1
      warnings := s.warnings ++ [lit "runtime_sync: " ++ osUser ++ lit " failed: " ++ what] }

section
variable (stream : Str → Streamed) (write : Str → Except Str Unit)

/-- The document in a file, where it can be opened and read. -/
def DirEntry.document (e : DirEntry) : Option Json :=
  match e.content.map stream with
  | some (.value doc) => some doc
  | _ => none

/-- The loop over the entries; what it has done where it throws. -/
def writeAllEntries : List DirEntry → Sync → Except JsonError Unit × Sync
  | [], s => (.ok (), s)
  | e :: es, s =>
    if !endsWithJson e.name then writeAllEntries es s
    else match e.document stream with
      | none => writeAllEntries es s
      | some doc =>
        if !doc.isObject then writeAllEntries es s
        else match doc.value Json.asStr (lit "os_username") [] with
          | .error err => (.error err, s)
          | .ok osUser => if osUser = [] then writeAllEntries es s else writeAllEntries es (s.attempt write osUser)

def writeAll (dir : Directory) : Except JsonError Unit × Sync :=
  match dir with
  | none => (.ok (), { warnings := [lit "runtime_sync: cannot open users_dir"] })
  | some es => writeAllEntries stream write es {}

/-! ## Who is attempted -/

/-- The user name in the object of a record file. -/
def DirEntry.osUsername (e : DirEntry) : Option Json :=
  if endsWithJson e.name then (e.document stream).bind fun doc => doc.get? (lit "os_username") else none

/-- The user of a record file: a user name that is a string and not empty. -/
def DirEntry.osUser (e : DirEntry) : Option Str :=
  match e.osUsername stream with
  | some (.str osUser) => if osUser = [] then none else some osUser
  | _ => none

/-- The file has a user name that is not a string. -/
def DirEntry.mistyped (e : DirEntry) : Bool :=
  match e.osUsername stream with
  | some (.str _) | none => false
  | some _ => true

theorem writeAllEntries_mistyped {e : DirEntry} (h : e.mistyped stream = true) (es : List DirEntry) (s : Sync) :
    ∃ err, writeAllEntries stream write (e :: es) s = (.error err, s) := by
  unfold DirEntry.mistyped DirEntry.osUsername at h
  rw [writeAllEntries]
  cases hn : endsWithJson e.name with
  | false => simp [hn] at h
  | true =>
    cases hd : e.document stream with
    | none => simp [hn, hd] at h
    | some doc =>
      rw [hn, hd] at h
      cases doc with
      | obj l =>
        simp only [if_true, Option.bind_some] at h
        simp only [Bool.not_true, Bool.false_eq_true, if_false, Json.isObject, Json.value, if_true]
        cases hv : (Json.obj l).get? (lit "os_username") with
        | none => simp [hv] at h
        | some v =>
          rw [hv] at h
          cases v with
          | str s => cases h
          | _ => exact ⟨_, rfl⟩
      | _ => simp [Json.get?] at h

theorem writeAllEntries_step {e : DirEntry} (h : e.mistyped stream = false) (es : List DirEntry) (s : Sync) :
    writeAllEntries stream write (e :: es) s = writeAllEntries stream write es (match e.osUser stream with
      | none => s
      | some osUser => s.attempt write osUser) := by
  unfold DirEntry.mistyped DirEntry.osUsername at h
  unfold DirEntry.osUser DirEntry.osUsername
  rw [writeAllEntries]
  cases hn : endsWithJson e.name with
  | false => simp
  | true =>
    cases hd : e.document stream with
    | none => simp
    | some doc =>
      rw [hn, hd] at h
      cases doc with
      | obj l =>
        simp only [if_true, Option.bind_some] at h
        simp only [Bool.not_true, Bool.false_eq_true, if_false, Json.isObject, Json.value, if_true, Option.bind_some]
        cases hv : (Json.obj l).get? (lit "os_username") with
        | none => simp
        | some v =>
          rw [hv] at h
          cases v with
          | str u => by_cases hu : u = [] <;> simp [Json.asStr, hu]
          | _ => cases h
      | _ => simp [Json.isObject, Json.get?]

theorem attempt_attempted (osUser : Str) (s : Sync) : (s.attempt write osUser).attempted = s.attempted ++ [osUser] := by
  unfold Sync.attempt
  split <;> rfl

/-- The users before the first file with a user name that is not a string. -/
theorem writeAllEntries_attempted (es : List DirEntry) (s : Sync) :
    (writeAllEntries stream write es s).2.attempted =
      s.attempted ++ (es.takeWhile fun e => !e.mistyped stream).filterMap (·.osUser stream) := by
  induction es generalizing s with
  | nil => simp [writeAllEntries]
  | cons e es ih =>
    cases hm : e.mistyped stream with
    | true =>
      obtain ⟨err, heq⟩ := writeAllEntries_mistyped stream write hm es s
      simp [heq, hm]
    | false =>
      rw [writeAllEntries_step stream write hm, ih]
      simp only [List.takeWhile_cons, hm, Bool.not_false, if_true, List.filterMap_cons]
      cases e.osUser stream with
      | none => rfl
      | some osUser => simp [attempt_attempted]

/-- Every user is attempted iff none is in a file after one whose user name is not a string. -/
theorem attempts_all_iff (es : List DirEntry) :
    (writeAllEntries stream write es {}).2.attempted = es.filterMap (·.osUser stream) ↔
      ∀ e ∈ es.dropWhile (fun e => !e.mistyped stream), e.osUser stream = none := by
  have hsplit : es.filterMap (·.osUser stream) = (es.takeWhile fun e => !e.mistyped stream).filterMap (·.osUser stream) ++
      (es.dropWhile fun e => !e.mistyped stream).filterMap (·.osUser stream) := by
    rw [← List.filterMap_append, List.takeWhile_append_dropWhile]
  rw [writeAllEntries_attempted, hsplit, List.nil_append, List.self_eq_append_right]
  exact List.filterMap_eq_nil_iff

end

end McpBridge.Users
