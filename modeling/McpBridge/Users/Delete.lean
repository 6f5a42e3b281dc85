import Mathlib.Data.List.TakeWhile
import McpBridge.Users.Create
/-!
# `user_delete` and the account it removes (`tools/admin/user_ops.cpp`, `priv/main.c`)

The record is unlinked first; then the helper removes the account
`mcp_user_<shortid>` and its state directory. `userDelete` is about the record
alone; `deleteUser` is the whole call, with the programs that root ran for it.

The caller is compared with the shortid by its `user_id`, and the account is the
one of its `os_username`. They differ for the install admin only, and there the
call removes the account it runs under (`own_account_kept_iff`).
-/

open McpBridge.Lib McpBridge.Core McpBridge.Server McpBridge.Grants

namespace McpBridge.Users

/-! ## The helper -/

inductive Lstat where
  | found
  | enoent
  | failed

/-- What the system answers a helper: to the daemon that starts it and waits for
it, and to its own calls up to the program that it runs. -/
structure HelperAnswer where
  started : Bool := true
  exited : Bool := true
  root : Bool := true
  locked : Bool := true
  lstat : Lstat := .found
  spawned : Bool := true
  childExited : Bool := true
  exit : Int := 0

/-- The arguments of a program. -/
abbrev Argv := List Str

/-- `run`: the exit status, and the program where it was started. -/
def HelperAnswer.run (o : HelperAnswer) (argv : Argv) : Int × List Argv :=
  if !o.spawned then (-1, []) else (if o.childExited then o.exit else -1, [argv])

def usernameOf (shortid : Str) : Str := lit "mcp_user_" ++ shortid

def userdelArgv (username : Str) : Argv := [lit "userdel", lit "-r", username]

def cmdUserdel (args : List Str) (o : HelperAnswer) : Int × List Argv :=
  match args with
  | [shortid] =>
    if !validShortid shortid then (10, [])
    else if !o.locked then (11, [])
    else
      let (rc, ran) := o.run (userdelArgv (usernameOf shortid))
      -- 6: there is no such user.
      (if rc = 0 ∨ rc = 6 then 0 else 11, ran)
  | _ => (10, [])

def cmdCleanupUserState (args : List Str) (o : HelperAnswer) : Int × List Argv :=
  match args with
  | [shortid] =>
    if !validShortid shortid then (10, [])
    else match o.lstat with
    | .enoent => (0, [])
    | .failed => (11, [])
    | .found =>
      let (rc, ran) := o.run [lit "rm", lit "-rf", lit "--", lit "/var/lib/mcp_bridge/users_state/mcp_user_" ++ shortid]
      (if rc = 0 then 0 else 11, ran)
  | _ => (10, [])

/-- The subcommands `user_delete` starts the helper with. -/
inductive Subcommand where
  | userdel
  | cleanupUserState

/-- `main` of the helper. -/
def helperMain (sub : Subcommand) (args : List Str) (o : HelperAnswer) : Int × List Argv :=
  if !o.root then (11, [])
  else match sub with
  | .userdel => cmdUserdel args o
  | .cleanupUserState => cmdCleanupUserState args o

/-- The argument goes over as a C string. -/
def spawnHelper (sub : Subcommand) (shortid : Str) (o : HelperAnswer) : Int × List Argv :=
  if !o.started then (-1, [])
  else
    let (rc, ran) := helperMain sub [cstr shortid] o
    (if o.exited then rc else -1, ran)

/-! ## The call -/

structure DeleteAnswer where
  unlinked : Bool := true
  strerror : Str := []
  userdel : HelperAnswer := {}
  cleanup : HelperAnswer := {}
  names : Option (List Str)

/-- How a call ends: what it returns, what root ran for it, and the users it leaves. -/
structure Deletion where
  result : Except Str Json
  ran : List Argv
  users : UsersState

def shortidArg (args : Json) : Except Str Str := (do (← args.at_ (lit "shortid")).asStr).mapError JsonError.what

def deleteUser (stream : Str → Streamed) (ctx : RequestContext) (args : Json) (a : DeleteAnswer) (u : UsersState) : Deletion :=
  if !ctx.isAdmin then ⟨.error (lit "admin only"), [], u⟩
  else match shortidArg args with
  | .error e => ⟨.error e, [], u⟩
  | .ok shortid =>
    if !validShortid shortid then ⟨.error (lit "invalid shortid"), [], u⟩
    else if shortid = ctx.userId then ⟨.error (lit "refusing to delete the calling user"), [], u⟩
    else
      let existed := (u.dir.lookup (recordName shortid)).isSome
      if existed && !a.unlinked then ⟨.error (lit "unlink: " ++ a.strerror), [], u⟩
      else
        let dir := u.dir.erase (recordName shortid)
        let (rc, removed) := spawnHelper .userdel shortid a.userdel
        let (cleanupRc, cleaned) := spawnHelper .cleanupUserState shortid a.cleanup
        match loadAll stream (listing a.names dir) with
        | .error what => ⟨.error what, removed ++ cleaned, { u with dir }⟩
        | .ok byHash =>
          ⟨.ok (.ofFields [(lit "user_id", .str shortid), (lit "record_deleted", .bool existed),
            (lit "os_account_removed", .bool (rc = 0)), (lit "helper_exit", .int rc),
            (lit "state_dir_removed", .bool (cleanupRc = 0))]), removed ++ cleaned, ⟨dir, byHash⟩⟩

/-- The record of `shortid`, and the answers to the call, as `userDelete` has them. -/
def recordFile (shortid : Str) (u : UsersState) : Option Str := (u.dir.lookup (recordName shortid)).map (·.content.getD [])

def DeleteAnswer.forRecord (shortid : Str) (a : DeleteAnswer) : Answer :=
  { unlinked := a.unlinked, replace := { strerror := a.strerror }, userdelExit := (spawnHelper .userdel shortid a.userdel).1
    cleanupExit := (spawnHelper .cleanupUserState shortid a.cleanup).1 }

/-- Where the users are loaded again, the call does to the record what `userDelete` does. -/
theorem deleteUser_record {stream : Str → Streamed} {ctx : RequestContext} {args : Json} {a : DeleteAnswer} {u : UsersState}
    {shortid : Str} (harg : shortidArg args = .ok shortid)
    (hload : (loadAll stream (listing a.names (u.dir.erase (recordName shortid)))).isOk = true) :
    ((deleteUser stream ctx args a u).result, recordFile shortid (deleteUser stream ctx args a u).users) =
      userDelete shortid ctx (a.forRecord shortid) (recordFile shortid u) := by
  have hsome : (recordFile shortid u).isSome = (u.dir.lookup (recordName shortid)).isSome := by simp [recordFile]
  have hunlinked : (a.forRecord shortid).unlinked = a.unlinked := rfl
  unfold deleteUser userDelete
  rw [harg, hsome, hunlinked]
  split
  · rfl
  simp only
  split
  · rfl
  split
  · rfl
  split
  · rfl
  cases hm : loadAll stream (listing a.names (u.dir.erase (recordName shortid))) with
  | error e =>
    rw [hm] at hload
    cases hload
  | ok byHash =>
    refine Prod.ext rfl ?_
    simp [recordFile]

/-! ## What root runs -/

/-- Nothing keeps the helper from running `userdel`. -/
def HelperAnswer.reachesUserdel (o : HelperAnswer) : Bool := o.started && o.root && o.locked && o.spawned

theorem cstr_shortid {s : Str} (h : validShortid s = true) : cstr s = s := by
  rw [validShortid, Bool.and_eq_true, List.all_eq_true] at h
  unfold cstr
  rw [List.takeWhile_eq_self_iff]
  intro c hc
  have hchar := h.2 c hc
  rw [decide_eq_true_eq]
  rintro rfl
  revert hchar
  decide

theorem spawnHelper_userdel {shortid : Str} (h : validShortid shortid = true) (o : HelperAnswer) :
    (spawnHelper .userdel shortid o).2 = if o.reachesUserdel then [userdelArgv (usernameOf shortid)] else [] := by
  obtain ⟨started, exited, root, locked, lstat, spawned, childExited, exit⟩ := o
  cases started <;> cases root <;> cases locked <;> cases spawned <;>
    simp [spawnHelper, helperMain, cmdUserdel, HelperAnswer.run, HelperAnswer.reachesUserdel, cstr_shortid h, h]

theorem run_ran {o : HelperAnswer} {argv ran : Argv} (h : ran ∈ (o.run argv).2) : ran = argv := by
  unfold HelperAnswer.run at h
  split at h
  · cases h
  · exact List.mem_singleton.1 h

/-- The clean-up runs `rm`, and nothing else. -/
theorem cleanup_ran {shortid : Str} {o : HelperAnswer} {ran : Argv} (h : ran ∈ (spawnHelper .cleanupUserState shortid o).2) :
    ran.head? = some (lit "rm") := by
  unfold spawnHelper at h
  split at h
  · cases h
  simp only [helperMain] at h
  split at h
  · cases h
  simp only [cmdCleanupUserState] at h
  split at h
  · cases h
  split at h
  · cases h
  · cases h
  · rw [run_ran h]
    rfl

/-- The argument of a call that gets past its checks and the unlink. -/
structure Proceeds (ctx : RequestContext) (args : Json) (a : DeleteAnswer) (u : UsersState) (shortid : Str) : Prop where
  admin : ctx.isAdmin = true
  argument : shortidArg args = .ok shortid
  valid : validShortid shortid = true
  other : shortid ≠ ctx.userId
  unlinked : u.dir.lookup (recordName shortid) = none ∨ a.unlinked = true

theorem deleteUser_ran (stream : Str → Streamed) (ctx : RequestContext) (args : Json) (a : DeleteAnswer) (u : UsersState) :
    (deleteUser stream ctx args a u).ran = [] ∧ (∀ shortid, ¬ Proceeds ctx args a u shortid) ∨
      ∃ shortid, Proceeds ctx args a u shortid ∧ (deleteUser stream ctx args a u).ran =
        (spawnHelper .userdel shortid a.userdel).2 ++ (spawnHelper .cleanupUserState shortid a.cleanup).2 := by
  unfold deleteUser
  split
  · next hadmin => exact .inl ⟨rfl, fun _ h => by simp [h.admin] at hadmin⟩
  next hadmin =>
  split
  · next hargs => exact .inl ⟨rfl, fun _ h => by rw [h.argument] at hargs; cases hargs⟩
  next shortid hargs =>
  have heq : ∀ {s}, Proceeds ctx args a u s → s = shortid := fun h => Except.ok.inj (h.argument.symm.trans hargs)
  split
  · next hvalid => exact .inl ⟨rfl, fun _ h => by simp [← heq h, h.valid] at hvalid⟩
  next hvalid =>
  split
  · next hown => exact .inl ⟨rfl, fun _ h => h.other (heq h ▸ hown)⟩
  next hown =>
  simp only
  split
  · next hunlink =>
    refine .inl ⟨rfl, fun s h => ?_⟩
    rw [Bool.and_eq_true, Bool.not_eq_true', ← heq h] at hunlink
    rcases h.unlinked with hnone | hdone
    · simp [hnone] at hunlink
    · simp [hdone] at hunlink
  next hunlink =>
  refine .inr ⟨shortid, ⟨by simpa using hadmin, hargs, by simpa using hvalid, hown, ?_⟩, ?_⟩
  · cases hl : u.dir.lookup (recordName shortid) with
    | none => exact .inl rfl
    | some f =>
      rw [hl] at hunlink
      exact .inr (by simpa using hunlink)
  · split <;> rfl

/-- The accounts a call removes: the one of its argument, where nothing stops it. -/
theorem userdel_mem_iff (stream : Str → Streamed) (ctx : RequestContext) (args : Json) (a : DeleteAnswer) (u : UsersState) (name : Str) :
    userdelArgv name ∈ (deleteUser stream ctx args a u).ran ↔
      ∃ shortid, Proceeds ctx args a u shortid ∧ a.userdel.reachesUserdel = true ∧ name = usernameOf shortid := by
  rcases deleteUser_ran stream ctx args a u with ⟨hran, hnone⟩ | ⟨shortid, hproceeds, hran⟩
  · rw [hran]
    refine iff_of_false nofun ?_
    rintro ⟨shortid, h, -⟩
    exact hnone shortid h
  have hcleanup : userdelArgv name ∉ (spawnHelper .cleanupUserState shortid a.cleanup).2 := by
    intro h
    have hrm : lit "userdel" = lit "rm" := Option.some.inj (cleanup_ran h)
    exact absurd hrm (by decide)
  rw [hran, spawnHelper_userdel hproceeds.valid, List.mem_append, or_iff_left hcleanup]
  constructor
  · intro h
    split at h
    · next hreach => exact ⟨shortid, hproceeds, hreach, by simpa [userdelArgv] using h⟩
    · cases h
  · rintro ⟨s, h, hreach, rfl⟩
    have hs : s = shortid := Except.ok.inj (h.argument.symm.trans hproceeds.argument)
    rw [if_pos hreach, hs]
    exact List.mem_singleton.2 rfl

/-! ## The caller -/

/-- An identity is that of the record of its token, or the install admin's. -/
theorem authResolve_cases {hash : Str → Str → Str} {header salt adminTokenHash ip : Str} {users : Map Str UserRecord}
    {ctx : RequestContext} (h : authResolve hash header salt adminTokenHash users ip = some ctx) :
    (∃ r, users.lookup ctx.bearerHash = some r ∧ ctx.userId = r.userId ∧ ctx.osUsername = r.osUsername) ∨
      users.lookup ctx.bearerHash = none ∧ ctx.userId = lit "admin" ∧ ctx.osUsername = usernameOf (lit "mcpadmin") ∧
        ctx.isAdmin = true := by
  obtain ⟨token, -, h⟩ := Option.bind_eq_some_iff.1 h
  simp only at h
  split at h
  · next r hr =>
    cases h
    exact .inl ⟨r, hr, rfl, rfl⟩
  · next hr =>
    split at h
    · cases h
      exact .inr ⟨hr, rfl, rfl, rfl⟩
    · cases h

/-- The install admin deletes `mcpadmin`, and nothing stops it. -/
structure DeletesInstallAdmin (ctx : RequestContext) (args : Json) (a : DeleteAnswer) (u : UsersState) : Prop where
  installAdmin : u.byHash.lookup ctx.bearerHash = none
  argument : shortidArg args = .ok (lit "mcpadmin")
  unlinked : u.dir.lookup (recordName (lit "mcpadmin")) = none ∨ a.unlinked = true
  reaches : a.userdel.reachesUserdel = true

/-- Whoever calls, where the record of a user names the account of that user: the
caller's account is kept unless the install admin deletes `mcpadmin`. -/
theorem own_account_kept_iff (hash : Str → Str → Str) (stream : Str → Streamed) (cfg : CreateConfig) (header ip : Str)
    (u : UsersState) (ctx : RequestContext)
    (hctx : authResolve hash header cfg.globalTokenSalt cfg.adminTokenHash u.byHash ip = some ctx)
    (hrecord : ∀ r, u.byHash.lookup ctx.bearerHash = some r → r.osUsername = usernameOf r.userId) (args : Json) (a : DeleteAnswer) :
    userdelArgv ctx.osUsername ∉ (deleteUser stream ctx args a u).ran ↔ ¬ DeletesInstallAdmin ctx args a u := by
  rw [userdel_mem_iff, not_iff_not]
  rcases authResolve_cases hctx with ⟨r, hr, hid, hname⟩ | ⟨hnone, hid, hname, hadmin⟩
  · refine iff_of_false ?_ fun h => by rw [h.installAdmin] at hr; cases hr
    rintro ⟨shortid, h, -, heq⟩
    rw [hname, hrecord r hr] at heq
    exact h.other (hid ▸ (List.append_cancel_left heq).symm)
  · constructor
    · rintro ⟨shortid, h, hreach, heq⟩
      rw [hname] at heq
      have hs : lit "mcpadmin" = shortid := List.append_cancel_left heq
      exact ⟨hnone, hs ▸ h.argument, hs ▸ h.unlinked, hreach⟩
    · intro h
      refine ⟨lit "mcpadmin", ⟨hadmin, h.argument, by decide, ?_, h.unlinked⟩, h.reaches, hname⟩
      rw [hid]
      decide

def exampleDelete : CreateConfig := ⟨lit "/var/lib/mcp_bridge/users", lit "s", lit "sx"⟩

/-- The install admin, by its token. -/
def installAdminOf (ip : Str) : RequestContext := ⟨lit "admin", lit "mcp_user_mcpadmin", true, [], lit "sx", ip⟩

def deleteArgs (shortid : Str) : Json := .ofFields [(lit "shortid", .str shortid)]

def deletedBy (shortid : Str) : List Argv :=
  (deleteUser (streamOf jsonPlain) (installAdminOf []) (deleteArgs shortid) ⟨true, [], {}, {}, some []⟩ ⟨∅, ∅⟩).ran

/-- The account of another user is removed, and its own is kept. -/
theorem install_admin_kept : userdelArgv (lit "mcp_user_bbbbbbbb") ∈ deletedBy (lit "bbbbbbbb") ∧
    userdelArgv (installAdminOf []).osUsername ∉ deletedBy (lit "bbbbbbbb") := by
  refine ⟨by decide, (own_account_kept_iff (· ++ ·) (streamOf jsonPlain) exampleDelete (lit "Bearer x") [] ⟨∅, ∅⟩ (installAdminOf [])
    (by decide) nofun _ _).2 ?_⟩
  intro h
  have hother : lit "bbbbbbbb" = lit "mcpadmin" := Except.ok.inj h.argument
  exact absurd hother (by decide)

/-- The install admin's token is good for removing the account it runs under. -/
theorem install_admin_removed :
    authResolve (· ++ ·) (lit "Bearer x") exampleDelete.globalTokenSalt exampleDelete.adminTokenHash ∅ [] = some (installAdminOf []) ∧
      userdelArgv (installAdminOf []).osUsername ∈ deletedBy (lit "mcpadmin") := by
  constructor
  · decide
  · decide

end McpBridge.Users
