import McpBridge.Cron.Crontab
import McpBridge.Lib.Threads
/-!
# The cron tools (`tools/scheduling/cron_ops.cpp`)

`cron_create`, `cron_update` and `cron_delete` change the store, write or remove
the metadata of the job, and rebuild the crontab of the user from the jobs the
store then lists. The store is locked for each of its calls and the rest is not,
so a tool call is a list of steps between which other calls run. A step takes
what the outside answers to it: the clock, random bytes, and the outcomes of
system calls and processes. `attempt` is the body of a step; where it throws, a
`cron_create` goes on to take its job back, and the others return.
-/

open McpBridge.Lib McpBridge.Core

namespace McpBridge.Cron

/-- A tool and its arguments. -/
inductive Tool where
  | create (schedule command description contextId : Str)
  | update (jobId : Str) (schedule command description contextId : Option Str)
  | delete (jobId : Str)

def Tool.name : Tool → Str
  | .create .. => lit "cron_create"
  | .update .. => lit "cron_update"
  | .delete _ => lit "cron_delete"

/-- The schedule the tool was given, if any. -/
def Tool.schedule? : Tool → Option Str
  | .create schedule _ _ _ => some schedule
  | .update _ schedule _ _ _ => schedule
  | .delete _ => none

structure Request where
  ctx : RequestContext
  tool : Tool

structure ProcessResult where
  exitCode : Int := -1
  stderrStr : Str := []

/-- What the outside answers to a step. -/
structure Answer where
  now : Int64 := 0
  bufs : Vector (Vector UInt8 8) 4 := .replicate 4 (.replicate 8 0)
  replace : ReplaceOutcome := {}
  process : ProcessResult := { exitCode := 0 }
  /-- What `crontab -l` printed, where that is not the crontab. -/
  printed : Option Str := none

/-- The store, the metadata files by path, and the crontabs by user. -/
structure Shared where
  store : Store
  metas : Map Str Str := ∅
  crontabs : Map Str Str := ∅

/-- The crontab of a user; there is none before the first installation. -/
def Shared.crontab (s : Shared) (osUsername : Str) : Str := (s.crontabs.lookup osUsername).getD []

/-- The checks before the store is changed. -/
def Request.check (r : Request) : Except Str Unit :=
  if r.ctx.osUsername = [] then .error (r.tool.name ++ lit ": request has no bound os_username")
  else match r.tool.schedule? with
    | none => .ok ()
    | some schedule =>
      if validateSchedule schedule ≠ [] then .error (r.tool.name ++ lit ": " ++ validateSchedule schedule) else .ok ()

/-- The call of the store. -/
def Request.call (r : Request) (a : Answer) : Call :=
  match r.tool with
  | .create schedule command description contextId =>
    .add ⟨r.ctx.userId, r.ctx.osUsername, schedule, command, description, contextId, a.now, a.bufs⟩ a.replace
  | .update jobId schedule command description contextId =>
    .update ⟨jobId, r.ctx.osUsername, schedule, command, description, contextId, a.now⟩ a.replace
  | .delete jobId => .remove jobId r.ctx.osUsername a.replace

theorem Request.call_osUsername (r : Request) (a : Answer) : (r.call a).osUsername = r.ctx.osUsername := by
  obtain ⟨ctx, tool⟩ := r
  cases tool <;> rfl

/-- Where a call stands: the job is the one its change of the store returned. -/
inductive Op where
  | mutate (r : Request)
  | metadata (r : Request) (j : CronJob)
  | list (r : Request) (j : CronJob)
  | read (r : Request) (j : CronJob) (jobs : List CronJob)
  | write (r : Request) (j : CronJob) (jobs : List CronJob) (current : Str)
  | rollback (r : Request) (j : CronJob) (error : Str)

def Op.request : Op → Request
  | .mutate r | .metadata r _ | .list r _ | .read r _ _ | .write r _ _ _ | .rollback r _ _ => r

/-- Whose call it is. -/
def Op.user (l : Op) : Str := l.request.ctx.osUsername

section
variable (J : JsonText) (cfg : Config)

def metaPath (j : CronJob) : Str := cfg.usersStateDir ++ lit "/" ++ j.osUsername ++ lit "/crons/" ++ j.jobId ++ lit ".json"

def metaJson (j : CronJob) : Json :=
  .ofFields [(lit "job_id", .str j.jobId), (lit "user_id", .str j.userId), (lit "schedule", .str j.schedule),
    (lit "command", .str j.command), (lit "description", .str j.description), (lit "context_id", .str j.contextId)]

def writePerJobMeta (j : CronJob) (p : ProcessResult) (metas : Map Str Str) : Except Str Unit × Map Str Str :=
  match J.dump (some 2) (metaJson j) with
  | .error e => (.error e.what, metas)
  | .ok body =>
    if p.exitCode ≠ 0 then
      (.error (lit "write per-job meta " ++ metaPath cfg j ++ lit " exit=" ++ writeInt p.exitCode ++ lit " stderr=" ++
        p.stderrStr), metas)
    else (.ok (), metas.insert (metaPath cfg j) (body ++ lit "\n"))

/-- A removal that fails is logged. -/
def removePerJobMeta (j : CronJob) (p : ProcessResult) (metas : Map Str Str) : Map Str Str :=
  if p.exitCode ≠ 0 then metas else metas.erase (metaPath cfg j)

/-- Writes the text to a file of a random name and hands that to `crontab`. -/
def writeUserCrontab (osUsername text : Str) (a : Answer) (crontabs : Map Str Str) : Except Str Unit × Map Str Str :=
  let tmp := cfg.stateDir ++ lit "/.cron_pending_" ++ hexId a.bufs.head ++ lit ".txt"
  if !a.replace.opened then (.error (lit "open " ++ tmp ++ lit ": " ++ a.replace.strerror), crontabs)
  else if !a.replace.written then (.error (lit "write"), crontabs)
  else if a.process.exitCode ≠ 0 then
    (.error (lit "crontab install for " ++ osUsername ++ lit " exit=" ++ writeInt a.process.exitCode ++ lit " stderr=" ++
      a.process.stderrStr), crontabs)
  else (.ok (), crontabs.insert osUsername text)

/-- The body of a step: what it throws, or where the call goes on, with `none` where it returns. -/
def Op.attempt (s : Shared) : Op → Answer → Except Str (Option Op) × Shared
  | .mutate r, a =>
    match r.check with
    | .error e => (.error e, s)
    | .ok () =>
      match (r.call a).exec J cfg s.store with
      | (.error e, store) => (.error e, { s with store })
      | (.ok j, store) => (.ok (some (.metadata r j)), { s with store })
  | .metadata r j, a =>
    match r.tool with
    -- `remove_per_job_meta` never throws.
    | .delete _ => (.ok (some (.list r j)), { s with metas := removePerJobMeta cfg j a.process s.metas })
    | _ =>
      match writePerJobMeta J cfg j a.process s.metas with
      | (.error e, metas) => (.error e, { s with metas })
      | (.ok (), metas) => (.ok (some (.list r j)), { s with metas })
  | .list r j, _ => (.ok (some (.read r j (s.store.listForUser r.ctx.osUsername))), s)
  | .read r j jobs, a => (.ok (some (.write r j jobs (a.printed.getD (s.crontab r.ctx.osUsername)))), s)
  | .write r _ jobs current, a =>
    match writeUserCrontab cfg r.ctx.osUsername (buildCrontabText current jobs cfg.cronRunnerPath) a s.crontabs with
    | (.error e, crontabs) => (.error e, { s with crontabs })
    | (.ok (), crontabs) => (.ok none, { s with crontabs })
  -- The exception of the removal is swallowed, the first one thrown on.
  | .rollback r j e, a => (.error e, { s with store := (remove J cfg j.jobId r.ctx.osUsername a.replace s.store).2 })

/-- Where a call goes on when a step throws. -/
def Op.onThrow (e : Str) (l : Op) : Option Op :=
  match l.request.tool, l with
  | .create .., .metadata r j => some (.rollback r j e)
  | .create .., .list r j => some (.rollback r j e)
  | .create .., .read r j _ => some (.rollback r j e)
  | .create .., .write r j _ _ => some (.rollback r j e)
  | _, _ => none

def Op.step (s : Shared) (l : Op) (a : Answer) : Option (Shared × Option Op) :=
  match l.attempt J cfg s a with
  | (.ok l', s') => some (s', l')
  | (.error e, s') => some (s', l.onThrow e)

/-- The calls of clients. -/
def program : Program Shared Op Answer Empty where
  start _
    | .mutate _ => true
    | _ => false
  step := Op.step J cfg
  env _ e := nomatch e

end

end McpBridge.Cron
