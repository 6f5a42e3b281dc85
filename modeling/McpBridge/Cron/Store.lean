import McpBridge.Core.Common
import McpBridge.Lib.JsonStream
import McpBridge.Lib.Map
import McpBridge.Lib.Runs
/-!
# The cron store (`core/cron_store.cpp`)

The jobs are in memory and in `crons.json`. `add`, `update` and `remove` change
the map, write the file, and take the change back where that throws. `Store` is
both; a call takes the outcomes of its system calls, the clock and the random
bytes as arguments.
-/

open McpBridge.Lib McpBridge.Core

namespace McpBridge.Cron

structure CronJob where
  jobId : Str := []
  userId : Str
  osUsername : Str
  schedule : Str
  command : Str
  description : Str
  contextId : Str
  createdAt : Int64
  updatedAt : Int64
deriving DecidableEq

structure Store where
  jobs : Map Str CronJob
  file : Option Str

structure Config where
  stateDir : Str := lit "/var/lib/mcp_bridge/state"
  usersStateDir : Str := lit "/var/lib/mcp_bridge/users_state"
  cronRunnerPath : Str := lit "/usr/lib/mcp_bridge/mcp_bridge-cron-runner"
  pid : Nat

def makeJobid (buf : Vector UInt8 8) : Str := hexId buf

def validJobid (s : Str) : Bool := isHexId s

def isScheduleChar (c : UInt8) : Bool := isDigit c || c = ch '*' || c = ch '/' || c = ch ',' || c = ch '-'

/-- The loop of `validSchedule`: the fields so far, and whether the last one goes on. -/
def scheduleFields : Str → Nat → Bool → Option (Nat × Bool)
  | [], fieldCount, inField => some (fieldCount, inField)
  | c :: cs, fieldCount, inField =>
    if isBlank c then scheduleFields cs (if inField then fieldCount + 1 else fieldCount) false
    else if isScheduleChar c then scheduleFields cs fieldCount true
    else none

def validSchedule (s : Str) : Bool :=
  if s = [] ∨ 200 < s.length then false
  else match scheduleFields s 1 false with
    | some (fieldCount, inField) => fieldCount = 5 && inField
    | none => false

/-- Replaces the file at `path`. -/
def atomicWrite (pid : Nat) (path data : Str) (o : ReplaceOutcome) (file : Option Str) : Except Str Unit × Option Str :=
  if !o.opened then (.error (lit "open " ++ tmpOf pid path ++ lit ": " ++ o.strerror), file)
  else if !o.written then (.error (lit "write"), file)
  else if !o.synced then (.error (lit "fsync"), file)
  else if !o.renamed then (.error (lit "rename to " ++ path ++ lit ": " ++ o.strerror), file)
  else (.ok (), some data)

/-- One entry of `crons.json`. -/
def CronJob.toJson (c : CronJob) : Json :=
  .ofFields [(lit "job_id", .str c.jobId), (lit "user_id", .str c.userId), (lit "os_username", .str c.osUsername),
    (lit "schedule", .str c.schedule), (lit "command", .str c.command), (lit "description", .str c.description),
    (lit "context_id", .str c.contextId), (lit "created_at", .int c.createdAt.toInt), (lit "updated_at", .int c.updatedAt.toInt)]

def CronJob.ofJson (j : Json) : Except JsonError CronJob := do
  let jobId ← j.value Json.asStr (lit "job_id") []
  let userId ← j.value Json.asStr (lit "user_id") []
  let osUsername ← j.value Json.asStr (lit "os_username") []
  let schedule ← j.value Json.asStr (lit "schedule") []
  let command ← j.value Json.asStr (lit "command") []
  let description ← j.value Json.asStr (lit "description") []
  let contextId ← j.value Json.asStr (lit "context_id") []
  let createdAt ← j.value Json.asInt (lit "created_at") 0
  let updatedAt ← j.value Json.asInt (lit "updated_at") 0
  .ok { jobId, userId, osUsername, schedule, command, description, contextId, createdAt, updatedAt }

/-- The loop of `loadLocked`: what is not an object, or has no valid id, is skipped. -/
def loadEntries : List Json → Map Str CronJob → Except JsonError (Map Str CronJob)
  | [], jobs => .ok jobs
  | j :: rest, jobs =>
    if !j.isObject then loadEntries rest jobs
    else match CronJob.ofJson j with
      | .error e => .error e
      | .ok c => loadEntries rest (if validJobid c.jobId then jobs.insert c.jobId c else jobs)

section Store
variable (J : JsonText) (cfg : Config)

/-- The jobs in a file, on top of those already in memory. What the stream throws is
caught, and a file that is absent or holds no array adds none. -/
def loadLocked (stream : Str → Streamed) (file : Option Str) (jobs : Map Str CronJob) : Except JsonError (Map Str CronJob) :=
  match file with
  | none => .ok jobs
  | some text =>
    match stream text with
    | .value (.arr l) => loadEntries l jobs
    | _ => .ok jobs

def persistLocked (o : ReplaceOutcome) (st : Store) : Except Str Unit × Store :=
  match J.dump (some 2) (.arr (st.jobs.values.map CronJob.toJson)) with
  | .error e => (.error e.what, st)
  | .ok text =>
    let (r, file) := atomicWrite cfg.pid (cfg.stateDir ++ lit "/crons.json") (text ++ lit "\n") o st.file
    (r, { st with file })

/-- The arguments, the clock and the random bytes of an `add`; the id is drawn up to four times. -/
structure AddArgs where
  userId : Str
  osUsername : Str
  schedule : Str
  command : Str
  description : Str
  contextId : Str
  now : Int64
  bufs : Vector (Vector UInt8 8) 4

def add (a : AddArgs) (o : ReplaceOutcome) (st : Store) : Except Str CronJob × Store :=
  if !validSchedule a.schedule then (.error (lit "cron_store: invalid schedule"), st)
  else if a.command = [] then (.error (lit "cron_store: command must not be empty"), st)
  else match (a.bufs.toList.map makeJobid).find? fun id => (st.jobs.lookup id).isNone with
    | none => (.error (lit "cron_store: could not allocate job_id"), st)
    | some id =>
      let c : CronJob := ⟨id, a.userId, a.osUsername, a.schedule, a.command, a.description, a.contextId, a.now, a.now⟩
      match persistLocked J cfg o { st with jobs := st.jobs.insert id c } with
      | (.error e, st) => (.error e, { st with jobs := st.jobs.erase id })
      | (.ok (), st) => (.ok c, st)

/-- The arguments and the clock of an `update`. -/
structure UpdateArgs where
  jobId : Str
  osUsername : Str
  schedule : Option Str
  command : Option Str
  description : Option Str
  contextId : Option Str
  now : Int64

/-- The job with the supplied fields changed. -/
def UpdateArgs.apply (a : UpdateArgs) (c : CronJob) : CronJob :=
  { c with
    schedule := a.schedule.getD c.schedule
    command := a.command.getD c.command
    description := a.description.getD c.description
    contextId := a.contextId.getD c.contextId
    updatedAt := a.now }

def update (a : UpdateArgs) (o : ReplaceOutcome) (st : Store) : Except Str CronJob × Store :=
  if !validJobid a.jobId then (.error (lit "cron_store: invalid job_id"), st)
  else if a.schedule.any fun s => !validSchedule s then (.error (lit "cron_store: invalid schedule"), st)
  else if a.command = some [] then (.error (lit "cron_store: command must not be empty"), st)
  else match st.jobs.lookup a.jobId with
    | none => (.error (lit "cron_store: job_id not found"), st)
    | some prev =>
      if prev.osUsername ≠ a.osUsername then (.error (lit "cron_store: job_id does not belong to this user"), st)
      else match persistLocked J cfg o { st with jobs := st.jobs.insert a.jobId (a.apply prev) } with
        | (.error e, st) => (.error e, { st with jobs := st.jobs.insert a.jobId prev })
        | (.ok (), st) => (.ok (a.apply prev), st)

def remove (jobId osUsername : Str) (o : ReplaceOutcome) (st : Store) : Except Str CronJob × Store :=
  if !validJobid jobId then (.error (lit "cron_store: invalid job_id"), st)
  else match st.jobs.lookup jobId with
    | none => (.error (lit "cron_store: job_id not found"), st)
    | some removed =>
      if removed.osUsername ≠ osUsername then (.error (lit "cron_store: job_id does not belong to this user"), st)
      else match persistLocked J cfg o { st with jobs := st.jobs.erase jobId } with
        | (.error e, st) => (.error e, { st with jobs := st.jobs.insert removed.jobId removed })
        | (.ok (), st) => (.ok removed, st)

def Store.listForUser (st : Store) (osUsername : Str) : List CronJob :=
  st.jobs.values.filter (·.osUsername = osUsername)

end Store

end McpBridge.Cron
