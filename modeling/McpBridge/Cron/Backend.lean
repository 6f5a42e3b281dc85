import McpBridge.Cron.Tools
import McpBridge.Cron.Schtasks
import McpBridge.Grants.Template
/-!
# The cron tools over a platform backend (`tools/scheduling/cron_backend.hpp`)

A cron tool changes the store and then makes two calls of the backend, which
installs the schedule of the user: on Linux by way of `crontab`, on Windows by
way of the privileged service. Each of the calls can throw. `runTool` is a whole
tool call; on Linux it is a run of the steps of `Cron.Tools`
(`runTool_is_run`).
-/

open McpBridge.Lib McpBridge.Core

namespace McpBridge.Cron

/-- A backend over a state of its own; what its system calls answer is part of it. -/
structure Backend (S : Type) where
  validateSchedule : Str → Str
  writePerJobMeta : CronJob → S → Except Str Unit × S
  removePerJobMeta : CronJob → S → Except Str Unit × S
  rebuildUserSchedule : Str → List CronJob → S → Except Str Unit × S

/-! ## Linux -/

/-- The metadata files and the crontabs. -/
structure LinuxState where
  metas : Map Str Str := ∅
  crontabs : Map Str Str := ∅

/-- What the processes and system calls of one tool call answer. -/
structure LinuxOutcome where
  metadata : Answer := {}
  read : Answer := {}
  write : Answer := {}

def linuxBackend (J : JsonText) (cfg : Config) (o : LinuxOutcome) : Backend LinuxState where
  validateSchedule := validateSchedule
  writePerJobMeta j s :=
    let (r, metas) := Cron.writePerJobMeta J cfg j o.metadata.process s.metas
    (r, { s with metas })
  removePerJobMeta j s := (.ok (), { s with metas := Cron.removePerJobMeta cfg j o.metadata.process s.metas })
  rebuildUserSchedule osUsername jobs s :=
    let current := o.read.printed.getD ((s.crontabs.lookup osUsername).getD [])
    let fresh := buildCrontabText current jobs cfg.cronRunnerPath
    let (r, crontabs) := writeUserCrontab cfg osUsername fresh o.write s.crontabs
    (r, { s with crontabs })

/-! ## Windows -/

namespace Windows

/-- `priv_client::call` on the state of the other side; it throws where the request cannot be dumped. -/
abbrev PrivCall (P : Type) := Json → P → Except Str Json × P

def shortidFromUsername (osUsername : Str) : Str :=
  let pre := lit "mcp_user_"
  if osUsername.length ≠ pre.length + 8 then []
  else if !pre.isPrefixOf osUsername then []
  else
    let id := osUsername.drop pre.length
    if id.all Grants.isShortidChar then id else []

def shortidOf (osUsername : Str) : Except Str Str :=
  let s := shortidFromUsername osUsername
  if s = [] then .error (lit "cron: os_username '" ++ osUsername ++ lit "' is not 'mcp_user_<shortid>'") else .ok s

/-- Throws what the service said went wrong. -/
def checkOk (resp : Json) (what : Str) : Except Str Unit :=
  match resp.value Json.asBool (lit "ok") false with
  | .error e => .error e.what
  | .ok true => .ok ()
  | .ok false =>
    match resp.value Json.asStr (lit "error") (lit "priv call failed") with
    | .error e => .error e.what
    | .ok msg => .error (what ++ lit ": " ++ msg)

/-- A refusal that is only logged; the reply is read all the same. -/
def warnUnlessOk (resp : Json) : Except Str Unit :=
  match resp.value Json.asBool (lit "ok") false with
  | .error e => .error e.what
  | .ok true => .ok ()
  | .ok false =>
    match resp.value Json.asStr (lit "error") (lit "(no error string)") with
    | .error e => .error e.what
    | .ok _ => .ok ()

section
variable {P : Type} (call : PrivCall P)

/-- A call whose reply is checked. -/
def callAnd (check : Json → Except Str Unit) (req : Json) (p : P) : Except Str Unit × P :=
  match call req p with
  | (.error e, p) => (.error e, p)
  | (.ok resp, p) => (check resp, p)

def writePerJobMeta (j : CronJob) (p : P) : Except Str Unit × P :=
  match shortidOf j.osUsername with
  | .error e => (.error e, p)
  | .ok shortid =>
    callAnd call (checkOk · (lit "cron_write_meta")) (.ofFields [(lit "op", .str (lit "cron_write_meta")),
      (lit "shortid", .str shortid), (lit "job_id", .str j.jobId), (lit "content", metaJson j)]) p

def removePerJobMeta (j : CronJob) (p : P) : Except Str Unit × P :=
  match shortidOf j.osUsername with
  | .error e => (.error e, p)
  | .ok shortid =>
    callAnd call warnUnlessOk (.ofFields [(lit "op", .str (lit "cron_delete_meta")), (lit "shortid", .str shortid),
      (lit "job_id", .str j.jobId)]) p

/-- The ids of the tasks that are installed. -/
def onBox (resp : Json) : List Str :=
  match resp.get? (lit "job_ids") with
  | some (.arr l) => (l.filterMap fun v => match v with
    | .str s => some s
    | _ => none).dedup
  | _ => []

/-- The loop that installs the jobs. -/
def installJobs (shortid : Str) : List CronJob → P → Except Str Unit × P
  | [], p => (.ok (), p)
  | j :: jobs, p =>
    let tr := Schtasks.translate j.schedule
    if tr.error ≠ [] then (.error (lit "cron schedule '" ++ j.schedule ++ lit "': " ++ tr.error), p)
    else
      match callAnd call (checkOk · (lit "cron_install_job " ++ j.jobId)) (.ofFields [(lit "op", .str (lit "cron_install_job")),
        (lit "shortid", .str shortid), (lit "job_id", .str j.jobId), (lit "schedule", .str j.schedule),
        (lit "sched_args", .arr (tr.args.map .str))]) p with
      | (.error e, p) => (.error e, p)
      | (.ok (), p) => installJobs shortid jobs p

/-- The loop that removes the tasks no job is for. -/
def removeJobs (shortid : Str) (wanted : List Str) : List Str → P → Except Str Unit × P
  | [], p => (.ok (), p)
  | jid :: ids, p =>
    if wanted.contains jid then removeJobs shortid wanted ids p
    else
      match callAnd call warnUnlessOk (.ofFields [(lit "op", .str (lit "cron_remove_job")), (lit "shortid", .str shortid),
        (lit "job_id", .str jid)]) p with
      | (.error e, p) => (.error e, p)
      | (.ok (), p) => removeJobs shortid wanted ids p

def rebuildUserSchedule (osUsername : Str) (jobs : List CronJob) (p : P) : Except Str Unit × P :=
  match shortidOf osUsername with
  | .error e => (.error e, p)
  | .ok shortid =>
    match call (.ofFields [(lit "op", .str (lit "cron_list_jobs")), (lit "shortid", .str shortid)]) p with
    | (.error e, p) => (.error e, p)
    | (.ok resp, p) =>
      match checkOk resp (lit "cron_list_jobs") with
      | .error e => (.error e, p)
      | .ok () =>
        match installJobs call shortid jobs p with
        | (.error e, p) => (.error e, p)
        | (.ok (), p) => removeJobs call shortid (jobs.map (·.jobId)) (onBox resp) p

end

end Windows

def windowsBackend {P : Type} (call : Windows.PrivCall P) : Backend P where
  validateSchedule s := (Schtasks.translate s).error
  writePerJobMeta := Windows.writePerJobMeta call
  removePerJobMeta := Windows.removePerJobMeta call
  rebuildUserSchedule := Windows.rebuildUserSchedule call

/-! ## A tool call -/

def jobToJson (j : CronJob) : Json :=
  .ofFields [(lit "job_id", .str j.jobId), (lit "user_id", .str j.userId), (lit "schedule", .str j.schedule),
    (lit "command", .str j.command), (lit "description", .str j.description), (lit "context_id", .str j.contextId),
    (lit "created_at", .int j.createdAt.toInt), (lit "updated_at", .int j.updatedAt.toInt)]

def Tool.reply (j : CronJob) : Tool → Json
  | .delete _ => .ofFields [(lit "job_id", .str j.jobId), (lit "deleted", .bool true)]
  | _ => jobToJson j

section
variable (J : JsonText) (cfg : Config) {S : Type} (B : Backend S)

/-- The checks before the store is changed. -/
def Backend.check (r : Request) : Except Str Unit :=
  if r.ctx.osUsername = [] then .error (r.tool.name ++ lit ": request has no bound os_username")
  else match r.tool.schedule? with
    | none => .ok ()
    | some schedule =>
      if B.validateSchedule schedule ≠ [] then .error (r.tool.name ++ lit ": " ++ B.validateSchedule schedule) else .ok ()

/-- The two calls of the backend, for the job the store returned. -/
def Backend.apply (r : Request) (j : CronJob) (st : Store) (s : S) : Except Str Unit × S :=
  match (match r.tool with
    | .delete _ => B.removePerJobMeta j s
    | _ => B.writePerJobMeta j s) with
  | (.error e, s) => (.error e, s)
  | (.ok (), s) => B.rebuildUserSchedule r.ctx.osUsername (st.listForUser r.ctx.osUsername) s

/-- What is left of the store where the backend threw: only `cron_create` takes its job back. -/
def Request.recover (r : Request) (j : CronJob) (o : ReplaceOutcome) (st : Store) : Store :=
  match r.tool with
  | .create .. => (remove J cfg j.jobId r.ctx.osUsername o st).2
  | _ => st

/-- A whole call of a tool; `a` answers the store, and `o` the removal of a job that is taken back. -/
def runTool (r : Request) (a : Answer) (o : ReplaceOutcome) (st : Store) (s : S) : Except Str Json × Store × S :=
  match B.check r with
  | .error e => (.error e, st, s)
  | .ok () =>
    match (r.call a).exec J cfg st with
    | (.error e, st) => (.error e, st, s)
    | (.ok j, st) =>
      match B.apply r j st s with
      | (.error e, s) => (.error e, r.recover J cfg j o st, s)
      | (.ok (), s) => (.ok (r.tool.reply j), st, s)

end

/-! ## On Linux -/

section
variable (J : JsonText) (cfg : Config)

/-- A call that no other call interrupts. -/
def alone : Shared × Option Op → Answer → Option (Shared × Option Op)
  | (s, some l), a => l.step J cfg s a
  | (_, none), _ => none

/-- The steps of a call lead from one point to another. -/
def Leads (p q : Shared × Option Op) : Prop := ∃ answers, run (alone J cfg) p answers = some q

variable {J cfg}

theorem Leads.refl (p : Shared × Option Op) : Leads J cfg p p := ⟨[], rfl⟩

theorem Leads.step {s : Shared} {l : Op} {a : Answer} {p q : Shared × Option Op} (h : l.step J cfg s a = some p)
    (hp : Leads J cfg p q) : Leads J cfg (s, some l) q := by
  obtain ⟨answers, hr⟩ := hp
  exact ⟨a :: answers, run_cons.2 ⟨p, h, hr⟩⟩

/-- Once a step threw, the call takes its job back if it is a `cron_create`, and returns. -/
theorem Leads.thrown (r : Request) (j : CronJob) (e : Str) (o : ReplaceOutcome) (s : Shared) {l : Op}
    (hl : l = .metadata r j ∨ ∃ jobs current, l = .write r j jobs current) :
    Leads J cfg (s, l.onThrow e) ({ s with store := r.recover J cfg j o s.store }, none) := by
  obtain ⟨ctx, tool⟩ := r
  cases tool with
  | create schedule command description contextId =>
    have hthrow : l.onThrow e = some (.rollback ⟨ctx, .create schedule command description contextId⟩ j e) := by
      obtain rfl | ⟨jobs, current, rfl⟩ := hl <;> rfl
    rw [hthrow]
    exact .step (a := { replace := o }) rfl (.refl _)
  | update jobId schedule command description contextId =>
    have hthrow : l.onThrow e = none := by obtain rfl | ⟨jobs, current, rfl⟩ := hl <;> rfl
    rw [hthrow]
    exact .refl _
  | delete jobId =>
    have hthrow : l.onThrow e = none := by obtain rfl | ⟨jobs, current, rfl⟩ := hl <;> rfl
    rw [hthrow]
    exact .refl _

/-- What is left of the store when the backend answered `res`. -/
def Request.settle (J : JsonText) (cfg : Config) (r : Request) (j : CronJob) (o : ReplaceOutcome) (res : Except Str Unit)
    (st : Store) : Store :=
  match res with
  | .ok () => st
  | .error _ => r.recover J cfg j o st

/-- The steps that rebuild the crontab. -/
theorem Leads.rebuild (lo : LinuxOutcome) (r : Request) (j : CronJob) (o : ReplaceOutcome) (st : Store) (s : LinuxState) :
    let t := (linuxBackend J cfg lo).rebuildUserSchedule r.ctx.osUsername (st.listForUser r.ctx.osUsername) s
    Leads J cfg (⟨st, s.metas, s.crontabs⟩, some (.list r j))
      (⟨r.settle J cfg j o t.1 st, t.2.metas, t.2.crontabs⟩, none) := by
  intro t
  refine .step (a := {}) rfl (.step (a := lo.read) rfl ?_)
  simp only [t, linuxBackend, Shared.crontab]
  generalize st.listForUser r.ctx.osUsername = jobs
  generalize lo.read.printed.getD _ = current
  generalize hw : writeUserCrontab cfg _ _ _ _ = w
  obtain ⟨e | ⟨⟩, crontabs⟩ := w
  · refine .step (a := lo.write) ?_ (.thrown r j e o ⟨st, s.metas, crontabs⟩ (.inr ⟨jobs, current, rfl⟩))
    simp only [Op.step, Op.attempt, hw]
  · refine .step (a := lo.write) ?_ (.refl _)
    simp only [Op.step, Op.attempt, hw]
    rfl

/-- The steps of the two calls of the backend. -/
theorem Leads.apply (lo : LinuxOutcome) (r : Request) (j : CronJob) (o : ReplaceOutcome) (st : Store) (s : LinuxState) :
    let t := (linuxBackend J cfg lo).apply r j st s
    Leads J cfg (⟨st, s.metas, s.crontabs⟩, some (.metadata r j))
      (⟨r.settle J cfg j o t.1 st, t.2.metas, t.2.crontabs⟩, none) := by
  intro t
  by_cases hd : ∃ jobId, r.tool = .delete jobId
  · obtain ⟨jobId, hd⟩ := hd
    have ht : t = (linuxBackend J cfg lo).rebuildUserSchedule r.ctx.osUsername (st.listForUser r.ctx.osUsername)
        { s with metas := removePerJobMeta cfg j lo.metadata.process s.metas } := by
      simp only [t, Backend.apply, hd, linuxBackend]
    rw [ht]
    refine .step (a := lo.metadata) ?_ (.rebuild lo r j o st _)
    simp only [Op.step, Op.attempt, hd]
  · generalize hw : writePerJobMeta J cfg j lo.metadata.process s.metas = w
    obtain ⟨e | ⟨⟩, metas⟩ := w
    · have ht : t = (.error e, { s with metas }) := by
        obtain ⟨ctx, tool⟩ := r
        cases tool with
        | delete jobId => exact absurd ⟨jobId, rfl⟩ hd
        | create | update => simp only [t, Backend.apply, linuxBackend, hw]
      rw [ht]
      refine .step (a := lo.metadata) ?_ (.thrown r j e o ⟨st, metas, s.crontabs⟩ (.inl rfl))
      obtain ⟨ctx, tool⟩ := r
      cases tool with
      | delete jobId => exact absurd ⟨jobId, rfl⟩ hd
      | create | update => simp only [Op.step, Op.attempt, hw]
    · have ht : t = (linuxBackend J cfg lo).rebuildUserSchedule r.ctx.osUsername (st.listForUser r.ctx.osUsername)
          { s with metas } := by
        obtain ⟨ctx, tool⟩ := r
        cases tool with
        | delete jobId => exact absurd ⟨jobId, rfl⟩ hd
        | create | update => simp only [t, Backend.apply, linuxBackend, hw]
      rw [ht]
      refine .step (a := lo.metadata) ?_ (.rebuild lo r j o st _)
      obtain ⟨ctx, tool⟩ := r
      cases tool with
      | delete jobId => exact absurd ⟨jobId, rfl⟩ hd
      | create | update => simp only [Op.step, Op.attempt, hw]

theorem onThrow_mutate (e : Str) (r : Request) : Op.onThrow e (.mutate r) = none := by
  obtain ⟨ctx, tool⟩ := r
  cases tool <;> rfl

/-- On Linux a tool call is the run of its steps that no other call interrupts. -/
theorem runTool_is_run (lo : LinuxOutcome) (r : Request) (a : Answer) (o : ReplaceOutcome) (st : Store) (s : LinuxState) :
    let t := runTool J cfg (linuxBackend J cfg lo) r a o st s
    Leads J cfg (⟨st, s.metas, s.crontabs⟩, some (.mutate r)) (⟨t.2.1, t.2.2.metas, t.2.2.crontabs⟩, none) := by
  intro t
  have hcheck : (linuxBackend J cfg lo).check r = r.check := rfl
  rcases hc : r.check with e | ⟨⟩
  · have ht : t = (.error e, st, s) := by simp only [t, runTool, hcheck, hc]
    rw [ht]
    refine .step (a := a) ?_ (.refl _)
    simp only [Op.step, Op.attempt, hc, onThrow_mutate]
  generalize hw : (r.call a).exec J cfg st = w
  obtain ⟨e | j, st₁⟩ := w
  · have ht : t = (.error e, st₁, s) := by simp only [t, runTool, hcheck, hc, hw]
    rw [ht]
    refine .step (a := a) ?_ (.refl _)
    simp only [Op.step, Op.attempt, hc, hw, onThrow_mutate]
  · have ht : (t.2.1, t.2.2) = (r.settle J cfg j o ((linuxBackend J cfg lo).apply r j st₁ s).1 st₁,
        ((linuxBackend J cfg lo).apply r j st₁ s).2) := by
      simp only [t, runTool, hcheck, hc, hw]
      generalize (linuxBackend J cfg lo).apply r j st₁ s = w
      obtain ⟨e | ⟨⟩, s₁⟩ := w <;> rfl
    rw [Prod.mk.injEq] at ht
    rw [ht.1, ht.2]
    refine .step (a := a) ?_ (.apply lo r j o st₁ s)
    simp only [Op.step, Op.attempt, hc, hw]

end

end McpBridge.Cron
