import McpBridge.Cron.Backend
import McpBridge.Cron.Rewrite
/-!
# A crontab that was not read (`cron_backend_linux.cpp`, `platform/linux/process_linux.cpp`)

`run_process_as` returns the output of a command with its exit code, and has some
ways to fail before there is a command, or after its output. `write_user_crontab`
looks at the exit code. `read_user_crontab` does not, so a crontab of which nothing
or only a part was read is rewritten as if that were all of it
(`failed_read_throws_iff`).
-/

open McpBridge.Lib McpBridge.Core

namespace McpBridge.Cron.Linux

/-! ## `run_process_as` -/

/-- What `waitpid` says of the child. -/
inductive Wait where
  | failed
  | abnormal
  | exited (code : Nat)
deriving DecidableEq

/-- What the system answers. `received` is what comes through the pipe up to its end,
or up to an error; `execve` that fails in the child writes its message there too. -/
structure ProcessAnswer where
  account : Bool := true
  piped : Bool := true
  forked : Bool := true
  received : Str := []
  wait : Wait := .exited 0

structure ProcessOutput extends ProcessResult where
  stdoutStr : Str := []

/-- There is a child. -/
def ProcessAnswer.started (osUsername : Str) (o : ProcessAnswer) : Bool := osUsername ≠ [] && o.account && o.piped && o.forked

/-- The message for an exit code. -/
def exitMessage (osUsername received : Str) (code : Nat) : Str :=
  if code = 126 then
    lit "run_process_as: privilege drop to '" ++ osUsername ++ lit "' failed (need CAP_SETUID/CAP_SETGID?)"
  else if code = 127 then
    if received ≠ [] then lit "run_process_as: " ++ received else lit "run_process_as: execve(/bin/sh) failed"
  else if code ≠ 0 then received
  else []

def runProcessAs (osUsername : Str) (o : ProcessAnswer) : ProcessOutput :=
  if osUsername = [] then { stderrStr := lit "run_process_as: os_username is required" }
  else if !o.account then { stderrStr := lit "run_process_as: user '" ++ osUsername ++ lit "' not found" }
  else if !o.piped then { stderrStr := lit "run_process_as: pipe() failed" }
  else if !o.forked then { stderrStr := lit "run_process_as: fork() failed" }
  else match o.wait with
    | .failed => { stdoutStr := o.received, stderrStr := lit "run_process_as: waitpid failed" }
    | .abnormal => { stdoutStr := o.received, stderrStr := lit "run_process_as: child terminated abnormally" }
    | .exited code => { stdoutStr := o.received, exitCode := code, stderrStr := exitMessage osUsername o.received code }

/-- The output is what was received, and nothing where there was no child. -/
theorem runProcessAs_stdout (osUsername : Str) (o : ProcessAnswer) :
    (runProcessAs osUsername o).stdoutStr = if o.started osUsername then o.received else [] := by
  obtain ⟨account, piped, forked, received, wait⟩ := o
  unfold runProcessAs ProcessAnswer.started
  by_cases hu : osUsername = []
  · simp [hu]
  · cases account <;> cases piped <;> cases forked <;> cases wait <;> simp [hu]

/-- Exit code 0 is that of a child. -/
theorem runProcessAs_zero_iff (osUsername : Str) (o : ProcessAnswer) :
    (runProcessAs osUsername o).exitCode = 0 ↔ o.started osUsername = true ∧ o.wait = .exited 0 := by
  obtain ⟨account, piped, forked, received, wait⟩ := o
  unfold runProcessAs ProcessAnswer.started
  by_cases hu : osUsername = []
  · simp [hu]
  · cases account <;> cases piped <;> cases forked <;> cases wait <;> simp [hu]

/-! ## The crontab -/

/-- `crontab -l 2>/dev/null || true`. -/
def readUserCrontab (osUsername : Str) (o : ProcessAnswer) : Str := (runProcessAs osUsername o).stdoutStr

/-- The answers to an installation. `crontab` may have replaced the crontab although the daemon
does not learn of it; where it exits with 0, it has. -/
structure InstallAnswer where
  rand : Vector UInt8 8 := .replicate 8 0
  replace : ReplaceOutcome := {}
  process : ProcessAnswer := {}
  replaced : Bool := true
  exit_zero : process.wait = .exited 0 → replaced = true := by intro _; rfl

structure Rebuilt where
  result : Except Str Unit
  /-- The text that is the user's crontab since. -/
  installed : Option Str

section
variable (cfg : Config)

def writeUserCrontab (osUsername text : Str) (w : InstallAnswer) : Rebuilt :=
  let tmp := cfg.stateDir ++ lit "/.cron_pending_" ++ hexId w.rand ++ lit ".txt"
  if !w.replace.opened then ⟨.error (lit "open " ++ tmp ++ lit ": " ++ w.replace.strerror), none⟩
  else if !w.replace.written then ⟨.error (lit "write"), none⟩
  else
    let installed := if w.process.started osUsername && w.replaced then some text else none
    let r := runProcessAs osUsername w.process
    if r.exitCode ≠ 0 then
      ⟨.error (lit "crontab install for " ++ osUsername ++ lit " exit=" ++ writeInt r.exitCode ++ lit " stderr=" ++ r.stderrStr), installed⟩
    else ⟨.ok (), installed⟩

def rebuildUserSchedule (osUsername : Str) (jobs : List CronJob) (read : ProcessAnswer) (w : InstallAnswer) : Rebuilt :=
  let current := readUserCrontab osUsername read
  let fresh := buildCrontabText current jobs cfg.cronRunnerPath
  writeUserCrontab cfg osUsername fresh w

/-- The answers as the tools take them. -/
def linuxOutcome (osUsername : Str) (read : ProcessAnswer) (w : InstallAnswer) : LinuxOutcome where
  read := { printed := some (readUserCrontab osUsername read) }
  write := { bufs := .replicate 4 w.rand, replace := w.replace, process := (runProcessAs osUsername w.process).toProcessResult }

theorem writeUserCrontab_eq {osUsername : Str} {w : InstallAnswer} (hlearns : w.replaced = true → w.process.wait = .exited 0)
    (read : ProcessAnswer) (text : Str) (crontabs : Map Str Str) :
    Cron.writeUserCrontab cfg osUsername text (linuxOutcome osUsername read w).write crontabs =
      ((writeUserCrontab cfg osUsername text w).result,
        ((writeUserCrontab cfg osUsername text w).installed.map (crontabs.insert osUsername)).getD crontabs) := by
  have hhead : (Vector.replicate 4 w.rand).head = w.rand := rfl
  unfold Cron.writeUserCrontab writeUserCrontab linuxOutcome
  cases w.replace.opened with
  | false => simp [hhead]
  | true =>
    cases w.replace.written with
    | false => simp
    | true =>
      by_cases hexit : (runProcessAs osUsername w.process).exitCode = 0
      · obtain ⟨hstarted, hwait⟩ := (runProcessAs_zero_iff _ _).1 hexit
        simp [hexit, hstarted, w.exit_zero hwait]
      · have hnone : ¬ (w.process.started osUsername = true ∧ w.replaced = true) := by
          rintro ⟨hstarted, hreplaced⟩
          exact hexit ((runProcessAs_zero_iff _ _).2 ⟨hstarted, hlearns hreplaced⟩)
        simp [hexit, hnone]

/-- Where the daemon learns of each installation, this is the call of the backend. -/
theorem rebuildUserSchedule_linuxBackend (J : JsonText) {osUsername : Str} {w : InstallAnswer}
    (hlearns : w.replaced = true → w.process.wait = .exited 0) (jobs : List CronJob) (read : ProcessAnswer) (s : LinuxState) :
    (linuxBackend J cfg (linuxOutcome osUsername read w)).rebuildUserSchedule osUsername jobs s =
      ((rebuildUserSchedule cfg osUsername jobs read w).result,
        { s with crontabs := ((rebuildUserSchedule cfg osUsername jobs read w).installed.map
          (s.crontabs.insert osUsername)).getD s.crontabs }) := by
  simp only [linuxBackend]
  rw [writeUserCrontab_eq cfg hlearns]
  rfl

end

/-! ## A read that failed -/

/-- The installation gets as far as to replace the crontab. -/
def InstallAnswer.installs (osUsername : Str) (w : InstallAnswer) : Bool :=
  w.replace.opened && w.replace.written && w.process.started osUsername && w.replaced

/-- The reading process is there and all of the crontab comes through, or there is no crontab to read. -/
def ProcessAnswer.ReadsAll (osUsername crontab : Str) (o : ProcessAnswer) : Prop :=
  if o.started osUsername then o.received = crontab else crontab = []

theorem readUserCrontab_eq_iff (osUsername crontab : Str) (o : ProcessAnswer) :
    readUserCrontab osUsername o = crontab ↔ o.ReadsAll osUsername crontab := by
  rw [readUserCrontab, runProcessAs_stdout, ProcessAnswer.ReadsAll]
  split
  · rfl
  · exact eq_comm

theorem writeUserCrontab_installed (cfg : Config) (osUsername text : Str) (w : InstallAnswer) :
    (writeUserCrontab cfg osUsername text w).installed = if w.installs osUsername then some text else none := by
  unfold writeUserCrontab InstallAnswer.installs
  cases w.replace.opened <;> cases w.replace.written <;> simp [apply_ite Rebuilt.installed]

/-- It throws where nothing was installed. -/
theorem writeUserCrontab_throws {cfg : Config} {osUsername text : Str} {w : InstallAnswer} (h : w.installs osUsername = false) :
    ∃ e, (writeUserCrontab cfg osUsername text w).result = .error e := by
  unfold writeUserCrontab
  split
  · exact ⟨_, rfl⟩
  next hopened =>
  split
  · exact ⟨_, rfl⟩
  next hwritten =>
  simp only
  split
  · exact ⟨_, rfl⟩
  · next hexit =>
    rw [not_not, runProcessAs_zero_iff] at hexit
    simp_all [InstallAnswer.installs, w.exit_zero hexit.2]

/-- A text that is not the user's crontab leads to no installation where the text is
all of it after all, or where the installation itself fails. -/
theorem failed_read_throws_iff (cfg : Config) (osUsername crontab : Str) (jobs : List CronJob) (read : ProcessAnswer)
    (w : InstallAnswer) :
    (readUserCrontab osUsername read ≠ crontab →
      (∃ e, (rebuildUserSchedule cfg osUsername jobs read w).result = .error e) ∧
        (rebuildUserSchedule cfg osUsername jobs read w).installed = none) ↔
      read.ReadsAll osUsername crontab ∨ w.installs osUsername = false := by
  rw [Ne, readUserCrontab_eq_iff]
  constructor
  · intro h
    by_cases hread : read.ReadsAll osUsername crontab
    · exact .inl hread
    · obtain ⟨-, hnone⟩ := h hread
      rw [rebuildUserSchedule, writeUserCrontab_installed] at hnone
      right
      by_contra hinstalls
      rw [if_pos (by simpa using hinstalls)] at hnone
      cases hnone
  · rintro (hread | hinstalls) hfailed
    · exact absurd hread hfailed
    · refine ⟨writeUserCrontab_throws hinstalls, ?_⟩
      rw [rebuildUserSchedule, writeUserCrontab_installed, hinstalls]
      rfl

def exampleLinux : Config := { cronRunnerPath := exampleRunner, pid := 1 }

/-- `fork` fails for the reading process. -/
def noFork : ProcessAnswer := { forked := false }

/-- The user's line is gone, and nobody is told. -/
theorem crontab_overwritten :
    readUserCrontab (lit "mcp_user_abcdefgh") noFork ≠ lit "0 5 * * * backup\n" ∧
      (rebuildUserSchedule exampleLinux (lit "mcp_user_abcdefgh") [nightly] noFork {}).result = .ok () ∧
      (rebuildUserSchedule exampleLinux (lit "mcp_user_abcdefgh") [nightly] noFork {}).installed =
        some (lit "# mcp_bridge:job_id=00000000000000bb\n0 2 * * * /usr/bin/mcp_cron 00000000000000bb\n") := by
  refine ⟨by decide +kernel, ?_, by decide +kernel⟩
  rfl

end McpBridge.Cron.Linux
