import McpBridge.Cron.Durable
/-!
# The crontab of a user (`tools/scheduling/cron_backend_linux.cpp`)

A managed block is two lines: a tag with the id of the job, and the crontab
line that runs it. `buildCrontabText` drops the blocks of a crontab, keeps its
other lines and appends a block for each job.
-/

open McpBridge.Lib McpBridge.Core

namespace McpBridge.Cron

def kBlockTagPrefix : Str := lit "# mcp_bridge:job_id="

/-- The loop over the lines of the existing crontab: those it keeps. -/
def keptLines : Bool → List Str → List Str
  | _, [] => []
  | true, _ :: ls => keptLines false ls
  | false, line :: ls =>
    -- The tag line and the schedule line that follows it are dropped.
    if kBlockTagPrefix.isPrefixOf line then keptLines true ls else line :: keptLines false ls

def jobBlock (runnerPath : Str) (j : CronJob) : Str :=
  kBlockTagPrefix ++ j.jobId ++ lit "\n" ++ j.schedule ++ lit " " ++ runnerPath ++ lit " " ++ j.jobId ++ lit "\n"

def buildCrontabText (existing : Str) (jobs : List CronJob) (runnerPath : Str) : Str :=
  unlines (keptLines false (lines existing)) ++ jobs.flatMap (jobBlock runnerPath)

/-- The loop of `validateSchedule`: the number of runs of characters other than blanks. -/
def countFields : Str → Nat → Bool → Nat
  | [], fields, _ => fields
  | c :: cs, fields, inField =>
    if isBlank c then countFields cs fields false
    else countFields cs (if inField then fields else fields + 1) true

def validateSchedule (schedule : Str) : Str :=
  if schedule = [] then lit "schedule is empty"
  else if ch '\n' ∈ schedule then lit "schedule has newline"
  else if countFields schedule 0 false < 5 then lit "schedule must have at least 5 fields"
  else []

/-! ## Managed blocks -/

/-- The managed blocks among the lines of a crontab: the id on the tag line, and
the line after it. The first argument is the id of a tag line just read. -/
def managedBlocks : Option Str → List Str → List (Str × Str)
  | none, [] => []
  | some id, [] => [(id, [])]
  | some id, line :: ls => (id, line) :: managedBlocks none ls
  | none, line :: ls =>
    if kBlockTagPrefix.isPrefixOf line then managedBlocks (some (line.drop kBlockTagPrefix.length)) ls
    else managedBlocks none ls

/-- The id of a job, and the line that runs it on its schedule. -/
def blockOf (runnerPath : Str) (j : CronJob) : Str × Str :=
  (j.jobId, j.schedule ++ lit " " ++ runnerPath ++ lit " " ++ j.jobId)

/-- The lines of a block. -/
def blockLines (runnerPath : Str) (j : CronJob) : List Str :=
  [kBlockTagPrefix ++ j.jobId, (blockOf runnerPath j).2]

theorem keptLines_no_tag {b : Bool} {ls : List Str} {line : Str} (h : line ∈ keptLines b ls) :
    kBlockTagPrefix.isPrefixOf line = false ∧ line ∈ ls := by
  induction b, ls using keptLines.induct with
  | case1 => cases h
  | case2 l ls ih =>
    obtain ⟨ht, hm⟩ := ih h
    exact ⟨ht, List.mem_cons_of_mem _ hm⟩
  | case3 l ls htag ih =>
    rw [keptLines, if_pos htag] at h
    obtain ⟨ht, hm⟩ := ih h
    exact ⟨ht, List.mem_cons_of_mem _ hm⟩
  | case4 l ls htag ih =>
    rw [keptLines, if_neg htag] at h
    rcases List.mem_cons.1 h with rfl | h
    · exact ⟨Bool.eq_false_of_not_eq_true htag, List.mem_cons_self⟩
    · obtain ⟨ht, hm⟩ := ih h
      exact ⟨ht, List.mem_cons_of_mem _ hm⟩

/-- Lines that are no tags hold no block. -/
theorem managedBlocks_append {ls : List Str} (h : ∀ l ∈ ls, kBlockTagPrefix.isPrefixOf l = false) (rest : List Str) :
    managedBlocks none (ls ++ rest) = managedBlocks none rest := by
  induction ls with
  | nil => rfl
  | cons l ls ih =>
    rw [List.cons_append, managedBlocks, if_neg (by simp [h l]), ih fun x hx => h x (by simp [hx])]

theorem managedBlocks_blockLines (runnerPath : Str) (jobs : List CronJob) :
    managedBlocks none (jobs.flatMap (blockLines runnerPath)) = jobs.map (blockOf runnerPath) := by
  induction jobs with
  | nil => rfl
  | cons j jobs ih =>
    have htag : kBlockTagPrefix.isPrefixOf (kBlockTagPrefix ++ j.jobId) = true :=
      List.isPrefixOf_iff_prefix.2 (List.prefix_append _ _)
    simp only [List.flatMap_cons, blockLines, List.cons_append, List.nil_append, managedBlocks, htag, if_true,
      List.drop_left, List.map_cons]
    rw [ih]
    rfl

/-- A job whose block is two lines. -/
def OneLine (j : CronJob) : Prop := ch '\n' ∉ j.jobId ∧ ch '\n' ∉ j.schedule

theorem newline_notMem_of_validJobid {id : Str} (h : validJobid id = true) : ch '\n' ∉ id := by
  rw [validJobid, isHexId, Bool.and_eq_true] at h
  exact not_mem_of_all h.2 (by decide)

/-- The lines of a built crontab: the kept ones, then the blocks. -/
theorem lines_buildCrontabText {runnerPath : Str} (hr : ch '\n' ∉ runnerPath) (existing : Str) {jobs : List CronJob}
    (hj : ∀ j ∈ jobs, OneLine j) :
    lines (buildCrontabText existing jobs runnerPath) =
      keptLines false (lines existing) ++ jobs.flatMap (blockLines runnerPath) := by
  have htext : buildCrontabText existing jobs runnerPath =
      unlines (keptLines false (lines existing) ++ jobs.flatMap (blockLines runnerPath)) := by
    simp only [buildCrontabText, unlines, List.flatMap_append, List.flatMap_assoc]
    congr 2
    funext j
    simp [jobBlock, blockLines, blockOf]
  rw [htext, lines_unlines]
  intro l hl
  rcases List.mem_append.1 hl with hl | hl
  · exact newline_notMem_lines (keptLines_no_tag hl).2
  · obtain ⟨j, hjm, hl⟩ := List.mem_flatMap.1 hl
    obtain ⟨hid, hs⟩ := hj j hjm
    have htag : ch '\n' ∉ kBlockTagPrefix := by decide
    have hspace : ch '\n' ∉ lit " " := by decide
    simp only [blockLines, blockOf, List.mem_cons, List.not_mem_nil, or_false] at hl
    rcases hl with rfl | rfl
    · simp [htag, hid]
    · simp [hspace, hid, hs, hr]

/-- The managed blocks of a built crontab are those of the jobs. -/
theorem managedBlocks_buildCrontabText {runnerPath : Str} (hr : ch '\n' ∉ runnerPath) (existing : Str)
    {jobs : List CronJob} (hj : ∀ j ∈ jobs, OneLine j) :
    managedBlocks none (lines (buildCrontabText existing jobs runnerPath)) = jobs.map (blockOf runnerPath) := by
  rw [lines_buildCrontabText hr existing hj, managedBlocks_append fun l hl => (keptLines_no_tag hl).1,
    managedBlocks_blockLines]

end McpBridge.Cron
