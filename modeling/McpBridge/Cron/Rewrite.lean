import Mathlib.Data.List.Infix
import McpBridge.Cron.Crontab
/-!
# What a rewrite does to a crontab (`tools/scheduling/cron_backend_linux.cpp`)

Read from above, the lines of a crontab are entries: a line of the user's own, or
a block, which is a tag line with whatever line comes after it. A rewrite keeps
the first kind, drops the second and appends a block for each job (`entries_build`).
So a rewrite undoes the last one (`rewrite_replaces`); and a line that the user put
right after a tag is gone with the block (`own_lines_survive_iff`).
-/

open McpBridge.Lib McpBridge.Core

namespace McpBridge.Cron

inductive Entry where
  | own (line : Str)
  | block (tag : Str) (line : Option Str)
deriving DecidableEq

def isTag (line : Str) : Bool := kBlockTagPrefix.isPrefixOf line

def entries : List Str → List Entry
  | [] => []
  | [line] => if isTag line then [.block line none] else [.own line]
  | line :: next :: ls =>
    if isTag line then .block line (some next) :: entries ls else .own line :: entries (next :: ls)

namespace Entry

def lines : Entry → List Str
  | own line => [line]
  | block tag line => tag :: line.toList

def own? : Entry → Option Str
  | own line => some line
  | block _ _ => none

end Entry

/-- The block of a job. -/
def jobEntry (runnerPath : Str) (j : CronJob) : Entry := .block (kBlockTagPrefix ++ j.jobId) (some (blockOf runnerPath j).2)

theorem isTag_append (id : Str) : isTag (kBlockTagPrefix ++ id) = true := List.isPrefixOf_iff_prefix.2 (List.prefix_append _ _)

/-! ## The two loops, by entries -/

theorem lines_entries (ls : List Str) : (entries ls).flatMap Entry.lines = ls := by
  induction ls using entries.induct with
  | case1 => rfl
  | case2 line htag => simp [entries, htag, Entry.lines]
  | case3 line htag => simp [entries, htag, Entry.lines]
  | case4 line next ls htag ih => simp [entries, htag, Entry.lines, ih]
  | case5 line next ls htag ih => simp [entries, htag, Entry.lines, ih]

theorem keptLines_cons (line : Str) (ls : List Str) :
    keptLines false (line :: ls) = if isTag line then keptLines true ls else line :: keptLines false ls := rfl

theorem keptLines_entries (ls : List Str) : keptLines false ls = (entries ls).filterMap Entry.own? := by
  induction ls using entries.induct with
  | case1 => rfl
  | case2 line htag =>
    rw [keptLines_cons, if_pos htag, entries, if_pos htag]
    rfl
  | case3 line htag =>
    rw [keptLines_cons, if_neg htag, entries, if_neg htag]
    rfl
  | case4 line next ls htag ih =>
    rw [keptLines_cons, if_pos htag, keptLines, entries, if_pos htag, ih]
    rfl
  | case5 line next ls htag ih =>
    rw [keptLines_cons, if_neg htag, entries, if_neg htag, ih]
    rfl

/-- Lines that are no tags are entries of the user's own. -/
theorem entries_append {ls : List Str} (h : ∀ l ∈ ls, isTag l = false) (rest : List Str) :
    entries (ls ++ rest) = ls.map Entry.own ++ entries rest := by
  induction ls with
  | nil => rfl
  | cons l ls ih =>
    have hl : ¬ isTag l = true := by simp [h l]
    have htail := ih fun x hx => h x (by simp [hx])
    cases hls : ls ++ rest with
    | nil =>
      obtain ⟨rfl, rfl⟩ := List.append_eq_nil_iff.1 hls
      simp [entries, hl]
    | cons next more => rw [List.cons_append, hls, entries, if_neg hl, ← hls, htail, List.map_cons, List.cons_append]

theorem entries_blockLines (runnerPath : Str) (jobs : List CronJob) :
    entries (jobs.flatMap (blockLines runnerPath)) = jobs.map (jobEntry runnerPath) := by
  induction jobs with
  | nil => rfl
  | cons j jobs ih =>
    rw [List.flatMap_cons, blockLines, List.cons_append, List.cons_append, List.nil_append, entries, if_pos (isTag_append _), ih]
    rfl

/-- A rewrite: the user's own entries, then the block of each job. -/
theorem entries_build {runnerPath : Str} (hr : ch '\n' ∉ runnerPath) (existing : Str) {jobs : List CronJob}
    (hj : ∀ j ∈ jobs, OneLine j) :
    entries (lines (buildCrontabText existing jobs runnerPath)) =
      ((entries (lines existing)).filterMap Entry.own?).map Entry.own ++ jobs.map (jobEntry runnerPath) := by
  rw [lines_buildCrontabText hr existing hj, entries_append fun l hl => (keptLines_no_tag hl).1, entries_blockLines,
    keptLines_entries]

theorem own_jobEntries (runnerPath : Str) (jobs : List CronJob) : (jobs.map (jobEntry runnerPath)).filterMap Entry.own? = [] := by
  rw [List.filterMap_map, List.filterMap_eq_nil_iff]
  exact fun _ _ => rfl

theorem own_owns (ls : List Str) : (ls.map Entry.own).filterMap Entry.own? = ls := by
  rw [List.filterMap_map]
  exact List.filterMap_some

/-- What a rewrite keeps is what the rewrite before it kept. -/
theorem keptLines_build {runnerPath : Str} (hr : ch '\n' ∉ runnerPath) (existing : Str) {jobs : List CronJob}
    (hj : ∀ j ∈ jobs, OneLine j) :
    keptLines false (lines (buildCrontabText existing jobs runnerPath)) = keptLines false (lines existing) := by
  rw [keptLines_entries, entries_build hr existing hj, List.filterMap_append, own_jobEntries, own_owns, List.append_nil,
    keptLines_entries]

theorem own_sublist (es : List Entry) : (es.filterMap Entry.own?).Sublist (es.flatMap Entry.lines) := by
  induction es with
  | nil => exact .slnil
  | cons e es ih =>
    cases e with
    | own line => exact ih.cons_cons line
    | block tag line => exact ih.trans (List.sublist_append_right _ _)

/-- The kept lines are lines of the crontab, in their order. -/
theorem keptLines_sublist (ls : List Str) : (keptLines false ls).Sublist ls := by
  have h := own_sublist (entries ls)
  rw [lines_entries] at h
  exact keptLines_entries ls ▸ h

/-! ## One rewrite after another -/

/-- The id and the schedule of a block whose line is `<schedule> <runner> <id>`. -/
def readBlock (runnerPath : Str) (b : Str × Str) : Option (Str × Str) :=
  let tail := lit " " ++ runnerPath ++ lit " " ++ b.1
  if tail.isSuffixOf b.2 then some (b.1, b.2.take (b.2.length - tail.length)) else none

theorem readBlock_blockOf (runnerPath : Str) (j : CronJob) : readBlock runnerPath (blockOf runnerPath j) = some (j.jobId, j.schedule) := by
  have hline : blockOf runnerPath j = (j.jobId, j.schedule ++ (lit " " ++ runnerPath ++ lit " " ++ j.jobId)) := by
    simp [blockOf]
  rw [hline, readBlock, if_pos (List.isSuffixOf_iff_suffix.2 (List.suffix_append _ _)), List.length_append,
    Nat.add_sub_cancel, List.take_left]

/-- The tags of a rewritten crontab, where no line that runs a job is itself one. -/
theorem tags_build (runnerPath : Str) (existing : Str) {jobs : List CronJob}
    (htag : ∀ j ∈ jobs, isTag (blockOf runnerPath j).2 = false) :
    (keptLines false (lines existing) ++ jobs.flatMap (blockLines runnerPath)).filter isTag =
      jobs.map fun j => kBlockTagPrefix ++ j.jobId := by
  have hkept : (keptLines false (lines existing)).filter isTag = [] := by
    rw [List.filter_eq_nil_iff]
    intro l hl h
    exact absurd h (by rw [isTag, (keptLines_no_tag hl).1]; decide)
  rw [List.filter_append, hkept, List.nil_append]
  induction jobs with
  | nil => rfl
  | cons j jobs ih =>
    rw [List.flatMap_cons, List.filter_append, ih fun x hx => htag x (by simp [hx]), blockLines, List.map_cons,
      List.filter_cons_of_pos (isTag_append _), List.filter_cons_of_neg (by simp [htag j])]
    rfl

/-- A rewrite replaces the blocks of the crontab, and nothing else. -/
theorem rewrite_replaces (existing runnerPath : Str) (jobs jobs' : List CronJob) (hr : ch '\n' ∉ runnerPath)
    (hj : ∀ j ∈ jobs, OneLine j ∧ isTag (blockOf runnerPath j).2 = false)
    (hj' : ∀ j ∈ jobs', OneLine j ∧ isTag (blockOf runnerPath j).2 = false) :
    buildCrontabText (buildCrontabText existing jobs runnerPath) jobs' runnerPath = buildCrontabText existing jobs' runnerPath ∧
    lines (buildCrontabText existing jobs' runnerPath) =
      keptLines false (lines existing) ++ jobs'.flatMap (fun j => [kBlockTagPrefix ++ j.jobId,
        j.schedule ++ lit " " ++ runnerPath ++ lit " " ++ j.jobId]) ∧
    (keptLines false (lines existing)).Sublist (lines existing) ∧
    entries (lines (buildCrontabText existing jobs' runnerPath)) =
      ((entries (lines existing)).filterMap Entry.own?).map Entry.own ++ jobs'.map (jobEntry runnerPath) ∧
    (lines (buildCrontabText existing jobs' runnerPath)).filter isTag = jobs'.map (fun j => kBlockTagPrefix ++ j.jobId) ∧
    (managedBlocks none (lines (buildCrontabText existing jobs' runnerPath))).map (readBlock runnerPath) =
      jobs'.map fun j => some (j.jobId, j.schedule) := by
  have hone := fun j h => (hj j h).1
  have hone' := fun j h => (hj' j h).1
  refine ⟨?_, lines_buildCrontabText hr existing hone', keptLines_sublist _, entries_build hr existing hone', ?_, ?_⟩
  · rw [buildCrontabText, keptLines_build hr existing hone, ← buildCrontabText]
  · rw [lines_buildCrontabText hr existing hone', tags_build runnerPath existing fun j h => (hj' j h).2]
  · rw [managedBlocks_buildCrontabText hr existing hone', List.map_map]
    exact List.map_congr_left fun j _ => readBlock_blockOf runnerPath j

def exampleRunner : Str := lit "/usr/bin/mcp_cron"

def exampleJob (jobId schedule : Str) : CronJob :=
  ⟨jobId, lit "abcdefgh", lit "mcp_user_abcdefgh", schedule, lit "true", [], [], 0, 0⟩

def hourly : CronJob := exampleJob (lit "00000000000000aa") (lit "0 * * * *")
def nightly : CronJob := exampleJob (lit "00000000000000bb") (lit "0 2 * * *")

/-- A line of the user's own, and half of a block at the end. -/
def halfBlock : Str := lit "MAILTO=alice\n# mcp_bridge:job_id=00000000000000aa"

theorem nightly_replaces_hourly :
    buildCrontabText (buildCrontabText halfBlock [hourly, hourly] exampleRunner) [nightly] exampleRunner =
      buildCrontabText halfBlock [nightly] exampleRunner ∧
    buildCrontabText halfBlock [nightly] exampleRunner =
      lit "MAILTO=alice\n# mcp_bridge:job_id=00000000000000bb\n0 2 * * * /usr/bin/mcp_cron 00000000000000bb\n" := by
  have hone : ∀ j ∈ [hourly, hourly, nightly], OneLine j ∧ isTag (blockOf exampleRunner j).2 = false := by
    simp only [OneLine]
    decide +kernel
  constructor
  swap
  · rw [halfBlock]
    repeat rw [lit_ofList]
    decide +kernel
  exact (rewrite_replaces halfBlock exampleRunner [hourly, hourly] [nightly] (by decide) (fun j h => hone j (by simp_all))
    fun j h => hone j (by simp_all)).1

/-! ## The user's own lines -/

/-- The line ends in `<runner> <16 hex digits>`. -/
def endsInRun (runnerPath line : Str) : Bool :=
  isHexId (line.drop (line.length - 16)) && (runnerPath ++ lit " ").isSuffixOf (line.take (line.length - 16))

theorem endsInRun_iff (runnerPath line : Str) :
    endsInRun runnerPath line = true ↔ ∃ front id, isHexId id = true ∧ line = front ++ (runnerPath ++ lit " ") ++ id := by
  rw [endsInRun, Bool.and_eq_true, List.isSuffixOf_iff_suffix]
  constructor
  · rintro ⟨hid, front, hfront⟩
    exact ⟨front, _, hid, by rw [hfront, List.take_append_drop]⟩
  · rintro ⟨front, id, hid, rfl⟩
    have hlen : id.length = 16 := by simp_all [isHexId]
    have hcut : (front ++ (runnerPath ++ lit " ") ++ id).length - 16 = (front ++ (runnerPath ++ lit " ")).length := by
      rw [List.length_append, hlen, Nat.add_sub_cancel]
    rw [hcut, List.drop_left, List.take_left]
    exact ⟨hid, List.suffix_append _ _⟩

/-- Neither a tag nor a line that runs a job. -/
def isOwn (runnerPath line : Str) : Bool := !isTag line && !endsInRun runnerPath line

def ownLines (runnerPath text : Str) : List Str := (lines text).filter (isOwn runnerPath)

/-- No tag has a line of the user's own right after it. A tag that is itself the line
after another one does not count. -/
def TagsGuardNone (runnerPath text : Str) : Prop :=
  ∀ tag line, Entry.block tag (some line) ∈ entries (lines text) → isOwn runnerPath line = false

theorem flatMap_sublist {α β : Type} {f g : α → List β} (h : ∀ a, (g a).Sublist (f a)) (l : List α) :
    (l.flatMap g).Sublist (l.flatMap f) := by
  induction l with
  | nil => exact .slnil
  | cons a l ih => exact (h a).append ih

theorem flatMap_eq_iff {α β : Type} {f g : α → List β} (h : ∀ a, (g a).Sublist (f a)) (l : List α) :
    l.flatMap f = l.flatMap g ↔ ∀ a ∈ l, f a = g a := by
  constructor
  · intro heq
    induction l with
    | nil => nofun
    | cons a l ih =>
      have hlen := congrArg List.length heq
      have hhead := (h a).length_le
      have htail := (flatMap_sublist h l).length_le
      simp only [List.flatMap_cons, List.length_append] at heq hlen
      obtain ⟨hfst, hrest⟩ := List.append_inj heq (by omega)
      intro b hb
      rcases List.mem_cons.1 hb with rfl | hb
      · exact hfst
      · exact ih hrest b hb
  · intro heq
    rw [List.flatMap, List.flatMap, List.map_congr_left heq]

/-- The first line of a block is a tag. -/
theorem isTag_of_block {ls : List Str} {tag : Str} {line : Option Str} (h : .block tag line ∈ entries ls) : isTag tag = true := by
  induction ls using entries.induct with
  | case1 => cases h
  | case2 l htag => simp_all [entries]
  | case3 l htag => simp_all [entries]
  | case4 l next ls htag ih =>
    rw [entries, if_pos htag] at h
    rcases List.mem_cons.1 h with heq | h
    · cases heq
      exact htag
    · exact ih h
  | case5 l next ls htag ih =>
    rw [entries, if_neg htag] at h
    rcases List.mem_cons.1 h with heq | h
    · cases heq
    · exact ih h

theorem own_lines_block {ls : List Str} {tag : Str} {line : Option Str} (h : .block tag line ∈ entries ls) (runnerPath : Str) :
    (Entry.block tag line).lines.filter (isOwn runnerPath) = [] ↔ ∀ l, line = some l → isOwn runnerPath l = false := by
  have htag : ¬ isOwn runnerPath tag = true := by simp [isOwn, isTag_of_block h]
  rw [Entry.lines, List.filter_cons_of_neg htag]
  cases line with
  | none => simp
  | some l => simp [List.filter_cons]

/-- The user's own lines are all kept where none is right after a tag. -/
theorem ownLines_kept_iff (runnerPath text : Str) :
    ownLines runnerPath text = (keptLines false (lines text)).filter (isOwn runnerPath) ↔ TagsGuardNone runnerPath text := by
  have hall : ownLines runnerPath text = (entries (lines text)).flatMap fun e => e.lines.filter (isOwn runnerPath) := by
    rw [ownLines, ← List.filter_flatMap, lines_entries]
  have hkept : (keptLines false (lines text)).filter (isOwn runnerPath) =
      (entries (lines text)).flatMap fun e => e.own?.toList.filter (isOwn runnerPath) := by
    rw [keptLines_entries, ← List.filter_flatMap, List.filterMap_eq_flatMap_toList]
  rw [hall, hkept, flatMap_eq_iff]
  · constructor
    · intro h tag line hmem
      exact (own_lines_block hmem runnerPath).1 (h _ hmem) line rfl
    · intro h e he
      cases e with
      | own line => rfl
      | block tag line => exact (own_lines_block he runnerPath).2 fun l hl => h tag l (hl ▸ he)
  · intro e
    cases e with
    | own line => exact .refl _
    | block tag line => exact List.nil_sublist _

theorem lines_unlines_append {ls : List Str} (h : ∀ l ∈ ls, ch '\n' ∉ l) (s : Str) : lines (unlines ls ++ s) = ls ++ lines s := by
  induction ls with
  | nil => rfl
  | cons l ls ih =>
    have hj : unlines (l :: ls) ++ s = l ++ ch '\n' :: (unlines ls ++ s) := by simp [unlines, lit]
    rw [hj, lines_line (h l (by simp)), ih fun x hx => h x (by simp [hx]), List.cons_append]

/-- Whatever the jobs: the lines of a rewritten crontab start with those that are kept. -/
theorem lines_build_append (existing : Str) (jobs : List CronJob) (runnerPath : Str) :
    lines (buildCrontabText existing jobs runnerPath) =
      keptLines false (lines existing) ++ lines (jobs.flatMap (jobBlock runnerPath)) :=
  lines_unlines_append (fun _ hl => newline_notMem_lines (keptLines_no_tag hl).2) _

/-- The blocks hold no line of the user's own. -/
theorem own_blockLines {runnerPath : Str} {jobs : List CronJob} (hid : ∀ j ∈ jobs, validJobid j.jobId = true) :
    (jobs.flatMap (blockLines runnerPath)).filter (isOwn runnerPath) = [] := by
  rw [List.filter_eq_nil_iff]
  intro l hl
  obtain ⟨j, hj, hl⟩ := List.mem_flatMap.1 hl
  simp only [blockLines, List.mem_cons, List.not_mem_nil, or_false] at hl
  rcases hl with rfl | rfl
  · simp [isOwn, isTag_append]
  · have hrun : endsInRun runnerPath (blockOf runnerPath j).2 = true :=
      (endsInRun_iff _ _).2 ⟨j.schedule ++ lit " ", j.jobId, hid j hj, by simp [blockOf]⟩
    simp [isOwn, hrun]

/-- What is left of the user's own lines, after a rewrite for jobs of the store. -/
theorem ownLines_build {runnerPath : Str} (hr : ch '\n' ∉ runnerPath) (existing : Str) {jobs : List CronJob}
    (hj : ∀ j ∈ jobs, validJobid j.jobId = true ∧ ch '\n' ∉ j.schedule) :
    ownLines runnerPath (buildCrontabText existing jobs runnerPath) = (keptLines false (lines existing)).filter (isOwn runnerPath) := by
  have hone : ∀ j ∈ jobs, OneLine j := fun j h => ⟨newline_notMem_of_validJobid (hj j h).1, (hj j h).2⟩
  rw [ownLines, lines_buildCrontabText hr existing hone, List.filter_append, own_blockLines fun j h => (hj j h).1,
    List.append_nil]

/-- Where no tag has a line of the user's own right after it, all of these survive,
whatever the jobs. Where one has, they do not, whatever the jobs of the store. -/
theorem own_lines_survive_iff (existing runnerPath : Str) :
    (TagsGuardNone runnerPath existing → ∀ jobs,
      (ownLines runnerPath existing).Sublist (lines (buildCrontabText existing jobs runnerPath))) ∧
    ∀ jobs, ch '\n' ∉ runnerPath → (∀ j ∈ jobs, validJobid j.jobId = true ∧ ch '\n' ∉ j.schedule) →
      ((ownLines runnerPath existing).Sublist (lines (buildCrontabText existing jobs runnerPath)) ↔
        TagsGuardNone runnerPath existing) ∧
      (ownLines runnerPath (buildCrontabText existing jobs runnerPath) = ownLines runnerPath existing ↔
        TagsGuardNone runnerPath existing) := by
  have henough : TagsGuardNone runnerPath existing → ∀ jobs,
      (ownLines runnerPath existing).Sublist (lines (buildCrontabText existing jobs runnerPath)) := by
    intro h jobs
    rw [(ownLines_kept_iff runnerPath existing).2 h, lines_build_append]
    exact List.filter_sublist.trans (List.sublist_append_left _ _)
  refine ⟨henough, fun jobs hr hj => ?_⟩
  have hleft := ownLines_build hr existing hj
  have hequal : ownLines runnerPath (buildCrontabText existing jobs runnerPath) = ownLines runnerPath existing ↔
      TagsGuardNone runnerPath existing := by
    rw [hleft, eq_comm]
    exact ownLines_kept_iff runnerPath existing
  refine ⟨⟨fun hsub => ?_, fun h => henough h jobs⟩, hequal⟩
  -- Of the lines of the output, only the kept ones can be the user's own.
  have hback : (ownLines runnerPath existing).Sublist (ownLines runnerPath (buildCrontabText existing jobs runnerPath)) := by
    have hfilter := hsub.filter (isOwn runnerPath)
    simpa only [ownLines, List.filter_filter, Bool.and_self] using hfilter
  rw [hleft] at hback
  have hkept : ((keptLines false (lines existing)).filter (isOwn runnerPath)).Sublist (ownLines runnerPath existing) :=
    (keptLines_sublist _).filter _
  exact (ownLines_kept_iff runnerPath existing).1 (hback.antisymm hkept)

/-- A block as it was written, between two lines of the user's own. -/
def tidyCrontab : Str :=
  lit "MAILTO=alice\n# mcp_bridge:job_id=00000000000000aa\n0 * * * * /usr/bin/mcp_cron 00000000000000aa\n0 5 * * * backup\n"

theorem tidy_survives : (ownLines exampleRunner tidyCrontab).Sublist (lines (buildCrontabText tidyCrontab [nightly] exampleRunner)) ∧
    ownLines exampleRunner tidyCrontab = [lit "MAILTO=alice", lit "0 5 * * * backup"] := by
  have hentries : entries (lines tidyCrontab) = [.own (lit "MAILTO=alice"), .block (lit "# mcp_bridge:job_id=00000000000000aa")
      (some (lit "0 * * * * /usr/bin/mcp_cron 00000000000000aa")), .own (lit "0 5 * * * backup")] := by
    rw [tidyCrontab]
    repeat rw [lit_ofList]
    decide +kernel
  have hguard : TagsGuardNone exampleRunner tidyCrontab := by
    intro tag line h
    rw [hentries] at h
    simp only [List.mem_cons, List.not_mem_nil, or_false, reduceCtorEq, false_or, Entry.block.injEq, Option.some.injEq] at h
    rw [h.2]
    decide +kernel
  have hjobs : ∀ j ∈ [nightly], validJobid j.jobId = true ∧ ch '\n' ∉ j.schedule := by decide +kernel
  refine ⟨((own_lines_survive_iff tidyCrontab exampleRunner).2 [nightly] (by decide) hjobs).1.2 hguard, ?_⟩
  rw [tidyCrontab]
  repeat rw [lit_ofList]
  decide +kernel

/-- The user deleted the second line of a block. -/
def cutBlock : Str := lit "# mcp_bridge:job_id=00000000000000aa\n0 5 * * * backup\n"

theorem backup_lost : lit "0 5 * * * backup" ∈ ownLines exampleRunner cutBlock ∧
    ¬ (ownLines exampleRunner cutBlock).Sublist (lines (buildCrontabText cutBlock [nightly] exampleRunner)) := by
  have hmem : lit "0 5 * * * backup" ∈ ownLines exampleRunner cutBlock := by decide +kernel
  have hgone : lit "0 5 * * * backup" ∉ lines (buildCrontabText cutBlock [nightly] exampleRunner) := by decide +kernel
  exact ⟨hmem, fun h => hgone (h.subset hmem)⟩

end McpBridge.Cron
