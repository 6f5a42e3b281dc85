import McpBridge.Lib.Fields
import McpBridge.Lib.Schedule
import McpBridge.Lib.ShellLine
/-!
# Listing processes (`platform/linux/process_linux.cpp`)

`list_processes` runs `ps aux`, through `grep` where a filter is given, skips the
first line and reads the columns of the others. To `grep` the header is a line like
any other: where it does not have the filter in it, the line that is skipped is the
first process.
-/

open McpBridge.Lib McpBridge.Lib.Shell McpBridge.Lib.Fields

namespace McpBridge.Tools.Processes

/-! ## The programs -/

/-- What `ps aux` prints: a header, and a line for each process. -/
structure PsTable where
  header : Str
  rows : List Str
  clean : ∀ l ∈ header :: rows, ch '\n' ∉ l ∧ 0 ∉ l

def PsTable.text (t : PsTable) : Str := unlines (t.header :: t.rows)

def inLine (pattern line : Str) : Bool := line.tails.any pattern.isPrefixOf

def inLineIgnoringCase (pattern line : Str) : Bool := inLine (pattern.map toUpper) (line.map toUpper)

def grep (keep : Str → Bool) (input : Str) : Str := unlines ((lines input).filter keep)

/-- What a program prints. A pattern stands for itself here, see `isMeta`. -/
def program (t : PsTable) (args : List Str) (input : Str) : Str :=
  match args with
  | [name, arg] => if name = lit "ps" ∧ arg = lit "aux" then t.text else []
  | [name, option, pattern] =>
    if name = lit "grep" ∧ option = lit "-i" then grep (inLineIgnoringCase pattern) input
    else if name = lit "grep" ∧ option = lit "-v" then grep (!inLine pattern ·) input
    else []
  | _ => []

def arguments (ps : List Part) : List Str := ps.filterMap fun p => match p with
  | .word s => some s
  | _ => none

/-- What is read from a pipeline. Nothing is printed on the standard error. -/
def popen (t : PsTable) (line : Str) : Str :=
  match pipeline (cString line) with
  | some commands => commands.foldl (fun input ps => program t (arguments ps) input) []
  | none => []

/-- Reads a line with `fgets`, or as much as the buffer holds, and appends it up to its first NUL. -/
def fgetsLoop : Nat → Bool → Str → Str
  | _, _, [] => []
  | room, ended, c :: s =>
    let ended := ended || c = 0
    let rest := if c = ch '\n' ∨ room ≤ 1 then fgetsLoop 4095 false s else fgetsLoop (room - 1) ended s
    if ended then rest else c :: rest

/-- `run_process`, its output. -/
def runProcess (t : PsTable) (command : Str) : Str := fgetsLoop 4095 false (popen t (command ++ lit " 2>&1"))

/-! ## `list_processes` -/

structure ProcessInfo (Double : Type) where
  pid : Int
  name : Str
  user : Str
  cpuPercent : Double
  memPercent : Double
  command : Str
deriving DecidableEq

def isSpace (c : UInt8) : Bool := c = ch ' ' || (9 ≤ c && c ≤ 13)

def stoi (s : Str) : Option Int :=
  let s := s.dropWhile isSpace
  let (negative, s) := match s with
    | [] => (false, [])
    | c :: r => if c = ch '-' then (true, r) else if c = ch '+' then (false, r) else (false, s)
  let digits := s.takeWhile isDigit
  let value : Int := if negative then -(readDigits digits : Int) else readDigits digits
  if digits = [] ∨ value < -2 ^ 31 ∨ 2 ^ 31 ≤ value then none else some value

section Listing
variable {Double : Type} (stod : Str → Option Double)

/-- One line; nothing where a number does not read as one. -/
def entry (line : Str) : Option (ProcessInfo Double) :=
  match takeFields isSpace 10 line with
  | (user :: pidS :: cpuS :: memS :: _, rest) => do
    let command := match rest with
      | [] => []
      | c :: r => if c = ch ' ' then r else rest
    let pid ← stoi pidS
    let cpu ← stod cpuS
    let mem ← stod memS
    return { pid, name := command.takeWhile (· ≠ ch ' '), user, cpuPercent := cpu, memPercent := mem, command }
  | _ => none

def psCommand (filter : Str) : Str :=
  lit "ps aux" ++ if filter = [] then [] else lit " | grep -i '" ++ filter ++ lit "' | grep -v grep"

def listProcesses (t : PsTable) (filter : Str) : List (ProcessInfo Double) :=
  -- The first line is skipped as the header, whatever it is.
  (lines (runProcess t (psCommand filter))).tail.filterMap (entry stod)

def getProcessInfo [Zero Double] (t : PsTable) (pid : Int) : ProcessInfo Double :=
  ((listProcesses stod t (writeInt pid)).find? (·.pid = pid)).getD ⟨-1, [], [], 0, 0, []⟩

end Listing

/-- What the shell between single quotes, or `grep` in a pattern, does not take for itself. -/
def isMeta (c : UInt8) : Bool := c = 0 || c ∈ lit "'\n.[*^$\\"

def Plain (filter : Str) : Prop := ∀ c ∈ filter, isMeta c = false

instance (filter : Str) : Decidable (Plain filter) := List.decidableBAll _ _

/-- A line that contains the filter, ignoring case, and not `grep`. -/
def selected (filter line : Str) : Bool := inLineIgnoringCase filter line && !inLine (lit "grep") line

/-! ## What the pipeline prints -/

theorem fgetsLoop_eq {s : Str} (h : 0 ∉ s) (room : Nat) : fgetsLoop room false s = s := by
  induction s generalizing room with
  | nil => rfl
  | cons c s ih =>
    obtain ⟨hc, hs⟩ := List.ne_and_not_mem_of_not_mem_cons h
    simp [fgetsLoop, Ne.symm hc, ih hs]

theorem zero_notMem_unlines {ls : List Str} (h : ∀ l ∈ ls, 0 ∉ l) : 0 ∉ unlines ls := by
  intro hm
  obtain ⟨l, hl, hz⟩ := List.mem_flatMap.1 hm
  rcases List.mem_append.1 hz with hz | hz
  · exact h l hl hz
  · revert hz
    decide

theorem pipeline_all : pipeline (lit "ps aux 2>&1") =
    some [[.word (lit "ps"), .word (lit "aux"), .redirect (lit "2") (lit ">&") (lit "1")]] := by
  rw [lit_ofList]
  decide

/-- A filter without a single quote is one argument of the first `grep`. -/
theorem pipeline_grep {filter : Str} (h : ch '\'' ∉ filter) :
    pipeline (lit "ps aux | grep -i " ++ ch '\'' :: (filter ++ ch '\'' :: lit " | grep -v grep 2>&1")) =
      some [[.word (lit "ps"), .word (lit "aux")], [.word (lit "grep"), .word (lit "-i"), .word filter],
        [.word (lit "grep"), .word (lit "-v"), .word (lit "grep"), .redirect (lit "2") (lit ">&") (lit "1")]] := by
  have hopen : ∀ c ∈ lit "ps aux | grep -i ", isLiteral c = true := List.all_eq_true.1 (by decide)
  have hclose : ∀ c ∈ lit " | grep -v grep 2>&1", isLiteral c = true := List.all_eq_true.1 (by decide)
  have hrun := run_literal_append hopen (ch '\'' :: (filter ++ ch '\'' :: lit " | grep -v grep 2>&1"))
  rw [run_singleQuoted h, run_literal hclose] at hrun
  rw [pipeline_of_run hrun]
  -- The bars stand outside the quotes.
  have hps : bar ∉ chars false (lit "ps aux ") := by decide
  have hgrep : bar ∉ chars false (lit " grep -i ") ++ (.quote :: chars true filter ++ chars false (lit " ")) := by
    simp only [List.mem_append, List.mem_cons, not_or]
    exact ⟨by decide, ⟨by decide, bar_notMem_quoted filter⟩, by decide⟩
  have hlast : bar ∉ chars false (lit " grep -v grep 2>&1") := by decide
  have hitems : chars false (lit "ps aux | grep -i ") ++ (.quote :: chars true filter ++ chars false (lit " | grep -v grep 2>&1")) =
      chars false (lit "ps aux ") ++ bar :: (chars false (lit " grep -i ") ++ (.quote :: chars true filter ++ chars false (lit " ")) ++
        bar :: chars false (lit " grep -v grep 2>&1")) := by
    have hleft : chars false (lit "ps aux | grep -i ") = chars false (lit "ps aux ") ++ bar :: chars false (lit " grep -i ") := rfl
    have hright : chars false (lit " | grep -v grep 2>&1") = chars false (lit " ") ++ bar :: chars false (lit " grep -v grep 2>&1") := rfl
    rw [hleft, hright]
    simp
  have hfirst : parts false (chars false (lit "ps aux ")) = some [.word (lit "ps"), .word (lit "aux")] := by decide
  have hthird : parts false (chars false (lit " grep -v grep 2>&1")) =
      some [.word (lit "grep"), .word (lit "-v"), .word (lit "grep"), .redirect (lit "2") (lit ">&") (lit "1")] := by decide
  have hsecond : parts false (chars false (lit " grep -i ") ++ (.quote :: chars true filter ++ chars false (lit " "))) =
      some [.word (lit "grep"), .word (lit "-i"), .word filter] := by
    have htext : chars false (lit " grep -i ") ++ (.quote :: chars true filter ++ chars false (lit " ")) =
        space :: (chars false (lit "grep") ++ space :: (chars false (lit "-i") ++ space :: (.quote :: chars true filter ++ space :: []))) := rfl
    rw [htext, parts_space, parts_word (by decide) (by decide) (.inr (by decide)),
      parts_word (by decide) (by decide) (.inl rfl), parts_quoted]
    rfl
  rw [hitems, splitOnP_bar hps, splitOnP_bar hgrep, splitOnP_last hlast]
  simp only [List.mapM_cons, List.mapM_nil, hfirst, hsecond, hthird]
  rfl

theorem lines_text (t : PsTable) : lines t.text = t.header :: t.rows :=
  lines_unlines fun l hl => (t.clean l hl).1

theorem lines_grep (keep : Str → Bool) (input : Str) : lines (grep keep input) = (lines input).filter keep :=
  lines_unlines fun _ hl => newline_notMem_lines (List.mem_filter.1 hl).1

/-- The lines that are not filtered out, the header among them. -/
def printed (t : PsTable) (filter : Str) : List Str :=
  if filter = [] then t.header :: t.rows else (t.header :: t.rows).filter (selected filter)

theorem lines_runProcess (t : PsTable) {filter : Str} (h : Plain filter) :
    lines (runProcess t (psCommand filter)) = printed t filter := by
  unfold printed
  split
  · next hnil =>
    subst hnil
    have hcut : cString (lit "ps aux" ++ [] ++ lit " 2>&1") = lit "ps aux 2>&1" := by decide
    have hout : popen t (psCommand [] ++ lit " 2>&1") = t.text := by
      simp only [popen, psCommand, if_true, hcut, pipeline_all]
      rfl
    have hzero : 0 ∉ t.text := zero_notMem_unlines fun l hl => (t.clean l hl).2
    rw [runProcess, hout, fgetsLoop_eq hzero, lines_text]
  · next hne =>
    have hquote : ch '\'' ∉ filter := fun hm => absurd (h _ hm) (by decide)
    have hnul : 0 ∉ filter := fun hm => absurd (h _ hm) (by decide)
    have hline : psCommand filter ++ lit " 2>&1" =
        lit "ps aux | grep -i " ++ ch '\'' :: (filter ++ ch '\'' :: lit " | grep -v grep 2>&1") := by
      simp [psCommand, hne, lit]
    have hcut : 0 ∉ lit "ps aux | grep -i " ++ ch '\'' :: (filter ++ ch '\'' :: lit " | grep -v grep 2>&1") := by
      simp only [List.mem_append, List.mem_cons, not_or]
      exact ⟨by decide, by decide, hnul, by decide, by decide⟩
    have hout : popen t (psCommand filter ++ lit " 2>&1") =
        grep (!inLine (lit "grep") ·) (grep (inLineIgnoringCase filter) t.text) := by
      rw [hline, popen, cString_self hcut, pipeline_grep hquote]
      rfl
    have hzero : 0 ∉ popen t (psCommand filter ++ lit " 2>&1") := by
      rw [hout]
      apply zero_notMem_unlines
      intro l hl
      have hl := (List.mem_filter.1 hl).1
      rw [lines_grep, lines_text] at hl
      exact (t.clean l (List.mem_filter.1 hl).1).2
    rw [runProcess, fgetsLoop_eq hzero, hout, lines_grep, lines_grep, lines_text, List.filter_filter]
    congr 1
    funext line
    exact Bool.and_comm _ _

/-! ## No process is lost -/

section Complete
variable {Double : Type} (stod : Str → Option Double)

/-- Every selected line that reads as a process has its entry, in the order of the table. -/
def Lossless (t : PsTable) (filter : Str) : Prop :=
  ((t.rows.filter (selected filter)).filterMap (entry stod)).Sublist (listProcesses stod t filter)

/-- The entry of a line that contains the number and whose pid column it is. -/
def IsProcess (t : PsTable) (pid : Int) (p : ProcessInfo Double) : Prop :=
  ∃ row ∈ t.rows, selected (writeInt pid) row = true ∧ entry stod row = some p ∧ p.pid = pid

def Finds [Zero Double] (t : PsTable) (pid : Int) : Prop :=
  (∃ p, IsProcess stod t pid p) → IsProcess stod t pid (getProcessInfo stod t pid)

def pidOf (row : Str) : Option Int := (entry stod row).map (·.pid)

/-- The first selected line is no process with the pid, or another one is. -/
def FoundLater (t : PsTable) (pid : Int) : Prop :=
  ∀ row ∈ (t.rows.filter (selected (writeInt pid))).head?, pidOf stod row = some pid →
    ∃ row' ∈ (t.rows.filter (selected (writeInt pid))).tail, pidOf stod row' = some pid

variable {stod}

/-- Only a header that is printed is skipped as one. -/
theorem listProcesses_eq (t : PsTable) {filter : Str} (h : Plain filter) (hne : filter ≠ []) :
    listProcesses stod t filter =
      (if selected filter t.header = true then t.rows.filter (selected filter)
        else (t.rows.filter (selected filter)).tail).filterMap (entry stod) := by
  rw [listProcesses, lines_runProcess t h, printed, if_neg hne, List.filter_cons]
  split <;> rfl

theorem filterMap_sublist_tail_iff {α β : Type} {f : α → Option β} {l : List α} :
    (l.filterMap f).Sublist (l.tail.filterMap f) ↔ ∀ a ∈ l.head?, f a = none := by
  rcases l with _ | ⟨a, l⟩
  · simp
  · simp only [List.tail_cons, List.head?_cons, Option.mem_some_iff, forall_eq']
    constructor
    · intro hs
      by_contra hne
      obtain ⟨b, hb⟩ := Option.ne_none_iff_exists'.1 hne
      have hlen := hs.length_le
      rw [List.filterMap_cons_some hb, List.length_cons] at hlen
      omega
    · intro ha
      rw [List.filterMap_cons_none ha]

theorem lossless_iff (t : PsTable) {filter : Str} (h : Plain filter) :
    Lossless stod t filter ↔ filter = [] ∨ selected filter t.header = true ∨
      ∀ row ∈ (t.rows.filter (selected filter)).head?, entry stod row = none := by
  by_cases hnil : filter = []
  · have hall : listProcesses stod t filter = t.rows.filterMap (entry stod) := by
      rw [listProcesses, lines_runProcess t h, printed, if_pos hnil, List.tail_cons]
    refine iff_of_true ?_ (.inl hnil)
    rw [Lossless, hall]
    exact List.filter_sublist.filterMap _
  · rw [Lossless, listProcesses_eq t h hnil]
    by_cases hheader : selected filter t.header = true
    · rw [if_pos hheader]
      exact iff_of_true (List.Sublist.refl _) (.inr (.inl hheader))
    · rw [if_neg hheader, filterMap_sublist_tail_iff]
      simp [hnil, hheader]

/-! ## `get_process_info` -/

theorem plain_writeInt (n : Int) : Plain (writeInt n) := by
  intro c hc
  rcases mem_writeInt hc with rfl | hdigit
  · decide
  · have hall : (lit "'\n.[*^$\\").all (!isDigit ·) = true := by decide
    have hzero : isDigit 0 = false := by decide
    by_contra hm
    simp only [isMeta, Bool.not_eq_false, Bool.or_eq_true, decide_eq_true_eq] at hm
    rcases hm with rfl | hm
    · rw [hzero] at hdigit
      cases hdigit
    · have hno := List.all_eq_true.1 hall c hm
      rw [hdigit] at hno
      cases hno

/-- A line with a process names a user. -/
theorem entry_user {row : Str} {p : ProcessInfo Double} (h : entry stod row = some p) : p.user ≠ [] := by
  simp only [entry, takeFields] at h
  obtain ⟨pid, hpid, h⟩ := Option.bind_eq_some_iff.1 h
  obtain ⟨cpu, -, h⟩ := Option.bind_eq_some_iff.1 h
  obtain ⟨mem, -, h⟩ := Option.bind_eq_some_iff.1 h
  cases h
  intro hu
  -- Without a first field there is no second one either.
  have hblank : row.dropWhile isSpace = [] := by
    by_contra hne
    have hhead := List.head_dropWhile_not isSpace hne
    rw [← List.cons_head_tail hne, List.takeWhile_cons_of_pos (by simpa using hhead)] at hu
    cases hu
  rw [hblank] at hpid
  cases hpid

/-- The process is found iff it is listed. -/
theorem isProcess_getProcessInfo [Zero Double] (t : PsTable) (pid : Int) :
    IsProcess stod t pid (getProcessInfo stod t pid) ↔ ∃ p ∈ listProcesses stod t (writeInt pid), p.pid = pid := by
  have hlisted : ∀ p ∈ listProcesses stod t (writeInt pid), p.pid = pid → IsProcess stod t pid p := by
    intro p hp hpid
    rw [listProcesses_eq t (plain_writeInt pid) (writeInt_ne_nil pid)] at hp
    obtain ⟨row, hrow, hentry⟩ := List.mem_filterMap.1 hp
    have hmem : row ∈ t.rows.filter (selected (writeInt pid)) := by
      split at hrow
      · exact hrow
      · exact List.mem_of_mem_tail hrow
    obtain ⟨hrow, hsel⟩ := List.mem_filter.1 hmem
    exact ⟨row, hrow, hsel, hentry, hpid⟩
  unfold getProcessInfo
  rcases hf : (listProcesses stod t (writeInt pid)).find? (·.pid = pid) with _ | p
  all_goals rw [hf]
  · -- The answer for no process has no user, as no process has.
    refine iff_of_false ?_ ?_
    · rintro ⟨row, -, -, hentry, -⟩
      exact entry_user hentry rfl
    · rintro ⟨p, hp, hpid⟩
      simpa [hpid] using List.find?_eq_none.1 hf p hp
  · have hpid : p.pid = pid := by simpa using List.find?_some hf
    exact iff_of_true (hlisted p (List.mem_of_find?_eq_some hf) hpid) ⟨p, List.mem_of_find?_eq_some hf, hpid⟩

theorem exists_pidOf {rows : List Str} {pid : Int} :
    (∃ p ∈ rows.filterMap (entry stod), p.pid = pid) ↔ ∃ row ∈ rows, pidOf stod row = some pid := by
  simp only [List.mem_filterMap, pidOf, Option.map_eq_some_iff]
  constructor
  · rintro ⟨p, ⟨row, hrow, hentry⟩, hpid⟩
    exact ⟨row, hrow, p, hentry, hpid⟩
  · rintro ⟨row, hrow, p, hentry, hpid⟩
    exact ⟨p, ⟨row, hrow, hentry⟩, hpid⟩

theorem finds_iff [Zero Double] (t : PsTable) (pid : Int) :
    Finds stod t pid ↔ selected (writeInt pid) t.header = true ∨ FoundLater stod t pid := by
  have hsome : (∃ p, IsProcess stod t pid p) ↔ ∃ row ∈ t.rows.filter (selected (writeInt pid)), pidOf stod row = some pid := by
    simp only [IsProcess, pidOf, List.mem_filter, Option.map_eq_some_iff]
    constructor
    · rintro ⟨p, row, hrow, hsel, hentry, hpid⟩
      exact ⟨row, ⟨hrow, hsel⟩, p, hentry, hpid⟩
    · rintro ⟨row, ⟨hrow, hsel⟩, p, hentry, hpid⟩
      exact ⟨p, row, hrow, hsel, hentry, hpid⟩
  rw [Finds, isProcess_getProcessInfo, listProcesses_eq t (plain_writeInt pid) (writeInt_ne_nil pid), exists_pidOf, hsome, FoundLater]
  by_cases hheader : selected (writeInt pid) t.header = true
  · rw [if_pos hheader]
    exact iff_of_true id (.inl hheader)
  · rw [if_neg hheader]
    rcases t.rows.filter (selected (writeInt pid)) with _ | ⟨row, rows⟩
    · simp
    · have hfirst : (∃ row' ∈ row :: rows, pidOf stod row' = some pid) ↔
          pidOf stod row = some pid ∨ ∃ row' ∈ rows, pidOf stod row' = some pid := by simp
      rw [hfirst, List.tail_cons, List.head?_cons]
      simp only [Option.mem_some_iff, forall_eq']
      constructor
      · intro h
        exact .inr fun hrow => h (.inl hrow)
      · rintro h (hrow | hrow)
        · exact h.resolve_left hheader hrow
        · exact hrow

/-- A listing has all selected processes exactly if its filter keeps the header or the
first line it keeps is no process; a process is found by its pid exactly if the header
has the digits in it or the first line that has them is not the only one it is found by. -/
theorem listing_complete_iff [Zero Double] (t : PsTable) (filter : Str) (h : Plain filter) (pid : Int) :
    (Lossless stod t filter ↔ filter = [] ∨ selected filter t.header = true ∨
      ∀ row ∈ (t.rows.filter (selected filter)).head?, entry stod row = none) ∧
    (Finds stod t pid ↔ selected (writeInt pid) t.header = true ∨ FoundLater stod t pid) :=
  ⟨lossless_iff t h, finds_iff t pid⟩

end Complete

/-- A column with a point, in units of its last digit. -/
def fixedPoint (s : Str) : Option Nat := decimal (s.filter (· ≠ ch '.'))

def psHeader : Str := lit "USER PID %CPU %MEM VSZ RSS TTY STAT START TIME COMMAND"

def nginxRow : Str := lit "root 812 0.0 0.1 55284 1532 ? Ss 10:02 0:00 nginx: master process"

def oneProcess : PsTable where
  header := psHeader
  rows := [nginxRow]
  clean := by
    have hall : [psHeader, nginxRow].all (fun l => l.all fun c => c ≠ ch '\n' && c ≠ 0) = true := by
      rw [psHeader, nginxRow, lit_ofList, lit_ofList]
      decide
    intro l hl
    have hclean := List.all_eq_true.1 (List.all_eq_true.1 hall l hl)
    exact ⟨fun hm => absurd (hclean _ hm) (by decide), fun hm => absurd (hclean _ hm) (by decide)⟩

theorem listing_complete_iff_nginx : Plain (lit "nginx") ∧
    (Lossless fixedPoint oneProcess (lit "nginx") ↔ lit "nginx" = [] ∨ selected (lit "nginx") psHeader = true ∨
      ∀ row ∈ ([nginxRow].filter (selected (lit "nginx"))).head?, entry fixedPoint row = none) ∧
    (Finds fixedPoint oneProcess 812 ↔ selected (writeInt 812) psHeader = true ∨ FoundLater fixedPoint oneProcess 812) :=
  ⟨by decide, listing_complete_iff oneProcess (lit "nginx") (by decide) 812⟩

/-- The only process is listed, but neither under its name nor under its pid. -/
theorem nginx_lost : Plain (lit "nginx") ∧ ¬ Lossless fixedPoint oneProcess (lit "nginx") ∧ ¬ Finds fixedPoint oneProcess 812 := by
  have hplain : Plain (lit "nginx") := by decide
  have hpid : pidOf fixedPoint nginxRow = some 812 := by decide
  have hentry : entry fixedPoint nginxRow ≠ none := by
    intro h
    rw [pidOf, h] at hpid
    cases hpid
  constructor
  · exact hplain
  constructor
  · rw [lossless_iff _ hplain]
    have hheader : selected (lit "nginx") psHeader = false := by rfl
    have hrow : selected (lit "nginx") nginxRow = true := by rfl
    rintro (h | h | h)
    · cases h
    · exact absurd (hheader.symm.trans h) (by decide)
    · exact hentry (h nginxRow (by simp [oneProcess, hrow]))
  · rw [finds_iff]
    have hdigits : writeInt 812 = lit "812" := by decide
    have hheader : selected (lit "812") psHeader = false := by rfl
    have hrow : selected (lit "812") nginxRow = true := by rfl
    rw [FoundLater, hdigits]
    rintro (h | h)
    · exact absurd (hheader.symm.trans h) (by decide)
    · obtain ⟨row, hmem, -⟩ := h nginxRow (by simp [oneProcess, hrow]) hpid
      simp [oneProcess, hrow] at hmem

end McpBridge.Tools.Processes
