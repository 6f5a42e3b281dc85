import McpBridge.Core.Common
import McpBridge.Lib.Map
import McpBridge.Lib.Runs
/-!
# Background processes (`tools/exec/command_ops.cpp`)

One table of processes serves all users. An entry has the pid, the name, the
command and the output file, whose name comes from a hash of the command; it does
not say who started the process. The model adds what the table leaves out: the
processes of the machine, the one each entry was made for with the user who
started it, and for each byte of a file the job that wrote it.

`run_background` takes a pid that is in use by no process. Between the calls
processes fork, open and write files, and exit. `Isolated` is what each call owes
its caller, `Careful` when it keeps to it.
-/

open McpBridge.Lib McpBridge.Core

namespace McpBridge.Tools.Background

structure BackgroundProc where
  pid : Int
  name : Str
  command : Str
  outputFile : Str
deriving DecidableEq

/-- A process of the machine. A job is what one `run_background` started, with
the children of the process; a process of no job has no starter. -/
structure Proc where
  serial : Nat
  job : Nat
  group : Int
  starter : Option Str
deriving DecidableEq

/-- A byte of a file, and the job that wrote it. -/
structure Written where
  job : Nat
  byte : UInt8
deriving DecidableEq

/-- A byte that is returned. The newline after a line is the tool's. -/
inductive Returned where
  | written (c : Written)
  | newline
deriving DecidableEq

def Returned.byte : Returned → UInt8
  | .written c => c.byte
  | .newline => ch '\n'

structure World where
  bgProcs : Map Int BackgroundProc
  /-- The process an entry was made for. -/
  recorded : Map Int Proc
  alive : Map Int Proc
  files : Map Str (List Written)
  /-- The process group of the daemon. -/
  daemonGroup : Int
  serials : Nat

namespace World
variable (w : World)

def content (path : Str) : List Written := (w.files.lookup path).getD []

/-- The user started the process that the entry with this pid was made for. -/
def startedBy (user : Str) (pid : Int) : Bool := (w.recorded.lookup pid).any (·.starter = some user)

/-- The processes `kill` is about: one, or those of a group, or all. -/
def targets (pid : Int) : List Proc :=
  if 0 < pid then (w.alive.lookup pid).toList
  else if pid = 0 then w.alive.values.filter (·.group = w.daemonGroup)
  else if pid = -1 then w.alive.values
  else w.alive.values.filter (·.group = -pid)

/-- The processes that get the signal. Signal 0 only asks whether there are any. -/
def signalled (pid sig : Int) (permits : Nat → Bool) : List Proc :=
  if 1 ≤ sig ∧ sig ≤ 64 then (w.targets pid).filter (permits ·.serial) else []

def killProcessByPid (pid sig : Int) (permits : Nat → Bool) : Bool :=
  0 ≤ sig && sig ≤ 64 && (w.targets pid).any (permits ·.serial)

end World

/-! ## The calls -/

inductive Reply where
  | failed (what : Str)
  | started (pid : Int) (name command runAs : Str)
  | listed (processes : List (Int × Str × Str))
  | killed (pid signal : Int) (killed : Bool)
  | output (pid : Int) (output : List Returned) (lines : Nat)
  | none
deriving DecidableEq

/-- A call of a tool, or something a process does. -/
inductive Event where
  | runBackground (ctx : RequestContext) (command : Str) (name : Option Str) (pid : Int)
  | listBackground (ctx : RequestContext)
  | killBackground (ctx : RequestContext) (pid : Int) (signal : Option Int) (permits : Nat → Bool)
  | getOutput (ctx : RequestContext) (pid : Int) (lines : Option Int) (readable : Bool)
  | forks (parent : Option Int) (pid group : Int)
  | opens (pid : Int) (path : Str)
  | writes (pid : Int) (path text : Str)
  | exits (pid : Int)

section
variable (hash : Str → Nat)

def outputFile (cmd : Str) : Str := lit "/tmp/mcp_bg_" ++ writeNat (hash cmd) ++ lit ".log"

/-- `spawn_background_as` returned `pid`. No process had that pid. -/
def runBackground (ctx : RequestContext) (cmd : Str) (name : Option Str) (pid : Int) (w : World) : Option (World × Reply) :=
  let name := name.getD (cmd.take 30)
  if ctx.osUsername = [] then some (w, .failed (lit "run_background: request has no bound os_username"))
  else if pid < 0 then some (w, .failed (lit "Failed to spawn background process"))
  else if pid = 0 ∨ (w.alive.lookup pid).isSome then none
  else
    let p : Proc := ⟨w.serials, w.serials, pid, some ctx.userId⟩
    some ({ w with
      bgProcs := w.bgProcs.insert pid ⟨pid, name, cmd, outputFile hash cmd⟩
      recorded := w.recorded.insert pid p
      alive := w.alive.insert pid p
      serials := w.serials + 1 }, .started pid name cmd ctx.osUsername)

def listBackground (w : World) : Reply := .listed (w.bgProcs.values.map fun p => (p.pid, p.name, p.command))

def killBackground (pid : Int) (signal : Option Int) (permits : Nat → Bool) (w : World) : World × Reply :=
  let sig := signal.getD 15
  ({ w with bgProcs := w.bgProcs.erase pid, recorded := w.recorded.erase pid },
    .killed pid sig (w.killProcessByPid pid sig permits))

/-- What `getline` reads. -/
def allLines : List Written → List (List Written)
  | [] => []
  | c :: cs =>
    if c.byte = ch '\n' then [] :: allLines cs
    else match allLines cs with
      | [] => [[c]]
      | l :: ls => (c :: l) :: ls

/-- The last lines of a file. -/
def lastLines (n : Int) (bytes : List Written) : List Returned :=
  ((allLines bytes).drop ((allLines bytes).length - n).toNat).flatMap fun l => l.map .written ++ [.newline]

def getOutput (pid : Int) (n : Option Int) (readable : Bool) (w : World) : Reply :=
  match w.bgProcs.lookup pid with
  | none => .failed (lit "No managed background process with pid: " ++ writeInt pid)
  | some p =>
    match if readable then w.files.lookup p.outputFile else none with
    | none => .output pid [] 0
    | some bytes => .output pid (lastLines (n.getD 100) bytes) (allLines bytes).length

/-! ## The processes -/

/-- A child belongs to the job of its parent. -/
def forks (parent : Option Int) (pid group : Int) (w : World) : Option World :=
  if pid ≤ 0 ∨ (w.alive.lookup pid).isSome then none
  else
    match parent with
    | none =>
      let p : Proc := ⟨w.serials, w.serials, group, none⟩
      some { w with alive := w.alive.insert pid p, serials := w.serials + 1 }
    | some parent => (w.alive.lookup parent).map fun q =>
      let p : Proc := ⟨w.serials, q.job, group, q.starter⟩
      { w with alive := w.alive.insert pid p, serials := w.serials + 1 }

/-- A process opens a file for writing, which empties it. -/
def opens (pid : Int) (path : Str) (w : World) : Option World :=
  (w.alive.lookup pid).map fun _ => { w with files := w.files.insert path [] }

def writes (pid : Int) (path text : Str) (w : World) : Option World :=
  (w.alive.lookup pid).map fun p => { w with files := w.files.insert path (w.content path ++ text.map (⟨p.job, ·⟩)) }

def step (w : World) : Event → Option (World × Reply)
  | .runBackground ctx cmd name pid => runBackground hash ctx cmd name pid w
  | .listBackground _ => some (w, listBackground w)
  | .killBackground _ pid signal permits => some (killBackground pid signal permits w)
  | .getOutput _ pid n readable => some (w, getOutput pid n readable w)
  | .forks parent pid group => (forks parent pid group w).map (·, .none)
  | .opens pid path => (opens pid path w).map (·, .none)
  | .writes pid path text => (writes pid path text w).map (·, .none)
  | .exits pid => some ({ w with alive := w.alive.erase pid }, .none)

def next (w : World) (e : Event) : Option World := (step hash w e).map (·.1)

end

/-! ## What a call owes its caller -/

/-- Output comes of an entry the caller started, and every byte of it but the
newlines the tool puts in was written by the job of that entry. A list has only the caller's processes. A signal
goes only to a process that is recorded and the caller's, and only such a process
is dropped. -/
def Isolated (w : World) : Event → Prop
  | .getOutput ctx pid n readable => ∀ text total, getOutput pid n readable w = .output pid text total →
      ∃ p, w.recorded.lookup pid = some p ∧ p.starter = some ctx.userId ∧ ∀ c, .written c ∈ text → c.job = p.job
  | .listBackground ctx => ∀ ps, listBackground w = .listed ps → ∀ q ∈ ps, w.startedBy ctx.userId q.1 = true
  | .killBackground ctx pid signal permits =>
    (∀ p ∈ w.signalled pid (signal.getD 15) permits,
      ∃ q, (w.bgProcs.lookup q).isSome ∧ w.recorded.lookup q = some p ∧ w.startedBy ctx.userId q = true) ∧
    ∀ q b, w.bgProcs.lookup q = some b →
      (killBackground pid signal permits w).1.bgProcs.lookup q = none → w.startedBy ctx.userId q = true
  | _ => True

/-- The condition on an event. A command is started only while its output file
is empty, and a process writes to no output file of another job. A user lists the
table only while it has no other's entries, asks for the output of no other's
entry, and signals an entry of his own while no other process has its pid, or a
pid that is no entry's and reaches nothing. -/
def Careful (hash : Str → Nat) (w : World) : Event → Prop
  | .runBackground _ cmd _ _ => w.content (outputFile hash cmd) = []
  | .writes pid path _ => ∀ e ∈ w.bgProcs.entries, e.2.outputFile = path →
      (w.recorded.lookup e.1).map (·.job) = (w.alive.lookup pid).map (·.job)
  | .listBackground ctx => ∀ e ∈ w.bgProcs.entries, w.startedBy ctx.userId e.1 = true
  | .getOutput ctx pid _ _ => (w.bgProcs.lookup pid).isSome → w.startedBy ctx.userId pid = true
  | .killBackground ctx pid signal permits =>
    if (w.bgProcs.lookup pid).isSome then
      w.startedBy ctx.userId pid = true ∧ (w.alive.lookup pid = none ∨ w.alive.lookup pid = w.recorded.lookup pid)
    else w.signalled pid (signal.getD 15) permits = []
  | _ => True

instance carefulDecidable (hash : Str → Nat) (w : World) : ∀ e, Decidable (Careful hash w e)
  | .runBackground _ cmd _ _ => inferInstanceAs (Decidable (w.content (outputFile hash cmd) = []))
  | .writes pid path _ => inferInstanceAs (Decidable (∀ e ∈ w.bgProcs.entries, e.2.outputFile = path →
      (w.recorded.lookup e.1).map (·.job) = (w.alive.lookup pid).map (·.job)))
  | .listBackground ctx => inferInstanceAs (Decidable (∀ e ∈ w.bgProcs.entries, w.startedBy ctx.userId e.1 = true))
  | .getOutput ctx pid _ _ => inferInstanceAs (Decidable ((w.bgProcs.lookup pid).isSome → w.startedBy ctx.userId pid = true))
  | .killBackground ctx pid signal permits => inferInstanceAs (Decidable (if (w.bgProcs.lookup pid).isSome then
      w.startedBy ctx.userId pid = true ∧ (w.alive.lookup pid = none ∨ w.alive.lookup pid = w.recorded.lookup pid)
    else w.signalled pid (signal.getD 15) permits = []))
  | .forks _ _ _ | .opens _ _ | .exits _ => inferInstanceAs (Decidable True)

/-! ## The table -/

/-- Entries are kept under their pids, are made for a process, and their output
files hold nothing but what its job wrote. -/
structure Kept (w : World) (pid : Int) (b : BackgroundProc) : Prop where
  pid_eq : b.pid = pid
  positive : 0 < pid
  own : ∃ p, w.recorded.lookup pid = some p ∧ ∀ c ∈ w.content b.outputFile, c.job = p.job

def Inv (w : World) : Prop := ∀ pid b, w.bgProcs.lookup pid = some b → Kept w pid b

/-- An event that leaves the table alone and adds no foreign byte to an output file. -/
theorem Inv.frame {w w' : World} (h : Inv w) (ht : w'.bgProcs = w.bgProcs) (hr : w'.recorded = w.recorded)
    (hc : ∀ pid b p, w.bgProcs.lookup pid = some b → w.recorded.lookup pid = some p →
      ∀ c ∈ w'.content b.outputFile, c ∈ w.content b.outputFile ∨ c.job = p.job) : Inv w' := by
  intro pid b hl
  rw [ht] at hl
  obtain ⟨hpid, hpos, p, hp, hown⟩ := h pid b hl
  refine ⟨hpid, hpos, p, by rw [hr, hp], fun c hm => ?_⟩
  rcases hc pid b p hl hp c hm with hm | hj
  · exact hown c hm
  · exact hj

theorem runBackground_inv {hash : Str → Nat} {ctx : RequestContext} {cmd : Str} {name : Option Str} {pid : Int} {w : World}
    {r : World × Reply} (hi : Inv w) (hempty : w.content (outputFile hash cmd) = [])
    (h : runBackground hash ctx cmd name pid w = some r) : Inv r.1 := by
  unfold runBackground at h
  split at h
  · cases h
    exact hi
  split at h
  · cases h
    exact hi
  split at h
  · cases h
  · next hneg hpid =>
    cases h
    intro q b hl
    simp only [Map.lookup_insert_if] at hl
    have hzero : pid ≠ 0 := fun h0 => hpid (.inl h0)
    split at hl
    · next hq =>
      cases hl
      subst hq
      refine ⟨rfl, by omega, ⟨w.serials, w.serials, q, some ctx.userId⟩, by simp, ?_⟩
      intro c hc
      have hc : c ∈ w.content (outputFile hash cmd) := hc
      rw [hempty] at hc
      cases hc
    · next hq =>
      obtain ⟨hb, hpos, p, hp, hown⟩ := hi q b hl
      exact ⟨hb, hpos, p, by simp [hq, hp], hown⟩

theorem killBackground_inv {pid : Int} {signal : Option Int} {permits : Nat → Bool} {w : World} (hi : Inv w) :
    Inv (killBackground pid signal permits w).1 := by
  intro q b hl
  simp only [killBackground, Map.lookup_erase_if] at hl
  split at hl
  · cases hl
  · next hq =>
    obtain ⟨hb, hpos, p, hp, hown⟩ := hi q b hl
    exact ⟨hb, hpos, p, by simp [killBackground, hq, hp], hown⟩

theorem content_insert (w : World) (path path' : Str) (bytes : List Written) :
    ({ w with files := w.files.insert path bytes } : World).content path' = if path' = path then bytes else w.content path' := by
  simp only [World.content, Map.lookup_insert_if]
  split <;> rfl

theorem opens_inv {pid : Int} {path : Str} {w w' : World} (hi : Inv w) (h : opens pid path w = some w') : Inv w' := by
  obtain ⟨p, -, rfl⟩ := Option.map_eq_some_iff.1 h
  refine hi.frame rfl rfl fun q b p _ _ c hc => ?_
  rw [content_insert] at hc
  split at hc
  · cases hc
  · exact .inl hc

theorem writes_inv {hash : Str → Nat} {pid : Int} {path text : Str} {w w' : World} (hi : Inv w)
    (hcare : Careful hash w (.writes pid path text)) (h : writes pid path text w = some w') : Inv w' := by
  obtain ⟨writer, hwriter, rfl⟩ := Option.map_eq_some_iff.1 h
  refine hi.frame rfl rfl fun q b p hb hp c hc => ?_
  rw [content_insert] at hc
  split at hc
  · next hpath =>
    -- A byte that is new in the file is the writer's, and the writer is of the entry's job.
    rcases List.mem_append.1 hc with hc | hc
    · exact .inl (hpath ▸ hc)
    · obtain ⟨x, -, rfl⟩ := List.mem_map.1 hc
      have hjob := hcare ⟨q, b⟩ (Map.mem_entries.2 hb) hpath
      rw [hp, hwriter] at hjob
      exact .inr (Option.some.inj hjob).symm
  · exact .inl hc

theorem forks_frame {parent : Option Int} {pid group : Int} {w w' : World} (h : forks parent pid group w = some w') :
    w'.bgProcs = w.bgProcs ∧ w'.recorded = w.recorded ∧ w'.files = w.files := by
  unfold forks at h
  split at h
  · cases h
  split at h
  · cases h
    exact ⟨rfl, rfl, rfl⟩
  · obtain ⟨q, -, rfl⟩ := Option.map_eq_some_iff.1 h
    exact ⟨rfl, rfl, rfl⟩

theorem step_inv {hash : Str → Nat} {w w' : World} {e : Event} (hi : Inv w) (hcare : Careful hash w e)
    (h : next hash w e = some w') : Inv w' := by
  obtain ⟨r, hr, rfl⟩ := Option.map_eq_some_iff.1 h
  cases e with
  | runBackground ctx cmd name pid => exact runBackground_inv hi hcare hr
  | listBackground ctx =>
    cases hr
    exact hi
  | killBackground ctx pid signal permits =>
    cases hr
    exact killBackground_inv hi
  | getOutput ctx pid n readable =>
    cases hr
    exact hi
  | forks parent pid group =>
    obtain ⟨w', hf, rfl⟩ := Option.map_eq_some_iff.1 hr
    obtain ⟨ht, hrec, hfiles⟩ := forks_frame hf
    refine hi.frame ht hrec fun q b p _ _ c hc => .inl ?_
    simpa [World.content, hfiles] using hc
  | opens pid path =>
    obtain ⟨w', ho, rfl⟩ := Option.map_eq_some_iff.1 hr
    exact opens_inv hi ho
  | writes pid path text =>
    obtain ⟨w', hw, rfl⟩ := Option.map_eq_some_iff.1 hr
    exact writes_inv hi hcare hw
  | exits pid =>
    cases hr
    exact hi.frame rfl rfl fun _ _ _ _ _ _ hc => .inl hc

/-! ## Each call -/

theorem mem_allLines {bytes l : List Written} {c : Written} (hl : l ∈ allLines bytes) (hc : c ∈ l) : c ∈ bytes := by
  induction bytes generalizing l with
  | nil => cases hl
  | cons b bs ih =>
    rw [allLines] at hl
    split at hl
    · rcases List.mem_cons.1 hl with rfl | hl
      · cases hc
      · exact List.mem_cons_of_mem _ (ih hl hc)
    split at hl
    · rw [List.mem_singleton] at hl
      subst hl
      rw [List.mem_singleton] at hc
      exact hc ▸ List.mem_cons_self
    · next l' ls hls =>
      rw [hls] at ih
      rcases List.mem_cons.1 hl with rfl | hl
      · rcases List.mem_cons.1 hc with rfl | hc
        · exact List.mem_cons_self
        · exact List.mem_cons_of_mem _ (ih List.mem_cons_self hc)
      · exact List.mem_cons_of_mem _ (ih (List.mem_cons_of_mem _ hl) hc)

/-- The bytes of the lines are the lines of the bytes. -/
theorem map_allLines (bytes : List Written) : (allLines bytes).map (List.map (·.byte)) = lines (bytes.map (·.byte)) := by
  induction bytes with
  | nil => rfl
  | cons c cs ih =>
    rw [allLines, List.map_cons, lines, ← ih]
    split
    · simp
    · cases allLines cs <;> simp

theorem written_mem_lastLines {n : Int} {bytes : List Written} {c : Written} (h : .written c ∈ lastLines n bytes) : c ∈ bytes := by
  obtain ⟨l, hl, hc⟩ := List.mem_flatMap.1 h
  rcases List.mem_append.1 hc with hc | hc
  · obtain ⟨c', hc', heq⟩ := List.mem_map.1 hc
    cases heq
    exact mem_allLines (List.mem_of_mem_drop hl) hc'
  · simp at hc

/-- What the caller gets to see: the last lines of the text. -/
theorem map_lastLines (n : Int) (bytes : List Written) :
    (lastLines n bytes).map Returned.byte =
      unlines ((lines (bytes.map (·.byte))).drop ((lines (bytes.map (·.byte))).length - n).toNat) := by
  have hline : ∀ l : List Written,
      (l.map Returned.written ++ [Returned.newline]).map Returned.byte = l.map (·.byte) ++ lit "\n" := by
    intro l
    rw [List.map_append, List.map_map]
    rfl
  rw [← map_allLines, List.length_map, ← List.map_drop, unlines, List.flatMap_map, lastLines, List.map_flatMap]
  exact congrArg (List.flatMap · _) (funext hline)

theorem getOutput_isolated {hash : Str → Nat} {w : World} (hi : Inv w) {ctx : RequestContext} {pid : Int} {n : Option Int}
    {readable : Bool} (hcare : Careful hash w (.getOutput ctx pid n readable)) : Isolated w (.getOutput ctx pid n readable) := by
  intro text total h
  cases hb : w.bgProcs.lookup pid with
  | none =>
    rw [getOutput, hb] at h
    cases h
  | some b =>
    obtain ⟨-, -, p, hp, hown⟩ := hi pid b hb
    have hstarted : w.startedBy ctx.userId pid = true := hcare (by rw [hb]; rfl)
    rw [World.startedBy, hp, Option.any_some, decide_eq_true_eq] at hstarted
    refine ⟨p, hp, hstarted, fun c hc => hown c ?_⟩
    simp only [getOutput, hb] at h
    split at h
    · cases h
      cases hc
    · next bytes hbytes =>
      cases h
      split at hbytes
      · rw [World.content, hbytes]
        exact written_mem_lastLines hc
      · cases hbytes

theorem listBackground_isolated {hash : Str → Nat} {w : World} (hi : Inv w) {ctx : RequestContext}
    (hcare : Careful hash w (.listBackground ctx)) : Isolated w (.listBackground ctx) := by
  rintro ps ⟨⟩ q hq
  obtain ⟨b, hb, rfl⟩ := List.mem_map.1 hq
  obtain ⟨pid, hm⟩ := Map.mem_values.1 hb
  have hpid := (hi pid b (Map.mem_entries.1 hm)).pid_eq
  have hstarted := hcare ⟨pid, b⟩ hm
  rwa [← hpid] at hstarted

theorem killBackground_isolated {hash : Str → Nat} {w : World} (hi : Inv w) {ctx : RequestContext} {pid : Int}
    {signal : Option Int} {permits : Nat → Bool} (hcare : Careful hash w (.killBackground ctx pid signal permits)) :
    Isolated w (.killBackground ctx pid signal permits) := by
  simp only [Careful] at hcare
  constructor
  · intro p hp
    split at hcare
    · next hentry =>
      obtain ⟨hstarted, halive⟩ := hcare
      obtain ⟨b, hb⟩ := Option.isSome_iff_exists.1 hentry
      have hpos := (hi pid b hb).positive
      unfold World.signalled at hp
      split at hp
      · have hp := List.mem_of_mem_filter hp
        rw [World.targets, if_pos hpos, Option.mem_toList] at hp
        have hlive : w.alive.lookup pid = some p := hp
        refine ⟨pid, hentry, ?_, hstarted⟩
        rcases halive with hnone | hsame
        · rw [hnone] at hlive
          cases hlive
        · rw [← hsame, hlive]
      · cases hp
    · rw [hcare] at hp
      cases hp
  · intro q b hb hdropped
    simp only [killBackground, Map.lookup_erase_if] at hdropped
    split at hdropped
    · next hq =>
      subst hq
      rw [hb] at hcare
      exact hcare.1
    · rw [hb] at hdropped
      cases hdropped

theorem careful_isolated {hash : Str → Nat} {w : World} {e : Event} (hi : Inv w) (hcare : Careful hash w e) : Isolated w e := by
  cases e with
  | getOutput ctx pid n readable => exact getOutput_isolated hi hcare
  | listBackground ctx => exact listBackground_isolated hi hcare
  | killBackground ctx pid signal permits => exact killBackground_isolated hi hcare
  | _ => trivial

/-! ## Every run -/

/-- A machine on which nothing was started in the background yet. -/
structure Fresh (w : World) : Prop where
  bgProcs : w.bgProcs = ∅
  recorded : w.recorded = ∅

/-- In every run whose events are careful, every call is isolated. -/
theorem isolated_along (hash : Str → Nat) (w : World) (es : List Event) (h0 : Fresh w) (hc : Along (next hash) (Careful hash) w es) :
    Along (next hash) (fun w e => Isolated w e) w es := by
  have hi : Inv w := by
    intro pid b hl
    rw [h0.bgProcs] at hl
    cases hl
  exact along_of_inv Inv (fun _ _ _ hi hcare hn => step_inv hi hcare hn) (fun _ _ hi hcare => careful_isolated hi hcare) hi hc

def emptyTable : World := ⟨∅, ∅, ∅, ∅, 1, 0⟩

def alice : RequestContext := { userId := lit "a", osUsername := lit "mcp_user_a" }

def bob : RequestContext := { userId := lit "b", osUsername := lit "mcp_user_b" }

/-- A process is started and writes to its output file. -/
def aliceRuns : List Event :=
  [.runBackground alice (lit "id") none 42, .opens 42 (outputFile List.length (lit "id")),
    .writes 42 (outputFile List.length (lit "id")) (lit "uid\n")]

/-- Alice reads, lists and kills what she started. -/
theorem alice_isolated : Along (next List.length) (fun w e => Isolated w e) emptyTable
    (aliceRuns ++ [.getOutput alice 42 none true, .listBackground alice, .killBackground alice 42 none fun _ => true]) :=
  isolated_along List.length emptyTable _ ⟨rfl, rfl⟩ (by decide +kernel)

/-- Bob runs the same command, and his process writes to the same file. -/
def bobRuns : List Event :=
  [.runBackground bob (lit "id") none 43, .opens 43 (outputFile List.length (lit "id")),
    .writes 43 (outputFile List.length (lit "id")) (lit "uid\n")]

/-- Nothing keeps Bob from reading, listing and killing what Alice started, and once
he runs her command, the output she reads is his. -/
theorem bob_not_isolated :
    (∃ w, Fresh emptyTable ∧ run (next List.length) emptyTable aliceRuns = some w ∧
      ¬ Isolated w (.getOutput bob 42 none true) ∧ ¬ Isolated w (.listBackground bob) ∧
        ¬ Isolated w (.killBackground bob 42 none fun _ => true)) ∧
    ∃ w, run (next List.length) emptyTable (aliceRuns ++ bobRuns) = some w ∧ ¬ Isolated w (.getOutput alice 42 none true) := by
  refine ⟨⟨_, ⟨rfl, rfl⟩, rfl, fun h => ?_, fun h => ?_, fun h => ?_⟩, _, rfl, fun h => ?_⟩
  · obtain ⟨p, hp, hstarter, -⟩ := h _ _ rfl
    cases hp
    exact absurd hstarter (by decide)
  · exact absurd (h _ rfl (42, lit "id", lit "id") (by decide)) (by decide)
  · exact absurd (h.2 42 ⟨42, lit "id", lit "id", outputFile List.length (lit "id")⟩ (by decide) (by decide))
      (by decide)
  · obtain ⟨p, hp, -, hown⟩ := h _ _ rfl
    cases hp
    exact absurd (hown ⟨1, ch 'u'⟩ (by decide)) (by decide)

end McpBridge.Tools.Background
