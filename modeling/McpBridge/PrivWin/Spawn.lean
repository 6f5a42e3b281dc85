import McpBridge.Lib.JsonText
/-!
# Waiting for a command (`priv_win/operations.cpp`)

`spawn_with_token` gives the command the write end of a pipe, waits for the command
to end, and reads the pipe only then. Nobody reads meanwhile: a command that prints
more than the pipe holds does not end by itself. Where there is a timeout it is
killed, and where there is none the call does not return. Nor does it return while
something that outlives the command keeps the write end, unless more comes through
than is kept. `spawnWithToken_started` is the whole account.
-/

open McpBridge.Lib

namespace McpBridge.PrivWin

/-! ## Reading a pipe -/

/-- What one `ReadFile` put into the buffer. -/
abbrev Chunk := { s : Str // 0 < s.length ∧ s.length ≤ 4096 }

/-- A text as it is read, by calls that return so many bytes. -/
def pieces : Nat → List Nat → Str → List Chunk
  | 0, _, _ => []
  | _ + 1, _, [] => []
  | fuel + 1, sizes, c :: s =>
    let n := min (sizes.headD 4096 - 1) 4095
    ⟨c :: s.take n, by simp only [List.length_cons, List.length_take]; omega⟩ :: pieces fuel sizes.tail (s.drop n)

/-- The loop that collects output: it stops where the limit would be passed. -/
def capture (limit : Nat) : Str → List Chunk → Str
  | out, [] => out
  | out, c :: cs => if limit < out.length + c.1.length then out else capture limit (out ++ c.1) cs

/-- The loop with its last `ReadFile`, which returns only once the write end is closed. -/
def collect (closed : Bool) (limit : Nat) : Str → List Chunk → Option Str
  | out, [] => if closed then some out else none
  | out, c :: cs => if limit < out.length + c.1.length then some out else collect closed limit (out ++ c.1) cs

def joined (cs : List Chunk) : Str := (cs.map Subtype.val).flatten

theorem joined_pieces : ∀ (fuel : Nat) (sizes : List Nat) (text : Str), text.length ≤ fuel → joined (pieces fuel sizes text) = text
  | 0, _, text, h => (List.length_eq_zero_iff.1 (Nat.le_zero.1 h)).symm
  | _ + 1, _, [], _ => rfl
  | fuel + 1, sizes, c :: s, h => by
    have hrest : (s.drop (min (sizes.headD 4096 - 1) 4095)).length ≤ fuel := by
      rw [List.length_drop]
      rw [List.length_cons] at h
      omega
    have ih := joined_pieces fuel sizes.tail _ hrest
    unfold joined at ih ⊢
    simp only [pieces, List.map_cons, List.flatten_cons, ih, List.cons_append, List.take_append_drop]

theorem append_joined (out : Str) (c : Chunk) (cs : List Chunk) : out ++ joined (c :: cs) = (out ++ c.1) ++ joined cs := by
  simp only [joined, List.map_cons, List.flatten_cons, List.append_assoc]

/-- The reading ends where the write end is closed or the limit is passed. The text in hand is within it. -/
theorem collect_eq (closed : Bool) (limit : Nat) (cs : List Chunk) (out : Str) (h : out.length ≤ limit) : collect closed limit out cs =
    if closed = true ∨ limit < (out ++ joined cs).length then some (capture limit out cs) else none := by
  induction cs generalizing out with
  | nil =>
    simp only [collect, capture, joined, List.map_nil, List.flatten_nil, List.append_nil]
    split
    · next hclosed => rw [if_pos (.inl hclosed)]
    · next hclosed =>
      rw [if_neg]
      rintro (hc | hlong)
      · exact hclosed hc
      · omega
  | cons c cs ih =>
    have hjoined : out ++ joined (c :: cs) = (out ++ c.1) ++ joined cs := append_joined out c cs
    simp only [collect, capture]
    split
    · next hc =>
      have hlong : limit < (out ++ joined (c :: cs)).length := by
        rw [hjoined, List.length_append, List.length_append]
        omega
      rw [if_pos (.inr hlong)]
    · next hc =>
      rw [ih _ (by rw [List.length_append]; omega), hjoined]

/-- What fits into the limit is kept whole. -/
theorem capture_whole (limit : Nat) (cs : List Chunk) (out : Str) (h : (out ++ joined cs).length ≤ limit) :
    capture limit out cs = out ++ joined cs := by
  induction cs generalizing out with
  | nil => exact (List.append_nil out).symm
  | cons c cs ih =>
    rw [append_joined] at h ⊢
    have hc : ¬limit < out.length + c.1.length := by
      simp only [List.length_append] at h
      omega
    rw [capture, if_neg hc, ih _ h]

/-! ## A command -/

inductive Act where
  | prints (s : Str)
  | takes (ms : Nat)

/-- A command, with what the system makes of it. -/
structure Child where
  /-- What the pipe holds. -/
  capacity : Nat := 4096
  acts : List Act := []
  /-- How it ends, if it does. -/
  exitCode : Option UInt32 := some 0
  /-- How much is in the pipe of a write that waits for room. -/
  squeezed : Nat := 0
  /-- What the processes that outlive it print, and whether they end then. -/
  left : Str := []
  released : Bool := true
  /-- The exit code of a command that was killed. -/
  killedCode : UInt32 := 1
  reads : List Nat := []

inductive Waited where
  | ended (code : UInt32)
  | timedOut
  | never
deriving DecidableEq

/-- A wait for something that does not happen. -/
def waitOut : Option Nat → Waited
  | some _ => .timedOut
  | none => .never

/-- The milliseconds to wait, where they are not `INFINITE`. The product wraps around. -/
def timeoutMs (timeout : Int32) : Option Nat := if 0 < timeout then some (timeout.toUInt32 * 1000).toNat else none

def keptBytes : Nat := 4 * 1024 * 1024

namespace Child
variable (c : Child)

/-- `WaitForSingleObject`, and what is in the pipe then. The limit and the time are in milliseconds. -/
def wait (limit : Option Nat) : Str → Nat → List Act → Str × Waited
  | held, _, [] => (held, match c.exitCode with
    | some code => .ended code
    | none => waitOut limit)
  | held, time, .prints s :: acts =>
    if held.length + s.length ≤ c.capacity then wait limit (held ++ s) time acts
    else (held ++ s.take (min c.squeezed (c.capacity - held.length)), waitOut limit)
  | held, time, .takes ms :: acts =>
    if limit.any (· ≤ time + ms) then (held, .timedOut) else wait limit held (time + ms) acts

/-- How the wait for the command ends. -/
def waited (timeout : Int32) : Waited := (c.wait (timeoutMs timeout) [] 0 c.acts).2

/-- What comes through the pipe: what is in it, and what still is printed. -/
def through (timeout : Int32) : Str := (c.wait (timeoutMs timeout) [] 0 c.acts).1 ++ c.left

/-- What comes through, in the pieces it is read in. -/
def chunks (timeout : Int32) : List Chunk := pieces (c.through timeout).length c.reads (c.through timeout)

/-- What is kept of it. -/
def kept (timeout : Int32) : Str := capture keptBytes [] (c.chunks timeout)

end Child

/-! ## The call -/

structure SpawnOutcome where
  pipe : Bool := true
  process : Except UInt32 UInt32
  child : Child := {}

/-- The process id, 0 where none was created. -/
def SpawnOutcome.pid (o : SpawnOutcome) : UInt32 :=
  match o.process with
  | .ok pid => pid
  | .error _ => 0

structure SpawnResult where
  ok : Bool := false
  exitCode : Int := -1
  stdout : Str := []
  stderr : Str := []

/-- An exit code as an `int`. -/
def intOf (code : UInt32) : Int := code.toInt32.toInt

/-- `none` where the call does not return. -/
def spawnWithToken (wait : Bool) (timeout : Int32) (o : SpawnOutcome) : Option SpawnResult :=
  if wait && !o.pipe then some { stderr := lit "CreatePipe failed" }
  else match o.process with
    | .error e => some { stderr := lit "CreateProcessAsUser failed: " ++ writeNat e.toNat }
    | .ok _ =>
      if !wait then some { ok := true, exitCode := 0 }
      else
        let out := collect o.child.released keptBytes [] (o.child.chunks timeout)
        match o.child.waited timeout with
        | .never => none
        | .ended code => out.map fun stdout => { ok := true, exitCode := intOf code, stdout }
        | .timedOut => out.map fun stdout =>
          { ok := true, exitCode := intOf o.child.killedCode, stdout, stderr := lit "Process timed out" }

/-! ## Whether it returns -/

/-- What is printed in all. -/
def printed : List Act → Str
  | [] => []
  | .prints s :: acts => s ++ printed acts
  | .takes _ :: acts => printed acts

namespace Child
variable (c : Child)

/-- The command ends by itself: what it prints fits into the pipe. -/
def Ends : Prop := (printed c.acts).length ≤ c.capacity ∧ c.exitCode.isSome = true

/-- The wait comes to an end, and so does the reading. -/
def Returns (timeout : Int32) : Prop :=
  (0 < timeout ∨ c.Ends) ∧ (c.released = true ∨ keptBytes < (c.through timeout).length)

instance : Decidable c.Ends := inferInstanceAs (Decidable (_ ∧ _))

instance (timeout : Int32) : Decidable (c.Returns timeout) := inferInstanceAs (Decidable (_ ∧ _))

/-- Without a limit the wait ends exactly where all that is printed fits into the pipe. -/
theorem wait_never_iff (acts : List Act) (held : Str) (time : Nat) (h : held.length ≤ c.capacity) :
    (c.wait none held time acts).2 = .never ↔
      ¬((held ++ printed acts).length ≤ c.capacity ∧ c.exitCode.isSome = true) := by
  induction acts generalizing held time with
  | nil =>
    rw [printed, List.append_nil]
    simp only [wait]
    cases c.exitCode with
    | none => exact iff_of_true rfl nofun
    | some code => exact iff_of_false nofun (not_not_intro ⟨h, rfl⟩)
  | cons act acts ih =>
    cases act with
    | prints s =>
      simp only [wait, printed]
      split
      · next hfits =>
        rw [← List.append_assoc]
        exact ih _ _ (by rwa [List.length_append])
      · next hfull =>
        refine iff_of_true rfl fun hends => hfull ?_
        have hall := hends.1
        simp only [List.length_append] at hall
        omega
    | takes ms => exact ih held (time + ms) h

/-- With a limit it ends in any case. -/
theorem wait_limited (limit : Nat) (acts : List Act) (held : Str) (time : Nat) :
    (c.wait (some limit) held time acts).2 ≠ .never := by
  induction acts generalizing held time with
  | nil =>
    simp only [wait]
    cases c.exitCode <;> exact nofun
  | cons act acts ih =>
    cases act with
    | prints s =>
      simp only [wait]
      split
      · exact ih _ _
      · exact nofun
    | takes ms =>
      simp only [wait]
      split
      · exact nofun
      · exact ih _ _

/-- The exit code that is reported, and what is said with it. -/
def verdict (timeout : Int32) : UInt32 × Str :=
  match c.waited timeout with
  | .ended code => (code, [])
  | _ => (c.killedCode, lit "Process timed out")

theorem waited_never_iff (timeout : Int32) : c.waited timeout = .never ↔ ¬(0 < timeout ∨ c.Ends) := by
  unfold waited timeoutMs
  by_cases ht : 0 < timeout
  · rw [if_pos ht]
    exact iff_of_false (c.wait_limited _ _ _ _) (not_not_intro (.inl ht))
  · rw [if_neg ht, c.wait_never_iff _ _ _ (Nat.zero_le _), not_or]
    exact ⟨fun h => ⟨ht, h⟩, And.right⟩

theorem collect_chunks (timeout : Int32) : collect c.released keptBytes [] (c.chunks timeout) =
    if c.released = true ∨ keptBytes < (c.through timeout).length then some (c.kept timeout) else none := by
  rw [collect_eq _ _ _ _ (Nat.zero_le _), List.nil_append, chunks, joined_pieces _ _ _ (Nat.le_refl _)]
  rfl

/-- What comes through is kept whole where it is within the limit. -/
theorem kept_whole {timeout : Int32} (h : (c.through timeout).length ≤ keptBytes) : c.kept timeout = c.through timeout := by
  have hjoined : joined (c.chunks timeout) = c.through timeout := joined_pieces _ _ _ (Nat.le_refl _)
  have hwhole := capture_whole keptBytes (c.chunks timeout) [] (by rwa [List.nil_append, hjoined])
  rwa [List.nil_append, hjoined] at hwhole

end Child

/-- There is a pipe, and the process was created. -/
def SpawnOutcome.Started (o : SpawnOutcome) : Prop := o.pipe = true ∧ ∃ pid, o.process = .ok pid

/-- The call for a process that was created returns exactly if the waiting and the reading end. -/
theorem spawnWithToken_started {o : SpawnOutcome} (h : o.Started) (timeout : Int32) : spawnWithToken true timeout o =
    if o.child.Returns timeout then
      some ⟨true, intOf (o.child.verdict timeout).1, o.child.kept timeout, (o.child.verdict timeout).2⟩
    else none := by
  obtain ⟨hpipe, pid, hpid⟩ := h
  have hnever := o.child.waited_never_iff timeout
  simp only [spawnWithToken, hpipe, hpid, Bool.not_true, Bool.and_false, Bool.false_eq_true, if_false, Child.collect_chunks,
    Child.Returns, Child.verdict]
  cases hw : o.child.waited timeout with
  | never =>
    have hends := hnever.1 hw
    simp only [hends, false_and, if_false]
  | ended code =>
    have hends : 0 < timeout ∨ o.child.Ends := by
      by_contra hno
      cases hw.symm.trans (hnever.2 hno)
    simp only [hends, true_and]
    split <;> rfl
  | timedOut =>
    have hends : 0 < timeout ∨ o.child.Ends := by
      by_contra hno
      cases hw.symm.trans (hnever.2 hno)
    simp only [hends, true_and]
    split <;> rfl

/-- Where none was created the call says so. -/
theorem spawnWithToken_refused {o : SpawnOutcome} (h : ¬o.Started) (timeout : Int32) :
    ∃ err, spawnWithToken true timeout o = some { stderr := err } := by
  simp only [spawnWithToken]
  split
  · exact ⟨_, rfl⟩
  next hpipe =>
  split
  · exact ⟨_, rfl⟩
  · next pid hpid => exact absurd ⟨by simpa using hpipe, pid, hpid⟩ h

end McpBridge.PrivWin
