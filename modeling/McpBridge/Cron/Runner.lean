import McpBridge.Lib.Utf8
import Mathlib.Data.List.DropRight
/-!
# The output of a job (`mcp_bridge-cron-runner`, `mcp_bridge-cron-runner.ps1`)

Both runners capture what a job prints in files, cap each at 64 KiB and put the
text into the payload for the webhook. The Windows runner reads the first bytes of
a file. The Linux runner sets its length with `truncate`, so that a shorter file
grows to 64 KiB, and reads it as text, where `\r` ends a line.
-/

open McpBridge.Lib

namespace McpBridge.Cron.Runner

/-- What the metadata file of a job says. -/
structure Metadata where
  jobId : Str
  userId : Str
  schedule : Str
  command : Str
  description : Str
  contextId : Str

/-- A run of the command: what it printed, its exit code, and when it ran. -/
structure Run where
  out : Str
  err : Str
  exitCode : Int
  startedAt : Str
  completedAt : Str

structure Payload where
  jobId : Str
  userId : Str
  description : Str
  contextId : Str
  schedule : Str
  command : Str
  exitCode : Int
  stdout : Str
  stderr : Str
  startedAt : Str
  completedAt : Str

def cap : Nat := 65536

/-! ## The Linux runner -/

/-- `truncate -s n`. -/
def truncate (n : Nat) (s : Str) : Str := s.take n ++ List.replicate (n - s.length) 0

/-- The ends of lines, however written, as `\n`. The flag says whether `\r` stands before. -/
def newlines : Bool → Str → Str
  | _, [] => []
  | cr, c :: s =>
    if c = ch '\r' then ch '\n' :: newlines true s
    else if c = ch '\n' ∧ cr then newlines false s
    else c :: newlines false s

/-- `open(path, errors="replace").read()` -/
def readText (file : Str) : Str := newlines false (Utf8.decode file)

def linuxStream (captured : Str) : Str := readText (truncate cap captured)

/-- What `"$(...)"` makes of an output. -/
def substitution (s : Str) : Str := (s.filter (· ≠ 0)).rdropWhile (· = ch '\n')

def linuxPayload (jobId : Str) (m : Metadata) (r : Run) : Payload where
  jobId := jobId
  userId := substitution m.userId
  description := substitution m.description
  contextId := substitution m.contextId
  schedule := substitution m.schedule
  command := substitution m.command
  exitCode := r.exitCode
  stdout := linuxStream r.out
  stderr := linuxStream r.err
  startedAt := r.startedAt
  completedAt := r.completedAt

/-! ## The Windows runner -/

def readCapped (max : Nat) : Option Str → Str
  | none => []
  | some bytes => Utf8.decode (if max < bytes.length then bytes.take max else bytes)

def windowsPayload (m : Metadata) (r : Run) : Payload where
  jobId := m.jobId
  userId := m.userId
  description := m.description
  contextId := m.contextId
  schedule := m.schedule
  command := m.command
  exitCode := r.exitCode
  stdout := readCapped cap (some r.out)
  stderr := readCapped cap (some r.err)
  startedAt := r.startedAt
  completedAt := r.completedAt

/-! ## Ends of lines -/

theorem cr_notMem_newlines (cr : Bool) (s : Str) : ch '\r' ∉ newlines cr s := by
  have hne : ch '\r' ≠ ch '\n' := by decide
  induction s generalizing cr with
  | nil => exact List.not_mem_nil
  | cons c s ih =>
    rw [newlines]
    split
    · exact List.not_mem_cons_of_ne_of_not_mem hne (ih true)
    · next hc =>
      split
      · exact ih false
      · exact List.not_mem_cons_of_ne_of_not_mem (Ne.symm hc) (ih false)

theorem newlines_self {s : Str} (h : ch '\r' ∉ s) : newlines false s = s := by
  induction s with
  | nil => rfl
  | cons c s ih =>
    obtain ⟨hc, hs⟩ := List.ne_and_not_mem_of_not_mem_cons h
    rw [newlines, if_neg (Ne.symm hc), if_neg (by simp), ih hs]

/-! ## The streams -/

theorem cr_notMem_decode {s : Str} : ch '\r' ∉ Utf8.decode s ↔ ch '\r' ∉ s := by
  rw [← List.count_eq_zero, ← List.count_eq_zero, Utf8.count_decode (by decide)]

theorem linuxStream_of_noCr {s : Str} (h : ch '\r' ∉ s.take cap) : linuxStream s = Utf8.decode (truncate cap s) := by
  have hzero : ch '\r' ≠ 0 := by decide
  have htruncated : ch '\r' ∉ truncate cap s := by
    rw [truncate, List.mem_append, not_or]
    exact ⟨h, fun hm => hzero (List.eq_of_mem_replicate hm)⟩
  exact newlines_self (cr_notMem_decode.2 htruncated)

/-- What is added to a short file is not lost. -/
theorem length_of_decode {s t : Str} (h : Utf8.decode (truncate cap s) = t) (ht : t.count 0 = (s.take cap).count 0) :
    cap ≤ s.length := by
  have hcount := Utf8.count_decode (x := 0) (by decide) (truncate cap s)
  rw [h, ht, truncate, List.count_append, List.count_replicate_self] at hcount
  omega

theorem truncate_of_long {s : Str} (h : cap ≤ s.length) : truncate cap s = s.take cap := by
  rw [truncate, Nat.sub_eq_zero_of_le h, List.replicate_zero, List.append_nil]

theorem readCapped_eq (s : Str) : readCapped cap (some s) = Utf8.decode (s.take cap) := by
  simp only [readCapped]
  split
  · rfl
  · next h => rw [List.take_of_length_le (by omega)]

/-- Long enough to be cut, and without the end of line that is translated. -/
def Long (s : Str) : Prop := cap ≤ s.length ∧ ch '\r' ∉ s.take cap

/-- Cut between two characters. -/
def Whole (s : Str) : Prop := Long s ∧ validUtf8 (s.take cap) = true

theorem linuxStream_eq_take_iff (s : Str) : linuxStream s = s.take cap ↔ Whole s := by
  constructor
  · intro h
    have hcr : ch '\r' ∉ s.take cap := by
      rw [← h]
      exact cr_notMem_newlines false _
    rw [linuxStream_of_noCr hcr] at h
    have hlen := length_of_decode h rfl
    rw [truncate_of_long hlen] at h
    exact ⟨⟨hlen, hcr⟩, (Utf8.decode_eq_self_iff _).1 h⟩
  · rintro ⟨⟨hlen, hcr⟩, hvalid⟩
    rw [linuxStream_of_noCr hcr, truncate_of_long hlen, Utf8.decode_of_valid hvalid]

theorem linuxStream_eq_readCapped_iff (s : Str) : linuxStream s = readCapped cap (some s) ↔ Long s := by
  rw [readCapped_eq]
  constructor
  · intro h
    have hcr : ch '\r' ∉ s.take cap := by
      rw [← cr_notMem_decode, ← h]
      exact cr_notMem_newlines false _
    rw [linuxStream_of_noCr hcr] at h
    exact ⟨length_of_decode h (Utf8.count_decode (by decide) _), hcr⟩
  · rintro ⟨hlen, hcr⟩
    rw [linuxStream_of_noCr hcr, truncate_of_long hlen]

/-- Each stream is the first bytes of what was printed, up to the limit. -/
def Payload.Reports (p : Payload) (r : Run) : Prop :=
  p.stdout = r.out.take (min r.out.length 65536) ∧ p.stderr = r.err.take (min r.err.length 65536)

def Payload.SameStreams (p q : Payload) : Prop := p.stdout = q.stdout ∧ p.stderr = q.stderr

theorem take_min (s : Str) : s.take (min s.length 65536) = s.take cap := by
  rw [Nat.min_comm, ← List.take_take, List.take_length]
  rfl

/-- The Linux runner reports the first 64 KiB of each stream exactly if both are as long
as that, have no `\r` there and are cut between two characters. It reports what the
Windows runner does exactly if both are as long as that and have no `\r` there. -/
theorem capped_streams_iff (jobId : Str) (m : Metadata) (r : Run) :
    ((linuxPayload jobId m r).Reports r ↔ Whole r.out ∧ Whole r.err) ∧
    ((linuxPayload jobId m r).SameStreams (windowsPayload m r) ↔ Long r.out ∧ Long r.err) := by
  constructor
  · rw [Payload.Reports, take_min, take_min]
    exact and_congr (linuxStream_eq_take_iff r.out) (linuxStream_eq_take_iff r.err)
  · exact and_congr (linuxStream_eq_readCapped_iff r.out) (linuxStream_eq_readCapped_iff r.err)

/-- A job that prints one short line. -/
def greeting : Run := ⟨lit "hi\n", [], 0, lit "2026-05-05T10:00:00Z", lit "2026-05-05T10:00:02Z"⟩

def cleanup : Metadata := ⟨lit "0123456789abcdef", lit "abcd2345", lit "0 * * * *", lit "echo hi", lit "Hourly cleanup", lit "ctx-abc-123"⟩

/-- The line comes with 65533 NULs. -/
theorem greeting_padded : validUtf8 greeting.out = true ∧ validUtf8 greeting.err = true ∧
    (linuxPayload (lit "0123456789abcdef") cleanup greeting).stdout = lit "hi\n" ++ List.replicate 65533 0 ∧
    ¬ (linuxPayload (lit "0123456789abcdef") cleanup greeting).Reports greeting ∧
    ¬ (linuxPayload (lit "0123456789abcdef") cleanup greeting).SameStreams (windowsPayload cleanup greeting) := by
  have hshort : ¬ Long greeting.out := by
    rintro ⟨hlen, -⟩
    revert hlen
    decide
  refine ⟨by decide, by decide, ?_, ?_, ?_⟩
  · have htruncated : truncate cap greeting.out = lit "hi\n" ++ List.replicate 65533 0 := by
      rw [truncate, List.take_of_length_le (by decide)]
      rfl
    have hvalid : validUtf8 (lit "hi\n" ++ List.replicate 65533 0) = true := by
      apply validUtf8_append
      · decide
      · apply validUtf8_ascii
        intro c hc
        rw [List.eq_of_mem_replicate hc]
        decide
    have hcr : ch '\r' ∉ greeting.out.take cap := by decide
    have hstdout := linuxStream_of_noCr hcr
    rw [htruncated, Utf8.decode_of_valid hvalid] at hstdout
    exact hstdout
  · rintro ⟨hout, -⟩
    rw [take_min] at hout
    exact hshort ((linuxStream_eq_take_iff _).1 hout).1
  · rintro ⟨hout, -⟩
    exact hshort ((linuxStream_eq_readCapped_iff _).1 hout)

end McpBridge.Cron.Runner
