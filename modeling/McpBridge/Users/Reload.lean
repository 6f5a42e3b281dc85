import McpBridge.Users.Store
import McpBridge.Lib.Threads
/-!
# Reloads at the same time

`load_all` reads the directory without a lock and swaps the map in under one.
SIGHUPs and the admin tools start such calls at any time, and record files come
and go in between. The directory is read in one step, numbered in the order of
the reads.

A load that read before a record was unlinked can swap after one that read
later, and the removed credential is back (`removed_user_returns`). It stays
removed as long as loads swap in the order in which they read
(`removed_stays_removed`).
-/

open McpBridge.Lib McpBridge.Server

namespace McpBridge.Users.Reload

inductive ReloadEvent where
  | changed (dir : Directory)
  | read (k : Nat) (dir : Directory)
  | swapped (k : Nat)

/-- The directory, the index, and what happened so far, newest first. `reads`
numbers the reads; the code has neither. -/
structure Shared where
  dir : Directory
  byHash : Map Str UserRecord
  log : List ReloadEvent
  reads : Nat

/-- Where a `load_all` has got to. -/
inductive Load where
  | reading
  | swapping (k : Nat) (next : Map Str UserRecord)

section
variable (stream : Str → Streamed)

def Load.step (s : Shared) : Load → Unit → Option (Shared × Option Load)
  | .reading, _ =>
    match loadAll stream s.dir with
    -- An exception leaves `load_all`, and the index stays.
    | .error _ => some (s, none)
    | .ok next =>
      some ({ s with log := .read s.reads s.dir :: s.log, reads := s.reads + 1 }, some (.swapping s.reads next))
  | .swapping k next, _ => some ({ s with byHash := next, log := .swapped k :: s.log }, none)

/-- Any number of `load_all` calls, while the directory changes. -/
def reloads : Program Shared Load Unit Directory where
  start _ l := match l with
    | .reading => true
    | .swapping _ _ => false
  step := Load.step stream
  env s dir := some { s with dir, log := .changed dir :: s.log }

/-- No record had the hash when load `k` read the directory, and none has had it since. -/
def AbsentSinceRead (h : Str) (k : Nat) : List ReloadEvent → Prop
  | [] => False
  | .read j dir :: log => if j = k then ¬ dir.Has stream h else AbsentSinceRead h k log
  | .changed dir :: log => ¬ dir.Has stream h ∧ AbsentSinceRead h k log
  | .swapped _ :: log => AbsentSinceRead h k log

/-- A load has completed that read the directory when the hash was gone, and it has not come back. -/
def Cleared (h : Str) (log : List ReloadEvent) : Prop :=
  ∃ k, .swapped k ∈ log ∧ AbsentSinceRead stream h k log

/-- The numbers of the loads that have completed. -/
def completed : List ReloadEvent → List Nat
  | [] => []
  | .swapped k :: log => k :: completed log
  | _ :: log => completed log

/-- A load swaps only if none that read later has. -/
def swapsInOrder (p : Pool Shared Load) : Event Load Unit Directory → Bool
  | .act i _ =>
    match p.calls[i]? with
    | some (.swapping k _) => (completed p.shared.log).all (· ≤ k)
    | _ => true
  | _ => true

/-! ## The invariant -/

theorem mem_completed {k : Nat} {log : List ReloadEvent} : k ∈ completed log ↔ .swapped k ∈ log := by
  induction log with
  | nil => simp [completed]
  | cons e log ih => cases e <;> simp [completed, ih]

/-- The log is about reads that have happened, and what it says is gone is gone
from the directory and from the index. -/
structure Consistent (s : Shared) : Prop where
  numbered : ∀ k, .swapped k ∈ s.log → k < s.reads
  absent : ∀ h k, AbsentSinceRead stream h k s.log → ¬ s.dir.Has stream h
  cleared : ∀ h, Cleared stream h s.log → s.byHash.lookup h = none

/-- A map that is yet to be swapped in lacks what was gone at its read or before. -/
def Load.Fresh (s : Shared) : Load → Prop
  | .reading => True
  | .swapping k next => k < s.reads ∧ ∀ h j, j ≤ k → AbsentSinceRead stream h j s.log → next.lookup h = none

variable {stream}

/-- Another read does not change what the log says about the reads before it. -/
theorem absentSinceRead_read {h : Str} {j k : Nat} {dir : Directory} {log : List ReloadEvent} (hne : j ≠ k) :
    AbsentSinceRead stream h k (.read j dir :: log) ↔ AbsentSinceRead stream h k log := by
  simp only [AbsentSinceRead, if_neg hne]

/-- A map that is fresh stays so, whatever the log gains that is not its own read. -/
theorem Load.Fresh.mono {s s' : Shared} {l : Load} (hf : l.Fresh stream s) (hreads : s.reads ≤ s'.reads)
    (hlog : ∀ h j, j < s.reads → AbsentSinceRead stream h j s'.log → AbsentSinceRead stream h j s.log) :
    l.Fresh stream s' := by
  cases l with
  | reading => trivial
  | swapping k next =>
    obtain ⟨hk, hnext⟩ := hf
    refine ⟨by omega, ?_⟩
    intro h j hj habs
    exact hnext h j hj (hlog h j (by omega) habs)

theorem consistent_changed {s : Shared} (hs : Consistent stream s) (dir : Directory) :
    Consistent stream { s with dir, log := .changed dir :: s.log } where
  numbered k hk := hs.numbered k (by simpa using hk)
  absent h k habs := habs.1
  cleared h hc := by
    obtain ⟨k, hk, habs⟩ := hc
    exact hs.cleared h ⟨k, by simpa using hk, habs.2⟩

/-- A read finds the directory as the log has it. -/
theorem consistent_read {s : Shared} (hs : Consistent stream s) {next : Map Str UserRecord}
    (hload : loadAll stream s.dir = .ok next) :
    Consistent stream { s with log := .read s.reads s.dir :: s.log, reads := s.reads + 1 } ∧
      (Load.swapping s.reads next).Fresh stream { s with log := .read s.reads s.dir :: s.log, reads := s.reads + 1 } := by
  have habsent : ∀ h k, AbsentSinceRead stream h k (.read s.reads s.dir :: s.log) → ¬ s.dir.Has stream h := by
    intro h k habs
    by_cases hk : s.reads = k
    · simpa only [AbsentSinceRead, if_pos hk] using habs
    · exact hs.absent h k ((absentSinceRead_read hk).1 habs)
  refine ⟨⟨?_, habsent, ?_⟩, Nat.lt_succ_self _, ?_⟩
  · intro k hk
    have hlt := hs.numbered k (by simpa using hk)
    exact Nat.lt_succ_of_lt hlt
  · rintro h ⟨k, hk, habs⟩
    have hk' : .swapped k ∈ s.log := by simpa using hk
    have hlt := hs.numbered k hk'
    exact hs.cleared h ⟨k, hk', (absentSinceRead_read (by omega)).1 habs⟩
  · intro h j _ habs
    exact (loadAll_lookup stream hload h).2 (habsent h j habs)

/-- A swap in order installs a map that lacks everything cleared so far. -/
theorem consistent_swap {s : Shared} (hs : Consistent stream s) {k : Nat} {next : Map Str UserRecord}
    (hfresh : (Load.swapping k next).Fresh stream s) (horder : ∀ j, .swapped j ∈ s.log → j ≤ k) :
    Consistent stream { s with byHash := next, log := .swapped k :: s.log } := by
  obtain ⟨hk, hnext⟩ := hfresh
  refine ⟨?_, fun h j habs => hs.absent h j habs, ?_⟩
  · intro j hj
    rcases List.mem_cons.1 hj with hj | hj
    · cases hj
      exact hk
    · exact hs.numbered j hj
  · rintro h ⟨j, hj, habs⟩
    have hjk : j ≤ k := by
      rcases List.mem_cons.1 hj with hj | hj
      · cases hj
        exact Nat.le_refl k
      · exact horder j hj
    exact hnext h j hjk habs

/-- A pool before any load: the directory and the index as they are. -/
def idle (dir : Directory) (byHash : Map Str UserRecord) : Pool Shared Load := ⟨⟨dir, byHash, [.changed dir], 0⟩, []⟩

theorem consistent_idle (dir : Directory) (byHash : Map Str UserRecord) : Consistent stream (idle dir byHash).shared where
  numbered k hk := by simp [idle] at hk
  absent h k habs := habs.1
  cleared h hc := by
    obtain ⟨k, hk, -⟩ := hc
    simp [idle] at hk

variable (stream)

/-- However loads and changes of the directory interleave: where loads swap in
the order in which they read, a credential that a completed load found removed
is not in the index until a record has it again. -/
theorem removed_stays_removed (dir : Directory) (byHash : Map Str UserRecord)
    {es : List (Event Load Unit Directory)} {p : Pool Shared Load}
    (hc : Along (reloads stream).next (fun p e => swapsInOrder p e = true) (idle dir byHash) es)
    (hr : run (reloads stream).next (idle dir byHash) es = some p) (h : Str) (hcleared : Cleared stream h p.shared.log) :
    p.shared.byHash.lookup h = none := by
  have hinv : Consistent stream p.shared ∧ ∀ l ∈ p.calls, l.Fresh stream p.shared := by
    refine (reloads stream).inv (Consistent stream) (Load.Fresh stream) ?_ ?_ ?_
      ⟨consistent_idle dir byHash, by simp [idle]⟩ hc hr
    · intro s l _ hl
      cases l with
      | reading => trivial
      | swapping k next => cases hl
    · intro p i a l pre post g l' hI hQ hC hi hcalls hstep
      have hothers : ∀ m ∈ pre ++ post, m ∈ p.calls := by
        intro m hm
        rw [hcalls]
        simp only [List.mem_append, List.mem_cons] at hm ⊢
        tauto
      have hl : l ∈ p.calls := by simp [hcalls]
      cases l with
      | reading =>
        simp only [reloads, Load.step] at hstep
        split at hstep
        · cases hstep
          exact ⟨hI, by simp, fun m hm => hQ m (hothers m hm)⟩
        · next next hload =>
          cases hstep
          obtain ⟨hI', hnew⟩ := consistent_read hI hload
          refine ⟨hI', ?_, fun m hm => ?_⟩
          · rintro m ⟨⟩
            exact hnew
          · refine (hQ m (hothers m hm)).mono (Nat.le_succ _) ?_
            intro h j hj habs
            exact (absentSinceRead_read (by omega)).1 habs
      | swapping k next =>
        simp only [reloads, Load.step] at hstep
        cases hstep
        simp only [swapsInOrder, hi, List.all_eq_true, decide_eq_true_eq] at hC
        refine ⟨?_, by simp, fun m hm => ?_⟩
        · exact consistent_swap hI (hQ _ hl) fun j hj => hC j (mem_completed.2 hj)
        · exact (hQ m (hothers m hm)).mono (Nat.le_refl _) fun h j _ habs => habs
    · intro s dir s' hI hs
      simp only [reloads] at hs
      cases hs
      refine ⟨consistent_changed hI dir, fun l hl => ?_⟩
      exact hl.mono (Nat.le_refl _) fun h j _ habs => habs.2
  exact hinv.1.cleared h hcleared

end

/-! ## Two loads and a removal -/

/-- A directory with the record of one user, whose hash is `h`. -/
def oneUser : Directory :=
  some [⟨lit "abcdefgh.json", true, some (write (some 2) 0 (.ofFields [(lit "user_id", .str (lit "abcdefgh")),
    (lit "token_hash", .str (lit "h"))]))⟩]

def alice : UserRecord := ⟨lit "abcdefgh", [], [], [], false, lit "h", 0⟩

theorem loadAll_oneUser : loadAll (streamOf jsonText) oneUser = .ok (AList.singleton (lit "h") alice) := by
  have hentries : (loadAll (streamOf jsonText) oneUser).toOption.map (·.entries) =
      some (AList.singleton (lit "h") alice : Map Str UserRecord).entries := by decide +kernel
  rcases hl : loadAll (streamOf jsonText) oneUser with e | m
  · rw [hl] at hentries
    cases hentries
  · rw [hl] at hentries
    simp only [Except.toOption, Option.map_some, Option.some.injEq] at hentries
    rw [AList.ext hentries]

theorem loadAll_noUser : loadAll (streamOf jsonText) (some []) = .ok ∅ := rfl

/-- Each load swaps before the next one reads. -/
def inTurn : List (Event Load Unit Directory) :=
  [.start .reading, .start .reading, .act 0 (), .act 0 (), .env (some []), .act 0 (), .act 0 ()]

theorem removed_stays_removed_inTurn :
    ∃ p, run (reloads (streamOf jsonText)).next (idle oneUser ∅) inTurn = some p ∧
      Cleared (streamOf jsonText) (lit "h") p.shared.log ∧ p.shared.byHash.lookup (lit "h") = none := by
  have hrun : run (reloads (streamOf jsonText)).next (idle oneUser ∅) inTurn =
      some ⟨⟨some [], ∅, [.swapped 1, .read 1 (some []), .changed (some []), .swapped 0, .read 0 oneUser,
        .changed oneUser], 2⟩, []⟩ := by
    simp [run, inTurn, idle, Program.next, reloads, Load.step, loadAll_oneUser, loadAll_noUser]
  have horder : Along (reloads (streamOf jsonText)).next (fun p e => swapsInOrder p e = true) (idle oneUser ∅) inTurn := by
    simp [Along, inTurn, idle, Program.next, reloads, Load.step, loadAll_oneUser, loadAll_noUser, swapsInOrder, completed]
  have hcleared : Cleared (streamOf jsonText) (lit "h") [.swapped 1, .read 1 (some []), .changed (some []), .swapped 0,
      .read 0 oneUser, .changed oneUser] :=
    ⟨1, by simp, by simp [AbsentSinceRead, Directory.Has]⟩
  exact ⟨_, hrun, hcleared, removed_stays_removed (streamOf jsonText) oneUser ∅ horder hrun (lit "h") hcleared⟩

/-- The first load reads, the record is unlinked, the second load reads and
swaps, and the first one swaps. -/
def overtaken : List (Event Load Unit Directory) :=
  [.start .reading, .start .reading, .act 0 (), .env (some []), .act 1 (), .act 1 (), .act 0 ()]

/-- A load that read after the removal has completed, and the credential is back. -/
theorem removed_user_returns :
    ∃ p, run (reloads (streamOf jsonText)).next (idle oneUser ∅) overtaken = some p ∧
      Cleared (streamOf jsonText) (lit "h") p.shared.log ∧ p.shared.byHash.lookup (lit "h") = some alice := by
  have hrun : run (reloads (streamOf jsonText)).next (idle oneUser ∅) overtaken =
      some ⟨⟨some [], AList.singleton (lit "h") alice, [.swapped 0, .swapped 1, .read 1 (some []), .changed (some []),
        .read 0 oneUser, .changed oneUser], 2⟩, []⟩ := by
    simp [run, overtaken, idle, Program.next, reloads, Load.step, loadAll_oneUser, loadAll_noUser]
  refine ⟨_, hrun, ⟨1, by simp, ?_⟩, ?_⟩
  · simp [AbsentSinceRead, Directory.Has]
  · simp

end McpBridge.Users.Reload
