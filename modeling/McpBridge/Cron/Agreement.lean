import McpBridge.Cron.Tools
/-!
# The crontab agrees with the store

A call lists the jobs, and replaces the crontab later. A call that lists late,
or holds a list that is still right, will bring the crontab in line with the
store, so the invariant is: the crontab agrees, or such a call is in progress.
It breaks where a call writes a list that is out of date and no such call is
left.
-/

open McpBridge.Lib McpBridge.Core

namespace McpBridge.Cron

/-! ## One-line jobs -/

theorem scheduleFields_chars {s : Str} {n : Nat} {b : Bool} {r : Nat × Bool} (h : scheduleFields s n b = some r) :
    s.all (fun c => isBlank c || isScheduleChar c) = true := by
  induction s generalizing n b with
  | nil => rfl
  | cons c cs ih =>
    rw [scheduleFields] at h
    split at h
    · next hb => simp [hb, ih h]
    · split at h
      · next hs => simp [hs, ih h]
      · cases h

theorem newline_notMem_of_validSchedule {s : Str} (h : validSchedule s = true) : ch '\n' ∉ s := by
  simp only [validSchedule] at h
  split at h
  · cases h
  split at h
  · next hf => exact not_mem_of_all (scheduleFields_chars hf) (by decide)
  · cases h

theorem Stored.oneLine {id : Str} {c : CronJob} (h : Stored id c) : OneLine c := by
  obtain ⟨rfl, hid, hs, -⟩ := h
  exact ⟨newline_notMem_of_validJobid hid, newline_notMem_of_validSchedule hs⟩

/-- A block gives the id and the schedule back. -/
theorem blockOf_inj {runnerPath : Str} {j j' : CronJob} (h : blockOf runnerPath j = blockOf runnerPath j') :
    j.jobId = j'.jobId ∧ j.schedule = j'.schedule := by
  simp only [blockOf, Prod.mk.injEq] at h
  obtain ⟨hid, hline⟩ := h
  refine ⟨hid, ?_⟩
  rw [hid] at hline
  simpa using hline

/-! ## The jobs of a user -/

theorem mem_listForUser {st : Store} (h : WellFormed st.jobs) {u : Str} {c : CronJob} :
    c ∈ st.listForUser u ↔ st.jobs.lookup c.jobId = some c ∧ c.osUsername = u := by
  simp [Store.listForUser, h.mem_values]

theorem nodup_listForUser {st : Store} (h : WellFormed st.jobs) (u : Str) : (st.listForUser u).Nodup :=
  (List.Nodup.of_map _ h.nodup_ids).filter _

/-- A change of jobs of `v` keeps the list of `u`, up to its order. -/
theorem listForUser_perm {st st' : Store} {u v : Str} (h : WellFormed st.jobs) (h' : WellFormed st'.jobs)
    (ho : Owned v st.jobs st'.jobs) (hne : u ≠ v) : (st'.listForUser u).Perm (st.listForUser u) := by
  rw [List.perm_ext_iff_of_nodup (nodup_listForUser h' u) (nodup_listForUser h u)]
  intro c
  rw [mem_listForUser h, mem_listForUser h']
  refine and_congr_left fun hu => ?_
  rcases ho c.jobId with he | ⟨hold, hnew⟩
  · rw [he]
  · constructor
    · intro hl
      exact absurd (hu.symm.trans (hnew c hl)) hne
    · intro hl
      exact absurd (hu.symm.trans (hold c hl)) hne

section
variable (J : JsonText) (cfg : Config)

/-- The managed blocks of the crontab of `u` are those of the jobs the store has for `u`. -/
def Agrees (s : Shared) (u : Str) : Prop :=
  (managedBlocks none (lines (s.crontab u))).Perm ((s.store.listForUser u).map (blockOf cfg.cronRunnerPath))

/-- The listed jobs have the ids and schedules the store has for `u` now. -/
def Current (s : Shared) (u : Str) (jobs : List CronJob) : Prop :=
  (jobs.map (blockOf cfg.cronRunnerPath)).Perm ((s.store.listForUser u).map (blockOf cfg.cronRunnerPath))

/-- The call will write the current jobs of `u`: it has yet to list them, or its list is current. -/
def Op.Refreshes (s : Shared) (u : Str) : Op → Prop
  | .mutate r | .metadata r _ | .list r _ => r.ctx.osUsername = u
  | .read r _ jobs | .write r _ jobs _ => r.ctx.osUsername = u ∧ Current cfg s u jobs
  | .rollback _ _ _ => False

/-- The step does not throw. -/
def Op.Succeeds (s : Shared) (l : Op) (a : Answer) : Prop := (l.attempt J cfg s a).1.isOk = true

/-- The call that moves does not throw. -/
def StepSucceeds (p : Pool Shared Op) : Event Op Answer Empty → Prop
  | .act i a => ∀ l ∈ p.calls[i]?, l.Succeeds J cfg p.shared a
  | _ => True

/-- A call of `u` writes jobs that are current, or leaves a call that will. -/
def Op.WritesCurrent (s : Shared) (others : List Op) (u : Str) : Op → Prop
  | .write _ _ jobs _ => Current cfg s u jobs ∨ ∃ m ∈ others, m.Refreshes cfg s u
  | _ => True

/-- Each step of a call of `u` succeeds, and writes current jobs or leaves a call that will. -/
def InTurn (u : Str) (p : Pool Shared Op) : Event Op Answer Empty → Prop
  | .act i a => ∀ l ∈ p.calls[i]?, l.user = u →
    l.Succeeds J cfg p.shared a ∧ l.WritesCurrent cfg p.shared (p.calls.eraseIdx i) u
  | _ => True

instance (s : Shared) (u : Str) (jobs : List CronJob) : Decidable (Current cfg s u jobs) :=
  inferInstanceAs (Decidable (List.Perm _ _))

instance (s : Shared) (u : Str) : DecidablePred (Op.Refreshes cfg s u)
  | .mutate _ | .metadata _ _ | .list _ _ => inferInstanceAs (Decidable (_ = _))
  | .read _ _ _ | .write _ _ _ _ => inferInstanceAs (Decidable (_ ∧ _))
  | .rollback _ _ _ => inferInstanceAs (Decidable False)

instance (s : Shared) (others : List Op) (u : Str) : DecidablePred (Op.WritesCurrent cfg s others u)
  | .write _ _ _ _ => inferInstanceAs (Decidable (_ ∨ _))
  | .mutate _ | .metadata _ _ | .list _ _ | .read _ _ _ | .rollback _ _ _ => inferInstanceAs (Decidable True)

instance (s : Shared) (l : Op) (a : Answer) : Decidable (l.Succeeds J cfg s a) := inferInstanceAs (Decidable (_ = _))

instance (p : Pool Shared Op) : DecidablePred (StepSucceeds J cfg p)
  | .act i a => inferInstanceAs (Decidable (∀ l ∈ p.calls[i]?, l.Succeeds J cfg p.shared a))
  | .start _ | .env _ => inferInstanceAs (Decidable True)

instance (u : Str) (p : Pool Shared Op) : DecidablePred (InTurn J cfg u p)
  | .act i a => inferInstanceAs (Decidable (∀ l ∈ p.calls[i]?, l.user = u →
      l.Succeeds J cfg p.shared a ∧ l.WritesCurrent cfg p.shared (p.calls.eraseIdx i) u))
  | .start _ | .env _ => inferInstanceAs (Decidable True)

/-! ## One step -/

/-- What a step does to the store and the crontabs: it changes jobs and the
crontab of its user only. -/
structure Effect (user : Str) (s s' : Shared) : Prop where
  wellFormed : WellFormed s'.store.jobs
  owned : Owned user s.store.jobs s'.store.jobs
  crontab : ∀ u ≠ user, s'.crontab u = s.crontab u

theorem Effect.of_store {user : Str} {s s' : Shared} (hw : WellFormed s.store.jobs) (hs : s'.store = s.store)
    (hc : ∀ u ≠ user, s'.crontab u = s.crontab u) : Effect user s s' :=
  ⟨by rw [hs]; exact hw, fun id => .inl (by rw [hs]), hc⟩

theorem Effect.of_outcome {user : Str} {s s' : Shared} {r : Except Str CronJob} (hw : WellFormed s.store.jobs)
    (ho : Outcome J user s.store r s'.store) (hc : s'.crontabs = s.crontabs) : Effect user s s' :=
  ⟨ho.wellFormed J hw, ho.owned J, fun u _ => by rw [Shared.crontab, hc]; rfl⟩

theorem writeUserCrontab_frame {osUsername text : Str} {a : Answer} {crontabs crontabs' : Map Str Str}
    {r : Except Str Unit} (h : writeUserCrontab cfg osUsername text a crontabs = (r, crontabs')) :
    (∀ u ≠ osUsername, crontabs'.lookup u = crontabs.lookup u) ∧
      (r = .ok () → crontabs' = crontabs.insert osUsername text) := by
  simp only [writeUserCrontab] at h
  split at h
  · cases h; exact ⟨fun _ _ => rfl, by simp⟩
  split at h
  · cases h; exact ⟨fun _ _ => rfl, by simp⟩
  split at h
  · cases h; exact ⟨fun _ _ => rfl, by simp⟩
  · cases h
    exact ⟨fun u hu => by rw [Map.lookup_insert_if, if_neg hu], fun _ => rfl⟩

theorem Op.attempt_effect {s : Shared} (hw : WellFormed s.store.jobs) (l : Op) (a : Answer) :
    Effect l.user s (l.attempt J cfg s a).2 := by
  cases l with
  | mutate r =>
    simp only [Op.attempt]
    split
    · exact .of_store hw rfl fun _ _ => rfl
    have ho := (r.call a).exec_outcome J cfg hw
    rw [r.call_osUsername a] at ho
    split
    · next e store he => rw [he] at ho; exact .of_outcome J hw ho rfl
    · next j store he => rw [he] at ho; exact .of_outcome J hw ho rfl
  | metadata r j =>
    simp only [Op.attempt]
    split
    · exact .of_store hw rfl fun _ _ => rfl
    split
    · exact .of_store hw rfl fun _ _ => rfl
    · exact .of_store hw rfl fun _ _ => rfl
  | list r j => exact .of_store hw rfl fun _ _ => rfl
  | read r j jobs => exact .of_store hw rfl fun _ _ => rfl
  | write r j jobs current =>
    simp only [Op.attempt]
    split
    · next e crontabs he =>
      exact .of_store hw rfl fun u hu => congrArg (Option.getD · []) ((writeUserCrontab_frame cfg he).1 u hu)
    · next crontabs he =>
      exact .of_store hw rfl fun u hu => congrArg (Option.getD · []) ((writeUserCrontab_frame cfg he).1 u hu)
  | rollback r j e => exact .of_outcome J hw (remove_outcome J cfg hw j.jobId r.ctx.osUsername a.replace) rfl

theorem Op.step_eq {s s' : Shared} {l : Op} {a : Answer} {l' : Option Op} (h : l.step J cfg s a = some (s', l')) :
    s' = (l.attempt J cfg s a).2 ∧ ∀ m, (l.attempt J cfg s a).1 = .ok m → l' = m := by
  simp only [Op.step] at h
  split at h
  · next he => cases h; rw [he]; exact ⟨rfl, fun m hm => by cases hm; rfl⟩
  · next he => cases h; rw [he]; exact ⟨rfl, fun m hm => by cases hm⟩

/-! ## The invariant -/

/-- The crontab of `u` agrees with the store, or a call in progress will see to it. -/
def Settled (u : Str) (p : Pool Shared Op) : Prop :=
  Agrees cfg p.shared u ∨ ∃ l ∈ p.calls, l.Refreshes cfg p.shared u

/-- A call of another user keeps what is current, and the crontab. -/
theorem Effect.keeps_others {u v : Str} {s s' : Shared} (hw : WellFormed s.store.jobs) (he : Effect v s s') (hne : u ≠ v) :
    (Agrees cfg s u → Agrees cfg s' u) ∧ ∀ l : Op, l.Refreshes cfg s u → l.Refreshes cfg s' u := by
  have hp := (listForUser_perm hw he.wellFormed he.owned hne).map (blockOf cfg.cronRunnerPath)
  have hcur : ∀ jobs, Current cfg s u jobs → Current cfg s' u jobs := fun jobs h => h.trans hp.symm
  refine ⟨fun h => ?_, fun l h => ?_⟩
  · rw [Agrees, he.crontab u hne]
    exact h.trans hp.symm
  · cases l with
    | read r j jobs => exact ⟨h.1, hcur jobs h.2⟩
    | write r j jobs current => exact ⟨h.1, hcur jobs h.2⟩
    | _ => exact h

theorem Op.user_of_refreshes {u : Str} {s : Shared} {l : Op} (h : l.Refreshes cfg s u) : l.user = u := by
  cases l with
  | read r j jobs => exact h.1
  | write r j jobs current => exact h.1
  | rollback r j e => exact h.elim
  | _ => exact h

/-- With the same store, the same calls refresh. -/
theorem Op.refreshes_of_store {u : Str} {s s' : Shared} (hs : s'.store = s.store) {l : Op} (h : l.Refreshes cfg s u) :
    l.Refreshes cfg s' u := by
  cases l with
  | read r j jobs => exact ⟨h.1, by rw [Current, hs]; exact h.2⟩
  | write r j jobs current => exact ⟨h.1, by rw [Current, hs]; exact h.2⟩
  | _ => exact h

/-- Writing a current list makes the crontab agree. -/
theorem agrees_of_written {u : Str} (current : Str) {s s' : Shared} {jobs : List CronJob}
    (hrun : ch '\n' ∉ cfg.cronRunnerPath) (hw : WellFormed s.store.jobs) (hcur : Current cfg s u jobs)
    (hs : s'.store = s.store) (ht : s'.crontab u = buildCrontabText current jobs cfg.cronRunnerPath) :
    Agrees cfg s' u := by
  -- The list may be old; its ids and schedules are those of stored jobs.
  have hone : ∀ j ∈ jobs, OneLine j := by
    intro j hj
    obtain ⟨j', hj', he⟩ := List.mem_map.1 (hcur.subset (List.mem_map_of_mem hj))
    have ho := (hw _ _ ((mem_listForUser hw).1 hj').1).oneLine
    obtain ⟨hid, hsched⟩ := blockOf_inj he
    rw [OneLine, ← hid, ← hsched]
    exact ho
  rw [Agrees, ht, managedBlocks_buildCrontabText hrun current hone, hs]
  exact hcur

/-- A step of a call of `u` that succeeds, and the list it writes is current or
another call will refresh. -/
theorem Op.attempt_settles {u : Str} {s : Shared} {l : Op} {a : Answer} {others : List Op}
    (hrun : ch '\n' ∉ cfg.cronRunnerPath) (hw : WellFormed s.store.jobs) (hu : l.user = u)
    (hok : l.Succeeds J cfg s a) (hcur : l.WritesCurrent cfg s others u)
    (h : Agrees cfg s u ∨ l.Refreshes cfg s u ∨ ∃ m ∈ others, m.Refreshes cfg s u) :
    ∃ l', (l.attempt J cfg s a).1 = .ok l' ∧ (Agrees cfg (l.attempt J cfg s a).2 u ∨
      (∃ m, l' = some m ∧ m.Refreshes cfg (l.attempt J cfg s a).2 u) ∨
        ∃ m ∈ others, m.Refreshes cfg (l.attempt J cfg s a).2 u) := by
  rw [Op.Succeeds] at hok
  cases l with
  | mutate r =>
    -- Whatever the store holds now, this call has yet to list it.
    simp only [Op.attempt] at hok ⊢
    split at hok
    · cases hok
    split at hok
    · cases hok
    · next j store he => exact ⟨_, rfl, .inr (.inl ⟨_, rfl, hu⟩)⟩
  | metadata r j =>
    simp only [Op.attempt] at hok ⊢
    split at hok
    · next htool => exact ⟨_, rfl, .inr (.inl ⟨_, rfl, hu⟩)⟩
    split at hok
    · cases hok
    · exact ⟨_, rfl, .inr (.inl ⟨_, rfl, hu⟩)⟩
  | list r j =>
    refine ⟨_, rfl, .inr (.inl ⟨_, rfl, hu, ?_⟩)⟩
    rw [← hu]
    exact List.Perm.refl _
  | read r j jobs =>
    refine ⟨_, rfl, ?_⟩
    rcases h with h | h | h
    · exact .inl h
    · exact .inr (.inl ⟨_, rfl, h⟩)
    · exact .inr (.inr h)
  | write r j jobs current =>
    -- This call returns, so what it held does not count any more.
    simp only [Op.attempt] at hok ⊢
    split at hok
    · cases hok
    next crontabs he =>
    refine ⟨_, rfl, ?_⟩
    rcases hcur with hcur | ⟨m, hm, hr⟩
    · refine .inl (agrees_of_written cfg current hrun hw hcur rfl ?_)
      have hc := (writeUserCrontab_frame cfg he).2 rfl
      have hu' : u = r.ctx.osUsername := hu.symm
      simp [Shared.crontab, hc, hu']
    · exact .inr (.inr ⟨m, hm, Op.refreshes_of_store cfg rfl hr⟩)
  | rollback r j e => cases hok

theorem settled_next {u : Str} {p p' : Pool Shared Op} {e : Event Op Answer Empty} (hrun : ch '\n' ∉ cfg.cronRunnerPath)
    (hw : WellFormed p.shared.store.jobs) (h : Settled cfg u p) (hc : InTurn J cfg u p e)
    (hn : (program J cfg).next p e = some p') : Settled cfg u p' := by
  obtain ⟨l, rfl, -, rfl⟩ | ⟨i, a, l, pre, post, s', l', rfl, rfl, hcalls, hs, rfl⟩ | ⟨e', g, rfl, -, -⟩ :=
    Program.next_cases hn
  · exact h.imp_right fun ⟨m, hm, hr⟩ => ⟨m, List.mem_append_left _ hm, hr⟩
  · obtain ⟨rfl, hl'⟩ := Op.step_eq J cfg hs
    have hothers : p.calls.eraseIdx pre.length = pre ++ post := by
      rw [hcalls, List.eraseIdx_append_of_length_le (Nat.le_refl _)]
      simp
    have hsplit : Agrees cfg p.shared u ∨ l.Refreshes cfg p.shared u ∨ ∃ m ∈ pre ++ post, m.Refreshes cfg p.shared u := by
      rcases h with h | ⟨m, hm, hr⟩
      · exact .inl h
      · rw [hcalls] at hm
        rcases List.mem_append.1 hm with hm | hm
        · exact .inr (.inr ⟨m, List.mem_append_left _ hm, hr⟩)
        · rcases List.mem_cons.1 hm with rfl | hm
          · exact .inr (.inl hr)
          · exact .inr (.inr ⟨m, List.mem_append_right _ hm, hr⟩)
    -- A call of another user changes neither the jobs nor the crontab of `u`.
    by_cases hu : l.user = u
    · obtain ⟨hok, hcur⟩ := hc l (by simp [hcalls]) hu
      rw [hothers] at hcur
      obtain ⟨m', hm', hsettled⟩ := Op.attempt_settles J cfg hrun hw hu hok hcur hsplit
      rcases hsettled with hag | ⟨m, rfl, hr⟩ | ⟨m, hm, hr⟩
      · exact .inl hag
      · exact .inr ⟨m, by simp [hl' _ hm'], hr⟩
      · exact .inr ⟨m, mem_of_mem_others hm, hr⟩
    · obtain ⟨hag, href⟩ := (Op.attempt_effect J cfg hw l a).keeps_others cfg hw (Ne.symm hu)
      rcases hsplit with h | hr | ⟨m, hm, hr⟩
      · exact .inl (hag h)
      · exact absurd (Op.user_of_refreshes cfg hr) hu
      · exact .inr ⟨m, mem_of_mem_others hm, href m hr⟩
  · exact nomatch e'

/-- In every interleaving of calls of any users in which the steps of the calls
of `u` succeed, and each writes jobs that are current or leaves a call in
progress that will: once all calls have returned, the managed blocks of the
crontab of `u` are the jobs of `u`, each with its schedule. The two agreed
before, or `u` made a call. -/
theorem crontab_agrees_of_in_turn (u : Str) (p p' : Pool Shared Op) (es : List (Event Op Answer Empty))
    (hrun : ch '\n' ∉ cfg.cronRunnerPath) (hw : WellFormed p.shared.store.jobs)
    (h0 : Agrees cfg p.shared u ∨ ∃ r : Request, r.ctx.osUsername = u ∧ .start (.mutate r) ∈ es)
    (hc : Along (program J cfg).next (InTurn J cfg u) p es) (hr : run (program J cfg).next p es = some p')
    (hdone : p'.calls = []) : Agrees cfg p'.shared u := by
  obtain ⟨r, hu, h0⟩ : ∃ r : Request, r.ctx.osUsername = u ∧ (Agrees cfg p.shared u ∨ .start (.mutate r) ∈ es) := by
    rcases h0 with h0 | ⟨r, hu, hm⟩
    · exact ⟨⟨{ osUsername := u }, .delete []⟩, rfl, .inl h0⟩
    · exact ⟨r, hu, .inr hm⟩
  have hs : Settled cfg u p' := by
    refine run_inv_once (fun p => WellFormed p.shared.store.jobs) (Settled cfg u) ?_ ?_ (.start (.mutate r)) ?_ hw (h0.imp_left .inl)
      hc hr
    · intro p e p' hw hn
      obtain ⟨l, rfl, -, rfl⟩ | ⟨i, a, l, pre, post, s', l', rfl, -, -, hs, rfl⟩ | ⟨e', g, rfl, -, -⟩ :=
        Program.next_cases hn
      · exact hw
      · obtain ⟨rfl, -⟩ := Op.step_eq J cfg hs
        exact (Op.attempt_effect J cfg hw l a).wellFormed
      · exact nomatch e'
    · intro p e p' hw h hc hn
      exact settled_next J cfg hrun hw h hc hn
    · intro p p' hn
      cases hn
      exact .inr ⟨.mutate r, by simp, hu⟩
  rcases hs with hs | ⟨l, hl, -⟩
  · exact hs
  · rw [hdone] at hl
    cases hl

end

/-! ## Two overlapping calls -/

def exampleUser : Str := lit "mcp_user_abcdefgh"

/-- A `cron_create` of the user. -/
def creation (schedule : String) : Event Op Answer Empty :=
  .start (.mutate ⟨{ userId := lit "abcdefgh", osUsername := exampleUser },
    .create (lit schedule) (lit "date") [] []⟩)

/-- The change of the store draws ids from `b`. -/
def drawn (i : Nat) (b : UInt8) : Event Op Answer Empty := .act i { bufs := .replicate 4 (.replicate 8 b) }

/-- An empty store and no crontab. -/
def noJobs : Pool Shared Op := ⟨⟨⟨∅, none⟩, ∅, ∅⟩, []⟩

/-- The first call lists its one job, the second runs from start to end, and
then the first writes its list. -/
def staleLast : List (Event Op Answer Empty) :=
  [creation "0 3 * * *", drawn 0 1, .act 0 {}, .act 0 {}, creation "0 4 * * *", drawn 1 2, .act 1 {}, .act 1 {},
    .act 1 {}, .act 1 {}, .act 0 {}, .act 0 {}]

/-- Every step succeeds, both calls return, and the job of the second is not in
the crontab. -/
theorem stale_list_loses_job :
    WellFormed noJobs.shared.store.jobs ∧ Agrees { pid := 7 } noJobs.shared exampleUser ∧
    Along (program jsonText { pid := 7 }).next (StepSucceeds jsonText { pid := 7 }) noJobs staleLast ∧
    ∃ p', run (program jsonText { pid := 7 }).next noJobs staleLast = some p' ∧ p'.calls = [] ∧
      (p'.shared.store.listForUser exampleUser).map CronJob.schedule = [lit "0 4 * * *", lit "0 3 * * *"] ∧
      (managedBlocks none (lines (p'.shared.crontab exampleUser))).map Prod.fst = [lit "0101010101010101"] ∧
      ¬ Agrees { pid := 7 } p'.shared exampleUser := by
  refine ⟨fun id c h => by simp [noJobs] at h, List.Perm.refl _, by decide +kernel, ?_⟩
  have h : (run (program jsonText { pid := 7 }).next noJobs staleLast).map
      (fun p => (p.calls.length, (p.shared.store.listForUser exampleUser).map CronJob.schedule,
        (managedBlocks none (lines (p.shared.crontab exampleUser))).map Prod.fst)) =
      some (0, [lit "0 4 * * *", lit "0 3 * * *"], [lit "0101010101010101"]) := by
    decide +kernel
  obtain ⟨p', hp, hv⟩ := Option.map_eq_some_iff.1 h
  simp only [Prod.mk.injEq, List.length_eq_zero_iff] at hv
  refine ⟨p', hp, hv.1, hv.2.1, hv.2.2, fun ha => ?_⟩
  have hlen := ha.length_eq
  have hblocks := congrArg List.length hv.2.2
  have hjobs := congrArg List.length hv.2.1
  simp only [List.length_map] at hlen hblocks hjobs
  rw [hblocks, hjobs] at hlen
  cases hlen

/-- The same calls, but the first writes its list before the second makes its own. -/
def staleRefreshed : List (Event Op Answer Empty) :=
  [creation "0 3 * * *", drawn 0 1, .act 0 {}, .act 0 {}, creation "0 4 * * *", drawn 1 2, .act 1 {}, .act 0 {},
    .act 0 {}, .act 0 {}, .act 0 {}, .act 0 {}]

theorem stale_list_refreshed :
    ∃ p', run (program jsonText { pid := 7 }).next noJobs staleRefreshed = some p' ∧
      Agrees { pid := 7 } p'.shared exampleUser := by
  have h : (run (program jsonText { pid := 7 }).next noJobs staleRefreshed).map (·.calls.length) = some 0 := by
    decide +kernel
  obtain ⟨p', hp, hv⟩ := Option.map_eq_some_iff.1 h
  refine ⟨p', hp, crontab_agrees_of_in_turn jsonText { pid := 7 } exampleUser noJobs p' staleRefreshed (by decide) ?_
    (.inl (List.Perm.refl _)) (by decide +kernel) hp (List.length_eq_zero_iff.1 hv)⟩
  intro id c h
  simp [noJobs] at h

end McpBridge.Cron
