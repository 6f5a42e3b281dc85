import McpBridge.Cron.Durable
/-!
# Ownership of jobs

Tenants share one store. A call throws and leaves every job as it was, adds a
job under an id that is not taken, or changes or removes one job of the user it
is made for. That needs each job to be under its own id and nothing else, so it
holds for a store loaded from any file, also one with schedules that `add`
would refuse.
-/

open McpBridge.Lib McpBridge.Core

namespace McpBridge.Cron

theorem Keyed.insert {jobs : Map Str CronJob} (h : Keyed jobs) {id : Str} {c : CronJob} (hc : c.jobId = id) :
    Keyed (jobs.insert id c) := by
  intro i x hl
  rw [Map.lookup_insert_if] at hl
  split at hl
  · next hi =>
    cases hl
    rw [hi, hc]
  · exact h i x hl

theorem Keyed.same {jobs jobs' : Map Str CronJob} (h : Keyed jobs) (hs : Same jobs' jobs) : Keyed jobs' := by
  intro i x hl
  apply h i x
  rw [← hs i]
  exact hl

theorem loadEntries_keyed {l : List Json} {jobs jobs' : Map Str CronJob} (h : Keyed jobs)
    (hl : loadEntries l jobs = .ok jobs') : Keyed jobs' := by
  induction l generalizing jobs with
  | nil =>
    cases hl
    exact h
  | cons j l ih =>
    unfold loadEntries at hl
    split at hl
    · exact ih h hl
    split at hl
    · cases hl
    · next c hc =>
      apply ih ?_ hl
      split
      · exact h.insert rfl
      · exact h

section
variable (J : JsonText) (cfg : Config)

/-- Whatever the file holds, its jobs are loaded under their ids. -/
theorem loadLocked_keyed {stream : Str → Streamed} {file : Option Str} {jobs : Map Str CronJob}
    (hl : loadLocked stream file ∅ = .ok jobs) : Keyed jobs := by
  have hempty : Keyed (∅ : Map Str CronJob) := by
    intro id c hc
    cases hc
  unfold loadLocked at hl
  split at hl
  · cases hl
    exact hempty
  split at hl
  · exact loadEntries_keyed hempty hl
  · cases hl
    exact hempty

/-! ## Accesses -/

/-- A call of the store that returns before the next one starts. -/
inductive Access where
  | call (c : Call)
  | listForUser (osUsername : Str)
  | find (jobId : Str)

inductive Answered where
  | job (r : Except Str CronJob)
  | jobs (l : List CronJob)
  | found (c : Option CronJob)

def Store.find (st : Store) (jobId : Str) : Option CronJob := st.jobs.lookup jobId

def Access.exec (st : Store) : Access → Answered × Store
  | .call c => (.job (c.exec J cfg st).1, (c.exec J cfg st).2)
  | .listForUser osUsername => (.jobs (st.listForUser osUsername), st)
  | .find jobId => (.found (st.find jobId), st)

/-- The access is an update or a removal of the job, made for its owner. -/
def Access.Targets (id owner : Str) : Access → Prop
  | .call (.update a _) => a.jobId = id ∧ a.osUsername = owner
  | .call (.remove jobId osUsername _) => jobId = id ∧ osUsername = owner
  | _ => False

/-- The fields that identify a job are the same. -/
def SameJob (c c' : CronJob) : Prop :=
  c'.jobId = c.jobId ∧ c'.userId = c.userId ∧ c'.osUsername = c.osUsername ∧ c'.createdAt = c.createdAt

/-- The job has the values supplied, and its own where none was. -/
def Supplied (a : UpdateArgs) (c c' : CronJob) : Prop :=
  c'.schedule = a.schedule.getD c.schedule ∧ c'.command = a.command.getD c.command ∧
    c'.description = a.description.getD c.description ∧ c'.contextId = a.contextId.getD c.contextId

/-- What one access may do to the jobs: an entry stays, or the access targets it
and leaves nothing or the same job, or it is new. -/
def Confined (st : Store) (a : Access) (st' : Store) : Prop :=
  ∀ id, st'.jobs.lookup id = st.jobs.lookup id ∨
    (∃ c, st.jobs.lookup id = some c ∧ a.Targets id c.osUsername ∧ ∀ c', st'.jobs.lookup id = some c' → SameJob c c') ∨
    st.jobs.lookup id = none

theorem access_confined {st : Store} (hk : Keyed st.jobs) (a : Access) :
    Keyed (a.exec J cfg st).2.jobs ∧ Confined st a (a.exec J cfg st).2 := by
  have hsame : ∀ {st' : Store}, Same st'.jobs st.jobs → Keyed st'.jobs ∧ Confined st a st' :=
    fun hs => ⟨hk.same hs, fun id => .inl (hs id)⟩
  cases a with
  | listForUser u => exact hsame fun _ => rfl
  | find id => exact hsame fun _ => rfl
  | call c =>
    cases c with
    | add a o =>
      rcases add_cases J cfg st a o with ⟨-, hs, -⟩ | ⟨c, -, hfresh, hstored, -, hjobs, -⟩
      · exact hsame hs
      · simp only [Access.exec, Call.exec, Confined, hjobs]
        refine ⟨hk.insert hstored.1, fun id => ?_⟩
        by_cases hi : id = c.jobId
        · exact .inr (.inr (hi ▸ hfresh))
        · exact .inl (by simp [hi])
    | update a o =>
      rcases update_cases J cfg st a o with ⟨-, hs, -⟩ | ⟨prev, hl, howner, -, -, -, hjobs, -⟩
      · exact hsame hs
      · simp only [Access.exec, Call.exec, Confined, hjobs]
        have hid : prev.jobId = a.jobId := hk _ _ hl
        refine ⟨hk.insert hid, fun id => ?_⟩
        by_cases hi : id = a.jobId
        · subst hi
          refine .inr (.inl ⟨prev, hl, ⟨rfl, howner.symm⟩, fun c' hc' => ?_⟩)
          rw [Map.lookup_insert_if, if_pos rfl] at hc'
          cases hc'
          exact ⟨rfl, rfl, rfl, rfl⟩
        · exact .inl (by simp [hi])
    | remove jobId u o =>
      rcases remove_cases J cfg hk jobId u o with ⟨-, hs, -⟩ | ⟨removed, hl, howner, -, hjobs, -⟩
      · exact hsame hs
      · simp only [Access.exec, Call.exec, Confined, hjobs]
        refine ⟨fun i c hc => hk i c (Map.lookup_of_erase hc), fun id => ?_⟩
        by_cases hi : id = jobId
        · subst hi
          refine .inr (.inl ⟨removed, hl, ⟨rfl, howner.symm⟩, fun c' hc' => ?_⟩)
          simp at hc'
        · exact .inl (by simp [hi])

/-- Over every history of accesses of a store loaded from any file, a further
access changes or removes a job only if it is an update or a removal made for
the job's owner; an `add` replaces none; a job keeps its id, user, owner and
creation time; an update that succeeds changes what it was given, and
`updated_at`; and a user's list has each of their jobs once, and no others. -/
theorem jobs_isolated (stream : Str → Streamed) {file : Option Str} {jobs : Map Str CronJob} (h0 : loadLocked stream file ∅ = .ok jobs)
    {accesses : List Access} {st : Store}
    (hr : run (fun st a => some (a.exec J cfg st).2) ⟨jobs, file⟩ accesses = some st) (a : Access) :
    (∀ id c, st.jobs.lookup id = some c → (a.exec J cfg st).2.jobs.lookup id ≠ some c → a.Targets id c.osUsername) ∧
    (∀ args o, a = .call (.add args o) →
      ∀ id c, st.jobs.lookup id = some c → (a.exec J cfg st).2.jobs.lookup id = some c) ∧
    (∀ id c c', st.jobs.lookup id = some c → (a.exec J cfg st).2.jobs.lookup id = some c' → SameJob c c') ∧
    (∀ args o c', a = .call (.update args o) → (a.exec J cfg st).1 = .job (.ok c') →
      ∃ c, st.jobs.lookup args.jobId = some c ∧ SameJob c c' ∧ Supplied args c c' ∧
        ∀ id, (a.exec J cfg st).2.jobs.lookup id = if id = args.jobId then some c' else st.jobs.lookup id) ∧
    (∀ u, (st.listForUser u).Nodup ∧
      ∀ c, c ∈ st.listForUser u ↔ (∃ id, st.jobs.lookup id = some c) ∧ c.osUsername = u) := by
  have hk : Keyed st.jobs := by
    refine run_inv_all (fun st : Store => Keyed st.jobs) ?_ (loadLocked_keyed h0) hr
    rintro s a s' hs ⟨⟩
    exact (access_confined J cfg hs a).1
  have hconf := (access_confined J cfg hk a).2
  have htarget : ∀ id c, st.jobs.lookup id = some c → (a.exec J cfg st).2.jobs.lookup id ≠ some c →
      a.Targets id c.osUsername := by
    intro id c hl hne
    rcases hconf id with he | ⟨d, hd, ht, -⟩ | hnone
    · exact absurd (he.trans hl) hne
    · cases hl.symm.trans hd
      exact ht
    · cases hl.symm.trans hnone
  refine ⟨htarget, ?_, ?_, ?_, ?_⟩
  · rintro args o rfl id c hl
    by_contra hne
    exact htarget id c hl hne
  · intro id c c' hl hl'
    rcases hconf id with he | ⟨d, hd, -, hsame⟩ | hnone
    · cases (he.trans hl).symm.trans hl'
      exact ⟨rfl, rfl, rfl, rfl⟩
    · cases hl.symm.trans hd
      exact hsame c' hl'
    · cases hl.symm.trans hnone
  · rintro args o c' rfl hok
    rcases update_cases J cfg st args o with ⟨⟨e, herr⟩, -⟩ | ⟨prev, hl, -, -, -, hok', hjobs, -⟩
    · simp only [Access.exec, Call.exec, herr, Answered.job.injEq, reduceCtorEq] at hok
    · simp only [Access.exec, Call.exec, hok', Answered.job.injEq, Except.ok.injEq] at hok
      subst hok
      refine ⟨prev, hl, ⟨rfl, rfl, rfl, rfl⟩, ⟨rfl, rfl, rfl, rfl⟩, fun id => ?_⟩
      simp only [Access.exec, Call.exec, hjobs, Map.lookup_insert_if]
  · intro u
    refine ⟨(List.Nodup.of_map _ (Map.nodup_map_values CronJob.jobId hk)).filter _, fun c => ?_⟩
    simp only [Store.listForUser, List.mem_filter, Map.mem_values, Map.mem_entries, decide_eq_true_eq]

end

/-- Bob cannot remove Alice's job, whose id he knows, and it stays on her list. -/
theorem jobs_isolated_two_tenants :
    let alices : Access := .call (.add ⟨lit "abcdefgh", lit "mcp_user_abcdefgh", lit "0 3 * * *", lit "date", [], [], 1000,
      .replicate 4 (.replicate 8 7)⟩ {})
    let bobs : Access := .call (.remove (lit "0707070707070707") (lit "mcp_user_bcdefghi") {})
    ∃ st c, run (fun st a => some (a.exec jsonText { pid := 7 } st).2) ⟨∅, none⟩ [alices, .find []] = some st ∧
      st.jobs.lookup (lit "0707070707070707") = some c ∧ c ∈ st.listForUser (lit "mcp_user_abcdefgh") ∧
      (bobs.exec jsonText { pid := 7 } st).2.jobs.lookup (lit "0707070707070707") = some c := by
  intro alices bobs
  have hadded : ((run (fun st a => some (a.exec jsonText { pid := 7 } st).2) ⟨∅, none⟩ [alices, .find []]).bind
      fun st => st.jobs.lookup (lit "0707070707070707")).map (·.osUsername) = some (lit "mcp_user_abcdefgh") := by
    decide +kernel
  obtain ⟨c, hc, howner⟩ := Option.map_eq_some_iff.1 hadded
  obtain ⟨st, hst, hl⟩ := Option.bind_eq_some_iff.1 hc
  obtain ⟨htarget, -, -, -, hlist⟩ := jobs_isolated jsonText { pid := 7 } (streamOf jsonText) rfl hst bobs
  refine ⟨st, c, hst, hl, ((hlist _).2 c).2 ⟨⟨_, hl⟩, howner⟩, ?_⟩
  by_contra hne
  obtain ⟨-, hu⟩ := htarget _ c hl hne
  rw [howner] at hu
  exact absurd hu (by decide)

end McpBridge.Cron
