import McpBridge.Cron.Backend
/-!
# What a failed tool call leaves in the store

The backend declares that its caller takes the change of the store back where
one of its calls throws. `cron_create` does, so its failure leaves the jobs as
they were, in memory and in `crons.json`; `cron_update` and `cron_delete` leave
the change in place.
-/

open McpBridge.Lib McpBridge.Core

namespace McpBridge.Cron

/-- Every call of the replacement succeeds. -/
def Succeeds (o : ReplaceOutcome) : Prop := o.opened = true ∧ o.written = true ∧ o.synced = true ∧ o.renamed = true

section
variable (J : JsonText) (stream : Str → Streamed) (cfg : Config)

/-- The jobs are those before, in memory and in the file. -/
def KeepsJobs (st st' : Store) : Prop :=
  Same st'.jobs st.jobs ∧ ∃ m m', loadLocked stream st.file ∅ = .ok m ∧ loadLocked stream st'.file ∅ = .ok m' ∧ Same m' m

/-- Where the backend fails, no change of the store is left behind: the tool takes
it back, or it changed nothing. -/
def Request.LeavesNothing (r : Request) (a : Answer) (st : Store) : Prop :=
  match r.tool with
  | .create .. => True
  | .update jobId schedule command description contextId =>
    ∀ prev, st.jobs.lookup jobId = some prev →
      UpdateArgs.apply ⟨jobId, r.ctx.osUsername, schedule, command, description, contextId, a.now⟩ prev = prev
  | .delete _ => False

/-! ## Writes that succeed -/

theorem utf8List_iff (l : List Json) : Json.utf8List l = true ↔ ∀ j ∈ l, j.utf8 = true := by
  induction l with
  | nil => simp [Json.utf8List]
  | cons j l ih => simp [Json.utf8List, ih]

variable {J stream cfg}

/-- The jobs of a map whose entries are among those of another can be written where those were. -/
theorem persistLocked_sub (hu : J.DumpsUtf8) {o : ReplaceOutcome} (ho : Succeeds o) {st st₁ : Store} (hw : Written J st₁)
    (hsub : ∀ c ∈ st.jobs.values, c ∈ st₁.jobs.values) : (persistLocked J cfg o st).1 = .ok () := by
  obtain ⟨text, hd, -⟩ := hw
  have hutf8 : (Json.arr (st.jobs.values.map CronJob.toJson)).utf8 = true := by
    have hall := (hu _ _).1 ⟨text, hd⟩
    rw [Json.utf8, utf8List_iff] at hall ⊢
    intro j hj
    obtain ⟨c, hc, rfl⟩ := List.mem_map.1 hj
    exact hall _ (List.mem_map.2 ⟨c, hsub c hc, rfl⟩)
  obtain ⟨text', hd'⟩ := (hu (some 2) _).2 hutf8
  obtain ⟨h1, h2, h3, h4⟩ := ho
  simp [persistLocked, hd', atomicWrite, h1, h2, h3, h4]

/-- Taking back a job that was added. -/
theorem remove_added (hu : J.DumpsUtf8) {o : ReplaceOutcome} (ho : Succeeds o) {st : Store} (hw : Written J st)
    (hwf : WellFormed st.jobs) {c : CronJob} (hc : st.jobs.lookup c.jobId = some c) :
    (remove J cfg c.jobId c.osUsername o st).2.jobs = st.jobs.erase c.jobId ∧
      Written J (remove J cfg c.jobId c.osUsername o st).2 := by
  have hid : validJobid c.jobId = true := (hwf _ _ hc).2.1
  have hsub : ∀ d ∈ Map.values (st.jobs.erase c.jobId), d ∈ st.jobs.values := by
    intro d hd
    exact hwf.mem_values.2 (Map.lookup_of_erase ((hwf.erase c.jobId).mem_values.1 hd))
  have hok : (persistLocked J cfg o { st with jobs := st.jobs.erase c.jobId }).1 = .ok () := persistLocked_sub hu ho hw hsub
  rcases remove_cases J cfg hwf.keyed c.jobId c.osUsername o with ⟨⟨e, he⟩, -⟩ | ⟨removed, -, -, -, hjobs, hwritten⟩
  · exfalso
    simp only [remove, hid, hc] at he
    generalize hp : persistLocked J cfg o _ = p at he hok
    obtain ⟨r, st₁⟩ := p
    subst hok
    simp at he
  · exact ⟨hjobs, hwritten⟩

/-! ## The three tools -/

/-- The files of two stores hold the same jobs where the memories do. -/
theorem keepsJobs_iff {st st' : Store} (hd : Durable stream st) (hd' : Durable stream st') :
    KeepsJobs stream st st' ↔ Same st'.jobs st.jobs := by
  obtain ⟨m, hm, hs⟩ := hd.agrees
  obtain ⟨m', hm', hs'⟩ := hd'.agrees
  constructor
  · exact fun h => h.1
  · intro h
    refine ⟨h, m, m', hm, hm', fun id => ?_⟩
    rw [hs', h, hs]

/-- A `cron_create` takes its job back. -/
theorem recover_create (hu : J.DumpsUtf8) {o : ReplaceOutcome} (ho : Succeeds o) {st st₁ : Store} (hwf : WellFormed st.jobs)
    {a : AddArgs} {o₁ : ReplaceOutcome} {j : CronJob} (h : add J cfg a o₁ st = (.ok j, st₁)) :
    Same (remove J cfg j.jobId a.osUsername o st₁).2.jobs st.jobs := by
  rcases add_cases J cfg st a o₁ with ⟨⟨e, he⟩, -⟩ | ⟨c, hok, hfresh, hstored, howner, hjobs, hwritten⟩
  · rw [h] at he
    cases he
  · rw [h] at hok hjobs hwritten
    cases hok
    have hwf₁ : WellFormed st₁.jobs := by
      rw [hjobs]
      exact hwf.insert hstored
    have hj : st₁.jobs.lookup j.jobId = some j := by
      rw [hjobs]
      simp
    have hremoved : (remove J cfg j.jobId j.osUsername o st₁).2.jobs = st₁.jobs.erase j.jobId :=
      (remove_added hu ho hwritten hwf₁ hj).1
    rw [← howner, hremoved, hjobs]
    intro id
    by_cases hi : id = j.jobId
    · subst hi
      simp [hfresh]
    · simp [hi]

/-- An update leaves the jobs as they were only if it changes no field of its job. -/
theorem update_same_iff {st st₁ : Store} {a : UpdateArgs} {o : ReplaceOutcome} {j : CronJob}
    (h : update J cfg a o st = (.ok j, st₁)) :
    Same st₁.jobs st.jobs ↔ ∀ prev, st.jobs.lookup a.jobId = some prev → a.apply prev = prev := by
  rcases update_cases J cfg st a o with ⟨⟨e, he⟩, -⟩ | ⟨prev, hl, -, -, -, -, hjobs, -⟩
  · rw [h] at he
    cases he
  · rw [h] at hjobs
    rw [hjobs]
    constructor
    · intro hs prev' hl'
      have hid := hs a.jobId
      rw [hl'] at hl hid
      cases hl
      simpa using hid
    · intro hsame id
      by_cases hi : id = a.jobId
      · subst hi
        simp [hl, hsame prev hl]
      · simp [hi]

theorem remove_not_same {st st₁ : Store} (hk : Keyed st.jobs) {jobId osUsername : Str} {o : ReplaceOutcome} {j : CronJob}
    (h : remove J cfg jobId osUsername o st = (.ok j, st₁)) : ¬Same st₁.jobs st.jobs := by
  rcases remove_cases J cfg hk jobId osUsername o with ⟨⟨e, he⟩, -⟩ | ⟨removed, hl, -, -, hjobs, -⟩
  · rw [h] at he
    cases he
  · rw [h] at hjobs
    intro hs
    have hid := hs jobId
    rw [hjobs, hl] at hid
    simp at hid

/-- What a tool whose backend failed leaves in memory. -/
theorem recover_same_iff (hu : J.DumpsUtf8) {o : ReplaceOutcome} (ho : Succeeds o) {st st₁ : Store} (hwf : WellFormed st.jobs)
    {r : Request} {a : Answer} {j : CronJob} (h : (r.call a).exec J cfg st = (.ok j, st₁)) :
    Same (r.recover J cfg j o st₁).jobs st.jobs ↔ r.LeavesNothing a st := by
  obtain ⟨ctx, tool⟩ := r
  cases tool with
  | create schedule command description contextId => exact iff_of_true (recover_create hu ho hwf h) trivial
  | update jobId schedule command description contextId => exact update_same_iff h
  | delete jobId => exact iff_of_false (remove_not_same hwf.keyed h) id

theorem recover_durable (hJ : J.ReadsPlain stream) (r : Request) (j : CronJob) (o : ReplaceOutcome) {st : Store}
    (hd : Durable stream st) : Durable stream (r.recover J cfg j o st) := by
  obtain ⟨ctx, tool⟩ := r
  cases tool with
  | create => exact (remove_outcome J cfg hd.wellFormed _ _ o).durable J stream hJ hd
  | update | delete => exact hd

end

/-- A tool whose backend fails throws what the backend threw; the jobs are then
those before the call, in memory and in `crons.json`, exactly if the tool is
`cron_create` or an update that changes no field of its job. -/
theorem failed_tool_keeps_jobs_iff (J : JsonText) (stream : Str → Streamed) (cfg : Config) (hJ : J.ReadsPlain stream)
    (hu : J.DumpsUtf8) {S : Type} (B : Backend S) (st0 st st₁ : Store) (calls : List Call) (h0 : Loaded J stream st0)
    (hr : run (fun st c => some (c.exec J cfg st).2) st0 calls = some st) (r : Request) (a : Answer) (o : ReplaceOutcome)
    (ho : Succeeds o) (s : S) (j : CronJob) (e : Str) (hcheck : B.check r = .ok ())
    (hexec : (r.call a).exec J cfg st = (.ok j, st₁)) (hfail : (B.apply r j st₁ s).1 = .error e) :
    (runTool J cfg B r a o st s).1 = .error e ∧
      (KeepsJobs stream st (runTool J cfg B r a o st s).2.1 ↔ r.LeavesNothing a st) := by
  have hd : Durable stream st := run_durable J cfg stream hJ h0 hr
  have hd₁ : Durable stream st₁ := by
    have hdurable := ((r.call a).exec_outcome J cfg hd.wellFormed).durable J stream hJ hd
    rw [hexec] at hdurable
    exact hdurable
  have hrun : runTool J cfg B r a o st s = (.error e, r.recover J cfg j o st₁, (B.apply r j st₁ s).2) := by
    simp only [runTool, hcheck, hexec]
    generalize B.apply r j st₁ s = w at hfail
    obtain ⟨res, s₁⟩ := w
    subst hfail
    rfl
  rw [hrun]
  refine ⟨rfl, ?_⟩
  rw [keepsJobs_iff hd (recover_durable hJ r j o hd₁)]
  exact recover_same_iff hu ho hd.wellFormed hexec

/-- The account the examples run under. -/
def alice : RequestContext := { userId := lit "abcdefgh", osUsername := lit "mcp_user_abcdefgh" }

/-- A service that cannot write a file. -/
def refusingService : Windows.PrivCall Unit :=
  fun _ p => (.ok (.ofFields [(lit "ok", .bool false), (lit "error", .str (lit "failed to write metadata file"))]), p)

/-- The metadata of a new job cannot be written, with either backend. -/
theorem failed_create_keeps_jobs :
    let r : Request := ⟨alice, .create (lit "0 3 * * *") (lit "date") [] []⟩
    let B := linuxBackend jsonText { pid := 7 } { metadata := { process := { exitCode := 1, stderrStr := lit "full" } } }
    let W := windowsBackend refusingService
    ((∃ e, (runTool jsonText { pid := 7 } B r {} {} ⟨∅, none⟩ {}).1 = .error e) ∧
      KeepsJobs (streamOf jsonText) ⟨∅, none⟩ (runTool jsonText { pid := 7 } B r {} {} ⟨∅, none⟩ {}).2.1) ∧
    (runTool jsonText { pid := 7 } W r {} {} ⟨∅, none⟩ ()).1 = .error (lit "cron_write_meta: failed to write metadata file") ∧
      KeepsJobs (streamOf jsonText) ⟨∅, none⟩ (runTool jsonText { pid := 7 } W r {} {} ⟨∅, none⟩ ()).2.1 := by
  intro r B W
  have hpair : ∀ {x : Except Str CronJob × Store} {c}, x.1 = c → x = (c, x.2) := by
    rintro x c rfl
    rfl
  have h := failed_tool_keeps_jobs_iff jsonText (streamOf jsonText) { pid := 7 } jsonText_roundTrips.readsPlain
    jsonText_dumpsUtf8 B ⟨∅, none⟩ ⟨∅, none⟩ _ [] ⟨rfl, .inl rfl⟩ rfl r {} {} ⟨rfl, rfl, rfl, rfl⟩ {}
    ⟨lit "0000000000000000", lit "abcdefgh", lit "mcp_user_abcdefgh", lit "0 3 * * *", lit "date", [], [], 0, 0⟩
    (lit "write per-job meta /var/lib/mcp_bridge/users_state/mcp_user_abcdefgh/crons/0000000000000000.json exit=1 stderr=full")
    (by decide +kernel) (hpair (by decide +kernel)) (by decide +kernel)
  have hw := failed_tool_keeps_jobs_iff jsonText (streamOf jsonText) { pid := 7 } jsonText_roundTrips.readsPlain jsonText_dumpsUtf8 W
    ⟨∅, none⟩ ⟨∅, none⟩ _ [] ⟨rfl, .inl rfl⟩ rfl r {} {} ⟨rfl, rfl, rfl, rfl⟩ ()
    ⟨lit "0000000000000000", lit "abcdefgh", lit "mcp_user_abcdefgh", lit "0 3 * * *", lit "date", [], [], 0, 0⟩
    (lit "cron_write_meta: failed to write metadata file")
    (by decide +kernel) (hpair (by decide +kernel)) (by decide +kernel)
  exact ⟨⟨⟨_, h.1⟩, h.2.2 trivial⟩, hw.1, hw.2.2 trivial⟩

/-- The only job is deleted and the crontab cannot be installed: the call throws, and the job is gone. -/
theorem failed_delete_drops_job :
    let cfg : Config := { pid := 7 }
    let created := (Request.call ⟨alice, .create (lit "0 3 * * *") (lit "date") [] []⟩ {}).exec jsonText cfg ⟨∅, none⟩
    let B := linuxBackend jsonText cfg { write := { process := { exitCode := 1, stderrStr := lit "busy" } } }
    let deleted := runTool jsonText cfg B ⟨alice, .delete (lit "0000000000000000")⟩ {} {} created.2 {}
    deleted.1.map (fun _ => ()) = .error (lit "crontab install for mcp_user_abcdefgh exit=1 stderr=busy") ∧
      ¬KeepsJobs (streamOf jsonText) created.2 deleted.2.1 := by
  intro cfg created B deleted
  have hbefore : created.2.jobs.lookup (lit "0000000000000000") ≠ none := by decide +kernel
  have hafter : deleted.2.1.jobs.lookup (lit "0000000000000000") = none := by decide +kernel
  refine ⟨by decide +kernel, fun h => ?_⟩
  exact hbefore ((h.1 _).symm.trans hafter)

end McpBridge.Cron
