import McpBridge.Cron.Store
/-!
# Memory and disk agree

`Outcome` says what a call of the cron store does: it throws and changes
nothing, or it changes jobs of its user and writes the file. `Durable` is the
invariant that follows: every job is stored under its own id and passed the
checks of `add`, and loading the file gives the jobs in memory.
-/

open McpBridge.Lib McpBridge.Core

namespace McpBridge.Cron

/-- A stored job: under its own id, which is 16 hex digits, with a valid
schedule and a command. -/
def Stored (id : Str) (c : CronJob) : Prop :=
  c.jobId = id ∧ validJobid id = true ∧ validSchedule c.schedule = true ∧ c.command ≠ []

def WellFormed (jobs : Map Str CronJob) : Prop := ∀ id c, jobs.lookup id = some c → Stored id c

/-- Each job is stored under its own id. -/
def Keyed (jobs : Map Str CronJob) : Prop := ∀ id c, jobs.lookup id = some c → c.jobId = id

theorem WellFormed.keyed {jobs : Map Str CronJob} (h : WellFormed jobs) : Keyed jobs := fun id c hl => (h id c hl).1

/-- The same entries, in whatever order. -/
def Same (m m' : Map Str CronJob) : Prop := ∀ id, m.lookup id = m'.lookup id

theorem WellFormed.insert {jobs : Map Str CronJob} (h : WellFormed jobs) {id : Str} {c : CronJob} (hc : Stored id c) :
    WellFormed (jobs.insert id c) := by
  intro i x hl
  rw [Map.lookup_insert_if] at hl
  split at hl
  · next hi => cases hl; rw [hi]; exact hc
  · exact h i x hl

theorem WellFormed.erase {jobs : Map Str CronJob} (h : WellFormed jobs) (id : Str) : WellFormed (jobs.erase id) := by
  intro i x hl
  exact h i x (Map.lookup_of_erase hl)

theorem WellFormed.same {jobs jobs' : Map Str CronJob} (h : WellFormed jobs) (hs : Same jobs' jobs) : WellFormed jobs' :=
  fun i x hl => h i x (by rw [← hs i]; exact hl)

/-! ## Writing and loading -/

theorem ofJson_toJson (c : CronJob) : CronJob.ofJson c.toJson = .ok c := by
  have hread : CronJob.ofJson c.toJson = .ok { c with createdAt := .ofInt c.createdAt.toInt, updatedAt := .ofInt c.updatedAt.toInt } := rfl
  rw [hread, Int64.ofInt_toInt, Int64.ofInt_toInt]

theorem plainList_toJson (l : List CronJob) : Json.plainList (l.map CronJob.toJson) = true := by
  induction l with
  | nil => rfl
  | cons c l ih =>
    have hc : c.toJson.plain = true := rfl
    simp [Json.plainList, hc, ih]

/-- Loading the entries of jobs with valid ids adds them all. -/
theorem loadEntries_toJson {l : List CronJob} (hl : ∀ c ∈ l, validJobid c.jobId = true) (jobs : Map Str CronJob) :
    loadEntries (l.map CronJob.toJson) jobs = .ok (l.foldl (fun m c => m.insert c.jobId c) jobs) := by
  induction l generalizing jobs with
  | nil => rfl
  | cons c l ih =>
    have hobj : c.toJson.isObject = true := rfl
    simp only [List.map_cons, loadEntries, hobj, Bool.not_true, Bool.false_eq_true, if_false, ofJson_toJson,
      hl c (by simp), if_true, List.foldl_cons]
    exact ih (fun d hd => hl d (by simp [hd])) _

theorem WellFormed.mem_values {jobs : Map Str CronJob} (h : WellFormed jobs) {c : CronJob} :
    c ∈ jobs.values ↔ jobs.lookup c.jobId = some c :=
  Map.mem_values_of_key CronJob.jobId h.keyed

theorem WellFormed.nodup_ids {jobs : Map Str CronJob} (h : WellFormed jobs) : (jobs.values.map CronJob.jobId).Nodup :=
  Map.nodup_map_values CronJob.jobId h.keyed

/-! ## What a call does -/

/-- Where two maps differ, the entries of both are jobs of `user`. -/
def Owned (user : Str) (m m' : Map Str CronJob) : Prop :=
  ∀ id, m'.lookup id = m.lookup id ∨
    (∀ c, m.lookup id = some c → c.osUsername = user) ∧ ∀ c, m'.lookup id = some c → c.osUsername = user

theorem owned_insert {user id : Str} {m : Map Str CronJob} {c : CronJob}
    (hm : ∀ prev, m.lookup id = some prev → prev.osUsername = user) (hc : c.osUsername = user) :
    Owned user m (m.insert id c) := by
  intro i
  by_cases hi : i = id
  · subst hi
    refine .inr ⟨hm, fun d hd => ?_⟩
    rw [Map.lookup_insert_if, if_pos rfl] at hd
    cases hd
    exact hc
  · exact .inl (by simp [hi])

theorem owned_erase {user id : Str} {m : Map Str CronJob}
    (hm : ∀ prev, m.lookup id = some prev → prev.osUsername = user) : Owned user m (m.erase id) := by
  intro i
  by_cases hi : i = id
  · subst hi
    refine .inr ⟨hm, fun d hd => ?_⟩
    simp at hd
  · exact .inl (by simp [hi])

section
variable (J : JsonText) (cfg : Config)

/-- The file is what `persistLocked` writes. -/
def Written (st : Store) : Prop :=
  ∃ text, J.dump (some 2) (.arr (st.jobs.values.map CronJob.toJson)) = .ok text ∧ st.file = some (text ++ lit "\n")

/-- A call that throws leaves the jobs and the file as they were. -/
def Unchanged (st st' : Store) : Prop := Same st'.jobs st.jobs ∧ st'.file = st.file

theorem unchanged_refl (st : Store) : Unchanged st st := ⟨fun _ => rfl, rfl⟩

/-- What a mutator of `user` leaves: it threw and changed nothing, or it changed
jobs of `user` and wrote the file. -/
def Outcome (user : Str) (st : Store) (r : Except Str CronJob) (st' : Store) : Prop :=
  ((∃ e, r = .error e) ∧ Unchanged st st') ∨
    (∃ c, r = .ok c) ∧ WellFormed st'.jobs ∧ Owned user st.jobs st'.jobs ∧ Written J st'

/-- `persistLocked` keeps the jobs; it writes the file, or throws and leaves it. -/
theorem persistLocked_cases {o : ReplaceOutcome} {st st' : Store} {r : Except Str Unit}
    (h : persistLocked J cfg o st = (r, st')) :
    st'.jobs = st.jobs ∧ ((∃ e, r = .error e) ∧ st'.file = st.file ∨ r = .ok () ∧ Written J st') := by
  simp only [persistLocked] at h
  split at h
  · cases h; exact ⟨rfl, .inl ⟨⟨_, rfl⟩, rfl⟩⟩
  next text hd =>
  simp only [atomicWrite] at h
  split at h
  · cases h; exact ⟨rfl, .inl ⟨⟨_, rfl⟩, rfl⟩⟩
  split at h
  · cases h; exact ⟨rfl, .inl ⟨⟨_, rfl⟩, rfl⟩⟩
  split at h
  · cases h; exact ⟨rfl, .inl ⟨⟨_, rfl⟩, rfl⟩⟩
  split at h
  · cases h; exact ⟨rfl, .inl ⟨⟨_, rfl⟩, rfl⟩⟩
  · cases h; exact ⟨rfl, .inr ⟨rfl, text, hd, rfl⟩⟩

/-- The call threw, and changed nothing. -/
def Threw (st : Store) (r : Except Str CronJob × Store) : Prop := (∃ e, r.1 = .error e) ∧ Unchanged st r.2

theorem threw (st : Store) (e : Str) : Threw st (.error e, st) := ⟨⟨e, rfl⟩, unchanged_refl st⟩

/-- A mutation that is persisted, or taken back by `undo` where that throws. -/
theorem mutate_cases {o : ReplaceOutcome} {st : Store} {jobs : Map Str CronJob}
    (undo : Map Str CronJob → Map Str CronJob) (hu : Same (undo jobs) st.jobs) (c : CronJob) :
    let r := match persistLocked J cfg o { st with jobs } with
      | (.error e, st) => ((.error e : Except Str CronJob), { st with jobs := undo st.jobs })
      | (.ok (), st) => (.ok c, st)
    Threw st r ∨ r.1 = .ok c ∧ r.2.jobs = jobs ∧ Written J r.2 := by
  simp only
  split
  · next st1 hp =>
    obtain ⟨hjobs, ⟨-, hfile⟩ | ⟨hr, -⟩⟩ := persistLocked_cases J cfg hp
    · exact .inl ⟨⟨_, rfl⟩, by rw [hjobs]; exact hu, hfile⟩
    · cases hr
  · next st1 hp =>
    obtain ⟨hjobs, ⟨⟨e, hr⟩, -⟩ | ⟨-, hwritten⟩⟩ := persistLocked_cases J cfg hp
    · cases hr
    · exact .inr ⟨rfl, hjobs, hwritten⟩

/-- `add` throws, or adds a job under a new id. -/
theorem add_cases (st : Store) (a : AddArgs) (o : ReplaceOutcome) :
    Threw st (add J cfg a o st) ∨
    ∃ c, (add J cfg a o st).1 = .ok c ∧ st.jobs.lookup c.jobId = none ∧ Stored c.jobId c ∧ c.osUsername = a.osUsername ∧
      (add J cfg a o st).2.jobs = st.jobs.insert c.jobId c ∧ Written J (add J cfg a o st).2 := by
  unfold add
  split
  · exact .inl (threw st _)
  next hs =>
  split
  · exact .inl (threw st _)
  next hc =>
  split
  · exact .inl (threw st _)
  next id hid =>
  -- The id is new, so erasing it takes the insertion back.
  have hfresh : st.jobs.lookup id = none := by simpa using List.find?_some hid
  obtain ⟨buf, -, rfl⟩ := List.mem_map.1 (List.mem_of_find?_eq_some hid)
  have hundo : Same ((st.jobs.insert (makeJobid buf) ⟨makeJobid buf, a.userId, a.osUsername, a.schedule, a.command,
      a.description, a.contextId, a.now, a.now⟩).erase (makeJobid buf)) st.jobs := by
    intro i
    by_cases hi : i = makeJobid buf
    · subst hi; simp [hfresh]
    · simp [hi]
  rcases mutate_cases J cfg (o := o) (fun m => m.erase (makeJobid buf)) hundo _ with hfail | ⟨hok, hjobs, hwritten⟩
  · exact .inl hfail
  · exact .inr ⟨_, hok, hfresh, ⟨rfl, isHexId_hexId buf, by simpa using hs, hc⟩, rfl, hjobs, hwritten⟩

/-- `update` throws, or changes a job of its user. -/
theorem update_cases (st : Store) (a : UpdateArgs) (o : ReplaceOutcome) :
    Threw st (update J cfg a o st) ∨
    ∃ prev, st.jobs.lookup a.jobId = some prev ∧ prev.osUsername = a.osUsername ∧
      (∀ s, a.schedule = some s → validSchedule s = true) ∧ a.command ≠ some [] ∧
      (update J cfg a o st).1 = .ok (a.apply prev) ∧
      (update J cfg a o st).2.jobs = st.jobs.insert a.jobId (a.apply prev) ∧ Written J (update J cfg a o st).2 := by
  unfold update
  split
  · exact .inl (threw st _)
  split
  · exact .inl (threw st _)
  next hs =>
  split
  · exact .inl (threw st _)
  next hc =>
  split
  · exact .inl (threw st _)
  next prev hl =>
  split
  · exact .inl (threw st _)
  next howner =>
  have hundo : Same ((st.jobs.insert a.jobId (a.apply prev)).insert a.jobId prev) st.jobs := by
    intro i
    by_cases hi : i = a.jobId
    · subst hi; simp [hl]
    · simp [hi]
  rcases mutate_cases J cfg (o := o) (fun m => m.insert a.jobId prev) hundo (a.apply prev) with hfail | ⟨hok, hjobs, hwritten⟩
  · exact .inl hfail
  · refine .inr ⟨prev, hl, not_ne_iff.1 howner, ?_, hc, hok, hjobs, hwritten⟩
    intro s hsched
    simpa [hsched] using hs

/-- `remove` throws, or removes a job of its user. -/
theorem remove_cases {st : Store} (hk : Keyed st.jobs) (jobId osUsername : Str) (o : ReplaceOutcome) :
    Threw st (remove J cfg jobId osUsername o st) ∨
    ∃ removed, st.jobs.lookup jobId = some removed ∧ removed.osUsername = osUsername ∧
      (remove J cfg jobId osUsername o st).1 = .ok removed ∧
      (remove J cfg jobId osUsername o st).2.jobs = st.jobs.erase jobId ∧
      Written J (remove J cfg jobId osUsername o st).2 := by
  unfold remove
  split
  · exact .inl (threw st _)
  split
  · exact .inl (threw st _)
  next removed hl =>
  split
  · exact .inl (threw st _)
  next howner =>
  -- The rollback inserts under the job's own id, which is the one it was stored under.
  have hid := hk _ _ hl
  have hundo : Same ((st.jobs.erase jobId).insert removed.jobId removed) st.jobs := by
    intro i
    by_cases hi : i = jobId
    · subst hi; simp [hid, hl]
    · simp [hi, hid]
  rcases mutate_cases J cfg (o := o) (fun m => m.insert removed.jobId removed) hundo removed with
    hfail | ⟨hok, hjobs, hwritten⟩
  · exact .inl hfail
  · exact .inr ⟨removed, hl, not_ne_iff.1 howner, hok, hjobs, hwritten⟩

theorem add_outcome {st : Store} (h : WellFormed st.jobs) (a : AddArgs) (o : ReplaceOutcome) :
    Outcome J a.osUsername st (add J cfg a o st).1 (add J cfg a o st).2 := by
  rcases add_cases J cfg st a o with hfail | ⟨c, hok, hfresh, hstored, howner, hjobs, hwritten⟩
  · exact .inl hfail
  · refine .inr ⟨⟨c, hok⟩, ?_, ?_, hwritten⟩
    · rw [hjobs]
      exact h.insert hstored
    · rw [hjobs]
      refine owned_insert ?_ howner
      intro prev hprev
      rw [hfresh] at hprev
      cases hprev

theorem update_outcome {st : Store} (h : WellFormed st.jobs) (a : UpdateArgs) (o : ReplaceOutcome) :
    Outcome J a.osUsername st (update J cfg a o st).1 (update J cfg a o st).2 := by
  rcases update_cases J cfg st a o with hfail | ⟨prev, hl, howner, hs, hc, hok, hjobs, hwritten⟩
  · exact .inl hfail
  obtain ⟨hid, hvid, hsched, hcmd⟩ := h _ _ hl
  have hkept : (a.apply prev).osUsername = a.osUsername := howner
  refine .inr ⟨⟨_, hok⟩, ?_, ?_, hwritten⟩
  · rw [hjobs]
    refine h.insert ⟨hid, hvid, ?_, ?_⟩
    · cases hsa : a.schedule with
      | none => simpa [UpdateArgs.apply, hsa] using hsched
      | some s => simpa [UpdateArgs.apply, hsa] using hs s hsa
    · cases hca : a.command with
      | none => simpa [UpdateArgs.apply, hca] using hcmd
      | some c => simpa [UpdateArgs.apply, hca] using hc
  · rw [hjobs]
    refine owned_insert ?_ hkept
    intro p hp
    rw [hl] at hp
    cases hp
    exact howner

theorem remove_outcome {st : Store} (h : WellFormed st.jobs) (jobId osUsername : Str) (o : ReplaceOutcome) :
    Outcome J osUsername st (remove J cfg jobId osUsername o st).1 (remove J cfg jobId osUsername o st).2 := by
  rcases remove_cases J cfg h.keyed jobId osUsername o with hfail | ⟨removed, hl, howner, hok, hjobs, hwritten⟩
  · exact .inl hfail
  · refine .inr ⟨⟨_, hok⟩, ?_, ?_, hwritten⟩
    · rw [hjobs]
      exact h.erase jobId
    · rw [hjobs]
      refine owned_erase ?_
      intro p hp
      rw [hl] at hp
      cases hp
      exact howner

/-- A call of the store, with the outcomes of its system calls. -/
inductive Call where
  | add (a : AddArgs) (o : ReplaceOutcome)
  | update (a : UpdateArgs) (o : ReplaceOutcome)
  | remove (jobId osUsername : Str) (o : ReplaceOutcome)

/-- Whom the call is made for. -/
def Call.osUsername : Call → Str
  | .add a _ => a.osUsername
  | .update a _ => a.osUsername
  | .remove _ osUsername _ => osUsername

def Call.exec (st : Store) : Call → Except Str CronJob × Store
  | .add a o => Cron.add J cfg a o st
  | .update a o => Cron.update J cfg a o st
  | .remove jobId osUsername o => Cron.remove J cfg jobId osUsername o st

theorem Call.exec_outcome {st : Store} (h : WellFormed st.jobs) (c : Call) :
    Outcome J c.osUsername st (c.exec J cfg st).1 (c.exec J cfg st).2 := by
  cases c with
  | add a o => exact add_outcome J cfg h a o
  | update a o => exact update_outcome J cfg h a o
  | remove jobId osUsername o => exact remove_outcome J cfg h jobId osUsername o

theorem Outcome.wellFormed {user : Str} {st st' : Store} {r : Except Str CronJob} (h : WellFormed st.jobs)
    (ho : Outcome J user st r st') : WellFormed st'.jobs := by
  rcases ho with ⟨-, hu⟩ | ⟨-, hw, -⟩
  · exact h.same hu.1
  · exact hw

theorem Outcome.owned {user : Str} {st st' : Store} {r : Except Str CronJob} (ho : Outcome J user st r st') :
    Owned user st.jobs st'.jobs := by
  rcases ho with ⟨-, hu⟩ | ⟨-, -, howned, -⟩
  · exact fun id => .inl (hu.1 id)
  · exact howned

/-! ## Runs -/

variable (stream : Str → Streamed)

/-- What `persistLocked` writes for well-formed jobs loads as those jobs. -/
theorem Written.loads (hJ : J.ReadsPlain stream) {st : Store} (hw : Written J st) (h : WellFormed st.jobs) :
    ∃ m, loadLocked stream st.file ∅ = .ok m ∧ Same m st.jobs := by
  obtain ⟨text, hd, hfile⟩ := hw
  have hp := hJ _ _ _ (by rw [Json.plain]; exact plainList_toJson _) hd
  have hv : ∀ c ∈ st.jobs.values, validJobid c.jobId = true :=
    fun c hc => (h _ c (h.mem_values.1 hc)).2.1
  refine ⟨_, by rw [hfile, loadLocked, hp]; exact loadEntries_toJson hv ∅, fun id => ?_⟩
  -- The loaded map is built by insertions under distinct ids.
  ext c
  rw [Map.lookup_foldl_insert _ h.nodup_ids]
  simp only [AList.lookup_empty, reduceCtorEq, and_false, or_false, h.mem_values]
  constructor
  · rintro ⟨hl, rfl⟩
    exact hl
  · intro hl
    have hid := (h id c hl).1
    exact ⟨by rwa [hid], hid⟩

/-- The invariant of the store. -/
structure Durable (st : Store) : Prop where
  wellFormed : WellFormed st.jobs
  agrees : ∃ m, loadLocked stream st.file ∅ = .ok m ∧ Same m st.jobs

theorem Outcome.durable (hJ : J.ReadsPlain stream) {user : Str} {st st' : Store} {r : Except Str CronJob} (h : Durable stream st)
    (ho : Outcome J user st r st') : Durable stream st' := by
  refine ⟨ho.wellFormed J h.wellFormed, ?_⟩
  rcases ho with ⟨-, hsame, hfile⟩ | ⟨-, hw, -, hwritten⟩
  · obtain ⟨m, hm, hs⟩ := h.agrees
    exact ⟨m, by rw [hfile]; exact hm, fun id => (hs id).trans (hsame id).symm⟩
  · exact hwritten.loads J stream hJ hw

/-- A store loaded from a directory whose `crons.json` is absent, or was written by such a store. -/
def Loaded (st : Store) : Prop :=
  loadLocked stream st.file ∅ = .ok st.jobs ∧
    (st.file = none ∨ ∃ old : Store, WellFormed old.jobs ∧ Written J old ∧ st.file = old.file)

theorem Loaded.durable (hJ : J.ReadsPlain stream) {st : Store} (h : Loaded J stream st) : Durable stream st := by
  obtain ⟨hload, hnone | ⟨old, hw, hwritten, hfile⟩⟩ := h
  · have hempty : st.jobs = ∅ := by
      rw [hnone] at hload
      exact (Except.ok.inj hload).symm
    refine ⟨fun id c hl => ?_, st.jobs, hload, fun _ => rfl⟩
    rw [hempty, AList.lookup_empty] at hl
    cases hl
  · obtain ⟨m, hm, hs⟩ := hwritten.loads J stream hJ hw
    rw [← hfile, hload] at hm
    cases hm
    exact ⟨hw.same hs, st.jobs, hload, fun _ => rfl⟩

/-- The invariant holds after any calls. -/
theorem run_durable (hJ : J.ReadsPlain stream) {st0 st : Store} {calls : List Call} (h0 : Loaded J stream st0)
    (hr : run (fun st c => some (c.exec J cfg st).2) st0 calls = some st) : Durable stream st := by
  refine run_inv_all (Durable stream) ?_ (h0.durable J stream hJ) hr
  rintro s c s' hs ⟨⟩
  exact (c.exec_outcome J cfg hs.wellFormed).durable J stream hJ hs

/-- After any calls, with any outcomes of their system calls, a further call
leaves a file that loads as the jobs in memory; where it throws, it changes
neither; and every job is stored under its own valid id, with a valid schedule
and a command. -/
theorem memory_and_disk_agree (hJ : J.ReadsPlain stream) (st0 st : Store) (calls : List Call) (h0 : Loaded J stream st0)
    (hr : run (fun st c => some (c.exec J cfg st).2) st0 calls = some st) (c : Call) :
    (∃ m, loadLocked stream (c.exec J cfg st).2.file ∅ = .ok m ∧ Same m (c.exec J cfg st).2.jobs) ∧
      (∀ e, (c.exec J cfg st).1 = .error e → Unchanged st (c.exec J cfg st).2) ∧
      WellFormed (c.exec J cfg st).2.jobs := by
  have hd : Durable stream st := run_durable J cfg stream hJ h0 hr
  have ho := c.exec_outcome J cfg hd.wellFormed
  have hd' := ho.durable J stream hJ hd
  refine ⟨hd'.agrees, fun e he => ?_, hd'.wellFormed⟩
  rcases ho with ⟨-, hu⟩ | ⟨⟨j, hj⟩, -⟩
  · exact hu
  · rw [he] at hj
    cases hj

end

/-- A job is added, and an update of it does not reach its `rename`. -/
theorem failed_update_agrees :
    let first : Call := .add ⟨lit "abcdefgh", lit "mcp_user_abcdefgh", lit "0 3 * * *", lit "date", [], [], 1000,
      .replicate 4 (.replicate 8 7)⟩ {}
    let second : Call := .update ⟨lit "0707070707070707", lit "mcp_user_abcdefgh", some (lit "0 4 * * *"), none, none,
      none, 1001⟩ { renamed := false, strerror := lit "No space left on device" }
    ∃ st, run (fun st c => some (c.exec jsonText { pid := 7 } st).2) ⟨∅, none⟩ [first] = some st ∧
      st.jobs.values.map CronJob.schedule = [lit "0 3 * * *"] ∧
      Unchanged st (second.exec jsonText { pid := 7 } st).2 := by
  intro first second
  refine ⟨(first.exec jsonText { pid := 7 } ⟨∅, none⟩).2, rfl, by decide +kernel, ?_⟩
  refine (memory_and_disk_agree jsonText { pid := 7 } (streamOf jsonText) jsonText_roundTrips.readsPlain ⟨∅, none⟩ _ [first]
    ⟨rfl, .inl rfl⟩ rfl second).2.1 (lit "rename to /var/lib/mcp_bridge/state/crons.json: No space left on device") ?_
  repeat rw [lit_ofList]
  decide +kernel

end McpBridge.Cron
