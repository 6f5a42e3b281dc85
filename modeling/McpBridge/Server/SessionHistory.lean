import McpBridge.Server.Session
import McpBridge.Lib.Runs
/-!
# Sessions without a garbage collector

Calls of the session store happen at non-decreasing times, each with its answer
in the log. `InUse` reads off a log alone when a session is open: it was
issued, not invalidated since, and last seen at its issue or its last successful
validation. `LogAgrees` says the store holds, up to sessions that have idled
out, what the log says; every call keeps it, whether the store drops idle
sessions at an `issue` or not. So the sweep cannot be observed.
-/

open McpBridge.Lib

namespace McpBridge.Server

inductive SessionCall where
  | issue (id bearerHash userId : Str)
  | validate (sessionId bearerHash : Str)
  | invalidate (sessionId : Str)
deriving DecidableEq

inductive SessionAnswer where
  | issued (s : Session)
  | found (s : Option Session)
  | done
deriving DecidableEq

/-- A call that has returned. -/
structure Returned where
  time : Int
  call : SessionCall
  answer : SessionAnswer
deriving DecidableEq

/-- How a store opens a session under a new UUID: `SessionStore.issue`, or `issueKeeping`. -/
abbrev IssueFn := SessionStore → Str → Str → Str → Int → Session × SessionStore

/-- `issue` in a store that never drops idle sessions there. -/
def SessionStore.issueKeeping (st : SessionStore) (id bearerHash userId : Str) (now : Int) : Session × SessionStore :=
  let s : Session := ⟨id, bearerHash, userId, now, now⟩
  (s, { st with sessions := st.sessions.insert id s })

def SessionCall.exec (issue : IssueFn) (st : SessionStore) (now : Int) : SessionCall → SessionAnswer × SessionStore
  | .issue id bearerHash userId => ((issue st id bearerHash userId now).1 |> .issued, (issue st id bearerHash userId now).2)
  | .validate id bearerHash => ((st.validate id bearerHash now).1 |> .found, (st.validate id bearerHash now).2)
  | .invalidate id => (.done, st.invalidate id)

/-- The store, the time of the last call, and the calls so far, newest first. -/
structure SessionLog where
  store : SessionStore
  clock : Int
  calls : List Returned

/-- A store as it is constructed. -/
def SessionLog.start (idleTtl now : Int) : SessionLog := ⟨⟨idleTtl, ∅, now⟩, now, []⟩

/-- The next call, which no call before it is later than. -/
def SessionLog.next (issue : IssueFn) (l : SessionLog) (e : Int × SessionCall) : Option SessionLog :=
  if l.clock ≤ e.1 then
    some ⟨(e.2.exec issue l.store e.1).2, e.1, ⟨e.1, e.2, (e.2.exec issue l.store e.1).1⟩ :: l.calls⟩
  else none

theorem SessionLog.next_eq {issue : IssueFn} {l l' : SessionLog} {t : Int} {c : SessionCall}
    (h : l.next issue (t, c) = some l') :
    l.clock ≤ t ∧ l' = ⟨(c.exec issue l.store t).2, t, ⟨t, c, (c.exec issue l.store t).1⟩ :: l.calls⟩ := by
  unfold next at h
  split at h
  · next ht =>
    cases h
    exact ⟨ht, rfl⟩
  · cases h

/-! ## What a log says about a session -/

/-- The call opens or closes the session. -/
def SessionCall.Resets (id : Str) (c : SessionCall) : Prop :=
  (∃ h u, c = .issue id h u) ∨ c = .invalidate id

/-- The call was a successful validation of the session. -/
def Returned.succeeds (d : Returned) (id : Str) : Bool :=
  match d.call, d.answer with
  | .validate i _, .found (some _) => i = id
  | _, _ => false

theorem Returned.succeeds_validate (t : Int) (i h : Str) (o : Option Session) (id : Str) :
    Returned.succeeds ⟨t, .validate i h, .found o⟩ id = (o.isSome && decide (i = id)) := by
  cases o with
  | none => rfl
  | some s => simp [succeeds]

/-- The last successful validation of a session issued at `issuedAt`, in the calls since. -/
def lastSuccess (id : Str) (issuedAt : Int) : List Returned → Int
  | [] => issuedAt
  | d :: rest => if d.succeeds id then d.time else lastSuccess id issuedAt rest

/-- Issued at `issuedAt`, neither invalidated nor issued again since, and last
validated (or issued) at `seen`. -/
def InUse (calls : List Returned) (id bearerHash userId : Str) (issuedAt seen : Int) : Prop :=
  ∃ later earlier a, calls = later ++ ⟨issuedAt, .issue id bearerHash userId, a⟩ :: earlier ∧
    (∀ d ∈ later, ¬ d.call.Resets id) ∧ seen = lastSuccess id issuedAt later

/-- The session a log leaves under an id, idle or not. -/
def status : List Returned → Str → Option Session
  | [], _ => none
  | d :: past, id =>
    match d.call with
    | .issue i h u => if i = id then some ⟨i, h, u, d.time, d.time⟩ else status past id
    | .invalidate i => if i = id then none else status past id
    | .validate _ _ =>
      if d.succeeds id then (status past id).map fun s => { s with lastSeen := d.time } else status past id

theorem inUse_cons {d : Returned} {past : List Returned} {id h u : Str} {t₀ seen : Int} :
    InUse (d :: past) id h u t₀ seen ↔
      (∃ a, d = ⟨t₀, .issue id h u, a⟩ ∧ seen = t₀) ∨
      (¬ d.call.Resets id ∧ ∃ seen', InUse past id h u t₀ seen' ∧ seen = if d.succeeds id then d.time else seen') := by
  constructor
  · rintro ⟨later, earlier, a, hcalls, hlater, rfl⟩
    rcases later with _ | ⟨e, later⟩
    · cases hcalls
      exact .inl ⟨a, rfl, rfl⟩
    · cases hcalls
      refine .inr ⟨hlater _ List.mem_cons_self, _, ⟨later, earlier, a, rfl, ?_, rfl⟩, rfl⟩
      intro e he
      exact hlater e (List.mem_cons_of_mem _ he)
  · rintro (⟨a, rfl, rfl⟩ | ⟨hd, _, ⟨later, earlier, a, rfl, hlater, rfl⟩, rfl⟩)
    · exact ⟨[], past, a, rfl, by simp, rfl⟩
    · exact ⟨d :: later, earlier, a, rfl, by simpa using ⟨hd, hlater⟩, rfl⟩

/-- `status` computes what `InUse` says. -/
theorem status_eq_some {calls : List Returned} {id : Str} {x : Session} :
    status calls id = some x ↔ x.id = id ∧ InUse calls id x.bearerHash x.userId x.createdAt x.lastSeen := by
  induction calls generalizing x with
  | nil => simp [status, InUse]
  | cons d past ih =>
    obtain ⟨t, c, a⟩ := d
    rw [inUse_cons]
    cases c with
    | issue i h u =>
      by_cases hi : i = id
      · subst hi
        obtain ⟨xi, xh, xu, xc, xs⟩ := x
        simp only [status, if_true, Option.some.injEq, Session.mk.injEq, SessionCall.Resets, Returned.mk.injEq,
          SessionCall.issue.injEq]
        grind
      · simp [status, hi, ih, SessionCall.Resets, Returned.succeeds]
    | invalidate i =>
      by_cases hi : i = id
      · subst hi
        simp [status, SessionCall.Resets]
      · simp [status, hi, ih, SessionCall.Resets, Returned.succeeds]
    | validate i h =>
      by_cases hs : Returned.succeeds ⟨t, .validate i h, a⟩ id
      · obtain ⟨xi, xh, xu, xc, xs⟩ := x
        simp only [status, hs, if_true, Option.map_eq_some_iff, ih, SessionCall.Resets, Session.mk.injEq]
        constructor
        · rintro ⟨y, ⟨hid, hy⟩, rfl, rfl, rfl, rfl, rfl⟩
          exact ⟨hid, .inr ⟨by simp, _, hy, rfl⟩⟩
        · rintro ⟨rfl, ⟨_, he, -⟩ | ⟨-, seen, hy, rfl⟩⟩
          · cases he
          · exact ⟨⟨xi, xh, xu, xc, seen⟩, ⟨rfl, hy⟩, rfl, rfl, rfl, rfl, rfl⟩
      · simp [status, hs, ih, SessionCall.Resets]

/-! ## What a store holds, up to idle sessions -/

/-- A session that has not been idle for too long at the time. -/
def fresh (idleTtl now : Int) (s : Session) : Bool := decide (now - s.lastSeen ≤ idleTtl)

/-- The session under an id, unless it has idled out. -/
def SessionStore.live (st : SessionStore) (now : Int) (id : Str) : Option Session :=
  (st.sessions.lookup id).filter (fresh st.idleTtl now)

/-- A sweep drops sessions that have idled out, and stay so. -/
theorem SessionStore.live_gcLocked (st : SessionStore) {now t : Int} (ht : now ≤ t) (id : Str) :
    (st.gcLocked now).live t id = st.live t id := by
  unfold gcLocked
  split
  · rfl
  · simp only [live, Map.lookup_keep]
    rcases hl : st.sessions.lookup id with _ | s
    · rfl
    · by_cases hs : now - s.lastSeen ≤ st.idleTtl
      · simp [Option.filter, hs]
      · have hs' : ¬ t - s.lastSeen ≤ st.idleTtl := by omega
        simp [Option.filter, fresh, hs, hs']

/-- What opening a session does: it is there, and the others are as they were,
up to sessions that have idled out. -/
def Issues (issue : IssueFn) : Prop :=
  ∀ st id h u now, (issue st id h u now).1 = ⟨id, h, u, now, now⟩ ∧ (issue st id h u now).2.idleTtl = st.idleTtl ∧
    ∀ t i, now ≤ t → (issue st id h u now).2.live t i =
      if i = id then (some ⟨id, h, u, now, now⟩ : Option Session).filter (fresh st.idleTtl t) else st.live t i

theorem issues_issue : Issues SessionStore.issue := by
  intro st id h u now
  have httl : (st.gcLocked now).idleTtl = st.idleTtl := by
    unfold SessionStore.gcLocked
    split
    · rfl
    · rfl
  refine ⟨rfl, httl, ?_⟩
  intro t i ht
  rw [← st.live_gcLocked ht]
  simp only [SessionStore.issue, SessionStore.live, Map.lookup_insert_if, httl]
  split
  · rfl
  · rfl

theorem issues_issueKeeping : Issues SessionStore.issueKeeping := by
  intro st id h u now
  refine ⟨rfl, rfl, ?_⟩
  intro t i ht
  simp only [SessionStore.issueKeeping, SessionStore.live, Map.lookup_insert_if]
  split
  · rfl
  · rfl

theorem SessionStore.live_invalidate (st : SessionStore) (id : Str) (t : Int) (i : Str) :
    (st.invalidate id).live t i = if i = id then none else st.live t i := by
  simp only [invalidate, live, Map.lookup_erase_if]
  split
  · rfl
  · rfl

/-- A validation answers from the sessions that have not idled out. -/
theorem SessionStore.validate_answer (st : SessionStore) (id h : Str) (now : Int) :
    (st.validate id h now).1 = ((st.live now id).filter fun s => decide (s.bearerHash = h)).map fun s =>
      { s with lastSeen := now } := by
  unfold validate live
  rcases st.sessions.lookup id with _ | s
  · rfl
  · simp only [Option.filter, fresh]
    by_cases ht : now - s.lastSeen ≤ st.idleTtl
    · have ht' : ¬ st.idleTtl < now - s.lastSeen := by omega
      by_cases hb : s.bearerHash = h
      · simp [ht, ht', hb, (constantTimeEqual_iff h h).2 rfl]
      · have hc : constantTimeEqual s.bearerHash h = false := by
          rw [Bool.eq_false_iff, Ne, constantTimeEqual_iff]
          exact hb
        simp [ht, ht', hb, hc]
    · have ht' : st.idleTtl < now - s.lastSeen := by omega
      simp [ht, ht']

/-- Only a successful validation can be observed later, and only on its own session. -/
theorem SessionStore.live_validate (st : SessionStore) (id h : Str) {now t : Int} (ht : now ≤ t) (i : Str) :
    (st.validate id h now).2.idleTtl = st.idleTtl ∧
    (st.validate id h now).2.live t i =
      match (st.validate id h now).1 with
      | some s => if i = id then (some s).filter (fresh st.idleTtl t) else st.live t i
      | none => st.live t i := by
  unfold validate
  split
  · exact ⟨rfl, rfl⟩
  next s hs =>
  split
  · next hidle =>
    refine ⟨rfl, ?_⟩
    simp only [live, Map.lookup_erase_if]
    split
    · next hi =>
      -- Idle now, so idle at `t`.
      have hstale : ¬ t - s.lastSeen ≤ st.idleTtl := by omega
      subst hi
      rw [hs]
      simp [Option.filter, fresh, hstale]
    · rfl
  split
  · exact ⟨rfl, rfl⟩
  · refine ⟨rfl, ?_⟩
    simp only [live, Map.lookup_insert_if]
    split
    · rfl
    · rfl

/-! ## The log and the store -/

/-- From now on, the store answers as the log says. -/
def LogAgrees (idleTtl : Int) (l : SessionLog) : Prop :=
  l.store.idleTtl = idleTtl ∧ ∀ t id, l.clock ≤ t → l.store.live t id = (status l.calls id).filter (fresh idleTtl t)

theorem logAgrees_start (idleTtl now : Int) : LogAgrees idleTtl (.start idleTtl now) := by
  refine ⟨rfl, ?_⟩
  intro t id _
  rfl

/-- What the log says a validation answers. -/
theorem LogAgrees.validate {idleTtl : Int} {l : SessionLog} (ha : LogAgrees idleTtl l) {t : Int} (ht : l.clock ≤ t)
    (id h : Str) : (l.store.validate id h t).1 =
      (((status l.calls id).filter (fresh idleTtl t)).filter fun s => decide (s.bearerHash = h)).map fun s =>
        { s with lastSeen := t } := by
  rw [SessionStore.validate_answer, ha.2 t id ht]

/-- A log agrees with a store after every further call. -/
theorem LogAgrees.next {issue : IssueFn} (hissue : Issues issue) {idleTtl : Int} {l l' : SessionLog} {e : Int × SessionCall}
    (ha : LogAgrees idleTtl l) (hn : l.next issue e = some l') : LogAgrees idleTtl l' := by
  obtain ⟨t, c⟩ := e
  obtain ⟨ht, rfl⟩ := SessionLog.next_eq hn
  obtain ⟨httl, hlive⟩ := ha
  cases c with
  | issue id h u =>
    obtain ⟨-, httl', hlive'⟩ := hissue l.store id h u t
    refine ⟨httl'.trans httl, ?_⟩
    intro t' i ht'
    have hbefore := hlive t' i (Int.le_trans ht ht')
    simp only [SessionCall.exec, hlive' t' i ht', status, httl, hbefore, eq_comm (a := i)]
    split
    · rfl
    · rfl
  | invalidate id =>
    refine ⟨httl, ?_⟩
    intro t' i ht'
    have hbefore := hlive t' i (Int.le_trans ht ht')
    simp only [SessionCall.exec, SessionStore.live_invalidate, status, hbefore, eq_comm (a := i)]
    split
    · rfl
    · rfl
  | validate id h =>
    refine ⟨(l.store.live_validate id h (Int.le_refl t) id).1.trans httl, ?_⟩
    intro t' i ht'
    have hbefore := hlive t' i (Int.le_trans ht ht')
    have hanswer := l.store.validate_answer id h t
    simp only [SessionCall.exec, (l.store.live_validate id h ht' i).2, status, Returned.succeeds_validate, httl,
      hbefore]
    rcases hv : (l.store.validate id h t).1 with _ | s
    · simp
    · simp only [Option.isSome_some, Bool.true_and, decide_eq_true_eq, eq_comm (a := id)]
      split
      · next hi =>
        subst hi
        rw [hv, hlive t i ht] at hanswer
        obtain ⟨y, hy, rfl⟩ := Option.map_eq_some_iff.1 hanswer.symm
        simp only [Option.filter_eq_some_iff] at hy
        rw [hy.1.1]
        rfl
      · rfl

theorem LogAgrees.run {issue : IssueFn} (hissue : Issues issue) {idleTtl now : Int} {es : List (Int × SessionCall)}
    {l : SessionLog} (hr : run (SessionLog.next issue) (.start idleTtl now) es = some l) : LogAgrees idleTtl l :=
  run_inv_all (LogAgrees idleTtl) (fun _ _ _ ha hn => ha.next hissue hn) (logAgrees_start idleTtl now) hr

/-! ## The sweep cannot be observed -/

/-- Two stores that agree with one log answer alike. -/
theorem exec_answer_eq {issue₁ issue₂ : IssueFn} (h₁ : Issues issue₁) (h₂ : Issues issue₂) {idleTtl : Int}
    {l₁ l₂ : SessionLog} (ha₁ : LogAgrees idleTtl l₁) (ha₂ : LogAgrees idleTtl l₂) (hcalls : l₁.calls = l₂.calls) {t : Int}
    (ht₁ : l₁.clock ≤ t) (ht₂ : l₂.clock ≤ t) (c : SessionCall) :
    (c.exec issue₁ l₁.store t).1 = (c.exec issue₂ l₂.store t).1 := by
  cases c with
  | issue id h u => simp only [SessionCall.exec, (h₁ _ _ _ _ _).1, (h₂ _ _ _ _ _).1]
  | validate id h => simp only [SessionCall.exec, ha₁.validate ht₁, ha₂.validate ht₂, hcalls]
  | invalidate id => rfl

theorem run_calls_eq {issue₁ issue₂ : IssueFn} (h₁ : Issues issue₁) (h₂ : Issues issue₂) {idleTtl : Int}
    {es : List (Int × SessionCall)} {l₁ l₁' l₂ : SessionLog} (ha₁ : LogAgrees idleTtl l₁) (ha₂ : LogAgrees idleTtl l₂)
    (hcalls : l₁.calls = l₂.calls) (hclock : l₁.clock = l₂.clock) (hr : run (SessionLog.next issue₁) l₁ es = some l₁') :
    (run (SessionLog.next issue₂) l₂ es).map (·.calls) = some l₁'.calls := by
  induction es generalizing l₁ l₂ with
  | nil =>
    cases hr
    simp [run, hcalls]
  | cons e es ih =>
    obtain ⟨t, c⟩ := e
    obtain ⟨m₁, hn₁, hr⟩ := run_cons.1 hr
    obtain ⟨ht₁, hm₁⟩ := SessionLog.next_eq hn₁
    have ht₂ : l₂.clock ≤ t := hclock ▸ ht₁
    have hn₂ : l₂.next issue₂ (t, c) =
        some ⟨(c.exec issue₂ l₂.store t).2, t, ⟨t, c, (c.exec issue₂ l₂.store t).1⟩ :: l₂.calls⟩ := if_pos ht₂
    have hanswer := exec_answer_eq h₁ h₂ ha₁ ha₂ hcalls ht₁ ht₂ c
    simp only [run, hn₂, Option.bind_some]
    refine ih (ha₁.next h₁ hn₁) (ha₂.next h₂ hn₂) ?_ ?_ hr
    · rw [hm₁, hanswer, hcalls]
    · rw [hm₁]

/-- After every history of calls at non-decreasing times, a validation finds
exactly the sessions in use under its bearer that were seen within the limit,
as they were issued; and all answers of the history are those of a store that
never sweeps. -/
theorem sessions_as_without_gc (idleTtl now : Int) {es : List (Int × SessionCall)} {l : SessionLog}
    (hr : run (SessionLog.next SessionStore.issue) (.start idleTtl now) es = some l) :
    (∀ t id h x, l.clock ≤ t → ((l.store.validate id h t).1 = some x ↔
      ∃ u issuedAt seen, InUse l.calls id h u issuedAt seen ∧ t - seen ≤ idleTtl ∧ x = ⟨id, h, u, issuedAt, t⟩)) ∧
    (run (SessionLog.next SessionStore.issueKeeping) (.start idleTtl now) es).map (·.calls) = some l.calls := by
  have ha : LogAgrees idleTtl l := .run issues_issue hr
  refine ⟨?_, run_calls_eq issues_issue issues_issueKeeping (logAgrees_start _ _) (logAgrees_start _ _) rfl rfl hr⟩
  intro t id h x ht
  simp only [ha.validate ht, Option.map_eq_some_iff, Option.filter_eq_some_iff, status_eq_some, fresh, decide_eq_true_eq]
  constructor
  · rintro ⟨y, ⟨⟨⟨rfl, huse⟩, hseen⟩, rfl⟩, rfl⟩
    exact ⟨y.userId, y.createdAt, y.lastSeen, huse, hseen, rfl⟩
  · rintro ⟨u, issuedAt, seen, huse, hseen, rfl⟩
    exact ⟨⟨id, h, u, issuedAt, seen⟩, ⟨⟨⟨rfl, huse⟩, hseen⟩, rfl⟩, rfl⟩

/-- Six minutes after the first session, the second one's issue sweeps it away;
it had been validated once, and the limit is one minute. -/
def sweptCalls : List (Int × SessionCall) :=
  [(0, .issue (lit "s1") (lit "h1") (lit "alice")), (7, .validate (lit "s1") (lit "h1")),
   (minutes 6, .issue (lit "s2") (lit "h2") (lit "bob"))]

theorem sessions_as_without_gc_swept :
    ∃ l, run (SessionLog.next SessionStore.issue) (.start (minutes 1) 0) sweptCalls = some l ∧
      l.clock ≤ minutes 6 ∧ l.store.sessions.lookup (lit "s1") = none ∧
      (∀ h x, (l.store.validate (lit "s1") h (minutes 6)).1 = some x ↔
        ∃ u issuedAt seen, InUse l.calls (lit "s1") h u issuedAt seen ∧ minutes 6 - seen ≤ minutes 1 ∧
          x = ⟨lit "s1", h, u, issuedAt, minutes 6⟩) ∧
      (run (SessionLog.next SessionStore.issueKeeping) (.start (minutes 1) 0) sweptCalls).map (·.calls) = some l.calls := by
  have hrun : (run (SessionLog.next SessionStore.issue) (.start (minutes 1) 0) sweptCalls).map
      (fun l => (l.clock, l.store.sessions.lookup (lit "s1"))) = some (minutes 6, none) := by
    decide
  obtain ⟨l, hl, hproj⟩ := Option.map_eq_some_iff.1 hrun
  simp only [Prod.mk.injEq] at hproj
  have hclock : l.clock ≤ minutes 6 := Int.le_of_eq hproj.1
  have hspec := sessions_as_without_gc (minutes 1) 0 hl
  exact ⟨l, hl, hclock, hproj.2, fun h x => hspec.1 _ _ h x hclock, hspec.2⟩

end McpBridge.Server
