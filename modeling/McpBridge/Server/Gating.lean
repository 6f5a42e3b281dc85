import McpBridge.Server.Handler
import McpBridge.Lib.Runs
/-!
# Who reaches the router

Requests come from any clients in any order, with reloads of the users in
between. `Backed` ties the session store to the history: each session was
issued under its bearer, was not invalidated since, and was last seen when the
history says. With it, what a request passed on its way to the router is a fact
about the history (`dispatch_gated`).

Nothing here needs the clock to be monotone or a UUID to be new.
-/

open McpBridge.Lib McpBridge.Core

namespace McpBridge.Server

/-! ## Sessions in the history -/

/-- The last successful use of a session issued at `issuedAt`, in the events since. -/
def lastUse (id : Str) (issuedAt : Int) : List SessionEvent → Int
  | [] => issuedAt
  | .used i t :: rest => if i = id then t else lastUse id issuedAt rest
  | _ :: rest => lastUse id issuedAt rest

/-- A session issued under the bearer, not invalidated since, and last used at `seen`. -/
def LiveSession (history : List SessionEvent) (id bearerHash : Str) (seen : Int) : Prop :=
  ∃ later earlier issuedAt, history = later ++ .issued id bearerHash issuedAt :: earlier ∧
    .invalidated id ∉ later ∧ seen = lastUse id issuedAt later

theorem LiveSession.cons {history : List SessionEvent} {id h : Str} {seen : Int} (e : SessionEvent)
    (hl : LiveSession history id h seen) (hinv : e ≠ .invalidated id) (huse : ∀ t, e ≠ .used id t) :
    LiveSession (e :: history) id h seen := by
  obtain ⟨later, earlier, t0, rfl, hnot, rfl⟩ := hl
  refine ⟨e :: later, earlier, t0, rfl, ?_, ?_⟩
  · rw [List.mem_cons, not_or]
    exact ⟨hinv.symm, hnot⟩
  · cases e with
    | used i t =>
      have hi : i ≠ id := by rintro rfl; exact huse t rfl
      rw [lastUse, if_neg hi]
    | issued i h t => rfl
    | invalidated i => rfl

theorem LiveSession.used {history : List SessionEvent} {id h : Str} {seen : Int} (t : Int)
    (hl : LiveSession history id h seen) : LiveSession (.used id t :: history) id h t := by
  obtain ⟨later, earlier, t0, rfl, hnot, rfl⟩ := hl
  refine ⟨.used id t :: later, earlier, t0, rfl, ?_, ?_⟩
  · simpa using hnot
  · rw [lastUse, if_pos rfl]

/-! ## The session store -/

theorem SessionStore.lookup_gcLocked {st : SessionStore} {now : Int} {id : Str} {x : Session}
    (h : (st.gcLocked now).sessions.lookup id = some x) : st.sessions.lookup id = some x := by
  simp only [gcLocked] at h
  split at h
  · exact h
  · rw [Map.lookup_keep, Option.filter_eq_some_iff] at h
    exact h.1

/-- A session that validates was there, not idle for longer than the limit, and for this bearer. -/
theorem SessionStore.validate_some {st st' : SessionStore} {id h : Str} {now : Int} {x : Session}
    (hv : st.validate id h now = (some x, st')) :
    ∃ y, st.sessions.lookup id = some y ∧ now - y.lastSeen ≤ st.idleTtl ∧ y.bearerHash = h ∧
      x = { y with lastSeen := now } ∧ st' = { st with sessions := st.sessions.insert id x } := by
  simp only [validate] at hv
  split at hv
  · cases hv
  next y hy =>
  split at hv
  · cases hv
  next httl =>
  split at hv
  · cases hv
  next heq =>
  cases hv
  rw [Bool.not_eq_true, Bool.not_eq_false', constantTimeEqual_iff] at heq
  exact ⟨y, hy, by omega, heq, rfl, rfl⟩

theorem SessionStore.validate_none {st st' : SessionStore} {id h : Str} {now : Int}
    (hv : st.validate id h now = (none, st')) {i : Str} {x : Session} (hl : st'.sessions.lookup i = some x) :
    st.sessions.lookup i = some x := by
  simp only [validate] at hv
  split at hv
  · cases hv; exact hl
  split at hv
  · cases hv
    exact Map.lookup_of_erase hl
  split at hv
  · cases hv; exact hl
  · cases hv

/-- Each session of the store is one of the history. -/
def Backed (s : Srv) : Prop :=
  ∀ id x, s.sessions.sessions.lookup id = some x → x.id = id ∧ LiveSession s.history id x.bearerHash x.lastSeen

namespace Backed

theorem of_eq {s s' : Srv} (hb : Backed s) (hs : s'.sessions = s.sessions) (hh : s'.history = s.history) : Backed s' := by
  intro id x hl
  rw [hs] at hl
  rw [hh]
  exact hb id x hl

theorem issue {s : Srv} (hb : Backed s) (id h user : Str) (now : Int) : Backed (s.issue id h user now) := by
  intro i x hl
  simp only [Srv.issue, SessionStore.issue, Map.lookup_insert_if] at hl ⊢
  split at hl
  · next hi =>
    cases hl
    subst hi
    exact ⟨rfl, [], _, now, rfl, by simp, rfl⟩
  · obtain ⟨hid, hlive⟩ := hb i x (SessionStore.lookup_gcLocked hl)
    exact ⟨hid, hlive.cons _ (by simp) (by simp)⟩

theorem invalidate {s : Srv} (hb : Backed s) (id : Str) : Backed (s.invalidate id) := by
  intro i x hl
  simp only [Srv.invalidate, SessionStore.invalidate, Map.lookup_erase_if] at hl ⊢
  split at hl
  · cases hl
  · next hi =>
    obtain ⟨hid, hlive⟩ := hb i x hl
    exact ⟨hid, hlive.cons _ (by simpa using Ne.symm hi) (by simp)⟩

/-- A validation keeps the store backed, and finds a live session of the history. -/
theorem validate {s s' : Srv} (hb : Backed s) {id h : Str} {now : Int} {o : Option Session}
    (hv : s.validate id h now = (o, s')) :
    Backed s' ∧ ∀ x, o = some x → x.id = id ∧ ∃ seen, LiveSession s.history id h seen ∧ now - seen ≤ s.sessions.idleTtl := by
  simp only [Srv.validate] at hv
  split at hv
  · next st hst =>
    cases hv
    exact ⟨fun i x hl => hb i x (SessionStore.validate_none hst hl), by simp⟩
  · next y st hst =>
    cases hv
    obtain ⟨z, hz, httl, rfl, rfl, rfl⟩ := SessionStore.validate_some hst
    obtain ⟨hid, hlive⟩ := hb id z hz
    refine ⟨fun i x hl => ?_, ?_⟩
    · simp only [Map.lookup_insert_if] at hl
      split at hl
      · next hi =>
        cases hl
        subst hi
        exact ⟨hid, hlive.used now⟩
      · next hi =>
        obtain ⟨hid', hlive'⟩ := hb i x hl
        exact ⟨hid', hlive'.cons _ (by simp) (by simpa using Ne.symm hi)⟩
    · rintro x ⟨⟩
      exact ⟨hid, _, hlive, httl⟩

end Backed

/-! ## Requests -/

/-- What reaches the server. `load` is a reload a tool makes; a SIGHUP is taken
by the next request. -/
inductive Event where
  | sighup
  | load (users : Map Str UserRecord)
  | post (env : Env) (req : HttpRequest)
  | get (env : Env) (req : HttpRequest)

section
variable (J : JsonText) (hash : Str → Str → Str) (router : McpRouter)

def next (s : Srv) : Event → Option Srv
  | .sighup => some { s with reloadUsers := true }
  | .load users => some { s with byHash := users }
  | .post env req => some (post J hash router env req s).srv
  | .get env req => some (get hash env req s).2

theorem handleReload_sessions (s : Srv) (disk : Disk) :
    (s.handleReload disk).2.sessions = s.sessions ∧ (s.handleReload disk).2.history = s.history := by
  simp only [Srv.handleReload]
  split
  · exact ⟨rfl, rfl⟩
  split
  · exact ⟨rfl, rfl⟩
  · exact ⟨rfl, rfl⟩

/-- Opening a session keeps the store backed. A request that gets past it is
`initialize`, or has a live session of the history. -/
theorem openSession_backed {env : Env} {hdr : Str} {ctx : RequestContext} {rpc : Request} {s s' : Srv}
    {r : Except (Nat × Json) (RequestContext × Option Str)} (hb : Backed s)
    (h : openSession env hdr ctx rpc s = (r, s')) :
    Backed s' ∧ ∀ ctx' header, r = .ok (ctx', header) →
      (∃ sid, ctx' = { ctx with sessionId := sid }) ∧ (rpc.method ≠ lit "initialize" → ctx'.sessionId = hdr ∧
        ∃ seen, LiveSession s.history hdr ctx.bearerHash seen ∧ env.now - seen ≤ s.sessions.idleTtl) := by
  simp only [openSession] at h
  split at h
  · next hm =>
    cases h
    refine ⟨Backed.issue ?_ _ _ _ _, ?_⟩
    · split
      · exact hb.invalidate _
      · exact hb
    · rintro ctx' header ⟨⟩
      exact ⟨⟨_, rfl⟩, fun hne => absurd hm hne⟩
  split at h
  · cases h
    exact ⟨hb, by simp⟩
  split at h
  · next hv =>
    cases h
    exact ⟨(hb.validate hv).1, by simp⟩
  · next x s1 hv =>
    cases h
    obtain ⟨hb1, hx⟩ := hb.validate hv
    refine ⟨hb1, ?_⟩
    rintro ctx' header ⟨⟩
    obtain ⟨hid, hlive⟩ := hx x rfl
    exact ⟨⟨_, rfl⟩, fun _ => ⟨hid, hlive⟩⟩

theorem afterDispatch_backed {rpc : Request} {ctx : RequestContext} {r : HandlerResult} {s : Srv} (hb : Backed s) :
    Backed (afterDispatch rpc ctx r s) := by
  unfold afterDispatch
  split
  · split
    · exact hb.invalidate _
    · exact hb
  · split
    · exact hb.invalidate _
    · exact hb
  · exact hb

/-- A request that reached the router was authenticated, and has a session. -/
theorem servePost_cases (env : Env) (req : HttpRequest) {s : Srv} (hb : Backed s) :
    Backed (servePost J hash router env req s).srv ∧
      ∀ ctx rpc, (servePost J hash router env req s).dispatched = some (ctx, rpc) →
        ∃ ctx0, authResolve hash req.authorization s.config.globalTokenSalt s.config.adminTokenHash s.byHash
            req.remoteAddr = some ctx0 ∧ (∃ sid, ctx = { ctx0 with sessionId := sid }) ∧
          (rpc.method ≠ lit "initialize" → ctx.sessionId = req.sessionHeader ∧
            ∃ seen, LiveSession s.history req.sessionHeader ctx0.bearerHash seen ∧ env.now - seen ≤ s.sessions.idleTtl) := by
  simp only [servePost]
  split
  · exact ⟨hb, by simp⟩
  split
  · exact ⟨hb, by simp⟩
  next ctx0 hauth =>
  have hb' : Backed { s with rateLimiter := (s.rateLimiter.allow ctx0.userId env.rateNow).2 } := hb.of_eq rfl rfl
  split
  · exact ⟨hb', by simp⟩
  split
  · exact ⟨hb', by simp⟩
  split
  · exact ⟨hb', by simp⟩
  next rpc0 hrpc =>
  split
  · next hopen => exact ⟨(openSession_backed hb' hopen).1, by simp⟩
  · next ctx1 header s1 hopen =>
    obtain ⟨hb1, hok⟩ := openSession_backed hb' hopen
    refine ⟨afterDispatch_backed hb1, ?_⟩
    rintro ctx rpc ⟨⟩
    obtain ⟨hsid, hsess⟩ := hok _ _ rfl
    exact ⟨ctx0, hauth, hsid, hsess⟩

theorem next_backed {s s' : Srv} {e : Event} (hb : Backed s) (h : next J hash router s e = some s') : Backed s' := by
  cases e with
  | sighup => cases h; exact hb.of_eq rfl rfl
  | load users => cases h; exact hb.of_eq rfl rfl
  | post env req =>
    cases h
    obtain ⟨hs, hh⟩ := handleReload_sessions s env.disk
    simp only [post]
    split
    · next hr => rw [hr] at hs hh; exact hb.of_eq hs hh
    · next s1 hr =>
      rw [hr] at hs hh
      exact (servePost_cases J hash router env req (hb.of_eq hs hh)).1
  | get env req =>
    cases h
    obtain ⟨hs, hh⟩ := handleReload_sessions s env.disk
    simp only [get]
    split
    · next hr => rw [hr] at hs hh; exact hb.of_eq hs hh
    next s1 hr =>
    rw [hr] at hs hh
    have hb1 : Backed s1 := hb.of_eq hs hh
    split
    · exact hb1
    split
    · exact hb1
    split
    · exact hb1
    split
    · next hv => exact (hb1.validate hv).1
    · next hv => exact (hb1.validate hv).1

/-! ## The users as of the last reload -/

/-- The users the last of the events loaded; `pending` says whether a SIGHUP is
still to be taken. -/
def lastLoaded : Bool → Map Str UserRecord → List Event → Map Str UserRecord
  | _, users, [] => users
  | _, users, .sighup :: es => lastLoaded true users es
  | pending, _, .load users :: es => lastLoaded pending users es
  | pending, users, .post env _ :: es | pending, users, .get env _ :: es =>
    lastLoaded false (if pending then env.disk.users.toOption.getD users else users) es

theorem handleReload_index (s : Srv) (disk : Disk) :
    (s.handleReload disk).2.byHash = (if s.reloadUsers then disk.users.toOption.getD s.byHash else s.byHash) ∧
      (s.handleReload disk).2.reloadUsers = false := by
  simp only [Srv.handleReload]
  split
  · next hf =>
    rw [Bool.not_eq_eq_eq_not, Bool.not_true] at hf
    rw [hf]
    exact ⟨rfl, rfl⟩
  · next hf =>
    rw [Bool.not_eq_true, Bool.not_eq_false'] at hf
    rw [hf, if_pos rfl]
    split
    · next hu => rw [hu]; exact ⟨rfl, rfl⟩
    · next hu => rw [hu]; exact ⟨rfl, rfl⟩

theorem validate_index (s : Srv) (id h : Str) (now : Int) :
    (s.validate id h now).2.byHash = s.byHash ∧ (s.validate id h now).2.reloadUsers = s.reloadUsers := by
  simp only [Srv.validate]
  split
  · exact ⟨rfl, rfl⟩
  · exact ⟨rfl, rfl⟩

theorem openSession_index (env : Env) (hdr : Str) (ctx : RequestContext) (rpc : Request) (s : Srv) :
    (openSession env hdr ctx rpc s).2.byHash = s.byHash ∧ (openSession env hdr ctx rpc s).2.reloadUsers = s.reloadUsers := by
  simp only [openSession]
  split
  · split
    · exact ⟨rfl, rfl⟩
    · exact ⟨rfl, rfl⟩
  split
  · exact ⟨rfl, rfl⟩
  have hv := validate_index s hdr ctx.bearerHash env.now
  split
  · next h => rw [h] at hv; exact hv
  · next h => rw [h] at hv; exact hv

theorem afterDispatch_index (rpc : Request) (ctx : RequestContext) (r : HandlerResult) (s : Srv) :
    (afterDispatch rpc ctx r s).byHash = s.byHash ∧ (afterDispatch rpc ctx r s).reloadUsers = s.reloadUsers := by
  unfold afterDispatch
  split
  · split <;> exact ⟨rfl, rfl⟩
  · split <;> exact ⟨rfl, rfl⟩
  · exact ⟨rfl, rfl⟩

/-- Only a reload changes the users. -/
theorem servePost_index (env : Env) (req : HttpRequest) (s : Srv) :
    (servePost J hash router env req s).srv.byHash = s.byHash ∧
      (servePost J hash router env req s).srv.reloadUsers = s.reloadUsers := by
  simp only [servePost]
  split
  · exact ⟨rfl, rfl⟩
  split
  · exact ⟨rfl, rfl⟩
  next ctx0 hauth =>
  split
  · exact ⟨rfl, rfl⟩
  split
  · exact ⟨rfl, rfl⟩
  split
  · exact ⟨rfl, rfl⟩
  next rpc0 hrpc =>
  have ho := openSession_index env req.sessionHeader ctx0 rpc0
    { s with rateLimiter := (s.rateLimiter.allow ctx0.userId env.rateNow).2 }
  split
  · next h => rw [h] at ho; exact ho
  · next ctx1 header s1 h =>
    rw [h] at ho
    obtain ⟨ha, hf⟩ := afterDispatch_index rpc0 ctx1 (router.dispatch rpc0.method ctx1 rpc0.params) s1
    exact ⟨ha.trans ho.1, hf.trans ho.2⟩

theorem post_index (env : Env) (req : HttpRequest) (s : Srv) :
    (post J hash router env req s).srv.byHash = (s.handleReload env.disk).2.byHash ∧
      (post J hash router env req s).srv.reloadUsers = false := by
  have hr := (handleReload_index s env.disk).2
  simp only [post]
  split
  · next h => rw [h] at hr ⊢; exact ⟨rfl, hr⟩
  · next s1 h =>
    rw [h] at hr ⊢
    obtain ⟨hp, hf⟩ := servePost_index J hash router env req s1
    exact ⟨hp, hf.trans hr⟩

theorem get_index (env : Env) (req : HttpRequest) (s : Srv) :
    (get hash env req s).2.byHash = (s.handleReload env.disk).2.byHash ∧ (get hash env req s).2.reloadUsers = false := by
  have hr := (handleReload_index s env.disk).2
  simp only [get]
  split
  · next h => rw [h] at hr ⊢; exact ⟨rfl, hr⟩
  next s1 h =>
  rw [h] at hr ⊢
  split
  · exact ⟨rfl, hr⟩
  split
  · exact ⟨rfl, hr⟩
  next ctx hauth =>
  split
  · exact ⟨rfl, hr⟩
  have hv := validate_index s1 req.sessionHeader ctx.bearerHash env.now
  split
  · next h => rw [h] at hv; exact ⟨hv.1, hv.2.trans hr⟩
  · next h => rw [h] at hv; exact ⟨hv.1, hv.2.trans hr⟩

/-- After a run, the users are those the last reload found. -/
theorem run_index {s s' : Srv} {events : List Event} (hr : run (next J hash router) s events = some s')
    (rest : List Event) : lastLoaded s.reloadUsers s.byHash (events ++ rest) = lastLoaded s'.reloadUsers s'.byHash rest := by
  induction events generalizing s with
  | nil => cases hr; rfl
  | cons e es ih =>
    obtain ⟨s1, hn, hr⟩ := run_cons.1 hr
    rw [← ih hr]
    cases e with
    | sighup => cases hn; rfl
    | load users => cases hn; rfl
    | post env req =>
      cases hn
      obtain ⟨hi, hf⟩ := post_index J hash router env req s
      rw [hi, hf, (handleReload_index s env.disk).1]
      rfl
    | get env req =>
      cases hn
      obtain ⟨hi, hf⟩ := get_index hash env req s
      rw [hi, hf, (handleReload_index s env.disk).1]
      rfl

/-! ## What a dispatched request passed -/

/-- The request carries the token of a user record, and runs as that user; or
no record has its hash, and it is the install admin's. -/
def Authenticated (s : Srv) (req : HttpRequest) (ctx : RequestContext) : Prop :=
  ∃ token, token ≠ [] ∧ req.authorization = lit "Bearer " ++ token ∧
    ctx.bearerHash = hash s.config.globalTokenSalt token ∧
    ((∃ r, s.byHash.lookup ctx.bearerHash = some r ∧
        ctx.userId = r.userId ∧ ctx.osUsername = r.osUsername ∧ ctx.isAdmin = r.isAdmin) ∨
      (s.byHash.lookup ctx.bearerHash = none ∧ s.config.adminTokenHash ≠ [] ∧
        ctx.bearerHash = s.config.adminTokenHash ∧
        ctx.userId = lit "admin" ∧ ctx.osUsername = lit "mcp_user_mcpadmin" ∧ ctx.isAdmin = true))

/-- The request names a session issued under its bearer, not invalidated since,
whose last successful use is at most the idle limit ago. -/
def InSession (s : Srv) (env : Env) (req : HttpRequest) (ctx : RequestContext) : Prop :=
  ctx.sessionId = req.sessionHeader ∧ ∃ seen, LiveSession s.history req.sessionHeader ctx.bearerHash seen ∧
    env.now - seen ≤ s.sessions.idleTtl

theorem extractBearer_some {hdr token : Str} (h : extractBearer hdr = some token) :
    token ≠ [] ∧ hdr = lit "Bearer " ++ token := by
  simp only [extractBearer] at h
  split at h
  · cases h
  split at h
  · cases h
  next hp =>
  split at h
  · cases h
  next hne =>
  cases h
  rw [Bool.not_eq_true, Bool.not_eq_false', List.isPrefixOf_iff_prefix] at hp
  obtain ⟨t, rfl⟩ := hp
  exact ⟨hne, by rw [List.drop_left]⟩

theorem authResolve_authenticated {s : Srv} {req : HttpRequest} {ctx : RequestContext}
    (h : authResolve hash req.authorization s.config.globalTokenSalt s.config.adminTokenHash s.byHash req.remoteAddr =
      some ctx) : Authenticated hash s req ctx := by
  obtain ⟨token, ht, h⟩ := Option.bind_eq_some_iff.1 h
  obtain ⟨hne, hhdr⟩ := extractBearer_some ht
  simp only at h
  split at h
  · next r hr =>
    cases h
    exact ⟨token, hne, hhdr, rfl, .inl ⟨r, hr, rfl, rfl, rfl⟩⟩
  · next hr =>
    split at h
    · next ha =>
      cases h
      exact ⟨token, hne, hhdr, rfl, .inr ⟨hr, ha.1, (constantTimeEqual_iff _ _).1 ha.2, rfl, rfl, rfl⟩⟩
    · cases h

/-- Every run of a server that starts without sessions: a POST that reaches the
router is authenticated against the users and the admin hash as they are then,
the users being those the last reload found; unless it is `initialize`, it is
in a session of its bearer. If each hash the server knows then is that of one
of the tokens `live`, the request carries one of them: a token that was rotated
away, or whose record was gone, before the last reload does not get through. -/
theorem dispatch_gated (hinj : ∀ salt, Function.Injective (hash salt)) (s0 s : Srv) (events : List Event)
    (h0 : s0.sessions.sessions = ∅) (hr : run (next J hash router) s0 events = some s) (env : Env) (req : HttpRequest)
    (ctx : RequestContext) (rpc : Request) (hd : (post J hash router env req s).dispatched = some (ctx, rpc)) :
    let now := (s.handleReload env.disk).2
    now.byHash = lastLoaded s0.reloadUsers s0.byHash (events ++ [.post env req]) ∧
      Authenticated hash now req ctx ∧ (rpc.method ≠ lit "initialize" → InSession now env req ctx) ∧
      ∀ live : List Str, (∀ h ∈ now.byHash, ∃ t ∈ live, h = hash now.config.globalTokenSalt t) →
        (now.config.adminTokenHash ≠ [] → ∃ t ∈ live, now.config.adminTokenHash = hash now.config.globalTokenSalt t) →
        ∃ t ∈ live, req.authorization = lit "Bearer " ++ t := by
  have hb : Backed s := by
    refine run_inv_all Backed (fun _ _ _ hi hn => next_backed J hash router hi hn) ?_ hr
    intro id x hl
    simp [h0] at hl
  obtain ⟨hs, hh⟩ := handleReload_sessions s env.disk
  have hidx : (s.handleReload env.disk).2.byHash = lastLoaded s0.reloadUsers s0.byHash (events ++ [.post env req]) := by
    rw [run_index J hash router hr, (handleReload_index s env.disk).1]
    rfl
  simp only [post] at hd
  split at hd
  · cases hd
  next s1 hreload =>
  rw [hreload] at hs hh hidx ⊢
  obtain ⟨ctx0, hauth, ⟨sid, rfl⟩, hsess⟩ := (servePost_cases J hash router env req (hb.of_eq hs hh)).2 ctx rpc hd
  have ha := authResolve_authenticated hash hauth
  refine ⟨hidx, ha, hsess, fun live hlive hadmin => ?_⟩
  obtain ⟨token, -, hhdr, hhash, ⟨r, hrec, -⟩ | ⟨-, hne, heq, -⟩⟩ := ha
  · obtain ⟨t, ht, hteq⟩ := hlive _ (Map.lookup_some_mem hrec)
    rw [hhash] at hteq
    exact ⟨t, ht, hinj _ hteq ▸ hhdr⟩
  · obtain ⟨t, ht, hteq⟩ := hadmin hne
    rw [← heq, hhash] at hteq
    exact ⟨t, ht, hinj _ hteq ▸ hhdr⟩

end

/-- `initialize`, then `ping` in the session it opened. -/
theorem ping_gated : ∃ s ctx rpc,
    run (next jsonText (· ++ ·) (makeDefaultRouter jsonText ∅)) exampleSrv
      [.post (exampleEnv 10) (exampleRequest "" "initialize")] = some s ∧
    (post jsonText (· ++ ·) (makeDefaultRouter jsonText ∅) (exampleEnv 20) (exampleRequest "u" "ping") s).dispatched =
      some (ctx, rpc) ∧
    rpc.method = lit "ping" ∧ InSession s (exampleEnv 20) (exampleRequest "u" "ping") ctx := by
  have h : ((run (next jsonText (· ++ ·) (makeDefaultRouter jsonText ∅)) exampleSrv
      [.post (exampleEnv 10) (exampleRequest "" "initialize")]).bind fun s =>
        (post jsonText (· ++ ·) (makeDefaultRouter jsonText ∅) (exampleEnv 20)
          (exampleRequest "u" "ping") s).dispatched.map fun p => (s.reloadUsers, p.2.method)) =
      some (false, lit "ping") := by
    decide +kernel
  obtain ⟨s, hs, h⟩ := Option.bind_eq_some_iff.1 h
  obtain ⟨⟨ctx, rpc⟩, hd, h⟩ := Option.map_eq_some_iff.1 h
  simp only [Prod.mk.injEq] at h
  have hg := dispatch_gated jsonText (· ++ ·) (makeDefaultRouter jsonText ∅) (fun _ _ _ => List.append_cancel_left)
    exampleSrv s _ rfl hs (exampleEnv 20) (exampleRequest "u" "ping") ctx rpc hd
  have hsame : (s.handleReload (exampleEnv 20).disk).2 = s := by
    simp [Srv.handleReload, h.1]
  simp only [hsame] at hg
  exact ⟨s, ctx, rpc, hs, hd, h.2, hg.2.2.1 (by rw [h.2]; decide)⟩

end McpBridge.Server
