import McpBridge.Server.Gating
/-!
# Requests and other clients' sessions

A request runs under the bearer it was authenticated with. Validation compares
bearers before it changes anything, and `shutdown` closes the session that was
validated. `initialize` closes the session its header names without looking at
its bearer: `post_untouched_iff` says that this, and a UUID that is not new, is
all that can touch the session of another bearer.
-/

open McpBridge.Lib McpBridge.Core

namespace McpBridge.Server

/-- Each session is stored under its own id. -/
def SessionStore.Keyed (st : SessionStore) : Prop :=
  ∀ id x, st.sessions.lookup id = some x → x.id = id

section
variable (J : JsonText) (hash : Str → Str → Str) (router : McpRouter)

/-- Every state a server reaches has its sessions under their ids. -/
theorem run_keyed {s s' : Srv} {es : List Event} (h0 : s.sessions.sessions = ∅)
    (hr : run (next J hash router) s es = some s') : s'.sessions.Keyed := by
  have hb : Backed s := by
    intro id x hl
    rw [h0] at hl
    cases hl
  have hb' := run_inv_all Backed (fun _ _ _ hb hn => next_backed J hash router hb hn) hb hr
  intro id x hl
  exact (hb' id x hl).1

/-! ## The operations of the store -/

/-- The session is in the store, as it was, and the idle limit is the same. -/
def Kept (st st' : SessionStore) (id : Str) (x : Session) : Prop :=
  st'.sessions.lookup id = some x ∧ st'.idleTtl = st.idleTtl

/-- The session is there with the fields it had, and validates for its bearer as before. -/
def Untouched (st st' : SessionStore) (id : Str) (x : Session) : Prop :=
  st'.sessions.lookup id = some x ∧ ∀ t, (st'.validate id x.bearerHash t).1 = (st.validate id x.bearerHash t).1

theorem Kept.untouched {st st' : SessionStore} {id : Str} {x : Session} (hk : Kept st st' id x)
    (hx : st.sessions.lookup id = some x) : Untouched st st' id x := by
  obtain ⟨hl, httl⟩ := hk
  refine ⟨hl, ?_⟩
  intro t
  unfold SessionStore.validate
  simp only [hl, hx, httl]
  split
  · rfl
  split
  · rfl
  · rfl

variable {st : SessionStore} {id : Str} {x : Session} {now : Int}

theorem kept_gcLocked (hx : st.sessions.lookup id = some x) (hidle : now - x.lastSeen ≤ st.idleTtl) :
    Kept st (st.gcLocked now) id x := by
  unfold SessionStore.gcLocked
  split
  · exact ⟨hx, rfl⟩
  · refine ⟨?_, rfl⟩
    simp only [Map.lookup_keep, hx, Option.filter_some, hidle, decide_true, if_true]

theorem kept_issue (hx : st.sessions.lookup id = some x) (hidle : now - x.lastSeen ≤ st.idleTtl) {uuid : Str}
    (hne : uuid ≠ id) (h u : Str) : Kept st (st.issue uuid h u now).2 id x := by
  obtain ⟨hl, httl⟩ := kept_gcLocked hx hidle
  refine ⟨?_, httl⟩
  simp only [SessionStore.issue, Map.lookup_insert_if, if_neg hne.symm]
  exact hl

theorem kept_invalidate (hx : st.sessions.lookup id = some x) {i : Str} (hne : i ≠ id) :
    Kept st (st.invalidate i) id x := by
  refine ⟨?_, rfl⟩
  simp only [SessionStore.invalidate, Map.lookup_erase_if, if_neg hne.symm]
  exact hx

/-- Another bearer's validation does not touch the session, and finds another one. -/
theorem kept_validate (hkeyed : st.Keyed) (hx : st.sessions.lookup id = some x) (hidle : now - x.lastSeen ≤ st.idleTtl)
    {h : Str} (hne : h ≠ x.bearerHash) (i : Str) :
    Kept st (st.validate i h now).2 id x ∧ ∀ y, (st.validate i h now).1 = some y → y.id ≠ id := by
  by_cases hi : i = id
  · subst hi
    have hc : constantTimeEqual x.bearerHash h = false := by
      rw [Bool.eq_false_iff, Ne, constantTimeEqual_iff]
      exact hne.symm
    have hidle' : ¬ st.idleTtl < now - x.lastSeen := by omega
    have hv : st.validate i h now = (none, st) := by simp [SessionStore.validate, hx, hidle', hc]
    rw [hv]
    exact ⟨⟨hx, rfl⟩, by simp⟩
  · rcases hv : st.validate i h now with ⟨_ | y, st'⟩
    · refine ⟨?_, by simp⟩
      unfold SessionStore.validate at hv
      split at hv
      · cases hv; exact ⟨hx, rfl⟩
      split at hv
      · cases hv; exact kept_invalidate hx hi
      split at hv
      · cases hv; exact ⟨hx, rfl⟩
      · cases hv
    · obtain ⟨z, hz, -, -, rfl, rfl⟩ := SessionStore.validate_some hv
      have hzi : z.id = i := hkeyed i z hz
      refine ⟨⟨?_, rfl⟩, ?_⟩
      · simp only [Map.lookup_insert_if, if_neg (Ne.symm hi)]
        exact hx
      · rintro y ⟨⟩
        exact hzi ▸ hi

/-! ## Requests -/

/-- The request is an `initialize` that the checks before its session let through. -/
def Initializes (env : Env) (req : HttpRequest) (s : Srv) : Prop :=
  isIpAllowed req.remoteAddr s.config.allowedIps = true ∧
  ∃ ctx body rpc, authResolve hash req.authorization s.config.globalTokenSalt s.config.adminTokenHash s.byHash
      req.remoteAddr = some ctx ∧
    (s.rateLimiter.allow ctx.userId env.rateNow).1 = true ∧ J.parse req.body = some body ∧
    parseRequest body = .ok rpc ∧ rpc.method = lit "initialize"

/-- The header names the session, or the UUID of the new session is taken. -/
def Names (env : Env) (req : HttpRequest) (id : Str) : Prop :=
  (req.sessionHeader = id ∧ id ≠ []) ∨ env.uuid = id

section
variable {env : Env} {ctx : RequestContext} {rpc : Request} {s : Srv}

theorem openSession_kept (hkeyed : s.sessions.Keyed) (hx : s.sessions.sessions.lookup id = some x)
    (hidle : env.now - x.lastSeen ≤ s.sessions.idleTtl) (hne : ctx.bearerHash ≠ x.bearerHash)
    (hm : rpc.method ≠ lit "initialize") (hdr : Str) :
    Kept s.sessions (openSession env hdr ctx rpc s).2.sessions id x ∧
      ∀ ctx' header, (openSession env hdr ctx rpc s).1 = .ok (ctx', header) → ctx'.sessionId ≠ id := by
  unfold openSession
  rw [if_neg hm]
  split
  · exact ⟨⟨hx, rfl⟩, by simp⟩
  · obtain ⟨hkept, hother⟩ := kept_validate hkeyed hx hidle hne hdr
    unfold Srv.validate
    rcases hv : s.sessions.validate hdr ctx.bearerHash env.now with ⟨_ | y, st'⟩
    · rw [hv] at hkept
      exact ⟨hkept, by simp⟩
    · rw [hv] at hkept hother
      refine ⟨hkept, ?_⟩
      rintro ctx' header ⟨⟩
      exact hother y rfl

theorem openSession_of_initializes (req : HttpRequest) (hx : s.sessions.sessions.lookup id = some x)
    (hidle : env.now - x.lastSeen ≤ s.sessions.idleTtl) (hne : ctx.bearerHash ≠ x.bearerHash)
    (hm : rpc.method = lit "initialize") :
    (¬ Names env req id → Kept s.sessions (openSession env req.sessionHeader ctx rpc s).2.sessions id x) ∧
    (Names env req id → (openSession env req.sessionHeader ctx rpc s).2.sessions.sessions.lookup id ≠ some x) := by
  unfold openSession
  rw [if_pos hm]
  constructor
  · intro hnames
    have huuid : env.uuid ≠ id := fun he => hnames (.inr he)
    have hclosed : Kept s.sessions (if req.sessionHeader ≠ [] then s.invalidate req.sessionHeader else s).sessions id x := by
      split
      · next hhdr =>
        apply kept_invalidate hx
        rintro rfl
        exact hnames (.inl ⟨rfl, hhdr⟩)
      · exact ⟨hx, rfl⟩
    obtain ⟨hl, httl⟩ := hclosed
    obtain ⟨hl', httl'⟩ := kept_issue hl (httl ▸ hidle) huuid ctx.bearerHash ctx.userId
    exact ⟨hl', httl'.trans httl⟩
  · intro hnames
    simp only [Srv.issue, SessionStore.issue, Map.lookup_insert_if]
    split
    · next huuid =>
      -- The new session is for the request's own bearer.
      intro he
      apply hne
      cases he
      rfl
    · next huuid =>
      obtain ⟨rfl, hid⟩ : req.sessionHeader = id ∧ id ≠ [] := hnames.resolve_right (Ne.symm huuid)
      intro he
      have hgone := SessionStore.lookup_gcLocked he
      rw [if_pos hid] at hgone
      simp [Srv.invalidate, SessionStore.invalidate] at hgone

theorem afterDispatch_kept {r : HandlerResult} {st : SessionStore} (hk : Kept st s.sessions id x) (hid : ctx.sessionId ≠ id) :
    Kept st (afterDispatch rpc ctx r s).sessions id x := by
  have hclosed : Kept st (if rpc.method = lit "shutdown" then s.invalidate ctx.sessionId else s).sessions id x := by
    split
    · obtain ⟨hl, httl⟩ := kept_invalidate hk.1 hid
      exact ⟨hl, httl.trans hk.2⟩
    · exact hk
  unfold afterDispatch
  split
  · exact hclosed
  · exact hclosed
  · exact hk

theorem afterDispatch_of_initializes {r : HandlerResult} (hm : rpc.method = lit "initialize") :
    afterDispatch rpc ctx r s = s := by
  have hne : rpc.method ≠ lit "shutdown" := by rw [hm]; decide
  unfold afterDispatch
  simp only [if_neg hne]
  split
  · rfl
  · rfl
  · rfl

theorem servePost_kept_iff {req : HttpRequest} (hkeyed : s.sessions.Keyed) (hx : s.sessions.sessions.lookup id = some x)
    (hidle : env.now - x.lastSeen ≤ s.sessions.idleTtl)
    (hauth : authResolve hash req.authorization s.config.globalTokenSalt s.config.adminTokenHash s.byHash
      req.remoteAddr = some ctx) (hne : ctx.bearerHash ≠ x.bearerHash) :
    (¬ (Initializes J hash env req s ∧ Names env req id) →
      Kept s.sessions (servePost J hash router env req s).srv.sessions id x) ∧
    (Initializes J hash env req s ∧ Names env req id →
      (servePost J hash router env req s).srv.sessions.sessions.lookup id ≠ some x) := by
  have hsame : Kept s.sessions s.sessions id x := ⟨hx, rfl⟩
  have hno : ¬ Initializes J hash env req s → ∀ {P : Prop}, Initializes J hash env req s ∧ Names env req id → P :=
    fun hn _ hi => absurd hi.1 hn
  simp only [servePost, hauth]
  split
  · next hip => exact ⟨fun _ => hsame, hno (by rintro ⟨hok, -⟩; simp [hok] at hip)⟩
  next hip =>
  have hip' : isIpAllowed req.remoteAddr s.config.allowedIps = true := by simpa using hip
  split
  · next hrate =>
    refine ⟨fun _ => hsame, hno ?_⟩
    rintro ⟨-, ctx', _, _, hauth', hrate', -⟩
    cases hauth.symm.trans hauth'
    simp [hrate'] at hrate
  next hrate =>
  have hrate' : (s.rateLimiter.allow ctx.userId env.rateNow).1 = true := by simpa using hrate
  split
  · next hbody =>
    refine ⟨fun _ => hsame, hno ?_⟩
    rintro ⟨-, _, body, _, -, -, hbody', -⟩
    cases hbody.symm.trans hbody'
  next body hbody =>
  split
  · next hrpc =>
    refine ⟨fun _ => hsame, hno ?_⟩
    rintro ⟨-, _, body', rpc', -, -, hbody', hrpc', -⟩
    cases hbody.symm.trans hbody'
    cases hrpc.symm.trans hrpc'
  next rpc hrpc =>
  by_cases hm : rpc.method = lit "initialize"
  · have hinit : Initializes J hash env req s := ⟨hip', ctx, body, rpc, hauth, hrate', hbody, hrpc, hm⟩
    obtain ⟨hkept, hlost⟩ := openSession_of_initializes req
      (s := { s with rateLimiter := (s.rateLimiter.allow ctx.userId env.rateNow).2 }) hx hidle hne hm
    split
    · next hopen =>
      rw [hopen] at hkept hlost
      exact ⟨fun hn => hkept fun hnames => hn ⟨hinit, hnames⟩, fun hi => hlost hi.2⟩
    · next hopen =>
      rw [hopen] at hkept hlost
      simp only [afterDispatch_of_initializes hm]
      exact ⟨fun hn => hkept fun hnames => hn ⟨hinit, hnames⟩, fun hi => hlost hi.2⟩
  · obtain ⟨hkept, hother⟩ := openSession_kept
      (s := { s with rateLimiter := (s.rateLimiter.allow ctx.userId env.rateNow).2 }) hkeyed hx hidle hne hm
      req.sessionHeader
    have hnot : ¬ Initializes J hash env req s := by
      rintro ⟨-, _, body', rpc', -, -, hbody', hrpc', hm'⟩
      cases hbody.symm.trans hbody'
      cases hrpc.symm.trans hrpc'
      exact hm hm'
    refine ⟨fun _ => ?_, hno hnot⟩
    split
    · next hopen =>
      rw [hopen] at hkept
      exact hkept
    · next hopen =>
      rw [hopen] at hkept hother
      exact afterDispatch_kept hkept (hother _ _ rfl)

end

/-- A request under another bearer leaves a session that has not idled out
alone, unless it is an `initialize` that names it. -/
theorem post_untouched_iff {s : Srv} (hkeyed : s.sessions.Keyed) {id : Str} {x : Session}
    (hx : s.sessions.sessions.lookup id = some x) (env : Env) (hidle : env.now - x.lastSeen ≤ s.sessions.idleTtl)
    (req : HttpRequest) {ctx : RequestContext} {s₁ : Srv} (hs₁ : s₁ = (s.handleReload env.disk).2)
    (hauth : authResolve hash req.authorization s₁.config.globalTokenSalt s₁.config.adminTokenHash s₁.byHash
      req.remoteAddr = some ctx) (hne : ctx.bearerHash ≠ x.bearerHash) :
    (Untouched s.sessions (post J hash router env req s).srv.sessions id x ↔
      ¬ ((∃ u, (s.handleReload env.disk).1 = .ok u) ∧ Initializes J hash env req s₁ ∧ Names env req id)) ∧
    Untouched s.sessions (get hash env req s).2.sessions id x := by
  have hreload := (handleReload_sessions s env.disk).1
  unfold post get
  rcases hr : s.handleReload env.disk with ⟨what | u, s₂⟩
  · rw [hr] at hreload
    have hkept : Untouched s.sessions s₂.sessions id x := Kept.untouched ⟨hreload ▸ hx, by rw [hreload]⟩ hx
    exact ⟨⟨fun _ => by simp, fun _ => hkept⟩, hkept⟩
  · rw [hr] at hs₁ hreload
    subst hs₁
    rw [← hreload] at hkeyed hx hidle ⊢
    have hsame : Untouched s₁.sessions s₁.sessions id x := Kept.untouched ⟨hx, rfl⟩ hx
    constructor
    · obtain ⟨hkept, hlost⟩ := servePost_kept_iff J hash router hkeyed hx hidle hauth hne
      constructor
      · rintro hun ⟨-, hi⟩
        exact hlost hi hun.1
      · intro hn
        exact (hkept fun hi => hn ⟨⟨u, rfl⟩, hi⟩).untouched hx
    · simp only [hauth]
      split
      · exact hsame
      split
      · exact hsame
      · obtain ⟨hkept, -⟩ := kept_validate hkeyed hx hidle hne req.sessionHeader
        unfold Srv.validate
        rcases hv : s₁.sessions.validate req.sessionHeader ctx.bearerHash env.now with ⟨_ | y, st'⟩
        · rw [hv] at hkept
          exact hkept.untouched hx
        · rw [hv] at hkept
          exact hkept.untouched hx

end

/-! ## Two clients -/

/-- Alice has opened the session `u`; Bob, whose token is `w`, has none. -/
def twoClients : Srv :=
  { exampleOpened with
    byHash := exampleOpened.byHash.insert (lit "saltw") ⟨lit "bcdefghi", lit "mcp_user_bcdefghi", [], [], false, lit "saltw", 0⟩ }

def alicesSession : Session := ⟨lit "u", lit "saltt", lit "abcdefgh", 10, 10⟩

/-- What Bob's requests meet. -/
def bobsEnv : Env := { exampleEnv 20 with uuid := lit "v" }

/-- Bob's request under Alice's session id. -/
def bobsRequest (method : String) : HttpRequest := { exampleRequest "u" method with authorization := lit "Bearer w" }

def bobsContext : RequestContext :=
  { userId := lit "bcdefghi", osUsername := lit "mcp_user_bcdefghi", isAdmin := false, bearerHash := lit "saltw",
    clientIp := lit "127.0.0.1" }

theorem twoClients_lookup : twoClients.sessions.sessions.lookup (lit "u") = some alicesSession := by decide +kernel

theorem twoClients_keyed : twoClients.sessions.Keyed := by
  have hrun : run (next jsonText (· ++ ·) (makeDefaultRouter jsonText ∅)) exampleSrv
      [.post (exampleEnv 10) (exampleRequest "" "initialize")] = some exampleOpened := rfl
  have hkeyed : exampleOpened.sessions.Keyed := run_keyed jsonText (· ++ ·) (makeDefaultRouter jsonText ∅) rfl hrun
  exact hkeyed

theorem bob_resolves (method : String) :
    authResolve (· ++ ·) (bobsRequest method).authorization twoClients.config.globalTokenSalt
      twoClients.config.adminTokenHash twoClients.byHash (bobsRequest method).remoteAddr = some bobsContext := by
  simp only [bobsRequest, exampleRequest]
  decide +kernel

/-- An ordinary method under Alice's session id is answered 401, and her session stays. -/
theorem post_untouched_iff_tools_list :
    Untouched twoClients.sessions (post jsonText (· ++ ·) (makeDefaultRouter jsonText ∅) bobsEnv (bobsRequest "tools/list")
      twoClients).srv.sessions (lit "u") alicesSession ∧
    Untouched twoClients.sessions (get (· ++ ·) bobsEnv (bobsRequest "tools/list") twoClients).2.sessions (lit "u")
      alicesSession := by
  obtain ⟨hpost, hget⟩ := post_untouched_iff jsonText (· ++ ·) (makeDefaultRouter jsonText ∅) twoClients_keyed
    twoClients_lookup bobsEnv (by decide) (bobsRequest "tools/list") rfl (bob_resolves _) (by decide)
  refine ⟨hpost.2 ?_, hget⟩
  rintro ⟨-, ⟨-, ctx, body, rpc, -, -, hbody, hrpc, hm⟩, -⟩
  have hparsed : ((jsonText.parse (bobsRequest "tools/list").body).bind fun b =>
      (parseRequest b).toOption.map (·.method)) = some (lit "tools/list") := by decide +kernel
  rw [hbody, Option.bind_some, hrpc] at hparsed
  simp only [Except.toOption, Option.map_some, Option.some.injEq, hm] at hparsed
  exact absurd hparsed (by decide)

/-- Bob's `initialize` with Alice's session id in the header closes her session. -/
theorem initialize_closes_other_session :
    twoClients.sessions.Keyed ∧ twoClients.sessions.sessions.lookup (lit "u") = some alicesSession ∧
    bobsEnv.now - alicesSession.lastSeen ≤ twoClients.sessions.idleTtl ∧
    authResolve (· ++ ·) (bobsRequest "initialize").authorization twoClients.config.globalTokenSalt
      twoClients.config.adminTokenHash twoClients.byHash (bobsRequest "initialize").remoteAddr = some bobsContext ∧
    bobsContext.bearerHash ≠ alicesSession.bearerHash ∧
    ¬ Untouched twoClients.sessions (post jsonText (· ++ ·) (makeDefaultRouter jsonText ∅) bobsEnv (bobsRequest "initialize")
      twoClients).srv.sessions (lit "u") alicesSession := by
  refine ⟨twoClients_keyed, twoClients_lookup, by decide, bob_resolves _, by decide, ?_⟩
  rintro ⟨hl, -⟩
  have hgone : (post jsonText (· ++ ·) (makeDefaultRouter jsonText ∅) bobsEnv (bobsRequest "initialize")
      twoClients).srv.sessions.sessions.lookup (lit "u") = none := by decide +kernel
  cases hgone.symm.trans hl

end McpBridge.Server
