import McpBridge.Core.Common
import McpBridge.Grants.Template
import McpBridge.Lib.Runs
/-!
# The grant manager (`core/grants.cpp`)

`World` is the manager's memory together with the files it works on: the state
file, the spec files for the helper, and the drop-ins in the sudoers directory.
A call takes the outcomes of its system and helper calls as an argument, and
returns what the caller sees with the world afterwards. The helper is the
environment: it exits 0 from `install-grant` iff the drop-in is there, and from
`revoke-grant` iff it is gone.

`Tracked` is what makes grants expire: a drop-in whose id is not in `grants` is
one no sweep will ever revoke.
-/

open McpBridge.Lib McpBridge.Core

namespace McpBridge.Grants

structure Grant where
  grantid : Str
  shortid : Str
  templateName : Str
  capturedArgs : Json
  expiresAt : Int64

structure Config where
  stateDir : Str
  templates : List GrantTemplate
  pid : Nat

/-- A file in the sudoers directory. `expiresAt` is that of the grant it was
installed for; the file itself does not carry it. -/
structure DropIn where
  spec : Str
  expiresAt : Int64
deriving DecidableEq

structure AuditEvent where
  event : Str
  grantid : Str
  userId : Str
  clientIp : Str
  detail : Str

structure World where
  grants : Map Str Grant
  grantsJson : Option Str
  specFiles : Map Str Str
  dropIns : Map Str DropIn
  audit : List AuditEvent
  warnings : List Str

/-- Which calls of `atomicWrite` succeed. `message` is the text of the last error code. -/
structure WriteOutcome where
  opened : Bool := true
  written : Bool := true
  renamed : Bool := true
  removed : Bool := true
  renamedAgain : Bool := true
  message : Str := []

/-- The exit code of the helper, or -1 where it did not run, and its stderr. -/
structure HelperOutcome where
  rc : Int := 0
  err : Str := []

def makeGrantid (buf : Vector UInt8 8) : Str := hexId buf

def validGrantid (s : Str) : Bool := isHexId s

/-- Replaces the file at `path`, by way of a temporary file. -/
def atomicWrite (pid : Nat) (path data : Str) (o : WriteOutcome) (file : Option Str) : Except Str Unit × Option Str :=
  if !o.opened then (.error (lit "open " ++ tmpOf pid path), file)
  else if !o.written then (.error (lit "write " ++ tmpOf pid path), file)
  else if o.renamed then (.ok (), some data)
  else
    let file := if o.removed then none else file
    if o.renamedAgain then (.ok (), some data)
    else (.error (lit "rename to " ++ path ++ lit ": " ++ o.message), file)

def World.logAudit (w : World) (event : Str) (ctx : RequestContext) (grantid detail : Str) : World :=
  { w with audit := w.audit ++ [⟨event, grantid, ctx.userId, ctx.clientIp, detail⟩] }

def World.warn (w : World) (msg : Str) : World := { w with warnings := w.warnings ++ [msg] }

/-- One entry of `grants.json`. -/
def Grant.toJson (g : Grant) : Json :=
  .ofFields [(lit "grantid", .str g.grantid), (lit "shortid", .str g.shortid),
    (lit "template_name", .str g.templateName), (lit "captured_args", g.capturedArgs), (lit "expires_at", .int g.expiresAt.toInt)]

section Manager
variable (J : JsonText) (regexMatch : Str → Str → RegexResult) (cfg : Config)

def persistStateLocked (o : WriteOutcome) (w : World) : Except Str Unit × World :=
  match J.dump (some 2) (.arr (w.grants.values.map Grant.toJson)) with
  | .error e => (.error e.what, w)
  | .ok text =>
    let (r, file) := atomicWrite cfg.pid (cfg.stateDir ++ lit "/grants.json") (text ++ lit "\n") o w.grantsJson
    (r, { w with grantsJson := file })

/-- Writes the spec file and runs `install-grant`. -/
def installGrantViaHelper (g : Grant) (spec : Str) (o : WriteOutcome) (h : HelperOutcome) (w : World) :
    Int × Str × World :=
  let path := cfg.stateDir ++ lit "/grant_" ++ g.grantid ++ lit ".spec"
  match atomicWrite cfg.pid path spec o (w.specFiles.lookup g.grantid) with
  | (.error e, file) =>
    let specFiles := match file with
      | some t => w.specFiles.insert g.grantid t
      | none => w.specFiles.erase g.grantid
    (-1, e, { w with specFiles })
  | (.ok (), _) =>
    if h.rc ≠ 0 then (h.rc, h.err, { w with specFiles := w.specFiles.insert g.grantid spec })
    else (0, h.err, { w with
      specFiles := w.specFiles.erase g.grantid
      dropIns := w.dropIns.insert g.grantid ⟨spec, g.expiresAt⟩ })

/-- Runs `revoke-grant`. -/
def revokeGrantViaHelper (grantid : Str) (h : HelperOutcome) (w : World) : Int × Str × World :=
  if h.rc = 0 then (h.rc, h.err, { w with dropIns := w.dropIns.erase grantid })
  else (h.rc, h.err, w)

/-- The sudoers line of a request, past the shape check. -/
def renderSpec (shortid templateName : Str) (capturedArgs : Json) : Except Str Str := do
  let spec ←
    if templateName = kFullAdminTemplate then renderFullAdminSpec shortid
    else match cfg.templates.find? (·.name = templateName) with
      | none => .error (lit "grants: unknown template '" ++ templateName ++ lit "'")
      | some tmpl => renderSudoersSpec regexMatch shortid tmpl capturedArgs
  if specIsWellFormed spec then .ok spec
  else .error (lit "grants: rendered spec failed shape check")

/-- The random bytes, the clock and the outcomes of one `requestGrant`. -/
structure RequestOutcome where
  buf : Vector UInt8 8
  now : Int64
  persist : WriteOutcome := {}
  specWrite : WriteOutcome := {}
  helper : HelperOutcome := {}
  rollback : WriteOutcome := {}

/-- The locked part of a request: the entry is added and the state file written, or neither. -/
def registerGrant (g : Grant) (o : WriteOutcome) (w : World) : Except Str Unit × World :=
  match persistStateLocked J cfg o { w with grants := w.grants.insert g.grantid g } with
  | (.error e, w) => (.error e, { w with grants := w.grants.erase g.grantid })
  | (.ok (), w) => (.ok (), w)

/-- Takes back a grant whose installation failed. -/
def rollBackGrant (g : Grant) (o : WriteOutcome) (w : World) : World :=
  (persistStateLocked J cfg o { w with grants := w.grants.erase g.grantid }).2

/-- Registers the grant, installs it, and takes it back where that fails. -/
def requestGrant (ctx : RequestContext) (shortid templateName : Str) (capturedArgs : Json) (ttl : Int)
    (o : RequestOutcome) (w : World) : Except Str Grant × World :=
  if ttl < 1 ∨ 86400 < ttl then (.error (lit "grants: ttl must be between 1 and 86400 seconds"), w)
  else
    let g : Grant := ⟨makeGrantid o.buf, shortid, templateName, capturedArgs, o.now + .ofInt ttl⟩
    match renderSpec regexMatch cfg shortid templateName capturedArgs with
    | .error e => (.error e, w)
    | .ok spec =>
      match registerGrant J cfg g o.persist w with
      | (.error e, w) => (.error e, w)
      | (.ok (), w) =>
        match installGrantViaHelper cfg g spec o.specWrite o.helper w with
        | (rc, err, w) =>
          if rc ≠ 0 then
            (.error (lit "grants: helper failed (rc=" ++ writeInt rc ++ lit "): " ++ err),
              (rollBackGrant J cfg g o.rollback w).logAudit (lit "grant_failed") ctx g.grantid
                (lit "template=" ++ templateName ++ lit " rc=" ++ writeInt rc ++ lit " err=" ++ err))
          else
            (.ok g, w.logAudit (lit "grant_issued") ctx g.grantid
              (lit "template=" ++ templateName ++ lit " shortid=" ++ shortid ++ lit " ttl=" ++ writeInt ttl))

structure RevokeOutcome where
  helper : HelperOutcome := {}
  persist : WriteOutcome := {}

/-- The second half of a revocation: the entry is erased and the state file written. -/
def eraseGrant (grantid : Str) (rc : Int) (o : WriteOutcome) (w : World) : Except Str Unit × World :=
  let sys : RequestContext := { userId := lit "daemon" }
  if (w.grants.lookup grantid).isSome then
    match persistStateLocked J cfg o { w with grants := w.grants.erase grantid } with
    | (.error e, w) => (.error e, w)
    | (.ok (), w) => (.ok (), w.logAudit (lit "grant_revoked") sys grantid (lit "rc=" ++ writeInt rc))
  else (.ok (), w.logAudit (lit "grant_revoke_orphan") sys grantid (lit "rc=" ++ writeInt rc))

/-- Removes the drop-in by way of the helper, then the entry. The test on `rc`
only decides whether a warning is logged. -/
def revokeGrant (grantid : Str) (o : RevokeOutcome) (w : World) : Except Str Unit × World :=
  if !validGrantid grantid then (.error (lit "grants: invalid grantid"), w)
  else
    match revokeGrantViaHelper grantid o.helper w with
    | (rc, err, w) =>
      if rc ≠ 0 ∧ rc ≠ 0 then
        eraseGrant J cfg grantid rc o.persist
          (w.warn (lit "grants: helper revoke rc=" ++ writeInt rc ++ lit " err=" ++ err))
      else eraseGrant J cfg grantid rc o.persist w

/-- The loop of `sweepExpired`: a failing revocation is logged and skipped. -/
def revokeAll (o : Str → RevokeOutcome) : List Str → World → World
  | [], w => w
  | id :: ids, w =>
    match revokeGrant J cfg id (o id) w with
    | (.ok (), w) => revokeAll o ids w
    | (.error e, w) => revokeAll o ids (w.warn (lit "grants: sweep revoke " ++ id ++ lit " failed: " ++ e))

/-- The ids whose grant has expired. -/
def expiredIds (now : Int64) (w : World) : List Str :=
  (w.grants.entries.filter fun e => e.2.expiresAt ≤ now).map (·.1)

/-- Revokes every expired grant. Each id is revoked once, so the outcomes are given by id. -/
def sweepExpired (now : Int64) (o : Str → RevokeOutcome) (w : World) : World :=
  revokeAll J cfg o (expiredIds now w) w

/-! ## What the calls do to the grants and the drop-ins -/

theorem persistStateLocked_effect {o : WriteOutcome} {w w' : World} {r : Except Str Unit}
    (h : persistStateLocked J cfg o w = (r, w')) : w'.grants = w.grants ∧ w'.dropIns = w.dropIns := by
  simp only [persistStateLocked] at h
  split at h
  · cases h; exact ⟨rfl, rfl⟩
  · cases h; exact ⟨rfl, rfl⟩

theorem registerGrant_effect {g : Grant} {o : WriteOutcome} {w w' : World} {r : Except Str Unit}
    (hf : g.grantid ∉ w.grants) (h : registerGrant J cfg g o w = (r, w')) :
    w'.dropIns = w.dropIns ∧ (r = .ok () ∧ w'.grants = w.grants.insert g.grantid g ∨
      (∃ e, r = .error e) ∧ w'.grants = w.grants) := by
  simp only [registerGrant] at h
  split at h
  · next hp =>
    obtain ⟨hg, hd⟩ := persistStateLocked_effect J cfg hp
    cases h
    exact ⟨hd, .inr ⟨⟨_, rfl⟩, by simp only [hg, Map.erase_insert_of_notMem hf]⟩⟩
  · next hp =>
    obtain ⟨hg, hd⟩ := persistStateLocked_effect J cfg hp
    cases h
    exact ⟨hd, .inl ⟨rfl, hg⟩⟩

theorem installGrantViaHelper_effect {g : Grant} {spec : Str} {o : WriteOutcome} {h : HelperOutcome} {w w' : World}
    {rc : Int} {err : Str} (hi : installGrantViaHelper cfg g spec o h w = (rc, err, w')) :
    w'.grants = w.grants ∧
      w'.dropIns = if rc = 0 then w.dropIns.insert g.grantid ⟨spec, g.expiresAt⟩ else w.dropIns := by
  simp only [installGrantViaHelper] at hi
  split at hi
  · cases hi; exact ⟨rfl, rfl⟩
  · split at hi
    · next hrc => cases hi; exact ⟨rfl, (if_neg hrc).symm⟩
    · cases hi; exact ⟨rfl, rfl⟩

theorem rollBackGrant_effect (g : Grant) (o : WriteOutcome) (w : World) :
    (rollBackGrant J cfg g o w).grants = w.grants.erase g.grantid ∧ (rollBackGrant J cfg g o w).dropIns = w.dropIns :=
  persistStateLocked_effect J cfg (w := { w with grants := w.grants.erase g.grantid }) rfl

/-- A request with a fresh id either changes neither the grants nor the
drop-ins, or adds the grant to both. -/
theorem requestGrant_effect {ctx : RequestContext} {shortid templateName : Str} {capturedArgs : Json} {ttl : Int}
    {o : RequestOutcome} {w w' : World} {r : Except Str Grant} (hf : makeGrantid o.buf ∉ w.grants)
    (h : requestGrant J regexMatch cfg ctx shortid templateName capturedArgs ttl o w = (r, w')) :
    ((∃ e, r = .error e) ∧ w'.grants = w.grants ∧ w'.dropIns = w.dropIns) ∨
    ∃ g spec, r = .ok g ∧ g = ⟨makeGrantid o.buf, shortid, templateName, capturedArgs, o.now + .ofInt ttl⟩ ∧
      renderSpec regexMatch cfg shortid templateName capturedArgs = .ok spec ∧
      w'.grants = w.grants.insert g.grantid g ∧ w'.dropIns = w.dropIns.insert g.grantid ⟨spec, g.expiresAt⟩ := by
  simp only [requestGrant] at h
  split at h
  · cases h; exact .inl ⟨⟨_, rfl⟩, rfl, rfl⟩
  split at h
  · cases h; exact .inl ⟨⟨_, rfl⟩, rfl, rfl⟩
  next spec hspec =>
  split at h
  · next w1 hp =>
    obtain ⟨hd, ⟨hr, -⟩ | ⟨-, hg⟩⟩ := registerGrant_effect J cfg hf hp
    · cases hr
    · cases h; exact .inl ⟨⟨_, rfl⟩, hg, hd⟩
  next w1 hp =>
  obtain ⟨hd, ⟨-, hg⟩ | ⟨⟨e, hr⟩, -⟩⟩ := registerGrant_effect J cfg hf hp
  swap
  · cases hr
  rcases hi : installGrantViaHelper cfg ⟨makeGrantid o.buf, shortid, templateName, capturedArgs, o.now + .ofInt ttl⟩
    spec o.specWrite o.helper w1 with ⟨rc, err, w2⟩
  simp only [hi] at h
  obtain ⟨ig, id⟩ := installGrantViaHelper_effect cfg hi
  split at h
  · next hrc =>
    -- The helper failed: the entry just added is erased again.
    obtain ⟨rg, rd⟩ := rollBackGrant_effect J cfg
      ⟨makeGrantid o.buf, shortid, templateName, capturedArgs, o.now + .ofInt ttl⟩ o.rollback w2
    cases h
    refine .inl ⟨⟨_, rfl⟩, ?_, ?_⟩
    · simp only [World.logAudit, rg, ig, hg, Map.erase_insert_of_notMem hf]
    · simp only [World.logAudit, rd, id, hrc, if_false, hd]
  · next hrc =>
    cases h
    rw [not_not] at hrc
    exact .inr ⟨_, spec, rfl, rfl, hspec, by simp only [World.logAudit, ig, hg],
      by simp only [World.logAudit, id, hrc, if_true, hd]⟩

theorem revokeGrantViaHelper_effect {grantid : Str} {h : HelperOutcome} {w w' : World} {rc : Int} {err : Str}
    (hr : revokeGrantViaHelper grantid h w = (rc, err, w')) :
    w'.grants = w.grants ∧ w'.dropIns = if h.rc = 0 then w.dropIns.erase grantid else w.dropIns := by
  simp only [revokeGrantViaHelper] at hr
  split at hr
  · next h0 => cases hr; exact ⟨rfl, (if_pos h0).symm⟩
  · next h0 => cases hr; exact ⟨rfl, (if_neg h0).symm⟩

theorem eraseGrant_effect (grantid : Str) (rc : Int) (o : WriteOutcome) (w : World) :
    (eraseGrant J cfg grantid rc o w).2.grants = w.grants.erase grantid ∧
      (eraseGrant J cfg grantid rc o w).2.dropIns = w.dropIns := by
  simp only [eraseGrant]
  split
  · split
    · next hp => exact persistStateLocked_effect J cfg hp
    · next hp => exact persistStateLocked_effect J cfg hp
  · next hn =>
    have hm : grantid ∉ w.grants := by rwa [← AList.lookup_isSome]
    exact ⟨(Map.erase_of_notMem hm).symm, rfl⟩

/-- What revoking `ids` leaves: a valid id loses its entry in any case, and its
drop-in where the helper exits 0. -/
def Revoked (o : Str → RevokeOutcome) (ids : List Str) (w w' : World) : Prop :=
  ∀ id, w'.grants.lookup id = (if id ∈ ids ∧ validGrantid id = true then none else w.grants.lookup id) ∧
    w'.dropIns.lookup id =
      if id ∈ ids ∧ validGrantid id = true ∧ (o id).helper.rc = 0 then none else w.dropIns.lookup id

theorem revokeGrant_effect (grantid : Str) (o : RevokeOutcome) (w : World) :
    (revokeGrant J cfg grantid o w).2.grants = (if validGrantid grantid then w.grants.erase grantid else w.grants) ∧
    (revokeGrant J cfg grantid o w).2.dropIns =
      if validGrantid grantid ∧ o.helper.rc = 0 then w.dropIns.erase grantid else w.dropIns := by
  by_cases hv : validGrantid grantid
  · simp only [revokeGrant, hv, Bool.not_true, Bool.false_eq_true, if_false, if_true, true_and]
    rcases hr : revokeGrantViaHelper grantid o.helper w with ⟨rc, err, w1⟩
    obtain ⟨hg, hd⟩ := revokeGrantViaHelper_effect hr
    split
    · obtain ⟨eg, ed⟩ := eraseGrant_effect J cfg grantid rc o.persist
        (w1.warn (lit "grants: helper revoke rc=" ++ writeInt rc ++ lit " err=" ++ err))
      exact ⟨by rw [eg, ← hg]; rfl, by rw [ed, ← hd]; rfl⟩
    · obtain ⟨eg, ed⟩ := eraseGrant_effect J cfg grantid rc o.persist w1
      exact ⟨by rw [eg, hg], by rw [ed, hd]⟩
  · simp [revokeGrant, hv]

theorem revokeGrant_revoked (grantid : Str) (o : Str → RevokeOutcome) (w : World) :
    Revoked o [grantid] w (revokeGrant J cfg grantid (o grantid) w).2 := by
  intro id
  obtain ⟨hg, hd⟩ := revokeGrant_effect J cfg grantid (o grantid) w
  rw [hg, hd]
  simp only [List.mem_singleton]
  by_cases hi : id = grantid
  · subst hi
    constructor
    · by_cases hv : validGrantid id = true <;> simp [hv]
    · by_cases hv : validGrantid id = true ∧ (o id).helper.rc = 0 <;> simp [hv]
  · constructor
    · by_cases hv : validGrantid grantid = true <;> simp [hv, hi]
    · by_cases hv : validGrantid grantid = true ∧ (o grantid).helper.rc = 0 <;> simp [hv, hi]

theorem Revoked.trans {o : Str → RevokeOutcome} {i : Str} {ids : List Str} {w w1 w2 : World}
    (h1 : Revoked o [i] w w1) (h2 : Revoked o ids w1 w2) : Revoked o (i :: ids) w w2 := by
  intro id
  rw [(h2 id).1, (h2 id).2, (h1 id).1, (h1 id).2]
  by_cases hi : id = i <;> by_cases hm : id ∈ ids <;> simp [hi, hm] <;> grind

theorem revokeAll_revoked (o : Str → RevokeOutcome) (ids : List Str) (w : World) :
    Revoked o ids w (revokeAll J cfg o ids w) := by
  induction ids generalizing w with
  | nil => intro id; simp [revokeAll]
  | cons i ids ih =>
    have h1 := revokeGrant_revoked J cfg i o w
    simp only [revokeAll]
    split
    · next hr =>
      rw [hr] at h1
      exact h1.trans (ih _)
    · next hr =>
      rw [hr] at h1
      exact h1.trans (ih _)

theorem mem_expiredIds {now : Int64} {w : World} {id : Str} :
    id ∈ expiredIds now w ↔ ∃ g, w.grants.lookup id = some g ∧ g.expiresAt ≤ now := by
  simp only [expiredIds, List.mem_map, List.mem_filter, decide_eq_true_eq]
  constructor
  · rintro ⟨⟨k, g⟩, ⟨hm, hle⟩, rfl⟩
    exact ⟨g, Map.mem_entries.1 hm, hle⟩
  · rintro ⟨g, hl, hle⟩
    exact ⟨⟨id, g⟩, ⟨Map.mem_entries.2 hl, hle⟩, rfl⟩

/-! ## Runs of calls -/

/-- A complete call, with its arguments and the outcomes of what it calls. -/
inductive Call where
  | request (ctx : RequestContext) (shortid templateName : Str) (capturedArgs : Json) (ttl : Int) (o : RequestOutcome)
  | revoke (grantid : Str) (o : RevokeOutcome)
  | sweep (now : Int64) (o : Str → RevokeOutcome)

/-- The world after a call. The id of a request is fresh. -/
def next (w : World) : Call → Option World
  | .request ctx shortid templateName capturedArgs ttl o =>
    if makeGrantid o.buf ∈ w.grants ∨ makeGrantid o.buf ∈ w.dropIns then none
    else some (requestGrant J regexMatch cfg ctx shortid templateName capturedArgs ttl o w).2
  | .revoke grantid o => some (revokeGrant J cfg grantid o w).2
  | .sweep now o => some (sweepExpired J cfg now o w)

/-- A request changes nothing, or it adds a grant under a new id and its drop-in. -/
theorem next_request {w w' : World} {ctx : RequestContext} {shortid templateName : Str} {capturedArgs : Json} {ttl : Int}
    {o : RequestOutcome} (h : next J regexMatch cfg w (.request ctx shortid templateName capturedArgs ttl o) = some w') :
    (w'.grants = w.grants ∧ w'.dropIns = w.dropIns) ∨
    ∃ g spec, g = ⟨makeGrantid o.buf, shortid, templateName, capturedArgs, o.now + .ofInt ttl⟩ ∧
      w'.grants = w.grants.insert g.grantid g ∧ w'.dropIns = w.dropIns.insert g.grantid ⟨spec, g.expiresAt⟩ := by
  simp only [next] at h
  split at h
  · cases h
  · next hf =>
    rcases hreq : requestGrant J regexMatch cfg ctx shortid templateName capturedArgs ttl o w with ⟨r, w1⟩
    rw [hreq] at h
    cases h
    rcases requestGrant_effect J regexMatch cfg (not_or.1 hf).1 hreq with ⟨-, hg, hd⟩ | ⟨g, spec, -, hnew, -, hg, hd⟩
    · exact .inl ⟨hg, hd⟩
    · exact .inr ⟨g, spec, hnew, hg, hd⟩

/-- Each drop-in has an entry that carries its expiry. -/
def Tracked (w : World) : Prop :=
  ∀ id d, w.dropIns.lookup id = some d → ∃ g, w.grants.lookup id = some g ∧ g.expiresAt = d.expiresAt

/-- The helper's revocation of `id` removes the drop-in, or there is none. -/
def Removes (w : World) (id : Str) (o : RevokeOutcome) : Prop :=
  validGrantid id = true → o.helper.rc = 0 ∨ w.dropIns.lookup id = none

/-- Each revocation a call makes removes the drop-in it is for. -/
def RevocationsRemove (w : World) : Call → Prop
  | .request .. => True
  | .revoke grantid o => Removes w grantid o
  | .sweep now o => ∀ id ∈ expiredIds now w, Removes w id (o id)

/-- Revocations that remove their drop-ins leave the rest tracked. -/
theorem tracked_of_revoked {o : Str → RevokeOutcome} {ids : List Str} {w w' : World} (ht : Tracked w)
    (hc : ∀ id ∈ ids, Removes w id (o id)) (hr : Revoked o ids w w') : Tracked w' := by
  intro id d hl
  obtain ⟨hg, hd⟩ := hr id
  rw [hd] at hl
  split at hl
  · cases hl
  · next hn =>
    rw [hg, if_neg]
    · exact ht id d hl
    · rintro ⟨hm, hv⟩
      rcases hc id hm hv with hrc | hnone
      · exact hn ⟨hm, hv, hrc⟩
      · rw [hl] at hnone
        cases hnone

theorem next_tracked {w w' : World} {c : Call} (ht : Tracked w) (hc : RevocationsRemove w c)
    (h : next J regexMatch cfg w c = some w') : Tracked w' := by
  cases c with
  | request ctx shortid templateName capturedArgs ttl o =>
    rcases next_request J regexMatch cfg h with ⟨hg, hd⟩ | ⟨g, spec, -, hg, hd⟩
    · intro id d hl
      rw [hd] at hl
      rw [hg]
      exact ht id d hl
    · intro id d hl
      rw [hd, Map.lookup_insert_if] at hl
      rw [hg, Map.lookup_insert_if]
      split at hl
      · next hi => cases hl; exact ⟨g, by simp [hi], rfl⟩
      · next hi => simpa [hi] using ht id d hl
  | revoke grantid o =>
    cases h
    refine tracked_of_revoked ht ?_ (revokeGrant_revoked J cfg grantid (fun _ => o) w)
    intro id hid
    cases List.mem_singleton.1 hid
    exact hc
  | sweep now o =>
    cases h
    exact tracked_of_revoked ht hc (revokeAll_revoked J cfg o _ w)

/-- A tracked drop-in is removed by the first sweep after its expiry whose
helper call succeeds. -/
theorem sweep_removes {w : World} (ht : Tracked w) {id : Str} {d : DropIn} (hl : w.dropIns.lookup id = some d)
    (hv : validGrantid id = true) {now : Int64} (hnow : d.expiresAt ≤ now) {o : Str → RevokeOutcome}
    (hrc : (o id).helper.rc = 0) : (sweepExpired J cfg now o w).dropIns.lookup id = none := by
  obtain ⟨g, hg, he⟩ := ht id d hl
  have hm : id ∈ expiredIds now w := mem_expiredIds.2 ⟨g, hg, by rw [he]; exact hnow⟩
  rw [sweepExpired, (revokeAll_revoked J cfg o _ w id).2, if_pos ⟨hm, hv, hrc⟩]

/-- In every run whose revocations all remove their drop-ins, each drop-in has
an entry that carries its expiry, so a sweep after that expiry revokes it. -/
theorem tracked_of_revocations_remove (w w' : World) (calls : List Call) (h0 : Tracked w)
    (hc : Along (next J regexMatch cfg) RevocationsRemove w calls)
    (hr : run (next J regexMatch cfg) w calls = some w') :
    Tracked w' ∧ ∀ id d, w'.dropIns.lookup id = some d → validGrantid id = true →
      ∀ now, d.expiresAt ≤ now → ∀ o : Str → RevokeOutcome, (o id).helper.rc = 0 →
        (sweepExpired J cfg now o w').dropIns.lookup id = none := by
  have ht : Tracked w' := run_inv Tracked (fun _ _ _ hi hc hn => next_tracked J regexMatch cfg hi hc hn) h0 hc hr
  exact ⟨ht, fun id d hl hv now hnow o hrc => sweep_removes J cfg ht hl hv hnow hrc⟩

end Manager

/-! ## A failing revocation -/

def exampleId : Str := lit "00000000000000aa"

/-- One unrestricted grant for `abcdefgh`, installed. -/
def exampleWorld : World where
  grants := AList.singleton exampleId ⟨exampleId, lit "abcdefgh", kFullAdminTemplate, .obj [], 4600⟩
  grantsJson := none
  specFiles := ∅
  dropIns := AList.singleton exampleId ⟨lit "mcp_user_abcdefgh ALL=(ALL) NOPASSWD: ALL\n", 4600⟩
  audit := []
  warnings := []

theorem exampleWorld_tracked : Tracked exampleWorld := by
  intro id d h
  simp only [exampleWorld, Map.lookup_singleton] at h ⊢
  split at h
  · next hi => cases h; exact ⟨_, if_pos hi, rfl⟩
  · cases h

/-- The helper exits 11 because it could not unlink the drop-in. The entry is
gone, the drop-in is not. -/
theorem failed_revoke_untracks : Tracked exampleWorld ∧
    ∃ w', run (next jsonText (fun _ _ => .unmatched) ⟨lit "/s", [], 1⟩) exampleWorld
      [.revoke exampleId { helper := { rc := 11 } }] = some w' ∧ ¬ Tracked w' := by
  refine ⟨exampleWorld_tracked, _, rfl, fun h => ?_⟩
  obtain ⟨hg, hd⟩ := revokeGrant_effect jsonText ⟨lit "/s", [], 1⟩ exampleId { helper := { rc := 11 } } exampleWorld
  have hv : validGrantid exampleId = true := by decide
  simp only [hv, if_true, true_and] at hg hd
  obtain ⟨g, hl, -⟩ := h exampleId _ (by rw [hd]; exact Map.lookup_singleton ..)
  rw [hg] at hl
  simp at hl

/-- A sweep before the expiry, then a revocation that succeeds. -/
theorem revoked_grant_tracked : ∃ w', run (next jsonText (fun _ _ => .unmatched) ⟨lit "/s", [], 1⟩) exampleWorld
    [.sweep 2000 fun _ => {}, .revoke exampleId {}] = some w' ∧ Tracked w' := by
  refine ⟨_, rfl, (tracked_of_revocations_remove jsonText (fun _ _ => .unmatched) ⟨lit "/s", [], 1⟩ exampleWorld _
    [.sweep 2000 fun _ => {}, .revoke exampleId {}] exampleWorld_tracked ?_ rfl).1⟩
  exact ⟨fun id _ _ => .inl rfl, fun _ => .inl rfl, trivial⟩

end McpBridge.Grants
