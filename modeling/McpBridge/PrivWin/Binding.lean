import McpBridge.PrivWin.Operations
import McpBridge.Lib.Runs
/-!
# Grants are bound to the account they were issued for

A grant file names a shortid. The account `mcp_user_<shortid>` can be deleted
and created again, with another SID, and the daemon leaves the SID of a record
to the service. This file runs the handlers in any order and says for which
runs an elevated command belongs to the account the grant was issued for.
-/

open McpBridge.Lib McpBridge.Core McpBridge.Grants

namespace McpBridge.PrivWin

/-- A request the service handles. An installation carries what `request_grant` renders from. -/
inductive Call where
  | useradd (o : UserAddOutcome) (req : Json)
  | userdel (o : UserDelOutcome) (req : Json)
  | install (o : InstallOutcome) (grantid shortid templateName : Str) (capturedArgs : Json) (expiresAt : Int64)
  | revoke (removed : Bool) (req : Json)
  | runAs (o : RunAsOutcome) (req : Json)

/-- `NetUserAdd` creates an absent account, with a SID no account ever had. -/
def addPossible (add : NetUserAdd) (username : Str) (s : Svc) : Bool :=
  match add with
  | .success sid => (s.accounts.lookup username).isNone && sid ≠ [] && !s.usedSids.contains sid
  | .userExists => (s.accounts.lookup username).isSome
  | .failed _ _ => true

/-- What the daemon sends for a grant. -/
def installRequest (grantid : Str) (record : Json) : Json :=
  .ofFields [(lit "op", .str (lit "install_grant")), (lit "grantid", .str grantid), (lit "record", record)]

/-- The shortid a grant file is for. -/
def fileShortid (J : JsonText) (text : Str) : Option Str :=
  (J.parse text).bind fun doc => (doc.value Json.asStr (lit "shortid") []).toOption

section
variable (J : JsonText) (regexMatch : Str → Str → RegexResult) (templates : List GrantTemplate)

def next (s : Svc) : Call → Option Svc
  | .useradd o req =>
    match req.value Json.asStr (lit "shortid") [] with
    | .ok shortid =>
      if addPossible o.add (usernameFromShortid shortid) s then some (handleUseradd J o req s).2 else none
    | .error _ => some (handleUseradd J o req s).2
  | .userdel o req => some (handleUserdel J o req s).2
  | .install o grantid shortid templateName capturedArgs expiresAt =>
    match renderRecord regexMatch templates grantid shortid templateName capturedArgs expiresAt with
    | .ok record => some (handleInstallGrant J o (installRequest grantid record) s).2
    | .error _ => some s
  | .revoke removed req => some (handleRevokeGrant removed req s).2
  | .runAs o req => some (((handleRunAs J o req s).1.map (·.2)).getD s)

/-! ## What the handlers do to the accounts and the grant files -/

theorem bindSid_effect (o : UserAddOutcome) (username : Str) (s : Svc) :
    (bindSid J o username s).2.accounts = s.accounts ∧ (bindSid J o username s).2.grantFiles = s.grantFiles := by
  simp only [bindSid]
  split
  · exact ⟨rfl, rfl⟩
  split
  · exact ⟨rfl, rfl⟩
  split
  · exact ⟨rfl, rfl⟩
  · next s' hp =>
    obtain ⟨doc, -, hp⟩ := bind_eq_ok.1 hp
    obtain ⟨text, -, hp⟩ := bind_eq_ok.1 hp
    cases hp
    split
    · exact ⟨rfl, rfl⟩
    · exact ⟨rfl, rfl⟩

theorem handleUseradd_effect (o : UserAddOutcome) (req : Json) (s : Svc) :
    (handleUseradd J o req s).2.grantFiles = s.grantFiles ∧
      ((handleUseradd J o req s).2.accounts = s.accounts ∨
        ∃ shortid sid, req.value Json.asStr (lit "shortid") [] = .ok shortid ∧ o.add = .success sid ∧
          (handleUseradd J o req s).2.accounts = s.accounts.insert (lit "mcp_user_" ++ shortid) sid) := by
  simp only [handleUseradd]
  split
  · exact ⟨rfl, .inl rfl⟩
  next shortid hv =>
  split
  · exact ⟨rfl, .inl rfl⟩
  next hu =>
  split
  · exact ⟨rfl, .inl rfl⟩
  · obtain ⟨ha, hg⟩ := bindSid_effect J o (usernameFromShortid shortid) s
    exact ⟨hg, .inl ha⟩
  · next sid hadd =>
    obtain ⟨ha, hg⟩ := bindSid_effect J o (usernameFromShortid shortid)
      { s with accounts := s.accounts.insert (usernameFromShortid shortid) sid, usedSids := sid :: s.usedSids }
    refine ⟨hg, .inr ⟨shortid, sid, hv, hadd, ?_⟩⟩
    have hname : usernameFromShortid shortid = lit "mcp_user_" ++ shortid := by
      by_contra hne
      simp only [usernameFromShortid] at hu hne
      split at hne
      · exact hne rfl
      · next hn => exact hu (by rw [if_neg hn])
    rw [ha, hname]

theorem forgetPersistedSid_effect (written : Bool) (username : Str) (s : Svc) :
    (forgetPersistedSid J written username s).accounts = s.accounts ∧
      (forgetPersistedSid J written username s).grantFiles = s.grantFiles := by
  simp only [forgetPersistedSid]
  repeat' split
  all_goals exact ⟨rfl, rfl⟩

theorem handleUserdel_effect (o : UserDelOutcome) (req : Json) (s : Svc) :
    (handleUserdel J o req s).2.grantFiles = s.grantFiles ∧
      ((handleUserdel J o req s).2.accounts = s.accounts ∨
        ∃ username, (handleUserdel J o req s).2.accounts = s.accounts.erase username) := by
  simp only [handleUserdel]
  split
  · exact ⟨rfl, .inl rfl⟩
  next shortid hv =>
  split
  · exact ⟨rfl, .inl rfl⟩
  split
  · exact ⟨rfl, .inl rfl⟩
  · obtain ⟨ha, hg⟩ := forgetPersistedSid_effect J o.ledgerWritten (usernameFromShortid shortid)
      { s with accounts := s.accounts.erase (usernameFromShortid shortid) }
    exact ⟨hg, .inr ⟨_, ha⟩⟩

/-- An installation writes the record under its id, next to the SID the account
has now, or nothing. -/
theorem handleInstallGrant_effect (o : InstallOutcome) (req : Json) (s : Svc) :
    (handleInstallGrant J o req s).2.accounts = s.accounts ∧
      ((handleInstallGrant J o req s).2.grantFiles = s.grantFiles ∨
        ∃ grantid record shortid text, req.value Json.asStr (lit "grantid") [] = .ok grantid ∧
          req.get? (lit "record") = some record ∧ record.value Json.asStr (lit "shortid") [] = .ok shortid ∧
          validShortid shortid = true ∧ J.dump (some 2) record = .ok text ∧
          (handleInstallGrant J o req s).2.grantFiles =
            s.grantFiles.insert grantid ⟨text, s.accounts.lookup (lit "mcp_user_" ++ shortid)⟩) := by
  simp only [handleInstallGrant]
  split
  · exact ⟨rfl, .inl rfl⟩
  next grantid hid =>
  split
  · exact ⟨rfl, .inl rfl⟩
  split
  swap
  · exact ⟨rfl, .inl rfl⟩
  next fields hrec =>
  split
  · exact ⟨rfl, .inl rfl⟩
  next shortid hsh =>
  split
  · exact ⟨rfl, .inl rfl⟩
  next hvalid =>
  rw [Bool.not_eq_true, Bool.not_eq_false'] at hvalid
  have hname : usernameFromShortid shortid = lit "mcp_user_" ++ shortid := if_pos hvalid
  split
  · exact ⟨rfl, .inl rfl⟩
  split
  · exact ⟨rfl, .inl rfl⟩
  split
  · exact ⟨rfl, .inl rfl⟩
  split
  · exact ⟨rfl, .inl rfl⟩
  split
  · exact ⟨rfl, .inl rfl⟩
  next text hdump =>
  split
  · exact ⟨rfl, .inl rfl⟩
  rw [hname]
  split
  · exact ⟨rfl, .inr ⟨grantid, _, shortid, text, hid, hrec, hsh, hvalid, hdump, rfl⟩⟩
  · exact ⟨rfl, .inr ⟨grantid, _, shortid, text, hid, hrec, hsh, hvalid, hdump, rfl⟩⟩

theorem handleRevokeGrant_effect (removed : Bool) (req : Json) (s : Svc) :
    (handleRevokeGrant removed req s).2.accounts = s.accounts ∧
      ((handleRevokeGrant removed req s).2.grantFiles = s.grantFiles ∨
        ∃ id, (handleRevokeGrant removed req s).2.grantFiles = s.grantFiles.erase id) := by
  simp only [handleRevokeGrant]
  split
  · exact ⟨rfl, .inl rfl⟩
  split
  · exact ⟨rfl, .inl rfl⟩
  split
  · exact ⟨rfl, .inr ⟨_, rfl⟩⟩
  · exact ⟨rfl, .inl rfl⟩

theorem handleRunAs_effect (o : RunAsOutcome) (req : Json) (s : Svc) :
    (((handleRunAs J o req s).1.map (·.2)).getD s).accounts = s.accounts ∧
      (((handleRunAs J o req s).1.map (·.2)).getD s).grantFiles = s.grantFiles := by
  simp only [handleRunAs, finishRun]
  cases o.spawned with
  | none =>
    repeat' split
    all_goals exact ⟨rfl, rfl⟩
  | some r =>
    simp only [Option.map_some]
    repeat' split
    all_goals exact ⟨rfl, rfl⟩

/-! ## The grant that elevates a command -/

theorem grantCovers_shortid {shortid command liveSid : Str} {now : Int64} {doc : Json}
    (h : grantCovers shortid command liveSid now doc = .ok true) :
    ∃ sh, doc.value Json.asStr (lit "shortid") [] = .ok sh ∧ (sh = shortid ∨ sh = lit "*") := by
  obtain ⟨sh, hsh, h⟩ := bind_eq_ok.1 h
  refine ⟨sh, hsh, ?_⟩
  split at h
  · cases h
  · next hn =>
    by_contra hc
    exact hn (not_or.1 hc)

/-- A search that ends in a file found a record for the shortid. -/
theorem tryFile_true {shortid command liveSid raw : Str} {now : Int64} {source : GrantSource} {out out' : GrantMatch}
    (h : tryFile J shortid command liveSid now source raw out = (true, out')) :
    out'.source = some source ∧ ∃ sh, fileShortid J raw = some sh ∧ (sh = shortid ∨ sh = lit "*") := by
  simp only [tryFile] at h
  split at h
  · cases h
  split at h
  swap
  · cases h
  next doc hdoc =>
  split at h
  · cases h
  split at h
  swap
  · cases h
  next hcov =>
  split at h
  · cases h
    obtain ⟨sh, hsh, heq⟩ := grantCovers_shortid hcov
    exact ⟨rfl, sh, by simp [fileShortid, hdoc, hsh, Except.toOption], heq⟩
  · cases h

theorem tryFile_false {shortid command liveSid raw : Str} {now : Int64} {source : GrantSource} {out out' : GrantMatch}
    (h : tryFile J shortid command liveSid now source raw out = (false, out')) :
    out'.source = out.source := by
  simp only [tryFile] at h
  repeat' split at h
  all_goals cases h
  all_goals rfl

theorem scanGrants_source {shortid command liveSid : Str} {now : Int64} {s : Svc} {ids : List Str} {out : GrantMatch}
    {id : Str} (hout : out.source ≠ some (.grant id))
    (h : (scanGrants J shortid command liveSid now s ids out).source = some (.grant id)) :
    ∃ f sh, s.grantFiles.lookup id = some f ∧ fileShortid J f.text = some sh ∧ (sh = shortid ∨ sh = lit "*") := by
  induction ids generalizing out with
  | nil => exact absurd h hout
  | cons i ids ih =>
    simp only [scanGrants] at h
    split at h
    · exact ih hout h
    next f hf =>
    split at h
    · next htry =>
      obtain ⟨hsrc, sh, hsh, heq⟩ := tryFile_true J htry
      rw [hsrc] at h
      cases h
      exact ⟨f, sh, hf, hsh, heq⟩
    · next htry => exact ih (by rw [tryFile_false J htry]; exact hout) h

theorem parseRunAs_valid {req : Json} {args : RunAsArgs} (h : parseRunAs req = .ok (.ok args)) :
    validShortid args.shortid = true := by
  obtain ⟨shortid, -, h⟩ := bind_eq_ok.1 h
  split at h
  · cases h
  next hv =>
  obtain ⟨command, -, h⟩ := bind_eq_ok.1 h
  split at h
  · cases h
  obtain ⟨cwd, -, h⟩ := bind_eq_ok.1 h
  obtain ⟨timeout, -, h⟩ := bind_eq_ok.1 h
  cases h
  simpa using hv

theorem account_of_sidString {found : Bool} {user : Str} {s : Svc} (h : sidStringForUser found user s ≠ []) :
    ∃ sid, s.accounts.lookup user = some sid := by
  simp only [sidStringForUser] at h
  split at h
  · cases hl : s.accounts.lookup user with
    | none => simp [hl] at h
    | some sid => exact ⟨sid, rfl⟩
  · exact absurd rfl h

/-- A process elevated by a grant file runs for an account that exists, and the
file is for its shortid (or for all). -/
theorem spawn_grant {o : RunAsOutcome} {req : Json} {s : Svc} {p : Spawn} {id : Str}
    (h : (handleRunAs J o req s).2 = some p) (hsrc : p.source = some (.grant id)) :
    (∃ sid, s.accounts.lookup (lit "mcp_user_" ++ p.shortid) = some sid) ∧
      ∃ f sh, s.grantFiles.lookup id = some f ∧ fileShortid J f.text = some sh ∧ (sh = p.shortid ∨ sh = lit "*") := by
  simp only [handleRunAs] at h
  split at h
  · cases h
  · cases h
  next args hargs =>
  split at h
  · cases h
  next hlive =>
  split at h
  · cases h
  split at h
  · cases h
  cases h
  refine ⟨?_, ?_⟩
  · have hacc := account_of_sidString hlive
    rwa [usernameFromShortid, if_pos (parseRunAs_valid hargs)] at hacc
  · simp only [findGrantFor] at hsrc
    split at hsrc
    · next htry =>
      rw [(tryFile_true J htry).1] at hsrc
      cases hsrc
    · next htry => exact scanGrants_source J (by rw [tryFile_false J htry]; simp) hsrc

/-! ## Runs -/

/-- Each grant file is for one shortid, and if its account exists now, it is
the one the grant was issued for. -/
def Bound (s : Svc) : Prop :=
  ∀ id f, s.grantFiles.lookup id = some f → ∃ sh, fileShortid J f.text = some sh ∧ sh ≠ lit "*" ∧
    ∀ sid, s.accounts.lookup (lit "mcp_user_" ++ sh) = some sid → f.sidAtInstall = some sid

/-- No account is created while a grant file for its shortid is there. -/
def CreatesUngranted (s : Svc) : Call → Prop
  | .useradd o req => ∀ sid, o.add = .success sid → ∀ shortid, req.value Json.asStr (lit "shortid") [] = .ok shortid →
      ∀ f ∈ s.grantFiles.values, fileShortid J f.text ≠ some shortid
  | _ => True

theorem username_inj {a b : Str} (h : lit "mcp_user_" ++ a = lit "mcp_user_" ++ b) : a = b := List.append_cancel_left h

/-- Losing grant files and accounts keeps the invariant. -/
theorem Bound.of_fewer {s s' : Svc} (hb : Bound J s)
    (hg : ∀ id f, s'.grantFiles.lookup id = some f → s.grantFiles.lookup id = some f)
    (ha : ∀ name sid, s'.accounts.lookup name = some sid → s.accounts.lookup name = some sid) : Bound J s' := by
  intro id f hl
  obtain ⟨sh, hsh, hne, hacc⟩ := hb id f (hg id f hl)
  exact ⟨sh, hsh, hne, fun sid hsid => hacc sid (ha _ _ hsid)⟩

theorem handleUseradd_bound {o : UserAddOutcome} {req : Json} {s : Svc} (hb : Bound J s)
    (hc : CreatesUngranted J s (.useradd o req)) : Bound J (handleUseradd J o req s).2 := by
  obtain ⟨hg, ha | ⟨shortid, sid', hv, hadd, ha⟩⟩ := handleUseradd_effect J o req s
  · exact hb.of_fewer J (by simp [hg]) (by simp [ha])
  intro id f hl
  rw [hg] at hl
  obtain ⟨sh, hsh, hne, hacc⟩ := hb id f hl
  refine ⟨sh, hsh, hne, fun sid hsid => ?_⟩
  rw [ha, Map.lookup_insert_if] at hsid
  split at hsid
  -- The new account is that of the file, which the condition excludes.
  · next heq =>
    have hf : f ∈ s.grantFiles.values := Map.mem_values.2 ⟨id, Map.mem_entries.2 hl⟩
    exact absurd (username_inj heq ▸ hsh) (hc sid' hadd shortid hv f hf)
  · exact hacc sid hsid

theorem handleInstallGrant_bound (hJ : J.RoundTrips) {o : InstallOutcome} {s : Svc} (hb : Bound J s)
    (grantid gid shortid template pat : Str) (expiresAt : Int64) :
    Bound J (handleInstallGrant J o (installRequest grantid (grantRecord gid shortid [] template pat expiresAt)) s).2 := by
  obtain ⟨ha, hg | ⟨id', rec', sh, text, -, hrec', hsh, hvalid, hdump, hg⟩⟩ := handleInstallGrant_effect J o
    (installRequest grantid (grantRecord gid shortid [] template pat expiresAt)) s
  · exact hb.of_fewer J (by simp [hg]) (by simp [ha])
  intro id f hl
  rw [hg, Map.lookup_insert_if] at hl
  rw [ha]
  split at hl
  -- The file written now is for the account there is now.
  · cases hl
    cases hrec'
    have hfile : fileShortid J text = some sh := by
      rw [fileShortid, (hJ _ _ _ (grantRecord_plain ..) hdump).1, Option.bind_some, hsh]
      rfl
    refine ⟨sh, hfile, ?_, fun sid hsid => hsid⟩
    rintro rfl
    exact absurd hvalid (by decide)
  · exact hb id f hl

theorem next_bound (hJ : J.RoundTrips) {s s' : Svc} {c : Call} (hb : Bound J s) (hc : CreatesUngranted J s c)
    (h : next J regexMatch templates s c = some s') : Bound J s' := by
  cases c with
  | useradd o req =>
    have hs : s' = (handleUseradd J o req s).2 := by
      simp only [next] at h
      split at h
      · split at h
        · cases h; rfl
        · cases h
      · cases h; rfl
    rw [hs]
    exact handleUseradd_bound J hb hc
  | userdel o req =>
    cases h
    obtain ⟨hg, ha⟩ := handleUserdel_effect J o req s
    refine hb.of_fewer J (by simp [hg]) fun name sid hl => ?_
    rcases ha with ha | ⟨username, ha⟩
    · rwa [ha] at hl
    · rw [ha] at hl
      exact Map.lookup_of_erase hl
  | install o grantid shortid templateName capturedArgs expiresAt =>
    simp only [next] at h
    split at h
    · next record hrec =>
      cases h
      obtain ⟨template, pat, rfl⟩ := renderRecord_ok hrec
      exact handleInstallGrant_bound J hJ hb grantid grantid shortid template pat expiresAt
    · cases h; exact hb
  | revoke removed req =>
    cases h
    obtain ⟨ha, hg⟩ := handleRevokeGrant_effect removed req s
    refine hb.of_fewer J (fun id f hl => ?_) (by simp [ha])
    rcases hg with hg | ⟨id', hg⟩
    · rwa [hg] at hl
    · rw [hg] at hl
      exact Map.lookup_of_erase hl
  | runAs o req =>
    cases h
    obtain ⟨ha, hg⟩ := handleRunAs_effect J o req s
    exact hb.of_fewer J (by simp [hg]) (by simp [ha])

/-- In every run that creates no account while a grant file for it is there, a
command elevated by a grant file runs for the account the grant was issued
for: its SID is the one it had when the grant was installed. -/
theorem elevated_for_issued_account (hJ : J.RoundTrips) (s s' : Svc) (calls : List Call) (h0 : s.grantFiles = ∅)
    (hc : Along (next J regexMatch templates) (CreatesUngranted J) s calls)
    (hr : run (next J regexMatch templates) s calls = some s') (o : RunAsOutcome) (req : Json) (p : Spawn) (id : Str)
    (hp : (handleRunAs J o req s').2 = some p) (hsrc : p.elevated = true ∧ p.source = some (.grant id)) :
    ∃ f sid, s'.grantFiles.lookup id = some f ∧ s'.accounts.lookup (lit "mcp_user_" ++ p.shortid) = some sid ∧
      f.sidAtInstall = some sid := by
  have hb : Bound J s' := by
    refine run_inv (Bound J) (fun _ _ _ hi hc hn => next_bound J regexMatch templates hJ hi hc hn) ?_ hc hr
    intro id f hl
    simp [h0] at hl
  obtain ⟨⟨sid, hacc⟩, f, sh, hf, hsh, heq⟩ := spawn_grant J hp hsrc.2
  obtain ⟨sh', hsh', hne, hbound⟩ := hb id f hf
  rw [hsh] at hsh'
  cases hsh'
  rcases heq with rfl | heq
  · exact ⟨f, sid, hf, hacc, hbound sid hacc⟩
  · exact absurd heq hne

end

/-! ## Deleting and creating an account -/

/-- No accounts and no grants. -/
def Svc.fresh : Svc := ⟨∅, [], none, ∅, none, [], []⟩

def forAbcdefgh : Json := .ofFields [(lit "shortid", .str (lit "abcdefgh"))]

def addAbcdefgh (sid : Str) : Call := .useradd { add := .success sid } forAbcdefgh

def exampleId : Str := lit "00000000000000aa"

/-- A grant of `full_admin` that does not expire during the run. -/
def grantAbcdefgh : Call := .install {} exampleId (lit "abcdefgh") kFullAdminTemplate (.obj []) 5000

def runOutcome : RunAsOutcome := { now := 1000, listing := [exampleId] }

def runCommand : Json := .ofFields [(lit "shortid", .str (lit "abcdefgh")), (lit "command", .str (lit "whoami"))]

/-- What the run leaves to look at: the process started next, the SID the grant
was issued for, and the SID of the account. -/
def elevation (s : Svc) : Option (Bool × Option GrantSource) × Option (Option Str) × Option Str :=
  ((handleRunAs jsonText runOutcome runCommand s).2.map fun p => (p.elevated, p.source),
    (s.grantFiles.lookup exampleId).map (·.sidAtInstall), s.accounts.lookup (lit "mcp_user_abcdefgh"))

/-- The account is deleted and created again. The old grant elevates the new account. -/
theorem recreated_account_elevated :
    ∃ s', run (next jsonText (fun _ _ => .unmatched) []) Svc.fresh
        [addAbcdefgh (lit "S-1-5-21-1"), grantAbcdefgh, .userdel {} forAbcdefgh, addAbcdefgh (lit "S-1-5-21-2")] =
          some s' ∧
      (∃ p, (handleRunAs jsonText runOutcome runCommand s').2 = some p ∧ p.elevated = true ∧
        p.source = some (.grant exampleId)) ∧
      (∃ f, s'.grantFiles.lookup exampleId = some f ∧ f.sidAtInstall = some (lit "S-1-5-21-1")) ∧
      s'.accounts.lookup (lit "mcp_user_abcdefgh") = some (lit "S-1-5-21-2") := by
  have h : (run (next jsonText (fun _ _ => .unmatched) []) Svc.fresh
      [addAbcdefgh (lit "S-1-5-21-1"), grantAbcdefgh, .userdel {} forAbcdefgh, addAbcdefgh (lit "S-1-5-21-2")]).map
        elevation = some (some (true, some (.grant exampleId)), some (some (lit "S-1-5-21-1")), some (lit "S-1-5-21-2")) := by
    decide +kernel
  obtain ⟨s', hs, he⟩ := Option.map_eq_some_iff.1 h
  simp only [elevation, Prod.mk.injEq, Option.map_eq_some_iff] at he
  obtain ⟨⟨p, hp, hel, hsrc⟩, hf, hacc⟩ := he
  exact ⟨s', hs, ⟨p, hp, hel, hsrc⟩, hf, hacc⟩

/-- A grant issued and used while the account stays. -/
theorem kept_account_elevated : ∃ s' p f sid,
    run (next jsonText (fun _ _ => .unmatched) []) Svc.fresh [addAbcdefgh (lit "S-1-5-21-1"), grantAbcdefgh] = some s' ∧
      (handleRunAs jsonText runOutcome runCommand s').2 = some p ∧ p.elevated = true ∧
      s'.grantFiles.lookup exampleId = some f ∧ s'.accounts.lookup (lit "mcp_user_" ++ p.shortid) = some sid ∧
      f.sidAtInstall = some sid := by
  have h : (run (next jsonText (fun _ _ => .unmatched) []) Svc.fresh
      [addAbcdefgh (lit "S-1-5-21-1"), grantAbcdefgh]).map elevation =
        some (some (true, some (.grant exampleId)), some (some (lit "S-1-5-21-1")), some (lit "S-1-5-21-1")) := by
    decide +kernel
  obtain ⟨s', hs, he⟩ := Option.map_eq_some_iff.1 h
  simp only [elevation, Prod.mk.injEq, Option.map_eq_some_iff] at he
  obtain ⟨⟨p, hp, hel, hsrc⟩, -, -⟩ := he
  have hc : Along (next jsonText (fun _ _ => .unmatched) []) (CreatesUngranted jsonText) Svc.fresh
      [addAbcdefgh (lit "S-1-5-21-1"), grantAbcdefgh] := by
    refine ⟨fun sid _ shortid _ f hf => ?_, trivial, ?_⟩
    · cases hf
    · split <;> trivial
  obtain ⟨f, sid, hf, hacc, hsid⟩ := elevated_for_issued_account jsonText (fun _ _ => .unmatched) [] jsonText_roundTrips
    Svc.fresh s' _ rfl hc hs runOutcome runCommand p exampleId hp ⟨hel, hsrc⟩
  exact ⟨s', p, f, sid, hs, hp, hel, hf, hacc, hsid⟩

end McpBridge.PrivWin
