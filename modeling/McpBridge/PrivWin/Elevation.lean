import McpBridge.PrivWin.RecordCheck
/-!
# When a command runs elevated

`find_grant_for` reads `system_admin.json` and then the grant files, in whatever
order the directory lists them, and stops at the first that covers the command.
`Covers` and `Names` say what the files themselves must say; where the files
were written by the service from records the daemon renders, a command runs
elevated exactly if one of them does, so the order does not matter.
-/

open McpBridge.Lib McpBridge.Core McpBridge.Grants

namespace McpBridge.PrivWin

section
variable (J : JsonText)

/-- A record the daemon renders with an empty SID, which does not expire in the past of the epoch. -/
def Rendered (record : Json) : Prop :=
  ∃ grantid shortid expiresAt, 0 ≤ expiresAt ∧
    ((∃ regexMatch tmpl args, renderWindowsGrantRecord regexMatch grantid shortid [] tmpl args expiresAt = .ok record) ∨
      renderWindowsFullAdminRecord grantid shortid [] expiresAt = .ok record)

/-- The file the service writes for such a record. -/
def Installed (id : Str) (f : GrantFile) : Prop :=
  ∃ o record s, Rendered record ∧ s.grantFiles.lookup id = none ∧
    (handleInstallGrant J o (installRequest id record) s).2.grantFiles.lookup id = some f

/-- The file the service writes for the system administrator. -/
def InstalledAdmin (text : Str) : Prop :=
  ∃ o req s, s.systemAdmin = none ∧ (handleInstallSystemAdmin J o req s).2.systemAdmin = some text

/-- A grant file for the shortid that has not expired and is for the command. -/
def Covers (now : Int64) (shortid command : Str) (f : GrantFile) : Prop :=
  ∃ doc expiresAt, J.parse f.text = some doc ∧ sval doc (lit "shortid") = shortid ∧
    doc.get? (lit "expires_at") = some (.int expiresAt.toInt) ∧ (expiresAt = 0 ∨ now < expiresAt) ∧
    (sval doc (lit "command_pattern") = lit "*" ∨ sval doc (lit "command_pattern") = command)

/-- The administrator's file names the shortid, with the SID. -/
def Names (shortid sid text : Str) : Prop :=
  ∃ doc, J.parse text = some doc ∧ sval doc (lit "shortid") = shortid ∧ sval doc (lit "sid") = sid

/-! ## What the files hold -/

theorem Rendered.eq {record : Json} (h : Rendered record) :
    ∃ grantid shortid template pat expiresAt, 0 ≤ expiresAt ∧ validShortid shortid = true ∧
      record = grantRecord grantid shortid [] template pat expiresAt := by
  obtain ⟨grantid, shortid, expiresAt, hexp, h⟩ := h
  rcases h with ⟨regexMatch, tmpl, args, h⟩ | h
  · obtain ⟨-, -, h⟩ := bind_eq_ok.1 h
    obtain ⟨command, -, h⟩ := bind_eq_ok.1 h
    obtain ⟨rfl, hv⟩ := checkRecord_valid h
    exact ⟨grantid, shortid, _, command, expiresAt, hexp, ((validateGrantRecord_iff _).1 hv).2.2.1, rfl⟩
  · obtain ⟨-, -, h⟩ := bind_eq_ok.1 h
    obtain ⟨rfl, hv⟩ := checkRecord_valid h
    exact ⟨grantid, shortid, _, _, expiresAt, hexp, ((validateGrantRecord_iff _).1 hv).2.2.1, rfl⟩

/-- A grant file holds the record it was written for. -/
theorem Installed.parse (hJ : J.RoundTrips) {id : Str} {f : GrantFile} (h : Installed J id f) :
    ∃ grantid shortid template pat expiresAt, 0 ≤ expiresAt ∧ validShortid shortid = true ∧
      J.parse f.text = some (grantRecord grantid shortid [] template pat expiresAt) := by
  obtain ⟨o, record, s, hr, hnone, hl⟩ := h
  obtain ⟨grantid, shortid, template, pat, expiresAt, hexp, hv, rfl⟩ := hr.eq
  refine ⟨grantid, shortid, template, pat, expiresAt, hexp, hv, ?_⟩
  obtain ⟨-, hg | ⟨id', record', sh, text, hid', hrec', -, -, hdump, hg⟩⟩ := handleInstallGrant_effect J o
    (installRequest id (grantRecord grantid shortid [] template pat expiresAt)) s
  · rw [hg, hnone] at hl
    cases hl
  · cases hid'
    cases hrec'
    rw [hg, Map.lookup_insert_if, if_pos rfl] at hl
    cases hl
    exact (hJ _ _ _ (grantRecord_plain ..) hdump).1

theorem InstalledAdmin.parse (hJ : J.RoundTrips) {text : Str} (h : InstalledAdmin J text) :
    ∃ shortid sid, validShortid shortid = true ∧ sid ≠ [] ∧ J.parse text = some (systemAdminRecord shortid sid) := by
  obtain ⟨o, req, s, hnone, h⟩ := h
  have hcontra : s.systemAdmin ≠ some text := by rw [hnone]; simp
  simp only [handleInstallSystemAdmin] at h
  split at h
  · exact absurd h hcontra
  split at h
  · exact absurd h hcontra
  next hv =>
  split at h
  · exact absurd h hcontra
  next hsid =>
  split at h
  · exact absurd h hcontra
  next text' hdump =>
  split at h
  · exact absurd h hcontra
  cases h
  exact ⟨_, _, by simpa using hv, hsid, (hJ _ _ _ rfl hdump).1⟩

/-! ## One file -/

/-- What one file contributes: it ends the search with an elevated match, or is passed over. -/
theorem tryFile_object {shortid command sid text : Str} {now : Int64} {doc : Json} {b : Bool} (source : GrantSource)
    (out : GrantMatch) (hne : text ≠ []) (hp : J.parse text = some doc) (hobj : doc.isObject = true)
    (hel : doc.value Json.asBool (lit "elevated") false = .ok true) (hc : grantCovers shortid command sid now doc = .ok b) :
    tryFile J shortid command sid now source text out = if b then (true, ⟨true, true, some source⟩) else (false, out) := by
  simp only [tryFile, hne, if_false, hp, hobj, Bool.not_true, Bool.false_eq_true, hc]
  cases b with
  | true => simp only [hel, if_true]
  | false => rfl

theorem grantCovers_grantRecord {grantid shortid template pat : Str} {expiresAt : Int64} (hexp : 0 ≤ expiresAt)
    (hv : validShortid shortid = true) (sh command sid : Str) (now : Int64) :
    grantCovers sh command sid now (grantRecord grantid shortid [] template pat expiresAt) =
      .ok (decide (shortid = sh ∧ (expiresAt = 0 ∨ now < expiresAt) ∧ (pat = lit "*" ∨ pat = command))) := by
  have h1 : (grantRecord grantid shortid [] template pat expiresAt).value Json.asStr (lit "shortid") [] = .ok shortid := rfl
  have h2 : (grantRecord grantid shortid [] template pat expiresAt).value Json.asStr (lit "sid") [] = .ok [] := rfl
  have h3 : (grantRecord grantid shortid [] template pat expiresAt).value Json.asInt (lit "expires_at") 0 = .ok expiresAt := by
    have hread : (grantRecord grantid shortid [] template pat expiresAt).value Json.asInt (lit "expires_at") 0 =
        .ok (.ofInt expiresAt.toInt) := rfl
    rw [hread, Int64.ofInt_toInt]
  have h4 : (grantRecord grantid shortid [] template pat expiresAt).value Json.asStr (lit "command_pattern") [] = .ok pat := rfl
  have hstar : shortid ≠ lit "*" := by
    rintro rfl
    exact absurd hv (by decide)
  simp only [grantCovers, h1, h2, h3, h4, bind, Except.bind, ne_eq, not_true_eq_false, false_and, if_false, hstar,
    not_false_eq_true, and_true, pathGlobMatch]
  -- The record is of a grant that is still to expire, or never does.
  have hdead : 0 < expiresAt ∧ expiresAt ≤ now ↔ ¬(expiresAt = 0 ∨ now < expiresAt) := by
    simp only [Int64.lt_iff_toInt_lt, Int64.le_iff_toInt_le, ← Int64.toInt_inj, Int64.toInt_zero] at hexp ⊢
    omega
  by_cases hsh : shortid = sh
  · by_cases hlive : expiresAt = 0 ∨ now < expiresAt
    · rw [if_neg fun h => hdead.1 h hlive]
      simp [hsh, hlive]
    · rw [if_pos (hdead.2 hlive)]
      simp [hsh, hlive]
  · simp [hsh]

theorem covers_iff {f : GrantFile} {grantid shortid template pat : Str} {expiresAt : Int64}
    (hp : J.parse f.text = some (grantRecord grantid shortid [] template pat expiresAt)) (now : Int64) (sh command : Str) :
    Covers J now sh command f ↔
      shortid = sh ∧ (expiresAt = 0 ∨ now < expiresAt) ∧ (pat = lit "*" ∨ pat = command) := by
  constructor
  · rintro ⟨doc, e, hdoc, hsh, hexp, hlive, hpat⟩
    cases hp.symm.trans hdoc
    obtain rfl : expiresAt = e := Int64.toInt_inj.1 (Json.int.inj (Option.some.inj hexp))
    exact ⟨hsh, hlive, hpat⟩
  · rintro ⟨hsh, hlive, hpat⟩
    exact ⟨_, expiresAt, hp, hsh, rfl, hlive, hpat⟩

/-- A grant file ends the search exactly if it covers the command. -/
theorem tryFile_installed (hJ : J.RoundTrips) (hE : J.parse [] = none) {id : Str} {f : GrantFile} (h : Installed J id f)
    (sh command sid : Str) (now : Int64) (source : GrantSource) (out : GrantMatch) :
    (Covers J now sh command f ∧ tryFile J sh command sid now source f.text out = (true, ⟨true, true, some source⟩)) ∨
      (¬Covers J now sh command f ∧ tryFile J sh command sid now source f.text out = (false, out)) := by
  obtain ⟨grantid, shortid, template, pat, expiresAt, hexp, hv, hp⟩ := h.parse J hJ
  have hne : f.text ≠ [] := by
    intro hnil
    rw [hnil, hE] at hp
    cases hp
  have htry := tryFile_object J source out hne hp rfl rfl (grantCovers_grantRecord hexp hv sh command sid now)
  rw [covers_iff J hp, htry]
  by_cases hc : shortid = sh ∧ (expiresAt = 0 ∨ now < expiresAt) ∧ (pat = lit "*" ∨ pat = command)
  · exact .inl ⟨hc, by simp [hc]⟩
  · exact .inr ⟨hc, by simp [hc]⟩

theorem grantCovers_systemAdminRecord {shortid sid : Str} (hv : validShortid shortid = true) (hsid : sid ≠ []) (sh command live : Str)
    (hlive : live ≠ []) (now : Int64) :
    grantCovers sh command live now (systemAdminRecord shortid sid) = .ok (decide (shortid = sh ∧ sid = live)) := by
  have h1 : (systemAdminRecord shortid sid).value Json.asStr (lit "shortid") [] = .ok shortid := rfl
  have h2 : (systemAdminRecord shortid sid).value Json.asStr (lit "sid") [] = .ok sid := rfl
  have h3 : (systemAdminRecord shortid sid).value Json.asInt (lit "expires_at") 0 = .ok 0 := rfl
  have h4 : (systemAdminRecord shortid sid).value Json.asStr (lit "command_pattern") [] = .ok (lit "*") := rfl
  have hstar : shortid ≠ lit "*" := by
    rintro rfl
    exact absurd hv (by decide)
  simp only [grantCovers, h1, h2, h3, h4, bind, Except.bind, ne_eq, hsid, hlive, not_false_eq_true, true_and, hstar, and_true,
    pathGlobMatch]
  by_cases hsh : shortid = sh
  · by_cases hs : sid = live
    · simp [hsh, hs]
    · simp [hsh, hs]
  · simp [hsh]

/-- The administrator's file ends the search exactly if it names the account. -/
theorem tryFile_installedAdmin (hJ : J.RoundTrips) (hE : J.parse [] = none) {text : Str} (h : InstalledAdmin J text)
    (sh command live : Str) (hlive : live ≠ []) (now : Int64) (source : GrantSource) (out : GrantMatch) :
    (Names J sh live text ∧ tryFile J sh command live now source text out = (true, ⟨true, true, some source⟩)) ∨
      (¬Names J sh live text ∧ tryFile J sh command live now source text out = (false, out)) := by
  obtain ⟨shortid, sid, hv, hsid, hp⟩ := h.parse J hJ
  have hne : text ≠ [] := by
    intro hnil
    rw [hnil, hE] at hp
    cases hp
  have hnames : Names J sh live text ↔ shortid = sh ∧ sid = live := by
    constructor
    · rintro ⟨doc, hdoc, h⟩
      cases hp.symm.trans hdoc
      exact h
    · exact fun h => ⟨_, hp, h⟩
  have htry := tryFile_object J source out hne hp rfl rfl (grantCovers_systemAdminRecord hv hsid sh command live hlive now)
  rw [hnames, htry]
  by_cases hc : shortid = sh ∧ sid = live
  · exact .inl ⟨hc, by simp [hc]⟩
  · exact .inr ⟨hc, by simp [hc]⟩

/-! ## The search -/

/-- A search is elevated exactly if one of the files listed covers the command. -/
theorem scanGrants_elevated (hJ : J.RoundTrips) (hE : J.parse [] = none) {s : Svc}
    (hf : ∀ id f, s.grantFiles.lookup id = some f → Installed J id f) (sh command sid : Str) (now : Int64) (ids : List Str) :
    ((scanGrants J sh command sid now s ids {}).matched && (scanGrants J sh command sid now s ids {}).elevated) = true ↔
      ∃ id ∈ ids, ∃ f, s.grantFiles.lookup id = some f ∧ Covers J now sh command f := by
  induction ids with
  | nil => simp [scanGrants]
  | cons id ids ih =>
    simp only [scanGrants]
    split
    · next hnone =>
      rw [ih]
      simp [hnone]
    · next f hl =>
      rcases tryFile_installed J hJ hE (hf id f hl) sh command sid now (.grant id) {} with ⟨hc, htry⟩ | ⟨hc, htry⟩
      · rw [htry]
        simp only [Bool.and_self, true_iff]
        exact ⟨id, by simp, f, hl, hc⟩
      · rw [htry]
        simp only
        rw [ih]
        simp [hl, hc]

theorem findGrantFor_elevated (hJ : J.RoundTrips) (hE : J.parse [] = none) {o : RunAsOutcome} {s : Svc} {sh sid : Str} (command : Str)
    (hf : ∀ id f, s.grantFiles.lookup id = some f → Installed J id f) (ha : ∀ text, s.systemAdmin = some text → InstalledAdmin J text)
    (hsid : sidStringForUser o.grantSidFound (lit "mcp_user_" ++ sh) s = sid) (hne : sid ≠ [])
    (hl : ∀ id, id ∈ o.listing ↔ id ∈ s.grantFiles) :
    ((findGrantFor J o sh command s).matched && (findGrantFor J o sh command s).elevated) = true ↔
      (∃ text, s.systemAdmin = some text ∧ Names J sh sid text) ∨
        ∃ id f, s.grantFiles.lookup id = some f ∧ Covers J o.now sh command f := by
  have hscan := scanGrants_elevated J hJ hE hf sh command sid o.now o.listing
  have hlisted : (∃ id ∈ o.listing, ∃ f, s.grantFiles.lookup id = some f ∧ Covers J o.now sh command f) ↔
      ∃ id f, s.grantFiles.lookup id = some f ∧ Covers J o.now sh command f := by
    constructor
    · rintro ⟨id, -, f, h⟩
      exact ⟨id, f, h⟩
    · rintro ⟨id, f, h⟩
      exact ⟨id, (hl id).2 (Map.lookup_some_mem h.1), f, h⟩
  rw [hlisted] at hscan
  simp only [findGrantFor, hsid]
  cases hadmin : s.systemAdmin with
  | none =>
    have htry : tryFile J sh command sid o.now .systemAdmin ((none : Option Str).getD []) {} = (false, {}) := rfl
    rw [htry]
    simpa using hscan
  | some text =>
    rcases tryFile_installedAdmin J hJ hE (ha text hadmin) sh command sid hne o.now .systemAdmin {} with ⟨hn, htry⟩ | ⟨hn, htry⟩
    · simp [htry, hn]
    · simpa [htry, hn] using hscan

/-- A command of an account whose SID is the recorded one runs, elevated as the search says. -/
theorem handleRunAs_bound {o : RunAsOutcome} {req : Json} {s : Svc} {args : RunAsArgs} {sid : Str}
    (hargs : parseRunAs req = .ok (.ok args)) (hfound : o.sidFound = true)
    (hacc : s.accounts.lookup (lit "mcp_user_" ++ args.shortid) = some sid) (hsid : sid ≠ [])
    (hledger : lookupPersistedSid J (lit "mcp_user_" ++ args.shortid) s = [] ∨
      lookupPersistedSid J (lit "mcp_user_" ++ args.shortid) s = sid) :
    handleRunAs J o req s =
      let gm := findGrantFor J o args.shortid args.command s
      let elevated := gm.matched && gm.elevated
      match o.token with
      | .error err =>
        (some (.ok (refuse err), s.auditEvent (lit "run_as_token_failed") (lit "user=" ++ (lit "mcp_user_" ++ args.shortid) ++
          lit " elevated=" ++ writeNat elevated.toNat ++ lit " err=" ++ err)), none)
      | .ok () =>
        (o.spawned.map fun r => finishRun J o r (lit "mcp_user_" ++ args.shortid) args elevated s,
          some ⟨args.shortid, args.command, args.cwd, args.timeout, envOf req, elevated, gm.source⟩) := by
  have hname : usernameFromShortid args.shortid = lit "mcp_user_" ++ args.shortid := if_pos (parseRunAs_valid hargs)
  have hlive : sidStringForUser o.sidFound (lit "mcp_user_" ++ args.shortid) s = sid := by
    simp [sidStringForUser, hfound, hacc]
  have hbound : ¬(lookupPersistedSid J (lit "mcp_user_" ++ args.shortid) s ≠ [] ∧
      lookupPersistedSid J (lit "mcp_user_" ++ args.shortid) s ≠ sid) := by tauto
  cases htoken : o.token with
  | error err => simp only [handleRunAs, hargs, hname, hlive, hsid, if_false, hbound, htoken]
  | ok => simp only [handleRunAs, hargs, hname, hlive, hsid, if_false, hbound, htoken]

/-- A command runs elevated exactly if the administrator's file names its account
with the SID it has, or a live grant file is for the command; in whatever order
the grants directory is listed, the answer is the same. -/
theorem elevated_iff_covered (hJ : J.RoundTrips) (hE : J.parse [] = none) (o : RunAsOutcome) (req : Json) (s : Svc)
    (args : RunAsArgs) (sid : Str) (hargs : parseRunAs req = .ok (.ok args))
    (hfound : o.sidFound = true ∧ o.grantSidFound = true)
    (hacc : s.accounts.lookup (lit "mcp_user_" ++ args.shortid) = some sid) (hsid : sid ≠ [])
    (hledger : lookupPersistedSid J (lit "mcp_user_" ++ args.shortid) s = [] ∨
      lookupPersistedSid J (lit "mcp_user_" ++ args.shortid) s = sid)
    (hf : ∀ id f, s.grantFiles.lookup id = some f → Installed J id f)
    (ha : ∀ text, s.systemAdmin = some text → InstalledAdmin J text) (hl : ∀ id, id ∈ o.listing ↔ id ∈ s.grantFiles) :
    ((∃ p, (handleRunAs J o req s).2 = some p ∧ p.elevated = true) ↔ o.token = .ok () ∧
      ((∃ text, s.systemAdmin = some text ∧ Names J args.shortid sid text) ∨
        ∃ id f, s.grantFiles.lookup id = some f ∧ Covers J o.now args.shortid args.command f)) ∧
    ∀ listing, (∀ id, id ∈ listing ↔ id ∈ s.grantFiles) →
      (handleRunAs J { o with listing } req s).1 = (handleRunAs J o req s).1 ∧
        (handleRunAs J { o with listing } req s).2.map Spawn.elevated = (handleRunAs J o req s).2.map Spawn.elevated := by
  have hlive : sidStringForUser o.grantSidFound (lit "mcp_user_" ++ args.shortid) s = sid := by
    simp [sidStringForUser, hfound.2, hacc]
  have hfind := findGrantFor_elevated J hJ hE args.command hf ha hlive hsid hl
  refine ⟨?_, fun listing hlisting => ?_⟩
  · rw [← hfind, handleRunAs_bound J hargs hfound.1 hacc hsid hledger]
    rcases o.token with err | ⟨⟩
    · simp
    · simp
  · have hfind' := findGrantFor_elevated J hJ hE (o := { o with listing }) args.command hf ha hlive hsid hlisting
    rw [handleRunAs_bound J (o := { o with listing }) hargs hfound.1 hacc hsid hledger,
      handleRunAs_bound J hargs hfound.1 hacc hsid hledger]
    have hsame : ((findGrantFor J { o with listing } args.shortid args.command s).matched &&
        (findGrantFor J { o with listing } args.shortid args.command s).elevated) =
        ((findGrantFor J o args.shortid args.command s).matched &&
          (findGrantFor J o args.shortid args.command s).elevated) := by
      rw [Bool.eq_iff_iff, hfind, hfind']
    simp only [hsame]
    rcases o.token with err | ⟨⟩
    · exact ⟨rfl, rfl⟩
    · exact ⟨rfl, rfl⟩

end

theorem handleInstallSystemAdmin_grantFiles (J : JsonText) (o : InstallOutcome) (req : Json) (s : Svc) :
    (handleInstallSystemAdmin J o req s).2.grantFiles = s.grantFiles := by
  simp only [handleInstallSystemAdmin]
  repeat' split
  all_goals rfl

theorem handleInstallSystemAdmin_writes (J : JsonText) {o : InstallOutcome} {req : Json} {s : Svc} {shortid sid text : Str}
    (hreq : req.value Json.asStr (lit "shortid") [] = .ok shortid) (hv : validShortid shortid = true)
    (hsid : sidStringForUser o.sidFound (usernameFromShortid shortid) s = sid) (hne : sid ≠ []) (ho : o.written = true)
    (hdump : J.dump (some 2) (systemAdminRecord shortid sid) = .ok text) :
    (handleInstallSystemAdmin J o req s).2.systemAdmin = some text := by
  simp only [handleInstallSystemAdmin, hreq, hv, hsid, hne, hdump, ho, Bool.not_true, Bool.false_eq_true, if_false]
  rfl

/-- The administrator runs a command. -/
theorem elevated_iff_covered_admin :
    let admin := (handleInstallSystemAdmin jsonText {} (.obj [(lit "shortid", .str (lit "abcdefgh"))]) oneAccount).2
    let req := Json.obj [(lit "command", .str (lit "whoami")), (lit "shortid", .str (lit "abcdefgh"))]
    ∃ p, (handleRunAs jsonText { now := 1000, listing := [] } req admin).2 = some p ∧ p.elevated = true := by
  intro admin req
  have hargs : parseRunAs req = .ok (.ok ⟨lit "abcdefgh", lit "whoami", [], 0⟩) := rfl
  have hledger : lookupPersistedSid jsonText (lit "mcp_user_" ++ lit "abcdefgh") admin = [] := by decide +kernel
  have hgrants : admin.grantFiles = ∅ := handleInstallSystemAdmin_grantFiles ..
  obtain ⟨text, hdump⟩ := (jsonText_dumpsUtf8 (some 2) (systemAdminRecord (lit "abcdefgh") (lit "S-1-5-21-1"))).2 (by decide +kernel)
  have hadmin : admin.systemAdmin = some text :=
    handleInstallSystemAdmin_writes jsonText rfl (by decide +kernel) (by decide +kernel) (by decide +kernel) rfl hdump
  have h := elevated_iff_covered jsonText jsonText_roundTrips (by decide +kernel) { now := 1000, listing := [] } req admin
    ⟨lit "abcdefgh", lit "whoami", [], 0⟩ (lit "S-1-5-21-1") hargs ⟨rfl, rfl⟩ (by decide +kernel) (by decide +kernel) (.inl hledger)
    (by simp [hgrants]) (fun text ht => ⟨{}, _, oneAccount, rfl, ht⟩) (by simp [hgrants])
  exact h.1.2 ⟨rfl, .inl ⟨text, hadmin, _, (jsonText_roundTrips _ _ _ rfl hdump).1, rfl, rfl⟩⟩

end McpBridge.PrivWin
