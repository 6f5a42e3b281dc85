import McpBridge.PrivWin.Binding
import Mathlib.Data.List.TakeWhile
/-!
# Two checks of a grant record

The daemon checks a record with `validate_grant_record` before it sends it, and
says that the service applies the same check. `handle_install_grant` applies
another one. `Unchecked` is what it leaves out: a record it accepts passes the
daemon's check, and carries the id it is stored under, exactly if `Unchecked`
holds. In the other direction it refuses a pattern with `..`, which the daemon
renders.
-/

open McpBridge.Lib McpBridge.Core McpBridge.Grants

namespace McpBridge.PrivWin

/-- What the service does not look at. -/
structure Unchecked (grantid : Str) (record : Json) : Prop where
  grantid : record.get? (lit "grantid") = some (.str grantid)
  sid : sval record (lit "sid") = [] ∨ plausibleSid (sval record (lit "sid")) = true
  template : sval record (lit "template") ≠ [] ∧ (sval record (lit "template")).length ≤ 32
  length : (sval record (lit "command_pattern")).length ≤ 4096
  newline : ch '\n' ∉ sval record (lit "command_pattern")
  elevated : record.contains (lit "elevated") = true
  expires : ∀ v, record.get? (lit "expires_at") = some v → ∃ n, v = .int n
  absolute : sval record (lit "command_pattern") = lit "*" ∨ isAbsolutePattern (sval record (lit "command_pattern")) = true

/-! ## What the service checks -/

theorem value_asStr_sval {j : Json} {k x : Str} (h : j.value Json.asStr k [] = .ok x) : sval j k = x := by
  simp only [Json.value] at h
  split at h
  swap
  · cases h
  simp only [sval]
  split at h
  · next v hv =>
    rw [hv]
    cases v <;> cases h
    rfl
  · next hv =>
    cases h
    rw [hv]

theorem get_of_sval {j : Json} {k x : Str} (h : sval j k = x) (hx : x ≠ []) : j.get? k = some (.str x) := by
  simp only [sval] at h
  split at h
  · next s hs => rw [hs, h]
  · exact absurd h.symm hx

theorem value_asBool_get {j : Json} {k : Str} {dflt b : Bool} (h : j.value Json.asBool k dflt = .ok b) :
    j.contains k = true → ∃ b, j.get? k = some (.bool b) := by
  intro hc
  simp only [Json.value] at h
  split at h
  swap
  · cases h
  split at h
  · next v hv =>
    cases v <;> cases h
    exact ⟨_, hv⟩
  · next hv =>
    rw [Json.contains, hv] at hc
    cases hc

/-- What a record that is answered with ok has. -/
structure Checked (grantid : Str) (record : Json) : Prop where
  grantid : validGrantid grantid = true
  shortid : validShortid (sval record (lit "shortid")) = true
  pattern : validGrantPathSegment (sval record (lit "command_pattern")) = true
  elevated : record.contains (lit "elevated") = true → ∃ b, record.get? (lit "elevated") = some (.bool b)

theorem refuse_ne_okReply (msg : Str) : (.ok (refuse msg) : Except JsonError Json) ≠ .ok okReply := by
  intro h
  have hget : (refuse msg).get? (lit "ok") = okReply.get? (lit "ok") := by rw [Except.ok.inj h]
  cases hget

theorem handleInstallGrant_checked (J : JsonText) {o : InstallOutcome} {req : Json} {s : Svc} {grantid : Str}
    {fields : List (Str × Json)} (hg : req.get? (lit "grantid") = some (.str grantid))
    (hr : req.get? (lit "record") = some (.obj fields)) (hok : (handleInstallGrant J o req s).1 = .ok okReply) :
    Checked grantid (.obj fields) := by
  have hobj : req.isObject = true := by
    cases req <;> first | rfl | cases hg
  have hgrantid : req.value Json.asStr (lit "grantid") [] = .ok grantid := by
    simp only [Json.value, hobj, hg, if_true]
    rfl
  simp only [handleInstallGrant, hgrantid, hr] at hok
  split at hok
  · exact absurd hok (refuse_ne_okReply _)
  next hid =>
  split at hok
  · cases hok
  next shortid hsh =>
  split at hok
  · exact absurd hok (refuse_ne_okReply _)
  next hvalid =>
  split at hok
  · cases hok
  next pat hpat =>
  split at hok
  · exact absurd hok (refuse_ne_okReply _)
  next hseg =>
  split at hok
  · cases hok
  split at hok
  · exact absurd hok (refuse_ne_okReply _)
  split at hok
  · cases hok
  split at hok
  · exact absurd hok (refuse_ne_okReply _)
  split at hok
  · cases hok
  next elevated hel =>
  refine ⟨by simpa using hid, ?_, ?_, value_asBool_get hel⟩
  · rw [value_asStr_sval hsh]
    simpa using hvalid
  · rw [value_asStr_sval hpat]
    simpa using hseg

/-- A record that passes every check is stored. -/
theorem handleInstallGrant_accepts (J : JsonText) {o : InstallOutcome} {req : Json} {s : Svc} {grantid shortid pat recSid text : Str}
    {fields : List (Str × Json)} {elevated : Bool} (hg : req.value Json.asStr (lit "grantid") [] = .ok grantid)
    (hid : validGrantid grantid = true) (hr : req.get? (lit "record") = some (.obj fields))
    (hsh : (Json.obj fields).value Json.asStr (lit "shortid") [] = .ok shortid) (hvalid : validShortid shortid = true)
    (hpat : (Json.obj fields).value Json.asStr (lit "command_pattern") [] = .ok pat) (hseg : validGrantPathSegment pat = true)
    (hsid : (Json.obj fields).value Json.asStr (lit "sid") [] = .ok recSid)
    (hlive : ¬(recSid ≠ [] ∧ sidStringForUser o.sidFound (usernameFromShortid shortid) s ≠ [] ∧
      recSid ≠ sidStringForUser o.sidFound (usernameFromShortid shortid) s))
    (hdump : J.dump (some 2) (.obj fields) = .ok text) (ho : o.written = true)
    (hel : (Json.obj fields).value Json.asBool (lit "elevated") false = .ok elevated) :
    (handleInstallGrant J o req s).1 = .ok okReply := by
  simp only [handleInstallGrant, hg, hid, hr, hsh, hvalid, hpat, hseg, hsid, hlive, hdump, ho, hel, Bool.not_true,
    Bool.false_eq_true, if_false]

/-! ## What the daemon checks -/

theorem isAbsolutePattern_not_blank {pat : Str} (h : isAbsolutePattern pat = true) : pat.all (· = ch ' ') = false := by
  by_contra hb
  have hall : ∀ c ∈ pat, decide (c = ch ' ') = true := by simpa using hb
  rw [isAbsolutePattern, List.dropWhile_eq_nil_iff.2 hall] at h
  cases h

/-- The daemon's check, as the list of what it asks for. -/
theorem validateGrantRecord_iff (record : Json) :
    validateGrantRecord record = [] ↔
      record.isObject = true ∧ validGrantidHex (sval record (lit "grantid")) = true ∧
      validShortid (sval record (lit "shortid")) = true ∧
      (sval record (lit "sid") = [] ∨ plausibleSid (sval record (lit "sid")) = true) ∧
      (sval record (lit "template") ≠ [] ∧ (sval record (lit "template")).length ≤ 32) ∧
      (sval record (lit "command_pattern") ≠ [] ∧ (sval record (lit "command_pattern")).length ≤ 4096) ∧
      0 ∉ sval record (lit "command_pattern") ∧ ch '\n' ∉ sval record (lit "command_pattern") ∧
      (∃ b, record.get? (lit "elevated") = some (.bool b)) ∧
      (∀ v, record.get? (lit "expires_at") = some v → ∃ n, v = .int n) ∧
      (sval record (lit "command_pattern") = lit "*" ∨ isAbsolutePattern (sval record (lit "command_pattern")) = true) := by
  have step : ∀ {c : Prop} [Decidable c] {msg rest : Str} {P : Prop}, msg ≠ [] → (rest = [] ↔ P) →
      ((if c then msg else rest) = [] ↔ ¬c ∧ P) := by
    intro c _ msg rest P hmsg hrest
    split
    · next hc => simp [hc, hmsg]
    · next hc => simp [hc, hrest]
  unfold validateGrantRecord
  rw [step (by decide) (step (by decide) (step (by decide) (step (by decide) (step (by decide) (step (by decide)
    (step (by decide) (step (by decide) (P := (∃ b, record.get? (lit "elevated") = some (.bool b)) ∧
      (∀ v, record.get? (lit "expires_at") = some v → ∃ n, v = .int n) ∧
      (sval record (lit "command_pattern") = lit "*" ∨ isAbsolutePattern (sval record (lit "command_pattern")) = true)) ?_)))))))]
  · simp only [Bool.not_eq_true', Bool.not_eq_false, not_and_or, not_or, not_not, ne_eq, not_lt]
  · have hpattern : ((if sval record (lit "command_pattern") ≠ lit "*" ∧
          (sval record (lit "command_pattern")).all (· = ch ' ') then lit "command_pattern empty"
        else if sval record (lit "command_pattern") ≠ lit "*" ∧ !isAbsolutePattern (sval record (lit "command_pattern")) then
          lit "command_pattern must be absolute or '*'"
        else []) = []) ↔ sval record (lit "command_pattern") = lit "*" ∨
          isAbsolutePattern (sval record (lit "command_pattern")) = true := by
      rw [step (by decide) (step (by decide) (P := True) (by simp))]
      by_cases hs : sval record (lit "command_pattern") = lit "*"
      · simp [hs]
      · cases ha : isAbsolutePattern (sval record (lit "command_pattern")) with
        | false => simp [hs]
        | true => simp [hs, isAbsolutePattern_not_blank ha]
    split
    · next b hb =>
      split
      · next he =>
        rw [hpattern]
        simp [hb, he]
      · next n he =>
        rw [hpattern]
        simp [hb, he]
      · next v hne hni he =>
        refine iff_of_false (by decide) ?_
        rintro ⟨-, hexp, -⟩
        obtain ⟨n, rfl⟩ := hexp _ he
        exact hni n rfl
    · next hne =>
      refine iff_of_false (by decide) ?_
      rintro ⟨⟨b, hb⟩, -⟩
      exact hne b hb

/-- Of a record the service accepts, the daemon's check asks for what the service does not look at. -/
theorem validates_iff_unchecked {grantid : Str} {record : Json} (hobj : record.isObject = true) (hc : Checked grantid record) :
    validateGrantRecord record = [] ∧ sval record (lit "grantid") = grantid ↔ Unchecked grantid record := by
  have hseg := hc.pattern
  simp only [validGrantPathSegment, Bool.and_eq_true, decide_eq_true_eq, Bool.not_eq_true'] at hseg
  rw [validateGrantRecord_iff]
  constructor
  · rintro ⟨⟨-, hid, -, hsid, htemplate, ⟨-, hlen⟩, -, hnl, ⟨b, hel⟩, hexp, habs⟩, hgrantid⟩
    refine ⟨get_of_sval hgrantid ?_, hsid, htemplate, hlen, hnl, by simp [Json.contains, hel], hexp, habs⟩
    rintro rfl
    exact absurd hc.grantid (by decide)
  · intro h
    have hgrantid : sval record (lit "grantid") = grantid := by simp [sval, h.grantid]
    refine ⟨⟨hobj, ?_, hc.shortid, h.sid, h.template, ⟨hseg.1.1, h.length⟩, ?_, h.newline, hc.elevated h.elevated, h.expires,
      h.absolute⟩, hgrantid⟩
    · rw [hgrantid]
      exact hc.grantid
    · simpa using hseg.1.2

/-! ## What the daemon renders -/

theorem grantRecord_utf8 (grantid shortid sid template pat : Str) (expiresAt : Int64) :
    (grantRecord grantid shortid sid template pat expiresAt).utf8 =
      (validUtf8 pat && validUtf8 grantid && validUtf8 shortid && validUtf8 sid && validUtf8 template) := by
  have hkeys : ∀ k ∈ [lit "command_pattern", lit "elevated", lit "expires_at", lit "grantid", lit "shortid", lit "sid",
      lit "template"], validUtf8 k = true := by decide +kernel
  have hfields : grantRecord grantid shortid sid template pat expiresAt = .obj [(lit "command_pattern", .str pat),
      (lit "elevated", .bool true), (lit "expires_at", .int expiresAt.toInt), (lit "grantid", .str grantid),
      (lit "shortid", .str shortid), (lit "sid", .str sid), (lit "template", .str template)] := rfl
  simp [hfields, Json.utf8, Json.utf8Fields, hkeys, Bool.and_assoc]

theorem validUtf8_grantid {s : Str} (h : validGrantid s = true) : validUtf8 s = true := by
  apply validUtf8_ascii
  intro c hc
  simp only [validGrantid, isHexId, Bool.and_eq_true, List.all_eq_true] at h
  have hx := h.2 c hc
  simp only [isHexDigit, isDigit, Bool.or_eq_true, Bool.and_eq_true, decide_eq_true_eq] at hx
  rcases hx with ⟨-, hx⟩ | ⟨-, hx⟩
  · exact UInt8.lt_of_le_of_lt hx (by decide)
  · exact UInt8.lt_of_le_of_lt hx (by decide)

theorem validUtf8_shortid {s : Str} (h : validShortid s = true) : validUtf8 s = true := by
  apply validUtf8_ascii
  intro c hc
  simp only [validShortid, Bool.and_eq_true, List.all_eq_true] at h
  have hx := h.2 c hc
  simp only [isShortidChar, isLower, Bool.or_eq_true, Bool.and_eq_true, decide_eq_true_eq] at hx
  rcases hx with ⟨-, hx⟩ | ⟨-, hx⟩
  · exact UInt8.lt_of_le_of_lt hx (by decide)
  · exact UInt8.lt_of_le_of_lt hx (by decide)

/-- The service accepts a record of the daemon unless its pattern has `..`. -/
theorem handleInstallGrant_rendered (J : JsonText) (hu : J.DumpsUtf8) {o : InstallOutcome} (ho : o.written = true)
    {grantid shortid template pat : Str} {expiresAt : Int64}
    (hv : validateGrantRecord (grantRecord grantid shortid [] template pat expiresAt) = []) (s : Svc) :
    (handleInstallGrant J o (installRequest grantid (grantRecord grantid shortid [] template pat expiresAt)) s).1 = .ok okReply ↔
      ¬lit ".." <:+: pat ∧ validUtf8 template = true ∧ validUtf8 pat = true := by
  obtain ⟨-, hid, hsh, -, -, ⟨hne, -⟩, hnul, -⟩ := (validateGrantRecord_iff _).1 hv
  replace hid : validGrantid grantid = true := hid
  replace hsh : validShortid shortid = true := hsh
  replace hne : pat ≠ [] := hne
  replace hnul : 0 ∉ pat := hnul
  have hutf8 : (grantRecord grantid shortid [] template pat expiresAt).utf8 = true ↔
      validUtf8 template = true ∧ validUtf8 pat = true := by
    rw [grantRecord_utf8, validUtf8_grantid hid, validUtf8_shortid hsh]
    simp [validUtf8, and_comm]
  have hseg : validGrantPathSegment pat = decide (¬lit ".." <:+: pat) := by
    simp [validGrantPathSegment, hne, hnul]
  obtain ⟨fields, hr⟩ : ∃ fields, grantRecord grantid shortid [] template pat expiresAt = .obj fields := ⟨_, rfl⟩
  have hget : (installRequest grantid (grantRecord grantid shortid [] template pat expiresAt)).get? (lit "record") =
    some (grantRecord grantid shortid [] template pat expiresAt) := rfl
  have hgrantid : (installRequest grantid (grantRecord grantid shortid [] template pat expiresAt)).value Json.asStr
    (lit "grantid") [] = .ok grantid := rfl
  have h1 : (grantRecord grantid shortid [] template pat expiresAt).value Json.asStr (lit "shortid") [] = .ok shortid := rfl
  have h2 : (grantRecord grantid shortid [] template pat expiresAt).value Json.asStr (lit "command_pattern") [] = .ok pat := rfl
  have h3 : (grantRecord grantid shortid [] template pat expiresAt).value Json.asStr (lit "sid") [] = .ok [] := rfl
  have h4 : (grantRecord grantid shortid [] template pat expiresAt).value Json.asBool (lit "elevated") false = .ok true := rfl
  have hdump := hu (some 2) (grantRecord grantid shortid [] template pat expiresAt)
  rw [hr] at hget hgrantid h1 h2 h3 h4 hdump hutf8 ⊢
  simp only [handleInstallGrant, hgrantid, hid, hget, h1, hsh, h2, hseg, h3, h4, ho, Bool.not_true, Bool.false_eq_true, if_false,
    ne_eq, not_true_eq_false, false_and]
  by_cases hdots : lit ".." <:+: pat
  · refine iff_of_false ?_ fun h => h.1 hdots
    simp only [hdots, not_true_eq_false, decide_false, Bool.not_false, if_true]
    exact refuse_ne_okReply _
  · cases hd : J.dump (some 2) (.obj fields) with
    | error e =>
      refine iff_of_false (by simp [hdots]) fun h => ?_
      obtain ⟨text, htext⟩ := hdump.2 (hutf8.2 h.2)
      rw [hd] at htext
      cases htext
    | ok text => exact iff_of_true (by simp [hdots]) ⟨hdots, hutf8.1 (hdump.1 ⟨text, hd⟩)⟩

/-- The record is accepted, sent with its own id. -/
def Accepted (J : JsonText) (o : InstallOutcome) (s : Svc) (grantid : Str) (record : Json) : Prop :=
  (handleInstallGrant J o (installRequest grantid record) s).1 = .ok okReply

/-- A record the service accepts passes the daemon's check and carries its id
exactly if it passes what the service does not check; and of the records the
daemon renders the service accepts those whose pattern has no `..` and whose
texts can be dumped. -/
theorem install_check_agrees_iff (J : JsonText) (hu : J.DumpsUtf8) :
    (∀ (o : InstallOutcome) (req : Json) (s : Svc) (grantid : Str) (fields : List (Str × Json)),
      req.get? (lit "grantid") = some (.str grantid) → req.get? (lit "record") = some (.obj fields) →
      (handleInstallGrant J o req s).1 = .ok okReply →
      (validateGrantRecord (.obj fields) = [] ∧ sval (.obj fields) (lit "grantid") = grantid ↔
        Unchecked grantid (.obj fields))) ∧
    (∀ (o : InstallOutcome) (s : Svc) (regexMatch : Str → Str → RegexResult) (grantid shortid : Str) (tmpl : GrantTemplate)
      (args : Json) (command : Str) (expiresAt : Int64) (record : Json), o.written = true →
      renderCommand regexMatch tmpl args = .ok command →
      renderWindowsGrantRecord regexMatch grantid shortid [] tmpl args expiresAt = .ok record →
      (Accepted J o s grantid record ↔ ¬lit ".." <:+: command ∧ validUtf8 tmpl.name = true ∧ validUtf8 command = true)) ∧
    (∀ (o : InstallOutcome) (s : Svc) (grantid shortid : Str) (expiresAt : Int64) (record : Json), o.written = true →
      renderWindowsFullAdminRecord grantid shortid [] expiresAt = .ok record → Accepted J o s grantid record) := by
  refine ⟨?_, ?_, ?_⟩
  · intro o req s grantid fields hg hr hok
    exact validates_iff_unchecked rfl (handleInstallGrant_checked J hg hr hok)
  · intro o s regexMatch grantid shortid tmpl args command expiresAt record ho hcommand hrender
    obtain ⟨-, -, hrender⟩ := bind_eq_ok.1 hrender
    obtain ⟨command', hcommand', hrender⟩ := bind_eq_ok.1 hrender
    cases hcommand.symm.trans hcommand'
    obtain ⟨rfl, hv⟩ := checkRecord_valid hrender
    exact handleInstallGrant_rendered J hu ho hv s
  · intro o s grantid shortid expiresAt record ho hrender
    obtain ⟨-, -, hrender⟩ := bind_eq_ok.1 hrender
    obtain ⟨rfl, hv⟩ := checkRecord_valid hrender
    exact (handleInstallGrant_rendered J hu ho hv s).2 (by decide +kernel)

/-- A service with one account. -/
def oneAccount : Svc where
  accounts := (∅ : Map Str Str).insert (lit "mcp_user_abcdefgh") (lit "S-1-5-21-1")
  usedSids := [lit "S-1-5-21-1"]
  userSids := none
  grantFiles := ∅
  systemAdmin := none
  audit := []
  ioLog := []

theorem renderWindowsFullAdminRecord_eq {grantid shortid : Str} {expiresAt : Int64} (hids : checkIds grantid shortid [] = .ok ())
    (hv : validateGrantRecord (grantRecord grantid shortid [] kFullAdminTemplate (lit "*") expiresAt) = []) :
    renderWindowsFullAdminRecord grantid shortid [] expiresAt =
      .ok (grantRecord grantid shortid [] kFullAdminTemplate (lit "*") expiresAt) := by
  simp only [renderWindowsFullAdminRecord, hids, bind, Except.bind, checkRecord, hv, if_true]

theorem renderWindowsGrantRecord_eq {regexMatch : Str → Str → RegexResult} {grantid shortid command : Str} {tmpl : GrantTemplate}
    {args : Json} {expiresAt : Int64} (hids : checkIds grantid shortid [] = .ok ())
    (hcommand : renderCommand regexMatch tmpl args = .ok command)
    (hv : validateGrantRecord (grantRecord grantid shortid [] tmpl.name command expiresAt) = []) :
    renderWindowsGrantRecord regexMatch grantid shortid [] tmpl args expiresAt =
      .ok (grantRecord grantid shortid [] tmpl.name command expiresAt) := by
  simp only [renderWindowsGrantRecord, hids, bind, Except.bind, hcommand, checkRecord, hv, if_true]

theorem install_check_agrees_full_admin :
    Accepted jsonText {} oneAccount (lit "0123456789abcdef")
      (grantRecord (lit "0123456789abcdef") (lit "abcdefgh") [] kFullAdminTemplate (lit "*") 0) := by
  have hrender : renderWindowsFullAdminRecord (lit "0123456789abcdef") (lit "abcdefgh") [] 0 = .ok _ :=
    renderWindowsFullAdminRecord_eq (by decide +kernel) (by decide +kernel)
  exact (install_check_agrees_iff jsonText jsonText_dumpsUtf8).2.2 {} oneAccount _ _ 0 _ rfl hrender

/-- The service stores a record without id, template or validity, for a relative
command; and it refuses one that the daemon renders for a path with `..`. -/
theorem install_check_differs :
    let bare := Json.obj [(lit "command_pattern", .str (lit "calc")), (lit "shortid", .str (lit "abcdefgh"))]
    let tmpl : GrantTemplate := ⟨lit "log", [], lit "/bin/cat", [lit "/var/log/../log/syslog"], ∅⟩
    let rendered := grantRecord (lit "0123456789abcdef") (lit "abcdefgh") [] (lit "log") (lit "/bin/cat /var/log/../log/syslog") 0
    Accepted jsonText {} oneAccount (lit "0123456789abcdef") bare ∧ validateGrantRecord bare ≠ [] ∧
      renderWindowsGrantRecord (fun _ _ => .matched) (lit "0123456789abcdef") (lit "abcdefgh") [] tmpl (.obj []) 0 =
        .ok rendered ∧ ¬Accepted jsonText {} oneAccount (lit "0123456789abcdef") rendered := by
  intro bare tmpl rendered
  have hrendered : validateGrantRecord rendered = [] := by decide +kernel
  refine ⟨?_, by decide +kernel, ?_, fun h => ?_⟩
  · have hshortid : bare.value Json.asStr (lit "shortid") [] = .ok (lit "abcdefgh") := by decide +kernel
    have hpat : bare.value Json.asStr (lit "command_pattern") [] = .ok (lit "calc") := by decide +kernel
    have hsid : bare.value Json.asStr (lit "sid") [] = .ok [] := by decide +kernel
    have hel : bare.value Json.asBool (lit "elevated") false = .ok false := by decide +kernel
    obtain ⟨text, hdump⟩ := (jsonText_dumpsUtf8 (some 2) bare).2 (by decide +kernel)
    exact handleInstallGrant_accepts jsonText rfl (by decide +kernel) rfl hshortid (by decide +kernel) hpat (by decide +kernel)
      hsid (fun h => h.1 rfl) hdump rfl hel
  · exact renderWindowsGrantRecord_eq (by decide +kernel) (by decide +kernel) hrendered
  · have hdots := ((handleInstallGrant_rendered jsonText jsonText_dumpsUtf8 rfl hrendered oneAccount).1 h).1
    exact hdots (by decide +kernel)

end McpBridge.PrivWin
