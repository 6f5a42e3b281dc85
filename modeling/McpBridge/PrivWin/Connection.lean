import McpBridge.Lib.JsonLength
import McpBridge.PrivWin.Replies
/-!
# A connection of the service (`priv_win/main.cpp`)

`handle_connection` reads one line, dispatches it, and writes one line back. The
parse and the handlers run inside a `try`; the dump of the reply does not. So a
reply that cannot be dumped ends the service, and one that is longer than a
response may be is not sent. Two replies can be such: the output of a command is
arbitrary bytes, and so is what the parser quotes of a line it rejects. And there
is no reply at all while a command is waited for that cannot end. `Reportable` is
the exact condition.
-/

open McpBridge.Lib McpBridge.Core McpBridge.Grants

namespace McpBridge.PrivWin

/-- What a handler throws is caught, and its text is the reply. -/
def replyOf (r : Except JsonError Json) : Json :=
  match r with
  | .ok resp => resp
  | .error e => refuse (lit "parse: " ++ e.what)

section
variable (J : JsonText) (oem : Oem) (what : Str → Str)

/-- The reply to a line, where the request is ever done with. `what` is the text of a parse error. -/
def answerLine (a : Answers) (line : Str) (h : Host) : Option (Json × Host) :=
  match J.parse line with
  | none => some (refuse (lit "parse: " ++ what line), h)
  | some req => (dispatch J oem a req h).map fun (r, h) => (replyOf r, h)

/-- The dump stands outside the `try`. -/
def sendReply (written : Bool) (resp : Json) : Except JsonError Pipe :=
  match J.dump none resp with
  | .error e => .error e
  | .ok body => .ok (Service.writeLine written body).2

/-- What is written to the pipe, or the exception that leaves the thread. -/
def handleConnection (a : Answers) (written : Bool) (pipe : Pipe) (h : Host) : Option (Except JsonError Pipe × Host) :=
  match Service.readLine pipe with
  | (false, _) => some (.ok [], h)
  | (true, line) => (answerLine J oem what a line h).map fun (resp, h) => (sendReply J written resp, h)

end

/-- One response line, within the limit. -/
def Answered (r : Option (Except JsonError Pipe)) : Prop :=
  ∃ body, r = some (.ok [body ++ lit "\n"]) ∧ ch '\n' ∉ body ∧ (body ++ lit "\n").length ≤ kMaxResponseBytes

/-! ## The exact condition -/

/-- The bytes of the line that reports a process. -/
def reportLength (r : SpawnResult) : Nat :=
  41 + (if r.ok then 4 else 5) + (writeInt r.exitCode).length + (writeStr r.stderr).length + (writeStr r.stdout).length

section
variable (J : JsonText) (what : Str → Str)

/-- The request runs a command: its account has the SID on record, there is a
token for it, and the process was created. -/
structure Runs (o : RunOutcome) (req : Json) (s : Svc) (args : RunAsArgs) : Prop where
  op : req.get? (lit "op") = some (.str (lit "run_as"))
  parsed : parseRunAs req = .ok (.ok args)
  account : sidStringForUser o.sidFound (usernameFromShortid args.shortid) s ≠ []
  bound : ¬(lookupPersistedSid J (usernameFromShortid args.shortid) s ≠ [] ∧
    lookupPersistedSid J (usernameFromShortid args.shortid) s ≠ sidStringForUser o.sidFound (usernameFromShortid args.shortid) s)
  token : acquireTokenFor args.shortid (o.elevated J args s) o.token = .ok ()
  started : o.spawn.Started

/-- A command comes to an end, and its output is UTF-8 and fits into a response once
it is escaped; or the record of an elevated run already fails, which is caught. -/
def Reports (o : RunOutcome) (args : RunAsArgs) (s : Svc) : Prop :=
  let c := o.spawn.child
  let out := c.kept args.timeout
  c.Returns args.timeout ∧
    ((o.elevated J args s = true ∧ o.logOpened = true ∧ validUtf8 (out.take 65536) = false) ∨
      validUtf8 out = true ∧
        reportLength ⟨true, intOf (c.verdict args.timeout).1, out, (c.verdict args.timeout).2⟩ ≤ kMaxResponseBytes)

/-- The line is rejected with a text that can be sent, or any command it runs can be reported. -/
def Reportable (a : Answers) (line : Str) (h : Host) : Prop :=
  match J.parse line with
  | none => validUtf8 (what line) = true ∧ (writeStr (lit "parse: " ++ what line)).length + 22 ≤ kMaxResponseBytes
  | some req => ∀ args, Runs J a.run req h.svc args → Reports J a.run args h.svc

end

/-! ## The reply -/

section
variable {J : JsonText} (hJ : J.Documented)
include hJ

/-- A reply is answered exactly if it can be dumped and fits. -/
theorem answered_iff {resp : Json} (hp : resp.plain = true) :
    Answered (some (sendReply J true resp)) ↔
      resp.utf8 = true ∧ (write none 0 resp).length < kMaxResponseBytes := by
  have hone : (lit "\n").length = 1 := rfl
  rw [sendReply]
  cases hd : J.dump none resp with
  | error e =>
    refine iff_of_false ?_ ?_
    · rintro ⟨body, hbody, -⟩
      cases hbody
    · rintro ⟨hutf8, -⟩
      obtain ⟨t, ht⟩ := (hJ.dumpsUtf8 none resp).2 hutf8
      rw [hd] at ht
      cases ht
  | ok body =>
    have hbody := hJ.compact resp body hp hd
    subst hbody
    have hutf8 := (hJ.dumpsUtf8 none resp).1 ⟨_, hd⟩
    simp only [Service.writeLine, if_true, List.length_append, hone]
    split
    · next hlong =>
      refine iff_of_false ?_ ?_
      · rintro ⟨body, hbody, -⟩
        cases hbody
      · rintro ⟨-, hfits⟩
        omega
    · next hfits =>
      refine iff_of_true ⟨_, rfl, write_oneLine 0 resp, ?_⟩ ⟨hutf8, by omega⟩
      rw [List.length_append, hone]
      omega

omit hJ in
theorem field_utf8 {l : List (Str × Json)} {k : Str} {v : Json} (hl : Json.utf8Fields l = true) (h : Json.field? k l = some v) :
    v.utf8 = true := by
  induction l with
  | nil => cases h
  | cons kv l ih =>
    obtain ⟨k', v'⟩ := kv
    simp only [Json.utf8Fields, Bool.and_eq_true] at hl
    simp only [Json.field?] at h
    split at h
    · cases h
      exact hl.1.2
    · exact ih hl.2 h

omit hJ in
theorem value_asStr_utf8 {j : Json} {k x : Str} (hj : j.utf8 = true) (h : j.value Json.asStr k [] = .ok x) :
    validUtf8 x = true := by
  have hx := value_asStr_sval h
  by_cases hnil : x = []
  · subst hnil
    rfl
  · have hget := get_of_sval hx hnil
    cases j with
    | obj l => exact field_utf8 hj hget
    | _ => cases hget

omit hJ in
theorem parseRunAs_utf8 {req : Json} {args : RunAsArgs} (hreq : req.utf8 = true) (h : parseRunAs req = .ok (.ok args)) :
    validUtf8 args.command = true ∧ validUtf8 args.cwd = true := by
  obtain ⟨shortid, -, h⟩ := bind_eq_ok.1 h
  split at h
  · cases h
  obtain ⟨command, hcommand, h⟩ := bind_eq_ok.1 h
  split at h
  · cases h
  obtain ⟨cwd, hcwd, h⟩ := bind_eq_ok.1 h
  obtain ⟨timeout, -, h⟩ := bind_eq_ok.1 h
  cases h
  exact ⟨value_asStr_utf8 hreq hcommand, value_asStr_utf8 hreq hcwd⟩

omit hJ in
theorem stamp_utf8 (t : SystemTime) : validUtf8 t.stamp = true := by
  have hpad : ∀ (w : Nat) (n : UInt16), ∀ c ∈ padded w n, c < 0x80 := by
    intro w n c hc
    rcases List.mem_append.1 hc with hc | hc
    · rw [List.eq_of_mem_replicate hc]
      decide
    · exact digit_ascii (writeNat_digits _ c hc)
  have hlit : ∀ l ∈ [lit "-", lit "T", lit ":", lit "Z"], ∀ c ∈ l, c < 0x80 := by
    have hall : [lit "-", lit "T", lit ":", lit "Z"].all (fun l => l.all (· < 0x80)) = true := by decide
    simpa only [List.all_eq_true, decide_eq_true_eq] using hall
  apply validUtf8_ascii
  intro c hc
  have hall := List.mem_of_mem_take hc
  simp only [List.mem_append] at hall
  rcases hall with (((((((((((hc | hc) | hc) | hc) | hc) | hc) | hc) | hc) | hc) | hc) | hc) | hc)
  all_goals first
    | exact hpad _ _ c hc
    | exact hlit _ (by simp) c hc

omit hJ in
/-- The record of an elevated run can be dumped exactly if the output it quotes can. -/
theorem ioRecord_utf8 {o : RunAsOutcome} {r : SpawnResult} {username : Str} {args : RunAsArgs} (ht : validUtf8 o.time = true)
    (hu : validUtf8 username = true) (ha : validUtf8 args.command = true ∧ validUtf8 args.cwd = true) :
    (ioRecord o r username args).utf8 = validUtf8 (r.stdout.take 65536) := by
  have hfields : ioRecord o r username args = .obj [(lit "command", .str args.command), (lit "cwd", .str args.cwd),
      (lit "exit_code", .int r.exitCode), (lit "stdout", .str (r.stdout.take 65536)), (lit "ts", .str o.time),
      (lit "user", .str username)] := rfl
  have hkeys : ∀ k ∈ [lit "command", lit "cwd", lit "exit_code", lit "stdout", lit "ts", lit "user"], validUtf8 k = true := by
    have hsub : [lit "command", lit "cwd", lit "exit_code", lit "stdout", lit "ts", lit "user"] ⊆ replyKeys := by simp [replyKeys]
    exact fun k hk => key_utf8 (hsub hk)
  simp only [List.mem_cons, List.not_mem_nil, or_false, forall_eq_or_imp, forall_eq] at hkeys
  obtain ⟨h1, h2, h3, h4, h5, h6⟩ := hkeys
  simp only [hfields, Json.utf8, Json.utf8Fields, h1, h2, h3, h4, h5, h6, ht, hu, ha.1, ha.2, Bool.true_and, Bool.and_true]

/-- The reply to a command that ran. -/
def report (r : SpawnResult) : Json :=
  .ofFields [(lit "ok", .bool r.ok), (lit "exit_code", .int r.exitCode), (lit "stdout", .str r.stdout), (lit "stderr", .str r.stderr)]

omit hJ in
theorem report_fields (r : SpawnResult) : report r = .obj [(lit "exit_code", .int r.exitCode), (lit "ok", .bool r.ok),
    (lit "stderr", .str r.stderr), (lit "stdout", .str r.stdout)] := rfl

omit hJ in
theorem report_utf8 {r : SpawnResult} (h : validUtf8 r.stderr = true) : (report r).utf8 = validUtf8 r.stdout := by
  have hkeys : ∀ k ∈ [lit "exit_code", lit "ok", lit "stderr", lit "stdout"], validUtf8 k = true := by
    have hsub : [lit "exit_code", lit "ok", lit "stderr", lit "stdout"] ⊆ replyKeys := by simp [replyKeys]
    exact fun k hk => key_utf8 (hsub hk)
  simp only [List.mem_cons, List.not_mem_nil, or_false, forall_eq_or_imp, forall_eq] at hkeys
  obtain ⟨h1, h2, h3, h4⟩ := hkeys
  simp only [report_fields, Json.utf8, Json.utf8Fields, h1, h2, h3, h4, h, Bool.true_and, Bool.and_true]

omit hJ in
theorem report_length (r : SpawnResult) : (write none 0 (report r)).length + 1 = reportLength r := by
  have hkeys : (writeStr (lit "exit_code")).length = 11 ∧ (writeStr (lit "ok")).length = 4 ∧
      (writeStr (lit "stderr")).length = 8 ∧ (writeStr (lit "stdout")).length = 8 ∧ (lit "true").length = 4 ∧
      (lit "false").length = 5 := by decide
  obtain ⟨h1, h2, h3, h4, h5, h6⟩ := hkeys
  rw [report_fields, reportLength]
  obtain ⟨ok, exitCode, stdout, stderr⟩ := r
  cases ok
  all_goals
    simp only [write, writeFields, newline, colon, pad, List.length_cons, List.length_append, List.length_nil, h1, h2, h3, h4, h5,
      h6, Option.isSome_none, Bool.false_eq_true, if_false, if_true, Nat.add_zero]
    omega

omit hJ in
/-- The result of the process, as the reply gives it. -/
theorem finishRun_reply (o : RunAsOutcome) (r : SpawnResult) (username : Str) (args : RunAsArgs) (elevated : Bool) (s : Svc) :
    replyOf (finishRun J o r username args elevated s).1 =
      if elevated ∧ o.logOpened then
        match J.dump none (ioRecord o r username args) with
        | .error e => refuse (lit "parse: " ++ e.what)
        | .ok _ => report r
      else report r := by
  simp only [finishRun]
  split
  · cases J.dump none (ioRecord o r username args) <;> rfl
  · rfl

/-- A command that ran is answered exactly if it can be reported. -/
theorem finishRun_answers {o : RunAsOutcome} {r : SpawnResult} {username : Str} {args : RunAsArgs} (elevated : Bool) (s : Svc)
    (herr : validUtf8 r.stderr = true) (ht : validUtf8 o.time = true) (hu : validUtf8 username = true)
    (ha : validUtf8 args.command = true ∧ validUtf8 args.cwd = true) :
    let resp := replyOf (finishRun J o r username args elevated s).1
    resp.plain = true ∧ (resp.utf8 = true ∧ (write none 0 resp).length < kMaxResponseBytes ↔
      (elevated = true ∧ o.logOpened = true ∧ validUtf8 (r.stdout.take 65536) = false) ∨
        validUtf8 r.stdout = true ∧ reportLength r ≤ kMaxResponseBytes) := by
  intro resp
  have hio := ioRecord_utf8 (o := o) (r := r) ht hu ha
  have hreport : (report r).utf8 = true ∧
      (write none 0 (report r)).length < kMaxResponseBytes ↔
      validUtf8 r.stdout = true ∧ reportLength r ≤ kMaxResponseBytes := by
    rw [report_utf8 herr, ← report_length]
    exact Iff.rfl
  have hresp : resp = _ := finishRun_reply o r username args elevated s
  rw [hresp]
  split
  · next hlog =>
    cases hd : J.dump none (ioRecord o r username args) with
    | error e =>
      -- The exception is caught, and its text is the reply.
      have hno : (ioRecord o r username args).utf8 ≠ true := by
        intro hyes
        obtain ⟨t, ht⟩ := (hJ.dumpsUtf8 none _).2 hyes
        rw [hd] at ht
        cases ht
      have hparse : Text 100 (lit "parse: ") := fixed_text (by simp [fixedTexts])
      have hsend := sendable_refuse ((hparse.append (dump_error hJ hd)).mono (by decide))
      rw [hio] at hno
      refine ⟨hsend.plain, iff_of_true ⟨hsend.utf8, hsend.fits⟩ (.inl ⟨hlog.1, hlog.2, ?_⟩)⟩
      simpa using hno
    | ok line =>
      have hyes := (hJ.dumpsUtf8 none _).1 ⟨_, hd⟩
      rw [hio] at hyes
      refine ⟨rfl, hreport.trans ?_⟩
      simp [hyes]
  · next hlog =>
    refine ⟨rfl, hreport.trans ⟨.inr, ?_⟩⟩
    rintro (⟨h1, h2, -⟩ | h)
    · exact absurd ⟨h1, h2⟩ hlog
    · exact h

/-- Where no process was created, that is the answer. -/
theorem finishRun_replies {o : RunAsOutcome} {err username : Str} {args : RunAsArgs} (elevated : Bool) (s : Svc)
    (herr : Text 160 err) : Replies (finishRun J o { stderr := err } username args elevated s).1 := by
  have hlen := herr.length_writeStr
  have hlengths : (writeInt (-1)).length = 2 ∧ (writeStr []).length = 2 := by decide
  obtain ⟨h1, h2⟩ := hlengths
  have hsend : Sendable (report { stderr := err }) := by
    refine ⟨rfl, (report_utf8 herr.1).trans rfl, ?_⟩
    have hreport := report_length { stderr := err }
    simp only [reportLength, h1, h2, Bool.false_eq_true, if_false] at hreport
    rw [kMaxResponseBytes]
    omega
  simp only [finishRun]
  split
  · split
    · next e he => exact dump_error hJ he
    · exact hsend
  · exact hsend

/-- A request that runs no command is answered. -/
theorem handleRunAs_replies {o : RunOutcome} {req : Json} {s : Svc} (hop : req.get? (lit "op") = some (.str (lit "run_as")))
    (hno : ∀ args, ¬Runs J o req s args) : ∃ d, (handleRunAs J (o.answers J req s) req s).1 = some d ∧ Replies d.1 := by
  have hparse := parseRunAs_text req
  simp only [handleRunAs]
  split
  · next e he => rw [he] at hparse; exact ⟨_, rfl, hparse⟩
  · next msg he => rw [he] at hparse; exact ⟨_, rfl, replies_refuse hparse⟩
  next args he =>
  split
  · exact ⟨_, rfl, replies_refuse_fixed (by simp [fixedTexts])⟩
  next hsid =>
  split
  · exact ⟨_, rfl, replies_refuse_fixed (by simp [fixedTexts])⟩
  next hbound =>
  have htoken : (o.answers J req s).token = acquireTokenFor args.shortid (o.elevated J args s) o.token := by
    simp only [RunOutcome.answers, he]
  have hspawned : (o.answers J req s).spawned = spawnWithToken true args.timeout o.spawn := by
    simp only [RunOutcome.answers, he]
  split
  · next err herr =>
    rw [htoken] at herr
    exact ⟨_, rfl, replies_refuse (acquireTokenFor_text (parseRunAs_valid he) herr)⟩
  · next hok =>
    rw [htoken] at hok
    have hstarted : ¬o.spawn.Started := fun hstarted => hno args ⟨hop, he, hsid, hbound, hok, hstarted⟩
    obtain ⟨err, hr⟩ := spawnWithToken_refused hstarted args.timeout
    simp only [hspawned, hr, Option.map_some]
    exact ⟨_, rfl, finishRun_replies hJ _ s (spawnWithToken_stderr hr)⟩

omit hJ in
/-- A request that runs a command. -/
theorem handleRunAs_runs {o : RunOutcome} {req : Json} {s : Svc} {args : RunAsArgs} (h : Runs J o req s args) :
    (handleRunAs J (o.answers J req s) req s).1 = (spawnWithToken true args.timeout o.spawn).map fun r =>
      finishRun J (o.answers J req s) r (usernameFromShortid args.shortid) args (o.elevated J args s) s := by
  have htoken : (o.answers J req s).token = .ok () := by
    simp only [RunOutcome.answers, h.parsed]
    exact h.token
  have hspawned : (o.answers J req s).spawned = spawnWithToken true args.timeout o.spawn := by
    simp only [RunOutcome.answers, h.parsed]
  have hsid : (o.answers J req s).sidFound = o.sidFound := rfl
  have hfind : findGrantFor J (o.answers J req s) args.shortid args.command s =
      findGrantFor J { now := o.now, grantSidFound := o.grantSidFound, listing := o.listing } args.shortid args.command s := rfl
  simp only [handleRunAs, h.parsed, hsid, h.account, if_false, h.bound, htoken, hspawned, hfind, RunOutcome.elevated]

omit hJ in
theorem replies_ite {c : Prop} [Decidable c] {x y : Option (Except JsonError Json × Host)} (hx : c → ∃ d, x = some d ∧ Replies d.1)
    (hy : ¬c → ∃ d, y = some d ∧ Replies d.1) : ∃ d, (if c then x else y) = some d ∧ Replies d.1 := by
  split
  · next hc => exact hx hc
  · next hc => exact hy hc

/-- Every request but those that run a command is answered. -/
theorem dispatch_replies (oem : Oem) {a : Answers} (ha : a.WellFormed) {req : Json} {h : Host} (hs : h.svc.PlausibleSids)
    (hop : ∀ op, req.get? (lit "op") = some (.str op) → Text 400000 op) (hno : ∀ args, ¬Runs J a.run req h.svc args) :
    ∃ d, dispatch J oem a req h = some d ∧ Replies d.1 := by
  have hmissing : Replies (.ok (refuse (lit "missing op"))) := replies_refuse_fixed (by simp [fixedTexts])
  rw [dispatch]
  cases hget : req.get? (lit "op") with
  | none => exact ⟨_, rfl, hmissing⟩
  | some v =>
    cases v with
    | str op =>
      refine replies_ite (fun _ => ⟨_, rfl, handleUseradd_replies hJ ha req hs⟩) fun _ => ?_
      refine replies_ite (fun _ => ⟨_, rfl, handleUserdel_replies ha req h.svc⟩) fun _ => ?_
      refine replies_ite (fun _ => ⟨_, rfl, handleInstallGrant_replies hJ a.install req h.svc⟩) fun _ => ?_
      refine replies_ite (fun _ => ⟨_, rfl, handleRevokeGrant_replies a.removed req h.svc⟩) fun _ => ?_
      refine replies_ite (fun _ => ⟨_, rfl, handleInstallSystemAdmin_replies hJ a.install req h.svc⟩) fun _ => ?_
      refine replies_ite (fun _ => ⟨_, rfl, replies_okReply⟩) fun _ => ?_
      refine replies_ite (fun _ => ⟨_, rfl, forAccount_replies fun _ => replies_okReply⟩) fun _ => ?_
      refine replies_ite (fun _ => ⟨_, rfl, forAccount_replies fun _ => replies_okReply⟩) fun _ => ?_
      refine replies_ite (fun heq => ?_) fun _ => ?_
      · obtain ⟨d, hd, hreplies⟩ := handleRunAs_replies hJ (heq ▸ hget) hno
        exact ⟨_, by rw [hd]; rfl, hreplies⟩
      refine replies_ite (fun _ => ⟨_, rfl, handleSpawnBackgroundAs_replies a.background req h⟩) fun _ => ?_
      refine replies_ite (fun _ => ⟨_, rfl, handleCronInstallJob_replies J oem a.cronInstall req h⟩) fun _ => ?_
      refine replies_ite (fun _ => ⟨_, rfl, handleCronRemoveJob_replies oem a.tool req h⟩) fun _ => ?_
      refine replies_ite (fun _ => ⟨_, rfl, handleCronListJobs_replies oem a.tool req h⟩) fun _ => ?_
      refine replies_ite (fun _ => ⟨_, rfl, handleCronWriteMeta_replies hJ a.usersStateDir a.metadata req h⟩) fun _ => ?_
      refine replies_ite (fun _ => ⟨_, rfl, handleCronDeleteMeta_replies a.removed req h⟩) fun _ => ?_
      have hpre : Text 100 (lit "unknown op: ") := fixed_text (by simp [fixedTexts])
      exact ⟨_, rfl, replies_refuse ((hpre.append (hop op hget)).mono (by decide))⟩
    | _ => exact ⟨_, rfl, hmissing⟩

omit hJ in
theorem dispatch_runAs (oem : Oem) (a : Answers) {req : Json} (h : Host) (hop : req.get? (lit "op") = some (.str (lit "run_as"))) :
    (dispatch J oem a req h).map Prod.fst = (handleRunAs J (a.run.answers J req h.svc) req h.svc).1.map Prod.fst := by
  have hne : ∀ op ∈ [lit "useradd", lit "userdel", lit "install_grant", lit "revoke_grant", lit "install_system_admin",
      lit "revoke_system_admin", lit "prepare_user_state", lit "cleanup_user_state"], lit "run_as" ≠ op := by decide
  simp only [List.mem_cons, List.not_mem_nil, or_false, forall_eq_or_imp, forall_eq] at hne
  obtain ⟨h1, h2, h3, h4, h5, h6, h7, h8⟩ := hne
  rw [dispatch, hop]
  simp only [h1, h2, h3, h4, h5, h6, h7, h8, if_false, if_true, Option.map_map]
  rfl

omit hJ in
/-- A line that was read is shorter than the limit. -/
theorem readUpTo_length {room : Nat} {pipe : Pipe} {out line : Str} (h : readUpTo room pipe out = (true, line)) :
    line.length < out.length + room := by
  induction room generalizing pipe out with
  | zero => cases h
  | succ room ih =>
    simp only [readUpTo] at h
    split at h
    · cases h
    split at h
    · cases h
      omega
    · have hlen := ih h
      rw [List.length_append, List.length_singleton] at hlen
      omega

omit hJ in
/-- What is sent for a line. -/
theorem handleConnection_line (oem : Oem) (what : Str → Str) (a : Answers) {pipe : Pipe} {line : Str} (h : Host)
    (hr : Service.readLine pipe = (true, line)) : (handleConnection J oem what a true pipe h).map Prod.fst =
      ((answerLine J oem what a line h).map Prod.fst).map (sendReply J true) := by
  rw [handleConnection, hr, Option.map_map, Option.map_map]
  rfl

omit hJ in
/-- The reply to a line that parses. -/
theorem answerLine_request (oem : Oem) (what : Str → Str) (a : Answers) {line : Str} {req : Json} (h : Host)
    (hp : J.parse line = some req) :
    (answerLine J oem what a line h).map Prod.fst = ((dispatch J oem a req h).map Prod.fst).map replyOf := by
  simp only [answerLine, hp, Option.map_map]
  rfl

omit hJ in
theorem refuse_parse (text : Str) : (refuse (lit "parse: " ++ text)).utf8 = validUtf8 text ∧
    (write none 0 (refuse (lit "parse: " ++ text))).length + 1 = (writeStr (lit "parse: " ++ text)).length + 22 := by
  have hfields : refuse (lit "parse: " ++ text) = .obj [(lit "error", .str (lit "parse: " ++ text)), (lit "ok", .bool false)] := rfl
  have h1 : validUtf8 (lit "error") = true := key_utf8 (by simp [replyKeys])
  have h2 : validUtf8 (lit "ok") = true := key_utf8 (by simp [replyKeys])
  have hlengths : (writeStr (lit "error")).length = 7 ∧ (writeStr (lit "ok")).length = 4 ∧ (lit "false").length = 5 := by decide
  have hascii : (lit "parse: ").all (· < 0x80) = true := by decide
  have hpre : validUtf8 (lit "parse: " ++ text) = validUtf8 text :=
    validUtf8_ascii_append (by simpa only [List.all_eq_true, decide_eq_true_eq] using hascii) text
  obtain ⟨h3, h4, h5⟩ := hlengths
  constructor
  · simp only [hfields, Json.utf8, Json.utf8Fields, h1, h2, hpre, Bool.true_and, Bool.and_true]
  · simp only [hfields, write, writeFields, newline, colon, pad, List.length_cons, List.length_append, List.length_nil, h3, h4, h5,
      Option.isSome_none, Bool.false_eq_true, if_false]
    omega

omit hJ in
/-- The log and the clock, as the handler sees them. -/
theorem answers_log (o : RunOutcome) (req : Json) (s : Svc) :
    (o.answers J req s).time = o.time.stamp ∧ (o.answers J req s).logOpened = o.logOpened := by
  simp only [RunOutcome.answers, and_self]

omit hJ in
theorem not_answered_none : ¬Answered none := nofun

/-- A request that runs a command is answered exactly if the command can be reported. -/
theorem run_answered_iff (oem : Oem) {a : Answers} {req : Json} {h : Host} {args : RunAsArgs} (hreq : req.utf8 = true)
    (hargs : Runs J a.run req h.svc args) :
    Answered ((((dispatch J oem a req h).map Prod.fst).map replyOf).map (sendReply J true)) ↔ Reports J a.run args h.svc := by
  rw [dispatch_runAs oem a h hargs.op, handleRunAs_runs hargs, spawnWithToken_started hargs.started]
  unfold Reports
  by_cases hreturns : a.run.spawn.child.Returns args.timeout
  · have hspawned := spawnWithToken_started hargs.started args.timeout
    rw [if_pos hreturns] at hspawned ⊢
    have hstderr := (spawnWithToken_stderr hspawned).1
    have hstamp := stamp_utf8 a.run.time
    obtain ⟨htime, hlog⟩ := answers_log (J := J) a.run req h.svc
    rw [← htime] at hstamp
    obtain ⟨hplain, hiff⟩ := finishRun_answers hJ (a.run.elevated J args h.svc) h.svc hstderr hstamp
      (text_username args.shortid).1 (parseRunAs_utf8 hreq hargs.parsed)
    rw [hlog] at hiff
    simp only [Option.map_some]
    rw [answered_iff hJ hplain, hiff]
    exact (and_iff_right hreturns).symm
  · rw [if_neg hreturns]
    exact iff_of_false not_answered_none fun hreports => hreturns hreports.1

omit hJ in
theorem get_str_utf8 {j : Json} {k x : Str} (hj : j.utf8 = true) (h : j.get? k = some (.str x)) : validUtf8 x = true := by
  cases j with
  | obj l => exact field_utf8 hj h
  | _ => cases h

omit hJ in
/-- What a handler throws is caught, and its text is the reply. -/
theorem replyOf_sendable {r : Except JsonError Json} (h : Replies r) : Sendable (replyOf r) := by
  cases r with
  | ok resp => exact h
  | error e =>
    have hparse : Text 100 (lit "parse: ") := fixed_text (by simp [fixedTexts])
    exact sendable_refuse ((hparse.append h).mono (by decide))

/-- A line is answered with exactly one line, and nothing is thrown, exactly if
it is reportable. -/
theorem connection_answered_iff (oem : Oem) (what : Str → Str) (a : Answers) (ha : a.WellFormed) (h : Host)
    (hs : h.svc.PlausibleSids) (pipe : Pipe) (line : Str) (hr : Service.readLine pipe = (true, line)) :
    Answered ((handleConnection J oem what a true pipe h).map Prod.fst) ↔ Reportable J what a line h := by
  rw [handleConnection_line oem what a h hr]
  unfold Reportable
  cases hp : J.parse line with
  | none =>
    obtain ⟨hutf8, hlen⟩ := refuse_parse (what line)
    have hanswer : answerLine J oem what a line h = some (refuse (lit "parse: " ++ what line), h) := by
      rw [answerLine, hp]
    rw [hanswer]
    simp only [Option.map_some]
    rw [answered_iff hJ rfl, hutf8, ← hlen]
    exact Iff.rfl
  | some req =>
    rw [answerLine_request oem what a h hp]
    have hreq := hJ.parsesUtf8 line req hp
    by_cases hruns : ∃ args, Runs J a.run req h.svc args
    · obtain ⟨args, hargs⟩ := hruns
      rw [run_answered_iff hJ oem hreq hargs]
      constructor
      · intro hreports args' hargs'
        cases hargs.parsed.symm.trans hargs'.parsed
        exact hreports
      · exact fun hall => hall args hargs
    · have hno : ∀ args, ¬Runs J a.run req h.svc args := fun args hargs => hruns ⟨args, hargs⟩
      have hop : ∀ op, req.get? (lit "op") = some (.str op) → Text 400000 op := by
        intro op hget
        have hlen := hJ.parsesShort line req _ op hp hget
        have hline : line.length < 0 + kMaxRequestBytes := readUpTo_length hr
        refine (text_utf8 (n := kMaxRequestBytes) (get_str_utf8 hreq hget) ?_).mono (by decide)
        omega
      obtain ⟨d, hd, hreplies⟩ := dispatch_replies hJ oem ha hs hop hno
      have hsend := replyOf_sendable hreplies
      rw [hd]
      simp only [Option.map_some]
      rw [answered_iff hJ hsend.plain]
      exact iff_of_true ⟨hsend.utf8, hsend.fits⟩ fun args hargs => absurd hargs (hno args)

end

/-! ## A command that prints -/

/-- The calls answer, and the command is this one. -/
def printing (child : Child) : Answers where
  useradd := { add := .userExists }
  run := { now := 1000, listing := [], spawn := { process := .ok 7, child }, time := ⟨2024, 1, 1, 0, 0, 0⟩ }
  background := { spawn := { process := .ok 8 } }
  cronInstall := { password := none, installDir := lit "C:\\mcp_bridge" }

theorem printing_wellFormed (child : Child) : (printing child).WellFormed := ⟨nofun, nofun, nofun⟩

/-- A request to run a command. -/
def runRequest : Json :=
  .obj [(lit "command", .str (lit "type")), (lit "op", .str (lit "run_as")), (lit "shortid", .str (lit "abcdefgh"))]

def runLine : Str := lit "\x7b\"command\":\"type\",\"op\":\"run_as\",\"shortid\":\"abcdefgh\"\x7d"

theorem runLine_parse : utf8Text.parse runLine = some runRequest := by
  have hdump : jsonText.dump none runRequest = .ok runLine := by decide +kernel
  have hparse := (jsonText_roundTrips none runRequest runLine rfl hdump).1
  have hutf8 : runRequest.utf8 = true := by decide +kernel
  simp only [utf8Text, hparse, Option.filter_some, hutf8, if_true]

theorem runLine_read : Service.readLine [runLine ++ lit "\n"] = (true, runLine) := by
  have hone : ch '\n' ∉ runLine := by decide +kernel
  have hpipe : List.flatten [runLine ++ lit "\n"] = runLine ++ ch '\n' :: [] := by decide +kernel
  rw [Service.readLine, readUpTo_line hone hpipe kMaxRequestBytes [], if_pos (by decide +kernel)]
  rfl

def oneAccountHost : Host where
  svc := oneAccount

theorem oneAccount_plausible : oneAccount.PlausibleSids := by
  intro name sid h
  by_cases hname : name = lit "mcp_user_abcdefgh"
  · subst hname
    rw [oneAccount, AList.lookup_insert] at h
    cases h
    decide +kernel
  · rw [oneAccount, AList.lookup_insert_ne hname] at h
    cases h

/-- A code page with ASCII only. -/
def asciiOem : Oem where
  decode s := wide (s.filter (· < 0x80))
  length_le s := by
    rw [wide, List.length_map]
    exact List.length_filter_le _ _
  char s c hc := by
    obtain ⟨b, hb, rfl⟩ := List.mem_map.1 hc
    refine ⟨validUtf8_ascii ?_, .inl rfl⟩
    intro b' hb'
    rw [List.mem_singleton.1 hb']
    exact of_decide_eq_true (List.mem_filter.1 hb).2

/-- A command that prints text is reported. -/
theorem connection_answered_iff_text : Answered ((handleConnection utf8Text asciiOem id
    (printing { acts := [.prints (lit "ok")] }) true [runLine ++ lit "\n"] oneAccountHost).map Prod.fst) := by
  refine (connection_answered_iff utf8Text_documented asciiOem id _ (printing_wellFormed _) oneAccountHost oneAccount_plausible _
    runLine runLine_read).2 ?_
  simp only [Reportable, runLine_parse]
  intro args hargs
  have htimeout : parseRunAs runRequest = .ok (.ok ⟨lit "abcdefgh", lit "type", [], 0⟩) := rfl
  cases htimeout.symm.trans hargs.parsed
  have hkept : Child.kept { acts := [.prints (lit "ok")] } 0 = lit "ok" := Child.kept_whole _ (by decide +kernel)
  refine ⟨by decide +kernel, .inr ?_⟩
  simp only [printing, hkept]
  decide +kernel

theorem runs_printing (child : Child) :
    Runs utf8Text (printing child).run runRequest oneAccount ⟨lit "abcdefgh", lit "type", [], 0⟩ where
  op := rfl
  parsed := rfl
  account := by
    have hsid : sidStringForUser true (usernameFromShortid (lit "abcdefgh")) oneAccount ≠ [] := by decide +kernel
    exact hsid
  bound := by
    have hledger : lookupPersistedSid utf8Text (usernameFromShortid (lit "abcdefgh")) oneAccount = [] := by decide +kernel
    exact fun h => h.1 hledger
  token := by
    have hacquired : ∀ elevated, acquireTokenFor (lit "abcdefgh") elevated .acquired = .ok () := by
      intro elevated
      cases elevated <;> rfl
    exact hacquired _
  started := ⟨rfl, 7, rfl⟩

/-- What is sent for the command. -/
theorem connection_printing (child : Child) :
    (handleConnection utf8Text asciiOem id (printing child) true [runLine ++ lit "\n"] oneAccountHost).map Prod.fst =
      if child.Returns 0 then
        some (sendReply utf8Text true (report ⟨true, intOf (child.verdict 0).1, child.kept 0, (child.verdict 0).2⟩))
      else none := by
  have hruns := runs_printing child
  have helevated : (printing child).run.elevated utf8Text ⟨lit "abcdefgh", lit "type", [], 0⟩ oneAccount = false := by
    have hcovered : (findGrantFor utf8Text { now := 1000, listing := [] } (lit "abcdefgh") (lit "type") oneAccount).matched =
        false := by decide +kernel
    simp only [RunOutcome.elevated, printing, hcovered, Bool.false_and]
  have hdispatch := dispatch_runAs (J := utf8Text) asciiOem (printing child) oneAccountHost hruns.op
  have hhost : oneAccountHost.svc = oneAccount := rfl
  have hchild : (printing child).run.spawn.child = child := rfl
  rw [hhost, handleRunAs_runs hruns, helevated, spawnWithToken_started hruns.started, hchild] at hdispatch
  rw [handleConnection_line asciiOem id _ oneAccountHost runLine_read, answerLine_request asciiOem id _ oneAccountHost runLine_parse,
    hdispatch]
  split
  · simp only [Option.map_some, finishRun_reply, Bool.false_eq_true, false_and, if_false]
  · rfl

/-- A command prints a byte that is not UTF-8: it was run, and the dump of its
result throws out of the connection's thread. Another prints more than the pipe
holds: it was started, and the request is never done with. -/
theorem output_escapes :
    let a := printing { acts := [.prints [0xff]] }
    let full := printing { acts := [.prints (List.replicate 4097 (ch 'x'))] }
    Service.readLine [runLine ++ lit "\n"] = (true, runLine) ∧
    (handleRunAs utf8Text (a.run.answers utf8Text runRequest oneAccount) runRequest oneAccount).2.map Spawn.command =
      some (lit "type") ∧
    (∃ e h, handleConnection utf8Text asciiOem id a true [runLine ++ lit "\n"] oneAccountHost = some (.error e, h)) ∧
    ¬Answered ((handleConnection utf8Text asciiOem id a true [runLine ++ lit "\n"] oneAccountHost).map Prod.fst) ∧
    (handleRunAs utf8Text (full.run.answers utf8Text runRequest oneAccount) runRequest oneAccount).2.map Spawn.command =
      some (lit "type") ∧
    handleConnection utf8Text asciiOem id full true [runLine ++ lit "\n"] oneAccountHost = none := by
  intro a full
  have hthrows : (handleConnection utf8Text asciiOem id a true [runLine ++ lit "\n"] oneAccountHost).map Prod.fst =
      some (sendReply utf8Text true (report ⟨true, 0, [0xff], []⟩)) := by
    rw [connection_printing, if_pos (by decide +kernel)]
    rfl
  have hfull : (handleConnection utf8Text asciiOem id full true [runLine ++ lit "\n"] oneAccountHost).map Prod.fst = none := by
    have hends : ¬Child.Ends { acts := [.prints (List.replicate 4097 (ch 'x'))] } := by
      rintro ⟨hfits, -⟩
      simp only [printed, List.append_nil, List.length_replicate] at hfits
      exact absurd hfits (by decide)
    rw [connection_printing, if_neg fun hreturns => hreturns.1.elim (by decide) hends]
  have herror : ∃ e, sendReply utf8Text true (report ⟨true, 0, [0xff], []⟩) = .error e := by
    have hutf8 : (report ⟨true, 0, [0xff], []⟩).utf8 = false := by decide +kernel
    simp only [sendReply, utf8Text, jsonText, hutf8]
    exact ⟨_, rfl⟩
  obtain ⟨e, he⟩ := herror
  rw [he] at hthrows
  refine ⟨runLine_read, by decide +kernel, ?_, ?_, ?_, ?_⟩
  · obtain ⟨⟨r, h⟩, hd, rfl⟩ := Option.map_eq_some_iff.1 hthrows
    exact ⟨e, h, hd⟩
  · rintro ⟨body, hbody, -⟩
    rw [hthrows] at hbody
    cases hbody
  · decide +kernel
  · exact Option.map_eq_none_iff.1 hfull

end McpBridge.PrivWin
