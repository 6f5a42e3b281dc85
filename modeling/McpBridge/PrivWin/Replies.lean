import McpBridge.PrivWin.Handlers
import McpBridge.PrivWin.Wire
import McpBridge.PrivWin.RecordCheck
import Mathlib.Data.Nat.Digits.Lemmas
/-!
# Replies of the service

A reply is dumped and framed as one line. `Sendable` is what the dump and the
framing ask of it, and `Text n` is a text whose dump takes at most `n` bytes.
Each handler but that of `run_as` leads to a reply that can be sent, whatever
Windows answers (`Replies`): its texts are fixed, or made of ids, codes and what
`schtasks.exe` printed, which is decoded and bounded.
-/

open McpBridge.Lib McpBridge.Core McpBridge.Grants

namespace McpBridge.PrivWin

/-- The reply can be dumped and fits. -/
structure Sendable (resp : Json) : Prop where
  plain : resp.plain = true
  utf8 : resp.utf8 = true
  fits : (write none 0 resp).length < kMaxResponseBytes

/-- A text that can be dumped, in at most `n` bytes. -/
def Text (n : Nat) (s : Str) : Prop := validUtf8 s = true ∧ (s.flatMap escByte).length ≤ n

instance Text.decidable (n : Nat) (s : Str) : Decidable (Text n s) := inferInstanceAs (Decidable (_ ∧ _))

theorem Text.append {m n : Nat} {s t : Str} (hs : Text m s) (ht : Text n t) : Text (m + n) (s ++ t) := by
  refine ⟨validUtf8_append hs.1 ht.1, ?_⟩
  rw [List.flatMap_append, List.length_append]
  exact Nat.add_le_add hs.2 ht.2

theorem Text.mono {m n : Nat} {s : Str} (h : Text m s) (hmn : m ≤ n) : Text n s := ⟨h.1, h.2.trans hmn⟩

theorem Text.length_writeStr {n : Nat} {s : Str} (h : Text n s) : (writeStr s).length ≤ n + 2 := by
  have hn := h.2
  simp only [writeStr, List.length_cons, List.length_append, List.length_nil]
  omega

theorem text_utf8 {n : Nat} {s : Str} (h : validUtf8 s = true) (hn : s.length ≤ n) : Text (6 * n) s := by
  refine ⟨h, ?_⟩
  have hesc := length_escaped_le s
  omega

theorem text_ascii {n : Nat} {s : Str} (h : ∀ c ∈ s, c < 0x80) (hn : s.length ≤ n) : Text (6 * n) s :=
  text_utf8 (validUtf8_ascii h) hn

/-- The texts the replies are made of. -/
def fixedTexts : List Str :=
  [lit "LSA store failed", lit "LookupAccountName failed post-add", lit "invalid shortid", lit "invalid grantid",
    lit "invalid record.shortid", lit "invalid command_pattern", lit "SID binding mismatch",
    lit "failed to write grant file", lit "missing record", lit "user does not exist",
    lit "failed to write system_admin.json", lit "SID rebinding detected", lit "invalid job_id",
    lit "cron: LSA password lookup failed", lit "cron: cannot resolve install dir", lit "missing sched_args",
    lit "failed to write metadata file", lit "missing content", lit "missing op", lit "[json.exception.type_error.",
    lit "] ", lit "cannot use value() with ", lit "type must be string, but is ", lit "type must be boolean, but is ",
    lit "type must be number, but is ", lit "cannot use operator[] with a string argument with ", lit "mcp_user_",
    lit "NetUserAdd failed: ", lit "NetUserDel failed: ", lit "LSA password lookup failed for mcp_user_",
    lit "CreateProcessAsUser failed: ", lit "CreateProcess failed: ", lit "schtasks /Create exit=", lit " out=",
    lit "invalid command", lit "unknown op: ", lit "parse: ", lit "CreatePipe failed", lit "Process timed out",
    lit "OpenProcessToken failed: ", lit "DuplicateTokenEx failed: ", lit "LogonUserW failed: ", lit "302", lit "305",
    lit "306", lit "null", lit "boolean", lit "number", lit "string", lit "array", lit "object"]

theorem fixed_text {m : Str} (h : m ∈ fixedTexts) : Text 100 m := by
  have hall : ∀ m ∈ fixedTexts, Text 100 m := by
    unfold fixedTexts
    repeat rw [lit_ofList]
    decide +kernel
  exact hall m h

/-- The keys of the replies, and of the record of a run. -/
def replyKeys : List Str :=
  [lit "command", lit "cwd", lit "error", lit "exit_code", lit "job_ids", lit "ok", lit "pid", lit "sid", lit "stderr",
    lit "stdout", lit "ts", lit "user", lit "username"]

theorem key_utf8 {k : Str} (h : k ∈ replyKeys) : validUtf8 k = true := by
  have hall : ∀ k ∈ replyKeys, validUtf8 k = true := by
    unfold replyKeys
    repeat rw [lit_ofList]
    decide +kernel
  exact hall k h

theorem sendable_refuse {msg : Str} (h : Text 4000000 msg) : Sendable (refuse msg) := by
  have hfields : refuse msg = .obj [(lit "error", .str msg), (lit "ok", .bool false)] := rfl
  have hlen := h.length_writeStr
  have hutf8 := h.1
  have h1 : validUtf8 (lit "error") = true := key_utf8 (by simp [replyKeys])
  have h2 : validUtf8 (lit "ok") = true := key_utf8 (by simp [replyKeys])
  have hlengths : (writeStr (lit "error")).length = 7 ∧ (writeStr (lit "ok")).length = 4 ∧ (lit "false").length = 5 := by decide
  obtain ⟨h3, h4, h5⟩ := hlengths
  refine ⟨rfl, ?_, ?_⟩
  · simp [hfields, Json.utf8, Json.utf8Fields, h1, h2, hutf8]
  · simp only [hfields, write, writeFields, newline, colon, pad, List.length_cons, List.length_append, List.length_nil, h3, h4, h5,
      Option.isSome_none, Bool.false_eq_true, if_false, kMaxResponseBytes]
    omega

/-- A handler's answer leads to a reply that can be sent. -/
def Replies (r : Except JsonError Json) : Prop :=
  match r with
  | .ok resp => Sendable resp
  | .error e => Text 20000 e.what

theorem replies_refuse {msg : Str} (h : Text 4000000 msg) : Replies (.ok (refuse msg)) := sendable_refuse h

theorem replies_refuse_fixed {msg : Str} (h : msg ∈ fixedTexts) : Replies (.ok (refuse msg)) :=
  sendable_refuse ((fixed_text h).mono (by decide))

theorem replies_okReply : Replies (.ok okReply) := ⟨rfl, by decide +kernel, by decide +kernel⟩

theorem digit_ascii {c : UInt8} (h : isDigit c = true) : c < 0x80 := by
  simp only [isDigit, Bool.and_eq_true, decide_eq_true_eq] at h
  exact UInt8.lt_of_le_of_lt h.2 (by decide)

theorem length_writeNat {n : Nat} (h : n < 2 ^ 32) : (writeNat n).length ≤ 10 := by
  unfold writeNat
  split
  · simp
  · rw [List.length_map, List.length_reverse]
    exact (Nat.digits_length_le_iff (by decide) n).2 (by omega)

theorem text_writeNat {n : Nat} (h : n < 2 ^ 32) : Text 60 (writeNat n) :=
  text_ascii (fun c hc => digit_ascii (writeNat_digits n c hc)) (length_writeNat h)

theorem natAbs_intOf (code : UInt32) : (intOf code).natAbs < 2 ^ 32 := by
  have hlow := code.toInt32.le_toInt
  have hhigh := code.toInt32.toInt_lt
  unfold intOf
  omega

theorem length_intOf (code : UInt32) : (writeInt (intOf code)).length ≤ 11 := by
  have hlen := length_writeNat (natAbs_intOf code)
  unfold writeInt
  split
  · rw [List.length_cons]
    omega
  · omega

theorem text_intOf (code : UInt32) : Text 66 (writeInt (intOf code)) := by
  refine text_ascii (fun c hc => ?_) (length_intOf code)
  rcases mem_writeInt hc with rfl | hdigit
  · decide
  · exact digit_ascii hdigit

/-! ## What is thrown -/

theorem typeName_text (j : Json) : Text 100 j.typeName := by
  apply fixed_text
  cases j <;> simp [Json.typeName, fixedTexts]

theorem typeError_text (id : Str) {what : Str} (hid : id ∈ fixedTexts) (hw : Text 200 what) : Text 20000 (Json.typeError id what).what := by
  have hpre : Text 100 (lit "[json.exception.type_error.") := fixed_text (by simp [fixedTexts])
  have hmid : Text 100 (lit "] ") := fixed_text (by simp [fixedTexts])
  exact (((hpre.append (fixed_text hid)).append hmid).append hw).mono (by decide)

theorem value_error {α : Type} {get : Json → Except JsonError α} (hget : ∀ v e, get v = .error e → Text 20000 e.what) {j : Json}
    {k : Str} {dflt : α} {e : JsonError} (h : j.value get k dflt = .error e) : Text 20000 e.what := by
  simp only [Json.value] at h
  split at h
  · split at h
    · exact hget _ _ h
    · cases h
  · cases h
    have hwhat : Text 100 (lit "cannot use value() with ") := fixed_text (by simp [fixedTexts])
    exact typeError_text _ (by simp [fixedTexts]) (hwhat.append (typeName_text j))

theorem asStr_error (v : Json) (e : JsonError) (h : v.asStr = .error e) : Text 20000 e.what := by
  have hwhat : Text 100 (lit "type must be string, but is ") := fixed_text (by simp [fixedTexts])
  have htext := typeError_text (lit "302") (by simp [fixedTexts]) (hwhat.append (typeName_text v))
  cases v <;> cases h
  all_goals exact htext

theorem asBool_error (v : Json) (e : JsonError) (h : v.asBool = .error e) : Text 20000 e.what := by
  have hwhat : Text 100 (lit "type must be boolean, but is ") := fixed_text (by simp [fixedTexts])
  have htext := typeError_text (lit "302") (by simp [fixedTexts]) (hwhat.append (typeName_text v))
  cases v <;> cases h
  all_goals exact htext

theorem asInt32_error (v : Json) (e : JsonError) (h : v.asInt32 = .error e) : Text 20000 e.what := by
  have hwhat : Text 100 (lit "type must be number, but is ") := fixed_text (by simp [fixedTexts])
  have htext := typeError_text (lit "302") (by simp [fixedTexts]) (hwhat.append (typeName_text v))
  cases v <;> cases h
  all_goals exact htext

theorem set_error {j v : Json} {k : Str} {e : JsonError} (h : j.set k v = .error e) : Text 20000 e.what := by
  have hwhat : Text 100 (lit "cannot use operator[] with a string argument with ") := fixed_text (by simp [fixedTexts])
  have htext := typeError_text (lit "305") (by simp [fixedTexts]) (hwhat.append (typeName_text j))
  cases j <;> cases h
  all_goals exact htext

/-! ## The handlers -/

/-- What Windows answers: error codes are `DWORD`s, and SIDs have their usual form. -/
structure Answers.WellFormed (a : Answers) : Prop where
  addCode : ∀ st parm, a.useradd.add = .failed st parm → st < 2 ^ 32
  addSid : ∀ sid, a.useradd.add = .success sid → plausibleSid sid = true
  delCode : ∀ st, a.userdel.del = .failed st → st < 2 ^ 32

/-- The SIDs of the accounts have their usual form. -/
def Svc.PlausibleSids (s : Svc) : Prop := ∀ name sid, s.accounts.lookup name = some sid → plausibleSid sid = true

theorem text_plausibleSid {sid : Str} (h : plausibleSid sid = true) : Text 1536 sid := by
  simp only [plausibleSid] at h
  split at h
  · cases h
  next hlen =>
  split at h
  · cases h
  split at h
  · cases h
  refine text_ascii (n := 256) (fun c hc => ?_) (by omega)
  have hx := List.all_eq_true.1 h c hc
  simp only [Bool.or_eq_true, decide_eq_true_eq] at hx
  rcases hx with ((hx | rfl) | rfl) | rfl
  · exact digit_ascii hx
  all_goals decide

theorem text_shortid {s : Str} (h : validShortid s = true) : Text 48 s := by
  refine text_utf8 (n := 8) (validUtf8_shortid h) ?_
  simp only [validShortid, Bool.and_eq_true, decide_eq_true_eq] at h
  omega

theorem text_username (shortid : Str) : Text 148 (usernameFromShortid shortid) := by
  unfold usernameFromShortid
  split
  · next hv =>
    have hpre : Text 100 (lit "mcp_user_") := fixed_text (by simp [fixedTexts])
    exact hpre.append (text_shortid hv)
  · exact ⟨rfl, by simp⟩

/-- The reply of `useradd`. -/
theorem sendable_account {username sid : Str} (hu : Text 148 username) (hs : Text 1536 sid) :
    Sendable (.ofFields [(lit "ok", .bool true), (lit "username", .str username), (lit "sid", .str sid)]) := by
  have hfields : Json.ofFields [(lit "ok", .bool true), (lit "username", .str username), (lit "sid", .str sid)] =
    .obj [(lit "ok", .bool true), (lit "sid", .str sid), (lit "username", .str username)] := rfl
  have h1 : validUtf8 (lit "ok") = true := key_utf8 (by simp [replyKeys])
  have h2 : validUtf8 (lit "sid") = true := key_utf8 (by simp [replyKeys])
  have h3 : validUtf8 (lit "username") = true := key_utf8 (by simp [replyKeys])
  have hlengths : (writeStr (lit "ok")).length = 4 ∧ (writeStr (lit "sid")).length = 5 ∧ (writeStr (lit "username")).length = 10 ∧
      (lit "true").length = 4 := by decide
  obtain ⟨h4, h5, h6, h7⟩ := hlengths
  have hlu := hu.length_writeStr
  have hls := hs.length_writeStr
  refine ⟨rfl, ?_, ?_⟩
  · simp [hfields, Json.utf8, Json.utf8Fields, h1, h2, h3, hu.1, hs.1]
  · simp only [hfields, write, writeFields, newline, colon, pad, List.length_cons, List.length_append, List.length_nil, h4, h5, h6,
      h7, Option.isSome_none, Bool.false_eq_true, if_false, kMaxResponseBytes]
    omega

section
variable {J : JsonText} (hJ : J.Documented)
include hJ

theorem dump_error {step : Option Nat} {j : Json} {e : JsonError} (h : J.dump step j = .error e) : Text 20000 e.what := by
  obtain ⟨hutf8, hlen⟩ := hJ.errors step j e h
  exact (text_utf8 hutf8 hlen).mono (by decide)

theorem persistUserSid_error {written : Bool} {username sid : Str} {s : Svc} {e : JsonError}
    (h : persistUserSid J written username sid s = .error e) : Text 20000 e.what := by
  simp only [persistUserSid, bind, Except.bind] at h
  split at h
  · next he =>
    cases h
    exact set_error he
  split at h
  · next he =>
    cases h
    exact dump_error hJ he
  · cases h

theorem bindSid_replies (o : UserAddOutcome) (shortid : Str) {s : Svc} (hs : s.PlausibleSids) :
    Replies (bindSid J o (usernameFromShortid shortid) s).1 := by
  simp only [bindSid]
  split
  · exact replies_refuse_fixed (by simp [fixedTexts])
  split
  · exact replies_refuse_fixed (by simp [fixedTexts])
  next hsid =>
  split
  · next e he => exact persistUserSid_error hJ he
  · refine sendable_account (text_username shortid) (text_plausibleSid ?_)
    obtain ⟨sid, hl⟩ := account_of_sidString hsid
    simp only [sidStringForUser] at hsid ⊢
    split at hsid
    · next hf =>
      rw [if_pos hf, hl]
      exact hs _ _ hl
    · exact absurd rfl hsid

theorem handleUseradd_replies {a : Answers} (ha : a.WellFormed) (req : Json) {s : Svc} (hs : s.PlausibleSids) :
    Replies (handleUseradd J a.useradd req s).1 := by
  simp only [handleUseradd]
  split
  · next e he => exact value_error asStr_error he
  split
  · exact replies_refuse_fixed (by simp [fixedTexts])
  split
  · next st parm hadd =>
    have hpre : Text 100 (lit "NetUserAdd failed: ") := fixed_text (by simp [fixedTexts])
    exact replies_refuse ((hpre.append (text_writeNat (ha.addCode st parm hadd))).mono (by decide))
  · exact bindSid_replies hJ _ _ hs
  · next sid hadd =>
    refine bindSid_replies hJ _ _ ?_
    intro name sid' hl
    simp only [Map.lookup_insert_if] at hl
    split at hl
    · cases hl
      exact ha.addSid sid hadd
    · exact hs name sid' hl

omit hJ in
theorem handleUserdel_replies {a : Answers} (ha : a.WellFormed) (req : Json) (s : Svc) :
    Replies (handleUserdel J a.userdel req s).1 := by
  simp only [handleUserdel]
  split
  · next e he => exact value_error asStr_error he
  split
  · exact replies_refuse_fixed (by simp [fixedTexts])
  split
  · next st hdel =>
    have hpre : Text 100 (lit "NetUserDel failed: ") := fixed_text (by simp [fixedTexts])
    exact replies_refuse ((hpre.append (text_writeNat (ha.delCode st hdel))).mono (by decide))
  · exact replies_okReply

theorem handleInstallGrant_replies (o : InstallOutcome) (req : Json) (s : Svc) : Replies (handleInstallGrant J o req s).1 := by
  simp only [handleInstallGrant]
  split
  · next e he => exact value_error asStr_error he
  split
  · exact replies_refuse_fixed (by simp [fixedTexts])
  split
  swap
  · exact replies_refuse_fixed (by simp [fixedTexts])
  split
  · next e he => exact value_error asStr_error he
  split
  · exact replies_refuse_fixed (by simp [fixedTexts])
  split
  · next e he => exact value_error asStr_error he
  split
  · exact replies_refuse_fixed (by simp [fixedTexts])
  split
  · next e he => exact value_error asStr_error he
  split
  · exact replies_refuse_fixed (by simp [fixedTexts])
  split
  · next e he => exact dump_error hJ he
  split
  · exact replies_refuse_fixed (by simp [fixedTexts])
  split
  · next e he => exact value_error asBool_error he
  · exact replies_okReply

theorem handleInstallSystemAdmin_replies (o : InstallOutcome) (req : Json) (s : Svc) :
    Replies (handleInstallSystemAdmin J o req s).1 := by
  simp only [handleInstallSystemAdmin]
  split
  · next e he => exact value_error asStr_error he
  split
  · exact replies_refuse_fixed (by simp [fixedTexts])
  split
  · exact replies_refuse_fixed (by simp [fixedTexts])
  split
  · next e he => exact dump_error hJ he
  split
  · exact replies_refuse_fixed (by simp [fixedTexts])
  · exact replies_okReply

omit hJ in
theorem handleRevokeGrant_replies (removed : Bool) (req : Json) (s : Svc) : Replies (handleRevokeGrant removed req s).1 := by
  simp only [handleRevokeGrant]
  split
  · next e he => exact value_error asStr_error he
  split
  · exact replies_refuse_fixed (by simp [fixedTexts])
  · exact replies_okReply

end

theorem forAccount_replies {req : Json} {h : Host} {act : Str → Except JsonError Json × Host} (hact : ∀ u, Replies (act u).1) :
    Replies (forAccount req h act).1 := by
  simp only [forAccount]
  split
  · next e he => exact value_error asStr_error he
  split
  · exact replies_refuse_fixed (by simp [fixedTexts])
  · exact hact _

theorem forJob_replies {req : Json} {h : Host} {act : Str → Str → Except JsonError Json × Host}
    (hact : ∀ shortid jobId, Replies (act shortid jobId).1) : Replies (forJob req h act).1 := by
  simp only [forJob]
  split
  · next e he => exact value_error asStr_error he
  split
  · next e he => exact value_error asStr_error he
  split
  · exact replies_refuse_fixed (by simp [fixedTexts])
  split
  · exact replies_refuse_fixed (by simp [fixedTexts])
  · exact hact _ _

/-- The text of a refused token. -/
theorem acquireTokenFor_text {shortid err : Str} {elevated : Bool} {o : TokenOutcome} (hv : validShortid shortid = true)
    (h : acquireTokenFor shortid elevated o = .error err) : Text 4000000 err := by
  have hcode : ∀ {pre : Str} (code : UInt32), pre ∈ fixedTexts → Text 4000000 (pre ++ writeNat code.toNat) := by
    intro pre code hpre
    exact ((fixed_text hpre).append (text_writeNat code.toNat_lt)).mono (by decide)
  have hlsa : Text 100 (lit "LSA password lookup failed for mcp_user_") := fixed_text (by simp [fixedTexts])
  simp only [acquireTokenFor] at h
  split at h
  · split at h
    · cases h; exact hcode _ (by simp [fixedTexts])
    · cases h; exact hcode _ (by simp [fixedTexts])
    · cases h
  · split at h
    · cases h
      exact (hlsa.append (text_shortid hv)).mono (by decide)
    · cases h; exact hcode _ (by simp [fixedTexts])
    · cases h

/-- What is said about a process that could not be started or was stopped. -/
theorem spawnWithToken_stderr {wait : Bool} {timeout : Int32} {o : SpawnOutcome} {r : SpawnResult}
    (h : spawnWithToken wait timeout o = some r) : Text 160 r.stderr := by
  have hpre : Text 100 (lit "CreateProcessAsUser failed: ") := fixed_text (by simp [fixedTexts])
  simp only [spawnWithToken] at h
  split at h
  · cases h
    exact (fixed_text (by simp [fixedTexts])).mono (by decide)
  split at h
  · next code _ =>
    cases h
    exact (hpre.append (text_writeNat code.toNat_lt)).mono (by decide)
  split at h
  · cases h
    exact ⟨rfl, by simp⟩
  split at h
  · cases h
  · obtain ⟨stdout, -, rfl⟩ := Option.map_eq_some_iff.1 h
    exact ⟨rfl, by simp⟩
  · obtain ⟨stdout, -, rfl⟩ := Option.map_eq_some_iff.1 h
    exact (fixed_text (by simp [fixedTexts])).mono (by decide)

theorem sendable_pid (pid : UInt32) : Sendable (.ofFields [(lit "ok", .bool true), (lit "pid", .int (intOf pid))]) := by
  have hfields : Json.ofFields [(lit "ok", .bool true), (lit "pid", .int (intOf pid))] =
    .obj [(lit "ok", .bool true), (lit "pid", .int (intOf pid))] := rfl
  have h1 : validUtf8 (lit "ok") = true := key_utf8 (by simp [replyKeys])
  have h2 : validUtf8 (lit "pid") = true := key_utf8 (by simp [replyKeys])
  have hlengths : (writeStr (lit "ok")).length = 4 ∧ (writeStr (lit "pid")).length = 5 ∧ (lit "true").length = 4 := by decide
  obtain ⟨h3, h4, h5⟩ := hlengths
  have hint := length_intOf pid
  refine ⟨rfl, ?_, ?_⟩
  · simp [hfields, Json.utf8, Json.utf8Fields, h1, h2]
  · simp only [hfields, write, writeFields, newline, colon, pad, List.length_cons, List.length_append, List.length_nil, h3, h4, h5,
      Option.isSome_none, Bool.false_eq_true, if_false, kMaxResponseBytes]
    omega

/-- What reading the arguments of a command can come to. -/
theorem parseBackground_text (req : Json) :
    match parseBackground req with
    | .error e => Text 20000 e.what
    | .ok (.error msg) => Text 4000000 msg
    | .ok (.ok args) => validShortid args.1 = true := by
  simp only [parseBackground, bind, Except.bind]
  split
  · next e he =>
    split at he
    · next e' he' => cases he; exact value_error asStr_error he'
    split at he
    · cases he
    split at he
    · next e' he' => cases he; exact value_error asStr_error he'
    split at he
    · cases he
    split at he
    · next e' he' => cases he; exact value_error asStr_error he'
    · cases he
  · next msg he =>
    split at he
    · cases he
    split at he
    · cases he; exact (fixed_text (by simp [fixedTexts])).mono (by decide)
    split at he
    · cases he
    split at he
    · cases he; exact (fixed_text (by simp [fixedTexts])).mono (by decide)
    split at he
    · cases he
    · cases he
  · next args he =>
    split at he
    · cases he
    split at he
    · cases he
    next hv =>
    split at he
    · cases he
    split at he
    · cases he
    split at he
    · cases he
    · cases he
      simpa using hv

theorem parseRunAs_text (req : Json) :
    match parseRunAs req with
    | .error e => Text 20000 e.what
    | .ok (.error msg) => Text 4000000 msg
    | .ok (.ok _) => True := by
  simp only [parseRunAs, bind, Except.bind]
  split
  · next e he =>
    split at he
    · next e' he' => cases he; exact value_error asStr_error he'
    split at he
    · cases he
    split at he
    · next e' he' => cases he; exact value_error asStr_error he'
    split at he
    · cases he
    split at he
    · next e' he' => cases he; exact value_error asStr_error he'
    split at he
    · next e' he' => cases he; exact value_error asInt32_error he'
    · cases he
  · next msg he =>
    split at he
    · cases he
    split at he
    · cases he; exact (fixed_text (by simp [fixedTexts])).mono (by decide)
    split at he
    · cases he
    split at he
    · cases he; exact (fixed_text (by simp [fixedTexts])).mono (by decide)
    split at he
    · cases he
    split at he
    · cases he
    · cases he
  · trivial

theorem handleSpawnBackgroundAs_replies (o : BackgroundOutcome) (req : Json) (h : Host) :
    Replies (handleSpawnBackgroundAs o req h).1 := by
  have hparse := parseBackground_text req
  simp only [handleSpawnBackgroundAs]
  split
  · next e he => rw [he] at hparse; exact hparse
  · next msg he => rw [he] at hparse; exact replies_refuse hparse
  next shortid command cwd he =>
  rw [he] at hparse
  split
  · next err herr => exact replies_refuse (acquireTokenFor_text hparse herr)
  split
  · cases hr : spawnWithToken false 0 o.spawn with
    | none => exact replies_refuse ⟨rfl, by decide⟩
    | some r => exact replies_refuse ((spawnWithToken_stderr hr).mono (by decide))
  · exact sendable_pid _

/-! ## The cron handlers -/

theorem capture_length (limit : Nat) (cs : List Chunk) : ∀ out : Str, out.length ≤ limit → (capture limit out cs).length ≤ limit := by
  induction cs with
  | nil => exact fun out h => h
  | cons c cs ih =>
    intro out h
    simp only [capture]
    split
    · exact h
    · next hc =>
      apply ih
      rw [List.length_append]
      omega

theorem escByte_high {c : UInt8} (h : 0x80 ≤ c) : (escByte c).length = 1 := by
  have hne : ∀ d : UInt8, d < 0x80 → c ≠ d := by
    rintro d hd rfl
    exact absurd h (UInt8.not_le.2 hd)
  have hctl : ¬c ≤ 0x1f := by
    intro hc
    exact absurd (UInt8.le_trans h hc) (by decide)
  simp [escByte, hne, hctl]

/-- A character of a tool's output. -/
theorem Oem.char_text (oem : Oem) {s c : Str} (h : c ∈ oem.decode s) : Text 6 c ∧ c.length ≤ 3 := by
  obtain ⟨hutf8, hone | ⟨hthree, hhigh⟩⟩ := oem.char s c h
  · exact ⟨text_utf8 hutf8 hone.le, by omega⟩
  · have hlen : (c.flatMap escByte).length = c.length := by
      rw [List.length_flatMap, List.map_congr_left fun b hb => escByte_high (hhigh b hb)]
      simp
    exact ⟨⟨hutf8, by omega⟩, hthree⟩

theorem text_flatten {n : Nat} (w : List Str) (h : ∀ c ∈ w, Text n c) : Text (n * w.length) w.flatten := by
  induction w with
  | nil => exact ⟨rfl, by simp⟩
  | cons c w ih =>
    have htail := ih fun d hd => h d (by simp [hd])
    rw [List.flatten_cons]
    exact ((h c (by simp)).append htail).mono (by rw [List.length_cons, Nat.mul_succ]; omega)

theorem length_flatten_le {n : Nat} (w : List Str) (h : ∀ c ∈ w, c.length ≤ n) : w.flatten.length ≤ n * w.length := by
  induction w with
  | nil => simp
  | cons c w ih =>
    have hc := h c (by simp)
    have htail := ih fun d hd => h d (by simp [hd])
    rw [List.flatten_cons, List.length_append, List.length_cons, Nat.mul_succ]
    omega

/-- What a tool printed, as a text. -/
theorem runSystemTool_text (oem : Oem) (exe : Str) (args : List Str) (o : ToolOutcome) (h : Host) :
    Text (6 * 262144) (narrow (runSystemTool oem exe args o h).1.2) ∧
      (narrow (runSystemTool oem exe args o h).1.2).length ≤ 3 * 262144 := by
  have hwide : ∀ s : Str, narrow (wide s) = s := by
    intro s
    simp [narrow, wide, ← List.flatMap_def]
  simp only [runSystemTool]
  split
  · rw [hwide]
    exact ⟨(fixed_text (by simp [fixedTexts])).mono (by decide), by decide⟩
  split
  · next code _ =>
    rw [hwide]
    have hpre : Text 100 (lit "CreateProcess failed: ") := fixed_text (by simp [fixedTexts])
    have hlen : (lit "CreateProcess failed: ").length = 22 := by decide
    have hcode := length_writeNat code.toNat_lt
    refine ⟨(hpre.append (text_writeNat code.toNat_lt)).mono (by decide), ?_⟩
    rw [List.length_append]
    omega
  · have hout := capture_length (256 * 1024) o.printed [] (by simp)
    generalize capture (256 * 1024) [] o.printed = out at hout
    have hcount : (oem.decode out).length ≤ 262144 := (oem.length_le out).trans hout
    have htext := text_flatten (oem.decode out) fun c hc => (oem.char_text hc).1
    have hlen := length_flatten_le (oem.decode out) fun c hc => (oem.char_text hc).2
    exact ⟨htext.mono (Nat.mul_le_mul_left 6 hcount), hlen.trans (Nat.mul_le_mul_left 3 hcount)⟩

theorem runSystemTool_rc (oem : Oem) (exe : Str) (args : List Str) (o : ToolOutcome) (h : Host) :
    Text 66 (writeInt (runSystemTool oem exe args o h).1.1) := by
  have hfailed : Text 66 (writeInt (-1)) := by decide +kernel
  simp only [runSystemTool]
  split
  · exact hfailed
  split
  · exact hfailed
  · exact text_intOf _

/-- A line that names a job is longer than the entry it gives. -/
theorem jobOfLine_length {shortid line id : Str} (h : jobOfLine shortid line = some id) :
    validGrantid id = true ∧ 19 ≤ line.length := by
  cases line with
  | nil => cases h
  | cons c rest =>
    simp only [jobOfLine] at h
    split at h
    · cases h
    split at h
    · cases h
    next hq =>
    split at h
    swap
    · cases h
    next hfp =>
    split at h
    swap
    · cases h
    next hid =>
    cases h
    refine ⟨hid, ?_⟩
    -- The id is 16 bytes of the name, after the folder and its separators.
    have htrim : ∀ name : Str, (trimName name).length ≤ name.length := by
      intro name
      unfold trimName
      split
      · simp
      · exact le_rfl
    have hname := htrim (rest.takeWhile fun x => decide (x ≠ ch '"'))
    have hrest := (List.takeWhile_sublist (l := rest) fun x => decide (x ≠ ch '"')).length_le
    have hlit : (lit "mcp_bridge\\").length = 11 := by decide
    simp only [validGrantid, isHexId, Bool.and_eq_true, decide_eq_true_eq, List.length_drop, List.length_append, hlit] at hid
    rw [List.length_cons]
    omega

theorem jobIds_length (shortid : Str) (ls : List Str) : 19 * (ls.filterMap (jobOfLine shortid)).length ≤ ls.flatten.length := by
  induction ls with
  | nil => simp
  | cons l ls ih =>
    rw [List.filterMap_cons, List.flatten_cons, List.length_append]
    split
    · omega
    · next id hid =>
      have hl := (jobOfLine_length hid).2
      rw [List.length_cons]
      omega

theorem text_grantid {s : Str} (h : validGrantid s = true) : Text 96 s := by
  refine text_utf8 (n := 16) (validUtf8_grantid h) ?_
  simp only [validGrantid, isHexId, Bool.and_eq_true, decide_eq_true_eq] at h
  omega

theorem utf8List_str {ids : List Str} (h : ∀ id ∈ ids, validUtf8 id = true) : Json.utf8List (ids.map .str) = true := by
  induction ids with
  | nil => rfl
  | cons id ids ih =>
    simp only [List.map_cons, Json.utf8List, Json.utf8, h id (by simp), ih fun d hd => h d (by simp [hd]), Bool.and_self]

theorem plainList_str (ids : List Str) : Json.plainList (ids.map .str) = true := by
  induction ids with
  | nil => rfl
  | cons id ids ih => simp only [List.map_cons, Json.plainList, Json.plain, ih, Bool.and_self]

theorem length_writeElems {n : Nat} {ids : List Str} (h : ∀ id ∈ ids, Text n id) :
    (writeElems none 0 (ids.map .str)).length ≤ (n + 3) * ids.length := by
  induction ids with
  | nil => simp [writeElems]
  | cons id ids ih =>
    have hid := (h id (by simp)).length_writeStr
    have htail := ih fun d hd => h d (by simp [hd])
    simp only [List.map_cons, writeElems, write, newline, List.length_cons, List.length_append, List.length_nil, Nat.mul_succ]
    omega

theorem length_write_strs {n : Nat} {ids : List Str} (h : ∀ id ∈ ids, Text n id) :
    (write none 0 (.arr (ids.map .str))).length ≤ (n + 3) * ids.length + 2 := by
  cases ids with
  | nil => exact Nat.le_refl 2
  | cons id ids =>
    have hid := (h id (by simp)).length_writeStr
    have htail : (writeElems none 0 (ids.map .str)).length ≤ (n + 3) * ids.length :=
      length_writeElems fun d hd => h d (by simp [hd])
    simp only [List.map_cons, write, newline, Option.getD_none, Nat.add_zero, List.length_cons, List.length_append,
      List.length_nil, Nat.mul_succ]
    omega

/-- The reply of `cron_list_jobs`. -/
theorem sendable_jobs {ids : List Str} (hids : ∀ id ∈ ids, validGrantid id = true) (hcount : 19 * ids.length ≤ 3 * 262144) :
    Sendable (.ofFields [(lit "ok", .bool true), (lit "job_ids", .arr (ids.map .str))]) := by
  have hfields : Json.ofFields [(lit "ok", .bool true), (lit "job_ids", .arr (ids.map .str))] =
    .obj [(lit "job_ids", .arr (ids.map .str)), (lit "ok", .bool true)] := rfl
  have h1 : validUtf8 (lit "ok") = true := key_utf8 (by simp [replyKeys])
  have h2 : validUtf8 (lit "job_ids") = true := key_utf8 (by simp [replyKeys])
  have hlengths : (writeStr (lit "ok")).length = 4 ∧ (writeStr (lit "job_ids")).length = 9 ∧ (lit "true").length = 4 := by decide
  obtain ⟨h3, h4, h5⟩ := hlengths
  have hlen := length_write_strs fun id hid => text_grantid (hids id hid)
  refine ⟨?_, ?_, ?_⟩
  · have hlt : Json.strLt (lit "job_ids") (lit "ok") = true := by decide
    simp [hfields, Json.plain, Json.plainFields, plainList_str, hlt]
  · simp [hfields, Json.utf8, Json.utf8Fields, h1, h2, utf8List_str fun id hid => (text_grantid (hids id hid)).1]
  · rw [hfields, write]
    simp only [write, writeFields, newline, colon, pad, List.length_cons, List.length_append, List.length_nil, h3, h4, h5,
      Option.isSome_none, Bool.false_eq_true, if_false, kMaxResponseBytes, Option.getD_none, Nat.add_zero]
    omega

theorem sendable_jobIds {shortid out : Str} (rc : Int) (hout : out.length ≤ 3 * 262144) :
    Sendable (.ofFields [(lit "ok", .bool true),
      (lit "job_ids", .arr ((if rc = 0 then jobIds shortid out else []).map .str))]) := by
  apply sendable_jobs
  · intro id hid
    split at hid
    · obtain ⟨line, -, hline⟩ := List.mem_filterMap.1 hid
      exact (jobOfLine_length hline).1
    · cases hid
  · split
    · exact ((jobIds_length shortid _).trans (length_flatten_lines _)).trans hout
    · rw [List.length_nil]
      omega

theorem handleCronListJobs_replies (oem : Oem) (o : ToolOutcome) (req : Json) (h : Host) :
    Replies (handleCronListJobs oem o req h).1 := by
  rw [handleCronListJobs]
  split
  · next e he => exact value_error asStr_error he
  split
  · exact replies_refuse_fixed (by simp [fixedTexts])
  · next shortid _ _ =>
    have hout := (runSystemTool_text oem (lit "schtasks.exe")
      [lit "/Query", lit "/TN", cronTaskFolder shortid, lit "/FO", lit "CSV", lit "/NH"] o h).2
    generalize runSystemTool oem (lit "schtasks.exe") _ o h = r at hout
    obtain ⟨⟨rc, out⟩, h'⟩ := r
    exact sendable_jobIds rc hout

theorem handleCronInstallJob_replies (J : JsonText) (oem : Oem) (o : CronInstallOutcome) (req : Json) (h : Host) :
    Replies (handleCronInstallJob J oem o req h).1 := by
  apply forJob_replies
  intro shortid jobId
  split
  swap
  · exact replies_refuse_fixed (by simp [fixedTexts])
  simp only
  split
  · exact replies_refuse_fixed (by simp [fixedTexts])
  split
  · exact replies_refuse_fixed (by simp [fixedTexts])
  split
  · exact replies_refuse_fixed (by simp [fixedTexts])
  split
  · exact replies_refuse_fixed (by simp [fixedTexts])
  split
  · have h1 : Text 100 (lit "schtasks /Create exit=") := fixed_text (by simp [fixedTexts])
    have h2 : Text 100 (lit " out=") := fixed_text (by simp [fixedTexts])
    apply replies_refuse
    exact (((h1.append (runSystemTool_rc ..)).append h2).append (runSystemTool_text ..).1).mono (by decide)
  · exact replies_okReply

theorem handleCronRemoveJob_replies (oem : Oem) (o : ToolOutcome) (req : Json) (h : Host) :
    Replies (handleCronRemoveJob oem o req h).1 := by
  apply forJob_replies
  intro shortid jobId
  simp only
  split
  · exact ⟨rfl, by decide +kernel, by decide +kernel⟩
  · exact ⟨rfl, by decide +kernel, by decide +kernel⟩

theorem handleCronWriteMeta_replies {J : JsonText} (hJ : J.Documented) (dir : Str) (o : MetaOutcome) (req : Json) (h : Host) :
    Replies (handleCronWriteMeta J dir o req h).1 := by
  apply forJob_replies
  intro shortid jobId
  split
  swap
  · exact replies_refuse_fixed (by simp [fixedTexts])
  simp only
  split
  · next e he => exact dump_error hJ he
  split
  · exact replies_refuse_fixed (by simp [fixedTexts])
  split
  · exact replies_okReply
  · exact replies_okReply

theorem handleCronDeleteMeta_replies (removed : Bool) (req : Json) (h : Host) : Replies (handleCronDeleteMeta removed req h).1 := by
  apply forJob_replies
  intro shortid jobId
  simp only
  split
  · exact replies_okReply
  · exact replies_okReply

end McpBridge.PrivWin
