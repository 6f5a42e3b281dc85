import McpBridge.Core.Config
import McpBridge.Grants.StateFile
import McpBridge.Users.Issue
/-!
# The webhook set on the command line (`cli/webhook_set.cpp`)

`webhook set` and `webhook clear` read the configuration, change its webhook and
write all of it back; `webhook show` prints it. The file is replaced by a temporary
one, which is made with mode 0644 by whoever runs the command.

Whatever commands run, and wherever they fail, the file loads as before but for the
webhook, which is that of the last command that succeeded (`webhook_history`). Its
owner and its mode are those of the temporary file (`replaced_attr`).
-/

open McpBridge.Lib McpBridge.Core McpBridge.Users
open McpBridge.Grants (tmpOf_ne)

namespace McpBridge.Cli

/-- The files around the configuration, by their paths. -/
abbrev ConfigFiles := Map Str StoredFile

/-- What the outside answers to a command. `daemonPid` is what `daemon.pid` in a state directory says. -/
structure WebhookEnv where
  process : Process
  pid : Nat
  replace : ReplaceOutcome := {}
  daemonPid : Str → Option Int := fun _ => none

/-! ## Options -/

structure SetOptions where
  configPath : Str := lit "/etc/mcp_bridge/mcp.json"
  url : Option Str := none
  secret : Option Str := none

inductive WebhookCommand where
  | set (configPath url : Str) (secret : Option Str)
  | show_ (configPath : Str)
  | clear (configPath : Str)

def unknownFlag (a : Str) : Nat × Str := (2, lit "unknown flag: " ++ a ++ lit "\n")

def setOptions : List Str → SetOptions → Except (Nat × Str) SetOptions
  | [], o => .ok o
  | [a], _ => .error (unknownFlag a)
  | a :: v :: rest, o =>
    if a = lit "--config" then setOptions rest { o with configPath := v }
    else if a = lit "--url" then setOptions rest { o with url := some v }
    else if a = lit "--secret" then setOptions rest { o with secret := some v }
    else .error (unknownFlag a)

/-- The options of `show` and `clear`. -/
def pathOption : List Str → Str → Except (Nat × Str) Str
  | [], path => .ok path
  | [a], _ => .error (unknownFlag a)
  | a :: v :: rest, _ => if a = lit "--config" then pathOption rest v else .error (unknownFlag a)

def usage : Str := lit "Usage:
  mcp_bridge webhook set   --url <url> [--secret <token>] [--config <path>]
  mcp_bridge webhook show  [--config <path>]
  mcp_bridge webhook clear [--config <path>]
"

/-- The subcommand and its options, or the exit code and what is printed. -/
def parseWebhook : List Str → Except (Nat × Str) WebhookCommand
  | [] => .error (2, usage)
  | sub :: args =>
    if sub = lit "set" then do
      let o ← setOptions args {}
      match o.url with
      | some url => .ok (.set o.configPath url o.secret)
      | none => .error (2, lit "ERROR: --url is required\n")
    else if sub = lit "show" then (pathOption args (lit "/etc/mcp_bridge/mcp.json")).map .show_
    else if sub = lit "clear" then (pathOption args (lit "/etc/mcp_bridge/mcp.json")).map .clear
    else .error (2, lit "unknown webhook subcommand: " ++ sub ++ lit "\n")

/-! ## The file -/

def openAs (who : Account) (path : Str) (files : ConfigFiles) : Option Str :=
  (files.lookup path).bind fun f => if who.may .read f.attr then some (if f.regular then f.content else []) else none

theorem openAs_content {who : Account} {path : Str} {files : ConfigFiles} {f : StoredFile} {t : Str}
    (hf : files.lookup path = some f) (hreg : f.regular = true) (h : openAs who path files = some t) : t = f.content := by
  simp only [openAs, hf, Option.bind_some, hreg, if_true] at h
  split at h
  · exact (Option.some.inj h).symm
  · cases h

section
variable (env : WebhookEnv)

/-- What reading the file gives, where the process may open it. -/
def openConfig (path : Str) (files : ConfigFiles) : Option Str := openAs env.process.toAccount path files

/-- The temporary file once it is written: one that was there keeps its owner and its mode. -/
def tmpConfig (path data : Str) (files : ConfigFiles) : StoredFile :=
  match files.lookup (tmpOf env.pid path) with
  | some left => { left with content := data }
  | none => ⟨true, env.process.attr 0o644, data⟩

/-- What is not a file cannot be opened for writing. -/
def atomicReplace (path data : Str) (files : ConfigFiles) : Except Str Unit × ConfigFiles :=
  let tmp := tmpOf env.pid path
  if !env.replace.opened || !(tmpConfig env path data files).regular then
    (.error (lit "open " ++ tmp ++ lit ": " ++ env.replace.strerror), files)
  else if !env.replace.written then (.error (lit "write"), files.erase tmp)
  else if !env.replace.renamed then (.error (lit "rename: " ++ env.replace.strerror), files.erase tmp)
  else (.ok (), (files.erase tmp).insert path (tmpConfig env path data files))

end

/-! ## The document -/

/-- The webhook of a document, or an empty one. -/
def webhookOf (doc : Json) : Json :=
  match doc.get? (lit "webhook") with
  | some (.obj l) => .obj l
  | _ => .obj []

/-- A secret that is not given stays, and is empty where there is none. -/
def setSecret (secret : Option Str) (w : Json) : Except JsonError Json :=
  match secret with
  | some s => w.set (lit "secret_token") (.str s)
  | none => if w.contains (lit "secret_token") then .ok w else w.set (lit "secret_token") (.str [])

def setWebhook (url : Str) (secret : Option Str) (doc : Json) : Except JsonError Json := do
  let w ← (webhookOf doc).set (lit "url") (.str url)
  let w ← setSecret secret w
  doc.set (lit "webhook") w

def clearWebhook (doc : Json) : Except JsonError Json :=
  doc.set (lit "webhook") (.ofFields [(lit "url", .str []), (lit "secret_token", .str [])])

/-! ## The commands -/

structure WebhookRun where
  code : Nat
  stdout : Str := []
  stderr : Str := []
  files : ConfigFiles
  /-- The process that is signalled. -/
  hup : Option Int := none

/-- How a command that changes nothing fails. -/
def failed (code : Nat) (m : Str) (files : ConfigFiles) : WebhookRun := { code, stderr := m, files }

section
variable (J : JsonText) (stream : Str → Streamed) (what : Str → Str) (env : WebhookEnv)

def readConfigDoc (path : Str) (content : Option Str) : Except Str Json :=
  match content with
  | none => .error (lit "cannot open " ++ path)
  | some text =>
    match J.parse text with
    | none => .error (what text)
    | some doc => if !doc.isObject then .error (lit "config root is not a JSON object") else .ok doc

/-- Reads the configuration twice, edits the document and replaces the file. -/
def editConfig (path : Str) (edit : Json → Except JsonError Json) (done : Str) (files : ConfigFiles) : WebhookRun :=
  match loadConfig stream what path (openConfig env path files) with
  | .error m => failed 1 (lit "ERROR: " ++ m ++ lit "\n") files
  | .ok cfg =>
    match readConfigDoc J what path (openConfig env path files) with
    | .error m => failed 1 (lit "ERROR: " ++ m ++ lit "\n") files
    | .ok doc =>
      match edit doc >>= J.dump (some 2) with
      | .error e => failed 1 (lit "ERROR: write " ++ path ++ lit ": " ++ e.what ++ lit "\n") files
      | .ok text =>
        match atomicReplace env path (text ++ lit "\n") files with
        | (.error m, files) => failed 1 (lit "ERROR: write " ++ path ++ lit ": " ++ m ++ lit "\n") files
        | (.ok _, files) => { code := 0, stderr := done, files, hup := trySighupDaemon (env.daemonPid cfg.stateDir) }

def orUnset (shown s : Str) : Str := if s = [] then lit "(unset)" else shown

def WebhookCommand.exec : WebhookCommand → ConfigFiles → WebhookRun
  | .set path url secret, files =>
    editConfig J stream what env path (setWebhook url secret)
      (lit "webhook set: url=" ++ url ++ lit " secret=" ++
        (if secret.any (· ≠ []) then lit "(set)" else lit "(unchanged)") ++ lit "\n") files
  | .show_ path, files =>
    match loadConfig stream what path (openConfig env path files) with
    | .error m => failed 1 (lit "ERROR: " ++ m ++ lit "\n") files
    | .ok cfg =>
      { code := 0, files
        stdout := lit "webhook.url:          " ++ orUnset cfg.webhookUrl cfg.webhookUrl ++ lit "\nwebhook.secret_token: " ++
          orUnset (lit "(set)") cfg.webhookSecretToken ++ lit "\n" }
  | .clear path, files => editConfig J stream what env path clearWebhook (lit "webhook cleared\n") files

def cliWebhook (argv : List Str) (files : ConfigFiles) : WebhookRun :=
  match parseWebhook argv with
  | .error (code, m) => failed code m files
  | .ok cmd => cmd.exec J stream what env files

end

/-! ## What an edit does to the document -/

/-- The document after an edit: an object still, that can be written, the same but for the webhook, which is `w`. -/
structure WebhookEdit (doc doc' w : Json) : Prop where
  isObject : doc'.isObject = true
  storable : doc.Storable → doc'.Storable
  webhook : doc'.get? (lit "webhook") = some w
  others : ∀ k, k ≠ lit "webhook" → doc'.get? k = doc.get? k

theorem webhookEdit_of_set {doc doc' w : Json} (hobj : doc.isObject = true) (hw : doc.Storable → w.Storable)
    (h : doc.set (lit "webhook") w = .ok doc') : WebhookEdit doc doc' w where
  isObject := by
    cases doc with
    | obj l =>
      cases h
      rfl
    | _ => cases hobj
  storable hs := hs.set (hw hs) h
  webhook := by rw [Json.get?_set h, if_pos rfl]
  others k hk := by rw [Json.get?_set h, if_neg (Ne.symm hk)]

/-- The secret of a webhook that was set. -/
def secretAfter (secret : Option Str) (old : Json) : Json :=
  match secret with
  | some s => .str s
  | none => (old.get? (lit "secret_token")).getD (.str [])

theorem webhookOf_storable {doc : Json} (h : doc.Storable) : (webhookOf doc).Storable := by
  unfold webhookOf
  split
  · next l hl => exact h.get? hl
  · exact ⟨rfl, rfl⟩

theorem setWebhook_edit {url : Str} {secret : Option Str} {doc doc' : Json} (hobj : doc.isObject = true)
    (h : setWebhook url secret doc = .ok doc') :
    ∃ l, WebhookEdit doc doc' (.obj l) ∧ (Json.obj l).get? (lit "url") = some (.str url) ∧
      (Json.obj l).get? (lit "secret_token") = some (secretAfter secret (webhookOf doc)) := by
  obtain ⟨w, hw, h⟩ := bind_eq_ok.1 h
  obtain ⟨w', hw', h⟩ := bind_eq_ok.1 h
  have hurl : (lit "url" : Str) ≠ lit "secret_token" := by decide
  -- Setting the url leaves the secret as it was.
  have hsecret : w.get? (lit "secret_token") = (webhookOf doc).get? (lit "secret_token") := by
    rw [Json.get?_set hw, if_neg hurl]
  have hw'_get : w'.get? (lit "url") = some (.str url) ∧
      w'.get? (lit "secret_token") = some (secretAfter secret (webhookOf doc)) ∧ (doc.Storable → w'.Storable) := by
    have hws : doc.Storable → w.Storable := fun hs => (webhookOf_storable hs).set (Json.storable_str url) hw
    have hwu : w.get? (lit "url") = some (.str url) := by rw [Json.get?_set hw, if_pos rfl]
    have hset : ∀ s, w.set (lit "secret_token") (.str s) = .ok w' → w'.get? (lit "url") = some (.str url) ∧
        w'.get? (lit "secret_token") = some (.str s) ∧ (doc.Storable → w'.Storable) := fun s hs =>
      ⟨by rw [Json.get?_set hs, if_neg hurl.symm, hwu], by rw [Json.get?_set hs, if_pos rfl],
        fun hd => (hws hd).set (Json.storable_str s) hs⟩
    cases secret with
    | some s => exact hset s hw'
    | none =>
      simp only [setSecret] at hw'
      rcases hold : w.get? (lit "secret_token") with _ | old
      · rw [if_neg (by simp [Json.contains, hold])] at hw'
        rw [secretAfter, ← hsecret, hold]
        exact hset [] hw'
      · rw [if_pos (by simp [Json.contains, hold])] at hw'
        cases hw'
        rw [secretAfter, ← hsecret, hold]
        exact ⟨hwu, rfl, hws⟩
  obtain ⟨l, rfl⟩ : ∃ l, w' = .obj l := by
    cases w' with
    | obj l => exact ⟨l, rfl⟩
    | _ => cases hw'_get.1
  exact ⟨l, webhookEdit_of_set hobj hw'_get.2.2 h, hw'_get.1, hw'_get.2.1⟩

theorem clearWebhook_edit {doc doc' : Json} (hobj : doc.isObject = true) (h : clearWebhook doc = .ok doc') :
    ∃ l, WebhookEdit doc doc' (.obj l) ∧ (Json.obj l).get? (lit "url") = some (.str []) ∧
      (Json.obj l).get? (lit "secret_token") = some (.str []) :=
  ⟨_, webhookEdit_of_set hobj (fun _ => ⟨by decide, by decide⟩) h, rfl, rfl⟩

/-! ## What the edited document loads as -/

theorem inSection_obj {doc : Json} {key : String} {l : List (Str × Json)} (h : doc.get? (lit key) = some (.obj l))
    (read : Json → Config → Except Str Config) (cfg : Config) : inSection doc key read cfg = read (.obj l) cfg := by
  simp [inSection, h, Json.isObject]

theorem strOr_str {obj : Json} {key : String} {s : Str} (h : obj.get? (lit key) = some (.str s)) (fallback : Str) :
    strOr obj key fallback = .ok s := by
  simp [strOr, h]

/-- An edited document loads as before, but for the webhook. -/
theorem readDoc_edit {doc doc' : Json} {cfg : Config} {l : List (Str × Json)} {url secret : Str}
    (he : WebhookEdit doc doc' (.obj l)) (hurl : (Json.obj l).get? (lit "url") = some (.str url))
    (hsecret : strOr (.obj l) "secret_token" [] = .ok secret) (h : readDoc doc = .ok cfg) :
    readDoc doc' = .ok { cfg with webhookUrl := url, webhookSecretToken := secret } := by
  obtain ⟨c, hc, h⟩ := bind_eq_ok.1 h
  have hcfg : cfg = { c with webhookUrl := cfg.webhookUrl, webhookSecretToken := cfg.webhookSecretToken } := by
    unfold inSection at h
    split at h
    · split at h
      · obtain ⟨u, -, h⟩ := bind_eq_ok.1 h
        obtain ⟨s, -, h⟩ := bind_eq_ok.1 h
        cases h
        rfl
      · cases h
        rfl
    · cases h
      rfl
  have hempty : c.webhookSecretToken = [] := (readOthers_keeps doc {} c hc).2
  unfold readDoc
  rw [readOthers_congr he.others, hc]
  show inSection doc' "webhook" readWebhook c = _
  rw [inSection_obj he.webhook, readWebhook, strOr_str hurl, hempty, hsecret, hcfg]
  rfl

/-- The secret that stays is the one the document had. -/
theorem secret_stays {doc : Json} {cfg : Config} {l : List (Str × Json)} (h : readDoc doc = .ok cfg)
    (hl : (Json.obj l).get? (lit "secret_token") = some (secretAfter none (webhookOf doc))) :
    strOr (.obj l) "secret_token" [] = .ok cfg.webhookSecretToken := by
  obtain ⟨c, hc, h⟩ := bind_eq_ok.1 h
  have hempty : c.webhookSecretToken = [] := (readOthers_keeps doc {} c hc).2
  have hnone : ∀ w : Json, w.get? (lit "secret_token") = none → secretAfter none w = .str [] := by
    intro w hw
    simp [secretAfter, hw]
  unfold inSection at h
  unfold webhookOf at hl
  split at h
  · next s hs =>
    cases s with
    | obj w =>
      -- The webhook that was read.
      obtain ⟨u, -, h⟩ := bind_eq_ok.1 h
      obtain ⟨s, hsec, h⟩ := bind_eq_ok.1 h
      cases h
      rw [hs] at hl
      rw [hempty] at hsec
      show strOr (.obj l) "secret_token" [] = .ok s
      rw [← hsec]
      unfold strOr
      rw [hl]
      rcases hold : (Json.obj w).get? (lit "secret_token") with _ | old
      · rw [hnone _ hold]
      · rw [secretAfter, hold]
        rfl
    | _ =>
      cases h
      rw [hs] at hl
      rw [strOr_str (hl.trans (congrArg some (hnone _ rfl))), hempty]
  · next hs =>
    cases h
    rw [hs] at hl
    rw [strOr_str (hl.trans (congrArg some (hnone _ rfl))), hempty]

/-! ## What a command does to the files -/

section
variable {J : JsonText} {stream : Str → Streamed} {what : Str → Str} {env : WebhookEnv} {path : Str} {files : ConfigFiles}

/-- The files are as they were, but that the temporary one may be gone. -/
def Kept (tmp : Str) (files files' : ConfigFiles) : Prop := files' = files ∨ files' = files.erase tmp

theorem Kept.lookup {tmp q : Str} {files files' : ConfigFiles} (h : Kept tmp files files') (hq : q ≠ tmp) :
    files'.lookup q = files.lookup q := by
  rcases h with rfl | rfl
  · rfl
  · rw [Map.lookup_erase_if, if_neg hq]

theorem atomicReplace_cases {data : Str} {r : Except Str Unit} {files' : ConfigFiles}
    (h : atomicReplace env path data files = (r, files')) :
    ((∃ m, r = .error m) ∧ Kept (tmpOf env.pid path) files files') ∨
      (r = .ok () ∧ (tmpConfig env path data files).regular = true ∧
        files' = (files.erase (tmpOf env.pid path)).insert path (tmpConfig env path data files)) := by
  unfold atomicReplace at h
  simp only at h
  split at h
  · cases h
    exact .inl ⟨⟨_, rfl⟩, .inl rfl⟩
  next hopen =>
  have hreg : (tmpConfig env path data files).regular = true := by
    simp only [Bool.or_eq_true, Bool.not_eq_true', not_or, Bool.not_eq_false] at hopen
    exact hopen.2
  split at h
  · cases h
    exact .inl ⟨⟨_, rfl⟩, .inr rfl⟩
  split at h
  · cases h
    exact .inl ⟨⟨_, rfl⟩, .inr rfl⟩
  · cases h
    exact .inr ⟨rfl, hreg, rfl⟩

/-- What an edit that succeeded read and left. -/
structure Rewritten (J : JsonText) (env : WebhookEnv) (path : Str) (edit : Json → Except JsonError Json)
    (files : ConfigFiles) (r : WebhookRun) (doc doc' : Json) (text : Str) : Prop where
  code : r.code = 0
  read : ∃ old, openConfig env path files = some old ∧ J.parse old = some doc
  isObject : doc.isObject = true
  edited : edit doc = .ok doc'
  dumped : J.dump (some 2) doc' = .ok text
  regular : (tmpConfig env path (text ++ lit "\n") files).regular = true
  written : r.files = (files.erase (tmpOf env.pid path)).insert path (tmpConfig env path (text ++ lit "\n") files)
  signalled : ∃ stateDir, r.hup = trySighupDaemon (env.daemonPid stateDir)

variable (J stream what env path files) in
theorem editConfig_cases (edit : Json → Except JsonError Json) (done : Str) :
    ((editConfig J stream what env path edit done files).code ≠ 0 ∧
      Kept (tmpOf env.pid path) files (editConfig J stream what env path edit done files).files) ∨
    ∃ doc doc' text, Rewritten J env path edit files (editConfig J stream what env path edit done files) doc doc' text := by
  unfold editConfig
  split
  · exact .inl ⟨Nat.one_ne_zero, .inl rfl⟩
  split
  · exact .inl ⟨Nat.one_ne_zero, .inl rfl⟩
  next doc hdoc =>
  split
  · exact .inl ⟨Nat.one_ne_zero, .inl rfl⟩
  next text htext =>
  obtain ⟨doc', hedit, hdump⟩ := bind_eq_ok.1 htext
  obtain ⟨hread, hobj⟩ : (∃ old, openConfig env path files = some old ∧ J.parse old = some doc) ∧ doc.isObject = true := by
    unfold readConfigDoc at hdoc
    split at hdoc
    · cases hdoc
    next old hold =>
    split at hdoc
    · cases hdoc
    next d hparse =>
    split at hdoc
    · cases hdoc
    next hobj =>
    cases hdoc
    exact ⟨⟨old, hold, hparse⟩, by simpa using hobj⟩
  split
  · next m files' hrep =>
    rcases atomicReplace_cases hrep with ⟨-, hkeep⟩ | ⟨hok, -, -⟩
    · exact .inl ⟨Nat.one_ne_zero, hkeep⟩
    · cases hok
  · next files' hrep =>
    rcases atomicReplace_cases hrep with ⟨⟨m, hm⟩, -⟩ | ⟨-, hreg, hwritten⟩
    · cases hm
    · exact .inr ⟨doc, doc', text, rfl, hread, hobj, hedit, hdump, hreg, hwritten, _, rfl⟩

end

/-! ## What commands leave behind -/

def WebhookCommand.path : WebhookCommand → Str
  | set path .. | show_ path | clear path => path

/-- What the command does to the document. -/
def WebhookCommand.edit : WebhookCommand → Option (Json → Except JsonError Json)
  | set _ url secret => some (setWebhook url secret)
  | show_ _ => none
  | clear _ => some clearWebhook

/-- The webhook as the exit codes say it is, and the process that wrote the file last. -/
structure Settled where
  url : Str
  secret : Str
  writer : Option Process := none

/-- After a command that succeeded. -/
def WebhookCommand.settle (p : Process) : WebhookCommand → Settled → Settled
  | set _ url secret, w => ⟨url, secret.getD w.secret, some p⟩
  | show_ _, w => w
  | clear _, _ => ⟨[], [], some p⟩

/-- After a command line that ended with `code`. -/
def settleAfter (p : Process) (argv : List Str) (code : Nat) (w : Settled) : Settled :=
  match parseWebhook argv with
  | .ok cmd => if code = 0 then cmd.settle p w else w
  | .error _ => w

/-- The configuration with this webhook. -/
def Settled.of (w : Settled) (cfg : Config) : Config := { cfg with webhookUrl := w.url, webhookSecretToken := w.secret }

/-- The owner and the mode of the file, which had `attr`. -/
def Settled.attr (w : Settled) (attr : Attr) : Attr := (w.writer.map (·.attr 0o644)).getD attr

/-- The command line is about the file at `path`, where it is a command at all. -/
def Concerns (path : Str) (argv : List Str) : Prop := ∀ cmd, parseWebhook argv = .ok cmd → cmd.path = path

theorem concerns_of_parse {path : Str} {argv : List Str} (h : (parseWebhook argv).map WebhookCommand.path = .ok path) :
    Concerns path argv := by
  intro cmd hcmd
  rw [hcmd] at h
  exact Except.ok.inj h

section
variable (J : JsonText) (stream : Str → Streamed) (what : Str → Str)

/-- One command line after the other. -/
def history : List (WebhookEnv × List Str) → ConfigFiles × Settled → ConfigFiles × Settled
  | [], s => s
  | (env, argv) :: rest, (files, w) =>
    let r := cliWebhook J stream what env argv files
    history rest (r.files, settleAfter env.process argv r.code w)

/-- There is a file at `path`, and it loads as `cfg`. -/
def Loads (path : Str) (cfg : Config) (files : ConfigFiles) : Prop :=
  ∃ f, files.lookup path = some f ∧ f.regular = true ∧ loadConfig stream what path (some f.content) = .ok cfg

/-- Whoever may read the file loads it. -/
theorem load_of_loads {who : Account} {path : Str} {cfg : Config} {files : ConfigFiles} (h : Loads stream what path cfg files)
    (hopen : (openAs who path files).isSome = true) : loadConfig stream what path (openAs who path files) = .ok cfg := by
  obtain ⟨f, hf, hreg, hload⟩ := h
  obtain ⟨t, ht⟩ := Option.isSome_iff_exists.1 hopen
  rw [ht, openAs_content hf hreg ht, hload]

variable (env : WebhookEnv) {path : Str} {argv : List Str}

theorem exec_show (files : ConfigFiles) : ((WebhookCommand.show_ path).exec J stream what env files).files = files := by
  simp only [WebhookCommand.exec]
  split <;> rfl

theorem exec_edit {cmd : WebhookCommand} {edit : Json → Except JsonError Json} (h : cmd.edit = some edit) (files : ConfigFiles) :
    ∃ done, cmd.exec J stream what env files = editConfig J stream what env cmd.path edit done files := by
  cases cmd with
  | show_ => cases h
  | set | clear =>
    cases h
    exact ⟨_, rfl⟩

/-- A command line changes nothing, or it rewrites the file. -/
theorem cliWebhook_cases (hc : Concerns path argv) (files : ConfigFiles) (w : Settled) :
    (settleAfter env.process argv (cliWebhook J stream what env argv files).code w = w ∧
      Kept (tmpOf env.pid path) files (cliWebhook J stream what env argv files).files) ∨
    ∃ (cmd : WebhookCommand) (edit : _) (doc doc' : Json) (text : Str), cmd.edit = some edit ∧
      settleAfter env.process argv (cliWebhook J stream what env argv files).code w = cmd.settle env.process w ∧
      Rewritten J env path edit files (cliWebhook J stream what env argv files) doc doc' text := by
  unfold cliWebhook settleAfter
  rcases hp : parseWebhook argv with ⟨code, m⟩ | cmd
  · exact .inl ⟨rfl, .inl rfl⟩
  cases hedit : cmd.edit with
  | none =>
    obtain ⟨p, rfl⟩ : ∃ p, cmd = .show_ p := by
      cases cmd with
      | show_ p => exact ⟨p, rfl⟩
      | _ => cases hedit
    exact .inl ⟨by simp [WebhookCommand.settle], .inl (exec_show J stream what env files)⟩
  | some edit =>
    obtain ⟨done, hexec⟩ := exec_edit J stream what env hedit files
    rw [hc cmd hp] at hexec
    simp only [hexec]
    rcases editConfig_cases J stream what env path files edit done with
      ⟨hcode, hkeep⟩ | ⟨doc, doc', text, hw⟩
    · exact .inl ⟨if_neg hcode, hkeep⟩
    · exact .inr ⟨cmd, edit, doc, doc', text, hedit, if_pos hw.code, hw⟩

/-- What an edit makes of the document, and of what it loads as. -/
theorem edit_settles {cmd : WebhookCommand} {edit : Json → Except JsonError Json} {doc doc' : Json} {cfg : Config} (p : Process)
    (hcmd : cmd.edit = some edit) (hobj : doc.isObject = true) (hedit : edit doc = .ok doc') (hread : readDoc doc = .ok cfg) :
    ∃ w, WebhookEdit doc doc' w ∧
      readDoc doc' = .ok ((cmd.settle p ⟨cfg.webhookUrl, cfg.webhookSecretToken, none⟩).of cfg) := by
  cases cmd with
  | show_ => cases hcmd
  | set path url secret =>
    cases hcmd
    obtain ⟨l, he, hurl, hsec⟩ := setWebhook_edit hobj hedit
    refine ⟨.obj l, he, readDoc_edit he hurl ?_ hread⟩
    cases secret with
    | some s => exact strOr_str hsec []
    | none => exact secret_stays hread hsec
  | clear path =>
    cases hcmd
    obtain ⟨l, he, hurl, hsec⟩ := clearWebhook_edit hobj hedit
    exact ⟨.obj l, he, readDoc_edit he hurl (strOr_str hsec []) hread⟩

variable {J stream what env}

/-- What an edit that succeeded leaves loads as before, but for the webhook. -/
theorem Rewritten.loads (hJ : J.Faithful stream) {cmd : WebhookCommand} {edit : Json → Except JsonError Json}
    {files : ConfigFiles} {r : WebhookRun} {doc doc' : Json} {text : Str} {cfg : Config} {w : Settled} (hcmd : cmd.edit = some edit)
    (hr : Rewritten J env path edit files r doc doc' text) (h : Loads stream what path (w.of cfg) files) :
    Loads stream what path ((cmd.settle env.process w).of cfg) r.files := by
  obtain ⟨f, hf, hreg, hload⟩ := h
  obtain ⟨old, hopen, hparse⟩ := hr.read
  -- What is parsed is what the stream gave.
  have hold : old = f.content := openAs_content hf hreg hopen
  subst hold
  obtain ⟨hstorable, hstream⟩ := hJ.parsed _ _ hparse
  have hread : readDoc doc = .ok (w.of cfg) := by
    simpa [loadConfig, hstream, hr.isObject] using hload
  obtain ⟨v, he, hread'⟩ := edit_settles env.process hcmd hr.isObject hr.edited hread
  -- And what is written is parsed again.
  obtain ⟨-, hstream'⟩ := hJ.parsed _ _ (hJ.written _ _ _ (he.storable hstorable) hr.dumped)
  refine ⟨tmpConfig env path (text ++ lit "\n") files, by rw [hr.written, Map.lookup_insert_if, if_pos rfl], hr.regular, ?_⟩
  have hcontent : (tmpConfig env path (text ++ lit "\n") files).content = text ++ lit "\n" := by
    unfold tmpConfig
    split <;> rfl
  rw [hcontent]
  simp only [loadConfig, hstream', he.isObject, Bool.not_true, Bool.false_eq_true, if_false, hread']
  cases cmd <;> rfl

/-- One command line. -/
theorem loads_step (hJ : J.Faithful stream) {files : ConfigFiles} {cfg : Config} {w : Settled} (hc : Concerns path argv)
    (h : Loads stream what path (w.of cfg) files) :
    Loads stream what path ((settleAfter env.process argv (cliWebhook J stream what env argv files).code w).of cfg)
      (cliWebhook J stream what env argv files).files := by
  rcases cliWebhook_cases J stream what env hc files w with ⟨hw, hkeep⟩ | ⟨cmd, edit, doc, doc', text, hcmd, hw, hr⟩
  · rw [hw]
    obtain ⟨f, hf, hrest⟩ := h
    exact ⟨f, by rw [hkeep.lookup (tmpOf_ne env.pid path).symm, hf], hrest⟩
  · rw [hw]
    exact hr.loads hJ hcmd h

/-- Whatever commands run, and wherever they fail: the file loads as before, but for the webhook, which is
that of the last command that succeeded. -/
theorem webhook_history (hJ : J.Faithful stream) {cmds : List (WebhookEnv × List Str)} (hpath : ∀ c ∈ cmds, Concerns path c.2)
    {files : ConfigFiles} {cfg : Config} {w : Settled} (h : Loads stream what path (w.of cfg) files) :
    Loads stream what path ((history J stream what cmds (files, w)).2.of cfg) (history J stream what cmds (files, w)).1 := by
  induction cmds generalizing files w with
  | nil => exact h
  | cons c cmds ih =>
    obtain ⟨env, argv⟩ := c
    obtain ⟨hc, hpath⟩ := List.forall_mem_cons.1 hpath
    exact ih hpath (loads_step hJ hc h)

/-- Root's commands: one that sets the url and the secret, one that fails, and one that sets the url. -/
def sampleCommands : List (WebhookEnv × List Str) :=
  let process : Process := { uid := 0, gid := 0, umask := 0o022, cwd := [] }
  [({ process, pid := 7 }, [lit "set", lit "--url", lit "a", lit "--secret", lit "s"]),
    ({ process, pid := 8, replace := { renamed := false } }, [lit "clear"]),
    ({ process, pid := 9 }, [lit "set", lit "--url", lit "b"])]

def mcpJson : Str := lit "/etc/mcp_bridge/mcp.json"

def sampleFiles : ConfigFiles := (∅ : ConfigFiles).insert mcpJson ⟨true, ⟨0, 110, 0o640⟩, lit "\x7b\x7d"⟩

/-- What they leave behind. -/
def sampleRun : ConfigFiles × Settled :=
  history jsonStrict (streamOf jsonStrict) (fun _ => []) sampleCommands (sampleFiles, ⟨[], [], none⟩)

theorem concerns_sample : ∀ c ∈ sampleCommands, Concerns mcpJson c.2 := by
  have hparse : ∀ c ∈ sampleCommands, (parseWebhook c.2).map WebhookCommand.path = .ok mcpJson := by
    simp only [sampleCommands, List.forall_mem_cons, List.not_mem_nil, false_implies, implies_true, and_true]
    exact ⟨rfl, rfl, rfl⟩
  exact fun c hc => concerns_of_parse (hparse c hc)

theorem webhook_history_small :
    Loads (streamOf jsonStrict) (fun _ => []) mcpJson { webhookUrl := lit "b", webhookSecretToken := lit "s" } sampleRun.1 := by
  have h : Loads (streamOf jsonStrict) (fun _ => []) mcpJson ((⟨[], [], none⟩ : Settled).of {}) sampleFiles := ⟨_, rfl, rfl, rfl⟩
  have hu : sampleRun.2.url = lit "b" := by decide +kernel
  have hs : sampleRun.2.secret = lit "s" := by decide +kernel
  have hrun : Loads (streamOf jsonStrict) (fun _ => []) mcpJson (sampleRun.2.of {}) sampleRun.1 :=
    webhook_history jsonStrict_faithful concerns_sample h
  rwa [Settled.of, hu, hs] at hrun

/-! ## Who can read the file -/

/-- Nothing is left of a write that was cut short. -/
def NoTemporary (path : Str) (files : ConfigFiles) : Prop := ∀ pid, files.lookup (tmpOf pid path) = none

theorem attr_step {files : ConfigFiles} {attr : Attr} {w : Settled} (hc : Concerns path argv) (hno : NoTemporary path files)
    (h : (files.lookup path).map (·.attr) = some (w.attr attr)) :
    NoTemporary path (cliWebhook J stream what env argv files).files ∧
      ((cliWebhook J stream what env argv files).files.lookup path).map (·.attr) =
        some ((settleAfter env.process argv (cliWebhook J stream what env argv files).code w).attr attr) := by
  rcases cliWebhook_cases J stream what env hc files w with ⟨hw, hkeep⟩ | ⟨cmd, edit, doc, doc', text, hcmd, hw, hr⟩
  · refine ⟨fun pid => ?_, by rw [hw, hkeep.lookup (tmpOf_ne env.pid path).symm, h]⟩
    rcases hkeep with heq | heq <;> rw [heq]
    · exact hno pid
    · rw [Map.lookup_erase_if, hno pid, ite_self]
  · rw [hw, hr.written]
    refine ⟨fun pid => ?_, ?_⟩
    · rw [Map.lookup_insert_if, if_neg (tmpOf_ne pid path), Map.lookup_erase_if, hno pid, ite_self]
    · have hsettled : (cmd.settle env.process w).writer = some env.process := by
        cases cmd with
        | show_ => cases hcmd
        | set | clear => rfl
      simp [tmpConfig, hno env.pid, Settled.attr, hsettled]

/-- The file has the owner and the mode of the last command that wrote it, whatever it had before. -/
theorem replaced_attr {cmds : List (WebhookEnv × List Str)} (hpath : ∀ c ∈ cmds, Concerns path c.2) {files : ConfigFiles}
    {attr : Attr} {w : Settled} (hno : NoTemporary path files) (h : (files.lookup path).map (·.attr) = some (w.attr attr)) :
    ((history J stream what cmds (files, w)).1.lookup path).map (·.attr) =
      some ((history J stream what cmds (files, w)).2.attr attr) := by
  induction cmds generalizing files w with
  | nil => exact h
  | cons c cmds ih =>
    obtain ⟨env, argv⟩ := c
    obtain ⟨hc, hpath⟩ := List.forall_mem_cons.1 hpath
    obtain ⟨hno, h⟩ := attr_step hc hno h
    exact ih hpath hno h

/-- An account the process and its group have nothing to do with. -/
def Stranger (who : Account) (p : Process) : Prop := who.uid ≠ 0 ∧ who.uid ≠ p.uid ∧ p.gid ≠ who.gid ∧ p.gid ∉ who.groups

theorem stranger_may_read_iff {who : Account} {p : Process} (h : Stranger who p) :
    who.may .read (p.attr 0o644) = !p.umask.getLsbD 2 := by
  obtain ⟨hroot, howner, hgid, hgroups⟩ := h
  simp [Account.may, Process.attr, hroot, howner, hgid, hgroups, Access.bit]

/-- Once a command has written the file, its umask alone decides whether strangers may read it. -/
theorem strangers_read_iff {cmds : List (WebhookEnv × List Str)} (hpath : ∀ c ∈ cmds, Concerns path c.2) {files : ConfigFiles}
    {f : StoredFile} {url secret : Str} {p : Process} (hno : NoTemporary path files) (hf : files.lookup path = some f)
    (hp : (history J stream what cmds (files, ⟨url, secret, none⟩)).2.writer = some p) {who : Account} (hwho : Stranger who p) :
    ((history J stream what cmds (files, ⟨url, secret, none⟩)).1.lookup path).map (fun g => who.may .read g.attr) =
      some (!p.umask.getLsbD 2) := by
  have hattr : ((history J stream what cmds (files, ⟨url, secret, none⟩)).1.lookup path).map (·.attr) =
      some ((history J stream what cmds (files, ⟨url, secret, none⟩)).2.attr f.attr) :=
    replaced_attr hpath hno (by rw [hf]; rfl)
  rw [Settled.attr, hp] at hattr
  rw [← stranger_may_read_iff hwho]
  simpa using congrArg (Option.map (who.may .read)) hattr

/-- The daemon's account may read the file after root's commands, and so may any other. -/
theorem strangers_read_small : (sampleRun.1.lookup mcpJson).map (fun g => ({ uid := 998, gid := 998 } : Account).may .read g.attr) =
    some true := by
  have hno : NoTemporary mcpJson sampleFiles := by
    intro pid
    rw [sampleFiles, Map.lookup_insert_if, if_neg (tmpOf_ne pid mcpJson), AList.lookup_empty]
  have hwriter : (sampleRun.2.writer.map fun p => (p.uid, p.gid, p.umask)) = some (0, 0, 0o022) := by decide +kernel
  obtain ⟨p, hp, hfields⟩ := Option.map_eq_some_iff.1 hwriter
  obtain ⟨huid, hgid, humask⟩ : p.uid = 0 ∧ p.gid = 0 ∧ p.umask = 0o022 := by simpa using hfields
  have hread : (sampleRun.1.lookup mcpJson).map (fun g => ({ uid := 998, gid := 998 } : Account).may .read g.attr) =
      some (!p.umask.getLsbD 2) :=
    strangers_read_iff concerns_sample hno rfl hp ⟨by decide, by simp [huid], by simp [hgid], by simp⟩
  rwa [humask] at hread

end

end McpBridge.Cli
