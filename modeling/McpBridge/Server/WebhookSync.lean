import McpBridge.Cli.Webhook
import McpBridge.Lib.Runs
import McpBridge.Priv.Runtime
/-!
# How a webhook reaches the users (`core/server.cpp`, `core/runtime_sync.cpp`)

The webhook of the configuration file reaches a user as its `runtime.json`. The
commands of root change the file and signal the daemon, which reads it at its next
request and writes all the files, where the webhook is not the one it knew. `auth
create` writes the file of the new user from the configuration file, and
`user_create` from what the daemon knows.

Where every signal arrives and every write succeeds, and no user is made on the
command line while a reload is pending, every user whose file was written has the
webhook of the configuration file in it whenever no reload is pending
(`webhook_reaches`). A user made while one was, with
a webhook that is then taken back, keeps it (`webhook_never_reaches`).
-/

open McpBridge.Lib McpBridge.Core McpBridge.Users McpBridge.Cli
open McpBridge.Priv (username writeForUser_ok)

namespace McpBridge.Server

/-- What `write_for_user` takes of the configuration. -/
def runtimeConfig (cfg : Core.Config) : RuntimeConfig where
  usersStateDir := cfg.usersStateDir
  helperPath := cfg.helperPath
  webhookUrl := cfg.webhookUrl
  webhookSecretToken := cfg.webhookSecretToken

def webhook (cfg : Core.Config) : Str × Str := (cfg.webhookUrl, cfg.webhookSecretToken)

structure World where
  files : ConfigFiles
  /-- The configuration as the daemon knows it. -/
  config : Core.Config
  reloadUsers : Bool := false
  /-- The files of the users, by user name. -/
  runtime : Map Str Str := ∅

/-- How the helpers that write the files end. One that reports a failure may have written the file all the same. -/
structure Writers where
  answer : RuntimeWrite → Cron.ProcessResult
  landed : Str → Bool := fun _ => false

/-- What a reload meets: whether the users can be read, and their files. -/
structure ReloadEnv extends Writers where
  users : Except Str Unit := .ok ()
  dir : Directory

inductive SyncEvent where
  | webhook (env : WebhookEnv) (argv : List Str)
  | authCreate (process : Process) (daemonPid : Str → Option Int) (shortid : Str) (writers : Writers)
  | userCreate (shortid : Str) (writers : Writers)
  | request (env : ReloadEnv)
  | restart

section
variable (J : JsonText) (stream : Str → Streamed) (what : Str → Str)

/-- What `write_for_user` writes. -/
def runtimeText (cfg : Core.Config) : Option Str :=
  match J.dump (some 2) (.ofFields [(lit "webhook_url", .str cfg.webhookUrl),
    (lit "webhook_secret_token", .str cfg.webhookSecretToken)]) with
  | .ok body => some (body ++ lit "\n")
  | .error _ => none

def Writers.write (writers : Writers) (cfg : Core.Config) : Str → Except Str Unit := writeForUser J (runtimeConfig cfg) writers.answer

def Writers.lands (writers : Writers) (cfg : Core.Config) (u : Str) : Bool :=
  match writers.write J cfg u with
  | .ok () => true
  | .error _ => writers.landed u

def Writers.seed (writers : Writers) (cfg : Core.Config) (u : Str) (runtime : Map Str Str) : Map Str Str :=
  match runtimeText J cfg with
  | some text => if writers.lands J cfg u then runtime.insert u text else runtime
  | none => runtime

/-- The users `write_all` gets to. -/
def ReloadEnv.reached (env : ReloadEnv) (cfg : Core.Config) : List Str :=
  (writeAll stream (env.write J cfg) env.dir).2.attempted

variable (path : Str) (daemon : Account) (pid : Int)

def World.loaded (w : World) (who : Account) : Except Str Core.Config := loadConfig stream what path (openAs who path w.files)

/-- Takes a pending reload. What goes wrong is logged. -/
def World.handleReload (env : ReloadEnv) (w : World) : World :=
  if !w.reloadUsers then w
  else match env.users with
    | .error _ => { w with reloadUsers := false }
    | .ok () =>
      match w.loaded stream what path daemon with
      | .error _ => { w with reloadUsers := false }
      | .ok cfg =>
        if cfg.webhookUrl ≠ w.config.webhookUrl ∨ cfg.webhookSecretToken ≠ w.config.webhookSecretToken then
          { w with
            reloadUsers := false
            config := cfg
            runtime := (env.reached J stream cfg).foldl (fun runtime u => env.seed J cfg u runtime) w.runtime }
        else { w with reloadUsers := false, config := cfg }

def World.next (w : World) : SyncEvent → Option World
  | .webhook env argv =>
    let r := cliWebhook J stream what env argv w.files
    some { w with files := r.files, reloadUsers := w.reloadUsers || r.hup = some pid }
  | .authCreate process daemonPid shortid writers =>
    match w.loaded stream what path process.toAccount with
    | .error _ => some w
    | .ok cfg =>
      some { w with
        reloadUsers := w.reloadUsers || trySighupDaemon (daemonPid cfg.stateDir) = some pid
        runtime := writers.seed J cfg (username shortid) w.runtime }
  | .userCreate shortid writers => some { w with runtime := writers.seed J w.config (username shortid) w.runtime }
  | .request env => some (w.handleReload J stream what path daemon env)
  | .restart =>
    match w.loaded stream what path daemon with
    | .error _ => none
    | .ok cfg => some { w with config := cfg, reloadUsers := false }

end

section
variable {J : JsonText} {stream : Str → Streamed} {what : Str → Str}

/-! ## The file of a user -/

/-- The text of the file is that of a webhook. -/
theorem runtimeText_congr {cfg cfg' : Core.Config} (h : webhook cfg' = webhook cfg) : runtimeText J cfg' = runtimeText J cfg := by
  obtain ⟨hurl, hsecret⟩ := Prod.mk.inj h
  unfold runtimeText
  rw [hurl, hsecret]

/-- Different webhooks have different texts. -/
theorem runtimeText_injective (hJ : J.Faithful stream) {cfg cfg' : Core.Config} {text : Str} (h : runtimeText J cfg = some text)
    (h' : runtimeText J cfg' = some text) : webhook cfg = webhook cfg' := by
  have hparse : ∀ c : Core.Config, runtimeText J c = some text → J.parse text =
      some (.ofFields [(lit "webhook_url", .str c.webhookUrl), (lit "webhook_secret_token", .str c.webhookSecretToken)]) := by
    intro c hc
    unfold runtimeText at hc
    split at hc
    · next body hbody =>
      cases hc
      exact hJ.written _ _ _ ⟨rfl, rfl⟩ hbody
    · cases hc
  have hdoc := Option.some.inj ((hparse cfg h).symm.trans (hparse cfg' h'))
  have hurl : some (Json.str cfg.webhookUrl) = some (.str cfg'.webhookUrl) := congrArg (Json.get? (lit "webhook_url")) hdoc
  have hsecret : some (Json.str cfg.webhookSecretToken) = some (.str cfg'.webhookSecretToken) :=
    congrArg (Json.get? (lit "webhook_secret_token")) hdoc
  rw [webhook, webhook, Json.str.inj (Option.some.inj hurl), Json.str.inj (Option.some.inj hsecret)]

theorem lookup_seed (writers : Writers) (cfg : Core.Config) (u v : Str) (runtime : Map Str Str) :
    (writers.seed J cfg u runtime).lookup v =
      if v = u ∧ writers.lands J cfg u = true ∧ (runtimeText J cfg).isSome then runtimeText J cfg else runtime.lookup v := by
  unfold Writers.seed
  cases hs : runtimeText J cfg with
  | none => simp
  | some text =>
    by_cases hl : writers.lands J cfg u = true
    · simp [hl]
    · simp [hl]

/-- The writes one after the other. -/
theorem lookup_seeds (writers : Writers) (cfg : Core.Config) (us : List Str) (v : Str) (runtime : Map Str Str) :
    (us.foldl (fun runtime u => writers.seed J cfg u runtime) runtime).lookup v =
      if v ∈ us ∧ writers.lands J cfg v = true ∧ (runtimeText J cfg).isSome then runtimeText J cfg else runtime.lookup v := by
  induction us generalizing runtime with
  | nil => simp
  | cons u us ih =>
    rw [List.foldl_cons, ih, lookup_seed]
    by_cases hv : v = u
    · subst hv
      by_cases hl : writers.lands J cfg v = true ∧ (runtimeText J cfg).isSome = true
      · simp [hl]
      · simp [hl]
    · simp [hv]

/-! ## Whenever no reload is pending -/

variable (path : Str) (daemon : Account) (pid : Int) (u : Str)

/-- The user's file has the webhook the daemon knows, which is that of the configuration file where no reload is pending. -/
structure Synced (stream : Str → Streamed) (what : Str → Str) (J : JsonText) (w : World) : Prop where
  current : ∀ text, w.runtime.lookup u = some text → runtimeText J w.config = some text
  known : w.reloadUsers = false → ∃ cfg, w.loaded stream what path daemon = .ok cfg ∧ webhook cfg = webhook w.config

/-- What is asked of the steps: that signals arrive, that a reload loads the file and writes that of the user, and that the
user is not made on the command line, nor the daemon started, while a reload is pending. -/
def Sound (J : JsonText) (stream : Str → Streamed) (what : Str → Str) (w : World) : SyncEvent → Prop
  | .webhook env argv => Concerns path argv ∧ ∀ stateDir, env.daemonPid stateDir = some pid
  | .authCreate _ _ shortid _ => username shortid = u → w.reloadUsers = false
  | .userCreate _ _ => True
  | .request env => w.reloadUsers = true → env.users = .ok () ∧ ∃ cfg, w.loaded stream what path daemon = .ok cfg ∧
      u ∈ env.reached J stream cfg ∧ env.write J cfg u = .ok ()
  | .restart => w.reloadUsers = false

variable {path daemon pid u}

theorem openAs_eq {who who' : Account} {files : ConfigFiles} {t t' : Str} (h : openAs who path files = some t)
    (h' : openAs who' path files = some t') : t = t' := by
  obtain ⟨f, hf, h⟩ := Option.bind_eq_some_iff.1 h
  obtain ⟨f', hf', h'⟩ := Option.bind_eq_some_iff.1 h'
  cases hf.symm.trans hf'
  split at h
  · split at h'
    · exact (Option.some.inj h).symm.trans (Option.some.inj h')
    · cases h'
  · cases h

/-- Whoever can load the file loads the same. -/
theorem loaded_eq {w : World} {who who' : Account} {cfg cfg' : Core.Config} (h : w.loaded stream what path who = .ok cfg)
    (h' : w.loaded stream what path who' = .ok cfg') : cfg = cfg' := by
  unfold World.loaded at h h'
  rcases ho : openAs who path w.files with _ | t
  · rw [ho] at h
    cases h
  rcases ho' : openAs who' path w.files with _ | t'
  · rw [ho'] at h'
    cases h'
  rw [ho] at h
  rw [ho', ← openAs_eq ho ho'] at h'
  exact Except.ok.inj (h.symm.trans h')

theorem loaded_congr {w w' : World} {who : Account} (h : w'.files.lookup path = w.files.lookup path) :
    w'.loaded stream what path who = w.loaded stream what path who := by
  unfold World.loaded openAs
  rw [h]

/-- A command that is not heard of has not changed the file. -/
theorem kept_of_unsignalled (hpid : 1 < pid) {env : WebhookEnv} {argv : List Str} (hc : Concerns path argv)
    (hall : ∀ stateDir, env.daemonPid stateDir = some pid) {files : ConfigFiles}
    (h : (cliWebhook J stream what env argv files).hup ≠ some pid) :
    (cliWebhook J stream what env argv files).files.lookup path = files.lookup path := by
  rcases cliWebhook_cases J stream what env hc files ⟨[], [], none⟩ with ⟨-, hkeep⟩ | ⟨cmd, edit, doc, doc', text, -, -, hr⟩
  · exact hkeep.lookup (Grants.tmpOf_ne env.pid path).symm
  · obtain ⟨stateDir, hhup⟩ := hr.signalled
    rw [hall, trySighupDaemon, Option.filter_some, if_pos (by simpa using hpid)] at hhup
    exact absurd hhup h

theorem write_text {writers : Writers} {cfg : Core.Config} (h : writers.write J cfg u = .ok ()) :
    writers.lands J cfg u = true ∧ (runtimeText J cfg).isSome = true := by
  refine ⟨by unfold Writers.lands; rw [h], ?_⟩
  unfold Writers.write writeForUser runtimeWrite at h
  unfold runtimeText
  split at h
  · cases h
  next hw =>
  split at hw
  · cases hw
  split at hw
  · cases hw
  next body hbody =>
  have hdump : J.dump (some 2) (.ofFields [(lit "webhook_url", .str cfg.webhookUrl),
      (lit "webhook_secret_token", .str cfg.webhookSecretToken)]) = .ok body := hbody
  rw [hdump]
  rfl

/-- A file that is written with the webhook the daemon knows. -/
theorem current_seed {w : World} (h : ∀ text, w.runtime.lookup u = some text → runtimeText J w.config = some text)
    (writers : Writers) {cfg : Core.Config} {v : Str} (hcfg : v = u → webhook cfg = webhook w.config) (text : Str)
    (htext : (writers.seed J cfg v w.runtime).lookup u = some text) : runtimeText J w.config = some text := by
  rw [lookup_seed] at htext
  split at htext
  · next hv => rwa [runtimeText_congr (hcfg hv.1.symm)] at htext
  · exact h text htext

theorem synced_request {w : World} {env : ReloadEnv} (h : Synced path daemon u stream what J w)
    (hsound : Sound path daemon pid u J stream what w (.request env)) :
    Synced path daemon u stream what J (w.handleReload J stream what path daemon env) := by
  unfold World.handleReload
  split
  · exact h
  next hpending =>
  obtain ⟨husers, cfg, hcfg, hmem, hwrite⟩ := hsound (by simpa using hpending)
  rw [husers, hcfg]
  simp only
  split
  · -- The webhook has changed, and the file of the user is written.
    obtain ⟨hlands, htext⟩ := write_text hwrite
    refine ⟨fun text hlook => ?_, fun _ => ⟨cfg, hcfg, rfl⟩⟩
    simp only [lookup_seeds, if_pos (show _ ∧ _ ∧ _ from ⟨hmem, hlands, htext⟩)] at hlook
    exact hlook
  · next hsame =>
    have hwebhook : webhook cfg = webhook w.config := by
      simp only [not_or, not_not] at hsame
      exact Prod.ext hsame.1 hsame.2
    exact ⟨fun text hlook => by rw [runtimeText_congr hwebhook]; exact h.current text hlook, fun _ => ⟨cfg, hcfg, rfl⟩⟩

theorem synced_step (hpid : 1 < pid) (w : World) (e : SyncEvent) (w' : World) (h : Synced path daemon u stream what J w)
    (hsound : Sound path daemon pid u J stream what w e) (hnext : w.next J stream what path daemon pid e = some w') :
    Synced path daemon u stream what J w' := by
  cases e with
  | webhook env argv =>
    cases hnext
    refine ⟨h.current, fun hdone => ?_⟩
    simp only [Bool.or_eq_false_iff, decide_eq_false_iff_not] at hdone
    obtain ⟨cfg, hcfg, hsame⟩ := h.known hdone.1
    exact ⟨cfg, (loaded_congr (kept_of_unsignalled hpid hsound.1 hsound.2 hdone.2)).trans hcfg, hsame⟩
  | authCreate process daemonPid shortid writers =>
    simp only [World.next] at hnext
    split at hnext
    · cases hnext
      exact h
    next cfg hcfg =>
    cases hnext
    refine ⟨current_seed h.current writers fun hu => ?_, fun hdone => h.known (Bool.or_eq_false_iff.1 hdone).1⟩
    -- What the command loads is what the daemon knows.
    obtain ⟨known, hknown, hsame⟩ := h.known (hsound hu)
    rw [loaded_eq hcfg hknown, hsame]
  | userCreate shortid writers =>
    cases hnext
    exact ⟨current_seed h.current writers fun _ => rfl, h.known⟩
  | request env =>
    cases hnext
    exact synced_request h hsound
  | restart =>
    simp only [World.next] at hnext
    split at hnext
    · cases hnext
    next cfg hcfg =>
    cases hnext
    obtain ⟨known, hknown, hsame⟩ := h.known hsound
    have hwebhook : webhook cfg = webhook w.config := by rw [loaded_eq hcfg hknown, hsame]
    exact ⟨fun text hlook => by rw [runtimeText_congr hwebhook]; exact h.current text hlook, fun _ => ⟨cfg, hcfg, rfl⟩⟩

/-! ## A file that was written -/

variable (path daemon u) in
/-- The step writes the user's file: the user is made, or a reload finds another webhook. -/
def Writes (J : JsonText) (stream : Str → Streamed) (what : Str → Str) (w : World) : SyncEvent → Prop
  | .authCreate process _ shortid writers => username shortid = u ∧
      ∃ cfg, w.loaded stream what path process.toAccount = .ok cfg ∧ writers.write J cfg u = .ok ()
  | .userCreate shortid writers => username shortid = u ∧ writers.write J w.config u = .ok ()
  | .request env => w.reloadUsers = true ∧ env.users = .ok () ∧ ∃ cfg, w.loaded stream what path daemon = .ok cfg ∧
      webhook cfg ≠ webhook w.config ∧ u ∈ env.reached J stream cfg ∧ env.write J cfg u = .ok ()
  | .webhook _ _ | .restart => False

theorem isSome_lookup_seeds {writers : Writers} {cfg : Core.Config} (us : List Str) {v : Str} {runtime : Map Str Str}
    (h : (runtime.lookup v).isSome = true) :
    ((us.foldl (fun runtime u => writers.seed J cfg u runtime) runtime).lookup v).isSome = true := by
  rw [lookup_seeds]
  split
  · next hv => exact hv.2.2
  · exact h

/-- No step takes a file away. -/
theorem written_step (w : World) (e : SyncEvent) (w' : World) (h : (w.runtime.lookup u).isSome = true)
    (hnext : w.next J stream what path daemon pid e = some w') : (w'.runtime.lookup u).isSome = true := by
  have hseed : ∀ (writers : Writers) (cfg : Core.Config) (v : Str), ((writers.seed J cfg v w.runtime).lookup u).isSome = true :=
    fun _ _ v => isSome_lookup_seeds [v] h
  cases e with
  | webhook env argv =>
    cases hnext
    exact h
  | authCreate process daemonPid shortid writers =>
    simp only [World.next] at hnext
    split at hnext <;> cases hnext
    · exact h
    · exact hseed writers _ _
  | userCreate shortid writers =>
    cases hnext
    exact hseed writers _ _
  | request env =>
    cases hnext
    unfold World.handleReload
    repeat' split
    all_goals first | exact h | exact isSome_lookup_seeds _ h
  | restart =>
    simp only [World.next] at hnext
    split at hnext <;> cases hnext
    exact h

theorem writes_step (w : World) (e : SyncEvent) (w' : World) (h : Writes path daemon u J stream what w e)
    (hnext : w.next J stream what path daemon pid e = some w') : (w'.runtime.lookup u).isSome = true := by
  have hseed : ∀ {writers : Writers} {cfg : Core.Config}, writers.write J cfg u = .ok () →
      ((writers.seed J cfg u w.runtime).lookup u).isSome = true := by
    intro writers cfg hwrite
    obtain ⟨hlands, htext⟩ := write_text hwrite
    rw [lookup_seed, if_pos ⟨rfl, hlands, htext⟩]
    exact htext
  cases e with
  | webhook env argv => exact h.elim
  | authCreate process daemonPid shortid writers =>
    obtain ⟨rfl, cfg, hcfg, hwrite⟩ := h
    simp only [World.next, hcfg] at hnext
    cases hnext
    exact hseed hwrite
  | userCreate shortid writers =>
    obtain ⟨rfl, hwrite⟩ := h
    cases hnext
    exact hseed hwrite
  | request env =>
    obtain ⟨hpending, husers, cfg, hcfg, hother, hmem, hwrite⟩ := h
    cases hnext
    obtain ⟨hlands, htext⟩ := write_text hwrite
    have hdiffers : cfg.webhookUrl ≠ w.config.webhookUrl ∨ cfg.webhookSecretToken ≠ w.config.webhookSecretToken := by
      by_contra hno
      simp only [not_or, not_not] at hno
      exact hother (Prod.ext hno.1 hno.2)
    simp only [World.handleReload, hpending, husers, hcfg, Bool.not_true, Bool.false_eq_true, if_false, if_pos hdiffers, lookup_seeds,
      if_pos (show _ ∧ _ ∧ _ from ⟨hmem, hlands, htext⟩)]
    exact htext
  | restart => exact h.elim

/-- Whenever no reload is pending, the file of a user that was written has the webhook of the configuration file. -/
theorem webhook_reaches (hpid : 1 < pid) {w w' : World} {es : List SyncEvent} (h : Synced path daemon u stream what J w)
    (hsound : Along (World.next J stream what path daemon pid) (Sound path daemon pid u J stream what) w es)
    (hrun : run (World.next J stream what path daemon pid) w es = some w') (hdone : w'.reloadUsers = false)
    (hwritten : (w.runtime.lookup u).isSome = true ∨
      Somewhere (World.next J stream what path daemon pid) (Writes path daemon u J stream what) w es) :
    ∃ cfg text, w'.loaded stream what path daemon = .ok cfg ∧ runtimeText J cfg = some text ∧ w'.runtime.lookup u = some text := by
  have hsynced := run_inv (Synced path daemon u stream what J) (synced_step hpid) h hsound hrun
  obtain ⟨text, hlook⟩ := Option.isSome_iff_exists.1 (run_inv_somewhere (fun w => (w.runtime.lookup u).isSome = true)
    written_step writes_step hwritten hrun)
  obtain ⟨cfg, hcfg, hsame⟩ := hsynced.known hdone
  exact ⟨cfg, text, hcfg, by rw [runtimeText_congr hsame]; exact hsynced.current text hlook, hlook⟩

/-! ## A webhook that is taken back -/

variable (path daemon u) in
/-- The daemon knows the webhook of the configuration file, and the user's file has this text. -/
structure Stuck (stream : Str → Streamed) (what : Str → Str) (text : Str) (w : World) : Prop where
  known : ∃ cfg, w.loaded stream what path daemon = .ok cfg ∧ webhook cfg = webhook w.config
  file : w.runtime.lookup u = some text

variable (path daemon pid u) in
/-- The step leaves the webhook of the configuration file as the daemon knows it, and does not make the user again. -/
def Quiet (J : JsonText) (stream : Str → Streamed) (what : Str → Str) (w : World) : SyncEvent → Prop
  | .webhook env argv => ∃ cfg, World.loaded stream what path { w with files := (cliWebhook J stream what env argv w.files).files } daemon =
      .ok cfg ∧ webhook cfg = webhook w.config
  | .authCreate _ _ shortid _ | .userCreate shortid _ => username shortid ≠ u
  | .request _ | .restart => True

theorem stuck_step {text : Str} (w : World) (e : SyncEvent) (w' : World) (h : Stuck path daemon u stream what text w)
    (hquiet : Quiet path daemon u J stream what w e) (hnext : w.next J stream what path daemon pid e = some w') :
    Stuck path daemon u stream what text w' ∧ webhook w'.config = webhook w.config := by
  obtain ⟨cfg, hcfg, hsame⟩ := h.known
  cases e with
  | webhook env argv =>
    cases hnext
    exact ⟨⟨hquiet, h.file⟩, rfl⟩
  | authCreate process daemonPid shortid writers =>
    simp only [World.next] at hnext
    split at hnext
    · cases hnext
      exact ⟨h, rfl⟩
    · cases hnext
      refine ⟨⟨h.known, ?_⟩, rfl⟩
      rw [lookup_seed, if_neg (fun hu => hquiet hu.1.symm), h.file]
  | userCreate shortid writers =>
    cases hnext
    refine ⟨⟨h.known, ?_⟩, rfl⟩
    rw [lookup_seed, if_neg (fun hu => hquiet hu.1.symm), h.file]
  | request env =>
    cases hnext
    unfold World.handleReload
    split
    · exact ⟨h, rfl⟩
    split
    · exact ⟨⟨h.known, h.file⟩, rfl⟩
    rw [hcfg]
    -- There is nothing to write.
    have hno : ¬ (cfg.webhookUrl ≠ w.config.webhookUrl ∨ cfg.webhookSecretToken ≠ w.config.webhookSecretToken) := by
      obtain ⟨hurl, hsecret⟩ := Prod.mk.inj hsame
      simp [hurl, hsecret]
    simp only [if_neg hno]
    exact ⟨⟨⟨cfg, hcfg, rfl⟩, h.file⟩, hsame⟩
  | restart =>
    simp only [World.next, hcfg] at hnext
    cases hnext
    exact ⟨⟨⟨cfg, hcfg, rfl⟩, h.file⟩, hsame⟩

/-- A user is made on the command line while the file has a webhook the daemon does not know, and the file then gets the
webhook the daemon knows. No signal, no request and no restart gives the user that one, until the file gets another. -/
theorem webhook_never_reaches (hJ : J.Faithful stream) {w w₂ w' : World} {process : Process} {daemonPid : Str → Option Int}
    {shortid : Str} {writers : Writers} {env : WebhookEnv} {argv : List Str} {es : List SyncEvent} {cfg : Core.Config}
    (hcfg : w.loaded stream what path process.toAccount = .ok cfg) (hother : webhook cfg ≠ webhook w.config)
    (hwrite : writers.write J cfg (username shortid) = .ok ())
    (hback : run (World.next J stream what path daemon pid) w [.authCreate process daemonPid shortid writers, .webhook env argv] =
      some w₂)
    (hfile : ∃ cfg', w₂.loaded stream what path daemon = .ok cfg' ∧ webhook cfg' = webhook w.config)
    (hquiet : Along (World.next J stream what path daemon pid) (Quiet path daemon (username shortid) J stream what) w₂ es)
    (hrun : run (World.next J stream what path daemon pid) w₂ es = some w') :
    ∃ cfg' text, w'.loaded stream what path daemon = .ok cfg' ∧ webhook cfg' = webhook w.config ∧
      w'.runtime.lookup (username shortid) = some text ∧ runtimeText J cfg = some text ∧ runtimeText J cfg' ≠ some text := by
  obtain ⟨hlands, htext⟩ := write_text hwrite
  obtain ⟨text, htext⟩ := Option.isSome_iff_exists.1 htext
  simp only [run, World.next, hcfg, Option.bind_some] at hback
  cases hback
  have hstuck : Stuck path daemon (username shortid) stream what text _ := ⟨hfile, by
    rw [lookup_seed, if_pos ⟨rfl, hlands, by rw [htext]; rfl⟩, htext]⟩
  obtain ⟨⟨⟨cfg', hcfg', hsame⟩, hlook⟩, hconfig⟩ := run_inv
    (fun v => Stuck path daemon (username shortid) stream what text v ∧ webhook v.config = webhook w.config)
    (fun v e v' hv hq hn => by
      obtain ⟨hs, hc⟩ := stuck_step v e v' hv.1 hq hn
      exact ⟨hs, hc.trans hv.2⟩) ⟨hstuck, rfl⟩ hquiet hrun
  refine ⟨cfg', text, hcfg', hsame.trans hconfig, hlook, htext, fun htext' => ?_⟩
  exact hother ((runtimeText_injective hJ htext htext').trans (hsame.trans hconfig))

end

/-! ## Runs of a small installation -/

/-- The group of the daemon may read the file as it is installed, and anyone may once root has written it. -/
def groupDaemon : Account := { uid := 997, gid := 110 }

def obedient : Writers := { answer := fun _ => { exitCode := 0 } }

/-- Root, whose signals find the daemon. -/
def rootEnv : WebhookEnv where
  process := { uid := 0, gid := 0, umask := 0o022, cwd := [] }
  pid := 7
  daemonPid := fun _ => some 500

def setUrl : List Str := [lit "set", lit "--url", lit "b"]

def afterSet : WebhookRun := cliWebhook jsonStrict (streamOf jsonStrict) (fun _ => []) rootEnv setUrl sampleFiles

def afterClear : WebhookRun := cliWebhook jsonStrict (streamOf jsonStrict) (fun _ => []) rootEnv [lit "clear"] afterSet.files

def nextSmall : World → SyncEvent → Option World := World.next jsonStrict (streamOf jsonStrict) (fun _ => []) mcpJson groupDaemon 500

def oneRecord : ReloadEnv :=
  { obedient with dir := some [⟨lit "abcdefgh.json", true, some (lit "\x7b\"os_username\":\"mcp_user_abcdefgh\"\x7d")⟩] }

theorem concerns_set : Concerns mcpJson setUrl := concerns_of_parse rfl

theorem loads_set : Loads (streamOf jsonStrict) (fun _ => []) mcpJson { webhookUrl := lit "b" } afterSet.files := by
  have h : Loads (streamOf jsonStrict) (fun _ => []) mcpJson ((⟨[], [], none⟩ : Settled).of {}) sampleFiles := ⟨_, rfl, rfl, rfl⟩
  have hset : Loads (streamOf jsonStrict) (fun _ => []) mcpJson
      ((settleAfter rootEnv.process setUrl afterSet.code ⟨[], [], none⟩).of {}) afterSet.files :=
    loads_step jsonStrict_faithful concerns_set h
  have hu : (settleAfter rootEnv.process setUrl afterSet.code ⟨[], [], none⟩).url = lit "b" := by decide +kernel
  have hs : (settleAfter rootEnv.process setUrl afterSet.code ⟨[], [], none⟩).secret = [] := by decide +kernel
  rwa [Settled.of, hu, hs] at hset

theorem loads_clear : Loads (streamOf jsonStrict) (fun _ => []) mcpJson {} afterClear.files := by
  have hclear : Loads (streamOf jsonStrict) (fun _ => []) mcpJson
      ((settleAfter rootEnv.process [lit "clear"] afterClear.code ⟨lit "b", [], none⟩).of {}) afterClear.files :=
    loads_step jsonStrict_faithful (concerns_of_parse rfl) loads_set
  have hu : (settleAfter rootEnv.process [lit "clear"] afterClear.code ⟨lit "b", [], none⟩).url = [] := by decide +kernel
  have hs : (settleAfter rootEnv.process [lit "clear"] afterClear.code ⟨lit "b", [], none⟩).secret = [] := by decide +kernel
  rwa [Settled.of, hu, hs] at hclear

theorem open_set : (openAs groupDaemon mcpJson afterSet.files).isSome = true ∧
    (openAs rootEnv.process.toAccount mcpJson afterSet.files).isSome = true ∧
    (openAs groupDaemon mcpJson afterClear.files).isSome = true := by decide +kernel

def smallStart : World := { files := sampleFiles, config := {} }

def smallRun : List SyncEvent := [.userCreate (lit "abcdefgh") obedient, .webhook rootEnv setUrl, .request oneRecord]

seal cliWebhook in
theorem webhook_reaches_small :
    ∃ w cfg text, run nextSmall smallStart smallRun = some w ∧
      w.loaded (streamOf jsonStrict) (fun _ => []) mcpJson groupDaemon = .ok cfg ∧ runtimeText jsonStrict cfg = some text ∧
      w.runtime.lookup (lit "mcp_user_abcdefgh") = some text := by
  have hstart : Synced mcpJson groupDaemon (lit "mcp_user_abcdefgh") (streamOf jsonStrict) (fun _ => []) jsonStrict smallStart :=
    ⟨nofun, fun _ => ⟨{}, rfl, rfl⟩⟩
  have hloaded : loadConfig (streamOf jsonStrict) (fun _ => []) mcpJson (openAs groupDaemon mcpJson afterSet.files) =
      .ok { webhookUrl := lit "b" } := load_of_loads _ _ loads_set open_set.1
  have hsound : Along nextSmall (Sound mcpJson groupDaemon 500 (lit "mcp_user_abcdefgh") jsonStrict (streamOf jsonStrict) (fun _ => []))
      smallStart smallRun :=
    ⟨trivial, ⟨concerns_set, fun _ => rfl⟩, fun _ => ⟨rfl, _, hloaded, by decide +kernel, by decide +kernel⟩, trivial⟩
  obtain ⟨w, hrun, hdone⟩ : ∃ w, run nextSmall smallStart smallRun = some w ∧ w.reloadUsers = false := ⟨_, rfl, by decide +kernel⟩
  have hwritten : Somewhere nextSmall (Writes mcpJson groupDaemon (lit "mcp_user_abcdefgh") jsonStrict (streamOf jsonStrict)
      (fun _ => [])) smallStart smallRun := .inl ⟨rfl, by decide +kernel⟩
  obtain ⟨cfg, text, hcfg, htext, hlook⟩ := webhook_reaches (by decide) hstart hsound hrun hdone (.inr hwritten)
  exact ⟨w, cfg, text, hrun, hcfg, htext, hlook⟩

/-- The daemon has not seen the webhook that was set. -/
def pendingSmall : World := { files := afterSet.files, config := {}, reloadUsers := true }

def takenBack : List SyncEvent :=
  [.authCreate rootEnv.process rootEnv.daemonPid (lit "abcdefgh") obedient, .webhook rootEnv [lit "clear"]]

seal cliWebhook in
theorem webhook_never_reaches_small :
    ∃ w cfg text, run nextSmall pendingSmall (takenBack ++ [.request oneRecord, .request oneRecord]) = some w ∧
      w.loaded (streamOf jsonStrict) (fun _ => []) mcpJson groupDaemon = .ok cfg ∧ webhook cfg = ([], []) ∧
      w.runtime.lookup (lit "mcp_user_abcdefgh") = some text ∧ runtimeText jsonStrict cfg ≠ some text := by
  have hset : pendingSmall.loaded (streamOf jsonStrict) (fun _ => []) mcpJson rootEnv.process.toAccount =
      .ok { webhookUrl := lit "b" } := load_of_loads _ _ loads_set open_set.2.1
  have hclear : loadConfig (streamOf jsonStrict) (fun _ => []) mcpJson (openAs groupDaemon mcpJson afterClear.files) = .ok {} :=
    load_of_loads _ _ loads_clear open_set.2.2
  obtain ⟨w₂, hback, hfiles, hconfig⟩ : ∃ w₂, run nextSmall pendingSmall takenBack = some w₂ ∧ w₂.files = afterClear.files ∧
      w₂.config = {} := by
    simp only [takenBack, run, nextSmall, World.next, hset]
    exact ⟨_, rfl, rfl, rfl⟩
  obtain ⟨w', hrun⟩ : ∃ w', run nextSmall w₂ [.request oneRecord, .request oneRecord] = some w' := ⟨_, rfl⟩
  have hquiet : Along nextSmall (Quiet mcpJson groupDaemon (username (lit "abcdefgh")) jsonStrict (streamOf jsonStrict) (fun _ => []))
      w₂ [.request oneRecord, .request oneRecord] := ⟨trivial, trivial, trivial⟩
  have hknown : ∃ cfg', w₂.loaded (streamOf jsonStrict) (fun _ => []) mcpJson groupDaemon = .ok cfg' ∧
      webhook cfg' = webhook pendingSmall.config := ⟨{}, by rw [World.loaded, hfiles, hclear], rfl⟩
  obtain ⟨cfg, text, hcfg, hsame, hlook, -, hne⟩ := webhook_never_reaches jsonStrict_faithful hset (by decide) (by decide +kernel)
    hback hknown hquiet hrun
  exact ⟨w', cfg, text, by rw [run_append, hback]; exact hrun, hcfg, hsame, hlook, hne⟩

end McpBridge.Server
