import McpBridge.Grants.Template
import McpBridge.Lib.JsonEdit
/-!
# The configuration (`core/config.cpp`)

`load_config` reads a document and takes its fields section by section. A section
that is missing or is no object is passed over, a field that is missing or null keeps
its default, and a field of another type is an error.

`e.what()` of a parse error is the parameter `what`.
-/

open McpBridge.Lib McpBridge.Grants

namespace McpBridge.Core

structure Config where
  host : Str := lit "0.0.0.0"
  port : Int := 8080
  enableSsl : Bool := false
  sslCert : Str := []
  sslKey : Str := []
  globalTokenSalt : Str := []
  adminTokenHash : Str := []
  usersDir : Str := lit "/var/lib/mcp_bridge/users"
  stateDir : Str := lit "/var/lib/mcp_bridge/state"
  usersStateDir : Str := lit "/var/lib/mcp_bridge/users_state"
  sudoersDir : Str := lit "/etc/sudoers.d"
  helperPath : Str := lit "/usr/lib/mcp_bridge/mcp_bridge-priv"
  cronRunnerPath : Str := lit "/usr/lib/mcp_bridge/mcp_bridge-cron-runner"
  grantSweepIntervalSeconds : Int := 30
  sudoGrantTemplates : List GrantTemplate := []
  allowedIps : List Str := []
  rateLimit : Int := 60
  allowedRoot : Str := lit "/"
  dangerousToolsEnabled : Bool := true
  enableRawQueries : Bool := false
  mysqlHost : Str := lit "localhost"
  mysqlPort : Int := 3306
  mysqlRootUser : Str := lit "root"
  mysqlRootPassword : Str := []
  postgresHost : Str := lit "localhost"
  postgresPort : Int := 5432
  postgresRootUser : Str := lit "postgres"
  postgresRootPassword : Str := []
  nginxConfigDir : Str := lit "/etc/nginx"
  apacheConfigDir : Str := lit "/etc/apache2"
  certbotPath : Str := lit "/usr/bin/certbot"
  sandboxTempDir : Str := lit "/tmp/mcp_sandbox"
  sandboxDefaultTimeout : Int := 30
  sandboxDefaultMemoryMb : Int := 256
  sandboxEnableNetwork : Bool := false
  logFile : Str := lit "/var/log/mcp_bridge/server.log"
  logLevel : Str := lit "info"
  webhookUrl : Str := []
  webhookSecretToken : Str := []

/-! ## Fields -/

/-- `get<int>()`. -/
def asInt32 (j : Json) : Except JsonError Int := (j.asInt32).map Int32.toInt

def getOr {α : Type} (get : Json → Except JsonError α) (obj : Json) (key : String) (fallback : α) : Except Str α :=
  match obj.get? (lit key) with
  | none | some .null => .ok fallback
  | some v => (get v).mapError JsonError.what

def strOr (obj : Json) (key : String) (fallback : Str) : Except Str Str :=
  match obj.get? (lit key) with
  | none | some .null => .ok fallback
  | some (.str s) => .ok s
  | some _ => .error (lit "config: '" ++ lit key ++ lit "' must be a string")

/-! ## Templates (`core/grant_template.cpp`) -/

def isTemplateChar (c : UInt8) : Bool := isLower c || isDigit c || c = ch '_'

def validTemplateName : Str → Bool
  | [] => false
  | c :: s => s.length < 32 && isLower c && s.all isTemplateChar

/-- The strings among the elements. -/
def strings (l : List Json) : List Str := l.filterMap fun v => match v with
  | .str s => some s
  | _ => none

/-- The strings among the fields. -/
def stringFields (l : List (Str × Json)) : Map Str Str :=
  l.foldl (fun m kv => match kv.2 with
    | .str s => m.insert kv.1 s
    | _ => m) ∅

def parseTemplate (entry : Json) : Except Str GrantTemplate := do
  let name ← (entry.value Json.asStr (lit "name") []).mapError JsonError.what
  let description ← (entry.value Json.asStr (lit "description") []).mapError JsonError.what
  let binary ← (entry.value Json.asStr (lit "binary") []).mapError JsonError.what
  if !validTemplateName name then .error (lit "grant_template: invalid name '" ++ name ++ lit "'")
  else if binary.head? ≠ some (ch '/') then
    .error (lit "grant_template '" ++ name ++ lit "': binary must be an absolute path")
  else
    let argv := match entry.get? (lit "argv") with
      | some (.arr l) => strings l
      | _ => []
    let params := match entry.get? (lit "params") with
      | some (.obj l) => stringFields l
      | _ => ∅
    .ok { name, description, binary, argv, params }

def parseTemplates : Json → Except Str (List GrantTemplate)
  | .arr l => (l.filter (·.isObject)).mapM parseTemplate
  | _ => .ok []

/-! ## Sections -/

/-- Reads a section where there is one. -/
def inSection (doc : Json) (key : String) (read : Json → Config → Except Str Config) (cfg : Config) : Except Str Config :=
  match doc.get? (lit key) with
  | some s => if s.isObject then read s cfg else .ok cfg
  | none => .ok cfg

def readServer (s : Json) (cfg : Config) : Except Str Config := do
  let host ← strOr s "host" cfg.host
  let port ← getOr asInt32 s "port" cfg.port
  let enableSsl ← getOr Json.asBool s "enable_ssl" cfg.enableSsl
  let sslCert ← strOr s "ssl_cert" cfg.sslCert
  let sslKey ← strOr s "ssl_key" cfg.sslKey
  .ok { cfg with host, port, enableSsl, sslCert, sslKey }

def readAuth (a : Json) (cfg : Config) : Except Str Config := do
  let globalTokenSalt ← strOr a "global_token_salt" []
  let adminTokenHash ← strOr a "admin_token_hash" []
  .ok { cfg with globalTokenSalt, adminTokenHash }

def readPaths (p : Json) (cfg : Config) : Except Str Config := do
  let usersDir ← strOr p "users_dir" cfg.usersDir
  let stateDir ← strOr p "state_dir" cfg.stateDir
  let usersStateDir ← strOr p "users_state_dir" cfg.usersStateDir
  let sudoersDir ← strOr p "sudoers_dir" cfg.sudoersDir
  let helperPath ← strOr p "helper_path" cfg.helperPath
  let cronRunnerPath ← strOr p "cron_runner_path" cfg.cronRunnerPath
  .ok { cfg with usersDir, stateDir, usersStateDir, sudoersDir, helperPath, cronRunnerPath }

def readInterval (doc : Json) (cfg : Config) : Except Str Config := do
  let grantSweepIntervalSeconds ← getOr asInt32 doc "grant_sweep_interval_seconds" cfg.grantSweepIntervalSeconds
  .ok { cfg with grantSweepIntervalSeconds }

def readTemplates (doc : Json) (cfg : Config) : Except Str Config := do
  match doc.get? (lit "sudo_grant_templates") with
  | some templates => .ok { cfg with sudoGrantTemplates := ← parseTemplates templates }
  | none => .ok cfg

def readSecurity (s : Json) (cfg : Config) : Except Str Config := do
  let allowedIps := match s.get? (lit "allowed_ips") with
    | some (.arr l) => strings l
    | _ => cfg.allowedIps
  let rateLimit ← getOr asInt32 s "rate_limit" cfg.rateLimit
  let allowedRoot ← strOr s "allowed_root" cfg.allowedRoot
  let dangerousToolsEnabled ← getOr Json.asBool s "dangerous_tools_enabled" cfg.dangerousToolsEnabled
  let enableRawQueries ← getOr Json.asBool s "enable_raw_queries" cfg.enableRawQueries
  .ok { cfg with allowedIps, rateLimit, allowedRoot, dangerousToolsEnabled, enableRawQueries }

def readMysql (m : Json) (cfg : Config) : Except Str Config := do
  let mysqlHost ← strOr m "host" cfg.mysqlHost
  let mysqlPort ← getOr asInt32 m "port" cfg.mysqlPort
  let mysqlRootUser ← strOr m "root_user" cfg.mysqlRootUser
  let mysqlRootPassword ← strOr m "root_password" cfg.mysqlRootPassword
  .ok { cfg with mysqlHost, mysqlPort, mysqlRootUser, mysqlRootPassword }

def readPostgres (p : Json) (cfg : Config) : Except Str Config := do
  let postgresHost ← strOr p "host" cfg.postgresHost
  let postgresPort ← getOr asInt32 p "port" cfg.postgresPort
  let postgresRootUser ← strOr p "root_user" cfg.postgresRootUser
  let postgresRootPassword ← strOr p "root_password" cfg.postgresRootPassword
  .ok { cfg with postgresHost, postgresPort, postgresRootUser, postgresRootPassword }

def readWebserver (w : Json) (cfg : Config) : Except Str Config := do
  let nginxConfigDir ← strOr w "nginx_config_dir" cfg.nginxConfigDir
  let apacheConfigDir ← strOr w "apache_config_dir" cfg.apacheConfigDir
  let certbotPath ← strOr w "certbot_path" cfg.certbotPath
  .ok { cfg with nginxConfigDir, apacheConfigDir, certbotPath }

def readSandbox (s : Json) (cfg : Config) : Except Str Config := do
  let sandboxTempDir ← strOr s "temp_dir" cfg.sandboxTempDir
  let sandboxDefaultTimeout ← getOr asInt32 s "default_timeout" cfg.sandboxDefaultTimeout
  let sandboxDefaultMemoryMb ← getOr asInt32 s "default_memory_mb" cfg.sandboxDefaultMemoryMb
  let sandboxEnableNetwork ← getOr Json.asBool s "enable_network" cfg.sandboxEnableNetwork
  .ok { cfg with sandboxTempDir, sandboxDefaultTimeout, sandboxDefaultMemoryMb, sandboxEnableNetwork }

def readLogging (l : Json) (cfg : Config) : Except Str Config := do
  let logFile ← strOr l "file" cfg.logFile
  let logLevel ← strOr l "level" cfg.logLevel
  .ok { cfg with logFile, logLevel }

def readWebhook (w : Json) (cfg : Config) : Except Str Config := do
  let webhookUrl ← strOr w "url" cfg.webhookUrl
  let webhookSecretToken ← strOr w "secret_token" cfg.webhookSecretToken
  .ok { cfg with webhookUrl, webhookSecretToken }

/-- All that is read before the webhook. -/
def readOthers (doc : Json) (cfg : Config) : Except Str Config := do
  let cfg ← inSection doc "server" readServer cfg
  let cfg ← inSection doc "auth" readAuth cfg
  let cfg ← inSection doc "paths" readPaths cfg
  let cfg ← readInterval doc cfg
  let cfg ← readTemplates doc cfg
  let cfg ← inSection doc "security" readSecurity cfg
  let cfg ← inSection doc "mysql" readMysql cfg
  let cfg ← inSection doc "postgres" readPostgres cfg
  let cfg ← inSection doc "webserver" readWebserver cfg
  let cfg ← inSection doc "sandbox" readSandbox cfg
  inSection doc "logging" readLogging cfg

def readDoc (doc : Json) : Except Str Config := do
  let cfg ← readOthers doc {}
  inSection doc "webhook" readWebhook cfg

/-- `load_config` of a file with this content, or of one that cannot be opened. -/
def loadConfig (stream : Str → Streamed) (what : Str → Str) (path : Str) (content : Option Str) : Except Str Config :=
  match content with
  | none => .error (lit "config: cannot open " ++ path)
  | some text =>
    match stream text with
    | .parseError => .error (lit "config: parse error in " ++ path ++ lit ": " ++ what text)
    | .thrown e => .error e
    | .value doc =>
      if !doc.isObject then .error (lit "config: " ++ path ++ lit " must be a JSON object at the top level")
      else readDoc doc

/-! ## Documents that differ in the webhook only -/

theorem inSection_congr {doc doc' : Json} {key : String} (h : doc'.get? (lit key) = doc.get? (lit key))
    (read : Json → Config → Except Str Config) (cfg : Config) : inSection doc' key read cfg = inSection doc key read cfg := by
  unfold inSection
  rw [h]

theorem readInterval_congr {doc doc' : Json} (h : ∀ k, k ≠ lit "webhook" → doc'.get? k = doc.get? k) (cfg : Config) :
    readInterval doc' cfg = readInterval doc cfg := by
  unfold readInterval getOr
  rw [h (lit "grant_sweep_interval_seconds") (by decide)]

theorem readTemplates_congr {doc doc' : Json} (h : ∀ k, k ≠ lit "webhook" → doc'.get? k = doc.get? k) (cfg : Config) :
    readTemplates doc' cfg = readTemplates doc cfg := by
  unfold readTemplates
  rw [h (lit "sudo_grant_templates") (by decide)]

theorem readOthers_congr {doc doc' : Json} (h : ∀ k, k ≠ lit "webhook" → doc'.get? k = doc.get? k) :
    readOthers doc' = readOthers doc := by
  funext cfg
  unfold readOthers
  simp only [inSection_congr (h (lit "server") (by decide)), inSection_congr (h (lit "auth") (by decide)),
    inSection_congr (h (lit "paths") (by decide)), readInterval_congr h, readTemplates_congr h,
    inSection_congr (h (lit "security") (by decide)), inSection_congr (h (lit "mysql") (by decide)),
    inSection_congr (h (lit "postgres") (by decide)), inSection_congr (h (lit "webserver") (by decide)),
    inSection_congr (h (lit "sandbox") (by decide)), inSection_congr (h (lit "logging") (by decide))]

/-- It leaves the webhook as it is. -/
def KeepsWebhook (read : Config → Except Str Config) : Prop :=
  ∀ cfg cfg', read cfg = .ok cfg' → cfg'.webhookUrl = cfg.webhookUrl ∧ cfg'.webhookSecretToken = cfg.webhookSecretToken

theorem inSection_keeps {read : Json → Config → Except Str Config} (h : ∀ s, KeepsWebhook (read s)) (doc : Json) (key : String) :
    KeepsWebhook (inSection doc key read) := by
  intro cfg cfg' hread
  unfold inSection at hread
  split at hread
  · split at hread
    · exact h _ cfg cfg' hread
    · cases hread
      exact ⟨rfl, rfl⟩
  · cases hread
    exact ⟨rfl, rfl⟩

/-- No other section has to do with the webhook. -/
theorem sections_keep : ∀ read ∈ [readServer, readAuth, readPaths, readSecurity, readMysql, readPostgres, readWebserver,
    readSandbox, readLogging], ∀ s, KeepsWebhook (read s) := by
  simp only [List.forall_mem_cons, List.not_mem_nil, false_implies, implies_true, and_true]
  refine ⟨?_, ?_, ?_, ?_, ?_, ?_, ?_, ?_, ?_⟩ <;> intro s cfg cfg' h <;>
    (repeat obtain ⟨_, -, h⟩ := bind_eq_ok.1 h) <;> cases h <;> exact ⟨rfl, rfl⟩

theorem readInterval_keeps (doc : Json) : KeepsWebhook (readInterval doc) := by
  intro cfg cfg' h
  obtain ⟨_, -, h⟩ := bind_eq_ok.1 h
  cases h
  exact ⟨rfl, rfl⟩

theorem readTemplates_keeps (doc : Json) : KeepsWebhook (readTemplates doc) := by
  intro cfg cfg' h
  unfold readTemplates at h
  split at h
  · obtain ⟨_, -, h⟩ := bind_eq_ok.1 h
    cases h
    exact ⟨rfl, rfl⟩
  · cases h
    exact ⟨rfl, rfl⟩

theorem KeepsWebhook.andThen {read next : Config → Except Str Config} (h : KeepsWebhook read) (hn : KeepsWebhook next) :
    KeepsWebhook fun cfg => read cfg >>= next := by
  intro cfg cfg' hr
  obtain ⟨mid, hmid, hr⟩ := bind_eq_ok.1 hr
  obtain ⟨hu, hs⟩ := h cfg mid hmid
  obtain ⟨hu', hs'⟩ := hn mid cfg' hr
  exact ⟨hu'.trans hu, hs'.trans hs⟩

theorem readOthers_keeps (doc : Json) : KeepsWebhook (readOthers doc) := by
  have hkeep : ∀ read ∈ [readServer, readAuth, readPaths, readSecurity, readMysql, readPostgres, readWebserver, readSandbox,
      readLogging], ∀ key, KeepsWebhook (inSection doc key read) := fun read hm key => inSection_keeps (sections_keep read hm) doc key
  exact .andThen (hkeep _ (by simp) _) (.andThen (hkeep _ (by simp) _) (.andThen (hkeep _ (by simp) _)
    (.andThen (readInterval_keeps doc) (.andThen (readTemplates_keeps doc) (.andThen (hkeep _ (by simp) _)
      (.andThen (hkeep _ (by simp) _) (.andThen (hkeep _ (by simp) _) (.andThen (hkeep _ (by simp) _)
        (.andThen (hkeep _ (by simp) _) (hkeep _ (by simp) _))))))))))

end McpBridge.Core
