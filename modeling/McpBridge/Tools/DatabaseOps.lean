import McpBridge.Lib.Json
import McpBridge.Lib.JsonText
/-!
# The database tools (`tools/data/database_ops.cpp`, `platform/linux/process_linux.cpp`)

Each tool reads its arguments, checks the names among them, and puts a command
line together that `run_process` hands to the shell. The tools below are those
that run a fixed statement, and the one that dumps a database; a tool is the line
it runs, or the text of what it throws before that.
-/

open McpBridge.Lib

namespace McpBridge.Tools.Database

/-- The settings of the database servers in `Config`. -/
structure Config where
  mysqlHost : Str := lit "localhost"
  mysqlPort : Int := 3306
  mysqlRootUser : Str := lit "root"
  mysqlRootPassword : Str := []
  postgresHost : Str := lit "localhost"
  postgresPort : Int := 5432
  postgresRootUser : Str := lit "postgres"
  postgresRootPassword : Str := []

def isNameByte (c : UInt8) : Bool := isAlnum c || c = ch '_'

def validName (name : Str) : Bool := name ≠ [] && name.all isNameByte

def validateName (name : Str) : Except Str Unit :=
  if validName name then .ok ()
  else .error (lit "Invalid name (only alphanumeric and underscore allowed): " ++ name)

def mysqlCmd (cfg : Config) (sql : Str) (db : Str) : Str :=
  let cmd := lit "mysql -h " ++ cfg.mysqlHost ++ lit " -P " ++ writeInt cfg.mysqlPort ++ lit " -u " ++ cfg.mysqlRootUser
  let cmd := if cfg.mysqlRootPassword ≠ [] then cmd ++ (lit " -p'" ++ cfg.mysqlRootPassword ++ lit "'") else cmd
  let cmd := if db ≠ [] then cmd ++ (lit " " ++ db) else cmd
  cmd ++ (lit " -e \"" ++ sql ++ lit "\" --batch --skip-column-names 2>&1")

def psqlCmd (cfg : Config) (sql : Str) (db : Str) : Str :=
  lit "PGPASSWORD='" ++ cfg.postgresRootPassword ++ lit "' psql" ++ lit " -h " ++ cfg.postgresHost ++ lit " -p " ++
    writeInt cfg.postgresPort ++ lit " -U " ++ cfg.postgresRootUser ++ lit " -d " ++ db ++ lit " -t -A -c \"" ++ sql ++ lit "\" 2>&1"

/-- The line of `backup_database` for MySQL. -/
def mysqldumpCmd (cfg : Config) (db path : Str) : Str :=
  let cmd := lit "mysqldump -h " ++ cfg.mysqlHost ++ lit " -P " ++ writeInt cfg.mysqlPort ++ lit " -u " ++ cfg.mysqlRootUser
  let cmd := if cfg.mysqlRootPassword ≠ [] then cmd ++ (lit " -p'" ++ cfg.mysqlRootPassword ++ lit "'") else cmd
  cmd ++ (lit " " ++ db ++ lit " > " ++ path ++ lit " 2>&1")

/-- The line of `backup_database` for PostgreSQL. -/
def pgDumpCmd (cfg : Config) (db path : Str) : Str :=
  lit "PGPASSWORD='" ++ cfg.postgresRootPassword ++ lit "' pg_dump" ++ lit " -h " ++ cfg.postgresHost ++ lit " -p " ++
    writeInt cfg.postgresPort ++ lit " -U " ++ cfg.postgresRootUser ++ lit " " ++ db ++ lit " > " ++ path ++ lit " 2>&1"

/-! ## Arguments -/

/-- An argument that has to be there, as a string. -/
def required (args : Json) (key : String) : Except Str Str := (do (← args.at_ (lit key)).asStr).mapError JsonError.what

def optional (args : Json) (key : String) (dflt : Str) : Except Str Str :=
  (args.value Json.asStr (lit key) dflt).mapError JsonError.what

def isMysql (args : Json) : Except Str Bool := do
  let engine ← optional args "engine" (lit "mysql")
  return engine = lit "mysql"

/-! ## The tools -/

inductive Tool where
  | createDatabase
  | deleteDatabase
  | createDbUser
  | deleteDbUser
  | grantPrivileges
  | revokePrivileges
  | listTables
  | describeTable
  | backupDatabase
deriving DecidableEq

section
variable (cfg : Config) (args : Json)

def createDatabase : Except Str Str := do
  let name ← required args "name"
  validateName name
  if ← isMysql args then return mysqlCmd cfg (lit "CREATE DATABASE " ++ name ++ lit ";") []
  else return psqlCmd cfg (lit "CREATE DATABASE " ++ name ++ lit ";") (lit "postgres")

def deleteDatabase : Except Str Str := do
  let name ← required args "name"
  validateName name
  if ← isMysql args then return mysqlCmd cfg (lit "DROP DATABASE " ++ name ++ lit ";") []
  else return psqlCmd cfg (lit "DROP DATABASE " ++ name ++ lit ";") (lit "postgres")

def createDbUser : Except Str Str := do
  let user ← required args "username"
  let pass ← required args "password"
  validateName user
  if ← isMysql args then
    return mysqlCmd cfg (lit "CREATE USER '" ++ user ++ lit "'@'localhost' IDENTIFIED BY '" ++ pass ++ lit "';") []
  else return psqlCmd cfg (lit "CREATE USER " ++ user ++ lit " WITH PASSWORD '" ++ pass ++ lit "';") (lit "postgres")

def deleteDbUser : Except Str Str := do
  let user ← required args "username"
  validateName user
  if ← isMysql args then return mysqlCmd cfg (lit "DROP USER '" ++ user ++ lit "'@'localhost';") []
  else return psqlCmd cfg (lit "DROP USER " ++ user ++ lit ";") (lit "postgres")

def grantPrivileges : Except Str Str := do
  let user ← required args "username"
  let db ← required args "database"
  let privs ← optional args "privileges" (lit "ALL PRIVILEGES")
  validateName user
  validateName db
  if ← isMysql args then
    return mysqlCmd cfg (lit "GRANT " ++ privs ++ lit " ON " ++ db ++ lit ".* TO '" ++ user ++
      lit "'@'localhost'; FLUSH PRIVILEGES;") []
  else return psqlCmd cfg (lit "GRANT " ++ privs ++ lit " ON DATABASE " ++ db ++ lit " TO " ++ user ++ lit ";") (lit "postgres")

def revokePrivileges : Except Str Str := do
  let user ← required args "username"
  let db ← required args "database"
  validateName user
  validateName db
  if ← isMysql args then
    return mysqlCmd cfg (lit "REVOKE ALL PRIVILEGES ON " ++ db ++ lit ".* FROM '" ++ user ++
      lit "'@'localhost'; FLUSH PRIVILEGES;") []
  else return psqlCmd cfg (lit "REVOKE ALL ON DATABASE " ++ db ++ lit " FROM " ++ user ++ lit ";") (lit "postgres")

def listTables : Except Str Str := do
  let db ← required args "database"
  validateName db
  if ← isMysql args then return mysqlCmd cfg (lit "SHOW TABLES;") db
  else return psqlCmd cfg (lit "SELECT tablename FROM pg_tables WHERE schemaname = 'public';") db

def describeTable : Except Str Str := do
  let db ← required args "database"
  let table ← required args "table"
  validateName db
  validateName table
  if ← isMysql args then return mysqlCmd cfg (lit "DESCRIBE " ++ table ++ lit ";") db
  else return psqlCmd cfg (lit "SELECT column_name, data_type, is_nullable, column_default FROM information_schema.columns WHERE table_name = '" ++
    table ++ lit "';") db

def backupDatabase : Except Str Str := do
  let db ← required args "database"
  let path ← optional args "path" (db ++ lit "_backup.sql")
  validateName db
  if ← isMysql args then return mysqldumpCmd cfg db path
  else return pgDumpCmd cfg db path

/-- The line a tool passes to `run_process`. -/
def toolLine : Tool → Except Str Str
  | .createDatabase => createDatabase cfg args
  | .deleteDatabase => deleteDatabase cfg args
  | .createDbUser => createDbUser cfg args
  | .deleteDbUser => deleteDbUser cfg args
  | .grantPrivileges => grantPrivileges cfg args
  | .revokePrivileges => revokePrivileges cfg args
  | .listTables => listTables cfg args
  | .describeTable => describeTable cfg args
  | .backupDatabase => backupDatabase cfg args

end

/-! ## The shell -/

/-- What `run_process` makes of a command. -/
def fullCmd (command cwd : Str) (timeoutSecs : Int) (env : List (Str × Str)) : Str :=
  let cmd := if 0 < timeoutSecs then lit "timeout " ++ writeInt timeoutSecs ++ lit " " ++ command else command
  let cmd := if cwd ≠ [] then lit "cd " ++ cwd ++ lit " && " ++ cmd else cmd
  let pairs := env.flatMap fun kv => kv.1 ++ lit "=" ++ kv.2 ++ lit " "
  let cmd := if pairs ≠ [] then pairs ++ cmd else cmd
  cmd ++ lit " 2>&1"

/-- What the shell gets of a tool's line: `popen` takes it up to the first NUL. -/
def popened (line : Str) : Str := (fullCmd line [] 0 []).takeWhile (· ≠ 0)

end McpBridge.Tools.Database
