import McpBridge.Lib.Sql
import McpBridge.Tools.DatabaseLines
/-!
# What the shell and the server make of a database tool

A tool means one call of its client, with one statement in which each text of the
caller is one word or one literal, or with one file the output goes to.
`invocation` and `template` say what is meant, `Contained` that the line is read
so. The names are checked, and cannot get out of their places; a password, the
privileges and a path are not checked. `Harmless` is the exact condition on them
and on the settings.
-/

open McpBridge.Lib McpBridge.Lib.Shell

namespace McpBridge.Tools.Database

/-! ## The statements -/

open Sql (Piece)

/-- A string argument, if it is there. -/
def argOf (args : Json) (key : String) : Option Str :=
  match args.get? (lit key) with
  | some (.str s) => some s
  | _ => none

/-- An argument that has to be there. -/
def text (args : Json) (key : String) : Str := (argOf args key).getD []

def asksMysql (args : Json) : Bool := (argOf args "engine").getD (lit "mysql") = lit "mysql"

/-- Privileges are one word where the caller gives them. -/
def privilegesPiece (args : Json) : Piece :=
  match argOf args "privileges" with
  | some privs => .word privs
  | none => .fixed (lit "ALL PRIVILEGES")

/-- The statement of a tool, with the texts of the caller in their places. -/
def template (args : Json) : Tool → Bool → List Piece
  | .createDatabase, _ => [.fixed (lit "CREATE DATABASE "), .word (text args "name"), .fixed (lit ";")]
  | .deleteDatabase, _ => [.fixed (lit "DROP DATABASE "), .word (text args "name"), .fixed (lit ";")]
  | .createDbUser, true =>
    [.fixed (lit "CREATE USER "), .literal (text args "username"), .fixed (lit "@'localhost' IDENTIFIED BY "),
      .literal (text args "password"), .fixed (lit ";")]
  | .createDbUser, false =>
    [.fixed (lit "CREATE USER "), .word (text args "username"), .fixed (lit " WITH PASSWORD "), .literal (text args "password"),
      .fixed (lit ";")]
  | .deleteDbUser, true => [.fixed (lit "DROP USER "), .literal (text args "username"), .fixed (lit "@'localhost';")]
  | .deleteDbUser, false => [.fixed (lit "DROP USER "), .word (text args "username"), .fixed (lit ";")]
  | .grantPrivileges, true =>
    [.fixed (lit "GRANT "), privilegesPiece args, .fixed (lit " ON "), .word (text args "database"), .fixed (lit ".* TO "),
      .literal (text args "username"), .fixed (lit "@'localhost'; FLUSH PRIVILEGES;")]
  | .grantPrivileges, false =>
    [.fixed (lit "GRANT "), privilegesPiece args, .fixed (lit " ON DATABASE "), .word (text args "database"), .fixed (lit " TO "),
      .word (text args "username"), .fixed (lit ";")]
  | .revokePrivileges, true =>
    [.fixed (lit "REVOKE ALL PRIVILEGES ON "), .word (text args "database"), .fixed (lit ".* FROM "),
      .literal (text args "username"), .fixed (lit "@'localhost'; FLUSH PRIVILEGES;")]
  | .revokePrivileges, false =>
    [.fixed (lit "REVOKE ALL ON DATABASE "), .word (text args "database"), .fixed (lit " FROM "), .word (text args "username"),
      .fixed (lit ";")]
  | .listTables, true => [.fixed (lit "SHOW TABLES;")]
  | .listTables, false => [.fixed (lit "SELECT tablename FROM pg_tables WHERE schemaname = 'public';")]
  | .describeTable, true => [.fixed (lit "DESCRIBE "), .word (text args "table"), .fixed (lit ";")]
  | .describeTable, false =>
    [.fixed (lit "SELECT column_name, data_type, is_nullable, column_default FROM information_schema.columns WHERE table_name = "),
      .literal (text args "table"), .fixed (lit ";")]
  | .backupDatabase, _ => []

/-- The database a statement is run in. -/
def database (args : Json) : Tool → Bool → Str
  | .listTables, _ | .describeTable, _ => text args "database"
  | _, true => []
  | _, false => lit "postgres"

/-- The file a dump goes to. -/
def dumpPath (args : Json) : Str := (argOf args "path").getD (text args "database" ++ lit "_backup.sql")

/-- The one call a tool means. -/
def invocation (cfg : Config) (args : Json) (tool : Tool) : List Part :=
  match tool, asksMysql args with
  | .backupDatabase, true => mysqldumpCall cfg.mysql (text args "database") (dumpPath args)
  | .backupDatabase, false => pgDumpCall cfg.postgres (text args "database") (dumpPath args)
  | tool, true => mysqlCall cfg.mysql (Sql.statement (template args tool true)) (database args tool true)
  | tool, false => psqlCall cfg.postgres (Sql.statement (template args tool false)) (database args tool false)

/-- The shell reads the line as the call that is meant, and the server its
statement as the template with each text of the caller in its place. -/
def Contained (cfg : Config) (args : Json) (tool : Tool) (line : Str) : Prop :=
  command (popened line) = some (invocation cfg args tool) ∧
    Sql.tokens (Sql.statement (template args tool (asksMysql args))) = some (Sql.meant (template args tool (asksMysql args)))

/-- The settings are plain, and so are the texts that are not checked: a password
without quotes and without anything the shell expands, one word of privileges,
and a plain file name. -/
def Harmless (cfg : Config) (args : Json) (tool : Tool) : Prop :=
  (if asksMysql args then cfg.mysql.Plain else cfg.postgres.Plain) ∧
    match tool with
    | .createDbUser => ch '\'' ∉ text args "password" ∧ Inert (text args "password") ∧ 0 ∉ text args "password"
    | .grantPrivileges => ∀ privs, argOf args "privileges" = some privs → privs ≠ [] ∧ ∀ c ∈ privs, Sql.isIdent c = true
    | .backupDatabase => ∀ path, argOf args "path" = some path → FileWord path ∧ 0 ∉ path
    | _ => True

/-! ## The lines of the tools -/

theorem mapError_ok {ε ε' α : Type} {f : ε → ε'} {x : Except ε α} {a : α} (h : x.mapError f = .ok a) : x = .ok a := by
  cases x with
  | error e => cases h
  | ok b =>
    cases h
    rfl

theorem required_ok {args : Json} {key : String} {s : Str} (h : required args key = .ok s) : argOf args key = some s := by
  obtain ⟨v, hv, hs⟩ := bind_eq_ok.1 (mapError_ok h)
  simp only [Json.at_] at hv
  split at hv
  · split at hv
    · next w hget =>
      cases hv
      cases v with
      | str t =>
        cases hs
        simp only [argOf, hget]
      | _ => cases hs
    · cases hv
  · cases hv

theorem optional_ok {args : Json} {key : String} {dflt s : Str} (h : optional args key dflt = .ok s) :
    s = (argOf args key).getD dflt := by
  have hvalue := mapError_ok h
  simp only [Json.value] at hvalue
  split at hvalue
  · split at hvalue
    · next v hget =>
      cases v with
      | str t =>
        cases hvalue
        simp only [argOf, hget, Option.getD_some]
      | _ => cases hvalue
    · next hget =>
      cases hvalue
      simp only [argOf, hget, Option.getD_none]
  · cases hvalue

theorem isMysql_ok {args : Json} {b : Bool} (h : isMysql args = .ok b) : b = asksMysql args := by
  obtain ⟨engine, he, hb⟩ := bind_eq_ok.1 h
  cases hb
  rw [optional_ok he]
  rfl

theorem validateName_ok {name : Str} {u : Unit} (h : validateName name = .ok u) : validName name = true := by
  unfold validateName at h
  split at h
  · assumption
  · cases h

/-- The names a tool checks. -/
def names (args : Json) : Tool → List Str
  | .createDatabase | .deleteDatabase => [text args "name"]
  | .createDbUser | .deleteDbUser => [text args "username"]
  | .grantPrivileges | .revokePrivileges => [text args "username", text args "database"]
  | .listTables | .backupDatabase => [text args "database"]
  | .describeTable => [text args "database", text args "table"]

/-- The line of a tool, from its template. -/
def lineOf (cfg : Config) (args : Json) (tool : Tool) : Str :=
  match tool, asksMysql args with
  | .backupDatabase, true => mysqldumpCmd cfg (text args "database") (dumpPath args)
  | .backupDatabase, false => pgDumpCmd cfg (text args "database") (dumpPath args)
  | tool, true => mysqlCmd cfg (Sql.statement (template args tool true)) (database args tool true)
  | tool, false => psqlCmd cfg (Sql.statement (template args tool false)) (database args tool false)

theorem text_of {args : Json} {key : String} {s : Str} (h : required args key = .ok s) : s = text args key := by
  rw [text, required_ok h]
  rfl

/-- Where a quote stands between fixed text and a text of the caller. -/
theorem lit_statements : lit "CREATE USER '" = lit "CREATE USER " ++ [ch '\''] ∧
    lit "'@'localhost' IDENTIFIED BY '" = ch '\'' :: (lit "@'localhost' IDENTIFIED BY " ++ [ch '\'']) ∧
    lit "';" = ch '\'' :: lit ";" ∧ lit " WITH PASSWORD '" = lit " WITH PASSWORD " ++ [ch '\''] ∧
    lit "DROP USER '" = lit "DROP USER " ++ [ch '\''] ∧ lit "'@'localhost';" = ch '\'' :: lit "@'localhost';" ∧
    lit ".* TO '" = lit ".* TO " ++ [ch '\''] ∧ lit ".* FROM '" = lit ".* FROM " ++ [ch '\''] ∧
    lit "'@'localhost'; FLUSH PRIVILEGES;" = ch '\'' :: lit "@'localhost'; FLUSH PRIVILEGES;" ∧
    lit "SELECT column_name, data_type, is_nullable, column_default FROM information_schema.columns WHERE table_name = '" =
      lit "SELECT column_name, data_type, is_nullable, column_default FROM information_schema.columns WHERE table_name = " ++
        [ch '\''] := by
  repeat rw [lit_ofList]
  decide +kernel

/-- The line for the engine that is asked for. -/
theorem engine_line {args : Json} {a b line : Str} (h : (do if ← isMysql args then return a else return b) = .ok line) :
    line = if asksMysql args then a else b := by
  obtain ⟨mysql, hmysql, h⟩ := bind_eq_ok.1 h
  cases isMysql_ok hmysql
  split at h
  · next hm =>
    cases h
    rw [if_pos hm]
  · next hm =>
    cases h
    rw [if_neg hm]

/-- What a tool runs is its template, and its names are checked. -/
theorem toolLine_ok {cfg : Config} {args : Json} {tool : Tool} {line : Str} (h : toolLine cfg args tool = .ok line) :
    (∀ n ∈ names args tool, validName n = true) ∧ line = lineOf cfg args tool := by
  obtain ⟨hcreate, hidentified, hend, hwith, hdrop, hat, hto, hfrom, hflush, hselect⟩ := lit_statements
  cases tool with
  | createDatabase =>
    obtain ⟨name, hname, h⟩ := bind_eq_ok.1 h
    obtain ⟨_, hvalid, h⟩ := bind_eq_ok.1 h
    cases text_of hname
    refine ⟨by simpa [names] using validateName_ok hvalid, (engine_line h).trans ?_⟩
    unfold lineOf
    cases asksMysql args <;> simp [template, database, Sql.statement, Sql.Piece.text]
  | deleteDatabase =>
    obtain ⟨name, hname, h⟩ := bind_eq_ok.1 h
    obtain ⟨_, hvalid, h⟩ := bind_eq_ok.1 h
    cases text_of hname
    refine ⟨by simpa [names] using validateName_ok hvalid, (engine_line h).trans ?_⟩
    unfold lineOf
    cases asksMysql args <;> simp [template, database, Sql.statement, Sql.Piece.text]
  | createDbUser =>
    obtain ⟨user, huser, h⟩ := bind_eq_ok.1 h
    obtain ⟨pass, hpass, h⟩ := bind_eq_ok.1 h
    obtain ⟨_, hvalid, h⟩ := bind_eq_ok.1 h
    cases text_of huser
    cases text_of hpass
    refine ⟨by simpa [names] using validateName_ok hvalid, (engine_line h).trans ?_⟩
    unfold lineOf
    cases asksMysql args <;> simp [template, database, Sql.statement, Sql.Piece.text, hcreate, hidentified, hend, hwith]
  | deleteDbUser =>
    obtain ⟨user, huser, h⟩ := bind_eq_ok.1 h
    obtain ⟨_, hvalid, h⟩ := bind_eq_ok.1 h
    cases text_of huser
    refine ⟨by simpa [names] using validateName_ok hvalid, (engine_line h).trans ?_⟩
    unfold lineOf
    cases asksMysql args <;> simp [template, database, Sql.statement, Sql.Piece.text, hdrop, hat]
  | grantPrivileges =>
    obtain ⟨user, huser, h⟩ := bind_eq_ok.1 h
    obtain ⟨db, hdb, h⟩ := bind_eq_ok.1 h
    obtain ⟨privs, hprivs, h⟩ := bind_eq_ok.1 h
    obtain ⟨_, hvalid, h⟩ := bind_eq_ok.1 h
    obtain ⟨_, hvalid', h⟩ := bind_eq_ok.1 h
    cases text_of huser
    cases text_of hdb
    cases optional_ok hprivs
    have hpiece : (privilegesPiece args).text = (argOf args "privileges").getD (lit "ALL PRIVILEGES") := by
      unfold privilegesPiece
      cases argOf args "privileges" <;> rfl
    refine ⟨by simpa [names] using ⟨validateName_ok hvalid, validateName_ok hvalid'⟩, (engine_line h).trans ?_⟩
    unfold lineOf
    cases asksMysql args
    all_goals
      simp only [template, database, Sql.statement, List.flatMap_cons, hpiece]
      simp [Sql.Piece.text, hto, hflush]
  | revokePrivileges =>
    obtain ⟨user, huser, h⟩ := bind_eq_ok.1 h
    obtain ⟨db, hdb, h⟩ := bind_eq_ok.1 h
    obtain ⟨_, hvalid, h⟩ := bind_eq_ok.1 h
    obtain ⟨_, hvalid', h⟩ := bind_eq_ok.1 h
    cases text_of huser
    cases text_of hdb
    refine ⟨by simpa [names] using ⟨validateName_ok hvalid, validateName_ok hvalid'⟩, (engine_line h).trans ?_⟩
    unfold lineOf
    cases asksMysql args <;> simp [template, database, Sql.statement, Sql.Piece.text, hfrom, hflush]
  | listTables =>
    obtain ⟨db, hdb, h⟩ := bind_eq_ok.1 h
    obtain ⟨_, hvalid, h⟩ := bind_eq_ok.1 h
    cases text_of hdb
    refine ⟨by simpa [names] using validateName_ok hvalid, (engine_line h).trans ?_⟩
    unfold lineOf
    cases asksMysql args <;> simp [template, database, Sql.statement, Sql.Piece.text]
  | describeTable =>
    obtain ⟨db, hdb, h⟩ := bind_eq_ok.1 h
    obtain ⟨table, htable, h⟩ := bind_eq_ok.1 h
    obtain ⟨_, hvalid, h⟩ := bind_eq_ok.1 h
    obtain ⟨_, hvalid', h⟩ := bind_eq_ok.1 h
    cases text_of hdb
    cases text_of htable
    refine ⟨by simpa [names] using ⟨validateName_ok hvalid, validateName_ok hvalid'⟩, (engine_line h).trans ?_⟩
    unfold lineOf
    cases asksMysql args <;> simp [template, database, Sql.statement, Sql.Piece.text, hselect, hend]
  | backupDatabase =>
    obtain ⟨db, hdb, h⟩ := bind_eq_ok.1 h
    obtain ⟨path, hpath, h⟩ := bind_eq_ok.1 h
    obtain ⟨_, hvalid, h⟩ := bind_eq_ok.1 h
    cases text_of hdb
    cases optional_ok hpath
    refine ⟨by simpa [names] using validateName_ok hvalid, (engine_line h).trans ?_⟩
    unfold lineOf
    cases asksMysql args <;> rfl

/-! ## The templates -/

/-- The fixed texts of the statements. -/
def fixedParts : List Str :=
  [lit "CREATE DATABASE ", lit "DROP DATABASE ", lit ";", lit "CREATE USER ", lit "@'localhost' IDENTIFIED BY ", lit " WITH PASSWORD ",
    lit "DROP USER ", lit "@'localhost';", lit "GRANT ", lit "ALL PRIVILEGES", lit " ON ", lit ".* TO ",
    lit "@'localhost'; FLUSH PRIVILEGES;", lit " ON DATABASE ", lit " TO ", lit "REVOKE ALL PRIVILEGES ON ", lit ".* FROM ",
    lit "REVOKE ALL ON DATABASE ", lit " FROM ", lit "SHOW TABLES;",
    lit "SELECT tablename FROM pg_tables WHERE schemaname = 'public';", lit "DESCRIBE ",
    lit "SELECT column_name, data_type, is_nullable, column_default FROM information_schema.columns WHERE table_name = "]

theorem fixed_part : ∀ s ∈ fixedParts, Sql.FixedText s ∧ 0 ∉ s := by
  have hall : fixedParts.all (fun s => (Sql.tokens s).isSome && s.all fun c =>
      c != ch '"' && !isActive c && c != ch '\\' && c != ch '\n' && c != 0) = true := by
    unfold fixedParts
    repeat rw [lit_ofList]
    decide +kernel
  intro s hs
  have hs := List.all_eq_true.1 hall s hs
  simp only [Bool.and_eq_true, List.all_eq_true, bne_iff_ne, Bool.not_eq_true'] at hs
  refine ⟨⟨hs.1, fun c hc => ?_⟩, fun h0 => (hs.2 0 h0).2 rfl⟩
  obtain ⟨⟨⟨⟨hquote, hactive⟩, hesc⟩, hnl⟩, -⟩ := hs.2 c hc
  exact ⟨hquote, hactive, hesc, hnl⟩

/-- A text of the caller, or one of the fixed texts. -/
def Known : Piece → Prop
  | .fixed s => s ∈ fixedParts
  | _ => True

theorem privilegesPiece_known (args : Json) : Known (privilegesPiece args) := by
  unfold privilegesPiece
  split
  · trivial
  · simp [Known, fixedParts]

theorem template_known (args : Json) (tool : Tool) (mysql : Bool) : ∀ p ∈ template args tool mysql, Known p := by
  have hprivs := privilegesPiece_known args
  cases tool <;> cases mysql
  all_goals
    simp only [template, List.forall_mem_cons, hprivs, true_and]
    simp [Known, fixedParts]

/-- Fixed texts that end, or begin, where no word goes on. -/
theorem fixed_apart : (∀ s ∈ [lit "CREATE DATABASE ", lit "DROP DATABASE ", lit "CREATE USER ", lit "@'localhost' IDENTIFIED BY ",
      lit " WITH PASSWORD ", lit "DROP USER ", lit "GRANT ", lit " ON ", lit ".* TO ", lit " ON DATABASE ", lit " TO ",
      lit "REVOKE ALL PRIVILEGES ON ", lit ".* FROM ", lit "REVOKE ALL ON DATABASE ", lit " FROM ", lit "DESCRIBE "],
        (Piece.fixed s).closesApart = true) ∧
    ∀ s ∈ [lit ";", lit " WITH PASSWORD ", lit " ON ", lit ".* TO ", lit " ON DATABASE ", lit " TO ", lit ".* FROM ", lit " FROM "],
      (Piece.fixed s).opensApart = true := by
  repeat rw [lit_ofList]
  decide +kernel

theorem template_separated (args : Json) (tool : Tool) (mysql : Bool) : Sql.separated (template args tool mysql) = true := by
  obtain ⟨hclose, hopen⟩ := fixed_apart
  simp only [List.forall_mem_cons] at hclose hopen
  have hliteral : ∀ l, (Piece.literal l).closesApart = true ∧ (Piece.literal l).opensApart = true := fun l => ⟨rfl, rfl⟩
  cases tool <;> cases mysql
  all_goals
    simp only [template, Sql.separated, hclose, hopen, hliteral, Bool.or_true, Bool.true_or, Bool.and_self]

theorem template_valid (args : Json) (tool : Tool) (mysql : Bool) : Sql.Template (template args tool mysql) where
  fixed s hs := (fixed_part s (template_known args tool mysql _ hs)).1
  separated := template_separated args tool mysql

/-- A statement ends in a semicolon. -/
theorem template_last (args : Json) {tool : Tool} (ht : tool ≠ .backupDatabase) (mysql : Bool) :
    (Sql.statement (template args tool mysql)).getLast? ≠ some (ch '\\') := by
  have hends : ∀ t ∈ [lit ";", lit "@'localhost';", lit "@'localhost'; FLUSH PRIVILEGES;", lit "SHOW TABLES;",
      lit "SELECT tablename FROM pg_tables WHERE schemaname = 'public';"], t ≠ [] ∧ t.getLast? ≠ some (ch '\\') := by
    decide +kernel
  simp only [List.forall_mem_cons] at hends
  obtain ⟨hend, hat, hflush, hshow, hselect, -⟩ := hends
  have hlast : ∀ {ps : List Piece} {t : Str}, ps.getLast? = some (.fixed t) → t ≠ [] ∧ t.getLast? ≠ some (ch '\\') →
      (Sql.statement ps).getLast? ≠ some (ch '\\') := by
    intro ps t hps ht
    rw [Sql.statement_last hps ht.1]
    exact ht.2
  cases tool with
  | createDatabase | deleteDatabase => exact hlast rfl hend
  | createDbUser => cases mysql <;> exact hlast rfl hend
  | deleteDbUser =>
    cases mysql
    · exact hlast rfl hend
    · exact hlast rfl hat
  | grantPrivileges | revokePrivileges =>
    cases mysql
    · exact hlast rfl hend
    · exact hlast rfl hflush
  | listTables =>
    cases mysql
    · exact hlast rfl hselect
    · exact hlast rfl hshow
  | describeTable => cases mysql <;> exact hlast rfl hend
  | backupDatabase => exact absurd rfl ht

/-- A piece that stays in its place, within a C string. -/
def Stays (p : Piece) : Prop := p.Safe ∧ 0 ∉ p.text

theorem stays_iff (ps : List Piece) : (∀ p ∈ ps, p.Safe) ∧ 0 ∉ Sql.statement ps ↔ ∀ p ∈ ps, Stays p := by
  simp only [Stays, Sql.statement, List.mem_flatMap, not_exists, not_and]
  exact ⟨fun h p hp => ⟨h.1 p hp, h.2 p hp⟩, fun h => ⟨fun p hp => (h p hp).1, fun p hp => (h p hp).2⟩⟩

theorem stays_literal (l : Str) : Stays (.literal l) ↔ ch '\'' ∉ l ∧ Inert l ∧ 0 ∉ l := by
  have hquote : (0 : UInt8) ≠ ch '\'' := by decide
  simp [Stays, Piece.Safe, Piece.text, hquote, and_assoc]

theorem stays_word (w : Str) : Stays (.word w) ↔ w ≠ [] ∧ ∀ c ∈ w, Sql.isIdent c = true := by
  have hzero : Sql.isIdent 0 = false := by decide
  refine ⟨fun h => h.1, fun h => ⟨h, fun h0 => ?_⟩⟩
  have h0 := h.2 0 h0
  rw [hzero] at h0
  cases h0

theorem stays_name {name : Str} (h : validName name = true) : Stays (.word name) ∧ Stays (.literal name) := by
  simp only [validName, Bool.and_eq_true, decide_eq_true_eq, List.all_eq_true] at h
  have hident : ∀ c ∈ name, Sql.isIdent c = true := by
    intro c hc
    have hc := h.2 c hc
    simp only [isNameByte, Bool.or_eq_true, decide_eq_true_eq] at hc
    simp [Sql.isIdent, hc]
  refine ⟨(stays_word name).2 ⟨h.1, hident⟩, (stays_literal name).2 ⟨?_, ?_, ?_⟩⟩
  · exact fun hq => (Sql.ident_not_quote (hident _ hq)).1 rfl
  · exact (Sql.settled_of_all fun c hc => Sql.ident_settled (hident c hc)).1
  · exact ((stays_word name).2 ⟨h.1, hident⟩).2

theorem stays_privileges (args : Json) : Stays (privilegesPiece args) ↔
    ∀ privs, argOf args "privileges" = some privs → privs ≠ [] ∧ ∀ c ∈ privs, Sql.isIdent c = true := by
  unfold privilegesPiece
  cases argOf args "privileges" with
  | none =>
    have hfixed := (fixed_part (lit "ALL PRIVILEGES") (by simp [fixedParts])).2
    exact iff_of_true ⟨trivial, hfixed⟩ nofun
  | some privs =>
    rw [stays_word]
    exact ⟨fun h p hp => by cases hp; exact h, fun h => h privs rfl⟩

/-- Only a password and privileges can get out of their places in a statement. -/
theorem template_stays {args : Json} {tool : Tool} (hn : ∀ n ∈ names args tool, validName n = true) (mysql : Bool) :
    (∀ p ∈ template args tool mysql, Stays p) ↔
      match tool with
      | .createDbUser => ch '\'' ∉ text args "password" ∧ Inert (text args "password") ∧ 0 ∉ text args "password"
      | .grantPrivileges => ∀ privs, argOf args "privileges" = some privs → privs ≠ [] ∧ ∀ c ∈ privs, Sql.isIdent c = true
      | _ => True := by
  have hfixed : ∀ s ∈ fixedParts, Stays (.fixed s) := fun s hs => ⟨trivial, (fixed_part s hs).2⟩
  have hnames : ∀ n ∈ names args tool, Stays (.word n) ∧ Stays (.literal n) := fun n h => stays_name (hn n h)
  simp only [fixedParts, List.forall_mem_cons] at hfixed
  cases tool <;> cases mysql
  all_goals
    simp only [names, List.forall_mem_cons] at hnames
    simp only [template, List.forall_mem_cons, hfixed, hnames, stays_privileges, stays_literal, true_and]
    simp

theorem dumpPath_plain {args : Json} (hn : validName (text args "database") = true) :
    FileWord (dumpPath args) ∧ 0 ∉ dumpPath args ↔ ∀ path, argOf args "path" = some path → FileWord path ∧ 0 ∉ path := by
  unfold dumpPath
  cases argOf args "path" with
  | some path => exact ⟨fun h p hp => by cases hp; exact h, fun h => h path rfl⟩
  | none =>
    have hsuffix : ∀ c ∈ lit "_backup.sql", isNameByte c = true ∨ c = ch '-' ∨ c = ch '.' := by
      intro c hc
      have hbyte := List.all_eq_true.1 (show (lit "_backup.sql").all (fun c => isNameByte c || c = ch '.') = true by decide) c hc
      rw [Bool.or_eq_true, decide_eq_true_eq] at hbyte
      exact hbyte.imp_right .inr
    simp only [validName, Bool.and_eq_true, decide_eq_true_eq, List.all_eq_true] at hn
    have hpath := plainWord_bytes (s := text args "database" ++ lit "_backup.sql") (by simp [hn.1]) (by
      intro c hc
      rcases List.mem_append.1 hc with hc | hc
      · exact .inl (hn.2 c hc)
      · exact hsuffix c hc)
    exact iff_of_true ⟨hpath.1.toFileWord, hpath.2⟩ (by rintro path ⟨⟩)

/-- The databases a statement is run in are checked or fixed. -/
theorem database_valid {args : Json} {tool : Tool} (hn : ∀ n ∈ names args tool, validName n = true) :
    (database args tool true = [] ∨ validName (database args tool true) = true) ∧ validName (database args tool false) = true := by
  have hpostgres : validName (lit "postgres") = true := by decide
  cases tool with
  | listTables | describeTable =>
    have hdb : validName (text args "database") = true := hn _ (by simp [names])
    exact ⟨.inr hdb, hdb⟩
  | _ => exact ⟨.inl rfl, hpostgres⟩

theorem lineOf_mysql (cfg : Config) {args : Json} {tool : Tool} (ht : tool ≠ .backupDatabase) (hm : asksMysql args = true) :
    lineOf cfg args tool = mysqlCmd cfg (Sql.statement (template args tool true)) (database args tool true) ∧
      invocation cfg args tool = mysqlCall cfg.mysql (Sql.statement (template args tool true)) (database args tool true) := by
  unfold lineOf invocation
  rw [hm]
  cases tool
  case backupDatabase => exact absurd rfl ht
  all_goals exact ⟨rfl, rfl⟩

theorem lineOf_postgres (cfg : Config) {args : Json} {tool : Tool} (ht : tool ≠ .backupDatabase) (hm : asksMysql args = false) :
    lineOf cfg args tool = psqlCmd cfg (Sql.statement (template args tool false)) (database args tool false) ∧
      invocation cfg args tool = psqlCall cfg.postgres (Sql.statement (template args tool false)) (database args tool false) := by
  unfold lineOf invocation
  rw [hm]
  cases tool
  case backupDatabase => exact absurd rfl ht
  all_goals exact ⟨rfl, rfl⟩

/-- A statement tool stays within the call it means exactly if the server and the pieces are harmless. -/
theorem contained_statement {cfg : Config} (hcfg : cfg.mysql.QuoteFree ∧ cfg.postgres.QuoteFree) {args : Json} {tool : Tool}
    (ht : tool ≠ .backupDatabase) (hn : ∀ n ∈ names args tool, validName n = true) :
    Contained cfg args tool (lineOf cfg args tool) ↔
      (if asksMysql args then cfg.mysql.Plain else cfg.postgres.Plain) ∧ ∀ p ∈ template args tool (asksMysql args), Stays p := by
  have hlast := template_last args ht (asksMysql args)
  have hstatement := Sql.statement_iff (template_valid args tool (asksMysql args))
  obtain ⟨hdb, hdb'⟩ := database_valid hn
  rw [← stays_iff, ← hstatement, Contained]
  cases hm : asksMysql args with
  | true =>
    obtain ⟨hline, hcall⟩ := lineOf_mysql cfg ht hm
    rw [hm] at hlast
    rw [hline, hcall]
    simp only [if_true]
    rw [mysqlCmd_iff hcfg.1 hlast hdb]
    tauto
  | false =>
    obtain ⟨hline, hcall⟩ := lineOf_postgres cfg ht hm
    rw [hm] at hlast
    rw [hline, hcall]
    simp only [Bool.false_eq_true, if_false]
    rw [psqlCmd_iff hcfg.2 hlast hdb']
    tauto

theorem contained_dump {cfg : Config} (hcfg : cfg.mysql.QuoteFree ∧ cfg.postgres.QuoteFree) {args : Json}
    (hn : validName (text args "database") = true) :
    Contained cfg args .backupDatabase (lineOf cfg args .backupDatabase) ↔
      (if asksMysql args then cfg.mysql.Plain else cfg.postgres.Plain) ∧ FileWord (dumpPath args) ∧ 0 ∉ dumpPath args := by
  have htokens : Sql.tokens (Sql.statement (template args .backupDatabase (asksMysql args))) =
      some (Sql.meant (template args .backupDatabase (asksMysql args))) := rfl
  unfold Contained invocation lineOf
  rw [htokens]
  cases hm : asksMysql args with
  | true =>
    simp only [if_true, and_true]
    exact mysqldumpCmd_iff hcfg.1 hn
  | false =>
    simp only [Bool.false_eq_true, if_false, and_true]
    exact pgDumpCmd_iff hcfg.2 hn

/-- A database tool stays within the one call and the one statement it means
exactly if the settings and the unchecked texts are harmless. -/
theorem contained_iff_harmless (cfg : Config) (hcfg : cfg.mysql.QuoteFree ∧ cfg.postgres.QuoteFree) (args : Json) (tool : Tool)
    (line : Str) (h : toolLine cfg args tool = .ok line) : Contained cfg args tool line ↔ Harmless cfg args tool := by
  obtain ⟨hnames, rfl⟩ := toolLine_ok h
  by_cases ht : tool = .backupDatabase
  · subst ht
    have hdb := hnames (text args "database") (by simp [names])
    rw [contained_dump hcfg hdb, dumpPath_plain hdb]
    rfl
  · rw [contained_statement hcfg ht hnames, template_stays hnames]
    unfold Harmless
    cases tool
    case backupDatabase => exact absurd rfl ht
    all_goals exact Iff.rfl

theorem default_quoteFree : ({} : Config).mysql.QuoteFree ∧ ({} : Config).postgres.QuoteFree := by
  have h : ∀ s ∈ [lit "localhost", lit "root", lit "postgres", []], Shell.QuoteFree s := by
    unfold Shell.QuoteFree
    decide
  simp only [List.forall_mem_cons] at h
  obtain ⟨hlocalhost, hroot, hpostgres, hempty, -⟩ := h
  exact ⟨⟨hlocalhost, hroot, hempty⟩, hlocalhost, hpostgres, hempty⟩

/-- The arguments of `create_db_user` for bob. -/
def bobWith (password : Str) : Json :=
  .obj [(lit "password", .str password), (lit "username", .str (lit "bob"))]

/-- What `create_db_user` runs for bob on a fresh installation. -/
def bobLine (password : Str) : Str :=
  mysqlCmd {} (lit "CREATE USER '" ++ lit "bob" ++ lit "'@'localhost' IDENTIFIED BY '" ++ password ++ lit "';") []

theorem harmless_bob : Harmless {} (bobWith (lit "secret")) .createDbUser := by
  have hmysql : asksMysql (bobWith (lit "secret")) = true := by rfl
  have hpassword : text (bobWith (lit "secret")) "password" = lit "secret" := by rfl
  have hlocalhost := plain_name (show validName (lit "localhost") = true by decide +kernel)
  have hroot := plain_name (show validName (lit "root") = true by decide +kernel)
  unfold Harmless
  rw [hmysql, hpassword]
  have hstays := (stays_name (show validName (lit "secret") = true by decide +kernel)).2
  exact ⟨⟨hlocalhost, hroot, nofun⟩, (stays_literal _).1 hstays⟩

theorem contained_bob : toolLine {} (bobWith (lit "secret")) .createDbUser = .ok (bobLine (lit "secret")) ∧
    Contained {} (bobWith (lit "secret")) .createDbUser (bobLine (lit "secret")) :=
  ⟨by rfl, (contained_iff_harmless {} default_quoteFree _ _ _ (by rfl)).2 harmless_bob⟩

/-- A password the shell runs. -/
theorem escaped_bob : (({} : Config).mysql.QuoteFree ∧ ({} : Config).postgres.QuoteFree) ∧
    toolLine {} (bobWith (lit "x$(id)")) .createDbUser = .ok (bobLine (lit "x$(id)")) ∧
    ¬ Contained {} (bobWith (lit "x$(id)")) .createDbUser (bobLine (lit "x$(id)")) := by
  refine ⟨default_quoteFree, by rfl, fun h => ?_⟩
  have hnone : command (popened (bobLine (lit "x$(id)"))) = none := by decide +kernel
  rw [Contained, hnone] at h
  cases h.1

end McpBridge.Tools.Database
