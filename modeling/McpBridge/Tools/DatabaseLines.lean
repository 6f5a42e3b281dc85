import McpBridge.Lib.ShellLine
import McpBridge.Tools.DatabaseOps
/-!
# The command lines of the database tools

Each line is one call of a client: its options and the server's settings, then a
statement in double quotes or a file the output goes to. `mysqlCall` and its
siblings are the calls that are meant. The shell reads a line so exactly if the
host and the user are plain words, and the statement stands for itself within
double quotes, or the file name outside them.
-/

open McpBridge.Lib McpBridge.Lib.Shell

namespace McpBridge.Tools.Database

/-- The settings of one server. -/
structure Server where
  host : Str
  port : Int
  user : Str
  password : Str

def Config.mysql (cfg : Config) : Server := ⟨cfg.mysqlHost, cfg.mysqlPort, cfg.mysqlRootUser, cfg.mysqlRootPassword⟩

def Config.postgres (cfg : Config) : Server :=
  ⟨cfg.postgresHost, cfg.postgresPort, cfg.postgresRootUser, cfg.postgresRootPassword⟩

/-- No setting has a quote. -/
structure Server.QuoteFree (s : Server) : Prop where
  host : Shell.QuoteFree s.host
  user : Shell.QuoteFree s.user
  password : Shell.QuoteFree s.password

/-- The host and the user are plain words; a password only has no NUL. -/
structure Server.Plain (s : Server) : Prop where
  host : PlainWord s.host ∧ 0 ∉ s.host
  user : PlainWord s.user ∧ 0 ∉ s.user
  password : 0 ∉ s.password

/-! ## What is meant -/

/-- The arguments that name the server, and those that follow. -/
def serverArgs (portFlag userFlag : Str) (s : Server) (rest : List Arg) : List Arg :=
  .bare (lit "-h") :: .bare s.host :: .bare portFlag :: .bare (writeInt s.port) :: .bare userFlag :: .bare s.user :: rest

/-- The password is left out where it is empty. -/
def passwordArg (s : Server) : List Arg := if s.password ≠ [] then [.single (lit "-p") s.password] else []

def mysqlArgs (s : Server) (rest : List Arg) : List Arg := serverArgs (lit "-P") (lit "-u") s (passwordArg s ++ rest)

def psqlArgs (s : Server) (rest : List Arg) : List Arg := serverArgs (lit "-p") (lit "-U") s rest

/-- The arguments as the client gets them. -/
def argv (as : List Arg) : List Part := as.map fun a => .word a.value

/-- `2>&1`. -/
def dup : Part := .redirect (lit "2") (lit ">&") (lit "1")

/-- The arguments of `mysql` before the statement; the database may be left out. -/
def mysqlBefore (s : Server) (db : Str) : List Arg :=
  mysqlArgs s ((if db ≠ [] then [.bare db] else []) ++ [.bare (lit "-e")])

def psqlBefore (s : Server) (db : Str) : List Arg :=
  psqlArgs s [.bare (lit "-d"), .bare db, .bare (lit "-t"), .bare (lit "-A"), .bare (lit "-c")]

def mysqlCall (s : Server) (sql db : Str) : List Part :=
  [.word (lit "mysql")] ++ (argv (mysqlBefore s db) ++
    .word sql :: [.word (lit "--batch"), .word (lit "--skip-column-names"), dup, dup])

def psqlCall (s : Server) (sql db : Str) : List Part :=
  [.assign (lit "PGPASSWORD") s.password, .word (lit "psql")] ++ (argv (psqlBefore s db) ++ .word sql :: [dup, dup])

def mysqldumpCall (s : Server) (db path : Str) : List Part :=
  [.word (lit "mysqldump")] ++ (argv (mysqlArgs s [.bare db]) ++ .redirect [] (lit ">") path :: [dup, dup])

def pgDumpCall (s : Server) (db path : Str) : List Part :=
  [.assign (lit "PGPASSWORD") s.password, .word (lit "pg_dump")] ++
    (argv (psqlArgs s [.bare db]) ++ .redirect [] (lit ">") path :: [dup, dup])

/-! ## The lines -/

theorem plainByte {c : UInt8} (h : isNameByte c = true ∨ c = ch '-' ∨ c = ch '.') :
    (isLiteral c = true ∧ isDelimiter c = false ∧ isGlob c = false) ∧ isLeader c = false ∧ c ≠ 0 := by
  have hall : ∀ n : Fin 256, isNameByte (UInt8.ofNat n) = true ∨ UInt8.ofNat n = ch '-' ∨ UInt8.ofNat n = ch '.' →
      (isLiteral (UInt8.ofNat n) = true ∧ isDelimiter (UInt8.ofNat n) = false ∧ isGlob (UInt8.ofNat n) = false) ∧
        isLeader (UInt8.ofNat n) = false ∧ UInt8.ofNat n ≠ 0 := by
    decide +kernel
  have hc := hall ⟨c.toNat, c.toNat_lt⟩
  simp only [UInt8.ofNat_toNat] at hc
  exact hc h

theorem plainWord_bytes {s : Str} (hne : s ≠ []) (hs : ∀ c ∈ s, isNameByte c = true ∨ c = ch '-' ∨ c = ch '.') : PlainWord s ∧ 0 ∉ s := by
  refine ⟨⟨⟨hne, fun c hc => (plainByte (hs c hc)).1.1, fun c hc => (plainByte (hs c hc)).1.2.1, ?_⟩,
    fun c hc => (plainByte (hs c hc)).1.2.2⟩, fun h0 => (plainByte (hs 0 h0)).2.2 rfl⟩
  intro c hc
  exact (plainByte (hs c (List.mem_of_mem_head? hc))).2.1

theorem plain_name {name : Str} (h : validName name = true) : PlainWord name ∧ 0 ∉ name := by
  simp only [validName, Bool.and_eq_true, decide_eq_true_eq, List.all_eq_true] at h
  exact plainWord_bytes h.1 fun c hc => .inl (h.2 c hc)

theorem plain_writeInt (n : Int) : PlainWord (writeInt n) ∧ 0 ∉ writeInt n := by
  apply plainWord_bytes (writeInt_ne_nil n)
  intro c hc
  rcases mem_writeInt hc with rfl | hdigit
  · exact .inr (.inl rfl)
  · simp [isNameByte, isAlnum, hdigit]

/-- The texts of the clients' options. -/
def optionWords : List Str :=
  [lit "mysql", lit "psql", lit "mysqldump", lit "pg_dump", lit "-h", lit "-P", lit "-p", lit "-u", lit "-U", lit "-d", lit "-t",
    lit "-A", lit "-c", lit "-e", lit "PGPASSWORD="]

theorem plain_option : ∀ s ∈ optionWords, PlainWord s ∧ 0 ∉ s := by
  have hall : ∀ s ∈ optionWords, isPlainWord s = true ∧ 0 ∉ s := by decide +kernel
  exact fun s hs => ⟨plainWord_of (hall s hs).1, (hall s hs).2⟩

/-- A plain argument begins outside quotes. -/
theorem items_start {a : Arg} (ha : a.Plain) (as : List Arg) :
    ∃ c is, itemsOf (a :: as) = .char false c :: is ∧ isDelimiter c = false := by
  cases a with
  | bare s =>
    obtain ⟨c, s, rfl⟩ := List.exists_cons_of_ne_nil ha.ne_nil
    exact ⟨c, _, rfl, ha.undelimited c (by simp)⟩
  | single lead s =>
    obtain ⟨c, lead, rfl⟩ := List.exists_cons_of_ne_nil ha.1.ne_nil
    exact ⟨c, _, rfl, ha.1.undelimited c (by simp)⟩

theorem guarded_of_plain {as : List Arg} (h : ∀ a ∈ as, a.Plain) : Guarded as := by
  induction as with
  | nil => trivial
  | cons a as ih => exact ⟨.inl (h a (by simp)), ih fun b hb => h b (by simp [hb])⟩

theorem zero_render (as : List Arg) : 0 ∉ render as ↔ ∀ a ∈ as, 0 ∉ a.text := by
  have hspace : (0 : UInt8) ≠ ch ' ' := by decide
  simp [render, hspace]

section
variable {p u : Str} (hp : PlainWord p ∧ 0 ∉ p) (hu : PlainWord u ∧ 0 ∉ u) {s : Server} {rest : List Arg}
variable (hr : ∀ a ∈ rest, a.Plain)
include hp hu

include hr in
theorem serverArgs_quoteFree (hs : s.QuoteFree) : ∀ a ∈ serverArgs p u s rest, a.QuoteFree := by
  have hh := (plain_option (lit "-h") (by simp [optionWords])).1
  have hn := (plain_writeInt s.port).1
  simp only [serverArgs, List.mem_cons]
  rintro a (rfl | rfl | rfl | rfl | rfl | rfl | ha)
  · exact Arg.Plain.quoteFree (a := .bare _) hh
  · exact hs.host
  · exact Arg.Plain.quoteFree (a := .bare _) hp.1
  · exact Arg.Plain.quoteFree (a := .bare _) hn
  · exact Arg.Plain.quoteFree (a := .bare _) hu.1
  · exact hs.user
  · exact (hr a ha).quoteFree

include hr in
theorem serverArgs_plain : (∀ a ∈ serverArgs p u s rest, a.Plain) ↔ PlainWord s.host ∧ PlainWord s.user := by
  have hh := (plain_option (lit "-h") (by simp [optionWords])).1
  have hn := (plain_writeInt s.port).1
  simp only [serverArgs, List.forall_mem_cons, Arg.Plain, hh, hn, hp.1, hu.1, true_and]
  exact ⟨fun h => ⟨h.1, h.2.1⟩, fun h => ⟨h.1, h.2, hr⟩⟩

include hr in
/-- The host and the user are followed by what is not quoted. -/
theorem serverArgs_guarded (hne : rest ≠ []) : Guarded (serverArgs p u s rest) := by
  have hh := (plain_option (lit "-h") (by simp [optionWords])).1
  have hn := (plain_writeInt s.port).1
  obtain ⟨a, as, rfl⟩ := List.exists_cons_of_ne_nil hne
  exact ⟨.inl hh, .inr (items_start (a := .bare p) hp.1 _), .inl hp.1, .inl hn, .inl hu.1, .inr (items_start (hr a (by simp)) as),
    guarded_of_plain hr⟩

theorem serverArgs_zero : 0 ∉ render (serverArgs p u s rest) ↔ (0 ∉ s.host ∧ 0 ∉ s.user) ∧ 0 ∉ render rest := by
  have hh := (plain_option (lit "-h") (by simp [optionWords])).2
  have hn := (plain_writeInt s.port).2
  simp only [zero_render, serverArgs, List.forall_mem_cons, Arg.text, hh, hn, hp.2, hu.2, not_false_eq_true, true_and, and_assoc]

end

theorem opening_client : ∀ client ∈ [lit "mysql", lit "psql", lit "mysqldump", lit "pg_dump"],
    Opening [.bare client] [.word client] := by
  have hall : ∀ client ∈ [lit "mysql", lit "psql", lit "mysqldump", lit "pg_dump"],
      isPlainWord client = true ∧ assignment? (chars false client) = none := by decide +kernel
  exact fun client h => opening_word (plainWord_of (hall client h).1) (hall client h).2

theorem opening_password {password : Str} (hq : ch '\'' ∉ password) : ∀ client ∈ [lit "psql", lit "pg_dump"],
    Opening [.single (lit "PGPASSWORD=") password, .bare client] [.assign (lit "PGPASSWORD") password, .word client] := by
  intro client h
  have hall : ∀ client ∈ [lit "psql", lit "pg_dump"], isPlainWord client = true ∧ assignment? (chars false client) = none := by
    decide
  have hname : lit "PGPASSWORD" = ch 'P' :: lit "GPASSWORD" ∧ lit "PGPASSWORD=" = ch 'P' :: lit "GPASSWORD" ++ lit "=" := by
    decide
  have hplain := (plain_option (lit "PGPASSWORD=") (by simp [optionWords])).1
  rw [hname.2] at hplain
  rw [hname.1, hname.2]
  have hchars : ∀ c ∈ ch 'P' :: lit "GPASSWORD", isAlnum c = true ∨ c = ch '_' := by
    intro c hc
    have hword := List.all_eq_true.1 (show (ch 'P' :: lit "GPASSWORD").all isAlnum = true by decide) c hc
    exact .inl hword
  exact opening_assign (by decide) hchars hplain hq (plainWord_of (hall client h).1) (hall client h).2

theorem ending_dup : Ending (lit " 2>&1 2>&1") [dup, dup] where
  literal := List.all_eq_true.1 (by decide)
  begins := ⟨ch '2', lit ">&1 2>&1", by decide, by decide⟩
  reads := by decide
  weight := by decide

theorem ending_batch : Ending (lit " --batch --skip-column-names 2>&1 2>&1")
    [.word (lit "--batch"), .word (lit "--skip-column-names"), dup, dup] where
  literal := List.all_eq_true.1 (by decide)
  begins := ⟨ch '-', lit "-batch --skip-column-names 2>&1 2>&1", by decide +kernel, by decide⟩
  reads := by decide +kernel
  weight := by decide +kernel

theorem popened_eq (line : Str) : popened line = cString (line ++ lit " 2>&1") := rfl

/-! The pieces the lines are written in. -/

theorem lit_clients : lit "mysql -h " = lit "mysql" ++ ch ' ' :: (lit "-h" ++ [ch ' ']) ∧
    lit "mysqldump -h " = lit "mysqldump" ++ ch ' ' :: (lit "-h" ++ [ch ' ']) ∧
    lit "PGPASSWORD='" = lit "PGPASSWORD=" ++ [ch '\''] ∧ lit "' psql" = ch '\'' :: ch ' ' :: lit "psql" ∧
    lit "' pg_dump" = ch '\'' :: ch ' ' :: lit "pg_dump" := by
  decide

theorem lit_flags : lit " -h " = ch ' ' :: (lit "-h" ++ [ch ' ']) ∧ lit " -P " = ch ' ' :: (lit "-P" ++ [ch ' ']) ∧
    lit " -u " = ch ' ' :: (lit "-u" ++ [ch ' ']) ∧ lit " -p " = ch ' ' :: (lit "-p" ++ [ch ' ']) ∧
    lit " -U " = ch ' ' :: (lit "-U" ++ [ch ' ']) ∧ lit " -d " = ch ' ' :: (lit "-d" ++ [ch ' ']) ∧
    lit " -p'" = ch ' ' :: (lit "-p" ++ [ch '\'']) ∧ lit "'" = [ch '\''] ∧ lit " " = [ch ' '] := by
  decide

theorem lit_ends : lit " -e \"" = ch ' ' :: (lit "-e" ++ [ch ' ', ch '"']) ∧
    lit "\" --batch --skip-column-names 2>&1" ++ lit " 2>&1" = ch '"' :: lit " --batch --skip-column-names 2>&1 2>&1" ∧
    lit " -t -A -c \"" = ch ' ' :: (lit "-t" ++ ch ' ' :: (lit "-A" ++ ch ' ' :: (lit "-c" ++ [ch ' ', ch '"']))) ∧
    lit "\" 2>&1" ++ lit " 2>&1" = ch '"' :: lit " 2>&1 2>&1" ∧ lit " 2>&1" ++ lit " 2>&1" = lit " 2>&1 2>&1" ∧
    lit " > " = ch ' ' :: lit "> " := by
  decide +kernel

theorem mysqlCmd_line (cfg : Config) (sql db : Str) : mysqlCmd cfg sql db ++ lit " 2>&1" =
    render ([.bare (lit "mysql")] ++ mysqlBefore cfg.mysql db) ++
      ch '"' :: (sql ++ ch '"' :: lit " --batch --skip-column-names 2>&1 2>&1") := by
  obtain ⟨hmysql, -⟩ := lit_clients
  obtain ⟨-, hP, hu, -, -, -, hp, hquote, hspace⟩ := lit_flags
  obtain ⟨he, htail, -⟩ := lit_ends
  simp only [mysqlCmd, render, mysqlBefore, mysqlArgs, serverArgs, passwordArg, Config.mysql]
  by_cases hpw : cfg.mysqlRootPassword = [] <;> by_cases hdb : db = []
  all_goals
    simp only [hpw, hdb, hmysql, hP, hu, hp, hquote, hspace, he, ne_eq, not_true_eq_false, not_false_eq_true, if_true, if_false,
      List.flatMap_cons, List.flatMap_nil, Arg.text, List.append_assoc, List.cons_append, List.nil_append, htail, List.append_nil]

theorem psqlCmd_line (cfg : Config) (sql db : Str) : psqlCmd cfg sql db ++ lit " 2>&1" =
    render ([.single (lit "PGPASSWORD=") cfg.postgres.password, .bare (lit "psql")] ++ psqlBefore cfg.postgres db) ++
      ch '"' :: (sql ++ ch '"' :: lit " 2>&1 2>&1") := by
  obtain ⟨-, -, hpassword, hpsql, -⟩ := lit_clients
  obtain ⟨hh, -, -, hp, hU, hd, -⟩ := lit_flags
  obtain ⟨-, -, ht, htail, -⟩ := lit_ends
  simp only [psqlCmd, render, psqlBefore, psqlArgs, serverArgs, Config.postgres, hpassword, hpsql, hh, hp, hU, hd, ht,
    List.flatMap_cons, List.flatMap_nil, Arg.text, List.append_assoc, List.cons_append, List.nil_append, htail, List.append_nil]

theorem mysqldumpCmd_line (cfg : Config) (db path : Str) : mysqldumpCmd cfg db path ++ lit " 2>&1" =
    render ([.bare (lit "mysqldump")] ++ mysqlArgs cfg.mysql [.bare db]) ++ (lit "> " ++ path ++ lit " 2>&1 2>&1") := by
  obtain ⟨-, hclient, -⟩ := lit_clients
  obtain ⟨-, hP, hu, -, -, -, hp, hquote, hspace⟩ := lit_flags
  obtain ⟨-, -, -, -, htail, hto⟩ := lit_ends
  simp only [mysqldumpCmd, render, mysqlArgs, serverArgs, passwordArg, Config.mysql]
  by_cases hpw : cfg.mysqlRootPassword = []
  all_goals
    simp only [hpw, hclient, hP, hu, hp, hquote, hspace, hto, ne_eq, not_true_eq_false, not_false_eq_true, if_true, if_false,
      List.flatMap_cons, List.flatMap_nil, Arg.text, List.append_assoc, List.cons_append, List.nil_append, htail, List.append_nil]

theorem pgDumpCmd_line (cfg : Config) (db path : Str) : pgDumpCmd cfg db path ++ lit " 2>&1" =
    render ([.single (lit "PGPASSWORD=") cfg.postgres.password, .bare (lit "pg_dump")] ++ psqlArgs cfg.postgres [.bare db]) ++
      (lit "> " ++ path ++ lit " 2>&1 2>&1") := by
  obtain ⟨-, -, hpassword, -, hclient⟩ := lit_clients
  obtain ⟨hh, -, -, hp, hU, -, -, -, hspace⟩ := lit_flags
  obtain ⟨-, -, -, -, htail, hto⟩ := lit_ends
  simp only [pgDumpCmd, render, psqlArgs, serverArgs, Config.postgres, hpassword, hclient, hh, hp, hU, hspace, hto,
    List.flatMap_cons, List.flatMap_nil, Arg.text, List.append_assoc, List.cons_append, List.nil_append, htail, List.append_nil]

/-! ## When a line is read as it was meant -/

theorem zero_render_append (as bs : List Arg) : 0 ∉ render (as ++ bs) ↔ 0 ∉ render as ∧ 0 ∉ render bs := by
  simp only [render, List.flatMap_append, List.mem_append, not_or]

theorem zero_single {lead : Str} (hl : 0 ∉ lead) (s : Str) : 0 ∉ render [.single lead s] ↔ 0 ∉ s := by
  have hquote : (0 : UInt8) ≠ ch '\'' := by decide
  simp [zero_render, Arg.text, hl, hquote]

theorem zero_plain {as : List Str} (h : ∀ s ∈ as, 0 ∉ s) : 0 ∉ render (as.map .bare) := by
  simpa [zero_render, Arg.text] using h

theorem passwordArg_plain {s : Server} (hs : s.QuoteFree) : ∀ a ∈ passwordArg s, a.Plain := by
  unfold passwordArg
  split
  · intro a ha
    cases List.mem_singleton.1 ha
    exact ⟨(plain_option (lit "-p") (by simp [optionWords])).1, hs.password.1⟩
  · simp

theorem passwordArg_zero (s : Server) : 0 ∉ render (passwordArg s) ↔ 0 ∉ s.password := by
  unfold passwordArg
  split
  · exact zero_single (plain_option (lit "-p") (by simp [optionWords])).2 s.password
  · next h =>
    have hnil : s.password = [] := by simpa using h
    simp [render, hnil]

theorem passwordArg_count (s : Server) : (passwordArg s).countP Arg.isSingle ≤ 1 := by
  unfold passwordArg
  split
  · exact Nat.le_refl 1
  · exact Nat.zero_le 1

/-- Words that are fixed or checked. -/
def Tame (ws : List Str) : Prop := ∀ w ∈ ws, PlainWord w ∧ 0 ∉ w

theorem Tame.plain {ws : List Str} (h : Tame ws) : ∀ a ∈ ws.map Arg.bare, a.Plain := by
  intro a ha
  obtain ⟨w, hw, rfl⟩ := List.mem_map.1 ha
  exact (h w hw).1

theorem Tame.count (ws : List Str) : (ws.map Arg.bare).countP Arg.isSingle = 0 := by
  simp [List.countP_eq_zero, Arg.isSingle]

/-- What is asked of the arguments around the server's: the password is the one text among them that is quoted. -/
structure Frame (s : Server) (lead : List Arg) (opening : List Part) (pw : List Arg) (ws : List Str) : Prop where
  opens : Opening lead opening
  plain : ∀ a ∈ pw, a.Plain
  tame : Tame ws
  ne_nil : ws ≠ []
  count : (lead ++ pw).countP Arg.isSingle ≤ 1
  secret : 0 ∉ render lead ∧ 0 ∉ render pw ↔ 0 ∉ s.password

theorem Server.plain_iff {s : Server} : (PlainWord s.host ∧ PlainWord s.user) ∧ (0 ∉ s.host ∧ 0 ∉ s.user) ∧ 0 ∉ s.password ↔ s.Plain := by
  constructor
  · rintro ⟨⟨h1, h2⟩, ⟨h3, h4⟩, h5⟩
    exact ⟨⟨h1, h3⟩, ⟨h2, h4⟩, h5⟩
  · rintro ⟨⟨h1, h3⟩, ⟨h2, h4⟩, h5⟩
    exact ⟨⟨h1, h2⟩, ⟨h3, h4⟩, h5⟩

section
variable {s : Server} {lead pw : List Arg} {opening ending : List Part} {ws : List Str} {p u tail : Str}
variable (hf : Frame s lead opening pw ws) (hs : s.QuoteFree) (hp : PlainWord p ∧ 0 ∉ p) (hu : PlainWord u ∧ 0 ∉ u)
variable (he : Ending tail ending) (ht : 0 ∉ tail ∧ 4 ≤ weight tail)
include hf

theorem Frame.rest : ∀ a ∈ pw ++ ws.map .bare, a.Plain := by
  intro a ha
  rcases List.mem_append.1 ha with ha | ha
  · exact hf.plain a ha
  · exact hf.tame.plain a ha

theorem Frame.single : (lead ++ serverArgs p u s (pw ++ ws.map .bare)).countP Arg.isSingle ≤ 1 := by
  have hcount := hf.count
  have hws := Tame.count ws
  simp only [serverArgs, List.countP_append, List.countP_cons, Arg.isSingle, hws] at hcount ⊢
  simpa using hcount

include hp hu in
theorem Frame.zero : 0 ∉ render (lead ++ serverArgs p u s (pw ++ ws.map .bare)) ↔
    (0 ∉ s.host ∧ 0 ∉ s.user) ∧ 0 ∉ s.password := by
  have hws := zero_plain fun w hw => (hf.tame w hw).2
  rw [zero_render_append, serverArgs_zero hp hu, zero_render_append, ← hf.secret]
  tauto

include hs hp hu he ht

theorem statement_line_iff {sql : Str} (hl : sql.getLast? ≠ some (ch '\\')) :
    command (cString (render (lead ++ serverArgs p u s (pw ++ ws.map .bare)) ++ ch '"' :: (sql ++ ch '"' :: tail))) =
        some (opening ++ (argv (serverArgs p u s (pw ++ ws.map .bare)) ++ .word sql :: ending)) ↔
      s.Plain ∧ Inert sql ∧ 0 ∉ sql := by
  have hne : pw ++ ws.map Arg.bare ≠ [] := by simp [hf.ne_nil]
  rw [argv, quoted_cString_iff hf.opens he hl (serverArgs_quoteFree hp hu hf.rest hs) (serverArgs_guarded hp hu hf.rest hne)
    hf.single ht, hf.zero hp hu, serverArgs_plain hp hu hf.rest, ← Server.plain_iff]
  tauto

theorem dump_line_iff {path : Str} :
    command (cString (render (lead ++ serverArgs p u s (pw ++ ws.map .bare)) ++ (lit "> " ++ path ++ tail))) =
        some (opening ++ (argv (serverArgs p u s (pw ++ ws.map .bare)) ++ .redirect [] (lit ">") path :: ending)) ↔
      s.Plain ∧ FileWord path ∧ 0 ∉ path := by
  have hne : pw ++ ws.map Arg.bare ≠ [] := by simp [hf.ne_nil]
  rw [argv, redirected_cString_iff hf.opens he (serverArgs_quoteFree hp hu hf.rest hs) (serverArgs_guarded hp hu hf.rest hne)
    hf.single ht, hf.zero hp hu, serverArgs_plain hp hu hf.rest, ← Server.plain_iff]
  tauto

end

theorem frame_mysql {s : Server} (hs : s.QuoteFree) {client : Str} (hc : client = lit "mysql" ∨ client = lit "mysqldump")
    {ws : List Str} (hws : Tame ws) (hne : ws ≠ []) : Frame s [.bare client] [.word client] (passwordArg s) ws where
  opens := opening_client client (by simp; tauto)
  plain := passwordArg_plain hs
  tame := hws
  ne_nil := hne
  count := by
    have hcount := passwordArg_count s
    rw [List.countP_append]
    simpa [Arg.isSingle] using hcount
  secret := by
    have hclient : 0 ∉ client := (plain_option client (by rcases hc with rfl | rfl <;> simp [optionWords])).2
    rw [passwordArg_zero]
    simp [zero_render, Arg.text, hclient]

theorem frame_postgres {s : Server} (hs : s.QuoteFree) {client : Str} (hc : client = lit "psql" ∨ client = lit "pg_dump")
    {ws : List Str} (hws : Tame ws) (hne : ws ≠ []) :
    Frame s [.single (lit "PGPASSWORD=") s.password, .bare client] [.assign (lit "PGPASSWORD") s.password, .word client] [] ws where
  opens := opening_password hs.password.1 client (by simp [hc])
  plain := by simp
  tame := hws
  ne_nil := hne
  count := Nat.le_refl 1
  secret := by
    have hclient : 0 ∉ client := (plain_option client (by rcases hc with rfl | rfl <;> simp [optionWords])).2
    have hname := zero_single (plain_option (lit "PGPASSWORD=") (by simp [optionWords])).2 s.password
    have hsplit := zero_render_append [.single (lit "PGPASSWORD=") s.password] [.bare client]
    rw [hname] at hsplit
    rw [← List.singleton_append, hsplit]
    simp [zero_render, Arg.text, hclient]

theorem tail_zero : (0 ∉ lit " 2>&1 2>&1" ∧ 4 ≤ weight (lit " 2>&1 2>&1")) ∧
    0 ∉ lit " --batch --skip-column-names 2>&1 2>&1" ∧ 4 ≤ weight (lit " --batch --skip-column-names 2>&1 2>&1") := by
  decide +kernel

theorem mysqlCmd_iff {cfg : Config} (hs : cfg.mysql.QuoteFree) {sql db : Str} (hl : sql.getLast? ≠ some (ch '\\'))
    (hdb : db = [] ∨ validName db = true) :
    command (popened (mysqlCmd cfg sql db)) = some (mysqlCall cfg.mysql sql db) ↔ cfg.mysql.Plain ∧ Inert sql ∧ 0 ∉ sql := by
  have hP := plain_option (lit "-P") (by simp [optionWords])
  have hu := plain_option (lit "-u") (by simp [optionWords])
  have he := plain_option (lit "-e") (by simp [optionWords])
  have hws : ∃ ws, (if db ≠ [] then [Arg.bare db] else []) ++ [Arg.bare (lit "-e")] = ws.map .bare ∧ Tame ws ∧ ws ≠ [] := by
    split
    · next hne =>
      refine ⟨[db, lit "-e"], rfl, ?_, by simp⟩
      simp only [Tame, List.mem_cons, List.not_mem_nil, or_false]
      rintro w (rfl | rfl)
      · exact plain_name (hdb.resolve_left hne)
      · exact he
    · refine ⟨[lit "-e"], rfl, ?_, by simp⟩
      intro w hw
      cases List.mem_singleton.1 hw
      exact he
  obtain ⟨ws, hws, htame, hne⟩ := hws
  rw [popened_eq, mysqlCmd_line, mysqlCall, mysqlBefore, mysqlArgs, hws]
  exact statement_line_iff (frame_mysql hs (.inl rfl) htame hne) hs hP hu ending_batch tail_zero.2 hl

theorem psqlCmd_iff {cfg : Config} (hs : cfg.postgres.QuoteFree) {sql db : Str} (hl : sql.getLast? ≠ some (ch '\\'))
    (hdb : validName db = true) :
    command (popened (psqlCmd cfg sql db)) = some (psqlCall cfg.postgres sql db) ↔ cfg.postgres.Plain ∧ Inert sql ∧ 0 ∉ sql := by
  have hp := plain_option (lit "-p") (by simp [optionWords])
  have hU := plain_option (lit "-U") (by simp [optionWords])
  have htame : Tame [lit "-d", db, lit "-t", lit "-A", lit "-c"] := by
    simp only [Tame, List.mem_cons, List.not_mem_nil, or_false]
    rintro w (rfl | rfl | rfl | rfl | rfl)
    · exact plain_option _ (by simp [optionWords])
    · exact plain_name hdb
    all_goals exact plain_option _ (by simp [optionWords])
  rw [popened_eq, psqlCmd_line, psqlCall, psqlBefore, psqlArgs]
  exact statement_line_iff (frame_postgres hs (.inl rfl) htame (by simp)) hs hp hU ending_dup tail_zero.1 hl

theorem mysqldumpCmd_iff {cfg : Config} (hs : cfg.mysql.QuoteFree) {db path : Str} (hdb : validName db = true) :
    command (popened (mysqldumpCmd cfg db path)) = some (mysqldumpCall cfg.mysql db path) ↔
      cfg.mysql.Plain ∧ FileWord path ∧ 0 ∉ path := by
  have hP := plain_option (lit "-P") (by simp [optionWords])
  have hu := plain_option (lit "-u") (by simp [optionWords])
  have htame : Tame [db] := by
    intro w hw
    cases List.mem_singleton.1 hw
    exact plain_name hdb
  rw [popened_eq, mysqldumpCmd_line, mysqldumpCall, mysqlArgs]
  exact dump_line_iff (frame_mysql hs (.inr rfl) htame (by simp)) hs hP hu ending_dup tail_zero.1

theorem pgDumpCmd_iff {cfg : Config} (hs : cfg.postgres.QuoteFree) {db path : Str} (hdb : validName db = true) :
    command (popened (pgDumpCmd cfg db path)) = some (pgDumpCall cfg.postgres db path) ↔
      cfg.postgres.Plain ∧ FileWord path ∧ 0 ∉ path := by
  have hp := plain_option (lit "-p") (by simp [optionWords])
  have hU := plain_option (lit "-U") (by simp [optionWords])
  have htame : Tame [db] := by
    intro w hw
    cases List.mem_singleton.1 hw
    exact plain_name hdb
  rw [popened_eq, pgDumpCmd_line, pgDumpCall, psqlArgs]
  exact dump_line_iff (frame_postgres hs (.inr rfl) htame (by simp)) hs hp hU ending_dup tail_zero.1

end McpBridge.Tools.Database
