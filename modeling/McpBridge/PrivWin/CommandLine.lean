import McpBridge.Lib.Argv
/-!
# Command lines of system tools (`priv_win/operations.cpp`)

`run_system_tool` puts every argument between quotes and a backslash before each
quote in it. The backslashes that already stood before a quote, or at the end
and so before the closing quote, it leaves alone: those arguments are read as
others. `commandLine_iff` says that nothing else goes wrong.
-/

open McpBridge.Lib

namespace McpBridge.PrivWin

/-- Strings of `wchar_t`. -/
abbrev WStr := List UInt16

def wch (c : Char) : UInt16 := c.toNat.toUInt16

def wlit (s : String) : WStr := s.toList.map wch

/-- The loop over the characters of an argument. -/
def appendArg (cmd : WStr) : WStr → WStr
  | [] => cmd
  | c :: a => if c = wch '"' then appendArg (cmd ++ wlit "\\\"") a else appendArg (cmd ++ [c]) a

/-- The loop over the arguments. -/
def appendArgs (cmd : WStr) : List WStr → WStr
  | [] => cmd
  | a :: args => appendArgs (appendArg (cmd ++ wlit " \"") a ++ wlit "\"") args

/-- The command line that `run_system_tool` builds. -/
def commandLine (exe : WStr) (args : List WStr) : WStr := appendArgs (wlit "\"" ++ exe ++ wlit "\"") args

/-- The characters that `CommandLineToArgvW` looks for. -/
def argvChars : ArgvChars UInt16 where
  backslash := wch '\\'
  quote := wch '"'
  blank c := c = wch ' ' || c = wch '\t'
  quote_ne := by decide
  blank_backslash := by decide
  blank_quote := by decide

def commandLineToArgv (line : WStr) : List WStr := argvChars.argv line

theorem appendArg_eq (a cmd : WStr) : appendArg cmd a = cmd ++ argvChars.escape a := by
  induction a generalizing cmd with
  | nil => exact (List.append_nil cmd).symm
  | cons c a ih =>
    rw [appendArg]
    split
    · next h =>
      subst h
      rw [ih, List.append_assoc]
      rfl
    · next h =>
      have hescape : argvChars.escape (c :: a) = [c] ++ argvChars.escape a := by
        simp [ArgvChars.escape, argvChars, h]
      rw [ih, List.append_assoc, hescape]

theorem appendArgs_eq (args : List WStr) (cmd : WStr) : appendArgs cmd args = cmd ++ argvChars.quoteArgs (wch ' ') args := by
  induction args generalizing cmd with
  | nil => exact (List.append_nil cmd).symm
  | cons a args ih =>
    rw [appendArgs, ih, appendArg_eq]
    simp [ArgvChars.quoteArgs, wlit, argvChars]

/-- No backslash stands before a quote or at the end of the argument. -/
def Quotable (a : WStr) : Prop := a.getLast? ≠ some (wch '\\') ∧ ¬ [wch '\\', wch '"'] <:+: a

instance (a : WStr) : Decidable (Quotable a) := inferInstanceAs (Decidable (_ ∧ _))

/-- The command line is read as the program and its arguments iff no argument
has a backslash before a quote or at its end. -/
theorem commandLine_iff (exe : WStr) (args : List WStr) (hquote : wch '"' ∉ exe) (hbackslash : wch '\\' ∉ exe) :
    commandLineToArgv (commandLine exe args) = exe :: args ↔ ∀ a ∈ args, Quotable a := by
  have hescape : argvChars.escape exe = exe := by
    unfold ArgvChars.escape
    have hone : ∀ c ∈ exe, (if c = wch '"' then [wch '\\', wch '"'] else [c]) = [c] := by
      intro c hc
      apply if_neg
      rintro rfl
      exact hquote hc
    exact (List.flatMap_congr hone).trans (List.flatMap_singleton' exe)
  have hexe : argvChars.Plain exe := by
    refine ⟨fun h => hbackslash (List.mem_of_getLast? h), fun h => hbackslash (h.subset ?_)⟩
    exact List.mem_cons_self
  have hline : commandLine exe args =
      argvChars.quote :: (argvChars.escape exe ++ argvChars.quote :: argvChars.quoteArgs (wch ' ') args) := by
    rw [commandLine, appendArgs_eq, hescape]
    simp [wlit, argvChars]
  rw [hline, commandLineToArgv, argvChars.argv_quoteArgs_iff (by decide)]
  exact and_iff_right hexe

/-- A path with a space and a name in quotes. -/
theorem commandLine_iff_task :
    commandLineToArgv (commandLine (wlit "schtasks.exe") [wlit "/TR", wlit "powershell -File \"C:\\a b\\run.ps1\" 0f"]) =
      [wlit "schtasks.exe", wlit "/TR", wlit "powershell -File \"C:\\a b\\run.ps1\" 0f"] :=
  (commandLine_iff (wlit "schtasks.exe") _ (by decide) (by decide)).2 (by decide)

/-- A directory that ends in a backslash takes the next argument with it, and a
backslash before a quote lets the quote end the argument. -/
theorem arguments_run_together :
    wch '"' ∉ wlit "schtasks.exe" ∧ wch '\\' ∉ wlit "schtasks.exe" ∧
    commandLineToArgv (commandLine (wlit "schtasks.exe") [wlit "C:\\dir\\", wlit "/F"]) =
      [wlit "schtasks.exe", wlit "C:\\dir\" /F"] ∧
    commandLineToArgv (commandLine (wlit "schtasks.exe") [wlit "a\\\" /RU SYSTEM"]) =
      [wlit "schtasks.exe", wlit "a\\", wlit "/RU", wlit "SYSTEM"] := by
  decide

end McpBridge.PrivWin
