import McpBridge.Lib.StdFilesystem
import McpBridge.Core.Common
/-!
# The file tools (`tools/data/file_ops.cpp`)

The tools that change files, as programs of the daemon's process. A handler gets
the context of the request and does not look at it: what a tool may touch is what
the daemon may touch, under `allowed_root`.
-/

open McpBridge.Lib McpBridge.Core

namespace McpBridge.Tools

open FileProg

variable {p : Process}

/-- A path argument; the system calls read it up to the first NUL. -/
def toPath (s : Str) : PathStr := .parse (s.takeWhile (· ≠ 0))

/-- The canonical path begins with the canonical root. Whatever is thrown on the way is a no. -/
def isPathAllowed (allowedRoot path : Str) : FileProg p Bool := do
  match ← attempt (do
    let canonical ← weaklyCanonical (toPath path)
    let root ← weaklyCanonical (toPath allowedRoot)
    pure (root.render.isPrefixOf canonical.render)) with
  | .ok allowed => pure allowed
  | .error _ => pure false

/-! ## Arguments -/

def fromJson {α : Type} (r : Except JsonError α) : FileProg p α := ofExcept (r.mapError .json)

/-- An argument that has to be there, as a string. -/
def argStr (args : Json) (key : String) : FileProg p Str := fromJson do (← args.at_ (lit key)).asStr

/-- A flag. -/
def argFlag (args : Json) (key : String) (dflt : Bool) : FileProg p Bool := fromJson (args.value Json.asBool (lit key) dflt)

def pathNotAllowed : Thrown := .runtime (lit "Path not allowed")

def isOctal (c : UInt8) : Bool := ch '0' ≤ c && c ≤ ch '7'

/-- `std::stoul(s, nullptr, 8)`, for 64 bits. -/
def stoulOctal (s : Str) : Except Thrown Nat :=
  let s := s.dropWhile fun c => c = ch ' ' || (9 ≤ c && c ≤ 13)
  let negative := s.head? = some (ch '-')
  let s := if negative || s.head? = some (ch '+') then s.tail else s
  let digits := s.takeWhile isOctal
  if digits = [] then .error .invalidArgument
  else
    let v := digits.foldl (fun n c => 8 * n + (c.toNat - 48)) 0
    if 18446744073709551616 ≤ v then .error .outOfRange
    else .ok (if negative then (18446744073709551616 - v) % 18446744073709551616 else v)

/-! ## The tools -/

inductive FileTool where
  | writeFile
  | deleteFile
  | moveFile
  | copyFile
  | setPermissions
  | createDirectory
deriving DecidableEq

def FileTool.required : FileTool → List String
  | writeFile => ["path", "content"]
  | deleteFile => ["path"]
  | moveFile => ["source", "destination"]
  | copyFile => ["source", "destination"]
  | setPermissions => ["path", "mode"]
  | createDirectory => ["path"]

section
variable (allowedRoot : Str) (args : Json)

/-- The content is read once the file is open, so an argument that is no string leaves an empty file. -/
def writeFile : FileProg p Json := do
  let path ← argStr args "path"
  if !(← isPathAllowed allowedRoot path) then throw pathNotAllowed
  else
    if ← argFlag args "create_dirs" false then
      let _ ← createDirectories (toPath path).parentPath
    match ← attempt (sys (.creat (toPath path) 0o666)) with
    | .error _ => throw (.runtime (lit "Cannot write to: " ++ path))
    | .ok () =>
      let (q, _) ← stat true (toPath path)
      sys (.write q (← argStr args "content"))
      pure (.ofFields [(lit "path", .str path), (lit "written", .bool true)])

def deleteFile : FileProg p Json := do
  let path ← argStr args "path"
  if !(← isPathAllowed allowedRoot path) then throw pathNotAllowed
  else
    let removed : Nat ←
      if ← argFlag args "recursive" false then removeAll (toPath path)
      else do pure (if ← remove (toPath path) then 1 else 0)
    pure (.ofFields [(lit "path", .str path), (lit "removed", .int removed)])

def moveFile : FileProg p Json := do
  let src ← argStr args "source"
  let dst ← argStr args "destination"
  if !(← isPathAllowed allowedRoot src) || !(← isPathAllowed allowedRoot dst) then throw pathNotAllowed
  else
    rename (toPath src) (toPath dst)
    pure (.ofFields [(lit "source", .str src), (lit "destination", .str dst), (lit "moved", .bool true)])

def copyFile : FileProg p Json := do
  let src ← argStr args "source"
  let dst ← argStr args "destination"
  if !(← isPathAllowed allowedRoot src) || !(← isPathAllowed allowedRoot dst) then throw pathNotAllowed
  else
    let recursive ← argFlag args "recursive" false
    let whole ← if recursive then pure true else do pure ((← status (toPath src)) = .directory)
    if whole then copy (toPath src) (toPath dst) else FileProg.copyFile (toPath src) (toPath dst)
    pure (.ofFields [(lit "source", .str src), (lit "destination", .str dst), (lit "copied", .bool true)])

def setPermissions : FileProg p Json := do
  let path ← argStr args "path"
  if !(← isPathAllowed allowedRoot path) then throw pathNotAllowed
  else
    let mode ← argStr args "mode"
    let modeVal ← ofExcept (stoulOctal mode)
    let perms := BitVec.ofNat 12 modeVal
    permissions (toPath path) perms
    if ← argFlag args "recursive" false then
      if (← status (toPath path)) = .directory then
        permissionsFrom perms (← look fun fs => .ok (fs.entries.length + 1)) (toPath path)
    pure (.ofFields [(lit "path", .str path), (lit "mode", .str mode), (lit "set", .bool true)])

def createDirectory : FileProg p Json := do
  let path ← argStr args "path"
  if !(← isPathAllowed allowedRoot path) then throw pathNotAllowed
  else
    let created ←
      if ← argFlag args "recursive" true then createDirectories (toPath path)
      else FileProg.createDirectory (toPath path)
    pure (.ofFields [(lit "path", .str path), (lit "created", .bool created)])

/-- The handler of a tool. -/
def FileTool.handler (tool : FileTool) (_ : RequestContext) : FileProg p Json :=
  match tool with
  | writeFile => Tools.writeFile allowedRoot args
  | deleteFile => Tools.deleteFile allowedRoot args
  | moveFile => Tools.moveFile allowedRoot args
  | copyFile => Tools.copyFile allowedRoot args
  | setPermissions => Tools.setPermissions allowedRoot args
  | createDirectory => Tools.createDirectory allowedRoot args

end

/-- A call of a tool, as it reaches the registry. -/
structure ToolCall where
  tool : FileTool
  ctx : RequestContext
  args : Json

def ToolCall.exec (allowedRoot : Str) (c : ToolCall) : FileProg p Json :=
  match c.tool.required.find? fun a => !c.args.contains (lit a) with
  | some a => throw (.runtime (lit "missing required argument: " ++ lit a))
  | none => c.tool.handler allowedRoot c.args c.ctx

end McpBridge.Tools
