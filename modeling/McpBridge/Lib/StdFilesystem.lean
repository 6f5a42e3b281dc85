import McpBridge.Lib.FileSystem
import McpBridge.Lib.Runs
/-!
# Programs over a file system

`FileProg` is a program of one process: what it returns or throws, the tree it
leaves, and the system calls it made. Each program carries the proof that the
tree is what these calls make of the one before, so that what holds of every
system call holds of every program.

The second half are the functions of `std::filesystem`, as the GNU library
implements them.
-/

namespace McpBridge.Lib

/-- What a program throws. -/
inductive Thrown where
  | runtime (what : Str)
  | filesystem (e : Errno)
  | json (e : JsonError)
  | invalidArgument
  | outOfRange
deriving DecidableEq

structure Ran (α : Type) where
  result : Except Thrown α
  fs : Fs
  calls : List SysCall

/-- A system call as an event; it can always be made. -/
def sysStep (p : Process) (fs : Fs) (c : SysCall) : Option Fs := some (sysNext p fs c)

structure FileProg (p : Process) (α : Type) where
  exec : Fs → Ran α
  faithful : ∀ fs, run (sysStep p) fs (exec fs).calls = some (exec fs).fs

namespace FileProg

variable {p : Process} {α β : Type}

/-- The rest runs on the tree the first part leaves, unless that throws. -/
def andThen (r : Ran α) (f : α → Fs → Ran β) : Ran β :=
  match r.result with
  | .error e => ⟨.error e, r.fs, r.calls⟩
  | .ok a => ⟨(f a r.fs).result, (f a r.fs).fs, r.calls ++ (f a r.fs).calls⟩

theorem run_andThen {fs : Fs} {r : Ran α} (f : α → FileProg p β) (h : run (sysStep p) fs r.calls = some r.fs) :
    run (sysStep p) fs (andThen r fun a => (f a).exec).calls = some (andThen r fun a => (f a).exec).fs := by
  unfold andThen
  split
  · exact h
  · next a _ =>
    rw [run_append, h]
    exact (f a).faithful r.fs

instance : Monad (FileProg p) where
  pure a := ⟨fun fs => ⟨.ok a, fs, []⟩, fun _ => rfl⟩
  bind m f := ⟨fun fs => andThen (m.exec fs) fun a => (f a).exec, fun fs => run_andThen f (m.faithful fs)⟩

def throw (e : Thrown) : FileProg p α := ⟨fun fs => ⟨.error e, fs, []⟩, fun _ => rfl⟩

/-- Looks at the tree. -/
def look (f : Fs → Except Thrown α) : FileProg p α := ⟨fun fs => ⟨f fs, fs, []⟩, fun _ => rfl⟩

/-- The result, or what was thrown. -/
def attempt (m : FileProg p α) : FileProg p (Except Thrown α) :=
  ⟨fun fs => ⟨.ok (m.exec fs).result, (m.exec fs).fs, (m.exec fs).calls⟩, fun fs => m.faithful fs⟩

def ofExcept (r : Except Thrown α) : FileProg p α := look fun _ => r

def sys (c : SysCall) : FileProg p Unit where
  exec fs := ⟨(sysExec p fs c).map (fun _ => ()) |>.mapError .filesystem, sysNext p fs c, [c]⟩
  faithful _ := rfl

end FileProg

/-! ## Paths -/

namespace PathStr

/-- `path / name`. -/
def child (path : PathStr) (name : Str) : PathStr := ⟨path.absolute, path.names ++ [name], false⟩

/-- What `parent_path()` gives: the path up to its last slash. -/
def parentPath (path : PathStr) : PathStr :=
  if path.trailing then ⟨path.absolute, path.names, false⟩ else ⟨path.absolute, path.names.dropLast, false⟩

def isEmpty (path : PathStr) : Bool := path.names = [] && !path.absolute

/-- One name of a path in normal form so far. -/
def normalStep (absolute : Bool) (acc : List Str) (c : Str) : List Str :=
  if c = dot then acc
  else if c = dotdot then
    if acc = [] then (if absolute then [] else [dotdot])
    else if acc.getLast? = some dotdot then acc ++ [dotdot]
    else acc.dropLast
  else acc ++ [c]

/-- `lexically_normal()`. -/
def lexicallyNormal (path : PathStr) : PathStr :=
  let names := path.names.foldl (normalStep path.absolute) []
  ⟨path.absolute, names, names ≠ [] && names.getLast? ≠ some dotdot && (path.trailing || path.endsInDots)⟩

/-- `string()`. -/
def render (path : PathStr) : Str :=
  (if path.absolute then [slash] else []) ++ (path.names.intersperse [slash]).flatten ++
    (if path.trailing then [slash] else [])

end PathStr

/-! ## `std::filesystem` -/

inductive FileType where
  | notFound
  | regular
  | directory
  | symlink
deriving DecidableEq

def Node.type : Node → FileType
  | file _ _ => .regular
  | dir _ => .directory
  | link _ _ => .symlink

namespace FileProg

variable {p : Process}

/-- The node a path leads to, and where it is. -/
def stat (follow : Bool) (path : PathStr) : FileProg p (AbsPath × Node) :=
  look fun fs =>
    match (p.locate follow fs path).2 with
    | .error e => .error (.filesystem e)
    | .ok q =>
      match fs.lookup q with
      | none => .error (.filesystem .noent)
      | some n => .ok (q, n)

/-- Where the path leads, or nothing where there is nothing. -/
def statOrNone (follow : Bool) (path : PathStr) : FileProg p (Option (AbsPath × Node)) := do
  match ← attempt (stat follow path) with
  | .ok r => pure (some r)
  | .error (.filesystem .noent) => pure none
  | .error (.filesystem .notdir) => pure none
  | .error e => throw e

def status (path : PathStr) : FileProg p FileType := do
  match ← statOrNone true path with
  | none => pure .notFound
  | some (_, n) => pure n.type

/-- The names in a directory, where it may be read; `.` and `..` are passed over. -/
def readDir (path : PathStr) : FileProg p (List Str) := do
  let (q, n) ← stat true path
  match n with
  | .dir a =>
    if p.may .read a then look fun fs => .ok ((children fs q).filter fun c => decide (Plain c)) else throw (.filesystem .acces)
  | _ => throw (.filesystem .notdir)

def canonical (path : PathStr) : FileProg p PathStr := do
  let (q, _) ← stat true path
  pure ⟨true, q, false⟩

/-- The longest part of the path that exists, and the names after it. -/
def existingPrefix (absolute : Bool) : List Str → List Str → FileProg p (List Str × List Str)
  | found, [] => pure (found, [])
  | found, c :: rest => do
    if (← status ⟨absolute, found ++ [c], false⟩) ≠ .notFound then existingPrefix absolute (found ++ [c]) rest
    else pure (found, c :: rest)

def weaklyCanonical (path : PathStr) : FileProg p PathStr := do
  if (← status path) ≠ .notFound then canonical path
  else
    let (found, rest) ← existingPrefix path.absolute [] path.names
    if found = [] ∧ path.absolute = false then pure (PathStr.lexicallyNormal ⟨false, rest, path.trailing⟩)
    else
      let base ← canonical ⟨path.absolute, found, false⟩
      pure (PathStr.lexicallyNormal ⟨true, base.names ++ rest, path.trailing⟩)

/-- `mkdir`; a directory that is there already is no error. -/
def createDirectoryAs (path : PathStr) (mode : BitVec 12) : FileProg p Bool := do
  match ← attempt (sys (.mkdir path mode)) with
  | .ok () => pure true
  | .error (.filesystem .exist) =>
    match ← attempt (status path) with
    | .ok .directory => pure false
    | _ => throw (.filesystem .exist)
  | .error e => throw e

def createDirectory (path : PathStr) : FileProg p Bool := createDirectoryAs path 0o777

/-- The directories to make for a path, given by its names from the last one on; the outermost comes first. -/
def missingDirs (absolute : Bool) : List Str → FileProg p (List PathStr)
  | [] => pure []
  | c :: above => do
    let self := if c = dot ∨ c = dotdot then [] else [⟨absolute, (c :: above).reverse, false⟩]
    if above = [] ∧ absolute = false then pure self
    else match ← status ⟨absolute, above.reverse, false⟩ with
      | .notFound => do pure ((← missingDirs absolute above) ++ self)
      | .directory => pure self
      | _ => throw (.filesystem .notdir)

def createEach : List PathStr → FileProg p Bool
  | [] => pure false
  | [path] => createDirectory path
  | path :: rest => do
    let _ ← createDirectory path
    createEach rest

def createDirectories (path : PathStr) : FileProg p Bool := do
  if path.isEmpty then throw (.filesystem .inval)
  else match ← status path with
    | .directory => pure false
    | .notFound => do createEach (← missingDirs path.absolute path.names.reverse)
    | _ => throw (.filesystem .notdir)

/-- Removes a file or an empty directory; whether there was one. -/
def remove (path : PathStr) : FileProg p Bool := do
  match ← attempt (sys (.remove path)) with
  | .ok () => pure true
  | .error (.filesystem .noent) => pure false
  | .error e => throw e

/-- Removes a tree, the inner nodes first, and counts them. A link is removed and not followed. -/
def removeAllFrom : Nat → PathStr → FileProg p Nat
  | 0, _ => throw (.filesystem .nametoolong)
  | depth + 1, path => do
    match ← attempt (stat false path) with
    | .error (.filesystem .noent) => pure 0
    | .ok (_, .dir _) => do
      let removed ← (← readDir path).foldlM (fun n c => do pure (n + (← removeAllFrom depth (path.child c)))) 0
      pure (removed + if ← remove path then 1 else 0)
    | _ => do pure (if ← remove path then 1 else 0)

/-- No tree is deeper than it has nodes. -/
def removeAll (path : PathStr) : FileProg p Nat := do
  removeAllFrom (← look fun fs => .ok (fs.entries.length + 1)) path

def rename (src dst : PathStr) : FileProg p Unit := sys (.rename src dst)

def permissions (path : PathStr) (mode : BitVec 12) : FileProg p Unit := sys (.chmod path mode)

/-- `copy_file` with `overwrite_existing`. The copy gets the mode of the source before its content. -/
def copyFile (src dst : PathStr) : FileProg p Unit := do
  let (q, n) ← stat true src
  match n with
  | .file a content =>
    match ← statOrNone true dst with
    | some (_, .dir _) => throw (.filesystem .notsup)
    | some (r, _) => if r = q then throw (.filesystem .exist) else overwrite a content
    | none => overwrite a content
  | _ => throw (.filesystem .notsup)
where
  overwrite (a : Attr) (content : Str) : FileProg p Unit := do
    if !p.may .read a then throw (.filesystem .acces)
    else
      sys (.creat dst 0o200)
      let (r, _) ← stat true dst
      sys (.fchmod r a.mode)
      sys (.write r content)

/-- `copy` with `recursive` and `overwrite_existing`. Links are followed. -/
def copyFrom : Nat → PathStr → PathStr → FileProg p Unit
  | 0, _, _ => throw (.filesystem .nametoolong)
  | depth + 1, src, dst => do
    let (q, n) ← stat true src
    let there ← statOrNone true dst
    if there.map (·.1) = some q then throw (.filesystem .exist)
    else match n, there.map fun t => t.2.type with
      | .dir _, some FileType.regular => throw (.filesystem .isdir)
      | .dir a, t => do
        let entered ← match t with
          | none => createDirectoryAs dst a.mode
          | some _ => pure true
        if entered then (← readDir src).forM fun c => copyFrom depth (src.child c) (dst.child c)
      | .file _ _, some FileType.directory => copyFile src (dst.child (src.names.getLast?.getD []))
      | _, _ => copyFile src dst

/-- A path has at most 4095 bytes, so no copy goes deeper than this. -/
def copy (src dst : PathStr) : FileProg p Unit := copyFrom 2048 src dst

/-- Sets the mode of everything in a directory. Directories are entered, links to them are not; the mode
of a link is that of what it leads to. -/
def permissionsFrom (mode : BitVec 12) : Nat → PathStr → FileProg p Unit
  | 0, _ => throw (.filesystem .nametoolong)
  | depth + 1, path => do
    (← readDir path).forM fun c => do
      permissions (path.child c) mode
      match ← stat false (path.child c) with
      | (_, .dir _) => permissionsFrom mode depth (path.child c)
      | _ => pure ()

end FileProg

end McpBridge.Lib
