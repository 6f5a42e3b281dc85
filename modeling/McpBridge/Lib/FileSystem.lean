import McpBridge.Lib.Map
import McpBridge.Lib.Json
/-!
# A POSIX file system

Files, directories and symbolic links with an owner, a group and a mode. A node
stands under the names that lead to it from the root, so a path without links
is a key. `Process.locate` resolves a path as the kernel does, following links
and checking search permission; it also says which keys it looked at, and
`locate_congr` is that nothing else matters.

Everything that changes the tree is a `SysCall`. `SysCall.touches` are the keys
a call names, and `sysExec_frame` says that no other key changes.
-/

namespace McpBridge.Lib

/-! ## Permissions -/

/-- An account, and the groups its processes are in. -/
structure Account where
  uid : Nat
  gid : Nat
  groups : List Nat := []

structure Attr where
  owner : Nat
  group : Nat
  mode : BitVec 12
deriving DecidableEq

inductive Access where
  | search
  | write
  | read

/-- The bit of the right among the three of a class. -/
def Access.bit : Access → Nat
  | search => 0
  | write => 1
  | read => 2

/-- The first class that fits decides: the owner, the group, the others. Root may do anything. -/
def Account.may (who : Account) (right : Access) (a : Attr) : Bool :=
  who.uid = 0 ||
    (if who.uid = a.owner then a.mode.getLsbD (6 + right.bit)
      else if a.group = who.gid || who.groups.contains a.group then a.mode.getLsbD (3 + right.bit)
      else a.mode.getLsbD right.bit)

/-- A process: its account, the mode bits it takes away, and its directory. -/
structure Process extends Account where
  umask : BitVec 12
  cwd : List Str

/-- What a file or directory the process makes looks like. -/
def Process.attr (p : Process) (mode : BitVec 12) : Attr := ⟨p.uid, p.gid, mode &&& ~~~p.umask⟩

/-- A file made with mode 0600 is closed to every account but its owner and root. -/
theorem not_may_of_private {who : Account} (p : Process) (right : Access) {mode : BitVec 12}
    (hmode : mode &&& 0o77#12 = 0#12) (hroot : who.uid ≠ 0) (howner : who.uid ≠ p.uid) :
    who.may right (p.attr mode) = false := by
  have hbit : ∀ i < 6, (mode &&& ~~~p.umask).getLsbD i = false := by
    intro i hi
    have h77 : ∀ j < 6, (0o77#12).getLsbD j = true := by decide
    have hoff := congrArg (·.getLsbD i) hmode
    simp only [BitVec.getLsbD_and, h77 i hi, Bool.and_true, BitVec.getLsbD_zero] at hoff
    rw [BitVec.getLsbD_and, hoff, Bool.false_and]
  have hlow : right.bit < 3 := by cases right <;> decide
  simp [Account.may, Process.attr, hroot, howner, hbit (3 + right.bit) (by omega), hbit right.bit (by omega)]

/-! ## The tree -/

/-- The names from the root down. -/
abbrev AbsPath := List Str

inductive Node where
  | file (attr : Attr) (content : Str)
  | dir (attr : Attr)
  | link (attr : Attr) (target : Str)
deriving DecidableEq

def Node.attr : Node → Attr
  | file a _ => a
  | dir a => a
  | link a _ => a

abbrev Fs := Map AbsPath Node

inductive Errno where
  | noent | acces | notdir | exist | isdir | notempty | loop | inval | perm | busy | notsup | nametoolong
deriving DecidableEq

/-- A path as it is written: where it starts, its names, and whether a slash ends it. -/
structure PathStr where
  absolute : Bool
  names : List Str
  trailing : Bool
deriving DecidableEq

def slash : UInt8 := ch '/'

def dot : Str := lit "."

def dotdot : Str := lit ".."

/-- A name that is not `.` or `..`. -/
def Plain (c : Str) : Prop := c ≠ dot ∧ c ≠ dotdot

instance (c : Str) : Decidable (Plain c) := inferInstanceAs (Decidable (_ ∧ _))

def PathStr.parse (s : Str) : PathStr where
  absolute := s.head? = some slash
  names := (s.splitOnP (· = slash)).filter (· ≠ [])
  trailing := s.getLast? = some slash && (s.splitOnP (· = slash)).any (· ≠ [])

/-- The names to walk along. A slash at the end asks for a directory. -/
def PathStr.steps (s : PathStr) : List Str := if s.trailing then s.names ++ [dot] else s.names

/-! ## Resolution -/

/-- Where a walk ends: at a node, or at a name that is free in a directory; or at a link to follow. -/
inductive Walk where
  | arrived (q : AbsPath)
  | failed (e : Errno)
  | link (base : AbsPath) (target : Str) (rest : List Str)

section
variable (who : Account) (follow : Bool) (fs : Fs)

/-- Walks to the next link, and the keys it looked at. -/
def walk : AbsPath → List Str → List AbsPath × Walk
  | base, [] => ([], .arrived base)
  | base, c :: cs =>
    match fs.lookup base with
    | some (.dir a) =>
      if !who.may .search a then ([base], .failed .acces)
      else if c = dot then
        let r := walk base cs
        (base :: r.1, r.2)
      else if c = dotdot then
        let r := walk base.dropLast cs
        (base :: r.1, r.2)
      else match fs.lookup (base ++ [c]) with
        | some (.link _ target) =>
          if cs = [] ∧ follow = false then ([base, base ++ [c]], .arrived (base ++ [c]))
          else ([base, base ++ [c]], .link base target cs)
        | some _ =>
          let r := walk (base ++ [c]) cs
          (base :: (base ++ [c]) :: r.1, r.2)
        | none => ([base, base ++ [c]], if cs = [] then .arrived (base ++ [c]) else .failed .noent)
    | some _ => ([base], .failed .notdir)
    | none => ([base], .failed .noent)

/-- Follows at most `links` links. -/
def resolve : Nat → AbsPath → List Str → List AbsPath × Except Errno AbsPath
  | links, base, cs =>
    match walk who follow fs base cs with
    | (seen, .arrived q) => (seen, .ok q)
    | (seen, .failed e) => (seen, .error e)
    | (seen, .link base target rest) =>
      match links with
      | 0 => (seen, .error .loop)
      | links + 1 =>
        let t := PathStr.parse target
        let r := resolve links (if t.absolute then [] else base) (t.steps ++ rest)
        (seen ++ r.1, r.2)

end

/-- The links one resolution may follow. -/
def maxLinks : Nat := 40

/-- Resolves a path; the last name may be free. -/
def Process.locate (p : Process) (follow : Bool) (fs : Fs) (path : PathStr) : List AbsPath × Except Errno AbsPath :=
  if path.names = [] ∧ path.absolute = false then ([], .error .noent)
  else resolve p.toAccount follow fs maxLinks (if path.absolute then [] else p.cwd) path.steps

/-- The calls that change the tree. `write` and `fchmod` are on an open file. -/
inductive SysCall where
  | creat (path : PathStr) (mode : BitVec 12)
  | write (file : AbsPath) (data : Str)
  | chmod (path : PathStr) (mode : BitVec 12)
  | fchmod (file : AbsPath) (mode : BitVec 12)
  | mkdir (path : PathStr) (mode : BitVec 12)
  | remove (path : PathStr)
  | rename (src dst : PathStr)
deriving DecidableEq

def Node.isDir : Node → Bool
  | dir _ => true
  | _ => false

def Node.setMode (mode : BitVec 12) : Node → Node
  | file a content => file { a with mode } content
  | dir a => dir { a with mode }
  | link a target => link { a with mode } target

/-- The names in a directory, in the order in which they are listed. -/
def children (fs : Fs) (q : AbsPath) : List Str :=
  fs.entries.filterMap fun e => if e.1.dropLast = q then e.1.getLast? else none

/-- Takes the nodes at and under `src` to `dst`. -/
def moveTree (src dst : AbsPath) (fs : Fs) : Fs :=
  (fs.entries.filter fun e => src.isPrefixOf e.1).foldl (fun m e => m.insert (dst ++ e.1.drop src.length) e.2)
    (fs.keep fun q _ => !src.isPrefixOf q && q ≠ dst)

/-- The last name is `.` or `..`. -/
def PathStr.endsInDots (path : PathStr) : Bool := path.names.getLast? = some dot || path.names.getLast? = some dotdot

/-- Where the entry itself is: a link is not followed, and a slash at the end is not looked at. -/
def Process.entry (p : Process) (fs : Fs) (path : PathStr) : Except Errno AbsPath :=
  (p.locate false fs { path with trailing := false }).2

section
variable (p : Process) (fs : Fs)

/-- The process may add a name to the directory. -/
def Process.mayAdd (q : AbsPath) : Bool :=
  match fs.lookup q.dropLast with
  | some (.dir a) => p.may .write a && p.may .search a
  | _ => false

/-- It may take the name away; in a sticky directory the node or the directory has to be its own. -/
def Process.mayUnlink (q : AbsPath) : Bool :=
  match fs.lookup q.dropLast, fs.lookup q with
  | some (.dir a), some n =>
    p.may .write a && p.may .search a &&
      (!a.mode.getLsbD 9 || p.uid = 0 || p.uid = n.attr.owner || p.uid = a.owner)
  | _, _ => false

def creatAt (q : AbsPath) (mode : BitVec 12) : Except Errno Fs :=
  match fs.lookup q with
  | some (.file a _) => if p.may .write a then .ok (fs.insert q (.file a [])) else .error .acces
  | some (.dir _) => .error .isdir
  | some (.link _ _) => .error .loop
  | none => if p.mayAdd fs q then .ok (fs.insert q (.file (p.attr mode) [])) else .error .acces

def writeAt (q : AbsPath) (data : Str) : Except Errno Fs :=
  match fs.lookup q with
  | some (.file a old) => .ok (fs.insert q (.file a (old ++ data)))
  | _ => .error .noent

def mkdirAt (q : AbsPath) (mode : BitVec 12) : Except Errno Fs :=
  if (fs.lookup q).isSome then .error .exist
  else if p.mayAdd fs q then .ok (fs.insert q (.dir (p.attr mode)))
  else .error .acces

def chmodAt (q : AbsPath) (mode : BitVec 12) : Except Errno Fs :=
  match fs.lookup q with
  | none => .error .noent
  | some n => if p.uid = 0 ∨ p.uid = n.attr.owner then .ok (fs.insert q (n.setMode mode)) else .error .perm

def removeAt (q : AbsPath) (trailing : Bool) : Except Errno Fs :=
  match fs.lookup q with
  | none => .error .noent
  | some n =>
    if q = [] then .error .busy
    else if trailing && !n.isDir then .error .notdir
    else if !p.mayUnlink fs q then .error .acces
    else if n.isDir && children fs q ≠ [] then .error .notempty
    else .ok (fs.erase q)

/-- Why `rename` refuses to take the node `n` at `src` to `dst`. -/
def renameRefused (src dst : AbsPath) (trailing : Bool) (n : Node) : Option Errno :=
  if src = [] ∨ dst = [] then some .busy
  else if trailing && !n.isDir then some .notdir
  else if src = dst then none
  else if src.isPrefixOf dst then some .inval
  else if !p.mayUnlink fs src then some .acces
  -- A directory that gets a new parent is itself written to.
  else if n.isDir && src.dropLast ≠ dst.dropLast && !p.may .write n.attr then some .acces
  else match fs.lookup dst with
    | none => if p.mayAdd fs dst then none else some .acces
    | some t =>
      if !p.mayUnlink fs dst then some .acces
      else if t.isDir && !n.isDir then some .isdir
      else if !t.isDir && n.isDir then some .notdir
      else if t.isDir && children fs dst ≠ [] then some .notempty
      else none

def renameAt (src dst : AbsPath) (trailing : Bool) : Except Errno Fs :=
  match fs.lookup src with
  | none => .error .noent
  | some n =>
    match renameRefused p fs src dst trailing n with
    | some e => .error e
    | none => .ok (if src = dst then fs else moveTree src dst fs)

def sysExec : SysCall → Except Errno Fs
  | .creat path mode => do creatAt p fs (← (p.locate true fs path).2) mode
  | .write q data => writeAt fs q data
  | .chmod path mode => do chmodAt p fs (← (p.locate true fs path).2) mode
  | .fchmod q mode => chmodAt p fs q mode
  | .mkdir path mode => do mkdirAt p fs (← p.entry fs path) mode
  | .remove path =>
    if path.endsInDots then .error .inval
    else do removeAt p fs (← p.entry fs path) path.trailing
  | .rename src dst =>
    if src.endsInDots || dst.endsInDots then .error .busy
    else do renameAt p fs (← p.entry fs src) (← p.entry fs dst) (src.trailing || dst.trailing)

/-- The keys a call is about. A renaming is about all that is moved, where it was and where it goes. -/
def touches : SysCall → AbsPath → Bool
  | .creat path _, q => (p.locate true fs path).2.toOption = some q
  | .write file _, q => file = q
  | .chmod path _, q => (p.locate true fs path).2.toOption = some q
  | .fchmod file _, q => file = q
  | .mkdir path _, q => (p.entry fs path).toOption = some q
  | .remove path, q => (p.entry fs path).toOption = some q
  | .rename src dst, q =>
    match p.entry fs src, p.entry fs dst with
    | .ok src, .ok dst =>
      (src.isPrefixOf q && (fs.lookup q).isSome) || q = dst ||
        (dst.isPrefixOf q && (fs.lookup (src ++ q.drop dst.length)).isSome)
    | _, _ => false

/-- The tree after the call. One that fails changes nothing. -/
def sysNext (c : SysCall) : Fs := ((sysExec p fs c).toOption).getD fs

end

/-! ## What a call leaves alone -/

/-- The keys outside `T` keep their nodes and their order. -/
def SameBut (T : AbsPath → Bool) (fs fs' : Fs) : Prop :=
  ∀ keep : AbsPath → Bool, (∀ q, keep q = true → T q = false) →
    fs'.entries.filter (fun e => keep e.1) = fs.entries.filter (fun e => keep e.1)

theorem off_of_touched {T keep : AbsPath → Bool} (hkeep : ∀ q, keep q = true → T q = false) {q : AbsPath} (hq : T q = true) :
    keep q = false := by
  rcases hk : keep q with _ | _
  · rfl
  · rw [hkeep q hk] at hq
    cases hq

theorem SameBut.refl (T : AbsPath → Bool) (fs : Fs) : SameBut T fs fs := fun _ _ => rfl

theorem sameBut_insert {T : AbsPath → Bool} {q : AbsPath} (hq : T q = true) (fs : Fs) (n : Node) :
    SameBut T fs (fs.insert q n) :=
  fun _ hkeep => Map.filter_insert (off_of_touched hkeep hq) fs n

theorem sameBut_erase {T : AbsPath → Bool} {q : AbsPath} (hq : T q = true) (fs : Fs) : SameBut T fs (fs.erase q) :=
  fun _ hkeep => Map.filter_kerase (off_of_touched hkeep hq) fs.entries

theorem sameBut_keep {T : AbsPath → Bool} {f : AbsPath → Node → Bool} {fs : Fs}
    (hf : ∀ q n, fs.lookup q = some n → T q = false → f q n = true) : SameBut T fs (fs.keep f) := by
  intro keep hkeep
  simp only [Map.keep, List.filter_filter]
  apply List.filter_congr
  rintro ⟨q, n⟩ he
  rcases hk : keep q with _ | _
  · simp
  · simp [hf q n (Map.mem_entries.1 he) (hkeep q hk)]

theorem SameBut.trans {T : AbsPath → Bool} {fs fs' fs'' : Fs} (h : SameBut T fs fs') (h' : SameBut T fs' fs'') :
    SameBut T fs fs'' := fun keep hkeep => (h' keep hkeep).trans (h keep hkeep)

theorem SameBut.lookup {T : AbsPath → Bool} {fs fs' : Fs} (h : SameBut T fs fs') {q : AbsPath} (hq : T q = false) :
    fs'.lookup q = fs.lookup q := by
  have hsame := h (fun r => decide (r = q)) fun r hr => by rw [of_decide_eq_true hr, hq]
  have hmem : ∀ (g : Fs) (n : Node), g.lookup q = some n ↔
      (⟨q, n⟩ : Sigma fun _ : AbsPath => Node) ∈ g.entries.filter fun e => decide (e.1 = q) := by
    intro g n
    rw [List.mem_filter, Map.mem_entries]
    simp
  ext n
  rw [hmem, hmem, hsame]

theorem sameBut_moveTree {T : AbsPath → Bool} {src dst : AbsPath} {fs : Fs}
    (hT : ∀ q, ((src.isPrefixOf q && (fs.lookup q).isSome) || q = dst ||
      (dst.isPrefixOf q && (fs.lookup (src ++ q.drop dst.length)).isSome)) = true → T q = true) :
    SameBut T fs (moveTree src dst fs) := by
  have hfold : ∀ (l : List (Sigma fun _ : AbsPath => Node)) (m : Fs),
      (∀ e ∈ l, T (dst ++ e.1.drop src.length) = true) → SameBut T fs m →
      SameBut T fs (l.foldl (fun m e => m.insert (dst ++ e.1.drop src.length) e.2) m) := by
    intro l
    induction l with
    | nil => exact fun m _ hm => hm
    | cons e l ih =>
      intro m hl hm
      refine ih _ (fun e he => hl e (List.mem_cons_of_mem _ he)) ?_
      exact hm.trans (sameBut_insert (hl e List.mem_cons_self) m _)
  refine hfold _ _ ?_ (sameBut_keep ?_)
  · rintro ⟨q, n⟩ he
    obtain ⟨he, hsrc⟩ := List.mem_filter.1 he
    obtain ⟨r, rfl⟩ := List.isPrefixOf_iff_prefix.1 hsrc
    have hq := Map.mem_entries.1 he
    apply hT
    rw [List.drop_left, List.drop_left, hq]
    simp
  · intro q n hq hoff
    by_contra hf
    have hon := hT q ?_
    · rw [hon] at hoff
      cases hoff
    · simp only [Bool.and_eq_true, Bool.not_eq_true', decide_eq_true_eq, not_and_or, Bool.not_eq_false, not_not] at hf
      rcases hf with hf | hf
      · simp [hf, hq]
      · simp [hf]

theorem chmodAt_frame {T : AbsPath → Bool} {p : Process} {fs fs' : Fs} {q : AbsPath} {mode : BitVec 12}
    (h : chmodAt p fs q mode = .ok fs') (hq : T q = true) : SameBut T fs fs' := by
  unfold chmodAt at h
  repeat' split at h
  all_goals cases h
  exact sameBut_insert hq fs _

/-- A call changes nothing but the keys it is about. -/
theorem sysExec_frame {p : Process} {fs fs' : Fs} {c : SysCall} (h : sysExec p fs c = .ok fs') :
    SameBut (touches p fs c) fs fs' := by
  cases c with
  | creat path mode =>
    obtain ⟨q, hq, h⟩ := bind_eq_ok.1 h
    have htouch : touches p fs (.creat path mode) q = true := by simp [touches, hq, Except.toOption]
    unfold creatAt at h
    repeat' split at h
    all_goals cases h
    all_goals exact sameBut_insert htouch fs _
  | write q data =>
    simp only [sysExec, writeAt] at h
    split at h <;> cases h
    exact sameBut_insert (by simp [touches]) fs _
  | chmod path mode =>
    obtain ⟨q, hq, h⟩ := bind_eq_ok.1 h
    exact chmodAt_frame h (by simp [touches, hq, Except.toOption])
  | fchmod q mode => exact chmodAt_frame h (by simp [touches])
  | mkdir path mode =>
    obtain ⟨q, hq, h⟩ := bind_eq_ok.1 h
    have htouch : touches p fs (.mkdir path mode) q = true := by simp [touches, hq, Except.toOption]
    unfold mkdirAt at h
    repeat' split at h
    all_goals cases h
    exact sameBut_insert htouch fs _
  | remove path =>
    simp only [sysExec] at h
    split at h
    · cases h
    obtain ⟨q, hq, h⟩ := bind_eq_ok.1 h
    have htouch : touches p fs (.remove path) q = true := by simp [touches, hq, Except.toOption]
    unfold removeAt at h
    repeat' split at h
    all_goals cases h
    exact sameBut_erase htouch fs
  | rename src dst =>
    simp only [sysExec] at h
    split at h
    · cases h
    obtain ⟨s, hs, h⟩ := bind_eq_ok.1 h
    obtain ⟨d, hd, h⟩ := bind_eq_ok.1 h
    have hmove : SameBut (touches p fs (.rename src dst)) fs (moveTree s d fs) := by
      apply sameBut_moveTree
      intro q hq
      simpa only [touches, hs, hd] using hq
    unfold renameAt at h
    repeat' split at h
    all_goals cases h
    · exact SameBut.refl _ _
    · exact hmove

end McpBridge.Lib
