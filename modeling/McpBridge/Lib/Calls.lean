import McpBridge.Lib.FileSystem
import McpBridge.Lib.Runs
/-!
# Programs of system calls, and others meanwhile

`Call` is what a process asks the kernel for: the calls of `FileSystem`, and those
that open files, own them and look at them. A `Prog` is a program as the tree of
its calls, with one branch for each answer. `serve` is what the kernel answers and
the tree it leaves; what the tree does not decide is in an `Outcome`.

A `Machine` is a tree and the programs that run on it with one account, while other
accounts make calls of their own. `Machine.guarantee` is the rule for what holds
on such a machine whatever the order: each program may rely on the one key it
works on, and has to leave those of the others alone.
-/

namespace McpBridge.Lib

/-! ## Calls -/

/-- The size is that of a regular file. -/
structure FileStat where
  regular : Bool
  size : Nat

/-- What a process asks for. `X` are the programs it can have run. -/
inductive Call (X : Type) where
  | sys (c : SysCall)
  /-- For writing, made where it is missing and emptied where it is there; no link is followed. -/
  | openTrunc (path : PathStr) (mode : BitVec 12)
  /-- Made where it is missing. -/
  | openCreate (path : PathStr) (mode : BitVec 12)
  /-- For reading; no link is followed. -/
  | openRead (path : PathStr)
  | fstat (file : AbsPath)
  | read (file : AbsPath) (count : Nat)
  | pwrite (file : AbsPath) (off : Nat) (data : Str)
  | fsync (file : AbsPath)
  | chown (path : PathStr) (uid gid : Nat)
  | unlink (path : PathStr)
  | symlink (target : Str) (path : PathStr)
  | access (path : PathStr)
  | lstat (path : PathStr)
  /-- Takes the lock of a file, where no other process holds it. -/
  | flock (file : AbsPath)
  /-- Whether another process holds the lock of one of the files. -/
  | locked (files : List PathStr)
  | setuid (uid : Nat)
  | getpwnam (name : Str)
  | spawn (x : X)

/-- What the kernel answers. -/
def Call.Ans {X : Type} : Call X → Type
  | .openTrunc _ _ | .openCreate _ _ | .openRead _ => Except Errno AbsPath
  | .fstat _ => Except Errno FileStat
  | .read _ _ => Except Errno Str
  | .pwrite _ _ _ => Except Errno Nat
  | .flock _ | .locked _ => Bool
  | .getpwnam _ => Option (Nat × Nat)
  | .spawn _ => Int × Str
  | _ => Except Errno Unit

/-- What the tree does not decide: a failure of another kind, how much of a write is left
undone, what an open file holds where its name no longer leads to it, locks, the accounts, and how a
program that is run ends. -/
structure Outcome where
  errno : Option Errno := none
  short : Nat := 0
  seen : Option Str := none
  held : Bool := false
  account : Option (Nat × Nat) := none
  exit : Int := 0
  output : Str := []
  spared : List AbsPath := []

/-- A call fails for a reason of the outside, or as the tree decides. One that fails changes nothing. -/
def Outcome.answer {α : Type} (o : Outcome) (fs : Fs) (r : Except Errno (α × Fs)) : Except Errno α × Fs :=
  match o.errno, r with
  | some e, _ => (.error e, fs)
  | none, .error e => (.error e, fs)
  | none, .ok (a, fs') => (.ok a, fs')

def Node.setOwner (uid gid : Nat) : Node → Node
  | file a content =>
    -- The set-user-id bit goes, and the set-group-id bit where the group may execute.
    let mode := if a.mode.getLsbD 3 then a.mode &&& 0o1777 else a.mode &&& 0o3777
    file ⟨uid, gid, mode⟩ content
  | dir a => dir { a with owner := uid, group := gid }
  | link a target => link { a with owner := uid, group := gid } target

/-- What a file holds after a write at `off`; a gap is filled with zeros. -/
def overwrite (old : Str) (off : Nat) (data : Str) : Str :=
  old.take off ++ List.replicate (off - old.length) 0 ++ data ++ old.drop (off + data.length)

/-- A write where the file ends. -/
theorem overwrite_end {old : Str} {off : Nat} (h : old.length = off) (data : Str) : overwrite old off data = old ++ data := by
  unfold overwrite
  rw [List.take_of_length_le h.le, h, Nat.sub_self, List.drop_of_length_le (by omega)]
  simp

section
variable (p : Process) (fs : Fs)

def openCreateAt (q : AbsPath) (mode : BitVec 12) : Except Errno (AbsPath × Fs) :=
  match fs.lookup q with
  | some (.file a _) => if p.may .read a && p.may .write a then .ok (q, fs) else .error .acces
  | some (.dir _) => .error .isdir
  | some (.link _ _) => .error .loop
  | none => if p.mayAdd fs q then .ok (q, fs.insert q (.file (p.attr mode) [])) else .error .acces

def openReadAt (q : AbsPath) : Except Errno AbsPath :=
  match fs.lookup q with
  | some (.link _ _) => .error .loop
  | some n => if p.may .read n.attr then .ok q else .error .acces
  | none => .error .noent

/-- A write that is not empty writes at least one byte. -/
def pwriteAt (q : AbsPath) (off : Nat) (data : Str) (short : Nat) : Except Errno (Nat × Fs) :=
  match fs.lookup q with
  | some (.file a old) =>
    let count := data.length - min short (data.length - 1)
    .ok (count, fs.insert q (.file a (overwrite old off (data.take count))))
  | _ => .error .noent

/-- Root gives a node away; the owner may give it to another of its groups. -/
def chownAt (q : AbsPath) (uid gid : Nat) : Except Errno Fs :=
  match fs.lookup q with
  | none => .error .noent
  | some n =>
    if p.uid = 0 ∨ (p.uid = n.attr.owner ∧ uid = n.attr.owner ∧ (gid = p.gid ∨ gid ∈ p.groups)) then
      .ok (fs.insert q (n.setOwner uid gid))
    else .error .perm

def unlinkAt (q : AbsPath) : Except Errno Fs :=
  match fs.lookup q with
  | none => .error .noent
  | some n =>
    if n.isDir then .error .isdir
    else if p.mayUnlink fs q then .ok (fs.erase q)
    else .error .acces

def symlinkAt (target : Str) (q : AbsPath) : Except Errno Fs :=
  if (fs.lookup q).isSome then .error .exist
  else if p.mayAdd fs q then .ok (fs.insert q (.link ⟨p.uid, p.gid, 0o777⟩ target))
  else .error .acces

def lookAt (follow : Bool) (path : PathStr) : Except Errno Unit := do
  if (fs.lookup (← (p.locate follow fs path).2)).isSome then .ok () else .error .noent

/-- What an open file holds. -/
def heldBy (o : Outcome) (q : AbsPath) : Option Str :=
  match o.seen, fs.lookup q with
  | some s, _ => some s
  | none, some (.file _ content) => some content
  | none, _ => none

end

def unit {α : Type} (r : Except Errno α) : Except Errno (Unit × α) := r.map fun a => ((), a)

section
variable {X : Type} (spawned : Process → X → Outcome → Fs → (Int × Str) × Fs) (p : Process)

/-- The kernel's answer, and the tree after the call. -/
def serve (o : Outcome) (fs : Fs) : (c : Call X) → c.Ans × Fs
  | .sys c => o.answer fs (unit (sysExec p fs c))
  | .openTrunc path mode => o.answer fs do
    let q ← (p.locate false fs path).2
    return (q, ← creatAt p fs q mode)
  | .openCreate path mode => o.answer fs do openCreateAt p fs (← (p.locate true fs path).2) mode
  | .openRead path => o.answer fs do return (← openReadAt p fs (← (p.locate false fs path).2), fs)
  | .fstat q => o.answer fs (.ok (match heldBy fs o q with
    | some s => ⟨true, s.length⟩
    | none => ⟨false, 0⟩, fs))
  | .read q count => o.answer fs (match heldBy fs o q with
    | some s => .ok (s.take count, fs)
    | none => .error .isdir)
  | .pwrite q off data => o.answer fs (pwriteAt fs q off data o.short)
  | .fsync _ => o.answer fs (.ok ((), fs))
  | .chown path uid gid => o.answer fs (unit do chownAt p fs (← (p.locate true fs path).2) uid gid)
  | .unlink path => o.answer fs (unit do unlinkAt p fs (← (p.locate false fs path).2))
  | .symlink target path => o.answer fs (unit do symlinkAt p fs target (← (p.locate false fs path).2))
  | .access path => o.answer fs ((lookAt p fs true path).map fun _ => ((), fs))
  | .lstat path => o.answer fs ((lookAt p fs false path).map fun _ => ((), fs))
  | .flock _ => (!o.held, fs)
  | .locked _ => (o.held, fs)
  | .setuid uid => o.answer fs (if p.uid = 0 ∨ p.uid = uid then .ok ((), fs) else .error .perm)
  | .getpwnam _ => (o.account, fs)
  | .spawn x => spawned p x o fs

end

/-! ## Where a call can change the tree -/

section
variable {X : Type}

/-- The paths a call changes something at, and whether a link at their end is followed. -/
def Call.paths : Call X → List (Bool × PathStr)
  | .sys c =>
    match c with
    | .creat path _ | .chmod path _ => [(true, path)]
    | .mkdir path _ | .remove path => [(false, { path with trailing := false })]
    | .rename src dst => [(false, { src with trailing := false }), (false, { dst with trailing := false })]
    | .write _ _ | .fchmod _ _ => []
  | .openTrunc path _ | .unlink path | .symlink _ path => [(false, path)]
  | .openCreate path _ | .chown path _ _ => [(true, path)]
  | _ => []

/-- The open files it changes. -/
def Call.files : Call X → List AbsPath
  | .sys (.write q _) | .sys (.fchmod q _) | .pwrite q _ _ => [q]
  | _ => []

def Call.isSpawn : Call X → Bool
  | .spawn _ => true
  | _ => false

variable {α : Type} {p : Process} {fs : Fs}

/-- Where the answer is an error, the tree is as before, and the outside or the tree is the reason; else the
tree is as it decides. -/
theorem answer_cases (o : Outcome) (fs : Fs) (r : Except Errno (α × Fs)) :
    (∃ e, (o.errno = some e ∨ r = .error e) ∧ o.answer fs r = (.error e, fs)) ∨
      ∃ a fs', r = .ok (a, fs') ∧ o.answer fs r = (.ok a, fs') := by
  unfold Outcome.answer
  split
  · next he => exact .inl ⟨_, .inl he, rfl⟩
  · exact .inl ⟨_, .inr rfl, rfl⟩
  · exact .inr ⟨_, _, rfl, rfl⟩

/-- Only the outside fails a call that the tree allows. -/
theorem answer_of_ok (o : Outcome) {fs fs' : Fs} {r : Except Errno (α × Fs)} {a : α} (hr : r = .ok (a, fs')) :
    (∃ e, o.errno ≠ none ∧ o.answer fs r = (.error e, fs)) ∨ o.answer fs r = (.ok a, fs') := by
  rcases answer_cases o fs r with ⟨e, hwhy, he⟩ | ⟨b, fs'', hr', he⟩
  · left
    refine ⟨e, ?_, he⟩
    rcases hwhy with hwhy | hwhy
    · rw [hwhy]
      rintro ⟨⟩
    · rw [hr] at hwhy
      cases hwhy
  · right
    rw [hr] at hr'
    cases hr'
    exact he

theorem answer_snd (o : Outcome) (fs : Fs) (r : Except Errno (α × Fs)) :
    (o.answer fs r).2 = fs ∨ ∃ a, r = .ok (a, (o.answer fs r).2) := by
  rcases answer_cases o fs r with ⟨e, -, he⟩ | ⟨a, fs', hr, he⟩
  · exact .inl (by rw [he])
  · exact .inr ⟨a, by rw [he, hr]⟩

theorem answer_fst (o : Outcome) (fs : Fs) {r : Except Errno (α × Fs)} {a : α} (h : (o.answer fs r).1 = .ok a) :
    ∃ fs', r = .ok (a, fs') := by
  rcases answer_cases o fs r with ⟨e, -, he⟩ | ⟨b, fs', hr, he⟩
  · rw [he] at h
    cases h
  · rw [he] at h
    cases h
    exact ⟨fs', hr⟩

theorem unit_eq_ok {r : Except Errno α} {u : Unit} {a : α} (h : unit r = .ok (u, a)) : r = .ok a := by
  unfold unit at h
  cases r with
  | error e => cases h
  | ok b =>
    cases h
    rfl

theorem lookup_insert_off {q r : AbsPath} (h : ¬ r <+: q) (fs : Fs) (n : Node) :
    (fs.insert r n).lookup q = fs.lookup q := by
  rw [Map.lookup_insert_if, if_neg]
  rintro rfl
  exact h List.prefix_rfl

theorem lookup_erase_off {q r : AbsPath} (h : ¬ r <+: q) (fs : Fs) : (fs.erase r).lookup q = fs.lookup q := by
  rw [Map.lookup_erase_if, if_neg]
  rintro rfl
  exact h List.prefix_rfl

/-- A key that is neither an open file of the call nor at or under one of its paths. -/
def Call.Apart (p : Process) (fs : Fs) (c : Call X) (q : AbsPath) : Prop :=
  (∀ path ∈ c.paths, ∀ r, (p.locate path.1 fs path.2).2 = .ok r → ¬ r <+: q) ∧ q ∉ c.files

theorem sysExec_lookup_apart {c : SysCall} {fs' : Fs} {q : AbsPath} (h : sysExec p fs c = .ok fs')
    (hq : (Call.sys c : Call X).Apart p fs q) : fs'.lookup q = fs.lookup q := by
  apply (sysExec_frame h).lookup
  obtain ⟨hpaths, hfiles⟩ := hq
  by_contra ht
  rw [Bool.not_eq_false] at ht
  have hoff : ∀ {path : PathStr} {follow : Bool} {r : AbsPath}, (follow, path) ∈ (Call.sys c : Call X).paths →
      (p.locate follow fs path).2.toOption = some r → ¬ r <+: q := by
    intro path follow r hmem hr
    have he : (p.locate follow fs path).2 = .ok r := by
      rcases he : (p.locate follow fs path).2 with e | r' <;> rw [he] at hr <;> cases hr
      rfl
    exact hpaths _ hmem r he
  cases c with
  | creat path mode => exact hoff (List.mem_singleton_self _) (of_decide_eq_true ht) List.prefix_rfl
  | chmod path mode => exact hoff (List.mem_singleton_self _) (of_decide_eq_true ht) List.prefix_rfl
  | mkdir path mode => exact hoff (List.mem_singleton_self _) (of_decide_eq_true ht) List.prefix_rfl
  | remove path => exact hoff (List.mem_singleton_self _) (of_decide_eq_true ht) List.prefix_rfl
  | write file data => exact hfiles (List.mem_singleton.2 (of_decide_eq_true ht).symm)
  | fchmod file mode => exact hfiles (List.mem_singleton.2 (of_decide_eq_true ht).symm)
  | rename src dst =>
    simp only [touches] at ht
    split at ht
    · next s d hs hd =>
      have hs' : ¬ s <+: q := hpaths _ List.mem_cons_self s hs
      have hd' : ¬ d <+: q := hpaths _ (List.mem_cons_of_mem _ (List.mem_singleton_self _)) d hd
      simp only [Bool.or_eq_true, Bool.and_eq_true, List.isPrefixOf_iff_prefix, decide_eq_true_eq] at ht
      rcases ht with (⟨ht, -⟩ | rfl) | ⟨ht, -⟩
      · exact hs' ht
      · exact hd' List.prefix_rfl
      · exact hd' ht
    · cases ht

/-- What a call makes of the tree where nothing from outside fails it. -/
def Call.effect (p : Process) (o : Outcome) (fs : Fs) : Call X → Except Errno Fs
  | .sys c => sysExec p fs c
  | .openTrunc path mode => do creatAt p fs (← (p.locate false fs path).2) mode
  | .openCreate path mode => do return (← openCreateAt p fs (← (p.locate true fs path).2) mode).2
  | .pwrite q off data => do return (← pwriteAt fs q off data o.short).2
  | .chown path uid gid => do chownAt p fs (← (p.locate true fs path).2) uid gid
  | .unlink path => do unlinkAt p fs (← (p.locate false fs path).2)
  | .symlink target path => do symlinkAt p fs target (← (p.locate false fs path).2)
  | _ => .ok fs

/-- A call that only looks. -/
def Call.looks : Call X → Bool
  | .openRead _ | .fstat _ | .read _ _ | .fsync _ | .access _ | .lstat _ | .flock _ | .locked _ |
    .setuid _ | .getpwnam _ => true
  | _ => false

variable (spawned : Process → X → Outcome → Fs → (Int × Str) × Fs)

theorem serve_looks (o : Outcome) (fs : Fs) {c : Call X} (hc : c.looks = true) : (serve spawned p o fs c).2 = fs := by
  have hans : ∀ {β : Type} {r : Except Errno (β × Fs)}, (∀ b fs', r = .ok (b, fs') → fs' = fs) →
      (o.answer fs r).2 = fs := by
    intro β r h
    rcases answer_snd o fs r with he | ⟨b, hb⟩
    · exact he
    · exact h b _ hb
  cases c with
  | openRead path =>
    apply hans
    intro a fs' h
    obtain ⟨_, -, h⟩ := bind_eq_ok.1 h
    obtain ⟨_, -, h⟩ := bind_eq_ok.1 h
    cases h
    rfl
  | fstat file => exact hans fun _ _ h => by cases h; rfl
  | fsync file => exact hans fun _ _ h => by cases h; rfl
  | read file count =>
    apply hans
    intro a fs' h
    split at h <;> cases h
    rfl
  | access path =>
    apply hans
    intro a fs' h
    rcases hl : lookAt p fs true path with e | u <;> rw [hl] at h <;> cases h
    rfl
  | lstat path =>
    apply hans
    intro a fs' h
    rcases hl : lookAt p fs false path with e | u <;> rw [hl] at h <;> cases h
    rfl
  | setuid uid =>
    apply hans
    intro a fs' h
    split at h <;> cases h
    rfl
  | flock file => rfl
  | locked files => rfl
  | getpwnam name => rfl
  | _ => cases hc

/-- A call leaves the tree as it is, or has its effect. -/
theorem serve_effect (o : Outcome) (fs : Fs) {c : Call X} (hc : c.isSpawn = false) :
    (serve spawned p o fs c).2 = fs ∨ c.effect p o fs = .ok (serve spawned p o fs c).2 := by
  by_cases hl : c.looks = true
  · exact .inl (serve_looks spawned o fs hl)
  cases c with
  | sys c => exact (answer_snd o fs _).imp_right fun ⟨_, h⟩ => unit_eq_ok h
  | openTrunc path mode =>
    refine (answer_snd o fs _).imp_right fun ⟨a, h⟩ => ?_
    obtain ⟨q, hq, h⟩ := bind_eq_ok.1 h
    obtain ⟨fs', hcreat, h⟩ := bind_eq_ok.1 h
    cases h
    exact bind_eq_ok.2 ⟨_, hq, hcreat⟩
  | openCreate path mode =>
    refine (answer_snd o fs _).imp_right fun ⟨a, h⟩ => ?_
    obtain ⟨r, hr, h⟩ := bind_eq_ok.1 h
    exact bind_eq_ok.2 ⟨r, hr, bind_eq_ok.2 ⟨_, h, rfl⟩⟩
  | pwrite file off data => exact (answer_snd o fs _).imp_right fun ⟨a, h⟩ => bind_eq_ok.2 ⟨_, h, rfl⟩
  | chown path uid gid => exact (answer_snd o fs _).imp_right fun ⟨_, h⟩ => unit_eq_ok h
  | unlink path => exact (answer_snd o fs _).imp_right fun ⟨_, h⟩ => unit_eq_ok h
  | symlink target path => exact (answer_snd o fs _).imp_right fun ⟨_, h⟩ => unit_eq_ok h
  | spawn x => cases hc
  | _ => exact absurd rfl hl

/-- A file that was opened is where its path leads. -/
theorem locate_of_openTrunc {o : Outcome} {fs : Fs} {path : PathStr} {mode : BitVec 12} {q : AbsPath}
    (h : (serve spawned p o fs (.openTrunc path mode)).1 = Except.ok q) : (p.locate false fs path).2 = .ok q := by
  obtain ⟨fs', h⟩ := answer_fst o fs h
  obtain ⟨r, hr, h⟩ := bind_eq_ok.1 h
  obtain ⟨fs'', -, h⟩ := bind_eq_ok.1 h
  cases h
  exact hr

/-- A call changes nothing apart from its paths and its open files. -/
theorem serve_lookup_apart (o : Outcome) {c : Call X} {q : AbsPath} (hq : c.Apart p fs q) (hc : c.isSpawn = false) :
    (serve spawned p o fs c).2.lookup q = fs.lookup q := by
  rcases serve_effect spawned o fs hc with he | he
  · rw [he]
  generalize (serve spawned p o fs c).2 = fs' at he
  obtain ⟨hpaths, hfiles⟩ := hq
  cases c with
  | sys c => exact sysExec_lookup_apart he ⟨hpaths, hfiles⟩
  | openTrunc path mode =>
    obtain ⟨r, hr, h⟩ := bind_eq_ok.1 he
    have hoff := hpaths _ (List.mem_singleton_self _) r hr
    unfold creatAt at h
    repeat' split at h
    all_goals cases h
    all_goals exact lookup_insert_off hoff fs _
  | openCreate path mode =>
    obtain ⟨r, hr, h⟩ := bind_eq_ok.1 he
    obtain ⟨⟨a, fs''⟩, h, hret⟩ := bind_eq_ok.1 h
    cases hret
    have hoff := hpaths _ (List.mem_singleton_self _) r hr
    unfold openCreateAt at h
    repeat' split at h
    all_goals cases h
    · rfl
    · exact lookup_insert_off hoff fs _
  | pwrite file off data =>
    obtain ⟨⟨a, fs''⟩, h, hret⟩ := bind_eq_ok.1 he
    cases hret
    unfold pwriteAt at h
    split at h <;> cases h
    rw [Map.lookup_insert_if, if_neg]
    rintro rfl
    exact hfiles (List.mem_singleton_self _)
  | chown path uid gid =>
    obtain ⟨r, hr, h⟩ := bind_eq_ok.1 he
    unfold chownAt at h
    repeat' split at h
    all_goals cases h
    exact lookup_insert_off (hpaths _ (List.mem_singleton_self _) r hr) fs _
  | unlink path =>
    obtain ⟨r, hr, h⟩ := bind_eq_ok.1 he
    unfold unlinkAt at h
    repeat' split at h
    all_goals cases h
    exact lookup_erase_off (hpaths _ (List.mem_singleton_self _) r hr) fs
  | symlink target path =>
    obtain ⟨r, hr, h⟩ := bind_eq_ok.1 he
    unfold symlinkAt at h
    repeat' split at h
    all_goals cases h
    exact lookup_insert_off (hpaths _ (List.mem_singleton_self _) r hr) fs _
  | spawn x => cases hc
  | _ =>
    cases he
    rfl

end

/-! ## Programs -/

/-- A program: what it returns, or its next call and how it goes on with each answer. -/
inductive Prog (X R : Type) where
  | done (r : R)
  | ask (c : Call X) (k : c.Ans → Prog X R)

section
variable {X R Argv : Type} (spawned : Process → X → Outcome → Fs → (Int × Str) × Fs)

/-- Runs a program by itself. It stops where the outcomes end, as if it were killed there. -/
def Prog.alone (p : Process) : Prog X R → List Outcome → Fs → Option R × Fs
  | .done r, _, fs => (some r, fs)
  | .ask _ _, [], fs => (none, fs)
  | .ask c k, o :: os, fs => (k (serve spawned p o fs c).1).alone p os (serve spawned p o fs c).2

/-- A tree, and the programs that run on it, with what each was started with. -/
structure Machine (X R Argv : Type) where
  fs : Fs
  running : List (Argv × Prog X R)

/-- What can happen next: a program is started, makes its next call or is gone (it was killed,
or had finished), or a process of another account makes a call. -/
inductive Happening (X Argv : Type) where
  | start (argv : Argv)
  | step (i : Nat) (o : Outcome)
  | gone (i : Nat)
  | foreign (who : Process) (c : Call X) (o : Outcome)

variable (main : Argv → Prog X R) (p : Process)

def Machine.next (m : Machine X R Argv) : Happening X Argv → Option (Machine X R Argv)
  | .start argv => some { m with running := m.running ++ [(argv, main argv)] }
  | .step i o =>
    match m.running[i]? with
    | some (argv, .ask c k) =>
      let r := serve spawned p o m.fs c
      some ⟨r.2, m.running.take i ++ (argv, k r.1) :: m.running.drop (i + 1)⟩
    | _ => none
  | .gone i => some { m with running := m.running.eraseIdx i }
  | .foreign who c o => some { m with fs := (serve spawned who o m.fs c).2 }

/-! ## The rule -/

variable (I : Fs → Prop) (Staged : AbsPath → Prop) (May : Fs → Call X → Prop)

/-- What a program guarantees: every call it makes keeps `I` and leaves the staged keys of others
alone. It relies on its own key, which holds `v` when it makes its next call. -/
def Prog.Keeps (own : Option AbsPath) : Option Node → Prog X R → Prop
  | _, .done _ => True
  | v, .ask c k => ∀ fs o, I fs → own.bind fs.lookup = v → May fs c →
    I (serve spawned p o fs c).2 ∧
    (∀ q, Staged q → own ≠ some q → (serve spawned p o fs c).2.lookup q = fs.lookup q) ∧
    Keeps own (own.bind (serve spawned p o fs c).2.lookup) (k (serve spawned p o fs c).1)

/-- No two running programs work on the same key, other accounts do what they may, and the
programs do what they may. -/
def Machine.Fair (stage : Argv → Option AbsPath) (Others : Fs → Process → Call X → Prop) (m : Machine X R Argv) :
    Happening X Argv → Prop
  | .start argv => ∀ q, stage argv = some q → ∀ r ∈ m.running, stage r.1 ≠ some q
  | .step i _ => ∀ argv c k, m.running[i]? = some (argv, .ask c k) → May m.fs c
  | .gone _ => True
  | .foreign who c _ => Others m.fs who c

variable {spawned main p I Staged May}

/-- The invariant of the rule: no two programs work on one key, and each has its guarantee. -/
structure Machine.Good (spawned : Process → X → Outcome → Fs → (Int × Str) × Fs) (p : Process) (I : Fs → Prop)
    (Staged : AbsPath → Prop) (May : Fs → Call X → Prop) (stage : Argv → Option AbsPath) (m : Machine X R Argv) : Prop where
  holds : I m.fs
  distinct : (m.running.filterMap fun r => stage r.1).Nodup
  keeps : ∀ r ∈ m.running, Prog.Keeps spawned p I Staged May (stage r.1) ((stage r.1).bind m.fs.lookup) r.2

/-- A program whose key holds what it held goes on as it was. -/
theorem keeps_of_lookup {stage : Option AbsPath} {prog : Prog X R} {fs fs' : Fs}
    (h : Prog.Keeps spawned p I Staged May stage (stage.bind fs.lookup) prog)
    (hsame : ∀ q, stage = some q → fs'.lookup q = fs.lookup q) :
    Prog.Keeps spawned p I Staged May stage (stage.bind fs'.lookup) prog := by
  rcases stage with _ | q
  · exact h
  · rw [Option.bind_some, hsame q rfl]
    exact h

theorem Machine.good_next {stage : Argv → Option AbsPath} {Others : Fs → Process → Call X → Prop}
    (hstage : ∀ argv q, stage argv = some q → Staged q)
    (hmain : ∀ argv v, Prog.Keeps spawned p I Staged May (stage argv) v (main argv))
    (hothers : ∀ fs who c o, I fs → Others fs who c →
      I (serve spawned who o fs c).2 ∧ ∀ q, Staged q → (serve spawned who o fs c).2.lookup q = fs.lookup q)
    {m m' : Machine X R Argv} {e : Happening X Argv} (hm : m.Good spawned p I Staged May stage)
    (hc : m.Fair May stage Others e) (h : m.next spawned main p e = some m') : m'.Good spawned p I Staged May stage := by
  cases e with
  | start argv =>
    cases h
    refine ⟨hm.holds, ?_, ?_⟩
    · rw [List.filterMap_append, List.nodup_append]
      refine ⟨hm.distinct, ?_, ?_⟩
      · simp only [List.filterMap_cons, List.filterMap_nil]
        split <;> simp
      · rintro q hq r hr rfl
        obtain ⟨⟨argv', prog⟩, hmem, hstage'⟩ := List.mem_filterMap.1 hq
        obtain ⟨⟨argv'', prog'⟩, hmem', hr⟩ := List.mem_filterMap.1 hr
        cases List.mem_singleton.1 hmem'
        exact hc q hr _ hmem hstage'
    · intro r hr
      rcases List.mem_append.1 hr with hr | hr
      · exact hm.keeps r hr
      · cases List.mem_singleton.1 hr
        exact hmain argv _
  | step i o =>
    simp only [next] at h
    split at h
    swap
    · cases h
    next argv c k hi =>
    cases h
    obtain ⟨hlt, hget⟩ := List.getElem?_eq_some_iff.1 hi
    have hsplit : m.running = m.running.take i ++ (argv, .ask c k) :: m.running.drop (i + 1) := by
      rw [← hget, List.getElem_cons_drop, List.take_append_drop]
    have hself := hm.keeps (argv, .ask c k) (by rw [hsplit]; simp)
    obtain ⟨hI, hothers', hnext⟩ := hself m.fs o hm.holds rfl (hc argv c k hi)
    have hdistinct := hm.distinct
    rw [hsplit] at hdistinct
    refine ⟨hI, ?_, ?_⟩
    · simpa only [List.filterMap_append, List.filterMap_cons] using hdistinct
    · intro r hr
      simp only [List.mem_append, List.mem_cons] at hr
      have hrest : r ∈ m.running.take i ∨ r ∈ m.running.drop (i + 1) →
          Prog.Keeps spawned p I Staged May (stage r.1) ((stage r.1).bind (serve spawned p o m.fs c).2.lookup) r.2 := by
        intro hr
        have hmem : r ∈ m.running := by
          rw [hsplit]
          rcases hr with hr | hr <;> simp [hr]
        refine keeps_of_lookup (hm.keeps r hmem) fun q hq => ?_
        apply hothers' q (hstage _ _ hq)
        -- Two programs with one key would be twice in the list of the keys.
        intro hown
        simp only [List.filterMap_append, List.filterMap_cons, hown] at hdistinct
        rw [List.nodup_append] at hdistinct
        obtain ⟨-, hright, hcross⟩ := hdistinct
        rcases hr with hr | hr
        · exact hcross q (List.mem_filterMap.2 ⟨r, hr, hq⟩) q List.mem_cons_self rfl
        · exact (List.nodup_cons.1 hright).1 (List.mem_filterMap.2 ⟨r, hr, hq⟩)
      rcases hr with hr | rfl | hr
      · exact hrest (.inl hr)
      · exact hnext
      · exact hrest (.inr hr)
  | gone i =>
    cases h
    refine ⟨hm.holds, ?_, fun r hr => hm.keeps r (List.mem_of_mem_eraseIdx hr)⟩
    exact hm.distinct.sublist ((List.eraseIdx_sublist _ _).filterMap _)
  | foreign who c o =>
    cases h
    obtain ⟨hI, hsame⟩ := hothers m.fs who c o hm.holds hc
    exact ⟨hI, hm.distinct, fun r hr => keeps_of_lookup (hm.keeps r hr) fun q hq => hsame q (hstage _ _ hq)⟩

/-- What every program guarantees and other accounts leave alone holds after every run. -/
theorem Machine.guarantee {stage : Argv → Option AbsPath} {Others : Fs → Process → Call X → Prop}
    (hstage : ∀ argv q, stage argv = some q → Staged q)
    (hmain : ∀ argv v, Prog.Keeps spawned p I Staged May (stage argv) v (main argv))
    (hothers : ∀ fs who c o, I fs → Others fs who c →
      I (serve spawned who o fs c).2 ∧ ∀ q, Staged q → (serve spawned who o fs c).2.lookup q = fs.lookup q)
    {fs : Fs} {m : Machine X R Argv} {es : List (Happening X Argv)} (h0 : I fs)
    (hc : Along (Machine.next spawned main p) (Machine.Fair May stage Others) ⟨fs, []⟩ es)
    (h : run (Machine.next spawned main p) ⟨fs, []⟩ es = some m) : I m.fs := by
  have hgood : Machine.Good spawned p I Staged May stage (⟨fs, []⟩ : Machine X R Argv) :=
    ⟨h0, List.nodup_nil, fun r hr => absurd hr List.not_mem_nil⟩
  refine (run_inv (Machine.Good spawned p I Staged May stage) ?_ hgood hc h).holds
  intro s e s' hs hc hn
  exact Machine.good_next hstage hmain hothers hs hc hn

/-- A call that only looks keeps everything. -/
theorem keeps_look {own : Option AbsPath} {v : Option Node} {c : Call X} {k : c.Ans → Prog X R} (hc : c.looks = true)
    (h : ∀ a, Prog.Keeps spawned p I Staged May own v (k a)) : Prog.Keeps spawned p I Staged May own v (.ask c k) := by
  intro fs o hI hv _
  rw [serve_looks spawned o fs hc]
  exact ⟨hI, fun _ _ _ => rfl, hv ▸ h _⟩

end

end McpBridge.Lib
