import McpBridge.Lib.Guarded
/-!
# Programs by themselves, and one after another

`Prog.Ensures` is what a program guarantees wherever it stops when it runs by itself:
it returned, or it was killed before one of its calls. A flag says that nothing from
outside has disturbed it, so one statement is about both the undisturbed run and what
every other run leaves. `Prog.Goes` are some calls of a program, one after another,
while others wait.
-/

namespace McpBridge.Lib

section
variable {X R Argv : Type} {spawned : Process → X → Outcome → Fs → (Int × Str) × Fs} {p : Process}

/-! ## Calls that the tree allows -/

/-- Only the outside fails the call; where nothing does, it has its effect. -/
theorem undisturbed {o : Outcome} (ho : o.errno = none) {E : Errno → Prop} {Q : Prop}
    (h : (∃ e, o.errno ≠ none ∧ E e) ∨ Q) : Q :=
  h.resolve_left fun ⟨_, hne, _⟩ => hne ho

section
variable (spawned p) (o : Outcome) {fs fs' : Fs} {path : PathStr} {q : AbsPath} {n : Node}

/-- The file a path leads to is opened. -/
theorem serve_openRead (hp : p.uid = 0) (hloc : (p.locate false fs path).2 = .ok q) (hn : fs.lookup q = some n)
    (hlink : ∀ a t, n ≠ .link a t) :
    (∃ e, o.errno ≠ none ∧ serve spawned p o fs (.openRead path) = (Except.error e, fs)) ∨
      serve spawned p o fs (.openRead path) = (Except.ok q, fs) := by
  have hopen : (do return (← openReadAt p fs (← (p.locate false fs path).2), fs)) = Except.ok (q, fs) := by
    rw [hloc]
    show (do return (← openReadAt p fs q, fs)) = _
    have hread : openReadAt p fs q = .ok q := by
      unfold openReadAt
      rw [hn]
      cases n with
      | link a t => exact absurd rfl (hlink a t)
      | _ => simp only [root_may hp, if_true]
    rw [hread]
    rfl
  exact answer_of_ok o hopen

theorem serve_setuid (hp : p.uid = 0) (uid : Nat) :
    (∃ e, o.errno ≠ none ∧ serve spawned p o fs (.setuid uid) = (Except.error e, fs)) ∨
      serve spawned p o fs (.setuid uid) = (Except.ok (), fs) :=
  answer_of_ok o (if_pos (.inl hp))

theorem serve_fsync (q : AbsPath) :
    (∃ e, o.errno ≠ none ∧ serve spawned p o fs (.fsync q) = (Except.error e, fs)) ∨
      serve spawned p o fs (.fsync q) = (Except.ok (), fs) :=
  answer_of_ok o rfl

theorem serve_fstat {s : Str} (hs : heldBy fs o q = some s) :
    (∃ e, o.errno ≠ none ∧ serve spawned p o fs (.fstat q) = (Except.error e, fs)) ∨
      serve spawned p o fs (.fstat q) = (Except.ok ⟨true, s.length⟩, fs) := by
  apply answer_of_ok o
  rw [hs]

theorem serve_read {s : Str} (hs : heldBy fs o q = some s) (count : Nat) :
    (∃ e, o.errno ≠ none ∧ serve spawned p o fs (.read q count) = (Except.error e, fs)) ∨
      serve spawned p o fs (.read q count) = (Except.ok (s.take count), fs) := by
  apply answer_of_ok o
  rw [hs]

theorem serve_sys {c : SysCall} (hc : sysExec p fs c = .ok fs') :
    (∃ e, o.errno ≠ none ∧ serve spawned p o fs (.sys c) = (Except.error e, fs)) ∨
      serve spawned p o fs (.sys c) = (Except.ok (), fs') := by
  apply answer_of_ok o
  rw [hc]
  rfl

/-- What the tree refuses fails, for this reason or for one of the outside. -/
theorem serve_sys_error {c : SysCall} {e : Errno} (hc : sysExec p fs c = .error e) :
    ∃ e', (o.errno = none → e' = e) ∧ serve spawned p o fs (.sys c) = (Except.error e', fs) := by
  unfold serve
  rcases answer_cases o fs (unit (sysExec p fs c)) with ⟨e', hwhy, he⟩ | ⟨_, fs', hr, -⟩
  · refine ⟨e', fun ho => ?_, he⟩
    rw [ho, hc] at hwhy
    rcases hwhy with hwhy | hwhy
    · cases hwhy
    · cases hwhy
      rfl
  · rw [hc] at hr
    cases hr

theorem serve_openTrunc {mode : BitVec 12} (hloc : (p.locate false fs path).2 = .ok q) (hc : creatAt p fs q mode = .ok fs') :
    (∃ e, o.errno ≠ none ∧ serve spawned p o fs (.openTrunc path mode) = (Except.error e, fs)) ∨
      serve spawned p o fs (.openTrunc path mode) = (Except.ok q, fs') := by
  apply answer_of_ok o
  rw [hloc]
  show (do return (q, ← creatAt p fs q mode)) = _
  rw [hc]
  rfl

theorem serve_chown (hp : p.uid = 0) (hloc : (p.locate true fs path).2 = .ok q) (hn : fs.lookup q = some n) (uid gid : Nat) :
    (∃ e, o.errno ≠ none ∧ serve spawned p o fs (.chown path uid gid) = (Except.error e, fs)) ∨
      serve spawned p o fs (.chown path uid gid) = (Except.ok (), fs.insert q (n.setOwner uid gid)) := by
  apply answer_of_ok o
  rw [hloc]
  show unit (chownAt p fs q uid gid) = _
  unfold chownAt
  rw [hn]
  simp only [hp, true_or, if_true]
  rfl

theorem serve_chmod (hp : p.uid = 0) (hloc : (p.locate true fs path).2 = .ok q) (hn : fs.lookup q = some n) (mode : BitVec 12) :
    (∃ e, o.errno ≠ none ∧ serve spawned p o fs (.sys (.chmod path mode)) = (Except.error e, fs)) ∨
      serve spawned p o fs (.sys (.chmod path mode)) = (Except.ok (), fs.insert q (n.setMode mode)) := by
  apply serve_sys spawned p o
  simp only [sysExec]
  rw [hloc]
  show chmodAt p fs q mode = _
  unfold chmodAt
  rw [hn]
  simp only [hp, true_or, if_true]

theorem serve_unlink (hloc : (p.locate false fs path).2 = .ok q) (hn : fs.lookup q = some n) (hdir : n.isDir = false)
    (hmay : p.mayUnlink fs q = true) :
    (∃ e, o.errno ≠ none ∧ serve spawned p o fs (.unlink path) = (Except.error e, fs)) ∨
      serve spawned p o fs (.unlink path) = (Except.ok (), fs.erase q) := by
  apply answer_of_ok o
  rw [hloc]
  show unit (unlinkAt p fs q) = _
  unfold unlinkAt
  rw [hn]
  simp only [hdir, hmay, Bool.false_eq_true, if_false, if_true]
  rfl

theorem serve_symlink (hloc : (p.locate false fs path).2 = .ok q) (hn : fs.lookup q = none) (hmay : p.mayAdd fs q = true)
    (target : Str) :
    (∃ e, o.errno ≠ none ∧ serve spawned p o fs (.symlink target path) = (Except.error e, fs)) ∨
      serve spawned p o fs (.symlink target path) = (Except.ok (), fs.insert q (.link ⟨p.uid, p.gid, 0o777⟩ target)) := by
  apply answer_of_ok o
  rw [hloc]
  show unit (symlinkAt p fs target q) = _
  unfold symlinkAt
  rw [hn]
  simp only [Option.isSome_none, hmay, Bool.false_eq_true, if_false, if_true]
  rfl

end

/-! ## Alone -/

/-- Nothing from outside fails the call or is in its way. -/
def Outcome.smooth (o : Outcome) : Bool := o.errno = none && o.exit = 0 && !o.held

theorem not_smooth_of_errno {o : Outcome} (h : o.errno ≠ none) : o.smooth = false := by
  simp [Outcome.smooth, h]

variable (spawned p) in
/-- `Q` holds wherever the program stops, with its result where it returned. -/
def Prog.Ensures (May : Outcome → Prop) (Q : Bool → Option R → Fs → Prop) : Bool → Prog X R → Fs → Prop
  | smooth, .done r, fs => Q smooth (some r) fs
  | smooth, .ask c k, fs => Q smooth none fs ∧ ∀ o, May o →
    Ensures May Q (smooth && o.smooth) (k (serve spawned p o fs c).1) (serve spawned p o fs c).2

variable {May : Outcome → Prop} {Q : Bool → Option R → Fs → Prop}

theorem alone_of_ensures {prog : Prog X R} {os : List Outcome} (hos : ∀ o ∈ os, May o) {smooth : Bool} {fs : Fs}
    (h : prog.Ensures spawned p May Q smooth fs) :
    ∃ s, (smooth = true → os.all Outcome.smooth = true → s = true) ∧
      Q s (prog.alone spawned p os fs).1 (prog.alone spawned p os fs).2 := by
  induction prog generalizing os smooth fs with
  | done r => exact ⟨smooth, fun hs _ => hs, h⟩
  | ask c k ih =>
    cases os with
    | nil => exact ⟨smooth, fun hs _ => hs, h.1⟩
    | cons o os =>
      obtain ⟨s, hs, hq⟩ := ih _ (fun o' ho' => hos o' (List.mem_cons_of_mem _ ho')) (h.2 o (hos o List.mem_cons_self))
      refine ⟨s, fun hsmooth hall => ?_, hq⟩
      rw [List.all_cons, Bool.and_eq_true] at hall
      exact hs (by rw [hsmooth, hall.1]; rfl) hall.2

/-- A call that only looks. -/
theorem ensures_look {c : Call X} {k : c.Ans → Prog X R} {smooth : Bool} {fs : Fs} (hc : c.looks = true)
    (hstop : Q smooth none fs)
    (h : ∀ o, May o → (k (serve spawned p o fs c).1).Ensures spawned p May Q (smooth && o.smooth) fs) :
    (Prog.ask c k).Ensures spawned p May Q smooth fs := by
  refine ⟨hstop, fun o ho => ?_⟩
  rw [serve_looks spawned o fs hc]
  exact h o ho

/-- A call by what it answers and does. -/
theorem ensures_ask {c : Call X} {k : c.Ans → Prog X R} {smooth : Bool} {fs : Fs} (hstop : Q smooth none fs)
    (h : ∀ o, May o → ∃ a fs', serve spawned p o fs c = (a, fs') ∧ (k a).Ensures spawned p May Q (smooth && o.smooth) fs') :
    (Prog.ask c k).Ensures spawned p May Q smooth fs := by
  refine ⟨hstop, fun o ho => ?_⟩
  obtain ⟨a, fs', hs, hk⟩ := h o ho
  rw [hs]
  exact hk

/-- The program makes at most that many calls. -/
def Prog.Within : Prog X R → Nat → Prop
  | .done _, _ => True
  | .ask _ _, 0 => False
  | .ask _ k, n + 1 => ∀ a, (k a).Within n

theorem Prog.Within.mono {prog : Prog X R} {n m : Nat} (h : prog.Within n) (hnm : n ≤ m) : prog.Within m := by
  induction prog generalizing n m with
  | done r => trivial
  | ask c k ih =>
    obtain _ | n := n
    · exact absurd h id
    obtain _ | m := m
    · omega
    exact fun a => ih a (h a) (by omega)

variable (spawned p) in
/-- It returns when it is not killed before. -/
theorem alone_of_within {prog : Prog X R} {n : Nat} (h : prog.Within n) {os : List Outcome} (hos : n ≤ os.length) (fs : Fs) :
    ∃ r, (prog.alone spawned p os fs).1 = some r := by
  induction prog generalizing n os fs with
  | done r => exact ⟨r, rfl⟩
  | ask c k ih =>
    obtain _ | n := n
    · exact absurd h id
    cases os with
    | nil => exact absurd hos (by simp)
    | cons o os => exact ih _ (h _) (by simpa using hos) _

/-- Every result the program can return. -/
def Prog.Returns (P : R → Prop) : Prog X R → Prop
  | .done r => P r
  | .ask _ k => ∀ a, (k a).Returns P

theorem alone_of_returns {P : R → Prop} {prog : Prog X R} (h : prog.Returns P) {os : List Outcome} {fs : Fs} {r : R}
    (hr : (prog.alone spawned p os fs).1 = some r) : P r := by
  induction prog generalizing os fs with
  | done r' =>
    cases hr
    exact h
  | ask c k ih =>
    cases os with
    | nil => cases hr
    | cons o os => exact ih _ (h _) hr

/-! ## Among others -/

/-- The outside fails nothing, and an open file holds what its name leads to. -/
def Outcome.Still (o : Outcome) : Prop := o.errno = none ∧ o.seen = none

/-- Some calls of a program, one after another, in a still outside. -/
inductive Prog.Goes (spawned : Process → X → Outcome → Fs → (Int × Str) × Fs) (p : Process) :
    Prog X R → Fs → Prog X R → Fs → Prop
  | here (prog : Prog X R) (fs : Fs) : Goes spawned p prog fs prog fs
  | call (o : Outcome) {c : Call X} {k : c.Ans → Prog X R} {a : c.Ans} {fs fs' fs'' : Fs} {prog' : Prog X R}
      (ho : o.Still) (hs : serve spawned p o fs c = (a, fs')) (h : Goes spawned p (k a) fs' prog' fs'') :
      Goes spawned p (.ask c k) fs prog' fs''

theorem Prog.Goes.trans {prog prog' prog'' : Prog X R} {fs fs' fs'' : Fs} (h : Goes spawned p prog fs prog' fs')
    (h' : Goes spawned p prog' fs' prog'' fs'') : Goes spawned p prog fs prog'' fs'' := by
  induction h with
  | here prog fs => exact h'
  | call o ho hs _ ih => exact .call o ho hs (ih h')

variable {main : Argv → Prog X R}

/-- A program makes its next call, in a still outside. -/
def Happening.IsStep : Happening X Argv → Prop
  | .step _ o => o.Still
  | _ => False

variable (spawned main p) in
/-- Calls of the programs lead from one machine to the other. -/
def Machine.Reaches (m m' : Machine X R Argv) : Prop :=
  ∃ es, (∀ e ∈ es, e.IsStep) ∧ run (Machine.next spawned main p) m es = some m'

variable {m m' m'' : Machine X R Argv}

theorem Machine.Reaches.trans (h : Reaches spawned p main m m') (h' : Reaches spawned p main m' m'') :
    Reaches spawned p main m m'' := by
  obtain ⟨es, hes, hrun⟩ := h
  obtain ⟨es', hes', hrun'⟩ := h'
  exact ⟨es ++ es', fun e he => (List.mem_append.1 he).elim (hes e) (hes' e), run_trans hrun hrun'⟩

/-- The program at a place of the machine goes on, and the others wait. -/
theorem Machine.reaches_of_goes {prog prog' : Prog X R} {fs fs' : Fs} (h : Prog.Goes spawned p prog fs prog' fs')
    (before after : List (Argv × Prog X R)) (argv : Argv) :
    Reaches spawned p main ⟨fs, before ++ (argv, prog) :: after⟩ ⟨fs', before ++ (argv, prog') :: after⟩ := by
  induction h with
  | here prog fs => exact ⟨[], by simp, rfl⟩
  | call o ho hs _ ih =>
    obtain ⟨es, hes, hrun⟩ := ih
    refine ⟨.step before.length o :: es, List.forall_mem_cons.2 ⟨ho, hes⟩, run_cons.2 ⟨_, ?_, hrun⟩⟩
    simp only [Machine.next, List.getElem?_append_right le_rfl, Nat.sub_self, List.getElem?_cons_zero, hs]
    simp

end

end McpBridge.Lib
