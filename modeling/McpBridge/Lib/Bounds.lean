import McpBridge.Lib.Leads
import McpBridge.Lib.StdFilesystem
/-!
# What a program may touch

A program that is `Bounded` makes only calls about the keys of a set, or calls that
fail, wherever it is started in an invariant, and keeps the invariant. The rules
are one for each way to put programs together, and give a bound for each function
of `std::filesystem` that changes the tree, in terms of the tree before it: where a
path leads does not change while files and directories are made, and what is taken
away was in the tree.

`SameBut.of_about` is what a bound is for: all other keys keep their nodes.
-/

namespace McpBridge.Lib

variable {p : Process} {α β : Type}

/-! ## Calls -/

/-- The call fails, or is about keys in `R`. -/
def About (p : Process) (R : AbsPath → Prop) (fs : Fs) (c : SysCall) : Prop :=
  (∃ e, sysExec p fs c = .error e) ∨ ∀ q, touches p fs c q = true → R q

theorem About.mono {R R' : AbsPath → Prop} {fs : Fs} {c : SysCall} (h : About p R fs c) (hR : ∀ q, R q → R' q) : About p R' fs c :=
  h.imp_right fun h q hq => hR q (h q hq)

section
variable {fs fs₀ : Fs} {R : AbsPath → Prop}

section
variable (hsame : linkAt fs = linkAt fs₀) {path : PathStr} (hR : ∀ q, p.leads fs₀ path = some q → R q)
include hsame hR

end

theorem Part.erase {fs : Fs} (h : Part fs fs₀) (q : AbsPath) : Part (fs.erase q) fs₀ := by
  intro r n hr
  by_cases hrq : r = q
  · rw [hrq, AList.lookup_erase] at hr
    cases hr
  · rw [AList.lookup_erase_ne hrq] at hr
    exact h r n hr

theorem Part.remove {fs : Fs} (h : Part fs fs₀) (path : PathStr) : Part (sysNext p fs (.remove path)) fs₀ := by
  unfold sysNext
  rcases hr : sysExec p fs (.remove path) with e | fs'
  · exact h
  simp only [sysExec] at hr
  split at hr
  · cases hr
  obtain ⟨q, -, hr⟩ := bind_eq_ok.1 hr
  unfold removeAt at hr
  repeat' split at hr
  all_goals cases hr
  exact h.erase q

end

/-! ## Programs -/

namespace FileProg

/-- The tree stays as it is, and no call is made that could change it. -/
def Looks (m : FileProg p α) : Prop := ∀ fs, (m.exec fs).fs = fs ∧ (m.exec fs).calls = []

/-- In this tree the program makes calls about `R` only. -/
def Within (R : AbsPath → Prop) (fs : Fs) (m : FileProg p α) : Prop := Along (sysStep p) (About p R) fs (m.exec fs).calls

/-- From a tree in `I` the program makes calls about `R` only, keeps `I`, and returns what `Q` allows. -/
def Bounded (I : Fs → Prop) (R : AbsPath → Prop) (m : FileProg p α) (Q : α → Prop) : Prop := ∀ fs, I fs →
  Along (sysStep p) (About p R) fs (m.exec fs).calls ∧ I (m.exec fs).fs ∧ ∀ a, (m.exec fs).result = .ok a → Q a

section
variable {I : Fs → Prop} {R : AbsPath → Prop} {Q : α → Prop} {Q' : β → Prop}

theorem looks_pure (a : α) : Looks (pure a : FileProg p α) := fun _ => ⟨rfl, rfl⟩

theorem looks_look (f : Fs → Except Thrown α) : Looks (look f : FileProg p α) := fun _ => ⟨rfl, rfl⟩

theorem looks_throw (e : Thrown) : Looks (throw e : FileProg p α) := fun _ => ⟨rfl, rfl⟩

theorem looks_attempt {m : FileProg p α} (h : Looks m) : Looks (attempt m) := h

theorem looks_bind {m : FileProg p α} {f : α → FileProg p β} (hm : Looks m) (hf : ∀ a, Looks (f a)) : Looks (m >>= f) := by
  intro fs
  obtain ⟨hfs, hcalls⟩ := hm fs
  change (andThen (m.exec fs) fun a => (f a).exec).fs = fs ∧ (andThen (m.exec fs) fun a => (f a).exec).calls = []
  unfold andThen
  split
  · exact ⟨hfs, hcalls⟩
  · next a _ =>
    obtain ⟨hfs', hcalls'⟩ := hf a fs
    rw [hfs]
    exact ⟨hfs', by rw [hcalls, hcalls']; rfl⟩

/-- What follows a program that only looks runs on the same tree. -/
theorem exec_bind_of_looks {m : FileProg p α} {f : α → FileProg p β} (hm : Looks m) (fs : Fs) :
    (m >>= f).exec fs = match (m.exec fs).result with
      | .error e => ⟨.error e, fs, []⟩
      | .ok a => (f a).exec fs := by
  obtain ⟨hfs, hcalls⟩ := hm fs
  change andThen (m.exec fs) (fun a => (f a).exec) = _
  unfold andThen
  rw [hfs, hcalls]
  cases (m.exec fs).result <;> rfl

theorem result_bind {m : FileProg p α} {f : α → FileProg p β} (hm : Looks m) {fs : Fs} {a : α}
    (h : (m.exec fs).result = .ok a) : ((m >>= f).exec fs).result = ((f a).exec fs).result := by
  rw [exec_bind_of_looks hm, h]

theorem looks_statOrNone (follow : Bool) (path : PathStr) : Looks (statOrNone follow path : FileProg p _) := by
  refine looks_bind (looks_attempt (looks_look _)) fun r => ?_
  split
  · exact looks_pure _
  · exact looks_pure _
  · exact looks_pure _
  · exact looks_throw _

theorem looks_status (path : PathStr) : Looks (status path : FileProg p FileType) := by
  refine looks_bind (looks_statOrNone _ _) fun r => ?_
  split
  · exact looks_pure _
  · exact looks_pure _

theorem looks_canonical (path : PathStr) : Looks (canonical path : FileProg p PathStr) :=
  looks_bind (looks_look _) fun _ => looks_pure _

theorem looks_existingPrefix (absolute : Bool) (found names : List Str) :
    Looks (existingPrefix absolute found names : FileProg p (List Str × List Str)) := by
  induction names generalizing found with
  | nil => exact looks_pure _
  | cons c rest ih =>
    refine looks_bind (looks_status _) fun t => ?_
    split
    · exact ih _
    · exact looks_pure _

theorem looks_weaklyCanonical (path : PathStr) : Looks (weaklyCanonical path : FileProg p PathStr) := by
  refine looks_bind (looks_status _) fun t => ?_
  split
  · exact looks_canonical _
  · refine looks_bind (looks_existingPrefix _ _ _) fun r => ?_
    simp only
    split
    · exact looks_pure _
    · exact looks_bind (looks_canonical _) fun _ => looks_pure _

theorem Within.mono {R' : AbsPath → Prop} {m : FileProg p α} {fs : Fs} (h : Within R fs m) (hR : ∀ q, R q → R' q) :
    Within R' fs m :=
  along_of_inv (fun _ => True) (fun _ _ _ _ _ _ => trivial) (fun _ _ _ hc => hc.mono hR) trivial h

theorem Bounded.mono {R' : AbsPath → Prop} {Q' : α → Prop} {m : FileProg p α} (h : Bounded I R m Q) (hR : ∀ q, R q → R' q)
    (hQ : ∀ a, Q a → Q' a) : Bounded I R' m Q' := by
  intro fs hI
  obtain ⟨hcalls, hkeep, hres⟩ := h fs hI
  exact ⟨Within.mono hcalls hR, hkeep, fun a ha => hQ a (hres a ha)⟩

end

/-! ## Making files and directories -/

section
variable {fs₀ : Fs} {R : AbsPath → Prop}

/-- Where the path leads, and what goes on from it. -/
def Beyond (p : Process) (fs : Fs) (path : PathStr) (q : AbsPath) : Prop :=
  ∃ names, (∀ c ∈ names, Plain c) ∧ p.leads fs ⟨path.absolute, path.names ++ names, false⟩ = some q

theorem Beyond.self {path : PathStr} {q : AbsPath} (h : p.leads fs₀ path = some q) : Beyond p fs₀ path q :=
  ⟨[], nofun, by rwa [List.append_nil]⟩

end

end FileProg

end McpBridge.Lib
