import McpBridge.Lib.Calls
/-!
# Directories only root changes

A directory is `Guarded` where root alone may write it, every directory on the way
to it, and the files in it. No call of another account then changes what its names
lead to (`Guarded.foreign`). Root finds a name in it where it is written
(`locate_way`), and can only change it by a call that names it.
-/

namespace McpBridge.Lib

/-! ## Who may write -/

/-- Root owns it, and neither the group nor others may write it. -/
def Attr.rootOnly (a : Attr) : Bool := a.owner = 0 && !a.mode.getLsbD 4 && !a.mode.getLsbD 1

/-- Only root can change the node, other than by its name. -/
def Node.guarded : Node → Bool
  | .file a _ => a.rootOnly
  | n => n.attr.owner = 0

theorem owner_of_guarded {n : Node} (h : n.guarded = true) : n.attr.owner = 0 := by
  cases n with
  | file a content =>
    simp only [Node.guarded, Attr.rootOnly, Bool.and_eq_true, decide_eq_true_eq] at h
    exact h.1.1
  | dir a => exact of_decide_eq_true h
  | link a target => exact of_decide_eq_true h

theorem not_may_write {who : Account} {a : Attr} (hwho : who.uid ≠ 0) (h : a.rootOnly = true) :
    who.may .write a = false := by
  simp only [Attr.rootOnly, Bool.and_eq_true, Bool.not_eq_true', decide_eq_true_eq] at h
  have hgroup : a.mode.getLsbD (3 + Access.write.bit) = false := h.1.2
  have hothers : a.mode.getLsbD Access.write.bit = false := h.2
  simp only [Account.may, hwho, h.1.1, hgroup, hothers, decide_false, if_false, ite_self, Bool.or_false]

/-- Root may do everything. -/
theorem root_may {who : Account} (hwho : who.uid = 0) (right : Access) (a : Attr) : who.may right a = true := by
  simp [Account.may, hwho]

structure Guarded (fs : Fs) (d : AbsPath) : Prop where
  way : ∀ q, q <+: d → ∃ a, fs.lookup q = some (.dir a) ∧ a.rootOnly = true
  inside : ∀ c n, fs.lookup (d ++ [c]) = some n → n.guarded = true

/-- Whether a directory is guarded can be looked up. -/
theorem guarded_iff {fs : Fs} {d : AbsPath} : Guarded fs d ↔
    (∀ q ∈ d.inits, (fs.lookup q).any (fun n => n.isDir && n.attr.rootOnly) = true) ∧
      ∀ e ∈ fs.entries, e.1 ≠ [] → e.1.dropLast = d → e.2.guarded = true := by
  constructor
  · intro h
    refine ⟨fun q hq => ?_, ?_⟩
    · obtain ⟨a, ha, hroot⟩ := h.way q ((List.mem_inits q d).1 hq)
      rw [ha]
      exact hroot
    · rintro ⟨q, n⟩ he hne rfl
      apply h.inside (q.getLast hne)
      rw [List.dropLast_append_getLast]
      exact Map.mem_entries.1 he
  · rintro ⟨hway, hinside⟩
    refine ⟨fun q hq => ?_, fun c n hn => ?_⟩
    · have hn := hway q ((List.mem_inits q d).2 hq)
      rcases hl : fs.lookup q with _ | n
      · rw [hl] at hn
        cases hn
      · rw [hl, Option.any_some, Bool.and_eq_true] at hn
        cases n with
        | dir a => exact ⟨a, rfl, hn.2⟩
        | file a s => cases hn.1
        | link a t => cases hn.1
    · exact hinside ⟨d ++ [c], n⟩ (Map.mem_entries.2 hn) (by simp) List.dropLast_concat

instance (fs : Fs) (d : AbsPath) : Decidable (Guarded fs d) := decidable_of_iff _ guarded_iff.symm

/-- The directory, what is on the way to it, and the names in it. -/
def Kept (d q : AbsPath) : Prop := q <+: d ∨ ∃ c, q = d ++ [c]

theorem Kept.of_prefix {d q r : AbsPath} (hq : Kept d q) (h : r <+: q) : Kept d r := by
  rcases hq with hq | ⟨c, rfl⟩
  · exact .inl (h.trans hq)
  · rcases List.prefix_concat_iff.1 h with rfl | h
    · exact .inr ⟨c, rfl⟩
    · exact .inl h

theorem Kept.dropLast {d q : AbsPath} (hq : Kept d q) : q.dropLast <+: d := by
  rcases hq with hq | ⟨c, rfl⟩
  · exact (List.dropLast_prefix q).trans hq
  · rw [List.dropLast_concat]

theorem Kept.not_prefix {d : AbsPath} {c c' : Str} (h : c' ≠ c) : ¬ d ++ [c'] <+: d ++ [c] := by
  intro hp
  rw [List.prefix_append_right_inj, List.cons_prefix_cons] at hp
  exact h hp.1

/-- Trees that agree on the kept keys are guarded alike. -/
theorem Guarded.congr {fs fs' : Fs} {d : AbsPath} (h : Guarded fs d)
    (hsame : ∀ q, Kept d q → fs'.lookup q = fs.lookup q) : Guarded fs' d where
  way q hq := by
    rw [hsame q (.inl hq)]
    exact h.way q hq
  inside c n hn := by
    rw [hsame _ (.inr ⟨c, rfl⟩)] at hn
    exact h.inside c n hn

theorem Guarded.insert_file {fs : Fs} {d : AbsPath} (h : Guarded fs d) {c : Str} {a : Attr} (s : Str)
    (ha : a.rootOnly = true) : Guarded (fs.insert (d ++ [c]) (.file a s)) d where
  way q hq := by
    rw [Map.lookup_insert_if, if_neg]
    · exact h.way q hq
    · rintro rfl
      exact absurd hq.length_le (by simp)
  inside c' n hn := by
    rw [Map.lookup_insert_if] at hn
    split at hn
    · cases hn
      exact ha
    · exact h.inside c' n hn

theorem Guarded.erase_name {fs : Fs} {d : AbsPath} (h : Guarded fs d) (c : Str) : Guarded (fs.erase (d ++ [c])) d where
  way q hq := by
    rw [Map.lookup_erase_if, if_neg]
    · exact h.way q hq
    · rintro rfl
      exact absurd hq.length_le (by simp)
  inside c' n hn := by
    rw [Map.lookup_erase_if] at hn
    split at hn
    · cases hn
    · exact h.inside c' n hn

/-! ## What others can do -/

section
variable {fs : Fs} {d : AbsPath} (h : Guarded fs d)
include h

theorem Guarded.guarded_of_kept {q : AbsPath} (hq : Kept d q) {n : Node} (hn : fs.lookup q = some n) :
    n.guarded = true := by
  rcases hq with hq | ⟨c, rfl⟩
  · obtain ⟨a, ha, hroot⟩ := h.way q hq
    rw [ha] at hn
    cases hn
    simp only [Attr.rootOnly, Bool.and_eq_true] at hroot
    exact hroot.1.1
  · exact h.inside c n hn

variable {who : Process} (hwho : who.uid ≠ 0)
include hwho

theorem Guarded.not_mayAdd {q : AbsPath} (hq : Kept d q) : who.mayAdd fs q = false := by
  obtain ⟨a, ha, hroot⟩ := h.way _ hq.dropLast
  simp [Process.mayAdd, ha, not_may_write hwho hroot]

theorem Guarded.not_mayUnlink {q : AbsPath} (hq : Kept d q) : who.mayUnlink fs q = false := by
  obtain ⟨a, ha, hroot⟩ := h.way _ hq.dropLast
  unfold Process.mayUnlink
  rw [ha]
  split
  · next hdir _ =>
    cases hdir
    simp [not_may_write hwho hroot]
  · rfl

theorem Guarded.not_mayWrite {q : AbsPath} (hq : Kept d q) {a : Attr} {s : Str} (hn : fs.lookup q = some (.file a s)) :
    who.may .write a = false := not_may_write hwho (h.guarded_of_kept hq hn)

theorem Guarded.not_owner {q : AbsPath} (hq : Kept d q) {n : Node} (hn : fs.lookup q = some n) :
    who.uid ≠ n.attr.owner := by
  rw [owner_of_guarded (h.guarded_of_kept hq hn)]
  exact hwho

end

section
variable {X : Type}

/-- What an account can have asked for: the open files it writes are files it may write. The programs
it runs make calls of their own. -/
def Call.Own (who : Process) (fs : Fs) : Call X → Prop
  | .sys (.write q _) | .pwrite q _ _ => ∃ a s, fs.lookup q = some (.file a s) ∧ who.may .write a = true
  | .spawn _ => False
  | _ => True

variable {fs fs' : Fs} {d : AbsPath} {who : Process}

theorem creatAt_kept (h : Guarded fs d) (hwho : who.uid ≠ 0) {r q : AbsPath} {mode : BitVec 12} (hq : Kept d q)
    (hr : creatAt who fs r mode = .ok fs') : fs'.lookup q = fs.lookup q := by
  have hne : Kept d r → False := by
    intro hk
    unfold creatAt at hr
    split at hr
    · next a s hn =>
      rw [h.not_mayWrite hwho hk hn] at hr
      cases hr
    · cases hr
    · cases hr
    · rw [h.not_mayAdd hwho hk] at hr
      cases hr
  have hoff : ¬ r <+: q := fun hp => hne (hq.of_prefix hp)
  unfold creatAt at hr
  repeat' split at hr
  all_goals cases hr
  all_goals exact lookup_insert_off hoff fs _

theorem chmodAt_kept (h : Guarded fs d) (hwho : who.uid ≠ 0) {r q : AbsPath} {mode : BitVec 12} (hq : Kept d q)
    (hr : chmodAt who fs r mode = .ok fs') : fs'.lookup q = fs.lookup q := by
  unfold chmodAt at hr
  split at hr
  · cases hr
  next n hn =>
  split at hr
  · next howner =>
    cases hr
    apply lookup_insert_off
    intro hp
    exact howner.elim hwho (h.not_owner hwho (hq.of_prefix hp) hn)
  · cases hr

/-- A renaming that is not refused takes a name away, and adds or replaces one. -/
theorem may_of_not_refused {s t : AbsPath} {trailing : Bool} {n : Node}
    (hr : renameRefused who fs s t trailing n = none) (hst : s ≠ t) :
    who.mayUnlink fs s = true ∧ (who.mayAdd fs t = true ∨ who.mayUnlink fs t = true) := by
  unfold renameRefused at hr
  grind

theorem renameAt_kept (h : Guarded fs d) (hwho : who.uid ≠ 0) {s t q : AbsPath} {trailing : Bool} (hq : Kept d q)
    (hr : renameAt who fs s t trailing = .ok fs') : fs'.lookup q = fs.lookup q := by
  unfold renameAt at hr
  split at hr
  · cases hr
  next n hs =>
  split at hr
  · cases hr
  next hnot =>
  cases hr
  by_cases hst : s = t
  · rw [if_pos hst]
  rw [if_neg hst]
  -- Neither end can be at or above a kept key.
  obtain ⟨hsrc, hdst⟩ := may_of_not_refused hnot hst
  have hoffs : ¬ s <+: q := by
    intro hp
    rw [h.not_mayUnlink hwho (hq.of_prefix hp)] at hsrc
    cases hsrc
  have hofft : ¬ t <+: q := by
    intro hp
    have hk := hq.of_prefix hp
    rw [h.not_mayAdd hwho hk, h.not_mayUnlink hwho hk] at hdst
    rcases hdst with hdst | hdst <;> cases hdst
  have hT : ∀ r, ((s.isPrefixOf r && (fs.lookup r).isSome) || r = t ||
      (t.isPrefixOf r && (fs.lookup (s ++ r.drop t.length)).isSome)) = true → decide (s <+: r ∨ t <+: r) = true := by
    intro r hr
    simp only [Bool.or_eq_true, Bool.and_eq_true, List.isPrefixOf_iff_prefix, decide_eq_true_eq] at hr
    rcases hr with (⟨hr, -⟩ | rfl) | ⟨hr, -⟩
    · exact decide_eq_true (.inl hr)
    · exact decide_eq_true (.inr List.prefix_rfl)
    · exact decide_eq_true (.inr hr)
  exact (sameBut_moveTree hT).lookup (decide_eq_false fun ho => ho.elim hoffs hofft)

theorem sysExec_kept (h : Guarded fs d) (hwho : who.uid ≠ 0) {c : SysCall} (hown : (Call.sys c : Call X).Own who fs)
    {q : AbsPath} (hq : Kept d q) (hc : sysExec who fs c = .ok fs') : fs'.lookup q = fs.lookup q := by
  cases c with
  | creat path mode =>
    obtain ⟨r, -, hr⟩ := bind_eq_ok.1 hc
    exact creatAt_kept h hwho hq hr
  | write r data =>
    obtain ⟨a, s, hn, hmay⟩ := hown
    simp only [sysExec, writeAt, hn, Except.ok.injEq] at hc
    subst hc
    apply lookup_insert_off
    intro hp
    rw [h.not_mayWrite hwho (hq.of_prefix hp) hn] at hmay
    cases hmay
  | chmod path mode =>
    obtain ⟨r, -, hr⟩ := bind_eq_ok.1 hc
    exact chmodAt_kept h hwho hq hr
  | fchmod r mode => exact chmodAt_kept h hwho hq hc
  | mkdir path mode =>
    obtain ⟨r, -, hr⟩ := bind_eq_ok.1 hc
    unfold mkdirAt at hr
    repeat' split at hr
    all_goals cases hr
    next hadd =>
    apply lookup_insert_off
    intro hp
    rw [h.not_mayAdd hwho (hq.of_prefix hp)] at hadd
    cases hadd
  | remove path =>
    simp only [sysExec] at hc
    split at hc
    · cases hc
    obtain ⟨r, -, hr⟩ := bind_eq_ok.1 hc
    unfold removeAt at hr
    repeat' split at hr
    all_goals cases hr
    next hmay _ =>
    apply lookup_erase_off
    intro hp
    rw [h.not_mayUnlink hwho (hq.of_prefix hp)] at hmay
    exact hmay rfl
  | rename src dst =>
    simp only [sysExec] at hc
    split at hc
    · cases hc
    obtain ⟨s, -, hc⟩ := bind_eq_ok.1 hc
    obtain ⟨t, -, hc⟩ := bind_eq_ok.1 hc
    exact renameAt_kept h hwho hq hc

/-- No call of another account changes what the names of a guarded directory lead to. -/
theorem Guarded.foreign (h : Guarded fs d) (hwho : who.uid ≠ 0)
    (spawned : Process → X → Outcome → Fs → (Int × Str) × Fs) (o : Outcome) {c : Call X} (hown : c.Own who fs)
    {q : AbsPath} (hq : Kept d q) : (serve spawned who o fs c).2.lookup q = fs.lookup q := by
  have hc : c.isSpawn = false := by
    cases c with
    | spawn x => exact absurd hown id
    | _ => rfl
  rcases serve_effect spawned o fs hc with he | he
  · rw [he]
  generalize (serve spawned who o fs c).2 = fs' at he
  cases c with
  | sys c => exact sysExec_kept h hwho hown hq he
  | openTrunc path mode =>
    obtain ⟨r, -, hr⟩ := bind_eq_ok.1 he
    exact creatAt_kept h hwho hq hr
  | openCreate path mode =>
    obtain ⟨r, -, hr⟩ := bind_eq_ok.1 he
    obtain ⟨⟨a, fs''⟩, hr, hret⟩ := bind_eq_ok.1 hr
    cases hret
    unfold openCreateAt at hr
    repeat' split at hr
    all_goals cases hr
    · rfl
    · next hadd =>
      apply lookup_insert_off
      intro hp
      rw [h.not_mayAdd hwho (hq.of_prefix hp)] at hadd
      cases hadd
  | pwrite r off data =>
    obtain ⟨⟨a, fs''⟩, hr, hret⟩ := bind_eq_ok.1 he
    cases hret
    obtain ⟨a, s, hn, hmay⟩ := hown
    simp only [pwriteAt, hn, Except.ok.injEq, Prod.mk.injEq] at hr
    obtain ⟨-, rfl⟩ := hr
    apply lookup_insert_off
    intro hp
    rw [h.not_mayWrite hwho (hq.of_prefix hp) hn] at hmay
    cases hmay
  | chown path uid gid =>
    obtain ⟨r, -, hr⟩ := bind_eq_ok.1 he
    unfold chownAt at hr
    split at hr
    · cases hr
    next n hn =>
    split at hr
    · next hmay =>
      cases hr
      apply lookup_insert_off
      intro hp
      exact hmay.elim hwho fun hm => h.not_owner hwho (hq.of_prefix hp) hn hm.1
    · cases hr
  | unlink path =>
    obtain ⟨r, -, hr⟩ := bind_eq_ok.1 he
    unfold unlinkAt at hr
    repeat' split at hr
    all_goals cases hr
    next hmay =>
    apply lookup_erase_off
    intro hp
    rw [h.not_mayUnlink hwho (hq.of_prefix hp)] at hmay
    cases hmay
  | symlink target path =>
    obtain ⟨r, -, hr⟩ := bind_eq_ok.1 he
    unfold symlinkAt at hr
    repeat' split at hr
    all_goals cases hr
    next hadd =>
    apply lookup_insert_off
    intro hp
    rw [h.not_mayAdd hwho (hq.of_prefix hp)] at hadd
    cases hadd
  | spawn x => cases hc
  | _ =>
    cases he
    rfl

end

/-! ## Where names lead -/

/-- A walk along directories comes to the last name. -/
theorem walk_along (who : Account) (follow : Bool) (fs : Fs) (base : AbsPath) (cs : List Str) (c : Str)
    (hplain : ∀ x ∈ cs, Plain x)
    (hdirs : ∀ q, q <+: cs → ∃ a, fs.lookup (base ++ q) = some (.dir a) ∧ who.may .search a = true) :
    (walk who follow fs base (cs ++ [c])).2 = (walk who follow fs (base ++ cs) [c]).2 := by
  induction cs generalizing base with
  | nil => rw [List.append_nil, List.nil_append]
  | cons x cs ih =>
    obtain ⟨a, ha, hmay⟩ := hdirs [] (List.nil_prefix)
    obtain ⟨b, hb, -⟩ := hdirs [x] (by simp)
    obtain ⟨hdot, hdotdot⟩ := hplain x List.mem_cons_self
    rw [List.append_nil] at ha
    have hstep : (walk who follow fs base (x :: cs ++ [c])).2 = (walk who follow fs (base ++ [x]) (cs ++ [c])).2 := by
      simp only [List.cons_append, walk, ha, hmay, Bool.not_true, Bool.false_eq_true, if_false, if_neg hdot, if_neg hdotdot, hb]
    have happend : ∀ q : List Str, base ++ x :: q = base ++ [x] ++ q := by simp
    rw [hstep, happend cs]
    apply ih (base ++ [x]) fun y hy => hplain y (List.mem_cons_of_mem _ hy)
    intro q hq
    rw [← happend q]
    exact hdirs (x :: q) (by simpa using hq)

section
variable {p : Process} {fs : Fs} {d : AbsPath} {c : Str} (hplain : ∀ x ∈ d ++ [c], Plain x)
  (hway : ∀ q, q <+: d → ∃ a, fs.lookup q = some (.dir a) ∧ p.may .search a = true)
include hplain hway

/-- The names as they are written, where there are directories on the way and no link to follow. -/
theorem resolve_way (follow : Bool) (links : Nat) (hlast : follow = false ∨ ∀ a t, fs.lookup (d ++ [c]) ≠ some (.link a t)) :
    (resolve p.toAccount follow fs links [] (d ++ [c])).2 = .ok (d ++ [c]) := by
  have hwalk := walk_along p.toAccount follow fs [] d c
    (fun x hx => hplain x (List.mem_append_left _ hx)) (fun q hq => by simpa using hway q hq)
  obtain ⟨a, ha, hmay⟩ := hway d List.prefix_rfl
  obtain ⟨hdot, hdotdot⟩ := hplain c (by simp)
  have hend : (walk p.toAccount follow fs d [c]).2 = .arrived (d ++ [c]) := by
    simp only [walk, ha, hmay, Bool.not_true, Bool.false_eq_true, if_false, if_neg hdot, if_neg hdotdot]
    split
    · next a' t hlink =>
      rcases hlast with rfl | hlast
      · rw [if_pos ⟨trivial, rfl⟩]
      · exact absurd hlink (hlast a' t)
    · rfl
    · simp
  rw [List.nil_append, hend] at hwalk
  unfold resolve
  split
  · next h =>
    rw [h] at hwalk
    cases hwalk
    rfl
  · next h =>
    rw [h] at hwalk
    cases hwalk
  · next h =>
    rw [h] at hwalk
    cases hwalk

theorem locate_way (follow : Bool) (hlast : follow = false ∨ ∀ a t, fs.lookup (d ++ [c]) ≠ some (.link a t)) :
    (p.locate follow fs ⟨true, d ++ [c], false⟩).2 = .ok (d ++ [c]) := by
  unfold Process.locate
  simp only [Bool.true_eq_false, and_false, if_false, if_true, PathStr.steps, Bool.false_eq_true]
  exact resolve_way hplain hway follow maxLinks hlast

/-- A link at the end leads to where its own path does. -/
theorem locate_link {a : Attr} {target : Str} (hlink : fs.lookup (d ++ [c]) = some (.link a target)) {d' : AbsPath} {c' : Str}
    (htarget : PathStr.parse target = ⟨true, d' ++ [c'], false⟩) (hplain' : ∀ x ∈ d' ++ [c'], Plain x)
    (hway' : ∀ q, q <+: d' → ∃ a, fs.lookup q = some (.dir a) ∧ p.may .search a = true)
    (hlast : ∀ a t, fs.lookup (d' ++ [c']) ≠ some (.link a t)) :
    (p.locate true fs ⟨true, d ++ [c], false⟩).2 = .ok (d' ++ [c']) := by
  have hwalk := walk_along p.toAccount true fs [] d c
    (fun x hx => hplain x (List.mem_append_left _ hx)) (fun q hq => by simpa using hway q hq)
  obtain ⟨b, hb, hmay⟩ := hway d List.prefix_rfl
  obtain ⟨hdot, hdotdot⟩ := hplain c (by simp)
  have hend : (walk p.toAccount true fs d [c]).2 = .link d target [] := by
    simp only [walk, hb, hmay, hlink, Bool.not_true, Bool.false_eq_true, if_false, if_neg hdot, if_neg hdotdot]
    simp
  rw [List.nil_append, hend] at hwalk
  have hnext := resolve_way hplain' hway' true 39 (.inr hlast)
  unfold Process.locate
  simp only [Bool.true_eq_false, and_false, if_false, if_true, PathStr.steps, Bool.false_eq_true]
  unfold maxLinks resolve
  split
  · next h =>
    rw [h] at hwalk
    cases hwalk
  · next h =>
    rw [h] at hwalk
    cases hwalk
  · next h =>
    rw [h] at hwalk
    cases hwalk
    simp only [htarget, PathStr.steps, if_true, Bool.false_eq_true, if_false, List.append_nil]
    exact hnext

end

/-- In a guarded directory root finds a name where it is written. -/
theorem Guarded.locate {p : Process} (hp : p.uid = 0) (follow : Bool) {fs : Fs} {d : AbsPath} {c : Str} (h : Guarded fs d)
    (hplain : ∀ x ∈ d ++ [c], Plain x) (hlast : follow = false ∨ ∀ a t, fs.lookup (d ++ [c]) ≠ some (.link a t)) :
    (p.locate follow fs ⟨true, d ++ [c], false⟩).2 = .ok (d ++ [c]) :=
  locate_way hplain (fun q hq => (h.way q hq).imp fun _ ha => ⟨ha.1, root_may hp _ _⟩) follow hlast

/-! ## What root does to a name -/

/-- A file is there, or nothing is. -/
def FileOrNone (fs : Fs) (q : AbsPath) : Prop := ∀ n, fs.lookup q = some n → ∃ a s, n = .file a s

instance (fs : Fs) (q : AbsPath) : Decidable (FileOrNone fs q) :=
  match h : fs.lookup q with
  | none => .isTrue fun n hn => by rw [h] at hn; cases hn
  | some (.file a s) => .isTrue fun n hn => ⟨a, s, by rw [h] at hn; cases hn; rfl⟩
  | some (.dir a) => .isFalse fun hf => by obtain ⟨_, _, hn⟩ := hf _ h; cases hn
  | some (.link a t) => .isFalse fun hf => by obtain ⟨_, _, hn⟩ := hf _ h; cases hn

/-- The names that move are those at and under the source. -/
theorem lookup_moveTree {src dst : AbsPath} {fs : Fs} {n : Node} (hn : fs.lookup src = some n) :
    (moveTree src dst fs).lookup dst = some n := by
  have hfold : ∀ (l : List (Sigma fun _ : AbsPath => Node)) (m : Fs),
      (∀ e ∈ l, dst ++ e.1.drop src.length = dst → e.2 = n) →
      ((∃ e ∈ l, dst ++ e.1.drop src.length = dst) ∨ m.lookup dst = some n) →
      (l.foldl (fun m e => m.insert (dst ++ e.1.drop src.length) e.2) m).lookup dst = some n := by
    intro l
    induction l with
    | nil => exact fun m _ h => h.resolve_left (by simp)
    | cons e l ih =>
      intro m hall h
      apply ih _ fun e' he' => hall e' (List.mem_cons_of_mem _ he')
      rw [Map.lookup_insert_if]
      by_cases he : dst ++ e.1.drop src.length = dst
      · rw [if_pos he.symm, hall e List.mem_cons_self he]
        exact .inr rfl
      · rw [if_neg (Ne.symm he)]
        rcases h with ⟨e', hmem, he'⟩ | h
        · rcases List.mem_cons.1 hmem with rfl | hmem
          · exact absurd he' he
          · exact .inl ⟨e', hmem, he'⟩
        · exact .inr h
  have hmem : (⟨src, n⟩ : Sigma fun _ : AbsPath => Node) ∈ fs.entries.filter fun e => src.isPrefixOf e.1 :=
    List.mem_filter.2 ⟨Map.mem_entries.2 hn, List.isPrefixOf_iff_prefix.2 List.prefix_rfl⟩
  refine hfold _ _ ?_ (.inl ⟨_, hmem, by simp⟩)
  rintro ⟨q, m⟩ he hq
  obtain ⟨he, hp⟩ := List.mem_filter.1 he
  obtain ⟨r, rfl⟩ := List.isPrefixOf_iff_prefix.1 hp
  -- Only the source itself goes to the destination.
  rw [List.drop_left] at hq
  obtain rfl := List.append_right_eq_self.1 hq
  have hm := Map.mem_entries.1 he
  rw [List.append_nil, hn] at hm
  exact (Option.some.inj hm).symm

theorem lookup_moveTree_src {src dst : AbsPath} {fs : Fs} (hd : ¬ dst <+: src) : (moveTree src dst fs).lookup src = none := by
  have hfold : ∀ (l : List (Sigma fun _ : AbsPath => Node)) (m : Fs), m.lookup src = none →
      (l.foldl (fun m e => m.insert (dst ++ e.1.drop src.length) e.2) m).lookup src = none := by
    intro l
    induction l with
    | nil => exact fun m h => h
    | cons e l ih =>
      intro m h
      apply ih
      rw [Map.lookup_insert_if, if_neg, h]
      rintro heq
      exact hd ⟨_, heq.symm⟩
  apply hfold
  rw [Map.lookup_keep]
  have hsrc : src.isPrefixOf src = true := List.isPrefixOf_iff_prefix.2 List.prefix_rfl
  rcases fs.lookup src with _ | n
  · rfl
  · simp [hsrc]

/-- Root renames what is no directory within a directory, unless a directory has the new name. -/
theorem rename_root {p : Process} (hp : p.uid = 0) {fs : Fs} {d : AbsPath} {c c' : Str} (hplain : ∀ x ∈ d ++ [c], Plain x)
    (hplain' : ∀ x ∈ d ++ [c'], Plain x) (hloc : (p.locate false fs ⟨true, d ++ [c], false⟩).2 = .ok (d ++ [c]))
    (hloc' : (p.locate false fs ⟨true, d ++ [c'], false⟩).2 = .ok (d ++ [c'])) {a : Attr} (hd : fs.lookup d = some (.dir a))
    (hne : c ≠ c') {n : Node} (hn : fs.lookup (d ++ [c]) = some n) (hfile : n.isDir = false) :
    ((∃ a, fs.lookup (d ++ [c']) = some (.dir a)) ∧
      sysExec p fs (.rename ⟨true, d ++ [c], false⟩ ⟨true, d ++ [c'], false⟩) = .error .isdir) ∨
    ∃ fs', sysExec p fs (.rename ⟨true, d ++ [c], false⟩ ⟨true, d ++ [c'], false⟩) = .ok fs' ∧
      fs'.lookup (d ++ [c']) = some n ∧ fs'.lookup (d ++ [c]) = none ∧
      ∀ q, ¬ d ++ [c] <+: q → ¬ d ++ [c'] <+: q → fs'.lookup q = fs.lookup q := by
  have hdots : ∀ {c : Str}, (∀ x ∈ d ++ [c], Plain x) → PathStr.endsInDots ⟨true, d ++ [c], false⟩ = false := by
    intro c hc
    obtain ⟨hdot, hdotdot⟩ := hc c (by simp)
    simp [PathStr.endsInDots, hdot, hdotdot]
  have hmay : ∀ {c : Str} {n : Node}, fs.lookup (d ++ [c]) = some n → p.mayUnlink fs (d ++ [c]) = true := by
    intro c n hn
    unfold Process.mayUnlink
    rw [List.dropLast_concat, hd, hn]
    simp [root_may hp, hp]
  have hadd : p.mayAdd fs (d ++ [c']) = true := by
    unfold Process.mayAdd
    rw [List.dropLast_concat, hd]
    simp [root_may hp]
  have hneq : d ++ [c] ≠ d ++ [c'] := fun heq => hne (by simpa using heq)
  have hpre : (d ++ [c]).isPrefixOf (d ++ [c']) = false := by
    rw [Bool.eq_false_iff]
    exact fun hp => Kept.not_prefix hne (List.isPrefixOf_iff_prefix.1 hp)
  have hrefused : renameRefused p fs (d ++ [c]) (d ++ [c']) false n =
      if (fs.lookup (d ++ [c'])).any (·.isDir) then some .isdir else none := by
    unfold renameRefused
    rw [if_neg (by simp), if_neg (by simp), if_neg hneq, hpre, hmay hn, hfile]
    rcases ht : fs.lookup (d ++ [c']) with _ | t
    · simp [hadd]
    · rcases hdir : t.isDir <;> simp [hmay ht, hdir]
  have hr : sysExec p fs (.rename ⟨true, d ++ [c], false⟩ ⟨true, d ++ [c'], false⟩) =
      if (fs.lookup (d ++ [c'])).any (·.isDir) then .error .isdir else .ok (moveTree (d ++ [c]) (d ++ [c']) fs) := by
    simp only [sysExec, hdots hplain, hdots hplain', Bool.or_false, Bool.false_eq_true, if_false]
    unfold Process.entry
    rw [hloc, hloc']
    show renameAt p fs (d ++ [c]) (d ++ [c']) false = _
    unfold renameAt
    simp only [hn, hrefused]
    cases (fs.lookup (d ++ [c'])).any (·.isDir) <;> simp [hneq]
  rw [hr]
  rcases ht : fs.lookup (d ++ [c']) with _ | (⟨b, s⟩ | b | ⟨b, t⟩)
  case some.dir => exact .inl ⟨⟨b, rfl⟩, rfl⟩
  all_goals
    right
    refine ⟨_, rfl, lookup_moveTree hn, lookup_moveTree_src (Kept.not_prefix (Ne.symm hne)), fun q hq hq' => ?_⟩
    apply sysExec_lookup_apart (X := Unit) (p := p) (c := .rename ⟨true, d ++ [c], false⟩ ⟨true, d ++ [c'], false⟩)
    · rw [hr, ht]
      rfl
    · refine ⟨?_, List.not_mem_nil⟩
      intro path hpath r hlr
      simp only [Call.paths, List.mem_cons, List.not_mem_nil, or_false] at hpath
      rcases hpath with rfl | rfl
      · rwa [← Except.ok.inj (hloc.symm.trans hlr)]
      · rwa [← Except.ok.inj (hloc'.symm.trans hlr)]

section
variable {X : Type} (spawned : Process → X → Outcome → Fs → (Int × Str) × Fs) {p : Process} (hp : p.uid = 0)
variable {fs : Fs} {d : AbsPath} (h : Guarded fs d) (o : Outcome)
include hp h

theorem Guarded.root_mayAdd (c : Str) : p.mayAdd fs (d ++ [c]) = true := by
  obtain ⟨a, ha, -⟩ := h.way d List.prefix_rfl
  unfold Process.mayAdd
  rw [List.dropLast_concat, ha]
  simp [root_may hp]

theorem Guarded.root_mayUnlink {c : Str} {n : Node} (hn : fs.lookup (d ++ [c]) = some n) :
    p.mayUnlink fs (d ++ [c]) = true := by
  obtain ⟨a, ha, -⟩ := h.way d List.prefix_rfl
  unfold Process.mayUnlink
  rw [List.dropLast_concat, ha, hn]
  simp [root_may hp, hp]

/-- A file that is opened is empty, and only root may write it. Only what is no file keeps it from being opened. -/
theorem Guarded.serve_openTrunc {c : Str} (hplain : ∀ x ∈ d ++ [c], Plain x) {mode : BitVec 12}
    (hmode : (p.attr mode).rootOnly = true) :
    (∃ e, (o.errno = none → ¬ FileOrNone fs (d ++ [c])) ∧
      serve spawned p o fs (.openTrunc ⟨true, d ++ [c], false⟩ mode) = (Except.error e, fs)) ∨
    ∃ a, a.rootOnly = true ∧ serve spawned p o fs (.openTrunc ⟨true, d ++ [c], false⟩ mode) =
      (Except.ok (d ++ [c]), fs.insert (d ++ [c]) (.file a [])) := by
  have hloc := h.locate hp false hplain (.inl rfl)
  have hr : (do
      let q ← (p.locate false fs ⟨true, d ++ [c], false⟩).2
      return (q, ← creatAt p fs q mode)) = (creatAt p fs (d ++ [c]) mode).map (d ++ [c], ·) := by
    rw [hloc]
    rfl
  have hserve : serve spawned p o fs (.openTrunc ⟨true, d ++ [c], false⟩ mode) =
      o.answer fs ((creatAt p fs (d ++ [c]) mode).map (d ++ [c], ·)) := congrArg (o.answer fs) hr
  rw [hserve]
  rcases answer_cases o fs ((creatAt p fs (d ++ [c]) mode).map (d ++ [c], ·)) with ⟨e, hwhy, he⟩ | ⟨q, fs', hr, he⟩
  · refine .inl ⟨e, fun ho hfile => ?_, he⟩
    have hwhy := hwhy.resolve_left (by rw [ho]; rintro ⟨⟩)
    unfold creatAt at hwhy
    rcases hn : fs.lookup (d ++ [c]) with _ | n
    · simp only [hn, h.root_mayAdd hp, if_true] at hwhy
      cases hwhy
    · obtain ⟨a, s, rfl⟩ := hfile n hn
      simp only [hn, root_may hp, if_true] at hwhy
      cases hwhy
  · right
    unfold creatAt at hr
    split at hr
    · next a s hn =>
      split at hr <;> cases hr
      exact ⟨a, h.inside c _ hn, he⟩
    · cases hr
    · cases hr
    · split at hr <;> cases hr
      exact ⟨_, hmode, he⟩

/-- What is there and no directory is taken away. -/
theorem Guarded.serve_unlink {c : Str} (hplain : ∀ x ∈ d ++ [c], Plain x) :
    (∃ e, (o.errno = none → (e = .noent ∧ fs.lookup (d ++ [c]) = none) ∨ ∃ a, fs.lookup (d ++ [c]) = some (.dir a)) ∧
      serve spawned p o fs (.unlink ⟨true, d ++ [c], false⟩) = (Except.error e, fs)) ∨
    serve spawned p o fs (.unlink ⟨true, d ++ [c], false⟩) = (Except.ok (), fs.erase (d ++ [c])) := by
  have hloc := h.locate hp false hplain (.inl rfl)
  have hr : (do unlinkAt p fs (← (p.locate false fs ⟨true, d ++ [c], false⟩).2)) = unlinkAt p fs (d ++ [c]) := by
    rw [hloc]
    rfl
  have hserve : serve spawned p o fs (.unlink ⟨true, d ++ [c], false⟩) = o.answer fs (unit (unlinkAt p fs (d ++ [c]))) :=
    congrArg (fun r => o.answer fs (unit r)) hr
  rw [hserve]
  rcases answer_cases o fs (unit (unlinkAt p fs (d ++ [c]))) with ⟨e, hwhy, he⟩ | ⟨q, fs', hr, he⟩
  · refine .inl ⟨e, fun ho => ?_, he⟩
    have hwhy := hwhy.resolve_left (by rw [ho]; rintro ⟨⟩)
    unfold unlinkAt at hwhy
    rcases hn : fs.lookup (d ++ [c]) with _ | n
    · rw [hn] at hwhy
      cases hwhy
      exact .inl ⟨rfl, rfl⟩
    · simp only [hn, h.root_mayUnlink hp hn, if_true] at hwhy
      cases n with
      | dir a => exact .inr ⟨a, rfl⟩
      | file a s => cases hwhy
      | link a t => cases hwhy
  · right
    have hun := unit_eq_ok hr
    unfold unlinkAt at hun
    repeat' split at hun
    all_goals cases hun
    exact he

theorem Guarded.serve_chown {c : Str} (hplain : ∀ x ∈ d ++ [c], Plain x) {a : Attr} {s : Str}
    (hn : fs.lookup (d ++ [c]) = some (.file a s)) (uid gid : Nat) :
    (∃ e, o.errno ≠ none ∧ serve spawned p o fs (.chown ⟨true, d ++ [c], false⟩ uid gid) = (Except.error e, fs)) ∨
    serve spawned p o fs (.chown ⟨true, d ++ [c], false⟩ uid gid) =
      (Except.ok (), fs.insert (d ++ [c]) ((Node.file a s).setOwner uid gid)) := by
  have hloc := h.locate hp true hplain (.inr fun _ _ => by rw [hn]; rintro ⟨⟩)
  have hr : (do chownAt p fs (← (p.locate true fs ⟨true, d ++ [c], false⟩).2) uid gid) =
      .ok (fs.insert (d ++ [c]) ((Node.file a s).setOwner uid gid)) := by
    rw [hloc]
    show chownAt p fs (d ++ [c]) uid gid = _
    unfold chownAt
    rw [hn]
    simp only [hp, true_or, if_true]
  have hserve : serve spawned p o fs (.chown ⟨true, d ++ [c], false⟩ uid gid) =
      o.answer fs (unit (.ok (fs.insert (d ++ [c]) ((Node.file a s).setOwner uid gid)))) :=
    congrArg (fun r => o.answer fs (unit r)) hr
  rw [hserve]
  exact answer_of_ok o rfl

/-- What is no directory takes the name it is renamed to, and nothing else changes. -/
theorem Guarded.serve_rename {c c' : Str} (hplain : ∀ x ∈ d ++ [c], Plain x) (hplain' : ∀ x ∈ d ++ [c'], Plain x)
    (hne : c ≠ c') {n : Node} (hn : fs.lookup (d ++ [c]) = some n) (hfile : n.isDir = false) :
    (∃ e, (o.errno = none → ∃ a, fs.lookup (d ++ [c']) = some (.dir a)) ∧
      serve spawned p o fs (.sys (.rename ⟨true, d ++ [c], false⟩ ⟨true, d ++ [c'], false⟩)) = (Except.error e, fs)) ∨
    ∃ fs', serve spawned p o fs (.sys (.rename ⟨true, d ++ [c], false⟩ ⟨true, d ++ [c'], false⟩)) = (Except.ok (), fs') ∧
      fs'.lookup (d ++ [c']) = some n ∧ fs'.lookup (d ++ [c]) = none ∧
      ∀ q, ¬ d ++ [c] <+: q → ¬ d ++ [c'] <+: q → fs'.lookup q = fs.lookup q := by
  have hloc := h.locate hp false hplain (.inl rfl)
  have hloc' := h.locate hp false hplain' (.inl rfl)
  obtain ⟨a, ha, -⟩ := h.way d List.prefix_rfl
  rcases rename_root hp hplain hplain' hloc hloc' ha hne hn hfile with hdir | ⟨fs', hr, hrest⟩
  · unfold serve
    rcases answer_cases o fs (unit (sysExec p fs (.rename ⟨true, d ++ [c], false⟩ ⟨true, d ++ [c'], false⟩))) with
      ⟨e, -, he⟩ | ⟨_, fs', hok, -⟩
    · exact .inl ⟨e, fun _ => hdir.1, he⟩
    · have hok := unit_eq_ok hok
      rw [hdir.2] at hok
      cases hok
  · unfold serve
    rcases answer_of_ok o (show unit (sysExec p fs _) = .ok ((), fs') by rw [hr]; rfl) with ⟨e, ho, he⟩ | he
    · exact .inl ⟨e, fun hnone => absurd hnone ho, he⟩
    · exact .inr ⟨fs', he, hrest⟩

end

end McpBridge.Lib
