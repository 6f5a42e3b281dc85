import McpBridge.Priv.Commands
/-!
# What reaches the sudoers directory (`priv/main.c`)

Helpers run one call at a time, interleaved with each other, with the daemon and with
the tenants. They can be killed at any point, and the spec files hold what the daemon
wants. `sudoers_vetted` is that every file sudo reads is then as it was, or is a grant
or the entry of the system administrator that passed the helper's check and `visudo`.

Two conditions are needed. No two helpers stage the same file (`same_grant_mixes` in
`Priv.Mixing` is why), and the paths in the state directories lead where they are
written (`write_runtime_takes_over` in `Priv.Takeover` is why).
-/

open McpBridge.Lib
open McpBridge.Grants (validShortid validGrantid specWellFormed IsFullAdminSpec prefixA wildcardTail specWellFormed_shape)

namespace McpBridge.Priv

/-! ## What is vetted -/

/-- Sudo skips names with a dot in them, and those that end in `~`. -/
def sudoReads (name : Str) : Bool := !name.contains (ch '.') && name.getLast? ≠ some (ch '~')

def adminFinal : Str := lit "mcp_system_admin"

def adminTmp : Str := lit ".mcp_system_admin.tmp"

/-- The helper may have put the file under this name. -/
inductive Vetted (visudo : Str → Bool) : Str → Option Node → Prop
  | noGrant {grantid : Str} (hid : validGrantid grantid = true) : Vetted visudo (grantFinal grantid) none
  | noAdmin : Vetted visudo adminFinal none
  | grant {grantid spec : Str} {a : Attr} (hid : validGrantid grantid = true) (hspec : specWellFormed spec = true)
      (hroot : a.owner = 0 ∧ a.group = 0) (hvisudo : visudo spec = true) :
      Vetted visudo (grantFinal grantid) (some (.file a spec))
  | admin {spec : Str} {a : Attr} (hspec : IsFullAdminSpec spec) (hroot : a.owner = 0 ∧ a.group = 0)
      (hvisudo : visudo spec = true) : Vetted visudo adminFinal (some (.file a spec))

/-- What the helpers keep of the sudoers directory, where `before` is what its names led to at first. -/
structure Intact (visudo : Str → Bool) (D : Dirs) (before : Str → Option Node) (fs : Fs) : Prop where
  guarded : Guarded fs D.sudoersDir
  entries : ∀ c, sudoReads c = true → fs.lookup (D.sudoersDir ++ [c]) = before c ∨
    Vetted visudo c (fs.lookup (D.sudoersDir ++ [c]))

/-- A name in the sudoers directory that sudo skips, under which a helper stages a file. -/
def Staged (D : Dirs) (q : AbsPath) : Prop := ∃ c, q = D.sudoersDir ++ [c] ∧ ch '.' ∈ c

/-- The paths the call changes, other than in the sudoers directory, lead where they are written. -/
def Straight (D : Dirs) (p : Process) (fs : Fs) (c : Call Tool) : Prop :=
  (∀ path ∈ c.paths, path.2.names.dropLast ≠ D.sudoersDir → ∀ q, (p.locate path.1 fs path.2).2 = .ok q → q = path.2.names) ∧
    ∀ path, c = .spawn (.rm path) → ∀ q, p.entry fs path = .ok q → q = path.names

/-- The file a helper stages. -/
def stageOf (D : Dirs) : List Str → Option AbsPath
  | [sub, arg] =>
    if sub = lit "install-grant" ∧ validGrantid arg = true then some (D.sudoersDir ++ [grantTmp arg])
    else if sub = lit "install-system-admin" ∧ validShortid arg = true then some (D.sudoersDir ++ [adminTmp])
    else none
  | _ => none

theorem dot_mem_grantTmp (grantid : Str) : ch '.' ∈ grantTmp grantid := by
  unfold grantTmp
  rw [List.append_assoc]
  exact List.mem_append_left _ (by decide)

theorem dot_mem_adminTmp : ch '.' ∈ adminTmp := by decide

theorem staged_of_stageOf {D : Dirs} {argv : List Str} {q : AbsPath} (h : stageOf D argv = some q) : Staged D q := by
  unfold stageOf at h
  repeat' split at h
  all_goals cases h
  · exact ⟨_, rfl, dot_mem_grantTmp _⟩
  · exact ⟨_, rfl, dot_mem_adminTmp⟩

theorem not_sudoReads {c : Str} (h : ch '.' ∈ c) : sudoReads c = false := by
  simp [sudoReads, h]

/-- A name is plain when it is longer than two characters. -/
theorem plain_of_length {c : Str} (h : 2 < c.length) : Plain c := by
  refine ⟨?_, ?_⟩ <;> rintro rfl <;> exact absurd h (by decide)

theorem Dirs.plain_sudoers (D : Dirs) {c : Str} (h : Plain c) : ∀ x ∈ D.sudoersDir ++ [c], Plain x := by
  intro x hx
  rcases List.mem_append.1 hx with hx | hx
  · exact D.plain x (by simp [hx])
  · rwa [List.mem_singleton.1 hx]

theorem plain_grantTmp (grantid : Str) : Plain (grantTmp grantid) := by
  apply plain_of_length
  simp only [grantTmp, List.length_append]
  have : (lit ".mcp_grant_").length = 11 := by decide
  omega

theorem plain_grantFinal (grantid : Str) : Plain (grantFinal grantid) := by
  apply plain_of_length
  simp only [grantFinal, List.length_append]
  have : (lit "mcp_grant_").length = 10 := by decide
  omega

/-! ## Trees that stay intact -/

section
variable {visudo : Str → Bool} {D : Dirs} {before : Str → Option Node} {fs fs' : Fs}

/-- Nothing that sudo reads has changed. -/
theorem Intact.congr (h : Intact visudo D before fs) (hsame : ∀ q, Kept D.sudoersDir q → fs'.lookup q = fs.lookup q) :
    Intact visudo D before fs' where
  guarded := h.guarded.congr hsame
  entries c hc := by
    rw [hsame _ (.inr ⟨c, rfl⟩)]
    exact h.entries c hc

/-- One name may have changed: to a node that is guarded, and vetted where sudo reads it. -/
theorem Intact.update (h : Intact visudo D before fs) {c : Str}
    (hsame : ∀ q, Kept D.sudoersDir q → q ≠ D.sudoersDir ++ [c] → fs'.lookup q = fs.lookup q)
    (hnode : ∀ n, fs'.lookup (D.sudoersDir ++ [c]) = some n → n.guarded = true)
    (hread : sudoReads c = true → Vetted visudo c (fs'.lookup (D.sudoersDir ++ [c]))) : Intact visudo D before fs' where
  guarded := by
    refine ⟨fun q hq => ?_, fun c' n hn => ?_⟩
    · rw [hsame q (.inl hq) ?_]
      · exact h.guarded.way q hq
      · rintro rfl
        have hlen := hq.length_le
        simp at hlen
    · by_cases hc : c' = c
      · subst hc
        exact hnode n hn
      · rw [hsame _ (.inr ⟨c', rfl⟩) (by simpa using hc)] at hn
        exact h.guarded.inside c' n hn
  entries c' hc' := by
    by_cases hc : c' = c
    · subst hc
      exact .inr (hread hc')
    · rw [hsame _ (.inr ⟨c', rfl⟩) (by simpa using hc)]
      exact h.entries c' hc'

theorem Intact.insert (h : Intact visudo D before fs) {c : Str} {n : Node} (hc : ch '.' ∈ c) (hn : n.guarded = true) :
    Intact visudo D before (fs.insert (D.sudoersDir ++ [c]) n) := by
  apply h.update (c := c)
  · intro q _ hne
    rw [Map.lookup_insert_if, if_neg hne]
  · intro m hm
    rw [Map.lookup_insert_if, if_pos rfl] at hm
    cases hm
    exact hn
  · intro hread
    rw [not_sudoReads hc] at hread
    cases hread

theorem Intact.erase (h : Intact visudo D before fs) {c : Str} (hc : sudoReads c = true → Vetted visudo c none) :
    Intact visudo D before (fs.erase (D.sudoersDir ++ [c])) := by
  apply h.update (c := c)
  · intro q _ hne
    rw [Map.lookup_erase_if, if_neg hne]
  · intro m hm
    rw [Map.lookup_erase_if, if_pos rfl] at hm
    cases hm
  · intro hread
    rw [Map.lookup_erase_if, if_pos rfl]
    exact hc hread

end

/-! ## The commands -/

section
variable (visudo : Str → Bool) (D : Dirs) (gid : Nat) (before : Str → Option Node)

/-- What a helper guarantees, when the key it works on holds `v`. -/
def Safe (own : Option AbsPath) (v : Option Node) (prog : Command) : Prop :=
  prog.Keeps (tool visudo) (helperProcess gid) (Intact visudo D before) (Staged D) (Straight D (helperProcess gid)) own v

variable {visudo D gid before} {own : Option AbsPath} {v : Option Node}

theorem safe_done (rc : Int) : Safe visudo D gid before own v (.done rc) := trivial

theorem safe_look {c : Call Tool} {k : c.Ans → Command} (hc : c.looks = true)
    (h : ∀ a, Safe visudo D gid before own v (k a)) : Safe visudo D gid before own v (.ask c k) :=
  keeps_look hc h

/-- A call that is apart from the sudoers directory. -/
theorem safe_apart {c : Call Tool} {k : c.Ans → Command} (hspawn : c.isSpawn = false)
    (hown : ∀ q, own = some q → Kept D.sudoersDir q)
    (hapart : ∀ fs, Straight D (helperProcess gid) fs c → ∀ q, Kept D.sudoersDir q → c.Apart (helperProcess gid) fs q)
    (h : ∀ fs o, Straight D (helperProcess gid) fs c →
      Safe visudo D gid before own v (k (serve (tool visudo) (helperProcess gid) o fs c).1)) :
    Safe visudo D gid before own v (.ask c k) := by
  intro fs o hI hv hmay
  have hsame : ∀ q, Kept D.sudoersDir q → (serve (tool visudo) (helperProcess gid) o fs c).2.lookup q = fs.lookup q :=
    fun q hq => serve_lookup_apart (tool visudo) o (hapart fs hmay q hq) hspawn
  refine ⟨hI.congr hsame, ?_, ?_⟩
  · rintro q ⟨c, rfl, -⟩ -
    exact hsame _ (.inr ⟨c, rfl⟩)
  · have hkeep : own.bind (serve (tool visudo) (helperProcess gid) o fs c).2.lookup = v := by
      rw [← hv]
      rcases own with _ | q
      · rfl
      · exact hsame q (hown q rfl)
    rw [hkeep]
    exact h fs o hmay

/-- A call in the sudoers directory, by what it does to the tree. -/
theorem safe_ask {c : Call Tool} {k : c.Ans → Command}
    (h : ∀ fs o, Intact visudo D before fs → own.bind fs.lookup = v → ∃ a fs',
      serve (tool visudo) (helperProcess gid) o fs c = (a, fs') ∧ Intact visudo D before fs' ∧
      (∀ q, Staged D q → own ≠ some q → fs'.lookup q = fs.lookup q) ∧
      Safe visudo D gid before own (own.bind fs'.lookup) (k a)) :
    Safe visudo D gid before own v (.ask c k) := by
  intro fs o hI hv _
  obtain ⟨a, fs', hs, hI', hstaged, hnext⟩ := h fs o hI hv
  rw [hs]
  exact ⟨hI', hstaged, hnext⟩

/-! ### Staging -/

/-- A file that is given to root is still root's alone. -/
theorem setOwner_root {a : Attr} (s : Str) (ha : a.rootOnly = true) :
    ∃ a', (Node.file a s).setOwner 0 0 = .file a' s ∧ a'.rootOnly = true ∧ a'.owner = 0 ∧ a'.group = 0 := by
  refine ⟨_, rfl, ?_, rfl, rfl⟩
  simp only [Attr.rootOnly, Bool.and_eq_true, Bool.not_eq_true', decide_eq_true_eq] at ha ⊢
  split <;> simp only [BitVec.getLsbD_and, ha.1.2, ha.2, Bool.false_and, and_self]

/-- What `visudo` reads is what was staged. -/
theorem contentAt_staged (gid : Nat) {fs : Fs} (h : Guarded fs D.sudoersDir) {tmp : Str} (hplain : Plain tmp) {a : Attr}
    {s : Str} (hn : fs.lookup (D.sudoersDir ++ [tmp]) = some (.file a s)) :
    contentAt (helperProcess gid) fs (inDir D.sudoersDir tmp) = some s := by
  have hloc := h.locate (helperProcess_uid gid) true (D.plain_sudoers hplain)
    (.inr fun _ _ => by rw [hn]; rintro ⟨⟩)
  unfold contentAt inDir
  rw [hloc]
  simp only [Except.toOption, Option.bind_some, hn]

/-- Other staged files are under other names. -/
theorem staged_ne {r q : AbsPath} (h : some r ≠ some q) {fs : Fs} {n : Node} : (fs.insert r n).lookup q = fs.lookup q := by
  rw [Map.lookup_insert_if, if_neg]
  rintro rfl
  exact h rfl

section
variable {tmp : Str} (hdot : ch '.' ∈ tmp)
include hdot

theorem safe_fail (hplain : Plain tmp) (rc : Int) (v : Option Node) :
    Safe visudo D gid before (some (D.sudoersDir ++ [tmp])) v (discard D tmp rc) := by
  unfold discard
  apply safe_ask
  intro fs o hI _
  rcases hI.guarded.serve_unlink (tool visudo) (helperProcess_uid gid) o (D.plain_sudoers hplain) with
    ⟨e, -, he⟩ | he
  · exact ⟨_, _, he, hI, fun _ _ _ => rfl, safe_done rc⟩
  · refine ⟨_, _, he, hI.erase fun hread => ?_, ?_, safe_done rc⟩
    · rw [not_sudoReads hdot] at hread
      cases hread
    · intro q _ hne
      rw [Map.lookup_erase_if, if_neg]
      rintro rfl
      exact hne rfl

/-- The loop writes what is left of the data after what the file holds. -/
theorem safe_writeLoop {failed written : Command} (data : Str) {a : Attr} (ha : a.rootOnly = true)
    (hfail : ∀ v, Safe visudo D gid before (some (D.sudoersDir ++ [tmp])) v failed)
    (hwritten : Safe visudo D gid before (some (D.sudoersDir ++ [tmp])) (some (.file a data)) written) (fuel off : Nat)
    (hoff : off ≤ data.length) (hfuel : data.length ≤ off + fuel) :
    Safe visudo D gid before (some (D.sudoersDir ++ [tmp])) (some (.file a (data.take off)))
      (writeLoop (D.sudoersDir ++ [tmp]) data failed written fuel off) := by
  induction fuel generalizing off with
  | zero =>
    rw [List.take_of_length_le (by omega)]
    exact hwritten
  | succ fuel ih =>
    unfold writeLoop
    split
    swap
    · rw [List.take_of_length_le (by omega)]
      exact hwritten
    next hlt =>
    apply safe_ask
    intro fs o hI hv
    rw [Option.bind_some] at hv
    unfold serve
    rcases answer_cases o fs (pwriteAt fs (D.sudoersDir ++ [tmp]) off (data.drop off) o.short) with
      ⟨e, -, he⟩ | ⟨w, fs', hw, he⟩
    · exact ⟨_, _, he, hI, fun _ _ _ => rfl, hfail _⟩
    · unfold pwriteAt at hw
      rw [hv] at hw
      simp only [Except.ok.injEq, Prod.mk.injEq, List.length_drop] at hw
      obtain ⟨rfl, rfl⟩ := hw
      refine ⟨_, _, he, hI.insert hdot ha, fun q _ hne => staged_ne hne, ?_⟩
      rw [Option.bind_some, Map.lookup_insert_if, if_pos rfl]
      -- The bytes go where the file ends.
      have hover : overwrite (data.take off) off
          ((data.drop off).take (data.length - off - min o.short (data.length - off - 1))) =
          data.take (off + (data.length - off - min o.short (data.length - off - 1))) := by
        rw [overwrite_end (by rw [List.length_take]; omega), List.take_add]
      rw [hover]
      exact ih _ (by omega) (by omega)

/-- Whatever happens on the way, a spec gets to its place only after `visudo` accepted it. -/
theorem safe_stage (hplain : Plain tmp) {final spec : Str} (hfinal : Plain final) (hne : tmp ≠ final)
    (hvetted : ∀ a : Attr, a.owner = 0 → a.group = 0 → visudo spec = true → Vetted visudo final (some (.file a spec)))
    (hvisible : ch '.' ∉ final) (v : Option Node) :
    Safe visudo D gid before (some (D.sudoersDir ++ [tmp])) v (stage D tmp final spec) := by
  have hp : (helperProcess gid).uid = 0 := rfl
  have hfail : ∀ rc v, Safe visudo D gid before (some (D.sudoersDir ++ [tmp])) v (discard D tmp rc) := fun rc v => safe_fail hdot hplain rc v
  unfold stage
  apply safe_ask
  intro fs o hI _
  have hmode : ((helperProcess gid).attr 0o440).rootOnly = true := by
    simp only [helperProcess, Process.attr, Attr.rootOnly]
    decide
  rcases hI.guarded.serve_openTrunc (tool visudo) hp o (D.plain_sudoers hplain) hmode with
    ⟨e, -, he⟩ | ⟨a, ha, he⟩
  · exact ⟨_, _, he, hI, fun _ _ _ => rfl, safe_done 11⟩
  refine ⟨_, _, he, hI.insert hdot ha, fun q _ hne => staged_ne hne, ?_⟩
  rw [Option.bind_some, Map.lookup_insert_if, if_pos rfl]
  apply safe_writeLoop hdot spec ha (hfail 11) _ _ 0 (Nat.zero_le _) (by omega)
  -- The file is written; what is left is to have it checked.
  unfold commit
  apply safe_look rfl
  rintro (e | -)
  · exact hfail 11 _
  apply safe_ask
  intro fs o hI hv
  rw [Option.bind_some] at hv
  rcases hI.guarded.serve_chown (tool visudo) hp o (D.plain_sudoers hplain) hv 0 0 with ⟨e, -, he⟩ | he
  · exact ⟨_, _, he, hI, fun _ _ _ => rfl, hfail 11 _⟩
  obtain ⟨a', hnode, hroot, hown⟩ := setOwner_root spec ha
  rw [hnode] at he
  refine ⟨_, _, he, hI.insert hdot hroot, fun q _ hne => staged_ne hne, ?_⟩
  rw [Option.bind_some, Map.lookup_insert_if, if_pos rfl]
  apply safe_ask
  intro fs o hI hv
  rw [Option.bind_some] at hv
  have hcontent := contentAt_staged gid hI.guarded hplain hv
  rcases hans : (tool visudo (helperProcess gid) (.visudo (inDir D.sudoersDir tmp)) o fs).1 with ⟨rc, output⟩
  refine ⟨(rc, output), fs, Prod.ext hans rfl, hI, fun _ _ _ => rfl, ?_⟩
  rw [Option.bind_some, hv]
  by_cases hrc : rc ≠ 0
  · simp only [if_pos hrc]
    exact hfail 13 _
  simp only [if_neg hrc]
  have hvisudo : visudo spec = true := tool_visudo hcontent (by rw [hans]; exact not_not.1 hrc)
  apply safe_ask
  intro fs o hI hv
  rw [Option.bind_some] at hv
  rcases hI.guarded.serve_rename (tool visudo) hp o (D.plain_sudoers hplain) (D.plain_sudoers hfinal) hne hv rfl with
    ⟨e, -, he⟩ | ⟨fs', he, hthere, hgone, hsame⟩
  · exact ⟨_, _, he, hI, fun _ _ _ => rfl, hfail 11 _⟩
  refine ⟨_, fs', he, ?_, ?_, safe_done 0⟩
  · -- First the staged name goes, then the final one appears.
    have hmid : Intact visudo D before (fs.erase (D.sudoersDir ++ [tmp])) := by
      apply hI.erase
      intro hread
      rw [not_sudoReads hdot] at hread
      cases hread
    apply hmid.update (c := final)
    · intro q hq hqf
      by_cases hqt : q = D.sudoersDir ++ [tmp]
      · rw [hqt, hgone, Map.lookup_erase_if, if_pos rfl]
      · rw [Map.lookup_erase_if, if_neg hqt]
        have hoff : ∀ c, q ≠ D.sudoersDir ++ [c] → ¬ D.sudoersDir ++ [c] <+: q := by
          intro c hc hpre
          rcases hq with hq | ⟨c', rfl⟩
          · have hlen := (hpre.trans hq).length_le
            simp at hlen
          · exact Kept.not_prefix (by rintro rfl; exact hc rfl) hpre
        exact hsame q (hoff tmp hqt) (hoff final hqf)
    · intro n hn
      rw [hthere] at hn
      cases hn
      exact hroot
    · intro _
      rw [hthere]
      exact hvetted a' hown.1 hown.2 hvisudo
  · rintro q ⟨c, rfl, hc⟩ hq
    apply hsame
    · apply Kept.not_prefix
      rintro rfl
      exact hq rfl
    · apply Kept.not_prefix
      rintro rfl
      exact hvisible hc

end

/-! ### In the state directories -/

/-- What lies in the state directories is apart from the sudoers directory. -/
theorem Dirs.not_prefix_users (D : Dirs) {names : AbsPath} (h : D.usersStateDir <+: names) {q : AbsPath}
    (hq : Kept D.sudoersDir q) : ¬ names <+: q := by
  intro hp
  rcases hq.of_prefix (h.trans hp) with hk | ⟨c, hk⟩
  · exact D.apart.2.1 hk
  · exact D.apart.2.2.1 (by rw [hk, List.dropLast_concat])

theorem Dirs.not_prefix_state (D : Dirs) (c : Str) {q : AbsPath} (hq : Kept D.sudoersDir q) : ¬ D.stateDir ++ [c] <+: q := by
  intro hp
  rcases hq.of_prefix hp with hk | ⟨c', hk⟩
  · exact D.apart.1 ((List.prefix_append _ _).trans hk)
  · exact D.apart.1 (List.append_inj_left' hk rfl ▸ List.prefix_rfl)

theorem not_sudoers_of_off {names : AbsPath} (h : ∀ q, Kept D.sudoersDir q → ¬ names <+: q) (hne : names ≠ []) :
    names.dropLast ≠ D.sudoersDir := by
  intro hd
  apply h names _ List.prefix_rfl
  right
  refine ⟨names.getLast hne, ?_⟩
  rw [← hd, List.dropLast_append_getLast]

/-- A call on one path in a state directory. -/
theorem apart_of_straight {c : Call Tool} {follow : Bool} {names : AbsPath} (hpaths : c.paths = [(follow, ⟨true, names, false⟩)])
    (hfiles : c.files = []) (hnames : ∀ q, Kept D.sudoersDir q → ¬ names <+: q) (hne : names ≠ []) {fs : Fs}
    (hs : Straight D (helperProcess gid) fs c) {q : AbsPath} (hq : Kept D.sudoersDir q) :
    c.Apart (helperProcess gid) fs q := by
  refine ⟨?_, by rw [hfiles]; exact List.not_mem_nil⟩
  intro path hpath r hr
  have hstraight := hs.1 path hpath
  rw [hpaths, List.mem_singleton] at hpath
  subst hpath
  rw [hstraight (not_sudoers_of_off hnames hne) r hr]
  exact hnames q hq

theorem safe_ensureOwnedDir {names : AbsPath} {uid gid' : Nat} {mode : BitVec 12} {k : Command}
    (hown : ∀ q, own = some q → Kept D.sudoersDir q) (hnames : ∀ q, Kept D.sudoersDir q → ¬ names <+: q)
    (hne : names ≠ []) (h : Safe visudo D gid before own v k) :
    Safe visudo D gid before own v (ensureOwnedDir ⟨true, names, false⟩ uid gid' mode k) := by
  have hapart : ∀ (c : Call Tool) (follow : Bool), c.paths = [(follow, ⟨true, names, false⟩)] → c.files = [] →
      ∀ fs, Straight D (helperProcess gid) fs c → ∀ q, Kept D.sudoersDir q → c.Apart (helperProcess gid) fs q :=
    fun c follow hpaths hfiles fs hs q hq => apart_of_straight hpaths hfiles hnames hne hs hq
  have hrest : Safe visudo D gid before own v (handOver ⟨true, names, false⟩ uid gid' mode k) := by
    unfold handOver
    apply safe_apart rfl hown (hapart _ true rfl rfl)
    intro fs o _
    split
    · exact safe_done 11
    apply safe_apart rfl hown (hapart _ true rfl rfl)
    intro fs o _
    split
    · exact safe_done 11
    · exact h
  unfold ensureOwnedDir
  apply safe_apart rfl hown (hapart _ false rfl rfl)
  intro fs o _
  split
  · exact hrest
  · exact hrest
  · exact safe_done 11

theorem safe_writeLoop_apart {fd : AbsPath} {data : Str} {failed written : Command}
    (hown : ∀ q, own = some q → Kept D.sudoersDir q) (hfd : ¬ Kept D.sudoersDir fd)
    (hfail : Safe visudo D gid before own v failed) (hwritten : Safe visudo D gid before own v written) (fuel off : Nat) :
    Safe visudo D gid before own v (writeLoop fd data failed written fuel off) := by
  induction fuel generalizing off with
  | zero => exact hwritten
  | succ fuel ih =>
    unfold writeLoop
    split
    swap
    · exact hwritten
    apply safe_apart rfl hown
    · intro fs _ q hq
      refine ⟨fun path hpath => absurd hpath List.not_mem_nil, ?_⟩
      intro hmem
      rw [List.mem_singleton.1 hmem] at hq
      exact hfd hq
    · intro fs o _
      split
      · exact hfail
      · exact ih _

theorem safe_installRuntime {shortid data : Str} {uid gid' : Nat} (hown : ∀ q, own = some q → Kept D.sudoersDir q) :
    Safe visudo D gid before own v (installRuntime (userDir D shortid) uid gid' data) := by
  have hnames : ∀ (c : Str) (q : AbsPath), Kept D.sudoersDir q → ¬ userDir D shortid ++ [c] <+: q := by
    intro c q hq
    apply D.not_prefix_users _ hq
    unfold userDir
    rw [List.append_assoc]
    exact List.prefix_append _ _
  have hne : ∀ c, userDir D shortid ++ [c] ≠ [] := fun c => by simp
  have hapart : ∀ (c : Call Tool) (follow : Bool) (name : Str), c.paths = [(follow, inDir (userDir D shortid) name)] →
      c.files = [] → ∀ fs, Straight D (helperProcess gid) fs c → ∀ q, Kept D.sudoersDir q →
      c.Apart (helperProcess gid) fs q :=
    fun c follow name hpaths hfiles fs hs q hq => apart_of_straight hpaths hfiles (hnames name) (hne name) hs hq
  have hfail : Safe visudo D gid before own v (dropRuntime (userDir D shortid)) :=
    safe_apart rfl hown (hapart _ false _ rfl rfl) fun _ _ _ => safe_done 11
  unfold installRuntime
  apply safe_apart rfl hown (hapart _ false _ rfl rfl)
  intro fs o hs
  rcases hans : (serve (tool visudo) (helperProcess gid) o fs
    (.openTrunc (inDir (userDir D shortid) runtimeTmp) 0o600)).1 with e | fd
  · exact safe_done 11
  have hfd : fd = userDir D shortid ++ [runtimeTmp] :=
    hs.1 _ (List.mem_singleton_self _) (not_sudoers_of_off (hnames _) (hne _)) fd
      (locate_of_openTrunc (tool visudo) hans)
  apply safe_writeLoop_apart hown _ hfail
  · apply safe_look rfl
    rintro (e | -)
    · exact hfail
    unfold giveRuntime
    apply safe_apart rfl hown (hapart _ true _ rfl rfl)
    intro fs o _
    split
    · exact hfail
    apply safe_apart rfl hown (hapart _ true _ rfl rfl)
    intro fs o _
    split
    · exact hfail
    apply safe_apart rfl hown
    · -- The renaming is about two names of the directory.
      intro fs hs q hq
      refine ⟨fun path hpath r hr => ?_, List.not_mem_nil⟩
      have hstraight := hs.1 path hpath
      simp only [Call.paths, List.mem_cons, List.not_mem_nil, or_false] at hpath
      rcases hpath with rfl | rfl
      · rw [hstraight (not_sudoers_of_off (hnames _) (hne _)) r hr]
        exact hnames _ q hq
      · rw [hstraight (not_sudoers_of_off (hnames _) (hne _)) r hr]
        exact hnames _ q hq
    · intro fs o _
      split
      · exact hfail
      · exact safe_done 0
  · rw [hfd]
    exact fun hk => hnames _ _ hk List.prefix_rfl

/-! ### Each command -/

theorem safe_serialLock {k : Command} (hown : ∀ q, own = some q → Kept D.sudoersDir q)
    (h : Safe visudo D gid before own v k) : Safe visudo D gid before own v (serialLock D k) := by
  unfold serialLock
  apply safe_apart rfl hown
  · intro fs hs q hq
    exact apart_of_straight rfl rfl (fun q hq => D.not_prefix_state _ hq) (by simp) hs hq
  · intro fs o _
    split
    · exact safe_done 11
    · apply safe_look rfl
      rintro (_ | _)
      · exact safe_done 11
      · exact h

/-- A tool that leaves the tree as it is. -/
theorem safe_spawn {x : Tool} {k : (Call.spawn x).Ans → Command} (hx : ∀ p o fs, (tool visudo p x o fs).2 = fs)
    (h : ∀ a, Safe visudo D gid before own v (k a)) : Safe visudo D gid before own v (.ask (.spawn x) k) := by
  intro fs o hI hv _
  have hs : (serve (tool visudo) (helperProcess gid) o fs (.spawn x)).2 = fs := hx _ o fs
  rw [hs, hv]
  exact ⟨hI, fun _ _ _ => rfl, h _⟩

theorem safe_useraddAttempts (user : Str) (n : Nat) : Safe visudo D gid before own v (useraddAttempts user n) := by
  induction n with
  | zero => exact safe_done 11
  | succ n ih =>
    unfold useraddAttempts
    apply safe_spawn (fun _ _ _ => rfl)
    rintro ⟨rc, output⟩
    simp only
    split
    · exact safe_done 0
    split
    · exact safe_done 14
    split
    · apply safe_look rfl
      intro locked
      split
      · exact ih
      · exact safe_done 11
    · exact safe_done 11

theorem safe_cmdUseradd (hown : ∀ q, own = some q → Kept D.sudoersDir q) (args : List Str) :
    Safe visudo D gid before own v (cmdUseradd D args) := by
  unfold cmdUseradd
  split
  · split
    · exact safe_done 10
    · exact safe_serialLock hown (safe_useraddAttempts _ _)
  · exact safe_done 10

theorem safe_cmdUserdel (hown : ∀ q, own = some q → Kept D.sudoersDir q) (args : List Str) :
    Safe visudo D gid before own v (cmdUserdel D args) := by
  unfold cmdUserdel
  split
  · split
    · exact safe_done 10
    · apply safe_serialLock hown
      apply safe_spawn (fun _ _ _ => rfl)
      rintro ⟨rc, output⟩
      simp only
      split
      · exact safe_done 0
      · exact safe_done 11
  · exact safe_done 10

theorem dot_notMem_of_isHexId {grantid : Str} (h : validGrantid grantid = true) : ch '.' ∉ grantFinal grantid := by
  simp only [validGrantid, Core.isHexId, Bool.and_eq_true] at h
  unfold grantFinal
  rw [List.mem_append, not_or]
  exact ⟨by decide, not_mem_of_all h.2 (by decide)⟩

theorem safe_cmdInstallGrant (args : List Str)
    (hown : ∀ grantid, args = [grantid] → validGrantid grantid = true → own = some (D.sudoersDir ++ [grantTmp grantid])) :
    Safe visudo D gid before own v (cmdInstallGrant D args) := by
  unfold cmdInstallGrant
  split
  swap
  · exact safe_done 10
  next grantid =>
  split
  · exact safe_done 10
  next hid =>
  simp only [Bool.not_eq_eq_eq_not, Bool.not_true, Bool.not_eq_false] at hid
  rw [hown grantid rfl hid]
  apply safe_look rfl
  rintro (e | fd)
  · exact safe_done 11
  apply safe_look rfl
  rintro (e | st)
  · exact safe_done 13
  simp only
  split
  · exact safe_done 13
  apply safe_look rfl
  rintro (e | buf)
  · exact safe_done 13
  simp only
  split
  · exact safe_done 13
  split
  · exact safe_done 13
  next hspec =>
  simp only [Bool.not_eq_eq_eq_not, Bool.not_true, Bool.not_eq_false] at hspec
  apply safe_look rfl
  rintro (e | _)
  swap
  · exact safe_done 14
  apply safe_stage (dot_mem_grantTmp _) (plain_grantTmp _) (plain_grantFinal _)
  · intro heq
    exact dot_notMem_of_isHexId hid (heq ▸ dot_mem_grantTmp grantid)
  · exact fun a ho hg hv => .grant hid hspec ⟨ho, hg⟩ hv
  · exact dot_notMem_of_isHexId hid

theorem safe_cmdInstallSystemAdmin (args : List Str)
    (hown : ∀ shortid, args = [shortid] → validShortid shortid = true → own = some (D.sudoersDir ++ [adminTmp])) :
    Safe visudo D gid before own v (cmdInstallSystemAdmin D args) := by
  unfold cmdInstallSystemAdmin
  split
  swap
  · exact safe_done 10
  next shortid =>
  split
  · exact safe_done 10
  next hid =>
  simp only [Bool.not_eq_eq_eq_not, Bool.not_true, Bool.not_eq_false] at hid
  rw [hown shortid rfl hid]
  simp only
  split
  · exact safe_done 11
  split
  · exact safe_done 13
  apply safe_stage dot_mem_adminTmp (plain_of_length (by decide)) (plain_of_length (by decide)) (by decide)
  · exact fun a ho hg hv => .admin ⟨shortid, hid, rfl⟩ ⟨ho, hg⟩ hv
  · decide

/-- A name the helper may take away. -/
theorem safe_unlinkIdempotent {c : Str} (hplain : Plain c) (hdot : ch '.' ∉ c) (hvetted : Vetted visudo c none) :
    Safe visudo D gid before own v (unlinkIdempotent (inDir D.sudoersDir c)) := by
  unfold unlinkIdempotent
  apply safe_ask
  intro fs o hI hv
  rcases hI.guarded.serve_unlink (tool visudo) (helperProcess_uid gid) o (D.plain_sudoers hplain) with
    ⟨e, -, he⟩ | he
  · refine ⟨_, _, he, hI, fun _ _ _ => rfl, ?_⟩
    split <;> exact safe_done _
  · have hsame : ∀ q, Staged D q → (fs.erase (D.sudoersDir ++ [c])).lookup q = fs.lookup q := by
      rintro q ⟨c', rfl, hc'⟩
      rw [Map.lookup_erase_if, if_neg]
      intro heq
      have hcc : c' = c := by simpa using heq
      exact hdot (hcc ▸ hc')
    exact ⟨_, _, he, hI.erase fun _ => hvetted, fun q hq _ => hsame q hq, safe_done 0⟩

theorem safe_cmdRevokeGrant (args : List Str) : Safe visudo D gid before own v (cmdRevokeGrant D args) := by
  unfold cmdRevokeGrant
  split
  · split
    · exact safe_done 10
    · next hid =>
      simp only [Bool.not_eq_eq_eq_not, Bool.not_true, Bool.not_eq_false] at hid
      exact safe_unlinkIdempotent (plain_grantFinal _) (dot_notMem_of_isHexId hid) (.noGrant hid)
  · exact safe_done 10

theorem safe_cmdRevokeSystemAdmin (args : List Str) : Safe visudo D gid before own v (cmdRevokeSystemAdmin D args) := by
  unfold cmdRevokeSystemAdmin
  split
  · exact safe_unlinkIdempotent (plain_of_length (by decide)) (by decide) .noAdmin
  · exact safe_done 10

theorem safe_cmdPrepareUserState (hown : ∀ q, own = some q → Kept D.sudoersDir q) (args : List Str) :
    Safe visudo D gid before own v (cmdPrepareUserState D args) := by
  unfold cmdPrepareUserState
  split
  swap
  · exact safe_done 10
  next shortid =>
  split
  · exact safe_done 10
  apply safe_look rfl
  rintro (_ | ⟨uid, gid'⟩)
  · exact safe_done 12
  have hdirs : Safe visudo D gid before own v (ensureOwnedDir (inDir D.usersStateDir (username shortid)) uid gid' 0o700
      (ensureOwnedDir (inDir (userDir D shortid) (lit "crons")) uid gid' 0o700 (.done 0))) := by
    apply safe_ensureOwnedDir hown (fun q hq => D.not_prefix_users (List.prefix_append _ _) hq) (by simp)
    apply safe_ensureOwnedDir hown (fun q hq => D.not_prefix_users ?_ hq) (by simp) (safe_done 0)
    unfold userDir
    rw [List.append_assoc]
    exact List.prefix_append _ _
  by_cases hroot : D.usersStateDir = []
  · exact absurd (hroot ▸ List.nil_prefix) D.apart.2.1
  apply safe_apart rfl hown
  · intro fs hs q hq
    exact apart_of_straight rfl rfl (fun q hq => D.not_prefix_users List.prefix_rfl hq) hroot hs hq
  · intro fs o _
    split
    · exact hdirs
    · exact hdirs
    · exact safe_done 11

theorem safe_cmdCleanupUserState (args : List Str) :
    Safe visudo D gid before own v (cmdCleanupUserState D args) := by
  unfold cmdCleanupUserState
  split
  swap
  · exact safe_done 10
  next shortid =>
  split
  · exact safe_done 10
  apply safe_look rfl
  intro r
  split
  · intro fs o hI hv hs
    have hsame : ∀ q, Kept D.sudoersDir q → (serve (tool visudo) (helperProcess gid) o fs
        (.spawn (.rm (inDir D.usersStateDir (username shortid))))).2.lookup q = fs.lookup q := by
      intro q hq
      simp only [serve, tool]
      split
      · next r hr =>
        rw [hs.2 _ rfl r hr]
        have hoff := D.not_prefix_users (List.prefix_append D.usersStateDir [username shortid]) hq
        unfold removeTree
        rw [Map.lookup_keep]
        have hpre : (inDir D.usersStateDir (username shortid)).names.isPrefixOf q = false := by
          rw [Bool.eq_false_iff]
          exact fun hp => hoff (List.isPrefixOf_iff_prefix.1 hp)
        rcases fs.lookup q with _ | n
        · rfl
        · simp [hpre]
      · rfl
    refine ⟨hI.congr hsame, ?_, ?_⟩
    · rintro q ⟨c, rfl, -⟩ -
      exact hsame _ (.inr ⟨c, rfl⟩)
    · rcases hans : (serve (tool visudo) (helperProcess gid) o fs
        (.spawn (.rm (inDir D.usersStateDir (username shortid))))).1 with ⟨rc, output⟩
      simp only
      split <;> exact safe_done _
  · exact safe_done 0
  · exact safe_done 11

theorem safe_cmdWriteRuntime (hown : ∀ q, own = some q → Kept D.sudoersDir q) (args : List Str) :
    Safe visudo D gid before own v (cmdWriteRuntime D args) := by
  unfold cmdWriteRuntime
  split
  swap
  · exact safe_done 10
  next shortid b64 =>
  split
  · exact safe_done 10
  apply safe_look rfl
  rintro (_ | ⟨uid, gid'⟩)
  · exact safe_done 12
  apply safe_ensureOwnedDir hown (fun q hq => D.not_prefix_users (List.prefix_append _ _) hq) (by simp)
  split
  · exact safe_done 11
  · exact safe_installRuntime hown

theorem safe_helperMain (argv : List Str) (v : Option Node) :
    Safe visudo D gid before (stageOf D argv) v (helperMain D argv) := by
  have hstaged : ∀ q, stageOf D argv = some q → Staged D q := fun q hq => staged_of_stageOf hq
  have hown : ∀ q, stageOf D argv = some q → Kept D.sudoersDir q := by
    intro q hq
    obtain ⟨c, rfl, -⟩ := hstaged q hq
    exact .inr ⟨c, rfl⟩
  unfold helperMain
  split
  · exact safe_done 10
  next sub args =>
  apply safe_look rfl
  rintro (e | -)
  · exact safe_done 11
  simp only
  split
  · exact safe_cmdUseradd hown args
  split
  · exact safe_cmdUserdel hown args
  split
  · next hsub =>
    apply safe_cmdInstallGrant
    rintro grantid rfl hid
    simp only [stageOf]
    rw [if_pos ⟨hsub, hid⟩]
  next hsub =>
  split
  · exact safe_cmdRevokeGrant args
  split
  · next hadmin =>
    apply safe_cmdInstallSystemAdmin
    rintro shortid rfl hid
    simp only [stageOf]
    rw [if_neg fun h => hsub h.1, if_pos ⟨hadmin, hid⟩]
  split
  · exact safe_cmdRevokeSystemAdmin args
  split
  · exact safe_cmdPrepareUserState hown args
  split
  · exact safe_cmdCleanupUserState args
  split
  · exact safe_cmdWriteRuntime hown args
  · exact safe_done 10

end

/-! ## Any order, any interruption -/

/-- The other accounts: not root, and each does what it may. -/
def NotRoot (fs : Fs) (who : Process) (c : Call Tool) : Prop := who.uid ≠ 0 ∧ c.Own who fs

section
variable (visudo : Str → Bool) (D : Dirs) (gid : Nat)

/-- Helpers that are started, take a step or are killed, and other accounts, in any order. -/
abbrev helperNext : Machine Tool Int (List Str) → Happening Tool (List Str) → Option (Machine Tool Int (List Str)) :=
  Machine.next (tool visudo) (helperMain D) (helperProcess gid)

/-- No two helpers stage the same file, and the paths in the state directories are straight. -/
abbrev HelpersFair : Machine Tool Int (List Str) → Happening Tool (List Str) → Prop :=
  Machine.Fair (Straight D (helperProcess gid)) (stageOf D) NotRoot

/-- Whatever helpers run in whatever order, wherever they are interrupted and whatever the daemon and the
tenants do: the directory stays guarded, and each name sudo reads leads to what it led to before, or to
what the helper vetted. -/
theorem sudoers_vetted {fs : Fs} (hguarded : Guarded fs D.sudoersDir) {m : Machine Tool Int (List Str)}
    {es : List (Happening Tool (List Str))} (hfair : Along (helperNext visudo D gid) (HelpersFair D gid) ⟨fs, []⟩ es)
    (hrun : run (helperNext visudo D gid) ⟨fs, []⟩ es = some m) :
    Guarded m.fs D.sudoersDir ∧ ∀ name, sudoReads name = true →
      m.fs.lookup (D.sudoersDir ++ [name]) = fs.lookup (D.sudoersDir ++ [name]) ∨
        Vetted visudo name (m.fs.lookup (D.sudoersDir ++ [name])) := by
  have hintact : Intact visudo D (fun c => fs.lookup (D.sudoersDir ++ [c])) m.fs := by
    apply Machine.guarantee (fun argv q hq => (staged_of_stageOf hq : Staged D q))
      (fun argv v => safe_helperMain argv v) _ ⟨hguarded, fun c _ => .inl rfl⟩ hfair hrun
    rintro fs who c o hI ⟨hwho, hown⟩
    have hsame : ∀ q, Kept D.sudoersDir q → (serve (tool visudo) who o fs c).2.lookup q = fs.lookup q :=
      fun q hq => hI.guarded.foreign hwho (tool visudo) o hown hq
    refine ⟨hI.congr hsame, ?_⟩
    rintro q ⟨c, rfl, -⟩
    exact hsame _ (.inr ⟨c, rfl⟩)
  exact ⟨hintact.guarded, hintact.entries⟩

end

/-- A small machine: root's directories, one installed grant, and the spec of another. -/
def smallDirs : Dirs where
  stateDir := [lit "s"]
  sudoersDir := [lit "d"]
  usersStateDir := [lit "u"]
  plain := by decide
  apart := by decide

def smallId (c : Char) : Str := List.replicate 16 (ch c)

def smallSpec : Str := prefixA ++ lit "abcdefgh" ++ wildcardTail

def smallTree : Fs :=
  (((((∅ : Fs).insert [] (.dir ⟨0, 0, 0o755⟩)).insert [lit "d"] (.dir ⟨0, 0, 0o755⟩)).insert [lit "s"]
    (.dir ⟨7, 7, 0o755⟩)).insert (specPath smallDirs (smallId 'b')).names (.file ⟨7, 7, 0o600⟩ smallSpec)).insert
    ([lit "d"] ++ [grantFinal (smallId 'a')]) (.file ⟨0, 0, 0o440⟩ smallSpec)

/-- A grant is revoked while a tenant tries to replace it. -/
def smallRun : List (Happening Tool (List Str)) :=
  [.start [lit "revoke-grant", smallId 'a'], .step 0 {},
    .foreign ⟨⟨5, 5, []⟩, 0o22, []⟩ (.openTrunc (inDir [lit "d"] (grantFinal (smallId 'a'))) 0o644) {}, .step 0 {}, .gone 0]

theorem sudoers_vetted_revoked : ∃ m, run (helperNext (fun _ => true) smallDirs 0) ⟨smallTree, []⟩ smallRun = some m ∧
    m.fs.lookup ([lit "d"] ++ [grantFinal (smallId 'a')]) = none ∧
    (m.fs.lookup ([lit "d"] ++ [grantFinal (smallId 'a')]) = smallTree.lookup ([lit "d"] ++ [grantFinal (smallId 'a')]) ∨
      Vetted (fun _ => true) (grantFinal (smallId 'a')) (m.fs.lookup ([lit "d"] ++ [grantFinal (smallId 'a')]))) := by
  have hsome : (run (helperNext (fun _ => true) smallDirs 0) ⟨smallTree, []⟩ smallRun).any
      (fun m => m.fs.lookup ([lit "d"] ++ [grantFinal (smallId 'a')]) = none) = true := by decide
  rcases hrun : run (helperNext (fun _ => true) smallDirs 0) ⟨smallTree, []⟩ smallRun with _ | m
  · rw [hrun] at hsome
    cases hsome
  rw [hrun, Option.any_some, decide_eq_true_eq] at hsome
  refine ⟨m, rfl, hsome, (sudoers_vetted (fun _ => true) smallDirs 0 (by decide) ?_ hrun).2 _ (by decide)⟩
  refine ⟨?_, ?_, ⟨by decide, trivial⟩, ?_, trivial, trivial⟩
  · exact fun q _ r hr => absurd hr List.not_mem_nil
  · rintro argv c k ⟨⟩
    exact ⟨fun path hpath => absurd hpath List.not_mem_nil, by rintro path ⟨⟩⟩
  · rintro argv c k ⟨⟩
    refine ⟨fun path hpath hoff => absurd ?_ hoff, by rintro path ⟨⟩⟩
    rw [List.mem_singleton.1 hpath]
    rfl

end McpBridge.Priv
