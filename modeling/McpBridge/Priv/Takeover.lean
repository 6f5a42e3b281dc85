import McpBridge.Priv.Mixing
/-!
# A tenant beside `write-runtime` (`priv/main.c`)

The helper writes `runtime.json.tmp` in a directory that belongs to the tenant, and then
gives the file away by its name: `chown` and `chmod` follow a link. A tenant that puts a
link there in between is given what the link leads to. `write_runtime_takes_over` is that
this works for any node apart from the tenant's directory, with two calls of the tenant
between two of the helper.
-/

open McpBridge.Lib
open McpBridge.Grants (validShortid)

namespace McpBridge.Priv

section
variable (D : Dirs) (gid : Nat) (shortid : Str) (tenant : Process) (d : AbsPath) (c : Str)

abbrev runtimeTmpKey : AbsPath := userDir D shortid ++ [runtimeTmp]

abbrev runtimeKey : AbsPath := userDir D shortid ++ [runtimeFile]

/-- The tenant has a directory, and something else is at `d ++ [c]`. -/
structure Beside (home : Attr) (tmp : Option Node) (n : Node) (fs : Fs) : Prop where
  tenantWay : Ways tenant fs D.usersStateDir
  home : fs.lookup (userDir D shortid) = some (.dir home)
  tmp : fs.lookup (runtimeTmpKey D shortid) = tmp
  vacant : ∀ a, fs.lookup (runtimeKey D shortid) ≠ some (.dir a)
  way : Ways (helperProcess gid) fs d
  target : fs.lookup (d ++ [c]) = some n

/-- That is no link, and apart from the tenant's directory. -/
structure Target (n : Node) : Prop where
  plain : ∀ x ∈ d ++ [c], Plain x
  noLink : ∀ a t, n ≠ .link a t
  off : ¬ userDir D shortid <+: d ++ [c]
  off' : ¬ d ++ [c] <+: userDir D shortid

end

section
variable {D : Dirs} {gid : Nat} {shortid : Str} {tenant : Process} {d : AbsPath} {c : Str} {home : Attr}
  {tmp : Option Node} {n : Node} {fs : Fs}

theorem userDir_off_state {q : AbsPath} (hq : q <+: D.usersStateDir) (cs : List Str) : ¬ userDir D shortid ++ cs <+: q := by
  intro hp
  have hlen := (hp.trans hq).length_le
  simp only [userDir, List.length_append, List.length_cons] at hlen
  omega

theorem runtimeTmp_ne : runtimeTmp ≠ runtimeFile := by decide

namespace Beside
variable (h : Beside D gid shortid tenant d c home tmp n fs) (ht : Target D shortid d c n)
include h ht

theorem insert_home (home' : Attr) :
    Beside D gid shortid tenant d c home' tmp n (fs.insert (userDir D shortid) (.dir home')) := by
  have hoff : ∀ q, ¬ userDir D shortid ++ [] <+: q → (fs.insert (userDir D shortid) (.dir home')).lookup q = fs.lookup q := by
    intro q hq
    rw [List.append_nil] at hq
    exact lookup_insert_off hq fs _
  have hin : ∀ c, (fs.insert (userDir D shortid) (.dir home')).lookup (userDir D shortid ++ [c]) =
      fs.lookup (userDir D shortid ++ [c]) := by
    intro c
    rw [Map.lookup_insert_if, if_neg (by simp)]
  refine ⟨h.tenantWay.congr fun q hq => hoff q (userDir_off_state hq []), ?_, ?_, ?_, ?_, ?_⟩
  · rw [Map.lookup_insert_if, if_pos rfl]
  · rw [hin, h.tmp]
  · intro a
    rw [hin]
    exact h.vacant a
  · refine h.way.congr fun q hq => hoff q fun hp => ?_
    rw [List.append_nil] at hp
    exact ht.off (hp.trans (hq.trans (List.prefix_append _ _)))
  · rw [hoff _ (by rw [List.append_nil]; exact ht.off), h.target]

/-- What happens to the temporary file alone. -/
theorem change_tmp {tmp' : Option Node} {fs' : Fs} (htmp : fs'.lookup (runtimeTmpKey D shortid) = tmp')
    (hsame : ∀ q, q ≠ runtimeTmpKey D shortid → fs'.lookup q = fs.lookup q) :
    Beside D gid shortid tenant d c home tmp' n fs' := by
  have hoff : ∀ q, ¬ userDir D shortid <+: q → fs'.lookup q = fs.lookup q := by
    intro q hq
    apply hsame
    rintro rfl
    exact hq (List.prefix_append _ _)
  refine ⟨h.tenantWay.congr fun q hq => hoff q ?_, ?_, htmp, ?_, ?_, ?_⟩
  · rw [← List.append_nil (userDir D shortid)]
    exact userDir_off_state hq []
  · rw [hsame _ (by simp), h.home]
  · intro a
    rw [hsame _ (by simpa using (runtimeTmp_ne).symm)]
    exact h.vacant a
  · exact h.way.congr fun q hq => hoff q fun hp => ht.off (hp.trans (hq.trans (List.prefix_append _ _)))
  · rw [hoff _ ht.off, h.target]

theorem insert_tmp (m : Node) :
    Beside D gid shortid tenant d c home (some m) n (fs.insert (runtimeTmpKey D shortid) m) := by
  apply h.change_tmp ht
  · rw [Map.lookup_insert_if, if_pos rfl]
  · intro q hq
    rw [Map.lookup_insert_if, if_neg hq]

theorem erase_tmp : Beside D gid shortid tenant d c home none n (fs.erase (runtimeTmpKey D shortid)) := by
  apply h.change_tmp ht
  · rw [Map.lookup_erase_if, if_pos rfl]
  · intro q hq
    rw [Map.lookup_erase_if, if_neg hq]

theorem insert_target (n' : Node) : Beside D gid shortid tenant d c home tmp n' (fs.insert (d ++ [c]) n') := by
  have hoff : ∀ q, ¬ d ++ [c] <+: q → (fs.insert (d ++ [c]) n').lookup q = fs.lookup q :=
    fun q hq => lookup_insert_off hq fs n'
  have hin : ∀ cs, (fs.insert (d ++ [c]) n').lookup (userDir D shortid ++ cs) = fs.lookup (userDir D shortid ++ cs) := by
    intro cs
    rw [Map.lookup_insert_if, if_neg]
    intro heq
    exact ht.off (heq ▸ List.prefix_append _ _)
  refine ⟨h.tenantWay.congr fun q hq => hoff q ?_, ?_, ?_, ?_, h.way.congr fun q hq => hoff q ?_, ?_⟩
  · exact fun hp => ht.off' (hp.trans (hq.trans (List.prefix_append _ _)))
  · have hhome := hin []
    rw [List.append_nil] at hhome
    rw [hhome, h.home]
  · rw [hin, h.tmp]
  · intro a
    rw [hin]
    exact h.vacant a
  · intro hp
    exact absurd (hp.trans hq).length_le (by simp)
  · rw [Map.lookup_insert_if, if_pos rfl]

end Beside

/-! ## Where the names lead -/

theorem plain_username (shortid : Str) : Plain (username shortid) := by
  apply plain_of_length
  simp only [username, List.length_append]
  have : (lit "mcp_user_").length = 9 := by decide
  omega

theorem plain_userDir (D : Dirs) (shortid : Str) {name : Str} (hname : Plain name) : ∀ x ∈ userDir D shortid ++ [name], Plain x := by
  intro x hx
  simp only [userDir, List.mem_append, List.mem_singleton] at hx
  rcases hx with (hx | rfl) | rfl
  · exact D.plain x (by simp [hx])
  · exact plain_username shortid
  · exact hname

theorem plain_runtimeTmp : Plain runtimeTmp := by decide

theorem plain_runtimeFile : Plain runtimeFile := by decide

/-- The directories down to the tenant's own, for an account that may enter them all. -/
theorem Ways.userDir {who : Process} (h : Ways who fs D.usersStateDir) {a : Attr}
    (hhome : fs.lookup (Priv.userDir D shortid) = some (.dir a)) (hmay : who.may .search a = true) :
    Ways who fs (Priv.userDir D shortid) := by
  intro q hq
  rcases List.prefix_concat_iff.1 hq with rfl | hq
  · exact ⟨a, hhome, hmay⟩
  · exact h q hq

theorem Ways.root {who : Process} (h : Ways who fs d) (gid : Nat) : Ways (helperProcess gid) fs d := by
  intro q hq
  obtain ⟨a, ha, -⟩ := h q hq
  exact ⟨a, ha, root_may rfl _ _⟩

namespace Beside
variable (h : Beside D gid shortid tenant d c home tmp n fs)
include h

theorem locate_home (follow : Bool) :
    ((helperProcess gid).locate follow fs (inDir D.usersStateDir (username shortid))).2 = .ok (userDir D shortid) := by
  apply locate_way _ (h.tenantWay.root gid) follow (.inr fun a t hlink => ?_)
  · intro x hx
    rcases List.mem_append.1 hx with hx | hx
    · exact D.plain x (by simp [hx])
    · rw [List.mem_singleton.1 hx]
      exact plain_username shortid
  · have hhome := h.home
    rw [userDir, hlink] at hhome
    cases hhome

theorem locate_in {name : Str} (hname : Plain name) :
    ((helperProcess gid).locate false fs (inDir (userDir D shortid) name)).2 = .ok (userDir D shortid ++ [name]) :=
  locate_way (plain_userDir D shortid hname) ((h.tenantWay.root gid).userDir h.home (root_may rfl _ _)) false (.inl rfl)

/-- The tenant enters its directory. -/
theorem locate_tenant {name : Str} (hname : Plain name) (hmay : tenant.may .search home = true) :
    (tenant.locate false fs (inDir (userDir D shortid) name)).2 = .ok (userDir D shortid ++ [name]) :=
  locate_way (plain_userDir D shortid hname) (h.tenantWay.userDir h.home hmay) false (.inl rfl)

/-- The temporary name leads to the target once it is a link to it. -/
theorem locate_target {a : Attr} {target : Str} (htmp : tmp = some (.link a target))
    (htarget : PathStr.parse target = ⟨true, d ++ [c], false⟩) (ht : Target D shortid d c n) :
    ((helperProcess gid).locate true fs (inDir (userDir D shortid) runtimeTmp)).2 = .ok (d ++ [c]) := by
  apply locate_link (plain_userDir D shortid plain_runtimeTmp)
    ((h.tenantWay.root gid).userDir h.home (root_may rfl _ _)) (h.tmp.trans htmp) htarget ht.plain h.way
  intro a' t hlink
  rw [h.target] at hlink
  cases hlink
  exact ht.noLink a' t rfl

end Beside

/-! ## The run -/

/-- What the tenant becomes the owner of. -/
def handedOver (tenant : Process) (tgid : Nat) (n : Node) : Node := (n.setOwner tenant.uid tgid).setMode 0o600

section
variable {visudo : Str → Bool} {tgid : Nat}

/-- The tenant's directory is there, and is made its own. -/
theorem goes_ready (tgid : Nat) {b64 data : Str} (hvalid : validShortid shortid = true) (hb64 : b64 ≠ [])
    (hdata : decodedArgument b64 = some data) (h : Beside D gid shortid tenant d c home tmp n fs)
    (ht : Target D shortid d c n) :
    ∃ fs', Goes visudo gid (helperMain D [lit "write-runtime", shortid, b64]) fs
        (installRuntime (userDir D shortid) tenant.uid tgid data) fs' ∧
      Beside D gid shortid tenant d c ⟨tenant.uid, tgid, 0o700⟩ tmp n fs' := by
  let account : Outcome := { account := some (tenant.uid, tgid) }
  have hmkdir : sysExec (helperProcess gid) fs (.mkdir (inDir D.usersStateDir (username shortid)) 0o700) = .error .exist := by
    have hloc := h.locate_home false
    simp only [sysExec, Process.entry, inDir] at hloc ⊢
    rw [hloc]
    show mkdirAt (helperProcess gid) fs (userDir D shortid) 0o700 = _
    unfold mkdirAt
    rw [h.home]
    rfl
  have hrefused : serve (tool visudo) (helperProcess gid) {} fs (.sys (.mkdir (inDir D.usersStateDir (username shortid)) 0o700)) =
      (Except.error .exist, fs) := by
    obtain ⟨e, he, hs⟩ := serve_sys_error (tool visudo) (helperProcess gid) {} hmkdir
    rw [hs, he rfl]
  have hchown := h.insert_home ht { home with owner := tenant.uid, group := tgid }
  have hchmod := hchown.insert_home ht ⟨tenant.uid, tgid, 0o700⟩
  refine ⟨_, ?_, hchmod⟩
  rw [helperMain_writeRuntime]
  refine .call {} still_nothing (undisturbed rfl (serve_setuid (tool visudo) (helperProcess gid) {} rfl 0)) ?_
  simp only [cmdWriteRuntime, hvalid, Bool.not_true, hb64, decide_false, Bool.or_self, Bool.false_eq_true, if_false]
  refine .call account ⟨rfl, rfl⟩ rfl ?_
  simp only [account, hdata]
  unfold ensureOwnedDir handOver
  refine .call {} still_nothing hrefused ?_
  refine .call {} still_nothing (undisturbed rfl (serve_chown (tool visudo) (helperProcess gid) {} rfl (h.locate_home true) h.home
    tenant.uid tgid)) ?_
  exact .call {} still_nothing (undisturbed rfl (serve_chmod (tool visudo) (helperProcess gid) {} rfl (hchown.locate_home true)
    hchown.home 0o700)) (.here _ _)

/-- The bytes are written to the temporary file. -/
theorem goes_written (data : Str) (hfile : ∀ m, tmp = some m → ∃ a s, m = .file a s)
    (h : Beside D gid shortid tenant d c home tmp n fs) (ht : Target D shortid d c n) :
    ∃ fs' a s, Goes visudo gid (installRuntime (userDir D shortid) tenant.uid tgid data) fs
        (giveRuntime (userDir D shortid) tenant.uid tgid) fs' ∧
      Beside D gid shortid tenant d c home (some (.file a s)) n fs' := by
  obtain ⟨a, hcreat⟩ : ∃ a, creatAt (helperProcess gid) fs (runtimeTmpKey D shortid) 0o600 =
      .ok (fs.insert (runtimeTmpKey D shortid) (.file a [])) := by
    unfold creatAt
    rw [h.tmp]
    rcases tmp with _ | m
    · refine ⟨_, if_pos ?_⟩
      unfold Process.mayAdd
      rw [List.dropLast_concat, h.home]
      simp [root_may (helperProcess_uid gid)]
    · obtain ⟨a, s, rfl⟩ := hfile m rfl
      exact ⟨a, if_pos (root_may (helperProcess_uid gid) _ _)⟩
  have hopened := h.insert_tmp ht (.file a [])
  have hopen := undisturbed rfl (serve_openTrunc (tool visudo) (helperProcess gid) {} (h.locate_in plain_runtimeTmp) hcreat)
  have hsync : ∀ fs', serve (tool visudo) (helperProcess gid) {} fs' (.fsync (runtimeTmpKey D shortid)) = (Except.ok (), fs') :=
    fun fs' => rfl
  unfold installRuntime
  by_cases hdata : data = []
  · subst hdata
    exact ⟨_, a, [], .call {} still_nothing hopen (.call {} still_nothing (hsync _) (.here _ _)), hopened⟩
  · have hwritten := hopened.insert_tmp ht (.file a (data ++ List.drop data.length []))
    refine ⟨_, a, _, ?_, hwritten⟩
    exact .call {} still_nothing hopen ((goes_write hdata hopened.tmp).trans (.call {} still_nothing (hsync _) (.here _ _)))

/-- The helper gives away what the link leads to. -/
theorem goes_given {a : Attr} {target : Str} (h : Beside D gid shortid tenant d c home (some (.link a target)) n fs)
    (htarget : PathStr.parse target = ⟨true, d ++ [c], false⟩) (ht : Target D shortid d c n) :
    ∃ fs', Goes visudo gid (giveRuntime (userDir D shortid) tenant.uid tgid) fs (.done 0) fs' ∧
      fs'.lookup (d ++ [c]) = some (handedOver tenant tgid n) := by
  have hnoLink : ∀ b t, n.setOwner tenant.uid tgid ≠ .link b t := by
    intro b t hlink
    cases n with
    | link b' t' => exact ht.noLink b' t' rfl
    | file b' s' => cases hlink
    | dir b' => cases hlink
  have ht' : Target D shortid d c (n.setOwner tenant.uid tgid) := { ht with noLink := hnoLink }
  have hchown := h.insert_target ht (n.setOwner tenant.uid tgid)
  have hchmod := hchown.insert_target ht' (handedOver tenant tgid n)
  have hrename := rename_root (helperProcess_uid gid) (plain_userDir D shortid plain_runtimeTmp)
    (plain_userDir D shortid plain_runtimeFile) (hchmod.locate_in plain_runtimeTmp) (hchmod.locate_in plain_runtimeFile)
    hchmod.home runtimeTmp_ne hchmod.tmp rfl
  obtain ⟨fs', hr, -, -, hsame⟩ := hrename.resolve_left fun ⟨⟨b, hdir⟩, _⟩ => hchmod.vacant b hdir
  refine ⟨fs', ?_, ?_⟩
  · unfold giveRuntime
    refine .call {} still_nothing (undisturbed rfl (serve_chown (tool visudo) (helperProcess gid) {} rfl (h.locate_target rfl htarget ht)
      h.target tenant.uid tgid)) ?_
    refine .call {} still_nothing (undisturbed rfl (serve_chmod (tool visudo) (helperProcess gid) {} rfl
      (hchown.locate_target rfl htarget ht') hchown.target 0o600)) ?_
    exact .call {} still_nothing (undisturbed rfl (serve_sys (tool visudo) (helperProcess gid) {} hr)) (.here _ _)
  · rw [hsame, hchmod.target]
    · exact fun hp => ht.off ((List.prefix_append _ _).trans hp)
    · exact fun hp => ht.off ((List.prefix_append _ _).trans hp)

end

/-! ## The tenant -/

variable (D shortid tenant) in
/-- The tenant takes the temporary file away and puts a link there. -/
def relinking (target : Str) : List (Happening Tool (List Str)) :=
  [.foreign tenant (.unlink (inDir (userDir D shortid) runtimeTmp)) {},
    .foreign tenant (.symlink target (inDir (userDir D shortid) runtimeTmp)) {}]

/-- Its directory is its own, so it may do that. -/
theorem run_relinking (visudo : Str → Bool) {a : Attr} {s : Str} (h : Beside D gid shortid tenant d c home (some (.file a s)) n fs)
    (ht : Target D shortid d c n) (howner : home.owner = tenant.uid) (hmay : ∀ right : Access, tenant.may right home = true)
    (target : Str) (running : List (List Str × Command)) :
    ∃ fs', run (helperNext visudo D gid) ⟨fs, running⟩ (relinking D shortid tenant target) = some ⟨fs', running⟩ ∧
      Beside D gid shortid tenant d c home (some (.link ⟨tenant.uid, tenant.gid, 0o777⟩ target)) n fs' := by
  have herased := h.erase_tmp ht
  have hlinked := herased.insert_tmp ht (.link ⟨tenant.uid, tenant.gid, 0o777⟩ target)
  have hmayUnlink : tenant.mayUnlink fs (runtimeTmpKey D shortid) = true := by
    unfold Process.mayUnlink
    rw [List.dropLast_concat, h.home, h.tmp]
    simp [hmay, howner]
  have hmayAdd : tenant.mayAdd (fs.erase (runtimeTmpKey D shortid)) (runtimeTmpKey D shortid) = true := by
    unfold Process.mayAdd
    rw [List.dropLast_concat, herased.home]
    simp [hmay]
  have hunlink := undisturbed rfl (serve_unlink (tool visudo) tenant {} (h.locate_tenant plain_runtimeTmp (hmay _)) h.tmp rfl
    hmayUnlink)
  have hsymlink := undisturbed rfl (serve_symlink (tool visudo) tenant {} (herased.locate_tenant plain_runtimeTmp (hmay _))
    herased.tmp hmayAdd target)
  refine ⟨_, run_cons.2 ⟨⟨fs.erase (runtimeTmpKey D shortid), running⟩, ?_, run_cons.2 ⟨⟨_, running⟩, ?_, rfl⟩⟩, hlinked⟩
  · simp only [Machine.next, hunlink]
  · simp only [Machine.next, hsymlink]

end

/-- A tenant gets any node that is apart from its directory: with two calls between two of the helper it is
made the owner, with mode 0600, and the helper reports success. -/
theorem write_runtime_takes_over (visudo : Str → Bool) (D : Dirs) (gid tgid : Nat) {shortid b64 data target : Str}
    {tenant : Process} {d : AbsPath} {c : Str} {home : Attr} {tmp : Option Node} {n : Node} {fs : Fs}
    (hvalid : validShortid shortid = true) (hb64 : b64 ≠ []) (hdata : decodedArgument b64 = some data)
    (hfile : ∀ m, tmp = some m → ∃ a s, m = .file a s) (h : Beside D gid shortid tenant d c home tmp n fs)
    (htarget : PathStr.parse target = ⟨true, d ++ [c], false⟩) (ht : Target D shortid d c n) :
    ∃ es es' m, (∀ e ∈ es ++ es', e.IsStep) ∧
      run (helperNext visudo D gid) ⟨fs, []⟩
        (.start [lit "write-runtime", shortid, b64] :: (es ++ relinking D shortid tenant target ++ es')) = some m ∧
      m.running = [([lit "write-runtime", shortid, b64], .done 0)] ∧
      m.fs.lookup (d ++ [c]) = some (handedOver tenant tgid n) := by
  obtain ⟨fs₁, hready, h₁⟩ := goes_ready tgid hvalid hb64 hdata h ht
  obtain ⟨fs₂, a, s, hwritten, h₂⟩ := goes_written data hfile h₁ ht
  have hmay : ∀ right : Access, tenant.may right ⟨tenant.uid, tgid, 0o700⟩ = true := by
    intro right
    unfold Account.may
    cases right <;> simp [Access.bit]
  let argv := [lit "write-runtime", shortid, b64]
  obtain ⟨fs₃, hrelinked, h₃⟩ := run_relinking visudo h₂ ht rfl hmay target
    [(argv, giveRuntime (userDir D shortid) tenant.uid tgid)]
  obtain ⟨fs₄, hgiven, howned⟩ := goes_given h₃ htarget ht
  have hgo : ∀ {prog prog' : Command} {fs fs' : Fs}, Goes visudo gid prog fs prog' fs' →
      Machine.Reaches (tool visudo) (helperProcess gid) (helperMain D) ⟨fs, [(argv, prog)]⟩ ⟨fs', [(argv, prog')]⟩ :=
    fun h => Machine.reaches_of_goes h [] [] argv
  obtain ⟨es, hes, hrun⟩ := (hgo hready).trans (hgo hwritten)
  obtain ⟨es', hes', hrun'⟩ := hgo hgiven
  refine ⟨es, es', ⟨fs₄, [(argv, .done 0)]⟩, fun e he => (List.mem_append.1 he).elim (hes e) (hes' e), ?_, rfl, howned⟩
  exact run_cons.2 ⟨_, rfl, run_trans (run_trans hrun hrelinked) hrun'⟩

def smallHomes : Fs :=
  (((((∅ : Fs).insert [] (.dir ⟨0, 0, 0o755⟩)).insert [lit "u"] (.dir ⟨0, 7, 0o755⟩)).insert
    (userDir smallDirs (lit "abcdefgh")) (.dir ⟨5, 5, 0o700⟩)).insert [lit "etc"] (.dir ⟨0, 0, 0o755⟩)).insert
    [lit "etc", lit "shadow"] (.file ⟨0, 42, 0o640⟩ (lit "root:x"))

theorem write_runtime_takes_over_shadow : ∃ es es' m, (∀ e ∈ es ++ es', e.IsStep) ∧
    run (helperNext (fun _ => true) smallDirs 7) ⟨smallHomes, []⟩
      (.start [lit "write-runtime", lit "abcdefgh", lit "e30="] ::
        (es ++ relinking smallDirs (lit "abcdefgh") ⟨⟨5, 5, []⟩, 0o22, []⟩ (lit "/etc/shadow") ++ es')) = some m ∧
    m.running = [([lit "write-runtime", lit "abcdefgh", lit "e30="], .done 0)] ∧
    m.fs.lookup ([lit "etc"] ++ [lit "shadow"]) = some (handedOver ⟨⟨5, 5, []⟩, 0o22, []⟩ 5
      (.file ⟨0, 42, 0o640⟩ (lit "root:x"))) := by
  have hways : ∀ (who : Process) (c : Str), c = lit "u" ∨ c = lit "etc" → Ways who smallHomes [c] := by
    intro who c hc q hq
    have hmay : ∀ g, who.may .search ⟨0, g, 0o755⟩ = true := by
      intro g
      unfold Account.may
      simp only [Access.bit]
      split <;> simp
    rcases List.prefix_concat_iff.1 (show q <+: [] ++ [c] from hq) with rfl | hq
    · rcases hc with rfl | rfl
      · exact ⟨_, rfl, hmay 7⟩
      · exact ⟨_, rfl, hmay 0⟩
    · rw [List.prefix_nil.1 hq]
      exact ⟨_, rfl, hmay 0⟩
  have h : Beside smallDirs 7 (lit "abcdefgh") ⟨⟨5, 5, []⟩, 0o22, []⟩ [lit "etc"] (lit "shadow") ⟨5, 5, 0o700⟩ none
      (.file ⟨0, 42, 0o640⟩ (lit "root:x")) smallHomes :=
    ⟨hways _ _ (.inl rfl), by decide, by decide, (fun a ha => by cases ha), hways _ _ (.inr rfl), by decide⟩
  have hdata : decodedArgument (lit "e30=") = some (lit "\x7b\x7d") := by decide +kernel
  have htarget : PathStr.parse (lit "/etc/shadow") = ⟨true, [lit "etc"] ++ [lit "shadow"], false⟩ := by decide
  exact write_runtime_takes_over (fun _ => true) smallDirs 7 5 (by decide) (by decide) hdata (fun m hm => by cases hm) h htarget
    ⟨by decide, (fun a t ht => by cases ht), by decide, by decide⟩

end McpBridge.Priv
