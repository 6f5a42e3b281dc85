import McpBridge.Grants.SpecScan
import McpBridge.Priv.Install
/-!
# Two helpers for one grant (`priv/main.c`)

The name under which a grant is staged depends on its id only, and the helper opens it
without `O_EXCL`. Two helpers for one grant then write one file: where the daemon
writes another spec in between, what is renamed into place is a part of each. Each part
passed the shape check, and the whole was never looked at but by `visudo`, which takes any
line. `same_grant_mixes` is that the daemon gets any line into the sudoers directory so.
-/

open McpBridge.Lib
open McpBridge.Grants (validShortid validGrantid specWellFormed prefixA pathMid wildcardTail specWellFormed_of_parts
  specWellFormed_checks)

namespace McpBridge.Priv

/-- The directories down to one, each open to the account. -/
def Ways (who : Process) (fs : Fs) (d : AbsPath) : Prop :=
  ∀ q, q <+: d → ∃ a, fs.lookup q = some (.dir a) ∧ who.may .search a = true

theorem Ways.congr {who : Process} {fs fs' : Fs} {d : AbsPath} (h : Ways who fs d)
    (hsame : ∀ q, q <+: d → fs'.lookup q = fs.lookup q) : Ways who fs' d := by
  intro q hq
  rw [hsame q hq]
  exact h q hq

section
variable {visudo : Str → Bool} {D : Dirs} {gid : Nat} {fs : Fs} {grantid : Str}

/-- Some calls of a helper, one after another. -/
abbrev Goes (visudo : Str → Bool) (gid : Nat) : Command → Fs → Command → Fs → Prop :=
  Prog.Goes (tool visudo) (helperProcess gid)

theorem still_nothing : Outcome.Still {} := ⟨rfl, rfl⟩

/-- A helper reads a spec that passes the check, and finds no grant installed. -/
theorem goes_read {spec : Str} (hr : Requested D fs grantid spec) :
    Goes visudo gid (helperMain D [lit "install-grant", grantid]) fs
      (stage D (grantTmp grantid) (grantFinal grantid) spec) fs := by
  obtain ⟨hloc, b, hn⟩ := hr.attempted.spec_file hr gid
  have hlink : ∀ a t, Node.file b spec ≠ .link a t := by rintro _ _ ⟨⟩
  have hlen := specWellFormed_length hr.wellFormed
  have hne : spec ≠ [] := by
    rintro rfl
    exact absurd hr.wellFormed (by decide)
  have hheld : heldBy fs {} (specPath D grantid).names = some spec := by simp only [heldBy, hn]
  -- The calls that only look, each with the answer of a tree that nothing disturbs.
  refine .call {} still_nothing (undisturbed rfl (serve_setuid (tool visudo) (helperProcess gid) {} rfl 0)) ?_
  show Goes visudo gid (cmdInstallGrant D [grantid]) fs _ fs
  simp only [cmdInstallGrant, hr.valid, Bool.not_true, Bool.false_eq_true, if_false]
  refine .call {} still_nothing (undisturbed rfl (serve_openRead (tool visudo) (helperProcess gid) {} rfl hloc hn hlink)) ?_
  refine .call {} still_nothing (undisturbed rfl (serve_fstat (tool visudo) (helperProcess gid) _ hheld)) ?_
  have hsize : (!true || decide (4096 < spec.length)) = false := by simp [hlen]
  simp only [hsize, Bool.false_eq_true, if_false]
  refine .call {} still_nothing (undisturbed rfl (serve_read (tool visudo) (helperProcess gid) _ hheld 4096)) ?_
  simp only [List.take_of_length_le hlen, if_neg hne, hr.wellFormed, Bool.not_true, Bool.false_eq_true, if_false]
  have hlook : lookAt (helperProcess gid) fs true (inDir D.sudoersDir (grantFinal grantid)) = .error .noent := by
    have hloc := hr.guarded.locate (helperProcess_uid gid) true (D.plain_sudoers (plain_grantFinal grantid))
      (.inr fun _ _ hlink => by rw [← grantKey, hr.fresh] at hlink; cases hlink)
    unfold lookAt inDir
    rw [hloc]
    show (if (fs.lookup (grantKey D grantid)).isSome then _ else _) = _
    rw [hr.fresh]
    rfl
  have hs : serve (tool visudo) (helperProcess gid) {} fs (.access (inDir D.sudoersDir (grantFinal grantid))) =
      (Except.error .noent, fs) := by
    show Outcome.answer {} fs ((lookAt (helperProcess gid) fs true (inDir D.sudoersDir (grantFinal grantid))).map _) = _
    rw [hlook]
    rfl
  exact .call {} still_nothing hs (.here _ _)

variable (D grantid) in
/-- The staged file is open, and is to be filled. -/
def filling (spec : Str) : Command :=
  writeLoop (tmpKey D grantid) spec (discard D (grantTmp grantid) 11)
    (commit D (tmpKey D grantid) (grantTmp grantid) (grantFinal grantid)) spec.length 0

/-- It opens the staged file, which is empty then. -/
theorem goes_open (spec : Str) (hguarded : Guarded fs D.sudoersDir) (hstaged : FileOrNone fs (tmpKey D grantid)) :
    ∃ a, a.rootOnly = true ∧ Goes visudo gid (stage D (grantTmp grantid) (grantFinal grantid) spec) fs
      (filling D grantid spec) (fs.insert (tmpKey D grantid) (.file a [])) := by
  have hmode : ((helperProcess gid).attr 0o440).rootOnly = true := by
    simp only [helperProcess, Process.attr, Attr.rootOnly]
    decide
  rcases hguarded.serve_openTrunc (tool visudo) (helperProcess_uid gid) {} (D.plain_sudoers (plain_grantTmp grantid)) hmode with
    ⟨e, ho, -⟩ | ⟨a, ha, hs⟩
  · exact absurd hstaged (ho rfl)
  · exact ⟨a, ha, .call {} still_nothing hs (.here _ _)⟩

/-- All of the data is written at once, over the beginning of what the file holds by then. -/
theorem goes_write {q : AbsPath} {data old : Str} {failed written : Command} {a : Attr} (hdata : data ≠ [])
    (hn : fs.lookup q = some (.file a old)) : Goes visudo gid (writeLoop q data failed written data.length 0) fs written
      (fs.insert q (.file a (data ++ old.drop data.length))) := by
  obtain ⟨n, hlen⟩ : ∃ n, data.length = n + 1 := Nat.exists_eq_succ_of_ne_zero fun h => hdata (List.length_eq_zero_iff.1 h)
  have hw : pwriteAt fs q 0 (data.drop 0) 0 = .ok (data.length, fs.insert q (.file a (data ++ old.drop data.length))) := by
    unfold pwriteAt
    rw [hn]
    simp [overwrite]
  have hs : serve (tool visudo) (helperProcess gid) {} fs (.pwrite q 0 (data.drop 0)) =
      (Except.ok data.length, fs.insert q (.file a (data ++ old.drop data.length))) :=
    undisturbed rfl (answer_of_ok {} hw)
  have hfuel : writeLoop q data failed written data.length 0 = writeLoop q data failed written (n + 1) 0 := by rw [hlen]
  rw [hfuel, writeLoop, if_pos (by omega)]
  refine .call {} still_nothing hs ?_
  -- The second turn finds nothing left to write.
  have hend : ∀ fuel, writeLoop q data failed written fuel (0 + data.length) = written := by
    intro fuel
    cases fuel with
    | zero => rfl
    | succ fuel => rw [writeLoop, if_neg (by omega)]
  simp only
  rw [hend]
  exact .here _ _

theorem goes_fill {spec old : Str} {a : Attr} (hspec : spec ≠ []) (hn : fs.lookup (tmpKey D grantid) = some (.file a old)) :
    Goes visudo gid (filling D grantid spec) fs (commit D (tmpKey D grantid) (grantTmp grantid) (grantFinal grantid))
      (fs.insert (tmpKey D grantid) (.file a (spec ++ old.drop spec.length))) := goes_write hspec hn

/-- It puts into place what the staged file holds, where `visudo` accepts that. -/
theorem goes_commit {content : Str} {a : Attr} (hid : validGrantid grantid = true) (hguarded : Guarded fs D.sudoersDir)
    (ha : a.rootOnly = true) (hn : fs.lookup (tmpKey D grantid) = some (.file a content)) (hvisudo : visudo content = true)
    (hfresh : fs.lookup (grantKey D grantid) = none) :
    ∃ a' fs', Goes visudo gid (commit D (tmpKey D grantid) (grantTmp grantid) (grantFinal grantid)) fs (.done 0) fs' ∧
      a'.owner = 0 ∧ fs'.lookup (grantKey D grantid) = some (.file a' content) := by
  have hplain := D.plain_sudoers (plain_grantTmp grantid)
  obtain ⟨a', hnode, hroot, howner, -⟩ := setOwner_root content ha
  have hchown := undisturbed rfl (hguarded.serve_chown (tool visudo) (helperProcess_uid gid) {} hplain hn 0 0)
  rw [hnode] at hchown
  have hguarded' := (hguarded.insert_file content hroot : Guarded (fs.insert (D.sudoersDir ++ [grantTmp grantid]) _) _)
  have hn' : (fs.insert (D.sudoersDir ++ [grantTmp grantid]) (.file a' content)).lookup (tmpKey D grantid) =
      some (.file a' content) := by rw [tmpKey, Map.lookup_insert_if, if_pos rfl]
  have hfresh' : (fs.insert (D.sudoersDir ++ [grantTmp grantid]) (.file a' content)).lookup (grantKey D grantid) = none := by
    rw [lookup_insert_off (Kept.not_prefix (tmpKey_ne_grantKey hid)), hfresh]
  have hvis : (tool visudo (helperProcess gid) (.visudo (inDir D.sudoersDir (grantTmp grantid))) {}
      (fs.insert (D.sudoersDir ++ [grantTmp grantid]) (.file a' content))) =
      ((0, []), fs.insert (D.sudoersDir ++ [grantTmp grantid]) (.file a' content)) := by
    simp only [tool, contentAt_staged gid hguarded' (plain_grantTmp grantid) hn', Option.any_some, hvisudo, if_true]
  rcases hguarded'.serve_rename (tool visudo) (helperProcess_uid gid) {} hplain (D.plain_sudoers (plain_grantFinal grantid))
    (tmpKey_ne_grantKey hid) hn' rfl with ⟨e, ho, -⟩ | ⟨fs', hs, hthere, -, -⟩
  · obtain ⟨b, hdir⟩ := ho rfl
    rw [← grantKey, hfresh'] at hdir
    cases hdir
  refine ⟨a', fs', ?_, howner, hthere⟩
  unfold commit
  refine .call {} still_nothing (undisturbed rfl (serve_fsync (tool visudo) (helperProcess gid) {} (tmpKey D grantid))) ?_
  refine .call {} still_nothing hchown ?_
  refine .call {} still_nothing hvis ?_
  exact .call {} still_nothing hs (.here _ _)

end

/-! ## The mixture -/

/-- The spec of the system administrator. -/
def adminSpec (shortid : Str) : Str := prefixA ++ shortid ++ wildcardTail

/-- A spec for a command whose last argument is a line. It has the line where the other spec has ended. -/
def carrierSpec (shortid line : Str) : Str := prefixA ++ shortid ++ (pathMid ++ lit "a " ++ line ++ lit "\n")

theorem adminSpec_wellFormed {shortid : Str} (h : validShortid shortid = true) : specWellFormed (adminSpec shortid) = true := by
  have hbody : wildcardTail = lit " ALL=(ALL) NOPASSWD: ALL" ++ [ch '\n'] := by decide
  apply specWellFormed_of_parts h hbody _ (.inr rfl)
  · simp only [validShortid, Bool.and_eq_true, decide_eq_true_eq] at h
    simp only [List.length_append, h.1]
    decide
  · exact List.all_eq_true.1 (by decide)

theorem carrierSpec_wellFormed {shortid line : Str} (h : validShortid shortid = true) (hline : line.all isPrint = true)
    (hlen : line.length ≤ 4000) : specWellFormed (carrierSpec shortid line) = true := by
  have hbody : pathMid ++ lit "a " ++ line ++ lit "\n" = (pathMid ++ lit "a " ++ line) ++ [ch '\n'] := rfl
  apply specWellFormed_of_parts h hbody _ (.inl ?_)
  · simp only [validShortid, Bool.and_eq_true, decide_eq_true_eq] at h
    have hprefix : prefixA.length = 9 := by decide
    have hmid : pathMid.length = 23 := by decide
    have ha : (lit "a ").length = 2 := by decide
    have hnl : (lit "\n").length = 1 := by decide
    simp only [List.length_append, h.1]
    omega
  · intro c hc
    rcases List.mem_append.1 hc with hc | hc
    · exact List.all_eq_true.1 (by decide : (pathMid ++ lit "a ").all isPrint = true) c hc
    · exact List.all_eq_true.1 hline c hc
  · exact ⟨lit "a " ++ line ++ lit "\n", by simp only [List.append_assoc]⟩

/-- The one spec over the other: the line stands by itself. -/
theorem mixture (shortid line : Str) :
    adminSpec shortid ++ (carrierSpec shortid line).drop (adminSpec shortid).length = adminSpec shortid ++ line ++ lit "\n" := by
  have hsplit : carrierSpec shortid line = (prefixA ++ shortid ++ (pathMid ++ lit "a ")) ++ (line ++ lit "\n") := by
    unfold carrierSpec
    simp only [List.append_assoc]
  have hlen : (adminSpec shortid).length = (prefixA ++ shortid ++ (pathMid ++ lit "a ")).length := by
    have htail : wildcardTail.length = (pathMid ++ lit "a ").length := by decide
    unfold adminSpec
    rw [List.length_append, htail, ← List.length_append]
  rw [hlen, hsplit, List.drop_left, List.append_assoc]

/-- The shape check takes one line only. -/
theorem mixture_not_wellFormed (shortid line : Str) : specWellFormed (adminSpec shortid ++ line ++ lit "\n") = false := by
  rw [Bool.eq_false_iff]
  intro h
  obtain ⟨-, hprint, -⟩ := specWellFormed_checks h
  have hnl : (adminSpec shortid ++ line ++ lit "\n").dropLast = adminSpec shortid ++ line := by
    rw [show lit "\n" = [ch '\n'] from rfl, List.dropLast_concat]
  rw [hnl] at hprint
  have hmem : ch '\n' ∈ wildcardTail := by decide
  have hbad := hprint (ch '\n') (by simp [adminSpec, hmem])
  exact absurd hbad (by decide)

/-! ## The daemon between two helpers -/

section
variable {D : Dirs} {grantid : Str} {daemon : Process}

variable (D grantid daemon) in
/-- The daemon's account empties the file of the spec and writes another. -/
def rewriting (spec : Str) : List (Happening Tool (List Str)) :=
  [.foreign daemon (.openTrunc (specPath D grantid) 0o600) {}, .foreign daemon (.pwrite (specPath D grantid).names 0 spec) {}]

/-- The account may do that. -/
structure MayRewrite (D : Dirs) (grantid : Str) (daemon : Process) (fs : Fs) : Prop where
  way : Ways daemon fs D.stateDir
  spec : ∃ a s, fs.lookup (specPath D grantid).names = some (.file a s) ∧ daemon.may .write a = true

theorem specPath_ne_of_above {q : AbsPath} (hq : q <+: D.stateDir) : q ≠ (specPath D grantid).names := by
  rintro rfl
  exact absurd hq.length_le (by simp [specPath, inDir])

/-- The spec is in another directory than the one sudo reads, and not above it. -/
theorem specPath_ne_of_kept {q : AbsPath} (hq : Kept D.sudoersDir q) : q ≠ (specPath D grantid).names := by
  have hstate : D.stateDir <+: (specPath D grantid).names := List.prefix_append _ _
  rintro rfl
  rcases hq with hq | ⟨c, hc⟩
  · exact D.apart.1 (hstate.trans hq)
  · have hdir : D.stateDir = D.sudoersDir := List.append_inj_left' hc rfl
    exact D.apart.1 (hdir ▸ List.prefix_rfl)

variable {visudo : Str → Bool} {gid : Nat} {fs : Fs} {spec spec' : Str}

variable (visudo gid) in
/-- The daemon replaces one spec by another, and the grant is requested by that. -/
theorem run_rewriting (hmay : MayRewrite D grantid daemon fs) (hr : Requested D fs grantid spec)
    (hwell : specWellFormed spec' = true) (running : List (List Str × Command)) :
    ∃ fs', run (helperNext visudo D gid) ⟨fs, running⟩ (rewriting D grantid daemon spec') = some ⟨fs', running⟩ ∧
      Requested D fs' grantid spec' ∧ MayRewrite D grantid daemon fs' := by
  obtain ⟨a, s, hn, hwrite⟩ := hmay.spec
  let opened : Fs := fs.insert (specPath D grantid).names (.file a [])
  let written : Fs := opened.insert (specPath D grantid).names (.file a spec')
  have hloc : (daemon.locate false fs (specPath D grantid)).2 = .ok (specPath D grantid).names :=
    locate_way (plain_specPath D grantid) hmay.way false (.inl rfl)
  have hcreat : creatAt daemon fs (specPath D grantid).names 0o600 = .ok opened := by
    unfold creatAt
    simp only [hn, hwrite, if_true]
    rfl
  have hopen := undisturbed rfl (serve_openTrunc (tool visudo) daemon {} hloc hcreat)
  have hpwrite : pwriteAt opened (specPath D grantid).names 0 spec' 0 = .ok (spec'.length, written) := by
    unfold pwriteAt
    simp only [opened, Map.lookup_insert_if, if_true]
    simp [overwrite, written, opened]
  have hw : serve (tool visudo) daemon {} opened (.pwrite (specPath D grantid).names 0 spec') =
      (Except.ok spec'.length, written) := undisturbed rfl (answer_of_ok {} hpwrite)
  have hthere : written.lookup (specPath D grantid).names = some (.file a spec') := by
    rw [Map.lookup_insert_if, if_pos rfl]
  have hsame : ∀ q, q ≠ (specPath D grantid).names → written.lookup q = fs.lookup q := by
    intro q hq
    rw [Map.lookup_insert_if, if_neg hq, Map.lookup_insert_if, if_neg hq]
  have hkept : ∀ q, Kept D.sudoersDir q → written.lookup q = fs.lookup q := fun q hq => hsame q (specPath_ne_of_kept hq)
  have hway : ∀ q, q <+: D.stateDir → written.lookup q = fs.lookup q := fun q hq => hsame q (specPath_ne_of_above hq)
  refine ⟨written, ?_, ⟨hr.valid, hwell, hr.guarded.congr hkept, ?_, ?_, ?_, ⟨a, hthere⟩⟩, hmay.way.congr hway,
    a, spec', hthere, hwrite⟩
  · refine run_cons.2 ⟨⟨opened, running⟩, ?_, run_cons.2 ⟨⟨written, running⟩, ?_, rfl⟩⟩
    · simp only [Machine.next, hopen]
    · simp only [Machine.next, hw]
  · intro n hn
    rw [hkept _ (.inr ⟨_, rfl⟩)] at hn
    exact hr.staged n hn
  · rw [hkept _ (.inr ⟨_, rfl⟩), hr.fresh]
  · intro q hq
    rw [hway q hq]
    exact hr.way q hq

end

/-- Two helpers for one grant, and the daemon that writes the spec anew before the one reads it and before
the other does: any line that `visudo` takes after the administrator's gets to where sudo reads it, in a
file the shape check would refuse. -/
theorem same_grant_mixes (visudo : Str → Bool) (D : Dirs) (gid : Nat) {fs : Fs} {grantid shortid line : Str}
    {daemon : Process} (hshortid : validShortid shortid = true) (hline : line.all isPrint = true) (hlen : line.length ≤ 4000)
    (hr : Requested D fs grantid (adminSpec shortid)) (hmay : MayRewrite D grantid daemon fs)
    (hvisudo : visudo (adminSpec shortid ++ line ++ lit "\n") = true) :
    ∃ es es' m a, (∀ e ∈ es ++ es', e.IsStep) ∧
      run (helperNext visudo D gid) ⟨fs, []⟩
        ([.start [lit "install-grant", grantid], .start [lit "install-grant", grantid]] ++
          rewriting D grantid daemon (carrierSpec shortid line) ++ es ++ rewriting D grantid daemon (adminSpec shortid) ++ es') =
        some m ∧
      a.owner = 0 ∧ m.fs.lookup (grantKey D grantid) = some (.file a (adminSpec shortid ++ line ++ lit "\n")) ∧
      specWellFormed (adminSpec shortid ++ line ++ lit "\n") = false := by
  have hstaged : ∀ {fs : Fs} {a : Attr} {s : Str}, FileOrNone (fs.insert (tmpKey D grantid) (.file a s)) (tmpKey D grantid) := by
    intro fs a s n hn
    rw [Map.lookup_insert_if, if_pos rfl] at hn
    cases hn
    exact ⟨a, s, rfl⟩
  have hthere : ∀ {fs : Fs} {n : Node}, (fs.insert (tmpKey D grantid) n).lookup (tmpKey D grantid) = some n := by
    intro fs n
    rw [Map.lookup_insert_if, if_pos rfl]
  have hne : ∀ {spec : Str}, specWellFormed spec = true → spec ≠ [] := by
    rintro _ hwell rfl
    exact absurd hwell (by decide)
  have hcarrier := carrierSpec_wellFormed hshortid hline hlen
  have hadmin := adminSpec_wellFormed hshortid
  -- The one helper reads the carrier, and the other the administrator's spec.
  let argv : List Str := [lit "install-grant", grantid]
  obtain ⟨fs₁, hrun₁, hr₁, hmay₁⟩ := run_rewriting visudo gid hmay hr hcarrier
    [(argv, helperMain D argv), (argv, helperMain D argv)]
  have hread : Goes visudo gid (helperMain D argv) fs₁ _ fs₁ := goes_read hr₁
  obtain ⟨fs₂, hrun₂, hr₂, -⟩ := run_rewriting visudo gid hmay₁ hr₁ hadmin
    [(argv, stage D (grantTmp grantid) (grantFinal grantid) (carrierSpec shortid line)), (argv, helperMain D argv)]
  have hread' : Goes visudo gid (helperMain D argv) fs₂ _ fs₂ := goes_read hr₂
  -- Both open the staged file before the one writes the carrier and the other writes over it.
  obtain ⟨a, ha, hopen⟩ := goes_open (carrierSpec shortid line) hr₂.guarded hr₂.staged
  let opened : Fs := fs₂.insert (tmpKey D grantid) (.file a [])
  have hguarded : Guarded opened D.sudoersDir := hr₂.guarded.insert_file [] ha
  obtain ⟨a', ha', hopen'⟩ := goes_open (adminSpec shortid) hguarded hstaged
  let opened' : Fs := opened.insert (tmpKey D grantid) (.file a' [])
  let written : Fs := opened'.insert (tmpKey D grantid) (.file a' (carrierSpec shortid line))
  let mixed : Fs := written.insert (tmpKey D grantid) (.file a' (adminSpec shortid ++ line ++ lit "\n"))
  have hfill : Goes visudo gid (filling D grantid (carrierSpec shortid line)) opened'
      (commit D (tmpKey D grantid) (grantTmp grantid) (grantFinal grantid)) written := by
    have h : Goes visudo gid _ opened' _ (opened'.insert (tmpKey D grantid) (.file a' (carrierSpec shortid line ++ _))) :=
      goes_fill (hne hcarrier) hthere
    rwa [List.drop_nil, List.append_nil] at h
  have hfill' : Goes visudo gid (filling D grantid (adminSpec shortid)) written
      (commit D (tmpKey D grantid) (grantTmp grantid) (grantFinal grantid)) mixed := by
    have h : Goes visudo gid _ written _ (written.insert (tmpKey D grantid) (.file a' (adminSpec shortid ++ _))) :=
      goes_fill (hne hadmin) hthere
    rwa [mixture] at h
  have hguarded' : Guarded mixed D.sudoersDir :=
    ((hguarded.insert_file [] ha').insert_file (carrierSpec shortid line) ha').insert_file _ ha'
  have hfresh : mixed.lookup (grantKey D grantid) = none := by
    have hoff := Kept.not_prefix (d := D.sudoersDir) (tmpKey_ne_grantKey hr.valid)
    simp only [mixed, written, opened', opened, lookup_insert_off hoff, hr₂.fresh]
  obtain ⟨a'', fs', hcommit, howner, hinstalled⟩ := goes_commit hr.valid hguarded' ha' hthere hvisudo hfresh
  have hgo : ∀ {prog prog' : Command} {fs fs' : Fs}, Goes visudo gid prog fs prog' fs' → ∀ before after,
      Machine.Reaches (tool visudo) (helperProcess gid) (helperMain D) ⟨fs, before ++ (argv, prog) :: after⟩
        ⟨fs', before ++ (argv, prog') :: after⟩ :=
    fun h before after => Machine.reaches_of_goes h before after _
  obtain ⟨es, hes, hrunes⟩ := hgo hread [] [(argv, helperMain D argv)]
  obtain ⟨es', hes', hrunes'⟩ := (((((hgo hread' [_] []).trans (hgo hopen [] [_])).trans (hgo hopen' [_] [])).trans
    (hgo hfill [] [_])).trans (hgo hfill' [_] [])).trans (hgo hcommit [] [_])
  let last : Command := commit D (tmpKey D grantid) (grantTmp grantid) (grantFinal grantid)
  refine ⟨es, es', ⟨fs', [(argv, .done 0), (argv, last)]⟩, a'', fun e he => (List.mem_append.1 he).elim (hes e) (hes' e), ?_,
    howner, hinstalled, mixture_not_wellFormed shortid line⟩
  have hstart : run (helperNext visudo D gid) ⟨fs, []⟩ [.start argv, .start argv] =
      some ⟨fs, [(argv, helperMain D argv), (argv, helperMain D argv)]⟩ := rfl
  exact run_trans (run_trans (run_trans (run_trans hstart hrun₁) hrunes) hrun₂) hrunes'

/-- The line gives the daemon's account everything. -/
def daemonLine : Str := lit "mcp ALL=(ALL) NOPASSWD: ALL"

def mcpProcess : Process := ⟨⟨7, 7, []⟩, 0o77, []⟩

theorem same_grant_mixes_daemon : ∃ es es' m a, (∀ e ∈ es ++ es', e.IsStep) ∧
    run (helperNext (fun _ => true) smallDirs 0) ⟨smallTree, []⟩
      ([.start [lit "install-grant", smallId 'b'], .start [lit "install-grant", smallId 'b']] ++
        rewriting smallDirs (smallId 'b') mcpProcess (carrierSpec (lit "abcdefgh") daemonLine) ++ es ++
        rewriting smallDirs (smallId 'b') mcpProcess (adminSpec (lit "abcdefgh")) ++ es') = some m ∧
    a.owner = 0 ∧
    m.fs.lookup (grantKey smallDirs (smallId 'b')) = some (.file a (adminSpec (lit "abcdefgh") ++ daemonLine ++ lit "\n")) ∧
    specWellFormed (adminSpec (lit "abcdefgh") ++ daemonLine ++ lit "\n") = false := by
  have hway : Ways mcpProcess smallTree smallDirs.stateDir := by
    intro q hq
    rcases List.prefix_concat_iff.1 (show q <+: [] ++ [lit "s"] from hq) with rfl | hq
    · exact ⟨⟨7, 7, 0o755⟩, by decide, by decide⟩
    · rw [List.prefix_nil.1 hq]
      exact ⟨⟨0, 0, 0o755⟩, by decide, by decide⟩
  have hspec : ∃ a s, smallTree.lookup (specPath smallDirs (smallId 'b')).names = some (.file a s) ∧
      mcpProcess.may .write a = true := ⟨⟨7, 7, 0o600⟩, smallSpec, by decide, by decide⟩
  exact same_grant_mixes (fun _ => true) smallDirs 0 (by decide) (by decide) (by decide) smallRequested ⟨hway, hspec⟩ rfl

end McpBridge.Priv
