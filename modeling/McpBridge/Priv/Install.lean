import McpBridge.Lib.Alone
import McpBridge.Priv.Staging
/-!
# Installing a grant again (`priv/main.c`)

The manager runs `install-grant` again where it does not know how an attempt ended. An
attempt can fail at any call, or be killed between any two, and may leave a part of the spec
under the staged name. `install_grant_retried` is that this does no harm: there is never a
part of a spec under the name sudo reads, and an attempt that nothing disturbs installs
the spec, whatever the others left.
-/

open McpBridge.Lib
open McpBridge.Grants (validGrantid specWellFormed)

namespace McpBridge.Priv

section
variable (D : Dirs)

/-- What sudo reads for the grant. -/
abbrev grantKey (grantid : Str) : AbsPath := D.sudoersDir ++ [grantFinal grantid]

/-- Where the grant is staged. -/
abbrev tmpKey (grantid : Str) : AbsPath := D.sudoersDir ++ [grantTmp grantid]

/-- The tree where a grant has been attempted, and `fs₀` was the tree before. -/
structure Attempted (fs₀ : Fs) (grantid spec : Str) (fs : Fs) : Prop where
  guarded : Guarded fs D.sudoersDir
  staged : FileOrNone fs (tmpKey D grantid)
  installed : ∀ n, fs.lookup (grantKey D grantid) = some n → ∃ a, n = .file a spec
  others : ∀ q, ¬ tmpKey D grantid <+: q → ¬ grantKey D grantid <+: q → fs.lookup q = fs₀.lookup q

/-- The tree before: the daemon wrote the spec, and the grant is not installed. -/
structure Requested (fs₀ : Fs) (grantid spec : Str) : Prop where
  valid : validGrantid grantid = true
  wellFormed : specWellFormed spec = true
  guarded : Guarded fs₀ D.sudoersDir
  staged : FileOrNone fs₀ (tmpKey D grantid)
  fresh : fs₀.lookup (grantKey D grantid) = none
  way : ∀ q, q <+: D.stateDir → ∃ a, fs₀.lookup q = some (.dir a)
  spec : ∃ a, fs₀.lookup (specPath D grantid).names = some (.file a spec)

variable {D} {fs₀ fs : Fs} {grantid spec : Str}

theorem Requested.attempted (h : Requested D fs₀ grantid spec) : Attempted D fs₀ grantid spec fs₀ where
  guarded := h.guarded
  staged := h.staged
  installed n hn := by
    rw [h.fresh] at hn
    cases hn
  others _ _ _ := rfl

theorem tmpKey_ne_grantKey (hid : validGrantid grantid = true) : grantTmp grantid ≠ grantFinal grantid := by
  intro heq
  exact dot_notMem_of_isHexId hid (heq ▸ dot_mem_grantTmp grantid)

theorem plain_specPath (D : Dirs) (grantid : Str) : ∀ x ∈ (specPath D grantid).names, Plain x := by
  intro x hx
  rcases List.mem_append.1 hx with hx | hx
  · exact D.plain x (by simp [hx])
  · rw [List.mem_singleton.1 hx]
    apply plain_of_length
    simp only [List.length_append]
    have : (lit "grant_").length = 6 := by decide
    omega

/-! ## One attempt -/

namespace Attempted
variable (h : Attempted D fs₀ grantid spec fs)
include h

theorem insert_staged {a : Attr} {s : Str} (ha : a.rootOnly = true) (hid : validGrantid grantid = true) :
    Attempted D fs₀ grantid spec (fs.insert (tmpKey D grantid) (.file a s)) where
  guarded := h.guarded.insert_file s ha
  staged n hn := by
    rw [Map.lookup_insert_if, if_pos rfl] at hn
    cases hn
    exact ⟨a, s, rfl⟩
  installed n hn := by
    apply h.installed n
    rwa [lookup_insert_off (Kept.not_prefix (tmpKey_ne_grantKey hid))] at hn
  others q hq hq' := by
    rw [lookup_insert_off hq]
    exact h.others q hq hq'

theorem erase_staged (hid : validGrantid grantid = true) : Attempted D fs₀ grantid spec (fs.erase (tmpKey D grantid)) where
  guarded := h.guarded.erase_name _
  staged n hn := by
    rw [Map.lookup_erase_if, if_pos rfl] at hn
    cases hn
  installed n hn := by
    apply h.installed n
    rwa [lookup_erase_off (Kept.not_prefix (tmpKey_ne_grantKey hid))] at hn
  others q hq hq' := by
    rw [lookup_erase_off hq]
    exact h.others q hq hq'

/-- The spec is where the daemon wrote it. -/
theorem spec_file (hr : Requested D fs₀ grantid spec) (gid : Nat) :
    ((helperProcess gid).locate false fs (specPath D grantid)).2 = .ok (specPath D grantid).names ∧
      ∃ a, fs.lookup (specPath D grantid).names = some (.file a spec) := by
  have hoff : ∀ {c : Str} {q : AbsPath}, q <+: D.stateDir → ¬ D.sudoersDir ++ [c] <+: q := by
    intro c q hq hp
    exact D.apart.2.2.2 ((List.prefix_append _ _).trans (hp.trans hq))
  have hoff' : ∀ {c : Str}, ¬ D.sudoersDir ++ [c] <+: (specPath D grantid).names := by
    intro c hp
    rcases List.prefix_concat_iff.1 hp with heq | hp
    · exact D.apart.2.2.2 (List.append_inj_left' heq rfl ▸ List.prefix_rfl)
    · exact hoff List.prefix_rfl hp
  have hway : ∀ q, q <+: D.stateDir → ∃ a, fs.lookup q = some (.dir a) ∧ (helperProcess gid).may .search a = true := by
    intro q hq
    obtain ⟨a, ha⟩ := hr.way q hq
    refine ⟨a, ?_, root_may rfl _ _⟩
    rw [h.others q (hoff hq) (hoff hq), ha]
  refine ⟨locate_way (plain_specPath D grantid) hway false (.inl rfl), ?_⟩
  · rw [h.others _ hoff' hoff']
    exact hr.spec

end Attempted

section
variable (D fs₀ grantid spec)

/-- What holds wherever an attempt stops. -/
def Stops (smooth : Bool) (rc : Option Int) (fs : Fs) : Prop :=
  Attempted D fs₀ grantid spec fs ∧
    (smooth = true → ∀ r, rc = some r → (r = 0 ∨ r = 14) ∧ ∃ a, fs.lookup (grantKey D grantid) = some (.file a spec))

variable (visudo : Str → Bool) (gid : Nat)

/-- What a part of the attempt guarantees. Nobody else writes the spec meanwhile. -/
abbrev Attempt (smooth : Bool) (prog : Command) (fs : Fs) : Prop :=
  prog.Ensures (tool visudo) (helperProcess gid) (·.seen = none) (Stops D fs₀ grantid spec) smooth fs

end

variable {visudo : Str → Bool} {gid : Nat} {smooth : Bool}

theorem Attempted.stops (h : Attempted D fs₀ grantid spec fs) : Stops D fs₀ grantid spec smooth none fs :=
  ⟨h, fun _ _ hr => by cases hr⟩

/-- What has been disturbed may end in any way. -/
theorem attempt_done (h : Attempted D fs₀ grantid spec fs) (hs : smooth = false) (rc : Int) :
    Attempt D fs₀ grantid spec visudo gid smooth (.done rc) fs :=
  ⟨h, fun hsmooth => by rw [hs] at hsmooth; cases hsmooth⟩

theorem attempt_fail (h : Attempted D fs₀ grantid spec fs) (hid : validGrantid grantid = true) (hs : smooth = false)
    (rc : Int) : Attempt D fs₀ grantid spec visudo gid smooth (discard D (grantTmp grantid) rc) fs := by
  unfold discard
  apply ensures_ask h.stops
  intro o _
  rcases h.guarded.serve_unlink (tool visudo) (helperProcess_uid gid) o
    (D.plain_sudoers (plain_grantTmp grantid)) with ⟨e, -, he⟩ | he
  · exact ⟨_, _, he, attempt_done h (by rw [hs]; rfl) rc⟩
  · exact ⟨_, _, he, attempt_done (h.erase_staged hid) (by rw [hs]; rfl) rc⟩

/-- The loop fills a file that holds the beginning of the data. -/
theorem ensures_writeLoop {May : Outcome → Prop} {Q : Bool → Option Int → Fs → Prop} {I : Fs → Prop} {q : AbsPath} {data : Str}
    {failed written : Command} {a : Attr} (hI : ∀ fs s, I fs → I (fs.insert q (.file a s)))
    (hstop : ∀ smooth fs, I fs → Q smooth none fs)
    (hfailed : ∀ fs, I fs → failed.Ensures (tool visudo) (helperProcess gid) May Q false fs)
    (hwritten : ∀ smooth fs, I fs → fs.lookup q = some (.file a data) →
      written.Ensures (tool visudo) (helperProcess gid) May Q smooth fs)
    (fuel off : Nat) (hoff : off ≤ data.length) (hfuel : data.length ≤ off + fuel) (smooth : Bool) (fs : Fs)
    (h : I fs) (hn : fs.lookup q = some (.file a (data.take off))) :
    (writeLoop q data failed written fuel off).Ensures (tool visudo) (helperProcess gid) May Q smooth fs := by
  induction fuel generalizing off smooth fs with
  | zero =>
    rw [List.take_of_length_le (by omega)] at hn
    exact hwritten smooth fs h hn
  | succ fuel ih =>
    unfold writeLoop
    split
    swap
    · rw [List.take_of_length_le (by omega)] at hn
      exact hwritten smooth fs h hn
    next hlt =>
    apply ensures_ask (hstop smooth fs h)
    intro o _
    let count := data.length - off - min o.short (data.length - off - 1)
    have hover : overwrite (data.take off) off ((data.drop off).take count) = data.take (off + count) := by
      rw [overwrite_end (by rw [List.length_take]; omega), List.take_add]
    have hw : pwriteAt fs q off (data.drop off) o.short = .ok (count, fs.insert q (.file a (data.take (off + count)))) := by
      unfold pwriteAt
      rw [hn]
      simp only [List.length_drop]
      rw [← hover]
    unfold serve
    rcases answer_of_ok o hw with ⟨e, ho, he⟩ | he
    · refine ⟨_, _, he, ?_⟩
      rw [not_smooth_of_errno ho, Bool.and_false]
      exact hfailed fs h
    · refine ⟨_, _, he, ih (off + count) (by omega) (by omega) _ _ (hI fs _ h) ?_⟩
      rw [Map.lookup_insert_if, if_pos rfl]

theorem attempt_stage (hr : Requested D fs₀ grantid spec) (hvisudo : visudo spec = true)
    (h : Attempted D fs₀ grantid spec fs) :
    Attempt D fs₀ grantid spec visudo gid smooth (stage D (grantTmp grantid) (grantFinal grantid) spec) fs := by
  have hp : (helperProcess gid).uid = 0 := rfl
  have hid := hr.valid
  have hplain := D.plain_sudoers (plain_grantTmp grantid)
  have hfail : ∀ rc fs, Attempted D fs₀ grantid spec fs →
      Attempt D fs₀ grantid spec visudo gid false (discard D (grantTmp grantid) rc) fs := fun rc fs h => attempt_fail h hid rfl rc
  unfold stage
  apply ensures_ask h.stops
  intro o _
  have hmode : ((helperProcess gid).attr 0o440).rootOnly = true := by
    simp only [helperProcess, Process.attr, Attr.rootOnly]
    decide
  rcases h.guarded.serve_openTrunc (tool visudo) hp o hplain hmode with ⟨e, ho, he⟩ | ⟨a, ha, he⟩
  · refine ⟨_, _, he, attempt_done h ?_ 11⟩
    rw [not_smooth_of_errno fun hnone => ho hnone h.staged, Bool.and_false]
  refine ⟨_, _, he, ?_⟩
  apply ensures_writeLoop (fun fs s h => h.insert_staged ha hid) (fun _ _ h => h.stops) (hfail 11) _ _ 0 (Nat.zero_le _)
    (by omega) _ _ (h.insert_staged ha hid) (by rw [tmpKey, Map.lookup_insert_if, if_pos rfl]; rfl)
  -- The file is written; what is left is to have it checked.
  intro smooth fs h hn
  unfold commit
  apply ensures_ask h.stops
  intro o _
  rcases serve_fsync (tool visudo) (helperProcess gid) o (tmpKey D grantid) with ⟨e, ho, he⟩ | he
  · refine ⟨_, _, he, ?_⟩
    rw [not_smooth_of_errno ho, Bool.and_false]
    exact hfail 11 fs h
  refine ⟨_, _, he, ?_⟩
  apply ensures_ask h.stops
  intro o _
  rcases h.guarded.serve_chown (tool visudo) hp o hplain hn 0 0 with ⟨e, ho, he⟩ | he
  · refine ⟨_, _, he, ?_⟩
    rw [not_smooth_of_errno ho, Bool.and_false]
    exact hfail 11 fs h
  obtain ⟨a', hnode, hroot, -, -⟩ := setOwner_root spec ha
  rw [hnode] at he
  refine ⟨_, _, he, ?_⟩
  have h' := h.insert_staged (s := spec) hroot hid
  have hn' : (fs.insert (D.sudoersDir ++ [grantTmp grantid]) (.file a' spec)).lookup (tmpKey D grantid) =
      some (.file a' spec) := by rw [tmpKey, Map.lookup_insert_if, if_pos rfl]
  apply ensures_ask h'.stops
  intro o _
  have hcontent := contentAt_staged gid h'.guarded (plain_grantTmp grantid) hn'
  rcases hans : (tool visudo (helperProcess gid) (.visudo (inDir D.sudoersDir (grantTmp grantid))) o
    (fs.insert (tmpKey D grantid) (.file a' spec))).1 with ⟨rc, output⟩
  refine ⟨(rc, output), _, Prod.ext hans rfl, ?_⟩
  have hrc : rc = o.exit := by
    simp only [tool, hcontent, Option.any_some, hvisudo, if_true, Prod.mk.injEq] at hans
    rw [← hans.1]
    split
    · next hexit => exact hexit.symm
    · rfl
  simp only
  by_cases hexit : rc = 0
  swap
  · rw [if_pos hexit]
    have hs : o.smooth = false := by simp [Outcome.smooth, ← hrc, hexit]
    rw [hs, Bool.and_false]
    exact hfail 13 _ h'
  rw [if_neg (not_not.2 hexit)]
  apply ensures_ask h'.stops
  intro o _
  rcases h'.guarded.serve_rename (tool visudo) hp o hplain (D.plain_sudoers (plain_grantFinal grantid))
    (tmpKey_ne_grantKey hid) hn' rfl with ⟨e, ho, he⟩ | ⟨fs', he, hthere, hgone, hsame⟩
  · refine ⟨_, _, he, ?_⟩
    have hs : o.errno ≠ none := by
      intro hnone
      obtain ⟨b, hdir⟩ := ho hnone
      obtain ⟨_, hf⟩ := h'.installed _ hdir
      cases hf
    rw [not_smooth_of_errno hs, Bool.and_false]
    exact hfail 11 _ h'
  refine ⟨_, _, he, ⟨?_, ?_, ?_, ?_⟩, fun _ r hr => ?_⟩
  · refine ⟨fun q hq => ?_, fun c n hc => ?_⟩
    · have hoff : ∀ c, ¬ D.sudoersDir ++ [c] <+: q := by
        intro c hpre
        have hlen := (hpre.trans hq).length_le
        simp at hlen
      rw [hsame q (hoff _) (hoff _)]
      exact h'.guarded.way q hq
    · by_cases hfinal : c = grantFinal grantid
      · rw [hfinal, hthere] at hc
        cases hc
        exact hroot
      by_cases htmp : c = grantTmp grantid
      · rw [htmp, hgone] at hc
        cases hc
      rw [hsame _ (Kept.not_prefix (Ne.symm htmp)) (Kept.not_prefix (Ne.symm hfinal))] at hc
      exact h'.guarded.inside c n hc
  · intro n hn
    rw [tmpKey, hgone] at hn
    cases hn
  · intro n hn
    rw [grantKey, hthere] at hn
    cases hn
    exact ⟨a', rfl⟩
  · intro q hq hq'
    rw [hsame q hq hq']
    exact h'.others q hq hq'
  · cases hr
    exact ⟨.inl rfl, a', hthere⟩

theorem specWellFormed_length {buf : Str} (h : specWellFormed buf = true) : buf.length ≤ 4096 := by
  unfold specWellFormed at h
  split at h
  · cases h
  · omega

theorem attempt_helperMain (gid : Nat) (smooth : Bool) (hr : Requested D fs₀ grantid spec) (hvisudo : visudo spec = true)
    (h : Attempted D fs₀ grantid spec fs) :
    Attempt D fs₀ grantid spec visudo gid smooth (helperMain D [lit "install-grant", grantid]) fs := by
  obtain ⟨hloc, a, hn⟩ := h.spec_file hr gid
  have hlen := specWellFormed_length hr.wellFormed
  have hne : spec ≠ [] := by
    rintro rfl
    exact absurd hr.wellFormed (by decide)
  have hheld : ∀ o : Outcome, o.seen = none → heldBy fs o (specPath D grantid).names = some spec := by
    intro o hseen
    unfold heldBy
    rw [hseen, hn]
  rw [helperMain_installGrant]
  apply ensures_ask h.stops
  intro o _
  rcases serve_setuid (tool visudo) (helperProcess gid) o rfl 0 with ⟨e, ho, he⟩ | he
  · exact ⟨_, _, he, attempt_done h (by rw [not_smooth_of_errno ho, Bool.and_false]) 11⟩
  refine ⟨_, _, he, ?_⟩
  simp only [cmdInstallGrant, hr.valid, Bool.not_true, Bool.false_eq_true, if_false]
  apply ensures_ask h.stops
  intro o _
  rcases serve_openRead (tool visudo) (helperProcess gid) o rfl hloc hn (by rintro _ _ ⟨⟩) with
    ⟨e, ho, he⟩ | he
  · exact ⟨_, _, he, attempt_done h (by rw [not_smooth_of_errno ho, Bool.and_false]) 11⟩
  refine ⟨_, _, he, ?_⟩
  apply ensures_ask h.stops
  intro o hseen
  rcases serve_fstat (tool visudo) (helperProcess gid) o (hheld o hseen) with ⟨e, ho, he⟩ | he
  · exact ⟨_, _, he, attempt_done h (by rw [not_smooth_of_errno ho, Bool.and_false]) 13⟩
  refine ⟨_, _, he, ?_⟩
  have hsize : (!true || decide (4096 < spec.length)) = false := by simp [hlen]
  simp only [hsize, Bool.false_eq_true, if_false]
  apply ensures_ask h.stops
  intro o hseen
  rcases serve_read (tool visudo) (helperProcess gid) o (hheld o hseen) 4096 with ⟨e, ho, he⟩ | he
  · exact ⟨_, _, he, attempt_done h (by rw [not_smooth_of_errno ho, Bool.and_false]) 13⟩
  refine ⟨_, _, he, ?_⟩
  simp only [List.take_of_length_le hlen, if_neg hne, hr.wellFormed, Bool.not_true, Bool.false_eq_true, if_false]
  apply ensures_look rfl h.stops
  intro o _
  rcases hans : (serve (tool visudo) (helperProcess gid) o fs (.access (inDir D.sudoersDir (grantFinal grantid)))).1 with e | u
  · exact attempt_stage hr hvisudo h
  · -- A grant that is installed is left as it is.
    refine ⟨h, fun _ r hrc => ?_⟩
    cases hrc
    refine ⟨.inr rfl, ?_⟩
    obtain ⟨fs', hlook⟩ := answer_fst o fs hans
    rcases hl : fs.lookup (grantKey D grantid) with _ | n
    · have hloc := h.guarded.locate (helperProcess_uid gid) true (D.plain_sudoers (plain_grantFinal grantid))
        (.inr fun _ _ hlink => by rw [grantKey, hlink] at hl; cases hl)
      have hnone : lookAt (helperProcess gid) fs true (inDir D.sudoersDir (grantFinal grantid)) = .error .noent := by
        unfold lookAt inDir
        rw [hloc]
        show (if (fs.lookup (D.sudoersDir ++ [grantFinal grantid])).isSome then _ else _) = _
        rw [hl]
        rfl
      rw [hnone] at hlook
      cases hlook
    · obtain ⟨a, rfl⟩ := h.installed n hl
      exact ⟨a, rfl⟩

/-! ## How many calls -/

theorem within_writeLoop {fd : AbsPath} {data : Str} {failed written : Command} {n : Nat} (hfailed : failed.Within n)
    (hwritten : written.Within n) (fuel off : Nat) : (writeLoop fd data failed written fuel off).Within (n + fuel) := by
  induction fuel generalizing off with
  | zero => exact hwritten
  | succ fuel ih =>
    unfold writeLoop
    split
    · rintro (e | w)
      · exact hfailed.mono (Nat.le_add_right n fuel)
      · exact ih _
    · exact hwritten.mono (Nat.le_add_right n (fuel + 1))

theorem within_stage (tmp final spec : Str) : (stage D tmp final spec).Within (spec.length + 6) := by
  have hfail : ∀ rc, (discard D tmp rc).Within 1 := fun rc a => trivial
  rintro (e | fd)
  · trivial
  rw [Nat.add_comm spec.length 5]
  apply within_writeLoop ((hfail 11).mono (by omega))
  rintro (e | u)
  · exact (hfail 11).mono (by decide : 1 ≤ 4)
  rintro (e | u)
  · exact (hfail 11).mono (by decide : 1 ≤ 3)
  rintro ⟨rc, output⟩
  simp only
  split
  · exact (hfail 13).mono (by decide : 1 ≤ 2)
  rintro (e | u)
  · exact hfail 11
  · trivial

/-- A spec that passes the check has at most 4096 bytes, so the loop is bounded. -/
theorem within_installGrant (D : Dirs) (grantid : Str) : (helperMain D [lit "install-grant", grantid]).Within 4107 := by
  rintro (e | u)
  · trivial
  show (cmdInstallGrant D [grantid]).Within 4106
  unfold cmdInstallGrant
  simp only
  split
  · trivial
  rintro (e | fd)
  · trivial
  rintro (e | st)
  · trivial
  simp only
  split
  · trivial
  rintro (e | buf)
  · trivial
  simp only
  split
  · trivial
  split
  · trivial
  next hwell =>
  rintro (e | u)
  swap
  · trivial
  simp only [Bool.not_eq_eq_eq_not, Bool.not_true, Bool.not_eq_false] at hwell
  apply (within_stage _ _ buf).mono
  show buf.length + 6 ≤ 4102
  have hlen := specWellFormed_length hwell
  omega

/-! ## Any number of attempts -/

variable (visudo gid)

/-- The helper is run once for each list of outcomes. -/
def attempts (D : Dirs) (argv : List Str) (oss : List (List Outcome)) (fs : Fs) : Fs :=
  oss.foldl (fun fs os => ((helperMain D argv).alone (tool visudo) (helperProcess gid) os fs).2) fs

theorem attempted_attempts (hr : Requested D fs₀ grantid spec) (hvisudo : visudo spec = true) {oss : List (List Outcome)}
    (hseen : ∀ os ∈ oss, ∀ o ∈ os, o.seen = none) (h : Attempted D fs₀ grantid spec fs) :
    Attempted D fs₀ grantid spec (attempts visudo gid D [lit "install-grant", grantid] oss fs) := by
  induction oss generalizing fs with
  | nil => exact h
  | cons os oss ih =>
    apply ih fun os' hos' => hseen os' (List.mem_cons_of_mem _ hos')
    obtain ⟨s, -, hstops⟩ := alone_of_ensures (hseen os List.mem_cons_self)
      (attempt_helperMain gid true hr hvisudo h)
    exact hstops.1

theorem install_grant_retried {fs₀ : Fs} {grantid spec : Str} (hr : Requested D fs₀ grantid spec)
    (hvisudo : visudo spec = true) {earlier : List (List Outcome)} (hseen : ∀ os ∈ earlier, ∀ o ∈ os, o.seen = none) :
    (∀ n, (attempts visudo gid D [lit "install-grant", grantid] earlier fs₀).lookup (grantKey D grantid) = some n →
      ∃ a, n = .file a spec) ∧
    ∀ os : List Outcome, os.all Outcome.smooth = true → (∀ o ∈ os, o.seen = none) → 4107 ≤ os.length →
      ∃ rc fs, (helperMain D [lit "install-grant", grantid]).alone (tool visudo) (helperProcess gid) os
          (attempts visudo gid D [lit "install-grant", grantid] earlier fs₀) = (some rc, fs) ∧ (rc = 0 ∨ rc = 14) ∧
        (∃ a, fs.lookup (grantKey D grantid) = some (.file a spec)) ∧
        ∀ q, ¬ tmpKey D grantid <+: q → ¬ grantKey D grantid <+: q → fs.lookup q = fs₀.lookup q := by
  have h := attempted_attempts visudo gid hr hvisudo hseen hr.attempted
  refine ⟨h.installed, fun os hsmooth hos hlen => ?_⟩
  obtain ⟨s, hs, hA, hdone⟩ := alone_of_ensures hos (attempt_helperMain gid true hr hvisudo h)
  obtain ⟨rc, hrc⟩ := alone_of_within (tool visudo) (helperProcess gid) (within_installGrant D grantid) hlen
    (attempts visudo gid D [lit "install-grant", grantid] earlier fs₀)
  obtain ⟨hcode, hinstalled⟩ := hdone (hs rfl hsmooth) rc hrc
  exact ⟨rc, _, Prod.ext hrc rfl, hcode, hinstalled, hA.others⟩

theorem smallRequested : Requested smallDirs smallTree (smallId 'b') smallSpec := by
  refine ⟨by decide, by decide, by decide, by decide, by decide, fun q hq => ?_, ⟨_, rfl⟩⟩
  rcases List.prefix_concat_iff.1 (show q <+: [] ++ [lit "s"] from hq) with rfl | hq
  · exact ⟨_, rfl⟩
  · rw [List.prefix_nil.1 hq]
    exact ⟨_, rfl⟩

/-- One attempt is killed in the middle of the staged file, and another fails there. -/
def smallAttempts : List (List Outcome) :=
  [[{}, {}, {}, {}, {}, {}, { short := 20 }], [{}, {}, {}, {}, {}, {}, { short := 40 }, { errno := some .perm }, { errno := some .perm }]]

theorem install_grant_retried_small : ∃ rc fs, (helperMain smallDirs [lit "install-grant", smallId 'b']).alone
      (tool fun _ => true) (helperProcess 0) (List.replicate 4107 {})
      (attempts (fun _ => true) 0 smallDirs [lit "install-grant", smallId 'b'] smallAttempts smallTree) = (some rc, fs) ∧
    ∃ a, fs.lookup (grantKey smallDirs (smallId 'b')) = some (.file a smallSpec) := by
  obtain ⟨rc, fs, hrun, -, hinstalled, -⟩ := (install_grant_retried (fun _ => true) 0 smallRequested rfl
    (show ∀ os ∈ smallAttempts, ∀ o ∈ os, o.seen = none by decide)).2 (List.replicate 4107 {})
    (List.all_eq_true.2 fun o ho => by rw [List.eq_of_mem_replicate ho]; rfl) (fun o ho => by rw [List.eq_of_mem_replicate ho])
    (by rw [List.length_replicate])
  exact ⟨rc, fs, hrun, hinstalled⟩

end

end McpBridge.Priv
