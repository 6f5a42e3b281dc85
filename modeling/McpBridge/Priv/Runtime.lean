import McpBridge.Lib.JsonText
import McpBridge.Priv.Base64
import McpBridge.Priv.Takeover
/-!
# What the daemon sends arrives (`core/runtime_sync.cpp`, `priv/main.c`)

The daemon encodes the webhook settings of a user and runs `write-runtime`, which decodes
them into `runtime.json` in the directory of the user. `runtime_json_delivered` is about
both ends of this: the file is the old one or the new one as a whole, wherever the helper
is stopped, and the daemon's answer tells which. It is about a directory the tenant leaves
alone meanwhile (`write_runtime_takes_over` is about one that it does not).
-/

open McpBridge.Lib McpBridge.Core
open McpBridge.Grants (validShortid)
open McpBridge.Users (RuntimeConfig runtimeWrite writeForUser base64Encode)

namespace McpBridge.Priv

section
variable (D : Dirs) (shortid : Str)

/-- The directory of a user: it is there or not, and no links are in the way. -/
structure Settled (fs : Fs) : Prop where
  way : ∀ q, q <+: D.usersStateDir → ∃ a, fs.lookup q = some (.dir a)
  home : ∀ n, fs.lookup (userDir D shortid) = some n → ∃ a, n = .dir a
  tmp : FileOrNone fs (runtimeTmpKey D shortid)
  vacant : ∀ a, fs.lookup (runtimeKey D shortid) ≠ some (.dir a)

/-- What is sent, to the account of the user. -/
structure Parcel where
  data : Str
  uid : Nat
  gid : Nat

/-- The file of the user that holds it. -/
def Parcel.file (parcel : Parcel) : Node := .file ⟨parcel.uid, parcel.gid, 0o600⟩ parcel.data

/-- The tree where it has been attempted, and `fs₀` was the tree before. -/
structure Sent (fs₀ : Fs) (parcel : Parcel) (fs : Fs) : Prop extends Settled D shortid fs where
  runtime : fs.lookup (runtimeKey D shortid) = fs₀.lookup (runtimeKey D shortid) ∨
    fs.lookup (runtimeKey D shortid) = some parcel.file
  others : ∀ q, ¬ userDir D shortid <+: q → fs.lookup q = fs₀.lookup q

/-- What holds wherever an attempt stops. -/
def SendStops (fs₀ : Fs) (parcel : Parcel) (smooth : Bool) (rc : Option Int) (fs : Fs) : Prop :=
  Sent D shortid fs₀ parcel fs ∧ (rc = some 0 → fs.lookup (runtimeKey D shortid) = some parcel.file) ∧
    (smooth = true → ∀ r, rc = some r → r = 0)

/-- Nobody else writes, and the account is the one it is for. -/
def Undivided (parcel : Parcel) (o : Outcome) : Prop := o.seen = none ∧ o.account = some (parcel.uid, parcel.gid)

end

section
variable {D : Dirs} {shortid : Str} {fs₀ fs fs' : Fs} {parcel : Parcel} {visudo : Str → Bool} {gid : Nat} {smooth : Bool}

theorem Settled.sent (h : Settled D shortid fs₀) : Sent D shortid fs₀ parcel fs₀ :=
  { h with runtime := .inl rfl, others := fun _ _ => rfl }

namespace Sent
variable (h : Sent D shortid fs₀ parcel fs)
include h

/-- What happens to the directory itself and to the temporary file. -/
theorem change (hhome : ∀ n, fs'.lookup (userDir D shortid) = some n → ∃ a, n = .dir a)
    (htmp : FileOrNone fs' (runtimeTmpKey D shortid))
    (hsame : ∀ q, q ≠ userDir D shortid → q ≠ runtimeTmpKey D shortid → fs'.lookup q = fs.lookup q) :
    Sent D shortid fs₀ parcel fs' := by
  have hruntime : fs'.lookup (runtimeKey D shortid) = fs.lookup (runtimeKey D shortid) :=
    hsame _ (by simp) (by simpa using runtimeTmp_ne.symm)
  refine ⟨⟨fun q hq => ?_, hhome, htmp, ?_⟩, ?_, fun q hq => ?_⟩
  · rw [hsame q, ]
    · exact h.way q hq
    · rintro rfl
      exact userDir_off_state hq [] (by rw [List.append_nil])
    · rintro rfl
      exact userDir_off_state hq [runtimeTmp] List.prefix_rfl
  · rw [hruntime]
    exact h.vacant
  · rw [hruntime]
    exact h.runtime
  · rw [hsame q, h.others q hq]
    · rintro rfl
      exact hq List.prefix_rfl
    · rintro rfl
      exact hq (List.prefix_append _ _)

theorem insert_home (a : Attr) : Sent D shortid fs₀ parcel (fs.insert (userDir D shortid) (.dir a)) := by
  apply h.change
  · intro n hn
    rw [Map.lookup_insert_if, if_pos rfl] at hn
    cases hn
    exact ⟨a, rfl⟩
  · intro n hn
    rw [Map.lookup_insert_if, if_neg (by simp)] at hn
    exact h.tmp n hn
  · intro q hq _
    rw [Map.lookup_insert_if, if_neg hq]

theorem insert_tmp (a : Attr) (s : Str) : Sent D shortid fs₀ parcel (fs.insert (runtimeTmpKey D shortid) (.file a s)) := by
  apply h.change
  · intro n hn
    rw [Map.lookup_insert_if, if_neg (by simp)] at hn
    exact h.home n hn
  · intro n hn
    rw [Map.lookup_insert_if, if_pos rfl] at hn
    cases hn
    exact ⟨a, s, rfl⟩
  · intro q _ hq
    rw [Map.lookup_insert_if, if_neg hq]

theorem erase_tmp : Sent D shortid fs₀ parcel (fs.erase (runtimeTmpKey D shortid)) := by
  apply h.change
  · intro n hn
    rw [Map.lookup_erase_if, if_neg (by simp)] at hn
    exact h.home n hn
  · intro n hn
    rw [Map.lookup_erase_if, if_pos rfl] at hn
    cases hn
  · intro q _ hq
    rw [Map.lookup_erase_if, if_neg hq]

theorem locate_home (gid : Nat) (follow : Bool) :
    ((helperProcess gid).locate follow fs (inDir D.usersStateDir (username shortid))).2 = .ok (userDir D shortid) := by
  apply locate_way _ (fun q hq => (h.way q hq).imp fun a ha => ⟨ha, root_may rfl _ _⟩) follow (.inr fun a t hlink => ?_)
  · intro x hx
    rcases List.mem_append.1 hx with hx | hx
    · exact D.plain x (by simp [hx])
    · rw [List.mem_singleton.1 hx]
      exact plain_username shortid
  · obtain ⟨_, hdir⟩ := h.home _ hlink
    cases hdir

/-- The directory is there, so its names lead where they are written. -/
theorem locate_in {a : Attr} (hhome : fs.lookup (userDir D shortid) = some (.dir a)) {name : Str} (hname : Plain name)
    (follow : Bool) (hlast : follow = false ∨ ∀ a t, fs.lookup (userDir D shortid ++ [name]) ≠ some (.link a t)) :
    ((helperProcess gid).locate follow fs (inDir (userDir D shortid) name)).2 = .ok (userDir D shortid ++ [name]) := by
  have hway : Ways (helperProcess gid) fs D.usersStateDir :=
    fun q hq => (h.way q hq).imp fun a ha => ⟨ha, root_may rfl _ _⟩
  exact locate_way (plain_userDir D shortid hname) (hway.userDir hhome (root_may rfl _ _)) follow hlast

theorem stops : SendStops D shortid fs₀ parcel smooth none fs :=
  ⟨h, (fun hrc => by cases hrc), fun _ r hr => by cases hr⟩

end Sent

/-- What a part of the sending guarantees. -/
abbrev Send (D : Dirs) (shortid : Str) (fs₀ : Fs) (parcel : Parcel) (visudo : Str → Bool) (gid : Nat) (smooth : Bool)
    (prog : Command) (fs : Fs) : Prop :=
  prog.Ensures (tool visudo) (helperProcess gid) (Undivided parcel) (SendStops D shortid fs₀ parcel) smooth fs

theorem send_done (h : Sent D shortid fs₀ parcel fs) (hs : smooth = false) {rc : Int} (hrc : rc ≠ 0) :
    Send D shortid fs₀ parcel visudo gid smooth (.done rc) fs :=
  ⟨h, fun h0 => absurd (Option.some.inj h0) hrc, fun hsmooth => by rw [hs] at hsmooth; cases hsmooth⟩

/-- The directory of the user is there. -/
structure Entered (D : Dirs) (shortid : Str) (fs₀ : Fs) (parcel : Parcel) (fs : Fs) : Prop extends Sent D shortid fs₀ parcel fs where
  entered : ∃ a, fs.lookup (userDir D shortid) = some (.dir a)

theorem Entered.insert_tmp (h : Entered D shortid fs₀ parcel fs) (a : Attr) (s : Str) :
    Entered D shortid fs₀ parcel (fs.insert (runtimeTmpKey D shortid) (.file a s)) :=
  { h.toSent.insert_tmp a s with
    entered := by
      rw [Map.lookup_insert_if, if_neg (by simp)]
      exact h.entered }

theorem Entered.locate (h : Entered D shortid fs₀ parcel fs) {name : Str} (hname : Plain name) :
    ((helperProcess gid).locate false fs (inDir (userDir D shortid) name)).2 = .ok (userDir D shortid ++ [name]) := by
  obtain ⟨a, ha⟩ := h.entered
  exact h.toSent.locate_in ha hname false (.inl rfl)

theorem send_drop (h : Entered D shortid fs₀ parcel fs) :
    Send D shortid fs₀ parcel visudo gid false (dropRuntime (userDir D shortid)) fs := by
  have hdone : ∀ (o : Outcome) fs, Sent D shortid fs₀ parcel fs →
      Send D shortid fs₀ parcel visudo gid (false && o.smooth) (.done 11) fs :=
    fun o fs h => send_done h rfl (by decide)
  unfold dropRuntime
  refine ⟨h.stops, fun o _ => ?_⟩
  have heffect := serve_effect (tool visudo) (p := helperProcess gid) (c := .unlink (inDir (userDir D shortid) runtimeTmp)) o fs rfl
  generalize (serve (tool visudo) (helperProcess gid) o fs (.unlink (inDir (userDir D shortid) runtimeTmp))).2 = fs' at heffect ⊢
  rcases heffect with rfl | he
  · exact hdone o fs' h.toSent
  · obtain ⟨q, hq, hun⟩ := bind_eq_ok.1 he
    rw [h.locate plain_runtimeTmp] at hq
    cases hq
    unfold unlinkAt at hun
    repeat' split at hun
    all_goals cases hun
    exact hdone o _ h.toSent.erase_tmp

/-- The file is full; it is handed over and takes its place. -/
theorem send_give {a : Attr} (h : Entered D shortid fs₀ parcel fs)
    (hn : fs.lookup (runtimeTmpKey D shortid) = some (.file a parcel.data)) :
    Send D shortid fs₀ parcel visudo gid smooth (giveRuntime (userDir D shortid) parcel.uid parcel.gid) fs := by
  have hlocate : ∀ {fs : Fs} {a : Attr}, Entered D shortid fs₀ parcel fs →
      fs.lookup (runtimeTmpKey D shortid) = some (.file a parcel.data) →
      ((helperProcess gid).locate true fs (inDir (userDir D shortid) runtimeTmp)).2 = .ok (runtimeTmpKey D shortid) := by
    intro fs a h hn
    obtain ⟨b, hb⟩ := h.entered
    exact h.toSent.locate_in hb plain_runtimeTmp true (.inr fun _ _ => by rw [hn]; rintro ⟨⟩)
  have hthere : ∀ {fs : Fs} {n : Node}, (fs.insert (runtimeTmpKey D shortid) n).lookup (runtimeTmpKey D shortid) = some n := by
    intro fs n
    rw [Map.lookup_insert_if, if_pos rfl]
  unfold giveRuntime
  apply ensures_ask h.stops
  intro o _
  rcases serve_chown (tool visudo) (helperProcess gid) o rfl (hlocate h hn) hn parcel.uid parcel.gid with ⟨e, ho, he⟩ | he
  · refine ⟨_, _, he, ?_⟩
    rw [not_smooth_of_errno ho, Bool.and_false]
    exact send_drop h
  obtain ⟨b, hb, howner⟩ : ∃ b, (Node.file a parcel.data).setOwner parcel.uid parcel.gid = .file b parcel.data ∧
      b.owner = parcel.uid ∧ b.group = parcel.gid := ⟨_, rfl, rfl, rfl⟩
  rw [hb] at he
  refine ⟨_, _, he, ?_⟩
  have h' := h.insert_tmp b parcel.data
  apply ensures_ask h'.stops
  intro o _
  rcases serve_chmod (tool visudo) (helperProcess gid) o rfl (hlocate h' hthere) hthere 0o600 with ⟨e, ho, he⟩ | he
  · refine ⟨_, _, he, ?_⟩
    rw [not_smooth_of_errno ho, Bool.and_false]
    exact send_drop h'
  have hmode : (Node.file b parcel.data).setMode 0o600 = parcel.file := by
    unfold Parcel.file Node.setMode
    rw [← howner.1, ← howner.2]
  rw [hmode] at he
  refine ⟨_, _, he, ?_⟩
  have h'' : Entered D shortid fs₀ parcel _ := h'.insert_tmp ⟨parcel.uid, parcel.gid, 0o600⟩ parcel.data
  apply ensures_ask h''.stops
  intro o _
  obtain ⟨c, hc⟩ := h''.entered
  have hrename := rename_root (helperProcess_uid gid) (plain_userDir D shortid plain_runtimeTmp)
    (plain_userDir D shortid plain_runtimeFile) (h''.locate plain_runtimeTmp) (h''.locate plain_runtimeFile) hc runtimeTmp_ne
    hthere rfl
  obtain ⟨fs', hr, hruntime, hgone, hsame⟩ := hrename.resolve_left fun ⟨⟨c, hdir⟩, _⟩ => h''.vacant c hdir
  rcases serve_sys (tool visudo) (helperProcess gid) o hr with ⟨e, ho, he⟩ | he
  · refine ⟨_, _, he, ?_⟩
    rw [not_smooth_of_errno ho, Bool.and_false]
    exact send_drop h''
  refine ⟨_, _, he, ?_, fun _ => hruntime, fun _ r hrc => (Option.some.inj hrc).symm⟩
  -- Only the two names of the file have changed.
  have hoff : ∀ {q : AbsPath}, (∀ name, ¬ userDir D shortid ++ [name] <+: q) → fs'.lookup q = _ :=
    fun {q} hq => hsame q (hq _) (hq _)
  have hway : ∀ q, q <+: D.usersStateDir → ∀ name, ¬ userDir D shortid ++ [name] <+: q :=
    fun q hq name => userDir_off_state hq [name]
  refine ⟨⟨fun q hq => ?_, fun n hn => ?_, fun n hn => ?_, fun c hdir => ?_⟩, .inr hruntime, fun q hq => ?_⟩
  · rw [hoff (hway q hq)]
    exact h''.way q hq
  · rw [hoff fun name hp => absurd hp.length_le (by simp)] at hn
    exact h''.home n hn
  · rw [hgone] at hn
    cases hn
  · rw [hruntime] at hdir
    cases hdir
  · rw [hoff fun name hp => hq ((List.prefix_append _ _).trans hp)]
    exact h''.others q hq

theorem send_install (h : Entered D shortid fs₀ parcel fs) :
    Send D shortid fs₀ parcel visudo gid smooth (installRuntime (userDir D shortid) parcel.uid parcel.gid parcel.data) fs := by
  unfold installRuntime
  obtain ⟨b, hb⟩ := h.entered
  have hcreat : ∃ a, creatAt (helperProcess gid) fs (runtimeTmpKey D shortid) 0o600 =
      .ok (fs.insert (runtimeTmpKey D shortid) (.file a [])) := by
    unfold creatAt
    rcases hn : fs.lookup (runtimeTmpKey D shortid) with _ | n
    · refine ⟨_, if_pos ?_⟩
      unfold Process.mayAdd
      rw [List.dropLast_concat, hb]
      simp [root_may (helperProcess_uid gid)]
    · obtain ⟨a, s, rfl⟩ := h.tmp n hn
      exact ⟨a, if_pos (root_may (helperProcess_uid gid) _ _)⟩
  obtain ⟨a, hcreat⟩ := hcreat
  apply ensures_ask h.stops
  intro o _
  rcases serve_openTrunc (tool visudo) (helperProcess gid) o (h.locate plain_runtimeTmp) hcreat with ⟨e, ho, he⟩ | he
  · exact ⟨_, _, he, send_done h.toSent (by rw [not_smooth_of_errno ho, Bool.and_false]) (by decide)⟩
  refine ⟨_, _, he, ?_⟩
  apply ensures_writeLoop (fun fs s (h : Entered D shortid fs₀ parcel fs) => h.insert_tmp a s) (fun _ _ h => h.stops)
    (fun fs h => send_drop h) _ _ 0 (Nat.zero_le _) (by omega) _ _ (h.insert_tmp a []) (by rw [Map.lookup_insert_if, if_pos rfl]; rfl)
  intro smooth fs h hn
  apply ensures_ask h.stops
  intro o _
  rcases serve_fsync (tool visudo) (helperProcess gid) o (runtimeTmpKey D shortid) with ⟨e, ho, he⟩ | he
  · refine ⟨_, _, he, ?_⟩
    rw [not_smooth_of_errno ho, Bool.and_false]
    exact send_drop h
  · exact ⟨_, _, he, send_give h hn⟩

/-- From `chown` on the directory. Where it is not there, something has gone wrong before. -/
theorem send_handOver {k : Command} (h : Sent D shortid fs₀ parcel fs)
    (hthere : (∃ a, fs.lookup (userDir D shortid) = some (.dir a)) ∨ fs.lookup (userDir D shortid) = none ∧ smooth = false)
    (hk : ∀ smooth' fs, (smooth = false → smooth' = false) → Entered D shortid fs₀ parcel fs →
      Send D shortid fs₀ parcel visudo gid smooth' k fs) :
    Send D shortid fs₀ parcel visudo gid smooth
      (handOver (inDir D.usersStateDir (username shortid)) parcel.uid parcel.gid 0o700 k) fs := by
  unfold handOver
  rcases hthere with ⟨a, ha⟩ | ⟨hnone, hs⟩
  · apply ensures_ask h.stops
    intro o _
    rcases serve_chown (tool visudo) (helperProcess gid) o rfl (h.locate_home gid true) ha parcel.uid parcel.gid with ⟨e, ho, he⟩ | he
    · exact ⟨_, _, he, send_done h (by rw [not_smooth_of_errno ho, Bool.and_false]) (by decide)⟩
    refine ⟨_, _, he, ?_⟩
    have h' := h.insert_home { a with owner := parcel.uid, group := parcel.gid }
    have ha' : (fs.insert (userDir D shortid) (.dir { a with owner := parcel.uid, group := parcel.gid })).lookup
        (userDir D shortid) = some (.dir { a with owner := parcel.uid, group := parcel.gid }) := by
      rw [Map.lookup_insert_if, if_pos rfl]
    apply ensures_ask h'.stops
    intro o _
    rcases serve_chmod (tool visudo) (helperProcess gid) o rfl (h'.locate_home gid true) ha' 0o700 with ⟨e, ho, he⟩ | he
    · exact ⟨_, _, he, send_done h' (by rw [not_smooth_of_errno ho, Bool.and_false]) (by decide)⟩
    · refine ⟨_, _, he, hk _ _ (fun hs => by rw [hs]; rfl)
        { h'.insert_home ⟨parcel.uid, parcel.gid, 0o700⟩ with entered := ⟨⟨parcel.uid, parcel.gid, 0o700⟩, ?_⟩ }⟩
      rw [Map.lookup_insert_if, if_pos rfl]
      rfl
  · subst hs
    refine ⟨h.stops, fun o _ => ?_⟩
    have hfail : ∃ e, serve (tool visudo) (helperProcess gid) o fs
        (.chown (inDir D.usersStateDir (username shortid)) parcel.uid parcel.gid) = (Except.error e, fs) := by
      unfold serve
      rcases answer_cases o fs (unit do chownAt (helperProcess gid) fs (← ((helperProcess gid).locate true fs
        (inDir D.usersStateDir (username shortid))).2) parcel.uid parcel.gid) with ⟨e, -, he⟩ | ⟨_, fs', hr, -⟩
      · exact ⟨e, he⟩
      · obtain ⟨q, hq, hch⟩ := bind_eq_ok.1 (unit_eq_ok hr)
        rw [h.locate_home gid true] at hq
        cases hq
        unfold chownAt at hch
        rw [hnone] at hch
        cases hch
    obtain ⟨e, he⟩ := hfail
    rw [he]
    exact send_done h rfl (by decide)

/-- `mkdir` makes the directory or finds it. -/
theorem send_ensureOwnedDir {k : Command} (h : Sent D shortid fs₀ parcel fs)
    (hk : ∀ smooth' fs, (smooth = false → smooth' = false) → Entered D shortid fs₀ parcel fs →
      Send D shortid fs₀ parcel visudo gid smooth' k fs) :
    Send D shortid fs₀ parcel visudo gid smooth
      (ensureOwnedDir (inDir D.usersStateDir (username shortid)) parcel.uid parcel.gid 0o700 k) fs := by
  have hentry : sysExec (helperProcess gid) fs (.mkdir (inDir D.usersStateDir (username shortid)) 0o700) =
      mkdirAt (helperProcess gid) fs (userDir D shortid) 0o700 := by
    have hloc := h.locate_home gid false
    simp only [sysExec, Process.entry, inDir] at hloc ⊢
    rw [hloc]
    rfl
  unfold ensureOwnedDir
  apply ensures_ask h.stops
  intro o _
  have hk : ∀ smooth' fs, ((smooth && o.smooth) = false → smooth' = false) → Entered D shortid fs₀ parcel fs →
      Send D shortid fs₀ parcel visudo gid smooth' k fs :=
    fun smooth' fs hs => hk smooth' fs fun hsmooth => hs (by rw [hsmooth]; rfl)
  rcases hhome : fs.lookup (userDir D shortid) with _ | n
  · have hmkdir : sysExec (helperProcess gid) fs (.mkdir (inDir D.usersStateDir (username shortid)) 0o700) =
        .ok (fs.insert (userDir D shortid) (.dir ((helperProcess gid).attr 0o700))) := by
      obtain ⟨a, ha⟩ := h.way _ List.prefix_rfl
      rw [hentry, mkdirAt, hhome]
      have hadd : (helperProcess gid).mayAdd fs (userDir D shortid) = true := by
        unfold Process.mayAdd userDir
        rw [List.dropLast_concat, ha]
        simp [root_may (helperProcess_uid gid)]
      simp [hadd]
    rcases serve_sys (tool visudo) (helperProcess gid) o hmkdir with ⟨e, ho, he⟩ | he
    · refine ⟨_, _, he, ?_⟩
      have hs : (smooth && o.smooth) = false := by rw [not_smooth_of_errno ho, Bool.and_false]
      cases e with
      | exist => exact send_handOver h (.inr ⟨hhome, hs⟩) hk
      | _ => exact send_done h hs (by decide)
    · refine ⟨_, _, he, send_handOver (h.insert_home _) (.inl ⟨(helperProcess gid).attr 0o700, ?_⟩) hk⟩
      rw [Map.lookup_insert_if, if_pos rfl]
  · obtain ⟨a, rfl⟩ := h.home n hhome
    have hmkdir : sysExec (helperProcess gid) fs (.mkdir (inDir D.usersStateDir (username shortid)) 0o700) = .error .exist := by
      rw [hentry, mkdirAt, hhome]
      rfl
    obtain ⟨e, he, hserve⟩ := serve_sys_error (tool visudo) (helperProcess gid) o hmkdir
    refine ⟨_, _, hserve, ?_⟩
    have hs : e ≠ .exist → (smooth && o.smooth) = false := by
      intro hne
      rw [not_smooth_of_errno fun hnone => hne (he hnone), Bool.and_false]
    cases e with
    | exist => exact send_handOver h (.inl ⟨a, hhome⟩) hk
    | _ => exact send_done h (hs (by decide)) (by decide)

/-- The whole command. A text that does not decode is refused once the directory is there. -/
theorem send_helperMain (visudo : Str → Bool) (gid : Nat) (smooth : Bool) {b64 : Str} (hvalid : validShortid shortid = true)
    (hb64 : b64 ≠ []) (hdata : decodedArgument b64 = some parcel.data ∨ decodedArgument b64 = none ∧ smooth = false)
    (h : Sent D shortid fs₀ parcel fs) :
    Send D shortid fs₀ parcel visudo gid smooth (helperMain D [lit "write-runtime", shortid, b64]) fs := by
  rw [helperMain_writeRuntime]
  apply ensures_ask h.stops
  intro o _
  rcases serve_setuid (tool visudo) (helperProcess gid) o rfl 0 with ⟨e, ho, he⟩ | he
  · exact ⟨_, _, he, send_done h (by rw [not_smooth_of_errno ho, Bool.and_false]) (by decide)⟩
  refine ⟨_, _, he, ?_⟩
  simp only [cmdWriteRuntime, hvalid, Bool.not_true, hb64, decide_false, Bool.or_self, Bool.false_eq_true, if_false]
  apply ensures_ask h.stops
  rintro o ⟨-, haccount⟩
  refine ⟨some (parcel.uid, parcel.gid), fs, Prod.ext haccount rfl, ?_⟩
  refine send_ensureOwnedDir h fun smooth' fs hs h => ?_
  rcases hdata with hdata | ⟨hdata, hsmooth⟩
  · simp only [hdata]
    exact send_install h
  · simp only [hdata]
    exact send_done h.toSent (hs (by rw [hsmooth]; rfl)) (by decide)

/-! ## How many calls, and which results -/

theorem within_writeRuntime (D : Dirs) (shortid : Str) {b64 data : Str} (hdata : decodedArgument b64 = some data)
    (hlen : data.length ≤ 4096) : (helperMain D [lit "write-runtime", shortid, b64]).Within 4107 := by
  have hdrop : (dropRuntime (userDir D shortid)).Within 1 := fun a => trivial
  rintro (e | u)
  · trivial
  show (cmdWriteRuntime D [shortid, b64]).Within 4106
  simp only [cmdWriteRuntime, hdata]
  split
  · trivial
  rintro (_ | ⟨uid, gid⟩)
  · trivial
  have hgive : (giveRuntime (userDir D shortid) uid gid).Within 4 := by
    rintro (e | u)
    · exact hdrop.mono (by decide : 1 ≤ 3)
    rintro (e | u)
    · exact hdrop.mono (by decide : 1 ≤ 2)
    rintro (e | u)
    · exact hdrop
    · trivial
  have hinstall : (installRuntime (userDir D shortid) uid gid data).Within 4102 := by
    rintro (e | fd)
    · trivial
    refine (within_writeLoop (n := 5) (hdrop.mono (by decide)) ?_ data.length 0).mono (by omega : 5 + data.length ≤ 4101)
    rintro (e | u)
    · exact hdrop.mono (by decide : 1 ≤ 4)
    · exact hgive
  have hhand : (handOver (inDir D.usersStateDir (username shortid)) uid gid 0o700
      (installRuntime (userDir D shortid) uid gid data)).Within 4104 := by
    rintro (e | u)
    · trivial
    rintro (e | u)
    · trivial
    · exact hinstall
  rintro (e | u)
  · cases e with
    | exist => exact hhand
    | _ => trivial
  · exact hhand

/-- What does not decode is never a success. -/
theorem returns_writeRuntime (D : Dirs) (shortid : Str) {b64 : Str} (hdata : decodedArgument b64 = none) :
    (helperMain D [lit "write-runtime", shortid, b64]).Returns (· ≠ 0) := by
  rintro (e | u)
  · exact (by decide : (11 : Int) ≠ 0)
  show (cmdWriteRuntime D [shortid, b64]).Returns (· ≠ 0)
  simp only [cmdWriteRuntime, hdata]
  split
  · exact (by decide : (10 : Int) ≠ 0)
  rintro (_ | ⟨uid, gid⟩)
  · exact (by decide : (12 : Int) ≠ 0)
  have hhand : (handOver (inDir D.usersStateDir (username shortid)) uid gid 0o700 (.done 11)).Returns (· ≠ 0) := by
    rintro (e | u)
    · exact (by decide : (11 : Int) ≠ 0)
    rintro (e | u)
    · exact (by decide : (11 : Int) ≠ 0)
    · exact (by decide : (11 : Int) ≠ 0)
  rintro (e | u)
  · cases e with
    | exist => exact hhand
    | _ => exact (by decide : (11 : Int) ≠ 0)
  · exact hhand

/-! ## Both ends -/

/-- The helper has room for 4096 bytes. -/
theorem decodedArgument_encode (x : Str) : decodedArgument (base64Encode x) = if x.length ≤ 4096 then some x else none := by
  have hruns := base64Decode_eq (base64Encode x) (List.replicate 4096 0)
  rw [nonblank_encode, decoded_encode, List.length_replicate] at hruns
  unfold decodedArgument
  rcases hruns with ⟨bytes, hbytes, hroom, hrun⟩ | ⟨hlong, dst', -, hrun⟩
  · cases hbytes
    rw [hrun, if_pos hroom]
    show (if (x.length : Int) < 0 then none else some (List.take (x.length : Int).toNat _)) = some x
    rw [if_neg (by omega), Int.toNat_natCast, List.take_left]
  · rw [hrun, if_neg (Nat.not_le.2 (hlong x rfl))]
    rfl

end

section
variable (visudo : Str → Bool) (D : Dirs) (gid : Nat) (os : List Outcome) (fs : Fs)

/-- How the helper ends, and the tree it leaves. -/
def helperRun (argv : List Str) : Option Int × Fs := (helperMain D argv).alone (tool visudo) (helperProcess gid) os fs

/-- A helper that is killed has no exit code. -/
def exitOf : Option Int → Cron.ProcessResult
  | some rc => { exitCode := rc }
  | none => {}

theorem exitOf_eq_zero {rc : Option Int} : (exitOf rc).exitCode = 0 ↔ rc = some 0 := by
  cases rc <;> simp [exitOf]

/-- What the daemon is told. -/
def helperAnswer : Users.RuntimeWrite → Cron.ProcessResult
  | .helper shortid b64 => exitOf (helperRun visudo D gid os fs [lit "write-runtime", shortid, b64]).1
  | .shell _ _ => {}

end

theorem runtimeWrite_helper (J : JsonText) (cfg : RuntimeConfig) {shortid body : Str} (hvalid : validShortid shortid = true)
    (hhelper : cfg.helperPath ≠ []) (hbody : J.dump (some 2) (.ofFields [(lit "webhook_url", .str cfg.webhookUrl),
      (lit "webhook_secret_token", .str cfg.webhookSecretToken)]) = .ok body) :
    runtimeWrite J cfg (username shortid) = .ok (.helper shortid (base64Encode (body ++ lit "\n"))) := by
  simp only [validShortid, Bool.and_eq_true, decide_eq_true_eq] at hvalid
  have hslash : ¬ (username shortid = [] ∨ ch '/' ∈ username shortid) := by
    rintro (hnil | hmem)
    · exact absurd hnil (by simp [username, lit])
    · rcases List.mem_append.1 hmem with hmem | hmem
      · exact absurd hmem (by decide)
      · exact not_mem_of_all hvalid.2 (by decide) hmem
  have hpre : (lit "mcp_user_").isPrefixOf (username shortid) = true := List.isPrefixOf_iff_prefix.2 (List.prefix_append _ _)
  have hlen : (username shortid).length = (lit "mcp_user_").length + 8 := by rw [username, List.length_append, hvalid.1]
  unfold runtimeWrite
  rw [if_neg hslash, hbody]
  simp only
  rw [if_pos ⟨hhelper, hpre, hlen⟩]
  simp only [username, List.drop_left]

theorem writeForUser_ok (J : JsonText) (cfg : RuntimeConfig) {answer : Users.RuntimeWrite → Cron.ProcessResult}
    {osUsername : Str} {w : Users.RuntimeWrite} (hw : runtimeWrite J cfg osUsername = .ok w) :
    writeForUser J cfg answer osUsername = .ok () ↔ (answer w).exitCode = 0 := by
  unfold writeForUser
  rw [hw]
  simp only
  split
  · next h => exact ⟨fun _ => h, fun _ => rfl⟩
  · next h => exact ⟨(fun hok => by cases hok), fun h0 => absurd h0 h⟩

theorem base64Encode_ne_nil {x : Str} (hx : x ≠ []) : base64Encode x ≠ [] := by
  intro hnil
  have hdecoded := decoded_encode x
  rw [hnil] at hdecoded
  exact hx (Option.some.inj (hdecoded.symm.trans (decoded_encode [])))

/-- A user's settings, sent with the helper run by itself: wherever it stops, the file is the old one or the whole
new one, and nothing outside the directory of the user has changed. The daemon is told of success only where
the new one is there, and it is where nothing disturbs the helper. Settings that are too long are refused, and
the file stays the old one. -/
theorem runtime_json_delivered (J : JsonText) (cfg : RuntimeConfig) (visudo : Str → Bool) (D : Dirs) (gid : Nat)
    {shortid body : Str} {uid ugid : Nat} {fs : Fs} (hvalid : validShortid shortid = true) (hhelper : cfg.helperPath ≠ [])
    (hbody : J.dump (some 2) (.ofFields [(lit "webhook_url", .str cfg.webhookUrl),
      (lit "webhook_secret_token", .str cfg.webhookSecretToken)]) = .ok body)
    (hfs : Settled D shortid fs) {os : List Outcome} (hos : ∀ o ∈ os, Undivided ⟨body ++ lit "\n", uid, ugid⟩ o) :
    let fs' := (helperRun visudo D gid os fs [lit "write-runtime", shortid, base64Encode (body ++ lit "\n")]).2
    let told := writeForUser J cfg (helperAnswer visudo D gid os fs) (username shortid)
    (∀ q, ¬ userDir D shortid <+: q → fs'.lookup q = fs.lookup q) ∧
    if body.length < 4096 then
      (fs'.lookup (runtimeKey D shortid) = fs.lookup (runtimeKey D shortid) ∨
        fs'.lookup (runtimeKey D shortid) = some (.file ⟨uid, ugid, 0o600⟩ (body ++ lit "\n"))) ∧
      (told = .ok () → fs'.lookup (runtimeKey D shortid) = some (.file ⟨uid, ugid, 0o600⟩ (body ++ lit "\n"))) ∧
      (os.all Outcome.smooth = true → 4107 ≤ os.length → told = .ok ())
    else fs'.lookup (runtimeKey D shortid) = fs.lookup (runtimeKey D shortid) ∧ told ≠ .ok () := by
  have hlen : (body ++ lit "\n").length = body.length + 1 := by
    rw [List.length_append]
    rfl
  have hdecoded := decodedArgument_encode (body ++ lit "\n")
  have hne : base64Encode (body ++ lit "\n") ≠ [] := by
    apply base64Encode_ne_nil
    intro hnil
    rw [hnil] at hlen
    cases hlen
  have htold : writeForUser J cfg (helperAnswer visudo D gid os fs) (username shortid) = .ok () ↔
      (helperRun visudo D gid os fs [lit "write-runtime", shortid, base64Encode (body ++ lit "\n")]).1 = some 0 := by
    rw [writeForUser_ok J cfg (runtimeWrite_helper J cfg hvalid hhelper hbody)]
    exact exitOf_eq_zero
  simp only
  rw [htold]
  split
  · next hroom =>
    let parcel : Parcel := ⟨body ++ lit "\n", uid, ugid⟩
    have hdata : decodedArgument (base64Encode (body ++ lit "\n")) = some parcel.data := by
      rw [hdecoded, if_pos (by omega)]
    obtain ⟨s, hs, hsent, hzero, hdone⟩ := alone_of_ensures hos
      (send_helperMain visudo gid true hvalid hne (.inl hdata) hfs.sent)
    refine ⟨hsent.others, hsent.runtime, hzero, fun hsmooth hmany => ?_⟩
    obtain ⟨rc, hrc⟩ := alone_of_within (tool visudo) (helperProcess gid) (within_writeRuntime D shortid hdata
      (by show (body ++ lit "\n").length ≤ 4096; omega)) hmany fs
    have h0 := hdone (hs rfl hsmooth) rc hrc
    unfold helperRun
    rw [hrc, h0]
  · next hroom =>
    have hdata : decodedArgument (base64Encode (body ++ lit "\n")) = none := by
      rw [hdecoded, if_neg (by omega)]
    have hrefused : ∀ data, Sent D shortid fs ⟨data, uid, ugid⟩
        (helperRun visudo D gid os fs [lit "write-runtime", shortid, base64Encode (body ++ lit "\n")]).2 := by
      intro data
      have hos' : ∀ o ∈ os, Undivided ⟨data, uid, ugid⟩ o := hos
      obtain ⟨s, -, hsent, -⟩ := alone_of_ensures hos'
        (send_helperMain visudo gid false hvalid hne (.inr ⟨hdata, rfl⟩) hfs.sent)
      exact hsent
    refine ⟨(hrefused []).others, ?_, fun hok => ?_⟩
    · -- A file that is new would hold both of two texts.
      rcases (hrefused []).runtime with hold | hnew
      · exact hold
      rcases (hrefused (lit "\n")).runtime with hold | hnew'
      · exact hold
      rw [hnew] at hnew'
      cases hnew'
    · exact alone_of_returns (returns_writeRuntime D shortid hdata) (htold.1 hok) rfl

/-- No webhook is set. -/
def smallBody : Str := lit "\x7b\n  \"webhook_secret_token\": \"\",\n  \"webhook_url\": \"\"\n\x7d"

theorem smallHomes_settled : Settled smallDirs (lit "abcdefgh") smallHomes := by
  refine ⟨fun q hq => ?_, fun n hn => ?_, by decide, (fun a ha => by cases ha)⟩
  · rcases List.prefix_concat_iff.1 (show q <+: [] ++ [lit "u"] from hq) with rfl | hq
    · exact ⟨_, rfl⟩
    · rw [List.prefix_nil.1 hq]
      exact ⟨_, rfl⟩
  · cases hn
    exact ⟨_, rfl⟩

theorem runtime_json_delivered_small :
    (helperRun (fun _ => true) smallDirs 7 (List.replicate 4107 { account := some (5, 5) }) smallHomes
      [lit "write-runtime", lit "abcdefgh", base64Encode (smallBody ++ lit "\n")]).2.lookup (runtimeKey smallDirs (lit "abcdefgh")) =
      some (.file ⟨5, 5, 0o600⟩ (smallBody ++ lit "\n")) := by
  have hbody : jsonText.dump (some 2) (.ofFields [(lit "webhook_url", .str []), (lit "webhook_secret_token", .str [])]) =
      .ok smallBody := by decide +kernel
  have hos : ∀ o ∈ List.replicate 4107 ({ account := some (5, 5) } : Outcome), Undivided ⟨smallBody ++ lit "\n", 5, 5⟩ o := by
    intro o ho
    rw [List.eq_of_mem_replicate ho]
    exact ⟨rfl, rfl⟩
  have hdelivered := runtime_json_delivered jsonText {} (fun _ => true) smallDirs 7 (by decide) (by decide) hbody
    smallHomes_settled hos
  simp only at hdelivered
  rw [if_pos (by decide)] at hdelivered
  obtain ⟨-, -, hok, hsmooth⟩ := hdelivered
  exact hok (hsmooth (List.all_eq_true.2 fun o ho => by rw [List.eq_of_mem_replicate ho]; rfl) (by rw [List.length_replicate]))

end McpBridge.Priv
