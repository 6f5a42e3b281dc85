import McpBridge.Grants.Manager
import McpBridge.Grants.SpecScan
/-!
# A grant is issued, or nothing happened

`cmdInstallGrant` is the helper's `install-grant` (`priv/main.c`): every check
and system call up to the `rename` that puts the drop-in in place. The grant
manager sees its exit code only; `installGrantViaHelper_refines` is that this is
enough to know the drop-ins. `request_grant_atomic` is what `request_grant` makes
of it.
-/

open McpBridge.Lib McpBridge.Core

namespace McpBridge.Grants

/-! ## The helper -/

/-- Which system calls of the helper succeed, and what `visudo -cf` exits with. -/
structure InstallSteps where
  opened : Bool := true
  regular : Bool := true
  read : Bool := true
  staged : Bool := true
  written : Bool := true
  synced : Bool := true
  chowned : Bool := true
  visudo : Int := 0
  renamed : Bool := true

/-- The exit code, and the contents of the drop-ins. -/
def cmdInstallGrant (o : InstallSteps) (grantid : Str) (specFile : Option Str) (dropIns : Map Str Str) :
    Int × Map Str Str :=
  if !validGrantid grantid then (10, dropIns)
  else match specFile with
    | none => (11, dropIns)
    | some buf =>
      if !o.opened then (11, dropIns)
      else if !o.regular ∨ 4096 < buf.length then (13, dropIns)
      else if !o.read ∨ buf = [] then (13, dropIns)
      else if !specWellFormed buf then (13, dropIns)
      else if (dropIns.lookup grantid).isSome then (14, dropIns)
      else if !o.staged then (11, dropIns)
      else if !o.written then (11, dropIns)
      else if !o.synced then (11, dropIns)
      else if !o.chowned then (11, dropIns)
      else if o.visudo ≠ 0 then (13, dropIns)
      else if !o.renamed then (11, dropIns)
      else (0, dropIns.insert grantid buf)

/-- The helper exits 0 with a new drop-in that passed its check, or leaves them as they are. -/
theorem cmdInstallGrant_cases (o : InstallSteps) (grantid : Str) (specFile : Option Str) (dropIns : Map Str Str) :
    (∃ buf, specFile = some buf ∧ specWellFormed buf = true ∧ dropIns.lookup grantid = none ∧
      cmdInstallGrant o grantid specFile dropIns = (0, dropIns.insert grantid buf)) ∨
    ∃ rc, rc ≠ 0 ∧ cmdInstallGrant o grantid specFile dropIns = (rc, dropIns) := by
  fun_cases cmdInstallGrant o grantid specFile dropIns
  all_goals first | exact .inr ⟨_, by decide, rfl⟩ | skip
  next buf _ _ _ hspec hfresh _ _ _ _ _ _ =>
    exact .inl ⟨buf, rfl, by simpa using hspec, by simpa using hfresh, rfl⟩

section
variable (J : JsonText) (regexMatch : Str → Str → RegexResult) (cfg : Config)

/-- With the spec file in place and the exit code of the helper, the manager's
drop-ins are those the helper leaves. -/
theorem installGrantViaHelper_refines {g : Grant} {spec : Str} {o : WriteOutcome} {h : HelperOutcome} {w : World}
    (hwritten : (atomicWrite cfg.pid (cfg.stateDir ++ lit "/grant_" ++ g.grantid ++ lit ".spec") spec o
      (w.specFiles.lookup g.grantid)).1 = .ok ())
    (steps : InstallSteps) {dropIns : Map Str Str} (hd : ∀ id, dropIns.lookup id = (w.dropIns.lookup id).map (·.spec))
    (hrc : h.rc = (cmdInstallGrant steps g.grantid (some spec) dropIns).1) (id : Str) :
    (cmdInstallGrant steps g.grantid (some spec) dropIns).2.lookup id =
      ((installGrantViaHelper cfg g spec o h w).2.2.dropIns.lookup id).map (·.spec) := by
  have hret : (installGrantViaHelper cfg g spec o h w).1 = h.rc := by
    simp only [installGrantViaHelper]
    rcases ha : atomicWrite cfg.pid (cfg.stateDir ++ lit "/grant_" ++ g.grantid ++ lit ".spec") spec o
      (w.specFiles.lookup g.grantid) with ⟨e | u, file⟩
    · rw [ha] at hwritten
      cases hwritten
    · simp only
      split
      · rfl
      · next hrc => exact (not_not.1 hrc).symm
  rcases hi : installGrantViaHelper cfg g spec o h w with ⟨rc, err, w'⟩
  rw [hi] at hret
  obtain ⟨-, hdropIns⟩ := installGrantViaHelper_effect cfg hi
  simp only at hret ⊢
  rw [hret, hrc] at hdropIns
  rcases cmdInstallGrant_cases steps g.grantid (some spec) dropIns with ⟨buf, hbuf, -, -, hinstalled⟩ | ⟨rc, hne, hleft⟩
  · cases hbuf
    rw [hinstalled] at hdropIns ⊢
    rw [hdropIns, if_pos rfl]
    simp only [Map.lookup_insert_if, hd id]
    split
    · rfl
    · rfl
  · rw [hleft] at hdropIns ⊢
    rw [hdropIns, if_neg hne]
    exact hd id

/-! ## Requests -/

/-- What is rendered is for the account of the shortid, and the helper accepts it. -/
theorem renderSpec_ok {shortid templateName : Str} {capturedArgs : Json} {spec : Str}
    (h : renderSpec regexMatch cfg shortid templateName capturedArgs = .ok spec) :
    specWellFormed spec = true ∧ validShortid shortid = true ∧
      ∃ rest, spec = lit "mcp_user_" ++ shortid ++ lit " ALL=" ++ rest := by
  have hchecked : ∀ {r : Except Str Str}, (do
      let spec ← r
      if specIsWellFormed spec then .ok spec else .error (lit "grants: rendered spec failed shape check")) = .ok spec →
      r = .ok spec ∧ specWellFormed spec = true := by
    intro r hr
    obtain ⟨s, hs, hr⟩ := bind_eq_ok.1 hr
    split at hr
    · next hwell =>
      cases hr
      exact ⟨hs, (specIsWellFormed_eq _).symm.trans hwell⟩
    · cases hr
  unfold renderSpec at h
  split at h
  · obtain ⟨hs, hwell⟩ := hchecked h
    unfold renderFullAdminSpec at hs
    split at hs
    · next hid =>
      cases hs
      exact ⟨hwell, hid, lit "(ALL) NOPASSWD: ALL\n", by simp only [List.append_assoc]; rfl⟩
    · cases hs
  split at h
  · cases h
  · obtain ⟨hs, hwell⟩ := hchecked h
    obtain ⟨hid, cmd, -, rfl⟩ := renderSudoersSpec_ok hs
    exact ⟨hwell, hid, lit "(root) NOPASSWD: " ++ cmd ++ lit "\n", by simp only [List.append_assoc]; rfl⟩

theorem requestGrant_ttl {ctx : RequestContext} {shortid templateName : Str} {capturedArgs : Json} {ttl : Int}
    {o : RequestOutcome} {w : World} {g : Grant}
    (h : (requestGrant J regexMatch cfg ctx shortid templateName capturedArgs ttl o w).1 = .ok g) :
    1 ≤ ttl ∧ ttl ≤ 86400 := by
  unfold requestGrant at h
  split at h
  · cases h
  · omega

/-- Whatever its writes and the helper do: a request with a new id that throws
leaves the grants and the drop-ins as they were; one that returns added a grant
that expires as asked, with a drop-in for its account that the helper accepts. -/
theorem request_grant_atomic (ctx : RequestContext) (shortid templateName : Str) (capturedArgs : Json) (ttl : Int)
    (o : RequestOutcome) {w w' : World} {r : Except Str Grant} (hg : makeGrantid o.buf ∉ w.grants)
    (h : requestGrant J regexMatch cfg ctx shortid templateName capturedArgs ttl o w = (r, w')) :
    (∀ e, r = .error e → w'.grants = w.grants ∧ w'.dropIns = w.dropIns) ∧
    ∀ g, r = .ok g → 1 ≤ ttl ∧ ttl ≤ 86400 ∧ g.expiresAt = o.now + .ofInt ttl ∧
      g = ⟨makeGrantid o.buf, shortid, templateName, capturedArgs, o.now + .ofInt ttl⟩ ∧
      w'.grants = w.grants.insert g.grantid g ∧
      ∃ d, w'.dropIns.lookup g.grantid = some d ∧ specWellFormed d.spec = true ∧
        (∀ id, id ≠ g.grantid → w'.dropIns.lookup id = w.dropIns.lookup id) ∧
        shortid.length = 8 ∧ (∀ c ∈ shortid, (ch 'a' ≤ c ∧ c ≤ ch 'z') ∨ (ch '2' ≤ c ∧ c ≤ ch '7')) ∧
        ∃ rest, d.spec = lit "mcp_user_" ++ shortid ++ lit " ALL=" ++ rest := by
  rcases requestGrant_effect J regexMatch cfg hg h with ⟨⟨e, rfl⟩, hgrants, hdropIns⟩ |
    ⟨g, spec, rfl, hfields, hspec, hgrants, hdropIns⟩
  · refine ⟨fun _ _ => ⟨hgrants, hdropIns⟩, ?_⟩
    rintro g ⟨⟩
  · refine ⟨by rintro e ⟨⟩, ?_⟩
    rintro g' ⟨⟩
    obtain ⟨hmin, hmax⟩ := requestGrant_ttl J regexMatch cfg (congrArg Prod.fst h)
    obtain ⟨hwell, hid, hrest⟩ := renderSpec_ok regexMatch cfg hspec
    simp only [validShortid, Bool.and_eq_true, decide_eq_true_eq, List.all_eq_true, isShortidChar, isLower,
      Bool.or_eq_true] at hid
    refine ⟨hmin, hmax, by rw [hfields], hfields, hgrants, ⟨spec, g.expiresAt⟩, ?_, hwell, ?_, hid.1, hid.2, hrest⟩
    · rw [hdropIns, Map.lookup_insert_if, if_pos rfl]
    · intro id hne
      rw [hdropIns, Map.lookup_insert_if, if_neg hne]

end

/-- A request for `full_admin` in an empty world. -/
def exampleRequest : Except Str Grant × World :=
  requestGrant jsonText (fun _ _ => .matched) ⟨lit "/s", [], 7⟩ {} (lit "abcdefgh") (lit "full_admin") (.obj []) 60
    { buf := .replicate 8 7, now := 1000 } ⟨∅, none, ∅, ∅, [], []⟩

theorem request_grant_atomic_full_admin :
    ∃ g, exampleRequest.1 = .ok g ∧ g.expiresAt = 1000 + 60 ∧
      ∃ d, exampleRequest.2.dropIns.lookup g.grantid = some d ∧ specWellFormed d.spec = true := by
  have hok : exampleRequest.1.isOk = true := by decide +kernel
  rcases hr : exampleRequest with ⟨e | g, w'⟩
  · rw [hr] at hok
    cases hok
  · obtain ⟨-, -, hexpires, -, -, d, hd, hwell, -⟩ :=
      (request_grant_atomic jsonText (fun _ _ => .matched) _ _ _ _ _ _ _ (by simp) hr).2 g rfl
    exact ⟨g, rfl, hexpires, d, hd, hwell⟩

end McpBridge.Grants
