import McpBridge.Grants.StateFile
/-!
# What sweeping and startup remove

A sweep revokes the expired grants one by one. A revocation whose state file
cannot be written has erased its grant all the same, and the sweep goes on; the
last write has all that is left (`sweep_exact`).

Startup collects the drop-ins to remove in two loops: those of the entries it
drops, then those listed that have no entry. The second finds what the first
erased, so a drop-in of an expired grant is removed twice (`reconciled_once_iff`).
-/

open McpBridge.Lib McpBridge.Core

namespace McpBridge.Grants

/-! ## What a manager can hold -/

section
variable {J : JsonText} {regexMatch : Str → Str → RegexResult} {cfg : Config}

theorem Revoked.storable {o : Str → RevokeOutcome} {ids : List Str} {w w' : World} (h : Revoked o ids w w')
    (hs : Storable w.grants) : Storable w'.grants := by
  refine hs.keep fun id g hl => ?_
  rw [(h id).1] at hl
  split at hl
  · cases hl
  · exact hl

/-- The arguments of a request were read from JSON. -/
def ArgsRead : Call → Prop
  | .request _ _ _ capturedArgs _ _ => capturedArgs.ordered = true ∧ capturedArgs.finite = true
  | _ => True

/-- Every call keeps what a manager holds storable. -/
theorem next_storable {w w' : World} {c : Call} (hs : Storable w.grants) (hc : ArgsRead c)
    (h : next J regexMatch cfg w c = some w') : Storable w'.grants := by
  cases c with
  | request ctx shortid templateName capturedArgs ttl o =>
    rcases next_request J regexMatch cfg h with ⟨hg, -⟩ | ⟨g, spec, rfl, hg, -⟩
    · rw [hg]
      exact hs
    · rw [hg]
      exact hs.insert (isHexId_hexId o.buf) hc.1 hc.2
  | revoke grantid o =>
    cases h
    exact (revokeGrant_revoked J cfg grantid (fun _ => o) w).storable hs
  | sweep now o =>
    cases h
    exact (revokeAll_revoked J cfg o _ w).storable hs

/-- A manager that starts with what it loads holds what can be stored, after every run. -/
theorem storable_of_run {w w' : World} {calls : List Call} (h0 : Storable w.grants)
    (hc : Along (next J regexMatch cfg) (fun _ c => ArgsRead c) w calls) (hr : run (next J regexMatch cfg) w calls = some w') :
    Storable w'.grants :=
  run_inv (fun w => Storable w.grants) (fun _ _ _ hs hc hn => next_storable hs hc hn) h0 hc hr

/-! ## A sweep -/

theorem revokeAll_append (o : Str → RevokeOutcome) (ids ids' : List Str) (w : World) :
    revokeAll J cfg o (ids ++ ids') w = revokeAll J cfg o ids' (revokeAll J cfg o ids w) := by
  induction ids generalizing w with
  | nil => rfl
  | cons id ids ih =>
    simp only [List.cons_append, revokeAll]
    split
    · exact ih _
    · exact ih _

theorem eraseGrant_writes {grantid : Str} {rc : Int} {o : WriteOutcome} {w : World} (hm : (w.grants.lookup grantid).isSome = true)
    (hp : WritesState J o (w.grants.erase grantid)) :
    ∃ text, J.dump (some 2) (.arr ((Map.values (w.grants.erase grantid)).map Grant.toJson)) = .ok text ∧
      (eraseGrant J cfg grantid rc o w).2.grantsJson = some (text ++ lit "\n") := by
  obtain ⟨text, hd, heq⟩ := persistStateLocked_eq J cfg
    ((persistStateLocked_ok_iff J cfg (w := { w with grants := w.grants.erase grantid })).2 hp)
  refine ⟨text, hd, ?_⟩
  simp only [eraseGrant, hm, if_true, heq]
  rfl

/-- A revocation whose write succeeds leaves the file of the grants that are left. -/
theorem revokeGrant_writes {grantid : Str} {o : RevokeOutcome} {w : World} (hv : validGrantid grantid = true)
    (hm : (w.grants.lookup grantid).isSome = true) (hp : WritesState J o.persist (w.grants.erase grantid)) :
    ∃ text, J.dump (some 2) (.arr ((Map.values (w.grants.erase grantid)).map Grant.toJson)) = .ok text ∧
      (revokeGrant J cfg grantid o w).2.grantsJson = some (text ++ lit "\n") := by
  simp only [revokeGrant, hv, Bool.not_true, Bool.false_eq_true, if_false]
  rcases hr : revokeGrantViaHelper grantid o.helper w with ⟨rc, err, w1⟩
  obtain ⟨hg, -⟩ := revokeGrantViaHelper_effect hr
  rw [← hg] at hm hp ⊢
  split
  · exact eraseGrant_writes (w := w1.warn (lit "grants: helper revoke rc=" ++ writeInt rc ++ lit " err=" ++ err)) hm hp
  · exact eraseGrant_writes hm hp

theorem expiredIds_nodup (now : Int64) (w : World) : (expiredIds now w).Nodup := by
  have hkeys : (w.grants.entries.map Sigma.fst).Nodup := w.grants.nodupKeys
  exact hkeys.sublist (List.filter_sublist.map _)

/-- The last revocation of a sweep: the grants it leaves, and the file where its write succeeds. -/
theorem sweepExpired_last {now : Int64} {o : Str → RevokeOutcome} {w : World} (hs : Storable w.grants) {ids : List Str} {last : Str}
    (hids : expiredIds now w = ids ++ [last]) (hp : WritesState J (o last).persist (sweepExpired J cfg now o w).grants) :
    ∃ text, J.dump (some 2) (.arr ((sweepExpired J cfg now o w).grants.values.map Grant.toJson)) = .ok text ∧
      (sweepExpired J cfg now o w).grantsJson = some (text ++ lit "\n") := by
  have hlast : last ∈ expiredIds now w := by simp [hids]
  obtain ⟨g, hg, -⟩ := mem_expiredIds.1 hlast
  have hv := (hs.1 last g hg).2.1
  have hnot : last ∉ ids := by
    have hnodup := expiredIds_nodup now w
    rw [hids, List.nodup_append] at hnodup
    exact fun hm => hnodup.2.2 last hm last (by simp) rfl
  -- The grants before the last revocation still have its entry.
  have hthere : ((revokeAll J cfg o ids w).grants.lookup last).isSome = true := by
    rw [(revokeAll_revoked J cfg o ids w last).1, if_neg (fun h => hnot h.1), hg]
    rfl
  have hsame : ∀ r w', revokeGrant J cfg last (o last) (revokeAll J cfg o ids w) = (r, w') →
      (sweepExpired J cfg now o w).grants = w'.grants ∧ (sweepExpired J cfg now o w).grantsJson = w'.grantsJson := by
    intro r w' hr
    unfold sweepExpired
    rw [hids, revokeAll_append, revokeAll, hr]
    cases r <;> exact ⟨rfl, rfl⟩
  rcases hr : revokeGrant J cfg last (o last) (revokeAll J cfg o ids w) with ⟨r, w'⟩
  obtain ⟨hgrants, hjson⟩ := hsame r w' hr
  obtain ⟨heffect, -⟩ := revokeGrant_effect J cfg last (o last) (revokeAll J cfg o ids w)
  rw [hr, if_pos hv] at heffect
  rw [hgrants, heffect] at hp ⊢
  obtain ⟨text, hd, hfile⟩ := revokeGrant_writes hv hthere hp
  rw [hr] at hfile
  exact ⟨text, hd, hjson.trans hfile⟩

/-- The grants that have not expired, as they were, and their drop-ins. -/
def Swept (now : Int64) (w w' : World) : Prop :=
  (∀ id, w'.grants.lookup id = (w.grants.lookup id).filter fun g => now < g.expiresAt) ∧
    ∀ id, w'.dropIns.lookup id = if (w'.grants.lookup id).isSome then w.dropIns.lookup id else none

/-- Whichever of its writes fail, a sweep leaves the grants that have not expired
and their drop-ins. Where its last write succeeds, the state file has them. -/
theorem sweep_exact (stream : Str → Streamed) (hJ : J.ReadsFinite stream) (w : World) (hs : Storable w.grants)
    (hkeys : ∀ id, (w.dropIns.lookup id).isSome = true → (w.grants.lookup id).isSome = true) (now : Int64)
    (o : Str → RevokeOutcome) (hh : ∀ id, (o id).helper.rc = 0) :
    Swept now w (sweepExpired J cfg now o w) ∧
      ∀ ids last, expiredIds now w = ids ++ [last] → WritesState J (o last).persist (sweepExpired J cfg now o w).grants →
        ∃ m, loadStateLocked stream (sweepExpired J cfg now o w).grantsJson ∅ = .ok m ∧
          ∀ id, m.lookup id = (sweepExpired J cfg now o w).grants.lookup id := by
  have hrevoked := revokeAll_revoked J cfg o (expiredIds now w) w
  have hexpired : ∀ id g, w.grants.lookup id = some g → (id ∈ expiredIds now w ∧ validGrantid id = true ↔ g.expiresAt ≤ now) := by
    intro id g hg
    rw [mem_expiredIds, hg]
    simp [(hs.1 id g hg).2.1]
  have hgrants : ∀ id, (sweepExpired J cfg now o w).grants.lookup id = (w.grants.lookup id).filter fun g => now < g.expiresAt := by
    intro id
    rw [sweepExpired, (hrevoked id).1]
    cases hg : w.grants.lookup id with
    | none => simp
    | some g =>
      simp only [hexpired id g hg, Option.filter_some]
      by_cases he : g.expiresAt ≤ now
      · simp [he]
      · simp [he, Int64.not_le.1 he]
  refine ⟨⟨hgrants, fun id => ?_⟩, fun ids last hids hp => ?_⟩
  · rw [hgrants id, sweepExpired, (hrevoked id).2]
    simp only [hh id, and_true]
    cases hg : w.grants.lookup id with
    | none =>
      -- Without an entry there is no drop-in.
      have hnone : w.dropIns.lookup id = none := by
        rw [← Option.not_isSome_iff_eq_none]
        intro hsome
        have hentry := hkeys id hsome
        rw [hg] at hentry
        cases hentry
      simp [hnone]
    | some g =>
      simp only [hexpired id g hg, Option.filter_some]
      by_cases he : g.expiresAt ≤ now
      · simp [he]
      · simp [he, Int64.not_le.1 he]
  · obtain ⟨text, hd, hfile⟩ := sweepExpired_last hs hids hp
    rw [hfile]
    exact loadStateLocked_persisted hJ (hrevoked.storable hs) hd

end

/-- A grant that is live at 1000 and one that has expired, both installed. -/
def oneExpired : World where
  grants := (AList.singleton liveId ⟨liveId, lit "abcdefgh", kFullAdminTemplate, .obj [], 2000⟩).insert orphanId
    ⟨orphanId, lit "abcdefgh", kFullAdminTemplate, .obj [], 900⟩
  grantsJson := none
  specFiles := ∅
  dropIns := (AList.singleton liveId ⟨[], 2000⟩).insert orphanId ⟨[], 900⟩
  audit := []
  warnings := []

theorem oneExpired_storable : Storable oneExpired.grants := by
  have hempty : Storable ∅ := ⟨nofun, nofun⟩
  have hlive := hempty.insert (g := ⟨liveId, lit "abcdefgh", kFullAdminTemplate, .obj [], 2000⟩) (by decide) rfl rfl
  exact hlive.insert (g := ⟨orphanId, lit "abcdefgh", kFullAdminTemplate, .obj [], 900⟩) (by decide) rfl rfl

theorem oneExpired_keys (id : Str) (h : (oneExpired.dropIns.lookup id).isSome = true) :
    (oneExpired.grants.lookup id).isSome = true := by
  simp only [oneExpired, Map.lookup_insert_if, Map.lookup_singleton] at h ⊢
  by_cases ho : id = orphanId
  · simp [ho]
  · rw [if_neg ho] at h ⊢
    by_cases hl : id = liveId
    · simp [hl]
    · simp [hl] at h

/-- The sweep of a grant whose state file cannot be written. -/
theorem sweep_exact_oneExpired :
    Swept 1000 oneExpired (sweepExpired jsonPlain exampleConfig 1000 (fun _ => { persist := { opened := false } }) oneExpired) :=
  (sweep_exact (streamOf jsonPlain) jsonPlain_readsFinite oneExpired oneExpired_storable oneExpired_keys 1000
    (fun _ => { persist := { opened := false } }) fun _ => rfl).1

/-! ## Startup -/

/-- The audit event of a drop-in that startup removes. -/
def reconciledEvent (id : Str) : AuditEvent :=
  ⟨lit "grant_reconciled", id, lit "daemon-reconcile", [], lit "removed orphan drop-in"⟩

theorem revokeOrphans_audit (helper : Nat → HelperOutcome) (ids : List Str) (i : Nat) (w : World) :
    (revokeOrphans helper i ids w).audit = w.audit ++ ids.map reconciledEvent := by
  induction ids generalizing i w with
  | nil => simp [revokeOrphans]
  | cons id ids ih =>
    have haudit : (revokeGrantViaHelper id (helper i) w).2.2.audit = w.audit := by
      unfold revokeGrantViaHelper
      split <;> rfl
    simp only [revokeOrphans, ih, World.logAudit, haudit, List.map_cons]
    rw [List.append_assoc]
    rfl

theorem reconcileAtStartup_audit (J : JsonText) (cfg : Config) (o : ReconcileOutcome) (w : World) :
    (reconcileAtStartup J cfg o w).audit = w.audit ++ (toRemoveFromDisk o w.grants).map reconciledEvent := by
  have hpersist : ∀ r w', persistStateLocked J cfg o.persist { w with grants := retained o w.grants } = (r, w') →
      w'.audit = w.audit := by
    intro r w' h
    simp only [persistStateLocked] at h
    split at h
    · cases h
      rfl
    · cases h
      rfl
  unfold reconcileAtStartup
  rcases hp : persistStateLocked J cfg o.persist { w with grants := retained o w.grants } with ⟨e | u, w1⟩
  · rw [revokeOrphans_audit, ← hpersist _ _ hp]
    rfl
  · rw [revokeOrphans_audit, ← hpersist _ _ hp]

theorem onDiskGrants_nodup {listing : Option (List Str)} (h : ∀ names, listing = some names → names.Nodup) :
    (onDiskGrants listing).Nodup := by
  unfold onDiskGrants
  split
  · exact List.nodup_nil
  · next names =>
    refine List.Nodup.map_on ?_ ((h names rfl).filter _)
    intro a ha b hb hab
    simp only [List.mem_filter, Bool.and_eq_true, List.isPrefixOf_iff_prefix] at ha hb
    obtain ⟨-, ⟨s, rfl⟩, -⟩ := ha
    obtain ⟨-, ⟨t, rfl⟩, -⟩ := hb
    have h10 : dropInPrefix.length = 10 := by decide
    rw [← h10, List.drop_left, List.drop_left] at hab
    rw [hab]

section
variable (o : ReconcileOutcome) (grants : Map Str Grant)

/-- A drop-in that is listed and whose entry is not retained. -/
def Stale (id : Str) : Prop := id ∈ onDiskGrants o.listing ∧ (retained o grants).lookup id = none

/-- Each stale drop-in is in the list once, and no other id is. -/
def Once (ids : List Str) : Prop := ids.Nodup ∧ ∀ id, id ∈ ids ↔ Stale o grants id

/-- The ids the first loop collects. -/
def droppedOnDisk : List Str :=
  (grants.entries.filter fun e => !keepsGrant o.now (onDiskGrants o.listing) e.1 e.2 && (onDiskGrants o.listing).contains e.1).map (·.1)

theorem mem_droppedOnDisk (id : Str) : id ∈ droppedOnDisk o grants ↔
    id ∈ onDiskGrants o.listing ∧ ∃ g, grants.lookup id = some g ∧ g.expiresAt ≤ o.now := by
  simp only [droppedOnDisk, List.mem_map, List.mem_filter, Bool.and_eq_true, List.contains_eq_mem, decide_eq_true_eq]
  constructor
  · rintro ⟨⟨id, g⟩, ⟨hm, hdrop, hon⟩, rfl⟩
    refine ⟨hon, g, Map.mem_entries.1 hm, ?_⟩
    simpa [keepsGrant, hon] using hdrop
  · rintro ⟨hon, g, hg, he⟩
    exact ⟨⟨id, g⟩, ⟨Map.mem_entries.2 hg, by simp [keepsGrant, he], hon⟩, rfl⟩

/-- What the first loop collects, the second collects again. -/
theorem droppedOnDisk_stale {id : Str} (h : id ∈ droppedOnDisk o grants) : Stale o grants id :=
  (mem_toRemoveFromDisk o grants id).1 (List.mem_append_left _ h)

end

/-- Startup hands the drop-ins of `toRemoveFromDisk` to the helper, one after the
other, with an audit event for each. Each stale drop-in is among them once, and
nothing else is, iff no drop-in that is listed belongs to a grant that has expired. -/
theorem reconciled_once_iff (J : JsonText) (cfg : Config) (o : ReconcileOutcome) (w : World)
    (hn : ∀ names, o.listing = some names → names.Nodup) :
    (reconcileAtStartup J cfg o w).audit = w.audit ++ (toRemoveFromDisk o w.grants).map reconciledEvent ∧
      (Once o w.grants (toRemoveFromDisk o w.grants) ↔
        ∀ id g, w.grants.lookup id = some g → g.expiresAt ≤ o.now → id ∉ onDiskGrants o.listing) := by
  refine ⟨reconcileAtStartup_audit J cfg o w, ?_⟩
  have hlist : toRemoveFromDisk o w.grants = droppedOnDisk o w.grants ++
      (onDiskGrants o.listing).filter fun id => ((retained o w.grants).lookup id).isNone := rfl
  constructor
  · rintro ⟨hnodup, -⟩ id g hg he hon
    have hfirst := (mem_droppedOnDisk o w.grants id).2 ⟨hon, g, hg, he⟩
    have hstale := droppedOnDisk_stale o w.grants hfirst
    rw [hlist, List.nodup_append] at hnodup
    exact hnodup.2.2 id hfirst id (by simpa [Stale] using hstale) rfl
  · intro hno
    have hfirst : droppedOnDisk o w.grants = [] := by
      rw [List.eq_nil_iff_forall_not_mem]
      intro id hid
      obtain ⟨hon, g, hg, he⟩ := (mem_droppedOnDisk o w.grants id).1 hid
      exact hno id g hg he hon
    refine ⟨?_, mem_toRemoveFromDisk o w.grants⟩
    rw [hlist, hfirst, List.nil_append]
    exact (onDiskGrants_nodup hn).filter _

theorem listed_nodup : ∀ names, listed.listing = some names → names.Nodup := by
  rintro names ⟨⟩
  decide

theorem crashed_once : Once listed crashed.grants (toRemoveFromDisk listed crashed.grants) := by
  refine (reconciled_once_iff jsonNulls exampleConfig listed crashed listed_nodup).2.2 ?_
  intro id g hg he
  simp only [crashed, Map.lookup_singleton] at hg
  split at hg
  · cases hg
    exact absurd he (by decide)
  · cases hg

/-- The drop-in of a grant that has expired is handed to the helper twice. -/
theorem expired_twice : (∀ names, listed.listing = some names → names.Nodup) ∧
    toRemoveFromDisk listed oneExpired.grants = [orphanId, orphanId] ∧
    ¬ Once listed oneExpired.grants (toRemoveFromDisk listed oneExpired.grants) := by
  have htwice : toRemoveFromDisk listed oneExpired.grants = [orphanId, orphanId] := by decide +kernel
  refine ⟨listed_nodup, htwice, fun h => ?_⟩
  have hnodup := h.1
  rw [htwice] at hnodup
  simp at hnodup

end McpBridge.Grants
