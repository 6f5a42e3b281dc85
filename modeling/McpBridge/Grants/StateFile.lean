import McpBridge.Grants.Reconcile
import McpBridge.Lib.Loading
/-!
# The state file (`core/grants.cpp`)

`atomicWriteFiles` is `atomic_write` call by call, on the files of the state
directory: the temporary file is opened and written, and renamed over the state
file; where that fails, the state file is removed and the rename tried again.
`atomicWrite` is what it makes of the one file (`atomicWriteFiles_path`).

The file that was there is lost iff the second rename fails after a removal that
succeeded (`keeps_old_iff`).

What is written is read back as the grants it was written for
(`loadStateLocked_persisted`).
-/

open McpBridge.Lib McpBridge.Core

namespace McpBridge.Grants

/-! ## Writing it, call by call -/

/-- The outcomes of the calls of `atomic_write`: how much of the data gets into
the temporary file where the write fails, and whether that file is removed then. -/
structure WriteCalls extends WriteOutcome where
  partialData : Str := []
  tmpRemoved : Bool := true

abbrev Files := Map Str Str

/-- `fs::rename`, and whether it succeeded. -/
def rename (ok : Bool) (src dst : Str) (files : Files) : Bool × Files :=
  match ok, files.lookup src with
  | true, some data => (true, (files.erase src).insert dst data)
  | _, _ => (false, files)

def removeFile (ok : Bool) (path : Str) (files : Files) : Files := if ok then files.erase path else files

def atomicWriteFiles (pid : Nat) (path data : Str) (o : WriteCalls) (files : Files) : Except Str Unit × Files :=
  let tmp := tmpOf pid path
  if !o.opened then (.error (lit "open " ++ tmp), files)
  else if !o.written then (.error (lit "write " ++ tmp), removeFile o.tmpRemoved tmp (files.insert tmp o.partialData))
  else
    match rename o.renamed tmp path (files.insert tmp data) with
    | (true, files) => (.ok (), files)
    | (false, files) =>
      match rename o.renamedAgain tmp path (removeFile o.removed path files) with
      | (true, files) => (.ok (), files)
      | (false, files) =>
        (.error (lit "rename to " ++ path ++ lit ": " ++ o.message), removeFile o.tmpRemoved tmp files)

/-- Where it returns, the file has the new content; where it throws, it is as it was. -/
def KeepsOld (path data : Str) (files : Files) (r : Except Str Unit × Files) : Prop :=
  match r.1 with
  | .ok () => r.2.lookup path = some data
  | .error _ => r.2.lookup path = files.lookup path

theorem tmpOf_ne (pid : Nat) (path : Str) : tmpOf pid path ≠ path := by
  intro h
  have hlen := congrArg List.length h
  have htmp : 0 < (lit ".tmp.").length := by decide
  simp only [tmpOf, List.length_append] at hlen
  omega

theorem removeFile_other {ok : Bool} {path path' : Str} (h : path' ≠ path) (files : Files) :
    (removeFile ok path files).lookup path' = files.lookup path' := by
  unfold removeFile
  split
  · rw [Map.lookup_erase_if, if_neg h]
  · rfl

theorem rename_ok {src dst data : Str} {files : Files} (h : files.lookup src = some data) :
    rename true src dst files = (true, (files.erase src).insert dst data) := by
  simp [rename, h]

theorem rename_failed (src dst : Str) (files : Files) : rename false src dst files = (false, files) := rfl

/-- What becomes of the file at `path`. -/
theorem atomicWriteFiles_path (pid : Nat) (path data : Str) (o : WriteCalls) (files : Files) :
    (atomicWriteFiles pid path data o files).1 = (atomicWrite pid path data o.toWriteOutcome (files.lookup path)).1 ∧
      (atomicWriteFiles pid path data o files).2.lookup path =
        (atomicWrite pid path data o.toWriteOutcome (files.lookup path)).2 := by
  have htmp : path ≠ tmpOf pid path := Ne.symm (tmpOf_ne pid path)
  have hwritten : (files.insert (tmpOf pid path) data).lookup (tmpOf pid path) = some data := by simp
  unfold atomicWriteFiles atomicWrite
  cases o.opened with
  | false => simp
  | true =>
    cases o.written with
    | false => simp [removeFile_other htmp, htmp]
    | true =>
      cases o.renamed with
      | true => simp [rename_ok hwritten]
      | false =>
        have hstays : (removeFile o.removed path (files.insert (tmpOf pid path) data)).lookup (tmpOf pid path) = some data := by
          rw [removeFile_other (tmpOf_ne pid path), hwritten]
        cases o.renamedAgain with
        | true => simp [rename_failed, rename_ok hstays]
        | false =>
          cases o.removed <;> simp [rename_failed, removeFile] <;> split <;> simp [htmp]

/-- The old content is kept iff there was none, or an earlier call decides. -/
theorem keeps_old_iff (pid : Nat) (path data : Str) (o : WriteCalls) (files : Files) :
    KeepsOld path data files (atomicWriteFiles pid path data o files) ↔
      ¬ (o.opened = true ∧ o.written = true ∧ o.renamed = false ∧ o.removed = true ∧ o.renamedAgain = false ∧
        (files.lookup path).isSome = true) := by
  obtain ⟨hr, hf⟩ := atomicWriteFiles_path pid path data o files
  unfold KeepsOld
  rw [hr, hf]
  unfold atomicWrite
  cases o.opened with
  | false => simp
  | true =>
    cases o.written with
    | false => simp
    | true =>
      cases o.renamed with
      | true => simp
      | false =>
        cases o.renamedAgain with
        | true => simp
        | false =>
          -- Nothing is at `path` after the removal, and nothing gets there.
          cases o.removed with
          | false => simp
          | true => cases files.lookup path <;> simp

def oldState : Files := AList.singleton (lit "/s/grants.json") (lit "[]\n")

/-- The first rename fails, the removal succeeds, the second rename fails. -/
theorem old_state_lost :
    ¬ KeepsOld (lit "/s/grants.json") (lit "[1]\n") oldState
      (atomicWriteFiles 7 (lit "/s/grants.json") (lit "[1]\n") { renamed := false, renamedAgain := false } oldState) := by
  intro h
  have hlost : (atomicWriteFiles 7 (lit "/s/grants.json") (lit "[1]\n") { renamed := false, renamedAgain := false }
      oldState).2.lookup (lit "/s/grants.json") = none := by decide +kernel
  have hold : oldState.lookup (lit "/s/grants.json") = some (lit "[]\n") := by decide +kernel
  have hthrows : (atomicWriteFiles 7 (lit "/s/grants.json") (lit "[1]\n") { renamed := false, renamedAgain := false }
      oldState).1.isOk = false := by decide +kernel
  unfold KeepsOld at h
  rw [hlost, hold] at h
  split at h
  · next hok =>
    rw [hok] at hthrows
    cases hthrows
  · cases h

/-! ## Reading it back -/

/-- An element of the state file. -/
def readGrant : Json → Except JsonError (Option Grant) := readRecord Grant.ofJson fun g => validGrantid g.grantid

theorem loadGrants_eq (l : List Json) (grants : Map Str Grant) : loadGrants l grants = loadInto readGrant Grant.grantid l grants := by
  induction l generalizing grants with
  | nil => rfl
  | cons j l ih =>
    unfold readGrant at ih ⊢
    rw [loadInto_readRecord, loadGrants]
    cases Grant.ofJson j <;> simp only [ih]

/-- A 64-bit number comes back as it was. -/
theorem grant_ofJson_toJson (g : Grant) : Grant.ofJson g.toJson = .ok g := by
  have hread : Grant.ofJson g.toJson = .ok { g with expiresAt := .ofInt g.expiresAt.toInt } := rfl
  rw [hread, Int64.ofInt_toInt]

theorem readGrant_toJson {g : Grant} (h : validGrantid g.grantid = true) : readGrant g.toJson = .ok (some g) :=
  readRecord_ok _ _ rfl (grant_ofJson_toJson g) h

/-- What a manager can hold: each grant is under its own id, and its arguments
are a value that was read. -/
def Storable (grants : Map Str Grant) : Prop :=
  StateOk grants ∧ ∀ id g, grants.lookup id = some g → g.capturedArgs.finite = true

theorem Storable.keep {grants grants' : Map Str Grant} (h : Storable grants)
    (hsub : ∀ id g, grants'.lookup id = some g → grants.lookup id = some g) : Storable grants' :=
  ⟨fun id g hl => h.1 id g (hsub id g hl), fun id g hl => h.2 id g (hsub id g hl)⟩

theorem Storable.insert {grants : Map Str Grant} (h : Storable grants) {g : Grant} (hv : validGrantid g.grantid = true)
    (hordered : g.capturedArgs.ordered = true) (hfinite : g.capturedArgs.finite = true) :
    Storable (grants.insert g.grantid g) := by
  constructor
  · intro id g' hl
    rw [Map.lookup_insert_if] at hl
    split at hl
    · next hid =>
      cases hl
      subst hid
      exact ⟨rfl, hv, hordered⟩
    · exact h.1 id g' hl
  · intro id g' hl
    rw [Map.lookup_insert_if] at hl
    split at hl
    · cases hl
      exact hfinite
    · exact h.2 id g' hl

/-- A field of a value that was read. -/
theorem field_read {k : Str} {v : Json} {l : List (Str × Json)} (hordered : Json.orderedFields l = true)
    (hfinite : Json.finiteFields l = true) (h : Json.field? k l = some v) : v.ordered = true ∧ v.finite = true := by
  induction l with
  | nil => cases h
  | cons kv l ih =>
    simp only [Json.orderedFields, Json.finiteFields, Bool.and_eq_true] at hordered hfinite
    simp only [Json.field?] at h
    split at h
    · cases h
      exact ⟨hordered.1, hfinite.1⟩
    · exact ih hordered.2 hfinite.2 h

theorem readGrant_storable {j : Json} (hordered : j.ordered = true) (hfinite : j.finite = true) {g : Grant}
    (h : readGrant j = .ok (some g)) :
    validGrantid g.grantid = true ∧ g.capturedArgs.ordered = true ∧ g.capturedArgs.finite = true := by
  obtain ⟨hobj, hj, hv⟩ := readRecord_some h
  refine ⟨hv, ?_⟩
  obtain ⟨grantid, -, hj⟩ := bind_eq_ok.1 hj
  obtain ⟨shortid, -, hj⟩ := bind_eq_ok.1 hj
  obtain ⟨templateName, -, hj⟩ := bind_eq_ok.1 hj
  obtain ⟨args, hargs, hj⟩ := bind_eq_ok.1 hj
  obtain ⟨expiresAt, -, hj⟩ := bind_eq_ok.1 hj
  cases hj
  cases j with
  | obj l =>
    simp only [Json.value, Json.isObject, if_true, Json.get?] at hargs
    split at hargs
    · next v hget =>
      cases hargs
      simp only [Json.ordered, Json.finite, Bool.and_eq_true] at hordered hfinite
      exact field_read hordered.1 hfinite hget
    · cases hargs
      exact ⟨rfl, rfl⟩
  | _ => cases hobj

/-- What is loaded from values that were read can be held. -/
theorem loadGrants_storable {l : List Json} (hl : ∀ j ∈ l, j.ordered = true ∧ j.finite = true) {grants grants' : Map Str Grant}
    (hs : Storable grants) (h : loadGrants l grants = .ok grants') : Storable grants' := by
  rw [loadGrants_eq] at h
  induction l generalizing grants with
  | nil =>
    cases h
    exact hs
  | cons j l ih =>
    rw [loadInto] at h
    split at h
    · cases h
    · next o hread =>
      refine ih (fun j hj => hl j (List.mem_cons_of_mem _ hj)) ?_ h
      cases o with
      | none => exact hs
      | some g =>
        obtain ⟨hordered, hfinite⟩ := hl j List.mem_cons_self
        obtain ⟨hv, ho, hf⟩ := readGrant_storable hordered hfinite hread
        exact hs.insert hv ho hf

theorem finiteList_toJson {l : List Grant} (h : ∀ g ∈ l, g.capturedArgs.finite = true) :
    Json.finiteList (l.map Grant.toJson) = true := by
  induction l with
  | nil => rfl
  | cons g l ih =>
    simp only [List.map_cons, Json.finiteList, Bool.and_eq_true]
    refine ⟨?_, ih fun g hg => h g (List.mem_cons_of_mem _ hg)⟩
    rw [toJson_eq]
    simp [Json.finite, Json.finiteFields, h g List.mem_cons_self]

section
variable {J : JsonText} {stream : Str → Streamed} {cfg : Config}

/-- What is written is read back as the grants it was written for. -/
theorem loadStateLocked_persisted (hJ : J.ReadsFinite stream) {grants : Map Str Grant} (hs : Storable grants) {text : Str}
    (hd : J.dump (some 2) (.arr (grants.values.map Grant.toJson)) = .ok text) :
    ∃ m, loadStateLocked stream (some (text ++ lit "\n")) ∅ = .ok m ∧ ∀ id, m.lookup id = grants.lookup id := by
  have hkey : ∀ id g, grants.lookup id = some g → g.grantid = id := fun id g hl => (hs.1 id g hl).1
  have hmem : ∀ g ∈ grants.values, grants.lookup g.grantid = some g :=
    fun g hg => (Map.mem_values_of_key Grant.grantid hkey).1 hg
  have hordered : (Json.arr (grants.values.map Grant.toJson)).ordered = true := by
    rw [Json.ordered]
    exact orderedList_toJson fun g hg => (hs.1 _ g (hmem g hg)).2.2
  have hfinite : (Json.arr (grants.values.map Grant.toJson)).finite = true := by
    rw [Json.finite]
    exact finiteList_toJson fun g hg => hs.2 _ g (hmem g hg)
  have hread : ∀ g ∈ grants.values, readGrant g.toJson = .ok (some g) :=
    fun g hg => readGrant_toJson (hs.1 _ g (hmem g hg)).2.1
  obtain ⟨m, hm, hl⟩ := loadInto_values Grant.grantid hkey hread
  refine ⟨m, ?_, hl⟩
  simp only [loadStateLocked, hJ _ _ _ hordered hfinite hd, loadGrants_eq, hm]

end

end McpBridge.Grants
