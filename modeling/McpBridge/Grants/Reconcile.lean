import McpBridge.Grants.Manager
import McpBridge.Lib.JsonStream
/-!
# Startup (`core/grants.cpp`)

A daemon that starts loads `grants.json` and reconciles it with the drop-ins in
the sudoers directory: entries that have expired or have no drop-in are dropped,
and drop-ins without an entry are revoked. What a crash left behind is cleaned
up that way from every state (`reconcile_converges`).

Where the directory cannot be listed, reconciliation takes it to be empty. Then
every entry is dropped and every drop-in stays, with nothing left that would
ever revoke it (`unlisted_dropIns_orphaned`).
-/

open McpBridge.Lib McpBridge.Core

namespace McpBridge.Grants

/-! ## Loading -/

/-- A grant as `grants.json` has it. -/
def Grant.ofJson (j : Json) : Except JsonError Grant := do
  let grantid ← j.value Json.asStr (lit "grantid") []
  let shortid ← j.value Json.asStr (lit "shortid") []
  let templateName ← j.value Json.asStr (lit "template_name") []
  let capturedArgs ← j.value .ok (lit "captured_args") (.obj [])
  let expiresAt ← j.value Json.asInt (lit "expires_at") 0
  .ok { grantid, shortid, templateName, capturedArgs, expiresAt }

/-- The loop of `loadStateLocked`: what is not an object, or has no valid id, is skipped. -/
def loadGrants : List Json → Map Str Grant → Except JsonError (Map Str Grant)
  | [], grants => .ok grants
  | j :: rest, grants =>
    if !j.isObject then loadGrants rest grants
    else match Grant.ofJson j with
      | .error e => .error e
      | .ok g => loadGrants rest (if validGrantid g.grantid then grants.insert g.grantid g else grants)

/-- The grants in a file, on top of those in memory. What the stream throws is
caught, and a file that is absent or holds no array adds none. -/
def loadStateLocked (stream : Str → Streamed) (file : Option Str) (grants : Map Str Grant) :
    Except JsonError (Map Str Grant) :=
  match file with
  | none => .ok grants
  | some text =>
    match stream text with
    | .value (.arr l) => loadGrants l grants
    | _ => .ok grants

/-- A daemon that loads the file finds the id. -/
def Persisted (stream : Str → Streamed) (file : Option Str) (id : Str) : Prop :=
  ∃ grants, loadStateLocked stream file ∅ = .ok grants ∧ (grants.lookup id).isSome = true

/-! ## Reconciling -/

def dropInPrefix : Str := lit "mcp_grant_"

/-- The ids of the drop-ins in a listing of the sudoers directory, which is
`none` where the directory could not be opened. -/
def onDiskGrants (listing : Option (List Str)) : List Str :=
  match listing with
  | none => []
  | some names => (names.filter fun n => dropInPrefix.isPrefixOf n && n.length = 10 + 16).map (·.drop 10)

/-- What startup meets: the listing, the clock, and the outcomes of the write
and of the calls of the helper, in order. -/
structure ReconcileOutcome where
  listing : Option (List Str)
  now : Int64
  persist : WriteOutcome := {}
  helper : Nat → HelperOutcome := fun _ => {}

/-- The grant has not expired, and its drop-in is there. -/
def keepsGrant (now : Int64) (onDisk : List Str) (id : Str) (g : Grant) : Bool :=
  !decide (g.expiresAt ≤ now) && onDisk.contains id

/-- The entries that stay. -/
def retained (o : ReconcileOutcome) (grants : Map Str Grant) : Map Str Grant :=
  Map.keep (keepsGrant o.now (onDiskGrants o.listing)) grants

/-- The drop-ins to remove: those of dropped entries, then those without an
entry. The first are among the second, and so are revoked twice. -/
def toRemoveFromDisk (o : ReconcileOutcome) (grants : Map Str Grant) : List Str :=
  let onDisk := onDiskGrants o.listing
  (grants.entries.filter fun e => !keepsGrant o.now onDisk e.1 e.2 && onDisk.contains e.1).map (·.1) ++
    onDisk.filter fun id => ((retained o grants).lookup id).isNone

/-- Revokes drop-ins; the helper's exit code is not looked at. -/
def revokeOrphans (helper : Nat → HelperOutcome) : Nat → List Str → World → World
  | _, [], w => w
  | i, id :: ids, w =>
    let (_, _, w) := revokeGrantViaHelper id (helper i) w
    let sys : RequestContext := { userId := lit "daemon-reconcile" }
    revokeOrphans helper (i + 1) ids (w.logAudit (lit "grant_reconciled") sys id (lit "removed orphan drop-in"))

section
variable (J : JsonText) (cfg : Config)

def reconcileAtStartup (o : ReconcileOutcome) (w : World) : World :=
  let toRemove := toRemoveFromDisk o w.grants
  let w := match persistStateLocked J cfg o.persist { w with grants := retained o w.grants } with
    | (.ok (), w) => w
    | (.error e, w) => w.warn (lit "grants: reconcile persist: " ++ e)
  revokeOrphans o.helper 0 toRemove w

/-! ## What it leaves -/

/-- Every call of the helper does what it is asked. -/
def HelperWorks (o : ReconcileOutcome) : Prop := ∀ i, (o.helper i).rc = 0

theorem revokeOrphans_effect {helper : Nat → HelperOutcome} (hh : ∀ i, (helper i).rc = 0) (ids : List Str) (i : Nat)
    (w : World) :
    (revokeOrphans helper i ids w).grants = w.grants ∧ (revokeOrphans helper i ids w).grantsJson = w.grantsJson ∧
    ∀ id, (revokeOrphans helper i ids w).dropIns.lookup id = if id ∈ ids then none else w.dropIns.lookup id := by
  induction ids generalizing i w with
  | nil => simp [revokeOrphans]
  | cons d ids ih =>
    simp only [revokeOrphans, revokeGrantViaHelper, hh i, if_true]
    obtain ⟨hg, hj, hd⟩ := ih (i + 1) (({ w with dropIns := w.dropIns.erase d } : World).logAudit
      (lit "grant_reconciled") { userId := lit "daemon-reconcile" } d (lit "removed orphan drop-in"))
    refine ⟨hg, hj, fun id => ?_⟩
    rw [hd id]
    simp only [World.logAudit, Map.lookup_erase_if, List.mem_cons]
    by_cases hid : id = d
    · simp [hid]
    · simp [hid]

theorem reconcileAtStartup_effect {o : ReconcileOutcome} (hh : HelperWorks o) (w : World) :
    (reconcileAtStartup J cfg o w).grants = retained o w.grants ∧
    (reconcileAtStartup J cfg o w).grantsJson =
      (persistStateLocked J cfg o.persist { w with grants := retained o w.grants }).2.grantsJson ∧
    ∀ id, (reconcileAtStartup J cfg o w).dropIns.lookup id =
      if id ∈ toRemoveFromDisk o w.grants then none else w.dropIns.lookup id := by
  unfold reconcileAtStartup
  rcases hp : persistStateLocked J cfg o.persist { w with grants := retained o w.grants } with ⟨e | u, w1⟩
  · obtain ⟨hg, hd⟩ := persistStateLocked_effect J cfg hp
    obtain ⟨rg, rj, rd⟩ := revokeOrphans_effect hh (toRemoveFromDisk o w.grants) 0
      (w1.warn (lit "grants: reconcile persist: " ++ e))
    refine ⟨rg.trans hg, rj, fun id => ?_⟩
    rw [rd id]
    simp only [World.warn, hd]
  · obtain ⟨hg, hd⟩ := persistStateLocked_effect J cfg hp
    obtain ⟨rg, rj, rd⟩ := revokeOrphans_effect hh (toRemoveFromDisk o w.grants) 0 w1
    refine ⟨rg.trans hg, rj, fun id => ?_⟩
    rw [rd id, hd]

end

/-- The listing names the drop-ins there are, whatever else it names. -/
def Lists (names : List Str) (dropIns : Map Str DropIn) : Prop :=
  ∀ id, dropInPrefix ++ id ∈ names ↔ (dropIns.lookup id).isSome = true

theorem mem_onDiskGrants {names : List Str} {dropIns : Map Str DropIn} (hl : Lists names dropIns) (id : Str) :
    id ∈ onDiskGrants (some names) ↔ id.length = 16 ∧ (dropIns.lookup id).isSome = true := by
  simp only [onDiskGrants, List.mem_map, List.mem_filter, Bool.and_eq_true, decide_eq_true_eq, List.isPrefixOf_iff_prefix]
  rw [← hl id]
  have h10 : dropInPrefix.length = 10 := by decide
  constructor
  · rintro ⟨n, ⟨hn, ⟨t, rfl⟩, hlen⟩, rfl⟩
    rw [List.length_append, h10] at hlen
    rw [← h10, List.drop_left]
    exact ⟨by omega, hn⟩
  · rintro ⟨hlen, hn⟩
    refine ⟨_, ⟨hn, ⟨id, rfl⟩, ?_⟩, ?_⟩
    · rw [List.length_append, h10, hlen]
    · rw [← h10, List.drop_left]

theorem lookup_retained (o : ReconcileOutcome) (grants : Map Str Grant) (id : Str) :
    (retained o grants).lookup id = (grants.lookup id).filter (keepsGrant o.now (onDiskGrants o.listing) id) :=
  Map.lookup_keep _ _ _

/-- The drop-ins that are removed: those listed that have no entry afterwards. -/
theorem mem_toRemoveFromDisk (o : ReconcileOutcome) (grants : Map Str Grant) (id : Str) :
    id ∈ toRemoveFromDisk o grants ↔ id ∈ onDiskGrants o.listing ∧ (retained o grants).lookup id = none := by
  simp only [toRemoveFromDisk, List.mem_append, List.mem_map, List.mem_filter, Option.isNone_iff_eq_none]
  constructor
  · rintro (⟨⟨id', g⟩, ⟨hm, hdrop⟩, rfl⟩ | h)
    · simp only [Bool.and_eq_true, List.contains_eq_mem, decide_eq_true_eq] at hdrop
      refine ⟨hdrop.2, ?_⟩
      have hkeep : keepsGrant o.now (onDiskGrants o.listing) id' g = false := by simpa using hdrop.1
      rw [lookup_retained, Map.mem_entries.1 hm, Option.filter_some, hkeep]
      rfl
    · exact h
  · exact .inr

/-! ## The state file -/

/-- Each grant is under its own id, 16 hex digits, and its arguments are a value
the library holds. -/
def StateOk (grants : Map Str Grant) : Prop :=
  ∀ id g, grants.lookup id = some g → g.grantid = id ∧ validGrantid id = true ∧ g.capturedArgs.ordered = true

theorem StateOk.keep {grants : Map Str Grant} (h : StateOk grants) (p : Str → Grant → Bool) : StateOk (Map.keep p grants) := by
  intro id g hl
  rw [Map.lookup_keep, Option.filter_eq_some_iff] at hl
  exact h id g hl.1

theorem toJson_eq (g : Grant) :
    g.toJson = .obj [(lit "captured_args", g.capturedArgs), (lit "expires_at", .int g.expiresAt.toInt),
      (lit "grantid", .str g.grantid), (lit "shortid", .str g.shortid), (lit "template_name", .str g.templateName)] := rfl

theorem toJson_ordered {g : Grant} (h : g.capturedArgs.ordered = true) : g.toJson.ordered = true := by
  have hkeys : [lit "captured_args", lit "expires_at", lit "grantid", lit "shortid", lit "template_name"].Pairwise
      fun a b => Json.strLt a b = true := by decide
  rw [toJson_eq]
  simp only [Json.ordered, Json.orderedFields, h, Bool.and_true, Bool.true_and, decide_eq_true_eq]
  refine (List.pairwise_map (f := Prod.fst) (R := fun a b => Json.strLt a b = true)).1 ?_
  exact hkeys

/-- A grant reads back under its id. -/
theorem ofJson_agrees {g : Grant} {j : Json} (h : g.toJson.agrees j) :
    j.isObject = true ∧ ∃ g', Grant.ofJson j = .ok g' ∧ g'.grantid = g.grantid := by
  rw [toJson_eq] at h
  simp only [Json.agrees, Json.agreesFields] at h
  obtain ⟨_, rfl, a, _, rfl, -, _, _, rfl, rfl, _, _, rfl, rfl, _, _, rfl, rfl, _, _, rfl, rfl, rfl⟩ := h
  exact ⟨rfl, ⟨g.grantid, g.shortid, g.templateName, a, .ofInt g.expiresAt.toInt⟩, rfl, rfl⟩

theorem orderedList_toJson {l : List Grant} (h : ∀ g ∈ l, g.capturedArgs.ordered = true) :
    Json.orderedList (l.map Grant.toJson) = true := by
  induction l with
  | nil => rfl
  | cons g l ih =>
    simp only [List.map_cons, Json.orderedList, Bool.and_eq_true]
    exact ⟨toJson_ordered (h g List.mem_cons_self), ih fun g hg => h g (List.mem_cons_of_mem _ hg)⟩

/-- Loading what was written for grants with valid ids finds their ids. -/
theorem loadGrants_agrees {l : List Grant} (hv : ∀ g ∈ l, validGrantid g.grantid = true) {js : List Json}
    (ha : Json.agreesList (l.map Grant.toJson) js) (grants : Map Str Grant) :
    ∃ m, loadGrants js grants = .ok m ∧
      ∀ id, (m.lookup id).isSome = true ↔ (grants.lookup id).isSome = true ∨ ∃ g ∈ l, g.grantid = id := by
  induction l generalizing js grants with
  | nil =>
    simp only [List.map_nil, Json.agreesList] at ha
    subst ha
    exact ⟨grants, rfl, by simp⟩
  | cons g l ih =>
    simp only [List.map_cons, Json.agreesList] at ha
    obtain ⟨j, r, rfl, hj, hr⟩ := ha
    obtain ⟨hobj, g', hg', hid⟩ := ofJson_agrees hj
    obtain ⟨m, hm, hids⟩ := ih (fun g hg => hv g (List.mem_cons_of_mem _ hg)) hr (grants.insert g'.grantid g')
    refine ⟨m, ?_, fun id => ?_⟩
    · simp only [loadGrants, hobj, hg', hid, hv g List.mem_cons_self, Bool.not_true, Bool.false_eq_true, if_false, if_true]
      rw [← hid]
      exact hm
    · rw [hids id, hid, Map.lookup_insert_if]
      by_cases hk : id = g.grantid
      · simp [hk]
      · simp [hk, Ne.symm hk]

section
variable (J : JsonText) (stream : Str → Streamed) (cfg : Config)

/-- The entries can be dumped, and the system calls of the write succeed: the
temporary file is written, and one of the two `rename`s puts it in place. -/
def WritesState (o : WriteOutcome) (grants : Map Str Grant) : Prop :=
  (∃ text, J.dump (some 2) (.arr (grants.values.map Grant.toJson)) = .ok text) ∧
    o.opened = true ∧ o.written = true ∧ (o.renamed = true ∨ o.renamedAgain = true)

theorem persistStateLocked_ok_iff {o : WriteOutcome} {w : World} :
    (persistStateLocked J cfg o w).1 = .ok () ↔ WritesState J o w.grants := by
  rcases hd : J.dump (some 2) (.arr (w.grants.values.map Grant.toJson)) with e | text
  · simp [persistStateLocked, WritesState, hd]
  simp only [persistStateLocked, WritesState, hd, atomicWrite]
  rcases o.opened with _ | _
  · simp
  rcases o.written with _ | _
  · simp
  by_cases hr : o.renamed = true
  · simp [hr]
  by_cases hr' : o.renamedAgain = true
  · simp [hr, hr']
  · simp [hr, hr']

/-- The state file after a write that failed; where the second `rename` does, it may be gone. -/
def fileAfterFailure (o : WriteOutcome) (grants : Map Str Grant) (file : Option Str) : Option Str :=
  match J.dump (some 2) (.arr (grants.values.map Grant.toJson)) with
  | .error _ => file
  | .ok _ => if o.opened && o.written && o.removed then none else file

theorem persistStateLocked_error {o : WriteOutcome} {w : World} {e : Str} (h : (persistStateLocked J cfg o w).1 = .error e) :
    (persistStateLocked J cfg o w).2.grantsJson = fileAfterFailure J o w.grants w.grantsJson := by
  rcases hd : J.dump (some 2) (.arr (w.grants.values.map Grant.toJson)) with e' | text
  · simp only [persistStateLocked, fileAfterFailure, hd]
  simp only [persistStateLocked, fileAfterFailure, hd, atomicWrite] at h ⊢
  rcases ho : o.opened with _ | _
  · simp
  rcases hw : o.written with _ | _
  · simp
  simp only [ho, hw, Bool.not_true, Bool.false_eq_true, if_false, Bool.true_and] at h ⊢
  by_cases hr : o.renamed = true
  · simp [hr] at h
  by_cases hr' : o.renamedAgain = true
  · simp [hr, hr'] at h
  · simp [hr, hr']

theorem atomicWrite_ok {pid : Nat} {path data : Str} {o : WriteOutcome} {file : Option Str}
    (h : (atomicWrite pid path data o file).1 = .ok ()) : atomicWrite pid path data o file = (.ok (), some data) := by
  unfold atomicWrite at h ⊢
  split at h
  · cases h
  split at h
  · cases h
  split at h
  · next h1 h2 h3 => simp [h1, h2, h3]
  · next h1 h2 h3 =>
    simp only at h
    by_cases h4 : o.renamedAgain = true
    · simp [h1, h2, h3, h4]
    · rw [if_neg h4] at h
      cases h

theorem persistStateLocked_eq {o : WriteOutcome} {w : World} (h : (persistStateLocked J cfg o w).1 = .ok ()) :
    ∃ text, J.dump (some 2) (.arr (w.grants.values.map Grant.toJson)) = .ok text ∧
      persistStateLocked J cfg o w = (.ok (), { w with grantsJson := some (text ++ lit "\n") }) := by
  unfold persistStateLocked at h ⊢
  split at h
  · cases h
  · next text hd =>
    refine ⟨text, hd, ?_⟩
    have hw : (atomicWrite cfg.pid (cfg.stateDir ++ lit "/grants.json") (text ++ lit "\n") o w.grantsJson).1 = .ok () := h
    simp only [atomicWrite_ok hw]

/-- What is persisted is what a restart finds. -/
theorem persisted_iff (hJ : J.ReadsBack stream) {o : WriteOutcome} {w : World}
    (h : (persistStateLocked J cfg o w).1 = .ok ()) (hs : StateOk w.grants) (id : Str) :
    Persisted stream (persistStateLocked J cfg o w).2.grantsJson id ↔ (w.grants.lookup id).isSome = true := by
  obtain ⟨text, hd, hp⟩ := persistStateLocked_eq J cfg h
  have hmem : ∀ g, g ∈ w.grants.values ↔ w.grants.lookup g.grantid = some g :=
    fun g => Map.mem_values_of_key Grant.grantid fun id g hl => (hs id g hl).1
  have hordered : (Json.arr (w.grants.values.map Grant.toJson)).ordered = true := by
    rw [Json.ordered]
    exact orderedList_toJson fun g hg => (hs _ g ((hmem g).1 hg)).2.2
  obtain ⟨j, hstream, hagrees⟩ := hJ _ _ _ hordered hd
  simp only [Json.agrees] at hagrees
  obtain ⟨js, rfl, hjs⟩ := hagrees
  obtain ⟨m, hm, hids⟩ := loadGrants_agrees (fun g hg => (hs _ g ((hmem g).1 hg)).2.1) hjs ∅
  have hload : loadStateLocked stream (persistStateLocked J cfg o w).2.grantsJson ∅ = .ok m := by
    rw [hp]
    simp only [loadStateLocked, hstream, hm]
  have hid : (m.lookup id).isSome = true ↔ (w.grants.lookup id).isSome = true := by
    rw [hids id]
    simp only [AList.lookup_empty, Option.isSome_none, Bool.false_eq_true, false_or]
    constructor
    · rintro ⟨g, hg, rfl⟩
      rw [(hmem g).1 hg]
      rfl
    · intro hsome
      obtain ⟨g, hg⟩ := Option.isSome_iff_exists.1 hsome
      have hgid := (hs id g hg).1
      exact ⟨g, (hmem g).2 (hgid ▸ hg), hgid⟩
  rw [← hid]
  constructor
  · rintro ⟨m', hm', hsome⟩
    rw [hload] at hm'
    cases hm'
    exact hsome
  · intro hsome
    exact ⟨m, hload, hsome⟩

/-! ## The directory listed, or not -/

/-- What is left where the directory was listed: a drop-in with a 16-character
name stays iff its entry does, and one with another name stays. -/
theorem dropIns_left {o : ReconcileOutcome} (hh : HelperWorks o) {w : World} {names : List Str} (hn : o.listing = some names)
    (hl : Lists names w.dropIns) (id : Str) :
    ((reconcileAtStartup J cfg o w).dropIns.lookup id).isSome = true ↔
      (w.dropIns.lookup id).isSome = true ∧ (id.length = 16 → ((retained o w.grants).lookup id).isSome = true) := by
  obtain ⟨-, -, hd⟩ := reconcileAtStartup_effect J cfg hh w
  rw [hd id]
  have hmem := mem_toRemoveFromDisk o w.grants id
  rw [hn, mem_onDiskGrants hl] at hmem
  by_cases hrem : id ∈ toRemoveFromDisk o w.grants
  · obtain ⟨⟨hlen, hsome⟩, hnone⟩ := hmem.1 hrem
    simp [hrem, hlen, hnone]
  · rw [if_neg hrem]
    constructor
    · intro hsome
      refine ⟨hsome, fun hlen => ?_⟩
      by_contra hno
      exact hrem (hmem.2 ⟨⟨hlen, hsome⟩, by simpa using hno⟩)
    · exact fun h => h.1

/-- An entry that is kept has a drop-in with a 16-character name. -/
theorem dropIn_of_retained {o : ReconcileOutcome} {w : World} {names : List Str} (hn : o.listing = some names)
    (hl : Lists names w.dropIns) {id : Str} (h : ((retained o w.grants).lookup id).isSome = true) :
    id.length = 16 ∧ (w.dropIns.lookup id).isSome = true := by
  obtain ⟨g, hg⟩ := Option.isSome_iff_exists.1 h
  rw [lookup_retained, hn, Option.filter_eq_some_iff] at hg
  simp only [keepsGrant, Bool.and_eq_true, List.contains_eq_mem, decide_eq_true_eq] at hg
  exact (mem_onDiskGrants hl id).1 hg.2.2

/-- Where the directory could not be listed, nothing is taken to be on disk:
every entry goes, and no drop-in does. -/
theorem retained_unlisted {o : ReconcileOutcome} (hn : o.listing = none) (grants : Map Str Grant) (id : Str) :
    (retained o grants).lookup id = none := by
  rw [lookup_retained, hn]
  rcases grants.lookup id with _ | g
  · rfl
  · simp [onDiskGrants, keepsGrant]

theorem dropIns_unlisted {o : ReconcileOutcome} (hh : HelperWorks o) (hn : o.listing = none) (w : World) (id : Str) :
    (reconcileAtStartup J cfg o w).dropIns.lookup id = w.dropIns.lookup id := by
  obtain ⟨-, -, hd⟩ := reconcileAtStartup_effect J cfg hh w
  rw [hd id, if_neg]
  rw [mem_toRemoveFromDisk, hn]
  simp [onDiskGrants]

/-- An entry that is kept was there, has not expired, and has its drop-in. -/
theorem retained_isSome {o : ReconcileOutcome} {w : World} {names : List Str} (hn : o.listing = some names)
    (hl : Lists names w.dropIns) {id : Str} (hlen : id.length = 16) :
    ((retained o w.grants).lookup id).isSome = true ↔
      (∃ g, w.grants.lookup id = some g ∧ o.now < g.expiresAt) ∧ (w.dropIns.lookup id).isSome = true := by
  have hmem := mem_onDiskGrants hl id
  rw [lookup_retained, hn]
  rcases hg : w.grants.lookup id with _ | g
  · simp
  · simp only [Option.filter_some, keepsGrant, Option.some.injEq, exists_eq_left', List.contains_eq_mem, hmem, hlen, true_and]
    by_cases he : g.expiresAt ≤ o.now
    · have hlt : ¬ o.now < g.expiresAt := Int64.not_lt.2 he
      simp [he, hlt]
    · have hlt : o.now < g.expiresAt := Int64.not_le.1 he
      simp [he, hlt]

/-- Every drop-in has an entry in memory and in the state file. -/
def NoOrphans (w : World) : Prop :=
  ∀ id, (w.dropIns.lookup id).isSome = true → (w.grants.lookup id).isSome = true ∧ Persisted stream w.grantsJson id

/-- Whether every drop-in left has an entry, for every outcome of the listing:
iff there was none, or the directory could be listed, held only drop-ins with
16-character ids, and the entries kept can be written or were in the state file. -/
theorem no_orphans_iff (hJ : J.ReadsBack stream) {w : World} (hs : StateOk w.grants) {o : ReconcileOutcome}
    (hh : HelperWorks o) (hl : ∀ names, o.listing = some names → Lists names w.dropIns) :
    NoOrphans stream (reconcileAtStartup J cfg o w) ↔
      (∀ id, w.dropIns.lookup id = none) ∨
      (o.listing.isSome = true ∧ (∀ id, (w.dropIns.lookup id).isSome = true → id.length = 16) ∧
        (WritesState J o.persist (retained o w.grants) ∨
          ∀ id g, w.grants.lookup id = some g → o.now < g.expiresAt → (w.dropIns.lookup id).isSome = true →
            Persisted stream (fileAfterFailure J o.persist (retained o w.grants) w.grantsJson) id)) := by
  obtain ⟨hg, hj, -⟩ := reconcileAtStartup_effect J cfg hh w
  rcases hlist : o.listing with _ | names
  · simp only [NoOrphans, hg, retained_unlisted hlist, dropIns_unlisted J cfg hh hlist, Option.isSome_none,
      Bool.false_eq_true, false_and, or_false, imp_false, Option.not_isSome_iff_eq_none]
  · have hnames := hl names hlist
    have hleft := dropIns_left J cfg hh hlist hnames
    simp only [NoOrphans, hg, hj, hleft, Option.isSome_some, true_and]
    constructor
    · intro hno
      -- A drop-in with another name stays, and no entry that is kept has it.
      have hlen : ∀ id, (w.dropIns.lookup id).isSome = true → id.length = 16 := by
        intro id hid
        by_contra hlen
        exact hlen (dropIn_of_retained hlist hnames (hno id ⟨hid, fun h16 => absurd h16 hlen⟩).1).1
      refine .inr ⟨hlen, ?_⟩
      rcases hp : (persistStateLocked J cfg o.persist { w with grants := retained o w.grants }).1 with e | u
      · refine .inr fun id g hl hlive hid => ?_
        have hkept := (retained_isSome hlist hnames (hlen id hid)).2 ⟨⟨g, hl, hlive⟩, hid⟩
        rw [persistStateLocked_error J cfg hp] at hno
        exact (hno id ⟨hid, fun _ => hkept⟩).2
      · exact .inl ((persistStateLocked_ok_iff J cfg).1 hp)
    · rintro (hnone | ⟨hlen, hfile⟩) id ⟨hid, hkept⟩
      · rw [hnone id] at hid
        cases hid
      · have hkept := hkept (hlen id hid)
        refine ⟨hkept, ?_⟩
        rcases hp : (persistStateLocked J cfg o.persist { w with grants := retained o w.grants }).1 with e | u
        · obtain ⟨⟨g, hl, hlive⟩, -⟩ := (retained_isSome hlist hnames (hlen id hid)).1 hkept
          rw [persistStateLocked_error J cfg hp]
          rcases hfile with hok | hold
          · cases hp.symm.trans ((persistStateLocked_ok_iff J cfg).2 hok)
          · exact hold id g hl hlive hid
        · exact (persisted_iff J stream cfg hJ hp (hs.keep _) id).2 hkept

/-- Where every entry has its drop-in and every drop-in its entry, none has
expired, and the state file is what would be written, nothing is left to do. -/
theorem reconcileAtStartup_fixed {w : World} {o : ReconcileOutcome} {names : List Str} (hn : o.listing = some names)
    (hl : Lists names w.dropIns) (hlen : ∀ id, (w.dropIns.lookup id).isSome = true → id.length = 16)
    (hlive : ∀ id g, w.grants.lookup id = some g → o.now < g.expiresAt)
    (hsame : ∀ id, (w.dropIns.lookup id).isSome = true ↔ (w.grants.lookup id).isSome = true)
    (text : Str) (hd : J.dump (some 2) (.arr (w.grants.values.map Grant.toJson)) = .ok text)
    (hfile : w.grantsJson = some (text ++ lit "\n"))
    (hp : (persistStateLocked J cfg o.persist { w with grants := retained o w.grants }).1 = .ok ()) :
    reconcileAtStartup J cfg o w = w := by
  have hretained : retained o w.grants = w.grants := by
    apply AList.ext
    refine List.filter_eq_self.2 fun e he => ?_
    have hg := Map.mem_entries.1 he
    have hon := (hsame e.1).2 (by rw [hg]; rfl)
    have hnow := hlive _ _ hg
    have hmem := (mem_onDiskGrants hl e.1).2 ⟨hlen _ hon, hon⟩
    simp only [keepsGrant, hn, List.contains_eq_mem, hmem, decide_true, Bool.and_true, Bool.not_eq_eq_eq_not,
      Bool.not_true, decide_eq_false_iff_not]
    exact Int64.not_le.2 hnow
  have hnone : toRemoveFromDisk o w.grants = [] := by
    rw [List.eq_nil_iff_forall_not_mem]
    intro id hid
    obtain ⟨hon, hno⟩ := (mem_toRemoveFromDisk o w.grants id).1 hid
    rw [hn, mem_onDiskGrants hl, hsame] at hon
    rw [hretained] at hno
    rw [hno] at hon
    cases hon.2
  obtain ⟨text', hd', hp'⟩ := persistStateLocked_eq J cfg hp
  simp only [hretained] at hd' hp'
  cases hd.symm.trans hd'
  unfold reconcileAtStartup
  simp only [hretained, hp', hnone, revokeOrphans, ← hfile]

/-- From every state, with the directory listed, only drop-ins of valid ids in
it, and every call doing what it is asked: afterwards the entries, the ids in
the state file and the drop-ins are those that had an entry that has not expired
and a drop-in; the entries are as they were; and doing it again changes nothing. -/
theorem reconcile_converges (hJ : J.ReadsBack stream) {w : World} (hs : StateOk w.grants) {o : ReconcileOutcome}
    (hh : HelperWorks o) {names : List Str} (hn : o.listing = some names) (hl : Lists names w.dropIns)
    (hids : ∀ id, (w.dropIns.lookup id).isSome = true → validGrantid id = true)
    (hp : (persistStateLocked J cfg o.persist { w with grants := retained o w.grants }).1 = .ok ()) :
    (∀ id g, (reconcileAtStartup J cfg o w).grants.lookup id = some g ↔
      w.grants.lookup id = some g ∧ o.now < g.expiresAt ∧ (w.dropIns.lookup id).isSome = true) ∧
    (∀ id, Persisted stream (reconcileAtStartup J cfg o w).grantsJson id ↔
      ((reconcileAtStartup J cfg o w).grants.lookup id).isSome = true) ∧
    (∀ id, ((reconcileAtStartup J cfg o w).dropIns.lookup id).isSome = true ↔
      ((reconcileAtStartup J cfg o w).grants.lookup id).isSome = true) ∧
    ∀ o' names', o'.now = o.now → o'.listing = some names' → Lists names' (reconcileAtStartup J cfg o w).dropIns →
      (persistStateLocked J cfg o'.persist { reconcileAtStartup J cfg o w with
        grants := retained o' (reconcileAtStartup J cfg o w).grants }).1 = .ok () →
      reconcileAtStartup J cfg o' (reconcileAtStartup J cfg o w) = reconcileAtStartup J cfg o w := by
  obtain ⟨hg, hj, hd⟩ := reconcileAtStartup_effect J cfg hh w
  have hlen : ∀ id, (w.dropIns.lookup id).isSome = true → id.length = 16 := by
    intro id hid
    have hhex := hids id hid
    simp only [validGrantid, isHexId, Bool.and_eq_true, decide_eq_true_eq] at hhex
    exact hhex.1
  have hentries : ∀ id g, (reconcileAtStartup J cfg o w).grants.lookup id = some g ↔
      w.grants.lookup id = some g ∧ o.now < g.expiresAt ∧ (w.dropIns.lookup id).isSome = true := by
    intro id g
    have hmem := mem_onDiskGrants hl id
    rw [hg, lookup_retained, hn, Option.filter_eq_some_iff]
    refine and_congr_right fun _ => ?_
    simp only [keepsGrant, Bool.and_eq_true, Bool.not_eq_eq_eq_not, Bool.not_true, decide_eq_false_iff_not, List.contains_eq_mem,
      decide_eq_true_eq, hmem, Int64.not_le]
    exact and_congr_right fun _ => ⟨fun h => h.2, fun h => ⟨hlen id h, h⟩⟩
  have hdrop : ∀ id, ((reconcileAtStartup J cfg o w).dropIns.lookup id).isSome = true ↔
      ((reconcileAtStartup J cfg o w).grants.lookup id).isSome = true := by
    intro id
    rw [dropIns_left J cfg hh hn hl id, hg]
    constructor
    · rintro ⟨hid, hkept⟩
      exact hkept (hlen id hid)
    · intro hkept
      exact ⟨(dropIn_of_retained hn hl hkept).2, fun _ => hkept⟩
  refine ⟨hentries, ?_, hdrop, ?_⟩
  · intro id
    rw [hj, hg]
    exact persisted_iff J stream cfg hJ hp (hs.keep _) id
  · intro o' names' hnow hn' hl' hp'
    obtain ⟨text, hdump, hpersist⟩ := persistStateLocked_eq J cfg hp
    refine reconcileAtStartup_fixed J cfg hn' hl' ?_ ?_ hdrop text ?_ ?_ hp'
    · intro id hid
      rw [hd id] at hid
      split at hid
      · cases hid
      · exact hlen id hid
    · intro id g hgl
      rw [hnow]
      exact ((hentries id g).1 hgl).2.1
    · rw [hg]
      exact hdump
    · rw [hj, hpersist]

end

/-! ## A daemon that crashed -/

def liveId : Str := lit "0123456789abcdef"

def orphanId : Str := lit "fedcba9876543210"

/-- A grant with its drop-in, and a drop-in whose entry was lost. -/
def crashed : World where
  grants := AList.singleton liveId ⟨liveId, lit "abcdefgh", lit "full_admin", .obj [], 2000⟩
  grantsJson := none
  specFiles := ∅
  dropIns := (AList.singleton liveId ⟨[], 2000⟩).insert orphanId ⟨[], 900⟩
  audit := []
  warnings := []

/-- Startup with the directory listed. -/
def listed : ReconcileOutcome := { listing := some [dropInPrefix ++ liveId, dropInPrefix ++ orphanId], now := 1000 }

def exampleConfig : Config := ⟨lit "/var/lib/mcp_bridge/state", [], 7⟩

theorem crashed_stateOk : StateOk crashed.grants := by
  intro id g hl
  simp only [crashed, Map.lookup_singleton] at hl
  split at hl
  · next hid =>
    cases hl
    subst hid
    exact ⟨rfl, by decide, rfl⟩
  · cases hl

theorem crashed_dropIns (id : Str) : (crashed.dropIns.lookup id).isSome = true ↔ id = liveId ∨ id = orphanId := by
  simp only [crashed, Map.lookup_insert_if, Map.lookup_singleton]
  split
  · next ho => simp [ho]
  · next ho =>
    split
    · next hl => simp [hl]
    · next hl => simp [ho, hl]

theorem crashed_lists : Lists [dropInPrefix ++ liveId, dropInPrefix ++ orphanId] crashed.dropIns := by
  intro id
  rw [crashed_dropIns]
  simp only [List.mem_cons, List.append_cancel_left_eq, List.not_mem_nil, or_false]

theorem crashed_valid (id : Str) (h : (crashed.dropIns.lookup id).isSome = true) : validGrantid id = true := by
  rcases (crashed_dropIns id).1 h with rfl | rfl
  · decide
  · decide

theorem crashed_persists :
    (persistStateLocked jsonNulls exampleConfig listed.persist { crashed with grants := retained listed crashed.grants }).1 =
      .ok () := by
  have hok : (persistStateLocked jsonNulls exampleConfig listed.persist
      { crashed with grants := retained listed crashed.grants }).1.isOk = true := by decide +kernel
  rcases hp : (persistStateLocked jsonNulls exampleConfig listed.persist
      { crashed with grants := retained listed crashed.grants }).1 with e | u
  · rw [hp] at hok
    cases hok
  · rfl

theorem crashed_writes : WritesState jsonNulls listed.persist (retained listed crashed.grants) :=
  (persistStateLocked_ok_iff jsonNulls exampleConfig
    (w := { crashed with grants := retained listed crashed.grants })).1 crashed_persists

theorem no_orphans_iff_listed :
    NoOrphans (streamOf jsonNulls) (reconcileAtStartup jsonNulls exampleConfig listed crashed) := by
  refine (no_orphans_iff jsonNulls (streamOf jsonNulls) exampleConfig jsonNulls_readsBack crashed_stateOk (fun _ => rfl)
    ?_).2 (.inr ⟨rfl, ?_, .inl crashed_writes⟩)
  · rintro names ⟨⟩
    exact crashed_lists
  · intro id hid
    rcases (crashed_dropIns id).1 hid with rfl | rfl
    · rfl
    · rfl

theorem reconcile_converges_crashed :
    ((reconcileAtStartup jsonNulls exampleConfig listed crashed).dropIns.lookup liveId).isSome = true ∧
    ∀ id g, (reconcileAtStartup jsonNulls exampleConfig listed crashed).grants.lookup id = some g ↔
      crashed.grants.lookup id = some g ∧ 1000 < g.expiresAt ∧ (crashed.dropIns.lookup id).isSome = true := by
  obtain ⟨hgrants, -, hdropIns, -⟩ := reconcile_converges jsonNulls (streamOf jsonNulls) exampleConfig jsonNulls_readsBack
    crashed_stateOk (fun _ => rfl) rfl crashed_lists crashed_valid crashed_persists
  refine ⟨(hdropIns liveId).2 ?_, hgrants⟩
  decide +kernel

/-- The directory cannot be opened: both drop-ins stay, and the live grant loses its entry. -/
theorem unlisted_dropIns_orphaned :
    StateOk crashed.grants ∧ HelperWorks { listed with listing := none } ∧
    ¬ NoOrphans (streamOf jsonNulls) (reconcileAtStartup jsonNulls exampleConfig { listed with listing := none } crashed) := by
  refine ⟨crashed_stateOk, fun _ => rfl, ?_⟩
  intro hno
  have hstays : ((reconcileAtStartup jsonNulls exampleConfig { listed with listing := none } crashed).dropIns.lookup
      liveId).isSome = true := by decide +kernel
  have hgone : ((reconcileAtStartup jsonNulls exampleConfig { listed with listing := none } crashed).grants.lookup
      liveId).isSome = false := by decide +kernel
  have hentry := (hno liveId hstays).1
  rw [hgone] at hentry
  cases hentry

end McpBridge.Grants
