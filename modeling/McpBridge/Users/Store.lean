import McpBridge.Server.Handler
import McpBridge.Lib.JsonStream
/-!
# The index of users (`core/user_store.cpp`)

`load_all` reads the records of `users_dir` into a fresh map and swaps that in.
A directory is what `readdir`, `stat` and opening its entries give: their names,
whether they are regular files, and their contents where they can be opened.

Of what reading a record from its stream can throw, only a parse error is
caught there.
-/

open McpBridge.Lib McpBridge.Server

namespace McpBridge.Users

/-- A directory entry, as the process sees it. -/
structure DirEntry where
  name : Str
  regular : Bool
  content : Option Str

/-- What listing `users_dir` gives, or `none` where it cannot be opened. -/
abbrev Directory := Option (List DirEntry)

def endsWithJson (name : Str) : Bool := 5 < name.length && (lit ".json").isSuffixOf name

/-- The fields of a record. -/
def UserRecord.ofJson (doc : Json) : Except JsonError UserRecord := do
  let userId ← (← doc.at_ (lit "user_id")).asStr
  let osUsername ← doc.value Json.asStr (lit "os_username") []
  let name ← doc.value Json.asStr (lit "name") []
  let email ← doc.value Json.asStr (lit "email") []
  let isAdmin ← doc.value Json.asBool (lit "is_admin") false
  let tokenHash ← (← doc.at_ (lit "token_hash")).asStr
  let createdAt ← doc.value Json.asInt (lit "created_at") 0
  .ok { userId, osUsername, name, email, isAdmin, tokenHash, createdAt }

/-- The record in a document; one that lacks a field or has an empty one is skipped. -/
def recordOf (doc : Json) : Option UserRecord :=
  if !doc.isObject then none
  else match UserRecord.ofJson doc with
    | .error _ => none
    | .ok r => if r.userId = [] ∨ r.tokenHash = [] then none else some r

section
variable (stream : Str → Streamed)

def readUserFile (content : Option Str) : Except Str (Option UserRecord) :=
  match content with
  | none => .ok none
  | some text =>
    match stream text with
    | .parseError => .ok none
    | .thrown what => .error what
    | .value doc => .ok (recordOf doc)

/-- The entry is looked into. -/
def DirEntry.candidate (e : DirEntry) : Bool := e.name.head? ≠ some (ch '.') && endsWithJson e.name && e.regular

/-- The record of an entry. -/
def DirEntry.record (e : DirEntry) : Option UserRecord :=
  if e.candidate then ((readUserFile stream e.content).toOption).join else none

/-- The loop over the entries. Of two records with one hash, the first counts. -/
def loadEntries : List DirEntry → Map Str UserRecord → Except Str (Map Str UserRecord)
  | [], next => .ok next
  | e :: es, next =>
    if !e.candidate then loadEntries es next
    else match readUserFile stream e.content with
      | .error what => .error what
      | .ok none => loadEntries es next
      | .ok (some rec) =>
        loadEntries es (if (next.lookup rec.tokenHash).isSome then next else next.insert rec.tokenHash rec)

/-- The map `load_all` swaps in, or the exception that leaves it. -/
def loadAll (dir : Directory) : Except Str (Map Str UserRecord) :=
  match dir with
  | none => .ok ∅
  | some es => loadEntries stream es ∅

/-- The index after `load_all`: where it throws, the one from before. -/
def reloaded (byHash : Map Str UserRecord) (d : Directory) : Map Str UserRecord :=
  match loadAll stream d with
  | .ok m => m
  | .error _ => byHash

/-! ## What is loaded -/

/-- Some entry holds a record with the hash. -/
def Directory.Has (dir : Directory) (h : Str) : Prop :=
  ∃ es, dir = some es ∧ ∃ e ∈ es, ∃ r, e.record stream = some r ∧ r.tokenHash = h

/-- Reading the entry throws. -/
def DirEntry.throws (e : DirEntry) : Bool :=
  e.candidate && match readUserFile stream e.content with
    | .error _ => true
    | .ok _ => false

/-- The first record listed under a hash. -/
def firstWith (records : List UserRecord) (h : Str) : Option UserRecord := records.find? fun r => r.tokenHash = h

theorem loadEntries_step {e : DirEntry} (ht : e.throws stream = false) (es : List DirEntry) (next : Map Str UserRecord) :
    loadEntries stream (e :: es) next = loadEntries stream es (match e.record stream with
      | none => next
      | some r => if (next.lookup r.tokenHash).isSome then next else next.insert r.tokenHash r) := by
  rw [loadEntries]
  unfold DirEntry.throws at ht
  unfold DirEntry.record
  rcases hc : e.candidate with _ | _
  · simp
  rw [hc, Bool.true_and] at ht
  rcases hr : readUserFile stream e.content with what | o
  · rw [hr] at ht
    cases ht
  · cases o <;> simp [Except.toOption]

/-- What is loaded where nothing throws. -/
theorem loadEntries_ok {es : List DirEntry} (h : ∀ e ∈ es, e.throws stream = false) (next : Map Str UserRecord) :
    ∃ m, loadEntries stream es next = .ok m ∧
      ∀ k, m.lookup k = (next.lookup k).or (firstWith (es.filterMap (·.record stream)) k) := by
  induction es generalizing next with
  | nil => exact ⟨next, rfl, fun k => by simp [firstWith]⟩
  | cons e es ih =>
    rw [loadEntries_step stream (h e List.mem_cons_self)]
    obtain ⟨m, hm, hl⟩ := ih (fun e he => h e (List.mem_cons_of_mem _ he)) (match e.record stream with
      | none => next
      | some r => if (next.lookup r.tokenHash).isSome then next else next.insert r.tokenHash r)
    refine ⟨m, hm, fun k => ?_⟩
    rw [hl k]
    rcases hr : e.record stream with _ | r
    · simp [hr]
    · simp only [firstWith, List.filterMap_cons, hr, List.find?_cons]
      by_cases hk : r.tokenHash = k
      · subst hk
        rcases hn : next.lookup r.tokenHash with _ | x <;> simp [hn]
      · have hk' : ¬ k = r.tokenHash := fun h => hk h.symm
        simp only [hk, decide_false]
        split <;> simp [hk']

theorem loadEntries_error {es : List DirEntry} (h : ∃ e ∈ es, e.throws stream = true) (next : Map Str UserRecord) :
    ∃ what, loadEntries stream es next = .error what := by
  induction es generalizing next with
  | nil => simp at h
  | cons e es ih =>
    rcases ht : e.throws stream with _ | _
    · rw [loadEntries_step stream ht]
      apply ih
      obtain ⟨e', he', ht'⟩ := h
      rcases List.mem_cons.1 he' with rfl | he'
      · rw [ht] at ht'
        cases ht'
      · exact ⟨e', he', ht'⟩
    · unfold DirEntry.throws at ht
      rw [loadEntries]
      rcases hc : e.candidate with _ | _
      · simp [hc] at ht
      rw [hc, Bool.true_and] at ht
      rcases hr : readUserFile stream e.content with what | o
      · exact ⟨what, by simp⟩
      · rw [hr] at ht
        cases ht

/-- The index that was loaded: under each hash the first record with it. -/
theorem loadAll_eq_firstWith {es : List DirEntry} {m : Map Str UserRecord} (h : loadAll stream (some es) = .ok m) (k : Str) :
    m.lookup k = firstWith (es.filterMap (·.record stream)) k := by
  have hquiet : ∀ e ∈ es, e.throws stream = false := by
    intro e he
    rw [Bool.eq_false_iff]
    intro ht
    obtain ⟨what, hw⟩ := loadEntries_error stream ⟨e, he, ht⟩ ∅
    have h : loadEntries stream es ∅ = .ok m := h
    rw [hw] at h
    cases h
  obtain ⟨m', hm, hl⟩ := loadEntries_ok stream hquiet ∅
  cases h.symm.trans hm
  rw [hl k, AList.lookup_empty, Option.none_or]

/-- The index has a hash iff some record of the directory does. -/
theorem loadAll_lookup {dir : Directory} {m : Map Str UserRecord} (h : loadAll stream dir = .ok m) (k : Str) :
    m.lookup k = none ↔ ¬ dir.Has stream k := by
  cases dir with
  | none =>
    cases h
    simp [Directory.Has]
  | some es =>
    rw [loadAll_eq_firstWith stream h, firstWith, List.find?_eq_none]
    constructor
    · rintro hnone ⟨es', ⟨⟩, e, he, r, hr, hk⟩
      exact hnone r (List.mem_filterMap.2 ⟨e, he, hr⟩) (by simpa using hk)
    · intro hno r hr hk
      obtain ⟨e, he, hr⟩ := List.mem_filterMap.1 hr
      exact hno ⟨es, rfl, e, he, r, hr, by simpa using hk⟩

end

end McpBridge.Users
