import McpBridge.Users.Reload
/-!
# What `load_all` makes of a directory

`FileHas` says which record a file of `users_dir` holds, from the file's name and
its document. Where the hashes of the records differ, the index after `load_all`
is those records, whatever was in it before and in whatever order the directory
is listed, iff reading no file throws anything but a parse error
(`loads_exactly_iff`).
-/

open McpBridge.Lib McpBridge.Server

namespace McpBridge.Users

/-! ## The record in a document -/

/-- A field that may be absent. -/
def Holds {α : Type} (get : Json → Except JsonError α) (k : String) (dflt : α) (doc : Json) (a : α) : Prop :=
  match doc.get? (lit k) with
  | none => a = dflt
  | some v => get v = .ok a

/-- The document is an object with the fields of the record. -/
structure IsRecord (doc : Json) (r : UserRecord) : Prop where
  isObject : doc.isObject = true
  userId : doc.get? (lit "user_id") = some (.str r.userId)
  userId_ne : r.userId ≠ []
  osUsername : Holds Json.asStr "os_username" [] doc r.osUsername
  name : Holds Json.asStr "name" [] doc r.name
  email : Holds Json.asStr "email" [] doc r.email
  isAdmin : Holds Json.asBool "is_admin" false doc r.isAdmin
  tokenHash : doc.get? (lit "token_hash") = some (.str r.tokenHash)
  tokenHash_ne : r.tokenHash ≠ []
  createdAt : Holds Json.asInt "created_at" 0 doc r.createdAt

theorem value_eq_ok_iff {α : Type} {get : Json → Except JsonError α} {k : String} {dflt a : α} {doc : Json}
    (hobj : doc.isObject = true) : doc.value get (lit k) dflt = .ok a ↔ Holds get k dflt doc a := by
  unfold Json.value Holds
  rw [if_pos hobj]
  cases doc.get? (lit k) with
  | none => exact ⟨fun h => (Except.ok.inj h).symm, fun h => by rw [h]⟩
  | some v => exact Iff.rfl

theorem at_asStr_iff {doc : Json} {k : String} {s : Str} (hobj : doc.isObject = true) :
    (doc.at_ (lit k) >>= Json.asStr) = .ok s ↔ doc.get? (lit k) = some (.str s) := by
  unfold Json.at_
  rw [if_pos hobj]
  cases doc.get? (lit k) with
  | none => exact ⟨nofun, nofun⟩
  | some v =>
    cases v with
    | str t => exact ⟨fun h => by cases h; rfl, fun h => by cases h; rfl⟩
    | _ => exact ⟨nofun, nofun⟩

theorem ofJson_eq_ok_iff {doc : Json} {r : UserRecord} (hobj : doc.isObject = true) :
    UserRecord.ofJson doc = .ok r ↔ doc.get? (lit "user_id") = some (.str r.userId) ∧
      Holds Json.asStr "os_username" [] doc r.osUsername ∧ Holds Json.asStr "name" [] doc r.name ∧
      Holds Json.asStr "email" [] doc r.email ∧ Holds Json.asBool "is_admin" false doc r.isAdmin ∧
      doc.get? (lit "token_hash") = some (.str r.tokenHash) ∧ Holds Json.asInt "created_at" 0 doc r.createdAt := by
  simp only [← value_eq_ok_iff hobj, ← at_asStr_iff hobj]
  constructor
  · intro h
    obtain ⟨v, hv, h⟩ := bind_eq_ok.1 h
    obtain ⟨userId, huser, h⟩ := bind_eq_ok.1 h
    obtain ⟨osUsername, hos, h⟩ := bind_eq_ok.1 h
    obtain ⟨name, hname, h⟩ := bind_eq_ok.1 h
    obtain ⟨email, hemail, h⟩ := bind_eq_ok.1 h
    obtain ⟨isAdmin, hadmin, h⟩ := bind_eq_ok.1 h
    obtain ⟨t, ht, h⟩ := bind_eq_ok.1 h
    obtain ⟨tokenHash, hhash, h⟩ := bind_eq_ok.1 h
    obtain ⟨createdAt, hcreated, h⟩ := bind_eq_ok.1 h
    cases h
    exact ⟨bind_eq_ok.2 ⟨v, hv, huser⟩, hos, hname, hemail, hadmin, bind_eq_ok.2 ⟨t, ht, hhash⟩, hcreated⟩
  · rintro ⟨huser, hos, hname, hemail, hadmin, hhash, hcreated⟩
    obtain ⟨v, hv, huser⟩ := bind_eq_ok.1 huser
    obtain ⟨t, ht, hhash⟩ := bind_eq_ok.1 hhash
    refine bind_eq_ok.2 ⟨v, hv, bind_eq_ok.2 ⟨_, huser, bind_eq_ok.2 ⟨_, hos, bind_eq_ok.2 ⟨_, hname, ?_⟩⟩⟩⟩
    refine bind_eq_ok.2 ⟨_, hemail, bind_eq_ok.2 ⟨_, hadmin, bind_eq_ok.2 ⟨t, ht, ?_⟩⟩⟩
    exact bind_eq_ok.2 ⟨_, hhash, bind_eq_ok.2 ⟨_, hcreated, rfl⟩⟩

theorem recordOf_iff (doc : Json) (r : UserRecord) : recordOf doc = some r ↔ IsRecord doc r := by
  unfold recordOf
  cases hobj : doc.isObject with
  | false =>
    refine ⟨nofun, fun h => ?_⟩
    rw [h.isObject] at hobj
    cases hobj
  | true =>
    constructor
    · intro h
      simp only [Bool.not_true, Bool.false_eq_true, if_false] at h
      split at h
      · cases h
      · next r' hr =>
        split at h
        · cases h
        · next hne =>
          cases h
          rw [not_or] at hne
          obtain ⟨huser, hos, hname, hemail, hadmin, hhash, hcreated⟩ := (ofJson_eq_ok_iff hobj).1 hr
          exact ⟨hobj, huser, hne.1, hos, hname, hemail, hadmin, hhash, hne.2, hcreated⟩
    · rintro ⟨-, huser, hune, hos, hname, hemail, hadmin, hhash, hhne, hcreated⟩
      have hr := (ofJson_eq_ok_iff hobj).2 ⟨huser, hos, hname, hemail, hadmin, hhash, hcreated⟩
      simp [hr, hune, hhne]

/-! ## The record in a file -/

section
variable (stream : Str → Streamed)

/-- A regular file that is not hidden and whose name is a stem and `.json` holds the record. -/
def FileHas (e : DirEntry) (r : UserRecord) : Prop :=
  e.candidate = true ∧ ∃ text doc, e.content = some text ∧ stream text = .value doc ∧ IsRecord doc r

/-- Reading the file throws something other than a parse error. -/
def ThrowsOther (e : DirEntry) : Prop := e.candidate = true ∧ ∃ text what, e.content = some text ∧ stream text = .thrown what

theorem record_iff (e : DirEntry) (r : UserRecord) : e.record stream = some r ↔ FileHas stream e r := by
  unfold DirEntry.record FileHas readUserFile
  cases e.candidate with
  | false => simp
  | true =>
    cases e.content with
    | none => simp [Except.toOption]
    | some text =>
      cases hs : stream text with
      | value doc => simp [Except.toOption, hs, recordOf_iff]
      | parseError => simp [Except.toOption, hs]
      | thrown what => simp [Except.toOption, hs]

theorem throws_iff (e : DirEntry) : e.throws stream = true ↔ ThrowsOther stream e := by
  unfold DirEntry.throws ThrowsOther readUserFile
  cases e.candidate with
  | false => simp
  | true =>
    cases e.content with
    | none => simp
    | some text => cases hs : stream text <;> simp [hs]

/-! ## The index -/

/-- `load_all` completes, and a hash leads to a record iff some file holds it. -/
def LoadsExactly (byHash : Map Str UserRecord) (es : List DirEntry) : Prop :=
  (∃ m, loadAll stream (some es) = .ok m) ∧
    ∀ h r, (reloaded stream byHash (some es)).lookup h = some r ↔ ∃ e ∈ es, FileHas stream e r ∧ r.tokenHash = h

/-- Where the hashes differ, the first record with a hash is the one with it. -/
theorem firstWith_eq_some {rs : List UserRecord} (hd : rs.Pairwise fun r r' => r.tokenHash ≠ r'.tokenHash) (h : Str) (r : UserRecord) :
    firstWith rs h = some r ↔ r ∈ rs ∧ r.tokenHash = h := by
  induction rs with
  | nil => simp [firstWith]
  | cons r' rs ih =>
    obtain ⟨hne, hd⟩ := List.pairwise_cons.1 hd
    rw [firstWith, List.find?_cons]
    by_cases hh : r'.tokenHash = h
    · simp only [hh, decide_true, Option.some.injEq, List.mem_cons]
      constructor
      · rintro rfl
        exact ⟨.inl rfl, hh⟩
      · rintro ⟨rfl | hr, hrh⟩
        · rfl
        · exact absurd (hh.trans hrh.symm) (hne r hr)
    · have htail := ih hd
      simp only [hh, decide_false, List.mem_cons]
      refine htail.trans ⟨fun hr => ⟨.inr hr.1, hr.2⟩, ?_⟩
      rintro ⟨rfl | hr, hrh⟩
      · exact absurd hrh hh
      · exact ⟨hr, hrh⟩

theorem loads_exactly_iff (byHash : Map Str UserRecord) (es : List DirEntry)
    (hd : es.Pairwise fun e e' => ∀ r r', FileHas stream e r → FileHas stream e' r' → r.tokenHash ≠ r'.tokenHash) :
    LoadsExactly stream byHash es ↔ ∀ e ∈ es, ¬ ThrowsOther stream e := by
  constructor
  · rintro ⟨⟨m, hm⟩, -⟩ e he hthrows
    obtain ⟨what, herror⟩ := loadEntries_error stream ⟨e, he, (throws_iff stream e).2 hthrows⟩ ∅
    have hm : loadEntries stream es ∅ = .ok m := hm
    rw [herror] at hm
    cases hm
  · intro hquiet
    have hnone : ∀ e ∈ es, e.throws stream = false := by
      intro e he
      rw [Bool.eq_false_iff]
      exact fun ht => hquiet e he ((throws_iff stream e).1 ht)
    obtain ⟨m, hm, hl⟩ := loadEntries_ok stream hnone ∅
    have hall : loadAll stream (some es) = .ok m := hm
    refine ⟨⟨m, hall⟩, fun h r => ?_⟩
    have hdistinct : (es.filterMap (·.record stream)).Pairwise fun r r' => r.tokenHash ≠ r'.tokenHash := by
      refine List.Pairwise.filterMap _ (fun e e' hee r hr r' hr' => ?_) hd
      exact hee r r' ((record_iff stream e r).1 hr) ((record_iff stream e' r').1 hr')
    simp only [reloaded, hall, hl h, AList.lookup_empty, Option.none_or, firstWith_eq_some hdistinct, List.mem_filterMap, record_iff]
    constructor
    · rintro ⟨⟨e, he, hr⟩, hh⟩
      exact ⟨e, he, hr, hh⟩
    · rintro ⟨e, he, hr, hh⟩
      exact ⟨⟨e, he, hr⟩, hh⟩

end

/-- The hashes that are found differ. -/
theorem hashes_differ {stream : Str → Streamed} {es : List DirEntry}
    (h : es.Pairwise fun e e' => (e.record stream).map (·.tokenHash) = none ∨
      (e.record stream).map (·.tokenHash) ≠ (e'.record stream).map (·.tokenHash)) :
    es.Pairwise fun e e' => ∀ r r', FileHas stream e r → FileHas stream e' r' → r.tokenHash ≠ r'.tokenHash := by
  refine h.imp fun {e e'} hee r r' hr hr' heq => ?_
  rw [(record_iff stream e r).2 hr, (record_iff stream e' r').2 hr', Option.map_some, Option.map_some, heq] at hee
  rcases hee with hee | hee
  · cases hee
  · exact hee rfl

/-- The record of one user. -/
def aliceFile : DirEntry :=
  ⟨lit "abcdefgh.json", true, some (write (some 2) 0 (.ofFields [(lit "user_id", .str (lit "abcdefgh")),
    (lit "token_hash", .str (lit "h"))]))⟩

/-- Another one's; the time does not fit into 64 bits. -/
def bobFile : DirEntry :=
  ⟨lit "bcdefghi.json", true, some (write none 0 (.ofFields [(lit "user_id", .str (lit "bcdefghi")),
    (lit "token_hash", .str (lit "g")), (lit "created_at", .int 18446744073709551615)]))⟩

/-- The two among files that are no records: a text that breaks off, a list, a
record with no hash, one whose hash is a number, and a hidden file. -/
def crowdedDir : List DirEntry :=
  [⟨lit "a.json", true, some (lit "\x7b\"user_id\":")⟩, aliceFile, ⟨lit "b.json", true, some (lit "[]")⟩,
    ⟨lit "c.json", true, some (lit "\x7b\"user_id\":\"c\"\x7d")⟩, bobFile,
    ⟨lit "d.json", true, some (lit "\x7b\"user_id\":\"d\",\"token_hash\":5\x7d")⟩,
    ⟨lit ".abcdefgh.json", true, aliceFile.content⟩]

theorem alice_loaded :
    LoadsExactly (streamOf jsonText) ∅ crowdedDir ∧
      ((reloaded (streamOf jsonText) ∅ (some crowdedDir)).lookup (lit "h")).map (·.userId) = some (lit "abcdefgh") ∧
      ((reloaded (streamOf jsonText) ∅ (some crowdedDir)).lookup (lit "g")).map (·.createdAt) = some (-1) := by
  refine ⟨?_, by decide +kernel, by decide +kernel⟩
  refine (loads_exactly_iff (streamOf jsonText) ∅ crowdedDir (hashes_differ (by decide +kernel))).2 fun e _ => ?_
  rintro ⟨-, text, what, -, hstream⟩
  unfold streamOf at hstream
  split at hstream <;> cases hstream

/-- A stream that throws at a number that is out of range. -/
def overflows (text : Str) : Streamed :=
  if text = lit "1e999" then .thrown (lit "[json.exception.out_of_range.406] number overflow parsing '1e999'")
  else streamOf jsonText text

def overflowFile : DirEntry := ⟨lit "x.json", true, some (lit "1e999")⟩

/-- One such file, and nobody is loaded. -/
theorem overflow_hides_users :
    ([overflowFile, aliceFile].Pairwise fun e e' =>
        ∀ r r', FileHas overflows e r → FileHas overflows e' r' → r.tokenHash ≠ r'.tokenHash) ∧
      ¬ LoadsExactly overflows ∅ [overflowFile, aliceFile] := by
  have hstream : overflows (lit "1e999") = .thrown (lit "[json.exception.out_of_range.406] number overflow parsing '1e999'") :=
    if_pos rfl
  constructor
  · refine List.pairwise_pair.2 ?_
    rintro r r' ⟨-, text, doc, htext, hvalue, -⟩
    cases htext
    rw [hstream] at hvalue
    cases hvalue
  · rintro ⟨⟨m, hm⟩, -⟩
    have herror : (loadAll overflows (some [overflowFile, aliceFile])).isOk = false := by decide
    rw [hm] at herror
    cases herror

end McpBridge.Users
