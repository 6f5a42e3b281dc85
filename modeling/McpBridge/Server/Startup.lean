import McpBridge.Grants.StateFile
import McpBridge.Users.RuntimeSync
/-!
# Malformed records (`core/grants.cpp`, `core/cron_store.cpp`, `core/runtime_sync.cpp`)

The daemon reads `grants.json`, `crons.json` and the records of its users. What
is not an object, or has no valid id, is passed over; a field of another type
throws, and nothing in the loops catches it. So one such element decides whether
the others are loaded (`neighbours_kept_iff`).
-/

open McpBridge.Lib McpBridge.Core McpBridge.Users

namespace McpBridge.Server

/-! ## Fields of the type that is read -/

/-- A field that is there has the type. -/
def typedField (hasType : Json → Bool) (k : String) (j : Json) : Bool := (j.get? (lit k)).all hasType

theorem asStr_ok_iff (v : Json) : v.isString = true ↔ ∃ s, v.asStr = .ok s := by
  cases v with
  | str s => exact iff_of_true rfl ⟨s, rfl⟩
  | _ => exact iff_of_false nofun nofun

theorem asInt_ok_iff (v : Json) : v.isNumber = true ↔ ∃ n, v.asInt = .ok n := by
  cases v with
  | int n => exact iff_of_true rfl ⟨_, rfl⟩
  | float b => exact iff_of_true rfl ⟨_, rfl⟩
  | _ => exact iff_of_false nofun nofun

/-- `value` throws where the field is there and has another type. -/
theorem value_ok_iff {α : Type} {get : Json → Except JsonError α} {hasType : Json → Bool}
    (hget : ∀ v, hasType v = true ↔ ∃ a, get v = .ok a) {j : Json} (hobj : j.isObject = true) (k : String) (dflt : α) :
    typedField hasType k j = true ↔ ∃ a, j.value get (lit k) dflt = .ok a := by
  unfold typedField Json.value
  rw [if_pos hobj]
  cases j.get? (lit k) with
  | none => simp
  | some v => simpa using hget v

/-- A computation whose rest does not depend on what its first part gives. -/
theorem bind_ok_iff {ε α β : Type} {x : Except ε α} {f : α → Except ε β} {p q : Bool} (hx : p = true ↔ ∃ a, x = .ok a)
    (hf : ∀ a, q = true ↔ ∃ b, f a = .ok b) : (p && q) = true ↔ ∃ b, (x >>= f) = .ok b := by
  rw [Bool.and_eq_true, hx]
  constructor
  · rintro ⟨⟨a, ha⟩, hq⟩
    obtain ⟨b, hb⟩ := (hf a).1 hq
    exact ⟨b, bind_eq_ok.2 ⟨a, ha, hb⟩⟩
  · rintro ⟨b, hb⟩
    obtain ⟨a, ha, hb⟩ := bind_eq_ok.1 hb
    exact ⟨⟨a, ha⟩, (hf a).2 ⟨b, hb⟩⟩

/-- The fields of a grant that are there have their types; `captured_args` may be anything. -/
def grantTyped (j : Json) : Bool :=
  typedField Json.isString "grantid" j && typedField Json.isString "shortid" j && typedField Json.isString "template_name" j &&
    typedField Json.isNumber "expires_at" j

theorem grantTyped_iff {j : Json} (hobj : j.isObject = true) : grantTyped j = true ↔ ∃ g, Grants.Grant.ofJson j = .ok g := by
  unfold grantTyped
  rw [Bool.and_assoc, Bool.and_assoc, ← Bool.true_and (typedField Json.isNumber _ j), ← Bool.and_true (typedField Json.isNumber _ j)]
  refine bind_ok_iff (value_ok_iff asStr_ok_iff hobj _ _) fun _ => ?_
  refine bind_ok_iff (value_ok_iff asStr_ok_iff hobj _ _) fun _ => ?_
  refine bind_ok_iff (value_ok_iff asStr_ok_iff hobj _ _) fun _ => ?_
  refine bind_ok_iff ?_ fun _ => ?_
  · refine iff_of_true rfl ?_
    unfold Json.value
    rw [if_pos hobj]
    cases j.get? (lit "captured_args") <;> exact ⟨_, rfl⟩
  · exact bind_ok_iff (value_ok_iff asInt_ok_iff hobj _ _) fun _ => iff_of_true rfl ⟨_, rfl⟩

/-- The fields of a job that are there have their types. -/
def jobTyped (j : Json) : Bool :=
  typedField Json.isString "job_id" j && typedField Json.isString "user_id" j && typedField Json.isString "os_username" j &&
    typedField Json.isString "schedule" j && typedField Json.isString "command" j && typedField Json.isString "description" j &&
    typedField Json.isString "context_id" j && typedField Json.isNumber "created_at" j && typedField Json.isNumber "updated_at" j

theorem jobTyped_iff {j : Json} (hobj : j.isObject = true) : jobTyped j = true ↔ ∃ c, Cron.CronJob.ofJson j = .ok c := by
  unfold jobTyped
  simp only [Bool.and_assoc]
  rw [← Bool.and_true (typedField Json.isNumber "updated_at" j)]
  refine bind_ok_iff (value_ok_iff asStr_ok_iff hobj _ _) fun _ => ?_
  refine bind_ok_iff (value_ok_iff asStr_ok_iff hobj _ _) fun _ => ?_
  refine bind_ok_iff (value_ok_iff asStr_ok_iff hobj _ _) fun _ => ?_
  refine bind_ok_iff (value_ok_iff asStr_ok_iff hobj _ _) fun _ => ?_
  refine bind_ok_iff (value_ok_iff asStr_ok_iff hobj _ _) fun _ => ?_
  refine bind_ok_iff (value_ok_iff asStr_ok_iff hobj _ _) fun _ => ?_
  refine bind_ok_iff (value_ok_iff asStr_ok_iff hobj _ _) fun _ => ?_
  refine bind_ok_iff (value_ok_iff asInt_ok_iff hobj _ _) fun _ => ?_
  exact bind_ok_iff (value_ok_iff asInt_ok_iff hobj _ _) fun _ => iff_of_true rfl ⟨_, rfl⟩

/-! ## The loops -/

/-- An element of `crons.json`. -/
def readJob : Json → Except JsonError (Option Cron.CronJob) := readRecord Cron.CronJob.ofJson fun c => Cron.validJobid c.jobId

theorem loadEntries_eq (l : List Json) (jobs : Map Str Cron.CronJob) :
    Cron.loadEntries l jobs = loadInto readJob Cron.CronJob.jobId l jobs := by
  induction l generalizing jobs with
  | nil => rfl
  | cons j l ih =>
    unfold readJob at ih ⊢
    rw [loadInto_readRecord, Cron.loadEntries]
    cases Cron.CronJob.ofJson j <;> simp only [ih]

section
variable {V : Type} (read : Json → Except JsonError (Option V)) (key : V → Str)

/-- The load completes, and under each id it has the last element of the array
that is an object with that id and fields of their types. -/
def LoadsLast (l : List Json) (r : Except JsonError (Map Str V)) : Prop :=
  ∃ m, r = .ok m ∧ ∀ id, m.lookup id = lastWith key id (keptRecords read l)

end

theorem loadsLast_iff {V : Type} {ofJson : Json → Except JsonError V} {valid : V → Bool} {typed : Json → Bool} (key : V → Str)
    (htyped : ∀ j, j.isObject = true → (typed j = true ↔ ∃ v, ofJson j = .ok v)) (l : List Json) :
    LoadsLast (readRecord ofJson valid) key l (loadInto (readRecord ofJson valid) key l ∅) ↔
      ∀ j ∈ l, j.isObject = true → typed j = true := by
  refine (loadInto_exact_iff key).trans (forall₂_congr fun j _ => ?_)
  rw [readRecord_ok_iff]
  exact forall_congr' fun hobj => (htyped j hobj).symm

/-- The elements of the two files, and the users of the directory, are taken as
if the malformed ones were not there, iff there is none among the objects of the
files, and none before a user in the directory. -/
theorem neighbours_kept_iff (stream : Str → Streamed) (write : Str → Except Str Unit)
    (grantsJson : Str) (grants : List Json) (hg : stream grantsJson = .value (.arr grants))
    (cronsJson : Str) (crons : List Json) (hc : stream cronsJson = .value (.arr crons)) (es : List DirEntry) :
    (LoadsLast Grants.readGrant Grants.Grant.grantid grants (Grants.loadStateLocked stream (some grantsJson) ∅) ↔
      ∀ j ∈ grants, j.isObject = true → grantTyped j = true) ∧
    (LoadsLast readJob Cron.CronJob.jobId crons (Cron.loadLocked stream (some cronsJson) ∅) ↔
      ∀ j ∈ crons, j.isObject = true → jobTyped j = true) ∧
    ((writeAll stream write (some es)).2.attempted = es.filterMap (·.osUser stream) ↔
      ∀ e ∈ es.dropWhile (fun e => !e.mistyped stream), e.osUser stream = none) := by
  refine ⟨?_, ?_, attempts_all_iff stream write es⟩
  · simp only [Grants.loadStateLocked, hg, Grants.loadGrants_eq]
    exact loadsLast_iff _ (fun _ => grantTyped_iff) grants
  · simp only [Cron.loadLocked, hc, loadEntries_eq]
    exact loadsLast_iff _ (fun _ => jobTyped_iff) crons

/-- One id twice, and what has none: the second one counts, and its time comes out as -1. -/
def exampleGrants : List Json :=
  [.ofFields [(lit "grantid", .str (lit "0123456789abcdef")), (lit "shortid", .str (lit "abcdefgh"))], .int 5,
    .ofFields [(lit "grantid", .str (lit "fedcba9876543210")), (lit "expires_at", .int 7)],
    .ofFields [(lit "grantid", .str (lit "short")), (lit "expires_at", .int 8)],
    .ofFields [(lit "grantid", .str (lit "0123456789abcdef")), (lit "expires_at", .int 18446744073709551615)]]

def exampleCrons : List Json :=
  [.ofFields [(lit "job_id", .str (lit "0123456789abcdef")), (lit "command", .str (lit "ls"))], .null,
    .ofFields [(lit "job_id", .str (lit "fedcba9876543210")), (lit "command", .str (lit "id"))], .ofFields [],
    .ofFields [(lit "job_id", .str (lit "0123456789abcdef")), (lit "command", .str (lit "df"))]]

/-- A record whose user name is a number, after those of two users. -/
def mistypedLast : List DirEntry :=
  [⟨lit "a.json", true, some (lit "\x7b\"os_username\":\"u\"\x7d")⟩, ⟨lit "b.json", true, some (lit "\x7b\"os_user")⟩,
    ⟨lit "c.json", true, some (lit "\x7b\"os_username\":\"v\"\x7d")⟩, ⟨lit "d.json", true, some (lit "\x7b\"os_username\":5\x7d")⟩]

def arrayText (l : List Json) : Str := Lib.write (some 2) 0 (.arr l) ++ lit "\n"

theorem neighbours_kept_wellTyped :
    LoadsLast Grants.readGrant Grants.Grant.grantid exampleGrants
      (Grants.loadStateLocked (streamOf jsonText) (some (arrayText exampleGrants)) ∅) ∧
    (keptRecords Grants.readGrant exampleGrants).map (fun g => (g.grantid, g.expiresAt)) =
      [(lit "0123456789abcdef", 0), (lit "fedcba9876543210", 7), (lit "0123456789abcdef", -1)] ∧
    LoadsLast readJob Cron.CronJob.jobId exampleCrons
      (Cron.loadLocked (streamOf jsonText) (some (arrayText exampleCrons)) ∅) ∧
    (keptRecords readJob exampleCrons).map (fun c => (c.jobId, c.command)) =
      [(lit "0123456789abcdef", lit "ls"), (lit "fedcba9876543210", lit "id"), (lit "0123456789abcdef", lit "df")] ∧
    (writeAll (streamOf jsonText) (fun _ => .ok ()) (some mistypedLast)).2.attempted = [lit "u", lit "v"] := by
  have hread : ∀ l, (Json.arr l).plain = true → (Json.arr l).utf8 = true → streamOf jsonText (arrayText l) = .value (.arr l) :=
    fun l hl hu => jsonText_roundTrips.readsPlain (some 2) (.arr l) _ hl (if_pos hu)
  have hgrantsRead := hread exampleGrants (by decide +kernel) (by decide +kernel)
  have hcronsRead := hread exampleCrons (by decide +kernel) (by decide +kernel)
  obtain ⟨hgrants, hcrons, husers⟩ := neighbours_kept_iff (streamOf jsonText) (fun _ => .ok ()) (arrayText exampleGrants)
    exampleGrants hgrantsRead (arrayText exampleCrons) exampleCrons hcronsRead mistypedLast
  refine ⟨hgrants.2 (by decide +kernel), by decide +kernel, hcrons.2 (by decide +kernel), by decide +kernel, ?_⟩
  rw [husers.2 (by decide +kernel)]
  decide +kernel

/-- A record whose user name is a number, and one with a user. -/
def mistypedFirst : List DirEntry :=
  [⟨lit "a.json", true, some (lit "\x7b\"os_username\":5\x7d")⟩, ⟨lit "b.json", true, some (lit "\x7b\"os_username\":\"u\"\x7d")⟩]

/-- One malformed element and nothing of the file is loaded; one malformed record
and the user after it is not attempted. -/
theorem neighbours_lost :
    ¬ LoadsLast Grants.readGrant Grants.Grant.grantid [.obj [(lit "grantid", .int 5)]]
      (Grants.loadStateLocked (streamOf jsonText) (some (lit "[\x7b\"grantid\":5\x7d]")) ∅) ∧
    ¬ LoadsLast readJob Cron.CronJob.jobId [.obj [(lit "job_id", .int 5)]]
      (Cron.loadLocked (streamOf jsonText) (some (lit "[\x7b\"job_id\":5\x7d]")) ∅) ∧
    (writeAll (streamOf jsonText) (fun _ => .ok ()) (some mistypedFirst)).2.attempted ≠
      mistypedFirst.filterMap (·.osUser (streamOf jsonText)) := by
  have hgrants : (Grants.loadStateLocked (streamOf jsonText) (some (lit "[\x7b\"grantid\":5\x7d]")) ∅).isOk = false := by
    decide +kernel
  have hcrons : (Cron.loadLocked (streamOf jsonText) (some (lit "[\x7b\"job_id\":5\x7d]")) ∅).isOk = false := by decide +kernel
  refine ⟨?_, ?_, by decide +kernel⟩
  · rintro ⟨m, hm, -⟩
    rw [hm] at hgrants
    cases hgrants
  · rintro ⟨m, hm, -⟩
    rw [hm] at hcrons
    cases hcrons

end McpBridge.Server
