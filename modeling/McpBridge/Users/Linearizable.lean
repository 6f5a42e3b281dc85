import McpBridge.Users.Record
import McpBridge.Lib.Threads
import Mathlib.Data.List.Permutation
/-!
# Concurrent calls on one record

The tools run on the threads of the server and `auth rotate` in a process of its
own; nothing is locked. An edit is two atomic steps, the reading and the
replacement, and a deletion is one. `completed` records the calls that returned
with their results, in that order.

If each edit finds the record as it read it when it goes on, the calls are
linearizable: the results and the record are those of the completed calls one
after the other.
-/

open McpBridge.Lib McpBridge.Core McpBridge.Grants

namespace McpBridge.Users

/-- A call that returned, what was answered to it, and its result. -/
structure Completed where
  call : Call
  answer : Answer
  result : Except Str Json

structure Shared where
  file : Option Str
  completed : List Completed := []

/-- Where a call stands: an edit has seen the content of the record. -/
inductive Op where
  | entered (c : Call)
  | editing (e : Edit) (seen : Option Str) (doc : Json)

/-- The call returns and leaves the file. -/
def Shared.complete (s : Shared) (c : Call) (a : Answer) (r : Except Str Json × Option Str) : Shared :=
  ⟨r.2, s.completed ++ [⟨c, a, r.1⟩]⟩

section
variable (J : JsonText) (stream : Str → Streamed) (usersDir shortid : Str)

def Op.step (s : Shared) : Op → Answer → Option (Shared × Option Op)
  | .entered (.edit e), a =>
    match e.read stream usersDir shortid s.file with
    | .error m => some (s.complete (.edit e) a (.error m, s.file), none)
    | .ok doc => some (s, some (.editing e s.file doc))
  | .entered (.delete ctx), a => some (s.complete (.delete ctx) a (userDelete shortid ctx a s.file), none)
  | .editing e _ doc, a => some (s.complete (.edit e) a (e.finish J a doc s.file), none)

/-- The calls on the record. -/
def program : Program Shared Op Answer Empty where
  start _
    | .entered _ => true
    | .editing _ _ _ => false
  step := Op.step J stream usersDir shortid
  env _ e := nomatch e

/-- An edit that goes on finds the record as it read it. -/
def Op.Unmoved (s : Shared) : Op → Prop
  | .editing _ seen _ => s.file = seen
  | .entered _ => True

def Unmoved (p : Pool Shared Op) : Event Op Answer Empty → Prop
  | .act i _ => ∀ l ∈ p.calls[i]?, l.Unmoved p.shared
  | _ => True

instance (s : Shared) : DecidablePred (Op.Unmoved s)
  | .editing _ _ _ => inferInstanceAs (Decidable (_ = _))
  | .entered _ => inferInstanceAs (Decidable True)

instance (p : Pool Shared Op) : DecidablePred (Unmoved p)
  | .act i _ => inferInstanceAs (Decidable (∀ l ∈ p.calls[i]?, l.Unmoved p.shared))
  | .start _ | .env _ => inferInstanceAs (Decidable True)

/-- The document of an edit is the one in the content it has seen. -/
def Op.Read : Op → Prop
  | .editing e seen doc => e.read stream usersDir shortid seen = .ok doc
  | .entered _ => True

/-- The calls that completed, one after the other from `file`, have these results and leave this record. -/
def Linearized (file : Option Str) (s : Shared) : Prop :=
  sequential (Call.exec J stream usersDir shortid) file (s.completed.map fun d => (d.call, d.answer)) =
    (s.completed.map Completed.result, s.file)

/-- A call that completes with what it does when nothing interrupts it. -/
theorem Linearized.complete {file : Option Str} {s : Shared} (h : Linearized J stream usersDir shortid file s) {c : Call}
    {a : Answer} {r : Except Str Json × Option Str} (hr : r = Call.exec J stream usersDir shortid s.file (c, a)) :
    Linearized J stream usersDir shortid file (s.complete c a r) := by
  rw [Linearized] at h ⊢
  simp only [Shared.complete, List.map_append, List.map_cons, List.map_nil, sequential_concat, h, hr]

/-- Everything a step can be: a reading, or the return of a call that did what it
does when nothing interrupts it. -/
theorem Op.step_cases {s s' : Shared} {l : Op} {a : Answer} {l' : Option Op}
    (h : Op.step J stream usersDir shortid s l a = some (s', l')) (hread : l.Read stream usersDir shortid) (hu : l.Unmoved s) :
    (s' = s ∧ ∃ m, l' = some m ∧ m.Read stream usersDir shortid) ∨
      l' = none ∧ ∃ c r, r = Call.exec J stream usersDir shortid s.file (c, a) ∧ s' = s.complete c a r := by
  cases l with
  | entered c =>
    cases c with
    | edit e =>
      simp only [Op.step] at h
      split at h
      · next m hm =>
        cases h
        exact .inr ⟨rfl, .edit e, _, by simp only [Call.exec, hm], rfl⟩
      · next doc hd =>
        cases h
        exact .inl ⟨rfl, _, rfl, hd⟩
    | delete ctx =>
      cases h
      exact .inr ⟨rfl, .delete ctx, _, rfl, rfl⟩
  | editing e seen doc =>
    -- Reading the record now would give the same document.
    cases h
    refine .inr ⟨rfl, .edit e, _, ?_, rfl⟩
    rw [Op.Unmoved] at hu
    rw [Op.Read, ← hu] at hread
    simp only [Call.exec, hread]

/-- In every interleaving in which each edit, when it replaces the record, finds
it as it read it: the results of the calls that completed and the record are
those of these calls one after the other, in the order they completed. -/
theorem linearizable_of_unmoved (p p' : Pool Shared Op) (es : List (Event Op Answer Empty)) (hcalls : p.calls = [])
    (h0 : p.shared.completed = []) (hc : Along (program J stream usersDir shortid).next Unmoved p es)
    (hr : run (program J stream usersDir shortid).next p es = some p') :
    sequential (Call.exec J stream usersDir shortid) p.shared.file (p'.shared.completed.map fun d => (d.call, d.answer)) =
      (p'.shared.completed.map Completed.result, p'.shared.file) := by
  refine (Program.inv (program J stream usersDir shortid) (Linearized J stream usersDir shortid p.shared.file)
    (fun _ l => l.Read stream usersDir shortid) ?_ ?_ ?_ ⟨?_, by simp [hcalls]⟩ hc hr).1
  · intro s l _ hl
    cases l with
    | entered c => trivial
    | editing e seen doc => cases hl
  · intro q i a l pre post s' l' hI hQ hc hi hpool hs
    have hmem : ∀ m ∈ pre ++ post, m.Read stream usersDir shortid := by
      intro m hm
      refine hQ m ?_
      rw [hpool, List.append_cons]
      exact mem_of_mem_others hm
    have hl := hQ l (by rw [hpool]; simp)
    rcases Op.step_cases J stream usersDir shortid hs hl (hc l hi) with ⟨rfl, m, rfl, hm⟩ | ⟨rfl, c, r, hr, rfl⟩
    · refine ⟨hI, ?_, hmem⟩
      rintro _ ⟨⟩
      exact hm
    · exact ⟨hI.complete J stream usersDir shortid hr, by simp, hmem⟩
  · intro s e
    exact nomatch e
  · simp [Linearized, h0, sequential]

end

/-! ## A rotation during an update -/

def exampleRecord : Str :=
  write (some 2) 0 (.ofFields [(lit "user_id", .str (lit "abcdefgh")), (lit "name", .str (lit "Ann")),
    (lit "is_admin", .bool true), (lit "token_hash", .str (lit "old"))]) ++ lit "\n"

/-- An admin changes the name. -/
def exampleUpdate : Call :=
  .edit (.update { userId := lit "bcdefghi", isAdmin := true } (.ofFields [(lit "name", .str (lit "Anna"))]))

def recordOnly : Pool Shared Op := ⟨⟨some exampleRecord, []⟩, []⟩

/-- The update reads, the rotation runs from start to end, and the update goes on. -/
def rotatedWithin : List (Event Op Answer Empty) :=
  [.start (.entered exampleUpdate), .act 0 {}, .start (.entered (.edit .rotate)), .act 1 {},
    .act 1 { now := 5, tokenHash := lit "new" }, .act 0 { now := 6 }]

def tokenHashOf (file : Option Str) : Option Str :=
  ((file.bind jsonText.parse).bind (Json.get? (lit "token_hash"))).bind fun j => j.asStr.toOption

/-- Both calls succeed and the old token is back, which neither order of them leaves. -/
theorem update_restores_rotated_token :
    ∃ p', run (program jsonText (streamOf jsonText) (lit "/u") (lit "abcdefgh")).next recordOnly rotatedWithin = some p' ∧ p'.calls = [] ∧
      p'.shared.completed.map (fun d => d.result.isOk) = [true, true] ∧ tokenHashOf p'.shared.file = some (lit "old") ∧
      ∀ order, order.Perm (p'.shared.completed.map fun d => (d.call, d.answer)) →
        (sequential (Call.exec jsonText (streamOf jsonText) (lit "/u") (lit "abcdefgh")) recordOnly.shared.file order).2 ≠ p'.shared.file := by
  have h : (run (program jsonText (streamOf jsonText) (lit "/u") (lit "abcdefgh")).next recordOnly rotatedWithin).map (fun p =>
      (p.calls.length, p.shared.completed.map (fun d => d.result.isOk), tokenHashOf p.shared.file)) =
      some (0, [true, true], some (lit "old")) := by
    decide +kernel
  have hcalls : (run (program jsonText (streamOf jsonText) (lit "/u") (lit "abcdefgh")).next recordOnly rotatedWithin).map (fun p =>
      p.shared.completed.map fun d => (d.call, d.answer)) =
      some [(.edit .rotate, { now := 5, tokenHash := lit "new" }), (exampleUpdate, { now := 6 })] := rfl
  obtain ⟨p', hp, hv⟩ := Option.map_eq_some_iff.1 h
  simp only [Prod.mk.injEq, List.length_eq_zero_iff] at hv
  rw [hp, Option.map_some, Option.some.injEq] at hcalls
  refine ⟨p', hp, hv.1, hv.2.1, hv.2.2, fun order ho hfile => ?_⟩
  have hnew : tokenHashOf (sequential (Call.exec jsonText (streamOf jsonText) (lit "/u") (lit "abcdefgh")) recordOnly.shared.file order).2 =
      some (lit "new") := by
    rw [hcalls, List.perm_pair] at ho
    rcases ho with rfl | rfl
    · decide +kernel
    · decide +kernel
  rw [hfile, hv.2.2] at hnew
  cases hnew

/-- The same calls, with the rotation after the update. -/
def rotatedAfter : List (Event Op Answer Empty) :=
  [.start (.entered exampleUpdate), .act 0 {}, .start (.entered (.edit .rotate)), .act 0 { now := 5 }, .act 0 {},
    .act 0 { now := 6, tokenHash := lit "new" }]

theorem rotated_after_linearized :
    ∃ p', run (program jsonText (streamOf jsonText) (lit "/u") (lit "abcdefgh")).next recordOnly rotatedAfter = some p' ∧
      tokenHashOf p'.shared.file = some (lit "new") ∧
      (sequential (Call.exec jsonText (streamOf jsonText) (lit "/u") (lit "abcdefgh")) recordOnly.shared.file
        (p'.shared.completed.map fun d => (d.call, d.answer))).2 = p'.shared.file := by
  have h : (run (program jsonText (streamOf jsonText) (lit "/u") (lit "abcdefgh")).next recordOnly rotatedAfter).map
      (fun p => tokenHashOf p.shared.file) = some (some (lit "new")) := by
    decide +kernel
  obtain ⟨p', hp, hv⟩ := Option.map_eq_some_iff.1 h
  have hl := linearizable_of_unmoved jsonText (streamOf jsonText) (lit "/u") (lit "abcdefgh") recordOnly p' rotatedAfter rfl rfl
    (by decide +kernel) hp
  exact ⟨p', hp, hv, congrArg Prod.snd hl⟩

end McpBridge.Users
