import McpBridge.Lib.Runs
/-!
# Calls in progress

A concurrent system is a shared state and the calls in progress, each with the
point it has reached. An event starts a call, lets one call take its next
atomic step, or is a step of the environment (the clock). Which call moves and
what its system calls answer are part of the event, so a list of events is an
interleaving with all outcomes.

`Program.inv` is the rule for such systems: a property of the shared state, and
an assertion about each call that no step of another call breaks.
-/

namespace McpBridge.Lib

variable {G L A E : Type}

/-- The calls of a system. `step` gives the shared state after an atomic step
of a call, and the point the call is at then, or `none` where it returned. -/
structure Program (G L A E : Type) where
  start : G → L → Bool
  step : G → L → A → Option (G × Option L)
  env : G → E → Option G

structure Pool (G L : Type) where
  shared : G
  calls : List L

inductive Event (L A E : Type) where
  | start (l : L)
  | act (i : Nat) (a : A)
  | env (e : E)

/-- The calls that do not move are still there. -/
theorem mem_of_mem_others {pre mid post : List L} {m : L} (h : m ∈ pre ++ post) : m ∈ pre ++ mid ++ post := by
  rcases List.mem_append.1 h with h | h
  · exact List.mem_append_left _ (List.mem_append_left _ h)
  · exact List.mem_append_right _ h

namespace Program

/-- What an event does. -/
def next (P : Program G L A E) (p : Pool G L) : Event L A E → Option (Pool G L)
  | .start l => if P.start p.shared l then some ⟨p.shared, p.calls ++ [l]⟩ else none
  | .act i a =>
    match p.calls[i]? with
    | none => none
    | some l => (P.step p.shared l a).map fun r => ⟨r.1, p.calls.take i ++ r.2.toList ++ p.calls.drop (i + 1)⟩
  | .env e => (P.env p.shared e).map fun g => ⟨g, p.calls⟩

/-- Everything an event can be. -/
theorem next_cases {P : Program G L A E} {p p' : Pool G L} {e : Event L A E} (h : P.next p e = some p') :
    (∃ l, e = .start l ∧ P.start p.shared l = true ∧ p' = ⟨p.shared, p.calls ++ [l]⟩) ∨
    (∃ i a l pre post g l', e = .act i a ∧ pre.length = i ∧ p.calls = pre ++ l :: post ∧
      P.step p.shared l a = some (g, l') ∧ p' = ⟨g, pre ++ l'.toList ++ post⟩) ∨
    (∃ e' g, e = .env e' ∧ P.env p.shared e' = some g ∧ p' = ⟨g, p.calls⟩) := by
  cases e with
  | start l =>
    simp only [next] at h
    split at h
    · next hs => cases h; exact .inl ⟨l, rfl, hs, rfl⟩
    · cases h
  | act i a =>
    simp only [next] at h
    split at h
    · cases h
    · next l hl =>
      obtain ⟨⟨g, l'⟩, hs, rfl⟩ := Option.map_eq_some_iff.1 h
      obtain ⟨hi, rfl⟩ := List.getElem?_eq_some_iff.1 hl
      refine .inr (.inl ⟨i, a, p.calls[i], p.calls.take i, p.calls.drop (i + 1), g, l', rfl, ?_, ?_, hs, rfl⟩)
      · exact List.length_take_of_le (Nat.le_of_lt hi)
      · rw [List.getElem_cons_drop, List.take_append_drop]
  | env e =>
    obtain ⟨g, hg, rfl⟩ := Option.map_eq_some_iff.1 h
    exact .inr (.inr ⟨e, g, rfl, hg, rfl⟩)

/-- The rule for invariants. `I` is about the shared state, `Q` about each call:
a started call has `Q`, a step gives it to the call that moved, and keeps it for
the others. -/
theorem inv (P : Program G L A E) (I : G → Prop) (Q : G → L → Prop) {C : Pool G L → Event L A E → Prop}
    (hstart : ∀ g l, I g → P.start g l = true → Q g l)
    (hstep : ∀ p i a l pre post g l', I p.shared → (∀ m ∈ p.calls, Q p.shared m) → C p (.act i a) →
      p.calls[i]? = some l → p.calls = pre ++ l :: post → P.step p.shared l a = some (g, l') →
      I g ∧ (∀ m, l' = some m → Q g m) ∧ ∀ m ∈ pre ++ post, Q g m)
    (henv : ∀ g e g', I g → P.env g e = some g' → I g' ∧ ∀ m, Q g m → Q g' m)
    {p p' : Pool G L} {es : List (Event L A E)} (h0 : I p.shared ∧ ∀ m ∈ p.calls, Q p.shared m)
    (hc : Along P.next C p es) (hr : run P.next p es = some p') :
    I p'.shared ∧ ∀ m ∈ p'.calls, Q p'.shared m := by
  refine run_inv (fun p => I p.shared ∧ ∀ m ∈ p.calls, Q p.shared m) ?_ h0 hc hr
  rintro p e p' ⟨hI, hQ⟩ hc hn
  obtain ⟨l, rfl, hl, rfl⟩ | ⟨i, a, l, pre, post, g, l', rfl, rfl, hcalls, hs, rfl⟩ | ⟨e', g, rfl, hg, rfl⟩ :=
    next_cases hn
  · refine ⟨hI, fun m hm => ?_⟩
    rcases List.mem_append.1 hm with hm | hm
    · exact hQ m hm
    · cases List.mem_singleton.1 hm
      exact hstart _ _ hI hl
  · have hi : p.calls[pre.length]? = some l := by simp [hcalls]
    obtain ⟨hI', hl', hothers⟩ := hstep p _ a l pre post g l' hI hQ hc hi hcalls hs
    refine ⟨hI', fun m hm => ?_⟩
    simp only [List.mem_append, Option.mem_toList] at hm
    rcases hm with (hm | hm) | hm
    · exact hothers m (List.mem_append_left _ hm)
    · exact hl' m hm
    · exact hothers m (List.mem_append_right _ hm)
  · obtain ⟨hI', hkeep⟩ := henv _ _ _ hI hg
    exact ⟨hI', fun m hm => hkeep m (hQ m hm)⟩

end Program

end McpBridge.Lib
