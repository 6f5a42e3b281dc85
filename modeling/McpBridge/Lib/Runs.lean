import Mathlib.Data.Option.Basic
import Mathlib.Data.List.Basic
/-!
# Runs of a step function

A system is a function `next : S → E → Option S`: what event `e` does in state
`s`, or `none` where `e` cannot happen. An event carries every choice the
environment makes (arguments, clock readings, outcomes of system calls), so a
theorem about every list of events holds for every behaviour of the
environment. `Along C` says each event of a run meets the condition `C` in the
state it happens in. `sequential` runs operations that return results.
-/

namespace McpBridge.Lib

variable {S E : Type}

/-- The state after the events, or `none` if one of them cannot happen. -/
def run (next : S → E → Option S) : S → List E → Option S
  | s, [] => some s
  | s, e :: es => (next s e).bind (run next · es)

/-- Every event of the run meets `C` in the state it happens in. -/
def Along (next : S → E → Option S) (C : S → E → Prop) : S → List E → Prop
  | _, [] => True
  | s, e :: es => C s e ∧ match next s e with
    | some s' => Along next C s' es
    | none => True

instance Along.decidable (next : S → E → Option S) (C : S → E → Prop) [∀ s e, Decidable (C s e)] :
    ∀ s es, Decidable (Along next C s es)
  | _, [] => .isTrue trivial
  | s, e :: es =>
    match h : next s e with
    | some s' =>
      haveI := Along.decidable next C s' es
      decidable_of_iff (C s e ∧ Along next C s' es) (by simp [Along, h])
    | none => decidable_of_iff (C s e) (by simp [Along, h])

variable {next : S → E → Option S} {C : S → E → Prop}

theorem run_cons {s t : S} {e : E} {es : List E} :
    run next s (e :: es) = some t ↔ ∃ s', next s e = some s' ∧ run next s' es = some t := by
  simp [run, Option.bind_eq_some_iff]

theorem run_append (s : S) (es es' : List E) : run next s (es ++ es') = (run next s es).bind (run next · es') := by
  induction es generalizing s with
  | nil => rfl
  | cons e es ih =>
    simp only [List.cons_append, run]
    rcases next s e with _ | s'
    · rfl
    · exact ih s'

theorem run_trans {s s' s'' : S} {es es' : List E} (h : run next s es = some s') (h' : run next s' es' = some s'') :
    run next s (es ++ es') = some s'' := by
  rw [run_append, h]
  exact h'

/-- An invariant that every event meeting `C` keeps holds after every run whose
events all meet `C`. -/
theorem run_inv (I : S → Prop) (hstep : ∀ s e s', I s → C s e → next s e = some s' → I s')
    {s t : S} {es : List E} (h0 : I s) (hc : Along next C s es) (hr : run next s es = some t) : I t := by
  induction es generalizing s with
  | nil => cases hr; exact h0
  | cons e es ih =>
    obtain ⟨s', hs, hr⟩ := run_cons.1 hr
    simp only [Along, hs] at hc
    exact ih (hstep s e s' h0 hc.1 hs) hc.2 hr

/-- What holds of each event that meets `C` where an invariant does holds along
every run whose events all meet `C`. -/
theorem along_of_inv {P : S → E → Prop} (I : S → Prop) (hstep : ∀ s e s', I s → C s e → next s e = some s' → I s')
    (hP : ∀ s e, I s → C s e → P s e) {s : S} {es : List E} (h0 : I s) (hc : Along next C s es) : Along next P s es := by
  induction es generalizing s with
  | nil => trivial
  | cons e es ih =>
    refine ⟨hP s e h0 hc.1, ?_⟩
    have hrest := hc.2
    rcases hn : next s e with _ | s'
    · trivial
    · rw [hn] at hrest
      exact ih (hstep s e s' h0 hc.1 hn) hrest

/-- The rule for an invariant every event keeps. -/
theorem run_inv_all (I : S → Prop) (hstep : ∀ s e s', I s → next s e = some s' → I s')
    {s t : S} {es : List E} (h0 : I s) (hr : run next s es = some t) : I t := by
  induction es generalizing s with
  | nil => cases hr; exact h0
  | cons e es ih =>
    obtain ⟨s', hs, hr⟩ := run_cons.1 hr
    exact ih (hstep s e s' h0 hs) hr

/-- The rule for a property that one event of the run establishes: it holds from
then on, given an invariant `W` that every event keeps. -/
theorem run_inv_once (W I : S → Prop) (hW : ∀ s e s', W s → next s e = some s' → W s')
    (hI : ∀ s e s', W s → I s → C s e → next s e = some s' → I s') (e₀ : E)
    (he : ∀ s s', next s e₀ = some s' → I s') {s t : S} {es : List E} (hs : W s) (h0 : I s ∨ e₀ ∈ es)
    (hc : Along next C s es) (hr : run next s es = some t) : I t := by
  induction es generalizing s with
  | nil =>
    cases hr
    exact h0.resolve_right List.not_mem_nil
  | cons e es ih =>
    obtain ⟨s', hn, hr⟩ := run_cons.1 hr
    simp only [Along, hn] at hc
    refine ih (hW s e s' hs hn) ?_ hc.2 hr
    rcases h0 with h0 | h0
    · exact .inl (hI s e s' hs h0 hc.1 hn)
    · rcases List.mem_cons.1 h0 with rfl | h0
      · exact .inl (he s s' hn)
      · exact .inr h0

variable (next C) in
/-- Some event of the run meets `C` in the state before it. -/
def Somewhere : S → List E → Prop
  | _, [] => False
  | s, e :: es => C s e ∨ ∃ s', next s e = some s' ∧ Somewhere s' es

/-- The rule for a property that every event keeps and one that meets `C` establishes. -/
theorem run_inv_somewhere (I : S → Prop) (hI : ∀ s e s', I s → next s e = some s' → I s')
    (hC : ∀ s e s', C s e → next s e = some s' → I s') {s t : S} {es : List E} (h0 : I s ∨ Somewhere next C s es)
    (hr : run next s es = some t) : I t := by
  induction es generalizing s with
  | nil =>
    cases hr
    exact h0.resolve_right id
  | cons e es ih =>
    obtain ⟨s', hn, hr⟩ := run_cons.1 hr
    refine ih ?_ hr
    rcases h0 with h0 | h0 | ⟨s'', hn', h0⟩
    · exact .inl (hI s e s' h0 hn)
    · exact .inl (hC s e s' h0 hn)
    · cases hn.symm.trans hn'
      exact .inr h0

/-! ## One after the other -/

variable {R : Type}

/-- The results of operations executed one after the other, and the state after them. -/
def sequential (exec : S → E → R × S) : S → List E → List R × S
  | s, [] => ([], s)
  | s, e :: es => ((exec s e).1 :: (sequential exec (exec s e).2 es).1, (sequential exec (exec s e).2 es).2)

theorem sequential_concat (exec : S → E → R × S) (s : S) (es : List E) (e : E) :
    sequential exec s (es ++ [e]) = ((sequential exec s es).1 ++ [(exec (sequential exec s es).2 e).1],
      (exec (sequential exec s es).2 e).2) := by
  induction es generalizing s with
  | nil => rfl
  | cons d es ih => simp [sequential, ih]

end McpBridge.Lib
