import Mathlib.Algebra.Order.Group.Defs
import Mathlib.Data.List.Basic
/-!
# Sliding windows

A history of yes-or-no answers under keys, each with its time, the last one
first. `Exact` says that every answer was a yes iff fewer than `max` answers
under its key were one in the closed window that ends with it. `exactHistory`
answers a list of calls that way. `admitted_le` and `exactHistory_filter` are
what follows: no closed window has more than `max`, and no key notices another.
-/

namespace McpBridge.Lib

/-- An answered call. -/
structure Answered (K T : Type) where
  key : K
  time : T
  ok : Bool
deriving DecidableEq

section
variable {K T : Type} [DecidableEq K] [LinearOrder T]

/-- How many calls under `key` were allowed from `a` to `b`. -/
def admitted (past : List (Answered K T)) (key : K) (a b : T) : Nat :=
  past.countP fun c => c.key = key && c.ok && decide (a ≤ c.time) && decide (c.time ≤ b)

/-- Each call is not before those that precede it. -/
def Chronological (past : List (Answered K T)) : Prop := past.Pairwise fun c d => d.time ≤ c.time

theorem admitted_filter (past : List (Answered K T)) (key : K) (a b : T) :
    admitted (past.filter (·.key = key)) key a b = admitted past key a b := by
  unfold admitted
  rw [List.countP_filter]
  apply List.countP_congr
  intro c _
  by_cases hc : c.key = key
  · simp [hc]
  · simp [hc]

variable [AddCommGroup T] (max : Int) (width : T)

/-- Whether one more call is allowed. -/
def admits (past : List (Answered K T)) (key : K) (t : T) : Bool :=
  decide ((admitted past key (t - width) t : Int) < max)

/-- Every answer is that of the window that ends with it. -/
def Exact : List (Answered K T) → Prop
  | [] => True
  | c :: past => c.ok = admits max width past c.key c.time ∧ Exact past

/-- The calls, the last one first, answered one after the other. -/
def exactHistory : List (K × T) → List (Answered K T)
  | [] => []
  | (key, t) :: calls => ⟨key, t, admits max width (exactHistory calls) key t⟩ :: exactHistory calls

theorem exact_exactHistory (calls : List (K × T)) : Exact max width (exactHistory max width calls) := by
  induction calls with
  | nil => trivial
  | cons c calls ih => exact ⟨rfl, ih⟩

theorem map_exactHistory (calls : List (K × T)) : (exactHistory max width calls).map (fun c => (c.key, c.time)) = calls := by
  induction calls with
  | nil => rfl
  | cons c calls ih => simp [exactHistory, ih]

theorem mem_exactHistory {calls : List (K × T)} {c : Answered K T} (h : c ∈ exactHistory max width calls) :
    (c.key, c.time) ∈ calls := by
  rw [← map_exactHistory max width calls]
  exact List.mem_map_of_mem h

theorem chronological_exactHistory {calls : List (K × T)} (h : calls.Pairwise fun c d => d.2 ≤ c.2) :
    Chronological (exactHistory max width calls) := by
  rw [← map_exactHistory max width calls] at h
  exact List.pairwise_map.1 h

/-- The answers under a key are those it would get alone. -/
theorem exactHistory_filter (calls : List (K × T)) (key : K) :
    (exactHistory max width calls).filter (·.key = key) = exactHistory max width (calls.filter (·.1 = key)) := by
  induction calls with
  | nil => rfl
  | cons c calls ih =>
    obtain ⟨k, t⟩ := c
    by_cases hk : k = key
    · subst hk
      have hsame : admits max width (exactHistory max width calls) k t =
          admits max width (exactHistory max width (calls.filter (·.1 = k))) k t := by
        unfold admits
        rw [← ih, admitted_filter]
      simp only [exactHistory, List.filter_cons, decide_true, if_true, ih, hsame]
    · simp only [exactHistory, List.filter_cons, hk, decide_false, Bool.false_eq_true, if_false, ih]

variable [IsOrderedAddMonoid T]

/-- No closed window holds more than `max` allowed calls under a key: the last
of them was allowed with all the others in its own window. -/
theorem admitted_le (hmax : 0 ≤ max) {past : List (Answered K T)} (hc : Chronological past) (hx : Exact max width past)
    (key : K) (a : T) : (admitted past key a (a + width) : Int) ≤ max := by
  induction past with
  | nil => simpa [admitted] using hmax
  | cons c past ih =>
    obtain ⟨hlater, hc⟩ := List.pairwise_cons.1 hc
    obtain ⟨hok, hx⟩ := hx
    have hpast := ih hc hx
    unfold admitted at hpast ⊢
    rw [List.countP_cons]
    split
    · next hin =>
      simp only [Bool.and_eq_true, decide_eq_true_eq] at hin
      obtain ⟨⟨⟨hkey, hyes⟩, -⟩, hend⟩ := hin
      rw [hyes, eq_comm] at hok
      simp only [admits, decide_eq_true_eq] at hok
      -- What the window from `a` holds before the call, the window of the call holds.
      have hsub : admitted past key a (a + width) ≤ admitted past c.key (c.time - width) c.time := by
        unfold admitted
        apply List.countP_mono_left
        intro d hd hin
        simp only [Bool.and_eq_true, decide_eq_true_eq] at hin ⊢
        obtain ⟨⟨⟨hdk, hdy⟩, hda⟩, -⟩ := hin
        refine ⟨⟨⟨hdk.trans hkey.symm, hdy⟩, ?_⟩, hlater d hd⟩
        exact (sub_le_iff_le_add.2 hend).trans hda
      unfold admitted at hsub hok
      push_cast
      omega
    · simpa using hpast

end

end McpBridge.Lib
