import Mathlib.Algebra.BigOperators.Fin
import Mathlib.Probability.Distributions.Uniform
/-!
# Digits in two bases

Where numbers of `m` digits in base `b` have as many values as those of `n` digits in
base `c`, the digits in one base can be read as digits in the other. Nothing is lost, so
digits drawn uniformly stay uniform; `map_uniform_apply` says it of any injection.
-/

open scoped ENNReal

namespace McpBridge.Lib.Radix

/-- The number that digits stand for, the highest first. -/
def number (b n : ℕ) : (Fin n → Fin b) ≃ Fin (b ^ n) := (Fin.revPerm.arrowCongr (Equiv.refl _)).trans finFunctionFinEquiv

theorem number_val {b n : ℕ} (f : Fin n → Fin b) : (number b n f : ℕ) = ∑ i : Fin n, (f i.rev : ℕ) * b ^ (i : ℕ) := rfl

theorem number_symm_val {b n : ℕ} (a : Fin (b ^ n)) (k : Fin n) : ((number b n).symm a k : ℕ) = a / b ^ (k.rev : ℕ) % b := rfl

section
variable {b c m n : ℕ} (h : b ^ m = c ^ n)

/-- The same number in the other base. -/
def regroup : (Fin m → Fin b) ≃ (Fin n → Fin c) := (number b m).trans ((finCongr h).trans (number c n).symm)

theorem regroup_val (f : Fin m → Fin b) (k : Fin n) :
    (regroup h f k : ℕ) = (∑ i : Fin m, (f i.rev : ℕ) * b ^ (i : ℕ)) / c ^ (k.rev : ℕ) % c := by
  rw [← number_val f]
  exact number_symm_val (finCongr h (number b m f)) k

end

section
variable {α β : Type*} [Fintype α] [Nonempty α] {f : α → β}

/-- What an injection makes of a uniform value is uniform on its range. -/
theorem map_uniform_apply (hf : Function.Injective f) (a : α) :
    (PMF.uniformOfFintype α).map f (f a) = (Fintype.card α : ℝ≥0∞)⁻¹ := by
  rw [PMF.map_apply, tsum_eq_single a]
  · rw [if_pos rfl, PMF.uniformOfFintype_apply]
  · intro a' hne
    exact if_neg fun heq => hne (hf heq).symm

theorem map_uniform_of_notMem {y : β} (hy : y ∉ Set.range f) : (PMF.uniformOfFintype α).map f y = 0 := by
  rw [PMF.map_apply, ENNReal.tsum_eq_zero]
  intro a
  exact if_neg fun heq => hy ⟨a, heq.symm⟩

end

end McpBridge.Lib.Radix
