import Mathlib.Algebra.BigOperators.Group.Finset.Basic
import Mathlib.Algebra.Order.Group.Multiset
import Mathlib.Data.Fintype.Basic

/-! What all the parties of a system hold together. A step of one party changes the total
by what that party gains and loses. -/
namespace Reactor.Total

variable {T A M : Type} [Fintype T] [AddCancelCommMonoid M]

def total (g : A → M) (parties : T → A) : M := ∑ t, g (parties t)

theorem total_zero {g : A → M} {parties : T → A} (none : ∀ t, g (parties t) = 0) : total g parties = 0 :=
  Finset.sum_eq_zero fun t _ => none t

theorem mem_total {B : Type} {h : A → Multiset B} {parties : T → A} {b : B} : b ∈ total h parties ↔ ∃ t, b ∈ h (parties t) := by
  rw [total,Multiset.mem_sum]
  simp

variable [DecidableEq T] (g : A → M) (parties : T → A) (t : T) (a : A)

theorem total_update :
    total g (Function.update parties t a) + g (parties t) = total g parties + g a := by
  have others : ∑ r ∈ Finset.univ.erase t, g (Function.update parties t a r) = ∑ r ∈ Finset.univ.erase t, g (parties r) := by
    apply Finset.sum_congr rfl
    intro r member
    rw [Function.update_of_ne (Finset.ne_of_mem_erase member)]
  have before := Finset.add_sum_erase Finset.univ (fun r => g (parties r)) (Finset.mem_univ t)
  have after := Finset.add_sum_erase Finset.univ (fun r => g (Function.update parties t a r)) (Finset.mem_univ t)
  simp only [Function.update_self,others] at after
  rw [total,total,← before,← after]
  ac_rfl

theorem total_same (same : g a = g (parties t)) : total g (Function.update parties t a) = total g parties := by
  have change := total_update g parties t a
  rw [same] at change
  exact add_right_cancel change

theorem total_gain (before : g (parties t) = 0) : total g (Function.update parties t a) = total g parties + g a := by
  rw [← total_update,before,add_zero]

theorem total_lose (after : g a = 0) : total g (Function.update parties t a) + g (parties t) = total g parties := by
  rw [total_update,after,add_zero]

/-- What one party holds is part of the total. -/
theorem le_total {B : Type} (h : A → Multiset B) : h (parties t) ≤ total h parties := by
  rw [total,← Finset.add_sum_erase Finset.univ (fun r => h (parties r)) (Finset.mem_univ t)]
  exact Multiset.le_add_right _ _

end Reactor.Total
