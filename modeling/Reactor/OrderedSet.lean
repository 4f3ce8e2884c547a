import Mathlib.Data.List.Sort
import Mathlib.Data.List.TakeWhile

/-! Finite sets kept in increasing order, with the operations of an ordered container:
insertion and removal that tell whether they found the element, the first element, and
the split at a bound. -/
namespace Reactor

/-- A set as the increasing list of its elements. -/
structure OrderedSet (A : Type) [LinearOrder A] where
  toList : List A
  increasing : toList.Pairwise (· < ·)

namespace OrderedSet

variable {A : Type} [LinearOrder A]

instance : Membership A (OrderedSet A) := ⟨fun s a => a ∈ s.toList⟩

instance (a : A) (s : OrderedSet A) : Decidable (a ∈ s) := inferInstanceAs (Decidable (a ∈ s.toList))

theorem mem_toList (a : A) (s : OrderedSet A) : a ∈ s.toList ↔ a ∈ s := Iff.rfl

def empty : OrderedSet A := ⟨[],.nil⟩

def size (s : OrderedSet A) : Nat := s.toList.length

def first (s : OrderedSet A) : Option A := s.toList.head?

theorem nodup (s : OrderedSet A) : s.toList.Nodup := s.increasing.imp fun less => ne_of_lt less

theorem ext {s t : OrderedSet A} (same : ∀ a, a ∈ s ↔ a ∈ t) : s = t := by
  obtain ⟨xs,sorted⟩ := s
  obtain ⟨ys,sorted'⟩ := t
  congr
  exact List.Pairwise.eq_of_mem_iff sorted sorted' same

private theorem increasing_orderedInsert (s : OrderedSet A) (a : A) (fresh : a ∉ s.toList) :
    (s.toList.orderedInsert (· ≤ ·) a).Pairwise (· < ·) := by
  have weak := (s.increasing.imp fun less => le_of_lt less).orderedInsert a
  have distinct : (s.toList.orderedInsert (· ≤ ·) a).Nodup := by
    rw [(List.perm_orderedInsert (· ≤ ·) a s.toList).nodup_iff]
    exact List.nodup_cons.mpr ⟨fresh,s.nodup⟩
  exact (weak.and distinct).imp fun both => lt_of_le_of_ne both.1 both.2

/-- Whether the element was new is `a ∉ s`. -/
def insert (s : OrderedSet A) (a : A) : OrderedSet A :=
  if old : a ∈ s.toList then s else ⟨s.toList.orderedInsert (· ≤ ·) a,increasing_orderedInsert s a old⟩

/-- The number of elements removed is one if `a ∈ s`, else none. -/
def erase (s : OrderedSet A) (a : A) : OrderedSet A :=
  ⟨s.toList.erase a,s.increasing.sublist List.erase_sublist⟩

@[simp] theorem mem_insert (s : OrderedSet A) (a b : A) : b ∈ s.insert a ↔ b = a ∨ b ∈ s := by
  unfold insert
  split
  · rename_i old
    refine ⟨.inr,?_⟩
    rintro (rfl | member)
    · exact old
    · exact member
  · exact List.mem_orderedInsert (· ≤ ·)

@[simp] theorem mem_erase (s : OrderedSet A) (a b : A) : b ∈ s.erase a ↔ b ≠ a ∧ b ∈ s :=
  s.nodup.mem_erase_iff

theorem size_insert (s : OrderedSet A) (a : A) (fresh : ¬a ∈ s) : (s.insert a).size = s.size+1 := by
  have absent : a ∉ s.toList := fresh
  simp [insert,absent,size,List.orderedInsert_length]

theorem size_erase (s : OrderedSet A) (a : A) (member : a ∈ s) : (s.erase a).size+1 = s.size := by
  have positive := List.length_pos_of_mem member
  simp only [size,erase,List.length_erase_of_mem member]
  omega

theorem perm_insert (s : OrderedSet A) (a : A) (fresh : ¬a ∈ s) : (s.insert a).toList.Perm (a::s.toList) := by
  have absent : a ∉ s.toList := fresh
  simpa [insert,absent] using List.perm_orderedInsert (· ≤ ·) a s.toList

theorem first_none (s : OrderedSet A) : s.first = none ↔ ∀ a, ¬a ∈ s := by
  rw [first,List.head?_eq_none_iff,List.eq_nil_iff_forall_not_mem]
  exact Iff.rfl

theorem first_some (s : OrderedSet A) (a : A) (least : s.first = some a) : a ∈ s ∧ ∀ b ∈ s, a ≤ b := by
  obtain ⟨rest,split⟩ := List.head?_eq_some_iff.mp least
  have sorted := s.increasing
  rw [split] at sorted
  refine ⟨by rw [← mem_toList,split]; simp,?_⟩
  intro b member
  rw [← mem_toList,split] at member
  rcases List.mem_cons.mp member with rfl | later
  · exact le_refl _
  · exact le_of_lt (List.rel_of_pairwise_cons sorted later)

/-- The elements before the first one that is not below the bound. -/
def below (s : OrderedSet A) (bound : A) : List A := s.toList.takeWhile (· < bound)

def fromBound (s : OrderedSet A) (bound : A) : OrderedSet A :=
  ⟨s.toList.dropWhile (· < bound),s.increasing.sublist (List.dropWhile_sublist _)⟩

theorem below_append (s : OrderedSet A) (bound : A) : s.below bound ++ (s.fromBound bound).toList = s.toList :=
  List.takeWhile_append_dropWhile

private theorem mem_takeWhile_lt (xs : List A) (sorted : xs.Pairwise (· < ·)) (bound a : A) :
    a ∈ xs.takeWhile (· < bound) ↔ a ∈ xs ∧ a < bound := by
  induction xs with
  | nil => simp
  | cons x xs ih =>
    obtain ⟨least,rest⟩ := List.pairwise_cons.mp sorted
    by_cases less : x < bound
    · rw [List.takeWhile_cons_of_pos (by simpa using less),List.mem_cons,List.mem_cons,ih rest]
      constructor
      · rintro (rfl | ⟨member,small⟩)
        · exact ⟨.inl rfl,less⟩
        · exact ⟨.inr member,small⟩
      · rintro ⟨rfl | member,small⟩
        · exact .inl rfl
        · exact .inr ⟨member,small⟩
    · rw [List.takeWhile_cons_of_neg (by simpa using less)]
      refine ⟨fun member => absurd member List.not_mem_nil,?_⟩
      -- nothing behind the first element that is not below the bound is below it
      rintro ⟨member,small⟩
      rcases List.mem_cons.mp member with rfl | later
      · exact absurd small less
      · exact absurd ((least a later).trans small) less

theorem mem_below (s : OrderedSet A) (bound a : A) : a ∈ s.below bound ↔ a ∈ s ∧ a < bound :=
  mem_takeWhile_lt s.toList s.increasing bound a

theorem mem_fromBound (s : OrderedSet A) (bound a : A) : a ∈ s.fromBound bound ↔ a ∈ s ∧ bound ≤ a := by
  have whole : a ∈ s ↔ a ∈ s.below bound ∨ a ∈ s.fromBound bound := by
    rw [← mem_toList a s,← s.below_append bound,List.mem_append]
    exact Iff.rfl
  have apart : a ∈ s.below bound → ¬a ∈ s.fromBound bound := by
    have distinct := s.nodup
    rw [← s.below_append bound] at distinct
    exact fun early late => List.disjoint_of_nodup_append distinct early late
  rw [mem_below] at whole apart
  constructor
  · intro late
    have member := whole.mpr (.inr late)
    refine ⟨member,?_⟩
    by_contra small
    exact apart ⟨member,lt_of_not_ge small⟩ late
  · rintro ⟨member,large⟩
    rcases whole.mp member with early | late
    · exact absurd early.2 (not_lt_of_ge large)
    · exact late

end OrderedSet

end Reactor
