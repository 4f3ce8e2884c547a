import Mathlib.Data.List.Nodup
import Mathlib.Data.List.Sort
import Mathlib.Logic.Function.Basic

/-! Lists of records that are looked up by a key. When no two records have the same
key, such a list is a finite map; the lemmas say what adding, removing and changing a
record does to it. A list in the order of its keys is a map that is walked in order. -/
namespace Reactor.Keyed

variable {A K : Type} (key : A → K)

def Unique (xs : List A) : Prop := (xs.map key).Nodup

theorem unique_erase [DecidableEq A] {xs : List A} (unique : Unique key xs) (x : A) : Unique key (xs.erase x) :=
  unique.sublist (List.erase_sublist.map key)

theorem unique_map (f : A → A) (same : ∀ x, key (f x) = key x) {xs : List A} (unique : Unique key xs) :
    Unique key (xs.map f) := by
  simpa [Unique,List.map_map,Function.comp_def,same] using unique

section
variable [LinearOrder K]

/-- No two records have the same key, and those with smaller keys come first. -/
def Increasing (xs : List A) : Prop := xs.Pairwise fun x y => key x < key y

def insert (xs : List A) (x : A) : List A := xs.orderedInsert (fun y z => key y ≤ key z) x

theorem perm_insert (xs : List A) (x : A) : (insert key xs x).Perm (x::xs) := List.perm_orderedInsert _ x xs

theorem mem_insert {xs : List A} {x y : A} : y ∈ insert key xs x ↔ y = x ∨ y ∈ xs := by
  rw [(perm_insert key xs x).mem_iff,List.mem_cons]

theorem increasing_insert {xs : List A} {x : A} (increasing : Increasing key xs) (fresh : ∀ y ∈ xs, key y ≠ key x) :
    Increasing key (insert key xs x) := by
  induction xs with
  | nil => exact List.pairwise_singleton _ x
  | cons y ys ih =>
    obtain ⟨least,rest⟩ := List.pairwise_cons.mp increasing
    have apart : key x ≠ key y := (fresh y List.mem_cons_self).symm
    by_cases before : key x ≤ key y
    · have first : insert key (y::ys) x = x::y::ys := List.orderedInsert_cons_of_le _ ys before
      rw [first]
      refine List.pairwise_cons.mpr ⟨fun z member => ?_,increasing⟩
      rcases List.mem_cons.mp member with rfl | later
      · exact lt_of_le_of_ne before apart
      · exact lt_of_le_of_lt before (least z later)
    · have later : insert key (y::ys) x = y :: insert key ys x := List.orderedInsert_of_not_le _ ys before
      rw [later]
      refine List.pairwise_cons.mpr ⟨fun z member => ?_,ih rest fun z member => fresh z (List.mem_cons_of_mem y member)⟩
      rcases (mem_insert key).mp member with rfl | old
      · exact lt_of_not_ge before
      · exact least z old

end

variable [DecidableEq K]

def find (xs : List A) (k : K) : Option A := xs.find? fun x => key x = k

theorem find_some {xs : List A} {k : K} {x : A} (found : find key xs k = some x) : x ∈ xs ∧ key x = k :=
  ⟨List.mem_of_find?_eq_some found,by simpa using List.find?_some found⟩

theorem find_none {xs : List A} {k : K} : find key xs k = none ↔ ∀ x ∈ xs, key x ≠ k := by
  simp [find]

theorem find_of_mem {xs : List A} (unique : Unique key xs) {x : A} (member : x ∈ xs) :
    find key xs (key x) = some x := by
  induction xs with
  | nil => cases member
  | cons y ys ih =>
    obtain ⟨fresh,rest⟩ := List.nodup_cons.mp unique
    rcases List.mem_cons.mp member with rfl | later
    · simp [find]
    · have other : key y ≠ key x := fun same => fresh (same ▸ List.mem_map_of_mem later)
      simpa [find,other] using ih rest later

theorem find_cons (xs : List A) (x : A) :
    find key (x::xs) = Function.update (find key xs) (key x) (some x) := by
  funext k
  by_cases same : key x = k
  · subst same
    simp [find]
  · rw [Function.update_of_ne (Ne.symm same)]
    simp [find,same]

theorem unique_cons {xs : List A} {x : A} (unique : Unique key xs) (fresh : find key xs (key x) = none) :
    Unique key (x::xs) := by
  refine List.nodup_cons.mpr ⟨?_,unique⟩
  intro member
  obtain ⟨y,inside,same⟩ := List.mem_map.mp member
  exact (find_none key).mp fresh y inside same

theorem find_erase [DecidableEq A] {xs : List A} (unique : Unique key xs) {x : A} (member : x ∈ xs) :
    find key (xs.erase x) = Function.update (find key xs) (key x) none := by
  have distinct : xs.Nodup := unique.of_map
  funext k
  by_cases same : k = key x
  · subst same
    rw [Function.update_self,find_none]
    intro y inside twin
    obtain ⟨other,old⟩ := distinct.mem_erase_iff.mp inside
    have first := find_of_mem key unique old
    rw [twin,find_of_mem key unique member] at first
    exact other (Option.some.inj first).symm
  · rw [Function.update_of_ne same]
    cases found : find key xs k with
    | none =>
      rw [find_none] at found ⊢
      exact fun y inside => found y (List.mem_of_mem_erase inside)
    | some y =>
      obtain ⟨inside,here⟩ := find_some key found
      have other : y ≠ x := fun twin => same (by rw [← here,twin])
      rw [← here]
      exact find_of_mem key (unique_erase key unique x) ((List.mem_erase_of_ne other).mpr inside)

theorem find_map (f : A → A) (same : ∀ x, key (f x) = key x) (xs : List A) (k : K) :
    find key (xs.map f) k = (find key xs k).map f := by
  have blind : (fun x => decide (key x = k)) ∘ f = fun x => decide (key x = k) := by
    funext x
    rw [Function.comp_apply,same]
  rw [find,List.find?_map,blind,find]

end Reactor.Keyed
