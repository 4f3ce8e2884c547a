import Mathlib.Logic.Relation
import Mathlib.Data.List.Basic
import Mathlib.Data.Finset.Card
import Mathlib.Data.Finset.Dedup

/-! Finite directed graphs as lists of edges: what is reachable from where, how one
more edge changes it, and when it closes a cycle. -/
namespace Reactor.Reach
open Relation

variable {V : Type}

def Edge (g : List (V × V)) (a b : V) : Prop := (a,b) ∈ g

/-- Some path, possibly empty, leads from `a` to `b`. -/
abbrev Reaches (g : List (V × V)) : V → V → Prop := ReflTransGen (Edge g)

def Acyclic (g : List (V × V)) : Prop := ∀ a, ¬TransGen (Edge g) a a

theorem reaches_mono {g h : List (V × V)} (inside : ∀ e ∈ g, e ∈ h) {a b : V} (path : Reaches g a b) :
    Reaches h a b :=
  ReflTransGen.mono (fun _ _ edge => inside _ edge) _ _ path

theorem Acyclic.mono {g h : List (V × V)} (inside : ∀ e ∈ g, e ∈ h) (acyclic : Acyclic h) : Acyclic g :=
  fun a cycle => acyclic a (TransGen.mono (fun _ _ edge => inside _ edge) _ _ cycle)

/-- A path over a new edge comes to its source and goes on from its target without it. -/
theorem reaches_cons (g : List (V × V)) (x y a b : V) :
    Reaches ((x,y)::g) a b ↔ Reaches g a b ∨ Reaches g a x ∧ Reaches g y b := by
  have old {c d : V} (path : Reaches g c d) : Reaches ((x,y)::g) c d :=
    reaches_mono (fun _ member => List.mem_cons_of_mem _ member) path
  constructor
  · intro path
    induction path with
    | refl => exact .inl .refl
    | @tail c d _ edge ih =>
      rcases List.mem_cons.mp edge with new | there
      · cases new
        rcases ih with direct | ⟨source,_⟩
        · exact .inr ⟨direct,.refl⟩
        · exact .inr ⟨source,.refl⟩
      · exact ih.imp (fun path => path.tail there) fun both => ⟨both.1,both.2.tail there⟩
  · rintro (path | ⟨source,target⟩)
    · exact old path
    · exact ((old source).tail (List.mem_cons_self ..)).trans (old target)

theorem reaches_cons_target (g : List (V × V)) (x y b : V) : Reaches ((x,y)::g) y b ↔ Reaches g y b := by
  rw [reaches_cons]
  exact or_iff_left_of_imp And.right

theorem reaches_cons_away {g : List (V × V)} {x y a b : V} (away : ¬Reaches g a x)
    (path : Reaches ((x,y)::g) a b) : Reaches g a b :=
  ((reaches_cons g x y a b).mp path).resolve_right fun both => away both.1

theorem reaches_from_sink {g : List (V × V)} {a b : V} (sink : ∀ e ∈ g, e.1 ≠ a) (path : Reaches g a b) : a = b := by
  rcases path.cases_head with same | ⟨c,edge,_⟩
  · exact same
  · exact absurd rfl (sink _ edge)

theorem reaches_to_root {g : List (V × V)} {a b : V} (root : ∀ e ∈ g, e.2 ≠ b) (path : Reaches g a b) : a = b := by
  rcases path.cases_tail with same | ⟨c,_,edge⟩
  · exact same.symm
  · exact absurd rfl (root _ edge)

theorem Acyclic.cons {g : List (V × V)} (acyclic : Acyclic g) {x y : V} (apart : ¬Reaches g y x) :
    Acyclic ((x,y)::g) := by
  intro a cycle
  obtain ⟨b,edge,back⟩ := TransGen.head'_iff.mp cycle
  rcases List.mem_cons.mp edge with new | there
  · cases new
    exact apart ((reaches_cons_target g x y x).mp back)
  · rcases (reaches_cons g x y b a).mp back with path | ⟨source,target⟩
    · exact acyclic a (TransGen.head' there path)
    · exact apart ((target.tail there).trans source)

def below [DecidableEq V] : List (V × V) → V → List V
  | [], a => [a]
  | (x,y)::g, a => if x ∈ below g a then below g a ++ below g y else below g a

theorem mem_below [DecidableEq V] (g : List (V × V)) (a b : V) : b ∈ below g a ↔ Reaches g a b := by
  induction g generalizing a b with
  | nil =>
    constructor
    · intro member
      rw [List.mem_singleton.mp member]
    · intro path
      rcases path.cases_tail with rfl | ⟨c,_,edge⟩
      · exact List.mem_singleton_self _
      · cases edge
  | cons edge g ih =>
    obtain ⟨x,y⟩ := edge
    rw [reaches_cons,below]
    split
    next source =>
      rw [List.mem_append,ih,ih]
      simp [(ih a x).mp source]
    next away =>
      rw [ih]
      simp [mt (ih a x).mpr away]

/-- The vertices of a path written backwards all lead to its end. -/
theorem chain_leads {g : List (V × V)} {a : V} {path : List V}
    (linked : (a::path).IsChain fun inner outer => Edge g outer inner) {b : V} (member : b ∈ path) :
    TransGen (Edge g) b a := by
  induction path generalizing a with
  | nil => cases member
  | cons c path ih =>
    obtain ⟨edge,rest⟩ := List.isChain_cons_cons.mp linked
    rcases List.mem_cons.mp member with rfl | later
    · exact .single edge
    · exact (ih rest later).tail edge

/-- Without a cycle, less is reachable from every vertex further down. -/
theorem Acyclic.wellFounded [DecidableEq V] {g : List (V × V)} (acyclic : Acyclic g) :
    WellFounded fun b a => TransGen (Edge g) a b := by
  refine Subrelation.wf ?_ (measure fun a => (below g a).toFinset.card).wf
  intro b a path
  refine Finset.card_lt_card (Finset.ssubset_iff_subset_ne.mpr ⟨?_,?_⟩)
  · intro c member
    rw [List.mem_toFinset,mem_below] at member ⊢
    exact path.to_reflTransGen.trans member
  · intro same
    have back : a ∈ (below g b).toFinset := by
      rw [same,List.mem_toFinset,mem_below]
    rw [List.mem_toFinset,mem_below] at back
    exact acyclic a (TransGen.trans_left path back)

end Reactor.Reach
