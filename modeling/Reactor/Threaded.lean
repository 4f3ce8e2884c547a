import Mathlib.Data.List.Nodup
import Mathlib.Logic.Function.Basic

/-! Singly linked chains threaded through the nodes themselves. A link is null,
a node, or a third value that marks a node on no chain, so that the end of a
chain and the absence from it are told apart. -/
namespace Reactor.Threaded

inductive Link (N : Type)
  | null
  | unlinked
  | node (n : N)
  deriving DecidableEq, Repr

variable {N : Type}

/-- The nodes met from `p` along `next` until `null`. -/
inductive Chain (next : N → Link N) : Link N → List N → Prop
  | nil : Chain next .null []
  | cons (n : N) (ns : List N) (tail : Chain next (next n) ns) : Chain next (.node n) (n::ns)

/-- The first nodes met from `p`, at most `fuel` of them. -/
def follow (next : N → Link N) : Nat → Link N → List N
  | fuel+1, .node n => n :: follow next fuel (next n)
  | _, _ => []

theorem Chain.unique {next : N → Link N} {p : Link N} {ns ms : List N}
    (first : Chain next p ns) (second : Chain next p ms) : ns = ms := by
  induction first generalizing ms with
  | nil =>
    cases second
    rfl
  | cons n ns tail ih =>
    cases second with
    | cons _ ms rest => rw [ih rest]

theorem Chain.follow_eq {next : N → Link N} {p : Link N} {ns : List N} (chain : Chain next p ns)
    (fuel : Nat) (enough : ns.length ≤ fuel) : follow next fuel p = ns := by
  induction chain generalizing fuel with
  | nil => cases fuel <;> rfl
  | cons n ns tail ih =>
    cases fuel with
    | zero => simp at enough
    | succ fuel => simp only [follow,ih fuel (by simpa using enough)]

theorem Chain.not_unlinked {next : N → Link N} {p : Link N} {ns : List N}
    (chain : Chain next p ns) : p ≠ .unlinked := by
  cases chain <;> simp

theorem Chain.next_linked {next : N → Link N} {p : Link N} {ns : List N}
    (chain : Chain next p ns) (n : N) (member : n ∈ ns) : next n ≠ .unlinked := by
  induction chain with
  | nil => simp at member
  | cons m ms tail ih =>
    rcases List.mem_cons.mp member with rfl | inside
    · exact tail.not_unlinked
    · exact ih inside

theorem Chain.congr {next other : N → Link N} {p : Link N} {ns : List N}
    (chain : Chain next p ns) (same : ∀ n ∈ ns, other n = next n) : Chain other p ns := by
  induction chain with
  | nil => exact .nil
  | cons m ms tail ih =>
    refine .cons m ms ?_
    rw [same m (by simp)]
    exact ih (fun n member => same n (by simp [member]))

theorem Chain.suffix {next : N → Link N} {p : Link N} {ns ms : List N} {n : N}
    (chain : Chain next p (ns++n::ms)) : Chain next (.node n) (n::ms) := by
  induction ns generalizing p with
  | nil => cases chain with
    | cons _ _ tail => exact .cons n ms tail
  | cons k ks ih => cases chain with
    | cons _ _ tail => exact ih tail

theorem Chain.nodup {next : N → Link N} {p : Link N} {ns : List N} (chain : Chain next p ns) :
    ns.Nodup := by
  induction chain with
  | nil => simp
  | cons n ns tail ih =>
    refine List.nodup_cons.mpr ⟨?_,ih⟩
    intro member
    obtain ⟨before,after,split⟩ := List.append_of_mem member
    have inner : Chain next (.node n) (n::after) := by
      rw [split] at tail
      exact tail.suffix
    have same := (Chain.cons n ns tail).unique inner
    have sizes := congrArg List.length same
    rw [split] at sizes
    simp at sizes
    omega

variable [DecidableEq N]

theorem Chain.push {next : N → Link N} {p : Link N} {ns : List N} (chain : Chain next p ns)
    (n : N) (absent : n ∉ ns) : Chain (Function.update next n p) (.node n) (n::ns) := by
  refine .cons n ns ?_
  rw [Function.update_self]
  apply chain.congr
  intro m member
  have other : m ≠ n := fun same => absent (same ▸ member)
  exact Function.update_of_ne other p next

theorem Chain.pop {next : N → Link N} {n : N} {ns : List N} (chain : Chain next (.node n) (n::ns)) :
    Chain (Function.update next n .unlinked) (next n) ns := by
  have distinct := List.nodup_cons.mp chain.nodup
  cases chain with
  | cons _ _ tail =>
    apply tail.congr
    intro m member
    have other : m ≠ n := fun same => distinct.1 (same ▸ member)
    exact Function.update_of_ne other .unlinked next

end Reactor.Threaded
