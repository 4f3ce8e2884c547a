import Reactor.Memcached.Dispatch
import Mathlib.Data.Int.CardIntervalMod

/-! Which worker a connection goes to. A failed allocation returns before `last_thread`
is touched, so that the index counts the dispatches that succeeded and nothing else. -/
namespace Reactor.Memcached
open Reactor.Transition

def Label.succeeds : Label → Bool
  | .dispatch _ allocated => allocated
  | _ => false

/-- The worker that gets the `k`-th of the connections, counted from one. -/
def turn (start : Int) (n k : Nat) : Nat := ((start+k) % n).toNat

/-- How many of the dispatched connections have reached a queue. -/
def Process.pushes (s : Process) : Nat :=
  match s.main with
  | .push _ _ => s.dispatches-1
  | _ => s.dispatches

section Turns
variable (start : Int) {n : Nat}

theorem turn_cast (some : 0 < n) (k : Nat) : (turn start n k : Int) = (start+k) % n :=
  Int.toNat_of_nonneg (Int.emod_nonneg _ (by omega))

theorem turn_lt (some : 0 < n) (k : Nat) : turn start n k < n := by
  have bound := Int.emod_lt_of_pos (start+k) (b := n) (by omega)
  have cast := turn_cast start some k
  omega

/-- The turns of one worker are one residue class. -/
theorem turn_residue (some : 0 < n) {tid : Nat} (worker : tid < n) :
    ∃ v : Nat, ∀ d, turn start n (d+1) = tid ↔ d ≡ v [MOD n] := by
  have here : ((((tid : Int)-start-1) % n).toNat : Int) = (tid-start-1) % n :=
    Int.toNat_of_nonneg (Int.emod_nonneg _ (by omega))
  refine ⟨(((tid : Int)-start-1) % n).toNat,fun d => ?_⟩
  have same : turn start n (d+1) = tid ↔ start+((d+1 : Nat) : Int) ≡ tid [ZMOD n] := by
    rw [← Int.natCast_inj,turn_cast start some,Int.ModEq,
      Int.emod_eq_of_lt (Int.natCast_nonneg tid) (Int.ofNat_lt.mpr worker)]
  have moved : start+((d+1 : Nat) : Int) ≡ tid [ZMOD n] ↔ (d : Int) ≡ tid-start-1 [ZMOD n] := by
    rw [Int.modEq_iff_dvd,Int.modEq_iff_dvd]
    have difference : (tid : Int)-(start+((d+1 : Nat) : Int)) = tid-start-1-d := by push_cast; ring
    rw [difference]
  rw [same,moved,← Int.natCast_modEq_iff,here]
  exact ⟨fun h => h.trans (Int.mod_modEq _ _).symm,fun h => h.trans (Int.mod_modEq _ _)⟩

theorem length_filter_range (p : Nat → Prop) [DecidablePred p] (k : Nat) :
    ((List.range k).filter (fun d => p d)).length = k.count p := by
  induction k with
  | zero => rfl
  | succ k ih =>
    rw [List.range_succ,List.filter_append,List.length_append,ih,Nat.count_succ]
    by_cases last : p k <;> simp [last]

/-- Of any first `k` turns every worker has the same number, or one more. -/
theorem turns_of_worker (some : 0 < n) {tid : Nat} (worker : tid < n) (k : Nat) :
    k / n ≤ ((List.range k).filter (fun d => turn start n (d+1) = tid)).length ∧
      ((List.range k).filter (fun d => turn start n (d+1) = tid)).length ≤ k / n + 1 := by
  obtain ⟨v,residue⟩ := turn_residue start some worker
  simp only [length_filter_range,residue]
  rw [Nat.count_modEq_card k some v]
  split <;> omega

end Turns

/-- The place in the rotation, where the connection in hand is going, and what every queue was given. -/
structure Rotated (start : Int) (n : Nat) (s : Process) : Prop where
  workers : s.numThreads = n
  last : s.lastThread = if s.dispatches = 0 then start else turn start n s.dispatches
  inHand : ∀ tid item, s.main = .push tid item →
    item.dispatch+1 = s.dispatches ∧ tid = turn start n s.dispatches
  pushed : ∀ tid, (s.workers tid).pushed.map CqItem.dispatch =
    (List.range s.pushes).filter (fun d => turn start n (d+1) = tid)

namespace Rotated
variable {start : Int} {n : Nat} {s : Process}

theorem begin (begun : s.Started) : Rotated s.lastThread s.numThreads s := by
  obtain ⟨_,_,_,workers,main,none,_,_⟩ := begun
  exact {
    workers := rfl
    last := by simp [none]
    inHand := by simp [main]
    pushed := by simp [workers,newWorker,Process.pushes,main,none] }

theorem chosen (before : Rotated start n s) (some : 0 < n) (least : -1 ≤ start) :
    s.chosen = turn start n (s.dispatches+1) := by
  have last := before.last
  have next : s.chosen = (s.lastThread+1) % n := by
    have positive : 0 ≤ s.lastThread+1 := by
      rw [last]
      split <;> omega
    rw [Process.chosen,before.workers,Int.tmod_eq_emod_of_nonneg positive]
  rw [next,last,turn_cast start some (s.dispatches+1)]
  split
  · rename_i none
    simp [none]
  · rw [turn_cast start some,Int.emod_add_emod]
    push_cast
    rw [add_assoc]

theorem dispatchConnNew (before : Rotated start n s) (some : 0 < n) (least : -1 ≤ start) (idle : s.main = .idle)
    (q : Request) (allocated : Bool) : Rotated start n (s.dispatchConnNew q allocated) := by
  cases allocated with
  | false => exact { before with }
  | true =>
    have chosen := before.chosen some least
    refine { before with last := ?_, inHand := ?_, pushed := fun tid => ?_ }
    · simpa [Process.dispatchConnNew] using chosen
    · rintro tid item here
      cases here
      refine ⟨rfl,?_⟩
      simp [Process.dispatchConnNew,chosen]
    · have same := before.pushed tid
      simpa [Process.dispatchConnNew,Process.pushes,idle] using same

/-- The item that `cq_push` adds is the next of the turns. -/
theorem cqPush (before : Rotated start n s) (tid : Nat) (item : CqItem) (here : s.main = .push tid item) :
    Rotated start n { s.setWorker tid ((s.workers tid).cqPush item) with main := .notify tid } := by
  obtain ⟨number,target⟩ := before.inHand tid item here
  refine { before with inHand := by simp, pushed := fun t => ?_ }
  have old := before.pushed t
  have all : s.dispatches = s.pushes+1 := by
    simp only [Process.pushes,here]
    omega
  have last : item.dispatch = s.pushes := by omega
  simp only [Process.pushes]
  rw [show (s.setWorker tid ((s.workers tid).cqPush item)).dispatches = s.pushes+1 from all,List.range_succ,
    List.filter_append,← old]
  by_cases same : t = tid
  · subst same
    rw [s.setWorker_self]
    simp [Worker.cqPush,last,target,all]
  · rw [s.setWorker_other _ same]
    have other : turn start n (s.pushes+1) ≠ t := by
      rw [← all,← target]
      exact Ne.symm same
    simp [other]

/-- A worker may go on and its pipe may be written to without any effect on the rotation. -/
theorem setWorker (before : Rotated start n s) (tid : Nat) (w : Worker) (main : MainPc) (exited : Bool)
    (same : w.pushed = (s.workers tid).pushed) (still : main = s.main ∨ main = .idle ∧ ∃ t, s.main = .notify t) :
    Rotated start n { s.setWorker tid w with main := main, exited := exited } where
  workers := before.workers
  last := before.last
  inHand := by
    rintro t item here
    rcases still with rfl | ⟨rfl,_⟩
    · exact before.inHand t item here
    · cases here
  pushed := fun t => by
    have pushes : Process.pushes { s.setWorker tid w with main := main, exited := exited } = s.pushes := by
      rcases still with rfl | ⟨rfl,t',there⟩
      · rfl
      · simp [Process.pushes,there,Process.setWorker]
    rw [pushes,← before.pushed t]
    exact congrArg _ (s.setWorker_pushed same t)

theorem step (before : Rotated start n s) (some : 0 < n) (least : -1 ≤ start) {l : Label} {t : Process}
    (ok : Memcached.step s l = .some t) : Rotated start n t := by
  cases (step_processMove ok).2 with
  | dispatch q allocated idle => exact before.dispatchConnNew some least idle q allocated
  | push tid item here => exact before.cqPush tid item here
  | notify tid written here =>
    refine before.setWorker tid _ .idle s.exited ?_ (.inr ⟨rfl,tid,here⟩)
    cases written <;> rfl
  | tell tid b other => exact before.setWorker tid _ s.main s.exited rfl (.inl rfl)
  | read tid b rest waiting pipe => exact before.setWorker tid _ s.main s.exited rfl (.inl rfl)
  | advance tid made =>
    exact before.setWorker tid _ s.main _ ((s.workers tid).advance_frame made).2 (.inl rfl)

/-- At most the connection in hand has been dispatched and not yet been pushed. -/
theorem pushes_near (rotated : Rotated start n s) : s.pushes ≤ s.dispatches ∧ s.dispatches ≤ s.pushes+1 := by
  cases here : s.main with
  | push tid item =>
    have := (rotated.inHand tid item here).1
    simp only [Process.pushes,here]
    omega
  | idle | notify => simp [Process.pushes,here]

theorem share (rotated : Rotated start n s) (some : 0 < n) {tid : Nat} (worker : tid < n) :
    s.pushes / n ≤ (s.workers tid).pushed.length ∧ (s.workers tid).pushed.length ≤ s.pushes / n + 1 := by
  rw [← List.length_map CqItem.dispatch,rotated.pushed tid]
  exact turns_of_worker _ some worker s.pushes

end Rotated

theorem step_dispatches {s t : Process} {l : Label} (ok : step s l = some t) :
    t.dispatches = s.dispatches + if l.succeeds then 1 else 0 := by
  cases (step_processMove ok).2 with
  | dispatch q allocated idle => cases allocated <;> rfl
  | push | notify | tell | read | advance => rfl

theorem run_dispatches {s u : Process} {ls : List Label} (run : Run step s ls u) :
    u.dispatches = s.dispatches + ls.countP Label.succeeds := by
  induction run with
  | nil => rfl
  | cons s l t ls u head tail ih =>
    rw [ih,step_dispatches head,List.countP_cons]
    omega

theorem run_rotated {start s : Process} {ls : List Label} (begun : start.Started) (run : Run step start ls s) :
    Rotated start.lastThread start.numThreads s :=
  run.keeps (fun _ _ => True) _ (fun _ _ _ before _ ok => before.step begun.1 begun.2.1 ok)
    (along_of_forall step (fun _ => True) start ls (fun _ _ => trivial)) (.begin begun)

/-- Whatever fails, the connections go round the workers. -/
theorem dispatched_in_turn (start s : Process) (begun : start.Started) (ls : List Label) (run : Run step start ls s) :
    (0 ≤ s.chosen ∧ s.chosen < start.numThreads) ∧
      s.dispatches = ls.countP Label.succeeds ∧
      (s.lastThread = if ls.countP Label.succeeds = 0 then start.lastThread
        else (start.lastThread + ls.countP Label.succeeds) % start.numThreads) ∧
      (∀ q t, step s (.dispatch q false) = some t → t = { s with closed := s.closed ++ [q.sfd] }) ∧
      (∀ q t, step s (.dispatch q true) = some t →
        t.lastThread = (start.lastThread + (ls.countP Label.succeeds+1)) % start.numThreads ∧
        t.main = .push (turn start.lastThread start.numThreads (ls.countP Label.succeeds+1))
          ⟨ls.countP Label.succeeds,q.sfd,q.initState,q.eventFlags,q.readBufferSize,q.transport⟩) ∧
      (s.pushes ≤ ls.countP Label.succeeds ∧ ls.countP Label.succeeds ≤ s.pushes+1) ∧
      (∀ tid, (s.workers tid).pushed.map CqItem.dispatch = (List.range s.pushes).filter
        (fun d => turn start.lastThread start.numThreads (d+1) = tid)) ∧
      ∀ a < start.numThreads, ∀ b < start.numThreads,
        (s.workers a).pushed.length ≤ (s.workers b).pushed.length + 1 := by
  have rotated := run_rotated begun run
  have count : s.dispatches = ls.countP Label.succeeds := by
    rw [run_dispatches run,begun.2.2.2.2.2.1,Nat.zero_add]
  have chosen := rotated.chosen begun.1 begun.2.1
  rw [← count]
  refine ⟨?_,rfl,?_,?_,?_,rotated.pushes_near,rotated.pushed,?_⟩
  · rw [chosen]
    exact ⟨Int.natCast_nonneg _,Int.ofNat_lt.mpr (turn_lt _ begun.1 _)⟩
  · rw [← turn_cast _ begun.1]
    exact rotated.last
  · intro q t ok
    cases (step_processMove ok).2 with
    | dispatch _ _ idle => rfl
  · intro q t ok
    cases (step_processMove ok).2 with
    | dispatch _ _ idle =>
      have cast := turn_cast start.lastThread begun.1 (s.dispatches+1)
      refine ⟨?_,?_⟩
      · simpa [Process.dispatchConnNew,chosen] using cast
      · simp [Process.dispatchConnNew,chosen]
  · intro a worker b other
    exact (rotated.share begun.1 worker).2.trans (Nat.add_le_add_right (rotated.share begun.1 other).1 1)

/-- Three workers and five connections, of which the allocation for the second fails. -/
def fiveConnections : List Label :=
  let one (sfd : Int) : List Label := [.dispatch ⟨sfd,.newCmd,18,2048,.tcp⟩ true,.push,.notify true]
  one 11 ++ [.dispatch ⟨12,.newCmd,18,2048,.tcp⟩ false] ++ one 13 ++ one 14 ++ one 15

theorem dispatched_in_turn_fiveConnections :
    (started 3).Started ∧ (∀ tid < 3, ((final step (started 3) fiveConnections).workers tid).pushed.length =
        if tid = 0 then 2 else 1) ∧
      ∀ a < 3, ∀ b < 3, ((final step (started 3) fiveConnections).workers a).pushed.length ≤
        ((final step (started 3) fiveConnections).workers b).pushed.length + 1 := by
  have begun := started_Started 3 (by decide)
  refine ⟨begun,by decide +kernel,?_⟩
  exact (dispatched_in_turn (started 3) _ begun fiveConnections
    (final_run _ _ _ (by decide +kernel))).2.2.2.2.2.2.2

end Reactor.Memcached
