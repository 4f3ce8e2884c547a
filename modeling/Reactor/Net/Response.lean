import Reactor.Net.Quit

/-! How long a functor waits. A loop takes all functors of a round at once, so that one that
has been queued is behind those before it and the rest of one round, however other threads
and the functors themselves go on queueing. -/
namespace Reactor.Net
open Reactor.Transition

variable {F : Type}

def LoopLabel.enters : LoopLabel F → Bool
  | .loop => true
  | _ => false

namespace EventLoop

/-- The first `n` functors that were pushed have been taken out of `pendingFunctors_`. -/
def hasTaken (n : Nat) (s : EventLoop F) : Bool := n ≤ s.executed.length + s.functors.length

/-- The steps of the loop thread up to the end of the next swap, without the functors it starts. -/
def stepsToSwap (s : EventLoop F) : Nat :=
  match s.pc with
  | .swapped | .calling => 6
  | .checking => 5
  | .outside | .polling => 4
  | .handling => if s.wakeupActive then 3 else 2
  | .swapping => 1

def pollsToSwap (s : EventLoop F) : Nat :=
  match s.pc with
  | .handling | .swapping => 0
  | _ => 1

def distance (n : Nat) (s : EventLoop F) : Nat := if s.hasTaken n then 0 else s.stepsToSwap

def rounds (n : Nat) (s : EventLoop F) : Nat := if s.hasTaken n then 0 else s.pollsToSwap

end EventLoop

section
variable {fd : EventFd} {s u : EventLoop F} {l : LoopLabel F} {n : Nat}

theorem executed_step (move : LoopMove fd s l u) : s.executed.length ≤ u.executed.length := by
  cases move <;> simp [EventLoop.owe,EventLoop.queueInLoop]

theorem executed_run {ls : List (LoopLabel F)} (run : Run (loopStep fd) s ls u) : s.executed.length ≤ u.executed.length := by
  induction run with
  | nil => exact le_refl _
  | cons s l t ls u head tail ih => exact (executed_step (loopStep_move fd s t l head)).trans ih

/-- What has not been started is in the batch of the loop, if it has been taken. -/
theorem batch_of_taken (ordered : Ordered s) (waits : s.executed.length < n) (taken : s.hasTaken n = true) :
    s.functors ≠ [] ∧ (s.pc = .swapped ∨ s.pc = .calling) := by
  have some : s.functors ≠ [] := by
    intro empty
    simp only [EventLoop.hasTaken,empty,List.length_nil,decide_eq_true_eq] at taken
    omega
  refine ⟨some,?_⟩
  by_contra other
  rw [not_or] at other
  exact some (ordered.batch other.1 other.2)

theorem toSwap_step (move : LoopMove fd s l u) (swap : l ≠ .swap) (run : l ≠ .run) :
    (if l.own then 1 else 0) + u.stepsToSwap ≤ s.stepsToSwap + (if l.enters then 1 else 0) ∧
      u.iteration + u.pollsToSwap ≤ s.iteration + s.pollsToSwap ∧ u.hasTaken n = s.hasTaken n ∧ u.executed = s.executed := by
  cases move with
  | swap | run => contradiction
  | loop here | leave here | stay here | handleRead here | handled here =>
    simp_all [EventLoop.stepsToSwap,EventLoop.pollsToSwap,EventLoop.hasTaken,LoopLabel.own,LoopLabel.enters]
  | poll woken here =>
    cases woken <;>
      simp [EventLoop.stepsToSwap,EventLoop.pollsToSwap,EventLoop.hasTaken,LoopLabel.own,LoopLabel.enters,here]
  | finish here =>
    rcases here with here | here <;>
      simp [EventLoop.stepsToSwap,EventLoop.pollsToSwap,EventLoop.hasTaken,LoopLabel.own,LoopLabel.enters,here]
  | queueInLoop t f ready | quit t ready | wakeup t owes =>
    refine ⟨?_,le_refl _,rfl,rfl⟩
    exact (Nat.zero_add _).le

/-- Each step of the loop thread brings functor `n` nearer, unless it starts one before it. -/
theorem distance_step (ordered : Ordered s) (known : n ≤ s.pushes.length) (waits : s.executed.length < n)
    (move : LoopMove fd s l u) :
    (if l.own then 1 else 0) + u.distance n + s.executed.length ≤
      s.distance n + u.executed.length + (if l.enters then 1 else 0) ∧
      u.iteration + u.rounds n ≤ s.iteration + s.rounds n := by
  by_cases swap : l = .swap
  · subst swap
    cases move with
    | swap here =>
      have empty := ordered.batch (by simp [here]) (by simp [here])
      have order := congrArg List.length ordered.order
      simp only [empty,List.append_nil,List.length_append] at order
      have all : n ≤ s.executed.length + s.pendingFunctors.length := by omega
      have not : ¬ n ≤ s.executed.length := by omega
      simp [EventLoop.distance,EventLoop.rounds,EventLoop.hasTaken,EventLoop.stepsToSwap,LoopLabel.own,LoopLabel.enters,
        here,all,empty,not]
  by_cases start : l = .run
  · subst start
    cases move with
    | run f rest next here idle =>
      have same : n ≤ s.executed.length + 1 + rest.length ↔ n ≤ s.executed.length + s.functors.length := by
        rw [next,List.length_cons]
        omega
      rcases here with here | here <;>
        simp [EventLoop.distance,EventLoop.rounds,EventLoop.hasTaken,EventLoop.stepsToSwap,EventLoop.pollsToSwap,
          LoopLabel.own,LoopLabel.enters,here,same] <;> omega
  obtain ⟨steps,polls,same,executed⟩ := toSwap_step (n := n) move swap start
  rw [EventLoop.distance,EventLoop.distance,EventLoop.rounds,EventLoop.rounds,same,executed]
  by_cases taken : s.hasTaken n = true
  · -- the batch has to be finished first, and only the code of functors runs
    obtain ⟨some,here⟩ := batch_of_taken ordered waits taken
    have quiet : l.own = false ∧ u.iteration = s.iteration := by
      cases move with
      | swap | run => contradiction
      | finish _ _ done => exact absurd done some
      | loop other | leave other | stay other | poll _ other | handleRead other | handled other =>
        rw [other] at here
        rcases here with here | here <;> cases here
      | queueInLoop | quit | wakeup => exact ⟨rfl,rfl⟩
    rw [quiet.1,quiet.2,if_pos taken,if_pos taken,if_pos taken,if_pos taken]
    exact ⟨by simp,le_refl _⟩
  · rw [if_neg taken,if_neg taken,if_neg taken,if_neg taken]
    omega

theorem distance_run {ls : List (LoopLabel F)} (run : Run (loopStep fd) s ls u) (ordered : Ordered s)
    (known : n ≤ s.pushes.length) (waits : u.executed.length < n) :
    ls.countP LoopLabel.own + u.distance n + s.executed.length ≤
      s.distance n + u.executed.length + ls.countP LoopLabel.enters ∧
      u.iteration + u.rounds n ≤ s.iteration + s.rounds n := by
  induction run with
  | nil => simp
  | cons s l t ls u head tail ih =>
    have move := loopStep_move fd s t l head
    have early : s.executed.length < n := ((executed_step move).trans (executed_run tail)).trans_lt waits
    have longer : s.pushes.length ≤ t.pushes.length := by
      cases move <;> simp [EventLoop.owe,EventLoop.queueInLoop]
    obtain ⟨first,polls⟩ := distance_step ordered known early move
    obtain ⟨rest,more⟩ := ih (ordered_move fd s t l ordered move) (known.trans longer) waits
    rw [List.countP_cons,List.countP_cons]
    omega

end

/-- A functor is queued, by any thread, behind those of `queued`. As long as it has not been
started, the loop thread has made at most six steps besides starting what was queued before and
entering the loop anew, and has polled at most once; later functors do not delay it. -/
theorem functor_started_soon (fd : EventFd) (s t u : EventLoop F) (r : Nat) (f : F) (ls : List (LoopLabel F))
    (reached : Reachable Fresh (loopStep fd) s) (pushed : loopStep fd s (.queueInLoop r f) = some t)
    (run : Run (loopStep fd) t ls u) (waits : u.executed.length ≤ s.pushes.length) :
    ls.countP LoopLabel.own ≤ 6 + s.queued.length + ls.countP LoopLabel.enters ∧ u.iteration ≤ s.iteration + 1 := by
  have ordered := ordered_reachable fd reached
  have move := loopStep_move fd s t (.queueInLoop r f) pushed
  have length := congrArg List.length ordered.order
  have ahead : s.executed.length + s.queued.length = s.pushes.length := by
    rw [← length,List.append_assoc]
    exact List.length_append.symm
  have after : t.pushes.length = s.pushes.length + 1 ∧ t.executed = s.executed ∧ t.iteration = s.iteration := by
    cases move with
    | queueInLoop r f ready => simp [EventLoop.queueInLoop,EventLoop.owe]
  obtain ⟨pushes,executed,iteration⟩ := after
  have bound := distance_run (n := s.pushes.length + 1) run (ordered_move fd s t _ ordered move) pushes.ge (by omega)
  have far : t.distance (s.pushes.length + 1) ≤ 6 ∧ t.rounds (s.pushes.length + 1) ≤ 1 := by
    unfold EventLoop.distance EventLoop.rounds EventLoop.stepsToSwap EventLoop.pollsToSwap
    constructor
    · repeat' split
      all_goals omega
    · repeat' split
      all_goals omega
  rw [executed,iteration] at bound
  omega

/-- A functor is queued behind two others while the second of them runs, and later ones follow. -/
private def queuedBehind : List (LoopLabel Nat) :=
  [LoopLabel.queueInLoop 1 5,.queueInLoop 2 6,.loop,.check,.wakeup 1,.wakeup 2,.poll true,.handleRead,.handled,.swap,.run]

private def untilStarted : List (LoopLabel Nat) :=
  [LoopLabel.run,.queueInLoop 2 8,.wakeup 1,.finish,.check,.wakeup 2,.poll true,.handleRead,.queueInLoop 0 9,.handled,.swap]

theorem functor_started_soon_behind :
    (final (loopStep linuxEventFd) (newEventLoop Nat 0) queuedBehind).queued.length = 1 ∧
      untilStarted.countP LoopLabel.own ≤
        6 + (final (loopStep linuxEventFd) (newEventLoop Nat 0) queuedBehind).queued.length +
          untilStarted.countP LoopLabel.enters := by
  have reached : Reachable Fresh (loopStep linuxEventFd) (final (loopStep linuxEventFd) (newEventLoop Nat 0) queuedBehind) :=
    ⟨_,_,newEventLoop_fresh 0,final_run (loopStep linuxEventFd) (newEventLoop Nat 0) queuedBehind (by decide +kernel)⟩
  have pushed := final_step (loopStep linuxEventFd) (newEventLoop Nat 0) queuedBehind (.queueInLoop 1 7) (by decide +kernel)
  have run := final_append (loopStep linuxEventFd) (newEventLoop Nat 0) (queuedBehind ++ [.queueInLoop 1 7]) untilStarted
    (by decide +kernel)
  refine ⟨by decide +kernel,(functor_started_soon linuxEventFd _ _ _ 1 7 untilStarted reached pushed run ?_).1⟩
  decide +kernel

end Reactor.Net
