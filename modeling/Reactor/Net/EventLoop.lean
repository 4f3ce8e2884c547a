import Reactor.Transition
import Mathlib.Logic.Function.Basic

/-! The loop of a thread and the functors other threads queue in it. A push is one step
under `mutex_`, the write to `wakeupFd_` that may follow it another one. What functors
and event handlers do is left open, except for their own calls of `queueInLoop`. -/
namespace Reactor.Net
open Reactor.Transition

/-- Where the loop thread is. In `outside`, `handling` and `calling` it runs the code of
the user; `checking` is the test of `quit_`. -/
inductive LoopPc
  | outside
  | checking
  | polling
  | handling
  | swapping
  | swapped
  | calling
  deriving DecidableEq, Repr

/-- The call for which a thread has still to write to `wakeupFd_`. -/
inductive Owed
  | nothing
  | queueInLoop
  | quit
  deriving DecidableEq, Repr

/-- A functor with the thread that pushed it and the value of `looping_` at that time. -/
structure Push (F : Type) where
  functor : F
  thread : Nat
  looping : Bool
  deriving DecidableEq, Repr

/-- The counter behind `wakeupFd_` after a write, which succeeds or leaves it readable. -/
structure EventFd where
  write : Nat → Nat
  readable : ∀ n, 0 < write n

/-- `functors` is the rest of the local batch of `doPendingFunctors`; `pushes` and
`executed` record what was pushed, in the order of `mutex_`, and what was started. -/
structure EventLoop (F : Type) where
  threadId : Nat
  pc : LoopPc
  quit : Bool
  iteration : Nat
  wakeupFd : Nat
  wakeupActive : Bool
  pendingFunctors : List (Push F)
  functors : List (Push F)
  owed : Nat → Owed
  pushes : List (Push F)
  executed : List (Push F)

inductive LoopLabel (F : Type)
  | loop
  | check
  | poll (woken : Bool)
  | handleRead
  | handled
  | swap
  | run
  | finish
  | queueInLoop (t : Nat) (f : F)
  | quit (t : Nat)
  | wakeup (t : Nat)
  deriving DecidableEq, Repr

variable {F : Type}

namespace EventLoop

def looping (s : EventLoop F) : Bool := s.pc ≠ .outside

def callingPendingFunctors (s : EventLoop F) : Bool := s.pc = .swapping || s.pc = .swapped || s.pc = .calling

def inUserCode (s : EventLoop F) : Bool := s.pc = .outside || s.pc = .handling || s.pc = .calling

/-- A thread that can make its next call: the loop thread only while it runs user code. -/
def ready (s : EventLoop F) (t : Nat) : Bool := s.owed t = .nothing && (t ≠ s.threadId || s.inUserCode)

def idle (s : EventLoop F) : Bool := s.owed s.threadId = .nothing

def owe (s : EventLoop F) (t : Nat) (owed : Owed) : EventLoop F := {s with owed := Function.update s.owed t owed}

def queueInLoop (s : EventLoop F) (t : Nat) (f : F) : EventLoop F :=
  let push : Push F := ⟨f,t,s.looping⟩
  {s.owe t (if t ≠ s.threadId || s.callingPendingFunctors then .queueInLoop else .nothing) with
    pendingFunctors := s.pendingFunctors ++ [push], pushes := s.pushes ++ [push]}

end EventLoop

def loopStep (fd : EventFd) (s : EventLoop F) : LoopLabel F → Option (EventLoop F)
  | .loop => if s.pc = .outside ∧ s.idle then some {s with pc := .checking, quit := false} else none
  | .check => if s.pc = .checking then some {s with pc := if s.quit then .outside else .polling} else none
  | .poll woken =>
    if s.pc = .polling ∧ (woken → 0 < s.wakeupFd) then
      some {s with pc := .handling, iteration := s.iteration+1, wakeupActive := woken}
    else none
  | .handleRead =>
    if s.pc = .handling ∧ s.wakeupActive then some {s with wakeupFd := 0, wakeupActive := false} else none
  | .handled => if s.pc = .handling ∧ s.wakeupActive = false then some {s with pc := .swapping} else none
  | .swap =>
    if s.pc = .swapping then some {s with pc := .swapped, functors := s.pendingFunctors, pendingFunctors := []}
    else none
  | .run =>
    match s.functors with
    | [] => none
    | f::rest =>
      if (s.pc = .swapped ∨ s.pc = .calling) ∧ s.idle then
        some {s with pc := .calling, functors := rest, executed := s.executed ++ [f]}
      else none
  | .finish =>
    if (s.pc = .swapped ∨ s.pc = .calling) ∧ s.idle ∧ s.functors = [] then some {s with pc := .checking} else none
  | .queueInLoop t f => if s.ready t then some (s.queueInLoop t f) else none
  | .quit t =>
    if s.ready t then some {s.owe t (if t ≠ s.threadId then .quit else .nothing) with quit := true} else none
  | .wakeup t => if s.owed t ≠ .nothing then some {s.owe t .nothing with wakeupFd := fd.write s.wakeupFd} else none

inductive LoopMove (fd : EventFd) (s : EventLoop F) : LoopLabel F → EventLoop F → Prop
  | loop (here : s.pc = .outside) (idle : s.idle = true) :
      LoopMove fd s .loop {s with pc := .checking, quit := false}
  | leave (here : s.pc = .checking) (quit : s.quit = true) : LoopMove fd s .check {s with pc := .outside}
  | stay (here : s.pc = .checking) (on : s.quit = false) : LoopMove fd s .check {s with pc := .polling}
  | poll (woken : Bool) (here : s.pc = .polling) (positive : woken = true → 0 < s.wakeupFd) :
      LoopMove fd s (.poll woken) {s with pc := .handling, iteration := s.iteration+1, wakeupActive := woken}
  | handleRead (here : s.pc = .handling) (active : s.wakeupActive = true) :
      LoopMove fd s .handleRead {s with wakeupFd := 0, wakeupActive := false}
  | handled (here : s.pc = .handling) (all : s.wakeupActive = false) : LoopMove fd s .handled {s with pc := .swapping}
  | swap (here : s.pc = .swapping) :
      LoopMove fd s .swap {s with pc := .swapped, functors := s.pendingFunctors, pendingFunctors := []}
  | run (f : Push F) (rest : List (Push F)) (next : s.functors = f::rest)
      (here : s.pc = .swapped ∨ s.pc = .calling) (idle : s.idle = true) :
      LoopMove fd s .run {s with pc := .calling, functors := rest, executed := s.executed ++ [f]}
  | finish (here : s.pc = .swapped ∨ s.pc = .calling) (idle : s.idle = true) (done : s.functors = []) :
      LoopMove fd s .finish {s with pc := .checking}
  | queueInLoop (t : Nat) (f : F) (ready : s.ready t = true) : LoopMove fd s (.queueInLoop t f) (s.queueInLoop t f)
  | quit (t : Nat) (ready : s.ready t = true) :
      LoopMove fd s (.quit t) {s.owe t (if t ≠ s.threadId then .quit else .nothing) with quit := true}
  | wakeup (t : Nat) (owes : s.owed t ≠ .nothing) :
      LoopMove fd s (.wakeup t) {s.owe t .nothing with wakeupFd := fd.write s.wakeupFd}

theorem loopStep_move (fd : EventFd) (s u : EventLoop F) (l : LoopLabel F) (ok : loopStep fd s l = some u) :
    LoopMove fd s l u := by
  cases l with
  | loop =>
    obtain ⟨⟨here,idle⟩,⟨⟩⟩ := Option.ite_none_right_eq_some.mp ok
    exact .loop here idle
  | check =>
    obtain ⟨here,⟨⟩⟩ := Option.ite_none_right_eq_some.mp ok
    split
    · rename_i quit
      exact .leave here quit
    · rename_i on
      exact .stay here (Bool.eq_false_iff.mpr on)
  | poll woken =>
    obtain ⟨⟨here,positive⟩,⟨⟩⟩ := Option.ite_none_right_eq_some.mp ok
    exact .poll woken here positive
  | handleRead =>
    obtain ⟨⟨here,active⟩,⟨⟩⟩ := Option.ite_none_right_eq_some.mp ok
    exact .handleRead here active
  | handled =>
    obtain ⟨⟨here,all⟩,⟨⟩⟩ := Option.ite_none_right_eq_some.mp ok
    exact .handled here all
  | swap =>
    obtain ⟨here,⟨⟩⟩ := Option.ite_none_right_eq_some.mp ok
    exact .swap here
  | run =>
    simp only [loopStep] at ok
    split at ok
    · cases ok
    · rename_i f rest next
      obtain ⟨⟨here,idle⟩,⟨⟩⟩ := Option.ite_none_right_eq_some.mp ok
      exact .run f rest next here idle
  | finish =>
    obtain ⟨⟨here,idle,done⟩,⟨⟩⟩ := Option.ite_none_right_eq_some.mp ok
    exact .finish here idle done
  | queueInLoop t f =>
    obtain ⟨ready,⟨⟩⟩ := Option.ite_none_right_eq_some.mp ok
    exact .queueInLoop t f ready
  | quit t =>
    obtain ⟨ready,⟨⟩⟩ := Option.ite_none_right_eq_some.mp ok
    exact .quit t ready
  | wakeup t =>
    obtain ⟨owes,⟨⟩⟩ := Option.ite_none_right_eq_some.mp ok
    exact .wakeup t owes

end Reactor.Net
