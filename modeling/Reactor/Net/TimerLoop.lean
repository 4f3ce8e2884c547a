import Reactor.Net.Functors
import Reactor.Net.TimerCancel

/-! Timers that any thread adds and cancels. `addTimer` makes the timer, gives it to the loop
with `runInLoop` and reads its number again for the `TimerId`; `runInLoop` performs a functor
at once in the loop thread and queues it otherwise, so that the order of calls is not the
order in which the loop sees them. -/
namespace Reactor.Net
open Reactor.Transition

/-- The functors of `addTimer` and `cancel`. The number of the timer, and the timers whose
`addTimer` had returned the id at the time of the call of `cancel`, are records. -/
inductive TimerFunctor
  | addTimerInLoop (timer : ActiveTimer)
  | cancelInLoop (id : TimerId) (owners : List ActiveTimer)
  | other
  deriving Repr

/-- A call of `addTimer` that has made its timer and not returned. -/
structure AddTimer where
  thread : Nat
  timer : ActiveTimer
  handedOff : Bool
  deriving DecidableEq, Repr

/-- `returned` records the results of `addTimer`, `cancelled` the timers a performed
`cancelInLoop` was meant for; `dangling` tells that `addTimer` followed a deleted timer. -/
structure TimerLoop where
  loop : EventLoop TimerFunctor
  queue : TimerQueue
  calls : List AddTimer
  returned : List (ActiveTimer × TimerId)
  cancelled : List ActiveTimer
  dangling : Bool

inductive TimerLoopLabel
  | loop (l : LoopLabel TimerFunctor)
  | timers (l : TimerLabel)
  | run
  | newTimer (t p : Nat) (when : Int) (interval : ℚ)
  | handOff (t : Nat)
  | readSequence (t : Nat)
  | cancel (t : Nat) (id : TimerId)
  deriving Repr

namespace TimerLoop

def outsideCall (s : TimerLoop) (t : Nat) : Bool := s.calls.all fun c => c.thread ≠ t

def ready (s : TimerLoop) (t : Nat) : Bool :=
  s.loop.ready t && s.outsideCall t && (t ≠ s.loop.threadId || s.queue.phase.inUserCode)

def idle (s : TimerLoop) : Bool := s.queue.phase = .idle && s.outsideCall s.loop.threadId

/-- The steps of the loop beside its timers; what else is queued is left open. -/
def passes (s : TimerLoop) : LoopLabel TimerFunctor → Bool
  | .run => false
  | .queueInLoop t .other => s.ready t
  | .queueInLoop _ _ => false
  | .quit t => s.ready t
  | .wakeup _ => true
  | _ => s.idle

/-- The steps of `handleRead`, which is called while the loop handles events. -/
def handles (s : TimerLoop) : TimerLabel → Bool
  | .tick _ => true
  | .handleRead => s.loop.pc = .handling && s.outsideCall s.loop.threadId
  | .run | .finish => s.outsideCall s.loop.threadId
  | _ => false

def perform (s : TimerLoop) : TimerFunctor → TimerLoop
  | .addTimerInLoop a => {s with queue := s.queue.settle (s.queue.addTimerInLoop a.timer)}
  | .cancelInLoop id owners =>
    {s with queue := s.queue.settle (s.queue.cancelInLoop id), cancelled := s.cancelled ++ owners}
  | .other => s

def runInLoop (fd : EventFd) (s : TimerLoop) (t : Nat) (f : TimerFunctor) : Option TimerLoop :=
  if t = s.loop.threadId then some (s.perform f)
  else (loopStep fd s.loop (.queueInLoop t f)).map fun loop => {s with loop := loop}

def owners (s : TimerLoop) (id : TimerId) : List ActiveTimer :=
  (s.returned.filter fun r => r.2 = id).map Prod.fst

end TimerLoop

def timerLoopStep (fd : EventFd) (addTime : Int → ℚ → Int) (s : TimerLoop) (l : TimerLoopLabel) : Option TimerLoop :=
  if s.dangling ∨ s.queue.failed ≠ none then none
  else match l with
    | .loop l => if s.passes l then (loopStep fd s.loop l).map fun loop => {s with loop := loop} else none
    | .timers l => if s.handles l then (timerStep addTime s.queue l).map fun queue => {s with queue := queue} else none
    | .run =>
      match s.loop.functors with
      | [] => none
      | f::_ =>
        if s.idle then (loopStep fd s.loop .run).map fun loop => ({s with loop := loop} : TimerLoop).perform f.functor
        else none
    | .newTimer t p when interval =>
      if s.ready t then
        (timerStep addTime s.queue (.create p when interval)).map fun queue =>
          {s with queue := queue, calls := ⟨t,⟨p,queue.numCreated⟩,false⟩ :: s.calls}
      else none
    | .handOff t =>
      match s.calls.find? fun c => c.thread = t && !c.handedOff with
      | none => none
      | some c =>
        (s.runInLoop fd t (.addTimerInLoop c.timer)).map fun u =>
          {u with calls := {c with handedOff := true} :: s.calls.erase c}
    | .readSequence t =>
      match s.calls.find? fun c => c.thread = t && c.handedOff with
      | none => none
      | some c =>
        if s.loop.owed t = .nothing then
          match s.queue.heap c.timer.timer with
          | none => some {s with dangling := true}
          | some timer =>
            some {s with
              calls := s.calls.erase c
              returned := s.returned ++ [(c.timer,⟨c.timer.timer,timer.sequence⟩)]}
        else none
    | .cancel t id => if s.ready t then s.runInLoop fd t (.cancelInLoop id (s.owners id)) else none

def newTimerLoop (threadId : Nat) (clock : Int) : TimerLoop :=
  ⟨newEventLoop TimerFunctor threadId,newTimerQueue clock,[],[],[],false⟩

def NewTimerLoop (s : TimerLoop) : Prop := ∃ threadId clock, s = newTimerLoop threadId clock

/-- The functors still to be started. -/
def TimerLoop.waiting (s : TimerLoop) : List TimerFunctor := s.loop.queued.map Push.functor

/-- What a step does. A functor given to the loop is performed or put behind the others. -/
inductive TimerLoopMove (addTime : Int → ℚ → Int) (s : TimerLoop) : TimerLoopLabel → TimerLoop → Prop
  | loop (l : LoopLabel TimerFunctor) (loop : EventLoop TimerFunctor)
      (same : (loop.queued.map Push.functor = s.waiting) ∨ (loop.queued.map Push.functor = s.waiting ++ [.other])) :
      TimerLoopMove addTime s (.loop l) {s with loop := loop}
  | timers (l : TimerLabel) (queue : TimerQueue) (handles : s.handles l = true)
      (move : timerStep addTime s.queue l = some queue) : TimerLoopMove addTime s (.timers l) {s with queue := queue}
  | run (f : Push TimerFunctor) (rest : List (Push TimerFunctor)) (loop : EventLoop TimerFunctor)
      (next : s.loop.functors = f::rest) (same : s.waiting = f.functor :: loop.queued.map Push.functor) :
      TimerLoopMove addTime s .run (({s with loop := loop} : TimerLoop).perform f.functor)
  | newTimer (t p : Nat) (when : Int) (interval : ℚ) (queue : TimerQueue)
      (move : timerStep addTime s.queue (.create p when interval) = some queue) :
      TimerLoopMove addTime s (.newTimer t p when interval)
        {s with queue := queue, calls := ⟨t,⟨p,queue.numCreated⟩,false⟩ :: s.calls}
  | add (c : AddTimer) (inside : c ∈ s.calls) (made : c.handedOff = false) :
      TimerLoopMove addTime s (.handOff c.thread)
        {s.perform (.addTimerInLoop c.timer) with calls := {c with handedOff := true} :: s.calls.erase c}
  | queueAdd (c : AddTimer) (loop : EventLoop TimerFunctor) (inside : c ∈ s.calls) (made : c.handedOff = false)
      (same : loop.queued.map Push.functor = s.waiting ++ [.addTimerInLoop c.timer]) :
      TimerLoopMove addTime s (.handOff c.thread)
        {s with loop := loop, calls := {c with handedOff := true} :: s.calls.erase c}
  | dangle (t : Nat) : TimerLoopMove addTime s (.readSequence t) {s with dangling := true}
  | readSequence (c : AddTimer) (timer : Timer) (inside : c ∈ s.calls) (given : c.handedOff = true)
      (found : s.queue.heap c.timer.timer = some timer) :
      TimerLoopMove addTime s (.readSequence c.thread)
        {s with calls := s.calls.erase c, returned := s.returned ++ [(c.timer,⟨c.timer.timer,timer.sequence⟩)]}
  | cancel (t : Nat) (id : TimerId) (own : t = s.loop.threadId) :
      TimerLoopMove addTime s (.cancel t id) (s.perform (.cancelInLoop id (s.owners id)))
  | queueCancel (t : Nat) (id : TimerId) (loop : EventLoop TimerFunctor)
      (same : loop.queued.map Push.functor = s.waiting ++ [.cancelInLoop id (s.owners id)]) :
      TimerLoopMove addTime s (.cancel t id) {s with loop := loop}

variable {fd : EventFd} {addTime : Int → ℚ → Int} {s u : TimerLoop}

@[simp] theorem perform_loop (s : TimerLoop) (f : TimerFunctor) : (s.perform f).loop = s.loop := by
  cases f <;> rfl

theorem runInLoop_cases {t : Nat} {f : TimerFunctor} (ordered : Ordered s.loop) (ok : s.runInLoop fd t f = some u) :
    Ordered u.loop ∧ ((t = s.loop.threadId ∧ u = s.perform f) ∨
      ∃ loop, loop.queued.map Push.functor = s.waiting ++ [f] ∧ u = {s with loop := loop}) := by
  unfold TimerLoop.runInLoop at ok
  split at ok
  · rename_i own
    cases ok
    exact ⟨by simpa using ordered,.inl ⟨own,rfl⟩⟩
  · obtain ⟨loop,pushed,rfl⟩ := Option.map_eq_some_iff.mp ok
    have move := loopStep_move fd s.loop loop _ pushed
    refine ⟨ordered_move fd s.loop loop _ ordered move,.inr ⟨loop,?_,rfl⟩⟩
    simp [queued_push fd s.loop loop t f move,TimerLoop.waiting]

theorem passed_cases {l : LoopLabel TimerFunctor} {loop : EventLoop TimerFunctor} (ordered : Ordered s.loop)
    (passes : s.passes l = true) (move : LoopMove fd s.loop l loop) :
    loop.queued.map Push.functor = s.waiting ∨ loop.queued.map Push.functor = s.waiting ++ [.other] := by
  cases l with
  | run => cases passes
  | queueInLoop t f =>
    cases f with
    | other => exact .inr (by simp [queued_push fd s.loop loop t _ move,TimerLoop.waiting])
    | _ => cases passes
  | _ => exact .inl (congrArg (List.map Push.functor) (queued_still fd s.loop loop _ ordered move nofun nofun))

theorem timerLoopStep_move {l : TimerLoopLabel} (ordered : Ordered s.loop)
    (ok : timerLoopStep fd addTime s l = some u) : TimerLoopMove addTime s l u ∧ Ordered u.loop := by
  obtain ⟨_,ok⟩ := Option.ite_none_left_eq_some.mp ok
  cases l with
  | loop l =>
    obtain ⟨passes,ok⟩ := Option.ite_none_right_eq_some.mp ok
    obtain ⟨loop,moved,rfl⟩ := Option.map_eq_some_iff.mp ok
    have move := loopStep_move fd s.loop loop l moved
    exact ⟨.loop l loop (passed_cases ordered passes move),ordered_move fd s.loop loop l ordered move⟩
  | timers l =>
    obtain ⟨handles,ok⟩ := Option.ite_none_right_eq_some.mp ok
    obtain ⟨queue,moved,rfl⟩ := Option.map_eq_some_iff.mp ok
    exact ⟨.timers l queue handles moved,ordered⟩
  | run =>
    simp only at ok
    split at ok
    · cases ok
    · rename_i f rest next
      obtain ⟨_,ok⟩ := Option.ite_none_right_eq_some.mp ok
      obtain ⟨loop,moved,rfl⟩ := Option.map_eq_some_iff.mp ok
      have move := loopStep_move fd s.loop loop .run moved
      obtain ⟨g,first,queued⟩ := queued_run fd s.loop loop move
      rw [next] at first
      cases first
      exact ⟨.run f rest loop next (by simp [TimerLoop.waiting,queued]),
        by simpa using ordered_move fd s.loop loop .run ordered move⟩
  | newTimer t p when interval =>
    obtain ⟨_,ok⟩ := Option.ite_none_right_eq_some.mp ok
    obtain ⟨queue,moved,rfl⟩ := Option.map_eq_some_iff.mp ok
    exact ⟨.newTimer t p when interval queue moved,ordered⟩
  | handOff t =>
    simp only at ok
    split at ok
    · cases ok
    · rename_i c found
      have inside := List.mem_of_find?_eq_some found
      obtain ⟨rfl,made⟩ : c.thread = t ∧ c.handedOff = false := by simpa using List.find?_some found
      obtain ⟨v,given,rfl⟩ := Option.map_eq_some_iff.mp ok
      obtain ⟨after,⟨_,rfl⟩ | ⟨loop,same,rfl⟩⟩ := runInLoop_cases ordered given
      · exact ⟨.add c inside made,after⟩
      · exact ⟨.queueAdd c loop inside made same,after⟩
  | readSequence t =>
    simp only at ok
    split at ok
    · cases ok
    · rename_i c found
      have inside := List.mem_of_find?_eq_some found
      obtain ⟨rfl,given⟩ : c.thread = t ∧ c.handedOff = true := by simpa using List.find?_some found
      obtain ⟨_,ok⟩ := Option.ite_none_right_eq_some.mp ok
      split at ok
      · cases ok
        exact ⟨.dangle c.thread,ordered⟩
      · rename_i timer there
        cases ok
        exact ⟨.readSequence c timer inside given there,ordered⟩
  | cancel t id =>
    obtain ⟨_,ok⟩ := Option.ite_none_right_eq_some.mp ok
    obtain ⟨after,⟨own,rfl⟩ | ⟨loop,same,rfl⟩⟩ := runInLoop_cases ordered ok
    · exact ⟨.cancel t id own,after⟩
    · exact ⟨.queueCancel t id loop same,after⟩

end Reactor.Net
