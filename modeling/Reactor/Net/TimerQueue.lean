import Reactor.Transition
import Reactor.OrderedSet
import Mathlib.Algebra.Group.Int.Defs
import Mathlib.Algebra.Group.Nat.Defs
import Mathlib.Data.Prod.Lex
import Mathlib.Data.Rat.Defs
import Mathlib.Logic.Function.Basic

/-! The timers of a loop. Timers are objects on the heap, and their addresses are used
again after `delete`; an assertion that fails and a pointer to a deleted timer that is
followed both stop the queue. `handleRead` is cut where the callbacks of the user run. -/
namespace Reactor.Net

/-- A `Timestamp` is the number of microseconds since the epoch. -/
def Timestamp.valid (microseconds : Int) : Bool := 0 < microseconds

def Timestamp.invalid : Int := 0

structure Timer where
  expiration : Int
  interval : ℚ
  sequence : Int
  deriving DecidableEq, Repr

/-- The constant `repeat_`. -/
def Timer.repeats (t : Timer) : Bool := 0 < t.interval

def Timer.restart (addTime : Int → ℚ → Int) (t : Timer) (now : Int) : Timer :=
  {t with expiration := if t.repeats then addTime now t.interval else Timestamp.invalid}

structure Entry where
  expiration : Int
  timer : Nat
  deriving Repr

/-- A timer by its address and its number, which is what a `TimerId` holds as well. -/
structure ActiveTimer where
  timer : Nat
  sequence : Int
  deriving Repr

abbrev TimerId := ActiveTimer

instance : LinearOrder Entry :=
  LinearOrder.lift' (fun e => toLex (e.expiration,e.timer)) fun e d same => by
    cases e
    cases d
    simpa using same

instance : LinearOrder ActiveTimer :=
  LinearOrder.lift' (fun a => toLex (a.timer,a.sequence)) fun a b same => by
    cases a
    cases b
    simpa using same

instance : LawfulBEq ActiveTimer := inferInstance

theorem Entry.le_def (e d : Entry) :
    e ≤ d ↔ e.expiration < d.expiration ∨ (e.expiration = d.expiration ∧ e.timer ≤ d.timer) :=
  Prod.Lex.toLex_le_toLex

structure Timespec where
  sec : Int
  nsec : Int
  deriving DecidableEq, Repr

/-- What `timerfd_settime` accepts. -/
def Timespec.valid (ts : Timespec) : Bool := 0 ≤ ts.sec && 0 ≤ ts.nsec && ts.nsec < 10^9

/-- A deadline of the timerfd and the time it was set. It has fired once the deadline
has passed. -/
structure Alarm where
  deadline : Int
  armedAt : Int
  deriving DecidableEq, Repr

inductive Fault
  | assertion
  | dangling
  deriving DecidableEq, Repr

/-- The part of `handleRead` that is under way: the entries whose callbacks were started,
and those still to come. -/
inductive TimerPhase
  | idle
  | calling (now : Int) (done rest : List Entry)
  deriving DecidableEq, Repr

def TimerPhase.expired : TimerPhase → List Entry
  | .idle => []
  | .calling _ done rest => done ++ rest

def TimerPhase.waiting : TimerPhase → List Entry
  | .idle => []
  | .calling _ _ rest => rest

def TimerPhase.inUserCode : TimerPhase → Bool
  | .idle => true
  | .calling _ done _ => done ≠ []

/-- The last four components record the calls of `addTimerInLoop`, the callbacks started,
the timers deleted and the values given to `timerfd_settime`. -/
structure TimerQueue where
  heap : Nat → Option Timer
  numCreated : Int
  timers : OrderedSet Entry
  activeTimers : OrderedSet ActiveTimer
  callingExpiredTimers : Bool
  cancelingTimers : OrderedSet ActiveTimer
  clock : Int
  timerfd : Option Alarm
  phase : TimerPhase
  failed : Option Fault
  inserted : List ActiveTimer
  started : List ActiveTimer
  deleted : List ActiveTimer
  settings : List Timespec

def check (holds : Bool) : Except Fault Unit := if holds then .ok () else .error .assertion

def uintptrMax : Nat := 2^64-1

/-- No timer lies at the address of the sentry. -/
def sentry (now : Int) : Entry := ⟨now,uintptrMax⟩

/-- `int64_t` arithmetic. -/
def int64 (n : Int) : Int := Int.bmod n (2^64)

def howMuchTimeFromNow (when now : Int) : Timespec :=
  let microseconds := int64 (when-now)
  let microseconds := if microseconds < 100 then 100 else microseconds
  ⟨microseconds.tdiv (10^6),microseconds.tmod (10^6) * 1000⟩

namespace TimerQueue

def deref (q : TimerQueue) (p : Nat) : Except Fault Timer :=
  match q.heap p with
  | some t => .ok t
  | none => .error .dangling

def store (q : TimerQueue) (p : Nat) (t : Timer) : TimerQueue := {q with heap := Function.update q.heap p (some t)}

def delete (q : TimerQueue) (p : Nat) : Except Fault TimerQueue := do
  let t ← q.deref p
  return {q with heap := Function.update q.heap p none, deleted := q.deleted ++ [⟨p,t.sequence⟩]}

def create (q : TimerQueue) (p : Nat) (when : Int) (interval : ℚ) : TimerQueue :=
  {q.store p ⟨when,interval,q.numCreated+1⟩ with numCreated := q.numCreated+1}

/-- A zero value disarms the timerfd, an invalid one leaves it as it is. -/
def timerfdSettime (q : TimerQueue) (ts : Timespec) : TimerQueue :=
  {q with
    settings := q.settings ++ [ts]
    timerfd :=
      if !ts.valid then q.timerfd
      else if ts = ⟨0,0⟩ then none
      else some ⟨q.clock + ts.sec*10^6 + ts.nsec/1000,q.clock⟩}

def resetTimerfd (q : TimerQueue) (expiration : Int) : TimerQueue :=
  q.timerfdSettime (howMuchTimeFromNow expiration q.clock)

/-- A read consumes an expiry, and fails with EAGAIN if there is none. -/
def readTimerfd (q : TimerQueue) : TimerQueue :=
  match q.timerfd with
  | some alarm => if alarm.deadline ≤ q.clock then {q with timerfd := none} else q
  | none => q

def sameSizes (q : TimerQueue) : Bool := q.timers.size = q.activeTimers.size

def earliestChanged (q : TimerQueue) (when : Int) : Bool := q.timers.first.all fun e => when < e.expiration

def link (q : TimerQueue) (p : Nat) (t : Timer) : TimerQueue :=
  {q with timers := q.timers.insert ⟨t.expiration,p⟩, activeTimers := q.activeTimers.insert ⟨p,t.sequence⟩}

def insert (q : TimerQueue) (p : Nat) : Except Fault (TimerQueue × Bool) := do
  check q.sameSizes
  let t ← q.deref p
  check (¬(⟨t.expiration,p⟩ : Entry) ∈ q.timers)
  check (¬(⟨p,t.sequence⟩ : ActiveTimer) ∈ q.activeTimers)
  check (q.link p t).sameSizes
  return (q.link p t,q.earliestChanged t.expiration)

def addTimerInLoop (q : TimerQueue) (p : Nat) : Except Fault TimerQueue := do
  let t ← q.deref p
  let (q,earliestChanged) ← ({q with inserted := q.inserted ++ [⟨p,t.sequence⟩]} : TimerQueue).insert p
  if earliestChanged then
    let t ← q.deref p
    return q.resetTimerfd t.expiration
  else return q

def cancelInLoop (q : TimerQueue) (id : TimerId) : Except Fault TimerQueue := do
  check q.sameSizes
  if id ∈ q.activeTimers then
    let t ← q.deref id.timer
    check ((⟨t.expiration,id.timer⟩ : Entry) ∈ q.timers)
    let q ← ({q with timers := q.timers.erase ⟨t.expiration,id.timer⟩} : TimerQueue).delete id.timer
    let q := {q with activeTimers := q.activeTimers.erase id}
    check q.sameSizes
    return q
  else
    -- an expired timer is in neither set; `reset` is told not to put it back
    let q := if q.callingExpiredTimers then {q with cancelingTimers := q.cancelingTimers.insert id} else q
    check q.sameSizes
    return q

def eraseActive (q : TimerQueue) : List Entry → Except Fault TimerQueue
  | [] => .ok q
  | e::rest => do
    let t ← q.deref e.timer
    check ((⟨e.timer,t.sequence⟩ : ActiveTimer) ∈ q.activeTimers)
    eraseActive {q with activeTimers := q.activeTimers.erase ⟨e.timer,t.sequence⟩} rest

def getExpired (q : TimerQueue) (now : Int) : Except Fault (TimerQueue × List Entry) := do
  check q.sameSizes
  let expired := q.timers.below (sentry now)
  let later := q.timers.fromBound (sentry now)
  check (later.first.all fun e => now < e.expiration)
  let q ← ({q with timers := later} : TimerQueue).eraseActive expired
  check q.sameSizes
  return (q,expired)

/-- `handleRead` up to the first callback. -/
def handleRead (q : TimerQueue) : Except Fault TimerQueue := do
  let now := q.clock
  let (q,expired) ← q.readTimerfd.getExpired now
  return {q with callingExpiredTimers := true, cancelingTimers := .empty, phase := .calling now [] expired}

def resetLoop (addTime : Int → ℚ → Int) (now : Int) (q : TimerQueue) :
    List Entry → Except Fault TimerQueue
  | [] => .ok q
  | e::rest => do
    let t ← q.deref e.timer
    if t.repeats ∧ ¬(⟨e.timer,t.sequence⟩ : ActiveTimer) ∈ q.cancelingTimers then
      let (q,_) ← (q.store e.timer (t.restart addTime now)).insert e.timer
      resetLoop addTime now q rest
    else
      let q ← q.delete e.timer
      resetLoop addTime now q rest

def reset (addTime : Int → ℚ → Int) (q : TimerQueue) (expired : List Entry) (now : Int) :
    Except Fault TimerQueue := do
  let q ← q.resetLoop addTime now expired
  let nextExpire ← match q.timers.first with
    | none => pure Timestamp.invalid
    | some e => do
      let t ← q.deref e.timer
      pure t.expiration
  return if Timestamp.valid nextExpire then q.resetTimerfd nextExpire else q

def run (q : TimerQueue) (now : Int) (done : List Entry) (e : Entry) (rest : List Entry) :
    Except Fault TimerQueue := do
  let t ← q.deref e.timer
  return {q with phase := .calling now (done++[e]) rest, started := q.started ++ [⟨e.timer,t.sequence⟩]}

def finish (addTime : Int → ℚ → Int) (q : TimerQueue) (now : Int) (expired : List Entry) :
    Except Fault TimerQueue := do
  let q ← ({q with callingExpiredTimers := false} : TimerQueue).reset addTime expired now
  return {q with phase := .idle}

def settle (q : TimerQueue) : Except Fault TimerQueue → TimerQueue
  | .ok next => next
  | .error fault => {q with failed := some fault}

def handedOver (q : TimerQueue) (p : Nat) : Bool :=
  match q.heap p with
  | none => false
  | some t => ¬(⟨p,t.sequence⟩ : ActiveTimer) ∈ q.inserted

end TimerQueue

inductive TimerLabel
  | tick (d : Nat)
  | create (p : Nat) (when : Int) (interval : ℚ)
  | addTimerInLoop (p : Nat)
  | cancelInLoop (id : TimerId)
  | handleRead
  | run
  | finish
  deriving DecidableEq, Repr

def timerStep (addTime : Int → ℚ → Int) (q : TimerQueue) (l : TimerLabel) : Option TimerQueue :=
  if q.failed ≠ none then none
  else match l with
    | .tick d => some {q with clock := q.clock+d}
    | .create p when interval =>
      if p ≠ 0 ∧ p < uintptrMax ∧ q.heap p = none then some (q.create p when interval) else none
    | .addTimerInLoop p =>
      if q.phase.inUserCode ∧ q.handedOver p then some (q.settle (q.addTimerInLoop p)) else none
    | .cancelInLoop id => if q.phase.inUserCode then some (q.settle (q.cancelInLoop id)) else none
    | .handleRead => if q.phase = .idle then some (q.settle q.handleRead) else none
    | .run =>
      match q.phase with
      | .calling now done (e::rest) => some (q.settle (q.run now done e rest))
      | _ => none
    | .finish =>
      match q.phase with
      | .calling now done [] => some (q.settle (q.finish addTime now done))
      | _ => none

def newTimerQueue (clock : Int) : TimerQueue :=
  ⟨fun _ => none,0,.empty,.empty,false,.empty,clock,none,.idle,none,[],[],[],[]⟩

end Reactor.Net
