import Reactor.Transition
import Reactor.Epoll.Control

/-! Eventpolls that watch each other. Any number of threads run `epoll_ctl`; a step is
what a thread does between two operations on `ep->mtx`, `epmutex` or the mutex of the
target. -/
namespace Reactor.Epoll
open Reactor.Transition

inductive CtlPc
  | outside
  | lock
  | decide
  | lockEpmutex
  | loopCheck
  | relock
  | lockTarget
  | lookup
  | pathCheck
  | unlockTarget
  | unlock
  | unlockEpmutex
  deriving DecidableEq, Repr

structure Caller where
  pc : CtlPc
  op : Int
  env : InsertEnv
  item : Item
  full : Bool
  error : Int
  deriving DecidableEq, Repr

/-- The interest sets, the holders of the mutexes, and the threads. The mutex of an
eventpoll is found by its epoll file. -/
structure Nesting where
  interest : Interest
  epmutex : Option Nat
  mtx : Nat → Option Nat
  callers : Nat → Caller

namespace Nesting

def setCaller (s : Nesting) (t : Nat) (w : Caller) : Nesting :=
  {s with callers := Function.update s.callers t w}

def setMtx (s : Nesting) (file : Nat) (holder : Option Nat) : Nesting :=
  {s with mtx := Function.update s.mtx file holder}

end Nesting

/-- `tep` is not NULL: the target is an eventpoll and its mutex is held as well. -/
def Caller.nested (k : Kernel) (w : Caller) : Bool := w.full && k.isFileEpoll w.item.key.file

def Caller.leave (k : Kernel) (w : Caller) (error : Int) : Caller :=
  {w with pc := if w.nested k then .unlockTarget else .unlock, error := error}

/-- The switch. EPOLL_CTL_ADD of a new item stops in `ep_insert` with the item linked. -/
def Nesting.switch (k : Kernel) (s : Nesting) (t : Nat) (w : Caller) : Nesting :=
  if w.op = epollCtlAdd then
    match epFind s.interest.items w.item.key with
    | some _ =>
      {s.setCaller t (w.leave k (-eexist)) with interest := s.interest.clearTfileCheckList w.full}
    | none =>
      match epInsert w.env s.interest.items w.item.withErrors with
      | .error error =>
        {s.setCaller t (w.leave k error) with interest := s.interest.clearTfileCheckList w.full}
      | .ok items =>
        {s.setCaller t {w with pc := .pathCheck} with interest := {s.interest with items := items}}
  else
    let result := s.interest.ctlSwitch k w.op w.env w.full w.item
    {s.setCaller t (w.leave k result.1) with interest := result.2}

def Nesting.checkPaths (k : Kernel) (s : Nesting) (t : Nat) (w : Caller) : Nesting :=
  if w.full && reversePathCheck k s.interest then
    {s.setCaller t (w.leave k (-einval)) with
      interest := {s.interest with
        items := s.interest.items.erase w.item.withErrors}.clearTfileCheckList w.full}
  else {s.setCaller t (w.leave k 0) with interest := s.interest.clearTfileCheckList w.full}

inductive NestLabel
  | call (t : Nat) (c : CtlCall)
  | step (t : Nat)
  deriving DecidableEq, Repr

def Nesting.enter (k : Kernel) (s : Nesting) (t : Nat) (c : CtlCall) : Nesting :=
  match ctlArgs k c with
  | .error error => s.setCaller t {s.callers t with error := error}
  | .ok item => s.setCaller t ⟨.lock,c.op,c.env,item,false,-einval⟩

def Nesting.advance (k : Kernel) (s : Nesting) (t : Nat) : Option Nesting :=
  let w := s.callers t
  match w.pc with
  | .outside => none
  | .lock =>
    if s.mtx w.item.key.ep = none then
      some ((s.setMtx w.item.key.ep (some t)).setCaller t {w with pc := .decide})
    else none
  | .decide =>
    if fullCheck k w.op s.interest.items w.item.key then
      some ((s.setMtx w.item.key.ep none).setCaller t {w with pc := .lockEpmutex, full := true})
    else some (s.setCaller t {w with pc := .lookup})
  | .lockEpmutex =>
    if s.epmutex = none then some {s.setCaller t {w with pc := .loopCheck} with epmutex := some t} else none
  | .loopCheck =>
    match checkList k s.interest w.item.key with
    | none =>
      some {s.setCaller t {w with pc := .unlockEpmutex, error := -eloop} with
        interest := s.interest.clearTfileCheckList true}
    | some files =>
      some {s.setCaller t {w with pc := .relock} with interest := {s.interest with tfileCheckList := files}}
  | .relock =>
    if s.mtx w.item.key.ep = none then
      some ((s.setMtx w.item.key.ep (some t)).setCaller t
        {w with pc := if w.nested k then .lockTarget else .lookup})
    else none
  | .lockTarget =>
    if s.mtx w.item.key.file = none then
      some ((s.setMtx w.item.key.file (some t)).setCaller t {w with pc := .lookup})
    else none
  | .lookup => some (s.switch k t w)
  | .pathCheck => some (s.checkPaths k t w)
  | .unlockTarget => some ((s.setMtx w.item.key.file none).setCaller t {w with pc := .unlock})
  | .unlock =>
    some ((s.setMtx w.item.key.ep none).setCaller t
      {w with pc := if w.full then .unlockEpmutex else .outside})
  | .unlockEpmutex => some {s.setCaller t {w with pc := .outside} with epmutex := none}

def nestStep (k : Kernel) (s : Nesting) : NestLabel → Option Nesting
  | .call t c => if (s.callers t).pc = .outside then some (s.enter k t c) else none
  | .step t => s.advance k t

/-- What a step can do, one constructor for each way through the source. -/
inductive NestMove (k : Kernel) (s : Nesting) : NestLabel → Nesting → Prop
  | refused (t : Nat) (c : CtlCall) (error : Int) (here : (s.callers t).pc = .outside)
      (args : ctlArgs k c = .error error) :
      NestMove k s (.call t c) (s.setCaller t {s.callers t with error := error})
  | entered (t : Nat) (c : CtlCall) (item : Item) (here : (s.callers t).pc = .outside)
      (args : ctlArgs k c = .ok item) :
      NestMove k s (.call t c) (s.setCaller t ⟨.lock,c.op,c.env,item,false,-einval⟩)
  | locked (t : Nat) (here : (s.callers t).pc = .lock) (free : s.mtx (s.callers t).item.key.ep = none) :
      NestMove k s (.step t)
        ((s.setMtx (s.callers t).item.key.ep (some t)).setCaller t {s.callers t with pc := .decide})
  | deferred (t : Nat) (here : (s.callers t).pc = .decide)
      (full : fullCheck k (s.callers t).op s.interest.items (s.callers t).item.key = true) :
      NestMove k s (.step t)
        ((s.setMtx (s.callers t).item.key.ep none).setCaller t
          {s.callers t with pc := .lockEpmutex, full := true})
  | decided (t : Nat) (here : (s.callers t).pc = .decide)
      (plain : fullCheck k (s.callers t).op s.interest.items (s.callers t).item.key = false) :
      NestMove k s (.step t) (s.setCaller t {s.callers t with pc := .lookup})
  | serialized (t : Nat) (here : (s.callers t).pc = .lockEpmutex) (free : s.epmutex = none) :
      NestMove k s (.step t) {s.setCaller t {s.callers t with pc := .loopCheck} with epmutex := some t}
  | looped (t : Nat) (here : (s.callers t).pc = .loopCheck)
      (loop : checkList k s.interest (s.callers t).item.key = none) :
      NestMove k s (.step t) {s.setCaller t {s.callers t with pc := .unlockEpmutex, error := -eloop} with
        interest := s.interest.clearTfileCheckList true}
  | listed (t : Nat) (files : List Nat) (here : (s.callers t).pc = .loopCheck)
      (list : checkList k s.interest (s.callers t).item.key = some files) :
      NestMove k s (.step t) {s.setCaller t {s.callers t with pc := .relock} with
        interest := {s.interest with tfileCheckList := files}}
  | relocked (t : Nat) (here : (s.callers t).pc = .relock) (free : s.mtx (s.callers t).item.key.ep = none) :
      NestMove k s (.step t)
        ((s.setMtx (s.callers t).item.key.ep (some t)).setCaller t
          {s.callers t with pc := if (s.callers t).nested k then .lockTarget else .lookup})
  | targeted (t : Nat) (here : (s.callers t).pc = .lockTarget)
      (free : s.mtx (s.callers t).item.key.file = none) :
      NestMove k s (.step t)
        ((s.setMtx (s.callers t).item.key.file (some t)).setCaller t {s.callers t with pc := .lookup})
  | stopped (t : Nat) (error : Int) (here : (s.callers t).pc = .lookup)
      (op : (s.callers t).op = epollCtlAdd) :
      NestMove k s (.step t) {s.setCaller t ((s.callers t).leave k error) with
        interest := s.interest.clearTfileCheckList (s.callers t).full}
  | inserted (t : Nat) (here : (s.callers t).pc = .lookup) (op : (s.callers t).op = epollCtlAdd) :
      NestMove k s (.step t) {s.setCaller t {s.callers t with pc := .pathCheck} with
        interest := {s.interest with items := (s.callers t).item.withErrors :: s.interest.items}}
  | switched (t : Nat) (error : Int) (interest : Interest) (here : (s.callers t).pc = .lookup)
      (op : (s.callers t).op ≠ epollCtlAdd)
      (result : s.interest.ctlSwitch k (s.callers t).op (s.callers t).env (s.callers t).full
        (s.callers t).item = (error,interest)) :
      NestMove k s (.step t) {s.setCaller t ((s.callers t).leave k error) with interest := interest}
  | rejected (t : Nat) (here : (s.callers t).pc = .pathCheck) (full : (s.callers t).full = true) :
      NestMove k s (.step t) {s.setCaller t ((s.callers t).leave k (-einval)) with
        interest := ⟨s.interest.items.erase (s.callers t).item.withErrors,[]⟩}
  | accepted (t : Nat) (here : (s.callers t).pc = .pathCheck)
      (fine : (s.callers t).full = true → reversePathCheck k s.interest = false) :
      NestMove k s (.step t) {s.setCaller t ((s.callers t).leave k 0) with
        interest := s.interest.clearTfileCheckList (s.callers t).full}
  | unlockedTarget (t : Nat) (here : (s.callers t).pc = .unlockTarget) :
      NestMove k s (.step t)
        ((s.setMtx (s.callers t).item.key.file none).setCaller t {s.callers t with pc := .unlock})
  | unlocked (t : Nat) (here : (s.callers t).pc = .unlock) :
      NestMove k s (.step t)
        ((s.setMtx (s.callers t).item.key.ep none).setCaller t
          {s.callers t with pc := if (s.callers t).full then .unlockEpmutex else .outside})
  | released (t : Nat) (here : (s.callers t).pc = .unlockEpmutex) :
      NestMove k s (.step t) {s.setCaller t {s.callers t with pc := .outside} with epmutex := none}

private theorem enter_move (k : Kernel) (s : Nesting) (t : Nat) (c : CtlCall)
    (here : (s.callers t).pc = .outside) : NestMove k s (.call t c) (s.enter k t c) := by
  unfold Nesting.enter
  split
  next error args => exact .refused t c error here args
  next item args => exact .entered t c item here args

private theorem switch_move (k : Kernel) (s : Nesting) (t : Nat) (here : (s.callers t).pc = .lookup) :
    NestMove k s (.step t) (s.switch k t (s.callers t)) := by
  unfold Nesting.switch
  split
  next op =>
    split
    · exact .stopped t (-eexist) here op
    · split
      next error failed => exact .stopped t error here op
      next items ok =>
        rw [epInsert_ok ok]
        exact .inserted t here op
  next op => exact .switched t _ _ here op rfl

private theorem checkPaths_move (k : Kernel) (s : Nesting) (t : Nat) (here : (s.callers t).pc = .pathCheck) :
    NestMove k s (.step t) (s.checkPaths k t (s.callers t)) := by
  unfold Nesting.checkPaths
  split
  next both =>
    have full := (Bool.and_eq_true_iff.mp both).1
    rw [full]
    exact .rejected t here full
  next fine =>
    refine .accepted t here fun full => ?_
    simpa [full] using fine

theorem nestStep_move (k : Kernel) (s u : Nesting) (l : NestLabel) (ok : nestStep k s l = some u) :
    NestMove k s l u := by
  cases l with
  | call t c =>
    simp only [nestStep,Option.ite_none_right_eq_some,Option.some.injEq] at ok
    obtain ⟨here,rfl⟩ := ok
    exact enter_move k s t c here
  | step t =>
    simp only [nestStep,Nesting.advance] at ok
    cases here : (s.callers t).pc <;>
      simp only [here,Option.ite_none_right_eq_some,Option.some.injEq,reduceCtorEq] at ok
    case lock =>
      obtain ⟨free,rfl⟩ := ok
      exact .locked t here free
    case decide =>
      split at ok
      next full =>
        cases ok
        exact .deferred t here full
      next plain =>
        cases ok
        exact .decided t here (by simpa using plain)
    case lockEpmutex =>
      obtain ⟨free,rfl⟩ := ok
      exact .serialized t here free
    case loopCheck =>
      split at ok
      next loop =>
        cases ok
        exact .looped t here loop
      next files list =>
        cases ok
        exact .listed t files here list
    case relock =>
      obtain ⟨free,rfl⟩ := ok
      exact .relocked t here free
    case lockTarget =>
      obtain ⟨free,rfl⟩ := ok
      exact .targeted t here free
    case lookup =>
      subst ok
      exact switch_move k s t here
    case pathCheck =>
      subst ok
      exact checkPaths_move k s t here
    case unlockTarget =>
      subst ok
      exact .unlockedTarget t here
    case unlock =>
      subst ok
      exact .unlocked t here
    case unlockEpmutex =>
      subst ok
      exact .released t here

def NestLabel.thread : NestLabel → Nat
  | .call t _ => t
  | .step t => t

@[simp] theorem setCaller_self (s : Nesting) (t : Nat) (w : Caller) : (s.setCaller t w).callers t = w := by
  simp [Nesting.setCaller]

theorem setCaller_other (s : Nesting) (t other : Nat) (w : Caller) (different : other ≠ t) :
    (s.setCaller t w).callers other = s.callers other := by
  simp [Nesting.setCaller,different]

theorem caller_kept (k : Kernel) (s u : Nesting) (l : NestLabel) (move : NestMove k s l u) (t : Nat)
    (other : t ≠ l.thread) : u.callers t = s.callers t := by
  cases move <;> exact setCaller_other _ _ t _ other

theorem callers_untouched (k : Kernel) (s u : Nesting) (ls : List NestLabel) (run : Run (nestStep k) s ls u) (t : Nat)
    (others : ∀ l ∈ ls, l.thread ≠ t) : u.callers t = s.callers t := by
  induction run with
  | nil => rfl
  | cons s l next ls u head tail ih =>
    rw [ih fun later member => others later (List.mem_cons_of_mem _ member)]
    exact caller_kept k s next l (nestStep_move k s next l head) t (others l List.mem_cons_self).symm

end Reactor.Epoll
