import Reactor.Transition
import Reactor.Keyed
import Reactor.Epoll.Bits

/-! The watches of one user. `ep_insert` reads `epoll_watches` at its beginning and
counts the new item at its end; what lies between is ordered by `ep->mtx` alone, so
that inserts into different eventpolls meet at the counter only. -/
namespace Reactor.Epoll
open Reactor.Transition

inductive InsertPart
  | readWatches
  | allocate
  | createWakeupSource
  | itemPoll
  | rbtreeInsert
  | reversePathCheck
  | listReady
  | countWatch
  deriving DecidableEq, Repr

structure InsertCall where
  thread : Nat
  ep : Nat
  pc : InsertPart
  deriving DecidableEq, Repr

/-- `inserts` has a call for each `ep->mtx` that is held, `items` the eventpoll of each
item in a tree. -/
structure Watches where
  epollWatches : Int
  inserts : List InsertCall
  items : List Nat
  returned : List (Nat × Int)
  deriving DecidableEq, Repr

namespace Watches

def move (s : Watches) (i : InsertCall) (pc : InsertPart) : Watches :=
  {s with inserts := {i with pc := pc} :: s.inserts.erase i}

def leave (s : Watches) (i : InsertCall) (error : Int) : Watches :=
  {s with inserts := s.inserts.erase i, returned := (i.thread,error) :: s.returned}

def holds (s : Watches) (ep : Nat) : Bool := s.inserts.any fun i => i.ep = ep

end Watches

inductive WatchLabel
  | enter (t ep : Nat)
  | read (t : Nat)
  | succeed (t : Nat)
  | fail (t : Nat) (error : Int)
  | count (t : Nat)
  | remove (ep : Nat)
  deriving DecidableEq, Repr

def InsertPart.fails : InsertPart → Int → Bool
  | .allocate, error | .itemPoll, error => error = -enomem
  | .createWakeupSource, error => error < 0
  | .reversePathCheck, error => error = -einval
  | _, _ => false

def Watches.succeed (s : Watches) (i : InsertCall) : Option Watches :=
  match i.pc with
  | .allocate => some (s.move i .createWakeupSource)
  | .createWakeupSource => some (s.move i .itemPoll)
  | .itemPoll => some (s.move i .rbtreeInsert)
  | .rbtreeInsert => some {s.move i .reversePathCheck with items := i.ep :: s.items}
  | .reversePathCheck => some (s.move i .listReady)
  | .listReady => some (s.move i .countWatch)
  | _ => none

/-- A refused path check takes the item out of the tree again. -/
def Watches.fail (s : Watches) (i : InsertCall) (error : Int) : Watches :=
  if i.pc = .reversePathCheck then {s.leave i error with items := s.items.erase i.ep} else s.leave i error

/-- A removal holds `ep->mtx`, and so waits for an insert into the same eventpoll. -/
def watchStep (maxUserWatches : Int) (s : Watches) : WatchLabel → Option Watches
  | .enter t ep =>
    if s.holds ep || s.inserts.any (fun i => i.thread = t) then none
    else some {s with inserts := ⟨t,ep,.readWatches⟩ :: s.inserts}
  | .read t =>
    (Keyed.find InsertCall.thread s.inserts t).bind fun i =>
      if i.pc = .readWatches then
        if s.epollWatches ≥ maxUserWatches then some (s.leave i (-enospc)) else some (s.move i .allocate)
      else none
  | .succeed t => (Keyed.find InsertCall.thread s.inserts t).bind s.succeed
  | .fail t error =>
    (Keyed.find InsertCall.thread s.inserts t).bind fun i => if i.pc.fails error then some (s.fail i error) else none
  | .count t =>
    (Keyed.find InsertCall.thread s.inserts t).bind fun i =>
      if i.pc = .countWatch then some {s.leave i 0 with epollWatches := s.epollWatches+1} else none
  | .remove ep =>
    if ep ∈ s.items ∧ s.holds ep = false then
      some {s with items := s.items.erase ep, epollWatches := s.epollWatches-1}
    else none

def Watches.reserved (s : Watches) : Nat := s.inserts.countP fun i => i.pc ≠ .readWatches

private theorem reserved_erase (s : Watches) (i : InsertCall) (member : i ∈ s.inserts) :
    (s.inserts.erase i).countP (fun i => i.pc ≠ .readWatches) + (if i.pc ≠ .readWatches then 1 else 0) =
      s.reserved := by
  have perm := (List.perm_cons_erase member).countP_eq (fun i => decide (i.pc ≠ .readWatches))
  rw [List.countP_cons] at perm
  simpa [Watches.reserved] using perm.symm

theorem reserved_move (s : Watches) (i : InsertCall) (pc : InsertPart) (member : i ∈ s.inserts)
    (later : pc ≠ .readWatches) :
    (s.move i pc).reserved + (if i.pc ≠ .readWatches then 1 else 0) = s.reserved + 1 := by
  have rest := reserved_erase s i member
  have head : (s.move i pc).reserved = (s.inserts.erase i).countP (fun i => i.pc ≠ .readWatches) + 1 := by
    simp [Watches.reserved,Watches.move,later]
  omega

theorem reserved_leave (s : Watches) (i : InsertCall) (error : Int) (member : i ∈ s.inserts) :
    (s.leave i error).reserved + (if i.pc ≠ .readWatches then 1 else 0) = s.reserved :=
  reserved_erase s i member

/-- What a step does to the counter and to the number of inserts on their way to it. -/
inductive WatchMove (maxUserWatches : Int) (s u : Watches) (l : WatchLabel) : Prop
  | pass (t : Nat) (reads : l = .read t) (below : s.epollWatches < maxUserWatches)
      (same : u.epollWatches = s.epollWatches) (more : u.reserved = s.reserved+1)
  | counted (up : u.epollWatches = s.epollWatches+1) (less : u.reserved+1 = s.reserved)
  | other (down : u.epollWatches ≤ s.epollWatches) (less : u.reserved ≤ s.reserved)

theorem watchStep_move (maxUserWatches : Int) (s u : Watches) (l : WatchLabel)
    (ok : watchStep maxUserWatches s l = some u) : WatchMove maxUserWatches s u l := by
  cases l with
  | enter t ep =>
    simp only [watchStep] at ok
    split at ok
    · cases ok
    · cases ok
      exact .other (le_refl _) (by simp [Watches.reserved])
  | read t =>
    obtain ⟨i,found,ok⟩ := Option.bind_eq_some_iff.mp ok
    have member := (Keyed.find_some _ found).1
    split at ok
    · rename_i here
      split at ok
      · cases ok
        have rest := reserved_leave s i (-enospc) member
        exact .other (le_refl _) (by omega)
      · rename_i below
        cases ok
        have rest := reserved_move s i .allocate member (by decide)
        simp only [here,ne_eq,not_true_eq_false,if_false] at rest
        exact .pass t rfl (by omega) rfl (by omega)
    · cases ok
  | succeed t =>
    obtain ⟨i,found,ok⟩ := Option.bind_eq_some_iff.mp ok
    have member := (Keyed.find_some _ found).1
    -- every part that can succeed lies behind the check, and leads to one that does
    have onward (pc : InsertPart) (now : i.pc ≠ .readWatches) (later : pc ≠ .readWatches) :
        (s.move i pc).reserved ≤ s.reserved := by
      have rest := reserved_move s i pc member later
      simp only [now,ne_eq,not_false_eq_true,if_true] at rest
      omega
    simp only [Watches.succeed] at ok
    split at ok
    all_goals first
      | cases ok
        rename_i here
        exact .other (le_refl _) (onward _ (by simp [here]) (by decide))
      | cases ok
  | fail t error =>
    obtain ⟨i,found,ok⟩ := Option.bind_eq_some_iff.mp ok
    have member := (Keyed.find_some _ found).1
    have rest := reserved_leave s i error member
    split at ok
    · cases ok
      simp only [Watches.fail]
      split
      · exact .other (le_refl _) (Nat.le.intro rest)
      · exact .other (le_refl _) (Nat.le.intro rest)
    · cases ok
  | count t =>
    obtain ⟨i,found,ok⟩ := Option.bind_eq_some_iff.mp ok
    have member := (Keyed.find_some _ found).1
    have rest := reserved_leave s i 0 member
    split at ok
    · rename_i here
      cases ok
      simp only [here,ne_eq,reduceCtorEq,not_false_eq_true,if_true] at rest
      exact .counted rfl rest
    · cases ok
  | remove ep =>
    simp only [watchStep] at ok
    split at ok
    · cases ok
      exact .other (by simp) (le_refl _)
    · cases ok

/-- When the check passes there is room for the item even if every insert that passed
it earlier is counted. -/
def Watches.roomy (maxUserWatches : Int) (s : Watches) : WatchLabel → Bool
  | .read _ => s.epollWatches ≥ maxUserWatches || s.epollWatches + s.reserved < maxUserWatches
  | _ => true

theorem watch_limit_kept (maxUserWatches : Int) (s u : Watches) (ls : List WatchLabel)
    (quiet : s.inserts = []) (within : s.epollWatches ≤ maxUserWatches)
    (run : Run (watchStep maxUserWatches) s ls u)
    (roomy : Along (watchStep maxUserWatches) (fun s l => s.roomy maxUserWatches l = true) s ls) :
    u.epollWatches ≤ maxUserWatches := by
  have start : s.epollWatches + s.reserved ≤ maxUserWatches := by simpa [Watches.reserved,quiet] using within
  have bound := run.keeps _ (fun s => s.epollWatches + s.reserved ≤ maxUserWatches) ?_ roomy start
  · omega
  · intro s l u before room ok
    cases watchStep_move maxUserWatches s u l ok with
    | pass t reads below same more =>
      subst reads
      simp only [Watches.roomy,Bool.or_eq_true,decide_eq_true_eq] at room
      omega
    | counted up less => omega
    | other down less => omega

private def noWatches : Watches := ⟨0,[],[],[]⟩

/-- The calls of one insert of thread `t` from the check to the last part before the count. -/
private def upToCount (t : Nat) : List WatchLabel := .read t :: List.replicate 6 (.succeed t)

private def three : List WatchLabel :=
  [WatchLabel.enter 0 0,.enter 1 1] ++ upToCount 0 ++ upToCount 1 ++
    [WatchLabel.count 1,.enter 2 2,.count 0,.read 2,.remove 1,.enter 3 1,.read 3,.fail 3 (-enomem)]

theorem watch_limit_kept_three :
    (final (watchStep 2) noWatches three).returned = [(3,-enomem),(2,-enospc),(0,0),(1,0)] ∧
    (final (watchStep 2) noWatches three).epollWatches ≤ 2 :=
  ⟨by decide +kernel,watch_limit_kept 2 noWatches _ three rfl (by decide)
    (final_run (watchStep 2) noWatches three (by decide +kernel)) (by decide +kernel)⟩

/-- Two inserts read the counter before either of them has counted its item. -/
theorem watch_limit_passed :
    ∃ (ls : List WatchLabel) (u : Watches), noWatches.inserts = [] ∧ noWatches.epollWatches ≤ 1 ∧
      Run (watchStep 1) noWatches ls u ∧ u.returned = [(1,0),(0,0)] ∧ u.epollWatches = 2 :=
  ⟨[WatchLabel.enter 0 0,.enter 1 1] ++ upToCount 0 ++ upToCount 1 ++ [WatchLabel.count 0,.count 1],_,rfl,by decide,
    final_run (watchStep 1) noWatches _ (by decide +kernel),by decide +kernel,by decide +kernel⟩

end Reactor.Epoll
