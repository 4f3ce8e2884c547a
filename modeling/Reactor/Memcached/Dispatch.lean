import Reactor.Memcached.Worker
import Mathlib.Logic.Function.Basic
import Mathlib.Data.List.Nodup

/-! The hand-off of connections from the main thread to the workers: `cq_push` and
the byte in the pipe are two steps of the main thread, the read and `cq_pop` two
steps of a worker, and any of them may be interleaved. -/
namespace Reactor.Memcached
open Reactor.Transition

inductive MainPc
  | idle
  | push (tid : Nat) (item : CqItem)
  | notify (tid : Nat)
deriving DecidableEq

structure Process where
  numThreads : Nat
  lastThread : Int
  workers : Nat → Worker
  main : MainPc
  dispatches : Nat
  closed : List Int
  exited : Bool

/-- The arguments of `dispatch_conn_new`. -/
structure Request where
  sfd : Int
  initState : ConnState
  eventFlags : Int
  readBufferSize : Int
  transport : NetworkTransport
deriving DecidableEq

/-- `tell` is any other byte written to a pipe, such as the two that flip the lock type. -/
inductive Label
  | dispatch (q : Request) (allocated : Bool)
  | push
  | notify (written : Bool)
  | tell (tid : Nat) (b : UInt8)
  | read (tid : Nat)
  | advance (tid : Nat) (made : Bool)
deriving DecidableEq

namespace Process

def Started (s : Process) : Prop :=
  0 < s.numThreads ∧ -1 ≤ s.lastThread ∧ s.lastThread < s.numThreads ∧ s.workers = newWorker ∧
    s.main = .idle ∧ s.dispatches = 0 ∧ s.closed = [] ∧ s.exited = false

def setWorker (s : Process) (tid : Nat) (w : Worker) : Process :=
  { s with workers := Function.update s.workers tid w }

def chosen (s : Process) : Int := (s.lastThread+1).tmod s.numThreads

def dispatchConnNew (s : Process) (q : Request) (allocated : Bool) : Process :=
  if allocated then
    { s with
      lastThread := s.chosen
      main := .push s.chosen.toNat
        ⟨s.dispatches,q.sfd,q.initState,q.eventFlags,q.readBufferSize,q.transport⟩
      dispatches := s.dispatches+1 }
  else { s with closed := s.closed ++ [q.sfd] }

def notify (s : Process) (tid : Nat) (written : Bool) : Process :=
  let w := s.workers tid
  -- a write that fails is only reported
  let w := if written then { w with pipe := w.pipe ++ ['c'.toUInt8] }
    else { w with failedWrites := w.failedWrites+1 }
  { s.setWorker tid w with main := .idle }

def advance (s : Process) (tid : Nat) (made : Bool) : Process :=
  let w := (s.workers tid).advance made
  let exits := match w.pc with
    | .exited _ => true
    | _ => false
  { s.setWorker tid w with exited := exits }

end Process

def step (s : Process) (l : Label) : Option Process :=
  if s.exited then none else
  match l with
  | .dispatch q allocated =>
    if s.main = .idle then some (s.dispatchConnNew q allocated) else none
  | .push =>
    match s.main with
    | .push tid item => some { s.setWorker tid ((s.workers tid).cqPush item) with main := .notify tid }
    | _ => none
  | .notify written =>
    match s.main with
    | .notify tid => some (s.notify tid written)
    | _ => none
  | .tell tid b =>
    if b = 'c'.toUInt8 then none
    else some (s.setWorker tid { s.workers tid with pipe := (s.workers tid).pipe ++ [b] })
  | .read tid =>
    match (s.workers tid).pc, (s.workers tid).pipe with
    | .waiting, b::rest => some (s.setWorker tid ({ s.workers tid with pipe := rest }.read (.byte b)))
    | _, _ => none
  | .advance tid made =>
    if (s.workers tid).pc = .waiting then none else some (s.advance tid made)

/-- What each step does. -/
inductive ProcessMove (s : Process) : Label → Process → Prop
  | dispatch (q : Request) (allocated : Bool) (idle : s.main = .idle) :
      ProcessMove s (.dispatch q allocated) (s.dispatchConnNew q allocated)
  | push (tid : Nat) (item : CqItem) (here : s.main = .push tid item) :
      ProcessMove s .push { s.setWorker tid ((s.workers tid).cqPush item) with main := .notify tid }
  | notify (tid : Nat) (written : Bool) (here : s.main = .notify tid) :
      ProcessMove s (.notify written) (s.notify tid written)
  | tell (tid : Nat) (b : UInt8) (other : b ≠ 'c'.toUInt8) :
      ProcessMove s (.tell tid b) (s.setWorker tid { s.workers tid with pipe := (s.workers tid).pipe ++ [b] })
  | read (tid : Nat) (b : UInt8) (rest : List UInt8) (waiting : (s.workers tid).pc = .waiting)
      (pipe : (s.workers tid).pipe = b::rest) :
      ProcessMove s (.read tid) (s.setWorker tid ({ s.workers tid with pipe := rest }.read (.byte b)))
  | advance (tid : Nat) (made : Bool) : ProcessMove s (.advance tid made) (s.advance tid made)

theorem step_processMove {s t : Process} {l : Label} (ok : step s l = some t) :
    s.exited = false ∧ ProcessMove s l t := by
  unfold step at ok
  obtain ⟨on,ok⟩ := Option.ite_none_left_eq_some.mp ok
  refine ⟨Bool.eq_false_iff.mpr on,?_⟩
  cases l with
  | dispatch q allocated =>
    obtain ⟨idle,same⟩ := Option.ite_none_right_eq_some.mp ok
    cases same
    exact .dispatch q allocated idle
  | push =>
    cases here : s.main with
    | push tid item =>
      simp only [here,Option.some.injEq] at ok
      subst ok
      exact .push tid item here
    | idle | notify => simp [here] at ok
  | notify written =>
    cases here : s.main with
    | notify tid =>
      simp only [here,Option.some.injEq] at ok
      subst ok
      exact .notify tid written here
    | idle | push => simp [here] at ok
  | tell tid b =>
    obtain ⟨other,same⟩ := Option.ite_none_left_eq_some.mp ok
    cases same
    exact .tell tid b other
  | read tid =>
    simp only at ok
    split at ok
    · rename_i b rest waiting pipe
      cases ok
      exact .read tid b rest waiting pipe
    · cases ok
  | advance tid made =>
    obtain ⟨_,same⟩ := Option.ite_none_left_eq_some.mp ok
    cases same
    exact .advance tid made

namespace WorkerPc

/-- Popped, with neither a connection made of it nor its descriptor closed. -/
def unsettled : WorkerPc → List CqItem
  | .connNew item | .exited item => [item]
  | _ => []

def inHand : WorkerPc → List CqItem
  | .connNew item | .exited item | .free item => [item]
  | _ => []

def unpopped (pc : WorkerPc) : Nat := if pc = .switch 'c'.toUInt8 then 1 else 0

/-- How many pieces of the callback are left. -/
def rank : WorkerPc → Nat
  | .waiting | .exited _ => 0
  | .free _ => 1
  | .connNew _ => 2
  | .switch _ => 3

end WorkerPc

def MainPc.unnotified (main : MainPc) (tid : Nat) : Nat := if main = .notify tid then 1 else 0

/-- What holds of one worker at every point, with the number of its items that the
main thread has pushed and not yet announced. -/
structure Handoff (unnotified : Nat) (w : Worker) : Prop where
  queue : w.pushed = w.popped ++ w.newConnQueue
  pops : w.pops = w.popped.length
  notified : w.newConnQueue.length =
    w.pipe.count 'c'.toUInt8 + w.failedWrites + unnotified + w.pc.unpopped
  settled : w.popped = w.outcomes.map Prod.fst ++ w.pc.unsettled
  freed : w.popped = w.freed ++ w.pc.inHand
  owned : ∀ o ∈ w.outcomes, o.2 = .conn (w.owning o.1) ∨ o.2 = .closed o.1.sfd
  udp : ∀ item, w.pc = .exited item → item.transport = .udp

namespace Handoff

variable {k : Nat} {w : Worker}

theorem cqPush (before : Handoff 0 w) (item : CqItem) : Handoff 1 (w.cqPush item) :=
  { before with
    queue := by simp [Worker.cqPush,before.queue]
    notified := by
      have := before.notified
      simp only [Worker.cqPush,List.length_append,List.length_singleton]
      omega }

theorem written (before : Handoff 1 w) : Handoff 0 { w with pipe := w.pipe ++ ['c'.toUInt8] } :=
  { before with
    notified := by
      have := before.notified
      simp only [List.count_append,List.count_singleton_self]
      omega }

theorem unwritten (before : Handoff 1 w) : Handoff 0 { w with failedWrites := w.failedWrites+1 } :=
  { before with
    notified := by
      have := before.notified
      simp only
      omega }

theorem tell (before : Handoff k w) {b : UInt8} (other : b ≠ 'c'.toUInt8) :
    Handoff k { w with pipe := w.pipe ++ [b] } :=
  { before with
    notified := by simpa [List.count_append,List.count_singleton,other] using before.notified }

theorem read (before : Handoff k w) (waiting : w.pc = .waiting) {b : UInt8} {rest : List UInt8}
    (pipe : w.pipe = b::rest) : Handoff k ({ w with pipe := rest }.read (.byte b)) where
  queue := before.queue
  pops := before.pops
  notified := by
    have lengths := before.notified
    have split : ([b]++rest).count 'c'.toUInt8 = [b].count 'c'.toUInt8 + rest.count 'c'.toUInt8 :=
      List.count_append
    have first : [b].count 'c'.toUInt8 = (WorkerPc.switch b).unpopped := by
      by_cases same : b = 'c'.toUInt8 <;> simp [WorkerPc.unpopped,same]
    rw [pipe,waiting] at lengths
    have before : WorkerPc.waiting.unpopped = 0 := rfl
    simp only [List.singleton_append] at split
    simp only [Worker.read,Read.buf]
    omega
  settled := by simpa [waiting,WorkerPc.unsettled,Worker.read] using before.settled
  freed := by simpa [waiting,WorkerPc.inHand,Worker.read] using before.freed
  owned := before.owned
  udp := by simp [Worker.read]

/-- A byte that was read stands for an item that is still in the queue. -/
theorem nonempty (before : Handoff k w) (here : w.pc = .switch 'c'.toUInt8) : w.newConnQueue ≠ [] := by
  intro empty
  have lengths := before.notified
  simp [empty,here,WorkerPc.unpopped] at lengths

theorem advance (before : Handoff k w) (made : Bool) : Handoff k (w.advance made) := by
  have settled := before.settled
  have freed := before.freed
  have notified := before.notified
  have move := w.advance_move made
  generalize w.advance made = u at move ⊢
  cases move with
  | still done => exact before
  | null here queue => exact absurd queue (before.nonempty here)
  | pop item rest here queue =>
    refine { before with
      queue := by simp [before.queue,queue]
      pops := by simp [before.pops]
      notified := ?_
      settled := by simp [settled,here,WorkerPc.unsettled]
      freed := by simp [freed,here,WorkerPc.inHand]
      udp := by simp }
    simp only [queue,here,List.length_cons,WorkerPc.unpopped,if_true] at notified
    simp only [WorkerPc.unpopped,reduceCtorEq,if_false]
    omega
  | flip buf lock registrations here other =>
    exact { before with
      notified := by simpa [here,WorkerPc.unpopped,other] using notified
      settled := by simpa [here,WorkerPc.unsettled] using settled
      freed := by simpa [here,WorkerPc.inHand] using freed
      udp := by simp }
  | settle item o here kind =>
    refine { before with
      notified := by simpa [here,WorkerPc.unpopped] using notified
      settled := by simpa [here,WorkerPc.unsettled] using settled
      freed := by simpa [here,WorkerPc.inHand] using freed
      owned := ?_
      udp := by simp }
    intro other member
    rcases List.mem_append.mp member with old | new
    · exact before.owned other old
    · rw [List.mem_singleton.mp new]
      exact kind
  | exit item here null transport =>
    refine { before with
      notified := by simpa [here,WorkerPc.unpopped] using notified
      settled := by simpa [here,WorkerPc.unsettled] using settled
      freed := by simpa [here,WorkerPc.inHand] using freed
      udp := ?_ }
    rintro other same
    cases same
    exact transport
  | free item here =>
    exact { before with
      notified := by simpa [here,WorkerPc.unpopped] using notified
      settled := by simpa [here,WorkerPc.unsettled] using settled
      freed := by simpa [here,WorkerPc.inHand] using freed
      udp := by simp }

end Handoff

theorem Worker.advance_frame (w : Worker) (made : Bool) :
    (w.advance made).threadId = w.threadId ∧ (w.advance made).pushed = w.pushed := by
  have move := w.advance_move made
  generalize w.advance made = u at move ⊢
  cases move <;> exact ⟨rfl,rfl⟩

theorem Process.setWorker_self (s : Process) (tid : Nat) (w : Worker) : (s.setWorker tid w).workers tid = w :=
  Function.update_self _ _ _

theorem Process.setWorker_other (s : Process) {t tid : Nat} (w : Worker) (other : t ≠ tid) :
    (s.setWorker tid w).workers t = s.workers t :=
  Function.update_of_ne other _ _

theorem Process.setWorker_pushed (s : Process) {tid : Nat} {w : Worker} (same : w.pushed = (s.workers tid).pushed)
    (t : Nat) : ((s.setWorker tid w).workers t).pushed = (s.workers t).pushed := by
  by_cases here : t = tid
  · rw [here,s.setWorker_self,same]
  · rw [s.setWorker_other w here]

/-- Whatever is in a queue now was there before, or is the new item in the chosen queue. -/
theorem Process.mem_cqPush {s : Process} {t tid : Nat} {item other : CqItem}
    (member : other ∈ ((s.setWorker tid ((s.workers tid).cqPush item)).workers t).pushed) :
    other ∈ (s.workers t).pushed ∨ t = tid ∧ other = item := by
  by_cases same : t = tid
  · subst same
    rw [s.setWorker_self] at member
    rcases List.mem_append.mp member with old | new
    · exact .inl old
    · exact .inr ⟨rfl,List.mem_singleton.mp new⟩
  · rw [s.setWorker_other _ same] at member
    exact .inl member

theorem Worker.cqPush_nodup (w : Worker) (item : CqItem) (distinct : (w.pushed.map CqItem.dispatch).Nodup)
    (fresh : ∀ other ∈ w.pushed, other.dispatch ≠ item.dispatch) :
    ((w.cqPush item).pushed.map CqItem.dispatch).Nodup := by
  have whole : (w.cqPush item).pushed.map CqItem.dispatch = w.pushed.map CqItem.dispatch ++ [item.dispatch] := by
    simp [Worker.cqPush]
  have new : item.dispatch ∉ w.pushed.map CqItem.dispatch := by
    intro old
    obtain ⟨other,member,same⟩ := List.mem_map.mp old
    exact fresh other member same
  rw [whole,← List.concat_eq_append]
  exact List.Nodup.concat new distinct

/-- The hand-off of every worker, and the numbers that tell the items apart. -/
structure Dispatched (s : Process) : Prop where
  threads : ∀ t, (s.workers t).threadId = t
  handoff : ∀ t, Handoff (s.main.unnotified t) (s.workers t)
  numbered : ∀ t, ∀ item ∈ (s.workers t).pushed, item.dispatch < s.dispatches
  apart : ∀ t t', ∀ item ∈ (s.workers t).pushed, ∀ other ∈ (s.workers t').pushed,
    item.dispatch = other.dispatch → t = t'
  distinct : ∀ t, ((s.workers t).pushed.map CqItem.dispatch).Nodup
  fresh : ∀ tid item, s.main = .push tid item → item.dispatch < s.dispatches ∧
    ∀ t, ∀ other ∈ (s.workers t).pushed, other.dispatch ≠ item.dispatch
  exits : s.exited = true ↔ ∃ t item, (s.workers t).pc = .exited item

namespace Dispatched

variable {s : Process}

theorem start (begun : s.Started) : Dispatched s := by
  obtain ⟨_,_,_,workers,main,_,_,exited⟩ := begun
  exact {
    threads := by simp [workers,newWorker]
    handoff := fun t => by
      rw [workers,main]
      exact ⟨rfl,rfl,rfl,rfl,rfl,by simp [newWorker],by simp [newWorker]⟩
    numbered := by simp [workers,newWorker]
    apart := by simp [workers,newWorker]
    distinct := by simp [workers,newWorker]
    fresh := by simp [main]
    exits := by simp [workers,newWorker,exited] }

theorem running (before : Dispatched s) (on : s.exited = false) (t : Nat) (item : CqItem) :
    (s.workers t).pc ≠ .exited item := by
  intro here
  have off := before.exits.mpr ⟨t,item,here⟩
  rw [on] at off
  cases off

theorem stays (before : Dispatched s) (on : s.exited = false) (tid : Nat) :
    s.exited = true ↔ ∃ item, (s.workers tid).pc = .exited item := by
  simp only [on,Bool.false_eq_true,false_iff]
  exact fun ⟨item,there⟩ => before.running on tid item there

theorem exits_update (before : Dispatched s) (on : s.exited = false) (tid : Nat) (w : Worker) (exited : Bool)
    (exits : exited = true ↔ ∃ item, w.pc = .exited item) :
    exited = true ↔ ∃ t item, ((s.setWorker tid w).workers t).pc = .exited item := by
  constructor
  · intro off
    obtain ⟨item,here⟩ := exits.mp off
    exact ⟨tid,item,by simpa [Process.setWorker] using here⟩
  · rintro ⟨t,item,there⟩
    by_cases here : t = tid
    · subst here
      exact exits.mpr ⟨item,by simpa [Process.setWorker] using there⟩
    · simp only [Process.setWorker,Function.update_of_ne here] at there
      exact absurd there (before.running on t item)

/-- A worker that keeps its identity and what was pushed to it may change in any way that keeps its hand-off. -/
theorem setWorker (before : Dispatched s) (on : s.exited = false) (tid : Nat) (w : Worker) (main : MainPc)
    (exited : Bool) (same : w.threadId = (s.workers tid).threadId ∧ w.pushed = (s.workers tid).pushed)
    (kept : Handoff (main.unnotified tid) w)
    (others : ∀ t, t ≠ tid → main.unnotified t = s.main.unnotified t)
    (fresh : ∀ t item, main = .push t item → s.main = .push t item)
    (exits : exited = true ↔ ∃ item, w.pc = .exited item) :
    Dispatched { s.setWorker tid w with main := main, exited := exited } := by
  have pushed := s.setWorker_pushed same.2
  refine {
    threads := fun t => ?_
    handoff := fun t => ?_
    numbered := fun t item => by rw [pushed]; exact before.numbered t item
    apart := fun t t' => by simp only [pushed]; exact before.apart t t'
    distinct := fun t => by rw [pushed]; exact before.distinct t
    fresh := fun t item here => ⟨(before.fresh t item (fresh t item here)).1,fun t' => by
      rw [pushed]
      exact (before.fresh t item (fresh t item here)).2 t'⟩
    exits := before.exits_update on tid w exited exits }
  · by_cases here : t = tid
    · simp only [here,s.setWorker_self,same.1,before.threads]
    · simp only [s.setWorker_other w here,before.threads]
  · by_cases here : t = tid
    · simp only [here,s.setWorker_self]
      exact kept
    · simp only [s.setWorker_other w here,others t here]
      exact before.handoff t

theorem dispatchConnNew (before : Dispatched s) (idle : s.main = .idle) (q : Request) (allocated : Bool) :
    Dispatched (s.dispatchConnNew q allocated) := by
  cases allocated with
  | false => exact { before with }
  | true =>
    have quiet (t : Nat) : s.main.unnotified t = 0 := by simp [idle,MainPc.unnotified]
    refine { before with
      handoff := fun t => ?_
      numbered := fun t item member => Nat.lt_succ_of_lt (before.numbered t item member)
      fresh := ?_ }
    · have kept := before.handoff t
      rw [quiet] at kept
      exact kept
    · rintro tid item here
      cases here
      exact ⟨Nat.lt_succ_self _,fun t other member => (before.numbered t other member).ne⟩

theorem cqPush (before : Dispatched s) (on : s.exited = false) (tid : Nat) (item : CqItem)
    (here : s.main = .push tid item) :
    Dispatched { s.setWorker tid ((s.workers tid).cqPush item) with main := .notify tid } := by
  obtain ⟨bound,fresh⟩ := before.fresh tid item here
  have quiet (t : Nat) : s.main.unnotified t = 0 := by simp [here,MainPc.unnotified]
  refine {
    threads := fun t => ?_
    handoff := fun t => ?_
    numbered := fun t other member => ?_
    apart := fun t t' one member other member' same => ?_
    distinct := fun t => ?_
    fresh := by simp
    exits := ?_ }
  · by_cases same : t = tid
    · subst same
      simp only [s.setWorker_self]
      exact before.threads t
    · simp only [s.setWorker_other _ same,before.threads]
  · have kept := before.handoff t
    rw [quiet] at kept
    by_cases same : t = tid
    · subst same
      simp only [s.setWorker_self,MainPc.unnotified,if_true]
      exact kept.cqPush item
    · simp only [s.setWorker_other _ same,MainPc.unnotified,MainPc.notify.injEq,Ne.symm same,if_false]
      exact kept
  · rcases Process.mem_cqPush member with old | ⟨_,rfl⟩
    · exact before.numbered t other old
    · exact bound
  · rcases Process.mem_cqPush member with old | ⟨rfl,rfl⟩
    · rcases Process.mem_cqPush member' with old' | ⟨_,rfl⟩
      · exact before.apart t t' one old other old' same
      · exact absurd same (fresh t one old)
    · rcases Process.mem_cqPush member' with old' | ⟨rfl,_⟩
      · exact absurd same.symm (fresh t' other old')
      · rfl
  · by_cases same : t = tid
    · subst same
      simp only [s.setWorker_self]
      exact (s.workers t).cqPush_nodup item (before.distinct t) (fresh t)
    · simp only [s.setWorker_other _ same]
      exact before.distinct t
  · exact before.exits_update on tid _ s.exited (before.stays on tid)

theorem notify (before : Dispatched s) (on : s.exited = false) (tid : Nat) (here : s.main = .notify tid)
    (written : Bool) : Dispatched (s.notify tid written) := by
  have kept : Handoff 1 (s.workers tid) := by simpa [here,MainPc.unnotified] using before.handoff tid
  have quiet : ∀ t, t ≠ tid → MainPc.idle.unnotified t = s.main.unnotified t := by
    intro t other
    simp [here,MainPc.unnotified,Ne.symm other]
  have stays := before.stays on tid
  cases written with
  | true => exact before.setWorker on tid _ .idle s.exited ⟨rfl,rfl⟩ kept.written quiet (by simp) stays
  | false => exact before.setWorker on tid _ .idle s.exited ⟨rfl,rfl⟩ kept.unwritten quiet (by simp) stays

theorem advance (before : Dispatched s) (on : s.exited = false) (tid : Nat) (made : Bool) :
    Dispatched (s.advance tid made) := by
  refine before.setWorker on tid _ s.main _ ((s.workers tid).advance_frame made)
    ((before.handoff tid).advance made) (fun _ _ => rfl) (fun _ _ same => same) ?_
  cases ((s.workers tid).advance made).pc <;> simp

theorem step (before : Dispatched s) (l : Label) (t : Process) (ok : Memcached.step s l = some t) :
    Dispatched t := by
  obtain ⟨on,move⟩ := step_processMove ok
  have stays := before.stays on
  cases move with
  | dispatch q allocated idle => exact before.dispatchConnNew idle q allocated
  | push tid item here => exact before.cqPush on tid item here
  | notify tid written here => exact before.notify on tid here written
  | tell tid b other =>
    exact before.setWorker on tid _ s.main s.exited ⟨rfl,rfl⟩ ((before.handoff tid).tell other)
      (fun _ _ => rfl) (fun _ _ same => same) (stays tid)
  | read tid b rest waiting pipe =>
    refine before.setWorker on tid _ s.main s.exited ⟨rfl,rfl⟩ ((before.handoff tid).read waiting pipe)
      (fun _ _ => rfl) (fun _ _ same => same) ?_
    simp [on,Worker.read]
  | advance tid made => exact before.advance on tid made

end Dispatched

theorem reachable_dispatched (s : Process) (reached : Reachable Process.Started step s) : Dispatched s :=
  reached.invariant Dispatched (fun _ begun => .start begun) (fun _ l t before ok => before.step l t ok)

theorem Worker.advance_rank (w : Worker) (made : Bool) (busy : 0 < w.pc.rank) :
    (w.advance made).pc.rank < w.pc.rank := by
  have move := w.advance_move made
  generalize w.advance made = u at move ⊢
  cases move with
  | still done => rcases done with here | ⟨item,here⟩ <;> simp [here,WorkerPc.rank] at busy
  | null here queue => simp [here,WorkerPc.rank]
  | pop item rest here queue => simp [here,WorkerPc.rank]
  | flip buf lock registrations here other => simp [here,WorkerPc.rank]
  | settle item o here kind => simp [here,WorkerPc.rank]
  | exit item here null transport => simp [here,WorkerPc.rank]
  | free item here => simp [here,WorkerPc.rank]

/-- A worker that is in the middle of the callback gets to its end, unless the process exits. -/
theorem callback_returns (s : Process) (before : Dispatched s) (on : s.exited = false) (tid : Nat) (made : Bool) :
    ∃ k ≤ (s.workers tid).pc.rank, ∃ u, Run step s (List.replicate k (.advance tid made)) u ∧
      ((u.workers tid).pc = .waiting ∨ u.exited = true) := by
  induction rank : (s.workers tid).pc.rank using Nat.strong_induction_on generalizing s with
  | _ n ih =>
    by_cases waiting : (s.workers tid).pc = .waiting
    · exact ⟨0,Nat.zero_le _,s,.nil s,.inl waiting⟩
    · have busy : 0 < (s.workers tid).pc.rank := by
        cases here : (s.workers tid).pc with
        | waiting => exact absurd here waiting
        | exited item => exact absurd here (before.running on tid item)
        | switch | connNew | free => simp [WorkerPc.rank]
      have ok : step s (.advance tid made) = some (s.advance tid made) := by
        simp [step,on,waiting]
      have less : ((s.advance tid made).workers tid).pc.rank < n := by
        have inside : (s.advance tid made).workers tid = (s.workers tid).advance made := by
          simp [Process.advance,Process.setWorker]
        rw [inside,← rank]
        exact (s.workers tid).advance_rank made busy
      cases off : (s.advance tid made).exited with
      | true => exact ⟨1,by omega,_,.single ok,.inr off⟩
      | false =>
        obtain ⟨k,bound,u,run,done⟩ := ih _ less _ (before.step _ _ ok) off rfl
        exact ⟨k+1,by omega,u,.cons _ _ _ _ _ ok run,done⟩

/-- Connections are handed to the workers exactly once. The one exception is a UDP
socket for which `conn_new` fails: the process exits with that item in hand. -/
theorem handed_off_once (s : Process) (reached : Reachable Process.Started step s) (t : Nat) :
    (s.workers t).pushed = (s.workers t).popped ++ (s.workers t).newConnQueue ∧
      ((s.workers t).popped.map CqItem.dispatch).Nodup ∧
      (∀ item ∈ (s.workers t).popped, ∀ t' ≠ t, ∀ other ∈ (s.workers t').pushed,
        other.dispatch ≠ item.dispatch) ∧
      ((s.workers t).pc = .switch 'c'.toUInt8 → (s.workers t).newConnQueue ≠ []) ∧
      (s.workers t).pops = (s.workers t).popped.length ∧
      (s.workers t).popped = (s.workers t).outcomes.map Prod.fst ++ (s.workers t).pc.unsettled ∧
      (∀ o ∈ (s.workers t).outcomes,
        (∃ c, o.2 = .conn c ∧ c.sfd = o.1.sfd ∧ c.thread = t) ∨ o.2 = .closed o.1.sfd) ∧
      (s.workers t).popped = (s.workers t).freed ++ (s.workers t).pc.inHand ∧
      (s.workers t).newConnQueue.length = (s.workers t).pipe.count 'c'.toUInt8 +
        (s.workers t).failedWrites + s.main.unnotified t + (s.workers t).pc.unpopped ∧
      (s.exited = true ↔ ∃ t item, (s.workers t).pc = .exited item) ∧
      (∀ item, (s.workers t).pc = .exited item → item.transport = .udp) ∧
      (s.exited = false → ∀ made, ∃ k ≤ 3, ∃ u, Run step s (List.replicate k (.advance t made)) u ∧
        (((u.workers t).pc = .waiting ∧ (u.workers t).popped = (u.workers t).outcomes.map Prod.fst ∧
          (u.workers t).popped = (u.workers t).freed) ∨ u.exited = true)) := by
  have inv := reachable_dispatched s reached
  have worker := inv.handoff t
  have split := worker.queue
  have distinct := inv.distinct t
  rw [split,List.map_append] at distinct
  refine ⟨split,(List.nodup_append.mp distinct).1,?_,worker.nonempty,worker.pops,worker.settled,?_,worker.freed,
    worker.notified,inv.exits,worker.udp,?_⟩
  · intro item popped t' other it member same
    have pushed : item ∈ (s.workers t).pushed := by rw [split]; exact List.mem_append_left _ popped
    exact other (inv.apart t' t it member item pushed same)
  · intro o member
    rcases worker.owned o member with conn | closed
    · exact .inl ⟨_,conn,rfl,inv.threads t⟩
    · exact .inr closed
  · intro on made
    obtain ⟨k,bound,u,run,done⟩ := callback_returns s inv on t made
    have three : (s.workers t).pc.rank ≤ 3 := by cases (s.workers t).pc <;> simp [WorkerPc.rank]
    refine ⟨k,bound.trans three,u,run,done.imp_left (fun waiting => ?_)⟩
    have after := (reachable_dispatched u (reached.run run)).handoff t
    refine ⟨waiting,?_,?_⟩
    · simpa [waiting,WorkerPc.unsettled] using after.settled
    · simpa [waiting,WorkerPc.inHand] using after.freed

def started (n : Nat) : Process := ⟨n,-1,newWorker,.idle,0,[],false⟩

theorem started_Started (n : Nat) (some : 0 < n) : (started n).Started :=
  ⟨some,le_refl _,by simp only [started]; omega,rfl,rfl,rfl,rfl,rfl⟩

/-- One descriptor is handed over with everything going well, for a second one the write
fails, and the worker has been told to flip its lock type in between. -/
def twoDispatches : List Label :=
  [.dispatch ⟨11,.newCmd,18,2048,.tcp⟩ true,.push,.notify true,.tell 0 'g'.toUInt8,.read 0,
    .dispatch ⟨12,.newCmd,18,2048,.tcp⟩ true,.advance 0 true,.push,.notify false,.advance 0 true,.advance 0 true]

theorem handed_off_once_twoDispatches :
    Reachable Process.Started step (final step (started 1) twoDispatches) ∧
      ((final step (started 1) twoDispatches).workers 0).newConnQueue.length = 1 := by
  have reached : Reachable Process.Started step (final step (started 1) twoDispatches) :=
    (Reachable.start (started_Started 1 Nat.one_pos)).run (final_run _ _ _ (by decide +kernel))
  refine ⟨reached,?_⟩
  rw [(handed_off_once _ reached 0).2.2.2.2.2.2.2.2.1]
  decide +kernel

def udpFails : List Label :=
  [.dispatch ⟨11,.read,18,65536,.udp⟩ true,.push,.notify true,.read 0,.advance 0 true,.advance 0 false]

/-- The descriptor of a popped item ends up nowhere and the item is never freed. -/
theorem udp_exit_keeps_item :
    ∃ s, Reachable Process.Started step s ∧ ∃ item ∈ (s.workers 0).popped, ∀ ls u, Run step s ls u →
      item ∉ (u.workers 0).outcomes.map Prod.fst ∧ item ∉ (u.workers 0).freed := by
  have exited : (final step (started 1) udpFails).exited = true := by decide +kernel
  refine ⟨final step (started 1) udpFails,
    (Reachable.start (started_Started 1 Nat.one_pos)).run (final_run _ _ _ (by decide +kernel)),
    ⟨0,11,.read,18,65536,.udp⟩,by decide +kernel,fun ls u run => ?_⟩
  cases run with
  | nil => decide +kernel
  | cons _ l t _ _ head tail => simp [step,exited] at head

end Reactor.Memcached
