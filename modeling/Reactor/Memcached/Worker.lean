import Reactor.Transition
import Mathlib.Tactic.Common

/-! A worker thread of memcached: the queue of new connections, the notify pipe
and the callback `thread_libevent_process`. The callback is cut where other
threads can act in between: after the read, after `cq_pop`, after `conn_new`. -/
namespace Reactor.Memcached
open Reactor.Transition

/-- The states that `drive_machine` switches on. -/
inductive ConnState
  | listening | waiting | read | parseCmd | newCmd | nread | swallow | write | closing | closed | maxState
deriving DecidableEq

inductive NetworkTransport
  | tcp | udp
deriving DecidableEq

def NetworkTransport.isUdp : NetworkTransport → Bool
  | .tcp => false
  | .udp => true

/-- Descriptors and freed items come back, so that an item also carries the number of its dispatch. -/
structure CqItem where
  dispatch : Nat
  sfd : Int
  initState : ConnState
  eventFlags : Int
  readBufferSize : Int
  transport : NetworkTransport
deriving DecidableEq

structure Conn where
  sfd : Int
  initState : ConnState
  eventFlags : Int
  readBufferSize : Int
  transport : NetworkTransport
  thread : Nat
deriving DecidableEq

inductive Outcome
  | conn (c : Conn)
  | closed (sfd : Int)
deriving DecidableEq

inductive ItemLockType
  | granular | global
deriving DecidableEq

inductive WorkerPc
  | waiting
  | switch (buf : UInt8)
  | connNew (item : CqItem)
  | free (item : CqItem)
  | exited (item : CqItem)
deriving DecidableEq

/-- The last seven fields record what happened; no branch of the code depends on them. -/
structure Worker where
  threadId : Nat
  pc : WorkerPc
  pipe : List UInt8
  newConnQueue : List CqItem
  itemLockType : ItemLockType
  pushed : List CqItem
  failedWrites : Nat
  pops : Nat
  popped : List CqItem
  outcomes : List (CqItem × Outcome)
  freed : List CqItem
  registrations : Nat
deriving DecidableEq

def newWorker (t : Nat) : Worker :=
  ⟨t,.waiting,[],[],.granular,[],0,0,[],[],[],0⟩

/-- The result of `read(fd, buf, 1)`; a read that fails leaves the buffer as the stack had it. -/
inductive Read
  | byte (b : UInt8)
  | failed (buf : UInt8)
deriving DecidableEq

def Read.buf : Read → UInt8
  | .byte b => b
  | .failed buf => buf

namespace Worker

def cqPush (w : Worker) (item : CqItem) : Worker :=
  { w with newConnQueue := w.newConnQueue ++ [item], pushed := w.pushed ++ [item] }

-- the error branch logs and falls through to the switch
def read (w : Worker) (r : Read) : Worker :=
  { w with pc := .switch r.buf }

def cqPop (w : Worker) : Worker :=
  match w.newConnQueue with
  | [] => { w with pc := .waiting, pops := w.pops+1 }
  | item::rest =>
    { w with
      pc := .connNew item, newConnQueue := rest, pops := w.pops+1, popped := w.popped ++ [item] }

def flip (w : Worker) (lock : ItemLockType) : Worker :=
  { w with pc := .waiting, itemLockType := lock, registrations := w.registrations+1 }

def switch (w : Worker) (buf : UInt8) : Worker :=
  if buf = 'c'.toUInt8 then w.cqPop
  else if buf = 'l'.toUInt8 then w.flip .granular
  else if buf = 'g'.toUInt8 then w.flip .global
  else { w with pc := .waiting }

def owning (w : Worker) (item : CqItem) : Conn :=
  ⟨item.sfd,item.initState,item.eventFlags,item.readBufferSize,item.transport,w.threadId⟩

def connNew (w : Worker) (item : CqItem) (made : Bool) : Worker :=
  if made then
    { w with pc := .free item, outcomes := w.outcomes ++ [(item,.conn (w.owning item))] }
  else if item.transport.isUdp then { w with pc := .exited item }
  else { w with pc := .free item, outcomes := w.outcomes ++ [(item,.closed item.sfd)] }

def cqiFree (w : Worker) (item : CqItem) : Worker :=
  { w with pc := .waiting, freed := w.freed ++ [item] }

/-- The next piece of the callback; `made` says whether `conn_new` returns a connection. -/
def advance (w : Worker) (made : Bool) : Worker :=
  match w.pc with
  | .waiting | .exited _ => w
  | .switch buf => w.switch buf
  | .connNew item => w.connNew item made
  | .free item => w.cqiFree item

/-- The whole of `thread_libevent_process`. -/
def threadLibeventProcess (w : Worker) (r : Read) (made : Bool) : Worker :=
  (((w.read r).advance made).advance made).advance made

end Worker

/-- What happens to a single worker between whole callbacks. -/
inductive Notice
  | push (item : CqItem)
  | process (r : Read) (made : Bool)
deriving DecidableEq

def noticeStep (w : Worker) : Notice → Option Worker
  | .push item => some (w.cqPush item)
  | .process r made => if w.pc = .waiting then some (w.threadLibeventProcess r made) else none

def Notice.received : Notice → Option UInt8
  | .process (.byte b) _ => some b
  | _ => none

def Notice.left : Notice → Option UInt8
  | .process (.failed buf) _ => some buf
  | _ => none

def isFlip (b : UInt8) : Bool := b = 'l'.toUInt8 || b = 'g'.toUInt8

def requested (lock : ItemLockType) (b : UInt8) : ItemLockType :=
  if b = 'l'.toUInt8 then .granular else if b = 'g'.toUInt8 then .global else lock

/-- The bytes that the switch knows. -/
def isCommand (b : UInt8) : Bool := b = 'c'.toUInt8 || isFlip b

theorem commands_differ : 'l'.toUInt8 ≠ 'c'.toUInt8 ∧ 'g'.toUInt8 ≠ 'c'.toUInt8 ∧ 'g'.toUInt8 ≠ 'l'.toUInt8 := by
  decide

namespace Worker

/-- What one piece of the callback does to the worker. -/
inductive Advance (w : Worker) (made : Bool) : Worker → Prop
  | still (done : w.pc = .waiting ∨ ∃ item, w.pc = .exited item) : Advance w made w
  | null (here : w.pc = .switch 'c'.toUInt8) (queue : w.newConnQueue = []) :
      Advance w made { w with pc := .waiting, pops := w.pops+1 }
  | pop (item : CqItem) (rest : List CqItem) (here : w.pc = .switch 'c'.toUInt8)
      (queue : w.newConnQueue = item::rest) : Advance w made { w with
        pc := .connNew item, newConnQueue := rest, pops := w.pops+1, popped := w.popped ++ [item] }
  | flip (buf : UInt8) (lock : ItemLockType) (registrations : Nat) (here : w.pc = .switch buf)
      (other : buf ≠ 'c'.toUInt8) : Advance w made { w with
        pc := .waiting, itemLockType := lock, registrations := registrations }
  | settle (item : CqItem) (o : Outcome) (here : w.pc = .connNew item)
      (kind : o = .conn (w.owning item) ∨ o = .closed item.sfd) : Advance w made { w with
        pc := .free item, outcomes := w.outcomes ++ [(item,o)] }
  | exit (item : CqItem) (here : w.pc = .connNew item) (null : made = false)
      (transport : item.transport = .udp) : Advance w made { w with pc := .exited item }
  | free (item : CqItem) (here : w.pc = .free item) :
      Advance w made { w with pc := .waiting, freed := w.freed ++ [item] }

theorem connNew_advance (w : Worker) (made : Bool) (item : CqItem) (here : w.pc = .connNew item) :
    Advance w made (w.connNew item made) := by
  cases made with
  | true => exact .settle item _ here (.inl rfl)
  | false =>
    cases transport : item.transport with
    | tcp =>
      rw [connNew,if_neg Bool.false_ne_true,if_neg (by simp [transport,NetworkTransport.isUdp])]
      exact .settle item _ here (.inr rfl)
    | udp =>
      rw [connNew,if_neg Bool.false_ne_true,if_pos (by simp [transport,NetworkTransport.isUdp])]
      exact .exit item here rfl transport

theorem switch_advance (w : Worker) (made : Bool) (buf : UInt8) (here : w.pc = .switch buf) :
    Advance w made (w.switch buf) := by
  unfold switch
  by_cases isConn : buf = 'c'.toUInt8
  · subst isConn
    rw [if_pos rfl]
    unfold cqPop
    split
    · exact .null here (by assumption)
    · exact .pop _ _ here (by assumption)
  · rw [if_neg isConn]
    split_ifs
    · exact .flip buf _ _ here isConn
    · exact .flip buf _ _ here isConn
    · exact .flip buf w.itemLockType w.registrations here isConn

theorem advance_move (w : Worker) (made : Bool) : Advance w made (w.advance made) := by
  unfold advance
  cases here : w.pc with
  | waiting => exact .still (.inl here)
  | exited item => exact .still (.inr ⟨item,here⟩)
  | switch buf => exact w.switch_advance made buf here
  | connNew item => exact w.connNew_advance made item here
  | free item => exact .free item here

/-- After the switch no piece of the callback pops, flips the lock type or reports in. -/
theorem advance_settles (w : Worker) (made : Bool) (past : ∀ buf, w.pc ≠ .switch buf) :
    (w.advance made).pops = w.pops ∧ (w.advance made).itemLockType = w.itemLockType ∧
      (w.advance made).registrations = w.registrations ∧ ∀ buf, (w.advance made).pc ≠ .switch buf := by
  have move := w.advance_move made
  generalize w.advance made = u at move ⊢
  cases move with
  | still done => exact ⟨rfl,rfl,rfl,past⟩
  | null here queue => exact absurd here (past _)
  | pop item rest here queue => exact absurd here (past _)
  | flip buf lock registrations here other => exact absurd here (past _)
  | settle item o here kind => simp
  | exit item here null transport => simp
  | free item here => simp

theorem switch_effect (w : Worker) (buf : UInt8) :
    (w.switch buf).pops = w.pops + (if buf = 'c'.toUInt8 then 1 else 0) ∧
      (w.switch buf).itemLockType = requested w.itemLockType buf ∧
      (w.switch buf).registrations = w.registrations + (if isFlip buf then 1 else 0) ∧
      ∀ b, (w.switch buf).pc ≠ .switch b := by
  obtain ⟨granular,global,flips⟩ := commands_differ
  unfold switch
  by_cases isConn : buf = 'c'.toUInt8
  · subst isConn
    have pop : w.cqPop.pops = w.pops+1 ∧ w.cqPop.itemLockType = w.itemLockType ∧
        w.cqPop.registrations = w.registrations ∧ ∀ b, w.cqPop.pc ≠ .switch b := by
      unfold cqPop
      split <;> simp
    simpa [requested,isFlip,granular.symm,global.symm] using pop
  · by_cases isGranular : buf = 'l'.toUInt8
    · subst isGranular
      simp [flip,requested,isFlip,granular]
    · by_cases isGlobal : buf = 'g'.toUInt8
      · subst isGlobal
        simp [flip,requested,isFlip,global,flips]
      · simp [isConn,isGranular,isGlobal,requested,isFlip]

theorem process_effect (w : Worker) (r : Read) (made : Bool) :
    (w.threadLibeventProcess r made).pops = w.pops + (if r.buf = 'c'.toUInt8 then 1 else 0) ∧
      (w.threadLibeventProcess r made).itemLockType = requested w.itemLockType r.buf ∧
      (w.threadLibeventProcess r made).registrations = w.registrations + (if isFlip r.buf then 1 else 0) := by
  have first := switch_effect (w.read r) r.buf
  have second := advance_settles ((w.read r).switch r.buf) made first.2.2.2
  have third := advance_settles (((w.read r).switch r.buf).advance made) made second.2.2.2
  have whole : w.threadLibeventProcess r made =
      (((w.read r).switch r.buf).advance made).advance made := rfl
  rw [whole]
  exact ⟨by rw [third.1,second.1,first.1]; rfl,by rw [third.2.1,second.2.1,first.2.1]; rfl,
    by rw [third.2.2.1,second.2.2.1,first.2.2.1]; rfl⟩

theorem process_ignores (w : Worker) (r : Read) (made : Bool) (waiting : w.pc = .waiting)
    (unknown : isCommand r.buf = false) : w.threadLibeventProcess r made = w := by
  obtain ⟨notConn,notFlip⟩ : r.buf ≠ 'c'.toUInt8 ∧ isFlip r.buf = false := by
    simpa [isCommand] using unknown
  obtain ⟨notGranular,notGlobal⟩ : r.buf ≠ 'l'.toUInt8 ∧ r.buf ≠ 'g'.toUInt8 := by
    simpa [isFlip] using notFlip
  have same : { w with pc := WorkerPc.waiting } = w := by rw [← waiting]
  have first : (w.read r).advance made = w := by
    simp [read,advance,switch,notConn,notGranular,notGlobal,same]
  have idle : w.advance made = w := by simp [advance,waiting]
  rw [threadLibeventProcess,first,idle,idle]

end Worker

/-- Over a whole sequence the bytes left on the stack count like those that were read. -/
theorem notices_count (w u : Worker) (ls : List Notice) (run : Run noticeStep w ls u) :
    u.pops = w.pops + (ls.filterMap Notice.received).count 'c'.toUInt8 +
        (ls.filterMap Notice.left).count 'c'.toUInt8 ∧
      u.registrations = w.registrations + (ls.filterMap Notice.received).countP isFlip +
        (ls.filterMap Notice.left).countP isFlip := by
  induction run with
  | nil => simp
  | cons w l t ls u head tail ih =>
    cases l with
    | push item =>
      cases Option.some.inj head
      exact ih
    | process r made =>
      obtain ⟨_,rfl⟩ : w.pc = .waiting ∧ w.threadLibeventProcess r made = t := by
        simpa [noticeStep] using head
      have count (b : UInt8) (bs : List UInt8) : (b::bs).count 'c'.toUInt8 =
          bs.count 'c'.toUInt8 + (if b = 'c'.toUInt8 then 1 else 0) := by simp [List.count_cons]
      cases r with
      | byte b =>
        have effect : _ = w.pops + (if b = 'c'.toUInt8 then 1 else 0) ∧
            _ ∧ _ = w.registrations + (if isFlip b then 1 else 0) := w.process_effect (.byte b) made
        simp only [Notice.received,Notice.left,List.filterMap_cons,count,List.countP_cons]
        omega
      | failed buf =>
        have effect : _ = w.pops + (if buf = 'c'.toUInt8 then 1 else 0) ∧
            _ ∧ _ = w.registrations + (if isFlip buf then 1 else 0) := w.process_effect (.failed buf) made
        simp only [Notice.received,Notice.left,List.filterMap_cons,count,List.countP_cons]
        omega

theorem notices_ignore (w u : Worker) (ls : List Notice) (run : Run noticeStep w ls u)
    (unknown : ∀ b ∈ ls.filterMap Notice.left, isCommand b = false) :
    u.itemLockType = (ls.filterMap Notice.received).foldl requested w.itemLockType ∧
      Along noticeStep (fun s l => l.left.isSome → noticeStep s l = some s) w ls := by
  induction run with
  | nil => exact ⟨rfl,trivial⟩
  | cons w l t ls u head tail ih =>
    have rest := ih (fun b member => unknown b (by
      cases here : l.left <;> simp [here,member]))
    have next : ∀ s, noticeStep w l = some s →
        Along noticeStep (fun s l => l.left.isSome → noticeStep s l = some s) s ls := by
      intro s ok
      cases Option.some.inj (head.symm.trans ok)
      exact rest.2
    cases l with
    | push item =>
      cases Option.some.inj head
      exact ⟨rest.1,(fun left => by cases left),next⟩
    | process r made =>
      obtain ⟨waiting,rfl⟩ : w.pc = .waiting ∧ w.threadLibeventProcess r made = t := by
        simpa [noticeStep] using head
      cases r with
      | byte b =>
        rw [(w.process_effect (.byte b) made).2.1] at rest
        exact ⟨rest.1,(fun left => by cases left),next⟩
      | failed buf =>
        have same := w.process_ignores (.failed buf) made waiting (unknown buf (by simp [Notice.left]))
        rw [same] at rest head
        exact ⟨rest.1,(fun _ => head),next⟩

/-- A worker acts on exactly the bytes it received if and only if no failed read
leaves one of the switch's bytes in the buffer. -/
theorem acts_on_received_bytes (w u : Worker) (ls : List Notice) (run : Run noticeStep w ls u) :
    (u.pops = w.pops + (ls.filterMap Notice.received).count 'c'.toUInt8 ∧
      u.itemLockType = (ls.filterMap Notice.received).foldl requested w.itemLockType ∧
      u.registrations = w.registrations + (ls.filterMap Notice.received).countP isFlip ∧
      Along noticeStep (fun s l => l.left.isSome → noticeStep s l = some s) w ls) ↔
    ∀ b ∈ ls.filterMap Notice.left, isCommand b = false := by
  obtain ⟨pops,registrations⟩ := notices_count w u ls run
  constructor
  · rintro ⟨exactPops,_,exactRegistrations,_⟩ b left
    have noConn : (ls.filterMap Notice.left).count 'c'.toUInt8 = 0 := by omega
    have noFlip : (ls.filterMap Notice.left).countP isFlip = 0 := by omega
    have notConn : b ≠ 'c'.toUInt8 := fun same => List.count_eq_zero.mp noConn (same ▸ left)
    simpa [isCommand,notConn] using List.countP_eq_zero.mp noFlip b left
  · intro unknown
    obtain ⟨lock,along⟩ := notices_ignore w u ls run unknown
    have noConn : (ls.filterMap Notice.left).count 'c'.toUInt8 = 0 :=
      List.count_eq_zero.mpr (fun left => by simpa [isCommand] using unknown _ left)
    have noFlip : (ls.filterMap Notice.left).countP isFlip = 0 := by
      refine List.countP_eq_zero.mpr (fun b left flips => ?_)
      simpa [isCommand,flips] using unknown b left
    exact ⟨by omega,lock,by omega,along⟩

def firstItem (transport : NetworkTransport) : CqItem := ⟨0,11,.newCmd,18,2048,transport⟩

def receivedThenFailed : List Notice :=
  [.push (firstItem .tcp),.process (.byte 'c'.toUInt8) true,.process (.failed 0) true]

theorem acts_on_received_bytes_then_failed :
    (∀ b ∈ receivedThenFailed.filterMap Notice.left, isCommand b = false) ∧
      (final noticeStep (newWorker 0) receivedThenFailed).pops = 1 := by
  have run := final_run noticeStep (newWorker 0) receivedThenFailed (by decide +kernel)
  have unknown : ∀ b ∈ receivedThenFailed.filterMap Notice.left, isCommand b = false := by decide +kernel
  exact ⟨unknown,((acts_on_received_bytes _ _ _ run).mpr unknown).1⟩

/-- Nothing was read, and the worker takes a connection and reports in all the same. -/
theorem failed_reads_act :
    ∃ ls u, Run noticeStep (newWorker 0) ls u ∧ ls.filterMap Notice.received = [] ∧
      u.pops = 1 ∧ u.popped = [firstItem .tcp] ∧ u.itemLockType = .global ∧ u.registrations = 1 :=
  ⟨[.push (firstItem .tcp),.process (.failed 'c'.toUInt8) true,.process (.failed 'g'.toUInt8) true],_,
    final_run noticeStep (newWorker 0) _ (by decide +kernel),by decide +kernel⟩

end Reactor.Memcached
