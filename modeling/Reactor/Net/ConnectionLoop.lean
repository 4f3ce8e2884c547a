import Reactor.Net.Functors
import Reactor.Net.TcpConnection

/-! A connection in its loop. Any thread may call `send`, `shutdown` and `forceClose`; in a
foreign thread the test of `state_`, the change of `state_` and the push are separate steps. -/
namespace Reactor.Net
open Reactor.Transition

/-- A call of `send` that found the connection in `kConnected`. -/
structure Sent where
  thread : Nat
  message : List UInt8
  deriving DecidableEq, Repr

def SendRun.sent (r : SendRun) : Sent := ⟨r.thread,r.message⟩

/-- The calls that set `kDisconnecting` and leave the rest to the loop. -/
inductive Close
  | shutdown
  | forceClose
  deriving DecidableEq, Repr

def Close.functor : Close → ConnFunctor
  | .shutdown => .shutdownInLoop
  | .forceClose => .forceCloseInLoop

/-- What a foreign thread has still to do: push `sendInLoop`, or set `kDisconnecting` and push. -/
inductive CallPc
  | send (message : List UInt8)
  | close (k : Close)
  | closing (k : Close)
  deriving DecidableEq, Repr

structure ConnCall where
  thread : Nat
  pc : CallPc
  deriving DecidableEq, Repr

structure ConnLoop where
  loop : EventLoop ConnFunctor
  conn : TcpConnection
  calls : List ConnCall
  sent : List Sent

inductive ConnLabel
  | loop (l : LoopLabel ConnFunctor)
  | run (w : Write)
  | runInLoop (t : Nat) (f : ConnFunctor)
  | send (t : Nat) (message : List UInt8) (w : Write)
  | shutdown (t : Nat)
  | forceClose (t : Nat)
  | setState (t : Nat)
  | push (t : Nat)
  | handleRead (n : Int)
  | handleWrite (w : Write)
  | handleClose
  deriving DecidableEq, Repr

/-- Functors that anybody may give to the loop. -/
def ConnFunctor.free : ConnFunctor → Bool
  | .startReadInLoop | .stopReadInLoop | .connectEstablished | .connectDestroyed | .other => true
  | _ => false

/-- The number of bytes given to `write`, if it is called. -/
def ConnFunctor.len : ConnFunctor → Nat
  | .sendInLoop message => message.length
  | _ => 0

namespace ConnLoop

def ready (s : ConnLoop) (t : Nat) : Bool := s.loop.ready t && s.calls.all fun c => c.thread ≠ t

def passes (s : ConnLoop) : LoopLabel ConnFunctor → Bool
  | .run => false
  | .queueInLoop t f => f.free && s.ready t
  | .quit t => s.ready t
  | _ => true

def handling (s : ConnLoop) : Bool := s.loop.pc = .handling && s.loop.idle

/-- The loop thread has changed the connection and may have queued a functor. -/
def settle (s : ConnLoop) (r : TcpConnection × Option ConnFunctor) : ConnLoop :=
  {s with
    conn := r.1
    loop := match r.2 with
      | none => s.loop
      | some f => s.loop.queueInLoop s.loop.threadId f}

end ConnLoop

def connStep (fd : EventFd) (s : ConnLoop) (l : ConnLabel) : Option ConnLoop :=
  if s.conn.failed then none
  else match l with
    | .loop l => if s.passes l then (loopStep fd s.loop l).map fun loop => {s with loop := loop} else none
    | .run w =>
      match s.loop.functors with
      | [] => none
      | p::_ =>
        if w.fits p.functor.len then
          (loopStep fd s.loop .run).map fun loop =>
            ({s with loop := loop} : ConnLoop).settle (s.conn.perform p.thread w p.functor)
        else none
    | .runInLoop t f =>
      if s.ready t ∧ f.free then
        if t = s.loop.threadId then some (s.settle (s.conn.perform t (.wrote 0) f))
        else (loopStep fd s.loop (.queueInLoop t f)).map fun loop => {s with loop := loop}
      else none
    | .send t message w =>
      if s.ready t ∧ w.fits message.length then
        if s.conn.state ≠ .kConnected then some s
        else if t = s.loop.threadId then
          some {s.settle (s.conn.sendInLoop t message w) with sent := s.sent ++ [⟨t,message⟩]}
        else some {s with calls := s.calls ++ [⟨t,.send message⟩], sent := s.sent ++ [⟨t,message⟩]}
      else none
    | .shutdown t =>
      if s.ready t then
        if s.conn.state ≠ .kConnected then some s
        else if t = s.loop.threadId then some {s with conn := (s.conn.setState .kDisconnecting).shutdownInLoop}
        else some {s with calls := s.calls ++ [⟨t,.close .shutdown⟩]}
      else none
    | .forceClose t =>
      if s.ready t then
        if s.conn.state ≠ .kConnected ∧ s.conn.state ≠ .kDisconnecting then some s
        else if t = s.loop.threadId then
          some (s.settle (s.conn.setState .kDisconnecting,some .forceCloseInLoop))
        else some {s with calls := s.calls ++ [⟨t,.close .forceClose⟩]}
      else none
    | .setState t =>
      match s.calls.find? fun c => c.thread = t with
      | some ⟨_,.close k⟩ =>
        some {s with
          conn := s.conn.setState .kDisconnecting
          calls := ⟨t,.closing k⟩ :: s.calls.erase ⟨t,.close k⟩}
      | _ => none
    | .push t =>
      match s.calls.find? fun c => c.thread = t with
      | some ⟨_,.send message⟩ =>
        (loopStep fd s.loop (.queueInLoop t (.sendInLoop message))).map fun loop =>
          {s with loop := loop, calls := s.calls.erase ⟨t,.send message⟩}
      | some ⟨_,.closing k⟩ =>
        (loopStep fd s.loop (.queueInLoop t k.functor)).map fun loop =>
          {s with loop := loop, calls := s.calls.erase ⟨t,.closing k⟩}
      | _ => none
    | .handleRead n =>
      if s.handling then some (if n = 0 then {s with conn := s.conn.handleClose} else s) else none
    | .handleWrite w =>
      if s.handling ∧ w.fits s.conn.outputBuffer.length then some (s.settle (s.conn.handleWrite w)) else none
    | .handleClose => if s.handling then some {s with conn := s.conn.handleClose} else none

/-- A connection as it is constructed, in a loop of its own. -/
def newConnLoop (threadId highWaterMark : Nat) (highWaterMarkCallback writeCompleteCallback : Bool) : ConnLoop :=
  ⟨newEventLoop ConnFunctor threadId,
    ⟨.kConnecting,true,⟨false,false⟩,[],highWaterMark,highWaterMarkCallback,writeCompleteCallback,[],[],false⟩,[],[]⟩

def NewConnLoop (s : ConnLoop) : Prop := ∃ threadId mark high complete, s = newConnLoop threadId mark high complete

structure Queued (old new : EventLoop ConnFunctor) (more : List (Push ConnFunctor)) : Prop where
  queued : new.queued = old.queued ++ more
  thread : new.threadId = old.threadId

inductive ConnMove (s : ConnLoop) : ConnLabel → ConnLoop → Prop
  | loop (l : LoopLabel ConnFunctor) (loop : EventLoop ConnFunctor) (queued : Queued s.loop loop []) :
      ConnMove s (.loop l) {s with loop := loop}
  | queue (t : Nat) (f : ConnFunctor) (loop : EventLoop ConnFunctor) (free : f.free = true)
      (queued : Queued s.loop loop [⟨f,t,s.loop.looping⟩]) :
      ConnMove s (.loop (.queueInLoop t f)) {s with loop := loop}
  | run (p : Push ConnFunctor) (rest : List (Push ConnFunctor)) (loop : EventLoop ConnFunctor) (w : Write)
      (next : s.loop.functors = p::rest) (queued : s.loop.queued = p :: loop.queued)
      (thread : loop.threadId = s.loop.threadId) :
      ConnMove s (.run w) (({s with loop := loop} : ConnLoop).settle (s.conn.perform p.thread w p.functor))
  | perform (f : ConnFunctor) (free : f.free = true) :
      ConnMove s (.runInLoop s.loop.threadId f) (s.settle (s.conn.perform s.loop.threadId (.wrote 0) f))
  | give (t : Nat) (f : ConnFunctor) (loop : EventLoop ConnFunctor) (free : f.free = true)
      (queued : Queued s.loop loop [⟨f,t,s.loop.looping⟩]) : ConnMove s (.runInLoop t f) {s with loop := loop}
  | sendNow (message : List UInt8) (w : Write) (connected : s.conn.state = .kConnected) :
      ConnMove s (.send s.loop.threadId message w)
        {s.settle (s.conn.sendInLoop s.loop.threadId message w) with sent := s.sent ++ [⟨s.loop.threadId,message⟩]}
  | send (t : Nat) (message : List UInt8) (w : Write) (foreign : t ≠ s.loop.threadId)
      (connected : s.conn.state = .kConnected) :
      ConnMove s (.send t message w)
        {s with calls := s.calls ++ [⟨t,.send message⟩], sent := s.sent ++ [⟨t,message⟩]}
  | shutdownNow (connected : s.conn.state = .kConnected) :
      ConnMove s (.shutdown s.loop.threadId) {s with conn := (s.conn.setState .kDisconnecting).shutdownInLoop}
  | shutdown (t : Nat) (foreign : t ≠ s.loop.threadId) (connected : s.conn.state = .kConnected) :
      ConnMove s (.shutdown t) {s with calls := s.calls ++ [⟨t,.close .shutdown⟩]}
  | forceCloseNow (connected : s.conn.state = .kConnected ∨ s.conn.state = .kDisconnecting) :
      ConnMove s (.forceClose s.loop.threadId) (s.settle (s.conn.setState .kDisconnecting,some .forceCloseInLoop))
  | forceClose (t : Nat) (foreign : t ≠ s.loop.threadId) :
      ConnMove s (.forceClose t) {s with calls := s.calls ++ [⟨t,.close .forceClose⟩]}
  | setState (t : Nat) (k : Close) (inside : ⟨t,.close k⟩ ∈ s.calls) :
      ConnMove s (.setState t) {s with
        conn := s.conn.setState .kDisconnecting
        calls := ⟨t,.closing k⟩ :: s.calls.erase ⟨t,.close k⟩}
  | pushSend (t : Nat) (message : List UInt8) (loop : EventLoop ConnFunctor)
      (first : (s.calls.find? fun c => c.thread = t) = some ⟨t,.send message⟩)
      (queued : Queued s.loop loop [⟨.sendInLoop message,t,s.loop.looping⟩]) :
      ConnMove s (.push t) {s with loop := loop, calls := s.calls.erase ⟨t,.send message⟩}
  | pushClose (t : Nat) (k : Close) (loop : EventLoop ConnFunctor) (inside : ⟨t,.closing k⟩ ∈ s.calls)
      (queued : Queued s.loop loop [⟨k.functor,t,s.loop.looping⟩]) :
      ConnMove s (.push t) {s with loop := loop, calls := s.calls.erase ⟨t,.closing k⟩}
  | handleClose (l : ConnLabel) (kind : l = .handleClose ∨ l = .handleRead 0) :
      ConnMove s l {s with conn := s.conn.handleClose}
  | handleWrite (w : Write) : ConnMove s (.handleWrite w) (s.settle (s.conn.handleWrite w))
  | stay (l : ConnLabel) : ConnMove s l s

variable {fd : EventFd} {s u : ConnLoop}

theorem ordered_settle (r : TcpConnection × Option ConnFunctor) (ordered : Ordered s.loop) :
    Ordered (s.settle r).loop := by
  obtain ⟨c,queued⟩ := r
  cases queued with
  | none => exact ordered
  | some f => exact ordered_queueInLoop s.loop _ f ordered

theorem queued_pushed {t : Nat} {f : ConnFunctor} {loop : EventLoop ConnFunctor} (ordered : Ordered s.loop)
    (ok : loopStep fd s.loop (.queueInLoop t f) = some loop) :
    Queued s.loop loop [⟨f,t,s.loop.looping⟩] ∧ Ordered loop := by
  have move := loopStep_move fd s.loop loop _ ok
  exact ⟨⟨queued_push fd s.loop loop t f move,threadId_move fd s.loop loop _ move⟩,
    ordered_move fd s.loop loop _ ordered move⟩

theorem connStep_loop {l : LoopLabel ConnFunctor} {loop : EventLoop ConnFunctor} (ordered : Ordered s.loop)
    (passes : s.passes l = true) (ok : loopStep fd s.loop l = some loop) :
    ConnMove s (.loop l) {s with loop := loop} := by
  have move := loopStep_move fd s.loop loop l ok
  have thread := threadId_move fd s.loop loop l move
  cases l with
  | run => cases passes
  | queueInLoop t f =>
    simp only [ConnLoop.passes,Bool.and_eq_true] at passes
    exact .queue t f loop passes.1 (queued_pushed ordered ok).1
  | _ => exact .loop _ loop ⟨by simpa using queued_still fd s.loop loop _ ordered move nofun nofun,thread⟩

theorem connStep_move {l : ConnLabel} (ordered : Ordered s.loop) (ok : connStep fd s l = some u) :
    ConnMove s l u ∧ Ordered u.loop := by
  obtain ⟨_,ok⟩ := Option.ite_none_left_eq_some.mp ok
  cases l with
  | loop l =>
    obtain ⟨passes,ok⟩ := Option.ite_none_right_eq_some.mp ok
    obtain ⟨loop,moved,rfl⟩ := Option.map_eq_some_iff.mp ok
    exact ⟨connStep_loop ordered passes moved,ordered_move fd s.loop loop l ordered (loopStep_move fd s.loop loop l moved)⟩
  | run w =>
    simp only at ok
    split at ok
    · cases ok
    · rename_i p rest next
      obtain ⟨_,ok⟩ := Option.ite_none_right_eq_some.mp ok
      obtain ⟨loop,moved,rfl⟩ := Option.map_eq_some_iff.mp ok
      have move := loopStep_move fd s.loop loop .run moved
      obtain ⟨g,first,queued⟩ := queued_run fd s.loop loop move
      rw [next] at first
      cases first
      exact ⟨.run p rest loop w next queued (threadId_move fd s.loop loop .run move),
        ordered_settle _ (ordered_move fd s.loop loop .run ordered move)⟩
  | runInLoop t f =>
    obtain ⟨⟨_,free⟩,ok⟩ := Option.ite_none_right_eq_some.mp ok
    split at ok
    · rename_i own
      cases ok
      subst own
      exact ⟨.perform f free,ordered_settle _ ordered⟩
    · obtain ⟨loop,moved,rfl⟩ := Option.map_eq_some_iff.mp ok
      obtain ⟨queued,after⟩ := queued_pushed ordered moved
      exact ⟨.give t f loop free queued,after⟩
  | send t message w =>
    obtain ⟨_,ok⟩ := Option.ite_none_right_eq_some.mp ok
    split at ok
    · cases ok
      exact ⟨.stay _,ordered⟩
    · rename_i connected
      have connected := Decidable.not_not.mp connected
      split at ok
      · rename_i own
        cases ok
        subst own
        exact ⟨.sendNow message w connected,ordered_settle (s := s) _ ordered⟩
      · rename_i foreign
        cases ok
        exact ⟨.send t message w foreign connected,ordered⟩
  | shutdown t =>
    obtain ⟨_,ok⟩ := Option.ite_none_right_eq_some.mp ok
    split at ok
    · cases ok
      exact ⟨.stay _,ordered⟩
    · rename_i connected
      have connected := Decidable.not_not.mp connected
      split at ok
      · rename_i own
        cases ok
        subst own
        exact ⟨.shutdownNow connected,ordered⟩
      · rename_i foreign
        cases ok
        exact ⟨.shutdown t foreign connected,ordered⟩
  | forceClose t =>
    obtain ⟨_,ok⟩ := Option.ite_none_right_eq_some.mp ok
    split at ok
    · cases ok
      exact ⟨.stay _,ordered⟩
    · rename_i connected
      have connected : s.conn.state = .kConnected ∨ s.conn.state = .kDisconnecting := by
        by_contra neither
        exact connected (not_or.mp neither)
      split at ok
      · rename_i own
        cases ok
        subst own
        exact ⟨.forceCloseNow connected,ordered_settle _ ordered⟩
      · rename_i foreign
        cases ok
        exact ⟨.forceClose t foreign,ordered⟩
  | setState t =>
    simp only at ok
    split at ok
    · rename_i thread k found
      cases ok
      have inside := List.mem_of_find?_eq_some found
      obtain rfl : thread = t := by simpa using List.find?_some found
      exact ⟨.setState thread k inside,ordered⟩
    · cases ok
  | push t =>
    simp only at ok
    split at ok
    · rename_i thread message found
      obtain rfl : thread = t := by simpa using List.find?_some found
      obtain ⟨loop,moved,rfl⟩ := Option.map_eq_some_iff.mp ok
      obtain ⟨queued,after⟩ := queued_pushed ordered moved
      exact ⟨.pushSend thread message loop found queued,after⟩
    · rename_i thread k found
      have inside := List.mem_of_find?_eq_some found
      obtain rfl : thread = t := by simpa using List.find?_some found
      obtain ⟨loop,moved,rfl⟩ := Option.map_eq_some_iff.mp ok
      obtain ⟨queued,after⟩ := queued_pushed ordered moved
      exact ⟨.pushClose thread k loop inside queued,after⟩
    · cases ok
  | handleRead n =>
    obtain ⟨_,⟨⟩⟩ := Option.ite_none_right_eq_some.mp ok
    split
    · rename_i zero
      exact ⟨.handleClose _ (.inr (by rw [zero])),ordered⟩
    · exact ⟨.stay _,ordered⟩
  | handleWrite w =>
    obtain ⟨_,⟨⟩⟩ := Option.ite_none_right_eq_some.mp ok
    exact ⟨.handleWrite w,ordered_settle _ ordered⟩
  | handleClose =>
    obtain ⟨_,⟨⟩⟩ := Option.ite_none_right_eq_some.mp ok
    exact ⟨.handleClose _ (.inl rfl),ordered⟩

end Reactor.Net
