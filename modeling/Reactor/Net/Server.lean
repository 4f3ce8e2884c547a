import Reactor.Keyed
import Reactor.Net.ConnectionLoop
import Mathlib.Data.String.Basic

/-! A server with its connections and their loops. Loop `i` belongs to thread `i`, and the
server lives in loop 0; a thread without a loop is one that stays outside of it. What a
loop thread has under way while it runs the code of the user is kept in a stack: the rest
of `handleClose`, of `connectDestroyed` and of the destructor of the server. -/
namespace Reactor.Net
open Reactor.Transition

/-- The bits of `revents_` that `handleEventWithGuard` looks at. -/
structure Revents where
  pollIn : Bool
  pollPri : Bool
  pollOut : Bool
  pollErr : Bool
  pollHup : Bool
  pollNval : Bool
  pollRdhup : Bool
  deriving DecidableEq

inductive Handler
  | close
  | error
  | read
  | write
  deriving DecidableEq

/-- The handlers that `handleEventWithGuard` calls, in order. -/
def Revents.handlers (r : Revents) : List Handler :=
  (if r.pollHup && !r.pollIn then [.close] else []) ++
  (if r.pollErr || r.pollNval then [.error] else []) ++
  (if r.pollIn || r.pollPri || r.pollRdhup then [.read] else []) ++
  (if r.pollOut then [.write] else [])

inductive Chan
  | conn (c : Nat)
  | acceptor
  | other (k : Nat)
  deriving DecidableEq

/-- What is done to a connection. A callback of the user is recorded with `connected()`. -/
inductive Act
  | connectEstablished
  | connectionCallback (connected : Bool)
  | handleRead (n : Int)
  | messageCallback
  | handleWrite
  | handleError
  | handleClose
  | removeConnection
  | removeConnectionInLoop (n : Nat)
  | connectDestroyed (state : StateE)
  | remove (isNoneEvent : Bool)
  deriving DecidableEq

structure Conn where
  loop : Nat
  conn : TcpConnection
  acts : List Act

inductive ServerFunctor
  | conn (c : Nat) (f : ConnFunctor)
  | removeConnectionInLoop (c : Nat)
  | addTimerInLoop (c : Nat)
  | other
  deriving DecidableEq

inductive Frame
  | closeCallback (c : Nat)
  | remove (c : Nat)
  | destructor
  deriving DecidableEq

/-- A loop with the thread it belongs to. `ready` is the part of the active channels that
is still to be dispatched, `handlers` what is left of the dispatch to the current one,
`timers` the delayed calls of `forceClose`, and `removed` the channels removed since the
last poll. -/
structure IoThread where
  loop : EventLoop ServerFunctor
  activeChannels : List Chan
  ready : List (Chan × Revents)
  current : Option Chan
  handlers : List Handler
  stack : List Frame
  timers : List Nat
  removed : List Chan

inductive Assertion
  | connectEstablished
  | handleClose
  | erased
  | isNoneEvent
  | activeChannels
  deriving DecidableEq

/-- A call on a connection that a foreign thread has under way, with the functor it is to push. -/
inductive Call
  | setState (c : Nat) (f : ServerFunctor)
  | push (c : Nat) (f : ServerFunctor)
  deriving DecidableEq

/-- `connections` is in the order of the names, in which a map is walked; `dangling` tells that
a function of the server was called after its destructor. -/
structure Server where
  threads : Nat → IoThread
  conns : Nat → Option Conn
  connections : List (String × Nat)
  nextConnId : Nat
  writeCompleteCallback : Bool
  calls : Nat → Option Call
  destroyed : Bool
  failed : Option Assertion
  dangling : Bool

inductive Api
  | send (message : List UInt8)
  | shutdown
  | forceClose
  | forceCloseWithDelay
  | startRead
  | stopRead
  deriving DecidableEq

/-- What the system calls of a handler return. -/
structure Results where
  read : Int
  write : Write
  accept : Option Nat
  deriving DecidableEq

inductive ServerLabel
  | loop (i : Nat) (l : LoopLabel ServerFunctor)
  | poll (i : Nat) (woken : Bool) (ready : List (Chan × Revents))
  | dispatch (i : Nat)
  | resume (i : Nat) (r : Results)
  | run (i : Nat) (w : Write)
  | call (t c : Nat) (api : Api) (w : Write)
  | proceed (t : Nat)
  | timer (i c : Nat) (locked : Bool)
  | destroy
  deriving DecidableEq

def StateE.isOpen : StateE → Bool
  | .kConnected | .kDisconnecting => true
  | _ => false

/-- A connection as `newConnection` makes it. -/
def newTcpConnection (writeCompleteCallback : Bool) : TcpConnection :=
  ⟨.kConnecting,true,⟨false,false⟩,[],64*1024*1024,false,writeCompleteCallback,[],[],false⟩

namespace Server

def setThread (s : Server) (i : Nat) (th : IoThread) : Server := {s with threads := Function.update s.threads i th}

def setLoop (s : Server) (i : Nat) (loop : EventLoop ServerFunctor) : Server :=
  s.setThread i {s.threads i with loop := loop}

def setStack (s : Server) (i : Nat) (stack : List Frame) : Server := s.setThread i {s.threads i with stack := stack}

def enter (s : Server) (i : Nat) (frame : Frame) : Server := s.setStack i (frame :: (s.threads i).stack)

def setConn (s : Server) (c : Nat) (k : Conn) : Server := {s with conns := Function.update s.conns c (some k)}

def setCall (s : Server) (t : Nat) (call : Option Call) : Server := {s with calls := Function.update s.calls t call}

def fail (s : Server) (a : Assertion) : Server := {s with failed := some a}

def queueInLoop (s : Server) (i t : Nat) (f : ServerFunctor) : Option Server :=
  if (s.threads i).loop.ready t then some (s.setLoop i ((s.threads i).loop.queueInLoop t f)) else none

/-- Thread `i` has changed a connection of its loop and may have queued a functor. -/
def settle (s : Server) (i c : Nat) (k : Conn) (r : TcpConnection × Option ConnFunctor) : Option Server :=
  match r.2 with
  | none => some (s.setConn c {k with conn := r.1})
  | some f => (s.setConn c {k with conn := r.1}).queueInLoop i i (.conn c f)

/-- `EventLoop::removeChannel`. -/
def removeChannel (s : Server) (i : Nat) (ch : Chan) : Server :=
  let th := s.threads i
  if th.loop.pc = .handling ∧ th.current ≠ some ch ∧ ch ∈ th.activeChannels then s.fail .activeChannels
  else s.setThread i {th with removed := th.removed ++ [ch]}

/-- `Channel::remove`. -/
def remove (s : Server) (i c : Nat) (k : Conn) : Server :=
  let s := s.setConn c {k with acts := k.acts ++ [.remove k.conn.channel.isNoneEvent]}
  if k.conn.channel.isNoneEvent then s.removeChannel i (.conn c) else s.fail .isNoneEvent

def connectEstablished (s : Server) (c : Nat) (k : Conn) : Server :=
  if k.conn.state = .kConnecting then
    s.setConn c {k with
      conn := k.conn.connectEstablished, acts := k.acts ++ [.connectEstablished,.connectionCallback true]}
  else (s.setConn c {k with acts := k.acts ++ [.connectEstablished]}).fail .connectEstablished

def connectDestroyed (s : Server) (i c : Nat) (k : Conn) : Server :=
  if k.conn.state = .kConnected then
    (s.setConn c {k with
      conn := {k.conn with state := .kDisconnected, channel := k.conn.channel.disableAll}
      acts := k.acts ++ [.connectDestroyed k.conn.state,.connectionCallback false]}).enter i (.remove c)
  else s.remove i c {k with acts := k.acts ++ [.connectDestroyed k.conn.state]}

def handleClose (s : Server) (i c : Nat) (k : Conn) : Server :=
  if k.conn.state.isOpen then
    (s.setConn c {k with
      conn := k.conn.handleClose, acts := k.acts ++ [.handleClose,.connectionCallback false]}).enter i (.closeCallback c)
  else (s.setConn c {k with acts := k.acts ++ [.handleClose]}).fail .handleClose

variable (names : Nat → String)

def removeConnectionInLoop (s : Server) (c : Nat) (k : Conn) : Option Server :=
  if s.destroyed then some {s with dangling := true}
  else
    let n := (s.connections.filter fun e => e.1 = names c).length
    let s : Server := {s with connections := s.connections.filter fun e => e.1 ≠ names c}
    let s := s.setConn c {k with acts := k.acts ++ [.removeConnectionInLoop n]}
    if n = 1 then s.queueInLoop k.loop 0 (.conn c .connectDestroyed) else some (s.fail .erased)

def removeConnection (s : Server) (i c : Nat) (k : Conn) : Option Server :=
  let k := {k with acts := k.acts ++ [.removeConnection]}
  if s.destroyed then some {s with dangling := true}
  else if i = 0 then s.removeConnectionInLoop names c k
  else (s.setConn c k).queueInLoop 0 i (.removeConnectionInLoop c)

def newConnection (s : Server) (io : Nat) : Option Server :=
  let c := s.nextConnId
  let k : Conn := ⟨io,newTcpConnection s.writeCompleteCallback,[]⟩
  let s : Server := {s with
    nextConnId := c+1
    connections := Keyed.insert Prod.fst (s.connections.filter fun e => e.1 ≠ names c) (names c,c)}
  let s := s.setConn c k
  if io = 0 then some (s.connectEstablished c k) else s.queueInLoop io 0 (.conn c .connectEstablished)

/-- A functor in its turn, in thread `i`. -/
def perform (s : Server) (i : Nat) (w : Write) (p : Push ServerFunctor) : Option Server :=
  match p.functor with
  | .conn c f =>
    match s.conns c with
    | none => none
    | some k =>
      match f with
      | .connectEstablished => some (s.connectEstablished c k)
      | .connectDestroyed => some (s.connectDestroyed i c k)
      | .forceCloseInLoop => some (if k.conn.state.isOpen then s.handleClose i c k else s)
      | f => if w.fits f.len then s.settle i c k (k.conn.perform p.thread w f) else none
  | .removeConnectionInLoop c =>
    match s.conns c with
    | none => none
    | some k => s.removeConnectionInLoop names c k
  | .addTimerInLoop c => some (s.setThread i {s.threads i with timers := (s.threads i).timers ++ [c]})
  | .other => some s

def handle (s : Server) (i c : Nat) (k : Conn) (r : Results) : Handler → Option Server
  | .close => some (s.handleClose i c k)
  | .error => some (s.setConn c {k with acts := k.acts ++ [.handleError]})
  | .read =>
    if r.read = 0 then some (s.handleClose i c {k with acts := k.acts ++ [.handleRead 0]})
    else if 0 < r.read then some (s.setConn c {k with acts := k.acts ++ [.handleRead r.read,.messageCallback]})
    else some (s.setConn c {k with acts := k.acts ++ [.handleRead r.read,.handleError]})
  | .write =>
    if r.write.fits k.conn.outputBuffer.length then
      s.settle i c {k with acts := k.acts ++ [.handleWrite]} (k.conn.handleWrite r.write)
    else none

/-- The destructor takes the next connection; behind the last one the members go, the acceptor with its channel. -/
def destruct (s : Server) : Option Server :=
  match s.connections with
  | (_,c)::rest =>
    let s : Server := {s with connections := rest}
    match s.conns c with
    | none => none
    | some k =>
      if k.loop = 0 then some (s.connectDestroyed 0 c k) else s.queueInLoop k.loop 0 (.conn c .connectDestroyed)
  | [] => some {(s.setStack 0 (s.threads 0).stack.tail).removeChannel 0 .acceptor with destroyed := true}

def unwind (s : Server) (i : Nat) : Frame → Option Server
  | .closeCallback c =>
    match s.conns c with
    | none => none
    | some k => (s.setStack i (s.threads i).stack.tail).removeConnection names i c k
  | .remove c =>
    match s.conns c with
    | none => none
    | some k => some ((s.setStack i (s.threads i).stack.tail).remove i c k)
  | .destructor => s.destruct

def handleEvent (s : Server) (i : Nat) (r : Results) (h : Handler) : Option Server :=
  match (s.threads i).current with
  | some (.conn c) =>
    match s.conns c with
    | none => none
    | some k => s.handle i c k r h
  | some .acceptor =>
    match h, r.accept with
    | .read, some io => if s.destroyed then some {s with dangling := true} else s.newConnection names io
    | _, _ => some s
  | _ => some s

/-- A call by the thread of the connection. -/
def callInLoop (s : Server) (t c : Nat) (k : Conn) (w : Write) : Api → Option Server
  | .send message =>
    if k.conn.state = .kConnected then
      if w.fits message.length then s.settle t c k (k.conn.sendInLoop t message w) else none
    else some s
  | .shutdown =>
    if k.conn.state = .kConnected then
      some (s.setConn c {k with conn := (k.conn.setState .kDisconnecting).shutdownInLoop})
    else some s
  | .forceClose =>
    if k.conn.state.isOpen then s.settle t c k (k.conn.setState .kDisconnecting,some .forceCloseInLoop) else some s
  | .forceCloseWithDelay =>
    if k.conn.state.isOpen then
      some ((s.setConn c {k with conn := k.conn.setState .kDisconnecting}).setThread t
        {s.threads t with timers := (s.threads t).timers ++ [c]})
    else some s
  | .startRead => some (s.setConn c {k with conn := k.conn.startReadInLoop})
  | .stopRead => some (s.setConn c {k with conn := k.conn.stopReadInLoop})

/-- What a call by another thread leaves to be done behind its test of `state_`. -/
def Api.call (c : Nat) (state : StateE) : Api → Option Call
  | .send message => if state = .kConnected then some (.push c (.conn c (.sendInLoop message))) else none
  | .shutdown => if state = .kConnected then some (.setState c (.conn c .shutdownInLoop)) else none
  | .forceClose => if state.isOpen then some (.setState c (.conn c .forceCloseInLoop)) else none
  | .forceCloseWithDelay => if state.isOpen then some (.setState c (.addTimerInLoop c)) else none
  | .startRead => some (.push c (.conn c .startReadInLoop))
  | .stopRead => some (.push c (.conn c .stopReadInLoop))

/-- A thread that can go on with the code of the user. -/
def atUser (s : Server) (t : Nat) : Bool := (s.threads t).loop.ready t && s.calls t = none

/-- The steps that a loop makes by itself, when the thread has nothing else under way. -/
def passes (s : Server) (i : Nat) : LoopLabel ServerFunctor → Bool
  | .run | .poll _ => false
  | .loop | .finish => (s.threads i).stack = []
  | .handled => (s.threads i).stack = [] && (s.threads i).handlers = [] && (s.threads i).ready = []
  | .queueInLoop _ f => f = .other
  | _ => true

/-- The poller reports channels of the loop that have events to wait for. -/
def registered (s : Server) (i : Nat) : Chan → Bool
  | .conn c => (s.conns c).any fun k => k.loop = i && !k.conn.channel.isNoneEvent
  | .acceptor => i = 0 && !s.destroyed
  | .other _ => true

end Server

def serverStep (fd : EventFd) (names : Nat → String) (s : Server) (l : ServerLabel) : Option Server :=
  if s.failed ≠ none ∨ s.dangling then none
  else match l with
    | .loop i l =>
      if s.passes i l then
        (loopStep fd (s.threads i).loop l).map fun loop =>
          s.setThread i {s.threads i with
            loop := loop, current := if l = .handled then none else (s.threads i).current}
      else none
    | .poll i woken ready =>
      if (ready.map Prod.fst).Nodup ∧ ready.all fun e => s.registered i e.1 then
        (loopStep fd (s.threads i).loop (.poll woken)).map fun loop =>
          s.setThread i {s.threads i with
            loop := loop, activeChannels := ready.map Prod.fst, ready := ready, removed := []}
      else none
    | .dispatch i =>
      let th := s.threads i
      match th.ready with
      | [] => none
      | (ch,r)::rest =>
        if th.loop.pc = .handling ∧ s.atUser i ∧ th.stack = [] ∧ th.handlers = [] then
          some (s.setThread i {th with current := some ch, handlers := r.handlers, ready := rest})
        else none
    | .resume i r =>
      let th := s.threads i
      if s.atUser i then
        match th.stack, th.handlers with
        | frame::_, _ => s.unwind names i frame
        | [], h::hs => (s.setThread i {th with handlers := hs}).handleEvent names i r h
        | [], [] => none
      else none
    | .run i w =>
      let th := s.threads i
      match th.loop.functors with
      | [] => none
      | p::_ =>
        if th.stack = [] then (loopStep fd th.loop .run).bind fun loop => (s.setLoop i loop).perform names i w p
        else none
    | .call t c api w =>
      match s.conns c with
      | none => none
      | some k =>
        if s.atUser t then
          if t = k.loop then s.callInLoop t c k w api
          else some (s.setCall t (Server.Api.call c k.conn.state api))
        else none
    | .proceed t =>
      match s.calls t with
      | none => none
      | some (.setState c f) =>
        match s.conns c with
        | none => none
        | some k =>
          some ((s.setConn c {k with conn := k.conn.setState .kDisconnecting}).setCall t (some (.push c f)))
      | some (.push c f) =>
        match s.conns c with
        | none => none
        | some k => (s.setCall t none).queueInLoop k.loop t f
    | .timer i c locked =>
      let th := s.threads i
      match s.conns c with
      | none => none
      | some k =>
        if th.loop.pc = .handling ∧ s.atUser i ∧ c ∈ th.timers ∧ k.loop = i then
          let s := s.setThread i {th with timers := th.timers.erase c}
          if locked then s.callInLoop i c k (.wrote 0) .forceClose else some s
        else none
    | .destroy =>
      if s.atUser 0 ∧ s.destroyed = false ∧ .destructor ∉ (s.threads 0).stack then some (s.enter 0 .destructor)
      else none

def newIoThread (i : Nat) : IoThread := ⟨newEventLoop ServerFunctor i,[],[],none,[],[],[],[]⟩

def newServer (writeCompleteCallback : Bool) : Server :=
  ⟨newIoThread,fun _ => none,[],1,writeCompleteCallback,fun _ => none,false,none,false⟩

def NewServer (s : Server) : Prop := ∃ writeCompleteCallback, s = newServer writeCompleteCallback

/-- The name that `newConnection` makes of the name and the address of the server. -/
def connName (name ipPort : String) (nextConnId : Nat) : String := name ++ ("-" ++ ipPort ++ "#" ++ toString nextConnId)

theorem decimal_injective {c d : Nat} (same : (toString c).toList = (toString d).toList) : c = d := by
  have digits (n : Nat) : (toString n).toList = Nat.toDigits 10 n := by simp
  rw [digits,digits] at same
  have numbers := congrArg (Nat.ofDigitChars 10 · 0) same
  simpa [Nat.ofDigitChars_toDigits] using numbers

theorem connName_injective (name ipPort : String) : Function.Injective (connName name ipPort) := by
  intro c d same
  have lists := congrArg String.toList same
  simp only [connName,String.toList_append,List.append_cancel_left_eq] at lists
  exact decimal_injective lists

end Reactor.Net
