import Mathlib.Data.List.Basic

/-! The output side of a connection. `sendInLoop` writes directly when nothing is buffered
and buffers what the kernel did not take; `handleWrite` drains the buffer and closes the
write side if that was asked for. The results of `write` are inputs. -/
namespace Reactor.Net

inductive StateE
  | kDisconnected
  | kConnecting
  | kConnected
  | kDisconnecting
  deriving DecidableEq, Repr

structure Channel where
  isReading : Bool
  isWriting : Bool
  deriving DecidableEq, Repr

namespace Channel

def isNoneEvent (c : Channel) : Bool := !c.isReading && !c.isWriting

def enableReading (c : Channel) : Channel := {c with isReading := true}

def disableReading (c : Channel) : Channel := {c with isReading := false}

def enableWriting (c : Channel) : Channel := {c with isWriting := true}

def disableWriting (c : Channel) : Channel := {c with isWriting := false}

def disableAll (_ : Channel) : Channel := ⟨false,false⟩

end Channel

inductive Errno
  | ewouldblock
  | epipe
  | econnreset
  | other
  deriving DecidableEq, Repr

inductive Write
  | wrote (n : Nat)
  | failed (errno : Errno)
  deriving DecidableEq, Repr

namespace Write

def fits (w : Write) (len : Nat) : Bool :=
  match w with
  | .wrote n => n ≤ len
  | .failed _ => true

def nwrote : Write → Nat
  | .wrote n => n
  | .failed _ => 0

def faultError : Write → Bool
  | .failed .epipe | .failed .econnreset => true
  | _ => false

end Write

/-- The calls on the socket; `shutdownWrite` is recorded with the contents of `outputBuffer_`. -/
inductive SocketOp
  | write (data : List UInt8) (result : Write)
  | shutdownWrite (outputBuffer : List UInt8)
  deriving DecidableEq, Repr

def SocketOp.accepted : SocketOp → List UInt8
  | .write data result => data.take result.nwrote
  | .shutdownWrite _ => []

def accepted (ops : List SocketOp) : List UInt8 := ops.flatMap SocketOp.accepted

/-- An execution of `sendInLoop`: who called `send`, and what it came across. -/
structure SendRun where
  thread : Nat
  message : List UInt8
  state : StateE
  faultError : Bool
  deriving DecidableEq, Repr

def SendRun.taken (r : SendRun) : Bool := r.state ≠ .kDisconnected && !r.faultError

inductive ConnFunctor
  | sendInLoop (message : List UInt8)
  | shutdownInLoop
  | forceCloseInLoop
  | startReadInLoop
  | stopReadInLoop
  | connectEstablished
  | connectDestroyed
  | writeComplete
  | highWaterMark (len : Nat)
  | other
  deriving DecidableEq, Repr

/-- `outputBuffer` holds the readable bytes; `failed` tells that an assertion failed. -/
structure TcpConnection where
  state : StateE
  reading : Bool
  channel : Channel
  outputBuffer : List UInt8
  highWaterMark : Nat
  highWaterMarkCallback : Bool
  writeCompleteCallback : Bool
  ops : List SocketOp
  ran : List SendRun
  failed : Bool
  deriving Repr

namespace TcpConnection

def setState (c : TcpConnection) (state : StateE) : TcpConnection := {c with state := state}

/-- If nothing is in the output queue, `sendInLoop` tries writing directly. -/
def direct (c : TcpConnection) : Bool := !c.channel.isWriting && c.outputBuffer.length = 0

/-- `sendInLoop` behind its write: what remains is buffered. -/
def buffer (c : TcpConnection) (data : List UInt8) (nwrote : Nat) : TcpConnection × Option ConnFunctor :=
  let remaining := data.length - nwrote
  let oldLen := c.outputBuffer.length
  ({c with
      outputBuffer := c.outputBuffer ++ data.drop nwrote
      channel := if c.channel.isWriting then c.channel else c.channel.enableWriting},
    if oldLen + remaining ≥ c.highWaterMark ∧ oldLen < c.highWaterMark ∧ c.highWaterMarkCallback then
      some (.highWaterMark (oldLen + remaining))
    else none)

/-- The connection with the functor it gives to `queueInLoop`. -/
def sendInLoop (c : TcpConnection) (t : Nat) (data : List UInt8) (w : Write) : TcpConnection × Option ConnFunctor :=
  if c.state = .kDisconnected then ({c with ran := c.ran ++ [⟨t,data,c.state,false⟩]},none)
  else if c.direct then
    let c := {c with ops := c.ops ++ [.write data w], ran := c.ran ++ [⟨t,data,c.state,w.faultError⟩]}
    -- after EPIPE or ECONNRESET the message is given up, after another error it is buffered
    if !w.faultError && w.nwrote < data.length then c.buffer data w.nwrote
    else (c,if c.writeCompleteCallback ∧ w = .wrote data.length then some .writeComplete else none)
  else
    let c := {c with ran := c.ran ++ [⟨t,data,c.state,false⟩]}
    if 0 < data.length then c.buffer data 0 else (c,none)

def shutdownInLoop (c : TcpConnection) : TcpConnection :=
  if c.channel.isWriting then c else {c with ops := c.ops ++ [.shutdownWrite c.outputBuffer]}

def handleWrite (c : TcpConnection) (w : Write) : TcpConnection × Option ConnFunctor :=
  if c.channel.isWriting then
    let c := {c with ops := c.ops ++ [.write c.outputBuffer w], outputBuffer := c.outputBuffer.drop w.nwrote}
    if 0 < w.nwrote ∧ c.outputBuffer.length = 0 then
      let c := {c with channel := c.channel.disableWriting}
      (if c.state = .kDisconnecting then c.shutdownInLoop else c,
        if c.writeCompleteCallback then some .writeComplete else none)
    else (c,none)
  else (c,none)

def handleClose (c : TcpConnection) : TcpConnection :=
  if c.state = .kConnected ∨ c.state = .kDisconnecting then
    {c with state := .kDisconnected, channel := c.channel.disableAll}
  else {c with failed := true}

def forceCloseInLoop (c : TcpConnection) : TcpConnection :=
  if c.state = .kConnected ∨ c.state = .kDisconnecting then c.handleClose else c

def startReadInLoop (c : TcpConnection) : TcpConnection :=
  if !c.reading || !c.channel.isReading then {c with channel := c.channel.enableReading, reading := true} else c

def stopReadInLoop (c : TcpConnection) : TcpConnection :=
  if c.reading || c.channel.isReading then {c with channel := c.channel.disableReading, reading := false} else c

def connectEstablished (c : TcpConnection) : TcpConnection :=
  if c.state = .kConnecting then {c with state := .kConnected, channel := c.channel.enableReading}
  else {c with failed := true}

/-- `Channel::remove` takes no channel that still has events. -/
def removeChannel (c : TcpConnection) : TcpConnection :=
  if c.channel.isNoneEvent then c else {c with failed := true}

def connectDestroyed (c : TcpConnection) : TcpConnection :=
  if c.state = .kConnected then
    ({c with state := .kDisconnected, channel := c.channel.disableAll} : TcpConnection).removeChannel
  else c.removeChannel

/-- A functor in its turn. The callbacks of the user are what follows. -/
def perform (c : TcpConnection) (t : Nat) (w : Write) : ConnFunctor → TcpConnection × Option ConnFunctor
  | .sendInLoop message => c.sendInLoop t message w
  | .shutdownInLoop => (c.shutdownInLoop,none)
  | .forceCloseInLoop => (c.forceCloseInLoop,none)
  | .startReadInLoop => (c.startReadInLoop,none)
  | .stopReadInLoop => (c.stopReadInLoop,none)
  | .connectEstablished => (c.connectEstablished,none)
  | .connectDestroyed => (c.connectDestroyed,none)
  | .writeComplete | .highWaterMark _ | .other => (c,none)

end TcpConnection

/-- The stream: what the kernel took and what is buffered are the messages taken so far.
The write event is on while there is something to write, and nothing is buffered when the
write side is closed. -/
structure Streaming (c : TcpConnection) : Prop where
  stream : accepted c.ops ++ c.outputBuffer = (c.ran.filter SendRun.taken).flatMap SendRun.message
  writing : c.state ≠ .kDisconnected → (c.channel.isWriting = true ↔ c.outputBuffer ≠ [])
  closed : ∀ b, .shutdownWrite b ∈ c.ops → b = []

variable {c : TcpConnection}

@[simp] theorem accepted_append (first second : List SocketOp) :
    accepted (first++second) = accepted first ++ accepted second := List.flatMap_append

@[simp] theorem accepted_write (data : List UInt8) (w : Write) : accepted [.write data w] = data.take w.nwrote := by
  simp [accepted,SocketOp.accepted]

@[simp] theorem accepted_shutdown (b : List UInt8) : accepted [.shutdownWrite b] = [] := by
  simp [accepted,SocketOp.accepted]

theorem fault_nwrote {w : Write} (fault : w.faultError = true) : w.nwrote = 0 := by
  cases w with
  | wrote n => cases fault
  | failed errno => rfl

/-- Steps that leave the stream alone, and the write event unless they disconnect. -/
theorem streaming_frame {u : TcpConnection} (streaming : Streaming c) (ops : u.ops = c.ops)
    (buffer : u.outputBuffer = c.outputBuffer) (ran : u.ran = c.ran)
    (writing : u.state ≠ .kDisconnected → c.state ≠ .kDisconnected ∧ u.channel.isWriting = c.channel.isWriting) :
    Streaming u := by
  refine ⟨?_,fun connected => ?_,?_⟩
  · rw [ops,buffer,ran]
    exact streaming.stream
  · rw [buffer,(writing connected).2]
    exact streaming.writing (writing connected).1
  · rw [ops]
    exact streaming.closed

theorem buffer_writing (data : List UInt8) (nwrote : Nat) : (c.buffer data nwrote).1.channel.isWriting = true := by
  simp only [TcpConnection.buffer]
  split
  · assumption
  · rfl

theorem streaming_send (t : Nat) (data : List UInt8) (w : Write) (streaming : Streaming c) :
    Streaming (c.sendInLoop t data w).1 := by
  obtain ⟨stream,writing,closed⟩ := streaming
  unfold TcpConnection.sendInLoop
  split
  · rename_i disconnected
    refine ⟨?_,writing,closed⟩
    simpa [List.filter_append,SendRun.taken,disconnected] using stream
  · rename_i connected
    split
    · rename_i direct
      obtain ⟨silent,empty⟩ : c.channel.isWriting = false ∧ c.outputBuffer = [] := by
        simpa [TcpConnection.direct] using direct
      have still {b : List UInt8} (member : SocketOp.shutdownWrite b ∈ c.ops ++ [.write data w]) : b = [] :=
        closed b (by simpa using member)
      simp only
      split
      · rename_i remains
        obtain ⟨fine,less⟩ : w.faultError = false ∧ w.nwrote < data.length := by simpa using remains
        refine ⟨?_,fun _ => ⟨fun _ => ?_,fun _ => buffer_writing _ _⟩,fun b => still⟩
        · simp [TcpConnection.buffer,SendRun.taken,connected,fine,List.filter_append,← stream,empty]
        · simpa [TcpConnection.buffer,empty] using less
      · rename_i finished
        refine ⟨?_,writing,fun b => still⟩
        cases fault : w.faultError with
        | true => simp [SendRun.taken,fault_nwrote fault,List.filter_append,← stream]
        | false =>
          have whole : data.length ≤ w.nwrote := by simpa [fault] using finished
          simp [SendRun.taken,connected,List.filter_append,← stream,empty,List.take_of_length_le whole]
    · rename_i buffered
      simp only
      split
      · rename_i some
        refine ⟨?_,fun _ => ⟨fun _ => ?_,fun _ => buffer_writing _ _⟩,closed⟩
        · simp [TcpConnection.buffer,SendRun.taken,connected,List.filter_append,← stream]
        · simpa [TcpConnection.buffer] using fun _ => List.ne_nil_of_length_pos some
      · rename_i none
        have nothing : data = [] := by simpa using none
        refine ⟨?_,writing,closed⟩
        simp [SendRun.taken,connected,List.filter_append,← stream,nothing]

theorem streaming_shutdown (streaming : Streaming c) (connected : c.state ≠ .kDisconnected) :
    Streaming c.shutdownInLoop := by
  unfold TcpConnection.shutdownInLoop
  split
  · exact streaming
  · rename_i silent
    have empty : c.outputBuffer = [] := by
      by_contra some
      exact silent ((streaming.writing connected).mpr some)
    refine ⟨by simpa using streaming.stream,streaming.writing,fun b member => ?_⟩
    rcases List.mem_append.mp member with old | new
    · exact streaming.closed b old
    · cases List.mem_singleton.mp new
      exact empty

/-- A write of no bytes leaves the buffer, and any other that did not drain it leaves a part. -/
theorem handleWrite_kept {w : Write} (some : c.outputBuffer ≠ [])
    (kept : ¬ (0 < w.nwrote ∧ (c.outputBuffer.drop w.nwrote).length = 0)) : c.outputBuffer.drop w.nwrote ≠ [] := by
  intro empty
  by_cases positive : 0 < w.nwrote
  · exact kept ⟨positive,by rw [empty]; rfl⟩
  · have zero : w.nwrote = 0 := by omega
    rw [zero,List.drop_zero] at empty
    exact some empty

theorem streaming_handleWrite (w : Write) (streaming : Streaming c) : Streaming (c.handleWrite w).1 := by
  unfold TcpConnection.handleWrite
  split
  · rename_i on
    have written : accepted (c.ops ++ [.write c.outputBuffer w]) ++ c.outputBuffer.drop w.nwrote =
        (c.ran.filter SendRun.taken).flatMap SendRun.message := by
      simp [streaming.stream]
    have still {b : List UInt8} (member : SocketOp.shutdownWrite b ∈ c.ops ++ [.write c.outputBuffer w]) : b = [] :=
      streaming.closed b (by simpa using member)
    simp only
    split
    · rename_i drained
      have empty : c.outputBuffer.drop w.nwrote = [] := List.length_eq_zero_iff.mp drained.2
      have after : Streaming {c with
          ops := c.ops ++ [.write c.outputBuffer w], outputBuffer := c.outputBuffer.drop w.nwrote
          channel := c.channel.disableWriting} :=
        ⟨written,fun _ => by simp [Channel.disableWriting,empty],fun b => still⟩
      split
      · rename_i disconnecting
        exact streaming_shutdown after (by simp [disconnecting])
      · exact after
    · rename_i kept
      refine ⟨written,fun connected => ⟨fun _ => ?_,fun _ => on⟩,fun b => still⟩
      exact handleWrite_kept ((streaming.writing connected).mp on) kept
  · exact streaming

theorem streaming_handleClose (streaming : Streaming c) : Streaming c.handleClose := by
  unfold TcpConnection.handleClose
  split
  · exact streaming_frame streaming rfl rfl rfl fun connected => absurd rfl connected
  · exact streaming_frame streaming rfl rfl rfl fun connected => ⟨connected,rfl⟩

theorem streaming_removeChannel (streaming : Streaming c) : Streaming c.removeChannel := by
  unfold TcpConnection.removeChannel
  split
  · exact streaming
  · exact streaming_frame streaming rfl rfl rfl fun connected => ⟨connected,rfl⟩

theorem streaming_connectDestroyed (streaming : Streaming c) : Streaming c.connectDestroyed := by
  unfold TcpConnection.connectDestroyed
  split
  · exact streaming_removeChannel (streaming_frame streaming rfl rfl rfl fun connected => absurd rfl connected)
  · exact streaming_removeChannel streaming

theorem streaming_perform (t : Nat) (w : Write) (f : ConnFunctor) (streaming : Streaming c)
    (connected : f = .shutdownInLoop → c.state ≠ .kDisconnected) : Streaming (c.perform t w f).1 := by
  cases f with
  | sendInLoop message => exact streaming_send t message w streaming
  | shutdownInLoop => exact streaming_shutdown streaming (connected rfl)
  | forceCloseInLoop =>
    simp only [TcpConnection.perform,TcpConnection.forceCloseInLoop]
    split
    · exact streaming_handleClose streaming
    · exact streaming
  | startReadInLoop =>
    simp only [TcpConnection.perform,TcpConnection.startReadInLoop]
    split
    · exact streaming_frame streaming rfl rfl rfl fun connected => ⟨connected,rfl⟩
    · exact streaming
  | stopReadInLoop =>
    simp only [TcpConnection.perform,TcpConnection.stopReadInLoop]
    split
    · exact streaming_frame streaming rfl rfl rfl fun connected => ⟨connected,rfl⟩
    · exact streaming
  | connectEstablished =>
    simp only [TcpConnection.perform,TcpConnection.connectEstablished]
    split
    · rename_i connecting
      exact streaming_frame streaming rfl rfl rfl fun _ => ⟨by simp [connecting],rfl⟩
    · exact streaming_frame streaming rfl rfl rfl fun connected => ⟨connected,rfl⟩
  | connectDestroyed => exact streaming_connectDestroyed streaming
  | _ => exact streaming

end Reactor.Net
