import Reactor.Net.OutputStream

/-! `shutdown` in a run without errors. The state only goes forward, no message is given up,
and the write side is closed when the buffer is empty and the state is `kDisconnecting`. -/
namespace Reactor.Net
open Reactor.Transition

variable {fd : EventFd} {s u : ConnLoop} {l : ConnLabel}

def Write.fine : Write → Bool
  | .wrote _ | .failed .ewouldblock => true
  | _ => false

/-- Neither socket errors nor the end of the connection. -/
def ConnLabel.calm : ConnLabel → Bool
  | .run w | .send _ _ w | .handleWrite w => w.fine
  | .handleRead n => n ≠ 0
  | .handleClose | .forceClose _ => false
  | .runInLoop _ f | .loop (.queueInLoop _ f) => f ≠ .connectDestroyed
  | _ => true

def SocketOp.writes : SocketOp → Bool
  | .write _ _ => true
  | .shutdownWrite _ => false

/-- The step calls `shutdownWrite`. -/
def ConnLoop.closes (s : ConnLoop) : ConnLabel → Bool
  | .handleWrite w =>
    s.conn.state = .kDisconnecting && s.conn.channel.isWriting && 0 < w.nwrote && s.conn.outputBuffer.length ≤ w.nwrote
  | .run _ => (s.loop.functors.head?.any fun p => p.functor = .shutdownInLoop) && !s.conn.channel.isWriting
  | .shutdown t => t = s.loop.threadId && s.conn.state = .kConnected && !s.conn.channel.isWriting
  | _ => false

/-- The state may only go forward, and not to the end. -/
def Steady (old new : StateE) : Prop := new = old ∨ (old = .kConnecting ∧ new = .kConnected) ∨ new = .kDisconnecting

theorem Steady.alive {old new : StateE} (steady : Steady old new) (alive : old ≠ .kDisconnected) :
    new ≠ .kDisconnected := by
  rcases steady with rfl | ⟨_,rfl⟩ | rfl
  · exact alive
  · nofun
  · nofun

theorem Steady.stays {old new : StateE} (steady : Steady old new) (here : old = .kDisconnecting) :
    new = .kDisconnecting := by
  rcases steady with rfl | ⟨connecting,_⟩ | rfl
  · exact here
  · rw [here] at connecting
    cases connecting
  · rfl

/-- What is queued or under way ends no connection, and what closes its write side has
announced that. -/
structure Tame (s : ConnLoop) : Prop where
  queue : ∀ p ∈ s.loop.queued, p.functor ≠ .forceCloseInLoop ∧ p.functor ≠ .connectDestroyed ∧
    (p.functor = .shutdownInLoop → s.conn.state = .kDisconnecting)
  close : ∀ c ∈ s.calls, c.pc ≠ .close .forceClose
  closing : ∀ c ∈ s.calls, ∀ k, c.pc = .closing k → k = .shutdown ∧ s.conn.state = .kDisconnecting

/-- No message was given up, and the write side is closed only behind `shutdown`. -/
structure Clean (s : ConnLoop) : Prop where
  streaming : Streaming s.conn
  alive : s.conn.state ≠ .kDisconnected
  taken : ∀ r ∈ s.conn.ran, r.taken = true
  announced : ∀ b, .shutdownWrite b ∈ s.conn.ops → s.conn.state = .kDisconnecting

theorem state_send (c : TcpConnection) (t : Nat) (message : List UInt8) (w : Write) :
    (c.sendInLoop t message w).1.state = c.state := by
  unfold TcpConnection.sendInLoop TcpConnection.buffer
  grind

theorem state_handleWrite (c : TcpConnection) (w : Write) : (c.handleWrite w).1.state = c.state := by
  unfold TcpConnection.handleWrite TcpConnection.shutdownInLoop
  grind

theorem state_shutdownInLoop (c : TcpConnection) : c.shutdownInLoop.state = c.state := by
  unfold TcpConnection.shutdownInLoop
  grind

def ConnFunctor.idle : ConnFunctor → Bool
  | .sendInLoop _ | .shutdownInLoop | .forceCloseInLoop | .connectDestroyed => false
  | _ => true

theorem idle_perform (c : TcpConnection) (t : Nat) (w : Write) (f : ConnFunctor) (idle : f.idle = true) :
    (c.perform t w f).1.ops = c.ops ∧ (c.perform t w f).1.ran = c.ran ∧
      (c.perform t w f).1.outputBuffer = c.outputBuffer ∧ Steady c.state (c.perform t w f).1.state := by
  cases f with
  | startReadInLoop => grind [TcpConnection.perform,TcpConnection.startReadInLoop,Steady]
  | stopReadInLoop => grind [TcpConnection.perform,TcpConnection.stopReadInLoop,Steady]
  | connectEstablished => grind [TcpConnection.perform,TcpConnection.connectEstablished,Steady]
  | writeComplete => exact ⟨rfl,rfl,rfl,.inl rfl⟩
  | highWaterMark len => exact ⟨rfl,rfl,rfl,.inl rfl⟩
  | other => exact ⟨rfl,rfl,rfl,.inl rfl⟩
  | _ => cases idle

theorem steady_perform (c : TcpConnection) (t : Nat) (w : Write) (f : ConnFunctor) (force : f ≠ .forceCloseInLoop)
    (destroy : f ≠ .connectDestroyed) : Steady c.state (c.perform t w f).1.state := by
  cases f with
  | sendInLoop message => exact .inl (state_send c t message w)
  | shutdownInLoop => exact .inl (state_shutdownInLoop c)
  | forceCloseInLoop => exact absurd rfl force
  | connectDestroyed => exact absurd rfl destroy
  | _ => exact (idle_perform c t w _ rfl).2.2.2

theorem steady_move (tame : Tame s) (calm : l.calm = true) (move : ConnMove s l u) :
    Steady s.conn.state u.conn.state := by
  cases move with
  | run p rest loop w next queued thread =>
    obtain ⟨force,destroy,_⟩ := tame.queue p (by simp [queued])
    exact steady_perform s.conn p.thread w p.functor force destroy
  | perform f free =>
    refine steady_perform s.conn _ _ f ?_ (by simpa [ConnLabel.calm] using calm)
    rintro rfl
    cases free
  | sendNow message w connected => exact .inl (state_send s.conn _ message w)
  | shutdownNow connected => exact .inr (.inr (state_shutdownInLoop _))
  | setState t k inside => exact .inr (.inr rfl)
  | forceCloseNow connected => cases calm
  | handleClose l kind => rcases kind with rfl | rfl <;> cases calm
  | handleWrite w => exact .inl (state_handleWrite s.conn w)
  | _ => exact .inl rfl

theorem free_plain {f : ConnFunctor} (free : f.free = true) : f ≠ .forceCloseInLoop ∧ f ≠ .shutdownInLoop := by
  cases f <;> simp_all [ConnFunctor.free]

theorem notice_plain {f : ConnFunctor} (notice : f.notice = true) :
    f ≠ .forceCloseInLoop ∧ f ≠ .connectDestroyed ∧ f ≠ .shutdownInLoop := by
  cases f <;> simp_all [ConnFunctor.notice]

theorem calm_gives {f : ConnFunctor} (calm : l.calm = true) (given : l.gives = some f) : f ≠ .connectDestroyed := by
  rintro rfl
  unfold ConnLabel.gives at given
  split at given <;> cases given <;> cases calm

theorem tame_move (tame : Tame s) (calm : l.calm = true) (move : ConnMove s l u) : Tame u := by
  have steady := steady_move tame calm move
  refine ⟨fun p inside => ?_,fun c inside => ?_,fun c inside k here => ?_⟩
  · rcases queued_move move inside with old | origin
    · obtain ⟨force,destroy,shut⟩ := tame.queue p old
      exact ⟨force,destroy,fun same => steady.stays (shut same)⟩
    · generalize p.functor = f at origin
      cases origin with
      | notice kind =>
        obtain ⟨force,destroy,shut⟩ := notice_plain kind
        exact ⟨force,destroy,fun same => absurd same shut⟩
      | send message same =>
        subst same
        exact ⟨nofun,nofun,nofun⟩
      | free kind given =>
        obtain ⟨force,shut⟩ := free_plain kind
        exact ⟨force,calm_gives calm given,fun same => absurd same shut⟩
      | close t k called same =>
        obtain ⟨rfl,announced⟩ := tame.closing _ called k rfl
        subst same
        exact ⟨nofun,nofun,fun _ => steady.stays announced⟩
      | forceClose own same =>
        subst own
        cases calm
  · rcases calls_move move inside with old | origin
    · exact tame.close c old
    · cases origin with
      | forceClose named foreign same =>
        subst named
        cases calm
      | _ => simp_all
  · rcases calls_move move inside with old | origin
    · obtain ⟨kind,announced⟩ := tame.closing c old k here
      exact ⟨kind,steady.stays announced⟩
    · cases origin with
      | closing j set called same =>
        obtain rfl : k = j := by simpa [here] using same
        refine ⟨?_,set⟩
        cases k with
        | shutdown => rfl
        | forceClose => exact absurd rfl (tame.close _ called)
      | _ => simp_all

theorem output_send (c : TcpConnection) (t : Nat) (message : List UInt8) (w : Write) :
    c.ran <+: (c.sendInLoop t message w).1.ran ∧
      ((c.sendInLoop t message w).1.ops = c.ops ∨ (c.sendInLoop t message w).1.ops = c.ops ++ [.write message w]) := by
  unfold TcpConnection.sendInLoop TcpConnection.buffer
  refine ⟨?_,by grind⟩
  split
  · exact List.prefix_append _ _
  · split
    · split <;> exact List.prefix_append _ _
    · simp only
      split <;> exact List.prefix_append _ _

theorem taken_send (c : TcpConnection) (t : Nat) (message : List UInt8) (w : Write) (fine : w.fine = true)
    (alive : c.state ≠ .kDisconnected) (r : SendRun) (inside : r ∈ (c.sendInLoop t message w).1.ran) :
    r ∈ c.ran ∨ r.taken = true := by
  have sound : w.faultError = false := by
    cases w with
    | wrote n => rfl
    | failed errno => cases errno <;> first | rfl | cases fine
  unfold TcpConnection.sendInLoop TcpConnection.buffer at inside
  grind [SendRun.taken]

theorem output_shutdownInLoop (c : TcpConnection) :
    c.shutdownInLoop.ran = c.ran ∧ c.shutdownInLoop.outputBuffer = c.outputBuffer ∧
      c.shutdownInLoop.ops =
        if c.channel.isWriting then c.ops else c.ops ++ [SocketOp.shutdownWrite c.outputBuffer] := by
  unfold TcpConnection.shutdownInLoop
  grind

/-- `handleWrite` writes, and closes the write side when it has drained the buffer of a
connection that is to be closed. -/
theorem output_handleWrite (c : TcpConnection) (w : Write) (writing : c.channel.isWriting = true) :
    (c.handleWrite w).1.ops = c.ops ++ [SocketOp.write c.outputBuffer w] ∨
    (c.state = .kDisconnecting ∧ 0 < w.nwrote ∧ c.outputBuffer.length ≤ w.nwrote ∧
      (c.handleWrite w).1.outputBuffer = [] ∧
      (c.handleWrite w).1.ops = c.ops ++ [SocketOp.write c.outputBuffer w] ++ [SocketOp.shutdownWrite []]) := by
  unfold TcpConnection.handleWrite TcpConnection.shutdownInLoop Channel.disableWriting
  grind

/-- What a step does to the output. It writes and takes up messages, or it closes the write
side and leaves nothing in the buffer. -/
inductive Outputs (s : ConnLoop) (l : ConnLabel) (u : ConnLoop) : Prop
  | goes (ops : List SocketOp) (more : u.conn.ops = s.conn.ops ++ ops) (writes : ∀ op ∈ ops, op.writes = true)
      (ran : s.conn.ran <+: u.conn.ran) (taken : ∀ r ∈ u.conn.ran, r ∈ s.conn.ran ∨ r.taken = true)
      (cause : (ops = [] ∧ u.conn.outputBuffer = s.conn.outputBuffer) ∨ s.conn.channel.isWriting = true ∨
        s.inFlight ≠ [] ∨ s.conn.state = .kConnected)
  | closes (ops : List SocketOp) (more : u.conn.ops = s.conn.ops ++ ops ++ [.shutdownWrite []])
      (writes : ∀ op ∈ ops, op.writes = true) (ran : u.conn.ran = s.conn.ran) (shuts : s.closes l = true)
      (buffer : u.conn.outputBuffer = [])
      (state : u.conn.state = .kDisconnecting) (cause : ops ≠ [] → s.conn.channel.isWriting = true)

theorem Outputs.still (ops : u.conn.ops = s.conn.ops) (ran : u.conn.ran = s.conn.ran)
    (buffer : u.conn.outputBuffer = s.conn.outputBuffer) : Outputs s l u :=
  .goes [] (by simp [ops]) nofun (ran ▸ List.prefix_rfl) (fun _ inside => .inl (ran ▸ inside)) (.inl ⟨rfl,buffer⟩)

theorem outputs_send {t : Nat} {message : List UInt8} {w : Write} (alive : s.conn.state ≠ .kDisconnected)
    (fine : w.fine = true) (sent : u.conn = (s.conn.sendInLoop t message w).1)
    (cause : s.inFlight ≠ [] ∨ s.conn.state = .kConnected) : Outputs s l u := by
  have taken : ∀ r ∈ u.conn.ran, r ∈ s.conn.ran ∨ r.taken = true := sent ▸ taken_send s.conn t message w fine alive
  obtain ⟨ran,same | more⟩ := output_send s.conn t message w
  · exact .goes [] (by simp [sent,same]) nofun (sent ▸ ran) taken (.inr (.inr cause))
  · refine .goes [.write message w] (sent ▸ more) (fun op inside => ?_) (sent ▸ ran) taken (.inr (.inr cause))
    cases List.mem_singleton.mp inside
    rfl

theorem outputs_shutdown (streaming : Streaming s.conn) (alive : s.conn.state ≠ .kDisconnected)
    (shuts : s.conn.channel.isWriting = false → s.closes l = true)
    (done : u.conn = (s.conn.setState .kDisconnecting).shutdownInLoop) : Outputs s l u := by
  obtain ⟨ran,buffer,ops⟩ := output_shutdownInLoop (s.conn.setState .kDisconnecting)
  rw [← done] at ran buffer ops
  cases writing : s.conn.channel.isWriting with
  | true => exact .still (by simpa [TcpConnection.setState,writing] using ops) ran buffer
  | false =>
    have empty : s.conn.outputBuffer = [] := by
      by_contra some
      have on := (streaming.writing alive).mpr some
      rw [writing] at on
      cases on
    refine .closes [] ?_ (by simp) ran (shuts writing) (buffer.trans empty) ?_ fun some => absurd rfl some
    · simpa [TcpConnection.setState,writing,empty] using ops
    · rw [done,state_shutdownInLoop]
      rfl

theorem outputs_handleWrite {w : Write} (written : u.conn = (s.conn.handleWrite w).1) : Outputs s (.handleWrite w) u := by
  have ran := ran_handleWrite s.conn w
  rw [← written] at ran
  cases writing : s.conn.channel.isWriting with
  | false =>
    have nothing : u.conn = s.conn := by simp [written,TcpConnection.handleWrite,writing]
    exact .still (by rw [nothing]) (by rw [nothing]) (by rw [nothing])
  | true =>
    have writes : ∀ op ∈ [SocketOp.write s.conn.outputBuffer w], op.writes = true := by
      intro op inside
      cases List.mem_singleton.mp inside
      rfl
    rcases output_handleWrite s.conn w writing with ops | ⟨state,positive,whole,empty,ops⟩
    · exact .goes _ (written ▸ ops) writes (ran ▸ List.prefix_rfl) (fun _ inside => .inl (ran ▸ inside))
        (.inr (.inl writing))
    · exact .closes _ (written ▸ ops) writes ran (by simp [ConnLoop.closes,state,writing,positive,whole]) (written ▸ empty)
        (by rw [written,state_handleWrite,state]) fun _ => writing

theorem outputs_move (streaming : Streaming s.conn) (alive : s.conn.state ≠ .kDisconnected) (tame : Tame s)
    (calm : l.calm = true) (move : ConnMove s l u) : Outputs s l u := by
  cases move with
  | run p rest loop w next queued thread =>
    obtain ⟨force,destroy,announced⟩ := tame.queue p (by simp [queued])
    have flight := inFlight_run queued w
    obtain ⟨functor,caller,looping⟩ := p
    have idle (kind : functor.idle = true) :
        Outputs s (.run w) (({s with loop := loop} : ConnLoop).settle (s.conn.perform caller w functor)) := by
      obtain ⟨ops,ran,buffer,_⟩ := idle_perform s.conn caller w functor kind
      exact .still ops ran buffer
    cases functor with
    | sendInLoop message =>
      refine outputs_send alive calm rfl (.inl fun none => ?_)
      rw [none] at flight
      cases flight
    | shutdownInLoop =>
      have same : s.conn.setState .kDisconnecting = s.conn := by simp [TcpConnection.setState,← announced rfl]
      refine outputs_shutdown streaming alive (fun quiet => ?_) ?_
      · simp [ConnLoop.closes,next,quiet]
      · rw [same]
        rfl
    | forceCloseInLoop => exact absurd rfl force
    | connectDestroyed => exact absurd rfl destroy
    | _ => exact idle rfl
  | perform f free =>
    have idle : f.idle = true := by
      have destroy : f ≠ .connectDestroyed := calm_gives calm rfl
      cases f <;> simp_all [ConnFunctor.free,ConnFunctor.idle]
    obtain ⟨ops,ran,buffer,_⟩ := idle_perform s.conn s.loop.threadId (.wrote 0) f idle
    exact .still ops ran buffer
  | sendNow message w connected => exact outputs_send alive calm rfl (.inr connected)
  | shutdownNow connected =>
    exact outputs_shutdown streaming alive (fun quiet => by simp [ConnLoop.closes,connected,quiet]) rfl
  | forceCloseNow connected => cases calm
  | handleClose l kind => rcases kind with rfl | rfl <;> cases calm
  | handleWrite w => exact outputs_handleWrite rfl
  | _ => exact .still rfl rfl rfl

theorem clean_move (clean : Clean s) (tame : Tame s) (calm : l.calm = true) (move : ConnMove s l u) : Clean u := by
  have steady := steady_move tame calm move
  have streaming := streaming_move clean.streaming move (fun _ _ _ => clean.alive) (fun _ _ _ => clean.alive)
  cases outputs_move clean.streaming clean.alive tame calm move with
  | goes ops more writes ran taken cause =>
    refine ⟨streaming,steady.alive clean.alive,fun r inside => (taken r inside).elim (clean.taken r) id,fun b inside => ?_⟩
    rw [more,List.mem_append] at inside
    rcases inside with old | new
    · exact steady.stays (clean.announced b old)
    · cases writes _ new
  | closes ops more writes ran shuts buffer state cause =>
    exact ⟨streaming,steady.alive clean.alive,ran ▸ clean.taken,fun _ _ => state⟩

/-- What holds in every run without errors. -/
structure Fine (s : ConnLoop) : Prop where
  ordered : Ordered s.loop
  accounted : Accounted s
  clean : Clean s
  tame : Tame s

theorem fine_step (fine : Fine s) (calm : l.calm = true) (ok : connStep fd s l = some u) : ConnMove s l u ∧ Fine u := by
  obtain ⟨move,ordered⟩ := connStep_move fine.ordered ok
  exact ⟨move,ordered,accounted_move fine.accounted move,clean_move fine.clean fine.tame calm move,
    tame_move fine.tame calm move⟩

theorem newConnLoop_fine (new : NewConnLoop s) : Fine s := by
  obtain ⟨threadId,mark,high,complete,rfl⟩ := new
  exact ⟨⟨rfl,fun _ _ => rfl⟩,⟨fun _ => rfl,fun _ inside => absurd inside List.not_mem_nil⟩,
    ⟨newConnLoop_streaming threadId mark high complete,nofun,fun _ inside => absurd inside List.not_mem_nil,
      fun _ inside => absurd inside List.not_mem_nil⟩,
    fun _ inside => absurd inside List.not_mem_nil,fun _ inside => absurd inside List.not_mem_nil,
    fun _ inside => absurd inside List.not_mem_nil⟩

end Reactor.Net
