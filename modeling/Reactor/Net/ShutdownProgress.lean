import Reactor.Net.Shutdown

/-! A `shutdown` is not forgotten. Until the write side is closed, the call is on its way to
the loop, or `handleWrite` is to finish it; what is left to write then bounds the number of
writes that it takes. -/
namespace Reactor.Net
open Reactor.Transition

variable {fd : EventFd} {s r m u : ConnLoop} {l : ConnLabel}

def CallPc.shuts : CallPc → Bool
  | .close .shutdown | .closing .shutdown => true
  | _ => false

namespace ConnLoop

/-- A call of `shutdown` has not had its turn in the loop. -/
def leaving (s : ConnLoop) : Bool :=
  s.calls.any (fun c => c.pc.shuts) || s.loop.queued.any fun p => p.functor = .shutdownInLoop

/-- `handleWrite` will close the write side. -/
def lingers (s : ConnLoop) : Bool := s.conn.state = .kDisconnecting && s.conn.channel.isWriting

/-- The bytes that are buffered or about to be. -/
def toWrite (s : ConnLoop) : Nat := s.conn.outputBuffer.length + (s.inFlight.flatMap Sent.message).length

/-- The step does not end in `kDisconnected`. -/
def survives (fd : EventFd) (s : ConnLoop) (l : ConnLabel) : Bool :=
  (connStep fd s l).all fun u => u.conn.state ≠ .kDisconnected

end ConnLoop

/-- A `write` of `handleWrite` that got rid of something. -/
def ConnLabel.drains : ConnLabel → Bool
  | .handleWrite w => 0 < w.nwrote
  | _ => false

def StateE.isClosing : StateE → Bool
  | .kDisconnecting | .kDisconnected => true
  | _ => false

theorem isClosing_alive {state : StateE} (closing : state.isClosing = true) (alive : state ≠ .kDisconnected) :
    state = .kDisconnecting := by
  cases state with
  | kDisconnecting => rfl
  | kDisconnected => exact absurd rfl alive
  | _ => cases closing

theorem Steady.isClosing {old new : StateE} (steady : Steady old new) (closing : old.isClosing = true) :
    new.isClosing = true := by
  rcases steady with rfl | ⟨rfl,_⟩ | rfl
  · exact closing
  · cases closing
  · rfl

theorem isClosing_perform (c : TcpConnection) (t : Nat) (w : Write) (f : ConnFunctor) (closing : c.state.isClosing = true) :
    (c.perform t w f).1.state.isClosing = true := by
  by_cases force : f = .forceCloseInLoop
  · subst force
    grind [TcpConnection.perform,TcpConnection.forceCloseInLoop,TcpConnection.handleClose,StateE.isClosing]
  · by_cases destroy : f = .connectDestroyed
    · subst destroy
      grind [TcpConnection.perform,TcpConnection.connectDestroyed,TcpConnection.removeChannel,StateE.isClosing]
    · exact (steady_perform c t w f force destroy).isClosing closing

theorem isClosing_handleClose (c : TcpConnection) (closing : c.state.isClosing = true) :
    c.handleClose.state.isClosing = true := by
  unfold TcpConnection.handleClose
  split
  · rfl
  · exact closing

/-- A connection that is being closed is not opened again. -/
theorem isClosing_move (move : ConnMove s l u) (closing : s.conn.state.isClosing = true) :
    u.conn.state.isClosing = true := by
  cases move with
  | run p rest loop w next queued thread => exact isClosing_perform s.conn p.thread w p.functor closing
  | perform f free => exact isClosing_perform s.conn _ _ f closing
  | sendNow message w connected =>
    rw [connected] at closing
    cases closing
  | shutdownNow connected =>
    rw [connected] at closing
    cases closing
  | forceCloseNow connected => rfl
  | setState t k inside => rfl
  | handleClose l kind => exact isClosing_handleClose s.conn closing
  | handleWrite w =>
    have same : (s.settle (s.conn.handleWrite w)).conn.state = s.conn.state := state_handleWrite s.conn w
    rw [same]
    exact closing
  | _ => exact closing

theorem ops_perform (c : TcpConnection) (t : Nat) (w : Write) (f : ConnFunctor) : c.ops <+: (c.perform t w f).1.ops := by
  cases idle : f.idle with
  | true =>
    refine ⟨[],?_⟩
    rw [List.append_nil,(idle_perform c t w f idle).1]
  | false =>
    cases f with
    | sendInLoop message =>
      simp only [TcpConnection.perform,TcpConnection.sendInLoop,TcpConnection.buffer]
      grind
    | shutdownInLoop =>
      simp only [TcpConnection.perform,TcpConnection.shutdownInLoop]
      grind
    | forceCloseInLoop =>
      simp only [TcpConnection.perform,TcpConnection.forceCloseInLoop,TcpConnection.handleClose]
      grind
    | connectDestroyed =>
      simp only [TcpConnection.perform,TcpConnection.connectDestroyed,TcpConnection.removeChannel]
      grind
    | _ => cases idle

theorem ops_handleWrite_grow (c : TcpConnection) (w : Write) : c.ops <+: (c.handleWrite w).1.ops := by
  simp only [TcpConnection.handleWrite,TcpConnection.shutdownInLoop]
  grind

theorem ops_move (move : ConnMove s l u) : s.conn.ops <+: u.conn.ops := by
  cases move with
  | run p rest loop w next queued thread => exact ops_perform s.conn p.thread w p.functor
  | perform f free => exact ops_perform s.conn _ _ f
  | sendNow message w connected => exact ops_perform s.conn s.loop.threadId w (.sendInLoop message)
  | shutdownNow connected => exact ops_perform (s.conn.setState .kDisconnecting) 0 (.wrote 0) .shutdownInLoop
  | handleClose l kind =>
    simp only [TcpConnection.handleClose]
    grind
  | handleWrite w => exact ops_handleWrite_grow s.conn w
  | _ => exact List.prefix_rfl

/-- The write side has been closed in between, with nothing in the buffer. -/
def ShutSince (s u : ConnLoop) : Prop :=
  ∃ before after, u.conn.ops = s.conn.ops ++ before ++ .shutdownWrite [] :: after

/-- Where a `shutdown` that was called in `s` can be in `u`. -/
def Pledged (s u : ConnLoop) : Prop := ShutSince s u ∨ u.leaving = true ∨ u.lingers = true

theorem ShutSince.later (shut : ShutSince s m) (more : m.conn.ops <+: u.conn.ops) : ShutSince s u := by
  obtain ⟨before,after,ops⟩ := shut
  obtain ⟨later,same⟩ := more
  exact ⟨before,after ++ later,by rw [← same,ops,List.append_assoc,List.cons_append]⟩

theorem ShutSince.earlier (more : s.conn.ops <+: m.conn.ops) (shut : ShutSince m u) : ShutSince s u := by
  obtain ⟨before,after,ops⟩ := shut
  obtain ⟨later,same⟩ := more
  exact ⟨later ++ before,after,by rw [ops,← same,List.append_assoc s.conn.ops]⟩

theorem lingers_iff : s.lingers = true ↔ s.conn.state = .kDisconnecting ∧ s.conn.channel.isWriting = true := by
  simp [ConnLoop.lingers]

/-- The write event stays on, and a message goes to the end of the buffer. -/
theorem lingers_perform (c : TcpConnection) (t : Nat) (w : Write) (f : ConnFunctor) (closing : c.state = .kDisconnecting)
    (writing : c.channel.isWriting = true) (alive : (c.perform t w f).1.state ≠ .kDisconnected) :
    (c.perform t w f).1.state = .kDisconnecting ∧ (c.perform t w f).1.channel.isWriting = true ∧
      (c.perform t w f).1.outputBuffer.length = c.outputBuffer.length + f.len := by
  cases f with
  | sendInLoop message =>
    simp only [TcpConnection.perform,TcpConnection.sendInLoop,TcpConnection.direct,TcpConnection.buffer,ConnFunctor.len]
    grind
  | shutdownInLoop => simp [TcpConnection.perform,TcpConnection.shutdownInLoop,writing,closing,ConnFunctor.len]
  | forceCloseInLoop =>
    simp [TcpConnection.perform,TcpConnection.forceCloseInLoop,TcpConnection.handleClose,closing] at alive
  | startReadInLoop =>
    grind [TcpConnection.perform,TcpConnection.startReadInLoop,Channel.enableReading,ConnFunctor.len]
  | stopReadInLoop =>
    grind [TcpConnection.perform,TcpConnection.stopReadInLoop,Channel.disableReading,ConnFunctor.len]
  | connectEstablished => grind [TcpConnection.perform,TcpConnection.connectEstablished,ConnFunctor.len]
  | connectDestroyed =>
    grind [TcpConnection.perform,TcpConnection.connectDestroyed,TcpConnection.removeChannel,ConnFunctor.len]
  | _ => exact ⟨closing,writing,rfl⟩

/-- A write of `handleWrite` empties the buffer and closes the write side, or takes from the buffer. -/
theorem lingers_handleWrite (c : TcpConnection) (w : Write) (closing : c.state = .kDisconnecting)
    (writing : c.channel.isWriting = true) :
    (∃ before, (c.handleWrite w).1.ops = c.ops ++ before ++ [.shutdownWrite []]) ∨
    ((c.handleWrite w).1.state = .kDisconnecting ∧ (c.handleWrite w).1.channel.isWriting = true ∧
      (c.handleWrite w).1.outputBuffer = c.outputBuffer.drop w.nwrote ∧
      (0 < w.nwrote → w.nwrote < c.outputBuffer.length)) := by
  unfold TcpConnection.handleWrite
  simp only [writing,if_true,closing]
  split
  · rename_i drained
    left
    have empty : c.outputBuffer.drop w.nwrote = [] := List.length_eq_zero_iff.mp drained.2
    refine ⟨[.write c.outputBuffer w],?_⟩
    simp [TcpConnection.shutdownInLoop,Channel.disableWriting,empty]
  · rename_i kept
    right
    refine ⟨rfl,writing,rfl,fun positive => ?_⟩
    rw [List.length_drop] at kept
    omega

theorem perm_pushSend {loop : EventLoop ConnFunctor} {t : Nat} {message : List UInt8}
    (first : (s.calls.find? fun c => c.thread = t) = some ⟨t,.send message⟩)
    (queued : Queued s.loop loop [⟨.sendInLoop message,t,s.loop.looping⟩]) :
    ({s with loop := loop, calls := s.calls.erase ⟨t,.send message⟩} : ConnLoop).inFlight.Perm s.inFlight := by
  have calls := (List.perm_cons_erase (List.mem_of_find?_eq_some first)).filterMap callOf
  simp only [ConnLoop.inFlight,queued.queued,List.filterMap_append,List.append_assoc]
  exact (calls.symm).append_left _

theorem sendOf_len (p : Push ConnFunctor) : ((sendOf p).toList.flatMap Sent.message).length = p.functor.len := by
  obtain ⟨f,t,looping⟩ := p
  cases f with
  | sendInLoop message => simp [sendOf,ConnFunctor.len]
  | _ => rfl

theorem lingers_frame (lingers : s.lingers = true) (state : u.conn.state = .kDisconnecting)
    (writing : u.conn.channel = s.conn.channel) (buffer : u.conn.outputBuffer = s.conn.outputBuffer)
    (flight : u.inFlight.Perm s.inFlight) : u.lingers = true ∧ u.toWrite ≤ s.toWrite := by
  constructor
  · rw [lingers_iff,writing]
    exact ⟨state,(lingers_iff.mp lingers).2⟩
  · rw [ConnLoop.toWrite,ConnLoop.toWrite,buffer,(flight.flatMap_right Sent.message).length_eq]

/-- Steps other than `handleWrite`. -/
theorem lingers_move (lingers : s.lingers = true) (alive : u.conn.state ≠ .kDisconnected) (move : ConnMove s l u)
    (other : ∀ w, l ≠ .handleWrite w) : u.lingers = true ∧ u.toWrite ≤ s.toWrite := by
  obtain ⟨closing,writing⟩ := lingers_iff.mp lingers
  have unconnected : s.conn.state ≠ .kConnected := by simp [closing]
  cases move with
  | loop l loop queued =>
    exact lingers_frame lingers closing rfl rfl (by simp [ConnLoop.inFlight,queued.queued])
  | queue t f loop free queued =>
    exact lingers_frame lingers closing rfl rfl (.of_eq (inFlight_queued queued (free_sendOf free _ _)))
  | run p rest loop w next queued thread =>
    obtain ⟨state,on,buffer⟩ := lingers_perform s.conn p.thread w p.functor closing writing alive
    refine ⟨lingers_iff.mpr ⟨state,on⟩,?_⟩
    rw [ConnLoop.toWrite,ConnLoop.toWrite,inFlight_run queued w,List.flatMap_append,List.length_append,sendOf_len]
    simp only [ConnLoop.settle,buffer]
    omega
  | perform f free =>
    obtain ⟨state,on,buffer⟩ := lingers_perform s.conn s.loop.threadId (.wrote 0) f closing writing alive
    refine ⟨lingers_iff.mpr ⟨state,on⟩,?_⟩
    have len : f.len = 0 := by
      cases f with
      | sendInLoop message => cases free
      | _ => rfl
    rw [ConnLoop.toWrite,ConnLoop.toWrite,
      inFlight_settle _ fun g notice => notice_sendOf (notice_perform s.conn _ _ f g notice)]
    simp only [ConnLoop.settle,buffer,len]
    omega
  | give t f loop free queued =>
    exact lingers_frame lingers closing rfl rfl (.of_eq (inFlight_queued queued (free_sendOf free _ _)))
  | sendNow message w connected => exact absurd connected unconnected
  | send t message w foreign connected => exact absurd connected unconnected
  | shutdownNow connected => exact absurd connected unconnected
  | shutdown t foreign connected => exact absurd connected unconnected
  | forceCloseNow connected =>
    refine lingers_frame lingers rfl rfl rfl (.of_eq (inFlight_settle _ ?_))
    rintro _ ⟨⟩ t looping
    rfl
  | forceClose t foreign => exact lingers_frame lingers closing rfl rfl (.of_eq (by simp [ConnLoop.inFlight,callOf]))
  | setState t k inside => exact lingers_frame lingers rfl rfl rfl (.of_eq (inFlight_setState _ t k))
  | pushSend t message loop first queued => exact lingers_frame lingers closing rfl rfl (perm_pushSend first queued)
  | pushClose t k loop inside queued => exact lingers_frame lingers closing rfl rfl (.of_eq (inFlight_pushClose queued))
  | handleClose l kind => simp [TcpConnection.handleClose,closing] at alive
  | handleWrite w => exact absurd rfl (other w)
  | stay l => exact ⟨lingers,Nat.le_refl _⟩

theorem lingers_step (ordered : Ordered s.loop) (lingers : s.lingers = true) (alive : u.conn.state ≠ .kDisconnected)
    (ok : connStep fd s l = some u) :
    ShutSince s u ∨ (u.lingers = true ∧ (if l.drains then 1 else 0) + u.toWrite ≤ s.toWrite) := by
  obtain ⟨closing,writing⟩ := lingers_iff.mp lingers
  by_cases written : ∃ w, l = .handleWrite w
  · obtain ⟨w,rfl⟩ := written
    obtain ⟨_,ok⟩ := Option.ite_none_left_eq_some.mp ok
    obtain ⟨_,⟨⟩⟩ := Option.ite_none_right_eq_some.mp ok
    rcases lingers_handleWrite s.conn w closing writing with ⟨before,shut⟩ | ⟨state,on,buffer,less⟩
    · exact .inl ⟨before,[],shut⟩
    · refine .inr ⟨lingers_iff.mpr ⟨state,on⟩,?_⟩
      rw [ConnLoop.toWrite,ConnLoop.toWrite,
        inFlight_settle _ fun f notice => notice_sendOf (notice_handleWrite s.conn w f notice)]
      simp only [ConnLoop.settle,buffer,List.length_drop,ConnLabel.drains,decide_eq_true_eq]
      split
      · rename_i positive
        have := less positive
        omega
      · omega
  · have other (w : Write) : l ≠ .handleWrite w := fun same => written ⟨w,same⟩
    have idle : l.drains = false := by
      cases l with
      | handleWrite w => exact absurd rfl (other w)
      | _ => rfl
    obtain ⟨on,less⟩ := lingers_move lingers alive (connStep_move ordered ok).1 other
    refine .inr ⟨on,?_⟩
    simpa [idle] using less

/-- A connection that has not been disconnected. Who has still to run `shutdownInLoop` has set
`kDisconnecting`. -/
structure Live (s : ConnLoop) : Prop where
  ordered : Ordered s.loop
  streaming : Streaming s.conn
  alive : s.conn.state ≠ .kDisconnected
  queue : ∀ p ∈ s.loop.queued, p.functor = .shutdownInLoop → s.conn.state = .kDisconnecting
  calls : ∀ c ∈ s.calls, ∀ k, c.pc = .closing k → s.conn.state = .kDisconnecting

theorem Live.step (live : Live s) (ok : connStep fd s l = some u) (alive : u.conn.state ≠ .kDisconnected) : Live u := by
  obtain ⟨move,ordered⟩ := connStep_move live.ordered ok
  have stays (closing : s.conn.state = .kDisconnecting) : u.conn.state = .kDisconnecting :=
    isClosing_alive (isClosing_move move (by rw [closing]; rfl)) alive
  refine ⟨ordered,streaming_move live.streaming move (fun _ _ _ => live.alive) (fun _ _ _ => live.alive),alive,?_,?_⟩
  · intro p inside shut
    rcases queued_move move inside with old | origin
    · exact stays (live.queue p old shut)
    · rw [shut] at origin
      cases origin with
      | close t k called same => exact stays (live.calls _ called k rfl)
      | notice kind => cases kind
      | send message same => cases same
      | free kind given => cases kind
      | forceClose own same => cases same
  · intro c inside k closing
    rcases calls_move move inside with old | origin
    · exact stays (live.calls c old k closing)
    · cases origin with
      | closing j set called same => exact set
      | send message w named connected same => simp [same] at closing
      | shutdown named foreign same => simp [same] at closing
      | forceClose named foreign same => simp [same] at closing

theorem newConnLoop_live (threadId mark : Nat) (high complete : Bool) : Live (newConnLoop threadId mark high complete) :=
  ⟨⟨rfl,fun _ _ => rfl⟩,newConnLoop_streaming threadId mark high complete,nofun,
    fun _ inside => absurd inside List.not_mem_nil,fun _ inside => absurd inside List.not_mem_nil⟩

/-- A connection that is open has never been disconnected. -/
theorem live_reached (reached : Reachable NewConnLoop (connStep fd) s) (connected : s.conn.state = .kConnected) :
    Live s := by
  have unclosed := Reachable.invariant (fun s => Ordered s.loop ∧ (s.conn.state.isClosing = false → Live s))
    (by
      rintro s ⟨threadId,mark,high,complete,rfl⟩
      have live := newConnLoop_live threadId mark high complete
      exact ⟨live.ordered,fun _ => live⟩)
    (fun s l u before ok => by
      obtain ⟨ordered,live⟩ := before
      obtain ⟨move,after⟩ := connStep_move ordered ok
      refine ⟨after,fun still => ?_⟩
      have was : s.conn.state.isClosing = false := by
        by_contra closing
        rw [isClosing_move move (by simpa using closing)] at still
        cases still
      refine (live was).step ok fun gone => ?_
      rw [gone] at still
      cases still)
    reached
  exact unclosed.2 (by rw [connected]; rfl)

theorem survives_alive (survives : s.survives fd l = true) (ok : connStep fd s l = some u) :
    u.conn.state ≠ .kDisconnected := by
  simpa [ConnLoop.survives,ok] using survives

theorem live_run {ls : List ConnLabel} (run : Run (connStep fd) s ls u) (live : Live s)
    (along : Along (connStep fd) (fun s l => s.survives fd l = true) s ls) : Live u :=
  run.keeps _ Live (fun _ _ _ before survives ok => before.step ok (survives_alive survives ok)) along live

theorem ops_run {ls : List ConnLabel} (run : Run (connStep fd) s ls u) (live : Live s)
    (along : Along (connStep fd) (fun s l => s.survives fd l = true) s ls) : s.conn.ops <+: u.conn.ops := by
  have kept := run.keeps _ (fun u => Live u ∧ s.conn.ops <+: u.conn.ops)
    (fun v l w before survives ok =>
      ⟨before.1.step ok (survives_alive survives ok),before.2.trans (ops_move (connStep_move before.1.ordered ok).1)⟩)
    along ⟨live,List.prefix_rfl⟩
  exact kept.2

/-- Every write on the way takes from what is to be written, until the write side is closed. -/
theorem lingers_run {ls : List ConnLabel} (run : Run (connStep fd) m ls u) (live : Live m) (lingers : m.lingers = true)
    (along : Along (connStep fd) (fun s l => s.survives fd l = true) m ls) :
    ShutSince m u ∨ (u.lingers = true ∧ ls.countP ConnLabel.drains + u.toWrite ≤ m.toWrite) := by
  induction run with
  | nil => exact .inr ⟨lingers,by simp⟩
  | cons s l t ls u head tail ih =>
    have alive := survives_alive along.1 head
    have next := live.step head alive
    have rest := along.2 t head
    rcases lingers_step live.ordered lingers alive head with shut | ⟨on,less⟩
    · exact .inl (shut.later (ops_run tail next rest))
    · rcases ih next on rest with shut | ⟨last,fewer⟩
      · exact .inl (shut.earlier (ops_move (connStep_move live.ordered head).1))
      · refine .inr ⟨last,?_⟩
        rw [List.countP_cons]
        omega

theorem leaving_iff : s.leaving = true ↔ (∃ c ∈ s.calls, c.pc.shuts = true) ∨
    ∃ p ∈ s.loop.queued, p.functor = .shutdownInLoop := by
  simp [ConnLoop.leaving]

theorem leaving_kept (leaving : s.leaving = true) (calls : ∀ c ∈ s.calls, c.pc.shuts = true → c ∈ u.calls)
    (queue : ∀ p ∈ s.loop.queued, p.functor = .shutdownInLoop → p ∈ u.loop.queued) : u.leaving = true := by
  rw [leaving_iff] at leaving ⊢
  rcases leaving with ⟨c,inside,shuts⟩ | ⟨p,inside,shut⟩
  · exact .inl ⟨c,calls c inside shuts,shuts⟩
  · exact .inr ⟨p,queue p inside shut,shut⟩

theorem mem_queued_settle (q : TcpConnection × Option ConnFunctor) {p : Push ConnFunctor} (inside : p ∈ s.loop.queued) :
    p ∈ (s.settle q).loop.queued := by
  obtain ⟨c,queued⟩ := q
  cases queued with
  | none => exact inside
  | some f => simp [ConnLoop.settle,inside]

/-- `shutdownInLoop` closes the write side, or leaves it to `handleWrite`. -/
theorem shutdownInLoop_effect (live : Live s) {c : TcpConnection} (ops : c.ops = s.conn.ops)
    (buffer : c.outputBuffer = s.conn.outputBuffer) (channel : c.channel = s.conn.channel)
    (closing : c.state = .kDisconnecting) (done : u.conn = c.shutdownInLoop) : ShutSince s u ∨ u.lingers = true := by
  cases writing : s.conn.channel.isWriting with
  | false =>
    have empty : s.conn.outputBuffer = [] := by
      by_contra some
      rw [(live.streaming.writing live.alive).mpr some] at writing
      cases writing
    refine .inl ⟨[],[],?_⟩
    rw [done,TcpConnection.shutdownInLoop,channel,writing,buffer,empty,ops]
    simp
  | true =>
    have same : u.conn = c := by rw [done,TcpConnection.shutdownInLoop,channel,writing,if_pos rfl]
    rw [lingers_iff,same,channel]
    exact .inr ⟨closing,writing⟩

theorem leaving_run (live : Live s) (leaving : s.leaving = true) {p : Push ConnFunctor}
    {loop : EventLoop ConnFunctor} (w : Write) (queued : s.loop.queued = p :: loop.queued) :
    let u := ({s with loop := loop} : ConnLoop).settle (s.conn.perform p.thread w p.functor)
    Pledged s u := by
  intro u
  by_cases shut : p.functor = .shutdownInLoop
  · have closing := live.queue p (by simp [queued]) shut
    have done : u.conn = s.conn.shutdownInLoop := by simp [u,ConnLoop.settle,shut,TcpConnection.perform]
    exact (shutdownInLoop_effect live rfl rfl rfl closing done).imp_right .inr
  · refine .inr (.inl (leaving_kept leaving (fun _ inside _ => inside) fun q inside same => ?_))
    rw [queued] at inside
    rcases List.mem_cons.mp inside with rfl | later
    · exact absurd same shut
    · exact mem_queued_settle _ later

theorem leaving_move (live : Live s) (leaving : s.leaving = true) (move : ConnMove s l u) : Pledged s u := by
  have stays (calls : ∀ c ∈ s.calls, c.pc.shuts = true → c ∈ u.calls)
      (queue : ∀ p ∈ s.loop.queued, p.functor = .shutdownInLoop → p ∈ u.loop.queued) : Pledged s u :=
    .inr (.inl (leaving_kept leaving calls queue))
  have pushed {loop : EventLoop ConnFunctor} {d : Push ConnFunctor} (queued : Queued s.loop loop [d]) :
      ∀ p ∈ s.loop.queued, p.functor = .shutdownInLoop → p ∈ loop.queued := by
    intro p inside _
    simp [queued.queued,inside]
  cases move with
  | loop l loop queued =>
    refine stays (fun _ inside _ => inside) fun p inside _ => ?_
    simpa [queued.queued] using inside
  | queue t f loop free queued => exact stays (fun _ inside _ => inside) (pushed queued)
  | run p rest loop w next queued thread => exact leaving_run live leaving w queued
  | perform f free => exact stays (fun _ inside _ => inside) fun _ inside _ => mem_queued_settle _ inside
  | give t f loop free queued => exact stays (fun _ inside _ => inside) (pushed queued)
  | sendNow message w connected =>
    exact stays (fun _ inside _ => inside) fun _ inside _ => mem_queued_settle (s := s) _ inside
  | send t message w foreign connected =>
    exact stays (fun _ inside _ => List.mem_append.mpr (.inl inside)) fun _ inside _ => inside
  | shutdownNow connected => exact stays (fun _ inside _ => inside) fun _ inside _ => inside
  | shutdown t foreign connected =>
    exact stays (fun _ inside _ => List.mem_append.mpr (.inl inside)) fun _ inside _ => inside
  | forceCloseNow connected => exact stays (fun _ inside _ => inside) fun _ inside _ => mem_queued_settle _ inside
  | forceClose t foreign =>
    exact stays (fun _ inside _ => List.mem_append.mpr (.inl inside)) fun _ inside _ => inside
  | setState t k inside =>
    cases k with
    | shutdown => exact .inr (.inl (leaving_iff.mpr (.inl ⟨⟨t,.closing .shutdown⟩,List.mem_cons_self,rfl⟩)))
    | forceClose =>
      refine stays (fun c inside shuts => List.mem_cons_of_mem _ ?_) fun _ inside _ => inside
      refine (List.mem_erase_of_ne ?_).mpr inside
      rintro rfl
      cases shuts
  | pushSend t message loop first queued =>
    refine stays (fun c inside shuts => (List.mem_erase_of_ne ?_).mpr inside) (pushed queued)
    rintro rfl
    cases shuts
  | pushClose t k loop inside queued =>
    cases k with
    | shutdown =>
      refine .inr (.inl (leaving_iff.mpr (.inr ⟨⟨.shutdownInLoop,t,s.loop.looping⟩,?_,rfl⟩)))
      simp [queued.queued,Close.functor]
    | forceClose =>
      refine stays (fun c inside shuts => (List.mem_erase_of_ne ?_).mpr inside) (pushed queued)
      rintro rfl
      cases shuts
  | handleClose l kind => exact stays (fun _ inside _ => inside) fun _ inside _ => inside
  | handleWrite w => exact stays (fun _ inside _ => inside) fun _ inside _ => mem_queued_settle _ inside
  | stay l => exact .inr (.inl leaving)

theorem Pledged.step (live : Live m) (grown : s.conn.ops <+: m.conn.ops) (pledged : Pledged s m)
    (ok : connStep fd m l = some u) (alive : u.conn.state ≠ .kDisconnected) : Pledged s u := by
  have move := (connStep_move live.ordered ok).1
  rcases pledged with shut | leaving | lingers
  · exact .inl (shut.later (ops_move move))
  · exact (leaving_move live leaving move).imp_left fun shut => shut.earlier grown
  · rcases lingers_step live.ordered lingers alive ok with shut | ⟨on,_⟩
    · exact .inl (shut.earlier grown)
    · exact .inr (.inr on)

theorem pledged_run {ls : List ConnLabel} (run : Run (connStep fd) r ls m) (live : Live r)
    (grown : s.conn.ops <+: r.conn.ops) (pledged : Pledged s r)
    (along : Along (connStep fd) (fun s l => s.survives fd l = true) r ls) : Pledged s m := by
  induction run with
  | nil => exact pledged
  | cons v l t ls u head tail ih =>
    have alive := survives_alive along.1 head
    refine ih (live.step head alive) ?_ ?_ (along.2 t head)
    · exact grown.trans (ops_move (connStep_move live.ordered head).1)
    · exact pledged.step live grown head alive

/-- The call itself: in the loop thread it does `shutdownInLoop`, elsewhere it is on its way. -/
theorem shutdown_pledges (live : Live s) (connected : s.conn.state = .kConnected) {t : Nat}
    (ok : connStep fd s (.shutdown t) = some r) : Pledged s r ∧ r.conn.state ≠ .kDisconnected := by
  obtain ⟨_,ok⟩ := Option.ite_none_left_eq_some.mp ok
  obtain ⟨_,ok⟩ := Option.ite_none_right_eq_some.mp ok
  rw [if_neg (by simpa using connected)] at ok
  split at ok
  · cases ok
    refine ⟨(shutdownInLoop_effect (c := s.conn.setState .kDisconnecting) live rfl rfl rfl rfl rfl).imp_right .inr,?_⟩
    rw [state_shutdownInLoop]
    nofun
  · cases ok
    refine ⟨.inr (.inl (leaving_iff.mpr (.inl ⟨⟨t,.close .shutdown⟩,by simp,rfl⟩))),?_⟩
    simp [connected]

/-- After a `shutdown` of an open connection that nobody disconnects, as soon as the loop has
had the call: the write side has been closed with nothing in the buffer, or the write event is
on and each `write` of `handleWrite` that takes something has lowered the number of bytes to
write, so that no more than these writes are missing. -/
theorem shutdown_completes (s r m u : ConnLoop) (t : Nat) (ls later : List ConnLabel)
    (reached : Reachable NewConnLoop (connStep fd) s) (connected : s.conn.state = .kConnected)
    (call : connStep fd s (.shutdown t) = some r) (run : Run (connStep fd) r ls m) (arrived : m.leaving = false)
    (onward : Run (connStep fd) m later u)
    (along : Along (connStep fd) (fun s l => s.survives fd l = true) r (ls ++ later)) :
    (∃ before after, u.conn.ops = s.conn.ops ++ before ++ .shutdownWrite [] :: after) ∨
      (u.conn.state = .kDisconnecting ∧ u.conn.channel.isWriting = true ∧ 0 < u.toWrite ∧
        later.countP ConnLabel.drains + u.toWrite ≤ m.toWrite) := by
  obtain ⟨before,after⟩ := along.split run
  have live := live_reached reached connected
  obtain ⟨pledged,alive⟩ := shutdown_pledges live connected call
  have grown := ops_move (connStep_move live.ordered call).1
  have next := live.step call alive
  have meanwhile := live_run run next before
  have whole := grown.trans (ops_run run next before)
  rcases pledged_run run next grown pledged before with shut | leaving | lingers
  · exact .inl (shut.later (ops_run onward meanwhile after))
  · rw [arrived] at leaving
    cases leaving
  · rcases lingers_run onward meanwhile lingers after with shut | ⟨last,fewer⟩
    · exact .inl (shut.earlier whole)
    · obtain ⟨closing,writing⟩ := lingers_iff.mp last
      have done := live_run onward meanwhile after
      have some := (done.streaming.writing done.alive).mp writing
      refine .inr ⟨closing,writing,?_,fewer⟩
      exact Nat.add_pos_left (List.length_pos_iff.mpr some) _

/-- The loop thread has buffered two bytes. -/
private def twoBuffered : List ConnLabel := [.runInLoop 0 .connectEstablished,.send 0 [1,2] (.failed .ewouldblock)]

/-- Thread 1 has called `shutdown`, and the loop has had the call. -/
private def callArrives : List ConnLabel :=
  [.setState 1,.push 1,.loop (.wakeup 1),.loop .loop,.loop .check,.loop (.poll true),.loop .handleRead,.loop .handled,
    .loop .swap,.run (.wrote 0),.loop .finish,.loop .check,.loop (.poll false)]

private def oneByteEach : List ConnLabel := [.handleWrite (.wrote 1),.handleWrite (.wrote 1)]

/-- Two writes of a byte are enough. -/
theorem shutdown_completes_twoBytes :
    (connRun (twoBuffered ++ [.shutdown 1] ++ callArrives)).toWrite = 2 ∧
    ∃ before after, (connRun (twoBuffered ++ [.shutdown 1] ++ callArrives ++ oneByteEach)).conn.ops =
      (connRun twoBuffered).conn.ops ++ before ++ .shutdownWrite [] :: after := by
  have left : (connRun (twoBuffered ++ [.shutdown 1] ++ callArrives)).toWrite = 2 := by decide +kernel
  refine ⟨left,?_⟩
  have enough : oneByteEach.countP ConnLabel.drains = 2 := by decide +kernel
  have step := final_step (connStep linuxEventFd) (newConnLoop 0 64 true true) twoBuffered (.shutdown 1) (by decide +kernel)
  have run := final_append (connStep linuxEventFd) (newConnLoop 0 64 true true) (twoBuffered ++ [.shutdown 1]) callArrives
    (by decide +kernel)
  have onward := final_append (connStep linuxEventFd) (newConnLoop 0 64 true true)
    (twoBuffered ++ [.shutdown 1] ++ callArrives) oneByteEach (by decide +kernel)
  rcases shutdown_completes _ _ _ _ 1 callArrives oneByteEach
      ⟨_,twoBuffered,⟨0,64,true,true,rfl⟩,final_run _ _ _ (by decide +kernel)⟩ (by decide +kernel) step run
      (by decide +kernel) onward (by decide +kernel) with shut | ⟨_,_,some,bound⟩
  · exact shut
  · have most := Nat.le_trans bound (Nat.le_of_eq left)
    rw [enough] at most
    exact absurd (Nat.lt_of_lt_of_le (Nat.lt_add_of_pos_right some) most) (Nat.lt_irrefl 2)

end Reactor.Net
