import Reactor.Net.ServerLife

/-! The assertions of the server. One that fails leaves a trace in what was done to a
connection; only the one in `EventLoop::removeChannel` is about the loop. -/
namespace Reactor.Net
open Reactor.Transition

/-- What the function whose assertion failed has recorded last. -/
def Assertion.trace : Assertion → Act → Prop
  | .handleClose, .handleClose | .connectEstablished, .connectEstablished => True
  | .isNoneEvent, .remove b => b = false
  | .erased, .removeConnectionInLoop n => n ≠ 1
  | _, _ => False

def Traced (s : Server) (x : Assertion) : Prop :=
  ∃ c k acts act, s.conns c = some k ∧ k.acts = acts ++ [act] ∧ x.trace act

/-- The loop is about to dispatch, or has dispatched, an event to a channel that is not the current one. -/
def IoThread.holds (th : IoThread) (ch : Chan) : Prop :=
  th.loop.pc = .handling ∧ th.current ≠ some ch ∧ ch ∈ th.activeChannels

section
variable {names : Nat → String} {s u v : Server} {i c : Nat} {k : Conn} {fd : EventFd} {x : Assertion} {l : ServerLabel}

theorem traced_setConn (s : Server) (c : Nat) (k : Conn) (acts : List Act) (act : Act) (trace : x.trace act) :
    Traced ((s.setConn c {k with acts := acts ++ [act]}).fail x) x :=
  ⟨c,_,acts,act,Function.update_self _ _ _,rfl,trace⟩

theorem removeChannel_failed {ch : Chan} (fine : s.failed = none) (bad : (s.removeChannel i ch).failed = some x) :
    x = .activeChannels ∧ (s.threads i).holds ch := by
  unfold Server.removeChannel at bad
  simp only at bad
  split at bad
  · rename_i held
    cases bad
    exact ⟨rfl,held⟩
  · exact nomatch fine.symm.trans bad

theorem remove_failed (fine : s.failed = none) (bad : (s.remove i c k).failed = some x) :
    Traced (s.remove i c k) x ∨ x = .activeChannels ∧ (s.threads i).holds (.conn c) := by
  unfold Server.remove at bad ⊢
  simp only at bad ⊢
  split at bad
  · exact .inr (removeChannel_failed (s := s.setConn c _) fine bad)
  · rename_i busy
    cases bad
    rw [if_neg busy]
    exact .inl (traced_setConn s c k k.acts _ (Bool.eq_false_iff.mpr busy))

theorem connectEstablished_failed (fine : s.failed = none) (bad : (s.connectEstablished c k).failed = some x) :
    Traced (s.connectEstablished c k) x := by
  unfold Server.connectEstablished at bad ⊢
  split at bad
  · exact nomatch fine.symm.trans bad
  · rename_i other
    cases bad
    rw [if_neg other]
    exact traced_setConn s c k k.acts _ trivial

theorem connectDestroyed_failed (fine : s.failed = none) (bad : (s.connectDestroyed i c k).failed = some x) :
    Traced (s.connectDestroyed i c k) x ∨ x = .activeChannels ∧ (s.threads i).holds (.conn c) := by
  unfold Server.connectDestroyed at bad ⊢
  split at bad
  · exact nomatch fine.symm.trans bad
  · rename_i other
    rw [if_neg other]
    exact remove_failed fine bad

theorem handleClose_failed (fine : s.failed = none) (bad : (s.handleClose i c k).failed = some x) :
    Traced (s.handleClose i c k) x := by
  unfold Server.handleClose at bad ⊢
  split at bad
  · exact nomatch fine.symm.trans bad
  · rename_i shut
    cases bad
    rw [if_neg shut]
    exact traced_setConn s c k k.acts _ trivial

theorem queueInLoop_failed {t : Nat} {f : ServerFunctor} (ok : v.queueInLoop i t f = some u) : u.failed = v.failed := by
  obtain ⟨_,⟨⟩⟩ := Option.ite_none_right_eq_some.mp ok
  rfl

theorem removeConnectionInLoop_failed (fine : s.failed = none) (ok : s.removeConnectionInLoop names c k = some u)
    (bad : u.failed = some x) : Traced u x := by
  unfold Server.removeConnectionInLoop at ok
  split at ok
  · cases ok
    exact nomatch fine.symm.trans bad
  · simp only at ok
    split at ok
    · rw [queueInLoop_failed ok] at bad
      exact nomatch fine.symm.trans bad
    · rename_i count
      cases ok
      cases bad
      exact traced_setConn _ c k k.acts _ count

theorem removeConnection_failed (fine : s.failed = none) (ok : s.removeConnection names i c k = some u)
    (bad : u.failed = some x) : Traced u x := by
  have still (same : s.failed = some x) : Traced u x := by simp [fine] at same
  unfold Server.removeConnection at ok
  simp only at ok
  split at ok
  · cases ok
    exact still bad
  · split at ok
    · exact removeConnectionInLoop_failed fine ok bad
    · rw [queueInLoop_failed ok] at bad
      exact still bad

theorem settle_failed {r : TcpConnection × Option ConnFunctor} (ok : s.settle i c k r = some u) : u.failed = s.failed := by
  unfold Server.settle at ok
  split at ok
  · cases ok
    rfl
  · rw [queueInLoop_failed ok]
    rfl

theorem newConnection_failed {io : Nat} (ok : s.newConnection names io = some u) : u.failed = s.failed := by
  rw [newConnection_eq] at ok
  split at ok
  · cases ok
    rfl
  · rw [queueInLoop_failed ok]
    rfl

/-- A piece of code whose assertion fails: it leaves a trace, or it removes a channel the loop still holds. -/
theorem piece_failed {cause : Cause} (piece : Piece names s i cause u) (fine : s.failed = none)
    (bad : u.failed = some x) :
    Traced u x ∨ x = .activeChannels ∧ ∃ c, (s.threads i).holds (.conn c) ∧
      (cause = .functor (.conn c .connectDestroyed) ∨ cause = .frame (.remove c)) := by
  have still (same : u.failed = s.failed) : False := by
    rw [same,fine] at bad
    cases bad
  cases piece with
  | skip _ plain => exact (still rfl).elim
  | timer _ plain timers => exact (still rfl).elim
  | dangling r off here => exact (still rfl).elim
  | conn _ plain c k b f acts found op calm about u settled => exact (still (settle_failed settled)).elim
  | delay c k timers found live => exact (still rfl).elim
  | handleClose _ c k acts found closes => exact .inl (handleClose_failed fine bad)
  | connectEstablished c k found => exact .inl (connectEstablished_failed fine bad)
  | connectDestroyed c k found =>
    rcases connectDestroyed_failed fine bad with traced | ⟨rfl,held⟩
    · exact .inl traced
    · exact .inr ⟨rfl,c,held,.inl rfl⟩
  | removeConnectionInLoop c k found u ok => exact .inl (removeConnectionInLoop_failed fine ok bad)
  | closeCallback c k found u ok => exact .inl (removeConnection_failed fine ok bad)
  | remove c k found =>
    rcases remove_failed fine bad with traced | ⟨rfl,held⟩
    · exact .inl traced
    · exact .inr ⟨rfl,c,held,.inr rfl⟩
  | accept r io on here u ok => exact (still (newConnection_failed ok)).elim

/-- The frame that makes thread `i` remove channel `ch`. -/
inductive Removes (s : Server) (i : Nat) : Chan → Prop
  | remove (c : Nat) (rest : List Frame) (next : (s.threads i).stack = .remove c::rest) : Removes s i (.conn c)
  | take (name : String) (c : Nat) (k : Conn) (rest : List (String × Nat)) (stack : List Frame) (base : i = 0)
      (next : (s.threads 0).stack = .destructor::stack) (first : s.connections = (name,c)::rest)
      (found : s.conns c = some k) (home : k.loop = 0) : Removes s i (.conn c)
  | acceptor (stack : List Frame) (base : i = 0) (next : (s.threads 0).stack = .destructor::stack)
      (all : s.connections = []) : Removes s i .acceptor

theorem move_failed (move : ServerMove fd names s l u) (fine : s.failed = none) (bad : u.failed = some x) :
    Traced u x ∨ x = .activeChannels ∧ ∃ i ch, (s.threads i).holds ch ∧ Removes s i ch := by
  have still (same : u.failed = s.failed) : False := by
    rw [same,fine] at bad
    cases bad
  cases move with
  | loop j ll loop passes move => exact (still rfl).elim
  | poll j woken ready loop distinct registered move => exact (still rfl).elim
  | dispatch j ch r rest next here empty done => exact (still rfl).elim
  | begin t d api w k found away => exact (still rfl).elim
  | destroy user on absent => exact (still rfl).elim
  | setState t d f k call found => exact (still rfl).elim
  | push t d f k call found u ok => exact (still ((queueInLoop_failed ok).trans rfl)).elim
  | takeAway r name d k rest stack next first found away u ok =>
    exact (still ((queueInLoop_failed ok).trans rfl)).elim
  | take r name d k rest stack next first found home =>
    rcases connectDestroyed_failed (s := {s with connections := rest}) fine bad with traced | ⟨rfl,held⟩
    · exact .inl traced
    · exact .inr ⟨rfl,0,.conn d,held,.take name d k rest stack rfl next first found home⟩
  | destructed r stack next all =>
    obtain ⟨rfl,held⟩ := removeChannel_failed (s := s.setStack 0 stack) fine bad
    refine .inr ⟨rfl,0,.acceptor,?_,.acceptor stack rfl next all⟩
    simpa [IoThread.holds,Server.setStack,setThread_threads] using held
  | code _ j cause v u user own why pop piece =>
    have before : v.failed = none := by cases pop <;> exact fine
    rcases piece_failed piece before bad with traced | ⟨rfl,c,held,same⟩
    · exact .inl traced
    · cases pop with
      | user d api | timer d timers | handler h r hs empty next => rcases same with none | none <;> cases none
      | functor p loop empty next move =>
        cases move with
        | run f rest next here idle =>
          have calling : LoopPc.calling = .handling := by simpa [Server.setLoop,setThread_threads] using held.1
          cases calling
      | frame frame rest next =>
        rcases same with none | same
        · cases none
        · cases same
          refine .inr ⟨rfl,j,.conn c,?_,.remove c rest next⟩
          simpa [IoThread.holds,Server.setStack,setThread_threads] using held

end

end Reactor.Net
