import Reactor.Net.ServerView

/-! What a step of the server does to each of its loops: at most one step of the loop, and
then the code of the step, which can push functors and leaves the turn of the loop as it is. -/
namespace Reactor.Net
open Reactor.Transition

/-- The functor holds the connection it is bound to, if it is bound to one. -/
def ServerFunctor.bound : ServerFunctor → Bool
  | .conn _ f => f.shared
  | _ => true

/-- The loop of a thread is in the same turn, and has got functors of some kind at most. -/
structure SameTurn (may : ServerFunctor → Prop) (s u : EventLoop ServerFunctor) : Prop where
  pc : u.pc = s.pc
  iteration : u.iteration = s.iteration
  functors : u.functors = s.functors
  pushes : ∃ new, u.pendingFunctors = s.pendingFunctors ++ new ∧ ∀ p ∈ new, may p.functor

def SameTurns (may : ServerFunctor → Prop) (s u : Server) : Prop := ∀ j, SameTurn may (s.threads j).loop (u.threads j).loop

section
variable {names : Nat → String} {s u v : Server} {i j c : Nat} {k : Conn} {fd : EventFd} {l : ServerLabel} {th : IoThread}
  {may : ServerFunctor → Prop}

theorem SameTurn.refl (s : EventLoop ServerFunctor) : SameTurn may s s := ⟨rfl,rfl,rfl,[],(List.append_nil _).symm,nofun⟩

namespace SameTurns

theorem same (threads : u.threads = s.threads) : SameTurns may s u := by
  intro j
  rw [threads]
  exact .refl _

theorem trans (first : SameTurns may s v) (second : SameTurns may v u) : SameTurns may s u := by
  intro j
  obtain ⟨new,pending,allowed⟩ := (first j).pushes
  obtain ⟨more,pending',allowed'⟩ := (second j).pushes
  refine ⟨(second j).pc.trans (first j).pc,(second j).iteration.trans (first j).iteration,
    (second j).functors.trans (first j).functors,new ++ more,by rw [pending',pending,List.append_assoc],fun p member => ?_⟩
  exact (List.mem_append.mp member).elim (allowed p) (allowed' p)

/-- Nothing but the connections has changed before. -/
theorem behind (turns : SameTurns may v u) (threads : v.threads = s.threads) : SameTurns may s u := (same threads).trans turns

theorem setThread (turn : SameTurn may (s.threads i).loop th.loop) : SameTurns may s (s.setThread i th) := by
  intro j
  rw [setThread_threads]
  split
  · rename_i here
    exact here ▸ turn
  · exact .refl _

theorem queueInLoop {t : Nat} {f : ServerFunctor} (allowed : may f) (ok : s.queueInLoop i t f = some u) : SameTurns may s u := by
  obtain ⟨_,⟨⟩⟩ := Option.ite_none_right_eq_some.mp ok
  exact setThread ⟨rfl,rfl,rfl,[⟨f,t,_⟩],rfl,by simpa using allowed⟩

theorem removeChannel (s : Server) (i : Nat) (ch : Chan) : SameTurns may s (s.removeChannel i ch) := by
  unfold Server.removeChannel
  simp only
  split
  · exact same rfl
  · exact setThread (.refl _)

theorem remove (s : Server) (i c : Nat) (k : Conn) : SameTurns may s (s.remove i c k) := by
  unfold Server.remove
  simp only
  split
  · exact behind (removeChannel _ i _) rfl
  · exact same rfl

theorem connectDestroyed (s : Server) (i c : Nat) (k : Conn) : SameTurns may s (s.connectDestroyed i c k) := by
  unfold Server.connectDestroyed
  split
  · exact behind (setThread (.refl _)) rfl
  · exact remove s i c _

theorem handleClose (s : Server) (i c : Nat) (k : Conn) : SameTurns may s (s.handleClose i c k) := by
  unfold Server.handleClose
  split
  · exact behind (setThread (.refl _)) rfl
  · exact same rfl

theorem connectEstablished (s : Server) (c : Nat) (k : Conn) : SameTurns may s (s.connectEstablished c k) := by
  unfold Server.connectEstablished
  split <;> exact same rfl

section
variable (bound : ∀ f, f.bound = true → may f)
include bound

theorem settle {r : TcpConnection × Option ConnFunctor} (own : ∀ f, r.2 = some f → f.callback = true)
    (ok : s.settle i c k r = some u) : SameTurns may s u := by
  unfold Server.settle at ok
  split at ok
  · cases ok
    exact same rfl
  · rename_i f functor
    exact behind (queueInLoop (bound (.conn c f) (callback_shared (own f functor))) ok) rfl

theorem removeConnectionInLoop (ok : s.removeConnectionInLoop names c k = some u) : SameTurns may s u := by
  unfold Server.removeConnectionInLoop at ok
  split at ok
  · cases ok
    exact same rfl
  · simp only at ok
    split at ok
    · exact behind (queueInLoop (bound _ rfl) ok) rfl
    · cases ok
      exact same rfl

theorem removeConnection (ok : s.removeConnection names i c k = some u) : SameTurns may s u := by
  unfold Server.removeConnection at ok
  simp only at ok
  split at ok
  · cases ok
    exact same rfl
  · split at ok
    · exact removeConnectionInLoop bound ok
    · exact behind (queueInLoop (bound _ rfl) ok) rfl

theorem newConnection {io : Nat} (ok : s.newConnection names io = some u) : SameTurns may s u := by
  rw [newConnection_eq] at ok
  split at ok
  · cases ok
    exact behind (connectEstablished _ _ _) rfl
  · exact behind (queueInLoop (bound _ rfl) ok) rfl

theorem piece {cause : Cause} (piece : Piece names s i cause u) : SameTurns may s u := by
  cases piece with
  | skip _ plain => exact same rfl
  | timer _ plain timers => exact setThread (.refl _)
  | dangling r off here => exact same rfl
  | conn _ plain c k b f acts found op calm about u settled => exact settle bound (connOp_queues op) settled
  | delay c k timers found live => exact behind (setThread (.refl _)) rfl
  | handleClose _ c k acts found closes => exact handleClose _ _ _ _
  | connectEstablished c k found => exact connectEstablished _ _ _
  | connectDestroyed c k found => exact connectDestroyed _ _ _ _
  | removeConnectionInLoop c k found u ok => exact removeConnectionInLoop bound ok
  | closeCallback c k found u ok => exact removeConnection bound ok
  | remove c k found => exact remove _ _ _ _
  | accept r io on here u ok => exact newConnection bound ok

end

end SameTurns

/-- The step of loop `j` that a step of the server contains. -/
inductive Drives : ServerLabel → Nat → LoopLabel ServerFunctor → Prop
  | loop (j : Nat) (ll : LoopLabel ServerFunctor) (other : ll ≠ .run) (plain : ∀ t f, ll = .queueInLoop t f → f = .other) :
      Drives (.loop j ll) j ll
  | poll (j : Nat) (woken : Bool) (ready : List (Chan × Revents)) : Drives (.poll j woken ready) j (.poll woken)
  | run (j : Nat) (w : Write) : Drives (.run j w) j .run

/-- What a step of the server does to a loop: one step of the loop at most, and then pushes. -/
inductive Turn (fd : EventFd) (may : ServerFunctor → Prop) (l : ServerLabel) (j : Nat) (s u : EventLoop ServerFunctor) : Prop
  | drive (ll : LoopLabel ServerFunctor) (mid : EventLoop ServerFunctor) (drives : Drives l j ll) (move : LoopMove fd s ll mid)
      (same : SameTurn may mid u)
  | rest (idle : ∀ ll, ¬ Drives l j ll) (same : SameTurn may s u)

/-- What a step pushes: functors that hold their connection, and what a thread has been called for. -/
def Server.pushes (s : Server) (l : ServerLabel) (f : ServerFunctor) : Prop :=
  f.bound = true ∨ ∃ t c, l = .proceed t ∧ s.calls t = some (.push c f)

/-- A step of loop `i`, and then code. -/
theorem turn_setThread {loop : EventLoop ServerFunctor} {ll : LoopLabel ServerFunctor} (own : th.loop = loop)
    (move : LoopMove fd (s.threads i).loop ll loop) (drives : Drives l i ll)
    (behind : SameTurns may (s.setThread i th) u) (j : Nat) : Turn fd may l j (s.threads j).loop (u.threads j).loop := by
  have after := behind j
  rw [setThread_threads] at after
  by_cases here : j = i
  · subst here
    rw [if_pos rfl,own] at after
    exact .drive ll loop drives move after
  · rw [if_neg here] at after
    refine .rest (fun other drives' => here ?_) after
    cases drives <;> cases drives' <;> rfl

theorem cause_label {f : ServerFunctor} (why : s.cause l = some (i,.functor f)) : ∃ w, l = .run i w := by
  cases l with
  | run t w =>
    obtain ⟨p,_,same⟩ := Option.map_eq_some_iff.mp why
    cases same
    exact ⟨w,rfl⟩
  | resume t r =>
    simp only [Server.cause] at why
    split at why <;> cases why
  | _ => cases why

/-- Only a functor is code that a loop steps for. -/
theorem cause_drives {cause : Cause} {ll : LoopLabel ServerFunctor} (why : s.cause l = some (i,cause))
    (drives : Drives l j ll) : ∃ f, cause = .functor f := by
  cases drives with
  | loop j ll | poll j woken ready => cases why
  | run j w =>
    obtain ⟨p,_,same⟩ := Option.map_eq_some_iff.mp why
    cases same
    exact ⟨_,rfl⟩

theorem turn_step (placed : Placed names s) (ok : serverStep fd names s l = some u) (j : Nat) :
    Turn fd (s.pushes l) l j (s.threads j).loop (u.threads j).loop := by
  have bound (f : ServerFunctor) (holds : f.bound = true) : s.pushes l f := .inl holds
  cases placed.move ok with
  | loop i ll loop passes move =>
    refine turn_setThread rfl move (.loop i ll ?_ ?_) (.same rfl) j
    · rintro rfl
      cases passes
    · rintro t f rfl
      simpa [Server.passes] using passes
  | poll i woken ready loop distinct registered move =>
    exact turn_setThread rfl move (.poll i woken ready) (.same rfl) j
  | dispatch i ch r rest next here empty done =>
    refine .rest (fun ll drives => by cases drives) (SameTurns.setThread ?_ j)
    exact (.refl _)
  | code _ i cause v u user own why pop piece =>
    have behind := SameTurns.piece bound piece
    have popped (turns : SameTurns (s.pushes l) s v) (other : ∀ f, cause ≠ .functor f) :
        Turn fd (s.pushes l) l j (s.threads j).loop (u.threads j).loop := by
      refine .rest (fun ll drives => ?_) ((turns.trans behind) j)
      obtain ⟨f,functor⟩ := cause_drives why drives
      exact other f functor
    cases pop with
    | user c api => exact popped (.same rfl) (fun f same => by cases same)
    | timer c timers => exact popped (.setThread (.refl _)) (fun f same => by cases same)
    | handler h r hs empty next => exact popped (.setThread (.refl _)) (fun f same => by cases same)
    | frame frame rest next => exact popped (.setThread (.refl _)) (fun f same => by cases same)
    | functor p loop empty next move =>
      obtain ⟨w,rfl⟩ := cause_label why
      exact turn_setThread rfl move (.run i w) behind j
  | take r name c k rest stack next first found home =>
    exact .rest (fun ll drives => by cases drives) ((SameTurns.connectDestroyed {s with connections := rest} 0 c k).behind rfl j)
  | takeAway r name c k rest stack next first found away u ok =>
    exact .rest (fun ll drives => by cases drives) ((SameTurns.queueInLoop (bound _ rfl) ok).behind rfl j)
  | destructed r stack next all =>
    have popped : SameTurns (s.pushes (.resume 0 r)) s (s.setStack 0 stack) := .setThread (.refl _)
    exact .rest (fun ll drives => by cases drives) (((popped.trans (.removeChannel _ 0 .acceptor)).trans (.same rfl)) j)
  | begin t c api w k found away => exact .rest (fun ll drives => by cases drives) (SameTurns.same rfl j)
  | setState t c f k call found => exact .rest (fun ll drives => by cases drives) (SameTurns.same rfl j)
  | push t c f k call found u ok =>
    exact .rest (fun ll drives => by cases drives) ((SameTurns.queueInLoop (.inr ⟨t,c,rfl,call⟩) ok).behind rfl j)
  | destroy user on absent =>
    refine .rest (fun ll drives => by cases drives) (SameTurns.setThread ?_ j)
    exact (.refl _)

end

end Reactor.Net
