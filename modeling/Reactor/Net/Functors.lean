import Reactor.Net.EventLoop
import Mathlib.Algebra.Group.Nat.Defs

/-! What becomes of a queued functor. It is started once, after everything that was
pushed before it, and the loop does not sleep over it: while the loop thread runs a
batch or blocks in `poll`, the wake-up for a pending functor is done or under way. -/
namespace Reactor.Net
open Reactor.Transition

variable {F : Type}

structure Fresh (s : EventLoop F) : Prop where
  outside : s.pc = .outside
  unread : s.wakeupFd = 0
  pending : s.pendingFunctors = []
  functors : s.functors = []
  owed : ∀ t, s.owed t = .nothing
  pushes : s.pushes = []
  executed : s.executed = []

/-- The counter of Linux: a write that would overflow it fails and leaves it as it is. -/
def linuxEventFd : EventFd where
  write n := if n < 2^64-2 then n+1 else n
  readable n := by
    split
    · omega
    · omega

def newEventLoop (F : Type) (threadId : Nat) : EventLoop F :=
  ⟨threadId,.outside,false,0,0,false,[],[],fun _ => .nothing,[],[]⟩

theorem newEventLoop_fresh (threadId : Nat) : Fresh (newEventLoop F threadId) :=
  ⟨rfl,rfl,rfl,rfl,fun _ => rfl,rfl,rfl⟩

structure Ordered (s : EventLoop F) : Prop where
  order : s.executed ++ s.functors ++ s.pendingFunctors = s.pushes
  batch : s.pc ≠ .swapped → s.pc ≠ .calling → s.functors = []

@[simp] theorem queueInLoop_pc (s : EventLoop F) (t : Nat) (f : F) : (s.queueInLoop t f).pc = s.pc := rfl

theorem ordered_queueInLoop (s : EventLoop F) (t : Nat) (f : F) (ordered : Ordered s) : Ordered (s.queueInLoop t f) := by
  refine ⟨?_,ordered.batch⟩
  simp only [EventLoop.queueInLoop,EventLoop.owe,← List.append_assoc,ordered.order]

theorem ordered_move (fd : EventFd) (s u : EventLoop F) (l : LoopLabel F) (ordered : Ordered s)
    (move : LoopMove fd s l u) : Ordered u := by
  have before := ordered
  obtain ⟨order,batch⟩ := ordered
  cases move with
  | loop here idle => exact ⟨order,fun _ _ => batch (by simp [here]) (by simp [here])⟩
  | leave here quit => exact ⟨order,fun _ _ => batch (by simp [here]) (by simp [here])⟩
  | stay here on => exact ⟨order,fun _ _ => batch (by simp [here]) (by simp [here])⟩
  | poll woken here positive => exact ⟨order,fun _ _ => batch (by simp [here]) (by simp [here])⟩
  | handleRead here active => exact ⟨order,batch⟩
  | handled here all => exact ⟨order,fun _ _ => batch (by simp [here]) (by simp [here])⟩
  | swap here =>
    have empty := batch (by simp [here]) (by simp [here])
    refine ⟨?_,fun other => absurd rfl other⟩
    simpa [empty] using order
  | run f rest next here idle =>
    refine ⟨?_,fun _ other => absurd rfl other⟩
    simpa [next] using order
  | finish here idle done => exact ⟨order,fun _ _ => done⟩
  | queueInLoop t f ready => exact ordered_queueInLoop s t f before
  | quit t ready => exact ⟨order,batch⟩
  | wakeup t owes => exact ⟨order,batch⟩

theorem ordered_reachable (fd : EventFd) {s : EventLoop F} (reached : Reachable Fresh (loopStep fd) s) :
    Ordered s := by
  refine reached.invariant Ordered ?_ fun s l u ordered ok => ordered_move fd s u l ordered (loopStep_move fd s u l ok)
  intro s fresh
  exact ⟨by simp [fresh.executed,fresh.functors,fresh.pending,fresh.pushes],fun _ _ => fresh.functors⟩

/-- The functors that are still to be started, in order. A swap does not change it: the
loop is a queue in two parts. -/
def EventLoop.queued (s : EventLoop F) : List (Push F) := s.functors ++ s.pendingFunctors

theorem queued_run (fd : EventFd) (s u : EventLoop F) (move : LoopMove fd s .run u) :
    ∃ f, s.functors.head? = some f ∧ s.queued = f :: u.queued := by
  cases move with
  | run f rest next here idle => exact ⟨f,by simp [next],by simp [EventLoop.queued,next]⟩

@[simp] theorem queueInLoop_queued (s : EventLoop F) (t : Nat) (f : F) :
    (s.queueInLoop t f).queued = s.queued ++ [⟨f,t,s.looping⟩] := by
  simp [EventLoop.queued,EventLoop.queueInLoop,EventLoop.owe]

theorem queued_push (fd : EventFd) (s u : EventLoop F) (t : Nat) (f : F)
    (move : LoopMove fd s (.queueInLoop t f) u) : u.queued = s.queued ++ [⟨f,t,s.looping⟩] := by
  cases move with
  | queueInLoop t f ready => exact queueInLoop_queued s t f

theorem queued_still (fd : EventFd) (s u : EventLoop F) (l : LoopLabel F) (ordered : Ordered s)
    (move : LoopMove fd s l u) (start : l ≠ .run) (push : ∀ t f, l ≠ .queueInLoop t f) : u.queued = s.queued := by
  cases move with
  | swap here => simp [EventLoop.queued,ordered.batch (by simp [here]) (by simp [here])]
  | run f rest next here idle => exact absurd rfl start
  | queueInLoop t f ready => exact absurd rfl (push t f)
  | _ => rfl

theorem threadId_move (fd : EventFd) (s u : EventLoop F) (l : LoopLabel F) (move : LoopMove fd s l u) :
    u.threadId = s.threadId := by
  cases move with
  | _ => rfl

/-- A batch that has been swapped in is over when the loop comes to `poll` again. -/
def LoopPc.beforeSwap : LoopPc → Bool
  | .handling | .swapping => true
  | _ => false

/-- Functor 5 is pushed before the loop is entered, 6 by another thread and 7 by functor 5. -/
private def requeued : List (LoopLabel Nat) :=
  [.queueInLoop 0 5,.loop,.check,.queueInLoop 1 6,.wakeup 1,.poll true,.handleRead,.handled,.swap,.run,.queueInLoop 0 7,
    .wakeup 0]

/-- Somebody sees to it that `poll` returns for a pending functor, or the loop thread
queued it before it entered the loop. -/
def EventLoop.alerted (s : EventLoop F) (p : Push F) : Prop :=
  0 < s.wakeupFd ∨ (∃ t, s.owed t = .queueInLoop) ∨ (p.thread = s.threadId ∧ p.looping = false)

structure Alert (s : EventLoop F) : Prop where
  owes : s.owed s.threadId ≠ .nothing → s.pc = .calling
  alerted : s.pc.beforeSwap = false → ∀ p ∈ s.pendingFunctors, s.alerted p

/-- A thread that owes nothing takes on a debt: the debts of the others stay. -/
theorem alerted_owe (s u : EventLoop F) (t : Nat) (owed : Owed) (p : Push F) (free : s.owed t = .nothing)
    (same : u.threadId = s.threadId) (counter : u.wakeupFd = s.wakeupFd)
    (debts : u.owed = Function.update s.owed t owed) (alerted : s.alerted p) : u.alerted p := by
  rcases alerted with positive | ⟨t',debt⟩ | own
  · exact .inl (counter ▸ positive)
  · refine .inr (.inl ⟨t',?_⟩)
    rw [debts,Function.update_of_ne ?_]
    · exact debt
    · rintro rfl
      rw [free] at debt
      cases debt
  · exact .inr (.inr (same ▸ own))

theorem ready_free (s : EventLoop F) (t : Nat) (ready : s.ready t = true) : s.owed t = .nothing := by
  simp only [EventLoop.ready,Bool.and_eq_true,decide_eq_true_eq] at ready
  exact ready.1

theorem alert_queue (s : EventLoop F) (t : Nat) (f : F) (alert : Alert s) (ready : s.ready t = true) :
    Alert (s.queueInLoop t f) := by
  have free := ready_free s t ready
  constructor
  · intro owes
    simp only [EventLoop.queueInLoop,EventLoop.owe] at owes ⊢
    by_cases own : t = s.threadId
    · subst own
      simp only [EventLoop.ready,EventLoop.inUserCode,EventLoop.callingPendingFunctors] at owes ready
      cases here : s.pc <;> simp_all
    · rw [Function.update_of_ne (Ne.symm own)] at owes
      exact alert.owes owes
  · intro past p member
    rcases List.mem_append.mp member with old | new
    · exact alerted_owe s _ t _ p free rfl rfl rfl (alert.alerted past p old)
    · cases List.mem_singleton.mp new
      by_cases own : t = s.threadId
      · subst own
        simp only [EventLoop.ready,EventLoop.inUserCode] at ready
        -- in the functor phase the push is followed by a write, outside the loop it is exempt
        cases here : s.pc with
        | calling =>
          refine .inr (.inl ⟨s.threadId,?_⟩)
          simp [EventLoop.queueInLoop,EventLoop.owe,EventLoop.callingPendingFunctors,here]
        | outside => exact .inr (.inr ⟨rfl,by simp [EventLoop.looping,here]⟩)
        | handling => simp [here,LoopPc.beforeSwap] at past
        | _ => simp [here] at ready
      · refine .inr (.inl ⟨t,?_⟩)
        simp [EventLoop.queueInLoop,EventLoop.owe,own]

theorem alert_move (fd : EventFd) (s u : EventLoop F) (l : LoopLabel F) (alert : Alert s)
    (move : LoopMove fd s l u) : Alert u := by
  have settled (other : s.pc ≠ .calling) : s.owed s.threadId = .nothing := by
    by_contra debt
    exact other (alert.owes debt)
  have idleSettled (idle : s.idle = true) : s.owed s.threadId = .nothing := by simpa [EventLoop.idle] using idle
  cases move with
  | loop here idle =>
    exact ⟨fun debt => absurd (idleSettled idle) debt,fun _ => alert.alerted (by simp [here,LoopPc.beforeSwap])⟩
  | leave here quit =>
    exact ⟨fun debt => absurd (settled (by simp [here])) debt,fun _ => alert.alerted (by simp [here,LoopPc.beforeSwap])⟩
  | stay here on =>
    exact ⟨fun debt => absurd (settled (by simp [here])) debt,fun _ => alert.alerted (by simp [here,LoopPc.beforeSwap])⟩
  | poll woken here positive => exact ⟨fun debt => absurd (settled (by simp [here])) debt,fun past => nomatch past⟩
  | handleRead here active =>
    exact ⟨alert.owes,fun past => by simp [here,LoopPc.beforeSwap] at past⟩
  | handled here all => exact ⟨fun debt => absurd (settled (by simp [here])) debt,fun past => nomatch past⟩
  | swap here => exact ⟨fun debt => absurd (settled (by simp [here])) debt,fun _ p member => nomatch member⟩
  | run f rest next here idle =>
    refine ⟨fun _ => rfl,fun _ => alert.alerted ?_⟩
    rcases here with here | here <;> simp [here,LoopPc.beforeSwap]
  | finish here idle done =>
    refine ⟨fun debt => absurd (idleSettled idle) debt,fun _ => alert.alerted ?_⟩
    rcases here with here | here <;> simp [here,LoopPc.beforeSwap]
  | queueInLoop t f ready => exact alert_queue s t f alert ready
  | quit t ready =>
    refine ⟨fun debt => ?_,fun past p member => ?_⟩
    · by_cases own : t = s.threadId
      · simp [EventLoop.owe,own] at debt
      · apply alert.owes
        simpa [EventLoop.owe,Function.update_of_ne (Ne.symm own)] using debt
    · exact alerted_owe s _ t _ p (ready_free s t ready) rfl rfl rfl (alert.alerted past p member)
  | wakeup t owes =>
    refine ⟨fun debt => ?_,fun _ _ _ => .inl (fd.readable s.wakeupFd)⟩
    by_cases own : t = s.threadId
    · simp [EventLoop.owe,own] at debt
    · apply alert.owes
      simpa [EventLoop.owe,Function.update_of_ne (Ne.symm own)] using debt

theorem no_lost_wakeup (fd : EventFd) (s : EventLoop F) (reached : Reachable Fresh (loopStep fd) s)
    (blocking : s.pc = .checking ∨ s.pc = .polling) (p : Push F) (waiting : p ∈ s.pendingFunctors) :
    0 < s.wakeupFd ∨ (∃ t, t ≠ s.threadId ∧ s.owed t = .queueInLoop) ∨
      (p.thread = s.threadId ∧ p.looping = false) := by
  have alert := reached.invariant Alert
    (fun s fresh => ⟨fun debt => absurd (fresh.owed _) debt,fun _ p member => by simp [fresh.pending] at member⟩)
    (fun s l u alert ok => alert_move fd s u l alert (loopStep_move fd s u l ok))
  have past : s.pc.beforeSwap = false := by rcases blocking with here | here <;> simp [here,LoopPc.beforeSwap]
  rcases alert.alerted past p waiting with positive | ⟨t,debt⟩ | own
  · exact .inl positive
  · refine .inr (.inl ⟨t,?_,debt⟩)
    rintro rfl
    have calling := alert.owes (by simp [debt])
    rcases blocking with here | here <;> simp [here] at calling
  · exact .inr (.inr own)

/-- Another thread pushes after the swap; its write is still to come when the loop blocks. -/
private def afterSwap : List (LoopLabel Nat) :=
  [.loop,.check,.poll false,.handled,.swap,.queueInLoop 1 6,.finish,.check]

theorem no_lost_wakeup_after_swap :
    (final (loopStep linuxEventFd) (newEventLoop Nat 0) afterSwap).pc = .polling ∧
    (final (loopStep linuxEventFd) (newEventLoop Nat 0) afterSwap).wakeupFd = 0 ∧
    ∃ t, t ≠ 0 ∧ (final (loopStep linuxEventFd) (newEventLoop Nat 0) afterSwap).owed t = .queueInLoop := by
  refine ⟨by decide,by decide,?_⟩
  have reached : Reachable Fresh (loopStep linuxEventFd)
      (final (loopStep linuxEventFd) (newEventLoop Nat 0) afterSwap) :=
    ⟨_,_,newEventLoop_fresh 0,final_run (loopStep linuxEventFd) _ _ (by decide)⟩
  rcases no_lost_wakeup linuxEventFd _ reached (by decide) ⟨6,1,true⟩ (by decide) with positive | foreign | own
  · exact absurd positive (by decide)
  · exact foreign
  · exact absurd own (by decide)

end Reactor.Net
