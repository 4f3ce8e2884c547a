import Reactor.Net.Functors

/-! `TcpServer::start`, which any number of threads may call at any time. The first call
starts the thread pool and hands `Acceptor::listen` to the base loop; only then can a
connection be accepted. -/
namespace Reactor.Net
open Reactor.Transition

inductive StartFunctor
  | listen
  | other
  deriving DecidableEq, Repr

/-- Where a call of `start` is. -/
inductive StartPc
  | outside
  | startPool
  | assertion
  | handOver
  deriving DecidableEq, Repr

/-- `pools` and `listens` count the calls of `threadPool_->start` and `Acceptor::listen`,
`accepted` the connections; `failed` tells that an assertion failed. -/
structure Startup where
  loop : EventLoop StartFunctor
  started : Bool
  listenning : Bool
  acceptChannel : Bool
  calls : Nat → StartPc
  pools : Nat
  listens : Nat
  accepted : Nat
  failed : Bool

inductive StartLabel
  | loop (l : LoopLabel StartFunctor)
  | start (t : Nat)
  | proceed (t : Nat)
  | accept
  deriving DecidableEq, Repr

namespace Startup

def setCall (s : Startup) (t : Nat) (pc : StartPc) : Startup := {s with calls := Function.update s.calls t pc}

/-- `Acceptor::listen`, in thread `t`. -/
def listen (s : Startup) (t : Nat) : Startup :=
  {s with
    failed := s.failed || t ≠ s.loop.threadId, listenning := true, acceptChannel := true, listens := s.listens + 1}

/-- The rest of `start` for the call that found `started_` unset. -/
def proceed (s : Startup) (t : Nat) : Option Startup :=
  match s.calls t with
  | .outside => none
  | .startPool => some ({s with pools := s.pools + 1}.setCall t .assertion)
  | .assertion => some ({s with failed := s.failed || s.listenning}.setCall t .handOver)
  | .handOver =>
    if t = s.loop.threadId then some ((s.listen t).setCall t .outside)
    else some ({s with loop := s.loop.queueInLoop t .listen}.setCall t .outside)

/-- What a functor that the loop runs does to the server. -/
def ran (s : Startup) (f : StartFunctor) : Startup :=
  match f with
  | .listen => s.listen s.loop.threadId
  | .other => s

/-- The step `l` of the loop, which ends in `next`. -/
def moved (s : Startup) (l : LoopLabel StartFunctor) (next : EventLoop StartFunctor) : Startup :=
  match l, s.loop.functors with
  | .run, f::_ => ran {s with loop := next} f.functor
  | _, _ => {s with loop := next}

end Startup

def LoopLabel.actor {F : Type} (threadId : Nat) : LoopLabel F → Nat
  | .queueInLoop t _ | .quit t | .wakeup t => t
  | _ => threadId

/-- The step is not a push of `Acceptor::listen`, which only `start` makes. -/
def LoopLabel.plain : LoopLabel StartFunctor → Bool
  | .queueInLoop _ .listen => false
  | _ => true

def startStep (fd : EventFd) (s : Startup) : StartLabel → Option Startup
  | .loop l =>
    if s.calls (l.actor s.loop.threadId) = .outside ∧ l.plain then
      (loopStep fd s.loop l).map (s.moved l)
    else none
  | .start t =>
    if s.calls t = .outside ∧ s.loop.ready t then
      some ({s with started := true}.setCall t (if s.started then .outside else .startPool))
    else none
  | .proceed t => if s.loop.ready t then s.proceed t else none
  | .accept =>
    if s.calls s.loop.threadId = .outside ∧ s.loop.pc = .handling ∧ s.acceptChannel then
      some {s with accepted := s.accepted + 1}
    else none

def EventLoop.listens (loop : EventLoop StartFunctor) : Nat := loop.queued.countP fun p => p.functor = .listen

def NewServerLoop (s : Startup) : Prop :=
  Fresh s.loop ∧ s.started = false ∧ s.listenning = false ∧ s.acceptChannel = false ∧ (∀ t, s.calls t = .outside) ∧
    s.pools = 0 ∧ s.listens = 0 ∧ s.accepted = 0 ∧ s.failed = false

/-- How far the server is: nobody has called `start`, one call is under way, `listen` is in
the queue, or it has run. -/
inductive Stage
  | fresh
  | calling (t : Nat)
  | queued
  | listening
  deriving DecidableEq

namespace Stage

def started : Stage → Bool
  | .fresh => false
  | _ => true

def listens : Stage → Nat
  | .listening => 1
  | _ => 0

def queues : Stage → Nat
  | .queued => 1
  | _ => 0

/-- The thread pool has been started, unless the call has yet to do it. -/
def pools (s : Startup) : Stage → Nat
  | .fresh => 0
  | .calling t => if s.calls t = .startPool then 0 else 1
  | _ => 1

end Stage

/-- What holds in a stage. -/
structure Staged (stage : Stage) (s : Startup) : Prop where
  started : s.started = stage.started
  queue : s.loop.listens = stage.queues
  listens : s.listens = stage.listens
  pools : s.pools = stage.pools s
  calls : ∀ t, s.calls t = .outside ↔ stage ≠ .calling t
  listenning : s.listenning = (stage.listens == 1)
  channel : s.acceptChannel = s.listenning
  accepted : 0 < s.accepted → stage = .listening
  failed : s.failed = false

section
variable {fd : EventFd} {s u : Startup} {stage : Stage}

theorem moved_loop (s : Startup) (l : LoopLabel StartFunctor) (next : EventLoop StartFunctor) :
    (s.moved l next).loop = next := by
  unfold Startup.moved
  split
  next f _ _ => cases job : f.functor <;> simp [Startup.ran,Startup.listen]
  next => rfl

theorem listens_snoc (loop : EventLoop StartFunctor) (t : Nat) (f : StartFunctor) :
    (loop.queueInLoop t f).listens = loop.listens + if f = .listen then 1 else 0 := by
  simp [EventLoop.listens,List.countP_append,List.countP_cons]

theorem listens_run {loop next : EventLoop StartFunctor} (move : LoopMove fd loop .run next) :
    ∃ f rest, loop.functors = f::rest ∧ loop.listens = next.listens + if f.functor = .listen then 1 else 0 := by
  cases move with
  | run f rest first here idle =>
    refine ⟨f,rest,first,?_⟩
    simp [EventLoop.listens,EventLoop.queued,first,List.countP_cons]

theorem listens_still {loop next : EventLoop StartFunctor} {l : LoopLabel StartFunctor} (ordered : Ordered loop)
    (move : LoopMove fd loop l next) (plain : l.plain = true) (start : l ≠ .run) : next.listens = loop.listens := by
  by_cases push : ∃ t f, l = .queueInLoop t f
  · obtain ⟨t,f,rfl⟩ := push
    cases f with
    | listen => cases plain
    | other =>
      rw [EventLoop.listens,queued_push fd loop next t .other move]
      simp [EventLoop.listens,List.countP_append]
  · have same := queued_still fd loop next l ordered move start fun t f label => push ⟨t,f,label⟩
    rw [EventLoop.listens,same,EventLoop.listens]

namespace Staged

theorem loop {next : EventLoop StartFunctor} (before : Staged stage s) (same : next.listens = s.loop.listens) :
    Staged stage {s with loop := next} :=
  {before with queue := same.trans before.queue}

/-- `listen` is done, by the loop or by the call of `start` itself. -/
theorem listen {t : Nat} {next : EventLoop StartFunctor} {calls : Nat → StartPc} (before : Staged stage s)
    (own : t = next.threadId) (none : next.listens = 0) (outside : ∀ r, calls r = .outside) (unused : s.listens = 0)
    (pools : s.pools = 1) (started : s.started = true) :
    Staged .listening {({s with loop := next} : Startup).listen t with calls := calls} := by
  refine ⟨started,none,?_,pools,by simp [outside],rfl,rfl,fun _ => rfl,?_⟩
  · change s.listens + 1 = 1
    rw [unused]
  · simp [Startup.listen,before.failed,own]

theorem step (before : Staged stage s) (ordered : Ordered s.loop) {l : LoopLabel StartFunctor} {next : EventLoop StartFunctor}
    (plain : l.plain = true) (move : LoopMove fd s.loop l next) :
    ∃ later, Staged later (s.moved l next) := by
  unfold Startup.moved
  by_cases start : l = .run
  · subst start
    obtain ⟨f,rest,first,count⟩ := listens_run move
    rw [first]
    dsimp only
    cases job : f.functor with
    | other =>
      rw [job] at count
      exact ⟨stage,before.loop (by simpa using count.symm)⟩
    | listen =>
      -- the functor was in the queue, so the server was in the stage `queued`
      rw [job,if_pos rfl,before.queue] at count
      have here : stage = .queued := by
        cases stage <;> simp [Stage.queues] at count ⊢
      subst here
      have none : next.listens = 0 := by
        simpa [Stage.queues] using count.symm
      exact ⟨.listening,before.listen rfl none (fun r => (before.calls r).mpr (by simp)) before.listens before.pools
        before.started⟩
  · refine ⟨stage,?_⟩
    have same := listens_still ordered move plain start
    split
    · exact absurd rfl start
    · exact before.loop same

theorem start (before : Staged stage s) {t : Nat} (outside : s.calls t = .outside) :
    ∃ later, Staged later ({s with started := true}.setCall t (if s.started then .outside else .startPool)) := by
  have started := before.started
  cases flag : s.started with
  | true =>
    have same : Function.update s.calls t .outside = s.calls := by
      rw [← outside]
      exact Function.update_eq_self t s.calls
    refine ⟨stage,?_⟩
    simp only [if_true,Startup.setCall,same]
    exact {before with started := flag.symm.trans started}
  | false =>
    have here : stage = .fresh := by
      rw [flag] at started
      cases stage <;> simp [Stage.started] at started ⊢
    subst here
    refine ⟨.calling t,rfl,before.queue,before.listens,?_,fun r => ?_,before.listenning,before.channel,
      fun some => ?_,before.failed⟩
    · simpa [Stage.pools,Startup.setCall] using before.pools
    · by_cases same : r = t
      · simp [Startup.setCall,same]
      · simpa [Startup.setCall,same,Ne.symm same] using (before.calls r)
    · cases before.accepted some

theorem proceed (before : Staged stage s) {t : Nat} (ok : s.proceed t = some u) : ∃ later, Staged later u := by
  have here : s.calls t ≠ .outside → stage = .calling t := by
    intro inside
    by_contra other
    exact inside ((before.calls t).mpr other)
  have others {pc : StartPc} (mine : stage = .calling t) (r : Nat) (inside : pc ≠ .outside) :
      Function.update s.calls t pc r = .outside ↔ stage ≠ .calling r := by
    by_cases same : r = t
    · simp [same,inside,mine]
    · rw [Function.update_of_ne same]
      exact before.calls r
  have outside (mine : stage = .calling t) (r : Nat) : Function.update s.calls t .outside r = .outside := by
    by_cases same : r = t
    · simp [same]
    · rw [Function.update_of_ne same,before.calls r,mine]
      simp [Ne.symm same]
  have pools := before.pools
  unfold Startup.proceed at ok
  split at ok
  next => cases ok
  next pc =>
    cases ok
    have mine := here (by simp [pc])
    refine ⟨stage,{before with pools := ?_, calls := fun r => others mine r (by simp)}⟩
    subst mine
    simp [Stage.pools,Startup.setCall,pc,pools]
  next pc =>
    cases ok
    have mine := here (by simp [pc])
    have deaf : s.listenning = false := by
      rw [before.listenning,mine]
      rfl
    refine ⟨stage,{before with pools := ?_, calls := fun r => others mine r (by simp), failed := ?_}⟩
    · subst mine
      simpa [Stage.pools,Startup.setCall,pc] using pools
    · simp [Startup.setCall,before.failed,deaf]
  next pc =>
    have mine := here (by simp [pc])
    have idle := outside mine
    subst mine
    have one : s.pools = 1 := by simpa [Stage.pools,pc] using pools
    split at ok
    next own =>
      cases ok
      exact ⟨.listening,before.listen own before.queue idle before.listens one before.started⟩
    next =>
      cases ok
      refine ⟨.queued,before.started,?_,before.listens,one,fun r => ?_,before.listenning,before.channel,fun some => ?_,
        before.failed⟩
      · have queue := before.queue
        simp only [Startup.setCall,listens_snoc,queue]
        rfl
      · simp [Startup.setCall,idle r]
      · cases before.accepted some

end Staged

/-- The base loop is the loop of any thread: `start` reaches it through `queueInLoop` only. -/
theorem loop_step {l : StartLabel} (ok : startStep fd s l = some u) :
    u.loop = s.loop ∨ ∃ k, loopStep fd s.loop k = some u.loop := by
  cases l with
  | loop l =>
    obtain ⟨_,ok⟩ := Option.ite_none_right_eq_some.mp ok
    obtain ⟨next,moved,rfl⟩ := Option.map_eq_some_iff.mp ok
    exact .inr ⟨l,moved.trans (congrArg some (moved_loop s l next).symm)⟩
  | start t =>
    obtain ⟨_,⟨⟩⟩ := Option.ite_none_right_eq_some.mp ok
    exact .inl rfl
  | proceed t =>
    obtain ⟨ready,ok⟩ := Option.ite_none_right_eq_some.mp ok
    unfold Startup.proceed at ok
    split at ok
    next => cases ok
    next =>
      cases ok
      exact .inl rfl
    next =>
      cases ok
      exact .inl rfl
    next =>
      split at ok
      · cases ok
        exact .inl rfl
      · cases ok
        exact .inr ⟨.queueInLoop t .listen,if_pos ready⟩
  | accept =>
    obtain ⟨_,⟨⟩⟩ := Option.ite_none_right_eq_some.mp ok
    exact .inl rfl

theorem staged_step {l : StartLabel} (before : Staged stage s) (ordered : Ordered s.loop) (ok : startStep fd s l = some u) :
    ∃ later, Staged later u := by
  cases l with
  | loop l =>
    obtain ⟨⟨_,plain⟩,ok⟩ := Option.ite_none_right_eq_some.mp ok
    obtain ⟨next,moved,rfl⟩ := Option.map_eq_some_iff.mp ok
    exact before.step ordered plain (loopStep_move fd s.loop next l moved)
  | start t =>
    obtain ⟨⟨outside,_⟩,⟨⟩⟩ := Option.ite_none_right_eq_some.mp ok
    exact before.start outside
  | proceed t =>
    obtain ⟨_,ok⟩ := Option.ite_none_right_eq_some.mp ok
    exact before.proceed ok
  | accept =>
    obtain ⟨⟨_,_,reading⟩,⟨⟩⟩ := Option.ite_none_right_eq_some.mp ok
    refine ⟨stage,{before with accepted := fun _ => ?_}⟩
    rw [before.channel,before.listenning] at reading
    cases stage <;> simp [Stage.listens] at reading ⊢

theorem staged_reached (reached : Reachable NewServerLoop (startStep fd) s) :
    Reachable Fresh (loopStep fd) s.loop ∧ ∃ stage, Staged stage s := by
  refine reached.invariant (fun s => Reachable Fresh (loopStep fd) s.loop ∧ ∃ stage, Staged stage s) ?_ ?_
  · rintro s ⟨fresh,started,listenning,channel,outside,pools,listens,accepted,failed⟩
    refine ⟨.start fresh,.fresh,started,?_,listens,pools,by simp [outside],?_,?_,by simp [accepted],failed⟩
    · simp [EventLoop.listens,EventLoop.queued,fresh.functors,fresh.pending,Stage.queues]
    · rw [listenning]
      rfl
    · rw [channel,listenning]
  · rintro s l u ⟨loop,stage,before⟩ ok
    refine ⟨?_,staged_step before (ordered_reachable fd loop) ok⟩
    rcases loop_step ok with same | ⟨k,moved⟩
    · rw [same]
      exact loop
    · exact loop.step moved

end

/-- Whichever threads call `start`, and how often: the thread pool is started once and before
the first connection is accepted, `Acceptor::listen` runs at most once and in the thread of
the loop, and when the calls have returned it has run or is in the queue of the loop. -/
theorem start_listens_once (fd : EventFd) (s : Startup) (reached : Reachable NewServerLoop (startStep fd) s) :
    s.failed = false ∧ s.pools ≤ 1 ∧ s.listens ≤ 1 ∧ (0 < s.accepted → s.pools = 1 ∧ s.listens = 1) ∧
      (s.started = true → (∀ t, s.calls t = .outside) → s.pools = 1 ∧ s.listens + s.loop.listens = 1) := by
  obtain ⟨_,stage,staged⟩ := staged_reached reached
  have pools := staged.pools
  have listens := staged.listens
  have started := staged.started
  refine ⟨staged.failed,?_,?_,fun some => ?_,fun begun outside => ?_⟩
  · rw [pools]
    cases stage with
    | calling t =>
      simp only [Stage.pools]
      split <;> omega
    | _ => simp [Stage.pools]
  · rw [listens]
    cases stage <;> simp [Stage.listens]
  · have here := staged.accepted some
    subst here
    exact ⟨pools,listens⟩
  · rw [pools,listens,staged.queue]
    cases stage with
    | fresh =>
      rw [begun] at started
      cases started
    | calling t => exact absurd rfl ((staged.calls t).mp (outside t))
    | queued | listening => exact ⟨rfl,rfl⟩

/-- Threads 1 and 2 both call `start`; the loop runs `listen` and accepts a connection. -/
private def raced : List StartLabel :=
  [.start 1,.start 2,.proceed 1,.loop .loop,.loop .check,.proceed 1,.proceed 1,.loop (.wakeup 1),.loop (.poll true),
    .loop .handleRead,.loop .handled,.loop .swap,.loop .run,.loop .finish,.loop .check,.loop (.poll false),.accept]

private def unstarted : Startup := ⟨newEventLoop StartFunctor 0,false,false,false,fun _ => .outside,0,0,0,false⟩

theorem start_listens_once_raced :
    let s := final (startStep linuxEventFd) unstarted raced
    s.accepted = 1 ∧ s.failed = false ∧ s.pools ≤ 1 ∧ s.listens ≤ 1 ∧ (0 < s.accepted → s.pools = 1 ∧ s.listens = 1) ∧
      (s.started = true → (∀ t, s.calls t = .outside) → s.pools = 1 ∧ s.listens + s.loop.listens = 1) := by
  intro s
  have reached : Reachable NewServerLoop (startStep linuxEventFd) s :=
    ⟨unstarted,raced,⟨newEventLoop_fresh 0,rfl,rfl,rfl,fun _ => rfl,rfl,rfl,rfl,rfl⟩,
      final_run (startStep linuxEventFd) unstarted raced (by decide)⟩
  exact ⟨by decide,start_listens_once linuxEventFd s reached⟩

end Reactor.Net
