import Reactor.Net.ConnectionClose
import Reactor.Net.Turns

/-! Who holds a connection. `connections_` does, functors that are bound to a shared pointer
do until the batch they were executed in is over, and threads of the user do. The functors
of `send`, `shutdown`, `startRead` and `stopRead` are bound to `this` and hold nothing. -/
namespace Reactor.Net
open Reactor.Transition

def ServerFunctor.shares (c : Nat) : ServerFunctor → Bool
  | .conn d f => d = c && f.shared
  | .removeConnectionInLoop d => d = c
  | _ => false

/-- `references` are the pairs of a thread of the user and a connection it holds, and
`batch i` is what loop `i` has executed of the functors that `doPendingFunctors` took out. -/
structure Owned where
  server : Server
  references : List (Nat × Nat)
  batch : Nat → List ServerFunctor

inductive OwnedLabel
  | server (l : ServerLabel)
  | copy (t c : Nat)
  | drop (t c : Nat)
  deriving DecidableEq

namespace Owned

/-- The references that the functors of a loop hold. -/
def held (o : Owned) (i c : Nat) : Nat :=
  ((o.server.threads i).loop.queued.map Push.functor ++ o.batch i).countP (ServerFunctor.shares c)

def refCount (o : Owned) (c : Nat) : Nat :=
  (if o.server.listed c then 1 else 0) + o.references.countP (fun e => e.2 = c) +
    -- a functor of a connection is in the queue of its own loop or in that of the base loop
    match o.server.conns c with
    | none => 0
    | some k => o.held k.loop c + if k.loop = 0 then 0 else o.held 0 c

/-- A thread calls a function of a connection it holds; the thread of the connection may
use the pointer that its callback was given, and a timer one that `lock` gives. -/
def permits (o : Owned) : ServerLabel → Bool
  | .call t c _ _ =>
    if (o.server.conns c).any fun k => k.loop = t then 0 < o.refCount c else (t,c) ∈ o.references
  | .timer _ c locked => locked = decide (0 < o.refCount c)
  | _ => true

def batchAfter (o : Owned) : ServerLabel → Nat → List ServerFunctor
  | .run i _ => Function.update o.batch i
      (o.batch i ++ ((o.server.threads i).loop.functors.head?.map Push.functor).toList)
  | .loop i .finish => Function.update o.batch i []
  | _ => o.batch

end Owned

def ownedStep (fd : EventFd) (names : Nat → String) (o : Owned) : OwnedLabel → Option Owned
  | .server l =>
    if o.permits l then (serverStep fd names o.server l).map fun s => {o with server := s, batch := o.batchAfter l}
    else none
  | .copy t c => if 0 < o.refCount c then some {o with references := (t,c) :: o.references} else none
  | .drop t c =>
    if (t,c) ∈ o.references ∧ o.server.calls t = none then some {o with references := o.references.erase (t,c)} else none

def NewOwned (o : Owned) : Prop := ∃ start, NewServer start ∧ o = ⟨start,[],fun _ => []⟩

/-- Whatever holds nothing of a connection in the batch is executed while another functor holds the
connection: what was executed of the batch is released behind it, what waits is executed later. -/
def rides (executed batch waiting : List ConnFunctor) : Bool :=
  (batch.all ConnFunctor.shared || (executed ++ batch ++ waiting).any ConnFunctor.shared) &&
  (waiting.all ConnFunctor.shared || waiting.any ConnFunctor.shared)

namespace Owned

/-- Without `connections_`, somebody in `references` or a functor of the right batch holds the connection. -/
def covered (o : Owned) (references : List (Nat × Nat)) (c : Nat) : Bool :=
  (references.any fun e => e.2 = c) || (o.server.conns c).all fun k =>
    let loop := (o.server.threads k.loop).loop
    rides ((o.batch k.loop).filterMap fun f => f.of c) (loop.functors.filterMap fun p => p.functor.of c)
      (loop.pendingFunctors.filterMap fun p => p.functor.of c)

/-- A thread drops its reference to a connection that is not in `connections_`, and the
destructor of the server destroys a connection itself, only if the functors of the
connection that hold nothing are covered without. -/
def leavesCovered (o : Owned) : OwnedLabel → Bool
  | .drop t c => o.server.listed c || o.covered (o.references.erase (t,c)) c
  | .server l => (o.server.takes l).all fun c => o.covered o.references c
  | .copy _ _ => true

end Owned

section
variable {executed batch waiting fs : List ConnFunctor} {f : ConnFunctor}

theorem rides_run (covered : rides executed (f::batch) waiting = true) : rides (executed ++ [f]) batch waiting = true := by
  simp only [rides,List.all_cons,List.append_assoc,List.singleton_append,Bool.and_eq_true,Bool.or_eq_true] at covered ⊢
  exact covered.imp_left (Or.imp_left And.right)

theorem rides_push (covered : rides executed batch waiting = true) (shared : ∀ f ∈ fs, f.shared = true) :
    rides executed batch (waiting ++ fs) = true := by
  simp only [rides,List.all_append,List.any_append,Bool.and_eq_true,Bool.or_eq_true] at covered ⊢
  have all : fs.all ConnFunctor.shared = true := List.all_eq_true.mpr shared
  exact ⟨covered.1.imp_right (Or.imp_right .inl),covered.2.imp (fun waiting => ⟨waiting,all⟩) .inl⟩

theorem rides_swap (covered : rides executed [] waiting = true) : rides executed waiting [] = true := by
  simp only [rides,List.any_append,Bool.and_eq_true,Bool.or_eq_true] at covered ⊢
  exact ⟨covered.2.imp_right fun some => .inl (.inr some),.inl rfl⟩

theorem rides_finish (covered : rides executed [] waiting = true) : rides [] [] waiting = true := by
  simp only [rides,Bool.and_eq_true] at covered ⊢
  exact ⟨rfl,covered.2⟩

/-- `connectDestroyed` is the last in the queue. -/
theorem rides_destroyed (last : (batch ++ waiting).getLast? = some .connectDestroyed) : rides executed batch waiting = true := by
  have found (fs : List ConnFunctor) (last : fs.getLast? = some .connectDestroyed) : fs.any ConnFunctor.shared = true :=
    List.any_eq_true.mpr ⟨_,List.mem_of_getLast? last,rfl⟩
  simp only [rides,List.any_append,Bool.and_eq_true,Bool.or_eq_true]
  cases waiting with
  | nil => exact ⟨.inr (.inl (.inr (found batch (by simpa using last)))),.inl rfl⟩
  | cons g rest =>
    rw [List.getLast?_append_of_ne_nil _ (List.cons_ne_nil g rest)] at last
    exact ⟨.inr (.inr (found _ last)),.inr (found _ last)⟩

end

/-- A connection leaves `connections_` when the destructor destroys it, or with `connectDestroyed` in its queue. -/
theorem LifeMove.unlisted {a b : Life} {touch : Touch} (move : LifeMove .free a touch b) (listed : a.listed = true)
    (gone : b.listed = false) : touch = .take ∨ b.queue.getLast? = some .connectDestroyed := by
  have still (same : b.listed = a.listed) : touch = .take ∨ b.queue.getLast? = some .connectDestroyed := by
    rw [same,listed] at gone
    cases gone
  have erased (d : Life) (before : d.listed = true) (after : d.removeConnectionInLoop.listed = false) :
      d.removeConnectionInLoop.queue.getLast? = some .connectDestroyed := by
    unfold Life.removeConnectionInLoop at after ⊢
    split at after
    · simp [before] at after
    · rename_i on
      simp [on,before]
  cases move with
  | take ends here before found => exact .inl rfl
  | takeAway ends away before => exact .inr (by simp)
  | removeConnectionInLoop n next => exact .inr (erased _ listed gone)
  | removeConnection n next =>
    unfold Life.removeConnection at gone ⊢
    split at gone
    · simp [listed] at gone
    · rename_i on
      split at gone
      · simp [listed] at gone
      · rename_i here
        rw [if_neg on,if_neg here]
        exact .inr (erased _ listed gone)
  | handleClose queue pending acts closing apart live =>
    refine still ?_
    unfold Life.handleClose
    split <;> rfl
  | connectEstablished rest next =>
    refine still ?_
    unfold Life.connectEstablished
    split <;> rfl
  | connectDestroyed rest next found =>
    refine still ?_
    unfold Life.connectDestroyed
    split <;> rfl
  | _ => exact still rfl

section
variable {names : Nat → String} {s u : Server} {i c : Nat} {k : Conn} {fd : EventFd} {l : ServerLabel} {o o' : Owned}

theorem covered_iff {references : List (Nat × Nat)} (found : o.server.conns c = some k) :
    o.covered references c = true ↔ (references.any fun e => e.2 = c) = true ∨
      rides ((o.batch k.loop).filterMap fun f => f.of c)
        ((o.server.threads k.loop).loop.functors.filterMap fun p => p.functor.of c)
        ((o.server.threads k.loop).loop.pendingFunctors.filterMap fun p => p.functor.of c) = true := by
  simp only [Owned.covered,found,Option.all_some,Bool.or_eq_true]

theorem batchAfter_rest (idle : ∀ ll, ¬ Drives l i ll) : o.batchAfter l i = o.batch i := by
  unfold Owned.batchAfter
  split
  · rename_i j w
    refine Function.update_of_ne ?_ _ _
    rintro rfl
    exact idle _ (.run i w)
  · rename_i j
    refine Function.update_of_ne ?_ _ _
    rintro rfl
    exact idle _ (.loop i .finish nofun nofun)
  · rfl

/-- What a step pushes to the loop is covered; the rest of the turn is as `rides` has it. -/
theorem rides_turn {may : ServerFunctor → Prop} {loop : EventLoop ServerFunctor}
    (turn : Turn fd may l i (o.server.threads i).loop loop) (ordered : Ordered (o.server.threads i).loop)
    (shared : ∀ f, may f → ∀ g, f.of c = some g → g.shared = true)
    (covered : rides ((o.batch i).filterMap fun f => f.of c)
      ((o.server.threads i).loop.functors.filterMap fun p => p.functor.of c)
      ((o.server.threads i).loop.pendingFunctors.filterMap fun p => p.functor.of c) = true) :
    rides ((o.batchAfter l i).filterMap fun f => f.of c) (loop.functors.filterMap fun p => p.functor.of c)
      (loop.pendingFunctors.filterMap fun p => p.functor.of c) = true := by
  have pushed {executed : List ServerFunctor} {mid : EventLoop ServerFunctor} (same : SameTurn may mid loop)
      (covered : rides (executed.filterMap fun f => f.of c) (mid.functors.filterMap fun p => p.functor.of c)
        (mid.pendingFunctors.filterMap fun p => p.functor.of c) = true) :
      rides (executed.filterMap fun f => f.of c) (loop.functors.filterMap fun p => p.functor.of c)
        (loop.pendingFunctors.filterMap fun p => p.functor.of c) = true := by
    obtain ⟨new,pending,allowed⟩ := same.pushes
    rw [same.functors,pending,List.filterMap_append]
    refine rides_push covered fun g member => ?_
    obtain ⟨p,inside,mine⟩ := List.mem_filterMap.mp member
    exact shared _ (allowed p inside) g mine
  cases turn with
  | rest idle same =>
    rw [batchAfter_rest idle]
    exact pushed same covered
  | drive ll mid drives move same =>
    refine pushed same ?_
    cases drives with
    | poll i woken ready =>
      cases move
      exact covered
    | run i w =>
      cases move with
      | run f rest next here idle =>
        have executed : o.batchAfter (.run i w) i = o.batch i ++ [f.functor] := by simp [Owned.batchAfter,next]
        rw [next] at covered
        rw [executed,List.filterMap_append]
        cases mine : f.functor.of c with
        | none => simpa [mine] using covered
        | some g =>
          simp only [List.filterMap_cons,mine,List.filterMap_nil] at covered ⊢
          exact rides_run covered
    | loop i ll other plain =>
      have still (away : ll ≠ .finish) : o.batchAfter (.loop i ll) i = o.batch i := by
        cases ll <;> first | rfl | exact absurd rfl away
      cases move with
      | run f rest next here idle => exact absurd rfl other
      | swap here =>
        have empty := ordered.batch (by simp [here]) (by simp [here])
        rw [still (by simp)]
        rw [empty] at covered
        exact rides_swap covered
      | finish here idle done =>
        have executed : o.batchAfter (.loop i .finish) i = [] := by simp [Owned.batchAfter]
        rw [executed]
        rw [done] at covered ⊢
        exact rides_finish covered
      | queueInLoop t f ready =>
        cases plain t f rfl
        rw [still (by simp)]
        simpa [EventLoop.queueInLoop,EventLoop.owe,List.filterMap_append,ServerFunctor.of] using covered
      | _ =>
        rw [still (by simp)]
        exact covered

/-- Threads hold what they call, and each connection has its functors that hold nothing covered. -/
structure Referred (names : Nat → String) (o : Owned) : Prop where
  placed : Placed names o.server
  callers : ∀ t x, o.server.calls t = some x → (t,x.conn) ∈ o.references
  kept : ∀ c k, o.server.conns c = some k → o.server.listed c = true ∨ o.covered o.references c = true

namespace Referred

theorem callers_server (held : Referred names o) (permits : o.permits l = true) (move : ServerMove fd names o.server l u)
    (t : Nat) (x : Call) (call : u.calls t = some x) : (t,x.conn) ∈ o.references := by
  rcases move_calls move call with ⟨y,before,same⟩ | ⟨api,w,k,rfl,found,away⟩
  · exact same ▸ held.callers t y before
  · simpa [Owned.permits,found,away.symm] using permits

/-- A functor that holds nothing comes from a thread that holds the connection. -/
theorem covered_server (held : Referred names o) (ok : serverStep fd names o.server l = some u)
    {k' : Conn} (found : o.server.conns c = some k) (known : u.conns c = some k') (home : k'.loop = k.loop)
    (covered : o.covered o.references c = true) :
    ({o with server := u, batch := o.batchAfter l} : Owned).covered o.references c = true := by
  rw [covered_iff found] at covered
  refine (covered_iff known).mpr ?_
  by_cases referred : (o.references.any fun e => e.2 = c) = true
  · exact .inl referred
  · right
    rw [home]
    refine rides_turn (turn_step held.placed ok k.loop) (held.placed.threads k.loop).ordered ?_
      (covered.resolve_left referred)
    rintro f (bound | ⟨t,d,_,call⟩) g mine
    · cases f with
      | conn e h =>
        obtain ⟨_,⟨⟩⟩ := Option.ite_none_right_eq_some.mp mine
        exact bound
      | _ => cases mine
    · cases f with
      | conn e h =>
        obtain ⟨rfl,⟨⟩⟩ := Option.ite_none_right_eq_some.mp mine
        cases (held.placed.calls t _ call).1 _ _ rfl
        exact absurd (List.any_eq_true.mpr ⟨_,held.callers t _ call,by simp [Call.conn]⟩) referred
      | _ => cases mine

theorem server (held : Referred names o) (distinct : Function.Injective names) (permits : o.permits l = true)
    (leaves : o.leavesCovered (.server l) = true) (ok : serverStep fd names o.server l = some u) :
    Referred names {o with server := u, batch := o.batchAfter l} := by
  have move := held.placed.move ok
  refine ⟨placed_move held.placed move,held.callers_server permits move,fun c k known => ?_⟩
  rcases life_step held.placed distinct (guarded_free o.server l) ok known with
    ⟨_,touch,⟨k',found,home,rfl⟩,moved,comes⟩ | ⟨away,callback,life⟩
  · have onward := held.covered_server ok found known home.symm
    refine or_iff_not_imp_left.mpr fun gone => ?_
    rcases held.kept c k' found with listed | covered
    · rcases moved.unlisted listed (Bool.eq_false_iff.mpr gone) with rfl | last
      · have takes : o.server.takes l = some c := comes
        exact onward (by simpa [Owned.leavesCovered,takes] using leaves)
      · have queue : (u.life c k).queue = (u.threads k.loop).loop.functors.filterMap (fun p => p.functor.of c) ++
            (u.threads k.loop).loop.pendingFunctors.filterMap fun p => p.functor.of c := List.filterMap_append
        rw [queue] at last
        exact (covered_iff known).mpr (.inr (rides_destroyed last))
    · exact onward covered
  · refine .inl ?_
    have listed : (u.life c k).listed = true := by
      rw [life]
      cases away <;> rfl
    exact listed

theorem step {e : OwnedLabel} (held : Referred names o) (distinct : Function.Injective names)
    (leaves : o.leavesCovered e = true) (ok : ownedStep fd names o e = some o') : Referred names o' := by
  cases e with
  | server l =>
    obtain ⟨permits,moved⟩ := Option.ite_none_right_eq_some.mp ok
    obtain ⟨u,step,rfl⟩ := Option.map_eq_some_iff.mp moved
    exact held.server distinct permits leaves step
  | copy t c =>
    obtain ⟨_,⟨⟩⟩ := Option.ite_none_right_eq_some.mp ok
    refine ⟨held.placed,fun t' x call => List.mem_cons_of_mem _ (held.callers t' x call),fun d k found => ?_⟩
    refine (held.kept d k found).imp_right fun covered => ?_
    simp only [Owned.covered,List.any_cons,Bool.or_eq_true] at covered ⊢
    exact covered.imp_left .inr
  | drop t c =>
    obtain ⟨⟨member,idle⟩,⟨⟩⟩ := Option.ite_none_right_eq_some.mp ok
    refine ⟨held.placed,fun t' x call => ?_,fun d k found => ?_⟩
    · have other : (t',x.conn) ≠ (t,c) := by
        rintro ⟨⟩
        cases idle.symm.trans call
      exact (List.mem_erase_of_ne other).mpr (held.callers t' x call)
    · by_cases mine : d = c
      · subst mine
        simpa [Owned.leavesCovered,Owned.covered] using leaves
      · refine (held.kept d k found).imp_right fun covered => ?_
        simp only [Owned.covered,Bool.or_eq_true] at covered ⊢
        refine covered.imp_left fun referred => ?_
        obtain ⟨e,inside,same⟩ := List.any_eq_true.mp referred
        refine List.any_eq_true.mpr ⟨e,(List.mem_erase_of_ne ?_).mpr inside,same⟩
        rintro rfl
        exact mine (of_decide_eq_true same).symm

end Referred

theorem refCount_functor {f : ServerFunctor} (found : o.server.conns c = some k)
    (member : f ∈ (o.server.threads k.loop).loop.queued.map Push.functor ++ o.batch k.loop) (shares : f.shares c = true) :
    0 < o.refCount c := by
  have held : 0 < o.held k.loop c := List.countP_pos_iff.mpr ⟨f,member,shares⟩
  simp only [Owned.refCount,found]
  exact Nat.add_pos_right _ (Nat.add_pos_left held _)

/-- The functor that is executed holds its connection, or something else does. -/
theorem Referred.refCount (held : Referred names o) {f : ConnFunctor}
    (why : o.server.cause l = some (i,.functor (.conn c f))) : 0 < o.refCount c := by
  obtain ⟨p,next,functor⟩ := cause_functor why
  have inside := (held.placed.threads i).queued p (mem_queued next)
  rw [functor] at inside
  obtain ⟨k,found,rfl,_⟩ := inside
  have mine : p.functor.of c = some f := by simp [functor,ServerFunctor.of]
  have first : f ∈ (o.server.threads k.loop).loop.functors.filterMap fun p => p.functor.of c :=
    List.mem_filterMap.mpr ⟨p,List.mem_of_head? next,mine⟩
  rcases held.kept c k found with listed | covered
  · simp only [Owned.refCount,listed,if_true]
    omega
  · rw [covered_iff found,rides,Bool.and_eq_true,Bool.or_eq_true] at covered
    rcases covered with referred | ⟨alone | other,_⟩
    · have positive : 0 < o.references.countP fun e => e.2 = c := List.countP_pos_iff.mpr (List.any_eq_true.mp referred)
      simp only [Owned.refCount]
      omega
    · exact refCount_functor found (List.mem_append_left _ (List.mem_map_of_mem (mem_queued next)))
        (by simp [functor,ServerFunctor.shares,List.all_eq_true.mp alone f first])
    · obtain ⟨g,member,shared⟩ := List.any_eq_true.mp other
      have holder (h : ServerFunctor) (own : h.of c = some g) : h.shares c = true := by
        cases h with
        | conn d g' =>
          obtain ⟨rfl,⟨⟩⟩ := Option.ite_none_right_eq_some.mp own
          simp [ServerFunctor.shares,shared]
        | _ => cases own
      simp only [List.mem_append,List.mem_filterMap] at member
      rcases member with (⟨h,executed,own⟩ | ⟨q,batch,own⟩) | ⟨q,waiting,own⟩
      · exact refCount_functor found (List.mem_append_right _ executed) (holder h own)
      · exact refCount_functor found (List.mem_append_left _ (List.mem_map_of_mem (List.mem_append_left _ batch)))
          (holder _ own)
      · exact refCount_functor found (List.mem_append_left _ (List.mem_map_of_mem (List.mem_append_right _ waiting)))
          (holder _ own)

end

/-- Every functor of a connection is executed while somebody holds the connection, provided
that a thread does not drop its reference, and the destructor of the server does not
destroy the connection, when a functor that holds nothing is left with nobody else. -/
theorem executed_while_held (fd : EventFd) (names : Nat → String) (distinct : Function.Injective names)
    (start o : Owned) (ls : List OwnedLabel) (new : NewOwned start) (run : Run (ownedStep fd names) start ls o)
    (along : Along (ownedStep fd names) (fun o l => o.leavesCovered l = true) start ls)
    (l : ServerLabel) (i c : Nat) (f : ConnFunctor) (why : o.server.cause l = some (i,.functor (.conn c f))) :
    0 < o.refCount c := by
  have first : Referred names start := by
    obtain ⟨server,⟨writeCompleteCallback,rfl⟩,rfl⟩ := new
    exact ⟨newServer_placed writeCompleteCallback,nofun,nofun⟩
  have held : Referred names o :=
    run.keeps _ (Referred names) (fun o e o' held leaves ok => held.step distinct leaves ok) along first
  exact held.refCount why

def ownedRun (ls : List OwnedLabel) : Owned :=
  final (ownedStep linuxEventFd numbered) ⟨newServer false,[],fun _ => []⟩ ls

/-- Thread 2 holds the connection and calls `startRead`; its functor waits when the connection is erased. -/
private def pushedBefore : List OwnedLabel :=
  (acceptOne 0).map .server ++ [OwnedLabel.copy 2 1] ++
    [ServerLabel.call 2 1 .startRead (.wrote 0),.proceed 2,.loop 0 (.wakeup 2)].map OwnedLabel.server ++
    [OwnedLabel.drop 2 1] ++
    [ServerLabel.poll 0 true [(.conn 1,readable)],.loop 0 .handleRead,.dispatch 0,.resume 0 (results 0 0),
      .resume 0 (results 0 0),.loop 0 .handled,.loop 0 .swap].map OwnedLabel.server

theorem executed_while_held_erased :
    (ownedRun pushedBefore).server.listed 1 = false ∧ (ownedRun pushedBefore).references = [] ∧
    0 < (ownedRun pushedBefore).refCount 1 :=
  ⟨by decide +kernel,by decide +kernel,executed_while_held linuxEventFd numbered (connName_injective _ _) _ _ pushedBefore
    ⟨newServer false,⟨false,rfl⟩,rfl⟩ (final_run _ _ _ (by decide +kernel)) (by decide +kernel) (.run 0 (.wrote 0)) 0 1
    .startReadInLoop (by decide +kernel)⟩

/-- Thread 2 calls `startRead` when the connection has been destroyed, and drops its reference, the last one. -/
private def pushedBehind : List OwnedLabel :=
  (acceptOne 0).map .server ++ [OwnedLabel.copy 2 1] ++
    [ServerLabel.poll 0 false [(.conn 1,readable)],.dispatch 0,.resume 0 (results 0 0),.resume 0 (results 0 0),
      .loop 0 .handled,.loop 0 .swap,.run 0 (.wrote 0),.loop 0 .finish,.loop 0 .check,.call 2 1 .startRead (.wrote 0),
      .proceed 2,.loop 0 (.wakeup 2)].map OwnedLabel.server ++
    [OwnedLabel.drop 2 1] ++
    [ServerLabel.poll 0 true [],.loop 0 .handleRead,.loop 0 .handled,.loop 0 .swap].map OwnedLabel.server

theorem executed_unheld :
    ∃ o u, Run (ownedStep linuxEventFd numbered) ⟨newServer false,[],fun _ => []⟩ pushedBehind o ∧
      OwnedLabel.server .destroy ∉ pushedBehind ∧
      o.server.cause (.run 0 (.wrote 0)) = some (0,.functor (.conn 1 .startReadInLoop)) ∧ o.refCount 1 = 0 ∧
      ownedStep linuxEventFd numbered o (.server (.run 0 (.wrote 0))) = some u := by
  refine ⟨ownedRun pushedBehind,ownedRun (pushedBehind ++ [.server (.run 0 (.wrote 0))]),final_run _ _ _ ?_,?_,?_,?_,
    final_step _ _ _ _ ?_⟩
  all_goals decide +kernel

end Reactor.Net
