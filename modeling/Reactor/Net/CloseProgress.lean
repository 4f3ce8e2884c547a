import Reactor.Net.ActiveChannels
import Reactor.Net.Response
import Reactor.Net.Turns

/-! A connection that is closed does not stay. From `handleClose` on it has three things to
wait for: the callback of the user, its turn in the base loop and its turn in its own loop.
Each of them is over within a round or two of the loop in question. -/
namespace Reactor.Net
open Reactor.Transition

/-- How many of the three things are ahead. -/
def Life.stage (a : Life) : Nat :=
  if a.closing ≠ 0 then 3 else if a.removals ≠ 0 then 2 else if .connectDestroyed ∈ a.queue then 1 else 0

def Phase.stage : Phase → Nat
  | .closing => 3
  | .removing => 2
  | .destroying => 1
  | _ => 0

/-- The end of the last round that a functor waits for, when it is in the queue. -/
def EventLoop.due {F : Type} (q : F → Bool) (s : EventLoop F) : Nat :=
  s.iteration + if s.functors.any fun p => q p.functor then 0 else s.pollsToSwap

section
variable {F : Type} {fd : EventFd} {s u : EventLoop F} {l : LoopLabel F} {q : F → Bool}

/-- Two rounds are enough. -/
theorem due_lt (q : F → Bool) (rounds : s.iteration + 1 < u.iteration) : s.due q < u.due q := by
  have most : s.due q ≤ s.iteration + 1 := by
    unfold EventLoop.due EventLoop.pollsToSwap
    repeat' split
    all_goals omega
  have least : u.iteration ≤ u.due q := Nat.le_add_right _ _
  omega

/-- As long as the functor is queued and does not have its turn. -/
theorem due_step (ordered : Ordered s) (waits : s.queued.any (fun p => q p.functor) = true)
    (other : l = .run → ∀ p, s.functors.head? = some p → q p.functor = false) (move : LoopMove fd s l u) :
    u.due q ≤ s.due q := by
  by_cases swap : l = .swap
  · subst swap
    cases move with
    | swap here =>
      have empty := ordered.batch (by simp [here]) (by simp [here])
      have pending : s.pendingFunctors.any (fun p => q p.functor) = true := by
        simpa [EventLoop.queued,empty] using waits
      simp [EventLoop.due,pending]
  by_cases start : l = .run
  · subst start
    cases move with
    | run f rest next here idle =>
      have first : q f.functor = false := other rfl f (by simp [next])
      rcases here with here | here <;> simp [EventLoop.due,EventLoop.pollsToSwap,next,first,here]
  have functors : u.functors = s.functors := by
    cases move <;> first | rfl | contradiction
  have polls := (toSwap_step (n := 0) move swap start).2.1
  unfold EventLoop.due
  rw [functors]
  split
  · rename_i taken
    -- nothing but the functors runs before the batch is finished
    have some : s.functors ≠ [] := by
      intro empty
      simp [empty] at taken
    have here : s.pc = .swapped ∨ s.pc = .calling := by
      by_contra elsewhere
      rw [not_or] at elsewhere
      exact some (ordered.batch elsewhere.1 elsewhere.2)
    cases move with
    | poll woken away =>
      rw [away] at here
      rcases here with here | here <;> cases here
    | swap | run => contradiction
    | _ => exact Nat.le_refl _
  · exact polls

theorem SameTurn.due {may : ServerFunctor → Prop} {a b : EventLoop ServerFunctor} (same : SameTurn may a b)
    (q : ServerFunctor → Bool) : b.due q = a.due q := by
  unfold EventLoop.due EventLoop.pollsToSwap
  rw [same.iteration,same.functors,same.pc]

theorem iteration_step (user : s.inUserCode = true) (move : LoopMove fd s l u) : u.iteration = s.iteration := by
  cases move with
  | poll woken here => simp [EventLoop.inUserCode,here] at user
  | _ => rfl

end

section
variable {a b : Life} {p q : Phase} {quiet : Bool} {touch : Touch}

theorem InPhase.stage (inside : InPhase p a) (shut : p.shut = true) : a.stage = p.stage := by
  have token : .connectDestroyed ∈ a.queue ↔ .connectDestroyed ∈ p.tokens := by
    rw [← inside.tokens,List.mem_filter]
    simp [ConnFunctor.token]
  unfold Life.stage
  rw [inside.closing,inside.removals]
  cases p <;> simp_all [Phase.stage,Phase.closings,Phase.removals,Phase.tokens,Phase.shut]

/-- `handleClose` does not begin again. -/
theorem closing_move (move : LifeMove (.orderly quiet) a touch b) (after : InPhase q b) (closed : .handleClose ∈ a.acts) :
    b.closing ≤ a.closing := by
  refine move.closing_le ?_
  rintro rfl
  cases move with
  | handleClose queue pending acts closing apart live =>
    have once := after.closed_once
    have before := List.count_pos_iff.mpr closed
    unfold Life.handleClose at once
    split at once
    all_goals
      simp only [List.count_append,List.count_cons_self] at once
      omega

/-- A connection that is closed comes nearer to its end, or stays where it is. -/
theorem stage_move (inside : InPhase p a) (shut : p.shut = true) (move : LifeMove (.orderly quiet) a touch b)
    (after : InPhase q b) : q.shut = true ∧ b.stage ≤ a.stage := by
  have closed := inside.closed.mpr shut
  have late := after.closed.mp (move.acts.subset closed)
  refine ⟨late,?_⟩
  have fewer := closing_move move after closed
  rw [inside.closing,after.closing] at fewer
  have kept (act : Act) (milestone : act.milestone = true) (done : act ∈ p.miles) : act ∈ q.miles :=
    (after.mem_miles milestone).mp (move.acts.subset ((inside.mem_miles milestone).mpr done))
  have erased := kept (.removeConnectionInLoop 1) rfl
  have removed := kept (.remove true) rfl
  rw [inside.stage shut,after.stage late]
  cases p <;> cases q <;>
    simp_all [Phase.shut,Phase.stage,Phase.closings,Phase.miles]

end

section
variable {names : Nat → String} {s u v : Server} {i j c : Nat} {k : Conn} {fd : EventFd} {l : ServerLabel}

theorem turn_due {may : ServerFunctor → Prop} {a b : EventLoop ServerFunctor} {q : ServerFunctor → Bool}
    (turn : Turn fd may l j a b) (ordered : Ordered a)
    (waits : a.queued.any (fun p => q p.functor) = true)
    (other : ∀ w p, l = .run j w → a.functors.head? = some p → q p.functor = false) : b.due q ≤ a.due q := by
  cases turn with
  | rest idle same => rw [same.due q]
  | drive ll mid drives move same =>
    rw [same.due q]
    refine due_step ordered waits ?_ move
    rintro rfl p first
    cases drives with
    | run j w => exact other w p rfl first
    | loop j _ stands plain => exact absurd rfl stands

theorem run_performs {w : Write} {p : Push ServerFunctor} (ok : serverStep fd names s (.run j w) = some u)
    (first : (s.threads j).loop.functors.head? = some p) : ∃ loop, (s.setLoop j loop).perform names j w p = some u := by
  have fine := serverStep_running ok
  simp only [serverStep,fine,ne_eq,not_true_eq_false,Bool.false_eq_true,or_self,if_false] at ok
  cases batch : (s.threads j).loop.functors with
  | nil => simp [batch] at ok
  | cons f rest =>
    simp only [batch] at ok
    obtain ⟨_,ok⟩ := Option.ite_none_right_eq_some.mp ok
    obtain ⟨loop,_,ok⟩ := Option.bind_eq_some_iff.mp ok
    rw [batch] at first
    cases first
    exact ⟨loop,ok⟩

theorem queueInLoop_conns {t : Nat} {f : ServerFunctor} (ok : v.queueInLoop i t f = some u) : u.conns = v.conns := by
  obtain ⟨_,⟨⟩⟩ := Option.ite_none_right_eq_some.mp ok
  rfl

theorem removeConnectionInLoop_erases (on : s.destroyed = false) (ok : s.removeConnectionInLoop names c k = some u) :
    ∃ b n, u.conns c = some b ∧ .removeConnectionInLoop n ∈ b.acts := by
  unfold Server.removeConnectionInLoop at ok
  rw [if_neg (by simp [on])] at ok
  simp only at ok
  split at ok
  · rw [queueInLoop_conns ok]
    exact ⟨_,_,Function.update_self _ _ _,List.mem_append.mpr (.inr List.mem_cons_self)⟩
  · cases ok
    exact ⟨_,_,Function.update_self _ _ _,List.mem_append.mpr (.inr List.mem_cons_self)⟩

theorem removeChannel_conns (s : Server) (i : Nat) (ch : Chan) : (s.removeChannel i ch).conns = s.conns := by
  unfold Server.removeChannel
  simp only
  split <;> rfl

theorem connectDestroyed_removes (s : Server) (i c : Nat) (k : Conn) :
    ∃ b state, (s.connectDestroyed i c k).conns c = some b ∧ .connectDestroyed state ∈ b.acts := by
  unfold Server.connectDestroyed
  split
  · exact ⟨_,k.conn.state,Function.update_self _ _ _,by simp⟩
  · unfold Server.remove
    simp only
    split
    · rw [removeChannel_conns]
      exact ⟨_,k.conn.state,Function.update_self _ _ _,by simp⟩
    · exact ⟨_,k.conn.state,Function.update_self _ _ _,by simp⟩

/-- `removeConnectionInLoop` has had its turn. -/
theorem removal_runs {w : Write} {p : Push ServerFunctor} (on : s.destroyed = false)
    (ok : serverStep fd names s (.run j w) = some u) (first : (s.threads j).loop.functors.head? = some p)
    (functor : p.functor = .removeConnectionInLoop c) : ∃ b n, u.conns c = some b ∧ .removeConnectionInLoop n ∈ b.acts := by
  obtain ⟨loop,ok⟩ := run_performs ok first
  rw [Server.perform,functor] at ok
  simp only at ok
  split at ok
  · cases ok
  · exact removeConnectionInLoop_erases (s := s.setLoop j loop) on ok

theorem destruction_runs {w : Write} {p : Push ServerFunctor} (ok : serverStep fd names s (.run j w) = some u)
    (first : (s.threads j).loop.functors.head? = some p) (functor : p.functor = .conn c .connectDestroyed) :
    ∃ b state, u.conns c = some b ∧ .connectDestroyed state ∈ b.acts := by
  obtain ⟨loop,ok⟩ := run_performs ok first
  rw [Server.perform,functor] at ok
  simp only at ok
  split at ok
  · cases ok
  · cases ok
    exact connectDestroyed_removes _ j c _

/-- Connection `c` of loop `i` is closed, and has at most `n` things to wait for. -/
def Server.Leaves (s : Server) (c i n : Nat) : Prop :=
  ∃ k, s.conns c = some k ∧ k.loop = i ∧ k.conn.state = .kDisconnected ∧ (s.life c k).stage ≤ n

/-- The round of the loop in question by which the next of `n` things is over. -/
def Server.deadline (s : Server) (c i n : Nat) : Nat :=
  if n = 3 then (s.threads i).loop.iteration
  else if n = 2 then (s.threads 0).loop.due fun f => f = .removeConnectionInLoop c
  else (s.threads i).loop.due fun f => f = .conn c .connectDestroyed

theorem stage_closing {a : Life} (stage : a.stage = 3) : a.closing ≠ 0 := by
  intro none
  unfold Life.stage at stage
  rw [if_neg (by simp [none])] at stage
  split at stage
  · cases stage
  · split at stage <;> cases stage

theorem stage_removing {a : Life} (stage : a.stage = 2) : a.removals ≠ 0 := by
  intro none
  unfold Life.stage at stage
  rw [if_neg (c := a.removals ≠ 0) (by simp [none])] at stage
  repeat' split at stage
  all_goals cases stage

theorem stage_destroying {a : Life} (stage : a.stage = 1) : .connectDestroyed ∈ a.queue := by
  by_contra none
  unfold Life.stage at stage
  rw [if_neg none] at stage
  repeat' split at stage
  all_goals cases stage

/-- In the callback of the user the loop does not poll. -/
theorem callback_deadline (batched : Batched s) (stage : (s.life c k).stage = 3)
    {may : ServerFunctor → Prop} (turn : Turn fd may l k.loop (s.threads k.loop).loop (u.threads k.loop).loop) :
    (u.threads k.loop).loop.iteration = (s.threads k.loop).loop.iteration := by
  have frame : .closeCallback c ∈ (s.threads k.loop).stack := List.count_pos_iff.mp (Nat.pos_of_ne_zero (stage_closing stage))
  have user := batched.user k.loop (List.ne_nil_of_mem frame)
  cases turn with
  | rest idle same => exact same.iteration
  | drive ll mid drives move same => exact same.iteration.trans (iteration_step user move)

theorem removal_deadline (phases : InPhases false names s) (after : InPhases false names u) (ok : serverStep fd names s l = some u)
    {b : Conn} (there : u.conns c = some b) (stage : (s.life c k).stage = 2) (late : (u.life c b).stage = 2)
    (shut : b.conn.state = .kDisconnected) :
    (u.threads 0).loop.due (fun f => f = .removeConnectionInLoop c) ≤
      (s.threads 0).loop.due fun f => f = .removeConnectionInLoop c := by
  refine turn_due (turn_step phases.placed ok 0) (phases.placed.threads 0).ordered ?_ ?_
  · have some := List.countP_pos_iff.mp (Nat.pos_of_ne_zero (stage_removing stage))
    exact List.any_eq_true.mpr some
  · rintro w p rfl first
    rw [decide_eq_false_iff_not]
    intro functor
    have on : s.destroyed = false := (Bool.or_eq_false_iff.mp phases.on).2
    obtain ⟨b',n,found,erased⟩ := removal_runs on ok first functor
    rw [there] at found
    cases found
    obtain ⟨⟨q,inside⟩,_⟩ := after.lives c b there
    have closed := inside.shut_of_state shut
    have done : .removeConnectionInLoop n ∈ q.miles := (inside.mem_miles rfl).mp erased
    rw [inside.stage closed] at late
    cases q <;> simp_all [Phase.stage,Phase.miles]

theorem destruction_deadline (phases : InPhases false names s) (after : InPhases false names u)
    (ok : serverStep fd names s l = some u)
    {b : Conn} (there : u.conns c = some b) (stage : (s.life c k).stage = 1) (late : (u.life c b).stage = 1)
    (shut : b.conn.state = .kDisconnected) :
    (u.threads k.loop).loop.due (fun f => f = .conn c .connectDestroyed) ≤
      (s.threads k.loop).loop.due fun f => f = .conn c .connectDestroyed := by
  refine turn_due (turn_step phases.placed ok k.loop) (phases.placed.threads k.loop).ordered ?_ ?_
  · have count : 0 < (s.life c k).queue.count .connectDestroyed := List.count_pos_iff.mpr (stage_destroying stage)
    rw [life_queued] at count
    exact List.any_eq_true.mpr (List.countP_pos_iff.mp count)
  · rintro w p rfl first
    rw [decide_eq_false_iff_not]
    intro functor
    obtain ⟨b',state,found,removed⟩ := destruction_runs ok first functor
    rw [there] at found
    cases found
    obtain ⟨⟨q,inside⟩,_⟩ := after.lives c b there
    have closed := inside.shut_of_state shut
    have done : .connectDestroyed state ∈ q.miles := (inside.mem_miles rfl).mp removed
    rw [inside.stage closed] at late
    cases q <;> simp_all [Phase.stage,Phase.miles]

/-- The server stays, and only on open connections is `state_` changed by other threads, reading
started and the end of the file found. -/
def Server.peaceful (s : Server) (l : ServerLabel) : Bool := l ≠ .destroy && s.swaps l && s.startsOpen l && s.endsOpen l

/-- A server with all of its connections in their phases. -/
structure Serving (names : Nat → String) (s : Server) : Prop where
  phases : InPhases false names s
  batched : Batched s

section
variable (serving : Serving names s) (distinct : Function.Injective names) (peaceful : s.peaceful l = true)
  (ok : serverStep fd names s l = some u)
include serving distinct peaceful ok

theorem Serving.step : Serving names u ∧ Guarded (.orderly false) s l := by
  simp only [Server.peaceful,Bool.and_eq_true,decide_eq_true_eq] at peaceful
  obtain ⟨⟨⟨stays,swaps⟩,starts⟩,ends⟩ := peaceful
  have guarded := serving.phases.guarded swaps starts stays ends
  have clear : s.batchClear l = true := by
    cases l with
    | destroy => exact absurd rfl stays
    | _ => rfl
  exact ⟨⟨serving.phases.step distinct guarded ok,
    serving.batched.move serving.phases.placed clear (serving.phases.placed.move ok)⟩,guarded⟩

/-- What a step does to a connection that is closed. -/
theorem leaves_life (found : s.conns c = some k) (off : k.conn.state = .kDisconnected) :
    ∃ b, u.conns c = some b ∧ b.loop = k.loop ∧ b.conn.state = .kDisconnected ∧ (u.life c b).stage ≤ (s.life c k).stage := by
  obtain ⟨after,guarded⟩ := serving.step distinct peaceful ok
  have placed := serving.phases.placed
  obtain ⟨⟨p,inside⟩,_⟩ := serving.phases.lives c k found
  obtain ⟨touch,_,moved,⟨b,there,home,rfl⟩,_⟩ := life_move placed distinct guarded (placed.move ok) ⟨k,found,rfl,rfl⟩
  obtain ⟨⟨q,later⟩,_⟩ := after.phases.lives c b there
  obtain ⟨shut,less⟩ := stage_move inside (inside.shut_of_state off) moved later
  exact ⟨b,there,home,later.shut_state shut,less⟩

theorem Server.Leaves.kept {n : Nat} (leaves : s.Leaves c i n) : u.Leaves c i n := by
  obtain ⟨k,found,home,off,stage⟩ := leaves
  obtain ⟨b,there,same,still,less⟩ := leaves_life serving distinct peaceful ok found off
  exact ⟨b,there,same.trans home,still,less.trans stage⟩

/-- A step brings the connection to the next thing, or keeps the round by which it comes. -/
theorem Server.Leaves.step {n : Nat} (leaves : s.Leaves c i (n+1)) (few : n < 3) :
    u.Leaves c i n ∨ (u.Leaves c i (n+1) ∧ u.deadline c i (n+1) ≤ s.deadline c i (n+1)) := by
  obtain ⟨k,found,rfl,off,stage⟩ := leaves
  obtain ⟨b,there,home,still,less⟩ := leaves_life serving distinct peaceful ok found off
  by_cases next : (u.life c b).stage ≤ n
  · exact .inl ⟨b,there,home,still,next⟩
  · refine .inr ⟨⟨b,there,home,still,less.trans stage⟩,?_⟩
    have after := (serving.step distinct peaceful ok).1.phases
    have now : (s.life c k).stage = n+1 := by omega
    have same : (u.life c b).stage = n+1 := by omega
    unfold Server.deadline
    obtain rfl | rfl | rfl : n = 2 ∨ n = 1 ∨ n = 0 := by omega
    · exact (callback_deadline serving.batched now (turn_step serving.phases.placed ok k.loop)).le
    · exact removal_deadline serving.phases after ok there now same still
    · exact destruction_deadline serving.phases after ok there now same still

end

theorem leaves_run {n : Nat} {ls : List ServerLabel} (run : Run (serverStep fd names) s ls u)
    (along : Along (serverStep fd names) (fun s l => s.peaceful l = true) s ls) (distinct : Function.Injective names)
    (serving : Serving names s) (leaves : s.Leaves c i (n+1)) (few : n < 3) :
    Serving names u ∧ (u.Leaves c i n ∨ (u.Leaves c i (n+1) ∧ u.deadline c i (n+1) ≤ s.deadline c i (n+1))) := by
  refine run.keeps _ (fun t => Serving names t ∧
    (t.Leaves c i n ∨ (t.Leaves c i (n+1) ∧ t.deadline c i (n+1) ≤ s.deadline c i (n+1)))) ?_ along
    ⟨serving,.inr ⟨leaves,Nat.le_refl _⟩⟩
  rintro t l t' ⟨serving,before⟩ peaceful ok
  refine ⟨(serving.step distinct peaceful ok).1,?_⟩
  rcases before with done | ⟨ahead,bound⟩
  · exact .inl (done.kept serving distinct peaceful ok)
  · rcases ahead.step serving distinct peaceful ok few with done | ⟨still,less⟩
    · exact .inl done
    · exact .inr ⟨still,less.trans bound⟩

/-- What the loop in question has polled beyond its deadline is over. -/
theorem leaves_past {n : Nat} {ls : List ServerLabel} (run : Run (serverStep fd names) s ls u)
    (along : Along (serverStep fd names) (fun s l => s.peaceful l = true) s ls) (distinct : Function.Injective names)
    (serving : Serving names s) (leaves : s.Leaves c i (n+1)) (few : n < 3)
    (past : s.deadline c i (n+1) < u.deadline c i (n+1)) : Serving names u ∧ u.Leaves c i n := by
  obtain ⟨after,done | ⟨_,bound⟩⟩ := leaves_run run along distinct serving leaves few
  · exact ⟨after,done⟩
  · exact absurd past (Nat.not_lt.mpr bound)

theorem serving_run {start : Server} {ls : List ServerLabel} (new : NewServer start) (distinct : Function.Injective names)
    (run : Run (serverStep fd names) start ls s)
    (along : Along (serverStep fd names) (fun s l => s.peaceful l = true) start ls) : Serving names s :=
  run.keeps _ (Serving names) (fun _ _ _ before peaceful ok => (before.step distinct peaceful ok).1) along
    ⟨newServer_phases false new,newServer_batched new⟩

theorem Server.Leaves.gone (serving : Serving names s) (leaves : s.Leaves c i 0) :
    ∃ k, s.conns c = some k ∧ k.acts.filter Act.milestone = lifecycle ∧ ∀ name, (name,c) ∉ s.connections := by
  obtain ⟨k,found,_,off,stage⟩ := leaves
  obtain ⟨⟨p,inside⟩,_⟩ := serving.phases.lives c k found
  have shut := inside.shut_of_state off
  have last : p = .destroyed := by
    rw [inside.stage shut] at stage
    cases p <;> simp_all [Phase.stage,Phase.shut]
  subst last
  refine ⟨k,found,inside.miles,fun name member => ?_⟩
  have listed : s.listed c = true := List.any_eq_true.mpr ⟨_,member,by simp⟩
  have unlisted : s.listed c = false := inside.listed
  rw [listed] at unlisted
  cases unlisted

end

/-- A connection that is closed is destroyed soon, whatever else the server does meanwhile:
after one more round of its own loop, two of the base loop and two of its own again, it has
gone through its life to the end and is out of `connections_`. -/
theorem closed_connection_destroyed (fd : EventFd) (names : Nat → String) (distinct : Function.Injective names)
    (start s v w u : Server) (before ls more later : List ServerLabel) (new : NewServer start)
    (run : Run (serverStep fd names) start before s) (first : Run (serverStep fd names) s ls v)
    (second : Run (serverStep fd names) v more w) (third : Run (serverStep fd names) w later u)
    (along : Along (serverStep fd names) (fun s l => s.peaceful l = true) start (before ++ (ls ++ (more ++ later))))
    (c : Nat) (k : Conn) (found : s.conns c = some k) (closed : k.conn.state = .kDisconnected)
    (own : (s.threads k.loop).loop.iteration < (v.threads k.loop).loop.iteration)
    (base : (v.threads 0).loop.iteration + 1 < (w.threads 0).loop.iteration)
    (again : (w.threads k.loop).loop.iteration + 1 < (u.threads k.loop).loop.iteration) :
    ∃ b, u.conns c = some b ∧ b.acts.filter Act.milestone = lifecycle ∧ ∀ name, (name,c) ∉ u.connections := by
  obtain ⟨one,rest⟩ := along.split run
  obtain ⟨two,rest⟩ := rest.split first
  obtain ⟨three,four⟩ := rest.split second
  have leaves : s.Leaves c k.loop 3 := by
    refine ⟨k,found,rfl,closed,?_⟩
    unfold Life.stage
    repeat' split
    all_goals decide
  obtain ⟨serving,leaves⟩ := leaves_past first two distinct (serving_run new distinct run one) leaves (by decide) own
  have erased : v.deadline c k.loop 2 < w.deadline c k.loop 2 := by
    simp only [Server.deadline,Nat.reduceEqDiff,reduceIte]
    exact due_lt _ base
  obtain ⟨serving,leaves⟩ := leaves_past second three distinct serving leaves (by decide) erased
  have destroyed : w.deadline c k.loop 1 < u.deadline c k.loop 1 := by
    simp only [Server.deadline,Nat.reduceEqDiff,reduceIte]
    exact due_lt _ again
  obtain ⟨serving,leaves⟩ := leaves_past third four distinct serving leaves (by decide) destroyed
  exact leaves.gone serving

/-- Loop 1 has just called `handleClose`. -/
private def untilClosed : List ServerLabel := peerCloses.dropLast.dropLast

private def ownRound : List ServerLabel :=
  [ServerLabel.resume 1 (results 0 0),.loop 0 (.wakeup 1),.loop 1 .handled,.loop 1 .swap,.loop 1 .finish,.loop 1 .check,
    .poll 1 false []]

private def baseRounds : List ServerLabel :=
  [ServerLabel.poll 0 true [],.loop 0 .handleRead,.loop 0 .handled,.loop 0 .swap,.run 0 (.wrote 0),.loop 1 (.wakeup 0),
    .loop 0 .finish,.loop 0 .check,.poll 0 false []]

private def ownRounds : List ServerLabel :=
  [ServerLabel.loop 1 .handled,.loop 1 .swap,.run 1 (.wrote 0),.loop 1 .finish,.loop 1 .check,.poll 1 true [],
    .loop 1 .handleRead,.loop 1 .handled,.loop 1 .swap,.loop 1 .finish,.loop 1 .check,.poll 1 false []]

theorem closed_connection_destroyed_peer :
    ∃ b, (serverRun (untilClosed ++ ownRound ++ baseRounds ++ ownRounds)).conns 1 = some b ∧
      b.acts.filter Act.milestone = lifecycle ∧
      ∀ name, (name,1) ∉ (serverRun (untilClosed ++ ownRound ++ baseRounds ++ ownRounds)).connections := by
  have found : ((serverRun untilClosed).conns 1).isSome = true := by decide +kernel
  obtain ⟨k,found⟩ := Option.isSome_iff_exists.mp found
  have closed : ((serverRun untilClosed).conns 1).all (fun k => k.conn.state = .kDisconnected && k.loop = 1) = true := by
    decide +kernel
  rw [found] at closed
  obtain ⟨off,home⟩ : k.conn.state = .kDisconnected ∧ k.loop = 1 := by simpa using closed
  have first := final_append (serverStep linuxEventFd numbered) (newServer false) untilClosed ownRound (by decide +kernel)
  have second := final_append (serverStep linuxEventFd numbered) (newServer false) (untilClosed ++ ownRound) baseRounds
    (by decide +kernel)
  have third := final_append (serverStep linuxEventFd numbered) (newServer false) (untilClosed ++ ownRound ++ baseRounds)
    ownRounds (by decide +kernel)
  refine closed_connection_destroyed linuxEventFd numbered (connName_injective _ _) (newServer false) _ _ _ _ untilClosed
    ownRound baseRounds ownRounds ⟨false,rfl⟩ (final_run _ _ _ (by decide +kernel)) first second third (by decide +kernel)
    1 k found off ?_ (by decide +kernel) ?_
  · rw [home]
    decide +kernel
  · rw [home]
    decide +kernel

end Reactor.Net
