import Reactor.Net.Functors

/-! `EventLoop::quit` while the loop runs. The flag stays set until `loop` is entered
again, a loop that blocks is woken for it, and which functors are still started depends
on where the loop was: everything queued so far, or only the rest of the batch. -/
namespace Reactor.Net
open Reactor.Transition

variable {F : Type}

/-- The loop thread has taken the functors of this round. -/
def LoopPc.taken : LoopPc → Bool
  | .swapped | .calling | .checking | .outside => true
  | _ => false

/-- The steps of the loop thread other than those of the code it calls. -/
def LoopLabel.own : LoopLabel F → Bool
  | .check | .poll _ | .handleRead | .handled | .swap | .run | .finish => true
  | _ => false

def EventLoop.polls (s : EventLoop F) : Nat := if s.pc = .polling then 1 else 0

/-- The steps left to a loop that is to end, not counting the functors it starts. -/
def EventLoop.ahead (s : EventLoop F) : Nat :=
  match s.pc with
  | .polling => 6
  | .handling => if s.wakeupActive then 5 else 4
  | .swapping => 3
  | .swapped | .calling => 2
  | .checking => 1
  | .outside => 0

/-- A loop for which thread `r` has called `quit`, which left it in state `t`. -/
structure Quitting (r : Nat) (t u : EventLoop F) : Prop where
  quit : u.quit = true
  iteration : u.iteration + u.polls ≤ t.iteration + t.polls
  awake : u.pc = .polling → 0 < u.wakeupFd ∨ u.owed r = .quit
  ordered : Ordered u
  known : t.pushes <+: u.pushes
  rest : t.pc.taken = true → u.pc.taken = true ∧ u.executed ++ u.functors = t.executed ++ t.functors
  whole : u.pc.taken = true → t.pc.taken = true ∨ t.pushes <+: u.executed ++ u.functors

theorem quitting_start (fd : EventFd) (s t : EventLoop F) (r : Nat) (ordered : Ordered s)
    (move : LoopMove fd s (.quit r) t) : Quitting r t t := by
  cases move with
  | quit r ready =>
    refine ⟨rfl,le_rfl,?_,⟨ordered.order,ordered.batch⟩,List.prefix_rfl,fun taken => ⟨taken,rfl⟩,.inl⟩
    intro here
    by_cases own : r = s.threadId
    · subst own
      simp only [EventLoop.owe] at here
      simp [EventLoop.ready,EventLoop.inUserCode,here] at ready
    · right
      simp [EventLoop.owe,own]

/-- The step of a thread that has nothing to write does not undo the wake-up for `quit`. -/
private theorem awake_owe {s : EventLoop F} {r a : Nat} {owed : Owed} (free : s.owed a = .nothing)
    (awake : 0 < s.wakeupFd ∨ s.owed r = .quit) : 0 < s.wakeupFd ∨ Function.update s.owed a owed r = .quit := by
  rcases awake with positive | debt
  · exact .inl positive
  · right
    rw [Function.update_of_ne ?_]
    · exact debt
    · rintro rfl
      rw [free] at debt
      cases debt

theorem quitting_move (fd : EventFd) (r : Nat) (t u v : EventLoop F) (l : LoopLabel F) (quitting : Quitting r t u)
    (move : LoopMove fd u l v) (stays : l ≠ .loop) : Quitting r t v := by
  have ordered := ordered_move fd u v l quitting.ordered move
  have iteration := quitting.iteration
  have early (here : u.pc.taken = false) : t.pc.taken = false := by
    by_contra taken
    have now := (quitting.rest (Bool.eq_true_of_not_eq_false taken)).1
    rw [here] at now
    cases now
  cases move with
  | loop here idle => exact absurd rfl stays
  | stay here on =>
    rw [quitting.quit] at on
    cases on
  | leave here quit =>
    have taken : u.pc.taken = true := by rw [here]; rfl
    exact {quitting with
      iteration := by simpa [EventLoop.polls,here] using iteration
      awake := by simp
      ordered := ordered
      rest := fun before => ⟨rfl,(quitting.rest before).2⟩
      whole := fun _ => quitting.whole taken}
  | finish here idle done =>
    have taken : u.pc.taken = true := by rcases here with here | here <;> rw [here] <;> rfl
    exact {quitting with
      iteration := by rcases here with here | here <;> simpa [EventLoop.polls,here] using iteration
      awake := by simp
      ordered := ordered
      rest := fun before => ⟨rfl,(quitting.rest before).2⟩
      whole := fun _ => quitting.whole taken}
  | run f rest next here idle =>
    have taken : u.pc.taken = true := by rcases here with here | here <;> rw [here] <;> rfl
    have same : u.executed ++ [f] ++ rest = u.executed ++ u.functors := by simp [next]
    exact {quitting with
      iteration := by rcases here with here | here <;> simpa [EventLoop.polls,here] using iteration
      awake := by simp
      ordered := ordered
      rest := fun before => ⟨rfl,same.trans (quitting.rest before).2⟩
      whole := fun _ => by simpa only [same] using quitting.whole taken}
  | poll woken here positive =>
    have before := early (by rw [here]; rfl)
    exact {quitting with
      iteration := by simpa [EventLoop.polls,here] using iteration
      awake := by simp
      ordered := ordered
      rest := fun taken => by rw [before] at taken; cases taken
      whole := by simp [LoopPc.taken]}
  | handled here all =>
    have before := early (by rw [here]; rfl)
    exact {quitting with
      iteration := by simpa [EventLoop.polls,here] using iteration
      awake := by simp
      ordered := ordered
      rest := fun taken => by rw [before] at taken; cases taken
      whole := by simp [LoopPc.taken]}
  | swap here =>
    have before := early (by rw [here]; rfl)
    have empty := quitting.ordered.batch (by simp [here]) (by simp [here])
    have all : u.executed ++ u.pendingFunctors = u.pushes := by simpa [empty] using quitting.ordered.order
    exact {quitting with
      iteration := by simpa [EventLoop.polls,here] using iteration
      awake := by simp
      ordered := ordered
      rest := fun taken => by rw [before] at taken; cases taken
      whole := fun _ => .inr (by simpa only [all] using quitting.known)}
  | handleRead here active =>
    exact {quitting with
      awake := fun now => by simp [here] at now
      ordered := ordered}
  | queueInLoop a f ready =>
    exact {quitting with
      awake := fun here => awake_owe (ready_free u a ready) (quitting.awake here)
      ordered := ordered
      known := quitting.known.trans (List.prefix_append _ _)}
  | quit a ready =>
    exact {quitting with
      quit := rfl
      awake := fun here => awake_owe (ready_free u a ready) (quitting.awake here)
      ordered := ordered}
  | wakeup a owes =>
    exact {quitting with
      awake := fun _ => .inl (fd.readable u.wakeupFd)
      ordered := ordered}

theorem quitting_run (fd : EventFd) (r : Nat) {t u v : EventLoop F} {ls : List (LoopLabel F)}
    (run : Run (loopStep fd) u ls v) (quitting : Quitting r t u) (stays : .loop ∉ ls) : Quitting r t v :=
  run.keeps (fun _ l => l ≠ .loop) (Quitting r t)
    (fun u l v before other ok => quitting_move fd r t u v l before (loopStep_move fd u v l ok) other)
    (along_of_forall (loopStep fd) _ u ls fun _ member same => stays (same ▸ member)) quitting

theorem ahead_step (fd : EventFd) (u v : EventLoop F) (l : LoopLabel F) (quit : u.quit = true)
    (move : LoopMove fd u l v) (stays : l ≠ .loop) :
    (if l.own then 1 else 0) + v.ahead + u.executed.length ≤ u.ahead + v.executed.length := by
  cases move with
  | loop here idle => exact absurd rfl stays
  | stay here on =>
    rw [quit] at on
    cases on
  | poll woken here positive => cases woken <;> simp [EventLoop.ahead,LoopLabel.own,here]
  | run f rest next here idle =>
    rcases here with here | here <;> simp [EventLoop.ahead,LoopLabel.own,here] <;> omega
  | finish here idle done => rcases here with here | here <;> simp [EventLoop.ahead,LoopLabel.own,here]
  | leave here | handled here | swap here => simp_all [EventLoop.ahead,LoopLabel.own]
  | handleRead here active => simp [EventLoop.ahead,LoopLabel.own,here,active]
  | queueInLoop a f ready | quit a ready | wakeup a owes =>
    change 0 + u.ahead + u.executed.length ≤ u.ahead + u.executed.length
    rw [Nat.zero_add]

theorem ahead_run (fd : EventFd) (r : Nat) {t u v : EventLoop F} {ls : List (LoopLabel F)}
    (run : Run (loopStep fd) u ls v) (quitting : Quitting r t u) (stays : .loop ∉ ls) :
    ls.countP LoopLabel.own + v.ahead + u.executed.length ≤ u.ahead + v.executed.length := by
  induction run with
  | nil => simp
  | cons u l w ls v head _ ih =>
    simp only [List.mem_cons,not_or] at stays
    have move := loopStep_move fd u w l head
    have first := ahead_step fd u w l quitting.quit move (Ne.symm stays.1)
    have rest := ih (quitting_move fd r t u w l quitting move (Ne.symm stays.1)) stays.2
    rw [List.countP_cons]
    omega

/-- From a call of `quit` on, in any thread, `poll` returns at most once more, and not at
all unless the loop was in it; then the wake-up is written or about to be. The loop thread
makes at most six steps besides starting functors. If it had not yet taken the functors
of the round, all that were queued before `quit` are started before `loop` returns;
otherwise the rest of the batch is, and nothing that was queued after it. -/
theorem quit_effective (fd : EventFd) (s t u : EventLoop F) (r : Nat) (ls : List (LoopLabel F))
    (reached : Reachable Fresh (loopStep fd) s)
    (quits : loopStep fd s (.quit r) = some t) (run : Run (loopStep fd) t ls u) (stays : .loop ∉ ls) :
    u.quit = true ∧ u.iteration ≤ s.iteration + (if s.pc = .polling then 1 else 0) ∧
      (u.pc = .polling → 0 < u.wakeupFd ∨ u.owed r = .quit) ∧
      ls.countP LoopLabel.own + s.executed.length ≤ 6 + u.executed.length ∧
      (s.pc.taken = false → u.pc = .outside → s.pushes <+: u.executed) ∧
      (s.pc.taken = true → u.executed <+: s.executed ++ s.functors ∧
        (u.pc = .outside → u.executed = s.executed ++ s.functors)) := by
  have move := loopStep_move fd s t (.quit r) quits
  have start := quitting_start fd s t r (ordered_reachable fd reached) move
  have quitting := quitting_run fd r run start stays
  have steps := ahead_run fd r run start stays
  have done (here : u.pc = .outside) : u.functors = [] := quitting.ordered.batch (by simp [here]) (by simp [here])
  have same : t.polls = s.polls ∧ t.iteration = s.iteration ∧ t.ahead = s.ahead ∧ t.executed = s.executed ∧
      t.functors = s.functors ∧ t.pushes = s.pushes ∧ t.pc = s.pc := by
    cases move with
    | quit r ready => exact ⟨rfl,rfl,rfl,rfl,rfl,rfl,rfl⟩
  obtain ⟨polls,iteration,ahead,executed,functors,pushes,pc⟩ := same
  have most : s.ahead ≤ 6 := by
    unfold EventLoop.ahead
    repeat' split
    all_goals omega
  have rounds := quitting.iteration
  have whole := quitting.whole
  have rest := quitting.rest
  rw [polls,iteration] at rounds
  rw [executed,ahead] at steps
  rw [pc,pushes] at whole
  rw [pc,executed,functors] at rest
  refine ⟨quitting.quit,?_,quitting.awake,by omega,?_,?_⟩
  · change u.iteration ≤ s.iteration + s.polls
    omega
  · intro before here
    rcases whole (by rw [here]; rfl) with taken | all
    · rw [before] at taken
      cases taken
    · simpa [done here] using all
  · intro taken
    have same := (rest taken).2
    refine ⟨⟨u.functors,same⟩,fun here => ?_⟩
    simpa [done here] using same

/-- A functor is queued for a loop that waits in `poll`. -/
private def waitingLoop : List (LoopLabel Nat) := [LoopLabel.loop,.check,.queueInLoop 1 6]

/-- From the call of `quit` by thread 2 to the end of the loop. -/
private def lastRound : List (LoopLabel Nat) :=
  [LoopLabel.wakeup 2,.wakeup 1,.poll true,.handleRead,.handled,.swap,.run,.finish,.check]

theorem quit_effective_waiting :
    (final (loopStep linuxEventFd) (newEventLoop Nat 0) (waitingLoop ++ [.quit 2] ++ lastRound)).pc = .outside ∧
      (final (loopStep linuxEventFd) (newEventLoop Nat 0) waitingLoop).pushes <+:
        (final (loopStep linuxEventFd) (newEventLoop Nat 0) (waitingLoop ++ [.quit 2] ++ lastRound)).executed := by
  have reached : Reachable Fresh (loopStep linuxEventFd)
      (final (loopStep linuxEventFd) (newEventLoop Nat 0) waitingLoop) :=
    ⟨_,_,newEventLoop_fresh 0,final_run (loopStep linuxEventFd) _ _ (by decide)⟩
  have left : (final (loopStep linuxEventFd) (newEventLoop Nat 0) (waitingLoop ++ [.quit 2] ++ lastRound)).pc =
      .outside := by decide
  exact ⟨left,(quit_effective linuxEventFd _ _ _ 2 lastRound reached
    (final_step (loopStep linuxEventFd) (newEventLoop Nat 0) waitingLoop (.quit 2) (by decide))
    (final_append (loopStep linuxEventFd) (newEventLoop Nat 0) (waitingLoop ++ [.quit 2]) lastRound (by decide))
    (by decide)).2.2.2.2.1 (by decide) left⟩

end Reactor.Net
