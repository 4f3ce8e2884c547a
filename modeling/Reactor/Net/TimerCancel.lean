import Reactor.Net.TimerMove

/-! Cancelled timers. `cancelInLoop` deletes a timer it finds in `activeTimers_`, and notes
one that is expired for `reset`, which then does not put it back. Whether the callback of
an expired timer was started already is not looked at. -/
namespace Reactor.Net
open Reactor.Transition

variable {q : TimerQueue} {a : ActiveTimer}

def TimerQueue.allocated (q : TimerQueue) (a : ActiveTimer) : Bool :=
  (q.heap a.timer).any fun t => t.sequence = a.sequence

theorem allocated_iff : q.allocated a = true ↔ ∃ t, q.heap a.timer = some t ∧ t.sequence = a.sequence := by
  simp [TimerQueue.allocated,Option.any_eq_true]

theorem allocated_of_heap {p : Nat} {t : Timer} (found : q.heap p = some t) : q.allocated ⟨p,t.sequence⟩ = true :=
  allocated_iff.mpr ⟨t,found,rfl⟩

theorem allocated_freed {p : Nat} {t : Timer} (alive : (q.freed p t).allocated a = true) :
    a.timer ≠ p ∧ q.allocated a = true := by
  obtain ⟨u,found,number⟩ := allocated_iff.mp alive
  obtain ⟨other,before⟩ := (heap_freed p a.timer u).mp found
  exact ⟨other,allocated_iff.mpr ⟨u,before,number⟩⟩

theorem allocated_store {p : Nat} {t u : Timer} (found : q.heap p = some t) (same : u.sequence = t.sequence)
    (alive : (q.store p u).allocated a = true) : q.allocated a = true := by
  obtain ⟨v,there,number⟩ := allocated_iff.mp alive
  rcases (heap_store p a.timer u v).mp there with ⟨here,rfl⟩ | ⟨_,before⟩
  · exact allocated_iff.mpr ⟨t,here ▸ found,same ▸ number⟩
  · exact allocated_iff.mpr ⟨v,before,number⟩

/-- A new timer is none that was inserted before. -/
theorem allocated_create (numbered : Numbered q) {p : Nat} {when : Int} {interval : ℚ} (logged : a ∈ q.inserted)
    (alive : (q.create p when interval).allocated a = true) : q.allocated a = true := by
  obtain ⟨u,there,number⟩ := allocated_iff.mp alive
  rcases (heap_store p a.timer _ u).mp there with ⟨_,rfl⟩ | ⟨_,before⟩
  · have bound := (numbered.logged a logged).1
    simp only at number
    omega
  · exact allocated_iff.mpr ⟨u,before,number⟩

/-- An inserted timer that will not be put into the queue again: it is not there, and if
it is expired `reset` knows that it is cancelled. -/
structure Dropped (q : TimerQueue) (a : ActiveTimer) (hand : List Entry) : Prop where
  logged : a ∈ q.inserted
  inactive : ¬a ∈ q.activeTimers
  noted : q.allocated a = true → ∀ e ∈ hand, e.timer = a.timer → a ∈ q.cancelingTimers

/-- The timer is expired and its callback is still to be started. -/
def TimerQueue.waits (q : TimerQueue) (a : ActiveTimer) : Bool :=
  q.allocated a && q.phase.waiting.any fun e => e.timer = a.timer

theorem waits_iff : q.waits a = true ↔ q.allocated a = true ∧ ∃ e ∈ q.phase.waiting, e.timer = a.timer := by
  simp [TimerQueue.waits,List.any_eq_true]

theorem Held.active_of_listed {hand : List Entry} {e : Entry} (held : Held q hand) (alive : q.allocated a = true)
    (listed : e ∈ q.timers) (same : e.timer = a.timer) : a ∈ q.activeTimers := by
  obtain ⟨t,found,number⟩ := allocated_iff.mp alive
  refine (held.actives a).mpr ⟨e,listed,t,same ▸ found,?_⟩
  rw [same,number]

section
variable (addTime : Int → ℚ → Int)

theorem allocated_reset {now : Int} {q u : TimerQueue} {expired : List Entry} (run : ResetRun addTime now q expired u)
    (alive : u.allocated a = true) : q.allocated a = true := by
  induction run with
  | nil q => exact alive
  | again q u e rest t found repeats kept tail ih => exact allocated_store (u := t.restart addTime now) found rfl (ih alive)
  | drop q u e rest t found finished tail ih => exact (allocated_freed (ih alive)).2

/-- A timer that was inserted and deleted does not come back. -/
theorem allocated_move {l : TimerLabel} {u : TimerQueue} (sound : Sound q) (logged : a ∈ q.inserted)
    (move : TimerMove addTime q l u) (alive : u.allocated a = true) : q.allocated a = true := by
  cases move with
  | tick d => exact alive
  | create p when interval low free => exact allocated_create sound.numbered logged alive
  | add p t found fresh =>
    rw [added_frame] at alive
    exact alive
  | cancel id t active found number listed => exact (allocated_freed alive).2
  | pass id missing =>
    rw [passedOver_frame] at alive
    exact alive
  | handleRead actives idle members =>
    rw [readTimerfd_frame] at alive
    exact alive
  | run now done e rest t here found => exact alive
  | finish now done u here loop =>
    rw [rearmed_frame] at alive
    have before := allocated_reset addTime (a := a) loop alive
    exact before

theorem dropped_reset {now : Int} {q u : TimerQueue} {expired : List Entry} (run : ResetRun addTime now q expired u)
    (dropped : Dropped q a expired) : Dropped u a [] := by
  induction run with
  | nil q => exact dropped
  | again q u e rest t found repeats kept tail ih =>
    apply ih
    refine ⟨dropped.logged,fun active => ?_,fun alive d later => ?_⟩
    · rcases (OrderedSet.mem_insert _ _ _).mp active with rfl | old
      · have alive : q.allocated ⟨e.timer,t.sequence⟩ = true := allocated_of_heap found
        exact kept (dropped.noted alive e (by simp) rfl)
      · exact dropped.inactive old
    · exact dropped.noted (allocated_store (u := t.restart addTime now) found rfl alive) d (by simp [later])
  | drop q u e rest t found finished tail ih =>
    apply ih
    exact ⟨dropped.logged,dropped.inactive,fun alive d later =>
      dropped.noted (allocated_freed alive).2 d (by simp [later])⟩

theorem dropped_move {l : TimerLabel} {u : TimerQueue} (sound : Sound q) (dropped : Dropped q a q.phase.expired)
    (move : TimerMove addTime q l u) : Dropped u a u.phase.expired := by
  cases move with
  | tick d => exact ⟨dropped.logged,dropped.inactive,dropped.noted⟩
  | create p when interval low free =>
    exact ⟨dropped.logged,dropped.inactive,fun alive =>
      dropped.noted (allocated_create sound.numbered dropped.logged alive)⟩
  | add p t found fresh =>
    rw [added_frame]
    refine ⟨List.mem_append.mpr (.inl dropped.logged),fun active => ?_,dropped.noted⟩
    rcases (OrderedSet.mem_insert _ _ _).mp active with rfl | old
    · exact fresh dropped.logged
    · exact dropped.inactive old
  | cancel id t active found number listed =>
    exact ⟨dropped.logged,fun there => dropped.inactive ((OrderedSet.mem_erase _ _ _).mp there).2,
      fun alive => dropped.noted (allocated_freed alive).2⟩
  | pass id missing =>
    unfold TimerQueue.passedOver
    split
    · exact ⟨dropped.logged,dropped.inactive,fun alive e there same =>
        (OrderedSet.mem_insert _ _ _).mpr (.inr (dropped.noted alive e there same))⟩
    · exact dropped
  | handleRead actives idle members =>
    rw [readTimerfd_frame]
    refine ⟨dropped.logged,fun active => dropped.inactive ((members a).mp active).1,fun alive e early same => ?_⟩
    -- an expired entry was in the queue a moment ago
    exact absurd (sound.held.active_of_listed alive ((OrderedSet.mem_below _ _ _).mp early).1 same) dropped.inactive
  | run now done e rest t here found =>
    have same : (TimerPhase.calling now (done++[e]) rest).expired = q.phase.expired := by
      simp [here,TimerPhase.expired]
    exact ⟨dropped.logged,dropped.inactive,fun alive d there => dropped.noted alive d (same ▸ there)⟩
  | finish now done u here loop =>
    have same : done = q.phase.expired := by simp [here,TimerPhase.expired]
    have before : Dropped {q with callingExpiredTimers := false} a done :=
      ⟨dropped.logged,dropped.inactive,fun alive d there => dropped.noted alive d (same ▸ there)⟩
    have after := dropped_reset addTime loop before
    rw [rearmed_frame]
    exact ⟨after.logged,after.inactive,by simp [TimerPhase.expired]⟩

theorem dropped_cancel {u : TimerQueue} (sound : Sound q) (logged : a ∈ q.inserted)
    (move : TimerMove addTime q (.cancelInLoop a) u) : Dropped u a u.phase.expired := by
  cases move with
  | cancel id t active found number listed =>
    refine ⟨logged,fun there => ?_,fun alive => absurd rfl (allocated_freed alive).1⟩
    apply ((OrderedSet.mem_erase _ _ _).mp there).1
    rw [number]
  | pass id missing =>
    have frame := passedOver_frame (q := q) a
    refine ⟨by rw [frame]; exact logged,by rw [frame]; exact missing,fun _ e there _ => ?_⟩
    have calling : q.callingExpiredTimers = true := by
      rw [sound.calling]
      intro idle
      rw [frame,idle] at there
      simp [TimerPhase.expired] at there
    simp [TimerQueue.passedOver,calling]

theorem silent_move {l : TimerLabel} {u : TimerQueue} (sound : Sound q) (dropped : Dropped q a q.phase.expired)
    (silent : q.waits a = false) (move : TimerMove addTime q l u) :
    u.waits a = false ∧ u.started.count a = q.started.count a := by
  have alive := allocated_move addTime sound dropped.logged move
  have still {v : TimerQueue} (alive : v.allocated a = true → q.allocated a = true)
      (fewer : ∀ e ∈ v.phase.waiting, e ∈ q.phase.waiting) : v.waits a = false := by
    rw [← Bool.not_eq_true,waits_iff] at silent ⊢
    rintro ⟨there,e,later,same⟩
    exact silent ⟨alive there,e,fewer e later,same⟩
  cases move with
  | tick d => exact ⟨silent,rfl⟩
  | create p when interval low free =>
    exact ⟨still alive fun _ later => later,rfl⟩
  | add p t found fresh =>
    rw [added_frame]
    exact ⟨silent,rfl⟩
  | cancel id t active found number listed =>
    exact ⟨still alive fun _ later => later,rfl⟩
  | pass id missing =>
    rw [passedOver_frame]
    exact ⟨silent,rfl⟩
  | handleRead actives idle members =>
    rw [readTimerfd_frame]
    refine ⟨?_,rfl⟩
    rw [← Bool.not_eq_true,waits_iff]
    rintro ⟨alive,e,early,same⟩
    exact dropped.inactive (sound.held.active_of_listed alive ((OrderedSet.mem_below _ _ _).mp early).1 same)
  | run now done e rest t here found =>
    refine ⟨still alive fun d later => by simp [here,TimerPhase.waiting] at later ⊢; exact .inr later,?_⟩
    have other : (⟨e.timer,t.sequence⟩ : ActiveTimer) ≠ a := by
      rintro rfl
      rw [← Bool.not_eq_true,waits_iff] at silent
      exact silent ⟨allocated_of_heap found,e,by simp [here,TimerPhase.waiting],rfl⟩
    simp [other]
  | finish now done u here loop =>
    rw [rearmed_frame,resetRun_frame addTime loop]
    exact ⟨by simp [TimerQueue.waits,TimerPhase.waiting],rfl⟩

theorem waiting_started (rest : List Entry) (s : TimerQueue) (now : Int) (done : List Entry) (sound : Sound s)
    (here : s.phase = .calling now done rest) (waits : s.waits a = true) :
    ∃ ls u, Run (timerStep addTime) s ls u ∧ s.started.count a < u.started.count a := by
  induction rest generalizing s done with
  | nil => simp [waits_iff,here,TimerPhase.waiting] at waits
  | cons e rest ih =>
    have ok : timerStep addTime s .run = some (s.settle (s.run now done e rest)) := by
      simp [timerStep,sound.fine,here]
    obtain ⟨move,after⟩ := timerStep_sound addTime sound ok
    generalize s.settle (s.run now done e rest) = next at ok move after
    cases move with
    | run now' done' e' rest' t here' found =>
      cases here.symm.trans here'
      obtain ⟨alive,d,later,same⟩ := waits_iff.mp waits
      by_cases first : e.timer = a.timer
      · refine ⟨[.run],_,.single ok,?_⟩
        obtain ⟨u,there,number⟩ := allocated_iff.mp alive
        cases (first ▸ found).symm.trans there
        have named : (⟨e.timer,t.sequence⟩ : ActiveTimer) = a := by rw [first,number]
        simp [named]
      · have remains : d ∈ rest := by
          simp only [here,TimerPhase.waiting,List.mem_cons] at later
          rcases later with rfl | later
          · exact absurd same first
          · exact later
        obtain ⟨ls,u,run,more⟩ := ih _ (done++[e]) after rfl (waits_iff.mpr ⟨alive,d,remains,same⟩)
        refine ⟨.run::ls,u,.cons _ _ _ _ _ ok run,lt_of_le_of_lt ?_ more⟩
        simp

theorem waits_inactive (sound : Sound q) (waits : q.waits a = true) : ¬a ∈ q.activeTimers := by
  obtain ⟨_,e,later,same⟩ := waits_iff.mp waits
  rw [sound.held.actives]
  rintro ⟨d,listed,t,_,rfl⟩
  refine List.disjoint_of_nodup_append sound.held.pointers (List.mem_map_of_mem listed) (List.mem_map.mpr ⟨e,?_,same⟩)
  cases here : q.phase with
  | idle => simp [here,TimerPhase.waiting] at later
  | calling now done rest => simpa [here,TimerPhase.expired,TimerPhase.waiting] using Or.inr later

/-- The callback of a cancelled timer stays unstarted from then on just if the timer was
not waiting in the expired batch. -/
theorem cancelled_timer_silent (q s : TimerQueue) (id : TimerId)
    (reached : Reachable NewTimerQueue (timerStep addTime) q) (inserted : id ∈ q.inserted)
    (cancel : timerStep addTime q (.cancelInLoop id) = some s) :
    (∀ ls u, Run (timerStep addTime) s ls u → u.started.count id = s.started.count id) ↔ q.waits id = false := by
  have sound := sound_reached addTime reached
  obtain ⟨move,after⟩ := timerStep_sound addTime sound cancel
  have dropped := dropped_cancel addTime sound inserted move
  constructor
  · intro silent
    rw [← Bool.not_eq_true]
    intro waits
    cases move with
    | cancel id t active found number listed => exact waits_inactive sound waits active
    | pass id missing =>
      have same : (q.passedOver id).waits id = true ∧ (q.passedOver id).phase = q.phase := by
        rw [passedOver_frame]
        exact ⟨waits,rfl⟩
      cases here : q.phase with
      | idle => simp [waits_iff,here,TimerPhase.waiting] at waits
      | calling now done rest =>
        obtain ⟨ls,u,run,more⟩ := waiting_started addTime rest _ now done after (same.2.trans here) same.1
        exact absurd (silent ls u run) (ne_of_gt more)
  · intro unwaited ls u run
    have quiet : s.waits id = false := by
      cases move with
      | cancel id t active found number listed =>
        rw [← Bool.not_eq_true,waits_iff]
        rintro ⟨alive,_⟩
        exact (allocated_freed alive).1 rfl
      | pass id missing =>
        rw [passedOver_frame]
        exact unwaited
    have kept := run.keeps (fun _ _ => True)
      (fun v => Sound v ∧ Dropped v id v.phase.expired ∧ v.waits id = false ∧ v.started.count id = s.started.count id)
      ?_ (along_of_forall _ (fun _ => True) s ls fun _ _ => trivial) ⟨after,dropped,quiet,rfl⟩
    · exact kept.2.2.2
    · rintro v l w ⟨sound,dropped,quiet,same⟩ _ ok
      obtain ⟨move,after⟩ := timerStep_sound addTime sound ok
      obtain ⟨still,count⟩ := silent_move addTime sound dropped quiet move
      exact ⟨after,dropped_move addTime sound dropped move,still,count.trans same⟩

end

/-- Two timers are due at the same time, and the callback of the first has been started. -/
private def sameBatch : List TimerLabel :=
  [.create 1 50 (1/1000),.addTimerInLoop 1,.create 2 50 0,.addTimerInLoop 2,.tick 200,.handleRead,.run]

private theorem sameBatch_reached :
    Reachable NewTimerQueue (timerStep wholeMicroseconds)
      (final (timerStep wholeMicroseconds) (newTimerQueue 10) sameBatch) :=
  ⟨_,_,⟨10,rfl⟩,final_run (timerStep wholeMicroseconds) (newTimerQueue 10) sameBatch (by decide +kernel)⟩

theorem cancelled_timer_silent_itself :
    (⟨1,1⟩ : TimerId) ∈ (final (timerStep wholeMicroseconds) (newTimerQueue 10) sameBatch).inserted ∧
    ∀ ls u, Run (timerStep wholeMicroseconds) (final (timerStep wholeMicroseconds) (newTimerQueue 10)
      (sameBatch++[.cancelInLoop ⟨1,1⟩])) ls u → u.started.count ⟨1,1⟩ =
        (final (timerStep wholeMicroseconds) (newTimerQueue 10) (sameBatch++[.cancelInLoop ⟨1,1⟩])).started.count ⟨1,1⟩ :=
  ⟨by decide +kernel,(cancelled_timer_silent wholeMicroseconds _ _ ⟨1,1⟩ sameBatch_reached (by decide +kernel)
    (final_step (timerStep wholeMicroseconds) (newTimerQueue 10) sameBatch _ (by decide +kernel))).mpr (by decide +kernel)⟩

private def cancelledSecond : List TimerLabel := sameBatch ++ [.cancelInLoop ⟨2,2⟩]

/-- The callback of the first timer cancels the second one, whose callback is started next. -/
theorem cancelled_timer_started :
    ∃ (q s u : TimerQueue), Reachable NewTimerQueue (timerStep wholeMicroseconds) q ∧
      (⟨2,2⟩ : TimerId) ∈ q.inserted ∧ timerStep wholeMicroseconds q (.cancelInLoop ⟨2,2⟩) = some s ∧
      Run (timerStep wholeMicroseconds) s [.run] u ∧ s.started = [⟨1,1⟩] ∧ u.started = [⟨1,1⟩,⟨2,2⟩] := by
  have cancel := final_step (timerStep wholeMicroseconds) (newTimerQueue 10) sameBatch (.cancelInLoop ⟨2,2⟩)
    (by decide +kernel)
  have next := final_append (timerStep wholeMicroseconds) (newTimerQueue 10) cancelledSecond [.run] (by decide +kernel)
  refine ⟨_,_,_,sameBatch_reached,?_,cancel,next,?_,?_⟩
  · decide +kernel
  · decide +kernel
  · decide +kernel

end Reactor.Net
