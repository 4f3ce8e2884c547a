import Reactor.Net.TimerOwnership

/-! What the operations of the queue do when nothing is wrong with it: none of their
assertions fails, no deleted timer is followed, and the result can be written down. -/
namespace Reactor.Net
open Reactor.Transition

variable {q : TimerQueue} {hand : List Entry}

def TimerQueue.added (q : TimerQueue) (p : Nat) (t : Timer) : TimerQueue :=
  if q.earliestChanged t.expiration then ((q.noted p t).link p t).resetTimerfd t.expiration
  else (q.noted p t).link p t

theorem addTimerInLoop_ok (held : Held q hand) {p : Nat} {t : Timer} (found : q.heap p = some t)
    (fresh : (⟨p,t.sequence⟩ : ActiveTimer) ∉ q.inserted) :
    q.addTimerInLoop p = .ok (q.added p t) ∧ Held (q.added p t) hand := by
  have noted := held_noted (e := ⟨t.expiration,p⟩) held found fresh
  obtain ⟨inserted,linked⟩ := held_insert (t := t) noted found
  have inserted : (q.noted p t).insert p = .ok ((q.noted p t).link p t,q.earliestChanged t.expiration) := inserted
  have there : ((q.noted p t).link p t).deref p = .ok t := deref_ok found
  constructor
  · rw [TimerQueue.addTimerInLoop,deref_ok found,ok_bind]
    change ((q.noted p t).insert p >>= fun _ => _) = _
    rw [inserted,ok_bind]
    cases earlier : q.earliestChanged t.expiration
    · simp [TimerQueue.added,earlier,pure,Except.pure]
    · simp [TimerQueue.added,earlier,there,pure,Except.pure]
  · unfold TimerQueue.added
    split
    · exact held_frame linked rfl rfl rfl rfl
    · exact linked

theorem numbered_added (numbered : Numbered q) {p : Nat} {t : Timer} (found : q.heap p = some t) :
    Numbered (q.added p t) := by
  have noted := numbered_noted (e := ⟨t.expiration,p⟩) numbered found
  unfold TimerQueue.added
  split
  · exact numbered_frame noted rfl rfl rfl rfl
  · exact numbered_frame noted rfl rfl rfl rfl

def TimerQueue.cancelled (q : TimerQueue) (p : Nat) (t : Timer) : TimerQueue := (q.unlink p t).freed p t

theorem cancelInLoop_active (held : Held q hand) {id : TimerId} (active : id ∈ q.activeTimers) :
    ∃ t, q.heap id.timer = some t ∧ t.sequence = id.sequence ∧ (⟨t.expiration,id.timer⟩ : Entry) ∈ q.timers ∧
      q.cancelInLoop id = .ok (q.cancelled id.timer t) ∧ Held (q.cancelled id.timer t) hand := by
  obtain ⟨t,found,number,listed⟩ := held.active_found active
  have unlinked := held_unlink (e := ⟨t.expiration,id.timer⟩) held found rfl listed
  have after : Held (q.cancelled id.timer t) hand := held_delete (t := t) unlinked
  refine ⟨t,found,number,listed,?_,after⟩
  have same : id = ⟨id.timer,t.sequence⟩ := by rw [number]
  have deleted : ({q with timers := q.timers.erase ⟨t.expiration,id.timer⟩} : TimerQueue).delete id.timer =
      .ok (({q with timers := q.timers.erase ⟨t.expiration,id.timer⟩} : TimerQueue).freed id.timer t) :=
    delete_ok (e := ⟨t.expiration,id.timer⟩) found
  have sizes : (q.cancelled id.timer t).sameSizes = true := by simpa [TimerQueue.sameSizes] using after.sizes
  have result : {({q with timers := q.timers.erase ⟨t.expiration,id.timer⟩} : TimerQueue).freed id.timer t with
      activeTimers := q.activeTimers.erase id} = q.cancelled id.timer t := by
    rw [TimerQueue.cancelled,TimerQueue.unlink,← same]
    rfl
  have before : q.sameSizes = true := by simpa [TimerQueue.sameSizes] using held.sizes
  simp only [TimerQueue.cancelInLoop,check_true before,ok_bind,active,if_true,deref_ok found,
    check_true (decide_eq_true listed),deleted]
  change (check (TimerQueue.sameSizes {({q with timers := _} : TimerQueue).freed id.timer t with
      activeTimers := q.activeTimers.erase id}) >>= fun _ => _) = _
  rw [result,check_true sizes]
  exact congrArg Except.ok result

def TimerQueue.passedOver (q : TimerQueue) (id : TimerId) : TimerQueue :=
  if q.callingExpiredTimers then {q with cancelingTimers := q.cancelingTimers.insert id} else q

theorem cancelInLoop_missing (held : Held q hand) {id : TimerId} (missing : ¬id ∈ q.activeTimers) :
    q.cancelInLoop id = .ok (q.passedOver id) ∧ Held (q.passedOver id) hand := by
  have after : Held (q.passedOver id) hand := by
    unfold TimerQueue.passedOver
    split
    · exact held_frame held rfl rfl rfl rfl
    · exact held
  refine ⟨?_,after⟩
  have sizes : (q.passedOver id).sameSizes = true := by simpa [TimerQueue.sameSizes] using after.sizes
  have before : q.sameSizes = true := by simpa [TimerQueue.sameSizes] using held.sizes
  simp only [TimerQueue.cancelInLoop,check_true before,ok_bind,missing,if_false]
  change (check (q.passedOver id).sameSizes >>= fun _ => _) = _
  rw [check_true sizes]
  rfl

/-- The loop of `getExpired` that takes the expired timers out of `activeTimers_`. -/
theorem eraseActive_ok (expired : List Entry) (q : TimerQueue) (distinct : (expired.map Entry.timer).Nodup)
    (present : ∀ e ∈ expired, ∃ t, q.heap e.timer = some t ∧ (⟨e.timer,t.sequence⟩ : ActiveTimer) ∈ q.activeTimers) :
    ∃ actives : OrderedSet ActiveTimer, q.eraseActive expired = .ok {q with activeTimers := actives} ∧
      actives.size + expired.length = q.activeTimers.size ∧
      ∀ a, a ∈ actives ↔ a ∈ q.activeTimers ∧ ∀ e ∈ expired, ∀ t, q.heap e.timer = some t → a ≠ ⟨e.timer,t.sequence⟩ := by
  induction expired generalizing q with
  | nil => exact ⟨q.activeTimers,rfl,rfl,by simp⟩
  | cons e rest ih =>
    obtain ⟨absent,distinct⟩ := List.nodup_cons.mp distinct
    obtain ⟨t,found,active⟩ := present e (by simp)
    obtain ⟨actives,erased,sizes,members⟩ := ih {q with activeTimers := q.activeTimers.erase ⟨e.timer,t.sequence⟩}
      distinct fun d later => by
        obtain ⟨u,there,listed⟩ := present d (by simp [later])
        refine ⟨u,there,(OrderedSet.mem_erase _ _ _).mpr ⟨fun same => absent ?_,listed⟩⟩
        exact List.mem_map.mpr ⟨d,later,congrArg ActiveTimer.timer same⟩
    refine ⟨actives,?_,?_,fun a => ?_⟩
    · simp only [TimerQueue.eraseActive,deref_ok found,ok_bind,check_true (decide_eq_true active)]
      exact erased
    · have one := OrderedSet.size_erase q.activeTimers _ active
      simp only [List.length_cons]
      simp only at sizes
      omega
    · rw [members a,OrderedSet.mem_erase]
      simp only [List.mem_cons,forall_eq_or_imp]
      constructor
      · rintro ⟨⟨other,old⟩,later⟩
        refine ⟨old,fun u there => ?_,later⟩
        rw [found] at there
        cases there
        exact other
      · rintro ⟨old,first,later⟩
        exact ⟨⟨first t found,old⟩,later⟩

theorem later_of_bound {e : Entry} {now : Int} (low : e.timer < uintptrMax) (bound : sentry now ≤ e) :
    now < e.expiration := by
  rcases (Entry.le_def _ _).mp bound with later | ⟨same,high⟩
  · exact later
  · exact absurd high (Nat.not_le_of_lt low)

def TimerQueue.collected (q : TimerQueue) (now : Int) (actives : OrderedSet ActiveTimer) : TimerQueue :=
  {q with timers := q.timers.fromBound (sentry now), activeTimers := actives}

theorem held_collected (held : Held q []) (now : Int) (actives : OrderedSet ActiveTimer)
    (sizes : actives.size + (q.timers.below (sentry now)).length = q.activeTimers.size)
    (members : ∀ a, a ∈ actives ↔ a ∈ q.activeTimers ∧
      ∀ e ∈ q.timers.below (sentry now), ∀ t, q.heap e.timer = some t → a ≠ ⟨e.timer,t.sequence⟩) :
    Held (q.collected now actives) (q.timers.below (sentry now)) := by
  have moved : ((q.collected now actives).pointers (q.timers.below (sentry now))).Perm (q.pointers []) := by
    have split := congrArg (List.map Entry.timer) (q.timers.below_append (sentry now))
    rw [List.map_append] at split
    simp only [TimerQueue.pointers,TimerQueue.collected,List.map_nil,List.append_nil,← split]
    exact List.perm_append_comm
  obtain ⟨pointers,live⟩ := held_perm held moved rfl rfl
  refine ⟨?_,fun a => ?_,fun e late => held.keyed e ((OrderedSet.mem_fromBound _ _ _).mp late).1,pointers,live⟩
  · have split := congrArg List.length (q.timers.below_append (sentry now))
    rw [List.length_append] at split
    have before := held.sizes
    simp only [TimerQueue.collected,OrderedSet.size] at *
    omega
  · rw [show a ∈ (q.collected now actives).activeTimers ↔ a ∈ actives from Iff.rfl,members a,held.actives]
    constructor
    · rintro ⟨⟨d,listed,u,there,rfl⟩,kept⟩
      refine ⟨d,(OrderedSet.mem_fromBound _ _ _).mpr ⟨listed,?_⟩,u,there,rfl⟩
      by_contra early
      exact kept d ((OrderedSet.mem_below _ _ _).mpr ⟨listed,lt_of_not_ge early⟩) u there rfl
    · rintro ⟨d,late,u,there,rfl⟩
      obtain ⟨listed,bound⟩ := (OrderedSet.mem_fromBound _ _ _).mp late
      refine ⟨⟨d,listed,u,there,rfl⟩,fun e early t _ same => ?_⟩
      obtain ⟨inside,less⟩ := (OrderedSet.mem_below _ _ _).mp early
      -- the same pointer would be on both sides of the sentry
      cases held.entry_unique listed inside (congrArg ActiveTimer.timer same)
      exact absurd less (not_lt_of_ge bound)

theorem getExpired_ok (held : Held q []) (numbered : Numbered q) (now : Int) :
    ∃ actives, q.getExpired now = .ok (q.collected now actives,q.timers.below (sentry now)) ∧
      Held (q.collected now actives) (q.timers.below (sentry now)) ∧
      ∀ a, a ∈ actives ↔ a ∈ q.activeTimers ∧
        ∀ e ∈ q.timers.below (sentry now), ∀ t, q.heap e.timer = some t → a ≠ ⟨e.timer,t.sequence⟩ := by
  have distinct : ((q.timers.below (sentry now)).map Entry.timer).Nodup := by
    have all : (q.timers.toList.map Entry.timer).Nodup := (List.nodup_append.mp held.pointers).1
    exact all.sublist ((List.takeWhile_sublist _).map Entry.timer)
  obtain ⟨actives,erased,sizes,members⟩ := eraseActive_ok (q.timers.below (sentry now))
    {q with timers := q.timers.fromBound (sentry now)} distinct fun e early => by
      have listed := ((OrderedSet.mem_below _ _ _).mp early).1
      obtain ⟨t,found,_⟩ := held.keyed e listed
      exact ⟨t,found,(held.actives _).mpr ⟨e,listed,t,found,rfl⟩⟩
  have after := held_collected held now actives sizes members
  refine ⟨actives,?_,after,members⟩
  have future : ((q.timers.fromBound (sentry now)).first.all fun e => now < e.expiration) = true := by
    rw [Option.all_eq_true]
    intro e first
    obtain ⟨late,_⟩ := OrderedSet.first_some _ e first
    obtain ⟨listed,bound⟩ := (OrderedSet.mem_fromBound _ _ _).mp late
    obtain ⟨t,found,_⟩ := held.keyed e listed
    exact decide_eq_true (later_of_bound (numbered.bounds e.timer t found).1 bound)
  have sameSizes : (q.collected now actives).sameSizes = true := by simpa [TimerQueue.sameSizes] using after.sizes
  have before : q.sameSizes = true := by simpa [TimerQueue.sameSizes] using held.sizes
  simp only [TimerQueue.getExpired,check_true before,check_true future,ok_bind,erased]
  change (check (q.collected now actives).sameSizes >>= fun _ => _) = _
  rw [check_true sameSizes]
  rfl

section
variable (addTime : Int → ℚ → Int)

/-- The queue with the timer at `p` set to its next expiration and put back. -/
def TimerQueue.restarted (q : TimerQueue) (now : Int) (p : Nat) (t : Timer) : TimerQueue :=
  (q.store p (t.restart addTime now)).link p (t.restart addTime now)

/-- The loop of `reset`: each timer in hand is put back or deleted. -/
inductive ResetRun (now : Int) : TimerQueue → List Entry → TimerQueue → Prop
  | nil (q : TimerQueue) : ResetRun now q [] q
  | again (q u : TimerQueue) (e : Entry) (rest : List Entry) (t : Timer) (found : q.heap e.timer = some t)
      (repeats : t.repeats = true) (kept : ¬(⟨e.timer,t.sequence⟩ : ActiveTimer) ∈ q.cancelingTimers)
      (tail : ResetRun now (q.restarted addTime now e.timer t) rest u) : ResetRun now q (e::rest) u
  | drop (q u : TimerQueue) (e : Entry) (rest : List Entry) (t : Timer) (found : q.heap e.timer = some t)
      (finished : t.repeats = true → (⟨e.timer,t.sequence⟩ : ActiveTimer) ∈ q.cancelingTimers)
      (tail : ResetRun now (q.freed e.timer t) rest u) : ResetRun now q (e::rest) u

theorem resetLoop_ok (now : Int) (expired : List Entry) (q : TimerQueue) (held : Held q expired)
    (numbered : Numbered q) :
    ∃ u, q.resetLoop addTime now expired = .ok u ∧ ResetRun addTime now q expired u ∧ Held u [] ∧ Numbered u := by
  induction expired generalizing q with
  | nil => exact ⟨q,rfl,.nil q,held,numbered⟩
  | cons e rest ih =>
    obtain ⟨t,found,_⟩ := held.inHand
    by_cases again : t.repeats = true ∧ ¬(⟨e.timer,t.sequence⟩ : ActiveTimer) ∈ q.cancelingTimers
    · have stored := held_store held found (t.restart addTime now) rfl
      have there : (q.store e.timer (t.restart addTime now)).heap e.timer = some (t.restart addTime now) :=
        (heap_store _ _ _ _).mpr (.inl ⟨rfl,rfl⟩)
      obtain ⟨inserted,linked⟩ := held_insert stored there
      have renumbered : Numbered (q.restarted addTime now e.timer t) :=
        numbered_frame (numbered_store numbered found (t.restart addTime now) rfl) rfl rfl rfl rfl
      obtain ⟨u,done,run,after⟩ := ih (q.restarted addTime now e.timer t) linked renumbered
      refine ⟨u,?_,.again q u e rest t found again.1 again.2 run,after⟩
      simp only [TimerQueue.resetLoop,deref_ok found,ok_bind,again,not_false_eq_true,and_self,if_true,inserted]
      exact done
    · obtain ⟨u,done,run,after⟩ := ih (q.freed e.timer t) (held_delete held) (numbered_delete numbered found)
      refine ⟨u,?_,.drop q u e rest t found (fun repeats => by simpa [repeats] using again) run,after⟩
      simp only [TimerQueue.resetLoop,deref_ok found,ok_bind,again,if_false,delete_ok found]
      exact done

theorem resetRun_frame {now : Int} {q u : TimerQueue} {expired : List Entry}
    (run : ResetRun addTime now q expired u) :
    u = {q with heap := u.heap, timers := u.timers, activeTimers := u.activeTimers, deleted := u.deleted} := by
  induction run with
  | nil q => rfl
  | again q u e rest t found repeats kept tail ih => exact ih
  | drop q u e rest t found finished tail ih => exact ih

theorem heap_reset {now : Int} {q u : TimerQueue} {expired : List Entry} (run : ResetRun addTime now q expired u)
    (p : Nat) (other : ∀ e ∈ expired, e.timer ≠ p) : u.heap p = q.heap p := by
  induction run with
  | nil q => rfl
  | again q u e rest t found repeats kept tail ih =>
    rw [ih fun d later => other d (by simp [later])]
    exact Function.update_of_ne (Ne.symm (other e (by simp))) _ _
  | drop q u e rest t found finished tail ih =>
    rw [ih fun d later => other d (by simp [later])]
    exact Function.update_of_ne (Ne.symm (other e (by simp))) _ _

/-- The end of `reset`: the timerfd is set to the first entry, if that is a valid time. -/
def TimerQueue.rearmed (q : TimerQueue) : TimerQueue :=
  match q.timers.first with
  | none => q
  | some e => if Timestamp.valid e.expiration then q.resetTimerfd e.expiration else q

theorem reset_ok (now : Int) (expired : List Entry) (held : Held q expired) (numbered : Numbered q) :
    ∃ u, q.reset addTime expired now = .ok u.rearmed ∧ ResetRun addTime now q expired u ∧ Held u [] ∧ Numbered u := by
  obtain ⟨u,done,run,after,renumbered⟩ := resetLoop_ok addTime now expired q held numbered
  refine ⟨u,?_,run,after,renumbered⟩
  simp only [TimerQueue.reset,done,ok_bind,TimerQueue.rearmed]
  cases first : u.timers.first with
  | none => rfl
  | some e =>
    obtain ⟨t,found,same⟩ := after.keyed e (OrderedSet.first_some _ e first).1
    simp only [deref_ok found,ok_bind,same]
    rfl

inductive TimerMove (q : TimerQueue) : TimerLabel → TimerQueue → Prop
  | tick (d : Nat) : TimerMove q (.tick d) {q with clock := q.clock+d}
  | create (p : Nat) (when : Int) (interval : ℚ) (low : p < uintptrMax) (free : q.heap p = none) :
      TimerMove q (.create p when interval) (q.create p when interval)
  | add (p : Nat) (t : Timer) (found : q.heap p = some t) (fresh : (⟨p,t.sequence⟩ : ActiveTimer) ∉ q.inserted) :
      TimerMove q (.addTimerInLoop p) (q.added p t)
  | cancel (id : TimerId) (t : Timer) (active : id ∈ q.activeTimers) (found : q.heap id.timer = some t)
      (number : t.sequence = id.sequence) (listed : (⟨t.expiration,id.timer⟩ : Entry) ∈ q.timers) :
      TimerMove q (.cancelInLoop id) (q.cancelled id.timer t)
  | pass (id : TimerId) (missing : ¬id ∈ q.activeTimers) : TimerMove q (.cancelInLoop id) (q.passedOver id)
  | handleRead (actives : OrderedSet ActiveTimer) (idle : q.phase = .idle)
      (members : ∀ a, a ∈ actives ↔ a ∈ q.activeTimers ∧
        ∀ e ∈ q.timers.below (sentry q.clock), ∀ t, q.heap e.timer = some t → a ≠ ⟨e.timer,t.sequence⟩) :
      TimerMove q .handleRead {q.readTimerfd.collected q.clock actives with
        callingExpiredTimers := true, cancelingTimers := .empty
        phase := .calling q.clock [] (q.timers.below (sentry q.clock))}
  | run (now : Int) (done : List Entry) (e : Entry) (rest : List Entry) (t : Timer)
      (here : q.phase = .calling now done (e::rest)) (found : q.heap e.timer = some t) :
      TimerMove q .run {q with
        phase := .calling now (done++[e]) rest, started := q.started ++ [⟨e.timer,t.sequence⟩]}
  | finish (now : Int) (done : List Entry) (u : TimerQueue) (here : q.phase = .calling now done [])
      (loop : ResetRun addTime now {q with callingExpiredTimers := false} done u) :
      TimerMove q .finish {u.rearmed with phase := .idle}

/-- A queue in order: the expired batch is what the loop thread has in hand. -/
structure Sound (q : TimerQueue) : Prop where
  fine : q.failed = none
  numbered : Numbered q
  held : Held q q.phase.expired
  calling : q.callingExpiredTimers = true ↔ q.phase ≠ .idle

theorem added_frame (p : Nat) (t : Timer) :
    q.added p t = {(q.noted p t).link p t with timerfd := (q.added p t).timerfd, settings := (q.added p t).settings} := by
  unfold TimerQueue.added
  split
  · rfl
  · rfl

theorem passedOver_frame (id : TimerId) :
    q.passedOver id = {q with cancelingTimers := (q.passedOver id).cancelingTimers} := by
  unfold TimerQueue.passedOver
  split
  · rfl
  · rfl

theorem readTimerfd_frame : q.readTimerfd = {q with timerfd := q.readTimerfd.timerfd} := by
  unfold TimerQueue.readTimerfd
  split
  · split
    · rfl
    · rfl
  · rfl

theorem rearmed_frame : q.rearmed = {q with timerfd := q.rearmed.timerfd, settings := q.rearmed.settings} := by
  unfold TimerQueue.rearmed
  split
  · rfl
  · split
    · rfl
    · rfl

theorem add_step (sound : Sound q) {p : Nat} {t : Timer} (found : q.heap p = some t)
    (fresh : (⟨p,t.sequence⟩ : ActiveTimer) ∉ q.inserted) :
    q.settle (q.addTimerInLoop p) = q.added p t ∧ Sound (q.added p t) := by
  obtain ⟨done,held⟩ := addTimerInLoop_ok sound.held found fresh
  refine ⟨by rw [done]; rfl,?_⟩
  have numbered := numbered_added sound.numbered found
  rw [added_frame] at held numbered ⊢
  exact ⟨sound.fine,numbered,held,sound.calling⟩

theorem cancel_step (sound : Sound q) (id : TimerId) :
    TimerMove addTime q (.cancelInLoop id) (q.settle (q.cancelInLoop id)) ∧ Sound (q.settle (q.cancelInLoop id)) := by
  by_cases active : id ∈ q.activeTimers
  · obtain ⟨t,found,number,listed,done,held⟩ := cancelInLoop_active sound.held active
    have numbered : Numbered (q.cancelled id.timer t) :=
      numbered_delete (e := ⟨t.expiration,id.timer⟩) (numbered_frame sound.numbered rfl rfl rfl rfl) found
    rw [done]
    exact ⟨.cancel id t active found number listed,sound.fine,numbered,held,sound.calling⟩
  · obtain ⟨done,held⟩ := cancelInLoop_missing sound.held active
    rw [done]
    refine ⟨.pass id active,?_⟩
    change Sound (q.passedOver id)
    rw [passedOver_frame] at held ⊢
    exact ⟨sound.fine,numbered_frame sound.numbered rfl rfl rfl rfl,held,sound.calling⟩

theorem handleRead_step (sound : Sound q) (idle : q.phase = .idle) :
    TimerMove addTime q .handleRead (q.settle q.handleRead) ∧ Sound (q.settle q.handleRead) := by
  have held : Held q.readTimerfd [] := by
    have before := sound.held
    rw [idle] at before
    rw [readTimerfd_frame]
    exact held_frame before rfl rfl rfl rfl
  have numbered : Numbered q.readTimerfd := by
    rw [readTimerfd_frame]
    exact numbered_frame sound.numbered rfl rfl rfl rfl
  obtain ⟨actives,done,after,members⟩ := getExpired_ok held numbered q.clock
  have same : q.readTimerfd.timers = q.timers ∧ q.readTimerfd.heap = q.heap ∧
      q.readTimerfd.activeTimers = q.activeTimers := by
    rw [readTimerfd_frame]
    exact ⟨rfl,rfl,rfl⟩
  rw [same.1] at done after members
  rw [same.2.1,same.2.2] at members
  have result : q.settle q.handleRead = {q.readTimerfd.collected q.clock actives with
      callingExpiredTimers := true, cancelingTimers := .empty
      phase := .calling q.clock [] (q.timers.below (sentry q.clock))} := by
    rw [TimerQueue.handleRead,done]
    rfl
  rw [result]
  refine ⟨.handleRead actives idle members,?_,?_,?_,by simp⟩
  · rw [readTimerfd_frame]
    exact sound.fine
  · exact numbered_frame numbered rfl rfl rfl rfl
  · exact held_frame after rfl rfl rfl rfl

theorem finish_step (sound : Sound q) {now : Int} {done : List Entry} (here : q.phase = .calling now done []) :
    TimerMove addTime q .finish (q.settle (q.finish addTime now done)) ∧
      Sound (q.settle (q.finish addTime now done)) := by
  have held : Held {q with callingExpiredTimers := false} done := by
    have before : Held q done := by simpa [here,TimerPhase.expired] using sound.held
    exact held_frame before rfl rfl rfl rfl
  obtain ⟨u,completed,run,after,numbered⟩ := reset_ok addTime now done held
    (numbered_frame sound.numbered rfl rfl rfl rfl)
  have result : q.settle (q.finish addTime now done) = {u.rearmed with phase := .idle} := by
    rw [TimerQueue.finish,completed]
    rfl
  rw [result]
  refine ⟨.finish now done u here run,?_⟩
  have frame := resetRun_frame addTime run
  rw [rearmed_frame]
  refine ⟨?_,numbered_frame numbered rfl rfl rfl rfl,held_frame after rfl rfl rfl rfl,?_⟩
  · rw [frame]
    exact sound.fine
  · rw [frame]
    simp

theorem timerStep_sound {l : TimerLabel} {u : TimerQueue} (sound : Sound q) (ok : timerStep addTime q l = some u) :
    TimerMove addTime q l u ∧ Sound u := by
  unfold timerStep at ok
  rw [if_neg (by simp [sound.fine])] at ok
  cases l with
  | tick d =>
    cases ok
    exact ⟨.tick d,sound.fine,numbered_frame sound.numbered rfl rfl rfl rfl,held_frame sound.held rfl rfl rfl rfl,
      sound.calling⟩
  | create p when interval =>
    obtain ⟨⟨_,low,free⟩,⟨⟩⟩ := Option.ite_none_right_eq_some.mp ok
    exact ⟨.create p when interval low free,sound.fine,numbered_create sound.numbered p when interval low free,
      held_create sound.held sound.numbered p when interval free,sound.calling⟩
  | addTimerInLoop p =>
    obtain ⟨⟨_,waiting⟩,⟨⟩⟩ := Option.ite_none_right_eq_some.mp ok
    cases found : q.heap p with
    | none => simp [TimerQueue.handedOver,found] at waiting
    | some t =>
      have fresh : (⟨p,t.sequence⟩ : ActiveTimer) ∉ q.inserted := by
        simpa [TimerQueue.handedOver,found] using waiting
      obtain ⟨done,after⟩ := add_step sound found fresh
      rw [done]
      exact ⟨.add p t found fresh,after⟩
  | cancelInLoop id =>
    obtain ⟨_,⟨⟩⟩ := Option.ite_none_right_eq_some.mp ok
    exact cancel_step addTime sound id
  | handleRead =>
    obtain ⟨idle,⟨⟩⟩ := Option.ite_none_right_eq_some.mp ok
    exact handleRead_step addTime sound idle
  | run =>
    simp only at ok
    split at ok
    · rename_i now done e rest here
      cases ok
      obtain ⟨t,found,_⟩ := (sound.held.live e.timer).mp (by simp [TimerQueue.pointers,here,TimerPhase.expired])
      have result : q.settle (q.run now done e rest) = {q with
          phase := .calling now (done++[e]) rest, started := q.started ++ [⟨e.timer,t.sequence⟩]} := by
        rw [TimerQueue.run,deref_ok found]
        rfl
      rw [result]
      refine ⟨.run now done e rest t here found,sound.fine,numbered_frame sound.numbered rfl rfl rfl rfl,?_,?_⟩
      · have held : Held q (done++[e]++rest) := by simpa [here,TimerPhase.expired] using sound.held
        exact held_frame held rfl rfl rfl rfl
      · have calling := sound.calling
        rw [here] at calling
        simpa using calling
    · cases ok
  | finish =>
    simp only at ok
    split at ok
    · rename_i now done here
      cases ok
      exact finish_step addTime sound here
    · cases ok

theorem newTimerQueue_sound (clock : Int) : Sound (newTimerQueue clock) := by
  refine ⟨rfl,⟨?_,?_,?_,?_,?_⟩,⟨rfl,?_,?_,?_,?_⟩,?_⟩
  all_goals simp [newTimerQueue,TimerQueue.pointers,TimerPhase.expired,OrderedSet.empty,← OrderedSet.mem_toList]

def NewTimerQueue (q : TimerQueue) : Prop := ∃ clock, q = newTimerQueue clock

theorem sound_reached (reached : Reachable NewTimerQueue (timerStep addTime) q) : Sound q := by
  refine reached.invariant Sound ?_ fun q l u sound ok => (timerStep_sound addTime sound ok).2
  rintro q ⟨clock,rfl⟩
  exact newTimerQueue_sound clock

/-- The representation of the queue. No assertion fails and no deleted timer is followed;
the two sets agree; with the expired batch they hold the inserted timers that are not
deleted, each once; and no timer is deleted twice. -/
theorem timer_queue_represented (q : TimerQueue) (reached : Reachable NewTimerQueue (timerStep addTime) q) :
    q.failed = none ∧
    (∀ a, a ∈ q.activeTimers ↔ ∃ e ∈ q.timers, ∃ t, q.heap e.timer = some t ∧ a = ⟨e.timer,t.sequence⟩) ∧
    (∀ e ∈ q.timers, ∃ t, q.heap e.timer = some t ∧ e.expiration = t.expiration) ∧
    (q.pointers q.phase.expired).Nodup ∧
    (∀ p, p ∈ q.pointers q.phase.expired ↔
      ∃ n, (⟨p,n⟩ : ActiveTimer) ∈ q.inserted ∧ (⟨p,n⟩ : ActiveTimer) ∉ q.deleted) ∧
    (q.deleted.map ActiveTimer.sequence).Nodup := by
  have sound := sound_reached addTime reached
  have keyed (e : Entry) (listed : e ∈ q.timers) : ∃ t, q.heap e.timer = some t ∧ e.expiration = t.expiration := by
    obtain ⟨t,found,same⟩ := sound.held.keyed e listed
    exact ⟨t,found,same.symm⟩
  refine ⟨sound.fine,sound.held.actives,keyed,sound.held.pointers,fun p => ?_,sound.numbered.once⟩
  rw [sound.held.live]
  constructor
  · rintro ⟨t,found,logged⟩
    exact ⟨t.sequence,logged,fun dead => (sound.numbered.gone _ dead).2 p t found rfl⟩
  · rintro ⟨n,logged,remains⟩
    obtain ⟨t,found,rfl⟩ := (sound.numbered.logged _ logged).2 remains
    exact ⟨t,found,logged⟩

end

/-- Intervals of whole microseconds are added as they are. -/
def wholeMicroseconds (now : Int) (interval : ℚ) : Int := now + (interval*1000000).floor

/-- The callback of a one-shot timer adds a repeating one and cancels itself, no timer and
a timer already gone; the address of the first timer is then used again. -/
private def readded : List TimerLabel :=
  [.create 1 50 0,.addTimerInLoop 1,.tick 200,.handleRead,.run,.create 2 300 (1/1000),.addTimerInLoop 2,.cancelInLoop ⟨1,1⟩,
    .cancelInLoop ⟨0,0⟩,.finish,.create 1 250 0,.addTimerInLoop 1,.cancelInLoop ⟨1,1⟩,.tick 200,.handleRead]

theorem timer_queue_represented_readded :
    (final (timerStep wholeMicroseconds) (newTimerQueue 10) readded).phase = .calling 410 [] [⟨250,1⟩,⟨300,2⟩] ∧
    (final (timerStep wholeMicroseconds) (newTimerQueue 10) readded).deleted = [⟨1,1⟩] ∧
    (final (timerStep wholeMicroseconds) (newTimerQueue 10) readded).failed = none :=
  ⟨by decide +kernel,by decide +kernel,(timer_queue_represented wholeMicroseconds _ ⟨_,readded,⟨10,rfl⟩,
    final_run (timerStep wholeMicroseconds) (newTimerQueue 10) readded (by decide +kernel)⟩).1⟩

end Reactor.Net
