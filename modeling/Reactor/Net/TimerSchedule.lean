import Reactor.Net.TimerBatch

/-! When timers fire, and who frees them. The plan is what the user asked for: it knows
nothing of sets, batches and addresses, only when each timer is due. The queue starts a
callback only when the plan says so, and its destructor frees the timers that are left. -/
namespace Reactor.Net
open Reactor.Transition

/-- A timer that has fired for the last time is not due any more. -/
structure Schedule where
  interval : ℚ
  due : Option Int
  deriving DecidableEq, Repr

abbrev Plan := Int → Option Schedule

def Schedule.fired (addTime : Int → ℚ → Int) (now : Int) (s : Schedule) : Schedule :=
  {s with due := if 0 < s.interval then some (addTime now s.interval) else none}

/-- What becomes of the plan: a new timer is due when it was asked for, and a timer that
fires is due again one interval after the time of its batch. -/
def planned (addTime : Int → ℚ → Int) (q : TimerQueue) (l : TimerLabel) (plan : Plan) : Plan :=
  match l, q.phase with
  | .create _ when interval, _ => Function.update plan (q.numCreated+1) (some ⟨interval,some when⟩)
  | .run, .calling now _ (e::_) =>
    Function.update plan (q.idOf e).sequence ((plan (q.idOf e).sequence).map fun s => s.fired addTime now)
  | _, _ => plan

def planAfter (addTime : Int → ℚ → Int) (clock : Int) (ls : List TimerLabel) : Plan :=
  record (timerStep addTime) (planned addTime) (newTimerQueue clock) ls fun _ => none

def TimerPhase.now : TimerPhase → Int
  | .idle => 0
  | .calling now _ _ => now

def TimerPhase.fired : TimerPhase → List Nat
  | .idle => []
  | .calling _ done _ => done.map Entry.timer

def Timer.schedule (t : Timer) : Schedule := ⟨t.interval,some t.expiration⟩

/-- A timer whose callback was started keeps its old expiration until the end of the batch. -/
structure Scheduled (addTime : Int → ℚ → Int) (plan : Plan) (q : TimerQueue) : Prop where
  sound : Sound q
  waiting : ∀ p t, q.heap p = some t → p ∉ q.phase.fired → plan t.sequence = some t.schedule
  fired : ∀ p t, q.heap p = some t → p ∈ q.phase.fired →
    plan t.sequence = some (t.schedule.fired addTime q.phase.now)
  early : q.phase ≠ .idle → q.phase.now ≤ q.clock
  due : ∀ e ∈ q.phase.waiting, ∀ t, q.heap e.timer = some t → t.expiration ≤ q.phase.now

section
variable {addTime : Int → ℚ → Int} {plan : Plan} {q u : TimerQueue}

theorem fired_expired (phase : TimerPhase) {p : Nat} (member : p ∈ phase.fired) : p ∈ phase.expired.map Entry.timer := by
  cases phase with
  | idle => cases member
  | calling now done rest =>
    rw [TimerPhase.expired,List.map_append]
    exact List.mem_append_left _ member

theorem waiting_expired (phase : TimerPhase) {e : Entry} (member : e ∈ phase.waiting) :
    e.timer ∈ phase.expired.map Entry.timer := by
  cases phase with
  | idle => cases member
  | calling now done rest =>
    rw [TimerPhase.expired,List.map_append]
    exact List.mem_append_right _ (List.mem_map_of_mem member)

theorem Sound.expired_live (sound : Sound q) {p : Nat} (member : p ∈ q.phase.expired.map Entry.timer) :
    ∃ t, q.heap p = some t := by
  obtain ⟨t,found,_⟩ := (sound.held.live p).mp (List.mem_append_right _ member)
  exact ⟨t,found⟩

/-- The addresses of the batch are distinct, so the next callback has not been started before. -/
theorem Sound.unfired (sound : Sound q) {now : Int} {done rest : List Entry} {e : Entry}
    (here : q.phase = .calling now done (e::rest)) : e.timer ∉ done.map Entry.timer := by
  have pointers := (List.nodup_append.mp sound.held.pointers).2.1
  rw [here,TimerPhase.expired,List.map_append] at pointers
  exact fun member => List.disjoint_of_nodup_append pointers member (by simp)

namespace Scheduled

/-- The timers and the batch stay as they are. -/
theorem frame (before : Scheduled addTime plan q) (sound : Sound u) (heap : u.heap = q.heap)
    (phase : u.phase = q.phase) (clock : q.clock ≤ u.clock) : Scheduled addTime plan u where
  sound := sound
  waiting p t := by
    rw [heap,phase]
    exact before.waiting p t
  fired p t := by
    rw [heap,phase]
    exact before.fired p t
  early busy := by
    rw [phase] at busy ⊢
    exact (before.early busy).trans clock
  due e := by
    rw [phase,heap]
    exact before.due e

theorem create (before : Scheduled addTime plan q) (p : Nat) (when : Int) (interval : ℚ) (free : q.heap p = none)
    (sound : Sound (q.create p when interval)) :
    Scheduled addTime (Function.update plan (q.numCreated+1) (some ⟨interval,some when⟩)) (q.create p when interval) := by
  have fresh {r : Nat} {t : Timer} (found : q.heap r = some t) : t.sequence ≠ q.numCreated+1 := by
    have := (before.sound.numbered.bounds r t found).2
    omega
  have absent : p ∉ q.phase.expired.map Entry.timer := by
    intro member
    obtain ⟨t,found⟩ := before.sound.expired_live member
    rw [free] at found
    cases found
  have other {r : Nat} (different : r ≠ p) : (q.create p when interval).heap r = q.heap r :=
    Function.update_of_ne different _ _
  refine ⟨sound,fun r t found unfired => ?_,fun r t found member => ?_,before.early,fun e member t found => ?_⟩
  · by_cases same : r = p
    · subst same
      have new : (⟨when,interval,q.numCreated+1⟩ : Timer) = t := by
        simpa [TimerQueue.create,TimerQueue.store] using found
      subst new
      exact Function.update_self _ _ _
    · rw [other same] at found
      rw [Function.update_of_ne (fresh found)]
      exact before.waiting r t found unfired
  · have different : r ≠ p := by
      rintro rfl
      exact absent (fired_expired q.phase member)
    rw [other different] at found
    rw [Function.update_of_ne (fresh found)]
    exact before.fired r t found member
  · have different : e.timer ≠ p := fun same => absent (same ▸ waiting_expired q.phase member)
    rw [other different] at found
    exact before.due e member t found

theorem cancel (before : Scheduled addTime plan q) (id : TimerId) (t : Timer)
    (sound : Sound (q.cancelled id.timer t)) : Scheduled addTime plan (q.cancelled id.timer t) := by
  have kept {r : Nat} {v : Timer} (found : (q.cancelled id.timer t).heap r = some v) : q.heap r = some v :=
    ((heap_freed _ _ _).mp found).2
  exact ⟨sound,fun p v found => before.waiting p v (kept found),fun p v found => before.fired p v (kept found),
    before.early,fun e member v found => before.due e member v (kept found)⟩

theorem handleRead (before : Scheduled addTime plan q) (actives : OrderedSet ActiveTimer) (idle : q.phase = .idle)
    (sound : Sound {q.readTimerfd.collected q.clock actives with
      callingExpiredTimers := true, cancelingTimers := .empty
      phase := .calling q.clock [] (q.timers.below (sentry q.clock))}) :
    Scheduled addTime plan {q.readTimerfd.collected q.clock actives with
      callingExpiredTimers := true, cancelingTimers := .empty
      phase := .calling q.clock [] (q.timers.below (sentry q.clock))} := by
  rw [readTimerfd_frame] at sound ⊢
  refine ⟨sound,fun p t found _ => ?_,fun p t found member => ?_,fun _ => le_rfl,fun e member t found => ?_⟩
  · refine before.waiting p t found ?_
    rw [idle]
    exact List.not_mem_nil
  · cases member
  · obtain ⟨listed,early⟩ := (mem_batch before.sound.held before.sound.numbered e).mp member
    obtain ⟨v,there,same⟩ := before.sound.held.keyed e listed
    cases there.symm.trans found
    rw [same]
    exact early

theorem run (before : Scheduled addTime plan q) (now : Int) (done : List Entry) (e : Entry) (rest : List Entry) (t : Timer)
    (here : q.phase = .calling now done (e::rest)) (found : q.heap e.timer = some t)
    (sound : Sound {q with phase := .calling now (done++[e]) rest, started := q.started ++ [⟨e.timer,t.sequence⟩]}) :
    Scheduled addTime (Function.update plan t.sequence ((plan t.sequence).map fun s => s.fired addTime now))
      {q with phase := .calling now (done++[e]) rest, started := q.started ++ [⟨e.timer,t.sequence⟩]} := by
  have first : e.timer ∉ done.map Entry.timer := before.sound.unfired here
  obtain ⟨_,waiting,fired,early,due⟩ := before
  rw [here] at waiting fired early due
  have apart {p : Nat} {v : Timer} (there : q.heap p = some v) (other : p ≠ e.timer) : v.sequence ≠ t.sequence :=
    fun same => other (sound.numbered.distinct p e.timer v t there found same)
  have members (p : Nat) : p ∈ (done++[e]).map Entry.timer ↔ p ∈ done.map Entry.timer ∨ p = e.timer := by simp
  refine ⟨sound,fun p v there unfired => ?_,fun p v there member => ?_,fun _ => early (by simp),
    fun d member v there => due d (List.mem_cons_of_mem e member) v there⟩
  · have unfired := (members p).not.mp unfired
    rw [Function.update_of_ne (apart there fun same => unfired (.inr same))]
    exact waiting p v there fun member => unfired (.inl member)
  · rcases (members p).mp member with earlier | rfl
    · rw [Function.update_of_ne (apart there fun same => first (same ▸ earlier))]
      exact fired p v there earlier
    · cases found.symm.trans there
      rw [Function.update_self,waiting _ t found first]
      rfl

theorem finish (before : Scheduled addTime plan q) (now : Int) (done : List Entry) (v : TimerQueue)
    (here : q.phase = .calling now done []) (loop : ResetRun addTime now {q with callingExpiredTimers := false} done v)
    (sound : Sound {v.rearmed with phase := .idle}) : Scheduled addTime plan {v.rearmed with phase := .idle} := by
  obtain ⟨held,waiting,fired,_,_⟩ := before
  rw [here] at waiting fired
  have distinct : (done.map Entry.timer).Nodup := by
    have pointers := (List.nodup_append.mp held.held.pointers).2.1
    rw [here,TimerPhase.expired,List.append_nil] at pointers
    exact pointers
  have reset := resetRun_to loop distinct
  rw [rearmed_frame] at sound ⊢
  refine ⟨sound,fun p t found _ => ?_,fun p t found member => (List.not_mem_nil member).elim,
    fun busy => absurd rfl busy,fun e member => (List.not_mem_nil member).elim⟩
  by_cases inside : p ∈ done.map Entry.timer
  · obtain ⟨e,member,rfl⟩ := List.mem_map.mp inside
    obtain ⟨w,there⟩ : ∃ w, q.heap e.timer = some w := by
      apply held.expired_live
      rw [here,TimerPhase.expired,List.append_nil]
      exact inside
    by_cases restarts : ({q with callingExpiredTimers := false} : TimerQueue).restarts e w
    · have again : t = {w with expiration := addTime now w.interval} :=
        Option.some.inj (found.symm.trans (reset.again e member w there restarts))
      have positive : 0 < w.interval := of_decide_eq_true restarts.1
      have plans := fired e.timer w there inside
      rw [Schedule.fired,if_pos (show 0 < w.schedule.interval from positive)] at plans
      rw [again]
      exact plans
    · cases found.symm.trans (reset.gone e member w there restarts).1
  · have same : v.heap p = q.heap p := heap_reset addTime loop p fun e member same => inside (same ▸ List.mem_map_of_mem member)
    exact waiting p t (same ▸ found) inside

theorem step (before : Scheduled addTime plan q) {l : TimerLabel} (ok : timerStep addTime q l = some u) :
    Scheduled addTime (planned addTime q l plan) u := by
  obtain ⟨move,sound⟩ := timerStep_sound addTime before.sound ok
  cases move with
  | tick d => exact before.frame sound rfl rfl (by simp)
  | create p when interval low free => exact before.create p when interval free sound
  | add p t found fresh =>
    rw [added_frame] at sound ⊢
    exact before.frame sound rfl rfl le_rfl
  | cancel id t active found number listed => exact before.cancel id t sound
  | pass id missing =>
    rw [passedOver_frame] at sound ⊢
    exact before.frame sound rfl rfl le_rfl
  | handleRead actives idle members => exact before.handleRead actives idle sound
  | run now done e rest t here found =>
    have noted : planned addTime q .run plan =
        Function.update plan t.sequence ((plan t.sequence).map fun s => s.fired addTime now) := by
      simp [planned,here,idOf_eq found]
    rw [noted]
    exact before.run now done e rest t here found sound
  | finish now done v here loop => exact before.finish now done v here loop sound

end Scheduled

theorem plan_scheduled {clock : Int} {ls : List TimerLabel} (run : Run (timerStep addTime) (newTimerQueue clock) ls q) :
    Scheduled addTime (planAfter addTime clock ls) q := by
  refine run.recorded (planned addTime) (fun _ _ => True) (Scheduled addTime)
    (fun j s l t before _ ok => before.step ok) (along_of_forall _ (fun _ => True) _ _ fun _ _ => trivial) _ ?_
  refine ⟨newTimerQueue_sound clock,fun p t found => ?_,fun p t found => ?_,fun busy => absurd rfl busy,
    fun e member => ?_⟩
  · cases found
  · cases found
  · cases member

end

/-- A callback is started: its timer is in the plan, due no later than the time of the batch,
which has passed, and the plan is told. -/
def FiresDue (addTime : Int → ℚ → Int) (before after : Plan) (q u : TimerQueue) : Prop :=
  ∃ id now s due, u.started = q.started ++ [id] ∧ before id.sequence = some s ∧ s.due = some due ∧ due ≤ now ∧
    now ≤ q.clock ∧ after = Function.update before id.sequence (some (s.fired addTime now))

theorem timers_follow_plan (addTime : Int → ℚ → Int) (clock : Int) (ls : List TimerLabel) (q : TimerQueue)
    (run : Run (timerStep addTime) (newTimerQueue clock) ls q) :
    (q.phase = .idle → ∀ p t, q.heap p = some t →
      planAfter addTime clock ls t.sequence = some ⟨t.interval,some t.expiration⟩) ∧
    ∀ u, timerStep addTime q .run = some u →
      FiresDue addTime (planAfter addTime clock ls) (planAfter addTime clock (ls ++ [.run])) q u := by
  have scheduled := plan_scheduled run
  refine ⟨fun idle p t found => scheduled.waiting p t found ?_,fun u ok => ?_⟩
  · rw [idle]
    exact List.not_mem_nil
  · obtain ⟨move,after⟩ := timerStep_sound addTime scheduled.sound ok
    cases move with
    | run now done e rest t here found =>
      have waiting := scheduled.waiting e.timer t found
      have early := scheduled.early
      have due := scheduled.due e
      rw [here] at waiting early due
      have first : e.timer ∉ done.map Entry.timer := scheduled.sound.unfired here
      refine ⟨⟨e.timer,t.sequence⟩,now,t.schedule,t.expiration,rfl,waiting first,rfl,due List.mem_cons_self t found,
        early (by simp),?_⟩
      rw [planAfter,run.record_snoc ok,← planAfter]
      simp [planned,here,idOf_eq found,waiting first]

private def secondShot : List TimerLabel :=
  [.create 1 50 (1/1000),.addTimerInLoop 1,.tick 200,.handleRead,.run,.tick 7,.finish,.tick 2000,.handleRead]

theorem timers_follow_plan_secondShot :
    let q := final (timerStep wholeMicroseconds) (newTimerQueue 10) secondShot
    let u := final (timerStep wholeMicroseconds) (newTimerQueue 10) (secondShot ++ [.run])
    planAfter wholeMicroseconds 10 secondShot 1 = some ⟨1/1000,some 1210⟩ ∧ q.clock = 2217 ∧
    FiresDue wholeMicroseconds (planAfter wholeMicroseconds 10 secondShot)
      (planAfter wholeMicroseconds 10 (secondShot ++ [.run])) q u := by
  intro q u
  have run : Run (timerStep wholeMicroseconds) (newTimerQueue 10) secondShot q := final_run _ _ _ (by decide +kernel)
  exact ⟨by decide +kernel,by decide +kernel,
    (timers_follow_plan wholeMicroseconds 10 secondShot q run).2 u (final_step _ _ _ _ (by decide +kernel))⟩

namespace TimerQueue

def deleteAll (q : TimerQueue) : List Entry → Except Fault TimerQueue
  | [] => .ok q
  | e::rest => do
    let q ← q.delete e.timer
    q.deleteAll rest

/-- The loop of `~TimerQueue`. -/
def destruct (q : TimerQueue) : Except Fault TimerQueue := q.deleteAll q.timers.toList

end TimerQueue

/-- What a loop of deletions leaves. -/
structure DeletedAll (q : TimerQueue) (entries : List Entry) (u : TimerQueue) : Prop where
  numbered : Numbered u
  inserted : u.inserted = q.inserted
  deleted : u.deleted = q.deleted ++ entries.map q.idOf
  free : ∀ e ∈ entries, u.heap e.timer = none
  kept : ∀ p, p ∉ entries.map Entry.timer → u.heap p = q.heap p

theorem deleteAll_ok (entries : List Entry) (q : TimerQueue) (numbered : Numbered q)
    (distinct : (entries.map Entry.timer).Nodup) (live : ∀ e ∈ entries, ∃ t, q.heap e.timer = some t) :
    ∃ u, q.deleteAll entries = .ok u ∧ DeletedAll q entries u := by
  induction entries generalizing q with
  | nil => exact ⟨q,rfl,numbered,rfl,by simp,by simp,fun _ _ => rfl⟩
  | cons e rest ih =>
    obtain ⟨absent,distinct⟩ := List.nodup_cons.mp distinct
    obtain ⟨t,found⟩ := live e List.mem_cons_self
    have other {d : Entry} (later : d ∈ rest) : (q.freed e.timer t).heap d.timer = q.heap d.timer :=
      Function.update_of_ne (fun same : d.timer = e.timer => absent (same ▸ List.mem_map_of_mem later)) _ _
    obtain ⟨u,ok,after⟩ := ih (q.freed e.timer t) (numbered_delete numbered found) distinct fun d later => by
      rw [other later]
      exact live d (List.mem_cons_of_mem e later)
    refine ⟨u,?_,after.numbered,after.inserted,?_,?_,fun p outside => ?_⟩
    · rw [TimerQueue.deleteAll,delete_ok found,ok_bind]
      exact ok
    · have ids : rest.map (q.freed e.timer t).idOf = rest.map q.idOf :=
        List.map_congr_left fun d later => by rw [TimerQueue.idOf,TimerQueue.idOf,other later]
      rw [after.deleted,ids,List.map_cons,idOf_eq found,List.append_cons]
      rfl
    · refine List.forall_mem_cons.mpr ⟨?_,after.free⟩
      rw [after.kept e.timer absent]
      exact Function.update_self _ _ _
    · obtain ⟨different,outside⟩ := not_or.mp (List.mem_cons.not.mp outside)
      rw [after.kept p outside]
      exact Function.update_of_ne different _ _

/-- Timers that were handed over and never inserted are not in `timers_`: nobody deletes them. -/
theorem destruct_frees (addTime : Int → ℚ → Int) (q : TimerQueue)
    (reached : Reachable NewTimerQueue (timerStep addTime) q) (idle : q.phase = .idle) :
    ∃ u, q.destruct = .ok u ∧ (u.deleted.map ActiveTimer.sequence).Nodup ∧ (∀ a ∈ q.inserted, a ∈ u.deleted) ∧
      ∀ p t, u.heap p = some t ↔ q.heap p = some t ∧ (⟨p,t.sequence⟩ : ActiveTimer) ∉ q.inserted := by
  have sound := sound_reached addTime reached
  have held := sound.held
  rw [idle] at held
  have live (p : Nat) : p ∈ q.timers.toList.map Entry.timer ↔ ∃ t, q.heap p = some t ∧ ⟨p,t.sequence⟩ ∈ q.inserted := by
    rw [← held.live p,TimerQueue.pointers,TimerPhase.expired,List.map_nil,List.append_nil]
  have distinct : (q.timers.toList.map Entry.timer).Nodup := (List.nodup_append.mp held.pointers).1
  obtain ⟨u,ok,after⟩ := deleteAll_ok q.timers.toList q sound.numbered distinct fun e listed => by
    obtain ⟨t,found,_⟩ := (live e.timer).mp (List.mem_map_of_mem listed)
    exact ⟨t,found⟩
  refine ⟨u,ok,after.numbered.once,fun a inside => ?_,fun p t => ?_⟩
  · by_contra alive
    obtain ⟨t,found,number⟩ := (after.numbered.logged a (after.inserted ▸ inside)).2 alive
    have listed : a.timer ∈ q.timers.toList.map Entry.timer := by
      by_contra outside
      rw [after.kept _ outside] at found
      exact outside ((live a.timer).mpr ⟨t,found,by rw [number]; exact inside⟩)
    obtain ⟨e,member,same⟩ := List.mem_map.mp listed
    rw [← same,after.free e member] at found
    cases found
  · by_cases listed : p ∈ q.timers.toList.map Entry.timer
    · obtain ⟨v,found,inside⟩ := (live p).mp listed
      obtain ⟨e,member,rfl⟩ := List.mem_map.mp listed
      rw [after.free e member,found]
      constructor
      · intro none
        cases none
      · rintro ⟨same,fresh⟩
        cases same
        exact absurd inside fresh
    · rw [after.kept p listed]
      exact ⟨fun found => ⟨found,fun inside => listed ((live p).mpr ⟨t,found,inside⟩)⟩,And.left⟩

theorem destruct_frees_pending :
    let q := final (timerStep wholeMicroseconds) (newTimerQueue 10) (secondShot ++ [.run,.create 4 60 0,.finish])
    q.inserted = [⟨1,1⟩] ∧ (q.heap 4).isSome = true ∧
    ∃ u, q.destruct = .ok u ∧ (u.deleted.map ActiveTimer.sequence).Nodup ∧ (∀ a ∈ q.inserted, a ∈ u.deleted) ∧
      ∀ p t, u.heap p = some t ↔ q.heap p = some t ∧ (⟨p,t.sequence⟩ : ActiveTimer) ∉ q.inserted := by
  intro q
  have reached : Reachable NewTimerQueue (timerStep wholeMicroseconds) q :=
    ⟨_,_,⟨10,rfl⟩,final_run _ _ _ (by decide +kernel)⟩
  exact ⟨by decide +kernel,by decide +kernel,destruct_frees wholeMicroseconds q reached (by decide +kernel)⟩

end Reactor.Net
