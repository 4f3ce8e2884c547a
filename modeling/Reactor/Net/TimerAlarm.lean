import Reactor.Net.TimerMove

/-! The timerfd of the queue. `addTimerInLoop` sets it when the earliest expiration
changes, `reset` when that is a valid time; nothing else sets it, and a cancelled timer
leaves its alarm behind. Outside `handleRead` a pending timer has an alarm all the same. -/
namespace Reactor.Net
open Reactor.Transition

variable {q : TimerQueue}

def timeFromNow (when now : Int) : Int := max (int64 (when-now)) 100

theorem howMuchTimeFromNow_eq (when now : Int) :
    howMuchTimeFromNow when now = ⟨timeFromNow when now / 10^6,timeFromNow when now % 10^6 * 1000⟩ := by
  have clamp : (if int64 (when-now) < 100 then 100 else int64 (when-now)) = timeFromNow when now := by
    unfold timeFromNow
    split
    · omega
    · omega
  have positive : 0 ≤ timeFromNow when now := by
    unfold timeFromNow
    omega
  simp only [howMuchTimeFromNow,clamp,Int.tdiv_eq_ediv_of_nonneg positive,Int.tmod_eq_emod_of_nonneg positive]

theorem howMuchTimeFromNow_valid (when now : Int) :
    (howMuchTimeFromNow when now).valid = true ∧ howMuchTimeFromNow when now ≠ ⟨0,0⟩ := by
  have least : 100 ≤ timeFromNow when now := le_max_right _ _
  rw [howMuchTimeFromNow_eq]
  constructor
  · simp only [Timespec.valid,Bool.and_eq_true,decide_eq_true_eq]
    omega
  · simp only [ne_eq,Timespec.mk.injEq]
    omega

def representable (when now : Int) : Bool := -(2^63) ≤ when-now && when-now < 2^63

theorem timeFromNow_of_representable {when now : Int} (fits : representable when now = true) :
    timeFromNow when now = max (when-now) 100 := by
  simp only [representable,Bool.and_eq_true,decide_eq_true_eq] at fits
  rw [timeFromNow,int64,Int.bmod_eq_of_le]
  · omega
  · omega

theorem resetTimerfd_timerfd {when : Int} (fits : representable when q.clock = true) :
    (q.resetTimerfd when).timerfd = some ⟨max when (q.clock+100),q.clock⟩ := by
  obtain ⟨valid,nonzero⟩ := howMuchTimeFromNow_valid when q.clock
  simp only [TimerQueue.resetTimerfd,TimerQueue.timerfdSettime,valid,nonzero,Bool.not_true,Bool.false_eq_true,if_false]
  rw [howMuchTimeFromNow_eq,timeFromNow_of_representable fits]
  simp only [Option.some.injEq,Alarm.mk.injEq,and_true]
  omega

/-- The first entry is due no earlier than the alarm goes off. -/
def TimerQueue.covered (q : TimerQueue) : Prop :=
  ∀ e, q.timers.first = some e → ∃ a, q.timerfd = some a ∧ a.deadline ≤ max e.expiration (a.armedAt+100)

theorem first_le {e : Entry} (s : OrderedSet Entry) (listed : e ∈ s) :
    ∃ d, s.first = some d ∧ d.expiration ≤ e.expiration := by
  cases first : s.first with
  | none => exact absurd listed ((OrderedSet.first_none s).mp first e)
  | some d =>
    refine ⟨d,rfl,?_⟩
    rcases (Entry.le_def d e).mp ((OrderedSet.first_some s d first).2 e listed) with less | same
    · exact le_of_lt less
    · exact le_of_eq same.1

/-- An alarm serves as long as no earlier entry comes in. -/
theorem covered_mono {u : TimerQueue} (covered : q.covered) (alarm : u.timerfd = q.timerfd)
    (later : ∀ e ∈ u.timers, ∃ d ∈ q.timers, d.expiration ≤ e.expiration) : u.covered := by
  intro e first
  obtain ⟨d,listed,less⟩ := later e (OrderedSet.first_some _ e first).1
  obtain ⟨c,least,order⟩ := first_le q.timers listed
  obtain ⟨a,armed,bound⟩ := covered c least
  exact ⟨a,alarm.trans armed,by omega⟩

theorem covered_reset {u : TimerQueue} {when : Int} (fits : representable when q.clock = true)
    (alarm : u.timerfd = (q.resetTimerfd when).timerfd) (least : ∀ e ∈ u.timers, when ≤ e.expiration) :
    u.covered := by
  intro e first
  have less := least e (OrderedSet.first_some _ e first).1
  refine ⟨_,alarm.trans (resetTimerfd_timerfd fits),?_⟩
  simp only
  omega

/-- While callbacks run the alarm may be gone, but then no entry has an invalid time. -/
structure Alarmed (q : TimerQueue) : Prop where
  clock : 0 < q.clock
  batch : ∀ now done rest, q.phase = .calling now done rest → 0 < now
  alarm : q.covered ∨ (q.phase ≠ .idle ∧ ∀ e ∈ q.timers, 0 < e.expiration)
  settings : ∀ ts ∈ q.settings, ts.valid = true ∧ ts ≠ ⟨0,0⟩

theorem settings_reset (valid : ∀ ts ∈ q.settings, ts.valid = true ∧ ts ≠ ⟨0,0⟩) (when : Int) :
    ∀ ts ∈ (q.resetTimerfd when).settings, ts.valid = true ∧ ts ≠ ⟨0,0⟩ := by
  intro ts member
  rcases List.mem_append.mp member with old | new
  · exact valid ts old
  · cases List.mem_singleton.mp new
    exact howMuchTimeFromNow_valid when q.clock

theorem earliestChanged_iff (q : TimerQueue) (when : Int) :
    q.earliestChanged when = true ↔ ∀ e ∈ q.timers, when < e.expiration := by
  rw [TimerQueue.earliestChanged,Option.all_eq_true]
  constructor
  · intro earliest e listed
    obtain ⟨d,first,less⟩ := first_le q.timers listed
    have lower : when < d.expiration := by simpa using earliest d first
    omega
  · intro lower d first
    simpa using lower d (OrderedSet.first_some _ d first).1

theorem alarmed_added (alarmed : Alarmed q) (p : Nat) (t : Timer)
    (fits : ∀ e ∈ (q.added p t).timers, representable e.expiration q.clock = true) : Alarmed (q.added p t) := by
  have frame := added_frame (q := q) p t
  have timers : (q.added p t).timers = q.timers.insert ⟨t.expiration,p⟩ := by
    rw [frame]
    rfl
  have clock : (q.added p t).clock = q.clock := by rw [frame]; rfl
  have phase : (q.added p t).phase = q.phase := by rw [frame]; rfl
  refine ⟨clock ▸ alarmed.clock,phase ▸ alarmed.batch,?_,?_⟩
  · by_cases earliest : q.earliestChanged t.expiration = true
    · left
      have near : representable t.expiration ((q.noted p t).link p t).clock = true :=
        fits ⟨t.expiration,p⟩ (by rw [timers]; simp)
      refine covered_reset near ?_ ?_
      · simp [TimerQueue.added,earliest]
      · intro e listed
        rw [timers,OrderedSet.mem_insert] at listed
        rcases listed with rfl | old
        · exact le_refl _
        · exact le_of_lt ((earliestChanged_iff q _).mp earliest e old)
    · -- an entry that is not later than the new one is there already
      have alarm : (q.added p t).timerfd = q.timerfd := by
        simp [TimerQueue.added,earliest,TimerQueue.link,TimerQueue.noted]
      rw [earliestChanged_iff] at earliest
      push Not at earliest
      obtain ⟨d,listed,order⟩ := earliest
      rcases alarmed.alarm with covered | ⟨calling,positive⟩
      · left
        refine covered_mono covered alarm fun e there => ?_
        rw [timers,OrderedSet.mem_insert] at there
        rcases there with rfl | old
        · exact ⟨d,listed,order⟩
        · exact ⟨e,old,le_refl _⟩
      · right
        refine ⟨phase ▸ calling,fun e there => ?_⟩
        rw [timers,OrderedSet.mem_insert] at there
        rcases there with rfl | old
        · exact lt_of_lt_of_le (positive d listed) order
        · exact positive e old
  · unfold TimerQueue.added
    split
    · exact settings_reset alarmed.settings t.expiration
    · exact alarmed.settings

/-- The entries of the queue after the step are within 64 bits of the clock. -/
def staysRepresentable (addTime : Int → ℚ → Int) (q : TimerQueue) (l : TimerLabel) : Bool :=
  (timerStep addTime q l).all fun u => u.timers.toList.all fun e => representable e.expiration u.clock

section
variable (addTime : Int → ℚ → Int) (forward : ∀ now interval, 0 < interval → now ≤ addTime now interval)
include forward

theorem resetRun_timers {now : Int} {q u : TimerQueue} {expired : List Entry}
    (run : ResetRun addTime now q expired u) : ∀ e ∈ u.timers, e ∈ q.timers ∨ now ≤ e.expiration := by
  induction run with
  | nil q => exact fun e listed => .inl listed
  | again q u e rest t found repeats kept tail ih =>
    intro d listed
    rcases ih d listed with inside | later
    · rcases (OrderedSet.mem_insert _ _ _).mp inside with rfl | old
      · right
        simp only [Timer.restart,repeats,if_true]
        exact forward now t.interval (by simpa [Timer.repeats] using repeats)
      · exact .inl old
    · exact .inr later
  | drop q u e rest t found finished tail ih => exact ih

theorem alarmed_finish {now : Int} {done : List Entry} {u : TimerQueue} (alarmed : Alarmed q)
    (here : q.phase = .calling now done [])
    (run : ResetRun addTime now {q with callingExpiredTimers := false} done u)
    (fits : ∀ e ∈ u.timers, representable e.expiration u.clock = true) :
    Alarmed {u.rearmed with phase := .idle} := by
  have frame := resetRun_frame addTime run
  have timers : u.rearmed.timers = u.timers := by rw [rearmed_frame]
  have clock : u.rearmed.clock = q.clock := by rw [rearmed_frame,frame]
  have settings : ∀ ts ∈ u.settings, ts.valid = true ∧ ts ≠ ⟨0,0⟩ := by
    rw [frame]
    exact alarmed.settings
  refine ⟨clock ▸ alarmed.clock,nofun,.inl ?_,?_⟩
  · intro e first
    have first : u.timers.first = some e := by simpa [timers] using first
    obtain ⟨listed,least⟩ := OrderedSet.first_some _ e first
    have order (d : Entry) (there : d ∈ u.timers) : e.expiration ≤ d.expiration := by
      obtain ⟨c,same,less⟩ := first_le u.timers there
      cases first.symm.trans same
      exact less
    by_cases valid : Timestamp.valid e.expiration = true
    · have alarm : u.rearmed.timerfd = (u.resetTimerfd e.expiration).timerfd := by
        simp [TimerQueue.rearmed,first,valid]
      exact covered_reset (u := u.rearmed) (fits e listed) alarm (timers ▸ order) e (by rw [timers,first])
    · -- an invalid time was there before, and was covered
      have alarm : u.rearmed.timerfd = q.timerfd := by
        simp only [TimerQueue.rearmed,first,valid]
        rw [frame]
        rfl
      have low : e.expiration ≤ 0 := by simpa [Timestamp.valid] using valid
      have positive := alarmed.batch now done [] here
      have old : e ∈ q.timers := by
        rcases resetRun_timers addTime forward run e listed with old | later
        · exact old
        · omega
      have covered : q.covered := by
        rcases alarmed.alarm with covered | ⟨_,above⟩
        · exact covered
        · have contradiction := above e old
          omega
      exact covered_mono (u := u.rearmed) covered alarm (fun d there => ⟨e,old,order d (timers ▸ there)⟩) e
        (by rw [timers,first])
  · unfold TimerQueue.rearmed
    split
    · exact settings
    · split
      · exact settings_reset settings _
      · exact settings

theorem alarmed_move {l : TimerLabel} {u : TimerQueue} (sound : Sound q) (alarmed : Alarmed q)
    (fits : ∀ e ∈ u.timers, representable e.expiration u.clock = true) (move : TimerMove addTime q l u) :
    Alarmed u := by
  obtain ⟨clock,batch,alarm,settings⟩ := alarmed
  cases move with
  | tick d => exact ⟨by simp only; omega,batch,alarm,settings⟩
  | create p when interval low free => exact ⟨clock,batch,alarm,settings⟩
  | add p t found fresh =>
    have same : (q.added p t).clock = q.clock := by
      rw [added_frame]
      rfl
    exact alarmed_added ⟨clock,batch,alarm,settings⟩ p t (same ▸ fits)
  | cancel id t active found number listed =>
    have old (e : Entry) (there : e ∈ (q.cancelled id.timer t).timers) : e ∈ q.timers :=
      ((OrderedSet.mem_erase _ _ _).mp there).2
    refine ⟨clock,batch,?_,settings⟩
    rcases alarm with covered | ⟨calling,positive⟩
    · exact .inl (covered_mono covered rfl fun e there => ⟨e,old e there,le_refl _⟩)
    · exact .inr ⟨calling,fun e there => positive e (old e there)⟩
  | pass id missing =>
    rw [passedOver_frame]
    exact ⟨clock,batch,alarm,settings⟩
  | handleRead actives idle members =>
    rw [readTimerfd_frame]
    refine ⟨clock,?_,.inr ⟨by simp,fun e late => ?_⟩,settings⟩
    · rintro now done rest ⟨⟩
      exact clock
    · -- what was due has been collected
      obtain ⟨listed,bound⟩ := (OrderedSet.mem_fromBound _ _ _).mp late
      obtain ⟨t,found,_⟩ := sound.held.keyed e listed
      have later := later_of_bound (sound.numbered.bounds e.timer t found).1 bound
      omega
  | run now done e rest t here found =>
    refine ⟨clock,?_,?_,settings⟩
    · rintro now' done' rest' ⟨⟩
      exact batch now done (e::rest) here
    · rcases alarm with covered | ⟨_,positive⟩
      · exact .inl covered
      · exact .inr ⟨by simp,positive⟩
  | finish now done u here loop =>
    have timers : u.rearmed.timers = u.timers := by rw [rearmed_frame]
    have clocks : u.rearmed.clock = u.clock := by rw [rearmed_frame]
    refine alarmed_finish addTime forward ⟨clock,batch,alarm,settings⟩ here loop fun e listed => ?_
    rw [← clocks]
    exact fits e (timers ▸ listed)

/-- Outside `handleRead` the timerfd has an alarm, fired or still to come, for the first
pending timer, and it is never given a value that disarms it. -/
theorem pending_timer_alarmed (clock : Int) (q : TimerQueue) (ls : List TimerLabel) (valid : 0 < clock)
    (run : Run (timerStep addTime) (newTimerQueue clock) ls q)
    (range : Along (timerStep addTime) (fun q l => staysRepresentable addTime q l = true) (newTimerQueue clock) ls) :
    (q.phase = .idle → ∀ e, q.timers.first = some e →
      ∃ a, q.timerfd = some a ∧ a.deadline ≤ max e.expiration (a.armedAt+100)) ∧
    ∀ ts ∈ q.settings, 0 ≤ ts.sec ∧ 0 ≤ ts.nsec ∧ ts.nsec < 10^9 ∧ ts ≠ ⟨0,0⟩ := by
  have start : Sound (newTimerQueue clock) ∧ Alarmed (newTimerQueue clock) :=
    ⟨newTimerQueue_sound clock,valid,nofun,.inl nofun,nofun⟩
  have alarmed := (run.keeps _ (fun q => Sound q ∧ Alarmed q) ?_ range start).2
  · refine ⟨fun idle => ?_,fun ts given => ?_⟩
    · rcases alarmed.alarm with covered | ⟨calling,_⟩
      · exact covered
      · exact absurd idle calling
    · obtain ⟨accepted,nonzero⟩ := alarmed.settings ts given
      simp only [Timespec.valid,Bool.and_eq_true,decide_eq_true_eq] at accepted
      exact ⟨accepted.1.1,accepted.1.2,accepted.2,nonzero⟩
  · rintro q l u ⟨sound,alarmed⟩ fits ok
    obtain ⟨move,after⟩ := timerStep_sound addTime sound ok
    refine ⟨after,alarmed_move addTime forward sound alarmed (fun e listed => ?_) move⟩
    simp only [staysRepresentable,ok,Option.all_some,List.all_eq_true] at fits
    exact fits e listed

end

theorem wholeMicroseconds_forward (now : Int) (interval : ℚ) (positive : 0 < interval) :
    now ≤ wholeMicroseconds now interval := by
  have scaled : 0 < interval*1000000 := Rat.mul_pos positive (by decide)
  have later : 0 ≤ (interval*1000000).floor := Rat.le_floor_iff.mpr (Rat.le_of_lt scaled)
  unfold wholeMicroseconds
  omega

/-- The callback of a timer that was due before the epoch adds one for the epoch itself. -/
private def beforeEpoch : List TimerLabel :=
  [.create 1 (-5) 0,.addTimerInLoop 1,.create 2 5000 (1/1000),.addTimerInLoop 2,.tick 150,.handleRead,.run,.create 3 0 0,
    .addTimerInLoop 3,.finish]

theorem pending_timer_alarmed_before_epoch :
    (final (timerStep wholeMicroseconds) (newTimerQueue 1000) beforeEpoch).phase = .idle ∧
    (final (timerStep wholeMicroseconds) (newTimerQueue 1000) beforeEpoch).timers.first = some ⟨0,3⟩ ∧
    ∃ a, (final (timerStep wholeMicroseconds) (newTimerQueue 1000) beforeEpoch).timerfd = some a ∧
      a.deadline ≤ max 0 (a.armedAt+100) :=
  ⟨by decide +kernel,by decide +kernel,(pending_timer_alarmed wholeMicroseconds wholeMicroseconds_forward 1000 _
    beforeEpoch (by decide) (final_run (timerStep wholeMicroseconds) (newTimerQueue 1000) beforeEpoch (by decide +kernel))
    (by decide +kernel)).1 (by decide +kernel) ⟨0,3⟩ (by decide +kernel)⟩

end Reactor.Net
