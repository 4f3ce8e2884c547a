import Reactor.Net.TimerMove

/-! Cancelling with the `TimerId` of a timer that is gone. The address in it may belong to a
live timer by then, but the number does not: it was given once. All that the call can leave
behind is a pair in `cancelingTimers_` that no later look-up finds. -/
namespace Reactor.Net
open Reactor.Transition

/-- The queue with other pairs in `cancelingTimers_`. -/
def TimerQueue.noting (q : TimerQueue) (canceling : OrderedSet ActiveTimer) : TimerQueue :=
  {q with cancelingTimers := canceling}

/-- Two sets of cancelled timers that differ in deleted ones only. -/
def SameLive (deleted : List ActiveTimer) (first second : OrderedSet ActiveTimer) : Prop :=
  ∀ a ∉ deleted, a ∈ first ↔ a ∈ second

section
variable {q u v : TimerQueue} {canceling : OrderedSet ActiveTimer} {l : TimerLabel}

theorem SameLive.mono {before after : List ActiveTimer} {first second : OrderedSet ActiveTimer}
    (same : SameLive before first second) (more : ∀ a ∈ before, a ∈ after) : SameLive after first second :=
  fun a alive => same a (fun dead => alive (more a dead))

theorem SameLive.symm {deleted : List ActiveTimer} {first second : OrderedSet ActiveTimer}
    (same : SameLive deleted first second) : SameLive deleted second first :=
  fun a alive => (same a alive).symm

theorem SameLive.insert {deleted : List ActiveTimer} {first second : OrderedSet ActiveTimer}
    (same : SameLive deleted first second) (id : TimerId) : SameLive deleted (first.insert id) (second.insert id) := by
  intro a alive
  rw [OrderedSet.mem_insert,OrderedSet.mem_insert,same a alive]

theorem noting_sound (sound : Sound q) (canceling : OrderedSet ActiveTimer) : Sound (q.noting canceling) :=
  ⟨sound.fine,numbered_frame sound.numbered rfl rfl rfl rfl,held_frame sound.held rfl rfl rfl rfl,sound.calling⟩

theorem Numbered.alive (numbered : Numbered q) {p : Nat} {t : Timer} (found : q.heap p = some t) :
    (⟨p,t.sequence⟩ : ActiveTimer) ∉ q.deleted :=
  fun dead => (numbered.gone _ dead).2 p t found rfl

variable (addTime : Int → ℚ → Int)

theorem noting_enabled (canceling : OrderedSet ActiveTimer) (ok : timerStep addTime q l = some u) :
    ∃ v, timerStep addTime (q.noting canceling) l = some v := by
  unfold timerStep at ok ⊢
  obtain ⟨fine,ok⟩ := Option.ite_none_left_eq_some.mp ok
  rw [if_neg (show ¬ (q.noting canceling).failed ≠ none from fine)]
  cases l with
  | tick d => exact ⟨_,rfl⟩
  | create p when interval | addTimerInLoop p | cancelInLoop id | handleRead =>
    obtain ⟨allowed,_⟩ := Option.ite_none_right_eq_some.mp ok
    exact ⟨_,if_pos allowed⟩
  | run =>
    simp only [TimerQueue.noting] at ok ⊢
    split at ok
    · exact ⟨_,rfl⟩
    · cases ok
  | finish =>
    simp only [TimerQueue.noting] at ok ⊢
    split at ok
    · exact ⟨_,rfl⟩
    · cases ok

/-- `reset` looks only for live timers, so it makes the same choices. -/
theorem resetRun_noting {now : Int} {expired : List Entry} (run : ResetRun addTime now q expired u)
    (numbered : Numbered q) (same : SameLive q.deleted q.cancelingTimers canceling)
    (other : ResetRun addTime now (q.noting canceling) expired v) :
    v = u.noting canceling ∧ SameLive u.deleted u.cancelingTimers canceling := by
  induction run with
  | nil q =>
    cases other with
    | nil => exact ⟨rfl,same⟩
  | again q u e rest t found repeats kept tail ih =>
    cases other with
    | again _ _ _ _ s there repeats' kept' tail' =>
      cases Option.some.inj (found.symm.trans there)
      have renumbered : Numbered (q.restarted addTime now e.timer t) :=
        numbered_frame (numbered_store numbered found (t.restart addTime now) rfl) rfl rfl rfl rfl
      exact ih renumbered same tail'
    | drop _ _ _ _ s there finished tail' =>
      cases Option.some.inj (found.symm.trans there)
      exact absurd ((same _ (numbered.alive found)).mpr (finished repeats)) kept
  | drop q u e rest t found finished tail ih =>
    cases other with
    | again _ _ _ _ s there repeats kept tail' =>
      cases Option.some.inj (found.symm.trans there)
      exact absurd ((same _ (numbered.alive found)).mp (finished repeats)) kept
    | drop _ _ _ _ s there finished' tail' =>
      cases Option.some.inj (found.symm.trans there)
      exact ih (numbered_delete numbered found) (same.mono fun a => List.mem_append_left _) tail'

theorem rearmed_noting : (q.noting canceling).rearmed = q.rearmed.noting canceling := by
  unfold TimerQueue.rearmed
  simp only [TimerQueue.noting]
  split
  · rfl
  · split <;> rfl

theorem readTimerfd_noting : (q.noting canceling).readTimerfd = q.readTimerfd.noting canceling := by
  cases alarm : q.timerfd with
  | none => simp [TimerQueue.readTimerfd,TimerQueue.noting,alarm]
  | some a =>
    by_cases passed : a.deadline ≤ q.clock
    · simp [TimerQueue.readTimerfd,TimerQueue.noting,alarm,passed]
    · simp [TimerQueue.readTimerfd,TimerQueue.noting,alarm,passed]

theorem added_noting (p : Nat) (t : Timer) : (q.noting canceling).added p t = (q.added p t).noting canceling := by
  unfold TimerQueue.added
  split
  · rename_i earlier
    rw [if_pos (show q.earliestChanged t.expiration = true from earlier)]
    rfl
  · rename_i later
    rw [if_neg (show ¬ q.earliestChanged t.expiration = true from later)]
    rfl

/-- What a step does to two queues that differ in the pairs of deleted timers. -/
theorem move_noting (numbered : Numbered q) (same : SameLive q.deleted q.cancelingTimers canceling)
    (move : TimerMove addTime q l u) (other : TimerMove addTime (q.noting canceling) l v) :
    ∃ next, v = u.noting next ∧ SameLive u.deleted u.cancelingTimers next := by
  cases move with
  | tick d =>
    cases other
    exact ⟨canceling,rfl,same⟩
  | create p when interval low free =>
    cases other
    exact ⟨canceling,rfl,same⟩
  | add p t found fresh =>
    cases other with
    | add _ s there _ =>
      cases Option.some.inj (found.symm.trans there)
      refine ⟨canceling,added_noting p t,?_⟩
      rw [added_frame]
      exact same
  | cancel id t active found number listed =>
    cases other with
    | cancel _ s _ there _ _ =>
      cases Option.some.inj (found.symm.trans there)
      exact ⟨canceling,rfl,same.mono fun a => List.mem_append_left _⟩
    | pass _ missing => exact absurd active missing
  | pass id missing =>
    cases other with
    | cancel _ s active _ _ _ => exact absurd active missing
    | pass _ _ =>
      cases calling : q.callingExpiredTimers with
      | true =>
        refine ⟨canceling.insert id,?_,?_⟩
        · simp [TimerQueue.passedOver,TimerQueue.noting,calling]
        · simpa [TimerQueue.passedOver,calling] using same.insert id
      | false =>
        refine ⟨canceling,?_,?_⟩
        · simp [TimerQueue.passedOver,TimerQueue.noting,calling]
        · simpa [TimerQueue.passedOver,calling] using same
  | handleRead actives idle members =>
    cases other with
    | handleRead actives' _ members' =>
      have equal : actives' = actives := OrderedSet.ext fun a => (members' a).trans (members a).symm
      subst equal
      refine ⟨.empty,?_,fun a _ => Iff.rfl⟩
      rw [readTimerfd_noting]
      rfl
  | run now done e rest t here found =>
    cases other with
    | run _ _ _ _ s here' there =>
      cases here.symm.trans here'
      cases Option.some.inj (found.symm.trans there)
      exact ⟨canceling,rfl,same⟩
  | finish now done w here loop =>
    cases other with
    | finish _ _ w' here' loop' =>
      cases here.symm.trans here'
      obtain ⟨rfl,after⟩ := resetRun_noting addTime loop (numbered_frame numbered rfl rfl rfl rfl) same loop'
      refine ⟨canceling,?_,?_⟩
      · rw [rearmed_noting]
        rfl
      · rw [rearmed_frame]
        exact after

/-- The same queue, but for pairs of deleted timers. -/
def Shadows (q r : TimerQueue) : Prop :=
  Sound q ∧ ∃ canceling, r = q.noting canceling ∧ SameLive q.deleted q.cancelingTimers canceling

theorem Shadows.symm (shadows : Shadows q u) : Shadows u q := by
  obtain ⟨sound,canceling,rfl,same⟩ := shadows
  exact ⟨noting_sound sound canceling,q.cancelingTimers,rfl,same.symm⟩

theorem shadows_step (shadows : Shadows q v) (ok : timerStep addTime q l = some u) :
    ∃ w, timerStep addTime v l = some w ∧ Shadows u w := by
  obtain ⟨sound,canceling,rfl,same⟩ := shadows
  obtain ⟨move,after⟩ := timerStep_sound addTime sound ok
  obtain ⟨w,other⟩ := noting_enabled addTime canceling ok
  have moved := (timerStep_sound addTime (noting_sound sound canceling) other).1
  obtain ⟨next,result,kept⟩ := move_noting addTime sound.numbered same move moved
  exact ⟨w,other,after,next,result,kept⟩

theorem stale_shadows (sound : Sound q) {id : TimerId} (stale : id ∈ q.deleted)
    (ok : timerStep addTime q (.cancelInLoop id) = some u) : Shadows q u := by
  cases (timerStep_sound addTime sound ok).1 with
  | cancel _ t active found number listed =>
    exact absurd number ((sound.numbered.gone id stale).2 id.timer t found)
  | pass _ missing =>
    refine ⟨sound,(q.passedOver id).cancelingTimers,passedOver_frame id,fun a alive => ?_⟩
    have other : a ≠ id := fun same => alive (same ▸ stale)
    unfold TimerQueue.passedOver
    split
    · simp [other]
    · exact Iff.rfl

/-- A cancel with a stale `TimerId` is not felt: whatever happens behind it happens just so
without it, and the other way round. -/
theorem stale_cancel_unfelt (q u : TimerQueue) (reached : Reachable NewTimerQueue (timerStep addTime) q) (id : TimerId)
    (stale : id ∈ q.deleted) (ok : timerStep addTime q (.cancelInLoop id) = some u) (ls : List TimerLabel) :
    (∀ v, Run (timerStep addTime) u ls v →
      ∃ w, Run (timerStep addTime) q ls w ∧ v = {w with cancelingTimers := v.cancelingTimers}) ∧
    ∀ w, Run (timerStep addTime) q ls w →
      ∃ v, Run (timerStep addTime) u ls v ∧ v = {w with cancelingTimers := v.cancelingTimers} := by
  have shadows := stale_shadows addTime (sound_reached addTime reached) stale ok
  have follows (s r : TimerQueue) (l : TimerLabel) (t : TimerQueue) (related : Shadows s r)
      (ok : timerStep addTime s l = some t) := shadows_step addTime related ok
  constructor
  · intro v run
    obtain ⟨w,other,after⟩ := run.follow Shadows follows shadows.symm
    obtain ⟨_,canceling,rfl,_⟩ := after.symm
    exact ⟨w,other,rfl⟩
  · intro w run
    obtain ⟨v,other,_,canceling,rfl,_⟩ := run.follow Shadows follows shadows
    exact ⟨w.noting canceling,other,rfl⟩

end

/-- A one-shot timer is gone; a repeating one lies at its address, and its callback is running. -/
private def sameAddress : List TimerLabel :=
  [.create 1 50 0,.addTimerInLoop 1,.tick 200,.handleRead,.run,.finish,.create 1 250 (1/1000),.addTimerInLoop 1,
    .tick 200,.handleRead,.run]

theorem stale_cancel_unfelt_sameAddress :
    ∃ v, Run (timerStep wholeMicroseconds)
        (final (timerStep wholeMicroseconds) (newTimerQueue 10) (sameAddress ++ [.cancelInLoop ⟨1,1⟩])) [.finish] v ∧
      v.timers.toList.map Entry.expiration = [1410] ∧ (⟨1,2⟩ : ActiveTimer) ∈ v.activeTimers := by
  have reached : Reachable NewTimerQueue _ (final (timerStep wholeMicroseconds) (newTimerQueue 10) sameAddress) :=
    ⟨_,sameAddress,⟨10,rfl⟩,final_run _ _ _ (by decide +kernel)⟩
  obtain ⟨v,run,same⟩ := (stale_cancel_unfelt wholeMicroseconds _ _ reached ⟨1,1⟩ (by decide +kernel)
    (final_step _ _ _ _ (by decide +kernel)) [.finish]).2 _ (final_append _ _ sameAddress [.finish] (by decide +kernel))
  have timers : v.timers = (final (timerStep wholeMicroseconds) (newTimerQueue 10) (sameAddress ++ [.finish])).timers := by
    rw [same]
  have actives : v.activeTimers =
      (final (timerStep wholeMicroseconds) (newTimerQueue 10) (sameAddress ++ [.finish])).activeTimers := by
    rw [same]
  refine ⟨v,run,?_,?_⟩
  · rw [timers]
    decide +kernel
  · rw [actives]
    decide +kernel

end Reactor.Net
