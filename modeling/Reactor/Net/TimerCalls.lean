import Reactor.Net.TimerLoop

/-! What callers of `addTimer` and `cancel` can rely on. Until the loop performs its
`addTimerInLoop` a timer is safe; from then on only `handleRead` and `cancelInLoop` can take
it away, and neither knows whether `addTimer` has returned. -/
namespace Reactor.Net
open Reactor.Transition

variable {fd : EventFd} {addTime : Int → ℚ → Int} {q v : TimerQueue} {a : ActiveTimer} {l : TimerLabel}

/-- The next `handleRead` collects the timer. -/
def TimerQueue.due (q : TimerQueue) (a : ActiveTimer) : Bool :=
  (q.timers.below (sentry q.clock)).any fun e => e.timer = a.timer

def TimerQueue.repeats (q : TimerQueue) (a : ActiveTimer) : Bool := (q.heap a.timer).any Timer.repeats

/-- The timer is allocated, and if it is in the expired batch, `reset` will put it back. -/
structure Spared (q : TimerQueue) (a : ActiveTimer) : Prop where
  alive : q.allocated a = true
  again : ∀ e ∈ q.phase.expired, e.timer = a.timer → q.repeats a = true ∧ ¬a ∈ q.cancelingTimers

/-- `reset` deletes only timers that do not repeat or were cancelled. -/
theorem reset_alive {now : Int} {q v : TimerQueue} {expired : List Entry} (run : ResetRun addTime now q expired v)
    (alive : q.allocated a = true)
    (again : ∀ e ∈ expired, e.timer = a.timer → q.repeats a = true ∧ ¬a ∈ q.cancelingTimers) : v.allocated a = true := by
  induction run with
  | nil q => exact alive
  | again q v e rest t found repeats kept tail ih =>
    obtain ⟨u,there,number⟩ := allocated_iff.mp alive
    have heap (p : Nat) : (q.restarted addTime now e.timer t).heap p =
        if p = e.timer then some (t.restart addTime now) else q.heap p := Function.update_apply _ _ _ p
    by_cases here : a.timer = e.timer
    · rw [here,found] at there
      cases there
      refine ih (allocated_iff.mpr ⟨t.restart addTime now,by rw [heap,if_pos here],number⟩) fun d later same => ?_
      refine ⟨?_,(again d (List.mem_cons_of_mem e later) same).2⟩
      rw [TimerQueue.repeats,heap,if_pos here]
      exact repeats
    · refine ih (allocated_iff.mpr ⟨u,by rwa [heap,if_neg here],number⟩) fun d later same => ?_
      obtain ⟨repeats,kept⟩ := again d (List.mem_cons_of_mem e later) same
      refine ⟨?_,kept⟩
      rwa [TimerQueue.repeats,heap,if_neg here]
  | drop q v e rest t found finished tail ih =>
    obtain ⟨u,there,number⟩ := allocated_iff.mp alive
    have other : a.timer ≠ e.timer := by
      intro here
      obtain ⟨repeats,kept⟩ := again e List.mem_cons_self here.symm
      rw [here,found] at there
      cases there
      rw [TimerQueue.repeats,here,found] at repeats
      have named : (⟨e.timer,t.sequence⟩ : ActiveTimer) = a := by rw [← here,number]
      exact kept (named ▸ finished repeats)
    have heap : (q.freed e.timer t).heap a.timer = q.heap a.timer := Function.update_of_ne other _ _
    refine ih (allocated_iff.mpr ⟨u,heap.trans there,number⟩) fun d later same => ?_
    obtain ⟨repeats,kept⟩ := again d (List.mem_cons_of_mem e later) same
    refine ⟨?_,kept⟩
    rwa [TimerQueue.repeats,heap]

/-- Only a cancellation and the collection of an expired timer that does not repeat lead to a
deletion. -/
theorem spared_move (spared : Spared q a) (move : TimerMove addTime q l v)
    (uncancelled : l = .cancelInLoop a → ¬a ∈ q.activeTimers ∧ ∀ e ∈ q.phase.expired, e.timer ≠ a.timer)
    (early : l = .handleRead → q.due a = true → q.repeats a = true) : Spared v a := by
  obtain ⟨alive,again⟩ := spared
  obtain ⟨t,found,number⟩ := allocated_iff.mp alive
  cases move with
  | tick d => exact ⟨alive,again⟩
  | create p when interval low free =>
    have other : a.timer ≠ p := by
      rintro rfl
      rw [free] at found
      cases found
    have heap : (q.create p when interval).heap a.timer = q.heap a.timer := Function.update_of_ne other _ _
    refine ⟨allocated_iff.mpr ⟨t,heap.trans found,number⟩,?_⟩
    rw [TimerQueue.repeats,heap]
    exact again
  | add p t found fresh =>
    rw [added_frame]
    exact ⟨alive,again⟩
  | cancel id u active there same listed =>
    have other : a.timer ≠ id.timer := by
      intro here
      rw [← here,found] at there
      cases there
      have twin : id = a := by
        rw [show a = ⟨id.timer,id.sequence⟩ by rw [← here,← same,number]]
      exact (uncancelled (congrArg _ twin)).1 (twin ▸ active)
    have heap : (q.cancelled id.timer u).heap a.timer = q.heap a.timer := Function.update_of_ne other _ _
    refine ⟨allocated_iff.mpr ⟨t,heap.trans found,number⟩,?_⟩
    rw [TimerQueue.repeats,heap]
    exact again
  | pass id missing =>
    refine ⟨by rw [passedOver_frame]; exact alive,fun e inside same => ?_⟩
    have batch : e ∈ q.phase.expired := by rwa [passedOver_frame] at inside
    obtain ⟨repeats,kept⟩ := again e batch same
    refine ⟨by rw [passedOver_frame]; exact repeats,fun canceling => ?_⟩
    have other : a ≠ id := by
      rintro rfl
      exact (uncancelled rfl).2 e batch same
    unfold TimerQueue.passedOver at canceling
    split at canceling
    · exact ((OrderedSet.mem_insert _ _ _).mp canceling).elim other kept
    · exact kept canceling
  | handleRead actives idle members =>
    rw [readTimerfd_frame]
    refine ⟨alive,fun e collected same => ⟨early rfl ?_,fun inside => ?_⟩⟩
    · exact List.any_eq_true.mpr ⟨e,collected,by simpa using same⟩
    · cases inside
  | run now done e rest u here there =>
    refine ⟨alive,fun d inside => again d ?_⟩
    simpa [here,TimerPhase.expired] using inside
  | finish now done u here loop =>
    have kept : u.allocated a = true :=
      reset_alive loop alive fun e inside => again e (by simp [here,TimerPhase.expired,inside])
    rw [rearmed_frame]
    exact ⟨kept,by simp [TimerPhase.expired]⟩

/-- A timer that is made and not yet inserted. -/
structure Made (q : TimerQueue) (a : ActiveTimer) : Prop where
  alive : q.allocated a = true
  new : a ∉ q.inserted

theorem Made.inactive (sound : Sound q) (made : Made q a) : ¬a ∈ q.activeTimers := by
  intro active
  obtain ⟨e,listed,t,found,rfl⟩ := (sound.held.actives a).mp active
  obtain ⟨u,there,logged⟩ := (sound.held.live e.timer).mp
    (List.mem_append.mpr (.inl (List.mem_map_of_mem listed)))
  rw [found] at there
  cases there
  exact made.new logged

theorem Made.unexpired (sound : Sound q) (made : Made q a) : ∀ e ∈ q.phase.expired, e.timer ≠ a.timer := by
  intro e inside same
  obtain ⟨t,found,logged⟩ := (sound.held.live e.timer).mp (List.mem_append.mpr (.inr (List.mem_map_of_mem inside)))
  obtain ⟨u,there,number⟩ := allocated_iff.mp made.alive
  rw [← same,found] at there
  cases there
  exact made.new (by rwa [same,number] at logged)

theorem Made.spared (sound : Sound q) (made : Made q a) : Spared q a :=
  ⟨made.alive,fun e inside same => absurd same (made.unexpired sound e inside)⟩

theorem inserted_move (move : TimerMove addTime q l v) (other : ∀ p, l ≠ .addTimerInLoop p) :
    v.inserted = q.inserted := by
  cases move with
  | add p t found fresh => exact absurd rfl (other p)
  | pass id missing => rw [passedOver_frame]
  | handleRead actives idle members => rw [readTimerfd_frame]; rfl
  | finish now done u here loop => rw [rearmed_frame,resetRun_frame addTime loop]
  | _ => rfl

theorem made_move (sound : Sound q) (made : Made q a) (move : TimerMove addTime q l v)
    (other : ∀ p, l ≠ .addTimerInLoop p) : Made v a := by
  have inactive := made.inactive sound
  have spared : Spared v a := by
    refine spared_move (made.spared sound) move (fun _ => ⟨inactive,made.unexpired sound⟩) fun _ due => ?_
    obtain ⟨e,early,same⟩ := List.any_eq_true.mp due
    exact absurd (sound.held.active_of_listed made.alive ((OrderedSet.mem_below _ _ _).mp early).1 (by simpa using same))
      inactive
  refine ⟨spared.alive,?_⟩
  rw [inserted_move move other]
  exact made.new

theorem Made.found (made : Made q a) :
    ∃ t, q.heap a.timer = some t ∧ (⟨a.timer,t.sequence⟩ : ActiveTimer) = a ∧
      (⟨a.timer,t.sequence⟩ : ActiveTimer) ∉ q.inserted := by
  obtain ⟨t,found,number⟩ := allocated_iff.mp made.alive
  have named : (⟨a.timer,t.sequence⟩ : ActiveTimer) = a := by rw [number]
  exact ⟨t,found,named,named ▸ made.new⟩

theorem insert_move (sound : Sound q) (made : Made q a) :
    TimerMove addTime q (.addTimerInLoop a.timer) (q.settle (q.addTimerInLoop a.timer)) := by
  obtain ⟨t,found,_,new⟩ := made.found
  rw [(add_step sound found new).1]
  exact .add a.timer t found new

theorem made_insert (sound : Sound q) (made : Made q a) :
    Sound (q.settle (q.addTimerInLoop a.timer)) ∧
      (q.settle (q.addTimerInLoop a.timer)).inserted = q.inserted ++ [a] ∧
      ∀ b, (q.settle (q.addTimerInLoop a.timer)).allocated b = q.allocated b := by
  obtain ⟨t,found,named,new⟩ := made.found
  obtain ⟨done,after⟩ := add_step sound found new
  rw [done]
  refine ⟨after,?_,fun b => ?_⟩
  · rw [added_frame]
    exact congrArg (fun b => q.inserted ++ [b]) named
  · rw [added_frame]
    rfl

def TimerFunctor.adds : TimerFunctor → Option ActiveTimer
  | .addTimerInLoop a => some a
  | _ => none

/-- Each queued `cancelInLoop` finds its timers inserted when its turn comes. -/
def Served (known : List ActiveTimer) : List TimerFunctor → Prop
  | [] => True
  | .addTimerInLoop a :: rest => Served (known ++ [a]) rest
  | .cancelInLoop _ owners :: rest => owners ⊆ known ∧ Served known rest
  | .other :: rest => Served known rest

theorem served_wider {known wider : List ActiveTimer} {waiting : List TimerFunctor} (more : known ⊆ wider)
    (served : Served known waiting) : Served wider waiting := by
  induction waiting generalizing known wider with
  | nil => exact trivial
  | cons f rest ih =>
    cases f with
    | addTimerInLoop a => exact ih (List.append_subset.mpr ⟨List.subset_append_of_subset_left _ more,by simp⟩) served
    | cancelInLoop id owners => exact ⟨List.Subset.trans served.1 more,ih more served.2⟩
    | other => exact ih more served

theorem served_push {known : List ActiveTimer} {waiting : List TimerFunctor} {f : TimerFunctor}
    (served : Served known waiting)
    (last : ∀ id owners, f = .cancelInLoop id owners → owners ⊆ known ++ waiting.filterMap TimerFunctor.adds) :
    Served known (waiting ++ [f]) := by
  induction waiting generalizing known with
  | nil =>
    cases f with
    | cancelInLoop id owners => exact ⟨by simpa using last id owners rfl,trivial⟩
    | _ => exact trivial
  | cons g rest ih =>
    cases g with
    | addTimerInLoop a =>
      refine ih served fun id owners same => ?_
      simpa [TimerFunctor.adds] using last id owners same
    | cancelInLoop id owners => exact ⟨served.1,ih served.2 last⟩
    | other => exact ih served last

/-- What is known of the timers: those in `waiting` and `made` are still to be inserted, the
callers in `handed` have given theirs away, and an id that was returned is that of its
timer unless the timer was deleted before it was read. -/
structure Books (q : TimerQueue) (waiting : List TimerFunctor) (made handed : List ActiveTimer)
    (returned : List (ActiveTimer × TimerId)) : Prop where
  sound : Sound q
  fresh : ∀ a ∈ waiting.filterMap TimerFunctor.adds ++ made, Made q a
  distinct : (waiting.filterMap TimerFunctor.adds ++ made).Nodup
  given : ∀ a ∈ handed, a ∈ q.inserted ++ waiting.filterMap TimerFunctor.adds
  answered : ∀ r ∈ returned, r.1 ∈ q.inserted ++ waiting.filterMap TimerFunctor.adds ∧
    (r.2 = r.1 ∨ q.allocated r.1 = false)
  served : Served q.inserted waiting
  owned : ∀ id owners, .cancelInLoop id owners ∈ waiting → ∀ a ∈ owners, (a,id) ∈ returned

section
variable {waiting : List TimerFunctor} {made handed : List ActiveTimer} {returned : List (ActiveTimer × TimerId)}

theorem Books.gone (books : Books q waiting made handed returned) {r : ActiveTimer × TimerId} (back : r ∈ returned)
    (dead : q.allocated r.1 = false) : r.1 ∈ q.inserted := by
  rcases List.mem_append.mp (books.answered r back).1 with inside | queued
  · exact inside
  · have alive := (books.fresh r.1 (List.mem_append.mpr (.inl queued))).alive
    rw [dead] at alive
    cases alive

theorem books_queue (books : Books q waiting made handed returned) (move : TimerMove addTime q l v) (sound : Sound v)
    (other : ∀ p, l ≠ .addTimerInLoop p) : Books v waiting made handed returned := by
  have inserted := inserted_move move other
  refine ⟨sound,fun a inside => made_move books.sound (books.fresh a inside) move other,books.distinct,?_,?_,?_,
    books.owned⟩
  · rw [inserted]
    exact books.given
  · intro r back
    rw [inserted]
    refine ⟨(books.answered r back).1,(books.answered r back).2.imp_right fun dead => ?_⟩
    rw [← Bool.not_eq_true]
    intro alive
    rw [allocated_move addTime books.sound (books.gone back dead) move alive] at dead
    cases dead
  · rw [inserted]
    exact books.served

theorem books_create (books : Books q waiting made handed returned) {p : Nat} {when : Int} {interval : ℚ}
    (move : TimerMove addTime q (.create p when interval) v) (sound : Sound v) :
    Books v waiting (⟨p,v.numCreated⟩ :: made) handed returned := by
  have after := books_queue books move sound nofun
  have bounded {a : ActiveTimer} (alive : q.allocated a = true) : a.sequence ≤ q.numCreated := by
    obtain ⟨t,found,number⟩ := allocated_iff.mp alive
    exact number ▸ (books.sound.numbered.bounds a.timer t found).2
  cases move with
  | create p when interval low free =>
    have next : (q.create p when interval).numCreated = q.numCreated+1 := rfl
    have here : Made (q.create p when interval) ⟨p,q.numCreated+1⟩ := by
      refine ⟨allocated_of_heap (t := ⟨when,interval,q.numCreated+1⟩) ((heap_store _ _ _ _).mpr (.inl ⟨rfl,rfl⟩)),?_⟩
      intro logged
      have bound := (books.sound.numbered.logged _ logged).1
      simp only at bound
      omega
    refine {after with fresh := fun a inside => ?_,distinct := ?_}
    · rcases List.mem_cons.mp (List.perm_middle.mem_iff.mp inside) with rfl | old
      · exact here
      · exact after.fresh a old
    · refine List.perm_middle.nodup_iff.mpr (List.nodup_cons.mpr ⟨fun old => ?_,after.distinct⟩)
      have bound := bounded (books.fresh _ old).alive
      simp only [next] at bound
      omega

theorem books_insert (books : Books q waiting made handed returned) {waiting' : List TimerFunctor}
    {made' handed' : List ActiveTimer}
    (taken : (waiting.filterMap TimerFunctor.adds ++ made).Perm (a :: (waiting'.filterMap TimerFunctor.adds ++ made')))
    (known : ∀ b ∈ q.inserted ++ waiting.filterMap TimerFunctor.adds,
      b ∈ q.inserted ++ [a] ++ waiting'.filterMap TimerFunctor.adds)
    (given : ∀ b ∈ handed', b ∈ handed ∨ b = a) (served : Served (q.inserted ++ [a]) waiting')
    (fewer : waiting' ⊆ waiting) :
    Books (q.settle (q.addTimerInLoop a.timer)) waiting' made' handed' returned := by
  have fresh := books.fresh a (taken.mem_iff.mpr (by simp))
  obtain ⟨sound,inserted,same⟩ := made_insert books.sound fresh
  obtain ⟨absent,distinct⟩ := List.nodup_cons.mp (taken.nodup_iff.mp books.distinct)
  refine ⟨sound,fun b inside => ?_,distinct,fun b inside => ?_,fun r back => ?_,?_,
    fun id owners inside => books.owned id owners (fewer inside)⟩
  · have before := books.fresh b (taken.mem_iff.mpr (by simp [inside]))
    refine ⟨(same b).trans before.alive,fun logged => ?_⟩
    rw [inserted] at logged
    rcases List.mem_append.mp logged with old | new
    · exact before.new old
    · exact absent (List.mem_singleton.mp new ▸ inside)
  · rw [inserted]
    rcases given b inside with old | rfl
    · exact known b (books.given b old)
    · simp
  · rw [inserted,same]
    exact ⟨known r.1 (books.answered r back).1,(books.answered r back).2⟩
  · rw [inserted]
    exact served

theorem books_push (books : Books q waiting made handed returned) {f : TimerFunctor}
    (quiet : f.adds = none) (owned : ∀ id owners, f = .cancelInLoop id owners → ∀ a ∈ owners, (a,id) ∈ returned) :
    Books q (waiting ++ [f]) made handed returned := by
  have same : (waiting ++ [f]).filterMap TimerFunctor.adds = waiting.filterMap TimerFunctor.adds := by simp [quiet]
  refine ⟨books.sound,same ▸ books.fresh,same ▸ books.distinct,same ▸ books.given,same ▸ books.answered,?_,?_⟩
  · exact served_push books.served fun id owners here a inside => (books.answered _ (owned id owners here a inside)).1
  · intro id owners inside
    rcases List.mem_append.mp inside with old | new
    · exact books.owned id owners old
    · exact owned id owners (List.mem_singleton.mp new).symm

theorem books_pop {f : TimerFunctor} (books : Books q (f::waiting) made handed returned) (quiet : f.adds = none) :
    Books q waiting made handed returned := by
  have same : (f::waiting).filterMap TimerFunctor.adds = waiting.filterMap TimerFunctor.adds := by simp [quiet]
  refine ⟨books.sound,same ▸ books.fresh,same ▸ books.distinct,same ▸ books.given,same ▸ books.answered,?_,
    fun id owners inside => books.owned id owners (by simp [inside])⟩
  have served := books.served
  cases f with
  | addTimerInLoop a => cases quiet
  | cancelInLoop id owners => exact served.2
  | other => exact served

theorem books_handOff {made' handed' : List ActiveTimer} (books : Books q waiting made handed returned)
    (taken : made.Perm (a::made')) (given : ∀ b ∈ handed', b ∈ handed ∨ b = a) :
    Books q (waiting ++ [.addTimerInLoop a]) made' handed' returned := by
  have more : (waiting ++ [TimerFunctor.addTimerInLoop a]).filterMap TimerFunctor.adds =
      waiting.filterMap TimerFunctor.adds ++ [a] := by simp [TimerFunctor.adds]
  have moved : (waiting.filterMap TimerFunctor.adds ++ [a] ++ made').Perm
      (waiting.filterMap TimerFunctor.adds ++ made) := by
    rw [List.append_assoc]
    exact taken.symm.append_left _
  have wider {b : ActiveTimer} (inside : b ∈ q.inserted ++ waiting.filterMap TimerFunctor.adds) :
      b ∈ q.inserted ++ (waiting.filterMap TimerFunctor.adds ++ [a]) := by
    rw [← List.append_assoc]
    exact List.mem_append.mpr (.inl inside)
  refine ⟨books.sound,?_,?_,fun b inside => ?_,fun r back => ?_,served_push books.served nofun,?_⟩
  · rw [more]
    exact fun b inside => books.fresh b (moved.mem_iff.mp inside)
  · rw [more]
    exact moved.nodup_iff.mpr books.distinct
  · rw [more]
    rcases given b inside with old | rfl
    · exact wider (books.given b old)
    · simp
  · rw [more]
    exact ⟨wider (books.answered r back).1,(books.answered r back).2⟩
  · intro id owners inside
    exact books.owned id owners (by simpa using inside)

theorem books_return {made' handed' : List ActiveTimer} {t : Timer} (books : Books q waiting made handed returned)
    (same : made.Perm made') (fewer : handed' ⊆ handed) (inside : a ∈ handed) (found : q.heap a.timer = some t) :
    Books q waiting made' handed' (returned ++ [(a,⟨a.timer,t.sequence⟩)]) := by
  have moved := same.append_left (waiting.filterMap TimerFunctor.adds)
  refine ⟨books.sound,fun b there => books.fresh b (moved.mem_iff.mpr there),moved.nodup_iff.mp books.distinct,
    fun b there => books.given b (fewer there),fun r back => ?_,books.served,fun id owners there b mine => ?_⟩
  · rcases List.mem_append.mp back with old | new
    · exact books.answered r old
    · cases List.mem_singleton.mp new
      refine ⟨books.given a inside,?_⟩
      -- with another number it is another timer that lies at the address by now
      by_cases number : t.sequence = a.sequence
      · exact .inl (by rw [number])
      · exact .inr (by simp [TimerQueue.allocated,found,number])
  · exact List.mem_append.mpr (.inl (books.owned id owners there b mine))

end

/-- The timers of the calls that have, or have not, reached `runInLoop`. -/
def timersOf (handedOff : Bool) (calls : List AddTimer) : List ActiveTimer :=
  (calls.filter fun c => c.handedOff = handedOff).map AddTimer.timer

theorem timersOf_same {c : AddTimer} {calls : List AddTimer} {handedOff : Bool} (inside : c ∈ calls)
    (same : c.handedOff = handedOff) :
    (timersOf handedOff calls).Perm (c.timer :: timersOf handedOff (calls.erase c)) := by
  have moved := ((List.perm_cons_erase inside).filter fun c => c.handedOff = handedOff).map AddTimer.timer
  simpa [timersOf,List.filter_cons,same] using moved

theorem timersOf_other {c : AddTimer} {calls : List AddTimer} {handedOff : Bool} (inside : c ∈ calls)
    (other : c.handedOff ≠ handedOff) : (timersOf handedOff calls).Perm (timersOf handedOff (calls.erase c)) := by
  have moved := ((List.perm_cons_erase inside).filter fun c => c.handedOff = handedOff).map AddTimer.timer
  simpa [timersOf,List.filter_cons,other] using moved

theorem timersOf_given {c : AddTimer} {calls : List AddTimer} (inside : c ∈ calls) (made : c.handedOff = false)
    (b : ActiveTimer) (there : b ∈ c.timer :: timersOf true (calls.erase c)) : b ∈ timersOf true calls ∨ b = c.timer := by
  have others : (timersOf true calls).Perm (timersOf true (calls.erase c)) := timersOf_other inside (by simp [made])
  rcases List.mem_cons.mp there with rfl | old
  · exact .inr rfl
  · exact .inl (others.mem_iff.mpr old)

def TimerLoop.Kept (s : TimerLoop) : Prop :=
  Books s.queue s.waiting (timersOf false s.calls) (timersOf true s.calls) s.returned

variable {s u : TimerLoop} {k : TimerLoopLabel}

theorem owners_returned {id : TimerId} (inside : a ∈ s.owners id) : (a,id) ∈ s.returned := by
  simp only [TimerLoop.owners,List.mem_map,List.mem_filter,decide_eq_true_eq] at inside
  obtain ⟨⟨own,back⟩,⟨member,rfl⟩,rfl⟩ := inside
  exact member

theorem handles_other (handles : s.handles l = true) (p : Nat) : l ≠ .addTimerInLoop p := by
  rintro rfl
  cases handles

theorem kept_move (kept : s.Kept) (move : TimerLoopMove addTime s k u) : u.Kept := by
  cases move with
  | loop l loop same =>
    rcases same with same | same
    · exact (show Books _ (loop.queued.map Push.functor) _ _ _ from same ▸ kept)
    · exact (show Books _ (loop.queued.map Push.functor) _ _ _ from same ▸ books_push kept rfl nofun)
  | timers l queue handles ok =>
    obtain ⟨move,sound⟩ := timerStep_sound addTime kept.sound ok
    exact books_queue kept move sound (handles_other handles)
  | run f rest loop next same =>
    have books : Books s.queue (f.functor :: loop.queued.map Push.functor) (timersOf false s.calls)
        (timersOf true s.calls) s.returned := same ▸ kept
    cases here : f.functor with
    | addTimerInLoop a =>
      rw [here] at books
      have known : ∀ b ∈ s.queue.inserted ++ (TimerFunctor.addTimerInLoop a :: loop.queued.map Push.functor).filterMap
          TimerFunctor.adds, b ∈ s.queue.inserted ++ [a] ++ (loop.queued.map Push.functor).filterMap TimerFunctor.adds := by
        intro b inside
        simpa [TimerFunctor.adds] using inside
      exact books_insert books (.refl _) known (fun b inside => .inl inside) books.served (List.subset_cons_self _ _)
    | cancelInLoop id owners =>
      obtain ⟨move,sound⟩ := cancel_step addTime kept.sound id
      exact books_queue (books_pop books (by rw [here]; rfl)) move sound nofun
    | other => exact books_pop books (by rw [here]; rfl)
  | newTimer t p when interval queue ok =>
    obtain ⟨move,sound⟩ := timerStep_sound addTime kept.sound ok
    exact books_create kept move sound
  | add c inside made =>
    -- the loop thread inserts its timer at once, before those that wait in the queue
    have taken := timersOf_same inside made
    refine books_insert kept ((taken.append_left _).trans List.perm_middle) ?_ (timersOf_given inside made) ?_
      (List.Subset.refl _)
    · intro b there
      simp only [List.mem_append,List.mem_singleton] at there ⊢
      exact there.imp_left Or.inl
    · exact served_wider (List.subset_append_left _ _) kept.served
  | queueAdd c loop inside made same =>
    have books := books_handOff kept (timersOf_same inside made) (timersOf_given inside made)
    exact (show Books _ (loop.queued.map Push.functor) _ _ _ from same ▸ books)
  | dangle t => exact kept
  | readSequence c timer inside given found =>
    have taken := timersOf_same inside given
    have same : (timersOf false s.calls).Perm _ := timersOf_other inside (by simp [given])
    refine books_return kept same (fun b there => taken.mem_iff.mpr ?_) (taken.mem_iff.mpr ?_) found
    · exact List.mem_cons_of_mem _ there
    · exact List.mem_cons_self
  | cancel t id own =>
    obtain ⟨move,sound⟩ := cancel_step addTime kept.sound id
    exact books_queue kept move sound nofun
  | queueCancel t id loop same =>
    have books := books_push (f := .cancelInLoop id (s.owners id)) kept rfl fun _ _ here a inside => by
      cases here
      exact owners_returned inside
    exact (show Books _ (loop.queued.map Push.functor) _ _ _ from same ▸ books)

theorem newTimerLoop_kept (threadId : Nat) (clock : Int) : (newTimerLoop threadId clock).Kept :=
  ⟨newTimerQueue_sound clock,fun _ inside => absurd inside List.not_mem_nil,List.nodup_nil,
    fun _ inside => absurd inside List.not_mem_nil,fun _ inside => absurd inside List.not_mem_nil,trivial,
    fun _ _ inside => absurd inside List.not_mem_nil⟩

def TimerLoop.cancelling (s : TimerLoop) : TimerLoopLabel → Option TimerId
  | .run =>
    match s.loop.functors with
    | ⟨.cancelInLoop id _,_,_⟩ :: _ => some id
    | _ => none
  | .cancel t id => if t = s.loop.threadId then some id else none
  | _ => none

/-- A step of the loop is a step of its timer queue, or leaves it as it is. -/
theorem queue_move (kept : s.Kept) (move : TimerLoopMove addTime s k u) :
    u.queue = s.queue ∨ ∃ l, TimerMove addTime s.queue l u.queue ∧
      (∀ id, l = .cancelInLoop id → s.cancelling k = some id) ∧ (l = .handleRead → k = .timers .handleRead) := by
  cases move with
  | timers l queue handles ok =>
    refine .inr ⟨l,(timerStep_sound addTime kept.sound ok).1,?_,?_⟩
    · rintro id rfl
      cases handles
    · rintro rfl
      rfl
  | run f rest loop next same =>
    obtain ⟨functor,thread,looping⟩ := f
    cases functor with
    | addTimerInLoop a =>
      have made : Made s.queue a := kept.fresh a (by simp [same,TimerFunctor.adds])
      exact .inr ⟨_,insert_move kept.sound made,nofun,nofun⟩
    | cancelInLoop id owners =>
      refine .inr ⟨_,(cancel_step addTime kept.sound id).1,?_,nofun⟩
      rintro _ ⟨⟩
      simp [TimerLoop.cancelling,next]
    | other => exact .inl rfl
  | newTimer t p when interval queue ok => exact .inr ⟨_,(timerStep_sound addTime kept.sound ok).1,nofun,nofun⟩
  | add c inside made =>
    have listed := (timersOf_same inside made).mem_iff.mpr List.mem_cons_self
    exact .inr ⟨_,insert_move kept.sound (kept.fresh c.timer (List.mem_append.mpr (.inr listed))),nofun,nofun⟩
  | cancel t id own =>
    refine .inr ⟨_,(cancel_step addTime kept.sound id).1,?_,nofun⟩
    rintro _ ⟨⟩
    simp [TimerLoop.cancelling,own]
  | _ => exact .inl rfl

/-- What holds in new loops and is kept by steps that meet a condition holds after a run. -/
theorem kept_run {start : TimerLoop} {ks : List TimerLoopLabel} (new : NewTimerLoop start)
    (run : Run (timerLoopStep fd addTime) start ks s) (cond : TimerLoop → TimerLoopLabel → Prop)
    (along : Along (timerLoopStep fd addTime) cond start ks) (holds : TimerLoop → Prop)
    (first : ∀ threadId clock, holds (newTimerLoop threadId clock))
    (step : ∀ s k u, s.Kept → holds s → cond s k → TimerLoopMove addTime s k u → holds u) : s.Kept ∧ holds s := by
  have kept := run.keeps cond (fun s => Ordered s.loop ∧ s.Kept ∧ holds s) ?_ along ?_
  · exact kept.2
  · rintro s k u ⟨ordered,kept,before⟩ now ok
    obtain ⟨move,after⟩ := timerLoopStep_move ordered ok
    exact ⟨after,kept_move kept move,step s k u kept before now move⟩
  · obtain ⟨threadId,clock,rfl⟩ := new
    exact ⟨⟨rfl,fun _ _ => rfl⟩,newTimerLoop_kept threadId clock,first threadId clock⟩

theorem dropped_dead (sound : Sound q) (logged : a ∈ q.inserted) (dead : q.allocated a = false) (hand : List Entry) :
    Dropped q a hand := by
  refine ⟨logged,fun active => ?_,fun alive => ?_⟩
  · obtain ⟨t,found,number,_⟩ := sound.held.active_found active
    rw [allocated_iff.mpr ⟨t,found,number⟩] at dead
    cases dead
  · rw [alive] at dead
    cases dead

theorem dropped_owner (kept : s.Kept) {id : TimerId} (back : (a,id) ∈ s.returned) (logged : a ∈ s.queue.inserted)
    (move : TimerMove addTime s.queue (.cancelInLoop id) v) (sound : Sound v) : Dropped v a v.phase.expired := by
  rcases (kept.answered _ back).2 with same | dead
  · cases (show id = a from same)
    exact dropped_cancel addTime kept.sound logged move
  · refine dropped_dead sound ?_ ?_ _
    · rw [inserted_move move nofun]
      exact logged
    · rw [← Bool.not_eq_true]
      intro alive
      rw [allocated_move addTime kept.sound logged move alive] at dead
      cases dead

/-- A call of `cancel` in the loop thread does not overtake the `addTimerInLoop` of the timer. -/
def TimerLoop.arrived (a : ActiveTimer) (s : TimerLoop) : TimerLoopLabel → Bool
  | .cancel t id => t ≠ s.loop.threadId || a ∉ s.owners id || a ∈ s.queue.inserted
  | _ => true

theorem dropped_loop (kept : s.Kept) (dropped : a ∈ s.cancelled → Dropped s.queue a s.queue.phase.expired)
    (arrived : s.arrived a k = true) (move : TimerLoopMove addTime s k u) (cancelled : a ∈ u.cancelled) :
    Dropped u.queue a u.queue.phase.expired := by
  by_cases before : a ∈ s.cancelled
  · rcases queue_move kept move with same | ⟨l,step,_⟩
    · rw [same]
      exact dropped before
    · exact dropped_move addTime kept.sound (dropped before) step
  · cases move with
    | run f rest loop next same =>
      obtain ⟨functor,thread,looping⟩ := f
      cases functor with
      | addTimerInLoop b => exact absurd cancelled before
      | cancelInLoop id owners =>
        have mine := (List.mem_append.mp cancelled).resolve_left before
        have served : Served s.queue.inserted (.cancelInLoop id owners :: loop.queued.map Push.functor) :=
          same ▸ kept.served
        obtain ⟨step,sound⟩ := cancel_step addTime kept.sound id
        exact dropped_owner kept (kept.owned id owners (by simp [same]) a mine) (served.1 mine) step sound
      | other => exact absurd cancelled before
    | cancel t id own =>
      have mine := (List.mem_append.mp cancelled).resolve_left before
      have logged : a ∈ s.queue.inserted := by simpa [TimerLoop.arrived,own,mine] using arrived
      obtain ⟨step,sound⟩ := cancel_step addTime kept.sound id
      exact dropped_owner kept (owners_returned mine) logged step sound
    | _ => exact absurd cancelled before

/-- Once `cancelInLoop` was performed for an id that `addTimer` returned, the timer is not in
the queue, provided that no `cancel` in the loop thread overtook its `addTimerInLoop`. -/
theorem cancel_effective (start s : TimerLoop) (ks : List TimerLoopLabel) (new : NewTimerLoop start)
    (run : Run (timerLoopStep fd addTime) start ks s) (a : ActiveTimer)
    (along : Along (timerLoopStep fd addTime) (fun s k => s.arrived a k = true) start ks) (cancelled : a ∈ s.cancelled) :
    a ∈ s.queue.inserted ∧ (¬a ∈ s.queue.activeTimers) ∧
      ∀ e ∈ s.queue.timers, ∀ t, s.queue.heap e.timer = some t → (⟨e.timer,t.sequence⟩ : ActiveTimer) ≠ a := by
  obtain ⟨kept,dropped⟩ := kept_run new run _ along
    (fun s => a ∈ s.cancelled → Dropped s.queue a s.queue.phase.expired)
    (fun _ _ inside => absurd inside List.not_mem_nil)
    (fun s k u kept before arrived move => dropped_loop kept before arrived move)
  refine ⟨(dropped cancelled).logged,(dropped cancelled).inactive,?_⟩
  rintro e listed t found rfl
  exact (dropped cancelled).inactive ((kept.sound.held.actives _).mpr ⟨e,listed,t,found,rfl⟩)

/-- Thread 1 adds a timer for time 50 and gets its id; its `addTimerInLoop` is queued. -/
private def added : List TimerLoopLabel :=
  [.newTimer 1 1 50 0,.handOff 1,.loop (.wakeup 1),.readSequence 1]

private def round : List TimerLoopLabel :=
  [.loop .loop,.loop .check,.loop (.poll true),.loop .handleRead,.loop .handled,.loop .swap]

/-- Thread 2 cancels the timer, and the loop performs both functors. -/
private def cancelledAfter : List TimerLoopLabel :=
  added ++ [TimerLoopLabel.cancel 2 ⟨1,1⟩] ++ round ++ [TimerLoopLabel.run,.run]

private abbrev timerRun (ks : List TimerLoopLabel) : TimerLoop :=
  final (timerLoopStep linuxEventFd wholeMicroseconds) (newTimerLoop 0 10) ks

theorem cancel_effective_queued :
    (timerRun cancelledAfter).cancelled = [⟨1,1⟩] ∧ (timerRun cancelledAfter).queue.deleted = [⟨1,1⟩] ∧
    ¬(⟨1,1⟩ : ActiveTimer) ∈ (timerRun cancelledAfter).queue.activeTimers :=
  ⟨by decide +kernel,by decide +kernel,(cancel_effective _ _ cancelledAfter ⟨0,10,rfl⟩
    (final_run _ _ _ (by decide +kernel)) ⟨1,1⟩ (by decide +kernel) (by decide +kernel)).2.1⟩

/-- The loop thread cancels the timer at once, before `addTimerInLoop` has its turn. -/
private def cancelledBefore : List TimerLoopLabel :=
  added ++ [TimerLoopLabel.cancel 0 ⟨1,1⟩] ++ round ++ [TimerLoopLabel.run]

theorem cancel_overtakes :
    ∃ s, Reachable NewTimerLoop (timerLoopStep linuxEventFd wholeMicroseconds) s ∧
      s.returned = [(⟨1,1⟩,⟨1,1⟩)] ∧ s.cancelled = [⟨1,1⟩] ∧ s.queue.inserted = [⟨1,1⟩] ∧ s.waiting.length = 0 ∧
      (⟨1,1⟩ : ActiveTimer) ∈ s.queue.activeTimers := by
  refine ⟨timerRun cancelledBefore,⟨_,cancelledBefore,⟨0,10,rfl⟩,final_run _ _ _ ?_⟩,?_,?_,?_,?_,?_⟩
  all_goals decide +kernel

theorem handed_move (move : TimerLoopMove addTime s k u) (handed : a ∈ timersOf true u.calls) :
    a ∈ timersOf true s.calls ∨ (a ∈ timersOf false s.calls ∧ ∃ t, k = .handOff t) := by
  have given {c : AddTimer} (inside : c ∈ s.calls) (made : c.handedOff = false)
      (there : a ∈ c.timer :: timersOf true (s.calls.erase c)) :
      a ∈ timersOf true s.calls ∨ (a ∈ timersOf false s.calls ∧ ∃ t, TimerLoopLabel.handOff c.thread = .handOff t) := by
    rcases List.mem_cons.mp there with rfl | old
    · exact .inr ⟨(timersOf_same inside made).mem_iff.mpr List.mem_cons_self,_,rfl⟩
    · exact .inl ((timersOf_other inside (by simp [made])).mem_iff.mpr old)
  cases move with
  | run f rest loop next same =>
    obtain ⟨functor,thread,looping⟩ := f
    cases functor <;> exact .inl handed
  | add c inside made => exact given inside made handed
  | queueAdd c loop inside made same => exact given inside made handed
  | readSequence c timer inside called found =>
    exact .inl ((timersOf_same inside called).mem_iff.mpr (List.mem_cons_of_mem _ handed))
  | _ => exact .inl handed

/-- While its `addTimer` has still to read the number, the timer is not cancelled, and it is not
collected as expired unless it repeats. -/
def TimerLoop.spares (a : ActiveTimer) (s : TimerLoop) (k : TimerLoopLabel) : Bool :=
  a ∉ timersOf true s.calls || match k with
    | .timers .handleRead => !s.queue.due a || s.queue.repeats a
    | k => s.cancelling k ≠ some a

theorem spared_loop (kept : s.Kept) (spared : a ∈ timersOf true s.calls → Spared s.queue a)
    (spares : s.spares a k = true) (move : TimerLoopMove addTime s k u) (handed : a ∈ timersOf true u.calls) :
    Spared u.queue a := by
  have before : Spared s.queue a ∧ s.cancelling k ≠ some a ∧
      (k = .timers .handleRead → s.queue.due a = true → s.queue.repeats a = true) := by
    rcases handed_move move handed with old | ⟨made,t,rfl⟩
    · refine ⟨spared old,?_⟩
      simp only [TimerLoop.spares,old,not_true_eq_false,decide_false,Bool.false_or] at spares
      split at spares
      · exact ⟨nofun,fun _ due => by simpa [due] using spares⟩
      · rename_i other
        exact ⟨by simpa using spares,fun same => absurd same other⟩
    · exact ⟨(kept.fresh a (List.mem_append.mpr (.inr made))).spared kept.sound,nofun,nofun⟩
  obtain ⟨still,uncancelled,early⟩ := before
  rcases queue_move kept move with same | ⟨l,step,cancels,collects⟩
  · rw [same]
    exact still
  · exact spared_move still step (fun here => absurd (cancels a here) uncancelled) fun here => early (collects here)

/-- `addTimer` finds its timer allocated when it reads the number, provided that the timer
was not cancelled before and, unless it repeats, did not come due. -/
theorem addTimer_reads_live (start s : TimerLoop) (ks : List TimerLoopLabel) (new : NewTimerLoop start)
    (run : Run (timerLoopStep fd addTime) start ks s) (c : AddTimer) (called : c ∈ s.calls)
    (along : Along (timerLoopStep fd addTime) (fun s k => s.spares c.timer k = true) start ks) :
    s.queue.allocated c.timer = true := by
  obtain ⟨kept,spared⟩ := kept_run new run _ along (fun s => c.timer ∈ timersOf true s.calls → Spared s.queue c.timer)
    (fun _ _ inside => absurd inside List.not_mem_nil)
    (fun s k u kept before spares move => spared_loop kept before spares move)
  cases given : c.handedOff with
  | false =>
    have made := (timersOf_same called given).mem_iff.mpr List.mem_cons_self
    exact (kept.fresh c.timer (List.mem_append.mpr (.inr made))).alive
  | true => exact (spared ((timersOf_same called given).mem_iff.mpr List.mem_cons_self)).alive

/-- The loop performs `addTimerInLoop` before `addTimer` of thread 1 goes on. -/
private def performed : List TimerLoopLabel :=
  [TimerLoopLabel.newTimer 1 1 50 0,.handOff 1,.loop (.wakeup 1)] ++ round ++ [TimerLoopLabel.run]

theorem addTimer_reads_live_performed :
    (⟨1,1⟩ : ActiveTimer) ∈ (timerRun performed).queue.activeTimers ∧
    (timerRun performed).queue.allocated ⟨1,1⟩ = true :=
  ⟨by decide +kernel,addTimer_reads_live _ _ performed ⟨0,10,rfl⟩ (final_run _ _ _ (by decide +kernel)) ⟨1,⟨1,1⟩,true⟩
    (by decide +kernel) (by decide +kernel)⟩

private def expired : List TimerLoopLabel :=
  performed ++ [TimerLoopLabel.loop .finish,.loop .check,.timers (.tick 200),.loop (.poll false),.timers .handleRead,.timers .run,
    .timers .finish]

theorem addTimer_reads_dead :
    ∃ s u, Reachable NewTimerLoop (timerLoopStep linuxEventFd wholeMicroseconds) s ∧
      s.calls = [⟨1,⟨1,1⟩,true⟩] ∧ s.queue.allocated ⟨1,1⟩ = false ∧ s.queue.deleted = [⟨1,1⟩] ∧
      timerLoopStep linuxEventFd wholeMicroseconds s (.readSequence 1) = some u ∧ u.dangling = true := by
  have read := final_step (timerLoopStep linuxEventFd wholeMicroseconds) (newTimerLoop 0 10) expired (.readSequence 1)
    (by decide +kernel)
  refine ⟨timerRun expired,_,⟨_,expired,⟨0,10,rfl⟩,final_run _ _ _ ?_⟩,?_,?_,?_,read,?_⟩
  all_goals decide +kernel

end Reactor.Net
