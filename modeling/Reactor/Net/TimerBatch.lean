import Reactor.Net.TimerCalls

/-! One call of `handleRead`, from the collection of the expired timers over the callbacks
to `reset`. The callbacks edit an agenda, which says when each timer in the queue is to
expire; what they do to the expired timers themselves shows in `reset` only. -/
namespace Reactor.Net
open Reactor.Transition

abbrev Agenda := TimerId → Option Int

inductive Edit
  | add (id : TimerId) (expiration : Int)
  | cancel (id : TimerId)

def Edit.apply (agenda : Agenda) : Edit → Agenda
  | .add id expiration => Function.update agenda id (some expiration)
  | .cancel id => Function.update agenda id none

namespace TimerQueue

def agenda (q : TimerQueue) : Agenda := fun id =>
  if id ∈ q.activeTimers then (q.heap id.timer).map Timer.expiration else none

/-- The agenda without what is due. -/
def agendaAfter (q : TimerQueue) (now : Int) : Agenda := fun id => (q.agenda id).filter fun x => now < x

def batch (q : TimerQueue) : List Entry := q.timers.below (sentry q.clock)

def idOf (q : TimerQueue) (e : Entry) : TimerId := ⟨e.timer,((q.heap e.timer).map Timer.sequence).getD 0⟩

def edit (q : TimerQueue) : TimerLabel → List Edit
  | .addTimerInLoop p => ((q.heap p).map fun t => Edit.add ⟨p,t.sequence⟩ t.expiration).toList
  | .cancelInLoop id => [.cancel id]
  | _ => []

end TimerQueue

/-- The additions and cancellations of an execution, in order. -/
def edits (addTime : Int → ℚ → Int) : TimerQueue → List TimerLabel → List Edit
  | _, [] => []
  | q, l::ls => q.edit l ++ ((timerStep addTime q l).map fun next => edits addTime next ls).getD []

variable {addTime : Int → ℚ → Int} {q s u : TimerQueue} {hand : List Entry}

theorem idOf_eq {e : Entry} {t : Timer} (found : q.heap e.timer = some t) : q.idOf e = ⟨e.timer,t.sequence⟩ := by
  simp [TimerQueue.idOf,found]

theorem Held.mem_timers (held : Held q hand) (e : Entry) :
    e ∈ q.timers ↔ ∃ n, q.agenda ⟨e.timer,n⟩ = some e.expiration := by
  constructor
  · intro listed
    obtain ⟨t,found,same⟩ := held.keyed e listed
    have active : (⟨e.timer,t.sequence⟩ : ActiveTimer) ∈ q.activeTimers := (held.actives _).mpr ⟨e,listed,t,found,rfl⟩
    exact ⟨t.sequence,by simp [TimerQueue.agenda,active,found,same]⟩
  · rintro ⟨n,scheduled⟩
    obtain ⟨active,there⟩ := Option.ite_none_right_eq_some.mp scheduled
    obtain ⟨t,found,_,listed⟩ := held.active_found active
    have same : t.expiration = e.expiration := by simpa [found] using there
    rwa [same] at listed

theorem agenda_frame (heap : s.heap = q.heap) (actives : s.activeTimers = q.activeTimers) : s.agenda = q.agenda := by
  unfold TimerQueue.agenda
  rw [heap,actives]

theorem agenda_added {p : Nat} {t : Timer} (found : q.heap p = some t) :
    (q.added p t).agenda = Function.update q.agenda ⟨p,t.sequence⟩ (some t.expiration) := by
  rw [added_frame]
  funext id
  by_cases here : id = ⟨p,t.sequence⟩
  · subst here
    simp [TimerQueue.agenda,TimerQueue.link,TimerQueue.noted,found]
  · simp [TimerQueue.agenda,TimerQueue.link,TimerQueue.noted,here]

theorem agenda_missing {id : TimerId} (missing : ¬id ∈ q.activeTimers) : q.agenda = Function.update q.agenda id none := by
  funext other
  by_cases here : other = id
  · subst here
    simp [TimerQueue.agenda,missing]
  · simp [here]

theorem agenda_passedOver {id : TimerId} (missing : ¬id ∈ q.activeTimers) :
    (q.passedOver id).agenda = Function.update q.agenda id none := by
  rw [← agenda_missing missing,passedOver_frame]
  rfl

theorem agenda_cancelled (held : Held q hand) {id : TimerId} {t : Timer} (active : id ∈ q.activeTimers)
    (found : q.heap id.timer = some t) (number : t.sequence = id.sequence) :
    (q.cancelled id.timer t).agenda = Function.update q.agenda id none := by
  have same : (⟨id.timer,t.sequence⟩ : ActiveTimer) = id := by rw [number]
  funext other
  by_cases here : other = id
  · subst here
    simp [TimerQueue.agenda,TimerQueue.cancelled,TimerQueue.unlink,TimerQueue.freed,same]
  · simp only [TimerQueue.agenda,TimerQueue.cancelled,TimerQueue.unlink,TimerQueue.freed,same,OrderedSet.mem_erase,ne_eq,
      here,not_false_eq_true,true_and,Function.update_of_ne]
    by_cases listed : other ∈ q.activeTimers
    · -- two active timers never share an address
      have apart : other.timer ≠ id.timer := by
        intro at_id
        obtain ⟨u,there,otherNumber,_⟩ := held.active_found listed
        rw [at_id,found] at there
        cases there
        exact here (by cases other; cases id; simp_all)
      simp [listed,apart]
    · simp [listed]

theorem agenda_create (held : Held q hand) {p : Nat} (when : Int) (interval : ℚ) (free : q.heap p = none) :
    (q.create p when interval).agenda = q.agenda := by
  funext id
  by_cases active : id ∈ q.activeTimers
  · obtain ⟨t,found,_,_⟩ := held.active_found active
    have other : id.timer ≠ p := by
      rintro rfl
      rw [free] at found
      cases found
    simp [TimerQueue.agenda,TimerQueue.create,TimerQueue.store,active,other]
  · simp [TimerQueue.agenda,TimerQueue.create,TimerQueue.store,active]

theorem mem_batch (held : Held q hand) (numbered : Numbered q) (e : Entry) :
    e ∈ q.batch ↔ e ∈ q.timers ∧ e.expiration ≤ q.clock := by
  rw [TimerQueue.batch,OrderedSet.mem_below]
  refine and_congr_right fun listed => ?_
  obtain ⟨t,found,_⟩ := held.keyed e listed
  have low := (numbered.bounds e.timer t found).1
  constructor
  · intro less
    by_contra late
    exact absurd less (not_lt_of_ge ((Entry.le_def _ _).mpr (.inl (lt_of_not_ge late))))
  · intro early
    by_contra bound
    exact absurd (later_of_bound low (le_of_not_gt bound)) (not_lt_of_ge early)

theorem batch_increasing (q : TimerQueue) : q.batch.Pairwise (· < ·) :=
  q.timers.increasing.sublist (List.takeWhile_sublist _)

theorem agenda_collected (held : Held q hand) (numbered : Numbered q) (actives : OrderedSet ActiveTimer)
    (members : ∀ a, a ∈ actives ↔ a ∈ q.activeTimers ∧
      ∀ e ∈ q.batch, ∀ t, q.heap e.timer = some t → a ≠ ⟨e.timer,t.sequence⟩) :
    (q.collected q.clock actives).agenda = q.agendaAfter q.clock := by
  funext id
  by_cases active : id ∈ q.activeTimers
  · obtain ⟨t,found,number,listed⟩ := held.active_found active
    have kept : id ∈ actives ↔ q.clock < t.expiration := by
      rw [members]
      constructor
      · rintro ⟨_,unexpired⟩
        by_contra early
        exact unexpired _ ((mem_batch held numbered _).mpr ⟨listed,le_of_not_gt early⟩) t found (by simp [number])
      · intro late
        refine ⟨active,fun e due u there same => ?_⟩
        obtain ⟨inside,early⟩ := (mem_batch held numbered e).mp due
        have one : (⟨t.expiration,id.timer⟩ : Entry) = e :=
          held.entry_unique listed inside (congrArg ActiveTimer.timer same)
        rw [← one] at early
        exact absurd late (not_lt_of_ge early)
    by_cases late : q.clock < t.expiration
    · simp [TimerQueue.agenda,TimerQueue.agendaAfter,TimerQueue.collected,active,found,kept.mpr late,late,Option.filter]
    · simp [TimerQueue.agenda,TimerQueue.agendaAfter,TimerQueue.collected,active,found,kept,late,Option.filter]
  · have gone : ¬id ∈ actives := fun inside => active ((members id).mp inside).1
    simp [TimerQueue.agenda,TimerQueue.agendaAfter,TimerQueue.collected,active,gone]

/-- The state `s` in the middle of the batch that `q` began: what the callbacks have made
of the agenda, and the timers they have cancelled. -/
structure Calling (q s : TimerQueue) (agenda : Agenda) (cancelled : List TimerId) : Prop where
  sound : Sound s
  phase : ∃ done rest, s.phase = .calling q.clock done rest ∧ done ++ rest = q.batch ∧
    s.started = q.started ++ done.map q.idOf
  agenda : s.agenda = agenda
  noted : ∀ e ∈ q.batch, q.idOf e ∈ s.cancelingTimers ↔ q.idOf e ∈ cancelled
  batch : ∀ e ∈ q.batch, s.heap e.timer = q.heap e.timer
  others : ∀ p t, q.heap p = some t → p ∉ q.batch.map Entry.timer → ⟨p,t.sequence⟩ ∉ cancelled → s.heap p = some t
  deleted : ∀ a ∈ s.deleted, a ∈ q.deleted ∨ a ∈ cancelled

theorem calling_start (sound : Sound q) (move : TimerMove addTime q .handleRead s)
    (after : Sound s) : Calling q s (q.agendaAfter q.clock) [] := by
  cases move with
  | handleRead actives _ members =>
    have frame : q.readTimerfd = {q with timerfd := q.readTimerfd.timerfd} := readTimerfd_frame
    rw [frame] at after ⊢
    exact {
      sound := after
      phase := ⟨[],q.batch,rfl,rfl,by simp [TimerQueue.collected]⟩
      agenda := (agenda_frame rfl rfl).trans (agenda_collected sound.held sound.numbered actives members)
      noted := by simp [OrderedSet.empty,← OrderedSet.mem_toList]
      batch := fun _ _ => rfl
      others := fun _ _ found _ _ => found
      deleted := fun _ => .inl }

def TimerLabel.cancels : TimerLabel → List TimerId
  | .cancelInLoop id => [id]
  | _ => []

namespace Calling

variable {agenda : Agenda} {cancelled : List TimerId}

theorem inHand (calling : Calling q s agenda cancelled) {e : Entry} (due : e ∈ q.batch) :
    e ∈ s.phase.expired := by
  obtain ⟨done,rest,here,split,_⟩ := calling.phase
  rw [here]
  simpa [TimerPhase.expired,split] using due

/-- Nothing in the queue is at the address of an expired timer. -/
theorem apart (calling : Calling q s agenda cancelled) {e d : Entry} (due : e ∈ q.batch) (listed : d ∈ s.timers) :
    e.timer ≠ d.timer := by
  intro same
  refine List.disjoint_of_nodup_append calling.sound.held.pointers (List.mem_map_of_mem listed) ?_
  rw [← same]
  exact List.mem_map_of_mem (calling.inHand due)

theorem found (calling : Calling q s agenda cancelled) {e : Entry} (due : e ∈ q.batch) :
    ∃ t, s.heap e.timer = some t ∧ q.heap e.timer = some t := by
  obtain ⟨t,there,_⟩ := (calling.sound.held.live e.timer).mp
    (List.mem_append.mpr (.inr (List.mem_map_of_mem (calling.inHand due))))
  exact ⟨t,there,(calling.batch e due).symm.trans there⟩

theorem create (calling : Calling q s agenda cancelled) (p : Nat) (when : Int) (interval : ℚ)
    (free : s.heap p = none) (after : Sound (s.create p when interval)) :
    Calling q (s.create p when interval) agenda cancelled := by
  have other {r : Nat} {t : Timer} (there : s.heap r = some t) : (s.create p when interval).heap r = some t := by
    refine (heap_store _ _ _ _).mpr (.inr ⟨?_,there⟩)
    rintro rfl
    rw [free] at there
    cases there
  exact { calling with
    sound := after
    agenda := (agenda_create calling.sound.held when interval free).trans calling.agenda
    batch := fun e due => by
      obtain ⟨t,there,before⟩ := calling.found due
      rw [before]
      exact other there
    others := fun r t before outside kept => other (calling.others r t before outside kept) }

theorem add (calling : Calling q s agenda cancelled) (p : Nat) (t : Timer) (found : s.heap p = some t)
    (after : Sound (s.added p t)) :
    Calling q (s.added p t) (Edit.apply agenda (.add ⟨p,t.sequence⟩ t.expiration)) cancelled := by
  have scheduled := agenda_added found
  rw [calling.agenda] at scheduled
  rw [added_frame] at after scheduled ⊢
  exact { calling with sound := after, agenda := scheduled }

theorem cancel (calling : Calling q s agenda cancelled) (id : TimerId) (t : Timer) (active : id ∈ s.activeTimers)
    (found : s.heap id.timer = some t) (number : t.sequence = id.sequence)
    (listed : (⟨t.expiration,id.timer⟩ : Entry) ∈ s.timers) (after : Sound (s.cancelled id.timer t)) :
    Calling q (s.cancelled id.timer t) (Edit.apply agenda (.cancel id)) (cancelled ++ [id]) := by
  have scheduled := agenda_cancelled calling.sound.held active found number
  rw [calling.agenda] at scheduled
  refine { calling with
    sound := after
    agenda := scheduled
    noted := fun e due => ?_
    batch := fun e due => ?_
    others := fun p u before outside kept => ?_
    deleted := fun a dead => ?_ }
  · have other : q.idOf e ≠ id := fun same => calling.apart due listed (congrArg ActiveTimer.timer same)
    have before : q.idOf e ∈ s.cancelingTimers ↔ q.idOf e ∈ cancelled := calling.noted e due
    simp only [List.mem_append,List.mem_singleton,other,or_false]
    exact before
  · rw [← calling.batch e due]
    exact Function.update_of_ne (calling.apart due listed) _ _
  · obtain ⟨earlier,other⟩ : (⟨p,u.sequence⟩ : TimerId) ∉ cancelled ∧ (⟨p,u.sequence⟩ : TimerId) ≠ id := by
      simpa using kept
    have there := calling.others p u before outside earlier
    refine (heap_freed _ _ _).mpr ⟨?_,there⟩
    rintro rfl
    have there : s.heap id.timer = some u := there
    rw [found] at there
    cases there
    exact other (by rw [number])
  · rcases List.mem_append.mp dead with old | new
    · exact (calling.deleted a old).imp_right (List.mem_append_left _)
    · rw [List.mem_singleton.mp new,number]
      exact .inr (List.mem_append_right _ (List.mem_singleton.mpr rfl))

theorem pass (calling : Calling q s agenda cancelled) (id : TimerId) (missing : ¬id ∈ s.activeTimers)
    (after : Sound (s.passedOver id)) :
    Calling q (s.passedOver id) (Edit.apply agenda (.cancel id)) (cancelled ++ [id]) := by
  have scheduled := agenda_passedOver missing
  rw [calling.agenda] at scheduled
  have busy : s.callingExpiredTimers = true := by
    obtain ⟨done,rest,here,_⟩ := calling.phase
    exact calling.sound.calling.mpr (by simp [here])
  have noted : s.passedOver id = {s with cancelingTimers := s.cancelingTimers.insert id} := by
    simp [TimerQueue.passedOver,busy]
  rw [noted] at after scheduled ⊢
  exact { calling with
    sound := after
    agenda := scheduled
    noted := fun e due => by
      rw [OrderedSet.mem_insert,calling.noted e due,List.mem_append,List.mem_singleton]
      exact Or.comm
    others := fun p t before outside kept => calling.others p t before outside fun old =>
      kept (List.mem_append_left _ old)
    deleted := fun a dead => (calling.deleted a dead).imp_right (List.mem_append_left _) }

theorem run (calling : Calling q s agenda cancelled) (now : Int) (done : List Entry) (e : Entry)
    (rest : List Entry) (t : Timer) (here : s.phase = .calling now done (e::rest)) (found : s.heap e.timer = some t)
    (after : Sound {s with phase := .calling now (done++[e]) rest, started := s.started ++ [⟨e.timer,t.sequence⟩]}) :
    Calling q {s with phase := .calling now (done++[e]) rest, started := s.started ++ [⟨e.timer,t.sequence⟩]}
      agenda cancelled := by
  obtain ⟨before,later,there,split,started⟩ := calling.phase
  rw [here] at there
  cases there
  have due : e ∈ q.batch := by simp [← split]
  have same : q.idOf e = ⟨e.timer,t.sequence⟩ := idOf_eq ((calling.batch e due).symm.trans found)
  exact { calling with
    sound := after
    agenda := (agenda_frame rfl rfl).trans calling.agenda
    phase := ⟨done++[e],rest,rfl,by simpa using split,by simp [started,same]⟩ }

theorem move (calling : Calling q s agenda cancelled) {l : TimerLabel} (move : TimerMove addTime s l u) (after : Sound u)
    (inside : l ≠ .finish) : Calling q u ((s.edit l).foldl Edit.apply agenda) (cancelled ++ l.cancels) := by
  cases move with
  | tick d =>
    simpa [TimerLabel.cancels,TimerQueue.edit] using ({ calling with
      sound := after, agenda := (agenda_frame rfl rfl).trans calling.agenda } : Calling q _ agenda cancelled)
  | create p when interval low free =>
    simpa [TimerLabel.cancels,TimerQueue.edit] using calling.create p when interval free after
  | add p t found fresh =>
    simpa [TimerLabel.cancels,TimerQueue.edit,found] using calling.add p t found after
  | cancel id t active found number listed =>
    simpa [TimerLabel.cancels,TimerQueue.edit] using calling.cancel id t active found number listed after
  | pass id missing => simpa [TimerLabel.cancels,TimerQueue.edit] using calling.pass id missing after
  | handleRead actives idle members =>
    obtain ⟨done,rest,here,_⟩ := calling.phase
    rw [idle] at here
    cases here
  | run now done e rest t here found =>
    simpa [TimerLabel.cancels,TimerQueue.edit] using calling.run now done e rest t here found after
  | finish now done u here loop => exact absurd rfl inside

theorem along (calling : Calling q s agenda cancelled) {ls : List TimerLabel} (run : Run (timerStep addTime) s ls u)
    (inside : .finish ∉ ls) :
    Calling q u ((edits addTime s ls).foldl Edit.apply agenda) (cancelled ++ ls.flatMap TimerLabel.cancels) := by
  induction run generalizing agenda cancelled with
  | nil s => simpa [edits] using calling
  | cons s l next ls u head tail ih =>
    obtain ⟨move,after⟩ := timerStep_sound addTime calling.sound head
    have now := calling.move move after (fun same => inside (by simp [same]))
    have rest := ih now (fun later => inside (List.mem_cons_of_mem _ later))
    simpa [edits,head,List.foldl_append,List.append_assoc] using rest

end Calling

theorem mem_cancels (ls : List TimerLabel) (id : TimerId) :
    id ∈ ls.flatMap TimerLabel.cancels ↔ .cancelInLoop id ∈ ls := by
  rw [List.mem_flatMap]
  constructor
  · rintro ⟨l,inside,cancels⟩
    cases l <;> simp [TimerLabel.cancels] at cancels
    rwa [cancels]
  · intro inside
    exact ⟨_,inside,by simp [TimerLabel.cancels]⟩

/-- Whether `reset` puts an expired timer back. -/
def TimerQueue.restarts (q : TimerQueue) (e : Entry) (t : Timer) : Prop :=
  t.repeats = true ∧ ¬(⟨e.timer,t.sequence⟩ : ActiveTimer) ∈ q.cancelingTimers

/-- What the loop of `reset` leaves of the expired timers. -/
structure ResetTo (addTime : Int → ℚ → Int) (now : Int) (q : TimerQueue) (expired : List Entry) (u : TimerQueue) :
    Prop where
  timers : ∀ e, e ∈ u.timers ↔ e ∈ q.timers ∨ ∃ d ∈ expired, ∃ t, q.heap d.timer = some t ∧ q.restarts d t ∧
    e = ⟨addTime now t.interval,d.timer⟩
  again : ∀ d ∈ expired, ∀ t, q.heap d.timer = some t → q.restarts d t →
    u.heap d.timer = some {t with expiration := addTime now t.interval}
  gone : ∀ d ∈ expired, ∀ t, q.heap d.timer = some t → ¬q.restarts d t →
    u.heap d.timer = none ∧ ⟨d.timer,t.sequence⟩ ∈ u.deleted
  deleted : ∀ a, a ∈ u.deleted → a ∈ q.deleted ∨
    ∃ d ∈ expired, ∃ t, q.heap d.timer = some t ∧ ¬q.restarts d t ∧ a = ⟨d.timer,t.sequence⟩
  grows : ∀ a ∈ q.deleted, a ∈ u.deleted

theorem restart_expiration {t : Timer} (repeats : t.repeats = true) (now : Int) :
    t.restart addTime now = {t with expiration := addTime now t.interval} := by
  simp [Timer.restart,repeats]

theorem resetTo_again {now : Int} {e : Entry} {t : Timer} (found : q.heap e.timer = some t) (restarts : q.restarts e t) :
    ResetTo addTime now q [e] (q.restarted addTime now e.timer t) := by
  refine ⟨fun d => ?_,fun d inside v there _ => ?_,fun d inside v there dropped => ?_,fun _ => .inl,fun _ dead => dead⟩
  · have linked : d ∈ (q.restarted addTime now e.timer t).timers ↔ d = ⟨addTime now t.interval,e.timer⟩ ∨ d ∈ q.timers := by
      simp [TimerQueue.restarted,TimerQueue.link,TimerQueue.store,restart_expiration restarts.1]
    simp [linked,found,restarts,or_comm]
  · cases List.mem_singleton.mp inside
    cases found.symm.trans there
    rw [← restart_expiration restarts.1]
    exact Function.update_self _ _ _
  · cases List.mem_singleton.mp inside
    cases found.symm.trans there
    exact absurd restarts dropped

theorem resetTo_drop {now : Int} {e : Entry} {t : Timer} (found : q.heap e.timer = some t) (finished : ¬q.restarts e t) :
    ResetTo addTime now q [e] (q.freed e.timer t) := by
  refine ⟨fun d => ?_,fun d inside v there restarts => ?_,fun d inside v there _ => ?_,fun a dead => ?_,
    fun _ => List.mem_append_left _⟩
  · simp [TimerQueue.freed,found,finished]
  · cases List.mem_singleton.mp inside
    cases found.symm.trans there
    exact absurd restarts finished
  · cases List.mem_singleton.mp inside
    cases found.symm.trans there
    exact ⟨Function.update_self _ _ _,List.mem_append_right _ (List.mem_singleton.mpr rfl)⟩
  · refine (List.mem_append.mp dead).imp_right fun new => ?_
    exact ⟨e,List.mem_singleton.mpr rfl,t,found,finished,List.mem_singleton.mp new⟩

/-- The loop handles one timer, and then the others at their own addresses. -/
theorem ResetTo.cons {now : Int} {v : TimerQueue} {e : Entry} {rest : List Entry} (first : ResetTo addTime now q [e] v)
    (after : ResetTo addTime now v rest u) (cancelingTimers : v.cancelingTimers = q.cancelingTimers)
    (later : ∀ d ∈ rest, v.heap d.timer = q.heap d.timer) (kept : u.heap e.timer = v.heap e.timer) :
    ResetTo addTime now q (e::rest) u := by
  have restarts (d : Entry) (t : Timer) : v.restarts d t ↔ q.restarts d t := by
    rw [TimerQueue.restarts,TimerQueue.restarts,cancelingTimers]
  have here : e ∈ [e] := List.mem_singleton.mpr rfl
  refine ⟨fun d => ?_,List.forall_mem_cons.mpr ⟨?_,?_⟩,List.forall_mem_cons.mpr ⟨?_,?_⟩,fun a dead => ?_,
    fun a dead => after.grows a (first.grows a dead)⟩
  · simp only [after.timers,first.timers,List.exists_mem_cons_iff,List.not_mem_nil,false_and,exists_false,or_false,or_assoc]
    refine or_congr_right (or_congr_right (exists_congr fun c => and_congr_right fun inside => ?_))
    simp only [later c inside,restarts]
  · intro t found again
    rw [kept]
    exact first.again e here t found again
  · intro d inside t found again
    exact after.again d inside t ((later d inside).trans found) ((restarts d t).mpr again)
  · intro t found dropped
    obtain ⟨free,dead⟩ := first.gone e here t found dropped
    exact ⟨kept.trans free,after.grows _ dead⟩
  · intro d inside t found dropped
    exact after.gone d inside t ((later d inside).trans found) ((restarts d t).not.mpr dropped)
  · rcases after.deleted a dead with old | ⟨d,inside,t,found,dropped,rfl⟩
    · refine (first.deleted a old).imp_right fun ⟨d,inside,new⟩ => ?_
      exact ⟨d,List.mem_cons.mpr (.inl (List.mem_singleton.mp inside)),new⟩
    · exact .inr ⟨d,List.mem_cons_of_mem _ inside,t,later d inside ▸ found,(restarts d t).not.mp dropped,rfl⟩

theorem resetRun_to {now : Int} {q u : TimerQueue} {expired : List Entry} (run : ResetRun addTime now q expired u)
    (distinct : (expired.map Entry.timer).Nodup) : ResetTo addTime now q expired u := by
  induction run with
  | nil q => exact ⟨by simp,by simp,by simp,fun _ => .inl,fun _ dead => dead⟩
  | again q u e rest t found repeats kept tail ih =>
    obtain ⟨absent,distinct⟩ := List.nodup_cons.mp distinct
    have other (d : Entry) (later : d ∈ rest) : d.timer ≠ e.timer := fun same => absent (same ▸ List.mem_map_of_mem later)
    exact (resetTo_again found ⟨repeats,kept⟩).cons (ih distinct) rfl
      (fun d later => Function.update_of_ne (other d later) _ _) (heap_reset addTime tail e.timer other)
  | drop q u e rest t found finished tail ih =>
    obtain ⟨absent,distinct⟩ := List.nodup_cons.mp distinct
    have other (d : Entry) (later : d ∈ rest) : d.timer ≠ e.timer := fun same => absent (same ▸ List.mem_map_of_mem later)
    exact (resetTo_drop found fun restarts => restarts.2 (finished restarts.1)).cons (ih distinct) rfl
      (fun d later => Function.update_of_ne (other d later) _ _) (heap_reset addTime tail e.timer other)

/-- The state at the end of the batch that `q` began, with the labels in between. -/
structure Processed (addTime : Int → ℚ → Int) (q : TimerQueue) (ls : List TimerLabel) (u : TimerQueue) : Prop where
  sound : Sound u
  idle : u.phase = .idle
  started : u.started = q.started ++ q.batch.map q.idOf
  timers : ∀ e, e ∈ u.timers ↔
    (∃ n, (edits addTime q (.handleRead::ls)).foldl Edit.apply (q.agendaAfter q.clock) ⟨e.timer,n⟩ = some e.expiration) ∨
    ∃ d ∈ q.batch, ∃ t, q.heap d.timer = some t ∧ t.repeats = true ∧ .cancelInLoop (q.idOf d) ∉ ls ∧
      e = ⟨addTime q.clock t.interval,d.timer⟩
  again : ∀ d ∈ q.batch, ∀ t, q.heap d.timer = some t → t.repeats = true → .cancelInLoop (q.idOf d) ∉ ls →
    u.heap d.timer = some {t with expiration := addTime q.clock t.interval}
  gone : ∀ d ∈ q.batch, ∀ t, q.heap d.timer = some t → (t.repeats = true → .cancelInLoop (q.idOf d) ∈ ls) →
    u.heap d.timer = none ∧ q.idOf d ∈ u.deleted
  others : ∀ p t, q.heap p = some t → p ∉ q.batch.map Entry.timer → .cancelInLoop ⟨p,t.sequence⟩ ∉ ls → u.heap p = some t
  deleted : ∀ a ∈ u.deleted, a ∈ q.deleted ∨ .cancelInLoop a ∈ ls ∨
    ∃ d ∈ q.batch, a = q.idOf d ∧ ∀ t, q.heap d.timer = some t → t.repeats = true → .cancelInLoop a ∈ ls

theorem calling_begun (sound : Sound q) {ls : List TimerLabel}
    (run : Run (timerStep addTime) q (.handleRead::ls) s) (inside : .finish ∉ ls) :
    Calling q s ((edits addTime q (.handleRead::ls)).foldl Edit.apply (q.agendaAfter q.clock))
      (ls.flatMap TimerLabel.cancels) := by
  cases run with
  | cons _ _ next _ _ head tail =>
    obtain ⟨move,after⟩ := timerStep_sound addTime sound head
    have batch := (calling_start sound move after).along tail inside
    simpa [edits,head,TimerQueue.edit] using batch

theorem calling_finished {agenda : Agenda} {cancelled : List TimerId} (calling : Calling q s agenda cancelled)
    (ok : timerStep addTime s .finish = some u) :
    Sound u ∧ u.phase = .idle ∧ u.started = q.started ++ q.batch.map q.idOf ∧ ResetTo addTime q.clock s q.batch u ∧
      ∀ p, p ∉ q.batch.map Entry.timer → u.heap p = s.heap p := by
  obtain ⟨move,after⟩ := timerStep_sound addTime calling.sound ok
  obtain ⟨done,rest,here,split,started⟩ := calling.phase
  cases move with
  | finish now all v there loop =>
    rw [here] at there
    cases there
    rw [List.append_nil] at split
    subst split
    have distinct : (q.batch.map Entry.timer).Nodup := by
      have pointers := calling.sound.held.pointers
      rw [here] at pointers
      simpa [TimerPhase.expired] using (List.nodup_append.mp pointers).2.1
    have loop : ResetRun addTime q.clock {s with callingExpiredTimers := false} q.batch v := loop
    have reset := resetRun_to loop distinct
    have frame := resetRun_frame addTime loop
    have outside (p : Nat) (other : p ∉ q.batch.map Entry.timer) : v.heap p = s.heap p :=
      heap_reset addTime loop p fun e due same => other (same ▸ List.mem_map_of_mem due)
    rw [rearmed_frame] at after ⊢
    refine ⟨after,rfl,?_,⟨reset.timers,reset.again,reset.gone,reset.deleted,reset.grows⟩,outside⟩
    rw [frame]
    exact started

theorem restarts_iff {agenda : Agenda} {ls : List TimerLabel} (calling : Calling q s agenda (ls.flatMap TimerLabel.cancels))
    {d : Entry} (due : d ∈ q.batch) {t : Timer} (found : q.heap d.timer = some t) :
    s.restarts d t ↔ t.repeats = true ∧ .cancelInLoop (q.idOf d) ∉ ls := by
  have noted := calling.noted d due
  rw [mem_cancels,idOf_eq found] at noted
  rw [TimerQueue.restarts,noted,idOf_eq found]

theorem batch_processed (sound : Sound q) {ls : List TimerLabel} (inside : .finish ∉ ls)
    (run : Run (timerStep addTime) q (.handleRead::ls) s) (ok : timerStep addTime s .finish = some u) :
    Processed addTime q ls u := by
  have calling := calling_begun sound run inside
  obtain ⟨after,idle,started,reset,outside⟩ := calling_finished calling ok
  have heap {d : Entry} (due : d ∈ q.batch) : s.heap d.timer = q.heap d.timer := calling.batch d due
  refine ⟨after,idle,started,fun e => ?_,fun d due t found repeats kept => ?_,fun d due t found finished => ?_,
    fun p t found other kept => ?_,fun a dead => ?_⟩
  · rw [reset.timers,calling.sound.held.mem_timers,calling.agenda]
    refine or_congr_right (exists_congr fun d => and_congr_right fun due => exists_congr fun t => ?_)
    rw [heap due]
    refine and_congr_right fun found => ?_
    rw [restarts_iff calling due found,and_assoc]
  · exact reset.again d due t ((heap due).trans found) ((restarts_iff calling due found).mpr ⟨repeats,kept⟩)
  · rw [idOf_eq found] at finished ⊢
    refine reset.gone d due t ((heap due).trans found) fun restarts => ?_
    obtain ⟨repeats,kept⟩ := (restarts_iff calling due found).mp restarts
    rw [idOf_eq found] at kept
    exact kept (finished repeats)
  · rw [outside p other]
    refine calling.others p t found other fun cancels => kept ((mem_cancels _ _).mp cancels)
  · rcases reset.deleted a dead with old | ⟨d,due,t,there,dropped,rfl⟩
    · rcases calling.deleted a old with before | cancels
      · exact .inl before
      · exact .inr (.inl ((mem_cancels _ _).mp cancels))
    · have found := (heap due).symm.trans there
      refine .inr (.inr ⟨d,due,(idOf_eq found).symm,fun v same repeats => ?_⟩)
      rw [found] at same
      cases same
      by_contra kept
      exact dropped ((restarts_iff calling due found).mpr ⟨repeats,by rwa [idOf_eq found]⟩)

/-- With callbacks that return, the batch comes to its end. -/
theorem batch_ends (sound : Sound s) {now : Int} {done rest : List Entry} (here : s.phase = .calling now done rest) :
    ∃ u, Run (timerStep addTime) s (List.replicate rest.length .run ++ [.finish]) u := by
  induction rest generalizing s done with
  | nil =>
    exact ⟨_,.single (by simp only [timerStep,sound.fine,here]; rfl)⟩
  | cons e rest ih =>
    have ok : timerStep addTime s .run = some (s.settle (s.run now done e rest)) := by
      simp [timerStep,sound.fine,here]
    obtain ⟨move,after⟩ := timerStep_sound addTime sound ok
    generalize s.settle (s.run now done e rest) = v at ok move after
    cases move with
    | run now' done' e' rest' t there found =>
      rw [here] at there
      cases there
      obtain ⟨u,later⟩ := ih after rfl
      exact ⟨u,.cons _ _ _ _ _ ok later⟩

/-- One call of `handleRead`. It starts the callbacks of exactly the entries that are due,
in order; whatever the callbacks add and cancel, it comes to an end if they do; and then
the queue is what the callbacks made of the entries that were not due, with the repeating
timers of the batch that were not cancelled put back. -/
theorem handleRead_batch (q : TimerQueue) (sound : Sound q) (idle : q.phase = .idle) :
    (∀ e, e ∈ q.batch ↔ e ∈ q.timers ∧ e.expiration ≤ q.clock) ∧ q.batch.Pairwise (· < ·) ∧
      (∃ s, timerStep addTime q .handleRead = some s) ∧
      (∀ ls s, .finish ∉ ls → Run (timerStep addTime) q (.handleRead::ls) s →
        ∃ k u, Run (timerStep addTime) s (List.replicate k .run ++ [.finish]) u) ∧
      ∀ ls u, .finish ∉ ls → Run (timerStep addTime) q (.handleRead::(ls++[.finish])) u →
        Processed addTime q ls u := by
  refine ⟨mem_batch sound.held sound.numbered,batch_increasing q,?_,fun ls s inside run => ?_,fun ls u inside run => ?_⟩
  · exact ⟨_,by simp only [timerStep,sound.fine,idle]; rfl⟩
  · have calling := calling_begun sound run inside
    obtain ⟨done,rest,here,_⟩ := calling.phase
    exact ⟨rest.length,batch_ends calling.sound here⟩
  · rw [← List.cons_append] at run
    obtain ⟨s,first,last⟩ := run.split
    cases last with
    | cons _ _ _ _ _ head tail =>
      cases tail with
      | nil => exact batch_processed sound inside first head

/-- Timers 1, 2 and 3 are due. The callback of the repeating timer 1 adds timer 4, which is
due at once, and cancels timers 2 and 5; timer 2 repeats as well, and timer 5 is not due. -/
private def beforeBatch : List TimerLabel :=
  [.create 1 50 (1/1000),.addTimerInLoop 1,.create 2 50 (1/1000),.addTimerInLoop 2,.create 3 40 0,.addTimerInLoop 3,
    .create 5 900 0,.addTimerInLoop 5,.tick 200]

private def inBatch : List TimerLabel :=
  [.run,.run,.create 4 60 0,.addTimerInLoop 4,.cancelInLoop ⟨2,2⟩,.cancelInLoop ⟨5,4⟩,.tick 10,.run]

theorem handleRead_batch_mixed :
    let q := final (timerStep wholeMicroseconds) (newTimerQueue 10) beforeBatch
    let u := final (timerStep wholeMicroseconds) (newTimerQueue 10) (beforeBatch ++ TimerLabel.handleRead::(inBatch ++ [.finish]))
    u.started = [⟨3,3⟩,⟨1,1⟩,⟨2,2⟩] ∧ u.timers.toList = [⟨60,4⟩,⟨1210,1⟩] ∧ Processed wholeMicroseconds q inBatch u := by
  intro q u
  have reached : Reachable NewTimerQueue (timerStep wholeMicroseconds) q :=
    ⟨_,beforeBatch,⟨10,rfl⟩,final_run _ _ _ (by decide +kernel)⟩
  have sound := sound_reached wholeMicroseconds reached
  have idle : q.phase = .idle := by decide +kernel
  have run := final_append (timerStep wholeMicroseconds) (newTimerQueue 10) beforeBatch
    (.handleRead::(inBatch ++ [.finish])) (by decide +kernel)
  exact ⟨by decide +kernel,by decide +kernel,(handleRead_batch q sound idle).2.2.2.2 inBatch u (by decide) run⟩

end Reactor.Net
