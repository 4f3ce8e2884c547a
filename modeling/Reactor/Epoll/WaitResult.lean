import Reactor.Epoll.ScanResult

/-! What `ep_poll` returns. A call is followed from one thread: what any step makes of
that thread, what the call keeps of its arguments, and which scan is its own. -/
namespace Reactor.Epoll
open Reactor.Transition Reactor.Threaded

def WaitLabel.thread : WaitLabel → Option Nat
  | .file _ => none
  | .epollWait t _ _ | .check t | .fetch t | .expire t | .signal t | .stray t | .turn t | .scanStart t | .scanEnd t => some t

/-- What a step makes of thread `t`. -/
inductive WaiterMove (s : Waiting) (t : Nat) : WaitLabel → Waiter → Prop
  | rest (l : WaitLabel) (apart : l.thread ≠ some t) : WaiterMove s t l (s.threads t)
  | woken (l : WaitLabel) (asleep : (s.threads t).pc = .asleep) : WaiterMove s t l {s.threads t with pc := .woken}
  | epollWait (maxevents : Nat) (timeout : Int) : WaiterMove s t (.epollWait t maxevents timeout) (.epPoll maxevents timeout)
  | check (here : (s.threads t).pc = .check) :
      WaiterMove s t (.check t) ((s.threads t).checkEvents (epEventsAvailable s.ep))
  | found (here : (s.threads t).pc = .fetch) (available : epEventsAvailable s.ep = true) :
      WaiterMove s t (.fetch t) ((s.threads t).checkEvents true)
  | turn (l : WaitLabel) (here : (s.threads t).pc = .fetch ∧ l = .fetch t ∨ (s.threads t).pc = .woken ∧ l = .turn t) :
      WaiterMove s t l ((s.threads t).waitTurn (epEventsAvailable s.ep))
  | expire (limited : 0 < (s.threads t).timeout) : WaiterMove s t (.expire t) {(s.threads t).rouse with timedOut := true}
  | signal : WaiterMove s t (.signal t) {(s.threads t).rouse with signalPending := true}
  | stray : WaiterMove s t (.stray t) (s.threads t).rouse
  | send (here : (s.threads t).pc = .send) : WaiterMove s t (.scanStart t) {s.threads t with pc := .sending}
  | sent (here : (s.threads t).pc = .sending) : WaiterMove s t (.scanEnd t) ((s.threads t).sent s.ep.scanResult)

theorem advance_thread (s : Waiting) (l : Label) (ep : Eventpoll) (t : Nat) :
    (s.advance l ep).threads t = s.threads t ∨
      (s.threads t).pc = .asleep ∧ (s.advance l ep).threads t = {s.threads t with pc := .woken} := by
  unfold Waiting.advance
  split
  · exact wakeUp_thread {s with ep := ep} t
  · exact .inl rfl

private theorem waiterMove_set {s : Waiting} {t other : Nat} {l : WaitLabel} (w : Waiter) (about : l.thread = some other)
    (own : t = other → WaiterMove s t l w) : WaiterMove s t l ((s.setThread other w).threads t) := by
  by_cases same : t = other
  · subst same
    rw [setThread_self]
    exact own rfl
  · rw [setThread_other s other t w same]
    exact .rest l (by simpa [about] using Ne.symm same)

theorem waiter_move (s u : Waiting) (l : WaitLabel) (t : Nat) (ok : waitStep s l = some u) :
    WaiterMove s t l (u.threads t) := by
  cases l with
  | file l =>
    simp only [waitStep] at ok
    split at ok
    · cases ok
    · obtain ⟨ep,moved,rfl⟩ := Option.map_eq_some_iff.mp ok
      rcases advance_thread s l ep t with same | ⟨asleep,woken⟩
      · rw [same]
        exact .rest _ (by simp [WaitLabel.thread])
      · rw [woken]
        exact .woken _ asleep
  | epollWait other maxevents timeout =>
    obtain ⟨_,⟨⟩⟩ := Option.ite_none_right_eq_some.mp ok
    exact waiterMove_set _ rfl (by rintro rfl; exact .epollWait maxevents timeout)
  | check other =>
    obtain ⟨here,⟨⟩⟩ := Option.ite_none_right_eq_some.mp ok
    exact waiterMove_set _ rfl (by rintro rfl; exact .check here)
  | fetch other =>
    obtain ⟨here,⟨⟩⟩ := Option.ite_none_right_eq_some.mp ok
    unfold Waiting.fetch
    split
    next available => exact waiterMove_set _ rfl (by rintro rfl; exact .found here available)
    next => exact waiterMove_set _ rfl (by rintro rfl; exact .turn _ (.inl ⟨here,rfl⟩))
  | expire other =>
    obtain ⟨⟨_,limited⟩,⟨⟩⟩ := Option.ite_none_right_eq_some.mp ok
    exact waiterMove_set _ rfl (by rintro rfl; exact .expire limited)
  | signal other =>
    cases ok
    exact waiterMove_set _ rfl (by rintro rfl; exact .signal)
  | stray other =>
    cases ok
    exact waiterMove_set _ rfl (by rintro rfl; exact .stray)
  | turn other =>
    obtain ⟨here,⟨⟩⟩ := Option.ite_none_right_eq_some.mp ok
    exact waiterMove_set _ rfl (by rintro rfl; exact .turn _ (.inr ⟨here,rfl⟩))
  | scanStart other =>
    obtain ⟨here,ok⟩ := Option.ite_none_right_eq_some.mp ok
    obtain ⟨ep,started,rfl⟩ := Option.map_eq_some_iff.mp ok
    exact waiterMove_set _ rfl (by rintro rfl; exact .send here)
  | scanEnd other =>
    obtain ⟨here,ok⟩ := Option.ite_none_right_eq_some.mp ok
    obtain ⟨ep,ended,rfl⟩ := Option.map_eq_some_iff.mp ok
    rcases advance_thread (s.setThread other ((s.threads other).sent s.ep.scanResult)) .scanEnd ep t with
      same | ⟨asleep,woken⟩
    · rw [same]
      exact waiterMove_set _ rfl (by rintro rfl; exact .sent here)
    · have different : t ≠ other := by
        rintro rfl
        rw [setThread_self,Waiter.sent] at asleep
        split at asleep <;> cases asleep
      rw [setThread_other s other t _ different] at asleep woken
      rw [woken]
      exact .woken _ asleep

/-- The thread is inside the call `epoll_wait` with these arguments. -/
structure Waiter.InCall (m : Nat) (timeout : Int) (expired : Prop) (w : Waiter) : Prop where
  room : w.maxevents = m
  limit : w.timeout = timeout
  spent : w.timedOut = true → timeout = 0 ∨ 0 < timeout ∧ expired
  check : w.pc = .check → w.timedOut = true

section
variable {m t : Nat} {timeout : Int} {expired : Prop} {w v : Waiter} {s : Waiting} {l : WaitLabel}

theorem Waiter.InCall.keep (call : w.InCall m timeout expired) (room : v.maxevents = w.maxevents)
    (limit : v.timeout = w.timeout) (timedOut : v.timedOut = w.timedOut) (past : v.pc = .check → w.pc = .check) :
    v.InCall m timeout expired := by
  refine ⟨room.trans call.room,limit.trans call.limit,?_,?_⟩
  · rw [timedOut]
    exact call.spent
  · intro here
    rw [timedOut]
    exact call.check (past here)

theorem Waiter.InCall.checkEvents (call : w.InCall m timeout expired) (eavail : Bool) :
    (w.checkEvents eavail).InCall m timeout expired := by
  refine call.keep rfl rfl rfl ?_
  unfold Waiter.checkEvents
  split <;> simp

theorem Waiter.InCall.rouse (call : w.InCall m timeout expired) : w.rouse.InCall m timeout expired := by
  unfold Waiter.rouse
  split
  · exact call.keep rfl rfl rfl (by simp)
  · exact call

theorem Waiter.InCall.waitTurn (call : w.InCall m timeout expired) (eavail : Bool) :
    (w.waitTurn eavail).InCall m timeout expired := by
  unfold Waiter.waitTurn
  split
  · exact call.checkEvents eavail
  · split
    · have interrupted : Waiter.InCall m timeout expired {w with res := -eintr} := {call with}
      exact interrupted.checkEvents eavail
    · exact call.keep rfl rfl rfl (by simp)

theorem Waiter.InCall.move (call : (s.threads t).InCall m timeout expired) (move : WaiterMove s t l v)
    (same : ∀ k d, l ≠ .epollWait t k d) (expires : l = .expire t → expired) : v.InCall m timeout expired := by
  cases move with
  | rest => exact call
  | woken l asleep => exact call.keep rfl rfl rfl (by simp)
  | epollWait k d => exact absurd rfl (same k d)
  | check | found => exact call.checkEvents _
  | turn => exact call.waitTurn _
  | expire limited =>
    rw [call.limit] at limited
    have roused := call.rouse
    exact {roused with spent := fun _ => .inr ⟨limited,expires rfl⟩, check := fun _ => rfl}
  | signal => exact {call.rouse with}
  | stray => exact call.rouse
  | send here => exact call.keep rfl rfl rfl (by simp)
  | sent here =>
    refine call.keep rfl rfl rfl ?_
    unfold Waiter.sent
    split <;> simp

/-- From the call on, until the thread calls again. -/
theorem inCall_run {before first : Waiting} {ls : List WaitLabel}
    (called : waitStep before (.epollWait t m timeout) = some first) (run : Run waitStep first ls s)
    (same : ∀ k d, .epollWait t k d ∉ ls) : (s.threads t).InCall m timeout (.expire t ∈ ls) := by
  refine run.keeps (fun _ l => (∀ k d, l ≠ .epollWait t k d) ∧ (l = .expire t → .expire t ∈ ls))
    (fun s => (s.threads t).InCall m timeout (.expire t ∈ ls)) ?_ ?_ ?_
  · rintro s l u call ⟨same,expires⟩ ok
    exact call.move (waiter_move s u l t ok) same expires
  · apply along_of_forall waitStep _ first ls
    intro l member
    exact ⟨fun k d label => same k d (label ▸ member),fun label => label ▸ member⟩
  · obtain ⟨_,⟨⟩⟩ := Option.ite_none_right_eq_some.mp called
    rw [setThread_self]
    refine ⟨rfl,rfl,fun late => .inl (by simpa [Waiter.epPoll] using late),?_⟩
    unfold Waiter.epPoll
    split <;> simp_all

end

/-- A thread amid `ep_send_events` is the only one, and the scan in progress is its own. -/
def OwnScan (s : Waiting) : Prop :=
  ∀ t, (s.threads t).pc = .sending →
    (∃ scan, s.ep.mtx = .scan scan ∧ scan.maxevents = (s.threads t).maxevents) ∧
      ∀ other, (s.threads other).pc = .sending → other = t

/-- A thread that sends after a step did so before, unless the step is the start of its scan. -/
theorem WaiterMove.sending {s : Waiting} {t : Nat} {l : WaitLabel} {w : Waiter} (move : WaiterMove s t l w)
    (sending : w.pc = .sending) :
    (l = .scanStart t ∨ (s.threads t).pc = .sending ∧ l ≠ .scanEnd t) ∧ w.maxevents = (s.threads t).maxevents := by
  have roused (v : Waiter) (same : v.rouse.pc = .sending) : v.pc = .sending ∧ v.rouse.maxevents = v.maxevents := by
    unfold Waiter.rouse at same ⊢
    split at same
    · cases same
    · rename_i awake
      rw [if_neg awake]
      exact ⟨same,rfl⟩
  have checked (v : Waiter) (eavail : Bool) : (v.checkEvents eavail).pc ≠ .sending := by
    unfold Waiter.checkEvents
    split <;> simp
  cases move with
  | rest l apart =>
    refine ⟨.inr ⟨sending,?_⟩,rfl⟩
    rintro rfl
    exact apart rfl
  | woken => cases sending
  | epollWait k d =>
    unfold Waiter.epPoll at sending
    split at sending <;> cases sending
  | check | found => exact absurd sending (checked _ _)
  | turn =>
    unfold Waiter.waitTurn at sending
    split at sending
    · exact absurd sending (checked _ _)
    · split at sending
      · exact absurd sending (checked _ _)
      · cases sending
  | send here => exact ⟨.inl rfl,rfl⟩
  | expire | signal | stray =>
    obtain ⟨before,same⟩ := roused _ sending
    exact ⟨.inr ⟨before,by simp⟩,same⟩
  | sent here =>
    unfold Waiter.sent at sending
    split at sending <;> cases sending

theorem ownScan_step (s u : Waiting) (l : WaitLabel) (own : OwnScan s) (ok : waitStep s l = some u) : OwnScan u := by
  have before (t : Nat) (sending : (u.threads t).pc = .sending) :=
    (waiter_move s u l t ok).sending sending
  have starts (t : Nat) (same : l = .scanStart t) :
      s.ep.mtx = .free ∧ ∃ scan, u.ep.mtx = .scan scan ∧ scan.maxevents = (s.threads t).maxevents := by
    subst same
    cases ep_move s u _ ok with
    | same l ep apart => exact absurd rfl (apart t).1
    | scanStart t ep here started =>
      obtain ⟨⟨free,_⟩,same⟩ := Option.ite_none_right_eq_some.mp started
      rw [← Option.some.inj same]
      exact ⟨free,_,rfl,rfl⟩
  intro t sending
  obtain ⟨now | ⟨already,going⟩,room⟩ := before t sending
  · obtain ⟨free,scan,held,max⟩ := starts t now
    refine ⟨⟨scan,held,max.trans room.symm⟩,?_⟩
    intro other there
    obtain ⟨same | ⟨sends,_⟩,_⟩ := before other there
    · cases now.symm.trans same
      rfl
    · obtain ⟨⟨busy,scanning,_⟩,_⟩ := own other sends
      rw [free] at scanning
      cases scanning
  · obtain ⟨⟨scan,held,max⟩,alone⟩ := own t already
    have still : ∃ moved, u.ep.mtx = .scan moved ∧ moved.maxevents = scan.maxevents := by
      cases ep_move s u l ok with
      | same l ep apart kept => exact ⟨scan,by rw [kept,held],rfl⟩
      | file k ep inner moved =>
        exact scan_kept s.ep u.ep k scan (step_move s.ep u.ep k moved) held (by rintro rfl; cases inner)
      | scanStart other ep here started =>
        have free := (starts other rfl).1
        rw [held] at free
        cases free
      | scanEnd other ep here ended => exact absurd (by rw [alone other here]) going
    obtain ⟨moved,next,same⟩ := still
    refine ⟨⟨moved,next,by rw [same,max,room]⟩,?_⟩
    intro other there
    obtain ⟨started | ⟨sends,_⟩,_⟩ := before other there
    · have free := (starts other started).1
      rw [held] at free
      cases free
    · exact alone other sends

theorem ownScan_reached (s : Waiting) (reached : Reachable waitInitial waitStep s) : OwnScan s := by
  apply reached.invariant OwnScan
  · rintro s ⟨_,_,outside⟩ t sending
    simp [outside] at sending
  · exact fun s l u own ok => ownScan_step s u l own ok

theorem Scan.result_cases (scan : Scan) (bounded : scan.eventcnt ≤ scan.maxevents) :
    scan.result = -efault ∨ 0 ≤ scan.result ∧ scan.result ≤ scan.maxevents := by
  unfold Scan.result
  split
  · split
    · exact .inl rfl
    · exact .inr ⟨by omega,by omega⟩
  · exact .inr ⟨by omega,by omega⟩

/-- The scan that ends is that of the thread, and its result keeps to the thread's `maxevents`. -/
theorem sent_result (s : Waiting) (t : Nat) (reached : Reachable waitInitial waitStep s)
    (here : (s.threads t).pc = .sending) :
    s.ep.scanResult = -efault ∨ 0 ≤ s.ep.scanResult ∧ s.ep.scanResult ≤ (s.threads t).maxevents := by
  obtain ⟨⟨scan,held,max⟩,_⟩ := ownScan_reached s reached t here
  have bounded := bounded_reached s.ep (waiting_reached s reached) scan held
  have few : scan.eventcnt ≤ scan.maxevents := by
    unfold Scan.Bounded at bounded
    split at bounded <;> omega
  rw [Eventpoll.scanResult,held,← max]
  exact scan.result_cases few

theorem Waiter.waitTurn_outside (w : Waiter) (eavail : Bool) (zero : w.res = 0)
    (out : (w.waitTurn eavail).pc = .outside) :
    eavail = false ∧ ((w.waitTurn eavail).res = 0 ∧ w.timedOut = true ∨ (w.waitTurn eavail).res = -eintr) := by
  cases eavail with
  | true => simp [Waiter.waitTurn,Waiter.checkEvents,zero] at out
  | false =>
    refine ⟨rfl,?_⟩
    cases late : w.timedOut with
    | true => exact .inl ⟨by simp [Waiter.waitTurn,Waiter.checkEvents,late,zero],rfl⟩
    | false =>
      right
      cases pending : w.signalPending with
      | true => simp [Waiter.waitTurn,Waiter.checkEvents,late,pending]
      | false => simp [Waiter.waitTurn,late,pending] at out

/-- The three ways out of `ep_poll`. -/
inductive Returns (s : Waiting) (t : Nat) : WaitLabel → Int → Prop
  | timedOut (l : WaitLabel) (late : (s.threads t).timedOut = true) : Returns s t l 0
  | interrupted (l : WaitLabel) (loop : l = .fetch t ∨ l = .turn t) (nothing : epEventsAvailable s.ep = false) :
      Returns s t l (-eintr)
  | sent (here : (s.threads t).pc = .sending)
      (late : s.ep.scanResult = 0 → (s.threads t).timedOut = true) : Returns s t (.scanEnd t) s.ep.scanResult

theorem WaiterMove.returns {s : Waiting} {t : Nat} {l : WaitLabel} {w : Waiter} (move : WaiterMove s t l w)
    (inside : (s.threads t).pc ≠ .outside) (out : w.pc = .outside)
    (unset : (s.threads t).pc.early = true → (s.threads t).res = 0)
    (late : (s.threads t).pc = .check → (s.threads t).timedOut = true) : Returns s t l w.res := by
  have roused (v : Waiter) (gone : v.rouse.pc = .outside) : v.pc = .outside := by
    unfold Waiter.rouse at gone
    split at gone
    · cases gone
    · exact gone
  cases move with
  | rest => exact absurd out inside
  | expire | signal | stray => exact absurd (roused _ out) inside
  | woken | send => cases out
  | epollWait k d =>
    unfold Waiter.epPoll at out
    split at out <;> cases out
  | check here =>
    rw [show ((s.threads t).checkEvents _).res = 0 from unset (by rw [here]; rfl)]
    exact .timedOut _ (late here)
  | found here available =>
    have zero := unset (by rw [here]; rfl)
    simp [Waiter.checkEvents,zero] at out
  | turn l here =>
    have zero : (s.threads t).res = 0 := by
      apply unset
      rcases here with ⟨here,_⟩ | ⟨here,_⟩ <;> rw [here] <;> rfl
    obtain ⟨nothing,⟨none,late⟩ | failed⟩ := (s.threads t).waitTurn_outside _ zero out
    · rw [none]
      exact .timedOut l late
    · rw [failed]
      exact .interrupted l (here.imp And.right And.right) nothing
  | sent here =>
    refine .sent here fun none => ?_
    by_contra early
    simp [Waiter.sent,none,early] at out

/-- Any call of `ep_poll` that returns: it returns 0 only once its timeout, if it has
one, is over; EINTR only from the wait loop, whose last look under `ep->lock` found
nothing, and with no scan after that; and otherwise EFAULT or at most `maxevents`. -/
theorem ep_poll_returns (before first s u : Waiting) (t m : Nat) (timeout : Int) (ls : List WaitLabel) (l : WaitLabel)
    (reached : Reachable waitInitial waitStep before) (called : waitStep before (.epollWait t m timeout) = some first)
    (run : Run waitStep first ls s) (same : ∀ k d, .epollWait t k d ∉ ls) (inside : (s.threads t).pc ≠ .outside)
    (ok : waitStep s l = some u) (returned : (u.threads t).pc = .outside) :
    ((u.threads t).res = 0 → timeout = 0 ∨ 0 < timeout ∧ .expire t ∈ ls) ∧
    (timeout < 0 → (u.threads t).res ≠ 0) ∧
    ((u.threads t).res = -eintr →
      (l = .fetch t ∨ l = .turn t) ∧ epEventsAvailable s.ep = false ∧ u.ep = s.ep) ∧
    (0 < (u.threads t).res → (u.threads t).res ≤ m) ∧
    (0 ≤ (u.threads t).res ∨ (u.threads t).res = -eintr ∨ (u.threads t).res = -efault) := by
  have later := (reached.step called).run run
  have call := inCall_run called run same
  have how := (waiter_move s u l t ok).returns inside returned ((attended_reached s later).unset t) call.check
  have endless (negative : timeout < 0) : ¬(s.threads t).timedOut = true := by
    intro late
    rcases call.spent late with none | ⟨positive,_⟩ <;> omega
  generalize (u.threads t).res = res at how ⊢
  cases how with
  | timedOut l late =>
    exact ⟨fun _ => call.spent late,fun negative => absurd late (endless negative),by simp [eintr],by simp,by simp⟩
  | interrupted l loop nothing =>
    have kept : u.ep = s.ep := by
      cases ep_move s u l ok with
      | same l ep apart kept => exact kept
      | _ => simp at loop
    exact ⟨by simp [eintr],by simp [eintr],fun _ => ⟨loop,nothing,kept⟩,by simp [eintr],.inr (.inl rfl)⟩
  | sent here late =>
    have bounds := sent_result s t later here
    rw [call.room] at bounds
    refine ⟨fun none => call.spent (late none),fun negative none => endless negative (late none),?_,?_,?_⟩
    · intro interrupted
      rw [interrupted] at bounds
      rcases bounds with same | ⟨positive,_⟩
      · exact absurd same (by decide)
      · exact absurd positive (by decide)
    · intro positive
      rcases bounds with fault | ⟨_,few⟩
      · rw [fault] at positive
        exact absurd positive (by decide)
      · exact few
    · rcases bounds with fault | ⟨some,_⟩
      · exact .inr (.inr fault)
      · exact .inl some

def watched : List WaitLabel := (inserting 0 pollIn 0).map .file

/-- Thread 1 takes the event thread 0 was woken for; thread 0 scans in vain and waits again. -/
def outrun : List WaitLabel :=
  [.fetch 0,.file (.callback 0 0 1),.turn 0,.epollWait 1 1 0,.check 1,.scanStart 1,.file .proc,.file .proc,.file .proc,
    .file (.poll 0 pollIn),.file (.copy 0),.file .proc,.file .proc,.file .proc,.file .proc,.scanEnd 1,.scanStart 0,
    .file .proc,.file .proc,.file .proc,.file (.poll 0 0),.file .proc,.scanEnd 0,.fetch 0,.expire 0]

theorem ep_poll_returns_outrun :
    ((final waitStep unattended (watched ++ [.epollWait 0 1 1000] ++ outrun ++ [.turn 0])).threads 0).res = 0 ∧
    ((1000 : Int) = 0 ∨ (0 : Int) < 1000 ∧ .expire 0 ∈ outrun) :=
  ⟨by decide,(ep_poll_returns (final waitStep unattended watched) _ _ _ 0 1 1000 outrun (.turn 0)
    ⟨unattended,watched,⟨zeroed_epAlloc,rfl,fun _ => rfl⟩,final_run waitStep unattended watched (by decide)⟩
    (final_step _ _ _ _ (by decide)) (final_append _ _ _ _ (by decide)) (by simp [outrun]) (by decide)
    (final_step _ _ _ _ (by decide)) (by decide)).1 (by decide)⟩

end Reactor.Epoll
