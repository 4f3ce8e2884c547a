import Reactor.Epoll.Item

/-! `ep_poll`: any number of threads wait on `ep->wq` of one eventpoll. The eventpoll
moves by its own steps; a section of `ep_poll` under `ep->lock` is one step of the
thread. Waiters are exclusive, so a wake-up is for one of them, and that one has to
see to all that is ready. -/
namespace Reactor.Epoll
open Reactor.Transition Reactor.Threaded

inductive WaitPc
  | outside
  | check
  | fetch
  | asleep
  | woken
  | send
  | sending
  deriving DecidableEq, Repr

structure Waiter where
  pc : WaitPc
  maxevents : Nat
  timeout : Int
  timedOut : Bool
  signalPending : Bool
  res : Int
  deriving DecidableEq, Repr

structure Waiting where
  ep : Eventpoll
  wq : List Nat
  threads : Nat → Waiter

def epEventsAvailable (ep : Eventpoll) : Bool := ep.rdllist ≠ [] || ep.ovflist ≠ .unlinked

def Waiter.epPoll (maxevents : Nat) (timeout : Int) : Waiter :=
  ⟨if timeout = 0 then .check else .fetch,maxevents,timeout,timeout = 0,false,0⟩

def Waiter.checkEvents (w : Waiter) (eavail : Bool) : Waiter :=
  {w with pc := if w.res = 0 ∧ eavail then .send else .outside}

def Waiter.waitTurn (w : Waiter) (eavail : Bool) : Waiter :=
  if eavail || w.timedOut then w.checkEvents eavail
  else if w.signalPending then {w with res := -eintr}.checkEvents eavail
  else {w with pc := .asleep}

def Scan.result (scan : Scan) : Int :=
  match scan.pc with
  | .done true => if scan.eventcnt = 0 then -efault else scan.eventcnt
  | _ => scan.eventcnt

def Eventpoll.scanResult (ep : Eventpoll) : Int :=
  match ep.mtx with
  | .scan scan => scan.result
  | _ => 0

def Waiter.sent (w : Waiter) (res : Int) : Waiter :=
  {w with pc := if res = 0 ∧ w.timedOut = false then .fetch else .outside, res := res}

/-- Whether the section under `ep->lock` calls `wake_up_locked` on `ep->wq`; `t` is
the eventpoll it leaves. -/
def wakes (ep : Eventpoll) (l : Label) (t : Eventpoll) : Bool :=
  match l with
  | .callback epi _ key => ep.accepts epi key && ep.ovflist = .unlinked
  | .insertPublish _ => queuesAtInsert ep
  | .scanEnd => t.rdllist ≠ []
  | _ => false

namespace Waiting

def setThread (s : Waiting) (t : Nat) (w : Waiter) : Waiting :=
  {s with threads := Function.update s.threads t w}

/-- One waiter is woken, the first that still sleeps. -/
def wakeUpLocked (s : Waiting) : Waiting :=
  match s.wq.find? fun t => (s.threads t).pc = .asleep with
  | some t => s.setThread t {s.threads t with pc := .woken}
  | none => s

def advance (s : Waiting) (l : Label) (ep : Eventpoll) : Waiting :=
  if wakes s.ep l ep then {s with ep := ep}.wakeUpLocked else {s with ep := ep}

def turn (s : Waiting) (t : Nat) : Waiting :=
  let w := (s.threads t).waitTurn (epEventsAvailable s.ep)
  {s.setThread t w with wq := if w.pc = .asleep then s.wq else s.wq.erase t}

def fetch (s : Waiting) (t : Nat) : Waiting :=
  if epEventsAvailable s.ep then s.setThread t ((s.threads t).checkEvents true)
  else {s with wq := s.wq ++ [t]}.turn t

end Waiting

/-- The steps: `file` is one of the eventpoll that is not the start or the end of a
scan; the others are those of a thread, with what the timer, a signal or a stray
wake-up does to it. -/
inductive WaitLabel
  | file (l : Label)
  | epollWait (t maxevents : Nat) (timeout : Int)
  | check (t : Nat)
  | fetch (t : Nat)
  | expire (t : Nat)
  | signal (t : Nat)
  | stray (t : Nat)
  | turn (t : Nat)
  | scanStart (t : Nat)
  | scanEnd (t : Nat)
  deriving DecidableEq, Repr

def Label.delimits : Label → Bool
  | .scanStart _ | .scanEnd => true
  | _ => false

def Waiter.rouse (w : Waiter) : Waiter := if w.pc = .asleep then {w with pc := .woken} else w

theorem rouse_res (w : Waiter) : w.rouse.res = w.res := by
  unfold Waiter.rouse
  split <;> rfl

def waitStep (s : Waiting) : WaitLabel → Option Waiting
  | .file l =>
    if l.delimits then none else (step s.ep l).map (s.advance l)
  | .epollWait t maxevents timeout =>
    if (s.threads t).pc = .outside ∧ 0 < maxevents then some (s.setThread t (.epPoll maxevents timeout))
    else none
  | .check t =>
    if (s.threads t).pc = .check then
      some (s.setThread t ((s.threads t).checkEvents (epEventsAvailable s.ep)))
    else none
  | .fetch t => if (s.threads t).pc = .fetch then some (s.fetch t) else none
  | .expire t =>
    if ((s.threads t).pc = .asleep ∨ (s.threads t).pc = .woken) ∧ 0 < (s.threads t).timeout then
      some (s.setThread t {(s.threads t).rouse with timedOut := true})
    else none
  | .signal t => some (s.setThread t {(s.threads t).rouse with signalPending := true})
  | .stray t => some (s.setThread t (s.threads t).rouse)
  | .turn t => if (s.threads t).pc = .woken then some (s.turn t) else none
  | .scanStart t =>
    if (s.threads t).pc = .send then
      (step s.ep (.scanStart (s.threads t).maxevents)).map fun ep =>
        {s.setThread t {s.threads t with pc := .sending} with ep := ep}
    else none
  | .scanEnd t =>
    if (s.threads t).pc = .sending then
      (step s.ep .scanEnd).map ((s.setThread t ((s.threads t).sent s.ep.scanResult)).advance .scanEnd)
    else none

def waitInitial (s : Waiting) : Prop := epAlloc s.ep ∧ s.wq = [] ∧ ∀ t, (s.threads t).pc = .outside

/-- The thread is awake and will come to check availability or to scan. -/
def WaitPc.attends : WaitPc → Bool
  | .woken | .send => true
  | _ => false

def WaitPc.waits : WaitPc → Bool
  | .asleep | .woken => true
  | _ => false

def WaitPc.early : WaitPc → Bool
  | .check | .fetch | .asleep | .woken => true
  | _ => false

/-- Waiters are queued, `res` is still zero until the scan, and if something is ready
outside a scan while a thread sleeps, another one attends to it. -/
structure Attended (s : Waiting) : Prop where
  queued : ∀ t, (s.threads t).pc.waits = true → t ∈ s.wq
  unset : ∀ t, (s.threads t).pc.early = true → (s.threads t).res = 0
  attended : s.ep.mtx.isScan = false → s.ep.rdllist ≠ [] → ∀ t, (s.threads t).pc = .asleep →
    ∃ other, (s.threads other).pc.attends = true

@[simp] theorem setThread_self (s : Waiting) (t : Nat) (w : Waiter) : (s.setThread t w).threads t = w := by
  simp [Waiting.setThread]

theorem setThread_other (s : Waiting) (t other : Nat) (w : Waiter) (different : other ≠ t) :
    (s.setThread t w).threads other = s.threads other := by
  simp [Waiting.setThread,different]

theorem wakes_or_ready (ep t : Eventpoll) (l : Label) (ok : step ep l = some t)
    (idle : t.mtx.isScan = false) (ready : t.rdllist ≠ []) :
    wakes ep l t = true ∨ ep.mtx.isScan = false ∧ ep.rdllist ≠ [] := by
  cases step_move ep t l ok with
  | refused | chained | modify | hooked | unhooked => exact .inr ⟨idle,ready⟩
  | queued epi entry key pwq attached fewer accepted inactive off =>
    exact .inl (by simp [wakes,accepted,inactive])
  | scanStart | finish | take | relax | unlink | relink | restay | settle | requeue | stay | idle | ready
  | copy | fault => cases idle
  | scanEnd => exact .inl (by simpa [wakes] using ready)
  | insertBegin epi ffd events data fullCheck free => exact .inr ⟨by rw [free]; rfl,ready⟩
  | insertPoll insert _ held | linked insert _ held | unhookable insert _ held | unregister insert held
  | rejected insert _ held | checked insert _ _ held | published insert _ held | dropped insert held =>
    exact .inr ⟨by rw [held]; rfl,ready⟩
  | queuedNew insert revents held here queues =>
    exact .inl (by simp [wakes,queuesAtInsert,held,here,queues])
  | unqueued insert held here queued =>
    refine .inr ⟨by rw [held]; rfl,?_⟩
    intro empty
    simp [Eventpoll.listDelInit,empty] at ready

theorem wakeUp_thread (s : Waiting) (t : Nat) :
    s.wakeUpLocked.threads t = s.threads t ∨
      (s.threads t).pc = .asleep ∧ s.wakeUpLocked.threads t = {s.threads t with pc := .woken} := by
  unfold Waiting.wakeUpLocked
  split
  next first found =>
    by_cases same : t = first
    · subst t
      exact .inr ⟨by simpa using List.find?_some found,by simp⟩
    · exact .inl (setThread_other s first t _ same)
  next => exact .inl rfl

private theorem wakeUp_attends (s : Waiting) (t : Nat) (queued : t ∈ s.wq)
    (asleep : (s.threads t).pc = .asleep) :
    ∃ other, (s.wakeUpLocked.threads other).pc.attends = true := by
  unfold Waiting.wakeUpLocked
  split
  next first found => exact ⟨first,by simp [WaitPc.attends]⟩
  next none =>
    have missed := List.find?_eq_none.mp none t queued
    simp [asleep] at missed

private theorem attended_wakeUp (s : Waiting) (queued : ∀ t, (s.threads t).pc.waits = true → t ∈ s.wq)
    (unset : ∀ t, (s.threads t).pc.early = true → (s.threads t).res = 0) : Attended s.wakeUpLocked := by
  have queue : s.wakeUpLocked.wq = s.wq := by
    unfold Waiting.wakeUpLocked
    split <;> rfl
  refine ⟨?_,?_,?_⟩
  · intro t waits
    rw [queue]
    rcases wakeUp_thread s t with same | ⟨asleep,_⟩
    · exact queued t (same ▸ waits)
    · exact queued t (by rw [asleep]; rfl)
  · intro t early
    rcases wakeUp_thread s t with same | ⟨asleep,woken⟩
    · rw [same] at early ⊢
      exact unset t early
    · rw [woken]
      exact unset t (by rw [asleep]; rfl)
  · intro _ _ t asleep
    rcases wakeUp_thread s t with same | ⟨_,woken⟩
    · rw [same] at asleep
      exact wakeUp_attends s t (queued t (by rw [asleep]; rfl)) asleep
    · simp [woken] at asleep

private theorem attended_advance (s : Waiting) (l : Label) (ep : Eventpoll) (attended : Attended s)
    (ok : step s.ep l = some ep) : Attended (s.advance l ep) := by
  unfold Waiting.advance
  split
  next wake => exact attended_wakeUp _ attended.queued attended.unset
  next silent =>
    refine {attended with attended := ?_}
    intro idle ready
    obtain ⟨before,there⟩ := (wakes_or_ready s.ep ep l ok idle ready).resolve_left silent
    exact attended.attended before there

private theorem attended_thread (s : Waiting) (t : Nat) (w : Waiter) (queue : List Nat) (attended : Attended s)
    (others : ∀ other, other ≠ t → other ∈ s.wq → other ∈ queue) (queued : w.pc.waits = true → t ∈ queue)
    (unset : w.pc.early = true → w.res = 0)
    (serves : s.ep.mtx.isScan = false → s.ep.rdllist ≠ [] →
      w.pc.attends = true ∨ (s.threads t).pc.attends = false ∧ w.pc ≠ .asleep) :
    Attended {s.setThread t w with wq := queue} := by
  have here : (s.setThread t w).threads t = w := setThread_self s t w
  have there (other : Nat) (different : other ≠ t) := setThread_other s t other w different
  refine ⟨?_,?_,?_⟩
  · intro other waits
    by_cases same : other = t
    · subst other
      exact queued (here ▸ waits)
    · exact others other same (attended.queued other (there other same ▸ waits))
  · intro other early
    change ((s.setThread t w).threads other).res = 0
    by_cases same : other = t
    · subst other
      rw [here]
      exact unset (here ▸ early)
    · rw [there other same]
      exact attended.unset other (there other same ▸ early)
  · intro idle ready other asleep
    rcases serves idle ready with attends | ⟨away,awake⟩
    · refine ⟨t,?_⟩
      change ((s.setThread t w).threads t).pc.attends = true
      rw [here]
      exact attends
    · have now : ((s.setThread t w).threads other).pc = .asleep := asleep
      have different : other ≠ t := by
        intro same
        rw [same,here] at now
        exact awake now
      obtain ⟨helper,attends⟩ := attended.attended idle ready other (there other different ▸ asleep)
      have apart : helper ≠ t := fun same => by simp [same,away] at attends
      exact ⟨helper,by rw [← there helper apart] at attends; exact attends⟩

private theorem attended_set (s : Waiting) (t : Nat) (w : Waiter) (attended : Attended s)
    (free : w.pc.waits = false) (unset : w.pc.early = true → w.res = 0)
    (serves : s.ep.mtx.isScan = true ∨ (s.threads t).pc.attends = false) : Attended (s.setThread t w) := by
  have awake : w.pc ≠ .asleep := fun asleep => by simp [asleep,WaitPc.waits] at free
  apply attended_thread s t w s.wq attended (fun _ _ member => member) (by simp [free]) unset
  intro idle _
  exact .inr ⟨serves.resolve_left (by simp [idle]),awake⟩

private theorem attended_check (s : Waiting) (t : Nat) (eavail : Bool) (attended : Attended s)
    (away : (s.threads t).pc.attends = false) :
    Attended (s.setThread t ((s.threads t).checkEvents eavail)) := by
  refine attended_set s t _ attended ?_ ?_ (.inr away) <;>
    (unfold Waiter.checkEvents; split <;> simp [WaitPc.waits,WaitPc.early])

private theorem attended_turn (s : Waiting) (t : Nat) (attended : Attended s)
    (queue : List Nat) (same : ∀ other, other ≠ t → other ∈ s.wq → other ∈ queue) (inside : t ∈ queue)
    (zero : (s.threads t).res = 0) : Attended ({s with wq := queue}.turn t) := by
  obtain ⟨w,result⟩ : ∃ w, w = (s.threads t).waitTurn (epEventsAvailable s.ep) := ⟨_,rfl⟩
  have outcome : w.pc = .asleep ∧ w.res = 0 ∨ w.pc = .send ∨ w.pc = .outside := by
    rw [result]
    unfold Waiter.waitTurn Waiter.checkEvents
    split
    · split <;> simp
    · split
      · split <;> simp
      · exact .inl ⟨rfl,zero⟩
  have next : {s with wq := queue}.turn t =
      {s.setThread t w with wq := if w.pc = .asleep then queue else queue.erase t} := by
    rw [result]
    rfl
  rw [next]
  apply attended_thread s t w _ attended
  · intro other different member
    split
    · exact same other different member
    · exact (List.mem_erase_of_ne different).mpr (same other different member)
  · intro waits
    rcases outcome with ⟨asleep,_⟩ | send | outside
    · rw [if_pos asleep]
      exact inside
    · simp [send,WaitPc.waits] at waits
    · simp [outside,WaitPc.waits] at waits
  · intro early
    rcases outcome with ⟨_,res⟩ | send | outside
    · exact res
    · simp [send,WaitPc.early] at early
    · simp [outside,WaitPc.early] at early
  · intro _ ready
    left
    have available : epEventsAvailable s.ep = true := by simp [epEventsAvailable,ready]
    rw [result]
    simp [Waiter.waitTurn,Waiter.checkEvents,available,zero,WaitPc.attends]

private theorem attended_rouse (s : Waiting) (t : Nat) (w : Waiter) (attended : Attended s)
    (pc : w.pc = (s.threads t).rouse.pc) (res : w.res = (s.threads t).res) :
    Attended (s.setThread t w) := by
  have waits : w.pc.waits = (s.threads t).pc.waits ∧ w.pc.early = (s.threads t).pc.early := by
    rw [pc,Waiter.rouse]
    split
    next asleep => simp [asleep,WaitPc.waits,WaitPc.early]
    next => exact ⟨rfl,rfl⟩
  refine attended_thread s t w s.wq attended (fun _ _ member => member)
    (fun queued => attended.queued t (waits.1 ▸ queued)) ?_ ?_
  · intro early
    rw [res]
    exact attended.unset t (waits.2 ▸ early)
  · intro _ _
    rw [pc,Waiter.rouse]
    split
    next asleep => exact .inl rfl
    next awake =>
      cases attends : (s.threads t).pc.attends with
      | true => exact .inl rfl
      | false => exact .inr ⟨rfl,awake⟩

theorem attended_step (s u : Waiting) (l : WaitLabel) (attended : Attended s) (ok : waitStep s l = some u) :
    Attended u := by
  cases l with
  | file l =>
    simp only [waitStep] at ok
    split at ok
    · cases ok
    · obtain ⟨ep,moved,rfl⟩ := Option.map_eq_some_iff.mp ok
      exact attended_advance s l ep attended moved
  | epollWait t maxevents timeout =>
    simp only [waitStep,Option.ite_none_right_eq_some,Option.some.injEq] at ok
    obtain ⟨⟨outside,_⟩,rfl⟩ := ok
    refine attended_set s t _ attended ?_ (fun _ => rfl) (.inr (by rw [outside]; rfl))
    unfold Waiter.epPoll
    split <;> rfl
  | check t =>
    simp only [waitStep,Option.ite_none_right_eq_some,Option.some.injEq] at ok
    obtain ⟨here,rfl⟩ := ok
    exact attended_check s t _ attended (by rw [here]; rfl)
  | fetch t =>
    simp only [waitStep,Option.ite_none_right_eq_some,Option.some.injEq] at ok
    obtain ⟨here,rfl⟩ := ok
    unfold Waiting.fetch
    split
    next available => exact attended_check s t true attended (by rw [here]; rfl)
    next nothing =>
      exact attended_turn s t attended _ (by simp +contextual) (by simp) (attended.unset t (by rw [here]; rfl))
  | expire t =>
    simp only [waitStep,Option.ite_none_right_eq_some,Option.some.injEq] at ok
    obtain ⟨_,rfl⟩ := ok
    exact attended_rouse s t _ attended rfl (rouse_res _)
  | signal t | stray t =>
    cases ok
    exact attended_rouse s t _ attended rfl (rouse_res _)
  | turn t =>
    simp only [waitStep,Option.ite_none_right_eq_some,Option.some.injEq] at ok
    obtain ⟨woken,rfl⟩ := ok
    exact attended_turn s t attended s.wq (fun _ _ member => member)
      (attended.queued t (by rw [woken]; rfl)) (attended.unset t (by rw [woken]; rfl))
  | scanStart t =>
    simp only [waitStep,Option.ite_none_right_eq_some] at ok
    obtain ⟨send,ok⟩ := ok
    obtain ⟨ep,started,rfl⟩ := Option.map_eq_some_iff.mp ok
    have busy : ep.mtx.isScan = true := by
      cases step_move s.ep ep _ started
      rfl
    have moved : Attended {s with ep := ep} :=
      {attended with attended := fun idle => by simp [busy] at idle}
    exact attended_set {s with ep := ep} t {s.threads t with pc := .sending} moved rfl
      (by simp [WaitPc.early]) (.inl busy)
  | scanEnd t =>
    simp only [waitStep,Option.ite_none_right_eq_some] at ok
    obtain ⟨sending,ok⟩ := ok
    obtain ⟨ep,ended,rfl⟩ := Option.map_eq_some_iff.mp ok
    refine attended_advance _ _ ep ?_ ended
    refine attended_set s t _ attended ?_ ?_ (.inr (by rw [sending]; rfl))
    · unfold Waiter.sent
      split <;> rfl
    · unfold Waiter.sent
      split
      next again => exact fun _ => again.1
      next => simp [WaitPc.early]

theorem attended_reached (s : Waiting) (reached : Reachable waitInitial waitStep s) : Attended s := by
  refine reached.invariant Attended ?_ (fun s l u => attended_step s u l)
  rintro s ⟨fresh,_,outside⟩
  refine ⟨?_,?_,?_⟩
  · simp [outside,WaitPc.waits]
  · simp [outside,WaitPc.early]
  · simp [outside]

@[simp] theorem advance_ep (s : Waiting) (l : Label) (ep : Eventpoll) : (s.advance l ep).ep = ep := by
  unfold Waiting.advance Waiting.wakeUpLocked
  split
  · split <;> rfl
  · rfl

/-- What a step makes of the eventpoll. -/
inductive EpMove (s : Waiting) : WaitLabel → Eventpoll → Prop
  | same (l : WaitLabel) (ep : Eventpoll) (apart : ∀ t, l ≠ .scanStart t ∧ l ≠ .scanEnd t) (kept : ep = s.ep) :
      EpMove s l ep
  | file (l : Label) (ep : Eventpoll) (inner : l.delimits = false) (moved : step s.ep l = some ep) : EpMove s (.file l) ep
  | scanStart (t : Nat) (ep : Eventpoll) (here : (s.threads t).pc = .send)
      (started : step s.ep (.scanStart (s.threads t).maxevents) = some ep) : EpMove s (.scanStart t) ep
  | scanEnd (t : Nat) (ep : Eventpoll) (here : (s.threads t).pc = .sending) (ended : step s.ep .scanEnd = some ep) :
      EpMove s (.scanEnd t) ep

theorem ep_move (s u : Waiting) (l : WaitLabel) (ok : waitStep s l = some u) : EpMove s l u.ep := by
  cases l with
  | file l =>
    simp only [waitStep] at ok
    split at ok
    · cases ok
    · rename_i inner
      obtain ⟨ep,moved,rfl⟩ := Option.map_eq_some_iff.mp ok
      rw [advance_ep]
      exact .file l ep (Bool.eq_false_iff.mpr inner) moved
  | signal | stray =>
    cases ok
    exact .same _ _ (by simp) rfl
  | epollWait | check | expire | turn =>
    obtain ⟨_,⟨⟩⟩ := Option.ite_none_right_eq_some.mp ok
    exact .same _ _ (by simp) rfl
  | fetch t =>
    obtain ⟨_,⟨⟩⟩ := Option.ite_none_right_eq_some.mp ok
    unfold Waiting.fetch
    split <;> exact .same _ _ (by simp) rfl
  | scanStart t =>
    obtain ⟨here,ok⟩ := Option.ite_none_right_eq_some.mp ok
    obtain ⟨ep,started,rfl⟩ := Option.map_eq_some_iff.mp ok
    exact .scanStart t ep here started
  | scanEnd t =>
    obtain ⟨here,ok⟩ := Option.ite_none_right_eq_some.mp ok
    obtain ⟨ep,ended,rfl⟩ := Option.map_eq_some_iff.mp ok
    rw [advance_ep]
    exact .scanEnd t ep here ended

theorem waiting_reached (s : Waiting) (reached : Reachable waitInitial waitStep s) : Reached s.ep := by
  apply reached.invariant (fun s => Reached s.ep) (fun s initial => .start initial.1)
  intro s l u before ok
  cases ep_move s u l ok with
  | same l ep apart kept => rw [kept]; exact before
  | file l ep inner moved => exact before.step moved
  | scanStart t ep here started => exact before.step started
  | scanEnd t ep here ended => exact before.step ended

/-- While rdllist is not empty outside a scan and a thread is asleep on `ep->wq`,
another thread is awake inside `ep_poll` that has yet to re-check availability or to
start a scan. -/
theorem no_missed_wakeup (s : Waiting) (t : Nat) (reached : Reachable waitInitial waitStep s)
    (idle : s.ep.mtx.isScan = false) (ready : s.ep.rdllist ≠ [])
    (asleep : (s.threads t).pc = .asleep) :
    ∃ other, other ≠ t ∧ ((s.threads other).pc = .woken ∨ (s.threads other).pc = .send) := by
  obtain ⟨other,attends⟩ := (attended_reached s reached).attended idle ready t asleep
  refine ⟨other,?_,?_⟩
  · intro same
    rw [same,asleep] at attends
    cases attends
  · cases pc : (s.threads other).pc <;> simp_all [WaitPc.attends]

def unattended : Waiting := ⟨zeroed,[],fun _ => ⟨.outside,0,0,false,false,0⟩⟩

def twoWaiters : List WaitLabel :=
  (inserting 0 pollIn 0).map .file ++
    [.epollWait 0 1 (-1),.fetch 0,.epollWait 1 1 1000,.fetch 1,.file (.callback 0 0 1)]

theorem no_missed_wakeup_two :
    (final waitStep unattended twoWaiters).ep.rdllist = [0] ∧
    ∃ other, other ≠ 1 ∧
      (((final waitStep unattended twoWaiters).threads other).pc = .woken ∨
        ((final waitStep unattended twoWaiters).threads other).pc = .send) :=
  ⟨by decide,no_missed_wakeup (final waitStep unattended twoWaiters) 1
    ⟨unattended,twoWaiters,⟨zeroed_epAlloc,rfl,fun _ => rfl⟩,final_run waitStep unattended twoWaiters (by decide)⟩
    (by decide) (by decide) (by decide)⟩

end Reactor.Epoll
