import Reactor.Epoll.WaitResult

/-! How long `ep_poll` can last. A call whose timeout is over makes one more attempt and
returns. A call with time left has no bound: it takes the scan of another thread for events,
and two calls can keep each other busy although nothing happens. -/
namespace Reactor.Epoll
open Reactor.Transition Reactor.Threaded

/-- The steps of `ep_poll` in thread `t`. -/
def WaitLabel.acts (t : Nat) : WaitLabel → Bool
  | .check r | .fetch r | .turn r | .scanStart r | .scanEnd r => r = t
  | _ => false

def WaitPc.left : WaitPc → Nat
  | .outside => 0
  | .sending => 1
  | .send => 2
  | _ => 3

/-- What a thread inside `ep_poll` can rely on. -/
structure Waiter.Sane (w : Waiter) : Prop where
  room : w.pc ≠ .outside → 0 < w.maxevents
  early : w.pc = .asleep → w.timedOut = false

namespace Waiter.Sane

variable {w v : Waiter}

theorem awake (sane : w.Sane) (room : v.maxevents = w.maxevents) (inside : w.pc ≠ .outside) (up : v.pc ≠ .asleep) :
    v.Sane :=
  ⟨fun _ => room ▸ sane.room inside,fun asleep => absurd asleep up⟩

theorem checkEvents (sane : w.Sane) (eavail : Bool) (inside : w.pc ≠ .outside) : (w.checkEvents eavail).Sane := by
  refine sane.awake rfl inside ?_
  unfold Waiter.checkEvents
  split <;> simp

theorem waitTurn (sane : w.Sane) (eavail : Bool) (inside : w.pc ≠ .outside) : (w.waitTurn eavail).Sane := by
  unfold Waiter.waitTurn
  split
  · exact sane.checkEvents eavail inside
  next stays =>
    split
    · have interrupted : Waiter.Sane {w with res := -eintr} := ⟨sane.room,sane.early⟩
      exact interrupted.checkEvents eavail inside
    · refine ⟨fun _ => sane.room inside,fun _ => ?_⟩
      simp only [Bool.or_eq_true,not_or,Bool.not_eq_true] at stays
      exact stays.2

theorem rouse (sane : w.Sane) : w.rouse.Sane ∧ w.rouse.pc ≠ .asleep := by
  unfold Waiter.rouse
  split
  next asleep => exact ⟨⟨fun _ => sane.room (by simp [asleep]),by simp⟩,by simp⟩
  next awake => exact ⟨sane,awake⟩

theorem sent (sane : w.Sane) (res : Int) (inside : w.pc ≠ .outside) : (w.sent res).Sane := by
  refine sane.awake rfl inside ?_
  unfold Waiter.sent
  split <;> simp

end Waiter.Sane

theorem sane_step {s u : Waiting} {l : WaitLabel} (sane : ∀ t, (s.threads t).Sane) (ok : waitStep s l = some u) (t : Nat) :
    (u.threads t).Sane := by
  have before := sane t
  have move := waiter_move s u l t ok
  generalize u.threads t = w at move
  cases move with
  | rest => exact before
  | woken l asleep => exact before.awake rfl (by simp [asleep]) (by simp)
  | epollWait maxevents timeout =>
    obtain ⟨⟨_,positive⟩,_⟩ := Option.ite_none_right_eq_some.mp ok
    refine ⟨fun _ => positive,?_⟩
    unfold Waiter.epPoll
    split <;> simp
  | check here => exact before.checkEvents _ (by simp [here])
  | found here => exact before.checkEvents _ (by simp [here])
  | turn l here => exact before.waitTurn _ (by rcases here with ⟨here,_⟩ | ⟨here,_⟩ <;> simp [here])
  | expire =>
    obtain ⟨roused,awake⟩ := before.rouse
    exact ⟨roused.room,fun asleep => absurd asleep awake⟩
  | signal =>
    obtain ⟨roused,awake⟩ := before.rouse
    exact ⟨roused.room,fun asleep => absurd asleep awake⟩
  | stray => exact before.rouse.1
  | send here => exact before.awake rfl (by simp [here]) (by simp)
  | sent here => exact before.sent _ (by simp [here])

theorem sane_reached (s : Waiting) (reached : Reachable waitInitial waitStep s) (t : Nat) : (s.threads t).Sane := by
  refine reached.invariant (fun s => ∀ t, (s.threads t).Sane) ?_ (fun s l u sane ok => sane_step sane ok) t
  rintro s ⟨_,_,outside⟩ t
  exact ⟨fun inside => absurd (outside t) inside,fun asleep => by simp [outside t] at asleep⟩

/-- With the time over the thread does not sleep again and does not go back to `fetch_events`. -/
theorem late_move {s : Waiting} {t : Nat} {l : WaitLabel} {w : Waiter} (late : (s.threads t).timedOut = true)
    (awake : (s.threads t).pc ≠ .asleep) (move : WaiterMove s t l w) (same : ∀ m d, l ≠ .epollWait t m d) :
    w.timedOut = true ∧ w.pc ≠ .asleep ∧ (if l.acts t then 1 else 0) + w.pc.left ≤ (s.threads t).pc.left := by
  have roused : (s.threads t).rouse = s.threads t := if_neg awake
  have checked (eavail : Bool) (here : (s.threads t).pc.left = 3) :
      ((s.threads t).checkEvents eavail).timedOut = true ∧ ((s.threads t).checkEvents eavail).pc ≠ .asleep ∧
        1 + ((s.threads t).checkEvents eavail).pc.left ≤ (s.threads t).pc.left := by
    rw [here]
    unfold Waiter.checkEvents
    split
    · exact ⟨late,by simp,le_rfl⟩
    · exact ⟨late,by simp,by simp [WaitPc.left]⟩
  cases move with
  | rest l apart =>
    refine ⟨late,awake,?_⟩
    have idle : l.acts t = false := by
      cases l <;> simp_all [WaitLabel.acts,WaitLabel.thread]
    simp [idle]
  | woken l asleep => exact absurd asleep awake
  | epollWait m d => exact absurd rfl (same m d)
  | check here =>
    simpa [WaitLabel.acts] using checked _ (by rw [here]; rfl)
  | found here =>
    simpa [WaitLabel.acts] using checked true (by rw [here]; rfl)
  | turn l here =>
    have own : l.acts t = true := by
      rcases here with ⟨_,rfl⟩ | ⟨_,rfl⟩ <;> simp [WaitLabel.acts]
    have early : (s.threads t).pc.left = 3 := by
      rcases here with ⟨here,_⟩ | ⟨here,_⟩ <;> rw [here] <;> rfl
    have turned : (s.threads t).waitTurn (epEventsAvailable s.ep) =
        (s.threads t).checkEvents (epEventsAvailable s.ep) := by
      simp [Waiter.waitTurn,late]
    rw [turned,own]
    exact checked _ early
  | expire | signal | stray =>
    rw [roused]
    simp [WaitLabel.acts,late,awake]
  | send here => simp [WaitLabel.acts,late,here,WaitPc.left]
  | sent here => simp [WaitLabel.acts,late,here,WaitPc.left,Waiter.sent]

/-- The thread waits for `ep->mtx`, which another scan or an insertion holds. -/
def Waiting.Locked (s : Waiting) (t : Nat) : Prop := (s.threads t).pc = .send ∧ s.ep.mtx ≠ .free

/-- The thread can take its next step, in `ep_poll` itself or in its scan. -/
def Waiting.Moves (s : Waiting) (t : Nat) : Prop :=
  ∃ l, (l.acts t = true ∨ (s.threads t).pc = .sending ∧ ∃ k : Label, k.own = true ∧ l = .file k) ∧
    (waitStep s l).isSome = true

theorem waiter_proceeds {s : Waiting} (reached : Reachable waitInitial waitStep s) (t : Nat)
    (awake : (s.threads t).pc ≠ .asleep) : (s.threads t).pc = .outside ∨ s.Locked t ∨ s.Moves t := by
  cases here : (s.threads t).pc with
  | outside => exact .inl rfl
  | asleep => exact absurd here awake
  | check => exact .inr (.inr ⟨.check t,.inl (by simp [WaitLabel.acts]),by simp [waitStep,here]⟩)
  | fetch => exact .inr (.inr ⟨.fetch t,.inl (by simp [WaitLabel.acts]),by simp [waitStep,here]⟩)
  | woken => exact .inr (.inr ⟨.turn t,.inl (by simp [WaitLabel.acts]),by simp [waitStep,here]⟩)
  | send =>
    by_cases free : s.ep.mtx = .free
    · have room := (sane_reached s reached t).room (by simp [here])
      exact .inr (.inr ⟨.scanStart t,.inl (by simp [WaitLabel.acts]),by simp [waitStep,here,step,free,room]⟩)
    · exact .inr (.inl ⟨here,free⟩)
  | sending =>
    refine .inr (.inr ?_)
    obtain ⟨⟨scan,held,_⟩,_⟩ := ownScan_reached s reached t here
    have next := nextLabel_enabled (rep_reached s.ep (waiting_reached s reached)) scan held (fun _ => 0) (fun _ => false)
    by_cases last : scan.pc.nextLabel (fun _ => 0) (fun _ => false) = .scanEnd
    · rw [last] at next
      refine ⟨.scanEnd t,.inl (by simp [WaitLabel.acts]),?_⟩
      simpa [waitStep,here] using next
    · have own : (scan.pc.nextLabel (fun _ => 0) (fun _ => false)).own = true := by
        cases pc : scan.pc <;> simp_all [ProcPc.nextLabel,Label.own]
      generalize scan.pc.nextLabel (fun _ => 0) (fun _ => false) = k at next own
      have inner : k.delimits = false := by
        cases k <;> simp_all [Label.own,Label.delimits]
      exact ⟨.file k,.inr ⟨here,k,own,rfl⟩,by simpa [waitStep,inner] using next⟩

/-- Once its time is over, a call takes at most three more steps besides those of one scan;
until it returns, only `ep->mtx` can hold it up. -/
theorem timedOut_returns (s u : Waiting) (t : Nat) (ls : List WaitLabel) (reached : Reachable waitInitial waitStep s)
    (late : (s.threads t).timedOut = true) (run : Run waitStep s ls u) (same : ∀ m d, .epollWait t m d ∉ ls) :
    ls.countP (WaitLabel.acts t) ≤ 3 ∧ ((u.threads t).pc = .outside ∨ u.Locked t ∨ u.Moves t) := by
  have awake : (s.threads t).pc ≠ .asleep := by
    intro asleep
    rw [(sane_reached s reached t).early asleep] at late
    cases late
  have along : Along waitStep (fun _ l => ∀ m d, l ≠ .epollWait t m d) s ls :=
    along_of_forall waitStep (fun l => ∀ m d, l ≠ .epollWait t m d) s ls
      fun l member m d label => same m d (label ▸ member)
  have kept (s : Waiting) (l : WaitLabel) (u : Waiting) (both : (s.threads t).timedOut = true ∧ (s.threads t).pc ≠ .asleep)
      (other : ∀ m d, l ≠ .epollWait t m d) (ok : waitStep s l = some u) :=
    late_move both.1 both.2 (waiter_move s u l t ok) other
  constructor
  · have paid := run.account _ (fun s => (s.threads t).timedOut = true ∧ (s.threads t).pc ≠ .asleep)
      (fun _ l => if l.acts t then 1 else 0) (fun _ _ => 0) (fun s => (s.threads t).pc.left)
      (fun s l u both other ok => ⟨(kept s l u both other ok).1,(kept s l u both other ok).2.1⟩)
      (fun s l u both other ok => by simpa using (kept s l u both other ok).2.2) along ⟨late,awake⟩
    have start : (s.threads t).pc.left ≤ 3 := by
      cases (s.threads t).pc <;> simp [WaitPc.left]
    rw [run.tally_countP,run.tally_zero] at paid
    omega
  · have after := run.keeps _ (fun s => (s.threads t).timedOut = true ∧ (s.threads t).pc ≠ .asleep)
      (fun s l u both other ok => ⟨(kept s l u both other ok).1,(kept s l u both other ok).2.1⟩) along ⟨late,awake⟩
    exact waiter_proceeds (reached.run run) t after.2

/-- The thread has timed out between the wake-up for an event and the check under `ep->lock`,
and another one scans. -/
private def lateWaiter : List WaitLabel :=
  (inserting 0 pollIn 0).map .file ++
    [.epollWait 0 1 1000,.fetch 0,.file (.callback 0 0 1),.expire 0,.epollWait 1 1 0,.check 1,.scanStart 1]

theorem timedOut_returns_behind :
    let s := final waitStep unattended lateWaiter
    let u := final waitStep s [.turn 0]
    (s.threads 0).timedOut = true ∧ u.Locked 0 ∧
    [WaitLabel.turn 0].countP (WaitLabel.acts 0) ≤ 3 ∧ ((u.threads 0).pc = .outside ∨ u.Locked 0 ∨ u.Moves 0) := by
  intro s u
  have reached : Reachable waitInitial waitStep s :=
    ⟨unattended,lateWaiter,⟨zeroed_epAlloc,rfl,fun _ => rfl⟩,final_run waitStep unattended lateWaiter (by decide)⟩
  have run : Run waitStep s [.turn 0] u := final_run waitStep s [.turn 0] (by decide)
  exact ⟨by decide,⟨by decide,by decide⟩,timedOut_returns s u 0 [.turn 0] reached (by decide) run (by simp)⟩

/-- Thread `b` scans an empty list while thread `a` is about to look for events. -/
structure Meeting (a b : Nat) (s : Waiting) : Prop where
  apart : a ≠ b
  fetching : (s.threads a).pc = .fetch
  sending : (s.threads b).pc = .sending
  scan : ∃ m, s.ep.mtx = .scan ⟨.loop,m,0,[]⟩
  ready : s.ep.rdllist = [] ∧ s.ep.txlist = [] ∧ s.ep.ovflist = .null
  res : (s.threads a).res = 0
  time : (s.threads a).timedOut = false ∧ (s.threads b).timedOut = false
  room : 0 < (s.threads a).maxevents ∧ 0 < (s.threads b).maxevents

/-- Thread `a` sees the scan, thread `b` ends it without an event, and `a` scans in turn. -/
def spin (a b : Nat) : List WaitLabel := [.fetch a,.file .proc,.scanEnd b,.scanStart a]

theorem meeting_swaps {a b : Nat} {s : Waiting} (meeting : Meeting a b s) :
    ∃ u, Run waitStep s (spin a b) u ∧ Meeting b a u := by
  obtain ⟨apart,fetching,sending,⟨m,held⟩,⟨ready,tx,chain⟩,res,⟨early,earlyB⟩,room,roomB⟩ := meeting
  have available : epEventsAvailable s.ep = true := by simp [epEventsAvailable,chain]
  -- the states after each of the four steps
  let sees := s.setThread a {s.threads a with pc := .send}
  let left : Waiting := {sees with ep := s.ep.withPc ⟨.loop,m,0,[]⟩ (.done false)}
  let rested : Eventpoll := {s.ep with ovflist := .unlinked, ws := false, mtx := .free}
  let ended : Waiting := {left.setThread b {s.threads b with pc := .fetch, res := 0} with ep := rested}
  let starts : Waiting := {ended.setThread a {s.threads a with pc := .sending} with ep := rested.scanStart (s.threads a).maxevents}
  have first : waitStep s (.fetch a) = some sees := by
    simp [waitStep,fetching,Waiting.fetch,available,Waiter.checkEvents,res,sees]
  have second : waitStep sees (.file .proc) = some left := by
    simp [waitStep,Label.delimits,sees,Waiting.setThread,step,inScan,held,Eventpoll.procTick,tx,Waiting.advance,wakes,left]
  have third : waitStep left (.scanEnd b) = some ended := by
    have same : left.threads b = s.threads b := setThread_other s a b _ apart.symm
    have drains : step left.ep .scanEnd = some rested := by
      simp [step,inScan,left,Eventpoll.withPc,Eventpoll.scanEnd,Eventpoll.drain,chain,Eventpoll.spliceBack,ready,tx,rested]
    have result : left.ep.scanResult = 0 := rfl
    simp only [waitStep,same,sending,if_true,drains,Option.map_some,result]
    simp [Waiter.sent,earlyB,Waiting.advance,wakes,rested,ready,ended,Waiting.setThread]
  have fourth : waitStep ended (.scanStart a) = some starts := by
    have same : ended.threads a = {s.threads a with pc := .send} := by
      simp [ended,left,sees,Waiting.setThread,apart]
    have begins : step ended.ep (.scanStart (s.threads a).maxevents) = some (rested.scanStart (s.threads a).maxevents) :=
      if_pos ⟨rfl,room⟩
    simp only [waitStep,same,if_true,begins,Option.map_some,starts]
  have atA : starts.threads a = {s.threads a with pc := .sending} := setThread_self _ _ _
  have atB : starts.threads b = {s.threads b with pc := .fetch, res := 0} := by
    simp [starts,ended,Waiting.setThread,apart.symm]
  refine ⟨starts,.cons _ _ _ _ _ first (.cons _ _ _ _ _ second (.cons _ _ _ _ _ third (.single fourth))),?_⟩
  refine ⟨apart.symm,by rw [atB],by rw [atA],⟨_,rfl⟩,⟨rfl,?_,rfl⟩,by rw [atB],?_,?_⟩
  · simp [starts,rested,Eventpoll.scanStart,ready,tx]
  · rw [atA,atB]
    exact ⟨earlyB,early⟩
  · rw [atA,atB]
    exact ⟨roomB,room⟩

/-- Two calls of `epoll_wait` that have time left can go on for any number of rounds, scanning
empty lists in turn: no callback comes, and neither call sleeps or returns. -/
theorem waits_spin (s : Waiting) (a b n : Nat) (meeting : Meeting a b s) :
    ∃ u, Run waitStep s (List.replicate n (spin a b ++ spin b a)).flatten u ∧ Meeting a b u := by
  induction n generalizing s with
  | zero => exact ⟨s,.nil s,meeting⟩
  | succ n ih =>
    obtain ⟨v,first,swapped⟩ := meeting_swaps meeting
    obtain ⟨w,second,back⟩ := meeting_swaps swapped
    obtain ⟨u,rest,last⟩ := ih w back
    exact ⟨u,(first.append second).append rest,last⟩

/-- One event for two waiting threads; the file reports nothing when the first one polls it. -/
private def emptied : List WaitLabel :=
  (inserting 0 pollIn 0).map .file ++
    [.epollWait 0 1 (-1),.epollWait 1 1 (-1),.file (.callback 0 0 1),.fetch 1,.scanStart 1,.file .proc,.file .proc,
      .file .proc,.file (.poll 0 0)]

theorem waits_spin_emptied :
    let s := final waitStep unattended emptied
    Reachable waitInitial waitStep s ∧ Meeting 0 1 s ∧
    ∃ u, Run waitStep s (List.replicate 1000 (spin 0 1 ++ spin 1 0)).flatten u ∧ Meeting 0 1 u := by
  intro s
  have meeting : Meeting 0 1 s := ⟨by decide,by decide,by decide,⟨1,by decide⟩,by decide,by decide,by decide,by decide⟩
  exact ⟨⟨unattended,emptied,⟨zeroed_epAlloc,rfl,fun _ => rfl⟩,final_run waitStep unattended emptied (by decide)⟩,
    meeting,waits_spin s 0 1 1000 meeting⟩

end Reactor.Epoll
