import Reactor.Net.Shutdown

/-! `shutdown` behind `send`. The state is set to `kDisconnecting` at once, while messages may
still be queued. The queue keeps those of a thread ahead of the `shutdownInLoop` it pushes
later; `handleWrite` looks at the state and the buffer only, and may overtake them. -/
namespace Reactor.Net
open Reactor.Transition

variable {fd : EventFd} {s u : ConnLoop} {l : ConnLabel}

namespace ConnLoop

/-- A `shutdownInLoop` is queued, or a thread that has set `kDisconnecting` is about to queue it. -/
def shutdownDue (s : ConnLoop) : Bool :=
  (s.loop.queued.any fun p => p.functor = .shutdownInLoop) || s.calls.any fun c => c.pc = .closing .shutdown

/-- `handleWrite` does not close the write side ahead of a `shutdownInLoop` that is due, and
the loop thread does not call `shutdown` while another thread is in the midst of it. -/
def inTurn (s : ConnLoop) : ConnLabel → Bool
  | .handleWrite w => !s.closes (.handleWrite w) || !s.shutdownDue
  | .shutdown t => t ≠ s.loop.threadId || s.conn.state ≠ .kConnected || s.calls.all fun c => c.pc ≠ .close .shutdown
  | _ => true

/-- `kDisconnecting` is set while no thread is in the midst of `send`, and by the loop thread
while no message of another thread is in flight. -/
def alone (s : ConnLoop) : ConnLabel → Bool
  | .setState _ => s.calls.all fun c => callOf c = none
  | .shutdown t => t ≠ s.loop.threadId || s.conn.state ≠ .kConnected || s.inFlight.isEmpty
  | _ => true

end ConnLoop

theorem call_inFlight {c : ConnCall} {x : Sent} (inside : c ∈ s.calls) (is : callOf c = some x) : x ∈ s.inFlight :=
  List.mem_append.mpr (.inr (List.mem_filterMap.mpr ⟨c,inside,is⟩))

/-- A message comes into flight only while the connection is open. -/
theorem inFlight_move (move : ConnMove s l u) (x : Sent) (inside : x ∈ u.inFlight) :
    x ∈ s.inFlight ∨ s.conn.state = .kConnected := by
  cases move with
  | loop l loop queued => exact .inl (by simpa [ConnLoop.inFlight,queued.queued] using inside)
  | queue t f loop free queued => exact .inl (inFlight_queued queued (free_sendOf free _ _) ▸ inside)
  | run p rest loop w next queued thread =>
    refine .inl ?_
    rw [inFlight_run queued w]
    exact List.mem_append.mpr (.inr inside)
  | perform f free =>
    rw [inFlight_settle _ fun g notice => notice_sendOf (notice_perform s.conn _ _ f g notice)] at inside
    exact .inl inside
  | give t f loop free queued => exact .inl (inFlight_queued queued (free_sendOf free _ _) ▸ inside)
  | sendNow message w connected => exact .inr connected
  | send t message w foreign connected => exact .inr connected
  | shutdown t foreign connected => exact .inr connected
  | forceCloseNow connected =>
    rw [inFlight_settle _ fun f same => by cases same; exact fun _ _ => rfl] at inside
    exact .inl inside
  | forceClose t foreign => exact .inl (by simpa [ConnLoop.inFlight,callOf] using inside)
  | setState t k called => exact .inl (inFlight_setState _ t k ▸ inside)
  | pushSend t message loop first queued =>
    have there : x ∈ s.inFlight.filter fun y => y.thread = x.thread := by
      rw [← inFlight_pushSend first queued x.thread]
      simpa using inside
    exact .inl (List.mem_filter.mp there).1
  | pushClose t k loop called queued => exact .inl (inFlight_pushClose queued ▸ inside)
  | handleWrite w =>
    rw [inFlight_settle _ fun f notice => notice_sendOf (notice_handleWrite s.conn w f notice)] at inside
    exact .inl inside
  | _ => exact .inl inside

theorem sent_move (move : ConnMove s l u) : u.sent = s.sent ∨
    ∃ t message w, l = .send t message w ∧ s.conn.state = .kConnected ∧ u.sent = s.sent ++ [⟨t,message⟩] := by
  cases move with
  | sendNow message w connected => exact .inr ⟨_,message,w,rfl,connected,rfl⟩
  | send t message w foreign connected => exact .inr ⟨t,message,w,rfl,connected,rfl⟩
  | _ => exact .inl rfl

/-- At the front of the queue at most one functor is taken away, and at its end at most one
is added; a message that is added was about to be pushed. -/
theorem queued_ends (move : ConnMove s l u) : ∃ (rest : List (Push ConnFunctor)) (last : Option (Push ConnFunctor)),
    u.loop.queued = rest ++ last.toList ∧ (s.loop.queued = rest ∨ ∃ p, s.loop.queued = p::rest) ∧
    ∀ p x, last = some p → sendOf p = some x → ∃ c ∈ s.calls, callOf c = some x := by
  have settled (v : ConnLoop) (r : TcpConnection × Option ConnFunctor) (notice : ∀ f, r.2 = some f → f.notice = true) :
      ∃ last : Option (Push ConnFunctor), (v.settle r).loop.queued = v.loop.queued ++ last.toList ∧
        ∀ p x, last = some p → sendOf p = some x → ∃ c ∈ s.calls, callOf c = some x := by
    obtain ⟨c,queued⟩ := r
    cases queued with
    | none => exact ⟨none,by simp [ConnLoop.settle],nofun⟩
    | some f =>
      refine ⟨some ⟨f,v.loop.threadId,v.loop.looping⟩,by simp [ConnLoop.settle],?_⟩
      rintro p x ⟨⟩ is
      rw [notice_sendOf (notice f rfl)] at is
      cases is
  have pushed {loop : EventLoop ConnFunctor} {p : Push ConnFunctor} (queued : Queued s.loop loop [p])
      (quiet : sendOf p = none) := show ∃ rest last, loop.queued = rest ++ Option.toList last ∧
        (s.loop.queued = rest ∨ ∃ p, s.loop.queued = p::rest) ∧
        ∀ p x, last = some p → sendOf p = some x → ∃ c ∈ s.calls, callOf c = some x from
    ⟨s.loop.queued,some p,queued.queued,.inl rfl,by
      rintro _ x ⟨⟩ is
      rw [quiet] at is
      cases is⟩
  cases move with
  | loop l loop queued => exact ⟨s.loop.queued,none,by simpa using queued.queued,.inl rfl,nofun⟩
  | queue t f loop free queued => exact pushed queued (free_sendOf free _ _)
  | run p rest loop w next queued thread =>
    obtain ⟨last,same,from_⟩ := settled {s with loop := loop} _ (notice_perform s.conn p.thread w p.functor)
    exact ⟨loop.queued,last,same,.inr ⟨p,queued⟩,from_⟩
  | perform f free =>
    obtain ⟨last,same,from_⟩ := settled s _ (notice_perform s.conn s.loop.threadId (.wrote 0) f)
    exact ⟨s.loop.queued,last,same,.inl rfl,from_⟩
  | give t f loop free queued => exact pushed queued (free_sendOf free _ _)
  | sendNow message w connected =>
    obtain ⟨last,same,from_⟩ := settled s _ (notice_send s.conn s.loop.threadId message w)
    exact ⟨s.loop.queued,last,same,.inl rfl,from_⟩
  | forceCloseNow connected =>
    refine ⟨s.loop.queued,some ⟨.forceCloseInLoop,s.loop.threadId,s.loop.looping⟩,by simp [ConnLoop.settle],.inl rfl,?_⟩
    rintro p x ⟨⟩ ⟨⟩
  | pushSend t message loop first queued =>
    refine ⟨s.loop.queued,some _,queued.queued,.inl rfl,?_⟩
    rintro p x ⟨⟩ is
    exact ⟨_,List.mem_of_find?_eq_some first,is⟩
  | pushClose t k loop called queued => exact pushed queued (by cases k <;> rfl)
  | handleWrite w =>
    obtain ⟨last,same,from_⟩ := settled s _ (notice_handleWrite s.conn w)
    exact ⟨s.loop.queued,last,same,.inl rfl,from_⟩
  | _ => exact ⟨s.loop.queued,none,by simp,.inl rfl,nofun⟩

/-- A thread that has set `kDisconnecting` is waited for until it has pushed `shutdownInLoop`. -/
theorem closing_due {c : ConnCall} (move : ConnMove s l u) (inside : c ∈ s.calls) (closing : c.pc = .closing .shutdown) :
    u.shutdownDue = true := by
  have waits (there : c ∈ u.calls) : u.shutdownDue = true := by
    simp only [ConnLoop.shutdownDue,Bool.or_eq_true,List.any_eq_true,decide_eq_true_eq]
    exact .inr ⟨c,there,closing⟩
  have other {d : ConnCall} (apart : d.pc ≠ .closing .shutdown) : c ∈ s.calls.erase d := by
    refine (List.mem_erase_of_ne ?_).mpr inside
    rintro rfl
    exact apart closing
  cases move with
  | send t message w foreign connected => exact waits (List.mem_append.mpr (.inl inside))
  | shutdown t foreign connected => exact waits (List.mem_append.mpr (.inl inside))
  | forceClose t foreign => exact waits (List.mem_append.mpr (.inl inside))
  | setState t k called => exact waits (List.mem_cons.mpr (.inr (other nofun)))
  | pushSend t message loop first queued => exact waits (other nofun)
  | pushClose t k loop called queued =>
    cases k with
    | forceClose => exact waits (other nofun)
    | shutdown =>
      simp only [ConnLoop.shutdownDue,Bool.or_eq_true,List.any_eq_true,decide_eq_true_eq]
      exact .inl ⟨⟨.shutdownInLoop,t,s.loop.looping⟩,by simp [queued.queued,Close.functor],rfl⟩
  | _ => exact waits inside

/-- The state becomes `kDisconnecting` in `shutdown`, at once or when the caller is a foreign thread
by a step of its own. -/
theorem disconnecting_move (tame : Tame s) (calm : l.calm = true) (move : ConnMove s l u)
    (before : s.conn.state ≠ .kDisconnecting) (after : u.conn.state = .kDisconnecting) :
    (∃ t, l = .setState t ∧ u.shutdownDue = true) ∨
      (l = .shutdown s.loop.threadId ∧ s.conn.state = .kConnected ∧ u.inFlight = s.inFlight) := by
  have performs (t : Nat) (w : Write) (f : ConnFunctor) (force : f ≠ .forceCloseInLoop) (destroy : f ≠ .connectDestroyed) :
      (s.conn.perform t w f).1.state ≠ .kDisconnecting := by
    cases f with
    | sendInLoop message => rwa [TcpConnection.perform,state_send]
    | shutdownInLoop => rwa [TcpConnection.perform,state_shutdownInLoop]
    | forceCloseInLoop => exact absurd rfl force
    | connectDestroyed => exact absurd rfl destroy
    | startReadInLoop => grind [TcpConnection.perform,TcpConnection.startReadInLoop]
    | stopReadInLoop => grind [TcpConnection.perform,TcpConnection.stopReadInLoop]
    | connectEstablished => grind [TcpConnection.perform,TcpConnection.connectEstablished]
    | _ => exact before
  cases move with
  | run p rest loop w next queued thread =>
    obtain ⟨force,destroy,_⟩ := tame.queue p (by simp [queued])
    exact absurd after (performs p.thread w p.functor force destroy)
  | perform f free => exact absurd after (performs _ _ f (free_plain free).1 (calm_gives calm rfl))
  | sendNow message w connected => exact absurd ((state_send s.conn _ message w).symm.trans after) before
  | shutdownNow connected => exact .inr ⟨rfl,connected,rfl⟩
  | setState t k inside =>
    cases k with
    | forceClose => exact absurd rfl (tame.close _ inside)
    | shutdown => exact .inl ⟨t,rfl,by simp [ConnLoop.shutdownDue]⟩
  | forceCloseNow connected => cases calm
  | handleClose l kind => rcases kind with rfl | rfl <;> cases calm
  | handleWrite w => exact absurd ((state_handleWrite s.conn w).symm.trans after) before
  | _ => exact absurd after before

section
variable {who : Nat → Prop}

/-- No message of these threads is in flight. -/
def Landed (who : Nat → Prop) (s : ConnLoop) : Prop := ∀ x ∈ s.inFlight, ¬who x.thread

theorem landed_move (landed : Landed who s) (closing : s.conn.state = .kDisconnecting) (move : ConnMove s l u) :
    Landed who u := by
  intro x inside
  rcases inFlight_move move x inside with old | connected
  · exact landed x old
  · simp [connected] at closing

/-- The write side is not closed ahead of the messages of these threads. -/
structure InTurn (who : Nat → Prop) (s : ConnLoop) (l : ConnLabel) : Prop where
  write : ∀ w, l = .handleWrite w → s.closes l = true → s.shutdownDue = false
  set : ∀ t, l = .setState t → ∀ c ∈ s.calls, ∀ x, callOf c = some x → ¬who x.thread
  shut : l = .shutdown s.loop.threadId → s.conn.state = .kConnected → Landed who s

/-- Once the connection is to be closed, the messages of these threads are ahead of `shutdownInLoop`,
and the write side is closed behind all of them. -/
structure Behind (who : Nat → Prop) (s : ConnLoop) : Prop where
  pushed : s.conn.state = .kDisconnecting → ∀ c ∈ s.calls, ∀ x, callOf c = some x → ¬who x.thread
  fifo : s.loop.queued.Pairwise fun p q => p.functor = .shutdownInLoop → ∀ x, sendOf q = some x → ¬who x.thread
  due : s.conn.state = .kDisconnecting → s.shutdownDue = true ∨ Landed who s
  closed : ∀ before b after, s.conn.ops = before ++ .shutdownWrite b :: after →
    ∃ ran, ran <+: s.conn.ran ∧ accepted before = ran.flatMap SendRun.message ∧
      ∀ t, who t → ((ran.map SendRun.sent).filter fun x => x.thread = t) = s.sent.filter fun x => x.thread = t

theorem Behind.front {p : Push ConnFunctor} {rest : List (Push ConnFunctor)} (behind : Behind who s)
    (closing : s.conn.state = .kDisconnecting) (queued : s.loop.queued = p::rest) (shut : p.functor = .shutdownInLoop) :
    Landed who s := by
  have later := behind.fifo
  rw [queued,List.pairwise_cons] at later
  intro x inside
  rcases List.mem_append.mp inside with queue | calls
  · obtain ⟨q,there,is⟩ := List.mem_filterMap.mp queue
    rw [queued,List.mem_cons] at there
    rcases there with rfl | there
    · simp [sendOf,shut] at is
    · exact later.1 q there shut x is
  · obtain ⟨c,there,is⟩ := List.mem_filterMap.mp calls
    exact behind.pushed closing c there x is

theorem closes_landed (behind : Behind who s) (tame : Tame s) (turn : InTurn who s l) (shuts : s.closes l = true) :
    Landed who s := by
  cases l with
  | handleWrite w =>
    have closing : s.conn.state = .kDisconnecting := by
      simp only [ConnLoop.closes,Bool.and_eq_true,decide_eq_true_eq] at shuts
      exact shuts.1.1.1
    rcases behind.due closing with due | landed
    · rw [turn.write w rfl shuts] at due
      cases due
    · exact landed
  | run w =>
    cases next : s.loop.functors with
    | nil => simp [ConnLoop.closes,next] at shuts
    | cons p rest =>
      have queued : s.loop.queued = p :: (rest ++ s.loop.pendingFunctors) := by simp [EventLoop.queued,next]
      have shut : p.functor = .shutdownInLoop := by
        simp only [ConnLoop.closes,next,List.head?_cons,Option.any_some,Bool.and_eq_true,decide_eq_true_eq] at shuts
        exact shuts.1
      exact behind.front ((tame.queue p (by simp [queued])).2.2 shut) queued shut
  | shutdown t =>
    simp only [ConnLoop.closes,Bool.and_eq_true,decide_eq_true_eq] at shuts
    obtain ⟨⟨rfl,connected⟩,_⟩ := shuts
    exact turn.shut rfl connected
  | _ => cases shuts

theorem pushed_move (behind : Behind who s) (turn : InTurn who s l) (tame : Tame s) (calm : l.calm = true)
    (move : ConnMove s l u) (closing : u.conn.state = .kDisconnecting) :
    ∀ c ∈ u.calls, ∀ x, callOf c = some x → ¬who x.thread := by
  intro c inside x is
  by_cases before : s.conn.state = .kDisconnecting
  · rcases calls_move move inside with old | origin
    · exact behind.pushed before c old x is
    · cases origin with
      | send message w named connected same => simp [connected] at before
      | _ => simp_all [callOf]
  · have old (plain : ∀ message w, l ≠ .send c.thread message w) : c ∈ s.calls := by
      rcases calls_move move inside with old | origin
      · exact old
      · cases origin with
        | send message w named connected same => exact absurd named (plain message w)
        | _ => simp_all [callOf]
    rcases disconnecting_move tame calm move before closing with ⟨t,rfl,_⟩ | ⟨rfl,connected,_⟩
    · exact turn.set t rfl c (old (by simp)) x is
    · exact turn.shut rfl connected x (call_inFlight (old (by simp)) is)

theorem fifo_move (behind : Behind who s) (tame : Tame s) (move : ConnMove s l u) :
    u.loop.queued.Pairwise fun p q => p.functor = .shutdownInLoop → ∀ x, sendOf q = some x → ¬who x.thread := by
  obtain ⟨rest,last,queued,front,from_⟩ := queued_ends move
  have part : rest.Sublist s.loop.queued := by
    rcases front with same | ⟨p,same⟩
    · rw [same]
    · rw [same]
      exact List.sublist_cons_self p rest
  rw [queued,List.pairwise_append]
  refine ⟨behind.fifo.sublist part,?_,fun p inside q new shut x is => ?_⟩
  · cases last with
    | none => exact .nil
    | some p => exact List.pairwise_singleton _ p
  · -- behind a `shutdownInLoop` only a message that was about to be pushed
    obtain ⟨c,called,same⟩ := from_ q x (Option.mem_toList.mp new) is
    exact behind.pushed ((tame.queue p (part.subset inside)).2.2 shut) c called x same

theorem due_move (behind : Behind who s) (turn : InTurn who s l) (tame : Tame s) (calm : l.calm = true)
    (move : ConnMove s l u) (closing : u.conn.state = .kDisconnecting) : u.shutdownDue = true ∨ Landed who u := by
  by_cases before : s.conn.state = .kDisconnecting
  · rcases behind.due before with due | landed
    · simp only [ConnLoop.shutdownDue,Bool.or_eq_true,List.any_eq_true,decide_eq_true_eq] at due
      rcases due with ⟨p,inside,shut⟩ | ⟨c,inside,pc⟩
      · obtain ⟨rest,last,queued,front,_⟩ := queued_ends move
        have stays (there : p ∈ rest) : u.shutdownDue = true := by
          simp only [ConnLoop.shutdownDue,Bool.or_eq_true,List.any_eq_true,decide_eq_true_eq]
          exact .inl ⟨p,by simp [queued,there],shut⟩
        rcases front with same | ⟨q,same⟩
        · exact .inl (stays (same ▸ inside))
        · rw [same,List.mem_cons] at inside
          rcases inside with rfl | there
          · exact .inr (landed_move (behind.front before same shut) before move)
          · exact .inl (stays there)
      · exact .inl (closing_due move inside pc)
    · exact .inr (landed_move landed before move)
  · rcases disconnecting_move tame calm move before closing with ⟨t,_,due⟩ | ⟨rfl,connected,same⟩
    · exact .inl due
    · refine .inr fun x inside => ?_
      exact turn.shut rfl connected x (same ▸ inside)

/-- What is closed by a step is closed behind all messages of these threads. -/
theorem closes_landed_move (behind : Behind who s) (turn : InTurn who s l) (tame : Tame s) (calm : l.calm = true)
    (move : ConnMove s l u) (shuts : s.closes l = true) (closing : u.conn.state = .kDisconnecting) : Landed who u := by
  have landed := closes_landed behind tame turn shuts
  by_cases before : s.conn.state = .kDisconnecting
  · exact landed_move landed before move
  · rcases disconnecting_move tame calm move before closing with ⟨t,rfl,_⟩ | ⟨rfl,_,same⟩
    · cases shuts
    · exact fun x inside => landed x (same ▸ inside)

theorem split_append {before after ops more : List SocketOp} {op : SocketOp} (same : ops ++ more = before ++ op::after)
    (new : op ∉ more) : ∃ rest, ops = before ++ op::rest := by
  rcases List.append_eq_append_iff.mp same with ⟨front,rfl,rest⟩ | ⟨back,rfl,rest⟩
  · exact absurd (by simp [rest]) new
  · cases back with
    | nil => exact absurd (by rw [show more = op::after from rest.symm]; exact List.mem_cons_self) new
    | cons first back =>
      obtain ⟨rfl,_⟩ := List.cons.inj rest
      exact ⟨back,rfl⟩

theorem closed_move (fine : Fine s) (behind : Behind who s) (turn : InTurn who s l) (calm : l.calm = true)
    (move : ConnMove s l u) (before after : List SocketOp) (b : List UInt8)
    (split : u.conn.ops = before ++ .shutdownWrite b :: after) :
    ∃ ran, ran <+: u.conn.ran ∧ accepted before = ran.flatMap SendRun.message ∧
      ∀ t, who t → ((ran.map SendRun.sent).filter fun x => x.thread = t) = u.sent.filter fun x => x.thread = t := by
  have old {rest : List SocketOp} (here : s.conn.ops = before ++ .shutdownWrite b :: rest)
      (grows : s.conn.ran <+: u.conn.ran) : ∃ ran, ran <+: u.conn.ran ∧ accepted before = ran.flatMap SendRun.message ∧
        ∀ t, who t → ((ran.map SendRun.sent).filter fun x => x.thread = t) = u.sent.filter fun x => x.thread = t := by
    obtain ⟨ran,first,whole,mine⟩ := behind.closed before b rest here
    have closing := fine.clean.announced b (by simp [here])
    rcases sent_move move with same | ⟨_,_,_,_,connected,_⟩
    · exact ⟨ran,first.trans grows,whole,same ▸ mine⟩
    · simp [connected] at closing
  cases outputs_move fine.clean.streaming fine.clean.alive fine.tame calm move with
  | goes ops more writes ran taken cause =>
    obtain ⟨rest,here⟩ := split_append (more.symm.trans split) fun inside => by cases writes _ inside
    exact old here ran
  | closes ops more writes ran shuts buffer state cause =>
    rcases List.eq_nil_or_concat' after with rfl | ⟨rest,last,rfl⟩
    · -- this step has closed it
      have landed := closes_landed_move behind turn fine.tame calm move shuts state
      have clean := clean_move fine.clean fine.tame calm move
      have stream := clean.streaming.stream
      rw [split,buffer,List.append_nil,accepted_append,accepted_shutdown,List.append_nil,
        List.filter_eq_self.mpr clean.taken] at stream
      refine ⟨u.conn.ran,List.prefix_rfl,stream,fun t mine => ?_⟩
      have none : (u.inFlight.filter fun x => x.thread = t) = [] := by
        rw [List.filter_eq_nil_iff]
        intro x inside same
        exact landed x inside (by simpa [of_decide_eq_true same] using mine)
      rw [(accounted_move fine.accounted move).order t,List.filter_append,none,List.append_nil]
    · have same : s.conn.ops ++ ops = before ++ .shutdownWrite b :: rest := by
        have whole := more.symm.trans split
        rw [← List.cons_append,← List.append_assoc] at whole
        exact (List.append_inj' whole rfl).1
      obtain ⟨rest,here⟩ := split_append same fun inside => by cases writes _ inside
      exact old here (ran ▸ List.prefix_rfl)

theorem behind_move (fine : Fine s) (behind : Behind who s) (turn : InTurn who s l) (calm : l.calm = true)
    (move : ConnMove s l u) : Behind who u :=
  ⟨pushed_move behind turn fine.tame calm move,fifo_move behind fine.tame move,due_move behind turn fine.tame calm move,
    fun before b after => closed_move fine behind turn calm move before after b⟩

/-- An open connection has nothing to close yet. -/
theorem behind_connected (fine : Fine s) (connected : s.conn.state = .kConnected) : Behind who s := by
  have different : s.conn.state ≠ .kDisconnecting := by simp [connected]
  refine ⟨fun closing => absurd closing different,?_,fun closing => absurd closing different,fun before b after split => ?_⟩
  · exact List.pairwise_of_forall_mem_list fun p inside _ _ shut =>
      absurd ((fine.tame.queue p inside).2.2 shut) different
  · exact absurd (fine.clean.announced b (by simp [split])) different

end

/-- The thread that called `shutdown` on the open connection. As long as the connection is open
it is about to set the state, and afterwards a `send` of this thread finds it closed. -/
structure Caller (t : Nat) (mine : List Sent) (s : ConnLoop) : Prop where
  quiet : ∀ c ∈ s.calls, c.thread = t → callOf c = none
  waits : s.conn.state = .kConnected → ⟨t,.close .shutdown⟩ ∈ s.calls
  past : s.conn.state ≠ .kConnecting
  sent : (s.sent.filter fun x => x.thread = t) = mine

theorem ready_send {t : Nat} {message : List UInt8} {w : Write} (ok : connStep fd s (.send t message w) = some u) :
    ∀ c ∈ s.calls, c.thread ≠ t := by
  obtain ⟨_,ok⟩ := Option.ite_none_left_eq_some.mp ok
  obtain ⟨⟨ready,_⟩,_⟩ := Option.ite_none_right_eq_some.mp ok
  simpa [ConnLoop.ready] using (Bool.and_eq_true_iff.mp ready).2

theorem ready_shutdown {t : Nat} (ok : connStep fd s (.shutdown t) = some u) : ∀ c ∈ s.calls, c.thread ≠ t := by
  obtain ⟨_,ok⟩ := Option.ite_none_left_eq_some.mp ok
  obtain ⟨ready,_⟩ := Option.ite_none_right_eq_some.mp ok
  simpa [ConnLoop.ready] using (Bool.and_eq_true_iff.mp ready).2

theorem Caller.silent {t : Nat} {mine : List Sent} {message : List UInt8} {w : Write} (caller : Caller t mine s)
    (ok : connStep fd s (.send t message w) = some u) : s.conn.state ≠ .kConnected :=
  fun connected => ready_send ok _ (caller.waits connected) rfl

theorem waits_move {t : Nat} (move : ConnMove s l u) (connected : u.conn.state = .kConnected)
    (waits : ⟨t,.close .shutdown⟩ ∈ s.calls) : ⟨t,.close .shutdown⟩ ∈ u.calls := by
  cases move with
  | send r message w foreign open_ => exact List.mem_append.mpr (.inl waits)
  | shutdown r foreign open_ => exact List.mem_append.mpr (.inl waits)
  | forceClose r foreign => exact List.mem_append.mpr (.inl waits)
  | setState r k inside => cases connected
  | pushSend r message loop first queued => exact (List.mem_erase_of_ne (by simp)).mpr waits
  | pushClose r k loop inside queued => exact (List.mem_erase_of_ne (by simp)).mpr waits
  | _ => exact waits

theorem caller_step {t : Nat} {mine : List Sent} (caller : Caller t mine s) (tame : Tame s) (calm : l.calm = true)
    (ok : connStep fd s l = some u) (move : ConnMove s l u) : Caller t mine u := by
  have steady := steady_move tame calm move
  refine ⟨fun c inside here => ?_,fun connected => ?_,?_,?_⟩
  · rcases calls_move move inside with old | origin
    · exact caller.quiet c old here
    · cases origin with
      | send message w named connected same =>
        subst named here
        exact absurd connected (caller.silent ok)
      | _ => simp_all [callOf]
  · rcases steady with same | ⟨connecting,_⟩ | closing
    · exact waits_move move connected (caller.waits (same ▸ connected))
    · exact absurd connecting caller.past
    · simp [closing] at connected
  · rcases steady with same | ⟨connecting,_⟩ | closing
    · exact same ▸ caller.past
    · exact absurd connecting caller.past
    · simp [closing]
  · rcases sent_move move with same | ⟨r,message,w,rfl,connected,same⟩
    · exact same ▸ caller.sent
    · have other : r ≠ t := by
        rintro rfl
        exact caller.silent ok connected
      simpa [same,other] using caller.sent

theorem caller_first {t : Nat} (connected : s.conn.state = .kConnected) (ok : connStep fd s (.shutdown t) = some u) :
    Caller t (s.sent.filter fun x => x.thread = t) u := by
  have free := ready_shutdown ok
  obtain ⟨_,ok⟩ := Option.ite_none_left_eq_some.mp ok
  obtain ⟨_,ok⟩ := Option.ite_none_right_eq_some.mp ok
  rw [if_neg (by simp [connected])] at ok
  split at ok
  · cases ok
    have closing : ((s.conn.setState .kDisconnecting).shutdownInLoop).state = .kDisconnecting := state_shutdownInLoop _
    exact ⟨fun c inside here => absurd here (free c inside),fun connected => by simp [closing] at connected,
      by simp [closing],rfl⟩
  · cases ok
    refine ⟨fun c inside here => ?_,fun _ => by simp,by simp [connected],rfl⟩
    rw [List.mem_append,List.mem_singleton] at inside
    rcases inside with old | rfl
    · exact absurd here (free c old)
    · rfl

theorem Caller.inTurn {t : Nat} {mine : List Sent} (caller : Caller t mine s) (turn : s.inTurn l = true) :
    InTurn (· = t) s l := by
  refine ⟨?_,fun r named c inside x is here => ?_,?_⟩
  · rintro w rfl shuts
    simpa [ConnLoop.inTurn,shuts] using turn
  · rw [caller.quiet c inside ((callOf_thread is).symm.trans here)] at is
    cases is
  · -- the caller has still to set the state, so that this would be a simultaneous call
    rintro rfl connected
    have waits := caller.waits connected
    simp only [ConnLoop.inTurn,connected,ne_eq,not_true_eq_false,decide_false,Bool.false_or,List.all_eq_true,
      decide_eq_true_eq] at turn
    exact absurd rfl (turn _ waits)

theorem alone_inTurn (turn : s.inTurn l = true) (alone : s.alone l = true) : InTurn (fun _ => True) s l := by
  refine ⟨?_,?_,?_⟩
  · rintro w rfl shuts
    simpa [ConnLoop.inTurn,shuts] using turn
  · rintro t rfl c inside x is
    simp only [ConnLoop.alone,List.all_eq_true,decide_eq_true_eq] at alone
    rw [alone c inside] at is
    cases is
  · rintro rfl connected x inside
    have none : s.inFlight = [] := by simpa [ConnLoop.alone,connected] using alone
    rw [none] at inside
    cases inside

/-- Nothing is written once the write side has been closed. -/
structure Sealed (s : ConnLoop) : Prop where
  silent : s.conn.ops.Pairwise fun first second => second.writes = true → first.writes = true
  drained : ∀ b, .shutdownWrite b ∈ s.conn.ops → s.inFlight = [] ∧ s.conn.outputBuffer = []

theorem sealed_open {ops : List SocketOp} (unshut : ∀ b, .shutdownWrite b ∉ ops) :
    ops.Pairwise fun first second => second.writes = true → first.writes = true := by
  refine List.pairwise_of_forall_mem_list fun first member _ _ _ => ?_
  cases first with
  | write data result => rfl
  | shutdownWrite b => exact absurd member (unshut b)

theorem Landed.empty (landed : Landed (fun _ => True) s) : s.inFlight = [] :=
  List.eq_nil_iff_forall_not_mem.mpr fun x inside => landed x inside trivial

theorem Sealed.quiet {b : List UInt8} (fine : Fine s) (done : Sealed s) (shut : .shutdownWrite b ∈ s.conn.ops) :
    s.conn.channel.isWriting = false ∧ s.inFlight = [] ∧ s.conn.state = .kDisconnecting := by
  obtain ⟨landed,empty⟩ := done.drained b shut
  refine ⟨?_,landed,fine.clean.announced b shut⟩
  rw [← Bool.not_eq_true,fine.clean.streaming.writing fine.clean.alive]
  exact fun some => some empty

theorem sealed_move (fine : Fine s) (done : Sealed s) (behind : Behind (fun _ => True) s)
    (turn : InTurn (fun _ => True) s l) (calm : l.calm = true) (move : ConnMove s l u) : Sealed u := by
  cases outputs_move fine.clean.streaming fine.clean.alive fine.tame calm move with
  | goes ops more writes ran taken cause =>
    by_cases shut : ∃ b, .shutdownWrite b ∈ s.conn.ops
    · obtain ⟨b,shut⟩ := shut
      obtain ⟨quiet,none,closing⟩ := done.quiet fine shut
      rcases cause with ⟨rfl,buffer⟩ | writing | flight | connected
      · rw [List.append_nil] at more
        have landed : Landed (fun _ => True) u := landed_move (by simp [Landed,none]) closing move
        exact ⟨more ▸ done.silent,fun _ _ => ⟨landed.empty,buffer.trans (done.drained b shut).2⟩⟩
      · rw [quiet] at writing
        cases writing
      · exact absurd none flight
      · simp [connected] at closing
    · have unshut (b : List UInt8) : .shutdownWrite b ∉ u.conn.ops := by
        rw [more,List.mem_append]
        rintro (old | new)
        · exact shut ⟨b,old⟩
        · cases writes _ new
      exact ⟨sealed_open unshut,fun b inside => absurd inside (unshut b)⟩
  | closes ops more writes ran shuts buffer state cause =>
    have landed := closes_landed_move behind turn fine.tame calm move shuts state
    refine ⟨?_,fun _ _ => ⟨landed.empty,buffer⟩⟩
    rw [more,List.pairwise_append]
    refine ⟨?_,List.pairwise_singleton _ _,fun first _ second last writes => ?_⟩
    · by_cases shut : ∃ b, .shutdownWrite b ∈ s.conn.ops
      · obtain ⟨b,shut⟩ := shut
        have none : ops = [] := by
          by_contra some
          have writing := cause some
          rw [(done.quiet fine shut).1] at writing
          cases writing
        simpa [none] using done.silent
      · refine sealed_open fun b inside => ?_
        rcases List.mem_append.mp inside with old | new
        · exact shut ⟨b,old⟩
        · cases writes _ new
    · cases List.mem_singleton.mp last
      cases writes

theorem sent_perm (accounted : Accounted s) : s.sent.Perm (s.conn.ran.map SendRun.sent ++ s.inFlight) := by
  rw [List.perm_iff_count]
  intro x
  have whole (xs : List Sent) : xs.count x = (xs.filter fun y => y.thread = x.thread).count x := by
    rw [List.count_filter]
    simp
  rw [whole,accounted.order x.thread,← whole]

theorem accepted_silent {ops : List SocketOp} (silent : ∀ op ∈ ops, op.writes = false) : accepted ops = [] := by
  rw [accepted,List.flatMap_eq_nil_iff]
  intro op inside
  cases op with
  | write data result => cases silent _ inside
  | shutdownWrite b => rfl

theorem sealed_stream {before after : List SocketOp} {b : List UInt8} (fine : Fine s) (done : Sealed s)
    (closed : s.conn.ops = before ++ .shutdownWrite b :: after) :
    accepted before = s.conn.ran.flatMap SendRun.message ∧ (s.conn.ran.map SendRun.sent).Perm s.sent ∧
      ∀ op ∈ after, op.writes = false := by
  obtain ⟨landed,empty⟩ := done.drained b (by simp [closed])
  have silent : ∀ op ∈ after, op.writes = false := by
    have pairs := done.silent
    rw [closed,List.pairwise_append,List.pairwise_cons] at pairs
    intro op inside
    rw [← Bool.not_eq_true]
    intro writes
    cases pairs.2.1.1 op inside writes
  refine ⟨?_,?_,silent⟩
  · have stream := fine.clean.streaming.stream
    have rest : accepted (.shutdownWrite b :: after) = [] := by
      refine accepted_silent fun op inside => ?_
      rcases List.mem_cons.mp inside with rfl | later
      · rfl
      · exact silent op later
    rw [closed,empty,List.append_nil,accepted_append,List.filter_eq_self.mpr fine.clean.taken,rest,List.append_nil] at stream
    exact stream
  · have perm := sent_perm fine.accounted
    rw [landed,List.append_nil] at perm
    exact perm.symm

/-- A thread has called `shutdown` on the open connection. When the write side is closed, every
message this thread has sent has been handed to the kernel as a whole, provided that `handleWrite`
does not close it ahead of a `shutdownInLoop` that is due. If no message of another thread
was in flight when the state was set, this holds for the messages of all threads, and
nothing is written afterwards. -/
theorem shutdown_loses_nothing (start v w s : ConnLoop) (earlier later : List ConnLabel) (t : Nat)
    (new : NewConnLoop start) (sends : Run (connStep fd) start earlier v) (connected : v.conn.state = .kConnected)
    (call : connStep fd v (.shutdown t) = some w) (goes : Run (connStep fd) w later s)
    (calm : ∀ l ∈ earlier ++ later, l.calm = true)
    (turn : Along (connStep fd) (fun s l => s.inTurn l = true) w later) (before after : List SocketOp) (b : List UInt8)
    (closed : s.conn.ops = before ++ .shutdownWrite b :: after) :
    (∃ ran, ran <+: s.conn.ran ∧ accepted before = ran.flatMap SendRun.message ∧
      ((ran.map SendRun.sent).filter fun x => x.thread = t) = v.sent.filter fun x => x.thread = t) ∧
    (Along (connStep fd) (fun s l => s.alone l = true) v (.shutdown t :: later) →
      accepted before = s.conn.ran.flatMap SendRun.message ∧ (s.conn.ran.map SendRun.sent).Perm s.sent ∧
      ∀ op ∈ after, op.writes = false) := by
  have fine : Fine v := sends.keeps (fun _ l => l.calm = true) Fine (fun _ _ _ fine calm ok => (fine_step fine calm ok).2)
    (along_of_forall _ _ _ _ fun l inside => calm l (by simp [inside])) (newConnLoop_fine new)
  have calms := along_of_forall (connStep fd) (fun l => l.calm = true) w later fun l inside => calm l (by simp [inside])
  obtain ⟨move,fine'⟩ := fine_step fine rfl call
  refine ⟨?_,fun alone => ?_⟩
  · -- the caller's own messages
    have turn' : InTurn (· = t) v (.shutdown t) := by
      refine ⟨nofun,nofun,fun own _ x inside here => ?_⟩
      cases own
      exact fine.accounted.foreign x inside here
    have last := goes.keeps _ (fun s => Fine s ∧ Behind (· = t) s ∧ Caller t (v.sent.filter fun x => x.thread = t) s)
      (fun s l u now cond ok => by
        obtain ⟨fine,behind,caller⟩ := now
        obtain ⟨move,after⟩ := fine_step fine cond.1 ok
        exact ⟨after,behind_move fine behind (caller.inTurn cond.2) cond.1 move,caller_step caller fine.tame cond.1 ok move⟩)
      (calms.and turn) ⟨fine',behind_move fine (behind_connected fine connected) turn' rfl move,
        caller_first connected call⟩
    obtain ⟨_,behind,caller⟩ := last
    obtain ⟨ran,first,whole,mine⟩ := behind.closed before b after closed
    exact ⟨ran,first,whole,(mine t rfl).trans caller.sent⟩
  · have unshut (b : List UInt8) : .shutdownWrite b ∉ v.conn.ops := fun inside => by
      have closing := fine.clean.announced b inside
      simp [connected] at closing
    have first : Sealed v := ⟨sealed_open unshut,fun b inside => absurd inside (unshut b)⟩
    have turn' : InTurn (fun _ => True) v (.shutdown t) := by
      refine ⟨nofun,nofun,fun own _ x inside _ => ?_⟩
      cases own
      have none : v.inFlight = [] := by simpa [ConnLoop.alone,connected] using alone.1
      rw [none] at inside
      cases inside
    have behind : Behind (fun _ => True) v := behind_connected fine connected
    have last := goes.keeps _ (fun s => Fine s ∧ Behind (fun _ => True) s ∧ Sealed s)
      (fun s l u now cond ok => by
        obtain ⟨fine,behind,done⟩ := now
        obtain ⟨move,after⟩ := fine_step fine cond.1.1 ok
        have turn := alone_inTurn cond.1.2 cond.2
        exact ⟨after,behind_move fine behind turn cond.1.1 move,sealed_move fine done behind turn cond.1.1 move⟩)
      ((calms.and turn).and (alone.2 w call))
      ⟨fine',behind_move fine behind turn' rfl move,sealed_move fine first behind turn' rfl move⟩
    obtain ⟨fine,_,done⟩ := last
    exact sealed_stream fine done closed

/-- The loop thread has buffered a byte, and thread 1 has sent another one. -/
private def sending : List ConnLabel :=
  [.runInLoop 0 .connectEstablished,.send 0 [1] (.failed .ewouldblock),.send 1 [2] (.wrote 0),.push 1,.loop (.wakeup 1)]

/-- Thread 1 has called `shutdown`; the loop wakes up. -/
private def closing : List ConnLabel :=
  [.setState 1,.push 1,.loop (.wakeup 1),.loop .loop,.loop .check,.loop (.poll true),.loop .handleRead]

/-- The queued functors have their turn before the socket is writable. -/
private def drainedLast : List ConnLabel :=
  closing ++ [ConnLabel.loop .handled,.loop .swap,.run (.wrote 0),.run (.wrote 0),.loop .finish,.loop .check,
    .loop (.poll false),.handleWrite (.wrote 2)]

theorem shutdown_loses_nothing_drained :
    (connRun (sending ++ [ConnLabel.shutdown 1] ++ drainedLast)).conn.ops =
      [.write [1] (.failed .ewouldblock),.write [1,2] (.wrote 2)] ++ [.shutdownWrite []] ∧
    (∃ ran, ran <+: (connRun (sending ++ [ConnLabel.shutdown 1] ++ drainedLast)).conn.ran ∧
      accepted [.write [1] (.failed .ewouldblock),.write [1,2] (.wrote 2)] = ran.flatMap SendRun.message ∧
      ((ran.map SendRun.sent).filter fun x => x.thread = 1) = (connRun sending).sent.filter fun x => x.thread = 1) ∧
    (connRun sending).sent = [⟨0,[1]⟩,⟨1,[2]⟩] ∧
    accepted [.write [1] (.failed .ewouldblock),.write [1,2] (.wrote 2)] =
      (connRun (sending ++ [ConnLabel.shutdown 1] ++ drainedLast)).conn.ran.flatMap SendRun.message := by
  have done := shutdown_loses_nothing (newConnLoop 0 64 true true) (connRun sending)
    (connRun (sending ++ [ConnLabel.shutdown 1])) _ sending drainedLast 1 ⟨0,64,true,true,rfl⟩
    (final_run _ _ _ (by decide +kernel)) (by decide +kernel) (final_step _ _ _ _ (by decide +kernel))
    (final_append _ _ _ _ (by decide +kernel)) (by decide +kernel) (by decide +kernel)
    [.write [1] (.failed .ewouldblock),.write [1,2] (.wrote 2)] [] [] (by decide +kernel)
  exact ⟨by decide +kernel,done.1,by decide +kernel,(done.2 (by decide +kernel)).1⟩

/-- The socket is writable first: `handleWrite` drains the old byte and closes the write side. -/
private def drainedFirst : List ConnLabel := sending ++ ConnLabel.shutdown 1 :: closing ++ [ConnLabel.handleWrite (.wrote 1)]

theorem shutdown_loses_message :
    ∃ s u, (∃ ls, Run (connStep linuxEventFd) (newConnLoop 0 64 true true) ls s ∧ ∀ l ∈ ls, l.calm = true) ∧
      s.sent = [⟨0,[1]⟩,⟨1,[2]⟩] ∧ s.conn.ops = [.write [1] (.failed .ewouldblock),.write [1] (.wrote 1),.shutdownWrite []] ∧
      accepted s.conn.ops = [1] ∧
      Run (connStep linuxEventFd) s [.loop .handled,.loop .swap,.run (.failed .epipe)] u ∧
      u.conn.ops = s.conn.ops ++ [.write [2] (.failed .epipe)] := by
  have next := final_append (connStep linuxEventFd) (newConnLoop 0 64 true true) drainedFirst
    [.loop .handled,.loop .swap,.run (.failed .epipe)] (by decide +kernel)
  refine ⟨connRun drainedFirst,_,⟨drainedFirst,final_run _ _ _ ?_,?_⟩,?_,?_,?_,next,?_⟩
  all_goals decide +kernel

end Reactor.Net
