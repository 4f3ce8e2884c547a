import Reactor.Net.ConnectionLoop
import Mathlib.Data.List.Perm.Basic

/-! The messages on their way. A call of `send` that found the connection open is executed,
queued or about to be queued, and those of one thread stay in order; what has been executed
makes up the output stream. -/
namespace Reactor.Net
open Reactor.Transition

variable {fd : EventFd} {s u : ConnLoop} {l : ConnLabel}

def sendOf (p : Push ConnFunctor) : Option Sent :=
  match p.functor with
  | .sendInLoop message => some ⟨p.thread,message⟩
  | _ => none

def callOf (c : ConnCall) : Option Sent :=
  match c.pc with
  | .send message => some ⟨c.thread,message⟩
  | _ => none

theorem callOf_thread {c : ConnCall} {x : Sent} (found : callOf c = some x) : x.thread = c.thread := by
  unfold callOf at found
  split at found
  · cases found
    rfl
  · cases found

/-- The messages that `sendInLoop` has not seen yet. -/
def ConnLoop.inFlight (s : ConnLoop) : List Sent := s.loop.queued.filterMap sendOf ++ s.calls.filterMap callOf

structure Accounted (s : ConnLoop) : Prop where
  order : ∀ t, (s.sent.filter fun x => x.thread = t) =
    (s.conn.ran.map SendRun.sent ++ s.inFlight).filter fun x => x.thread = t
  foreign : ∀ x ∈ s.inFlight, x.thread ≠ s.loop.threadId

theorem free_sendOf {f : ConnFunctor} (free : f.free = true) (t : Nat) (looping : Bool) : sendOf ⟨f,t,looping⟩ = none := by
  cases f with
  | sendInLoop message => cases free
  | _ => rfl

/-- A functor that the connection itself queues. -/
def ConnFunctor.notice : ConnFunctor → Bool
  | .writeComplete | .highWaterMark _ => true
  | _ => false

theorem notice_send (c : TcpConnection) (t : Nat) (message : List UInt8) (w : Write) (f : ConnFunctor)
    (queued : (c.sendInLoop t message w).2 = some f) : f.notice = true := by
  unfold TcpConnection.sendInLoop TcpConnection.buffer at queued
  grind [ConnFunctor.notice]

theorem notice_perform (c : TcpConnection) (t : Nat) (w : Write) (g f : ConnFunctor)
    (queued : (c.perform t w g).2 = some f) : f.notice = true := by
  cases g with
  | sendInLoop message => exact notice_send c t message w f queued
  | _ => cases queued

theorem notice_handleWrite (c : TcpConnection) (w : Write) (f : ConnFunctor) (queued : (c.handleWrite w).2 = some f) :
    f.notice = true := by
  unfold TcpConnection.handleWrite at queued
  grind [ConnFunctor.notice]

theorem ran_send (c : TcpConnection) (t : Nat) (message : List UInt8) (w : Write) :
    (c.sendInLoop t message w).1.ran.map SendRun.sent = c.ran.map SendRun.sent ++ [⟨t,message⟩] := by
  unfold TcpConnection.sendInLoop TcpConnection.buffer
  grind [SendRun.sent]

theorem ran_perform (c : TcpConnection) (t : Nat) (w : Write) (f : ConnFunctor) (looping : Bool) :
    (c.perform t w f).1.ran.map SendRun.sent = c.ran.map SendRun.sent ++ (sendOf ⟨f,t,looping⟩).toList := by
  cases f with
  | sendInLoop message => exact ran_send c t message w
  | shutdownInLoop => grind [TcpConnection.perform,TcpConnection.shutdownInLoop,sendOf]
  | forceCloseInLoop => grind [TcpConnection.perform,TcpConnection.forceCloseInLoop,TcpConnection.handleClose,sendOf]
  | startReadInLoop => grind [TcpConnection.perform,TcpConnection.startReadInLoop,sendOf]
  | stopReadInLoop => grind [TcpConnection.perform,TcpConnection.stopReadInLoop,sendOf]
  | connectEstablished => grind [TcpConnection.perform,TcpConnection.connectEstablished,sendOf]
  | connectDestroyed => grind [TcpConnection.perform,TcpConnection.connectDestroyed,TcpConnection.removeChannel,sendOf]
  | _ => simp [TcpConnection.perform,sendOf]

theorem ran_handleWrite (c : TcpConnection) (w : Write) : (c.handleWrite w).1.ran = c.ran := by
  unfold TcpConnection.handleWrite TcpConnection.shutdownInLoop
  grind

theorem notice_sendOf {f : ConnFunctor} (notice : f.notice = true) (t : Nat) (looping : Bool) :
    sendOf ⟨f,t,looping⟩ = none := by
  cases f with
  | sendInLoop message => cases notice
  | _ => rfl

theorem inFlight_settle (r : TcpConnection × Option ConnFunctor)
    (quiet : ∀ f, r.2 = some f → ∀ t looping, sendOf ⟨f,t,looping⟩ = none) : (s.settle r).inFlight = s.inFlight := by
  obtain ⟨c,queued⟩ := r
  cases queued with
  | none => rfl
  | some f => simp [ConnLoop.inFlight,ConnLoop.settle,quiet f rfl]

theorem thread_settle (r : TcpConnection × Option ConnFunctor) : (s.settle r).loop.threadId = s.loop.threadId := by
  obtain ⟨c,queued⟩ := r
  cases queued with
  | none => rfl
  | some f => rfl

theorem inFlight_queued {loop : EventLoop ConnFunctor} {p : Push ConnFunctor} (queued : Queued s.loop loop [p])
    (quiet : sendOf p = none) : ({s with loop := loop} : ConnLoop).inFlight = s.inFlight := by
  simp [ConnLoop.inFlight,queued.queued,quiet]

theorem inFlight_run {p : Push ConnFunctor} {loop : EventLoop ConnFunctor} (queued : s.loop.queued = p :: loop.queued)
    (w : Write) : s.inFlight =
      (sendOf p).toList ++ (({s with loop := loop} : ConnLoop).settle (s.conn.perform p.thread w p.functor)).inFlight := by
  rw [inFlight_settle _ fun f notice => notice_sendOf (notice_perform s.conn p.thread w p.functor f notice)]
  cases found : sendOf p <;> simp [ConnLoop.inFlight,queued,found]

/-- A thread in one call: taking it out leaves the calls of the others as they are. -/
theorem calls_erase (calls : List ConnCall) (t : Nat) (c : ConnCall)
    (first : (calls.find? fun c => c.thread = t) = some c) (r : Nat) :
    ((calls.filterMap callOf).filter fun x => x.thread = r) =
      ((callOf c).toList ++ (calls.erase c).filterMap callOf).filter fun x => x.thread = r := by
  induction calls with
  | nil => cases first
  | cons d rest ih =>
    by_cases here : d.thread = t
    · obtain rfl : d = c := by simpa [here] using first
      cases found : callOf d <;> simp [found]
    · have later : (rest.find? fun c => c.thread = t) = some c := by simpa [here] using first
      have same : c.thread = t := by simpa using List.find?_some later
      have other : d ≠ c := by
        rintro rfl
        exact here same
      have tail := ih later
      rw [List.erase_cons_tail (by simpa using other)]
      cases one : callOf d with
      | none => simpa [one] using tail
      | some x =>
        cases two : callOf c with
        | none =>
          rw [two] at tail
          simp only [List.filterMap_cons,one,Option.toList_none,List.nil_append] at tail ⊢
          rw [List.filter_cons,List.filter_cons,tail]
        | some y =>
          -- the two belong to different threads, so that only one of them counts
          rw [two] at tail
          have apart : x.thread ≠ y.thread := by
            rw [callOf_thread one,callOf_thread two,same]
            exact here
          simp only [List.filterMap_cons,one,Option.toList_some,List.singleton_append,List.filter_cons] at tail ⊢
          rw [tail]
          by_cases mine : x.thread = r
          · have others : y.thread ≠ r := fun yours => apart (mine.trans yours.symm)
            simp [mine,others]
          · simp [mine]

theorem calls_erase_other (calls : List ConnCall) (c : ConnCall) (other : callOf c = none) :
    (calls.erase c).filterMap callOf = calls.filterMap callOf := by
  induction calls with
  | nil => rfl
  | cons d rest ih =>
    by_cases same : d = c
    · subst same
      simp [other]
    · rw [List.erase_cons_tail (by simpa using same),List.filterMap_cons,List.filterMap_cons,ih]

theorem inFlight_setState (conn : TcpConnection) (t : Nat) (k : Close) :
    ({s with conn := conn, calls := ⟨t,.closing k⟩ :: s.calls.erase ⟨t,.close k⟩} : ConnLoop).inFlight = s.inFlight := by
  rw [ConnLoop.inFlight,ConnLoop.inFlight,← calls_erase_other s.calls ⟨t,.close k⟩ rfl]
  rfl

theorem inFlight_pushClose {loop : EventLoop ConnFunctor} {t : Nat} {k : Close}
    (queued : Queued s.loop loop [⟨k.functor,t,s.loop.looping⟩]) :
    ({s with loop := loop, calls := s.calls.erase ⟨t,.closing k⟩} : ConnLoop).inFlight = s.inFlight := by
  have quiet : sendOf ⟨k.functor,t,s.loop.looping⟩ = none := by cases k <;> rfl
  rw [ConnLoop.inFlight,ConnLoop.inFlight,← calls_erase_other s.calls ⟨t,.closing k⟩ rfl,queued.queued]
  simp [quiet]

theorem inFlight_pushSend {loop : EventLoop ConnFunctor} {t : Nat} {message : List UInt8}
    (first : (s.calls.find? fun c => c.thread = t) = some ⟨t,.send message⟩)
    (queued : Queued s.loop loop [⟨.sendInLoop message,t,s.loop.looping⟩]) (r : Nat) :
    (({s with loop := loop, calls := s.calls.erase ⟨t,.send message⟩} : ConnLoop).inFlight.filter
      fun x => x.thread = r) = s.inFlight.filter fun x => x.thread = r := by
  have pushed : ({s with loop := loop, calls := s.calls.erase ⟨t,.send message⟩} : ConnLoop).inFlight =
      s.loop.queued.filterMap sendOf ++ ([⟨t,message⟩] ++ (s.calls.erase ⟨t,.send message⟩).filterMap callOf) := by
    simp [ConnLoop.inFlight,queued.queued,sendOf]
  rw [pushed,ConnLoop.inFlight,List.filter_append,List.filter_append _ (s.calls.filterMap callOf),
    calls_erase s.calls t _ first r]
  rfl

theorem accounted_frame (accounted : Accounted s) (sent : u.sent = s.sent)
    (ran : u.conn.ran.map SendRun.sent = s.conn.ran.map SendRun.sent) (inFlight : u.inFlight = s.inFlight)
    (thread : u.loop.threadId = s.loop.threadId) : Accounted u := by
  constructor
  · rw [sent,ran,inFlight]
    exact accounted.order
  · rw [inFlight,thread]
    exact accounted.foreign

/-- A message that is executed goes from the one list to the end of the other. -/
theorem accounted_perform {p : Push ConnFunctor} {loop : EventLoop ConnFunctor} (accounted : Accounted s) (w : Write)
    (queued : s.loop.queued = p :: loop.queued) (thread : loop.threadId = s.loop.threadId) :
    Accounted (({s with loop := loop} : ConnLoop).settle (s.conn.perform p.thread w p.functor)) := by
  have taken := inFlight_run queued w
  constructor
  · intro t
    have order := accounted.order t
    rw [taken,← List.append_assoc,← ran_perform s.conn p.thread w p.functor p.looping] at order
    exact order
  · intro x inside
    rw [thread_settle,thread]
    refine accounted.foreign x ?_
    rw [taken]
    exact List.mem_append.mpr (.inr inside)

theorem accounted_sendNow (accounted : Accounted s) (message : List UInt8) (w : Write) :
    Accounted {s.settle (s.conn.sendInLoop s.loop.threadId message w) with
      sent := s.sent ++ [⟨s.loop.threadId,message⟩]} := by
  have same := inFlight_settle (s := s) (s.conn.sendInLoop s.loop.threadId message w)
    fun f notice => notice_sendOf (notice_send s.conn _ message w f notice)
  constructor
  · intro t
    change ((s.sent ++ [_]).filter _) = ((s.conn.sendInLoop s.loop.threadId message w).1.ran.map SendRun.sent ++
      (s.settle (s.conn.sendInLoop s.loop.threadId message w)).inFlight).filter _
    rw [same,ran_send,List.filter_append,accounted.order t]
    simp only [List.filter_append,List.append_assoc]
    by_cases own : t = s.loop.threadId
    · -- no message of the loop thread is in flight
      have none : (s.inFlight.filter fun x => x.thread = t) = [] := by
        rw [List.filter_eq_nil_iff]
        intro x inside
        simpa [own] using accounted.foreign x inside
      rw [none]
      simp
    · simp [Ne.symm own]
  · change ∀ x ∈ (s.settle (s.conn.sendInLoop s.loop.threadId message w)).inFlight,
      x.thread ≠ (s.settle (s.conn.sendInLoop s.loop.threadId message w)).loop.threadId
    rw [same,thread_settle]
    exact accounted.foreign

theorem accounted_send (accounted : Accounted s) {t : Nat} (message : List UInt8) (foreign : t ≠ s.loop.threadId) :
    Accounted {s with calls := s.calls ++ [⟨t,.send message⟩], sent := s.sent ++ [⟨t,message⟩]} := by
  have more : ({s with calls := s.calls ++ [⟨t,.send message⟩], sent := s.sent ++ [⟨t,message⟩]} : ConnLoop).inFlight =
      s.inFlight ++ [⟨t,message⟩] := by
    simp [ConnLoop.inFlight,callOf]
  constructor
  · intro r
    rw [more,← List.append_assoc,List.filter_append,List.filter_append,accounted.order r]
  · rw [more]
    intro x inside
    rcases List.mem_append.mp inside with old | new
    · exact accounted.foreign x old
    · cases List.mem_singleton.mp new
      exact foreign

theorem accounted_pushSend {loop : EventLoop ConnFunctor} {t : Nat} {message : List UInt8} (accounted : Accounted s)
    (first : (s.calls.find? fun c => c.thread = t) = some ⟨t,.send message⟩)
    (queued : Queued s.loop loop [⟨.sendInLoop message,t,s.loop.looping⟩]) :
    Accounted {s with loop := loop, calls := s.calls.erase ⟨t,.send message⟩} := by
  have same := inFlight_pushSend first queued
  constructor
  · intro r
    rw [List.filter_append,same r,← List.filter_append]
    exact accounted.order r
  · intro x inside
    have there : x ∈ s.inFlight.filter fun y => y.thread = x.thread := by
      rw [← same x.thread]
      simpa using inside
    change x.thread ≠ loop.threadId
    rw [queued.thread]
    exact accounted.foreign x (List.mem_filter.mp there).1

theorem accounted_move (accounted : Accounted s) (move : ConnMove s l u) : Accounted u := by
  cases move with
  | loop l loop queued => exact accounted_frame accounted rfl rfl (by simp [ConnLoop.inFlight,queued.queued]) queued.thread
  | queue t f loop free queued =>
    exact accounted_frame accounted rfl rfl (inFlight_queued queued (free_sendOf free _ _)) queued.thread
  | run p rest loop w next queued thread => exact accounted_perform accounted w queued thread
  | perform f free =>
    refine accounted_frame accounted rfl ?_ ?_ (thread_settle _)
    · have same := ran_perform s.conn s.loop.threadId (.wrote 0) f false
      rw [free_sendOf free,Option.toList_none,List.append_nil] at same
      exact same
    · exact inFlight_settle _ fun g notice => notice_sendOf (notice_perform s.conn _ _ f g notice)
  | give t f loop free queued =>
    exact accounted_frame accounted rfl rfl (inFlight_queued queued (free_sendOf free _ _)) queued.thread
  | sendNow message w connected => exact accounted_sendNow accounted message w
  | send t message w foreign connected => exact accounted_send accounted message foreign
  | shutdownNow connected =>
    refine accounted_frame accounted rfl ?_ rfl rfl
    unfold TcpConnection.shutdownInLoop
    split
    · rfl
    · rfl
  | shutdown t foreign connected => exact accounted_frame accounted rfl rfl (by simp [ConnLoop.inFlight,callOf]) rfl
  | forceCloseNow connected =>
    refine accounted_frame accounted rfl rfl (inFlight_settle _ ?_) (thread_settle _)
    rintro _ ⟨⟩ t looping
    rfl
  | forceClose t foreign => exact accounted_frame accounted rfl rfl (by simp [ConnLoop.inFlight,callOf]) rfl
  | setState t k inside => exact accounted_frame accounted rfl rfl (inFlight_setState _ t k) rfl
  | pushSend t message loop first queued => exact accounted_pushSend accounted first queued
  | pushClose t k loop inside queued => exact accounted_frame accounted rfl rfl (inFlight_pushClose queued) queued.thread
  | handleClose l kind =>
    refine accounted_frame accounted rfl ?_ rfl rfl
    unfold TcpConnection.handleClose
    split
    · rfl
    · rfl
  | handleWrite w =>
    refine accounted_frame accounted rfl ?_ ?_ (thread_settle _)
    · exact congrArg (List.map SendRun.sent) (ran_handleWrite s.conn w)
    · exact inFlight_settle _ fun f notice => notice_sendOf (notice_handleWrite s.conn w f notice)
  | stay l => exact accounted

/-- The stream is kept as long as nobody closes the write side of, or reopens, a connection
that is closed. -/
theorem streaming_move (streaming : Streaming s.conn) (move : ConnMove s l u)
    (queue : ∀ p ∈ s.loop.queued, p.functor = .shutdownInLoop → s.conn.state ≠ .kDisconnected)
    (calls : ∀ c ∈ s.calls, callOf c = none → s.conn.state ≠ .kDisconnected) : Streaming u.conn := by
  cases move with
  | run p rest loop w next queued thread =>
    exact streaming_perform p.thread w p.functor streaming (queue p (by simp [queued]))
  | perform f free =>
    refine streaming_perform s.loop.threadId _ f streaming ?_
    rintro rfl
    cases free
  | sendNow message w connected => exact streaming_send s.loop.threadId message w streaming
  | shutdownNow connected =>
    refine streaming_shutdown (streaming_frame streaming rfl rfl rfl fun _ => ⟨by simp [connected],rfl⟩) ?_
    simp [TcpConnection.setState]
  | forceCloseNow connected =>
    refine streaming_frame streaming rfl rfl rfl fun _ => ⟨?_,rfl⟩
    rcases connected with here | here <;> simp [here]
  | setState t k inside => exact streaming_frame streaming rfl rfl rfl fun _ => ⟨calls _ inside rfl,rfl⟩
  | handleClose l kind => exact streaming_handleClose streaming
  | handleWrite w => exact streaming_handleWrite w streaming
  | _ => exact streaming

theorem queued_settle {r : TcpConnection × Option ConnFunctor} {p : Push ConnFunctor}
    (inside : p ∈ (s.settle r).loop.queued) : p ∈ s.loop.queued ∨ r.2 = some p.functor := by
  obtain ⟨c,queued⟩ := r
  cases queued with
  | none => exact .inl inside
  | some f =>
    simp only [ConnLoop.settle,queueInLoop_queued,List.mem_append,List.mem_singleton] at inside
    rcases inside with old | rfl
    · exact .inl old
    · exact .inr rfl

def ConnLabel.gives : ConnLabel → Option ConnFunctor
  | .runInLoop _ f | .loop (.queueInLoop _ f) => some f
  | _ => none

inductive Origin (s : ConnLoop) (l : ConnLabel) (f : ConnFunctor) : Prop
  | notice (kind : f.notice = true)
  | send (message : List UInt8) (same : f = .sendInLoop message)
  | free (kind : f.free = true) (given : l.gives = some f)
  | close (t : Nat) (k : Close) (inside : ⟨t,.closing k⟩ ∈ s.calls) (same : f = k.functor)
  | forceClose (own : l = .forceClose s.loop.threadId) (same : f = .forceCloseInLoop)

theorem queued_move {p : Push ConnFunctor} (move : ConnMove s l u) (inside : p ∈ u.loop.queued) :
    p ∈ s.loop.queued ∨ Origin s l p.functor := by
  have pushed {loop : EventLoop ConnFunctor} {d : Push ConnFunctor} (queued : Queued s.loop loop [d])
      (there : p ∈ loop.queued) (origin : Origin s l d.functor) : p ∈ s.loop.queued ∨ Origin s l p.functor := by
    rw [queued.queued,List.mem_append,List.mem_singleton] at there
    rcases there with old | rfl
    · exact .inl old
    · exact .inr origin
  cases move with
  | loop l loop queued => exact .inl (by simpa [queued.queued] using inside)
  | queue t f loop free queued => exact pushed queued inside (.free free rfl)
  | run d rest loop w next queued thread =>
    rcases queued_settle inside with old | new
    · exact .inl (by simp [queued,show p ∈ loop.queued from old])
    · exact .inr (.notice (notice_perform s.conn d.thread w d.functor _ new))
  | perform f free =>
    exact (queued_settle inside).imp_right fun new => .notice (notice_perform s.conn _ _ f _ new)
  | give t f loop free queued => exact pushed queued inside (.free free rfl)
  | sendNow message w connected =>
    exact (queued_settle (s := s) inside).imp_right fun new => .notice (notice_send s.conn _ message w _ new)
  | forceCloseNow connected =>
    exact (queued_settle inside).imp_right fun new => .forceClose rfl (Option.some.inj new).symm
  | pushSend t message loop first queued => exact pushed queued inside (.send message rfl)
  | pushClose t k loop called queued => exact pushed queued inside (.close t k called rfl)
  | handleWrite w => exact (queued_settle inside).imp_right fun new => .notice (notice_handleWrite s.conn w _ new)
  | _ => exact .inl inside

inductive CallOrigin (s : ConnLoop) (l : ConnLabel) (u : ConnLoop) (c : ConnCall) : Prop
  | send (message : List UInt8) (w : Write) (named : l = .send c.thread message w)
      (connected : s.conn.state = .kConnected) (same : c.pc = .send message)
  | shutdown (named : l = .shutdown c.thread) (foreign : c.thread ≠ s.loop.threadId) (same : c.pc = .close .shutdown)
  | forceClose (named : l = .forceClose c.thread) (foreign : c.thread ≠ s.loop.threadId) (same : c.pc = .close .forceClose)
  | closing (k : Close) (set : u.conn.state = .kDisconnecting) (inside : ⟨c.thread,.close k⟩ ∈ s.calls)
      (same : c.pc = .closing k)

theorem calls_move {c : ConnCall} (move : ConnMove s l u) (inside : c ∈ u.calls) : c ∈ s.calls ∨ CallOrigin s l u c := by
  have added {d : ConnCall} (there : c ∈ s.calls ++ [d]) (origin : CallOrigin s l u d) :
      c ∈ s.calls ∨ CallOrigin s l u c := by
    rw [List.mem_append,List.mem_singleton] at there
    rcases there with old | rfl
    · exact .inl old
    · exact .inr origin
  cases move with
  | send t message w foreign connected => exact added inside (.send message w rfl connected rfl)
  | shutdown t foreign connected => exact added inside (.shutdown rfl foreign rfl)
  | forceClose t foreign => exact added inside (.forceClose rfl foreign rfl)
  | setState t k called =>
    rcases List.mem_cons.mp inside with rfl | old
    · exact .inr (.closing k rfl called rfl)
    · exact .inl (List.mem_of_mem_erase old)
  | pushSend t message loop first queued => exact .inl (List.mem_of_mem_erase inside)
  | pushClose t k loop called queued => exact .inl (List.mem_of_mem_erase inside)
  | _ => exact .inl inside

/-- `shutdown` and `forceClose` are called in the loop thread. -/
def ConnLoop.closedAtHome (s : ConnLoop) : ConnLabel → Bool
  | .shutdown t | .forceClose t => t = s.loop.threadId
  | _ => true

structure AtHome (s : ConnLoop) : Prop where
  queue : ∀ p ∈ s.loop.queued, p.functor ≠ .shutdownInLoop
  calls : ∀ c ∈ s.calls, callOf c ≠ none

theorem atHome_move (home : AtHome s) (closed : s.closedAtHome l = true) (move : ConnMove s l u) : AtHome u := by
  constructor
  · intro p inside shut
    rcases queued_move move inside with old | origin
    · exact home.queue p old shut
    · rw [shut] at origin
      cases origin with
      | notice kind => cases kind
      | send message same => cases same
      | free kind given => cases kind
      | close t k called same => exact home.calls _ called rfl
      | forceClose own same => cases same
  · intro c inside other
    rcases calls_move move inside with old | origin
    · exact home.calls c old other
    · cases origin with
      | send message w named connected same => simp [callOf,same] at other
      | shutdown named foreign same =>
        subst named
        exact foreign (by simpa [ConnLoop.closedAtHome] using closed)
      | forceClose named foreign same =>
        subst named
        exact foreign (by simpa [ConnLoop.closedAtHome] using closed)
      | closing k set called same => exact home.calls _ called rfl

/-- What holds for new connections and is kept by steps that meet a condition holds after a run. -/
theorem accounted_run {start : ConnLoop} {ls : List ConnLabel} (new : NewConnLoop start)
    (run : Run (connStep fd) start ls s) (cond : ConnLoop → ConnLabel → Prop) (along : Along (connStep fd) cond start ls)
    (holds : ConnLoop → Prop) (first : ∀ threadId mark high complete, holds (newConnLoop threadId mark high complete))
    (step : ∀ s l u, Accounted s → holds s → cond s l → ConnMove s l u → holds u) : Accounted s ∧ holds s := by
  have kept := run.keeps cond (fun s => Ordered s.loop ∧ Accounted s ∧ holds s) ?_ along ?_
  · exact kept.2
  · rintro s l u ⟨ordered,accounted,before⟩ now ok
    obtain ⟨move,after⟩ := connStep_move ordered ok
    exact ⟨after,accounted_move accounted move,step s l u accounted before now move⟩
  · obtain ⟨threadId,mark,high,complete,rfl⟩ := new
    refine ⟨⟨rfl,fun _ _ => rfl⟩,⟨fun _ => rfl,fun _ inside => ?_⟩,first threadId mark high complete⟩
    exact absurd inside List.not_mem_nil

theorem newConnLoop_streaming (threadId mark : Nat) (high complete : Bool) :
    Streaming (newConnLoop threadId mark high complete).conn :=
  ⟨rfl,fun _ => by simp [newConnLoop],fun _ inside => absurd inside List.not_mem_nil⟩

/-- The kernel and the buffer hold the messages that `sendInLoop` took, whole and in order;
those of a thread are executed in its order; the write event is on just while something is
buffered, and the write side is closed only when nothing is. -/
theorem output_stream_intact (start s : ConnLoop) (ls : List ConnLabel) (new : NewConnLoop start)
    (run : Run (connStep fd) start ls s)
    (along : Along (connStep fd) (fun s l => s.closedAtHome l = true) start ls) :
    accepted s.conn.ops ++ s.conn.outputBuffer = (s.conn.ran.filter SendRun.taken).flatMap SendRun.message ∧
    (∀ t, (s.sent.filter fun x => x.thread = t) =
      ((s.conn.ran.map SendRun.sent).filter fun x => x.thread = t) ++ s.inFlight.filter fun x => x.thread = t) ∧
    (s.conn.state = .kConnected ∨ s.conn.state = .kDisconnecting →
      (s.conn.channel.isWriting = true ↔ s.conn.outputBuffer ≠ [])) ∧
    ∀ b, .shutdownWrite b ∈ s.conn.ops → b = [] := by
  have first (threadId mark : Nat) (high complete : Bool) :
      Streaming (newConnLoop threadId mark high complete).conn ∧ AtHome (newConnLoop threadId mark high complete) :=
    ⟨newConnLoop_streaming threadId mark high complete,fun _ inside => absurd inside List.not_mem_nil,
      fun _ inside => absurd inside List.not_mem_nil⟩
  obtain ⟨accounted,streaming,_⟩ := accounted_run new run _ along (fun s => Streaming s.conn ∧ AtHome s) first
    fun s l u _ before closed move =>
      ⟨streaming_move before.1 move (fun p inside same => absurd same (before.2.queue p inside))
        (fun c inside none => absurd none (before.2.calls c inside)),atHome_move before.2 closed move⟩
  refine ⟨streaming.stream,fun t => ?_,fun connected => streaming.writing ?_,streaming.closed⟩
  · rw [← List.filter_append]
    exact accounted.order t
  · rcases connected with here | here <;> simp [here]

/-- A short write, a message of another thread behind what is buffered, a write that would
block, and `shutdown` before the buffer is drained. -/
private def shortWrites : List ConnLabel :=
  [.runInLoop 0 .connectEstablished,.send 0 [1,2,3] (.wrote 1),.send 1 [4] (.wrote 0),.push 1,.loop (.wakeup 1),.send 0 [] (.wrote 0),
    .loop .loop,.loop .check,.loop (.poll true),.loop .handleRead,.handleWrite (.failed .ewouldblock),.loop .handled,.loop .swap,
    .run (.wrote 0),.shutdown 0,.loop .finish,.loop .check,.loop (.poll false),.handleWrite (.wrote 1),.handleWrite (.wrote 2)]

abbrev connRun (ls : List ConnLabel) : ConnLoop := final (connStep linuxEventFd) (newConnLoop 0 64 true true) ls

theorem output_stream_intact_drained :
    (connRun shortWrites).conn.ops = [.write [1,2,3] (.wrote 1),.write [2,3] (.failed .ewouldblock),.write [2,3,4] (.wrote 1),
      .write [3,4] (.wrote 2),.shutdownWrite []] ∧
    accepted (connRun shortWrites).conn.ops ++ (connRun shortWrites).conn.outputBuffer =
      ((connRun shortWrites).conn.ran.filter SendRun.taken).flatMap SendRun.message :=
  ⟨by decide +kernel,(output_stream_intact _ _ shortWrites ⟨0,64,true,true,rfl⟩ (final_run _ _ _ (by decide +kernel))
    (by decide +kernel)).1⟩

end Reactor.Net
