import Reactor.Net.Assertions
import Reactor.Net.Functors

/-! Connections from `connectEstablished` to `connectDestroyed`, in a server that is not
destroyed. Their phases keep every assertion of the server. -/
namespace Reactor.Net
open Reactor.Transition

/-- What runs in the life of a connection, with what it finds: `erase` one entry,
`connectDestroyed` the state, and `Channel::remove` no events to wait for. -/
def lifecycle : List Act :=
  [.connectEstablished,.connectionCallback true,.handleClose,.connectionCallback false,.removeConnectionInLoop 1,
    .connectDestroyed .kDisconnected,.remove true]

/-- The server stays, and a call on a connection comes from the thread of its loop. -/
def Server.inThread (s : Server) : ServerLabel → Bool
  | .call t c _ _ => (s.conns c).all fun k => k.loop = t
  | .destroy => false
  | _ => true

section
variable {names : Nat → String} {s u : Server} {c : Nat} {k : Conn} {fd : EventFd} {a b : Life} {p : Phase}
  {l : ServerLabel} {quiet : Bool}

theorem LifeMove.acts {rule : Rule} {touch : Touch} (move : LifeMove rule a touch b) : a.acts <+: b.acts := by
  have closed (d : Life) (before : a.acts <+: d.acts) : a.acts <+: d.handleClose.acts := by
    unfold Life.handleClose
    split <;> exact before.trans (List.prefix_append _ _)
  have established (d : Life) (before : a.acts <+: d.acts) : a.acts <+: d.connectEstablished.acts := by
    unfold Life.connectEstablished
    split <;> exact before.trans (List.prefix_append _ _)
  have destroyed (d : Life) (before : a.acts <+: d.acts) : a.acts <+: d.connectDestroyed.acts := by
    unfold Life.connectDestroyed
    split
    · exact before.trans (List.prefix_append _ _)
    · exact (before.trans (List.prefix_append _ _)).trans (List.prefix_append _ _)
  have erased (d : Life) (before : a.acts <+: d.acts) : a.acts <+: d.removeConnectionInLoop.acts := by
    unfold Life.removeConnectionInLoop
    split
    · exact before
    · split <;> exact before.trans (List.prefix_append _ _)
  cases move with
  | code queue pending acts b fs plain keeps own => exact List.prefix_append _ _
  | handleClose queue pending acts closing apart live => exact closed _ (List.prefix_append _ _)
  | connectEstablished rest next => exact established _ List.prefix_rfl
  | connectDestroyed rest next found => exact destroyed _ List.prefix_rfl
  | take ends here listed found => exact destroyed _ List.prefix_rfl
  | removeConnectionInLoop n next => exact erased _ List.prefix_rfl
  | removeConnection n next =>
    unfold Life.removeConnection
    split
    · exact List.prefix_rfl
    · split
      · exact List.prefix_append _ _
      · exact erased _ (List.prefix_append _ _)
  | remove n next => exact List.prefix_append _ _
  | _ => exact List.prefix_rfl

namespace InPhase

/-- No failed assertion has left its trace in a phase. -/
theorem untraced (inside : InPhase p a) {acts : List Act} {act : Act} {x : Assertion} (last : a.acts = acts ++ [act]) :
    ¬ x.trace act := by
  intro trace
  have milestone : act.milestone = true := by
    unfold Assertion.trace at trace
    split at trace <;> first | rfl | cases trace
  have ends : p.miles.getLast? = some act := by
    rw [← inside.miles,last,List.filter_append,List.filter_singleton,milestone]
    simp
  unfold Assertion.trace at trace
  split at trace
  all_goals cases p <;> simp_all [Phase.miles]

theorem shut_of_state (inside : InPhase p a) (off : a.conn.state = .kDisconnected) : p.shut = true := by
  rcases p.kinds with rfl | rfl | late
  · have live := inside.state
    simp [Phase.state,off,StateE.isOpen] at live
  · simp [inside.connecting_state] at off
  · exact late

theorem count_miles (inside : InPhase p a) {act : Act} (milestone : act.milestone = true) :
    a.acts.count act = p.miles.count act := by
  rw [← inside.miles,List.count_filter milestone]

theorem mem_miles (inside : InPhase p a) {act : Act} (milestone : act.milestone = true) :
    act ∈ a.acts ↔ act ∈ p.miles := by
  rw [← inside.miles]
  simp [milestone]

theorem miles_lifecycle (inside : InPhase p a) : a.acts.filter Act.milestone <+: lifecycle := by
  rw [inside.miles]
  cases p <;> decide

end InPhase

/-- A connection in its phase, behind the close of which nothing is read if it is to be quiet. -/
def Life.Phased (quiet : Bool) (a : Life) : Prop := (∃ p, InPhase p a) ∧ (quiet = true → Quiet a)

theorem Life.Phased.move {touch : Touch} (phased : a.Phased quiet) (move : LifeMove (.orderly quiet) a touch b) :
    b.Phased quiet := by
  obtain ⟨⟨p,inside⟩,hushed⟩ := phased
  refine ⟨inside.move move fun quiet => (hushed quiet).live inside,?_⟩
  rintro rfl
  exact (hushed rfl).move inside move

/-- The phases of all connections, in a server that is not destroyed. -/
structure InPhases (quiet : Bool) (names : Nat → String) (s : Server) : Prop where
  placed : Placed names s
  lives : ∀ c k, s.conns c = some k → (s.life c k).Phased quiet
  on : s.begun = false
  fine : s.failed = none

theorem newServer_phases (quiet : Bool) (new : NewServer s) : InPhases quiet names s := by
  obtain ⟨writeCompleteCallback,rfl⟩ := new
  exact ⟨newServer_placed writeCompleteCallback,nofun,rfl,rfl⟩

namespace InPhases

theorem guarded (phases : InPhases quiet names s) (swaps : s.swaps l = true) (starts : s.startsOpen l = true)
    (stays : l ≠ .destroy) (reads : (bif quiet then l.whole else s.endsOpen l) = true) :
    Guarded (.orderly quiet) s l := by
  refine ⟨fun _ => swaps,fun _ => starts,fun _ => ⟨phases.on,stays⟩,?_,?_,nofun⟩
  · rintro ⟨⟩
    exact reads
  · rintro ⟨⟩
    exact reads

/-- No assertion fails between connections that are in their phases. -/
theorem no_failure (phases : InPhases quiet names s) (move : ServerMove fd names s l u)
    (lives : ∀ c k, u.conns c = some k → ∃ p, InPhase p (u.life c k)) : u.failed = none := by
  cases bad : u.failed with
  | none => rfl
  | some x =>
    rcases move_failed move phases.fine bad with ⟨c,k,acts,act,found,last,trace⟩ | ⟨_,i,ch,held,removes⟩
    · obtain ⟨p,inside⟩ := lives c k found
      exact absurd trace (inside.untraced last)
    · have off := phases.on
      cases removes with
      | remove c rest next =>
        obtain ⟨k,found,home⟩ : BelongsTo s.conns i c := (phases.placed.threads i).stack (.remove c) (by simp [next])
        obtain ⟨⟨p,inside⟩,_⟩ := phases.lives c k found
        have count : 0 < (s.life c k).removing := by
          change 0 < (s.threads k.loop).stack.count (.remove c)
          simp [home,next]
        simp [inside.removing] at count
      | take name c k rest stack base next first found home => simp [destructor_begun next] at off
      | acceptor stack base next all => simp [destructor_begun next] at off

theorem step (phases : InPhases quiet names s) (distinct : Function.Injective names)
    (guarded : Guarded (.orderly quiet) s l) (ok : serverStep fd names s l = some u) : InPhases quiet names u := by
  have move := phases.placed.move ok
  have on : u.begun = false := by
    rw [← Bool.not_eq_true]
    intro begun
    have before := move_begun move (guarded.stays rfl).2 begun
    simp [phases.on] at before
  have lives := lives_step (Life.Phased quiet) phases.placed distinct guarded ok
    (fun _ _ _ _ phased moved _ => phased.move moved)
    (fun away callback => ⟨InPhase.born away callback,fun _ => Quiet.born away callback⟩) phases.lives
  exact ⟨placed_move phases.placed move,lives,on,phases.no_failure move fun c k found => (lives c k found).1⟩

/-- A connection that is closed stays closed. -/
theorem closed (phases : InPhases quiet names s) (distinct : Function.Injective names)
    (guarded : Guarded (.orderly quiet) s l) (ok : serverStep fd names s l = some u)
    (closed : ∃ k, s.conns c = some k ∧ k.conn.state = .kDisconnected) :
    ∃ k, u.conns c = some k ∧ k.conn.state = .kDisconnected := by
  obtain ⟨k,found,off⟩ := closed
  obtain ⟨⟨p,inside⟩,_⟩ := phases.lives c k found
  have shut := inside.closed.mpr (inside.shut_of_state off)
  obtain ⟨touch,b,moved,⟨k',there,_,rfl⟩,_⟩ :=
    life_move phases.placed distinct guarded (phases.placed.move ok) ⟨k,found,rfl,rfl⟩
  obtain ⟨⟨q,after⟩,_⟩ := (phases.step distinct guarded ok).lives c k' there
  exact ⟨k',there,after.shut_state (after.closed.mp (moved.acts.subset shut))⟩

end InPhases

theorem inThread_stays (inThread : s.inThread l = true) : l ≠ .destroy := by
  rintro rfl
  cases inThread

theorem quiet_swaps (quiet : ∀ t, s.calls t = none) : s.swaps l = true := by
  cases l with
  | proceed t => simp [Server.swaps,quiet t]
  | _ => rfl

theorem inThread_quiet (quiet : ∀ t, s.calls t = none) (inThread : s.inThread l = true)
    (move : ServerMove fd names s l u) (t : Nat) : u.calls t = none := by
  rw [Option.eq_none_iff_forall_ne_some]
  intro x call
  rcases move_calls move call with ⟨y,before,_⟩ | ⟨api,w,k,rfl,found,away⟩
  · cases (quiet t).symm.trans before
  · have home : k.loop = t := by simpa [Server.inThread,found] using inThread
    exact away home.symm

/-- Runs in which every call on a connection is made by its own thread. -/
theorem phases_inThread (distinct : Function.Injective names) {start : Server} {ls : List ServerLabel} (new : NewServer start)
    (run : Run (serverStep fd names) start ls s)
    (inThread : Along (serverStep fd names) (fun s l => s.inThread l = true) start ls)
    (starts : Along (serverStep fd names) (fun s l => s.startsOpen l = true) start ls)
    (reads : Along (serverStep fd names) (fun s l => (bif quiet then l.whole else s.endsOpen l) = true) start ls) :
    InPhases quiet names s := by
  refine (run.keeps _ (fun s => InPhases quiet names s ∧ ∀ t, s.calls t = none) ?_ ((inThread.and starts).and reads)
    ⟨newServer_phases quiet new,?_⟩).1
  · rintro s l u ⟨phases,none⟩ ⟨⟨inThread,starts⟩,reads⟩ ok
    have guarded := phases.guarded (quiet_swaps none) starts (inThread_stays inThread) reads
    exact ⟨phases.step distinct guarded ok,inThread_quiet none inThread (phases.placed.move ok)⟩
  · obtain ⟨_,rfl⟩ := new
    exact fun _ => rfl

/-- Runs with calls by other threads, each of which changes `state_` only if it is as the thread has found it. -/
theorem phases_swaps (distinct : Function.Injective names) {start : Server} {ls : List ServerLabel}
    (run : Run (serverStep fd names) start ls s) (stays : .destroy ∉ ls)
    (along : Along (serverStep fd names) (fun s l => s.swaps l = true ∧ s.startsOpen l = true ∧ s.endsOpen l = true) start ls)
    (holds : Server → Prop)
    (kept : ∀ s l u, InPhases false names s → holds s → Guarded (.orderly false) s l → serverStep fd names s l = some u →
      holds u)
    (first : InPhases false names start ∧ holds start) : InPhases false names s ∧ holds s := by
  have stays : ∀ l ∈ ls, l ≠ .destroy := fun l member same => stays (same ▸ member)
  refine run.keeps _ (fun s => InPhases false names s ∧ holds s) ?_
    (along.and (along_of_forall (serverStep fd names) _ start ls stays)) first
  rintro s l u ⟨phases,before⟩ ⟨⟨swaps,starts,ends⟩,stays⟩ ok
  have guarded := phases.guarded swaps starts stays ends
  exact ⟨phases.step distinct guarded ok,kept s l u phases before guarded ok⟩

theorem life_queued (f : ConnFunctor) :
    (s.life c k).queue.count f = (s.threads k.loop).loop.queued.countP fun p => p.functor = .conn c f := by
  change ((s.threads k.loop).loop.queued.filterMap fun p => p.functor.of c).count f = _
  rw [List.count_filterMap]
  refine List.countP_congr fun p _ => ?_
  cases p.functor with
  | conn d g => by_cases mine : d = c <;> simp [ServerFunctor.of,mine]
  | _ => simp [ServerFunctor.of]

namespace InPhase

/-- `connectEstablished` waits in the queue, or it was the first thing that was done. -/
theorem established (inside : InPhase p a) :
    (a.acts = [] ∧ a.queue.count .connectEstablished = 1) ∨
      (a.acts.head? = some .connectEstablished ∧ a.queue.count .connectEstablished = 0) := by
  have count : a.queue.count .connectEstablished = p.tokens.count .connectEstablished := by
    rw [← inside.tokens,List.count_filter rfl]
  rw [count]
  by_cases early : p = .connecting
  · exact .inl ⟨(inside.fresh early).2.1,by rw [early]; rfl⟩
  · refine .inr ⟨inside.started early,?_⟩
    cases p <;> first | rfl | exact absurd rfl early

theorem closed_once (inside : InPhase p a) : a.acts.count .handleClose ≤ 1 := by
  rw [inside.count_miles rfl]
  cases p <;> simp [Phase.miles]

theorem erased_once (inside : InPhase p a) {n : Nat} (erased : .removeConnectionInLoop n ∈ a.acts) :
    n = 1 ∧ a.acts.count (.removeConnectionInLoop n) = 1 := by
  rw [inside.mem_miles rfl] at erased
  rw [inside.count_miles rfl]
  cases p <;> simp_all [Phase.miles]

/-- A connection is listed until `removeConnectionInLoop` erases it. -/
theorem listed_iff (inside : InPhase p a) : a.listed = true ↔ ∀ n, .removeConnectionInLoop n ∉ a.acts := by
  have same (n : Nat) : .removeConnectionInLoop n ∈ a.acts ↔ .removeConnectionInLoop n ∈ p.miles := inside.mem_miles rfl
  simp only [inside.listed,same]
  cases p <;> simp [Phase.listed,Phase.miles]

end InPhase

theorem afterClose_once {acts : List Act} (once : acts.count .handleClose ≤ 1) : .handleClose ∉ afterClose acts := by
  intro member
  have inside : .handleClose ∈ acts := (List.dropWhile_suffix _).subset (List.mem_of_mem_tail member)
  obtain ⟨before,after,rfl,fresh⟩ := List.eq_append_cons_of_mem inside
  rw [afterClose_first fresh] at member
  rw [List.count_append,List.count_cons_self] at once
  have again := List.count_pos_iff.mpr member
  omega

theorem InPhases.connections (phases : InPhases quiet names s) (name : String) (c : Nat) :
    (name,c) ∈ s.connections ↔
      name = names c ∧ ∃ k, s.conns c = some k ∧ ∀ n, .removeConnectionInLoop n ∉ k.acts := by
  have listed : s.listed c = true ↔ ∃ name, (name,c) ∈ s.connections := by simp [Server.listed]
  constructor
  · intro member
    obtain ⟨own,k,found⟩ := phases.placed.connections _ member
    obtain ⟨⟨p,inside⟩,_⟩ := phases.lives c k found
    exact ⟨own,k,found,inside.listed_iff.mp (listed.mpr ⟨name,member⟩)⟩
  · rintro ⟨rfl,k,found,never⟩
    obtain ⟨⟨p,inside⟩,_⟩ := phases.lives c k found
    obtain ⟨name,member⟩ := listed.mp (inside.listed_iff.mpr never)
    have own : name = names c := (phases.placed.connections _ member).1
    exact own ▸ member

end

/-- In a server that is not destroyed, and whose connections are used by their own threads,
every connection goes through its life in order: each step of it once, no assertion fails,
and `connections_` has those that are not erased. The read handler may not find the end of
the file when the close handler of the same event has closed the connection. -/
theorem connection_lifecycle (fd : EventFd) (names : Nat → String) (distinct : Function.Injective names)
    (start s : Server) (ls : List ServerLabel) (new : NewServer start) (run : Run (serverStep fd names) start ls s)
    (inThread : Along (serverStep fd names) (fun s l => s.inThread l = true) start ls)
    (starts : Along (serverStep fd names) (fun s l => s.startsOpen l = true) start ls)
    (ends : Along (serverStep fd names) (fun s l => s.endsOpen l = true) start ls) :
    s.failed = none ∧
    (∀ c k, s.conns c = some k →
      k.acts.filter Act.milestone <+: lifecycle ∧
      ((k.acts = [] ∧
          ((s.threads k.loop).loop.queued.countP fun p => p.functor = .conn c .connectEstablished) = 1) ∨
        (k.acts.head? = some .connectEstablished ∧
          ((s.threads k.loop).loop.queued.countP fun p => p.functor = .conn c .connectEstablished) = 0))) ∧
    (∀ name c, (name,c) ∈ s.connections ↔
      name = names c ∧ ∃ k, s.conns c = some k ∧ ∀ n, .removeConnectionInLoop n ∉ k.acts) ∧
    (s.connections.map Prod.snd).Nodup := by
  have phases : InPhases false names s := phases_inThread distinct new run inThread starts ends
  refine ⟨phases.fine,fun c k found => ?_,phases.connections,phases.placed.once⟩
  obtain ⟨⟨p,inside⟩,_⟩ := phases.lives c k found
  rw [← life_queued]
  exact ⟨inside.miles_lifecycle,inside.established⟩

def numbered : Nat → String := connName "server" "127.0.0.1:2007"

def serverRun (ls : List ServerLabel) : Server := final (serverStep linuxEventFd numbered) (newServer false) ls

def readable : Revents := ⟨true,false,false,false,false,false,false⟩

/-- What `readv` and `accept` give, the latter with the loop that `getNextLoop` gives. -/
def results (n : Int) (io : Nat) : Results := ⟨n,.wrote 0,some io⟩

/-- The base loop accepts a connection for loop `io` and comes back to its poller. -/
def acceptOne (io : Nat) : List ServerLabel :=
  [.loop 0 .loop,.loop 0 .check,.poll 0 false [(.acceptor,readable)],.dispatch 0,.resume 0 (results 0 io),
    .loop 0 .handled,.loop 0 .swap,.loop 0 .finish,.loop 0 .check]

/-- Loop 1 gets a connection and establishes it; its peer closes. -/
def peerCloses : List ServerLabel :=
  acceptOne 1 ++ [ServerLabel.loop 1 (.wakeup 0),.loop 1 .loop,.loop 1 .check,.poll 1 true [],.loop 1 .handleRead,
    .loop 1 .handled,.loop 1 .swap,.run 1 (.wrote 0),.loop 1 .finish,.loop 1 .check,.poll 1 false [(.conn 1,readable)],
    .dispatch 1,.resume 1 (results 0 0),.resume 1 (results 0 0),.loop 0 (.wakeup 1)]

/-- The base loop erases the connection, and loop 1 destroys it. -/
def wholeLife : List ServerLabel :=
  peerCloses ++ [ServerLabel.poll 0 true [],.loop 0 .handleRead,.loop 0 .handled,.loop 0 .swap,.run 0 (.wrote 0),
    .loop 1 (.wakeup 0),.loop 1 .handled,.loop 1 .swap,.run 1 (.wrote 0)]

theorem connection_lifecycle_whole :
    ((serverRun wholeLife).conns 1).map (fun k => k.acts.filter Act.milestone) = some lifecycle ∧
    (serverRun wholeLife).failed = none :=
  ⟨by decide +kernel,(connection_lifecycle linuxEventFd numbered (connName_injective _ _) (newServer false) _ wholeLife
    ⟨false,rfl⟩ (final_run _ _ _ (by decide +kernel)) (by decide +kernel) (by decide +kernel) (by decide +kernel)).1⟩

/-- POLLHUP and POLLPRI without POLLIN. -/
def hangUp : Revents := ⟨false,true,false,false,true,false,false⟩

private def closedTwice : List ServerLabel :=
  acceptOne 0 ++ [ServerLabel.poll 0 false [(.conn 1,hangUp)],.dispatch 0,.resume 0 (results 0 0),.resume 0 (results 0 0),
    .resume 0 (results 0 0)]

theorem handleClose_twice :
    ∃ s, Run (serverStep linuxEventFd numbered) (newServer false) closedTwice s ∧
      Along (serverStep linuxEventFd numbered) (fun s l => s.inThread l = true ∧ s.startsOpen l = true) (newServer false)
        closedTwice ∧
      s.failed = some .handleClose ∧
      (s.conns 1).map Conn.acts = some [.connectEstablished,.connectionCallback true,.handleClose,.connectionCallback false,
        .removeConnection,.removeConnectionInLoop 1,.handleRead 0,.handleClose] := by
  refine ⟨serverRun closedTwice,final_run _ _ _ ?_,?_,?_,?_⟩
  all_goals decide +kernel

/-- Once `handleClose` has run, the channel waits for nothing, nothing is read and
`handleClose` does not run again, as long as nobody starts to read again and no event asks
for the close handler and the read handler at once. -/
theorem closed_stays_closed (fd : EventFd) (names : Nat → String) (distinct : Function.Injective names)
    (start s : Server) (ls : List ServerLabel) (new : NewServer start) (run : Run (serverStep fd names) start ls s)
    (inThread : Along (serverStep fd names) (fun s l => s.inThread l = true) start ls)
    (starts : Along (serverStep fd names) (fun s l => s.startsOpen l = true) start ls)
    (whole : ∀ l ∈ ls, l.whole = true) :
    s.failed = none ∧
    ∀ c k, s.conns c = some k →
      (.handleClose ∈ k.acts → k.conn.state = .kDisconnected ∧ k.conn.channel.isNoneEvent = true ∧
        ∀ act ∈ afterClose k.acts, act.reads = false ∧ act ≠ .handleClose) ∧
      ∀ isNoneEvent, .remove isNoneEvent ∈ k.acts → isNoneEvent = true := by
  have phases : InPhases true names s := phases_inThread distinct new run inThread starts
    (along_of_forall (serverStep fd names) (fun l => l.whole = true) start ls whole)
  refine ⟨phases.fine,fun c k found => ?_⟩
  obtain ⟨⟨p,inside⟩,hushed⟩ := phases.lives c k found
  refine ⟨fun closed => ?_,fun isNoneEvent removed => ?_⟩
  · have late := inside.closed.mp closed
    have off := inside.shut_state late
    refine ⟨off,inside.idle (by simp [off,StateE.isOpen]),fun act member =>
      ⟨((hushed rfl).shut closed).2 act member,?_⟩⟩
    rintro rfl
    exact afterClose_once inside.closed_once member
  · have kept : .remove isNoneEvent ∈ k.acts.filter Act.milestone := List.mem_filter.mpr ⟨removed,rfl⟩
    have found := inside.miles_lifecycle.subset kept
    simpa [lifecycle] using found

theorem closed_stays_closed_peer :
    ((serverRun peerCloses).conns 1).map Conn.acts = some [.connectEstablished,.connectionCallback true,.handleRead 0,
      .handleClose,.connectionCallback false,.removeConnection] ∧
    ∀ k, (serverRun peerCloses).conns 1 = some k → .handleClose ∈ k.acts → k.conn.channel.isNoneEvent = true :=
  ⟨by decide +kernel,fun k found closed => (((closed_stays_closed linuxEventFd numbered (connName_injective _ _)
    (newServer false) _ peerCloses ⟨false,rfl⟩ (final_run _ _ _ (by decide +kernel)) (by decide +kernel) (by decide +kernel)
    (by decide +kernel)).2 1 k found).1 closed).2.1⟩

/-- The connection callback starts to read again when the connection has been closed. -/
private def readAgain : List ServerLabel :=
  acceptOne 0 ++ [ServerLabel.poll 0 false [(.conn 1,readable)],.dispatch 0,.resume 0 (results 0 0),
    .call 0 1 .startRead (.wrote 0),.resume 0 (results 0 0),.loop 0 .handled,.loop 0 .swap,.run 0 (.wrote 0)]

/-- The read handler of the event that closed the connection gives five bytes. -/
private def readBehindClose : List ServerLabel :=
  acceptOne 0 ++ [ServerLabel.poll 0 false [(.conn 1,hangUp)],.dispatch 0,.resume 0 (results 0 0),.resume 0 (results 0 0),
    .resume 0 (results 5 0)]

theorem closed_reads_again :
    (∃ s, Run (serverStep linuxEventFd numbered) (newServer false) readAgain s ∧
      Along (serverStep linuxEventFd numbered) (fun s l => s.inThread l = true) (newServer false) readAgain ∧
      s.failed = some .isNoneEvent ∧
      (s.conns 1).map Conn.acts = some [.connectEstablished,.connectionCallback true,.handleRead 0,.handleClose,
        .connectionCallback false,.removeConnection,.removeConnectionInLoop 1,.connectDestroyed .kDisconnected,.remove false]) ∧
    ∃ s, Run (serverStep linuxEventFd numbered) (newServer false) readBehindClose s ∧
      Along (serverStep linuxEventFd numbered) (fun s l => s.inThread l = true) (newServer false) readBehindClose ∧
      (s.conns 1).map Conn.acts = some [.connectEstablished,.connectionCallback true,.handleClose,.connectionCallback false,
        .removeConnection,.removeConnectionInLoop 1,.handleRead 5,.messageCallback] := by
  refine ⟨⟨serverRun readAgain,final_run _ _ _ ?_,?_,?_,?_⟩,⟨serverRun readBehindClose,final_run _ _ _ ?_,?_,?_⟩⟩
  all_goals decide +kernel

/-- A connection that is disconnected stays so, whatever other threads call, if each of
them sets `state_` only as long as its own test of `state_` would still succeed. -/
theorem kDisconnected_absorbing (fd : EventFd) (names : Nat → String) (distinct : Function.Injective names)
    (start mid s : Server) (first second : List ServerLabel) (new : NewServer start)
    (before : Run (serverStep fd names) start first mid) (after : Run (serverStep fd names) mid second s)
    (stays : .destroy ∉ first ++ second)
    (along : Along (serverStep fd names)
      (fun s l => s.swaps l = true ∧ s.startsOpen l = true ∧ s.endsOpen l = true) start (first ++ second)) :
    s.failed = none ∧
    (∀ c, (∃ k, mid.conns c = some k ∧ k.conn.state = .kDisconnected) →
      ∃ k, s.conns c = some k ∧ k.conn.state = .kDisconnected) ∧
    ∀ c k, s.conns c = some k → k.acts.count .handleClose ≤ 1 ∧
      ∀ n, .removeConnectionInLoop n ∈ k.acts → n = 1 ∧ k.acts.count (.removeConnectionInLoop n) = 1 := by
  obtain ⟨early,late⟩ := along.split before
  simp only [List.mem_append,not_or] at stays
  have reached := phases_swaps distinct before stays.1 early (fun _ => True) (fun _ _ _ _ _ _ _ => trivial)
    ⟨newServer_phases false new,trivial⟩
  have onward (holds : Server → Prop) := phases_swaps distinct after stays.2 late holds
  have phases := (onward (fun _ => True) (fun _ _ _ _ _ _ _ => trivial) reached).1
  refine ⟨phases.fine,fun c closed => ?_,fun c k found => ?_⟩
  · exact (onward (fun s => ∃ k, s.conns c = some k ∧ k.conn.state = .kDisconnected)
      (fun s l u phases closed guarded ok => phases.closed distinct guarded ok closed) ⟨reached.1,closed⟩).2
  · obtain ⟨⟨p,inside⟩,_⟩ := phases.lives c k found
    exact ⟨inside.closed_once,fun n erased => inside.erased_once erased⟩

/-- Thread 2 calls `forceClose`, its functor runs, and the connection is erased. -/
private def foreignClose : List ServerLabel :=
  acceptOne 0 ++ [ServerLabel.call 2 1 .forceClose (.wrote 0),.proceed 2,.proceed 2,.loop 0 (.wakeup 2),.poll 0 true [],
    .loop 0 .handleRead,.loop 0 .handled,.loop 0 .swap,.run 0 (.wrote 0)]

theorem kDisconnected_absorbing_foreign :
    ((serverRun foreignClose).conns 1).map (fun k => k.conn.state) = some .kDisconnected ∧
    ∃ k, (serverRun (foreignClose ++ [.resume 0 (results 0 0)])).conns 1 = some k ∧ k.conn.state = .kDisconnected := by
  have closed : ((serverRun foreignClose).conns 1).map (fun k => k.conn.state) = some .kDisconnected := by decide +kernel
  refine ⟨closed,?_⟩
  exact (kDisconnected_absorbing linuxEventFd numbered (connName_injective _ _) (newServer false) _ _ foreignClose
    [.resume 0 (results 0 0)] ⟨false,rfl⟩ (final_run _ _ _ (by decide +kernel)) (final_append _ _ _ _ (by decide +kernel))
    (by decide +kernel) (by decide +kernel)).2.1 1 (Option.map_eq_some_iff.mp closed)

/-- Thread 2 has found the connection open; then the peer closes it, and it is erased. -/
private def closedMeanwhile : List ServerLabel :=
  acceptOne 0 ++ [ServerLabel.call 2 1 .forceClose (.wrote 0),.poll 0 false [(.conn 1,readable)],.dispatch 0,
    .resume 0 (results 0 0),.resume 0 (results 0 0)]

/-- Thread 2 goes on. -/
private def closedAnew : List ServerLabel :=
  [.proceed 2,.proceed 2,.loop 0 .handled,.loop 0 .swap,.run 0 (.wrote 0),.run 0 (.wrote 0),.resume 0 (results 0 0)]

theorem kDisconnected_left :
    ∃ s u, Run (serverStep linuxEventFd numbered) (newServer false) closedMeanwhile s ∧
      Run (serverStep linuxEventFd numbered) s closedAnew u ∧ .destroy ∉ closedMeanwhile ++ closedAnew ∧
      (s.conns 1).map (fun k => k.conn.state) = some .kDisconnected ∧
      ((serverStep linuxEventFd numbered s (.proceed 2)).bind fun v => (v.conns 1).map fun k => k.conn.state) =
        some .kDisconnecting ∧
      u.failed = some .erased ∧
      (u.conns 1).map Conn.acts = some [.connectEstablished,.connectionCallback true,.handleRead 0,.handleClose,
        .connectionCallback false,.removeConnection,.removeConnectionInLoop 1,.connectDestroyed .kDisconnecting,.remove true,
        .handleClose,.connectionCallback false,.removeConnection,.removeConnectionInLoop 0] := by
  refine ⟨serverRun closedMeanwhile,serverRun (closedMeanwhile ++ closedAnew),final_run _ _ _ ?_,final_append _ _ _ _ ?_,
    ?_,?_,?_,?_,?_⟩
  all_goals decide +kernel

end Reactor.Net
