import Reactor.Net.ConnectionClose
import Reactor.Net.Turns

/-! The destructor of the server: what it leaves of the connections, and how it meets with
connections that close at the same time. -/
namespace Reactor.Net
open Reactor.Transition

/-- The acts that end a connection, and those that report its end. -/
def Act.tells : Act → Bool
  | .connectionCallback false | .connectDestroyed _ | .remove _ => true
  | _ => false

/-- A connection of which the user and the loop are told as they should be: the
disconnection is reported once, and the channel is removed without events to wait for.
Whatever is not listed any more is destroyed or will be. -/
structure Told (a : Life) : Prop where
  live : a.conn.state ≠ .kDisconnected → .connectionCallback false ∉ a.acts ∧ ∀ state, .connectDestroyed state ∉ a.acts
  dead : a.conn.state = .kDisconnected → a.acts.count (.connectionCallback false) = 1
  idle : a.conn.state.isOpen = false → a.conn.channel.isNoneEvent = true
  removed : ∀ isNoneEvent, .remove isNoneEvent ∈ a.acts → isNoneEvent = true
  removing : 0 < a.removing → a.conn.state = .kDisconnected
  fresh : a.conn.state = .kConnecting →
    a.away = true ∧ (a.queue.filter ConnFunctor.token).head? = some .connectEstablished
  ended : a.listed = false →
    .connectDestroyed ∈ a.queue.filter ConnFunctor.token ∨ ∃ state, .connectDestroyed state ∈ a.acts
  gone : a.destroyed = true → a.listed = false

theorem StateE.ready {state : StateE} (established : state ≠ .kConnecting) (decided : state ≠ .kDisconnecting) :
    state = .kConnected ∨ state = .kDisconnected := by
  cases state with
  | kConnecting => exact absurd rfl established
  | kDisconnecting => exact absurd rfl decided
  | kConnected => exact .inl rfl
  | kDisconnected => exact .inr rfl

section
variable {names : Nat → String} {s u : Server} {c : Nat} {k : Conn} {fd : EventFd} {a b : Life} {l : ServerLabel}

namespace Told

theorem later (told : Told a) (acts : List Act) (gone : a.listed = false) :
    .connectDestroyed ∈ a.queue.filter ConnFunctor.token ∨ ∃ state, .connectDestroyed state ∈ a.acts ++ acts :=
  (told.ended gone).imp_right fun ⟨state,member⟩ => ⟨state,List.mem_append_left _ member⟩

theorem extend (told : Told a) (acts : List Act) (silent : .connectionCallback false ∉ acts)
    (live : a.conn.state ≠ .kDisconnected → ∀ state, .connectDestroyed state ∉ acts)
    (removed : ∀ isNoneEvent, .remove isNoneEvent ∈ acts → isNoneEvent = true) :
    Told {a with acts := a.acts ++ acts} := by
  refine {told with live := fun on => ?_, dead := fun off => ?_, removed := fun b member => ?_, ended := told.later acts}
  · obtain ⟨unheard,kept⟩ := told.live on
    exact ⟨by simp [unheard,silent],fun state => by simp [kept state,live on state]⟩
  · rw [List.count_append,List.count_eq_zero.mpr silent,Nat.add_zero]
    exact told.dead off
  · exact (List.mem_append.mp member).elim (told.removed b) (removed b)

theorem note (told : Told a) (acts : List Act) (quiet : ∀ act ∈ acts, act.tells = false) :
    Told {a with acts := a.acts ++ acts} :=
  told.extend acts (fun member => nomatch quiet _ member) (fun _ _ member => nomatch quiet _ member)
    (fun _ member => nomatch quiet _ member)

/-- Functors that are neither `connectEstablished` nor `connectDestroyed` come and go. -/
theorem requeue (told : Told a) (queue more : List ConnFunctor)
    (tokens : queue.filter ConnFunctor.token = a.queue.filter ConnFunctor.token ++ more) :
    Told {a with queue := queue} := by
  refine {told with fresh := fun connecting => ?_, ended := fun gone => ?_}
  · obtain ⟨away,first⟩ := told.fresh connecting
    exact ⟨away,by rw [tokens,List.head?_append,first,Option.some_or]⟩
  · rw [tokens]
    exact (told.ended gone).imp_left (List.mem_append_left _)

theorem keep (told : Told a) {b : TcpConnection} (keeps : Keeps a.conn b) : Told {a with conn := b} := by
  have same {state : StateE} (here : b.state = state) (off : state.isOpen = false) : a.conn.state = state :=
    (keeps.state (by rw [← keeps.isOpen,here,off])).symm.trans here
  have shut (off : a.conn.state = .kDisconnected) : b.state = .kDisconnected := by
    rw [keeps.state (by simp [off,StateE.isOpen]),off]
  refine {told with
    live := fun on => told.live fun off => on (shut off)
    dead := fun off => told.dead (same off rfl)
    idle := fun off => keeps.isNoneEvent (keeps.isOpen ▸ off) (told.idle (keeps.isOpen ▸ off))
    removing := fun some => shut (told.removing some)
    fresh := fun connecting => told.fresh (same connecting rfl) }

/-- What `handleClose` and `connectDestroyed` do to a connection that is not yet disconnected. -/
theorem disconnect (told : Told a) (on : a.conn.state ≠ .kDisconnected) (act : Act) (silent : act ≠ .connectionCallback false)
    (plain : ∀ isNoneEvent, act ≠ .remove isNoneEvent) :
    Told {a with
      conn := {a.conn with state := .kDisconnected, channel := a.conn.channel.disableAll}
      acts := a.acts ++ [act,.connectionCallback false]} :=
  {told with
    live := fun off => absurd rfl off
    dead := fun _ => by simp [List.count_append,List.count_eq_zero.mpr (told.live on).1,silent]
    idle := fun _ => rfl
    removed := fun b member => told.removed b (by simpa [(plain b).symm] using member)
    removing := fun _ => rfl
    fresh := nofun
    ended := told.later _ }

theorem handleClose (told : Told a) : Told a.handleClose := by
  unfold Life.handleClose
  split
  · rename_i live
    have closed := told.disconnect (by rintro off; simp [off,StateE.isOpen] at live) .handleClose nofun nofun
    rw [handleClose_open live]
    exact {closed with}
  · exact told.note _ (by simp [Act.tells])

/-- `connectDestroyed` in one of the two states that it is meant for. -/
theorem connectDestroyed (told : Told a) {queue : List ConnFunctor} {listed : Bool} (gone : a.destroyed = true → listed = false)
    (found : a.conn.state = .kConnected ∨ a.conn.state = .kDisconnected) :
    Told ({a with queue := queue, listed := listed} : Life).connectDestroyed := by
  unfold Life.connectDestroyed
  split
  · rename_i connected
    have connected : a.conn.state = .kConnected := connected
    have closed := told.disconnect (by simp [connected]) (.connectDestroyed a.conn.state) (by simp) (by simp)
    exact {closed with
      removing := fun _ => rfl
      fresh := by simp
      ended := fun _ => .inr ⟨a.conn.state,by simp⟩
      gone := gone }
  · rename_i other
    have off := found.resolve_left other
    have idle := told.idle (by simp [off,StateE.isOpen])
    have noted := told.extend [.connectDestroyed a.conn.state,.remove a.conn.channel.isNoneEvent] (by simp)
      (fun on => absurd off on) (by simp [idle])
    rw [Life.remove,List.append_assoc]
    exact {noted with
      fresh := fun connecting => absurd (off.symm.trans connecting) (by simp)
      ended := fun _ => .inr ⟨a.conn.state,by simp⟩
      gone := gone }

theorem removeConnectionInLoop (told : Told a) : Told a.removeConnectionInLoop := by
  unfold Life.removeConnectionInLoop
  split
  · exact told
  · split
    · have noted := told.note [.removeConnectionInLoop 1] (by simp [Act.tells])
      have queued := noted.requeue (a.queue ++ [.connectDestroyed]) _ (List.filter_append _ _)
      exact {queued with
        ended := fun _ => .inl (by simp [ConnFunctor.token])
        gone := fun _ => rfl }
    · exact told.note _ (by simp [Act.tells])

theorem removeConnection (told : Told a) : Told a.removeConnection := by
  have noted := told.note [.removeConnection] (by simp [Act.tells])
  unfold Life.removeConnection
  split
  · exact told
  · split
    · exact {noted with}
    · exact noted.removeConnectionInLoop

/-- `connectEstablished` is ahead of `connectDestroyed` in the queue. -/
theorem established (told : Told a) {rest : List ConnFunctor} (next : a.queue = .connectDestroyed::rest) :
    a.conn.state ≠ .kConnecting := by
  intro connecting
  have first := (told.fresh connecting).2
  rw [next] at first
  cases first

theorem connectEstablished (told : Told a) {rest : List ConnFunctor} (next : a.queue = .connectEstablished::rest) :
    Told ({a with queue := rest} : Life).connectEstablished := by
  have later (gone : a.listed = false) :
      .connectDestroyed ∈ rest.filter ConnFunctor.token ∨ ∃ state, .connectDestroyed state ∈ a.acts := by
    have ended := told.ended gone
    rw [next] at ended
    exact ended.imp_left fun member => by simpa [ConnFunctor.token] using member
  unfold Life.connectEstablished
  split
  · rename_i connecting
    have connecting : a.conn.state = .kConnecting := connecting
    have established : a.conn.connectEstablished =
        {a.conn with state := .kConnected, channel := a.conn.channel.enableReading} := if_pos connecting
    obtain ⟨silent,kept⟩ := told.live (by simp [connecting])
    rw [established]
    exact {told with
      live := fun _ => ⟨by simpa using silent,by simpa using kept⟩
      dead := by simp
      idle := by simp [StateE.isOpen]
      removed := fun b member => told.removed b (by simpa using member)
      removing := fun some => by
        have off := told.removing some
        simp [connecting] at off
      fresh := by simp
      ended := fun gone => (later gone).imp_right (Exists.imp fun _ => List.mem_append_left _) }
  · rename_i other
    have popped : Told {a with queue := rest} := {told with fresh := fun connecting => absurd connecting other, ended := later}
    exact popped.note _ (by simp [Act.tells])

theorem remove (told : Told a) {n : Nat} (next : a.removing = n+1) : Told ({a with removing := n} : Life).remove := by
  have off := told.removing (by omega)
  have idle := told.idle (by simp [off,StateE.isOpen])
  have noted := told.extend [.remove a.conn.channel.isNoneEvent] (by simp) (fun on => absurd off on) (by simp [idle])
  exact {noted with removing := fun _ => off}

theorem quiet_plain {acts : List Act} (calm : acts.filter Act.milestone = []) : ∀ act ∈ acts, act.tells = false := by
  intro act member
  have plain := List.filter_eq_nil_iff.mp calm act member
  cases act with
  | connectionCallback connected => cases plain rfl
  | connectDestroyed state => cases plain rfl
  | remove isNoneEvent => cases plain rfl
  | _ => rfl

/-- As long as no connection is destroyed that is disconnecting. -/
theorem move (told : Told a) {touch : Touch} (move : LifeMove .decided a touch b) : Told b := by
  cases move with
  | still => exact told
  | begin ends => exact {told with}
  | destructed ends unlisted => exact {told with gone := fun _ => unlisted}
  | report rs fresh some whole => exact {told with}
  | dispatch r rest next => exact {told with}
  | push f plain => exact told.requeue _ [] (by simp [List.filter_append,plain])
  | code queue pending acts b fs plain keeps own =>
    have noted := (told.note acts (quiet_plain plain.calm)).keep (keeps nofun)
    have queued := noted.requeue (queue ++ fs) []
      (by rw [List.filter_append,filter_callbacks own,plain.tokens])
    exact {queued with}
  | handleClose queue pending acts closing apart live =>
    have noted := (told.note acts (quiet_plain closing.calm)).requeue queue []
      (by rw [closing.tokens,List.append_nil])
    have popped : Told {a with acts := a.acts ++ acts, queue := queue, pending := pending} := {noted with}
    exact popped.handleClose
  | connectEstablished rest next => exact told.connectEstablished next
  | connectDestroyed rest next found =>
    exact told.connectDestroyed told.gone (StateE.ready (told.established next) (found rfl))
  | removeConnection n next =>
    have popped : Told {a with closing := n} := {told with}
    exact popped.removeConnection
  | removeConnectionInLoop n next =>
    have popped : Told {a with removals := n} := {told with}
    exact popped.removeConnectionInLoop
  | remove n next => exact told.remove next
  | take ends here listed found =>
    have established : a.conn.state ≠ .kConnecting := by
      intro connecting
      have away := (told.fresh connecting).1
      simp [here] at away
    exact told.connectDestroyed (fun _ => rfl) (StateE.ready established (found rfl))
  | takeAway ends away listed =>
    have queued := told.requeue (a.queue ++ [.connectDestroyed]) _ (List.filter_append _ _)
    exact {queued with
      ended := fun _ => .inl (by simp [ConnFunctor.token])
      gone := fun _ => rfl }

end Told

structure AllTold (names : Nat → String) (s : Server) : Prop where
  placed : Placed names s
  told : ∀ c k, s.conns c = some k → Told (s.life c k)
  fine : s.failed ≠ some .isNoneEvent

theorem newServer_told (new : NewServer s) : AllTold names s := by
  obtain ⟨writeCompleteCallback,rfl⟩ := new
  exact ⟨newServer_placed writeCompleteCallback,nofun,nofun⟩

theorem Told.born (away writeCompleteCallback : Bool) : Told (Life.born away writeCompleteCallback) := by
  cases away with
  | true => exact ⟨fun _ => ⟨nofun,nofun⟩,nofun,fun _ => rfl,nofun,nofun,fun _ => ⟨rfl,rfl⟩,nofun,nofun⟩
  | false =>
    refine ⟨fun _ => ⟨?_,?_⟩,nofun,nofun,?_,nofun,nofun,nofun,nofun⟩
    all_goals simp [Life.born,Life.connectEstablished,newTcpConnection]

theorem AllTold.step (all : AllTold names s) (distinct : Function.Injective names) (guarded : Guarded .decided s l)
    (ok : serverStep fd names s l = some u) : AllTold names u := by
  have move := all.placed.move ok
  have told := lives_step Told all.placed distinct guarded ok (fun _ _ _ _ told moved _ => told.move moved) Told.born all.told
  refine ⟨placed_move all.placed move,told,fun bad => ?_⟩
  rcases move_failed move (serverStep_running ok).1 bad with ⟨c,k,acts,act,found,last,trace⟩ | ⟨none,_⟩
  · cases act with
    | remove isNoneEvent =>
      have kept := (told c k found).removed isNoneEvent (by
        change .remove isNoneEvent ∈ k.acts
        simp [last])
      cases kept.symm.trans trace
    | _ => cases trace
  · cases none

end

/-- When the server is destroyed, every connection has been told to end, and every one that
has ended is disconnected, has reported it once and has removed its channel without events
to wait for, provided that `connectDestroyed` finds no connection that is disconnecting. -/
theorem destroyed_cleanly (fd : EventFd) (names : Nat → String) (distinct : Function.Injective names)
    (start s : Server) (ls : List ServerLabel) (new : NewServer start) (run : Run (serverStep fd names) start ls s)
    (along : Along (serverStep fd names) (fun s l => s.swaps l = true ∧ s.startsOpen l = true) start ls)
    (spares : Along (serverStep fd names) (fun s l => s.sparesDisconnecting l = true) start ls) :
    s.failed ≠ some .isNoneEvent ∧
    ∀ c k, s.conns c = some k →
      (s.destroyed = true → (∃ p ∈ (s.threads k.loop).loop.queued, p.functor = .conn c .connectDestroyed) ∨
        ∃ state, .connectDestroyed state ∈ k.acts) ∧
      (∀ state, .connectDestroyed state ∈ k.acts → k.conn.state = .kDisconnected ∧ k.conn.channel.isNoneEvent = true ∧
        k.acts.count (.connectionCallback false) = 1) ∧
      ∀ isNoneEvent, .remove isNoneEvent ∈ k.acts → isNoneEvent = true := by
  have all : AllTold names s := by
    refine run.keeps _ (AllTold names) ?_ (along.and spares) (newServer_told new)
    rintro s l u all ⟨⟨swaps,starts⟩,spares⟩ ok
    exact all.step distinct ⟨fun _ => swaps,fun _ => starts,nofun,nofun,nofun,fun _ => spares⟩ ok
  refine ⟨all.fine,fun c k found => ?_⟩
  have told := all.told c k found
  refine ⟨fun off => ?_,fun state ended => ?_,told.removed⟩
  · refine (told.ended (told.gone off)).imp_left fun member => ?_
    have queued : 0 < (s.life c k).queue.count .connectDestroyed := List.count_pos_iff.mpr (List.mem_of_mem_filter member)
    rw [life_queued,List.countP_pos_iff] at queued
    simpa using queued
  · have off : k.conn.state = .kDisconnected := by
      by_contra on
      exact (told.live on).2 state ended
    exact ⟨off,told.idle (show k.conn.state.isOpen = false by simp [off,StateE.isOpen]),told.dead off⟩

/-- The server has a connection in loop 0 and one in loop 1 that is not yet established. -/
private def destroyedOpen : List ServerLabel :=
  acceptOne 0 ++ [ServerLabel.poll 0 false [(.acceptor,readable)],.dispatch 0,.resume 0 (results 0 1),.loop 1 (.wakeup 0),
    .destroy,.resume 0 (results 0 0),.resume 0 (results 0 0),.resume 0 (results 0 0),.loop 1 (.wakeup 0),
    .resume 0 (results 0 0),.loop 1 .loop,.loop 1 .check,.poll 1 true [],.loop 1 .handleRead,.loop 1 .handled,.loop 1 .swap,
    .run 1 (.wrote 0),.run 1 (.wrote 0),.resume 1 (results 0 0)]

theorem destroyed_cleanly_open :
    (serverRun destroyedOpen).destroyed = true ∧
    [1,2].map (fun c => ((serverRun destroyedOpen).conns c).map Conn.acts) =
      [some [.connectEstablished,.connectionCallback true,.connectDestroyed .kConnected,.connectionCallback false,.remove true],
        some [.connectEstablished,.connectionCallback true,.connectDestroyed .kConnected,.connectionCallback false,
          .remove true]] ∧
    (serverRun destroyedOpen).failed ≠ some .isNoneEvent :=
  ⟨by decide +kernel,by decide +kernel,(destroyed_cleanly linuxEventFd numbered (connName_injective _ _) (newServer false) _
    destroyedOpen ⟨false,rfl⟩ (final_run _ _ _ (by decide +kernel)) (by decide +kernel) (by decide +kernel)).1⟩

/-- A connection is half-closed when the server is destroyed. -/
private def destroyedHalfClosed : List ServerLabel :=
  acceptOne 0 ++ [ServerLabel.poll 0 false [],.call 0 1 .shutdown (.wrote 0),.destroy,.resume 0 (results 0 0)]

theorem destroyed_half_closed :
    ∃ s, Run (serverStep linuxEventFd numbered) (newServer false) destroyedHalfClosed s ∧
      Along (serverStep linuxEventFd numbered) (fun s l => s.swaps l = true ∧ s.startsOpen l = true) (newServer false)
        destroyedHalfClosed ∧
      s.failed = some .isNoneEvent ∧ (s.conns 1).map (fun k => k.conn.state) = some .kDisconnecting ∧
      (s.conns 1).map Conn.acts =
        some [.connectEstablished,.connectionCallback true,.connectDestroyed .kDisconnecting,.remove false] := by
  refine ⟨serverRun destroyedHalfClosed,final_run _ _ _ ?_,?_,?_,?_,?_⟩
  all_goals decide +kernel

def Act.destroys : Act → Bool
  | .connectDestroyed _ => true
  | _ => false

namespace Server

/-- `removeConnectionInLoop` waits in the queue of the base loop. -/
def removalWaits (s : Server) : Bool :=
  (List.range s.nextConnId).any fun c => (s.threads 0).loop.queued.any fun p => p.functor = .removeConnectionInLoop c

/-- A connection waits for the callback of `handleClose`. -/
def closingWaits (s : Server) : Bool :=
  (List.range s.nextConnId).any fun c => (s.conns c).any fun k => .closeCallback c ∈ (s.threads k.loop).stack

/-- The destructor is entered while no connection is being closed, except that a base loop
that has returned may have left removals in its queue. From then on no connection is
closed, and a base loop with such removals is not entered again. -/
def closesApart (s : Server) (l : ServerLabel) : Bool :=
  match l with
  | .destroy => !s.closingWaits && (!s.removalWaits || (s.threads 0).loop.pc = .outside)
  | .loop 0 .loop => !s.begun || !s.removalWaits
  | l => !s.begun || (s.closes l).isNone

end Server

/-- `connectDestroyed` has been executed, or is queued, or the connection is listed. -/
def Life.ends (a : Life) : Nat :=
  a.acts.countP Act.destroys + a.queue.count .connectDestroyed + a.listed.toNat

section
variable {names : Nat → String} {s u : Server} {c : Nat} {k : Conn} {fd : EventFd} {l : ServerLabel} {a b : Life} {touch : Touch}

theorem destroys_calm {acts : List Act} (calm : acts.filter Act.milestone = []) : acts.countP Act.destroys = 0 := by
  refine List.countP_eq_zero.mpr fun act member => ?_
  have plain := List.filter_eq_nil_iff.mp calm act member
  cases act with
  | connectDestroyed state => cases plain rfl
  | _ => simp [Act.destroys]

theorem count_tokens {queue queue' : List ConnFunctor}
    (same : queue'.filter ConnFunctor.token = queue.filter ConnFunctor.token) :
    queue'.count .connectDestroyed = queue.count .connectDestroyed := by
  rw [← List.count_filter (p := ConnFunctor.token) rfl,same,List.count_filter rfl]

theorem ends_connectDestroyed (a : Life) : a.connectDestroyed.ends = a.ends + 1 := by
  unfold Life.connectDestroyed
  split
  all_goals
    simp only [Life.ends,Life.remove,List.countP_append,List.countP_cons,List.countP_nil,Act.destroys]
    simp
    omega

theorem ends_removeConnectionInLoop (a : Life) : a.removeConnectionInLoop.ends = a.ends := by
  unfold Life.removeConnectionInLoop
  split
  · rfl
  · split
    · rename_i listed
      simp [Life.ends,Act.destroys,listed]
      omega
    · simp [Life.ends,Act.destroys]

/-- What is left of the end of a connection does not come back. -/
theorem LifeMove.ends_le (move : LifeMove .free a touch b) : b.ends ≤ a.ends := by
  cases move with
  | push f plain =>
    have same : (a.queue ++ [f]).count .connectDestroyed = a.queue.count .connectDestroyed :=
      count_tokens (by simp [List.filter_append,plain])
    simp only [Life.ends,same,le_refl]
  | code queue pending acts b fs plain keeps own =>
    have same : (queue ++ fs).count .connectDestroyed = a.queue.count .connectDestroyed :=
      count_tokens (by rw [List.filter_append,filter_callbacks own,List.append_nil,plain.tokens])
    simp only [Life.ends,same,List.countP_append,destroys_calm plain.calm,Nat.add_zero,le_refl]
  | handleClose queue pending acts closing apart live =>
    have same := count_tokens closing.tokens
    unfold Life.handleClose
    split <;> simp [Life.ends,same,destroys_calm closing.calm,Act.destroys]
  | connectEstablished rest next =>
    have fewer : rest.count .connectDestroyed ≤ a.queue.count .connectDestroyed := by simp [next]
    unfold Life.connectEstablished
    split <;> simpa [Life.ends,Act.destroys] using fewer
  | connectDestroyed rest next found =>
    rw [ends_connectDestroyed]
    simp only [Life.ends,next,List.count_cons_self]
    omega
  | removeConnection n next =>
    unfold Life.removeConnection
    split
    · exact le_rfl
    · split
      · simp [Life.ends,Act.destroys]
      · rw [ends_removeConnectionInLoop]
        simp [Life.ends,Act.destroys]
  | removeConnectionInLoop n next => exact (ends_removeConnectionInLoop _).le
  | remove n next => simp [Life.ends,Life.remove,Act.destroys]
  | take ends here listed found =>
    rw [ends_connectDestroyed]
    simp [Life.ends,listed]
  | takeAway ends away listed =>
    simp [Life.ends,listed]
    omega
  | _ => exact le_rfl

theorem ends_born (away writeCompleteCallback : Bool) : (Life.born away writeCompleteCallback).ends = 1 := by
  cases away <;> rfl

/-- Once the destructor has been entered, nothing of a connection that was closed is under way. -/
structure NoneClosing (s : Server) : Prop where
  closing : s.begun = true → ∀ c k, s.conns c = some k → (s.life c k).closing = 0
  removals : s.begun = true → (s.threads 0).loop.pc = .outside ∨ ∀ c k, s.conns c = some k → (s.life c k).removals = 0

theorem outside_step (placed : Placed names s) (ok : serverStep fd names s l = some u) (other : l ≠ .loop 0 .loop)
    (outside : (s.threads 0).loop.pc = .outside) : (u.threads 0).loop.pc = .outside := by
  cases turn_step placed ok 0 with
  | rest idle same => exact same.pc.trans outside
  | drive ll mid drives move same =>
    refine same.pc.trans ?_
    cases move with
    | loop here idle =>
      cases drives
      exact absurd rfl other
    | queueInLoop t f ready => exact outside
    | quit t ready => exact outside
    | wakeup t owes => exact outside
    | leave here | stay here | poll woken here | handled here | swap here | handleRead here => simp [outside] at here
    | run f rest next here | finish here => simp [outside] at here

theorem removalWaits_false (placed : Placed names s) (none : s.removalWaits = false) (found : s.conns c = some k) :
    (s.life c k).removals = 0 := by
  have known : c < s.nextConnId := placed.fresh c k found
  simp only [Server.removalWaits,List.any_eq_false,List.mem_range,Bool.not_eq_true] at none
  refine List.countP_eq_zero.mpr fun p member => ?_
  simpa using none c known p member

theorem closingWaits_false (placed : Placed names s) (none : s.closingWaits = false) (found : s.conns c = some k) :
    (s.life c k).closing = 0 := by
  have known : c < s.nextConnId := placed.fresh c k found
  simp only [Server.closingWaits,List.any_eq_false,List.mem_range,Bool.not_eq_true] at none
  refine List.count_eq_zero.mpr ?_
  simpa [found] using none c known

/-- The condition, as it is at a step behind which the destructor has been entered. -/
theorem NoneClosing.before (apart : NoneClosing s) (placed : Placed names s) (cond : s.closesApart l = true)
    (ok : serverStep fd names s l = some u) (begun : u.begun = true) :
    s.closes l = none ∧ (∀ c k, s.conns c = some k → (s.life c k).closing = 0) ∧
      (((s.threads 0).loop.pc = .outside ∧ l ≠ .loop 0 .loop) ∨ ∀ c k, s.conns c = some k → (s.life c k).removals = 0) := by
  by_cases enters : l = .destroy
  · subst enters
    simp only [Server.closesApart,Bool.and_eq_true,Bool.not_eq_true',Bool.or_eq_true,decide_eq_true_eq] at cond
    refine ⟨rfl,fun c k found => closingWaits_false placed cond.1 found,?_⟩
    rcases cond.2 with none | outside
    · exact .inr fun c k found => removalWaits_false placed none found
    · exact .inl ⟨outside,nofun⟩
  · have begun := move_begun (placed.move ok) enters begun
    by_cases enters' : l = .loop 0 .loop
    · subst enters'
      have none : s.removalWaits = false := by simpa [Server.closesApart,begun] using cond
      exact ⟨rfl,apart.closing begun,.inr fun c k found => removalWaits_false placed none found⟩
    · refine ⟨?_,apart.closing begun,(apart.removals begun).imp_left fun outside => ⟨outside,enters'⟩⟩
      unfold Server.closesApart at cond
      split at cond
      · exact absurd rfl enters
      · exact absurd rfl enters'
      · simpa [begun] using cond

theorem NoneClosing.step (apart : NoneClosing s) (placed : Placed names s) (distinct : Function.Injective names)
    (cond : s.closesApart l = true) (ok : serverStep fd names s l = some u) : NoneClosing u := by
  have unclosed (none : s.closes l = none) (c : Nat) (a : Life) (touch : Touch) (b : Life) (closing : a.closing = 0)
      (moved : LifeMove .free a touch b) (comes : touch.comes s l c) : b.closing = 0 := by
    have other : touch ≠ .close := by
      rintro rfl
      cases none.symm.trans comes
    exact Nat.le_zero.mp ((moved.closing_le other).trans closing.le)
  have born (away callback : Bool) : (Life.born away callback).closing = 0 ∧ (Life.born away callback).removals = 0 := by
    cases away <;> exact ⟨rfl,rfl⟩
  refine ⟨fun begun => ?_,fun begun => ?_⟩
  all_goals obtain ⟨none,closing,removals⟩ := apart.before placed cond ok begun
  · exact lives_step (·.closing = 0) placed distinct (guarded_free s l) ok (unclosed none)
      (fun away callback => (born away callback).1) closing
  · refine removals.imp (fun ⟨outside,other⟩ => outside_step placed ok other outside) fun zero c k known => ?_
    exact (lives_step (fun a => a.closing = 0 ∧ a.removals = 0) placed distinct (guarded_free s l) ok
      (fun c a touch b ⟨closing,zero⟩ moved comes => ⟨unclosed none c a touch b closing moved comes,
        Nat.le_zero.mp ((moved.removals_le closing).trans zero.le)⟩)
      born (fun c k found => ⟨closing c k found,zero c k found⟩) c k known).2

theorem ends_reachable (distinct : Function.Injective names) (reached : Reachable NewServer (serverStep fd names) s) :
    Placed names s ∧ ∀ c k, s.conns c = some k → (s.life c k).ends ≤ 1 := by
  refine reached.invariant (fun s => Placed names s ∧ ∀ c k, s.conns c = some k → (s.life c k).ends ≤ 1) ?_ ?_
  · rintro _ ⟨writeCompleteCallback,rfl⟩
    exact ⟨newServer_placed writeCompleteCallback,nofun⟩
  · rintro s l u ⟨placed,once⟩ ok
    exact ⟨placed_move placed (placed.move ok),lives_step (·.ends ≤ 1) placed distinct (guarded_free s l) ok
      (fun _ _ _ _ once moved _ => moved.ends_le.trans once) (fun away callback => (ends_born away callback).le) once⟩

/-- Nothing that is bound to the server is about to run behind its destructor. -/
theorem NoneClosing.safe (apart : NoneClosing s) (placed : Placed names s) (off : s.destroyed = true) (l : ServerLabel)
    (i c : Nat) :
    s.cause l ≠ some (i,.frame (.closeCallback c)) ∧ s.cause l ≠ some (i,.functor (.removeConnectionInLoop c)) := by
  have begun : s.begun = true := by simp [Server.begun,off]
  refine ⟨fun why => ?_,fun why => ?_⟩
  · obtain ⟨_,rest,_,next⟩ := cause_frame why
    obtain ⟨k,found,home⟩ : BelongsTo s.conns i c := (placed.threads i).stack (.closeCallback c) (by simp [next])
    have none : (s.threads k.loop).stack.count (.closeCallback c) = 0 := apart.closing begun c k found
    simp [home,next] at none
  · obtain ⟨q,next,functor⟩ := cause_functor why
    have inside := (placed.threads i).queued q (mem_queued next)
    rw [functor] at inside
    obtain ⟨rfl,k,found⟩ := inside
    rcases apart.removals begun with outside | zero
    · have empty := (placed.threads 0).ordered.batch (by simp [outside]) (by simp [outside])
      simp [empty] at next
    · have none := List.countP_eq_zero.mp (zero c k found) q (mem_queued next)
      simp [functor] at none

end

/-- A connection is destroyed once, however its close and the destructor of the server meet.
And nothing that is bound to the server runs behind its destructor, provided that no
connection is being closed when it is entered, and none is closed from then on. -/
theorem destruction_apart (fd : EventFd) (names : Nat → String) (distinct : Function.Injective names)
    (start s : Server) (ls : List ServerLabel) (new : NewServer start) (run : Run (serverStep fd names) start ls s) :
    (∀ c k, s.conns c = some k → k.acts.countP Act.destroys ≤ 1) ∧
    (Along (serverStep fd names) (fun s l => s.closesApart l = true) start ls →
      s.destroyed = true → ∀ l i c, s.cause l ≠ some (i,.frame (.closeCallback c)) ∧
        s.cause l ≠ some (i,.functor (.removeConnectionInLoop c))) := by
  obtain ⟨placed,once⟩ := ends_reachable distinct ⟨start,ls,new,run⟩
  refine ⟨fun c k found => ?_,fun along => ?_⟩
  · have most : k.acts.countP Act.destroys ≤ (s.life c k).ends := Nat.le_add_right_of_le (Nat.le_add_right _ _)
    exact most.trans (once c k found)
  · have apart : Placed names s ∧ NoneClosing s := by
      refine run.keeps _ (fun s => Placed names s ∧ NoneClosing s) ?_ along ?_
      · rintro s l u ⟨placed,apart⟩ cond ok
        exact ⟨placed_move placed (placed.move ok),apart.step placed distinct cond ok⟩
      · obtain ⟨writeCompleteCallback,rfl⟩ := new
        exact ⟨newServer_placed writeCompleteCallback,nofun,nofun⟩
    exact apart.2.safe placed

theorem destruction_apart_open :
    (serverRun destroyedOpen).destroyed = true ∧
    ((serverRun destroyedOpen).conns 2).map (fun k => k.acts.countP Act.destroys) = some 1 ∧
    ∀ l i c, (serverRun destroyedOpen).cause l ≠ some (i,.functor (.removeConnectionInLoop c)) := by
  have off : (serverRun destroyedOpen).destroyed = true := by decide +kernel
  refine ⟨off,by decide +kernel,fun l i c => ?_⟩
  exact ((destruction_apart linuxEventFd numbered (connName_injective _ _) (newServer false) _ destroyedOpen ⟨false,rfl⟩
    (final_run _ _ _ (by decide +kernel))).2 (by decide +kernel) off l i c).2

/-- The server is destroyed while `removeConnectionInLoop` waits in the queue of the base loop. -/
private def destroyedInFlight : List ServerLabel :=
  peerCloses ++ [ServerLabel.poll 0 true [],.destroy,.resume 0 (results 0 0),.loop 1 (.wakeup 0),.resume 0 (results 0 0),
    .loop 0 .handleRead,.loop 0 .handled,.loop 0 .swap]

theorem removal_behind_destructor :
    ∃ s u, Run (serverStep linuxEventFd numbered) (newServer false) destroyedInFlight s ∧ s.destroyed = true ∧
      s.cause (.run 0 (.wrote 0)) = some (0,.functor (.removeConnectionInLoop 1)) ∧
      serverStep linuxEventFd numbered s (.run 0 (.wrote 0)) = some u ∧ u.dangling = true := by
  refine ⟨serverRun destroyedInFlight,serverRun (destroyedInFlight ++ [.run 0 (.wrote 0)]),final_run _ _ _ ?_,?_,?_,
    final_step _ _ _ _ ?_,?_⟩
  all_goals decide +kernel

end Reactor.Net
