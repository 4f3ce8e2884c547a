import Reactor.Net.ServerView

/-! What the server has of each connection moves as a `Life` does, as long as every step
meets the conditions of a rule: the phases of a connection rest on `orderly`. -/
namespace Reactor.Net
open Reactor.Transition

section
variable {names : Nat → String} {s u v : Server} {i c : Nat} {k : Conn} {fd : EventFd} {a b : Life}

theorem about_unique {th : IoThread} {cause : Cause} {d : Nat} (first : cause.about th c) (second : cause.about th d) :
    c = d := by
  cases cause with
  | user e api => exact first.symm.trans second
  | handler h r =>
    have same : some (Chan.conn c) = some (Chan.conn d) := Eq.trans (Eq.symm first) second
    simpa using same
  | functor f =>
    cases f with
    | conn e f => exact first.symm.trans second
    | _ => cases first
  | frame frame =>
    cases frame with
    | closeCallback e | remove e => exact first.symm.trans second
    | destructor => cases first

/-- What code without a part in the life does to its own connection, unless it comes to `handleClose`. -/
theorem piece_plain {cause : Cause} (strict : Prop) (plain : cause.plain = true)
    (piece : Piece names s i cause u) (about : cause.about (s.threads i) c) (shows : s.Shows c i a)
    (started : strict → cause = .user c .startRead ∨ cause = .functor (.conn c .startReadInLoop) →
      a.conn.state.isOpen = true)
    (sent : ∀ m, cause = .functor (.conn c (.sendInLoop m)) → a.conn.state ≠ .kConnecting) :
    (∃ acts b fs, Calm cause acts ∧ (strict → Keeps a.conn b) ∧ (∀ f ∈ fs, f.callback = true) ∧
      u.Shows c i {a with conn := b, acts := a.acts ++ acts, queue := a.queue ++ fs}) ∨
    ∃ acts, Closes (s.threads i) c a.conn.state cause acts ∧
      u.Shows c i ({a with acts := a.acts ++ acts} : Life).handleClose := by
  have still (shown : u.Shows c i a) : ∃ acts b fs, Calm cause acts ∧ (strict → Keeps a.conn b) ∧
      (∀ f ∈ fs, f.callback = true) ∧ u.Shows c i {a with conn := b, acts := a.acts ++ acts, queue := a.queue ++ fs} :=
    ⟨[],a.conn,[],.none _,fun _ => .refl _,nofun,by simpa using shown⟩
  obtain ⟨j,known,rfl,rfl⟩ := shows
  have same {d : Nat} {k : Conn} (aboutD : cause.about (s.threads j.loop) d) (found : s.conns d = some k) : d = c ∧ k = j := by
    cases about_unique about aboutD
    rw [known] at found
    cases found
    exact ⟨rfl,rfl⟩
  cases piece with
  | skip _ _ => exact .inl (still ⟨j,known,rfl,rfl⟩)
  | timer _ _ timers => exact .inl (still ⟨j,known,rfl,life_same rfl⟩)
  | conn _ _ d k b f acts found op calm aboutD u settled =>
    obtain ⟨rfl,rfl⟩ := same aboutD found
    refine .inl ⟨acts,b,f.toList,calm,fun strict => connOp_keeps op (started strict) sent,fun g member => ?_,?_⟩
    · exact connOp_queues op g (Option.mem_toList.mp member)
    · exact Server.Shows.settle s d {k with acts := k.acts ++ acts} b rfl settled
  | delay d k timers found live =>
    obtain ⟨rfl,rfl⟩ := same rfl found
    have shown : ((s.setConn d {k with conn := k.conn.setState .kDisconnecting}).setThread k.loop
        {s.threads k.loop with timers := timers}).Shows d k.loop
          (s.life d {k with conn := k.conn.setState .kDisconnecting}) :=
      (Server.Shows.setConn s d {k with conn := k.conn.setState .kDisconnecting}).setThread rfl
    refine .inl ⟨[],k.conn.setState .kDisconnecting,[],.none _,fun _ => .of_open live rfl,nofun,?_⟩
    rw [List.append_nil,List.append_nil]
    exact shown
  | handleClose _ d k acts found closes =>
    obtain ⟨rfl,rfl⟩ := same closes.about found
    exact .inr ⟨acts,closes,Server.Shows.handleClose s d (k := {k with acts := k.acts ++ acts}) rfl⟩
  | accept r io on here u ok =>
    have current : (s.threads j.loop).current = some (.conn c) := about
    simp [here] at current
  | dangling r off here =>
    have current : (s.threads j.loop).current = some (.conn c) := about
    simp [here] at current
  | connectEstablished d k found | connectDestroyed d k found | removeConnectionInLoop d k found u ok => cases plain
  | closeCallback d k found u ok | remove d k found => cases plain

theorem calm_handler {h : Handler} {r : Results} {acts : List Act} (calm : Calm (.handler h r) acts) :
    (∀ x ∈ acts, x.milestone = false) ∧ (h.closes = false → ∀ x ∈ acts, x.reads = false) := by
  cases calm <;> simp [Act.milestone,Act.reads,Handler.closes]

theorem calm_other {cause : Cause} {acts : List Act} (calm : Calm cause acts)
    (other : ∀ h r, cause ≠ .handler h r) : acts = [] := by
  cases calm with
  | none => rfl
  | _ => exact absurd rfl (other _ _)

theorem waiting_current (placed : Placed names s) (shows : s.Shows c i a)
    (current : (s.threads i).current = some (.conn c)) : a.waiting = [] := by
  obtain ⟨k,_,rfl,rfl⟩ := shows
  refine List.filterMap_eq_nil_iff.mpr fun e member => if_neg fun here => ?_
  refine (placed.threads k.loop).apart _ current ?_
  rw [← here]
  exact List.mem_map_of_mem member

theorem still_life (placed : Placed names s) (shows : s.Shows c i a) (away : (s.threads i).loop.pc ≠ .handling) :
    a.waiting = [] ∧ a.pending = [] := by
  obtain ⟨k,_,rfl,rfl⟩ := shows
  obtain ⟨ready,_,current⟩ := (placed.threads k.loop).still away
  simp [Server.life,Life.of,IoThread.view,ready,current]

theorem Server.Shows.home (shows : s.Shows c i a) {j : Nat} (belongs : BelongsTo s.conns j c) : i = j := by
  obtain ⟨k,found,rfl,_⟩ := shows
  obtain ⟨k',there,rfl⟩ := belongs
  rw [found] at there
  cases there
  rfl

/-- The connection of the event that a thread is handling. -/
def IoThread.currentConn (th : IoThread) : Option Nat :=
  match th.current with
  | some (.conn c) => some c
  | _ => none

/-- The connection that thread `i` is about to close. -/
def Server.closing (s : Server) (i : Nat) : Cause → Option Nat
  | .handler .close _ => (s.threads i).currentConn
  | .handler .read r => if r.read = 0 then (s.threads i).currentConn else none
  | .functor (.conn c .forceCloseInLoop) =>
    if (s.conns c).any fun k => k.conn.state.isOpen then some c else none
  | _ => none

namespace Server

/-- The connection that `handleClose` is executed for. -/
def closes (s : Server) (l : ServerLabel) : Option Nat := (s.cause l).bind fun e => s.closing e.1 e.2

/-- The connection that the destructor of the server destroys itself. -/
def takes (s : Server) (l : ServerLabel) : Option Nat :=
  match s.cause l, s.connections with
  | some (_,.frame .destructor), (_,c)::_ => if (s.conns c).any fun k => k.loop = 0 then some c else none
  | _, _ => none

/-- The connection that `connectDestroyed` is executed for. -/
def destroys (s : Server) (l : ServerLabel) : Option Nat :=
  match s.cause l with
  | some (_,.functor (.conn c .connectDestroyed)) => some c
  | _ => s.takes l

/-- `setState(kDisconnecting)` finds the connection open, as the test before it did. -/
def swaps (s : Server) : ServerLabel → Bool
  | .proceed t =>
    match s.calls t with
    | some (.setState c _) => (s.conns c).all fun k => k.conn.state.isOpen
    | _ => true
  | _ => true

/-- `startReadInLoop` is executed while the connection is open. -/
def startsOpen (s : Server) (l : ServerLabel) : Bool :=
  match s.cause l with
  | some (_,.user c .startRead) | some (_,.functor (.conn c .startReadInLoop)) =>
    (s.conns c).all fun k => k.conn.state.isOpen
  | _ => true

/-- The read handler finds the end of the file only while the connection is open. -/
def endsOpen (s : Server) (l : ServerLabel) : Bool :=
  match s.cause l with
  | some (i,.handler .read r) =>
    r.read ≠ 0 || (s.threads i).currentConn.all fun c => (s.conns c).all fun k => k.conn.state.isOpen
  | _ => true

/-- No connection is destroyed while it is disconnecting. -/
def sparesDisconnecting (s : Server) (l : ServerLabel) : Bool :=
  (s.destroys l).all fun c => (s.conns c).all fun k => k.conn.state ≠ .kDisconnecting

end Server

/-- No event asks for the close handler and for the read handler of a connection. -/
def ServerLabel.whole : ServerLabel → Bool
  | .poll _ _ ready => ready.all fun e =>
    match e.1 with
    | .conn _ => !e.2.torn
    | _ => true
  | _ => true

structure Guarded (rule : Rule) (s : Server) (l : ServerLabel) : Prop where
  swaps : rule ≠ .free → s.swaps l = true
  starts : rule ≠ .free → s.startsOpen l = true
  stays : rule.stays = true → s.begun = false ∧ l ≠ .destroy
  whole : rule = .orderly true → l.whole = true
  ends : rule = .orderly false → s.endsOpen l = true
  spares : rule = .decided → s.sparesDisconnecting l = true

theorem guarded_free (s : Server) (l : ServerLabel) : Guarded .free s l :=
  ⟨fun strict => absurd rfl strict,fun strict => absurd rfl strict,nofun,nofun,nofun,nofun⟩

/-- How the step comes to touch connection `c`. -/
def Touch.comes (s : Server) (l : ServerLabel) (c : Nat) : Touch → Prop
  | .code => True
  | .push f => ∃ t, l = .proceed t ∧ s.calls t = some (.push c (.conn c f))
  | .close => s.closes l = some c
  | .take => s.takes l = some c

/-- The step is a move in the life of connection `c`. -/
def Moves (rule : Rule) (s : Server) (l : ServerLabel) (u : Server) (c i : Nat) (a : Life) : Prop :=
  ∃ touch b, LifeMove rule a touch b ∧ u.Shows c i b ∧ touch.comes s l c

section
variable {l : ServerLabel} {j : Nat} {cause : Cause} {rule : Rule}

theorem Moves.code (move : LifeMove rule a .code b) (shown : u.Shows c i b) : Moves rule s l u c i a :=
  ⟨.code,b,move,shown,trivial⟩

theorem Guarded.started (guarded : Guarded rule s l) (why : s.cause l = some (j,cause)) (shows : s.Shows c i a)
    (strict : rule ≠ .free) (start : cause = .user c .startRead ∨ cause = .functor (.conn c .startReadInLoop)) :
    a.conn.state.isOpen = true := by
  obtain ⟨k,found,_,rfl⟩ := shows
  have starts := guarded.starts strict
  change k.conn.state.isOpen = true
  rcases start with rfl | rfl <;> simpa [Server.startsOpen,why,found] using starts

theorem Guarded.ended {r : Results} (guarded : Guarded rule s l) (why : s.cause l = some (i,.handler .read r))
    (zero : r.read = 0) (current : (s.threads i).current = some (.conn c)) (shows : s.Shows c i a)
    (orderly : rule = .orderly false) : a.conn.state.isOpen = true := by
  obtain ⟨k,found,_,rfl⟩ := shows
  have ends := guarded.ends orderly
  change k.conn.state.isOpen = true
  simpa [Server.endsOpen,why,zero,IoThread.currentConn,current,found] using ends

theorem Guarded.spared (guarded : Guarded rule s l) (why : s.cause l = some (j,.functor (.conn c .connectDestroyed)))
    (shows : s.Shows c i a) (decided : rule = .decided) : a.conn.state ≠ .kDisconnecting := by
  obtain ⟨k,found,_,rfl⟩ := shows
  have spares := guarded.spares decided
  change k.conn.state ≠ .kDisconnecting
  simpa [Server.sparesDisconnecting,Server.destroys,why,found] using spares

theorem Closes.closing {state : StateE} {acts : List Act} {th : IoThread} (closes : Closes th c state cause acts)
    (why : s.cause l = some (j,cause)) (current : th.current = (s.threads j).current) (found : s.conns c = some k)
    (same : k.conn.state = state) : s.closes l = some c := by
  rw [Server.closes,why]
  cases closes with
  | close r here => simp [Server.closing,IoThread.currentConn,← current,here]
  | read r here zero => simp [Server.closing,IoThread.currentConn,← current,here,zero]
  | force live => simp [Server.closing,found,same,live]

theorem code_user {api : Api} (guarded : Guarded rule s l) (why : s.cause l = some (i,.user c api))
    (piece : Piece names v i (.user c api) u) (shows : s.Shows c i a) (shown : v.Shows c i a) :
    Moves rule s l u c i a := by
  rcases piece_plain (rule ≠ .free) rfl piece rfl shown (guarded.started why shows) nofun with
    ⟨acts,b,fs,calm,keeps,own,after⟩ | ⟨acts,closes,_⟩
  · cases calm_other calm nofun
    exact .code (.code _ _ [] b fs .user keeps own) after
  · cases closes

theorem code_handler {h : Handler} {r : Results} {hs : List Handler} (placed : Placed names s) (guarded : Guarded rule s l)
    (why : s.cause l = some (i,.handler h r)) (next : (s.threads i).handlers = h::hs)
    (current : (s.threads i).current = some (.conn c))
    (piece : Piece names (s.setThread i {s.threads i with handlers := hs}) i (.handler h r) u)
    (shows : s.Shows c i a) : Moves rule s l u c i a := by
  obtain ⟨pending,shown⟩ := shows.pop_handler current next
  have here : ((s.setThread i {s.threads i with handlers := hs}).threads i).current = (s.threads i).current := by
    simp [setThread_threads]
  rcases piece_plain (rule ≠ .free) rfl piece (here.trans current) shown (fun _ => nofun) nofun with
    ⟨acts,b,fs,calm,keeps,own,after⟩ | ⟨acts,closes,after⟩
  · obtain ⟨calm,reads⟩ := calm_handler calm
    exact .code (.code _ hs acts b fs (.handler h hs acts pending calm reads) keeps own) after
  · have apart := waiting_current placed shows current
    obtain ⟨k,found,home,rfl⟩ := shows
    have shows : s.Shows c i (s.life c k) := ⟨k,found,home,rfl⟩
    have comes := closes.closing why here found rfl
    cases closes with
    | close r here => exact ⟨.close,_,.handleClose _ hs [] (.close hs pending) apart (by simp [pending]),after,comes⟩
    | read r here zero =>
      exact ⟨.close,_,.handleClose _ hs _ (.read hs pending) apart fun orderly _ =>
        guarded.ended why zero current shows orderly,after,comes⟩

theorem piece_connectEstablished (piece : Piece names s i (.functor (.conn c .connectEstablished)) u) :
    ∃ k, s.conns c = some k ∧ u = s.connectEstablished c k := by
  cases piece with
  | connectEstablished _ k found => exact ⟨k,found,rfl⟩
  | skip _ plain | timer _ plain timers | conn _ plain _ _ _ _ _ _ _ _ _ _ => cases plain
  | handleClose _ _ _ _ _ closes => cases closes

theorem piece_connectDestroyed (piece : Piece names s i (.functor (.conn c .connectDestroyed)) u) :
    ∃ k, s.conns c = some k ∧ u = s.connectDestroyed i c k := by
  cases piece with
  | connectDestroyed _ k found => exact ⟨k,found,rfl⟩
  | skip _ plain | timer _ plain timers | conn _ plain _ _ _ _ _ _ _ _ _ _ => cases plain
  | handleClose _ _ _ _ _ closes => cases closes

theorem code_functor {p : Push ServerFunctor} {f : ConnFunctor} {loop : EventLoop ServerFunctor}
    (placed : Placed names s) (guarded : Guarded rule s l) (why : s.cause l = some (i,.functor (.conn c f)))
    (next : (s.threads i).loop.functors.head? = some p) (functor : p.functor = .conn c f)
    (move : LoopMove fd (s.threads i).loop .run loop) (piece : Piece names (s.setLoop i loop) i (.functor (.conn c f)) u)
    (shows : s.Shows c i a) : Moves rule s l u c i a := by
  obtain ⟨rest,queue,shown⟩ := shows.pop_functor next move functor
  have away : (s.threads i).loop.pc ≠ .handling := by
    cases move with
    | run f rest next here idle => rcases here with here | here <;> simp [here]
  have quiet := still_life placed shows away
  by_cases established : f = .connectEstablished
  · subst established
    obtain ⟨k,found,rfl⟩ := piece_connectEstablished piece
    obtain ⟨k',there,home,life⟩ := shown
    rw [found] at there
    cases there
    refine .code (.connectEstablished rest queue) ?_
    rw [← life,← home]
    exact .connectEstablished _ c k
  by_cases destroyed : f = .connectDestroyed
  · subst destroyed
    obtain ⟨k,found,rfl⟩ := piece_connectDestroyed piece
    obtain ⟨k',there,home,life⟩ := shown
    rw [found] at there
    cases there
    refine .code (.connectDestroyed rest queue (guarded.spared why shows)) ?_
    rw [← life]
    exact .connectDestroyed _ c home
  · have plain : (Cause.functor (.conn c f)).plain = true ∧ f.token = false := by
      cases f <;> simp_all [Cause.plain,ServerFunctor.plain,ConnFunctor.token]
    have sent : ∀ m, Cause.functor (.conn c f) = .functor (.conn c (.sendInLoop m)) → a.conn.state ≠ .kConnecting := by
      intro m same
      have inside := (placed.threads i).queued p (mem_queued next)
      rw [functor] at inside
      obtain ⟨k,found,_,state⟩ := inside
      obtain ⟨k',there,_,rfl⟩ := shows
      rw [found] at there
      cases there
      exact state m (by simpa using same)
    have started := guarded.started why shows
    rcases piece_plain (rule ≠ .free) plain.1 piece rfl shown started sent with
      ⟨acts,b,fs,calm,keeps,own,after⟩ | ⟨acts,closes,after⟩
    · cases calm_other calm (by simp)
      exact .code (.code rest _ [] b fs (.functor f rest queue plain.2) keeps own) after
    · obtain ⟨k,found,home,rfl⟩ := shows
      have comes := closes.closing why (by simp [Server.setLoop,setThread_threads]) found rfl
      cases closes with
      | force live =>
        refine ⟨.close,_,.handleClose rest [] [] (.force rest queue live quiet.2) quiet.1 (by simp [quiet.2]),?_,comes⟩
        rw [← quiet.2]
        exact after

theorem code_removal {p : Push ServerFunctor} {loop : EventLoop ServerFunctor}
    (distinct : Function.Injective names) (next : (s.threads 0).loop.functors.head? = some p)
    (functor : p.functor = .removeConnectionInLoop c) (move : LoopMove fd (s.threads 0).loop .run loop)
    (whole : Placed names (s.setLoop 0 loop)) (piece : Piece names (s.setLoop 0 loop) 0 (.functor (.removeConnectionInLoop c)) u)
    (shows : s.Shows c i a) : Moves rule s l u c i a := by
  obtain ⟨n,removals,k,found,home,life⟩ := shows.pop_removal next move functor
  refine .code (.removeConnectionInLoop n removals) ?_
  rw [← life,← home]
  cases piece with
  | removeConnectionInLoop _ k' there u ok =>
    rw [found] at there
    cases there
    exact .removeConnectionInLoop whole distinct (fun _ => found) ok
  | skip _ plain | timer _ plain timers | conn _ plain _ _ _ _ _ _ _ _ _ _ => cases plain
  | handleClose _ _ _ _ _ closes => cases closes

theorem code_frame {frame : Frame} {rest : List Frame} (distinct : Function.Injective names)
    (next : (s.threads i).stack = frame::rest) (about : (Cause.frame frame).about (s.threads i) c)
    (whole : Placed names (s.setStack i rest)) (piece : Piece names (s.setStack i rest) i (.frame frame) u)
    (shows : s.Shows c i a) : Moves rule s l u c i a := by
  cases piece with
  | closeCallback d k' there u ok =>
    cases about
    obtain ⟨n,closing,k,found,home,life⟩ := shows.pop_closing next
    rw [found] at there
    cases there
    refine .code (.removeConnection n closing) ?_
    rw [← life]
    exact .removeConnection whole distinct found home ok
  | remove d k' there =>
    cases about
    obtain ⟨n,removing,k,found,home,life⟩ := shows.pop_removing next
    rw [found] at there
    cases there
    refine .code (.remove n removing) ?_
    rw [← life,← home]
    exact .remove _ _ c _
  | skip _ plain | timer _ plain timers | conn _ plain _ _ _ _ _ _ _ _ _ _ => cases plain
  | handleClose _ _ _ _ _ closes => cases closes

theorem about_congr {first second : IoThread} (same : first.current = second.current) :
    cause.about first c ↔ cause.about second c := by
  cases cause with
  | handler h r => simp [Cause.about,same]
  | functor f => cases f <;> rfl
  | frame frame => cases frame <;> rfl
  | user d api => rfl

theorem code_move (placed : Placed names s) (distinct : Function.Injective names) (guarded : Guarded rule s l)
    (own : ∀ c api, cause = .user c api → BelongsTo s.conns j c) (why : s.cause l = some (j,cause))
    (pop : Pop fd s j cause v) (piece : Piece names v j cause u) (shows : s.Shows c i a) :
    Moves rule s l u c i a := by
  have whole := placed.pop pop
  by_cases concerns : cause.concerns (s.threads j) c
  · have here (about : cause.about (s.threads j) c) : i = j := by
      have belongs := placed.about pop own c ((about_congr (pop_current pop)).mpr about)
      rw [pop_conns pop] at belongs
      exact shows.home belongs
    cases pop with
    | user d api =>
      rcases concerns with rfl | removal
      · cases here rfl
        exact code_user guarded why piece shows shows
      · cases removal
    | timer d timers =>
      rcases concerns with rfl | removal
      · cases here rfl
        exact code_user guarded why piece shows (shows.setThread rfl)
      · cases removal
    | handler h r hs empty next =>
      rcases concerns with current | removal
      · cases here current
        exact code_handler placed guarded why next current piece shows
      · cases removal
    | functor p loop empty next move =>
      cases functor : p.functor with
      | conn d f =>
        rw [functor] at concerns piece why here
        rcases concerns with rfl | removal
        · cases here rfl
          exact code_functor placed guarded why next functor move piece shows
        · cases removal
      | removeConnectionInLoop d =>
        rw [functor] at concerns piece why here
        rcases concerns with about | removal
        · cases about
        · cases removal
          have inside := (placed.threads j).queued p (mem_queued next)
          rw [functor] at inside
          cases inside.1
          exact code_removal distinct next functor move whole piece shows
      | _ =>
        rw [functor] at concerns
        rcases concerns with about | removal
        · cases about
        · cases removal
    | frame frame rest next =>
      rcases concerns with about | removal
      · cases here about
        exact code_frame distinct next about whole piece shows
      · cases removal
  · have base : cause ≠ .frame .destructor := by
      rintro rfl
      cases piece with
      | skip _ plain | timer _ plain timers | conn _ plain _ _ _ _ _ _ _ _ _ _ => cases plain
      | handleClose _ _ _ _ _ closes => cases closes
    refine .code .still (piece_other whole distinct piece ?_ (pop_other pop concerns base shows))
    rwa [Cause.concerns,about_congr (pop_current pop)]

theorem loop_shows {ll : LoopLabel ServerFunctor} {loop : EventLoop ServerFunctor} (placed : Placed names s)
    (passes : s.passes j ll = true) (move : LoopMove fd (s.threads j).loop ll loop) (shows : s.Shows c i a) :
    (s.setThread j {s.threads j with
      loop := loop, current := if ll = .handled then none else (s.threads j).current}).Shows c i a := by
  have functors : (loop.queued.filterMap fun p => p.functor.of c) =
        (s.threads j).loop.queued.filterMap (fun p => p.functor.of c) ∧
      (loop.queued.countP fun p => p.functor = .removeConnectionInLoop c) =
        (s.threads j).loop.queued.countP fun p => p.functor = .removeConnectionInLoop c := by
    by_cases push : ∃ t f, ll = .queueInLoop t f
    · obtain ⟨t,f,rfl⟩ := push
      have functor : f = .other := by simpa [Server.passes] using passes
      rw [queued_push fd _ _ t f move,functor]
      simp [List.filterMap_append,List.countP_append,ServerFunctor.of]
    · have other : ll ≠ .run := by
        rintro rfl
        cases passes
      rw [queued_still fd _ _ ll (placed.threads j).ordered move other fun t f same => push ⟨t,f,same⟩]
      exact ⟨rfl,rfl⟩
  have pending : (if (if ll = .handled then none else (s.threads j).current) = some (.conn c) then
      (s.threads j).handlers else []) = if (s.threads j).current = some (.conn c) then (s.threads j).handlers else [] := by
    split
    · rename_i handled
      subst handled
      have done : ((s.threads j).stack = [] ∧ (s.threads j).handlers = []) ∧ (s.threads j).ready = [] := by
        simpa [Server.passes] using passes
      simp [done.1.2]
    · rfl
  refine shows.setThread ?_
  simp only [IoThread.view,functors,pending]

theorem poll_move {woken : Bool} {ready : List (Chan × Revents)} {loop : EventLoop ServerFunctor}
    (placed : Placed names s) (whole : rule = .orderly true → ∀ e ∈ ready, e.1 = .conn c → e.2.torn = false)
    (registered : ∀ e ∈ ready, s.registered j e.1 = true) (move : LoopMove fd (s.threads j).loop (.poll woken) loop)
    (shows : s.Shows c i a) :
    ∃ b, LifeMove rule a .code b ∧ (s.setThread j {s.threads j with
      loop := loop, activeChannels := ready.map Prod.fst, ready := ready, removed := []}).Shows c i b := by
  have queue := queued_still fd _ _ _ (placed.threads j).ordered move nofun nofun
  have away : (s.threads j).loop.pc ≠ .handling := by
    cases move with
    | poll woken here positive => simp [here]
  have idle := ((placed.threads j).still away).1
  have mine : ∀ r ∈ ready.filterMap (fun e => if e.1 = .conn c then some e.2 else none), s.registered j (.conn c) = true ∧
      (rule = .orderly true → r.torn = false) := by
    intro r member
    obtain ⟨e,inside,same⟩ := List.mem_filterMap.mp member
    obtain ⟨channel,⟨⟩⟩ := Option.ite_none_right_eq_some.mp same
    exact ⟨channel ▸ registered e inside,fun orderly => whole orderly e inside channel⟩
  have view : ({s.threads j with
      loop := loop, activeChannels := ready.map Prod.fst, ready := ready, removed := []} : IoThread).view c =
        {(s.threads j).view c with
          waiting := ready.filterMap fun e => if e.1 = .conn c then some e.2 else none} := by
    simp only [IoThread.view,queue]
  by_cases home : i = j
  · subst home
    have fresh := (still_life placed shows away).1
    obtain ⟨k,found,rfl,rfl⟩ := shows
    refine ⟨_,.report _ fresh ?_ fun orderly r member => (mine r member).2 orderly,k,found,rfl,life_home rfl view rfl rfl⟩
    intro some
    obtain ⟨r,member⟩ := List.exists_mem_of_ne_nil _ some
    have busy := (mine r member).1
    simp only [Server.registered,found,Option.any_some,decide_true,Bool.true_and,Bool.not_eq_true'] at busy
    exact busy
  · refine ⟨a,.still,shows.setThread (view.trans ?_)⟩
    have empty : ready.filterMap (fun e => if e.1 = .conn c then some e.2 else none) = [] := by
      refine List.eq_nil_iff_forall_not_mem.mpr fun r member => home ?_
      have there := (mine r member).1
      obtain ⟨k,found,rfl,rfl⟩ := shows
      simp only [Server.registered,found,Option.any_some,Bool.and_eq_true,decide_eq_true_eq] at there
      exact there.1
    rw [empty]
    simp [IoThread.view,idle]

theorem dispatch_move {ch : Chan} {r : Revents} {rest : List (Chan × Revents)} (placed : Placed names s)
    (next : (s.threads j).ready = (ch,r)::rest) (done : (s.threads j).handlers = []) (shows : s.Shows c i a) :
    ∃ b, LifeMove rule a .code b ∧ (s.setThread j {s.threads j with
      current := some ch, handlers := r.handlers, ready := rest}).Shows c i b := by
  by_cases mine : ch = .conn c
  · subst mine
    have belongs : BelongsTo s.conns j c := (placed.threads j).ready (.conn c) (by simp [next])
    cases shows.home belongs
    obtain ⟨k,found,rfl,rfl⟩ := shows
    refine ⟨_,.dispatch r (rest.filterMap fun e => if e.1 = .conn c then some e.2 else none) ?_,k,found,rfl,?_⟩
    · simp [Server.life,Life.of,IoThread.view,next]
    · rw [life_home (w := {(s.threads k.loop).view c with
        waiting := rest.filterMap fun e => if e.1 = .conn c then some e.2 else none
        pending := r.handlers}) rfl (by simp [IoThread.view]) rfl rfl]
      rfl
  · exact ⟨a,.still,shows.setThread (by simp [IoThread.view,next,mine,done])⟩

/-- `connections_` without its first entry. -/
theorem taken_life {name : String} {rest : List (String × Nat)} (placed : Placed names s)
    (first : s.connections = (name,c)::rest) (k : Conn) :
    ({s with connections := rest} : Server).life c k = {s.life c k with listed := false} ∧ (s.life c k).listed = true := by
  have once := placed.once
  rw [first,List.map_cons,List.nodup_cons] at once
  have gone : ({s with connections := rest} : Server).listed c = false := by
    rw [← Bool.not_eq_true]
    intro listed
    obtain ⟨e,member,same⟩ := List.any_eq_true.mp listed
    exact once.1 (List.mem_map.mpr ⟨e,member,by simpa using same⟩)
  constructor
  · unfold Server.life
    rw [gone]
    rfl
  · change s.listed c = true
    simp [Server.listed,first]

theorem taken_other {name : String} {d : Nat} {rest : List (String × Nat)} (first : s.connections = (name,d)::rest)
    (other : d ≠ c) (shows : s.Shows c i a) : ({s with connections := rest} : Server).Shows c i a :=
  shows.connections (by simp [Server.listed,first,other])

theorem destructor_begun {stack : List Frame} (next : (s.threads 0).stack = .destructor::stack) : s.begun = true := by
  simp [Server.begun,next]

theorem Guarded.over {r : Results} {stack : List Frame} (guarded : Guarded rule s (.resume 0 r))
    (next : (s.threads 0).stack = .destructor::stack) : rule.stays = false := by
  rw [← Bool.not_eq_true]
  intro stays
  have on := (guarded.stays stays).1
  simp [destructor_begun next] at on

theorem destructor_takes {r : Results} {name : String} {d : Nat} {rest : List (String × Nat)} {stack : List Frame}
    (next : (s.threads 0).stack = .destructor::stack) (first : s.connections = (name,d)::rest)
    (found : s.conns d = some k) (home : k.loop = 0) : s.takes (.resume 0 r) = some d := by
  simp [Server.takes,Server.cause,next,first,found,home]

theorem Guarded.takes_decided {r : Results} {name : String} {d : Nat} {rest : List (String × Nat)} {stack : List Frame}
    (guarded : Guarded rule s (.resume 0 r)) (next : (s.threads 0).stack = .destructor::stack)
    (first : s.connections = (name,d)::rest) (found : s.conns d = some k) (home : k.loop = 0) (decided : rule = .decided) :
    k.conn.state ≠ .kDisconnecting := by
  have spares := guarded.spares decided
  have destroys : s.destroys (.resume 0 r) = some d := by
    simp [Server.destroys,Server.cause,next,destructor_takes next first found home]
  simpa [Server.sparesDisconnecting,destroys,found] using spares

theorem take_move {r : Results} {name : String} {d : Nat} {rest : List (String × Nat)} {stack : List Frame}
    (placed : Placed names s) (guarded : Guarded rule s (.resume 0 r)) (next : (s.threads 0).stack = .destructor::stack)
    (first : s.connections = (name,d)::rest) (found : s.conns d = some k) (home : k.loop = 0) (shows : s.Shows c i a) :
    Moves rule s (.resume 0 r) (({s with connections := rest} : Server).connectDestroyed 0 d k) c i a := by
  by_cases mine : d = c
  · subst mine
    obtain ⟨k',there,rfl,rfl⟩ := shows
    rw [found] at there
    cases there
    obtain ⟨life,listed⟩ := taken_life placed first k
    have here : (s.life d k).away = false := by simp [Server.life,Life.of,home]
    refine ⟨.take,_,.take (guarded.over next) here listed (guarded.takes_decided next first found home),?_,
      destructor_takes next first found home⟩
    rw [← life,home]
    exact .connectDestroyed _ d home
  · exact .code .still ((taken_other first mine shows).connectDestroyed_other mine k)

theorem takeAway_move {name : String} {d : Nat} {rest : List (String × Nat)} (placed : Placed names s)
    (ends : rule.stays = false) (first : s.connections = (name,d)::rest) (found : s.conns d = some k) (away : k.loop ≠ 0)
    (ok : ({s with connections := rest} : Server).queueInLoop k.loop 0 (.conn d .connectDestroyed) = some u)
    (shows : s.Shows c i a) : ∃ b, LifeMove rule a .code b ∧ u.Shows c i b := by
  by_cases mine : d = c
  · subst mine
    obtain ⟨k',there,rfl,rfl⟩ := shows
    rw [found] at there
    cases there
    obtain ⟨life,listed⟩ := taken_life placed first k
    have other : (s.life d k).away = true := by simp [Server.life,Life.of,away]
    have taken : ({s with connections := rest} : Server).Shows d k.loop {s.life d k with listed := false} :=
      ⟨k,found,rfl,life⟩
    exact ⟨_,.takeAway ends other listed,taken.queueInLoop_conn ok⟩
  · exact ⟨a,.still,(taken_other first mine shows).queueInLoop_other ok (Server.Shows.conn_other mine _) (by simp)⟩

theorem destructed_move {stack : List Frame} (ends : rule.stays = false)
    (next : (s.threads 0).stack = .destructor::stack) (all : s.connections = []) (shows : s.Shows c i a) :
    ∃ b, LifeMove rule a .code b ∧
      ({(s.setStack 0 stack).removeChannel 0 .acceptor with destroyed := true} : Server).Shows c i b := by
  have popped : ∃ begun, (s.setStack 0 stack).Shows c i {a with begun := begun} := by
    obtain ⟨k,found,rfl,rfl⟩ := shows
    have view := view_stack (c := c) (s.threads 0) _ stack next
    simp only [reduceCtorEq,if_false,Nat.add_zero,decide_true,Bool.true_or] at view
    refine ⟨(({s.threads 0 with stack := stack} : IoThread).view c).destructing || s.destroyed,k,found,rfl,
      (life_base rfl (by rw [view]) (by rw [view]) (by rw [view]) (by rw [view]) (by rw [view])).trans ?_⟩
    simp [Server.life,Life.of,view]
  obtain ⟨begun,popped⟩ := popped
  have unlisted : a.listed = false := by
    obtain ⟨k,_,_,rfl⟩ := shows
    change s.listed c = false
    simp [Server.listed,all]
  obtain ⟨k,found,home,life⟩ := popped.removeChannel 0 .acceptor
  refine ⟨_,.destructed ends unlisted,k,found,home,?_⟩
  have after : ({(s.setStack 0 stack).removeChannel 0 .acceptor with destroyed := true} : Server).life c k =
      {((s.setStack 0 stack).removeChannel 0 .acceptor).life c k with begun := true, destroyed := true} := by
    simp [Server.life,Life.of,Server.listed]
  rw [after,life]

theorem setState_move {t d : Nat} {f : ServerFunctor} (guarded : Guarded rule s (.proceed t))
    (call : s.calls t = some (.setState d f)) (found : s.conns d = some k) (shows : s.Shows c i a) :
    ∃ b, LifeMove rule a .code b ∧
      ((s.setConn d {k with conn := k.conn.setState .kDisconnecting}).setCall t (some (.push d f))).Shows c i b := by
  by_cases mine : d = c
  · subst mine
    have live (strict : rule ≠ .free) : k.conn.state.isOpen = true := by
      simpa [Server.swaps,call,found] using guarded.swaps strict
    obtain ⟨k',there,rfl,rfl⟩ := shows
    rw [found] at there
    cases there
    refine ⟨_,.code _ _ [] (k.conn.setState .kDisconnecting) [] .user (fun strict => .of_open (live strict) rfl) nofun,?_⟩
    rw [List.append_nil,List.append_nil]
    exact Server.Shows.setConn s d {k with conn := k.conn.setState .kDisconnecting}
  · exact ⟨a,.still,shows.setConn_other mine _⟩

theorem push_move {t d : Nat} {f : ServerFunctor} (placed : Placed names s) (call : s.calls t = some (.push d f))
    (found : s.conns d = some k) (ok : (s.setCall t none).queueInLoop k.loop t f = some u) (shows : s.Shows c i a) :
    Moves rule s (.proceed t) u c i a := by
  obtain ⟨own,plain,k',there,inside⟩ := placed.calls t _ call
  have done : (s.setCall t none).Shows c i a := shows
  cases f with
  | conn e g =>
    cases own e g rfl
    by_cases mine : d = c
    · subst mine
      cases shows.home ⟨k,found,rfl⟩
      have token : g.token = false := by cases g <;> first | rfl | cases plain
      exact ⟨.push g,_,.push g token,done.queueInLoop_conn ok,t,rfl,call⟩
    · exact .code .still (done.queueInLoop_other ok (Server.Shows.conn_other mine g) nofun)
  | removeConnectionInLoop e => cases plain
  | addTimerInLoop e => exact .code .still (done.queueInLoop_other ok rfl nofun)
  | other => exact .code .still (done.queueInLoop_other ok rfl nofun)

/-- Every step of the server is a move in the life of each connection it knew. -/
theorem life_move (placed : Placed names s) (distinct : Function.Injective names) (guarded : Guarded rule s l)
    (move : ServerMove fd names s l u) (shows : s.Shows c i a) : Moves rule s l u c i a := by
  have alone : (∃ b, LifeMove rule a .code b ∧ u.Shows c i b) → Moves rule s l u c i a :=
    fun ⟨_,move,shown⟩ => .code move shown
  cases move with
  | loop j ll loop passes move => exact .code .still (loop_shows placed passes move shows)
  | poll j woken ready loop different registered move =>
    have whole (orderly : rule = .orderly true) : ∀ e ∈ ready, e.1 = .conn c → e.2.torn = false := by
      intro e member channel
      have all := guarded.whole orderly
      simp only [ServerLabel.whole,List.all_eq_true] at all
      simpa [channel] using all e member
    exact alone (poll_move placed whole registered move shows)
  | dispatch j ch r rest next here empty done => exact alone (dispatch_move placed next done shows)
  | code _ j cause v u user own why pop piece => exact code_move placed distinct guarded own why pop piece shows
  | take r name d k rest stack next first found home => exact take_move placed guarded next first found home shows
  | takeAway r name d k rest stack next first found away u ok =>
    exact alone (takeAway_move placed (guarded.over next) first found away ok shows)
  | destructed r stack next all => exact alone (destructed_move (guarded.over next) next all shows)
  | begin t d api w k found away => exact .code .still shows
  | setState t d f k call found => exact alone (setState_move guarded call found shows)
  | push t d f k call found u ok => exact push_move placed call found ok shows
  | destroy user on absent =>
    have ends : rule.stays = false := by
      rw [← Bool.not_eq_true]
      exact fun stays => (guarded.stays stays).2 rfl
    exact .code (.begin ends) shows.enter_destructor

/-- The life of each connection after a step: a move of its life before, or its beginning. -/
theorem life_step (placed : Placed names s) (distinct : Function.Injective names) (guarded : Guarded rule s l)
    (ok : serverStep fd names s l = some u) (known : u.conns c = some k) :
    (∃ a touch, s.Shows c k.loop a ∧ LifeMove rule a touch (u.life c k) ∧ touch.comes s l c) ∨
    ∃ away writeCompleteCallback, u.life c k = .born away writeCompleteCallback := by
  have move := placed.move ok
  cases before : s.conns c with
  | some k' =>
    obtain ⟨touch,b,moved,⟨k'',there,home,rfl⟩,comes⟩ := life_move placed distinct guarded move ⟨k',before,rfl,rfl⟩
    rw [known] at there
    cases there
    exact .inl ⟨_,touch,⟨k',before,home.symm,rfl⟩,moved,comes⟩
  | none =>
    rcases move_knows move with knows | ⟨j,h,hs,io,empty,on,current,next,accepted⟩
    · rw [knows c before] at known
      cases known
    · have base : j = 0 := (placed.threads j).current _ current
      subst base
      have popped := placed.pop (.handler h ⟨0,.wrote 0,none⟩ hs empty next : Pop fd s 0 _ _)
      have mine : c = s.nextConnId := by
        by_contra other
        have same := newConnection_others accepted other
        rw [known] at same
        exact nomatch same.trans before
      have shown : u.Shows s.nextConnId io _ :=
        newConnection_born popped on (by simpa [setThread_threads] using empty) accepted
      subst mine
      obtain ⟨k',there,_,life⟩ := shown
      rw [known] at there
      cases there
      exact .inr ⟨_,_,life⟩

/-- What every connection has at its beginning and every move of its life keeps. -/
theorem lives_step (holds : Life → Prop) (placed : Placed names s) (distinct : Function.Injective names)
    (guarded : Guarded rule s l) (ok : serverStep fd names s l = some u)
    (kept : ∀ c a touch b, holds a → LifeMove rule a touch b → touch.comes s l c → holds b)
    (born : ∀ away writeCompleteCallback, holds (.born away writeCompleteCallback))
    (lives : ∀ c k, s.conns c = some k → holds (s.life c k)) (c : Nat) (k : Conn) (known : u.conns c = some k) :
    holds (u.life c k) := by
  rcases life_step placed distinct guarded ok known with ⟨_,touch,⟨k',found,_,rfl⟩,moved,comes⟩ | ⟨away,callback,life⟩
  · exact kept c _ touch _ (lives c k' found) moved comes
  · rw [life]
    exact born away callback

end

end

end Reactor.Net
