import Reactor.Net.ServerMove

/-! Everything about a connection is done in its own loop. The functors, the event of the
moment and the rest of a function that concern a connection are found in the thread the
connection belongs to, and a connection is not forgotten. -/
namespace Reactor.Net
open Reactor.Transition

abbrev Conns := Nat → Option Conn

def BelongsTo (conns : Conns) (i c : Nat) : Prop := ∃ k, conns c = some k ∧ k.loop = i

def ServerFunctor.placed (conns : Conns) (i : Nat) : ServerFunctor → Prop
  | .conn c f => ∃ k, conns c = some k ∧ k.loop = i ∧ (∀ m, f = .sendInLoop m → k.conn.state ≠ .kConnecting)
  | .removeConnectionInLoop c => i = 0 ∧ ∃ k, conns c = some k
  | _ => True

def Frame.placed (conns : Conns) (i : Nat) : Frame → Prop
  | .closeCallback c | .remove c => BelongsTo conns i c
  | .destructor => i = 0

def Chan.placed (conns : Conns) (i : Nat) : Chan → Prop
  | .conn c => BelongsTo conns i c
  | .acceptor => i = 0
  | .other _ => True

def Call.placed (conns : Conns) : Call → Prop
  | .setState c f | .push c f =>
    (∀ d g, f = .conn d g → d = c) ∧ f.plain = true ∧ ∃ k, conns c = some k ∧ f.placed conns k.loop

structure ThreadPlaced (conns : Conns) (i : Nat) (th : IoThread) : Prop where
  ordered : Ordered th.loop
  queued : ∀ p ∈ th.loop.queued, p.functor.placed conns i
  stack : ∀ frame ∈ th.stack, frame.placed conns i
  ready : ∀ ch ∈ th.ready.map Prod.fst, ch.placed conns i
  current : ∀ ch, th.current = some ch → ch.placed conns i
  distinct : (th.ready.map Prod.fst).Nodup
  apart : ∀ ch, th.current = some ch → ch ∉ th.ready.map Prod.fst
  still : th.loop.pc ≠ .handling → th.ready = [] ∧ th.handlers = [] ∧ th.current = none

/-- The connections of the server are in the order of their names, so that the destructor
begins with the least one. -/
structure Placed (names : Nat → String) (s : Server) : Prop where
  threads : ∀ i, ThreadPlaced s.conns i (s.threads i)
  calls : ∀ t call, s.calls t = some call → call.placed s.conns
  connections : ∀ e ∈ s.connections, e.1 = names e.2 ∧ ∃ k, s.conns e.2 = some k
  once : (s.connections.map Prod.snd).Nodup
  increasing : Keyed.Increasing Prod.fst s.connections
  fresh : ∀ c k, s.conns c = some k → c < s.nextConnId

/-- Connections stay in their loop, and none is about to connect again. -/
def Grows (before after : Conns) : Prop :=
  ∀ c k, before c = some k → ∃ k', after c = some k' ∧ k'.loop = k.loop ∧
    (k.conn.state ≠ .kConnecting → k'.conn.state ≠ .kConnecting)

theorem Grows.update {conns : Conns} {c : Nat} {k b : Conn} (found : conns c = some k) (loop : b.loop = k.loop)
    (state : k.conn.state ≠ .kConnecting → b.conn.state ≠ .kConnecting) :
    Grows conns (Function.update conns c (some b)) := by
  intro d j there
  by_cases same : d = c
  · subst same
    rw [found] at there
    cases there
    exact ⟨b,by simp,loop,state⟩
  · exact ⟨j,by simpa [same] using there,rfl,id⟩

theorem Grows.insert {conns : Conns} {c : Nat} (free : conns c = none) (b : Conn) :
    Grows conns (Function.update conns c (some b)) := by
  intro d j there
  have other : d ≠ c := by
    rintro rfl
    rw [free] at there
    cases there
  exact ⟨j,by simpa [other] using there,rfl,id⟩

section
variable {before after : Conns} {i : Nat}

theorem BelongsTo.grows {c : Nat} (home : BelongsTo before i c) (grows : Grows before after) : BelongsTo after i c := by
  obtain ⟨k,found,loop⟩ := home
  obtain ⟨b,there,same,_⟩ := grows c k found
  exact ⟨b,there,same.trans loop⟩

theorem ServerFunctor.placed_grows {f : ServerFunctor} (placed : f.placed before i) (grows : Grows before after) :
    f.placed after i := by
  cases f with
  | conn c f =>
    obtain ⟨k,found,loop,sent⟩ := placed
    obtain ⟨b,there,same,state⟩ := grows c k found
    exact ⟨b,there,same.trans loop,fun m send => state (sent m send)⟩
  | removeConnectionInLoop c =>
    obtain ⟨base,k,found⟩ := placed
    obtain ⟨b,there,_⟩ := grows c k found
    exact ⟨base,b,there⟩
  | addTimerInLoop c => trivial
  | other => trivial

theorem Frame.placed_grows {frame : Frame} (placed : frame.placed before i) (grows : Grows before after) :
    frame.placed after i := by
  cases frame with
  | closeCallback c => exact BelongsTo.grows placed grows
  | remove c => exact BelongsTo.grows placed grows
  | destructor => exact placed

theorem Chan.placed_grows {ch : Chan} (placed : ch.placed before i) (grows : Grows before after) :
    ch.placed after i := by
  cases ch with
  | conn c => exact BelongsTo.grows placed grows
  | acceptor => exact placed
  | other k => trivial

theorem Call.placed_grows {call : Call} (placed : call.placed before) (grows : Grows before after) :
    call.placed after := by
  cases call with
  | setState c f | push c f =>
    obtain ⟨own,plain,k,found,inside⟩ := placed
    obtain ⟨b,there,same,_⟩ := grows c k found
    exact ⟨own,plain,b,there,same ▸ ServerFunctor.placed_grows inside grows⟩

theorem ThreadPlaced.grows {th : IoThread} (placed : ThreadPlaced before i th) (grows : Grows before after) :
    ThreadPlaced after i th :=
  { placed with
    queued := fun p member => ServerFunctor.placed_grows (placed.queued p member) grows
    stack := fun frame member => Frame.placed_grows (placed.stack frame member) grows
    ready := fun ch member => Chan.placed_grows (placed.ready ch member) grows
    current := fun ch here => Chan.placed_grows (placed.current ch here) grows }

end

section
variable {names : Nat → String} {s u v : Server} {i c : Nat} {k : Conn} {fd : EventFd}

theorem setThread_threads (th : IoThread) (j : Nat) :
    (s.setThread i th).threads j = if j = i then th else s.threads j := by
  by_cases same : j = i
  · subst same
    simp [Server.setThread]
  · simp [Server.setThread,same]

namespace Placed

theorem grow (placed : Placed names s) {conns : Conns} (grows : Grows s.conns conns)
    (fresh : ∀ c k, conns c = some k → c < s.nextConnId) : Placed names {s with conns := conns} where
  threads j := (placed.threads j).grows grows
  calls t call there := Call.placed_grows (placed.calls t call there) grows
  connections e member := by
    obtain ⟨name,k,found⟩ := placed.connections e member
    obtain ⟨b,there,_⟩ := grows e.2 k found
    exact ⟨name,b,there⟩
  once := placed.once
  increasing := placed.increasing
  fresh := fresh

theorem setConn (placed : Placed names s) {b : Conn} (found : s.conns c = some k) (loop : b.loop = k.loop)
    (state : k.conn.state ≠ .kConnecting → b.conn.state ≠ .kConnecting) : Placed names (s.setConn c b) := by
  refine placed.grow (Grows.update found loop state) fun d j there => ?_
  by_cases same : d = c
  · subst same
    exact placed.fresh d k found
  · exact placed.fresh d j (by simpa [same] using there)

theorem setThread (placed : Placed names s) {th : IoThread} (ok : ThreadPlaced s.conns i th) :
    Placed names (s.setThread i th) where
  threads j := by
    rw [setThread_threads]
    split
    · rename_i same
      subst same
      exact ok
    · exact placed.threads j
  calls := placed.calls
  connections := placed.connections
  once := placed.once
  increasing := placed.increasing
  fresh := placed.fresh

theorem fail (placed : Placed names s) (a : Assertion) : Placed names (s.fail a) := {placed with}

theorem enter (placed : Placed names s) {frame : Frame} (ok : frame.placed s.conns i) :
    Placed names (s.enter i frame) := by
  refine placed.setThread {placed.threads i with stack := fun other member => ?_}
  rcases List.mem_cons.mp member with rfl | old
  · exact ok
  · exact (placed.threads i).stack other old

theorem queueInLoop (placed : Placed names s) {t : Nat} {f : ServerFunctor}
    (pushed : s.queueInLoop i t f = some u) (ok : f.placed s.conns i) : Placed names u := by
  obtain ⟨_,⟨⟩⟩ := Option.ite_none_right_eq_some.mp pushed
  refine placed.setThread {placed.threads i with
    ordered := ordered_queueInLoop _ t f (placed.threads i).ordered
    queued := fun p member => ?_ }
  rw [queueInLoop_queued] at member
  rcases List.mem_append.mp member with old | new
  · exact (placed.threads i).queued p old
  · cases List.mem_singleton.mp new
    exact ok

theorem removeChannel (placed : Placed names s) (ch : Chan) : Placed names (s.removeChannel i ch) := by
  unfold Server.removeChannel
  simp only
  split
  · exact placed.fail _
  · exact placed.setThread {placed.threads i with}

theorem remove (placed : Placed names s) (b : Conn) (found : s.conns c = some k) (loop : b.loop = k.loop)
    (state : b.conn = k.conn) : Placed names (s.remove i c b) := by
  have noted : Placed names (s.setConn c {b with acts := b.acts ++ [.remove b.conn.channel.isNoneEvent]}) :=
    placed.setConn found loop (by simp [state])
  unfold Server.remove
  simp only
  split
  · exact noted.removeChannel _
  · exact noted.fail _

theorem connectDestroyed (placed : Placed names s) (found : s.conns c = some k) (home : k.loop = i) :
    Placed names (s.connectDestroyed i c k) := by
  unfold Server.connectDestroyed
  split
  · exact (placed.setConn found (b := {k with
        conn := {k.conn with state := .kDisconnected, channel := k.conn.channel.disableAll}
        acts := k.acts ++ [.connectDestroyed k.conn.state,.connectionCallback false]}) rfl (by simp)).enter
      ⟨_,Function.update_self _ _ _,home⟩
  · exact placed.remove _ found rfl rfl

theorem connectEstablished (placed : Placed names s) (found : s.conns c = some k) :
    Placed names (s.connectEstablished c k) := by
  unfold Server.connectEstablished
  split
  · rename_i connecting
    exact placed.setConn found rfl (by simp [connecting])
  · exact (placed.setConn found (b := {k with acts := k.acts ++ [.connectEstablished]}) rfl id).fail _

theorem handleClose (placed : Placed names s) (acts : List Act) (found : s.conns c = some k) (home : k.loop = i) :
    Placed names (s.handleClose i c {k with acts := k.acts ++ acts}) := by
  unfold Server.handleClose
  split
  · rename_i live
    refine (placed.setConn found (b := {k with
        conn := k.conn.handleClose, acts := k.acts ++ acts ++ [.handleClose,.connectionCallback false]}) rfl ?_).enter
      ⟨_,Function.update_self _ _ _,home⟩
    intro _
    cases state : k.conn.state <;> simp_all [TcpConnection.handleClose,StateE.isOpen]
  · exact (placed.setConn found (b := {k with acts := k.acts ++ acts ++ [.handleClose]}) rfl id).fail _

theorem connections_sub (placed : Placed names s) {rest : List (String × Nat)} (sub : rest.Sublist s.connections) :
    Placed names {s with connections := rest} :=
  { placed with
    connections := fun e member => placed.connections e (sub.subset member)
    once := placed.once.sublist (sub.map Prod.snd)
    increasing := placed.increasing.sublist sub }

theorem removeConnectionInLoop (placed : Placed names s) (acts : List Act) (found : s.conns c = some k)
    (ok : s.removeConnectionInLoop names c {k with acts := k.acts ++ acts} = some u) : Placed names u := by
  unfold Server.removeConnectionInLoop at ok
  split at ok
  · cases ok
    exact {placed with}
  · simp only at ok
    have sub : (s.connections.filter fun e => e.1 ≠ names c).Sublist s.connections := List.filter_sublist
    have erased := (placed.connections_sub sub).setConn (c := c) (b := {k with
        acts := k.acts ++ acts ++ [.removeConnectionInLoop (s.connections.filter fun e => e.1 = names c).length]})
      found rfl id
    split at ok
    · exact erased.queueInLoop ok ⟨_,Function.update_self _ _ _,rfl,nofun⟩
    · cases ok
      exact erased.fail _

theorem removeConnection (placed : Placed names s) (found : s.conns c = some k)
    (ok : s.removeConnection names i c k = some u) : Placed names u := by
  unfold Server.removeConnection at ok
  simp only at ok
  split at ok
  · cases ok
    exact {placed with}
  · split at ok
    · exact placed.removeConnectionInLoop _ found ok
    · exact (placed.setConn found (b := {k with acts := k.acts ++ [.removeConnection]}) rfl id).queueInLoop ok
        ⟨rfl,_,Function.update_self _ _ _⟩

theorem next_absent (placed : Placed names s) : s.conns s.nextConnId = none := by
  cases found : s.conns s.nextConnId with
  | none => rfl
  | some k => exact absurd (placed.fresh _ k found) (lt_irrefl _)

theorem newConnection (placed : Placed names s) {io : Nat} (ok : s.newConnection names io = some u) :
    Placed names u := by
  have free := placed.next_absent
  have absent : s.nextConnId ∉ (s.connections.filter fun e => e.1 ≠ names s.nextConnId).map Prod.snd := by
    intro member
    obtain ⟨e,inside,same⟩ := List.mem_map.mp member
    obtain ⟨_,k,found⟩ := placed.connections e (List.mem_of_mem_filter inside)
    rw [same,free] at found
    cases found
  have listed : Placed names (({s with
      nextConnId := s.nextConnId+1
      connections := Keyed.insert Prod.fst (s.connections.filter fun e => e.1 ≠ names s.nextConnId)
        (names s.nextConnId,s.nextConnId)} : Server).setConn s.nextConnId
      ⟨io,newTcpConnection s.writeCompleteCallback,[]⟩) := by
    have grows := Grows.insert free ⟨io,newTcpConnection s.writeCompleteCallback,[]⟩
    refine ⟨fun j => (placed.threads j).grows grows,fun t call there => Call.placed_grows (placed.calls t call there) grows,
      fun e member => ?_,?_,?_,fun d j there => ?_⟩
    · rcases (Keyed.mem_insert Prod.fst).mp member with rfl | old
      · exact ⟨rfl,_,Function.update_self _ _ _⟩
      · obtain ⟨name,k,found⟩ := placed.connections e (List.mem_of_mem_filter old)
        obtain ⟨b,inside,_⟩ := grows e.2 k found
        exact ⟨name,b,inside⟩
    · refine (((Keyed.perm_insert Prod.fst _ _).map Prod.snd).nodup_iff).mpr ?_
      exact List.nodup_cons.mpr ⟨absent,placed.once.sublist (List.filter_sublist.map Prod.snd)⟩
    · refine Keyed.increasing_insert Prod.fst (placed.increasing.sublist List.filter_sublist) fun e member => ?_
      exact of_decide_eq_true (List.mem_filter.mp member).2
    · by_cases same : d = s.nextConnId
      · subst same
        exact Nat.lt_succ_self _
      · exact Nat.lt_succ_of_lt (placed.fresh d j (by simpa [Server.setConn,same] using there))
  unfold Server.newConnection at ok
  simp only at ok
  split at ok
  · cases ok
    exact listed.connectEstablished (Function.update_self _ _ _)
  · exact listed.queueInLoop ok ⟨_,Function.update_self _ _ _,rfl,nofun⟩

theorem settle (placed : Placed names s) {b : TcpConnection} {f : Option ConnFunctor} {acts : List Act}
    (found : s.conns c = some k) (home : k.loop = i)
    (state : k.conn.state ≠ .kConnecting → b.state ≠ .kConnecting) (plain : ∀ m, f ≠ some (.sendInLoop m))
    (ok : s.settle i c {k with acts := k.acts ++ acts} (b,f) = some u) : Placed names u := by
  have noted : Placed names (s.setConn c {k with conn := b, acts := k.acts ++ acts}) := placed.setConn found rfl state
  unfold Server.settle at ok
  cases f with
  | none =>
    cases ok
    exact noted
  | some g => exact noted.queueInLoop ok ⟨_,Function.update_self _ _ _,home,fun m same => absurd (by rw [same]) (plain m)⟩

end Placed

theorem mem_queued {loop : EventLoop ServerFunctor} {p : Push ServerFunctor} (next : loop.functors.head? = some p) :
    p ∈ loop.queued :=
  List.mem_append_left _ (List.mem_of_head? next)

namespace Placed

theorem pop (placed : Placed names s) {cause : Cause} (pop : Pop fd s i cause v) : Placed names v := by
  cases pop with
  | user c api => exact placed
  | timer c timers => exact placed.setThread {placed.threads i with}
  | handler h r hs empty next =>
    refine placed.setThread {placed.threads i with still := fun away => ?_}
    have still := (placed.threads i).still away
    simp [next] at still
  | functor p loop empty next move =>
    have ran := queued_run fd _ _ move
    have here : loop.pc = .calling ∧ (s.threads i).loop.pc ≠ .handling := by
      cases move with
      | run f rest next here idle => exact ⟨rfl,by rcases here with here | here <;> simp [here]⟩
    refine placed.setThread {placed.threads i with
      ordered := ordered_move fd _ _ _ (placed.threads i).ordered move
      queued := fun q member => (placed.threads i).queued q ?_
      still := fun _ => (placed.threads i).still here.2 }
    obtain ⟨f,ran⟩ := ran
    rw [ran.2]
    exact List.mem_cons_of_mem _ member
  | frame frame rest next =>
    exact placed.setThread {placed.threads i with
      stack := fun other member => (placed.threads i).stack other (by simp [next,member])}

theorem timers (placed : Placed names s) (timers : List Nat) :
    Placed names (s.setThread i {s.threads i with timers := timers}) :=
  placed.setThread {placed.threads i with}

/-- Thread `i` acts on connections of its own loop. -/
theorem piece (placed : Placed names s) {cause : Cause} (piece : Piece names s i cause u)
    (home : ∀ c, cause.about (s.threads i) c → BelongsTo s.conns i c) : Placed names u := by
  have own {c : Nat} {k : Conn} (found : s.conns c = some k) (about : cause.about (s.threads i) c) : k.loop = i := by
    obtain ⟨j,there,loop⟩ := home c about
    rw [found] at there
    cases there
    exact loop
  cases piece with
  | skip _ plain => exact placed
  | timer _ plain timers => exact placed.timers timers
  | conn _ plain c k b f acts found op calm about u settled =>
    exact placed.settle found (own found about) (connOp_connecting op)
      (fun m same => by simpa [ConnFunctor.callback] using connOp_queues op _ same) settled
  | delay c k timers found live =>
    exact (placed.setConn found (b := {k with conn := k.conn.setState .kDisconnecting}) rfl (by
      simp [TcpConnection.setState])).timers timers
  | handleClose _ c k acts found closes => exact placed.handleClose acts found (own found closes.about)
  | connectEstablished c k found => exact placed.connectEstablished found
  | connectDestroyed c k found => exact placed.connectDestroyed found (own found rfl)
  | removeConnectionInLoop c k found u ok => exact placed.removeConnectionInLoop [] found (by simpa using ok)
  | closeCallback c k found u ok => exact placed.removeConnection found ok
  | remove c k found => exact placed.remove k found rfl rfl
  | accept r io on here u ok => exact placed.newConnection ok
  | dangling r off here => exact {placed with}

theorem about (placed : Placed names s) {cause : Cause} (pop : Pop fd s i cause v)
    (own : ∀ c api, cause = .user c api → BelongsTo s.conns i c) (c : Nat)
    (about : cause.about (v.threads i) c) : BelongsTo v.conns i c := by
  cases pop with
  | user d api =>
    cases about
    exact own c api rfl
  | timer d timers =>
    cases about
    exact own c .forceClose rfl
  | handler h r hs empty next =>
    have current : (s.threads i).current = some (.conn c) := by simpa [Cause.about,setThread_threads] using about
    exact (placed.threads i).current _ current
  | functor p loop empty next move =>
    have inside := (placed.threads i).queued p (mem_queued next)
    cases functor : p.functor with
    | conn d f =>
      rw [functor] at about inside
      cases about
      obtain ⟨k,found,loop,_⟩ := inside
      exact ⟨k,found,loop⟩
    | _ =>
      rw [functor] at about
      cases about
  | frame frame rest next =>
    have inside := (placed.threads i).stack frame (by simp [next])
    cases frame with
    | closeCallback d | remove d =>
      cases about
      exact inside
    | destructor => cases about

end Placed

theorem handling_move {a b : EventLoop ServerFunctor} {l : LoopLabel ServerFunctor} (move : LoopMove fd a l b)
    (begin : ∀ woken, l ≠ .poll woken) (away : b.pc ≠ .handling) : l = .handled ∨ a.pc ≠ .handling := by
  cases move with
  | poll woken here positive => exact absurd rfl (begin woken)
  | handled here all => exact .inl rfl
  | run f rest next here idle | finish here idle done => exact .inr (by rcases here with here | here <;> simp [here])
  | queueInLoop t f ready | handleRead here active | quit t ready | wakeup t owes => exact .inr away
  | _ => exact .inr (by simp_all)

theorem passes_loop (placed : Placed names s) {l : LoopLabel ServerFunctor} {loop : EventLoop ServerFunctor}
    (passes : s.passes i l = true) (move : LoopMove fd (s.threads i).loop l loop) :
    Placed names (s.setThread i {s.threads i with
      loop := loop, current := if l = .handled then none else (s.threads i).current}) := by
  have begin : ∀ woken, l ≠ .poll woken := by
    rintro woken rfl
    cases passes
  have kept : ∀ ch, (if l = .handled then none else (s.threads i).current) = some ch →
      (s.threads i).current = some ch := by
    intro ch here
    split at here
    · cases here
    · exact here
  refine placed.setThread {placed.threads i with
    ordered := ordered_move fd _ _ _ (placed.threads i).ordered move
    queued := ?_
    current := fun ch here => (placed.threads i).current ch (kept ch here)
    apart := fun ch here => (placed.threads i).apart ch (kept ch here)
    still := fun away => ?_ }
  · intro p member
    by_cases push : ∃ t f, l = .queueInLoop t f
    · obtain ⟨t,f,rfl⟩ := push
      have functor : f = .other := by simpa [Server.passes] using passes
      rw [queued_push fd _ _ t f move] at member
      rcases List.mem_append.mp member with old | new
      · exact (placed.threads i).queued p old
      · cases List.mem_singleton.mp new
        subst functor
        trivial
    · have other : l ≠ .run := by
        rintro rfl
        cases passes
      rw [queued_still fd _ _ l (placed.threads i).ordered move other fun t f same => push ⟨t,f,same⟩] at member
      exact (placed.threads i).queued p member
  · rcases handling_move move begin away with rfl | before
    · have done : ((s.threads i).stack = [] ∧ (s.threads i).handlers = []) ∧ (s.threads i).ready = [] := by
        simpa [Server.passes] using passes
      exact ⟨done.2,done.1.2,rfl⟩
    · obtain ⟨ready,handlers,current⟩ := (placed.threads i).still before
      exact ⟨ready,handlers,by simp [current]⟩

theorem poll_placed (placed : Placed names s) {woken : Bool} {ready : List (Chan × Revents)}
    {loop : EventLoop ServerFunctor} (distinct : (ready.map Prod.fst).Nodup)
    (registered : ∀ e ∈ ready, s.registered i e.1 = true) (move : LoopMove fd (s.threads i).loop (.poll woken) loop) :
    Placed names (s.setThread i {s.threads i with
      loop := loop, activeChannels := ready.map Prod.fst, ready := ready, removed := []}) := by
  have ordered := ordered_move fd _ _ _ (placed.threads i).ordered move
  have queue := queued_still fd _ _ _ (placed.threads i).ordered move nofun nofun
  cases move with
  | poll woken here positive =>
    have still := (placed.threads i).still (by simp [here])
    refine placed.setThread {placed.threads i with
      ordered := ordered
      ready := fun ch member => ?_
      distinct := distinct
      apart := by simp [still]
      still := by simp }
    obtain ⟨e,inside,rfl⟩ := List.mem_map.mp member
    have there := registered e inside
    cases channel : e.1 with
    | conn c =>
      rw [channel] at there
      cases found : s.conns c with
      | none => simp [Server.registered,found] at there
      | some k =>
        have home : k.loop = i ∧ k.conn.channel.isNoneEvent = false := by simpa [Server.registered,found] using there
        exact ⟨k,found,home.1⟩
    | acceptor =>
      rw [channel] at there
      have base : i = 0 ∧ s.destroyed = false := by simpa [Server.registered] using there
      exact base.1
    | other k => trivial

theorem dispatch_placed (placed : Placed names s) {ch : Chan} {r : Revents} {rest : List (Chan × Revents)}
    (next : (s.threads i).ready = (ch,r)::rest) (here : (s.threads i).loop.pc = .handling) :
    Placed names (s.setThread i {s.threads i with current := some ch, handlers := r.handlers, ready := rest}) := by
  have before := placed.threads i
  have channels : (s.threads i).ready.map Prod.fst = ch :: rest.map Prod.fst := by simp [next]
  have distinct := before.distinct
  rw [channels] at distinct
  obtain ⟨apart,distinct⟩ := List.nodup_cons.mp distinct
  refine placed.setThread {before with
    ready := fun other member => before.ready other (by simp [channels,member])
    current := ?_
    distinct := distinct
    apart := ?_
    still := fun away => absurd here away }
  · rintro _ ⟨⟩
    exact before.ready ch (by simp [channels])
  · rintro _ ⟨⟩
    exact apart

theorem Placed.setCall (placed : Placed names s) (t : Nat) {call : Option Call}
    (ok : ∀ call', call = some call' → call'.placed s.conns) : Placed names (s.setCall t call) := by
  refine {placed with calls := fun other call' there => ?_}
  by_cases same : other = t
  · subst same
    exact ok call' (by simpa [Server.setCall] using there)
  · exact placed.calls other call' (by simpa [Server.setCall,same] using there)

theorem call_placed {api : Api} (found : s.conns c = some k) {call : Call}
    (tested : Server.Api.call c k.conn.state api = some call) : call.placed s.conns := by
  have about (f : ConnFunctor) (plain : (ServerFunctor.conn c f).plain = true)
      (sent : ∀ m, f = .sendInLoop m → k.conn.state ≠ .kConnecting) :
      (Call.push c (.conn c f)).placed s.conns :=
    ⟨by simp,plain,k,found,k,found,rfl,sent⟩
  cases api with
  | send message =>
    obtain ⟨connected,⟨⟩⟩ := Option.ite_none_right_eq_some.mp tested
    exact about _ rfl (by simp [connected])
  | shutdown | forceClose =>
    obtain ⟨_,⟨⟩⟩ := Option.ite_none_right_eq_some.mp tested
    exact about _ rfl nofun
  | forceCloseWithDelay =>
    obtain ⟨_,⟨⟩⟩ := Option.ite_none_right_eq_some.mp tested
    exact ⟨nofun,rfl,k,found,trivial⟩
  | startRead | stopRead =>
    cases tested
    exact about _ rfl nofun

theorem placed_move {l : ServerLabel} (placed : Placed names s) (move : ServerMove fd names s l u) :
    Placed names u := by
  cases move with
  | loop i l loop passes move => exact passes_loop placed passes move
  | poll i woken ready loop distinct registered move => exact poll_placed placed distinct registered move
  | dispatch i ch r rest next here empty done => exact dispatch_placed placed next here
  | code _ i cause v u user own why pop piece =>
    exact (placed.pop pop).piece piece (placed.about pop own)
  | take r name c k rest stack next first found home =>
    exact (placed.connections_sub (by simp [first])).connectDestroyed found home
  | takeAway r name c k rest stack next first found away u ok =>
    exact (placed.connections_sub (by simp [first])).queueInLoop ok ⟨k,found,rfl,by simp⟩
  | destructed r stack next all =>
    have pop : Pop fd s 0 (.frame .destructor) (s.setStack 0 stack) := .frame .destructor stack next
    exact {(placed.pop pop).removeChannel .acceptor with}
  | begin t c api w k found away => exact placed.setCall t fun call tested => call_placed found tested
  | setState t c f k call found =>
    have noted := placed.setConn found (b := {k with conn := k.conn.setState .kDisconnecting}) rfl (by
      simp [TcpConnection.setState])
    have before := noted.calls t _ call
    refine noted.setCall t ?_
    rintro _ ⟨⟩
    exact before
  | push t c f k call found u ok =>
    obtain ⟨_,_,j,there,inside⟩ := placed.calls t _ call
    rw [found] at there
    cases there
    have done : Placed names (s.setCall t none) := placed.setCall t (by simp)
    exact done.queueInLoop ok inside
  | destroy user on absent => exact placed.enter rfl

theorem placed_destructor (placed : Placed names s) (i : Nat) (other : i ≠ 0) : .destructor ∉ (s.threads i).stack :=
  fun member => other ((placed.threads i).stack _ member)

theorem Placed.move {l : ServerLabel} (placed : Placed names s) (ok : serverStep fd names s l = some u) :
    ServerMove fd names s l u :=
  serverStep_move ok (placed_destructor placed)

theorem newServer_placed (writeCompleteCallback : Bool) : Placed names (newServer writeCompleteCallback) where
  threads i := by
    refine ⟨⟨rfl,fun _ _ => rfl⟩,?_,?_,?_,?_,?_,?_,?_⟩
    all_goals simp [newServer,newIoThread,newEventLoop,EventLoop.queued]
  calls := nofun
  connections := nofun
  once := List.nodup_nil
  increasing := .nil
  fresh := nofun

end

end Reactor.Net
