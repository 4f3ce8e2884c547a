import Reactor.Net.ConnectionClose

/-! The active channels of a loop, while their events are handled. A channel may be removed
then only if the loop does not hold it any more. -/
namespace Reactor.Net
open Reactor.Transition

/-- The channels that the destructor of the server removes. -/
def Server.owns (s : Server) : Chan → Bool
  | .conn c => s.listed c
  | .acceptor => true
  | .other _ => false

/-- When the destructor is called, the base loop holds no channel of the server. -/
def Server.batchClear (s : Server) : ServerLabel → Bool
  | .destroy => (s.threads 0).loop.pc ≠ .handling ||
    (s.threads 0).activeChannels.all fun ch => (s.threads 0).current = some ch || !s.owns ch
  | _ => true

/-- A frame that the thread may enter without harm to the batch of its loop. -/
def IoThread.enters (th : IoThread) : Frame → Prop
  | .closeCallback _ => th.loop.inUserCode = true
  | .remove c => th.loop.inUserCode = true ∧ ¬ th.holds (.conn c)
  | .destructor => False

/-- What code does to a thread: it leaves the batch as it is, and removes only what the loop does not hold. -/
structure SteadyThread (th after : IoThread) : Prop where
  pc : after.loop.pc = th.loop.pc
  threadId : after.loop.threadId = th.loop.threadId
  activeChannels : after.activeChannels = th.activeChannels
  ready : after.ready = th.ready
  current : after.current = th.current
  removed : ∀ ch ∈ after.removed, ch ∈ th.removed ∨ ¬ th.holds ch
  frames : ∀ frame ∈ after.stack, frame ∈ th.stack ∨ th.enters frame

namespace SteadyThread
variable {th after later : IoThread}

theorem refl (th : IoThread) : SteadyThread th th :=
  ⟨rfl,rfl,rfl,rfl,rfl,fun _ => .inl,fun _ => .inl⟩

theorem holds (steady : SteadyThread th after) (ch : Chan) : after.holds ch ↔ th.holds ch := by
  rw [IoThread.holds,IoThread.holds,steady.pc,steady.current,steady.activeChannels]

theorem inUserCode (steady : SteadyThread th after) : after.loop.inUserCode = th.loop.inUserCode := by
  rw [EventLoop.inUserCode,EventLoop.inUserCode,steady.pc]

theorem enters (steady : SteadyThread th after) (frame : Frame) (enters : after.enters frame) : th.enters frame := by
  cases frame with
  | closeCallback c => exact steady.inUserCode.symm.trans enters
  | remove c => exact ⟨steady.inUserCode.symm.trans enters.1,fun held => enters.2 ((steady.holds _).mpr held)⟩
  | destructor => exact enters

theorem trans (first : SteadyThread th after) (second : SteadyThread after later) : SteadyThread th later where
  pc := second.pc.trans first.pc
  threadId := second.threadId.trans first.threadId
  activeChannels := second.activeChannels.trans first.activeChannels
  ready := second.ready.trans first.ready
  current := second.current.trans first.current
  removed ch member := by
    rcases second.removed ch member with old | new
    · exact first.removed ch old
    · exact .inr fun held => new ((first.holds ch).mpr held)
  frames frame member := by
    rcases second.frames frame member with old | new
    · exact first.frames frame old
    · exact .inr (first.enters frame new)

end SteadyThread

def SteadyThreads (s u : Server) : Prop := ∀ i, SteadyThread (s.threads i) (u.threads i)

section
variable {names : Nat → String} {s u v : Server} {i c : Nat} {k : Conn} {fd : EventFd} {l : ServerLabel} {th : IoThread}

namespace SteadyThreads

theorem same (threads : u.threads = s.threads) : SteadyThreads s u := fun i => threads ▸ .refl (s.threads i)

theorem trans (first : SteadyThreads s v) (second : SteadyThreads v u) : SteadyThreads s u :=
  fun i => (first i).trans (second i)

/-- Nothing but the connections has changed before. -/
theorem behind (steady : SteadyThreads v u) (threads : v.threads = s.threads) : SteadyThreads s u :=
  fun i => threads ▸ steady i

theorem setThread (steady : SteadyThread (s.threads i) th) : SteadyThreads s (s.setThread i th) := by
  intro j
  rw [setThread_threads]
  split
  · rename_i here
    exact here ▸ steady
  · exact .refl _

theorem queueInLoop {t : Nat} {f : ServerFunctor} (ok : s.queueInLoop i t f = some u) : SteadyThreads s u := by
  obtain ⟨_,⟨⟩⟩ := Option.ite_none_right_eq_some.mp ok
  exact setThread ⟨rfl,rfl,rfl,rfl,rfl,fun _ => .inl,fun _ => .inl⟩

theorem enter {frame : Frame} (enters : (s.threads i).enters frame) : SteadyThreads s (s.enter i frame) := by
  refine setThread ⟨rfl,rfl,rfl,rfl,rfl,fun _ => .inl,fun other member => ?_⟩
  rcases List.mem_cons.mp member with rfl | old
  · exact .inr enters
  · exact .inl old

theorem setStack {frame : Frame} {rest : List Frame} (next : (s.threads i).stack = frame::rest) :
    SteadyThreads s (s.setStack i rest) :=
  setThread ⟨rfl,rfl,rfl,rfl,rfl,fun _ => .inl,fun other member => .inl (by rw [next]; exact List.mem_cons_of_mem _ member)⟩

theorem removeChannel (s : Server) (i : Nat) (ch : Chan) : SteadyThreads s (s.removeChannel i ch) := by
  unfold Server.removeChannel
  simp only
  split
  · exact same rfl
  · rename_i free
    refine setThread ⟨rfl,rfl,rfl,rfl,rfl,fun other member => ?_,fun _ => .inl⟩
    rcases List.mem_append.mp member with old | new
    · exact .inl old
    · rw [List.mem_singleton.mp new]
      exact .inr free

theorem remove (s : Server) (i c : Nat) (k : Conn) : SteadyThreads s (s.remove i c k) := by
  unfold Server.remove
  simp only
  split
  · exact behind (removeChannel _ i _) rfl
  · exact same rfl

theorem connectDestroyed (k : Conn) (enters : (s.threads i).enters (.remove c)) :
    SteadyThreads s (s.connectDestroyed i c k) := by
  unfold Server.connectDestroyed
  split
  · exact behind (enter enters) rfl
  · exact remove s i c _

theorem handleClose (k : Conn) (user : (s.threads i).loop.inUserCode = true) : SteadyThreads s (s.handleClose i c k) := by
  unfold Server.handleClose
  split
  · exact behind (enter user) rfl
  · exact same rfl

theorem connectEstablished (s : Server) (c : Nat) (k : Conn) : SteadyThreads s (s.connectEstablished c k) := by
  unfold Server.connectEstablished
  split <;> exact same rfl

theorem settle {r : TcpConnection × Option ConnFunctor} (ok : s.settle i c k r = some u) : SteadyThreads s u := by
  unfold Server.settle at ok
  split at ok
  · cases ok
    exact same rfl
  · exact behind (queueInLoop ok) rfl

theorem removeConnectionInLoop (ok : s.removeConnectionInLoop names c k = some u) : SteadyThreads s u := by
  unfold Server.removeConnectionInLoop at ok
  split at ok
  · cases ok
    exact same rfl
  · simp only at ok
    split at ok
    · exact behind (queueInLoop ok) rfl
    · cases ok
      exact same rfl

theorem removeConnection (ok : s.removeConnection names i c k = some u) : SteadyThreads s u := by
  unfold Server.removeConnection at ok
  simp only at ok
  split at ok
  · cases ok
    exact same rfl
  · split at ok
    · exact removeConnectionInLoop ok
    · exact behind (queueInLoop ok) rfl

theorem newConnection {io : Nat} (ok : s.newConnection names io = some u) : SteadyThreads s u := by
  rw [newConnection_eq] at ok
  split at ok
  · cases ok
    exact behind (connectEstablished _ _ _) rfl
  · exact behind (queueInLoop ok) rfl

end SteadyThreads

theorem piece_steady {cause : Cause} (piece : Piece names s i cause u) (user : (s.threads i).loop.inUserCode = true)
    (calling : ∀ f, cause = .functor f → (s.threads i).loop.pc = .calling) : SteadyThreads s u := by
  cases piece with
  | skip _ plain => exact .same rfl
  | timer _ plain timers => exact .setThread ⟨rfl,rfl,rfl,rfl,rfl,fun _ => .inl,fun _ => .inl⟩
  | dangling r off here => exact .same rfl
  | conn _ plain c k b f acts found op calm about u settled => exact .settle settled
  | delay c k timers found live =>
    exact .behind (.setThread ⟨rfl,rfl,rfl,rfl,rfl,fun _ => .inl,fun _ => .inl⟩) rfl
  | handleClose _ c k acts found closes => exact .handleClose _ user
  | connectEstablished c k found => exact .connectEstablished _ _ _
  | connectDestroyed c k found =>
    refine .connectDestroyed k ⟨user,fun held => ?_⟩
    have handling := held.1
    simp [calling _ rfl] at handling
  | removeConnectionInLoop c k found u ok => exact .removeConnectionInLoop ok
  | closeCallback c k found u ok => exact .removeConnection ok
  | remove c k found => exact .remove _ _ _ _
  | accept r io on here u ok => exact .newConnection ok

theorem queueInLoop_connections {t : Nat} {f : ServerFunctor} (ok : v.queueInLoop i t f = some u) :
    u.connections = v.connections := by
  obtain ⟨_,⟨⟩⟩ := Option.ite_none_right_eq_some.mp ok
  rfl

theorem removeChannel_connections (s : Server) (i : Nat) (ch : Chan) :
    (s.removeChannel i ch).connections = s.connections := by
  unfold Server.removeChannel
  simp only
  split <;> rfl

theorem remove_connections (s : Server) (i c : Nat) (k : Conn) : (s.remove i c k).connections = s.connections := by
  unfold Server.remove
  simp only
  split
  · exact removeChannel_connections _ i _
  · rfl

theorem connectDestroyed_connections (s : Server) (i c : Nat) (k : Conn) :
    (s.connectDestroyed i c k).connections = s.connections := by
  unfold Server.connectDestroyed
  split
  · rfl
  · exact remove_connections s i c _

theorem removeConnectionInLoop_connections (on : s.destroyed = false) (ok : s.removeConnectionInLoop names c k = some u) :
    u.connections = s.connections.filter fun e => e.1 ≠ names c := by
  unfold Server.removeConnectionInLoop at ok
  rw [if_neg (by simp [on])] at ok
  simp only at ok
  split at ok
  · exact queueInLoop_connections ok
  · cases ok
    rfl

/-- The code that changes `connections_`: the handler of the acceptor and `removeConnectionInLoop`. -/
inductive Listed (names : Nat → String) (s : Server) (i : Nat) (cause : Cause) (u : Server) : Prop
  | same (equal : u.connections = s.connections)
  | accept (r : Results) (io : Nat) (here : (s.threads i).current = some .acceptor) (why : cause = .handler .read r)
      (ok : s.newConnection names io = some u)
  | erase (c : Nat) (k : Conn) (acts : List Act) (on : s.destroyed = false) (found : s.conns c = some k)
      (ok : s.removeConnectionInLoop names c {k with acts := k.acts ++ acts} = some u)

theorem piece_listed {cause : Cause} (piece : Piece names s i cause u) : Listed names s i cause u := by
  cases piece with
  | skip _ plain | timer _ plain timers | dangling r off here | delay c k timers found live => exact .same rfl
  | conn _ plain c k b f acts found op calm about u settled =>
    refine .same ?_
    unfold Server.settle at settled
    split at settled
    · cases settled
      rfl
    · rw [queueInLoop_connections settled]
      rfl
  | handleClose _ c k acts found closes =>
    refine .same ?_
    unfold Server.handleClose
    split <;> rfl
  | connectEstablished c k found =>
    refine .same ?_
    unfold Server.connectEstablished
    split <;> rfl
  | connectDestroyed c k found => exact .same (connectDestroyed_connections s i c k)
  | removeConnectionInLoop c k found u ok =>
    cases off : s.destroyed with
    | true =>
      unfold Server.removeConnectionInLoop at ok
      rw [if_pos off] at ok
      cases ok
      exact .same rfl
    | false => exact .erase c k [] off found (by simpa using ok)
  | closeCallback c k found u ok =>
    unfold Server.removeConnection at ok
    simp only at ok
    split at ok
    · cases ok
      exact .same rfl
    · rename_i on
      split at ok
      · exact .erase c k [.removeConnection] (Bool.eq_false_iff.mpr on) found ok
      · exact .same ((queueInLoop_connections ok).trans rfl)
  | remove c k found => exact .same (remove_connections s i c k)
  | accept r io on here u ok => exact .accept r io here rfl ok

theorem owns_sub {ch : Chan} (sub : u.connections ⊆ s.connections) (owns : u.owns ch = true) : s.owns ch = true := by
  cases ch with
  | conn c =>
    obtain ⟨e,member,same⟩ := List.any_eq_true.mp owns
    exact List.any_eq_true.mpr ⟨e,sub member,same⟩
  | _ => exact owns

/-- `ready` is what is left of the active channels; nothing in it has been removed, and
nothing will be that the loop holds. -/
structure Batched (s : Server) : Prop where
  threadId : ∀ i, (s.threads i).loop.threadId = i
  user : ∀ i, (s.threads i).stack ≠ [] → (s.threads i).loop.inUserCode = true
  active : ∀ i, ∀ ch ∈ (s.threads i).ready.map Prod.fst, ch ∈ (s.threads i).activeChannels
  removed : ∀ i, ∀ ch ∈ (s.threads i).removed, ch ∉ (s.threads i).ready.map Prod.fst
  frames : ∀ i c, .remove c ∈ (s.threads i).stack → ¬ (s.threads i).holds (.conn c)
  taking : .destructor ∈ (s.threads 0).stack → ∀ ch, s.owns ch = true → ¬ (s.threads 0).holds ch

theorem ready_held (placed : Placed names s) (batched : Batched s) {ch : Chan}
    (waits : ch ∈ (s.threads i).ready.map Prod.fst) : (s.threads i).holds ch := by
  refine ⟨?_,fun current => (placed.threads i).apart ch current waits,batched.active i ch waits⟩
  by_contra away
  rw [((placed.threads i).still away).1] at waits
  cases waits

theorem Batched.steady (batched : Batched s) (placed : Placed names s) (steady : SteadyThreads s u)
    (owns : .destructor ∈ (s.threads 0).stack → ∀ ch, u.owns ch = true → s.owns ch = true) : Batched u where
  threadId i := (steady i).threadId.trans (batched.threadId i)
  user i some := by
    rw [(steady i).inUserCode]
    obtain ⟨frame,member⟩ := List.exists_mem_of_ne_nil _ some
    rcases (steady i).frames frame member with old | new
    · exact batched.user i (List.ne_nil_of_mem old)
    · cases frame with
      | closeCallback c => exact new
      | remove c => exact new.1
      | destructor => cases new
  active i ch := by
    rw [(steady i).ready,(steady i).activeChannels]
    exact batched.active i ch
  removed i ch member := by
    rw [(steady i).ready]
    rcases (steady i).removed ch member with old | free
    · exact batched.removed i ch old
    · exact fun waits => free (ready_held placed batched waits)
  frames i c member := by
    rw [(steady i).holds]
    rcases (steady i).frames _ member with old | new
    · exact batched.frames i c old
    · exact new.2
  taking member ch mine := by
    rw [(steady 0).holds]
    rcases (steady 0).frames _ member with old | new
    · exact batched.taking old ch (owns old ch mine)
    · cases new

theorem newServer_batched (new : NewServer s) : Batched s := by
  obtain ⟨writeCompleteCallback,rfl⟩ := new
  refine ⟨fun _ => rfl,?_,?_,?_,?_,?_⟩ <;> simp [newServer,newIoThread]

theorem atUser_inUserCode (batched : Batched s) (user : s.atUser i = true) : (s.threads i).loop.inUserCode = true := by
  have ready : (s.threads i).loop.ready i = true := (Bool.and_eq_true_iff.mp user).1
  simpa [EventLoop.ready,batched.threadId i] using (Bool.and_eq_true_iff.mp ready).2

theorem loop_threadId {ll : LoopLabel ServerFunctor} {a b : EventLoop ServerFunctor} (move : LoopMove fd a ll b) :
    b.threadId = a.threadId := by
  cases move <;> rfl

theorem Batched.setThread (batched : Batched s) (threadId : th.loop.threadId = i)
    (user : th.stack ≠ [] → th.loop.inUserCode = true) (active : ∀ ch ∈ th.ready.map Prod.fst, ch ∈ th.activeChannels)
    (removed : ∀ ch ∈ th.removed, ch ∉ th.ready.map Prod.fst)
    (frames : ∀ c, .remove c ∈ th.stack → ¬ th.holds (.conn c))
    (taking : i = 0 → .destructor ∈ th.stack → ∀ ch, s.owns ch = true → ¬ th.holds ch) : Batched (s.setThread i th) where
  threadId j := by
    rw [setThread_threads]
    split
    · rename_i here
      exact threadId.trans here.symm
    · exact batched.threadId j
  user j := by
    rw [setThread_threads]
    split
    · exact user
    · exact batched.user j
  active j := by
    rw [setThread_threads]
    split
    · exact active
    · exact batched.active j
  removed j := by
    rw [setThread_threads]
    split
    · exact removed
    · exact batched.removed j
  frames j c := by
    rw [setThread_threads]
    split
    · exact frames c
    · exact batched.frames j c
  taking := by
    rw [setThread_threads]
    split
    · rename_i here
      exact taking here.symm
    · exact batched.taking

/-- A thread without frames may change its batch. -/
theorem Batched.setThread_empty (batched : Batched s) (threadId : th.loop.threadId = i) (empty : th.stack = [])
    (active : ∀ ch ∈ th.ready.map Prod.fst, ch ∈ th.activeChannels)
    (removed : ∀ ch ∈ th.removed, ch ∉ th.ready.map Prod.fst) : Batched (s.setThread i th) :=
  batched.setThread threadId (fun some => absurd empty some) active removed (by simp [empty]) (by simp [empty])

/-- A step of the loop that is not under way in the code of the user leaves the batch. -/
theorem Batched.loop {ll : LoopLabel ServerFunctor} {loop : EventLoop ServerFunctor} (batched : Batched s)
    (placed : Placed names s) (passes : s.passes i ll = true) (move : LoopMove fd (s.threads i).loop ll loop) :
    Batched (s.setThread i {s.threads i with
      loop := loop, current := if ll = .handled then none else (s.threads i).current}) := by
  have threadId : loop.threadId = i := (loop_threadId move).trans (batched.threadId i)
  by_cases empty : (s.threads i).stack = []
  · exact batched.setThread_empty threadId empty (batched.active i) (batched.removed i)
  · have user := batched.user i empty
    have kept : loop.pc = (s.threads i).loop.pc ∧ ll ≠ .handled := by
      cases move with
      | loop here idle | finish here idle last => simp_all [Server.passes]
      | handled here all => simp_all [Server.passes]
      | leave here quit | stay here on | poll woken here positive | swap here => simp [EventLoop.inUserCode,here] at user
      | run f rest next here idle => cases passes
      | _ => exact ⟨rfl,by simp⟩
    refine batched.steady placed (.setThread ⟨kept.1,loop_threadId move,rfl,rfl,?_,fun _ => .inl,fun _ => .inl⟩) fun _ _ => id
    rw [if_neg kept.2]

theorem Batched.poll {woken : Bool} {ready : List (Chan × Revents)} {loop : EventLoop ServerFunctor} (batched : Batched s)
    (move : LoopMove fd (s.threads i).loop (.poll woken) loop) :
    Batched (s.setThread i {s.threads i with
      loop := loop, activeChannels := ready.map Prod.fst, ready := ready, removed := []}) := by
  have empty : (s.threads i).stack = [] := by
    by_contra some
    have user := batched.user i some
    cases move with
    | poll woken here positive => simp [EventLoop.inUserCode,here] at user
  exact batched.setThread_empty ((loop_threadId move).trans (batched.threadId i)) empty (fun _ => id) (by simp)

theorem Batched.dispatch {ch : Chan} {r : Revents} {rest : List (Chan × Revents)} (batched : Batched s)
    (next : (s.threads i).ready = (ch,r)::rest) (empty : (s.threads i).stack = []) :
    Batched (s.setThread i {s.threads i with current := some ch, handlers := r.handlers, ready := rest}) := by
  have sub : ∀ other ∈ rest.map Prod.fst, other ∈ (s.threads i).ready.map Prod.fst :=
    fun other member => by rw [next]; exact List.mem_cons_of_mem _ member
  exact batched.setThread_empty (batched.threadId i) empty (fun other member => batched.active i other (sub other member))
    fun other gone member => batched.removed i other gone (sub other member)

theorem cause_run {w : Write} {cause : Cause} (why : s.cause (.run i w) = some (i,cause)) : ∃ f, cause = .functor f := by
  obtain ⟨p,_,same⟩ := Option.map_eq_some_iff.mp why
  cases same
  exact ⟨p.functor,rfl⟩

theorem piece_owns {cause : Cause} (placed : Placed names s) (pop : Pop fd s i cause v) (piece : Piece names v i cause u)
    (taking : .destructor ∈ (s.threads 0).stack) (ch : Chan) (owns : u.owns ch = true) : s.owns ch = true := by
  have connections : v.connections = s.connections := by cases pop <;> rfl
  cases piece_listed piece with
  | same equal => exact owns_sub (by rw [equal,connections]; exact List.Subset.refl _) owns
  | erase c k acts on found ok =>
    refine owns_sub ?_ owns
    rw [removeConnectionInLoop_connections on ok,connections]
    exact List.filter_sublist.subset
  | accept r io current why ok =>
    subst why
    cases pop with
    | handler h r hs empty next =>
      have here : (s.threads i).current = some .acceptor := by simpa [setThread_threads] using current
      have base : i = 0 := (placed.threads i).current .acceptor here
      rw [base] at empty
      rw [empty] at taking
      cases taking

/-- Outside of the functors the thread has its batch before and behind a piece of code. -/
theorem Batched.code {cause : Cause} (batched : Batched s) (placed : Placed names s)
    (user : s.atUser i = true ∨ ∃ w, l = .run i w) (why : s.cause l = some (i,cause)) (pop : Pop fd s i cause v)
    (piece : Piece names v i cause u) : Batched u := by
  have owns := piece_owns placed pop piece
  have plain (other : ∀ f, cause ≠ .functor f) (steady : SteadyThreads s v) : Batched u := by
    have inUserCode : (s.threads i).loop.inUserCode = true := by
      rcases user with user | ⟨w,rfl⟩
      · exact atUser_inUserCode batched user
      · obtain ⟨f,functor⟩ := cause_run why
        exact absurd functor (other f)
    have moved := piece_steady piece ((steady i).inUserCode.trans inUserCode) fun f functor => absurd functor (other f)
    exact batched.steady placed (steady.trans moved) owns
  cases pop with
  | user c api => exact plain nofun (.same rfl)
  | timer c timers => exact plain nofun (.setThread ⟨rfl,rfl,rfl,rfl,rfl,fun _ => .inl,fun _ => .inl⟩)
  | handler h r hs empty next => exact plain nofun (.setThread ⟨rfl,rfl,rfl,rfl,rfl,fun _ => .inl,fun _ => .inl⟩)
  | frame frame rest next => exact plain nofun (.setStack next)
  | functor p loop empty next move =>
    have popped : Batched (s.setLoop i loop) :=
      batched.setThread_empty ((loop_threadId move).trans (batched.threadId i)) empty (batched.active i) (batched.removed i)
    have calling : ((s.setLoop i loop).threads i).loop.pc = .calling := by
      cases move with
      | run f rest next here idle => simp [Server.setLoop,setThread_threads]
    have inUserCode : ((s.setLoop i loop).threads i).loop.inUserCode = true := by simp [EventLoop.inUserCode,calling]
    have none : .destructor ∈ ((s.setLoop i loop).threads 0).stack → .destructor ∈ (s.threads 0).stack := by
      rw [Server.setLoop,setThread_threads]
      split
      · rename_i here
        exact here ▸ id
      · exact id
    exact popped.steady (placed.pop (.functor p loop empty next move)) (piece_steady piece inUserCode fun _ _ => calling)
      fun taking => owns (none taking)

theorem Batched.move (batched : Batched s) (placed : Placed names s) (clear : s.batchClear l = true)
    (move : ServerMove fd names s l u) : Batched u := by
  cases move with
  | loop j ll loop passes move => exact batched.loop placed passes move
  | poll j woken ready loop distinct registered move => exact batched.poll move
  | dispatch j ch r rest next here empty done => exact batched.dispatch next empty
  | begin t d api w k found away => exact batched.steady placed (.same rfl) fun _ _ => id
  | setState t d f k call found => exact batched.steady placed (.same rfl) fun _ _ => id
  | push t d f k call found u ok =>
    refine batched.steady placed (.behind (.queueInLoop ok) rfl) fun _ _ => owns_sub ?_
    rw [queueInLoop_connections ok]
    exact List.Subset.refl _
  | takeAway r name d k rest stack next first found away u ok =>
    refine batched.steady placed (.behind (.queueInLoop ok) rfl) fun _ _ => owns_sub ?_
    rw [queueInLoop_connections ok]
    exact fun e member => by rw [first]; exact List.mem_cons_of_mem _ member
  | take r name d k rest stack next first found home =>
    have begun : .destructor ∈ (s.threads 0).stack := by simp [next]
    have listed : s.listed d = true := by simp [Server.listed,first]
    have enters : (s.threads 0).enters (.remove d) :=
      ⟨batched.user 0 (List.ne_nil_of_mem begun),batched.taking begun (.conn d) listed⟩
    refine batched.steady placed (.behind (.connectDestroyed (s := {s with connections := rest}) k enters) rfl)
      fun _ _ => owns_sub ?_
    rw [connectDestroyed_connections,first]
    exact List.subset_cons_self _ _
  | destructed r stack next all =>
    refine batched.steady placed ((SteadyThreads.setStack next).trans (.removeChannel _ 0 .acceptor)) fun _ _ => owns_sub ?_
    rw [removeChannel_connections]
    exact List.Subset.refl _
  | code _ j cause v u user own why pop piece => exact batched.code placed user why pop piece
  | destroy user on absent =>
    have inUserCode := atUser_inUserCode batched user
    refine batched.setThread (batched.threadId 0) (fun _ => inUserCode) (batched.active 0) (batched.removed 0)
      (fun c member => ?_) fun _ _ ch owns held => ?_
    · exact batched.frames 0 c (by simpa using member)
    · simp only [Server.batchClear,Bool.or_eq_true,decide_eq_true_eq,List.all_eq_true,Bool.not_eq_true'] at clear
      obtain ⟨handling,other,active⟩ := held
      rcases clear.resolve_left (not_not.mpr handling) ch active with current | foreign
      · exact other current
      · simp [owns] at foreign

/-- No channel is removed that the loop holds. -/
theorem Batched.no_failure (batched : Batched s) (move : ServerMove fd names s l u) (fine : s.failed = none) :
    u.failed ≠ some .activeChannels := by
  intro bad
  rcases move_failed move fine bad with ⟨_,_,_,act,_,_,trace⟩ | ⟨_,i,ch,held,removes⟩
  · cases act <;> cases trace
  · cases removes with
    | remove c rest next => exact batched.frames i c (by simp [next]) held
    | take name c k rest stack base next first found home =>
      subst base
      exact batched.taking (by simp [next]) (.conn c) (by simp [Server.owns,Server.listed,first]) held
    | acceptor stack base next all =>
      subst base
      exact batched.taking (by simp [next]) .acceptor rfl held

end

/-- The assertion in `EventLoop::removeChannel` holds, and no event is dispatched to a
channel that was removed while the events were handled, provided that the destructor of
the server is not called while the base loop holds one of its channels. -/
theorem removed_not_active (fd : EventFd) (names : Nat → String) (start s : Server) (ls : List ServerLabel)
    (new : NewServer start) (run : Run (serverStep fd names) start ls s)
    (along : Along (serverStep fd names) (fun s l => s.batchClear l = true) start ls) :
    s.failed ≠ some .activeChannels ∧
    ∀ i, ∀ ch ∈ (s.threads i).removed, ch ∉ (s.threads i).ready.map Prod.fst := by
  have first : Placed names start ∧ start.failed ≠ some .activeChannels := by
    obtain ⟨writeCompleteCallback,rfl⟩ := new
    exact ⟨newServer_placed writeCompleteCallback,nofun⟩
  have all : Placed names s ∧ Batched s ∧ s.failed ≠ some .activeChannels := by
    refine run.keeps _ (fun s => Placed names s ∧ Batched s ∧ s.failed ≠ some .activeChannels) ?_ along
      ⟨first.1,newServer_batched new,first.2⟩
    rintro s l u ⟨placed,batched,_⟩ clear ok
    have move := placed.move ok
    exact ⟨placed_move placed move,batched.move placed clear move,batched.no_failure move (serverStep_running ok).1⟩
  exact ⟨all.2.2,all.2.1.removed⟩

/-- The base loop has two connections. -/
private def acceptTwo : List ServerLabel := acceptOne 0 ++ (acceptOne 0).drop 2

/-- A callback of the second connection destroys the server. -/
private def destroyedByCallback : List ServerLabel :=
  acceptTwo ++ [ServerLabel.poll 0 false [(.conn 2,readable)],.dispatch 0,.resume 0 (results 5 0),.destroy,
    .resume 0 (results 0 0),.resume 0 (results 0 0),.resume 0 (results 0 0),.resume 0 (results 0 0),.resume 0 (results 0 0)]

theorem removed_not_active_callback :
    ((serverRun destroyedByCallback).threads 0).removed = [.conn 1,.conn 2,.acceptor] ∧
    (serverRun destroyedByCallback).destroyed = true ∧ (serverRun destroyedByCallback).failed ≠ some .activeChannels :=
  ⟨by decide +kernel,by decide +kernel,(removed_not_active linuxEventFd numbered (newServer false) _ destroyedByCallback
    ⟨false,rfl⟩ (final_run _ _ _ (by decide +kernel)) (by decide +kernel)).1⟩

/-- Both connections have an event, and a callback of the first one destroys the server,
whose destructor takes the first one and then the second one. -/
private def destroyedInBatch : List ServerLabel :=
  acceptTwo ++ [ServerLabel.poll 0 false [(.conn 1,readable),(.conn 2,readable)],.dispatch 0,.resume 0 (results 5 0),.destroy,
    .resume 0 (results 0 0),.resume 0 (results 0 0),.resume 0 (results 0 0)]

theorem active_channel_removed :
    ∃ s u, Run (serverStep linuxEventFd numbered) (newServer false) destroyedInBatch s ∧
      (s.threads 0).loop.pc = .handling ∧ (s.threads 0).current = some (.conn 1) ∧
      (s.threads 0).activeChannels = [.conn 1,.conn 2] ∧ (s.threads 0).ready.map Prod.fst = [.conn 2] ∧
      (s.threads 0).removed = [.conn 1] ∧ (s.threads 0).stack = [.remove 2,.destructor] ∧
      serverStep linuxEventFd numbered s (.resume 0 (results 0 0)) = some u ∧ u.failed = some .activeChannels := by
  refine ⟨serverRun destroyedInBatch,serverRun (destroyedInBatch ++ [.resume 0 (results 0 0)]),final_run _ _ _ ?_,?_,?_,?_,?_,?_,
    ?_,final_step _ _ _ _ ?_,?_⟩
  all_goals decide +kernel

end Reactor.Net
