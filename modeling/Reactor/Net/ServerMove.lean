import Reactor.Net.Server

/-! The steps of the server, taken apart. A step of a loop thread takes the next thing the
thread has to do, be it a call by the user, a handler, a functor or the rest of a function,
and then runs one piece of the code. -/
namespace Reactor.Net
open Reactor.Transition

inductive Cause
  | user (c : Nat) (api : Api)
  | handler (h : Handler) (r : Results)
  | functor (f : ServerFunctor)
  | frame (frame : Frame)
  deriving DecidableEq

/-- What the thread is about to do in a step. -/
def Server.cause (s : Server) : ServerLabel → Option (Nat × Cause)
  | .resume i r =>
    match (s.threads i).stack, (s.threads i).handlers with
    | frame::_, _ => some (i,.frame frame)
    | [], h::_ => some (i,.handler h r)
    | [], [] => none
  | .run i _ => (s.threads i).loop.functors.head?.map fun p => (i,.functor p.functor)
  | .call t c api _ => some (t,.user c api)
  | .timer i c _ => some (i,.user c .forceClose)
  | _ => none

theorem cause_frame {s : Server} {l : ServerLabel} {i : Nat} {frame : Frame} (why : s.cause l = some (i,.frame frame)) :
    ∃ r rest, l = .resume i r ∧ (s.threads i).stack = frame::rest := by
  cases l with
  | resume j r =>
    simp only [Server.cause] at why
    split at why
    · rename_i next
      cases why
      exact ⟨r,_,rfl,next⟩
    · cases why
    · cases why
  | run j w =>
    obtain ⟨p,_,same⟩ := Option.map_eq_some_iff.mp why
    cases same
  | _ => cases why

theorem cause_functor {s : Server} {l : ServerLabel} {i : Nat} {f : ServerFunctor} (why : s.cause l = some (i,.functor f)) :
    ∃ p, (s.threads i).loop.functors.head? = some p ∧ p.functor = f := by
  cases l with
  | resume j r =>
    simp only [Server.cause] at why
    split at why <;> cases why
  | run j w =>
    obtain ⟨p,next,same⟩ := Option.map_eq_some_iff.mp why
    cases same
    exact ⟨p,next,rfl⟩
  | _ => cases why

/-- Functors that have no part in the life of a connection. -/
def ServerFunctor.plain : ServerFunctor → Bool
  | .conn _ .connectEstablished | .conn _ .connectDestroyed | .removeConnectionInLoop _ => false
  | _ => true

def Cause.plain : Cause → Bool
  | .user _ _ | .handler _ _ => true
  | .functor f => f.plain
  | .frame _ => false

/-- The connection of the thread's loop that a cause concerns. -/
def Cause.about (th : IoThread) (c : Nat) : Cause → Prop
  | .user d _ | .functor (.conn d _) | .frame (.closeCallback d) | .frame (.remove d) => d = c
  | .handler _ _ => th.current = some (.conn c)
  | _ => False

/-- The server without the thing that the thread takes up. -/
inductive Pop (fd : EventFd) (s : Server) (i : Nat) : Cause → Server → Prop
  | user (c : Nat) (api : Api) : Pop fd s i (.user c api) s
  | timer (c : Nat) (timers : List Nat) :
      Pop fd s i (.user c .forceClose) (s.setThread i {s.threads i with timers := timers})
  | handler (h : Handler) (r : Results) (hs : List Handler) (empty : (s.threads i).stack = [])
      (next : (s.threads i).handlers = h::hs) :
      Pop fd s i (.handler h r) (s.setThread i {s.threads i with handlers := hs})
  | functor (p : Push ServerFunctor) (loop : EventLoop ServerFunctor) (empty : (s.threads i).stack = [])
      (next : (s.threads i).loop.functors.head? = some p) (move : LoopMove fd (s.threads i).loop .run loop) :
      Pop fd s i (.functor p.functor) (s.setLoop i loop)
  | frame (frame : Frame) (rest : List Frame) (next : (s.threads i).stack = frame::rest) :
      Pop fd s i (.frame frame) (s.setStack i rest)

/-- What code that has no part in the life of a connection does to it. -/
inductive ConnOp (cause : Cause) (d : Nat) (c : TcpConnection) : TcpConnection → Option ConnFunctor → Prop
  | still : ConnOp cause d c c none
  | send (t : Nat) (message : List UInt8) (w : Write)
      (sent : c.state = .kConnected ∨ cause = .functor (.conn d (.sendInLoop message))) :
      ConnOp cause d c (c.sendInLoop t message w).1 (c.sendInLoop t message w).2
  | shutdownInLoop : ConnOp cause d c c.shutdownInLoop none
  | shutdown (connected : c.state = .kConnected) :
      ConnOp cause d c (c.setState .kDisconnecting).shutdownInLoop none
  | forceClose (live : c.state.isOpen = true) : ConnOp cause d c (c.setState .kDisconnecting) (some .forceCloseInLoop)
  | handleWrite (w : Write) : ConnOp cause d c (c.handleWrite w).1 (c.handleWrite w).2
  | startRead (started : cause = .user d .startRead ∨ cause = .functor (.conn d .startReadInLoop)) :
      ConnOp cause d c c.startReadInLoop none
  | stopRead : ConnOp cause d c c.stopReadInLoop none

/-- What a handler records of itself. -/
inductive Calm : Cause → List Act → Prop
  | none (cause : Cause) : Calm cause []
  | error (r : Results) : Calm (.handler .error r) [.handleError]
  | message (r : Results) (some : 0 < r.read) : Calm (.handler .read r) [.handleRead r.read,.messageCallback]
  | failed (r : Results) (bad : r.read < 0) : Calm (.handler .read r) [.handleRead r.read,.handleError]
  | write (r : Results) : Calm (.handler .write r) [.handleWrite]

/-- The code that comes to `handleClose`, and what it has recorded by then. -/
inductive Closes (th : IoThread) (c : Nat) (state : StateE) : Cause → List Act → Prop
  | close (r : Results) (current : th.current = some (.conn c)) : Closes th c state (.handler .close r) []
  | read (r : Results) (current : th.current = some (.conn c)) (zero : r.read = 0) :
      Closes th c state (.handler .read r) [.handleRead 0]
  | force (live : state.isOpen = true) : Closes th c state (.functor (.conn c .forceCloseInLoop)) []

theorem Closes.about {th : IoThread} {c : Nat} {state : StateE} {cause : Cause} {acts : List Act}
    (closes : Closes th c state cause acts) : cause.about th c := by
  cases closes with
  | close r current => exact current
  | read r current zero => exact current
  | force live => rfl

/-- The pieces of code, in thread `i`. -/
inductive Piece (names : Nat → String) (s : Server) (i : Nat) : Cause → Server → Prop
  | skip (cause : Cause) (plain : cause.plain = true) : Piece names s i cause s
  | timer (cause : Cause) (plain : cause.plain = true) (timers : List Nat) :
      Piece names s i cause (s.setThread i {s.threads i with timers := timers})
  | conn (cause : Cause) (plain : cause.plain = true) (c : Nat) (k : Conn) (b : TcpConnection) (f : Option ConnFunctor)
      (acts : List Act) (found : s.conns c = some k) (op : ConnOp cause c k.conn b f) (calm : Calm cause acts)
      (about : cause.about (s.threads i) c) (u : Server)
      (settled : s.settle i c {k with acts := k.acts ++ acts} (b,f) = some u) : Piece names s i cause u
  | delay (c : Nat) (k : Conn) (timers : List Nat) (found : s.conns c = some k) (live : k.conn.state.isOpen = true) :
      Piece names s i (.user c .forceCloseWithDelay)
        ((s.setConn c {k with conn := k.conn.setState .kDisconnecting}).setThread i
          {s.threads i with timers := timers})
  | handleClose (cause : Cause) (c : Nat) (k : Conn) (acts : List Act) (found : s.conns c = some k)
      (closes : Closes (s.threads i) c k.conn.state cause acts) :
      Piece names s i cause (s.handleClose i c {k with acts := k.acts ++ acts})
  | connectEstablished (c : Nat) (k : Conn) (found : s.conns c = some k) :
      Piece names s i (.functor (.conn c .connectEstablished)) (s.connectEstablished c k)
  | connectDestroyed (c : Nat) (k : Conn) (found : s.conns c = some k) :
      Piece names s i (.functor (.conn c .connectDestroyed)) (s.connectDestroyed i c k)
  | removeConnectionInLoop (c : Nat) (k : Conn) (found : s.conns c = some k) (u : Server)
      (ok : s.removeConnectionInLoop names c k = some u) : Piece names s i (.functor (.removeConnectionInLoop c)) u
  | closeCallback (c : Nat) (k : Conn) (found : s.conns c = some k) (u : Server)
      (ok : s.removeConnection names i c k = some u) : Piece names s i (.frame (.closeCallback c)) u
  | remove (c : Nat) (k : Conn) (found : s.conns c = some k) : Piece names s i (.frame (.remove c)) (s.remove i c k)
  | accept (r : Results) (io : Nat) (on : s.destroyed = false) (here : (s.threads i).current = some .acceptor)
      (u : Server) (ok : s.newConnection names io = some u) : Piece names s i (.handler .read r) u
  | dangling (r : Results) (off : s.destroyed = true) (here : (s.threads i).current = some .acceptor) :
      Piece names s i (.handler .read r) {s with dangling := true}

inductive ServerMove (fd : EventFd) (names : Nat → String) (s : Server) : ServerLabel → Server → Prop
  | loop (i : Nat) (l : LoopLabel ServerFunctor) (loop : EventLoop ServerFunctor) (passes : s.passes i l = true)
      (move : LoopMove fd (s.threads i).loop l loop) :
      ServerMove fd names s (.loop i l) (s.setThread i {s.threads i with
        loop := loop, current := if l = .handled then none else (s.threads i).current})
  | poll (i : Nat) (woken : Bool) (ready : List (Chan × Revents)) (loop : EventLoop ServerFunctor)
      (distinct : (ready.map Prod.fst).Nodup) (registered : ∀ e ∈ ready, s.registered i e.1 = true)
      (move : LoopMove fd (s.threads i).loop (.poll woken) loop) :
      ServerMove fd names s (.poll i woken ready) (s.setThread i {s.threads i with
        loop := loop, activeChannels := ready.map Prod.fst, ready := ready, removed := []})
  | dispatch (i : Nat) (ch : Chan) (r : Revents) (rest : List (Chan × Revents))
      (next : (s.threads i).ready = (ch,r)::rest) (here : (s.threads i).loop.pc = .handling)
      (empty : (s.threads i).stack = []) (done : (s.threads i).handlers = []) :
      ServerMove fd names s (.dispatch i) (s.setThread i {s.threads i with
        current := some ch, handlers := r.handlers, ready := rest})
  | code (l : ServerLabel) (i : Nat) (cause : Cause) (v u : Server) (user : s.atUser i = true ∨ ∃ w, l = .run i w)
      (own : ∀ c api, cause = .user c api → ∃ k, s.conns c = some k ∧ k.loop = i)
      (why : s.cause l = some (i,cause)) (pop : Pop fd s i cause v) (piece : Piece names v i cause u) :
      ServerMove fd names s l u
  | take (r : Results) (name : String) (c : Nat) (k : Conn) (rest : List (String × Nat)) (stack : List Frame)
      (next : (s.threads 0).stack = .destructor::stack) (first : s.connections = (name,c)::rest)
      (found : s.conns c = some k) (home : k.loop = 0) :
      ServerMove fd names s (.resume 0 r) (({s with connections := rest} : Server).connectDestroyed 0 c k)
  | takeAway (r : Results) (name : String) (c : Nat) (k : Conn) (rest : List (String × Nat)) (stack : List Frame)
      (next : (s.threads 0).stack = .destructor::stack) (first : s.connections = (name,c)::rest)
      (found : s.conns c = some k) (away : k.loop ≠ 0) (u : Server)
      (ok : ({s with connections := rest} : Server).queueInLoop k.loop 0 (.conn c .connectDestroyed) = some u) :
      ServerMove fd names s (.resume 0 r) u
  | destructed (r : Results) (stack : List Frame) (next : (s.threads 0).stack = .destructor::stack)
      (all : s.connections = []) :
      ServerMove fd names s (.resume 0 r) {(s.setStack 0 stack).removeChannel 0 .acceptor with destroyed := true}
  | begin (t c : Nat) (api : Api) (w : Write) (k : Conn) (found : s.conns c = some k) (away : t ≠ k.loop) :
      ServerMove fd names s (.call t c api w) (s.setCall t (Server.Api.call c k.conn.state api))
  | setState (t c : Nat) (f : ServerFunctor) (k : Conn) (call : s.calls t = some (.setState c f))
      (found : s.conns c = some k) :
      ServerMove fd names s (.proceed t)
        ((s.setConn c {k with conn := k.conn.setState .kDisconnecting}).setCall t (some (.push c f)))
  | push (t c : Nat) (f : ServerFunctor) (k : Conn) (call : s.calls t = some (.push c f))
      (found : s.conns c = some k) (u : Server) (ok : (s.setCall t none).queueInLoop k.loop t f = some u) :
      ServerMove fd names s (.proceed t) u
  | destroy (user : s.atUser 0 = true) (on : s.destroyed = false) (absent : .destructor ∉ (s.threads 0).stack) :
      ServerMove fd names s .destroy (s.enter 0 .destructor)

variable {fd : EventFd} {names : Nat → String} {s u v : Server}

theorem perform_piece {i : Nat} {w : Write} {p : Push ServerFunctor} (ok : s.perform names i w p = some u) :
    Piece names s i (.functor p.functor) u := by
  obtain ⟨functor,thread,looping⟩ := p
  unfold Server.perform at ok
  simp only at ok ⊢
  cases functor with
  | conn c f =>
    cases found : s.conns c with
    | none => simp [found] at ok
    | some k =>
      simp only [found] at ok
      have quiet (b : TcpConnection) (g : Option ConnFunctor) (plain : (ServerFunctor.conn c f).plain = true)
          (op : ConnOp (.functor (.conn c f)) c k.conn b g) (settled : s.settle i c k (b,g) = some u) :
          Piece names s i (.functor (.conn c f)) u :=
        .conn (.functor (.conn c f)) plain c k b g [] found op (.none _) rfl u
          (by simpa using settled)
      cases f with
      | connectEstablished =>
        cases ok
        exact .connectEstablished c k found
      | connectDestroyed =>
        cases ok
        exact .connectDestroyed c k found
      | forceCloseInLoop =>
        simp only [Option.some.injEq] at ok
        subst ok
        split
        · rename_i live
          have piece : Piece names s i (.functor (.conn c .forceCloseInLoop))
              (s.handleClose i c {k with acts := k.acts ++ []}) := .handleClose _ c k [] found (.force live)
          simpa using piece
        · exact .skip _ rfl
      | sendInLoop message =>
        obtain ⟨_,settled⟩ := Option.ite_none_right_eq_some.mp ok
        exact quiet _ _ rfl (.send thread message w (.inr rfl)) settled
      | shutdownInLoop =>
        obtain ⟨_,settled⟩ := Option.ite_none_right_eq_some.mp ok
        exact quiet _ _ rfl .shutdownInLoop settled
      | startReadInLoop =>
        obtain ⟨_,settled⟩ := Option.ite_none_right_eq_some.mp ok
        exact quiet _ _ rfl (.startRead (.inr rfl)) settled
      | stopReadInLoop =>
        obtain ⟨_,settled⟩ := Option.ite_none_right_eq_some.mp ok
        exact quiet _ _ rfl .stopRead settled
      | writeComplete =>
        obtain ⟨_,settled⟩ := Option.ite_none_right_eq_some.mp ok
        exact quiet _ _ rfl .still settled
      | highWaterMark len =>
        obtain ⟨_,settled⟩ := Option.ite_none_right_eq_some.mp ok
        exact quiet _ _ rfl .still settled
      | other =>
        obtain ⟨_,settled⟩ := Option.ite_none_right_eq_some.mp ok
        exact quiet _ _ rfl .still settled
  | removeConnectionInLoop c =>
    cases found : s.conns c with
    | none => simp [found] at ok
    | some k =>
      simp only [found] at ok
      exact .removeConnectionInLoop c k found u ok
  | addTimerInLoop c =>
    cases ok
    exact .timer _ rfl _
  | other =>
    cases ok
    exact .skip _ rfl

theorem handle_piece {i c : Nat} {k : Conn} {r : Results} {h : Handler} (found : s.conns c = some k)
    (current : (s.threads i).current = some (.conn c)) (ok : s.handle i c k r h = some u) :
    Piece names s i (.handler h r) u := by
  have still (acts : List Act) (calm : Calm (.handler h r) acts) :
      Piece names s i (.handler h r) (s.setConn c {k with acts := k.acts ++ acts}) :=
    .conn _ rfl c k k.conn none acts found .still calm current _ rfl
  cases h with
  | close =>
    cases ok
    have piece : Piece names s i (.handler .close r) (s.handleClose i c {k with acts := k.acts ++ []}) :=
      .handleClose _ c k [] found (.close r current)
    simpa using piece
  | error =>
    cases ok
    exact still _ (.error r)
  | read =>
    simp only [Server.handle] at ok
    split at ok
    · rename_i zero
      cases ok
      exact .handleClose _ c k _ found (.read r current zero)
    · rename_i some
      split at ok
      · rename_i positive
        cases ok
        exact still _ (.message r positive)
      · rename_i bad
        cases ok
        exact still _ (.failed r (by omega))
  | write =>
    obtain ⟨_,settled⟩ := Option.ite_none_right_eq_some.mp ok
    exact .conn _ rfl c k _ _ _ found (.handleWrite r.write) (.write r) current u settled

theorem handleEvent_piece {i : Nat} {r : Results} {h : Handler} (ok : s.handleEvent names i r h = some u) :
    Piece names s i (.handler h r) u := by
  unfold Server.handleEvent at ok
  split at ok
  · rename_i c current
    cases found : s.conns c with
    | none => simp [found] at ok
    | some k =>
      simp only [found] at ok
      exact handle_piece found current ok
  · rename_i current
    split at ok
    · rename_i io accepted
      split at ok
      · rename_i off
        cases ok
        exact .dangling r off current
      · rename_i on
        exact .accept r io (Bool.eq_false_iff.mpr on) current u ok
    · cases ok
      exact .skip _ rfl
  · cases ok
    exact .skip _ rfl

theorem callInLoop_piece {i c : Nat} {k : Conn} {w : Write} {api : Api} (found : s.conns c = some k)
    (ok : s.callInLoop i c k w api = some u) : Piece names s i (.user c api) u := by
  have quiet (b : TcpConnection) (g : Option ConnFunctor) (op : ConnOp (.user c api) c k.conn b g)
      (settled : s.settle i c k (b,g) = some u) : Piece names s i (.user c api) u :=
    .conn _ rfl c k b g [] found op (.none _) rfl u (by simpa using settled)
  cases api with
  | send message =>
    simp only [Server.callInLoop] at ok
    split at ok
    · rename_i connected
      obtain ⟨_,settled⟩ := Option.ite_none_right_eq_some.mp ok
      exact quiet _ _ (.send i message w (.inl connected)) settled
    · cases ok
      exact .skip _ rfl
  | shutdown =>
    simp only [Server.callInLoop] at ok
    split at ok
    · rename_i connected
      exact quiet _ _ (.shutdown connected) ok
    · cases ok
      exact .skip _ rfl
  | forceClose =>
    simp only [Server.callInLoop] at ok
    split at ok
    · rename_i live
      exact quiet _ _ (.forceClose live) ok
    · cases ok
      exact .skip _ rfl
  | forceCloseWithDelay =>
    simp only [Server.callInLoop] at ok
    split at ok
    · rename_i live
      cases ok
      exact .delay c k _ found live
    · cases ok
      exact .skip _ rfl
  | startRead => exact quiet _ _ (.startRead (.inl rfl)) ok
  | stopRead => exact quiet _ _ .stopRead ok

theorem serverStep_running {l : ServerLabel} (ok : serverStep fd names s l = some u) :
    s.failed = none ∧ s.dangling = false := by
  unfold serverStep at ok
  split at ok
  · cases ok
  · rename_i fine
    simpa using fine

theorem unwind_move {i : Nat} {r : Results} {frame : Frame} {rest : List Frame} (user : s.atUser i = true)
    (stack : (s.threads i).stack = frame::rest) (home : i ≠ 0 → .destructor ∉ (s.threads i).stack)
    (ok : s.unwind names i frame = some u) : ServerMove fd names s (.resume i r) u := by
  have why : s.cause (.resume i r) = some (i,.frame frame) := by simp [Server.cause,stack]
  have pop : Pop fd s i (.frame frame) (s.setStack i rest) := .frame frame rest stack
  have code (piece : Piece names (s.setStack i rest) i (.frame frame) u) : ServerMove fd names s (.resume i r) u :=
    .code _ i _ _ u (.inl user) (fun c api same => by cases same) why pop piece
  cases frame with
  | closeCallback c =>
    cases found : s.conns c with
    | none => simp [Server.unwind,found] at ok
    | some k =>
      simp only [Server.unwind,found,stack,List.tail_cons] at ok
      have there : (s.setStack i rest).conns c = some k := found
      exact code (.closeCallback c k there u ok)
  | remove c =>
    cases found : s.conns c with
    | none => simp [Server.unwind,found] at ok
    | some k =>
      simp only [Server.unwind,found,stack,List.tail_cons,Option.some.injEq] at ok
      subst ok
      exact code (.remove c k found)
  | destructor =>
    have base : i = 0 := by
      by_contra other
      exact home other (by simp [stack])
    subst base
    simp only [Server.unwind,Server.destruct] at ok
    cases first : s.connections with
    | nil =>
      simp only [first,stack,List.tail_cons,Option.some.injEq] at ok
      subst ok
      exact .destructed r rest stack first
    | cons e later =>
      obtain ⟨name,c⟩ := e
      simp only [first] at ok
      cases found : s.conns c with
      | none => simp [found] at ok
      | some k =>
        simp only [found] at ok
        split at ok
        · rename_i here
          cases ok
          exact .take r name c k later rest stack first found here
        · rename_i away
          exact .takeAway r name c k later rest stack first found away u ok

theorem resume_move {i : Nat} {r : Results} (ok : serverStep fd names s (.resume i r) = some u)
    (home : i ≠ 0 → .destructor ∉ (s.threads i).stack) : ServerMove fd names s (.resume i r) u := by
  have fine := serverStep_running ok
  simp only [serverStep,fine,ne_eq,not_true_eq_false,Bool.false_eq_true,or_self,if_false] at ok
  obtain ⟨user,ok⟩ := Option.ite_none_right_eq_some.mp ok
  split at ok
  · rename_i frame rest stack
    exact unwind_move user stack home ok
  · rename_i h hs stack next
    exact .code _ i _ _ u (.inl user) (fun c api same => by cases same) (by simp [Server.cause,stack,next])
      (.handler h r hs stack next) (handleEvent_piece ok)
  · cases ok

theorem run_move {i : Nat} {w : Write} (ok : serverStep fd names s (.run i w) = some u) :
    ServerMove fd names s (.run i w) u := by
  have fine := serverStep_running ok
  simp only [serverStep,fine,ne_eq,not_true_eq_false,Bool.false_eq_true,or_self,if_false] at ok
  cases next : (s.threads i).loop.functors with
  | nil => simp [next] at ok
  | cons p rest =>
    simp only [next] at ok
    obtain ⟨empty,ok⟩ := Option.ite_none_right_eq_some.mp ok
    obtain ⟨loop,ran,performed⟩ := Option.bind_eq_some_iff.mp ok
    exact .code _ i _ _ u (.inr ⟨w,rfl⟩) (fun c api same => by cases same) (by simp [Server.cause,next])
      (.functor p loop empty (by simp [next]) (loopStep_move fd _ _ _ ran)) (perform_piece performed)

theorem call_move {t c : Nat} {api : Api} {w : Write} (ok : serverStep fd names s (.call t c api w) = some u) :
    ServerMove fd names s (.call t c api w) u := by
  have fine := serverStep_running ok
  simp only [serverStep,fine,ne_eq,not_true_eq_false,Bool.false_eq_true,or_self,if_false] at ok
  cases found : s.conns c with
  | none => simp [found] at ok
  | some k =>
    simp only [found] at ok
    obtain ⟨user,ok⟩ := Option.ite_none_right_eq_some.mp ok
    split at ok
    · rename_i home
      refine .code _ t _ s u (.inl user) (fun d api same => ?_) rfl (.user c api) (callInLoop_piece found ok)
      cases same
      exact ⟨k,found,home.symm⟩
    · rename_i away
      cases ok
      exact .begin t c api w k found away

theorem timer_move {i c : Nat} {locked : Bool} (ok : serverStep fd names s (.timer i c locked) = some u) :
    ServerMove fd names s (.timer i c locked) u := by
  have fine := serverStep_running ok
  simp only [serverStep,fine,ne_eq,not_true_eq_false,Bool.false_eq_true,or_self,if_false] at ok
  cases found : s.conns c with
  | none => simp [found] at ok
  | some k =>
    simp only [found] at ok
    obtain ⟨⟨_,user,_,home⟩,ok⟩ := Option.ite_none_right_eq_some.mp ok
    refine .code _ i _ _ u (.inl user) (fun d api same => ?_) rfl (.timer c ((s.threads i).timers.erase c)) ?_
    · cases same
      exact ⟨k,found,home⟩
    · split at ok
      · exact callInLoop_piece found ok
      · cases ok
        exact .skip _ rfl

theorem serverStep_move {l : ServerLabel} (ok : serverStep fd names s l = some u)
    (home : ∀ i, i ≠ 0 → .destructor ∉ (s.threads i).stack) : ServerMove fd names s l u := by
  have fine := serverStep_running ok
  cases l with
  | resume i r => exact resume_move ok (home i)
  | run i w => exact run_move ok
  | call t c api w => exact call_move ok
  | timer i c locked => exact timer_move ok
  | loop i l =>
    simp only [serverStep,fine,ne_eq,not_true_eq_false,Bool.false_eq_true,or_self,if_false] at ok
    obtain ⟨passes,ok⟩ := Option.ite_none_right_eq_some.mp ok
    obtain ⟨loop,stepped,rfl⟩ := Option.map_eq_some_iff.mp ok
    exact .loop i l loop passes (loopStep_move fd _ _ _ stepped)
  | poll i woken ready =>
    simp only [serverStep,fine,ne_eq,not_true_eq_false,Bool.false_eq_true,or_self,if_false] at ok
    obtain ⟨⟨distinct,registered⟩,ok⟩ := Option.ite_none_right_eq_some.mp ok
    obtain ⟨loop,stepped,rfl⟩ := Option.map_eq_some_iff.mp ok
    exact .poll i woken ready loop distinct (List.all_eq_true.mp registered) (loopStep_move fd _ _ _ stepped)
  | dispatch i =>
    simp only [serverStep,fine,ne_eq,not_true_eq_false,Bool.false_eq_true,or_self,if_false] at ok
    cases next : (s.threads i).ready with
    | nil => simp [next] at ok
    | cons e rest =>
      obtain ⟨ch,r⟩ := e
      simp only [next] at ok
      obtain ⟨⟨here,_,empty,done⟩,⟨⟩⟩ := Option.ite_none_right_eq_some.mp ok
      exact .dispatch i ch r rest next here empty done
  | proceed t =>
    simp only [serverStep,fine,ne_eq,not_true_eq_false,Bool.false_eq_true,or_self,if_false] at ok
    cases call : s.calls t with
    | none => simp [call] at ok
    | some call' =>
      cases call' with
      | setState c f =>
        simp only [call] at ok
        cases found : s.conns c with
        | none => simp [found] at ok
        | some k =>
          simp only [found,Option.some.injEq] at ok
          subst ok
          exact .setState t c f k call found
      | push c f =>
        simp only [call] at ok
        cases found : s.conns c with
        | none => simp [found] at ok
        | some k =>
          simp only [found] at ok
          exact .push t c f k call found u ok
  | destroy =>
    simp only [serverStep,fine,ne_eq,not_true_eq_false,Bool.false_eq_true,or_self,if_false] at ok
    obtain ⟨⟨user,on,absent⟩,⟨⟩⟩ := Option.ite_none_right_eq_some.mp ok
    exact .destroy user on absent

/-- The functors that begin and end the life of a connection. -/
def ConnFunctor.token : ConnFunctor → Bool
  | .connectEstablished | .connectDestroyed => true
  | _ => false

/-- The functors a connection gives to its own loop. -/
def ConnFunctor.callback : ConnFunctor → Bool
  | .forceCloseInLoop | .writeComplete | .highWaterMark _ => true
  | _ => false

/-- Functors that are bound to a shared pointer of their connection; the others are bound to `this`. -/
def ConnFunctor.shared : ConnFunctor → Bool
  | .sendInLoop _ | .shutdownInLoop | .startReadInLoop | .stopReadInLoop => false
  | _ => true

/-- What is not open stays as it is, and what waits for nothing goes on to do so. -/
structure Keeps (a b : TcpConnection) : Prop where
  isOpen : b.state.isOpen = a.state.isOpen
  state : a.state.isOpen = false → b.state = a.state
  isNoneEvent : a.state.isOpen = false → a.channel.isNoneEvent = true → b.channel.isNoneEvent = true

section
variable {a b : TcpConnection} {f : Option ConnFunctor} {cause : Cause} {d : Nat}

theorem Keeps.refl (a : TcpConnection) : Keeps a a := ⟨rfl,fun _ => rfl,fun _ => id⟩

theorem Keeps.of_open (before : a.state.isOpen = true) (after : b.state.isOpen = true) : Keeps a b :=
  ⟨by rw [before,after],by simp [before],by simp [before]⟩

theorem Keeps.of_same (state : b.state = a.state) (channel : a.channel.isNoneEvent = true → b.channel.isNoneEvent = true) :
    Keeps a b :=
  ⟨by rw [state],fun _ => state,fun _ => channel⟩

theorem Keeps.connecting (keeps : Keeps a b) (on : a.state ≠ .kConnecting) : b.state ≠ .kConnecting := by
  cases live : a.state.isOpen with
  | true =>
    intro same
    have still := keeps.isOpen
    rw [live,same] at still
    cases still
  | false => rwa [keeps.state live]

theorem sendInLoop_effect (a : TcpConnection) (t : Nat) (message : List UInt8) (w : Write) :
    (a.sendInLoop t message w).1.state = a.state ∧ ∀ g, (a.sendInLoop t message w).2 = some g → g.callback = true := by
  have buffered (a : TcpConnection) (n : Nat) :
      (a.buffer message n).1.state = a.state ∧ ∀ g, (a.buffer message n).2 = some g → g.callback = true := by
    refine ⟨rfl,fun g same => ?_⟩
    obtain ⟨_,⟨⟩⟩ := Option.ite_none_right_eq_some.mp same
    rfl
  unfold TcpConnection.sendInLoop
  split
  · exact ⟨rfl,nofun⟩
  · split
    · simp only
      split
      · exact buffered _ _
      · refine ⟨rfl,fun g same => ?_⟩
        obtain ⟨_,⟨⟩⟩ := Option.ite_none_right_eq_some.mp same
        rfl
    · simp only
      split
      · exact buffered _ _
      · exact ⟨rfl,nofun⟩

theorem sendInLoop_disconnected (t : Nat) (message : List UInt8) (w : Write) (off : a.state = .kDisconnected) :
    (a.sendInLoop t message w).1.channel = a.channel := by
  simp [TcpConnection.sendInLoop,off]

theorem shutdownInLoop_state (a : TcpConnection) : a.shutdownInLoop.state = a.state := by
  unfold TcpConnection.shutdownInLoop
  split <;> rfl

theorem shutdownInLoop_channel (a : TcpConnection) : a.shutdownInLoop.channel = a.channel := by
  unfold TcpConnection.shutdownInLoop
  split <;> rfl

theorem handleWrite_effect (a : TcpConnection) (w : Write) :
    Keeps a (a.handleWrite w).1 ∧ ∀ g, (a.handleWrite w).2 = some g → g.callback = true := by
  unfold TcpConnection.handleWrite
  split
  · rename_i on
    have busy : a.channel.isNoneEvent = true → False := by simp [Channel.isNoneEvent,on]
    simp only
    split
    · refine ⟨.of_same ?_ fun none => absurd none busy,fun g same => ?_⟩
      · split
        · exact shutdownInLoop_state _
        · rfl
      · obtain ⟨_,⟨⟩⟩ := Option.ite_none_right_eq_some.mp same
        rfl
    · exact ⟨.of_same rfl fun none => absurd none busy,nofun⟩
  · exact ⟨.refl a,nofun⟩

theorem stopReadInLoop_keeps (a : TcpConnection) : Keeps a a.stopReadInLoop := by
  unfold TcpConnection.stopReadInLoop
  split
  · refine .of_same rfl fun none => ?_
    obtain ⟨_,silent⟩ : a.channel.isReading = false ∧ a.channel.isWriting = false := by
      simpa [Channel.isNoneEvent] using none
    simp [Channel.isNoneEvent,Channel.disableReading,silent]
  · exact .refl a

theorem startReadInLoop_state (a : TcpConnection) : a.startReadInLoop.state = a.state := by
  unfold TcpConnection.startReadInLoop
  split <;> rfl

theorem connOp_queues (op : ConnOp cause d a b f) : ∀ g, f = some g → g.callback = true := by
  cases op with
  | send t message w sent => exact (sendInLoop_effect a t message w).2
  | handleWrite w => exact (handleWrite_effect a w).2
  | forceClose live => simp [ConnFunctor.callback]
  | _ => nofun

theorem connOp_connecting (op : ConnOp cause d a b f) (on : a.state ≠ .kConnecting) : b.state ≠ .kConnecting := by
  cases op with
  | still => exact on
  | send t message w sent => rwa [(sendInLoop_effect a t message w).1]
  | shutdownInLoop => rwa [shutdownInLoop_state]
  | shutdown connected => simp [shutdownInLoop_state,TcpConnection.setState]
  | forceClose live => simp [TcpConnection.setState]
  | handleWrite w => exact (handleWrite_effect a w).1.connecting on
  | startRead started => rwa [startReadInLoop_state]
  | stopRead => exact (stopReadInLoop_keeps a).connecting on

/-- The one piece of code that does not look at `state_` before it waits for events is `startReadInLoop`. -/
theorem connOp_keeps (op : ConnOp cause d a b f)
    (started : cause = .user d .startRead ∨ cause = .functor (.conn d .startReadInLoop) → a.state.isOpen = true)
    (sent : ∀ m, cause = .functor (.conn d (.sendInLoop m)) → a.state ≠ .kConnecting) : Keeps a b := by
  cases op with
  | still => exact .refl a
  | send t message w from' =>
    obtain ⟨state,_⟩ := sendInLoop_effect a t message w
    by_cases off : a.state = .kDisconnected
    · exact .of_same state (by simp [sendInLoop_disconnected t message w off])
    · have on : a.state ≠ .kConnecting := by
        rcases from' with connected | functor
        · simp [connected]
        · exact sent message functor
      have live : a.state.isOpen = true := by cases same : a.state <;> simp_all [StateE.isOpen]
      exact .of_open live (by rwa [state])
  | shutdownInLoop => exact .of_same (shutdownInLoop_state a) (by simp [shutdownInLoop_channel])
  | shutdown connected => exact .of_open (by simp [connected,StateE.isOpen]) (by rw [shutdownInLoop_state]; rfl)
  | forceClose live => exact .of_open live rfl
  | handleWrite w => exact (handleWrite_effect a w).1
  | startRead from' => exact .of_open (started from') (by rw [startReadInLoop_state]; exact started from')
  | stopRead => exact stopReadInLoop_keeps a

end

end Reactor.Net
