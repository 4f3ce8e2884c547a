import Reactor.Net.Placement
import Reactor.Net.Life

/-! What the server has of one connection, as a `Life`. Each function of the server is read
off for one connection: a function that is not about it leaves its life alone, and one
that is about it does to the life what it does to the server. -/
namespace Reactor.Net
open Reactor.Transition

structure View where
  queue : List ConnFunctor
  removals : Nat
  closing : Nat
  removing : Nat
  waiting : List Revents
  pending : List Handler
  destructing : Bool

def ServerFunctor.of (c : Nat) : ServerFunctor → Option ConnFunctor
  | .conn d f => if d = c then some f else none
  | _ => none

/-- What a thread has of connection `c`. -/
def IoThread.view (th : IoThread) (c : Nat) : View where
  queue := th.loop.queued.filterMap fun p => p.functor.of c
  removals := th.loop.queued.countP fun p => p.functor = .removeConnectionInLoop c
  closing := th.stack.count (.closeCallback c)
  removing := th.stack.count (.remove c)
  waiting := th.ready.filterMap fun e => if e.1 = .conn c then some e.2 else none
  pending := if th.current = some (.conn c) then th.handlers else []
  destructing := .destructor ∈ th.stack

def Server.listed (s : Server) (c : Nat) : Bool := s.connections.any fun e => e.2 = c

/-- The life of a connection of loop `k.loop`, from what its own thread and the base thread have of it. -/
def Life.of (k : Conn) (listed : Bool) (home base : View) (destroyed : Bool) : Life :=
  ⟨k.conn,k.acts,k.loop ≠ 0,listed,home.queue,base.removals,home.closing,home.removing,home.waiting,home.pending,
    base.destructing || destroyed,destroyed⟩

/-- What the server has of connection `c`, when its record is `k`. -/
def Server.life (s : Server) (c : Nat) (k : Conn) : Life :=
  Life.of k (s.listed c) ((s.threads k.loop).view c) ((s.threads 0).view c) s.destroyed

/-- Connection `c` of loop `i` is known, and its life is `a`. -/
def Server.Shows (s : Server) (c i : Nat) (a : Life) : Prop := ∃ k, s.conns c = some k ∧ k.loop = i ∧ s.life c k = a

section
variable {names : Nat → String} {s u v : Server} {i c : Nat} {k : Conn} {fd : EventFd} {a b : Life}

theorem setThread_life (th : IoThread) :
    (s.setThread i th).life c k = Life.of k (s.listed c) (if k.loop = i then th.view c else (s.threads k.loop).view c)
      (if 0 = i then th.view c else (s.threads 0).view c) s.destroyed := by
  unfold Server.life
  rw [setThread_threads,setThread_threads,apply_ite (IoThread.view · c),apply_ite (IoThread.view · c)]
  rfl

theorem life_same {th : IoThread} (same : th.view c = (s.threads i).view c) :
    (s.setThread i th).life c k = s.life c k := by
  have view (j : Nat) : (if j = i then th.view c else (s.threads j).view c) = (s.threads j).view c := by
    split
    · rename_i here
      rw [same,here]
    · rfl
  rw [setThread_life,view,view]
  rfl

/-- A change in the thread of the connection. -/
theorem life_home {th : IoThread} {w : View} (home : k.loop = i) (view : th.view c = w)
    (removals : w.removals = ((s.threads i).view c).removals)
    (destructing : w.destructing = ((s.threads i).view c).destructing) :
    (s.setThread i th).life c k = {s.life c k with
      queue := w.queue, closing := w.closing, removing := w.removing, waiting := w.waiting, pending := w.pending} := by
  rw [setThread_life,if_pos home,view]
  split
  · rename_i base
    subst base
    simp [Life.of,Server.life,removals,destructing]
  · rfl

/-- A change in the thread of the base loop. -/
theorem life_base {th : IoThread} {w : View} (view : th.view c = w) (queue : w.queue = ((s.threads 0).view c).queue)
    (closing : w.closing = ((s.threads 0).view c).closing) (removing : w.removing = ((s.threads 0).view c).removing)
    (waiting : w.waiting = ((s.threads 0).view c).waiting) (pending : w.pending = ((s.threads 0).view c).pending) :
    (s.setThread 0 th).life c k = {s.life c k with
      removals := w.removals, begun := w.destructing || s.destroyed} := by
  rw [setThread_life,if_pos rfl,view]
  split
  · rename_i home
    simp [Life.of,Server.life,home,queue,closing,removing,waiting,pending]
  · rfl

theorem view_push (th : IoThread) (t : Nat) (f : ServerFunctor) :
    ({th with loop := th.loop.queueInLoop t f} : IoThread).view c = {th.view c with
      queue := (th.view c).queue ++ (f.of c).toList
      removals := (th.view c).removals + if f = .removeConnectionInLoop c then 1 else 0} := by
  cases of : f.of c <;> simp [IoThread.view,List.filterMap_append,List.countP_append,List.countP_singleton,of]

theorem view_enter (th : IoThread) (frame : Frame) :
    ({th with stack := frame::th.stack} : IoThread).view c = {th.view c with
      closing := (th.view c).closing + if frame = .closeCallback c then 1 else 0
      removing := (th.view c).removing + if frame = .remove c then 1 else 0
      destructing := frame = .destructor || (th.view c).destructing} := by
  cases frame <;> simp [IoThread.view,List.count_cons]

namespace Server.Shows

theorem setConn_other (shows : s.Shows c i a) {d : Nat} (other : d ≠ c) (b : Conn) : (s.setConn d b).Shows c i a := by
  obtain ⟨k,found,home,rfl⟩ := shows
  exact ⟨k,by simpa [Server.setConn,Ne.symm other] using found,home,rfl⟩

theorem setConn (s : Server) (c : Nat) (b : Conn) : (s.setConn c b).Shows c b.loop (s.life c b) :=
  ⟨b,Function.update_self _ _ _,rfl,rfl⟩

theorem setThread (shows : s.Shows c i a) {j : Nat} {th : IoThread} (same : th.view c = (s.threads j).view c) :
    (s.setThread j th).Shows c i a := by
  obtain ⟨k,found,home,rfl⟩ := shows
  exact ⟨k,found,home,life_same same⟩

theorem fail (shows : s.Shows c i a) (x : Assertion) : (s.fail x).Shows c i a := shows

theorem removeChannel (shows : s.Shows c i a) (j : Nat) (ch : Chan) : (s.removeChannel j ch).Shows c i a := by
  unfold Server.removeChannel
  simp only
  split
  · exact shows.fail _
  · exact shows.setThread rfl

theorem queueInLoop_other (shows : s.Shows c i a) {j t : Nat} {f : ServerFunctor} (ok : s.queueInLoop j t f = some u)
    (functor : f.of c = none) (removal : f ≠ .removeConnectionInLoop c) : u.Shows c i a := by
  obtain ⟨_,⟨⟩⟩ := Option.ite_none_right_eq_some.mp ok
  exact shows.setThread (by rw [view_push,functor,if_neg removal]; simp)

theorem queueInLoop_conn (shows : s.Shows c i a) {t : Nat} {f : ConnFunctor}
    (ok : s.queueInLoop i t (.conn c f) = some u) : u.Shows c i {a with queue := a.queue ++ [f]} := by
  obtain ⟨_,⟨⟩⟩ := Option.ite_none_right_eq_some.mp ok
  obtain ⟨k,found,rfl,rfl⟩ := shows
  refine ⟨k,found,rfl,(life_home rfl (view_push _ t _) (by simp) rfl).trans ?_⟩
  simp [Server.life,Life.of,ServerFunctor.of]

theorem queueInLoop_removal (shows : s.Shows c i a) {t : Nat}
    (ok : s.queueInLoop 0 t (.removeConnectionInLoop c) = some u) : u.Shows c i {a with removals := a.removals+1} := by
  obtain ⟨_,⟨⟩⟩ := Option.ite_none_right_eq_some.mp ok
  obtain ⟨k,found,rfl,rfl⟩ := shows
  refine ⟨k,found,rfl,(life_base (view_push _ t _) (by simp [ServerFunctor.of]) rfl rfl rfl rfl).trans ?_⟩
  simp [Server.life,Life.of]

theorem enter_other (shows : s.Shows c i a) (j : Nat) {frame : Frame} (closing : frame ≠ .closeCallback c)
    (removing : frame ≠ .remove c) (other : frame ≠ .destructor) : (s.enter j frame).Shows c i a :=
  shows.setThread ((view_enter _ frame).trans (by simp [closing,removing,other]))

theorem enter_closing (shows : s.Shows c i a) : (s.enter i (.closeCallback c)).Shows c i {a with closing := a.closing+1} := by
  obtain ⟨k,found,rfl,rfl⟩ := shows
  refine ⟨k,found,rfl,(life_home rfl (view_enter _ _) rfl (by simp)).trans ?_⟩
  simp [Server.life,Life.of]

theorem enter_removing (shows : s.Shows c i a) : (s.enter i (.remove c)).Shows c i {a with removing := a.removing+1} := by
  obtain ⟨k,found,rfl,rfl⟩ := shows
  refine ⟨k,found,rfl,(life_home rfl (view_enter _ _) rfl (by simp)).trans ?_⟩
  simp [Server.life,Life.of]

theorem enter_destructor (shows : s.Shows c i a) : (s.enter 0 .destructor).Shows c i {a with begun := true} := by
  obtain ⟨k,found,rfl,rfl⟩ := shows
  refine ⟨k,found,rfl,(life_base (view_enter _ _) rfl (by simp) (by simp) rfl rfl).trans ?_⟩
  simp [Server.life,Life.of]

theorem connections (shows : s.Shows c i a) {entries : List (String × Nat)}
    (same : (entries.any fun e => e.2 = c) = s.listed c) : ({s with connections := entries} : Server).Shows c i a := by
  obtain ⟨k,found,home,rfl⟩ := shows
  refine ⟨k,found,home,?_⟩
  have listed : ({s with connections := entries} : Server).listed c = s.listed c := same
  unfold Server.life
  rw [listed]

end Server.Shows

theorem entry_iff (placed : Placed names s) (distinct : Function.Injective names) {e : String × Nat}
    (member : e ∈ s.connections) (c : Nat) : e.1 = names c ↔ e.2 = c := by
  rw [(placed.connections e member).1]
  exact distinct.eq_iff

theorem erase_count (placed : Placed names s) (distinct : Function.Injective names) :
    (s.connections.filter fun e => e.1 = names c).length = if s.listed c then 1 else 0 := by
  have same : (s.connections.filter fun e => e.1 = names c).length = (s.connections.map Prod.snd).count c := by
    rw [← List.countP_eq_length_filter,List.count,List.countP_map]
    refine List.countP_congr fun e member => ?_
    simp [entry_iff placed distinct member]
  have member : c ∈ s.connections.map Prod.snd ↔ s.listed c = true := by simp [Server.listed]
  rw [same,placed.once.count]
  simp only [member]

theorem erase_listed (placed : Placed names s) (distinct : Function.Injective names) (d : Nat) :
    ((s.connections.filter fun e => e.1 ≠ names d).any fun e => e.2 = c) = (s.listed c && c ≠ d) := by
  rw [Bool.eq_iff_iff]
  simp only [List.any_eq_true,List.mem_filter,decide_eq_true_eq,Server.listed,Bool.and_eq_true]
  constructor
  · rintro ⟨e,⟨member,other⟩,rfl⟩
    exact ⟨⟨e,member,rfl⟩,fun same => other ((entry_iff placed distinct member d).mpr same)⟩
  · rintro ⟨⟨e,member,rfl⟩,other⟩
    exact ⟨e,⟨member,fun same => other ((entry_iff placed distinct member d).mp same)⟩,rfl⟩

namespace Server.Shows

theorem handleClose (s : Server) (c : Nat) (home : k.loop = i) :
    (s.handleClose i c k).Shows c i (s.life c k).handleClose := by
  subst home
  unfold Server.handleClose
  split
  · rename_i live
    rw [Life.handleClose,if_pos (show (s.life c k).conn.state.isOpen = true from live)]
    exact (setConn s c {k with
      conn := k.conn.handleClose, acts := k.acts ++ [.handleClose,.connectionCallback false]}).enter_closing
  · rename_i shut
    rw [Life.handleClose,if_neg (show ¬ (s.life c k).conn.state.isOpen = true from shut)]
    exact setConn s c {k with acts := k.acts ++ [.handleClose]}

theorem connectEstablished (s : Server) (c : Nat) (k : Conn) :
    (s.connectEstablished c k).Shows c k.loop (s.life c k).connectEstablished := by
  unfold Server.connectEstablished
  split
  · rename_i connecting
    rw [Life.connectEstablished,if_pos (show (s.life c k).conn.state = .kConnecting from connecting)]
    exact setConn s c {k with
      conn := k.conn.connectEstablished, acts := k.acts ++ [.connectEstablished,.connectionCallback true]}
  · rename_i other
    rw [Life.connectEstablished,if_neg (show ¬ (s.life c k).conn.state = .kConnecting from other)]
    exact setConn s c {k with acts := k.acts ++ [.connectEstablished]}

theorem remove (s : Server) (j c : Nat) (k : Conn) : (s.remove j c k).Shows c k.loop (s.life c k).remove := by
  have noted := setConn s c {k with acts := k.acts ++ [.remove k.conn.channel.isNoneEvent]}
  unfold Server.remove
  simp only
  split
  · exact noted.removeChannel _ _
  · exact noted

theorem connectDestroyed (s : Server) (c : Nat) (home : k.loop = i) :
    (s.connectDestroyed i c k).Shows c i (s.life c k).connectDestroyed := by
  subst home
  unfold Server.connectDestroyed
  split
  · rename_i connected
    rw [Life.connectDestroyed,if_pos (show (s.life c k).conn.state = .kConnected from connected)]
    exact (setConn s c {k with
      conn := {k.conn with state := .kDisconnected, channel := k.conn.channel.disableAll}
      acts := k.acts ++ [.connectDestroyed k.conn.state,.connectionCallback false]}).enter_removing
  · rename_i other
    rw [Life.connectDestroyed,if_neg (show ¬ (s.life c k).conn.state = .kConnected from other)]
    exact remove s _ c {k with acts := k.acts ++ [.connectDestroyed k.conn.state]}

theorem removeConnectionInLoop (placed : Placed names s) (distinct : Function.Injective names)
    (there : s.destroyed = true → s.conns c = some k) (ok : s.removeConnectionInLoop names c k = some u) :
    u.Shows c k.loop (s.life c k).removeConnectionInLoop := by
  have same : (s.life c k).destroyed = s.destroyed := rfl
  have listed : (s.life c k).listed = s.listed c := rfl
  unfold Server.removeConnectionInLoop at ok
  unfold Life.removeConnectionInLoop
  rw [same,listed]
  split at ok
  · rename_i off
    cases ok
    rw [if_pos off]
    exact ⟨k,there off,rfl,rfl⟩
  · rename_i on
    rw [if_neg on]
    simp only [erase_count placed distinct] at ok
    have gone : (({s with connections := s.connections.filter fun e => e.1 ≠ names c} : Server).listed c) = false :=
      (erase_listed placed distinct c).trans (by simp)
    have erased (n : Nat) : (({s with connections := s.connections.filter fun e => e.1 ≠ names c} : Server).setConn c
        {k with acts := k.acts ++ [.removeConnectionInLoop n]}).Shows c k.loop
          {s.life c k with listed := false, acts := k.acts ++ [.removeConnectionInLoop n]} := by
      refine ⟨_,Function.update_self _ _ _,rfl,?_⟩
      change Life.of _ (({s with connections := s.connections.filter fun e => e.1 ≠ names c} : Server).listed c) _ _ _ = _
      rw [gone]
      rfl
    cases member : s.listed c with
    | true =>
      simp only [member,if_true] at ok ⊢
      exact (erased 1).queueInLoop_conn ok
    | false =>
      simp only [member,Bool.false_eq_true,if_false,Nat.zero_ne_one,Option.some.injEq] at ok ⊢
      subst ok
      exact member ▸ erased 0

theorem removeConnection (placed : Placed names s) (distinct : Function.Injective names) (found : s.conns c = some k)
    (home : k.loop = i) (ok : s.removeConnection names i c k = some u) :
    u.Shows c i (s.life c k).removeConnection := by
  have same : (s.life c k).destroyed = s.destroyed := rfl
  have away : (s.life c k).away = decide (k.loop ≠ 0) := rfl
  subst home
  unfold Server.removeConnection at ok
  simp only at ok
  unfold Life.removeConnection
  rw [same,away]
  split at ok
  · rename_i off
    cases ok
    rw [if_pos off]
    exact ⟨k,found,rfl,rfl⟩
  · rename_i on
    rw [if_neg on]
    split at ok
    · rename_i base
      rw [if_neg (by simpa using base)]
      exact removeConnectionInLoop placed distinct (fun off => absurd off on) ok
    · rename_i other
      rw [if_pos (by simpa using other)]
      exact (setConn s c {k with acts := k.acts ++ [.removeConnection]}).queueInLoop_removal ok

theorem settle {f : Option ConnFunctor} (s : Server) (c : Nat) (k : Conn) (b : TcpConnection) (home : k.loop = i)
    (ok : s.settle i c k (b,f) = some u) :
    u.Shows c i {s.life c k with conn := b, queue := (s.life c k).queue ++ f.toList} := by
  subst home
  have noted := setConn s c {k with conn := b}
  unfold Server.settle at ok
  cases f with
  | none =>
    cases ok
    rw [Option.toList_none,List.append_nil]
    exact noted
  | some g => exact noted.queueInLoop_conn ok

section
variable {d : Nat} {j : Nat} (other : d ≠ c)
include other

theorem conn_other (f : ConnFunctor) : (ServerFunctor.conn d f).of c = none := by simp [ServerFunctor.of,other]

theorem handleClose_other (shows : s.Shows c i a) (k : Conn) : (s.handleClose j d k).Shows c i a := by
  unfold Server.handleClose
  split
  · exact (shows.setConn_other other _).enter_other j (by simp [other]) nofun nofun
  · exact shows.setConn_other other _

theorem connectEstablished_other (shows : s.Shows c i a) (k : Conn) : (s.connectEstablished d k).Shows c i a := by
  unfold Server.connectEstablished
  split <;> exact shows.setConn_other other _

theorem remove_other (shows : s.Shows c i a) (k : Conn) : (s.remove j d k).Shows c i a := by
  unfold Server.remove
  simp only
  split
  · exact (shows.setConn_other other _).removeChannel _ _
  · exact shows.setConn_other other _

theorem connectDestroyed_other (shows : s.Shows c i a) (k : Conn) : (s.connectDestroyed j d k).Shows c i a := by
  unfold Server.connectDestroyed
  split
  · exact (shows.setConn_other other _).enter_other j nofun (by simp [other]) nofun
  · exact shows.remove_other other _

theorem removeConnectionInLoop_other (shows : s.Shows c i a) (placed : Placed names s)
    (distinct : Function.Injective names) (ok : s.removeConnectionInLoop names d k = some u) : u.Shows c i a := by
  unfold Server.removeConnectionInLoop at ok
  split at ok
  · cases ok
    exact shows
  · simp only at ok
    have same := (erase_listed (c := c) placed distinct d).trans (by simp [Ne.symm other] : _ = s.listed c)
    have erased := (shows.connections same).setConn_other other {k with
      acts := k.acts ++ [.removeConnectionInLoop (s.connections.filter fun e => e.1 = names d).length]}
    split at ok
    · exact erased.queueInLoop_other ok (conn_other other _) nofun
    · cases ok
      exact erased

theorem removeConnection_other (shows : s.Shows c i a) (placed : Placed names s)
    (distinct : Function.Injective names) (ok : s.removeConnection names j d k = some u) : u.Shows c i a := by
  unfold Server.removeConnection at ok
  simp only at ok
  split at ok
  · cases ok
    exact shows
  · split at ok
    · exact shows.removeConnectionInLoop_other other placed distinct ok
    · exact (shows.setConn_other other _).queueInLoop_other ok rfl (by simp [other])

theorem settle_other (shows : s.Shows c i a) {r : TcpConnection × Option ConnFunctor}
    (ok : s.settle j d k r = some u) : u.Shows c i a := by
  unfold Server.settle at ok
  split at ok
  · cases ok
    exact shows.setConn_other other _
  · exact (shows.setConn_other other _).queueInLoop_other ok (conn_other other _) nofun

end

theorem newConnection_other (shows : s.Shows c i a) (placed : Placed names s) (distinct : Function.Injective names)
    {io : Nat} (ok : s.newConnection names io = some u) : u.Shows c i a := by
  have other : s.nextConnId ≠ c := by
    obtain ⟨k,found,_,_⟩ := shows
    exact Ne.symm (placed.fresh c k found).ne
  have same : ((Keyed.insert Prod.fst (s.connections.filter fun e => e.1 ≠ names s.nextConnId)
      (names s.nextConnId,s.nextConnId)).any fun e => e.2 = c) = s.listed c := by
    rw [(Keyed.perm_insert Prod.fst _ _).any_eq,List.any_cons,erase_listed placed distinct]
    simp [other,Ne.symm other]
  have numbered : ({s with nextConnId := s.nextConnId+1} : Server).Shows c i a := shows
  have listed := (numbered.connections same).setConn_other other ⟨io,newTcpConnection s.writeCompleteCallback,[]⟩
  unfold Server.newConnection at ok
  simp only at ok
  split at ok
  · cases ok
    exact listed.connectEstablished_other other _
  · exact listed.queueInLoop_other ok (conn_other other _) nofun

end Server.Shows

/-- The cause is about the connection, or takes it from the list. -/
def Cause.concerns (th : IoThread) (c : Nat) (cause : Cause) : Prop :=
  cause.about th c ∨ cause = .functor (.removeConnectionInLoop c)

/-- Code that is not about a connection leaves its life alone. -/
theorem piece_other (placed : Placed names s) (distinct : Function.Injective names) {j : Nat} {cause : Cause}
    (piece : Piece names s j cause u) (apart : ¬ cause.concerns (s.threads j) c) (shows : s.Shows c i a) :
    u.Shows c i a := by
  have unlike {d : Nat} (about : cause.about (s.threads j) d) : d ≠ c := by
    rintro rfl
    exact apart (.inl about)
  cases piece with
  | skip _ plain => exact shows
  | timer _ plain timers => exact shows.setThread rfl
  | conn _ plain d k b f acts found op calm about u settled => exact shows.settle_other (unlike about) settled
  | delay d k timers found live => exact (shows.setConn_other (unlike rfl) _).setThread rfl
  | handleClose _ d k acts found closes => exact shows.handleClose_other (unlike closes.about) _
  | connectEstablished d k found => exact shows.connectEstablished_other (unlike rfl) _
  | connectDestroyed d k found => exact shows.connectDestroyed_other (unlike rfl) _
  | removeConnectionInLoop d k found u ok =>
    refine shows.removeConnectionInLoop_other ?_ placed distinct ok
    rintro rfl
    exact apart (.inr rfl)
  | closeCallback d k found u ok => exact shows.removeConnection_other (unlike rfl) placed distinct ok
  | remove d k found => exact shows.remove_other (unlike rfl) _
  | accept r io on here u ok => exact shows.newConnection_other placed distinct ok
  | dangling r off here => exact shows

theorem view_stack (th : IoThread) (frame : Frame) (rest : List Frame) (next : th.stack = frame::rest) :
    th.view c = {({th with stack := rest} : IoThread).view c with
      closing := (({th with stack := rest} : IoThread).view c).closing + if frame = .closeCallback c then 1 else 0
      removing := (({th with stack := rest} : IoThread).view c).removing + if frame = .remove c then 1 else 0
      destructing := frame = .destructor || (({th with stack := rest} : IoThread).view c).destructing} := by
  have entered := view_enter (c := c) {th with stack := rest} frame
  simpa only [← next] using entered

theorem view_run {loop : EventLoop ServerFunctor} {p : Push ServerFunctor} (th : IoThread)
    (next : th.loop.functors.head? = some p) (move : LoopMove fd th.loop .run loop) :
    th.view c = {({th with loop := loop} : IoThread).view c with
      queue := (p.functor.of c).toList ++ (({th with loop := loop} : IoThread).view c).queue
      removals := (({th with loop := loop} : IoThread).view c).removals +
        if p.functor = .removeConnectionInLoop c then 1 else 0} := by
  obtain ⟨q,first,queue⟩ := queued_run fd _ _ move
  rw [next] at first
  cases first
  cases of : p.functor.of c <;> simp [IoThread.view,queue,List.countP_cons,of]

theorem pop_other {j : Nat} {cause : Cause} (pop : Pop fd s j cause v) (apart : ¬ cause.concerns (s.threads j) c)
    (base : cause ≠ .frame .destructor) (shows : s.Shows c i a) : v.Shows c i a := by
  cases pop with
  | user d api => exact shows
  | timer d timers => exact shows.setThread rfl
  | handler h r hs empty next =>
    have current : (s.threads j).current ≠ some (.conn c) := fun here => apart (.inl here)
    exact shows.setThread (by simp [IoThread.view,current])
  | functor p loop empty next move =>
    have functor : p.functor.of c = none := by
      cases functor : p.functor with
      | conn d f =>
        have other : d ≠ c := by
          rintro rfl
          exact apart (.inl (by rw [functor]; rfl))
        exact Server.Shows.conn_other other f
      | _ => rfl
    have removal : p.functor ≠ .removeConnectionInLoop c := fun same => apart (.inr (by rw [same]))
    refine shows.setThread ?_
    rw [view_run (s.threads j) next move,functor,if_neg removal]
    simp
  | frame frame rest next =>
    have closing : frame ≠ .closeCallback c := by
      rintro rfl
      exact apart (.inl rfl)
    have removing : frame ≠ .remove c := by
      rintro rfl
      exact apart (.inl rfl)
    have other : frame ≠ .destructor := by
      rintro rfl
      exact base rfl
    refine shows.setThread ?_
    rw [view_stack (s.threads j) frame rest next]
    simp [closing,removing,other]

namespace Server.Shows

theorem pop_handler (shows : s.Shows c i a) {h : Handler} {hs : List Handler}
    (current : (s.threads i).current = some (.conn c)) (next : (s.threads i).handlers = h::hs) :
    a.pending = h::hs ∧ (s.setThread i {s.threads i with handlers := hs}).Shows c i {a with pending := hs} := by
  obtain ⟨k,found,rfl,rfl⟩ := shows
  refine ⟨by simp [Server.life,Life.of,IoThread.view,current,next],k,found,rfl,?_⟩
  rw [life_home (w := {(s.threads k.loop).view c with pending := hs}) rfl (by simp [IoThread.view,current]) rfl rfl]
  rfl

theorem pop_functor (shows : s.Shows c i a) {loop : EventLoop ServerFunctor} {p : Push ServerFunctor} {f : ConnFunctor}
    (next : (s.threads i).loop.functors.head? = some p) (move : LoopMove fd (s.threads i).loop .run loop)
    (functor : p.functor = .conn c f) :
    ∃ rest, a.queue = f::rest ∧ (s.setLoop i loop).Shows c i {a with queue := rest} := by
  obtain ⟨k,found,rfl,rfl⟩ := shows
  have view := view_run (c := c) (s.threads k.loop) next move
  simp only [functor,ServerFunctor.of,if_true,Option.toList_some,reduceCtorEq,if_false,Nat.add_zero] at view
  refine ⟨_,congrArg View.queue view,k,found,rfl,(life_home rfl rfl (by rw [view]) (by rw [view])).trans ?_⟩
  simp [Server.life,Life.of,view]

theorem pop_removal (shows : s.Shows c i a) {loop : EventLoop ServerFunctor} {p : Push ServerFunctor}
    (next : (s.threads 0).loop.functors.head? = some p) (move : LoopMove fd (s.threads 0).loop .run loop)
    (functor : p.functor = .removeConnectionInLoop c) :
    ∃ n, a.removals = n+1 ∧ (s.setLoop 0 loop).Shows c i {a with removals := n} := by
  obtain ⟨k,found,rfl,rfl⟩ := shows
  have view := view_run (c := c) (s.threads 0) next move
  simp only [functor,ServerFunctor.of,if_true,Option.toList_none,List.nil_append] at view
  refine ⟨_,congrArg View.removals view,k,found,rfl,(life_base rfl (by rw [view]) (by rw [view]) (by rw [view])
    (by rw [view]) (by rw [view])).trans ?_⟩
  simp [Server.life,Life.of,view]

theorem pop_closing (shows : s.Shows c i a) {rest : List Frame} (next : (s.threads i).stack = .closeCallback c::rest) :
    ∃ n, a.closing = n+1 ∧ (s.setStack i rest).Shows c i {a with closing := n} := by
  obtain ⟨k,found,rfl,rfl⟩ := shows
  have view := view_stack (c := c) (s.threads k.loop) _ rest next
  simp only [if_true,reduceCtorEq,if_false,Nat.add_zero,decide_false,Bool.false_or] at view
  refine ⟨_,congrArg View.closing view,k,found,rfl,(life_home rfl rfl (by rw [view]) (by rw [view])).trans ?_⟩
  simp [Server.life,Life.of,view]

theorem pop_removing (shows : s.Shows c i a) {rest : List Frame} (next : (s.threads i).stack = .remove c::rest) :
    ∃ n, a.removing = n+1 ∧ (s.setStack i rest).Shows c i {a with removing := n} := by
  obtain ⟨k,found,rfl,rfl⟩ := shows
  have view := view_stack (c := c) (s.threads k.loop) _ rest next
  simp only [if_true,reduceCtorEq,if_false,Nat.add_zero,decide_false,Bool.false_or] at view
  refine ⟨_,congrArg View.removing view,k,found,rfl,(life_home rfl rfl (by rw [view]) (by rw [view])).trans ?_⟩
  simp [Server.life,Life.of,view]

end Server.Shows

section
variable {l : ServerLabel} {j : Nat} {cause : Cause}

theorem pop_current (pop : Pop fd s j cause v) : (v.threads j).current = (s.threads j).current := by
  cases pop <;> simp [Server.setLoop,Server.setStack,setThread_threads]

theorem pop_conns (pop : Pop fd s j cause v) : v.conns = s.conns := by
  cases pop <;> rfl

/-- The destructor of the server has been entered. -/
def Server.begun (s : Server) : Bool := .destructor ∈ (s.threads 0).stack || s.destroyed

theorem setThread_begun {th : IoThread} (stack : .destructor ∈ th.stack → .destructor ∈ (s.threads j).stack)
    (begun : (s.setThread j th).begun = true) : s.begun = true := by
  simp only [Server.begun,setThread_threads,Bool.or_eq_true,decide_eq_true_eq] at begun ⊢
  rcases begun with inside | off
  · split at inside
    · rename_i here
      exact .inl (here ▸ stack inside)
    · exact .inl inside
  · exact .inr off

/-- No connection becomes known, no call is begun, and the destructor of the server is not entered. -/
structure Within (before after : Server) : Prop where
  knows : ∀ c, before.conns c = none → after.conns c = none
  begun : after.begun = true → before.begun = true
  calls : after.calls = before.calls

namespace Within

theorem refl (s : Server) : Within s s := ⟨fun _ => id,id,rfl⟩

theorem setConn (within : Within s v) (found : s.conns c = some k) (b : Conn) : Within s (v.setConn c b) := by
  refine ⟨fun d absent => ?_,within.begun,within.calls⟩
  have other : d ≠ c := by
    rintro rfl
    rw [absent] at found
    cases found
  simpa [Server.setConn,other] using within.knows d absent

theorem setThread (within : Within s v) {th : IoThread} (stack : .destructor ∈ th.stack → .destructor ∈ (v.threads j).stack) :
    Within s (v.setThread j th) :=
  ⟨within.knows,fun begun => within.begun (setThread_begun stack begun),within.calls⟩

theorem queueInLoop (within : Within s v) {t : Nat} {f : ServerFunctor} (ok : v.queueInLoop j t f = some u) :
    Within s u := by
  obtain ⟨_,⟨⟩⟩ := Option.ite_none_right_eq_some.mp ok
  exact within.setThread id

theorem enter (within : Within s v) {frame : Frame} (other : frame ≠ .destructor) : Within s (v.enter j frame) :=
  within.setThread fun member => (List.mem_cons.mp member).resolve_left (Ne.symm other)

theorem removeChannel (within : Within s v) (ch : Chan) : Within s (v.removeChannel j ch) := by
  unfold Server.removeChannel
  simp only
  split
  · exact {within with}
  · exact within.setThread id

theorem remove (within : Within s v) {b : Conn} (found : s.conns c = some k) : Within s (v.remove j c b) := by
  have noted := within.setConn found {b with acts := b.acts ++ [.remove b.conn.channel.isNoneEvent]}
  unfold Server.remove
  simp only
  split
  · exact noted.removeChannel _
  · exact {noted with}

theorem connectEstablished (within : Within s v) {b : Conn} (found : s.conns c = some k) :
    Within s (v.connectEstablished c b) := by
  unfold Server.connectEstablished
  split
  · exact within.setConn found _
  · exact {within.setConn found {b with acts := b.acts ++ [.connectEstablished]} with}

theorem connectDestroyed (within : Within s v) (found : s.conns c = some k) : Within s (v.connectDestroyed j c k) := by
  unfold Server.connectDestroyed
  split
  · exact (within.setConn found _).enter nofun
  · exact within.remove found

theorem removeConnectionInLoop (within : Within s v) {b : Conn} (found : s.conns c = some k)
    (ok : v.removeConnectionInLoop names c b = some u) : Within s u := by
  have erased : Within s {v with connections := v.connections.filter fun e => e.1 ≠ names c} := {within with}
  unfold Server.removeConnectionInLoop at ok
  split at ok
  · cases ok
    exact {within with}
  · simp only at ok
    split at ok
    · exact (erased.setConn found _).queueInLoop ok
    · cases ok
      exact {erased.setConn found {b with
        acts := b.acts ++ [.removeConnectionInLoop (v.connections.filter fun e => e.1 = names c).length]} with}

theorem handleClose (within : Within s v) {b : Conn} (found : s.conns c = some k) : Within s (v.handleClose j c b) := by
  unfold Server.handleClose
  split
  · exact (within.setConn found _).enter nofun
  · exact {within.setConn found {b with acts := b.acts ++ [.handleClose]} with}

theorem settle (within : Within s v) {b : Conn} {r : TcpConnection × Option ConnFunctor} (found : s.conns c = some k)
    (ok : v.settle j c b r = some u) : Within s u := by
  unfold Server.settle at ok
  split at ok
  · cases ok
    exact within.setConn found _
  · exact (within.setConn found _).queueInLoop ok

theorem removeConnection (within : Within s v) {b : Conn} (found : s.conns c = some k)
    (ok : v.removeConnection names j c b = some u) : Within s u := by
  unfold Server.removeConnection at ok
  simp only at ok
  split at ok
  · cases ok
    exact {within with}
  · split at ok
    · exact within.removeConnectionInLoop found ok
    · exact (within.setConn found _).queueInLoop ok

end Within

/-- Connections become known in `newConnection` only. -/
theorem piece_within (piece : Piece names s j cause u) :
    Within s u ∨ ∃ r io, cause = .handler .read r ∧ s.destroyed = false ∧ (s.threads j).current = some .acceptor ∧
      s.newConnection names io = some u := by
  have same := Within.refl s
  cases piece with
  | accept r io on here u ok => exact .inr ⟨r,io,rfl,on,here,ok⟩
  | skip _ plain => exact .inl same
  | timer _ plain timers => exact .inl (same.setThread id)
  | dangling r off here => exact .inl {same with}
  | conn _ plain c k b f acts found op calm about u settled => exact .inl (same.settle found settled)
  | delay c k timers found live => exact .inl ((same.setConn found _).setThread id)
  | handleClose _ c k acts found closes => exact .inl (same.handleClose found)
  | connectEstablished c k found => exact .inl (same.connectEstablished found)
  | connectDestroyed c k found => exact .inl (same.connectDestroyed found)
  | removeConnectionInLoop c k found u ok => exact .inl (same.removeConnectionInLoop found ok)
  | closeCallback c k found u ok => exact .inl (same.removeConnection found ok)
  | remove c k found => exact .inl (same.remove found)

theorem pop_within (pop : Pop fd s j cause v) : Within s v := by
  have same := Within.refl s
  cases pop with
  | user c api => exact same
  | timer c timers => exact same.setThread id
  | handler h r hs empty next => exact same.setThread id
  | functor p loop empty next move => exact same.setThread id
  | frame frame rest next => exact same.setThread fun member => by simp [next,member]

theorem Within.trans {w : Server} (first : Within s v) (second : Within v w) : Within s w :=
  ⟨fun c absent => second.knows c (first.knows c absent),fun begun => first.begun (second.begun begun),
    second.calls.trans first.calls⟩

/-- The server of `newConnection` when the connection is given to its loop. -/
def Server.enlist (names : Nat → String) (s : Server) (io : Nat) : Server :=
  ({s with
    nextConnId := s.nextConnId+1
    connections := Keyed.insert Prod.fst (s.connections.filter fun e => e.1 ≠ names s.nextConnId)
      (names s.nextConnId,s.nextConnId)} : Server).setConn s.nextConnId ⟨io,newTcpConnection s.writeCompleteCallback,[]⟩

theorem newConnection_eq (io : Nat) : s.newConnection names io =
    if io = 0 then
      some ((s.enlist names io).connectEstablished s.nextConnId ⟨io,newTcpConnection s.writeCompleteCallback,[]⟩)
    else (s.enlist names io).queueInLoop io 0 (.conn s.nextConnId .connectEstablished) := rfl

theorem newConnection_begun {io : Nat} (ok : s.newConnection names io = some u) :
    (u.begun = true → s.begun = true) ∧ u.calls = s.calls := by
  rw [newConnection_eq] at ok
  split at ok
  · cases ok
    unfold Server.connectEstablished
    split <;> exact ⟨id,rfl⟩
  · have within := (Within.refl (s.enlist names io)).queueInLoop ok
    exact ⟨within.begun,within.calls⟩

theorem newConnection_others {io : Nat} (ok : s.newConnection names io = some u) (other : c ≠ s.nextConnId) :
    u.conns c = s.conns c := by
  rw [newConnection_eq] at ok
  split at ok
  · cases ok
    unfold Server.connectEstablished
    split <;> simp [Server.enlist,Server.setConn,Server.fail,other]
  · obtain ⟨_,⟨⟩⟩ := Option.ite_none_right_eq_some.mp ok
    simp [Server.enlist,Server.setConn,Server.setLoop,Server.setThread,other]

theorem move_knows (move : ServerMove fd names s l u) :
    (∀ c, s.conns c = none → u.conns c = none) ∨
    ∃ j h hs io, (s.threads j).stack = [] ∧ s.destroyed = false ∧ (s.threads j).current = some .acceptor ∧
      (s.threads j).handlers = h::hs ∧
      (s.setThread j {s.threads j with handlers := hs}).newConnection names io = some u := by
  have same := Within.refl s
  cases move with
  | loop j ll loop passes move => exact .inl fun _ => id
  | poll j woken ready loop distinct registered move => exact .inl fun _ => id
  | dispatch j ch r rest next here empty done => exact .inl fun _ => id
  | begin t d api w k found away => exact .inl fun _ => id
  | destroy user on absent => exact .inl fun _ => id
  | destructed r stack next all =>
    have popped : Within s (s.setStack 0 stack) := same.setThread fun member => by simp [next,member]
    exact .inl (popped.removeChannel .acceptor).knows
  | code _ j cause v u user own why pop piece =>
    have conns := pop_conns pop
    rcases piece_within piece with within | ⟨r,io,rfl,on,current,ok⟩
    · exact .inl ((pop_within pop).trans within).knows
    · cases pop with
      | handler h r hs empty next =>
        exact .inr ⟨j,.read,hs,io,empty,on,by simpa [setThread_threads] using current,next,ok⟩
  | take r name d k rest stack next first found home =>
    have taken : Within s {s with connections := rest} := {same with}
    exact .inl (taken.connectDestroyed found).knows
  | takeAway r name d k rest stack next first found away u ok =>
    have taken : Within s {s with connections := rest} := {same with}
    exact .inl (taken.queueInLoop ok).knows
  | setState t d f k call found => exact .inl (same.setConn found _).knows
  | push t d f k call found u ok =>
    have done := fun c (absent : s.conns c = none) => absent
    obtain ⟨_,⟨⟩⟩ := Option.ite_none_right_eq_some.mp ok
    exact .inl done

/-- The destructor of the server is entered by `destroy` only. -/
theorem move_begun (move : ServerMove fd names s l u) (other : l ≠ .destroy) (begun : u.begun = true) : s.begun = true := by
  have same := Within.refl s
  have on {stack : List Frame} (next : (s.threads 0).stack = .destructor::stack) : s.begun = true := by
    simp [Server.begun,next]
  have still (within : Within s u) : s.begun = true := within.begun begun
  cases move with
  | loop j ll loop passes move => exact still (same.setThread id)
  | poll j woken ready loop distinct registered move => exact still (same.setThread id)
  | dispatch j ch r rest next here empty done => exact still (same.setThread id)
  | begin t d api w k found away => exact begun
  | destroy user on absent => exact absurd rfl other
  | destructed r stack next all => exact on next
  | code _ j cause v u user own why pop piece =>
    have popped := pop_within pop
    rcases piece_within piece with within | ⟨r,io,rfl,_,current,ok⟩
    · exact still (popped.trans within)
    · exact popped.begun ((newConnection_begun ok).1 begun)
  | take r name d k rest stack next first found home => exact on next
  | takeAway r name d k rest stack next first found away u ok => exact on next
  | setState t d f k call found => exact begun
  | push t d f k call found u ok =>
    have done : Within (s.setCall t none) u := (Within.refl _).queueInLoop ok
    exact done.begun begun

/-- The connection of a call. -/
def Call.conn : Call → Nat
  | .setState c _ | .push c _ => c

theorem call_conn {state : StateE} {api : Api} {x : Call} (call : Server.Api.call c state api = some x) : x.conn = c := by
  cases api <;> simp only [Server.Api.call] at call <;> grind [Call.conn]

/-- A call that is under way was so before, or a thread has begun it on a connection of another loop. -/
theorem move_calls (move : ServerMove fd names s l u) {t : Nat} {x : Call} (call : u.calls t = some x) :
    (∃ y, s.calls t = some y ∧ y.conn = x.conn) ∨
      ∃ api w k, l = .call t x.conn api w ∧ s.conns x.conn = some k ∧ t ≠ k.loop := by
  have same := Within.refl s
  have still (calls : u.calls = s.calls) : (∃ y, s.calls t = some y ∧ y.conn = x.conn) ∨
      ∃ api w k, l = .call t x.conn api w ∧ s.conns x.conn = some k ∧ t ≠ k.loop := .inl ⟨x,calls ▸ call,rfl⟩
  cases move with
  | loop j ll loop passes move => exact still rfl
  | poll j woken ready loop distinct registered move => exact still rfl
  | dispatch j ch r rest next here empty done => exact still rfl
  | begin t' d api w k found away =>
    by_cases mine : t = t'
    · subst mine
      have begun : Server.Api.call d k.conn.state api = some x := by simpa [Server.setCall] using call
      cases call_conn begun
      exact .inr ⟨api,w,k,rfl,found,away⟩
    · exact .inl ⟨x,by simpa [Server.setCall,mine] using call,rfl⟩
  | destroy user on absent => exact still rfl
  | destructed r stack next all =>
    have popped : Within s (s.setStack 0 stack) := same.setThread fun member => by simp [next,member]
    exact still (popped.removeChannel .acceptor).calls
  | code _ j cause v u user own why pop piece =>
    have popped := pop_within pop
    rcases piece_within piece with within | ⟨r,io,rfl,_,current,ok⟩
    · exact still (popped.trans within).calls
    · exact still ((newConnection_begun ok).2.trans popped.calls)
  | take r name d k rest stack next first found home =>
    have taken : Within s {s with connections := rest} := {same with}
    exact still (taken.connectDestroyed found).calls
  | takeAway r name d k rest stack next first found away u ok =>
    have taken : Within s {s with connections := rest} := {same with}
    exact still (taken.queueInLoop ok).calls
  | setState t' d f k before found =>
    by_cases mine : t = t'
    · subst mine
      have after : Call.push d f = x := by simpa [Server.setCall] using call
      exact .inl ⟨_,before,by rw [← after]; rfl⟩
    · exact .inl ⟨x,by simpa [Server.setCall,Server.setConn,mine] using call,rfl⟩
  | push t' d f k before found u ok =>
    rw [((Within.refl (s.setCall t' none)).queueInLoop ok).calls] at call
    by_cases mine : t = t'
    · simp [Server.setCall,mine] at call
    · exact .inl ⟨x,by simpa [Server.setCall,mine] using call,rfl⟩

/-- Nobody has anything of a connection that is not known. -/
theorem absent_view (placed : Placed names s) (absent : s.conns c = none) (j : Nat) :
    (s.threads j).view c = ⟨[],0,0,0,[],[],.destructor ∈ (s.threads j).stack⟩ := by
  have nobody {i : Nat} (belongs : BelongsTo s.conns i c) : False := by
    obtain ⟨k,found,_⟩ := belongs
    rw [absent] at found
    cases found
  have thread := placed.threads j
  have queue : ((s.threads j).view c).queue = [] := by
    refine List.filterMap_eq_nil_iff.mpr fun p member => ?_
    have inside := thread.queued p member
    cases functor : p.functor with
    | conn d f =>
      rw [functor] at inside
      obtain ⟨k,found,loop,_⟩ := inside
      refine Server.Shows.conn_other ?_ f
      rintro rfl
      exact nobody ⟨k,found,loop⟩
    | _ => rfl
  have removals : ((s.threads j).view c).removals = 0 := by
    refine List.countP_eq_zero.mpr fun p member => ?_
    have inside := thread.queued p member
    simp only [decide_eq_true_eq]
    intro functor
    rw [functor] at inside
    obtain ⟨_,k,found⟩ := inside
    exact nobody ⟨k,found,rfl⟩
  have closing : ((s.threads j).view c).closing = 0 :=
    List.count_eq_zero.mpr fun member => nobody (thread.stack _ member)
  have removing : ((s.threads j).view c).removing = 0 :=
    List.count_eq_zero.mpr fun member => nobody (thread.stack _ member)
  have waiting : ((s.threads j).view c).waiting = [] := by
    refine List.filterMap_eq_nil_iff.mpr fun e member => if_neg fun channel => ?_
    have inside := thread.ready e.1 (List.mem_map_of_mem member)
    rw [channel] at inside
    exact nobody inside
  have pending : ((s.threads j).view c).pending = [] :=
    if_neg fun current => nobody (thread.current (.conn c) current)
  change View.mk ((s.threads j).view c).queue ((s.threads j).view c).removals ((s.threads j).view c).closing
    ((s.threads j).view c).removing ((s.threads j).view c).waiting ((s.threads j).view c).pending _ = _
  rw [queue,removals,closing,removing,waiting,pending]

theorem enlist_life (placed : Placed names s) (on : s.destroyed = false) (empty : (s.threads 0).stack = []) (io : Nat) :
    (s.enlist names io).life s.nextConnId ⟨io,newTcpConnection s.writeCompleteCallback,[]⟩ =
      ⟨newTcpConnection s.writeCompleteCallback,[],io ≠ 0,true,[],0,0,0,[],[],false,false⟩ := by
  have view := absent_view placed placed.next_absent
  have listed : (s.enlist names io).listed s.nextConnId = true :=
    List.any_eq_true.mpr ⟨(names s.nextConnId,s.nextConnId),(Keyed.mem_insert Prod.fst).mpr (.inl rfl),by simp⟩
  change Life.of _ ((s.enlist names io).listed s.nextConnId) ((s.threads io).view s.nextConnId)
    ((s.threads 0).view s.nextConnId) s.destroyed = _
  rw [listed,view,view,on,empty]
  simp [Life.of]

theorem newConnection_born (placed : Placed names s) (on : s.destroyed = false) (empty : (s.threads 0).stack = [])
    {io : Nat} (ok : s.newConnection names io = some u) :
    u.Shows s.nextConnId io (.born (io ≠ 0) s.writeCompleteCallback) := by
  have life := enlist_life placed on empty io
  rw [newConnection_eq] at ok
  split at ok
  · rename_i base
    subst base
    cases ok
    have shown := Server.Shows.connectEstablished (s.enlist names 0) s.nextConnId
      ⟨0,newTcpConnection s.writeCompleteCallback,[]⟩
    rwa [life] at shown
  · rename_i away
    have shown : (s.enlist names io).Shows s.nextConnId io _ := ⟨_,Function.update_self _ _ _,rfl,life⟩
    have queued := shown.queueInLoop_conn ok
    simpa [Life.born,away] using queued

end

end

end Reactor.Net
