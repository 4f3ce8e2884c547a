import Mathlib.Data.List.TakeWhile
import Reactor.Net.ServerMove

/-! The life of one connection. A `Life` is what the server has of it: the connection
itself, its entry in `connections_`, its functors in the queues, the functions under way
and the events reported for it. The phases say how these go together. -/
namespace Reactor.Net

/-- POLLHUP without POLLIN asks for the close handler; POLLPRI and POLLRDHUP ask for the read handler behind it. -/
def Revents.torn (r : Revents) : Bool := r.pollHup && !r.pollIn && (r.pollPri || r.pollRdhup)

/-- The handlers that may come to `handleClose`. -/
def Handler.closes : Handler → Bool
  | .close | .read => true
  | _ => false

theorem handlers_closes (r : Revents) (whole : r.torn = false) : r.handlers.countP Handler.closes ≤ 1 := by
  have counts : r.handlers.countP Handler.closes =
      (if r.pollHup && !r.pollIn then 1 else 0) + (if r.pollIn || r.pollPri || r.pollRdhup then 1 else 0) := by
    simp only [Revents.handlers,List.countP_append,apply_ite (List.countP Handler.closes),List.countP_nil]
    simp [Handler.closes]
  rw [counts]
  cases hup : r.pollHup <;> cases pollIn : r.pollIn <;> simp_all [Revents.torn]
  split <;> simp

theorem handlers_close (r : Revents) : .close ∉ r.handlers.tail := by
  unfold Revents.handlers
  split <;> split <;> split <;> split <;> decide

/-- The acts that the phases of a connection are told by. -/
def Act.milestone : Act → Bool
  | .connectEstablished | .connectionCallback _ | .handleClose | .removeConnectionInLoop _ => true
  | .connectDestroyed _ | .remove _ => true
  | _ => false

def Act.reads : Act → Bool
  | .handleRead _ | .messageCallback => true
  | _ => false

/-- `removals` counts `removeConnectionInLoop` in the queue of the base loop, `closing` and
`removing` the calls of `handleClose` and `connectDestroyed` that wait for a callback of the
user. `begun` tells that the destructor of the server has been entered. -/
structure Life where
  conn : TcpConnection
  acts : List Act
  away : Bool
  listed : Bool
  queue : List ConnFunctor
  removals : Nat
  closing : Nat
  removing : Nat
  waiting : List Revents
  pending : List Handler
  begun : Bool
  destroyed : Bool

namespace Life

def handleClose (a : Life) : Life :=
  if a.conn.state.isOpen then
    {a with
      conn := a.conn.handleClose, acts := a.acts ++ [.handleClose,.connectionCallback false], closing := a.closing+1}
  else {a with acts := a.acts ++ [.handleClose]}

def connectEstablished (a : Life) : Life :=
  if a.conn.state = .kConnecting then
    {a with conn := a.conn.connectEstablished, acts := a.acts ++ [.connectEstablished,.connectionCallback true]}
  else {a with acts := a.acts ++ [.connectEstablished]}

def remove (a : Life) : Life := {a with acts := a.acts ++ [.remove a.conn.channel.isNoneEvent]}

def connectDestroyed (a : Life) : Life :=
  if a.conn.state = .kConnected then
    {a with
      conn := {a.conn with state := .kDisconnected, channel := a.conn.channel.disableAll}
      acts := a.acts ++ [.connectDestroyed a.conn.state,.connectionCallback false]
      removing := a.removing+1}
  else ({a with acts := a.acts ++ [.connectDestroyed a.conn.state]} : Life).remove

def removeConnectionInLoop (a : Life) : Life :=
  if a.destroyed then a
  else if a.listed then
    {a with
      listed := false, acts := a.acts ++ [.removeConnectionInLoop 1], queue := a.queue ++ [.connectDestroyed]}
  else {a with acts := a.acts ++ [.removeConnectionInLoop 0]}

def removeConnection (a : Life) : Life :=
  if a.destroyed then a
  else if a.away then {a with acts := a.acts ++ [.removeConnection], removals := a.removals+1}
  else ({a with acts := a.acts ++ [.removeConnection]} : Life).removeConnectionInLoop

/-- A connection that has just been accepted. -/
def born (away writeCompleteCallback : Bool) : Life :=
  let a : Life := ⟨newTcpConnection writeCompleteCallback,[],away,true,[],0,0,0,[],[],false,false⟩
  if away then {a with queue := [.connectEstablished]} else a.connectEstablished

end Life

/-- What code without a part in the life takes up, what it leaves behind and what it records. -/
inductive Plain (a : Life) : List ConnFunctor → List Handler → List Act → Prop
  | user : Plain a a.queue a.pending []
  | functor (f : ConnFunctor) (rest : List ConnFunctor) (next : a.queue = f::rest) (plain : f.token = false) :
      Plain a rest a.pending []
  | handler (h : Handler) (rest : List Handler) (acts : List Act) (next : a.pending = h::rest)
      (calm : ∀ x ∈ acts, x.milestone = false) (reads : h.closes = false → ∀ x ∈ acts, x.reads = false) :
      Plain a a.queue rest acts

inductive Closing (a : Life) : List ConnFunctor → List Handler → List Act → Prop
  | close (rest : List Handler) (next : a.pending = .close::rest) : Closing a a.queue rest []
  | read (rest : List Handler) (next : a.pending = .read::rest) : Closing a a.queue rest [.handleRead 0]
  | force (rest : List ConnFunctor) (next : a.queue = .forceCloseInLoop::rest)
      (live : a.conn.state.isOpen = true) (quiet : a.pending = []) : Closing a rest [] []

/-- What is asked of the steps that make up a life. -/
inductive Rule
  | free
  | orderly (quiet : Bool)
  | decided
  deriving DecidableEq

/-- The server stays. -/
def Rule.stays : Rule → Bool
  | .orderly _ => true
  | _ => false

/-- What the step of the server is to the connection: its own code, a functor that another
thread pushes, the code that comes to `handleClose`, or the destructor that destroys it. -/
inductive Touch
  | code
  | push (f : ConnFunctor)
  | close
  | take
  deriving DecidableEq

/-- What can happen to a connection. By every rule but `free`, code leaves a closed
connection as it is. By the rule `orderly` the server stays, and no event asks for the
close handler and the read handler or, when it need not be quiet, the read handler finds
the end of the file only in an open connection. By the rule `decided` no connection is
destroyed that is disconnecting. -/
inductive LifeMove (rule : Rule) (a : Life) : Touch → Life → Prop
  | still : LifeMove rule a .code a
  | begin (ends : rule.stays = false) : LifeMove rule a .code {a with begun := true}
  | destructed (ends : rule.stays = false) (unlisted : a.listed = false) :
      LifeMove rule a .code {a with begun := true, destroyed := true}
  | report (rs : List Revents) (fresh : a.waiting = []) (some : rs ≠ [] → a.conn.channel.isNoneEvent = false)
      (whole : rule = .orderly true → ∀ r ∈ rs, r.torn = false) : LifeMove rule a .code {a with waiting := rs}
  | dispatch (r : Revents) (rest : List Revents) (next : a.waiting = r::rest) :
      LifeMove rule a .code {a with waiting := rest, pending := r.handlers}
  | push (f : ConnFunctor) (plain : f.token = false) : LifeMove rule a (.push f) {a with queue := a.queue ++ [f]}
  | code (queue : List ConnFunctor) (pending : List Handler) (acts : List Act) (b : TcpConnection)
      (fs : List ConnFunctor) (plain : Plain a queue pending acts)
      (keeps : rule ≠ .free → Keeps a.conn b) (own : ∀ f ∈ fs, f.callback = true) :
      LifeMove rule a .code {a with conn := b, acts := a.acts ++ acts, queue := queue ++ fs, pending := pending}
  | handleClose (queue : List ConnFunctor) (pending : List Handler) (acts : List Act)
      (closing : Closing a queue pending acts) (apart : a.waiting = [])
      (live : rule = .orderly false → a.pending.head? = some .read → a.conn.state.isOpen = true) :
      LifeMove rule a .close ({a with acts := a.acts ++ acts, queue := queue, pending := pending} : Life).handleClose
  | connectEstablished (rest : List ConnFunctor) (next : a.queue = .connectEstablished::rest) :
      LifeMove rule a .code ({a with queue := rest} : Life).connectEstablished
  | connectDestroyed (rest : List ConnFunctor) (next : a.queue = .connectDestroyed::rest)
      (found : rule = .decided → a.conn.state ≠ .kDisconnecting) :
      LifeMove rule a .code ({a with queue := rest} : Life).connectDestroyed
  | removeConnection (n : Nat) (next : a.closing = n+1) :
      LifeMove rule a .code ({a with closing := n} : Life).removeConnection
  | removeConnectionInLoop (n : Nat) (next : a.removals = n+1) :
      LifeMove rule a .code ({a with removals := n} : Life).removeConnectionInLoop
  | remove (n : Nat) (next : a.removing = n+1) : LifeMove rule a .code ({a with removing := n} : Life).remove
  | take (ends : rule.stays = false) (here : a.away = false) (listed : a.listed = true)
      (found : rule = .decided → a.conn.state ≠ .kDisconnecting) :
      LifeMove rule a .take ({a with listed := false} : Life).connectDestroyed
  | takeAway (ends : rule.stays = false) (away : a.away = true) (listed : a.listed = true) :
      LifeMove rule a .code {a with listed := false, queue := a.queue ++ [.connectDestroyed]}

section
variable {rule : Rule} {a b : Life} {touch : Touch}

theorem connectEstablished_counts (a : Life) :
    a.connectEstablished.closing = a.closing ∧ a.connectEstablished.removals = a.removals := by
  unfold Life.connectEstablished
  split <;> exact ⟨rfl,rfl⟩

theorem connectDestroyed_counts (a : Life) :
    a.connectDestroyed.closing = a.closing ∧ a.connectDestroyed.removals = a.removals := by
  unfold Life.connectDestroyed
  split <;> exact ⟨rfl,rfl⟩

theorem removeConnectionInLoop_counts (a : Life) :
    a.removeConnectionInLoop.closing = a.closing ∧ a.removeConnectionInLoop.removals = a.removals := by
  unfold Life.removeConnectionInLoop
  grind

/-- Only `handleClose` comes to its callback. -/
theorem LifeMove.closing_le (move : LifeMove rule a touch b) (other : touch ≠ .close) : b.closing ≤ a.closing := by
  cases move with
  | handleClose queue pending acts closing apart live => exact absurd rfl other
  | connectEstablished rest next => exact (connectEstablished_counts _).1.le
  | connectDestroyed rest next found => exact (connectDestroyed_counts _).1.le
  | take ends here listed found => exact (connectDestroyed_counts _).1.le
  | removeConnectionInLoop n next => exact (removeConnectionInLoop_counts _).1.le
  | removeConnection n next =>
    have fewer : n ≤ a.closing := by omega
    unfold Life.removeConnection
    split
    · exact fewer
    · split
      · exact fewer
      · exact (removeConnectionInLoop_counts _).1.le.trans fewer
  | _ => exact le_rfl

/-- Only `removeConnection` queues a removal, when the callback of `handleClose` returns. -/
theorem LifeMove.removals_le (move : LifeMove rule a touch b) (none : a.closing = 0) : b.removals ≤ a.removals := by
  cases move with
  | removeConnection n next => cases next.symm.trans none
  | handleClose queue pending acts closing apart live =>
    unfold Life.handleClose
    split <;> exact le_rfl
  | connectEstablished rest next => exact (connectEstablished_counts _).2.le
  | connectDestroyed rest next found => exact (connectDestroyed_counts _).2.le
  | take ends here listed found => exact (connectDestroyed_counts _).2.le
  | removeConnectionInLoop n next =>
    have fewer : n ≤ a.removals := by omega
    exact (removeConnectionInLoop_counts _).2.le.trans fewer
  | _ => exact le_rfl

end

/-- Where a connection is in its life, as long as the server stays. -/
inductive Phase
  | connecting | opened | closing | removing | destroying | destroyed
  deriving DecidableEq

namespace Phase

def listed : Phase → Bool
  | .connecting | .opened | .closing | .removing => true
  | _ => false

def tokens : Phase → List ConnFunctor
  | .connecting => [.connectEstablished]
  | .destroying => [.connectDestroyed]
  | _ => []

def removals (p : Phase) : Nat := if p = .removing then 1 else 0

def closings (p : Phase) : Nat := if p = .closing then 1 else 0

/-- The milestones behind the connection. -/
def miles : Phase → List Act
  | .connecting => []
  | .opened => [.connectEstablished,.connectionCallback true]
  | .closing | .removing => [.connectEstablished,.connectionCallback true,.handleClose,.connectionCallback false]
  | .destroying =>
    [.connectEstablished,.connectionCallback true,.handleClose,.connectionCallback false,.removeConnectionInLoop 1]
  | .destroyed =>
    [.connectEstablished,.connectionCallback true,.handleClose,.connectionCallback false,.removeConnectionInLoop 1,
      .connectDestroyed .kDisconnected,.remove true]

def state : Phase → StateE → Bool
  | .connecting, state => state = .kConnecting
  | .opened, state => state.isOpen
  | _, state => state = .kDisconnected

/-- The phases behind `handleClose`. -/
def shut : Phase → Bool
  | .closing | .removing | .destroying | .destroyed => true
  | _ => false

end Phase

/-- What was done to a connection behind its first `handleClose`. -/
def afterClose (acts : List Act) : List Act := (acts.dropWhile (· ≠ .handleClose)).tail

structure InPhase (p : Phase) (a : Life) : Prop where
  listed : a.listed = p.listed
  tokens : a.queue.filter ConnFunctor.token = p.tokens
  removals : a.removals = p.removals
  closing : a.closing = p.closings
  removing : a.removing = 0
  miles : a.acts.filter Act.milestone = p.miles
  state : p.state a.conn.state = true
  idle : a.conn.state.isOpen = false → a.conn.channel.isNoneEvent = true
  fresh : p = .connecting → a.away = true ∧ a.acts = [] ∧ a.waiting = [] ∧ a.pending = []
  first : p = .connecting ∨ a.acts.head? = some .connectEstablished
  shut : p.shut = true → a.waiting = [] ∧ .close ∉ a.pending
  removed : p = .removing → a.away = true
  on : a.destroyed = false
  once : .close ∉ a.pending.tail

/-- A connection of which nothing is read behind `handleClose`. -/
structure Quiet (a : Life) : Prop where
  whole : ∀ r ∈ a.waiting, r.torn = false
  once : a.pending.countP Handler.closes ≤ 1
  shut : .handleClose ∈ a.acts → a.pending.countP Handler.closes = 0 ∧ ∀ x ∈ afterClose a.acts, x.reads = false

theorem afterClose_append {acts : List Act} (closed : .handleClose ∈ acts) (more : List Act) :
    afterClose (acts ++ more) = afterClose acts ++ more := by
  have some : acts.dropWhile (· ≠ .handleClose) ≠ [] := by
    intro none
    have all := List.dropWhile_eq_nil_iff.mp none .handleClose closed
    simp at all
  unfold afterClose
  rw [List.dropWhile_append,if_neg (by simpa using some),List.tail_append_of_ne_nil some]

theorem afterClose_first {acts : List Act} (fresh : .handleClose ∉ acts) (more : List Act) :
    afterClose (acts ++ .handleClose::more) = more := by
  have none : acts.dropWhile (· ≠ .handleClose) = [] :=
    List.dropWhile_eq_nil_iff.mpr fun x member => by
      simp only [decide_eq_true_eq]
      rintro rfl
      exact fresh member
  unfold afterClose
  rw [List.dropWhile_append,none]
  rfl

theorem head_append {acts : List Act} {x : Act} (more : List Act) (first : acts.head? = some x) :
    (acts ++ more).head? = some x := by
  simp [List.head?_append,first]

theorem callback_token {f : ConnFunctor} (own : f.callback = true) : f.token = false := by
  cases f <;> first | rfl | cases own

theorem callback_shared {f : ConnFunctor} (own : f.callback = true) : f.shared = true := by
  cases f <;> first | rfl | cases own

theorem filter_callbacks {fs : List ConnFunctor} (own : ∀ f ∈ fs, f.callback = true) :
    fs.filter ConnFunctor.token = [] :=
  List.filter_eq_nil_iff.mpr fun f member => by simp [callback_token (own f member)]

theorem Phase.kinds (p : Phase) : p = .opened ∨ p = .connecting ∨ p.shut = true := by
  cases p <;> simp [Phase.shut]

theorem handleClose_open {c : TcpConnection} (live : c.state.isOpen = true) :
    c.handleClose = {c with state := .kDisconnected, channel := c.channel.disableAll} := by
  have on : c.state = .kConnected ∨ c.state = .kDisconnecting := by cases state : c.state <;> simp_all [StateE.isOpen]
  simp [TcpConnection.handleClose,on]

theorem Phase.state_keeps {p : Phase} {c d : TcpConnection} (keeps : Keeps c d) (state : p.state c.state = true) :
    p.state d.state = true := by
  have off (s : StateE) (shut : s.isOpen = false) (here : c.state = s) : d.state = s := by
    rw [keeps.state (by rw [here]; exact shut),here]
  cases p with
  | opened => exact keeps.isOpen.trans state
  | _ => simpa [Phase.state] using off _ rfl (by simpa [Phase.state] using state)

section
variable {p : Phase} {a : Life} {queue : List ConnFunctor} {pending : List Handler} {acts : List Act}

theorem Plain.tokens (plain : Plain a queue pending acts) :
    queue.filter ConnFunctor.token = a.queue.filter ConnFunctor.token := by
  cases plain with
  | functor f rest next plain => simp [next,plain]
  | _ => rfl

theorem Plain.calm (plain : Plain a queue pending acts) : acts.filter Act.milestone = [] := by
  cases plain with
  | handler h rest acts next calm reads => exact List.filter_eq_nil_iff.mpr fun x member => by simp [calm x member]
  | _ => rfl

theorem Plain.rest (plain : Plain a queue pending acts) : pending <:+ a.pending := by
  cases plain with
  | handler h rest acts next calm reads => exact next ▸ List.suffix_cons h pending
  | _ => exact List.suffix_rfl

theorem Plain.closes (plain : Plain a queue pending acts) :
    pending.countP Handler.closes ≤ a.pending.countP Handler.closes := plain.rest.sublist.countP_le

theorem Plain.reads (plain : Plain a queue pending acts) (none : a.pending.countP Handler.closes = 0) :
    ∀ x ∈ acts, x.reads = false := by
  cases plain with
  | handler h rest acts next calm reads =>
    refine reads ?_
    have all := List.countP_eq_zero.mp none h (by simp [next])
    simpa using all
  | _ => nofun

theorem Closing.tokens (closing : Closing a queue pending acts) :
    queue.filter ConnFunctor.token = a.queue.filter ConnFunctor.token := by
  cases closing with
  | force rest next live quiet => simp [next,ConnFunctor.token]
  | _ => rfl

theorem Closing.calm (closing : Closing a queue pending acts) : acts.filter Act.milestone = [] := by
  cases closing <;> rfl


theorem Plain.once (plain : Plain a queue pending acts) (once : .close ∉ a.pending.tail) : .close ∉ pending.tail := by
  cases plain with
  | handler h rest acts next calm reads =>
    rw [next] at once
    exact fun member => once (List.mem_of_mem_tail member)
  | _ => exact once

theorem Closing.once (closing : Closing a queue pending acts) (once : .close ∉ a.pending.tail) : .close ∉ pending := by
  cases closing with
  | close rest next | read rest next => rwa [next] at once
  | force rest next live quiet => exact List.not_mem_nil

theorem Closing.quiet (closing : Closing a queue pending acts) (once : a.pending.countP Handler.closes ≤ 1) :
    pending.countP Handler.closes = 0 := by
  cases closing with
  | close rest next | read rest next =>
    rw [next,List.countP_cons_of_pos rfl] at once
    omega
  | force rest next live quiet => rfl

namespace InPhase

theorem started (inside : InPhase p a) (late : p ≠ .connecting) : a.acts.head? = some .connectEstablished :=
  inside.first.resolve_left late

theorem closed (inside : InPhase p a) : .handleClose ∈ a.acts ↔ p.shut = true := by
  have same : .handleClose ∈ a.acts ↔ .handleClose ∈ a.acts.filter Act.milestone := by
    simp [List.mem_filter,Act.milestone]
  rw [same,inside.miles]
  cases p <;> simp [Phase.miles,Phase.shut]

theorem code (inside : InPhase p a) {b : TcpConnection} {fs : List ConnFunctor} (plain : Plain a queue pending acts)
    (keeps : Keeps a.conn b) (own : ∀ f ∈ fs, f.callback = true) :
    InPhase p {a with conn := b, acts := a.acts ++ acts, queue := queue ++ fs, pending := pending} :=
  { inside with
    tokens := by rw [List.filter_append,filter_callbacks own,List.append_nil,plain.tokens,inside.tokens]
    miles := by rw [List.filter_append,plain.calm,List.append_nil,inside.miles]
    state := Phase.state_keeps keeps inside.state
    idle := fun shut => keeps.isNoneEvent (keeps.isOpen ▸ shut) (inside.idle (keeps.isOpen ▸ shut))
    fresh := fun early => by
      obtain ⟨away,none,waiting,quiet⟩ := inside.fresh early
      cases plain with
      | handler h rest acts next calm reads => simp [quiet] at next
      | _ => exact ⟨away,by simp [none],waiting,quiet⟩
    first := inside.first.imp_right (head_append acts)
    shut := fun late => (inside.shut late).imp_right fun absent member => absent (plain.rest.subset member)
    once := plain.once inside.once }

theorem push (inside : InPhase p a) {f : ConnFunctor} (plain : f.token = false) :
    InPhase p {a with queue := a.queue ++ [f]} :=
  {inside with tokens := by simp [List.filter_append,plain,inside.tokens]}

theorem report (inside : InPhase p a) {rs : List Revents} (some : rs ≠ [] → a.conn.channel.isNoneEvent = false) :
    InPhase p {a with waiting := rs} := by
  have none (off : a.conn.state.isOpen = false) : rs = [] := by
    by_contra some'
    have busy := some some'
    simp [inside.idle off] at busy
  have state := inside.state
  refine {inside with fresh := fun early => ?_, shut := fun late => ?_}
  · obtain ⟨away,acts,_,pending⟩ := inside.fresh early
    refine ⟨away,acts,none ?_,pending⟩
    subst early
    simp_all [Phase.state,StateE.isOpen]
  · refine ⟨none ?_,(inside.shut late).2⟩
    cases p <;> simp_all [Phase.state,Phase.shut,StateE.isOpen]

theorem dispatch (inside : InPhase p a) {r : Revents} {rest : List Revents} (next : a.waiting = r::rest) :
    InPhase p {a with waiting := rest, pending := r.handlers} :=
  { inside with
    fresh := fun early => by
      have none := (inside.fresh early).2.2.1
      simp [next] at none
    shut := fun late => by
      have none := (inside.shut late).1
      simp [next] at none
    once := handlers_close r }

theorem shut_state (inside : InPhase p a) (late : p.shut = true) : a.conn.state = .kDisconnected := by
  have state := inside.state
  cases p <;> first | simpa [Phase.state] using state | cases late

theorem connecting_state (inside : InPhase .connecting a) : a.conn.state = .kConnecting := by
  simpa [Phase.state] using inside.state

/-- No phase but `opened` is left a handler or a functor that comes to `handleClose`. -/
theorem opened_of_closing (inside : InPhase p a) (closing : Closing a queue pending acts)
    (live : a.pending.head? = some .read → a.conn.state.isOpen = true) : p = .opened := by
  have alive : a.conn.state.isOpen = true ∨ .close ∈ a.pending := by
    cases closing with
    | close rest next => exact .inr (by simp [next])
    | read rest next => exact .inl (live (by simp [next]))
    | force rest next live quiet => exact .inl live
  rcases p.kinds with opened | rfl | late
  · exact opened
  · rcases alive with alive | member
    · simp [inside.connecting_state,StateE.isOpen] at alive
    · simp [(inside.fresh rfl).2.2.2] at member
  · rcases alive with alive | member
    · simp [inside.shut_state late,StateE.isOpen] at alive
    · exact absurd member (inside.shut late).2

theorem handleClose (inside : InPhase p a) (closing : Closing a queue pending acts) (apart : a.waiting = [])
    (live : a.pending.head? = some .read → a.conn.state.isOpen = true) :
    InPhase .closing ({a with acts := a.acts ++ acts, queue := queue, pending := pending} : Life).handleClose := by
  have absent := closing.once inside.once
  cases inside.opened_of_closing closing live
  have live : a.conn.state.isOpen = true := inside.state
  rw [Life.handleClose,if_pos live,handleClose_open live]
  exact {inside with
    tokens := closing.tokens.trans inside.tokens
    closing := by simp [inside.closing,Phase.closings]
    removals := inside.removals
    miles := by simp [List.filter_append,inside.miles,closing.calm,Phase.miles,Act.milestone]
    state := rfl
    idle := fun _ => rfl
    fresh := nofun
    first := .inr (head_append _ (head_append acts (inside.started nofun)))
    shut := fun _ => ⟨apart,absent⟩
    removed := nofun
    once := fun member => absent (List.mem_of_mem_tail member) }

/-- The functor at the head of the queue tells the phase. -/
theorem of_connectEstablished (inside : InPhase p a) {rest : List ConnFunctor}
    (next : a.queue = .connectEstablished::rest) : p = .connecting ∧ rest.filter ConnFunctor.token = [] := by
  have tokens := inside.tokens
  rw [next,List.filter_cons_of_pos rfl] at tokens
  cases p with
  | connecting => exact ⟨rfl,(List.cons.inj tokens).2⟩
  | _ => simp [Phase.tokens] at tokens

theorem of_connectDestroyed (inside : InPhase p a) {rest : List ConnFunctor}
    (next : a.queue = .connectDestroyed::rest) : p = .destroying ∧ rest.filter ConnFunctor.token = [] := by
  have tokens := inside.tokens
  rw [next,List.filter_cons_of_pos rfl] at tokens
  cases p with
  | destroying => exact ⟨rfl,(List.cons.inj tokens).2⟩
  | _ => simp [Phase.tokens] at tokens

theorem connectEstablished (inside : InPhase p a) {rest : List ConnFunctor}
    (next : a.queue = .connectEstablished::rest) :
    InPhase .opened ({a with queue := rest} : Life).connectEstablished := by
  obtain ⟨rfl,tokens⟩ := inside.of_connectEstablished next
  obtain ⟨away,acts,waiting,pending⟩ := inside.fresh rfl
  have connecting := inside.connecting_state
  have established : a.conn.connectEstablished =
      {a.conn with state := .kConnected, channel := a.conn.channel.enableReading} := if_pos connecting
  rw [Life.connectEstablished,if_pos connecting,established]
  exact {inside with
    tokens := tokens
    miles := by simp [acts,Phase.miles,Act.milestone]
    state := rfl
    idle := nofun
    fresh := nofun
    first := .inr (by simp [acts])
    shut := nofun
    removed := nofun }

theorem connectDestroyed (inside : InPhase p a) {rest : List ConnFunctor}
    (next : a.queue = .connectDestroyed::rest) :
    InPhase .destroyed ({a with queue := rest} : Life).connectDestroyed := by
  obtain ⟨rfl,tokens⟩ := inside.of_connectDestroyed next
  have off := inside.shut_state rfl
  have idle := inside.idle (by simp [off,StateE.isOpen])
  rw [Life.connectDestroyed,if_neg (by simp [off]),Life.remove]
  exact {inside with
    tokens := tokens
    miles := by simp [List.filter_append,inside.miles,off,idle,Phase.miles,Act.milestone]
    fresh := by rintro ⟨⟩
    first := .inr (head_append _ (head_append _ (inside.started (by simp))))
    shut := fun _ => inside.shut rfl
    removed := by rintro ⟨⟩ }

/-- `removeConnectionInLoop` finds the connection listed and hands it back to its loop. -/
theorem erase (inside : InPhase p a) (late : p = .closing ∨ p = .removing) (acts : List Act)
    (calm : ∀ x ∈ acts, x = .removeConnection) {removals closing : Nat} (none : removals = 0 ∧ closing = 0) :
    InPhase .destroying
      ({a with acts := a.acts ++ acts, removals := removals, closing := closing} : Life).removeConnectionInLoop := by
  have shut : p.shut = true := by rcases late with rfl | rfl <;> rfl
  have listed : a.listed = true := by
    rw [inside.listed]
    rcases late with rfl | rfl <;> rfl
  have miles : acts.filter Act.milestone = [] :=
    List.filter_eq_nil_iff.mpr fun x member => by simp [calm x member,Act.milestone]
  have tokens : a.queue.filter ConnFunctor.token = [] := by
    rw [inside.tokens]
    rcases late with rfl | rfl <;> rfl
  simp only [Life.removeConnectionInLoop,inside.on,listed,if_true,Bool.false_eq_true,if_false]
  exact {inside with
    listed := rfl
    tokens := by simp [List.filter_append,tokens,ConnFunctor.token,Phase.tokens]
    removals := none.1
    closing := none.2
    miles := by
      rw [List.filter_append,List.filter_append,inside.miles,miles]
      rcases late with rfl | rfl <;> rfl
    state := by simp [inside.shut_state shut,Phase.state]
    fresh := nofun
    first := .inr (head_append _ (head_append acts (inside.started (by rcases late with rfl | rfl <;> nofun))))
    shut := fun _ => inside.shut shut
    removed := nofun
    on := rfl }

theorem removeConnection (inside : InPhase p a) {n : Nat} (next : a.closing = n+1) :
    ∃ q, InPhase q ({a with closing := n} : Life).removeConnection := by
  have count := inside.closing
  rw [next,Phase.closings] at count
  split at count
  · rename_i phase
    subst phase
    cases (Nat.add_right_cancel count : n = 0)
    have removals : a.removals = 0 := inside.removals
    unfold Life.removeConnection
    rw [if_neg (by simp [inside.on])]
    split
    · rename_i away
      exact ⟨.removing,{inside with
        removals := by simp [removals,Phase.removals]
        closing := rfl
        miles := by rw [List.filter_append,inside.miles]; rfl
        fresh := nofun
        first := .inr (head_append _ (inside.started nofun))
        shut := fun _ => inside.shut rfl
        removed := fun _ => away }⟩
    · exact ⟨.destroying,inside.erase (.inl rfl) [.removeConnection] (by simp) ⟨removals,rfl⟩⟩
  · cases count

theorem removeConnectionInLoop (inside : InPhase p a) {n : Nat} (next : a.removals = n+1) :
    InPhase .destroying ({a with removals := n} : Life).removeConnectionInLoop := by
  have count := inside.removals
  rw [next,Phase.removals] at count
  split at count
  · rename_i phase
    subst phase
    cases (Nat.add_right_cancel count : n = 0)
    have closing : a.closing = 0 := inside.closing
    have erased := inside.erase (.inr rfl) [] nofun ⟨rfl,closing⟩
    rwa [List.append_nil] at erased
  · cases count

/-- Every move takes a connection from phase to phase. -/
theorem move (inside : InPhase p a) {quiet : Bool} {touch : Touch} {b : Life} (move : LifeMove (.orderly quiet) a touch b)
    (live : quiet = true → a.pending.head? = some .read → a.conn.state.isOpen = true) : ∃ q, InPhase q b := by
  cases move with
  | still => exact ⟨p,inside⟩
  | begin ends | destructed ends unlisted => cases ends
  | report rs fresh some whole => exact ⟨p,inside.report some⟩
  | dispatch r rest next => exact ⟨p,inside.dispatch next⟩
  | push f plain => exact ⟨p,inside.push plain⟩
  | code queue pending acts b fs plain keeps own => exact ⟨p,inside.code plain (keeps nofun) own⟩
  | handleClose queue pending acts closing apart ends =>
    refine ⟨_,inside.handleClose closing apart ?_⟩
    cases quiet with
    | true => exact live rfl
    | false => exact ends rfl
  | connectEstablished rest next => exact ⟨_,inside.connectEstablished next⟩
  | connectDestroyed rest next found => exact ⟨_,inside.connectDestroyed next⟩
  | removeConnection n next => exact inside.removeConnection next
  | removeConnectionInLoop n next => exact ⟨_,inside.removeConnectionInLoop next⟩
  | remove n next => exact absurd (next.symm.trans inside.removing) (Nat.succ_ne_zero n)
  | take ends here listed found | takeAway ends away listed => cases ends

theorem born (away writeCompleteCallback : Bool) : ∃ q, InPhase q (Life.born away writeCompleteCallback) := by
  cases away with
  | true =>
    exact ⟨.connecting,⟨rfl,rfl,rfl,rfl,rfl,rfl,rfl,fun _ => rfl,fun _ => ⟨rfl,rfl,rfl,rfl⟩,.inl rfl,nofun,nofun,rfl,
      List.not_mem_nil⟩⟩
  | false =>
    exact ⟨.opened,⟨rfl,rfl,rfl,rfl,rfl,rfl,rfl,nofun,nofun,.inr rfl,nofun,nofun,rfl,List.not_mem_nil⟩⟩

end InPhase

namespace Quiet

/-- The read handler is left only of an event that has not closed the connection. -/
theorem live (quiet : Quiet a) (inside : InPhase p a) (next : a.pending.head? = some .read) :
    a.conn.state.isOpen = true := by
  obtain ⟨rest,pending⟩ := List.head?_eq_some_iff.mp next
  have unclosed : .handleClose ∉ a.acts := by
    intro closed
    have none := (quiet.shut closed).1
    simp [pending,Handler.closes] at none
  rcases p.kinds with rfl | rfl | late
  · exact inside.state
  · simp [(inside.fresh rfl).2.2.2] at pending
  · exact absurd (inside.closed.mpr late) unclosed

theorem extend (quiet : Quiet a) (acts : List Act) (calm : ∀ x ∈ acts, x ≠ .handleClose ∧ x.reads = false) :
    Quiet {a with acts := a.acts ++ acts} := by
  refine {quiet with shut := fun closed => ?_}
  have before : .handleClose ∈ a.acts :=
    (List.mem_append.mp closed).resolve_right fun new => (calm _ new).1 rfl
  refine ⟨(quiet.shut before).1,fun x member => ?_⟩
  rw [afterClose_append before] at member
  exact (List.mem_append.mp member).elim ((quiet.shut before).2 x) fun new => (calm x new).2

theorem code (quiet : Quiet a) (plain : Plain a queue pending acts) :
    Quiet {a with acts := a.acts ++ acts, pending := pending} := by
  refine {quiet with once := plain.closes.trans quiet.once, shut := fun closed => ?_}
  have before : .handleClose ∈ a.acts := by
    refine (List.mem_append.mp closed).resolve_right fun new => ?_
    have kept : .handleClose ∈ acts.filter Act.milestone := List.mem_filter.mpr ⟨new,rfl⟩
    rw [plain.calm] at kept
    cases kept
  obtain ⟨none,silent⟩ := quiet.shut before
  refine ⟨Nat.le_zero.mp (none ▸ plain.closes),fun x member => ?_⟩
  rw [afterClose_append before] at member
  exact (List.mem_append.mp member).elim (silent x) (plain.reads none x)

theorem handleClose (quiet : Quiet a) (closing : Closing a queue pending acts) (fresh : .handleClose ∉ a.acts) :
    Quiet ({a with acts := a.acts ++ acts, queue := queue, pending := pending} : Life).handleClose := by
  have none := closing.quiet quiet.once
  have never : .handleClose ∉ a.acts ++ acts := by
    intro member
    rcases List.mem_append.mp member with old | new
    · exact fresh old
    · have kept : .handleClose ∈ acts.filter Act.milestone := List.mem_filter.mpr ⟨new,rfl⟩
      rw [closing.calm] at kept
      cases kept
  unfold Life.handleClose
  split
  all_goals exact {quiet with
    once := by simp [none]
    shut := fun _ => ⟨none,by
      rw [afterClose_first never]
      simp [Act.reads]⟩ }

theorem removeConnectionInLoop (quiet : Quiet a) : Quiet a.removeConnectionInLoop := by
  unfold Life.removeConnectionInLoop
  split
  · exact quiet
  · split
    · exact {quiet.extend [.removeConnectionInLoop 1] (by simp [Act.reads]) with}
    · exact quiet.extend _ (by simp [Act.reads])

theorem move (quiet : Quiet a) (inside : InPhase p a) {touch : Touch} {b : Life}
    (move : LifeMove (.orderly true) a touch b) : Quiet b := by
  cases move with
  | still => exact quiet
  | begin ends | destructed ends unlisted => cases ends
  | report rs fresh some whole => exact {quiet with whole := whole rfl}
  | dispatch r rest next =>
    refine ⟨fun q member => quiet.whole q (by simp [next,member]),handlers_closes r (quiet.whole r (by simp [next])),
      fun closed => ?_⟩
    have none := (inside.shut (inside.closed.mp closed)).1
    simp [next] at none
  | push f plain => exact {quiet with}
  | code queue pending acts b fs plain keeps own => exact {quiet.code plain with}
  | handleClose queue pending acts closing apart ends =>
    cases inside.opened_of_closing closing (quiet.live inside)
    exact quiet.handleClose closing fun closed => nomatch inside.closed.mp closed
  | connectEstablished rest next =>
    unfold Life.connectEstablished
    split
    · exact {quiet.extend [.connectEstablished,.connectionCallback true] (by simp [Act.reads]) with}
    · exact {quiet.extend [.connectEstablished] (by simp [Act.reads]) with}
  | connectDestroyed rest next found =>
    obtain ⟨rfl,_⟩ := inside.of_connectDestroyed next
    rw [Life.connectDestroyed,if_neg (by simp [inside.shut_state rfl]),Life.remove,List.append_assoc]
    exact {quiet.extend [.connectDestroyed a.conn.state,.remove a.conn.channel.isNoneEvent] (by simp [Act.reads]) with}
  | removeConnection n next =>
    have noted := quiet.extend [.removeConnection] (by simp [Act.reads])
    unfold Life.removeConnection
    split
    · exact {quiet with}
    · split
      · exact {noted with}
      · have popped : Quiet {a with acts := a.acts ++ [.removeConnection], closing := n} := {noted with}
        exact popped.removeConnectionInLoop
  | removeConnectionInLoop n next =>
    have popped : Quiet {a with removals := n} := {quiet with}
    exact popped.removeConnectionInLoop
  | remove n next => exact {quiet.extend [.remove a.conn.channel.isNoneEvent] (by simp [Act.reads]) with}
  | take ends here listed found | takeAway ends away listed => cases ends

theorem born (away writeCompleteCallback : Bool) : Quiet (Life.born away writeCompleteCallback) := by
  cases away with
  | true => exact ⟨nofun,Nat.zero_le 1,nofun⟩
  | false =>
    refine ⟨nofun,Nat.zero_le 1,?_⟩
    simp [Life.born,Life.connectEstablished,newTcpConnection]

end Quiet

end

end Reactor.Net
