import Reactor.Memcached.Dispatch

/-! The connections of the workers: `event_handler` and the loop of `drive_machine`. The
main thread accepts and dispatches; a worker thread is either in
`thread_libevent_process` or drives one of its own connections. What the functions
called in the loop return and leave behind, and what the cases do whose bodies the source
leaves out, comes with the step; what is expected of them is said apart. -/
namespace Reactor.Memcached
open Reactor.Transition

def evRead : Nat := 2

def evWrite : Nat := 4

def evPersist : Nat := 16

def dataBufferSize : Int := 2048

/-- `nreqs` is the number of commands the loop starts with. -/
structure Settings where
  maxconnsFast : Bool
  maxconns : Int
  reservedFds : Int
  nreqs : Nat
deriving DecidableEq

structure Connection where
  sfd : Int
  state : ConnState
  which : Int
  evFlags : Int
  rbytes : Nat
  transport : NetworkTransport
deriving DecidableEq

inductive ReadResult
  | noDataReceived | dataReceived | error | memoryError
deriving DecidableEq

/-- What the function called in one iteration returns, and the connection it leaves. -/
structure Callee where
  read : ReadResult
  parsed : Bool
  updated : Bool
  left : Connection
  stop : Bool
deriving DecidableEq

/-- `yielded` says that the loop goes on after the budget was used up. -/
structure Activation where
  conn : Nat
  nreqs : Int
  yielded : Bool
deriving DecidableEq

/-- How the last activation of a connection ended. -/
inductive Ending
  | stopped | yielded | closed | cleaned
deriving DecidableEq

/-- Connections are told apart by the number of their dispatch. The fields from `received`
on record what happened; no step depends on them. -/
structure Server where
  process : Process
  rejectedConns : Nat
  conns : Nat → Connection
  active : Nat → Option Activation
  connYields : Nat → Nat
  aborted : Bool
  received : List Int
  rejected : List Int
  activations : Nat → Nat
  commands : Nat → Nat
  endings : Nat → Ending
  closes : Nat → Nat

/-- States that are not for the connection of a worker. -/
def ConnState.unusual : ConnState → Bool
  | .listening | .closed | .maxState => true
  | _ => false

def Outcome.isConn : Outcome → Bool
  | .conn _ => true
  | .closed _ => false

def Worker.owns (w : Worker) (d : Nat) : Bool := w.outcomes.any fun o => o.1.dispatch == d && o.2.isConn

def CqItem.connection (item : CqItem) : Connection :=
  ⟨item.sfd,item.initState,0,item.eventFlags,0,item.transport⟩

inductive ServerLabel
  | accept (sfd currConns : Int) (allocated : Bool)
  | socket (q : Request) (allocated : Bool)
  | process (l : Label)
  | event (tid d : Nat) (fd which : Int) (left : Connection)
  | iterate (tid : Nat) (o : Callee)
deriving DecidableEq

namespace Server

/-- `conn_close` is called and leaves some connection behind. -/
def connClose (s : Server) (d : Nat) (left : Connection) : Server :=
  {s with
    conns := Function.update s.conns d left
    closes := Function.update s.closes d (s.closes d + 1)
    endings := Function.update s.endings d .closed}

def eventHandler (settings : Settings) (s : Server) (tid d : Nat) (fd which : Int) (left : Connection) : Server :=
  let c := {s.conns d with which := which}
  if fd ≠ c.sfd then s.connClose d left
  else {s with
    conns := Function.update s.conns d c
    active := Function.update s.active tid (some ⟨d,settings.nreqs,false⟩)
    activations := Function.update s.activations tid (s.activations tid + 1)
    endings := Function.update s.endings d .stopped}

def put (s : Server) (tid : Nat) (a : Activation) (c : Connection) (stop : Bool) : Server :=
  {s with
    conns := Function.update s.conns a.conn c
    active := Function.update s.active tid (if stop then none else some a)}

def ended (s : Server) (d : Nat) (ending : Ending) : Server :=
  {s with endings := Function.update s.endings d ending}

def resetCmdHandler (s : Server) (tid : Nat) (a : Activation) (o : Callee) : Server :=
  {s.put tid a o.left false with commands := Function.update s.commands tid (s.commands tid + 1)}

def yield (s : Server) (tid : Nat) (a : Activation) (o : Callee) : Server :=
  let s := {s with connYields := Function.update s.connYields tid (s.connYields tid + 1)}
  if 0 < (s.conns a.conn).rbytes then
    if o.updated then (s.put tid a o.left true).ended a.conn .yielded
    -- the switch is left, but not the loop
    else s.put tid {a with yielded := true} {o.left with state := .closing} false
  else (s.put tid a (s.conns a.conn) true).ended a.conn .yielded

/-- One iteration of the loop. Only the main thread's connection is in `conn_listening`,
and what happens there is the step `accept`. -/
def driveMachine (s : Server) (tid : Nat) (a : Activation) (o : Callee) : Option Server :=
  match (s.conns a.conn).state with
  | .listening => none
  | .waiting | .nread | .swallow | .write => some (s.put tid a o.left o.stop)
  | .read =>
    let state := match o.read with
      | .noDataReceived => .waiting
      | .dataReceived => .parseCmd
      | .error => .closing
      | .memoryError => o.left.state
    some (s.put tid a {o.left with state := state} false)
  | .parseCmd => some (s.put tid a (if o.parsed then o.left else {o.left with state := .waiting}) false)
  | .newCmd =>
    let a := {a with nreqs := a.nreqs - 1}
    if 0 ≤ a.nreqs then some (s.resetCmdHandler tid a o) else some (s.yield tid a o)
  | .closing =>
    if (s.conns a.conn).transport.isUdp then some ((s.put tid a o.left true).ended a.conn .cleaned)
    else some ((s.put tid a (s.conns a.conn) true).connClose a.conn o.left)
  | .closed | .maxState => some {s with aborted := true}

def crowded (settings : Settings) (currConns : Int) : Bool :=
  settings.maxconnsFast && settings.maxconns - 1 ≤ currConns + settings.reservedFds

/-- The thread that takes the step is not inside `drive_machine`. -/
def free (s : Server) : Label → Bool
  | .dispatch _ _ => false
  | .read tid | .advance tid _ => s.active tid = none
  | _ => true

/-- `conn_new` sets up the connection of the item in hand. -/
def connNew (s : Server) : Label → Nat → Connection
  | .advance tid true =>
    match (s.process.workers tid).pc with
    | .connNew item => Function.update s.conns item.dispatch item.connection
    | _ => s.conns
  | _ => s.conns

end Server

def accepted (sfd : Int) : Request := ⟨sfd,.newCmd,(evRead ||| evPersist : Nat),dataBufferSize,.tcp⟩

/-- `socket` is another call of `dispatch_conn_new` by the main thread, as for a UDP socket at start. -/
def serverStep (settings : Settings) (s : Server) (l : ServerLabel) : Option Server :=
  if s.aborted || s.process.exited then none else
  match l with
  | .accept sfd currConns allocated =>
    if s.process.main ≠ .idle then none
    else if Server.crowded settings currConns then
      some {s with
        received := s.received ++ [sfd], rejected := s.rejected ++ [sfd], rejectedConns := s.rejectedConns + 1}
    else some {s with
      received := s.received ++ [sfd], process := s.process.dispatchConnNew (accepted sfd) allocated}
  | .socket q allocated =>
    if s.process.main = .idle then
      some {s with received := s.received ++ [q.sfd], process := s.process.dispatchConnNew q allocated}
    else none
  | .process l =>
    if s.free l then (step s.process l).map fun process => {s with process := process, conns := s.connNew l}
    else none
  | .event tid d fd which left =>
    if (s.process.workers tid).pc = .waiting ∧ s.active tid = none then
      some (s.eventHandler settings tid d fd which left)
    else none
  | .iterate tid o => (s.active tid).bind fun a => s.driveMachine tid a o

namespace Server

/-- libevent calls `event_handler` for a connection in the thread to whose base the event was
added, and not after `conn_close`, which deletes it. -/
def notified (s : Server) : ServerLabel → Bool
  | .event tid d _ _ _ => (s.process.workers tid).owns d && s.closes d = 0
  | _ => true

/-- The next iteration calls `conn_close`. -/
def closing (s : Server) (tid : Nat) : Bool :=
  (s.active tid).any fun a => (s.conns a.conn).state = .closing && !(s.conns a.conn).transport.isUdp

/-- A connection is given to a worker, and left by a function called in the loop, in a state
that is for a worker. What `conn_close` leaves does not matter. -/
def usual (s : Server) : ServerLabel → Bool
  | .socket q _ => !q.initState.unusual
  | .iterate tid o => s.closing tid || !o.left.state.unusual
  | _ => true

/-- The budget is used up, and the next iteration gives up. -/
def yielding (s : Server) (tid : Nat) : Bool :=
  (s.active tid).any fun a => (s.conns a.conn).state = .newCmd && a.nreqs ≤ 0

/-- When `update_event` returns true, the connection is watched for what was asked. -/
def updates (s : Server) : ServerLabel → Bool
  | .iterate tid o => !(s.yielding tid && o.updated) || o.left.evFlags = (evWrite ||| evPersist : Nat)
  | _ => true

/-- What is expected of libevent and of the functions the source does not show. -/
def lawful (s : Server) (l : ServerLabel) : Bool := s.notified l && s.usual l && s.updates l

end Server

def Server.Started (s : Server) : Prop :=
  s.process.Started ∧ s.aborted = false ∧ (∀ tid, s.active tid = none) ∧ s.received = [] ∧ s.rejected = [] ∧
    s.rejectedConns = 0 ∧ (∀ tid, s.connYields tid = 0 ∧ s.activations tid = 0 ∧ s.commands tid = 0) ∧
    ∀ d, s.closes d = 0 ∧ s.endings d = .stopped

/-- The ways through one iteration. -/
inductive DriveMove (s : Server) (tid : Nat) (a : Activation) (o : Callee) : Server → Prop
  | continued (c : Connection) (stop : Bool) (here : (s.conns a.conn).state ≠ .closing)
      (usual : o.left.state.unusual = false → c.state.unusual = false) : DriveMove s tid a o (s.put tid a c stop)
  | reset (here : (s.conns a.conn).state = .newCmd) (left : 1 ≤ a.nreqs) :
      DriveMove s tid a o (s.resetCmdHandler tid {a with nreqs := a.nreqs - 1} o)
  | rearmed (here : (s.conns a.conn).state = .newCmd) (out : a.nreqs ≤ 0) (updated : o.updated = true) :
      DriveMove s tid a o (({s with
        connYields := Function.update s.connYields tid (s.connYields tid + 1)}.put tid a o.left true).ended a.conn .yielded)
  | unarmed (here : (s.conns a.conn).state = .newCmd) (out : a.nreqs ≤ 0) :
      DriveMove s tid a o ({s with
        connYields := Function.update s.connYields tid (s.connYields tid + 1)}.put tid
          {a with nreqs := a.nreqs - 1, yielded := true} {o.left with state := .closing} false)
  | drained (here : (s.conns a.conn).state = .newCmd) (out : a.nreqs ≤ 0) (empty : (s.conns a.conn).rbytes = 0) :
      DriveMove s tid a o (({s with
        connYields := Function.update s.connYields tid (s.connYields tid + 1)}.put tid a
          (s.conns a.conn) true).ended a.conn .yielded)
  | cleaned (here : (s.conns a.conn).state = .closing) (udp : (s.conns a.conn).transport.isUdp = true) :
      DriveMove s tid a o ((s.put tid a o.left true).ended a.conn .cleaned)
  | closed (here : (s.conns a.conn).state = .closing) (tcp : (s.conns a.conn).transport.isUdp = false) :
      DriveMove s tid a o ((s.put tid a (s.conns a.conn) true).connClose a.conn o.left)
  | aborted (here : (s.conns a.conn).state.unusual = true) : DriveMove s tid a o {s with aborted := true}

theorem driveMachine_move {s u : Server} {tid : Nat} {a : Activation} {o : Callee}
    (ok : s.driveMachine tid a o = some u) : DriveMove s tid a o u := by
  unfold Server.driveMachine at ok
  cases here : (s.conns a.conn).state <;> simp only [here] at ok
  case listening => cases ok
  case waiting | nread | swallow | write =>
    cases ok
    exact .continued _ o.stop (by simp [here]) id
  case read =>
    cases ok
    refine .continued _ false (by simp [here]) fun usual => ?_
    cases o.read <;> first | rfl | exact usual
  case parseCmd =>
    cases ok
    refine .continued _ false (by simp [here]) fun usual => ?_
    cases o.parsed
    · rfl
    · exact usual
  case newCmd =>
    split at ok
    next left =>
      cases ok
      exact .reset here (by omega)
    next out =>
      have out : a.nreqs ≤ 0 := by omega
      unfold Server.yield at ok
      dsimp only at ok
      split at ok
      · split at ok
        next updated =>
          cases ok
          exact .rearmed here out updated
        next =>
          cases ok
          exact .unarmed here out
      next empty =>
        cases ok
        exact .drained here out (Nat.eq_zero_of_not_pos empty)
  case closing =>
    split at ok
    next udp =>
      cases ok
      exact .cleaned here udp
    next tcp =>
      cases ok
      exact .closed here (Bool.eq_false_iff.mpr tcp)
  case closed | maxState =>
    cases ok
    exact .aborted (by rw [here]; rfl)

inductive ServerMove (settings : Settings) (s : Server) : ServerLabel → Server → Prop
  | reject (sfd currConns : Int) (allocated : Bool) (crowded : Server.crowded settings currConns = true) :
      ServerMove settings s (.accept sfd currConns allocated) {s with
        received := s.received ++ [sfd], rejected := s.rejected ++ [sfd], rejectedConns := s.rejectedConns + 1}
  | dispatch (l : ServerLabel) (q : Request) (allocated : Bool)
      (origin : l = .socket q allocated ∨ ∃ currConns, l = .accept q.sfd currConns allocated ∧ q = accepted q.sfd)
      (idle : s.process.main = .idle) :
      ServerMove settings s l
        {s with received := s.received ++ [q.sfd], process := s.process.dispatchConnNew q allocated}
  | process (l : Label) (process : Process) (free : s.free l = true) (move : ProcessMove s.process l process)
      (ok : step s.process l = some process) :
      ServerMove settings s (.process l) {s with process := process, conns := s.connNew l}
  | event (tid d : Nat) (fd which : Int) (left : Connection) (waiting : (s.process.workers tid).pc = .waiting)
      (idle : s.active tid = none) :
      ServerMove settings s (.event tid d fd which left) (s.eventHandler settings tid d fd which left)
  | iterate (tid : Nat) (o : Callee) (a : Activation) (u : Server) (driving : s.active tid = some a)
      (move : DriveMove s tid a o u) : ServerMove settings s (.iterate tid o) u

theorem serverStep_move {settings : Settings} {s u : Server} {l : ServerLabel}
    (ok : serverStep settings s l = some u) : s.process.exited = false ∧ ServerMove settings s l u := by
  unfold serverStep at ok
  obtain ⟨running,ok⟩ := Option.ite_none_left_eq_some.mp ok
  simp only [Bool.or_eq_true,not_or,Bool.not_eq_true] at running
  refine ⟨running.2,?_⟩
  cases l with
  | accept sfd currConns allocated =>
    obtain ⟨idle,ok⟩ := Option.ite_none_left_eq_some.mp ok
    split at ok
    next crowded =>
      cases ok
      exact .reject sfd currConns allocated crowded
    next =>
      cases ok
      exact .dispatch _ (accepted sfd) allocated (.inr ⟨currConns,rfl,rfl⟩) (not_not.mp idle)
  | socket q allocated =>
    obtain ⟨idle,⟨⟩⟩ := Option.ite_none_right_eq_some.mp ok
    exact .dispatch _ q allocated (.inl rfl) idle
  | process l =>
    obtain ⟨free,ok⟩ := Option.ite_none_right_eq_some.mp ok
    obtain ⟨process,moved,⟨⟩⟩ := Option.map_eq_some_iff.mp ok
    exact .process l process free (step_processMove moved).2 moved
  | event tid d fd which left =>
    obtain ⟨⟨waiting,idle⟩,⟨⟩⟩ := Option.ite_none_right_eq_some.mp ok
    exact .event tid d fd which left waiting idle
  | iterate tid o =>
    obtain ⟨a,driving,ok⟩ := Option.bind_eq_some_iff.mp ok
    exact .iterate tid o a u driving (driveMachine_move ok)

/-- The hand-off goes on as it does on its own, whatever the callees do. -/
theorem dispatched_step {settings : Settings} {s u : Server} {l : ServerLabel} (before : Dispatched s.process)
    (ok : serverStep settings s l = some u) : Dispatched u.process := by
  cases (serverStep_move ok).2 with
  | reject => exact before
  | dispatch l q allocated origin idle => exact before.dispatchConnNew idle q allocated
  | process l p free move moved => exact before.step l p moved
  | event tid d fd which left =>
    unfold Server.eventHandler
    dsimp only
    split <;> exact before
  | iterate tid o a u driving move => cases move <;> exact before

section
variable {p q : Process} {l : Label} {t t' d : Nat}

/-- What a step of the hand-off does to one worker. -/
theorem step_worker (move : ProcessMove p l q) (t : Nat) :
    (q.workers t).outcomes = (p.workers t).outcomes ∧
        ((q.workers t).pc = (p.workers t).pc ∨ l = .read t) ∨
      ∃ made, l = .advance t made ∧ q.workers t = (p.workers t).advance made := by
  cases move with
  | dispatch r allocated idle =>
    left
    unfold Process.dispatchConnNew
    split <;> exact ⟨rfl,.inl rfl⟩
  | push tid item here | notify tid written here | tell tid b other | read tid b rest waiting pipe =>
    left
    by_cases same : t = tid
    · subst same
      simp [Process.notify,Process.setWorker,Worker.cqPush,Worker.read] <;> split <;> exact ⟨rfl,rfl⟩
    · simp [Process.notify,Process.setWorker,same]
  | advance tid made =>
    by_cases same : t = tid
    · subst same
      exact .inr ⟨made,rfl,by simp [Process.advance,Process.setWorker]⟩
    · exact .inl ⟨by simp [Process.advance,Process.setWorker,same],.inl (by simp [Process.advance,Process.setWorker,same])⟩

theorem advance_owns (w : Worker) (made : Bool) (d : Nat) :
    (w.advance made).owns d = true ↔
      w.owns d = true ∨ made = true ∧ ∃ item, w.pc = .connNew item ∧ item.dispatch = d := by
  cases here : w.pc with
  | waiting | exited | free => simp [Worker.advance,here,Worker.cqiFree,Worker.owns]
  | switch buf =>
    have same : (w.switch buf).outcomes = w.outcomes := by
      unfold Worker.switch Worker.cqPop Worker.flip
      repeat' split
      all_goals rfl
    simp [Worker.advance,here,Worker.owns,same]
  | connNew item =>
    cases made with
    | true => simp [Worker.advance,here,Worker.connNew,Worker.owns,Outcome.isConn,List.any_append]
    | false =>
      simp only [Worker.advance,here,Worker.connNew,Bool.false_eq_true,if_false]
      split <;> simp [Worker.owns,Outcome.isConn,List.any_append]

theorem owns_pushed (inv : Dispatched p) (owns : (p.workers t).owns d = true) :
    ∃ o ∈ (p.workers t).outcomes, o.1.dispatch = d ∧ o.1 ∈ (p.workers t).pushed := by
  obtain ⟨o,member,same⟩ := List.any_eq_true.mp owns
  have popped : o.1 ∈ (p.workers t).popped := by
    rw [(inv.handoff t).settled]
    exact List.mem_append_left _ (List.mem_map_of_mem member)
  refine ⟨o,member,?_,?_⟩
  · simpa using (Bool.and_eq_true_iff.mp same).1
  · rw [(inv.handoff t).queue]
    exact List.mem_append_left _ popped

theorem owner_unique (inv : Dispatched p) (first : (p.workers t).owns d = true)
    (second : (p.workers t').owns d = true) : t = t' := by
  obtain ⟨o,_,same,member⟩ := owns_pushed inv first
  obtain ⟨o',_,same',member'⟩ := owns_pushed inv second
  exact inv.apart t t' o.1 member o'.1 member' (same.trans same'.symm)

/-- A connection that is being made belongs to nobody yet. -/
theorem unmade (inv : Dispatched p) {item : CqItem} (here : (p.workers t).pc = .connNew item) (t' : Nat) :
    (p.workers t').owns item.dispatch = false := by
  refine Bool.eq_false_iff.mpr fun owns => ?_
  obtain ⟨o,member,same,pushed⟩ := owns_pushed inv owns
  have handoff := inv.handoff t
  have popped : (p.workers t).popped = (p.workers t).outcomes.map Prod.fst ++ [item] := by
    rw [handoff.settled,here]
    rfl
  have mine : item ∈ (p.workers t).pushed := by
    rw [handoff.queue,popped]
    simp
  have who := inv.apart t' t o.1 pushed item mine same
  subst who
  have distinct := inv.distinct t'
  rw [handoff.queue,popped] at distinct
  simp only [List.map_append,List.map_map,List.append_assoc] at distinct
  refine (List.nodup_append.mp distinct).2.2 item.dispatch ?_ item.dispatch (by simp) rfl
  exact List.mem_map.mpr ⟨o,member,same⟩

end

/-- The commands thread `tid` may still start before it returns to its event loop. -/
def Server.left (s : Server) (tid : Nat) : Nat := ((s.active tid).map fun a => a.nreqs.toNat).getD 0

/-- What holds at every point: who drives a connection, what is left of the budget, and
that buffered input is not forgotten. -/
structure Driven (settings : Settings) (s : Server) : Prop where
  dispatched : Dispatched s.process
  pushed : ∀ t, ∀ item ∈ (s.process.workers t).pushed, item.initState.unusual = false
  pushing : ∀ t item, s.process.main = .push t item → item.initState.unusual = false
  driving : ∀ tid a, s.active tid = some a → (s.process.workers tid).owns a.conn = true ∧
    (s.process.workers tid).pc = .waiting ∧ s.closes a.conn = 0 ∧ s.endings a.conn = .stopped
  live : ∀ tid d, (s.process.workers tid).owns d = true → s.closes d = 0 → (s.conns d).state.unusual = false
  closed : ∀ d, s.closes d ≤ 1
  unowned : ∀ d, (∀ tid, (s.process.workers tid).owns d = false) → s.closes d = 0 ∧ s.endings d = .stopped
  rationed : ∀ tid a, s.active tid = some a → a.nreqs ≤ settings.nreqs
  budget : ∀ tid, s.commands tid + s.left tid ≤ settings.nreqs * s.activations tid
  yields : ∀ tid, s.connYields tid + ((s.active tid).map fun a => if a.yielded then 0 else 1).getD 0 ≤
    s.activations tid
  closing : ∀ tid a, s.active tid = some a → a.yielded = true → (s.conns a.conn).state = .closing
  armed : ∀ d, s.endings d = .yielded →
    (s.conns d).rbytes = 0 ∨ (s.conns d).evFlags = (evWrite ||| evPersist : Nat)
  intact : s.aborted = false

namespace Driven
variable {settings : Settings} {s u : Server}

theorem start (begun : s.Started) : Driven settings s := by
  obtain ⟨process,intact,active,_,_,_,counts,conns⟩ := begun
  have workers := process.2.2.2.1
  have main := process.2.2.2.2.1
  exact {
    dispatched := .start process
    pushed := by simp [workers,newWorker]
    pushing := by simp [main]
    driving := by simp [active]
    live := by simp [workers,newWorker,Worker.owns]
    closed := by simp [conns]
    unowned := fun d _ => conns d
    rationed := by simp [active]
    budget := by simp [active,counts,Server.left]
    yields := by simp [active,counts]
    closing := by simp [active]
    armed := by simp [conns]
    intact := intact }

/-- Two threads never drive one connection. -/
theorem apart (before : Driven settings s) {tid tid' : Nat} {a a' : Activation} (one : s.active tid = some a)
    (two : s.active tid' = some a') (same : a.conn = a'.conn) : tid = tid' :=
  owner_unique before.dispatched (before.driving tid a one).1 (same ▸ (before.driving tid' a' two).1)

theorem dispatch (before : Driven settings s) (q : Request) (allocated : Bool) (idle : s.process.main = .idle)
    (usual : q.initState.unusual = false) (received : List Int) :
    Driven settings {s with received := received, process := s.process.dispatchConnNew q allocated} := by
  have workers : (s.process.dispatchConnNew q allocated).workers = s.process.workers := by
    unfold Process.dispatchConnNew
    split <;> rfl
  refine { before with
    dispatched := before.dispatched.dispatchConnNew idle q allocated
    pushed := ?_
    pushing := ?_
    driving := ?_
    live := ?_
    unowned := ?_ } <;> simp only [workers]
  · exact before.pushed
  · intro t item here
    unfold Process.dispatchConnNew at here
    split at here
    · cases here
      exact usual
    · simp [idle] at here
  · exact before.driving
  · exact before.live
  · exact before.unowned

/-- A connection that somebody owns is not made again. -/
theorem connNew_kept (before : Driven settings s) (l : Label) {t d : Nat}
    (owns : (s.process.workers t).owns d = true) : s.connNew l d = s.conns d := by
  unfold Server.connNew
  split
  next tid =>
    cases here : (s.process.workers tid).pc with
    | connNew item =>
      refine Function.update_of_ne (fun same => ?_) _ _
      rw [same,unmade before.dispatched here t] at owns
      cases owns
    | _ => rfl
  next => rfl

theorem connNew_made (before : Driven settings s) {t : Nat} {item : CqItem}
    (here : (s.process.workers t).pc = .connNew item) :
    (s.connNew (.advance t true) item.dispatch).state.unusual = false := by
  have same : s.connNew (.advance t true) item.dispatch = item.connection := by
    simp [Server.connNew,here]
  rw [same]
  refine before.pushed t item ?_
  rw [(before.dispatched.handoff t).queue,(before.dispatched.handoff t).settled,here]
  simp [WorkerPc.unsettled]

private theorem pushed_step (before : Driven settings s) {l : Label} {p : Process} (free : s.free l = true)
    (move : ProcessMove s.process l p) :
    (∀ t, ∀ item ∈ (p.workers t).pushed, item.initState.unusual = false) ∧
      ∀ t item, p.main = .push t item → item.initState.unusual = false := by
  have kept (tid : Nat) (w : Worker) (same : w.pushed = (s.process.workers tid).pushed) (t : Nat) (item : CqItem)
      (member : item ∈ ((s.process.setWorker tid w).workers t).pushed) : item.initState.unusual = false := by
    rw [s.process.setWorker_pushed same] at member
    exact before.pushed t item member
  cases move with
  | dispatch q allocated idle => cases free
  | push tid item here =>
    refine ⟨fun t other member => ?_,by simp⟩
    rcases Process.mem_cqPush member with old | ⟨_,rfl⟩
    · exact before.pushed t other old
    · exact before.pushing tid other here
  | notify tid written here =>
    refine ⟨fun t item member => kept tid _ ?_ t item member,by simp [Process.notify]⟩
    split <;> rfl
  | tell tid b other | read tid b rest waiting pipe =>
    refine ⟨fun t item member => kept tid _ ?_ t item member,before.pushing⟩
    rfl
  | advance tid made =>
    exact ⟨fun t item member => kept tid _ ((s.process.workers tid).advance_frame made).2 t item member,
      before.pushing⟩

theorem process (before : Driven settings s) (l : Label) (p : Process) (free : s.free l = true)
    (move : ProcessMove s.process l p) (ok : Memcached.step s.process l = some p) :
    Driven settings {s with process := p, conns := s.connNew l} := by
  obtain ⟨pushed,pushing⟩ := before.pushed_step free move
  have grows {t d : Nat} (owns : (s.process.workers t).owns d = true) : (p.workers t).owns d = true := by
    rcases step_worker move t with ⟨same,_⟩ | ⟨made,_,same⟩
    · simpa [Worker.owns,same] using owns
    · rw [same]
      exact (advance_owns _ made d).mpr (.inl owns)
  refine { before with
    dispatched := before.dispatched.step l p ok
    pushed := pushed
    pushing := pushing
    driving := ?_
    live := ?_
    unowned := ?_
    closing := ?_
    armed := ?_ }
  · intro tid a active
    change s.active tid = some a at active
    obtain ⟨owns,waiting,opened,ending⟩ := before.driving tid a active
    refine ⟨grows owns,?_,opened,ending⟩
    rcases step_worker move tid with ⟨_,same | read⟩ | ⟨made,advance,_⟩
    · exact same.trans waiting
    · simp [read,Server.free,active] at free
    · simp [advance,Server.free,active] at free
  · intro t d owns opened
    by_cases old : (s.process.workers t).owns d = true
    · dsimp only
      rw [before.connNew_kept l old]
      exact before.live t d old opened
    · rcases step_worker move t with ⟨same,_⟩ | ⟨made,advance,same⟩
      · exact absurd (by simpa [Worker.owns,same] using owns) old
      · dsimp only at owns
        rw [same] at owns
        obtain ⟨made,item,here,rfl⟩ := ((advance_owns _ made d).mp owns).resolve_left old
        subst made advance
        exact before.connNew_made here
  · intro d none
    refine before.unowned d fun t => Bool.eq_false_iff.mpr fun owns => ?_
    have now := grows owns
    rw [none t] at now
    cases now
  · intro tid a active yielded
    dsimp only
    rw [before.connNew_kept l (before.driving tid a active).1]
    exact before.closing tid a active yielded
  · intro d ending
    have owned : ∃ t, (s.process.workers t).owns d = true := by
      by_contra none
      simp only [not_exists,Bool.not_eq_true] at none
      have stopped := (before.unowned d none).2
      rw [ending] at stopped
      cases stopped
    obtain ⟨t,owns⟩ := owned
    dsimp only
    rw [before.connNew_kept l owns]
    exact before.armed d ending

/-- A thread works on one of its own connections. -/
theorem drive (before : Driven settings s) (tid d : Nat) (c : Connection) (active : Option Activation)
    (yields activations commands closes : Nat) (ending : Ending)
    (owns : (s.process.workers tid).owns d = true) (waiting : (s.process.workers tid).pc = .waiting)
    (mine : ∀ a, s.active tid = some a → a.conn = d)
    (still : ∀ a, active = some a → a.conn = d ∧ closes = 0 ∧ ending = .stopped ∧ a.nreqs ≤ settings.nreqs ∧
      (a.yielded = true → c.state = .closing))
    (usual : closes = 0 → c.state.unusual = false) (once : closes ≤ 1)
    (budget : commands + (active.map fun a => a.nreqs.toNat).getD 0 ≤ settings.nreqs * activations)
    (yielded : yields + (active.map fun a => if a.yielded then 0 else 1).getD 0 ≤ activations)
    (armed : ending = .yielded → c.rbytes = 0 ∨ c.evFlags = (evWrite ||| evPersist : Nat)) :
    Driven settings {s with
      conns := Function.update s.conns d c
      active := Function.update s.active tid active
      connYields := Function.update s.connYields tid yields
      activations := Function.update s.activations tid activations
      commands := Function.update s.commands tid commands
      endings := Function.update s.endings d ending
      closes := Function.update s.closes d closes} := by
  have others {t : Nat} {a : Activation} (other : t ≠ tid) (driving : s.active t = some a) : a.conn ≠ d := by
    rintro rfl
    exact other (owner_unique before.dispatched (before.driving t a driving).1 owns)
  refine { before with
    driving := ?_
    live := ?_
    closed := ?_
    unowned := ?_
    rationed := ?_
    budget := ?_
    yields := ?_
    closing := ?_
    armed := ?_ } <;> dsimp only [Server.left]
  · intro t a driving
    by_cases same : t = tid
    · subst same
      rw [Function.update_self] at driving
      obtain ⟨rfl,opened,stopped,_,_⟩ := still a driving
      simp only [Function.update_self]
      exact ⟨owns,waiting,opened,stopped⟩
    · rw [Function.update_of_ne same] at driving
      have apart := others same driving
      simp only [Function.update_of_ne apart]
      exact before.driving t a driving
  · intro t e owned opened
    by_cases same : e = d
    · subst same
      rw [Function.update_self] at opened ⊢
      exact usual opened
    · rw [Function.update_of_ne same] at opened ⊢
      exact before.live t e owned opened
  · intro e
    by_cases same : e = d
    · subst same
      rwa [Function.update_self]
    · rw [Function.update_of_ne same]
      exact before.closed e
  · intro e none
    have same : e ≠ d := by
      rintro rfl
      rw [none tid] at owns
      cases owns
    rw [Function.update_of_ne same,Function.update_of_ne same]
    exact before.unowned e none
  · intro t a driving
    by_cases same : t = tid
    · subst same
      rw [Function.update_self] at driving
      exact (still a driving).2.2.2.1
    · rw [Function.update_of_ne same] at driving
      exact before.rationed t a driving
  · intro t
    by_cases same : t = tid
    · subst same
      simpa only [Function.update_self] using budget
    · simpa only [Function.update_of_ne same,Server.left] using before.budget t
  · intro t
    by_cases same : t = tid
    · subst same
      simpa only [Function.update_self] using yielded
    · simpa only [Function.update_of_ne same] using before.yields t
  · intro t a driving out
    by_cases same : t = tid
    · subst same
      rw [Function.update_self] at driving
      obtain ⟨rfl,_,_,_,closing⟩ := still a driving
      rw [Function.update_self]
      exact closing out
    · rw [Function.update_of_ne same] at driving
      rw [Function.update_of_ne (others same driving)]
      exact before.closing t a driving out
  · intro e ended
    by_cases same : e = d
    · subst same
      rw [Function.update_self] at ended ⊢
      exact armed ended
    · rw [Function.update_of_ne same] at ended ⊢
      exact before.armed e ended

theorem event (before : Driven settings s) (tid d : Nat) (fd which : Int) (left : Connection)
    (waiting : (s.process.workers tid).pc = .waiting) (idle : s.active tid = none)
    (owns : (s.process.workers tid).owns d = true) (opened : s.closes d = 0) :
    Driven settings (s.eventHandler settings tid d fd which left) := by
  have mine (a : Activation) (driving : s.active tid = some a) : a.conn = d := by
    rw [idle] at driving
    cases driving
  have budget := before.budget tid
  have yields := before.yields tid
  simp only [Server.left,idle,Option.map_none,Option.getD_none,Nat.add_zero] at budget yields
  unfold Server.eventHandler
  dsimp only
  split
  · have closed := before.drive tid d left none (s.connYields tid)
      (s.activations tid) (s.commands tid) 1 .closed owns waiting mine (by simp) (by simp) le_rfl
      (by simpa using budget) (by simpa using yields) (by simp)
    simpa [Server.connClose,opened,← idle] using closed
  · have begun := before.drive tid d {s.conns d with which := which} (some ⟨d,settings.nreqs,false⟩)
      (s.connYields tid) (s.activations tid + 1) (s.commands tid) 0 .stopped owns waiting mine (by simp)
      (fun _ => before.live tid d owns opened) (Nat.zero_le 1)
      (by simp [Nat.mul_add]; omega) (by simpa using yields) (by simp)
    simpa [← opened] using begun

theorem iterate (before : Driven settings s) (tid : Nat) (o : Callee) (a : Activation) (driving : s.active tid = some a)
    (usual : s.usual (.iterate tid o) = true) (updates : s.updates (.iterate tid o) = true) (move : DriveMove s tid a o u) :
    Driven settings u := by
  obtain ⟨owns,waiting,opened,stopped⟩ := before.driving tid a driving
  have live := before.live tid a.conn owns opened
  have mine (b : Activation) (same : s.active tid = some b) : b.conn = a.conn := by
    rw [driving] at same
    cases same
    rfl
  have closing := before.closing tid a driving
  have rationed := before.rationed tid a driving
  have budget := before.budget tid
  have yields := before.yields tid
  simp only [Server.left,driving,Option.map_some,Option.getD_some] at budget yields
  have usual (none : ((s.conns a.conn).state = .closing && !(s.conns a.conn).transport.isUdp) = false) :
      o.left.state.unusual = false := by
    simpa [Server.usual,Server.closing,driving,none] using usual
  -- outside `conn_closing` the loop has not yielded yet
  have early (here : (s.conns a.conn).state ≠ .closing) : a.yielded = false :=
    Bool.eq_false_iff.mpr fun yielded => here (closing yielded)
  cases move with
  | continued c stop here fine =>
    have early := early here
    have next := before.drive tid a.conn c (if stop then none else some a) (s.connYields tid) (s.activations tid)
      (s.commands tid) 0 .stopped owns waiting mine ?_ (fun _ => fine (usual (by simp [here]))) (Nat.zero_le 1)
      ?_ ?_ (by simp)
    · simpa [Server.put,← opened,← stopped] using next
    · cases stop <;> simp [early,rationed]
    · cases stop <;> simp <;> omega
    · simp only [early] at yields
      cases stop <;> simp [early] at * <;> omega
  | reset here left =>
    have early := early (by simp [here])
    have next := before.drive tid a.conn o.left (some {a with nreqs := a.nreqs - 1}) (s.connYields tid) (s.activations tid)
      (s.commands tid + 1) 0 .stopped owns waiting mine (by simp [early]; omega) (fun _ => usual (by simp [here]))
      (Nat.zero_le 1)
      (by simp; omega) (by simpa using yields) (by simp)
    simpa [Server.resetCmdHandler,Server.put,← opened,← stopped] using next
  | rearmed here out updated =>
    have early := early (by simp [here])
    have watched : o.left.evFlags = (evWrite ||| evPersist : Nat) := by
      simpa [Server.updates,Server.yielding,driving,here,out,updated] using updates
    have next := before.drive tid a.conn o.left none
      (s.connYields tid + 1) (s.activations tid) (s.commands tid) 0 .yielded owns waiting mine (by simp)
      (fun _ => usual (by simp [here])) (Nat.zero_le 1) (by simp; omega) (by simpa [early] using yields)
      (fun _ => .inr watched)
    simpa [Server.ended,Server.put,← opened] using next
  | unarmed here out =>
    have early := early (by simp [here])
    have next := before.drive tid a.conn {o.left with state := .closing}
      (some {a with nreqs := a.nreqs - 1, yielded := true})
      (s.connYields tid + 1) (s.activations tid) (s.commands tid) 0 .stopped owns waiting mine (by simp; omega)
      (by simp [ConnState.unusual]) (Nat.zero_le 1) (by simp; omega) (by simpa [early] using yields) (by simp)
    simpa [Server.put,← opened,← stopped] using next
  | drained here out empty =>
    have early := early (by simp [here])
    have next := before.drive tid a.conn (s.conns a.conn) none
      (s.connYields tid + 1) (s.activations tid) (s.commands tid) 0 .yielded owns waiting mine (by simp)
      (fun _ => live) (Nat.zero_le 1) (by simp; omega) (by simpa [early] using yields) (fun _ => .inl empty)
    simpa [Server.ended,Server.put,← opened] using next
  | cleaned here udp =>
    have next := before.drive tid a.conn o.left none
      (s.connYields tid) (s.activations tid) (s.commands tid) 0 .cleaned owns waiting mine (by simp)
      (fun _ => usual (by simp [udp])) (Nat.zero_le 1) (by simp; omega) (by simp; omega) (by simp)
    simpa [Server.ended,Server.put,← opened] using next
  | closed here tcp =>
    have next := before.drive tid a.conn o.left none
      (s.connYields tid) (s.activations tid) (s.commands tid) 1 .closed owns waiting mine (by simp)
      (by simp) le_rfl (by simp; omega) (by simp; omega) (by simp)
    simpa [Server.connClose,Server.put,opened] using next
  | aborted here => simp [here] at live

theorem step (before : Driven settings s) (l : ServerLabel) (lawful : s.lawful l = true)
    (ok : serverStep settings s l = some u) : Driven settings u := by
  simp only [Server.lawful,Bool.and_eq_true] at lawful
  obtain ⟨⟨notified,usual⟩,updates⟩ := lawful
  cases (serverStep_move ok).2 with
  | reject sfd currConns allocated crowded => exact { before with }
  | dispatch l q allocated origin idle =>
    refine before.dispatch q allocated idle ?_ _
    rcases origin with rfl | ⟨_,_,same⟩
    · simpa [Server.usual] using usual
    · rw [same]
      rfl
  | process l p free move moved => exact before.process l p free move moved
  | event tid d fd which left waiting idle =>
    simp only [Server.notified,Bool.and_eq_true,decide_eq_true_eq] at notified
    exact before.event tid d fd which left waiting idle notified.1 notified.2
  | iterate tid o a u driving move => exact before.iterate tid o a driving usual updates move

end Driven

theorem run_driven {settings : Settings} {start s : Server} {ls : List ServerLabel} (begun : start.Started)
    (run : Run (serverStep settings) start ls s)
    (lawful : Along (serverStep settings) (fun s l => s.lawful l = true) start ls) : Driven settings s :=
  run.keeps _ (Driven settings) (fun _ l _ before lawful ok => before.step l lawful ok) lawful (.start begun)

section
variable {settings : Settings} {s u : Server}

/-- Without a new event, a command started is one less to come. -/
theorem ration_step {l : ServerLabel} {tid : Nat} (ok : serverStep settings s l = some u)
    (other : ∀ d fd which left, l ≠ .event tid d fd which left) :
    u.commands tid + u.left tid ≤ s.commands tid + s.left tid := by
  cases (serverStep_move ok).2 with
  | reject | dispatch | process => exact le_rfl
  | event t d fd which left =>
    have apart : tid ≠ t := fun same => other d fd which left (by rw [same])
    unfold Server.eventHandler
    dsimp only
    split <;> simp [Server.connClose,Server.left,apart]
  | iterate t o a u driving move =>
    by_cases mine : tid = t
    · subst mine
      cases move with
      | continued c stop here fine => cases stop <;> simp [Server.put,Server.left,driving]
      | reset here left =>
        simp only [Server.resetCmdHandler,Server.put,Server.left,driving,Function.update_self,Bool.false_eq_true,
          if_false,Option.map_some,Option.getD_some]
        omega
      | unarmed here out =>
        simp only [Server.put,Server.left,driving,Function.update_self,Bool.false_eq_true,if_false,
          Option.map_some,Option.getD_some]
        omega
      | rearmed | drained | cleaned | closed =>
        simp [Server.put,Server.ended,Server.connClose,Server.left,driving]
      | aborted => exact le_rfl
    · cases move <;>
        simp [Server.resetCmdHandler,Server.put,Server.ended,Server.connClose,Server.left,mine]

theorem ration_run {ls : List ServerLabel} {tid : Nat} (run : Run (serverStep settings) s ls u)
    (other : ∀ l ∈ ls, ∀ d fd which left, l ≠ .event tid d fd which left) :
    u.commands tid + u.left tid ≤ s.commands tid + s.left tid :=
  run.keeps (fun _ l => ∀ d fd which left, l ≠ .event tid d fd which left)
    (fun v => v.commands tid + v.left tid ≤ s.commands tid + s.left tid)
    (fun _ _ _ before apart ok => (ration_step ok apart).trans before)
    (along_of_forall _ (fun l => ∀ d fd which left, l ≠ .event tid d fd which left) s ls other) le_rfl

/-- An activation that goes on after its budget was used up ends next. A TCP connection is
then closed; a UDP one is only cleaned up. -/
theorem yielded_closes {tid : Nat} {a : Activation} {o : Callee} (driven : Driven settings s)
    (driving : s.active tid = some a) (yielded : a.yielded = true)
    (ok : serverStep settings s (.iterate tid o) = some u) :
    u.active tid = none ∧
      if (s.conns a.conn).transport.isUdp then u.endings a.conn = .cleaned ∧ u.closes a.conn = 0
      else u.endings a.conn = .closed ∧ u.closes a.conn = 1 := by
  have closing := driven.closing tid a driving yielded
  have opened := (driven.driving tid a driving).2.2.1
  cases (serverStep_move ok).2 with
  | dispatch _ q allocated origin => simp at origin
  | iterate _ _ b u driven move =>
    rw [driving] at driven
    cases driven
    cases move with
    | continued c stop here fine => exact absurd closing here
    | reset here | rearmed here | unarmed here | drained here =>
      rw [here] at closing
      cases closing
    | cleaned here udp => simp [Server.put,Server.ended,udp,opened]
    | closed here tcp => simp [Server.put,Server.connClose,tcp,opened]
    | aborted here =>
      rw [closing] at here
      cases here

end

/-- The connections of the workers, when libevent and the functions called by
`drive_machine` do what is expected of them. A connection is driven by the thread it was
handed to and by no other. Before it returns to its event loop, a thread starts at most
`nreqs` commands. When it gives up with input left in the buffer, the connection is watched
for writing; if it cannot be, the activation ends with the next iteration, which closes a
TCP connection but leaves a UDP one open and unwatched. Nothing is closed twice, and
`abort` is not reached. -/
theorem connections_driven (settings : Settings) (start s : Server) (ls : List ServerLabel) (begun : start.Started)
    (run : Run (serverStep settings) start ls s)
    (lawful : Along (serverStep settings) (fun s l => s.lawful l = true) start ls) :
    s.aborted = false ∧ (∀ d, s.closes d ≤ 1) ∧
      (∀ tid a, s.active tid = some a → (s.process.workers tid).owns a.conn = true ∧ s.closes a.conn = 0 ∧
        ∀ tid' a', s.active tid' = some a' → a'.conn = a.conn → tid' = tid) ∧
      (∀ tid more u, Run (serverStep settings) s more u →
        (∀ l ∈ more, ∀ d fd which left, l ≠ .event tid d fd which left) →
        u.commands tid ≤ s.commands tid + settings.nreqs) ∧
      (∀ tid, s.connYields tid ≤ s.activations tid) ∧
      (∀ d, s.endings d = .yielded →
        (s.conns d).rbytes = 0 ∨ (s.conns d).evFlags = (evWrite ||| evPersist : Nat)) ∧
      ∀ tid a o u, s.active tid = some a → a.yielded = true → serverStep settings s (.iterate tid o) = some u →
        u.active tid = none ∧
          if (s.conns a.conn).transport.isUdp then u.endings a.conn = .cleaned ∧ u.closes a.conn = 0
          else u.endings a.conn = .closed ∧ u.closes a.conn = 1 := by
  have driven := run_driven begun run lawful
  refine ⟨driven.intact,driven.closed,?_,?_,?_,driven.armed,fun tid a o u => yielded_closes driven⟩
  · intro tid a driving
    obtain ⟨owns,_,opened,_⟩ := driven.driving tid a driving
    exact ⟨owns,opened,fun tid' a' driving' same => driven.apart driving' driving same⟩
  · intro tid more u run other
    have bound := ration_run run other
    have left : s.left tid ≤ settings.nreqs := by
      unfold Server.left
      cases driving : s.active tid with
      | none => exact Nat.zero_le _
      | some a =>
        have := driven.rationed tid a driving
        simp only [Option.map_some,Option.getD_some]
        omega
    omega
  · intro tid
    have := driven.yields tid
    omega

def serving (n : Nat) : Server :=
  ⟨started n,0,fun _ => ⟨0,.newCmd,0,0,0,.tcp⟩,fun _ => none,fun _ => 0,false,[],[],fun _ => 0,fun _ => 0,
    fun _ => .stopped,fun _ => 0⟩

theorem serving_Started (n : Nat) (some : 0 < n) : (serving n).Started :=
  ⟨started_Started n some,rfl,fun _ => rfl,rfl,rfl,rfl,fun _ => ⟨rfl,rfl,rfl⟩,fun _ => ⟨rfl,rfl⟩⟩

def oneCommand : Settings := ⟨true,1024,5,1⟩

def callee (state : ConnState) (rbytes : Nat) : Callee := ⟨.dataReceived,true,false,⟨11,state,2,18,rbytes,.tcp⟩,false⟩

/-- A connection comes in and is handed over. Its first event lets one command through;
five bytes are left when the budget is used up, and the event cannot be changed. -/
def outOfBudget : List ServerLabel :=
  [ServerLabel.accept 11 3 true,.process .push,.process (.notify true),.process (.read 0),
    .process (.advance 0 true),.process (.advance 0 true),.process (.advance 0 true),
    .event 0 0 11 2 ⟨11,.closed,2,0,0,.tcp⟩,.iterate 0 (callee .parseCmd 9),.iterate 0 (callee .newCmd 5),
    .iterate 0 (callee .waiting 5)]

def spentServer : Server := final (serverStep oneCommand) (serving 1) outOfBudget

theorem connections_driven_outOfBudget :
    spentServer.commands 0 = 1 ∧ spentServer.active 0 = some ⟨0,-1,true⟩ ∧
      ∀ o u, serverStep oneCommand spentServer (.iterate 0 o) = some u → u.active 0 = none ∧
        if (spentServer.conns 0).transport.isUdp then u.endings 0 = .cleaned ∧ u.closes 0 = 0
        else u.endings 0 = .closed ∧ u.closes 0 = 1 := by
  have driving : spentServer.active 0 = some ⟨0,-1,true⟩ := by decide +kernel
  exact ⟨by decide +kernel,driving,fun o u =>
    (connections_driven oneCommand (serving 1) _ outOfBudget (serving_Started 1 Nat.one_pos)
      (final_run _ _ _ (by decide +kernel)) (by decide +kernel)).2.2.2.2.2.2 0 _ o u driving rfl⟩

end Reactor.Memcached
