import Reactor.Memcached.ThreadInit
import Mathlib.Algebra.Order.BigOperators.Group.Finset

/-! What the wiring of `thread_init` is for: until it returns no thread can find a record
incomplete, and after that the program refines the hand-off of `Process`. -/
namespace Reactor.Memcached
open Reactor.Transition

/-- A callback goes its way without another look at the pipe. -/
theorem Worker.advance_pipe (w : Worker) (made : Bool) (bs : List UInt8) :
    ({w with pipe := bs} : Worker).advance made = {w.advance made with pipe := bs} := by
  unfold Worker.advance
  cases here : w.pc with
  | waiting | exited | free => simp [here,Worker.cqiFree]
  | switch buf =>
    simp only [Worker.switch,Worker.cqPop,Worker.flip]
    split
    · split <;> rfl
    · split
      · rfl
      · split <;> rfl
  | connNew item =>
    simp only [Worker.connNew,Worker.owning]
    split
    · rfl
    · split <;> rfl

def InitPc.laid (n : Nat) : InitPc → Nat
  | .setup i => i
  | _ => n

def InitPc.created (n : Nat) : InitPc → Nat
  | .setup _ => 0
  | .create i => i
  | _ => n

def InitPc.Within (n : Nat) : InitPc → Prop
  | .setup i | .create i => i < n
  | _ => True

/-- The worker that the main thread is handing a connection to. -/
def MainPc.target : MainPc → Option Nat
  | .idle => none
  | .push tid _ | .notify tid => some tid

/-- The index that `dispatch_conn_new` takes a record at is the index of a worker. -/
structure Process.InTurn (p : Process) : Prop where
  positive : 0 < p.numThreads
  least : -1 ≤ p.lastThread
  most : p.lastThread < p.numThreads
  target : ∀ tid, p.main.target = some tid → tid < p.numThreads

/-- Nothing has been dispatched yet. -/
structure Quiet (d : Daemon) : Prop where
  pipes : ∀ p, d.heap.pipes p = []
  queues : ∀ a items, d.heap.queues a = some items → items = []
  waiting : ∀ t, (d.callbacks t).pc = .waiting
  started : d.process.Started

structure Built (d : Daemon) : Prop where
  within : d.pc.Within d.process.numThreads
  laid : Laid d.heap (d.pc.laid d.process.numThreads)
  reserved : d.reservedFds = 5 * d.pc.laid d.process.numThreads
  created : ∀ t, d.stages t = .uncreated ↔ d.pc.created d.process.numThreads ≤ t
  returned : d.pc = .returned → ∀ t < d.process.numThreads, (d.stages t).isRegistered = true
  quiet : d.pc ≠ .returned → Quiet d
  turn : d.process.InTurn
  callbacks : ∀ t, (d.callbacks t).pc ≠ .waiting → (d.callbacks t).me = t ∧ t < d.process.numThreads
  faulted : d.faulted = false

theorem Quiet.worker {d : Daemon} (quiet : Quiet d) : d.worker = newWorker := by
  ext1 t
  have bytes : d.heap.bytes t = [] := by
    rw [Heap.bytes]
    cases d.heap.receivePipe t with
    | none => rfl
    | some p => exact quiet.pipes p
  have items : d.heap.items t = [] := by
    rw [Heap.items]
    cases there : d.heap.queued t with
    | none => rfl
    | some items =>
      obtain ⟨a,_,found⟩ := Option.bind_eq_some_iff.mp there
      exact quiet.queues a items found
  rw [Daemon.worker,bytes,items,quiet.waiting t,quiet.started.2.2.2.1]
  rfl

theorem Quiet.handOff {d : Daemon} (quiet : Quiet d) : d.handOff = d.process := by
  rw [Daemon.handOff,quiet.worker,← quiet.started.2.2.2.1]

section
variable {d u : Daemon} {k t : Nat}

/-- A step that concerns one worker changes the view of this worker only. -/
theorem worker_frame (workers : ∀ r ≠ t, u.process.workers r = d.process.workers r)
    (callbacks : ∀ r ≠ t, u.callbacks r = d.callbacks r) (bytes : ∀ r ≠ t, u.heap.bytes r = d.heap.bytes r)
    (items : ∀ r ≠ t, u.heap.items r = d.heap.items r) : u.worker = Function.update d.worker t (u.worker t) := by
  ext1 r
  by_cases same : r = t
  · rw [same,Function.update_self]
  · rw [Function.update_of_ne same,Daemon.worker,Daemon.worker,workers r same,callbacks r same,bytes r same,items r same]

theorem worker_store (laid : Laid d.heap k) {w : Worker} {items : List CqItem} (here : d.heap.queued t = some items) :
    (d.store t w).worker = Function.update d.worker t {w with pc := (d.callbacks t).pc, pipe := d.heap.bytes t} := by
  obtain ⟨a,own,_⟩ := Option.bind_eq_some_iff.mp here
  have heap : (d.store t w).heap = {d.heap with queues := Function.update d.heap.queues a (some w.newConnQueue)} := by
    simp only [Daemon.store,own]
  have stored := laid.items_update own w.newConnQueue
  rw [worker_frame (u := d.store t w) (d := d) (t := t)]
  · simp only [Daemon.worker,heap,stored,Function.update_self]
    simp only [Daemon.store,Process.setWorker_self]
    rfl
  · exact fun r other => d.process.setWorker_other w other
  · exact fun r _ => rfl
  · rw [heap]
    exact fun r _ => rfl
  · intro r other
    rw [heap,stored,Function.update_of_ne other]

theorem worker_write (laid : Laid d.heap k) {p : Nat} (here : d.heap.receivePipe t = some p) (bs : List UInt8)
    (callbacks : Nat → Callback) (others : ∀ r ≠ t, callbacks r = d.callbacks r) :
    Daemon.worker {d with heap := {d.heap with pipes := Function.update d.heap.pipes p bs}, callbacks := callbacks} =
      Function.update d.worker t {d.worker t with pc := (callbacks t).pc, pipe := bs} := by
  have written := laid.bytes_update here bs
  rw [worker_frame (d := d) (t := t)]
  · simp only [Daemon.worker,written,Function.update_self]
    rfl
  · exact fun r _ => rfl
  · exact others
  · intro r other
    rw [written,Function.update_of_ne other]
  · exact fun r _ => rfl

theorem worker_setWorker {w : Worker} : Daemon.worker {d with process := d.process.setWorker t w} =
    Function.update d.worker t {w with pc := (d.callbacks t).pc, pipe := d.heap.bytes t, newConnQueue := d.heap.items t} := by
  rw [worker_frame (d := d) (t := t)]
  · simp only [Daemon.worker,Process.setWorker_self]
  · exact fun r other => d.process.setWorker_other w other
  · exact fun r _ => rfl
  · exact fun r _ => rfl
  · exact fun r _ => rfl

theorem handOff_of_view {workers : Nat → Worker} (view : u.worker = workers) :
    u.handOff = {u.process with workers := workers} := by
  rw [← view]
  rfl

theorem laid_store (laid : Laid d.heap k) {w : Worker} : Laid (d.store t w).heap k := by
  refine laid.refill d.heap.pipes fun a some => ?_
  cases (d.heap.threads t).newConnQueue with
  | none => exact some
  | some b =>
    by_cases same : a = b
    · simp [same]
    · simpa only [Function.update_of_ne same] using some

/-- Before `thread_init` returns, what remains to say is how far it is. -/
theorem Quiet.built (quiet : Quiet d) (early : d.pc ≠ .returned) (within : d.pc.Within d.process.numThreads)
    (laid : Laid d.heap (d.pc.laid d.process.numThreads)) (reserved : d.reservedFds = 5 * d.pc.laid d.process.numThreads)
    (created : ∀ t, d.stages t = .uncreated ↔ d.pc.created d.process.numThreads ≤ t)
    (faulted : d.faulted = false) : Built d := by
  obtain ⟨positive,least,most,_,main,_⟩ := quiet.started
  exact {
    within, laid, reserved, created, faulted
    returned := fun up => absurd up early
    quiet := fun _ => quiet
    turn := ⟨positive,least,most,by simp [main,MainPc.target]⟩
    callbacks := fun t busy => absurd (quiet.waiting t) busy }

theorem begun_built (begun : d.Begun) : Built d := by
  obtain ⟨started,pc,blank,closed,pipes,queues,stages,callbacks,reserved,faulted⟩ := begun
  have none : ∀ t p, d.heap.receivePipe t ≠ some p := by simp [Heap.receivePipe,blank,ThreadRecord.blank]
  have quiet : Quiet d := ⟨pipes,queues,callbacks,started⟩
  refine quiet.built (by simp [pc]) ?_ ⟨?_,?_,?_,?_,?_⟩ ?_ ?_ faulted
  · rw [pc]
    exact started.1
  · simp [pc,InitPc.laid]
  · exact fun t _ => blank t
  · exact fun t _ p one _ => absurd one (none t p)
  · simp [blank,ThreadRecord.blank]
  · simp [closed]
  · simp [pc,InitPc.laid,reserved]
  · simp [pc,InitPc.created,stages]

namespace Built

/-- The rest of `main` changes neither the wiring nor the threads. -/
theorem serve (before : Built d) (up : d.pc = .returned) {heap : Heap} {callbacks : Nat → Callback} {process : Process}
    (threads : process.numThreads = d.process.numThreads) (laid : Laid heap d.process.numThreads) (turn : process.InTurn)
    (own : ∀ t, (callbacks t).pc ≠ .waiting → (callbacks t).me = t ∧ t < d.process.numThreads) :
    Built {d with heap := heap, callbacks := callbacks, process := process} := by
  refine ⟨?_,?_,?_,?_,?_,?_,turn,?_,before.faulted⟩
  · simp [up,InitPc.Within]
  · simp only [up,InitPc.laid,threads]
    exact laid
  · simp only [threads]
    exact before.reserved
  · simp only [threads]
    exact before.created
  · simp only [threads]
    exact before.returned
  · exact fun early => absurd up early
  · simp only [threads]
    exact own

theorem fails (before : Built d) {text : Option String} : Built {d with failure := text} :=
  {before with quiet := fun early => {before.quiet early with}}

theorem setup (before : Built d) {i : Nat} {o : SetupCalls} (here : d.pc = .setup i) (offers : d.heap.offers o = true) :
    Built (d.setup i o) ∧ (d.setup i o).handOff = d.handOff := by
  have early : d.pc ≠ .returned := by simp [here]
  have quiet := before.quiet early
  unfold Daemon.setup
  split
  next => exact ⟨before.fails,rfl⟩
  next h ok =>
    have laid := before.laid
    have below := before.within
    have reserved := before.reserved
    have created := before.created
    simp only [here,InitPc.laid,InitPc.Within,InitPc.created] at laid below reserved created
    have next := laid.setup offers ok
    obtain ⟨r,w,b,a,_,_,_,rfl⟩ := setup_ok ok
    have still : Quiet {d with
        heap := {d.heap with
          threads := Function.update d.heap.threads i ⟨some r,some w,some b,some a,true,true⟩
          readEnd := Function.update d.heap.readEnd r (some d.heap.pipeCount)
          writeEnd := Function.update d.heap.writeEnd w (some d.heap.pipeCount)
          pipes := Function.update d.heap.pipes d.heap.pipeCount []
          pipeCount := d.heap.pipeCount + 1
          bases := Function.update d.heap.bases b (some [⟨some r,i⟩])
          queues := Function.update d.heap.queues a (some [])}
        pc := if i+1 < d.process.numThreads then .setup (i+1) else .create 0
        reservedFds := d.reservedFds + 5} := by
      refine ⟨fun p => ?_,fun q items found => ?_,quiet.waiting,quiet.started⟩
      · change Function.update d.heap.pipes d.heap.pipeCount [] p = []
        by_cases new : p = d.heap.pipeCount
        · simp [new]
        · rw [Function.update_of_ne new]
          exact quiet.pipes p
      · change Function.update d.heap.queues a (some []) q = some items at found
        by_cases new : q = a
        · simpa [new] using found.symm
        · rw [Function.update_of_ne new] at found
          exact quiet.queues q items found
    refine ⟨?_,still.handOff.trans quiet.handOff.symm⟩
    by_cases more : i+1 < d.process.numThreads
    · simp only [if_pos more] at still ⊢
      exact still.built (by simp) more next (by simp only [InitPc.laid]; omega) created before.faulted
    · have last : i+1 = d.process.numThreads := by omega
      simp only [if_neg more] at still ⊢
      rw [last] at next
      exact still.built (by simp) before.turn.positive next (by simp only [InitPc.laid]; omega) created before.faulted

theorem create (before : Built d) {i : Nat} (here : d.pc = .create i) (error : Option String) :
    Built (d.createWorker i error) ∧ (d.createWorker i error).handOff = d.handOff := by
  have early : d.pc ≠ .returned := by simp [here]
  have quiet := before.quiet early
  unfold Daemon.createWorker
  split
  next => exact ⟨before.fails,rfl⟩
  next =>
    refine ⟨?_,rfl⟩
    have laid := before.laid
    have below := before.within
    have reserved := before.reserved
    have created := before.created
    simp only [here,InitPc.laid,InitPc.Within,InitPc.created] at laid below reserved created
    have stages (t : Nat) : Function.update d.stages i .created t = .uncreated ↔ i+1 ≤ t := by
      by_cases own : t = i
      · simp [own]
      · rw [Function.update_of_ne own,created]
        omega
    by_cases more : i+1 < d.process.numThreads
    · simp only [if_pos more]
      exact Quiet.built {quiet with} (by simp) more laid reserved stages before.faulted
    · have last : i+1 = d.process.numThreads := by omega
      simp only [if_neg more]
      rw [last] at stages
      exact Quiet.built {quiet with} (by simp) trivial laid reserved stages before.faulted

/-- No thread exists before all records are complete. -/
theorem complete (before : Built d) {t : Nat} (created : d.stages t ≠ .uncreated) :
    Laid d.heap d.process.numThreads ∧ t < d.process.numThreads := by
  have below : t < d.pc.created d.process.numThreads := by
    by_contra late
    exact created ((before.created t).mpr (Nat.le_of_not_lt late))
  have within := before.within
  have laid := before.laid
  cases here : d.pc with
  | setup i =>
    rw [here] at below
    cases below
  | create i =>
    rw [here] at below within laid
    exact ⟨laid,Nat.lt_trans below within⟩
  | wait | returned =>
    rw [here] at below laid
    exact ⟨laid,below⟩

/-- A thread that has not registered yet keeps `thread_init` waiting. -/
theorem waits (before : Built d) {t : Nat} (created : d.stages t ≠ .uncreated) (still : (d.stages t).isRegistered = false) :
    d.pc ≠ .returned := by
  intro up
  have registered := before.returned up t (before.complete created).2
  rw [still] at registered
  cases registered

/-- A thread goes on in `worker_libevent`. -/
theorem stage (before : Built d) {t : Nat} {stage : ThreadStage} (created : d.stages t ≠ .uncreated)
    (begun : stage ≠ .uncreated) (kept : (d.stages t).isRegistered = true → stage.isRegistered = true) :
    Built {d with stages := Function.update d.stages t stage} := by
  refine {before with created := fun r => ?_, returned := fun up r inside => ?_, quiet := fun early => {before.quiet early with}}
  · change Function.update d.stages t stage r = .uncreated ↔ _
    by_cases own : r = t
    · rw [own,Function.update_self,← before.created t]
      exact iff_of_false begun created
    · rw [Function.update_of_ne own]
      exact before.created r
  · change (Function.update d.stages t stage r).isRegistered = true
    have registered := before.returned up r inside
    by_cases own : r = t
    · rw [own,Function.update_self]
      exact kept (own ▸ registered)
    · rwa [Function.update_of_ne own]

theorem lock (before : Built d) {t : Nat} (here : d.stages t = .created) :
    Built {d with stages := Function.update d.stages t .locked} ∧
      d.process.setWorker t {d.process.workers t with itemLockType := .granular} = d.process := by
  have created : d.stages t ≠ .uncreated := by simp [here]
  refine ⟨before.stage created (by simp) (by simp [here,ThreadStage.isRegistered]),?_⟩
  have quiet := before.quiet (before.waits created (by rw [here]; rfl))
  have same : {d.process.workers t with itemLockType := .granular} = d.process.workers t := by
    rw [quiet.started.2.2.2.1]
    rfl
  rw [same,Process.setWorker,Function.update_eq_self]

/-- `wait_for_thread_registration` has counted one call of each thread. -/
theorem wait (before : Built d) (here : d.pc = .wait) (all : d.process.numThreads ≤ d.registrations) :
    Built {d with pc := .returned} := by
  have laid := before.laid
  have reserved := before.reserved
  have created := before.created
  rw [here] at laid reserved created
  refine {before with within := trivial, laid, reserved, created, returned := ?_, quiet := fun early => absurd rfl early}
  intro _ t inside
  by_contra unregistered
  have unregistered : (d.stages t).isRegistered = false := Bool.eq_false_iff.mpr unregistered
  have started := (before.quiet (by simp [here])).started.2.2.2.1
  have flips (r : Nat) : (d.process.workers r).registrations = 0 := by
    rw [started]
    rfl
  have fewer : d.registrations < (Finset.range d.process.numThreads).card := by
    rw [Finset.card_eq_sum_ones]
    refine Finset.sum_lt_sum (fun r _ => ?_) ⟨t,Finset.mem_range.mpr inside,?_⟩
    · rw [flips]
      exact Bool.toNat_le _
    · simp [flips,unregistered]
  rw [Finset.card_range] at fewer
  exact absurd all (Nat.not_le.mpr fewer)

theorem up (before : Built d) {tid : Nat} (busy : d.process.main.target = some tid) :
    d.pc = .returned ∧ tid < d.process.numThreads := by
  refine ⟨?_,before.turn.target tid busy⟩
  by_contra early
  rw [(before.quiet early).started.2.2.2.2.1] at busy
  cases busy

theorem ready (before : Built d) (up : d.pc = .returned) : Laid d.heap d.process.numThreads := by
  have laid := before.laid
  rwa [up] at laid

theorem callback (before : Built d) (worker : t < d.process.numThreads) (pc : WorkerPc) (r : Nat)
    (busy : (Function.update d.callbacks t ⟨t,pc⟩ r).pc ≠ .waiting) :
    (Function.update d.callbacks t ⟨t,pc⟩ r).me = r ∧ r < d.process.numThreads := by
  by_cases same : r = t
  · rw [same,Function.update_self]
    exact ⟨rfl,worker⟩
  · rw [Function.update_of_ne same] at busy ⊢
    exact before.callbacks r busy

theorem dispatch (before : Built d) (on : d.process.exited = false) (up : d.pc = .returned) (idle : d.process.main = .idle)
    (q : Request) (allocated : Bool) :
    let u := {d with process := d.process.dispatchConnNew q allocated}
    Built u ∧ step d.handOff (.dispatch q allocated) = some u.handOff := by
  intro u
  obtain ⟨positive,least,most,target⟩ := before.turn
  constructor
  · cases allocated with
    | false => exact before.serve up rfl (before.ready up) ⟨positive,least,most,target⟩ before.callbacks
    | true =>
      have chosen : d.process.chosen = (d.process.lastThread+1) % d.process.numThreads :=
        Int.tmod_eq_emod_of_nonneg (by omega)
      have low := Int.emod_nonneg (d.process.lastThread+1) (b := d.process.numThreads) (by omega)
      have high := Int.emod_lt_of_pos (d.process.lastThread+1) (b := d.process.numThreads) (by omega)
      rw [← chosen] at low high
      refine before.serve up rfl (before.ready up) ⟨positive,?_,high,?_⟩ before.callbacks
      · exact Int.le_trans (by decide) low
      · rintro tid ⟨⟩
        change d.process.chosen.toNat < d.process.numThreads
        omega
  · have free : d.handOff.main = .idle := idle
    have live : ¬ d.handOff.exited = true := by simp [Daemon.handOff,on]
    rw [step,if_neg live]
    simp only [free,if_true]
    cases allocated <;> rfl

theorem push (before : Built d) (on : d.process.exited = false) {tid : Nat} {item : CqItem}
    (here : d.process.main = .push tid item) :
    Built (d.cqPush tid item) ∧ step d.handOff .push = some (d.cqPush tid item).handOff := by
  have target : d.process.main.target = some tid := by rw [here]; rfl
  obtain ⟨up,worker⟩ := before.up target
  have laid := before.ready up
  obtain ⟨items,queued⟩ := (laid.wired tid worker).queue
  have inHand : d.heap.items tid = items := by rw [Heap.items,queued]; rfl
  rw [Daemon.cqPush,queued]
  have view := worker_store (d := {d with process := {d.process with main := .notify tid}})
    (w := (d.load tid items).cqPush item) laid queued
  constructor
  · refine before.serve up rfl (laid_store laid) ?_ before.callbacks
    obtain ⟨positive,least,most,_⟩ := before.turn
    exact ⟨positive,least,most,by rintro r ⟨⟩; exact worker⟩
  · have live : ¬ d.handOff.exited = true := by simp [Daemon.handOff,on]
    have main : d.handOff.main = .push tid item := here
    rw [step,if_neg live]
    simp only [main,Option.some.injEq]
    rw [Daemon.handOff,Daemon.handOff,view]
    simp only [Daemon.load,Daemon.store,Process.setWorker,Worker.cqPush,Daemon.worker,inHand]
    rfl

theorem write (before : Built d) (up : d.pc = .returned) {tid : Nat} (worker : tid < d.process.numThreads) (b : UInt8) :
    Built (d.write tid b) ∧
      (d.write tid b).handOff = d.handOff.setWorker tid {d.worker tid with pipe := (d.worker tid).pipe ++ [b]} := by
  have laid := before.ready up
  obtain ⟨p,received,sent⟩ := (laid.wired tid worker).pipe
  have bytes : (d.worker tid).pipe = d.heap.pipes p := by
    change d.heap.bytes tid = _
    rw [Heap.bytes,received]
    rfl
  have view := worker_write laid received (d.heap.pipes p ++ [b]) d.callbacks fun _ _ => rfl
  rw [Daemon.write,sent,bytes]
  constructor
  · exact before.serve up rfl (laid.refill _ fun _ some => some) before.turn before.callbacks
  · rw [Daemon.handOff,view]
    rfl

theorem notify (before : Built d) (on : d.process.exited = false) {tid : Nat} (here : d.process.main = .notify tid)
    (written : Bool) :
    Built (d.notify tid written) ∧ step d.handOff (.notify written) = some (d.notify tid written).handOff := by
  have target : d.process.main.target = some tid := by rw [here]; rfl
  obtain ⟨up,worker⟩ := before.up target
  have laid := before.ready up
  obtain ⟨positive,least,most,_⟩ := before.turn
  have idle : Built {d with process := {d.process with main := .idle}} :=
    before.serve up rfl laid ⟨positive,least,most,by simp [MainPc.target]⟩ before.callbacks
  have live : ¬ d.handOff.exited = true := by simp [Daemon.handOff,on]
  have main : d.handOff.main = .notify tid := here
  rw [step,if_neg live]
  simp only [main,Option.some.injEq]
  cases written with
  | true =>
    obtain ⟨built,view⟩ := idle.write up worker 'c'.toUInt8
    refine ⟨built,Eq.trans ?_ view.symm⟩
    rfl
  | false =>
    refine ⟨idle.serve up rfl laid ⟨positive,least,most,by simp [MainPc.target,Process.setWorker]⟩ before.callbacks,?_⟩
    have view := worker_setWorker (d := {d with process := {d.process with main := .idle}}) (t := tid)
      (w := {d.process.workers tid with failedWrites := (d.process.workers tid).failedWrites+1})
    exact Eq.trans rfl (handOff_of_view view).symm

theorem event (before : Built d) (on : d.process.exited = false) {t i : Nat} (here : d.stages t = .looping)
    (waiting : (d.callbacks t).pc = .waiting) (ok : d.event t i = some u) :
    Built u ∧ step d.handOff (.read t) = some u.handOff := by
  obtain ⟨laid,worker⟩ := before.complete (t := t) (by simp [here])
  obtain ⟨⟨p,received,_⟩,events,_⟩ := laid.wired t worker
  rw [Daemon.event,events] at ok
  simp only at ok
  split at ok
  next => cases ok
  next e active =>
    -- the base has one event, for the pipe of this worker
    have only : e = ⟨(d.heap.threads t).notifyReceiveFd,t⟩ := by
      cases i with
      | zero => exact (Option.some.inj active).symm
      | succ i => cases active
    subst only
    have own : (d.heap.threads t).notifyReceiveFd.bind d.heap.readEnd = some p := received
    simp only [own] at ok
    split at ok
    next => cases ok
    next b rest bytes =>
      cases ok
      have up : d.pc = .returned := by
        by_contra early
        rw [(before.quiet early).pipes p] at bytes
        cases bytes
      have view := worker_write laid received rest (Function.update d.callbacks t ⟨t,.switch b⟩)
        fun r other => Function.update_of_ne other _ _
      constructor
      · exact before.serve up rfl (laid.refill _ fun _ some => some) before.turn (before.callback worker _)
      · have live : ¬ d.handOff.exited = true := by simp [Daemon.handOff,on]
        have pc : (d.handOff.workers t).pc = .waiting := waiting
        have pipe : (d.handOff.workers t).pipe = b::rest := by
          change d.heap.bytes t = _
          rw [Heap.bytes,received]
          exact bytes
        have read : step d.handOff (.read t) =
            some (d.handOff.setWorker t ({d.handOff.workers t with pipe := rest}.read (.byte b))) := by
          rw [step,if_neg live]
          simp only [pc,pipe]
        refine read.trans (congrArg some (Eq.trans ?_ (handOff_of_view view).symm))
        rw [Function.update_self]
        rfl

theorem advance (before : Built d) (on : d.process.exited = false) {t : Nat} (busy : (d.callbacks t).pc ≠ .waiting)
    (made : Bool) :
    Built (d.advance t made) ∧ step d.handOff (.advance t made) = some (d.advance t made).handOff := by
  obtain ⟨own,worker⟩ := before.callbacks t busy
  have up : d.pc = .returned := by
    by_contra early
    exact busy ((before.quiet early).waiting t)
  have laid := before.ready up
  obtain ⟨items,queued⟩ := (laid.wired t worker).queue
  have inHand : d.heap.items t = items := by rw [Heap.items,queued]; rfl
  have same : (d.worker t).advance made =
      {({d.load t items with pc := (d.callbacks t).pc} : Worker).advance made with pipe := d.heap.bytes t} := by
    rw [← Worker.advance_pipe,Daemon.worker,inHand]
    rfl
  simp only [Daemon.advance,own,queued]
  generalize piece : ({d.load t items with pc := (d.callbacks t).pc} : Worker).advance made = w at same ⊢
  have other : Daemon.worker {d with
      process := {d.process with exited := w.pc.isExited}, callbacks := Function.update d.callbacks t ⟨t,w.pc⟩} =
      Function.update d.worker t _ :=
    worker_frame (fun _ _ => rfl) (fun r other => Function.update_of_ne other _ _) (fun _ _ => rfl) fun _ _ => rfl
  have view := worker_store (w := w) (d := {d with
    process := {d.process with exited := w.pc.isExited}, callbacks := Function.update d.callbacks t ⟨t,w.pc⟩}) laid queued
  rw [other,Function.update_idem] at view
  simp only [Function.update_self] at view
  constructor
  · refine before.serve up rfl (laid_store laid) ?_ (before.callback worker _)
    obtain ⟨positive,least,most,target⟩ := before.turn
    exact ⟨positive,least,most,target⟩
  · have live : ¬ d.handOff.exited = true := by simp [Daemon.handOff,on]
    have started : ¬ (d.handOff.workers t).pc = .waiting := busy
    have piece' : step d.handOff (.advance t made) = some (d.handOff.advance t made) := by
      rw [step,if_neg live]
      exact if_neg started
    refine piece'.trans (congrArg some (Eq.trans ?_ (handOff_of_view view).symm))
    have record : (d.handOff.workers t).advance made = {w with pipe := d.heap.bytes t} := same
    rw [Process.advance,record]
    rfl

/-- The program keeps to the invariant, and each of its steps is one of the hand-off or none. -/
theorem step (before : Built d) {l : DaemonLabel} (lawful : d.lawful l = true) (ok : daemonStep d l = some u) :
    Built u ∧ (l.handOff = none → u.handOff = d.handOff) ∧
      ∀ k, l.handOff = some k → Memcached.step d.handOff k = some u.handOff := by
  simp only [Daemon.lawful,Bool.and_eq_true] at lawful
  obtain ⟨⟨offered,awaited⟩,toldLater⟩ := lawful
  obtain ⟨live,ok⟩ := Option.ite_none_left_eq_some.mp ok
  have on : d.process.exited = false := by
    simp only [Bool.or_eq_true,not_or,Bool.not_eq_true] at live
    exact live.1.2
  cases l with
  | setup o =>
    cases here : d.pc with
    | setup i =>
      simp only [here] at ok
      cases ok
      obtain ⟨built,same⟩ := before.setup here offered
      exact ⟨built,fun _ => same,by simp [DaemonLabel.handOff]⟩
    | create | wait | returned => simp [here] at ok
  | create error =>
    cases here : d.pc with
    | create i =>
      simp only [here] at ok
      cases ok
      obtain ⟨built,same⟩ := before.create here error
      exact ⟨built,fun _ => same,by simp [DaemonLabel.handOff]⟩
    | setup | wait | returned => simp [here] at ok
  | lock t =>
    obtain ⟨here,⟨⟩⟩ := Option.ite_none_right_eq_some.mp ok
    obtain ⟨built,same⟩ := before.lock here
    rw [same]
    exact ⟨built,fun _ => rfl,by simp [DaemonLabel.handOff]⟩
  | register t =>
    obtain ⟨here,⟨⟩⟩ := Option.ite_none_right_eq_some.mp ok
    exact ⟨before.stage (by simp [here]) (by simp) fun _ => rfl,fun _ => rfl,by simp [DaemonLabel.handOff]⟩
  | loop t =>
    obtain ⟨here,⟨⟩⟩ := Option.ite_none_right_eq_some.mp ok
    exact ⟨before.stage (by simp [here]) (by simp) fun _ => rfl,fun _ => rfl,by simp [DaemonLabel.handOff]⟩
  | wait =>
    obtain ⟨here,⟨⟩⟩ := Option.ite_none_right_eq_some.mp ok
    exact ⟨before.wait here (of_decide_eq_true awaited),fun _ => rfl,by simp [DaemonLabel.handOff]⟩
  | dispatch q allocated =>
    obtain ⟨⟨up,idle⟩,⟨⟩⟩ := Option.ite_none_right_eq_some.mp ok
    obtain ⟨built,follows⟩ := before.dispatch on up idle q allocated
    exact ⟨built,by simp [DaemonLabel.handOff],by rintro k ⟨⟩; exact follows⟩
  | push =>
    cases here : d.process.main with
    | push tid item =>
      simp only [here] at ok
      cases ok
      obtain ⟨built,follows⟩ := before.push on here
      exact ⟨built,by simp [DaemonLabel.handOff],by rintro k ⟨⟩; exact follows⟩
    | idle | notify => simp [here] at ok
  | notify written =>
    cases here : d.process.main with
    | notify tid =>
      simp only [here] at ok
      cases ok
      obtain ⟨built,follows⟩ := before.notify on here written
      exact ⟨built,by simp [DaemonLabel.handOff],by rintro k ⟨⟩; exact follows⟩
    | idle | push => simp [here] at ok
  | tell tid b =>
    cases ok
    simp only [Daemon.toldLater,Bool.and_eq_true,decide_eq_true_eq] at toldLater
    obtain ⟨⟨up,worker⟩,plain⟩ := toldLater
    obtain ⟨built,view⟩ := before.write up worker b
    refine ⟨built,by simp [DaemonLabel.handOff],?_⟩
    rintro k ⟨⟩
    have off : ¬ d.handOff.exited = true := by simp [Daemon.handOff,on]
    rw [Memcached.step,if_neg off,view]
    exact if_neg plain
  | event t i =>
    obtain ⟨⟨here,waiting⟩,ok⟩ := Option.ite_none_right_eq_some.mp ok
    obtain ⟨built,follows⟩ := before.event on here waiting ok
    exact ⟨built,by simp [DaemonLabel.handOff],by rintro k ⟨⟩; exact follows⟩
  | advance t made =>
    obtain ⟨busy,⟨⟩⟩ := Option.ite_none_left_eq_some.mp ok
    obtain ⟨built,follows⟩ := before.advance on busy made
    exact ⟨built,by simp [DaemonLabel.handOff],by rintro k ⟨⟩; exact follows⟩

end Built

end

/-- However the main thread and the workers interleave while memcached comes up, and from then
on, if the functions around the source do what is expected of them: no thread uses a record
that is not complete, `thread_init` returns when all workers have registered, and the program
does nothing but the hand-off, from its first state. -/
theorem daemon_comes_up (start d : Daemon) (ls : List DaemonLabel) (begun : start.Begun) (run : Run daemonStep start ls d)
    (lawful : Along daemonStep (fun d l => d.lawful l = true) start ls) :
    d.faulted = false ∧
      (∀ t, d.stages t ≠ .uncreated → ∀ r < d.process.numThreads, Wired d.heap r) ∧
      (d.pc = .returned → d.reservedFds = 5 * d.process.numThreads ∧
        ∀ t < d.process.numThreads, (d.stages t).isRegistered = true) ∧
      (∀ t r p, d.heap.receivePipe t = some p → d.heap.receivePipe r = some p → t = r) ∧
      (∀ t r a, (d.heap.threads t).newConnQueue = some a → (d.heap.threads r).newConnQueue = some a → t = r) ∧
      start.handOff.Started ∧ Run step start.handOff (ls.filterMap DaemonLabel.handOff) d.handOff := by
  have first := begun_built begun
  have built : Built d := run.keeps _ Built (fun _ _ _ before lawful ok => (before.step lawful ok).1) lawful first
  have quiet := first.quiet (by simp [begun.pc])
  refine ⟨built.faulted,fun t created => (built.complete created).1.wired,fun up => ⟨?_,built.returned up⟩,built.laid.pipes,
    built.laid.queues,?_,?_⟩
  · have reserved := built.reserved
    rwa [up] at reserved
  · rw [quiet.handOff]
    exact begun.started
  · exact run.simulates Daemon.handOff DaemonLabel.handOff _ Built (fun _ _ _ before lawful ok => (before.step lawful ok).1)
      (fun _ _ _ before lawful ok own => (before.step lawful ok).2.1 own)
      (fun _ _ _ k before lawful ok own => (before.step lawful ok).2.2 k own) lawful first

def newDaemon (n : Nat) : Daemon :=
  ⟨⟨fun _ => .blank,fun _ => none,fun _ => none,fun _ => [],0,fun _ => none,fun _ => none⟩,.setup 0,fun _ => .uncreated,0,
    fun _ => ⟨0,.waiting⟩,started n,none,false⟩

theorem newDaemon_begun (n : Nat) (some : 0 < n) : (newDaemon n).Begun :=
  ⟨started_Started n some,rfl,fun _ => rfl,fun _ => rfl,fun _ => rfl,by simp [newDaemon],fun _ => rfl,fun _ => rfl,rfl,rfl⟩

/-- The first worker is in its loop before the second one exists, and `thread_init` returns before
the second one is; a connection is handed over meanwhile. -/
def twoWorkers : List DaemonLabel :=
  [.setup ⟨some (3,4),some 100,true,some 200,true,true⟩,.setup ⟨some (5,6),some 101,true,some 201,true,true⟩,
    .create none,.lock 0,.register 0,.loop 0,.create none,.lock 1,.register 1,.wait,
    .dispatch ⟨11,.newCmd,18,2048,.tcp⟩ true,.push,.notify true,.event 0 0,.advance 0 true,.advance 0 true,.advance 0 true]

theorem daemon_comes_up_twoWorkers :
    let d := final daemonStep (newDaemon 2) twoWorkers
    d.faulted = false ∧ d.stages 1 = .registered ∧ (∀ t < 2, (d.stages t).isRegistered = true) ∧
      Reachable Process.Started step d.handOff ∧ (d.handOff.workers 0).freed.length = 1 := by
  intro d
  obtain ⟨sound,_,up,_,_,begun,run⟩ := daemon_comes_up (newDaemon 2) d twoWorkers (newDaemon_begun 2 (by decide))
    (final_run daemonStep (newDaemon 2) twoWorkers (by decide +kernel)) (by decide +kernel)
  have returned : d.pc = .returned := by decide +kernel
  exact ⟨sound,by decide +kernel,(up returned).2,⟨_,_,begun,run⟩,by decide +kernel⟩

end Reactor.Memcached
