import Reactor.Memcached.Dispatch
import Mathlib.Algebra.BigOperators.Group.Finset.Basic

/-! How memcached comes up. `thread_init` fills in the records of the workers, creates the
threads and waits for all of them; what the records hold are descriptors and addresses. That a
byte for a worker reaches this worker, and that its queue is its own, is a property of the
wiring, and with it the program is the hand-off of `Process`. -/
namespace Reactor.Memcached
open Reactor.Transition

/-- `LIBEVENT_THREAD`; a field without a value has not been assigned. -/
structure ThreadRecord where
  notifyReceiveFd : Option Nat
  notifySendFd : Option Nat
  base : Option Nat
  newConnQueue : Option Nat
  statsMutex : Bool
  suffixCache : Bool

def ThreadRecord.blank : ThreadRecord := ⟨none,none,none,none,false,false⟩

/-- An event whose callback is `thread_libevent_process`; `arg` is the index of the record. -/
structure NotifyEvent where
  fd : Option Nat
  arg : Nat

/-- What descriptors and addresses lead to. -/
structure Heap where
  threads : Nat → ThreadRecord
  readEnd : Nat → Option Nat
  writeEnd : Nat → Option Nat
  pipes : Nat → List UInt8
  pipeCount : Nat
  bases : Nat → Option (List NotifyEvent)
  queues : Nat → Option (List CqItem)

/-- What the calls return that `thread_init` and `setup_thread` make for one record. -/
structure SetupCalls where
  pipe : Option (Nat × Nat)
  eventInit : Option Nat
  eventAdd : Bool
  malloc : Option Nat
  mutexInit : Bool
  cacheCreate : Bool

namespace Heap

def unused (h : Heap) (fd : Nat) : Bool := (h.readEnd fd).isNone && (h.writeEnd fd).isNone

/-- What the calls return is not in use. -/
def offers (h : Heap) (o : SetupCalls) : Bool :=
  (o.pipe.all fun fds => fds.1 != fds.2 && h.unused fds.1 && h.unused fds.2) &&
    (o.eventInit.all fun b => (h.bases b).isNone) && o.malloc.all fun a => (h.queues a).isNone

def pipe (h : Heap) (i : Nat) (o : SetupCalls) : Except String Heap :=
  match o.pipe with
  | none => .error "Can't create notify pipe"
  | some (r,w) => .ok {h with
      threads := Function.update h.threads i {h.threads i with notifyReceiveFd := some r, notifySendFd := some w}
      readEnd := Function.update h.readEnd r (some h.pipeCount)
      writeEnd := Function.update h.writeEnd w (some h.pipeCount)
      pipes := Function.update h.pipes h.pipeCount []
      pipeCount := h.pipeCount + 1}

def setupThread (h : Heap) (me : Nat) (o : SetupCalls) : Except String Heap :=
  match o.eventInit with
  | none => .error "Can't allocate event base\n"
  | some b =>
    if !o.eventAdd then .error "Can't monitor libevent notify pipe\n" else
    match o.malloc with
    | none => .error "Failed to allocate memory for connection queue"
    | some a =>
      if !o.mutexInit then .error "Failed to initialize mutex"
      else if !o.cacheCreate then .error "Failed to create suffix cache\n"
      else .ok {h with
        threads := Function.update h.threads me
          {h.threads me with base := some b, newConnQueue := some a, statsMutex := true, suffixCache := true}
        bases := Function.update h.bases b (some [⟨(h.threads me).notifyReceiveFd,me⟩])
        queues := Function.update h.queues a (some [])}

def receivePipe (h : Heap) (t : Nat) : Option Nat := (h.threads t).notifyReceiveFd.bind h.readEnd

def sendPipe (h : Heap) (t : Nat) : Option Nat := (h.threads t).notifySendFd.bind h.writeEnd

def events (h : Heap) (t : Nat) : Option (List NotifyEvent) := (h.threads t).base.bind h.bases

def queued (h : Heap) (t : Nat) : Option (List CqItem) := (h.threads t).newConnQueue.bind h.queues

def bytes (h : Heap) (t : Nat) : List UInt8 := ((h.receivePipe t).map h.pipes).getD []

def items (h : Heap) (t : Nat) : List CqItem := (h.queued t).getD []

end Heap

/-- Where the main thread is: the two loops of `thread_init`, the wait at its end, and after it. -/
inductive InitPc
  | setup (i : Nat)
  | create (i : Nat)
  | wait
  | returned
deriving DecidableEq

/-- Where a thread is: `worker_libevent` assigns the lock type, calls
`register_thread_initialized`, and then enters its loop. -/
inductive ThreadStage
  | uncreated
  | created
  | locked
  | registered
  | looping
deriving DecidableEq

def ThreadStage.isRegistered : ThreadStage → Bool
  | .registered | .looping => true
  | _ => false

def WorkerPc.isExited : WorkerPc → Bool
  | .exited _ => true
  | _ => false

/-- The callback that a thread is in, and its argument. -/
structure Callback where
  me : Nat
  pc : WorkerPc

/-- `process` is the hand-off; the bytes and the items of its workers are on the heap, and how
far their callbacks are is in `callbacks`. `failure` is the text before a call of `exit`, and
`faulted` tells that a field was used that leads nowhere. -/
structure Daemon where
  heap : Heap
  pc : InitPc
  stages : Nat → ThreadStage
  reservedFds : Nat
  callbacks : Nat → Callback
  process : Process
  failure : Option String
  faulted : Bool

inductive DaemonLabel
  | setup (o : SetupCalls)
  | create (error : Option String)
  | lock (t : Nat)
  | register (t : Nat)
  | loop (t : Nat)
  | wait
  | dispatch (q : Request) (allocated : Bool)
  | push
  | notify (written : Bool)
  | tell (tid : Nat) (b : UInt8)
  | event (t i : Nat)
  | advance (t : Nat) (made : Bool)

namespace Daemon

def setup (d : Daemon) (i : Nat) (o : SetupCalls) : Daemon :=
  match (d.heap.pipe i o).bind fun h => h.setupThread i o with
  | .error text => {d with failure := some text}
  | .ok h => {d with
      heap := h, reservedFds := d.reservedFds + 5
      pc := if i+1 < d.process.numThreads then .setup (i+1) else .create 0}

def createWorker (d : Daemon) (i : Nat) (error : Option String) : Daemon :=
  match error with
  | some text => {d with failure := some ("Can't create thread: " ++ text ++ "\n")}
  | none => {d with
      stages := Function.update d.stages i .created
      pc := if i+1 < d.process.numThreads then .create (i+1) else .wait}

def fault (d : Daemon) : Daemon := {d with faulted := true}

/-- The record of the worker, with the items of its queue at hand. -/
def load (d : Daemon) (t : Nat) (items : List CqItem) : Worker := {d.process.workers t with newConnQueue := items}

def store (d : Daemon) (t : Nat) (w : Worker) : Daemon :=
  {d with
    process := d.process.setWorker t w
    heap := {d.heap with queues := match (d.heap.threads t).newConnQueue with
      | none => d.heap.queues
      | some a => Function.update d.heap.queues a (some w.newConnQueue)}}

def write (d : Daemon) (tid : Nat) (b : UInt8) : Daemon :=
  match d.heap.sendPipe tid with
  | none => d.fault
  | some p => {d with heap := {d.heap with pipes := Function.update d.heap.pipes p (d.heap.pipes p ++ [b])}}

def cqPush (d : Daemon) (tid : Nat) (item : CqItem) : Daemon :=
  match d.heap.queued tid with
  | none => d.fault
  | some items => {d with process := {d.process with main := .notify tid}}.store tid ((d.load tid items).cqPush item)

def notify (d : Daemon) (tid : Nat) (written : Bool) : Daemon :=
  let w := d.process.workers tid
  let d := {d with process := {d.process with main := .idle}}
  if written then d.write tid 'c'.toUInt8
  else {d with process := d.process.setWorker tid {w with failedWrites := w.failedWrites+1}}

/-- The loop of thread `t` over its base: event `i` becomes active when there is a byte. -/
def event (d : Daemon) (t i : Nat) : Option Daemon :=
  match d.heap.events t with
  | none => some d.fault
  | some events =>
    match events[i]? with
    | none => none
    | some e =>
      match e.fd.bind d.heap.readEnd with
      | none => some d.fault
      | some p =>
        match d.heap.pipes p with
        | [] => none
        | b::rest => some {d with
            heap := {d.heap with pipes := Function.update d.heap.pipes p rest}
            callbacks := Function.update d.callbacks t ⟨e.arg,.switch b⟩}

def advance (d : Daemon) (t : Nat) (made : Bool) : Daemon :=
  let me := (d.callbacks t).me
  match d.heap.queued me with
  | none => d.fault
  | some items =>
    let w := ({d.load me items with pc := (d.callbacks t).pc} : Worker).advance made
    {d with
      process := {d.process with exited := w.pc.isExited}
      callbacks := Function.update d.callbacks t ⟨me,w.pc⟩}.store me w

end Daemon

def daemonStep (d : Daemon) (l : DaemonLabel) : Option Daemon :=
  if d.failure.isSome || d.process.exited || d.faulted then none else
  match l with
  | .setup o =>
    match d.pc with
    | .setup i => some (d.setup i o)
    | _ => none
  | .create error =>
    match d.pc with
    | .create i => some (d.createWorker i error)
    | _ => none
  | .lock t =>
    if d.stages t = .created then
      some {d with
        stages := Function.update d.stages t .locked
        process := d.process.setWorker t {d.process.workers t with itemLockType := .granular}}
    else none
  | .register t =>
    if d.stages t = .locked then some {d with stages := Function.update d.stages t .registered} else none
  | .loop t => if d.stages t = .registered then some {d with stages := Function.update d.stages t .looping} else none
  | .wait => if d.pc = .wait then some {d with pc := .returned} else none
  | .dispatch q allocated =>
    if d.pc = .returned ∧ d.process.main = .idle then some {d with process := d.process.dispatchConnNew q allocated}
    else none
  | .push =>
    match d.process.main with
    | .push tid item => some (d.cqPush tid item)
    | _ => none
  | .notify written =>
    match d.process.main with
    | .notify tid => some (d.notify tid written)
    | _ => none
  | .tell tid b => some (d.write tid b)
  | .event t i => if d.stages t = .looping ∧ (d.callbacks t).pc = .waiting then d.event t i else none
  | .advance t made => if (d.callbacks t).pc = .waiting then none else some (d.advance t made)

namespace Daemon

/-- The calls of `register_thread_initialized` so far: one in `worker_libevent`, and one for each
flip of the lock type. -/
def registrations (d : Daemon) : Nat :=
  ∑ t ∈ Finset.range d.process.numThreads, ((d.stages t).isRegistered.toNat + (d.process.workers t).registrations)

/-- The kernel and the allocator hand out what is not in use. -/
def offered (d : Daemon) : DaemonLabel → Bool
  | .setup o => d.heap.offers o
  | _ => true

/-- `wait_for_thread_registration` returns only after as many calls of
`register_thread_initialized` as it was told to wait for. -/
def awaited (d : Daemon) : DaemonLabel → Bool
  | .wait => d.process.numThreads ≤ d.registrations
  | _ => true

/-- Who else writes to the pipe of a worker does not write `'c'`, and not before `thread_init` has
returned. -/
def toldLater (d : Daemon) : DaemonLabel → Bool
  | .tell tid b => d.pc = .returned && tid < d.process.numThreads && b ≠ 'c'.toUInt8
  | _ => true

/-- What is expected of the functions the source does not show. -/
def lawful (d : Daemon) (l : DaemonLabel) : Bool := d.offered l && d.awaited l && d.toldLater l

end Daemon

/-- The step of the hand-off that a step of the program is, if it is one. -/
def DaemonLabel.handOff : DaemonLabel → Option Label
  | .dispatch q allocated => some (.dispatch q allocated)
  | .push => some .push
  | .notify written => some (.notify written)
  | .tell tid b => some (.tell tid b)
  | .event t _ => some (.read t)
  | .advance t made => some (.advance t made)
  | _ => none

namespace Daemon

def worker (d : Daemon) (t : Nat) : Worker :=
  {d.process.workers t with pc := (d.callbacks t).pc, pipe := d.heap.bytes t, newConnQueue := d.heap.items t}

def handOff (d : Daemon) : Process := {d.process with workers := d.worker}

/-- The state in which `main` calls `thread_init`. -/
structure Begun (d : Daemon) : Prop where
  started : d.process.Started
  pc : d.pc = .setup 0
  blank : ∀ t, d.heap.threads t = .blank
  closed : ∀ fd, d.heap.readEnd fd = none
  pipes : ∀ p, d.heap.pipes p = []
  queues : ∀ a items, d.heap.queues a = some items → items = []
  stages : ∀ t, d.stages t = .uncreated
  callbacks : ∀ t, (d.callbacks t).pc = .waiting
  reserved : d.reservedFds = 0
  faulted : d.faulted = false

end Daemon

/-- The record of worker `t` is complete, and a byte written for it comes out of its own base. -/
structure Wired (h : Heap) (t : Nat) : Prop where
  pipe : ∃ p, h.receivePipe t = some p ∧ h.sendPipe t = some p
  events : h.events t = some [⟨(h.threads t).notifyReceiveFd,t⟩]
  queue : ∃ items, h.queued t = some items
  mutex : (h.threads t).statsMutex = true
  cache : (h.threads t).suffixCache = true

/-- The first `k` records are wired, the others are blank, and nothing is shared. -/
structure Laid (h : Heap) (k : Nat) : Prop where
  wired : ∀ t < k, Wired h t
  blank : ∀ t, k ≤ t → h.threads t = .blank
  pipes : ∀ t t' p, h.receivePipe t = some p → h.receivePipe t' = some p → t = t'
  queues : ∀ t t' a, (h.threads t).newConnQueue = some a → (h.threads t').newConnQueue = some a → t = t'
  numbered : ∀ fd p, h.readEnd fd = some p → p < h.pipeCount

section
variable {A B : Type} [DecidableEq A]

/-- A new entry of a table leaves what was found there. -/
theorem bind_update_of_none {f : A → Option B} {x : Option A} {a : A} {b : B} (found : x.bind f = some b)
    (new : f a = none) (v : Option B) : x.bind (Function.update f a v) = some b := by
  obtain ⟨c,same,there⟩ := Option.bind_eq_some_iff.mp found
  refine Option.bind_eq_some_iff.mpr ⟨c,same,?_⟩
  rw [Function.update_of_ne (fun equal => ?_),there]
  rw [equal,new] at there
  cases there

/-- A table without two keys for one value, after a key with a new value. -/
theorem apart_of_new {f g : A → Option B} {k : A} {b : B} (apart : ∀ t t' v, f t = some v → f t' = some v → t = t')
    (own : g k = some b) (new : ∀ t ≠ k, f t ≠ some b) (same : ∀ t ≠ k, g t = f t) (t t' : A) (v : B)
    (one : g t = some v) (two : g t' = some v) : t = t' := by
  by_cases first : t = k
  · by_cases second : t' = k
    · rw [first,second]
    · rw [same t' second] at two
      rw [first,own] at one
      exact absurd (two.trans one.symm) (new t' second)
  · rw [same t first] at one
    by_cases second : t' = k
    · rw [second,own] at two
      exact absurd (one.trans two.symm) (new t first)
    · rw [same t' second] at two
      exact apart t t' v one two

end

theorem offers_pipe {h : Heap} {o : SetupCalls} {r w : Nat} (offers : h.offers o = true) (some : o.pipe = some (r,w)) :
    h.readEnd r = none ∧ h.writeEnd w = none := by
  simp only [Heap.offers,some,Option.all_some,Heap.unused,Bool.and_eq_true,Option.isNone_iff_eq_none] at offers
  exact ⟨offers.1.1.1.2.1,offers.1.1.2.2⟩

theorem offers_base {h : Heap} {o : SetupCalls} {b : Nat} (offers : h.offers o = true) (some : o.eventInit = some b) :
    h.bases b = none := by
  simp only [Heap.offers,some,Option.all_some,Bool.and_eq_true,Option.isNone_iff_eq_none] at offers
  exact offers.1.2

theorem offers_queue {h : Heap} {o : SetupCalls} {a : Nat} (offers : h.offers o = true) (some : o.malloc = some a) :
    h.queues a = none := by
  simp only [Heap.offers,some,Option.all_some,Bool.and_eq_true,Option.isNone_iff_eq_none] at offers
  exact offers.2

/-- When no call fails, a record is filled in with what the calls returned. -/
theorem setup_ok {h u : Heap} {i : Nat} {o : SetupCalls} (ok : ((h.pipe i o).bind fun h => h.setupThread i o) = .ok u) :
    ∃ r w b a, o.pipe = some (r,w) ∧ o.eventInit = some b ∧ o.malloc = some a ∧ u = {h with
      threads := Function.update h.threads i ⟨some r,some w,some b,some a,true,true⟩
      readEnd := Function.update h.readEnd r (some h.pipeCount)
      writeEnd := Function.update h.writeEnd w (some h.pipeCount)
      pipes := Function.update h.pipes h.pipeCount []
      pipeCount := h.pipeCount + 1
      bases := Function.update h.bases b (some [⟨some r,i⟩])
      queues := Function.update h.queues a (some [])} := by
  unfold Heap.pipe at ok
  cases fds : o.pipe with
  | none =>
    rw [fds] at ok
    cases ok
  | some fds' =>
    obtain ⟨r,w⟩ := fds'
    rw [fds] at ok
    simp only [Except.bind,Heap.setupThread] at ok
    split at ok
    next => cases ok
    next b base =>
      split at ok
      next => cases ok
      next =>
        split at ok
        next => cases ok
        next a queue =>
          split at ok
          next => cases ok
          next =>
            split at ok
            next => cases ok
            next =>
              cases ok
              exact ⟨r,w,b,a,rfl,base,queue,by simp⟩

namespace Laid
variable {h u : Heap} {k n : Nat} {o : SetupCalls}

theorem received (before : Laid h k) {t p : Nat} (here : h.receivePipe t = some p) : p < h.pipeCount := by
  obtain ⟨fd,_,opened⟩ := Option.bind_eq_some_iff.mp here
  exact before.numbered fd p opened

theorem allocated (before : Laid h k) {t a : Nat} (here : (h.threads t).newConnQueue = some a) :
    ∃ items, h.queues a = some items := by
  by_cases early : t < k
  · obtain ⟨items,queued⟩ := (before.wired t early).queue
    rw [Heap.queued,here,Option.bind_some] at queued
    exact ⟨items,queued⟩
  · rw [before.blank t (Nat.le_of_not_lt early)] at here
    cases here

/-- One turn of the first loop of `thread_init`. -/
theorem setup (before : Laid h k) (offers : h.offers o = true)
    (ok : ((h.pipe k o).bind fun h => h.setupThread k o) = .ok u) : Laid u (k+1) := by
  obtain ⟨r,w,b,a,fds,base,queue,rfl⟩ := setup_ok ok
  obtain ⟨reads,writes⟩ := offers_pipe offers fds
  have bases := offers_base offers base
  have queues := offers_queue offers queue
  have others (t : Nat) (other : t ≠ k) :
      Function.update h.threads k ⟨some r,some w,some b,some a,true,true⟩ t = h.threads t :=
    Function.update_of_ne other _ _
  refine ⟨fun t below => ?_,fun t above => ?_,apart_of_new (k := k) (b := h.pipeCount) before.pipes ?_ ?_ ?_,
    apart_of_new (k := k) (b := a) before.queues ?_ ?_ ?_,fun fd p opened => ?_⟩
  · by_cases own : t = k
    · subst own
      refine ⟨⟨h.pipeCount,?_,?_⟩,?_,⟨[],?_⟩,?_,?_⟩ <;> simp [Heap.receivePipe,Heap.sendPipe,Heap.events,Heap.queued]
    · obtain ⟨⟨p,received,sent⟩,events,⟨items,queued⟩,mutex,cache⟩ := before.wired t (by omega)
      refine ⟨⟨p,?_,?_⟩,?_,⟨items,?_⟩,?_,?_⟩
      all_goals
        simp only [Heap.receivePipe,Heap.sendPipe,Heap.events,Heap.queued,others t own]
      · exact bind_update_of_none received reads _
      · exact bind_update_of_none sent writes _
      · exact bind_update_of_none events bases _
      · exact bind_update_of_none queued queues _
      · exact mutex
      · exact cache
  · exact (others t (by omega)).trans (before.blank t (by omega))
  · simp [Heap.receivePipe]
  · intro t _ old
    exact absurd (before.received old) (Nat.lt_irrefl _)
  · intro t other
    simp only [Heap.receivePipe,others t other]
    by_cases early : t < k
    · obtain ⟨p,received,_⟩ := (before.wired t early).pipe
      exact (bind_update_of_none received reads _).trans received.symm
    · rw [before.blank t (Nat.le_of_not_lt early)]
      rfl
  · simp
  · intro t _ old
    obtain ⟨items,there⟩ := before.allocated old
    rw [queues] at there
    cases there
  · intro t other
    simp only [others t other]
  · change Function.update h.readEnd r (some h.pipeCount) fd = some p at opened
    change p < h.pipeCount + 1
    by_cases new : fd = r
    · rw [new,Function.update_self] at opened
      cases opened
      omega
    · rw [Function.update_of_ne new] at opened
      exact Nat.lt_succ_of_lt (before.numbered fd p opened)

/-- Later writes to pipes and queues leave the wiring alone. -/
theorem refill (before : Laid h k) (pipes : Nat → List UInt8) {queues : Nat → Option (List CqItem)}
    (kept : ∀ a, (h.queues a).isSome = true → (queues a).isSome = true) : Laid {h with pipes := pipes, queues := queues} k := by
  refine ⟨fun t below => ?_,before.blank,before.pipes,before.queues,before.numbered⟩
  obtain ⟨pipe,events,⟨items,queued⟩,mutex,cache⟩ := before.wired t below
  obtain ⟨a,own,there⟩ := Option.bind_eq_some_iff.mp queued
  obtain ⟨later,found⟩ := Option.isSome_iff_exists.mp (kept a (by rw [there]; rfl))
  exact ⟨pipe,events,⟨later,Option.bind_eq_some_iff.mpr ⟨a,own,found⟩⟩,mutex,cache⟩

theorem bytes_update (before : Laid h k) {t p : Nat} (here : h.receivePipe t = some p) (bs : List UInt8) :
    Heap.bytes {h with pipes := Function.update h.pipes p bs} = Function.update h.bytes t bs := by
  ext1 t'
  change ((h.receivePipe t').map (Function.update h.pipes p bs)).getD [] = _
  by_cases same : t' = t
  · rw [same,here]
    simp
  · rw [Function.update_of_ne same,Heap.bytes]
    cases there : h.receivePipe t' with
    | none => rfl
    | some p' =>
      have other : p' ≠ p := by
        intro equal
        rw [equal] at there
        exact same (before.pipes t' t p there here)
      simp [other]

theorem items_update (before : Laid h k) {t a : Nat} (here : (h.threads t).newConnQueue = some a) (items : List CqItem) :
    Heap.items {h with queues := Function.update h.queues a (some items)} = Function.update h.items t items := by
  ext1 t'
  change ((h.threads t').newConnQueue.bind (Function.update h.queues a (some items))).getD [] = _
  by_cases same : t' = t
  · rw [same,here]
    simp
  · rw [Function.update_of_ne same,Heap.items,Heap.queued]
    cases there : (h.threads t').newConnQueue with
    | none => rfl
    | some a' =>
      have other : a' ≠ a := by
        intro equal
        rw [equal] at there
        exact same (before.queues t' t a there here)
      simp [other]

end Laid

end Reactor.Memcached
