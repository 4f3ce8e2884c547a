import Mathlib.Logic.Function.Basic
import Reactor.Transition
import Reactor.Threaded
import Reactor.Epoll.Bits

/-! The ready lists of one eventpoll: `ep_poll_callback`, `ep_scan_ready_list` with
`ep_send_events_proc`, and `ep_insert`. A section under `ep->lock` is one step; what
runs without it is one step for each access to shared data. `ep->mtx` is part of
the state, so a scan and an insertion exclude each other as in the source. -/
namespace Reactor.Epoll
open Reactor.Transition Reactor.Threaded

/-- Where the thread inside `ep_send_events_proc` is; the item is the one in hand. -/
inductive ProcPc
  | loop
  | relax (epi : Nat)
  | unlink (epi : Nat)
  | poll (epi : Nat)
  | copy (epi : Nat) (revents : EventMask)
  | faulted (epi : Nat)
  | restay (epi : Nat)
  | settle (epi : Nat)
  | requeue (epi : Nat)
  | stay (epi : Nat)
  | done (fault : Bool)
  deriving DecidableEq, Repr

structure Scan where
  pc : ProcPc
  maxevents : Nat
  eventcnt : Nat
  uevent : List (EventMask × BitVec 64)
  deriving DecidableEq, Repr

inductive InsertPc
  | hook
  | polled (revents : EventMask)
  | check (revents : EventMask)
  | publish (revents : EventMask)
  | unregister
  | drop
  deriving DecidableEq, Repr

structure Insert where
  pc : InsertPc
  epi : Nat
  fullCheck : Bool
  deriving DecidableEq, Repr

inductive Holder
  | free
  | scan (scan : Scan)
  | insert (insert : Insert)
  deriving DecidableEq, Repr

/-- `struct eventpoll`, the list head on the stack of the scan, and the memory of
the items: one map for each field of `struct epitem`, from the item's address.
`rdllink` is `ep_is_linked`; `itemWs` is the activity of `epi->ws`, if it exists. -/
structure Eventpoll where
  mtx : Holder
  rdllist : List Nat
  txlist : List Nat
  ovflist : Link Nat
  ws : Bool
  rbr : List Nat
  slab : List Nat
  rdllink : Nat → Bool
  next : Nat → Link Nat
  events : Nat → EventMask
  data : Nat → BitVec 64
  itemWs : Nat → Option Bool
  nwait : Nat → Int
  pwqlist : Nat → List (Option Nat)
  fllink : Nat → Bool
  ffd : Nat → Nat × Int

/-- `ep_alloc`: no item, empty lists, and whatever was in the items' memory. -/
def epAlloc (ep : Eventpoll) : Prop :=
  ep.mtx = .free ∧ ep.rdllist = [] ∧ ep.txlist = [] ∧ ep.ovflist = .unlinked ∧ ep.ws = false ∧
    ep.rbr = [] ∧ ep.slab = [] ∧ ∀ i, ep.pwqlist i = []

namespace Eventpoll

def listAddTail (ep : Eventpoll) (epi : Nat) : Eventpoll :=
  {ep with rdllist := ep.rdllist ++ [epi], rdllink := Function.update ep.rdllink epi true}

def listAddTx (ep : Eventpoll) (epi : Nat) : Eventpoll :=
  {ep with txlist := epi :: ep.txlist, rdllink := Function.update ep.rdllink epi true}

/-- `list_del_init` takes the item off whichever list it is on. -/
def listDelInit (ep : Eventpoll) (epi : Nat) : Eventpoll :=
  {ep with
    rdllist := ep.rdllist.erase epi, txlist := ep.txlist.erase epi,
    rdllink := Function.update ep.rdllink epi false}

def epPmStayAwake (ep : Eventpoll) (epi : Nat) : Eventpoll :=
  {ep with itemWs := Function.update ep.itemWs epi ((ep.itemWs epi).map fun _ => true)}

def pmRelax (ep : Eventpoll) (epi : Nat) : Eventpoll :=
  {ep with itemWs := Function.update ep.itemWs epi ((ep.itemWs epi).map fun _ => false)}

def accepts (ep : Eventpoll) (epi : Nat) (key : BitVec 64) : Bool :=
  hits (ep.events epi) (~~~epPrivateBits) && (key == 0 || keyHits key (ep.events epi))

def pollFreed (ep : Eventpoll) (epi entry : Nat) (key : BitVec 64) : Eventpoll :=
  if keyHits key pollFree then
    {ep with pwqlist := Function.update ep.pwqlist epi ((ep.pwqlist epi).set entry none)}
  else ep

/-- The section of `ep_poll_callback` under `ep->lock`, up to the wake-ups. -/
def queueReady (ep : Eventpoll) (epi : Nat) (key : BitVec 64) : Eventpoll :=
  if !ep.accepts epi key then ep
  else if ep.ovflist ≠ .unlinked then
    if ep.next epi = .unlinked then
      {ep with
        next := Function.update ep.next epi ep.ovflist, ovflist := .node epi,
        ws := ep.ws || (ep.itemWs epi).isSome}
    else ep
  else if !ep.rdllink epi then (ep.listAddTail epi).epPmStayAwake epi
  else ep

def epPollCallback (ep : Eventpoll) (epi entry : Nat) (key : BitVec 64) : Eventpoll :=
  (ep.pollFreed epi entry key).queueReady epi key

def withPc (ep : Eventpoll) (scan : Scan) (pc : ProcPc) : Eventpoll :=
  {ep with mtx := .scan {scan with pc := pc}}

def scanStart (ep : Eventpoll) (maxevents : Nat) : Eventpoll :=
  {ep with
    mtx := .scan ⟨.loop,maxevents,0,[]⟩, txlist := ep.rdllist ++ ep.txlist, rdllist := [],
    ovflist := .null}

/-- The steps of `ep_send_events_proc` whose outcome the state alone decides. -/
def procTick (ep : Eventpoll) (scan : Scan) : Option Eventpoll :=
  match scan.pc with
  | .loop =>
    match ep.txlist with
    | [] => some (ep.withPc scan (.done false))
    | epi::_ =>
      if scan.eventcnt < scan.maxevents then
        some ({ep with ws := ep.ws || ep.itemWs epi == some true}.withPc scan (.relax epi))
      else some (ep.withPc scan (.done false))
  | .relax epi => some ((ep.pmRelax epi).withPc scan (.unlink epi))
  | .unlink epi => some ((ep.listDelInit epi).withPc scan (.poll epi))
  | .faulted epi => some ((ep.listAddTx epi).withPc scan (.restay epi))
  | .restay epi => some ((ep.epPmStayAwake epi).withPc scan (.done true))
  | .settle epi =>
    -- only a level-triggered item goes back to the ready list
    let pc := if hits (ep.events epi) epollOneshot || hits (ep.events epi) epollEt
      then .loop else .requeue epi
    some ({ep with events := Function.update ep.events epi (settled (ep.events epi))}.withPc scan pc)
  | .requeue epi => some ((ep.listAddTail epi).withPc scan (.stay epi))
  | .stay epi => some ((ep.epPmStayAwake epi).withPc scan .loop)
  | _ => none

def epItemPoll (ep : Eventpoll) (epi : Nat) (mask : EventMask) : EventMask := mask &&& ep.events epi

def procPoll (ep : Eventpoll) (scan : Scan) (epi : Nat) (mask : EventMask) : Option Eventpoll :=
  if scan.pc = .poll epi then
    let revents := ep.epItemPoll epi mask
    some (ep.withPc scan (if revents = 0 then .loop else .copy epi revents))
  else none

def procCopy (ep : Eventpoll) (scan : Scan) (epi : Nat) : Option Eventpoll :=
  match scan.pc with
  | .copy held revents =>
    if held = epi then
      some {ep with
        mtx := .scan {scan with
          pc := .settle epi, eventcnt := scan.eventcnt + 1,
          uevent := scan.uevent ++ [(revents,ep.data epi)]}}
    else none
  | _ => none

def procFault (ep : Eventpoll) (scan : Scan) (epi : Nat) : Option Eventpoll :=
  match scan.pc with
  | .copy held _ => if held = epi then some (ep.withPc scan (.faulted epi)) else none
  | _ => none

def drainItem (ep : Eventpoll) (epi : Nat) : Eventpoll :=
  let linked := if !ep.rdllink epi then (ep.listAddTail epi).epPmStayAwake epi else ep
  {linked with next := Function.update linked.next epi .unlinked}

/-- The loop itself, from `nepi`. Following EP_UNACTIVE_PTR would be a wild
access, and running out of `fuel` a loop that does not end. -/
def drain : Nat → Eventpoll → Link Nat → Option Eventpoll
  | 0, _, _ => none
  | _+1, ep, .null => some ep
  | _+1, _, .unlinked => none
  | fuel+1, ep, .node epi => drain fuel (ep.drainItem epi) (ep.next epi)

/-- What follows the loop: new events go to the ready list again, and what is
left of `txlist` comes before everything queued meanwhile. -/
def spliceBack (ep : Eventpoll) : Eventpoll :=
  {ep with ovflist := .unlinked, rdllist := ep.txlist ++ ep.rdllist, txlist := []}

def scanEnd (ep : Eventpoll) (scan : Scan) : Option Eventpoll :=
  match scan.pc with
  | .done _ => (ep.drain (ep.slab.length + 1) ep.ovflist).map fun drained =>
      {drained.spliceBack with ws := false, mtx := .free}
  | _ => none

def insertBegin (ep : Eventpoll) (epi : Nat) (ffd : Nat × Int) (events : EventMask) (data : BitVec 64)
    (fullCheck : Bool) : Eventpoll :=
  {ep with
    mtx := .insert ⟨.hook,epi,fullCheck⟩, slab := epi :: ep.slab,
    rdllink := Function.update ep.rdllink epi false,
    fllink := Function.update ep.fllink epi false,
    pwqlist := Function.update ep.pwqlist epi [],
    ffd := Function.update ep.ffd epi ffd,
    events := Function.update ep.events epi events,
    data := Function.update ep.data epi data,
    nwait := Function.update ep.nwait epi 0,
    next := Function.update ep.next epi .unlinked,
    itemWs := Function.update ep.itemWs epi (if hits events epollWakeup then some false else none)}

def epPtableQueueProc (ep : Eventpoll) (epi whead : Nat) (allocated : Bool) : Eventpoll :=
  if 0 ≤ ep.nwait epi ∧ allocated then
    {ep with
      pwqlist := Function.update ep.pwqlist epi (ep.pwqlist epi ++ [some whead]),
      nwait := Function.update ep.nwait epi (ep.nwait epi + 1)}
  else {ep with nwait := Function.update ep.nwait epi (-1)}

def withInsertPc (ep : Eventpoll) (insert : Insert) (pc : InsertPc) : Eventpoll :=
  {ep with mtx := .insert {insert with pc := pc}}

def insertTick (ep : Eventpoll) (insert : Insert) : Option Eventpoll :=
  match insert.pc with
  | .polled revents =>
    if ep.nwait insert.epi < 0 then some (ep.withInsertPc insert .unregister)
    else some ({ep with
      fllink := Function.update ep.fllink insert.epi true,
      rbr := insert.epi :: ep.rbr}.withInsertPc insert (.check revents))
  | .unregister =>
    some ({ep with pwqlist := Function.update ep.pwqlist insert.epi []}.withInsertPc insert .drop)
  | _ => none

def insertCheck (ep : Eventpoll) (insert : Insert) (tooManyPaths : Bool) : Option Eventpoll :=
  match insert.pc with
  | .check revents =>
    if insert.fullCheck && tooManyPaths then
      some ({ep with
        fllink := Function.update ep.fllink insert.epi false,
        rbr := ep.rbr.erase insert.epi}.withInsertPc insert .unregister)
    else some (ep.withInsertPc insert (.publish revents))
  | _ => none

def queuesNew (ep : Eventpoll) (epi : Nat) (revents : EventMask) : Bool :=
  hits revents (ep.events epi) && !ep.rdllink epi

def insertPublish (ep : Eventpoll) (insert : Insert) (epi : Nat) : Option Eventpoll :=
  match insert.pc with
  | .publish revents =>
    if insert.epi = epi then
      let queued := if ep.queuesNew epi revents then (ep.listAddTail epi).epPmStayAwake epi else ep
      some {queued with mtx := .free}
    else none
  | _ => none

/-- The end of the failure path: the callback may have queued the item meanwhile. -/
def insertDrop (ep : Eventpoll) (insert : Insert) (epi : Nat) : Option Eventpoll :=
  match insert.pc with
  | .drop =>
    if insert.epi = epi then
      let unlinked := if ep.rdllink epi then ep.listDelInit epi else ep
      some {unlinked with mtx := .free, slab := ep.slab.erase epi}
    else none
  | _ => none

end Eventpoll

/-- The steps. `callback` comes through a wait entry of the item that is still on
a queue; `poll`, `copy` and `fault` are the outcomes of a scan's accesses to the
file and to user memory; `modify` is EPOLL_CTL_MOD, under `ep->mtx`. -/
inductive Label
  | callback (epi entry : Nat) (key : BitVec 64)
  | modify (epi : Nat) (events : EventMask) (data : BitVec 64)
  | scanStart (maxevents : Nat)
  | proc
  | poll (epi : Nat) (mask : EventMask)
  | copy (epi : Nat)
  | fault (epi : Nat)
  | scanEnd
  | insertBegin (epi : Nat) (ffd : Nat × Int) (events : EventMask) (data : BitVec 64) (fullCheck : Bool)
  | insertHook (whead : Nat) (allocated : Bool)
  | insertPoll (mask : EventMask)
  | insertTick
  | insertCheck (tooManyPaths : Bool)
  | insertPublish (epi : Nat)
  | insertDrop (epi : Nat)
  deriving DecidableEq, Repr

def inScan (ep : Eventpoll) (f : Scan → Option Eventpoll) : Option Eventpoll :=
  match ep.mtx with
  | .scan scan => f scan
  | _ => none

def inInsert (ep : Eventpoll) (f : Insert → Option Eventpoll) : Option Eventpoll :=
  match ep.mtx with
  | .insert insert => f insert
  | _ => none

def step (ep : Eventpoll) : Label → Option Eventpoll
  | .callback epi entry key =>
    if ((ep.pwqlist epi)[entry]?).join.isSome then some (ep.epPollCallback epi entry key) else none
  | .modify epi events data =>
    if ep.mtx = .free ∧ epi ∈ ep.rbr then
      some {ep with
        events := Function.update ep.events epi events, data := Function.update ep.data epi data}
    else none
  | .scanStart maxevents =>
    if ep.mtx = .free ∧ 0 < maxevents then some (ep.scanStart maxevents) else none
  | .proc => inScan ep ep.procTick
  | .poll epi mask => inScan ep fun scan => ep.procPoll scan epi mask
  | .copy epi => inScan ep fun scan => ep.procCopy scan epi
  | .fault epi => inScan ep fun scan => ep.procFault scan epi
  | .scanEnd => inScan ep ep.scanEnd
  | .insertBegin epi ffd events data fullCheck =>
    if ep.mtx = .free ∧ epi ∉ ep.slab then some (ep.insertBegin epi ffd events data fullCheck) else none
  | .insertHook whead allocated => inInsert ep fun insert =>
      if insert.pc = .hook then some (ep.epPtableQueueProc insert.epi whead allocated) else none
  | .insertPoll mask => inInsert ep fun insert =>
      if insert.pc = .hook then
        some (ep.withInsertPc insert (.polled (ep.epItemPoll insert.epi mask)))
      else none
  | .insertTick => inInsert ep ep.insertTick
  | .insertCheck tooManyPaths => inInsert ep fun insert => ep.insertCheck insert tooManyPaths
  | .insertPublish epi => inInsert ep fun insert => ep.insertPublish insert epi
  | .insertDrop epi => inInsert ep fun insert => ep.insertDrop insert epi

/-- The items on the overflow chain, read by following the pointers. -/
def Eventpoll.overflow (ep : Eventpoll) : List Nat := follow ep.next ep.slab.length ep.ovflist

abbrev Reached (ep : Eventpoll) : Prop := Reachable epAlloc step ep

def zeroed : Eventpoll :=
  ⟨.free,[],[],.unlinked,false,[],[],fun _ => false,fun _ => .null,fun _ => 0,fun _ => 0,fun _ => none,
    fun _ => 0,fun _ => [],fun _ => false,fun _ => (0,0)⟩

theorem zeroed_epAlloc : epAlloc zeroed := ⟨rfl,rfl,rfl,rfl,rfl,rfl,rfl,fun _ => rfl⟩

def inserting (epi : Nat) (events mask : EventMask) : List Label :=
  [.insertBegin epi (epi,0) events 0 false,.insertHook 0 true,.insertPoll mask,.insertTick,
    .insertCheck false,.insertPublish epi]

def after (ls : List Label) : Eventpoll := final step zeroed ls

theorem after_reached (ls : List Label) (enabled : (exec step zeroed ls).isSome = true) :
    Reached (after ls) :=
  ⟨zeroed,ls,zeroed_epAlloc,final_run step zeroed ls enabled⟩

theorem after_run (before ls : List Label) (enabled : (exec step zeroed (before++ls)).isSome = true) :
    Run step (after before) ls (after (before++ls)) :=
  final_append step zeroed before ls enabled

theorem after_step (before : List Label) (l : Label)
    (enabled : (exec step zeroed (before++[l])).isSome = true) :
    step (after before) l = some (after (before++[l])) := by
  cases after_run before [l] enabled with
  | cons _ _ t _ _ head tail =>
    cases tail
    exact head

end Reactor.Epoll
