import Reactor.Epoll.Representation

/-! The eventpoll seen from one item. A step of the whole eventpoll is, for one
item, one of a few steps of a small machine; what holds of a single item over
every run is proved on that machine and carried over by the simulation below. -/
namespace Reactor.Epoll
open Reactor.Transition Reactor.Threaded

def ProcPc.item : ProcPc → Option Nat
  | .relax epi | .unlink epi | .poll epi | .copy epi _ | .faulted epi | .restay epi
  | .settle epi | .requeue epi | .stay epi => some epi
  | _ => none

/-- `stage` is the position of the scan while it works on the item. -/
structure View where
  present : Bool
  linked : Bool
  chained : Bool
  scanning : Bool
  stage : Option ProcPc
  events : EventMask
  itemWs : Option Bool
  ws : Bool
  deriving DecidableEq, Repr

def stageOf (mtx : Holder) (i : Nat) : Option ProcPc :=
  match mtx with
  | .scan scan => if scan.pc.item = some i then some scan.pc else none
  | _ => none

def view (ep : Eventpoll) (i : Nat) : View :=
  ⟨decide (i ∈ ep.slab),decide (i ∈ ep.rdllist ++ ep.txlist),
    decide (i ∈ ep.slab ∧ ep.next i ≠ .unlinked),ep.mtx.isScan,stageOf ep.mtx i,
    ep.events i,ep.itemWs i,ep.ws⟩

inductive ItemEvent
  | quiet
  | accepted
  | polled (mask : EventMask)
  | delivered
  | faulted
  | scanStarted
  | scanEnded
  | begun (events : EventMask)
  | queuedNew
  | dropped
  | modified (events : EventMask)
  deriving DecidableEq, Repr

def queuesAtInsert (ep : Eventpoll) : Bool :=
  match ep.mtx with
  | .insert insert => match insert.pc with
    | .publish revents => ep.queuesNew insert.epi revents
    | _ => false
  | _ => false

def itemEvent (ep : Eventpoll) (l : Label) (i : Nat) : ItemEvent :=
  match l with
  | .callback epi _ key => if epi = i ∧ ep.accepts epi key = true then .accepted else .quiet
  | .poll epi mask => if epi = i then .polled mask else .quiet
  | .copy epi => if epi = i then .delivered else .quiet
  | .fault epi => if epi = i then .faulted else .quiet
  | .scanStart _ => .scanStarted
  | .scanEnd => .scanEnded
  | .insertBegin epi _ events _ _ => if epi = i then .begun events else .quiet
  | .insertPublish epi => if epi = i ∧ queuesAtInsert ep = true then .queuedNew else .quiet
  | .insertDrop epi => if epi = i then .dropped else .quiet
  | .modify epi events _ => if epi = i then .modified events else .quiet
  | _ => .quiet

theorem itemEvent_polled {ep : Eventpoll} {l : Label} {i : Nat} {mask : EventMask}
    (event : itemEvent ep l i = .polled mask) : l = .poll i mask := by
  cases l <;> simp only [itemEvent] at event <;> (try split at event) <;> simp_all

theorem itemEvent_delivered {ep : Eventpoll} {l : Label} {i : Nat} :
    itemEvent ep l i = .delivered ↔ l = .copy i := by
  cases l <;> simp only [itemEvent] <;> (try split) <;> simp_all

theorem itemEvent_dropped {ep : Eventpoll} {l : Label} {i : Nat}
    (event : itemEvent ep l i = .dropped) : l = .insertDrop i := by
  cases l <;> simp only [itemEvent] at event <;> (try split at event) <;> simp_all

theorem itemEvent_begun {ep : Eventpoll} {l : Label} {i : Nat} {events : EventMask}
    (event : itemEvent ep l i = .begun events) :
    ∃ ffd data fullCheck, l = .insertBegin i ffd events data fullCheck := by
  cases l <;> simp only [itemEvent] at event <;> (try split at event) <;> simp_all

theorem itemEvent_modified {ep : Eventpoll} {l : Label} {i : Nat} {events : EventMask}
    (event : itemEvent ep l i = .modified events) : ∃ data, l = .modify i events data := by
  cases l <;> simp only [itemEvent] at event <;> (try split at event) <;> simp_all

def awake (ws : Option Bool) : Option Bool := ws.map fun _ => true
def asleep (ws : Option Bool) : Option Bool := ws.map fun _ => false

/-- The machine of one item. -/
inductive ItemStep (i : Nat) (v w : View) : ItemEvent → Prop
  | rest (raised : v.ws = true → w.ws = true) (next : w = {v with ws := w.ws}) : ItemStep i v w .quiet
  | choose (here : v.stage = none) (on : v.linked = true) (during : v.scanning = true)
      (next : w = {v with stage := some (.relax i), ws := v.ws || v.itemWs == some true}) :
      ItemStep i v w .quiet
  | relax (here : v.stage = some (.relax i))
      (next : w = {v with stage := some (.unlink i), itemWs := asleep v.itemWs}) : ItemStep i v w .quiet
  | unlink (here : v.stage = some (.unlink i))
      (next : w = {v with stage := some (.poll i), linked := false}) : ItemStep i v w .quiet
  | relink (here : v.stage = some (.faulted i))
      (next : w = {v with stage := some (.restay i), linked := true}) : ItemStep i v w .quiet
  | restay (here : v.stage = some (.restay i))
      (next : w = {v with stage := none, itemWs := awake v.itemWs}) : ItemStep i v w .quiet
  | settle (here : v.stage = some (.settle i))
      (next : w = {v with stage := none, events := settled v.events}) : ItemStep i v w .quiet
  | level (here : v.stage = some (.settle i)) (reusable : hits v.events epollOneshot = false)
      (triggered : hits v.events epollEt = false)
      (next : w = {v with stage := some (.requeue i)}) : ItemStep i v w .quiet
  | requeue (here : v.stage = some (.requeue i))
      (next : w = {v with stage := some (.stay i), linked := true}) : ItemStep i v w .quiet
  | stay (here : v.stage = some (.stay i))
      (next : w = {v with stage := none, itemWs := awake v.itemWs}) : ItemStep i v w .quiet
  | chain (during : v.scanning = true) (off : v.chained = false)
      (next : w = {v with chained := true, ws := v.ws || v.itemWs.isSome}) : ItemStep i v w .accepted
  | queue (outside : v.scanning = false) (off : v.linked = false)
      (next : w = {v with linked := true, itemWs := awake v.itemWs}) : ItemStep i v w .accepted
  | already (waiting : v.scanning = true ∧ v.chained = true ∨ v.scanning = false ∧ v.linked = true)
      (next : w = v) : ItemStep i v w .accepted
  | idle (mask : EventMask) (here : v.stage = some (.poll i)) (nothing : mask &&& v.events = 0)
      (next : w = {v with stage := none}) : ItemStep i v w (.polled mask)
  | ready (mask : EventMask) (here : v.stage = some (.poll i)) (something : mask &&& v.events ≠ 0)
      (next : w = {v with stage := some (.copy i (mask &&& v.events))}) : ItemStep i v w (.polled mask)
  | deliver (revents : EventMask) (here : v.stage = some (.copy i revents))
      (next : w = {v with stage := some (.settle i)}) : ItemStep i v w .delivered
  | fault (revents : EventMask) (here : v.stage = some (.copy i revents))
      (next : w = {v with stage := some (.faulted i)}) : ItemStep i v w .faulted
  | start (outside : v.scanning = false) (next : w = {v with scanning := true}) :
      ItemStep i v w .scanStarted
  | finish (during : v.scanning = true) (here : v.stage = none)
      (next : w = {v with
        scanning := false, linked := v.linked || v.chained, chained := false, ws := false,
        itemWs := if v.chained && !v.linked then awake v.itemWs else v.itemWs}) :
      ItemStep i v w .scanEnded
  | begin (events : EventMask) (absent : v.present = false) (outside : v.scanning = false)
      (next : w = {v with
        present := true, linked := false, chained := false, events := events,
        itemWs := if hits events epollWakeup then some false else none}) :
      ItemStep i v w (.begun events)
  | queueNew (outside : v.scanning = false) (off : v.linked = false)
      (next : w = {v with linked := true, itemWs := awake v.itemWs}) : ItemStep i v w .queuedNew
  | drop (outside : v.scanning = false)
      (next : w = {v with present := false, linked := false, chained := false}) :
      ItemStep i v w .dropped
  | modify (events : EventMask) (outside : v.scanning = false) (next : w = {v with events := events}) :
      ItemStep i v w (.modified events)

@[simp] theorem view_present (ep : Eventpoll) (i : Nat) : (view ep i).present = true ↔ i ∈ ep.slab := by
  simp [view]

@[simp] theorem view_linked (ep : Eventpoll) (i : Nat) :
    (view ep i).linked = true ↔ i ∈ ep.rdllist ++ ep.txlist := by
  simp [view]

@[simp] theorem view_chained (ep : Eventpoll) (i : Nat) :
    (view ep i).chained = true ↔ i ∈ ep.slab ∧ ep.next i ≠ .unlinked := by
  simp [view]

private theorem view_eq (t : Eventpoll) (i : Nat) (w : View) (present : i ∈ t.slab ↔ w.present = true)
    (linked : i ∈ t.rdllist ++ t.txlist ↔ w.linked = true)
    (chained : i ∈ t.slab ∧ t.next i ≠ .unlinked ↔ w.chained = true) (scanning : t.mtx.isScan = w.scanning)
    (stage : stageOf t.mtx i = w.stage) (events : t.events i = w.events)
    (itemWs : t.itemWs i = w.itemWs) (ws : t.ws = w.ws) : view t i = w := by
  have first : decide (i ∈ t.slab) = w.present := by simp only [present,Bool.decide_eq_true]
  have second : decide (i ∈ t.rdllist ++ t.txlist) = w.linked := by simp only [linked,Bool.decide_eq_true]
  have third : decide (i ∈ t.slab ∧ t.next i ≠ .unlinked) = w.chained := by
    simp only [chained,Bool.decide_eq_true]
  unfold view
  rw [first,second,third,scanning,stage,events,itemWs,ws]

private theorem rest_of (ep t : Eventpoll) (i : Nat) (slab : i ∈ t.slab ↔ i ∈ ep.slab)
    (lists : i ∈ t.rdllist ++ t.txlist ↔ i ∈ ep.rdllist ++ ep.txlist) (next : t.next i = ep.next i)
    (scanning : t.mtx.isScan = ep.mtx.isScan) (stage : stageOf t.mtx i = stageOf ep.mtx i)
    (events : t.events i = ep.events i) (itemWs : t.itemWs i = ep.itemWs i)
    (raised : ep.ws = true → t.ws = true) : ItemStep i (view ep i) (view t i) .quiet := by
  refine .rest raised ?_
  simp only [view,slab,lists,next,scanning,stage,events,itemWs]

private theorem stage_scan (scan : Scan) (i : Nat) (other : scan.pc.item ≠ some i) :
    stageOf (.scan scan) i = none := by
  simp [stageOf,other]

private theorem stage_same (scan : Scan) (i : Nat) (pc : ProcPc) (here : scan.pc = pc)
    (about : pc.item = some i) : stageOf (.scan scan) i = some pc := by
  simp [stageOf,here,about]

private theorem view_stage (ep : Eventpoll) (i : Nat) (scan : Scan) (pc : ProcPc) (held : ep.mtx = .scan scan)
    (here : scan.pc = pc) (about : pc.item = some i) : (view ep i).stage = some pc := by
  change stageOf ep.mtx i = _
  rw [held]
  exact stage_same scan i pc here about

private theorem view_free (ep : Eventpoll) (i : Nat) (scan : Scan) (held : ep.mtx = .scan scan)
    (other : scan.pc.item ≠ some i) : (view ep i).stage = none := by
  change stageOf ep.mtx i = none
  rw [held]
  exact stage_scan scan i other

private theorem view_scanning (ep : Eventpoll) (i : Nat) (scan : Scan) (held : ep.mtx = .scan scan) :
    (view ep i).scanning = true := by
  change ep.mtx.isScan = true
  rw [held]
  rfl

/-- A step of the scan with the item in hand that moves it on no list. -/
private theorem view_moved (ep t : Eventpoll) (i : Nat) (scan moved : Scan) (held : ep.mtx = .scan scan)
    (next : t.mtx = .scan moved) (slab : t.slab = ep.slab) (rdllist : t.rdllist = ep.rdllist)
    (txlist : t.txlist = ep.txlist) (links : t.next = ep.next) :
    view t i = {view ep i with
      stage := if moved.pc.item = some i then some moved.pc else none, events := t.events i,
      itemWs := t.itemWs i, ws := t.ws} := by
  simp only [view,slab,rdllist,txlist,links,next,held,stageOf,Holder.isScan]

private theorem attached_inside {ep : Eventpoll} (rep : Rep ep) {i : Nat}
    (attached : ∃ w, some w ∈ ep.pwqlist i) : i ∈ ep.slab := by
  obtain ⟨w,member⟩ := attached
  exact rep.lists.attached i w member

private theorem resting_of_inactive {ep : Eventpoll} (rep : Rep ep) (inactive : ep.ovflist = .unlinked) :
    ep.mtx.isScan = false := by
  simpa using rep.active.not.mpr (not_not.mpr inactive)

private theorem refused_item (ep : Eventpoll) (i : Nat) (rep : Rep ep) (epi entry : Nat) (key : BitVec 64)
    (pwq : Nat → List (Option Nat)) (attached : ∃ w, some w ∈ ep.pwqlist epi)
    (idle : ep.accepts epi key = false ∨
      ep.accepts epi key = true ∧ ep.ovflist ≠ .unlinked ∧ ep.next epi ≠ .unlinked ∨
      ep.accepts epi key = true ∧ ep.ovflist = .unlinked ∧ ep.rdllink epi = true) :
    ItemStep i (view ep i) (view {ep with pwqlist := pwq} i) (itemEvent ep (.callback epi entry key) i) := by
  have inside := attached_inside rep attached
  by_cases same : epi = i
  · subst epi
    rcases idle with refuses | ⟨accepted,active,on⟩ | ⟨accepted,inactive,on⟩
    · simp only [itemEvent,refuses,Bool.false_eq_true,and_false,if_false]
      exact rest_of ep _ i Iff.rfl Iff.rfl rfl rfl rfl rfl rfl (fun raised => raised)
    · simp only [itemEvent,accepted,and_self,if_true]
      refine .already (.inl ⟨rep.active.mpr active,?_⟩) rfl
      simp [view,inside,on]
    · simp only [itemEvent,accepted,and_self,if_true]
      refine .already (.inr ⟨resting_of_inactive rep inactive,?_⟩) rfl
      simpa [view] using (rep.lists.linked i inside).mp on
  · simp only [itemEvent,same,false_and,if_false]
    exact rest_of ep _ i Iff.rfl Iff.rfl rfl rfl rfl rfl rfl (fun raised => raised)

private theorem chained_item (ep : Eventpoll) (i : Nat) (rep : Rep ep) (epi entry : Nat) (key : BitVec 64)
    (pwq : Nat → List (Option Nat)) (attached : ∃ w, some w ∈ ep.pwqlist epi)
    (accepted : ep.accepts epi key = true) (active : ep.ovflist ≠ .unlinked)
    (off : ep.next epi = .unlinked) :
    ItemStep i (view ep i)
      (view {ep with
        pwqlist := pwq, next := Function.update ep.next epi ep.ovflist, ovflist := .node epi,
        ws := ep.ws || (ep.itemWs epi).isSome} i) (itemEvent ep (.callback epi entry key) i) := by
  have inside := attached_inside rep attached
  by_cases same : epi = i
  · subst epi
    simp only [itemEvent,accepted,and_self,if_true]
    refine .chain (rep.active.mpr active) (by simp [view,off]) ?_
    simp [view,inside,active]
  · simp only [itemEvent,same,false_and,if_false]
    refine rest_of ep _ i Iff.rfl Iff.rfl ?_ rfl rfl rfl rfl (fun raised => by simp [raised])
    exact Function.update_of_ne (fun eq => same eq.symm) _ _

private theorem queued_item (ep : Eventpoll) (i : Nat) (rep : Rep ep) (epi entry : Nat) (key : BitVec 64)
    (pwq : Nat → List (Option Nat)) (attached : ∃ w, some w ∈ ep.pwqlist epi)
    (accepted : ep.accepts epi key = true) (inactive : ep.ovflist = .unlinked)
    (off : ep.rdllink epi = false) :
    ItemStep i (view ep i) (view ({ep with pwqlist := pwq}.listAddTail epi |>.epPmStayAwake epi) i)
      (itemEvent ep (.callback epi entry key) i) := by
  by_cases same : epi = i
  · subst epi
    have absent := (rep.lists.unlinked i (attached_inside rep attached)).mp off
    simp only [itemEvent,accepted,and_self,if_true]
    refine .queue (resting_of_inactive rep inactive) (by simpa [view] using absent) ?_
    exact view_eq _ i _ (by simp [Eventpoll.epPmStayAwake,Eventpoll.listAddTail])
      (by simp [Eventpoll.epPmStayAwake,Eventpoll.listAddTail]) (view_chained ep i).symm rfl rfl rfl
      (by simp [Eventpoll.epPmStayAwake,Eventpoll.listAddTail,awake,view]) rfl
  · have other : i ≠ epi := fun eq => same eq.symm
    simp only [itemEvent,same,false_and,if_false]
    refine rest_of ep _ i Iff.rfl ?_ rfl rfl rfl rfl ?_ (fun raised => raised)
    · simp [Eventpoll.epPmStayAwake,Eventpoll.listAddTail,other]
    · simp [Eventpoll.epPmStayAwake,Eventpoll.listAddTail,other]

private theorem proc_item (ep : Eventpoll) (i epi : Nat) (scan moved : Scan) (t : Eventpoll)
    (held : ep.mtx = .scan scan) (next : t.mtx = .scan moved)
    (before : scan.pc.item = some epi ∨ scan.pc.item = none)
    (after : moved.pc.item = some epi ∨ moved.pc.item = none) (other : epi ≠ i)
    (slab : t.slab = ep.slab) (lists : i ∈ t.rdllist ++ t.txlist ↔ i ∈ ep.rdllist ++ ep.txlist)
    (links : t.next = ep.next) (events : t.events i = ep.events i) (itemWs : t.itemWs i = ep.itemWs i)
    (raised : ep.ws = true → t.ws = true) : ItemStep i (view ep i) (view t i) .quiet := by
  refine rest_of ep t i (by rw [slab]) lists (by rw [links]) (by rw [held,next]; rfl) ?_ events itemWs raised
  have old : scan.pc.item ≠ some i := by
    rcases before with same | same <;> simp [same,other]
  have new : moved.pc.item ≠ some i := by
    rcases after with same | same <;> simp [same,other]
  rw [held,next,stage_scan scan i old,stage_scan moved i new]

private theorem take_item (ep : Eventpoll) (i : Nat) (scan : Scan) (epi : Nat)
    (rest : List Nat) (held : ep.mtx = .scan scan) (here : scan.pc = .loop)
    (first : ep.txlist = epi::rest) :
    ItemStep i (view ep i)
      (view ({ep with ws := ep.ws || ep.itemWs epi == some true}.withPc scan (.relax epi)) i) .quiet := by
  by_cases same : epi = i
  · subst epi
    have idle := view_free ep i scan held (by simp [here,ProcPc.item])
    refine .choose idle (by simp [first]) (view_scanning ep i scan held) ?_
    refine Eq.trans (view_moved ep _ i scan _ held rfl rfl rfl rfl rfl) ?_
    simp [Eventpoll.withPc,ProcPc.item,view]
  · exact proc_item ep i epi scan _ _ held rfl (by simp [here,ProcPc.item]) (by simp [ProcPc.item]) same rfl
      Iff.rfl rfl rfl rfl (fun raised => by simp [Eventpoll.withPc,raised])

private theorem relax_item (ep : Eventpoll) (i : Nat) (scan : Scan) (epi : Nat)
    (held : ep.mtx = .scan scan) (here : scan.pc = .relax epi) :
    ItemStep i (view ep i) (view ((ep.pmRelax epi).withPc scan (.unlink epi)) i) .quiet := by
  by_cases same : epi = i
  · subst epi
    refine .relax (view_stage ep i scan _ held here rfl) ?_
    refine Eq.trans (view_moved ep _ i scan _ held rfl rfl rfl rfl rfl) ?_
    simp [Eventpoll.withPc,Eventpoll.pmRelax,ProcPc.item,asleep,view]
  · refine proc_item ep i epi scan _ _ held rfl (by simp [here,ProcPc.item]) (by simp [ProcPc.item]) same rfl
      Iff.rfl rfl rfl ?_ (fun raised => raised)
    exact Function.update_of_ne (fun eq => same eq.symm) _ _

private theorem unlink_item (ep : Eventpoll) (i : Nat) (rep : Rep ep) (scan : Scan) (epi : Nat)
    (held : ep.mtx = .scan scan) (here : scan.pc = .unlink epi) :
    ItemStep i (view ep i) (view ((ep.listDelInit epi).withPc scan (.poll epi)) i) .quiet := by
  have member := rep.lists.mem_delInit epi
  by_cases same : epi = i
  · subst epi
    refine .unlink (view_stage ep i scan _ held here rfl) ?_
    exact view_eq _ i _ (view_present ep i).symm ((member i).trans (by simp)) (view_chained ep i).symm
      (view_scanning ep i scan held).symm (by simp [stageOf,Eventpoll.withPc,ProcPc.item])
      rfl rfl rfl
  · refine proc_item ep i epi scan _ _ held rfl (by simp [here,ProcPc.item]) (by simp [ProcPc.item]) same rfl
      ((member i).trans ?_) rfl rfl rfl (fun raised => raised)
    simp [Ne.symm same]

private theorem relink_item (ep : Eventpoll) (i : Nat) (scan : Scan) (epi : Nat)
    (held : ep.mtx = .scan scan) (here : scan.pc = .faulted epi) :
    ItemStep i (view ep i) (view ((ep.listAddTx epi).withPc scan (.restay epi)) i) .quiet := by
  by_cases same : epi = i
  · subst epi
    refine .relink (view_stage ep i scan _ held here rfl) ?_
    exact view_eq _ i _ (view_present ep i).symm (by simp [Eventpoll.withPc,Eventpoll.listAddTx])
      (view_chained ep i).symm (view_scanning ep i scan held).symm
      (by simp [stageOf,Eventpoll.withPc,ProcPc.item]) rfl rfl rfl
  · refine proc_item ep i epi scan _ _ held rfl (by simp [here,ProcPc.item]) (by simp [ProcPc.item]) same rfl
      ?_ rfl rfl rfl (fun raised => raised)
    simp [Eventpoll.withPc,Eventpoll.listAddTx,Ne.symm same]

private theorem requeue_item (ep : Eventpoll) (i : Nat) (scan : Scan) (epi : Nat)
    (held : ep.mtx = .scan scan) (here : scan.pc = .requeue epi) :
    ItemStep i (view ep i) (view ((ep.listAddTail epi).withPc scan (.stay epi)) i) .quiet := by
  by_cases same : epi = i
  · subst epi
    refine .requeue (view_stage ep i scan _ held here rfl) ?_
    exact view_eq _ i _ (view_present ep i).symm (by simp [Eventpoll.withPc,Eventpoll.listAddTail])
      (view_chained ep i).symm (view_scanning ep i scan held).symm
      (by simp [stageOf,Eventpoll.withPc,ProcPc.item]) rfl rfl rfl
  · refine proc_item ep i epi scan _ _ held rfl (by simp [here,ProcPc.item]) (by simp [ProcPc.item]) same rfl
      ?_ rfl rfl rfl (fun raised => raised)
    simp [Eventpoll.withPc,Eventpoll.listAddTail,Ne.symm same]

private theorem stay_item (ep : Eventpoll) (i : Nat) (scan : Scan) (epi : Nat) (pc : ProcPc)
    (held : ep.mtx = .scan scan)
    (here : scan.pc = .restay epi ∧ pc = .done true ∨ scan.pc = .stay epi ∧ pc = .loop) :
    ItemStep i (view ep i) (view ((ep.epPmStayAwake epi).withPc scan pc) i) .quiet := by
  have away : pc.item = none := by
    rcases here with ⟨_,rfl⟩ | ⟨_,rfl⟩ <;> rfl
  by_cases same : epi = i
  · subst epi
    have next : view ((ep.epPmStayAwake i).withPc scan pc) i =
        {view ep i with stage := none, itemWs := awake (view ep i).itemWs} := by
      refine Eq.trans (view_moved ep _ i scan _ held rfl rfl rfl rfl rfl) ?_
      simp [Eventpoll.withPc,Eventpoll.epPmStayAwake,away,awake,view]
    rcases here with ⟨here,_⟩ | ⟨here,_⟩
    · exact .restay (view_stage ep i scan _ held here rfl) next
    · exact .stay (view_stage ep i scan _ held here rfl) next
  · refine proc_item ep i epi scan _ _ held rfl ?_ (.inr away) same rfl Iff.rfl rfl rfl ?_ (fun raised => raised)
    · rcases here with ⟨here,_⟩ | ⟨here,_⟩ <;> simp [here,ProcPc.item]
    · exact Function.update_of_ne (fun eq => same eq.symm) _ _

private theorem settle_item (ep : Eventpoll) (i : Nat) (scan : Scan) (epi : Nat)
    (held : ep.mtx = .scan scan) (here : scan.pc = .settle epi) (pc : ProcPc)
    (branch : pc = .loop ∧ (hits (ep.events epi) epollOneshot = true ∨ hits (ep.events epi) epollEt = true) ∨
      pc = .requeue epi ∧ hits (ep.events epi) epollOneshot = false ∧ hits (ep.events epi) epollEt = false) :
    ItemStep i (view ep i)
      (view ({ep with events := Function.update ep.events epi (settled (ep.events epi))}.withPc scan pc) i)
      .quiet := by
  by_cases same : epi = i
  · subst epi
    have stage := view_stage ep i scan (.settle i) held here rfl
    rcases branch with ⟨rfl,_⟩ | ⟨rfl,reusable,triggered⟩
    · refine .settle stage ?_
      refine Eq.trans (view_moved ep _ i scan _ held rfl rfl rfl rfl rfl) ?_
      simp [Eventpoll.withPc,ProcPc.item,view]
    · refine .level stage reusable triggered ?_
      refine Eq.trans (view_moved ep _ i scan _ held rfl rfl rfl rfl rfl) ?_
      simp [Eventpoll.withPc,ProcPc.item,view,settled,reusable]
  · refine proc_item ep i epi scan _ _ held rfl (by simp [here,ProcPc.item]) ?_ same rfl Iff.rfl rfl ?_ rfl
      (fun raised => raised)
    · rcases branch with ⟨rfl,_⟩ | ⟨rfl,_⟩ <;> simp [ProcPc.item]
    · exact Function.update_of_ne (fun eq => same eq.symm) _ _

private theorem poll_item (ep : Eventpoll) (i : Nat) (scan : Scan) (epi : Nat) (mask : EventMask)
    (held : ep.mtx = .scan scan) (here : scan.pc = .poll epi) (pc : ProcPc)
    (branch : pc = .loop ∧ ep.epItemPoll epi mask = 0 ∨
      pc = .copy epi (ep.epItemPoll epi mask) ∧ ep.epItemPoll epi mask ≠ 0) :
    ItemStep i (view ep i) (view (ep.withPc scan pc) i) (itemEvent ep (.poll epi mask) i) := by
  by_cases same : epi = i
  · subst epi
    have stage := view_stage ep i scan (.poll i) held here rfl
    simp only [itemEvent,if_true]
    rcases branch with ⟨rfl,nothing⟩ | ⟨rfl,something⟩
    · refine .idle mask stage nothing ?_
      refine Eq.trans (view_moved ep _ i scan _ held rfl rfl rfl rfl rfl) ?_
      simp [Eventpoll.withPc,ProcPc.item,view]
    · refine .ready mask stage something ?_
      refine Eq.trans (view_moved ep _ i scan _ held rfl rfl rfl rfl rfl) ?_
      simp [Eventpoll.withPc,ProcPc.item,view,Eventpoll.epItemPoll]
  · simp only [itemEvent,same,if_false]
    refine proc_item ep i epi scan _ _ held rfl (by simp [here,ProcPc.item]) ?_ same rfl Iff.rfl rfl rfl rfl
      (fun raised => raised)
    rcases branch with ⟨rfl,_⟩ | ⟨rfl,_⟩ <;> simp [ProcPc.item]

private theorem copy_item (ep : Eventpoll) (i : Nat) (scan : Scan) (epi : Nat) (revents : EventMask)
    (held : ep.mtx = .scan scan) (here : scan.pc = .copy epi revents) :
    ItemStep i (view ep i)
      (view {ep with
        mtx := .scan {scan with
          pc := .settle epi, eventcnt := scan.eventcnt + 1,
          uevent := scan.uevent ++ [(revents,ep.data epi)]}} i) (itemEvent ep (.copy epi) i) := by
  by_cases same : epi = i
  · subst epi
    simp only [itemEvent,if_true]
    refine .deliver revents (view_stage ep i scan _ held here rfl) ?_
    refine Eq.trans (view_moved ep _ i scan _ held rfl rfl rfl rfl rfl) ?_
    simp [ProcPc.item,view]
  · simp only [itemEvent,same,if_false]
    exact proc_item ep i epi scan _ _ held rfl (by simp [here,ProcPc.item]) (by simp [ProcPc.item]) same rfl
      Iff.rfl rfl rfl rfl (fun raised => raised)

private theorem fault_item (ep : Eventpoll) (i : Nat) (scan : Scan) (epi : Nat) (revents : EventMask)
    (held : ep.mtx = .scan scan) (here : scan.pc = .copy epi revents) :
    ItemStep i (view ep i) (view (ep.withPc scan (.faulted epi)) i) (itemEvent ep (.fault epi) i) := by
  by_cases same : epi = i
  · subst epi
    simp only [itemEvent,if_true]
    refine .fault revents (view_stage ep i scan _ held here rfl) ?_
    refine Eq.trans (view_moved ep _ i scan _ held rfl rfl rfl rfl rfl) ?_
    simp [Eventpoll.withPc,ProcPc.item,view]
  · simp only [itemEvent,same,if_false]
    exact proc_item ep i epi scan _ _ held rfl (by simp [here,ProcPc.item]) (by simp [ProcPc.item]) same rfl
      Iff.rfl rfl rfl rfl (fun raised => raised)

theorem drained_itemWs (ns : List Nat) (distinct : ns.Nodup) (ep : Eventpoll) (i : Nat) :
    (ns.foldl Eventpoll.drainItem ep).itemWs i =
      if i ∈ ns ∧ ep.rdllink i = false then awake (ep.itemWs i) else ep.itemWs i := by
  induction ns generalizing ep with
  | nil => simp
  | cons n ns ih =>
    obtain ⟨absent,rest⟩ := List.nodup_cons.mp distinct
    rw [List.foldl_cons,ih rest]
    by_cases same : i = n
    · subst i
      cases linked : ep.rdllink n <;>
        simp [absent,Eventpoll.drainItem,linked,Eventpoll.epPmStayAwake,Eventpoll.listAddTail,awake]
    · cases linked : ep.rdllink n <;>
        simp [same,Eventpoll.drainItem,linked,Eventpoll.epPmStayAwake,Eventpoll.listAddTail]

private theorem scanEnd_item (ep : Eventpoll) (i : Nat) (rep : Rep ep) (scan : Scan) (fault : Bool)
    (drained : Eventpoll) (held : ep.mtx = .scan scan) (here : scan.pc = .done fault)
    (ended : ep.drain (ep.slab.length + 1) ep.ovflist = some drained) :
    ItemStep i (view ep i) (view {drained.spliceBack with ws := false, mtx := .free} i) .scanEnded := by
  obtain ⟨ns,chained,result⟩ := rep.drains (by rw [held]; rfl)
  have same := Option.some.inj (ended.symm.trans result)
  subst same
  have onChain : i ∈ ns ↔ (view ep i).chained = true := by
    rw [view_chained]
    exact ⟨fun member => ⟨chained.allocated i member,chained.chain.next_linked i member⟩,
      fun both => chained.active i both.1 both.2⟩
  have stage := view_free ep i scan held (by simp [here,ProcPc.item])
  have off (member : i ∈ ns) : ep.rdllink i = false ↔ (view ep i).linked = false := by
    rw [rep.lists.unlinked i (chained.allocated i member),← Bool.not_eq_true (view ep i).linked,view_linked]
  refine .finish (view_scanning ep i scan held) stage ?_
  refine view_eq _ i _ ?_ ?_ ?_ rfl ?_ ?_ ?_ rfl
  · change i ∈ (ns.foldl Eventpoll.drainItem ep).slab ↔ (view ep i).present = true
    rw [drained_slab,view_present]
  · simp only [Eventpoll.spliceBack,drained_rdllist ns chained.chain.nodup ep,drained_txlist,List.append_nil,
      Bool.or_eq_true,← onChain,view_linked,List.mem_append,List.mem_filter]
    constructor
    · rintro (tx | ready | ⟨member,_⟩)
      · exact .inl (.inr tx)
      · exact .inl (.inl ready)
      · exact .inr member
    · rintro ((ready | tx) | member)
      · exact .inr (.inl ready)
      · exact .inl tx
      · by_cases linked : i ∈ ep.rdllist ++ ep.txlist
        · rcases List.mem_append.mp linked with ready | tx
          · exact .inr (.inl ready)
          · exact .inl tx
        · refine .inr (.inr ⟨member,?_⟩)
          simpa using (rep.lists.unlinked i (chained.allocated i member)).mpr linked
  · change i ∈ (ns.foldl Eventpoll.drainItem ep).slab ∧ (ns.foldl Eventpoll.drainItem ep).next i ≠ .unlinked ↔ _
    rw [drained_slab]
    simp only [Bool.false_eq_true,iff_false,not_and,not_not]
    exact chained.drained_inactive i
  · simp [stageOf,stage]
  · change (ns.foldl Eventpoll.drainItem ep).events i = ep.events i
    rw [drained_events]
  · change (ns.foldl Eventpoll.drainItem ep).itemWs i =
      if ((view ep i).chained && !(view ep i).linked) = true then awake (ep.itemWs i) else ep.itemWs i
    rw [drained_itemWs ns chained.chain.nodup]
    by_cases member : i ∈ ns
    · rw [onChain.mp member]
      cases on : (view ep i).linked with
      | false => rw [if_pos ⟨member,(off member).mpr on⟩]; rfl
      | true =>
        have hooked : ¬ep.rdllink i = false := by rw [off member,on]; simp
        rw [if_neg (fun both => hooked both.2)]
        rfl
    · have unlinked : (view ep i).chained = false := Bool.eq_false_iff.mpr (onChain.not.mp member)
      rw [unlinked,if_neg (fun both => member both.1)]
      rfl

private theorem stage_idle (mtx : Holder) (i : Nat) (idle : mtx.isScan = false) : stageOf mtx i = none := by
  cases mtx with
  | scan scan => simp [Holder.isScan] at idle
  | free => rfl
  | insert insert => rfl

private theorem insert_item (ep t : Eventpoll) (i : Nat) (idle : ep.mtx.isScan = false)
    (still : t.mtx.isScan = false) (slab : t.slab = ep.slab) (rdllist : t.rdllist = ep.rdllist)
    (txlist : t.txlist = ep.txlist) (next : t.next = ep.next) (events : t.events = ep.events)
    (itemWs : t.itemWs = ep.itemWs) (ws : t.ws = ep.ws) : ItemStep i (view ep i) (view t i) .quiet := by
  refine rest_of ep t i (by rw [slab]) (by rw [rdllist,txlist]) (by rw [next]) (by rw [idle,still]) ?_
    (by rw [events]) (by rw [itemWs]) (by rw [ws]; exact fun raised => raised)
  rw [stage_idle ep.mtx i idle,stage_idle t.mtx i still]

private theorem scanStart_item (ep : Eventpoll) (i : Nat) (free : ep.mtx = .free) (maxevents : Nat) :
    ItemStep i (view ep i) (view (ep.scanStart maxevents) i) .scanStarted := by
  have idle : ep.mtx.isScan = false := by rw [free]; rfl
  refine .start idle ?_
  exact view_eq _ i _ (view_present ep i).symm (view_linked ep i).symm (view_chained ep i).symm rfl
    (stage_idle ep.mtx i idle).symm rfl rfl rfl

private theorem insertBegin_item (ep : Eventpoll) (i : Nat) (rep : Rep ep) (free : ep.mtx = .free)
    (epi : Nat) (fresh : epi ∉ ep.slab) (ffd : Nat × Int) (events : EventMask) (data : BitVec 64)
    (fullCheck : Bool) :
    ItemStep i (view ep i) (view (ep.insertBegin epi ffd events data fullCheck) i)
      (itemEvent ep (.insertBegin epi ffd events data fullCheck) i) := by
  have idle : ep.mtx.isScan = false := by rw [free]; rfl
  by_cases same : epi = i
  · subst epi
    have absent : i ∉ ep.rdllist ++ ep.txlist := fun member => fresh (rep.lists.allocated i member)
    simp only [itemEvent,if_true]
    refine .begin events (by simpa [view] using fresh) idle ?_
    refine view_eq _ i _ (by simp [Eventpoll.insertBegin]) ?_ (by simp [Eventpoll.insertBegin]) ?_ ?_
      (by simp [Eventpoll.insertBegin]) (by simp [Eventpoll.insertBegin]) rfl
    · change i ∈ ep.rdllist ++ ep.txlist ↔ false = true
      simpa using absent
    · exact idle.symm
    · exact (stage_idle ep.mtx i idle).symm
  · have other : i ≠ epi := fun eq => same eq.symm
    simp only [itemEvent,same,if_false]
    refine rest_of ep _ i ?_ Iff.rfl ?_ idle.symm (stage_idle ep.mtx i idle).symm ?_ ?_ (fun raised => raised)
    · change i ∈ epi::ep.slab ↔ i ∈ ep.slab
      simp [other]
    · exact Function.update_of_ne other _ _
    · exact Function.update_of_ne other _ _
    · exact Function.update_of_ne other _ _

private theorem queuedNew_item (ep : Eventpoll) (i : Nat) (rep : Rep ep) (insert : Insert)
    (revents : EventMask) (held : ep.mtx = .insert insert) (here : insert.pc = .publish revents)
    (queues : ep.queuesNew insert.epi revents = true) :
    ItemStep i (view ep i) (view {(ep.listAddTail insert.epi).epPmStayAwake insert.epi with mtx := .free} i)
      (itemEvent ep (.insertPublish insert.epi) i) := by
  have idle : ep.mtx.isScan = false := by rw [held]; rfl
  have verdict : queuesAtInsert ep = true := by simp [queuesAtInsert,held,here,queues]
  by_cases same : insert.epi = i
  · subst i
    have off : ep.rdllink insert.epi = false := by simpa using (Bool.and_eq_true_iff.mp queues).2
    have absent := (rep.lists.unlinked insert.epi (rep.position.inserting insert held)).mp off
    simp only [itemEvent,verdict,and_self,if_true]
    refine .queueNew idle (by simpa [view] using absent) ?_
    exact view_eq _ insert.epi _ (by simp [Eventpoll.epPmStayAwake,Eventpoll.listAddTail])
      (by simp [Eventpoll.epPmStayAwake,Eventpoll.listAddTail]) (view_chained ep insert.epi).symm idle.symm
      (stage_idle ep.mtx insert.epi idle).symm rfl
      (by simp [Eventpoll.epPmStayAwake,Eventpoll.listAddTail,awake,view]) rfl
  · have other : i ≠ insert.epi := fun eq => same eq.symm
    simp only [itemEvent,same,false_and,if_false]
    refine rest_of ep _ i Iff.rfl ?_ rfl idle.symm (stage_idle ep.mtx i idle).symm rfl ?_ (fun raised => raised)
    · simp [Eventpoll.epPmStayAwake,Eventpoll.listAddTail,other]
    · exact Function.update_of_ne other _ _

private theorem drop_item (ep t : Eventpoll) (i : Nat) (rep : Rep ep) (insert : Insert)
    (held : ep.mtx = .insert insert) (free : t.mtx = .free) (slab : t.slab = ep.slab.erase insert.epi)
    (gone : insert.epi ∉ t.rdllist ++ t.txlist)
    (kept : ∀ j, j ≠ insert.epi → (j ∈ t.rdllist ++ t.txlist ↔ j ∈ ep.rdllist ++ ep.txlist))
    (next : t.next = ep.next) (events : t.events = ep.events) (itemWs : t.itemWs = ep.itemWs)
    (ws : t.ws = ep.ws) :
    ItemStep i (view ep i) (view t i) (itemEvent ep (.insertDrop insert.epi) i) := by
  have idle : ep.mtx.isScan = false := by rw [held]; rfl
  have still : t.mtx.isScan = false := by rw [free]; rfl
  have present (j : Nat) : j ∈ t.slab ↔ j ≠ insert.epi ∧ j ∈ ep.slab := by
    rw [slab]
    exact rep.lists.slab.mem_erase_iff
  by_cases same : insert.epi = i
  · subst i
    simp only [itemEvent,if_true]
    refine .drop idle ?_
    refine view_eq t insert.epi _ ((present insert.epi).trans (by simp)) (by simpa using gone) ?_
      (still.trans idle.symm) ?_ (by rw [events]; rfl) (by rw [itemWs]; rfl) ws
    · rw [present insert.epi]
      simp
    · rw [stage_idle t.mtx insert.epi still]
      exact (stage_idle ep.mtx insert.epi idle).symm
  · have other : i ≠ insert.epi := fun eq => same eq.symm
    simp only [itemEvent,same,if_false]
    refine rest_of ep t i ((present i).trans (by simp [other])) (kept i other) (by rw [next]) (still.trans idle.symm) ?_
      (by rw [events]) (by rw [itemWs]) (by rw [ws]; exact fun raised => raised)
    rw [stage_idle t.mtx i still,stage_idle ep.mtx i idle]

/-- The simulation: for every item, a step of the eventpoll is a step of its machine. -/
theorem item_move (ep t : Eventpoll) (l : Label) (i : Nat) (rep : Rep ep) (move : Move ep l t) :
    ItemStep i (view ep i) (view t i) (itemEvent ep l i) := by
  cases move with
  | refused epi entry key pwq attached fewer idle => exact refused_item ep i rep epi entry key pwq attached idle
  | chained epi entry key pwq attached fewer accepted active off =>
    exact chained_item ep i rep epi entry key pwq attached accepted active off
  | queued epi entry key pwq attached fewer accepted inactive off =>
    exact queued_item ep i rep epi entry key pwq attached accepted inactive off
  | modify epi events data free inside =>
    by_cases same : epi = i
    · subst epi
      simp only [itemEvent,if_true]
      refine .modify events (by change ep.mtx.isScan = false; rw [free]; rfl) ?_
      exact view_eq _ i _ (view_present ep i).symm (view_linked ep i).symm (view_chained ep i).symm rfl rfl
        (by simp) rfl rfl
    · simp only [itemEvent,same,if_false]
      exact rest_of ep _ i Iff.rfl Iff.rfl rfl rfl rfl
        (Function.update_of_ne (fun eq => same eq.symm) _ _) rfl (fun raised => raised)
  | scanStart maxevents free positive => exact scanStart_item ep i free maxevents
  | finish scan held here ended =>
    refine rest_of ep _ i Iff.rfl Iff.rfl rfl (by rw [held]; rfl) ?_ rfl rfl (fun raised => raised)
    rw [held,stage_scan scan i (by simp [here,ProcPc.item])]
    exact stage_scan _ i (by simp [ProcPc.item])
  | take scan epi rest held here first below => exact take_item ep i scan epi rest held here first
  | relax scan epi held here => exact relax_item ep i scan epi held here
  | unlink scan epi held here => exact unlink_item ep i rep scan epi held here
  | relink scan epi held here => exact relink_item ep i scan epi held here
  | restay scan epi held here => exact stay_item ep i scan epi (.done true) held (.inl ⟨here,rfl⟩)
  | settle scan epi held here pc branch => exact settle_item ep i scan epi held here pc branch
  | requeue scan epi held here => exact requeue_item ep i scan epi held here
  | stay scan epi held here => exact stay_item ep i scan epi .loop held (.inr ⟨here,rfl⟩)
  | idle scan epi mask held here nothing =>
    exact poll_item ep i scan epi mask held here _ (.inl ⟨rfl,nothing⟩)
  | ready scan epi mask held here something =>
    exact poll_item ep i scan epi mask held here _ (.inr ⟨rfl,something⟩)
  | copy scan epi revents held here => exact copy_item ep i scan epi revents held here
  | fault scan epi revents held here => exact fault_item ep i scan epi revents held here
  | scanEnd scan fault drained held here ended => exact scanEnd_item ep i rep scan fault drained held here ended
  | insertBegin epi ffd events data fullCheck free fresh =>
    exact insertBegin_item ep i rep free epi fresh ffd events data fullCheck
  | hooked insert whead held here good =>
    exact insert_item ep _ i (by rw [held]; rfl) (by rw [held]; rfl) rfl rfl rfl rfl rfl rfl rfl
  | unhooked insert whead allocated held here =>
    exact insert_item ep _ i (by rw [held]; rfl) (by rw [held]; rfl) rfl rfl rfl rfl rfl rfl rfl
  | insertPoll insert mask held here =>
    exact insert_item ep _ i (by rw [held]; rfl) rfl rfl rfl rfl rfl rfl rfl rfl
  | linked insert revents held here =>
    exact insert_item ep _ i (by rw [held]; rfl) rfl rfl rfl rfl rfl rfl rfl rfl
  | unhookable insert revents held here bad =>
    exact insert_item ep _ i (by rw [held]; rfl) rfl rfl rfl rfl rfl rfl rfl rfl
  | unregister insert held here =>
    exact insert_item ep _ i (by rw [held]; rfl) rfl rfl rfl rfl rfl rfl rfl rfl
  | rejected insert revents held here =>
    exact insert_item ep _ i (by rw [held]; rfl) rfl rfl rfl rfl rfl rfl rfl rfl
  | checked insert revents tooManyPaths held here =>
    exact insert_item ep _ i (by rw [held]; rfl) rfl rfl rfl rfl rfl rfl rfl rfl
  | published insert revents held here quiet =>
    have verdict : queuesAtInsert ep = false := by simp [queuesAtInsert,held,here,quiet]
    simp only [itemEvent,verdict,Bool.false_eq_true,and_false,if_false]
    exact insert_item ep _ i (by rw [held]; rfl) rfl rfl rfl rfl rfl rfl rfl rfl
  | queuedNew insert revents held here queues => exact queuedNew_item ep i rep insert revents held here queues
  | dropped insert held here off =>
    have absent := (rep.lists.unlinked insert.epi (rep.position.inserting insert held)).mp off
    exact drop_item ep _ i rep insert held rfl rfl absent (fun j _ => Iff.rfl) rfl rfl rfl rfl
  | unqueued insert held here queued =>
    have member := rep.lists.mem_delInit insert.epi
    refine drop_item ep _ i rep insert held rfl rfl ?_ ?_ rfl rfl rfl rfl
    · exact fun inside => ((member insert.epi).mp inside).1 rfl
    · intro j other
      exact (member j).trans (by simp [other])

theorem stage_held {ep : Eventpoll} {i : Nat} {pc : ProcPc} (stage : (view ep i).stage = some pc) :
    ∃ scan, ep.mtx = .scan scan ∧ scan.pc = pc := by
  change stageOf ep.mtx i = some pc at stage
  cases held : ep.mtx with
  | free => simp [held,stageOf] at stage
  | insert insert => simp [held,stageOf] at stage
  | scan scan =>
    simp only [held,stageOf] at stage
    split at stage
    · exact ⟨scan,rfl,Option.some.inj stage⟩
    · contradiction

structure ViewOk (i : Nat) (v : View) : Prop where
  linked : v.linked = true → v.present = true
  chained : v.chained = true → v.present = true ∧ v.scanning = true
  stage : v.scanning = false → v.stage = none
  chosen : v.stage = some (.unlink i) → v.linked = true

theorem view_ok (ep : Eventpoll) (i : Nat) (rep : Rep ep) : ViewOk i (view ep i) := by
  refine ⟨?_,?_,stage_idle ep.mtx i,?_⟩
  · rw [view_linked,view_present]
    exact rep.lists.allocated i
  · rw [view_chained,view_present]
    rintro ⟨present,active⟩
    refine ⟨present,?_⟩
    by_contra idle
    exact active ((rep.overflow.resting (Bool.eq_false_iff.mpr idle)).2.2 i present)
  · intro stage
    obtain ⟨scan,held,here⟩ := stage_held stage
    obtain ⟨rest,first⟩ := rep.position.chosen scan i held (by rw [here]; rfl)
    simp [first]

theorem item_step (ep t : Eventpoll) (l : Label) (i : Nat) (rep : Rep ep) (ok : step ep l = some t) :
    ItemStep i (view ep i) (view t i) (itemEvent ep l i) :=
  item_move ep t l i rep (step_move ep t l ok)

theorem rep_step (ep t : Eventpoll) (l : Label) (rep : Rep ep) (ok : step ep l = some t) : Rep t :=
  rep_move ep t l rep (step_move ep t l ok)

theorem overflow_member (ep : Eventpoll) (rep : Rep ep) (i : Nat) :
    i ∈ ep.overflow ↔ (view ep i).chained = true := by
  rw [view_chained]
  cases busy : ep.mtx.isScan with
  | true =>
    have chained := rep.chained busy
    exact ⟨fun member => ⟨chained.allocated i member,chained.chain.next_linked i member⟩,
      fun both => chained.active i both.1 both.2⟩
  | false =>
    obtain ⟨inactive,_,quiet⟩ := rep.overflow.resting busy
    rw [Eventpoll.overflow,inactive]
    constructor
    · intro member
      cases size : ep.slab.length <;> simp [size,follow] at member
    · rintro ⟨present,active⟩
      exact absurd (quiet i present) active

end Reactor.Epoll
