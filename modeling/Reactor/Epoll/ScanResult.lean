import Mathlib.Data.List.Dedup
import Reactor.Epoll.Delivery
import Reactor.Epoll.Wait

/-! The result of one scan: which items `ep_send_events_proc` polls, what it leaves in
the user's slots and what it returns, and in which order the ready list comes out once
what arrived meanwhile is merged into it. -/
namespace Reactor.Epoll
open Reactor.Transition Reactor.Threaded

/-- What happens during a scan: the items polled with what their files reported, the
items copied out, the item whose copy failed, and the items of accepted callbacks. -/
structure Journal where
  polled : List (Nat × EventMask)
  copied : List Nat
  faulted : Option Nat
  arrived : List Nat
  deriving DecidableEq, Repr

def Journal.note (ep : Eventpoll) (l : Label) (j : Journal) : Journal :=
  match l with
  | .poll epi mask => {j with polled := j.polled ++ [(epi,mask)]}
  | .copy epi => {j with copied := j.copied ++ [epi]}
  | .fault epi => {j with faulted := some epi}
  | .callback epi _ key => if ep.accepts epi key then {j with arrived := j.arrived ++ [epi]} else j
  | _ => j

def journal (ep : Eventpoll) (ls : List Label) : Journal := record step Journal.note ep ls ⟨[],[],none,[]⟩

/-- Those of the polled items that have events for the user. -/
def Eventpoll.reporting (ep : Eventpoll) (polled : List (Nat × EventMask)) : List (Nat × EventMask) :=
  polled.filter fun p => ep.epItemPoll p.1 p.2 ≠ 0

def Eventpoll.slots (ep : Eventpoll) (polled : List (Nat × EventMask)) : List (EventMask × BitVec 64) :=
  (ep.reporting polled).map fun p => (ep.epItemPoll p.1 p.2,ep.data p.1)

def levelTriggered (events : EventMask) : Bool := !hits events epollOneshot && !hits events epollEt

def Eventpoll.requeued (ep : Eventpoll) (copied : List Nat) : List Nat :=
  copied.filter fun i => levelTriggered (ep.events i)

section
variable (ep : Eventpoll) (polled : List (Nat × EventMask)) (copied : List Nat) (epi : Nat) (mask : EventMask)

@[simp] theorem reporting_idle (none : ep.epItemPoll epi mask = 0) :
    ep.reporting (polled ++ [(epi,mask)]) = ep.reporting polled := by
  simp [Eventpoll.reporting,none]

@[simp] theorem reporting_ready (some : ep.epItemPoll epi mask ≠ 0) :
    ep.reporting (polled ++ [(epi,mask)]) = ep.reporting polled ++ [(epi,mask)] := by
  simpa [Eventpoll.reporting] using some

@[simp] theorem requeued_append :
    ep.requeued (copied ++ [epi]) =
      ep.requeued copied ++ if levelTriggered (ep.events epi) then [epi] else [] := by
  simp [Eventpoll.requeued,List.filter_cons]

end

/-- The copied item that has yet to be put back on the ready list. -/
def ProcPc.owed (ep : Eventpoll) : ProcPc → List Nat
  | .settle epi => if levelTriggered (ep.events epi) then [epi] else []
  | .requeue epi => [epi]
  | _ => []

/-- What the position of a scan of `ep`, now in state `s`, says about the item whose
copy is tried, or has failed. -/
def ProcPc.Attempt (ep s : Eventpoll) (m : Nat) (j : Journal) (tried : List (Nat × EventMask)) : ProcPc → Prop
  | .copy i revents => j.faulted = none ∧
      ∃ mask, tried = [(i,mask)] ∧ revents = ep.epItemPoll i mask ∧ ep.epItemPoll i mask ≠ 0
  | .faulted i => j.faulted = some i ∧ ∃ mask, tried = [(i,mask)] ∧ ep.epItemPoll i mask ≠ 0
  | .restay i => j.faulted = some i ∧ (∃ mask, tried = [(i,mask)] ∧ ep.epItemPoll i mask ≠ 0) ∧
      ∃ later, s.txlist = i::later
  | .done true => ∃ i, j.faulted = some i ∧ (∃ mask, tried = [(i,mask)] ∧ ep.epItemPoll i mask ≠ 0) ∧
      ∃ later, s.txlist = i::later
  | .done false => j.faulted = none ∧ tried = [] ∧ (s.txlist = [] ∨ m ≤ j.copied.length)
  | .settle i => j.faulted = none ∧ tried = [] ∧ i ∈ j.copied ∧ s.events i = ep.events i
  | _ => j.faulted = none ∧ tried = []

/-- The scan of `ep` amid its work: it is through with the items in `done`. -/
structure Underway (ep : Eventpoll) (m : Nat) (j : Journal) (s : Eventpoll) (scan : Scan)
    (done tried : List (Nat × EventMask)) : Prop where
  held : s.mtx = .scan scan
  max : scan.maxevents = m
  polled : j.polled = done ++ tried
  attempt : scan.pc.Attempt ep s m j tried
  order : ep.rdllist = done.map Prod.fst ++ (scan.pc.undelivered.toList ++ s.txlist)
  copied : j.copied = (ep.reporting done).map Prod.fst
  uevent : scan.uevent = ep.slots done
  counted : scan.eventcnt = j.copied.length
  requeued : s.rdllist ++ scan.pc.owed ep = ep.requeued j.copied
  untouched : ∀ i, i ∉ done.map Prod.fst → s.events i = ep.events i
  data : s.data = ep.data
  chain : s.overflow = j.arrived.reverse.dedup

theorem Move.callback_frame {s t : Eventpoll} {epi entry : Nat} {key : BitVec 64} (rep : Rep s)
    (busy : s.mtx.isScan = true) (move : Move s (.callback epi entry key) t) :
    t = {s with pwqlist := t.pwqlist, next := t.next, ovflist := t.ovflist, ws := t.ws} := by
  cases move with
  | refused | chained => rfl
  | queued _ _ _ pwq attached fewer accepted inactive => exact absurd inactive (rep.active.mp busy)

/-- A callback during a scan puts its item in front of the overflow chain, once. -/
theorem Move.callback_overflow {s t : Eventpoll} {epi entry : Nat} {key : BitVec 64} (rep : Rep s)
    (busy : s.mtx.isScan = true) (move : Move s (.callback epi entry key) t) :
    t.overflow = if s.accepts epi key = true ∧ epi ∉ s.overflow then epi::s.overflow else s.overflow := by
  have later := rep_move s t _ rep move
  have chained := rep.chained busy
  cases move with
  | refused _ _ _ pwq attached fewer idle =>
    obtain ⟨w,member⟩ := attached
    have inside := rep.lists.attached epi w member
    rw [if_neg]
    · rfl
    · rintro ⟨accepted,absent⟩
      rcases idle with refuses | ⟨_,_,on⟩ | ⟨_,inactive,_⟩
      · simp [accepted] at refuses
      · exact absent ((chained.member epi inside).mp on)
      · exact rep.active.mp busy inactive
  | chained _ _ _ pwq attached fewer accepted active off =>
    have absent : epi ∉ s.overflow := fun member => chained.chain.next_linked epi member off
    rw [if_pos ⟨accepted,absent⟩]
    exact (later.chained busy).chain.unique (chained.chain.push epi absent)
  | queued _ _ _ pwq attached fewer accepted inactive => exact absurd inactive (rep.active.mp busy)

section
variable {ep s t : Eventpoll} {m : Nat} {j : Journal} {scan : Scan} {done tried : List (Nat × EventMask)} {epi entry : Nat}
  {key : BitVec 64}

theorem Underway.callback (way : Underway ep m j s scan done tried) (rep : Rep s)
    (move : Move s (.callback epi entry key) t) :
    Underway ep m (j.note s (.callback epi entry key)) t scan done tried := by
  have busy : s.mtx.isScan = true := by rw [way.held]; rfl
  have chain := move.callback_overflow rep busy
  rw [way.chain] at chain
  obtain ⟨arrived,noted,first⟩ : ∃ arrived, j.note s (.callback epi entry key) = {j with arrived := arrived} ∧
      t.overflow = arrived.reverse.dedup := by
    unfold Journal.note
    by_cases accepted : s.accepts epi key = true
    · refine ⟨j.arrived ++ [epi],by simp only [accepted,if_true],?_⟩
      rw [List.reverse_append,List.reverse_singleton,List.singleton_append]
      by_cases before : epi ∈ j.arrived.reverse
      · rw [List.dedup_cons_of_mem before,chain,if_neg (by simpa [accepted] using before)]
      · rw [List.dedup_cons_of_notMem before,chain,if_pos ⟨accepted,by simpa using before⟩]
    · exact ⟨j.arrived,by simp [accepted],by rw [chain,if_neg (by simp [accepted])]⟩
  rw [move.callback_frame rep busy] at first ⊢
  rw [noted]
  exact {way with chain := first}

theorem Underway.fresh (way : Underway ep m j s scan done tried) (distinct : ep.rdllist.Nodup) (epi : Nat)
    (hand : scan.pc.undelivered = some epi) : s.events epi = ep.events epi := by
  apply way.untouched epi
  intro before
  rw [way.order,hand] at distinct
  exact (List.nodup_append.mp distinct).2.2 epi before epi (by simp) rfl

/-- The item chosen is the first of what is left, and it leaves the list. -/
theorem Underway.unlink (way : Underway ep m j s scan done tried) (rep : Rep s) (here : scan.pc = .unlink epi) :
    Underway ep m j ((s.listDelInit epi).withPc scan (.poll epi)) {scan with pc := .poll epi} done tried := by
  obtain ⟨rest,first⟩ := rep.position.chosen scan epi way.held (by rw [here]; rfl)
  have apart : epi ∉ s.rdllist := by
    have distinct := rep.lists.distinct
    rw [first] at distinct
    exact fun member => (List.nodup_append.mp distinct).2.2 epi member epi (by simp) rfl
  have attempt := way.attempt
  have order := way.order
  have requeued := way.requeued
  rw [here] at attempt order requeued
  refine {way with held := rfl, attempt := attempt, order := ?_, requeued := ?_}
  · rw [first] at order
    simpa [Eventpoll.withPc,Eventpoll.listDelInit,first,ProcPc.undelivered] using order
  · simpa [Eventpoll.withPc,Eventpoll.listDelInit,List.erase_of_not_mem apart,ProcPc.owed] using requeued

theorem Underway.idle (way : Underway ep m j s scan done tried) (distinct : ep.rdllist.Nodup)
    (mask : EventMask) (here : scan.pc = .poll epi) (none : s.epItemPoll epi mask = 0) :
    Underway ep m (j.note s (.poll epi mask)) (s.withPc scan .loop) {scan with pc := .loop}
      (done ++ [(epi,mask)]) [] := by
  have none : ep.epItemPoll epi mask = 0 := by
    rwa [Eventpoll.epItemPoll,way.fresh distinct epi (by rw [here]; rfl)] at none
  have order := way.order
  have requeued := way.requeued
  obtain ⟨fine,rfl⟩ : j.faulted = Option.none ∧ tried = [] := by
    simpa only [here,ProcPc.Attempt] using way.attempt
  rw [here] at order requeued
  refine ⟨rfl,way.max,?_,⟨fine,rfl⟩,?_,?_,?_,way.counted,requeued,?_,way.data,way.chain⟩
  · simp [Journal.note,way.polled]
  · simpa [Eventpoll.withPc,ProcPc.undelivered] using order
  · rw [reporting_idle _ _ _ _ none]
    exact way.copied
  · rw [Eventpoll.slots,reporting_idle _ _ _ _ none]
    exact way.uevent
  · intro i other
    rw [List.map_append] at other
    exact way.untouched i (fun before => other (List.mem_append_left _ before))

theorem Underway.copy (way : Underway ep m j s scan done tried) (distinct : ep.rdllist.Nodup)
    (revents : EventMask) (here : scan.pc = .copy epi revents) :
    Underway ep m (j.note s (.copy epi)) {s with mtx := .scan {scan with
        pc := .settle epi, eventcnt := scan.eventcnt + 1, uevent := scan.uevent ++ [(revents,s.data epi)]}}
      {scan with pc := .settle epi, eventcnt := scan.eventcnt + 1, uevent := scan.uevent ++ [(revents,s.data epi)]}
      (done ++ tried) [] := by
  have fresh := way.fresh distinct epi (by rw [here]; rfl)
  have order := way.order
  have requeued := way.requeued
  have attempt := way.attempt
  rw [here] at order requeued attempt
  obtain ⟨fine,mask,rfl,rfl,some⟩ := attempt
  refine ⟨rfl,way.max,?_,⟨fine,rfl,?_,fresh⟩,?_,?_,?_,?_,?_,?_,way.data,way.chain⟩
  · simp [Journal.note,way.polled]
  · simp [Journal.note]
  · simpa [ProcPc.undelivered] using order
  · rw [reporting_ready _ _ _ _ some]
    simp [Journal.note,way.copied]
  · rw [Eventpoll.slots,reporting_ready _ _ _ _ some,way.uevent,way.data]
    simp [Eventpoll.slots]
  · simp [Journal.note,way.counted]
  · simpa [Journal.note,ProcPc.owed] using requeued
  · intro i other
    rw [List.map_append] at other
    exact way.untouched i (fun before => other (List.mem_append_left _ before))

theorem Underway.settle (way : Underway ep m j s scan done tried) (here : scan.pc = .settle epi) (pc : ProcPc)
    (branch : pc = .loop ∧ (hits (s.events epi) epollOneshot = true ∨ hits (s.events epi) epollEt = true) ∨
      pc = .requeue epi ∧ hits (s.events epi) epollOneshot = false ∧ hits (s.events epi) epollEt = false) :
    Underway ep m j
      ({s with events := Function.update s.events epi (settled (s.events epi))}.withPc scan pc)
      {scan with pc := pc} done tried := by
  have order := way.order
  have requeued := way.requeued
  have attempt := way.attempt
  rw [here] at order requeued attempt
  obtain ⟨fine,rfl,inside,same⟩ := attempt
  have mode : pc = .loop ∧ levelTriggered (ep.events epi) = false ∨
      pc = .requeue epi ∧ levelTriggered (ep.events epi) = true := by
    rw [same] at branch
    rcases branch with ⟨rfl,kept⟩ | ⟨rfl,reusable,level⟩
    · exact .inl ⟨rfl,by rcases kept with set | set <;> simp [levelTriggered,set]⟩
    · exact .inr ⟨rfl,by simp [levelTriggered,reusable,level]⟩
  refine ⟨rfl,way.max,way.polled,?_,?_,way.copied,way.uevent,way.counted,?_,?_,way.data,way.chain⟩
  · rcases mode with ⟨rfl,_⟩ | ⟨rfl,_⟩ <;> exact ⟨fine,rfl⟩
  · rcases mode with ⟨rfl,_⟩ | ⟨rfl,_⟩ <;> exact order
  · rcases mode with ⟨rfl,level⟩ | ⟨rfl,level⟩ <;>
      simpa [Eventpoll.withPc,ProcPc.owed,level] using requeued
  · intro i other
    have different : i ≠ epi := by
      rintro rfl
      rw [way.copied] at inside
      obtain ⟨p,member,same⟩ := List.mem_map.mp inside
      exact other (List.mem_map.mpr ⟨p,(List.mem_filter.mp member).1,same⟩)
    exact (Function.update_of_ne different _ _).trans (way.untouched i other)

theorem underway_move {l : Label} (way : Underway ep m j s scan done tried) (distinct : ep.rdllist.Nodup) (rep : Rep s)
    (going : l ≠ .scanEnd) (move : Move s l t) :
    ∃ moved done' tried', Underway ep m (j.note s l) t moved done' tried' := by
  have order := way.order
  have requeued := way.requeued
  have attempt := way.attempt
  have same (now : Scan) (held : s.mtx = .scan now) : now = scan := by
    rw [way.held] at held
    exact (Holder.scan.inj held).symm
  have busy : s.mtx ≠ .free := by simp [way.held]
  have scanning (insert : Insert) : s.mtx ≠ .insert insert := by simp [way.held]
  cases move with
  | refused epi entry key pwq attached fewer idle =>
    exact ⟨scan,done,tried,way.callback rep (.refused epi entry key pwq attached fewer idle)⟩
  | chained epi entry key pwq attached fewer accepted active off =>
    exact ⟨scan,done,tried,way.callback rep (.chained epi entry key pwq attached fewer accepted active off)⟩
  | queued epi entry key pwq attached fewer accepted inactive off =>
    exact ⟨scan,done,tried,way.callback rep (.queued epi entry key pwq attached fewer accepted inactive off)⟩
  | modify epi events data free | scanStart maxevents free | insertBegin epi ffd events data fullCheck free =>
    exact absurd free busy
  | finish now held here ended =>
    cases same now held
    rw [here] at order requeued attempt
    rw [way.max,way.counted] at ended
    exact ⟨_,done,tried,{way with
      held := rfl, attempt := ⟨attempt.1,attempt.2,ended⟩, order := order, requeued := requeued}⟩
  | take now epi rest held here | relax now epi held here | stay now epi held here =>
    cases same now held
    rw [here] at order requeued attempt
    exact ⟨_,done,tried,{way with held := rfl, attempt := attempt, order := order, requeued := requeued}⟩
  | unlink now epi held here =>
    cases same now held
    exact ⟨_,done,tried,way.unlink rep here⟩
  | idle now epi mask held here none =>
    cases same now held
    exact ⟨_,_,_,way.idle distinct mask here none⟩
  | ready now epi mask held here some =>
    cases same now held
    have fresh := way.fresh distinct epi (by rw [here]; rfl)
    rw [here] at order requeued attempt
    obtain ⟨fine,rfl⟩ := attempt
    rw [Eventpoll.epItemPoll,fresh] at some ⊢
    exact ⟨_,done,[(epi,mask)],{way with
      held := rfl, polled := by simp [Journal.note,way.polled], attempt := ⟨fine,mask,rfl,rfl,some⟩, order := order,
      requeued := requeued}⟩
  | copy now epi revents held here =>
    cases same now held
    exact ⟨_,_,_,way.copy distinct revents here⟩
  | fault now epi revents held here =>
    cases same now held
    rw [here] at order requeued attempt
    obtain ⟨_,mask,rfl,_,some⟩ := attempt
    exact ⟨_,done,_,{way with
      held := rfl, attempt := ⟨rfl,mask,rfl,some⟩, order := order, requeued := requeued}⟩
  | relink now epi held here =>
    cases same now held
    rw [here] at order requeued attempt
    exact ⟨_,done,tried,{way with
      held := rfl, attempt := ⟨attempt.1,attempt.2,s.txlist,rfl⟩, order := order, requeued := requeued}⟩
  | restay now epi held here =>
    cases same now held
    rw [here] at order requeued attempt
    exact ⟨_,done,tried,{way with held := rfl, attempt := ⟨epi,attempt⟩, order := order, requeued := requeued}⟩
  | settle now epi held here pc branch =>
    cases same now held
    exact ⟨_,done,tried,way.settle here pc branch⟩
  | requeue now epi held here =>
    cases same now held
    rw [here] at order requeued attempt
    exact ⟨_,done,tried,{way with
      held := rfl, attempt := attempt, order := order, requeued := (List.append_nil _).trans requeued}⟩
  | scanEnd => exact absurd rfl going
  | hooked insert whead held | unhooked insert whead allocated held | insertPoll insert mask held
  | linked insert revents held | unhookable insert revents held | unregister insert held
  | rejected insert revents held | checked insert revents tooManyPaths held | published insert revents held
  | queuedNew insert revents held | dropped insert held | unqueued insert held =>
    exact absurd held (scanning insert)

end

/-- A scan counts no more events than it was asked for, and takes an item only while
there is room. -/
def Scan.Bounded (scan : Scan) : Prop :=
  match scan.pc with
  | .relax _ | .unlink _ | .poll _ | .copy _ _ => scan.eventcnt < scan.maxevents
  | _ => scan.eventcnt ≤ scan.maxevents

theorem bounded_step (ep t : Eventpoll) (l : Label) (ok : step ep l = some t)
    (bounded : ∀ scan, ep.mtx = .scan scan → scan.Bounded) : ∀ scan, t.mtx = .scan scan → scan.Bounded := by
  intro moved next
  cases step_move ep t l ok with
  | refused | chained | queued | modify | hooked | unhooked => exact bounded moved next
  | scanStart maxevents => cases next; exact Nat.zero_le _
  | finish scan held here | relax scan _ held here | unlink scan _ held here | relink scan _ held here
  | restay scan _ held here | requeue scan _ held here | stay scan _ held here | ready scan _ _ held here =>
    have before := bounded scan held
    cases next
    simpa [Scan.Bounded,here] using before
  | take scan epi rest held here first below => cases next; exact below
  | settle scan epi held here pc branch =>
    have before := bounded scan held
    cases next
    rcases branch with ⟨rfl,_⟩ | ⟨rfl,_⟩ <;> simpa [Scan.Bounded,here] using before
  | idle scan _ _ held here | fault scan _ _ held here | copy scan _ _ held here =>
    have before := bounded scan held
    cases next
    simp only [Scan.Bounded,here] at before ⊢
    omega
  | scanEnd | insertBegin | insertPoll | linked | unhookable | unregister | rejected | checked | published | queuedNew
  | dropped | unqueued => cases next

theorem bounded_reached (ep : Eventpoll) (reached : Reached ep) : ∀ scan, ep.mtx = .scan scan → scan.Bounded := by
  apply reached.invariant (fun ep => ∀ scan, ep.mtx = .scan scan → scan.Bounded)
  · rintro ep ⟨free,_⟩ scan held
    simp [free] at held
  · exact fun ep l t bounded ok => bounded_step ep t l ok bounded

def Eventpoll.uevents (ep : Eventpoll) : List (EventMask × BitVec 64) :=
  match ep.mtx with
  | .scan scan => scan.uevent
  | _ => []

/-- The outcome of a scan of `ep` that ends in `s` and leaves `u`: it is through with
`processed`, `failed` is the item whose copy failed, and `rest` is what it leaves of the list. -/
structure ScanOutcome (ep : Eventpoll) (m : Nat) (j : Journal) (s u : Eventpoll)
    (processed failed : List (Nat × EventMask)) (rest : List Nat) : Prop where
  polled : j.polled = processed ++ failed
  polls : j.polled.map Prod.fst <+: ep.rdllist
  once : (j.polled.map Prod.fst).Nodup
  order : ep.rdllist = processed.map Prod.fst ++ rest
  faulted : failed.map Prod.fst = j.faulted.toList
  reporting : ∀ p ∈ failed, ep.epItemPoll p.1 p.2 ≠ 0
  headed : ∀ i, j.faulted = some i → ∃ later, rest = i::later
  copied : j.copied = (ep.reporting processed).map Prod.fst
  slots : s.uevents = ep.slots processed
  result : s.scanResult = if j.faulted.isSome = true ∧ j.copied = [] then -efault else (j.copied.length : Int)
  few : j.copied.length ≤ m
  stops : rest = [] ∨ j.copied.length = m ∨ j.faulted.isSome = true
  chain : s.overflow = j.arrived.reverse.dedup
  ready : u.rdllist = rest ++ ep.requeued j.copied ++
    j.arrived.reverse.dedup.filter fun i => i ∉ rest ++ ep.requeued j.copied

/-- What the end of a scan makes of its three lists. -/
theorem scanEnd_rdllist {s u : Eventpoll} (rep : Rep s) (ended : step s .scanEnd = some u) :
    u.rdllist = s.txlist ++ s.rdllist ++ s.overflow.filter fun i => i ∉ s.txlist ++ s.rdllist := by
  cases step_move s u _ ended with
  | scanEnd scan fault drained held here drains =>
    have chained := rep.chained (by rw [held]; rfl)
    rw [drain_chain s.overflow s s.ovflist chained.chain _ (Nat.lt_succ_of_le chained.short)] at drains
    cases drains
    simp only [Eventpoll.spliceBack,drained_rdllist _ chained.chain.nodup,drained_txlist,List.append_assoc]
    congr 2
    apply List.filter_congr
    intro i member
    have linked := rep.lists.linked i (chained.allocated i member)
    by_cases on : i ∈ s.rdllist ++ s.txlist
    · simp [linked.mpr on,(List.mem_append.mp on).symm]
    · simp [Bool.eq_false_iff.mpr (linked.not.mpr on),not_or.mp (mt List.mem_append.mpr on)]

theorem Underway.ends {ep s u : Eventpoll} {m : Nat} {j : Journal} {scan : Scan} {done tried : List (Nat × EventMask)}
    (way : Underway ep m j s scan done tried) (distinct : ep.rdllist.Nodup) (rep : Rep s) (bounded : scan.Bounded)
    (ended : step s .scanEnd = some u) : ScanOutcome ep m j s u done tried s.txlist := by
  obtain ⟨fault,here⟩ : ∃ fault, scan.pc = .done fault := by
    cases step_move s u _ ended with
    | scanEnd now fault drained held here =>
      cases way.held.symm.trans held
      exact ⟨fault,here⟩
  have order := way.order
  have requeued := way.requeued
  have attempt := way.attempt
  rw [here] at order requeued attempt
  have order : ep.rdllist = done.map Prod.fst ++ s.txlist := order
  have requeued : s.rdllist = ep.requeued j.copied := (List.append_nil _).symm.trans requeued
  have few : j.copied.length ≤ m := by
    rw [← way.counted,← way.max]
    simpa only [Scan.Bounded,here] using bounded
  have failed : tried.map Prod.fst = j.faulted.toList ∧ (∀ p ∈ tried, ep.epItemPoll p.1 p.2 ≠ 0) ∧
      (∀ i, j.faulted = some i → ∃ later, s.txlist = i::later) ∧ j.faulted.isSome = fault := by
    cases fault with
    | true =>
      obtain ⟨i,faulted,⟨mask,rfl,some⟩,later,first⟩ := attempt
      refine ⟨by simp [faulted],by simpa using some,?_,by simp [faulted]⟩
      intro k same
      cases faulted.symm.trans same
      exact ⟨later,first⟩
    | false =>
      obtain ⟨fine,rfl,_⟩ := attempt
      simp [fine]
  obtain ⟨faulted,reporting,headed,broken⟩ := failed
  have polls : j.polled.map Prod.fst <+: ep.rdllist := by
    rw [way.polled,order,List.map_append,faulted]
    cases found : j.faulted with
    | none => exact ⟨s.txlist,by simp⟩
    | some i =>
      obtain ⟨later,first⟩ := headed i found
      exact ⟨later,by simp [first]⟩
  refine ⟨way.polled,polls,distinct.sublist polls.sublist,order,faulted,reporting,headed,way.copied,?_,?_,few,?_,
    way.chain,?_⟩
  · simpa [Eventpoll.uevents,way.held] using way.uevent
  · rw [broken]
    cases fault <;> simp [Eventpoll.scanResult,way.held,Scan.result,here,way.counted,List.length_eq_zero_iff]
  · cases fault with
    | true => exact .inr (.inr broken)
    | false =>
      obtain ⟨_,_,empty | full⟩ := attempt
      · exact .inl empty
      · exact .inr (.inl (by omega))
  · rw [scanEnd_rdllist rep ended,requeued,way.chain]

/-- The steps of the thread that scans, the end of the scan apart. -/
def Label.own : Label → Bool
  | .proc | .poll _ _ | .copy _ | .fault _ => true
  | _ => false

/-- How many of its own steps a scan can still take when `left` items are on its list. -/
def ProcPc.remaining (left : Nat) : ProcPc → Nat
  | .loop => 8 * left + 1
  | .relax _ => 8 * left
  | .unlink _ => 8 * left - 1
  | .poll _ => 8 * left + 6
  | .copy _ _ => 8 * left + 5
  | .settle _ | .faulted _ => 8 * left + 4
  | .requeue _ => 8 * left + 3
  | .stay _ => 8 * left + 2
  | .restay _ => 1
  | .done _ => 0

def Eventpoll.remaining (ep : Eventpoll) : Nat :=
  match ep.mtx with
  | .scan scan => scan.pc.remaining ep.txlist.length
  | _ => 0

private theorem remaining_scan {s t : Eventpoll} {l : Label} (scan moved : Scan) (pc : ProcPc) (held : s.mtx = .scan scan)
    (here : scan.pc = pc) (next : t.mtx = .scan moved)
    (less : 1 + moved.pc.remaining t.txlist.length ≤ pc.remaining s.txlist.length) :
    t.mtx.isScan = true ∧ (if l.own then 1 else 0) + t.remaining ≤ s.remaining := by
  subst here
  simp only [Eventpoll.remaining,held,next]
  refine ⟨rfl,?_⟩
  split <;> omega

theorem remaining_step (s t : Eventpoll) (l : Label) (rep : Rep s) (busy : s.mtx.isScan = true)
    (going : l ≠ .scanEnd) (ok : step s l = some t) :
    t.mtx.isScan = true ∧ (if l.own then 1 else 0) + t.remaining ≤ s.remaining := by
  have impossible (idle : s.mtx.isScan = false) : False := by simp [busy] at idle
  cases step_move s t l ok with
  | refused | chained | queued => exact ⟨busy,Nat.le_of_eq (Nat.zero_add _)⟩
  | finish scan held here => exact remaining_scan scan _ _ held here rfl (by simp [ProcPc.remaining])
  | take scan epi rest held here first below =>
    exact remaining_scan scan _ _ held here rfl (by simp only [ProcPc.remaining,Eventpoll.withPc]; omega)
  | relax scan epi held here =>
    obtain ⟨rest,first⟩ := rep.position.chosen scan epi held (by rw [here]; rfl)
    refine remaining_scan scan _ _ held here rfl ?_
    simp only [ProcPc.remaining,Eventpoll.withPc,Eventpoll.pmRelax,first,List.length_cons]
    omega
  | unlink scan epi held here =>
    obtain ⟨rest,first⟩ := rep.position.chosen scan epi held (by rw [here]; rfl)
    refine remaining_scan scan _ _ held here rfl ?_
    simp only [ProcPc.remaining,Eventpoll.withPc,Eventpoll.listDelInit,first,List.erase_cons_head,List.length_cons]
    omega
  | relink scan epi held here | restay scan epi held here | requeue scan epi held here | stay scan epi held here
  | idle scan epi _ held here | ready scan epi _ held here | copy scan epi _ held here | fault scan epi _ held here =>
    refine remaining_scan scan _ _ held here rfl ?_
    simp only [ProcPc.remaining,Eventpoll.withPc,Eventpoll.listAddTail,Eventpoll.epPmStayAwake]
    omega
  | settle scan epi held here pc branch =>
    refine remaining_scan scan _ _ held here rfl ?_
    rcases branch with ⟨rfl,_⟩ | ⟨rfl,_⟩ <;> simp only [ProcPc.remaining,Eventpoll.withPc] <;> omega
  | scanEnd => exact absurd rfl going
  | modify _ _ _ free | scanStart _ free | insertBegin _ _ _ _ _ free => exact (impossible (by rw [free]; rfl)).elim
  | hooked insert _ held | unhooked insert _ _ held | insertPoll insert _ held
  | linked insert _ held | unhookable insert _ held | unregister insert held
  | rejected insert _ held | checked insert _ _ held | published insert _ held
  | queuedNew insert _ held | dropped insert held | unqueued insert held =>
    exact (impossible (by rw [held]; rfl)).elim

/-- The step the thread that scans takes next, given what polls report and which copies fail. -/
def ProcPc.nextLabel (oracle : Nat → EventMask) (faults : Nat → Bool) : ProcPc → Label
  | .poll epi => .poll epi (oracle epi)
  | .copy epi _ => if faults epi then .fault epi else .copy epi
  | .done _ => .scanEnd
  | _ => .proc

theorem nextLabel_enabled {s : Eventpoll} (rep : Rep s) (scan : Scan) (held : s.mtx = .scan scan)
    (oracle : Nat → EventMask) (faults : Nat → Bool) :
    (step s (scan.pc.nextLabel oracle faults)).isSome = true := by
  obtain ⟨ns,_,drains⟩ := rep.drains (by rw [held]; rfl)
  cases here : scan.pc with
  | copy epi revents =>
    simp only [ProcPc.nextLabel]
    split <;> simp [step,inScan,held,Eventpoll.procFault,Eventpoll.procCopy,here]
  | loop =>
    simp only [ProcPc.nextLabel,step,inScan,held,Eventpoll.procTick,here]
    split
    · rfl
    · split <;> rfl
  | _ => simp [ProcPc.nextLabel,step,inScan,held,Eventpoll.procTick,Eventpoll.procPoll,Eventpoll.scanEnd,here,drains]

/-- The thread that scans takes its next step. -/
def Undisturbed (oracle : Nat → EventMask) (faults : Nat → Bool) (s : Eventpoll) (l : Label) : Prop :=
  ∃ scan, s.mtx = .scan scan ∧ l = scan.pc.nextLabel oracle faults

/-- Left alone, the thread that scans comes to the end. -/
theorem scan_completes (oracle : Nat → EventMask) (faults : Nat → Bool) (s : Eventpoll) (rep : Rep s)
    (busy : s.mtx.isScan = true) :
    ∃ ls t u, Run step s ls t ∧ Along step (Undisturbed oracle faults) s ls ∧ step t .scanEnd = some u := by
  obtain ⟨scan,held⟩ : ∃ scan, s.mtx = .scan scan := by
    cases held : s.mtx with
    | scan scan => exact ⟨scan,rfl⟩
    | free | insert => simp [held,Holder.isScan] at busy
  obtain ⟨t,ok⟩ := Option.isSome_iff_exists.mp (nextLabel_enabled rep scan held oracle faults)
  by_cases last : scan.pc.nextLabel oracle faults = .scanEnd
  · rw [last] at ok
    exact ⟨[],s,t,.nil s,trivial,ok⟩
  · obtain ⟨still,fewer⟩ := remaining_step s t _ rep busy last ok
    have own : (scan.pc.nextLabel oracle faults).own = true := by
      revert last
      cases scan.pc <;> simp only [ProcPc.nextLabel] <;> (try split) <;> simp [Label.own]
    have less : t.remaining < s.remaining := by
      rw [if_pos own] at fewer
      omega
    obtain ⟨ls,v,u,run,along,ended⟩ := scan_completes oracle faults t (rep_step s t _ rep ok) still
    refine ⟨_::ls,v,u,.cons s _ t ls v ok run,⟨⟨scan,held,rfl⟩,?_⟩,ended⟩
    intro other same
    cases ok.symm.trans same
    exact along
  termination_by s.remaining
  decreasing_by exact less

/-- The item is ready for its user, whatever becomes of its mask: it is polled with
events to report, and modified only to stay level-triggered. -/
def StaysReady (i : Nat) (ep : Eventpoll) : Label → Prop
  | .poll epi mask => epi = i → ep.epItemPoll i mask ≠ 0
  | .modify epi events _ => epi = i → levelTriggered events = true
  | _ => True

structure View.Staying (i : Nat) (v : View) : Prop where
  level : levelTriggered v.events = true
  place : v.linked = true ∨ ∃ pc, v.stage = some pc ∧ pc.inHand = some i

theorem staying_step (i : Nat) (v w : View) (event : ItemEvent) (ok : ViewOk i v) (step : ItemStep i v w event)
    (polled : ∀ mask, event = .polled mask → mask &&& v.events ≠ 0)
    (modified : ∀ events, event = .modified events → levelTriggered events = true) (kept : event ≠ .dropped)
    (goes : v.stage = some (.settle i) → w.stage ≠ none) (staying : v.Staying i) : w.Staying i := by
  obtain ⟨level,place⟩ := staying
  have on (here : v.stage = none) : v.linked = true := by
    refine place.resolve_right ?_
    rintro ⟨pc,there,_⟩
    cases here.symm.trans there
  have off (pc : ProcPc) (here : v.stage = some pc) (away : pc.inHand ≠ some i) : v.linked = true := by
    rcases place with linked | ⟨other,there,hand⟩
    · exact linked
    · cases here.symm.trans there
      exact absurd hand away
  cases step with
  | rest raised next => rw [next]; exact ⟨level,place⟩
  | choose here on during next => rw [next]; exact ⟨level,.inl on⟩
  | relax here next | restay here next | stay here next =>
    rw [next]
    exact ⟨level,.inl (off _ here (by simp [ProcPc.inHand]))⟩
  | unlink here next => rw [next]; exact ⟨level,.inr ⟨_,rfl,rfl⟩⟩
  | relink here next | requeue here next => rw [next]; exact ⟨level,.inl rfl⟩
  | settle here next =>
    have none : w.stage = none := by rw [next]
    exact absurd none (goes here)
  | level here reusable triggered next | deliver revents here next | fault revents here next =>
    rw [next]
    exact ⟨level,.inr ⟨_,rfl,rfl⟩⟩
  | chain during off next | already waiting next => rw [next]; exact ⟨level,place⟩
  | queue outside off next | queueNew outside off next => rw [next]; exact ⟨level,.inl rfl⟩
  | idle mask here nothing next => exact absurd nothing (polled mask rfl)
  | ready mask here something next => rw [next]; exact ⟨level,.inr ⟨_,rfl,rfl⟩⟩
  | start outside next => rw [next]; exact ⟨level,place⟩
  | finish during here next =>
    rw [next]
    exact ⟨level,.inl (by simp [on here])⟩
  | begin events absent outside next =>
    rw [ok.linked (on (ok.stage outside))] at absent
    cases absent
  | drop outside next => exact absurd rfl kept
  | modify events outside next => rw [next]; exact ⟨modified events rfl,place⟩

/-- A level-triggered item that was copied goes back to the ready list. -/
theorem level_goes (i : Nat) (s t : Eventpoll) (l : Label) (ok : step s l = some t)
    (level : levelTriggered (s.events i) = true) (here : (view s i).stage = some (.settle i)) :
    (view t i).stage ≠ none := by
  obtain ⟨scan,held,settling⟩ := stage_held here
  cases step_move s t l ok
  case refused | chained | queued | modify | hooked | unhooked =>
    intro none
    cases here.symm.trans none
  case settle now epi held' here' pc branch =>
    cases held.symm.trans held'
    cases settling.symm.trans here'
    rcases branch with ⟨rfl,once | edge⟩ | ⟨rfl,_⟩
    · simp [levelTriggered,once] at level
    · simp [levelTriggered,edge] at level
    · simp [view,stageOf,Eventpoll.withPc,ProcPc.item]
  all_goals simp_all

theorem insertingItem_step (i : Nat) (s t : Eventpoll) (l : Label) (ok : step s l = some t) (present : i ∈ s.slab)
    (whole : s.insertingItem i = false) : t.insertingItem i = false := by
  cases step_move s t l ok with
  | refused | chained | queued | modify | hooked | unhooked => exact whole
  | insertBegin epi ffd events data fullCheck free fresh =>
    have other : epi ≠ i := fun same => fresh (same ▸ present)
    simpa [Eventpoll.insertingItem,Eventpoll.insertBegin] using other
  | insertPoll insert _ held | linked insert _ held | unhookable insert _ held | unregister insert held
  | rejected insert _ held | checked insert _ _ held =>
    simpa [Eventpoll.insertingItem,Eventpoll.withInsertPc,held] using whole
  | _ => rfl

theorem staying_present (i : Nat) (ep : Eventpoll) (rep : Rep ep) (staying : (view ep i).Staying i) : i ∈ ep.slab := by
  rcases staying.place with linked | ⟨pc,stage,hand⟩
  · exact rep.lists.allocated i ((view_linked ep i).mp linked)
  · obtain ⟨scan,held,rfl⟩ := stage_held stage
    exact (rep.position.inHand scan i held hand).1

theorem level_stays (i : Nat) (ep u : Eventpoll) (ls : List Label) (rep : Rep ep) (free : ep.mtx = .free)
    (ready : i ∈ ep.rdllist) (level : levelTriggered (ep.events i) = true) (run : Run step ep ls u)
    (along : Along step (StaysReady i) ep ls) (idle : u.mtx.isScan = false) : i ∈ u.rdllist := by
  have kept := run.keeps (StaysReady i) (fun s => Rep s ∧ (view s i).Staying i ∧ s.insertingItem i = false) ?_ along
    ⟨rep,⟨level,.inl (by simp [ready])⟩,by simp [Eventpoll.insertingItem,free]⟩
  · obtain ⟨rep,⟨_,linked | ⟨pc,stage,_⟩⟩,_⟩ := kept
    · rw [view_linked,(rep.overflow.resting idle).2.1,List.append_nil] at linked
      exact linked
    · rw [(view_ok u i rep).stage idle] at stage
      cases stage
  · rintro s l t ⟨rep,staying,whole⟩ stays ok
    refine ⟨rep_step s t l rep ok,?_,insertingItem_step i s t l ok (staying_present i s rep staying) whole⟩
    refine staying_step i _ _ _ (view_ok s i rep) (item_step s t l i rep ok) ?_ ?_ ?_
      (level_goes i s t l ok staying.level) staying
    · intro mask event
      rw [itemEvent_polled event] at stays
      exact stays rfl
    · intro events event
      obtain ⟨data,rfl⟩ := itemEvent_modified event
      exact stays rfl
    · intro event
      rw [itemEvent_dropped event] at ok
      have dropping : s.insertingItem i = true := by
        cases step_move s t _ ok with
        | dropped insert held | unqueued insert held => simp [Eventpoll.insertingItem,held]
      rw [whole] at dropping
      cases dropping

section
variable {ep start s : Eventpoll} {m : Nat} {ls : List Label}

theorem underway_start (rep : Rep ep) (started : step ep (.scanStart m) = some start) :
    Underway ep m ⟨[],[],none,[]⟩ start ⟨.loop,m,0,[]⟩ [] [] := by
  have later := rep_step ep start _ rep started
  cases step_move ep start _ started with
  | scanStart m free positive =>
    have empty : ep.txlist = [] := (rep.overflow.resting (by rw [free]; rfl)).2.1
    refine ⟨rfl,rfl,rfl,⟨rfl,rfl⟩,?_,rfl,rfl,rfl,rfl,fun _ _ => rfl,rfl,?_⟩
    · simp [Eventpoll.scanStart,empty,ProcPc.undelivered]
    · exact (later.chained rfl).chain.unique .nil

theorem underway_run (rep : Rep ep) (started : step ep (.scanStart m) = some start) (run : Run step start ls s)
    (along : Along step (fun _ l => l ≠ .scanEnd) start ls) :
    ∃ scan done tried, Underway ep m (journal start ls) s scan done tried := by
  have distinct : ep.rdllist.Nodup := (List.nodup_append.mp rep.lists.distinct).1
  refine (run.recorded Journal.note _
    (fun j s => Rep s ∧ ∃ scan done tried, Underway ep m j s scan done tried) ?_ along ⟨[],[],none,[]⟩
    ⟨rep_step ep start _ rep started,_,[],[],underway_start rep started⟩).2
  rintro j s l t ⟨rep,scan,done,tried,way⟩ going ok
  exact ⟨rep_step s t l rep ok,underway_move way distinct rep going (step_move s t l ok)⟩

/-- What a scan has done so far and may still do, counted in its own steps. -/
theorem own_run (rep : Rep ep) (started : step ep (.scanStart m) = some start) (run : Run step start ls s)
    (along : Along step (fun _ l => l ≠ .scanEnd) start ls) :
    s.mtx.isScan = true ∧ ls.countP Label.own ≤ 8 * ep.rdllist.length + 1 := by
  have first : start.mtx.isScan = true ∧ start.remaining = 8 * ep.rdllist.length + 1 := by
    have way := underway_start rep started
    rw [Eventpoll.remaining,way.held,way.order]
    exact ⟨rfl,rfl⟩
  have kept (s : Eventpoll) (l : Label) (t : Eventpoll) (both : Rep s ∧ s.mtx.isScan = true) (going : l ≠ .scanEnd)
      (ok : step s l = some t) : Rep t ∧ t.mtx.isScan = true :=
    ⟨rep_step s t l both.1 ok,(remaining_step s t l both.1 both.2 going ok).1⟩
  have begun : Rep start ∧ start.mtx.isScan = true := ⟨rep_step ep start _ rep started,first.1⟩
  have paid := run.account _ (fun s => Rep s ∧ s.mtx.isScan = true) (fun _ l => if l.own then 1 else 0)
    (fun _ _ => 0) Eventpoll.remaining kept
    (fun s l t both going ok => by simpa using (remaining_step s t l both.1 both.2 going ok).2) along begun
  rw [run.tally_countP,run.tally_zero,first.2] at paid
  exact ⟨(run.keeps _ _ kept along begun).2,by omega⟩

end

/-- A scan of the ready list polls a first part of it, each item once, and copies out,
in order and at most `m`, the events of those that report any. It returns their number,
or EFAULT if a copy fails before any event is out. It leaves what it did not get through,
then the level-triggered items it delivered, then what arrived meanwhile and is on neither,
latest first arrival first. It always comes to its end. And so a level-triggered item
whose polls report events never leaves the ready list. -/
theorem scan_result_exact (ep : Eventpoll) (reached : Reached ep) :
    (∀ m start ls s, step ep (.scanStart m) = some start → Run step start ls s → .scanEnd ∉ ls →
      (∀ u, step s .scanEnd = some u →
        ∃ processed failed rest, ScanOutcome ep m (journal start ls) s u processed failed rest) ∧
      ls.countP Label.own ≤ 8 * ep.rdllist.length + 1 ∧
      ∀ oracle faults, ∃ more t u,
        Run step s more t ∧ Along step (Undisturbed oracle faults) s more ∧ step t .scanEnd = some u) ∧
    ∀ i ls u, ep.mtx = .free → i ∈ ep.rdllist → levelTriggered (ep.events i) = true → Run step ep ls u →
      Along step (StaysReady i) ep ls → u.mtx.isScan = false → i ∈ u.rdllist := by
  have rep := rep_reached ep reached
  refine ⟨?_,fun i ls u free ready level => level_stays i ep u ls rep free ready level⟩
  intro m start ls s started run single
  have along : Along step (fun _ l => l ≠ .scanEnd) start ls :=
    along_of_forall step _ start ls (fun l member same => single (same ▸ member))
  have reachedS := (reached.step started).run run
  have repS := rep_reached s reachedS
  obtain ⟨busy,few⟩ := own_run rep started run along
  obtain ⟨scan,done,tried,way⟩ := underway_run rep started run along
  refine ⟨?_,few,fun oracle faults => scan_completes oracle faults s repS busy⟩
  intro u ended
  exact ⟨done,tried,s.txlist,way.ends (List.nodup_append.mp rep.lists.distinct).1 repS
    (bounded_reached s reachedS scan way.held) ended⟩

def threeItems : List Label := inserting 1 pollIn pollIn ++ inserting 2 pollIn pollIn ++ inserting 3 pollIn 0

def failingScan : List Label :=
  [.proc,.proc,.proc,.poll 1 pollIn,.copy 1,.proc,.proc,.proc,.proc,.proc,.proc,.poll 2 pollIn,.callback 3 0 0,
    .fault 2,.proc,.proc]

theorem scan_result_exact_failing :
    (after (threeItems ++ [Label.scanStart 2] ++ failingScan)).scanResult = 1 ∧
    (after (threeItems ++ [Label.scanStart 2] ++ failingScan ++ [Label.scanEnd])).rdllist = [2,1,3] ∧
    ∃ processed failed rest, ScanOutcome (after threeItems) 2
      (journal (after (threeItems ++ [Label.scanStart 2])) failingScan) (after (threeItems ++ [Label.scanStart 2] ++ failingScan))
      (after (threeItems ++ [Label.scanStart 2] ++ failingScan ++ [Label.scanEnd])) processed failed rest :=
  ⟨by decide,by decide,
    ((scan_result_exact (after threeItems) (after_reached _ (by decide))).1 2 _ failingScan _
      (after_step _ _ (by decide)) (after_run _ _ (by decide)) (by decide)).1 _ (after_step _ _ (by decide))⟩

end Reactor.Epoll
