import Mathlib.Data.List.Infix
import Reactor.Epoll.Delivery

/-! In which order items are polled. An item that waits on the ready list is
overtaken by at most as many others as were ahead of it: what joins the lists joins
behind it, and a scan that does not come to it counts an event for each of its
`maxevents` places. -/
namespace Reactor.Epoll
open Reactor.Transition Reactor.Threaded

/-- The ready list as it would be if the scan ended now, overflow chain apart. -/
def Eventpoll.order (ep : Eventpoll) : List Nat := ep.txlist ++ ep.rdllist

def Eventpoll.load (ep : Eventpoll) : Nat :=
  match ep.mtx with
  | .scan scan => scan.eventcnt + scan.pc.undelivered.isSome.toNat
  | _ => 0

/-- The `maxevents` of a scan, counted when it ends. -/
def completed (ep : Eventpoll) : Label → Nat
  | .scanEnd => match ep.mtx with
    | .scan scan => scan.maxevents
    | _ => 0
  | _ => 0

/-- What a step does to the order of the items. -/
inductive Shift (ep t : Eventpoll) (l : Label) : Prop
  | grows (extra : List Nat) (order : t.order = ep.order ++ extra) (going : completed ep l = 0)
      (load : t.load ≤ ep.load)
  | ends (extra : List Nat) (order : t.order = ep.order ++ extra) (scan : Scan) (fault : Bool)
      (held : ep.mtx = .scan scan) (here : scan.pc = .done fault) (going : completed ep l = scan.maxevents)
      (load : t.load = 0)
  | takes (scan : Scan) (epi : Nat) (held : ep.mtx = .scan scan) (here : scan.pc = .unlink epi)
      (next : t.mtx = .scan {scan with pc := .poll epi}) (order : ep.order = epi :: t.order)
      (going : completed ep l = 0) (load : t.load = ep.load + 1)
  | relinks (scan : Scan) (epi : Nat) (held : ep.mtx = .scan scan) (here : scan.pc = .faulted epi)
  | drops (insert : Insert) (held : ep.mtx = .insert insert) (label : l = .insertDrop insert.epi)
      (order : t.order = ep.order.erase insert.epi) (load : t.load = ep.load)

private theorem shift_same {ep t : Eventpoll} {l : Label} (order : t.order = ep.order)
    (going : completed ep l = 0) (load : t.load ≤ ep.load) : Shift ep t l :=
  .grows [] (by rw [order,List.append_nil]) going load

private theorem shift_scan {ep t : Eventpoll} {l : Label} (order : t.order = ep.order)
    (going : completed ep l = 0) (scan moved : Scan) (held : ep.mtx = .scan scan) (next : t.mtx = .scan moved)
    (load : moved.eventcnt + moved.pc.undelivered.isSome.toNat ≤
      scan.eventcnt + scan.pc.undelivered.isSome.toNat) : Shift ep t l := by
  apply shift_same order going
  simpa only [Eventpoll.load,held,next] using load

private theorem shift_idle {ep t : Eventpoll} {l : Label} (extra : List Nat)
    (order : t.order = ep.order ++ extra) (going : completed ep l = 0) (idle : t.mtx.isScan = false) :
    Shift ep t l := by
  refine .grows extra order going ?_
  have none : t.load = 0 := by
    unfold Eventpoll.load
    split
    next scan held => simp [held,Holder.isScan] at idle
    next => rfl
  omega

theorem shift_move (ep t : Eventpoll) (l : Label) (rep : Rep ep) (move : Move ep l t) : Shift ep t l := by
  have empty (idle : ep.mtx.isScan = false) : ep.txlist = [] := (rep.overflow.resting idle).2.1
  cases move with
  | refused | chained | modify | hooked | unhooked => exact shift_same rfl rfl (le_refl _)
  | queued epi entry key pwq attached fewer accepted inactive off =>
    exact .grows [epi] (List.append_assoc _ _ _).symm rfl (le_refl _)
  | scanStart maxevents free positive =>
    refine shift_same ?_ rfl (Nat.zero_le _)
    simp [Eventpoll.order,Eventpoll.scanStart,empty (by rw [free]; rfl)]
  | finish scan held here | take scan epi rest held here | relax scan epi held here
  | restay scan epi held here | stay scan epi held here =>
    exact shift_scan rfl rfl scan _ held rfl (by simp [here,ProcPc.undelivered])
  | unlink scan epi held here =>
    obtain ⟨rest,first⟩ := rep.position.chosen scan epi held (by rw [here]; rfl)
    have distinct := rep.lists.distinct
    rw [first] at distinct
    have apart : epi ∉ ep.rdllist := fun member => (List.nodup_append.mp distinct).2.2 epi member epi (by simp) rfl
    refine .takes scan epi held here rfl ?_ rfl ?_
    · simp [Eventpoll.order,Eventpoll.withPc,Eventpoll.listDelInit,first,List.erase_of_not_mem apart]
    · simp [Eventpoll.load,Eventpoll.withPc,held,here,ProcPc.undelivered]
  | relink scan epi held here => exact .relinks scan epi held here
  | settle scan epi held here pc branch =>
    refine shift_scan rfl rfl scan _ held rfl ?_
    rcases branch with ⟨rfl,_⟩ | ⟨rfl,_⟩ <;> simp [here,ProcPc.undelivered]
  | requeue scan epi held here =>
    refine .grows [epi] (List.append_assoc _ _ _).symm rfl ?_
    simp [Eventpoll.load,Eventpoll.withPc,held,here,ProcPc.undelivered]
  | idle scan epi mask held here | ready scan epi mask held here | copy scan epi revents held here
  | fault scan epi revents held here =>
    exact shift_scan rfl rfl scan _ held rfl (by simp [here,ProcPc.undelivered])
  | scanEnd scan fault drained held here ended =>
    obtain ⟨ns,chained,result⟩ := rep.drains (by rw [held]; rfl)
    cases Option.some.inj (ended.symm.trans result)
    refine .ends (ns.filter fun i => !ep.rdllink i) ?_ scan fault held here (by simp [completed,held]) rfl
    simp only [Eventpoll.order,Eventpoll.spliceBack,drained_rdllist ns chained.chain.nodup ep,drained_txlist,
      List.nil_append,List.append_assoc]
  | insertBegin | insertPoll | linked | unhookable | unregister | rejected | checked | published =>
    exact shift_idle [] (by rw [List.append_nil]; rfl) rfl rfl
  | queuedNew insert revents held here queues =>
    exact shift_idle [insert.epi] (List.append_assoc _ _ _).symm rfl rfl
  | dropped insert held here off =>
    have absent := (rep.lists.unlinked insert.epi (rep.position.inserting insert held)).mp off
    refine .drops insert held rfl ?_ (by simp [Eventpoll.load,held])
    exact (List.erase_of_not_mem fun member => absent (List.mem_append.mpr (List.mem_append.mp member).symm)).symm
  | unqueued insert held here queued =>
    refine .drops insert held rfl ?_ (by simp [Eventpoll.load,held])
    simp [Eventpoll.order,Eventpoll.listDelInit,empty (by rw [held]; rfl)]

def Eventpoll.place (ep : Eventpoll) (i : Nat) : Nat := ep.order.idxOf i

private theorem idxOf_erase_le (xs : List Nat) (a i : Nat) (other : i ≠ a) :
    (xs.erase a).idxOf i ≤ xs.idxOf i := by
  induction xs with
  | nil => exact le_refl _
  | cons x xs ih =>
    by_cases same : x = a
    · subst x
      rw [List.erase_cons_head,List.idxOf_cons_ne xs (Ne.symm other)]
      omega
    · rw [List.erase_cons_tail (by simpa using same)]
      by_cases found : x = i
      · simp [found]
      · rw [List.idxOf_cons_ne _ found,List.idxOf_cons_ne _ found]
        omega

theorem Rep.order_nodup {ep : Eventpoll} (rep : Rep ep) : ep.order.Nodup :=
  List.perm_append_comm.nodup_iff.mp rep.lists.distinct

theorem place_step (ep t : Eventpoll) (l : Label) (i : Nat) (rep : Rep ep) (ok : step ep l = some t)
    (sound : ∀ scan epi, ep.mtx = .scan scan → scan.pc ≠ .faulted epi) (before : i ∈ ep.order)
    (later : i ∈ t.order) : t.place i ≤ ep.place i := by
  have distinct := rep.order_nodup
  unfold Eventpoll.place
  cases shift_move ep t l rep (step_move ep t l ok) with
  | grows extra order | ends extra order =>
    rw [order,List.idxOf_append_of_mem before]
  | takes scan epi held here next order =>
    rw [order] at distinct
    have other : epi ≠ i := fun same => (List.nodup_cons.mp distinct).1 (same ▸ later)
    rw [order,List.idxOf_cons_ne _ other]
    omega
  | relinks scan epi held here => exact absurd here (sound scan epi held)
  | drops insert held label order =>
    rw [order] at later ⊢
    exact idxOf_erase_le _ _ _ (distinct.mem_erase_iff.mp later).1

/-- Where a scan without a copy fault can be. When it stops, it has run out of items
or has counted its `maxevents`. -/
def Scan.Sound (scan : Scan) (txlist : List Nat) : Prop :=
  match scan.pc with
  | .faulted _ | .restay _ | .done true => False
  | .done false => txlist = [] ∨ scan.maxevents ≤ scan.eventcnt
  | _ => True

structure Awaiting (i : Nat) (ep : Eventpoll) : Prop where
  idle : ep.mtx.isScan = false → i ∈ ep.rdllist ∧ ep.insertingItem i = false
  scanning : ∀ scan, ep.mtx = .scan scan → (scan.pc = .poll i ∨ i ∈ ep.txlist) ∧ scan.Sound ep.txlist

private theorem awaiting_scan {i : Nat} {t : Eventpoll} (scan : Scan) (next : t.mtx = .scan scan)
    (there : scan.pc = .poll i ∨ i ∈ t.txlist) (sound : scan.Sound t.txlist) : Awaiting i t where
  idle := fun rest => by simp [next,Holder.isScan] at rest
  scanning := by
    intro moved held
    cases next.symm.trans held
    exact ⟨there,sound⟩

private theorem awaiting_idle {i : Nat} {t : Eventpoll} (idle : t.mtx.isScan = false) (there : i ∈ t.rdllist)
    (inserted : t.insertingItem i = false) : Awaiting i t where
  idle := fun _ => ⟨there,inserted⟩
  scanning := fun scan held => by simp [held,Holder.isScan] at idle

theorem awaiting_move (i : Nat) (ep t : Eventpoll) (l : Label) (rep : Rep ep) (move : Move ep l t)
    (unpolled : ∀ mask, l ≠ .poll i mask) (faultless : ∀ epi, l ≠ .fault epi) (awaiting : Awaiting i ep) :
    Awaiting i t := by
  have listed (scan : Scan) (held : ep.mtx = .scan scan) (away : scan.pc ≠ .poll i) : i ∈ ep.txlist :=
    (awaiting.scanning scan held).1.resolve_left away
  have sound (scan : Scan) (held : ep.mtx = .scan scan) := (awaiting.scanning scan held).2
  have inserted (insert : Insert) (held : ep.mtx = .insert insert) : i ∈ ep.rdllist ∧ insert.epi ≠ i := by
    obtain ⟨ready,other⟩ := awaiting.idle (by rw [held]; rfl)
    exact ⟨ready,by simpa [Eventpoll.insertingItem,held] using other⟩
  cases move with
  | refused | chained | modify | hooked | unhooked => exact {awaiting with}
  | queued epi entry key pwq attached fewer accepted inactive off =>
    exact {awaiting with idle := fun rest =>
      ⟨List.mem_append.mpr (.inl (awaiting.idle rest).1),(awaiting.idle rest).2⟩}
  | scanStart maxevents free positive =>
    have ready := (awaiting.idle (by rw [free]; rfl)).1
    exact awaiting_scan _ rfl (.inr (List.mem_append.mpr (.inl ready))) trivial
  | finish scan held here ended =>
    exact awaiting_scan _ rfl (.inr (listed scan held (by simp [here]))) ended
  | take scan epi rest held here | relax scan epi held here | requeue scan epi held here
  | stay scan epi held here | copy scan epi revents held here =>
    exact awaiting_scan _ rfl (.inr (listed scan held (by simp [here]))) trivial
  | unlink scan epi held here =>
    refine awaiting_scan _ rfl ?_ trivial
    by_cases same : epi = i
    · exact .inl (by rw [same])
    · exact .inr ((List.mem_erase_of_ne (Ne.symm same)).mpr (listed scan held (by simp [here])))
  | relink scan epi held here | restay scan epi held here =>
    have impossible := sound scan held
    simp [Scan.Sound,here] at impossible
  | settle scan epi held here pc branch =>
    refine awaiting_scan _ rfl (.inr (listed scan held (by simp [here]))) ?_
    rcases branch with ⟨rfl,_⟩ | ⟨rfl,_⟩ <;> exact trivial
  | idle scan epi mask held here | ready scan epi mask held here =>
    have other : epi ≠ i := fun same => unpolled mask (by rw [same])
    exact awaiting_scan _ rfl (.inr (listed scan held (by simp [here,other]))) trivial
  | fault scan epi revents held here => exact absurd rfl (faultless epi)
  | scanEnd scan fault drained held here ended =>
    obtain ⟨ns,chained,result⟩ := rep.drains (by rw [held]; rfl)
    cases Option.some.inj (ended.symm.trans result)
    refine awaiting_idle rfl (List.mem_append.mpr (.inl ?_)) rfl
    rw [drained_txlist]
    exact listed scan held (by simp [here])
  | insertBegin epi ffd events data fullCheck free fresh =>
    have ready := (awaiting.idle (by rw [free]; rfl)).1
    have other : epi ≠ i := fun same =>
      fresh (same ▸ rep.lists.allocated i (List.mem_append.mpr (.inl ready)))
    exact awaiting_idle rfl ready (by simpa [Eventpoll.insertingItem,Eventpoll.insertBegin] using other)
  | insertPoll insert _ held | linked insert _ held | unhookable insert _ held | unregister insert held
  | rejected insert _ held | checked insert _ _ held =>
    obtain ⟨ready,other⟩ := inserted insert held
    exact awaiting_idle rfl ready (by simpa [Eventpoll.insertingItem,Eventpoll.withInsertPc] using other)
  | published insert revents held | dropped insert held => exact awaiting_idle rfl (inserted insert held).1 rfl
  | queuedNew insert revents held =>
    exact awaiting_idle rfl (List.mem_append.mpr (.inl (inserted insert held).1)) rfl
  | unqueued insert held =>
    obtain ⟨ready,other⟩ := inserted insert held
    exact awaiting_idle rfl ((List.mem_erase_of_ne (Ne.symm other)).mpr ready) rfl

def Eventpoll.polling (ep : Eventpoll) (i : Nat) : Bool :=
  match ep.mtx with
  | .scan scan => scan.pc = .poll i
  | _ => false

/-- A bound on how many events are counted before the item is polled. -/
def Eventpoll.ahead (ep : Eventpoll) (i : Nat) : Nat := if ep.polling i then 0 else ep.place i + ep.load

private theorem ahead_le (ep : Eventpoll) (i : Nat) : ep.ahead i ≤ ep.place i + ep.load := by
  unfold Eventpoll.ahead
  split <;> omega

private theorem polling_iff (ep : Eventpoll) (i : Nat) :
    ep.polling i = true ↔ ∃ scan, ep.mtx = .scan scan ∧ scan.pc = .poll i := by
  unfold Eventpoll.polling
  cases ep.mtx <;> simp

private theorem polling_kept (ep t : Eventpoll) (l : Label) (scan : Scan) (i : Nat) (move : Move ep l t)
    (unpolled : ∀ mask, l ≠ .poll i mask) (busy : ep.mtx = .scan scan) (waits : scan.pc = .poll i) :
    t.mtx = ep.mtx ∧ completed ep l = 0 := by
  cases move
  case refused | chained | queued | modify | hooked | unhooked => exact ⟨rfl,rfl⟩
  case idle other epi mask held here nothing | ready other epi mask held here something =>
    cases busy.symm.trans held
    cases waits.symm.trans here
    exact absurd rfl (unpolled mask)
  all_goals simp_all

theorem ahead_step (i : Nat) (ep t : Eventpoll) (l : Label) (rep : Rep ep) (ok : step ep l = some t)
    (unpolled : ∀ mask, l ≠ .poll i mask) (awaiting : Awaiting i ep) :
    completed ep l + t.ahead i ≤ ep.ahead i := by
  have move := step_move ep t l ok
  by_cases polling : ep.polling i = true
  · obtain ⟨scan,busy,waits⟩ := (polling_iff ep i).mp polling
    obtain ⟨same,going⟩ := polling_kept ep t l scan i move unpolled busy waits
    have still : t.polling i = true := (polling_iff t i).mpr ⟨scan,same.trans busy,waits⟩
    rw [going,Eventpoll.ahead,if_pos still]
    exact Nat.zero_le _
  · have away (scan : Scan) (held : ep.mtx = .scan scan) : scan.pc ≠ .poll i :=
      fun here => polling ((polling_iff ep i).mpr ⟨scan,held,here⟩)
    have listed (scan : Scan) (held : ep.mtx = .scan scan) : i ∈ ep.txlist :=
      (awaiting.scanning scan held).1.resolve_left (away scan held)
    have inside : i ∈ ep.order := by
      rw [Eventpoll.order,List.mem_append]
      cases held : ep.mtx with
      | scan scan => exact .inl (listed scan held)
      | free | insert => exact .inr (awaiting.idle (by rw [held]; rfl)).1
    have bound := ahead_le t i
    rw [Eventpoll.ahead.eq_def ep i,if_neg polling]
    cases shift_move ep t l rep move with
    | grows extra order going load =>
      have same : t.place i = ep.place i := by
        rw [Eventpoll.place,order,List.idxOf_append_of_mem inside,Eventpoll.place]
      omega
    | ends extra order scan fault held here going load =>
      have same : t.place i = ep.place i := by
        rw [Eventpoll.place,order,List.idxOf_append_of_mem inside,Eventpoll.place]
      have counted : scan.maxevents ≤ ep.load := by
        have sound := (awaiting.scanning scan held).2
        have some := List.ne_nil_of_mem (listed scan held)
        cases fault <;> simp_all [Scan.Sound,Eventpoll.load,ProcPc.undelivered]
      omega
    | takes scan epi held here next order going load =>
      by_cases same : epi = i
      · have now : t.polling i = true := (polling_iff t i).mpr ⟨_,next,by rw [same]⟩
        rw [going,Eventpoll.ahead,if_pos now]
        exact Nat.zero_le _
      · have fewer : t.place i + 1 = ep.place i := by
          rw [Eventpoll.place,Eventpoll.place,order,List.idxOf_cons_ne _ same]
        omega
    | relinks scan epi held here =>
      have impossible := (awaiting.scanning scan held).2
      simp [Scan.Sound,here] at impossible
    | drops insert held label order load =>
      have other : i ≠ insert.epi := by
        have inserted := (awaiting.idle (by rw [held]; rfl)).2
        simpa [Eventpoll.insertingItem,held,eq_comm] using inserted
      have fewer : t.place i ≤ ep.place i := by
        rw [Eventpoll.place,order]
        exact idxOf_erase_le _ _ _ other
      have going : completed ep l = 0 := by rw [label]; rfl
      omega

private theorem completed_scan (mid : List Label) (ep u : Eventpoll) (scan : Scan) (busy : ep.mtx = .scan scan)
    (run : Run step ep (mid ++ [.scanEnd]) u) (single : .scanEnd ∉ mid) :
    tally step completed ep (mid ++ [.scanEnd]) = scan.maxevents ∧ u.mtx.isScan = false := by
  induction mid generalizing ep scan with
  | nil =>
    cases run with
    | cons _ _ t _ _ head tail =>
      cases tail
      rw [List.nil_append,tally_cons step completed ep u _ _ head,tally_nil]
      cases step_move ep u _ head
      exact ⟨by simp [completed,busy],rfl⟩
  | cons l mid ih =>
    cases run with
    | cons _ _ t _ _ head tail =>
      obtain ⟨different,rest⟩ := not_or.mp (mt List.mem_cons.mpr single)
      obtain ⟨moved,next,same⟩ := scan_kept ep t l scan (step_move ep t l head) busy (Ne.symm different)
      have going : completed ep l = 0 := by
        cases l <;> first | rfl | exact absurd rfl different
      obtain ⟨counted,ended⟩ := ih t moved next tail rest
      rw [List.cons_append,tally_cons step completed ep t _ _ head,counted,going,same,Nat.zero_add]
      exact ⟨rfl,ended⟩

private theorem unfaulted_step (ep t : Eventpoll) (l : Label) (ok : step ep l = some t)
    (faultless : ∀ epi, l ≠ .fault epi)
    (sound : ∀ scan epi, ep.mtx = .scan scan → scan.pc ≠ .faulted epi) :
    ∀ scan epi, t.mtx = .scan scan → scan.pc ≠ .faulted epi := by
  intro scan epi held
  cases step_move ep t l ok
  case refused | chained | queued | modify | hooked | unhooked => exact sound scan epi held
  case fault _ other _ _ _ => exact absurd rfl (faultless other)
  case settle branch =>
    cases held
    rcases branch with ⟨rfl,_⟩ | ⟨rfl,_⟩ <;> simp
  all_goals
    cases held
    try simp

private theorem awaiting_step (i : Nat) (ep t : Eventpoll) (l : Label) (both : Rep ep ∧ Awaiting i ep)
    (under : (∀ mask, l ≠ .poll i mask) ∧ ∀ epi, l ≠ .fault epi) (ok : step ep l = some t) :
    Rep t ∧ Awaiting i t :=
  ⟨rep_step ep t l both.1 ok,
    awaiting_move i ep t l both.1 (step_move ep t l ok) under.1 under.2 both.2⟩

private theorem ahead_run (ep u : Eventpoll) (i p : Nat) (ls : List Label) (rep : Rep ep)
    (free : ep.mtx = .free) (index : ep.rdllist[p]? = some i) (run : Run step ep ls u)
    (faultless : ∀ epi, Label.fault epi ∉ ls) (unpolled : ∀ mask, Label.poll i mask ∉ ls) :
    Rep u ∧ Awaiting i u ∧ tally step completed ep ls + u.ahead i ≤ p := by
  have idle : ep.mtx.isScan = false := by rw [free]; rfl
  have first : Rep ep ∧ Awaiting i ep :=
    ⟨rep,awaiting_idle idle (List.mem_of_getElem? index) (by simp [Eventpoll.insertingItem,free])⟩
  have along : Along step (fun _ l => (∀ mask, l ≠ .poll i mask) ∧ ∀ epi, l ≠ .fault epi) ep ls := by
    apply along_of_forall step _ ep ls
    exact fun l member => ⟨fun mask same => unpolled mask (same ▸ member),
      fun epi same => faultless epi (same ▸ member)⟩
  have kept := run.keeps _ (fun s => Rep s ∧ Awaiting i s) (fun s l t => awaiting_step i s t l) along first
  have paid := run.account _ (fun s => Rep s ∧ Awaiting i s) completed (fun _ _ => 0) (fun s => s.ahead i)
    (fun s l t => awaiting_step i s t l)
    (fun s l t both under ok => by simpa using ahead_step i s t l both.1 ok under.1 both.2) along first
  have start : ep.ahead i = p := by
    obtain ⟨below,there⟩ := List.getElem?_eq_some_iff.mp index
    have distinct : ep.rdllist.Nodup := (List.nodup_append.mp rep.lists.distinct).1
    have place := distinct.idxOf_getElem p below
    rw [there] at place
    simp [Eventpoll.ahead,Eventpoll.polling,Eventpoll.place,Eventpoll.order,Eventpoll.load,free,
      (rep.overflow.resting idle).2.1,place]
  rw [run.tally_zero,start] at paid
  exact ⟨kept.1,kept.2,by omega⟩

private theorem ahead_idle (ep : Eventpoll) (i : Nat) (rep : Rep ep) (awaiting : Awaiting i ep)
    (idle : ep.mtx.isScan = false) : ep.rdllist[ep.ahead i]? = some i := by
  have ready := (awaiting.idle idle).1
  have none : ep.polling i = false ∧ ep.load = 0 := by
    unfold Eventpoll.polling Eventpoll.load
    cases held : ep.mtx <;> simp_all [Holder.isScan]
  have place : ep.ahead i = ep.rdllist.idxOf i := by
    simp [Eventpoll.ahead,Eventpoll.place,Eventpoll.order,none.1,none.2,(rep.overflow.resting idle).2.1]
  rw [place]
  exact List.getElem?_idxOf ready

/-- From an item at index `p` of the ready list on, in any run without copy faults:
scans with more than `p` as the sum of their `maxevents` come to poll it; until then
its index falls by that sum, for a single scan by its `maxevents`; and no step ever
puts anything before it. -/
theorem overtaking_bounded (ep u : Eventpoll) (i p : Nat) (ls : List Label) (reached : Reached ep)
    (free : ep.mtx = .free) (index : ep.rdllist[p]? = some i) (run : Run step ep ls u)
    (faultless : ∀ epi, Label.fault epi ∉ ls) :
    (p < tally step completed ep ls → ∃ mask, Label.poll i mask ∈ ls) ∧
    ((∀ mask, Label.poll i mask ∉ ls) → u.mtx.isScan = false →
      ∃ q, u.rdllist[q]? = some i ∧ q + tally step completed ep ls ≤ p) ∧
    (∀ m mid, ls = .scanStart m :: mid ++ [.scanEnd] → .scanEnd ∉ mid →
      (∀ mask, Label.poll i mask ∉ ls) → ∃ q, u.rdllist[q]? = some i ∧ q + m ≤ p) ∧
    ∀ before l later s t, ls = before ++ l :: later → Run step ep before s → step s l = some t →
      i ∈ s.order → i ∈ t.order → t.place i ≤ s.place i := by
  have rep := rep_reached ep reached
  have left (unpolled : ∀ mask, Label.poll i mask ∉ ls) (idle : u.mtx.isScan = false) :
      ∃ q, u.rdllist[q]? = some i ∧ q + tally step completed ep ls ≤ p := by
    obtain ⟨repU,awaiting,paid⟩ := ahead_run ep u i p ls rep free index run faultless unpolled
    exact ⟨u.ahead i,ahead_idle u i repU awaiting idle,by omega⟩
  refine ⟨?_,left,?_,?_⟩
  · intro enough
    by_contra none
    have unpolled : ∀ mask, Label.poll i mask ∉ ls := fun mask member => none ⟨mask,member⟩
    obtain ⟨_,_,paid⟩ := ahead_run ep u i p ls rep free index run faultless unpolled
    omega
  · intro m mid whole single unpolled
    subst whole
    cases run with
    | cons _ _ t _ _ head tail =>
      cases step_move ep t _ head with
      | scanStart _ free positive =>
        obtain ⟨counted,ended⟩ := completed_scan mid (ep.scanStart m) u _ rfl tail single
        have total : tally step completed ep (.scanStart m :: mid ++ [.scanEnd]) = m := by
          rw [List.cons_append,tally_cons step completed ep _ _ _ head,counted]
          exact Nat.zero_add m
        rw [← total]
        exact left unpolled ended
  · intro before l later s t whole path ok inside after
    have sound : ∀ scan epi, s.mtx = .scan scan → scan.pc ≠ .faulted epi := by
      refine path.keeps (fun _ k => ∀ epi, k ≠ .fault epi) _ (fun s k t => fun sound under ok =>
        unfaulted_step s t k ok under sound) (along_of_forall step _ ep before ?_) (by simp [free])
      intro k member epi same
      exact faultless epi (by simp [whole,← same,member])
    exact place_step s t l i (rep_reached s (reached.run path)) ok sound inside after

def threeReady : List Label := inserting 0 pollIn pollIn ++ inserting 1 pollIn pollIn ++ inserting 2 pollIn pollIn

def delivering (epi : Nat) : List Label :=
  [.proc,.proc,.proc,.poll epi pollIn,.copy epi,.proc,.proc,.proc]

/-- Two scans with room for one event each, before item 2 comes first. -/
def overtakingLabels : List Label :=
  .scanStart 1 :: delivering 0 ++ [.callback 0 0 1,.proc,.scanEnd] ++
    .scanStart 1 :: delivering 1 ++ [.proc,.scanEnd]

theorem overtaking_bounded_third :
    (2 < tally step completed (after threeReady) overtakingLabels → ∃ mask, Label.poll 2 mask ∈ overtakingLabels) ∧
    ((∀ mask, Label.poll 2 mask ∉ overtakingLabels) →
      (after (threeReady ++ overtakingLabels)).mtx.isScan = false →
      ∃ q, (after (threeReady ++ overtakingLabels)).rdllist[q]? = some 2 ∧
        q + tally step completed (after threeReady) overtakingLabels ≤ 2) ∧
    (∀ m mid, overtakingLabels = .scanStart m :: mid ++ [.scanEnd] → .scanEnd ∉ mid →
      (∀ mask, Label.poll 2 mask ∉ overtakingLabels) →
      ∃ q, (after (threeReady ++ overtakingLabels)).rdllist[q]? = some 2 ∧ q + m ≤ 2) ∧
    ∀ before l later s t, overtakingLabels = before ++ l :: later → Run step (after threeReady) before s →
      step s l = some t → 2 ∈ s.order → 2 ∈ t.order → t.place 2 ≤ s.place 2 :=
  overtaking_bounded (after threeReady) (after (threeReady ++ overtakingLabels)) 2 2 overtakingLabels
    (after_reached threeReady (by decide)) (by decide) (by decide)
    (after_run threeReady overtakingLabels (by decide)) (by simp [overtakingLabels,delivering])

end Reactor.Epoll
