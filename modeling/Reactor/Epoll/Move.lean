import Mathlib.Data.List.Basic
import Reactor.Epoll.ReadyList

/-! Inversion of the step function: the ways through the source, each with the
tests that lead to it and the state it leaves. Invariants are proved on these. -/
namespace Reactor.Epoll
open Reactor.Transition Reactor.Threaded

/-- What a step can do, one constructor for each way through the source. A
callback leaves in `pwq` at most the queue entries there were. -/
inductive Move (ep : Eventpoll) : Label → Eventpoll → Prop
  | refused (epi entry : Nat) (key : BitVec 64) (pwq : Nat → List (Option Nat))
      (attached : ∃ w, some w ∈ ep.pwqlist epi)
      (fewer : ∀ i w, some w ∈ pwq i → some w ∈ ep.pwqlist i)
      (idle : ep.accepts epi key = false ∨
        ep.accepts epi key = true ∧ ep.ovflist ≠ .unlinked ∧ ep.next epi ≠ .unlinked ∨
        ep.accepts epi key = true ∧ ep.ovflist = .unlinked ∧ ep.rdllink epi = true) :
      Move ep (.callback epi entry key) {ep with pwqlist := pwq}
  | chained (epi entry : Nat) (key : BitVec 64) (pwq : Nat → List (Option Nat))
      (attached : ∃ w, some w ∈ ep.pwqlist epi)
      (fewer : ∀ i w, some w ∈ pwq i → some w ∈ ep.pwqlist i)
      (accepted : ep.accepts epi key = true) (active : ep.ovflist ≠ .unlinked)
      (off : ep.next epi = .unlinked) :
      Move ep (.callback epi entry key) {ep with
        pwqlist := pwq, next := Function.update ep.next epi ep.ovflist, ovflist := .node epi,
        ws := ep.ws || (ep.itemWs epi).isSome}
  | queued (epi entry : Nat) (key : BitVec 64) (pwq : Nat → List (Option Nat))
      (attached : ∃ w, some w ∈ ep.pwqlist epi)
      (fewer : ∀ i w, some w ∈ pwq i → some w ∈ ep.pwqlist i)
      (accepted : ep.accepts epi key = true) (inactive : ep.ovflist = .unlinked)
      (off : ep.rdllink epi = false) :
      Move ep (.callback epi entry key) ({ep with pwqlist := pwq}.listAddTail epi |>.epPmStayAwake epi)
  | modify (epi : Nat) (events : EventMask) (data : BitVec 64) (free : ep.mtx = .free)
      (inside : epi ∈ ep.rbr) :
      Move ep (.modify epi events data) {ep with
        events := Function.update ep.events epi events, data := Function.update ep.data epi data}
  | scanStart (maxevents : Nat) (free : ep.mtx = .free) (positive : 0 < maxevents) :
      Move ep (.scanStart maxevents) (ep.scanStart maxevents)
  | finish (scan : Scan) (held : ep.mtx = .scan scan) (here : scan.pc = .loop)
      (ended : ep.txlist = [] ∨ scan.maxevents ≤ scan.eventcnt) :
      Move ep .proc (ep.withPc scan (.done false))
  | take (scan : Scan) (epi : Nat) (rest : List Nat) (held : ep.mtx = .scan scan)
      (here : scan.pc = .loop) (first : ep.txlist = epi::rest)
      (below : scan.eventcnt < scan.maxevents) :
      Move ep .proc ({ep with ws := ep.ws || ep.itemWs epi == some true}.withPc scan (.relax epi))
  | relax (scan : Scan) (epi : Nat) (held : ep.mtx = .scan scan) (here : scan.pc = .relax epi) :
      Move ep .proc ((ep.pmRelax epi).withPc scan (.unlink epi))
  | unlink (scan : Scan) (epi : Nat) (held : ep.mtx = .scan scan) (here : scan.pc = .unlink epi) :
      Move ep .proc ((ep.listDelInit epi).withPc scan (.poll epi))
  | relink (scan : Scan) (epi : Nat) (held : ep.mtx = .scan scan) (here : scan.pc = .faulted epi) :
      Move ep .proc ((ep.listAddTx epi).withPc scan (.restay epi))
  | restay (scan : Scan) (epi : Nat) (held : ep.mtx = .scan scan) (here : scan.pc = .restay epi) :
      Move ep .proc ((ep.epPmStayAwake epi).withPc scan (.done true))
  | settle (scan : Scan) (epi : Nat) (held : ep.mtx = .scan scan) (here : scan.pc = .settle epi)
      (pc : ProcPc)
      (branch : pc = .loop ∧ (hits (ep.events epi) epollOneshot = true ∨ hits (ep.events epi) epollEt = true) ∨
        pc = .requeue epi ∧ hits (ep.events epi) epollOneshot = false ∧ hits (ep.events epi) epollEt = false) :
      Move ep .proc
        ({ep with events := Function.update ep.events epi (settled (ep.events epi))}.withPc scan pc)
  | requeue (scan : Scan) (epi : Nat) (held : ep.mtx = .scan scan) (here : scan.pc = .requeue epi) :
      Move ep .proc ((ep.listAddTail epi).withPc scan (.stay epi))
  | stay (scan : Scan) (epi : Nat) (held : ep.mtx = .scan scan) (here : scan.pc = .stay epi) :
      Move ep .proc ((ep.epPmStayAwake epi).withPc scan .loop)
  | idle (scan : Scan) (epi : Nat) (mask : EventMask) (held : ep.mtx = .scan scan)
      (here : scan.pc = .poll epi) (none : ep.epItemPoll epi mask = 0) :
      Move ep (.poll epi mask) (ep.withPc scan .loop)
  | ready (scan : Scan) (epi : Nat) (mask : EventMask) (held : ep.mtx = .scan scan)
      (here : scan.pc = .poll epi) (some : ep.epItemPoll epi mask ≠ 0) :
      Move ep (.poll epi mask) (ep.withPc scan (.copy epi (ep.epItemPoll epi mask)))
  | copy (scan : Scan) (epi : Nat) (revents : EventMask) (held : ep.mtx = .scan scan)
      (here : scan.pc = .copy epi revents) :
      Move ep (.copy epi) {ep with
        mtx := .scan {scan with
          pc := .settle epi, eventcnt := scan.eventcnt + 1,
          uevent := scan.uevent ++ [(revents,ep.data epi)]}}
  | fault (scan : Scan) (epi : Nat) (revents : EventMask) (held : ep.mtx = .scan scan)
      (here : scan.pc = .copy epi revents) :
      Move ep (.fault epi) (ep.withPc scan (.faulted epi))
  | scanEnd (scan : Scan) (fault : Bool) (drained : Eventpoll) (held : ep.mtx = .scan scan)
      (here : scan.pc = .done fault) (ended : ep.drain (ep.slab.length + 1) ep.ovflist = some drained) :
      Move ep .scanEnd {drained.spliceBack with ws := false, mtx := .free}
  | insertBegin (epi : Nat) (ffd : Nat × Int) (events : EventMask) (data : BitVec 64) (fullCheck : Bool)
      (free : ep.mtx = .free) (fresh : epi ∉ ep.slab) :
      Move ep (.insertBegin epi ffd events data fullCheck) (ep.insertBegin epi ffd events data fullCheck)
  | hooked (insert : Insert) (whead : Nat) (held : ep.mtx = .insert insert)
      (here : insert.pc = .hook) (good : 0 ≤ ep.nwait insert.epi) :
      Move ep (.insertHook whead true) {ep with
        pwqlist := Function.update ep.pwqlist insert.epi (ep.pwqlist insert.epi ++ [some whead]),
        nwait := Function.update ep.nwait insert.epi (ep.nwait insert.epi + 1)}
  | unhooked (insert : Insert) (whead : Nat) (allocated : Bool) (held : ep.mtx = .insert insert)
      (here : insert.pc = .hook) (cause : allocated = false ∨ ep.nwait insert.epi < 0) :
      Move ep (.insertHook whead allocated)
        {ep with nwait := Function.update ep.nwait insert.epi (-1)}
  | insertPoll (insert : Insert) (mask : EventMask) (held : ep.mtx = .insert insert)
      (here : insert.pc = .hook) :
      Move ep (.insertPoll mask) (ep.withInsertPc insert (.polled (ep.epItemPoll insert.epi mask)))
  | linked (insert : Insert) (revents : EventMask) (held : ep.mtx = .insert insert)
      (here : insert.pc = .polled revents) (good : 0 ≤ ep.nwait insert.epi) :
      Move ep .insertTick ({ep with
        fllink := Function.update ep.fllink insert.epi true,
        rbr := insert.epi :: ep.rbr}.withInsertPc insert (.check revents))
  | unhookable (insert : Insert) (revents : EventMask) (held : ep.mtx = .insert insert)
      (here : insert.pc = .polled revents) (bad : ep.nwait insert.epi < 0) :
      Move ep .insertTick (ep.withInsertPc insert .unregister)
  | unregister (insert : Insert) (held : ep.mtx = .insert insert) (here : insert.pc = .unregister) :
      Move ep .insertTick
        ({ep with pwqlist := Function.update ep.pwqlist insert.epi []}.withInsertPc insert .drop)
  | rejected (insert : Insert) (revents : EventMask) (held : ep.mtx = .insert insert)
      (here : insert.pc = .check revents) (full : insert.fullCheck = true) :
      Move ep (.insertCheck true) ({ep with
        fllink := Function.update ep.fllink insert.epi false,
        rbr := ep.rbr.erase insert.epi}.withInsertPc insert .unregister)
  | checked (insert : Insert) (revents : EventMask) (tooManyPaths : Bool)
      (held : ep.mtx = .insert insert) (here : insert.pc = .check revents)
      (passes : (insert.fullCheck && tooManyPaths) = false) :
      Move ep (.insertCheck tooManyPaths) (ep.withInsertPc insert (.publish revents))
  | published (insert : Insert) (revents : EventMask) (held : ep.mtx = .insert insert)
      (here : insert.pc = .publish revents) (quiet : ep.queuesNew insert.epi revents = false) :
      Move ep (.insertPublish insert.epi) {ep with mtx := .free}
  | queuedNew (insert : Insert) (revents : EventMask) (held : ep.mtx = .insert insert)
      (here : insert.pc = .publish revents) (queues : ep.queuesNew insert.epi revents = true) :
      Move ep (.insertPublish insert.epi)
        {(ep.listAddTail insert.epi).epPmStayAwake insert.epi with mtx := .free}
  | dropped (insert : Insert) (held : ep.mtx = .insert insert) (here : insert.pc = .drop)
      (off : ep.rdllink insert.epi = false) :
      Move ep (.insertDrop insert.epi) {ep with mtx := .free, slab := ep.slab.erase insert.epi}
  | unqueued (insert : Insert) (held : ep.mtx = .insert insert) (here : insert.pc = .drop)
      (queued : ep.rdllink insert.epi = true) :
      Move ep (.insertDrop insert.epi)
        {ep.listDelInit insert.epi with mtx := .free, slab := ep.slab.erase insert.epi}

private theorem inScan_success (ep t : Eventpoll) (f : Scan → Option Eventpoll)
    (ok : inScan ep f = some t) : ∃ scan, ep.mtx = .scan scan ∧ f scan = some t := by
  unfold inScan at ok
  split at ok
  next scan held => exact ⟨scan,held,ok⟩
  next => contradiction

private theorem inInsert_success (ep t : Eventpoll) (f : Insert → Option Eventpoll)
    (ok : inInsert ep f = some t) : ∃ insert, ep.mtx = .insert insert ∧ f insert = some t := by
  unfold inInsert at ok
  split at ok
  next insert held => exact ⟨insert,held,ok⟩
  next => contradiction

private theorem pollFreed_fewer (ep : Eventpoll) (epi entry : Nat) (key : BitVec 64) :
    ∃ pwq, ep.pollFreed epi entry key = {ep with pwqlist := pwq} ∧
      ∀ i w, some w ∈ pwq i → some w ∈ ep.pwqlist i := by
  unfold Eventpoll.pollFreed
  split
  · refine ⟨_,rfl,?_⟩
    intro i w member
    by_cases same : i = epi
    · subst i
      rw [Function.update_self] at member
      exact (List.mem_or_eq_of_mem_set member).resolve_right (by simp)
    · rwa [Function.update_of_ne same] at member
  · exact ⟨ep.pwqlist,rfl,fun _ _ member => member⟩

private theorem callback_move (ep : Eventpoll) (epi entry : Nat) (key : BitVec 64)
    (on : ((ep.pwqlist epi)[entry]?).join.isSome = true) :
    Move ep (.callback epi entry key) (ep.epPollCallback epi entry key) := by
  have attached : ∃ w, some w ∈ ep.pwqlist epi := by
    obtain ⟨w,found⟩ := Option.isSome_iff_exists.mp on
    exact ⟨w,List.mem_of_getElem? (Option.join_eq_some_iff.mp found)⟩
  obtain ⟨pwq,same,fewer⟩ := pollFreed_fewer ep epi entry key
  unfold Eventpoll.epPollCallback
  rw [same]
  unfold Eventpoll.queueReady
  change Move ep _ (if !ep.accepts epi key then _ else if ep.ovflist ≠ .unlinked then
    if ep.next epi = .unlinked then _ else _ else if !ep.rdllink epi then _ else _)
  split_ifs with refuses active off off
  · exact .refused epi entry key pwq attached fewer (.inl (by simpa using refuses))
  · exact .chained epi entry key pwq attached fewer (by simpa using refuses) active off
  · exact .refused epi entry key pwq attached fewer (.inr (.inl ⟨by simpa using refuses,active,off⟩))
  · exact .queued epi entry key pwq attached fewer (by simpa using refuses) (by simpa using active)
      (by simpa using off)
  · exact .refused epi entry key pwq attached fewer
      (.inr (.inr ⟨by simpa using refuses,by simpa using active,by simpa using off⟩))

private theorem tick_move (ep t : Eventpoll) (scan : Scan) (held : ep.mtx = .scan scan)
    (ok : ep.procTick scan = some t) : Move ep .proc t := by
  unfold Eventpoll.procTick at ok
  split at ok
  next here =>
    split at ok
    next empty =>
      cases ok
      exact .finish scan held here (.inl empty)
    next epi rest first =>
      split at ok
      next below => cases ok; exact .take scan epi rest held here first below
      next above => cases ok; exact .finish scan held here (.inr (Nat.le_of_not_lt above))
  next epi here => cases ok; exact .relax scan epi held here
  next epi here => cases ok; exact .unlink scan epi held here
  next epi here => cases ok; exact .relink scan epi held here
  next epi here => cases ok; exact .restay scan epi held here
  next epi here =>
    cases ok
    refine .settle scan epi held here _ ?_
    split
    next kept => exact .inl ⟨rfl,by simpa using kept⟩
    next level => exact .inr ⟨rfl,by simpa using level⟩
  next epi here => cases ok; exact .requeue scan epi held here
  next epi here => cases ok; exact .stay scan epi held here
  next => contradiction

private theorem poll_move (ep t : Eventpoll) (scan : Scan) (epi : Nat) (mask : EventMask)
    (held : ep.mtx = .scan scan) (ok : ep.procPoll scan epi mask = some t) :
    Move ep (.poll epi mask) t := by
  obtain ⟨here,same⟩ := Option.ite_none_right_eq_some.mp ok
  have result := Option.some.inj same
  subst result
  by_cases none : ep.epItemPoll epi mask = 0
  · simp only [none,if_true]
    exact .idle scan epi mask held here none
  · simp only [none,if_false]
    exact .ready scan epi mask held here none

private theorem copy_move (ep t : Eventpoll) (scan : Scan) (epi : Nat) (held : ep.mtx = .scan scan)
    (ok : ep.procCopy scan epi = some t) : Move ep (.copy epi) t := by
  unfold Eventpoll.procCopy at ok
  split at ok
  next inHand revents here =>
    obtain ⟨rfl,same⟩ := Option.ite_none_right_eq_some.mp ok
    have result := Option.some.inj same
    subst result
    exact .copy scan _ revents held here
  next => contradiction

private theorem fault_move (ep t : Eventpoll) (scan : Scan) (epi : Nat) (held : ep.mtx = .scan scan)
    (ok : ep.procFault scan epi = some t) : Move ep (.fault epi) t := by
  unfold Eventpoll.procFault at ok
  split at ok
  next inHand revents here =>
    obtain ⟨rfl,same⟩ := Option.ite_none_right_eq_some.mp ok
    have result := Option.some.inj same
    subst result
    exact .fault scan _ revents held here
  next => contradiction

private theorem scanEnd_move (ep t : Eventpoll) (scan : Scan) (held : ep.mtx = .scan scan)
    (ok : ep.scanEnd scan = some t) : Move ep .scanEnd t := by
  unfold Eventpoll.scanEnd at ok
  split at ok
  next fault here =>
    obtain ⟨drained,ended,result⟩ := Option.map_eq_some_iff.mp ok
    subst result
    exact .scanEnd scan fault drained held here ended
  next => contradiction

private theorem hook_move (ep : Eventpoll) (insert : Insert) (whead : Nat) (allocated : Bool)
    (held : ep.mtx = .insert insert) (here : insert.pc = .hook) :
    Move ep (.insertHook whead allocated) (ep.epPtableQueueProc insert.epi whead allocated) := by
  unfold Eventpoll.epPtableQueueProc
  split
  next good =>
    obtain ⟨good,rfl⟩ := good
    exact .hooked insert whead held here good
  next bad =>
    refine .unhooked insert whead allocated held here ?_
    rcases not_and_or.mp bad with negative | refused
    · exact .inr (Int.not_le.mp negative)
    · exact .inl (by simpa using refused)

private theorem insertTick_move (ep t : Eventpoll) (insert : Insert) (held : ep.mtx = .insert insert)
    (ok : ep.insertTick insert = some t) : Move ep .insertTick t := by
  unfold Eventpoll.insertTick at ok
  cases here : insert.pc with
  | polled revents =>
    simp only [here] at ok
    by_cases bad : ep.nwait insert.epi < 0
    · rw [if_pos bad] at ok
      cases Option.some.inj ok
      exact .unhookable insert revents held here bad
    · rw [if_neg bad] at ok
      cases Option.some.inj ok
      exact .linked insert revents held here (Int.not_lt.mp bad)
  | unregister =>
    simp only [here] at ok
    cases Option.some.inj ok
    exact .unregister insert held here
  | _ => simp only [here] at ok; contradiction

private theorem insertCheck_move (ep t : Eventpoll) (insert : Insert) (tooManyPaths : Bool)
    (held : ep.mtx = .insert insert) (ok : ep.insertCheck insert tooManyPaths = some t) :
    Move ep (.insertCheck tooManyPaths) t := by
  unfold Eventpoll.insertCheck at ok
  split at ok
  next revents here =>
    split at ok
    next refused =>
      obtain ⟨full,rfl⟩ := Bool.and_eq_true_iff.mp refused
      have result := Option.some.inj ok
      subst result
      exact .rejected insert revents held here full
    next passes =>
      have result := Option.some.inj ok
      subst result
      exact .checked insert revents tooManyPaths held here (by simpa using passes)
  next => contradiction

private theorem insertPublish_move (ep t : Eventpoll) (insert : Insert) (epi : Nat)
    (held : ep.mtx = .insert insert) (ok : ep.insertPublish insert epi = some t) :
    Move ep (.insertPublish epi) t := by
  unfold Eventpoll.insertPublish at ok
  split at ok
  next revents here =>
    obtain ⟨rfl,same⟩ := Option.ite_none_right_eq_some.mp ok
    have result := Option.some.inj same
    subst result
    by_cases queues : ep.queuesNew insert.epi revents = true
    · simp only [queues,if_true]
      exact .queuedNew insert revents held here queues
    · simp only [queues]
      exact .published insert revents held here (by simpa using queues)
  next => contradiction

private theorem insertDrop_move (ep t : Eventpoll) (insert : Insert) (epi : Nat)
    (held : ep.mtx = .insert insert) (ok : ep.insertDrop insert epi = some t) :
    Move ep (.insertDrop epi) t := by
  unfold Eventpoll.insertDrop at ok
  split at ok
  next here =>
    obtain ⟨rfl,same⟩ := Option.ite_none_right_eq_some.mp ok
    have result := Option.some.inj same
    subst result
    by_cases queued : ep.rdllink insert.epi = true
    · simp only [queued,if_true]
      exact .unqueued insert held here queued
    · simp only [queued]
      exact .dropped insert held here (by simpa using queued)
  next => contradiction

theorem step_move (ep t : Eventpoll) (l : Label) (ok : step ep l = some t) : Move ep l t := by
  cases l with
  | callback epi entry key =>
    obtain ⟨on,same⟩ := Option.ite_none_right_eq_some.mp ok
    cases Option.some.inj same
    exact callback_move ep epi entry key on
  | modify epi events data =>
    obtain ⟨⟨free,inside⟩,same⟩ := Option.ite_none_right_eq_some.mp ok
    cases Option.some.inj same
    exact .modify epi events data free inside
  | scanStart maxevents =>
    obtain ⟨⟨free,positive⟩,same⟩ := Option.ite_none_right_eq_some.mp ok
    cases Option.some.inj same
    exact .scanStart maxevents free positive
  | proc =>
    obtain ⟨scan,held,result⟩ := inScan_success ep t _ ok
    exact tick_move ep t scan held result
  | poll epi mask =>
    obtain ⟨scan,held,result⟩ := inScan_success ep t _ ok
    exact poll_move ep t scan epi mask held result
  | copy epi =>
    obtain ⟨scan,held,result⟩ := inScan_success ep t _ ok
    exact copy_move ep t scan epi held result
  | fault epi =>
    obtain ⟨scan,held,result⟩ := inScan_success ep t _ ok
    exact fault_move ep t scan epi held result
  | scanEnd =>
    obtain ⟨scan,held,result⟩ := inScan_success ep t _ ok
    exact scanEnd_move ep t scan held result
  | insertBegin epi ffd events data fullCheck =>
    obtain ⟨⟨free,fresh⟩,same⟩ := Option.ite_none_right_eq_some.mp ok
    cases Option.some.inj same
    exact .insertBegin epi ffd events data fullCheck free fresh
  | insertHook whead allocated =>
    obtain ⟨insert,held,result⟩ := inInsert_success ep t _ ok
    obtain ⟨here,same⟩ := Option.ite_none_right_eq_some.mp result
    cases Option.some.inj same
    exact hook_move ep insert whead allocated held here
  | insertPoll mask =>
    obtain ⟨insert,held,result⟩ := inInsert_success ep t _ ok
    obtain ⟨here,same⟩ := Option.ite_none_right_eq_some.mp result
    cases Option.some.inj same
    exact .insertPoll insert mask held here
  | insertTick =>
    obtain ⟨insert,held,result⟩ := inInsert_success ep t _ ok
    exact insertTick_move ep t insert held result
  | insertCheck tooManyPaths =>
    obtain ⟨insert,held,result⟩ := inInsert_success ep t _ ok
    exact insertCheck_move ep t insert tooManyPaths held result
  | insertPublish epi =>
    obtain ⟨insert,held,result⟩ := inInsert_success ep t _ ok
    exact insertPublish_move ep t insert epi held result
  | insertDrop epi =>
    obtain ⟨insert,held,result⟩ := inInsert_success ep t _ ok
    exact insertDrop_move ep t insert epi held result

theorem scan_kept (ep t : Eventpoll) (l : Label) (scan : Scan) (move : Move ep l t)
    (busy : ep.mtx = .scan scan) (going : l ≠ .scanEnd) :
    ∃ moved, t.mtx = .scan moved ∧ moved.maxevents = scan.maxevents := by
  cases move
  case refused | chained | queued | modify | hooked | unhooked => exact ⟨scan,busy,rfl⟩
  case scanEnd => exact absurd rfl going
  all_goals simp_all [Eventpoll.withPc]

end Reactor.Epoll
