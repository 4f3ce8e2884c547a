import Reactor.Epoll.Delivery

/-! Wakeup sources. While an item with EPOLLWAKEUP waits for its delivery, the
item's own source or the eventpoll's keeps the system from suspending; the two hand
the duty over to each other in the course of a scan. -/
namespace Reactor.Epoll
open Reactor.Transition Reactor.Threaded

/-- Who keeps the system awake for the item: its own source while it only waits on a
list, the eventpoll's while the scan works on it or it is chained. -/
structure View.Guarded (i : Nat) (v : View) : Prop where
  waiting : v.linked = true → v.stage = none ∨ v.stage = some (.relax i) → v.itemWs ≠ some false
  working : ∀ pc, v.stage = some pc → v.itemWs.isSome = true → v.ws = true
  chained : v.chained = true → v.itemWs.isSome = true → v.ws = true
  unlinked : ∀ pc, v.stage = some pc → pc.inHand = some i → v.linked = false

private theorem awake_some (ws : Option Bool) : awake ws ≠ some false := by
  cases ws <;> simp [awake]

private theorem awake_isSome (ws : Option Bool) : (awake ws).isSome = ws.isSome := by
  cases ws <;> rfl

private theorem asleep_isSome (ws : Option Bool) : (asleep ws).isSome = ws.isSome := by
  cases ws <;> rfl

private theorem guarded_working {i : Nat} {v w : View} (guarded : v.Guarded i) (pc pc' : ProcPc)
    (here : v.stage = some pc) (there : w.stage = some pc') (away : pc' ≠ .relax i)
    (ws : w.ws = v.ws) (some : w.itemWs.isSome = v.itemWs.isSome) (chained : w.chained = v.chained)
    (unlinked : pc'.inHand = Option.some i → w.linked = false) : w.Guarded i where
  waiting := by
    intro _ resting
    rw [there] at resting
    rcases resting with resting | resting
    · cases resting
    · exact absurd (Option.some.inj resting) away
  working := by
    intro _ _ source
    rw [ws]
    exact guarded.working pc here (some ▸ source)
  chained := by
    rw [chained,ws,some]
    exact guarded.chained
  unlinked := by
    intro pc'' stage
    cases Option.some.inj (there.symm.trans stage)
    exact unlinked

private theorem guarded_let_go {i : Nat} {v w : View} (guarded : v.Guarded i) (there : w.stage = none)
    (ws : w.ws = v.ws) (some : w.itemWs.isSome = v.itemWs.isSome) (chained : w.chained = v.chained)
    (own : w.linked = true → w.itemWs ≠ Option.some false) : w.Guarded i where
  waiting := fun linked _ => own linked
  working := by simp [there]
  chained := by
    rw [chained,ws,some]
    exact guarded.chained
  unlinked := by simp [there]

theorem guarded_step (i : Nat) (v w : View) (event : ItemEvent) (ok : ViewOk i v) (step : ItemStep i v w event)
    (guarded : v.Guarded i) : w.Guarded i := by
  have off {pc : ProcPc} (here : v.stage = some pc) (hand : pc.inHand = some i) : v.linked = false :=
    guarded.unlinked pc here hand
  cases step with
  | rest raised next =>
    rw [next]
    exact {guarded with
      working := fun pc here source => raised (guarded.working pc here source)
      chained := fun on source => raised (guarded.chained on source)}
  | choose here on during next =>
    have own := guarded.waiting on (.inl here)
    subst next
    refine ⟨fun _ _ => own,?_,?_,?_⟩
    · intro pc _ source
      cases ws : v.itemWs with
      | none => simp [ws] at source
      | some active => cases active <;> simp_all
    · intro chained source
      simp [guarded.chained chained source]
    · intro pc stage hand
      cases Option.some.inj stage
      cases hand
  | relax here next =>
    subst next
    exact guarded_working guarded _ _ here rfl (by simp) rfl (asleep_isSome _) rfl (by simp [ProcPc.inHand])
  | unlink here next =>
    subst next
    exact guarded_working guarded _ _ here rfl (by simp) rfl rfl rfl (fun _ => rfl)
  | relink here next =>
    subst next
    exact guarded_working guarded _ _ here rfl (by simp) rfl rfl rfl (by simp [ProcPc.inHand])
  | restay here next | stay here next =>
    subst next
    exact guarded_let_go guarded rfl rfl (awake_isSome _) rfl (fun _ => awake_some _)
  | settle here next =>
    have apart := off here rfl
    subst next
    exact guarded_let_go guarded rfl rfl rfl rfl (by simp [apart])
  | level here reusable triggered next =>
    have apart := off here rfl
    subst next
    exact guarded_working guarded _ _ here rfl (by simp) rfl rfl rfl (fun _ => apart)
  | requeue here next =>
    subst next
    exact guarded_working guarded _ _ here rfl (by simp) rfl rfl rfl (by simp [ProcPc.inHand])
  | chain during free next =>
    subst next
    exact {guarded with
      working := fun pc here source => by simp [guarded.working pc here source]
      chained := fun _ source => by simp [show v.itemWs.isSome = true from source]}
  | queue outside free next | queueNew outside free next =>
    have stage := ok.stage outside
    subst next
    exact guarded_let_go guarded stage rfl (awake_isSome _) rfl (fun _ => awake_some _)
  | already waiting next =>
    subst next
    exact guarded
  | idle mask here nothing next =>
    have apart := off here rfl
    subst next
    exact guarded_let_go guarded rfl rfl rfl rfl (by simp [apart])
  | ready mask here something next =>
    have apart := off here rfl
    subst next
    exact guarded_working guarded _ _ here rfl (by simp) rfl rfl rfl (fun _ => apart)
  | deliver revents here next | fault revents here next =>
    have apart := off here rfl
    subst next
    exact guarded_working guarded _ _ here rfl (by simp) rfl rfl rfl (fun _ => apart)
  | start outside next =>
    subst next
    exact {guarded with}
  | finish during here next =>
    subst next
    refine ⟨?_,by simp [here],by simp,by simp [here]⟩
    intro _ _
    cases linked : v.linked with
    | true => simpa [linked] using guarded.waiting linked (.inl here)
    | false =>
      cases chained : v.chained with
      | true => simpa [linked,chained] using awake_some v.itemWs
      | false => simp_all
  | begin events absent outside next =>
    have stage := ok.stage outside
    subst next
    exact ⟨by simp,by simp [stage],by simp,by simp [stage]⟩
  | drop outside next =>
    have stage := ok.stage outside
    subst next
    exact ⟨by simp,by simp [stage],by simp,by simp [stage]⟩
  | modify events outside next =>
    subst next
    exact {guarded with}

theorem guarded_reached (ep : Eventpoll) (i : Nat) (reached : Reached ep) : (view ep i).Guarded i := by
  have both : Rep ep ∧ (view ep i).Guarded i := by
    apply reached.invariant (fun ep => Rep ep ∧ (view ep i).Guarded i)
    · intro ep fresh
      refine ⟨rep_epAlloc ep fresh,?_⟩
      obtain ⟨free,ready,tx,_,_,_,slab,_⟩ := fresh
      constructor <;> simp [view,stageOf,free,ready,tx,slab]
    · rintro ep l t ⟨rep,guarded⟩ ok
      exact ⟨rep_step ep t l rep ok,
        guarded_step i _ _ _ (view_ok ep i rep) (item_step ep t l i rep ok) guarded⟩
  exact both.2

def Eventpoll.keptAwake (ep : Eventpoll) (i : Nat) : Prop := ep.itemWs i = some true ∨ ep.ws = true

/-- The end of a scan after `k` turns of the loop over the overflow chain. -/
def Eventpoll.drainedTo (ep : Eventpoll) (k : Nat) : Eventpoll :=
  (ep.overflow.take k).foldl Eventpoll.drainItem ep

private theorem stage_of_processing (ep : Eventpoll) (i : Nat) (hand : ep.processing i = true) :
    ∃ pc, (view ep i).stage = some pc := by
  have some := processing_stage ep i hand
  cases stage : (view ep i).stage with
  | none => simp [stage] at some
  | some pc => exact ⟨pc,rfl⟩

private theorem kept_of_guarded (ep : Eventpoll) (i : Nat) (guarded : (view ep i).Guarded i)
    (source : (ep.itemWs i).isSome = true)
    (somewhere : (view ep i).linked = true ∨ (view ep i).chained = true ∨ ∃ pc, (view ep i).stage = some pc) :
    ep.keptAwake i := by
  rcases somewhere with linked | chained | ⟨pc,stage⟩
  · cases stage : (view ep i).stage with
    | none =>
      have own : ep.itemWs i ≠ some false := guarded.waiting linked (.inl stage)
      left
      cases ws : ep.itemWs i with
      | none => simp [ws] at source
      | some active => cases active <;> simp_all
    | some pc => exact .inr (guarded.working pc stage source)
  · exact .inr (guarded.chained chained source)
  · exact .inr (guarded.working pc stage source)

private theorem drainedTo_kept (ep : Eventpoll) (rep : Rep ep) (busy : ep.mtx.isScan = true) (k i : Nat)
    (guarded : (view ep i).Guarded i) (source : ((ep.drainedTo k).itemWs i).isSome = true)
    (somewhere : i ∈ (ep.drainedTo k).rdllist ∨ i ∈ (ep.drainedTo k).txlist ∨ i ∈ ep.overflow.drop k) :
    (ep.drainedTo k).keptAwake i := by
  have chained := rep.chained busy
  have distinct : (ep.overflow.take k).Nodup := chained.chain.nodup.sublist (List.take_sublist k _)
  have ws : (ep.drainedTo k).ws = ep.ws := drained_ws _ ep
  have txlist : (ep.drainedTo k).txlist = ep.txlist := drained_txlist _ ep
  have itemWs := drained_itemWs (ep.overflow.take k) distinct ep i
  change (ep.drainedTo k).itemWs i = _ at itemWs
  have before : (ep.itemWs i).isSome = true := by
    rw [itemWs] at source
    split at source
    · rw [awake_isSome] at source
      exact source
    · exact source
  by_cases on : i ∈ ep.overflow
  · exact .inr (ws ▸ guarded.chained ((overflow_member ep rep i).mp on) before)
  · have untaken : i ∉ ep.overflow.take k := fun member => on (List.mem_of_mem_take member)
    have listed : (view ep i).linked = true := by
      rw [view_linked,List.mem_append]
      rcases somewhere with ready | tx | left
      · rw [Eventpoll.drainedTo,drained_rdllist _ distinct,List.mem_append] at ready
        exact .inl (ready.resolve_right fun member => untaken (List.mem_filter.mp member).1)
      · exact .inr (txlist ▸ tx)
      · exact absurd (List.mem_of_mem_drop left) on
    rw [if_neg fun both => untaken both.1] at itemWs
    rw [Eventpoll.keptAwake,itemWs,ws]
    exact kept_of_guarded ep i guarded before (.inl listed)

/-- No suspend gap: an item with a wakeup source that is on `rdllist`, `txlist` or the
overflow chain, or that the scan has unlinked and not yet delivered or dropped, is
covered by its own source or by the eventpoll's; so it is after each turn of the
loop that empties the chain, up to the relaxing of the eventpoll's source. -/
theorem wakeup_source_held (ep : Eventpoll) (reached : Reached ep) :
    (∀ i, (ep.itemWs i).isSome = true →
      i ∈ ep.rdllist ∨ i ∈ ep.txlist ∨ i ∈ ep.overflow ∨ ep.processing i = true → ep.keptAwake i) ∧
    ∀ scan fault, ep.mtx = .scan scan → scan.pc = .done fault →
      ep.drain (ep.slab.length + 1) ep.ovflist = some (ep.drainedTo ep.overflow.length) ∧
      ∀ k i, ((ep.drainedTo k).itemWs i).isSome = true →
        i ∈ (ep.drainedTo k).rdllist ∨ i ∈ (ep.drainedTo k).txlist ∨ i ∈ ep.overflow.drop k →
        (ep.drainedTo k).keptAwake i := by
  have rep := rep_reached ep reached
  constructor
  · intro i source somewhere
    apply kept_of_guarded ep i (guarded_reached ep i reached) source
    rcases somewhere with ready | tx | chained | hand
    · exact .inl ((view_linked ep i).mpr (List.mem_append.mpr (.inl ready)))
    · exact .inl ((view_linked ep i).mpr (List.mem_append.mpr (.inr tx)))
    · exact .inr (.inl ((overflow_member ep rep i).mp chained))
    · exact .inr (.inr (stage_of_processing ep i hand))
  · intro scan fault held here
    have busy : ep.mtx.isScan = true := by rw [held]; rfl
    have chained := rep.chained busy
    constructor
    · rw [Eventpoll.drainedTo,List.take_length]
      exact drain_chain _ ep ep.ovflist chained.chain _ (Nat.lt_succ_of_le chained.short)
    · intro k i
      exact drainedTo_kept ep rep busy k i (guarded_reached ep i reached)

def wakeupLabels : List Label :=
  inserting 0 (pollIn ||| epollWakeup) pollIn ++
    [.scanStart 1,.proc,.proc,.proc,.callback 0 0 1,.poll 0 pollOut,.proc]

theorem wakeup_source_held_chained :
    (∀ i, ((after wakeupLabels).itemWs i).isSome = true →
      i ∈ [] ∨ i ∈ [] ∨ i ∈ [0] ∨ (after wakeupLabels).processing i = true →
      (after wakeupLabels).keptAwake i) ∧
    ∀ scan fault, (after wakeupLabels).mtx = .scan scan → scan.pc = .done fault →
      (after wakeupLabels).drain 2 (.node 0) = some ((after wakeupLabels).drainedTo 1) ∧
      ∀ k i, (((after wakeupLabels).drainedTo k).itemWs i).isSome = true →
        i ∈ ((after wakeupLabels).drainedTo k).rdllist ∨ i ∈ ((after wakeupLabels).drainedTo k).txlist ∨
          i ∈ [0].drop k →
        ((after wakeupLabels).drainedTo k).keptAwake i :=
  wakeup_source_held (after wakeupLabels) (after_reached wakeupLabels (by decide))

end Reactor.Epoll
