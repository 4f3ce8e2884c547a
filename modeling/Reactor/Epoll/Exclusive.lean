import Reactor.Epoll.Control
import Reactor.Epoll.Wait

/-! One wake-up of a file whose wait queue holds EPOLLEXCLUSIVE entries. The queue is
walked in order, each entry's `ep_poll_callback` runs on the eventpoll it belongs to, and
the walk stops at the first return that is not zero. Other threads go on meanwhile; what
they cannot do is take an entry off the queue, which is locked, or change its mask, which
`epoll_ctl` refuses. -/
namespace Reactor.Epoll
open Reactor.Transition Reactor.Threaded

/-- A wait entry: its eventpoll, its item, and its place among the item's entries. -/
structure WaitEntry where
  ep : Nat
  epi : Nat
  entry : Nat
  deriving DecidableEq, Repr

/-- The switch over the IN and OUT bits of the key. -/
def ewake (events : EventMask) (key : BitVec 64) : Bool :=
  let bits := key &&& epollInoutBits.zeroExtend 64
  if bits = pollIn.zeroExtend 64 then hits events pollIn
  else if bits = pollOut.zeroExtend 64 then hits events pollOut
  else bits = 0

/-- The callback finds `ep->wq` active and calls `wake_up_locked` on it. -/
def Waiting.wakesUp (w : Waiting) (e : WaitEntry) (key : BitVec 64) : Bool :=
  wakes w.ep (.callback e.epi e.entry key) (w.ep.epPollCallback e.epi e.entry key) && w.wq ≠ []

def Waiting.callbackResult (w : Waiting) (e : WaitEntry) (key : BitVec 64) : Int :=
  if hits (w.ep.events e.epi) epollExclusive then
    if w.wakesUp e key && !keyHits key pollFree && ewake (w.ep.events e.epi) key then 1 else 0
  else 1

structure Call where
  entry : WaitEntry
  before : Waiting
  after : Waiting
  result : Int

/-- The walk: the eventpolls, the entries it has yet to come to, and its calls so far. -/
structure WakeUp where
  eps : Nat → Waiting
  left : List WaitEntry
  calls : List Call

inductive WakeLabel
  | call
  | other (i : Nat) (l : WaitLabel)
  deriving DecidableEq, Repr

namespace WakeUp

def call (s : WakeUp) (key : BitVec 64) (e : WaitEntry) (rest : List WaitEntry) : Option WakeUp :=
  (waitStep (s.eps e.ep) (.file (.callback e.epi e.entry key))).map fun after =>
    let result := (s.eps e.ep).callbackResult e key
    ⟨Function.update s.eps e.ep after,if result = 0 then rest else [],s.calls ++ [⟨e,s.eps e.ep,after,result⟩]⟩

def Intact (s : WakeUp) (eps : Nat → Waiting) : Prop :=
  ∀ e ∈ s.left, ((eps e.ep).ep.pwqlist e.epi)[e.entry]? = ((s.eps e.ep).ep.pwqlist e.epi)[e.entry]? ∧
    (eps e.ep).ep.events e.epi = (s.eps e.ep).ep.events e.epi

instance (s : WakeUp) (eps : Nat → Waiting) : Decidable (s.Intact eps) := by
  unfold Intact
  infer_instance

end WakeUp

def wakeStep (key : BitVec 64) (s : WakeUp) : WakeLabel → Option WakeUp
  | .call =>
    match s.left with
    | [] => none
    | e::rest => s.call key e rest
  | .other i l => (waitStep (s.eps i) l).bind fun w =>
      if s.Intact (Function.update s.eps i w) then some {s with eps := Function.update s.eps i w} else none

/-- The entry is on the queue `whead` of the file, with a mask that EPOLL_CTL_ADD admits. -/
structure WaitEntry.Queued (k : Kernel) (tfile whead : Nat) (eps : Nat → Waiting) (e : WaitEntry) : Prop where
  hooked : ((eps e.ep).ep.pwqlist e.epi)[e.entry]? = some (some whead)
  admitted : ∃ requested, hits requested epollExclusive = true ∧
    exclusiveRefused k epollCtlAdd requested tfile = false ∧
    (eps e.ep).ep.events e.epi = requested ||| pollErr ||| pollHup

/-- The entry's mask meets the key, and its eventpoll has waiters and no scan. -/
def WaitEntry.Willing (key : BitVec 64) (eps : Nat → Waiting) (e : WaitEntry) : Prop :=
  (key = 0 ∨ keyHits key ((eps e.ep).ep.events e.epi) = true) ∧ (eps e.ep).wq ≠ [] ∧ (eps e.ep).ep.mtx.isScan = false

section
variable {k : Kernel} {tfile whead epi entry : Nat} {key : BitVec 64} {eps : Nat → Waiting} {e : WaitEntry} {w after : Waiting}

theorem WaitEntry.Queued.exclusive (queued : e.Queued k tfile whead eps) :
    hits ((eps e.ep).ep.events e.epi) epollExclusive = true := by
  obtain ⟨requested,exclusive,_,mask⟩ := queued.admitted
  rw [mask,hits,withErrors_and requested epollExclusive (by decide) (by decide)]
  exact exclusive

/-- Errors are always watched, so the mask is never a disabled one. -/
theorem WaitEntry.Queued.enabled (queued : e.Queued k tfile whead eps) :
    hits ((eps e.ep).ep.events e.epi) (~~~epPrivateBits) = true := by
  obtain ⟨requested,_,_,mask⟩ := queued.admitted
  rw [mask,hits_iff]
  intro none
  have bit := congrArg (fun x : EventMask => x.getLsbD 3) none
  simp [pollErr,epPrivateBits,epollWakeup,epollOneshot,epollEt,epollExclusive] at bit

theorem epPollCallback_frame (ep : Eventpoll) (epi entry : Nat) (living : keyHits key pollFree = false) :
    (ep.epPollCallback epi entry key).pwqlist = ep.pwqlist ∧ (ep.epPollCallback epi entry key).events = ep.events ∧
      (ep.epPollCallback epi entry key).mtx = ep.mtx := by
  have alive : ep.pollFreed epi entry key = ep := by simp [Eventpoll.pollFreed,living]
  rw [Eventpoll.epPollCallback,alive]
  unfold Eventpoll.queueReady
  split_ifs <;> exact ⟨rfl,rfl,rfl⟩

theorem callback_called (ok : waitStep w (.file (.callback epi entry key)) = some after) :
    step w.ep (.callback epi entry key) = some after.ep ∧ after.ep = w.ep.epPollCallback epi entry key ∧
      after.wq = w.wq := by
  obtain ⟨ep,moved,rfl⟩ := Option.map_eq_some_iff.mp ok
  rw [advance_ep]
  refine ⟨moved,(Option.some.inj (Option.ite_none_right_eq_some.mp moved).2).symm,?_⟩
  unfold Waiting.advance Waiting.wakeUpLocked
  split
  · split <;> rfl
  · rfl

theorem wakesUp_iff : w.wakesUp e key = true ↔ w.ep.accepts e.epi key = true ∧ w.ep.ovflist = .unlinked ∧ w.wq ≠ [] := by
  simp [Waiting.wakesUp,wakes,and_assoc]

/-- What the callback leaves is what `wake_up_locked` leaves of the eventpoll it has changed. -/
theorem wakesUp_woken (wakes : w.wakesUp e key = true)
    (ok : waitStep w (.file (.callback e.epi e.entry key)) = some after) :
    after = ({w with ep := after.ep} : Waiting).wakeUpLocked := by
  obtain ⟨ep,moved,rfl⟩ := Option.map_eq_some_iff.mp ok
  have same : ep = w.ep.epPollCallback e.epi e.entry key := (Option.some.inj (Option.ite_none_right_eq_some.mp moved).2).symm
  rw [advance_ep,Waiting.advance,same,if_pos (Bool.and_eq_true_iff.mp wakes).1]

/-- An item accepted outside a scan is on the ready list. -/
theorem accepted_ready {ep t : Eventpoll} (rep : Rep ep) (accepted : ep.accepts epi key = true)
    (inactive : ep.ovflist = .unlinked) (ok : step ep (.callback epi entry key) = some t) : epi ∈ t.rdllist := by
  have idle : ep.mtx.isScan = false := by
    simpa using rep.active.not.mpr (not_not.mpr inactive)
  cases step_move ep t _ ok with
  | refused _ _ _ pwq attached fewer why =>
    obtain ⟨v,member⟩ := attached
    rcases why with refuses | ⟨_,active,_⟩ | ⟨_,_,linked⟩
    · rw [accepted] at refuses
      cases refuses
    · exact absurd inactive active
    · have listed := (rep.lists.linked epi (rep.lists.attached epi v member)).mp linked
      rwa [(rep.overflow.resting idle).2.1,List.append_nil] at listed
  | chained _ _ _ pwq attached fewer accepted active => exact absurd inactive active
  | queued => exact List.mem_append.mpr (.inr (List.mem_singleton.mpr rfl))

theorem callbackResult_wakes (queued : e.Queued k tfile whead eps)
    (nonzero : (eps e.ep).callbackResult e key ≠ 0) : (eps e.ep).wakesUp e key = true := by
  rw [Waiting.callbackResult,if_pos queued.exclusive] at nonzero
  by_contra silent
  simp [silent] at nonzero

theorem WaitEntry.Willing.wakesUp (willing : e.Willing key eps) (queued : e.Queued k tfile whead eps)
    (rep : Rep (eps e.ep).ep) : (eps e.ep).wakesUp e key = true := by
  obtain ⟨meets,waiters,idle⟩ := willing
  refine wakesUp_iff.mpr ⟨?_,(rep.overflow.resting idle).1,waiters⟩
  rcases meets with none | meets
  · simp [Eventpoll.accepts,queued.enabled,none]
  · simp [Eventpoll.accepts,queued.enabled,meets]

end

inductive WakeMove (key : BitVec 64) (s : WakeUp) : WakeLabel → WakeUp → Prop
  | call (e : WaitEntry) (rest : List WaitEntry) (after : Waiting) (next : s.left = e::rest)
      (called : waitStep (s.eps e.ep) (.file (.callback e.epi e.entry key)) = some after) :
      WakeMove key s .call ⟨Function.update s.eps e.ep after,
        if (s.eps e.ep).callbackResult e key = 0 then rest else [],
        s.calls ++ [⟨e,s.eps e.ep,after,(s.eps e.ep).callbackResult e key⟩]⟩
  | other (i : Nat) (l : WaitLabel) (w : Waiting) (moved : waitStep (s.eps i) l = some w)
      (intact : s.Intact (Function.update s.eps i w)) :
      WakeMove key s (.other i l) {s with eps := Function.update s.eps i w}

theorem wake_move (key : BitVec 64) (s t : WakeUp) (l : WakeLabel) (ok : wakeStep key s l = some t) :
    WakeMove key s l t := by
  cases l with
  | call =>
    simp only [wakeStep] at ok
    split at ok
    · cases ok
    · rename_i e rest next
      obtain ⟨after,called,rfl⟩ := Option.map_eq_some_iff.mp ok
      exact .call e rest after next called
  | other i l =>
    obtain ⟨w,moved,kept⟩ := Option.bind_eq_some_iff.mp ok
    obtain ⟨intact,⟨⟩⟩ := Option.ite_none_right_eq_some.mp kept
    exact .other i l w moved intact

/-- The call has come to `wake_up_locked` on a queue that was not empty, and left what that leaves. -/
structure Call.Woken (key : BitVec 64) (call : Call) : Prop where
  waiters : call.before.wq ≠ []
  wakes : call.before.wakesUp call.entry key = true
  woken : call.after = ({call.before with ep := call.after.ep} : Waiting).wakeUpLocked

theorem woken_called {key : BitVec 64} {w after : Waiting} {e : WaitEntry} {result : Int} (wakes : w.wakesUp e key = true)
    (called : waitStep w (.file (.callback e.epi e.entry key)) = some after) : Call.Woken key ⟨e,w,after,result⟩ :=
  ⟨(wakesUp_iff.mp wakes).2.2,wakes,wakesUp_woken wakes called⟩

/-- What a call that stops the walk has done. -/
def Call.Served (key : BitVec 64) (call : Call) : Prop := call.Woken key ∧ call.entry.epi ∈ call.after.ep.rdllist

structure Walking (k : Kernel) (tfile whead : Nat) (key : BitVec 64) (s : WakeUp) : Prop where
  reached : ∀ i, Reachable waitInitial waitStep (s.eps i)
  queued : ∀ e ∈ s.left, e.Queued k tfile whead s.eps
  served : ∀ call ∈ s.calls, call.result ≠ 0 → call.Served key

section
variable {k : Kernel} {tfile whead : Nat} {key : BitVec 64} {s t : WakeUp} {l : WakeLabel} {e : WaitEntry}

theorem reached_update {eps : Nat → Waiting} {i : Nat} {l : WaitLabel} {w : Waiting}
    (reached : ∀ i, Reachable waitInitial waitStep (eps i)) (ok : waitStep (eps i) l = some w) (j : Nat) :
    Reachable waitInitial waitStep (Function.update eps i w j) := by
  by_cases same : j = i
  · subst same
    rw [Function.update_self]
    exact (reached j).step ok
  · rw [Function.update_of_ne same]
    exact reached j

/-- A callback leaves masks, entries, scans and waiters of every eventpoll alone. -/
theorem call_frame {eps : Nat → Waiting} {after : Waiting} (living : keyHits key pollFree = false)
    (ok : waitStep (eps e.ep) (.file (.callback e.epi e.entry key)) = some after) (i : Nat) :
    (Function.update eps e.ep after i).ep.pwqlist = (eps i).ep.pwqlist ∧
    (Function.update eps e.ep after i).ep.events = (eps i).ep.events ∧
    (Function.update eps e.ep after i).ep.mtx = (eps i).ep.mtx ∧ (Function.update eps e.ep after i).wq = (eps i).wq := by
  by_cases same : i = e.ep
  · subst same
    obtain ⟨_,result,waiters⟩ := callback_called ok
    obtain ⟨pwqlist,events,mtx⟩ := epPollCallback_frame (eps e.ep).ep e.epi e.entry living
    rw [Function.update_self,result]
    exact ⟨pwqlist,events,mtx,waiters⟩
  · rw [Function.update_of_ne same]
    exact ⟨rfl,rfl,rfl,rfl⟩

theorem WaitEntry.Queued.keep {eps later : Nat → Waiting} (queued : e.Queued k tfile whead eps)
    (hooked : ((later e.ep).ep.pwqlist e.epi)[e.entry]? = ((eps e.ep).ep.pwqlist e.epi)[e.entry]?)
    (mask : (later e.ep).ep.events e.epi = (eps e.ep).ep.events e.epi) : e.Queued k tfile whead later := by
  refine ⟨hooked.trans queued.hooked,?_⟩
  rw [mask]
  exact queued.admitted

theorem walking_step (living : keyHits key pollFree = false) (walking : Walking k tfile whead key s)
    (ok : wakeStep key s l = some t) : Walking k tfile whead key t := by
  cases wake_move key s t l ok with
  | call e rest after next called =>
    have first := walking.queued e (by simp [next])
    refine ⟨reached_update walking.reached called,?_,?_⟩
    · intro other member
      have inside : other ∈ s.left := by
        rw [next]
        split at member
        · exact List.mem_cons_of_mem e member
        · cases member
      obtain ⟨pwqlist,events,_⟩ := call_frame living called other.ep
      exact (walking.queued other inside).keep (by rw [pwqlist]) (by rw [events])
    · intro call member nonzero
      rcases List.mem_append.mp member with old | new
      · exact walking.served call old nonzero
      · cases List.mem_singleton.mp new
        have wakes := callbackResult_wakes first nonzero
        obtain ⟨accepted,inactive,_⟩ := wakesUp_iff.mp wakes
        have rep := rep_reached _ (waiting_reached _ (walking.reached e.ep))
        exact ⟨woken_called wakes called,accepted_ready rep accepted inactive (callback_called called).1⟩
  | other i l w moved intact =>
    refine ⟨reached_update walking.reached moved,?_,walking.served⟩
    intro e member
    exact (walking.queued e member).keep (intact e member).1 (intact e member).2

/-- The entry still has its turn before it, or some waiters have been woken. -/
def Awaited (key : BitVec 64) (e : WaitEntry) (s : WakeUp) : Prop :=
  e ∈ s.left ∧ e.Willing key s.eps ∨ ∃ call ∈ s.calls, call.Woken key

theorem awaited_step (living : keyHits key pollFree = false) (walking : Walking k tfile whead key s)
    (steady : ∀ i k, l = .other i k → e.Willing key t.eps) (ok : wakeStep key s l = some t) (awaited : Awaited key e s) :
    Awaited key e t := by
  cases wake_move key s t l ok with
  | call first rest after next called =>
    rcases awaited with ⟨member,willing⟩ | ⟨call,old,wakes⟩
    · by_cases result : (s.eps first.ep).callbackResult first key = 0
      · rw [next] at member
        rcases List.mem_cons.mp member with rfl | later
        · have rep := rep_reached _ (waiting_reached _ (walking.reached e.ep))
          have wakes := willing.wakesUp (walking.queued e (by simp [next])) rep
          exact .inr ⟨_,List.mem_append.mpr (.inr (List.mem_singleton.mpr rfl)),woken_called wakes called⟩
        · obtain ⟨_,events,mtx,waiters⟩ := call_frame living called e.ep
          refine .inl ⟨by simpa [result] using later,?_⟩
          simpa only [WaitEntry.Willing,events,mtx,waiters] using willing
      · have wakes := callbackResult_wakes (walking.queued first (by simp [next])) result
        exact .inr ⟨_,List.mem_append.mpr (.inr (List.mem_singleton.mpr rfl)),woken_called wakes called⟩
    · exact .inr ⟨call,List.mem_append.mpr (.inl old),wakes⟩
  | other i l w moved intact =>
    rcases awaited with ⟨member,_⟩ | woken
    · exact .inl ⟨member,steady i l rfl⟩
    · exact .inr woken

/-- While the walk has entries left, it can go on. -/
theorem walking_goes (walking : Walking k tfile whead key s) (more : s.left ≠ []) : (wakeStep key s .call).isSome = true := by
  obtain ⟨e,rest,next⟩ := List.exists_cons_of_ne_nil more
  have hooked := (walking.queued e (by simp [next])).hooked
  simp [wakeStep,next,WakeUp.call,waitStep,Label.delimits,step,hooked]

end

/-- One wake-up, not POLLFREE, of a queue of exclusive entries, whatever other threads do
meanwhile. It stops only at an entry whose eventpoll has waiters, on which `wake_up_locked`
is called, and whose item is then on the ready list. And if an entry's mask meets the key,
and its eventpoll has waiters and no scan, which other threads do not change, then by its
end the wake-up has called `wake_up_locked` for some eventpoll's waiters. -/
theorem exclusive_wakeup_kept (k : Kernel) (tfile whead : Nat) (key : BitVec 64) (s u : WakeUp) (ls : List WakeLabel)
    (reached : ∀ i, Reachable waitInitial waitStep (s.eps i)) (queued : ∀ e ∈ s.left, e.Queued k tfile whead s.eps)
    (start : s.calls = []) (living : keyHits key pollFree = false) (run : Run (wakeStep key) s ls u) :
    (∀ call ∈ u.calls, call.result ≠ 0 → call.Served key) ∧
    (∀ e ∈ s.left, e.Willing key s.eps →
      Along (wakeStep key) (fun s l => ∀ i k t, l = .other i k → wakeStep key s l = some t → e.Willing key t.eps) s ls →
      u.left = [] → ∃ call ∈ u.calls, call.Woken key) ∧
    (u.left ≠ [] → (wakeStep key u .call).isSome = true) := by
  have first : Walking k tfile whead key s := ⟨reached,queued,by simp [start]⟩
  have kept (s : WakeUp) (l : WakeLabel) (t : WakeUp) (walking : Walking k tfile whead key s)
      (ok : wakeStep key s l = some t) : Walking k tfile whead key t := walking_step living walking ok
  have last : Walking k tfile whead key u :=
    run.keeps (fun _ _ => True) _ (fun s l t walking _ => kept s l t walking)
      (along_of_forall _ (fun _ => True) s ls (fun _ _ => trivial)) first
  refine ⟨last.served,?_,walking_goes last⟩
  intro e member willing along ended
  have ends := run.keeps _ (fun s => Walking k tfile whead key s ∧ Awaited key e s) ?_ along
    ⟨first,.inl ⟨member,willing⟩⟩
  · rcases ends.2 with ⟨inside,_⟩ | woken
    · rw [ended] at inside
      cases inside
    · exact woken
  · rintro s l t ⟨walking,awaited⟩ steady ok
    exact ⟨kept s l t walking ok,awaited_step living walking (fun i k same => steady i k t same ok) ok awaited⟩

def exclusiveIn : EventMask := epollExclusive ||| pollIn ||| pollErr ||| pollHup

/-- An eventpoll with one exclusive item, and one with a thread asleep on it as well. -/
def unwaited : List WaitLabel := (inserting 0 exclusiveIn 0).map .file
def waited : List WaitLabel := unwaited ++ [.epollWait 0 1 (-1),.fetch 0]

def herd : WakeUp :=
  ⟨fun i => final waitStep unattended (if i = 1 then waited else unwaited),[⟨0,0,0⟩,⟨1,0,0⟩],[]⟩

theorem exclusive_wakeup_kept_herd :
    (final (wakeStep 1) herd [.call,.call]).calls.map Call.result = [0,1] ∧
    (((final (wakeStep 1) herd [.call,.call]).eps 1).threads 0).pc = .woken ∧
    ∃ call ∈ (final (wakeStep 1) herd [.call,.call]).calls, call.Woken 1 := by
  have reached (i : Nat) : Reachable waitInitial waitStep (herd.eps i) := by
    refine ⟨unattended,_,⟨zeroed_epAlloc,rfl,fun _ => rfl⟩,final_run waitStep unattended _ ?_⟩
    split <;> decide
  have queued (e : WaitEntry) (member : e ∈ herd.left) :
      e.Queued ⟨fun _ => false,fun _ => true,id,fun _ _ _ => none,fun _ _ => true⟩ 0 0 herd.eps := by
    rcases List.mem_cons.mp member with rfl | later
    · exact ⟨by decide,epollExclusive ||| pollIn,by decide,by decide,by decide⟩
    · cases List.mem_singleton.mp later
      exact ⟨by decide,epollExclusive ||| pollIn,by decide,by decide,by decide⟩
  exact ⟨by decide,by decide,(exclusive_wakeup_kept _ 0 0 1 herd _ [.call,.call] reached queued rfl (by decide)
    (final_run _ _ _ (by decide))).2.1 ⟨1,0,0⟩ (by decide) ⟨.inr (by decide),by decide,by decide⟩
    ⟨fun _ _ _ same => (nomatch same),fun _ _ => ⟨fun _ _ _ same => (nomatch same),fun _ _ => trivial⟩⟩ (by decide)⟩

end Reactor.Epoll
