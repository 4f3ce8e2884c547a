import Mathlib.Data.List.Count
import Reactor.Epoll.Item

/-! What happens to the events of one item over whole runs: an accepted callback
is not lost, a one-shot item is delivered once, an edge is reported once. -/
namespace Reactor.Epoll
open Reactor.Transition Reactor.Threaded

def View.Pending (i : Nat) (v : View) : Prop :=
  v.linked = true ∨ v.chained = true ∨ v.stage = some (.poll i)

theorem pending_accepted (i : Nat) (v w : View) (step : ItemStep i v w .accepted) : w.Pending i := by
  cases step with
  | chain during off next => exact .inr (.inl (by rw [next]))
  | queue outside off next => exact .inl (by rw [next])
  | already waiting next =>
    subst next
    rcases waiting with ⟨_,chained⟩ | ⟨_,linked⟩
    · exact .inr (.inl chained)
    · exact .inl linked

theorem pending_step (i : Nat) (v w : View) (event : ItemEvent) (ok : ViewOk i v)
    (step : ItemStep i v w event) (unpolled : ∀ mask, event ≠ .polled mask) (kept : event ≠ .dropped)
    (pending : v.Pending i) : w.Pending i := by
  have other {pc : ProcPc} (here : v.stage = some pc) (differs : pc ≠ .poll i) :
      v.linked = true ∨ v.chained = true := by
    rcases pending with linked | chained | stage
    · exact .inl linked
    · exact .inr chained
    · exact absurd (Option.some.inj (here.symm.trans stage)) differs
  cases step with
  | rest raised next => rw [next]; exact pending
  | choose here on during next => exact .inl (by rw [next]; exact on)
  | relax here next =>
    rw [next]
    exact (other here (by simp)).imp_right .inl
  | unlink here next => exact .inr (.inr (by rw [next]))
  | relink here next => exact .inl (by rw [next])
  | restay here next | settle here next =>
    rw [next]
    exact (other here (by simp)).imp_right .inl
  | level here reusable triggered next =>
    rw [next]
    exact (other here (by simp)).imp_right .inl
  | requeue here next => exact .inl (by rw [next])
  | stay here next =>
    rw [next]
    exact (other here (by simp)).imp_right .inl
  | chain during off next => exact .inr (.inl (by rw [next]))
  | queue outside off next => exact .inl (by rw [next])
  | already waiting next => rw [next]; exact pending
  | idle mask here nothing next => exact absurd rfl (unpolled mask)
  | ready mask here something next => exact absurd rfl (unpolled mask)
  | deliver revents here next | fault revents here next =>
    rw [next]
    exact (other here (by simp)).imp_right .inl
  | start outside next => rw [next]; exact pending
  | finish during here next =>
    rw [next]
    rcases pending with linked | chained | stage
    · exact .inl (by simp [linked])
    · exact .inl (by simp [chained])
    · rw [here] at stage
      cases stage
  | begin events absent outside next =>
    rcases pending with linked | chained | stage
    · rw [ok.linked linked] at absent
      cases absent
    · rw [(ok.chained chained).1] at absent
      cases absent
    · rw [ok.stage outside] at stage
      cases stage
  | queueNew outside off next => exact .inl (by rw [next])
  | drop outside next => exact absurd rfl kept
  | modify events outside next => rw [next]; exact pending

/-- Once a callback has been accepted, the item stays on `rdllist`, `txlist` or the
overflow chain, or is the one in hand that is polled next, whatever callbacks and
scans do, until it is polled. Outside a scan this means `rdllist`. The only other
end is that its own `ep_insert` fails and frees it. -/
theorem accepted_event_kept (ep t u : Eventpoll) (i entry : Nat) (key : BitVec 64) (ls : List Label)
    (reached : Reached ep) (accepted : ep.accepts i key = true)
    (called : step ep (.callback i entry key) = some t) (run : Run step t ls u)
    (unpolled : ∀ mask, Label.poll i mask ∉ ls) (kept : Label.insertDrop i ∉ ls) :
    (i ∈ u.rdllist ∨ i ∈ u.txlist ∨ i ∈ u.overflow ∨ ∃ scan, u.mtx = .scan scan ∧ scan.pc = .poll i) ∧
      (u.mtx.isScan = false → i ∈ u.rdllist) := by
  have rep := rep_reached ep reached
  have first : (view t i).Pending i := by
    have moved := item_step ep t _ i rep called
    simp only [itemEvent,accepted,and_self,if_true] at moved
    exact pending_accepted i _ _ moved
  have last : Rep u ∧ (view u i).Pending i := by
    refine run.keeps (fun _ l => (∀ mask, l ≠ .poll i mask) ∧ l ≠ .insertDrop i)
      (fun s => Rep s ∧ (view s i).Pending i) ?_ ?_ ⟨rep_step ep t _ rep called,first⟩
    · rintro s l s' ⟨rep,pending⟩ ⟨noPoll,noDrop⟩ ok
      refine ⟨rep_step s s' l rep ok,
        pending_step i _ _ _ (view_ok s i rep) (item_step s s' l i rep ok) ?_ ?_ pending⟩
      · exact fun mask event => noPoll mask (itemEvent_polled event)
      · exact fun event => noDrop (itemEvent_dropped event)
    · apply along_of_forall step _ t ls
      intro l member
      exact ⟨fun mask same => unpolled mask (same ▸ member),fun same => kept (same ▸ member)⟩
  obtain ⟨rep,pending⟩ := last
  have outside (idle : u.mtx.isScan = false) : i ∈ u.rdllist := by
    have ok := view_ok u i rep
    rcases pending with linked | chained | stage
    · rw [view_linked,(rep.overflow.resting idle).2.1,List.append_nil] at linked
      exact linked
    · have busy := (ok.chained chained).2
      rw [show (view u i).scanning = false from idle] at busy
      cases busy
    · rw [ok.stage idle] at stage
      cases stage
  refine ⟨?_,outside⟩
  rcases pending with linked | chained | stage
  · rcases List.mem_append.mp ((view_linked u i).mp linked) with ready | tx
    · exact .inl ready
    · exact .inr (.inl tx)
  · exact .inr (.inr (.inl ((overflow_member u rep i).mpr chained)))
  · exact .inr (.inr (.inr (stage_held stage)))

def copying (epi : Nat) (mask : EventMask) : List Label :=
  [.scanStart 1,.proc,.proc,.proc,.poll epi mask,.copy epi]

theorem accepted_event_kept_copied :
    (after (inserting 7 (pollIn ||| epollEt) pollIn ++ copying 7 pollIn)).accepts 7 0 = true ∧
      7 ∈ (after (inserting 7 (pollIn ||| epollEt) pollIn ++ copying 7 pollIn ++ [.callback 7 0 0] ++
        [.proc,.proc,.scanEnd])).rdllist :=
  ⟨by decide,(accepted_event_kept _ _ _ 7 0 0 _ (after_reached _ (by decide)) (by decide)
    (after_step _ _ (by decide)) (after_run _ _ (by decide)) (by simp) (by simp)).2 (by decide)⟩

structure View.OneShot (i : Nat) (armed : EventMask) (v : View) : Prop where
  oneshot : hits v.events epollOneshot = true
  original : hits v.events (~~~epPrivateBits) = true → v.events = armed
  copying : ∀ revents, v.stage = some (.copy i revents) →
    revents &&& v.events ≠ 0 ∧ revents &&& epPrivateBits = 0

/-- One while the mask is armed and the delivery has not begun to disarm it. -/
def View.shots (i : Nat) (v : View) : Nat :=
  if hits v.events (~~~epPrivateBits) = true ∧ v.stage ≠ some (.settle i) then 1 else 0

private theorem shots_le {i : Nat} {v w : View} (events : w.events = v.events)
    (before : v.stage ≠ some (.settle i)) : w.shots i ≤ v.shots i := by
  unfold View.shots
  rw [events]
  split
  next armed => rw [if_pos ⟨armed.1,before⟩]
  next => exact Nat.zero_le _

private theorem oneShot_moved {i : Nat} {armed : EventMask} {v w : View} (shot : v.OneShot i armed)
    (events : w.events = v.events) (before : v.stage ≠ some (.settle i))
    (stage : ∀ revents, w.stage ≠ some (.copy i revents)) :
    w.OneShot i armed ∧ w.shots i ≤ v.shots i := by
  refine ⟨⟨by rw [events]; exact shot.oneshot,by rw [events]; exact shot.original,?_⟩,
    shots_le events before⟩
  intro revents here
  exact absurd here (stage revents)

private theorem oneShot_still {i : Nat} {armed : EventMask} {v w : View} (shot : v.OneShot i armed)
    (events : w.events = v.events) (stage : w.stage = v.stage) :
    w.OneShot i armed ∧ w.shots i ≤ v.shots i := by
  refine ⟨⟨by rw [events]; exact shot.oneshot,by rw [events]; exact shot.original,?_⟩,?_⟩
  · rw [events,stage]
    exact shot.copying
  · unfold View.shots
    rw [events,stage]

def ItemEvent.deliveries : ItemEvent → Nat
  | .delivered => 1
  | _ => 0

theorem oneShot_step (i : Nat) (armed : EventMask) (v w : View) (event : ItemEvent)
    (step : ItemStep i v w event) (clean : ∀ mask, event = .polled mask → mask &&& epPrivateBits = 0)
    (new : ∀ events, event ≠ .begun events) (unmodified : ∀ events, event ≠ .modified events)
    (shot : v.OneShot i armed) : w.OneShot i armed ∧ event.deliveries + w.shots i ≤ v.shots i := by
  have none (free : event.deliveries = 0) (quiet : w.OneShot i armed ∧ w.shots i ≤ v.shots i) :
      w.OneShot i armed ∧ event.deliveries + w.shots i ≤ v.shots i := by
    rw [free,Nat.zero_add]
    exact quiet
  cases step with
  | rest raised next => exact none rfl (oneShot_still shot (by rw [next]) (by rw [next]))
  | choose here on during next =>
    exact none rfl (oneShot_moved shot (by rw [next]) (by simp [here]) (by simp [next]))
  | relax here next | unlink here next | relink here next | restay here next | requeue here next
  | stay here next =>
    exact none rfl (oneShot_moved shot (by rw [next]) (by simp [here]) (by simp [next]))
  | settle here next =>
    subst next
    have events : settled v.events = v.events &&& epPrivateBits := by simp [settled,shot.oneshot]
    have disarmed : hits (settled v.events) (~~~epPrivateBits) = false := by
      rw [events]
      exact not_hits_private v.events
    refine none rfl ⟨⟨?_,?_,by simp⟩,by simp [View.shots,disarmed]⟩
    · rw [hits_iff,settled_private v.events epollOneshot (by decide)]
      exact (hits_iff _ _).mp shot.oneshot
    · intro hit
      rw [disarmed] at hit
      cases hit
  | level here reusable triggered next =>
    rw [shot.oneshot] at reusable
    cases reusable
  | chain during off next => exact none rfl (oneShot_still shot (by rw [next]) (by rw [next]))
  | queue outside off next | queueNew outside off next =>
    exact none rfl (oneShot_still shot (by rw [next]) (by rw [next]))
  | already waiting next => exact none rfl (oneShot_still shot (by rw [next]) (by rw [next]))
  | idle mask here nothing next =>
    exact none rfl (oneShot_moved shot (by rw [next]) (by simp [here]) (by simp [next]))
  | ready mask here something next =>
    have fewer : w.shots i ≤ v.shots i := shots_le (by rw [next]) (by simp [here])
    subst next
    refine none rfl ⟨⟨shot.oneshot,shot.original,?_⟩,fewer⟩
    intro revents same
    have same : mask &&& v.events = revents := by simpa using same
    subst same
    refine ⟨by rw [BitVec.and_assoc,BitVec.and_self]; exact something,?_⟩
    rw [BitVec.and_comm mask,BitVec.and_assoc,clean mask rfl]
    simp
  | deliver revents here next =>
    obtain ⟨meets,outside⟩ := shot.copying revents here
    have armedNow := hits_of_clean revents v.events outside meets
    refine ⟨(oneShot_moved shot (by rw [next]) (by simp [here]) (by simp [next])).1,?_⟩
    simp [ItemEvent.deliveries,View.shots,armedNow,here,next]
  | fault revents here next =>
    exact none rfl (oneShot_moved shot (by rw [next]) (by simp [here]) (by simp [next]))
  | start outside next => exact none rfl (oneShot_still shot (by rw [next]) (by rw [next]))
  | finish during here next => exact none rfl (oneShot_still shot (by rw [next]) (by rw [next]))
  | begin events absent outside next => exact absurd rfl (new events)
  | drop outside next => exact none rfl (oneShot_still shot (by rw [next]) (by rw [next]))
  | modify events outside next => exact absurd rfl (unmodified events)

/-- The step that arms an item: EPOLL_CTL_ADD or EPOLL_CTL_MOD with this mask. -/
def Label.arms (i : Nat) (events : EventMask) : Label → Prop
  | .insertBegin epi _ word _ _ => epi = i ∧ word = events
  | .modify epi word _ => epi = i ∧ word = events
  | _ => False

theorem itemEvent_arms (ep : Eventpoll) (l : Label) (i : Nat) (events : EventMask) (arms : l.arms i events) :
    itemEvent ep l i = .begun events ∨ itemEvent ep l i = .modified events := by
  cases l with
  | insertBegin epi ffd word data fullCheck => simp [itemEvent,arms.1,arms.2]
  | modify epi word data => simp [itemEvent,arms.1,arms.2]
  | _ => exact absurd arms (by simp [Label.arms])

theorem oneShot_armed (i : Nat) (armed : EventMask) (v w : View) (event : ItemEvent) (ok : ViewOk i v)
    (step : ItemStep i v w event) (arms : event = .begun armed ∨ event = .modified armed)
    (oneshot : hits armed epollOneshot = true) : w.OneShot i armed := by
  rcases arms with rfl | rfl <;> cases step
  case inl.begin absent outside next =>
    subst next
    exact ⟨oneshot,fun _ => rfl,by simp [ok.stage outside]⟩
  case inr.modify outside next =>
    subst next
    exact ⟨oneshot,fun _ => rfl,by simp [ok.stage outside]⟩

private theorem itemEvent_unarmed (ep : Eventpoll) (l : Label) (i : Nat) (once : ∀ word, ¬l.arms i word) :
    (∀ events, itemEvent ep l i ≠ .begun events) ∧ ∀ events, itemEvent ep l i ≠ .modified events := by
  constructor
  · intro events event
    obtain ⟨ffd,data,fullCheck,rfl⟩ := itemEvent_begun event
    exact once events ⟨rfl,rfl⟩
  · intro events event
    obtain ⟨data,rfl⟩ := itemEvent_modified event
    exact once events ⟨rfl,rfl⟩

theorem itemEvent_deliveries (ep : Eventpoll) (l : Label) (i : Nat) :
    (itemEvent ep l i).deliveries = if l = .copy i then 1 else 0 := by
  by_cases delivered : itemEvent ep l i = .delivered
  · rw [delivered,if_pos (itemEvent_delivered.mp delivered)]
    rfl
  · rw [if_neg (mt itemEvent_delivered.mpr delivered)]
    cases event : itemEvent ep l i <;> simp_all [ItemEvent.deliveries]

private theorem oneShot_kept (i : Nat) (armed : EventMask) (s t : Eventpoll) (l : Label) (rep : Rep s)
    (ok : step s l = some t) (once : ∀ word, ¬l.arms i word)
    (clean : ∀ epi mask, l = .poll epi mask → mask &&& epPrivateBits = 0)
    (shot : (view s i).OneShot i armed) :
    (view t i).OneShot i armed ∧
      (if l = .copy i then 1 else 0) + (view t i).shots i ≤ (view s i).shots i := by
  obtain ⟨new,unmodified⟩ := itemEvent_unarmed s l i once
  rw [← itemEvent_deliveries s l i]
  apply oneShot_step i armed _ _ _ (item_step s t l i rep ok) ?_ new unmodified shot
  exact fun mask event => clean i mask (itemEvent_polled event)

private theorem oneShot_fault (i : Nat) (armed : EventMask) (s t : Eventpoll) (rep : Rep s)
    (ok : step s (.fault i) = some t) (shot : (view s i).OneShot i armed) :
    t.events i = armed ∧ hits (t.events i) (~~~epPrivateBits) = true := by
  have moved := item_step s t _ i rep ok
  simp only [itemEvent,if_true] at moved
  cases moved with
  | fault revents here next =>
    obtain ⟨meets,outside⟩ := shot.copying revents here
    have armedNow := hits_of_clean revents _ outside meets
    have same : t.events i = s.events i := congrArg View.events next
    rw [same]
    exact ⟨shot.original armedNow,armedNow⟩

/-- An item armed with EPOLLONESHOT is copied out and counted at most once until it
is armed again, whatever callbacks and scans do; a copy that faults leaves the mask
as it was armed. Files never report the private bits. -/
theorem oneshot_delivered_once (ep t u : Eventpoll) (i : Nat) (l : Label) (events : EventMask)
    (ls : List Label) (reached : Reached ep) (arms : l.arms i events)
    (oneshot : hits events epollOneshot = true) (armed : step ep l = some t) (run : Run step t ls u)
    (once : ∀ k ∈ ls, ∀ word, ¬k.arms i word)
    (clean : ∀ epi mask, Label.poll epi mask ∈ ls → mask &&& epPrivateBits = 0) :
    ls.count (.copy i) ≤ 1 ∧
      ∀ before later v w, ls = before ++ .fault i :: later → Run step t before v →
        step v (.fault i) = some w → w.events i = events ∧ hits (w.events i) (~~~epPrivateBits) = true := by
  have rep := rep_reached ep reached
  let holds (s : Eventpoll) : Prop := Rep s ∧ (view s i).OneShot i events
  let cond (_ : Eventpoll) (k : Label) : Prop :=
    (∀ word, ¬k.arms i word) ∧ ∀ epi mask, k = .poll epi mask → mask &&& epPrivateBits = 0
  have first : holds t := ⟨rep_step ep t l rep armed,
    oneShot_armed i events _ _ _ (view_ok ep i rep) (item_step ep t l i rep armed)
      (itemEvent_arms ep l i events arms) oneshot⟩
  have kept (s : Eventpoll) (k : Label) (s' : Eventpoll) (before : holds s) (under : cond s k)
      (ok : step s k = some s') : holds s' :=
    ⟨rep_step s s' k before.1 ok,(oneShot_kept i events s s' k before.1 ok under.1 under.2 before.2).1⟩
  have along (part : List Label) (inside : ∀ k ∈ part, k ∈ ls) : Along step cond t part := by
    apply along_of_forall step _ t part
    exact fun k member => ⟨once k (inside k member),
      fun epi mask same => clean epi mask (same ▸ inside k member)⟩
  constructor
  · have paid := run.account cond holds (fun _ k => if k = .copy i then 1 else 0) (fun _ _ => 0)
      (fun s => (view s i).shots i) kept
      (fun s k s' before under ok => by
        simpa using (oneShot_kept i events s s' k before.1 ok under.1 under.2 before.2).2)
      (along ls fun _ member => member) first
    have free := run.tally_zero
    have single : (view t i).shots i ≤ 1 := by
      unfold View.shots
      split <;> omega
    rw [run.tally_count,free] at paid
    omega
  · intro before later v w split path ok
    obtain ⟨repV,shot⟩ := path.keeps cond holds kept (along before fun k member => by simp [split,member]) first
    exact oneShot_fault i events v w repV ok shot

def oneshotIn : EventMask := pollIn ||| epollOneshot

def oneshotLabels : List Label :=
  (inserting 0 oneshotIn pollIn).tail ++
    [.scanStart 1,.proc,.proc,.proc,.poll 0 pollIn,.fault 0,.proc,.proc,.scanEnd,
      .scanStart 1,.proc,.proc,.proc,.poll 0 pollIn,.callback 0 0 1,.copy 0,.proc,.proc,.scanEnd,
      .scanStart 1,.proc,.proc,.proc,.poll 0 pollIn,.proc,.scanEnd]

theorem oneshot_delivered_once_faulted : oneshotLabels.count (.copy 0) ≤ 1 ∧
    ∀ before later v w, oneshotLabels = before ++ .fault 0 :: later →
      Run step (after [.insertBegin 0 (0,0) oneshotIn 0 false]) before v →
      step v (.fault 0) = some w → w.events 0 = oneshotIn ∧ hits (w.events 0) (~~~epPrivateBits) = true :=
  oneshot_delivered_once zeroed _ _ 0 (.insertBegin 0 (0,0) oneshotIn 0 false) oneshotIn oneshotLabels
    (.start zeroed_epAlloc) ⟨rfl,rfl⟩ (by decide) rfl
    (after_run [.insertBegin 0 (0,0) oneshotIn 0 false] oneshotLabels (by decide))
    (by simp [oneshotLabels,inserting,Label.arms])
    (by
      simp only [oneshotLabels,inserting,List.tail_cons,List.mem_append,List.mem_cons,List.not_mem_nil]
      rintro epi mask member
      have same : epi = 0 ∧ mask = pollIn := by simpa using member
      rw [same.2]
      decide)

/-- The item a scan has unlinked and neither delivered, dropped nor put back. -/
def ProcPc.undelivered : ProcPc → Option Nat
  | .poll epi | .copy epi _ | .faulted epi => some epi
  | _ => none

def Eventpoll.processing (ep : Eventpoll) (i : Nat) : Bool :=
  match ep.mtx with
  | .scan scan => scan.pc.undelivered = some i
  | _ => false

def acceptances (i : Nat) (ep : Eventpoll) : Label → Nat
  | .callback epi _ key => if epi = i ∧ ep.accepts epi key = true then 1 else 0
  | _ => 0

def insertQueueings (i : Nat) (ep : Eventpoll) : Label → Nat
  | .insertPublish epi => if epi = i ∧ queuesAtInsert ep = true then 1 else 0
  | _ => 0

def ItemEvent.edges : ItemEvent → Nat
  | .accepted | .queuedNew => 1
  | _ => 0

theorem itemEvent_edges (ep : Eventpoll) (l : Label) (i : Nat) :
    (itemEvent ep l i).edges = acceptances i ep l + insertQueueings i ep l := by
  cases l <;> simp only [itemEvent,acceptances,insertQueueings] <;> (try split) <;> simp [ItemEvent.edges]

structure View.Edge (i : Nat) (v : View) : Prop where
  edge : hits v.events epollEt = true
  once : v.stage ≠ some (.requeue i)

/-- How many deliveries the item's places on the lists and in the scan can still give. -/
def View.owed (v : View) : Nat :=
  v.linked.toNat + v.chained.toNat + (v.stage.bind ProcPc.undelivered).isSome.toNat

private theorem owed_eq (v : View) (stage : Option ProcPc) (here : v.stage = stage) :
    v.owed = v.linked.toNat + v.chained.toNat + (stage.bind ProcPc.undelivered).isSome.toNat := by
  rw [View.owed,here]

theorem edge_step (i : Nat) (v w : View) (event : ItemEvent) (ok : ViewOk i v) (step : ItemStep i v w event)
    (new : ∀ events, event ≠ .begun events) (unmodified : ∀ events, event ≠ .modified events)
    (edge : v.Edge i) : w.Edge i ∧ event.deliveries + w.owed ≤ event.edges + v.owed := by
  have quiet (deliveries : event.deliveries = 0) (fewer : w.owed ≤ v.owed) :
      event.deliveries + w.owed ≤ event.edges + v.owed := by omega
  cases step with
  | rest raised next =>
    rw [next]
    exact ⟨{edge with},le_refl _⟩
  | choose here on during next | relax here next | restay here next | stay here next =>
    subst next
    refine ⟨⟨edge.edge,by simp⟩,quiet rfl ?_⟩
    rw [owed_eq v _ here]
    exact le_refl _
  | unlink here next =>
    subst next
    refine ⟨⟨edge.edge,by simp⟩,quiet rfl ?_⟩
    rw [owed_eq v _ here,ok.chosen here]
    simp [View.owed,ProcPc.undelivered,Nat.add_comm]
  | relink here next =>
    subst next
    refine ⟨⟨edge.edge,by simp⟩,quiet rfl ?_⟩
    rw [owed_eq v _ here]
    simp only [View.owed,ProcPc.undelivered,Option.bind_some,Option.isSome_none,Option.isSome_some,
      Bool.toNat_true,Bool.toNat_false]
    omega
  | settle here next =>
    have inside : hits (settled v.events) epollEt = true := by
      rw [hits_iff,settled_private v.events epollEt (by decide)]
      exact (hits_iff _ _).mp edge.edge
    subst next
    refine ⟨⟨inside,by simp⟩,quiet rfl ?_⟩
    rw [owed_eq v _ here]
    exact le_refl _
  | level here reusable triggered next =>
    rw [edge.edge] at triggered
    cases triggered
  | requeue here next => exact absurd here edge.once
  | chain during off next =>
    subst next
    refine ⟨{edge with},?_⟩
    simp only [View.owed,ItemEvent.deliveries,ItemEvent.edges,off,Bool.toNat_true,Bool.toNat_false]
    omega
  | queue outside off next | queueNew outside off next =>
    subst next
    refine ⟨{edge with},?_⟩
    simp only [View.owed,ItemEvent.deliveries,ItemEvent.edges,off,Bool.toNat_true,Bool.toNat_false]
    omega
  | already waiting next =>
    subst next
    exact ⟨edge,by simp [ItemEvent.deliveries]⟩
  | idle mask here nothing next | ready mask here something next | fault revents here next =>
    subst next
    refine ⟨⟨edge.edge,by simp⟩,quiet rfl ?_⟩
    rw [owed_eq v _ here]
    simp [View.owed,ProcPc.undelivered]
  | deliver revents here next =>
    subst next
    refine ⟨⟨edge.edge,by simp⟩,?_⟩
    rw [owed_eq v _ here]
    simp [View.owed,ItemEvent.deliveries,ItemEvent.edges,ProcPc.undelivered,Nat.add_comm]
  | start outside next =>
    subst next
    exact ⟨{edge with},le_refl _⟩
  | finish during here next =>
    subst next
    refine ⟨{edge with},quiet rfl ?_⟩
    have joined : (v.linked || v.chained).toNat ≤ v.linked.toNat + v.chained.toNat := by
      cases v.linked <;> cases v.chained <;> decide
    simp only [View.owed,Bool.toNat_false]
    omega
  | begin events absent outside next => exact absurd rfl (new events)
  | drop outside next =>
    subst next
    exact ⟨{edge with},quiet rfl (by simp [View.owed])⟩
  | modify events outside next => exact absurd rfl (unmodified events)

def Eventpoll.insertingItem (ep : Eventpoll) (i : Nat) : Bool :=
  match ep.mtx with
  | .insert insert => insert.epi = i
  | _ => false

private theorem inserting_once (i : Nat) (s t : Eventpoll) (l : Label) (ok : step s l = some t)
    (once : ∀ word, ¬l.arms i word) :
    insertQueueings i s l + (t.insertingItem i).toNat ≤ (s.insertingItem i).toNat := by
  have published (insert : Insert) (held : s.mtx = .insert insert) (free : t.mtx = .free) :
      insertQueueings i s (.insertPublish insert.epi) + (t.insertingItem i).toNat ≤
        (s.insertingItem i).toNat := by
    simp only [insertQueueings,Eventpoll.insertingItem,held,free]
    by_cases same : insert.epi = i
    · simp only [same,true_and,decide_true,Bool.toNat_true,Bool.toNat_false]
      split <;> omega
    · simp [same]
  cases step_move s t l ok with
  | refused | chained | queued | hooked | unhooked | modify => exact Nat.le_of_eq (Nat.zero_add _)
  | scanStart | finish | take | relax | unlink | relink | restay | settle | requeue | stay | idle | ready
  | copy | fault | scanEnd | dropped | unqueued =>
    exact Nat.zero_le _
  | insertBegin epi ffd events data fullCheck free fresh =>
    have other : epi ≠ i := fun same => once events ⟨same,rfl⟩
    simp [insertQueueings,Eventpoll.insertingItem,Eventpoll.insertBegin,other]
  | insertPoll insert _ held | linked insert _ held | unhookable insert _ held | unregister insert held
  | rejected insert _ held | checked insert _ _ held =>
    simp [insertQueueings,Eventpoll.insertingItem,Eventpoll.withInsertPc,held]
  | published insert revents held | queuedNew insert revents held => exact published insert held rfl

private theorem edge_kept (i : Nat) (s t : Eventpoll) (l : Label) (rep : Rep s) (ok : step s l = some t)
    (once : ∀ word, ¬l.arms i word) (edge : (view s i).Edge i) :
    (view t i).Edge i ∧ (if l = .copy i then 1 else 0) + (view t i).owed ≤
      acceptances i s l + insertQueueings i s l + (view s i).owed := by
  obtain ⟨new,unmodified⟩ := itemEvent_unarmed s l i once
  rw [← itemEvent_deliveries s l i,← itemEvent_edges s l i]
  exact edge_step i _ _ _ (view_ok s i rep) (item_step s t l i rep ok) new unmodified edge

theorem processing_stage (ep : Eventpoll) (i : Nat) (hand : ep.processing i = true) :
    ((view ep i).stage.bind ProcPc.undelivered).isSome = true := by
  unfold Eventpoll.processing at hand
  split at hand
  next scan held =>
    have here : scan.pc.undelivered = some i := by simpa using hand
    have about : scan.pc.item = some i := by
      cases pc : scan.pc <;> simp_all [ProcPc.undelivered,ProcPc.item]
    simp [view,stageOf,held,about,here]
  next => cases hand

private theorem owed_places (ep : Eventpoll) (i : Nat) (rep : Rep ep) :
    (if i ∈ ep.rdllist ∨ i ∈ ep.txlist ∨ ep.processing i = true then 1 else 0) +
      (if i ∈ ep.overflow then 1 else 0) ≤ (view ep i).owed := by
  have chained : (if i ∈ ep.overflow then 1 else 0) ≤ (view ep i).chained.toNat := by
    split
    next member => rw [(overflow_member ep rep i).mp member]; decide
    next => exact Nat.zero_le _
  have listed : (if i ∈ ep.rdllist ∨ i ∈ ep.txlist ∨ ep.processing i = true then 1 else 0) ≤
      (view ep i).linked.toNat + ((view ep i).stage.bind ProcPc.undelivered).isSome.toNat := by
    split
    next somewhere =>
      rcases or_assoc.mpr somewhere with lists | hand
      · rw [(view_linked ep i).mpr (List.mem_append.mpr lists)]
        exact Nat.le_add_right 1 _
      · rw [processing_stage ep i hand]
        exact Nat.le_add_left 1 _
    next => exact Nat.zero_le _
  rw [View.owed]
  omega

/-- Over any run from the insertion of an edge-triggered item, what was delivered,
with one for the item being listed or in hand and one for it being chained, is at
most the accepted callbacks plus the queueing by `ep_insert`, which is at most one. -/
theorem edge_triggered_accounted (ep t u : Eventpoll) (i : Nat) (ffd : Nat × Int) (events : EventMask)
    (data : BitVec 64) (fullCheck : Bool) (ls : List Label) (reached : Reached ep)
    (edge : hits events epollEt = true)
    (begun : step ep (.insertBegin i ffd events data fullCheck) = some t) (run : Run step t ls u)
    (once : ∀ k ∈ ls, ∀ word, ¬k.arms i word) :
    ls.count (.copy i) + (if i ∈ u.rdllist ∨ i ∈ u.txlist ∨ u.processing i = true then 1 else 0) +
        (if i ∈ u.overflow then 1 else 0) ≤
      tally step (acceptances i) t ls + tally step (insertQueueings i) t ls ∧
      tally step (insertQueueings i) t ls ≤ 1 := by
  have rep := rep_reached ep reached
  let holds (s : Eventpoll) : Prop := Rep s ∧ (view s i).Edge i
  let cond (_ : Eventpoll) (k : Label) : Prop := ∀ word, ¬k.arms i word
  have along : Along step cond t ls := along_of_forall step _ t ls once
  have kept (s : Eventpoll) (k : Label) (s' : Eventpoll) (before : holds s) (under : cond s k)
      (ok : step s k = some s') : holds s' :=
    ⟨rep_step s s' k before.1 ok,(edge_kept i s s' k before.1 ok under before.2).1⟩
  obtain ⟨first,nothing⟩ : holds t ∧ (view t i).owed = 0 := by
    have ok := view_ok ep i rep
    have moved := item_step ep t _ i rep begun
    simp only [itemEvent,if_true] at moved
    cases moved with
    | begin events absent outside next =>
      rw [next]
      refine ⟨⟨rep_step ep t _ rep begun,?_⟩,by simp [View.owed,ok.stage outside]⟩
      rw [next]
      exact ⟨edge,by simp [ok.stage outside]⟩
  have paid := run.account cond holds (fun _ k => if k = .copy i then 1 else 0)
    (fun s k => acceptances i s k + insertQueueings i s k) (fun s => (view s i).owed) kept
    (fun s k s' before under ok => (edge_kept i s s' k before.1 ok under before.2).2) along first
  rw [run.tally_count,run.tally_add,nothing,Nat.add_zero] at paid
  have places := owed_places u i (run.keeps cond holds kept along first).1
  have single := run.account cond (fun _ => True) (insertQueueings i) (fun _ _ => 0)
    (fun s => (s.insertingItem i).toNat) (fun _ _ _ _ _ _ => trivial)
    (fun s k s' _ under ok => by simpa using inserting_once i s s' k ok under) along trivial
  have most : (t.insertingItem i).toNat ≤ 1 := Bool.toNat_le _
  rw [run.tally_zero] at single
  exact ⟨by omega,by omega⟩

/-- An edge-triggered item 0, ready when added, called back twice in the scan that
delivers it: the second delivery is the one the callbacks pay for. -/
def edgeLabels : List Label :=
  (inserting 0 (pollIn ||| epollEt) pollIn).tail ++
    [.scanStart 2,.proc,.proc,.callback 0 0 1,.proc,.poll 0 pollIn,.callback 0 0 1,.copy 0,.proc,.proc,
      .scanEnd,.scanStart 2,.proc,.proc,.proc,.poll 0 pollIn,.copy 0,.proc]

theorem edge_triggered_accounted_twice :
    let begun := after [.insertBegin 0 (0,0) (pollIn ||| epollEt) 0 false]
    edgeLabels.count (.copy 0) + 0 + 0 ≤
        tally step (acceptances 0) begun edgeLabels + tally step (insertQueueings 0) begun edgeLabels ∧
      tally step (insertQueueings 0) begun edgeLabels ≤ 1 :=
  edge_triggered_accounted zeroed _ _ 0 (0,0) (pollIn ||| epollEt) 0 false edgeLabels
    (.start zeroed_epAlloc) (by decide) rfl
    (after_run [.insertBegin 0 (0,0) (pollIn ||| epollEt) 0 false] edgeLabels (by decide))
    (by simp [edgeLabels,inserting,Label.arms])

end Reactor.Epoll
