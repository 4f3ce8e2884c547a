import Reactor.Net.TimerQueue
import Mathlib.Data.List.Nodup
import Mathlib.Data.List.Perm.Basic

/-! Who owns a timer. A timer given to `addTimerInLoop` is in `timers_` or in the hand of
the loop thread, which is the expired batch most of the time, until it is deleted; the
two sets hold the same timers. Every operation moves timers from one place to the
other, makes one or deletes one. -/
namespace Reactor.Net
open Reactor.Transition

def TimerQueue.pointers (q : TimerQueue) (hand : List Entry) : List Nat :=
  q.timers.toList.map Entry.timer ++ hand.map Entry.timer

/-- The numbers of timers: each timer has its own, also after it is deleted. -/
structure Numbered (q : TimerQueue) : Prop where
  bounds : ∀ p t, q.heap p = some t → p < uintptrMax ∧ t.sequence ≤ q.numCreated
  distinct : ∀ p r t u, q.heap p = some t → q.heap r = some u → t.sequence = u.sequence → p = r
  logged : ∀ a ∈ q.inserted, a.sequence ≤ q.numCreated ∧
    (a ∉ q.deleted → ∃ t, q.heap a.timer = some t ∧ t.sequence = a.sequence)
  gone : ∀ a ∈ q.deleted, a.sequence ≤ q.numCreated ∧ ∀ p t, q.heap p = some t → t.sequence ≠ a.sequence
  once : (q.deleted.map ActiveTimer.sequence).Nodup

/-- The two sets hold the same timers; with the timers in hand these are the live ones. -/
structure Held (q : TimerQueue) (hand : List Entry) : Prop where
  sizes : q.timers.size = q.activeTimers.size
  actives : ∀ a, a ∈ q.activeTimers ↔ ∃ e ∈ q.timers, ∃ t, q.heap e.timer = some t ∧ a = ⟨e.timer,t.sequence⟩
  keyed : ∀ e ∈ q.timers, ∃ t, q.heap e.timer = some t ∧ t.expiration = e.expiration
  pointers : (q.pointers hand).Nodup
  live : ∀ p, p ∈ q.pointers hand ↔ ∃ t, q.heap p = some t ∧ ⟨p,t.sequence⟩ ∈ q.inserted

@[simp] theorem ok_bind {A B : Type} (a : A) (next : A → Except Fault B) : (Except.ok a >>= next) = next a := rfl

theorem check_true {holds : Bool} (good : holds = true) : check holds = .ok () := by simp [check,good]

theorem deref_ok {q : TimerQueue} {p : Nat} {t : Timer} (found : q.heap p = some t) : q.deref p = .ok t := by
  simp [TimerQueue.deref,found]

section
variable {q : TimerQueue} {hand : List Entry} {e : Entry} {t : Timer}

theorem Held.inHand (held : Held q (e::hand)) : ∃ t, q.heap e.timer = some t ∧ ⟨e.timer,t.sequence⟩ ∈ q.inserted :=
  (held.live e.timer).mp (by simp [TimerQueue.pointers])

theorem Held.unlisted (held : Held q (e::hand)) (d : Entry) (listed : d ∈ q.timers) : d.timer ≠ e.timer := by
  intro same
  have apart := List.disjoint_of_nodup_append held.pointers
  exact apart (List.mem_map_of_mem listed) (by simp [same])

theorem Held.inactive (held : Held q (e::hand)) (n : Int) : ¬(⟨e.timer,n⟩ : ActiveTimer) ∈ q.activeTimers := by
  rw [held.actives]
  rintro ⟨d,listed,u,_,same⟩
  exact held.unlisted d listed (congrArg ActiveTimer.timer same).symm

theorem held_perm {other : TimerQueue} {rest : List Entry} (held : Held q hand)
    (same : (other.pointers rest).Perm (q.pointers hand)) (heap : other.heap = q.heap)
    (inserted : other.inserted = q.inserted) :
    (other.pointers rest).Nodup ∧
      ∀ p, p ∈ other.pointers rest ↔ ∃ t, other.heap p = some t ∧ ⟨p,t.sequence⟩ ∈ other.inserted := by
  refine ⟨same.nodup_iff.mpr held.pointers,fun p => ?_⟩
  rw [same.mem_iff,held.live,heap,inserted]

theorem pointers_link (p : Nat) (fresh : ¬(⟨t.expiration,p⟩ : Entry) ∈ q.timers) :
    ((q.link p t).pointers hand).Perm (p :: q.pointers hand) := by
  have inserted := (q.timers.perm_insert ⟨t.expiration,p⟩ fresh).map Entry.timer
  exact inserted.append_right (hand.map Entry.timer)

theorem held_insert (held : Held q (e::hand)) (found : q.heap e.timer = some t) :
    q.insert e.timer = .ok (q.link e.timer t,q.earliestChanged t.expiration) ∧ Held (q.link e.timer t) hand := by
  have freshEntry : ¬(⟨t.expiration,e.timer⟩ : Entry) ∈ q.timers := fun listed => held.unlisted _ listed rfl
  have freshActive : ¬(⟨e.timer,t.sequence⟩ : ActiveTimer) ∈ q.activeTimers := held.inactive t.sequence
  have sizes : (q.link e.timer t).timers.size = (q.link e.timer t).activeTimers.size := by
    simp only [TimerQueue.link]
    rw [OrderedSet.size_insert _ _ freshEntry,OrderedSet.size_insert _ _ freshActive,held.sizes]
  have moved : ((q.link e.timer t).pointers hand).Perm (q.pointers (e::hand)) :=
    (pointers_link e.timer freshEntry).trans List.perm_middle.symm
  obtain ⟨pointers,live⟩ := held_perm held moved rfl rfl
  constructor
  · simp [TimerQueue.insert,TimerQueue.sameSizes,held.sizes,sizes,deref_ok found,check,freshEntry,freshActive,bind,
      Except.bind,pure,Except.pure]
  · refine ⟨sizes,fun a => ?_,fun d listed => ?_,pointers,live⟩
    · simp only [TimerQueue.link,OrderedSet.mem_insert,held.actives a]
      constructor
      · rintro (rfl | ⟨d,listed,u,there,same⟩)
        · exact ⟨⟨t.expiration,e.timer⟩,.inl rfl,t,found,rfl⟩
        · exact ⟨d,.inr listed,u,there,same⟩
      · rintro ⟨d,rfl | listed,u,there,same⟩
        · rw [found] at there
          cases there
          exact .inl same
        · exact .inr ⟨d,listed,u,there,same⟩
    · rcases (OrderedSet.mem_insert _ _ _).mp listed with rfl | old
      · exact ⟨t,found,rfl⟩
      · exact held.keyed d old

/-- The queue after `delete` of the timer at `p`. -/
def TimerQueue.freed (q : TimerQueue) (p : Nat) (t : Timer) : TimerQueue :=
  {q with heap := Function.update q.heap p none, deleted := q.deleted ++ [⟨p,t.sequence⟩]}

theorem delete_ok (found : q.heap e.timer = some t) : q.delete e.timer = .ok (q.freed e.timer t) := by
  simp [TimerQueue.delete,deref_ok found,TimerQueue.freed,bind,Except.bind,pure,Except.pure]

theorem heap_freed (p r : Nat) (u : Timer) : (q.freed p t).heap r = some u ↔ r ≠ p ∧ q.heap r = some u := by
  by_cases same : r = p
  · subst same
    simp [TimerQueue.freed]
  · simp [TimerQueue.freed,same]

theorem held_delete (held : Held q (e::hand)) : Held (q.freed e.timer t) hand := by
  have middle : (q.pointers (e::hand)).Perm (e.timer :: q.pointers hand) := List.perm_middle
  obtain ⟨absent,distinct⟩ := List.nodup_cons.mp (middle.nodup_iff.mp held.pointers)
  refine ⟨held.sizes,fun a => ?_,fun d listed => ?_,distinct,fun p => ?_⟩
  · rw [show a ∈ (q.freed e.timer t).activeTimers ↔ a ∈ q.activeTimers from Iff.rfl,held.actives]
    refine exists_congr fun d => and_congr_right fun listed => exists_congr fun u => ?_
    rw [heap_freed]
    simp [held.unlisted d listed]
  · obtain ⟨u,there,same⟩ := held.keyed d listed
    exact ⟨u,(heap_freed _ _ _).mpr ⟨held.unlisted d listed,there⟩,same⟩
  · have inside : p ∈ q.pointers hand ↔ p ≠ e.timer ∧ p ∈ q.pointers (e::hand) := by
      rw [middle.mem_iff,List.mem_cons]
      constructor
      · intro member
        exact ⟨fun same => absent (same ▸ member),.inr member⟩
      · rintro ⟨other,same | member⟩
        · exact absurd same other
        · exact member
    rw [show (q.freed e.timer t).pointers hand = q.pointers hand from rfl,inside,held.live]
    constructor
    · rintro ⟨other,u,there,logged⟩
      exact ⟨u,(heap_freed _ _ _).mpr ⟨other,there⟩,logged⟩
    · rintro ⟨u,there,logged⟩
      obtain ⟨other,before⟩ := (heap_freed _ _ _).mp there
      exact ⟨other,u,before,logged⟩

theorem numbered_delete (numbered : Numbered q) (found : q.heap e.timer = some t) : Numbered (q.freed e.timer t) := by
  have before {p : Nat} {u : Timer} (there : (q.freed e.timer t).heap p = some u) : q.heap p = some u :=
    ((heap_freed _ _ _).mp there).2
  refine ⟨fun p u there => numbered.bounds p u (before there),
    fun p r u v first second => numbered.distinct p r u v (before first) (before second),?_,?_,?_⟩
  · intro a inside
    obtain ⟨bound,kept⟩ := numbered.logged a inside
    refine ⟨bound,fun remains => ?_⟩
    have old : a ∉ q.deleted ∧ a ≠ ⟨e.timer,t.sequence⟩ := by simpa [TimerQueue.freed] using remains
    obtain ⟨u,there,same⟩ := kept old.1
    refine ⟨u,(heap_freed _ _ _).mpr ⟨fun here => ?_,there⟩,same⟩
    rw [here,found] at there
    cases there
    exact old.2 (by rw [← here,same])
  · intro a dead
    rcases List.mem_append.mp dead with old | new
    · exact ⟨(numbered.gone a old).1,fun p u there => (numbered.gone a old).2 p u (before there)⟩
    · cases List.mem_singleton.mp new
      refine ⟨(numbered.bounds e.timer t found).2,fun p u there same => ?_⟩
      exact ((heap_freed _ _ _).mp there).1 (numbered.distinct p e.timer u t (before there) found same)
  · have fresh : t.sequence ∉ q.deleted.map ActiveTimer.sequence := by
      intro member
      obtain ⟨a,dead,same⟩ := List.mem_map.mp member
      exact (numbered.gone a dead).2 e.timer t found same.symm
    simpa [TimerQueue.freed,List.nodup_append] using ⟨numbered.once,fun a dead same => fresh (List.mem_map.mpr ⟨a,dead,same⟩)⟩

theorem heap_store (p r : Nat) (u v : Timer) :
    (q.store p u).heap r = some v ↔ (r = p ∧ v = u) ∨ (r ≠ p ∧ q.heap r = some v) := by
  by_cases same : r = p
  · subst same
    simp [TimerQueue.store,eq_comm]
  · simp [TimerQueue.store,same]

theorem held_store (held : Held q (e::hand)) (found : q.heap e.timer = some t) (u : Timer)
    (number : u.sequence = t.sequence) : Held (q.store e.timer u) (e::hand) := by
  have away {d : Entry} (listed : d ∈ q.timers) (v : Timer) :
      (q.store e.timer u).heap d.timer = some v ↔ q.heap d.timer = some v := by
    rw [heap_store]
    simp [held.unlisted d listed]
  refine ⟨held.sizes,fun a => ?_,fun d listed => ?_,held.pointers,fun p => ?_⟩
  · rw [show a ∈ (q.store e.timer u).activeTimers ↔ a ∈ q.activeTimers from Iff.rfl,held.actives]
    refine exists_congr fun d => and_congr_right fun listed => exists_congr fun v => ?_
    rw [away listed]
  · obtain ⟨v,there,same⟩ := held.keyed d listed
    exact ⟨v,(away listed v).mpr there,same⟩
  · rw [show (q.store e.timer u).pointers (e::hand) = q.pointers (e::hand) from rfl,held.live]
    by_cases here : p = e.timer
    · subst here
      simp [TimerQueue.store,found,number]
    · simp [TimerQueue.store,here]

theorem numbered_store (numbered : Numbered q) (found : q.heap e.timer = some t) (u : Timer)
    (number : u.sequence = t.sequence) : Numbered (q.store e.timer u) := by
  -- every timer has a predecessor at the same address with the same number
  have before {p : Nat} {v : Timer} (there : (q.store e.timer u).heap p = some v) :
      ∃ w, q.heap p = some w ∧ w.sequence = v.sequence := by
    rcases (heap_store _ _ _ _).mp there with ⟨rfl,rfl⟩ | ⟨other,same⟩
    · exact ⟨t,found,number.symm⟩
    · exact ⟨v,same,rfl⟩
  refine ⟨fun p v there => ?_,fun p r v w first second same => ?_,fun a inside => ?_,fun a dead => ?_,numbered.once⟩
  · obtain ⟨w,old,same⟩ := before there
    exact ⟨(numbered.bounds p w old).1,same ▸ (numbered.bounds p w old).2⟩
  · obtain ⟨v',old,v'same⟩ := before first
    obtain ⟨w',other,w'same⟩ := before second
    exact numbered.distinct p r v' w' old other (by rw [v'same,w'same,same])
  · obtain ⟨bound,kept⟩ := numbered.logged a inside
    refine ⟨bound,fun remains => ?_⟩
    obtain ⟨v,there,same⟩ := kept remains
    by_cases here : a.timer = e.timer
    · rw [here,found] at there
      cases there
      exact ⟨u,(heap_store _ _ _ _).mpr (.inl ⟨here,rfl⟩),number.trans same⟩
    · exact ⟨v,(heap_store _ _ _ _).mpr (.inr ⟨here,there⟩),same⟩
  · refine ⟨(numbered.gone a dead).1,fun p v there => ?_⟩
    obtain ⟨w,old,same⟩ := before there
    exact same ▸ (numbered.gone a dead).2 p w old

theorem numbered_create (numbered : Numbered q) (p : Nat) (when : Int) (interval : ℚ) (low : p < uintptrMax)
    (free : q.heap p = none) : Numbered (q.create p when interval) := by
  have before {r : Nat} {v : Timer} (there : (q.create p when interval).heap r = some v) :
      (r = p ∧ v.sequence = q.numCreated+1) ∨ q.heap r = some v := by
    rcases (heap_store _ _ _ _).mp there with ⟨rfl,rfl⟩ | old
    · exact .inl ⟨rfl,rfl⟩
    · exact .inr old.2
  have next : (q.create p when interval).numCreated = q.numCreated+1 := rfl
  refine ⟨fun r v there => ?_,fun r d v w first second same => ?_,fun a inside => ?_,fun a dead => ?_,numbered.once⟩
  · rcases before there with ⟨rfl,number⟩ | old
    · exact ⟨low,by omega⟩
    · have bounds := numbered.bounds r v old
      exact ⟨bounds.1,by omega⟩
  · rcases before first with ⟨rfl,number⟩ | old
    · rcases before second with ⟨rfl,_⟩ | other
      · rfl
      · have bound := (numbered.bounds d w other).2
        omega
    · have bound := (numbered.bounds r v old).2
      rcases before second with ⟨rfl,_⟩ | other
      · omega
      · exact numbered.distinct r d v w old other same
  · obtain ⟨bound,kept⟩ := numbered.logged a inside
    refine ⟨by omega,fun remains => ?_⟩
    obtain ⟨v,there,same⟩ := kept remains
    refine ⟨v,(heap_store _ _ _ _).mpr (.inr ⟨fun here => ?_,there⟩),same⟩
    rw [here,free] at there
    cases there
  · have gone := numbered.gone a dead
    refine ⟨by omega,fun r v there => ?_⟩
    rcases before there with ⟨_,number⟩ | old
    · omega
    · exact gone.2 r v old

theorem held_create (held : Held q hand) (numbered : Numbered q) (p : Nat) (when : Int) (interval : ℚ)
    (free : q.heap p = none) : Held (q.create p when interval) hand := by
  have away {d : Entry} (listed : d ∈ q.timers) : d.timer ≠ p := by
    intro same
    obtain ⟨u,there,_⟩ := held.keyed d listed
    rw [same,free] at there
    cases there
  have old {d : Entry} (listed : d ∈ q.timers) (u : Timer) :
      (q.create p when interval).heap d.timer = some u ↔ q.heap d.timer = some u := by
    simp [TimerQueue.create,TimerQueue.store,away listed]
  refine ⟨held.sizes,fun a => ?_,fun d listed => ?_,held.pointers,fun r => ?_⟩
  · rw [show a ∈ (q.create p when interval).activeTimers ↔ a ∈ q.activeTimers from Iff.rfl,held.actives]
    refine exists_congr fun d => and_congr_right fun listed => exists_congr fun u => ?_
    rw [old listed]
  · obtain ⟨u,there,same⟩ := held.keyed d listed
    exact ⟨u,(old listed u).mpr there,same⟩
  · rw [show (q.create p when interval).pointers hand = q.pointers hand from rfl,held.live]
    by_cases here : r = p
    · subst here
      -- the new timer has a number that no timer was inserted with
      have unlogged : (⟨r,q.numCreated+1⟩ : ActiveTimer) ∉ q.inserted := by
        intro inside
        have bound := (numbered.logged _ inside).1
        simp only at bound
        omega
      simp [TimerQueue.create,TimerQueue.store,free,unlogged]
    · simp [TimerQueue.create,TimerQueue.store,here]

def TimerQueue.noted (q : TimerQueue) (p : Nat) (t : Timer) : TimerQueue :=
  {q with inserted := q.inserted ++ [⟨p,t.sequence⟩]}

theorem held_noted (held : Held q hand) (found : q.heap e.timer = some t)
    (fresh : (⟨e.timer,t.sequence⟩ : ActiveTimer) ∉ q.inserted) : Held (q.noted e.timer t) (e::hand) := by
  have middle : (q.pointers (e::hand)).Perm (e.timer :: q.pointers hand) := List.perm_middle
  have absent : e.timer ∉ q.pointers hand := by
    intro member
    obtain ⟨u,there,logged⟩ := (held.live e.timer).mp member
    rw [found] at there
    cases there
    exact fresh logged
  refine ⟨held.sizes,held.actives,held.keyed,middle.nodup_iff.mpr (List.nodup_cons.mpr ⟨absent,held.pointers⟩),?_⟩
  intro p
  rw [show (q.noted e.timer t).pointers (e::hand) = q.pointers (e::hand) from rfl,middle.mem_iff,List.mem_cons,held.live]
  simp only [TimerQueue.noted,List.mem_append,List.mem_singleton]
  constructor
  · rintro (rfl | ⟨u,there,logged⟩)
    · exact ⟨t,found,.inr rfl⟩
    · exact ⟨u,there,.inl logged⟩
  · rintro ⟨u,there,logged | here⟩
    · exact .inr ⟨u,there,logged⟩
    · exact .inl (congrArg ActiveTimer.timer here)

theorem numbered_noted (numbered : Numbered q) (found : q.heap e.timer = some t) : Numbered (q.noted e.timer t) := by
  refine {numbered with logged := fun a inside => ?_}
  rcases List.mem_append.mp inside with old | new
  · exact numbered.logged a old
  · cases List.mem_singleton.mp new
    exact ⟨(numbered.bounds e.timer t found).2,fun _ => ⟨t,found,rfl⟩⟩

theorem Held.entry_unique (held : Held q hand) {d : Entry} (listed : d ∈ q.timers) (other : e ∈ q.timers)
    (same : d.timer = e.timer) : d = e := by
  have distinct := (List.nodup_append.mp held.pointers).1
  exact List.inj_on_of_nodup_map distinct listed other same

/-- The queue that has taken a timer out of both sets. -/
def TimerQueue.unlink (q : TimerQueue) (p : Nat) (t : Timer) : TimerQueue :=
  {q with timers := q.timers.erase ⟨t.expiration,p⟩, activeTimers := q.activeTimers.erase ⟨p,t.sequence⟩}

theorem Held.active_found {id : ActiveTimer} (held : Held q hand) (active : id ∈ q.activeTimers) :
    ∃ t, q.heap id.timer = some t ∧ t.sequence = id.sequence ∧ (⟨t.expiration,id.timer⟩ : Entry) ∈ q.timers := by
  obtain ⟨e,listed,t,found,rfl⟩ := (held.actives id).mp active
  obtain ⟨u,there,same⟩ := held.keyed e listed
  rw [found] at there
  cases there
  refine ⟨t,found,rfl,?_⟩
  rw [same]
  exact listed

theorem held_unlink (held : Held q hand) (found : q.heap e.timer = some t) (expires : t.expiration = e.expiration)
    (listed : e ∈ q.timers) : Held (q.unlink e.timer t) (e::hand) := by
  have same : (⟨t.expiration,e.timer⟩ : Entry) = e := by rw [expires]
  have active : (⟨e.timer,t.sequence⟩ : ActiveTimer) ∈ q.activeTimers := (held.actives _).mpr ⟨e,listed,t,found,rfl⟩
  have inside (d : Entry) : d ∈ (q.unlink e.timer t).timers ↔ d ≠ e ∧ d ∈ q.timers := by
    simp [TimerQueue.unlink,same]
  have moved : ((q.unlink e.timer t).pointers (e::hand)).Perm (q.pointers hand) := by
    have taken := (List.perm_cons_erase (show e ∈ q.timers.toList from listed)).map Entry.timer
    have rest : (q.unlink e.timer t).timers.toList = q.timers.toList.erase e := by
      simp [TimerQueue.unlink,OrderedSet.erase,same]
    rw [TimerQueue.pointers,rest]
    exact List.perm_middle.trans (taken.append_right (hand.map Entry.timer)).symm
  obtain ⟨pointers,live⟩ := held_perm held moved rfl rfl
  refine ⟨?_,fun a => ?_,fun d remains => held.keyed d ((inside d).mp remains).2,pointers,live⟩
  · have first := OrderedSet.size_erase q.timers _ listed
    have second := OrderedSet.size_erase q.activeTimers _ active
    have sizes := held.sizes
    simp only [TimerQueue.unlink,same]
    omega
  · rw [show a ∈ (q.unlink e.timer t).activeTimers ↔ a ≠ ⟨e.timer,t.sequence⟩ ∧ a ∈ q.activeTimers by
      simp [TimerQueue.unlink],held.actives]
    constructor
    · rintro ⟨other,d,there,u,here,rfl⟩
      refine ⟨d,(inside d).mpr ⟨?_,there⟩,u,here,rfl⟩
      rintro rfl
      rw [found] at here
      cases here
      exact other rfl
    · rintro ⟨d,remains,u,here,rfl⟩
      obtain ⟨other,there⟩ := (inside d).mp remains
      refine ⟨fun twin => other ?_,d,there,u,here,rfl⟩
      exact held.entry_unique there listed (congrArg ActiveTimer.timer twin)

/-- The parts of the queue that ownership does not depend on. -/
theorem held_frame {other : TimerQueue} (held : Held q hand) (heap : other.heap = q.heap)
    (timers : other.timers = q.timers) (actives : other.activeTimers = q.activeTimers)
    (inserted : other.inserted = q.inserted) : Held other hand := by
  obtain ⟨heap',_,timers',actives',_,_,_,_,_,_,inserted',_,_,_⟩ := other
  cases heap
  cases timers
  cases actives
  cases inserted
  exact ⟨held.sizes,held.actives,held.keyed,held.pointers,held.live⟩

theorem numbered_frame {other : TimerQueue} (numbered : Numbered q) (heap : other.heap = q.heap)
    (created : other.numCreated = q.numCreated) (inserted : other.inserted = q.inserted)
    (deleted : other.deleted = q.deleted) : Numbered other := by
  obtain ⟨heap',_,_,_,_,_,_,_,_,_,inserted',_,deleted',_⟩ := other
  cases heap
  cases created
  cases inserted
  cases deleted
  exact ⟨numbered.bounds,numbered.distinct,numbered.logged,numbered.gone,numbered.once⟩

end

end Reactor.Net
