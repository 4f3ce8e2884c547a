import Mathlib.Algebra.Order.BigOperators.Group.Finset
import Reactor.Epoll.Acyclic

/-! Calls of `epoll_ctl` and scans of the ready lists in any number of threads. A scan
holds `ep->mtx` from the first line of `ep_scan_ready_list` to its last. Polling an item
whose file is an eventpoll is a scan of that eventpoll, one `depth` further down, so a
thread may hold the mutexes of a whole chain of eventpolls while it waits for the next. -/
namespace Reactor.Epoll
open Reactor.Transition Reactor.Reach Relation

/-- The eventpolls a thread is scanning, innermost first, and the one whose mutex the
next scan waits for. -/
structure Polls where
  chain : List Nat
  next : Option Nat
  deriving DecidableEq, Repr

def noPolls : Polls := ⟨[],none⟩

structure Traffic where
  nesting : Nesting
  polls : Nat → Polls

/-- `scan` enters `ep_scan_ready_list` from `epoll_wait`, `poll` from the poll of an item;
`unlock` leaves the innermost scan, which delivered the items of `keys`. -/
inductive TrafficLabel
  | ctl (l : NestLabel)
  | scan (t ep : Nat)
  | poll (t file : Nat)
  | lock (t : Nat)
  | unlock (t : Nat) (keys : List Key)
  deriving DecidableEq, Repr

/-- `ep_insert` polls the new item. The mutex of a nested target is held by then, and its
scan is told so by `ep_locked`. -/
def Caller.polled (k : Kernel) (w : Caller) : List Nat :=
  if w.pc = .lookup ∧ w.nested k = true then [w.item.key.file] else []

namespace Traffic

def setPolls (s : Traffic) (t : Nat) (polls : Polls) : Traffic :=
  {s with polls := Function.update s.polls t polls}

def edges (k : Kernel) (s : Traffic) : Graph := Epoll.nesting k (graph s.nesting.interest.items)

/-- The eventpolls whose items thread `t` polls, innermost first. -/
def opened (k : Kernel) (s : Traffic) (t : Nat) : List Nat :=
  (s.polls t).chain ++ (s.nesting.callers t).polled k

end Traffic

def trafficStep (k : Kernel) (s : Traffic) : TrafficLabel → Option Traffic
  | .ctl l =>
    if s.polls l.thread = noPolls then (nestStep k s.nesting l).map fun nesting => {s with nesting := nesting}
    else none
  | .scan t ep =>
    if s.polls t = noPolls ∧ (s.nesting.callers t).pc = .outside ∧ k.isFileEpoll ep = true then
      some (s.setPolls t ⟨[],some ep⟩)
    else none
  | .poll t file =>
    match (s.polls t).next, s.opened k t with
    | none, ep::_ =>
      if (s.edges k).contains (ep,file) then some (s.setPolls t ⟨(s.polls t).chain,some file⟩) else none
    | _, _ => none
  | .lock t =>
    match (s.polls t).next with
    | some ep =>
      if s.nesting.mtx ep = none then
        some {s.setPolls t ⟨ep::(s.polls t).chain,none⟩ with nesting := s.nesting.setMtx ep (some t)}
      else none
    | none => none
  | .unlock t keys =>
    match (s.polls t).next, (s.polls t).chain with
    | none, ep::chain =>
      if ∀ key ∈ keys, key.ep = ep then
        some {s.setPolls t ⟨chain,none⟩ with
          nesting := {s.nesting.setMtx ep none with interest := s.nesting.interest.delivered keys}}
      else none
    | _, _ => none

/-- The step goes on with a call that is under way. -/
def TrafficLabel.continues : TrafficLabel → Bool
  | .ctl (.step _) | .lock _ | .unlock _ _ => true
  | _ => false

inductive TrafficMove (k : Kernel) (s : Traffic) : TrafficLabel → Traffic → Prop
  | ctl (l : NestLabel) (nesting : Nesting) (free : s.polls l.thread = noPolls)
      (move : NestMove k s.nesting l nesting) : TrafficMove k s (.ctl l) {s with nesting := nesting}
  | scan (t ep : Nat) (free : s.polls t = noPolls) (here : (s.nesting.callers t).pc = .outside) :
      TrafficMove k s (.scan t ep) (s.setPolls t ⟨[],some ep⟩)
  | poll (t ep file : Nat) (rest : List Nat) (calm : (s.polls t).next = none) (opened : s.opened k t = ep::rest)
      (edge : (ep,file) ∈ s.edges k) :
      TrafficMove k s (.poll t file) (s.setPolls t ⟨(s.polls t).chain,some file⟩)
  | lock (t ep : Nat) (next : (s.polls t).next = some ep) (free : s.nesting.mtx ep = none) :
      TrafficMove k s (.lock t)
        {s.setPolls t ⟨ep::(s.polls t).chain,none⟩ with nesting := s.nesting.setMtx ep (some t)}
  | unlock (t ep : Nat) (chain : List Nat) (keys : List Key) (calm : (s.polls t).next = none)
      (top : (s.polls t).chain = ep::chain) :
      TrafficMove k s (.unlock t keys) {s.setPolls t ⟨chain,none⟩ with
        nesting := {s.nesting.setMtx ep none with interest := s.nesting.interest.delivered keys}}

theorem trafficStep_move (k : Kernel) (s u : Traffic) (l : TrafficLabel) (ok : trafficStep k s l = some u) :
    TrafficMove k s l u := by
  cases l with
  | ctl l =>
    obtain ⟨free,ok⟩ := Option.ite_none_right_eq_some.mp ok
    obtain ⟨nesting,moved,rfl⟩ := Option.map_eq_some_iff.mp ok
    exact .ctl l nesting free (nestStep_move k s.nesting nesting l moved)
  | scan t ep =>
    obtain ⟨⟨free,here,_⟩,⟨⟩⟩ := Option.ite_none_right_eq_some.mp ok
    exact .scan t ep free here
  | poll t file =>
    simp only [trafficStep] at ok
    split at ok
    next ep rest calm opened =>
      obtain ⟨edge,⟨⟩⟩ := Option.ite_none_right_eq_some.mp ok
      exact .poll t ep file rest calm opened (List.contains_iff_mem.mp edge)
    next => cases ok
  | lock t =>
    simp only [trafficStep] at ok
    split at ok
    next ep next =>
      obtain ⟨free,⟨⟩⟩ := Option.ite_none_right_eq_some.mp ok
      exact .lock t ep next free
    next => cases ok
  | unlock t keys =>
    simp only [trafficStep] at ok
    split at ok
    next ep chain calm top =>
      obtain ⟨_,⟨⟩⟩ := Option.ite_none_right_eq_some.mp ok
      exact .unlock t ep chain keys calm top
    next => cases ok

/-- The mutexes of eventpolls that the position of a call says it holds. -/
def Caller.holds (k : Kernel) (w : Caller) (file : Nat) : Prop :=
  w.pc.locked = true ∧ w.item.key.ep = file ∨ w.targeting k = true ∧ w.item.key.file = file

/-- The call has files on the check list. -/
def Caller.listing (w : Caller) : Bool :=
  match w.pc with
  | .relock | .lockTarget => true
  | .lookup | .pathCheck => w.full
  | _ => false

section
variable {k : Kernel} {s u : Nesting} {l : NestLabel} {t file : Nat}

theorem Holds.mutex (holds : Holds k s t) (held : (s.callers t).holds k file) : s.mtx file = some t := by
  rcases held with ⟨locked,rfl⟩ | ⟨targeting,rfl⟩
  · exact holds.mtx locked
  · exact holds.target targeting

theorem epmutex_other (move : NestMove k s l u) (other : t ≠ l.thread) (held : u.epmutex = some t) :
    s.epmutex = some t := by
  cases move with
  | serialized r here free => exact absurd (Option.some.inj held).symm other
  | released r here => cases held
  | _ => exact held

theorem leave_serial {w : Caller} (error : Int) (full : w.full = true) : (w.leave k error).serial = true := by
  unfold Caller.leave
  split <;> exact full

theorem epmutex_own (move : NestMove k s l u) (sound : (s.callers l.thread).Sound k)
    (before : s.epmutex = some l.thread → (s.callers l.thread).serial = true) (held : u.epmutex = some l.thread) :
    (u.callers l.thread).serial = true := by
  cases move with
  | refused t c error here args | entered t c item here args | locked t here free | deferred t here full
  | decided t here plain =>
    have serial := before held
    simp [NestLabel.thread,Caller.serial,here] at serial
  | serialized t here free | looped t here loop | listed t files here list =>
    simp [NestLabel.thread,Caller.serial]
  | relocked t here free =>
    have full := sound.staged (by simp [NestLabel.thread,here,CtlPc.staged])
    simp only [NestLabel.thread,setCaller_self,Caller.serial] at full ⊢
    split <;> simp_all
  | targeted t here free =>
    have full := sound.staged (by simp [NestLabel.thread,here,CtlPc.staged])
    simpa [NestLabel.thread,Caller.serial] using full
  | stopped t error here op | switched t error interest here op result =>
    have full : (s.callers t).full = true := by simpa [NestLabel.thread,Caller.serial,here] using before held
    simpa [NestLabel.thread] using leave_serial error full
  | inserted t here op =>
    have full : (s.callers t).full = true := by simpa [NestLabel.thread,Caller.serial,here] using before held
    simpa [NestLabel.thread,Caller.serial] using full
  | rejected t here full => simpa [NestLabel.thread] using leave_serial (-einval) full
  | accepted t here fine =>
    have full : (s.callers t).full = true := by simpa [NestLabel.thread,Caller.serial,here] using before held
    simpa [NestLabel.thread] using leave_serial 0 full
  | unlockedTarget t here =>
    have full := sound.staged (by simp [NestLabel.thread,here,CtlPc.staged])
    simpa [NestLabel.thread,Caller.serial] using full
  | unlocked t here =>
    have full : (s.callers t).full = true := by simpa [NestLabel.thread,Caller.serial,here] using before held
    simp [NestLabel.thread,Caller.serial,full]
  | released t here => cases held

theorem mtx_other (move : NestMove k s l u) (other : t ≠ l.thread) (held : u.mtx file = some t) :
    s.mtx file = some t := by
  have set (f : Nat) (holder : Option Nat) (apart : holder ≠ some t)
      (held : (s.setMtx f holder).mtx file = some t) : s.mtx file = some t := by
    by_cases same : file = f
    · subst same
      exact absurd (by simpa [Nesting.setMtx] using held) apart
    · simpa [Nesting.setMtx,same] using held
  cases move with
  | locked r here free | relocked r here free | targeted r here free =>
    exact set _ _ (fun same => other (Option.some.inj same).symm) held
  | deferred r here full | unlockedTarget r here | unlocked r here => exact set _ _ (by simp) held
  | _ => exact held

/-- At the end of the switch a call holds what it held before. -/
theorem leave_holds {w : Caller} (error : Int) (here : w.pc = .lookup ∨ w.pc = .pathCheck) (held : w.holds k file) :
    (w.leave k error).holds k file := by
  rcases held with ⟨_,same⟩ | ⟨targeting,same⟩
  · refine .inl ⟨?_,same⟩
    unfold Caller.leave
    split <;> rfl
  · have nested : w.nested k = true := by
      rcases here with here | here <;> simpa [Caller.targeting,here] using targeting
    refine .inr ⟨?_,same⟩
    simp [Caller.leave,nested,Caller.targeting]
    exact nested

theorem mtx_own (move : NestMove k s l u) (sound : (s.callers l.thread).Sound k)
    (before : ∀ file, s.mtx file = some l.thread → (s.callers l.thread).holds k file)
    (held : u.mtx file = some l.thread) : (u.callers l.thread).holds k file := by
  have own := before file
  have taken (f : Nat) (held : (s.setMtx f (some l.thread)).mtx file = some l.thread) :
      file = f ∨ (s.callers l.thread).holds k file := by
    by_cases same : file = f
    · exact .inl same
    · exact .inr (own (by simpa [Nesting.setMtx,same] using held))
  have given (f : Nat) (held : (s.setMtx f none).mtx file = some l.thread) :
      file ≠ f ∧ (s.callers l.thread).holds k file := by
    by_cases same : file = f
    · simp [Nesting.setMtx,same] at held
    · exact ⟨same,own (by simpa [Nesting.setMtx,same] using held)⟩
  cases move with
  | refused t c error here args | entered t c item here args | serialized t here free | looped t here loop
  | listed t files here list | released t here =>
    have old := own held
    simp [NestLabel.thread,Caller.holds,Caller.targeting,CtlPc.locked,here] at old
  | locked t here free =>
    rcases taken _ held with rfl | old
    · simp [NestLabel.thread,Caller.holds,CtlPc.locked]
    · simp [NestLabel.thread,Caller.holds,Caller.targeting,CtlPc.locked,here] at old
  | relocked t here free =>
    rcases taken _ held with rfl | old
    · refine .inl ⟨?_,by simp [NestLabel.thread]⟩
      simp only [NestLabel.thread,setCaller_self]
      split <;> rfl
    · simp [NestLabel.thread,Caller.holds,Caller.targeting,CtlPc.locked,here] at old
  | targeted t here free =>
    have nested := sound.tep (.inl here)
    rcases taken _ held with rfl | old
    · exact .inr ⟨by simpa [NestLabel.thread,Caller.targeting,Caller.nested] using nested,by simp [NestLabel.thread]⟩
    · simp [NestLabel.thread,Caller.holds,Caller.targeting,CtlPc.locked,here] at old
      simp [NestLabel.thread,Caller.holds,CtlPc.locked,old]
  | deferred t here full =>
    obtain ⟨apart,old⟩ := given _ held
    simp [NestLabel.thread,Caller.holds,Caller.targeting,CtlPc.locked,here] at old
    exact absurd old.symm apart
  | decided t here plain =>
    have old := own held
    simp [NestLabel.thread,Caller.holds,Caller.targeting,CtlPc.locked,here] at old
    simp [NestLabel.thread,Caller.holds,CtlPc.locked,old]
  | stopped t error here op | switched t error interest here op result =>
    simpa [NestLabel.thread] using leave_holds error (.inl here) (own held)
  | inserted t here op =>
    have old := own held
    simpa [NestLabel.thread,Caller.holds,Caller.targeting,Caller.nested,CtlPc.locked,here] using old
  | rejected t here full => simpa [NestLabel.thread] using leave_holds (-einval) (.inr here) (own held)
  | accepted t here fine => simpa [NestLabel.thread] using leave_holds 0 (.inr here) (own held)
  | unlockedTarget t here =>
    obtain ⟨apart,old⟩ := given _ held
    simp only [NestLabel.thread,Caller.holds,Caller.targeting,CtlPc.locked,here] at old
    rcases old with ⟨_,same⟩ | ⟨_,same⟩
    · simp [NestLabel.thread,Caller.holds,CtlPc.locked,same]
    · exact absurd same.symm apart
  | unlocked t here =>
    obtain ⟨apart,old⟩ := given _ held
    simp [NestLabel.thread,Caller.holds,Caller.targeting,CtlPc.locked,here] at old
    exact absurd old.symm apart

theorem mtx_stays (move : NestMove k s l u) (locks : Locks k s) (other : t ≠ l.thread) (held : s.mtx file = some t) :
    u.mtx file = some t := by
  rcases (mutexes_change k s u l move (locks.sound l.thread) (locks.holds l.thread)).2 file with same | free | own
  · rw [same,held]
  · rw [held] at free
    cases free
  · rw [held] at own
    exact absurd (Option.some.inj own) other

private theorem ctlSwitch_edges (op : Int) (env : InsertEnv) (s : Interest) (full : Bool) (item : Item)
    (change : op ≠ epollCtlAdd) {edge : Nat × Nat} (member : edge ∈ graph s.items) (apart : edge.1 ≠ item.key.ep) :
    edge ∈ graph (s.ctlSwitch k op env full item).2.items := by
  obtain ⟨old,inside,rfl⟩ := List.mem_map.mp member
  unfold Interest.ctlSwitch
  rw [if_neg change]
  split
  · unfold Interest.ctlDel
    split
    next found there =>
      refine List.mem_map_of_mem ((List.mem_erase_of_ne ?_).mpr inside)
      rintro rfl
      exact apart (congrArg Key.ep (Keyed.find_some Item.key there).2)
    next => exact member
  · split
    · unfold Interest.ctlMod
      split
      · split
        · exact member
        · refine List.mem_map.mpr ⟨old,List.mem_map.mpr ⟨old,inside,?_⟩,rfl⟩
          exact if_neg fun same => apart (congrArg Key.ep same)
      · exact member
    · exact member

/-- Nobody else changes what an eventpoll watches while its mutex is held. -/
theorem edges_kept (move : NestMove k s l u) (locks : Locks k s) (other : t ≠ l.thread) {a b : Nat}
    (held : s.mtx a = some t) (edge : (a,b) ∈ nesting k (graph s.interest.items)) :
    (a,b) ∈ nesting k (graph u.interest.items) := by
  obtain ⟨member,epoll⟩ := List.mem_filter.mp edge
  refine List.mem_filter.mpr ⟨?_,epoll⟩
  have apart (r : Nat) (same : l.thread = r) (locked : (s.callers r).pc.locked = true) :
      a ≠ (s.callers r).item.key.ep := by
    intro both
    have mine := (locks.holds r).mtx locked
    rw [← both,held] at mine
    exact other ((Option.some.inj mine).trans same.symm)
  cases move with
  | inserted r here op => exact List.mem_cons_of_mem _ member
  | stopped | accepted | looped => simpa only [clearTfileCheckList_items] using member
  | switched r error interest here op result =>
    have kept := ctlSwitch_edges (k := k) (s.callers r).op (s.callers r).env s.interest (s.callers r).full
      (s.callers r).item op member (apart r rfl (by simp [here,CtlPc.locked]))
    rwa [result] at kept
  | rejected r here full =>
    obtain ⟨old,inside,same⟩ := List.mem_map.mp member
    refine List.mem_map.mpr ⟨old,(List.mem_erase_of_ne ?_).mpr inside,same⟩
    rintro rfl
    exact apart r rfl (by simp [here,CtlPc.locked]) (congrArg Prod.fst same).symm
  | _ => exact member

private theorem ctlSwitch_unlisted (op : Int) (env : InsertEnv) (s : Interest) (full : Bool) (item : Item)
    (change : op ≠ epollCtlAdd) : (s.ctlSwitch k op env full item).2.tfileCheckList = s.tfileCheckList := by
  unfold Interest.ctlSwitch Interest.ctlDel Interest.ctlMod Interest.epModify
  rw [if_neg change]
  repeat' split
  all_goals rfl

/-- The files of a call stay on the check list no longer than the call needs them. -/
theorem listed_move (move : NestMove k s l u) (sound : (s.callers l.thread).Sound k)
    (before : s.interest.tfileCheckList ≠ [] → ∃ t, (s.callers t).listing = true)
    (now : u.interest.tfileCheckList ≠ []) : ∃ t, (u.callers t).listing = true := by
  have kept (same : u.interest.tfileCheckList = s.interest.tfileCheckList)
      (own : (s.callers l.thread).listing = true → (u.callers l.thread).listing = true) :
      ∃ t, (u.callers t).listing = true := by
    obtain ⟨t,listing⟩ := before (same ▸ now)
    by_cases mine : t = l.thread
    · exact ⟨l.thread,own (mine ▸ listing)⟩
    · exact ⟨t,by rwa [caller_kept k s u l move t mine]⟩
  have cleared (full : Bool) (now : (s.interest.clearTfileCheckList full).tfileCheckList ≠ []) : full = false := by
    cases full with
    | false => rfl
    | true => exact absurd rfl now
  cases move with
  | refused t c error here args | entered t c item here args | locked t here free | deferred t here full
  | decided t here plain | serialized t here free | unlockedTarget t here | unlocked t here | released t here =>
    exact kept rfl (by simp [NestLabel.thread,Caller.listing,here])
  | looped t here loop => exact absurd rfl now
  | listed t files here list => exact ⟨t,by simp [Caller.listing]⟩
  | relocked t here free =>
    have full := sound.staged (by simp [NestLabel.thread,here,CtlPc.staged])
    refine kept rfl fun _ => ?_
    simp only [NestLabel.thread,setCaller_self,Caller.listing] at full ⊢
    split <;> simp_all
  | targeted t here free =>
    have full := sound.staged (by simp [NestLabel.thread,here,CtlPc.staged])
    exact kept rfl fun _ => by simpa [NestLabel.thread,Caller.listing] using full
  | stopped t error here op =>
    have plain := cleared _ now
    refine kept ?_ (by simp [NestLabel.thread,Caller.listing,here,plain])
    simp [plain,Interest.clearTfileCheckList]
  | inserted t here op => exact kept rfl (by simp [NestLabel.thread,Caller.listing,here])
  | switched t error interest here op result =>
    have plain : (s.callers t).full = false := Bool.eq_false_iff.mpr fun full => op (sound.full full)
    have same := ctlSwitch_unlisted (k := k) (s.callers t).op (s.callers t).env s.interest (s.callers t).full
      (s.callers t).item op
    rw [result] at same
    exact kept same (by simp [NestLabel.thread,Caller.listing,here,plain])
  | rejected t here full => exact absurd rfl now
  | accepted t here fine =>
    have plain := cleared _ now
    refine kept ?_ (by simp [NestLabel.thread,Caller.listing,here,plain])
    simp [plain,Interest.clearTfileCheckList]

end

theorem graph_delivered (s : Interest) (keys : List Key) : graph (s.delivered keys).items = graph s.items := by
  unfold Interest.delivered
  induction keys generalizing s with
  | nil => rfl
  | cons key keys ih =>
    refine (ih ⟨deliver s.items key,s.tfileCheckList⟩).trans ?_
    simp only [graph,deliver,List.map_map]
    refine List.map_congr_left fun item _ => ?_
    simp only [Function.comp]
    split <;> rfl

/-- Who holds which mutex, and the order in which a thread came to hold several of them:
each one belongs to an eventpoll that the one before it watches. -/
structure Owned (k : Kernel) (s : Traffic) : Prop where
  ordered : Ordered k s.nesting
  epmutex : ∀ t, s.nesting.epmutex = some t → (s.nesting.callers t).serial = true
  mtx : ∀ t file, s.nesting.mtx file = some t → (s.nesting.callers t).holds k file ∨ file ∈ (s.polls t).chain
  chain : ∀ t, ∀ file ∈ (s.polls t).chain, s.nesting.mtx file = some t ∧ ¬(s.nesting.callers t).holds k file
  nodup : ∀ t, (s.polls t).chain.Nodup
  linked : ∀ t, ((s.polls t).next.toList ++ s.opened k t).IsChain fun inner outer => Edge (s.edges k) outer inner
  apart : ∀ t, s.polls t ≠ noPolls → (s.nesting.callers t).pc = .outside ∨ (s.nesting.callers t).polled k ≠ []
  listed : s.nesting.interest.tfileCheckList ≠ [] → ∃ t, (s.nesting.callers t).listing = true

section
variable {k : Kernel} {s u : Traffic} {t ep file : Nat}

theorem polled_held {w : Caller} (member : file ∈ w.polled k) : w.holds k file := by
  unfold Caller.polled at member
  split at member
  next here =>
    rw [List.mem_singleton.mp member]
    exact .inr ⟨by simpa [Caller.targeting,here.1] using here.2,rfl⟩
  next => cases member

theorem Owned.opened_held (owned : Owned k s) (member : file ∈ s.opened k t) : s.nesting.mtx file = some t := by
  rcases List.mem_append.mp member with scanned | polled
  · exact (owned.chain t file scanned).1
  · exact (owned.ordered.locks.holds t).mutex (polled_held polled)

private theorem tail_opened {next : Option Nat} {opened : List Nat} (member : file ∈ (next.toList ++ opened).tail) :
    file ∈ opened := by
  cases next with
  | none => exact List.mem_of_mem_tail member
  | some ep => exact member

theorem Ordered.frame {s u : Nesting} (ordered : Ordered k s) (callers : u.callers = s.callers)
    (epmutex : u.epmutex = s.epmutex) (same : graph u.interest.items = graph s.interest.items)
    (mtx : ∀ t file, (s.callers t).holds k file → u.mtx file = some t) : Ordered k u := by
  refine ⟨⟨fun t => callers ▸ ordered.locks.sound t,fun t => ⟨?_,?_,?_⟩⟩,same ▸ ordered.acyclic,?_⟩
  · rw [callers,epmutex]
    exact (ordered.locks.holds t).epmutex
  · rw [callers]
    exact fun locked => mtx t _ (.inl ⟨locked,rfl⟩)
  · rw [callers]
    exact fun targeting => mtx t _ (.inr ⟨targeting,rfl⟩)
  · rw [callers,same]
    exact ordered.clear

private theorem owned_ctl (loops : ∀ g ep target, Reaches (nesting k g) target ep → k.epLoopCheck g ep target = none)
    (owned : Owned k s) (l : NestLabel) (after : Nesting) (free : s.polls l.thread = noPolls)
    (move : NestMove k s.nesting l after) : Owned k {s with nesting := after} := by
  have locks := owned.ordered.locks
  have kept (t : Nat) (other : t ≠ l.thread) := caller_kept k s.nesting after l move t other
  have alone (file : Nat) (held : s.nesting.mtx file = some l.thread) :
      (s.nesting.callers l.thread).holds k file := by
    simpa [free,noPolls] using owned.mtx l.thread file held
  refine ⟨ordered_move k loops _ _ l owned.ordered move,?_,?_,?_,owned.nodup,?_,?_,
    listed_move move (locks.sound l.thread) owned.listed⟩
  · intro t held
    by_cases mine : t = l.thread
    · subst mine
      exact epmutex_own move (locks.sound l.thread) (owned.epmutex l.thread) held
    · rw [kept t mine]
      exact owned.epmutex t (epmutex_other move mine held)
  · intro t file held
    by_cases mine : t = l.thread
    · subst mine
      exact .inl (mtx_own move (locks.sound l.thread) alone held)
    · rw [kept t mine]
      exact owned.mtx t file (mtx_other move mine held)
  · intro t file member
    by_cases mine : t = l.thread
    · subst mine
      rw [free] at member
      cases member
    · rw [kept t mine]
      exact ⟨mtx_stays move locks mine (owned.chain t file member).1,(owned.chain t file member).2⟩
  · intro t
    by_cases mine : t = l.thread
    · subst mine
      simp only [Traffic.opened,free,noPolls]
      unfold Caller.polled
      split <;> simp
    · have opened : Traffic.opened k {s with nesting := after} t = s.opened k t := by
        simp only [Traffic.opened,kept t mine]
      rw [opened]
      refine List.IsChain.imp_of_mem_tail_imp (fun inner outer _ member edge => ?_) (owned.linked t)
      refine edges_kept move locks mine (owned.opened_held (tail_opened member)) edge
  · intro t busy
    have mine : t ≠ l.thread := fun same => busy (same ▸ free)
    rw [kept t mine]
    exact owned.apart t busy

theorem Owned.holder (owned : Owned k s) (t file : Nat) :
    s.nesting.mtx file = some t ↔ (s.nesting.callers t).holds k file ∨ file ∈ (s.polls t).chain := by
  refine ⟨owned.mtx t file,?_⟩
  rintro (held | member)
  · exact (owned.ordered.locks.holds t).mutex held
  · exact (owned.chain t file member).1

/-- The scans of one thread change, and its own mutexes with them. -/
theorem Owned.set (owned : Owned k s) (t : Nat) (polls : Polls) (after : Nesting)
    (callers : after.callers = s.nesting.callers) (epmutex : after.epmutex = s.nesting.epmutex)
    (same : graph after.interest.items = graph s.nesting.interest.items)
    (list : after.interest.tfileCheckList = s.nesting.interest.tfileCheckList)
    (others : ∀ r file, r ≠ t → (after.mtx file = some r ↔ s.nesting.mtx file = some r))
    (own : ∀ file, after.mtx file = some t ↔ (s.nesting.callers t).holds k file ∨ file ∈ polls.chain)
    (fresh : ∀ file ∈ polls.chain, ¬(s.nesting.callers t).holds k file) (nodup : polls.chain.Nodup)
    (linked : (polls.next.toList ++ (polls.chain ++ (s.nesting.callers t).polled k)).IsChain
      fun inner outer => Edge (s.edges k) outer inner)
    (apart : (s.nesting.callers t).pc = .outside ∨ (s.nesting.callers t).polled k ≠ []) :
    Owned k {s.setPolls t polls with nesting := after} := by
  have mine : (s.setPolls t polls).polls t = polls := by simp [Traffic.setPolls]
  have theirs {r : Nat} (other : r ≠ t) : (s.setPolls t polls).polls r = s.polls r := by
    simp [Traffic.setPolls,other]
  have frame : Ordered k after := by
    refine owned.ordered.frame callers epmutex same fun r file held => ?_
    by_cases who : r = t
    · subst who
      exact (own file).mpr (.inl held)
    · exact (others r file who).mpr ((owned.ordered.locks.holds r).mutex held)
  have edges : Traffic.edges k {s.setPolls t polls with nesting := after} = s.edges k := by
    simp only [Traffic.edges,same]
  refine ⟨frame,?_,?_,?_,?_,?_,?_,?_⟩ <;> dsimp only
  · rw [callers,epmutex]
    exact owned.epmutex
  · intro r file held
    rw [callers]
    by_cases who : r = t
    · subst who
      rw [mine]
      exact (own file).mp held
    · rw [theirs who]
      exact owned.mtx r file ((others r file who).mp held)
  · intro r file member
    rw [callers]
    by_cases who : r = t
    · subst who
      rw [mine] at member
      exact ⟨(own file).mpr (.inr member),fresh file member⟩
    · rw [theirs who] at member
      exact ⟨(others r file who).mpr (owned.chain r file member).1,(owned.chain r file member).2⟩
  · intro r
    by_cases who : r = t
    · subst who
      rwa [mine]
    · rw [theirs who]
      exact owned.nodup r
  · intro r
    simp only [edges,Traffic.opened,callers]
    by_cases who : r = t
    · subst who
      rwa [mine]
    · rw [theirs who]
      exact owned.linked r
  · intro r busy
    rw [callers]
    by_cases who : r = t
    · subst who
      exact apart
    · rw [theirs who] at busy
      exact owned.apart r busy
  · rw [callers,list]
    exact owned.listed

private theorem owned_wants (owned : Owned k s) (t file : Nat)
    (edge : ∀ ep ∈ (s.opened k t).head?, (ep,file) ∈ s.edges k)
    (apart : (s.nesting.callers t).pc = .outside ∨ (s.nesting.callers t).polled k ≠ []) :
    Owned k (s.setPolls t ⟨(s.polls t).chain,some file⟩) :=
  owned.set t ⟨(s.polls t).chain,some file⟩ s.nesting rfl rfl rfl rfl (fun _ _ _ => Iff.rfl) (owned.holder t)
    (fun file member => (owned.chain t file member).2) (owned.nodup t)
    (List.isChain_cons.mpr ⟨edge,(owned.linked t).right_of_append⟩) apart

private theorem owned_lock (owned : Owned k s) (t ep : Nat) (next : (s.polls t).next = some ep)
    (free : s.nesting.mtx ep = none) :
    Owned k {s.setPolls t ⟨ep::(s.polls t).chain,none⟩ with nesting := s.nesting.setMtx ep (some t)} := by
  have holder (file : Nat) := owned.holder t file
  have fresh : ¬((s.nesting.callers t).holds k ep ∨ ep ∈ (s.polls t).chain) := by
    rw [← holder,free]
    simp
  have linked := owned.linked t
  rw [next] at linked
  refine owned.set t _ _ rfl rfl rfl rfl ?_ ?_ ?_ ?_ linked (owned.apart t fun idle => by simp [idle,noPolls] at next)
  · intro r file other
    by_cases taken : file = ep
    · subst taken
      simp [Nesting.setMtx,free,other.symm]
    · simp [Nesting.setMtx,taken]
  · intro file
    by_cases taken : file = ep
    · simp [Nesting.setMtx,taken]
    · simp [Nesting.setMtx,taken,holder]
  · intro file member held
    rcases List.mem_cons.mp member with rfl | old
    · exact fresh (.inl held)
    · exact (owned.chain t file old).2 held
  · exact List.nodup_cons.mpr ⟨fun member => fresh (.inr member),owned.nodup t⟩

private theorem owned_unlock (owned : Owned k s) (t ep : Nat) (chain : List Nat) (keys : List Key)
    (calm : (s.polls t).next = none) (top : (s.polls t).chain = ep::chain) :
    Owned k {s.setPolls t ⟨chain,none⟩ with
      nesting := {s.nesting.setMtx ep none with interest := s.nesting.interest.delivered keys}} := by
  have holder (file : Nat) := owned.holder t file
  have mine : s.nesting.mtx ep = some t := (holder ep).mpr (.inr (by simp [top]))
  have nodup := owned.nodup t
  have fresh := owned.chain t
  have linked := owned.linked t
  rw [top] at nodup fresh
  simp only [calm,Traffic.opened,top] at linked
  refine owned.set t ⟨chain,none⟩ _ rfl rfl (graph_delivered s.nesting.interest keys) rfl ?_ ?_ ?_ nodup.of_cons
    linked.tail (owned.apart t fun idle => by simp [idle,noPolls] at top)
  · intro r file other
    by_cases given : file = ep
    · subst given
      simp [Nesting.setMtx,mine,other.symm]
    · simp [Nesting.setMtx,given]
  · intro file
    by_cases given : file = ep
    · subst given
      simp [Nesting.setMtx,(fresh file List.mem_cons_self).2,(List.nodup_cons.mp nodup).1]
    · simp [Nesting.setMtx,given,holder,top]
  · exact fun file member => (fresh file (List.mem_cons_of_mem ep member)).2

theorem owned_move (loops : ∀ g ep target, Reaches (nesting k g) target ep → k.epLoopCheck g ep target = none)
    (l : TrafficLabel) (owned : Owned k s) (move : TrafficMove k s l u) : Owned k u := by
  cases move with
  | ctl l after free move => exact owned_ctl loops owned l after free move
  | scan t ep free here =>
    have wants := owned_wants owned t ep (by simp [Traffic.opened,free,noPolls,Caller.polled,here]) (.inl here)
    rwa [free] at wants
  | poll t ep file rest calm opened edge =>
    refine owned_wants owned t file ?_ ?_
    · simpa [opened] using edge
    · by_cases idle : s.polls t = noPolls
      · right
        simpa [Traffic.opened,idle,noPolls] using congrArg (fun files => files ≠ []) opened
      · exact owned.apart t idle
  | lock t ep next free => exact owned_lock owned t ep next free
  | unlock t ep chain keys calm top => exact owned_unlock owned t ep chain keys calm top

/-- The mutex thread `t` has come to and does not hold yet. -/
def Traffic.Wants (s : Traffic) (t file : Nat) : Prop :=
  (s.polls t).next = some file ∨ s.polls t = noPolls ∧
    (((s.nesting.callers t).pc = .lock ∨ (s.nesting.callers t).pc = .relock) ∧
        (s.nesting.callers t).item.key.ep = file ∨
      (s.nesting.callers t).pc = .lockTarget ∧ (s.nesting.callers t).item.key.file = file)

def Traffic.Busy (s : Traffic) (t : Nat) : Prop := (s.nesting.callers t).pc ≠ .outside ∨ s.polls t ≠ noPolls

def Traffic.Moves (k : Kernel) (s : Traffic) : Prop := ∃ l u, l.continues = true ∧ trafficStep k s l = some u

/-- The insertion that has passed its loop check is the only one, and it would not close a
cycle: together with its edge the nesting orders all the mutexes. -/
theorem Owned.order (owned : Owned k s) : ∃ g : Graph, Acyclic g ∧ (∀ e ∈ s.edges k, e ∈ g) ∧
    ∀ t, (s.nesting.callers t).pc.checked = true → (s.nesting.callers t).nested k = true →
      ((s.nesting.callers t).item.key.ep,(s.nesting.callers t).item.key.file) ∈ g := by
  by_cases pending : ∃ t, (s.nesting.callers t).pc.checked = true ∧ (s.nesting.callers t).nested k = true
  · obtain ⟨t,checked,nested⟩ := pending
    refine ⟨_::s.edges k,owned.ordered.acyclic.cons (owned.ordered.clear t checked nested),
      fun _ member => List.mem_cons_of_mem _ member,fun r later inner => ?_⟩
    have same := owned.ordered.locks.serial_unique (checked_serial later inner) (checked_serial checked nested)
    rw [same]
    exact List.mem_cons_self
  · exact ⟨s.edges k,owned.ordered.acyclic,fun _ member => member,
      fun t checked nested => absurd ⟨t,checked,nested⟩ pending⟩

/-- A thread waits only for mutexes further down than those it holds. -/
theorem Owned.waits_down (owned : Owned k s) {g : Graph} (inside : ∀ e ∈ s.edges k, e ∈ g)
    (pending : ∀ t, (s.nesting.callers t).pc.checked = true → (s.nesting.callers t).nested k = true →
      ((s.nesting.callers t).item.key.ep,(s.nesting.callers t).item.key.file) ∈ g)
    {target : Nat} (held : s.nesting.mtx file = some t) (wants : s.Wants t target) :
    TransGen (Edge g) file target := by
  rcases wants with next | ⟨idle,wants⟩
  · have linked := owned.linked t
    rw [next] at linked
    have down {ep : Nat} (member : ep ∈ s.opened k t) : TransGen (Edge g) ep target :=
      TransGen.mono (fun _ _ edge => inside _ edge) _ _ (chain_leads linked member)
    rcases owned.mtx t file held with holds | member
    · rcases owned.apart t (fun idle => by simp [idle,noPolls] at next) with here | polled
      · simp [Caller.holds,Caller.targeting,CtlPc.locked,here] at holds
      · have here : (s.nesting.callers t).pc = .lookup ∧ (s.nesting.callers t).nested k = true := by
          by_contra other
          exact polled (if_neg other)
        have last : (s.nesting.callers t).item.key.file ∈ s.opened k t := by
          simp [Traffic.opened,Caller.polled,here]
        rcases holds with ⟨_,rfl⟩ | ⟨_,rfl⟩
        · exact .head (pending t (by simp [here,CtlPc.checked]) here.2) (down last)
        · exact down last
    · exact down (List.mem_append_left _ member)
  · have holds : (s.nesting.callers t).holds k file := by
      simpa [idle,noPolls] using owned.mtx t file held
    rcases wants with ⟨here | here,_⟩ | ⟨here,rfl⟩
    · simp [Caller.holds,Caller.targeting,CtlPc.locked,here] at holds
    · simp [Caller.holds,Caller.targeting,CtlPc.locked,here] at holds
    · simp only [Caller.holds,Caller.targeting,CtlPc.locked,here,Bool.false_eq_true,false_and,or_false,
        true_and] at holds
      subst holds
      exact .single (pending t (by simp [here,CtlPc.checked])
        ((owned.ordered.locks.sound t).tep (.inl here)))

/-- A thread inside a call goes on as soon as what it waits for is free. -/
theorem busy_moves (busy : s.Busy t) (free : ∀ file, s.Wants t file → s.nesting.mtx file = none)
    (serial : (s.nesting.callers t).pc = .lockEpmutex → s.nesting.epmutex = none) : s.Moves k := by
  cases next : (s.polls t).next with
  | some ep =>
    have ok := trafficStep.eq_def k s (.lock t)
    simp only [next] at ok
    exact ⟨.lock t,_,rfl,ok.trans (if_pos (free ep (.inl next)))⟩
  | none =>
    cases chain : (s.polls t).chain with
    | cons ep rest =>
      have ok := trafficStep.eq_def k s (.unlock t [])
      simp only [next,chain] at ok
      exact ⟨.unlock t [],_,rfl,ok.trans (if_pos (by simp))⟩
    | nil =>
      have idle : s.polls t = noPolls := by
        cases polls : s.polls t
        simp_all [noPolls]
      have inside := busy.resolve_right fun other => other idle
      have enabled : ∃ u, nestStep k s.nesting (.step t) = some u := by
        simp only [nestStep,Nesting.advance]
        cases here : (s.nesting.callers t).pc with
        | outside => exact absurd here inside
        | lock => exact ⟨_,if_pos (free _ (.inr ⟨idle,.inl ⟨.inl here,rfl⟩⟩))⟩
        | relock => exact ⟨_,if_pos (free _ (.inr ⟨idle,.inl ⟨.inr here,rfl⟩⟩))⟩
        | lockTarget => exact ⟨_,if_pos (free _ (.inr ⟨idle,.inr ⟨here,rfl⟩⟩))⟩
        | lockEpmutex => exact ⟨_,if_pos (serial here)⟩
        | decide | loopCheck =>
          dsimp only
          split <;> exact ⟨_,rfl⟩
        | lookup | pathCheck | unlockTarget | unlock | unlockEpmutex => exact ⟨_,rfl⟩
      obtain ⟨u,ok⟩ := enabled
      exact ⟨.ctl (.step t),{s with nesting := u},rfl,by simp [trafficStep,NestLabel.thread,idle,ok]⟩

/-- Whoever holds a mutex, somebody below can go on. -/
theorem Owned.held_moves (owned : Owned k s) (file t : Nat) (held : s.nesting.mtx file = some t) : s.Moves k := by
  obtain ⟨g,acyclic,inside,pending⟩ := owned.order
  induction file using acyclic.wellFounded.induction generalizing t with
  | _ file ih =>
    by_cases blocked : ∃ target r, s.Wants t target ∧ s.nesting.mtx target = some r
    · obtain ⟨target,r,wants,taken⟩ := blocked
      exact ih target (owned.waits_down inside pending held wants) r taken
    · refine busy_moves (t := t) ?_ ?_ ?_
      · rcases owned.mtx t file held with holds | member
        · exact .inl fun here => by simp [Caller.holds,Caller.targeting,CtlPc.locked,here] at holds
        · exact .inr fun idle => by simp [idle,noPolls] at member
      · intro target wants
        cases taken : s.nesting.mtx target with
        | none => rfl
        | some r => exact absurd ⟨target,r,wants,taken⟩ blocked
      · intro here
        rcases owned.mtx t file held with holds | member
        · simp [Caller.holds,Caller.targeting,CtlPc.locked,here] at holds
        · have apart := owned.apart t fun idle => by simp [idle,noPolls] at member
          simp [here,Caller.polled] at apart

/-- As long as some call is under way, one of them can go on. -/
theorem Owned.progress (owned : Owned k s) (t : Nat) (busy : s.Busy t) : s.Moves k := by
  by_cases held : ∃ file r, s.nesting.mtx file = some r
  · obtain ⟨file,r,held⟩ := held
    exact owned.held_moves file r held
  · have free (file : Nat) : s.nesting.mtx file = none := by
      cases taken : s.nesting.mtx file with
      | none => rfl
      | some r => exact absurd ⟨file,r,taken⟩ held
    cases serial : s.nesting.epmutex with
    | none => exact busy_moves busy (fun file _ => free file) fun _ => serial
    | some r =>
      have inside := owned.epmutex r serial
      refine busy_moves (t := r) (.inl fun here => ?_) (fun file _ => free file) fun here => ?_
      · simp [Caller.serial,here] at inside
      · simp [Caller.serial,here] at inside

/-- How many more steps a call makes at most. -/
def CtlPc.remaining : CtlPc → Nat
  | .outside => 0
  | .unlockEpmutex => 1
  | .unlock => 2
  | .unlockTarget => 3
  | .pathCheck => 4
  | .lookup => 5
  | .lockTarget => 6
  | .relock => 7
  | .loopCheck => 8
  | .lockEpmutex => 9
  | .decide => 10
  | .lock => 11

def Polls.remaining (polls : Polls) : Nat := 2 * polls.next.toList.length + polls.chain.length

def Traffic.remaining (s : Traffic) (t : Nat) : Nat :=
  (s.nesting.callers t).pc.remaining + (s.polls t).remaining

theorem advance_shortens {s u : Nesting} (move : NestMove k s (.step t) u) :
    (u.callers t).pc.remaining < (s.callers t).pc.remaining := by
  have leaves (w : Caller) (error : Int) : (w.leave k error).pc.remaining ≤ 3 := by
    unfold Caller.leave
    split <;> simp [CtlPc.remaining]
  cases move with
  | locked _ here | deferred _ here | decided _ here | serialized _ here | looped _ here | listed _ _ here
  | targeted _ here | inserted _ here | unlockedTarget _ here | released _ here =>
    simp [here,CtlPc.remaining]
  | relocked _ here | unlocked _ here =>
    simp only [here,setCaller_self]
    split <;> simp [CtlPc.remaining]
  | stopped _ error here | switched _ error _ here =>
    simp only [here,setCaller_self]
    exact Nat.lt_of_le_of_lt (leaves _ error) (by simp [CtlPc.remaining])
  | rejected _ here | accepted _ here =>
    simp only [here,setCaller_self]
    exact Nat.lt_of_le_of_lt (leaves _ _) (by simp [CtlPc.remaining])

/-- Every step that goes on with a call brings its thread nearer to the end of it. -/
theorem continues_shortens {l : TrafficLabel} (move : TrafficMove k s l u) (continues : l.continues = true) :
    ∃ t, s.Busy t ∧ u.remaining t < s.remaining t ∧ ∀ r ≠ t, u.remaining r = s.remaining r := by
  cases move with
  | ctl l after free move =>
    cases l with
    | call t c => cases continues
    | step t =>
      have less := advance_shortens move
      refine ⟨t,.inl fun here => ?_,?_,?_⟩
      · simp [here,CtlPc.remaining] at less
      · simpa [Traffic.remaining] using less
      · intro r other
        simp only [Traffic.remaining,caller_kept k s.nesting after (.step t) move r other]
  | scan | poll => cases continues
  | lock t ep next free =>
    refine ⟨t,.inr fun idle => by simp [idle,noPolls] at next,?_,?_⟩
    · simp [Traffic.remaining,Traffic.setPolls,Nesting.setMtx,Polls.remaining,next]
      omega
    · intro r other
      simp [Traffic.remaining,Traffic.setPolls,Nesting.setMtx,other]
  | unlock t ep chain keys calm top =>
    refine ⟨t,.inr fun idle => by simp [idle,noPolls] at top,?_,?_⟩
    · simp [Traffic.remaining,Traffic.setPolls,Nesting.setMtx,Polls.remaining,calm,top]
    · intro r other
      simp [Traffic.remaining,Traffic.setPolls,Nesting.setMtx,other]

theorem remaining_zero : s.remaining t = 0 ↔ ¬s.Busy t := by
  have pc (here : CtlPc) : here.remaining = 0 ↔ here = .outside := by
    cases here <;> simp [CtlPc.remaining]
  have polls (p : Polls) : p.remaining = 0 ↔ p = noPolls := by
    obtain ⟨chain,next⟩ := p
    cases next <;> simp [Polls.remaining,noPolls]
  rw [Traffic.remaining,Nat.add_eq_zero_iff,pc,polls,Traffic.Busy,not_or,not_not,not_not]

theorem threads_shorten {l : TrafficLabel} (move : TrafficMove k s l u) (continues : l.continues = true)
    {threads : Finset Nat} (all : ∀ t, s.Busy t → t ∈ threads) :
    (∀ t, u.Busy t → t ∈ threads) ∧ ∑ t ∈ threads, u.remaining t < ∑ t ∈ threads, s.remaining t := by
  obtain ⟨t,busy,less,rest⟩ := continues_shortens move continues
  refine ⟨fun r later => ?_,?_⟩
  · by_cases who : r = t
    · exact who ▸ all t busy
    · refine all r (not_not.mp fun done => ?_)
      have none := rest r who
      rw [remaining_zero.mpr done] at none
      exact remaining_zero.mp none later
  · refine Finset.sum_lt_sum (fun r _ => ?_) ⟨t,all t busy,less⟩
    by_cases who : r = t
    · exact who ▸ less.le
    · exact (rest r who).le

end

/-- No call is under way and nothing of one is left. -/
structure Traffic.Settled (s : Traffic) : Prop where
  callers : ∀ t, (s.nesting.callers t).pc = .outside
  polls : ∀ t, s.polls t = noPolls
  epmutex : s.nesting.epmutex = none
  mtx : ∀ file, s.nesting.mtx file = none
  unlisted : s.nesting.interest.tfileCheckList = []

theorem Owned.settled {k : Kernel} {s : Traffic} (owned : Owned k s) (done : ∀ t, ¬s.Busy t) : s.Settled := by
  have callers (t : Nat) : (s.nesting.callers t).pc = .outside := by
    by_contra inside
    exact done t (.inl inside)
  have polls (t : Nat) : s.polls t = noPolls := by
    by_contra busy
    exact done t (.inr busy)
  refine ⟨callers,polls,?_,?_,?_⟩
  · cases serial : s.nesting.epmutex with
    | none => rfl
    | some t =>
      have inside := owned.epmutex t serial
      simp [Caller.serial,callers t] at inside
  · intro file
    cases held : s.nesting.mtx file with
    | none => rfl
    | some t =>
      have holder := owned.mtx t file held
      simp [Caller.holds,Caller.targeting,CtlPc.locked,callers t,polls t,noPolls] at holder
  · by_contra listed
    obtain ⟨t,listing⟩ := owned.listed listed
    simp [Caller.listing,callers t] at listing

/-- Nobody is inside a call, and the nesting has no cycle. -/
def Unused (k : Kernel) (s : Traffic) : Prop :=
  Quiet s.nesting ∧ (∀ t, s.polls t = noPolls) ∧ Acyclic (s.edges k)

section
variable (k : Kernel)
  (loops : ∀ g ep target, Reaches (nesting k g) target ep → k.epLoopCheck g ep target = none)
include loops

theorem owned_reached (s : Traffic) (reached : Reachable (Unused k) (trafficStep k) s) : Owned k s := by
  refine Reachable.invariant (Owned k) ?_ ?_ reached
  · rintro s ⟨quiet,idle,acyclic⟩
    have ordered : Ordered k s.nesting := by
      refine ⟨locks_quiet k s.nesting quiet,acyclic,fun t checked => ?_⟩
      simp [quiet.outside t,CtlPc.checked] at checked
    refine ⟨ordered,?_,?_,?_,?_,?_,?_,fun listed => absurd quiet.unlisted listed⟩
    · simp [quiet.epmutex]
    · simp [quiet.mtx]
    · simp [idle,noPolls]
    · simp [idle,noPolls]
    · intro t
      simp [Traffic.opened,idle,noPolls,Caller.polled,quiet.outside t]
    · exact fun t busy => absurd (idle t) busy
  · intro s l u owned ok
    exact owned_move loops l owned (trafficStep_move k s u l ok)

end

/-- Only finitely many threads have ever made a call. -/
theorem busy_finite (k : Kernel) (s : Traffic) (reached : Reachable (Unused k) (trafficStep k) s) :
    ∃ threads : Finset Nat, ∀ t, s.Busy t → t ∈ threads := by
  refine Reachable.invariant (fun s => ∃ threads : Finset Nat, ∀ t, s.Busy t → t ∈ threads) ?_ ?_ reached
  · rintro s ⟨quiet,idle,_⟩
    refine ⟨∅,fun t busy => ?_⟩
    simp [Traffic.Busy,quiet.outside t,idle t] at busy
  · rintro s l u ⟨threads,all⟩ ok
    have one (t : Nat) (same : ∀ r ≠ t, u.Busy r → s.Busy r) : ∃ threads : Finset Nat, ∀ t, u.Busy t → t ∈ threads := by
      refine ⟨insert t threads,fun r busy => Finset.mem_insert.mpr ?_⟩
      by_cases who : r = t
      · exact .inl who
      · exact .inr (all r (same r who busy))
    cases trafficStep_move k s u l ok with
    | ctl l after free move =>
      refine one l.thread fun r other busy => ?_
      simpa only [Traffic.Busy,caller_kept k s.nesting after l move r other] using busy
    | scan t | poll t | lock t | unlock t =>
      refine one t fun r other busy => ?_
      simpa [Traffic.Busy,Traffic.setPolls,Nesting.setMtx,other] using busy

section
variable (k : Kernel)
  (loops : ∀ g ep target, Reaches (nesting k g) target ep → k.epLoopCheck g ep target = none)
include loops

/-- However the calls of `epoll_ctl` and the scans interleave, they cannot block each
other for good: once no new one starts, a bounded number of steps in any order ends them
all, with every mutex free and the check list empty. -/
theorem calls_complete (s : Traffic) (reached : Reachable (Unused k) (trafficStep k) s) :
    ∃ bound, ∀ ls u, Run (trafficStep k) s ls u → (∀ l ∈ ls, l.continues = true) →
      ls.length ≤ bound ∧ ((∀ l, l.continues = true → trafficStep k u l = none) → u.Settled) := by
  obtain ⟨threads,all⟩ := busy_finite k s reached
  refine ⟨∑ t ∈ threads, s.remaining t,fun ls u run continuing => ?_⟩
  have owned := owned_reached k loops u (reached.run run)
  obtain ⟨_,short⟩ := run.shrinks (fun l => l.continues = true) (fun s => ∀ t, s.Busy t → t ∈ threads)
    (fun s => ∑ t ∈ threads, s.remaining t)
    (fun s l v all continues ok => threads_shorten (trafficStep_move k s v l ok) continues all) continuing all
  refine ⟨by omega,fun stuck => ?_⟩
  refine owned.settled fun t busy => ?_
  obtain ⟨l,v,continues,ok⟩ := owned.progress t busy
  rw [stuck l continues] at ok
  cases ok

end

def unused : Traffic := ⟨idle,fun _ => noPolls⟩

theorem unused_start : Unused linux unused := ⟨idle_quiet,fun _ => rfl,idle_acyclic linux⟩

/-- Eventpoll 0 watches eventpoll 1. Thread 1 scans both, one inside the other; a call that
adds to eventpoll 0 and a scan of eventpoll 1 wait for it. -/
def nestedScan : List TrafficLabel :=
  [TrafficLabel.ctl (add 0 0 1)] ++ List.replicate 11 (TrafficLabel.ctl (.step 0)) ++
    [TrafficLabel.scan 1 0,.lock 1,.poll 1 1,.lock 1,.ctl (add 2 0 2),.scan 3 1]

theorem calls_complete_nestedScan :
    (final (trafficStep linux) unused nestedScan).polls 1 = ⟨[1,0],none⟩ ∧
    trafficStep linux (final (trafficStep linux) unused nestedScan) (.ctl (.step 2)) = none ∧
    trafficStep linux (final (trafficStep linux) unused nestedScan) (.lock 3) = none ∧
    ∃ bound, ∀ ls u, Run (trafficStep linux) (final (trafficStep linux) unused nestedScan) ls u →
      (∀ l ∈ ls, l.continues = true) →
        ls.length ≤ bound ∧ ((∀ l, l.continues = true → trafficStep linux u l = none) → u.Settled) :=
  ⟨by decide,Option.isNone_iff_eq_none.mp (by decide),Option.isNone_iff_eq_none.mp (by decide),
    calls_complete linux linux_loops _
      ⟨unused,nestedScan,unused_start,final_run (trafficStep linux) unused nestedScan (by decide)⟩⟩

end Reactor.Epoll
