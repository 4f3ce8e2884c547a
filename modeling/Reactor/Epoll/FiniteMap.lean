import Reactor.Transition
import Reactor.Epoll.Control

/-! `epoll_ctl` as a finite map from the keys of items to their masks: what each return
value says, and what holds of the items after any sequence of calls and deliveries. -/
namespace Reactor.Epoll
open Reactor.Transition

def interest (items : List Item) (key : Key) : Option EventMask := (epFind items key).map Item.events

def Interest.met (k : Kernel) (s : Interest) (c : CtlCall) : List Key :=
  match ctlArgs k c with
  | .error _ => []
  | .ok item =>
    if fullCheck k c.op s.items item.key then
      if (checkList k (s.delivered c.gap) item.key).isSome then c.gap ++ c.regap else c.gap
    else []

def Passes (k : Kernel) (s : Interest) (c : CtlCall) (item : Item) : Prop :=
  ctlArgs k c = .ok item ∧
    (fullCheck k c.op s.items item.key = true → (checkList k (s.delivered c.gap) item.key).isSome = true)

private theorem deliver_key (key : Key) (item : Item) :
    (if item.key = key then {item with events := settled item.events} else item).key = item.key := by
  split <;> rfl

theorem delivered_find (keys : List Key) (items : List Item) (key : Key) :
    (epFind (keys.foldl deliver items) key).isSome = (epFind items key).isSome := by
  induction keys generalizing items with
  | nil => rfl
  | cons first keys ih =>
    rw [List.foldl_cons,ih]
    unfold deliver epFind
    rw [Keyed.find_map Item.key _ (deliver_key first),Option.isSome_map]

theorem delivered_unique (keys : List Key) (items : List Item) (unique : Keyed.Unique Item.key items) :
    Keyed.Unique Item.key (keys.foldl deliver items) := by
  induction keys generalizing items with
  | nil => exact unique
  | cons first keys ih => exact ih _ (Keyed.unique_map Item.key _ (deliver_key first) unique)

theorem delivered_member (keys : List Key) (items : List Item) (item : Item)
    (member : item ∈ keys.foldl deliver items) :
    ∃ old ∈ items, old.key = item.key ∧ (item.events = old.events ∨ item.events = settled old.events) := by
  induction keys generalizing items with
  | nil => exact ⟨item,member,rfl,.inl rfl⟩
  | cons first keys ih =>
    obtain ⟨mid,inside,same,events⟩ := ih _ member
    obtain ⟨old,there,rfl⟩ := List.mem_map.mp inside
    rw [deliver_key] at same
    refine ⟨old,there,same,?_⟩
    split at events
    · right
      rcases events with once | twice
      · exact once
      · rw [twice,settled_settled]
    · exact events

/-- What a call does to the items that are there when it looks its own up. -/
inductive Effect (k : Kernel) (c : CtlCall) (before : List Item) : Int → List Item → Prop
  | unchanged (error : Int) (failed : error ≠ 0) : Effect k c before error before
  | added (item : Item) (args : ctlArgs k c = .ok item) (op : c.op = epollCtlAdd)
      (fresh : epFind before item.key = none) : Effect k c before 0 (item.withErrors :: before)
  | removed (item old : Item) (args : ctlArgs k c = .ok item) (op : c.op = epollCtlDel)
      (found : epFind before item.key = some old) : Effect k c before 0 (before.erase old)
  | modified (item old : Item) (args : ctlArgs k c = .ok item) (op : c.op = epollCtlMod)
      (found : epFind before item.key = some old) (shared : hits old.events epollExclusive = false) :
      Effect k c before 0 (before.map fun other => if other.key = item.key then item.withErrors else other)

private theorem ctlInsert_effect (k : Kernel) (c : CtlCall) (s : Interest) (full : Bool) (item : Item)
    (args : ctlArgs k c = .ok item) (op : c.op = epollCtlAdd) (fresh : epFind s.items item.key = none) :
    Effect k c s.items (s.ctlInsert k c.env full item.withErrors).1
      (s.ctlInsert k c.env full item.withErrors).2.items := by
  unfold Interest.ctlInsert
  split
  next error failed =>
    refine .unchanged error ?_
    rcases epInsert_error failed with rfl | rfl | ⟨rfl,nonzero⟩
    · decide
    · decide
    · exact nonzero
  next items ok =>
    rw [epInsert_ok ok]
    split
    · simpa using Effect.unchanged (-einval) (by decide)
    · exact .added item args op fresh

private theorem ctlSwitch_effect (k : Kernel) (c : CtlCall) (s : Interest) (full : Bool) (item : Item)
    (args : ctlArgs k c = .ok item) :
    Effect k c s.items (s.ctlSwitch k c.op c.env full item).1 (s.ctlSwitch k c.op c.env full item).2.items := by
  unfold Interest.ctlSwitch
  split
  next op =>
    unfold Interest.ctlAdd
    split
    · rw [clearTfileCheckList_items]
      exact .unchanged (-eexist) (by decide)
    next fresh =>
      rw [clearTfileCheckList_items]
      exact ctlInsert_effect k c s full item args op fresh
  · split
    next op =>
      unfold Interest.ctlDel
      split
      next old found => exact .removed item old args op found
      · exact .unchanged (-enoent) (by decide)
    · split
      next op =>
        unfold Interest.ctlMod
        split
        next old found =>
          split
          · exact .unchanged (-einval) (by decide)
          next shared => exact .modified item old args op found (by simpa using shared)
        · exact .unchanged (-enoent) (by decide)
      · exact .unchanged (-einval) (by decide)

theorem epollCtl_cases (k : Kernel) (s : Interest) (c : CtlCall) :
    (∃ (item : Item) (u : Interest), Passes k s c item ∧ u.items = (s.delivered (s.met k c)).items ∧
      s.epollCtl k c = u.ctlSwitch k c.op c.env (fullCheck k c.op s.items item.key) item) ∨
    (∀ item, ¬Passes k s c item) ∧ (s.epollCtl k c).2.items = (s.delivered (s.met k c)).items ∧
      (s.epollCtl k c).1 ∈ [-efault,-ebadf,-eperm,-einval,-eloop] := by
  unfold Interest.epollCtl Interest.met Passes
  cases args : ctlArgs k c with
  | error error =>
    refine .inr ⟨by simp,rfl,?_⟩
    rcases ctlArgs_error k c error args with rfl | rfl | rfl | rfl <;> simp
  | ok item =>
    by_cases full : fullCheck k c.op s.items item.key = true
    · cases list : checkList k (s.delivered c.gap) item.key with
      | none =>
        simp only [full,if_true,list,clearTfileCheckList_items,Option.isSome_none]
        refine .inr ⟨?_,rfl,by simp⟩
        rintro other ⟨same,passed⟩
        cases same
        simpa [list] using passed full
      | some files =>
        simp only [full,if_true,list,Option.isSome_some]
        refine .inl ⟨item,{s.delivered c.gap with tfileCheckList := files}.delivered c.regap,
          ⟨rfl,by simp [list]⟩,?_,by rw [full]⟩
        simp [Interest.delivered,List.foldl_append]
    · simp only [full]
      exact .inl ⟨item,s,⟨rfl,fun taken => absurd taken full⟩,rfl,by simp [full]⟩

theorem epollCtl_effect (k : Kernel) (s : Interest) (c : CtlCall) :
    Effect k c (s.delivered (s.met k c)).items (s.epollCtl k c).1 (s.epollCtl k c).2.items := by
  rcases epollCtl_cases k s c with ⟨item,u,passes,items,result⟩ | ⟨_,items,error⟩
  · rw [result,← items]
    exact ctlSwitch_effect k c u _ item passes.1
  · rw [items]
    refine .unchanged _ ?_
    intro zero
    rw [zero] at error
    revert error
    decide

def Watched (events : EventMask) : Prop :=
  events &&& (pollErr ||| pollHup) = pollErr ||| pollHup ∨ events &&& epPrivateBits = events

structure Interest.Admitted (k : Kernel) (s : Interest) : Prop where
  unique : Keyed.Unique Item.key s.items
  unlisted : s.tfileCheckList = []
  masks : ∀ item ∈ s.items, Watched item.events
  exclusive : ∀ item ∈ s.items, hits item.events epollExclusive = true →
    k.isFileEpoll item.key.file = false ∧ item.events &&& ~~~epollExclusiveOkBits = 0

private theorem withErrors_watched (item : Item) : Watched item.withErrors.events := by
  left
  ext j bound
  simp only [Item.withErrors,BitVec.getElem_and,BitVec.getElem_or]
  cases item.events[j] <;> cases pollErr[j] <;> cases pollHup[j] <;> rfl

private theorem withErrors_exclusive (item : Item) :
    hits item.withErrors.events epollExclusive = hits item.events epollExclusive := by
  unfold hits Item.withErrors
  rw [withErrors_and item.events epollExclusive (by decide) (by decide)]

private theorem settled_watched (events : EventMask) (watched : Watched events) : Watched (settled events) := by
  unfold settled
  split
  · right
    rw [BitVec.and_assoc,BitVec.and_self]
  · exact watched

private theorem settled_exclusive (events : EventMask) (bits : events &&& ~~~epollExclusiveOkBits = 0) :
    settled events = events := by
  have none : hits events epollOneshot = false := by
    rw [not_hits_iff,← inside_of_outside_zero events epollExclusiveOkBits bits,BitVec.and_assoc]
    have apart : epollExclusiveOkBits &&& epollOneshot = 0 := by decide
    rw [apart]
    simp
  simp [settled,none]

private theorem settled_hits_exclusive (events : EventMask) :
    hits (settled events) epollExclusive = hits events epollExclusive := by
  rw [hits,hits,settled_private events epollExclusive (by decide)]

private theorem delivered_exclusive (k : Kernel) (s : Interest) (keys : List Key) (admitted : s.Admitted k)
    (item : Item) (member : item ∈ (s.delivered keys).items)
    (exclusive : hits item.events epollExclusive = true) :
    ∃ old ∈ s.items, old.key = item.key ∧ old.events = item.events := by
  obtain ⟨old,inside,key,events⟩ := delivered_member keys s.items item member
  have before : hits old.events epollExclusive = true := by
    rcases events with same | settles
    · exact same ▸ exclusive
    · rw [settles,settled_hits_exclusive] at exclusive
      exact exclusive
  rw [settled_exclusive old.events (admitted.exclusive old inside before).2,or_self] at events
  exact ⟨old,inside,key,events.symm⟩

theorem admitted_delivered (k : Kernel) (s : Interest) (keys : List Key) (admitted : s.Admitted k) :
    (s.delivered keys).Admitted k := by
  refine ⟨delivered_unique keys s.items admitted.unique,admitted.unlisted,?_,?_⟩
  · intro item member
    obtain ⟨old,inside,_,events⟩ := delivered_member keys s.items item member
    rcases events with same | settles
    · exact same ▸ admitted.masks old inside
    · exact settles ▸ settled_watched _ (admitted.masks old inside)
  · intro item member exclusive
    obtain ⟨old,inside,key,events⟩ := delivered_exclusive k s keys admitted item member exclusive
    rw [← key,← events]
    exact admitted.exclusive old inside (events ▸ exclusive)

private theorem args_exclusive (k : Kernel) (c : CtlCall) (item : Item) (args : ctlArgs k c = .ok item)
    (op : c.op = epollCtlAdd) (exclusive : hits item.events epollExclusive = true) :
    k.isFileEpoll item.key.file = false ∧ item.events &&& ~~~epollExclusiveOkBits = 0 := by
  have admitted := (ctlArgs_ok k c item args).2.2.2
  have event : epOpHasEvent epollCtlAdd = true := by decide
  have different : decide (epollCtlAdd = epollCtlMod) = false := by decide
  simp only [exclusiveRefused,op,event,exclusive,different,Bool.true_and,Bool.false_or,decide_true,
    Bool.or_eq_false_iff] at admitted
  exact ⟨admitted.1,(not_hits_iff _ _).mp admitted.2⟩

private theorem args_modified (k : Kernel) (c : CtlCall) (item : Item) (args : ctlArgs k c = .ok item)
    (op : c.op = epollCtlMod) : hits item.events epollExclusive = false := by
  have admitted := (ctlArgs_ok k c item args).2.2.2
  have event : epOpHasEvent epollCtlMod = true := by decide
  simpa [exclusiveRefused,op,event] using admitted

private theorem effect_admitted (k : Kernel) (c : CtlCall) (s t : Interest) (error : Int)
    (admitted : s.Admitted k) (unlisted : t.tfileCheckList = []) (effect : Effect k c s.items error t.items) :
    t.Admitted k := by
  obtain ⟨items,list⟩ := t
  cases unlisted
  cases effect with
  | unchanged _ failed => exact {admitted with unlisted := rfl}
  | added item args op fresh =>
    refine ⟨Keyed.unique_cons Item.key admitted.unique fresh,rfl,?_,?_⟩
    · intro other member
      rcases List.mem_cons.mp member with rfl | old
      · exact withErrors_watched item
      · exact admitted.masks other old
    · intro other member exclusive
      rcases List.mem_cons.mp member with rfl | old
      · rw [withErrors_exclusive] at exclusive
        obtain ⟨plain,bits⟩ := args_exclusive k c item args op exclusive
        refine ⟨plain,?_⟩
        rw [Item.withErrors,withErrors_and item.events _ (by decide) (by decide)]
        exact bits
      · exact admitted.exclusive other old exclusive
  | removed item old args op found =>
    exact ⟨Keyed.unique_erase Item.key admitted.unique old,rfl,
      fun other member => admitted.masks other (List.mem_of_mem_erase member),
      fun other member => admitted.exclusive other (List.mem_of_mem_erase member)⟩
  | modified item old args op found shared =>
    refine ⟨Keyed.unique_map Item.key _ ?_ admitted.unique,rfl,?_,?_⟩
    · intro other
      split
      next same => exact same.symm
      next => rfl
    · intro other member
      obtain ⟨before,inside,rfl⟩ := List.mem_map.mp member
      split
      · exact withErrors_watched item
      · exact admitted.masks before inside
    · intro other member exclusive
      obtain ⟨before,inside,rfl⟩ := List.mem_map.mp member
      split at exclusive
      · rw [withErrors_exclusive,args_modified k c item args op] at exclusive
        cases exclusive
      next different =>
        rw [if_neg different]
        exact admitted.exclusive before inside exclusive

private theorem ctlAdd_listed (k : Kernel) (env : InsertEnv) (s : Interest) (full : Bool) (item : Item) :
    (s.ctlAdd k env full item).2.tfileCheckList = if full then [] else s.tfileCheckList := by
  have kept (t : Interest) (same : t.tfileCheckList = s.tfileCheckList) :
      (t.clearTfileCheckList full).tfileCheckList = if full then [] else s.tfileCheckList := by
    cases full
    · exact same
    · rfl
  unfold Interest.ctlAdd
  split
  · exact kept s rfl
  · apply kept _
    unfold Interest.ctlInsert
    split
    · rfl
    · split <;> rfl

private theorem ctlSwitch_listed (k : Kernel) (op : Int) (env : InsertEnv) (s : Interest) (item : Item) :
    (s.ctlSwitch k op env false item).2.tfileCheckList = s.tfileCheckList := by
  unfold Interest.ctlSwitch
  split
  · exact ctlAdd_listed k env s false item
  · split
    · unfold Interest.ctlDel
      split <;> rfl
    · split
      · unfold Interest.ctlMod
        split
        · split <;> rfl
        · rfl
      · rfl

theorem epollCtl_unlisted (k : Kernel) (s : Interest) (c : CtlCall) (unlisted : s.tfileCheckList = []) :
    (s.epollCtl k c).2.tfileCheckList = [] := by
  unfold Interest.epollCtl
  split
  · exact unlisted
  next item args =>
    split
    next full =>
      have op : c.op = epollCtlAdd := by simpa using (Bool.and_eq_true_iff.mp full).1
      split
      · rfl
      · rw [Interest.ctlSwitch,if_pos op,ctlAdd_listed]
        rfl
    · rw [ctlSwitch_listed]
      exact unlisted

theorem epollCtl_admitted (k : Kernel) (s : Interest) (c : CtlCall) (admitted : s.Admitted k) :
    (s.epollCtl k c).2.Admitted k :=
  effect_admitted k c _ _ _ (admitted_delivered k s (s.met k c) admitted)
    (epollCtl_unlisted k s c admitted.unlisted) (epollCtl_effect k s c)

inductive CtlLabel
  | ctl (c : CtlCall)
  | deliver (key : Key)
  deriving DecidableEq, Repr

def ctlStep (k : Kernel) (s : Interest) : CtlLabel → Option Interest
  | .ctl c => some (s.epollCtl k c).2
  | .deliver key => some (s.delivered [key])

def addGives (k : Kernel) (s : Interest) (l : CtlLabel) (key : Key) : Option EventMask :=
  match l with
  | .ctl c => match ctlArgs k c with
    | .ok item =>
      if c.op = epollCtlAdd ∧ (s.epollCtl k c).1 = 0 ∧ item.key = key then
        interest (s.epollCtl k c).2.items key
      else none
    | .error _ => none
  | .deliver _ => none

def lastAdd (k : Kernel) : Interest → List CtlLabel → (Key → Option EventMask) → Key → Option EventMask
  | _, [], given => given
  | s, l::ls, given =>
    match ctlStep k s l with
    | some t => lastAdd k t ls fun key => (addGives k s l key).or (given key)
    | none => given

theorem admitted_step (k : Kernel) (s t : Interest) (l : CtlLabel) (admitted : s.Admitted k)
    (ok : ctlStep k s l = some t) : t.Admitted k := by
  cases l with
  | ctl c =>
    cases ok
    exact epollCtl_admitted k s c admitted
  | deliver key =>
    cases ok
    exact admitted_delivered k s [key] admitted

theorem exclusive_step (k : Kernel) (s t : Interest) (l : CtlLabel) (admitted : s.Admitted k)
    (ok : ctlStep k s l = some t) (item : Item) (member : item ∈ t.items)
    (exclusive : hits item.events epollExclusive = true) :
    addGives k s l item.key = some item.events ∨
      addGives k s l item.key = none ∧ ∃ old ∈ s.items, old.key = item.key ∧ old.events = item.events := by
  have kept (keys : List Key) (inside : item ∈ (s.delivered keys).items) :=
    delivered_exclusive k s keys admitted item inside exclusive
  cases l with
  | deliver key =>
    cases ok
    exact .inr ⟨rfl,kept [key] member⟩
  | ctl c =>
    cases ok
    have after := epollCtl_admitted k s c admitted
    have effect := epollCtl_effect k s c
    simp only [addGives]
    generalize s.epollCtl k c = result at after effect member ⊢
    obtain ⟨error,items,list⟩ := result
    cases effect with
    | unchanged _ failed =>
      refine .inr ⟨?_,kept _ member⟩
      cases ctlArgs k c <;> simp [failed]
    | added new args op fresh =>
      simp only [args,op,true_and]
      rcases List.mem_cons.mp member with rfl | old
      · left
        rw [if_pos ⟨rfl,rfl⟩,interest,epFind,Keyed.find_of_mem Item.key after.unique member]
        rfl
      · have other : new.key ≠ item.key := fun same =>
          (Keyed.find_none Item.key).mp fresh item old same.symm
        exact .inr ⟨if_neg fun both => other both.2,kept _ old⟩
    | removed gone old args op found =>
      refine .inr ⟨?_,kept _ (List.mem_of_mem_erase member)⟩
      have different : ¬epollCtlDel = epollCtlAdd := by decide
      simp [args,op,different]
    | modified new old args op found shared =>
      obtain ⟨before,inside,rfl⟩ := List.mem_map.mp member
      split at exclusive
      · rw [withErrors_exclusive,args_modified k c new args op] at exclusive
        cases exclusive
      next different =>
        rw [if_neg different] at kept ⊢
        have other : ¬epollCtlMod = epollCtlAdd := by decide
        exact .inr ⟨by simp [args,op,other],kept _ inside⟩

private theorem exclusive_run (k : Kernel) (s t : Interest) (ls : List CtlLabel) (run : Run (ctlStep k) s ls t)
    (given : Key → Option EventMask) (admitted : s.Admitted k)
    (recorded : ∀ item ∈ s.items, hits item.events epollExclusive = true → given item.key = some item.events) :
    t.Admitted k ∧ ∀ item ∈ t.items, hits item.events epollExclusive = true →
      lastAdd k s ls given item.key = some item.events := by
  induction run generalizing given with
  | nil => exact ⟨admitted,recorded⟩
  | cons s l next ls t head tail ih =>
    rw [lastAdd,head]
    apply ih _ (admitted_step k s next l admitted head)
    intro item member exclusive
    rcases exclusive_step k s next l admitted head item member exclusive with new | ⟨none,old,inside,key,events⟩
    · rw [new]
      rfl
    · rw [none,← key,recorded old inside (events ▸ exclusive),events]
      rfl

/-- What one call means for the map of the items: which return value says what, and
what the call leaves when it succeeds and when it fails. -/
structure Meets (k : Kernel) (s : Interest) (c : CtlCall) : Prop where
  exists_iff : c.op = epollCtlAdd → ((s.epollCtl k c).1 = -eexist ↔
    ∃ item, Passes k s c item ∧ interest s.items item.key ≠ none)
  added : c.op = epollCtlAdd → (s.epollCtl k c).1 = 0 →
    ∃ item, Passes k s c item ∧ interest s.items item.key = none ∧
      interest (s.epollCtl k c).2.items = Function.update (interest (s.delivered (s.met k c)).items) item.key
        (some (item.events ||| pollErr ||| pollHup))
  absent_iff : c.op = epollCtlDel ∨ c.op = epollCtlMod → ((s.epollCtl k c).1 = -enoent ↔
    ∃ item, Passes k s c item ∧ interest s.items item.key = none)
  removed : c.op = epollCtlDel → (s.epollCtl k c).1 = 0 →
    ∃ item, Passes k s c item ∧ interest s.items item.key ≠ none ∧
      interest (s.epollCtl k c).2.items = Function.update (interest s.items) item.key none
  modified : c.op = epollCtlMod → (s.epollCtl k c).1 = 0 →
    ∃ item, Passes k s c item ∧ interest s.items item.key ≠ none ∧
      interest (s.epollCtl k c).2.items = Function.update (interest s.items) item.key
        (some (item.events ||| pollErr ||| pollHup))
  other : c.op ≠ epollCtlAdd → c.op ≠ epollCtlDel → c.op ≠ epollCtlMod → (s.epollCtl k c).1 ≠ 0
  failed : (s.epollCtl k c).1 ≠ 0 →
    (s.epollCtl k c).2.items = (s.delivered (s.met k c)).items ∧ (s.epollCtl k c).2.tfileCheckList = []

private theorem interest_none (items : List Item) (key : Key) :
    interest items key = none ↔ epFind items key = none := by
  simp [interest]

private theorem delivered_absent (keys : List Key) (s : Interest) (key : Key) :
    epFind (s.delivered keys).items key = none ↔ interest s.items key = none := by
  rw [interest_none,← Option.not_isSome_iff_eq_none,← Option.not_isSome_iff_eq_none,Interest.delivered,
    delivered_find]

private theorem ctlAdd_exists (k : Kernel) (env : InsertEnv) (s : Interest) (full : Bool) (item : Item)
    (sourced : env.wakeupSource = 0 ∨ env.wakeupSource = -enomem) :
    (s.ctlAdd k env full item).1 = -eexist ↔ epFind s.items item.key ≠ none := by
  unfold Interest.ctlAdd
  split
  next old found => simp [found]
  next fresh =>
    simp only [fresh,ne_eq,not_true_eq_false,iff_false]
    unfold Interest.ctlInsert
    split
    next error failed =>
      rcases epInsert_error failed with rfl | rfl | ⟨rfl,nonzero⟩
      · simp [enospc,eexist]
      · simp [enomem,eexist]
      · simp [sourced.resolve_left nonzero,enomem,eexist]
    · split <;> simp [einval,eexist]

private theorem ctlDel_absent (s : Interest) (key : Key) :
    (s.ctlDel key).1 = -enoent ↔ epFind s.items key = none := by
  unfold Interest.ctlDel
  split
  next old found => simp [found,enoent]
  next absent => simp [absent]

private theorem ctlMod_absent (s : Interest) (item : Item) :
    (s.ctlMod item).1 = -enoent ↔ epFind s.items item.key = none := by
  unfold Interest.ctlMod
  split
  next old found => split <;> simp [found,enoent,einval]
  next absent => simp [absent]

private theorem met_nil (k : Kernel) (s : Interest) (c : CtlCall) (op : c.op ≠ epollCtlAdd) : s.met k c = [] := by
  unfold Interest.met
  split
  · rfl
  · simp [fullCheck,op]

private theorem interest_cons (item : Item) (items : List Item) :
    interest (item::items) = Function.update (interest items) item.key (some item.events) := by
  funext key
  unfold interest epFind
  rw [Keyed.find_cons]
  by_cases same : key = item.key
  · subst same
    simp
  · simp [Function.update_of_ne same]

private theorem interest_erase (items : List Item) (unique : Keyed.Unique Item.key items) (item : Item)
    (member : item ∈ items) :
    interest (items.erase item) = Function.update (interest items) item.key none := by
  funext key
  unfold interest epFind
  rw [Keyed.find_erase Item.key unique member]
  by_cases same : key = item.key
  · subst same
    simp
  · simp [Function.update_of_ne same]

private theorem interest_replace (items : List Item) (item : Item) (there : epFind items item.key ≠ none) :
    interest (items.map fun other => if other.key = item.key then item else other) =
      Function.update (interest items) item.key (some item.events) := by
  have same (other : Item) : (if other.key = item.key then item else other).key = other.key := by
    split
    next here => exact here.symm
    next => rfl
  funext key
  unfold interest epFind
  rw [Keyed.find_map Item.key _ same,Option.map_map]
  obtain ⟨old,found⟩ := Option.ne_none_iff_exists'.mp there
  by_cases here : key = item.key
  · subst here
    rw [epFind] at found
    simp [found,(Keyed.find_some Item.key found).2]
  · rw [Function.update_of_ne here]
    cases look : Keyed.find Item.key items key with
    | none => rfl
    | some other =>
      have away : other.key ≠ item.key := (Keyed.find_some Item.key look).2 ▸ here
      simp [away]

private theorem Passes.exists_iff {k : Kernel} {s : Interest} {c : CtlCall} {item : Item}
    (passes : Passes k s c item) (holds : Item → Prop) : (∃ other, Passes k s c other ∧ holds other) ↔ holds item := by
  constructor
  · rintro ⟨other,again,there⟩
    cases Except.ok.inj (passes.1.symm.trans again.1)
    exact there
  · exact fun there => ⟨item,passes,there⟩

private theorem early_error (error : Int) (early : error ∈ [-efault,-ebadf,-eperm,-einval,-eloop]) :
    error ≠ -eexist ∧ error ≠ -enoent := by
  simp only [List.mem_cons,List.not_mem_nil,or_false] at early
  rcases early with rfl | rfl | rfl | rfl | rfl <;> decide

private theorem exists_of_add (k : Kernel) (s : Interest) (c : CtlCall) (op : c.op = epollCtlAdd)
    (sourced : c.env.wakeupSource = 0 ∨ c.env.wakeupSource = -enomem) :
    (s.epollCtl k c).1 = -eexist ↔ ∃ item, Passes k s c item ∧ interest s.items item.key ≠ none := by
  rcases epollCtl_cases k s c with ⟨item,u,passes,items,result⟩ | ⟨none,_,error⟩
  · rw [result,Interest.ctlSwitch,if_pos op,ctlAdd_exists k c.env u _ item sourced,items,
      passes.exists_iff fun item => interest s.items item.key ≠ Option.none]
    exact (delivered_absent _ s item.key).not
  · simp [(early_error _ error).1,none]

private theorem absent_of_change (k : Kernel) (s : Interest) (c : CtlCall)
    (op : c.op = epollCtlDel ∨ c.op = epollCtlMod) :
    (s.epollCtl k c).1 = -enoent ↔ ∃ item, Passes k s c item ∧ interest s.items item.key = none := by
  have del : epollCtlDel ≠ epollCtlAdd := by decide
  have mod : epollCtlMod ≠ epollCtlAdd ∧ epollCtlMod ≠ epollCtlDel := by decide
  rcases epollCtl_cases k s c with ⟨item,u,passes,items,result⟩ | ⟨none,_,error⟩
  · rw [passes.exists_iff fun item => interest s.items item.key = Option.none,
      ← delivered_absent (s.met k c) s item.key,← items,result,Interest.ctlSwitch]
    rcases op with op | op
    · rw [op,if_neg del,if_pos rfl]
      exact ctlDel_absent u item.key
    · rw [op,if_neg mod.1,if_neg mod.2,if_pos rfl]
      exact ctlMod_absent u item
  · simp [(early_error _ error).2,none]

private theorem passes_of_zero (k : Kernel) (s : Interest) (c : CtlCall) (item : Item)
    (args : ctlArgs k c = .ok item) (done : (s.epollCtl k c).1 = 0) : Passes k s c item := by
  rcases epollCtl_cases k s c with ⟨other,_,passes,_,_⟩ | ⟨_,_,error⟩
  · cases Except.ok.inj (passes.1.symm.trans args)
    exact passes
  · rw [done] at error
    exact absurd error (by decide)

private theorem epollCtl_done (k : Kernel) (s : Interest) (c : CtlCall) (admitted : s.Admitted k)
    (done : (s.epollCtl k c).1 = 0) : ∃ item, Passes k s c item ∧
      (c.op = epollCtlAdd ∧ interest s.items item.key = none ∧
          interest (s.epollCtl k c).2.items = Function.update (interest (s.delivered (s.met k c)).items)
            item.key (some (item.events ||| pollErr ||| pollHup)) ∨
        c.op = epollCtlDel ∧ interest s.items item.key ≠ none ∧
          interest (s.epollCtl k c).2.items = Function.update (interest s.items) item.key none ∨
        c.op = epollCtlMod ∧ interest s.items item.key ≠ none ∧
          interest (s.epollCtl k c).2.items = Function.update (interest s.items) item.key
            (some (item.events ||| pollErr ||| pollHup))) := by
  have passes (item : Item) (args : ctlArgs k c = .ok item) := passes_of_zero k s c item args done
  have unique := (admitted_delivered k s (s.met k c) admitted).unique
  have absent (key : Key) := delivered_absent (s.met k c) s key
  have effect := epollCtl_effect k s c
  generalize s.epollCtl k c = result at effect done ⊢
  obtain ⟨error,items,list⟩ := result
  cases effect with
  | unchanged _ failed => exact absurd done failed
  | added item args op fresh =>
    exact ⟨item,passes item args,.inl ⟨op,(absent item.key).mp fresh,interest_cons item.withErrors _⟩⟩
  | removed item old args op found =>
    have away : epollCtlDel ≠ epollCtlAdd := by decide
    have nothing := met_nil k s c (op ▸ away)
    obtain ⟨inside,key⟩ := Keyed.find_some Item.key found
    refine ⟨item,passes item args,.inr (.inl ⟨op,?_,?_⟩)⟩
    · rw [ne_eq,← absent,found]
      simp
    · rw [← key,interest_erase _ unique old inside,nothing]
      rfl
  | modified item old args op found shared =>
    have away : epollCtlMod ≠ epollCtlAdd := by decide
    have nothing := met_nil k s c (op ▸ away)
    refine ⟨item,passes item args,.inr (.inr ⟨op,?_,?_⟩)⟩
    · rw [ne_eq,← absent,found]
      simp
    · refine (interest_replace _ item.withErrors ?_).trans ?_
      · rw [show item.withErrors.key = item.key from rfl,found]
        simp
      · rw [nothing]
        rfl

theorem epollCtl_meets (k : Kernel) (s : Interest) (c : CtlCall) (admitted : s.Admitted k)
    (sourced : c.env.wakeupSource = 0 ∨ c.env.wakeupSource = -enomem) : Meets k s c where
  exists_iff := fun op => exists_of_add k s c op sourced
  absent_iff := absent_of_change k s c
  added := by
    intro op done
    have other : epollCtlAdd ≠ epollCtlDel ∧ epollCtlAdd ≠ epollCtlMod := by decide
    obtain ⟨item,passes,added | removed | modified⟩ := epollCtl_done k s c admitted done
    · exact ⟨item,passes,added.2⟩
    · exact absurd (op ▸ removed.1) other.1
    · exact absurd (op ▸ modified.1) other.2
  removed := by
    intro op done
    have other : epollCtlDel ≠ epollCtlAdd ∧ epollCtlDel ≠ epollCtlMod := by decide
    obtain ⟨item,passes,added | removed | modified⟩ := epollCtl_done k s c admitted done
    · exact absurd (op ▸ added.1) other.1
    · exact ⟨item,passes,removed.2⟩
    · exact absurd (op ▸ modified.1) other.2
  modified := by
    intro op done
    have other : epollCtlMod ≠ epollCtlAdd ∧ epollCtlMod ≠ epollCtlDel := by decide
    obtain ⟨item,passes,added | removed | modified⟩ := epollCtl_done k s c admitted done
    · exact absurd (op ▸ added.1) other.1
    · exact absurd (op ▸ removed.1) other.2
    · exact ⟨item,passes,modified.2⟩
  other := by
    intro add del mod done
    obtain ⟨item,passes,added | removed | modified⟩ := epollCtl_done k s c admitted done
    · exact add added.1
    · exact del removed.1
    · exact mod modified.1
  failed := by
    intro nonzero
    refine ⟨?_,epollCtl_unlisted k s c admitted.unlisted⟩
    have effect := epollCtl_effect k s c
    generalize s.epollCtl k c = result at effect nonzero ⊢
    obtain ⟨error,items,list⟩ := result
    cases effect with
    | unchanged => rfl
    | added | removed | modified => exact absurd rfl nonzero

/-- `epoll_ctl` refines a finite map. After any sequence of calls and deliveries the
items have distinct keys, the check list is empty, masks are armed or disarmed as a
whole, exclusive items are as they were admitted, and every further call meets what
its return value says. `ep_create_wakeup_source` fails with ENOMEM only. -/
theorem epoll_ctl_refines_map (k : Kernel) (s : Interest) (ls : List CtlLabel)
    (run : Run (ctlStep k) noInterest ls s) :
    (s.items.map Item.key).Nodup ∧ s.tfileCheckList = [] ∧ (∀ item ∈ s.items, Watched item.events) ∧
    (∀ item ∈ s.items, hits item.events epollExclusive = true →
      k.isFileEpoll item.key.file = false ∧ item.events &&& ~~~epollExclusiveOkBits = 0 ∧
        lastAdd k noInterest ls (fun _ => none) item.key = some item.events) ∧
    ∀ c, c.env.wakeupSource = 0 ∨ c.env.wakeupSource = -enomem → Meets k s c := by
  have fresh : noInterest.Admitted k := by
    refine ⟨List.nodup_nil,rfl,?_,?_⟩ <;> simp [noInterest]
  obtain ⟨admitted,recorded⟩ := exclusive_run k noInterest s ls run (fun _ => none) fresh (by simp [noInterest])
  refine ⟨admitted.unique,admitted.unlisted,admitted.masks,?_,fun c => epollCtl_meets k s c admitted⟩
  intro item member exclusive
  obtain ⟨plain,bits⟩ := admitted.exclusive item member exclusive
  exact ⟨plain,bits,recorded item member exclusive⟩

/-- An exclusive ADD, the same again, a refused MOD of it, a one-shot ADD that is
delivered while a nesting ADD has dropped the mutex. -/
def ctlLabels : List CtlLabel :=
  [.ctl ⟨epollCtlAdd,some 0,some 10,5,some (pollIn ||| epollExclusive,0),plenty,[],[]⟩,
    .ctl ⟨epollCtlAdd,some 0,some 10,5,some (pollOut,0),plenty,[],[]⟩,
    .ctl ⟨epollCtlMod,some 0,some 10,5,some (pollOut,0),plenty,[],[]⟩,
    .ctl ⟨epollCtlAdd,some 0,some 11,6,some (pollIn ||| epollOneshot,0),plenty,[],[]⟩,
    .ctl ⟨epollCtlAdd,some 0,some 1,7,some (pollIn,0),plenty,[⟨0,11,6⟩],[]⟩]

theorem epoll_ctl_refines_map_exclusive :
    (final (ctlStep linux) noInterest ctlLabels).items.length = 3 ∧
    ((final (ctlStep linux) noInterest ctlLabels).items.map Item.key).Nodup ∧
    (final (ctlStep linux) noInterest ctlLabels).tfileCheckList = [] ∧
    (∀ item ∈ (final (ctlStep linux) noInterest ctlLabels).items, Watched item.events) ∧
    (∀ item ∈ (final (ctlStep linux) noInterest ctlLabels).items, hits item.events epollExclusive = true →
      linux.isFileEpoll item.key.file = false ∧ item.events &&& ~~~epollExclusiveOkBits = 0 ∧
        lastAdd linux noInterest ctlLabels (fun _ => none) item.key = some item.events) ∧
    ∀ c, c.env.wakeupSource = 0 ∨ c.env.wakeupSource = -enomem →
      Meets linux (final (ctlStep linux) noInterest ctlLabels) c :=
  ⟨by decide,epoll_ctl_refines_map linux _ ctlLabels (final_run (ctlStep linux) noInterest ctlLabels (by decide))⟩

end Reactor.Epoll
