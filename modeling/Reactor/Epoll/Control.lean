import Reactor.Keyed
import Reactor.Reach
import Reactor.Epoll.Bits

/-! `epoll_ctl` and what it does to the interest sets. For calls made one after the
other it is one function; a call that takes the full check drops `ep->mtx` on its way,
and a scan may then deliver events and disarm one-shot items. -/
namespace Reactor.Epoll

/-- What an item is looked up by: its eventpoll, named by the epoll file, and the
file and descriptor it watches. -/
structure Key where
  ep : Nat
  file : Nat
  fd : Int
  deriving DecidableEq, Repr

structure Item where
  key : Key
  events : EventMask
  data : BitVec 64
  deriving DecidableEq, Repr

abbrev Graph := List (Nat × Nat)

def graph (items : List Item) : Graph := items.map fun item => (item.key.ep,item.key.file)

/-- What `epoll_ctl` takes from elsewhere. `epLoopCheck g ep target` is `none` for a
non-zero return, else the files it hangs on the check list; `pathsOk g file` is what
`reverse_path_check` finds for one file of that list. -/
structure Kernel where
  isFileEpoll : Nat → Bool
  hasPoll : Nat → Bool
  epTakeCareOfEpollwakeup : EventMask → EventMask
  epLoopCheck : Graph → Nat → Nat → Option (List Nat)
  pathsOk : Graph → Nat → Bool

/-- How the allocations of `ep_insert` turn out; `wakeupSource` is the return value of
`ep_create_wakeup_source`. -/
structure InsertEnv where
  watchesLeft : Bool
  allocated : Bool
  wakeupSource : Int
  hooked : Bool
  deriving DecidableEq, Repr

/-- A call with what it finds: the files behind the descriptors, the copied event, and
the items a scan delivers while `ep->mtx` is free before and after the loop check. -/
structure CtlCall where
  op : Int
  file : Option Nat
  tfile : Option Nat
  fd : Int
  event : Option (EventMask × BitVec 64)
  env : InsertEnv
  gap : List Key
  regap : List Key
  deriving DecidableEq, Repr

structure Interest where
  items : List Item
  tfileCheckList : List Nat
  deriving DecidableEq, Repr

def epFind (items : List Item) (key : Key) : Option Item := Keyed.find Item.key items key

def fEpLinks (items : List Item) (file : Nat) : List Item := items.filter fun item => item.key.file = file

def epOpHasEvent (op : Int) : Bool := op ≠ epollCtlDel

/-- The local `epds`: copied from user space, with EPOLLWAKEUP seen to. A DEL leaves it
unset and never reads it. -/
def epds (k : Kernel) (c : CtlCall) : Option (EventMask × BitVec 64) :=
  if epOpHasEvent c.op then c.event.map fun event => (k.epTakeCareOfEpollwakeup event.1,event.2)
  else some (0,0)

def exclusiveRefused (k : Kernel) (op : Int) (events : EventMask) (tfile : Nat) : Bool :=
  epOpHasEvent op && hits events epollExclusive &&
    (op = epollCtlMod || op = epollCtlAdd && (k.isFileEpoll tfile || hits events (~~~epollExclusiveOkBits)))

def ctlArgs (k : Kernel) (c : CtlCall) : Except Int Item :=
  match epds k c with
  | none => .error (-efault)
  | some (events,data) =>
    match c.file, c.tfile with
    | some file, some tfile =>
      if !k.hasPoll tfile then .error (-eperm)
      else if file = tfile ∨ k.isFileEpoll file = false then .error (-einval)
      else if exclusiveRefused k c.op events tfile then .error (-einval)
      else .ok ⟨⟨file,tfile,c.fd⟩,events,data⟩
    | _, _ => .error (-ebadf)

/-- Whether the call takes `epmutex`: the epoll file is itself watched, or is to watch
another one. -/
def fullCheck (k : Kernel) (op : Int) (items : List Item) (key : Key) : Bool :=
  op = epollCtlAdd && (fEpLinks items key.ep ≠ [] || k.isFileEpoll key.file)

/-- The check list of a full check; `none` is ELOOP. -/
def checkList (k : Kernel) (s : Interest) (key : Key) : Option (List Nat) :=
  if k.isFileEpoll key.file then
    (k.epLoopCheck (graph s.items) key.ep key.file).map fun files => files ++ s.tfileCheckList
  else some (key.file :: s.tfileCheckList)

def epInsert (env : InsertEnv) (items : List Item) (item : Item) : Except Int (List Item) :=
  if !env.watchesLeft then .error (-enospc)
  else if !env.allocated then .error (-enomem)
  else if hits item.events epollWakeup && env.wakeupSource ≠ 0 then .error env.wakeupSource
  else if !env.hooked then .error (-enomem)
  else .ok (item :: items)

def reversePathCheck (k : Kernel) (s : Interest) : Bool :=
  !s.tfileCheckList.all (k.pathsOk (graph s.items))

/-- The item EPOLL_CTL_ADD and EPOLL_CTL_MOD store: errors and hang-ups are always watched. -/
def Item.withErrors (item : Item) : Item := {item with events := item.events ||| pollErr ||| pollHup}

def deliver (items : List Item) (key : Key) : List Item :=
  items.map fun item => if item.key = key then {item with events := settled item.events} else item

namespace Interest

def clearTfileCheckList (s : Interest) (full : Bool) : Interest :=
  if full then {s with tfileCheckList := []} else s

def delivered (s : Interest) (keys : List Key) : Interest := {s with items := keys.foldl deliver s.items}

def ctlInsert (k : Kernel) (env : InsertEnv) (s : Interest) (full : Bool) (item : Item) : Int × Interest :=
  match epInsert env s.items item with
  | .error error => (error,s)
  | .ok items =>
    if full && reversePathCheck k {s with items := items} then
      (-einval,{s with items := items.erase item})
    else (0,{s with items := items})

def ctlAdd (k : Kernel) (env : InsertEnv) (s : Interest) (full : Bool) (item : Item) : Int × Interest :=
  match epFind s.items item.key with
  | some _ => (-eexist,s.clearTfileCheckList full)
  | none =>
    let result := s.ctlInsert k env full item.withErrors
    (result.1,result.2.clearTfileCheckList full)

def ctlDel (s : Interest) (key : Key) : Int × Interest :=
  match epFind s.items key with
  | some item => (0,{s with items := s.items.erase item})
  | none => (-enoent,s)

def epModify (s : Interest) (item : Item) : Interest :=
  {s with items := s.items.map fun old => if old.key = item.key then item else old}

/-- The error of an exclusive item is the one set before the switch. -/
def ctlMod (s : Interest) (item : Item) : Int × Interest :=
  match epFind s.items item.key with
  | some old => if hits old.events epollExclusive then (-einval,s) else (0,s.epModify item.withErrors)
  | none => (-enoent,s)

def ctlSwitch (k : Kernel) (op : Int) (env : InsertEnv) (s : Interest) (full : Bool) (item : Item) :
    Int × Interest :=
  if op = epollCtlAdd then s.ctlAdd k env full item
  else if op = epollCtlDel then s.ctlDel item.key
  else if op = epollCtlMod then s.ctlMod item
  else (-einval,s)

def epollCtl (k : Kernel) (s : Interest) (c : CtlCall) : Int × Interest :=
  match ctlArgs k c with
  | .error error => (error,s)
  | .ok item =>
    if fullCheck k c.op s.items item.key then
      match checkList k (s.delivered c.gap) item.key with
      | none => (-eloop,(s.delivered c.gap).clearTfileCheckList true)
      | some files =>
        ({s.delivered c.gap with tfileCheckList := files}.delivered c.regap).ctlSwitch k c.op c.env true item
    else s.ctlSwitch k c.op c.env false item

end Interest

theorem ctlArgs_error (k : Kernel) (c : CtlCall) (error : Int) (failed : ctlArgs k c = .error error) :
    error = -efault ∨ error = -ebadf ∨ error = -eperm ∨ error = -einval := by
  unfold ctlArgs at failed
  split at failed
  · cases failed
    simp
  · split at failed
    · split at failed
      · cases failed
        simp
      · split at failed
        · cases failed
          simp
        · split at failed
          · cases failed
            simp
          · cases failed
    · cases failed
      simp

theorem ctlArgs_ok (k : Kernel) (c : CtlCall) (item : Item) (args : ctlArgs k c = .ok item) :
    epds k c = some (item.events,item.data) ∧ item.key.ep ≠ item.key.file ∧
      k.isFileEpoll item.key.ep = true ∧ exclusiveRefused k c.op item.events item.key.file = false := by
  unfold ctlArgs at args
  split at args
  · cases args
  · next events data copied =>
    split at args
    · split at args
      · cases args
      · split at args
        · cases args
        · next distinct =>
          split at args
          · cases args
          · next admitted =>
            cases args
            obtain ⟨apart,epoll⟩ := not_or.mp distinct
            exact ⟨copied,apart,by simpa using epoll,by simpa using admitted⟩
    · cases args

@[simp] theorem clearTfileCheckList_items (s : Interest) (full : Bool) :
    (s.clearTfileCheckList full).items = s.items := by
  unfold Interest.clearTfileCheckList
  split <;> rfl

theorem epInsert_ok {env : InsertEnv} {items linked : List Item} {item : Item}
    (ok : epInsert env items item = .ok linked) : linked = item :: items := by
  unfold epInsert at ok
  split at ok
  · cases ok
  · split at ok
    · cases ok
    · split at ok
      · cases ok
      · split at ok
        · cases ok
        · exact (Except.ok.inj ok).symm

theorem epInsert_error {env : InsertEnv} {items : List Item} {item : Item} {error : Int}
    (failed : epInsert env items item = .error error) :
    error = -enospc ∨ error = -enomem ∨ error = env.wakeupSource ∧ env.wakeupSource ≠ 0 := by
  unfold epInsert at failed
  split at failed
  · cases failed
    simp
  · split at failed
    · cases failed
      simp
    · split at failed
      · next source =>
        cases failed
        exact .inr (.inr ⟨rfl,by simpa using (Bool.and_eq_true_iff.mp source).2⟩)
      · split at failed
        · cases failed
          simp
        · cases failed

def noInterest : Interest := ⟨[],[]⟩

def watchers (g : Graph) (file : Nat) : List Nat := (g.filter fun edge => edge.2 = file).map Prod.fst

def rootPaths (g : Graph) : Nat → Nat → Nat
  | 0, file => if watchers g file = [] then 1 else 0
  | n+1, file => ((watchers g file).map (rootPaths g n)).sum

def climbs (g : Graph) : Nat → Nat → Bool
  | 0, _ => true
  | n+1, file => (watchers g file).any (climbs g n)

/-- Files below 10 are epoll files. The loop check finds what is below the target, where
eventpolls may be nested four deep. The limits are those of Linux: any number of paths
of one edge, 500 of two, 100 of three, 50 of four, 10 of five, and none longer. -/
def linux : Kernel where
  isFileEpoll file := file < 10
  hasPoll _ := true
  epTakeCareOfEpollwakeup events := events
  epLoopCheck g ep target :=
    if ep ∈ Reach.below g target then none
    else if climbs ((g.filter fun edge => edge.2 < 10).map Prod.swap) 5 target then none
    else some ((Reach.below g target).filter fun file => 10 ≤ file)
  pathsOk g file :=
    rootPaths g 2 file ≤ 500 && rootPaths g 3 file ≤ 100 && rootPaths g 4 file ≤ 50 &&
      rootPaths g 5 file ≤ 10 && !climbs g 6 file

def plenty : InsertEnv := ⟨true,true,0,true⟩

end Reactor.Epoll
