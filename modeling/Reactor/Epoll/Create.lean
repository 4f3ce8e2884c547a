import Reactor.Total
import Reactor.Keyed
import Reactor.Transition
import Reactor.Epoll.Bits

/-! An eventpoll from `epoll_create` to the last `close`. Any number of threads create
eventpolls, wait on them and close descriptors. The descriptor table and the references on
a `struct file` are those of the kernel around `eventpoll.c`: `fd_install` hands the
reference of the creator to the table, and `fdget` takes one more. What the kernel hands
out, when it releases a file and what becomes of its eventpoll then is up to the kernel;
what is expected of it is said apart. -/
namespace Reactor.Epoll
open Reactor.Transition Reactor.Total Reactor.Keyed

def epollCloexec : EventMask := 0x80000#32

/-- `INT_MAX / sizeof(struct epoll_event)`. -/
def epMaxEvents : Int := 2147483647 / 12

/-- What a call of `epoll_create1` or `epoll_wait` does next. -/
inductive CallPc
  | outside (res : Int)
  | kzalloc (flags : EventMask)
  | freeUid
  | initialise (flags : EventMask) (ep : Nat)
  | getUnusedFd (flags : EventMask) (ep : Nat)
  | getFile (ep : Nat) (fd : Int)
  | setFile (ep : Nat) (fd : Int) (file : Nat)
  | fdInstall (fd : Int) (file : Nat)
  | putUnusedFd (ep : Nat) (fd : Int) (error : Int)
  | epFree (ep : Nat) (error : Int)
  | isFileEpoll (file : Nat)
  | epPoll (file ep : Nat)
  | fdput (file : Nat) (res : Int)
  deriving DecidableEq, Repr

/-- A descriptor that is reserved has no file yet. -/
structure Slot where
  fd : Int
  file : Option Nat
  cloexec : Bool
  deriving DecidableEq, Repr

def Slot.install (fd : Int) (file : Nat) (slot : Slot) : Slot :=
  if slot.fd = fd then {slot with file := some file} else slot

/-- `privateData` is the eventpoll if the operations are `eventpoll_fops`. -/
structure File where
  addr : Nat
  privateData : Option Nat
  deriving DecidableEq, Repr

/-- `eps` are the eventpolls that are allocated and have not been given to `ep_free`, `freed`
is the number of those that have. `ready` tells that `ep_alloc` has initialised the memory,
`epFile` is `ep->file`, and `users` counts the references on the `user_struct` that were
taken by `get_current_user` and not given back by `free_uid`. -/
structure Objects (n : Nat) where
  eps : List Nat
  freed : Nat
  ready : Nat → Bool
  epFile : Nat → Option Nat
  files : List File
  slots : List Slot
  users : Nat
  calls : Fin n → CallPc

namespace CallPc

/-- The eventpoll that only the call knows. -/
def eps : CallPc → Multiset Nat
  | .initialise _ ep | .getUnusedFd _ ep | .getFile ep _ | .putUnusedFd ep _ _ | .epFree ep _ => {ep}
  | _ => 0

def fds : CallPc → Multiset Int
  | .getFile _ fd | .setFile _ fd _ | .fdInstall fd _ | .putUnusedFd _ fd _ => {fd}
  | _ => 0

/-- The references on files that the call holds. -/
def refs : CallPc → Multiset Nat
  | .setFile _ _ file | .fdInstall _ file | .isFileEpoll file | .epPoll file _ | .fdput file _ => {file}
  | _ => 0

/-- The file that the call is about to put into the table. -/
def creates : CallPc → Option Nat
  | .setFile _ _ file | .fdInstall _ file => some file
  | _ => none

/-- The reference on the user, until an eventpoll has it. -/
def users : CallPc → Nat
  | .kzalloc _ | .freeUid => 1
  | _ => 0

end CallPc

inductive ObjLabel (n : Nat)
  | epollCreate (t : Fin n) (size : Int)
  | epollCreate1 (t : Fin n) (flags : EventMask)
  | kzalloc (t : Fin n) (ep : Option Nat)
  | getUnusedFd (t : Fin n) (fd : Int)
  | anonInodeGetfile (t : Fin n) (file : Except Int Nat)
  | next (t : Fin n)
  | epollWait (t : Fin n) (epfd maxevents : Int) (accessOk : Bool)
  | epPoll (t : Fin n) (res : Int)
  | close (t : Fin n) (fd : Int)
  | dup (t : Fin n) (fd copy : Int)
  | openOther (t : Fin n) (fd : Int) (file : Nat)
  | release (f : Nat) (freed : Option Nat)

namespace Objects

variable {n : Nat}

def setCall (s : Objects n) (t : Fin n) (pc : CallPc) : Objects n := {s with calls := Function.update s.calls t pc}

def refs (s : Objects n) : Multiset Nat :=
  (s.slots.filterMap Slot.file : List Nat) + total CallPc.refs s.calls

def slot (s : Objects n) (fd : Int) : Option Slot := find Slot.fd s.slots fd

def file (s : Objects n) (f : Nat) : Option File := find File.addr s.files f

/-- `ep_free` is called for the eventpoll. -/
def epFree (s : Objects n) (ep : Nat) : Objects n := {s with eps := s.eps.erase ep, freed := s.freed + 1}

/-- The kernel is done with the file and has called `ep_free` for an eventpoll. -/
def release (s : Objects n) (file : File) (freed : Option Nat) : Objects n :=
  let released := {s with files := s.files.erase file}
  match freed with
  | some ep => released.epFree ep
  | none => released

def create1 (s : Objects n) (t : Fin n) (flags : EventMask) : Objects n :=
  if flags &&& ~~~epollCloexec ≠ 0 then s.setCall t (.outside (-einval))
  else {s with users := s.users + 1}.setCall t (.kzalloc flags)

def epollWait (s : Objects n) (t : Fin n) (epfd maxevents : Int) (accessOk : Bool) : Objects n :=
  if maxevents ≤ 0 ∨ epMaxEvents < maxevents then s.setCall t (.outside (-einval))
  else if !accessOk then s.setCall t (.outside (-efault))
  else match (s.slot epfd).bind Slot.file with
    | none => s.setCall t (.outside (-ebadf))
    | some f => s.setCall t (.isFileEpoll f)

/-- The steps whose outcome the state alone decides. -/
def next (s : Objects n) (t : Fin n) : Option (Objects n) :=
  match s.calls t with
  | .freeUid => some ({s with users := s.users - 1}.setCall t (.outside (-enomem)))
  | .initialise flags ep => some ({s with ready := Function.update s.ready ep true}.setCall t (.getUnusedFd flags ep))
  | .setFile ep fd file =>
    some ({s with epFile := Function.update s.epFile ep (some file)}.setCall t (.fdInstall fd file))
  | .fdInstall fd file =>
    some ({s with slots := s.slots.map (Slot.install fd file)}.setCall t (.outside fd))
  | .putUnusedFd ep fd error =>
    some ({s with slots := s.slots.filter fun slot => slot.fd ≠ fd}.setCall t (.epFree ep error))
  | .epFree ep error => some ((s.epFree ep).setCall t (.outside error))
  | .isFileEpoll f =>
    match (s.file f).bind File.privateData with
    | some ep => some (s.setCall t (.epPoll f ep))
    | none => some (s.setCall t (.fdput f (-einval)))
  | .fdput _ res => some (s.setCall t (.outside res))
  | _ => none

def close (s : Objects n) (fd : Int) : Option (Objects n) :=
  match s.slot fd with
  | some slot => if slot.file.isSome then some {s with slots := s.slots.erase slot} else none
  | none => none

end Objects

def CallPc.isOutside : CallPc → Bool
  | .outside _ => true
  | _ => false

def objStep {n : Nat} (s : Objects n) : ObjLabel n → Option (Objects n)
  | .epollCreate t size =>
    if (s.calls t).isOutside then
      some (if size ≤ 0 then s.setCall t (.outside (-einval)) else s.create1 t 0)
    else none
  | .epollCreate1 t flags => if (s.calls t).isOutside then some (s.create1 t flags) else none
  | .kzalloc t ep =>
    match s.calls t, ep with
    | .kzalloc _, none => some (s.setCall t .freeUid)
    | .kzalloc flags, some ep =>
      some ({s with
        eps := ep::s.eps, ready := Function.update s.ready ep false,
        epFile := Function.update s.epFile ep none}.setCall t (.initialise flags ep))
    | _, _ => none
  | .getUnusedFd t fd =>
    match s.calls t with
    | .getUnusedFd flags ep =>
      if fd < 0 then some (s.setCall t (.epFree ep fd))
      else some ({s with slots := ⟨fd,none,flags &&& epollCloexec ≠ 0⟩::s.slots}.setCall t (.getFile ep fd))
    | _ => none
  | .anonInodeGetfile t file =>
    match s.calls t, file with
    | .getFile ep fd, .error error => some (s.setCall t (.putUnusedFd ep fd error))
    | .getFile ep fd, .ok file => some ({s with files := ⟨file,some ep⟩::s.files}.setCall t (.setFile ep fd file))
    | _, _ => none
  | .next t => s.next t
  | .epollWait t epfd maxevents accessOk =>
    if (s.calls t).isOutside then some (s.epollWait t epfd maxevents accessOk) else none
  | .epPoll t res =>
    match s.calls t with
    | .epPoll f _ => some (s.setCall t (.fdput f res))
    | _ => none
  | .close t fd => if (s.calls t).isOutside then s.close fd else none
  | .dup t fd copy =>
    match (s.slot fd).bind Slot.file with
    | some f => if (s.calls t).isOutside then some {s with slots := ⟨copy,some f,false⟩::s.slots} else none
    | none => none
  | .openOther t fd file =>
    if (s.calls t).isOutside then
      some {s with slots := ⟨fd,some file,false⟩::s.slots, files := ⟨file,none⟩::s.files}
    else none
  | .release f freed => (s.file f).map fun file => s.release file freed

namespace Objects

variable {n : Nat}

/-- Memory, descriptors and files that the kernel hands out are not in use. -/
def unused (s : Objects n) : ObjLabel n → Bool
  | .kzalloc _ (some ep) => ep ∉ s.eps
  | .getUnusedFd _ fd => fd < 0 || fd ∉ s.slots.map Slot.fd
  | .dup _ _ copy => copy ∉ s.slots.map Slot.fd
  | .anonInodeGetfile _ (.ok file) => file ∉ s.files.map File.addr
  | .openOther _ fd file => fd ∉ s.slots.map Slot.fd && file ∉ s.files.map File.addr
  | _ => true

/-- A file is released when nobody refers to it any more, and `ep_free` is called for its
own eventpoll. -/
def abandoned (s : Objects n) : ObjLabel n → Bool
  | .release f freed => f ∉ s.refs && freed = (s.file f).bind File.privateData
  | _ => true

/-- What is expected of the kernel around `eventpoll.c`. -/
def lawful (s : Objects n) (l : ObjLabel n) : Bool := s.unused l && s.abandoned l

end Objects

/-- What a step does. -/
inductive ObjMove {n : Nat} (s : Objects n) : Objects n → Prop
  | refused (t : Fin n) (res : Int) (out : (s.calls t).isOutside = true) : ObjMove s (s.setCall t (.outside res))
  | called (t : Fin n) (flags : EventMask) (out : (s.calls t).isOutside = true) :
      ObjMove s ({s with users := s.users + 1}.setCall t (.kzalloc flags))
  | noMemory (t : Fin n) (flags : EventMask) (here : s.calls t = .kzalloc flags) : ObjMove s (s.setCall t .freeUid)
  | freeUid (t : Fin n) (here : s.calls t = .freeUid) :
      ObjMove s ({s with users := s.users - 1}.setCall t (.outside (-enomem)))
  | kzalloc (t : Fin n) (flags : EventMask) (ep : Nat) (here : s.calls t = .kzalloc flags) (fresh : ep ∉ s.eps) :
      ObjMove s ({s with
        eps := ep::s.eps, ready := Function.update s.ready ep false,
        epFile := Function.update s.epFile ep none}.setCall t (.initialise flags ep))
  | initialise (t : Fin n) (flags : EventMask) (ep : Nat) (here : s.calls t = .initialise flags ep) :
      ObjMove s ({s with ready := Function.update s.ready ep true}.setCall t (.getUnusedFd flags ep))
  | noFd (t : Fin n) (flags : EventMask) (ep : Nat) (error : Int) (here : s.calls t = .getUnusedFd flags ep) :
      ObjMove s (s.setCall t (.epFree ep error))
  | getFd (t : Fin n) (flags : EventMask) (ep : Nat) (fd : Int) (here : s.calls t = .getUnusedFd flags ep)
      (fresh : fd ∉ s.slots.map Slot.fd) :
      ObjMove s ({s with slots := ⟨fd,none,flags &&& epollCloexec ≠ 0⟩::s.slots}.setCall t (.getFile ep fd))
  | noFile (t : Fin n) (ep : Nat) (fd error : Int) (here : s.calls t = .getFile ep fd) :
      ObjMove s (s.setCall t (.putUnusedFd ep fd error))
  | getFile (t : Fin n) (ep : Nat) (fd : Int) (file : Nat) (here : s.calls t = .getFile ep fd)
      (fresh : file ∉ s.files.map File.addr) :
      ObjMove s ({s with files := ⟨file,some ep⟩::s.files}.setCall t (.setFile ep fd file))
  | setFile (t : Fin n) (ep : Nat) (fd : Int) (file : Nat) (here : s.calls t = .setFile ep fd file) :
      ObjMove s ({s with epFile := Function.update s.epFile ep (some file)}.setCall t (.fdInstall fd file))
  | fdInstall (t : Fin n) (fd : Int) (file : Nat) (here : s.calls t = .fdInstall fd file) :
      ObjMove s ({s with slots := s.slots.map (Slot.install fd file)}.setCall t (.outside fd))
  | putUnusedFd (t : Fin n) (ep : Nat) (fd error : Int) (here : s.calls t = .putUnusedFd ep fd error) :
      ObjMove s ({s with slots := s.slots.filter fun slot => slot.fd ≠ fd}.setCall t (.epFree ep error))
  | epFree (t : Fin n) (ep : Nat) (error : Int) (here : s.calls t = .epFree ep error) :
      ObjMove s ((s.epFree ep).setCall t (.outside error))
  | fdget (t : Fin n) (slot : Slot) (f : Nat) (out : (s.calls t).isOutside = true) (listed : slot ∈ s.slots)
      (installed : slot.file = some f) : ObjMove s (s.setCall t (.isFileEpoll f))
  | epollFile (t : Fin n) (f ep : Nat) (here : s.calls t = .isFileEpoll f) (found : (⟨f,some ep⟩ : File) ∈ s.files) :
      ObjMove s (s.setCall t (.epPoll f ep))
  | otherFile (t : Fin n) (f : Nat) (here : s.calls t = .isFileEpoll f) : ObjMove s (s.setCall t (.fdput f (-einval)))
  | polled (t : Fin n) (f ep : Nat) (res : Int) (here : s.calls t = .epPoll f ep) : ObjMove s (s.setCall t (.fdput f res))
  | fdput (t : Fin n) (f : Nat) (res : Int) (here : s.calls t = .fdput f res) :
      ObjMove s (s.setCall t (.outside res))
  | close (slot : Slot) (f : Nat) (listed : slot ∈ s.slots) (installed : slot.file = some f) :
      ObjMove s {s with slots := s.slots.erase slot}
  | dup (slot : Slot) (f : Nat) (copy : Int) (listed : slot ∈ s.slots) (installed : slot.file = some f)
      (fresh : copy ∉ s.slots.map Slot.fd) : ObjMove s {s with slots := ⟨copy,some f,false⟩::s.slots}
  | openOther (fd : Int) (file : Nat) (fresh : fd ∉ s.slots.map Slot.fd) (new : file ∉ s.files.map File.addr) :
      ObjMove s {s with slots := ⟨fd,some file,false⟩::s.slots, files := ⟨file,none⟩::s.files}
  | release (file : File) (listed : file ∈ s.files) (last : file.addr ∉ s.refs) : ObjMove s (s.release file file.privateData)

section
variable {n : Nat} {s u : Objects n}

theorem slot_found {fd : Int} {f : Nat} (found : (s.slot fd).bind Slot.file = some f) :
    ∃ slot ∈ s.slots, slot.file = some f := by
  obtain ⟨slot,here,installed⟩ := Option.bind_eq_some_iff.mp found
  exact ⟨slot,(find_some Slot.fd here).1,installed⟩

theorem file_found {f ep : Nat} (found : (s.file f).bind File.privateData = some ep) : (⟨f,some ep⟩ : File) ∈ s.files := by
  obtain ⟨file,here,data⟩ := Option.bind_eq_some_iff.mp found
  obtain ⟨member,same⟩ := find_some File.addr here
  cases file with
  | mk addr privateData =>
    cases same
    cases data
    exact member

theorem create1_move (t : Fin n) (flags : EventMask) (out : (s.calls t).isOutside = true) : ObjMove s (s.create1 t flags) := by
  unfold Objects.create1
  split
  · exact .refused t _ out
  · exact .called t flags out

theorem next_move (t : Fin n) (ok : s.next t = some u) : ObjMove s u := by
  unfold Objects.next at ok
  split at ok
  next here =>
    cases ok
    exact .freeUid t here
  next flags ep here =>
    cases ok
    exact .initialise t flags ep here
  next ep fd file here =>
    cases ok
    exact .setFile t ep fd file here
  next fd file here =>
    cases ok
    exact .fdInstall t fd file here
  next ep fd error here =>
    cases ok
    exact .putUnusedFd t ep fd error here
  next ep error here =>
    cases ok
    exact .epFree t ep error here
  next f here =>
    split at ok
    next ep found =>
      cases ok
      exact .epollFile t f ep here (file_found found)
    next =>
      cases ok
      exact .otherFile t f here
  next f res here =>
    cases ok
    exact .fdput t f res here
  next => cases ok

theorem objStep_move (l : ObjLabel n) (lawful : s.lawful l = true) (ok : objStep s l = some u) : ObjMove s u := by
  obtain ⟨unused,abandoned⟩ := Bool.and_eq_true_iff.mp lawful
  cases l with
  | epollCreate t size =>
    obtain ⟨out,⟨⟩⟩ := Option.ite_none_right_eq_some.mp ok
    split
    · exact .refused t _ out
    · exact create1_move t 0 out
  | epollCreate1 t flags =>
    obtain ⟨out,⟨⟩⟩ := Option.ite_none_right_eq_some.mp ok
    exact create1_move t flags out
  | kzalloc t ep =>
    simp only [objStep] at ok
    split at ok
    next flags here =>
      cases ok
      exact .noMemory t flags here
    next flags ep here =>
      cases ok
      exact .kzalloc t flags ep here (by simpa [Objects.unused] using unused)
    next => cases ok
  | getUnusedFd t fd =>
    simp only [objStep] at ok
    split at ok
    next flags ep here =>
      split at ok
      next =>
        cases ok
        exact .noFd t flags ep fd here
      next given =>
        cases ok
        simp only [Objects.unused,given,decide_false,Bool.false_or,decide_eq_true_eq] at unused
        exact .getFd t flags ep fd here unused
    next => cases ok
  | anonInodeGetfile t file =>
    simp only [objStep] at ok
    split at ok
    next ep fd error here =>
      cases ok
      exact .noFile t ep fd error here
    next ep fd file here =>
      cases ok
      exact .getFile t ep fd file here (of_decide_eq_true unused)
    next => cases ok
  | next t => exact next_move t ok
  | epollWait t epfd maxevents accessOk =>
    obtain ⟨out,⟨⟩⟩ := Option.ite_none_right_eq_some.mp ok
    unfold Objects.epollWait
    split
    · exact .refused t _ out
    · split
      · exact .refused t _ out
      · split
        next => exact .refused t _ out
        next f found =>
          obtain ⟨slot,listed,installed⟩ := slot_found found
          exact .fdget t slot f out listed installed
  | epPoll t res =>
    simp only [objStep] at ok
    split at ok
    next f ep here =>
      cases ok
      exact .polled t f ep res here
    next => cases ok
  | close t fd =>
    obtain ⟨_,ok⟩ := Option.ite_none_right_eq_some.mp ok
    unfold Objects.close at ok
    split at ok
    next slot found =>
      obtain ⟨some,⟨⟩⟩ := Option.ite_none_right_eq_some.mp ok
      obtain ⟨f,installed⟩ := Option.isSome_iff_exists.mp some
      exact .close slot f (find_some Slot.fd found).1 installed
    next => cases ok
  | dup t fd copy =>
    simp only [objStep] at ok
    split at ok
    next f found =>
      obtain ⟨_,⟨⟩⟩ := Option.ite_none_right_eq_some.mp ok
      obtain ⟨slot,listed,installed⟩ := slot_found found
      exact .dup slot f copy listed installed (of_decide_eq_true unused)
    next => cases ok
  | openOther t fd file =>
    obtain ⟨_,⟨⟩⟩ := Option.ite_none_right_eq_some.mp ok
    obtain ⟨fresh,new⟩ := Bool.and_eq_true_iff.mp unused
    exact .openOther fd file (of_decide_eq_true fresh) (of_decide_eq_true new)
  | release f freed =>
    obtain ⟨file,found,rfl⟩ := Option.map_eq_some_iff.mp ok
    obtain ⟨last,own⟩ := Bool.and_eq_true_iff.mp abandoned
    obtain ⟨listed,rfl⟩ := find_some File.addr found
    have own : freed = file.privateData := by simpa [found] using own
    exact own ▸ .release file listed (of_decide_eq_true last)

end

/-- Everything that exists is in one place: with a call, with a file, or in the table. -/
structure Balanced {n : Nat} (s : Objects n) : Prop where
  eps : (s.eps : Multiset Nat) = total CallPc.eps s.calls + (s.files.filterMap File.privateData : List Nat)
  fds : (((s.slots.filter fun slot => slot.file.isNone).map Slot.fd : List Int) : Multiset Int) = total CallPc.fds s.calls
  users : s.users = total CallPc.users s.calls + s.eps.length + s.freed
  epsOnce : s.eps.Nodup
  filesOnce : Keyed.Unique File.addr s.files
  slotsOnce : Keyed.Unique Slot.fd s.slots

section
variable {n : Nat} {s : Objects n} {t : Fin n} {pc : CallPc}

theorem isOutside_iff : pc.isOutside = true ↔ ∃ res, pc = .outside res := by
  cases pc <;> simp [CallPc.isOutside]

theorem reserved_slot {slots : List Slot} {fd : Int} (unique : Keyed.Unique Slot.fd slots)
    (reserved : fd ∈ (slots.filter fun slot => slot.file.isNone).map Slot.fd) {slot : Slot} (listed : slot ∈ slots)
    (same : slot.fd = fd) : slot.file = none := by
  obtain ⟨other,inside,key⟩ := List.mem_map.mp reserved
  obtain ⟨member,none⟩ := List.mem_filter.mp inside
  have one : slot = other := by
    have first := find_of_mem Slot.fd unique listed
    rw [same,← key,find_of_mem Slot.fd unique member] at first
    exact (Option.some.inj first).symm
  rw [one]
  exact Option.isNone_iff_eq_none.mp none

/-- Both `fd_install` and `put_unused_fd` end the reservation of a descriptor. -/
theorem unreserved {slots later : List Slot} {fd : Int} {others : Multiset Int} (unique : Keyed.Unique Slot.fd slots)
    (before : (((slots.filter fun slot => slot.file.isNone).map Slot.fd : List Int) : Multiset Int) = others + {fd})
    (after : (later.filter fun slot => slot.file.isNone).map Slot.fd =
      ((slots.filter fun slot => slot.file.isNone).map Slot.fd).filter (· != fd)) :
    (((later.filter fun slot => slot.file.isNone).map Slot.fd : List Int) : Multiset Int) = others := by
  have distinct : ((slots.filter fun slot => slot.file.isNone).map Slot.fd).Nodup :=
    unique.sublist (List.filter_sublist.map Slot.fd)
  rw [after,← distinct.erase_eq_filter,← Multiset.coe_erase,before,add_comm,Multiset.singleton_add,Multiset.erase_cons_head]

theorem install_reserved (slots : List Slot) (fd : Int) (file : Nat) :
    ((slots.map (Slot.install fd file)).filter fun slot => slot.file.isNone).map Slot.fd =
      ((slots.filter fun slot => slot.file.isNone).map Slot.fd).filter (· != fd) := by
  induction slots with
  | nil => rfl
  | cons slot rest ih =>
    by_cases same : slot.fd = fd
    · cases none : slot.file <;> simp [Slot.install,same,none,ih]
    · cases none : slot.file <;> simp [Slot.install,same,none,ih]

theorem filter_reserved (slots : List Slot) (fd : Int) :
    ((slots.filter fun slot => slot.fd ≠ fd).filter fun slot => slot.file.isNone).map Slot.fd =
      ((slots.filter fun slot => slot.file.isNone).map Slot.fd).filter (· != fd) := by
  induction slots with
  | nil => rfl
  | cons slot rest ih =>
    by_cases same : slot.fd = fd
    · cases none : slot.file <;> simp_all
    · cases none : slot.file <;> simp_all

namespace Balanced

/-- The call goes on without gaining or losing anything. -/
theorem quiet (before : Balanced s) (eps : pc.eps = (s.calls t).eps) (fds : pc.fds = (s.calls t).fds)
    (users : pc.users = (s.calls t).users) : Balanced (s.setCall t pc) where
  eps := by
    rw [Objects.setCall,total_same _ _ _ _ eps]
    exact before.eps
  fds := by
    rw [Objects.setCall,total_same _ _ _ _ fds]
    exact before.fds
  users := by
    rw [Objects.setCall,total_same _ _ _ _ users]
    exact before.users
  epsOnce := before.epsOnce
  filesOnce := before.filesOnce
  slotsOnce := before.slotsOnce

theorem epFree (before : Balanced s) {ep : Nat} (error : Int) (here : s.calls t = .epFree ep error) :
    Balanced ((s.epFree ep).setCall t (.outside error)) := by
  have lost : total CallPc.eps (Function.update s.calls t (.outside error)) + {ep} = total CallPc.eps s.calls := by
    have lose := total_lose CallPc.eps s.calls t (.outside error) rfl
    rwa [here] at lose
  have split := before.eps
  rw [← lost,add_right_comm] at split
  have inside : ep ∈ s.eps := by
    rw [← Multiset.mem_coe,split]
    simp
  refine ⟨?_,?_,?_,before.epsOnce.erase ep,before.filesOnce,before.slotsOnce⟩
  · change ((s.eps.erase ep : List Nat) : Multiset Nat) = _
    rw [← Multiset.coe_erase,split,add_comm,Multiset.singleton_add,Multiset.erase_cons_head]
    rfl
  · rw [Objects.setCall,total_same _ _ _ _ (by rw [Objects.epFree,here]; rfl)]
    exact before.fds
  · rw [Objects.setCall,total_same _ _ _ _ (by rw [Objects.epFree,here]; rfl)]
    have users := before.users
    have length := List.length_erase_of_mem inside
    have positive := List.length_pos_of_mem inside
    simp only [Objects.epFree,length]
    omega

theorem called (before : Balanced s) (flags : EventMask) (out : (s.calls t).isOutside = true) :
    Balanced ({s with users := s.users + 1}.setCall t (.kzalloc flags)) := by
  obtain ⟨res,here⟩ := isOutside_iff.mp out
  refine ⟨?_,?_,?_,before.epsOnce,before.filesOnce,before.slotsOnce⟩
  · rw [Objects.setCall,total_same _ _ _ _ (by rw [here]; rfl)]
    exact before.eps
  · rw [Objects.setCall,total_same _ _ _ _ (by rw [here]; rfl)]
    exact before.fds
  · have gained : total CallPc.users (Function.update s.calls t (.kzalloc flags)) = total CallPc.users s.calls + 1 :=
      total_gain _ _ _ _ (by rw [here]; rfl)
    change s.users + 1 = total CallPc.users (Function.update s.calls t (.kzalloc flags)) + s.eps.length + s.freed
    rw [gained,before.users]
    omega

theorem freeUid (before : Balanced s) (here : s.calls t = .freeUid) :
    Balanced ({s with users := s.users - 1}.setCall t (.outside (-enomem))) := by
  refine ⟨?_,?_,?_,before.epsOnce,before.filesOnce,before.slotsOnce⟩
  · rw [Objects.setCall,total_same _ _ _ _ (by rw [here]; rfl)]
    exact before.eps
  · rw [Objects.setCall,total_same _ _ _ _ (by rw [here]; rfl)]
    exact before.fds
  · have lost : total CallPc.users (Function.update s.calls t (.outside (-enomem))) + 1 = total CallPc.users s.calls := by
      have lose := total_lose CallPc.users s.calls t (.outside (-enomem)) rfl
      rwa [here] at lose
    change s.users - 1 = total CallPc.users (Function.update s.calls t (.outside (-enomem))) + s.eps.length + s.freed
    rw [before.users,← lost]
    omega

theorem kzalloc (before : Balanced s) {flags : EventMask} {ep : Nat} (here : s.calls t = .kzalloc flags) (fresh : ep ∉ s.eps)
    (ready : Nat → Bool) (epFile : Nat → Option Nat) :
    Balanced ({s with eps := ep::s.eps, ready := ready, epFile := epFile}.setCall t (.initialise flags ep)) := by
  refine ⟨?_,?_,?_,List.nodup_cons.mpr ⟨fresh,before.epsOnce⟩,before.filesOnce,before.slotsOnce⟩
  · rw [Objects.setCall,total_gain _ _ _ _ (by rw [here]; rfl)]
    have eps := before.eps
    simp only [← Multiset.cons_coe,eps,CallPc.eps,← Multiset.singleton_add]
    ac_rfl
  · rw [Objects.setCall,total_same _ _ _ _ (by rw [here]; rfl)]
    exact before.fds
  · have lost : total CallPc.users (Function.update s.calls t (.initialise flags ep)) + 1 = total CallPc.users s.calls := by
      have lose := total_lose CallPc.users s.calls t (.initialise flags ep) rfl
      rwa [here] at lose
    change s.users = total CallPc.users (Function.update s.calls t (.initialise flags ep)) + (s.eps.length + 1) + s.freed
    rw [before.users,← lost]
    omega

theorem getFd (before : Balanced s) {flags : EventMask} {ep : Nat} {fd : Int} (cloexec : Bool)
    (here : s.calls t = .getUnusedFd flags ep) (fresh : fd ∉ s.slots.map Slot.fd) :
    Balanced ({s with slots := ⟨fd,none,cloexec⟩::s.slots}.setCall t (.getFile ep fd)) := by
  refine ⟨?_,?_,?_,before.epsOnce,before.filesOnce,List.nodup_cons.mpr ⟨fresh,before.slotsOnce⟩⟩
  · rw [Objects.setCall,total_same _ _ _ _ (by rw [here]; rfl)]
    exact before.eps
  · rw [Objects.setCall,total_gain _ _ _ _ (by rw [here]; rfl),← before.fds]
    simp [CallPc.fds,← Multiset.cons_coe,← Multiset.singleton_add,add_comm]
  · rw [Objects.setCall,total_same _ _ _ _ (by rw [here]; rfl)]
    exact before.users

theorem getFile (before : Balanced s) {ep file : Nat} {fd : Int} (here : s.calls t = .getFile ep fd)
    (fresh : file ∉ s.files.map File.addr) :
    Balanced ({s with files := ⟨file,some ep⟩::s.files}.setCall t (.setFile ep fd file)) := by
  refine ⟨?_,?_,?_,before.epsOnce,List.nodup_cons.mpr ⟨fresh,before.filesOnce⟩,before.slotsOnce⟩
  · have lost := total_lose CallPc.eps s.calls t (.setFile ep fd file) rfl
    rw [here] at lost
    have eps := before.eps
    rw [← lost,add_assoc] at eps
    exact eps
  · rw [Objects.setCall,total_same _ _ _ _ (by rw [here]; rfl)]
    exact before.fds
  · rw [Objects.setCall,total_same _ _ _ _ (by rw [here]; rfl)]
    exact before.users

theorem endsReservation (before : Balanced s) {fd : Int} {later : List Slot} (had : (s.calls t).fds = {fd}) (has : pc.fds = 0)
    (eps : pc.eps = (s.calls t).eps) (users : pc.users = (s.calls t).users)
    (after : (later.filter fun slot => slot.file.isNone).map Slot.fd =
      ((s.slots.filter fun slot => slot.file.isNone).map Slot.fd).filter (· != fd))
    (unique : Keyed.Unique Slot.fd later) : Balanced ({s with slots := later}.setCall t pc) := by
  refine ⟨?_,?_,?_,before.epsOnce,before.filesOnce,unique⟩
  · rw [Objects.setCall,total_same _ _ _ _ eps]
    exact before.eps
  · have lost := total_lose CallPc.fds s.calls t pc has
    rw [had] at lost
    exact unreserved before.slotsOnce (before.fds.trans lost.symm) after
  · rw [Objects.setCall,total_same _ _ _ _ users]
    exact before.users

theorem fdInstall (before : Balanced s) {fd : Int} {file : Nat} (here : s.calls t = .fdInstall fd file) :
    Balanced ({s with slots := s.slots.map (Slot.install fd file)}.setCall t (.outside fd)) := by
  refine before.endsReservation (by rw [here]; rfl) rfl (by rw [here]; rfl) (by rw [here]; rfl)
    (install_reserved s.slots fd file) (unique_map Slot.fd _ ?_ before.slotsOnce)
  intro slot
  unfold Slot.install
  split <;> rfl

theorem putUnusedFd (before : Balanced s) {ep : Nat} {fd error : Int} (here : s.calls t = .putUnusedFd ep fd error) :
    Balanced ({s with slots := s.slots.filter fun slot => slot.fd ≠ fd}.setCall t (.epFree ep error)) :=
  before.endsReservation (by rw [here]; rfl) rfl (by rw [here]; rfl) (by rw [here]; rfl)
    (filter_reserved s.slots fd) (before.slotsOnce.sublist (List.filter_sublist.map Slot.fd))

theorem release (before : Balanced s) {file : File} (listed : file ∈ s.files) :
    Balanced (s.release file file.privateData) := by
  have parts : (s.files : Multiset File) = file ::ₘ ((s.files.erase file : List File) : Multiset File) := by
    rw [← Multiset.coe_erase,Multiset.cons_erase (Multiset.mem_coe.mpr listed)]
  have owned : (s.files.filterMap File.privateData : Multiset Nat) =
      (file.privateData.toList : Multiset Nat) + ((s.files.erase file).filterMap File.privateData : List Nat) := by
    have mapped := congrArg (Multiset.filterMap File.privateData) parts
    cases data : file.privateData <;> simpa [data] using mapped
  have unique := unique_erase File.addr before.filesOnce file
  have eps := before.eps
  rw [owned] at eps
  unfold Objects.release
  cases data : file.privateData with
  | none =>
    rw [data] at eps
    exact ⟨by simpa using eps,before.fds,before.users,before.epsOnce,unique,before.slotsOnce⟩
  | some ep =>
    rw [data] at eps
    have inside : ep ∈ s.eps := by
      rw [← Multiset.mem_coe,eps]
      simp
    refine ⟨?_,before.fds,?_,before.epsOnce.erase ep,unique,before.slotsOnce⟩
    · change ((s.eps.erase ep : List Nat) : Multiset Nat) = _
      rw [← Multiset.coe_erase,eps,Option.toList_some,Multiset.coe_singleton,add_left_comm,Multiset.singleton_add,
        Multiset.erase_cons_head]
      rfl
    · have users := before.users
      have length := List.length_erase_of_mem inside
      have positive := List.length_pos_of_mem inside
      simp only [Objects.epFree,length]
      omega

/-- The table changes only in descriptors that are not reserved. -/
theorem table (before : Balanced s) {later : List Slot}
    (same : (later.filter fun slot => slot.file.isNone).map Slot.fd = (s.slots.filter fun slot => slot.file.isNone).map Slot.fd)
    (unique : Keyed.Unique Slot.fd later) : Balanced {s with slots := later} :=
  ⟨before.eps,(congrArg _ same).trans before.fds,before.users,before.epsOnce,before.filesOnce,unique⟩

theorem erased (before : Balanced s) {slot : Slot} {f : Nat} (installed : slot.file = some f) :
    Balanced {s with slots := s.slots.erase slot} := by
  refine before.table ?_ (unique_erase Slot.fd before.slotsOnce slot)
  have distinct : s.slots.Nodup := before.slotsOnce.of_map
  rw [distinct.erase_eq_filter,List.filter_filter]
  congr 1
  apply List.filter_congr
  intro other _
  cases none : other.file with
  | none =>
    have different : other ≠ slot := by
      rintro rfl
      rw [installed] at none
      cases none
    simp [different]
  | some => simp

theorem move {u : Objects n} (before : Balanced s) (move : ObjMove s u) : Balanced u := by
  cases move with
  | refused t res out =>
    obtain ⟨old,here⟩ := isOutside_iff.mp out
    exact before.quiet (by rw [here]; rfl) (by rw [here]; rfl) (by rw [here]; rfl)
  | fdget t slot f out =>
    obtain ⟨old,here⟩ := isOutside_iff.mp out
    exact before.quiet (by rw [here]; rfl) (by rw [here]; rfl) (by rw [here]; rfl)
  | noMemory t _ here | noFd t _ _ _ here | noFile t _ _ _ here | epollFile t _ _ here | otherFile t _ here
  | polled t _ _ _ here | fdput t _ _ here => exact before.quiet (by rw [here]; rfl) (by rw [here]; rfl) (by rw [here]; rfl)
  | initialise t flags ep here =>
    have same : Balanced {s with ready := Function.update s.ready ep true} := {before with}
    exact same.quiet (by rw [here]; rfl) (by rw [here]; rfl) (by rw [here]; rfl)
  | setFile t ep fd file here =>
    have same : Balanced {s with epFile := Function.update s.epFile ep (some file)} := {before with}
    exact same.quiet (by rw [here]; rfl) (by rw [here]; rfl) (by rw [here]; rfl)
  | called t flags out => exact before.called flags out
  | freeUid t here => exact before.freeUid here
  | kzalloc t flags ep here fresh => exact before.kzalloc here fresh _ _
  | getFd t flags ep fd here fresh => exact before.getFd _ here fresh
  | getFile t ep fd file here fresh => exact before.getFile here fresh
  | fdInstall t fd file here => exact before.fdInstall here
  | putUnusedFd t ep fd error here => exact before.putUnusedFd here
  | epFree t ep error here => exact before.epFree error here
  | close slot f listed installed => exact before.erased installed
  | dup slot f copy listed installed fresh =>
    exact before.table (by simp) (List.nodup_cons.mpr ⟨fresh,before.slotsOnce⟩)
  | openOther fd file fresh new =>
    exact ⟨before.eps,before.fds,before.users,before.epsOnce,List.nodup_cons.mpr ⟨new,before.filesOnce⟩,
      List.nodup_cons.mpr ⟨fresh,before.slotsOnce⟩⟩
  | release file listed last => exact before.release listed

end Balanced

end

end Reactor.Epoll
