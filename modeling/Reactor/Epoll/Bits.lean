import Mathlib.Data.BitVec

/-! Event words, operation codes and error numbers of `eventpoll.c`. The numbers are
those of the kernel headers the file includes; EP_PRIVATE_BITS, EPOLLINOUT_BITS and
EPOLLEXCLUSIVE_OK_BITS, which the file uses and does not repeat, are the kernel's own
combinations of them. -/
namespace Reactor.Epoll

abbrev EventMask := BitVec 32

def pollIn : EventMask := 0x1#32
def pollOut : EventMask := 0x4#32
def pollErr : EventMask := 0x8#32
def pollHup : EventMask := 0x10#32
def pollFree : EventMask := 0x4000#32
def epollExclusive : EventMask := 0x10000000#32
def epollWakeup : EventMask := 0x20000000#32
def epollOneshot : EventMask := 0x40000000#32
def epollEt : EventMask := 0x80000000#32

def epPrivateBits : EventMask := epollWakeup ||| epollOneshot ||| epollEt ||| epollExclusive
def epollInoutBits : EventMask := pollIn ||| pollOut
def epollExclusiveOkBits : EventMask :=
  epollInoutBits ||| pollErr ||| pollHup ||| epollWakeup ||| epollEt ||| epollExclusive

def epollCtlAdd : Int := 1
def epollCtlDel : Int := 2
def epollCtlMod : Int := 3

def eperm : Int := 1
def enoent : Int := 2
def eintr : Int := 4
def ebadf : Int := 9
def enomem : Int := 12
def efault : Int := 14
def eexist : Int := 17
def einval : Int := 22
def enospc : Int := 28
def eloop : Int := 40

def hits (word bits : EventMask) : Bool := word &&& bits != 0

/-- The key of a wake-up is an `unsigned long`: the mask is widened before the test. -/
def keyHits (key : BitVec 64) (mask : EventMask) : Bool := key &&& mask.zeroExtend 64 != 0

/-- What is left of the mask once an event has been copied out. -/
def settled (events : EventMask) : EventMask :=
  if hits events epollOneshot then events &&& epPrivateBits else events

theorem hits_iff (word bits : EventMask) : hits word bits = true ↔ word &&& bits ≠ 0 := by
  simp [hits]

theorem not_hits_iff (word bits : EventMask) : hits word bits = false ↔ word &&& bits = 0 := by
  simp [hits]

theorem settled_private (events bit : EventMask) (inside : bit &&& epPrivateBits = bit) :
    settled events &&& bit = events &&& bit := by
  unfold settled
  split
  · rw [BitVec.and_assoc,BitVec.and_comm epPrivateBits bit,inside]
  · rfl

theorem settled_settled (events : EventMask) : settled (settled events) = settled events := by
  have once : hits (settled events) epollOneshot = hits events epollOneshot := by
    rw [hits,hits,settled_private events epollOneshot (by decide)]
  rw [settled.eq_def (settled events),once]
  unfold settled
  split
  · rw [BitVec.and_assoc,BitVec.and_self]
  · rfl

theorem inside_of_outside_zero (word bits : EventMask) (none : word &&& ~~~bits = 0) :
    word &&& bits = word := by
  ext j bound
  have bit := congrArg (fun x : EventMask => x[j]) none
  simp only [BitVec.getElem_and,BitVec.getElem_not,BitVec.ofNat_eq_ofNat,BitVec.getElem_zero] at bit ⊢
  cases left : word[j] <;> cases right : bits[j] <;> simp [left,right] at bit ⊢

theorem withErrors_and (events bits : EventMask) (err : pollErr &&& bits = 0)
    (hup : pollHup &&& bits = 0) : (events ||| pollErr ||| pollHup) &&& bits = events &&& bits := by
  rw [BitVec.and_or_distrib_right,BitVec.and_or_distrib_right,err,hup]
  simp

theorem hits_of_clean (word mask : EventMask) (clean : word &&& epPrivateBits = 0)
    (meets : word &&& mask ≠ 0) : hits mask (~~~epPrivateBits) = true := by
  rw [hits_iff]
  intro none
  apply meets
  rw [← inside_of_outside_zero mask epPrivateBits none,BitVec.and_comm mask,← BitVec.and_assoc,clean]
  simp

theorem not_hits_private (events : EventMask) :
    hits (events &&& epPrivateBits) (~~~epPrivateBits) = false := by
  rw [not_hits_iff,BitVec.and_assoc]
  have apart : epPrivateBits &&& ~~~epPrivateBits = 0 := by decide
  rw [apart]
  simp

end Reactor.Epoll
