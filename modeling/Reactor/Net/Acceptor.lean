import Reactor.Transition
import Mathlib.Tactic.Common
import Mathlib.Data.List.Basic

/-! The spare descriptor of the acceptor. `handleRead` is cut into its system calls; in
between, the other threads of the process open and close descriptors of the same table, and
clients come and go. -/
namespace Reactor.Net
open Reactor.Transition

inductive File
  | devNull
  | conn (c : Nat)
  | other
  deriving DecidableEq

inductive Owner
  | acceptor
  | thread (t : Nat)
  deriving DecidableEq

structure Descriptor where
  owner : Owner
  file : File
  deriving DecidableEq

/-- The descriptors of the process; the length of the table is the limit. -/
abbrev FdTable := List (Option Descriptor)

namespace FdTable

def lowestFree (table : FdTable) : Option Nat := table.findIdx? Option.isNone

/-- `close`, which is refused for a descriptor that is not open. -/
def close (table : FdTable) (fd : Int) : FdTable := if 0 ≤ fd then table.set fd.toNat none else table

def connAt (table : FdTable) (fd : Int) : Option Nat :=
  match if 0 ≤ fd then table[fd.toNat]? else none with
  | some (some ⟨_,.conn c⟩) => some c
  | _ => none

end FdTable

/-- The errors of `accept` that `sockets::accept` knows, and any other. -/
inductive AcceptErrno
  | eagain | econnaborted | eintr | eproto | eperm | emfile
  | ebadf | efault | einval | enfile | enobufs | enomem | enotsock | eopnotsupp
  | unknown
  deriving DecidableEq

/-- The errors that are not fatal. -/
def AcceptErrno.expected : AcceptErrno → Bool
  | .eagain | .econnaborted | .eintr | .eproto | .eperm | .emfile => true
  | _ => false

inductive AcceptorPc
  | outside
  | accept
  | callback (connfd : Nat)
  | closeIdle
  | acceptIdle
  | closeConn
  | openIdle
  | aborted
  deriving DecidableEq

/-- One treatment of EMFILE: the connection that was first in the backlog when `accept` was
called again, an error the call had of its own, and the connection it gave. -/
structure Overload where
  pending : Option Nat
  fault : Option AcceptErrno
  taken : Option Nat
  deriving DecidableEq

structure Acceptor where
  table : FdTable
  backlog : List Nat
  idleFd : Int
  newConnectionCallback : Bool
  pc : AcceptorPc
  overloads : List Overload
  dropped : List Nat
  deriving DecidableEq

inductive AcceptorLabel
  | handleRead
  | proceed (fault : Option AcceptErrno)
  | openFd (t : Nat)
  | closeFd (t fd : Nat)
  | arrive (c : Nat)
  | leave (c : Nat)
  deriving DecidableEq

namespace Acceptor

/-- The system call reserves the descriptor before it looks at the backlog. -/
def tryAccept (s : Acceptor) (fault : Option AcceptErrno) : Except AcceptErrno (Nat × Nat × List Nat) :=
  match fault, s.table.lowestFree, s.backlog with
  | some e, _, _ => .error e
  | none, none, _ => .error .emfile
  | none, some _, [] => .error .eagain
  | none, some fd, c::rest => .ok (fd,c,rest)

def accept (s : Acceptor) (fault : Option AcceptErrno) : Acceptor :=
  match s.tryAccept fault with
  | .ok (fd,c,rest) =>
    { s with table := s.table.set fd (some ⟨.acceptor,.conn c⟩), backlog := rest, pc := .callback fd }
  | .error e => { s with pc := if e = .emfile then .closeIdle else if e.expected then .outside else .aborted }

/-- The new connection keeps the descriptor, or it is closed. -/
def newConnection (s : Acceptor) (connfd : Nat) : Acceptor :=
  { s with
    table := s.table.set connfd
      (if s.newConnectionCallback then (s.table.connAt connfd).map (fun c => ⟨.thread 0,.conn c⟩) else none)
    pc := .outside }

def acceptIdle (s : Acceptor) (fault : Option AcceptErrno) : Acceptor :=
  match s.tryAccept fault with
  | .ok (fd,c,rest) =>
    { s with
      table := s.table.set fd (some ⟨.acceptor,.conn c⟩), backlog := rest, idleFd := fd, pc := .closeConn
      overloads := s.overloads ++ [⟨s.backlog.head?,fault,some c⟩] }
  | .error _ => { s with idleFd := -1, pc := .closeConn, overloads := s.overloads ++ [⟨s.backlog.head?,fault,none⟩] }

def openIdle (s : Acceptor) : Acceptor :=
  match s.table.lowestFree with
  | some fd => { s with table := s.table.set fd (some ⟨.acceptor,.devNull⟩), idleFd := fd, pc := .outside }
  | none => { s with idleFd := -1, pc := .outside }

/-- The next system call of `handleRead`. -/
def proceed (s : Acceptor) (fault : Option AcceptErrno) : Option Acceptor :=
  match s.pc with
  | .accept => some (s.accept fault)
  | .callback connfd => some (s.newConnection connfd)
  | .closeIdle => some { s with table := s.table.close s.idleFd, pc := .acceptIdle }
  | .acceptIdle => some (s.acceptIdle fault)
  | .closeConn =>
    some { s with
      table := s.table.close s.idleFd, pc := .openIdle, dropped := s.dropped ++ (s.table.connAt s.idleFd).toList }
  | .openIdle => some s.openIdle
  | .outside | .aborted => none

end Acceptor

def acceptorStep (s : Acceptor) : AcceptorLabel → Option Acceptor
  | .handleRead => if s.pc = .outside then some { s with pc := .accept } else none
  -- only a full table gives EMFILE
  | .proceed fault => if fault = some .emfile then none else s.proceed fault
  | .openFd t =>
    match s.table.lowestFree with
    | some fd => some { s with table := s.table.set fd (some ⟨.thread t,.other⟩) }
    | none => some s
  | .closeFd t fd =>
    match s.table[fd]? with
    | some (some d) => if d.owner = .thread t then some { s with table := s.table.set fd none } else none
    | _ => none
  | .arrive c => some { s with backlog := s.backlog ++ [c] }
  | .leave c => some { s with backlog := s.backlog.erase c }

namespace FdTable
variable {table : FdTable} {fd : Nat}

theorem lowestFree_some (free : table.lowestFree = some fd) : table[fd]? = some none := by
  obtain ⟨inside,empty,_⟩ := List.findIdx?_eq_some_iff_getElem.mp free
  rw [List.getElem?_eq_getElem inside,Option.isNone_iff_eq_none.mp empty]

theorem lowestFree_of_mem (free : none ∈ table) : ∃ fd, table.lowestFree = some fd := by
  cases found : table.lowestFree with
  | some fd => exact ⟨fd,rfl⟩
  | none =>
    have full := List.findIdx?_eq_none_iff.mp found none free
    cases full

theorem set_self {x y : Option Descriptor} (here : table[fd]? = some x) : (table.set fd y)[fd]? = some y := by
  obtain ⟨inside,_⟩ := List.getElem?_eq_some_iff.mp here
  simp [inside]

theorem mem_set_none {x : Option Descriptor} (here : table[fd]? = some x) : none ∈ table.set fd none :=
  List.mem_of_getElem? (set_self here)

/-- Another free descriptor is left. -/
theorem free_left {d : Descriptor} (free : table[fd]? = some none) (more : table.count none ≠ 1) :
    none ∈ table.set fd (some d) := by
  obtain ⟨inside,empty⟩ := List.getElem?_eq_some_iff.mp free
  have some : 0 < table.count none := List.count_pos_iff.mpr (List.mem_of_getElem? free)
  apply List.count_pos_iff.mp
  rw [List.count_set inside,empty]
  simp only [BEq.rfl,if_true,show ((some d : Option Descriptor) == none) = false from rfl]
  omega

theorem connAt_held {idleFd : Int} {o : Owner} {c : Nat} (same : idleFd = fd)
    (held : table[fd]? = some (some ⟨o,.conn c⟩)) : table.connAt idleFd = some c := by
  subst same
  simp [connAt,held]

theorem connAt_negative : table.connAt (-1) = none := by simp [connAt]

/-- The descriptors of the acceptor are left to it. -/
def Keeps (before after : FdTable) : Prop :=
  ∀ (fd : Nat) (d : Descriptor), d.owner = .acceptor → before[fd]? = some (some d) → after[fd]? = some (some d)

theorem Keeps.set {x : Option Descriptor} (here : table[fd]? = some x) (y : Option Descriptor)
    (other : ∀ d, x = some d → d.owner ≠ .acceptor) : Keeps table (table.set fd y) := by
  intro k d own held
  have apart : fd ≠ k := by
    rintro rfl
    rw [here] at held
    exact other d (Option.some.inj held) own
  rw [List.getElem?_set_ne apart]
  exact held

end FdTable

/-- The spare descriptor is open and belongs to the acceptor. -/
def Spare (table : FdTable) (idleFd : Int) : Prop :=
  ∃ fd : Nat, idleFd = fd ∧ table[fd]? = some (some ⟨.acceptor,.devNull⟩)

/-- What the acceptor has to count on at each point of `handleRead`. -/
def AcceptorPc.backed (table : FdTable) (idleFd : Int) : AcceptorPc → Prop
  | .outside | .accept | .closeIdle => Spare table idleFd
  | .callback connfd => Spare table idleFd ∧ ∃ c, table[connfd]? = some (some ⟨.acceptor,.conn c⟩)
  | .acceptIdle | .openIdle => none ∈ table
  | .closeConn => idleFd = -1 ∧ none ∈ table ∨
      ∃ (fd : Nat) (c : Nat), idleFd = fd ∧ table[fd]? = some (some ⟨.acceptor,.conn c⟩)
  | .aborted => True

namespace Acceptor

/-- The acceptor has no descriptor to give up, and needs one. -/
def unbacked (s : Acceptor) : Bool :=
  match s.pc with
  | .acceptIdle | .openIdle => true
  | .closeConn => s.idleFd < 0
  | _ => false

/-- No other thread takes the last free descriptor while the acceptor has given up its own. -/
def sparing (s : Acceptor) : AcceptorLabel → Bool
  | .openFd _ => !(s.unbacked && s.table.count none = 1)
  | _ => true

def inHand (s : Acceptor) : List Nat := if s.pc = .closeConn then (s.table.connAt s.idleFd).toList else []

end Acceptor

/-- The reserve, and what became of the connections that were taken with it. -/
structure Reserved (s : Acceptor) : Prop where
  backed : s.pc.backed s.table s.idleFd
  taken : ∀ o ∈ s.overloads, o.fault = none → o.taken = o.pending
  dropped : s.dropped ++ s.inHand = s.overloads.filterMap Overload.taken

namespace Reserved
variable {s u : Acceptor}

theorem spare_keeps {before after : FdTable} {idleFd : Int} (spare : Spare before idleFd)
    (keeps : before.Keeps after) : Spare after idleFd := by
  obtain ⟨fd,same,held⟩ := spare
  exact ⟨fd,same,keeps fd _ rfl held⟩

/-- What the rest of the process does to the table. -/
theorem outsiders (reserved : Reserved s) {table : FdTable} (backlog : List Nat) (keeps : s.table.Keeps table)
    (free : s.unbacked = true → none ∈ s.table → none ∈ table) :
    Reserved { s with table := table, backlog := backlog } := by
  have backed := reserved.backed
  have still : s.pc.backed table s.idleFd ∧ (s.pc = .closeConn → table.connAt s.idleFd = s.table.connAt s.idleFd) := by
    cases here : s.pc with
    | outside | accept | closeIdle =>
      rw [here] at backed
      exact ⟨spare_keeps backed keeps,nofun⟩
    | callback connfd =>
      rw [here] at backed
      obtain ⟨spare,c,held⟩ := backed
      exact ⟨⟨spare_keeps spare keeps,c,keeps connfd _ rfl held⟩,nofun⟩
    | acceptIdle | openIdle =>
      rw [here] at backed
      exact ⟨free (by simp [Acceptor.unbacked,here]) backed,nofun⟩
    | closeConn =>
      rw [here] at backed
      rcases backed with ⟨negative,left⟩ | ⟨fd,c,same,held⟩
      · refine ⟨.inl ⟨negative,free (by simp [Acceptor.unbacked,here,negative]) left⟩,fun _ => ?_⟩
        rw [negative,FdTable.connAt_negative,FdTable.connAt_negative]
      · have after := keeps fd _ rfl held
        refine ⟨.inr ⟨fd,c,same,after⟩,fun _ => ?_⟩
        rw [FdTable.connAt_held same held,FdTable.connAt_held same after]
    | aborted => exact ⟨trivial,nofun⟩
  refine ⟨still.1,reserved.taken,?_⟩
  have same : Acceptor.inHand { s with table := table, backlog := backlog } = s.inHand := by
    by_cases here : s.pc = .closeConn
    · simp [Acceptor.inHand,here,still.2 here]
    · simp [Acceptor.inHand,here]
  rw [same]
  exact reserved.dropped

theorem calm (reserved : Reserved s) (here : s.pc ≠ .closeConn) : s.dropped = s.overloads.filterMap Overload.taken := by
  have all := reserved.dropped
  rw [Acceptor.inHand,if_neg here,List.append_nil] at all
  exact all

theorem tryAccept_ok {fault : Option AcceptErrno} {fd c : Nat} {rest : List Nat}
    (ok : s.tryAccept fault = .ok (fd,c,rest)) :
    fault = none ∧ s.table.lowestFree = some fd ∧ s.backlog = c::rest := by
  unfold Acceptor.tryAccept at ok
  split at ok
  · cases ok
  · cases ok
  · cases ok
  · rename_i free waits
    cases ok
    exact ⟨rfl,free,waits⟩

theorem tryAccept_error {e : AcceptErrno} (free : none ∈ s.table) (error : s.tryAccept none = .error e) :
    s.backlog = [] := by
  obtain ⟨fd,lowest⟩ := FdTable.lowestFree_of_mem free
  unfold Acceptor.tryAccept at error
  rw [lowest] at error
  cases waits : s.backlog with
  | nil => rfl
  | cons c rest =>
    rw [waits] at error
    cases error

theorem accept (reserved : Reserved s) (here : s.pc = .accept) (fault : Option AcceptErrno) :
    Reserved (s.accept fault) := by
  have spare : Spare s.table s.idleFd := by
    have backed := reserved.backed
    rw [here] at backed
    exact backed
  have all := reserved.calm (by simp [here])
  unfold Acceptor.accept
  split
  · rename_i fd c rest ok
    have free := FdTable.lowestFree_some (tryAccept_ok ok).2.1
    refine ⟨⟨spare_keeps spare (.set free _ nofun),c,FdTable.set_self free⟩,reserved.taken,?_⟩
    simpa [Acceptor.inHand] using all
  · refine ⟨?_,reserved.taken,?_⟩
    · simp only
      split
      · exact spare
      · split
        · exact spare
        · trivial
    · simp only [Acceptor.inHand]
      rw [if_neg (by split <;> (try split) <;> simp),List.append_nil]
      exact all

theorem newConnection (reserved : Reserved s) {connfd : Nat} (here : s.pc = .callback connfd) :
    Reserved (s.newConnection connfd) := by
  have backed := reserved.backed
  rw [here] at backed
  obtain ⟨⟨fd,same,idle⟩,c,held⟩ := backed
  have all := reserved.calm (by simp [here])
  have apart : connfd ≠ fd := by
    rintro rfl
    rw [idle] at held
    cases held
  refine ⟨⟨fd,same,?_⟩,reserved.taken,?_⟩
  · simp only [Acceptor.newConnection]
    rw [List.getElem?_set_ne apart]
    exact idle
  · simpa [Acceptor.newConnection,Acceptor.inHand] using all

theorem closeIdle (reserved : Reserved s) (here : s.pc = .closeIdle) :
    Reserved { s with table := s.table.close s.idleFd, pc := .acceptIdle } := by
  have backed := reserved.backed
  rw [here] at backed
  obtain ⟨fd,same,idle⟩ := backed
  have all := reserved.calm (by simp [here])
  refine ⟨?_,reserved.taken,by simpa [Acceptor.inHand] using all⟩
  rw [same]
  exact FdTable.mem_set_none idle

theorem acceptIdle (reserved : Reserved s) (here : s.pc = .acceptIdle) (fault : Option AcceptErrno) :
    Reserved (s.acceptIdle fault) := by
  have free : none ∈ s.table := by
    have backed := reserved.backed
    rw [here] at backed
    exact backed
  have all := reserved.calm (by simp [here])
  have taken (last : Overload) (found : last.fault = none → last.taken = last.pending) :
      ∀ o ∈ s.overloads ++ [last], o.fault = none → o.taken = o.pending := by
    intro o member
    rcases List.mem_append.mp member with old | new
    · exact reserved.taken o old
    · rw [List.mem_singleton.mp new]
      exact found
  unfold Acceptor.acceptIdle
  split
  · rename_i fd c rest ok
    obtain ⟨_,lowest,waits⟩ := tryAccept_ok ok
    have held := FdTable.set_self (y := some ⟨.acceptor,.conn c⟩) (FdTable.lowestFree_some lowest)
    refine ⟨.inr ⟨fd,c,rfl,held⟩,taken _ (fun _ => by simp [waits]),?_⟩
    simp only [Acceptor.inHand,if_true]
    rw [FdTable.connAt_held rfl held,all,List.filterMap_append]
    rfl
  · rename_i e error
    refine ⟨.inl ⟨rfl,free⟩,taken _ ?_,?_⟩
    · rintro rfl
      simp [tryAccept_error free error]
    · simp only [Acceptor.inHand,if_true,FdTable.connAt_negative]
      simpa using all

theorem closeConn (reserved : Reserved s) (here : s.pc = .closeConn) :
    Reserved { s with
      table := s.table.close s.idleFd, pc := .openIdle, dropped := s.dropped ++ (s.table.connAt s.idleFd).toList } := by
  have backed := reserved.backed
  have all := reserved.dropped
  rw [here] at backed
  simp only [Acceptor.inHand,here,if_true] at all
  refine ⟨?_,reserved.taken,by simpa [Acceptor.inHand] using all⟩
  rcases backed with ⟨negative,free⟩ | ⟨fd,c,same,held⟩
  · rw [negative]
    exact free
  · rw [same]
    exact FdTable.mem_set_none held

theorem openIdle (reserved : Reserved s) (here : s.pc = .openIdle) : Reserved s.openIdle := by
  have free : none ∈ s.table := by
    have backed := reserved.backed
    rw [here] at backed
    exact backed
  obtain ⟨fd,lowest⟩ := FdTable.lowestFree_of_mem free
  have all := reserved.calm (by simp [here])
  simp only [Acceptor.openIdle,lowest]
  exact ⟨⟨fd,rfl,FdTable.set_self (FdTable.lowestFree_some lowest)⟩,reserved.taken,by simpa [Acceptor.inHand] using all⟩

theorem proceed (reserved : Reserved s) {fault : Option AcceptErrno} (ok : s.proceed fault = some u) : Reserved u := by
  unfold Acceptor.proceed at ok
  split at ok
  all_goals
    rename_i here
    cases ok
  · exact reserved.accept here fault
  · exact reserved.newConnection here
  · exact reserved.closeIdle here
  · exact reserved.acceptIdle here fault
  · exact reserved.closeConn here
  · exact reserved.openIdle here

theorem step (reserved : Reserved s) {l : AcceptorLabel} (sparing : s.sparing l = true)
    (ok : acceptorStep s l = some u) : Reserved u := by
  cases l with
  | handleRead =>
    obtain ⟨here,⟨⟩⟩ := Option.ite_none_right_eq_some.mp ok
    have backed := reserved.backed
    have all := reserved.calm (by simp [here])
    rw [here] at backed
    exact ⟨backed,reserved.taken,by simpa [Acceptor.inHand] using all⟩
  | proceed fault => exact reserved.proceed (Option.ite_none_left_eq_some.mp ok).2
  | openFd t =>
    simp only [acceptorStep] at ok
    split at ok
    · rename_i fd lowest
      cases ok
      have slot := FdTable.lowestFree_some lowest
      refine reserved.outsiders s.backlog (.set slot _ nofun) fun needs _ => FdTable.free_left slot ?_
      simpa [Acceptor.sparing,needs] using sparing
    · cases ok
      exact reserved
  | closeFd t fd =>
    simp only [acceptorStep] at ok
    split at ok
    · rename_i d held
      obtain ⟨own,⟨⟩⟩ := Option.ite_none_right_eq_some.mp ok
      refine reserved.outsiders s.backlog (.set held _ ?_) fun _ _ => FdTable.mem_set_none held
      rintro _ ⟨⟩
      simp [own]
    · cases ok
  | arrive c =>
    cases ok
    exact reserved.outsiders _ (fun _ _ _ held => held) (fun _ free => free)
  | leave c =>
    cases ok
    exact reserved.outsiders _ (fun _ _ _ held => held) (fun _ free => free)

end Reserved

/-- The acceptor behind its constructor, in a process with any limit and any descriptors. -/
def Acceptor.Constructed (s : Acceptor) : Prop :=
  s.pc = .outside ∧ Spare s.table s.idleFd ∧ s.overloads = [] ∧ s.dropped = []

/-- While no other thread takes the last free descriptor that the acceptor has just given up,
the reserve is back whenever `handleRead` has returned, and each overload gets rid of the
connection that was first in the backlog. -/
theorem spare_descriptor_kept (start s : Acceptor) (ls : List AcceptorLabel) (begun : start.Constructed)
    (run : Run acceptorStep start ls s)
    (sparing : Along acceptorStep (fun s l => s.sparing l = true) start ls) :
    (s.pc = .outside → Spare s.table s.idleFd ∧ s.dropped = s.overloads.filterMap Overload.taken) ∧
      ∀ o ∈ s.overloads, o.fault = none → o.taken = o.pending := by
  obtain ⟨outside,spare,none,nothing⟩ := begun
  have first : Reserved start := by
    refine ⟨?_,by simp [none],by simp [Acceptor.inHand,outside,none,nothing]⟩
    rw [outside]
    exact spare
  have reserved : Reserved s := run.keeps _ Reserved (fun _ _ _ before sparing ok => before.step sparing ok) sparing first
  refine ⟨fun back => ⟨?_,reserved.calm (by simp [back])⟩,reserved.taken⟩
  have backed := reserved.backed
  rw [back] at backed
  exact backed

/-- A process with two descriptors, the listening socket and the spare one, and client 7 waiting. -/
def crowded : Acceptor := ⟨[some ⟨.acceptor,.other⟩,some ⟨.acceptor,.devNull⟩],[7],1,true,.outside,[],[]⟩

theorem crowded_constructed : crowded.Constructed := ⟨rfl,⟨1,rfl,rfl⟩,rfl,rfl⟩

/-- EMFILE, and another thread asks for a descriptor while the spare one is in use for the connection. -/
def overloaded : List AcceptorLabel :=
  [.handleRead,.proceed none,.proceed none,.proceed none,.openFd 1,.proceed none,.proceed none]

theorem spare_descriptor_kept_overloaded :
    (final acceptorStep crowded overloaded).dropped = [7] ∧
      Spare (final acceptorStep crowded overloaded).table (final acceptorStep crowded overloaded).idleFd :=
  ⟨by decide +kernel,((spare_descriptor_kept crowded _ overloaded crowded_constructed
    (final_run _ _ _ (by decide +kernel)) (by decide +kernel)).1 (by decide +kernel)).1⟩

/-- The other thread gets in between the first `close` and `accept`. -/
def overtaken : List AcceptorLabel :=
  [.handleRead,.proceed none,.proceed none,.openFd 1,.proceed none,.proceed none,.proceed none]

/-- `handleRead` has returned without a spare descriptor; the next one leaves the client in the backlog. -/
theorem spare_descriptor_lost :
    ∃ start ls s more u, start.Constructed ∧ Run acceptorStep start ls s ∧ s.pc = .outside ∧ s.idleFd = -1 ∧
      ¬ Spare s.table s.idleFd ∧ Run acceptorStep s more u ∧ u.pc = .outside ∧ u.backlog = [7] ∧ u.dropped = [] ∧
      ∃ o ∈ u.overloads, o.pending = some 7 ∧ o.fault = none ∧ o.taken = none := by
  have negative : (final acceptorStep crowded overtaken).idleFd = -1 := by decide +kernel
  refine ⟨crowded,overtaken,final acceptorStep crowded overtaken,
    [.handleRead,.proceed none,.proceed none,.proceed none,.proceed none,.proceed none],_,crowded_constructed,
    final_run _ _ _ (by decide +kernel),by decide +kernel,negative,?_,final_append _ _ _ _ (by decide +kernel),
    by decide +kernel,by decide +kernel,by decide +kernel,⟨some 7,none,none⟩,by decide +kernel,rfl,rfl,rfl⟩
  rintro ⟨fd,same,_⟩
  rw [negative] at same
  cases same

end Reactor.Net
