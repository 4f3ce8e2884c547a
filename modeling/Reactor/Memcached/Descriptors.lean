import Reactor.Memcached.DriveMachine
import Mathlib.Algebra.BigOperators.Group.Finset.Basic
import Mathlib.Algebra.Order.Group.Multiset

/-! Where the descriptors are that the main thread was given: refused, closed for want of
memory, on the way to a worker, or with exactly one worker. -/
namespace Reactor.Memcached
open Reactor.Transition

def MainPc.sfds : MainPc → List Int
  | .push _ item => [item.sfd]
  | _ => []

def sfds (items : List CqItem) : Multiset Int := (items.map CqItem.sfd : List Int)

namespace Process

/-- The descriptors handed to the workers so far. -/
def handed (p : Process) : Multiset Int := ∑ t ∈ Finset.range p.numThreads, sfds (p.workers t).pushed

theorem handed_same {p q : Process} (threads : q.numThreads = p.numThreads)
    (pushed : ∀ t, (q.workers t).pushed = (p.workers t).pushed) : q.handed = p.handed := by
  simp only [handed,threads,pushed]

theorem handed_cqPush (p : Process) (tid : Nat) (item : CqItem) (main : MainPc) (worker : tid < p.numThreads) :
    ({p.setWorker tid ((p.workers tid).cqPush item) with main := main}).handed = p.handed + {item.sfd} := by
  have inside := Finset.mem_range.mpr worker
  have others : ∀ t ∈ (Finset.range p.numThreads).erase tid,
      sfds ((p.setWorker tid ((p.workers tid).cqPush item)).workers t).pushed = sfds (p.workers t).pushed := by
    intro t member
    rw [p.setWorker_other _ (Finset.ne_of_mem_erase member)]
  have mine : sfds ((p.setWorker tid ((p.workers tid).cqPush item)).workers tid).pushed =
      sfds (p.workers tid).pushed + {item.sfd} := by
    rw [p.setWorker_self]
    simp [sfds,Worker.cqPush,← Multiset.coe_add]
  calc ({p.setWorker tid ((p.workers tid).cqPush item) with main := main}).handed
      = sfds ((p.setWorker tid ((p.workers tid).cqPush item)).workers tid).pushed +
          ∑ t ∈ (Finset.range p.numThreads).erase tid,
            sfds ((p.setWorker tid ((p.workers tid).cqPush item)).workers t).pushed :=
        (Finset.add_sum_erase _ _ inside).symm
    _ = sfds (p.workers tid).pushed + {item.sfd} +
          ∑ t ∈ (Finset.range p.numThreads).erase tid, sfds (p.workers t).pushed := by
        rw [mine,Finset.sum_congr rfl others]
    _ = sfds (p.workers tid).pushed + ∑ t ∈ (Finset.range p.numThreads).erase tid, sfds (p.workers t).pushed +
          {item.sfd} := add_right_comm ..
    _ = p.handed + {item.sfd} := by
        rw [Finset.add_sum_erase _ (fun t => sfds (p.workers t).pushed) inside,handed]

end Process

/-- Every descriptor the main thread was given is in one place. -/
structure Accounted (s : Server) : Prop where
  threads : 0 < s.process.numThreads
  last : -1 ≤ s.process.lastThread
  worker : ∀ tid item, s.process.main = .push tid item → tid < s.process.numThreads
  beyond : ∀ t, s.process.numThreads ≤ t → (s.process.workers t).pushed = []
  whole : (s.received : Multiset Int) =
    s.rejected + s.process.closed + s.process.main.sfds + s.process.handed
  counted : s.rejectedConns = s.rejected.length

namespace Accounted
variable {settings : Settings} {s u : Server}

theorem start (begun : s.Started) : Accounted s := by
  obtain ⟨⟨threads,last,_,workers,main,_,closed,_⟩,_,_,received,rejected,counted,_⟩ := begun
  refine ⟨threads,last,by simp [main],by simp [workers,newWorker],?_,by simp [counted,rejected]⟩
  simp [received,rejected,closed,main,MainPc.sfds,Process.handed,workers,newWorker,sfds]

theorem dispatch (before : Accounted s) (q : Request) (allocated : Bool) (idle : s.process.main = .idle) :
    Accounted {s with
      received := s.received ++ [q.sfd], process := s.process.dispatchConnNew q allocated} := by
  have whole := before.whole
  have threads := before.threads
  have last := before.last
  simp only [idle,MainPc.sfds,Multiset.coe_nil,add_zero] at whole
  cases allocated with
  | false =>
    refine { before with whole := ?_ }
    simp only [Process.dispatchConnNew,Bool.false_eq_true,if_false,← Multiset.coe_add,whole,idle,MainPc.sfds,
      Multiset.coe_nil,add_zero,Process.handed]
    ac_rfl
  | true =>
    have least : 0 ≤ s.process.chosen := Int.tmod_nonneg _ (by omega)
    have most : s.process.chosen < s.process.numThreads := Int.tmod_lt_of_pos _ (by omega)
    refine { before with
      last := ?_
      worker := ?_
      whole := ?_ }
    · simp only [Process.dispatchConnNew,if_true]
      omega
    · rintro tid item here
      cases here
      simp only [Process.dispatchConnNew,if_true]
      omega
    · simp only [Process.dispatchConnNew,if_true,← Multiset.coe_add,whole,MainPc.sfds,Process.handed]
      ac_rfl

/-- A step of the hand-off that pushes nothing. -/
theorem quiet (before : Accounted s) (p : Process) (conns : Nat → Connection)
    (threads : p.numThreads = s.process.numThreads) (last : p.lastThread = s.process.lastThread)
    (closed : p.closed = s.process.closed) (main : p.main.sfds = s.process.main.sfds)
    (worker : ∀ tid item, p.main = .push tid item → s.process.main = .push tid item)
    (pushed : ∀ t, (p.workers t).pushed = (s.process.workers t).pushed) :
    Accounted {s with process := p, conns := conns} where
  threads := threads ▸ before.threads
  last := last ▸ before.last
  worker tid item here := threads ▸ before.worker tid item (worker tid item here)
  beyond t above := by
    rw [pushed]
    exact before.beyond t (threads ▸ above)
  whole := by
    simp only [closed,main,Process.handed_same threads pushed]
    exact before.whole
  counted := before.counted

theorem process (before : Accounted s) (l : Label) (p : Process) (conns : Nat → Connection) (free : s.free l = true)
    (move : ProcessMove s.process l p) : Accounted {s with process := p, conns := conns} := by
  cases move with
  | dispatch q allocated idle => cases free
  | push tid item here =>
    have worker := before.worker tid item here
    refine { before with
      worker := by simp
      beyond := ?_
      whole := ?_ }
    · intro t above
      have other : t ≠ tid := by
        rintro rfl
        exact absurd worker (not_lt.mpr above)
      dsimp only
      rw [s.process.setWorker_other _ other]
      exact before.beyond t above
    · have whole := before.whole
      simp only [here,MainPc.sfds,Multiset.coe_singleton] at whole
      dsimp only [MainPc.sfds]
      rw [s.process.handed_cqPush tid item (.notify tid) worker,whole,Multiset.coe_nil]
      simp only [Process.setWorker]
      ac_rfl
  | notify tid written here =>
    refine before.quiet _ conns rfl rfl rfl (by simp [Process.notify,here,MainPc.sfds])
      (by simp [Process.notify]) fun t => s.process.setWorker_pushed ?_ t
    split <;> rfl
  | tell tid b other | read tid b rest waiting pipe =>
    refine before.quiet _ conns rfl rfl rfl rfl (fun _ _ same => same) fun t => s.process.setWorker_pushed ?_ t
    rfl
  | advance tid made =>
    exact before.quiet _ conns rfl rfl rfl rfl (fun _ _ same => same)
      (s.process.setWorker_pushed ((s.process.workers tid).advance_frame made).2)

theorem step (before : Accounted s) (l : ServerLabel) (ok : serverStep settings s l = some u) : Accounted u := by
  cases (serverStep_move ok).2 with
  | reject sfd currConns allocated crowded =>
    refine { before with
      whole := ?_
      counted := by simp [before.counted] }
    simp only [← Multiset.coe_add,before.whole]
    ac_rfl
  | dispatch l q allocated origin idle => exact before.dispatch q allocated idle
  | process l p free move => exact before.process l p _ free move
  | event tid d fd which left =>
    unfold Server.eventHandler
    dsimp only
    split <;> exact { before with }
  | iterate tid o a u driving move => cases move <;> exact { before with }

end Accounted

/-- No descriptor is lost or given away twice between `accept` and its worker: each one
was refused and counted, closed because no item could be allocated, is in the main
thread's hand, or is with exactly one of the workers, where it waits in the queue, is being
set up, or has become a connection or been closed. -/
theorem descriptors_conserved (settings : Settings) (s : Server)
    (reached : Reachable Server.Started (serverStep settings) s) :
    (s.received : Multiset Int) = s.rejected + s.process.closed + s.process.main.sfds +
      ∑ t ∈ Finset.range s.process.numThreads, (sfds (s.process.workers t).newConnQueue +
        sfds (s.process.workers t).pc.unsettled + sfds ((s.process.workers t).outcomes.map Prod.fst)) ∧
      s.rejectedConns = s.rejected.length ∧
      ∀ t, s.process.numThreads ≤ t → (s.process.workers t).pushed = [] := by
  have accounted : Accounted s :=
    reached.invariant Accounted (fun _ begun => .start begun) (fun _ l _ before ok => before.step l ok)
  have dispatched : Dispatched s.process :=
    reached.invariant (fun s => Dispatched s.process) (fun _ begun => .start begun.1) fun _ _ _ => dispatched_step
  refine ⟨?_,accounted.counted,accounted.beyond⟩
  rw [accounted.whole]
  congr 1
  refine Finset.sum_congr rfl fun t _ => ?_
  have handoff := dispatched.handoff t
  rw [handoff.queue,handoff.settled]
  simp only [sfds,List.map_append,← Multiset.coe_add]
  ac_rfl

/-- One descriptor is refused, for one no item can be allocated, one waits for its worker
and one has become a connection. -/
def fourDescriptors : List ServerLabel :=
  [ServerLabel.accept 11 3 true,.process .push,.process (.notify true),.process (.read 0),
    .process (.advance 0 true),.process (.advance 0 true),.accept 12 1018 true,.accept 13 4 false,
    .accept 14 4 true,.process .push]

def fourServer : Server := final (serverStep oneCommand) (serving 1) fourDescriptors

theorem descriptors_conserved_four :
    fourServer.rejectedConns = 1 ∧ (fourServer.received : Multiset Int) =
      fourServer.rejected + fourServer.process.closed + fourServer.process.main.sfds +
      ∑ t ∈ Finset.range fourServer.process.numThreads, (sfds (fourServer.process.workers t).newConnQueue +
        sfds (fourServer.process.workers t).pc.unsettled +
        sfds ((fourServer.process.workers t).outcomes.map Prod.fst)) := by
  have reached : Reachable Server.Started (serverStep oneCommand) fourServer :=
    (Reachable.start (serving_Started 1 Nat.one_pos)).run (final_run _ _ _ (by decide +kernel))
  exact ⟨by decide +kernel,(descriptors_conserved oneCommand _ reached).1⟩

end Reactor.Memcached
