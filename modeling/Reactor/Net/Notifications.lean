import Reactor.Transition
import Reactor.Net.TcpConnection

/-! The two notifications of the sending side. Both may come from the direct write of
`sendInLoop` and from what is buffered, each under conditions of its own. -/
namespace Reactor.Net
open Reactor.Transition

inductive OutputLabel
  | sendInLoop (thread : Nat) (data : List UInt8) (w : Write)
  | handleWrite (w : Write)
  deriving DecidableEq

/-- A connection with the functors that `queueInLoop` was given, in order. -/
structure OutputSide where
  conn : TcpConnection
  queued : List ConnFunctor

def OutputSide.settle (s : OutputSide) (r : TcpConnection × Option ConnFunctor) : OutputSide :=
  ⟨r.1,s.queued ++ r.2.toList⟩

/-- A write takes at most what it is given. -/
def outputStep (s : OutputSide) : OutputLabel → Option OutputSide
  | .sendInLoop t data w => if w.fits data.length then some (s.settle (s.conn.sendInLoop t data w)) else none
  | .handleWrite w => if w.fits s.conn.outputBuffer.length then some (s.settle (s.conn.handleWrite w)) else none

/-- The bytes that are still to be written when the step is made. -/
def OutputLabel.outstanding (c : TcpConnection) : OutputLabel → List UInt8
  | .sendInLoop _ data _ => c.outputBuffer ++ data
  | .handleWrite _ => c.outputBuffer

/-- Between `c` and `u` all the outstanding bytes were given to a write, which took them. -/
def Finished (c u : TcpConnection) (outstanding : List UInt8) : Prop :=
  ∃ rest, u.ops = c.ops ++ SocketOp.write outstanding (.wrote outstanding.length)::rest

/-- The buffer has gone from below the mark to the mark or above. -/
def Crossed (c u : TcpConnection) : Prop :=
  c.outputBuffer.length < c.highWaterMark ∧ c.highWaterMark ≤ u.outputBuffer.length

/-- What is queued between `c` and `u`, and nothing else is. -/
structure Notified (c u : TcpConnection) (outstanding : List UInt8) (f : Option ConnFunctor) : Prop where
  complete : f = some .writeComplete ↔ u.outputBuffer = [] ∧ Finished c u outstanding
  high : ∀ len, f = some (.highWaterMark len) ↔ Crossed c u ∧ len = u.outputBuffer.length
  only : f = none ∨ f = some .writeComplete ∨ ∃ len, f = some (.highWaterMark len)

/-- Both callbacks are set, and the write event is on only while there is something to write. -/
structure Notifying (mark : Nat) (c : TcpConnection) : Prop where
  positive : 0 < c.highWaterMark
  mark : c.highWaterMark = mark
  high : c.highWaterMarkCallback = true
  complete : c.writeCompleteCallback = true
  writing : c.channel.isWriting = true → c.outputBuffer ≠ []

section
variable {c u : TcpConnection} {mark : Nat} {data outstanding : List UInt8} {w : Write} {t : Nat}

theorem not_finished (same : u.ops = c.ops) : ¬ Finished c u outstanding := by
  rintro ⟨rest,more⟩
  have lengths := congrArg List.length (same.symm.trans more)
  simp at lengths

/-- A step that queues nothing has neither finished a write nor crossed the mark. -/
theorem Notified.nothing (silent : u.outputBuffer = [] → ¬ Finished c u outstanding) (below : ¬ Crossed c u) :
    Notified c u outstanding none where
  complete := ⟨nofun,fun both => absurd both.2 (silent both.1)⟩
  high _ := ⟨nofun,fun both => absurd both.1 below⟩
  only := .inl rfl

theorem Notified.complete_of (empty : u.outputBuffer = []) (finished : Finished c u outstanding)
    (positive : 0 < c.highWaterMark) : Notified c u outstanding (some .writeComplete) where
  complete := ⟨fun _ => ⟨empty,finished⟩,fun _ => rfl⟩
  high len := by
    refine ⟨nofun,fun both => ?_⟩
    have reached := both.1.2
    rw [empty] at reached
    exact absurd reached (Nat.not_le_of_lt positive)
  only := .inr (.inl rfl)

theorem not_crossed (shorter : u.outputBuffer.length ≤ c.outputBuffer.length) : ¬ Crossed c u := by
  rintro ⟨low,high⟩
  omega

/-- What is left of a message goes to the buffer. -/
theorem notified_buffer {b : TcpConnection} {nwrote : Nat} (notifying : Notifying mark c)
    (same : b.outputBuffer = c.outputBuffer ∧ b.highWaterMark = c.highWaterMark ∧
      b.highWaterMarkCallback = c.highWaterMarkCallback) (left : nwrote < data.length) :
    Notified c (b.buffer data nwrote).1 outstanding (b.buffer data nwrote).2 := by
  obtain ⟨buffer,highWaterMark,callback⟩ := same
  have length : (b.buffer data nwrote).1.outputBuffer.length = c.outputBuffer.length + (data.length-nwrote) := by
    simp [TcpConnection.buffer,buffer]
  have some : (b.buffer data nwrote).1.outputBuffer ≠ [] := by
    apply List.ne_nil_of_length_pos
    omega
  refine ⟨⟨fun queued => ?_,fun both => absurd both.1 some⟩,fun len => ?_,?_⟩
  · simp only [TcpConnection.buffer] at queued
    split at queued <;> cases queued
  · rw [length,Crossed,length]
    simp only [TcpConnection.buffer,buffer,highWaterMark,callback,notifying.high]
    split
    · rename_i crossed
      simp only [Option.some.injEq,ConnFunctor.highWaterMark.injEq]
      exact ⟨fun same => ⟨⟨crossed.2.1,crossed.1⟩,same.symm⟩,fun both => both.2.symm⟩
    · rename_i kept
      exact ⟨by simp,fun both => absurd ⟨both.1.2,both.1.1,trivial⟩ kept⟩
  · simp only [TcpConnection.buffer]
    split
    · exact .inr (.inr ⟨_,rfl⟩)
    · exact .inl rfl

theorem notified_sendInLoop (notifying : Notifying mark c) :
    Notified c (c.sendInLoop t data w).1 (c.outputBuffer ++ data) (c.sendInLoop t data w).2 := by
  unfold TcpConnection.sendInLoop
  split
  · exact .nothing (fun _ => not_finished rfl) (not_crossed (Nat.le_refl _))
  · split
    · rename_i direct
      have empty : c.outputBuffer = [] := by
        have both : c.channel.isWriting = false ∧ c.outputBuffer = [] := by simpa [TcpConnection.direct] using direct
        exact both.2
      simp only
      split
      · rename_i remains
        have left : w.faultError = false ∧ w.nwrote < data.length := by simpa using remains
        exact notified_buffer notifying ⟨rfl,rfl,rfl⟩ left.2
      · have all : c.outputBuffer ++ data = data := by rw [empty,List.nil_append]
        rw [all]
        split
        · rename_i whole
          refine .complete_of empty ⟨[],?_⟩ notifying.positive
          rw [whole.2]
        · rename_i part
          refine .nothing (fun _ => ?_) (not_crossed (Nat.le_refl _))
          rintro ⟨rest,more⟩
          have last := (List.cons.inj (List.append_cancel_left more)).1
          simp only [SocketOp.write.injEq,true_and] at last
          exact part ⟨notifying.complete,last⟩
    · simp only
      split
      · rename_i some
        exact notified_buffer notifying ⟨rfl,rfl,rfl⟩ some
      · exact .nothing (fun _ => not_finished rfl) (not_crossed (Nat.le_refl _))

theorem notified_handleWrite (notifying : Notifying mark c) (fits : w.fits c.outputBuffer.length = true) :
    Notified c (c.handleWrite w).1 c.outputBuffer (c.handleWrite w).2 := by
  unfold TcpConnection.handleWrite
  split
  · rename_i on
    have some := notifying.writing on
    simp only
    split
    · rename_i drained
      obtain ⟨positive,rest⟩ := drained
      have empty : c.outputBuffer.drop w.nwrote = [] := List.length_eq_zero_iff.mp rest
      have whole : w = .wrote c.outputBuffer.length := by
        cases w with
        | failed errno => cases positive
        | wrote n =>
          have most : n ≤ c.outputBuffer.length := of_decide_eq_true fits
          have least : c.outputBuffer.length ≤ n := List.drop_eq_nil_iff.mp empty
          rw [Nat.le_antisymm most least]
      rw [notifying.complete,if_pos rfl]
      split
      · refine .complete_of ?_ ⟨[.shutdownWrite (c.outputBuffer.drop w.nwrote)],?_⟩ notifying.positive
        · simpa [TcpConnection.shutdownInLoop,Channel.disableWriting] using empty
        · rw [whole]
          simp [TcpConnection.shutdownInLoop,Channel.disableWriting]
      · exact .complete_of empty ⟨[],by rw [whole]⟩ notifying.positive
    · rename_i kept
      refine .nothing (fun empty => absurd empty (handleWrite_kept some kept)) (not_crossed ?_)
      simp
  · exact .nothing (fun _ => not_finished rfl) (not_crossed (Nat.le_refl _))

theorem buffer_notifying {b : TcpConnection} {nwrote : Nat} (notifying : Notifying mark b) (left : nwrote < data.length) :
    Notifying mark (b.buffer data nwrote).1 := by
  refine ⟨notifying.positive,notifying.mark,notifying.high,notifying.complete,fun _ => ?_⟩
  apply List.ne_nil_of_length_pos
  simp only [TcpConnection.buffer,List.length_append,List.length_drop]
  omega

theorem sendInLoop_notifying (notifying : Notifying mark c) : Notifying mark (c.sendInLoop t data w).1 := by
  unfold TcpConnection.sendInLoop
  split
  · exact {notifying with}
  · split
    · simp only
      split
      · rename_i remains
        have left : w.faultError = false ∧ w.nwrote < data.length := by simpa using remains
        exact buffer_notifying {notifying with} left.2
      · exact {notifying with}
    · simp only
      split
      · rename_i some
        exact buffer_notifying {notifying with} some
      · exact {notifying with}

theorem handleWrite_notifying (notifying : Notifying mark c) : Notifying mark (c.handleWrite w).1 := by
  unfold TcpConnection.handleWrite
  split
  · rename_i on
    simp only
    split
    · unfold TcpConnection.shutdownInLoop
      split
      · simp only [Channel.disableWriting,Bool.false_eq_true,if_false]
        exact {notifying with writing := by simp}
      · exact {notifying with writing := by simp [Channel.disableWriting]}
    · rename_i kept
      refine {notifying with writing := fun _ empty => ?_}
      exact handleWrite_kept (notifying.writing on) kept empty
  · exact notifying

end

section
variable {s u : OutputSide} {l : OutputLabel} {mark : Nat}

/-- One step: the functor it queues, and the state it leaves. -/
theorem outputStep_notified (notifying : Notifying mark s.conn) (ok : outputStep s l = some u) :
    Notifying mark u.conn ∧ ∃ f, u.queued = s.queued ++ Option.toList f ∧
      Notified s.conn u.conn (l.outstanding s.conn) f := by
  cases l with
  | sendInLoop t data w =>
    obtain ⟨_,⟨⟩⟩ := Option.ite_none_right_eq_some.mp ok
    exact ⟨sendInLoop_notifying notifying,_,rfl,notified_sendInLoop notifying⟩
  | handleWrite w =>
    obtain ⟨fits,⟨⟩⟩ := Option.ite_none_right_eq_some.mp ok
    exact ⟨handleWrite_notifying notifying,_,rfl,notified_handleWrite notifying fits⟩

theorem run_notifying {ls : List OutputLabel} (run : Run outputStep s ls u) (notifying : Notifying mark s.conn) :
    Notifying mark u.conn := by
  induction run with
  | nil => exact notifying
  | cons s l t ls u head tail ih => exact ih (outputStep_notified notifying head).1

/-- The functors that a step adds to the queue. -/
theorem queued_iff {f : Option ConnFunctor} {g : ConnFunctor} (queued : u.queued = s.queued ++ f.toList) :
    u.queued = s.queued ++ [g] ↔ f = some g := by
  rw [queued,List.append_cancel_left_eq]
  cases f <;> simp

/-- The notifications are exact, step by step and over a run. -/
theorem notifications_exact (mark : Nat) (start s : OutputSide) (ls : List OutputLabel)
    (notifying : Notifying mark start.conn) (run : Run outputStep start ls s) :
    (∀ l u, outputStep s l = some u →
      (u.queued = s.queued ++ [ConnFunctor.writeComplete] ↔
        u.conn.outputBuffer = [] ∧ Finished s.conn u.conn (l.outstanding s.conn)) ∧
      (∀ len, u.queued = s.queued ++ [ConnFunctor.highWaterMark len] ↔ (s.conn.outputBuffer.length < mark ∧
        mark ≤ u.conn.outputBuffer.length) ∧ len = u.conn.outputBuffer.length) ∧
      (u.queued = s.queued ∨ u.queued = s.queued ++ [ConnFunctor.writeComplete] ∨
        ∃ len, u.queued = s.queued ++ [ConnFunctor.highWaterMark len])) ∧
    (∀ l u mid v l' w len len', outputStep s l = some u → u.queued = s.queued ++ [ConnFunctor.highWaterMark len] →
      Run outputStep u mid v → outputStep v l' = some w → w.queued = v.queued ++ [ConnFunctor.highWaterMark len'] →
      mark ≤ u.conn.outputBuffer.length ∧ v.conn.outputBuffer.length < mark) ∧
    (start.conn.outputBuffer.length < mark → mark ≤ s.conn.outputBuffer.length →
      ∃ before l after v w, ls = before ++ l::after ∧ Run outputStep start before v ∧ outputStep v l = some w ∧
        Run outputStep w after s ∧ w.queued = v.queued ++ [ConnFunctor.highWaterMark w.conn.outputBuffer.length]) := by
  have crossed {v w : OutputSide} {l : OutputLabel} {len : Nat} (here : Notifying mark v.conn)
      (ok : outputStep v l = some w) : w.queued = v.queued ++ [ConnFunctor.highWaterMark len] ↔
        (v.conn.outputBuffer.length < mark ∧ mark ≤ w.conn.outputBuffer.length) ∧
          len = w.conn.outputBuffer.length := by
    obtain ⟨_,f,queued,notified⟩ := outputStep_notified here ok
    rw [queued_iff queued,notified.high len,Crossed,here.mark]
  have now := run_notifying run notifying
  refine ⟨fun l u ok => ⟨?_,fun len => crossed now ok,?_⟩,?_,fun low high => ?_⟩
  · obtain ⟨_,f,queued,notified⟩ := outputStep_notified now ok
    rw [queued_iff queued]
    exact notified.complete
  · obtain ⟨_,f,queued,notified⟩ := outputStep_notified now ok
    rcases notified.only with rfl | rfl | ⟨len,rfl⟩
    · exact .inl (by simpa using queued)
    · exact .inr (.inl queued)
    · exact .inr (.inr ⟨len,queued⟩)
  · intro l u mid v l' w len len' first told between second again
    have after := (outputStep_notified now first).1
    exact ⟨((crossed now first).mp told).1.2,((crossed (run_notifying between after) second).mp again).1.1⟩
  · obtain ⟨before,l,after,v,w,split,reach,ok,rest,below,above⟩ :=
      run.crosses (fun s => mark ≤ s.conn.outputBuffer.length) (by simpa using low) high
    refine ⟨before,l,after,v,w,split,reach,ok,rest,?_⟩
    exact (crossed (run_notifying reach notifying) ok).mpr ⟨⟨by simpa using below,above⟩,rfl⟩

/-- An established connection with a mark of four bytes. -/
private def fourMark : OutputSide :=
  ⟨⟨.kConnected,true,⟨true,false⟩,[],4,true,true,[],[],false⟩,[]⟩

/-- Three bytes find the socket full, two more cross the mark, and one write takes all of them. -/
private def fillAndDrain : List OutputLabel :=
  [.sendInLoop 0 [1,2,3] (.failed .ewouldblock),.sendInLoop 0 [4,5] (.wrote 0)]

theorem notifications_exact_fillAndDrain :
    (final outputStep fourMark fillAndDrain).queued = [.highWaterMark 5] ∧
      (final outputStep fourMark (fillAndDrain ++ [OutputLabel.handleWrite (.wrote 5)])).queued = [.highWaterMark 5,.writeComplete] ∧
      ∃ before l after v w, fillAndDrain = before ++ l::after ∧ Run outputStep fourMark before v ∧
        outputStep v l = some w ∧ Run outputStep w after (final outputStep fourMark fillAndDrain) ∧
        w.queued = v.queued ++ [ConnFunctor.highWaterMark w.conn.outputBuffer.length] := by
  have notifying : Notifying 4 fourMark.conn := ⟨by decide,rfl,rfl,rfl,nofun⟩
  have all := notifications_exact 4 fourMark (final outputStep fourMark fillAndDrain) fillAndDrain notifying
    (final_run _ _ _ (by decide +kernel))
  exact ⟨by decide +kernel,by decide +kernel,all.2.2 (by decide +kernel) (by decide +kernel)⟩

end

end Reactor.Net
