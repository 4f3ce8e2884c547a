import Reactor.Epoll.Locks

/-! The nesting of eventpolls stays free of cycles: a loop check and the insertion it is
made for are one with respect to every other insertion between eventpolls. -/
namespace Reactor.Epoll
open Reactor.Transition Reactor.Reach

def nesting (k : Kernel) (g : Graph) : Graph := g.filter fun edge => k.isFileEpoll edge.2

def CtlPc.checked : CtlPc → Bool
  | .relock | .lockTarget | .lookup => true
  | _ => false

private theorem ctlSwitch_graph (k : Kernel) (op : Int) (env : InsertEnv) (s : Interest) (full : Bool)
    (item : Item) (change : op ≠ epollCtlAdd) :
    ∀ edge ∈ graph (s.ctlSwitch k op env full item).2.items, edge ∈ graph s.items := by
  unfold Interest.ctlSwitch
  rw [if_neg change]
  split
  · unfold Interest.ctlDel
    split
    · intro edge member
      obtain ⟨old,inside,rfl⟩ := List.mem_map.mp member
      exact List.mem_map_of_mem (List.mem_of_mem_erase inside)
    · exact fun _ member => member
  · split
    · unfold Interest.ctlMod
      split
      · split
        · exact fun _ member => member
        · intro edge member
          obtain ⟨new,inside,rfl⟩ := List.mem_map.mp member
          obtain ⟨old,there,rfl⟩ := List.mem_map.mp inside
          split
          next same =>
            rw [show item.withErrors.key = old.key from same.symm]
            exact List.mem_map_of_mem there
          next => exact List.mem_map_of_mem there
      · exact fun _ member => member
    · exact fun _ member => member

theorem graph_move (k : Kernel) (s u : Nesting) (l : NestLabel) (move : NestMove k s l u) :
    (∀ edge ∈ graph u.interest.items, edge ∈ graph s.interest.items) ∨
    (s.callers l.thread).pc = .lookup ∧ (s.callers l.thread).op = epollCtlAdd ∧
      u.interest.items = (s.callers l.thread).item.withErrors :: s.interest.items := by
  cases move with
  | refused | entered | locked | deferred | decided | serialized | listed | relocked | targeted
  | unlockedTarget | unlocked | released => exact .inl fun _ member => member
  | looped => exact .inl fun _ member => member
  | stopped | accepted =>
    refine .inl fun edge member => ?_
    rwa [clearTfileCheckList_items] at member
  | inserted t here op => exact .inr ⟨here,op,rfl⟩
  | switched t error interest here op result =>
    have inside := ctlSwitch_graph k (s.callers t).op (s.callers t).env s.interest (s.callers t).full
      (s.callers t).item op
    rw [result] at inside
    exact .inl inside
  | rejected t here full =>
    refine .inl fun edge member => ?_
    obtain ⟨old,inside,rfl⟩ := List.mem_map.mp member
    exact List.mem_map_of_mem (List.mem_of_mem_erase inside)

/-- What keeps the nesting graph free of cycles: while a thread is between its loop
check and its insertion, no path leads from its target back to its eventpoll. -/
structure Ordered (k : Kernel) (s : Nesting) : Prop where
  locks : Locks k s
  acyclic : Acyclic (nesting k (graph s.interest.items))
  clear : ∀ t, (s.callers t).pc.checked = true → (s.callers t).nested k = true →
    ¬Reaches (nesting k (graph s.interest.items)) (s.callers t).item.key.file (s.callers t).item.key.ep

theorem checked_serial {k : Kernel} {w : Caller} (checked : w.pc.checked = true)
    (nested : w.nested k = true) : w.serial = true := by
  have full := (Bool.and_eq_true_iff.mp nested).1
  cases here : w.pc <;> simp_all [CtlPc.checked,Caller.serial]

section
variable (k : Kernel)
  (loops : ∀ g ep target, Reaches (nesting k g) target ep → k.epLoopCheck g ep target = none)
include loops

private theorem clear_own (s u : Nesting) (l : NestLabel) (move : NestMove k s l u) (ordered : Ordered k s)
    (checked : (u.callers l.thread).pc.checked = true) (nested : (u.callers l.thread).nested k = true) :
    ¬Reaches (nesting k (graph u.interest.items)) (u.callers l.thread).item.key.file
      (u.callers l.thread).item.key.ep := by
  have leaves (t : Nat) (error : Int) : ((s.callers t).leave k error).pc.checked = false := by
    unfold Caller.leave
    split <;> rfl
  cases move with
  | refused t c error here args => simp [NestLabel.thread,here,CtlPc.checked] at checked
  | entered | locked | deferred | serialized | looped | inserted | unlockedTarget | released =>
    simp [NestLabel.thread,CtlPc.checked] at checked
  | decided t here plain =>
    have fresh := (ordered.locks.sound t).fresh (.inr here)
    simp [NestLabel.thread,Caller.nested,fresh] at nested
  | listed t files here list =>
    simp only [NestLabel.thread,setCaller_self] at nested ⊢
    have epoll : k.isFileEpoll (s.callers t).item.key.file = true := (Bool.and_eq_true_iff.mp nested).2
    intro path
    have loop := loops (graph s.interest.items) (s.callers t).item.key.ep (s.callers t).item.key.file path
    simp [checkList,epoll,loop] at list
  | relocked t here free =>
    simp only [NestLabel.thread,setCaller_self] at nested ⊢
    exact ordered.clear t (by rw [here]; rfl) nested
  | targeted t here free =>
    simp only [NestLabel.thread,setCaller_self] at nested ⊢
    exact ordered.clear t (by rw [here]; rfl) nested
  | stopped t error here op | switched t error interest here op result | rejected t here full
  | accepted t here fine => simp [NestLabel.thread,leaves] at checked
  | unlocked t here =>
    simp only [NestLabel.thread,setCaller_self] at checked
    split at checked <;> simp [CtlPc.checked] at checked

theorem ordered_move (s u : Nesting) (l : NestLabel) (ordered : Ordered k s) (move : NestMove k s l u) :
    Ordered k u := by
  have locks := locks_move k s u l ordered.locks move
  have own := clear_own k loops s u l move ordered
  have shrinks (inside : ∀ edge ∈ nesting k (graph u.interest.items), edge ∈ nesting k (graph s.interest.items)) :
      Ordered k u := by
    refine ⟨locks,ordered.acyclic.mono inside,?_⟩
    intro t checked nested
    by_cases same : t = l.thread
    · subst same
      exact own checked nested
    · rw [caller_kept k s u l move t same] at checked nested ⊢
      exact fun path => ordered.clear t checked nested (reaches_mono inside path)
  rcases graph_move k s u l move with fewer | ⟨here,op,items⟩
  · refine shrinks fun edge member => ?_
    obtain ⟨there,epoll⟩ := List.mem_filter.mp member
    exact List.mem_filter.mpr ⟨fewer edge there,epoll⟩
  · have sound := ordered.locks.sound l.thread
    by_cases epoll : k.isFileEpoll (s.callers l.thread).item.key.file = true
    · -- the insertion of a nested eventpoll runs under `epmutex`, so nobody else is past its check
      have full := sound.nested (.inl here) op epoll
      have serial : (s.callers l.thread).serial = true := by rw [Caller.serial,here,full]
      have new : nesting k (graph u.interest.items) = ((s.callers l.thread).item.key.ep,
          (s.callers l.thread).item.key.file) :: nesting k (graph s.interest.items) := by
        rw [items]
        exact List.filter_cons_of_pos epoll
      have apart := ordered.clear l.thread (by rw [here]; rfl) (by rw [Caller.nested,full,epoll]; rfl)
      refine ⟨locks,new ▸ ordered.acyclic.cons apart,?_⟩
      intro t checked nested
      by_cases same : t = l.thread
      · subst same
        exact own checked nested
      · rw [caller_kept k s u l move t same] at checked nested
        exact absurd (ordered.locks.serial_unique (checked_serial checked nested) serial) same
    · have old : nesting k (graph u.interest.items) = nesting k (graph s.interest.items) := by
        rw [items]
        exact List.filter_cons_of_neg epoll
      exact shrinks fun edge member => old ▸ member

/-- However the calls interleave, no eventpoll comes to watch itself, directly or
through others. -/
theorem nesting_acyclic (s : Nesting)
    (reached : Reachable (fun s => Quiet s ∧ Acyclic (nesting k (graph s.interest.items))) (nestStep k) s) :
    Acyclic (nesting k (graph s.interest.items)) := by
  have ordered : Ordered k s := by
    refine Reachable.invariant (Ordered k) ?_ ?_ reached
    · rintro s ⟨quiet,acyclic⟩
      refine ⟨locks_quiet k s quiet,acyclic,?_⟩
      intro t checked
      simp [quiet.outside t,CtlPc.checked] at checked
    · intro s l u ordered ok
      exact ordered_move k loops s u l ordered (nestStep_move k s u l ok)
  exact ordered.acyclic

end

def idle : Nesting :=
  ⟨noInterest,none,fun _ => none,fun _ => ⟨.outside,0,⟨false,false,0,false⟩,⟨⟨0,0,0⟩,0,0⟩,false,0⟩⟩

theorem idle_quiet : Quiet idle := ⟨fun _ => rfl,rfl,fun _ => rfl,rfl⟩

theorem idle_acyclic (k : Kernel) : Acyclic (nesting k (graph idle.interest.items)) := by
  intro a cycle
  obtain ⟨b,edge,_⟩ := Relation.TransGen.head'_iff.mp cycle
  cases edge

theorem linux_loops (g : Graph) (ep target : Nat) (path : Reaches (nesting linux g) target ep) :
    linux.epLoopCheck g ep target = none := by
  have below : ep ∈ below g target :=
    (mem_below g target ep).mpr (reaches_mono (fun _ member => (List.mem_filter.mp member).1) path)
  exact if_pos below

def add (t ep file : Nat) : NestLabel :=
  .call t ⟨epollCtlAdd,some ep,some file,file,some (pollIn,0),plenty,[],[]⟩

/-- Eventpoll 0 takes in eventpoll 1 while another thread tries the converse. -/
def crossing : List NestLabel :=
  [add 0 0 1,add 1 1 0] ++ List.replicate 3 (.step 0) ++ List.replicate 2 (.step 1) ++
    List.replicate 8 (.step 0) ++ List.replicate 3 (.step 1)

theorem nesting_acyclic_crossing :
    (final (nestStep linux) idle crossing).interest.items.length = 1 ∧
    ((final (nestStep linux) idle crossing).callers 1).error = -eloop ∧
    Acyclic (nesting linux (graph (final (nestStep linux) idle crossing).interest.items)) :=
  ⟨by decide,by decide,nesting_acyclic linux linux_loops _
    ⟨idle,crossing,⟨idle_quiet,idle_acyclic linux⟩,final_run (nestStep linux) idle crossing (by decide)⟩⟩

end Reactor.Epoll
