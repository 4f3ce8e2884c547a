import Reactor.Epoll.Nesting

/-! The locking of `epoll_ctl`: which mutexes a thread holds at which point of its call,
and who is kept out by them. -/
namespace Reactor.Epoll
open Reactor.Transition

/-- The thread holds `ep->mtx`. -/
def CtlPc.locked : CtlPc → Bool
  | .decide | .lockTarget | .lookup | .pathCheck | .unlockTarget | .unlock => true
  | _ => false

def CtlPc.staged : CtlPc → Bool
  | .lockEpmutex | .loopCheck | .relock | .lockTarget | .unlockTarget | .unlockEpmutex => true
  | _ => false

/-- The thread holds `epmutex`. -/
def Caller.serial (w : Caller) : Bool :=
  match w.pc with
  | .loopCheck | .relock | .lockTarget | .unlockEpmutex => true
  | .lookup | .pathCheck | .unlockTarget | .unlock => w.full
  | _ => false

def Caller.targeting (k : Kernel) (w : Caller) : Bool :=
  match w.pc with
  | .lookup | .pathCheck | .unlockTarget => w.nested k
  | _ => false

/-- What the way of a thread so far says about its call. -/
structure Caller.Sound (k : Kernel) (w : Caller) : Prop where
  entered : w.pc ≠ .outside → k.isFileEpoll w.item.key.ep = true ∧ w.item.key.ep ≠ w.item.key.file
  full : w.full = true → w.op = epollCtlAdd
  staged : w.pc.staged = true → w.full = true
  nested : w.pc = .lookup ∨ w.pc = .pathCheck → w.op = epollCtlAdd →
    k.isFileEpoll w.item.key.file = true → w.full = true
  adding : w.pc = .pathCheck → w.op = epollCtlAdd
  fresh : w.pc = .lock ∨ w.pc = .decide → w.full = false
  tep : w.pc = .lockTarget ∨ w.pc = .unlockTarget → w.nested k = true

structure Holds (k : Kernel) (s : Nesting) (t : Nat) : Prop where
  epmutex : (s.callers t).serial = true → s.epmutex = some t
  mtx : (s.callers t).pc.locked = true → s.mtx (s.callers t).item.key.ep = some t
  target : (s.callers t).targeting k = true → s.mtx (s.callers t).item.key.file = some t

private theorem sound_pc {k : Kernel} {w : Caller} (sound : w.Sound k) (inside : w.pc ≠ .outside) (pc : CtlPc)
    (late : pc ≠ .lock ∧ pc ≠ .decide) (staged : pc.staged = true → w.full = true)
    (nested : pc = .lookup ∨ pc = .pathCheck → w.op = epollCtlAdd →
      k.isFileEpoll w.item.key.file = true → w.full = true)
    (adding : pc = .pathCheck → w.op = epollCtlAdd)
    (tep : pc = .lockTarget ∨ pc = .unlockTarget → w.nested k = true) : {w with pc := pc}.Sound k :=
  ⟨fun _ => sound.entered inside,sound.full,staged,nested,adding,
    fun early => absurd early (not_or.mpr late),tep⟩

private theorem sound_leave {k : Kernel} {w : Caller} (sound : w.Sound k) (inside : w.pc ≠ .outside) (error : Int) :
    (w.leave k error).Sound k := by
  unfold Caller.leave
  split
  next nested =>
    have full := (Bool.and_eq_true_iff.mp nested).1
    exact {sound_pc sound inside .unlockTarget (by simp) (fun _ => full) (by simp) (by simp) (fun _ => nested) with}
  next =>
    exact {sound_pc sound inside .unlock (by simp) (by simp [CtlPc.staged]) (by simp) (by simp) (by simp) with}

private theorem sound_own (k : Kernel) (s u : Nesting) (l : NestLabel) (move : NestMove k s l u)
    (sound : (s.callers l.thread).Sound k) : (u.callers l.thread).Sound k := by
  cases move with
  | refused t c error here args =>
    simp only [NestLabel.thread,setCaller_self] at sound ⊢
    exact {sound with}
  | entered t c item here args =>
    obtain ⟨_,apart,epoll,_⟩ := ctlArgs_ok k c item args
    simp only [NestLabel.thread,setCaller_self]
    exact ⟨fun _ => ⟨epoll,apart⟩,by simp,by simp [CtlPc.staged],by simp,by simp,fun _ => rfl,by simp⟩
  | locked t here free =>
    simp only [NestLabel.thread,setCaller_self] at sound ⊢
    exact {sound with
      entered := fun _ => sound.entered (by simp [here])
      staged := by simp [CtlPc.staged]
      nested := by simp
      adding := by simp
      fresh := fun _ => sound.fresh (.inl here)
      tep := by simp}
  | deferred t here full =>
    have op : (s.callers t).op = epollCtlAdd := by simpa using (Bool.and_eq_true_iff.mp full).1
    simp only [NestLabel.thread,setCaller_self] at sound ⊢
    exact ⟨fun _ => sound.entered (by simp [here]),fun _ => op,fun _ => rfl,by simp,by simp,by simp,by simp⟩
  | decided t here plain =>
    simp only [NestLabel.thread,setCaller_self] at sound ⊢
    refine sound_pc sound (by simp [here]) _ (by simp) (by simp [CtlPc.staged]) ?_ (by simp) (by simp)
    intro _ op epoll
    simp [fullCheck,op,epoll] at plain
  | serialized t here free | listed t files here list =>
    simp only [NestLabel.thread,setCaller_self] at sound ⊢
    have full := sound.staged (by rw [here]; rfl)
    exact sound_pc sound (by simp [here]) _ (by simp) (fun _ => full) (by simp) (by simp) (by simp)
  | looped t here loop =>
    simp only [NestLabel.thread,setCaller_self] at sound ⊢
    have full := sound.staged (by rw [here]; rfl)
    exact {sound_pc sound (by simp [here]) .unlockEpmutex (by simp) (fun _ => full) (by simp) (by simp) (by simp) with}
  | relocked t here free =>
    simp only [NestLabel.thread,setCaller_self] at sound ⊢
    have full := sound.staged (by rw [here]; rfl)
    refine sound_pc sound (by simp [here]) _ ?_ (fun _ => full) (fun _ _ _ => full) (fun _ => sound.full full) ?_ <;>
      split <;> simp_all
  | targeted t here free =>
    simp only [NestLabel.thread,setCaller_self] at sound ⊢
    have full := sound.staged (by rw [here]; rfl)
    exact sound_pc sound (by simp [here]) _ (by simp) (fun _ => full) (fun _ _ _ => full) (by simp) (by simp)
  | stopped t error here op | switched t error interest here op result =>
    simp only [NestLabel.thread,setCaller_self] at sound ⊢
    exact sound_leave sound (by simp [here]) error
  | inserted t here op =>
    simp only [NestLabel.thread,setCaller_self] at sound ⊢
    exact sound_pc sound (by simp [here]) _ (by simp) (by simp [CtlPc.staged])
      (fun _ => sound.nested (.inl here)) (fun _ => op) (by simp)
  | rejected t here full | accepted t here fine =>
    simp only [NestLabel.thread,setCaller_self] at sound ⊢
    exact sound_leave sound (by simp [here]) _
  | unlockedTarget t here | released t here =>
    simp only [NestLabel.thread,setCaller_self] at sound ⊢
    exact sound_pc sound (by simp [here]) _ (by simp) (by simp [CtlPc.staged]) (by simp) (by simp) (by simp)
  | unlocked t here =>
    simp only [NestLabel.thread,setCaller_self] at sound ⊢
    refine sound_pc sound (by simp [here]) _ ?_ ?_ ?_ ?_ ?_ <;> split <;> simp_all [CtlPc.staged]

private theorem holds_other (k : Kernel) (s u : Nesting) (t other : Nat) (different : other ≠ t)
    (caller : u.callers other = s.callers other)
    (epmutex : u.epmutex = s.epmutex ∨ s.epmutex = none ∨ s.epmutex = some t)
    (mtx : ∀ file, u.mtx file = s.mtx file ∨ s.mtx file = none ∨ s.mtx file = some t)
    (holds : Holds k s other) : Holds k u other := by
  have stays (file : Nat) (held : s.mtx file = some other) : u.mtx file = some other := by
    rcases mtx file with same | free | own
    · rw [same,held]
    · simp [held] at free
    · rw [held] at own
      exact absurd (Option.some.inj own) different
  refine ⟨?_,?_,?_⟩
  · rw [caller]
    intro serial
    have held := holds.epmutex serial
    rcases epmutex with same | free | own
    · rw [same,held]
    · simp [held] at free
    · rw [held] at own
      exact absurd (Option.some.inj own) different
  · rw [caller]
    exact fun locked => stays _ (holds.mtx locked)
  · rw [caller]
    exact fun targeting => stays _ (holds.target targeting)

theorem mutexes_change (k : Kernel) (s u : Nesting) (l : NestLabel) (move : NestMove k s l u)
    (sound : (s.callers l.thread).Sound k) (holds : Holds k s l.thread) :
    (u.epmutex = s.epmutex ∨ s.epmutex = none ∨ s.epmutex = some l.thread) ∧
      ∀ file, u.mtx file = s.mtx file ∨ s.mtx file = none ∨ s.mtx file = some l.thread := by
  have set (file : Nat) (holder : Option Nat) (before : s.mtx file = none ∨ s.mtx file = some l.thread)
      (other : Nat) : (s.setMtx file holder).mtx other = s.mtx other ∨ s.mtx other = none ∨
        s.mtx other = some l.thread := by
    by_cases same : other = file
    · exact .inr (same ▸ before)
    · exact .inl (by simp [Nesting.setMtx,same])
  cases move with
  | refused | entered | decided | looped | listed | stopped | inserted | switched | rejected | accepted =>
    exact ⟨.inl rfl,fun _ => .inl rfl⟩
  | locked t here free | relocked t here free | targeted t here free =>
    exact ⟨.inl rfl,set _ _ (.inl free)⟩
  | deferred t here full =>
    exact ⟨.inl rfl,set _ _ (.inr (holds.mtx (by simp [NestLabel.thread,here,CtlPc.locked])))⟩
  | serialized t here free => exact ⟨.inr (.inl free),fun _ => .inl rfl⟩
  | unlockedTarget t here =>
    have target : (s.callers t).targeting k = true := by
      rw [Caller.targeting,here]
      exact sound.tep (.inr here)
    exact ⟨.inl rfl,set _ _ (.inr (holds.target target))⟩
  | unlocked t here =>
    exact ⟨.inl rfl,set _ _ (.inr (holds.mtx (by simp [NestLabel.thread,here,CtlPc.locked])))⟩
  | released t here =>
    exact ⟨.inr (.inr (holds.epmutex (by simp [NestLabel.thread,Caller.serial,here]))),fun _ => .inl rfl⟩

private theorem holds_still (k : Kernel) (s : Nesting) (t : Nat) (w : Caller) (interest : Interest)
    (holds : Holds k s t) (item : w.item = (s.callers t).item)
    (serial : w.serial = true → (s.callers t).serial = true)
    (locked : w.pc.locked = true → (s.callers t).pc.locked = true)
    (targeting : w.targeting k = true → (s.callers t).targeting k = true) :
    Holds k {s.setCaller t w with interest := interest} t := by
  have own : ({s.setCaller t w with interest := interest}).callers t = w := setCaller_self s t w
  refine ⟨?_,?_,?_⟩
  · rw [own]
    exact fun now => holds.epmutex (serial now)
  · rw [own,item]
    exact fun now => holds.mtx (locked now)
  · rw [own,item]
    exact fun now => holds.target (targeting now)

private theorem holds_leave (k : Kernel) (s : Nesting) (t : Nat) (error : Int) (interest : Interest)
    (here : (s.callers t).pc = .lookup ∨ (s.callers t).pc = .pathCheck) (holds : Holds k s t) :
    Holds k {s.setCaller t ((s.callers t).leave k error) with interest := interest} t := by
  refine holds_still k s t _ interest holds rfl ?_ ?_ ?_ <;> unfold Caller.leave <;>
    rcases here with here | here <;> split <;>
      simp_all [Caller.serial,CtlPc.locked,Caller.targeting,Caller.nested]

private theorem holds_own (k : Kernel) (s u : Nesting) (l : NestLabel) (move : NestMove k s l u)
    (sound : (s.callers l.thread).Sound k) (holds : Holds k s l.thread) : Holds k u l.thread := by
  cases move with
  | refused t c error here args =>
    exact holds_still k s t _ s.interest holds rfl (by simp [Caller.serial]) (by simp)
      (by simp [Caller.targeting,Caller.nested])
  | entered t c item here args =>
    constructor <;> simp [NestLabel.thread,Caller.serial,CtlPc.locked,Caller.targeting]
  | locked t here free =>
    constructor <;> simp [NestLabel.thread,Caller.serial,CtlPc.locked,Caller.targeting,Nesting.setMtx,Nesting.setCaller]
  | deferred t here full =>
    constructor <;> simp [NestLabel.thread,Caller.serial,CtlPc.locked,Caller.targeting]
  | decided t here plain =>
    have none := sound.fresh (.inr here)
    exact holds_still k s t _ s.interest holds rfl (by simp_all [Caller.serial,NestLabel.thread])
      (by simp [here,CtlPc.locked]) (by simp_all [Caller.targeting,Caller.nested,NestLabel.thread])
  | serialized t here free =>
    constructor <;> simp [NestLabel.thread,Caller.serial,CtlPc.locked,Caller.targeting]
  | looped t here loop | listed t files here list =>
    exact holds_still k s t _ _ holds rfl (by simp [here,Caller.serial]) (by simp [CtlPc.locked])
      (by simp [Caller.targeting])
  | relocked t here free =>
    have serial := holds.epmutex (by simp [NestLabel.thread,here,Caller.serial])
    refine ⟨fun _ => serial,fun _ => ?_,?_⟩
    · simp [NestLabel.thread,Nesting.setMtx,Nesting.setCaller]
    · by_cases nested : (s.callers t).nested k = true
      · simp [NestLabel.thread,Caller.targeting,nested]
      · simp only [NestLabel.thread,setCaller_self,Caller.targeting,nested]
        exact fun now => absurd now nested
  | targeted t here free =>
    simp only [NestLabel.thread] at sound holds ⊢
    have serial := holds.epmutex (by simp [here,Caller.serial])
    have held := holds.mtx (by simp [here,CtlPc.locked])
    have apart := (sound.entered (by simp [here])).2
    refine ⟨fun _ => serial,fun _ => ?_,fun _ => ?_⟩
    · simpa [Nesting.setMtx,Nesting.setCaller,Function.update_of_ne apart] using held
    · simp [Nesting.setMtx,Nesting.setCaller]
  | stopped t error here op | switched t error interest here op result =>
    exact holds_leave k s t error _ (.inl here) holds
  | inserted t here op =>
    exact holds_still k s t _ _ holds rfl (by simp [here,Caller.serial]) (by simp [here,CtlPc.locked])
      (by simp [here,Caller.targeting,Caller.nested])
  | rejected t here full | accepted t here fine => exact holds_leave k s t _ _ (.inr here) holds
  | unlockedTarget t here =>
    simp only [NestLabel.thread] at sound holds ⊢
    have full := sound.staged (by simp [here,CtlPc.staged])
    have serial := holds.epmutex (by simpa [here,Caller.serial] using full)
    have held := holds.mtx (by simp [here,CtlPc.locked])
    have apart := (sound.entered (by simp [here])).2
    refine ⟨fun _ => serial,fun _ => ?_,?_⟩
    · simpa [Nesting.setMtx,Nesting.setCaller,Function.update_of_ne apart] using held
    · simp [Caller.targeting]
  | unlocked t here =>
    simp only [NestLabel.thread] at sound holds ⊢
    by_cases full : (s.callers t).full = true
    · have serial := holds.epmutex (by simpa [here,Caller.serial] using full)
      refine ⟨fun _ => serial,?_,?_⟩ <;> simp [full,CtlPc.locked,Caller.targeting]
    · constructor <;> simp [full,Caller.serial,CtlPc.locked,Caller.targeting]
  | released t here =>
    constructor <;> simp [NestLabel.thread,Caller.serial,CtlPc.locked,Caller.targeting]

structure Locks (k : Kernel) (s : Nesting) : Prop where
  sound : ∀ t, (s.callers t).Sound k
  holds : ∀ t, Holds k s t

theorem locks_move (k : Kernel) (s u : Nesting) (l : NestLabel) (locks : Locks k s) (move : NestMove k s l u) :
    Locks k u := by
  obtain ⟨epmutex,mtx⟩ := mutexes_change k s u l move (locks.sound l.thread) (locks.holds l.thread)
  refine ⟨?_,?_⟩
  · intro t
    by_cases same : t = l.thread
    · exact same ▸ sound_own k s u l move (locks.sound l.thread)
    · exact caller_kept k s u l move t same ▸ locks.sound t
  · intro t
    by_cases same : t = l.thread
    · exact same ▸ holds_own k s u l move (locks.sound l.thread) (locks.holds l.thread)
    · exact holds_other k s u l.thread t same (caller_kept k s u l move t same) epmutex mtx (locks.holds t)

theorem Locks.serial_unique {k : Kernel} {s : Nesting} (locks : Locks k s) {t other : Nat}
    (first : (s.callers t).serial = true) (second : (s.callers other).serial = true) : t = other :=
  Option.some.inj (((locks.holds t).epmutex first).symm.trans ((locks.holds other).epmutex second))

theorem Locks.target_apart {k : Kernel} {s : Nesting} (locks : Locks k s) {t other : Nat}
    (locked : (s.callers t).pc.locked = true) (targeting : (s.callers other).targeting k = true)
    (same : (s.callers other).item.key.file = (s.callers t).item.key.ep) : False := by
  have first := (locks.holds t).mtx locked
  have second := (locks.holds other).target targeting
  rw [same,first] at second
  cases Option.some.inj second
  have inside : (s.callers t).pc ≠ .outside := fun here => by simp [here,CtlPc.locked] at locked
  exact ((locks.sound t).entered inside).2 same.symm

structure Quiet (s : Nesting) : Prop where
  outside : ∀ t, s.callers t = ⟨.outside,0,⟨false,false,0,false⟩,⟨⟨0,0,0⟩,0,0⟩,false,0⟩
  epmutex : s.epmutex = none
  mtx : ∀ file, s.mtx file = none
  unlisted : s.interest.tfileCheckList = []

theorem locks_quiet (k : Kernel) (s : Nesting) (quiet : Quiet s) : Locks k s := by
  refine ⟨?_,?_⟩
  · intro t
    rw [quiet.outside t]
    constructor <;> simp [CtlPc.staged]
  · intro t
    constructor <;> simp [quiet.outside t,Caller.serial,CtlPc.locked,Caller.targeting]

end Reactor.Epoll
