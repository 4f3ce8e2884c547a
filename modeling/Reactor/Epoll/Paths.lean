import Reactor.Epoll.Acyclic

/-! Limits on wake-up paths. An ADD under `epmutex` checks the files its target reaches;
an ADD of a plain file to an unwatched eventpoll checks nothing. The second kind slips
past the first when it comes between the walk over the target and the lock of the
target, and only then. -/
namespace Reactor.Epoll
open Reactor.Transition Reactor.Reach

def Limited (k : Kernel) (g : Graph) : Prop := ∀ file, k.isFileEpoll file = false → k.pathsOk g file = true

/-- What `epoll_ctl` relies on. The loop check lists every plain file below the target;
the limit of a file is a matter of the ways up from it; and a file may be attached
directly to any number of eventpolls that are not nested. -/
structure PathLaws (k : Kernel) : Prop where
  walks : ∀ g ep target files, k.epLoopCheck g ep target = some files →
    ∀ file, k.isFileEpoll file = false → Reaches g target file → file ∈ files
  upward : ∀ g h file, (∀ above, Reaches g above file → watchers g above = watchers h above) →
    k.pathsOk g file = k.pathsOk h file
  direct : ∀ g ep file, (∀ edge ∈ g, edge.1 ≠ file) → ep ≠ file → watchers g ep = [] →
    k.pathsOk g file = true → k.pathsOk ((ep,file)::g) file = true

theorem mem_watchers (g : Graph) (ep file : Nat) : ep ∈ watchers g file ↔ (ep,file) ∈ g := by
  simp [watchers]

theorem watchers_nil (g : Graph) (file : Nat) : watchers g file = [] ↔ ∀ edge ∈ g, edge.2 ≠ file := by
  simp [watchers,List.filter_eq_nil_iff]

theorem watchers_cons_self (g : Graph) (ep file : Nat) : watchers ((ep,file)::g) file = ep :: watchers g file := by
  simp [watchers]

theorem watchers_cons_ne (g : Graph) (ep file above : Nat) (different : above ≠ file) :
    watchers ((ep,file)::g) above = watchers g above := by
  simp [watchers,different.symm]

theorem watchers_erase (items : List Item) (item : Item) (above : Nat) (different : above ≠ item.key.file) :
    watchers (graph (items.erase item)) above = watchers (graph items) above := by
  induction items with
  | nil => rfl
  | cons first items ih =>
    by_cases same : first = item
    · subst same
      rw [List.erase_cons_head]
      exact (watchers_cons_ne (graph items) first.key.ep first.key.file above different).symm
    · rw [List.erase_cons_tail (by simpa using same)]
      by_cases here : above = first.key.file
      · subst here
        exact (watchers_cons_self _ _ _).trans ((congrArg _ ih).trans (watchers_cons_self _ _ _).symm)
      · exact (watchers_cons_ne _ _ _ _ here).trans (ih.trans (watchers_cons_ne _ _ _ _ here).symm)

section
variable {k : Kernel} (laws : PathLaws k)
include laws

theorem Limited.attach {g : Graph} {ep file : Nat} (limited : Limited k g)
    (sources : ∀ edge ∈ g, k.isFileEpoll edge.1 = true) (epoll : k.isFileEpoll ep = true)
    (plain : k.isFileEpoll file = false) (unwatched : watchers g ep = []) : Limited k ((ep,file)::g) := by
  have sink : ∀ edge ∈ g, edge.1 ≠ file := by
    intro edge member same
    have source := sources edge member
    rw [same,plain] at source
    cases source
  intro other otherPlain
  by_cases same : other = file
  · subst same
    refine laws.direct g ep other sink ?_ unwatched (limited other plain)
    rintro rfl
    rw [plain] at epoll
    cases epoll
  · rw [← laws.upward g ((ep,file)::g) other]
    · exact limited other otherPlain
    · intro above path
      refine (watchers_cons_ne g ep file above ?_).symm
      rintro rfl
      exact same (reaches_from_sink sink path).symm

theorem Limited.extend {items : List Item} {item : Item} (limited : Limited k (graph (items.erase item)))
    (checked : ∀ file, k.isFileEpoll file = false → Reaches (graph items) item.key.file file →
      k.pathsOk (graph items) file = true) : Limited k (graph items) := by
  intro file plain
  by_cases path : Reaches (graph items) item.key.file file
  · exact checked file plain path
  · rw [laws.upward (graph items) (graph (items.erase item)) file]
    · exact limited file plain
    · intro above up
      refine (watchers_erase items item above ?_).symm
      rintro rfl
      exact path up

end

def Caller.auditing (w : Caller) : Bool := w.pc = .pathCheck && w.full

def CtlPc.listing : CtlPc → Bool
  | .relock | .lockTarget | .lookup | .pathCheck => true
  | _ => false

/-- What holds while every call is an ADD. -/
structure Audited (k : Kernel) (s : Nesting) : Prop where
  locks : Locks k s
  adding : ∀ t, (s.callers t).pc ≠ .outside → (s.callers t).op = epollCtlAdd
  sources : ∀ edge ∈ graph s.interest.items, k.isFileEpoll edge.1 = true
  unwatched : ∀ t, (s.callers t).pc = .lookup → (s.callers t).full = false →
    watchers (graph s.interest.items) (s.callers t).item.key.ep = []
  listed : ∀ t, (s.callers t).pc.listing = true → (s.callers t).full = true →
    ∀ file, k.isFileEpoll file = false → Reaches (graph s.interest.items) (s.callers t).item.key.file file →
      file ∈ s.interest.tfileCheckList

/-- The limits hold for what has passed its check. -/
structure Checked (k : Kernel) (s : Nesting) : Prop where
  limited : (∀ t, (s.callers t).auditing = false) → Limited k (graph s.interest.items)
  pending : ∀ t, (s.callers t).auditing = true →
    Limited k (graph (s.interest.items.erase (s.callers t).item.withErrors))

def NestLabel.adding : NestLabel → Bool
  | .call _ c => c.op = epollCtlAdd
  | .step _ => true

/-- The step is not that of an unchecked ADD to the very eventpoll whose files the holder
of `epmutex` has listed and whose mutex it has not taken yet. -/
def Nesting.undisturbed (s : Nesting) : NestLabel → Bool
  | .call _ _ => true
  | .step t =>
    match s.epmutex with
    | none => true
    | some holder =>
      !((s.callers t).pc = .lookup && !(s.callers t).full &&
        ((s.callers holder).pc = .relock || (s.callers holder).pc = .lockTarget) &&
        (s.callers holder).item.key.file = (s.callers t).item.key.ep)

private theorem adding_own (k : Kernel) (s u : Nesting) (l : NestLabel) (move : NestMove k s l u)
    (audited : Audited k s) (add : l.adding = true) (inside : (u.callers l.thread).pc ≠ .outside) :
    (u.callers l.thread).op = epollCtlAdd := by
  have before := audited.adding l.thread
  cases move with
  | refused t c error here args => simp [NestLabel.thread,here] at inside
  | entered t c item here args => simpa [NestLabel.adding,NestLabel.thread] using add
  | listed t files here | stopped t error here | switched t error interest here | _ t here =>
    simpa [NestLabel.thread,Caller.leave,here] using before

private theorem unwatched_own (k : Kernel) (s u : Nesting) (l : NestLabel) (move : NestMove k s l u)
    (audited : Audited k s) (here : (u.callers l.thread).pc = .lookup)
    (unchecked : (u.callers l.thread).full = false) :
    watchers (graph u.interest.items) (u.callers l.thread).item.key.ep = [] := by
  have sound := audited.locks.sound l.thread
  have leaves (t : Nat) (error : Int) : ((s.callers t).leave k error).pc ≠ .lookup := by
    unfold Caller.leave
    split <;> simp
  cases move with
  | refused t c error outside args => simp [NestLabel.thread,outside] at here
  | entered | locked | deferred | serialized | looped | listed | inserted | unlockedTarget | released =>
    simp [NestLabel.thread] at here
  | stopped | switched | rejected | accepted => simp [NestLabel.thread,leaves] at here
  | unlocked t before =>
    simp only [NestLabel.thread,setCaller_self] at here
    split at here <;> cases here
  | relocked t before free | targeted t before free =>
    simp only [NestLabel.thread,setCaller_self] at unchecked sound
    have full := sound.staged (by rw [before]; rfl)
    simp [unchecked] at full
  | decided t before plain =>
    have add := audited.adding t (by simp [before])
    simp only [NestLabel.thread,setCaller_self]
    rw [watchers_nil]
    intro edge member same
    obtain ⟨item,inside,rfl⟩ := List.mem_map.mp member
    have link : item ∈ fEpLinks s.interest.items (s.callers t).item.key.ep :=
      List.mem_filter.mpr ⟨inside,by simpa using same⟩
    simp only [fullCheck,add,decide_true,Bool.true_and,Bool.or_eq_false_iff] at plain
    have unlinked : fEpLinks s.interest.items (s.callers t).item.key.ep = [] := by simpa using plain.1
    rw [unlinked] at link
    cases link

private theorem listed_own (k : Kernel) (laws : PathLaws k) (s u : Nesting) (l : NestLabel)
    (move : NestMove k s l u) (audited : Audited k s) (listing : (u.callers l.thread).pc.listing = true)
    (full : (u.callers l.thread).full = true) (file : Nat) (plain : k.isFileEpoll file = false)
    (path : Reaches (graph u.interest.items) (u.callers l.thread).item.key.file file) :
    file ∈ u.interest.tfileCheckList := by
  have leaves (t : Nat) (error : Int) : ((s.callers t).leave k error).pc.listing = false := by
    unfold Caller.leave
    split <;> rfl
  cases move with
  | refused t c error outside args => simp [NestLabel.thread,outside,CtlPc.listing] at listing
  | entered | locked | deferred | serialized | looped | unlockedTarget | released =>
    simp [NestLabel.thread,CtlPc.listing] at listing
  | stopped | switched | rejected | accepted => simp [NestLabel.thread,leaves] at listing
  | unlocked t before =>
    simp only [NestLabel.thread,setCaller_self] at listing
    split at listing <;> cases listing
  | decided t before partly =>
    simp only [NestLabel.thread,setCaller_self] at full
    simp [(audited.locks.sound t).fresh (.inr before)] at full
  | listed t files before list =>
    simp only [NestLabel.thread,setCaller_self] at path
    unfold checkList at list
    split at list
    next epoll =>
      obtain ⟨found,walked,rfl⟩ := Option.map_eq_some_iff.mp list
      exact List.mem_append_left _ (laws.walks _ _ _ _ walked file plain path)
    next direct =>
      cases Option.some.inj list
      have sink : ∀ edge ∈ graph s.interest.items, edge.1 ≠ (s.callers t).item.key.file :=
        fun edge member same => direct (same ▸ audited.sources edge member)
      exact reaches_from_sink sink path ▸ List.mem_cons_self
  | relocked t before free | targeted t before free =>
    simp only [NestLabel.thread,setCaller_self] at full path
    exact audited.listed t (by rw [before]; rfl) full file plain path
  | inserted t before op =>
    simp only [NestLabel.thread,setCaller_self] at full path
    exact audited.listed t (by rw [before]; rfl) full file plain ((reaches_cons_target _ _ _ _).mp path)

private theorem listing_serial {w : Caller} (listing : w.pc.listing = true) (full : w.full = true) :
    w.serial = true := by
  cases here : w.pc <;> simp_all [CtlPc.listing,Caller.serial]

private theorem listed_other (k : Kernel) (s u : Nesting) (l : NestLabel) (move : NestMove k s l u)
    (audited : Audited k s) (calm : s.undisturbed l = true) (t : Nat) (other : t ≠ l.thread)
    (listing : (s.callers t).pc.listing = true) (full : (s.callers t).full = true) :
    u.interest.tfileCheckList = s.interest.tfileCheckList ∧
      ∀ file, Reaches (graph u.interest.items) (s.callers t).item.key.file file →
        Reaches (graph s.interest.items) (s.callers t).item.key.file file := by
  have serial := listing_serial listing full
  have alone (away : (s.callers l.thread).serial = true) : False :=
    other (audited.locks.serial_unique serial away)
  have held := (audited.locks.holds t).epmutex serial
  cases move with
  | refused | entered | locked | deferred | decided | relocked | targeted | unlockedTarget | unlocked
  | released | serialized => exact ⟨rfl,fun _ path => path⟩
  | looped v before | listed v files before => exact (alone (by simp [NestLabel.thread,before,Caller.serial])).elim
  | stopped v error before op | accepted v before fine =>
    have unchecked : (s.callers v).full = false := by
      by_contra checked
      exact alone (by simpa [NestLabel.thread,before,Caller.serial] using checked)
    simp [unchecked,Interest.clearTfileCheckList]
  | switched v error interest before op => exact absurd (audited.adding v (by simp [before])) op
  | rejected v before whole => exact (alone (by simpa [NestLabel.thread,before,Caller.serial] using whole)).elim
  | inserted v before op =>
    have unchecked : (s.callers v).full = false := by
      by_contra checked
      exact alone (by simpa [NestLabel.thread,before,Caller.serial] using checked)
    refine ⟨rfl,fun file path => reaches_cons_away ?_ path⟩
    intro below
    have same := reaches_to_root ((watchers_nil _ _).mp (audited.unwatched v before unchecked)) below
    have epoll := ((audited.locks.sound v).entered (by simp [before])).1
    have nested : (s.callers t).nested k = true := by rw [Caller.nested,full,same,epoll]; rfl
    have apart (targeting : (s.callers t).targeting k = true) : False :=
      audited.locks.target_apart (by rw [before]; rfl) targeting same
    cases here : (s.callers t).pc <;> simp only [here,CtlPc.listing,reduceCtorEq] at listing
    case relock => simp [Nesting.undisturbed,held,before,unchecked,here,same] at calm
    case lockTarget => simp [Nesting.undisturbed,held,before,unchecked,here,same] at calm
    case lookup => exact apart (by rw [Caller.targeting,here]; exact nested)
    case pathCheck => exact apart (by rw [Caller.targeting,here]; exact nested)

private theorem auditing_serial {w : Caller} (auditing : w.auditing = true) : w.serial = true := by
  obtain ⟨here,full⟩ := Bool.and_eq_true_iff.mp auditing
  exact listing_serial (by rw [of_decide_eq_true here]; rfl) full

theorem audited_move (k : Kernel) (laws : PathLaws k) (s u : Nesting) (l : NestLabel) (audited : Audited k s)
    (add : l.adding = true) (calm : s.undisturbed l = true) (move : NestMove k s l u) : Audited k u := by
  have kept := caller_kept k s u l move
  refine ⟨locks_move k s u l audited.locks move,?_,?_,?_,?_⟩
  · intro t inside
    by_cases same : t = l.thread
    · exact same ▸ adding_own k s u l move audited add (same ▸ inside)
    · rw [kept t same] at inside ⊢
      exact audited.adding t inside
  · intro edge member
    rcases graph_move k s u l move with fewer | ⟨here,op,items⟩
    · exact audited.sources edge (fewer edge member)
    · rw [items] at member
      rcases List.mem_cons.mp member with rfl | old
      · exact ((audited.locks.sound l.thread).entered (by simp [here])).1
      · exact audited.sources edge old
  · intro t here unchecked
    by_cases same : t = l.thread
    · subst same
      exact unwatched_own k s u l move audited here unchecked
    · rw [kept t same] at here unchecked ⊢
      have before := (watchers_nil _ _).mp (audited.unwatched t here unchecked)
      rw [watchers_nil]
      intro edge member
      rcases graph_move k s u l move with fewer | ⟨there,op,items⟩
      · exact before edge (fewer edge member)
      · rw [items] at member
        rcases List.mem_cons.mp member with rfl | old
        · -- a nesting insertion has the mutex of its target, which is not free here
          intro target
          have epoll : k.isFileEpoll (s.callers l.thread).item.key.file = true := by
            rw [show (s.callers l.thread).item.key.file = _ from target]
            exact ((audited.locks.sound t).entered (by simp [here])).1
          have full := (audited.locks.sound l.thread).nested (.inl there) op epoll
          refine audited.locks.target_apart (t := t) (by rw [here]; rfl) ?_ target
          rw [Caller.targeting,there,Caller.nested,full,epoll]
          rfl
        · exact before edge old
  · intro t listing full file plain path
    by_cases same : t = l.thread
    · subst same
      exact listed_own k laws s u l move audited listing full file plain path
    · rw [kept t same] at listing full path
      obtain ⟨list,inside⟩ := listed_other k s u l move audited calm t same listing full
      rw [list]
      exact audited.listed t listing full file plain (inside file path)

private theorem checked_same (k : Kernel) (s u : Nesting) (t : Nat) (checked : Checked k s)
    (kept : ∀ other, other ≠ t → u.callers other = s.callers other)
    (items : u.interest.items = s.interest.items) (before : (s.callers t).auditing = false)
    (after : (u.callers t).auditing = false) : Checked k u := by
  refine ⟨?_,?_⟩
  · intro none
    rw [items]
    apply checked.limited
    intro other
    by_cases same : other = t
    · rw [same,before]
    · rw [← kept other same,none]
  · intro other auditing
    have different : other ≠ t := by
      rintro rfl
      simp [after] at auditing
    rw [kept other different] at auditing ⊢
    rw [items]
    exact checked.pending other auditing

private theorem auditing_alone {k : Kernel} {s : Nesting} (locks : Locks k s) {t other : Nat}
    (serial : (s.callers t).serial = true) (different : other ≠ t) : (s.callers other).auditing = false := by
  by_contra auditing
  exact different (locks.serial_unique (auditing_serial (by simpa using auditing)) serial)

private theorem checked_nested (k : Kernel) (s u : Nesting) (t : Nat) (audited : Audited k s) (checked : Checked k s)
    (here : (s.callers t).pc = .lookup) (full : (s.callers t).full = true)
    (kept : ∀ other, other ≠ t → u.callers other = s.callers other)
    (own : u.callers t = {s.callers t with pc := .pathCheck})
    (items : u.interest.items = (s.callers t).item.withErrors :: s.interest.items) : Checked k u := by
  have serial : (s.callers t).serial = true := by rw [Caller.serial,here,full]
  have before (other : Nat) : (s.callers other).auditing = false := by
    by_cases same : other = t
    · simp [same,Caller.auditing,here]
    · exact auditing_alone audited.locks serial same
  refine ⟨?_,?_⟩
  · intro none
    have auditing := none t
    simp [own,Caller.auditing,full] at auditing
  · intro other auditing
    by_cases same : other = t
    · subst same
      rw [own,items,List.erase_cons_head]
      exact checked.limited before
    · rw [kept other same,before other] at auditing
      cases auditing

private theorem checked_attached (k : Kernel) (laws : PathLaws k) (s u : Nesting) (t : Nat) (audited : Audited k s)
    (checked : Checked k s) (here : (s.callers t).pc = .lookup) (unchecked : (s.callers t).full = false)
    (kept : ∀ other, other ≠ t → u.callers other = s.callers other)
    (own : u.callers t = {s.callers t with pc := .pathCheck})
    (items : u.interest.items = (s.callers t).item.withErrors :: s.interest.items) : Checked k u := by
  obtain ⟨epoll,_⟩ := (audited.locks.sound t).entered (by simp [here])
  have plain : k.isFileEpoll (s.callers t).item.key.file = false := by
    by_contra target
    have full := (audited.locks.sound t).nested (.inl here) (audited.adding t (by simp [here])) (by simpa using target)
    simp [unchecked] at full
  have unwatched := audited.unwatched t here unchecked
  refine ⟨?_,?_⟩
  · intro none
    rw [items]
    refine Limited.attach laws (checked.limited fun other => ?_) audited.sources epoll plain unwatched
    by_cases same : other = t
    · simp [same,Caller.auditing,here]
    · rw [← kept other same,none]
  · intro other auditing
    have different : other ≠ t := by
      rintro rfl
      simp [own,Caller.auditing,unchecked] at auditing
    rw [kept other different] at auditing ⊢
    -- the two items differ, for their eventpolls do: both mutexes are held
    have apart : (s.callers t).item.withErrors ≠ (s.callers other).item.withErrors := by
      intro same
      have ep : (s.callers t).item.key.ep = (s.callers other).item.key.ep :=
        congrArg (fun item => item.key.ep) same
      have mine := (audited.locks.holds t).mtx (by rw [here]; rfl)
      have theirs := (audited.locks.holds other).mtx (by
        rw [of_decide_eq_true (Bool.and_eq_true_iff.mp auditing).1]
        rfl)
      rw [ep,theirs] at mine
      exact different (Option.some.inj mine)
    have fewer : ∀ edge ∈ graph (s.interest.items.erase (s.callers other).item.withErrors),
        edge ∈ graph s.interest.items := by
      intro edge member
      obtain ⟨item,inside,rfl⟩ := List.mem_map.mp member
      exact List.mem_map_of_mem (List.mem_of_mem_erase inside)
    rw [items,List.erase_cons_tail (by simpa using apart)]
    refine Limited.attach laws (checked.pending other auditing) ?_ epoll plain ?_
    · exact fun edge member => audited.sources edge (fewer edge member)
    · rw [watchers_nil] at unwatched ⊢
      exact fun edge member => unwatched edge (fewer edge member)

private theorem checked_done (k : Kernel) (s u : Nesting) (t : Nat) (audited : Audited k s)
    (auditing : (s.callers t).auditing = true) (kept : ∀ other, other ≠ t → u.callers other = s.callers other)
    (after : (u.callers t).auditing = false) (limited : Limited k (graph u.interest.items)) : Checked k u := by
  refine ⟨fun _ => limited,?_⟩
  intro other still
  by_cases same : other = t
  · rw [same,after] at still
    cases still
  · rw [kept other same,auditing_alone audited.locks (auditing_serial auditing) same] at still
    cases still

private theorem not_auditing {w : Caller} (away : w.pc ≠ .pathCheck) : w.auditing = false := by
  simp [Caller.auditing,away]

theorem checked_move (k : Kernel) (laws : PathLaws k) (s u : Nesting) (l : NestLabel) (audited : Audited k s)
    (checked : Checked k s) (move : NestMove k s l u) : Checked k u := by
  have kept := caller_kept k s u l move
  have same := checked_same k s u l.thread checked kept
  have leaves (t : Nat) (error : Int) : ((s.callers t).leave k error).auditing = false := by
    simp only [Caller.auditing,Caller.leave]
    split <;> simp
  cases move with
  | refused t c error here args =>
    exact same rfl (not_auditing (by simp [NestLabel.thread,here])) (not_auditing (by simp [NestLabel.thread,here]))
  | entered t c item here args | locked t here | deferred t here | decided t here | serialized t here
  | listed t files here | targeted t here | unlockedTarget t here | released t here =>
    exact same rfl (not_auditing (by simp [NestLabel.thread,here])) (not_auditing (by simp [NestLabel.thread]))
  | looped t here =>
    exact same (clearTfileCheckList_items _ _) (not_auditing (by simp [NestLabel.thread,here]))
      (not_auditing (by simp [NestLabel.thread]))
  | relocked t here | unlocked t here =>
    refine same rfl (not_auditing (by simp [NestLabel.thread,here])) (not_auditing ?_)
    simp only [NestLabel.thread,setCaller_self]
    split <;> simp
  | stopped t error here op =>
    exact same (clearTfileCheckList_items _ _) (not_auditing (by simp [NestLabel.thread,here]))
      (by simp [NestLabel.thread,leaves])
  | switched t error interest here op => exact absurd (audited.adding t (by simp [here])) op
  | inserted t here op =>
    by_cases full : (s.callers t).full = true
    · exact checked_nested k s _ t audited checked here full kept (setCaller_self ..) rfl
    · exact checked_attached k laws s _ t audited checked here (by simpa using full) kept (setCaller_self ..) rfl
  | rejected t here full =>
    have auditing : (s.callers t).auditing = true := by simp [Caller.auditing,here,full]
    exact checked_done k s _ t audited auditing kept (by simp [leaves]) (checked.pending t auditing)
  | accepted t here fine =>
    by_cases full : (s.callers t).full = true
    · have auditing : (s.callers t).auditing = true := by simp [Caller.auditing,here,full]
      apply checked_done k s _ t audited auditing kept (by simp [leaves])
      rw [clearTfileCheckList_items]
      apply Limited.extend laws (checked.pending t auditing)
      intro file plain path
      have all : ∀ file ∈ s.interest.tfileCheckList, k.pathsOk (graph s.interest.items) file = true := by
        simpa [reversePathCheck] using fine full
      exact all file (audited.listed t (by rw [here]; rfl) full file plain path)
    · exact same (clearTfileCheckList_items _ _) (by simp [NestLabel.thread,Caller.auditing,full])
        (by simp [NestLabel.thread,leaves])

/-- As long as no unchecked ADD goes to an eventpoll between the listing of its files and
the locking of its mutex by another ADD, the limits hold whenever no call is under way. -/
theorem path_limits_hold (k : Kernel) (laws : PathLaws k) (s u : Nesting) (ls : List NestLabel) (quiet : Quiet s)
    (sources : ∀ edge ∈ graph s.interest.items, k.isFileEpoll edge.1 = true)
    (limited : Limited k (graph s.interest.items)) (run : Run (nestStep k) s ls u)
    (adding : ∀ l ∈ ls, l.adding = true)
    (calm : Along (nestStep k) (fun s l => s.undisturbed l = true) s ls)
    (done : ∀ t, (u.callers t).pc = .outside) : Limited k (graph u.interest.items) := by
  have start : Audited k s ∧ Checked k s := by
    have outside (t : Nat) : (s.callers t).pc = .outside := by rw [quiet.outside t]
    refine ⟨⟨locks_quiet k s quiet,fun t inside => absurd (outside t) inside,sources,?_,?_⟩,fun _ => limited,?_⟩
    · intro t here
      simp [outside t] at here
    · intro t listing
      simp [outside t,CtlPc.listing] at listing
    · intro t auditing
      simp [Caller.auditing,outside t] at auditing
  have both := run.keeps _ (fun s => Audited k s ∧ Checked k s) ?_
    ((along_of_forall (nestStep k) (fun l => l.adding = true) s ls adding).and calm) start
  · exact both.2.limited fun t => by simp [Caller.auditing,done t]
  · rintro s l u ⟨audited,checked⟩ ⟨add,undisturbed⟩ ok
    have move := nestStep_move k s u l ok
    exact ⟨audited_move k laws s u l audited add undisturbed move,checked_move k laws s u l audited checked move⟩

private theorem rootPaths_upward (g h : Graph) (n file : Nat)
    (same : ∀ above, Reaches g above file → watchers g above = watchers h above) :
    rootPaths g n file = rootPaths h n file := by
  induction n generalizing file with
  | zero => simp only [rootPaths,same file .refl]
  | succ n ih =>
    rw [rootPaths,rootPaths,← same file .refl]
    refine congrArg List.sum (List.map_congr_left fun ep member => ih ep fun above path => ?_)
    exact same above (path.tail ((mem_watchers g ep file).mp member))

private theorem climbs_upward (g h : Graph) (n file : Nat)
    (same : ∀ above, Reaches g above file → watchers g above = watchers h above) :
    climbs g n file = climbs h n file := by
  induction n generalizing file with
  | zero => rfl
  | succ n ih =>
    rw [climbs,climbs,← same file .refl]
    rw [Bool.eq_iff_iff,List.any_eq_true,List.any_eq_true]
    refine exists_congr fun ep => and_congr_right fun member => ?_
    rw [ih ep fun above path => same above (path.tail ((mem_watchers g ep file).mp member))]

section
variable (g : Graph) (ep file : Nat) (sink : ∀ edge ∈ g, edge.1 ≠ file) (different : ep ≠ file)
  (unwatched : watchers g ep = [])
include sink

private theorem above_kept (watcher : Nat) (edge : (watcher,file) ∈ g) (above : Nat) (path : Reaches g above watcher) :
    watchers g above = watchers ((ep,file)::g) above := by
  refine (watchers_cons_ne g ep file above ?_).symm
  rintro rfl
  exact sink _ edge (reaches_from_sink sink path).symm

include different unwatched

private theorem rootPaths_attach (n : Nat) : rootPaths ((ep,file)::g) (n+2) file = rootPaths g (n+2) file := by
  have root : rootPaths ((ep,file)::g) (n+1) ep = 0 := by
    rw [rootPaths,watchers_cons_ne g ep file ep different,unwatched]
    rfl
  rw [rootPaths,rootPaths,watchers_cons_self,List.map_cons,List.sum_cons,root,Nat.zero_add]
  refine congrArg List.sum (List.map_congr_left fun watcher member => ?_)
  exact (rootPaths_upward g _ (n+1) watcher (above_kept g ep file sink watcher ((mem_watchers _ _ _).mp member))).symm

private theorem climbs_attach (n : Nat) : climbs ((ep,file)::g) (n+2) file = climbs g (n+2) file := by
  have root : climbs ((ep,file)::g) (n+1) ep = false := by
    rw [climbs,watchers_cons_ne g ep file ep different,unwatched]
    rfl
  rw [climbs,climbs,watchers_cons_self,List.any_cons,root,Bool.false_or,Bool.eq_iff_iff,List.any_eq_true,List.any_eq_true]
  refine exists_congr fun watcher => and_congr_right fun member => ?_
  rw [climbs_upward g _ (n+1) watcher (above_kept g ep file sink watcher ((mem_watchers _ _ _).mp member))]

end

theorem linux_laws : PathLaws linux := by
  refine ⟨?_,?_,?_⟩
  · intro g ep target files walked file plain path
    simp only [linux] at walked
    split at walked
    · cases walked
    · split at walked
      · cases walked
      · cases Option.some.inj walked
        exact List.mem_filter.mpr ⟨(mem_below g target file).mpr path,by simpa [linux] using plain⟩
  · intro g h file same
    simp only [linux,rootPaths_upward g h _ file same,climbs_upward g h _ file same]
  · intro g ep file sink different unwatched fine
    have count := rootPaths_attach g ep file sink different unwatched
    simpa only [linux,count 0,count 1,count 2,count 3,climbs_attach g ep file sink different unwatched 4] using fine

theorem idle_limited : Limited linux (graph idle.interest.items) := fun _ _ => rfl

def nested (ep : Nat) : List NestLabel :=
  (List.range ep).flatMap fun outer => add 0 outer (outer+1) :: List.replicate 11 (.step 0)

/-- Then it nests the next one, and after `n` of its steps thread 1 adds file 10 there. -/
def meeting (n : Nat) : List NestLabel :=
  nested 4 ++ add 0 4 5 :: List.replicate n (.step 0) ++ add 1 5 10 :: List.replicate 5 (.step 1) ++
    List.replicate (11-n) (.step 0)

private theorem meeting_done (n : Nat) (enabled : (exec (nestStep linux) idle (meeting n)).isSome = true)
    (few : ∀ l ∈ meeting n, l.thread < 2)
    (first : ((final (nestStep linux) idle (meeting n)).callers 0).pc = .outside)
    (second : ((final (nestStep linux) idle (meeting n)).callers 1).pc = .outside) (t : Nat) :
    ((final (nestStep linux) idle (meeting n)).callers t).pc = .outside := by
  match t with
  | 0 => exact first
  | 1 => exact second
  | t+2 =>
    have run := final_run (nestStep linux) idle (meeting n) enabled
    rw [callers_untouched linux idle _ (meeting n) run (t+2) fun l member => by have := few l member; omega]
    rfl

theorem path_limits_hold_meeting :
    (final (nestStep linux) idle (meeting 3)).interest.items.length = 5 ∧
    ((final (nestStep linux) idle (meeting 3)).callers 0).error = -einval ∧
    Limited linux (graph (final (nestStep linux) idle (meeting 3)).interest.items) :=
  ⟨by decide +kernel,by decide +kernel,
    path_limits_hold linux linux_laws idle _ (meeting 3) idle_quiet (by simp [idle,noInterest,graph]) idle_limited
      (final_run (nestStep linux) idle (meeting 3) (by decide +kernel)) (by decide) (by decide +kernel)
      (meeting_done 3 (by decide +kernel) (by decide) (by decide +kernel) (by decide +kernel))⟩

/-- The file comes between the listing and the lock: both calls succeed, and there is a
wake-up path of six edges that a check would refuse. -/
theorem path_limits_bypassed :
    PathLaws linux ∧ Quiet idle ∧ Limited linux (graph idle.interest.items) ∧
    ∃ (ls : List NestLabel) (u : Nesting), Run (nestStep linux) idle ls u ∧ (∀ l ∈ ls, l.adding = true) ∧
      (∀ t, (u.callers t).pc = .outside) ∧ (5,10) ∈ graph u.interest.items ∧ linux.isFileEpoll 10 = false ∧
      linux.pathsOk (graph u.interest.items) 10 = false :=
  ⟨linux_laws,idle_quiet,idle_limited,meeting 4,final (nestStep linux) idle (meeting 4),
    final_run (nestStep linux) idle (meeting 4) (by decide +kernel),by decide,
    meeting_done 4 (by decide +kernel) (by decide) (by decide +kernel) (by decide +kernel),
    by decide +kernel,by decide,by decide +kernel⟩

end Reactor.Epoll
