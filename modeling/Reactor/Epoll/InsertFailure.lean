import Reactor.Epoll.Representation

/-! `ep_insert` from its first test to its return, with all the ways it can fail: the
watch limit, the item's memory, its wakeup source, a wait-queue entry, the path check.
Callbacks of this and of other items go on while it works and unwinds. `ep->mtx` is held
throughout, so there are no scans. -/
namespace Reactor.Epoll
open Reactor.Transition Reactor.Threaded

/-- The arguments of the call, and the address the item gets if there is memory for it. -/
structure InsertArgs where
  epi : Nat
  ffd : Nat × Int
  events : EventMask
  data : BitVec 64
  fullCheck : Bool
  maxUserWatches : Int

/-- Where the call is; `inside` is between the attachment to the poll hooks and the return. -/
inductive InsertStage
  | readWatches
  | allocate
  | createWakeupSource
  | inside
  | returned (error : Int)
  deriving DecidableEq, Repr

/-- `fEpLinks` is the list of items that watch the target file. -/
structure Insertion where
  ep : Eventpoll
  epollWatches : Int
  fEpLinks : List Nat
  stage : InsertStage
  error : Int

inductive InsertLabel
  | callback (epi entry : Nat) (key : BitVec 64)
  | readWatches
  | allocate (got : Bool)
  | createWakeupSource (error : Int)
  | own (l : Label)
  deriving DecidableEq, Repr

def Eventpoll.insertPc (ep : Eventpoll) : Option InsertPc :=
  match ep.mtx with
  | .insert insert => some insert.pc
  | _ => none

def Eventpoll.kmemCacheFree (ep : Eventpoll) (epi : Nat) : Eventpoll :=
  {ep with mtx := .free, slab := ep.slab.erase epi}

/-- A step of the call that leaves the eventpoll as `ep`, with what goes along with it: the
list of the file while the item is linked and unlinked, the error to return, the watch. -/
def Insertion.own (s : Insertion) (args : InsertArgs) (l : Label) (ep : Eventpoll) : Option Insertion :=
  match l with
  | .insertHook _ _ | .insertPoll _ => some {s with ep := ep}
  | .insertTick =>
    match ep.insertPc with
    | some (.check _) => some {s with ep := ep, fEpLinks := s.fEpLinks ++ [args.epi], error := -einval}
    | some .unregister => some {s with ep := ep, error := -enomem}
    | _ => some {s with ep := ep}
  | .insertCheck _ =>
    match ep.insertPc with
    | some .unregister => some {s with ep := ep, fEpLinks := s.fEpLinks.erase args.epi}
    | _ => some {s with ep := ep}
  | .insertPublish _ => some {s with ep := ep, epollWatches := s.epollWatches + 1, stage := .returned 0}
  | .insertDrop _ => some {s with ep := ep, stage := .returned s.error}
  | _ => none

def insertStep (args : InsertArgs) (s : Insertion) : InsertLabel → Option Insertion
  | .callback epi entry key => (step s.ep (.callback epi entry key)).map fun ep => {s with ep := ep}
  | .readWatches =>
    if s.stage = .readWatches then
      if s.epollWatches ≥ args.maxUserWatches then some {s with stage := .returned (-enospc)}
      else some {s with stage := .allocate}
    else none
  | .allocate got =>
    if s.stage = .allocate then
      if got then
        (step s.ep (.insertBegin args.epi args.ffd args.events args.data args.fullCheck)).map fun ep =>
          {s with ep := ep, stage := .createWakeupSource}
      else some {s with stage := .returned (-enomem)}
    else none
  | .createWakeupSource error =>
    if s.stage = .createWakeupSource then
      if hits args.events epollWakeup && error ≠ 0 then
        some {s with ep := s.ep.kmemCacheFree args.epi, stage := .returned error}
      else some {s with stage := .inside}
    else none
  | .own l => if s.stage = .inside then (step s.ep l).bind (s.own args l) else none

inductive InsertMove (args : InsertArgs) (s : Insertion) : InsertLabel → Insertion → Prop
  | callback (epi entry : Nat) (key : BitVec 64) (ep : Eventpoll) (ok : step s.ep (.callback epi entry key) = some ep) :
      InsertMove args s (.callback epi entry key) {s with ep := ep}
  | full (here : s.stage = .readWatches) (limit : args.maxUserWatches ≤ s.epollWatches) :
      InsertMove args s .readWatches {s with stage := .returned (-enospc)}
  | room (here : s.stage = .readWatches) (below : s.epollWatches < args.maxUserWatches) :
      InsertMove args s .readWatches {s with stage := .allocate}
  | starved (here : s.stage = .allocate) : InsertMove args s (.allocate false) {s with stage := .returned (-enomem)}
  | allocated (here : s.stage = .allocate) (ep : Eventpoll)
      (ok : step s.ep (.insertBegin args.epi args.ffd args.events args.data args.fullCheck) = some ep) :
      InsertMove args s (.allocate true) {s with ep := ep, stage := .createWakeupSource}
  | sourceless (here : s.stage = .createWakeupSource) (error : Int) (needed : hits args.events epollWakeup = true)
      (bad : error ≠ 0) :
      InsertMove args s (.createWakeupSource error)
        {s with ep := s.ep.kmemCacheFree args.epi, stage := .returned error}
  | source (here : s.stage = .createWakeupSource) (error : Int) (fine : hits args.events epollWakeup = true → error = 0) :
      InsertMove args s (.createWakeupSource error) {s with stage := .inside}
  | own (here : s.stage = .inside) (l : Label) (ep : Eventpoll) (ok : step s.ep l = some ep) (t : Insertion)
      (result : s.own args l ep = some t) : InsertMove args s (.own l) t

theorem insert_move (args : InsertArgs) (s t : Insertion) (l : InsertLabel) (ok : insertStep args s l = some t) :
    InsertMove args s l t := by
  cases l with
  | callback epi entry key =>
    obtain ⟨ep,called,rfl⟩ := Option.map_eq_some_iff.mp ok
    exact .callback epi entry key ep called
  | readWatches =>
    obtain ⟨here,ok⟩ := Option.ite_none_right_eq_some.mp ok
    split at ok
    · next limit =>
      cases ok
      exact .full here limit
    · next below =>
      cases ok
      exact .room here (Int.not_le.mp below)
  | allocate got =>
    obtain ⟨here,ok⟩ := Option.ite_none_right_eq_some.mp ok
    cases got with
    | true =>
      obtain ⟨ep,begun,rfl⟩ := Option.map_eq_some_iff.mp ok
      exact .allocated here ep begun
    | false =>
      cases ok
      exact .starved here
  | createWakeupSource error =>
    obtain ⟨here,ok⟩ := Option.ite_none_right_eq_some.mp ok
    split at ok
    · next refused =>
      cases ok
      obtain ⟨needed,bad⟩ := Bool.and_eq_true_iff.mp refused
      exact .sourceless here error needed (by simpa using bad)
    · next granted =>
      cases ok
      exact .source here error (by simpa using granted)
  | own l =>
    obtain ⟨here,ok⟩ := Option.ite_none_right_eq_some.mp ok
    obtain ⟨ep,moved,result⟩ := Option.bind_eq_some_iff.mp ok
    exact .own here l ep moved t result

/-- What the call does inside, from each of its positions. -/
inductive OwnMove (epi : Nat) (fullCheck : Bool) (s : Insertion) : InsertPc → Label → Insertion → Prop
  | hooked (whead : Nat) (good : 0 ≤ s.ep.nwait epi) :
      OwnMove epi fullCheck s .hook (.insertHook whead true) {s with ep := {s.ep with
        pwqlist := Function.update s.ep.pwqlist epi (s.ep.pwqlist epi ++ [some whead]),
        nwait := Function.update s.ep.nwait epi (s.ep.nwait epi + 1)}}
  | unhooked (whead : Nat) (allocated : Bool) (cause : allocated = false ∨ s.ep.nwait epi < 0) :
      OwnMove epi fullCheck s .hook (.insertHook whead allocated)
        {s with ep := {s.ep with nwait := Function.update s.ep.nwait epi (-1)}}
  | polled (mask : EventMask) :
      OwnMove epi fullCheck s .hook (.insertPoll mask)
        {s with ep := s.ep.withInsertPc ⟨.hook,epi,fullCheck⟩ (.polled (s.ep.epItemPoll epi mask))}
  | linked (revents : EventMask) (good : 0 ≤ s.ep.nwait epi) :
      OwnMove epi fullCheck s (.polled revents) .insertTick {s with
        ep := {s.ep with
          fllink := Function.update s.ep.fllink epi true,
          rbr := epi :: s.ep.rbr}.withInsertPc ⟨.polled revents,epi,fullCheck⟩ (.check revents),
        fEpLinks := s.fEpLinks ++ [epi], error := -einval}
  | unhookable (revents : EventMask) (bad : s.ep.nwait epi < 0) :
      OwnMove epi fullCheck s (.polled revents) .insertTick
        {s with ep := s.ep.withInsertPc ⟨.polled revents,epi,fullCheck⟩ .unregister, error := -enomem}
  | unregister :
      OwnMove epi fullCheck s .unregister .insertTick {s with
        ep := {s.ep with pwqlist := Function.update s.ep.pwqlist epi []}.withInsertPc ⟨.unregister,epi,fullCheck⟩ .drop}
  | rejected (revents : EventMask) (full : fullCheck = true) :
      OwnMove epi fullCheck s (.check revents) (.insertCheck true) {s with
        ep := {s.ep with
          fllink := Function.update s.ep.fllink epi false,
          rbr := s.ep.rbr.erase epi}.withInsertPc ⟨.check revents,epi,fullCheck⟩ .unregister,
        fEpLinks := s.fEpLinks.erase epi}
  | checked (revents : EventMask) (tooManyPaths : Bool) (passes : (fullCheck && tooManyPaths) = false) :
      OwnMove epi fullCheck s (.check revents) (.insertCheck tooManyPaths)
        {s with ep := s.ep.withInsertPc ⟨.check revents,epi,fullCheck⟩ (.publish revents)}
  | published (revents : EventMask) :
      OwnMove epi fullCheck s (.publish revents) (.insertPublish epi)
        {s with ep := {s.ep with mtx := .free}, epollWatches := s.epollWatches + 1, stage := .returned 0}
  | queuedNew (revents : EventMask) :
      OwnMove epi fullCheck s (.publish revents) (.insertPublish epi) {s with
        ep := {(s.ep.listAddTail epi).epPmStayAwake epi with mtx := .free},
        epollWatches := s.epollWatches + 1, stage := .returned 0}
  | dropped (off : s.ep.rdllink epi = false) :
      OwnMove epi fullCheck s .drop (.insertDrop epi)
        {s with ep := {s.ep with mtx := .free, slab := s.ep.slab.erase epi}, stage := .returned s.error}
  | unqueued (on : s.ep.rdllink epi = true) :
      OwnMove epi fullCheck s .drop (.insertDrop epi)
        {s with ep := {s.ep.listDelInit epi with mtx := .free, slab := s.ep.slab.erase epi}, stage := .returned s.error}

theorem own_move {args : InsertArgs} {s t : Insertion} {l : Label} {ep : Eventpoll} {pc : InsertPc} {fullCheck : Bool}
    (held : s.ep.mtx = .insert ⟨pc,args.epi,fullCheck⟩) (ok : step s.ep l = some ep) (result : s.own args l ep = some t) :
    OwnMove args.epi fullCheck s pc l t ∧ t.ep = ep := by
  have mine (now : Insert) (found : s.ep.mtx = .insert now) : now = ⟨pc,args.epi,fullCheck⟩ :=
    (Holder.insert.inj (held.symm.trans found)).symm
  cases step_move s.ep ep l ok with
  | hooked now whead found pc good =>
    cases mine now found
    cases pc
    cases result
    exact ⟨.hooked whead good,rfl⟩
  | unhooked now whead allocated found pc cause =>
    cases mine now found
    cases pc
    cases result
    exact ⟨.unhooked whead allocated cause,rfl⟩
  | insertPoll now mask found pc =>
    cases mine now found
    cases pc
    cases result
    exact ⟨.polled mask,rfl⟩
  | linked now revents found pc good =>
    cases mine now found
    cases pc
    cases result
    exact ⟨.linked revents good,rfl⟩
  | unhookable now revents found pc bad =>
    cases mine now found
    cases pc
    cases result
    exact ⟨.unhookable revents bad,rfl⟩
  | unregister now found pc =>
    cases mine now found
    cases pc
    cases result
    exact ⟨.unregister,rfl⟩
  | rejected now revents found pc full =>
    cases mine now found
    cases pc
    cases result
    exact ⟨.rejected revents full,rfl⟩
  | checked now revents tooManyPaths found pc passes =>
    cases mine now found
    cases pc
    cases result
    exact ⟨.checked revents tooManyPaths passes,rfl⟩
  | published now revents found pc =>
    cases mine now found
    cases pc
    cases result
    exact ⟨.published revents,rfl⟩
  | queuedNew now revents found pc =>
    cases mine now found
    cases pc
    cases result
    exact ⟨.queuedNew revents,rfl⟩
  | dropped now found pc off =>
    cases mine now found
    cases pc
    cases result
    exact ⟨.dropped off,rfl⟩
  | unqueued now found pc on =>
    cases mine now found
    cases pc
    cases result
    exact ⟨.unqueued on,rfl⟩
  | _ => cases result

/-- The eventpoll as it is and as it would be without item `epi`, seen from the others. -/
structure Beside (epi : Nat) (ep v : Eventpoll) : Prop where
  idle : ep.ovflist = .unlinked ∧ v.ovflist = .unlinked
  rdllist : v.rdllist = ep.rdllist.filter fun i => i ≠ epi
  rdllink : ∀ i, i ≠ epi → v.rdllink i = ep.rdllink i
  events : ∀ i, i ≠ epi → v.events i = ep.events i
  pwqlist : ∀ i, i ≠ epi → v.pwqlist i = ep.pwqlist i

/-- The callbacks of the other items. -/
def others (epi : Nat) (ls : List InsertLabel) : List Label :=
  ls.filterMap fun
    | .callback i entry key => if i = epi then none else some (.callback i entry key)
    | _ => none

section
variable {epi i entry : Nat} {key : BitVec 64} {ep t v : Eventpoll}

theorem Beside.pollFreed (beside : Beside epi ep v) (different : i ≠ epi) :
    Beside epi (ep.pollFreed i entry key) (v.pollFreed i entry key) := by
  unfold Eventpoll.pollFreed
  split
  · refine {beside with pwqlist := ?_}
    intro j other
    by_cases same : j = i
    · subst same
      simp [beside.pwqlist j other]
    · simp [same,beside.pwqlist j other]
  · exact beside

theorem Beside.queueReady (beside : Beside epi ep v) (different : i ≠ epi) :
    Beside epi (ep.queueReady i key) (v.queueReady i key) := by
  have accepts : v.accepts i key = ep.accepts i key := by
    rw [Eventpoll.accepts,Eventpoll.accepts,beside.events i different]
  unfold Eventpoll.queueReady
  rw [accepts,beside.idle.1,beside.idle.2,beside.rdllink i different]
  simp only [ne_eq,not_true_eq_false,if_false]
  split_ifs
  · exact beside
  · refine {beside with rdllist := ?_, rdllink := ?_}
    · simp [Eventpoll.epPmStayAwake,Eventpoll.listAddTail,beside.rdllist,List.filter_append,different]
    · intro j other
      by_cases same : j = i
      · subst same
        simp [Eventpoll.epPmStayAwake,Eventpoll.listAddTail]
      · simp [Eventpoll.epPmStayAwake,Eventpoll.listAddTail,same,beside.rdllink j other]
  · exact beside

/-- A callback of another item does the same on both sides. -/
theorem Beside.other (beside : Beside epi ep v) (different : i ≠ epi)
    (ok : step ep (.callback i entry key) = some t) :
    ∃ q, step v (.callback i entry key) = some q ∧ Beside epi t q := by
  obtain ⟨on,⟨⟩⟩ := Option.ite_none_right_eq_some.mp ok
  refine ⟨v.epPollCallback i entry key,?_,?_⟩
  · simp only [step,beside.pwqlist i different,on,if_true]
  · exact (beside.pollFreed different).queueReady different

theorem Beside.keep (beside : Beside epi ep v) (idle : t.ovflist = ep.ovflist)
    (rdllist : t.rdllist.filter (fun i => i ≠ epi) = ep.rdllist.filter fun i => i ≠ epi)
    (rdllink : ∀ i, i ≠ epi → t.rdllink i = ep.rdllink i) (events : ∀ i, i ≠ epi → t.events i = ep.events i)
    (pwqlist : ∀ i, i ≠ epi → t.pwqlist i = ep.pwqlist i) : Beside epi t v := by
  refine ⟨⟨idle.trans beside.idle.1,beside.idle.2⟩,by rw [beside.rdllist,rdllist],?_,?_,?_⟩
  · intro i other
    rw [rdllink i other,beside.rdllink i other]
  · intro i other
    rw [events i other,beside.events i other]
  · intro i other
    rw [pwqlist i other,beside.pwqlist i other]

/-- The item itself joins the ready list. -/
theorem Beside.queued (beside : Beside epi ep v) : Beside epi ((ep.listAddTail epi).epPmStayAwake epi) v := by
  refine beside.keep rfl ?_ ?_ (fun _ _ => rfl) (fun _ _ => rfl)
  · simp [Eventpoll.epPmStayAwake,Eventpoll.listAddTail]
  · intro i other
    exact Function.update_of_ne other _ _

/-- A callback of the item itself changes nothing for the others. -/
theorem Beside.self (beside : Beside epi ep v) (ok : step ep (.callback epi entry key) = some t) : Beside epi t v := by
  obtain ⟨on,⟨⟩⟩ := Option.ite_none_right_eq_some.mp ok
  have freed : Beside epi (ep.pollFreed epi entry key) v := by
    unfold Eventpoll.pollFreed
    split
    · exact beside.keep rfl rfl (fun _ _ => rfl) (fun _ _ => rfl) (fun i other => Function.update_of_ne other _ _)
    · exact beside
  unfold Eventpoll.epPollCallback Eventpoll.queueReady
  rw [freed.idle.1]
  simp only [ne_eq,not_true_eq_false,if_false]
  split_ifs
  · exact freed
  · exact freed.queued
  · exact freed

end

/-- The new item is on no list and on no wait queue. -/
structure Gone (epi : Nat) (ep : Eventpoll) : Prop where
  idle : ep.ovflist = .unlinked
  unready : epi ∉ ep.rdllist
  detached : ∀ w, some w ∉ ep.pwqlist epi

def HookFailed (ls : List InsertLabel) : Prop := ∃ whead, .own (.insertHook whead false) ∈ ls

/-- What the call may change and has not, or no longer. -/
structure Restored (start s : Insertion) : Prop where
  rbr : s.ep.rbr = start.ep.rbr
  fEpLinks : s.fEpLinks = start.fEpLinks
  epollWatches : s.epollWatches = start.epollWatches

/-- `nwait` counts the entries of `pwqlist`; from the first that could not be had it is −1. -/
structure Counted (epi : Nat) (ep : Eventpoll) (failed : Prop) : Prop where
  whole : ¬failed → ep.nwait epi = (ep.pwqlist epi).length
  broken : failed → ep.nwait epi = -1

/-- What the position inside the call says about what it has to undo. -/
def InsertPc.Undoes (args : InsertArgs) (start s : Insertion) (failed : Prop) : InsertPc → Prop
  | .hook | .polled _ => Restored start s ∧ Counted args.epi s.ep failed
  | .check _ | .publish _ => s.ep.rbr = args.epi :: start.ep.rbr ∧ s.fEpLinks = start.fEpLinks ++ [args.epi] ∧
      s.epollWatches = start.epollWatches ∧ s.error = -einval ∧ ¬failed
  | .unregister | .drop => Restored start s ∧ s.error ≠ 0 ∧ (failed → s.error = -enomem)

def InsertStage.Undoes (args : InsertArgs) (start s : Insertion) (failed : Prop) : InsertStage → Prop
  | .readWatches | .allocate =>
      Reached s.ep ∧ s.ep.mtx = .free ∧ args.epi ∉ s.ep.slab ∧ Restored start s ∧ ¬failed
  | .createWakeupSource => Reached s.ep ∧ s.ep.mtx = .insert ⟨.hook,args.epi,args.fullCheck⟩ ∧
      s.ep.rdllink args.epi = false ∧ (∀ w, some w ∉ s.ep.pwqlist args.epi) ∧
      Counted args.epi s.ep False ∧ Restored start s ∧ ¬failed
  | .inside => Reached s.ep ∧ ∃ insert, s.ep.mtx = .insert insert ∧ insert.epi = args.epi ∧
      insert.pc.Undoes args start s failed
  | .returned error => (error ≠ 0 → Restored start s ∧ Gone args.epi s.ep) ∧ (failed → error = -enomem)

section
variable {args : InsertArgs} {start s t : Insertion} {failed : Prop} {epi entry : Nat} {key : BitVec 64} {ep : Eventpoll}

theorem callback_keeps (ok : step s.ep (.callback epi entry key) = some ep) :
    ep.mtx = s.ep.mtx ∧ ep.rbr = s.ep.rbr ∧ ep.nwait = s.ep.nwait ∧ ep.slab = s.ep.slab := by
  cases step_move s.ep ep _ ok <;> exact ⟨rfl,rfl,rfl,rfl⟩

/-- A callback is never for an item on no wait queue, and leaves it where it is. -/
theorem callback_detached {i : Nat} (ok : step s.ep (.callback epi entry key) = some ep)
    (detached : ∀ w, some w ∉ s.ep.pwqlist i) :
    ep.rdllink i = s.ep.rdllink i ∧ (∀ w, some w ∉ ep.pwqlist i) ∧ (i ∈ ep.rdllist → i ∈ s.ep.rdllist) := by
  cases step_move s.ep ep _ ok with
  | refused _ _ _ pwq attached fewer | chained _ _ _ pwq attached fewer =>
    exact ⟨rfl,fun w member => detached w (fewer i w member),fun member => member⟩
  | queued _ _ _ pwq attached fewer =>
    have other : i ≠ epi := by
      rintro rfl
      obtain ⟨w,member⟩ := attached
      exact detached w member
    refine ⟨Function.update_of_ne other _ _,fun w member => detached w (fewer i w member),?_⟩
    intro member
    simpa [Eventpoll.epPmStayAwake,Eventpoll.listAddTail,other] using member

theorem callback_idle (ok : step s.ep (.callback epi entry key) = some ep) (idle : s.ep.ovflist = .unlinked) :
    ep.ovflist = .unlinked := by
  cases step_move s.ep ep _ ok with
  | refused | queued => exact idle
  | chained _ _ _ pwq attached fewer accepted active => exact absurd idle active

/-- A callback may clear an entry of `pwqlist`, it does not take it off. -/
theorem callback_length (ok : step s.ep (.callback epi entry key) = some ep) (i : Nat) :
    (ep.pwqlist i).length = (s.ep.pwqlist i).length := by
  obtain ⟨_,⟨⟩⟩ := Option.ite_none_right_eq_some.mp ok
  have freed : ((s.ep.pollFreed epi entry key).pwqlist i).length = (s.ep.pwqlist i).length := by
    unfold Eventpoll.pollFreed
    split
    · by_cases same : i = epi <;> simp [same]
    · rfl
  rw [← freed]
  unfold Eventpoll.epPollCallback Eventpoll.queueReady
  split_ifs <;> rfl

theorem Counted.callback (counted : Counted args.epi s.ep failed) (ok : step s.ep (.callback epi entry key) = some ep) :
    Counted args.epi ep failed := by
  obtain ⟨_,_,nwait,_⟩ := callback_keeps ok
  refine ⟨?_,?_⟩
  · rw [nwait,callback_length ok]
    exact counted.whole
  · rw [nwait]
    exact counted.broken

theorem Restored.callback (restored : Restored start s) (ok : step s.ep (.callback epi entry key) = some ep) :
    Restored start {s with ep := ep} :=
  ⟨(callback_keeps ok).2.1.trans restored.rbr,restored.fEpLinks,restored.epollWatches⟩

theorem InsertPc.Undoes.callback {pc : InsertPc} (undoes : pc.Undoes args start s failed)
    (ok : step s.ep (.callback epi entry key) = some ep) : pc.Undoes args start {s with ep := ep} failed := by
  obtain ⟨_,rbr,_,_⟩ := callback_keeps ok
  cases pc with
  | hook | polled => exact ⟨undoes.1.callback ok,undoes.2.callback ok⟩
  | check | publish => exact ⟨rbr.trans undoes.1,undoes.2⟩
  | unregister | drop => exact ⟨undoes.1.callback ok,undoes.2⟩

theorem InsertStage.Undoes.callback {stage : InsertStage} (undoes : stage.Undoes args start s failed)
    (ok : step s.ep (.callback epi entry key) = some ep) : stage.Undoes args start {s with ep := ep} failed := by
  obtain ⟨mtx,_,_,slab⟩ := callback_keeps ok
  cases stage with
  | readWatches | allocate =>
    obtain ⟨reached,free,fresh,restored,fine⟩ := undoes
    exact ⟨reached.step ok,mtx.trans free,by rw [slab]; exact fresh,restored.callback ok,fine⟩
  | createWakeupSource =>
    obtain ⟨reached,held,off,detached,counted,restored,fine⟩ := undoes
    obtain ⟨link,still,_⟩ := callback_detached ok detached
    exact ⟨reached.step ok,mtx.trans held,link.trans off,still,counted.callback ok,restored.callback ok,fine⟩
  | inside =>
    obtain ⟨reached,insert,held,item,undoes⟩ := undoes
    exact ⟨reached.step ok,insert,mtx.trans held,item,undoes.callback ok⟩
  | returned error =>
    refine ⟨?_,undoes.2⟩
    intro bad
    obtain ⟨restored,gone⟩ := undoes.1 bad
    obtain ⟨_,still,listed⟩ := callback_detached ok gone.detached
    exact ⟨restored.callback ok,⟨callback_idle ok gone.idle,fun member => gone.unready (listed member),still⟩⟩

theorem undoes_inside (insert : Insert) (here : t.stage = .inside) (reached : Reached t.ep)
    (held : t.ep.mtx = .insert insert) (item : insert.epi = args.epi) (undoes : insert.pc.Undoes args start t failed) :
    t.stage.Undoes args start t failed := by
  rw [here]
  exact ⟨reached,insert,held,item,undoes⟩

theorem Counted.hooked (counted : Counted epi ep failed) (good : 0 ≤ ep.nwait epi) (whead : Nat) :
    Counted epi {ep with
      pwqlist := Function.update ep.pwqlist epi (ep.pwqlist epi ++ [some whead]),
      nwait := Function.update ep.nwait epi (ep.nwait epi + 1)} failed := by
  constructor
  · intro fine
    simp [counted.whole fine]
  · intro broken
    have bad := counted.broken broken
    omega

theorem Counted.sound (counted : Counted epi ep failed) (good : 0 ≤ ep.nwait epi) : ¬failed := by
  intro broken
  have bad := counted.broken broken
  omega

theorem Counted.cause (counted : Counted epi ep failed) (bad : ep.nwait epi < 0) : failed := by
  by_contra fine
  have count := counted.whole fine
  omega

theorem undoes_own {l : Label} (here : s.stage = .inside) (unlinked : args.epi ∉ start.fEpLinks)
    (undoes : s.stage.Undoes args start s failed) (ok : step s.ep l = some ep) (result : s.own args l ep = some t) :
    t.stage.Undoes args start t (failed ∨ ∃ whead, l = .insertHook whead false) := by
  rw [here] at undoes
  obtain ⟨reached,⟨pc,_,fullCheck⟩,held,rfl,undoes⟩ := undoes
  have rep := rep_reached s.ep reached
  have idle := (rep.overflow.resting (by rw [held]; rfl)).1
  obtain ⟨move,same⟩ := own_move held ok result
  have later : Reached t.ep := same ▸ reached.step ok
  have hooks (other : ∀ whead, l ≠ .insertHook whead false) :
      (failed ∨ ∃ whead, l = .insertHook whead false) = failed := by
    simp [other]
  cases move with
  | hooked whead good =>
    rw [hooks (by simp)]
    exact undoes_inside _ here later held rfl ⟨{undoes.1 with},undoes.2.hooked good whead⟩
  | unhooked whead allocated cause =>
    have broken : failed ∨ ∃ i, Label.insertHook whead allocated = .insertHook i false := by
      rcases cause with rfl | bad
      · exact .inr ⟨whead,rfl⟩
      · exact .inl (undoes.2.cause bad)
    exact undoes_inside _ here later held rfl ⟨{undoes.1 with},fun fine => absurd broken fine,fun _ => by simp⟩
  | polled mask =>
    rw [hooks (by simp)]
    exact undoes_inside _ here later rfl rfl ⟨{undoes.1 with},{undoes.2 with}⟩
  | linked revents good =>
    rw [hooks (by simp)]
    refine undoes_inside _ here later rfl rfl ⟨?_,?_,undoes.1.epollWatches,rfl,undoes.2.sound good⟩
    · exact congrArg (List.cons args.epi) undoes.1.rbr
    · exact congrArg (· ++ [args.epi]) undoes.1.fEpLinks
  | unhookable revents bad =>
    exact undoes_inside _ here later rfl rfl ⟨{undoes.1 with},(by decide : -enomem ≠ 0),fun _ => rfl⟩
  | unregister =>
    rw [hooks (by simp)]
    exact undoes_inside _ here later rfl rfl ⟨{undoes.1 with},undoes.2⟩
  | rejected revents full =>
    rw [hooks (by simp)]
    obtain ⟨rbr,fEpLinks,watches,error,sound⟩ := undoes
    refine undoes_inside _ here later rfl rfl ⟨⟨?_,?_,watches⟩,?_,fun broken => absurd broken sound⟩
    · change s.ep.rbr.erase args.epi = start.ep.rbr
      rw [rbr,List.erase_cons_head]
    · change s.fEpLinks.erase args.epi = start.fEpLinks
      rw [fEpLinks,List.erase_append_right _ unlinked]
      simp
    · change s.error ≠ 0
      rw [error]
      decide
  | checked revents tooManyPaths passes =>
    rw [hooks (by simp)]
    exact undoes_inside _ here later rfl rfl undoes
  | published revents | queuedNew revents =>
    rw [hooks (by simp)]
    exact ⟨fun bad => absurd rfl bad,fun broken => absurd broken undoes.2.2.2.2⟩
  | dropped off =>
    rw [hooks (by simp)]
    have absent := (rep.lists.unlinked args.epi (rep.position.inserting _ held)).mp off
    refine ⟨fun _ => ⟨{undoes.1 with},?_⟩,undoes.2.2⟩
    exact ⟨idle,fun member => absent (List.mem_append.mpr (.inl member)),rep.position.unregistered _ held rfl⟩
  | unqueued on =>
    rw [hooks (by simp)]
    have absent := rep.lists.mem_delInit args.epi args.epi
    refine ⟨fun _ => ⟨{undoes.1 with},?_⟩,undoes.2.2⟩
    exact ⟨idle,fun member => (absent.mp (List.mem_append.mpr (.inl member))).1 rfl,rep.position.unregistered _ held rfl⟩

/-- What the call does to the eventpoll concerns its own item. -/
theorem beside_own {l : Label} {v : Eventpoll} (here : s.stage = .inside) (undoes : s.stage.Undoes args start s failed)
    (ok : step s.ep l = some ep) (result : s.own args l ep = some t) (beside : Beside args.epi s.ep v) :
    Beside args.epi t.ep v := by
  rw [here] at undoes
  obtain ⟨reached,⟨pc,_,fullCheck⟩,held,rfl,_⟩ := undoes
  cases (own_move held ok result).1 with
  | hooked | unregister =>
    exact beside.keep rfl rfl (fun _ _ => rfl) (fun _ _ => rfl) (fun i other => Function.update_of_ne other _ _)
  | unhooked | polled | linked | unhookable | rejected | checked | published | dropped =>
    exact beside.keep rfl rfl (fun _ _ => rfl) (fun _ _ => rfl) (fun _ _ => rfl)
  | queuedNew => exact {beside.queued with}
  | unqueued =>
    refine beside.keep rfl ?_ (fun i other => Function.update_of_ne other _ _) (fun _ _ => rfl) (fun _ _ => rfl)
    have distinct := (List.nodup_append.mp (rep_reached s.ep reached).lists.distinct).1
    simp only [Eventpoll.listDelInit,distinct.erase_eq_filter,List.filter_filter]
    apply List.filter_congr
    intro i _
    by_cases own : i = args.epi <;> simp [own]

theorem beside_begin {v : Eventpoll} (beside : Beside args.epi s.ep v)
    (ok : step s.ep (.insertBegin args.epi args.ffd args.events args.data args.fullCheck) = some ep) :
    Beside args.epi ep v := by
  obtain ⟨_,⟨⟩⟩ := Option.ite_none_right_eq_some.mp ok
  exact beside.keep rfl rfl (fun i other => Function.update_of_ne other _ _) (fun i other => Function.update_of_ne other _ _)
    (fun i other => Function.update_of_ne other _ _)

/-- The call amid its work: what it has to undo, and the eventpoll without it. -/
structure Amid (args : InsertArgs) (start : Insertion) (past : List InsertLabel) (s : Insertion) : Prop where
  undoes : s.stage.Undoes args start s (HookFailed past)
  beside : ∃ v, Run step start.ep (others args.epi past) v ∧ Beside args.epi s.ep v

theorem hookFailed_append (past : List InsertLabel) (l : InsertLabel) :
    HookFailed (past ++ [l]) ↔ HookFailed past ∨ ∃ whead, l = .own (.insertHook whead false) := by
  constructor
  · rintro ⟨whead,member⟩
    rcases List.mem_append.mp member with old | new
    · exact .inl ⟨whead,old⟩
    · exact .inr ⟨whead,(List.mem_singleton.mp new).symm⟩
  · rintro (⟨whead,old⟩ | ⟨whead,rfl⟩)
    · exact ⟨whead,List.mem_append.mpr (.inl old)⟩
    · exact ⟨whead,by simp⟩

/-- A step that is no callback and no failed hook. -/
theorem Amid.quiet {past : List InsertLabel} {l : InsertLabel} (amid : Amid args start past s)
    (silent : others args.epi [l] = []) (other : ∀ whead, l ≠ .own (.insertHook whead false))
    (undoes : t.stage.Undoes args start t (HookFailed past))
    (beside : ∀ v, Beside args.epi s.ep v → Beside args.epi t.ep v) :
    Amid args start (past ++ [l]) t := by
  have same : HookFailed (past ++ [l]) = HookFailed past := by
    apply propext
    rw [hookFailed_append]
    exact ⟨fun either => either.resolve_right (fun ⟨whead,hook⟩ => other whead hook),.inl⟩
  obtain ⟨v,run,near⟩ := amid.beside
  refine ⟨by rw [same]; exact undoes,v,?_,beside v near⟩
  rw [others,List.filterMap_append,← others,← others,silent,List.append_nil]
  exact run

theorem amid_callback {past : List InsertLabel} (amid : Amid args start past s)
    (ok : step s.ep (.callback epi entry key) = some ep) :
    Amid args start (past ++ [.callback epi entry key]) {s with ep := ep} := by
  have same : HookFailed (past ++ [.callback epi entry key]) = HookFailed past := by
    simp [hookFailed_append]
  obtain ⟨v,run,beside⟩ := amid.beside
  refine ⟨by rw [same]; exact amid.undoes.callback ok,?_⟩
  rw [others,List.filterMap_append,← others]
  by_cases mine : epi = args.epi
  · subst mine
    exact ⟨v,by simpa using run,beside.self ok⟩
  · obtain ⟨q,followed,next⟩ := beside.other mine ok
    refine ⟨q,run.append ?_,next⟩
    simpa [mine] using Run.single followed

theorem gone_fresh (rep : Rep s.ep) (free : s.ep.mtx = .free) (fresh : epi ∉ s.ep.slab) : Gone epi s.ep :=
  ⟨(rep.overflow.resting (by rw [free]; rfl)).1,
    fun member => fresh (rep.lists.allocated epi (List.mem_append.mpr (.inl member))),
    fun w member => fresh (rep.lists.attached epi w member)⟩

theorem amid_step {past : List InsertLabel} {l : InsertLabel} (unlinked : args.epi ∉ start.fEpLinks)
    (amid : Amid args start past s) (ok : insertStep args s l = some t) : Amid args start (past ++ [l]) t := by
  have undoes := amid.undoes
  cases insert_move args s t l ok with
  | callback epi entry key ep called => exact amid_callback amid called
  | full here _ | starved here =>
    rw [here] at undoes
    obtain ⟨reached,free,fresh,restored,fine⟩ := undoes
    refine amid.quiet rfl (by simp) ⟨fun _ => ⟨{restored with},?_⟩,fun broken => absurd broken fine⟩
      (fun _ beside => beside)
    exact gone_fresh (rep_reached s.ep reached) free fresh
  | room here =>
    rw [here] at undoes
    obtain ⟨reached,free,fresh,restored,fine⟩ := undoes
    exact amid.quiet rfl (by simp) ⟨reached,free,fresh,{restored with},fine⟩ (fun _ beside => beside)
  | allocated here ep begun =>
    rw [here] at undoes
    obtain ⟨reached,free,fresh,restored,fine⟩ := undoes
    refine amid.quiet rfl (by simp) ?_ (fun _ beside => beside_begin beside begun)
    have later := reached.step begun
    obtain ⟨_,⟨⟩⟩ := Option.ite_none_right_eq_some.mp begun
    exact ⟨later,rfl,Function.update_self _ _ _,by simp [Eventpoll.insertBegin],
      ⟨fun _ => by simp [Eventpoll.insertBegin],fun broken => broken.elim⟩,{restored with},fine⟩
  | source here error =>
    rw [here] at undoes
    obtain ⟨reached,held,_,_,counted,restored,fine⟩ := undoes
    exact amid.quiet rfl (by simp) ⟨reached,_,held,rfl,{restored with},fun _ => counted.whole not_false,
      fun broken => absurd broken fine⟩ (fun _ beside => beside)
  | sourceless here error =>
    rw [here] at undoes
    obtain ⟨reached,held,off,detached,_,restored,fine⟩ := undoes
    have rep := rep_reached s.ep reached
    have absent := (rep.lists.unlinked args.epi (rep.position.inserting _ held)).mp off
    refine amid.quiet rfl (by simp) ⟨fun _ => ⟨{restored with},?_⟩,fun broken => absurd broken fine⟩
      (fun _ beside => {beside with})
    exact ⟨(rep.overflow.resting (by rw [held]; rfl)).1,
      fun member => absent (List.mem_append.mpr (.inl member)),detached⟩
  | own here l ep moved t result =>
    obtain ⟨v,run,beside⟩ := amid.beside
    refine ⟨?_,v,?_,beside_own here undoes moved result beside⟩
    · have next := undoes_own here unlinked undoes moved result
      simpa [hookFailed_append] using next
    · simpa [others,List.filterMap_append] using run

theorem Gone.unchained (gone : Gone epi ep) : epi ∉ ep.overflow := by
  rw [Eventpoll.overflow,gone.idle]
  cases ep.slab.length <;> simp [follow]

theorem Gone.filter (gone : Gone epi ep) : ep.rdllist.filter (fun i => i ≠ epi) = ep.rdllist := by
  apply List.filter_eq_self.mpr
  intro i member
  apply decide_eq_true
  rintro rfl
  exact gone.unready member

theorem amid_start (reached : Reached start.ep) (free : start.ep.mtx = .free) (first : start.stage = .readWatches)
    (fresh : args.epi ∉ start.ep.slab) : Amid args start [] start := by
  have gone := gone_fresh (rep_reached start.ep reached) free fresh
  refine ⟨?_,start.ep,.nil start.ep,⟨gone.idle,gone.idle⟩,gone.filter.symm,fun _ _ => rfl,fun _ _ => rfl,
    fun _ _ => rfl⟩
  rw [first]
  exact ⟨reached,free,fresh,⟨rfl,rfl,rfl⟩,by simp [HookFailed]⟩

theorem amid_run {ls : List InsertLabel} {u : Insertion} (reached : Reached start.ep) (free : start.ep.mtx = .free)
    (first : start.stage = .readWatches) (fresh : args.epi ∉ start.ep.slab) (unlinked : args.epi ∉ start.fEpLinks)
    (run : Run (insertStep args) start ls u) : Amid args start ls u :=
  run.history (Amid args start) (fun _ _ _ _ => amid_step unlinked) (amid_start reached free first fresh)

/-- While the wait queues are hooked up, `nwait` is their number or tells of the first failure. -/
theorem nwait_counted {ls : List InsertLabel} {u : Insertion} {insert : Insert} (reached : Reached start.ep)
    (free : start.ep.mtx = .free) (first : start.stage = .readWatches) (fresh : args.epi ∉ start.ep.slab)
    (unlinked : args.epi ∉ start.fEpLinks) (run : Run (insertStep args) start ls u) (here : u.stage = .inside)
    (held : u.ep.mtx = .insert insert) (pc : insert.pc = .hook) : Counted args.epi u.ep (HookFailed ls) := by
  have undoes := (amid_run reached free first fresh unlinked run).undoes
  rw [here] at undoes
  obtain ⟨_,now,found,_,undoes⟩ := undoes
  rw [held] at found
  cases found
  rw [pc] at undoes
  exact undoes.2

end

/-- An error of `ep_insert` leaves no trace: the interest set, the list of the file and the watches are
as before the call, the new item is nowhere, and the ready list is what the callbacks of the others
alone make of it. A hook that fails is such an error. -/
theorem failed_insert_traceless (args : InsertArgs) (start u : Insertion) (ls : List InsertLabel) (error : Int)
    (reached : Reached start.ep) (free : start.ep.mtx = .free) (first : start.stage = .readWatches)
    (fresh : args.epi ∉ start.ep.slab) (unlinked : args.epi ∉ start.fEpLinks)
    (run : Run (insertStep args) start ls u) (returned : u.stage = .returned error) :
    (error ≠ 0 →
      u.ep.rbr = start.ep.rbr ∧ u.fEpLinks = start.fEpLinks ∧ u.epollWatches = start.epollWatches ∧
      args.epi ∉ u.ep.rdllist ∧ args.epi ∉ u.ep.overflow ∧ (∀ w, some w ∉ u.ep.pwqlist args.epi) ∧
      ∃ v, Run step start.ep (others args.epi ls) v ∧ u.ep.rdllist = v.rdllist) ∧
    (HookFailed ls → error = -enomem) := by
  have amid := amid_run reached free first fresh unlinked run
  have undoes := amid.undoes
  rw [returned] at undoes
  refine ⟨?_,undoes.2⟩
  intro bad
  obtain ⟨restored,gone⟩ := undoes.1 bad
  obtain ⟨v,alone,beside⟩ := amid.beside
  exact ⟨restored.rbr,restored.fEpLinks,restored.epollWatches,gone.unready,gone.unchained,gone.detached,
    v,alone,(beside.rdllist.trans gone.filter).symm⟩

def insertSeven : InsertArgs := ⟨7,(7,0),pollIn,0,true,10⟩

def besideThree : Insertion := ⟨after (inserting 3 pollIn 0),1,[],.readWatches,0⟩

/-- The second wait queue gets no entry; the first has called back, and so has another item. -/
def failingInsert : List InsertLabel :=
  [.readWatches,.allocate true,.createWakeupSource 0,.own (.insertHook 0 true),.callback 7 0 0,.callback 3 0 0,
    .own (.insertHook 1 false),.own (.insertPoll pollIn),.own .insertTick,.own .insertTick,.own (.insertDrop 7)]

theorem failed_insert_traceless_hook :
    (final (insertStep insertSeven) besideThree failingInsert).stage = .returned (-enomem) ∧
      (final (insertStep insertSeven) besideThree failingInsert).ep.rbr = [3] ∧
      ∃ v, Run step besideThree.ep [.callback 3 0 0] v ∧
        (final (insertStep insertSeven) besideThree failingInsert).ep.rdllist = v.rdllist := by
  have returned : (final (insertStep insertSeven) besideThree failingInsert).stage = .returned (-enomem) := by decide
  have traceless := failed_insert_traceless insertSeven besideThree _ failingInsert (-enomem)
    (after_reached (inserting 3 pollIn 0) (by decide)) (by decide) rfl (by decide) (by decide)
    (final_run _ _ _ (by decide)) returned
  obtain ⟨rbr,_,_,_,_,_,alone⟩ := traceless.1 (by decide)
  exact ⟨returned,rbr.trans (by decide),alone⟩

end Reactor.Epoll
