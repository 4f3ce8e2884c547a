import Reactor.Epoll.Control
import Reactor.Epoll.InsertFailure
import Reactor.Epoll.Watches

/-! Three views of `ep_insert` and how they agree: the steps it takes on the eventpoll
while callbacks go on, the function `epoll_ctl` calls on the interest sets, and the parts
in which inserts into different eventpolls share the counter of watches. What the steps
return and leave behind is what the other two say. -/
namespace Reactor.Epoll
open Reactor.Transition

def InsertPc.linked : InsertPc → Bool
  | .check _ | .publish _ => true
  | _ => false

/-- The tree holds allocated items, and the one being inserted exactly while it is linked. -/
structure Treed (ep : Eventpoll) : Prop where
  distinct : ep.rbr.Nodup
  allocated : ∀ i ∈ ep.rbr, i ∈ ep.slab
  inserting : ∀ insert, ep.mtx = .insert insert → (insert.epi ∈ ep.rbr ↔ insert.pc.linked = true)

section
variable {ep t : Eventpoll} {l : Label}

theorem Treed.frame (treed : Treed ep) (rbr : t.rbr = ep.rbr) (slab : t.slab = ep.slab)
    (inserting : ∀ insert, t.mtx = .insert insert → (insert.epi ∈ ep.rbr ↔ insert.pc.linked = true)) : Treed t := by
  refine ⟨rbr ▸ treed.distinct,?_,rbr ▸ inserting⟩
  rw [rbr,slab]
  exact treed.allocated

theorem Treed.away (treed : Treed ep) (rbr : t.rbr = ep.rbr) (slab : t.slab = ep.slab)
    (away : ∀ insert, t.mtx ≠ .insert insert) : Treed t :=
  treed.frame rbr slab fun insert held => absurd held (away insert)

/-- The insertion goes on with the tree as it is. -/
theorem Treed.pc {insert : Insert} (treed : Treed ep) (held : ep.mtx = .insert insert) (pc : InsertPc)
    (same : pc.linked = insert.pc.linked) (now : Insert) (found : Holder.insert {insert with pc := pc} = .insert now) :
    now.epi ∈ ep.rbr ↔ now.pc.linked = true := by
  cases found
  exact same ▸ treed.inserting insert held

theorem Treed.dropped {insert : Insert} (treed : Treed ep) (held : ep.mtx = .insert insert) (here : insert.pc = .drop)
    (rbr : t.rbr = ep.rbr) (slab : t.slab = ep.slab.erase insert.epi) (free : t.mtx = .free) : Treed t := by
  have unlinked : insert.epi ∉ ep.rbr := by
    rw [treed.inserting insert held,here]
    simp [InsertPc.linked]
  refine ⟨rbr ▸ treed.distinct,?_,by simp [free]⟩
  rw [rbr,slab]
  intro i member
  have other : i ≠ insert.epi := by
    rintro rfl
    exact unlinked member
  exact (List.mem_erase_of_ne other).mpr (treed.allocated i member)

theorem treed_move (rep : Rep ep) (treed : Treed ep) (move : Move ep l t) : Treed t := by
  cases move with
  | insertBegin epi ffd events data fullCheck free fresh =>
    refine ⟨treed.distinct,fun i member => List.mem_cons_of_mem epi (treed.allocated i member),?_⟩
    rintro insert ⟨⟩
    simpa [InsertPc.linked,Eventpoll.insertBegin] using fun member => fresh (treed.allocated epi member)
  | insertPoll insert mask held here =>
    exact treed.frame rfl rfl (treed.pc held _ (by rw [here]; rfl))
  | linked insert revents held here =>
    have unlinked : insert.epi ∉ ep.rbr := by
      rw [treed.inserting insert held,here]
      simp [InsertPc.linked]
    refine ⟨List.nodup_cons.mpr ⟨unlinked,treed.distinct⟩,?_,?_⟩
    · intro i member
      rcases List.mem_cons.mp member with rfl | old
      · exact rep.position.inserting insert held
      · exact treed.allocated i old
    · rintro now ⟨⟩
      simp [InsertPc.linked,Eventpoll.withInsertPc]
  | unhookable insert revents held here =>
    exact treed.frame rfl rfl (treed.pc held _ (by rw [here]; rfl))
  | unregister insert held here =>
    exact treed.frame rfl rfl (treed.pc held _ (by rw [here]; rfl))
  | rejected insert revents held here =>
    refine ⟨treed.distinct.erase _,fun i member => treed.allocated i (List.mem_of_mem_erase member),?_⟩
    rintro now ⟨⟩
    simpa [InsertPc.linked,Eventpoll.withInsertPc] using treed.distinct.not_mem_erase
  | checked insert revents tooManyPaths held here =>
    exact treed.frame rfl rfl (treed.pc held _ (by rw [here]; rfl))
  | published insert revents held here => exact treed.away rfl rfl (by rintro insert ⟨⟩)
  | queuedNew insert revents held here => exact treed.away rfl rfl (by rintro insert ⟨⟩)
  | dropped insert held here => exact treed.dropped held here rfl rfl rfl
  | unqueued insert held here => exact treed.dropped held here rfl rfl rfl
  | scanEnd scan fault drained held here ended =>
    obtain ⟨ns,_,result⟩ := rep.drains (by rw [held]; rfl)
    cases result.symm.trans ended
    exact treed.away (drained_rbr ns ep) (drained_slab ns ep) (by rintro insert ⟨⟩)
  | refused | chained | queued | modify | hooked | unhooked => exact treed.frame rfl rfl treed.inserting
  | _ => exact treed.away rfl rfl (by rintro insert ⟨⟩)

theorem treed_reached (reached : Reached ep) : Treed ep := by
  refine (reached.invariant (fun ep => Rep ep ∧ Treed ep) ?_ ?_).2
  · intro ep blank
    obtain ⟨free,_,_,_,_,rbr,_⟩ := id blank
    exact ⟨rep_epAlloc ep blank,by simp [rbr],by simp [rbr],by simp [free]⟩
  · rintro ep l t ⟨rep,treed⟩ ok
    have move := step_move ep t l ok
    exact ⟨rep_move ep t l rep move,treed_move rep treed move⟩

end

def InsertArgs.item (args : InsertArgs) (file : Nat) : Item := ⟨⟨file,args.ffd.1,args.ffd.2⟩,args.events,args.data⟩

/-- An item of the eventpoll behind the epoll file `file`. -/
def Eventpoll.item (ep : Eventpoll) (file epi : Nat) : Item :=
  ⟨⟨file,(ep.ffd epi).1,(ep.ffd epi).2⟩,ep.events epi,ep.data epi⟩

def Eventpoll.items (ep : Eventpoll) (file : Nat) : List Item := ep.rbr.map (ep.item file)

/-- The call got through to the poll hooks. -/
structure SetUp (args : InsertArgs) (start : Insertion) (past : List InsertLabel) : Prop where
  room : start.epollWatches < args.maxUserWatches
  got : .allocate true ∈ past
  source : ∃ error, .createWakeupSource error ∈ past ∧ (hits args.events epollWakeup = true → error = 0)

/-- Why the call returned what it did. -/
inductive InsertOutcome (args : InsertArgs) (start : Insertion) (past : List InsertLabel) : Int → Prop
  | full (limit : args.maxUserWatches ≤ start.epollWatches) : InsertOutcome args start past (-enospc)
  | starved (room : start.epollWatches < args.maxUserWatches) (refused : .allocate false ∈ past) :
      InsertOutcome args start past (-enomem)
  | sourceless (room : start.epollWatches < args.maxUserWatches) (got : .allocate true ∈ past) (error : Int)
      (asked : .createWakeupSource error ∈ past) (needed : hits args.events epollWakeup = true) (bad : error ≠ 0) :
      InsertOutcome args start past error
  | unhooked (ready : SetUp args start past) (failed : HookFailed past) : InsertOutcome args start past (-enomem)
  | rejected (ready : SetUp args start past) (full : args.fullCheck = true) (many : .own (.insertCheck true) ∈ past) :
      InsertOutcome args start past (-einval)
  | inserted (ready : SetUp args start past)
      (passed : ∃ tooMany, .own (.insertCheck tooMany) ∈ past ∧ (args.fullCheck && tooMany) = false) :
      InsertOutcome args start past 0

def InsertPc.Explains (args : InsertArgs) (past : List InsertLabel) (s : Insertion) : InsertPc → Prop
  | .publish _ => ∃ tooMany, .own (.insertCheck tooMany) ∈ past ∧ (args.fullCheck && tooMany) = false
  | .unregister | .drop => s.error = -enomem ∧ HookFailed past ∨
      s.error = -einval ∧ args.fullCheck = true ∧ .own (.insertCheck true) ∈ past
  | _ => True

/-- What the place says about the answers the call got on its way. -/
def InsertStage.Explains (args : InsertArgs) (start : Insertion) (past : List InsertLabel) (s : Insertion) :
    InsertStage → Prop
  | .readWatches => True
  | .allocate => start.epollWatches < args.maxUserWatches
  | .createWakeupSource => start.epollWatches < args.maxUserWatches ∧ .allocate true ∈ past ∧
      ∀ file, s.ep.item file args.epi = args.item file
  | .inside => SetUp args start past ∧ (∀ file, s.ep.item file args.epi = args.item file) ∧
      ∃ pc, s.ep.mtx = .insert ⟨pc,args.epi,args.fullCheck⟩ ∧ pc.Explains args past s
  | .returned error => InsertOutcome args start past error ∧ (error = 0 →
      s.ep.rbr = args.epi :: start.ep.rbr ∧ s.epollWatches = start.epollWatches + 1 ∧
      ∀ file, s.ep.item file args.epi = args.item file)

/-- The call on its way, with what it finds and what it leaves alone. -/
structure Explained (args : InsertArgs) (start : Insertion) (past : List InsertLabel) (s : Insertion) : Prop where
  amid : Amid args start past s
  others : ∀ i, i ≠ args.epi → ∀ file, s.ep.item file i = start.ep.item file i
  stage : s.stage.Explains args start past s

section
variable {args : InsertArgs} {start s t : Insertion} {past : List InsertLabel} {l : InsertLabel} {k : Label}
  {ep : Eventpoll} {epi entry : Nat} {key : BitVec 64}

theorem SetUp.later (ready : SetUp args start past) (l : InsertLabel) : SetUp args start (past ++ [l]) := by
  obtain ⟨room,got,error,asked,fine⟩ := ready
  exact ⟨room,List.mem_append_left _ got,error,List.mem_append_left _ asked,fine⟩

theorem hookFailed_later (failed : HookFailed past) (l : InsertLabel) : HookFailed (past ++ [l]) :=
  (hookFailed_append past l).mpr (.inl failed)

theorem InsertOutcome.later {error : Int} (outcome : InsertOutcome args start past error) (l : InsertLabel) :
    InsertOutcome args start (past ++ [l]) error := by
  cases outcome with
  | full limit => exact .full limit
  | starved room refused => exact .starved room (List.mem_append_left _ refused)
  | sourceless room got _ asked needed bad =>
    exact .sourceless room (List.mem_append_left _ got) error (List.mem_append_left _ asked) needed bad
  | unhooked ready failed => exact .unhooked (ready.later l) (hookFailed_later failed l)
  | rejected ready full many => exact .rejected (ready.later l) full (List.mem_append_left _ many)
  | inserted ready passed =>
    obtain ⟨tooMany,asked,fine⟩ := passed
    exact .inserted (ready.later l) ⟨tooMany,List.mem_append_left _ asked,fine⟩

theorem InsertPc.Explains.later {pc : InsertPc} (explains : pc.Explains args past s) (l : InsertLabel)
    (same : t.error = s.error) : pc.Explains args (past ++ [l]) t := by
  cases pc with
  | publish revents =>
    obtain ⟨tooMany,asked,fine⟩ := explains
    exact ⟨tooMany,List.mem_append_left _ asked,fine⟩
  | unregister | drop =>
    rcases explains with ⟨error,failed⟩ | ⟨error,full,many⟩
    · exact .inl ⟨same.trans error,hookFailed_later failed l⟩
    · exact .inr ⟨same.trans error,full,List.mem_append_left _ many⟩
  | _ => trivial

theorem callback_item (ok : step s.ep (.callback epi entry key) = some ep) : ep.item = s.ep.item := by
  cases step_move s.ep ep _ ok <;> rfl

theorem OwnMove.item {fullCheck : Bool} {pc : InsertPc} (move : OwnMove epi fullCheck s pc k t) :
    t.ep.item = s.ep.item := by
  cases move <;> rfl

theorem explains_callback (explains : s.stage.Explains args start past s)
    (ok : step s.ep (.callback epi entry key) = some ep) :
    s.stage.Explains args start (past ++ [.callback epi entry key]) {s with ep := ep} := by
  have memory := callback_item ok
  obtain ⟨mtx,rbr,_,_⟩ := callback_keeps ok
  cases here : s.stage with
  | readWatches => trivial
  | allocate =>
    rw [here] at explains
    exact explains
  | createWakeupSource =>
    rw [here] at explains
    obtain ⟨room,got,own⟩ := explains
    refine ⟨room,List.mem_append_left _ got,?_⟩
    rw [memory]
    exact own
  | inside =>
    rw [here] at explains
    obtain ⟨ready,own,pc,held,explains⟩ := explains
    refine ⟨ready.later _,?_,pc,mtx.trans held,explains.later _ rfl⟩
    rw [memory]
    exact own
  | returned error =>
    rw [here] at explains
    refine ⟨explains.1.later _,fun fine => ?_⟩
    obtain ⟨linked,watches,own⟩ := explains.2 fine
    refine ⟨rbr.trans linked,watches,?_⟩
    rw [memory]
    exact own

theorem explains_own (here : s.stage = .inside) (undoes : s.stage.Undoes args start s (HookFailed past))
    (explains : s.stage.Explains args start past s) (ok : step s.ep k = some ep) (result : s.own args k ep = some t) :
    t.stage.Explains args start (past ++ [.own k]) t ∧ t.ep.item = s.ep.item := by
  rw [here] at undoes explains
  obtain ⟨ready,own,pc,held,explains⟩ := explains
  obtain ⟨_,_,found,_,undoes⟩ := undoes
  cases held.symm.trans found
  obtain ⟨move,_⟩ := own_move held ok result
  refine ⟨?_,move.item⟩
  have ready := ready.later (.own k)
  have own : ∀ file, t.ep.item file args.epi = args.item file := by
    rw [move.item]
    exact own
  have inside (next : InsertPc) (still : t.stage = .inside) (held : t.ep.mtx = .insert ⟨next,args.epi,args.fullCheck⟩)
      (explains : next.Explains args (past ++ [.own k]) t) : t.stage.Explains args start (past ++ [.own k]) t := by
    rw [still]
    exact ⟨ready,own,next,held,explains⟩
  cases move with
  | hooked | unhooked => exact inside .hook here held trivial
  | polled mask => exact inside (.polled _) here rfl trivial
  | linked revents => exact inside (.check revents) here rfl trivial
  | unhookable revents bad => exact inside .unregister here rfl (.inl ⟨rfl,hookFailed_later (undoes.2.cause bad) _⟩)
  | unregister =>
    have drops : InsertPc.drop.Explains args past s := explains
    exact inside .drop here rfl (drops.later _ rfl)
  | rejected revents full =>
    exact inside .unregister here rfl (.inr ⟨undoes.2.2.2.1,full,List.mem_append_right _ List.mem_cons_self⟩)
  | checked revents tooManyPaths passes =>
    exact inside (.publish revents) here rfl ⟨tooManyPaths,List.mem_append_right _ List.mem_cons_self,passes⟩
  | published | queuedNew =>
    obtain ⟨tooMany,asked,fine⟩ := explains
    refine ⟨.inserted ready ⟨tooMany,List.mem_append_left _ asked,fine⟩,fun _ => ⟨undoes.1,?_,own⟩⟩
    exact congrArg (· + 1) undoes.2.2.1
  | dropped | unqueued =>
    change InsertOutcome _ _ _ s.error ∧ (s.error = 0 → _)
    rcases explains with ⟨error,failed⟩ | ⟨error,full,many⟩
    · rw [error]
      exact ⟨.unhooked ready (hookFailed_later failed _),fun fine => absurd fine (by decide)⟩
    · rw [error]
      exact ⟨.rejected ready full (List.mem_append_left _ many),fun fine => absurd fine (by decide)⟩

theorem explained_step (unlinked : args.epi ∉ start.fEpLinks) (explained : Explained args start past s)
    (ok : insertStep args s l = some t) : Explained args start (past ++ [l]) t := by
  obtain ⟨amid,others,explains⟩ := explained
  have undoes := amid.undoes
  refine ⟨amid_step unlinked amid ok,?_,?_⟩
  · intro i other file
    rw [← others i other file]
    cases insert_move args s t l ok with
    | callback epi entry key ep called => exact congrFun (congrFun (callback_item called) file) i
    | own here k ep moved t result =>
      exact congrFun (congrFun (explains_own here undoes explains moved result).2 file) i
    | allocated here ep begun =>
      obtain ⟨_,⟨⟩⟩ := Option.ite_none_right_eq_some.mp begun
      simp [Eventpoll.item,Eventpoll.insertBegin,other]
    | _ => rfl
  · cases insert_move args s t l ok with
    | callback epi entry key ep called => exact explains_callback explains called
    | full here limit =>
      rw [here] at undoes
      exact ⟨.full (undoes.2.2.2.1.epollWatches ▸ limit),fun fine => absurd fine (by decide)⟩
    | room here below =>
      rw [here] at undoes
      exact undoes.2.2.2.1.epollWatches ▸ below
    | starved here =>
      rw [here] at explains
      exact ⟨.starved explains (List.mem_append_right _ List.mem_cons_self),fun fine => absurd fine (by decide)⟩
    | allocated here ep begun =>
      rw [here] at explains
      obtain ⟨_,⟨⟩⟩ := Option.ite_none_right_eq_some.mp begun
      refine ⟨explains,List.mem_append_right _ List.mem_cons_self,fun file => ?_⟩
      simp [Eventpoll.item,Eventpoll.insertBegin,InsertArgs.item]
    | sourceless here error needed bad =>
      rw [here] at explains
      obtain ⟨room,got,_⟩ := explains
      have asked : .createWakeupSource error ∈ past ++ [.createWakeupSource error] :=
        List.mem_append_right _ List.mem_cons_self
      exact ⟨.sourceless room (List.mem_append_left _ got) error asked needed bad,fun fine => absurd fine bad⟩
    | source here error fine =>
      rw [here] at explains undoes
      obtain ⟨room,got,own⟩ := explains
      have asked : .createWakeupSource error ∈ past ++ [.createWakeupSource error] :=
        List.mem_append_right _ List.mem_cons_self
      exact ⟨⟨room,List.mem_append_left _ got,error,asked,fine⟩,own,.hook,undoes.2.1,trivial⟩
    | own here k ep moved t result => exact (explains_own here undoes explains moved result).1

theorem explained_run {ls : List InsertLabel} {u : Insertion} (reached : Reached start.ep) (free : start.ep.mtx = .free)
    (first : start.stage = .readWatches) (fresh : args.epi ∉ start.ep.slab) (unlinked : args.epi ∉ start.fEpLinks)
    (run : Run (insertStep args) start ls u) : Explained args start ls u := by
  have begun : Explained args start [] start := by
    refine ⟨amid_start reached free first fresh,fun _ _ _ => rfl,?_⟩
    rw [first]
    trivial
  exact run.history (Explained args start) (fun _ _ _ _ => explained_step unlinked) begun

end

/-- The call as one function is given what the steps find. -/
structure Agrees (args : InsertArgs) (start : Insertion) (ls : List InsertLabel) (env : InsertEnv)
    (tooManyPaths : Bool) : Prop where
  watchesLeft : env.watchesLeft = decide (start.epollWatches < args.maxUserWatches)
  allocated : ∀ got, .allocate got ∈ ls → got = env.allocated
  wakeupSource : ∀ error, .createWakeupSource error ∈ ls → error = env.wakeupSource
  hooked : HookFailed ls ↔ env.hooked = false
  paths : ∀ tooMany, .own (.insertCheck tooMany) ∈ ls → args.fullCheck = true → tooMany = tooManyPaths

section
variable {args : InsertArgs} {start u : Insertion} {ls : List InsertLabel} {env : InsertEnv} {error : Int} {file : Nat}

theorem SetUp.epInsert {tooManyPaths : Bool} (ready : SetUp args start ls)
    (agrees : Agrees args start ls env tooManyPaths) (items : List Item) :
    epInsert env items (args.item file) =
      if env.hooked then .ok (args.item file :: items) else .error (-enomem) := by
  obtain ⟨room,got,error,asked,fine⟩ := ready
  have watches : env.watchesLeft = true := by simpa [agrees.watchesLeft] using room
  have allocated := agrees.allocated true got
  have source : ¬(hits (args.item file).events epollWakeup && decide (env.wakeupSource ≠ 0)) = true := by
    rw [← agrees.wakeupSource error asked]
    simpa [InsertArgs.item] using fine
  rw [Epoll.epInsert,if_neg (by simp [watches]),if_neg (by simp [← allocated]),if_neg source]
  cases env.hooked <;> rfl

theorem InsertOutcome.ctlInsert (k : Kernel) (s : Interest) (outcome : InsertOutcome args start ls error)
    (agrees : Agrees args start ls env (reversePathCheck k {s with items := args.item file :: s.items}))
    (hooks : HookFailed ls → error = -enomem) :
    s.ctlInsert k env args.fullCheck (args.item file) =
      (error,if error = 0 then {s with items := args.item file :: s.items} else s) := by
  have hooked (other : error ≠ -enomem) : env.hooked = true := by
    rw [← Bool.not_eq_false,← agrees.hooked]
    exact fun failed => other (hooks failed)
  unfold Interest.ctlInsert
  cases outcome with
  | full limit =>
    have watches : env.watchesLeft = false := by simpa [agrees.watchesLeft] using limit
    simp [epInsert,watches,enospc]
  | starved room refused =>
    have watches : env.watchesLeft = true := by simpa [agrees.watchesLeft] using room
    simp [epInsert,watches,← agrees.allocated false refused,enomem]
  | sourceless room got error asked needed bad =>
    have watches : env.watchesLeft = true := by simpa [agrees.watchesLeft] using room
    have source := agrees.wakeupSource error asked
    simp [epInsert,watches,← agrees.allocated true got,InsertArgs.item,needed,← source,bad]
  | unhooked ready failed => simp [ready.epInsert agrees,agrees.hooked.mp failed,enomem]
  | rejected ready full many =>
    have paths := agrees.paths true many full
    simp [ready.epInsert agrees,hooked (by decide),full,← paths,einval]
  | inserted ready passed =>
    obtain ⟨tooMany,asked,fine⟩ := passed
    have paths : (args.fullCheck && reversePathCheck k {s with items := args.item file :: s.items}) = false := by
      cases full : args.fullCheck with
      | false => rfl
      | true => rwa [full,agrees.paths tooMany asked full] at fine
    simp [ready.epInsert agrees,hooked (by decide),paths]

end

section
variable {args : InsertArgs} {start u : Insertion} {ls : List InsertLabel} {error : Int} {file : Nat}

/-- What the call leaves of the interest set. -/
theorem Explained.items (explained : Explained args start ls u) (returned : u.stage = .returned error)
    (unlisted : args.epi ∉ start.ep.rbr) :
    u.ep.items file = if error = 0 then args.item file :: start.ep.items file else start.ep.items file := by
  have others : start.ep.rbr.map (u.ep.item file) = start.ep.items file := by
    refine List.map_congr_left fun i member => explained.others i ?_ file
    rintro rfl
    exact unlisted member
  have undoes := explained.amid.undoes
  have stage := explained.stage
  rw [returned] at undoes stage
  unfold Eventpoll.items at others ⊢
  split
  · next fine =>
    obtain ⟨linked,_,own⟩ := stage.2 fine
    rw [linked,List.map_cons,others,own]
  · next bad => rw [(undoes.1 bad).1.rbr,others]

/-- `ep_insert` in steps returns what the one function returns, and leaves the interest set that
the function leaves, whatever callbacks come in between. -/
theorem insert_refines_ctlInsert (k : Kernel) (env : InsertEnv) (s : Interest) (reached : Reached start.ep)
    (free : start.ep.mtx = .free) (first : start.stage = .readWatches) (fresh : args.epi ∉ start.ep.slab)
    (unlinked : args.epi ∉ start.fEpLinks) (run : Run (insertStep args) start ls u)
    (returned : u.stage = .returned error)
    (agrees : Agrees args start ls env (reversePathCheck k {s with items := args.item file :: s.items}))
    (same : s.items.filter (fun item => item.key.ep = file) = start.ep.items file) :
    ∃ v, s.ctlInsert k env args.fullCheck (args.item file) = (error,v) ∧
      v.items.filter (fun item => item.key.ep = file) = u.ep.items file := by
  have explained := explained_run reached free first fresh unlinked run
  have undoes := explained.amid.undoes
  have stage := explained.stage
  rw [returned] at undoes stage
  refine ⟨_,stage.1.ctlInsert k s agrees undoes.2,?_⟩
  rw [explained.items returned fun member => fresh ((treed_reached reached).allocated _ member)]
  split
  · rw [List.filter_cons_of_pos (by simp [InsertArgs.item]),same]
  · exact same

end

section
variable {maxUserWatches : Int} {w : Watches} {i : InsertCall} {pc : InsertPart}

theorem find_moved (w : Watches) (i : InsertCall) (pc : InsertPart) :
    Keyed.find InsertCall.thread (w.move i pc).inserts i.thread = some {i with pc := pc} := by
  simp [Keyed.find,Watches.move]

@[simp] theorem move_move (w : Watches) (i : InsertCall) (pc next : InsertPart) :
    (w.move i pc).move {i with pc := pc} next = w.move i next := by
  simp [Watches.move]

@[simp] theorem move_leave (w : Watches) (i : InsertCall) (pc : InsertPart) (error : Int) :
    (w.move i pc).leave {i with pc := pc} error = w.leave i error := by
  simp [Watches.move,Watches.leave]

/-- One part of the insert is done. -/
theorem succeed_moved {v : Watches} (ok : (w.move i pc).succeed {i with pc := pc} = some v) :
    watchStep maxUserWatches (w.move i pc) (.succeed i.thread) = some v := by
  rw [watchStep,find_moved]
  exact ok

theorem fail_moved {error : Int} (fails : pc.fails error = true) :
    watchStep maxUserWatches (w.move i pc) (.fail i.thread error) =
      some ((w.move i pc).fail {i with pc := pc} error) := by
  rw [watchStep,find_moved]
  exact if_pos fails

theorem read_passes (found : Keyed.find InsertCall.thread w.inserts i.thread = some i) (here : i.pc = .readWatches)
    (room : w.epollWatches < maxUserWatches) :
    watchStep maxUserWatches w (.read i.thread) = some (w.move i .allocate) := by
  simp [watchStep,found,here,room]

theorem allocate_hooks (maxUserWatches : Int) (w : Watches) (i : InsertCall) :
    Run (watchStep maxUserWatches) (w.move i .allocate) [.succeed i.thread,.succeed i.thread] (w.move i .itemPoll) :=
  .cons _ _ (w.move i .createWakeupSource) _ _ (succeed_moved (by simp [Watches.succeed]))
    (.single (succeed_moved (by simp [Watches.succeed])))

theorem hooks_check (maxUserWatches : Int) (w : Watches) (i : InsertCall) :
    Run (watchStep maxUserWatches) (w.move i .itemPoll) [.succeed i.thread,.succeed i.thread]
      ({w with items := i.ep :: w.items}.move i .reversePathCheck) :=
  .cons _ _ (w.move i .rbtreeInsert) _ _ (succeed_moved (by simp [Watches.succeed]))
    (.single (succeed_moved (by simp [Watches.succeed,Watches.move])))

theorem check_count (maxUserWatches : Int) (w : Watches) (i : InsertCall) :
    Run (watchStep maxUserWatches) (w.move i .reversePathCheck) [.succeed i.thread,.succeed i.thread]
      (w.move i .countWatch) :=
  .cons _ _ (w.move i .listReady) _ _ (succeed_moved (by simp [Watches.succeed]))
    (.single (succeed_moved (by simp [Watches.succeed])))

/-- The counter and the trees after an insert that returns `error`, with the call gone. -/
def Watches.inserted (w : Watches) (i : InsertCall) (error : Int) : Watches :=
  if error = 0 then {w.leave i 0 with epollWatches := w.epollWatches + 1, items := i.ep :: w.items} else w.leave i error

theorem InsertOutcome.watched {args : InsertArgs} {start : Insertion} {ls : List InsertLabel} {error : Int}
    (outcome : InsertOutcome args start ls error) (negative : ∀ error, .createWakeupSource error ∈ ls → error ≤ 0)
    (found : Keyed.find InsertCall.thread w.inserts i.thread = some i) (here : i.pc = .readWatches)
    (same : w.epollWatches = start.epollWatches) :
    ∃ ks, (∀ k ∈ ks, k ∈ [.read i.thread,.succeed i.thread,.count i.thread,.fail i.thread error]) ∧
      Run (watchStep args.maxUserWatches) w ks (w.inserted i error) := by
  have hooks (room : start.epollWatches < args.maxUserWatches) :
      Run (watchStep args.maxUserWatches) w [.read i.thread,.succeed i.thread,.succeed i.thread] (w.move i .itemPoll) :=
    .cons _ _ _ _ _ (read_passes found here (same ▸ room)) (allocate_hooks _ w i)
  cases outcome with
  | full limit =>
    refine ⟨[.read i.thread],by simp,.single ?_⟩
    have limit : args.maxUserWatches ≤ w.epollWatches := same ▸ limit
    simp [watchStep,found,here,limit,Watches.inserted,enospc]
  | starved room refused =>
    refine ⟨[.read i.thread,.fail i.thread (-enomem)],by simp,?_⟩
    refine .cons _ _ _ _ _ (read_passes found here (same ▸ room)) (.single ?_)
    rw [fail_moved (by rfl)]
    simp [Watches.fail,Watches.inserted,enomem]
  | sourceless room got _ asked needed bad =>
    have fails : InsertPart.fails .createWakeupSource error = true :=
      decide_eq_true (lt_of_le_of_ne (negative error asked) bad)
    refine ⟨[.read i.thread,.succeed i.thread,.fail i.thread error],by simp,?_⟩
    refine .cons _ _ _ _ _ (read_passes found here (same ▸ room)) ?_
    refine .cons _ _ (w.move i .createWakeupSource) _ _ (succeed_moved (by simp [Watches.succeed])) (.single ?_)
    rw [fail_moved fails]
    simp [Watches.fail,Watches.inserted,bad]
  | unhooked ready failed =>
    refine ⟨_,?_,(hooks ready.room).append (.single (l := .fail i.thread (-enomem)) ?_)⟩
    · simp
    · rw [fail_moved (by rfl)]
      simp [Watches.fail,Watches.inserted,enomem]
  | rejected ready full many =>
    refine ⟨_,?_,((hooks ready.room).append (hooks_check _ w i)).append (.single (l := .fail i.thread (-einval)) ?_)⟩
    · simp
    · rw [fail_moved (by rfl)]
      simp [Watches.fail,Watches.inserted,Watches.leave,Watches.move,einval]
  | inserted ready passed =>
    refine ⟨_,?_,(((hooks ready.room).append (hooks_check _ w i)).append (check_count _ _ i)).append
      (.single (l := .count i.thread) ?_)⟩
    · simp
    · rw [watchStep,find_moved]
      simp [Watches.inserted,Watches.leave,Watches.move]

end

/-- `ep_insert` in steps is an insert as the counter of watches sees it: in whatever state the other
inserts are, the parts of this one can be gone through to the same return value and the same count. -/
theorem insert_refines_watchStep {args : InsertArgs} {start u : Insertion} {ls : List InsertLabel} {error : Int}
    (reached : Reached start.ep) (free : start.ep.mtx = .free) (first : start.stage = .readWatches)
    (fresh : args.epi ∉ start.ep.slab) (unlinked : args.epi ∉ start.fEpLinks)
    (run : Run (insertStep args) start ls u) (returned : u.stage = .returned error)
    (negative : ∀ error, .createWakeupSource error ∈ ls → error ≤ 0) (w : Watches) (i : InsertCall)
    (found : Keyed.find InsertCall.thread w.inserts i.thread = some i) (here : i.pc = .readWatches)
    (same : w.epollWatches = start.epollWatches) :
    (w.inserted i error).epollWatches = u.epollWatches ∧
    ∃ ks, (∀ k ∈ ks, k ∈ [.read i.thread,.succeed i.thread,.count i.thread,.fail i.thread error]) ∧
      Run (watchStep args.maxUserWatches) w ks (w.inserted i error) := by
  have explained := explained_run reached free first fresh unlinked run
  have undoes := explained.amid.undoes
  have stage := explained.stage
  rw [returned] at undoes stage
  refine ⟨?_,stage.1.watched negative found here same⟩
  unfold Watches.inserted
  split
  · next fine => rw [(stage.2 fine).2.1,← same]
  · next bad => exact same.trans (undoes.1 bad).1.epollWatches.symm

end Reactor.Epoll
