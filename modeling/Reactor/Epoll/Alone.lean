import Reactor.Epoll.Nesting

/-! A call of `epoll_ctl` that meets no other thread: the threads' steps come to what
`Interest.epollCtl` computes in one go. -/
namespace Reactor.Epoll
open Reactor.Transition

/-- The state in which `t` has come to `w` while the other threads stand still. -/
def Nesting.amid (s : Nesting) (t : Nat) (w : Caller) (epmutex : Option Nat) (mtx : Nat → Option Nat)
    (interest : Interest) : Nesting :=
  ⟨interest,epmutex,mtx,Function.update s.callers t w⟩

def Nesting.RunsTo (k : Kernel) (t : Nat) (s u : Nesting) : Prop :=
  ∃ n, Run (nestStep k) s (List.replicate n (.step t)) u

private theorem runsTo_refl (k : Kernel) (t : Nat) (s : Nesting) : s.RunsTo k t s := ⟨0,.nil s⟩

private theorem runsTo_step {k : Kernel} {t : Nat} {s u v : Nesting} (first : s.advance k t = some u)
    (rest : u.RunsTo k t v) : s.RunsTo k t v := by
  obtain ⟨n,run⟩ := rest
  refine ⟨n+1,?_⟩
  rw [List.replicate_succ]
  exact .cons s (.step t) u _ v first run

section
variable (k : Kernel) (s : Nesting) (t : Nat) (w : Caller) (epmutex : Option Nat) (mtx : Nat → Option Nat)
  (i : Interest)

private theorem setCaller_amid (v : Caller) : (s.amid t w epmutex mtx i).setCaller t v = s.amid t v epmutex mtx i := by
  simp [Nesting.amid,Nesting.setCaller]

private theorem setMtx_amid (file : Nat) (holder : Option Nat) :
    (s.amid t w epmutex mtx i).setMtx file holder = s.amid t w epmutex (Function.update mtx file holder) i := rfl

private theorem callers_amid : (s.amid t w epmutex mtx i).callers t = w := by
  simp [Nesting.amid]

private theorem switch_alone (here : w.pc = .lookup) (v : Nesting)
    (rest : (s.amid t (w.leave k (i.ctlSwitch k w.op w.env w.full w.item).1) epmutex mtx
        (i.ctlSwitch k w.op w.env w.full w.item).2).RunsTo k t v) :
    (s.amid t w epmutex mtx i).RunsTo k t v := by
  have first : (s.amid t w epmutex mtx i).advance k t = some ((s.amid t w epmutex mtx i).switch k t w) := by
    simp [Nesting.advance,callers_amid,here]
  apply runsTo_step first
  unfold Nesting.switch
  by_cases op : w.op = epollCtlAdd
  · rw [if_pos op,setCaller_amid]
    rw [Interest.ctlSwitch,if_pos op,Interest.ctlAdd] at rest
    cases found : epFind i.items w.item.key with
    | some old =>
      simp only [found] at rest
      simpa only [Nesting.amid,found,Nesting.setCaller,Function.update_idem] using rest
    | none =>
      simp only [found,Interest.ctlInsert] at rest
      cases linked : epInsert w.env i.items w.item.withErrors with
      | error error =>
        simp only [linked] at rest
        simpa only [Nesting.amid,found,linked,Nesting.setCaller,Function.update_idem] using rest
      | ok items =>
        simp only [linked] at rest
        simp only [Nesting.amid,found,linked,Nesting.setCaller,Function.update_idem]
        -- the item is linked, and the paths are checked in a step of their own
        have second : (s.amid t {w with pc := .pathCheck} epmutex mtx {i with items := items}).advance k t =
            some ((s.amid t {w with pc := .pathCheck} epmutex mtx {i with items := items}).checkPaths k t
              {w with pc := .pathCheck}) := by
          simp [Nesting.advance,callers_amid]
        apply runsTo_step second
        unfold Nesting.checkPaths
        by_cases refused : (w.full && reversePathCheck k {i with items := items}) = true
        · rw [if_pos refused] at rest
          rw [show (s.amid t {w with pc := .pathCheck} epmutex mtx {i with items := items}).interest =
            {i with items := items} from rfl,if_pos refused,setCaller_amid]
          exact rest
        · rw [if_neg refused] at rest
          rw [show (s.amid t {w with pc := .pathCheck} epmutex mtx {i with items := items}).interest =
            {i with items := items} from rfl,if_neg refused,setCaller_amid]
          exact rest
  · rw [if_neg op]
    simp only [setCaller_amid]
    exact rest

private theorem mtx_back (file : Nat) (free : mtx file = none) : Function.update mtx file none = mtx := by
  rw [Function.update_eq_self_iff]
  exact free.symm

private theorem unlock_alone (here : w.pc = .unlock) (free : s.mtx w.item.key.ep = none)
    (serial : epmutex = if w.full then some t else none) :
    (s.amid t w epmutex (Function.update s.mtx w.item.key.ep (some t)) i).RunsTo k t
      (s.amid t {w with pc := .outside} none s.mtx i) := by
  have first : (s.amid t w epmutex (Function.update s.mtx w.item.key.ep (some t)) i).advance k t =
      some (s.amid t {w with pc := if w.full then .unlockEpmutex else .outside} epmutex s.mtx i) := by
    simp [Nesting.advance,callers_amid,here,setMtx_amid,setCaller_amid,mtx_back s.mtx _ free]
  apply runsTo_step first
  by_cases full : w.full = true
  · rw [if_pos full]
    have second : (s.amid t {w with pc := .unlockEpmutex} epmutex s.mtx i).advance k t =
        some (s.amid t {w with pc := .outside} none s.mtx i) := by
      simp [Nesting.advance,callers_amid,setCaller_amid]
      rfl
    exact runsTo_step second (runsTo_refl k t _)
  · rw [if_neg full] at serial ⊢
    rw [serial]
    exact runsTo_refl k t _

private theorem leave_alone (error : Int) (free : ∀ file, s.mtx file = none)
    (held : mtx = if w.nested k then
        Function.update (Function.update s.mtx w.item.key.ep (some t)) w.item.key.file (some t)
      else Function.update s.mtx w.item.key.ep (some t)) (apart : w.item.key.ep ≠ w.item.key.file)
    (serial : epmutex = if w.full then some t else none) :
    (s.amid t (w.leave k error) epmutex mtx i).RunsTo k t
      (s.amid t {w with pc := .outside, error := error} none s.mtx i) := by
  have out := unlock_alone k s t {w with pc := .unlock, error := error} epmutex i rfl (free _) serial
  unfold Caller.leave
  by_cases nested : w.nested k = true
  · rw [if_pos nested] at held ⊢
    have target : Function.update s.mtx w.item.key.ep (some t) w.item.key.file = none := by
      rw [Function.update_of_ne apart.symm,free]
    have first : (s.amid t {w with pc := .unlockTarget, error := error} epmutex mtx i).advance k t =
        some (s.amid t {w with pc := .unlock, error := error} epmutex
          (Function.update s.mtx w.item.key.ep (some t)) i) := by
      simp [Nesting.advance,callers_amid,setMtx_amid,setCaller_amid,held,mtx_back _ _ target]
    exact runsTo_step first out
  · rw [if_neg nested] at held ⊢
    rw [held]
    exact out

private theorem locked_alone (here : w.pc = .lookup) (free : ∀ file, s.mtx file = none)
    (held : mtx = if w.nested k then
        Function.update (Function.update s.mtx w.item.key.ep (some t)) w.item.key.file (some t)
      else Function.update s.mtx w.item.key.ep (some t)) (apart : w.item.key.ep ≠ w.item.key.file)
    (serial : epmutex = if w.full then some t else none) :
    (s.amid t w epmutex mtx i).RunsTo k t
      (s.amid t {w with pc := .outside, error := (i.ctlSwitch k w.op w.env w.full w.item).1} none s.mtx
        (i.ctlSwitch k w.op w.env w.full w.item).2) :=
  switch_alone k s t w epmutex mtx i here _ (leave_alone k s t w epmutex mtx _ _ free held apart serial)

private theorem full_alone (here : w.pc = .lockEpmutex) (full : w.full = true) (free : ∀ file, s.mtx file = none)
    (apart : w.item.key.ep ≠ w.item.key.file) (files : List Nat)
    (list : checkList k i w.item.key = some files) :
    (s.amid t w none s.mtx i).RunsTo k t
      (s.amid t {w with
          pc := .outside
          error := ({i with tfileCheckList := files}.ctlSwitch k w.op w.env w.full w.item).1} none s.mtx
        ({i with tfileCheckList := files}.ctlSwitch k w.op w.env w.full w.item).2) := by
  have first : (s.amid t w none s.mtx i).advance k t = some (s.amid t {w with pc := .loopCheck} (some t) s.mtx i) := by
    simp [Nesting.advance,Nesting.amid,Nesting.setCaller,here]
  have second : (s.amid t {w with pc := .loopCheck} (some t) s.mtx i).advance k t =
      some (s.amid t {w with pc := .relock} (some t) s.mtx {i with tfileCheckList := files}) := by
    simp [Nesting.advance,Nesting.amid,Nesting.setCaller,list]
  have third : (s.amid t {w with pc := .relock} (some t) s.mtx {i with tfileCheckList := files}).advance k t =
      some (s.amid t {w with pc := if w.nested k then .lockTarget else .lookup} (some t)
        (Function.update s.mtx w.item.key.ep (some t)) {i with tfileCheckList := files}) := by
    simp [Nesting.advance,Nesting.amid,Nesting.setCaller,Nesting.setMtx,Caller.nested,free]
  refine runsTo_step first (runsTo_step second (runsTo_step third ?_))
  by_cases nested : w.nested k = true
  · rw [if_pos nested]
    have fourth : (s.amid t {w with pc := .lockTarget} (some t) (Function.update s.mtx w.item.key.ep (some t))
        {i with tfileCheckList := files}).advance k t = some (s.amid t {w with pc := .lookup} (some t)
          (Function.update (Function.update s.mtx w.item.key.ep (some t)) w.item.key.file (some t))
          {i with tfileCheckList := files}) := by
      simp [Nesting.advance,Nesting.amid,Nesting.setCaller,Nesting.setMtx,free,Function.update_of_ne apart.symm]
    apply runsTo_step fourth
    exact locked_alone k s t {w with pc := .lookup} (some t) _ _ rfl free (if_pos nested).symm apart (if_pos full).symm
  · rw [if_neg nested]
    exact locked_alone k s t {w with pc := .lookup} (some t) _ _ rfl free (if_neg nested).symm apart (if_pos full).symm

end

/-- A call that meets no other thread does what the sequential `epoll_ctl` does, and
leaves every mutex free. -/
theorem call_alone (k : Kernel) (s : Nesting) (t : Nat) (c : CtlCall) (outside : (s.callers t).pc = .outside)
    (idle : s.epmutex = none) (free : ∀ file, s.mtx file = none) (still : c.gap = [] ∧ c.regap = []) :
    ∃ n u, Run (nestStep k) s (.call t c :: List.replicate n (.step t)) u ∧ (u.callers t).pc = .outside ∧
      u.epmutex = none ∧ u.mtx = s.mtx ∧ u.interest = (s.interest.epollCtl k c).2 ∧
      (u.callers t).error = (s.interest.epollCtl k c).1 := by
  cases args : ctlArgs k c with
  | error error =>
    refine ⟨0,s.setCaller t {s.callers t with error := error},?_,?_⟩
    · apply Run.single
      simp [nestStep,outside,Nesting.enter,args]
    · simp [Interest.epollCtl,args,outside,idle,Nesting.setCaller]
  | ok item =>
    have apart := (ctlArgs_ok k c item args).2.1
    let w : Caller := ⟨.lock,c.op,c.env,item,false,-einval⟩
    have entered : nestStep k s (.call t c) = some (s.amid t w none s.mtx s.interest) := by
      simp [nestStep,outside,Nesting.enter,args,Nesting.amid,Nesting.setCaller,idle,w]
    have locked : (s.amid t w none s.mtx s.interest).advance k t = some (s.amid t {w with pc := .decide} none
        (Function.update s.mtx item.key.ep (some t)) s.interest) := by
      simp [Nesting.advance,Nesting.amid,Nesting.setCaller,Nesting.setMtx,free,w]
    suffices done : ∃ v : Caller, v.pc = .outside ∧ v.error = (s.interest.epollCtl k c).1 ∧
        (s.amid t {w with pc := .decide} none (Function.update s.mtx item.key.ep (some t)) s.interest).RunsTo k t
          (s.amid t v none s.mtx (s.interest.epollCtl k c).2) by
      obtain ⟨v,back,error,steps⟩ := done
      obtain ⟨n,run⟩ := runsTo_step locked steps
      refine ⟨n,_,.cons _ _ _ _ _ entered run,?_⟩
      simp [Nesting.amid,back,error]
    by_cases full : fullCheck k c.op s.interest.items item.key = true
    · have deferred : (s.amid t {w with pc := .decide} none (Function.update s.mtx item.key.ep (some t))
          s.interest).advance k t =
          some (s.amid t {w with pc := .lockEpmutex, full := true} none s.mtx s.interest) := by
        simp [Nesting.advance,Nesting.amid,Nesting.setCaller,Nesting.setMtx,full,w,mtx_back _ _ (free item.key.ep)]
      cases list : checkList k s.interest item.key with
      | none =>
        have result : s.interest.epollCtl k c = (-eloop,s.interest.clearTfileCheckList true) := by
          simp [Interest.epollCtl,args,full,still.1,Interest.delivered,list]
        have serialized : (s.amid t {w with pc := .lockEpmutex, full := true} none s.mtx s.interest).advance k t =
            some (s.amid t {w with pc := .loopCheck, full := true} (some t) s.mtx s.interest) := by
          simp [Nesting.advance,Nesting.amid,Nesting.setCaller]
        have looped : (s.amid t {w with pc := .loopCheck, full := true} (some t) s.mtx s.interest).advance k t =
            some (s.amid t {w with pc := .unlockEpmutex, full := true, error := -eloop} (some t) s.mtx
              (s.interest.clearTfileCheckList true)) := by
          simp [Nesting.advance,Nesting.amid,Nesting.setCaller,list,w]
        have released : (s.amid t {w with pc := .unlockEpmutex, full := true, error := -eloop} (some t) s.mtx
            (s.interest.clearTfileCheckList true)).advance k t =
            some (s.amid t {w with pc := .outside, full := true, error := -eloop} none s.mtx
              (s.interest.clearTfileCheckList true)) := by
          simp [Nesting.advance,Nesting.amid,Nesting.setCaller]
        rw [result]
        exact ⟨_,rfl,rfl,runsTo_step deferred (runsTo_step serialized (runsTo_step looped
          (runsTo_step released (runsTo_refl k t _))))⟩
      | some files =>
        have result : s.interest.epollCtl k c =
            {s.interest with tfileCheckList := files}.ctlSwitch k c.op c.env true item := by
          simp [Interest.epollCtl,args,full,still.1,still.2,Interest.delivered,list]
        have steps := full_alone k s t {w with pc := .lockEpmutex, full := true} s.interest rfl rfl free apart files list
        rw [result]
        exact ⟨_,rfl,rfl,runsTo_step deferred steps⟩
    · have result : s.interest.epollCtl k c = s.interest.ctlSwitch k c.op c.env false item := by
        simp [Interest.epollCtl,args,full]
      have decided : (s.amid t {w with pc := .decide} none (Function.update s.mtx item.key.ep (some t))
          s.interest).advance k t = some (s.amid t {w with pc := .lookup} none
            (Function.update s.mtx item.key.ep (some t)) s.interest) := by
        simp [Nesting.advance,Nesting.amid,Nesting.setCaller,full,w]
      have steps := locked_alone k s t {w with pc := .lookup} none (Function.update s.mtx item.key.ep (some t))
        s.interest rfl free rfl apart rfl
      rw [result]
      exact ⟨_,rfl,rfl,runsTo_step decided steps⟩

end Reactor.Epoll
