import Mathlib.Data.List.Basic
import Mathlib.Data.List.Count
import Mathlib.Algebra.Order.Monoid.Defs

/-! Transition systems given by an executable partial step function. Runs keep
their labels, so that a property can order or count what happened. Nothing here
depends on the programs that are modelled. -/
namespace Reactor.Transition

variable {S L : Type}

/-- `Run step s ls t`: the enabled steps `ls` lead from `s` to `t`. -/
inductive Run (step : S → L → Option S) : S → List L → S → Prop
  | nil (s : S) : Run step s [] s
  | cons (s : S) (l : L) (t : S) (ls : List L) (u : S) (head : step s l = some t)
      (tail : Run step t ls u) : Run step s (l::ls) u

def Reachable (initial : S → Prop) (step : S → L → Option S) (s : S) : Prop :=
  ∃ start ls, initial start ∧ Run step start ls s

def exec (step : S → L → Option S) : S → List L → Option S
  | s, [] => some s
  | s, l::ls => (step s l).bind (fun t => exec step t ls)

/-- Every step of the execution of `ls` from `s` meets `cond` in the state before it. -/
def Along (step : S → L → Option S) (cond : S → L → Prop) : S → List L → Prop
  | _, [] => True
  | s, l::ls => cond s l ∧ ∀ t, step s l = some t → Along step cond t ls

/-- The sum of the weights of the steps of the execution of `ls` from `s`. -/
def tally (step : S → L → Option S) (weight : S → L → Nat) : S → List L → Nat
  | _, [] => 0
  | s, l::ls => weight s l + ((step s l).map (fun t => tally step weight t ls)).getD 0

/-- What is noted down, step by step, in the execution of `ls` from `s`. -/
def record {J : Type} (step : S → L → Option S) (note : S → L → J → J) : S → List L → J → J
  | _, [], j => j
  | s, l::ls, j => ((step s l).map fun t => record step note t ls (note s l j)).getD j

theorem exec_run (step : S → L → Option S) (s t : S) (ls : List L)
    (ok : exec step s ls = some t) : Run step s ls t := by
  induction ls generalizing s with
  | nil =>
    cases Option.some.inj ok
    exact .nil _
  | cons l ls ih =>
    obtain ⟨next,head,rest⟩ := Option.bind_eq_some_iff.mp ok
    exact .cons s l next ls t head (ih next rest)

theorem exec_append (step : S → L → Option S) (s : S) (first second : List L) :
    exec step s (first++second) = (exec step s first).bind (fun t => exec step t second) := by
  induction first generalizing s with
  | nil => rfl
  | cons l ls ih =>
    simp only [List.cons_append,exec]
    cases step s l with
    | none => rfl
    | some t => exact ih t

def final (step : S → L → Option S) (s : S) (ls : List L) : S := (exec step s ls).getD s

theorem final_exec (step : S → L → Option S) (s : S) (ls : List L) (enabled : (exec step s ls).isSome = true) :
    exec step s ls = some (final step s ls) := by
  obtain ⟨t,ok⟩ := Option.isSome_iff_exists.mp enabled
  simp [final,ok]

theorem final_run (step : S → L → Option S) (s : S) (ls : List L) (enabled : (exec step s ls).isSome = true) :
    Run step s ls (final step s ls) :=
  exec_run step s _ ls (final_exec step s ls enabled)

theorem final_append (step : S → L → Option S) (s : S) (before ls : List L)
    (enabled : (exec step s (before++ls)).isSome = true) :
    Run step (final step s before) ls (final step s (before++ls)) := by
  have whole := final_exec step s (before++ls) enabled
  rw [exec_append] at whole
  obtain ⟨t,first,rest⟩ := Option.bind_eq_some_iff.mp whole
  have same : final step s before = t := by simp [final,first]
  rw [same]
  exact exec_run step t _ ls rest

theorem final_step (step : S → L → Option S) (s : S) (before : List L) (l : L)
    (enabled : (exec step s (before++[l])).isSome = true) :
    step (final step s before) l = some (final step s (before++[l])) := by
  cases final_append step s before [l] enabled with
  | cons _ _ t _ _ head tail =>
    cases tail with
    | nil => exact head

theorem Run.append {step : S → L → Option S} {s t u : S} {first second : List L}
    (before : Run step s first t) (after : Run step t second u) :
    Run step s (first++second) u := by
  induction before with
  | nil => exact after
  | cons s l next ls t head tail ih => exact .cons s l next _ u head (ih after)

theorem Run.split {step : S → L → Option S} {s u : S} {first second : List L}
    (run : Run step s (first++second) u) : ∃ t, Run step s first t ∧ Run step t second u := by
  induction first generalizing s with
  | nil => exact ⟨s,.nil s,run⟩
  | cons l ls ih =>
    cases run with
    | cons _ _ next _ _ head tail =>
      obtain ⟨t,before,after⟩ := ih tail
      exact ⟨t,.cons s l next ls t head before,after⟩

theorem Run.single {step : S → L → Option S} {s t : S} {l : L} (ok : step s l = some t) :
    Run step s [l] t :=
  .cons s l t [] t ok (.nil t)

theorem Reachable.start {initial : S → Prop} {step : S → L → Option S} {s : S}
    (first : initial s) : Reachable initial step s :=
  ⟨s,[],first,.nil s⟩

theorem Reachable.run {initial : S → Prop} {step : S → L → Option S} {s t : S} {ls : List L}
    (reached : Reachable initial step s) (run : Run step s ls t) : Reachable initial step t := by
  obtain ⟨start,before,first,path⟩ := reached
  exact ⟨start,before++ls,first,path.append run⟩

theorem Reachable.step {initial : S → Prop} {step : S → L → Option S} {s t : S} {l : L}
    (reached : Reachable initial step s) (ok : step s l = some t) : Reachable initial step t :=
  reached.run (.single ok)

theorem Run.keeps {step : S → L → Option S} {s u : S} {ls : List L} (run : Run step s ls u)
    (cond : S → L → Prop) (holds : S → Prop)
    (kept : ∀ s l t, holds s → cond s l → step s l = some t → holds t)
    (along : Along step cond s ls) (first : holds s) : holds u := by
  induction run with
  | nil => exact first
  | cons s l t ls u head tail ih =>
    exact ih (along.2 t head) (kept s l t first along.1 head)

/-- Steps that each lower a measure come to an end. -/
theorem Run.shrinks {step : S → L → Option S} {s u : S} {ls : List L} (run : Run step s ls u)
    (cond : L → Prop) (holds : S → Prop) (measure : S → Nat)
    (lowers : ∀ s l t, holds s → cond l → step s l = some t → holds t ∧ measure t < measure s)
    (all : ∀ l ∈ ls, cond l) (first : holds s) : holds u ∧ ls.length + measure u ≤ measure s := by
  induction run with
  | nil => exact ⟨first,by simp⟩
  | cons s l t ls u head tail ih =>
    obtain ⟨next,less⟩ := lowers s l t first (all l List.mem_cons_self) head
    obtain ⟨last,bound⟩ := ih (fun k member => all k (List.mem_cons_of_mem l member)) next
    exact ⟨last,by rw [List.length_cons]; omega⟩

/-- A property of the state and of what has been noted so far. -/
theorem Run.recorded {J : Type} {step : S → L → Option S} {s u : S} {ls : List L} (run : Run step s ls u)
    (note : S → L → J → J) (cond : S → L → Prop) (holds : J → S → Prop)
    (kept : ∀ j s l t, holds j s → cond s l → step s l = some t → holds (note s l j) t)
    (along : Along step cond s ls) (j : J) (first : holds j s) : holds (record step note s ls j) u := by
  induction run generalizing j with
  | nil => exact first
  | cons s l t ls u head tail ih =>
    have now : record step note s (l::ls) j = record step note t ls (note s l j) := by simp [record,head]
    rw [now]
    exact ih (along.2 t head) _ (kept j s l t first along.1 head)

theorem Run.record_snoc {J : Type} {step : S → L → Option S} {s u t : S} {ls : List L} {l : L} (run : Run step s ls u)
    (ok : step u l = some t) (note : S → L → J → J) (j : J) :
    record step note s (ls ++ [l]) j = note u l (record step note s ls j) := by
  induction run generalizing j with
  | nil => simp [record,ok]
  | cons s k v ls u head tail ih => simpa [record,head] using ih ok (note s k j)

/-- A property of the state and of the labels that led to it. -/
theorem Run.history {step : S → L → Option S} {s u : S} {past ls : List L} (run : Run step s ls u)
    (holds : List L → S → Prop) (kept : ∀ past s l t, holds past s → step s l = some t → holds (past ++ [l]) t)
    (first : holds past s) : holds (past ++ ls) u := by
  induction run generalizing past with
  | nil =>
    rw [List.append_nil]
    exact first
  | cons s l t ls u head tail ih =>
    rw [List.append_cons]
    exact ih (kept past s l t first head)

/-- Steps that can be followed one by one can be followed all along. -/
theorem Run.follow {R : Type} {step : S → L → Option S} {step' : R → L → Option R} (rel : S → R → Prop)
    (follows : ∀ s r l t, rel s r → step s l = some t → ∃ q, step' r l = some q ∧ rel t q)
    {s u : S} {ls : List L} (run : Run step s ls u) {r : R} (first : rel s r) :
    ∃ q, Run step' r ls q ∧ rel u q := by
  induction run generalizing r with
  | nil => exact ⟨r,.nil r,first⟩
  | cons s l t ls u head tail ih =>
    obtain ⟨p,ok,next⟩ := follows s r l t first head
    obtain ⟨q,rest,last⟩ := ih next
    exact ⟨q,.cons r l p ls q ok rest,last⟩

/-- A run that another system follows, with steps of its own that leave the view of it as it is. -/
theorem Run.simulates {R K : Type} {step : S → L → Option S} {step' : R → K → Option R} (view : S → R)
    (label : L → Option K) (cond : S → L → Prop) (holds : S → Prop)
    (kept : ∀ s l t, holds s → cond s l → step s l = some t → holds t)
    (quiet : ∀ s l t, holds s → cond s l → step s l = some t → label l = none → view t = view s)
    (follows : ∀ s l t k, holds s → cond s l → step s l = some t → label l = some k → step' (view s) k = some (view t))
    {s u : S} {ls : List L} (run : Run step s ls u) (along : Along step cond s ls) (first : holds s) :
    Run step' (view s) (ls.filterMap label) (view u) := by
  induction run with
  | nil => exact .nil _
  | cons s l t ls u head tail ih =>
    obtain ⟨now,later⟩ := along
    have rest := ih (later t head) (kept s l t first now head)
    cases own : label l with
    | none =>
      rw [List.filterMap_cons_none own,← quiet s l t first now head own]
      exact rest
    | some k =>
      rw [List.filterMap_cons_some own]
      exact .cons _ k _ _ _ (follows s l t k first now head own) rest

/-- What comes to hold in a run comes to hold at some step of it. -/
theorem Run.crosses {step : S → L → Option S} {s u : S} {ls : List L} (run : Run step s ls u) (holds : S → Prop)
    (first : ¬ holds s) (last : holds u) :
    ∃ before l after v w, ls = before ++ l::after ∧ Run step s before v ∧ step v l = some w ∧ Run step w after u ∧
      ¬ holds v ∧ holds w := by
  induction run with
  | nil => exact absurd last first
  | cons s l t ls u head tail ih =>
    by_cases now : holds t
    · exact ⟨[],l,ls,s,t,rfl,.nil s,head,tail,first,now⟩
    · obtain ⟨before,k,after,v,w,split,reach,ok,rest,low,high⟩ := ih now last
      exact ⟨l::before,k,after,v,w,by rw [split]; rfl,.cons s l t before v head reach,ok,rest,low,high⟩

theorem Along.and {step : S → L → Option S} {first second : S → L → Prop} {s : S} {ls : List L}
    (one : Along step first s ls) (two : Along step second s ls) :
    Along step (fun s l => first s l ∧ second s l) s ls := by
  induction ls generalizing s with
  | nil => exact trivial
  | cons l ls ih => exact ⟨⟨one.1,two.1⟩,fun t ok => ih (one.2 t ok) (two.2 t ok)⟩

theorem Along.split {step : S → L → Option S} {cond : S → L → Prop} {s t : S} {first second : List L}
    (run : Run step s first t) (along : Along step cond s (first++second)) :
    Along step cond s first ∧ Along step cond t second := by
  induction run with
  | nil => exact ⟨trivial,along⟩
  | cons s l next ls t head tail ih =>
    obtain ⟨before,after⟩ := ih (along.2 next head)
    refine ⟨⟨along.1,fun other ok => ?_⟩,after⟩
    rw [head] at ok
    cases ok
    exact before

instance decidableAlong (step : S → L → Option S) (cond : S → L → Prop) [∀ s l, Decidable (cond s l)] :
    ∀ s ls, Decidable (Along step cond s ls)
  | _, [] => .isTrue trivial
  | s, l::ls =>
    match ok : step s l with
    | none => decidable_of_iff (cond s l) ⟨fun now => ⟨now,by simp [ok]⟩,And.left⟩
    | some t =>
      have := decidableAlong step cond t ls
      decidable_of_iff (cond s l ∧ Along step cond t ls) (by simp [Along,ok])

theorem along_of_forall (step : S → L → Option S) (cond : L → Prop) (s : S) (ls : List L)
    (all : ∀ l ∈ ls, cond l) : Along step (fun _ l => cond l) s ls := by
  induction ls generalizing s with
  | nil => exact trivial
  | cons l ls ih => exact ⟨all l (by simp),fun t _ => ih t (fun k member => all k (by simp [member]))⟩

theorem Reachable.invariant {initial : S → Prop} {step : S → L → Option S} (holds : S → Prop)
    (first : ∀ s, initial s → holds s)
    (kept : ∀ s l t, holds s → step s l = some t → holds t)
    {s : S} (reached : Reachable initial step s) : holds s := by
  obtain ⟨start,ls,begun,run⟩ := reached
  exact run.keeps (fun _ _ => True) holds (fun s l t before _ ok => kept s l t before ok)
    (along_of_forall step (fun _ => True) start ls (fun _ _ => trivial)) (first start begun)

@[simp] theorem tally_nil (step : S → L → Option S) (weight : S → L → Nat) (s : S) :
    tally step weight s [] = 0 := rfl

theorem tally_cons (step : S → L → Option S) (weight : S → L → Nat) (s t : S) (l : L) (ls : List L)
    (ok : step s l = some t) :
    tally step weight s (l::ls) = weight s l + tally step weight t ls := by
  simp [tally,ok]

theorem Run.tally_countP {step : S → L → Option S} {s u : S} {ls : List L} (run : Run step s ls u)
    (p : L → Bool) : tally step (fun _ l => if p l then 1 else 0) s ls = ls.countP p := by
  induction run with
  | nil => rfl
  | cons s l t ls u head tail ih =>
    rw [tally_cons step _ s t l ls head,ih,List.countP_cons,Nat.add_comm]

theorem Run.tally_count [DecidableEq L] {step : S → L → Option S} {s u : S} {ls : List L}
    (run : Run step s ls u) (a : L) :
    tally step (fun _ l => if l = a then 1 else 0) s ls = ls.count a := by
  rw [List.count_eq_countP,← run.tally_countP (· == a)]
  simp only [beq_iff_eq]

theorem Run.tally_zero {step : S → L → Option S} {s u : S} {ls : List L} (run : Run step s ls u) :
    tally step (fun _ _ => 0) s ls = 0 := by
  induction run with
  | nil => rfl
  | cons s l t ls u head tail ih => rw [tally_cons step _ s t l ls head,ih]

theorem Run.tally_add {step : S → L → Option S} {s u : S} {ls : List L} (run : Run step s ls u)
    (first second : S → L → Nat) :
    tally step (fun s l => first s l + second s l) s ls = tally step first s ls + tally step second s ls := by
  induction run with
  | nil => rfl
  | cons s l t ls u head tail ih =>
    rw [tally_cons step _ s t l ls head,tally_cons step first s t l ls head,
      tally_cons step second s t l ls head,ih]
    omega

/-- The accounting rule: when each step pays its cost out of what it gains and
what a potential gives up, so does the whole run. -/
theorem Run.account {step : S → L → Option S} {s u : S} {ls : List L} (run : Run step s ls u)
    (cond : S → L → Prop) (holds : S → Prop) (cost gain : S → L → Nat) (potential : S → Nat)
    (kept : ∀ s l t, holds s → cond s l → step s l = some t → holds t)
    (balance : ∀ s l t, holds s → cond s l → step s l = some t →
      cost s l + potential t ≤ gain s l + potential s)
    (along : Along step cond s ls) (first : holds s) :
    tally step cost s ls + potential u ≤ tally step gain s ls + potential s := by
  induction run with
  | nil => simp
  | cons s l t ls u head tail ih =>
    have rest := ih (along.2 t head) (kept s l t first along.1 head)
    have now := balance s l t first along.1 head
    rw [tally_cons step cost s t l ls head,tally_cons step gain s t l ls head]
    omega

end Reactor.Transition
