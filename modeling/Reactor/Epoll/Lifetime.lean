import Reactor.Epoll.Create

/-! Why an eventpoll is not used before it is complete, nor after it is gone. A file lives
as long as someone refers to it, and until `fd_install` that is its creator alone. -/
namespace Reactor.Epoll
open Reactor.Transition Reactor.Total Reactor.Keyed

/-- A file lives as long as there are references on it. Until `fd_install` the creator has the
only one. -/
structure Referenced {n : Nat} (s : Objects n) : Prop where
  live : ∀ f ∈ s.refs, f ∈ s.files.map File.addr
  alone : ∀ t f, (s.calls t).creates = some f → s.refs.count f = 1

/-- What a call has in hand is what it takes it for. -/
structure Coherent {n : Nat} (s : Objects n) : Prop where
  ready : ∀ t ep, ((∃ flags, s.calls t = .getUnusedFd flags ep) ∨ ∃ fd, s.calls t = .getFile ep fd) → s.ready ep = true
  complete : ∀ file ∈ s.files, ∀ ep, file.privateData = some ep → s.ready ep = true ∧
    ((∃ t fd, s.calls t = .setFile ep fd file.addr) ∨ s.epFile ep = some file.addr)
  setting : ∀ t ep fd f, s.calls t = .setFile ep fd f → (⟨f,some ep⟩ : File) ∈ s.files
  waiting : ∀ t f ep, s.calls t = .epPoll f ep → (⟨f,some ep⟩ : File) ∈ s.files

section
variable {n : Nat} {s : Objects n} {t : Fin n} {pc : CallPc}

theorem creates_refs {f : Nat} (creates : pc.creates = some f) : pc.refs = {f} := by
  cases pc <;> simp_all [CallPc.creates,CallPc.refs]

theorem held_refs {f : Nat} (held : (s.calls t).refs = {f}) : {f} ≤ total CallPc.refs s.calls :=
  held ▸ le_total s.calls t CallPc.refs

theorem forall_setCall {P : Fin n → CallPc → Prop} (other : ∀ r, P r (s.calls r)) (own : P t pc) :
    ∀ r, P r ((s.setCall t pc).calls r) := by
  intro r
  by_cases same : r = t
  · subst same
    simpa [Objects.setCall] using own
  · simpa [Objects.setCall,same] using other r

/-- Putting the file in a slot that was reserved adds one reference of the table. -/
theorem install_refs {slots : List Slot} {fd : Int} {file : Nat} {slot : Slot} (unique : Keyed.Unique Slot.fd slots)
    (listed : slot ∈ slots) (same : slot.fd = fd) (none : slot.file = none) :
    (((slots.map (Slot.install fd file)).filterMap Slot.file : List Nat) : Multiset Nat) =
      {file} + ((slots.filterMap Slot.file : List Nat) : Multiset Nat) := by
  induction slots with
  | nil => cases listed
  | cons first rest ih =>
    obtain ⟨fresh,distinct⟩ := List.nodup_cons.mp unique
    rcases List.mem_cons.mp listed with rfl | later
    · have others : rest.map (Slot.install fd file) = rest := by
        refine (List.map_congr_left fun other member => ?_).trans (List.map_id rest)
        have different : other.fd ≠ fd := fun key => fresh ((same.trans key.symm) ▸ List.mem_map_of_mem member)
        simp [Slot.install,different]
      simp [Slot.install,same,none,others]
    · have different : first.fd ≠ fd := fun key => fresh ((key.trans same.symm) ▸ List.mem_map_of_mem later)
      have rest := ih distinct later
      cases data : first.file with
      | none => simpa [Slot.install,different,data] using rest
      | some g =>
        simp only [List.map_cons,Slot.install,different,if_false,List.filterMap_cons,data,← Multiset.cons_coe,
          ← Multiset.singleton_add]
        rw [rest]
        ac_rfl

namespace Referenced

/-- A file that is not in the table yet has one reference, that of its creator. -/
theorem unlisted (before : Referenced s) {f : Nat} (creates : (s.calls t).creates = some f) :
    f ∉ s.slots.filterMap Slot.file := by
  intro listed
  have one := before.alone t f creates
  have table := List.count_pos_iff.mpr listed
  have own := Multiset.count_le_of_le f (held_refs (creates_refs creates))
  simp only [Objects.refs,Multiset.count_add,Multiset.coe_count,Multiset.count_singleton_self] at one own
  omega

/-- References change hands; none is gained. -/
theorem fewer {u : Objects n} (before : Referenced s) (files : u.files = s.files) (refs : u.refs ≤ s.refs)
    (creates : ∀ t f, (u.calls t).creates = some f → (s.calls t).creates = some f) : Referenced u where
  live f inside := by
    rw [files]
    exact before.live f (Multiset.mem_of_le refs inside)
  alone t f creating := by
    -- the creator itself still holds one
    have own := Multiset.count_le_of_le f (held_refs (creates_refs creating))
    have most := Multiset.count_le_of_le f refs
    have one := before.alone t f (creates t f creating)
    simp only [Objects.refs,Multiset.count_add,Multiset.count_singleton_self] at own most one ⊢
    omega

/-- The call goes on with the references it has, and so does the table. -/
theorem stays {u : Objects n} (before : Referenced s) (files : u.files = s.files)
    (table : u.slots.filterMap Slot.file = s.slots.filterMap Slot.file) (calls : u.calls = Function.update s.calls t pc)
    (refs : pc.refs = (s.calls t).refs) (creates : ∀ f, pc.creates = some f → (s.calls t).creates = some f) :
    Referenced u := by
  refine before.fewer files (le_of_eq ?_) ?_
  · rw [Objects.refs,Objects.refs,table,calls,total_same _ _ _ _ refs]
  · rw [calls]
    exact forall_setCall (P := fun r c => ∀ f, c.creates = some f → (s.calls r).creates = some f) (fun _ _ => id) creates

/-- One more reference on a file of the table. -/
theorem another {u : Objects n} {f : Nat} (before : Referenced s) (files : u.files = s.files)
    (listed : f ∈ s.slots.filterMap Slot.file) (refs : u.refs = s.refs + {f})
    (creates : ∀ t f, (u.calls t).creates = some f → (s.calls t).creates = some f) : Referenced u where
  live g inside := by
    rw [files]
    rw [refs,Multiset.mem_add,Multiset.mem_singleton] at inside
    rcases inside with old | rfl
    · exact before.live g old
    · exact before.live g (Multiset.mem_add.mpr (.inl listed))
  alone t g creating := by
    have created := creates t g creating
    have different : g ≠ f := fun same => before.unlisted created (same ▸ listed)
    rw [refs,Multiset.count_add,before.alone t g created,Multiset.count_singleton,if_neg different]

/-- A new file with its first reference. -/
theorem newFile {u : Objects n} {file : File} (before : Referenced s) (fresh : file.addr ∉ s.files.map File.addr)
    (files : u.files = file::s.files) (refs : u.refs = s.refs + {file.addr})
    (creates : ∀ t f, (u.calls t).creates = some f → f = file.addr ∨ (s.calls t).creates = some f) : Referenced u where
  live g inside := by
    rw [refs,Multiset.mem_add,Multiset.mem_singleton] at inside
    rw [files,List.map_cons,List.mem_cons]
    exact inside.symm.imp_right (before.live g)
  alone t g creating := by
    have missing : file.addr ∉ s.refs := fun inside => fresh (before.live _ inside)
    rw [refs,Multiset.count_add]
    rcases creates t g creating with rfl | created
    · rw [Multiset.count_eq_zero.mpr missing]
      simp
    · have one := before.alone t g created
      have different : g ≠ file.addr := by
        rintro rfl
        rw [Multiset.count_eq_zero.mpr missing] at one
        cases one
      rw [one,Multiset.count_singleton,if_neg different]

theorem release (before : Referenced s) {file : File} (last : file.addr ∉ s.refs) (freed : Option Nat) :
    Referenced (s.release file freed) := by
  have live : ∀ f ∈ s.refs, f ∈ (s.files.erase file).map File.addr := by
    intro f inside
    obtain ⟨other,member,rfl⟩ := List.mem_map.mp (before.live f inside)
    refine List.mem_map_of_mem ((List.mem_erase_of_ne ?_).mpr member)
    rintro rfl
    exact last inside
  unfold Objects.release
  cases freed with
  | none => exact ⟨live,before.alone⟩
  | some ep => exact ⟨live,before.alone⟩

/-- The reservation of a descriptor ends without a file. -/
theorem unreserve_refs {slots : List Slot} {fd : Int} (none : ∀ slot ∈ slots, slot.fd = fd → slot.file = none) :
    (slots.filter fun slot => slot.fd ≠ fd).filterMap Slot.file = slots.filterMap Slot.file := by
  rw [List.filterMap_filter]
  apply List.filterMap_congr
  intro slot listed
  by_cases same : slot.fd = fd
  · simp [same,none slot listed same]
  · simp [same]

theorem move {u : Objects n} (before : Referenced s) (balanced : Balanced s) (move : ObjMove s u) : Referenced u := by
  have reserved {t : Fin n} {fd : Int} (own : (s.calls t).fds = {fd}) :
      fd ∈ (s.slots.filter fun slot => slot.file.isNone).map Slot.fd := by
    rw [← Multiset.mem_coe,balanced.fds]
    exact mem_total.mpr ⟨t,by simp [own]⟩
  cases move with
  | refused t res out =>
    obtain ⟨old,here⟩ := isOutside_iff.mp out
    exact before.stays rfl rfl rfl (by rw [here]; rfl) (by simp [CallPc.creates])
  | called t flags out =>
    obtain ⟨old,here⟩ := isOutside_iff.mp out
    exact before.stays rfl rfl rfl (by rw [here]; rfl) (by simp [CallPc.creates])
  | noMemory t _ here | freeUid t here | kzalloc t _ _ here | initialise t _ _ here | noFd t _ _ _ here | noFile t _ _ _ here
  | epFree t _ _ here | epollFile t _ _ here | otherFile t _ here | polled t _ _ _ here =>
    exact before.stays rfl rfl rfl (by rw [here]; rfl) (by simp [CallPc.creates])
  | getFd t flags ep fd here fresh =>
    exact before.stays rfl rfl rfl (by rw [here]; rfl) (by simp [CallPc.creates])
  | setFile t ep fd file here =>
    exact before.stays rfl rfl rfl (by rw [here]; rfl) (by simp [CallPc.creates,here])
  | putUnusedFd t ep fd error here =>
    refine before.stays rfl (unreserve_refs fun slot listed same => ?_) rfl (by rw [here]; rfl) (by simp [CallPc.creates])
    exact reserved_slot balanced.slotsOnce (reserved (by rw [here]; rfl)) listed same
  | getFile t ep fd file here fresh =>
    refine before.newFile fresh rfl ?_ ?_
    · simp only [Objects.refs,Objects.setCall]
      rw [total_gain _ _ _ _ (by rw [here]; rfl),add_assoc]
      rfl
    · exact forall_setCall (P := fun r c => ∀ f, c.creates = some f → f = file ∨ (s.calls r).creates = some f)
        (fun _ _ => .inr) (by simp [CallPc.creates])
  | fdInstall t fd file here =>
    have own : (s.calls t).fds = {fd} := by rw [here]; rfl
    obtain ⟨slot,inside,same⟩ := List.mem_map.mp (reserved own)
    obtain ⟨listed,none⟩ := List.mem_filter.mp inside
    have lost := total_lose CallPc.refs s.calls t (.outside fd) rfl
    rw [here] at lost
    refine before.fewer rfl (le_of_eq ?_) (forall_setCall
      (P := fun r c => ∀ f, c.creates = some f → (s.calls r).creates = some f) (fun _ _ => id) (by simp [CallPc.creates]))
    simp only [Objects.refs,Objects.setCall]
    rw [install_refs balanced.slotsOnce listed same (Option.isNone_iff_eq_none.mp none),← lost]
    simp only [CallPc.refs]
    ac_rfl
  | fdget t slot f out listed installed =>
    obtain ⟨old,here⟩ := isOutside_iff.mp out
    refine before.another rfl (List.mem_filterMap.mpr ⟨slot,listed,installed⟩) ?_
      (forall_setCall (P := fun r c => ∀ f, c.creates = some f → (s.calls r).creates = some f)
        (fun _ _ => id) (by simp [CallPc.creates]))
    simp only [Objects.refs,Objects.setCall]
    rw [total_gain _ _ _ _ (by rw [here]; rfl),add_assoc]
    rfl
  | fdput t f res here =>
    refine before.fewer rfl ?_ (forall_setCall (P := fun r c => ∀ f, c.creates = some f → (s.calls r).creates = some f)
      (fun _ _ => id) (by simp [CallPc.creates]))
    have lost := total_lose CallPc.refs s.calls t (.outside res) rfl
    simp only [Objects.refs,Objects.setCall]
    rw [← lost,← add_assoc]
    exact Multiset.le_add_right _ _
  | close slot f listed installed =>
    refine before.fewer rfl (add_le_add_left ?_ _) fun _ _ => id
    exact Multiset.coe_le.mpr (List.erase_sublist.filterMap _).subperm
  | dup slot f copy listed installed fresh =>
    refine before.another rfl (List.mem_filterMap.mpr ⟨slot,listed,installed⟩) ?_ fun _ _ => id
    simp only [Objects.refs,List.filterMap_cons,← Multiset.cons_coe,← Multiset.singleton_add]
    ac_rfl
  | openOther fd file fresh new =>
    have absent : (⟨file,none⟩ : File).addr ∉ s.files.map File.addr := new
    refine before.newFile absent rfl ?_ fun _ _ => .inr
    simp only [Objects.refs,List.filterMap_cons,← Multiset.cons_coe,← Multiset.singleton_add]
    ac_rfl
  | release file listed last => exact before.release last _

end Referenced

/-- An eventpoll has one file. -/
theorem Balanced.owner (balanced : Balanced s) {file other : File} {ep : Nat} (member : file ∈ s.files) (inside : other ∈ s.files)
    (data : file.privateData = some ep) (same : other.privateData = some ep) : file = other := by
  have distinct : ((s.files.filterMap File.privateData : List Nat) : Multiset Nat).Nodup := by
    refine Multiset.nodup_of_le ?_ (Multiset.coe_nodup.mpr balanced.epsOnce)
    rw [balanced.eps]
    exact Multiset.le_add_left _ _
  by_contra different
  have files : s.files.Nodup := balanced.filesOnce.of_map
  obtain ⟨before,after,split⟩ := List.append_of_mem member
  rw [split] at inside files distinct
  have elsewhere : other ∈ before ++ after := by
    rcases List.mem_append.mp inside with first | later
    · exact List.mem_append_left _ first
    · exact List.mem_append_right _ ((List.mem_cons.mp later).resolve_left (Ne.symm different))
  have again : ep ∈ (before ++ after).filterMap File.privateData := List.mem_filterMap.mpr ⟨other,elsewhere,same⟩
  rw [Multiset.coe_nodup,List.filterMap_append,List.filterMap_cons_some data,List.nodup_middle,← List.filterMap_append] at distinct
  exact (List.nodup_cons.mp distinct).1 again

namespace Coherent

/-- The call goes on to `pc`, which is not `setFile`, and nothing else changes. -/
theorem goes {u : Objects n} (before : Coherent s) (files : u.files = s.files) (ready : u.ready = s.ready)
    (epFile : u.epFile = s.epFile) (calls : u.calls = Function.update s.calls t pc)
    (past : ∀ ep fd f, s.calls t ≠ .setFile ep fd f) (future : ∀ ep fd f, pc ≠ .setFile ep fd f)
    (readied : ∀ ep, ((∃ flags, pc = .getUnusedFd flags ep) ∨ ∃ fd, pc = .getFile ep fd) → s.ready ep = true)
    (found : ∀ f ep, pc = .epPoll f ep → (⟨f,some ep⟩ : File) ∈ s.files) : Coherent u where
  ready := by
    rw [ready,calls]
    exact forall_setCall (P := fun _ c => ∀ ep, ((∃ flags, c = .getUnusedFd flags ep) ∨ ∃ fd, c = .getFile ep fd) →
      s.ready ep = true) before.ready readied
  complete := by
    rw [files,ready,epFile,calls]
    intro file member ep data
    obtain ⟨initialised,either⟩ := before.complete file member ep data
    refine ⟨initialised,either.imp_left ?_⟩
    rintro ⟨r,fd,here⟩
    have other : r ≠ t := by
      rintro rfl
      exact past ep fd file.addr here
    exact ⟨r,fd,by rw [Function.update_of_ne other,here]⟩
  setting := by
    rw [files,calls]
    exact forall_setCall (P := fun _ c => ∀ ep fd f, c = .setFile ep fd f → (⟨f,some ep⟩ : File) ∈ s.files) before.setting
      fun ep fd f same => absurd same (future ep fd f)
  waiting := by
    rw [files,calls]
    exact forall_setCall (P := fun _ c => ∀ f ep, c = .epPoll f ep → (⟨f,some ep⟩ : File) ∈ s.files) before.waiting found

theorem kzalloc (before : Coherent s) (balanced : Balanced s) {ep : Nat} (fresh : ep ∉ s.eps) :
    Coherent {s with
      eps := ep::s.eps, ready := Function.update s.ready ep false, epFile := Function.update s.epFile ep none} := by
  have called (r : Fin n) (other : Nat) (held : (s.calls r).eps = {other}) : other ≠ ep := by
    rintro rfl
    apply fresh
    rw [← Multiset.mem_coe,balanced.eps]
    exact Multiset.mem_add.mpr (.inl (mem_total.mpr ⟨r,by simp [held]⟩))
  have filed (file : File) (member : file ∈ s.files) (other : Nat) (data : file.privateData = some other) : other ≠ ep := by
    rintro rfl
    apply fresh
    rw [← Multiset.mem_coe,balanced.eps]
    exact Multiset.mem_add.mpr (.inr (Multiset.mem_coe.mpr (List.mem_filterMap.mpr ⟨file,member,data⟩)))
  refine ⟨fun r other here => ?_,fun file member other data => ?_,before.setting,before.waiting⟩
  · have different : other ≠ ep := by
      rcases here with ⟨flags,here⟩ | ⟨fd,here⟩
      · exact called r other (by rw [show s.calls r = _ from here]; rfl)
      · exact called r other (by rw [show s.calls r = _ from here]; rfl)
    exact (Function.update_of_ne different _ _).trans (before.ready r other here)
  · have different := filed file member other data
    dsimp only
    rw [Function.update_of_ne different,Function.update_of_ne different]
    exact before.complete file member other data

theorem initialise (before : Coherent s) (ep : Nat) : Coherent {s with ready := Function.update s.ready ep true} := by
  have more {other : Nat} (old : s.ready other = true) : Function.update s.ready ep true other = true := by
    by_cases same : other = ep
    · simp [same]
    · simp [same,old]
  refine ⟨fun r other here => more (before.ready r other here),fun file member other data => ?_,before.setting,before.waiting⟩
  obtain ⟨initialised,either⟩ := before.complete file member other data
  exact ⟨more initialised,either⟩

theorem getFile (before : Coherent s) {ep file : Nat} {fd : Int} (here : s.calls t = .getFile ep fd) :
    Coherent ({s with files := ⟨file,some ep⟩::s.files}.setCall t (.setFile ep fd file)) where
  ready := forall_setCall (P := fun _ c => ∀ ep, ((∃ flags, c = .getUnusedFd flags ep) ∨ ∃ fd, c = .getFile ep fd) →
    s.ready ep = true) before.ready (by simp)
  complete := by
    refine List.forall_mem_cons.mpr ⟨?_,fun other member a data => ?_⟩
    · rintro a ⟨⟩
      exact ⟨before.ready t ep (.inr ⟨fd,here⟩),.inl ⟨t,fd,by simp [Objects.setCall]⟩⟩
    · obtain ⟨initialised,either⟩ := before.complete other member a data
      refine ⟨initialised,either.imp_left ?_⟩
      rintro ⟨r,d,there⟩
      have different : r ≠ t := by
        rintro rfl
        rw [here] at there
        cases there
      exact ⟨r,d,by simp [Objects.setCall,different,there]⟩
  setting := forall_setCall (P := fun _ c => ∀ ep' fd' f, c = .setFile ep' fd' f →
      (⟨f,some ep'⟩ : File) ∈ (⟨file,some ep⟩ : File)::s.files)
    (fun r a d f there => List.mem_cons_of_mem _ (before.setting r a d f there)) (by simp)
  waiting := forall_setCall (P := fun _ c => ∀ f a, c = .epPoll f a → (⟨f,some a⟩ : File) ∈ (⟨file,some ep⟩ : File)::s.files)
    (fun r f a there => List.mem_cons_of_mem _ (before.waiting r f a there)) (by simp)

theorem setFile (before : Coherent s) (balanced : Balanced s) {ep file : Nat} {fd : Int} (here : s.calls t = .setFile ep fd file) :
    Coherent ({s with epFile := Function.update s.epFile ep (some file)}.setCall t (.fdInstall fd file)) where
  ready := forall_setCall (P := fun _ c => ∀ ep, ((∃ flags, c = .getUnusedFd flags ep) ∨ ∃ fd, c = .getFile ep fd) →
    s.ready ep = true) before.ready (by simp)
  complete := by
    intro other member a data
    obtain ⟨initialised,either⟩ := before.complete other member a data
    refine ⟨initialised,?_⟩
    by_cases same : a = ep
    · subst same
      have one := balanced.owner (before.setting t a fd file here) member rfl data
      rw [← one]
      exact .inr (Function.update_self _ _ _)
    · refine either.imp ?_ fun old => (Function.update_of_ne same _ _).trans old
      rintro ⟨r,d,there⟩
      have different : r ≠ t := by
        rintro rfl
        rw [here] at there
        cases there
        exact same rfl
      exact ⟨r,d,by simp [Objects.setCall,different,there]⟩
  setting := forall_setCall (P := fun _ c => ∀ ep fd f, c = .setFile ep fd f → (⟨f,some ep⟩ : File) ∈ s.files) before.setting
    (by simp)
  waiting := forall_setCall (P := fun _ c => ∀ f ep, c = .epPoll f ep → (⟨f,some ep⟩ : File) ∈ s.files) before.waiting (by simp)

/-- What a call still refers to is not released. -/
theorem release (before : Coherent s) {file : File} (last : file.addr ∉ s.refs) (freed : Option Nat) :
    Coherent (s.release file freed) := by
  have kept {r : Fin n} {g ep : Nat} (held : (s.calls r).refs = {g}) (inside : (⟨g,some ep⟩ : File) ∈ s.files) :
      (⟨g,some ep⟩ : File) ∈ s.files.erase file := by
    refine (List.mem_erase_of_ne ?_).mpr inside
    rintro rfl
    apply last
    exact Multiset.mem_add.mpr (.inr (mem_total.mpr ⟨r,by rw [held]; exact Multiset.mem_singleton_self g⟩))
  have released : Coherent {s with files := s.files.erase file} :=
    ⟨before.ready,fun other inside => before.complete other (List.mem_of_mem_erase inside),
      fun r ep fd g here => kept (by rw [show s.calls r = _ from here]; rfl) (before.setting r ep fd g here),
      fun r g ep here => kept (by rw [show s.calls r = _ from here]; rfl) (before.waiting r g ep here)⟩
  unfold Objects.release
  cases freed with
  | none => exact released
  | some ep => exact {released with}

theorem move {u : Objects n} (before : Coherent s) (balanced : Balanced s) (move : ObjMove s u) : Coherent u := by
  cases move with
  | refused t res out =>
    obtain ⟨old,here⟩ := isOutside_iff.mp out
    exact before.goes rfl rfl rfl rfl (by simp [here]) (by simp) (by simp) (by simp)
  | called t flags out =>
    obtain ⟨old,here⟩ := isOutside_iff.mp out
    exact before.goes rfl rfl rfl rfl (by simp [here]) (by simp) (by simp) (by simp)
  | fdget t slot f out =>
    obtain ⟨old,here⟩ := isOutside_iff.mp out
    exact before.goes rfl rfl rfl rfl (by simp [here]) (by simp) (by simp) (by simp)
  | noMemory t _ here | freeUid t here | noFd t _ _ _ here | noFile t _ _ _ here | fdInstall t _ _ here
  | putUnusedFd t _ _ _ here | epFree t _ _ here | otherFile t _ here | polled t _ _ _ here | fdput t _ _ here =>
    exact before.goes rfl rfl rfl rfl (by simp [here]) (by simp) (by simp) (by simp)
  | kzalloc t flags ep here fresh =>
    exact (before.kzalloc balanced fresh).goes rfl rfl rfl rfl (by simp [here]) (by simp) (by simp) (by simp)
  | initialise t flags ep here =>
    exact (before.initialise ep).goes rfl rfl rfl rfl (by simp [here]) (by simp) (by simp) (by simp)
  | getFd t flags ep fd here fresh =>
    have initialised := before.ready t ep (.inl ⟨flags,here⟩)
    exact before.goes rfl rfl rfl rfl (by simp [here]) (by simp) (by simpa using initialised) (by simp)
  | epollFile t f ep here found =>
    exact before.goes rfl rfl rfl rfl (by simp [here]) (by simp) (by simp) (by simpa using found)
  | getFile t ep fd file here fresh => exact before.getFile here
  | setFile t ep fd file here => exact before.setFile balanced here
  | close slot f listed installed => exact {before with}
  | dup slot f copy => exact {before with}
  | openOther fd file fresh new =>
    exact ⟨before.ready,List.forall_mem_cons.mpr ⟨by simp,before.complete⟩,
      fun r ep fd f here => List.mem_cons_of_mem _ (before.setting r ep fd f here),
      fun r f ep here => List.mem_cons_of_mem _ (before.waiting r f ep here)⟩
  | release file listed last => exact before.release last _

end Coherent

/-- Two calls that hold a reference on a file make two references. -/
theorem two_refs {r : Fin n} {f : Nat} (apart : r ≠ t) (first : (s.calls t).refs = {f}) (second : (s.calls r).refs = {f}) :
    2 ≤ s.refs.count f := by
  have lost := total_lose CallPc.refs s.calls t (.outside 0) rfl
  have other : (Function.update s.calls t (.outside 0) r).refs = {f} := by rw [Function.update_of_ne apart,second]
  have rest := Multiset.count_le_of_le f (other ▸ le_total (Function.update s.calls t (.outside 0)) r CallPc.refs)
  rw [Objects.refs,← lost,first]
  simp only [Multiset.count_add,Multiset.count_singleton_self] at rest ⊢
  omega

/-- The file is there, and if it is an epoll file, its eventpoll is there, is initialised and
refers to the file. -/
def Objects.Complete (s : Objects n) (f : Nat) (data : Option Nat) : Prop :=
  (⟨f,data⟩ : File) ∈ s.files ∧ ∀ ep, data = some ep → ep ∈ s.eps ∧ s.ready ep = true ∧ s.epFile ep = some f

/-- Nothing is on the way: no descriptor is reserved, every eventpoll that has not been given to
`ep_free` has its file, which is in the table unless it is to be released, and there is one
reference on the user for each eventpoll there is or has been. -/
structure Objects.Settled (s : Objects n) : Prop where
  installed : ∀ slot ∈ s.slots, slot.file ≠ none
  users : s.users = s.eps.length + s.freed
  owned : ∀ ep, ep ∈ s.eps ↔ ∃ file ∈ s.files, file.privateData = some ep
  opened : ∀ file ∈ s.files, file.addr ∈ s.refs → ∃ slot ∈ s.slots, slot.file = some file.addr

def NewObjects (s : Objects n) : Prop :=
  s.eps = [] ∧ s.freed = 0 ∧ s.files = [] ∧ s.slots = [] ∧ s.users = 0 ∧ ∀ t, (s.calls t).isOutside = true

structure Sound (s : Objects n) : Prop where
  balanced : Balanced s
  referenced : Referenced s
  coherent : Coherent s

theorem outside_refs (out : pc.isOutside = true) : pc.eps = 0 ∧ pc.fds = 0 ∧ pc.refs = 0 ∧ pc.users = 0 ∧ pc.creates = none := by
  obtain ⟨res,rfl⟩ := isOutside_iff.mp out
  exact ⟨rfl,rfl,rfl,rfl,rfl⟩

theorem sound_new (new : NewObjects s) : Sound s := by
  obtain ⟨eps,freed,files,slots,users,out⟩ := new
  have none (t : Fin n) := outside_refs (out t)
  have idle (t : Fin n) := isOutside_iff.mp (out t)
  refine ⟨⟨?_,?_,?_,by simp [eps],by rw [files]; exact List.nodup_nil,by rw [slots]; exact List.nodup_nil⟩,
    ⟨fun f inside => ?_,fun t f creates => ?_⟩,
    ⟨fun t ep here => ?_,by simp [files],fun t ep fd f here => ?_,fun t f ep here => ?_⟩⟩
  · rw [eps,files,total_zero fun t => (none t).1]
    rfl
  · rw [slots,total_zero fun t => (none t).2.1]
    rfl
  · rw [users,eps,freed,total_zero fun t => (none t).2.2.2.1]
    rfl
  · rw [Objects.refs,slots,total_zero fun t => (none t).2.2.1] at inside
    simp at inside
  · rw [(none t).2.2.2.2] at creates
    cases creates
  · obtain ⟨res,idle⟩ := idle t
    simp [idle] at here
  · obtain ⟨res,idle⟩ := idle t
    simp [idle] at here
  · obtain ⟨res,idle⟩ := idle t
    simp [idle] at here

theorem sound_objects {start : Objects n} {ls : List (ObjLabel n)} (new : NewObjects start) (run : Run objStep start ls s)
    (lawful : Along objStep (fun s l => s.lawful l = true) start ls) : Sound s := by
  refine run.keeps _ Sound ?_ lawful (sound_new new)
  intro s l u before lawful ok
  have move := objStep_move l lawful ok
  exact ⟨before.balanced.move move,before.referenced.move before.balanced move,before.coherent.move before.balanced move⟩

theorem Sound.complete (sound : Sound s) {f : Nat} {data : Option Nat} (member : (⟨f,data⟩ : File) ∈ s.files)
    (shared : ∀ t, (s.calls t).creates ≠ some f) : s.Complete f data := by
  refine ⟨member,fun ep same => ?_⟩
  obtain ⟨ready,either⟩ := sound.coherent.complete _ member ep same
  refine ⟨?_,ready,either.resolve_left ?_⟩
  · rw [← Multiset.mem_coe,sound.balanced.eps]
    exact Multiset.mem_add.mpr (.inr (Multiset.mem_coe.mpr (List.mem_filterMap.mpr ⟨_,member,same⟩)))
  · rintro ⟨t,fd,here⟩
    exact shared t (by rw [here]; rfl)

/-- Whatever threads create, use and close, in a kernel that hands out what is not in use and
releases what nobody refers to: a descriptor of the table leads to a file that is complete,
`ep_poll` works on an eventpoll that exists, and once all calls have returned there is
nothing left of those that failed. -/
theorem eventpoll_lifetime (n : Nat) (start s : Objects n) (ls : List (ObjLabel n)) (new : NewObjects start)
    (run : Run objStep start ls s) (lawful : Along objStep (fun s l => s.lawful l = true) start ls) :
    (∀ slot ∈ s.slots, ∀ f, slot.file = some f → ∃ data, s.Complete f data) ∧
    (∀ t f ep, s.calls t = .epPoll f ep → s.Complete f (some ep)) ∧
    ((∀ t, (s.calls t).isOutside = true) → s.Settled) := by
  have sound := sound_objects new run lawful
  have listed (slot : Slot) (member : slot ∈ s.slots) (f : Nat) (installed : slot.file = some f) :
      f ∈ s.slots.filterMap Slot.file := List.mem_filterMap.mpr ⟨slot,member,installed⟩
  refine ⟨fun slot member f installed => ?_,fun t f ep here => ?_,fun out => ?_⟩
  · have table := listed slot member f installed
    have live := sound.referenced.live f (Multiset.mem_add.mpr (.inl table))
    obtain ⟨file,inside,rfl⟩ := List.mem_map.mp live
    exact ⟨file.privateData,sound.complete inside fun t creates => sound.referenced.unlisted creates table⟩
  · refine sound.complete (sound.coherent.waiting t f ep here) fun r creates => ?_
    have apart : r ≠ t := by
      rintro rfl
      rw [here] at creates
      cases creates
    have two := two_refs apart (by rw [here]; rfl) (creates_refs creates)
    have one := sound.referenced.alone r f creates
    omega
  · have none (t : Fin n) := outside_refs (out t)
    have eps := sound.balanced.eps
    have fds := sound.balanced.fds
    have users := sound.balanced.users
    rw [total_zero fun t => (none t).1,zero_add,Multiset.coe_eq_coe] at eps
    rw [total_zero fun t => (none t).2.1] at fds
    rw [total_zero fun t => (none t).2.2.2.1] at users
    refine ⟨fun slot member free => ?_,by simpa using users,fun ep => ?_,fun file member held => ?_⟩
    · have reserved : slot.fd ∈ (((s.slots.filter fun slot => slot.file.isNone).map Slot.fd : List Int) : Multiset Int) :=
        Multiset.mem_coe.mpr (List.mem_map_of_mem (List.mem_filter.mpr ⟨member,by simp [free]⟩))
      rw [fds] at reserved
      exact Multiset.notMem_zero _ reserved
    · rw [eps.mem_iff,List.mem_filterMap]
    · rw [Objects.refs,total_zero fun t => (none t).2.2.1] at held
      obtain ⟨slot,inside,installed⟩ := List.mem_filterMap.mp (Multiset.mem_coe.mp (by simpa using held))
      exact ⟨slot,inside,installed⟩

end

private def noObjects : Objects 2 := ⟨[],0,fun _ => false,fun _ => none,[],[],0,fun _ => .outside 0⟩

/-- A first eventpoll comes and goes. Thread 1 waits on descriptor 3, thread 0 closes it and fails
to create another eventpoll. -/
private def closedUnderWait : List (ObjLabel 2) :=
  [.epollCreate1 0 0,.kzalloc 0 (some 6),.next 0,.getUnusedFd 0 3,.anonInodeGetfile 0 (.ok 5),.next 0,.next 0,.close 0 3,
    .release 5 (some 6),.epollCreate1 0 epollCloexec,.kzalloc 0 (some 7),.next 0,.getUnusedFd 0 3,
    .anonInodeGetfile 0 (.ok 9),.next 0,.next 0,.epollWait 1 3 8 true,.next 1,.close 0 3,.epollCreate 0 1,
    .kzalloc 0 (some 8),.next 0,.getUnusedFd 0 3,.anonInodeGetfile 0 (.error (-12)),.next 0]

theorem eventpoll_lifetime_closedUnderWait :
    let s := final objStep noObjects closedUnderWait
    s.slots = [] ∧ s.eps = [8,7] ∧ s.freed = 1 ∧ s.calls 1 = .epPoll 9 7 ∧ s.Complete 9 (some 7) := by
  intro s
  exact ⟨by decide +kernel,by decide +kernel,by decide +kernel,by decide +kernel,
    (eventpoll_lifetime 2 noObjects s closedUnderWait ⟨rfl,rfl,rfl,rfl,rfl,fun _ => rfl⟩
      (final_run objStep noObjects closedUnderWait (by decide +kernel)) (by decide +kernel)).2.1 1 9 7 (by decide +kernel)⟩

end Reactor.Epoll
