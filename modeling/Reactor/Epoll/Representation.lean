import Mathlib.Data.List.Nodup
import Reactor.Epoll.Move

/-! Representation invariant of the ready lists: which links, pointers and list
memberships agree in every reachable state, and what the loop over the overflow
chain at the end of a scan computes. -/
namespace Reactor.Epoll
open Reactor.Transition Reactor.Threaded

def Holder.isScan : Holder → Bool
  | .scan _ => true
  | _ => false

/-- The item a scan has taken off the lists and not put back or let go. -/
def ProcPc.inHand : ProcPc → Option Nat
  | .poll epi | .copy epi _ | .faulted epi | .settle epi | .requeue epi => some epi
  | _ => none

/-- The item a scan has chosen while it is still first on `txlist`. -/
def ProcPc.chosen : ProcPc → Option Nat
  | .relax epi | .unlink epi => some epi
  | _ => none

structure Lists (ep : Eventpoll) : Prop where
  distinct : (ep.rdllist ++ ep.txlist).Nodup
  allocated : ∀ i ∈ ep.rdllist ++ ep.txlist, i ∈ ep.slab
  linked : ∀ i ∈ ep.slab, ep.rdllink i = true ↔ i ∈ ep.rdllist ++ ep.txlist
  slab : ep.slab.Nodup
  attached : ∀ i w, some w ∈ ep.pwqlist i → i ∈ ep.slab

/-- The overflow chain visits `ns`, which are the items with an active `next`. -/
structure Chained (next : Nat → Link Nat) (ovflist : Link Nat) (slab ns : List Nat) : Prop where
  chain : Chain next ovflist ns
  allocated : ∀ i ∈ ns, i ∈ slab
  active : ∀ i ∈ slab, next i ≠ .unlinked → i ∈ ns

structure Overflow (ep : Eventpoll) : Prop where
  scanning : ep.mtx.isScan = true → ∃ ns, Chained ep.next ep.ovflist ep.slab ns
  resting : ep.mtx.isScan = false →
    ep.ovflist = .unlinked ∧ ep.txlist = [] ∧ ∀ i ∈ ep.slab, ep.next i = .unlinked

/-- What the position of the holder of `ep->mtx` says about its item. -/
structure Position (ep : Eventpoll) : Prop where
  inHand : ∀ scan i, ep.mtx = .scan scan → scan.pc.inHand = some i →
    i ∈ ep.slab ∧ i ∉ ep.rdllist ++ ep.txlist
  chosen : ∀ scan i, ep.mtx = .scan scan → scan.pc.chosen = some i → ∃ rest, ep.txlist = i::rest
  inserting : ∀ insert, ep.mtx = .insert insert → insert.epi ∈ ep.slab
  unregistered : ∀ insert, ep.mtx = .insert insert → insert.pc = .drop →
    ∀ w, some w ∉ ep.pwqlist insert.epi

structure Rep (ep : Eventpoll) : Prop where
  lists : Lists ep
  overflow : Overflow ep
  position : Position ep

theorem Lists.unlinked {ep : Eventpoll} (lists : Lists ep) (i : Nat) (inside : i ∈ ep.slab) :
    ep.rdllink i = false ↔ i ∉ ep.rdllist ++ ep.txlist := by
  rw [← lists.linked i inside]
  simp

private theorem lists_link (ep t : Eventpoll) (lists : Lists ep) (epi : Nat) (inside : epi ∈ ep.slab)
    (off : epi ∉ ep.rdllist ++ ep.txlist) (more : (t.rdllist ++ t.txlist).Perm (epi :: (ep.rdllist ++ ep.txlist)))
    (link : t.rdllink = Function.update ep.rdllink epi true) (slab : t.slab = ep.slab)
    (fewer : ∀ i w, some w ∈ t.pwqlist i → some w ∈ ep.pwqlist i) : Lists t where
  distinct := more.nodup_iff.mpr (List.nodup_cons.mpr ⟨off,lists.distinct⟩)
  allocated := by
    intro i member
    rw [slab]
    rcases List.mem_cons.mp (more.mem_iff.mp member) with rfl | old
    · exact inside
    · exact lists.allocated i old
  linked := by
    intro i present
    rw [slab] at present
    rw [more.mem_iff,List.mem_cons,link]
    by_cases same : i = epi
    · subst i
      simp
    · rw [Function.update_of_ne same,lists.linked i present]
      simp [same]
  slab := slab ▸ lists.slab
  attached := by
    intro i w member
    rw [slab]
    exact lists.attached i w (fewer i w member)

theorem Lists.mem_delInit {ep : Eventpoll} (lists : Lists ep) (epi i : Nat) :
    i ∈ (ep.listDelInit epi).rdllist ++ (ep.listDelInit epi).txlist ↔ i ≠ epi ∧ i ∈ ep.rdllist ++ ep.txlist := by
  have parts := List.nodup_append.mp lists.distinct
  simp only [Eventpoll.listDelInit,List.mem_append,parts.1.mem_erase_iff,parts.2.1.mem_erase_iff]
  tauto

private theorem lists_addTail (ep t : Eventpoll) (lists : Lists ep) (epi : Nat) (inside : epi ∈ ep.slab)
    (off : epi ∉ ep.rdllist ++ ep.txlist) (rdllist : t.rdllist = ep.rdllist ++ [epi]) (txlist : t.txlist = ep.txlist)
    (link : t.rdllink = Function.update ep.rdllink epi true) (slab : t.slab = ep.slab)
    (pwqlist : t.pwqlist = ep.pwqlist) : Lists t := by
  refine lists_link ep t lists epi inside off ?_ link slab (fun i w member => pwqlist ▸ member)
  rw [rdllist,txlist,List.append_assoc]
  exact List.perm_middle

private theorem lists_delInit (ep : Eventpoll) (lists : Lists ep) (epi : Nat) :
    Lists (ep.listDelInit epi) := by
  refine {lists with distinct := ?_, allocated := ?_, linked := ?_}
  · exact lists.distinct.sublist (List.erase_sublist.append List.erase_sublist)
  · intro i inside
    exact lists.allocated i ((lists.mem_delInit epi i).mp inside).2
  · intro i present
    rw [show (ep.listDelInit epi).rdllink = Function.update ep.rdllink epi false from rfl]
    refine Iff.trans ?_ (lists.mem_delInit epi i).symm
    by_cases same : i = epi
    · subst i
      simp
    · rw [Function.update_of_ne same,lists.linked i present]
      simp [same]

theorem Chained.member {next : Nat → Link Nat} {ovflist : Link Nat} {slab ns : List Nat}
    (chained : Chained next ovflist slab ns) (i : Nat) (present : i ∈ slab) :
    next i ≠ .unlinked ↔ i ∈ ns :=
  ⟨chained.active i present,chained.chain.next_linked i⟩

theorem Chained.short {next : Nat → Link Nat} {ovflist : Link Nat} {slab ns : List Nat}
    (chained : Chained next ovflist slab ns) : ns.length ≤ slab.length :=
  (chained.chain.nodup.subperm chained.allocated).length_le

private theorem chained_push {next : Nat → Link Nat} {ovflist : Link Nat} {slab ns : List Nat}
    (chained : Chained next ovflist slab ns) (epi : Nat) (inside : epi ∈ slab)
    (off : next epi = .unlinked) :
    Chained (Function.update next epi ovflist) (.node epi) slab (epi::ns) := by
  have absent : epi ∉ ns := fun member => chained.chain.next_linked epi member off
  refine ⟨chained.chain.push epi absent,?_,?_⟩
  · intro i member
    rcases List.mem_cons.mp member with rfl | old
    · exact inside
    · exact chained.allocated i old
  · intro i present linked
    by_cases same : i = epi
    · simp [same]
    · rw [Function.update_of_ne same] at linked
      exact List.mem_cons_of_mem epi (chained.active i present linked)

/-- The loop runs once over the chain and stops at its end. -/
theorem drain_chain (ns : List Nat) (ep : Eventpoll) (p : Link Nat) (chain : Chain ep.next p ns)
    (fuel : Nat) (enough : ns.length < fuel) :
    ep.drain fuel p = some (ns.foldl Eventpoll.drainItem ep) := by
  induction ns generalizing ep p fuel with
  | nil =>
    cases chain
    cases fuel with
    | zero => omega
    | succ fuel => rfl
  | cons n ns ih =>
    cases fuel with
    | zero => omega
    | succ fuel =>
      cases chain with
      | cons _ _ tail =>
        have rest := (Chain.cons n ns tail).pop
        have next : (ep.drainItem n).next = Function.update ep.next n .unlinked := by
          unfold Eventpoll.drainItem
          split <;> rfl
        rw [← next] at rest
        exact ih (ep.drainItem n) (ep.next n) rest fuel (by simpa using enough)

private theorem drained_frame {A : Type} (field : Eventpoll → A)
    (same : ∀ ep i, field (Eventpoll.drainItem ep i) = field ep) (ns : List Nat) (ep : Eventpoll) :
    field (ns.foldl Eventpoll.drainItem ep) = field ep := by
  induction ns generalizing ep with
  | nil => rfl
  | cons n ns ih => rw [List.foldl_cons,ih,same]

@[simp] theorem drained_slab (ns : List Nat) (ep : Eventpoll) : (ns.foldl Eventpoll.drainItem ep).slab = ep.slab :=
  drained_frame Eventpoll.slab (fun ep i => by unfold Eventpoll.drainItem; split <;> rfl) ns ep

@[simp] theorem drained_rbr (ns : List Nat) (ep : Eventpoll) : (ns.foldl Eventpoll.drainItem ep).rbr = ep.rbr :=
  drained_frame Eventpoll.rbr (fun ep i => by unfold Eventpoll.drainItem; split <;> rfl) ns ep

@[simp] theorem drained_txlist (ns : List Nat) (ep : Eventpoll) :
    (ns.foldl Eventpoll.drainItem ep).txlist = ep.txlist :=
  drained_frame Eventpoll.txlist (fun ep i => by unfold Eventpoll.drainItem; split <;> rfl) ns ep

@[simp] theorem drained_pwqlist (ns : List Nat) (ep : Eventpoll) :
    (ns.foldl Eventpoll.drainItem ep).pwqlist = ep.pwqlist :=
  drained_frame Eventpoll.pwqlist (fun ep i => by unfold Eventpoll.drainItem; split <;> rfl) ns ep

@[simp] theorem drained_events (ns : List Nat) (ep : Eventpoll) :
    (ns.foldl Eventpoll.drainItem ep).events = ep.events :=
  drained_frame Eventpoll.events (fun ep i => by unfold Eventpoll.drainItem; split <;> rfl) ns ep

@[simp] theorem drained_ws (ns : List Nat) (ep : Eventpoll) : (ns.foldl Eventpoll.drainItem ep).ws = ep.ws :=
  drained_frame Eventpoll.ws (fun ep i => by unfold Eventpoll.drainItem; split <;> rfl) ns ep

private theorem drainItem_rdllink (ep : Eventpoll) (n i : Nat) :
    (ep.drainItem n).rdllink i = (ep.rdllink i || decide (i = n)) := by
  by_cases linked : ep.rdllink n = true
  · by_cases same : i = n
    · subst i
      simp [Eventpoll.drainItem,linked]
    · simp [Eventpoll.drainItem,linked,same]
  · by_cases same : i = n
    · subst i
      simp [Eventpoll.drainItem,linked,Eventpoll.epPmStayAwake,Eventpoll.listAddTail]
    · simp [Eventpoll.drainItem,linked,Eventpoll.epPmStayAwake,Eventpoll.listAddTail,same]

theorem drained_rdllink (ns : List Nat) (ep : Eventpoll) (i : Nat) :
    (ns.foldl Eventpoll.drainItem ep).rdllink i = (ep.rdllink i || decide (i ∈ ns)) := by
  induction ns generalizing ep with
  | nil => simp
  | cons n ns ih =>
    rw [List.foldl_cons,ih,drainItem_rdllink]
    by_cases same : i = n <;> simp [same]

theorem drained_next (ns : List Nat) (ep : Eventpoll) (i : Nat) :
    (ns.foldl Eventpoll.drainItem ep).next i = if i ∈ ns then .unlinked else ep.next i := by
  induction ns generalizing ep with
  | nil => simp
  | cons n ns ih =>
    have next : (ep.drainItem n).next = Function.update ep.next n .unlinked := by
      unfold Eventpoll.drainItem
      split <;> rfl
    rw [List.foldl_cons,ih,next]
    by_cases same : i = n <;> simp [same]

theorem Chained.drained_inactive {ep : Eventpoll} {ns : List Nat} (chained : Chained ep.next ep.ovflist ep.slab ns)
    (i : Nat) (present : i ∈ ep.slab) : (ns.foldl Eventpoll.drainItem ep).next i = .unlinked := by
  rw [drained_next]
  by_cases member : i ∈ ns
  · simp [member]
  · simpa [member] using (chained.member i present).not.mpr member

theorem drained_rdllist (ns : List Nat) (distinct : ns.Nodup) (ep : Eventpoll) :
    (ns.foldl Eventpoll.drainItem ep).rdllist =
      ep.rdllist ++ ns.filter (fun i => !ep.rdllink i) := by
  induction ns generalizing ep with
  | nil => simp
  | cons n ns ih =>
    obtain ⟨absent,rest⟩ := List.nodup_cons.mp distinct
    have others : ns.filter (fun i => !(ep.drainItem n).rdllink i) =
        ns.filter (fun i => !ep.rdllink i) := by
      apply List.filter_congr
      intro i member
      have other : i ≠ n := fun same => absent (same ▸ member)
      simp [drainItem_rdllink,other]
    rw [List.foldl_cons,ih rest,others]
    by_cases linked : ep.rdllink n = true
    · simp [Eventpoll.drainItem,linked]
    · simp [Eventpoll.drainItem,linked,Eventpoll.epPmStayAwake,Eventpoll.listAddTail]

private theorem overflow_scan (ep t : Eventpoll) (overflow : Overflow ep) (scan moved : Scan)
    (held : ep.mtx = .scan scan) (still : t.mtx = .scan moved) (next : t.next = ep.next)
    (ovflist : t.ovflist = ep.ovflist) (slab : t.slab = ep.slab) : Overflow t where
  scanning := by
    intro _
    rw [next,ovflist,slab]
    exact overflow.scanning (by rw [held]; rfl)
  resting := fun rest => by simp [still,Holder.isScan] at rest

private theorem overflow_insert (ep : Eventpoll) (overflow : Overflow ep) (idle : ep.mtx.isScan = false)
    (mtx : Holder) (still : mtx.isScan = false) : Overflow {ep with mtx := mtx} where
  scanning := fun busy => by simp [still] at busy
  resting := fun _ => overflow.resting idle

private theorem position_scan (ep : Eventpoll) (moved : Scan)
    (hand : ∀ i, moved.pc.inHand = some i → i ∈ ep.slab ∧ i ∉ ep.rdllist ++ ep.txlist)
    (chosen : ∀ i, moved.pc.chosen = some i → ∃ rest, ep.txlist = i::rest) :
    Position {ep with mtx := .scan moved} where
  inHand := by
    intro scan i same pc
    cases same
    exact hand i pc
  chosen := by
    intro scan i same pc
    cases same
    exact chosen i pc
  inserting := fun insert same => by cases same
  unregistered := fun insert same => by cases same

private theorem position_insert (ep : Eventpoll) (moved : Insert) (inside : moved.epi ∈ ep.slab)
    (gone : moved.pc = .drop → ∀ w, some w ∉ ep.pwqlist moved.epi) :
    Position {ep with mtx := .insert moved} where
  inHand := fun scan i same => by cases same
  chosen := fun scan i same => by cases same
  inserting := by
    intro insert same
    cases same
    exact inside
  unregistered := by
    intro insert same pc
    cases same
    exact gone pc

private theorem position_free (ep : Eventpoll) (free : ep.mtx = .free) : Position ep where
  inHand := fun scan i same => by simp [free] at same
  chosen := fun scan i same => by simp [free] at same
  inserting := fun insert same => by simp [free] at same
  unregistered := fun insert same => by simp [free] at same

theorem Rep.drains {ep : Eventpoll} (rep : Rep ep) (busy : ep.mtx.isScan = true) :
    ∃ ns, Chained ep.next ep.ovflist ep.slab ns ∧
      ep.drain (ep.slab.length + 1) ep.ovflist = some (ns.foldl Eventpoll.drainItem ep) := by
  obtain ⟨ns,chained⟩ := rep.overflow.scanning busy
  exact ⟨ns,chained,drain_chain ns ep ep.ovflist chained.chain _ (Nat.lt_succ_of_le chained.short)⟩

theorem Rep.chained {ep : Eventpoll} (rep : Rep ep) (busy : ep.mtx.isScan = true) :
    Chained ep.next ep.ovflist ep.slab ep.overflow := by
  obtain ⟨ns,chained⟩ := rep.overflow.scanning busy
  rw [Eventpoll.overflow,chained.chain.follow_eq ep.slab.length chained.short]
  exact chained

private theorem lists_scanEnd (ep : Eventpoll) (lists : Lists ep) (ns : List Nat)
    (chained : Chained ep.next ep.ovflist ep.slab ns) :
    Lists {(ns.foldl Eventpoll.drainItem ep).spliceBack with ws := false, mtx := .free} := by
  have slab := drained_slab ns ep
  have rdllist := drained_rdllist ns chained.chain.nodup ep
  have fresh : ∀ i ∈ ns.filter (fun i => !ep.rdllink i), i ∉ ep.rdllist ++ ep.txlist := by
    intro i member
    obtain ⟨inside,off⟩ := List.mem_filter.mp member
    exact (lists.unlinked i (chained.allocated i inside)).mp (by simpa using off)
  have order : (ep.txlist ++ (ep.rdllist ++ ns.filter (fun i => !ep.rdllink i))).Perm
      ((ep.rdllist ++ ep.txlist) ++ ns.filter (fun i => !ep.rdllink i)) := by
    rw [← List.append_assoc]
    exact List.perm_append_comm.append_right _
  have distinct : (ep.txlist ++ (ep.rdllist ++ ns.filter (fun i => !ep.rdllink i))).Nodup := by
    refine order.nodup_iff.mpr (lists.distinct.append (chained.chain.nodup.filter _) ?_)
    intro i old new
    exact fresh i new old
  refine ⟨?_,?_,?_,?_,?_⟩
  · simpa only [Eventpoll.spliceBack,rdllist,drained_txlist,List.append_nil] using distinct
  · intro i member
    simp only [Eventpoll.spliceBack,rdllist,drained_txlist,List.append_nil] at member
    change i ∈ (ns.foldl Eventpoll.drainItem ep).slab
    rw [slab]
    rcases List.mem_append.mp (order.mem_iff.mp member) with old | new
    · exact lists.allocated i old
    · exact chained.allocated i (List.mem_filter.mp new).1
  · intro i present
    change i ∈ (ns.foldl Eventpoll.drainItem ep).slab at present
    rw [slab] at present
    change (ns.foldl Eventpoll.drainItem ep).rdllink i = true ↔ _
    simp only [Eventpoll.spliceBack,rdllist,drained_txlist,List.append_nil]
    rw [order.mem_iff,drained_rdllink,List.mem_append,← lists.linked i present,List.mem_filter]
    cases ep.rdllink i <;> simp
  · change (ns.foldl Eventpoll.drainItem ep).slab.Nodup
    rw [slab]
    exact lists.slab
  · intro i w member
    change some w ∈ (ns.foldl Eventpoll.drainItem ep).pwqlist i at member
    change i ∈ (ns.foldl Eventpoll.drainItem ep).slab
    rw [drained_pwqlist] at member
    rw [slab]
    exact lists.attached i w member

private theorem overflow_scanEnd (ep : Eventpoll) (ns : List Nat)
    (chained : Chained ep.next ep.ovflist ep.slab ns) :
    Overflow {(ns.foldl Eventpoll.drainItem ep).spliceBack with ws := false, mtx := .free} := by
  refine ⟨fun busy => by simp [Holder.isScan] at busy,fun _ => ⟨rfl,rfl,?_⟩⟩
  intro i present
  change i ∈ (ns.foldl Eventpoll.drainItem ep).slab at present
  rw [drained_slab] at present
  exact chained.drained_inactive i present

theorem rep_epAlloc (ep : Eventpoll) (blank : epAlloc ep) : Rep ep := by
  obtain ⟨free,rdllist,txlist,ovflist,_,_,slab,pwqlist⟩ := blank
  refine ⟨⟨?_,?_,?_,?_,?_⟩,⟨?_,?_⟩,position_free ep free⟩
  · simp [rdllist,txlist]
  · simp [rdllist,txlist]
  · simp [slab]
  · simp [slab]
  · simp [pwqlist]
  · simp [free,Holder.isScan]
  · simp [ovflist,txlist,slab]

private theorem rep_callback (ep : Eventpoll) (rep : Rep ep) (pwq : Nat → List (Option Nat))
    (fewer : ∀ i w, some w ∈ pwq i → some w ∈ ep.pwqlist i) : Rep {ep with pwqlist := pwq} := by
  refine ⟨{rep.lists with attached := ?_},{rep.overflow with},{rep.position with unregistered := ?_}⟩
  · intro i w member
    exact rep.lists.attached i w (fewer i w member)
  · intro insert held gone w member
    exact rep.position.unregistered insert held gone w (fewer insert.epi w member)

theorem Rep.active {ep : Eventpoll} (rep : Rep ep) : ep.mtx.isScan = true ↔ ep.ovflist ≠ .unlinked := by
  constructor
  · intro busy
    obtain ⟨ns,chained⟩ := rep.overflow.scanning busy
    exact chained.chain.not_unlinked
  · intro active
    by_contra idle
    exact active (rep.overflow.resting (by simpa using idle)).1

private theorem rep_addTail (ep : Eventpoll) (rep : Rep ep) (idle : ep.mtx.isScan = false) (epi : Nat)
    (inside : epi ∈ ep.slab) (off : ep.rdllink epi = false) :
    Rep ((ep.listAddTail epi).epPmStayAwake epi) := by
  have absent := (rep.lists.unlinked epi inside).mp off
  refine ⟨lists_addTail ep _ rep.lists epi inside absent rfl rfl rfl rfl rfl,{rep.overflow with},
    {rep.position with inHand := ?_}⟩
  intro scan i held
  change ep.mtx = .scan scan at held
  simp [held,Holder.isScan] at idle

/-- The scan moves on and takes no other item than it had. -/
private theorem rep_pc (ep : Eventpoll) (rep : Rep ep) (scan moved : Scan) (held : ep.mtx = .scan scan)
    (hand : ∀ i, moved.pc.inHand = some i → scan.pc.inHand = some i)
    (chosen : ∀ i, moved.pc.chosen = some i → scan.pc.chosen = some i) : Rep {ep with mtx := .scan moved} := by
  refine ⟨{rep.lists with},overflow_scan ep _ rep.overflow scan _ held rfl rfl rfl rfl,position_scan ep moved ?_ ?_⟩
  · intro i now
    exact rep.position.inHand scan i held (hand i now)
  · intro i now
    exact rep.position.chosen scan i held (chosen i now)

private theorem rep_unlink (ep : Eventpoll) (rep : Rep ep) (scan : Scan) (epi : Nat)
    (held : ep.mtx = .scan scan) (here : scan.pc = .unlink epi) :
    Rep ((ep.listDelInit epi).withPc scan (.poll epi)) := by
  obtain ⟨rest,first⟩ := rep.position.chosen scan epi held (by rw [here]; rfl)
  have inside : epi ∈ ep.slab := rep.lists.allocated epi (by simp [first])
  refine ⟨{lists_delInit ep rep.lists epi with},overflow_scan ep _ rep.overflow scan _ held rfl rfl rfl rfl,
    position_scan (ep.listDelInit epi) _ ?_ (by simp [ProcPc.chosen])⟩
  intro i same
  have same : epi = i := by simpa [ProcPc.inHand] using same
  subst i
  exact ⟨inside,fun still => ((rep.lists.mem_delInit epi epi).mp still).1 rfl⟩

private theorem rep_relink (ep : Eventpoll) (rep : Rep ep) (scan : Scan) (epi : Nat)
    (held : ep.mtx = .scan scan) (here : scan.pc = .faulted epi) :
    Rep ((ep.listAddTx epi).withPc scan (.restay epi)) := by
  obtain ⟨inside,absent⟩ := rep.position.inHand scan epi held (by rw [here]; rfl)
  refine ⟨?_,overflow_scan ep _ rep.overflow scan _ held rfl rfl rfl rfl,
    position_scan (ep.listAddTx epi) _ (by simp [ProcPc.inHand]) (by simp [ProcPc.chosen])⟩
  exact lists_link ep _ rep.lists epi inside absent List.perm_middle rfl rfl (fun i w member => member)

private theorem rep_requeue (ep : Eventpoll) (rep : Rep ep) (scan : Scan) (epi : Nat)
    (held : ep.mtx = .scan scan) (here : scan.pc = .requeue epi) :
    Rep ((ep.listAddTail epi).withPc scan (.stay epi)) := by
  obtain ⟨inside,absent⟩ := rep.position.inHand scan epi held (by rw [here]; rfl)
  exact ⟨lists_addTail ep _ rep.lists epi inside absent rfl rfl rfl rfl rfl,
    overflow_scan ep _ rep.overflow scan _ held rfl rfl rfl rfl,
    position_scan (ep.listAddTail epi) _ (by simp [ProcPc.inHand]) (by simp [ProcPc.chosen])⟩

private theorem rep_scanStart (ep : Eventpoll) (rep : Rep ep) (free : ep.mtx = .free) (maxevents : Nat) :
    Rep (ep.scanStart maxevents) := by
  have idle : ep.mtx.isScan = false := by rw [free]; rfl
  obtain ⟨_,_,inactive⟩ := rep.overflow.resting idle
  refine ⟨⟨?_,?_,?_,rep.lists.slab,rep.lists.attached⟩,⟨?_,?_⟩,
    position_scan (ep.scanStart maxevents) _ (by simp [ProcPc.inHand]) (by simp [ProcPc.chosen])⟩
  · exact rep.lists.distinct
  · exact rep.lists.allocated
  · exact rep.lists.linked
  · intro _
    refine ⟨[],.nil,by simp,?_⟩
    intro i present linked
    exact absurd (inactive i present) linked
  · intro rest
    simp [Eventpoll.scanStart,Holder.isScan] at rest

private theorem rep_insertBegin (ep : Eventpoll) (rep : Rep ep) (free : ep.mtx = .free) (epi : Nat)
    (fresh : epi ∉ ep.slab) (ffd : Nat × Int) (events : EventMask) (data : BitVec 64) (fullCheck : Bool) :
    Rep (ep.insertBegin epi ffd events data fullCheck) := by
  have idle : ep.mtx.isScan = false := by rw [free]; rfl
  obtain ⟨inactive,empty,quiet⟩ := rep.overflow.resting idle
  have absent : epi ∉ ep.rdllist ++ ep.txlist := fun member => fresh (rep.lists.allocated epi member)
  refine ⟨⟨rep.lists.distinct,?_,?_,List.nodup_cons.mpr ⟨fresh,rep.lists.slab⟩,?_⟩,⟨?_,?_⟩,
    position_insert (ep.insertBegin epi ffd events data fullCheck) _ (by simp [Eventpoll.insertBegin]) (by simp)⟩
  · intro i member
    exact List.mem_cons_of_mem epi (rep.lists.allocated i member)
  · intro i present
    change Function.update ep.rdllink epi false i = true ↔ i ∈ ep.rdllist ++ ep.txlist
    by_cases same : i = epi
    · subst i
      simp only [Function.update_self,absent,iff_false]
      simp
    · rw [Function.update_of_ne same]
      exact rep.lists.linked i ((List.mem_cons.mp present).resolve_left same)
  · intro i w member
    change some w ∈ Function.update ep.pwqlist epi [] i at member
    by_cases same : i = epi
    · subst i
      simp at member
    · rw [Function.update_of_ne same] at member
      exact List.mem_cons_of_mem epi (rep.lists.attached i w member)
  · intro busy
    simp [Eventpoll.insertBegin,Holder.isScan] at busy
  · intro _
    refine ⟨inactive,empty,?_⟩
    intro i present
    change Function.update ep.next epi .unlinked i = .unlinked
    by_cases same : i = epi
    · subst i
      simp
    · rw [Function.update_of_ne same]
      exact quiet i ((List.mem_cons.mp present).resolve_left same)

private theorem rep_free (ep : Eventpoll) (rep : Rep ep) (idle : ep.mtx.isScan = false) (epi : Nat)
    (absent : epi ∉ ep.rdllist ++ ep.txlist) (alone : ∀ w, some w ∉ ep.pwqlist epi) :
    Rep {ep with mtx := .free, slab := ep.slab.erase epi} := by
  have kept (i : Nat) : i ∈ ep.slab.erase epi ↔ i ≠ epi ∧ i ∈ ep.slab := rep.lists.slab.mem_erase_iff
  obtain ⟨inactive,empty,quiet⟩ := rep.overflow.resting idle
  refine ⟨⟨rep.lists.distinct,?_,?_,rep.lists.slab.erase epi,?_⟩,
    ⟨fun busy => by simp [Holder.isScan] at busy,fun _ => ⟨inactive,empty,?_⟩⟩,position_free _ rfl⟩
  · intro i member
    exact (kept i).mpr ⟨fun same => absent (same ▸ member),rep.lists.allocated i member⟩
  · intro i present
    exact rep.lists.linked i ((kept i).mp present).2
  · intro i w member
    exact (kept i).mpr ⟨fun same => alone w (same ▸ member),rep.lists.attached i w member⟩
  · intro i present
    exact quiet i ((kept i).mp present).2

private theorem rep_insertPc (ep : Eventpoll) (rep : Rep ep) (insert : Insert) (pc : InsertPc)
    (held : ep.mtx = .insert insert) (going : pc ≠ .drop) : Rep (ep.withInsertPc insert pc) :=
  ⟨{rep.lists with},overflow_insert ep rep.overflow (by rw [held]; rfl) _ rfl,
    position_insert ep _ (rep.position.inserting insert held) (fun drop => absurd drop going)⟩

private theorem rep_delInit (ep : Eventpoll) (rep : Rep ep) (idle : ep.mtx.isScan = false) (epi : Nat) :
    Rep (ep.listDelInit epi) := by
  refine ⟨lists_delInit ep rep.lists epi,⟨?_,?_⟩,{rep.position with inHand := ?_, chosen := ?_}⟩
  · intro busy
    exact absurd busy (by simp [Eventpoll.listDelInit,idle])
  · intro _
    obtain ⟨inactive,empty,quiet⟩ := rep.overflow.resting idle
    exact ⟨inactive,by simp [Eventpoll.listDelInit,empty],quiet⟩
  · intro scan i same
    change ep.mtx = .scan scan at same
    rw [same] at idle
    cases idle
  · intro scan i same
    change ep.mtx = .scan scan at same
    rw [same] at idle
    cases idle

theorem rep_move (ep t : Eventpoll) (l : Label) (rep : Rep ep) (move : Move ep l t) : Rep t := by
  have lists := rep.lists
  have position := rep.position
  cases move with
  | refused epi entry key pwq attached fewer idle => exact rep_callback ep rep pwq fewer
  | chained epi entry key pwq attached fewer accepted active off =>
    obtain ⟨w,member⟩ := attached
    have inside := lists.attached epi w member
    have kept := rep_callback ep rep pwq fewer
    refine ⟨{kept.lists with},⟨?_,?_⟩,{kept.position with}⟩
    · intro busy
      obtain ⟨ns,chained⟩ := rep.overflow.scanning busy
      exact ⟨epi::ns,chained_push chained epi inside off⟩
    · intro rest
      exact absurd (rep.overflow.resting rest).1 active
  | queued epi entry key pwq attached fewer accepted inactive off =>
    obtain ⟨w,member⟩ := attached
    have inside := lists.attached epi w member
    have idle : ep.mtx.isScan = false := by
      by_contra busy
      exact rep.active.mp (by simpa using busy) inactive
    exact rep_addTail _ (rep_callback ep rep pwq fewer) idle epi inside off
  | modify epi events data free inside => exact ⟨{lists with},{rep.overflow with},{position with}⟩
  | scanStart maxevents free positive => exact rep_scanStart ep rep free maxevents
  | finish scan held here ended =>
    exact rep_pc ep rep scan _ held (by simp [ProcPc.inHand]) (by simp [ProcPc.chosen])
  | take scan epi rest held here first below =>
    refine ⟨{lists with},overflow_scan ep _ rep.overflow scan _ held rfl rfl rfl rfl,
      {position_scan ep {scan with pc := .relax epi} (by simp [ProcPc.inHand]) ?_ with}⟩
    intro i same
    have same : epi = i := by simpa [ProcPc.chosen] using same
    exact ⟨rest,same ▸ first⟩
  | relax scan epi held here =>
    have kept := rep_pc ep rep scan {scan with pc := .unlink epi} held (by simp [ProcPc.inHand])
      (by simp [here,ProcPc.chosen])
    exact ⟨{kept.lists with},{kept.overflow with},{kept.position with}⟩
  | unlink scan epi held here => exact rep_unlink ep rep scan epi held here
  | relink scan epi held here => exact rep_relink ep rep scan epi held here
  | restay scan epi held here =>
    have kept := rep_pc ep rep scan {scan with pc := .done true} held (by simp [ProcPc.inHand]) (by simp [ProcPc.chosen])
    exact ⟨{kept.lists with},{kept.overflow with},{kept.position with}⟩
  | settle scan epi held here pc branch =>
    have kept : Rep {ep with mtx := .scan {scan with pc := pc}} := by
      apply rep_pc ep rep scan {scan with pc := pc} held
      · rcases branch with ⟨rfl,_⟩ | ⟨rfl,_⟩ <;> simp [here,ProcPc.inHand]
      · rcases branch with ⟨rfl,_⟩ | ⟨rfl,_⟩ <;> simp [ProcPc.chosen]
    exact ⟨{kept.lists with},{kept.overflow with},{kept.position with}⟩
  | requeue scan epi held here => exact rep_requeue ep rep scan epi held here
  | stay scan epi held here =>
    have kept := rep_pc ep rep scan {scan with pc := .loop} held (by simp [ProcPc.inHand]) (by simp [ProcPc.chosen])
    exact ⟨{kept.lists with},{kept.overflow with},{kept.position with}⟩
  | idle scan epi mask held here nothing =>
    exact rep_pc ep rep scan _ held (by simp [ProcPc.inHand]) (by simp [ProcPc.chosen])
  | ready scan epi mask held here something =>
    exact rep_pc ep rep scan _ held (by simp [here,ProcPc.inHand]) (by simp [ProcPc.chosen])
  | copy scan epi revents held here =>
    exact rep_pc ep rep scan _ held (by simp [here,ProcPc.inHand]) (by simp [ProcPc.chosen])
  | fault scan epi revents held here =>
    exact rep_pc ep rep scan _ held (by simp [here,ProcPc.inHand]) (by simp [ProcPc.chosen])
  | scanEnd scan fault drained held here ended =>
    obtain ⟨ns,chained,result⟩ := rep.drains (by rw [held]; rfl)
    have same := Option.some.inj (ended.symm.trans result)
    subst same
    exact ⟨lists_scanEnd ep lists ns chained,overflow_scanEnd ep ns chained,position_free _ rfl⟩
  | insertBegin epi ffd events data fullCheck free fresh =>
    exact rep_insertBegin ep rep free epi fresh ffd events data fullCheck
  | hooked insert whead held here good =>
    have inside := position.inserting insert held
    refine ⟨{lists with attached := ?_},{rep.overflow with},{position with unregistered := ?_}⟩
    · intro i w member
      by_cases same : i = insert.epi
      · exact same ▸ inside
      · exact lists.attached i w (by simpa [Function.update_of_ne same] using member)
    · intro current same gone
      change ep.mtx = .insert current at same
      rw [held] at same
      cases same
      simp [here] at gone
  | unhooked insert whead allocated held here =>
    exact ⟨{lists with},{rep.overflow with},{position with}⟩
  | insertPoll insert mask held here => exact rep_insertPc ep rep insert _ held (by simp)
  | linked insert revents held here =>
    have kept := rep_insertPc ep rep insert (.check revents) held (by simp)
    exact ⟨{kept.lists with},{kept.overflow with},{kept.position with}⟩
  | unhookable insert revents held here bad => exact rep_insertPc ep rep insert _ held (by simp)
  | unregister insert held here =>
    have inside := position.inserting insert held
    refine ⟨{lists with attached := ?_},
      {overflow_insert ep rep.overflow (by rw [held]; rfl) (.insert insert) rfl with},
      position_insert {ep with pwqlist := Function.update ep.pwqlist insert.epi []} _ inside (by simp)⟩
    intro i w member
    by_cases same : i = insert.epi
    · exact same ▸ inside
    · exact lists.attached i w (by simpa [Eventpoll.withInsertPc,Function.update_of_ne same] using member)
  | rejected insert revents held here =>
    have kept := rep_insertPc ep rep insert .unregister held (by simp)
    exact ⟨{kept.lists with},{kept.overflow with},{kept.position with}⟩
  | checked insert revents tooManyPaths held here => exact rep_insertPc ep rep insert _ held (by simp)
  | published insert revents held here quiet =>
    exact ⟨{lists with},overflow_insert ep rep.overflow (by rw [held]; rfl) _ rfl,position_free _ rfl⟩
  | queuedNew insert revents held here queues =>
    have idle : ep.mtx.isScan = false := by rw [held]; rfl
    have off : ep.rdllink insert.epi = false := by
      simpa using (Bool.and_eq_true_iff.mp queues).2
    have queued := rep_addTail ep rep idle insert.epi (position.inserting insert held) off
    exact ⟨{queued.lists with},overflow_insert _ queued.overflow idle _ rfl,position_free _ rfl⟩
  | dropped insert held here off =>
    have absent := (lists.unlinked insert.epi (position.inserting insert held)).mp off
    exact rep_free ep rep (by rw [held]; rfl) insert.epi absent (position.unregistered insert held here)
  | unqueued insert held here queued =>
    have idle : ep.mtx.isScan = false := by rw [held]; rfl
    refine rep_free _ (rep_delInit ep rep idle insert.epi) idle insert.epi ?_ (position.unregistered insert held here)
    exact fun still => ((lists.mem_delInit insert.epi insert.epi).mp still).1 rfl

theorem rep_reached (ep : Eventpoll) (reached : Reached ep) : Rep ep :=
  reached.invariant Rep rep_epAlloc (fun ep l t rep ok => rep_move ep t l rep (step_move ep t l ok))

/-- Lists, links and pointers agree. Items are meant that are allocated: the
memory of the others is not the eventpoll's. -/
structure Represented (ep : Eventpoll) : Prop where
  ready_distinct : ep.rdllist.Nodup
  tx_distinct : ep.txlist.Nodup
  apart : ep.rdllist.Disjoint ep.txlist
  members : ∀ i, i ∈ ep.rdllist ∨ i ∈ ep.txlist → i ∈ ep.slab
  is_linked : ∀ i ∈ ep.slab, ep.rdllink i = true ↔ i ∈ ep.rdllist ∨ i ∈ ep.txlist
  chain : ep.mtx.isScan = true → ∃ ns, Chain ep.next ep.ovflist ns ∧ ns.Nodup ∧
    (∀ i ∈ ns, i ∈ ep.slab) ∧ ∀ i ∈ ep.slab, ep.next i ≠ .unlinked ↔ i ∈ ns
  outside : ep.mtx.isScan = false →
    ep.ovflist = .unlinked ∧ ep.txlist = [] ∧ ∀ i ∈ ep.slab, ep.next i = .unlinked
  drain : ep.mtx.isScan = true → ∃ ns, Chain ep.next ep.ovflist ns ∧ ns.Nodup ∧
    (∀ fuel, ns.length < fuel → ep.drain fuel ep.ovflist = some (ns.foldl Eventpoll.drainItem ep)) ∧
    (ns.foldl Eventpoll.drainItem ep).rdllist = ep.rdllist ++ ns.filter (fun i => !ep.rdllink i) ∧
    (ep.rdllist ++ ns.filter (fun i => !ep.rdllink i) ++ ep.txlist).Nodup ∧
    ∀ i ∈ ep.slab, (ns.foldl Eventpoll.drainItem ep).next i = .unlinked
  ends : ∀ scan fault, ep.mtx = .scan scan → scan.pc = .done fault → (step ep .scanEnd).isSome = true

private theorem drain_distinct (ep : Eventpoll) (lists : Lists ep) (ns : List Nat)
    (chained : Chained ep.next ep.ovflist ep.slab ns) :
    (ep.rdllist ++ ns.filter (fun i => !ep.rdllink i) ++ ep.txlist).Nodup := by
  have ended := (lists_scanEnd ep lists ns chained).distinct
  simp only [Eventpoll.spliceBack,drained_rdllist ns chained.chain.nodup ep,drained_txlist,List.append_nil] at ended
  exact List.perm_append_comm.nodup_iff.mp ended

theorem ready_lists_represented (ep : Eventpoll) (reached : Reached ep) : Represented ep := by
  have rep := rep_reached ep reached
  have parts := List.nodup_append.mp rep.lists.distinct
  refine ⟨parts.1,parts.2.1,?_,?_,?_,?_,rep.overflow.resting,?_,?_⟩
  · intro i ready tx
    exact parts.2.2 i ready i tx rfl
  · intro i member
    exact rep.lists.allocated i (List.mem_append.mpr member)
  · intro i present
    rw [rep.lists.linked i present,List.mem_append]
  · intro busy
    obtain ⟨ns,chained⟩ := rep.overflow.scanning busy
    exact ⟨ns,chained.chain,chained.chain.nodup,chained.allocated,chained.member⟩
  · intro busy
    obtain ⟨ns,chained⟩ := rep.overflow.scanning busy
    exact ⟨ns,chained.chain,chained.chain.nodup,drain_chain ns ep ep.ovflist chained.chain,
      drained_rdllist ns chained.chain.nodup ep,drain_distinct ep rep.lists ns chained,chained.drained_inactive⟩
  · intro scan fault held here
    obtain ⟨ns,_,result⟩ := rep.drains (by rw [held]; rfl)
    simp [step,inScan,held,Eventpoll.scanEnd,here,result]

theorem ready_lists_represented_both :
    (after (inserting 7 pollIn pollIn ++ [.scanStart 1,.callback 7 0 0])).txlist = [7] ∧
      (after (inserting 7 pollIn pollIn ++ [.scanStart 1,.callback 7 0 0])).overflow = [7] ∧
      Represented (after (inserting 7 pollIn pollIn ++ [.scanStart 1,.callback 7 0 0])) :=
  ⟨by decide,by decide,ready_lists_represented _ (after_reached _ (by decide))⟩

end Reactor.Epoll
