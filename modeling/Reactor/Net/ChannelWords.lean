import Reactor.Net.Server
import Reactor.Epoll.Bits

/-! A channel with the words that it has in memory: `events_`, which its owner changes bit by
bit, and `revents_`, which the poller leaves for `handleEvent`. The flags of `Channel` and of
`Revents` are what these words mean. The callbacks of a channel may call its methods, and a
callback of the user may do so at any point. -/
namespace Reactor.Net
open Reactor.Transition
open Reactor.Epoll (EventMask hits hits_iff not_hits_iff pollIn pollOut pollErr pollHup)

def pollPri : EventMask := 0x2#32
def pollNval : EventMask := 0x20#32
def pollRdhup : EventMask := 0x2000#32

def kNoneEvent : EventMask := 0
def kReadEvent : EventMask := pollIn ||| pollPri
def kWriteEvent : EventMask := pollOut

/-- The next check of `handleEventWithGuard`. -/
inductive HandlePc
  | outside
  | close
  | error
  | read
  | write
  | leave
  deriving DecidableEq

/-- `interest` is what the poller has been told of the channel; `calls` are the callbacks of
the call of `handleEvent` under way, `batches` those of the calls before, with the word that each
was for. -/
structure ChannelWords where
  events : EventMask
  revents : EventMask
  tied : Bool
  eventHandling : Bool
  addedToLoop : Bool
  interest : Option EventMask
  pc : HandlePc
  calls : List Handler
  batches : List (EventMask × List Handler)
  failed : Bool

inductive ChannelOp
  | enableReading
  | disableReading
  | enableWriting
  | disableWriting
  | disableAll
  | remove
  deriving DecidableEq

inductive ChannelLabel
  | op (o : ChannelOp)
  | tie
  | poll (revents : EventMask)
  | handleEvent (alive : Bool)
  | check
  deriving DecidableEq

namespace ChannelWords

def isNoneEvent (c : ChannelWords) : Bool := c.events == kNoneEvent

def isWriting (c : ChannelWords) : Bool := hits c.events kWriteEvent

def isReading (c : ChannelWords) : Bool := hits c.events kReadEvent

def update (c : ChannelWords) : ChannelWords := {c with addedToLoop := true, interest := some c.events}

def enableReading (c : ChannelWords) : ChannelWords := update {c with events := c.events ||| kReadEvent}

def disableReading (c : ChannelWords) : ChannelWords := update {c with events := c.events &&& ~~~kReadEvent}

def enableWriting (c : ChannelWords) : ChannelWords := update {c with events := c.events ||| kWriteEvent}

def disableWriting (c : ChannelWords) : ChannelWords := update {c with events := c.events &&& ~~~kWriteEvent}

def disableAll (c : ChannelWords) : ChannelWords := update {c with events := kNoneEvent}

def remove (c : ChannelWords) : ChannelWords :=
  {c with failed := c.failed || !c.isNoneEvent, addedToLoop := false, interest := none}

def apply (c : ChannelWords) : ChannelOp → ChannelWords
  | .enableReading => c.enableReading
  | .disableReading => c.disableReading
  | .enableWriting => c.enableWriting
  | .disableWriting => c.disableWriting
  | .disableAll => c.disableAll
  | .remove => c.remove

def handleEvent (c : ChannelWords) (alive : Bool) : ChannelWords :=
  if c.tied && !alive then c else {c with eventHandling := true, pc := .close, calls := []}

/-- A callback that is set is called when the word asks for it. -/
def call (c : ChannelWords) (asked : Bool) (set : Handler → Bool) (handler : Handler) (next : HandlePc) : ChannelWords :=
  {c with calls := c.calls ++ if asked && set handler then [handler] else [], pc := next}

/-- The next check of `handleEventWithGuard`, up to the call of the callback. -/
def check (set : Handler → Bool) (c : ChannelWords) : Option ChannelWords :=
  match c.pc with
  | .outside => none
  | .close => some (c.call (hits c.revents pollHup && !hits c.revents pollIn) set .close .error)
  | .error => some (c.call (hits c.revents (pollErr ||| pollNval)) set .error .read)
  | .read => some (c.call (hits c.revents (pollIn ||| pollPri ||| pollRdhup)) set .read .write)
  | .write => some (c.call (hits c.revents pollOut) set .write .leave)
  | .leave => some {c with eventHandling := false, pc := .outside, batches := c.batches ++ [(c.revents,c.calls)]}

end ChannelWords

/-- The poller knows the channels that it has been told of; it is not asked while events are handled. -/
def channelStep (set : Handler → Bool) (c : ChannelWords) : ChannelLabel → Option ChannelWords
  | .op o => some (c.apply o)
  | .tie => some {c with tied := true}
  | .poll w => if c.pc = .outside ∧ c.interest.isSome then some {c with revents := w} else none
  | .handleEvent alive => if c.pc = .outside then some (c.handleEvent alive) else none
  | .check => c.check set

def newChannel : ChannelWords := ⟨0,0,false,false,false,none,.outside,[],[],false⟩

/-- A channel as the flags have it; `failed` tells that one with events was removed. -/
structure WatchedChannel where
  channel : Channel
  failed : Bool
  deriving DecidableEq

def WatchedChannel.step (w : WatchedChannel) : ChannelOp → Option WatchedChannel
  | .enableReading => some {w with channel := w.channel.enableReading}
  | .disableReading => some {w with channel := w.channel.disableReading}
  | .enableWriting => some {w with channel := w.channel.enableWriting}
  | .disableWriting => some {w with channel := w.channel.disableWriting}
  | .disableAll => some {w with channel := w.channel.disableAll}
  | .remove => some {w with failed := w.failed || !w.channel.isNoneEvent}

def ChannelLabel.operation : ChannelLabel → Option ChannelOp
  | .op o => some o
  | _ => none

/-- The word for a set of flags. -/
def Channel.word (c : Channel) : EventMask :=
  (if c.isReading then kReadEvent else 0) ||| if c.isWriting then kWriteEvent else 0

/-- The flags of a word that the poller has left. -/
def reventsOf (w : EventMask) : Revents :=
  ⟨hits w pollIn,hits w pollPri,hits w pollOut,hits w pollErr,hits w pollHup,hits w pollNval,hits w pollRdhup⟩

namespace ChannelWords

def flags (c : ChannelWords) : Channel := ⟨c.isReading,c.isWriting⟩

def watched (c : ChannelWords) : WatchedChannel := ⟨c.flags,c.failed⟩

end ChannelWords

theorem hits_or (w a b : EventMask) : hits w (a ||| b) = (hits w a || hits w b) := by
  have none : hits w (a ||| b) = false ↔ hits w a = false ∧ hits w b = false := by
    simp only [not_hits_iff,BitVec.and_or_distrib_left,BitVec.ofNat_eq_ofNat,BitVec.or_eq_zero_iff]
  cases all : hits w (a ||| b) with
  | false =>
    obtain ⟨one,two⟩ := none.mp all
    rw [one,two]
    rfl
  | true =>
    by_contra other
    have neither := Bool.or_eq_false_iff.mp (Bool.eq_false_iff.mpr (Ne.symm other))
    rw [none.mpr neither] at all
    cases all

/-- The callbacks that the checks from here on will call. -/
def HandlePc.pending (r : Revents) : HandlePc → List Handler
  | .outside | .leave => []
  | .close => r.handlers
  | .error => (if r.pollErr || r.pollNval then [.error] else []) ++
      ((if r.pollIn || r.pollPri || r.pollRdhup then [.read] else []) ++ if r.pollOut then [.write] else [])
  | .read => (if r.pollIn || r.pollPri || r.pollRdhup then [.read] else []) ++ if r.pollOut then [.write] else []
  | .write => if r.pollOut then [.write] else []

/-- What holds of a channel between two steps of its loop. -/
structure Encoded (set : Handler → Bool) (c : ChannelWords) : Prop where
  events : c.events = c.flags.word
  interest : c.interest = if c.addedToLoop then some c.events else none
  handling : c.eventHandling = true ↔ c.pc ≠ .outside
  calls : c.pc ≠ .outside →
    c.calls ++ (c.pc.pending (reventsOf c.revents)).filter set = (reventsOf c.revents).handlers.filter set
  batches : ∀ b ∈ c.batches, b.2 = (reventsOf b.1).handlers.filter set

theorem word_flags (f : Channel) : (⟨hits f.word kReadEvent,hits f.word kWriteEvent⟩ : Channel) = f := by
  obtain ⟨reading,writing⟩ := f
  cases reading <;> cases writing <;> decide

theorem word_none (f : Channel) : (f.word == kNoneEvent) = f.isNoneEvent := by
  obtain ⟨reading,writing⟩ := f
  cases reading <;> cases writing <;> decide

/-- The bits of the word are set and cleared as the flags are. -/
theorem word_operations (f : Channel) : f.word ||| kReadEvent = f.enableReading.word ∧
    f.word &&& ~~~kReadEvent = f.disableReading.word ∧ f.word ||| kWriteEvent = f.enableWriting.word ∧
    f.word &&& ~~~kWriteEvent = f.disableWriting.word ∧ kNoneEvent = f.disableAll.word := by
  obtain ⟨reading,writing⟩ := f
  cases reading <;> cases writing <;> decide

section
variable {set : Handler → Bool} {c u : ChannelWords} {l : ChannelLabel}

namespace Encoded

/-- The owner gives the channel the word of other flags, and the poller is told. -/
theorem update (before : Encoded set c) {w : EventMask} (f : Channel) (word : w = f.word) :
    Encoded set (ChannelWords.update {c with events := w}) ∧ (ChannelWords.update {c with events := w}).flags = f := by
  have flags : (ChannelWords.update {c with events := w}).flags = f := by
    rw [word]
    exact word_flags f
  refine ⟨{before with events := ?_, interest := rfl},flags⟩
  rw [flags]
  exact word

theorem op (before : Encoded set c) (o : ChannelOp) : Encoded set (c.apply o) ∧ c.watched.step o = some (c.apply o).watched := by
  have word := before.events
  have follows {w : EventMask} (f : Channel) (same : w = f.word) (step : c.watched.step o = some ⟨f,c.failed⟩) :
      Encoded set (ChannelWords.update {c with events := w}) ∧
        c.watched.step o = some (ChannelWords.update {c with events := w}).watched := by
    obtain ⟨encoded,flags⟩ := before.update f same
    refine ⟨encoded,step.trans ?_⟩
    rw [ChannelWords.watched,flags]
    rfl
  obtain ⟨reads,deaf,writes,mute,none⟩ := word_operations c.flags
  cases o with
  | enableReading => exact follows c.flags.enableReading (by rw [word]; exact reads) rfl
  | disableReading => exact follows c.flags.disableReading (by rw [word]; exact deaf) rfl
  | enableWriting => exact follows c.flags.enableWriting (by rw [word]; exact writes) rfl
  | disableWriting => exact follows c.flags.disableWriting (by rw [word]; exact mute) rfl
  | disableAll => exact follows c.flags.disableAll none rfl
  | remove =>
    refine ⟨{before with interest := rfl},?_⟩
    have same : c.isNoneEvent = c.flags.isNoneEvent := by
      rw [ChannelWords.isNoneEvent,word]
      exact word_none c.flags
    simp only [WatchedChannel.step,ChannelWords.apply,ChannelWords.remove,ChannelWords.watched,same]
    rfl

/-- One check: the callback that the word asks for is the first of those that were to come. -/
theorem call (before : Encoded set c) (inside : c.pc ≠ .outside) {asked : Bool} {handler : Handler} {next : HandlePc}
    (later : next ≠ .outside) (first : c.pc.pending (reventsOf c.revents) =
      (if asked then [handler] else []) ++ next.pending (reventsOf c.revents)) :
    Encoded set (c.call asked set handler next) := by
  have calls := before.calls inside
  refine {before with handling := ?_, calls := fun _ => ?_}
  · exact iff_of_true (before.handling.mpr inside) later
  · rw [first,List.filter_append,← List.append_assoc] at calls
    refine Eq.trans (congrArg (c.calls ++ · ++ (next.pending (reventsOf c.revents)).filter set) ?_) calls
    cases asked with
    | false => rfl
    | true => cases called : set handler <;> simp [called]

theorem check (before : Encoded set c) (ok : c.check set = some u) : Encoded set u ∧ u.watched = c.watched := by
  unfold ChannelWords.check at ok
  split at ok
  next => cases ok
  next here =>
    cases ok
    refine ⟨before.call (by simp [here]) (by simp) ?_,rfl⟩
    rw [here]
    simp only [HandlePc.pending,Revents.handlers,List.append_assoc]
    rfl
  next here =>
    cases ok
    refine ⟨before.call (by simp [here]) (by simp) ?_,rfl⟩
    rw [here,hits_or]
    rfl
  next here =>
    cases ok
    refine ⟨before.call (by simp [here]) (by simp) ?_,rfl⟩
    rw [here,hits_or,hits_or]
    rfl
  next here =>
    cases ok
    refine ⟨before.call (by simp [here]) (by simp) ?_,rfl⟩
    rw [here]
    exact (List.append_nil _).symm
  next here =>
    cases ok
    refine ⟨{before with handling := by simp, calls := fun inside => absurd rfl inside, batches := ?_},rfl⟩
    intro b member
    rcases List.mem_append.mp member with old | new
    · exact before.batches b old
    · rw [List.mem_singleton.mp new]
      have calls := before.calls (by simp [here])
      rwa [here,HandlePc.pending,List.filter_nil,List.append_nil] at calls

theorem step (before : Encoded set c) (ok : channelStep set c l = some u) :
    Encoded set u ∧ (l.operation = none → u.watched = c.watched) ∧
      ∀ o, l.operation = some o → c.watched.step o = some u.watched := by
  cases l with
  | op o =>
    cases ok
    obtain ⟨encoded,follows⟩ := before.op o
    exact ⟨encoded,by simp [ChannelLabel.operation],by rintro _ ⟨⟩; exact follows⟩
  | tie =>
    cases ok
    exact ⟨{before with},fun _ => rfl,by simp [ChannelLabel.operation]⟩
  | poll w =>
    obtain ⟨⟨outside,_⟩,⟨⟩⟩ := Option.ite_none_right_eq_some.mp ok
    exact ⟨{before with calls := fun inside => absurd outside inside},fun _ => rfl,by simp [ChannelLabel.operation]⟩
  | handleEvent alive =>
    obtain ⟨outside,⟨⟩⟩ := Option.ite_none_right_eq_some.mp ok
    unfold ChannelWords.handleEvent
    split
    · exact ⟨before,fun _ => rfl,by simp [ChannelLabel.operation]⟩
    · exact ⟨{before with handling := by simp, calls := fun _ => rfl},fun _ => rfl,by simp [ChannelLabel.operation]⟩
  | check =>
    obtain ⟨encoded,same⟩ := before.check ok
    exact ⟨encoded,fun _ => same,by simp [ChannelLabel.operation]⟩

end Encoded

theorem newChannel_encoded : Encoded set newChannel :=
  ⟨by decide,rfl,by decide,fun inside => absurd rfl inside,by simp [newChannel]⟩

end

/-- Whatever its owner and its callbacks do with a channel, in any order: `events_` is the word
of the flags that `Channel` has after the same calls, the poller has been told this word, an
assertion of `remove` fails just when the flags say so, and each `handleEvent` has called the
callbacks that `Revents.handlers` gives for the word of the poller, in their order. -/
theorem channel_words_mean_flags (set : Handler → Bool) (ls : List ChannelLabel) (c : ChannelWords)
    (run : Run (channelStep set) newChannel ls c) :
    c.events = c.flags.word ∧ c.isNoneEvent = c.flags.isNoneEvent ∧
      c.interest = (if c.addedToLoop then some c.flags.word else none) ∧
      (c.eventHandling = true ↔ c.pc ≠ .outside) ∧
      (∀ b ∈ c.batches, b.2 = (reventsOf b.1).handlers.filter set) ∧
      Run WatchedChannel.step ⟨⟨false,false⟩,false⟩ (ls.filterMap ChannelLabel.operation) ⟨c.flags,c.failed⟩ := by
  have kept : ∀ c l u, Encoded set c → channelStep set c l = some u → Encoded set u :=
    fun c l u before ok => (before.step ok).1
  have start : ∀ c, c = newChannel → Encoded set c := by
    rintro c rfl
    exact newChannel_encoded
  have encoded : Encoded set c := Reachable.invariant (Encoded set) start kept ⟨newChannel,ls,rfl,run⟩
  refine ⟨encoded.events,?_,?_,encoded.handling,encoded.batches,?_⟩
  · rw [ChannelWords.isNoneEvent,encoded.events]
    exact word_none c.flags
  · rw [encoded.interest,encoded.events]
  · exact run.simulates ChannelWords.watched ChannelLabel.operation (fun _ _ => True) (Encoded set)
      (fun c l u before _ ok => kept c l u before ok) (fun c l u before _ ok own => (before.step ok).2.1 own)
      (fun c l u o before _ ok own => (before.step ok).2.2 o own)
      (along_of_forall _ (fun _ => True) newChannel ls fun _ _ => trivial) newChannel_encoded

/-- The peer has hung up; the owner stops writing in its callback and is gone at the next event. -/
def hungUp : List ChannelLabel :=
  [.tie,.op .enableReading,.op .enableWriting,.poll (pollHup ||| pollOut),.handleEvent true,.check,.op .disableAll,
    .op .remove,.check,.check,.check,.check,.handleEvent false]

theorem channel_words_mean_flags_hungUp :
    let c := final (channelStep fun _ => true) newChannel hungUp
    c.batches = [(pollHup ||| pollOut,[.close,.write])] ∧
      Run WatchedChannel.step ⟨⟨false,false⟩,false⟩ [.enableReading,.enableWriting,.disableAll,.remove] ⟨c.flags,c.failed⟩ := by
  intro c
  have run : Run (channelStep fun _ => true) newChannel hungUp c := final_run _ _ _ (by decide)
  exact ⟨by decide,(channel_words_mean_flags (fun _ => true) hungUp c run).2.2.2.2.2⟩

end Reactor.Net
