import Mathlib

/-!
# Subscriptions to the event bus

The bus keeps, for every run of a user, the next sequence number and a bounded buffer of the last
events.  A subscription to one run opens with a copy of the buffer's events after the reader's
position, and then takes what is published through a bounded queue; when the queue is full the
oldest event goes, and the reader is told later, by an `events_dropped` entry, how many went and up
to which number.  A reader that is too far behind for the buffer is told so first, by a
`replay_truncated` entry.

The model has one run of one user.  Other subscribers and other runs share nothing with it that
changes what it computes.  Operations under the bus's lock are steps of their own (`Action`),
so that any number of producers and reads interleave in any order.

* `Bus` and `Subscription` are the two sides, with the operations of the source.
* `step` is what an action does, and `run` a sequence of actions.
-/

namespace AgentGateway
namespace EventBus

/-! ## The bus -/

/-- `subscriber_queue_max` and `replay_buffer_max`, which have to be positive. -/
structure Config where
  queueMax : Nat
  replayMax : Nat
  queueMax_pos : 0 < queueMax
  replayMax_pos : 0 < replayMax

variable {ε τ : Type}

/-- `_BusEvent` with a sequence number -/
structure Entry (ε τ : Type) where
  seq : Nat
  event : ε
  timestamp : τ
  terminal : Bool

/-- What the bus keeps of a run: `_next_seq_by_run` and `_replay_buffers`. -/
structure Stream (ε τ : Type) where
  nextSeq : Nat
  buffer : List (Entry ε τ)

/-- The bus, as far as the run is concerned; `terminated` is its place in `_terminated_runs`. -/
structure Bus (ε τ : Type) where
  stream : Option (Stream ε τ)
  terminated : Bool

namespace Bus

/-- `self._next_seq_by_run.get(key, 1)` -/
def nextSeq (b : Bus ε τ) : Nat :=
  match b.stream with
  | some st => st.nextSeq
  | none => 1

/-- `self._replay_buffers.get(key, ())` -/
def buffer (b : Bus ε τ) : List (Entry ε τ) :=
  match b.stream with
  | some st => st.buffer
  | none => []

end Bus

/-- `append` on a `deque` with a maximal length -/
def pushBounded (max : Nat) (buffer : List (Entry ε τ)) (e : Entry ε τ) : List (Entry ε τ) :=
  (buffer ++ [e]).drop (buffer.length + 1 - max)

/-- The entry gets the next number and goes to the buffer. -/
def Bus.append (cfg : Config) (b : Bus ε τ) (event : ε) (now : τ) (terminal : Bool) :
    Entry ε τ × Bus ε τ :=
  let entry : Entry ε τ := ⟨b.nextSeq, event, now, terminal⟩
  (entry, { b with stream := some ⟨b.nextSeq + 1, pushBounded cfg.replayMax b.buffer entry⟩ })

/-- The entries of the persisted events, from a number on. -/
def seedEntries (events : List ε) (now : τ) (firstSeq : Nat) (terminalSeq : Option Nat) :
    List (Entry ε τ) :=
  events.zipIdx.map fun (event, i) ↦ ⟨firstSeq + i, event, now, terminalSeq = some (firstSeq + i)⟩

/-- The last entry of a buffer becomes terminal. -/
def markTerminal : List (Entry ε τ) → List (Entry ε τ)
  | [] => []
  | [e] => [{ e with terminal := true }]
  | e :: e' :: buffer => e :: markTerminal (e' :: buffer)

/-- `seed_replay_buffer` -/
def Bus.seed (cfg : Config) (b : Bus ε τ) (events : List ε) (now : τ) (terminated : Bool) :
    Bus ε τ :=
  match b.stream with
  | some st =>
    if terminated then ⟨some { st with buffer := markTerminal st.buffer }, true⟩ else b
  | none =>
    let total := events.length
    let tail := events.drop (total - cfg.replayMax)
    let firstSeq := total - tail.length + 1
    ⟨some ⟨total + 1, seedEntries tail now firstSeq (if terminated then some total else none)⟩,
      b.terminated || terminated⟩

/-! ## The subscription -/

/-- What a subscription returns. -/
inductive Item (ε τ : Type) where
  | event (entry : Entry ε τ)
  /-- `replay_truncated` with its `dropped_before_seq` -/
  | truncated (droppedBeforeSeq : Nat)
  /-- `events_dropped` with its `count`, `oldest_ts` and `dropped_through_seq` -/
  | dropped (count : Nat) (oldestTs : Option τ) (droppedThroughSeq : Option Nat)

/-- `_Subscriber` and `EventSubscription` of one run.  The last two fields are not in the code:
what has been returned, and the highest number that was published while the subscriber was
registered. -/
structure Subscription (ε τ : Type) where
  afterSeqFloor : Nat
  queue : List (Entry ε τ)
  streamTerminated : Bool
  droppedCount : Nat
  oldestDroppedTs : Option τ
  droppedThroughSeq : Option Nat
  /-- Is it in the bus's set of subscribers?  `closed` of `_Subscriber` is the opposite. -/
  inBus : Bool
  drained : Bool
  backpressureSpent : Bool
  readsSinceSpent : Nat
  truncationEvent : Option Nat
  replayEvents : List (Entry ε τ)
  /-- `_closed` of `EventSubscription` -/
  closed : Bool
  /-- `aclose` has called `_unsubscribe`, which waits for the lock. -/
  unsubscribing : Bool
  terminalDelivered : Bool
  /-- the reads that are in `_next_entry` -/
  waiting : Nat
  returned : List (Item ε τ)
  horizon : Nat

/-- `subscribe_entries`, with `control_run_id` given -/
def Bus.subscribe (b : Bus ε τ) (afterSeq : Int) : Subscription ε τ where
  afterSeqFloor := afterSeq.toNat
  queue := []
  streamTerminated := b.terminated
  droppedCount := 0
  oldestDroppedTs := none
  droppedThroughSeq := none
  inBus := true
  drained := false
  backpressureSpent := false
  readsSinceSpent := 0
  truncationEvent :=
    match b.buffer with
    | head :: _ => if afterSeq.toNat < head.seq - 1 then some head.seq else none
    | [] => none
  replayEvents := b.buffer.filter fun e ↦ afterSeq.toNat < e.seq
  closed := false
  unsubscribing := false
  terminalDelivered := false
  waiting := 0
  returned := []
  horizon := b.nextSeq - 1

namespace Subscription

/-- A full queue loses its oldest entry, which is counted. -/
def dropOldest (s : Subscription ε τ) : Subscription ε τ :=
  match s.queue with
  | [] => s
  | e :: queue => { s with
      queue := queue
      droppedCount := s.droppedCount + 1
      oldestDroppedTs := s.oldestDroppedTs.or (some e.timestamp)
      droppedThroughSeq := some e.seq }

/-- An entry after the reader's position goes to the queue. -/
def offer (cfg : Config) (s : Subscription ε τ) (e : Entry ε τ) : Subscription ε τ :=
  if e.seq ≤ s.afterSeqFloor then s
  else
    let s := if cfg.queueMax ≤ s.queue.length then s.dropOldest else s
    { s with queue := s.queue ++ [e] }

/-- `_enqueue_for_subscriber` -/
def enqueue (cfg : Config) (s : Subscription ε τ) (e : Entry ε τ) : Subscription ε τ :=
  let s := if e.terminal then { s with streamTerminated := true } else s
  s.offer cfg e

/-- A published entry reaches the subscription while it is registered. -/
def receive (cfg : Config) (s : Subscription ε τ) (e : Entry ε τ) : Subscription ε τ :=
  if s.inBus then { s.enqueue cfg e with horizon := e.seq } else s

/-- A producer that finds the queue half full will wait for it. -/
def noteBacklog (cfg : Config) (s : Subscription ε τ) : Subscription ε τ :=
  if s.inBus && !s.backpressureSpent && cfg.queueMax ≤ s.queue.length * 2 then
    { s with drained := false }
  else s

/-- A watcher whose wait is spent is live again once it has taken half a bound. -/
def countRead (cfg : Config) (s : Subscription ε τ) : Subscription ε τ :=
  if s.backpressureSpent then
    if cfg.queueMax ≤ (s.readsSinceSpent + 1) * 2 then
      { s with backpressureSpent := false, readsSinceSpent := 0 }
    else { s with readsSinceSpent := s.readsSinceSpent + 1 }
  else s

/-- `_note_drained_locked` -/
def noteDrained (cfg : Config) (s : Subscription ε τ) : Subscription ε τ :=
  if s.queue.length * 2 < cfg.queueMax then
    { s.countRead cfg with backpressureSpent := false, readsSinceSpent := 0, drained := true }
  else s.countRead cfg

/-- `aclose`, up to the lock -/
def aclose (s : Subscription ε τ) : Subscription ε τ :=
  if s.closed then s else { s with closed := true, unsubscribing := true }

/-- `__anext__`, up to the bus: what it returns itself, or a read that waits for the bus. -/
def read (s : Subscription ε τ) : Subscription ε τ :=
  if s.closed then s
  else
    match s.truncationEvent with
    | some seq => { s with truncationEvent := none, returned := s.returned ++ [.truncated seq] }
    | none =>
      match s.replayEvents with
      | e :: replayEvents => { s with
          replayEvents := replayEvents
          terminalDelivered := s.terminalDelivered || e.terminal
          returned := s.returned ++ [.event e] }
      | [] => if s.terminalDelivered then s.aclose else { s with waiting := s.waiting + 1 }

/-- A read takes an item from the bus. -/
def deliver (cfg : Config) (s : Subscription ε τ) (item : Item ε τ) : Subscription ε τ :=
  { s with waiting := s.waiting - 1, returned := s.returned ++ [item] }.noteDrained cfg

/-- `_next_entry` under the lock, for one of the waiting reads, and the end of `__anext__` -/
def nextEntry (cfg : Config) (s : Subscription ε τ) : Subscription ε τ :=
  if s.droppedCount ≠ 0 then
    { s with droppedCount := 0, oldestDroppedTs := none, droppedThroughSeq := none }.deliver cfg
      (.dropped s.droppedCount s.oldestDroppedTs s.droppedThroughSeq)
  else
    match s.queue with
    | e :: queue =>
      { s with queue := queue, terminalDelivered := s.terminalDelivered || e.terminal }.deliver cfg
        (.event e)
    | [] =>
      if !s.inBus then { s with closed := true, waiting := s.waiting - 1 }
      else if s.streamTerminated then { s.aclose with waiting := s.waiting - 1 }
      else s

end Subscription

/-! ## Runs -/

/-- One turn of a producer, of a read, or of the bus's own bookkeeping. -/
inductive Action (ε τ : Type) where
  | seed (events : List ε) (now : τ) (terminated : Bool)
  | publish (event : ε) (now : τ)
  | publishTerminalIfAbsent (event : ε) (now : τ)
  /-- the bounded wait of a producer is over -/
  | backpressureTimeout
  | cleanupRun
  | deferredCleanup
  | subscribeEntries (afterSeq : Int)
  | read
  | nextEntry
  /-- a waiting read is cancelled -/
  | cancelRead
  | aclose
  /-- the `_unsubscribe` of an `aclose` gets the lock -/
  | unsubscribe

structure Sys (ε τ : Type) where
  bus : Bus ε τ
  sub : Option (Subscription ε τ)

def Sys.init : Sys ε τ := ⟨⟨none, false⟩, none⟩

/-- What an action does.  Seeding and cleaning up the run are over once the subscription is open. -/
def step (cfg : Config) (s : Sys ε τ) : Action ε τ → Option (Sys ε τ)
  | .seed events now terminated =>
    if s.sub.isNone then some { s with bus := s.bus.seed cfg events now terminated } else none
  | .publish event now =>
    let (entry, bus) := s.bus.append cfg event now false
    some ⟨bus, s.sub.map fun sub ↦ (sub.receive cfg entry).noteBacklog cfg⟩
  | .publishTerminalIfAbsent event now =>
    if s.bus.terminated then some s
    else
      let (entry, bus) := s.bus.append cfg event now true
      some ⟨{ bus with terminated := true }, s.sub.map fun sub ↦ sub.receive cfg entry⟩
  | .backpressureTimeout =>
    some { s with sub := s.sub.map fun sub ↦
      { sub with backpressureSpent := true, readsSinceSpent := 0 } }
  | .cleanupRun => some { s with bus := { s.bus with terminated := true } }
  | .deferredCleanup => if s.sub.isNone then some { s with bus := ⟨none, false⟩ } else none
  | .subscribeEntries afterSeq =>
    if s.sub.isNone then some { s with sub := some (s.bus.subscribe afterSeq) } else none
  | .read => s.sub.map fun sub ↦ { s with sub := some sub.read }
  | .nextEntry =>
    s.sub.bind fun sub ↦
      if sub.waiting = 0 then none else some { s with sub := some (sub.nextEntry cfg) }
  | .cancelRead =>
    s.sub.bind fun sub ↦
      if sub.waiting = 0 then none
      else some { s with sub := some { sub.aclose with waiting := sub.waiting - 1 } }
  | .aclose => s.sub.map fun sub ↦ { s with sub := some sub.aclose }
  | .unsubscribe =>
    s.sub.bind fun sub ↦
      if sub.unsubscribing then
        some { s with
          sub := some { sub with inBus := false, unsubscribing := false, drained := true } }
      else none

/-- A sequence of actions. -/
def run (cfg : Config) (s : Sys ε τ) : List (Action ε τ) → Option (Sys ε τ)
  | [] => some s
  | a :: actions => (step cfg s a).bind fun s' ↦ run cfg s' actions

end EventBus
end AgentGateway
