import AgentGateway.EventBus.Subscription
import AgentGateway.Py.Tiling

/-!
# A subscription accounts for every event

What a subscription has returned, still holds and has dropped are runs of sequence numbers, and
the replayed copy of the buffer, the queue, the count of dropped events and the filter at the
reader's position have to fit together so that these runs follow on each other without a hole or
an overlap, however producers and reads interleave.

* `Subscription.tiles` lists the runs, `SubOk.tiles` is the invariant, and `inv_step` says that
  every action keeps it.
* `Accounts` is what a reader may rely on in every run (`subscription_accounts`).
-/

namespace AgentGateway
namespace EventBus

open Py List

variable {ε τ : Type}

/-! ## What a subscription accounts for -/

/-- An entry stands for its own number. -/
def Entry.tile (e : Entry ε τ) : Tile := ⟨1, e.seq⟩

/-- A dropped-events entry stands for the numbers it reports. -/
def Item.tile? : Item ε τ → Option Tile
  | .event e => some e.tile
  | .dropped count _ (some through) => some ⟨count, through⟩
  | .dropped _ _ none => none
  | .truncated _ => none

namespace Subscription

/-- What has been dropped and will be reported by the next dropped-events entry. -/
def pendingDrop (s : Subscription ε τ) : List Tile :=
  if s.droppedCount = 0 then [] else [⟨s.droppedCount, s.droppedThroughSeq.getD 0⟩]

/-- Everything the subscription has returned, still holds for replay, has to report as dropped, or
has in its queue. -/
def tiles (s : Subscription ε τ) : List Tile :=
  s.returned.filterMap Item.tile? ++
    (s.replayEvents.map Entry.tile ++ (s.pendingDrop ++ s.queue.map Entry.tile))

/-- The notice of truncation that was returned, or is going to be. -/
def notice (s : Subscription ε τ) : Option Nat :=
  s.truncationEvent.or (s.returned.findSome? fun
    | .truncated seq => some seq
    | _ => none)

/-- The subscription accounts for the numbers after this one: the reader's position, or the number
before the first one that a notice of truncation leaves. -/
def accountedFrom (s : Subscription ε τ) : Nat :=
  match s.notice with
  | some droppedBeforeSeq => droppedBeforeSeq - 1
  | none => s.afterSeqFloor

/-- The sequence numbers of the entries that were returned. -/
def returnedSeqs (s : Subscription ε τ) : List Nat :=
  s.returned.filterMap fun
    | .event e => some e.seq
    | _ => none

end Subscription

/-- The last number that was returned or reported, if `start` was the last one before. -/
def lastReported (start : Nat) (items : List (Item ε τ)) : Nat :=
  Tiles.last start (items.filterMap Item.tile?)

/-- **The account of a subscription** that was opened at position `k`, in a state of the bus. -/
structure Accounts (cfg : Config) (k : Int) (bus : Bus ε τ) (sub : Subscription ε τ) : Prop where
  /-- the entries come in order -/
  sorted : sub.returnedSeqs.Pairwise (· < ·)
  /-- and after the reader's position -/
  after : ∀ q ∈ sub.returnedSeqs, k < q
  /-- the account starts at the reader's position, or where the notice of truncation says -/
  start : sub.notice = none → sub.accountedFrom = k.toNat
  /-- every number is returned once, still held, or in one report of dropped events -/
  once : ∀ q, sub.accountedFrom < q → q ≤ sub.horizon → sub.tiles.countP (fun t ↦ t.covers q) = 1
  /-- while the subscription is registered these are all numbers that were published -/
  horizon : sub.inBus = true → sub.horizon + 1 = bus.nextSeq
  /-- a report says how many numbers it covers after the last one that was returned or reported -/
  count : ∀ items later c ts d, sub.returned = items ++ .dropped c ts d :: later →
    ∃ through, d = some through ∧ lastReported sub.accountedFrom items < through ∧
      c = through - lastReported sub.accountedFrom items
  bound : sub.queue.length ≤ cfg.queueMax

/-! ## The invariant -/

/-- The buffer holds the last numbers, and is empty only before the first. -/
structure BusOk (b : Bus ε τ) : Prop where
  seqs : b.buffer.map Entry.seq = List.range' (b.nextSeq - b.buffer.length) b.buffer.length
  length_lt : b.buffer.length < b.nextSeq
  eq_one : b.buffer = [] → b.nextSeq = 1

structure SubOk (cfg : Config) (nextSeq : Nat) (s : Subscription ε τ) : Prop where
  tiles : Tiles s.accountedFrom (max s.accountedFrom s.horizon) s.tiles
  floor_le : s.afterSeqFloor ≤ s.accountedFrom
  from_le : s.accountedFrom = s.afterSeqFloor ∨ s.accountedFrom ≤ s.horizon
  through : s.droppedCount ≠ 0 → ∃ d, s.droppedThroughSeq = some d
  items : ∀ c ts d, Item.dropped c ts d ∈ s.returned → ∃ d', d = some d'
  bound : s.queue.length ≤ cfg.queueMax
  horizon : s.inBus = true → s.horizon + 1 = nextSeq
  first : s.truncationEvent ≠ none → s.returned = []
  waiting : s.waiting ≠ 0 → s.truncationEvent = none ∧ s.replayEvents = []

structure Inv (cfg : Config) (s : Sys ε τ) : Prop where
  bus : BusOk s.bus
  sub : ∀ sub, s.sub = some sub → SubOk cfg s.bus.nextSeq sub

/-! ### The bus -/

theorem busOk_init : BusOk (⟨none, false⟩ : Bus ε τ) := ⟨rfl, Nat.one_pos, fun _ ↦ rfl⟩

theorem busOk_append {cfg : Config} {b : Bus ε τ} (h : BusOk b) (event : ε) (now : τ)
    (terminal : Bool) : BusOk (b.append cfg event now terminal).2 := by
  have hlt := h.length_lt
  have hmax := cfg.replayMax_pos
  set e : Entry ε τ := ⟨b.nextSeq, event, now, terminal⟩ with he
  have hbuffer : (b.append cfg event now terminal).2.buffer =
      pushBounded cfg.replayMax b.buffer e := rfl
  have hnext : (b.append cfg event now terminal).2.nextSeq = b.nextSeq + 1 := rfl
  have hlength : (pushBounded cfg.replayMax b.buffer e).length =
      b.buffer.length + 1 - (b.buffer.length + 1 - cfg.replayMax) := by
    rw [pushBounded, length_drop, length_append, length_singleton]
  have hseqs : (b.buffer ++ [e]).map Entry.seq =
      List.range' (b.nextSeq - b.buffer.length) (b.buffer.length + 1) := by
    rw [map_append, h.seqs, range'_concat, map_singleton, he]
    congr 2
    dsimp only
    omega
  refine ⟨?_, ?_, fun hnil ↦ ?_⟩
  · rw [hbuffer, hnext, hlength, pushBounded, map_drop, hseqs, drop_range']
    congr 1
    omega
  · rw [hbuffer, hnext, hlength]
    omega
  · rw [hbuffer] at hnil
    rw [hnil, length_nil] at hlength
    omega

theorem map_seq_seedEntries (events : List ε) (now : τ) (firstSeq : Nat) (t : Option Nat) :
    (seedEntries events now firstSeq t).map Entry.seq = List.range' firstSeq events.length := by
  have h : (seedEntries events now firstSeq t).map Entry.seq =
      events.zipIdx.map fun p ↦ firstSeq + p.2 := by
    rw [seedEntries, map_map]
    rfl
  rw [h]
  have hidx : (events.zipIdx.map fun p ↦ firstSeq + p.2) =
      (events.zipIdx.map Prod.snd).map (firstSeq + ·) := by
    rw [map_map]
    rfl
  rw [hidx, zipIdx_map_snd, map_add_range', Nat.add_zero]

theorem map_seq_markTerminal (buffer : List (Entry ε τ)) :
    (markTerminal buffer).map Entry.seq = buffer.map Entry.seq := by
  fun_induction markTerminal buffer with
  | case1 => rfl
  | case2 e => rfl
  | case3 e e' buffer ih =>
    rw [map_cons, ih]
    rfl

theorem busOk_seed {cfg : Config} {b : Bus ε τ} (h : BusOk b) (events : List ε) (now : τ)
    (terminated : Bool) : BusOk (b.seed cfg events now terminated) := by
  obtain ⟨stream, term⟩ := b
  cases stream with
  | some st =>
    unfold Bus.seed
    dsimp only
    split
    · have hlength : (markTerminal st.buffer).length = st.buffer.length := by
        rw [← length_map (f := Entry.seq), map_seq_markTerminal, length_map]
      refine ⟨?_, ?_, fun hnil ↦ h.eq_one ?_⟩
      · have := h.seqs
        simp only [Bus.buffer, Bus.nextSeq] at this ⊢
        rw [map_seq_markTerminal, hlength, this]
      · have := h.length_lt
        simp only [Bus.buffer, Bus.nextSeq] at this ⊢
        rw [hlength]
        exact this
      · simp only [Bus.buffer] at hnil ⊢
        rw [hnil, length_nil] at hlength
        exact length_eq_zero_iff.1 hlength.symm
    · exact h
  | none =>
    have hmax := cfg.replayMax_pos
    set tail := events.drop (events.length - cfg.replayMax) with htail
    have htail' : tail.length = events.length - (events.length - cfg.replayMax) := by
      rw [htail, length_drop]
    have hlength (t : Option Nat) :
        (seedEntries tail now (events.length - tail.length + 1) t).length = tail.length := by
      rw [← length_map (f := Entry.seq), map_seq_seedEntries, length_range']
    unfold Bus.seed
    dsimp only
    rw [← htail]
    refine ⟨?_, ?_, fun hnil ↦ ?_⟩
    · simp only [Bus.buffer, Bus.nextSeq]
      rw [map_seq_seedEntries, hlength]
      congr 1
      omega
    · simp only [Bus.buffer, Bus.nextSeq]
      rw [hlength]
      omega
    · simp only [Bus.buffer, Bus.nextSeq] at hnil ⊢
      have hzero := hlength (if terminated then some events.length else none)
      rw [hnil, length_nil] at hzero
      omega

/-! ### Opening the subscription -/

theorem filter_lt_range' (k h n : Nat) : (List.range' h n).filter (fun q ↦ decide (k < q)) =
    List.range' (max h (k + 1)) (h + n - max h (k + 1)) := by
  induction n generalizing h with
  | zero =>
    rw [show h + 0 - max h (k + 1) = 0 by omega]
    rfl
  | succ n ih =>
    rw [range'_succ, filter_cons, ih]
    split
    next hk =>
      have hk : k < h := of_decide_eq_true hk
      rw [show max h (k + 1) = h by omega, show max (h + 1) (k + 1) = h + 1 by omega,
        show h + (n + 1) - h = n + 1 by omega, show h + 1 + n - (h + 1) = n by omega,
        range'_succ]
    next hk =>
      have hk : ¬ k < h := fun hlt ↦ hk (decide_eq_true hlt)
      rw [show max h (k + 1) = k + 1 by omega, show max (h + 1) (k + 1) = k + 1 by omega,
        show h + 1 + n = h + (n + 1) by omega]

/-- Entries with consecutive numbers. -/
theorem tiles_entries {es : List (Entry ε τ)} {a n : Nat}
    (h : es.map Entry.seq = List.range' (a + 1) n) : Tiles a (a + n) (es.map Entry.tile) := by
  have htile : es.map Entry.tile = (es.map Entry.seq).map (Tile.mk 1) := by
    rw [map_map]
    rfl
  rw [htile, h]
  exact Tiles.map_range' a n

theorem subOk_subscribe {cfg : Config} {b : Bus ε τ} (h : BusOk b) (afterSeq : Int) :
    SubOk cfg b.nextSeq (b.subscribe afterSeq) := by
  have hlt := h.length_lt
  set k := afterSeq.toNat with hk
  set s := b.subscribe afterSeq with hs
  have hreplay : s.replayEvents.map Entry.seq =
      List.range' (max (b.nextSeq - b.buffer.length) (k + 1))
        (b.nextSeq - max (b.nextSeq - b.buffer.length) (k + 1)) := by
    have hmap : s.replayEvents.map Entry.seq =
        (b.buffer.map Entry.seq).filter fun q ↦ decide (k < q) := by
      rw [filter_map]
      rfl
    rw [hmap, h.seqs, filter_lt_range', Nat.sub_add_cancel (Nat.le_of_lt hlt)]
  have hfrom : s.accountedFrom + 1 = max (b.nextSeq - b.buffer.length) (k + 1) ∨
      (b.nextSeq = 1 ∧ s.accountedFrom = k) := by
    have hnotice : s.notice = s.truncationEvent := Option.or_none
    cases hbuf : b.buffer with
    | nil =>
      have htrunc : s.truncationEvent = none := by simp only [hs, Bus.subscribe, hbuf]
      right
      refine ⟨h.eq_one hbuf, ?_⟩
      rw [Subscription.accountedFrom, hnotice, htrunc]
      rfl
    | cons head =>
      have htrunc : s.truncationEvent = if k < head.seq - 1 then some head.seq else none := by
        simp only [hs, Bus.subscribe, hbuf, hk]
      have hseqs := h.seqs
      rw [hbuf, map_cons, length_cons, range'_succ, cons_eq_cons] at hseqs
      left
      rw [Subscription.accountedFrom, hnotice, htrunc, length_cons]
      split
      next droppedBefore heq =>
        split at heq
        · have := Option.some.inj heq
          omega
        · cases heq
      next heq =>
        split at heq
        · cases heq
        · have : s.afterSeqFloor = k := rfl
          omega
  have hhorizon : s.horizon = b.nextSeq - 1 := rfl
  have hfloor : s.afterSeqFloor = k := rfl
  refine ⟨?_, ?_, ?_, fun hne ↦ absurd rfl hne, fun _ _ _ hmem ↦ absurd hmem not_mem_nil,
    Nat.zero_le _, fun _ ↦ ?_, fun _ ↦ rfl, fun hne ↦ absurd rfl hne⟩
  · have htiles : s.tiles = s.replayEvents.map Entry.tile := by
      show [] ++ (_ ++ ([] ++ [])) = _
      rw [nil_append, append_nil, append_nil]
    rw [htiles]
    rcases hfrom with hfrom | ⟨hone, hfrom⟩
    · rw [← hfrom] at hreplay
      have := tiles_entries hreplay
      rwa [show s.accountedFrom + (b.nextSeq - (s.accountedFrom + 1)) =
        max s.accountedFrom s.horizon by omega] at this
    · rw [hone, show 1 - max (1 - b.buffer.length) (k + 1) = 0 by omega, range'_zero] at hreplay
      rw [map_eq_nil_iff.1 hreplay, hfrom]
      show k = max k s.horizon
      omega
  · omega
  · omega
  · omega

/-! ### Publishing -/

section Publishing

variable {cfg : Config} {n : Nat} {s : Subscription ε τ}

section

variable (h : SubOk cfg n s)

include h

/-- The flags do not matter. -/
theorem SubOk.withFlags
    (streamTerminated drained backpressureSpent closed unsubscribing terminalDelivered : Bool)
    (readsSinceSpent : Nat) :
    SubOk cfg n { s with streamTerminated, drained, backpressureSpent, closed, unsubscribing,
                         terminalDelivered, readsSinceSpent } :=
  ⟨h.tiles, h.floor_le, h.from_le, h.through, h.items, h.bound, h.horizon, h.first, h.waiting⟩

/-- Dropping the oldest entry of the queue only moves it to what is to be reported. -/
theorem subOk_dropOldest {e : Entry ε τ} {queue : List (Entry ε τ)}
    (hqueue : s.queue = e :: queue) : SubOk cfg n s.dropOldest := by
  have htiles := h.tiles
  have hbound := h.bound
  rw [hqueue, length_cons] at hbound
  rw [Subscription.dropOldest, hqueue]
  refine ⟨?_, h.floor_le, h.from_le, fun _ ↦ ⟨e.seq, rfl⟩, h.items, by dsimp only; omega, h.horizon,
    h.first, h.waiting⟩
  rw [Subscription.tiles, Tiles.append_iff] at htiles ⊢
  obtain ⟨m, hm, htiles⟩ := htiles
  rw [Tiles.append_iff] at htiles
  obtain ⟨m', hm', htiles⟩ := htiles
  refine ⟨m, hm, Tiles.append_iff.2 ⟨m', hm', ?_⟩⟩
  rw [Subscription.pendingDrop, hqueue, map_cons] at htiles
  split at htiles
  next hzero =>
    rw [hzero]
    exact htiles
  · exact Tiles.merge htiles

/-- A new entry extends what is accounted for by its own number. -/
theorem subOk_push (hin : s.inBus = true) {e : Entry ε τ} (he : e.seq = n)
    (hfloor : s.afterSeqFloor < e.seq) (hlength : s.queue.length < cfg.queueMax) :
    SubOk cfg (n + 1) { s with queue := s.queue ++ [e], horizon := e.seq } := by
  have hhorizon := h.horizon hin
  have hfrom_le : s.accountedFrom ≤ s.horizon := by
    rcases h.from_le with heq | hle
    · omega
    · exact hle
  refine ⟨?_, h.floor_le, .inr ?_, h.through, h.items, ?_, fun _ ↦ by rw [he], h.first, h.waiting⟩
  · have htiles := h.tiles
    have hsplit : Subscription.tiles { s with queue := s.queue ++ [e], horizon := e.seq } =
        s.tiles ++ [e.tile] := by
      rw [Subscription.tiles, map_append, map_singleton, ← append_assoc,
        ← append_assoc, ← append_assoc, Subscription.tiles, append_assoc (List.filterMap _ _),
        append_assoc (List.filterMap _ _), append_assoc (List.map _ _)]
      rfl
    have hfrom : Subscription.accountedFrom { s with queue := s.queue ++ [e], horizon := e.seq } =
        s.accountedFrom := rfl
    rw [hsplit, hfrom, Tiles.concat_iff]
    refine ⟨_, htiles, Nat.one_pos, ?_, ?_⟩
    · show e.seq = max s.accountedFrom s.horizon + 1
      omega
    · show e.seq = max s.accountedFrom e.seq
      omega
  · show s.accountedFrom ≤ e.seq
    omega
  · dsimp only
    rw [length_append, length_singleton]
    omega

theorem subOk_offer (hin : s.inBus = true) {e : Entry ε τ} (he : e.seq = n) :
    SubOk cfg (n + 1) { s.offer cfg e with horizon := e.seq } := by
  have hhorizon := h.horizon hin
  unfold Subscription.offer
  split
  next hfloor =>
    have hfrom := h.floor_le
    refine ⟨?_, h.floor_le, ?_, h.through, h.items, h.bound, fun _ ↦ by rw [he], h.first, h.waiting⟩
    · have htiles := h.tiles
      rw [show max s.accountedFrom s.horizon = s.accountedFrom by omega] at htiles
      show Tiles s.accountedFrom (max s.accountedFrom e.seq) s.tiles
      rwa [show max s.accountedFrom e.seq = s.accountedFrom by omega]
    · rcases h.from_le with heq | hle
      · exact .inl heq
      · exact .inr (show s.accountedFrom ≤ e.seq by omega)
  next hfloor =>
    have hfloor : s.afterSeqFloor < e.seq := by omega
    split
    next hfull =>
      have hmax := cfg.queueMax_pos
      have hbound := h.bound
      cases hqueue : s.queue with
      | nil =>
        rw [hqueue, length_nil] at hfull
        omega
      | cons q queue =>
        have hdrop := subOk_dropOldest h hqueue
        rw [hqueue, length_cons] at hbound
        have hd : s.dropOldest.queue = queue := by rw [Subscription.dropOldest, hqueue]
        have hin' : s.dropOldest.inBus = true := by rw [Subscription.dropOldest, hqueue]; exact hin
        have hfloor' : s.dropOldest.afterSeqFloor < e.seq := by
          rw [Subscription.dropOldest, hqueue]
          exact hfloor
        exact subOk_push hdrop hin' he hfloor' (by rw [hd]; omega)
    next hroom => exact subOk_push h hin he hfloor (by omega)

theorem subOk_receive {e : Entry ε τ} (he : e.seq = n) :
    SubOk cfg (n + 1) (s.receive cfg e) := by
  unfold Subscription.receive
  split
  next hin =>
    rw [Subscription.enqueue]
    split
    · exact subOk_offer (h.withFlags true _ _ _ _ _ _) hin he
    · exact subOk_offer h hin he
  next hout =>
    exact ⟨h.tiles, h.floor_le, h.from_le, h.through, h.items, h.bound,
      fun hin ↦ absurd hin hout, h.first, h.waiting⟩

theorem subOk_noteBacklog : SubOk cfg n (s.noteBacklog cfg) := by
  unfold Subscription.noteBacklog
  split
  · exact h.withFlags _ false _ _ _ _ _
  · exact h

end

end Publishing

/-! ### Reading -/

section Reading

variable {cfg : Config} {n : Nat} {s : Subscription ε τ}

section

variable (h : SubOk cfg n s)

include h

theorem SubOk.withWaiting {w : Nat} (hw : w ≠ 0 → s.waiting ≠ 0) :
    SubOk cfg n { s with waiting := w } :=
  ⟨h.tiles, h.floor_le, h.from_le, h.through, h.items, h.bound, h.horizon, h.first,
    fun hne ↦ h.waiting (hw hne)⟩

omit h in
theorem waiting_aclose (s : Subscription ε τ) : s.aclose.waiting = s.waiting := by
  unfold Subscription.aclose
  split <;> rfl

theorem subOk_aclose : SubOk cfg n s.aclose := by
  unfold Subscription.aclose
  split
  · exact h
  · exact h.withFlags _ _ _ true true _ _

theorem subOk_countRead : SubOk cfg n (s.countRead cfg) := by
  unfold Subscription.countRead
  split
  · split
    · exact h.withFlags _ _ false _ _ _ 0
    · exact h.withFlags _ _ _ _ _ _ (s.readsSinceSpent + 1)
  · exact h

theorem subOk_noteDrained : SubOk cfg n (s.noteDrained cfg) := by
  unfold Subscription.noteDrained
  split
  · exact (subOk_countRead h).withFlags _ true false _ _ _ 0
  · exact subOk_countRead h

omit h in
/-- An entry other than a notice of truncation does not change where the account starts. -/
theorem notice_concat {item : Item ε τ} (hitem : ∀ seq, item ≠ .truncated seq)
    (returned : List (Item ε τ)) : ((returned ++ [item]).findSome? fun
      | .truncated seq => some seq
      | _ => none) =
    returned.findSome? fun
      | .truncated seq => some seq
      | _ => none := by
  rw [findSome?_append]
  cases item with
  | truncated seq => exact absurd rfl (hitem seq)
  | event => exact Option.or_none
  | dropped => exact Option.or_none

/-- An item is returned that the subscription had in store: the tiles are the same. -/
theorem SubOk.of_returned {s' : Subscription ε τ} {i : Item ε τ} (hitem : ∀ seq, i ≠ .truncated seq)
    (hsome : ∀ c ts d, i = .dropped c ts d → ∃ d', d = some d') (hnone : s.truncationEvent = none)
    (hnone' : s'.truncationEvent = none) (hreturned : s'.returned = s.returned ++ [i])
    (htiles : s'.tiles = s.tiles) (hfloor : s'.afterSeqFloor = s.afterSeqFloor)
    (hhorizon : s'.horizon = s.horizon) (hinBus : s'.inBus = s.inBus)
    (hthrough : s'.droppedCount ≠ 0 → ∃ d, s'.droppedThroughSeq = some d)
    (hbound : s'.queue.length ≤ s.queue.length)
    (hwaiting : s'.waiting ≠ 0 → s'.replayEvents = []) : SubOk cfg n s' := by
  have hfrom : s'.accountedFrom = s.accountedFrom := by
    rw [Subscription.accountedFrom, Subscription.notice, hnone', hreturned, notice_concat hitem,
      hfloor, Subscription.accountedFrom, Subscription.notice, hnone]
  refine ⟨?_, ?_, ?_, hthrough, ?_, Nat.le_trans hbound h.bound, ?_, fun hne ↦ absurd hnone' hne,
    fun hw ↦ ⟨hnone', hwaiting hw⟩⟩
  · rw [hfrom, htiles, hhorizon]
    exact h.tiles
  · rw [hfrom, hfloor]
    exact h.floor_le
  · rw [hfrom, hfloor, hhorizon]
    exact h.from_le
  · intro c ts d hmem
    rw [hreturned] at hmem
    rcases mem_append.1 hmem with hmem | hmem
    · exact h.items c ts d hmem
    · exact hsome c ts d (mem_singleton.1 hmem).symm
  · rw [hinBus, hhorizon]
    exact h.horizon

theorem subOk_read : SubOk cfg n s.read := by
  unfold Subscription.read
  split
  · exact h
  · split
    next seq htrunc =>
      have hreturned := h.first (by simp [htrunc])
      have hfrom : Subscription.accountedFrom
          { s with truncationEvent := none, returned := s.returned ++ [.truncated seq] } =
          s.accountedFrom := by
        simp only [Subscription.accountedFrom, Subscription.notice, htrunc, hreturned]
        rfl
      have htiles : Subscription.tiles
          { s with truncationEvent := none, returned := s.returned ++ [.truncated seq] } =
          s.tiles := by
        rw [Subscription.tiles, filterMap_append, Subscription.tiles]
        rw [show List.filterMap Item.tile? [Item.truncated (ε := ε) (τ := τ) seq] = [] from rfl,
          append_nil]
        rfl
      refine ⟨by rw [hfrom, htiles]; exact h.tiles, by rw [hfrom]; exact h.floor_le,
        by rw [hfrom]; exact h.from_le, h.through, ?_, h.bound, h.horizon, fun hne ↦ absurd rfl hne,
        fun hw ↦ ⟨rfl, (h.waiting hw).2⟩⟩
      intro c ts d hmem
      rcases mem_append.1 hmem with hmem | hmem
      · exact h.items c ts d hmem
      · cases mem_singleton.1 hmem
    next htrunc =>
      split
      next e replayEvents hreplay =>
        refine h.of_returned (i := .event e) (by simp) (by simp) htrunc htrunc rfl ?_ rfl rfl rfl
          h.through (Nat.le_refl _) fun hw ↦ ?_
        · rw [Subscription.tiles, filterMap_append, Subscription.tiles, hreplay, map_cons,
            append_assoc]
          rfl
        · have hnil := (h.waiting hw).2
          rw [hreplay] at hnil
          cases hnil
      next hreplay =>
        split
        · exact subOk_aclose h
        · exact ⟨h.tiles, h.floor_le, h.from_le, h.through, h.items, h.bound, h.horizon, h.first,
            fun _ ↦ ⟨htrunc, hreplay⟩⟩

theorem subOk_nextEntry (hw : s.waiting ≠ 0) :
    SubOk cfg n (s.nextEntry cfg) := by
  obtain ⟨htrunc, hreplay⟩ := h.waiting hw
  unfold Subscription.nextEntry
  split
  next hdropped =>
    obtain ⟨d, hd⟩ := h.through hdropped
    refine subOk_noteDrained (h.of_returned
      (i := .dropped s.droppedCount s.oldestDroppedTs s.droppedThroughSeq) nofun ?_ htrunc
      htrunc rfl
      ?_ rfl rfl rfl (fun hne ↦ absurd rfl hne) (Nat.le_refl _) fun _ ↦ hreplay)
    · rintro c ts d' heq
      obtain ⟨-, -, rfl⟩ := Item.dropped.inj heq
      exact ⟨d, hd⟩
    · show (s.returned ++ [_]).filterMap Item.tile? ++ (s.replayEvents.map Entry.tile ++
        ([] ++ s.queue.map Entry.tile)) = s.tiles
      rw [Subscription.tiles, hreplay, Subscription.pendingDrop, if_neg hdropped, hd,
        filterMap_append, append_assoc]
      rfl
  next hzero =>
    have hzero : s.droppedCount = 0 := Decidable.not_not.1 hzero
    split
    next e queue hqueue =>
      refine subOk_noteDrained (h.of_returned (i := .event e) nofun nofun htrunc htrunc rfl
        ?_ rfl rfl
        rfl h.through ?_ fun _ ↦ hreplay)
      · show (s.returned ++ [_]).filterMap Item.tile? ++ (s.replayEvents.map Entry.tile ++
          (s.pendingDrop ++ queue.map Entry.tile)) = s.tiles
        rw [Subscription.tiles, hreplay, Subscription.pendingDrop, if_pos hzero, hqueue,
          filterMap_append, append_assoc]
        rfl
      · rw [hqueue, length_cons]
        exact Nat.le_succ _
    next hqueue =>
      split
      · exact (h.withFlags _ _ _ true _ _ _).withWaiting fun _ ↦ hw
      · split
        · exact (subOk_aclose h).withWaiting fun _ ↦ by rwa [waiting_aclose]
        · exact h

end

end Reading

/-! ## All runs -/

section Runs

variable {cfg : Config} {s s' : Sys ε τ}

theorem inv_init : Inv cfg (Sys.init : Sys ε τ) := ⟨busOk_init, nofun⟩

/-- A step of the subscription alone. -/
theorem Inv.withSub (h : Inv cfg s) {sub : Subscription ε τ} (hsub : SubOk cfg s.bus.nextSeq sub) :
    Inv cfg { s with sub := some sub } :=
  ⟨h.bus, fun _ heq ↦ Option.some.inj heq ▸ hsub⟩

/-- An entry is appended and goes to the subscription. -/
theorem Inv.append (h : Inv cfg s) (event : ε) (now : τ) (terminal term : Bool)
    (f : Subscription ε τ → Subscription ε τ)
    (hf : ∀ sub n, SubOk cfg n sub → SubOk cfg n (f sub)) :
    Inv cfg ⟨{ (s.bus.append cfg event now terminal).2 with terminated := term },
      s.sub.map fun sub ↦ f (sub.receive cfg (s.bus.append cfg event now terminal).1)⟩ := by
  have hbus : BusOk (s.bus.append cfg event now terminal).2 := busOk_append h.bus event now terminal
  refine ⟨⟨hbus.seqs, hbus.length_lt, hbus.eq_one⟩, fun sub heq ↦ ?_⟩
  obtain ⟨sub₀, hsub₀, rfl⟩ := Option.map_eq_some_iff.1 heq
  exact hf _ _ (subOk_receive (h.sub sub₀ hsub₀) rfl)

/-- **Every action keeps the invariant.** -/
theorem inv_step (h : Inv cfg s) {a : Action ε τ} (hs : step cfg s a = some s') : Inv cfg s' := by
  cases a with
  | seed events now terminated =>
    rw [step] at hs
    split at hs
    next hnone =>
      obtain rfl := Option.some.inj hs
      refine ⟨busOk_seed h.bus events now terminated, fun sub heq ↦ ?_⟩
      rw [Option.isNone_iff_eq_none] at hnone
      exact nomatch hnone.symm.trans heq
    · cases hs
  | publish event now =>
    obtain rfl := Option.some.inj hs
    exact h.append event now false _ _ fun _ _ hsub ↦ subOk_noteBacklog hsub
  | publishTerminalIfAbsent event now =>
    rw [step] at hs
    split at hs
    · obtain rfl := Option.some.inj hs
      exact h
    · obtain rfl := Option.some.inj hs
      exact h.append event now true true id fun _ _ hsub ↦ hsub
  | backpressureTimeout =>
    obtain rfl := Option.some.inj hs
    refine ⟨h.bus, fun sub heq ↦ ?_⟩
    obtain ⟨sub₀, hsub₀, rfl⟩ := Option.map_eq_some_iff.1 heq
    exact (h.sub sub₀ hsub₀).withFlags _ _ true _ _ _ 0
  | cleanupRun =>
    obtain rfl := Option.some.inj hs
    exact ⟨⟨h.bus.seqs, h.bus.length_lt, h.bus.eq_one⟩, h.sub⟩
  | deferredCleanup =>
    rw [step] at hs
    split at hs
    next hnone =>
      obtain rfl := Option.some.inj hs
      refine ⟨busOk_init, fun sub heq ↦ ?_⟩
      rw [Option.isNone_iff_eq_none] at hnone
      exact nomatch hnone.symm.trans heq
    · cases hs
  | subscribeEntries afterSeq =>
    rw [step] at hs
    split at hs
    · obtain rfl := Option.some.inj hs
      exact h.withSub (subOk_subscribe h.bus afterSeq)
    · cases hs
  | read =>
    obtain ⟨sub, hsub, rfl⟩ := Option.map_eq_some_iff.1 hs
    exact h.withSub (subOk_read (h.sub sub hsub))
  | nextEntry =>
    obtain ⟨sub, hsub, hs⟩ := Option.bind_eq_some_iff.1 hs
    split at hs
    · cases hs
    next hw =>
      obtain rfl := Option.some.inj hs
      exact h.withSub (subOk_nextEntry (h.sub sub hsub) hw)
  | cancelRead =>
    obtain ⟨sub, hsub, hs⟩ := Option.bind_eq_some_iff.1 hs
    split at hs
    · cases hs
    next hw =>
      obtain rfl := Option.some.inj hs
      exact h.withSub ((subOk_aclose (h.sub sub hsub)).withWaiting fun _ ↦ by rwa [waiting_aclose])
  | aclose =>
    obtain ⟨sub, hsub, rfl⟩ := Option.map_eq_some_iff.1 hs
    exact h.withSub (subOk_aclose (h.sub sub hsub))
  | unsubscribe =>
    obtain ⟨sub, hsub, hs⟩ := Option.bind_eq_some_iff.1 hs
    split at hs
    · obtain rfl := Option.some.inj hs
      have h' := h.sub sub hsub
      exact h.withSub ⟨h'.tiles, h'.floor_le, h'.from_le, h'.through, h'.items, h'.bound, nofun,
        h'.first, h'.waiting⟩
    · cases hs

theorem inv_run (actions : List (Action ε τ)) (h : Inv cfg s) (hs : run cfg s actions = some s') :
    Inv cfg s' := by
  induction actions generalizing s with
  | nil =>
    obtain rfl := Option.some.inj hs
    exact h
  | cons a actions ih =>
    obtain ⟨s₁, hs₁, hs⟩ := Option.bind_eq_some_iff.1 hs
    exact ih (inv_step h hs₁) hs

/-! ### The reader's position -/

section Position

variable (cfg) (sub : Subscription ε τ) (e : Entry ε τ)

@[simp] theorem afterSeqFloor_dropOldest : sub.dropOldest.afterSeqFloor = sub.afterSeqFloor := by
  unfold Subscription.dropOldest
  split <;> rfl

@[simp] theorem afterSeqFloor_receive : (sub.receive cfg e).afterSeqFloor = sub.afterSeqFloor := by
  unfold Subscription.receive Subscription.enqueue Subscription.offer
  split
  · dsimp only
    split <;> split <;> first | rfl | (dsimp only; split <;> simp)
  · rfl

@[simp] theorem afterSeqFloor_noteBacklog :
    (sub.noteBacklog cfg).afterSeqFloor = sub.afterSeqFloor := by
  unfold Subscription.noteBacklog
  split <;> rfl

@[simp] theorem afterSeqFloor_noteDrained :
    (sub.noteDrained cfg).afterSeqFloor = sub.afterSeqFloor := by
  unfold Subscription.noteDrained Subscription.countRead
  split <;> split <;> first | rfl | (split <;> rfl)

@[simp] theorem afterSeqFloor_aclose : sub.aclose.afterSeqFloor = sub.afterSeqFloor := by
  unfold Subscription.aclose
  split <;> rfl

@[simp] theorem afterSeqFloor_read : sub.read.afterSeqFloor = sub.afterSeqFloor := by
  unfold Subscription.read
  split
  · rfl
  · split
    · rfl
    · split
      · rfl
      · split <;> simp

@[simp] theorem afterSeqFloor_nextEntry :
    (sub.nextEntry cfg).afterSeqFloor = sub.afterSeqFloor := by
  unfold Subscription.nextEntry Subscription.deliver
  split
  · simp
  · split
    · simp
    · split
      · rfl
      · split <;> simp

end Position

/-- Nothing moves the reader's position of an open subscription. -/
theorem step_afterSeqFloor {a : Action ε τ} (hs : step cfg s a = some s') {sub : Subscription ε τ}
    (hsub : s.sub = some sub) :
    ∃ sub', s'.sub = some sub' ∧ sub'.afterSeqFloor = sub.afterSeqFloor := by
  have hsome : ¬ s.sub.isNone = true := by rw [hsub]; exact Bool.false_ne_true
  cases a with
  | seed =>
    rw [step, if_neg hsome] at hs
    cases hs
  | publish =>
    obtain rfl := Option.some.inj hs
    exact ⟨_, by rw [hsub]; rfl, by simp⟩
  | publishTerminalIfAbsent =>
    rw [step] at hs
    split at hs
    · obtain rfl := Option.some.inj hs
      exact ⟨sub, hsub, rfl⟩
    · obtain rfl := Option.some.inj hs
      exact ⟨_, by rw [hsub]; rfl, by simp⟩
  | backpressureTimeout =>
    obtain rfl := Option.some.inj hs
    refine ⟨_, by rw [hsub]; rfl, ?_⟩
    rfl
  | cleanupRun =>
    obtain rfl := Option.some.inj hs
    exact ⟨sub, hsub, rfl⟩
  | deferredCleanup =>
    rw [step, if_neg hsome] at hs
    cases hs
  | subscribeEntries =>
    rw [step, if_neg hsome] at hs
    cases hs
  | read =>
    rw [step, hsub] at hs
    obtain rfl := Option.some.inj hs
    exact ⟨_, rfl, by simp⟩
  | nextEntry =>
    rw [step, hsub, Option.bind_some] at hs
    split at hs
    · cases hs
    · obtain rfl := Option.some.inj hs
      exact ⟨_, rfl, by simp⟩
  | cancelRead =>
    rw [step, hsub, Option.bind_some] at hs
    split at hs
    · cases hs
    · obtain rfl := Option.some.inj hs
      exact ⟨_, rfl, by simp⟩
  | aclose =>
    rw [step, hsub] at hs
    obtain rfl := Option.some.inj hs
    exact ⟨_, rfl, by simp⟩
  | unsubscribe =>
    rw [step, hsub, Option.bind_some] at hs
    split at hs
    · obtain rfl := Option.some.inj hs
      exact ⟨_, rfl, rfl⟩
    · cases hs

theorem run_afterSeqFloor (actions : List (Action ε τ)) (hs : run cfg s actions = some s')
    {sub : Subscription ε τ} (hsub : s.sub = some sub) :
    ∃ sub', s'.sub = some sub' ∧ sub'.afterSeqFloor = sub.afterSeqFloor := by
  induction actions generalizing s sub with
  | nil =>
    obtain rfl := Option.some.inj hs
    exact ⟨sub, hsub, rfl⟩
  | cons a actions ih =>
    obtain ⟨s₁, hs₁, hs⟩ := Option.bind_eq_some_iff.1 hs
    obtain ⟨sub₁, hsub₁, heq₁⟩ := step_afterSeqFloor hs₁ hsub
    obtain ⟨sub₂, hsub₂, heq₂⟩ := ih hs hsub₁
    exact ⟨sub₂, hsub₂, heq₂.trans heq₁⟩

theorem run_append (cfg : Config) (s : Sys ε τ) (l m : List (Action ε τ)) :
    run cfg s (l ++ m) = (run cfg s l).bind fun s' ↦ run cfg s' m := by
  induction l generalizing s with
  | nil => rfl
  | cons a l ih =>
    rw [cons_append, run, run, Option.bind_assoc]
    congr 1
    funext s'
    exact ih s'

/-! ### The account -/

theorem SubOk.returned_tiles {n : Nat} {sub : Subscription ε τ} (h : SubOk cfg n sub) :
    ∃ m, Tiles sub.accountedFrom m (sub.returned.filterMap Item.tile?) := by
  obtain ⟨m, hm, -⟩ := Tiles.append_iff.1 h.tiles
  exact ⟨m, hm⟩

/-- The numbers of the entries that were returned increase. -/
theorem SubOk.pairwise_returnedSeqs {n : Nat} {sub : Subscription ε τ} (h : SubOk cfg n sub) :
    sub.returnedSeqs.Pairwise (· < ·) := by
  obtain ⟨m, hm⟩ := h.returned_tiles
  have hp := hm.pairwise_upto
  rw [pairwise_filterMap] at hp
  rw [Subscription.returnedSeqs, pairwise_filterMap]
  refine hp.imp fun {i j} hij q hq q' hq' ↦ ?_
  cases i with
  | event e =>
    cases j with
    | event e' =>
      have := hij e.tile rfl e'.tile rfl
      obtain rfl := Option.some.inj hq
      obtain rfl := Option.some.inj hq'
      exact this
    | truncated => cases hq'
    | dropped => cases hq'
  | truncated => cases hq
  | dropped => cases hq

theorem SubOk.lt_of_mem_returnedSeqs {n : Nat} {sub : Subscription ε τ} (h : SubOk cfg n sub)
    {q : Nat}
    (hq : q ∈ sub.returnedSeqs) : sub.afterSeqFloor < q := by
  obtain ⟨m, hm⟩ := h.returned_tiles
  obtain ⟨item, hitem, heq⟩ := mem_filterMap.1 hq
  cases item with
  | event =>
    obtain rfl := Option.some.inj heq
    exact Nat.lt_of_le_of_lt h.floor_le (hm.upto_le _ (mem_filterMap.2 ⟨_, hitem, rfl⟩)).1
  | truncated => cases heq
  | dropped => cases heq

/-- What a report of dropped events covers. -/
theorem SubOk.dropped_count {n : Nat} {sub : Subscription ε τ} (h : SubOk cfg n sub)
    {items later : List (Item ε τ)} {c : Nat} {ts : Option τ} {d : Option Nat}
    (hreturned : sub.returned = items ++ .dropped c ts d :: later) :
    ∃ through, d = some through ∧ lastReported sub.accountedFrom items < through ∧
      c = through - lastReported sub.accountedFrom items := by
  obtain ⟨through, rfl⟩ := h.items c ts d (by rw [hreturned]; simp)
  obtain ⟨m, hm⟩ := h.returned_tiles
  rw [hreturned, filterMap_append, filterMap_cons] at hm
  have hupto : through = lastReported sub.accountedFrom items + c := Tiles.upto_eq hm
  obtain ⟨_, -, hcons⟩ := Tiles.append_iff.1 hm
  have hpos : 0 < c := hcons.1
  exact ⟨through, rfl, by omega, by omega⟩

/-- **A subscription accounts for every event.**  In every run of any producers, reads and
bookkeeping in which the run of the bus is not seeded or cleaned up after the subscription at
position `k` was opened, the subscription is as `Accounts` says. -/
theorem subscription_accounts (cfg : Config) (k : Int) (before after : List (Action ε τ))
    {s : Sys ε τ} (hrun : run cfg Sys.init (before ++ .subscribeEntries k :: after) = some s) :
    ∃ sub, s.sub = some sub ∧ Accounts cfg k s.bus sub := by
  have hinv := inv_run _ inv_init hrun
  rw [run_append] at hrun
  obtain ⟨s₀, -, hrun⟩ := Option.bind_eq_some_iff.1 hrun
  obtain ⟨s₁, hs₁, hrun⟩ := Option.bind_eq_some_iff.1 hrun
  have hopen : s₁.sub = some (s₀.bus.subscribe k) := by
    rw [step] at hs₁
    split at hs₁
    · rw [← Option.some.inj hs₁]
    · cases hs₁
  obtain ⟨sub, hsub, hfloor⟩ := run_afterSeqFloor after hrun hopen
  have hfloor : sub.afterSeqFloor = k.toNat := hfloor
  have h := hinv.sub sub hsub
  refine ⟨sub, hsub, h.pairwise_returnedSeqs, fun q hq ↦ ?_, fun hnone ↦ ?_, fun q hq hq' ↦ ?_,
    h.horizon, fun items later c ts d ↦ h.dropped_count, h.bound⟩
  · have := h.lt_of_mem_returnedSeqs hq
    omega
  · rw [Subscription.accountedFrom, hnone, hfloor]
  · exact h.tiles.countP_covers hq (by omega)

end Runs

/-! ## Fixed runs -/

/-- A queue and a buffer of one entry each. -/
def smallConfig : Config := ⟨1, 1, Nat.one_pos, Nat.one_pos⟩

/-- Two events are seeded, the reader is told that the first is gone, takes the second, and is told
that the third was dropped for the fourth. -/
def overflowRun : List (Action Unit Unit) :=
  [.publish () (), .publish () (), .read, .read, .read, .nextEntry]

theorem subscription_accounts_overflow :
    ∃ s : Sys Unit Unit, run smallConfig Sys.init
        ([.seed [(), ()] () false] ++ .subscribeEntries 0 :: overflowRun) = some s ∧
      ∃ sub, s.sub = some sub ∧ Accounts smallConfig 0 s.bus sub := by
  obtain ⟨s, hs⟩ := Option.isSome_iff_exists.1 (show (run smallConfig Sys.init
    ([.seed [(), ()] () false] ++ .subscribeEntries 0 :: overflowRun)).isSome = true by decide)
  exact ⟨s, hs, subscription_accounts smallConfig 0 _ _ hs⟩

/-- **Once the subscription has stopped at a terminal entry, it misses what is published.**  Event
2 comes after the position of the reader, and there is no notice of truncation, but the
subscription has neither returned nor queued nor reported it. -/
theorem unaccounted_after_stop :
    ∃ (s : Sys Unit Unit) (sub : Subscription Unit Unit),
      run smallConfig Sys.init [.subscribeEntries 0, .publishTerminalIfAbsent () (), .read,
        .nextEntry, .read, .unsubscribe, .publish () ()] = some s ∧
      s.sub = some sub ∧ sub.notice = none ∧ 0 < 2 ∧ 2 < s.bus.nextSeq ∧
      sub.tiles.countP (fun t ↦ t.covers 2) = 0 :=
  ⟨_, _, rfl, rfl, rfl, by decide, by decide, by decide⟩

end EventBus
end AgentGateway
