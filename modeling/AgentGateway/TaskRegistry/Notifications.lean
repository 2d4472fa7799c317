import AgentGateway.Py.Runs
import AgentGateway.Py.Text

/-!
# The notification queue

`NotificationQueue` holds what a job is to be told about its tasks.  It is bounded: what does not
fit is not queued but counted, first by a marker in the queue, then by one that is deferred until
the first has left.  Progress of a task replaces the pending progress of the same task in place.

A `Notification` has the number of its object, since a drain of what was delivered goes by identity,
and numbers are given in the order of creation.  A `World` is a queue with its history: how many
notifications were pushed, which were removed and which were replaced.

* `Queue.Inv` holds along every run: the live marker is in the queue, the tokens increase, what was
  pushed after a marker was made stands behind it unless it replaced something.
* `replacement_overtakes_marker`: progress that replaces something older is delivered before the
  marker of an overflow that came first.
-/

open Py List

namespace AgentGateway.TaskRegistry

/-- What a notification holds. -/
inductive Body where
  /-- a payload, or the reason why it was left out -/
  | result (omission : Option Str)
  /-- an overflow marker: the number of results it announces, and the tasks of some of them -/
  | overflow (count : Nat) (samples : List Str)
deriving DecidableEq

/-- `TaskNotification` -/
structure Notification where
  object : Nat
  taskId : Str
  event : Str
  body : Body
  token : Option Nat
deriving DecidableEq

/-- The number of results an overflow marker announces. -/
def Notification.announced (n : Notification) : Nat :=
  match n.body with
  | .overflow count _ => count
  | .result _ => 0

def Notification.isMarker (n : Notification) : Bool :=
  match n.body with
  | .overflow _ _ => true
  | .result _ => false

/-- What is pushed: `omission` says why its payload cannot stand in it. -/
structure Incoming where
  taskId : Str
  event : Str
  omission : Option Str
deriving DecidableEq

/-- `NotificationQueue`; `nextObject` is the number of the next object. -/
structure Queue where
  maxPending : Nat
  queue : List Notification := []
  overflowMarker : Option Nat := none
  deferred : Option Notification := none
  deferredCount : Nat := 0
  deferredSamples : List Str := []
  nextToken : Nat := 0
  available : Bool := false
  nextObject : Nat := 0
deriving DecidableEq

namespace Queue

/-- `_bounded_notification`: the notification itself, or a new object that says that the payload is
left out -/
def bounded (q : Queue) (i : Incoming) : Notification :=
  ⟨if i.omission.isSome then q.nextObject + 1 else q.nextObject, i.taskId, i.event,
    .result i.omission, none⟩

def enqueue (q : Queue) (n : Notification) : Queue :=
  match n.token with
  | none => { q with queue := q.queue ++ [{ n with token := some q.nextToken }],
                     nextToken := q.nextToken + 1 }
  | some _ => { q with queue := q.queue ++ [n] }

/-- `_new_overflow_marker` -/
def newMarker (object count : Nat) (samples : List Str) : Notification :=
  ⟨object, .lit "multiple", .lit "results_omitted", .overflow count samples, none⟩

def recordOverflow (q : Queue) (i : Incoming) : Queue :=
  match q.overflowMarker with
  | none =>
    { q with overflowMarker := some (q.nextObject + 2) }.enqueue
      (newMarker (q.nextObject + 2) 1 [i.taskId])
  | some _ =>
    let count := q.deferredCount + 1
    let samples :=
      if q.deferredSamples.length < 5 then q.deferredSamples ++ [i.taskId] else q.deferredSamples
    { q with
      deferredCount := count,
      deferredSamples := samples,
      deferred :=
        some (newMarker ((q.deferred.map Notification.object).getD (q.nextObject + 2)) count
        samples) }

/-- The number of notifications up to which another one is queued. -/
def primaryLimit (q : Queue) : Nat :=
  if q.overflowMarker.isSome then q.maxPending else q.maxPending - 1

/-- `_push_bounded`; a push takes the numbers of three objects: the notification, its bounded form
and a marker. -/
def pushBounded (q : Queue) (i : Incoming) : Bool × Queue :=
  if q.deferred.isNone ∧ q.queue.length < q.primaryLimit then
    (true, { q.enqueue (q.bounded i) with available := true, nextObject := q.nextObject + 3 })
  else (false, { q.recordOverflow i with available := true, nextObject := q.nextObject + 3 })

def push (q : Queue) (i : Incoming) : Bool × Queue := q.pushBounded i

def planProgress : Str := .lit "plan_progress"

/-- The first pending progress of a task, and the queue with another notification in its place,
which takes over its token. -/
def replaceIn (taskId : Str) (new : Notification) :
    List Notification → Option (Notification × List Notification)
  | [] => none
  | n :: ns =>
    if n.taskId = taskId ∧ n.event = planProgress then some (n, { new with token := n.token } :: ns)
    else (replaceIn taskId new ns).map fun r ↦ (r.1, n :: r.2)

/-- What a push replaces, and what it leaves of the queue. -/
def replaces (q : Queue) (i : Incoming) : Option (Notification × List Notification) :=
  if i.event = planProgress then replaceIn i.taskId (q.bounded i) q.queue else none

def pushOrReplacePending (q : Queue) (i : Incoming) : Bool × Queue :=
  match q.replaces i with
  | some (_, queue) =>
    (true, { q with queue := queue, available := true, nextObject := q.nextObject + 3 })
  | none => q.pushBounded i

def rotateOverflowMarker (q : Queue) (removed : List Notification) : Queue :=
  match q.overflowMarker with
  | none => q
  | some marker =>
    if removed.any (fun n ↦ n.object == marker) then
      let q' := { q with overflowMarker := q.deferred.map Notification.object, deferred := none,
                         deferredCount := 0, deferredSamples := [] }
      match q.deferred with
      | some d => q'.enqueue d
      | none => q'
    else q

/-- What both drains do with what they remove. -/
def settle (q : Queue) (removed remaining : List Notification) : Queue :=
  let q' := { q with queue := remaining }.rotateOverflowMarker removed
  if q'.queue = [] then { q' with available := false } else q'

/-- Where a slice of a list of that length ends; a negative number counts from the end. -/
def sliceEnd (n : Int) (length : Nat) : Nat := if 0 ≤ n then n.toNat else (length + n).toNat

def drain (q : Queue) (maxCount : Int) : List Notification × Queue :=
  let k := sliceEnd maxCount q.queue.length
  (q.queue.take k, q.settle (q.queue.take k) (q.queue.drop k))

/-- `drain_delivered`, of the objects with these numbers -/
def drainDelivered (q : Queue) (delivered : List Nat) : List Notification × Queue :=
  if delivered = [] then ([], q)
  else
    let removed := q.queue.filter fun n ↦ delivered.contains n.object
    (removed, q.settle removed (q.queue.filter fun n ↦ !delivered.contains n.object))

def pendingCount (q : Queue) : Nat := q.queue.length

end Queue

/-! ## Histories -/

inductive QueueOp where
  | push (i : Incoming)
  | pushOrReplacePending (i : Incoming)
  | drain (maxCount : Int)
  | drainDelivered (delivered : List Nat)
deriving DecidableEq

/-- A queue and what has happened to it. -/
structure World where
  queue : Queue
  /-- the number of notifications that were pushed -/
  pushed : Nat := 0
  removed : List Notification := []
  /-- what was replaced, and by what -/
  replaced : List (Notification × Notification) := []

namespace World

def start (maxPending : Nat) : World := { queue := { maxPending := maxPending } }

def step (w : World) : QueueOp → World
  | .push i => { w with queue := (w.queue.push i).2, pushed := w.pushed + 1 }
  | .pushOrReplacePending i => { w with
      queue := (w.queue.pushOrReplacePending i).2,
      pushed := w.pushed + 1,
      replaced := match w.queue.replaces i with
        | some (old, _) => (old, w.queue.bounded i) :: w.replaced
        | none => w.replaced }
  | .drain n => { w with queue := (w.queue.drain n).2, removed := w.removed ++ (w.queue.drain n).1 }
  | .drainDelivered delivered => { w with
      queue := (w.queue.drainDelivered delivered).2,
      removed := w.removed ++ (w.queue.drainDelivered delivered).1 }

/-- The objects that have taken the place of another one. -/
def inPlace (w : World) : List Nat := w.replaced.map fun r ↦ r.2.object

end World

/-! ## The invariant -/

/-- If the second one is a marker, the first one is older, unless it is a marker too or has taken
the place of something. -/
def Older (inPlace : List Nat) (a b : Notification) : Prop :=
  b.isMarker = true → a.isMarker = false → a.object ∉ inPlace → a.object < b.object

theorem Older.mono {inPlace inPlace' : List Nat} {a b : Notification} (h : Older inPlace a b)
    (hsub : inPlace ⊆ inPlace') : Older inPlace' a b :=
  fun hb ha hout ↦ h hb ha fun hin ↦ hout (hsub hin)

/-- The tokens of a queue increase, and are older than the next one. -/
structure Increasing (tokens : List (Option Nat)) (next : Nat) : Prop where
  sorted : ∃ ts : List Nat, tokens = ts.map some ∧ ts.Pairwise (· < ·) ∧ ∀ t ∈ ts, t < next

variable {next : Nat}

theorem Increasing.append {tokens : List (Option Nat)} (h : Increasing tokens next) :
    Increasing (tokens ++ [some next]) (next + 1) := by
  obtain ⟨ts, rfl, hsorted, hlt⟩ := h
  refine ⟨ts ++ [next], by simp, ?_, ?_⟩
  · rw [pairwise_append]
    exact ⟨hsorted, pairwise_singleton _ _, fun t ht x hx ↦ mem_singleton.1 hx ▸ hlt t ht⟩
  · rw [forall_mem_append, forall_mem_singleton]
    exact ⟨fun t ht ↦ (hlt t ht).trans (Nat.lt_succ_self _), Nat.lt_succ_self _⟩

theorem Increasing.sublist {tokens tokens' : List (Option Nat)} (h : Increasing tokens next)
    (hsub : tokens'.Sublist tokens) : Increasing tokens' next := by
  obtain ⟨ts, rfl, hsorted, hlt⟩ := h
  obtain ⟨ts', hts, rfl⟩ := sublist_map_iff.1 hsub
  exact ⟨ts', rfl, hsorted.sublist hts, fun t ht ↦ hlt t (hts.subset ht)⟩

structure Queue.Inv (q : Queue) (inPlace : List Nat) : Prop where
  objects : ((q.queue ++ q.deferred.toList).map Notification.object).Nodup
  made : ∀ n ∈ q.queue ++ q.deferred.toList, n.object < q.nextObject
  live : ∀ o ∈ q.overflowMarker, ∃ m ∈ q.queue, m.isMarker = true ∧ m.object = o
  markers : ∀ n ∈ q.queue ++ q.deferred.toList, n.isMarker = true → n.event = .lit "results_omitted"
  deferredLive : q.overflowMarker = none → q.deferred = none
  room : q.queue.length + (if q.overflowMarker.isSome then 0 else 1) ≤ q.maxPending
  tokens : Increasing (q.queue.map Notification.token) q.nextToken
  deferredToken : ∀ d ∈ q.deferred, d.token = none ∧ d.isMarker = true
  deferredCount : q.deferredCount = (q.deferred.map Notification.announced).getD 0
  behind : (q.queue ++ q.deferred.toList).Pairwise (Older inPlace)

/-- The event is set exactly if there is something in the queue. -/
def Queue.Signals (q : Queue) : Prop := q.available = !q.queue.isEmpty

variable {maxPending : Nat} {l l' : List Notification}

namespace Queue

variable {q : Queue} {inPlace : List Nat}

theorem inv_start (h : 1 ≤ maxPending) : Inv { maxPending := maxPending } [] where
  objects := nodup_nil
  made := by simp
  live := by simp
  markers := by simp
  deferredLive _ := rfl
  room := by simpa using h
  tokens := ⟨[], rfl, List.Pairwise.nil, by simp⟩
  deferredToken := by simp
  deferredCount := rfl
  behind := List.Pairwise.nil

variable {n : Notification}

theorem enqueue_of_token_none (h : n.token = none) :
    q.enqueue n = { q with queue := q.queue ++ [{ n with token := some q.nextToken }],
                           nextToken := q.nextToken + 1 } := by
  rw [enqueue, h]

theorem object_bounded (q : Queue) (i : Incoming) :
    q.nextObject ≤ (q.bounded i).object ∧ (q.bounded i).object < q.nextObject + 3 := by
  rw [bounded]
  dsimp only
  split <;> omega

/-- What the invariant says of the notifications of a queue, with the deferred one at the end. -/
structure Lined (l : List Notification) (next : Nat) (inPlace : List Nat) : Prop where
  objects : (l.map Notification.object).Nodup
  made : ∀ n ∈ l, n.object < next
  markers : ∀ n ∈ l, n.isMarker = true → n.event = .lit "results_omitted"
  behind : l.Pairwise (Older inPlace)

theorem Lined.sublist (h : Lined l next inPlace) (hsub : l'.Sublist l) : Lined l' next inPlace :=
  ⟨h.objects.sublist (hsub.map _), fun n hn ↦ h.made n (hsub.subset hn),
    fun n hn ↦ h.markers n (hsub.subset hn), h.behind.sublist hsub⟩

theorem Lined.append (h : Lined l next inPlace) (hother : ∀ a ∈ l, a.object ≠ n.object)
    (hn : n.object < next + 3) (hmarker : n.isMarker = true → n.event = .lit "results_omitted")
    (hbehind : ∀ a ∈ l, Older inPlace a n) : Lined (l ++ [n]) (next + 3) inPlace where
  objects := by
    rw [map_append, nodup_append]
    refine ⟨h.objects, nodup_singleton _, fun a ha b hb ↦ ?_⟩
    obtain ⟨x, hx, rfl⟩ := mem_map.1 ha
    rw [mem_singleton.1 hb]
    exact hother x hx
  made := by
    rw [forall_mem_append, forall_mem_singleton]
    exact ⟨fun x hx ↦ (h.made x hx).trans_le (Nat.le_add_right _ _), hn⟩
  markers := by
    rw [forall_mem_append, forall_mem_singleton]
    exact ⟨h.markers, hmarker⟩
  behind := by
    rw [pairwise_append]
    exact ⟨h.behind, pairwise_singleton _ _,
      fun a ha b hb ↦ mem_singleton.1 hb ▸ hbehind a ha⟩

/-- A notification that was just made is newer than all others. -/
theorem Lined.append_new (h : Lined l next inPlace) (hle : next ≤ n.object)
    (hlt : n.object < next + 3) (hmarker : n.isMarker = true → n.event = .lit "results_omitted") :
    Lined (l ++ [n]) (next + 3) inPlace :=
  h.append (fun a ha ↦ ((h.made a ha).trans_le hle).ne) hlt hmarker
    fun a ha _ _ _ ↦ (h.made a ha).trans_le hle

section

variable (h : q.Inv inPlace)

include h

theorem Inv.lined :
    Lined (q.queue ++ q.deferred.toList) q.nextObject inPlace :=
  ⟨h.objects, h.made, h.markers, h.behind⟩

theorem Inv.lined_queue : Lined q.queue q.nextObject inPlace :=
  h.lined.sublist (sublist_append_left _ _)

theorem Inv.enqueue_task (hdeferred : q.deferred = none) (hroom : q.queue.length < q.primaryLimit)
    (i : Incoming) :
    Inv { q.enqueue (q.bounded i) with available := true, nextObject := q.nextObject + 3 }
      inPlace := by
  rw [enqueue_of_token_none rfl]
  obtain ⟨hle, hlt⟩ := q.object_bounded i
  have hlined : Lined ((q.queue ++ [{ q.bounded i with token := some q.nextToken }]) ++
      q.deferred.toList) (q.nextObject + 3) inPlace := by
    rw [hdeferred, Option.toList_none, append_nil]
    exact h.lined_queue.append_new hle hlt nofun
  refine ⟨hlined.objects, hlined.made, fun o ho ↦ ?_, hlined.markers, h.deferredLive, ?_, ?_,
    h.deferredToken, h.deferredCount, hlined.behind⟩
  · obtain ⟨m, hm, hmarker⟩ := h.live o ho
    exact ⟨m, mem_append_left _ hm, hmarker⟩
  · rw [primaryLimit] at hroom
    simp only [length_append, length_singleton]
    split at hroom
    next hmarker =>
      rw [if_pos hmarker]
      omega
    next hmarker =>
      rw [if_neg hmarker]
      omega
  · rw [map_append]
    exact h.tokens.append

/-- The first marker is put at the end. -/
theorem Inv.enqueue_marker (hmarker : q.overflowMarker = none) (i : Incoming) :
    Inv { q.recordOverflow i with available := true, nextObject := q.nextObject + 3 } inPlace := by
  rw [recordOverflow, hmarker]
  rw [enqueue_of_token_none rfl]
  have hroom := h.room
  rw [hmarker] at hroom
  have hlined : Lined ((q.queue ++ [{ newMarker (q.nextObject + 2) 1 [i.taskId] with
      token := some q.nextToken }]) ++ q.deferred.toList) (q.nextObject + 3) inPlace := by
    rw [h.deferredLive hmarker, Option.toList_none, append_nil]
    exact h.lined_queue.append_new (Nat.le_add_right _ _) (Nat.lt_succ_self _) fun _ ↦ rfl
  refine ⟨hlined.objects, hlined.made, fun o ho ↦ ?_, hlined.markers, nofun, ?_, ?_,
    h.deferredToken, h.deferredCount, hlined.behind⟩
  · cases ho
    exact ⟨_, mem_append_right _ (mem_singleton.2 rfl), rfl, rfl⟩
  · simpa using hroom
  · rw [map_append]
    exact h.tokens.append

/-- An overflow while there is a marker is counted by the deferred one, which keeps its number or
takes a new one. -/
theorem Inv.defer {o : Nat} (hmarker : q.overflowMarker = some o) (i : Incoming) :
    Inv { q.recordOverflow i with available := true, nextObject := q.nextObject + 3 } inPlace := by
  rw [recordOverflow, hmarker]
  generalize (if q.deferredSamples.length < 5 then q.deferredSamples ++ [i.taskId]
    else q.deferredSamples) = samples
  have hlive := h.live
  have hroom := h.room
  rw [hmarker] at hlive hroom
  have hlined : Lined (q.queue ++ [newMarker ((q.deferred.map Notification.object).getD
      (q.nextObject + 2)) (q.deferredCount + 1) samples]) (q.nextObject + 3) inPlace := by
    cases hdeferred : q.deferred with
    | none => exact h.lined_queue.append_new (Nat.le_add_right _ _) (Nat.lt_succ_self _) fun _ ↦ rfl
    | some d =>
      have hall := h.lined
      rw [hdeferred, Option.toList_some] at hall
      have hobjects := hall.objects
      rw [map_append, nodup_append] at hobjects
      refine h.lined_queue.append (fun n hn ↦ hobjects.2.2 _ (mem_map_of_mem hn) _
        (by simp [newMarker])) ?_
        (fun _ ↦ rfl) fun a ha _ ↦ (pairwise_append.1 hall.behind).2.2 a ha d
          (mem_singleton.2 rfl) (h.deferredToken d hdeferred).2
      exact (hall.made d (by simp)).trans_le (Nat.le_add_right _ _)
  refine ⟨hlined.objects, hlined.made, hlive, hlined.markers, nofun, hroom, h.tokens, fun d hd ↦ ?_,
    rfl, hlined.behind⟩
  cases hd
  exact ⟨rfl, rfl⟩

theorem Inv.pushBounded (i : Incoming) : (q.pushBounded i).2.Inv inPlace := by
  rw [Queue.pushBounded]
  split
  next hroom => exact h.enqueue_task (Option.isNone_iff_eq_none.1 hroom.1) hroom.2 i
  · cases hmarker : q.overflowMarker with
    | none => exact h.enqueue_marker hmarker i
    | some => exact h.defer hmarker i

omit h in
theorem replaceIn_eq_some {taskId : Str} {new old : Notification}
    (h : replaceIn taskId new l = some (old, l')) :
    old.taskId = taskId ∧ old.event = planProgress ∧
      ∃ before after, l = before ++ old :: after ∧
        l' = before ++ { new with token := old.token } :: after := by
  induction l generalizing l' with
  | nil => cases h
  | cons n l ih =>
    rw [replaceIn] at h
    split at h
    next hn =>
      cases h
      exact ⟨hn.1, hn.2, [], l, rfl, rfl⟩
    · obtain ⟨⟨old', l''⟩, hrest, heq⟩ := Option.map_eq_some_iff.1 h
      dsimp only at heq
      cases heq
      obtain ⟨htask, hevent, before, after, rfl, rfl⟩ := ih hrest
      exact ⟨htask, hevent, n :: before, after, rfl, rfl⟩

omit h in
/-- What a push replaces is the progress of the same task. -/
theorem replaces_eq_some {i : Incoming} {old : Notification} (h : q.replaces i = some (old, l)) :
    i.event = planProgress ∧ old.taskId = i.taskId ∧ old.event = planProgress ∧
      ∃ before after, q.queue = before ++ old :: after ∧
        l = before ++ { q.bounded i with token := old.token } :: after := by
  rw [replaces] at h
  split at h
  next hevent => exact ⟨hevent, replaceIn_eq_some h⟩
  · cases h

theorem Inv.not_isMarker (hn : n ∈ q.queue) (hevent : n.event = planProgress) :
    n.isMarker = false := by
  rw [Bool.eq_false_iff]
  intro hmarker
  rw [h.markers n (mem_append_left _ hn) hmarker] at hevent
  exact absurd hevent (by decide)

theorem Inv.pushOrReplacePending (i : Incoming) :
    (q.pushOrReplacePending i).2.Inv (match q.replaces i with
      | some _ => (q.bounded i).object :: inPlace
      | none => inPlace) := by
  rw [Queue.pushOrReplacePending]
  cases hreplaces : q.replaces i with
  | none => exact h.pushBounded i
  | some r =>
    obtain ⟨old, l⟩ := r
    obtain ⟨-, -, hevent, before, after, hqueue, rfl⟩ := replaces_eq_some hreplaces
    have hold := h.not_isMarker (by rw [hqueue]; simp) hevent
    have hobject := q.object_bounded i
    have hobjects := h.objects
    have hmade := h.made
    have hmarkers := h.markers
    have hbehind := h.behind
    have htokens := h.tokens
    have hlive := h.live
    have hroom := h.room
    rw [hqueue] at hobjects hmade hmarkers hbehind htokens hlive hroom
    simp only [append_assoc, cons_append, forall_mem_append, forall_mem_cons]
      at hmade hmarkers hbehind
    rw [append_assoc, cons_append, map_append, map_cons, nodup_middle,
      nodup_cons, ← map_append] at hobjects
    rw [pairwise_append, pairwise_cons] at hbehind
    refine ⟨?_, ?_, ?_, ?_, h.deferredLive, ?_, ?_, h.deferredToken, h.deferredCount, ?_⟩
    · rw [append_assoc, cons_append, map_append, map_cons, nodup_middle,
        nodup_cons, ← map_append]
      refine ⟨fun hmem ↦ ?_, hobjects.2⟩
      obtain ⟨n, hn, heq⟩ := mem_map.1 hmem
      have hlt : n.object < q.nextObject := by
        rcases mem_append.1 hn with hn | hn
        · exact hmade.1 n hn
        · rcases mem_append.1 hn with hn | hn
          · exact hmade.2.2.1 n hn
          · exact hmade.2.2.2 n hn
      dsimp only at heq
      omega
    · simp only [append_assoc, cons_append, forall_mem_append, forall_mem_cons]
      exact ⟨fun n hn ↦ (hmade.1 n hn).trans_le (Nat.le_add_right _ _), hobject.2,
        fun n hn ↦ (hmade.2.2.1 n hn).trans_le (Nat.le_add_right _ _),
        fun n hn ↦ (hmade.2.2.2 n hn).trans_le (Nat.le_add_right _ _)⟩
    · intro o ho
      obtain ⟨m, hm, hmarker, rfl⟩ := hlive o ho
      refine ⟨m, ?_, hmarker, rfl⟩
      rcases mem_append.1 hm with hm | hm
      · exact mem_append_left _ hm
      · rcases mem_cons.1 hm with rfl | hm
        · rw [hold] at hmarker
          cases hmarker
        · exact mem_append_right _ (mem_cons_of_mem _ hm)
    · simp only [append_assoc, cons_append, forall_mem_append, forall_mem_cons]
      exact ⟨hmarkers.1, nofun, hmarkers.2.2⟩
    · simpa using hroom
    · simpa using htokens
    · simp only [append_assoc, cons_append]
      rw [pairwise_append, pairwise_cons]
      refine ⟨hbehind.1.imp fun hab ↦ hab.mono (subset_cons_self _ _), ⟨fun b _ _ _ hout ↦ ?_,
        hbehind.2.1.2.imp fun hab ↦ hab.mono (subset_cons_self _ _)⟩, fun a ha b hb ↦ ?_⟩
      · exact absurd mem_cons_self hout
      · rcases mem_cons.1 hb with rfl | hb
        · intro hmarker
          cases hmarker
        · exact (hbehind.2.2 a ha b (mem_cons_of_mem _ hb)).mono (subset_cons_self _ _)

end

variable {removed remaining : List Notification}

theorem Inv.rotate (h : q.Inv inPlace) (hperm : (removed ++ remaining).Perm q.queue)
    (hsub : remaining.Sublist q.queue) :
    ({ q with queue := remaining }.rotateOverflowMarker removed).Inv inPlace := by
  have hlength : removed.length + remaining.length = q.queue.length := by
    rw [← length_append, hperm.length_eq]
  have hall : (remaining ++ q.deferred.toList).Sublist (q.queue ++ q.deferred.toList) :=
    hsub.append_right _
  obtain ⟨hobjects, hmade, hmarkers, hbehind⟩ := h.lined.sublist hall
  have htokens := h.tokens.sublist (hsub.map _)
  have hroom := h.room
  rw [rotateOverflowMarker]
  cases hmarker : q.overflowMarker with
  | none =>
    rw [hmarker] at hroom
    exact ⟨hobjects, hmade, nofun, hmarkers, fun _ ↦ h.deferredLive hmarker,
      (Nat.add_le_add_right hsub.length_le _).trans hroom, htokens, h.deferredToken,
      h.deferredCount, hbehind⟩
  | some o =>
    obtain ⟨m, hm, hisMarker, rfl⟩ := h.live o hmarker
    rw [hmarker] at hroom
    dsimp only
    by_cases hany : (removed.any fun n ↦ n.object == m.object) = true
    · rw [if_pos hany]
      have hremoved : 1 ≤ removed.length := by
        cases removed with
        | nil => cases hany
        | cons => simp
      cases hdeferred : q.deferred with
      | none =>
        rw [hdeferred] at hobjects hmade hmarkers hbehind
        refine ⟨hobjects, hmade, by simp, hmarkers, fun _ ↦ rfl, ?_, htokens, by simp, rfl, hbehind⟩
        simp only [Option.isSome_some, if_true, Option.map_none, Option.isSome_none,
          Bool.false_eq_true, if_false] at hroom ⊢
        omega
      | some d =>
        obtain ⟨htoken, hdMarker⟩ := h.deferredToken d hdeferred
        rw [hdeferred, Option.toList_some] at hobjects hmade hmarkers hbehind
        dsimp only
        rw [enqueue_of_token_none htoken]
        refine ⟨?_, ?_, ?_, ?_, by simp, ?_, ?_, by simp, rfl, ?_⟩
        · simpa using hobjects
        · rw [Option.toList_none, append_nil, forall_mem_append, forall_mem_singleton]
          rw [forall_mem_append, forall_mem_singleton] at hmade
          exact hmade
        · intro o ho
          rw [Option.map_some, Option.mem_some_iff] at ho
          exact ⟨{ d with token := some q.nextToken }, by simp, hdMarker, ho⟩
        · rw [Option.toList_none, append_nil, forall_mem_append, forall_mem_singleton]
          rw [forall_mem_append, forall_mem_singleton] at hmarkers
          exact hmarkers
        · simp only [length_append, length_singleton, Option.map_some, Option.isSome_some,
            if_true]
          omega
        · rw [map_append]
          exact htokens.append
        · rw [Option.toList_none, append_nil, pairwise_append]
          rw [pairwise_append] at hbehind
          refine ⟨hbehind.1, pairwise_singleton _ _, fun a ha b hb ↦ ?_⟩
          rw [mem_singleton.1 hb]
          exact hbehind.2.2 a ha d (mem_singleton.2 rfl)
    · rw [if_neg hany]
      have hstays : m ∈ remaining := by
        rcases mem_append.1 (hperm.mem_iff.2 hm) with hm | hm
        · exact absurd (any_eq_true.2 ⟨m, hm, beq_self_eq_true m.object⟩) hany
        · exact hm
      refine ⟨hobjects, hmade, fun o ho ↦ ?_, hmarkers, nofun,
        (Nat.add_le_add_right hsub.length_le _).trans hroom, htokens, h.deferredToken,
        h.deferredCount, hbehind⟩
      exact ⟨m, hstays, hisMarker, Option.some.inj ho⟩

/-- Notifications leave the queue. -/
theorem Inv.settle (h : q.Inv inPlace) (hperm : (removed ++ remaining).Perm q.queue)
    (hsub : remaining.Sublist q.queue) : (q.settle removed remaining).Inv inPlace := by
  have hrotate := h.rotate hperm hsub
  rw [Queue.settle]
  split
  · exact ⟨hrotate.objects, hrotate.made, hrotate.live, hrotate.markers, hrotate.deferredLive,
      hrotate.room, hrotate.tokens, hrotate.deferredToken, hrotate.deferredCount, hrotate.behind⟩
  · exact hrotate

/-! The event -/

theorem Inv.signals_pushBounded (h : q.Inv inPlace) (i : Incoming) :
    (q.pushBounded i).2.Signals := by
  rw [Queue.pushBounded]
  split
  · rw [enqueue_of_token_none rfl, Signals]
    simp
  · rw [recordOverflow]
    cases hmarker : q.overflowMarker with
    | none =>
      rw [enqueue_of_token_none rfl, Signals]
      simp
    | some o =>
      obtain ⟨m, hm, -⟩ := h.live o hmarker
      have hne : q.queue ≠ [] := ne_nil_of_mem hm
      simpa [Signals] using hne

theorem Inv.signals_pushOrReplacePending (h : q.Inv inPlace) (i : Incoming) :
    (q.pushOrReplacePending i).2.Signals := by
  rw [Queue.pushOrReplacePending]
  cases hreplaces : q.replaces i with
  | none => exact h.signals_pushBounded i
  | some r =>
    obtain ⟨old, l⟩ := r
    obtain ⟨-, -, -, before, after, -, rfl⟩ := replaces_eq_some hreplaces
    simp [Signals]

theorem enqueue_available (n : Notification) : (q.enqueue n).available = q.available := by
  rw [enqueue]
  split <;> rfl

theorem rotate_available (removed : List Notification) :
    (q.rotateOverflowMarker removed).available = q.available := by
  rw [rotateOverflowMarker]
  split
  · rfl
  · split
    · dsimp only
      split
      · rw [enqueue_available]
      · rfl
    · rfl

theorem rotate_nil : q.rotateOverflowMarker [] = q := by
  rw [rotateOverflowMarker]
  split
  · rfl
  · simp

theorem Signals.settle (h : q.Signals)
    (hperm : (removed ++ remaining).Perm q.queue) : (q.settle removed remaining).Signals := by
  rw [Queue.settle]
  split
  next hempty => simp [Signals, hempty]
  next hne =>
    have hqueue : q.queue ≠ [] := by
      intro hnil
      rw [hnil] at hperm
      obtain ⟨rfl, rfl⟩ := append_eq_nil_iff.1 hperm.eq_nil
      rw [rotate_nil] at hne
      exact hne rfl
    have havailable : q.available = true := by
      rw [h]
      simpa using hqueue
    rw [Signals, rotate_available]
    simpa [havailable] using hne

theorem maxPending_enqueue (q : Queue) (n : Notification) :
    (q.enqueue n).maxPending = q.maxPending := by
  rw [enqueue]
  split <;> rfl

theorem maxPending_pushBounded (q : Queue) (i : Incoming) :
    (q.pushBounded i).2.maxPending = q.maxPending := by
  rw [Queue.pushBounded]
  split
  · exact q.maxPending_enqueue _
  · dsimp only
    rw [recordOverflow]
    split
    · rw [maxPending_enqueue]
    · rfl

theorem maxPending_pushOrReplacePending (q : Queue) (i : Incoming) :
    (q.pushOrReplacePending i).2.maxPending = q.maxPending := by
  rw [Queue.pushOrReplacePending]
  split
  · rfl
  · exact q.maxPending_pushBounded i

theorem maxPending_settle (q : Queue) (removed remaining : List Notification) :
    (q.settle removed remaining).maxPending = q.maxPending := by
  have hrotate : ({ q with queue := remaining }.rotateOverflowMarker removed).maxPending =
      q.maxPending := by
    rw [rotateOverflowMarker]
    split
    · rfl
    · split
      · dsimp only
        split
        · rw [maxPending_enqueue]
        · rfl
      · rfl
  rw [Queue.settle]
  split
  · exact hrotate
  · exact hrotate

theorem drain_perm (q : Queue) (n : Int) :
    let k := sliceEnd n q.queue.length
    (q.queue.take k ++ q.queue.drop k).Perm q.queue := by
  intro k
  rw [take_append_drop]

/-- What two kinds of drains have in common: some notifications leave, the others keep their order.
-/
theorem drain_eq (q : Queue) (n : Int) : ∃ removed remaining,
    q.drain n = (removed, q.settle removed remaining) ∧ removed ++ remaining = q.queue :=
  ⟨_, _, rfl, take_append_drop _ _⟩

end Queue

/-! ## Conservation -/

/-- How many notifications a notification stands for. -/
def Notification.weight (n : Notification) : Nat := if n.isMarker then n.announced else 1

def weights (l : List Notification) : Nat := (l.map Notification.weight).sum

theorem weights_append (l l' : List Notification) : weights (l ++ l') = weights l + weights l' := by
  rw [weights, map_append, sum_append, weights, weights]

theorem weights_perm (h : l.Perm l') : weights l = weights l' :=
  (h.map _).sum_nat

theorem weights_singleton (n : Notification) : weights [n] = n.weight := by
  rw [weights, map_singleton, sum_singleton]

/-- The notifications themselves, and what the markers announce. -/
theorem weights_eq (l : List Notification) :
    weights l = l.countP (fun n ↦ !n.isMarker) + (l.map Notification.announced).sum := by
  induction l with
  | nil => rfl
  | cons n l ih =>
    rw [weights, map_cons, sum_cons, ← weights, ih, countP_cons, map_cons,
      sum_cons, Notification.weight]
    cases hmarker : n.isMarker with
    | true =>
      simp only [if_true, Bool.not_true, Bool.false_eq_true, if_false]
      omega
    | false =>
      have hzero : n.announced = 0 := by
        rw [Notification.isMarker] at hmarker
        rw [Notification.announced]
        split at hmarker
        · cases hmarker
        · rfl
      simp only [Bool.false_eq_true, if_false, Bool.not_false, if_true, hzero]
      omega

/-- What a queue stands for, with what it has deferred. -/
def Queue.total (q : Queue) : Nat := weights (q.queue ++ q.deferred.toList)

namespace Queue

variable {q : Queue} {inPlace : List Nat}

theorem Inv.total_pushBounded (h : q.Inv inPlace) (i : Incoming) :
    (q.pushBounded i).2.total = q.total + 1 := by
  rw [Queue.pushBounded]
  split
  next hroom =>
    rw [enqueue_of_token_none rfl, total, total, Option.isNone_iff_eq_none.1 hroom.1]
    simp only [Option.toList_none, append_nil, weights_append, weights_singleton]
    rfl
  · rw [recordOverflow]
    cases hmarker : q.overflowMarker with
    | none =>
      rw [enqueue_of_token_none rfl, total, total, h.deferredLive hmarker]
      simp only [Option.toList_none, append_nil, weights_append, weights_singleton]
      rfl
    | some =>
      have hcount := h.deferredCount
      rw [total, total, Option.toList_some, weights_append, weights_append, weights_singleton,
        hcount]
      cases hdeferred : q.deferred with
      | none => rfl
      | some d =>
        have hweight : d.weight = d.announced := by
          rw [Notification.weight, (h.deferredToken d hdeferred).2, if_pos rfl]
        rw [Option.toList_some, weights_singleton, hweight]
        rfl

theorem Inv.total_pushOrReplacePending (h : q.Inv inPlace) (i : Incoming) :
    (q.pushOrReplacePending i).2.total + (if (q.replaces i).isSome then 1 else 0) = q.total +
      1 := by
  rw [Queue.pushOrReplacePending]
  cases hreplaces : q.replaces i with
  | none => exact h.total_pushBounded i
  | some r =>
    obtain ⟨old, l⟩ := r
    obtain ⟨-, -, hevent, before, after, hqueue, rfl⟩ := replaces_eq_some hreplaces
    have hold := h.not_isMarker (by rw [hqueue]; simp) hevent
    have hweight : old.weight = 1 := by simp [Notification.weight, hold]
    rw [total, total, hqueue]
    simp only [weights, map_append, map_cons, sum_append, sum_cons, hweight]
    rfl

theorem Inv.total_settle (h : q.Inv inPlace) {removed remaining : List Notification}
    (hperm : (removed ++ remaining).Perm q.queue) :
    (q.settle removed remaining).total + weights removed = q.total := by
  have hqueue : weights q.queue = weights removed + weights remaining := by
    rw [← weights_perm hperm, weights_append]
  have hrotate : ({ q with queue := remaining }.rotateOverflowMarker removed).total =
      weights remaining + weights q.deferred.toList := by
    rw [rotateOverflowMarker]
    split
    · rw [total, weights_append]
    next o hmarker =>
      split
      · cases hdeferred : q.deferred with
        | none => rw [total, weights_append]
        | some d =>
          dsimp only
          rw [enqueue_of_token_none (h.deferredToken d hdeferred).1, total, weights_append,
            weights_append]
          rfl
      · rw [total, weights_append]
  have hsettle : (q.settle removed remaining).total =
      ({ q with queue := remaining }.rotateOverflowMarker removed).total := by
    rw [Queue.settle]
    split <;> rfl
  rw [hsettle, hrotate, total, weights_append, hqueue]
  omega

end Queue

/-! ## Runs -/

structure World.Inv (w : World) : Prop where
  queue : w.queue.Inv w.inPlace
  signals : w.queue.Signals
  conserved : w.pushed = w.queue.total + weights w.removed + w.replaced.length
  replaced : ∀ r ∈ w.replaced, r.1.taskId = r.2.taskId ∧ r.1.event = Queue.planProgress ∧
    r.2.event = Queue.planProgress

namespace World

theorem inv_start (h : 1 ≤ maxPending) : (start maxPending).Inv :=
  ⟨Queue.inv_start h, rfl, rfl, by simp [start]⟩

theorem Inv.settle {w : World} (h : w.Inv) {removed remaining : List Notification}
    (hperm : (removed ++ remaining).Perm w.queue.queue) (hsub : remaining.Sublist w.queue.queue) :
    Inv { w with queue := w.queue.settle removed remaining, removed := w.removed ++ removed } := by
  have htotal := h.queue.total_settle hperm
  have hconserved := h.conserved
  refine ⟨h.queue.settle hperm hsub, h.signals.settle hperm, ?_, h.replaced⟩
  dsimp only
  rw [weights_append]
  omega

/-- **One operation preserves the invariant.** -/
theorem Inv.step {w : World} (h : w.Inv) (op : QueueOp) : (w.step op).Inv := by
  cases op with
  | push i =>
    refine ⟨h.queue.pushBounded i, h.queue.signals_pushBounded i, ?_, h.replaced⟩
    have htotal := h.queue.total_pushBounded i
    show w.pushed + 1 = (w.queue.pushBounded i).2.total + weights w.removed + w.replaced.length
    rw [htotal, h.conserved]
    omega
  | pushOrReplacePending i =>
    have hqueue := h.queue.pushOrReplacePending i
    have htotal := h.queue.total_pushOrReplacePending i
    have hconserved := h.conserved
    rw [World.step]
    cases hreplaces : w.queue.replaces i with
    | none =>
      rw [hreplaces] at hqueue htotal
      refine ⟨hqueue, h.queue.signals_pushOrReplacePending i, ?_, h.replaced⟩
      simp only [Option.isSome_none, Bool.false_eq_true, if_false] at htotal ⊢
      omega
    | some =>
      rw [hreplaces] at hqueue htotal
      obtain ⟨hevent, htask, hold, -⟩ := Queue.replaces_eq_some hreplaces
      refine ⟨hqueue, h.queue.signals_pushOrReplacePending i, ?_,
        forall_mem_cons.2 ⟨⟨htask, hold, hevent⟩, h.replaced⟩⟩
      simp only [Option.isSome_some, if_true, length_cons] at htotal ⊢
      omega
  | drain n => exact h.settle (w.queue.drain_perm n) (drop_sublist _ _)
  | drainDelivered delivered =>
    rw [World.step, Queue.drainDelivered]
    split
    · rw [append_nil]
      exact h
    · exact h.settle (filter_append_perm _ _) filter_sublist

theorem maxPending_runs (maxPending : Nat) (ops : List QueueOp) :
    (runs World.step (start maxPending) ops).queue.maxPending = maxPending := by
  refine runs_induction (P := fun w : World ↦ w.queue.maxPending = maxPending) (fun w op hw ↦ ?_)
    rfl ops
  rw [← hw]
  cases op with
  | push i => exact w.queue.maxPending_pushBounded i
  | pushOrReplacePending i => exact w.queue.maxPending_pushOrReplacePending i
  | drain => exact w.queue.maxPending_settle _ _
  | drainDelivered delivered =>
    show (w.queue.drainDelivered delivered).2.maxPending = _
    rw [Queue.drainDelivered]
    split
    · rfl
    · exact w.queue.maxPending_settle _ _

end World

/-- **The queue conserves and bounds notifications.**  After any run every notification that was
pushed is in the queue, removed, replaced by progress of the same task, or counted by a marker that
is in the queue, deferred or removed; the queue is bounded, its tokens increase, and the event says
whether there is something in it.  What `drain` returns comes after every marker that is older,
unless it replaced something in place; the marker that announces an overflow is at least as old as
the overflow. -/
theorem notification_queue_invariant {maxPending : Nat} (hmax : 1 ≤ maxPending)
    (ops : List QueueOp) :
    let w := runs World.step (.start maxPending) ops
    w.pushed = (w.queue.queue ++ w.removed).countP (fun n ↦ !n.isMarker) + w.replaced.length +
        ((w.queue.queue ++ w.queue.deferred.toList ++ w.removed).map Notification.announced).sum ∧
      (∀ r ∈ w.replaced, r.1.taskId = r.2.taskId ∧ r.1.event = Queue.planProgress ∧
        r.2.event = Queue.planProgress) ∧
      w.queue.pendingCount ≤ maxPending ∧
      (∃ tokens : List Nat, w.queue.queue.map Notification.token = tokens.map some ∧
        tokens.Pairwise (· < ·)) ∧
      (∀ count before n after, (w.queue.drain count).1 = before ++ n :: after → n.isMarker = false →
        n.object ∉ w.inPlace → ∀ m ∈ w.queue.queue ++ w.queue.deferred.toList, m.isMarker = true →
          m.object < n.object → m ∈ before) ∧
      (w.queue.available = true ↔ w.queue.queue ≠ []) := by
  intro w
  have hinv : w.Inv := runs_induction (fun _ op hw ↦ hw.step op) (World.inv_start hmax) ops
  have hbound : w.queue.maxPending = maxPending := World.maxPending_runs maxPending ops
  refine ⟨?_, hinv.replaced, ?_, ?_, ?_, ?_⟩
  · have hdeferred : w.queue.deferred.toList.countP (fun n ↦ !n.isMarker) = 0 := by
      rw [countP_eq_zero]
      intro d hd
      simp [(hinv.queue.deferredToken d (Option.mem_toList.1 hd)).2]
    rw [hinv.conserved, Queue.total, ← weights_append, weights_eq]
    simp only [countP_append, hdeferred]
    omega
  · rw [← hbound, Queue.pendingCount]
    exact (Nat.le_add_right _ _).trans hinv.queue.room
  · obtain ⟨tokens, htokens, hsorted, -⟩ := hinv.queue.tokens
    exact ⟨tokens, htokens, hsorted⟩
  · intro count before n after hdrain hn hplace m hm hmarker hlt
    obtain ⟨removed, remaining, hdrained, hqueue⟩ := w.queue.drain_eq count
    rw [hdrained] at hdrain
    dsimp only at hdrain
    have hbehind := hinv.queue.behind
    rw [← hqueue, hdrain, append_assoc, append_assoc, cons_append,
      pairwise_append, pairwise_cons] at hbehind
    rw [← hqueue, hdrain, append_assoc, append_assoc, cons_append] at hm
    rcases mem_append.1 hm with hm | hm
    · exact hm
    · rcases mem_cons.1 hm with rfl | hm
      · rw [hn] at hmarker
        cases hmarker
      · exact absurd (hbehind.2.1.1 m hm hmarker hn hplace) (Nat.lt_asymm hlt)
  · rw [hinv.signals]
    simp

/-- A task has ended. -/
def completed (taskId : String) : Incoming := ⟨.lit taskId, .lit "completed", none⟩

/-- A task has made progress. -/
def progress (taskId : String) : Incoming := ⟨.lit taskId, Queue.planProgress, none⟩

theorem notification_queue_invariant_sample :
    let w := runs World.step (.start 2)
      [.push (completed "a"), .push (completed "b"), .drain 1, .push (completed "c")]
    w.queue.pendingCount ≤ 2 ∧ ∃ before n m, (w.queue.drain 2).1 = before ++ [n] ∧
      n.isMarker = false ∧ m.isMarker = true ∧ m.object < n.object ∧ m ∈ before := by
  have h := notification_queue_invariant (by decide : 1 ≤ 2)
    [.push (completed "a"), .push (completed "b"), .drain 1, .push (completed "c")]
  let m : Notification :=
    ⟨5, .lit "multiple", .lit "results_omitted", .overflow 1 [.lit "b"], some 1⟩
  let n : Notification := ⟨6, .lit "c", .lit "completed", .result none, some 2⟩
  exact ⟨h.2.2.1, [m], n, m, by decide, rfl, rfl, by decide,
    h.2.2.2.2.1 2 [m] n [] (by decide) rfl (by decide) m (by decide) rfl (by decide)⟩

/-- Progress that replaces what was pending is delivered before the marker of an overflow that came
before it. -/
theorem replacement_overtakes_marker :
    let w := runs World.step (.start 2)
      [.pushOrReplacePending (progress "a"), .push (completed "b"),
        .pushOrReplacePending (progress "a")]
    ∃ n m, (w.queue.drain 1).1 = [n] ∧ n.isMarker = false ∧ m ∈ w.queue.queue ∧ m.isMarker = true ∧
      m.object < n.object := by
  exact ⟨⟨6, .lit "a", Queue.planProgress, .result none, some 0⟩,
    ⟨5, .lit "multiple", .lit "results_omitted", .overflow 1 [.lit "b"], some 1⟩, by decide⟩

end AgentGateway.TaskRegistry
