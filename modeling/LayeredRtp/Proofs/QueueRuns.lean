import LayeredRtp.PacketQueue
import Mathlib.Algebra.BigOperators.Ring.Finset

/-! Runs of a packet queue. Packets leave in the order in which they came and none is lost. Those
that may be released are in front of those that may not, and their bytes are the ones counted. -/
namespace LayeredRtp

namespace QueuedPacket

def settle (tick : Option Time) (i : QueuedPacket) : QueuedPacket :=
  { i with since := i.since.or tick }

@[simp] theorem packet_settle (tick : Option Time) (i : QueuedPacket) :
    (i.settle tick).packet = i.packet := rfl

theorem settle_none (i : QueuedPacket) : i.settle none = i := by simp [settle]

theorem settle_ticked {i : QueuedPacket} (h : i.since.isSome = true) (tick : Option Time) :
    i.settle tick = i := by
  obtain ⟨now, hnow⟩ := Option.isSome_iff_exists.mp h
  obtain ⟨packet, since⟩ := i
  simp only at hnow
  simp [settle, hnow]

theorem isSome_settle (i : QueuedPacket) (now : Time) :
    (i.settle (some now)).since.isSome = true := by simp [settle]

end QueuedPacket

namespace PacketQueue

inductive Operation where
  | push (packets : List Packet)
  | tick (now : Time)
  | pop (now : Time)
  | peek
  | drain
deriving DecidableEq, Repr

def firstTick : List Operation → Option Time
  | [] => none
  | .tick now :: _ => some now
  | _ :: ops => firstTick ops

def Operation.pushes : Operation → List Packet
  | .push packets => packets
  | _ => []

def pushed (ops : List Operation) : List Packet := ops.flatMap Operation.pushes

def arrivals : List Operation → List QueuedPacket
  | [] => []
  | op :: ops => op.pushes.map (⟨·, firstTick ops⟩) ++ arrivals ops

variable (q : PacketQueue)

def perform : Operation → PacketQueue
  | .push packets => q.push packets
  | .tick now => q.tick now
  | .pop now => ((q.pop now).map (·.2)).getD q
  | .peek => q
  | .drain => q.drain.2

def takes : Operation → List Packet
  | .pop now => ((q.pop now).map (·.1)).toList
  | .drain => q.drain.1
  | _ => []

def performAll (ops : List Operation) : PacketQueue := ops.foldl perform q

def takenBy (q : PacketQueue) : List Operation → List Packet
  | [] => []
  | op :: ops => q.takes op ++ takenBy (q.perform op) ops

def tickedBytes (items : List QueuedPacket) : Nat :=
  ((items.filter (·.since.isSome)).map (·.packet.size)).sum

structure Ordered : Prop where
  split : ∃ old fresh, q.items = old ++ fresh ∧ (∀ i ∈ old, i.since.isSome = true) ∧
    ∀ i ∈ fresh, i.since = none
  bytes : q.queuedBytes = tickedBytes q.items

variable {q}

theorem tickedBytes_append (xs ys : List QueuedPacket) :
    tickedBytes (xs ++ ys) = tickedBytes xs + tickedBytes ys := by
  simp [tickedBytes]

theorem tickedBytes_of_ticked {items : List QueuedPacket}
    (h : ∀ i ∈ items, i.since.isSome = true) :
    tickedBytes items = (items.map (·.packet.size)).sum := by
  rw [tickedBytes, List.filter_eq_self.mpr h]

theorem tickedBytes_of_fresh {items : List QueuedPacket} (h : ∀ i ∈ items, i.since = none) :
    tickedBytes items = 0 := by
  have hnone : items.filter (·.since.isSome) = [] :=
    List.filter_eq_nil_iff.mpr fun i hi => by simp [h i hi]
  simp [tickedBytes, hnone]

/-- The unticked packets are found from the back. -/
theorem span_ticked {old fresh : List QueuedPacket}
    (hold : ∀ i ∈ old, i.since.isSome = true) (hfresh : ∀ i ∈ fresh, i.since = none) :
    ((old ++ fresh).reverse.span fun i => i.since.isNone) = (fresh.reverse, old.reverse) := by
  have hback : ∀ i ∈ fresh.reverse, i.since.isNone = true := fun i hi => by
    simp [hfresh i (List.mem_reverse.mp hi)]
  rw [List.span_eq_takeWhile_dropWhile, List.reverse_append,
    List.takeWhile_append_of_pos hback, List.dropWhile_append_of_pos hback]
  cases h : old.reverse with
  | nil => simp
  | cons i rest =>
    have hi := hold i (List.mem_reverse.mp (h ▸ List.mem_cons_self))
    simp [Option.isNone_eq_false_iff.mpr hi]

/-- Only the packets that came since the last tick are marked and counted. -/
theorem tick_eq {old fresh : List QueuedPacket} (hitems : q.items = old ++ fresh)
    (hold : ∀ i ∈ old, i.since.isSome = true) (hfresh : ∀ i ∈ fresh, i.since = none)
    (now : Time) : q.tick now = { q with
      items := old ++ fresh.map (·.settle (some now))
      queuedBytes := q.queuedBytes + (fresh.map (·.packet.size)).sum } := by
  have hmark : fresh.map (·.settle (some now)) = fresh.map fun i => { i with since := some now } :=
    List.map_congr_left fun i hi => by simp [QueuedPacket.settle, hfresh i hi]
  have hsum : (fresh.map (·.packet.size)).reverse.foldr (· + ·) 0 =
      (fresh.map (·.packet.size)).sum := by
    rw [← List.sum_eq_foldr, List.sum_reverse]
  unfold tick
  rw [hitems, span_ticked hold hfresh, hmark]
  simp only [List.map_reverse, List.reverse_reverse, hsum]

/-- A tick leaves alone what is marked already. -/
theorem Ordered.items_tick (h : q.Ordered) (now : Time) :
    (q.tick now).items = q.items.map (·.settle (some now)) := by
  obtain ⟨old, fresh, hitems, hold, hfresh⟩ := h.split
  have hkept : old.map (·.settle (some now)) = old :=
    (List.map_congr_left fun i hi => QueuedPacket.settle_ticked (hold i hi) _).trans (List.map_id _)
  rw [tick_eq hitems hold hfresh, hitems, List.map_append, hkept]

theorem Ordered.tick (h : q.Ordered) (now : Time) : (q.tick now).Ordered := by
  have hall : ∀ i ∈ (q.tick now).items, i.since.isSome = true := by
    rw [h.items_tick]
    intro i hi
    obtain ⟨j, -, rfl⟩ := List.mem_map.mp hi
    exact j.isSome_settle now
  refine ⟨⟨_, [], (List.append_nil _).symm, hall, by simp⟩, ?_⟩
  obtain ⟨old, fresh, hitems, hold, hfresh⟩ := h.split
  rw [tickedBytes_of_ticked hall, h.items_tick, tick_eq hitems hold hfresh, h.bytes, hitems,
    tickedBytes_append, tickedBytes_of_ticked hold, tickedBytes_of_fresh hfresh]
  simp [Function.comp_def]

theorem Ordered.push (h : q.Ordered) (packets : List Packet) : (q.push packets).Ordered := by
  obtain ⟨old, fresh, hitems, hold, hfresh⟩ := h.split
  have hnew : ∀ i ∈ packets.map ({ packet := · } : Packet → QueuedPacket), i.since = none :=
    fun i hi => by
      obtain ⟨p, -, rfl⟩ := List.mem_map.mp hi
      rfl
  refine ⟨⟨old, fresh ++ packets.map ({ packet := · }), ?_, hold, ?_⟩, ?_⟩
  · simp [PacketQueue.push, hitems]
  · intro i hi
    cases List.mem_append.mp hi with
    | inl hi => exact hfresh i hi
    | inr hi => exact hnew i hi
  · change q.queuedBytes = tickedBytes (q.items ++ _)
    rw [h.bytes, tickedBytes_append, tickedBytes_of_fresh hnew, Nat.add_zero]

/-- What a pop that succeeds takes from a queue, and what is left. -/
theorem pop_cases {p : Packet} {next : PacketQueue} {now : Time} (h : q.pop now = some (p, next)) :
    ∃ tick rest, q.items = ⟨p, some tick⟩ :: rest ∧ next =
      { items := rest, queuedBytes := q.queuedBytes - p.size, lastEmitted := some now } := by
  unfold pop at h
  split at h
  · rename_i front tick rest hitems
    cases h
    exact ⟨tick, rest, hitems, rfl⟩
  · cases h

/-- The bytes of a popped packet were counted. -/
theorem Ordered.bytes_pop (h : q.Ordered) {p : Packet} {next : PacketQueue} {now : Time}
    (hp : q.pop now = some (p, next)) :
    q.queuedBytes = p.size + tickedBytes next.items := by
  obtain ⟨tick, rest, hitems, rfl⟩ := pop_cases hp
  rw [h.bytes, hitems]
  simp [tickedBytes]

theorem Ordered.pop (h : q.Ordered) {p : Packet} {next : PacketQueue} {now : Time}
    (hp : q.pop now = some (p, next)) : next.Ordered := by
  have hbytes := h.bytes_pop hp
  obtain ⟨tick, rest, hitems, rfl⟩ := pop_cases hp
  obtain ⟨old, fresh, hsplit, hold, hfresh⟩ := h.split
  refine ⟨?_, by simp [hbytes]⟩
  cases old with
  | nil =>
    rw [hitems, List.nil_append] at hsplit
    have hfront := hfresh ⟨p, some tick⟩ (hsplit ▸ List.mem_cons_self)
    cases hfront
  | cons front old =>
    rw [hitems, List.cons_append, List.cons.injEq] at hsplit
    exact ⟨old, fresh, hsplit.2, fun i hi => hold i (List.mem_cons_of_mem _ hi), hfresh⟩

theorem Ordered.perform (h : q.Ordered) (op : Operation) : (q.perform op).Ordered := by
  cases op with
  | push packets => exact h.push packets
  | tick now => exact h.tick now
  | pop now =>
    cases hp : q.pop now with
    | none => simpa [PacketQueue.perform, hp] using h
    | some x => simpa [PacketQueue.perform, hp] using h.pop hp
  | peek => exact h
  | drain => exact ⟨⟨[], [], rfl, by simp, by simp⟩, rfl⟩

/-- What an operation takes, and then what it leaves, is what was there and what it pushes. -/
theorem Ordered.items_perform (h : q.Ordered) (op : Operation) (ops : List Operation) :
    ∃ gone : List QueuedPacket, gone.map (·.packet) = q.takes op ∧
      gone ++ (q.perform op).items.map (·.settle (firstTick ops)) =
        q.items.map (·.settle (firstTick (op :: ops))) ++ op.pushes.map (⟨·, firstTick ops⟩) := by
  cases op with
  | push packets =>
    refine ⟨[], rfl, ?_⟩
    simp [PacketQueue.perform, PacketQueue.push, firstTick, Operation.pushes, QueuedPacket.settle]
  | tick now =>
    refine ⟨[], rfl, ?_⟩
    simp [PacketQueue.perform, h.items_tick, firstTick, Operation.pushes, QueuedPacket.settle]
  | pop now =>
    cases hp : q.pop now with
    | none => exact ⟨[], by simp [takes, hp], by simp [PacketQueue.perform, hp, firstTick,
        Operation.pushes]⟩
    | some x =>
      obtain ⟨p, next⟩ := x
      obtain ⟨tick, rest, hitems, rfl⟩ := pop_cases hp
      refine ⟨[⟨p, some tick⟩], by simp [takes, hp], ?_⟩
      simp [PacketQueue.perform, hp, hitems, firstTick, Operation.pushes, QueuedPacket.settle]
  | peek => exact ⟨[], rfl, by simp [PacketQueue.perform, firstTick, Operation.pushes]⟩
  | drain =>
    refine ⟨q.items.map (·.settle (firstTick ops)), ?_, ?_⟩
    · simp [takes, PacketQueue.drain, packets]
    · simp [PacketQueue.perform, PacketQueue.drain, firstTick, Operation.pushes]

theorem Ordered.items_performAll (h : q.Ordered) (ops : List Operation) :
    (q.performAll ops).Ordered ∧ ∃ gone, gone.map (·.packet) = q.takenBy ops ∧
      gone ++ (q.performAll ops).items =
        q.items.map (·.settle (firstTick ops)) ++ arrivals ops := by
  induction ops generalizing q with
  | nil => exact ⟨h, [], rfl, by simp [performAll, firstTick, arrivals, QueuedPacket.settle_none]⟩
  | cons op ops ih =>
    obtain ⟨first, hfirst, hstep⟩ := h.items_perform op ops
    obtain ⟨hordered, gone, hgone, hitems⟩ := ih (h.perform op)
    refine ⟨hordered, first ++ gone, by rw [List.map_append, hfirst, hgone]; rfl, ?_⟩
    calc first ++ gone ++ ((q.perform op).performAll ops).items
        = first ++ ((q.perform op).items.map (·.settle (firstTick ops)) ++ arrivals ops) := by
          rw [List.append_assoc, hitems]
      _ = q.items.map (·.settle (firstTick (op :: ops))) ++ arrivals (op :: ops) := by
          rw [← List.append_assoc, hstep, List.append_assoc]
          rfl

theorem firstTick_of_noTick {ops : List Operation} (h : ∀ now, Operation.tick now ∉ ops) :
    firstTick ops = none := by
  induction ops with
  | nil => rfl
  | cons op ops ih =>
    have hrest := ih fun now hmem => h now (List.mem_cons_of_mem _ hmem)
    cases op with
    | tick now => exact absurd List.mem_cons_self (h now)
    | _ => exact hrest

theorem arrivals_of_noTick {ops : List Operation} (h : ∀ now, Operation.tick now ∉ ops) :
    ∀ i ∈ arrivals ops, i.since = none := by
  induction ops with
  | nil => simp [arrivals]
  | cons op ops ih =>
    have hrest : ∀ now, Operation.tick now ∉ ops := fun now hmem =>
      h now (List.mem_cons_of_mem _ hmem)
    intro i hi
    rw [arrivals, List.mem_append] at hi
    cases hi with
    | inl hi =>
      obtain ⟨p, -, rfl⟩ := List.mem_map.mp hi
      exact firstTick_of_noTick hrest
    | inr hi => exact ih hrest i hi

theorem firstTick_append (before after : List Operation) :
    firstTick (before ++ after) = (firstTick before).or (firstTick after) := by
  induction before with
  | nil => rfl
  | cons op before ih =>
    cases op with
    | tick now => rfl
    | _ => exact ih

theorem arrivals_append (before after : List Operation) :
    arrivals (before ++ after) =
      (arrivals before).map (·.settle (firstTick after)) ++ arrivals after := by
  induction before with
  | nil => rfl
  | cons op before ih =>
    simp [arrivals, ih, firstTick_append, QueuedPacket.settle]

theorem packets_arrivals (ops : List Operation) :
    (arrivals ops).map (·.packet) = pushed ops := by
  induction ops with
  | nil => rfl
  | cons op ops ih => simp [arrivals, pushed, ih, Function.comp_def]

theorem length_arrivals (ops : List Operation) : (arrivals ops).length = (pushed ops).length := by
  rw [← packets_arrivals, List.length_map]

theorem exists_lastTick {ops : List Operation} {now : Time} (h : .tick now ∈ ops) :
    ∃ before last after, ops = before ++ .tick last :: after ∧
      ∀ now, Operation.tick now ∉ after := by
  induction ops generalizing now with
  | nil => cases h
  | cons op ops ih =>
    by_cases hlater : ∃ later, Operation.tick later ∈ ops
    · obtain ⟨later, hlater⟩ := hlater
      obtain ⟨before, last, after, rfl, hafter⟩ := ih hlater
      exact ⟨op :: before, last, after, rfl, hafter⟩
    · have hop := (List.mem_cons.mp h).resolve_right fun hmem => hlater ⟨now, hmem⟩
      exact ⟨[], now, ops, by rw [hop]; rfl, fun later hmem => hlater ⟨later, hmem⟩⟩

/-- The packets that were ticked are those that came before the last tick. -/
theorem ticked_arrival (ops : List Operation) (n : Nat) :
    (∃ i, (arrivals ops)[n]? = some i ∧ i.since.isSome = true) ↔
      ∃ before last after, ops = before ++ .tick last :: after ∧
        (∀ now, Operation.tick now ∉ after) ∧ n < (pushed before).length := by
  constructor
  · rintro ⟨i, hi, hticked⟩
    by_cases hany : ∃ now, Operation.tick now ∈ ops
    · obtain ⟨now, hnow⟩ := hany
      obtain ⟨before, last, after, rfl, hafter⟩ := exists_lastTick hnow
      refine ⟨before, last, after, rfl, hafter, ?_⟩
      by_contra hn
      have hlate : (arrivals after)[n - (arrivals before).length]? = some i := by
        rw [arrivals_append, List.getElem?_append_right (by
          simpa [length_arrivals] using Nat.not_lt.mp hn)] at hi
        simpa [arrivals, Operation.pushes] using hi
      have hnone := arrivals_of_noTick hafter i (List.mem_of_getElem? hlate)
      simp [hnone] at hticked
    · have hnone := arrivals_of_noTick (fun now hmem => hany ⟨now, hmem⟩) i
        (List.mem_of_getElem? hi)
      simp [hnone] at hticked
  · rintro ⟨before, last, after, rfl, -, hn⟩
    rw [← length_arrivals] at hn
    refine ⟨_, ?_, QueuedPacket.isSome_settle (arrivals before)[n] last⟩
    rw [arrivals_append, List.getElem?_append_left (by simpa using hn), List.getElem?_map,
      List.getElem?_eq_getElem hn]
    rfl

theorem peek_isSome : q.peek.isSome = true ↔
    ∃ i, q.items[0]? = some i ∧ i.since.isSome = true := by
  unfold peek
  split
  · rename_i hitems
    simp [hitems]
  · rename_i hno
    simp only [Option.isSome_none, Bool.false_eq_true, false_iff, not_exists, not_and]
    intro i hi
    obtain ⟨packet, since⟩ := i
    cases hrest : q.items with
    | nil => simp [hrest] at hi
    | cons front rest =>
      simp only [hrest, List.getElem?_cons_zero, Option.some.injEq] at hi
      cases since with
      | none => simp
      | some now => exact absurd (hi ▸ hrest) (hno packet now rest)

theorem pop_peek (q : PacketQueue) (now : Time) : (q.pop now).map (·.1) = q.peek := by
  unfold pop peek
  split <;> rfl

theorem Ordered.needsTick_iff (h : q.Ordered) :
    q.needsTick = true ↔ ∃ i ∈ q.items, i.since = none := by
  obtain ⟨old, fresh, hitems, hold, hfresh⟩ := h.split
  unfold needsTick
  cases hback : fresh.reverse with
  | nil =>
    rw [List.reverse_eq_nil_iff] at hback
    subst hback
    rw [hitems, List.append_nil, Option.any_eq_true]
    constructor
    · rintro ⟨i, hi, hnone⟩
      exact ⟨i, List.mem_of_getLast? hi, Option.isNone_iff_eq_none.mp hnone⟩
    · rintro ⟨i, hi, hnone⟩
      simpa [hnone] using hold i hi
  | cons last rest =>
    have hlast : last ∈ fresh := List.mem_reverse.mp (hback ▸ List.mem_cons_self)
    have hend : q.items.getLast? = some last := by
      rw [hitems, List.getLast?_append, List.getLast?_eq_head?_reverse, hback]
      rfl
    have hnone := hfresh last hlast
    refine iff_of_true (by simp [hend, hnone]) ⟨last, ?_, hnone⟩
    exact hitems ▸ List.mem_append_right old hlast

theorem waitingTime_eq (q : PacketQueue) (now : Time) : (q.waitingTime now : Int) =
    ((q.items.filterMap (·.since)).map fun since : Time => max 0 ((now : Int) - since)).sum := by
  have hwait (since : Time) : ((now - since : Nat) : Int) = max 0 ((now : Int) - since) := by
    omega
  rw [waitingTime, ← List.sum_eq_foldr, ← List.map_filterMap, Nat.cast_list_sum, List.map_map]
  exact congrArg List.sum (List.map_congr_left fun since _ => hwait since)

/-- What is true of the queue that a run of operations leaves. -/
structure Exact (ops : List Operation) (q : PacketQueue) : Prop where
  lossless : takenBy empty ops ++ q.packets = pushed ops
  prefixed : ∃ old fresh, q.items = old ++ fresh ∧ (∀ i ∈ old, i.since.isSome = true) ∧
    ∀ i ∈ fresh, i.since = none
  counted : q.queuedBytes = ((q.items.filter (·.since.isSome)).map (·.packet.size)).sum
  covered : ∀ now p next, q.pop now = some (p, next) → p.size ≤ q.queuedBytes
  popped : ∀ now, (q.pop now).map (·.1) = q.peek
  peeked : q.peek.isSome = true ↔
    ∃ before last after, ops = before ++ .tick last :: after ∧
      (∀ now, Operation.tick now ∉ after) ∧ (takenBy empty ops).length < (pushed before).length
  waiting : q.needsTick = true ↔ ∃ i ∈ q.items, i.since = none
  kept : ∀ now, (q.tick now).items = q.items.map (·.settle (some now))
  waited : ∀ now, (q.waitingTime now : Int) =
    ((q.items.filterMap (·.since)).map fun since : Time => max 0 ((now : Int) - since)).sum

/-- The queue that a run from the empty one leaves keeps exact accounts. -/
theorem performAll_exact (ops : List Operation) : Exact ops (empty.performAll ops) := by
  have hempty : empty.Ordered := ⟨⟨[], [], rfl, by simp, by simp⟩, rfl⟩
  obtain ⟨hordered, gone, hgone, hitems⟩ := hempty.items_performAll ops
  replace hitems : gone ++ (empty.performAll ops).items = arrivals ops := hitems
  have hlength : gone.length = (takenBy empty ops).length := by
    rw [← hgone, List.length_map]
  have hfront : (empty.performAll ops).items[0]? =
      (arrivals ops)[(takenBy empty ops).length]? := by
    rw [← hitems, List.getElem?_append_right (Nat.le_of_eq hlength), hlength, Nat.sub_self]
  exact {
    lossless := by rw [← hgone, packets, ← List.map_append, hitems, packets_arrivals]
    prefixed := hordered.split
    counted := hordered.bytes
    covered := fun now p next hp => by
      rw [hordered.bytes_pop hp]
      exact Nat.le_add_right _ _
    popped := pop_peek _
    peeked := by rw [peek_isSome, hfront, ticked_arrival]
    waiting := hordered.needsTick_iff
    kept := hordered.items_tick
    waited := waitingTime_eq _ }

end PacketQueue
end LayeredRtp
