import LayeredRtp.Proofs.ArchiveUse

/-! Reports of lost packets. A report names packets by number, in any order and as often as it
likes; each of them is repeated at most once, because its entry is pending from then on, and the
report ends where a copy cannot be made. -/
namespace LayeredRtp

namespace ArchiveEntry

def markIn (e : ArchiveEntry) (numbers : List Nat) : ArchiveEntry :=
  if e.number ∈ numbers then { e with pending := true } else e

variable {e : ArchiveEntry} {numbers more : List Nat}

theorem number_markIn (e : ArchiveEntry) (numbers : List Nat) :
    (e.markIn numbers).number = e.number := by
  unfold markIn
  split <;> rfl

theorem pending_markIn :
    (e.markIn numbers).pending = true ↔ e.number ∈ numbers ∨ e.pending = true := by
  unfold markIn
  split <;> simp [*]

theorem markIn_append (e : ArchiveEntry) (numbers more : List Nat) :
    (e.markIn numbers).markIn more = e.markIn (numbers ++ more) := by
  by_cases hfirst : e.number ∈ numbers
  · simp [markIn, hfirst]
  · simp [markIn, hfirst]

end ArchiveEntry

namespace Archive

variable {a : Archive} {e : ArchiveEntry}

def markAll (a : Archive) (lows : List UInt16) : Archive :=
  { a with entries := a.entries.map (·.markIn (lows.map a.numberOf)) }

theorem markAll_nil (a : Archive) : a.markAll [] = a := by
  simp [markAll, ArchiveEntry.markIn]

theorem markAll_one (a : Archive) (low : UInt16) :
    a.markAll [low] = a.markPending (a.numberOf low) := by
  simp [markAll, markPending, ArchiveEntry.modify, ArchiveEntry.markIn]

theorem markAll_append (a : Archive) (lows more : List UInt16) :
    (a.markAll lows).markAll more = a.markAll (lows ++ more) := by
  have hnumber : (a.markAll lows).numberOf = a.numberOf := rfl
  rw [markAll, hnumber, markAll, markAll, List.map_append, List.map_map]
  simp only [Function.comp_def, ArchiveEntry.markIn_append]

theorem Stored.low_of_find (h : a.Stored) {low : UInt16}
    (hfind : a.find? (a.numberOf low) = some e) : e.packet.sequenceNumber = low := by
  obtain ⟨he, hnumber⟩ := h.sorted.find?_eq_some.mp hfind
  rw [← h.low e he, hnumber, numberOf, SequenceNumber.wire_recover]

end Archive

theorem PacketQueue.push_push (q : PacketQueue) (packets more : List Packet) :
    (q.push packets).push more = q.push (packets ++ more) := by
  simp [push]

namespace Sender

variable {s t u : Sender} {numbers more : List UInt16}

/-- The packets with some numbers were put into the queue again, one copy of each, and nothing else
was done to the queue and the archive. -/
structure Repeats (s t : Sender) (numbers : List UInt16) : Prop where
  nodup : numbers.Nodup
  queue : ∃ added, t.queue = s.queue.push added ∧
    (∀ p ∈ added, p.kind = some .retransmission) ∧ added.map (·.repeats) = numbers.map some
  idle : ∀ low ∈ numbers, ∃ e ∈ s.archive.entries,
    e.number = s.archive.numberOf low ∧ e.pending = false
  archive : t.archive = s.archive.markAll numbers

namespace Repeats

theorem of_unchanged (queue : t.queue = s.queue) (archive : t.archive = s.archive) :
    s.Repeats t [] where
  nodup := .nil
  queue := ⟨[], by simp [queue, PacketQueue.push]⟩
  idle := by simp
  archive := by rw [archive, Archive.markAll_nil]

/-- What is idle after some packets were repeated is none of them, and was idle before. -/
theorem idle_before (h : s.Repeats t numbers) (h' : t.Repeats u more) {low : UInt16}
    (hlow : low ∈ more) : low ∉ numbers ∧ ∃ e ∈ s.archive.entries,
      e.number = s.archive.numberOf low ∧ e.pending = false := by
  obtain ⟨e, he, hnumber, hpending⟩ := h'.idle low hlow
  rw [h.archive] at he hnumber
  obtain ⟨x, hx, rfl⟩ := List.mem_map.mp he
  have hown : x.number = s.archive.numberOf low := (x.number_markIn _).symm.trans hnumber
  have hidle := mt ArchiveEntry.pending_markIn.mpr (Bool.eq_false_iff.mp hpending)
  rw [not_or] at hidle
  refine ⟨fun hmem => hidle.1 ?_, x, hx, hown, Bool.eq_false_iff.mpr hidle.2⟩
  rw [hown]
  exact List.mem_map_of_mem hmem

theorem trans (h : s.Repeats t numbers) (h' : t.Repeats u more) :
    s.Repeats u (numbers ++ more) where
  nodup := by
    refine List.nodup_append.mpr ⟨h.nodup, h'.nodup, fun low hlow low' hlow' heq => ?_⟩
    exact (h.idle_before h' hlow').1 (heq ▸ hlow)
  queue := by
    obtain ⟨added, hqueue, hkinds, hrepeats⟩ := h.queue
    obtain ⟨later, hqueue', hkinds', hrepeats'⟩ := h'.queue
    refine ⟨added ++ later, ?_, ?_, ?_⟩
    · rw [hqueue', hqueue, PacketQueue.push_push]
    · intro p hp
      cases List.mem_append.mp hp with
      | inl hfirst => exact hkinds p hfirst
      | inr hlater => exact hkinds' p hlater
    · rw [List.map_append, List.map_append, hrepeats, hrepeats']
  idle := by
    intro low hlow
    cases List.mem_append.mp hlow with
    | inl hfirst => exact h.idle low hfirst
    | inr hlater => exact (h.idle_before h' hlater).2
  archive := by rw [h'.archive, h.archive, Archive.markAll_append]

end Repeats

/-- One number of a report. -/
theorem repeats_resend (h : s.archive.Sound) (low : UInt16) (now : Time) :
    ∃ numbers, numbers.Sublist [low] ∧ s.Repeats (s.resend low now).2 numbers := by
  obtain ⟨limiter, ⟨r, hstop⟩ | ⟨e, copy, t, he, hrepetition, hqueued⟩⟩ := s.resend_cases low now
  · rw [hstop]
    exact ⟨[], List.nil_sublist _, .of_unchanged rfl rfl⟩
  · obtain ⟨harchive, hqueue⟩ := frame_of_repetition hrepetition
    obtain ⟨hfind, hpending⟩ := Archive.find?_of_resendable he
    obtain ⟨hmem, hnumber⟩ := h.sorted.find?_eq_some.mp hfind
    rw [hqueued]
    let repeated : Packet := stampCapture now
      { copy with repeats := some e.packet.sequenceNumber, kind := some .retransmission }
    refine ⟨[low], .refl _, ⟨by simp, ⟨[repeated], ?_, ?_, ?_⟩, ?_, ?_⟩⟩
    · exact congrArg (·.push [repeated]) hqueue
    · simp [repeated, stampCapture]
    · simp [repeated, stampCapture, h.low_of_find hfind]
    · intro low' hlow'
      rw [List.mem_singleton.mp hlow']
      exact ⟨e, hmem, hnumber, hpending⟩
    · rw [Archive.markAll_one, ← hnumber]
      exact congrArg (·.markPending e.number) harchive

theorem repeats_resendAll (h : s.archive.Sound) (now : Time) (lows : List UInt16) :
    ∃ numbers, numbers.Sublist lows ∧ s.Repeats (s.resendAll now lows) numbers := by
  induction lows generalizing s with
  | nil => exact ⟨[], .refl _, .of_unchanged rfl rfl⟩
  | cons low rest ih =>
    obtain ⟨first, hone, hfirst⟩ := repeats_resend h low now
    rw [resendAll_cons]
    split
    · exact ⟨first, hone.trans (List.singleton_sublist.mpr List.mem_cons_self), hfirst⟩
    · have hsound : (s.resend low now).2.archive.Sound := (s.reaches_resend low now).sound h
      obtain ⟨later, hsublist, hlater⟩ := ih hsound
      exact ⟨first ++ later, hone.append hsublist, hfirst.trans hlater⟩

def resendEach (s : Sender) (now : Time) (lows : List UInt16) : Sender :=
  lows.foldl (fun s low => (s.resend low now).2) s

def answers (s : Sender) (now : Time) : List UInt16 → List Resent
  | [] => []
  | low :: rest => (s.resend low now).1 :: answers (s.resend low now).2 now rest

theorem resendAll_eq (s : Sender) (now : Time) (lows : List UInt16) :
    s.resendAll now lows =
      s.resendEach now (lows.take ((s.answers now lows).findIdx (·.code < 0) + 1)) := by
  induction lows generalizing s with
  | nil => rfl
  | cons low rest ih =>
    rw [resendAll_cons, answers, List.findIdx_cons]
    by_cases hnegative : (s.resend low now).1.code < 0
    · simp [hnegative, resendEach]
    · rw [if_neg hnegative, decide_eq_false hnegative, ih]
      rfl

/-- What follows a number with a negative answer may as well be left out. -/
theorem resendAll_take {p : Resent → Bool} (hp : ∀ r, p r = true → r.code < 0) (s : Sender)
    (now : Time) (lows : List UInt16) :
    s.resendAll now (lows.take ((s.answers now lows).findIdx p + 1)) = s.resendAll now lows := by
  induction lows generalizing s with
  | nil => rfl
  | cons low rest ih =>
    rw [answers, List.findIdx_cons]
    cases hfound : p (s.resend low now).1 with
    | true =>
      have hnegative : (s.resend low now).1.code < 0 := hp _ hfound
      rw [resendAll_cons, if_pos hnegative]
      exact if_pos hnegative
    | false =>
      rw [cond_false, List.take_succ_cons, resendAll_cons, resendAll_cons, ih]

/-- A report of lost packets sets the round trip time, with a margin of five milliseconds, and then
repeats some of the packets, in the order of the report and each of them once. It goes as far as the
first number with a negative answer, so what follows a number for which a copy is refused makes no
difference. -/
theorem losses_repeated (h : s.Reached) (lows : List UInt16) (rtt now : Time) :
    let start : Sender := { s with archive := s.archive.setRtt (5000 + rtt) }
    let t := s.onLoss lows rtt now
    (∃ numbers, numbers.Sublist lows ∧ start.Repeats t numbers) ∧
      t = start.resendEach now (lows.take ((start.answers now lows).findIdx (·.code < 0) + 1)) ∧
      t = s.onLoss (lows.take ((start.answers now lows).findIdx (·.code == -1) + 1)) rtt now := by
  intro start t
  have hstart : start.archive.Sound := h.sound.setRtt (5000 + rtt)
  have hrefused (r : Resent) (hr : (r.code == -1) = true) : r.code < 0 := by
    rw [eq_of_beq hr]
    decide
  exact ⟨repeats_resendAll hstart now lows, resendAll_eq start now lows,
    (resendAll_take hrefused start now lows).symm⟩

def repairedSettings : SenderSettings :=
  { ssrc := 1
    repairSsrc := some 2
    firstNumber := 9
    firstRepairNumber := 70
    timestampOffset := 0 }

def frame (number : UInt16) (payloadType : PayloadType) : Packet :=
  { extensions := .empty, capacity := 1200, sequenceNumber := number, payloadType }

def frameSender : Sender :=
  ((new repairedSettings ((Archive.new true 10).performAll
    [.store (frame 6 96) (some 0), .store (frame 7 100) (some 0),
      .store (frame 8 96) (some 0)])).perform (.setRepairType 96 97)).perform
    (.setRepairMode { retransmitted := true })

/-- The report ends with the packet that cannot be copied, and the last number is not looked at. -/
theorem losses_repeated_refused :
    let start : Sender := { frameSender with archive := frameSender.archive.setRtt (5000 + 100) }
    let t := frameSender.onLoss [8, 9, 8, 7, 6] 100 20
    frameSender.Reached ∧ t.queue.packets.map (·.repeats) = [some 8] ∧
      (∃ numbers, numbers.Sublist [8, 9, 8, 7, 6] ∧ start.Repeats t numbers) ∧
      t = start.resendEach 20 [8, 9, 8, 7] ∧ t = frameSender.onLoss [8, 9, 8, 7] 100 20 := by
  intro start t
  have hreached : frameSender.Reached := .step (.step (.start _ _ _ _) rfl) rfl
  obtain ⟨hrepeats, hstops, hignores⟩ := losses_repeated hreached [8, 9, 8, 7, 6] 100 20
  have hfirst : (start.answers 20 [8, 9, 8, 7, 6]).findIdx (·.code < 0) = 3 := by decide
  have hrefused : (start.answers 20 [8, 9, 8, 7, 6]).findIdx (·.code == -1) = 3 := by decide
  rw [hfirst] at hstops
  rw [hrefused] at hignores
  exact ⟨hreached, by decide, hrepeats, hstops, hignores⟩

end Sender
end LayeredRtp
