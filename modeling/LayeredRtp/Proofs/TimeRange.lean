import LayeredRtp.Proofs.ResendOutcomes
import LayeredRtp.Proofs.TrimmedArchive

/-! Times and sizes have no end here, while an instant has 63 bits for its seconds, a duration 64,
and the answer to a request to send a packet again is a signed number of 32 bits. Whatever is done
to a sender, as long as it is given times below half of what an instant can hold and packets below
2^31 octets, no sum of times that it makes is out of range and every answer is the size it stands
for. -/
namespace LayeredRtp

namespace Time

def instantEnd : Time := 0x8000000000000000 * 1000000

def durationEnd : Time := 0x10000000000000000 * 1000000

def horizon : Time := 0x4000000000000000 * 1000000

end Time

structure ArchiveEntry.Bounded (e : ArchiveEntry) : Prop where
  sent : ∀ sent ∈ e.sendTime, sent < Time.horizon
  size : e.packet.size < 0x80000000

theorem ArchiveEntry.Bounded.resent {e : ArchiveEntry} (h : e.Bounded) {now : Time}
    (hnow : now < Time.horizon) : (e.resent now).Bounded where
  sent := by
    intro sent hsent
    rw [← Option.some.inj hsent]
    exact hnow
  size := h.size

namespace Archive

variable {a : Archive} {e : ArchiveEntry} {number : Nat}

/-- The time that packets are kept for is a duration, and the time at which one may be sent again
is an instant. -/
structure InRange (a : Archive) : Prop where
  kept : a.rtt * minRoundTrips < Time.durationEnd
  due : ∀ e ∈ a.entries, ∀ sent ∈ e.sendTime, sent + a.rtt < Time.instantEnd

structure Bounded (a : Archive) : Prop where
  rtt : a.rtt < Time.horizon
  entries : ∀ e ∈ a.entries, e.Bounded

theorem Bounded.inRange (h : a.Bounded) : a.InRange where
  kept := calc
    a.rtt * minRoundTrips < Time.horizon * minRoundTrips :=
      Nat.mul_lt_mul_of_pos_right h.rtt (by decide)
    _ ≤ Time.durationEnd := by decide
  due := by
    intro e he sent hsent
    calc
      sent + a.rtt < Time.horizon + Time.horizon :=
        Nat.add_lt_add ((h.entries e he).sent sent hsent) h.rtt
      _ = Time.instantEnd := by decide

def Operation.Bounded : Operation → Prop
  | .store packet sendTime => packet.size < 0x80000000 ∧ ∀ sent ∈ sendTime, sent < Time.horizon
  | .markSent _ now | .fetchPadding now _ => now < Time.horizon
  | .setRtt rtt => rtt < Time.horizon
  | _ => True

namespace Bounded

theorem of_empty (rtt : a.rtt < Time.horizon) (entries : a.entries = []) : a.Bounded :=
  ⟨rtt, by simp [entries]⟩

theorem new (enabled : Bool) (limit : Nat) : (Archive.new enabled limit).Bounded :=
  of_empty (by simp [Archive.new, Time.horizon]) rfl

theorem modify (h : a.Bounded) {f : ArchiveEntry → ArchiveEntry}
    (hf : ∀ e, e.Bounded → (f e).Bounded) (number : Nat) :
    ∀ e ∈ ArchiveEntry.modify number f a.entries, e.Bounded := by
  intro e he
  obtain ⟨x, hx, rfl⟩ := List.mem_map.mp he
  split
  · exact hf x (h.entries x hx)
  · exact h.entries x hx

theorem noteSend (h : a.Bounded) (t : Time) : (a.noteSend t).Bounded := by
  obtain ⟨latest, heq⟩ := a.noteSend_eq t
  rw [heq]
  exact ⟨h.rtt, h.entries⟩

theorem trim (h : a.Bounded) : a.trim.Bounded :=
  ⟨h.rtt, fun e he => h.entries e (List.mem_of_mem_drop he)⟩

theorem setRtt (h : a.Bounded) {rtt : Time} (hrtt : rtt < Time.horizon) : (a.setRtt rtt).Bounded :=
  trim ⟨hrtt, h.entries⟩

theorem markPending (h : a.Bounded) (number : Nat) : (a.markPending number).Bounded :=
  ⟨h.rtt, h.modify (f := ({ · with pending := true })) (fun _ he => ⟨he.sent, he.size⟩) number⟩

theorem countResend (h : a.Bounded) (e : ArchiveEntry) {now : Time} (hnow : now < Time.horizon) :
    (a.countResend e now).Bounded :=
  ⟨h.rtt, h.modify (fun _ he => he.resent hnow) e.number⟩

theorem markSent (h : a.Bounded) (low : UInt16) {now : Time} (hnow : now < Time.horizon) :
    (a.markSent low now).Bounded := by
  obtain ⟨heq, -⟩ | ⟨e, -, -, heq⟩ := a.markSent_cases low now
  · rw [heq]
    exact h
  · rw [heq]
    have hcounted := h.countResend e hnow
    have hcleared : ((a.countResend e now).clearPending e.number).Bounded :=
      ⟨hcounted.rtt, hcounted.modify (f := ({ · with pending := false }))
        (fun _ he => ⟨he.sent, he.size⟩) e.number⟩
    exact hcleared.noteSend now

theorem store (h : a.Bounded) {packet : Packet} (hsize : packet.size < 0x80000000)
    {sendTime : Option Time} (hsent : ∀ sent ∈ sendTime, sent < Time.horizon) :
    (a.store packet sendTime).Bounded := by
  cases henabled : a.enabled with
  | false => simpa [Archive.store, henabled] using h
  | true =>
    obtain ⟨ranking, herase⟩ := a.erase_eq (a.numberOf packet.sequenceNumber)
    rw [store_eq henabled, noteSent_eq, herase]
    refine trim ⟨h.rtt, fun e he => ?_⟩
    cases ArchiveEntry.mem_insert.mp he with
    | inl hnew => exact hnew ▸ ⟨hsent, hsize⟩
    | inr hold => exact h.entries e (List.mem_filter.mp hold).1

theorem perform (h : a.Bounded) {op : Operation} (hop : op.Bounded) : (a.perform op).Bounded := by
  cases op with
  | store packet sendTime => exact h.store hop.1 hop.2
  | clear => exact of_empty h.rtt rfl
  | setStorage enabled limit =>
    cases enabled with
    | false => exact of_empty h.rtt rfl
    | true => exact ⟨h.rtt, h.entries⟩
  | setRtt rtt => exact h.setRtt hop
  | markSent low now => exact h.markSent low hop
  | fetch low now wrap =>
    obtain ⟨-, heq⟩ | ⟨e, _, -, -, heq⟩ := a.perform_fetch low now wrap
    · rw [heq]
      exact h
    · rw [heq]
      exact h.markPending e.number
  | fetchPadding now wrap =>
    obtain ⟨-, heq⟩ | ⟨e, _, -, -, heq⟩ := a.perform_fetchPadding now wrap
    · rw [heq]
      exact h
    · rw [heq]
      exact h.countResend e hop

theorem performAll (h : a.Bounded) {ops : List Operation} (hops : ∀ op ∈ ops, op.Bounded) :
    (a.performAll ops).Bounded := by
  induction ops generalizing a with
  | nil => exact h
  | cons op rest ih =>
    obtain ⟨hop, hrest⟩ := List.forall_mem_cons.mp hops
    exact ih (h.perform hop) hrest

end Bounded
end Archive

/-- The sum of the waiting times is a duration as long as this product is one. -/
theorem PacketQueue.waitingTime_le (q : PacketQueue) (now : Time) :
    q.waitingTime now ≤ q.size * now := by
  unfold waitingTime size
  induction q.items with
  | nil => exact Nat.zero_le _
  | cons i rest ih =>
    rw [List.length_cons, Nat.succ_mul]
    cases hsince : i.since with
    | none => simpa [hsince] using Nat.le_trans ih (Nat.le_add_right _ _)
    | some t =>
      have hwaited : now - t ≤ now := Nat.sub_le now t
      simpa [hsince, Nat.add_comm] using Nat.add_le_add hwaited ih

namespace Sender

variable {s : Sender} {now : Time}

def Operation.Bounded : Operation → Prop
  | .lost _ rtt _ => lossMargin + rtt < Time.horizon
  | .pad _ _ _ now => now < Time.horizon
  | .sent p now => p.size < 0x80000000 ∧ now < Time.horizon
  | .share archive => archive.Bounded
  | _ => True

theorem bounded_resend (h : s.archive.Bounded) (low : UInt16) (now : Time) :
    (s.resend low now).2.archive.Bounded := by
  have houtcome := s.outcome_resend low now
  generalize s.resend low now = answer at houtcome ⊢
  cases houtcome with
  | missed | limited | refused => exact h
  | @queued e _ _ _ _ _ => exact h.markPending e.number

theorem bounded_resendAll (h : s.archive.Bounded) (now : Time) (lows : List UInt16) :
    (s.resendAll now lows).archive.Bounded := by
  induction lows generalizing s with
  | nil => exact h
  | cons low rest ih =>
    rw [resendAll_cons]
    split
    · exact bounded_resend h low now
    · exact ih (bounded_resend h low now)

theorem bounded_repeatPayloads (h : s.archive.Bounded) (excess left : Nat)
    (hnow : now < Time.horizon) : (s.repeatPayloads excess left now).2.2.archive.Bounded := by
  fun_induction repeatPayloads s excess left now with
  | case1 | case2 | case3 | case4 => exact h
  | case5 s left _ e he _ copy _ t more left' u hmore ih =>
    rw [hmore] at ih
    exact ih (h.countResend e hnow)

theorem bounded_makePadding (h : s.archive.Bounded) (target : Nat) (mediaSent onMedia : Bool)
    (hnow : now < Time.horizon) :
    (s.makePadding target mediaSent onMedia now).2.archive.Bounded := by
  obtain ⟨repeated, left, t, hstart, heq⟩ := s.makePadding_cases target mediaSent onMedia now
  have ht : t.archive.Bounded := by
    cases hstart with
    | inl hsame => exact hsame ▸ h
    | inr hrepeated => exact hrepeated ▸ bounded_repeatPayloads h (overshoot target) target hnow
  rw [heq]
  split
  · rw [archive_padRest]
    exact ht
  · exact ht

theorem bounded_onSent (h : s.archive.Bounded) {p : Packet} (hsize : p.size < 0x80000000)
    (hnow : now < Time.horizon) : (s.onSent p now).archive.Bounded := by
  have hsent : ∀ sent ∈ some now, sent < Time.horizon :=
    fun sent hmem => Option.some.inj hmem ▸ hnow
  unfold onSent
  split
  case h_1 | h_2 =>
    split
    · exact h.store hsize hsent
    · exact h
  case h_3 =>
    split
    · exact h.markSent _ hnow
    · exact h
  case h_4 => exact h

/-- One step of a sender. -/
theorem bounded_perform (h : s.archive.Bounded) {op : Operation} (hop : op.Bounded) :
    (s.perform op).archive.Bounded := by
  cases op with
  | eraseExtension | setMixed | setMid | ack | ackRepair | setState | setRepairState
    | setRepairRate | setSending | enqueue | pace => exact h
  | insertExtension | setSources | setRepairMode | setRepairType | setMaxPacketSize | assign =>
    simp only [perform, insertExtension, setSources, setRepairMode, setRepairType,
      setMaxPacketSize, assignNumber]
    repeat' split
    all_goals exact h
  | resend low now => exact bounded_resend h low now
  | lost lows rtt now => exact bounded_resendAll (h.setRtt hop) now lows
  | pad target mediaSent onMedia now => exact bounded_makePadding h target mediaSent onMedia hop
  | sent p now => exact bounded_onSent h hop.1 hop.2
  | share archive => exact hop

theorem bounded_performAll (h : s.archive.Bounded) {ops : List Operation}
    (hops : ∀ op ∈ ops, op.Bounded) : (s.performAll ops).archive.Bounded := by
  induction ops generalizing s with
  | nil => exact h
  | cons op rest ih =>
    obtain ⟨hop, hrest⟩ := List.forall_mem_cons.mp hops
    exact ih (bounded_perform h hop) hrest

/-- In a run with times and packets that stay below the bounds, whatever the archive adds up or
multiplies has a value, and the answer to a request to send a packet again is its size. -/
theorem performAll_inRange (settings : SenderSettings) (enabled : Bool) (limit : Nat)
    {uses : List Archive.Operation} (huses : ∀ op ∈ uses, op.Bounded) {ops : List Operation}
    (hops : ∀ op ∈ ops, op.Bounded) :
    let s := (new settings ((Archive.new enabled limit).performAll uses)).performAll ops
    s.archive.InRange ∧ ∀ low, s.CodeFits low := by
  intro s
  have hs : s.archive.Bounded :=
    bounded_performAll (s := new settings _) ((Archive.Bounded.new enabled limit).performAll huses)
      hops
  exact ⟨hs.inRange, fun low e hfind => (hs.entries e (List.mem_of_find?_eq_some hfind)).size⟩

end Sender
end LayeredRtp
