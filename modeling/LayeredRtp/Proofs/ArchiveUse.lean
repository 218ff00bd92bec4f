import LayeredRtp.Proofs.NumberedPackets
import LayeredRtp.Proofs.SoundArchive

/-! What a sender does to its archive. Every change that it makes is one that the operations of the
archive could have made, so what holds after any run of those holds of the archive of a sender. -/
namespace LayeredRtp

namespace Archive

variable {a b c : Archive} {e : ArchiveEntry}

def Reaches (a b : Archive) : Prop := ∃ ops, b = a.performAll ops

namespace Reaches

theorem refl (a : Archive) : a.Reaches a := ⟨[], rfl⟩

theorem one (a : Archive) (op : Operation) : a.Reaches (a.perform op) := ⟨[op], rfl⟩

theorem trans (h : a.Reaches b) (h' : b.Reaches c) : a.Reaches c := by
  obtain ⟨ops, rfl⟩ := h
  obtain ⟨more, rfl⟩ := h'
  exact ⟨ops ++ more, (List.foldl_append ..).symm⟩

theorem of_eq (h : b = a) : a.Reaches b := h ▸ .refl a

theorem sound (h : a.Reaches b) (ha : a.Sound) : b.Sound := by
  obtain ⟨ops, rfl⟩ := h
  exact ha.performAll ops

/-- A copy of a packet that may be sent again is the answer to asking for any copy. -/
theorem markPending {low : UInt16} {now : Time} (h : a.resendable? low now = some e) :
    a.Reaches (a.markPending e.number) := by
  have hfetch : a.perform (.fetch low now some) = a.markPending e.number := by
    simp [perform, fetch, h]
  exact hfetch ▸ .one a _

theorem countResend (h : a.paddingCandidate? = some e) (now : Time) :
    a.Reaches (a.countResend e now) := by
  have hfetch : a.perform (.fetchPadding now some) = a.countResend e now := by
    simp [perform, fetchPadding, h]
  exact hfetch ▸ .one a _

end Reaches
end Archive

namespace Sender

variable {s t : Sender}

/-- Making a repetition takes nothing but a number. -/
theorem frame_of_repetition {p copy : Packet} (h : s.repetition? p = some (copy, t)) :
    t.archive = s.archive ∧ t.queue = s.queue := by
  obtain ⟨-, -, rfl⟩ | ⟨-, -, rfl⟩ := repetition_cases h
  · exact ⟨rfl, rfl⟩
  · exact ⟨rfl, rfl⟩

theorem reaches_resend (s : Sender) (low : UInt16) (now : Time) :
    s.archive.Reaches (s.resend low now).2.archive := by
  obtain ⟨limiter, ⟨r, hstop⟩ | ⟨e, copy, t, he, hrepetition, hqueued⟩⟩ := s.resend_cases low now
  · rw [hstop]
    exact .refl _
  · rw [hqueued]
    have ht : t.archive = s.archive := (frame_of_repetition hrepetition).1
    have hmarked : s.archive.Reaches (s.archive.markPending e.number) := .markPending he
    rw [← ht] at hmarked ⊢
    exact hmarked

theorem reaches_resendAll (s : Sender) (now : Time) (lows : List UInt16) :
    s.archive.Reaches (s.resendAll now lows).archive := by
  induction lows generalizing s with
  | nil => exact .refl _
  | cons low rest ih =>
    have hfirst := s.reaches_resend low now
    rw [resendAll_cons]
    split
    · exact hfirst
    · exact hfirst.trans (ih _)

theorem archive_padWith (s : Sender) (ssrc : Ssrc) (payloadType : PayloadType) (size : Nat)
    (now : Time) (count : Nat) :
    (s.padWith ssrc payloadType size now count).2.archive = s.archive := by
  induction count generalizing s with
  | zero => rfl
  | succ count ih =>
    have hadvance : (s.advance ssrc).archive = s.archive := by
      unfold advance
      split <;> rfl
    rw [padWith]
    cases s.paddingPacket? ssrc payloadType size now with
    | none => rfl
    | some p => exact (ih _).trans hadvance

theorem archive_padRest (s : Sender) (left : Nat) (mediaSent onMedia : Bool) (now : Time) :
    (s.padRest left mediaSent onMedia now).2.archive = s.archive := by
  by_cases hsize : s.paddingSize left = 0
  · simp [padRest, hsize]
  · cases hstream : s.paddingStream? mediaSent onMedia with
    | none => simp [padRest, hsize, hstream]
    | some stream => simpa [padRest, hsize, hstream] using s.archive_padWith _ _ _ now _

theorem reaches_repeatPayloads (s : Sender) (excess left : Nat) (now : Time) :
    s.archive.Reaches (s.repeatPayloads excess left now).2.2.archive := by
  fun_induction repeatPayloads s excess left now with
  | case1 | case2 | case3 | case4 => exact .refl _
  | case5 s left _ e he _ copy _ t more left' u hmore ih =>
    rw [hmore] at ih
    have hcounted : s.archive.Reaches t.archive := .countResend he now
    exact hcounted.trans ih

theorem reaches_makePadding (s : Sender) (target : Nat) (mediaSent onMedia : Bool) (now : Time) :
    s.archive.Reaches (s.makePadding target mediaSent onMedia now).2.archive := by
  obtain ⟨repeated, left, t, hstart, heq⟩ := s.makePadding_cases target mediaSent onMedia now
  have ht : s.archive.Reaches t.archive := by
    cases hstart with
    | inl h => exact h ▸ .refl _
    | inr h => exact h ▸ s.reaches_repeatPayloads (overshoot target) target now
  rw [heq]
  split
  · exact ht.trans (.of_eq (t.archive_padRest left mediaSent onMedia now))
  · exact ht

theorem reaches_onSent (s : Sender) (p : Packet) (now : Time) :
    s.archive.Reaches (s.onSent p now).archive := by
  unfold onSent
  split
  case h_1 | h_2 =>
    split
    · exact .one s.archive (.store p (some now))
    · exact .refl _
  case h_3 =>
    split
    · exact .one s.archive (.markSent _ now)
    · exact .refl _
  case h_4 => exact .refl _

def Operation.isShare : Operation → Bool
  | .share _ => true
  | _ => false

/-- One step of a sender, seen from its archive. -/
theorem reaches_perform (s : Sender) {op : Operation} (own : op.isShare = false) :
    s.archive.Reaches (s.perform op).archive := by
  cases op with
  | eraseExtension | setMixed | setMid | ack | ackRepair | setState | setRepairState
    | setRepairRate | setSending | enqueue | pace => exact .refl _
  | insertExtension | setSources | setRepairMode | setRepairType | setMaxPacketSize | assign =>
    refine .of_eq ?_
    simp only [perform, insertExtension, setSources, setRepairMode, setRepairType,
      setMaxPacketSize, assignNumber]
    repeat' split
    all_goals rfl
  | resend low now => exact s.reaches_resend low now
  | lost lows rtt now =>
    have hrtt : s.archive.Reaches (s.archive.setRtt (lossMargin + rtt)) :=
      .one s.archive (.setRtt (lossMargin + rtt))
    exact hrtt.trans (reaches_resendAll _ now lows)
  | pad target mediaSent onMedia now => exact s.reaches_makePadding target mediaSent onMedia now
  | sent p now => exact s.reaches_onSent p now
  | share => cases own

/-- The senders that there can be. Others may use the archive at any time, and the pacer the
queue. -/
inductive Reached : Sender → Prop
  | start (settings : SenderSettings) (enabled : Bool) (limit : Nat)
      (ops : List Archive.Operation) :
      Reached (new settings ((Archive.new enabled limit).performAll ops))
  | step {s : Sender} (reached : Reached s) {op : Operation} (own : op.isShare = false) :
      Reached (s.perform op)
  | share {s : Sender} (reached : Reached s) (ops : List Archive.Operation) :
      Reached { s with archive := s.archive.performAll ops }

theorem Reached.archive (h : s.Reached) :
    ∃ enabled limit, (Archive.new enabled limit).Reaches s.archive := by
  induction h with
  | start settings enabled limit ops => exact ⟨enabled, limit, ops, rfl⟩
  | @step s reached op own ih =>
    obtain ⟨enabled, limit, hreaches⟩ := ih
    exact ⟨enabled, limit, hreaches.trans (s.reaches_perform own)⟩
  | share reached ops ih =>
    obtain ⟨enabled, limit, hreaches⟩ := ih
    exact ⟨enabled, limit, hreaches.trans ⟨ops, rfl⟩⟩

theorem Reached.sound (h : s.Reached) : s.archive.Sound := by
  obtain ⟨enabled, limit, hreaches⟩ := h.archive
  exact hreaches.sound (.new enabled limit)

end Sender
end LayeredRtp
