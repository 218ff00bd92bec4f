import LayeredRtp.Proofs.NumberedPackets

/-! The sizes that a sender keeps in advance. Whatever is done to it, the largest headers that it
remembers are those that its extensions, names, sources and acknowledgements ask for at present. -/
namespace LayeredRtp.Sender

variable {s t u : Sender}

def SameButNumbers (s t : Sender) : Prop :=
  t = { s with archive := t.archive, number := t.number, repairNumber := t.repairNumber }

namespace SameButNumbers

theorem refl (s : Sender) : s.SameButNumbers s := rfl

theorem trans (h : s.SameButNumbers t) (h' : t.SameButNumbers u) :
    s.SameButNumbers u := by
  unfold SameButNumbers at *
  rw [h', h]

theorem advance (s : Sender) (ssrc : Ssrc) : s.SameButNumbers (s.advance ssrc) := by
  unfold Sender.advance
  split <;> rfl

theorem repeatPayloads (s : Sender) (excess left : Nat) (now : Time) :
    s.SameButNumbers (s.repeatPayloads excess left now).2.2 := by
  fun_induction Sender.repeatPayloads s excess left now with
  | case1 | case2 | case3 | case4 => exact .refl _
  | case5 s left _ e _ _ copy _ t more rest u hmore ih =>
    rw [hmore] at ih
    have hfirst : s.SameButNumbers t := rfl
    exact hfirst.trans ih

theorem padWith (s : Sender) (ssrc : Ssrc) (payloadType : PayloadType) (size : Nat) (now : Time)
    (count : Nat) : s.SameButNumbers (s.padWith ssrc payloadType size now count).2 := by
  induction count generalizing s with
  | zero => exact .refl s
  | succ count ih =>
    rw [Sender.padWith]
    cases s.paddingPacket? ssrc payloadType size now with
    | none => exact .refl s
    | some p => exact (advance s ssrc).trans (ih _)

theorem padRest (s : Sender) (left : Nat) (mediaSent onMedia : Bool) (now : Time) :
    s.SameButNumbers (s.padRest left mediaSent onMedia now).2 := by
  by_cases hsize : s.paddingSize left = 0
  · simpa [Sender.padRest, hsize] using refl s
  · cases hstream : s.paddingStream? mediaSent onMedia with
    | none => simpa [Sender.padRest, hsize, hstream] using refl s
    | some stream => simpa [Sender.padRest, hsize, hstream] using padWith s _ _ _ now _

theorem makePadding (s : Sender) (target : Nat) (mediaSent onMedia : Bool) (now : Time) :
    s.SameButNumbers (s.makePadding target mediaSent onMedia now).2 := by
  obtain ⟨repeated, left, t, hstart, heq⟩ := s.makePadding_cases target mediaSent onMedia now
  have ht : s.SameButNumbers t := by
    cases hstart with
    | inl h => exact h ▸ refl s
    | inr h => exact h ▸ repeatPayloads s (overshoot target) target now
  rw [heq]
  split
  · exact ht.trans (padRest t left mediaSent onMedia now)
  · exact ht

end SameButNumbers

def SameBudget (s t : Sender) : Prop :=
  t = { s with
    archive := t.archive
    queue := t.queue
    limiter := t.limiter
    sending := t.sending
    number := t.number
    repairNumber := t.repairNumber
    repairMode := t.repairMode
    repairTypes := t.repairTypes
    lastPayloadType := t.lastPayloadType
    lastTimestamp := t.lastTimestamp
    lastMarker := t.lastMarker }

theorem SameBudget.refl (s : Sender) : s.SameBudget s := rfl

theorem SameBudget.trans (h : s.SameBudget t) (h' : t.SameBudget u) : s.SameBudget u := by
  unfold SameBudget at *
  rw [h', h]

theorem sameBudget_resend (s : Sender) (low : UInt16) (now : Time) :
    s.SameBudget (s.resend low now).2 := by
  obtain ⟨limiter, ⟨r, hstop⟩ | ⟨e, copy, t, -, hrepetition, hqueued⟩⟩ := s.resend_cases low now
  · rw [hstop]
    rfl
  · rw [hqueued]
    have hrepeated : s.SameBudget t := by
      cases repetition_cases hrepetition with
      | inl h => exact h.2.2 ▸ rfl
      | inr h => exact h.2.2 ▸ rfl
    exact hrepeated.trans rfl

theorem sameBudget_resendAll (s : Sender) (now : Time) (lows : List UInt16) :
    s.SameBudget (s.resendAll now lows) := by
  induction lows generalizing s with
  | nil => exact .refl s
  | cons low rest ih =>
    have hfirst := s.sameBudget_resend low now
    rw [resendAll_cons]
    split
    · exact hfirst
    · exact hfirst.trans (ih _)

theorem sameBudget_onLoss (s : Sender) (lows : List UInt16) (rtt now : Time) :
    s.SameBudget (s.onLoss lows rtt now) := by
  have hrtt : s.SameBudget { s with archive := s.archive.setRtt (lossMargin + rtt) } := rfl
  exact hrtt.trans (sameBudget_resendAll _ now lows)

theorem SameButNumbers.sameBudget (h : s.SameButNumbers t) : s.SameBudget t := by
  rw [h]
  rfl

theorem sameBudget_advance (s : Sender) (ssrc : Ssrc) : s.SameBudget (s.advance ssrc) :=
  (SameButNumbers.advance s ssrc).sameBudget

/-- An operation leaves alone all that headers depend on, or it takes another size for packets, or
it works out the headers afresh at the end. -/
theorem perform_cases (s : Sender) (op : Operation) :
    s.SameBudget (s.perform op) ∨
      (∃ size, SenderSettings.allowsPacketSize size = true ∧
        s.perform op = { s with maxPacketSize := size }) ∨
      ∃ t : Sender, s.perform op = t.refreshHeaders ∧ t.maxPacketSize = s.maxPacketSize ∧
        (s.measuresBandwidth = s.hasBandwidthExtension →
          t.measuresBandwidth = t.hasBandwidthExtension) := by
  cases op with
  | insertExtension uri id =>
    simp only [perform, insertExtension]
    split <;> exact .inr (.inr ⟨_, rfl, rfl, fun _ => rfl⟩)
  | eraseExtension => exact .inr (.inr ⟨_, rfl, rfl, fun _ => rfl⟩)
  | setMixed | setMid | ack | ackRepair | setState | setRepairState =>
    exact .inr (.inr ⟨_, rfl, rfl, id⟩)
  | setSources sources =>
    simp only [perform, setSources]
    split
    · exact .inr (.inr ⟨_, rfl, rfl, id⟩)
    · exact .inl (.refl s)
  | setMaxPacketSize size =>
    simp only [perform, setMaxPacketSize]
    split
    · rename_i hallowed
      exact .inr (.inl ⟨size, hallowed, rfl⟩)
    · exact .inl (.refl s)
  | setRepairRate | setSending | enqueue | pace | share => exact .inl rfl
  | setRepairMode | setRepairType | sent =>
    refine .inl ?_
    simp only [perform, setRepairMode, setRepairType, onSent]
    repeat' split
    all_goals rfl
  | assign p =>
    refine .inl ?_
    cases hsending : s.sending <;> simp only [perform, assignNumber, hsending] <;> rfl
  | resend low now => exact .inl (s.sameBudget_resend low now)
  | lost lows rtt now => exact .inl (s.sameBudget_onLoss lows rtt now)
  | pad target mediaSent onMedia now =>
    exact .inl (SameButNumbers.makePadding s target mediaSent onMedia now).sameBudget

structure Current (s : Sender) : Prop where
  media : s.mediaHeader = s.worstMediaHeader
  padding : s.paddingHeader = s.worstPaddingHeader
  bandwidth : s.measuresBandwidth = s.hasBandwidthExtension

namespace Current

theorem new (settings : SenderSettings) (archive : Archive) :
    (Sender.new settings archive).Current :=
  ⟨rfl, rfl, rfl⟩

theorem of_sameBudget (hs : s.Current) (h : s.SameBudget t) : t.Current where
  media := (congrArg Sender.mediaHeader h).trans
    (hs.media.trans (congrArg Sender.worstMediaHeader h).symm :)
  padding := (congrArg Sender.paddingHeader h).trans
    (hs.padding.trans (congrArg Sender.worstPaddingHeader h).symm :)
  bandwidth := (congrArg Sender.measuresBandwidth h).trans
    (hs.bandwidth.trans (congrArg Sender.hasBandwidthExtension h).symm :)

/-- One operation, refused or not, leaves nothing stale. -/
theorem perform (hs : s.Current) (op : Operation) : (s.perform op).Current := by
  rcases s.perform_cases op with hsame | ⟨size, -, heq⟩ | ⟨t, heq, -, hbandwidth⟩
  · exact hs.of_sameBudget hsame
  · exact heq ▸ ⟨hs.media, hs.padding, hs.bandwidth⟩
  · exact heq ▸ ⟨rfl, rfl, hbandwidth hs.bandwidth⟩

theorem performAll (hs : s.Current) (ops : List Operation) : (s.performAll ops).Current := by
  induction ops generalizing s with
  | nil => exact hs
  | cons op rest ih => exact ih (hs.perform op)

end Current

/-- Only sizes in the range allowed are taken. -/
theorem allowsPacketSize_perform (hs : SenderSettings.allowsPacketSize s.maxPacketSize = true)
    (op : Operation) : SenderSettings.allowsPacketSize (s.perform op).maxPacketSize = true := by
  rcases s.perform_cases op with hsame | ⟨size, hsize, heq⟩ | ⟨t, heq, hsize, -⟩
  · have hkept : (s.perform op).maxPacketSize = s.maxPacketSize :=
      (congrArg Sender.maxPacketSize hsame :)
    rw [hkept]
    exact hs
  · rw [heq]
    exact hsize
  · rw [heq]
    exact hsize ▸ hs

theorem allowsPacketSize_performAll
    (hs : SenderSettings.allowsPacketSize s.maxPacketSize = true) (ops : List Operation) :
    SenderSettings.allowsPacketSize (s.performAll ops).maxPacketSize = true := by
  induction ops generalizing s with
  | nil => exact hs
  | cons op rest ih => exact ih (allowsPacketSize_perform hs op)

end LayeredRtp.Sender
