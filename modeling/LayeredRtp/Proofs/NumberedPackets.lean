import LayeredRtp.Proofs.RepairCopies
import LayeredRtp.Proofs.SenderRuns

/-! The numbers that a sender gives out. Every packet that takes a number takes the next one of its
stream, and no number is taken without a packet that has it, so the numbers on each stream follow
each other through any run in which no state is restored. -/
namespace LayeredRtp

def SequenceNumber.successive (first : UInt16) (count : Nat) : List UInt16 :=
  (List.range count).map fun i => first + UInt16.ofNat i

theorem SequenceNumber.successive_succ (first : UInt16) (count : Nat) :
    successive first (count + 1) = first :: successive (first + 1) count := by
  have hshift (i : Nat) : first + (UInt16.ofNat i + 1) = first + 1 + UInt16.ofNat i := by
    rw [UInt16.add_comm (UInt16.ofNat i), UInt16.add_assoc]
  simp [successive, List.range_succ_eq_map, Function.comp_def, hshift]

structure Counters where
  ssrc : Ssrc
  repairSsrc : Option Ssrc
  next : Stream → UInt16

namespace Counters

def advance (c : Counters) (stream : Stream) : Counters :=
  { c with next := fun x => if x = stream then c.next x + 1 else c.next x }

/-- The packets take the next numbers of their streams one after another, and those on the repair
stream are sent on it. -/
inductive Takes : Counters → List Issue → Counters → Prop
  | nil (c : Counters) : Takes c [] c
  | cons {c d : Counters} {i : Issue} {rest : List Issue}
      (number : i.packet.sequenceNumber = c.next i.stream)
      (source : i.stream = .repair → c.repairSsrc = some i.packet.ssrc)
      (takes : Takes (c.advance i.stream) rest d) : Takes c (i :: rest) d

variable {c d f : Counters} {issues later : List Issue}

theorem Takes.one {i : Issue} (number : i.packet.sequenceNumber = c.next i.stream)
    (source : i.stream = .repair → c.repairSsrc = some i.packet.ssrc) :
    c.Takes [i] (c.advance i.stream) :=
  .cons number source (.nil _)

theorem Takes.append (h : c.Takes issues d) (h' : d.Takes later f) :
    c.Takes (issues ++ later) f := by
  induction h with
  | nil => exact h'
  | cons number source _ ih => exact .cons number source (ih h')

theorem Takes.ssrc (h : c.Takes issues d) : d.ssrc = c.ssrc := by
  induction h with
  | nil => rfl
  | cons _ _ _ ih => exact ih

theorem Takes.repairSsrc (h : c.Takes issues d) : d.repairSsrc = c.repairSsrc := by
  induction h with
  | nil => rfl
  | cons _ _ _ ih => exact ih

theorem Takes.source (h : c.Takes issues d) {i : Issue} (hi : i ∈ issues)
    (hrepair : i.stream = .repair) : c.repairSsrc = some i.packet.ssrc := by
  induction h with
  | nil => cases hi
  | cons _ source _ ih =>
    rcases List.mem_cons.mp hi with rfl | hrest
    · exact source hrepair
    · exact ih hrest

/-- The packets of one stream have successive numbers, and the next one follows them. -/
theorem Takes.successive (h : c.Takes issues d) (stream : Stream) :
    let packets := (issues.filter (·.stream = stream)).map (·.packet)
    packets.map (·.sequenceNumber) =
        SequenceNumber.successive (c.next stream) packets.length ∧
      d.next stream = c.next stream + UInt16.ofNat packets.length := by
  induction h with
  | nil => simp [SequenceNumber.successive]
  | @cons c d i rest number _ _ ih =>
    obtain ⟨hnumbers, hnext⟩ := ih
    by_cases hstream : i.stream = stream
    · subst hstream
      simp only [advance, if_true] at hnumbers hnext
      refine ⟨?_, ?_⟩
      · simp [SequenceNumber.successive_succ, number, hnumbers]
      · rw [hnext]
        simp [Nat.add_comm _ 1, UInt16.ofNat_add, UInt16.add_assoc]
    · simpa [advance, hstream, Ne.symm hstream] using And.intro hnumbers hnext

end Counters

namespace Sender

def nextOn (s : Sender) : Stream → UInt16
  | .media => s.number
  | .repair => s.repairNumber

def counters (s : Sender) : Counters := ⟨s.ssrc, s.repairSsrc, s.nextOn⟩

variable {s t u : Sender}

theorem counters_advanceRepair (s : Sender) :
    s.advanceRepair.counters = s.counters.advance .repair := by
  simp only [counters, Counters.advance, Counters.mk.injEq]
  refine ⟨rfl, rfl, funext fun stream => ?_⟩
  cases stream <;> rfl

theorem counters_advanceMedia (s : Sender) :
    { s with number := s.number + 1 }.counters = s.counters.advance .media := by
  simp only [counters, Counters.advance, Counters.mk.injEq]
  refine ⟨trivial, trivial, funext fun stream => ?_⟩
  cases stream <;> rfl

structure Resends (s t : Sender) : Prop where
  mode : t.repairMode = s.repairMode
  queue : ∃ added, t.queue.packets = s.queue.packets ++ added
  takes : s.counters.Takes (s.issueResent t) t.counters

theorem Resends.of_unchanged (mode : t.repairMode = s.repairMode) (queue : t.queue = s.queue)
    (counters : t.counters = s.counters) : s.Resends t := by
  refine ⟨mode, ⟨[], by simp [queue]⟩, ?_⟩
  have hnone : s.issueResent t = [] := by
    simp [issueResent, queue, PacketQueue.packets, PacketQueue.size]
  rw [hnone, counters]
  exact .nil _

/-- The packets added at the end are those that were resent. -/
theorem issueResent_eq {added : List Packet} (h : t.queue.packets = s.queue.packets ++ added) :
    s.issueResent t =
      if s.repairMode.retransmitted then added.map (⟨.repair, ·⟩) else [] := by
  have hsize : s.queue.size = s.queue.packets.length := by
    simp [PacketQueue.size, PacketQueue.packets]
  rw [issueResent, h, hsize, List.drop_left]

theorem Resends.trans (h : s.Resends t) (h' : t.Resends u) : s.Resends u := by
  obtain ⟨added, hadded⟩ := h.queue
  obtain ⟨later, hlater⟩ := h'.queue
  have hall : u.queue.packets = s.queue.packets ++ (added ++ later) := by
    rw [hlater, hadded, List.append_assoc]
  refine ⟨h'.mode.trans h.mode, ⟨_, hall⟩, ?_⟩
  have hissues : s.issueResent u = s.issueResent t ++ t.issueResent u := by
    rw [issueResent_eq hall, issueResent_eq hadded, issueResent_eq hlater, h.mode]
    split <;> simp
  rw [hissues]
  exact h.takes.append h'.takes

theorem packets_enqueue (s : Sender) (packets : List Packet) (now : Time) :
    (s.enqueue packets now).queue.packets =
      s.queue.packets ++ packets.map (stampCapture now) := by
  simp [enqueue, PacketQueue.push, PacketQueue.packets, Function.comp_def]

/-- A repetition on the repair stream takes that stream's next number; any other takes none. -/
theorem repetition_cases {p copy : Packet} (h : s.repetition? p = some (copy, t)) :
    s.repairMode.retransmitted = true ∧ s.repairCopy? p = some copy ∧ t = s.advanceRepair ∨
      s.repairMode.retransmitted = false ∧ copy = p ∧ t = s := by
  unfold repetition? at h
  split at h
  case isTrue hmode =>
    obtain ⟨made, hmade, heq⟩ := Option.map_eq_some_iff.mp h
    cases heq
    exact .inl ⟨hmode, hmade, rfl⟩
  case isFalse hmode =>
    cases h
    exact .inr ⟨by simpa using hmode, rfl, rfl⟩

theorem chargeRepair_eq (s : Sender) (bytes : Nat) (now : Time) :
    (s.chargeRepair bytes now).2 =
      { s with limiter := (s.chargeRepair bytes now).2.limiter } := by
  unfold chargeRepair
  cases s.limiter <;> rfl

/-- A resend is charged to the rate first. After that it either stops or repeats a packet of the
archive. -/
theorem resend_cases (s : Sender) (low : UInt16) (now : Time) :
    ∃ limiter, (∃ r, s.resend low now = (r, { s with limiter })) ∨
      ∃ (e : ArchiveEntry) (copy : Packet) (t : Sender), s.archive.resendable? low now = some e ∧
        { s with limiter }.repetition? e.packet = some (copy, t) ∧
        s.resend low now =
          (.queued e.packet.size,
            { t with archive := t.archive.markPending e.number }.enqueue
              [{ copy with
                  repeats := some e.packet.sequenceNumber
                  kind := some .retransmission }] now) := by
  cases harchive : s.archive.resendable? low now with
  | none => exact ⟨s.limiter, .inl ⟨.nothing, by simp [resend, harchive]⟩⟩
  | some e =>
    have hcharge := s.chargeRepair_eq e.packet.size now
    rcases hcharged : s.chargeRepair e.packet.size now with ⟨allowed, charged⟩
    rw [hcharged] at hcharge
    refine ⟨charged.limiter, ?_⟩
    rw [← hcharge]
    cases allowed with
    | false => exact .inl ⟨.nothing, by simp [resend, harchive, hcharged]⟩
    | true =>
      cases hrepetition : charged.repetition? e.packet with
      | none => exact .inl ⟨.refused, by simp [resend, harchive, hcharged, hrepetition]⟩
      | some made =>
        exact .inr ⟨e, made.1, made.2, rfl, hrepetition,
          by simp [resend, harchive, hcharged, hrepetition]⟩

/-- Putting a repetition into the queue issues it if it took a number. -/
theorem resends_enqueue {p copy : Packet} (h : s.repetition? p = some (copy, t)) {q : Packet}
    (number : q.sequenceNumber = copy.sequenceNumber) (source : q.ssrc = copy.ssrc)
    (archive : Archive) (now : Time) : s.Resends ({ t with archive }.enqueue [q] now) := by
  rcases repetition_cases h with ⟨hmode, hcopy, rfl⟩ | ⟨hmode, rfl, rfl⟩
  · have hadded : ({ s.advanceRepair with archive }.enqueue [q] now).queue.packets =
        s.queue.packets ++ [stampCapture now q] := packets_enqueue _ _ _
    refine ⟨rfl, ⟨_, hadded⟩, ?_⟩
    have htakes : s.counters.Takes [⟨.repair, stampCapture now q⟩]
        (s.counters.advance .repair) :=
      .one (number.trans (sequenceNumber_of_repairCopy hcopy)) fun _ =>
        (repairSsrc_of_repairCopy hcopy).trans (congrArg some source.symm)
    rw [issueResent_eq hadded, if_pos hmode]
    rw [← counters_advanceRepair] at htakes
    exact htakes
  · have hadded : ({ t with archive }.enqueue [q] now).queue.packets =
        t.queue.packets ++ [stampCapture now q] := packets_enqueue _ _ _
    refine ⟨rfl, ⟨_, hadded⟩, ?_⟩
    rw [issueResent_eq hadded, hmode]
    exact .nil _

theorem resends_resend (s : Sender) (low : UInt16) (now : Time) :
    s.Resends (s.resend low now).2 := by
  obtain ⟨limiter, ⟨r, hstop⟩ | ⟨e, copy, t, -, hrepetition, hqueued⟩⟩ := s.resend_cases low now
  · rw [hstop]
    exact .of_unchanged rfl rfl rfl
  · rw [hqueued]
    have hcharged : s.Resends { s with limiter } := .of_unchanged rfl rfl rfl
    refine hcharged.trans (resends_enqueue hrepetition ?_ ?_ _ now)
    · rfl
    · rfl

theorem resendAll_cons (s : Sender) (now : Time) (low : UInt16) (rest : List UInt16) :
    s.resendAll now (low :: rest) =
      if (s.resend low now).1.code < 0 then (s.resend low now).2
      else (s.resend low now).2.resendAll now rest := rfl

theorem resends_resendAll (s : Sender) (now : Time) (lows : List UInt16) :
    s.Resends (s.resendAll now lows) := by
  induction lows generalizing s with
  | nil => exact .of_unchanged rfl rfl rfl
  | cons low rest ih =>
    have hfirst := s.resends_resend low now
    rw [resendAll_cons]
    split
    · exact hfirst
    · exact hfirst.trans (ih _)

theorem resends_onLoss (s : Sender) (lows : List UInt16) (rtt now : Time) :
    s.Resends (s.onLoss lows rtt now) := by
  have hrtt : s.Resends { s with archive := s.archive.setRtt (lossMargin + rtt) } :=
    .of_unchanged rfl rfl rfl
  exact hrtt.trans (resends_resendAll _ now lows)

theorem issuePadding_congr (h : t.counters.ssrc = s.counters.ssrc) :
    t.issuePadding = s.issuePadding := by
  funext p
  exact congrArg (fun ssrc : Ssrc => (⟨if p.ssrc = ssrc then .media else .repair, p⟩ : Issue)) h

def PadsOn (s : Sender) (ssrc : Ssrc) : Prop :=
  if s.repairMode.isOff then ssrc = s.ssrc else ssrc ≠ s.ssrc ∧ s.repairSsrc = some ssrc

theorem padsOn_of_paddingStream (apart : s.repairSsrc ≠ some s.ssrc) {mediaSent onMedia : Bool}
    {ssrc : Ssrc} {payloadType : PayloadType}
    (h : s.paddingStream? mediaSent onMedia = some (ssrc, payloadType)) : s.PadsOn ssrc := by
  unfold paddingStream? at h
  unfold PadsOn
  split at h
  case isTrue hoff =>
    rw [if_pos hoff]
    split at h
    · obtain ⟨_, -, heq⟩ := Option.map_eq_some_iff.mp h
      exact (congrArg Prod.fst heq).symm
    · cases h
  case isFalse hon =>
    rw [if_neg hon]
    split at h
    · simp only [Option.bind_eq_bind, Option.bind_eq_some_iff, Option.pure_def,
        Option.some.injEq, Prod.mk.injEq] at h
      obtain ⟨_, hrepair, _, -, rfl, -⟩ := h
      exact ⟨fun heq => apart (heq ▸ hrepair), hrepair⟩
    · cases h

theorem takes_paddingPacket {ssrc : Ssrc} {payloadType : PayloadType} {size : Nat} {now : Time}
    {p : Packet} (hpads : s.PadsOn ssrc)
    (h : s.paddingPacket? ssrc payloadType size now = some p) :
    s.counters.Takes [s.issuePadding p] (s.advance ssrc).counters := by
  obtain ⟨hssrc, hnumber⟩ := header_of_paddingPacket h
  unfold PadsOn at hpads
  split at hpads
  case isTrue hoff =>
    rw [if_pos hoff] at hnumber
    rw [advance, if_pos hpads, issuePadding, hssrc, if_pos hpads, counters_advanceMedia]
    exact .one hnumber nofun
  case isFalse hon =>
    rw [if_neg hon] at hnumber
    rw [advance, if_neg hpads.1, issuePadding, hssrc, if_neg hpads.1, counters_advanceRepair]
    exact .one hnumber fun _ => hpads.2.trans (congrArg some hssrc.symm)

theorem takes_padWith {ssrc : Ssrc} (hpads : s.PadsOn ssrc) (payloadType : PayloadType)
    (size : Nat) (now : Time) (count : Nat) :
    s.counters.Takes ((s.padWith ssrc payloadType size now count).1.map s.issuePadding)
      (s.padWith ssrc payloadType size now count).2.counters := by
  induction count generalizing s with
  | zero => exact .nil _
  | succ count ih =>
    cases hp : s.paddingPacket? ssrc payloadType size now with
    | none => simpa [padWith, hp] using Counters.Takes.nil s.counters
    | some p =>
      have hfirst := takes_paddingPacket hpads hp
      have hpads' : (s.advance ssrc).PadsOn ssrc := by
        unfold advance
        split <;> exact hpads
      have hmore := ih hpads'
      rw [issuePadding_congr hfirst.ssrc] at hmore
      simpa [padWith, hp] using hfirst.append hmore

theorem takes_padRest (apart : s.repairSsrc ≠ some s.ssrc) (left : Nat)
    (mediaSent onMedia : Bool) (now : Time) :
    s.counters.Takes ((s.padRest left mediaSent onMedia now).1.map s.issuePadding)
      (s.padRest left mediaSent onMedia now).2.counters := by
  by_cases hsize : s.paddingSize left = 0
  · simpa [padRest, hsize] using Counters.Takes.nil s.counters
  · cases hstream : s.paddingStream? mediaSent onMedia with
    | none => simpa [padRest, hsize, hstream] using Counters.Takes.nil s.counters
    | some stream =>
      have hpads := padsOn_of_paddingStream apart hstream
      simpa [padRest, hsize, hstream] using takes_padWith hpads stream.2 _ now _

theorem takes_repeatPayloads (apart : s.repairSsrc ≠ some s.ssrc) (excess left : Nat)
    (now : Time) :
    (s.repeatPayloads excess left now).2.2.sending = s.sending ∧
      s.counters.Takes ((s.repeatPayloads excess left now).1.map s.issuePadding)
        (s.repeatPayloads excess left now).2.2.counters := by
  fun_induction repeatPayloads s excess left now with
  | case1 | case2 | case3 | case4 => exact ⟨rfl, .nil _⟩
  | case5 s left hleft e he hroom copy hcopy t more left' u hmore ih =>
    rw [hmore] at ih
    obtain ⟨hsending, htakes⟩ := ih apart
    refine ⟨hsending, ?_⟩
    have hnumber := sequenceNumber_of_repairCopy hcopy
    have hssrc := repairSsrc_of_repairCopy hcopy
    -- The copy goes into the list on its own stream because the two streams are apart.
    have hrepair : copy.ssrc ≠ s.ssrc := fun heq => apart (heq ▸ hssrc)
    have hfirst : s.counters.Takes [⟨.repair, { copy with kind := some .padding }⟩]
        t.counters := by
      rw [show t.counters = s.counters.advance .repair from s.counters_advanceRepair]
      exact .one hnumber fun _ => hssrc
    have hissue : s.issuePadding { copy with kind := some .padding } =
        ⟨.repair, { copy with kind := some .padding }⟩ := by
      simp [issuePadding, hrepair]
    rw [List.map_cons, hissue]
    exact hfirst.append htakes

/-- Padding is made by the sender that has repeated the payloads, if it repeats any. -/
theorem makePadding_cases (s : Sender) (target : Nat) (mediaSent onMedia : Bool) (now : Time) :
    ∃ repeated left t,
      (t = s ∨ t = (s.repeatPayloads (overshoot target) target now).2.2) ∧
      s.makePadding target mediaSent onMedia now =
        if t.sending then
          (repeated ++ (t.padRest left mediaSent onMedia now).1,
            (t.padRest left mediaSent onMedia now).2)
        else ([], t) := by
  unfold makePadding
  cases hrepeats : s.canRepeatPayloads with
  | false => exact ⟨[], target, s, .inl rfl, rfl⟩
  | true => exact ⟨_, _, _, .inr rfl, rfl⟩

theorem takes_makePadding (apart : s.repairSsrc ≠ some s.ssrc) (target : Nat)
    (mediaSent onMedia : Bool) (now : Time) :
    s.counters.Takes ((s.makePadding target mediaSent onMedia now).1.map s.issuePadding)
      (s.makePadding target mediaSent onMedia now).2.counters := by
  cases hsending : s.sending with
  | false =>
    -- Payloads are not repeated either, so no number is lost with what is not returned.
    have hrepeats : s.canRepeatPayloads = false := by
      simp [canRepeatPayloads, canPad, hsending]
    simpa [makePadding, hrepeats, hsending] using Counters.Takes.nil s.counters
  | true =>
    cases hrepeats : s.canRepeatPayloads with
    | false =>
      simpa [makePadding, hrepeats, hsending] using
        takes_padRest apart target mediaSent onMedia now
    | true =>
      obtain ⟨hstill, hfirst⟩ := takes_repeatPayloads apart (overshoot target) target now
      rcases hrepeated : s.repeatPayloads (overshoot target) target now with ⟨repeated, left, t⟩
      rw [hrepeated] at hstill hfirst
      have hapart : t.repairSsrc ≠ some t.ssrc := by
        rw [show t.repairSsrc = s.repairSsrc from hfirst.repairSsrc,
          show t.ssrc = s.ssrc from hfirst.ssrc]
        exact apart
      have hrest := takes_padRest hapart left mediaSent onMedia now
      rw [issuePadding_congr hfirst.ssrc] at hrest
      have hsending' : t.sending = true := hstill.trans hsending
      simpa [makePadding, hrepeats, hrepeated, hsending'] using hfirst.append hrest

end Sender
end LayeredRtp
