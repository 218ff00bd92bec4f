import LayeredRtp.Packet.Wire
import LayeredRtp.Proofs.LossReports

/-! What a request to send a packet again comes to. The answer tells it: either one packet is
queued, its entry is pending and the repair stream is a number further, or nothing has happened
except that the rate may have been charged. -/
namespace LayeredRtp

theorem ArchiveEntry.isThrottled_eq_false {e : ArchiveEntry} {rtt now : Time} :
    e.isThrottled rtt now = false ↔
      ∀ sent, e.sendTime = some sent → 0 < e.resends → sent + rtt ≤ now := by
  unfold isThrottled
  cases e.sendTime with
  | none => simp
  | some sent =>
    by_cases hresent : 0 < e.resends
    · simp [hresent]
    · simp [hresent]

/-- While the archive is off it has no entries, so what it finds may be asked for. -/
theorem Archive.Sound.resendable?_eq_some {a : Archive} (h : a.Sound) {low : UInt16} {now : Time}
    {e : ArchiveEntry} : a.resendable? low now = some e ↔
      a.find? (a.numberOf low) = some e ∧ e.pending = false ∧ e.isThrottled a.rtt now = false := by
  unfold resendable?
  cases henabled : a.enabled with
  | true => simp [Option.filter_eq_some_iff]
  | false => simp [find?, h.idle henabled]

theorem Packet.size_pos (p : Packet) : 0 < p.size := by
  simp only [size, headerSize, fixedHeaderSize]
  omega

namespace Sender

variable {s t : Sender} {low : UInt16} {now : Time} {e : ArchiveEntry}

theorem chargeRepair_allows {bytes : Nat} : (s.chargeRepair bytes now).1 = true ↔
    ∀ l, s.limiter = some l → (l.spend bytes now).1 = true := by
  unfold chargeRepair
  cases s.limiter <;> simp

def repeated? (s : Sender) (p : Packet) : Option Packet :=
  if s.repairMode.retransmitted then s.repairCopy? p else some p

def repairNumberAfter (s : Sender) : UInt16 :=
  if s.repairMode.retransmitted then s.repairNumber + 1 else s.repairNumber

theorem repetition?_eq (s : Sender) (p : Packet) :
    s.repetition? p = (s.repeated? p).map (·, { s with repairNumber := s.repairNumberAfter }) := by
  unfold repetition? repeated? repairNumberAfter
  cases s.repairMode.retransmitted <;> rfl

inductive Outcome (s : Sender) (low : UInt16) (now : Time) : Resent × Sender → Prop
  | missed (absent : s.archive.resendable? low now = none) : Outcome s low now (.nothing, s)
  | limited {e : ArchiveEntry} {limiter : Option RateCap}
      (found : s.archive.resendable? low now = some e)
      (charged : s.chargeRepair e.packet.size now = (false, { s with limiter })) :
      Outcome s low now (.nothing, { s with limiter })
  | refused {e : ArchiveEntry} {limiter : Option RateCap}
      (found : s.archive.resendable? low now = some e)
      (charged : s.chargeRepair e.packet.size now = (true, { s with limiter }))
      (uncopied : s.repeated? e.packet = none) : Outcome s low now (.refused, { s with limiter })
  | queued {e : ArchiveEntry} {limiter : Option RateCap} {copy : Packet}
      (found : s.archive.resendable? low now = some e)
      (charged : s.chargeRepair e.packet.size now = (true, { s with limiter }))
      (copied : s.repeated? e.packet = some copy) :
      Outcome s low now (.queued e.packet.size, { s with
        limiter
        archive := s.archive.markPending e.number
        queue := s.queue.push [stampCapture now { copy with
          repeats := some e.packet.sequenceNumber
          kind := some .retransmission }]
        repairNumber := s.repairNumberAfter })

theorem outcome_resend (s : Sender) (low : UInt16) (now : Time) :
    s.Outcome low now (s.resend low now) := by
  cases hfound : s.archive.resendable? low now with
  | none =>
    have hmissed : s.resend low now = (.nothing, s) := by simp [resend, hfound]
    exact hmissed ▸ .missed hfound
  | some e =>
    have hcharge := s.chargeRepair_eq e.packet.size now
    rcases hcharged : s.chargeRepair e.packet.size now with ⟨allowed, u⟩
    rw [hcharged] at hcharge
    generalize u.limiter = limiter at hcharge
    subst hcharge
    cases allowed with
    | false =>
      have hlimited : s.resend low now = (.nothing, { s with limiter }) := by
        simp [resend, hfound, hcharged]
      exact hlimited ▸ .limited hfound hcharged
    | true =>
      -- Charging the rate makes no difference for the copy.
      have hrepetition : { s with limiter }.repetition? e.packet = (s.repeated? e.packet).map
          (·, { s with limiter, repairNumber := s.repairNumberAfter }) := repetition?_eq _ _
      cases hcopied : s.repeated? e.packet with
      | none =>
        have hrefused : s.resend low now = (.refused, { s with limiter }) := by
          simp [resend, hfound, hcharged, hrepetition, hcopied]
        exact hrefused ▸ .refused hfound hcharged hcopied
      | some copy =>
        have hqueued := Outcome.queued hfound hcharged hcopied
        simpa [resend, hfound, hcharged, hrepetition, hcopied, enqueue] using hqueued

/-- Nothing forbids to send the packet again: it is stored, no copy of it is on its way, its last
repetition is a round trip ago, and the rate has room for it. -/
structure Granted (s : Sender) (low : UInt16) (now : Time) (e : ArchiveEntry) : Prop where
  found : s.archive.find? (s.archive.numberOf low) = some e
  idle : e.pending = false
  rested : ∀ sent, e.sendTime = some sent → 0 < e.resends → sent + s.archive.rtt ≤ now
  admitted : ∀ l, s.limiter = some l → (l.spend e.packet.size now).1 = true

theorem granted_iff (h : s.archive.Sound) : s.Granted low now e ↔
    s.archive.resendable? low now = some e ∧ (s.chargeRepair e.packet.size now).1 = true := by
  rw [h.resendable?_eq_some, chargeRepair_allows, ArchiveEntry.isThrottled_eq_false]
  constructor
  · rintro ⟨hfound, hidle, hrested, hadmitted⟩
    exact ⟨⟨hfound, hidle, hrested⟩, hadmitted⟩
  · rintro ⟨⟨hfound, hidle, hrested⟩, hadmitted⟩
    exact ⟨hfound, hidle, hrested, hadmitted⟩

theorem repeated?_eq_none {p : Packet} :
    s.repeated? p = none ↔ s.repairMode.retransmitted = true ∧ s.repairCopy? p = none := by
  unfold repeated?
  cases s.repairMode.retransmitted <;> simp

/-- The answer to a packet that may be sent again depends on the copy alone. -/
theorem Granted.answer (h : s.archive.Sound) (granted : s.Granted low now e) :
    (s.resend low now).1 =
      if (s.repeated? e.packet).isSome then .queued e.packet.size else .refused := by
  obtain ⟨hfound, hallowed⟩ := (granted_iff h).mp granted
  have houtcome := s.outcome_resend low now
  generalize s.resend low now = answer at houtcome ⊢
  cases houtcome with
  | missed absent => simp [hfound] at absent
  | limited found charged =>
    cases hfound.symm.trans found
    simp [charged] at hallowed
  | refused found charged uncopied =>
    cases hfound.symm.trans found
    simp [uncopied]
  | queued found charged copied =>
    cases hfound.symm.trans found
    simp [copied]

/-- An answer other than zero is about a packet that may be sent again. -/
theorem granted_of_code (h : s.archive.Sound) (hcode : (s.resend low now).1.code ≠ 0) :
    ∃ e, s.Granted low now e := by
  have houtcome := s.outcome_resend low now
  generalize s.resend low now = answer at houtcome hcode
  cases houtcome with
  | missed | limited => exact absurd rfl hcode
  | @refused e _ found charged _ => exact ⟨e, (granted_iff h).mpr ⟨found, by rw [charged]⟩⟩
  | @queued e _ _ found charged _ => exact ⟨e, (granted_iff h).mpr ⟨found, by rw [charged]⟩⟩

/-- The entry has its flag set, one packet is at the end of the queue, and the repair stream is a
number further if the packet is on it. -/
def Requeued (s t : Sender) (low : UInt16) (size : Int) : Prop :=
  ∃ below e above copy, s.archive.entries = below ++ e :: above ∧
    e.packet.sequenceNumber = low ∧ size = e.packet.size ∧
    copy.kind = some .retransmission ∧ copy.repeats = some low ∧ copy.captureTime.isSome = true ∧
    (s.repairMode.retransmitted = false → copy.toOctets = e.packet.toOctets) ∧
    t = { s with
      limiter := t.limiter
      archive := { s.archive with entries := below ++ { e with pending := true } :: above }
      queue := { s.queue with items := s.queue.items ++ [{ packet := copy }] }
      repairNumber := if s.repairMode.retransmitted then s.repairNumber + 1 else s.repairNumber }

def CodeFits (s : Sender) (low : UInt16) : Prop :=
  ∀ e, s.archive.find? (s.archive.numberOf low) = some e → e.packet.size < 0x80000000

theorem CodeFits.code (fits : s.CodeFits low)
    (found : s.archive.find? (s.archive.numberOf low) = some e) :
    (Resent.queued e.packet.size).code = e.packet.size :=
  Resent.code_queued (fits e found)

theorem requeued_of_pos (h : s.archive.Sound) (fits : s.CodeFits low)
    (hpos : 0 < (s.resend low now).1.code) :
    s.Requeued (s.resend low now).2 low (s.resend low now).1.code := by
  have houtcome := s.outcome_resend low now
  generalize s.resend low now = answer at houtcome hpos ⊢
  cases houtcome with
  | missed | limited | refused => simp [Resent.code] at hpos
  | @queued e limiter made found charged copied =>
    obtain ⟨hfind, -, -⟩ := h.resendable?_eq_some.mp found
    have hlow := h.low_of_find hfind
    obtain ⟨below, above, haround⟩ := h.sorted.around (h.sorted.find?_eq_some.mp hfind).1
    have hentries := haround.modify ({ · with pending := true })
    refine ⟨below, e, above, stampCapture now { made with
        repeats := some e.packet.sequenceNumber
        kind := some .retransmission }, haround.entries, hlow, fits.code hfind, rfl,
      congrArg some hlow, rfl, fun hverbatim => ?_, ?_⟩
    · -- Kind, capture time and the number repeated are not written.
      rw [repeated?, hverbatim] at copied
      cases copied
      rfl
    · rw [← hentries]
      rfl

theorem unchanged_of_not_pos (h : s.archive.Sound) (fits : s.CodeFits low)
    (hcode : (s.resend low now).1.code ≤ 0) :
    (s.resend low now).2 = { s with limiter := (s.resend low now).2.limiter } := by
  have houtcome := s.outcome_resend low now
  generalize s.resend low now = answer at houtcome hcode ⊢
  cases houtcome with
  | missed | limited | refused => rfl
  | @queued e _ _ found _ _ =>
    have hfind := (h.resendable?_eq_some.mp found).1
    have hsize := e.packet.size_pos
    simp only [fits.code hfind] at hcode
    omega

theorem refused_granted (h : s.archive.Sound) (fits : s.CodeFits low) :
    (s.resend low now).1.code = -1 ↔ ∃ e, s.Granted low now e ∧ s.repeated? e.packet = none := by
  constructor
  · intro hrefused
    have hcode : (s.resend low now).1.code ≠ 0 := by omega
    obtain ⟨e, hgranted⟩ := granted_of_code h hcode
    refine ⟨e, hgranted, Option.not_isSome_iff_eq_none.mp fun hsome => ?_⟩
    rw [hgranted.answer h, if_pos hsome, fits.code hgranted.found] at hrefused
    omega
  · rintro ⟨e, hgranted, hnone⟩
    simp [hgranted.answer h, hnone, Resent.code]

theorem queued_granted (h : s.archive.Sound) (fits : s.CodeFits low) :
    0 < (s.resend low now).1.code ↔ ∃ e, s.Granted low now e ∧ s.repeated? e.packet ≠ none := by
  constructor
  · intro hpos
    have hcode : (s.resend low now).1.code ≠ 0 := by omega
    obtain ⟨e, hgranted⟩ := granted_of_code h hcode
    refine ⟨e, hgranted, fun hnone => ?_⟩
    simp [hgranted.answer h, hnone, Resent.code] at hpos
  · rintro ⟨e, hgranted, hsome⟩
    have hsize := e.packet.size_pos
    rw [hgranted.answer h, if_pos (Option.isSome_iff_ne_none.mpr hsome), fits.code hgranted.found]
    omega

/-- A request to send a packet again is carried out as a whole or not at all. A positive answer is
the size of the stored packet, of which one copy was queued; after zero and minus one nothing has
changed but what the rate has counted. Minus one means that the packet may be sent again but cannot
be wrapped for the repair stream, and whenever it may be sent again and a copy can be had, the
answer is positive. The answer has 32 bits, so this is about packets below 2^31 octets: a larger one
is answered with a size that has wrapped. -/
theorem resend_all_or_nothing (h : s.Reached) (low : UInt16) (now : Time) (fits : s.CodeFits low) :
    let n := (s.resend low now).1.code
    let t := (s.resend low now).2
    (0 < n → s.Requeued t low n) ∧
      (n = 0 ∨ n = -1 → t = { s with limiter := t.limiter }) ∧
      (n = -1 ↔ ∃ e, s.Granted low now e ∧ s.repairMode.retransmitted = true ∧
        s.repairCopy? e.packet = none) ∧
      (0 < n ↔ ∃ e, s.Granted low now e ∧
        ¬(s.repairMode.retransmitted = true ∧ s.repairCopy? e.packet = none)) := by
  intro n t
  have hunchanged : n = 0 ∨ n = -1 → t = { s with limiter := t.limiter } := by
    intro hcode
    have hnone : n ≤ 0 := by omega
    exact unchanged_of_not_pos h.sound fits hnone
  refine ⟨requeued_of_pos h.sound fits, hunchanged, ?_, ?_⟩
  · simpa only [repeated?_eq_none] using refused_granted h.sound fits
  · simpa only [repeated?_eq_none, ne_eq] using queued_granted h.sound fits

/-- Of the three packets stored, the second one is of a type that there is no repair type for. -/
theorem resend_all_or_nothing_mixed :
    frameSender.Reached ∧
      ((frameSender.resend 8 20).1.code = 12 ∧
        frameSender.Requeued (frameSender.resend 8 20).2 8 12) ∧
      (frameSender.resend 7 20).1.code = -1 ∧
      (frameSender.resend 7 20).2 = { frameSender with
        limiter := (frameSender.resend 7 20).2.limiter } ∧
      ∃ e, frameSender.Granted 7 20 e ∧ frameSender.repairCopy? e.packet = none := by
  have hreached : frameSender.Reached := .step (.step (.start _ _ _ _) rfl) rfl
  have hsizes : ∀ e ∈ frameSender.archive.entries, e.packet.size < 0x80000000 := by decide
  have hfits (low : UInt16) : frameSender.CodeFits low :=
    fun e hfind => hsizes e (List.mem_of_find?_eq_some hfind)
  obtain ⟨hqueued, -, -, -⟩ := resend_all_or_nothing hreached 8 20 (hfits 8)
  obtain ⟨-, hunchanged, hrefused, -⟩ := resend_all_or_nothing hreached 7 20 (hfits 7)
  have hsize : (frameSender.resend 8 20).1.code = 12 := by decide
  have hcode : (frameSender.resend 7 20).1.code = -1 := by decide
  obtain ⟨e, hgranted, -, huncopied⟩ := hrefused.mp hcode
  rw [hsize] at hqueued
  exact ⟨hreached, ⟨hsize, hqueued (by decide)⟩, hcode, hunchanged (.inr hcode), e, hgranted,
    huncopied⟩

end Sender
end LayeredRtp
