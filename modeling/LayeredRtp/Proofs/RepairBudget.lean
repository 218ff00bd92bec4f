import LayeredRtp.Proofs.PaddingBudget
import LayeredRtp.Proofs.RateWindow
import LayeredRtp.Proofs.ResendOutcomes

/-! What sending packets again takes from the rate for it. The rate is charged with the size of a
packet before its copy is made, so it counts what was queued, and beside that every packet whose
copy was refused. -/
namespace LayeredRtp

structure Charge where
  time : Time
  bytes : Nat
  queued : Bool
deriving DecidableEq, Repr

def Charge.use (c : Charge) : Time × ByteCount := (c.time, ⟨c.bytes⟩)

namespace Sender

variable {s t : Sender} {low : UInt16} {now later : Time} {log : List Charge} {l : RateCap}

def charges (s : Sender) (low : UInt16) (now : Time) : List Charge :=
  if s.limiter.isSome then
    match (s.resend low now).1 with
    | .nothing => []
    | .refused => (s.archive.resendable? low now).toList.map (⟨now, ·.packet.size, false⟩)
    | .queued size => [⟨now, size, true⟩]
  else []

def chargesOfAll (s : Sender) (now : Time) : List UInt16 → List Charge
  | [] => []
  | low :: rest =>
    s.charges low now ++
      if (s.resend low now).1.code < 0 then []
      else (s.resend low now).2.chargesOfAll now rest

def logged (s : Sender) (log : List Charge) : Operation → List Charge
  | .resend low now => log ++ s.charges low now
  | .lost lows rtt now =>
    log ++ { s with archive := s.archive.setRtt (lossMargin + rtt) }.chargesOfAll now lows
  | .setRepairRate none => []
  | _ => log

def Operation.time? : Operation → Option Time
  | .resend _ now | .lost _ _ now | .pad _ _ _ now | .enqueue _ now | .sent _ now => some now
  | _ => none

def Operation.RateFits : Operation → Prop
  | .setRepairRate (some rate) => rate.bps < 2 ^ 64
  | _ => True

/-- The states that a sender can come to while time does not go back, with what its rate was
charged with. -/
inductive Metered : Sender → Time → List Charge → Prop
  | start (settings : SenderSettings) (archive : Archive) (now : Time)
      (fits : ∀ rate, settings.repairRate = some rate → rate.bps < 2 ^ 64) :
      Metered (new settings archive) now []
  | step {s : Sender} {now later : Time} {log : List Charge} (metered : Metered s now log)
      {op : Operation} (passed : now ≤ later) (timed : ∀ t, op.time? = some t → t = later)
      (fits : op.RateFits) : Metered (s.perform op) later (s.logged log op)

structure Budgeted (s : Sender) (now : Time) (log : List Charge) : Prop where
  unlimited : s.limiter = none → log = []
  ordinary : ∀ l, s.limiter = some l → l.Ordinary
  records : ∀ l, s.limiter = some l → l.usage.Records (log.map Charge.use) now
  positive : ∀ c ∈ log, 0 < c.bytes

theorem chargeRepair_some {bytes : Nat} {allowed : Bool} {limiter : Option RateCap}
    (hl : s.limiter = some l)
    (charged : s.chargeRepair bytes now = (allowed, { s with limiter })) :
    (l.spend bytes now).1 = allowed ∧ limiter = some (l.spend bytes now).2 := by
  simp only [chargeRepair, hl, Prod.mk.injEq] at charged
  exact ⟨charged.1, (congrArg Sender.limiter charged.2).symm⟩

/-- A request either takes nothing from the rate, which has at most forgotten what is too long ago,
or it takes the size of a packet, whether or not a copy is queued for it. -/
theorem charges_cases (hl : s.limiter = some l) (low : UInt16) (now : Time) :
    (s.charges low now = [] ∧ (s.resend low now).1 = .nothing ∧
      ((s.resend low now).2.limiter = some l ∨
        (s.resend low now).2.limiter = some { l with usage := l.usage.expire now })) ∨
    ∃ (e : ArchiveEntry) (queued : Bool), s.charges low now = [⟨now, e.packet.size, queued⟩] ∧
      (s.resend low now).1 = (if queued then .queued e.packet.size else .refused) ∧
      (l.spend e.packet.size now).1 = true ∧
      (s.resend low now).2.limiter = some (l.spend e.packet.size now).2 := by
  unfold charges
  have houtcome := s.outcome_resend low now
  generalize s.resend low now = answer at houtcome ⊢
  cases houtcome with
  | missed absent => exact .inl ⟨by simp, rfl, .inl hl⟩
  | @limited e limiter found charged =>
    obtain ⟨hrefused, hlimiter⟩ := chargeRepair_some hl charged
    rw [RateCap.eq_of_refused hrefused] at hlimiter
    exact .inl ⟨by simp, rfl, .inr hlimiter⟩
  | @refused e limiter found charged uncopied =>
    obtain ⟨hallowed, hlimiter⟩ := chargeRepair_some hl charged
    exact .inr ⟨e, false, by simp [hl, found], rfl, hallowed, hlimiter⟩
  | @queued e limiter copy found charged copied =>
    obtain ⟨hallowed, hlimiter⟩ := chargeRepair_some hl charged
    exact .inr ⟨e, true, by simp [hl], rfl, hallowed, hlimiter⟩

theorem limiter_resend_none (h : s.limiter = none) (low : UInt16) (now : Time) :
    (s.resend low now).2.limiter = none := by
  have hcharge (bytes : Nat) : (s.chargeRepair bytes now).2.limiter = none := by
    simp [chargeRepair, h]
  have houtcome := s.outcome_resend low now
  generalize s.resend low now = answer at houtcome ⊢
  cases houtcome with
  | missed absent => exact h
  | limited found charged | refused found charged | queued found charged =>
    exact (congrArg (·.2.limiter) charged).symm.trans (hcharge _)

namespace Budgeted

theorem of_some (hl : t.limiter = some l) (ordinary : l.Ordinary)
    (records : l.usage.Records (log.map Charge.use) now) (positive : ∀ c ∈ log, 0 < c.bytes) :
    t.Budgeted now log where
  unlimited hnone := by simp [hl] at hnone
  ordinary _ h := Option.some.inj (hl.symm.trans h) ▸ ordinary
  records _ h := Option.some.inj (hl.symm.trans h) ▸ records
  positive := positive

/-- Time passes, and the rate is left alone. -/
theorem wait (h : s.Budgeted now log) (hlater : now ≤ later) (hsame : t.limiter = s.limiter) :
    t.Budgeted later log := by
  obtain ⟨hunlimited, hordinary, hrecords, hpositive⟩ := h
  rw [← hsame] at hunlimited hordinary hrecords
  exact ⟨hunlimited, hordinary, fun l hl => (hrecords l hl).wait hlater, hpositive⟩

theorem resend (h : s.Budgeted now log) (hlater : now ≤ later) (low : UInt16) :
    (s.resend low later).2.Budgeted later (log ++ s.charges low later) := by
  cases hlimiter : s.limiter with
  | none =>
    have hnone := limiter_resend_none hlimiter low later
    have hcharges : s.charges low later = [] := by simp [charges, hlimiter]
    rw [hcharges, List.append_nil]
    exact h.wait hlater (hnone.trans hlimiter.symm)
  | some l =>
    have hl : l.Ordinary := h.ordinary l hlimiter
    have hrecords := h.records l hlimiter
    cases charges_cases hlimiter low later with
    | inl hnothing =>
      obtain ⟨hcharges, -, hkept | hexpired⟩ := hnothing
      · rw [hcharges, List.append_nil]
        exact h.wait hlater (hkept.trans hlimiter.symm)
      · rw [hcharges, List.append_nil]
        exact .of_some hexpired (hl.expire later) (hrecords.expire hlater) h.positive
    | inr hcharged =>
      obtain ⟨e, queued, hcharges, -, hallowed, hspent⟩ := hcharged
      have hspend := RateCap.records_spend hl.allowance_lt hrecords hlater e.packet.size
      rw [hallowed, if_pos rfl] at hspend
      rw [hcharges]
      refine .of_some hspent (hl.spend _ _).1 (by simpa [Charge.use] using hspend) fun c hc => ?_
      cases List.mem_append.mp hc with
      | inl hc => exact h.positive c hc
      | inr hc => exact List.mem_singleton.mp hc ▸ e.packet.size_pos

theorem resendAll (h : s.Budgeted now log) (hlater : now ≤ later) (lows : List UInt16) :
    (s.resendAll later lows).Budgeted later (log ++ s.chargesOfAll later lows) := by
  induction lows generalizing s now log with
  | nil => simpa [chargesOfAll, Sender.resendAll] using h.wait hlater rfl
  | cons low rest ih =>
    have hfirst := h.resend hlater low
    rw [resendAll_cons, chargesOfAll]
    split
    · simpa using hfirst
    · simpa using ih hfirst (Nat.le_refl later)

theorem setRepairRate (h : s.Budgeted now log) (hlater : now ≤ later) {rate : Option BitRate}
    (fits : (Operation.setRepairRate rate).RateFits) :
    (s.setRepairRate rate).Budgeted later (s.logged log (.setRepairRate rate)) := by
  cases rate with
  | none => exact ⟨fun _ => rfl, nofun, nofun, nofun⟩
  | some rate =>
    cases hlimiter : s.limiter with
    | none =>
      have hlog : log = [] := h.unlimited hlimiter
      have hnew : (s.setRepairRate (some rate)).limiter = some (RateCap.new rate) := by
        simp [Sender.setRepairRate, hlimiter]
      refine .of_some hnew ⟨rfl, fits⟩ ?_ h.positive
      rw [hlog]
      exact .new _ _
    | some l =>
      have hset : (s.setRepairRate (some rate)).limiter = some (l.setRate rate) := by
        simp [Sender.setRepairRate, hlimiter]
      exact .of_some hset ⟨(h.ordinary l hlimiter).window, fits⟩
        ((h.records l hlimiter).wait hlater) h.positive

theorem perform (h : s.Budgeted now log) (hlater : now ≤ later) {op : Operation}
    (timed : ∀ t, op.time? = some t → t = later) (fits : op.RateFits) :
    (s.perform op).Budgeted later (s.logged log op) := by
  cases op with
  | resend low time =>
    cases timed time rfl
    exact h.resend hlater low
  | lost lows rtt time =>
    cases timed time rfl
    have hrtt : Budgeted { s with archive := s.archive.setRtt (lossMargin + rtt) } now log :=
      h.wait (Nat.le_refl now) rfl
    exact hrtt.resendAll hlater lows
  | setRepairRate rate => exact h.setRepairRate hlater fits
  | pad target mediaSent onMedia now =>
    exact h.wait hlater (congrArg Sender.limiter (SameButNumbers.makePadding s _ _ _ _) :)
  | eraseExtension | setMixed | setMid | ack | ackRepair | setState | setRepairState
    | setSending | enqueue | pace | share => exact h.wait hlater rfl
  | insertExtension | setSources | setRepairMode | setRepairType | setMaxPacketSize | assign
    | sent =>
    refine h.wait hlater ?_
    simp only [Sender.perform, Sender.insertExtension, Sender.setSources, Sender.setRepairMode,
      Sender.setRepairType, Sender.setMaxPacketSize, assignNumber, onSent]
    repeat' split
    all_goals rfl

end Budgeted

theorem Budgeted.new (settings : SenderSettings) (archive : Archive) (now : Time)
    (fits : ∀ rate, settings.repairRate = some rate → rate.bps < 2 ^ 64) :
    (Sender.new settings archive).Budgeted now [] := by
  have hlimiter : (Sender.new settings archive).limiter = settings.repairRate.map (RateCap.new ·) :=
    rfl
  cases hrate : settings.repairRate with
  | none =>
    rw [hrate] at hlimiter
    exact ⟨fun _ => rfl, by simp [hlimiter], by simp [hlimiter], nofun⟩
  | some rate =>
    rw [hrate] at hlimiter
    exact .of_some hlimiter ⟨rfl, fits rate hrate⟩ (.new _ now) nofun

theorem Metered.budgeted (h : Metered s now log) : s.Budgeted now log := by
  induction h with
  | start settings archive now fits => exact .new settings archive now fits
  | step metered passed timed fits ih => exact ih.perform passed timed fits

/-- What was used within the window for packets that were queued, and for copies refused. -/
theorem usedWithin_split (length : Time) (log : List Charge) (now : Time) :
    usedWithin length (log.map Charge.use) now =
      usedWithin length ((log.filter (·.queued)).map Charge.use) now +
        usedWithin length ((log.filter (!·.queued)).map Charge.use) now := by
  induction log with
  | nil => rfl
  | cons c rest ih =>
    have hfirst (more : List Charge) : usedWithin length ((c :: more).map Charge.use) now =
        usedWithin length [c.use] now + usedWithin length (more.map Charge.use) now :=
      usedWithin_append length [c.use] (more.map Charge.use) now
    cases hqueued : c.queued with
    | true =>
      simp only [List.filter_cons, hqueued, if_true, Bool.not_true, Bool.false_eq_true, if_false]
      rw [hfirst, hfirst, ih, Nat.add_assoc]
    | false =>
      simp only [List.filter_cons, hqueued, if_true, Bool.not_false, Bool.false_eq_true, if_false]
      rw [hfirst, hfirst, ih, Nat.add_left_comm]

theorem Budgeted.total_expire (h : s.Budgeted now log) (hl : s.limiter = some l)
    (hlater : now ≤ later) : (l.usage.expire later).total.bytes =
      usedWithin RateCap.defaultWindow (log.map Charge.use) later := by
  have hwindow := (h.ordinary l hl).window
  exact hwindow ▸ (h.records l hl).total_expire hlater

/-- Nothing was used within the window exactly if everything used has left it. -/
theorem usedWithin_eq_zero {length : Time} (h : ∀ c ∈ log, 0 < c.bytes) :
    usedWithin length (log.map Charge.use) now = 0 ↔ ∀ c ∈ log, length ≤ now - c.time := by
  constructor
  · intro hzero c hc
    refine Nat.not_lt.mp fun hkept => ?_
    have hmem : c.use ∈ (log.map Charge.use).filter fun u => now - u.1 < length :=
      List.mem_filter.mpr ⟨List.mem_map_of_mem hc, decide_eq_true hkept⟩
    have hbytes : c.bytes = 0 :=
      List.sum_eq_zero_iff_forall_eq_nat.mp hzero c.bytes (List.mem_map_of_mem hmem)
    exact absurd hbytes (Nat.ne_of_gt (h c hc))
  · intro hgone
    refine usedWithin_of_gone fun u hu => ?_
    obtain ⟨c, hc, rfl⟩ := List.mem_map.mp hu
    exact hgone c hc

/-- The total counts queued packets alone from now on exactly if no refused copy is in it. -/
theorem Budgeted.total_queued (h : s.Budgeted now log) (hl : s.limiter = some l) :
    (∀ later, now ≤ later → (l.usage.expire later).total.bytes =
      usedWithin RateCap.defaultWindow ((log.filter (·.queued)).map Charge.use) later) ↔
    ∀ c ∈ log, c.queued = false → RateCap.defaultWindow ≤ now - c.time := by
  have hpositive : ∀ c ∈ log.filter (!·.queued), 0 < c.bytes :=
    fun c hc => h.positive c (List.mem_of_mem_filter hc)
  have hrefused (later : Time) : usedWithin RateCap.defaultWindow
        ((log.filter (!·.queued)).map Charge.use) later = 0 ↔
      ∀ c ∈ log, c.queued = false → RateCap.defaultWindow ≤ later - c.time := by
    simp [usedWithin_eq_zero hpositive]
  have hsplit (later : Time) := usedWithin_split RateCap.defaultWindow log later
  constructor
  · intro hequal
    have hnow := hequal now (Nat.le_refl now)
    rw [h.total_expire hl (Nat.le_refl now), hsplit] at hnow
    exact (hrefused now).mp (by omega)
  · intro hgone later hlater
    have hnone := (hrefused later).mpr fun c hc hqueued =>
      Nat.le_trans (hgone c hc hqueued) (Nat.sub_le_sub_right hlater _)
    rw [h.total_expire hl hlater, hsplit, hnone, Nat.add_zero]

/-- A request that takes nothing from the rate leaves it as it was for what comes later. -/
theorem spend_of_nothing (hl : s.limiter = some l) (hanswer : (s.resend low later).1 = .nothing) :
    ∃ l', (s.resend low later).2.limiter = some l' ∧
      ∀ bytes time, later ≤ time → l'.spend bytes time = l.spend bytes time := by
  cases charges_cases hl low later with
  | inl hnothing =>
    obtain ⟨-, -, hkept | hexpired⟩ := hnothing
    · exact ⟨l, hkept, fun _ _ _ => rfl⟩
    · exact ⟨_, hexpired, fun bytes time htime => l.spend_expire htime bytes⟩
  | inr hcharged =>
    obtain ⟨e, queued, -, hcharge, -, -⟩ := hcharged
    rw [hanswer] at hcharge
    cases queued <;> cases hcharge

/-- After a copy was refused, as much as the rate had room for at the time is too much. -/
theorem Budgeted.spend_of_refused (h : s.Budgeted now log) (hl : s.limiter = some l)
    (hlater : now ≤ later) (hanswer : (s.resend low later).1 = .refused) :
    ∃ l' bytes, (s.resend low later).2.limiter = some l' ∧
      (l.spend bytes later).1 = true ∧ (l'.spend bytes later).1 = false := by
  cases charges_cases hl low later with
  | inl hnothing =>
    obtain ⟨-, hcharge, -⟩ := hnothing
    rw [hanswer] at hcharge
    cases hcharge
  | inr hcharged =>
    obtain ⟨e, queued, -, -, hallowed, hspent⟩ := hcharged
    obtain ⟨bytes, hbefore, hafter⟩ := RateCap.exists_crowded_out (h.ordinary l hl) (h.records l hl)
      hlater e.packet.size_pos hallowed
    exact ⟨_, bytes, hspent, hbefore, hafter⟩

/-- What is charged to the rate for sending packets again, and when that is what was queued. At any
time the rate counts the size of every packet that it had room for within the last second, also of
those that could not be copied. So it counts queued packets alone exactly if no copy was refused in
that time. A request that takes nothing leaves the rate as it was for all that comes later, and one
for a packet that cannot be copied leaves it less room than before. -/
theorem charges_exact (h : Metered s now log) (hl : s.limiter = some l) :
    (∀ later, now ≤ later → (l.usage.expire later).total.bytes =
        usedWithin 1000000 (log.map Charge.use) later) ∧
      ((∀ later, now ≤ later → (l.usage.expire later).total.bytes =
          usedWithin 1000000 ((log.filter (·.queued)).map Charge.use) later) ↔
        ∀ c ∈ log, c.queued = false → 1000000 ≤ now - c.time) ∧
      ∀ low later, now ≤ later →
        let answer := (s.resend low later).1
        let rest := (s.resend low later).2.limiter
        (answer = .nothing → ∃ l', rest = some l' ∧
          ∀ bytes time, later ≤ time → l'.spend bytes time = l.spend bytes time) ∧
        (answer = .refused → ∃ l' bytes, rest = some l' ∧ (l.spend bytes later).1 = true ∧
          (l'.spend bytes later).1 = false) := by
  have hs := h.budgeted
  exact ⟨fun later hlater => hs.total_expire hl hlater, hs.total_queued hl,
    fun low later hlater => ⟨spend_of_nothing hl, hs.spend_of_refused hl hlater⟩⟩

def limitedSender : Sender :=
  ((new { repairedSettings with repairRate := some ⟨100⟩ } ((Archive.new true 10).performAll
    [.store (frame 6 96) (some 0), .store (frame 7 100) (some 0),
      .store (frame 8 96) (some 0)])).perform (.setRepairType 96 97)).perform
    (.setRepairMode { retransmitted := true })

theorem metered_limitedSender : Metered limitedSender 0 [] := by
  refine .step (.step (.start _ _ 0 ?_) (Nat.le_refl 0) ?_ ?_) (Nat.le_refl 0) ?_ ?_
  · simp
  all_goals simp [Operation.time?, Operation.RateFits]

/-- The second packet cannot be copied, and takes what there would be room for. -/
theorem refused_copy_charged :
    ∃ l l', limitedSender.limiter = some l ∧ (limitedSender.resend 7 20).1.code = -1 ∧
      (limitedSender.resend 7 20).2.limiter = some l' ∧
      (l.spend 12 20).1 = true ∧ (l'.spend 12 20).1 = false ∧
      (limitedSender.resend 8 20).1.code = 12 ∧
      ((limitedSender.resend 7 20).2.resend 8 20).1.code = 0 :=
  ⟨_, _, rfl, by decide, rfl, by decide, by decide, by decide, by decide⟩

/-- What the refused copy has taken stays in the total, and the next request finds no room. -/
theorem charges_exact_refused :
    let s := limitedSender.perform (.resend 7 20)
    Metered s 20 [⟨20, 12, false⟩] ∧ ∃ l, s.limiter = some l ∧
      (l.usage.expire 20).total.bytes = 12 ∧
      (¬∀ later, 20 ≤ later → (l.usage.expire later).total.bytes = usedWithin 1000000 [] later) ∧
      (s.resend 8 20).1 = .nothing ∧ ∃ l', (s.resend 8 20).2.limiter = some l' ∧
        ∀ bytes time, 20 ≤ time → l'.spend bytes time = l.spend bytes time := by
  intro s
  have hmetered : Metered s 20 [⟨20, 12, false⟩] := by
    have hlogged : limitedSender.logged [] (.resend 7 20) = [⟨20, 12, false⟩] := by decide
    exact hlogged ▸ metered_limitedSender.step (Nat.zero_le 20)
      (fun t ht => (Option.some.inj ht).symm) trivial
  obtain ⟨l, hl⟩ : ∃ l, s.limiter = some l := ⟨_, rfl⟩
  obtain ⟨htotal, hqueued, hcalls⟩ := charges_exact hmetered hl
  have hanswer : (s.resend 8 20).1 = .nothing := by decide
  obtain ⟨hnothing, -⟩ := hcalls 8 20 (Nat.le_refl 20)
  refine ⟨hmetered, l, hl, htotal 20 (Nat.le_refl 20), fun halone => ?_, hanswer, hnothing hanswer⟩
  have hgone := hqueued.mp halone ⟨20, 12, false⟩ (List.mem_singleton_self _) rfl
  exact absurd hgone (by decide)

end Sender
end LayeredRtp
