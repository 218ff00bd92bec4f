import LayeredRtp.Proofs.LossReports
import LayeredRtp.Proofs.PaddingHeaders
import Mathlib.Algebra.BigOperators.Ring.Finset

/-! How much comes of a request for padding. Repeated payloads take from what is left until little
is left or the next one would pass three times the target; packets of padding alone then fill up
what is left, so that only the last of them goes past the target. -/
namespace LayeredRtp

namespace Rounding

theorem nearest_mul (n : Nat) {den : Nat} (hden : 0 < den) : nearest (n * den) den = n := by
  simp [nearest, Nat.mul_div_cancel n hden, hden]

/-- Whole numbers of 53 binary digits are kept as they are. -/
theorem whole53_eq_self {n : Nat} (h : n < 2 ^ 53) : whole53 n = n := by
  cases n with
  | zero => rfl
  | succ n =>
    have hexponent : Nat.log2 (n + 1) ≤ 52 :=
      Nat.le_of_lt_succ ((Nat.log2_lt (Nat.succ_ne_zero n)).mpr h)
    have hscale : 0 < 1 <<< (52 - Nat.log2 (n + 1)) := by
      rw [Nat.one_shiftLeft]
      exact Nat.two_pow_pos _
    have hnearest := nearest_mul ((n + 1) * 1 <<< (52 - Nat.log2 (n + 1))) Nat.one_pos
    rw [Nat.mul_one] at hnearest
    simp [whole53, binary53, hexponent, hnearest, Nat.mul_div_cancel _ hscale]

end Rounding

namespace Packet

variable {p q : Packet}

theorem size_le_of_withPayload {payload : Octets} (h : p.withPayload? payload = some q) :
    q.size ≤ q.capacity := by
  simp only [withPayload?, Option.ite_none_right_eq_some, Option.some.injEq] at h
  obtain ⟨hroom, rfl⟩ := h
  exact hroom

theorem size_le_of_withPadding {padding : Nat} (h : p.withPadding? padding = some q) :
    q.size ≤ q.capacity := by
  simp only [withPadding?, Option.ite_none_right_eq_some, Option.some.injEq] at h
  obtain ⟨⟨-, hroom⟩, rfl⟩ := h
  exact hroom

def payloadOctets (packets : List Packet) : Nat := (packets.map (·.payload.length)).sum

def paddingOctets (packets : List Packet) : Nat := (packets.map (·.padding)).sum

end Packet

namespace Sender

open Packet (payloadOctets paddingOctets)

variable {s t : Sender} {p : Packet} {ssrc : Ssrc} {payloadType : PayloadType}
  {size excess left rest target : Nat} {packets : List Packet} {mediaSent onMedia : Bool}
  {now : Time}

theorem overshoot_eq (h : target < 2 ^ 50) : overshoot target = 2 * target := by
  have hwhole : Rounding.whole53 target = target := Rounding.whole53_eq_self (by omega)
  rw [overshoot, hwhole]
  omega

/-- The room of a repair copy is that of any packet of the sender, and it has no padding. -/
theorem room_repairCopy {copy : Packet} (h : s.repairCopy? p = some copy) :
    copy.size ≤ s.maxPacketSize ∧ copy.padding = 0 := by
  obtain ⟨ssrc, payloadType, -, -, -, hcopy⟩ := repairCopy_eq h
  obtain ⟨_, _, _, copied, -, -, -, -, -, hpayload⟩ := repairCopy_steps h
  obtain ⟨type, hbegun⟩ := s.repairHeader_eq p ssrc payloadType
  have hcapacity : copy.capacity = s.maxPacketSize := by rw [hcopy, hbegun]
  have hpadding : copy.padding = 0 := by rw [hcopy, hbegun]
  exact ⟨hcapacity ▸ Packet.size_le_of_withPayload hpayload, hpadding⟩

structure RepeatsPayload (s : Sender) (p : Packet) : Prop where
  kind : p.kind = some .padding
  fits : p.size ≤ s.maxPacketSize
  stream : s.repairSsrc = some p.ssrc
  payload : p.payload ≠ []
  padding : p.padding = 0

structure PadsAlone (s : Sender) (size : Nat) (p : Packet) : Prop where
  kind : p.kind = some .padding
  fits : p.size ≤ s.maxPacketSize
  payload : p.payload = []
  padding : p.padding = size

/-- The account of repeated payloads: what they take, what they leave, and how many they are. -/
structure RepeatAccount (excess left : Nat) (packets : List Packet) (rest : Nat) : Prop where
  within : payloadOctets packets ≤ excess + left
  covered : left ≤ payloadOctets packets + rest
  exact : 0 < rest → payloadOctets packets + rest = left
  count : packets.length + rest ≤ left
  few : left < leastRepeated → packets = []

namespace RepeatAccount

theorem nil (excess left : Nat) : RepeatAccount excess left [] left := by
  constructor <;> simp [payloadOctets]

theorem cons (hleft : leastRepeated ≤ left) (hsome : p.payload ≠ [])
    (hroom : p.payload.length ≤ excess + left)
    (h : RepeatAccount excess (left - p.payload.length) packets rest) :
    RepeatAccount excess left (p :: packets) rest := by
  obtain ⟨hwithin, hcovered, hexact, hcount, hfew⟩ := h
  have hpos : 0 < p.payload.length := List.length_pos_iff.mpr hsome
  have hsum : payloadOctets (p :: packets) = p.payload.length + payloadOctets packets := by
    simp [payloadOctets]
  simp only [leastRepeated] at hleft hfew
  -- Past the target nothing is left to repeat more payloads for.
  have hlast : left ≤ p.payload.length → payloadOctets packets = 0 := by
    intro hpast
    have hnone : packets = [] := hfew (by omega)
    simp [hnone, payloadOctets]
  constructor
  case few => intro hless; simp only [leastRepeated] at hless; omega
  case count => simp only [List.length_cons]; omega
  all_goals omega

/-- The account of a whole request, with what fills up the rest. -/
theorem filled (h : RepeatAccount (2 * target) target packets left) {alone : List Packet}
    (hcount : alone.length ≤ left) (hsome : alone ≠ [] → 0 < left)
    (hfilled : alone ≠ [] →
      left ≤ paddingOctets alone ∧ paddingOctets alone < left + mostPadding) :
    (packets ++ alone).length ≤ target ∧ left = target - payloadOctets packets ∧
      payloadOctets packets ≤ 3 * target ∧
      (alone ≠ [] → target ≤ payloadOctets packets + paddingOctets alone ∧
        payloadOctets packets + paddingOctets alone ≤ target + 223) := by
  obtain ⟨hwithin, hcovered, hexact, hfewer, -⟩ := h
  rw [List.length_append]
  refine ⟨by omega, by omega, by omega, fun hany => ?_⟩
  have hleft := hsome hany
  have hfits := hfilled hany
  simp only [mostPadding] at hfits
  omega

end RepeatAccount

theorem repeatAccount_repeatPayloads (s : Sender) (excess left : Nat) (now : Time) :
    RepeatAccount excess left (s.repeatPayloads excess left now).1
      (s.repeatPayloads excess left now).2.1 := by
  fun_induction repeatPayloads s excess left now with
  | case1 | case2 | case3 | case4 => exact .nil _ _
  | case5 s left hleft e _ hroom copy hcopy t more rest u hmore ih =>
    rw [hmore] at ih
    have hpayload : copy.payload = Octets.ofWord16 e.packet.sequenceNumber ++ e.packet.payload :=
      payload_of_repairCopy hcopy
    have hlength : copy.payload.length = e.packet.payload.length + Repair.headerSize := by
      rw [hpayload, List.length_append, Octets.length_ofWord16, Repair.headerSize, Nat.add_comm]
    have hsome : copy.payload ≠ [] := by simp [hpayload, Octets.ofWord16]
    have hfits : copy.payload.length ≤ excess + left := by omega
    exact ih.cons (Nat.not_lt.mp hleft) hsome hfits

theorem repeatsPayload_repeatPayloads (s : Sender) (excess left : Nat) (now : Time) :
    ∀ p ∈ (s.repeatPayloads excess left now).1, s.RepeatsPayload p := by
  fun_induction repeatPayloads s excess left now with
  | case1 | case2 | case3 | case4 => simp
  | case5 s left _ e _ _ copy hcopy t more rest u hmore ih =>
    rw [hmore] at ih
    have hsome : copy.payload ≠ [] := by simp [payload_of_repairCopy hcopy, Octets.ofWord16]
    have hstream : s.repairSsrc = some copy.ssrc := repairSsrc_of_repairCopy hcopy
    obtain ⟨hfits, hpadding⟩ := room_repairCopy hcopy
    refine List.forall_mem_cons.mpr ⟨⟨rfl, hfits, hstream, hsome, hpadding⟩, fun p hp => ?_⟩
    have hmore : t.RepeatsPayload p := ih p hp
    exact { hmore with }

/-- What a packet of padding alone has beside extensions, its stream and its time. -/
theorem bare_paddingStart {q : Packet}
    (h : (s.paddingStart ssrc payloadType now).SameButElements q) :
    q.capacity = s.maxPacketSize ∧ q.kind = some .padding ∧ q.sources = [] ∧ q.payload = [] := by
  have hq : q = { s.paddingStart ssrc payloadType now with elements := q.elements } := h
  rw [hq]
  unfold paddingStart Packet.withPayloadType
  split <;> exact ⟨rfl, rfl, rfl, rfl⟩

theorem padsAlone_paddingPacket (h : s.paddingPacket? ssrc payloadType size now = some p) :
    s.PadsAlone size p := by
  obtain ⟨q, -, hsame, heq⟩ := s.paddingPacket_eq ssrc payloadType size now
  obtain ⟨hcapacity, hkind, -, hpayload⟩ := bare_paddingStart hsame
  rw [heq] at h
  have hfits : p.size ≤ p.capacity := Packet.size_le_of_withPadding h
  cases Packet.eq_of_withPadding h
  exact ⟨hkind, hcapacity ▸ hfits, hpayload, rfl⟩

theorem paddingSize_bounds (s : Sender) (left : Nat) :
    s.paddingSize left ≤ s.maxPacketSize - s.paddingHeader ∧ s.paddingSize left ≤ mostPadding := by
  cases hkind : s.kind with
  | audio =>
    simp only [paddingSize, hkind]
    omega
  | video =>
    simp only [paddingSize, hkind]
    omega

/-- The size kept in advance leaves room for the padding that a packet is to have. -/
theorem paddingPacket_isSome (hs : s.Current) (hsize : s.paddingSize left ≠ 0) (ssrc : Ssrc)
    (payloadType : PayloadType) (now : Time) :
    (s.paddingPacket? ssrc payloadType (s.paddingSize left) now).isSome := by
  obtain ⟨q, hlisted, hsame, heq⟩ :=
    s.paddingPacket_eq ssrc payloadType (s.paddingSize left) now
  obtain ⟨hcapacity, -, hsources, hpayload⟩ := bare_paddingStart hsame
  have hheader : q.headerSize ≤ s.paddingHeader :=
    hs.padding ▸ headerSize_le_of_listed hlisted hsources
  obtain ⟨hroom, hmost⟩ := s.paddingSize_bounds left
  have hallowed : s.paddingSize left ≤ Packet.maxPadding := Nat.le_trans hmost (by decide)
  have hfits : q.headerSize + q.payload.length + s.paddingSize left ≤ q.capacity := by
    rw [hpayload, hcapacity, List.length_nil]
    omega
  simp [heq, Packet.withPadding?, hallowed, hfits]

theorem PadsAlone.of_sameBudget (hp : t.PadsAlone size p) (h : s.SameBudget t) :
    s.PadsAlone size p := by
  have hroom : t.maxPacketSize = s.maxPacketSize := (congrArg Sender.maxPacketSize h :)
  exact { hp with fits := hroom ▸ hp.fits }

theorem padsAlone_padWith (s : Sender) (ssrc : Ssrc) (payloadType : PayloadType) (size : Nat)
    (now : Time) (count : Nat) :
    ∀ p ∈ (s.padWith ssrc payloadType size now count).1, s.PadsAlone size p := by
  induction count generalizing s with
  | zero => simp [padWith]
  | succ count ih =>
    cases hp : s.paddingPacket? ssrc payloadType size now with
    | none => simp [padWith, hp]
    | some first =>
      have hrest : ∀ p ∈ ((s.advance ssrc).padWith ssrc payloadType size now count).1,
          s.PadsAlone size p :=
        fun p hmem => (ih (s.advance ssrc) p hmem).of_sameBudget (s.sameBudget_advance ssrc)
      simpa [padWith, hp] using And.intro (padsAlone_paddingPacket hp) hrest

/-- As many packets come as were asked for if there is room for every one. -/
theorem length_padWith
    (hroom : ∀ t, s.SameBudget t → (t.paddingPacket? ssrc payloadType size now).isSome)
    (count : Nat) : (s.padWith ssrc payloadType size now count).1.length = count := by
  induction count generalizing s with
  | zero => rfl
  | succ count ih =>
    obtain ⟨p, hp⟩ := Option.isSome_iff_exists.mp (hroom s (.refl s))
    have hrest := ih fun t ht => hroom t ((s.sameBudget_advance ssrc).trans ht)
    simp [padWith, hp, hrest]

theorem SameBudget.paddingSize (h : s.SameBudget t) : t.paddingSize left = s.paddingSize left :=
  (congrArg (Sender.paddingSize · left) h :)

theorem paddingOctets_eq (h : ∀ p ∈ packets, s.PadsAlone size p) :
    paddingOctets packets = packets.length * size := by
  induction packets with
  | nil => simp [paddingOctets]
  | cons p rest ih =>
    obtain ⟨hp, hrest⟩ := List.forall_mem_cons.mp h
    have hsum := ih hrest
    simp only [paddingOctets, List.map_cons, List.sum_cons, List.length_cons, hp.padding] at hsum ⊢
    rw [hsum, Nat.succ_mul, Nat.add_comm]

/-- A number of octets held by parts of one size, the last of which may be filled in part. -/
theorem parts_bounds (left : Nat) (hsize : 0 < size) :
    let parts := (left + size - 1) / size
    left ≤ parts * size ∧ parts * size < left + size ∧ parts ≤ left := by
  intro parts
  have hdivided : parts * size + (left + size - 1) % size = left + size - 1 :=
    Nat.div_add_mod' _ _
  have hmod : (left + size - 1) % size < size := Nat.mod_lt _ hsize
  refine ⟨by omega, by omega, Nat.not_lt.mp fun hmore => ?_⟩
  have hparts : (left + 1) * size ≤ parts * size := Nat.mul_le_mul_right size hmore
  have hleft : left ≤ left * size := Nat.le_mul_of_pos_right left hsize
  rw [Nat.succ_mul] at hparts
  omega

/-- What is left is filled up with whole packets, and less than one of them is too much. -/
theorem padRest_spec (hs : s.Current) (left : Nat) (mediaSent onMedia : Bool) (now : Time) :
    let alone := (s.padRest left mediaSent onMedia now).1
    (∀ p ∈ alone, s.PadsAlone (s.paddingSize left) p) ∧ alone.length ≤ left ∧
      (alone ≠ [] ↔ 0 < left ∧ s.paddingSize left ≠ 0 ∧
        (s.paddingStream? mediaSent onMedia).isSome) ∧
      (alone ≠ [] → left ≤ paddingOctets alone ∧ paddingOctets alone < left + mostPadding) := by
  intro alone
  by_cases hsize : s.paddingSize left = 0
  · simp [alone, padRest, hsize]
  cases hstream : s.paddingStream? mediaSent onMedia with
  | none => simp [alone, padRest, hsize, hstream]
  | some stream =>
    obtain ⟨ssrc, payloadType⟩ := stream
    have halone : alone = (s.padWith ssrc payloadType (s.paddingSize left) now
        ((left + s.paddingSize left - 1) / s.paddingSize left)).1 := by
      simp [alone, padRest, hsize, hstream]
    have hpads : ∀ p ∈ alone, s.PadsAlone (s.paddingSize left) p :=
      halone ▸ s.padsAlone_padWith _ _ _ _ _
    have hroom (t : Sender) (ht : s.SameBudget t) :
        (t.paddingPacket? ssrc payloadType (s.paddingSize left) now).isSome := by
      rw [← ht.paddingSize]
      exact paddingPacket_isSome (hs.of_sameBudget ht) (ht.paddingSize ▸ hsize) _ _ _
    have hlength : alone.length = (left + s.paddingSize left - 1) / s.paddingSize left :=
      halone ▸ length_padWith hroom _
    have hmost : s.paddingSize left ≤ mostPadding := (s.paddingSize_bounds left).2
    obtain ⟨hcovered, hpast, hcount⟩ := parts_bounds left (Nat.pos_of_ne_zero hsize)
    rw [← hlength] at hcovered hpast hcount
    have hsome : alone ≠ [] ↔ 0 < left := by
      rw [← List.length_pos_iff]
      constructor
      · omega
      · intro hleft
        exact Nat.pos_of_mul_pos_right (Nat.lt_of_lt_of_le hleft hcovered)
    refine ⟨hpads, hcount, by simp [hsome, hsize], fun _ => ?_⟩
    rw [paddingOctets_eq hpads]
    omega

/-- Padding is what repeats payloads, and after it what fills up the rest. -/
theorem makePadding_parts (s : Sender) (target : Nat) (mediaSent onMedia : Bool) (now : Time) :
    ∃ (repeated : List Packet) (left : Nat) (t : Sender),
      RepeatAccount (overshoot target) target repeated left ∧
      (∀ p ∈ repeated, s.RepeatsPayload p) ∧
      s.SameButNumbers t ∧ (s.makePadding target mediaSent onMedia now).1 =
        if s.sending then repeated ++ (t.padRest left mediaSent onMedia now).1 else [] := by
  cases hrepeats : s.canRepeatPayloads with
  | false =>
    refine ⟨[], target, s, .nil _ _, by simp, rfl, ?_⟩
    cases hsending : s.sending <;> simp [makePadding, hrepeats, hsending]
  | true =>
    have hframe := SameButNumbers.repeatPayloads s (overshoot target) target now
    have hsending : (s.repeatPayloads (overshoot target) target now).2.2.sending = s.sending :=
      (congrArg Sender.sending hframe :)
    refine ⟨_, _, _, s.repeatAccount_repeatPayloads _ target now,
      s.repeatsPayload_repeatPayloads _ target now, hframe, ?_⟩
    simp only [makePadding, hrepeats, if_true, hsending]
    split <;> rfl

/-- A request for padding comes to an end and keeps to its target, whatever the archive has in it.
Payloads are repeated up to three times the target at most. Packets of padding alone come whenever
payloads do not reach the target and there is a stream for them; they reach it, the last of them
by less than its padding too far, and none is given up because there is no room for its padding. -/
theorem padding_within_budget (settings : SenderSettings) (archive : Archive)
    (ops : List Operation) (target : Nat) (htarget : target < 2 ^ 50) (mediaSent onMedia : Bool)
    (now : Time) :
    let s := (new settings archive).performAll ops
    let made := (s.makePadding target mediaSent onMedia now).1
    made.length ≤ target ∧
      (s.sending = false → made = []) ∧
      (∀ p ∈ made, p.kind = some .padding ∧ p.size ≤ s.maxPacketSize) ∧
      (∃ repeated alone, made = repeated ++ alone ∧
        (∀ p ∈ repeated, s.repairSsrc = some p.ssrc ∧ p.payload ≠ [] ∧ p.padding = 0) ∧
        (∀ p ∈ alone, p.payload = [] ∧ 0 < p.padding) ∧
        payloadOctets repeated ≤ 3 * target ∧
        (alone ≠ [] → target ≤ payloadOctets repeated + paddingOctets alone ∧
          payloadOctets repeated + paddingOctets alone ≤ target + 223) ∧
        (alone ≠ [] ↔ s.sending = true ∧ payloadOctets repeated < target ∧
          s.paddingSize (target - payloadOctets repeated) ≠ 0 ∧
          (s.paddingStream? mediaSent onMedia).isSome)) ∧
      ∀ t, s.SameBudget t → ∀ left ssrc payloadType, t.paddingSize left ≠ 0 →
        (t.paddingPacket? ssrc payloadType (t.paddingSize left) now).isSome := by
  intro s made
  have hs : s.Current := (Current.new settings archive).performAll ops
  have hroom (t : Sender) (ht : s.SameBudget t) (left : Nat) (ssrc : Ssrc)
      (payloadType : PayloadType) (hsize : t.paddingSize left ≠ 0) :
      (t.paddingPacket? ssrc payloadType (t.paddingSize left) now).isSome :=
    paddingPacket_isSome (hs.of_sameBudget ht) hsize ssrc payloadType now
  obtain ⟨repeated, left, t, hrepeated, hpayloads, hframe, hmade⟩ :=
    s.makePadding_parts target mediaSent onMedia now
  replace hmade : made = if s.sending then repeated ++ (t.padRest left mediaSent onMedia now).1
    else [] := hmade
  cases hsending : s.sending with
  | false =>
    have hnone : made = [] := by simp [hmade, hsending]
    refine ⟨by simp [hnone], fun _ => hnone, by simp [hnone], ⟨[], [], ?_⟩, hroom⟩
    simp [hnone, payloadOctets]
  | true =>
    have ht : s.SameBudget t := hframe.sameBudget
    have hstream : t.paddingStream? mediaSent onMedia = s.paddingStream? mediaSent onMedia :=
      (congrArg (Sender.paddingStream? · mediaSent onMedia) hframe :)
    obtain ⟨hpads, hcount, hsome, hfilled⟩ :=
      padRest_spec (hs.of_sameBudget ht) left mediaSent onMedia now
    generalize (t.padRest left mediaSent onMedia now).1 = alone at *
    replace hmade : made = repeated ++ alone := by simp [hmade, hsending]
    rw [overshoot_eq htarget] at hrepeated
    obtain ⟨hlength, hleft, hwithin, hreached⟩ :=
      hrepeated.filled hcount (fun hany => (hsome.mp hany).1) hfilled
    rw [ht.paddingSize, hstream, hleft, Nat.sub_pos_iff_lt] at hsome
    have halone : ∀ p ∈ alone, p.kind = some .padding ∧ p.size ≤ s.maxPacketSize ∧
        p.payload = [] ∧ 0 < p.padding := by
      intro p hp
      have hpos : 0 < s.paddingSize (target - payloadOctets repeated) :=
        Nat.pos_of_ne_zero (hsome.mp (List.ne_nil_of_mem hp)).2.1
      obtain ⟨hkind, hfits, hpayload, hpadding⟩ := (hpads p hp).of_sameBudget ht
      rw [hpadding, ht.paddingSize, hleft]
      exact ⟨hkind, hfits, hpayload, hpos⟩
    refine ⟨hmade ▸ hlength, nofun, fun p hp => ?_, ⟨repeated, alone, hmade, fun p hp => ?_,
      fun p hp => (halone p hp).2.2, hwithin, hreached, by simpa using hsome⟩, hroom⟩
    · cases List.mem_append.mp (hmade ▸ hp) with
      | inl hp => exact ⟨(hpayloads p hp).kind, (hpayloads p hp).fits⟩
      | inr hp => exact ⟨(halone p hp).1, (halone p hp).2.1⟩
    · exact ⟨(hpayloads p hp).stream, (hpayloads p hp).payload, (hpayloads p hp).padding⟩

/-- For a hundred octets the payload of sixty is repeated once, and a packet of padding alone has
to make up for the rest. -/
theorem padding_within_budget_mixed :
    let ids : ExtensionIds := { bindings := [(5, .absoluteSendTime)] }
    let sent : Packet := {
      extensions := ids, capacity := 1472, ssrc := 1, payloadType := 96, marker := true
      payload := List.replicate 60 7, kind := some .video }
    let s := (new { repairedSettings with extensions := ids } (.new true 10)).performAll
      [.setRepairType 96 97, .setRepairMode { redundantPayloads := true }, .sent sent 1]
    let made := (s.makePadding 100 true false 2).1
    made.map (fun p => (p.payload.length, p.padding)) = [(62, 0), (0, 224)] ∧
      made.length ≤ 100 ∧ ∀ p ∈ made, p.kind = some .padding ∧ p.size ≤ s.maxPacketSize := by
  intro ids sent s made
  obtain ⟨hcount, -, hfits, -, -⟩ := padding_within_budget
    { repairedSettings with extensions := ids } (.new true 10)
    [.setRepairType 96 97, .setRepairMode { redundantPayloads := true }, .sent sent 1]
    100 (by decide) true false 2
  exact ⟨by decide +kernel, hcount, hfits⟩

end Sender
end LayeredRtp
