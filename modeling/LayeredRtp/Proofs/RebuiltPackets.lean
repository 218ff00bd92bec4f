import LayeredRtp.Proofs.PaddingBudget
import LayeredRtp.Proofs.ResendOutcomes

/-! What a receiver learns from a repair copy. The copy is made with the ids, the names and the room
that the sender has at the time, whatever it had when the packet was made, and still the octets sent
tell all of the packet that the present ids allow. -/
namespace LayeredRtp

def HeaderExtension.isName : HeaderExtension → Bool
  | .rtpMid | .rtpStreamId | .repairedRtpStreamId => true
  | _ => false

def Element.content (e : Element) : HeaderExtension × Octets := (e.ext, e.value)

def Element.isCopied (m : ExtensionIds) (e : Element) : Bool :=
  e.ext != .rtpMid && e.ext != .rtpStreamId && m.contains e.ext

/-- The repair types are those there were, and the new one. -/
theorem RepairTypes.mem_put {media repair : PayloadType} {types : RepairTypes}
    {b : PayloadType × PayloadType} (hb : b ∈ types.put media repair) :
    b = (media, repair) ∨ b ∈ types := by
  fun_induction put media repair types with
  | case1 => simpa using hb
  | case2 c rest hless => simpa using hb
  | case3 rest c hless heq =>
    cases List.mem_cons.mp hb with
    | inl hb => exact .inl hb
    | inr hb => exact .inr (List.mem_cons_of_mem _ hb)
  | case4 c rest hless hne ih =>
    cases List.mem_cons.mp hb with
    | inl hb => exact .inr (hb ▸ List.mem_cons_self)
    | inr hb => exact (ih hb).imp_right (List.mem_cons_of_mem _)

namespace Packet

variable {m : ExtensionIds} {p q : Packet}

theorem putElement_of_absent {new : Element} {elements : List Element}
    (h : new.ext ∉ elements.map (·.ext)) : putElement new elements = elements ++ [new] := by
  induction elements with
  | nil => rfl
  | cons x rest ih =>
    obtain ⟨hx, hrest⟩ : ¬new.ext = x.ext ∧ new.ext ∉ rest.map (·.ext) := by
      simpa only [List.map_cons, List.mem_cons, not_or] using h
    rw [putElement, if_neg (Ne.symm hx), ih hrest, List.cons_append]

/-- Elements of other extensions stay as they are. -/
theorem filter_putElement (keeps : HeaderExtension → Bool) {new : Element}
    (h : keeps new.ext = false) (elements : List Element) :
    (putElement new elements).filter (fun x => keeps x.ext) =
      elements.filter fun x => keeps x.ext := by
  induction elements with
  | nil => simp [putElement, h]
  | cons x rest ih =>
    by_cases hx : x.ext = new.ext
    · simp [putElement, hx, h]
    · simp only [putElement, hx, if_false, List.filter_cons, ih]

/-- A name that is tried changes nothing, or its own element. -/
theorem elements_tryName (p : Packet) (e : HeaderExtension) (id : StreamId) :
    (p.tryTo (·.withName? e id)).elements = p.elements ∨ ∃ new : Element, new.ext = e ∧
      (p.tryTo (·.withName? e id)).elements = putElement new p.elements := by
  simp only [tryTo]
  cases hq : p.withName? e id with
  | none => exact .inl rfl
  | some q =>
    simp only [withName?, Option.ite_none_left_eq_some] at hq
    obtain ⟨number, -, -, -, -, rfl⟩ := insert_cases hq.2
    exact .inr ⟨⟨number, e, id.octets⟩, rfl, rfl⟩

theorem filter_tryName {e : HeaderExtension} (he : e.isName = true) (p : Packet) (id : StreamId) :
    (p.tryTo (·.withName? e id)).elements.filter (!·.ext.isName) =
      p.elements.filter (!·.ext.isName) := by
  rcases p.elements_tryName e id with hsame | ⟨new, rfl, hput⟩
  · rw [hsame]
  · rw [hput]
    exact filter_putElement (!·.isName) (by simp [he]) p.elements

theorem ext_of_mem_tryName {e : HeaderExtension} {id : StreamId} {x : Element}
    (hx : x ∈ (p.tryTo (·.withName? e id)).elements) :
    x.ext ∈ p.elements.map (·.ext) ∨ x.ext = e := by
  rcases p.elements_tryName e id with hsame | ⟨new, rfl, hput⟩
  · exact .inl (List.mem_map_of_mem (hsame ▸ hx))
  · have hext := List.mem_map_of_mem (f := (·.ext)) (hput ▸ hx)
    rw [map_ext_putElement] at hext
    split at hext
    · exact .inl hext
    · simpa using hext

end Packet

namespace Sender

open Packet

variable {s t : Sender} {m : ExtensionIds} {p q copy : Packet} {elements : List Element}

theorem copyElements_cons (e : Element) (rest : List Element) (p : Packet) :
    copyElements (e :: rest) p =
      if e.isCopied p.extensions then (p.insert? e.ext e.value).bind (copyElements rest)
      else copyElements rest p := by
  have hskipped : (e.ext = .rtpMid ∨ e.ext = .rtpStreamId ∨ (!p.extensions.contains e.ext) = true) ↔
      ¬e.isCopied p.extensions = true := by
    simp only [Element.isCopied, Bool.and_eq_true, bne_iff_ne, Bool.not_eq_true', ne_eq, not_and_or,
      not_not, Bool.not_eq_true, or_assoc]
  rw [copyElements]
  simp only [hskipped, ite_not]
  rfl

/-- What is copied comes in order behind what there was. -/
theorem content_of_copyElements (distinct : (elements.map (·.ext)).Nodup)
    (fresh : ∀ e ∈ elements, e.ext ∉ p.elements.map (·.ext))
    (h : copyElements elements p = some q) :
    q.elements.map Element.content = p.elements.map Element.content ++
      (elements.filter (·.isCopied p.extensions)).map Element.content := by
  induction elements generalizing p with
  | nil =>
    cases h
    simp
  | cons e rest ih =>
    obtain ⟨hnew, hdistinct⟩ := List.nodup_cons.mp distinct
    obtain ⟨he, hfresh⟩ := List.forall_mem_cons.mp fresh
    rw [copyElements_cons] at h
    cases hcopied : e.isCopied p.extensions with
    | false =>
      rw [hcopied, if_neg Bool.false_ne_true] at h
      simpa [List.filter_cons, hcopied] using ih hdistinct hfresh h
    | true =>
      rw [hcopied, if_pos rfl] at h
      obtain ⟨next, hnext, h⟩ := Option.bind_eq_some_iff.mp h
      obtain ⟨id, -, -, -, -, rfl⟩ := insert_cases hnext
      have hput : putElement ⟨id, e.ext, e.value⟩ p.elements = p.elements ++ [_] :=
        putElement_of_absent he
      rw [hput] at h
      have hmore := ih hdistinct (fun x hx => ?_) h
      · simpa [List.filter_cons, hcopied, Element.content] using hmore
      · have hne : x.ext ≠ e.ext := fun heq => hnew (List.mem_map.mpr ⟨x, hx, heq⟩)
        simpa [hne] using hfresh x hx

theorem writable_copyElements (hp : p.Writable m) (h : copyElements elements p = some q) :
    q.Writable m := by
  induction elements generalizing p with
  | nil => exact Option.some.inj h ▸ hp
  | cons e rest ih =>
    rw [copyElements_cons] at h
    split at h
    · obtain ⟨next, hnext, h⟩ := Option.bind_eq_some_iff.mp h
      exact ih (hp.insert hnext) h
    · exact ih hp h

theorem writable_nameRepair (hp : p.Writable m) (s : Sender) : (s.nameRepair p).Writable m := by
  unfold nameRepair
  split
  · have hmid := hp.tryTo (·.withMid? s.mid) fun q hq => hp.withName hq
    exact hmid.tryTo (·.withRepairedRid? s.rid) fun q hq => hmid.withName hq
  · exact hp

theorem filter_nameRepair (s : Sender) (p : Packet) :
    (s.nameRepair p).elements.filter (!·.ext.isName) = p.elements.filter (!·.ext.isName) := by
  unfold nameRepair
  split
  · exact (filter_tryName rfl _ s.rid).trans (filter_tryName rfl p s.mid)
  · rfl

/-- Naming the repair stream is all that brings names into a copy. -/
theorem ext_of_mem_nameRepair {x : Element} (hx : x ∈ (s.nameRepair p).elements) :
    x.ext ∈ p.elements.map (·.ext) ∨
      s.namesOnRepair = true ∧ (x.ext = .rtpMid ∨ x.ext = .repairedRtpStreamId) := by
  unfold nameRepair at hx
  split at hx
  · rename_i hnames
    rcases ext_of_mem_tryName (e := .repairedRtpStreamId) hx with hx | hx
    · obtain ⟨y, hy, hext⟩ := List.mem_map.mp hx
      rcases ext_of_mem_tryName (e := .rtpMid) hy with hy | hy
      · exact .inl (hext ▸ hy)
      · exact .inr ⟨hnames, .inl (hext ▸ hy)⟩
    · exact .inr ⟨hnames, .inr hx⟩
  · exact .inl (List.mem_map_of_mem hx)

structure Wired (s : Sender) : Prop where
  registered : s.extensions.Registered
  types : ∀ b ∈ s.repairTypes, b.2.isValid = true

namespace Wired

theorem of_eq (h : s.Wired) (hextensions : t.extensions = s.extensions)
    (htypes : t.repairTypes = s.repairTypes) : t.Wired :=
  ⟨hextensions ▸ h.registered, htypes ▸ h.types⟩

theorem new (settings : SenderSettings) (archive : Archive)
    (hids : settings.extensions.Registered) : (Sender.new settings archive).Wired :=
  ⟨hids, nofun⟩

theorem resend (h : s.Wired) (low : UInt16) (now : Time) : (s.resend low now).2.Wired := by
  have houtcome := s.outcome_resend low now
  generalize s.resend low now = answer at houtcome ⊢
  cases houtcome with
  | missed | limited | refused | queued => exact h.of_eq rfl rfl

theorem resendAll (h : s.Wired) (now : Time) (lows : List UInt16) :
    (s.resendAll now lows).Wired := by
  induction lows generalizing s with
  | nil => exact h
  | cons low rest ih =>
    rw [resendAll_cons]
    split
    · exact h.resend low now
    · exact ih (h.resend low now)

theorem setRepairType (h : s.Wired) (media repair : PayloadType) :
    (s.setRepairType media repair).Wired := by
  unfold Sender.setRepairType
  split
  · rename_i hvalid
    refine ⟨h.registered, fun b hb => ?_⟩
    cases RepairTypes.mem_put hb with
    | inl heq => exact heq ▸ (Bool.and_eq_true_iff.mp hvalid).2
    | inr hold => exact h.types b hold
  · exact h

theorem insertExtension (h : s.Wired) (uri : String) (id : UInt8) :
    (s.insertExtension uri id).2.Wired := by
  unfold Sender.insertExtension
  cases hinserted : s.extensions.insertUri? id uri with
  | none => exact h.of_eq rfl rfl
  | some extensions =>
    obtain ⟨e, -, he⟩ := Option.bind_eq_some_iff.mp hinserted
    exact ⟨.insert id e h.registered he, h.types⟩

/-- One operation, refused or not. -/
theorem perform (h : s.Wired) (op : Operation) : (s.perform op).Wired := by
  cases op with
  | insertExtension uri id => exact h.insertExtension uri id
  | eraseExtension uri => exact ⟨h.registered.erase uri, h.types⟩
  | setMixed on => exact ⟨h.registered.mixed on, h.types⟩
  | setRepairType media repair => exact h.setRepairType media repair
  | resend low now => exact h.resend low now
  | lost lows rtt now =>
    have hrtt : Wired { s with archive := s.archive.setRtt (lossMargin + rtt) } := h.of_eq rfl rfl
    exact hrtt.resendAll now lows
  | pad target mediaSent onMedia now =>
    have hsame := SameButNumbers.makePadding s target mediaSent onMedia now
    exact h.of_eq (congrArg Sender.extensions hsame :) (congrArg Sender.repairTypes hsame :)
  | setMid | ack | ackRepair | setState | setRepairState | setRepairRate | setSending | enqueue
    | pace | share => exact h.of_eq rfl rfl
  | setSources | setRepairMode | setMaxPacketSize | assign | sent =>
    refine h.of_eq ?_ ?_
    all_goals
      simp only [Sender.perform, Sender.setSources, Sender.setRepairMode,
        Sender.setMaxPacketSize, assignNumber, onSent]
      repeat' split
      all_goals rfl

theorem performAll (h : s.Wired) (ops : List Operation) : (s.performAll ops).Wired := by
  induction ops generalizing s with
  | nil => exact h
  | cons op rest ih => exact ih (h.perform op)

theorem of_lookup (h : s.Wired) {media repair : PayloadType}
    (hlookup : s.repairTypes.lookup media = some repair) : repair.isValid = true := by
  obtain ⟨before, after, htypes, -⟩ := List.lookup_eq_some_iff.mp hlookup
  have hmem : (media, repair) ∈ s.repairTypes := by
    rw [htypes]
    exact List.mem_append_right before List.mem_cons_self
  exact h.types _ hmem

end Wired

theorem writable_repairHeader (s : Sender) (p : Packet) (ssrc : Ssrc) (payloadType : PayloadType) :
    (s.repairHeader p ssrc payloadType).Writable s.extensions ∧
      (s.repairHeader p ssrc payloadType).elements = [] := by
  have hnew : Packet.Writable s.extensions
      { extensions := s.extensions, capacity := s.maxPacketSize, ssrc } :=
    { Packet.writable_new s.extensions s.maxPacketSize with }
  have htyped := hnew.change (.payloadType payloadType)
  obtain ⟨type, hbegun⟩ := s.repairHeader_eq p ssrc payloadType
  exact ⟨{ htyped with }, by rw [hbegun]⟩

theorem writable_repairCopy (h : s.repairCopy? p = some copy) : copy.Writable s.extensions := by
  obtain ⟨ssrc, payloadType, sourced, copied, -, -, -, hsourced, hcopied, hpayload⟩ :=
    repairCopy_steps h
  have hheader := (s.writable_repairHeader p ssrc payloadType).1
  have hsources : sourced.Writable s.extensions := by
    simpa [Packet.change, Packet.tryTo, hsourced] using hheader.change (.sources p.sources)
  have hnamed := writable_nameRepair (writable_copyElements hsources hcopied) s
  simpa [Packet.change, Packet.tryTo, hpayload] using
    hnamed.change (.payload (Octets.ofWord16 p.sequenceNumber ++ p.payload))

def wrap (s : Sender) (p : Packet) : Option Packet × Sender :=
  match s.repairCopy? p with
  | none => (none, s)
  | some copy => (some copy, s.advanceRepair)

theorem repetition?_eq_wrap (h : s.repairMode.retransmitted = true) (p : Packet) :
    s.repetition? p = (s.wrap p).1.map (·, (s.wrap p).2) := by
  unfold repetition? wrap
  rw [if_pos h]
  cases s.repairCopy? p <;> rfl

/-- One packet tells of the other all that can be told by the ids the sender has. -/
structure Rebuilds (s : Sender) (p q : Packet) : Prop where
  stream : s.repairSsrc = some q.ssrc
  payloadType : s.repairTypes.lookup p.payloadType = some q.payloadType
  marker : q.marker = p.marker
  timestamp : q.timestamp = p.timestamp
  sources : q.sources = p.sources
  number : Repair.repeatedNumber? q.payload = some p.sequenceNumber
  payload : q.payload.drop Repair.headerSize = p.payload
  elements : (q.elements.filter (!·.ext.isName)).map Element.content =
    (p.elements.filter fun e => !e.ext.isName && s.extensions.contains e.ext).map Element.content
  rid : ∀ e ∈ q.elements, e.ext ≠ .rtpStreamId
  mid : ∀ e ∈ q.elements, e.ext = .rtpMid → s.alwaysNames = true ∨ s.repairAcked = false

/-- What a copy has to begin with is what the packet has, but for names and for extensions that have
no id any more. -/
theorem content_copied (distinct : (p.elements.map (·.ext)).Nodup) {ssrc : Ssrc}
    {payloadType : PayloadType} {sourced copied : Packet}
    (hsourced : (s.repairHeader p ssrc payloadType).withSources? p.sources = some sourced)
    (hcopied : copyElements p.elements sourced = some copied) :
    copied.elements.map Element.content =
      (p.elements.filter (·.isCopied s.extensions)).map Element.content := by
  obtain ⟨hwritable, hbare⟩ := s.writable_repairHeader p ssrc payloadType
  rw [eq_of_withSources hsourced] at hcopied
  have hcontent := content_of_copyElements distinct (by simp [hbare]) hcopied
  simpa [hbare, hwritable.extensions] using hcontent

theorem elements_repairCopy (distinct : (p.elements.map (·.ext)).Nodup)
    (h : s.repairCopy? p = some copy) :
    (copy.elements.filter (!·.ext.isName)).map Element.content =
      (p.elements.filter fun e => !e.ext.isName && s.extensions.contains e.ext).map
        Element.content := by
  obtain ⟨_, _, sourced, copied, -, -, -, hsourced, hcopied, hpayload⟩ := repairCopy_steps h
  have hcontent := content_copied distinct hsourced hcopied
  have helements : copy.elements = (s.nameRepair copied).elements := by
    rw [eq_of_withPayload hpayload]
  have hother (e : Element) : (!e.ext.isName && e.isCopied s.extensions) =
      (!e.ext.isName && s.extensions.contains e.ext) := by
    unfold Element.isCopied
    cases e.ext <;> rfl
  calc (copy.elements.filter (!·.ext.isName)).map Element.content
      = (copied.elements.filter (!·.ext.isName)).map Element.content := by
        rw [helements, filter_nameRepair]
    _ = (copied.elements.map Element.content).filter (!·.1.isName) := by
        rw [List.filter_map]
        rfl
    _ = ((p.elements.filter (·.isCopied s.extensions)).filter (!·.ext.isName)).map
          Element.content := by
        rw [hcontent, List.filter_map]
        rfl
    _ = _ := by
        rw [List.filter_filter]
        simp only [hother]

/-- The names in a copy are those that the repair stream has to carry. -/
theorem names_repairCopy (distinct : (p.elements.map (·.ext)).Nodup)
    (h : s.repairCopy? p = some copy) {e : Element} (he : e ∈ copy.elements) :
    e.ext ≠ .rtpStreamId ∧ (e.ext = .rtpMid → s.alwaysNames = true ∨ s.repairAcked = false) := by
  obtain ⟨_, _, sourced, copied, -, -, -, hsourced, hcopied, hpayload⟩ := repairCopy_steps h
  have hcontent := content_copied distinct hsourced hcopied
  have hexts : copied.elements.map (·.ext) =
      (p.elements.filter (·.isCopied s.extensions)).map (·.ext) := by
    simpa [Element.content, Function.comp_def] using congrArg (List.map Prod.fst) hcontent
  have hmem : e ∈ (s.nameRepair copied).elements := by
    rw [eq_of_withPayload hpayload] at he
    exact he
  rcases ext_of_mem_nameRepair hmem with hold | ⟨hnames, hname⟩
  · rw [hexts] at hold
    obtain ⟨x, hx, hext⟩ := List.mem_map.mp hold
    have hcopied := (List.mem_filter.mp hx).2
    simp only [Element.isCopied, Bool.and_eq_true, bne_iff_ne, hext] at hcopied
    exact ⟨hcopied.1.2, fun hmid => absurd hmid hcopied.1.1⟩
  · have hallowed : s.alwaysNames = true ∨ s.repairAcked = false := by
      simpa [namesOnRepair] using hnames
    refine ⟨?_, fun _ => hallowed⟩
    rcases hname with hname | hname <;> simp [hname]

/-- The octets of a copy are read under the ids it was made with. -/
theorem rebuilds_repairCopy (hs : s.Wired) (distinct : (p.elements.map (·.ext)).Nodup)
    (h : s.repairCopy? p = some copy) :
    ∃ q, ofOctets? s.extensions copy.toOctets = some q ∧ s.Rebuilds p q := by
  have hwritable := writable_repairCopy h
  have hread := (hwritable.legible hs.registered).ofOctets?_toOctets s.extensions
  rw [hwritable.readAs_self hs.registered] at hread
  obtain ⟨ssrc, payloadType, -, hssrc, htype, hcopy⟩ := repairCopy_eq h
  have hstream := repairSsrc_of_repairCopy h
  have hpayloadType : copy.payloadType = payloadType := by
    rw [hcopy]
    simp [repairHeader, withPayloadType, hs.of_lookup htype]
  have hpayload := payload_of_repairCopy h
  have helements := elements_repairCopy distinct h
  refine ⟨_, hread, {
    stream := hstream
    payloadType := hpayloadType ▸ htype
    marker := (congrArg Packet.marker hcopy :)
    timestamp := (congrArg Packet.timestamp hcopy :)
    sources := (congrArg Packet.sources hcopy :)
    number := ?_
    payload := ?_
    elements := helements
    rid := fun e he => (names_repairCopy distinct h he).1
    mid := fun e he => (names_repairCopy distinct h he).2 }⟩
  · simp only [hpayload, Repair.repeatedNumber?_ofWord16_append]
  · simp [hpayload, Octets.ofWord16, Repair.headerSize]

/-- Lost packets are wrapped to be sent again. A packet that the sender began at some time, whatever
was done to it and to the sender after that, is either not wrapped, which changes nothing, or it is
wrapped under the next number of the repair stream, in a packet no larger than the sender allows,
and read under the ids that the sender has, the octets of that packet tell all of the first one that
these ids allow. -/
theorem wrap_rebuilds (settings : SenderSettings) (hids : settings.extensions.Registered)
    (archive : Archive) (before later : List Operation) (changes : List PacketChange) :
    let s := (new settings archive).performAll before
    let p := changes.foldl Packet.change s.allocate
    let t := s.performAll later
    (t.repairMode.retransmitted = true →
        t.repetition? p = (t.wrap p).1.map (·, (t.wrap p).2)) ∧
      ((t.wrap p).1 = none → (t.wrap p).2 = t) ∧
      ∀ r, (t.wrap p).1 = some r →
        (t.wrap p).2 = { t with repairNumber := t.repairNumber + 1 } ∧
          r.sequenceNumber = t.repairNumber ∧ r.size ≤ t.maxPacketSize ∧
          ∃ q, ofOctets? t.extensions r.toOctets = some q ∧ t.Rebuilds p q := by
  intro s p t
  have ht : t.Wired := ((Wired.new settings archive hids).performAll before).performAll later
  have hp : p.Writable s.extensions := s.listed_allocate.toWritable.foldl_change changes
  refine ⟨fun hmode => repetition?_eq_wrap hmode p, ?_⟩
  unfold wrap
  cases h : t.repairCopy? p with
  | none => exact ⟨fun _ => rfl, nofun⟩
  | some copy =>
    refine ⟨nofun, fun r hr => ?_⟩
    cases hr
    exact ⟨rfl, sequenceNumber_of_repairCopy h, (room_repairCopy h).1,
      rebuilds_repairCopy ht hp.distinct h⟩

/-- The audio level lost its id before the packet was wrapped, and the sending time has another. -/
theorem wrap_rebuilds_renumbered :
    let ids : ExtensionIds := { bindings := [(2, .absoluteSendTime), (4, .audioLevel)] }
    let settings : SenderSettings :=
      { repairedSettings with extensions := ids, mid := .ofString "a" }
    let p := [PacketChange.payloadType 96, .marker true, .insert .audioLevel [9],
      .payload [1, 2, 3]].foldl Packet.change (new settings (.new true 10)).allocate
    let t := (new settings (.new true 10)).performAll
      [.setRepairType 96 97, .eraseExtension HeaderExtension.audioLevel.uri,
        .eraseExtension HeaderExtension.absoluteSendTime.uri,
        .insertExtension HeaderExtension.rtpMid.uri 1,
        .insertExtension HeaderExtension.absoluteSendTime.uri 5]
    ids.Registered ∧ p.elements = [⟨2, .absoluteSendTime, [0, 0, 0]⟩, ⟨4, .audioLevel, [9]⟩] ∧
      ∃ r q, (t.wrap p).1 = some r ∧ ofOctets? t.extensions r.toOctets = some q ∧
        q.elements = [⟨5, .absoluteSendTime, [0, 0, 0]⟩, ⟨1, .rtpMid, [97]⟩] ∧ t.Rebuilds p q ∧
        (t.wrap p).2 = { t with repairNumber := 71 } := by
  intro ids settings p t
  have hids : ids.Registered :=
    .insert 4 .audioLevel (.insert 2 .absoluteSendTime .empty rfl) rfl
  obtain ⟨-, -, hwrapped⟩ := wrap_rebuilds settings hids (.new true 10) []
    [.setRepairType 96 97, .eraseExtension HeaderExtension.audioLevel.uri,
      .eraseExtension HeaderExtension.absoluteSendTime.uri,
      .insertExtension HeaderExtension.rtpMid.uri 1,
      .insertExtension HeaderExtension.absoluteSendTime.uri 5]
    [.payloadType 96, .marker true, .insert .audioLevel [9], .payload [1, 2, 3]]
  obtain ⟨r, hr⟩ : ∃ r, (t.wrap p).1 = some r := Option.isSome_iff_exists.mp (by decide +kernel)
  obtain ⟨hafter, -, -, q, hq, hrebuilds⟩ := hwrapped r hr
  replace hq : ofOctets? t.extensions r.toOctets = some q := hq
  have helements : ((t.wrap p).1.bind fun r => ofOctets? t.extensions r.toOctets).map
      (·.elements) = some [⟨5, .absoluteSendTime, [0, 0, 0]⟩, ⟨1, .rtpMid, [97]⟩] := by
    decide +kernel
  rw [hr, Option.bind_some, hq, Option.map_some] at helements
  exact ⟨hids, by decide +kernel, r, q, hr, hq, Option.some.inj helements, hrebuilds, hafter⟩

end Sender
end LayeredRtp
