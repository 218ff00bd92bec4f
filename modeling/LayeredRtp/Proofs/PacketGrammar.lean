import LayeredRtp.Proofs.PositionalReading

/-! The grammar of packets, part by part in the order on the wire. Reading accepts exactly the
octets that it allows, under any ids, and gives the parts that they spell. -/
namespace LayeredRtp

namespace Octets

variable {a b c d : UInt8} {s head rest : Octets} {n : Nat}

theorem ofWord16_word16 (a b : UInt8) : ofWord16 (word16 a b) = [a, b] := by
  have ha := a.toNat_lt
  have hb := b.toNat_lt
  simp only [ofWord16, word16, List.cons.injEq, and_true, ← UInt8.toNat_inj,
    UInt8.toNat_ofNat', UInt16.toNat_ofNat']
  omega

theorem ofWord32_word32 (a b c d : UInt8) : ofWord32 (word32 a b c d) = [a, b, c, d] := by
  have ha := a.toNat_lt
  have hb := b.toNat_lt
  have hc := c.toNat_lt
  have hd := d.toNat_lt
  simp only [ofWord32, word32, List.cons.injEq, and_true, ← UInt8.toNat_inj,
    UInt8.toNat_ofNat', UInt32.toNat_ofNat']
  omega

theorem takeWords32_eq_some_iff {words : List UInt32} :
    takeWords32 n s = some (words, rest) ↔
      words.length = n ∧ s = words.flatMap ofWord32 ++ rest := by
  constructor
  · intro h
    fun_induction takeWords32 n s generalizing words rest with
    | case1 =>
      cases h
      exact ⟨rfl, rfl⟩
    | case2 n a b c d tail ih =>
      obtain ⟨⟨more, after⟩, hmore, h⟩ := Option.bind_eq_some_iff.mp h
      cases h
      obtain ⟨hcount, rfl⟩ := ih hmore
      exact ⟨by rw [List.length_cons, hcount], by simp [ofWord32_word32]⟩
    | case3 => cases h
  · rintro ⟨rfl, rfl⟩
    exact takeWords32_flatMap words rest

theorem splitAt?_eq_some_iff :
    splitAt? n s = some (head, rest) ↔ head.length = n ∧ s = head ++ rest := by
  rw [splitAt?, Option.ite_none_right_eq_some, Option.some.injEq, Prod.mk.injEq]
  constructor
  · rintro ⟨hle, rfl, rfl⟩
    exact ⟨by rw [List.length_take, Nat.min_eq_left hle], (List.take_append_drop n s).symm⟩
  · rintro ⟨rfl, rfl⟩
    exact ⟨by simp, List.take_left, List.drop_left⟩

end Octets

inductive ElementForm.Announces : ElementForm → UInt8 → UInt8 → Prop
  | oneByte : Announces .oneByte 0xBE 0xDE
  | twoByte {free : UInt8} (bits : free.toNat < 16) : Announces .twoByte 0x10 free

inductive SpellsBlock : Octets → List RawElement → Prop
  | block {form : ElementForm} {a b : UInt8} (words : UInt16) {content : Octets}
      {elements : List RawElement} (mark : form.Announces a b)
      (length : content.length = words.toNat * 4) (spelled : form.Spells content elements) :
      SpellsBlock (a :: b :: (Octets.ofWord16 words ++ content)) elements

inductive SpellsPadding : Octets → Nat → Prop
  | padding (filler : Octets) (count : UInt8) (all : count.toNat = filler.length + 1) :
      SpellsPadding (filler ++ [count]) count.toNat

namespace Packet

structure Parts where
  marker : Bool
  payloadType : PayloadType
  sequenceNumber : UInt16
  timestamp : UInt32
  ssrc : Ssrc
  sources : List Ssrc
  elements : List RawElement
  payload : Octets
  padding : Nat
deriving DecidableEq, Repr

/-- The octets hold the parts one after another. The first octet tells the version, whether there
is a block and padding, and the number of sources; the second one the marker and payload type. -/
inductive Parts.Spelled (p : Parts) : Octets → Prop
  | spelled (flags kind : UInt8) {block padding : Octets}
      (version : flags.toNat / 64 = 2)
      (sources : p.sources.length = flags.toNat % 16)
      (elements : if flags.toNat / 16 % 2 = 1 then SpellsBlock block p.elements
        else block = [] ∧ p.elements = [])
      (ending : if flags.toNat / 32 % 2 = 1 then SpellsPadding padding p.padding
        else padding = [] ∧ p.padding = 0)
      (marker : p.marker = decide (kind.toNat / 128 = 1))
      (payloadType : p.payloadType.toNat = kind.toNat % 128) :
      Spelled p (flags :: kind :: (Octets.ofWord16 p.sequenceNumber ++
        (Octets.ofWord32 p.timestamp ++ (Octets.ofWord32 p.ssrc ++
          (p.sources.flatMap Octets.ofWord32 ++ (block ++ (p.payload ++ padding)))))))

def Parts.packet (p : Parts) (m : ExtensionIds) (capacity : Nat) : Packet where
  extensions := m
  capacity := capacity
  marker := p.marker
  payloadType := p.payloadType
  sequenceNumber := p.sequenceNumber
  timestamp := p.timestamp
  ssrc := p.ssrc
  sources := p.sources
  elements := p.elements.filterMap (RawElement.named? m)
  payload := p.payload
  padding := p.padding

variable {m : ExtensionIds} {s rest payload : Octets} {n : Nat}

theorem ofMark?_eq_some_iff {form : ElementForm} {a b : UInt8} :
    ElementForm.ofMark? a b = some form ↔ form.Announces a b := by
  unfold ElementForm.ofMark?
  constructor
  · intro h
    split at h
    · rename_i hone
      obtain ⟨rfl, rfl⟩ := hone
      cases h
      exact .oneByte
    · split at h
      · rename_i htwo
        obtain ⟨rfl, hbits⟩ := htwo
        cases h
        exact .twoByte hbits
      · cases h
  · intro h
    cases h with
    | oneByte => rfl
    | twoByte bits => simp [bits]

theorem readBlock_eq_some_iff (hm : m.extension? 0 = none) {elements : List Element} :
    readBlock m s = some (elements, rest) ↔
      ∃ block raw, s = block ++ rest ∧ SpellsBlock block raw ∧
        elements = raw.filterMap (RawElement.named? m) := by
  constructor
  · intro h
    unfold readBlock at h
    split at h
    · rename_i a b c d tail
      simp only [bind, Option.bind_eq_some_iff, Prod.exists, pure, Option.some.injEq,
        Prod.mk.injEq] at h
      obtain ⟨form, hmark, content, after, hsplit, read, hread, rfl, rfl⟩ := h
      obtain ⟨hlength, rfl⟩ := Octets.splitAt?_eq_some_iff.mp hsplit
      obtain ⟨raw, hraw, rfl⟩ := (readElements_eq_some_iff hm).mp hread
      refine ⟨_, raw, ?_, .block _ (ofMark?_eq_some_iff.mp hmark) hlength hraw, rfl⟩
      simp [Octets.ofWord16_word16]
    · cases h
  · rintro ⟨_, raw, rfl, hblock, rfl⟩
    cases hblock with
    | @block form a b words content _ mark length spelled =>
      have hsplit : Octets.splitAt? (words.toNat * 4) (content ++ rest) = some (content, rest) :=
        Octets.splitAt?_eq_some_iff.mpr ⟨length, rfl⟩
      have hread : readElements form m content = some (raw.filterMap (RawElement.named? m)) :=
        readElements_of_spells hm spelled
      have hword := Octets.word16_ofWord16 words
      simp only [Octets.ofWord16, List.cons_append, List.nil_append, readBlock,
        ofMark?_eq_some_iff.mpr mark, bind, Option.bind, hword, hsplit, hread, pure]

theorem readPadding_eq_some_iff :
    readPadding s = some (payload, n) ↔
      ∃ padding, s = payload ++ padding ∧ SpellsPadding padding n := by
  constructor
  · intro h
    unfold readPadding at h
    split at h
    · cases h
    · rename_i count hlast
      rw [Option.ite_none_left_eq_some, Option.some.injEq, Prod.mk.injEq] at h
      obtain ⟨hcount, rfl, rfl⟩ := h
      have hpos : count.toNat ≠ 0 := fun h0 => hcount (.inl (UInt8.toNat_inj.mp h0))
      have hroom : count.toNat ≤ s.length := Nat.le_of_not_lt fun hlt => hcount (.inr hlt)
      obtain ⟨front, rfl⟩ := List.getLast?_eq_some_iff.mp hlast
      -- The count is the last octet of the padding, so the filler ends where the front does.
      let k := front.length + 1 - count.toNat
      have hlength : (front ++ [count]).length = front.length + 1 := by simp
      rw [hlength] at hroom ⊢
      have hfiller : count.toNat = (front.drop k).length + 1 := by
        rw [List.length_drop]
        omega
      refine ⟨front.drop k ++ [count], ?_, .padding _ count hfiller⟩
      rw [List.take_append_of_le_length (by omega), ← List.append_assoc, List.take_append_drop]
  · rintro ⟨_, rfl, hpadding⟩
    cases hpadding with
    | @padding filler count all =>
      have hlast : (payload ++ (filler ++ [count])).getLast? = some count := by simp
      have hlength : (payload ++ (filler ++ [count])).length = payload.length + count.toNat := by
        simp [all]
      have hpos : count ≠ 0 := by
        rintro rfl
        simp at all
      simp only [readPadding, hlast, hpos, hlength, false_or]
      rw [if_neg (by omega), Nat.add_sub_cancel, List.take_left]

/-- What follows the fixed header. -/
theorem readBody_eq_some_iff (hm : m.extension? 0 = none) {flags : UInt8} {sources : List Ssrc}
    {elements : List Element} :
    readBody m flags s = some (sources, elements, payload, n) ↔
      ∃ block padding raw, s = sources.flatMap Octets.ofWord32 ++ (block ++ (payload ++ padding)) ∧
        sources.length = flags.toNat % 16 ∧
        (if flags.toNat / 16 % 2 = 1 then SpellsBlock block raw else block = [] ∧ raw = []) ∧
        (if flags.toNat / 32 % 2 = 1 then SpellsPadding padding n else padding = [] ∧ n = 0) ∧
        elements = raw.filterMap (RawElement.named? m) := by
  have hblock (s rest : Octets) (elements : List Element) :
      (if flags.toNat / 16 % 2 = 1 then readBlock m s else some ([], s)) = some (elements, rest) ↔
        ∃ block raw, s = block ++ rest ∧
          (if flags.toNat / 16 % 2 = 1 then SpellsBlock block raw else block = [] ∧ raw = []) ∧
          elements = raw.filterMap (RawElement.named? m) := by
    split
    · exact readBlock_eq_some_iff hm
    · simp [eq_comm, and_comm]
  have hending (s payload : Octets) (n : Nat) :
      (if flags.toNat / 32 % 2 = 1 then readPadding s else some (s, 0)) = some (payload, n) ↔
        ∃ padding, s = payload ++ padding ∧
          if flags.toNat / 32 % 2 = 1 then SpellsPadding padding n else padding = [] ∧ n = 0 := by
    split
    · exact readPadding_eq_some_iff
    · simp [eq_comm]
  simp only [readBody_eq, Option.bind_eq_some_iff, Prod.exists, Option.some.injEq, Prod.mk.injEq,
    Octets.takeWords32_eq_some_iff, hblock, hending]
  constructor
  · rintro ⟨_, _, ⟨hcount, rfl⟩, _, _, ⟨block, raw, rfl, hspelled, rfl⟩, _, _,
      ⟨padding, rfl, hpadding⟩, rfl, rfl, rfl, rfl⟩
    exact ⟨block, padding, raw, rfl, hcount, hspelled, hpadding, rfl⟩
  · rintro ⟨block, padding, raw, rfl, hcount, hspelled, hpadding, rfl⟩
    exact ⟨_, _, ⟨hcount, rfl⟩, _, _, ⟨block, raw, rfl, hspelled, rfl⟩, _, _,
      ⟨padding, rfl, hpadding⟩, rfl, rfl, rfl, rfl⟩

/-- Reading accepts exactly the octets that spell some parts, and gives the packet of those. -/
theorem ofOctets?_eq_some_iff (hm : m.extension? 0 = none) {p : Packet} :
    ofOctets? m s = some p ↔ ∃ parts : Parts, parts.Spelled s ∧ p = parts.packet m s.length := by
  constructor
  · intro h
    unfold ofOctets? at h
    split at h
    · rename_i flags kind s0 s1 t0 t1 t2 t3 r0 r1 r2 r3 body
      split at h
      · rename_i hversion
        obtain ⟨⟨sources, elements, payload, padding⟩, hbody, h⟩ := Option.bind_eq_some_iff.mp h
        obtain ⟨block, ending, raw, rfl, hcount, hblock, hending, rfl⟩ :=
          (readBody_eq_some_iff hm).mp hbody
        have hkind := kind.toNat_lt
        let parts : Parts := {
          marker := kind.toNat / 128 = 1
          payloadType := UInt8.ofNat (kind.toNat % 128)
          sequenceNumber := Octets.word16 s0 s1
          timestamp := Octets.word32 t0 t1 t2 t3
          ssrc := Octets.word32 r0 r1 r2 r3
          sources, elements := raw, payload, padding }
        have hspelled : parts.Spelled _ :=
          .spelled flags kind hversion hcount hblock hending rfl (by
            simp only [parts, UInt8.toNat_ofNat']
            omega)
        simp only [parts, Octets.ofWord16_word16, Octets.ofWord32_word32, List.cons_append,
          List.nil_append] at hspelled
        exact ⟨parts, hspelled, (Option.some.inj h).symm⟩
      · cases h
    · cases h
  · rintro ⟨parts, hspelled, rfl⟩
    cases hspelled with
    | @spelled flags kind block padding version sources elements ending marker payloadType =>
      have hbody : readBody m flags (parts.sources.flatMap Octets.ofWord32 ++
          (block ++ (parts.payload ++ padding))) = some (parts.sources,
            parts.elements.filterMap (RawElement.named? m), parts.payload, parts.padding) :=
        (readBody_eq_some_iff hm).mpr
          ⟨block, padding, parts.elements, rfl, sources, elements, ending, rfl⟩
      have htype : UInt8.ofNat (kind.toNat % 128) = parts.payloadType := by
        rw [← payloadType, UInt8.ofNat_toNat]
      simp only [Octets.ofWord16, Octets.ofWord32, List.cons_append, List.nil_append, ofOctets?,
        version, if_true, hbody, bind, Option.bind, pure, Octets.word16_ofWord16,
        Octets.word32_ofWord32, htype, ← marker, Parts.packet]

/-- Reading never asks for a place outside the octets. It accepts exactly those that the grammar
allows, whatever ids are registered, and gives the parts that they spell, with the elements that
have registered ids. -/
theorem reads_exactly_grammar (hm : m.Registered) (s : Octets) :
    (fromPositions m s ≠ .error .outOfRange ∧ (fromPositions m s).toOption = ofOctets? m s) ∧
      ((∃ p, ofOctets? m s = some p) ↔ ∃ parts : Parts, parts.Spelled s) ∧
      ∀ parts : Parts, parts.Spelled s → ofOctets? m s = some (parts.packet m s.length) := by
  have hread (parts : Parts) (h : parts.Spelled s) :
      ofOctets? m s = some (parts.packet m s.length) :=
    (ofOctets?_eq_some_iff hm.extension?_zero).mpr ⟨parts, h, rfl⟩
  refine ⟨?_, ⟨?_, ?_⟩, hread⟩
  · rw [fromPositions_eq]
    cases ofOctets? m s <;> exact ⟨nofun, rfl⟩
  · rintro ⟨p, hp⟩
    obtain ⟨parts, hparts, -⟩ := (ofOctets?_eq_some_iff hm.extension?_zero).mp hp
    exact ⟨parts, hparts⟩
  · rintro ⟨parts, hparts⟩
    exact ⟨_, hread parts hparts⟩

/-- An element without an id, a registered one, and the reserved id, with a source in front of the
block and padding behind the payload. -/
theorem reads_exactly_grammar_reserved :
    let m : ExtensionIds := { bindings := [(4, .rtpMid)] }
    let s : Octets := [0xB1, 0xE0, 0, 7, 0, 0, 0, 1, 0, 0, 0, 2, 0, 0, 0, 3,
      0xBE, 0xDE, 0, 2, 0x02, 9, 9, 9, 0x40, 97, 0xF0, 0xFF, 5, 6, 0, 0, 3]
    let parts : Parts := {
      marker := true, payloadType := 96, sequenceNumber := 7, timestamp := 1, ssrc := 2
      sources := [3], elements := [⟨4, [97]⟩], payload := [5, 6], padding := 3 }
    m.Registered ∧ parts.Spelled s ∧ ofOctets? m s = some (parts.packet m 33) := by
  intro m s parts
  have hm : m.Registered := .insert 4 .rtpMid .empty rfl
  have helements : ElementForm.Spells .oneByte [0x02, 9, 9, 9, 0x40, 97, 0xF0, 0xFF]
      parts.elements :=
    .unnamed [9, 9, 9] rfl (by decide) rfl
      (.short [97] (by decide) (by decide) rfl (.last [0xFF] rfl))
  have hspelled : parts.Spelled s := by
    have hparts := Parts.Spelled.spelled (p := parts) 0xB1 0xE0 rfl rfl
      (SpellsBlock.block 2 .oneByte rfl helements) (SpellsPadding.padding [0, 0] 3 rfl) rfl rfl
    simpa [parts, Octets.ofWord16, Octets.ofWord32] using hparts
  exact ⟨hm, hspelled, (reads_exactly_grammar hm s).2.2 parts hspelled⟩

end Packet
end LayeredRtp
