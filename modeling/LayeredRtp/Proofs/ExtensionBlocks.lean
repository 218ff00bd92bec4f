import LayeredRtp.Packet.Wire

/-! Reading back the extension block of a packet. Writer and reader agree on the form, on the
length in words and on the zeros at the end, whatever elements share the block. -/
namespace LayeredRtp

structure ElementForm.Holds (form : ElementForm) (e : Element) : Prop where
  id : 1 ≤ e.id.toNat
  value : e.value.length ≤ 255
  oneByte : form = .oneByte → BlockShape.needsTwoByte e.id e.value.length = false

def Element.readAs? (m : ExtensionIds) (e : Element) : Option Element :=
  (m.extension? e.id).map fun ext => { e with ext }

namespace Packet

theorem readElements_zeros (form : ElementForm) (m : ExtensionIds) (n : Nat) :
    readElements form m (List.replicate n 0) = some [] := by
  induction n with
  | zero => simp [readElements]
  | succ n ih =>
    rw [List.replicate_succ, readElements]
    simpa using ih

/-- The first octet of an element, and what reading its head gives. -/
theorem readHead_write {form : ElementForm} {e : Element} (h : form.Holds e) (rest : Octets) :
    ∃ b s, writeElement form e ++ rest = b :: s ∧ b ≠ 0 ∧
      readHead form b s = .element e.id e.value.length (e.value ++ rest) := by
  obtain ⟨hid, hvalue, hone⟩ := h
  have hid255 := e.id.toNat_lt
  cases form with
  | oneByte =>
    have hneeds := hone rfl
    simp only [BlockShape.needsTwoByte, Bool.or_eq_false_iff, decide_eq_false_iff_not,
      Nat.not_lt, beq_eq_false_iff_ne] at hneeds
    obtain ⟨⟨hmax, hne⟩, hlen⟩ := hneeds
    have hb : (UInt8.ofNat (e.id.toNat * 16 + (e.value.length - 1))).toNat =
        e.id.toNat * 16 + (e.value.length - 1) := by
      rw [UInt8.toNat_ofNat']
      omega
    refine ⟨_, e.value ++ rest, rfl, fun h0 => ?_, ?_⟩
    · rw [h0] at hb
      simp only [UInt8.toNat_zero] at hb
      omega
    · have hdiv : (e.id.toNat * 16 + (e.value.length - 1)) / 16 = e.id.toNat := by omega
      have hmod : (e.id.toNat * 16 + (e.value.length - 1)) % 16 + 1 = e.value.length := by omega
      simp only [readHead, hb, hdiv, hmod, UInt8.ofNat_toNat]
      rw [if_neg (by omega)]
  | twoByte =>
    refine ⟨e.id, UInt8.ofNat e.value.length :: (e.value ++ rest), rfl, fun h0 => ?_, ?_⟩
    · rw [h0] at hid
      simp at hid
    · have hlen : (UInt8.ofNat e.value.length).toNat = e.value.length := by
        rw [UInt8.toNat_ofNat']
        omega
      simp only [readHead, hlen]

theorem readElements_write {form : ElementForm} {e : Element} (h : form.Holds e)
    (m : ExtensionIds) (rest : Octets) {more : List Element}
    (hrest : readElements form m rest = some more) :
    readElements form m (writeElement form e ++ rest) = some ((e.readAs? m).toList ++ more) := by
  obtain ⟨b, s, hs, hb, hhead⟩ := readHead_write h rest
  rw [hs, readElements, if_neg hb]
  split
  · rename_i heq
    rw [hhead] at heq
    cases heq
  · rename_i heq
    rw [hhead] at heq
    cases heq
  · rename_i id n body heq
    rw [hhead, Head.element.injEq] at heq
    obtain ⟨rfl, rfl, rfl⟩ := heq
    have hlen : ¬(e.value ++ rest).length < e.value.length := by simp
    rw [if_neg hlen, List.drop_left, List.take_left, hrest]
    cases hext : m.extension? e.id <;> simp [Element.readAs?, hext]

/-- The elements of a block are read back in order, up to the zeros at its end. -/
theorem readElements_flatMap {form : ElementForm} {elements : List Element}
    (h : ∀ e ∈ elements, form.Holds e) (m : ExtensionIds) (n : Nat) :
    readElements form m (elements.flatMap (writeElement form) ++ List.replicate n 0) =
      some (elements.filterMap (Element.readAs? m)) := by
  induction elements with
  | nil => simpa using readElements_zeros form m n
  | cons e rest ih =>
    have ih := ih fun x hx => h x (by simp [hx])
    rw [List.flatMap_cons, List.append_assoc, readElements_write (h e (by simp)) m _ ih]
    cases hread : e.readAs? m <;> simp [hread]

end Packet

namespace BlockShape

theorem length_content (form : ElementForm) (elements : List Element) :
    (elements.flatMap (Packet.writeElement form)).length =
      (Element.shape elements).foldr (fun x size => form.headLength + x.2 + size) 0 := by
  induction elements with
  | nil => rfl
  | cons e rest ih =>
    simp only [Element.shape] at ih
    simp only [List.flatMap_cons, List.length_append, ih, Packet.writeElement,
      ElementForm.length_head, Element.shape, List.map_cons, List.foldr_cons]

theorem form_holds {elements : List Element}
    (h : ∀ e ∈ elements, 1 ≤ e.id.toNat ∧ e.value.length ≤ 255) :
    ∀ e ∈ elements, (form (Element.shape elements)).Holds e := by
  intro e he
  refine ⟨(h e he).1, (h e he).2, fun hform => ?_⟩
  unfold form at hform
  split at hform
  · cases hform
  · rename_i hany
    simp only [Bool.not_eq_true, List.any_eq_false, Element.shape, List.mem_map] at hany
    simpa using hany _ ⟨e, he, rfl⟩

/-- The block holds its elements, and its length is a number of words. -/
theorem size_cases {shape : BlockShape} (h : shape ≠ []) :
    ∃ words, shape.size = 4 + 4 * words ∧ shape.contentSize ≤ 4 * words ∧
      4 * words < shape.contentSize + 4 := by
  refine ⟨(shape.contentSize + 3) / 4, ?_, by omega, by omega⟩
  rw [size, if_neg (by simpa using h), wordAligned]
  omega

end BlockShape

namespace Packet

theorem length_writeBlock (elements : List Element) :
    (writeBlock elements).length = (Element.shape elements).size := by
  by_cases h : elements = []
  · simp [h, writeBlock, Element.shape, BlockShape.size]
  · have hshape : Element.shape elements ≠ [] := by simpa [Element.shape] using h
    obtain ⟨words, hsize, hfits, -⟩ := BlockShape.size_cases hshape
    have hcontent := BlockShape.length_content (Element.shape elements).form elements
    have hmark : (Element.shape elements).form.mark.length = 2 := by
      cases (Element.shape elements).form <;> rfl
    simp only [BlockShape.contentSize] at hfits
    simp only [writeBlock, List.isEmpty_iff, h, if_false, List.length_append, hmark,
      Octets.length_ofWord16, hcontent, List.length_replicate]
    omega

theorem ofMark?_mark (form : ElementForm) :
    ∃ a b, form.mark = [a, b] ∧ ElementForm.ofMark? a b = some form := by
  cases form <;> exact ⟨_, _, rfl, by decide⟩

/-- Reading a written block leaves what follows it. -/
theorem readBlock_writeBlock {elements : List Element} (hne : elements ≠ [])
    (h : ∀ e ∈ elements, 1 ≤ e.id.toNat ∧ e.value.length ≤ 255)
    (hsmall : (Element.shape elements).contentSize ≤ 4 * 0xFFFF) (m : ExtensionIds) (rest : Octets) :
    readBlock m (writeBlock elements ++ rest) =
      some (elements.filterMap (Element.readAs? m), rest) := by
  have hshape : Element.shape elements ≠ [] := by simpa [Element.shape] using hne
  obtain ⟨words, hsize, hfits, hless⟩ := BlockShape.size_cases hshape
  obtain ⟨a, b, hmark, hof⟩ := ofMark?_mark (Element.shape elements).form
  have hcontent := BlockShape.length_content (Element.shape elements).form elements
  have hwords : (UInt16.ofNat words).toNat = words := by
    rw [UInt16.toNat_ofNat']
    omega
  let content := elements.flatMap (writeElement (Element.shape elements).form)
  have hlen : content.length ≤ 4 * words := by
    simp only [content, hcontent]
    exact hfits
  let block := content ++ List.replicate (4 * words - content.length) 0
  have hblock : block.length = words * 4 := by
    simp only [block, List.length_append, List.length_replicate]
    omega
  have hwrite : writeBlock elements ++ rest =
      a :: b :: UInt8.ofNat (words / 0x100) :: UInt8.ofNat words :: (block ++ rest) := by
    have hdiv : (4 + 4 * words - 4) / 4 = words := by omega
    have hsub : 4 + 4 * words - 4 = 4 * words := by omega
    simp [writeBlock, hne, hmark, hsize, Octets.ofWord16, hwords, block, content]
  have hword := Octets.word16_ofWord16 (UInt16.ofNat words)
  rw [hwords] at hword
  have hsplit : Octets.splitAt? (words * 4) (block ++ rest) = some (block, rest) := by
    rw [Octets.splitAt?, if_pos (by simp [hblock])]
    rw [← hblock, List.take_left, List.drop_left]
  rw [hwrite, readBlock, hof]
  simp only [hword, hwords, hsplit, bind, Option.bind, block, content,
    readElements_flatMap (BlockShape.form_holds h) m, pure]

end Packet
end LayeredRtp
