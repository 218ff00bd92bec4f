import LayeredRtp.Proofs.ExtensionBlocks

/-! Which extension blocks are larger. The size of a block is not the sum over its elements, since
one element can turn the heads of all others into the longer form. But an element more, or a longer
value, never makes a block smaller, and a block that was read is written in the same room or less. -/
namespace LayeredRtp

namespace BlockShape

def sizeIn (form : ElementForm) (shape : BlockShape) : Nat :=
  shape.foldr (fun x size => form.headLength + x.2 + size) 0

theorem headLength_le (form : ElementForm) : form.headLength ≤ 2 := by
  cases form <;> decide

theorem headLength_pos (form : ElementForm) : 1 ≤ form.headLength := by
  cases form <;> decide

theorem sizeIn_le {form form' : ElementForm} (h : form.headLength ≤ form'.headLength)
    (shape : BlockShape) : sizeIn form shape ≤ sizeIn form' shape := by
  induction shape with
  | nil => exact Nat.le_refl _
  | cons x rest ih =>
    simp only [sizeIn, List.foldr_cons] at ih ⊢
    omega

theorem sizeIn_perm {a b : BlockShape} (form : ElementForm) (h : a.Perm b) :
    sizeIn form a = sizeIn form b := by
  induction h with
  | nil => rfl
  | cons x _ ih =>
    simp only [sizeIn, List.foldr_cons] at ih ⊢
    omega
  | swap x y rest =>
    simp only [sizeIn, List.foldr_cons]
    omega
  | trans _ _ ih ih' => exact ih.trans ih'

/-- Each element of the first shape has a place of its own in the second, with room for its value
and for the head that it needs. -/
inductive Within : BlockShape → BlockShape → Prop
  | nil (b : BlockShape) : Within [] b
  | cons {a b : BlockShape} {x y : UInt8 × Nat} (length : x.2 ≤ y.2)
      (form : needsTwoByte x.1 x.2 = true → needsTwoByte y.1 y.2 = true) (within : Within a b) :
      Within (x :: a) (y :: b)
  | skip {a b : BlockShape} (y : UInt8 × Nat) (within : Within a b) : Within a (y :: b)
  | perm {a b c : BlockShape} (within : Within a b) (order : b.Perm c) : Within a c

namespace Within

variable {a b : BlockShape}

theorem of_sublist (h : a.Sublist b) : a.Within b := by
  induction h with
  | slnil => exact .nil []
  | cons y _ ih => exact .skip y ih
  | cons_cons x _ ih => exact .cons (Nat.le_refl _) id ih

theorem sizeIn_le (h : a.Within b) (form : ElementForm) : sizeIn form a ≤ sizeIn form b := by
  induction h with
  | nil => exact Nat.zero_le _
  | cons length _ _ ih =>
    simp only [sizeIn, List.foldr_cons] at ih ⊢
    omega
  | skip y _ ih =>
    simp only [sizeIn, List.foldr_cons] at ih ⊢
    omega
  | perm _ order ih => exact Nat.le_trans ih (Nat.le_of_eq (sizeIn_perm form order))

theorem any_needsTwoByte (h : a.Within b) (hany : a.any (fun x => needsTwoByte x.1 x.2) = true) :
    b.any (fun x => needsTwoByte x.1 x.2) = true := by
  induction h with
  | nil => simp at hany
  | cons _ form _ ih =>
    simp only [List.any_cons, Bool.or_eq_true] at hany ⊢
    exact hany.imp form ih
  | skip y _ ih => simp [ih hany]
  | perm _ order ih =>
    obtain ⟨x, hx, hneeds⟩ := List.any_eq_true.mp (ih hany)
    exact List.any_eq_true.mpr ⟨x, order.mem_iff.mp hx, hneeds⟩

theorem headLength_form_le (h : a.Within b) : a.form.headLength ≤ b.form.headLength := by
  unfold form
  by_cases hany : a.any (fun x => needsTwoByte x.1 x.2) = true
  · simp [hany, h.any_needsTwoByte hany]
  · rw [if_neg hany]
    exact headLength_pos _

theorem contentSize_le (h : a.Within b) : a.contentSize ≤ b.contentSize := by
  calc a.contentSize
      _ ≤ sizeIn a.form b := h.sizeIn_le a.form
      _ ≤ b.contentSize := BlockShape.sizeIn_le h.headLength_form_le b

theorem ne_nil (h : a.Within b) (ha : a ≠ []) : b ≠ [] := by
  induction h with
  | nil => exact absurd rfl ha
  | cons => exact List.cons_ne_nil _ _
  | skip => exact List.cons_ne_nil _ _
  | perm _ order ih => exact fun hc => ih ha (hc ▸ order).eq_nil

/-- The block of the larger shape is no shorter, headers and zeros at the end included. -/
theorem size_le (h : a.Within b) : a.size ≤ b.size := by
  by_cases ha : a = []
  · simp [ha, size]
  · have hcontent := h.contentSize_le
    simp only [size, wordAligned, List.isEmpty_iff, ha, h.ne_nil ha, if_false]
    omega

end Within
end BlockShape

namespace Packet

/-- In the one-byte form no element that is read needs the longer one. -/
theorem oneByte_of_readHead {b : UInt8} {s rest : Octets} {id : UInt8} {n : Nat}
    (h : readHead .oneByte b s = .element id n rest) : BlockShape.needsTwoByte id n = false := by
  have hb := b.toNat_lt
  simp only [readHead] at h
  split at h
  · cases h
  · rename_i hid
    simp only [Head.element.injEq] at h
    obtain ⟨rfl, rfl, -⟩ := h
    have hnat : (UInt8.ofNat (b.toNat / 16)).toNat = b.toNat / 16 := by
      rw [UInt8.toNat_ofNat']
      omega
    simp only [BlockShape.needsTwoByte, hnat, Bool.or_eq_false_iff, decide_eq_false_iff_not,
      beq_eq_false_iff_ne]
    omega

theorem length_of_readHead_element {form : ElementForm} {b : UInt8} {s rest : Octets} {id : UInt8}
    {n : Nat} (h : readHead form b s = .element id n rest) :
    s.length + 1 = form.headLength + rest.length := by
  cases form with
  | oneByte =>
    simp only [readHead] at h
    split at h
    · cases h
    · cases h
      exact Nat.add_comm _ _
  | twoByte =>
    cases s with
    | nil => cases h
    | cons n s =>
      cases h
      simp only [List.length_cons, ElementForm.headLength]
      omega

structure RoomFor (form : ElementForm) (octets : Nat) (elements : List Element) : Prop where
  size : BlockShape.sizeIn form (Element.shape elements) ≤ octets
  oneByte : form = .oneByte → ∀ e ∈ elements, BlockShape.needsTwoByte e.id e.value.length = false

namespace RoomFor

variable {form : ElementForm} {n octets : Nat} {elements : List Element} {e : Element}

theorem nil (form : ElementForm) (octets : Nat) : RoomFor form octets [] :=
  ⟨Nat.zero_le _, by simp⟩

theorem mono (h : RoomFor form n elements) (hle : n ≤ octets) : RoomFor form octets elements :=
  ⟨Nat.le_trans h.size hle, h.oneByte⟩

theorem cons (h : RoomFor form n elements)
    (hone : form = .oneByte → BlockShape.needsTwoByte e.id e.value.length = false)
    (hle : form.headLength + e.value.length + n ≤ octets) : RoomFor form octets (e :: elements) := by
  have hsize := h.size
  refine ⟨?_, fun hform x hx => ?_⟩
  · simp only [BlockShape.sizeIn, Element.shape, List.map_cons, List.foldr_cons] at hsize ⊢
    omega
  · cases List.mem_cons.mp hx with
    | inl heq => exact heq ▸ hone hform
    | inr hrest => exact h.oneByte hform x hrest

/-- They are written in that form or in the shorter one. -/
theorem contentSize_le (h : RoomFor form octets elements) :
    (Element.shape elements).contentSize ≤ octets := by
  refine Nat.le_trans (BlockShape.sizeIn_le ?_ _) h.size
  cases hform : form with
  | twoByte => exact BlockShape.headLength_le _
  | oneByte =>
    have hnone : (Element.shape elements).any (fun x => BlockShape.needsTwoByte x.1 x.2) = false := by
      simpa [Element.shape] using h.oneByte hform
    simp [BlockShape.form, hnone]

theorem size_le {words : Nat} (h : RoomFor form (4 * words) elements) :
    (Element.shape elements).size ≤ 4 + 4 * words := by
  have hcontent := h.contentSize_le
  unfold BlockShape.size BlockShape.wordAligned
  split <;> omega

end RoomFor

theorem roomFor_of_readElements {form : ElementForm} {m : ExtensionIds} {s : Octets}
    {elements : List Element} (h : readElements form m s = some elements) :
    RoomFor form s.length elements := by
  fun_induction readElements form m s generalizing elements with
  | case1 => exact Option.some.inj h ▸ .nil form _
  | case2 rest ih => exact (ih h).mono (Nat.le_succ _)
  | case3 => exact Option.some.inj h ▸ .nil form _
  | case4 => cases h
  | case5 => cases h
  | case6 b rest _ id length body hhead hlen ih =>
    obtain ⟨more, hmore, h⟩ := Option.bind_eq_some_iff.mp h
    have hroom := ih hmore
    have hrest := length_of_readHead_element hhead
    have hhead1 := BlockShape.headLength_pos form
    rw [List.length_drop] at hroom
    cases hext : m.extension? id with
    | none =>
      simp only [hext, pure, Option.some.injEq] at h
      exact h ▸ hroom.mono (by rw [List.length_cons]; omega)
    | some ext =>
      simp only [hext, pure, Option.some.injEq] at h
      have hvalue : (body.take length).length = length := by
        rw [List.length_take]
        omega
      refine h ▸ hroom.cons (fun hform => ?_) ?_
      · subst hform
        simpa only [hvalue] using oneByte_of_readHead hhead
      · simp only [hvalue, List.length_cons]
        omega

/-- A block that was read is written in the room that it took, with what follows it. -/
theorem size_of_readBlock {m : ExtensionIds} {s rest : Octets} {elements : List Element}
    (h : readBlock m s = some (elements, rest)) :
    (Element.shape elements).size + rest.length ≤ s.length := by
  unfold readBlock at h
  split at h
  · rename_i a b c d tail
    simp only [bind, Option.bind_eq_some_iff, Prod.exists, pure, Option.some.injEq,
      Prod.mk.injEq] at h
    obtain ⟨form, -, block, after, hsplit, read, hread, rfl, rfl⟩ := h
    unfold Octets.splitAt? at hsplit
    split at hsplit
    · rename_i hle
      cases hsplit
      have hroom := roomFor_of_readElements hread
      rw [List.length_take, Nat.min_eq_left hle, Nat.mul_comm] at hroom
      have hsize := hroom.size_le
      simp only [List.length_drop, List.length_cons]
      omega
    · cases hsplit
  · cases h

end Packet
end LayeredRtp
