import LayeredRtp.Packet.Wire
import LayeredRtp.Proofs.RegisteredIds

/-! The grammar of the elements in an extension block. It says which octets spell which elements,
without regard to how they are read, and reading accepts exactly the octets that it allows. -/
namespace LayeredRtp

structure RawElement where
  id : UInt8
  value : Octets
deriving DecidableEq, Repr

def RawElement.named? (m : ExtensionIds) (r : RawElement) : Option Element :=
  (m.extension? r.id).map fun ext => ⟨r.id, ext, r.value⟩

/-- The octets of a block after its length, and the elements that they spell. -/
inductive ElementForm.Spells : ElementForm → Octets → List RawElement → Prop
  | nil (form : ElementForm) : Spells form [] []
  | zero {form : ElementForm} {s : Octets} {elements : List RawElement}
      (rest : Spells form s elements) : Spells form (0 :: s) elements
  | short {head : UInt8} (value : Octets) {s : Octets} {elements : List RawElement}
      (named : head.toNat / 16 ≠ 0) (free : head.toNat / 16 ≠ 15)
      (length : value.length = head.toNat % 16 + 1) (rest : Spells .oneByte s elements) :
      Spells .oneByte (head :: (value ++ s))
        (⟨UInt8.ofNat (head.toNat / 16), value⟩ :: elements)
  | unnamed {head : UInt8} (value : Octets) {s : Octets} {elements : List RawElement}
      (zero : head.toNat / 16 = 0) (nonzero : head ≠ 0)
      (length : value.length = head.toNat % 16 + 1) (rest : Spells .oneByte s elements) :
      Spells .oneByte (head :: (value ++ s)) elements
  | last {head : UInt8} (s : Octets) (reserved : head.toNat / 16 = 15) :
      Spells .oneByte (head :: s) []
  | long {id length : UInt8} (value : Octets) {s : Octets} {elements : List RawElement}
      (nonzero : id ≠ 0) (exact : value.length = length.toNat)
      (rest : Spells .twoByte s elements) :
      Spells .twoByte (id :: length :: (value ++ s)) (⟨id, value⟩ :: elements)

theorem ExtensionIds.Registered.extension?_zero {m : ExtensionIds} (h : m.Registered) :
    m.extension? 0 = none := by
  cases hfind : m.bindings.find? fun b => b.1 == 0 with
  | none => simp [extension?, hfind]
  | some b =>
    have hid : b.1 = 0 := by simpa using List.find?_some hfind
    have hpos := h.consistent.positive b (List.mem_of_find?_eq_some hfind)
    simp [hid] at hpos

namespace Packet

variable {form : ElementForm} {m : ExtensionIds} {b id : UInt8} {s body value : Octets} {n : Nat}

theorem readElements_zero (form : ElementForm) (m : ExtensionIds) (s : Octets) :
    readElements form m (0 :: s) = readElements form m s := by
  rw [readElements, if_pos rfl]

/-- Reading an element and what follows it. -/
theorem readElements_element (hb : b ≠ 0) (head : readHead form b s = .element id n body) :
    readElements form m (b :: s) =
      if body.length < n then none
      else (readElements form m (body.drop n)).map
        ((RawElement.named? m ⟨id, body.take n⟩).toList ++ ·) := by
  rw [readElements, if_neg hb]
  split
  · rename_i heq
    rw [head] at heq
    cases heq
  · rename_i heq
    rw [head] at heq
    cases heq
  · rename_i heq
    rw [head, Head.element.injEq] at heq
    obtain ⟨rfl, rfl, rfl⟩ := heq
    cases hmore : readElements form m (body.drop n) with
    | none => simp
    | some more => cases hext : m.extension? id <;> simp [RawElement.named?, hext]

theorem readElements_last (hb : b ≠ 0) (head : readHead form b s = .last) :
    readElements form m (b :: s) = some [] := by
  rw [readElements, if_neg hb]
  split <;> simp_all

theorem readElements_cut (hb : b ≠ 0) (head : readHead form b s = .cut) :
    readElements form m (b :: s) = none := by
  rw [readElements, if_neg hb]
  split <;> simp_all

/-- An element that is all there is read, and so is what follows it. -/
theorem readElements_append (hb : b ≠ 0)
    (head : readHead form b body = .element id value.length (value ++ s)) :
    readElements form m (b :: body) =
      (readElements form m s).map ((RawElement.named? m ⟨id, value⟩).toList ++ ·) := by
  rw [readElements_element hb head, if_neg (by simp), List.drop_left, List.take_left]

theorem readHead_reserved (reserved : b.toNat / 16 = 15) : readHead .oneByte b s = .last :=
  if_pos reserved

theorem readHead_free (free : b.toNat / 16 ≠ 15) :
    readHead .oneByte b s = .element (UInt8.ofNat (b.toNat / 16)) (b.toNat % 16 + 1) s :=
  if_neg free

/-- Only the reserved id ends a block early. -/
theorem reserved_of_readHead (head : readHead form b s = .last) :
    form = .oneByte ∧ b.toNat / 16 = 15 := by
  cases form with
  | oneByte =>
    refine ⟨rfl, Decidable.byContradiction fun free => ?_⟩
    rw [readHead_free free] at head
    cases head
  | twoByte => cases s <;> simp [readHead] at head

theorem ne_zero_of_upper {head : UInt8} (h : head.toNat / 16 ≠ 0) : head ≠ 0 := by
  rintro rfl
  exact h rfl

theorem readElements_of_spells (hm : m.extension? 0 = none) {elements : List RawElement}
    (h : form.Spells s elements) :
    readElements form m s = some (elements.filterMap (RawElement.named? m)) := by
  induction h with
  | nil => simp [readElements]
  | zero _ ih => exact (readElements_zero _ m _).trans ih
  | @short head value s elements named free length _ ih =>
    have hhead : readHead .oneByte head (value ++ s) =
        .element (UInt8.ofNat (head.toNat / 16)) value.length (value ++ s) := by
      rw [readHead_free free, length]
    rw [readElements_append (ne_zero_of_upper named) hhead, ih]
    cases hnamed : RawElement.named? m ⟨UInt8.ofNat (head.toNat / 16), value⟩ <;> simp [hnamed]
  | @unnamed head value s elements zero nonzero length _ ih =>
    have hhead : readHead .oneByte head (value ++ s) = .element 0 value.length (value ++ s) := by
      rw [readHead_free (by omega), length, zero]
      rfl
    rw [readElements_append nonzero hhead, ih]
    simp [RawElement.named?, hm]
  | last s reserved =>
    exact readElements_last (ne_zero_of_upper (by omega)) (readHead_reserved reserved)
  | @long id length value s elements nonzero exact _ ih =>
    have hhead : readHead .twoByte id (length :: (value ++ s)) =
        .element id value.length (value ++ s) := by
      rw [readHead, exact]
    rw [readElements_append nonzero hhead, ih]
    cases hnamed : RawElement.named? m ⟨id, value⟩ <;> simp [hnamed]

/-- The octets that reading takes for an element spell it, if what follows is spelled. -/
theorem spells_of_readHead (hb : b ≠ 0) (head : readHead form b s = .element id n body)
    (room : n ≤ body.length) {elements : List RawElement}
    (rest : form.Spells (body.drop n) elements) : ∃ elements, form.Spells (b :: s) elements := by
  have hvalue : (body.take n).length = n := by
    rw [List.length_take]
    omega
  have hsplit : body.take n ++ body.drop n = body := List.take_append_drop n body
  cases form with
  | oneByte =>
    by_cases hreserved : b.toNat / 16 = 15
    · rw [readHead_reserved hreserved] at head
      cases head
    · rw [readHead_free hreserved, Head.element.injEq] at head
      obtain ⟨-, rfl, rfl⟩ := head
      rw [← hsplit]
      by_cases hzero : b.toNat / 16 = 0
      · exact ⟨_, .unnamed _ hzero hb hvalue rest⟩
      · exact ⟨_, .short _ hzero hreserved hvalue rest⟩
  | twoByte =>
    cases s with
    | nil => simp [readHead] at head
    | cons length s =>
      rw [readHead, Head.element.injEq] at head
      obtain ⟨rfl, rfl, rfl⟩ := head
      rw [← hsplit]
      exact ⟨_, .long _ hb hvalue rest⟩

theorem spells_of_readElements {elements : List Element}
    (h : readElements form m s = some elements) : ∃ raw, form.Spells s raw := by
  fun_induction readElements form m s generalizing elements with
  | case1 => exact ⟨[], .nil form⟩
  | case2 rest ih =>
    obtain ⟨raw, hraw⟩ := ih h
    exact ⟨raw, .zero hraw⟩
  | case3 b rest hb head =>
    obtain ⟨rfl, hreserved⟩ := reserved_of_readHead head
    exact ⟨[], .last rest hreserved⟩
  | case4 | case5 => cases h
  | case6 b rest hb id length body head hroom ih =>
    obtain ⟨more, hmore, -⟩ := Option.bind_eq_some_iff.mp h
    obtain ⟨raw, hraw⟩ := ih hmore
    exact spells_of_readHead hb head (Nat.le_of_not_lt hroom) hraw

/-- Reading accepts exactly what the grammar allows, and gives the elements with registered ids. -/
theorem readElements_eq_some_iff (hm : m.extension? 0 = none) {elements : List Element} :
    readElements form m s = some elements ↔
      ∃ raw, form.Spells s raw ∧ elements = raw.filterMap (RawElement.named? m) := by
  constructor
  · intro h
    obtain ⟨raw, hraw⟩ := spells_of_readElements h
    rw [readElements_of_spells hm hraw] at h
    exact ⟨raw, hraw, (Option.some.inj h).symm⟩
  · rintro ⟨raw, hraw, rfl⟩
    exact readElements_of_spells hm hraw

end Packet
end LayeredRtp
