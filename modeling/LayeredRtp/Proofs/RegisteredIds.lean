import LayeredRtp.ExtensionIds
import Mathlib.Data.List.Nodup

/-! What registering extensions can lead to: an extension that has an id is the one that the id
stands for. -/
namespace LayeredRtp.ExtensionIds

/-- The ids that registering, removing and allowing mixed forms can lead to. Refused calls change
nothing. -/
inductive Registered : ExtensionIds → Prop
  | empty : Registered .empty
  | insert {m next : ExtensionIds} (id : UInt8) (e : HeaderExtension) :
      Registered m → m.insert? id e = some next → Registered next
  | erase {m : ExtensionIds} (uri : String) : Registered m → Registered (m.eraseUri uri)
  | mixed {m : ExtensionIds} (on : Bool) : Registered m → Registered (m.setMixed on)

structure Consistent (m : ExtensionIds) : Prop where
  positive : ∀ b ∈ m.bindings, 1 ≤ b.1.toNat
  distinct : (m.bindings.map (·.1)).Nodup

theorem place_perm (id : UInt8) (e : HeaderExtension) (bs : List (UInt8 × HeaderExtension)) :
    (place id e bs).Perm ((id, e) :: bs) := by
  induction bs with
  | nil => exact .refl _
  | cons b rest ih =>
    by_cases h : id < b.1
    · simp [place, h]
    · simp only [place, h, if_false]
      exact (ih.cons b).trans (.swap _ _ _)

theorem not_mem_of_extension? {m : ExtensionIds} {id : UInt8} (h : m.extension? id = none) :
    id ∉ m.bindings.map (·.1) := by
  intro hmem
  obtain ⟨b, hb, rfl⟩ := List.mem_map.mp hmem
  have hnone := List.find?_eq_none.mp (Option.map_eq_none_iff.mp h) b hb
  simp at hnone

theorem Consistent.insert {m next : ExtensionIds} {id : UInt8} {e : HeaderExtension}
    (hm : m.Consistent) (h : m.insert? id e = some next) : next.Consistent := by
  unfold insert? at h
  by_cases hrange : id.toNat < 1 ∨ m.maxId < id.toNat
  · rw [if_pos hrange] at h
    cases h
  · rw [if_neg hrange] at h
    cases hid : m.extension? id with
    | some other =>
      simp only [hid, Option.ite_none_right_eq_some, Option.some.injEq] at h
      exact h.2 ▸ hm
    | none =>
      simp only [hid, Option.ite_none_left_eq_some, Option.some.injEq] at h
      obtain ⟨-, rfl⟩ := h
      have hperm := place_perm id e m.bindings
      refine ⟨fun b hb => ?_, ?_⟩
      · rcases List.mem_cons.mp (hperm.mem_iff.mp hb) with rfl | hb
        · simp only [not_or, Nat.not_lt] at hrange
          exact hrange.1
        · exact hm.positive b hb
      · rw [(hperm.map _).nodup_iff, List.map_cons]
        exact List.nodup_cons.mpr ⟨not_mem_of_extension? hid, hm.distinct⟩

theorem Consistent.erase {m : ExtensionIds} (hm : m.Consistent) (uri : String) :
    (m.eraseUri uri).Consistent := by
  unfold eraseUri
  split
  · exact hm
  · refine ⟨fun b hb => hm.positive b (List.mem_filter.mp hb).1, ?_⟩
    exact hm.distinct.sublist (List.filter_sublist.map _)

theorem Registered.consistent {m : ExtensionIds} (h : m.Registered) : m.Consistent := by
  induction h with
  | empty => exact ⟨by simp [ExtensionIds.empty], by simp [ExtensionIds.empty]⟩
  | insert id e _ hi ih => exact ih.insert hi
  | erase uri _ ih => exact ih.erase uri
  | mixed on _ ih => exact ⟨ih.positive, ih.distinct⟩

/-- Where keys are not repeated, an entry is found by its key. -/
theorem find?_eq_some_iff_of_nodup {α κ : Type} [DecidableEq κ] {key : α → κ} {xs : List α}
    (h : (xs.map key).Nodup) {k : κ} {x : α} :
    xs.find? (fun y => key y == k) = some x ↔ x ∈ xs ∧ key x = k := by
  constructor
  · intro hfind
    exact ⟨List.mem_of_find?_eq_some hfind, by simpa using List.find?_some hfind⟩
  · rintro ⟨hx, rfl⟩
    cases hfind : xs.find? fun y => key y == key x with
    | none =>
      have hnone := List.find?_eq_none.mp hfind x hx
      simp at hnone
    | some y =>
      have hkey : key y = key x := by simpa using List.find?_some hfind
      rw [List.inj_on_of_nodup_map h (List.mem_of_find?_eq_some hfind) hx hkey]

theorem Registered.extension?_eq_some_iff {m : ExtensionIds} (hm : m.Registered) {id : UInt8}
    {e : HeaderExtension} :
    m.extension? id = some e ↔ (id, e) ∈ m.bindings := by
  simp only [extension?, Option.map_eq_some_iff, find?_eq_some_iff_of_nodup hm.consistent.distinct]
  constructor
  · rintro ⟨b, ⟨hb, rfl⟩, rfl⟩
    exact hb
  · exact fun h => ⟨_, ⟨h, rfl⟩, rfl⟩

/-- The id of an extension stands for that extension. -/
theorem Registered.extension?_of_id? {m : ExtensionIds} (h : m.Registered) {e : HeaderExtension}
    {id : UInt8} (hid : m.id? e = some id) : m.extension? id = some e ∧ 1 ≤ id.toNat := by
  obtain ⟨b, hb, rfl⟩ := Option.map_eq_some_iff.mp hid
  have hmem := List.mem_of_find?_eq_some hb
  obtain rfl : b.2 = e := by simpa using List.find?_some hb
  exact ⟨h.extension?_eq_some_iff.mpr hmem, h.consistent.positive b hmem⟩

end LayeredRtp.ExtensionIds
