import LayeredRtp.Archive

/-! The ranking of candidates for padding, kept beside the entries. An entry that comes or leaves
changes the ranking by its own rank and nothing else, and the best rank stays in front. -/
namespace LayeredRtp.PaddingRank

variable {r x y : PaddingRank} {ranks : List PaddingRank} {number : Nat}

theorem before_iff : r.before x = true ↔
    r.resends < x.resends ∨ r.resends = x.resends ∧
      (x.arrival < r.arrival ∨ r.arrival = x.arrival ∧ r.number < x.number) := by
  simp [PaddingRank.before]

theorem before_trans (h : r.before x = true) (h' : x.before y = true) : r.before y = true := by
  rw [before_iff] at *
  omega

/-- Of two ranks with different numbers one is before the other. -/
theorem before_of_not (h : ¬r.before x = true) (hne : x.number ≠ r.number) : x.before r = true := by
  rw [before_iff] at *
  omega

theorem insert_perm (r : PaddingRank) (ranks : List PaddingRank) :
    (r.insert ranks).Perm (r :: ranks) := by
  induction ranks with
  | nil => exact .refl _
  | cons x rest ih =>
    by_cases h : r.before x = true
    · simp [insert, h]
    · rw [insert, if_neg h]
      exact (ih.cons x).trans (.swap r x rest)

theorem ordered_insert (h : ranks.Pairwise (·.before · = true))
    (hnew : ∀ x ∈ ranks, x.number ≠ r.number) :
    (r.insert ranks).Pairwise (·.before · = true) := by
  induction ranks with
  | nil => exact List.pairwise_singleton _ _
  | cons x rest ih =>
    obtain ⟨hfirst, hrest⟩ := List.pairwise_cons.mp h
    obtain ⟨hx, hnew⟩ := List.forall_mem_cons.mp hnew
    by_cases hbefore : r.before x = true
    · rw [insert, if_pos hbefore]
      refine List.pairwise_cons.mpr ⟨fun y hy => ?_, h⟩
      cases List.mem_cons.mp hy with
      | inl heq => exact heq ▸ hbefore
      | inr hy => exact before_trans hbefore (hfirst y hy)
    · rw [insert, if_neg hbefore]
      refine List.pairwise_cons.mpr ⟨fun y hy => ?_, ih hrest hnew⟩
      cases List.mem_cons.mp ((insert_perm r rest).mem_iff.mp hy) with
      | inl heq => exact heq ▸ before_of_not hbefore hx
      | inr hy => exact hfirst y hy

structure Reflects (ranks : List PaddingRank) (entries : List ArchiveEntry) : Prop where
  perm : ranks.Perm (entries.map ArchiveEntry.rank)
  ordered : ranks.Pairwise (·.before · = true)

namespace Reflects

variable {e : ArchiveEntry} {entries others : List ArchiveEntry}

theorem nil : Reflects [] [] := ⟨.nil, .nil⟩

theorem congr (h : Reflects ranks entries)
    (hranks : others.map ArchiveEntry.rank = entries.map ArchiveEntry.rank) : Reflects ranks others :=
  ⟨hranks ▸ h.perm, h.ordered⟩

theorem number_mem (h : Reflects ranks entries) (hx : x ∈ ranks) :
    ∃ e ∈ entries, e.number = x.number := by
  obtain ⟨e, he, rfl⟩ := List.mem_map.mp (h.perm.mem_iff.mp hx)
  exact ⟨e, he, rfl⟩

theorem ne_of_mem (h : Reflects ranks entries) (hne : ∀ x ∈ entries, x.number ≠ number) :
    ∀ x ∈ ranks, x.number ≠ number := by
  intro x hx
  obtain ⟨e, he, hnumber⟩ := h.number_mem hx
  exact hnumber ▸ hne e he

/-- An entry comes. -/
theorem insert (h : Reflects ranks others) (hentries : entries.Perm (e :: others))
    (hne : ∀ x ∈ others, x.number ≠ e.number) : Reflects (e.rank.insert ranks) entries where
  perm := ((insert_perm e.rank ranks).trans (h.perm.cons e.rank)).trans
    (hentries.map ArchiveEntry.rank).symm
  ordered := ordered_insert h.ordered (h.ne_of_mem hne)

/-- An entry leaves. -/
theorem erase (h : Reflects ranks entries) (hentries : entries.Perm (e :: others)) :
    Reflects (ranks.erase e.rank) others where
  perm := by
    have hperm : ranks.Perm (e.rank :: others.map ArchiveEntry.rank) :=
      h.perm.trans (hentries.map ArchiveEntry.rank)
    simpa using hperm.erase e.rank
  ordered := h.ordered.sublist List.erase_sublist

/-- The oldest entries leave, one after another. -/
theorem drop (h : Reflects ranks entries) (k : Nat) :
    Reflects ((entries.take k).foldl (fun ranks e => ranks.erase e.rank) ranks)
      (entries.drop k) := by
  induction k generalizing entries ranks with
  | zero => exact h
  | succ k ih =>
    cases entries with
    | nil => exact h
    | cons e rest => exact ih (h.erase (.refl _))

end Reflects

end LayeredRtp.PaddingRank
