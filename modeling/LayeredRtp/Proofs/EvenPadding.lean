import LayeredRtp.Proofs.SoundArchive
import Mathlib.Data.List.Nodup

/-! Which packet is repeated as padding: of those that may be, the one that was resent least, and of
those the latest. Since every repetition counts as a resend, padding goes round all of them
evenly. -/
namespace LayeredRtp.Archive

variable {a b : Archive} {e x y : ArchiveEntry}

structure Usable (a : Archive) (e : ArchiveEntry) : Prop where
  stored : e ∈ a.entries
  sent : e.sendTime.isSome = true
  idle : e.pending = false

structure Best (a : Archive) (e : ArchiveEntry) : Prop where
  usable : a.Usable e
  least : ∀ x, a.Usable x → e.resends ≤ x.resends
  latest : ∀ x, a.Usable x → x.resends = e.resends → x.arrival ≤ e.arrival

theorem Best.eq (he : a.Best e) (h : a.Stored) (hx : a.Best x) : e = x := by
  have hresends : e.resends = x.resends :=
    Nat.le_antisymm (he.least x hx.usable) (hx.least e he.usable)
  have harrival : e.arrival = x.arrival :=
    Nat.le_antisymm (hx.latest e he.usable hresends) (he.latest x hx.usable hresends.symm)
  exact List.inj_on_of_nodup_map h.arrivals he.usable.stored hx.usable.stored harrival

/-- By its rank such a packet is found and not passed over. -/
theorem Usable.found (hx : a.Usable x) (h : a.Sound) :
    x.rank ∈ a.ranking ∧
      ((a.find? x.rank.number).filter fun e => e.sendTime.isSome && !e.pending) = some x := by
  refine ⟨h.ranked.perm.mem_iff.mpr (List.mem_map_of_mem hx.stored), ?_⟩
  have hfind : a.find? x.rank.number = some x := h.sorted.find?_eq_some.mpr ⟨hx.stored, rfl⟩
  simp [hfind, Option.filter, hx.sent, hx.idle]

/-- The candidate has the first rank, in the order of preference, of all packets that may be
repeated. -/
theorem Sound.before_of_candidate (h : a.Sound) (hcandidate : a.paddingCandidate? = some e)
    (hx : a.Usable x) : x.rank = e.rank ∨ e.rank.before x.rank = true := by
  unfold paddingCandidate? at hcandidate
  split at hcandidate
  · obtain ⟨front, r, back, hranking, hr, hfront⟩ := List.findSome?_eq_some_iff.mp hcandidate
    obtain ⟨hfind, -⟩ := Option.filter_eq_some_iff.mp hr
    have hrank : r = e.rank := by
      have hmem : r ∈ a.ranking := by simp [hranking]
      obtain ⟨z, hz, rfl⟩ := List.mem_map.mp (h.ranked.perm.mem_iff.mp hmem)
      exact congrArg _ (h.sorted.eq_of_number hfind hz rfl)
    obtain ⟨hmem, hfound⟩ := hx.found h
    have hordered := h.ranked.ordered
    rw [hranking] at hmem hordered
    rcases List.mem_append.mp hmem with hmem | hmem
    · have hpassed := hfront _ hmem
      simp [hfound] at hpassed
    · rcases List.mem_cons.mp hmem with heq | hmem
      · exact .inl (heq.trans hrank)
      · have hback := List.rel_of_pairwise_cons (List.pairwise_append.mp hordered).2.1 hmem
        exact .inr (hrank ▸ hback)
  · cases hcandidate

theorem Sound.best_of_candidate (h : a.Sound) (hcandidate : a.paddingCandidate? = some e) :
    a.Best e := by
  obtain ⟨he, hsent, hidle⟩ := mem_of_paddingCandidate hcandidate
  refine ⟨⟨he, hsent, hidle⟩, fun x hx => ?_, fun x hx hresends => ?_⟩
  · rcases h.before_of_candidate hcandidate hx with heq | hlater
    · exact Nat.le_of_eq (congrArg (·.resends) heq).symm
    · rcases PaddingRank.before_iff.mp hlater with hlt | ⟨heq, -⟩
      · exact Nat.le_of_lt hlt
      · exact Nat.le_of_eq heq
  · rcases h.before_of_candidate hcandidate hx with heq | hlater
    · exact Nat.le_of_eq (congrArg (·.arrival) heq)
    · rcases PaddingRank.before_iff.mp hlater with hlt | ⟨-, hlt | ⟨heq, -⟩⟩
      · exact absurd hresends (Nat.ne_of_gt hlt)
      · exact Nat.le_of_lt hlt
      · exact Nat.le_of_eq heq.symm

theorem Sound.not_usable_of_none (h : a.Sound) (hnone : a.paddingCandidate? = none)
    (x : ArchiveEntry) : ¬a.Usable x := by
  intro hx
  unfold paddingCandidate? at hnone
  split at hnone
  · obtain ⟨hmem, hfound⟩ := hx.found h
    have hpassed := List.findSome?_eq_none_iff.mp hnone _ hmem
    simp [hfound] at hpassed
  · rename_i hoff
    have hstored := hx.stored
    simp [h.idle (by simpa using hoff)] at hstored

/-- The candidate is the best of the packets that may be repeated. -/
theorem Sound.candidate_iff (h : a.Sound) : a.paddingCandidate? = some e ↔ a.Best e := by
  refine ⟨h.best_of_candidate, fun he => ?_⟩
  cases hcandidate : a.paddingCandidate? with
  | none => exact absurd he.usable (h.not_usable_of_none hcandidate e)
  | some x => rw [he.eq h.toStored (h.best_of_candidate hcandidate)]

theorem Sound.existsUnique_best (h : a.Sound) (he : a.Usable e) : ∃! x, a.Best x := by
  cases hcandidate : a.paddingCandidate? with
  | none => exact absurd he (h.not_usable_of_none hcandidate e)
  | some x =>
    have hx := h.best_of_candidate hcandidate
    exact ⟨x, hx, fun y hy => hy.eq h.toStored hx⟩

def Repeats (a : Archive) (e : ArchiveEntry) (now : Time) (b : Archive) : Prop :=
  b = { a with
    entries := a.entries.map fun x =>
      if x = e then { x with resends := x.resends + 1, sendTime := some now } else x
    ranking := b.ranking }

theorem Sound.repeats_countResend (h : a.Sound) (he : e ∈ a.entries) (now : Time) :
    a.Repeats e now (a.countResend e now) := by
  have hfind : a.find? e.number = some e := h.sorted.find?_eq_some.mpr ⟨he, rfl⟩
  have hentries : (a.countResend e now).entries = a.entries.map fun x =>
      if x = e then { x with resends := x.resends + 1, sendTime := some now } else x := by
    apply List.map_congr_left
    intro x hx
    have hsame : x.number = e.number ↔ x = e :=
      ⟨h.sorted.eq_of_number hfind hx, congrArg ArchiveEntry.number⟩
    simp only [hsame, ArchiveEntry.resent]
  rw [Repeats, ← hentries]
  rfl

/-- The best packet is asked for a copy, and no other one is. -/
theorem Sound.fetchPadding_eq (h : a.Sound) (he : a.Best e) (now : Time)
    (wrap : Packet → Option Packet) :
    a.fetchPadding now wrap = (wrap e.packet).map (·, a.countResend e now) := by
  cases hwrap : wrap e.packet <;> simp [fetchPadding, h.candidate_iff.mpr he, hwrap]

theorem Sound.fetchPadding_eq_none (h : a.Sound) (hnot : ∀ e, ¬a.Usable e) (now : Time)
    (wrap : Packet → Option Packet) : a.fetchPadding now wrap = none := by
  cases hcandidate : a.paddingCandidate? with
  | none => simp [fetchPadding, hcandidate]
  | some e => exact absurd (h.best_of_candidate hcandidate).usable (hnot e)

inductive Pads : Archive → Archive → Prop
  | refl (a : Archive) : Pads a a
  | more {a b c : Archive} {now : Time} {wrap : Packet → Option Packet} {copy : Packet}
      (made : a.fetchPadding now wrap = some (copy, b)) (rest : Pads b c) : Pads a c

/-- The numbers of resends of two packets are equal, or one of them is one more. -/
def Level (x y : ArchiveEntry) : Prop := x.resends ≤ y.resends + 1 ∧ y.resends ≤ x.resends + 1

theorem Usable.repeated (hx : a.Usable x) {now : Time} (h : a.Repeats e now b) :
    ∃ z, b.Usable z ∧ z.number = x.number ∧
      z.resends = if x = e then x.resends + 1 else x.resends := by
  rw [h]
  refine ⟨_, ⟨List.mem_map_of_mem hx.stored, ?_, ?_⟩, ?_, ?_⟩
  all_goals split
  · rfl
  · exact hx.sent
  · exact hx.idle
  · exact hx.idle
  all_goals rfl

/-- One repetition: the packet that is one ahead of another is not the best. -/
theorem Level.repeated (hlevel : Level x y) (he : a.Best e) (hx : a.Usable x) (hy : a.Usable y)
    {now : Time} (h : a.Repeats e now b) :
    ∃ x' y', b.Usable x' ∧ b.Usable y' ∧ x'.number = x.number ∧ y'.number = y.number ∧
      Level x' y' := by
  obtain ⟨x', hx', hxnumber, hxresends⟩ := hx.repeated h
  obtain ⟨y', hy', hynumber, hyresends⟩ := hy.repeated h
  refine ⟨x', y', hx', hy', hxnumber, hynumber, ?_⟩
  have hleast_x := he.least x hx
  have hleast_y := he.least y hy
  unfold Level at hlevel ⊢
  rw [hxresends, hyresends]
  split <;> split <;> subst_vars <;> omega

/-- Any number of repetitions. -/
theorem Pads.level (h : a.Pads b) (ha : a.Sound) (hlevel : Level x y) (hx : a.Usable x)
    (hy : a.Usable y) :
    ∃ x' y', b.Usable x' ∧ b.Usable y' ∧ b.find? x.number = some x' ∧
      b.find? y.number = some y' ∧ Level x' y' := by
  induction h generalizing x y with
  | refl a =>
    exact ⟨x, y, hx, hy, ha.sorted.find?_eq_some.mpr ⟨hx.stored, rfl⟩,
      ha.sorted.find?_eq_some.mpr ⟨hy.stored, rfl⟩, hlevel⟩
  | @more a b c now wrap copy made rest ih =>
    obtain ⟨hnone, -⟩ | ⟨e, copy', he, hsome, hperform⟩ := a.perform_fetchPadding now wrap
    · rw [hnone] at made
      cases made
    · rw [hsome] at made
      obtain ⟨rfl, rfl⟩ := made
      have hbest := ha.best_of_candidate he
      obtain ⟨x', y', hx', hy', hxnumber, hynumber, hlevel'⟩ :=
        hlevel.repeated hbest hx hy (ha.repeats_countResend hbest.usable.stored now)
      rw [← hxnumber, ← hynumber]
      exact ih (ha.countResend hbest.usable.stored now) hlevel' hx' hy'

/-- After any run, padding is asked of the best packet that may be repeated and of no other, and it
counts as one resend of that packet. Nothing is asked if there is no such packet. However often
padding is made, two packets that were resent equally often are never more than one resend apart. -/
theorem padding_even (enabled : Bool) (limit : Nat) (ops : List Operation) :
    let a := (new enabled limit).performAll ops
    (∀ e, a.Usable e → ∃! x, a.Best x) ∧
    (∀ e, a.Best e → ∀ now, ∃ b, a.Repeats e now b ∧
      ∀ wrap, a.fetchPadding now wrap = (wrap e.packet).map (·, b)) ∧
    ((∀ e, ¬a.Usable e) → ∀ now wrap, a.fetchPadding now wrap = none) ∧
    ∀ b, a.Pads b → ∀ x y, a.Usable x → a.Usable y → x.resends = y.resends →
      ∃ x' y', b.Usable x' ∧ b.Usable y' ∧ b.find? x.number = some x' ∧
        b.find? y.number = some y' ∧ Level x' y' := by
  intro a
  have ha : a.Sound := (Sound.new enabled limit).performAll ops
  refine ⟨fun e he => ha.existsUnique_best he, fun e he now => ?_, ha.fetchPadding_eq_none, ?_⟩
  · exact ⟨_, ha.repeats_countResend he.usable.stored now, ha.fetchPadding_eq he now⟩
  · intro b hb x y hx hy hequal
    have hlevel : Level x y :=
      ⟨Nat.le_succ_of_le (Nat.le_of_eq hequal), Nat.le_succ_of_le (Nat.le_of_eq hequal.symm)⟩
    exact hb.level ha hlevel hx hy

/-- Of three packets the latest is repeated first, and again after one round. -/
example :
    let packet (low : UInt16) : Packet :=
      { extensions := .empty, capacity := 12, sequenceNumber := low }
    let a := (new true 10).performAll ([1, 2, 3].map fun low => .store (packet low) (some 0))
    let padded := a.performAll (List.replicate 4 (.fetchPadding 9 some))
    padded.entries.map (·.resends) = [1, 1, 2] := by decide

end LayeredRtp.Archive
