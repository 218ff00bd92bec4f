import LayeredRtp.Proofs.ArchivedNumbers
import LayeredRtp.Proofs.PaddingRanking

/-! What holds of an archive whatever was done to it. The ranking is kept beside the entries by
hand, and its ranks hold counts that change, so each operation has to take the old rank out before
it puts the new one in; an operation that did not would leave ranks without entries. -/
namespace LayeredRtp

theorem ArchiveEntry.insert_perm (e : ArchiveEntry) (entries : List ArchiveEntry) :
    (e.insert entries).Perm (e :: entries) := by
  induction entries with
  | nil => exact .refl _
  | cons x rest ih =>
    by_cases h : e.number < x.number
    · simp [insert, h]
    · rw [insert, if_neg h]
      exact (ih.cons x).trans (.swap e x rest)

namespace Archive

variable {a b : Archive} {e : ArchiveEntry} {number : Nat}

theorem limit_noteSend (a : Archive) (t : Time) : (a.noteSend t).limit = a.limit := by
  obtain ⟨latest, heq⟩ := a.noteSend_eq t
  rw [heq]

theorem limit_noteSent (a : Archive) (sendTime : Option Time) :
    (a.noteSent sendTime).limit = a.limit := by
  cases sendTime with
  | none => rfl
  | some t => exact limit_noteSend a t

theorem limit_erase (a : Archive) (number : Nat) : (a.erase number).limit = a.limit := by
  obtain ⟨ranking, heq⟩ := a.erase_eq number
  rw [heq]

theorem limit_store (a : Archive) (packet : Packet) (sendTime : Option Time) :
    (a.store packet sendTime).limit = a.limit := by
  cases henabled : a.enabled with
  | false => simp [store, henabled]
  | true =>
    rw [store_eq henabled]
    refine (limit_noteSent _ sendTime).trans ?_
    exact limit_erase a _

theorem Around.ne {below above : List ArchiveEntry} (h : a.Around e below above) :
    ∀ x ∈ below ++ above, x.number ≠ e.number := by
  intro x hx
  cases List.mem_append.mp hx with
  | inl hx => exact Nat.ne_of_lt (h.below x hx)
  | inr hx => exact Nat.ne_of_gt (h.above x hx)

theorem Around.perm {below above : List ArchiveEntry} (h : a.Around e below above) :
    a.entries.Perm (e :: (below ++ above)) := by
  rw [h.entries]
  exact List.perm_middle

def clearPending (a : Archive) (number : Nat) : Archive :=
  { a with entries := ArchiveEntry.modify number ({ · with pending := false }) a.entries }

/-- Marking a number as sent counts a resend of the entry with that number, if there is one. -/
theorem markSent_cases (a : Archive) (low : UInt16) (now : Time) :
    a.markSent low now = a ∧ (a.enabled = true → a.find? (a.numberOf low) = none) ∨
      ∃ e, a.enabled = true ∧ a.find? (a.numberOf low) = some e ∧
        a.markSent low now = ((a.countResend e now).clearPending e.number).noteSend now := by
  unfold markSent
  cases henabled : a.enabled with
  | false => exact .inl ⟨rfl, nofun⟩
  | true =>
    cases hfind : a.find? (a.numberOf low) with
    | none => exact .inl ⟨rfl, fun _ => rfl⟩
    | some e => exact .inr ⟨e, rfl, rfl, rfl⟩

structure Stored (a : Archive) : Prop where
  sorted : a.Sorted
  arrived : ∀ e ∈ a.entries, e.arrival ≤ a.arrivals
  arrivals : (a.entries.map (·.arrival)).Nodup
  low : ∀ e ∈ a.entries, SequenceNumber.wire e.number = e.packet.sequenceNumber
  newest : ∀ e ∈ a.entries, ∃ top, a.newest = some top ∧ e.number ≤ top
  idle : a.enabled = false → a.entries = []

namespace Stored

theorem of_empty (h : a.entries = []) : a.Stored where
  sorted := by simp [Sorted, h]
  arrived := by simp [h]
  arrivals := by simp [h]
  low := by simp [h]
  newest := by simp [h]
  idle _ := h

theorem keeps (h : a.Stored) (hkeeps : a.Keeps b) : b.Stored where
  sorted := hkeeps.sorted h.sorted
  arrived := by
    intro e he
    obtain ⟨x, hx, horigin⟩ := hkeeps.exists_origin he
    have harrival : x.arrival = e.arrival := congrArg (·.2) horigin
    rw [hkeeps.arrivals, ← harrival]
    exact h.arrived x hx
  arrivals := by
    have horigins : (b.entries.map (·.arrival)).Sublist (a.entries.map (·.arrival)) := by
      have hmapped := hkeeps.origins.map (·.2)
      simpa [ArchiveEntry.origin, Function.comp_def] using hmapped
    exact h.arrivals.sublist horigins
  low := by
    intro e he
    obtain ⟨x, hx, horigin⟩ := hkeeps.exists_origin he
    have hnumber := ArchiveEntry.number_of_origin horigin
    have hpacket : x.packet = e.packet := congrArg (·.1.packet) horigin
    rw [← hnumber, ← hpacket]
    exact h.low x hx
  newest := by
    intro e he
    obtain ⟨x, hx, horigin⟩ := hkeeps.exists_origin he
    rw [hkeeps.newest, ← ArchiveEntry.number_of_origin horigin]
    exact h.newest x hx
  idle := by
    intro hidle
    have hnone := h.idle (hkeeps.enabled.symm.trans hidle)
    simpa [hnone] using hkeeps.origins

theorem setStorage (h : a.Stored) (enabled : Bool) (limit : Nat) :
    (a.setStorage enabled limit).Stored := by
  cases enabled with
  | false => exact of_empty rfl
  | true => exact ⟨h.sorted, h.arrived, h.arrivals, h.low, h.newest, nofun⟩

/-- A packet comes under its own low bits. -/
theorem insert (h : a.Stored) (henabled : a.enabled = true)
    (hnew : ∀ x ∈ a.entries, x.number ≠ number) {packet : Packet}
    (low : SequenceNumber.wire number = packet.sequenceNumber) (sendTime : Option Time) :
    (a.insert number packet sendTime).Stored where
  sorted := ArchiveEntry.sorted_insert h.sorted hnew
  arrived := by
    intro e he
    cases ArchiveEntry.mem_insert.mp he with
    | inl heq => exact heq ▸ Nat.le_refl _
    | inr hold => exact Nat.le_succ_of_le (h.arrived e hold)
  arrivals := by
    have hperm := (ArchiveEntry.insert_perm
      { number, packet, sendTime, arrival := a.arrivals + 1 } a.entries).map (·.arrival)
    refine hperm.nodup_iff.mpr (List.nodup_cons.mpr ⟨fun hmem => ?_, h.arrivals⟩)
    obtain ⟨e, he, harrival⟩ := List.mem_map.mp hmem
    have hle := h.arrived e he
    simp only at harrival
    omega
  low := by
    intro e he
    cases ArchiveEntry.mem_insert.mp he with
    | inl heq => exact heq ▸ low
    | inr hold => exact h.low e hold
  newest := by
    intro e he
    refine ⟨_, rfl, ?_⟩
    cases ArchiveEntry.mem_insert.mp he with
    | inl heq =>
      rw [heq]
      cases a.newest with
      | none => exact Nat.le_refl _
      | some top => exact Nat.le_max_right _ _
    | inr hold =>
      obtain ⟨top, htop, hle⟩ := h.newest e hold
      rw [htop]
      exact Nat.le_trans hle (Nat.le_max_left _ _)
  idle hidle := by
    have hstill : a.enabled = false := hidle
    rw [henabled] at hstill
    cases hstill

end Stored

/-- The ranking has one rank for each entry, with the counts that the entry has at present, in the
order of preference. -/
def Ranked (a : Archive) : Prop := PaddingRank.Reflects a.ranking a.entries

namespace Ranked

theorem erase (h : a.Ranked) (hsorted : a.Sorted) (number : Nat) : (a.erase number).Ranked := by
  unfold Archive.erase
  cases hfind : a.find? number with
  | none => exact h
  | some e =>
    obtain ⟨he, hnumber⟩ := hsorted.find?_eq_some.mp hfind
    obtain ⟨below, above, haround⟩ := hsorted.around he
    have hkept : (below ++ above).filter (·.number != number) = below ++ above :=
      List.filter_eq_self.mpr fun x hx => by simpa [hnumber] using haround.ne x hx
    have hentries : a.entries.filter (·.number != number) = below ++ above := by
      simpa [haround.entries, hnumber] using hkept
    simp only [Ranked, hentries]
    exact PaddingRank.Reflects.erase h haround.perm

theorem insert (h : a.Ranked) (hnew : ∀ x ∈ a.entries, x.number ≠ number) (packet : Packet)
    (sendTime : Option Time) : (a.insert number packet sendTime).Ranked :=
  PaddingRank.Reflects.insert h (ArchiveEntry.insert_perm _ _) hnew

theorem trim (h : a.Ranked) : a.trim.Ranked := h.drop a.surplus

theorem noteSend (h : a.Ranked) (t : Time) : (a.noteSend t).Ranked := by
  obtain ⟨latest, heq⟩ := a.noteSend_eq t
  rw [heq]
  exact h

theorem noteSent (h : a.Ranked) (sendTime : Option Time) : (a.noteSent sendTime).Ranked := by
  cases sendTime with
  | none => exact h
  | some t => exact h.noteSend t

/-- Changes that no rank tells of. -/
theorem modify (h : a.Ranked) {f : ArchiveEntry → ArchiveEntry} (hf : ∀ e, (f e).rank = e.rank)
    (number : Nat) : { a with entries := ArchiveEntry.modify number f a.entries }.Ranked := by
  refine h.congr ?_
  simp only [ArchiveEntry.modify, List.map_map]
  apply List.map_congr_left
  intro e _
  by_cases hnumber : e.number = number <;> simp [hnumber, hf]

theorem countResend (h : a.Ranked) (hsorted : a.Sorted) (he : e ∈ a.entries) (now : Time) :
    (a.countResend e now).Ranked := by
  obtain ⟨below, above, haround⟩ := hsorted.around he
  have hresent : (a.countResend e now).Around (e.resent now) below above :=
    ⟨haround.modify (·.resent now), haround.below, haround.above⟩
  exact (PaddingRank.Reflects.erase h haround.perm).insert hresent.perm hresent.ne

end Ranked

theorem mem_of_paddingCandidate (h : a.paddingCandidate? = some e) :
    e ∈ a.entries ∧ e.sendTime.isSome = true ∧ e.pending = false := by
  unfold paddingCandidate? at h
  split at h
  · obtain ⟨r, -, hr⟩ := List.exists_of_findSome?_eq_some h
    obtain ⟨hfind, hfit⟩ := Option.filter_eq_some_iff.mp hr
    exact ⟨List.mem_of_find?_eq_some hfind, by simpa using hfit⟩
  · cases h

theorem find?_of_resendable {low : UInt16} {now : Time} (h : a.resendable? low now = some e) :
    a.find? (a.numberOf low) = some e ∧ e.pending = false := by
  unfold resendable? at h
  split at h
  · obtain ⟨hfind, hfit⟩ := Option.filter_eq_some_iff.mp h
    simp only [Bool.and_eq_true, Bool.not_eq_true'] at hfit
    exact ⟨hfind, hfit.1⟩
  · cases h

structure Sound (a : Archive) : Prop extends a.Stored where
  ranked : a.Ranked
  limit : a.limit ≤ maxLimit
  size : a.size ≤ maxLimit

theorem size_trim_le (a : Archive) : a.trim.size ≤ a.limit := by
  simp only [size, trim, surplus, List.length_drop]
  omega

namespace Sound

theorem of_empty (hentries : a.entries = []) (hranking : a.ranking = [])
    (hlimit : a.limit ≤ maxLimit) : a.Sound where
  toStored := .of_empty hentries
  ranked := by
    rw [Ranked, hentries, hranking]
    exact .nil
  limit := hlimit
  size := by simp [Archive.size, hentries]

theorem new (enabled : Bool) (limit : Nat) : (Archive.new enabled limit).Sound :=
  of_empty rfl rfl (Nat.min_le_right _ _)

/-- What retains the packets and takes none needs a look at the ranks only. -/
theorem keeps (h : a.Sound) (hkeeps : a.Keeps b) (hranked : b.Ranked) (hlimit : b.limit = a.limit) :
    b.Sound where
  toStored := h.toStored.keeps hkeeps
  ranked := hranked
  limit := hlimit ▸ h.limit
  size := by
    have hlength := hkeeps.origins.length_le
    simp only [List.length_map] at hlength
    exact Nat.le_trans hlength h.size

/-- Trimming brings the archive down to its limit. -/
theorem trim (hstored : a.Stored) (hranked : a.Ranked) (hlimit : a.limit ≤ maxLimit) :
    a.trim.Sound where
  toStored := hstored.keeps (keeps_trim a)
  ranked := hranked.trim
  limit := hlimit
  size := Nat.le_trans (size_trim_le a) hlimit

theorem setRtt (h : a.Sound) (rtt : Time) : (a.setRtt rtt).Sound :=
  trim { h.toStored with } h.ranked h.limit

theorem setStorage (h : a.Sound) (enabled : Bool) (limit : Nat) :
    (a.setStorage enabled limit).Sound := by
  have hlimit : min limit maxLimit ≤ maxLimit := Nat.min_le_right _ _
  cases enabled with
  | false => exact of_empty rfl rfl hlimit
  | true => exact ⟨h.toStored.setStorage true limit, h.ranked, hlimit, h.size⟩

theorem erase (h : a.Sound) (number : Nat) : (a.erase number).Sound :=
  h.keeps (keeps_erase a number) (h.ranked.erase h.sorted number) (limit_erase a number)

theorem markPending (h : a.Sound) (number : Nat) : (a.markPending number).Sound :=
  h.keeps (keeps_markPending a number)
    (h.ranked.modify (f := ({ · with pending := true })) (fun _ => rfl) number) rfl

theorem countResend (h : a.Sound) (he : e ∈ a.entries) (now : Time) :
    (a.countResend e now).Sound :=
  h.keeps (keeps_countResend a e now) (h.ranked.countResend h.sorted he now) rfl

theorem markSent (h : a.Sound) (low : UInt16) (now : Time) : (a.markSent low now).Sound := by
  have hkeeps := keeps_markSent a low now
  obtain ⟨heq, -⟩ | ⟨e, -, hfind, heq⟩ := a.markSent_cases low now
  · rw [heq]
    exact h
  · rw [heq] at hkeeps ⊢
    have hcounted := h.ranked.countResend h.sorted (h.sorted.find?_eq_some.mp hfind).1 now
    have hcleared : ((a.countResend e now).clearPending e.number).Ranked :=
      hcounted.modify (f := ({ · with pending := false })) (fun _ => rfl) e.number
    exact h.keeps hkeeps (hcleared.noteSend now) (limit_noteSend _ now)

/-- A packet takes the place of the one with its number. For a moment the archive may hold one entry
more than it should, until it is trimmed. -/
theorem store (h : a.Sound) (packet : Packet) (sendTime : Option Time) :
    (a.store packet sendTime).Sound ∧ (a.store packet sendTime).size ≤ a.limit := by
  cases henabled : a.enabled with
  | false =>
    have hsame : a.store packet sendTime = a := by simp [Archive.store, henabled]
    have hsize : a.size ≤ a.limit := by simp [Archive.size, h.idle henabled]
    rw [hsame]
    exact ⟨h, hsize⟩
  | true =>
    rw [store_eq henabled]
    generalize hnumber : a.numberOf packet.sequenceNumber = number
    have hlow : SequenceNumber.wire number = packet.sequenceNumber := by
      rw [← hnumber, numberOf, SequenceNumber.wire_recover]
    have hcleared : (a.erase number).Sound := h.erase number
    have hon : (a.erase number).enabled = true := (keeps_erase a number).enabled.trans henabled
    have hstored := hcleared.insert hon ne_of_mem_erase hlow sendTime
    have hranked := hcleared.ranked.insert ne_of_mem_erase packet sendTime
    have hsame : (((a.erase number).insert number packet sendTime).noteSent sendTime).limit =
        a.limit := (limit_noteSent _ sendTime).trans (limit_erase a number)
    exact ⟨trim (hstored.keeps (keeps_noteSent _ sendTime)) (hranked.noteSent sendTime)
      (hsame ▸ h.limit), hsame ▸ size_trim_le _⟩

/-- One operation, whatever its arguments, leaves an archive sound. -/
theorem perform (h : a.Sound) (op : Operation) : (a.perform op).Sound := by
  cases op with
  | store packet sendTime => exact (h.store packet sendTime).1
  | clear => exact of_empty rfl rfl h.limit
  | setStorage enabled limit => exact h.setStorage enabled limit
  | setRtt rtt => exact h.setRtt rtt
  | markSent low now => exact h.markSent low now
  | fetch low now wrap =>
    obtain ⟨-, heq⟩ | ⟨e, _, -, -, heq⟩ := a.perform_fetch low now wrap
    · rw [heq]
      exact h
    · rw [heq]
      exact h.markPending e.number
  | fetchPadding now wrap =>
    obtain ⟨-, heq⟩ | ⟨e, _, he, -, heq⟩ := a.perform_fetchPadding now wrap
    · rw [heq]
      exact h
    · rw [heq]
      exact h.countResend (mem_of_paddingCandidate he).1 now

end Sound

def performAll (a : Archive) (ops : List Operation) : Archive := ops.foldl perform a

theorem Sound.performAll (h : a.Sound) (ops : List Operation) : (a.performAll ops).Sound := by
  induction ops generalizing a with
  | nil => exact h
  | cons op rest ih => exact ih (h.perform op)

/-- After any run the ranking matches the entries, which are stored once each under numbers with
their own low bits, the newest at most; nothing is stored while the archive is off, and never more
than the greatest limit. Storing a packet and setting the round trip time bring it down to its own
limit. -/
theorem performAll_sound (enabled : Bool) (limit : Nat) (ops : List Operation) :
    let a := (new enabled limit).performAll ops
    a.Sound ∧ (∀ packet sendTime, (a.store packet sendTime).size ≤ (a.store packet sendTime).limit) ∧
      ∀ rtt, (a.setRtt rtt).size ≤ (a.setRtt rtt).limit := by
  intro a
  have ha : a.Sound := (Sound.new enabled limit).performAll ops
  refine ⟨ha, fun packet sendTime => ?_, fun rtt => size_trim_le _⟩
  rw [limit_store]
  exact (ha.store packet sendTime).2

end Archive
end LayeredRtp
