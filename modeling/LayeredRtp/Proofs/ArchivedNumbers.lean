import LayeredRtp.Proofs.ArchiveRuns

/-! The archive finds packets by the low bits of their numbers. The newest number moves with every
packet stored, also when late packets come or all entries have left, and as long as the numbers
stay within half a cycle of it each entry is found by its own number and by no other one that ends
in the same bits. -/
namespace LayeredRtp

open SequenceNumber

def Deposit.newest? (puts : List Deposit) : Option Nat := (puts.map (·.number)).max?

namespace Deposit

variable {puts : List Deposit} {d : Deposit}

theorem newest?_append (puts : List Deposit) (d : Deposit) :
    newest? (puts ++ [d]) = some (match newest? puts with
      | some top => max top d.number
      | none => d.number) := by
  cases h : newest? puts with
  | none =>
    have hnil : puts = [] := by simpa [newest?] using h
    simp [newest?, hnil]
  | some top =>
    obtain ⟨hmem, hle⟩ := List.max?_eq_some_iff.mp h
    apply List.max?_eq_some_iff.mpr
    rw [List.map_append]
    refine ⟨?_, ?_⟩
    · cases Nat.le_total top d.number with
      | inl hge => simp [Nat.max_eq_right hge]
      | inr hle => exact List.mem_append_left _ (by simpa [Nat.max_eq_left hle] using hmem)
    · intro number hnumber
      cases List.mem_append.mp hnumber with
      | inl hold => exact Nat.le_trans (hle number hold) (Nat.le_max_left _ _)
      | inr hnew =>
        have heq : number = d.number := by simpa using hnew
        exact heq ▸ Nat.le_max_right _ _

end Deposit

namespace ArchiveEntry

def IsLast (e : ArchiveEntry) (puts : List Deposit) : Prop :=
  ∃ earlier later, puts = earlier ++ e.deposit :: later ∧ e.arrival = earlier.length + 1 ∧
    ∀ d ∈ later, d.number ≠ e.number

variable {e x : ArchiveEntry} {entries : List ArchiveEntry} {puts : List Deposit}

theorem IsLast.of_origin (h : e.IsLast puts) (horigin : e.origin = x.origin) : x.IsLast puts := by
  have hdeposit : e.deposit = x.deposit := congrArg (·.1) horigin
  have harrival : e.arrival = x.arrival := congrArg (·.2) horigin
  unfold IsLast
  rw [← hdeposit, ← harrival, ← number_of_origin horigin]
  exact h

/-- Storing under another number takes nothing from an entry. -/
theorem IsLast.append (h : e.IsLast puts) {d : Deposit} (hd : d.number ≠ e.number) :
    e.IsLast (puts ++ [d]) := by
  obtain ⟨earlier, later, hputs, harrival, hlater⟩ := h
  refine ⟨earlier, later ++ [d], by simp [hputs], harrival, ?_⟩
  intro c hc
  cases List.mem_append.mp hc with
  | inl hold => exact hlater c hold
  | inr hnew => exact List.mem_singleton.mp hnew ▸ hd

theorem modify_of_ne {number : Nat} (f : ArchiveEntry → ArchiveEntry)
    (h : ∀ x ∈ entries, x.number ≠ number) : modify number f entries = entries := by
  have hid : ∀ x ∈ entries, (if x.number = number then f x else x) = id x :=
    fun x hx => if_neg (h x hx)
  rw [modify, List.map_congr_left hid, List.map_id]

theorem mem_insert : x ∈ e.insert entries ↔ x = e ∨ x ∈ entries := by
  induction entries with
  | nil => simp [insert]
  | cons y rest ih =>
    by_cases h : e.number < y.number
    · simp [insert, h]
    · simp only [insert, h, if_false, List.mem_cons, ih]
      exact or_left_comm

theorem sorted_insert (h : entries.Pairwise fun x y => x.number < y.number)
    (hnew : ∀ x ∈ entries, x.number ≠ e.number) :
    (e.insert entries).Pairwise fun x y => x.number < y.number := by
  induction entries with
  | nil => exact List.pairwise_singleton _ _
  | cons y rest ih =>
    obtain ⟨hfirst, hrest⟩ := List.pairwise_cons.mp h
    have hne : y.number ≠ e.number := hnew y (by simp)
    simp only [insert]
    split
    · rename_i hlt
      apply List.pairwise_cons.mpr
      refine ⟨fun x hx => ?_, h⟩
      cases List.mem_cons.mp hx with
      | inl hy => exact hy ▸ hlt
      | inr hx => exact Nat.lt_trans hlt (hfirst x hx)
    · rename_i hge
      apply List.pairwise_cons.mpr
      refine ⟨fun x hx => ?_, ih hrest fun x hx => hnew x (List.mem_cons_of_mem y hx)⟩
      cases mem_insert.mp hx with
      | inl he => rw [he]; omega
      | inr hx => exact hfirst x hx

end ArchiveEntry

namespace Archive

variable {a b : Archive} {e : ArchiveEntry} {below above : List ArchiveEntry} {number : Nat}
  {puts : List Deposit} {packet : Packet}

structure Around (a : Archive) (e : ArchiveEntry) (below above : List ArchiveEntry) : Prop where
  entries : a.entries = below ++ e :: above
  below : ∀ x ∈ below, x.number < e.number
  above : ∀ x ∈ above, e.number < x.number

theorem Sorted.around (h : a.Sorted) (he : e ∈ a.entries) :
    ∃ below above, a.Around e below above := by
  obtain ⟨below, above, hentries⟩ := List.append_of_mem he
  unfold Sorted at h
  rw [hentries] at h
  obtain ⟨_, hright, hcross⟩ := List.pairwise_append.mp h
  refine ⟨below, above, hentries, fun x hx => hcross x hx e (by simp), ?_⟩
  exact (List.pairwise_cons.mp hright).1

theorem Around.modify (h : a.Around e below above) (f : ArchiveEntry → ArchiveEntry) :
    ArchiveEntry.modify e.number f a.entries = below ++ f e :: above := by
  have hbelow := ArchiveEntry.modify_of_ne f fun x hx => Nat.ne_of_lt (h.below x hx)
  have habove := ArchiveEntry.modify_of_ne f fun x hx => Nat.ne_of_gt (h.above x hx)
  rw [ArchiveEntry.modify] at hbelow habove
  simp [ArchiveEntry.modify, h.entries, hbelow, habove]

theorem Sorted.find?_eq_some (h : a.Sorted) :
    a.find? number = some e ↔ e ∈ a.entries ∧ e.number = number := by
  constructor
  · intro hfind
    exact ⟨List.mem_of_find?_eq_some hfind, by simpa using List.find?_some hfind⟩
  · intro ⟨he, hnumber⟩
    obtain ⟨below, above, haround⟩ := h.around he
    apply List.find?_eq_some_iff_append.mpr
    refine ⟨by simpa using hnumber, below, above, haround.entries, fun x hx => ?_⟩
    have hlt : x.number < e.number := haround.below x hx
    simp only [Bool.not_eq_true', beq_eq_false_iff_ne]
    omega

structure Unused (a : Archive) : Prop where
  enabled : a.enabled = true
  entries : a.entries = []
  newest : a.newest = none
  arrivals : a.arrivals = 0

theorem unused_new (limit : Nat) : (new true limit).Unused := ⟨rfl, rfl, rfl, rfl⟩

structure Keyed (a : Archive) (puts : List Deposit) : Prop where
  enabled : a.enabled = true
  newest : a.newest = Deposit.newest? puts
  arrivals : a.arrivals = puts.length
  sorted : a.Sorted
  last : ∀ e ∈ a.entries, e.IsLast puts

namespace Keyed

theorem unused (h : a.Unused) : a.Keyed [] where
  enabled := h.enabled
  newest := h.newest
  arrivals := h.arrivals
  sorted := by simp [Sorted, h.entries]
  last := by simp [h.entries]

theorem keeps (h : a.Keyed puts) (hkeeps : a.Keeps b) : b.Keyed puts where
  enabled := hkeeps.enabled.trans h.enabled
  newest := hkeeps.newest.trans h.newest
  arrivals := hkeeps.arrivals.trans h.arrivals
  sorted := hkeeps.sorted h.sorted
  last := by
    intro e he
    obtain ⟨x, hx, horigin⟩ := hkeeps.exists_origin he
    exact (h.last x hx).of_origin horigin

theorem numberOf (h : a.Keyed puts) (near : Near (Deposit.newest? puts) number) :
    a.numberOf (wire number) = number := by
  rw [Archive.numberOf, h.newest, recover_wire near]

theorem insert (h : a.Keyed puts) (hnew : ∀ x ∈ a.entries, x.number ≠ number) (packet : Packet)
    (sendTime : Option Time) :
    (a.insert number packet sendTime).Keyed (puts ++ [⟨number, packet⟩]) where
  enabled := h.enabled
  newest := by
    rw [Deposit.newest?_append, ← h.newest]
    rfl
  arrivals := by simp [Archive.insert, h.arrivals]
  sorted := ArchiveEntry.sorted_insert h.sorted hnew
  last := by
    intro e he
    cases ArchiveEntry.mem_insert.mp he with
    | inl hnewest =>
      subst hnewest
      exact ⟨puts, [], rfl, congrArg (· + 1) h.arrivals, by simp⟩
    | inr hold => exact (h.last e hold).append (Ne.symm (hnew e hold))

theorem store (h : a.Keyed puts) (low : packet.sequenceNumber = wire number)
    (near : Near (Deposit.newest? puts) number) (sendTime : Option Time) :
    (a.store packet sendTime).Keyed (puts ++ [⟨number, packet⟩]) := by
  have hcleared : (a.erase number).Keyed puts := h.keeps (keeps_erase a number)
  have hinsert := hcleared.insert ne_of_mem_erase packet sendTime
  rw [store_eq h.enabled, low, h.numberOf near]
  exact hinsert.keeps ((keeps_noteSent _ sendTime).trans (keeps_trim _))

end Keyed

/-- An archive that is never turned off or cleared, and the packets that were stored in it so far,
with numbers within half a cycle of the largest before. -/
inductive Run : Archive → List Deposit → Prop
  | start {a : Archive} (unused : a.Unused) : Run a []
  | store {a : Archive} {puts : List Deposit} (run : Run a puts) (number : Nat)
      (packet : Packet) (low : packet.sequenceNumber = wire number)
      (near : Near (Deposit.newest? puts) number) (sendTime : Option Time) :
      Run (a.store packet sendTime) (puts ++ [⟨number, packet⟩])
  | retain {a : Archive} {puts : List Deposit} {op : Operation} (run : Run a puts)
      (retains : op.retains = true) : Run (a.perform op) puts

theorem Run.keyed (run : Run a puts) : a.Keyed puts := by
  induction run with
  | start unused => exact .unused unused
  | store _ _ _ low near sendTime ih => exact ih.store low near sendTime
  | retain _ retains ih => exact ih.keeps (Operation.keeps ih.enabled retains)

/-- The answers to fetching by a number: a copy of the packet with that number, whose entry alone
is changed, or nothing if no such packet may be sent. -/
inductive Fetched (a : Archive) (number : Nat) (now : Time) (wrap : Packet → Option Packet) :
    Option (Packet × Archive) → Prop
  | copied {e : ArchiveEntry} {below above : List ArchiveEntry} {copy : Packet}
      (around : a.Around e below above) (own : e.number = number) (free : e.pending = false)
      (due : e.isThrottled a.rtt now = false) (wrapped : wrap e.packet = some copy) :
      Fetched a number now wrap
        (some (copy, { a with entries := below ++ { e with pending := true } :: above }))
  | missed (unfit : ∀ e ∈ a.entries, e.number = number →
        e.pending = true ∨ e.isThrottled a.rtt now = true ∨ wrap e.packet = none) :
      Fetched a number now wrap none

inductive Marked (a : Archive) (number : Nat) (now : Time) : Archive → Prop
  | counted {e : ArchiveEntry} {below above : List ArchiveEntry}
      (around : a.Around e below above) (own : e.number = number) :
      Marked a number now (noteSend
        { a with
          entries := below ++ { e.resent now with pending := false } :: above
          ranking := (e.resent now).rank.insert (a.ranking.erase e.rank) } now)
  | missed (absent : ∀ e ∈ a.entries, e.number ≠ number) : Marked a number now a

theorem ne_of_find?_eq_none (h : a.find? number = none) : ∀ e ∈ a.entries, e.number ≠ number := by
  simpa [find?] using h

theorem Sorted.eq_of_number (h : a.Sorted) (hfind : a.find? number = some e) {x : ArchiveEntry}
    (hx : x ∈ a.entries) (hnumber : x.number = number) : x = e := by
  have hsome : a.find? number = some x := h.find?_eq_some.mpr ⟨hx, hnumber⟩
  exact Option.some.inj (hsome.symm.trans hfind)

theorem Keyed.fetched (h : a.Keyed puts) (near : Near (Deposit.newest? puts) number) (now : Time)
    (wrap : Packet → Option Packet) :
    a.Fetched number now wrap (a.fetch (wire number) now wrap) := by
  have hresendable : a.resendable? (wire number) now =
      (a.find? number).filter fun e => !e.pending && !e.isThrottled a.rtt now := by
    rw [resendable?, if_pos h.enabled, h.numberOf near]
  rw [fetch, hresendable]
  cases hfind : a.find? number with
  | none => exact .missed fun e he hnumber => absurd hnumber (ne_of_find?_eq_none hfind e he)
  | some e =>
    obtain ⟨he, hnumber⟩ := h.sorted.find?_eq_some.mp hfind
    obtain ⟨below, above, haround⟩ := h.sorted.around he
    have honly : ∀ x ∈ a.entries, x.number = number → x = e :=
      fun x hx => h.sorted.eq_of_number hfind hx
    cases hpending : e.pending with
    | true =>
      simp only [Option.filter, hpending, Bool.not_true, Bool.false_and]
      exact .missed fun x hx hown => .inl (honly x hx hown ▸ hpending)
    | false =>
      cases hthrottled : e.isThrottled a.rtt now with
      | true =>
        simp only [Option.filter, hpending, hthrottled, Bool.not_true, Bool.and_false]
        exact .missed fun x hx hown => .inr (.inl (honly x hx hown ▸ hthrottled))
      | false =>
        simp only [Option.filter, hpending, hthrottled, Bool.not_false, Bool.and_self, if_true]
        cases hwrap : wrap e.packet with
        | none =>
          simp only [bind, hwrap, Option.bind]
          exact .missed fun x hx hown => .inr (.inr (honly x hx hown ▸ hwrap))
        | some copy =>
          simp only [bind, hwrap, Option.bind, pure, markPending, haround.modify]
          exact .copied haround hnumber hpending hthrottled hwrap

theorem Keyed.marked (h : a.Keyed puts) (near : Near (Deposit.newest? puts) number) (now : Time) :
    a.Marked number now (a.markSent (wire number) now) := by
  rw [markSent, if_pos h.enabled, h.numberOf near]
  cases hfind : a.find? number with
  | none => exact .missed (ne_of_find?_eq_none hfind)
  | some e =>
    obtain ⟨he, hnumber⟩ := h.sorted.find?_eq_some.mp hfind
    obtain ⟨below, above, haround⟩ := h.sorted.around he
    have hresent : (a.countResend e now).Around (e.resent now) below above :=
      ⟨haround.modify (·.resent now), haround.below, haround.above⟩
    have hentries := hresent.modify ({ · with pending := false })
    change ArchiveEntry.modify e.number _ _ = _ at hentries
    simp only [hentries]
    simp only [countResend, hnumber]
    exact .counted haround hnumber

/-- In every run the entries hold the packets last stored under their numbers, and a number within
half a cycle of the newest is taken for itself and for no other with the same low bits. -/
theorem Run.finds_own_number (run : Run a puts) (number : Nat)
    (near : Near (Deposit.newest? puts) number) (now : Time) (wrap : Packet → Option Packet) :
    (a.Sorted ∧ ∀ e ∈ a.entries, e.IsLast puts) ∧
      a.Fetched number now wrap (a.fetch (wire number) now wrap) ∧
      a.Marked number now (a.markSent (wire number) now) :=
  ⟨⟨run.keyed.sorted, run.keyed.last⟩, run.keyed.fetched near now wrap, run.keyed.marked near now⟩

def numbered (number : Nat) : Packet :=
  { extensions := .empty, capacity := 12, sequenceNumber := wire number }

/-- One cycle on, with the packets at both ends still stored, the low bits stand for the newer. -/
theorem finds_own_number_after_cycle :
    let a := ((((new true 10).store (numbered 0) (some 0)).store (numbered 0x7fff) (some 1)).store
      (numbered 0xfffe) (some 2)).store (numbered 0x10000) (some 3)
    a.entries.map (·.number) = [0, 0x7fff, 0xfffe, 0x10000] ∧
      (a.Sorted ∧ ∀ e ∈ a.entries, e.IsLast ([0, 0x7fff, 0xfffe, 0x10000].map fun number =>
        ⟨number, numbered number⟩)) ∧
      a.Fetched 0x10000 5 some (a.fetch (wire 0) 5 some) ∧
      a.Marked 0x10000 5 (a.markSent (wire 0) 5) := by
  have start : Run (new true 10) [] := .start (unused_new 10)
  have run := (((start.store 0 (numbered 0) rfl (by decide) (some 0)).store 0x7fff (numbered 0x7fff)
    rfl (by decide) (some 1)).store 0xfffe (numbered 0xfffe) rfl (by decide) (some 2)).store
    0x10000 (numbered 0x10000) rfl (by decide) (some 3)
  exact ⟨by decide, run.finds_own_number 0x10000 (by decide) 5 some⟩

end Archive
end LayeredRtp
