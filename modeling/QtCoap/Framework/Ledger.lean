import Mathlib.Data.List.Basic

namespace Framework

/-- What has become of an item that was handed in. -/
inductive Fate
  | waiting
  | done
  | dropped (time : Nat)
  deriving DecidableEq, Repr

/-- An item with the time it was handed in. -/
structure Entry (α : Type) where
  item : α
  time : Nat
  fate : Fate

/-- Items in the order they were handed in; none is settled while an earlier one waits. -/
structure Ledger (α : Type) where
  entries : List (Entry α)
  fifo : entries.Pairwise fun x y => x.fate = .waiting → y.fate = .waiting

namespace Ledger

variable {α : Type}

def empty : Ledger α := ⟨[], .nil⟩

/-- Hands in an item. -/
def give (l : Ledger α) (time : Nat) (item : α) : Ledger α where
  entries := l.entries ++ [⟨item, time, .waiting⟩]
  fifo := by
    refine List.pairwise_append.mpr ⟨l.fifo, List.pairwise_singleton .., ?_⟩
    intro x _ y hy _
    rw [List.mem_singleton.mp hy]

def Entry.settled (fate : Fate) (x : Entry α) : Entry α :=
  if x.fate = .waiting then { x with fate := fate } else x

/-- All that waits meets its fate. -/
def settle (l : Ledger α) (fate : Fate) : Ledger α where
  entries := l.entries.map (Entry.settled fate)
  fifo := by
    rw [List.pairwise_map]
    refine l.fifo.imp ?_
    intro x y later waits
    by_cases hx : x.fate = .waiting
    · simpa [Entry.settled, hx, later hx] using waits
    · exact absurd waits (by simp [Entry.settled, hx])

/-- The items of one fate, in order. -/
def items (l : Ledger α) (fate : Fate) : List α :=
  (l.entries.filter (fun x => x.fate = fate)).map (·.item)

/-- What is on record of an item for good. -/
def record (l : Ledger α) : List (Nat × α) := l.entries.map fun x => (x.time, x.item)

@[simp] theorem items_empty (fate : Fate) : (empty : Ledger α).items fate = [] := rfl

@[simp] theorem record_give (l : Ledger α) (time : Nat) (item : α) :
    (l.give time item).record = l.record ++ [(time, item)] := by
  simp [record, give]

@[simp] theorem record_settle (l : Ledger α) (fate : Fate) : (l.settle fate).record = l.record := by
  simp only [record, settle]
  rw [List.map_map]
  refine List.map_congr_left fun x _ => ?_
  simp only [Function.comp, Entry.settled]
  split_ifs <;> rfl

/-- The items of one fate are on record in their order. -/
theorem items_sublist (l : Ledger α) (fate : Fate) :
    List.Sublist (l.items fate) (l.record.map Prod.snd) := by
  have listed : l.record.map Prod.snd = l.entries.map (·.item) := by
    rw [record, List.map_map]
    rfl
  rw [listed]
  exact (List.filter_sublist (l := l.entries)).map _

theorem waiting_give (l : Ledger α) (time : Nat) (item : α) :
    (l.give time item).items .waiting = l.items .waiting ++ [item] := by
  simp [items, give, List.filter_append]

theorem items_give (l : Ledger α) (time : Nat) (item : α) {fate : Fate} (other : fate ≠ .waiting) :
    (l.give time item).items fate = l.items fate := by
  simp [items, give, List.filter_append, Ne.symm other]

theorem waiting_settle (l : Ledger α) {fate : Fate} (other : fate ≠ .waiting) :
    (l.settle fate).items .waiting = [] := by
  simp only [items, settle]
  rw [List.map_eq_nil_iff, List.filter_eq_nil_iff]
  intro y hy
  obtain ⟨x, -, rfl⟩ := List.mem_map.mp hy
  simp only [Entry.settled]
  split_ifs with hx
  · simpa using other
  · simpa using hx

/-- What is written now comes behind all that was written before. -/
theorem done_settle (l : Ledger α) :
    (l.settle .done).items .done = l.items .done ++ l.items .waiting := by
  obtain ⟨entries, fifo⟩ := l
  simp only [items, settle]
  induction entries with
  | nil => rfl
  | cons x entries ih =>
    obtain ⟨first, rest⟩ := List.pairwise_cons.mp fifo
    have later := ih rest
    rw [List.map_cons, List.filter_cons, List.filter_cons, List.filter_cons]
    cases hx : x.fate with
    | waiting =>
      have none : entries.filter (fun y => y.fate = .done) = [] :=
        List.filter_eq_nil_iff.mpr fun y hy => by simp [first y hy hx]
      rw [none] at later ⊢
      simpa [Entry.settled, hx] using later
    | done => simpa [Entry.settled, hx] using later
    | dropped time => simpa [Entry.settled, hx] using later

theorem done_settle_dropped (l : Ledger α) (time : Nat) :
    (l.settle (.dropped time)).items .done = l.items .done := by
  simp only [items, settle]
  rw [List.filter_map, List.map_map]
  have same (x : Entry α) : (Entry.settled (.dropped time) x).fate = .done ↔ x.fate = .done := by
    simp only [Entry.settled]
    split_ifs with hx <;> simp [hx]
  have items (x : Entry α) : (Entry.settled (.dropped time) x).item = x.item := by
    simp only [Entry.settled]
    split_ifs <;> rfl
  simp [Function.comp_def, same, items]

/-- An entry that has been dropped was dropped before, or waited until now. -/
theorem dropped_settle {l : Ledger α} {fate : Fate} {x : Entry α} {time : Nat}
    (hx : x ∈ (l.settle fate).entries) (dropped : x.fate = .dropped time) :
    (∃ y ∈ l.entries, y.time = x.time ∧ y.fate = .dropped time) ∨
      fate = .dropped time ∧ ∃ y ∈ l.entries, y.time = x.time := by
  obtain ⟨y, hy, rfl⟩ := List.mem_map.mp hx
  simp only [Entry.settled] at dropped ⊢
  split_ifs at dropped ⊢ with waits
  · exact .inr ⟨dropped, y, hy, rfl⟩
  · exact .inl ⟨y, hy, rfl, dropped⟩

end Ledger

end Framework
