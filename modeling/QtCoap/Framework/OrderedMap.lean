import Mathlib.Data.List.Sort

namespace Framework

/-- A finite map kept as its entries in strictly increasing key order, so that iterating
over it is a walk along one list. -/
structure OrderedMap (κ ν : Type) [LinearOrder κ] where
  entries : List (κ × ν)
  sorted : entries.Pairwise (fun a b => a.1 < b.1)

namespace OrderedMap

variable {κ ν : Type} [LinearOrder κ]

def insertEntry (k : κ) (v : ν) : List (κ × ν) → List (κ × ν)
  | [] => [(k, v)]
  | e :: es =>
    if k < e.1 then (k, v) :: e :: es
    else if k = e.1 then (k, v) :: es
    else e :: insertEntry k v es

theorem mem_insertEntry {k : κ} {v : ν} {es : List (κ × ν)} {e : κ × ν}
    (h : e ∈ insertEntry k v es) : e = (k, v) ∨ e ∈ es := by
  induction es with
  | nil => simpa [insertEntry] using h
  | cons d ds ih =>
    unfold insertEntry at h
    split_ifs at h with hlt heq
    · simpa using h
    · rcases List.mem_cons.mp h with h | h
      · exact .inl h
      · exact .inr (by simp [h])
    · rcases List.mem_cons.mp h with h | h
      · exact .inr (by simp [h])
      · rcases ih h with h | h
        · exact .inl h
        · exact .inr (by simp [h])

theorem insertEntry_sorted (k : κ) (v : ν) (es : List (κ × ν))
    (h : es.Pairwise (fun a b => a.1 < b.1)) :
    (insertEntry k v es).Pairwise (fun a b => a.1 < b.1) := by
  induction es with
  | nil => simp [insertEntry]
  | cons d ds ih =>
    obtain ⟨hd, hds⟩ := List.pairwise_cons.mp h
    simp only [insertEntry]
    split_ifs with hlt heq
    · refine List.pairwise_cons.mpr ⟨?_, h⟩
      intro e he
      rcases List.mem_cons.mp he with rfl | he
      · exact hlt
      · exact hlt.trans (hd e he)
    · exact List.pairwise_cons.mpr ⟨fun e he => heq ▸ hd e he, hds⟩
    · refine List.pairwise_cons.mpr ⟨?_, ih hds⟩
      intro e he
      rcases mem_insertEntry he with rfl | he
      · exact lt_of_le_of_ne (not_lt.mp hlt) (Ne.symm heq)
      · exact hd e he

def empty : OrderedMap κ ν := ⟨[], .nil⟩

def find? (m : OrderedMap κ ν) (k : κ) : Option ν :=
  (m.entries.find? (fun e => e.1 = k)).map Prod.snd

def contains (m : OrderedMap κ ν) (k : κ) : Bool := (m.find? k).isSome

/-- Adds the entry, replacing the value the key had. -/
def insert (m : OrderedMap κ ν) (k : κ) (v : ν) : OrderedMap κ ν :=
  ⟨insertEntry k v m.entries, insertEntry_sorted k v m.entries m.sorted⟩

def erase (m : OrderedMap κ ν) (k : κ) : OrderedMap κ ν :=
  ⟨m.entries.filter (fun e => e.1 ≠ k), m.sorted.filter _⟩

/-- The map with one entry left, if it has that. -/
def restrict (m : OrderedMap κ ν) (k : κ) : OrderedMap κ ν :=
  ⟨m.entries.filter (fun e => e.1 = k), m.sorted.filter _⟩

def modify (m : OrderedMap κ ν) (k : κ) (f : ν → ν) : OrderedMap κ ν :=
  ⟨m.entries.map (fun e => if e.1 = k then (e.1, f e.2) else e), by
    refine List.Pairwise.map _ ?_ m.sorted
    intro a b h
    split_ifs <;> exact h⟩

def mapValues (m : OrderedMap κ ν) (f : ν → ν) : OrderedMap κ ν :=
  ⟨m.entries.map (fun e => (e.1, f e.2)), m.sorted.map _ fun _ _ h => h⟩

/-- The key of the first entry, in key order, whose value satisfies `p`. -/
def findKey? (m : OrderedMap κ ν) (p : ν → Bool) : Option κ :=
  (m.entries.find? (fun e => p e.2)).map Prod.fst

def any (m : OrderedMap κ ν) (p : ν → Bool) : Bool := m.entries.any (fun e => p e.2)

theorem key_unique {es : List (κ × ν)} (h : es.Pairwise (fun a b => a.1 < b.1))
    {k : κ} {v w : ν} (hv : (k, v) ∈ es) (hw : (k, w) ∈ es) : v = w := by
  induction es with
  | nil => simp at hv
  | cons d ds ih =>
    obtain ⟨hd, hds⟩ := List.pairwise_cons.mp h
    rcases List.mem_cons.mp hv with hv | hv <;> rcases List.mem_cons.mp hw with hw | hw
    · exact (Prod.mk.inj (hv.trans hw.symm)).2
    · exact absurd (hd _ hw) (by simp [← hv])
    · exact absurd (hd _ hv) (by simp [← hw])
    · exact ih hds hv hw

theorem find?_eq_some_iff (m : OrderedMap κ ν) (k : κ) (v : ν) :
    m.find? k = some v ↔ (k, v) ∈ m.entries := by
  constructor
  · intro h
    obtain ⟨⟨k', v'⟩, he, rfl⟩ := Option.map_eq_some_iff.mp h
    have hk : k' = k := by simpa using List.find?_some he
    exact hk ▸ List.mem_of_find?_eq_some he
  · intro h
    cases hf : m.entries.find? (fun e => e.1 = k) with
    | none => simpa using List.find?_eq_none.mp hf _ h
    | some e =>
      have hk : e.1 = k := by simpa using List.find?_some hf
      have he : (k, e.2) ∈ m.entries := hk ▸ List.mem_of_find?_eq_some hf
      simp [find?, hf, key_unique m.sorted he h]
/-- Two maps with the same lookups have the same entries in the same order. -/
@[ext] theorem ext {m n : OrderedMap κ ν} (h : ∀ k, m.find? k = n.find? k) : m = n := by
  have entries : m.entries = n.entries := by
    have : Std.Irrefl (fun a b : κ × ν => a.1 < b.1) := ⟨fun a => lt_irrefl a.1⟩
    refine m.sorted.eq_of_mem_iff n.sorted ?_
    rintro ⟨k, v⟩
    rw [← find?_eq_some_iff, ← find?_eq_some_iff, h]
  cases m
  cases n
  simpa using entries

@[simp] theorem find?_empty (k : κ) : (empty : OrderedMap κ ν).find? k = none := rfl

theorem mem_insertEntry_iff (k : κ) (v : ν) (es : List (κ × ν))
    (h : es.Pairwise (fun a b => a.1 < b.1)) (j : κ) (w : ν) :
    (j, w) ∈ insertEntry k v es ↔ if j = k then w = v else (j, w) ∈ es := by
  induction es with
  | nil => by_cases hj : j = k <;> simp [insertEntry, hj]
  | cons d ds ih =>
    obtain ⟨hd, hds⟩ := List.pairwise_cons.mp h
    have tail (hk : k ≤ d.1) : (k, w) ∉ ds := fun hm => absurd (hd _ hm) (not_lt.mpr hk)
    simp only [insertEntry]
    by_cases hlt : k < d.1
    · rw [if_pos hlt, List.mem_cons, Prod.mk.injEq]
      by_cases hj : j = k
      · subst hj
        have head : (j, w) ≠ d := fun hm => absurd hlt (by simp [← hm])
        simp [head, tail hlt.le]
      · simp [hj]
    by_cases heq : k = d.1
    · rw [if_neg hlt, if_pos heq, List.mem_cons, Prod.mk.injEq]
      by_cases hj : j = k
      · subst hj
        simp [tail heq.le]
      · have head : (j, w) ≠ d := fun hm => hj (by simp [heq, ← hm])
        simp [hj, head]
    · rw [if_neg hlt, if_neg heq, List.mem_cons, ih hds]
      by_cases hj : j = k
      · subst hj
        have head : (j, w) ≠ d := fun hm => heq (by simp [← hm])
        simp [head]
      · simp [hj]

@[simp] theorem find?_insert (m : OrderedMap κ ν) (k j : κ) (v : ν) :
    (m.insert k v).find? j = if j = k then some v else m.find? j := by
  apply Option.ext
  intro w
  have hm := mem_insertEntry_iff k v m.entries m.sorted j w
  rw [find?_eq_some_iff, insert, hm]
  by_cases hj : j = k
  · simp [hj, eq_comm]
  · simp [hj, find?_eq_some_iff]

@[simp] theorem find?_erase (m : OrderedMap κ ν) (k j : κ) :
    (m.erase k).find? j = if j = k then none else m.find? j := by
  apply Option.ext
  intro w
  rw [find?_eq_some_iff]
  by_cases hj : j = k <;> simp [erase, hj, find?_eq_some_iff]

@[simp] theorem find?_restrict (m : OrderedMap κ ν) (k j : κ) :
    (m.restrict k).find? j = if j = k then m.find? j else none := by
  apply Option.ext
  intro w
  rw [find?_eq_some_iff]
  by_cases hj : j = k <;> simp [restrict, hj, find?_eq_some_iff]

@[simp] theorem find?_modify (m : OrderedMap κ ν) (k j : κ) (f : ν → ν) :
    (m.modify k f).find? j = if j = k then (m.find? k).map f else m.find? j := by
  apply Option.ext
  intro w
  rw [find?_eq_some_iff, modify, List.mem_map]
  by_cases hj : j = k
  · subst hj
    simp only [if_true, Option.map_eq_some_iff, find?_eq_some_iff]
    constructor
    · rintro ⟨e, he, heq⟩
      split_ifs at heq with hk
      · exact ⟨e.2, by rw [← hk]; exact he, (Prod.mk.inj heq).2⟩
      · exact absurd (by rw [heq]) hk
    · rintro ⟨v, hv, rfl⟩
      exact ⟨(j, v), hv, by simp⟩
  · rw [if_neg hj, find?_eq_some_iff]
    constructor
    · rintro ⟨e, he, heq⟩
      split_ifs at heq with hk
      · exact absurd ((Prod.mk.inj heq).1.symm.trans hk) hj
      · exact heq ▸ he
    · intro h
      exact ⟨(j, w), h, by simp [hj]⟩

@[simp] theorem find?_mapValues (m : OrderedMap κ ν) (k : κ) (f : ν → ν) :
    (m.mapValues f).find? k = (m.find? k).map f := by
  apply Option.ext
  intro w
  rw [find?_eq_some_iff, mapValues, List.mem_map, Option.map_eq_some_iff]
  constructor
  · intro h
    obtain ⟨e, he, heq⟩ := h
    obtain ⟨hk, hw⟩ := Prod.mk.inj heq
    exact ⟨e.2, by rw [find?_eq_some_iff, ← hk]; exact he, hw⟩
  · intro h
    obtain ⟨v, hv, hw⟩ := h
    exact ⟨(k, v), (find?_eq_some_iff m k v).mp hv, by rw [hw]⟩

@[simp] theorem modify_insert (m : OrderedMap κ ν) (k : κ) (v : ν) (f : ν → ν) :
    (m.insert k v).modify k f = m.insert k (f v) := by
  apply ext
  intro j
  by_cases hj : j = k <;> simp [hj]

@[simp] theorem insert_insert (m : OrderedMap κ ν) (k : κ) (v w : ν) :
    (m.insert k v).insert k w = m.insert k w := by
  apply ext
  intro j
  by_cases hj : j = k <;> simp [hj]

@[simp] theorem erase_insert (m : OrderedMap κ ν) (k : κ) (v : ν) :
    (m.insert k v).erase k = m.erase k := by
  apply ext
  intro j
  by_cases hj : j = k <;> simp [hj]

theorem insert_of_find? {m : OrderedMap κ ν} {k : κ} {v : ν} (h : m.find? k = some v) :
    m.insert k v = m := by
  apply ext
  intro j
  by_cases hj : j = k <;> simp [hj, h]

theorem contains_iff (m : OrderedMap κ ν) (k : κ) :
    m.contains k = true ↔ ∃ v, m.find? k = some v := by
  simp [contains, Option.isSome_iff_exists]

theorem any_iff (m : OrderedMap κ ν) (p : ν → Bool) :
    m.any p = true ↔ ∃ k v, m.find? k = some v ∧ p v = true := by
  simp [any, find?_eq_some_iff]

theorem findKey?_some {m : OrderedMap κ ν} {p : ν → Bool} {k : κ} (h : m.findKey? p = some k) :
    ∃ v, m.find? k = some v ∧ p v = true := by
  obtain ⟨⟨k', v⟩, he, rfl⟩ := Option.map_eq_some_iff.mp h
  have hp := List.find?_some (p := fun e : κ × ν => p e.2) he
  exact ⟨v, (find?_eq_some_iff m k' v).mpr (List.mem_of_find?_eq_some he), hp⟩

theorem findKey?_eq_none_iff (m : OrderedMap κ ν) (p : ν → Bool) :
    m.findKey? p = none ↔ ∀ k v, m.find? k = some v → p v = false := by
  simp [findKey?, find?_eq_some_iff]

/-- The first match is the only match when the values that satisfy `p` have one key. -/
theorem findKey?_eq_of_unique {m : OrderedMap κ ν} {p : ν → Bool} {k : κ} {v : ν}
    (hk : m.find? k = some v) (hp : p v = true)
    (unique : ∀ j w, m.find? j = some w → p w = true → j = k) : m.findKey? p = some k := by
  cases hf : m.findKey? p with
  | none => exact absurd hp (by simp [(findKey?_eq_none_iff m p).mp hf k v hk])
  | some j =>
    obtain ⟨w, hw, hpw⟩ := findKey?_some hf
    rw [unique j w hw hpw]

end OrderedMap

end Framework
