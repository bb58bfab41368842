import Mathlib.Data.List.InsertIdx
import Mathlib.Data.List.Sort

namespace Framework

variable {α κ : Type} [LinearOrder κ]

/-- Distance from the start of `l` to the first element whose key is above that of `a`. -/
def upperBound (key : α → κ) (a : α) (l : List α) : Nat :=
  (l.takeWhile (fun b => !decide (key a < key b))).length

/-- Inserts `a` behind everything whose key is at most its own. -/
def insertUpper (key : α → κ) (a : α) (l : List α) : List α :=
  l.insertIdx (upperBound key a l) a

theorem insertUpper_cons (key : α → κ) (a b : α) (l : List α) :
    insertUpper key a (b :: l) =
      if key a < key b then a :: b :: l else b :: insertUpper key a l := by
  simp only [insertUpper, upperBound]
  by_cases h : key a < key b <;> simp [h]

@[simp] theorem insertUpper_nil (key : α → κ) (a : α) : insertUpper key a [] = [a] := rfl

theorem mem_insertUpper (key : α → κ) (a c : α) (l : List α) :
    c ∈ insertUpper key a l ↔ c = a ∨ c ∈ l := by
  induction l with
  | nil => simp
  | cons b l ih =>
    rw [insertUpper_cons]
    split_ifs
    · simp
    · simp only [List.mem_cons, ih]
      tauto

theorem insertUpper_sorted (key : α → κ) (a : α) (l : List α)
    (h : l.Pairwise (fun x y => key x ≤ key y)) :
    (insertUpper key a l).Pairwise (fun x y => key x ≤ key y) := by
  induction l with
  | nil => simp
  | cons b l ih =>
    obtain ⟨hb, hl⟩ := List.pairwise_cons.mp h
    rw [insertUpper_cons]
    split_ifs with hab
    · refine List.pairwise_cons.mpr ⟨?_, h⟩
      intro c hc
      rcases List.mem_cons.mp hc with rfl | hc
      · exact hab.le
      · exact hab.le.trans (hb c hc)
    · refine List.pairwise_cons.mpr ⟨?_, ih hl⟩
      intro c hc
      rcases (mem_insertUpper key a c l).mp hc with rfl | hc
      · exact not_lt.mp hab
      · exact hb c hc

theorem insertUpper_of_ge (key : α → κ) (a : α) (l : List α)
    (h : ∀ b ∈ l, key b ≤ key a) : insertUpper key a l = l ++ [a] := by
  induction l with
  | nil => rfl
  | cons b l ih =>
    rw [insertUpper_cons, if_neg (not_lt.mpr (h b (by simp))), ih fun c hc => h c (by simp [hc])]
    rfl

theorem filter_insertUpper_of_neg (key : α → κ) {p : α → Bool} {a : α} (l : List α)
    (h : ¬ p a = true) : (insertUpper key a l).filter p = l.filter p := by
  induction l with
  | nil => simp [h]
  | cons b l ih =>
    rw [insertUpper_cons]
    split_ifs
    · rw [List.filter_cons_of_neg h]
    · rw [List.filter_cons, List.filter_cons, ih]

theorem filter_insertUpper_of_none (key : α → κ) (a : α) (l : List α)
    (h : l.filter (fun c => key c = key a) = []) :
    (insertUpper key a l).filter (fun c => key c = key a) = [a] := by
  induction l with
  | nil => simp
  | cons b l ih =>
    have other : ¬ key b = key a := by
      have absent := List.filter_eq_nil_iff.mp h b (by simp)
      simpa using absent
    have rest : l.filter (fun c => key c = key a) = [] := by
      rwa [List.filter_cons_of_neg (by simp [other])] at h
    rw [insertUpper_cons]
    split_ifs
    · rw [List.filter_cons_of_pos (by simp), h]
    · rw [List.filter_cons_of_neg (by simp [other]), ih rest]

/-- Stability: among equal keys the newcomer goes last and nothing else moves. -/
theorem filter_insertUpper (key : α → κ) (a : α) (l : List α) (k : κ)
    (h : l.Pairwise (fun x y => key x ≤ key y)) :
    (insertUpper key a l).filter (fun c => key c = k) =
      l.filter (fun c => key c = k) ++ if key a = k then [a] else [] := by
  induction l with
  | nil => by_cases ha : key a = k <;> simp [ha]
  | cons b l ih =>
    obtain ⟨hb, hl⟩ := List.pairwise_cons.mp h
    rw [insertUpper_cons]
    split_ifs with hab ha ha
    · have above : ∀ c ∈ b :: l, ¬ key c = k := by
        intro c hc heq
        have lt : key a < key c := by
          rcases List.mem_cons.mp hc with rfl | hc
          · exact hab
          · exact hab.trans_le (hb c hc)
        exact absurd lt (by simp [heq, ha])
      have none : (b :: l).filter (fun c => key c = k) = [] := by
        simpa [List.filter_eq_nil_iff] using above
      rw [List.filter_cons_of_pos (by simp [ha]), none]
      rfl
    · rw [List.filter_cons_of_neg (by simp [ha]), List.append_nil]
    · rw [List.filter_cons, List.filter_cons, ih hl]
      split_ifs <;> simp
    · rw [List.filter_cons, List.filter_cons, ih hl]
      split_ifs <;> simp

/-- Removing one element shows only among those with its key. -/
theorem filter_erase [DecidableEq α] (p : α → Bool) (a : α) (l : List α) :
    (l.erase a).filter p = if p a then (l.filter p).erase a else l.filter p := by
  induction l with
  | nil => simp
  | cons b l ih =>
    by_cases same : b = a
    · subst same
      rw [List.erase_cons_head]
      split_ifs with hb
      · rw [List.filter_cons_of_pos hb, List.erase_cons_head]
      · rw [List.filter_cons_of_neg hb]
    · rw [List.erase_cons_tail (by simpa using same), List.filter_cons, List.filter_cons, ih]
      split_ifs with hb ha
      · rw [List.erase_cons_tail (by simpa using same)]
      · rfl
      · rfl
      · rfl

theorem upperBound_append_of_lt (key : α → κ) {a b : α} (l l' : List α) (h : key a < key b) :
    upperBound key a (l ++ b :: l') = upperBound key a l := by
  simp only [upperBound]
  induction l with
  | nil => simp [h]
  | cons c l ih =>
    by_cases hc : key a < key c
    · simp [hc]
    · simpa [hc] using ih

theorem upperBound_append_of_ge (key : α → κ) {a : α} (l l' : List α)
    (h : ∀ b ∈ l, key b ≤ key a) :
    upperBound key a (l ++ l') = l.length + upperBound key a l' := by
  simp only [upperBound]
  rw [List.takeWhile_append_of_pos (fun b hb => by simpa using h b hb), List.length_append]

/-- `std::upper_bound`: the half that cannot hold the bound is dropped at each comparison. -/
def bisect (key : α → κ) (a : α) : Nat → List α → Nat
  | 0, _ => 0
  | rounds + 1, l =>
    match l.drop (l.length / 2) with
    | [] => 0
    | middle :: rest =>
      if key a < key middle then bisect key a rounds (l.take (l.length / 2))
      else l.length / 2 + 1 + bisect key a rounds rest

/-- On a sorted list the search by halves finds what the search from the front finds. -/
theorem bisect_eq_upperBound (key : α → κ) (a : α) (rounds : Nat) (l : List α)
    (enough : l.length ≤ rounds) (sorted : l.Pairwise (fun x y => key x ≤ key y)) :
    bisect key a rounds l = upperBound key a l := by
  induction rounds generalizing l with
  | zero =>
    obtain rfl := List.length_eq_zero_iff.mp (Nat.le_zero.mp enough)
    rfl
  | succ rounds ih =>
    have halves := List.take_append_drop (l.length / 2) l
    have front : (l.take (l.length / 2)).length = l.length / 2 :=
      List.length_take_of_le (Nat.div_le_self ..)
    simp only [bisect]
    cases back : l.drop (l.length / 2) with
    | nil =>
      have none : l = [] := by
        have all := congrArg List.length back
        rw [List.length_drop, List.length_nil] at all
        rw [← List.length_eq_zero_iff]
        omega
      subst none
      rfl
    | cons middle rest =>
      have total := congrArg List.length back
      rw [List.length_drop, List.length_cons] at total
      rw [back] at halves
      rw [← halves] at sorted
      obtain ⟨left, right, across⟩ := List.pairwise_append.mp sorted
      dsimp only
      split_ifs with above
      · rw [ih _ (by omega) left]
        conv_rhs => rw [← halves]
        exact (upperBound_append_of_lt key _ rest above).symm
      · have below : key middle ≤ key a := not_lt.mp above
        rw [ih rest (by omega) right.of_cons]
        conv_rhs =>
          rw [← halves, List.append_cons,
            upperBound_append_of_ge key (l.take (l.length / 2) ++ [middle]) rest (by
              intro b hb
              rcases List.mem_append.mp hb with hb | hb
              · exact (across b hb middle (by simp)).trans below
              · rwa [List.mem_singleton.mp hb])]
        rw [List.length_append, front, List.length_singleton]

/-- Inserts one after the other. -/
def insertAll (key : α → κ) (as l : List α) : List α :=
  as.foldl (fun l a => insertUpper key a l) l

theorem upperBound_le (key : α → κ) (a : α) (l : List α) : upperBound key a l ≤ l.length :=
  (List.takeWhile_sublist _).length_le

theorem insertUpper_perm (key : α → κ) (a : α) (l : List α) :
    (insertUpper key a l).Perm (a :: l) :=
  List.perm_insertIdx a l (upperBound_le key a l)

theorem insertAll_perm (key : α → κ) (as l : List α) : (insertAll key as l).Perm (as ++ l) := by
  induction as generalizing l with
  | nil => exact .refl l
  | cons a as ih =>
    have rest := ih (insertUpper key a l)
    exact rest.trans (((insertUpper_perm key a l).append_left as).trans List.perm_middle)

theorem insertAll_sorted (key : α → κ) (as l : List α)
    (h : l.Pairwise (fun x y => key x ≤ key y)) :
    (insertAll key as l).Pairwise (fun x y => key x ≤ key y) := by
  induction as generalizing l with
  | nil => exact h
  | cons a as ih => exact ih _ (insertUpper_sorted key a l h)

theorem sublist_insertAll (key : α → κ) (as l : List α) : l.Sublist (insertAll key as l) := by
  induction as generalizing l with
  | nil => exact .refl l
  | cons a as ih => exact (List.sublist_insertIdx l _ a).trans (ih _)

/-- Where an element goes depends on the keys alone. -/
theorem upperBound_congr (key : α → κ) {a b : α} {l l' : List α} (same : key a = key b)
    (keys : l.map key = l'.map key) : upperBound key a l = upperBound key b l' := by
  have onKeys (a : α) (l : List α) : upperBound key a l = upperBound id (key a) (l.map key) := by
    simp only [upperBound]
    rw [List.takeWhile_map, List.length_map]
    rfl
  rw [onKeys a l, onKeys b l', same, keys]

theorem insertUpper_inj (key : α → κ) {a b : α} {l l' : List α} (same : key a = key b)
    (keys : l.map key = l'.map key) (h : insertUpper key a l = insertUpper key b l') :
    a = b ∧ l = l' := by
  have place := upperBound_congr key same keys
  simp only [insertUpper] at h
  rw [place] at h
  have fits := upperBound_le key b l'
  have lengths : l.length = l'.length := by
    simpa using congrArg List.length keys
  constructor
  · have at_place := congrArg (·[upperBound key b l']?) h
    rw [List.getElem?_insertIdx_self, List.getElem?_insertIdx_self] at at_place
    rw [if_pos (lengths ▸ fits), if_pos fits] at at_place
    exact Option.some.inj at_place
  · have erased := congrArg (List.eraseIdx · (upperBound key b l')) h
    simpa using erased

theorem insertAll_inj_of_keys (key : α → κ) {as bs l l' : List α}
    (batch : as.map key = bs.map key) (keys : l.map key = l'.map key)
    (h : insertAll key as l = insertAll key bs l') : as = bs ∧ l = l' := by
  induction as generalizing bs l l' with
  | nil =>
    obtain rfl := List.map_eq_nil_iff.mp batch.symm
    exact ⟨rfl, h⟩
  | cons a as ih =>
    cases bs with
    | nil => cases batch
    | cons b bs =>
      obtain ⟨same, batch⟩ := List.cons.inj batch
      have grown : (insertUpper key a l).map key = (insertUpper key b l').map key := by
        simp only [insertUpper]
        rw [List.map_insertIdx, List.map_insertIdx, same, keys, upperBound_congr key same keys]
      obtain ⟨rfl, inserted⟩ := ih batch grown h
      obtain ⟨rfl, rfl⟩ := insertUpper_inj key same keys inserted
      exact ⟨rfl, rfl⟩

/-- From what a sorted batch makes of any list, sorted or not, the batch can be read back. -/
theorem insertAll_inj (key : α → κ) {as bs l : List α}
    (hs : as.Pairwise (fun x y => key x ≤ key y)) (hb : bs.Pairwise (fun x y => key x ≤ key y))
    (h : insertAll key as l = insertAll key bs l) : as = bs := by
  have batches : as.Perm bs := by
    have both := (insertAll_perm key as l).symm.trans (h ▸ insertAll_perm key bs l)
    exact (List.perm_append_right_iff l).mp both
  have keys : as.map key = bs.map key := by
    refine (batches.map key).eq_of_pairwise ?_ (List.pairwise_map.mpr hs) (List.pairwise_map.mpr hb)
    intro x y _ _ le ge
    exact le_antisymm le ge
  exact (insertAll_inj_of_keys key keys rfl h).1

end Framework
