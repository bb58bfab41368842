import Mathlib.Algebra.Ring.Nat
import Mathlib.Data.Finset.Sort
import Mathlib.Data.List.Sort

namespace Framework

variable {α β : Type}

/-- Block `k` of a list that is cut into blocks of `size`. -/
def block (size : Nat) (l : List α) (k : Nat) : List α := (l.drop (k * size)).take size

theorem take_append_block (size : Nat) (l : List α) (k : Nat) :
    l.take (k * size) ++ block size l k = l.take ((k + 1) * size) := by
  have split : (k + 1) * size = k * size + size := Nat.succ_mul k size
  rw [block, split, List.take_add]

theorem length_block (size : Nat) (l : List α) (k : Nat) :
    (block size l k).length = min size (l.length - k * size) := by
  rw [block, List.length_take, List.length_drop]

/-- The first blocks make up the start of the list. -/
theorem flatMap_block (size : Nat) (l : List α) (n : Nat) :
    (List.range n).flatMap (block size l) = l.take (n * size) := by
  induction n with
  | zero => simp
  | succ n ih =>
    rw [List.range_succ, List.flatMap_append, ih, ← take_append_block]
    simp

/-- How many blocks a list has; an empty list has one, which is empty. -/
def blockCount (size length : Nat) : Nat := (length - 1) / size + 1

theorem succ_lt_blockCount {size : Nat} (positive : 0 < size) (length k : Nat) :
    k + 1 < blockCount size length ↔ (k + 1) * size < length := by
  have inside : k + 1 ≤ (length - 1) / size ↔ (k + 1) * size ≤ length - 1 :=
    Nat.le_div_iff_mul_le positive
  have some_bytes : 0 < (k + 1) * size := Nat.mul_pos (Nat.succ_pos k) positive
  rw [blockCount]
  omega

/-! Numbered pieces, put together in the order of their numbers. -/

variable (num : β → Nat) (data : β → List α)

/-- The earliest piece with number `n` that is not empty. -/
def pieceAt (ps : List β) (n : Nat) : List α :=
  ((ps.find? (fun p => num p = n ∧ data p ≠ [])).map data).getD []

/-- One round of the merge: pieces that are empty or not above the last number are skipped. -/
def appendNext (merged : List α × Int) (p : β) : List α × Int :=
  if data p = [] ∨ (num p : Int) ≤ merged.2 then merged else (merged.1 ++ data p, num p)

variable {num data}

theorem pieceAt_cons_of_ne {p : β} {ps : List β} {n : Nat} (h : data p = [] ∨ num p ≠ n) :
    pieceAt num data (p :: ps) n = pieceAt num data ps n := by
  have skipped : ¬ (num p = n ∧ data p ≠ []) := by tauto
  simp [pieceAt, skipped]

theorem pieceAt_cons_self {p : β} {ps : List β} (h : data p ≠ []) :
    pieceAt num data (p :: ps) (num p) = data p := by
  simp [pieceAt, h]

theorem pieceAt_eq_nil {ps : List β} {n : Nat} (h : ∀ p ∈ ps, num p ≠ n) :
    pieceAt num data ps n = [] := by
  have none : ps.find? (fun p => num p = n ∧ data p ≠ []) = none := by
    rw [List.find?_eq_none]
    intro p hp
    simp [h p hp]
  rw [pieceAt, none]
  rfl

theorem pieceAt_eq {ps : List β} {n : Nat} {d : List α} (some_piece : ∃ p ∈ ps, num p = n)
    (all : ∀ p ∈ ps, num p = n → data p = d) : pieceAt num data ps n = d := by
  obtain ⟨p, hp, hn⟩ := some_piece
  cases found : ps.find? (fun p => num p = n ∧ data p ≠ []) with
  | none =>
    have missing := List.find?_eq_none.mp found p hp
    have empty : d = [] := by simpa [hn, all p hp hn] using missing
    rw [pieceAt, found, empty]
    rfl
  | some q =>
    have hq : num q = n ∧ data q ≠ [] := by simpa using List.find?_some found
    rw [pieceAt, found]
    exact all q (List.mem_of_find?_eq_some found) hq.1

theorem flatMap_pieceAt_eq_nil {ps : List β} {ns : List Nat}
    (h : ∀ n ∈ ns, ∀ p ∈ ps, num p ≠ n) : ns.flatMap (pieceAt num data ps) = [] := by
  rw [List.flatMap_eq_nil_iff]
  intro n hn
  exact pieceAt_eq_nil (h n hn)

theorem flatMap_pieceAt_cons {p : β} {ps : List β} {ns : List Nat}
    (h : ∀ n ∈ ns, data p = [] ∨ num p ≠ n) :
    ns.flatMap (pieceAt num data (p :: ps)) = ns.flatMap (pieceAt num data ps) := by
  apply List.flatMap_congr
  intro n hn
  exact pieceAt_cons_of_ne (h n hn)

theorem appendNext_skip {p : β} {acc : List α} {m : Nat} (h : data p = [] ∨ num p < m) :
    appendNext num data (acc, (m : Int) - 1) p = (acc, (m : Int) - 1) := by
  rw [appendNext, if_pos]
  rcases h with empty | below
  · exact .inl empty
  · exact .inr (by dsimp only; omega)

theorem appendNext_take {p : β} {acc : List α} {m : Nat} (ne : data p ≠ []) (h : m ≤ num p) :
    appendNext num data (acc, (m : Int) - 1) p =
      (acc ++ data p, ((num p + 1 : Nat) : Int) - 1) := by
  rw [appendNext, if_neg]
  · simp
  · rintro (empty | below)
    · exact ne empty
    · dsimp only at below
      omega

theorem range'_split {m k bound : Nat} (above : m ≤ k) (inside : k < bound) :
    List.range' m (bound - m) =
      List.range' m (k - m) ++ k :: List.range' (k + 1) (bound - (k + 1)) := by
  have tail : k :: List.range' (k + 1) (bound - (k + 1)) =
      List.range' (m + (k - m)) (bound - k) := by
    have first : m + (k - m) = k := by omega
    have length : bound - k = bound - (k + 1) + 1 := by omega
    rw [first, length, List.range'_succ]
  rw [tail, List.range'_append_1]
  congr 1
  omega

/-- Merging pieces in ascending order appends, from number `m` on, the first piece of each
number. -/
theorem foldl_appendNext (bound : Nat) (ps : List β)
    (sorted : ps.Pairwise (fun p q => num p ≤ num q)) (bounded : ∀ p ∈ ps, num p < bound)
    (acc : List α) (m : Nat) :
    (ps.foldl (appendNext num data) (acc, (m : Int) - 1)).1 =
      acc ++ (List.range' m (bound - m)).flatMap (pieceAt num data ps) := by
  induction ps generalizing acc m with
  | nil =>
    rw [flatMap_pieceAt_eq_nil (by simp)]
    simp
  | cons p ps ih =>
    obtain ⟨least, sorted⟩ := List.pairwise_cons.mp sorted
    have bounded' : ∀ q ∈ ps, num q < bound := fun q hq => bounded q (by simp [hq])
    rw [List.foldl_cons]
    by_cases skip : data p = [] ∨ num p < m
    · rw [appendNext_skip skip, ih sorted bounded', flatMap_pieceAt_cons]
      intro n hn
      rcases skip with empty | below
      · exact .inl empty
      · have above := (List.mem_range'_1.mp hn).1
        exact .inr (by omega)
    · obtain ⟨ne, above⟩ := not_or.mp skip
      -- nothing below `num p`, then its own piece, then what the rest contributes
      have below : (List.range' m (num p - m)).flatMap (pieceAt num data (p :: ps)) = [] := by
        apply flatMap_pieceAt_eq_nil
        intro n hn q hq
        have under := (List.mem_range'_1.mp hn).2
        rcases List.mem_cons.mp hq with rfl | hq
        · omega
        · have := least q hq
          omega
      have rest : (List.range' (num p + 1) (bound - (num p + 1))).flatMap
            (pieceAt num data (p :: ps)) =
          (List.range' (num p + 1) (bound - (num p + 1))).flatMap (pieceAt num data ps) := by
        apply flatMap_pieceAt_cons
        intro n hn
        have beyond := (List.mem_range'_1.mp hn).1
        exact .inr (by omega)
      have above := Nat.le_of_not_lt above
      have split := range'_split above (bounded p (by simp))
      rw [appendNext_take ne above, ih sorted bounded', split, List.flatMap_append, below,
        List.flatMap_cons, pieceAt_cons_self ne, rest]
      simp

/-- A stable sort by number leaves the earliest piece of each number the earliest. -/
theorem pieceAt_insertionSort (ps : List β) (n : Nat) :
    pieceAt num data (ps.insertionSort (fun p q => num p ≤ num q)) n = pieceAt num data ps n := by
  let sorted := ps.insertionSort (fun p q => num p ≤ num q)
  let own := fun p : β => decide (num p = n ∧ data p ≠ [])
  have equal : (ps.filter own).Pairwise (fun p q => num p ≤ num q) := by
    refine List.pairwise_of_forall_mem_list ?_
    intro p hp q hq
    have hp := (List.mem_filter.mp hp).2
    have hq := (List.mem_filter.mp hq).2
    simp only [own, decide_eq_true_eq] at hp hq
    omega
  have kept : (ps.filter own).Sublist (sorted.filter own) := by
    have inner := (List.sublist_insertionSort equal List.filter_sublist).filter own
    simpa only [List.filter_filter, Bool.and_self] using inner
  have length : (sorted.filter own).length = (ps.filter own).length :=
    ((List.perm_insertionSort _ ps).filter own).length_eq
  have same : sorted.filter own = ps.filter own := (kept.eq_of_length length.symm).symm
  simp only [pieceAt]
  rw [← List.head?_filter, ← List.head?_filter]
  exact congrArg (fun l => (l.head?.map data).getD []) same

/-- The merge of pieces in any order of arrival: the earliest piece of each number, in ascending
order of the numbers. -/
theorem foldl_appendNext_insertionSort (bound : Nat) (ps : List β)
    (bounded : ∀ p ∈ ps, num p < bound) :
    ((ps.insertionSort (fun p q => num p ≤ num q)).foldl (appendNext num data) ([], -1)).1 =
      (List.range bound).flatMap (pieceAt num data ps) := by
  have total : Std.Total (fun p q : β => num p ≤ num q) := ⟨fun p q => Nat.le_total _ _⟩
  have trans : IsTrans β (fun p q => num p ≤ num q) := ⟨fun _ _ _ => Nat.le_trans⟩
  have merged := @foldl_appendNext α β num data bound _
    (List.pairwise_insertionSort (fun p q => num p ≤ num q) ps)
    (fun p hp => bounded p ((List.mem_insertionSort _).mp hp)) [] 0
  rw [List.range_eq_range']
  refine merged.trans ?_
  apply List.flatMap_congr
  intro n _
  exact pieceAt_insertionSort ps n

/-! The same merge by the numbers that there are. -/

section Merge

variable (num data)

/-- The numbers of the pieces, each once and in ascending order. -/
def numbers (ps : List β) : List Nat := (ps.map num).toFinset.sort

/-- The earliest piece with each number that is not empty, in ascending order. -/
def merge (ps : List β) : List α := (numbers num ps).flatMap (pieceAt num data ps)

variable {num data}

theorem mem_numbers {ps : List β} {n : Nat} : n ∈ numbers num ps ↔ ∃ p ∈ ps, num p = n := by
  rw [numbers, Finset.mem_sort, List.mem_toFinset, List.mem_map]

/-- Numbers without a piece contribute nothing. -/
theorem flatMap_range_eq_merge (bound : Nat) (ps : List β) (bounded : ∀ p ∈ ps, num p < bound) :
    (List.range bound).flatMap (pieceAt num data ps) = merge num data ps := by
  have present : (List.range bound).filter (· ∈ numbers num ps) = numbers num ps := by
    have ascending : ((List.range bound).filter (· ∈ numbers num ps)).SortedLT :=
      (List.sortedLT_range bound).pairwise.filter _ |>.sortedLT
    refine ascending.eq_of_mem_iff (Finset.sortedLT_sort _) fun n => ?_
    rw [List.mem_filter, List.mem_range, decide_eq_true_eq]
    refine ⟨And.right, fun listed => ⟨?_, listed⟩⟩
    obtain ⟨p, hp, rfl⟩ := mem_numbers.mp listed
    exact bounded p hp
  have absent (ns : List Nat) : ns.flatMap (pieceAt num data ps) =
      (ns.filter (· ∈ numbers num ps)).flatMap (pieceAt num data ps) := by
    induction ns with
    | nil => rfl
    | cons n ns ih =>
      rw [List.flatMap_cons, ih]
      by_cases listed : n ∈ numbers num ps
      · rw [List.filter_cons_of_pos (by simpa using listed), List.flatMap_cons]
      · rw [List.filter_cons_of_neg (by simpa using listed), pieceAt_eq_nil, List.nil_append]
        exact fun p hp number => listed (mem_numbers.mpr ⟨p, hp, number⟩)
  rw [absent, present, merge]

/-- Pieces with numbers of their own may come in any order. -/
theorem pieceAt_perm {ps qs : List β} (perm : ps.Perm qs) (distinct : (ps.map num).Nodup)
    (n : Nat) : pieceAt num data ps n = pieceAt num data qs n := by
  let own := fun p : β => decide (num p = n ∧ data p ≠ [])
  have kept : (ps.filter own).Perm (qs.filter own) := perm.filter own
  have single : (ps.filter own).length ≤ 1 := by
    have nodup : ((ps.filter own).map num).Nodup := distinct.sublist (List.filter_sublist.map num)
    have equal : ∀ m ∈ (ps.filter own).map num, m = n := by
      intro m hm
      obtain ⟨p, hp, rfl⟩ := List.mem_map.mp hm
      exact (of_decide_eq_true (List.mem_filter.mp hp).2).1
    rw [List.eq_replicate_of_mem equal, List.nodup_replicate, List.length_map] at nodup
    exact nodup
  have same : ps.filter own = qs.filter own := by
    cases found : ps.filter own with
    | nil =>
      rw [found] at kept
      exact (List.nil_perm.mp kept).symm
    | cons p rest =>
      rw [found, List.length_cons] at single
      obtain rfl : rest = [] := List.eq_nil_of_length_eq_zero (by omega)
      rw [found] at kept
      exact (List.perm_singleton.mp kept.symm).symm
  simp only [pieceAt]
  rw [← List.head?_filter, ← List.head?_filter]
  exact congrArg (fun l => (l.head?.map data).getD []) same

theorem merge_perm {ps qs : List β} (perm : ps.Perm qs) (distinct : (ps.map num).Nodup) :
    merge num data ps = merge num data qs := by
  have same : numbers num ps = numbers num qs := by
    rw [numbers, numbers, List.toFinset_eq_of_perm _ _ (perm.map num)]
  rw [merge, merge, same]
  exact List.flatMap_congr fun n _ => pieceAt_perm perm distinct n

end Merge

/-- A list that is cut into blocks comes back from its blocks, given all of them up to one that
reaches its end. -/
theorem flatMap_pieceAt_block {size n bound : Nat} {l : List α} {ps : List β}
    (pieces : ∀ p ∈ ps, data p = block size l (num p))
    (present : ∀ k < n, ∃ p ∈ ps, num p = k) (reaches : l.length ≤ n * size) (inside : n ≤ bound) :
    (List.range bound).flatMap (pieceAt num data ps) = l := by
  have each (k : Nat) (hk : k < bound) : pieceAt num data ps k = block size l k := by
    by_cases below : k < n
    · apply pieceAt_eq (present k below)
      intro p hp number
      rw [pieces p hp, number]
    · -- nothing of the list is left behind block `n`
      have behind : n * size ≤ k * size := Nat.mul_le_mul_right size (by omega)
      have empty : block size l k = [] := by
        rw [block, List.drop_eq_nil_of_le (by omega), List.take_nil]
      by_cases some_piece : ∃ p ∈ ps, num p = k
      · apply pieceAt_eq some_piece
        intro p hp number
        rw [pieces p hp, number]
      · rw [empty]
        apply pieceAt_eq_nil
        intro p hp number
        exact some_piece ⟨p, hp, number⟩
  have same : (List.range bound).flatMap (pieceAt num data ps) =
      (List.range bound).flatMap (block size l) :=
    List.flatMap_congr fun k hk => each k (List.mem_range.mp hk)
  have whole : n * size ≤ bound * size := Nat.mul_le_mul_right size inside
  rw [same, flatMap_block, List.take_of_length_le (by omega)]

end Framework
