import Mathlib.Data.List.Basic

namespace Framework

variable {α β : Type}

theorem mem_intercalate {x a : α} {parts : List (List α)} (h : a ∈ [x].intercalate parts) :
    a = x ∨ ∃ part ∈ parts, a ∈ part := by
  obtain ⟨part, listed, inside⟩ := List.mem_flatten.mp h
  induction parts with
  | nil => simp at listed
  | cons first parts ih =>
    cases parts with
    | nil =>
      obtain rfl : part = first := by simpa using listed
      exact .inr ⟨part, by simp, inside⟩
    | cons second parts =>
      rw [List.intersperse_cons_cons, List.mem_cons, List.mem_cons] at listed
      rcases listed with rfl | rfl | later
      · exact .inr ⟨part, by simp, inside⟩
      · exact .inl (List.mem_singleton.mp inside)
      · have rest : a ∈ [x].intercalate (second :: parts) :=
          List.mem_flatten.mpr ⟨part, later, inside⟩
        rcases ih rest later with same | ⟨p, hp, within⟩
        · exact .inl same
        · exact .inr ⟨p, List.mem_cons_of_mem first hp, within⟩

theorem flatMap_intercalate {x : α} {y : β} {f : α → List β} (h : f x = [y])
    (parts : List (List α)) :
    ([x].intercalate parts).flatMap f = [y].intercalate (parts.map (·.flatMap f)) := by
  induction parts with
  | nil => rfl
  | cons first parts ih =>
    cases parts with
    | nil => simp [List.intercalate]
    | cons second parts =>
      simp only [List.intercalate, List.intersperse_cons_cons, List.flatten_cons,
        List.flatMap_append, List.map_cons, List.flatMap_singleton] at ih ⊢
      rw [ih, h]

/-! Rows of cells: one separator between the rows, another one between the cells of a row. -/

def joinRows (outer inner : α) (rows : List (List (List α))) : List α :=
  [outer].intercalate (rows.map [inner].intercalate)

theorem flatMap_joinRows {f : α → List β} {outer inner : α} {outer' inner' : β}
    (ho : f outer = [outer']) (hi : f inner = [inner']) (rows : List (List (List α))) :
    (joinRows outer inner rows).flatMap f =
      joinRows outer' inner' (rows.map (·.map (·.flatMap f))) := by
  rw [joinRows, joinRows, flatMap_intercalate ho, List.map_map, List.map_map]
  congr 1
  exact List.map_congr_left fun row _ => flatMap_intercalate hi row

variable [DecidableEq α]

theorem not_mem_of_mem_splitOn {x : α} {l part : List α} (h : part ∈ l.splitOn x) : x ∉ part := by
  induction l generalizing part with
  | nil =>
    obtain rfl : part = [] := by simpa using h
    exact List.not_mem_nil
  | cons a l ih =>
    rw [List.splitOn_cons_eq_if_modifyHead] at h
    split_ifs at h with same
    · rcases List.mem_cons.mp h with rfl | later
      · exact List.not_mem_nil
      · exact ih later
    · cases split : l.splitOn x with
      | nil => exact absurd split (List.splitOn_ne_nil x l)
      | cons first parts =>
        rw [split] at h ih
        rcases List.mem_cons.mp h with rfl | later
        · have other : x ≠ a := fun equal => same (by simp [equal])
          simpa [other] using ih List.mem_cons_self
        · exact ih (List.mem_cons_of_mem first later)

theorem mem_of_mem_splitOn {x a : α} {l part : List α} (h : part ∈ l.splitOn x) (ha : a ∈ part) :
    a ∈ l := by
  have whole : [x].intercalate (l.splitOn x) = l := List.intercalate_splitOn x
  rw [← whole]
  revert h
  generalize l.splitOn x = parts
  intro h
  induction parts with
  | nil => cases h
  | cons first parts ih =>
    cases parts with
    | nil =>
      obtain rfl : part = first := by simpa using h
      simpa [List.intercalate] using ha
    | cons second parts =>
      simp only [List.intercalate, List.intersperse_cons_cons, List.flatten_cons,
        List.mem_append] at ih ⊢
      rcases List.mem_cons.mp h with rfl | later
      · exact .inl ha
      · exact .inr (.inr (ih later))

variable {outer inner : α}

def splitRows (outer inner : α) (l : List α) : List (List (List α)) :=
  (l.splitOn outer).map (List.splitOn inner)

theorem splitRows_joinRows {rows : List (List (List α))} (other : outer ≠ inner) (ne : rows ≠ [])
    (cells : ∀ row ∈ rows, row ≠ [] ∧ ∀ cell ∈ row, outer ∉ cell ∧ inner ∉ cell) :
    splitRows outer inner (joinRows outer inner rows) = rows := by
  have outside : ∀ l ∈ rows.map [inner].intercalate, outer ∉ l := by
    intro l hl inside
    obtain ⟨row, hrow, rfl⟩ := List.mem_map.mp hl
    rcases mem_intercalate inside with same | ⟨cell, hcell, within⟩
    · exact other same
    · exact ((cells row hrow).2 cell hcell).1 within
  rw [splitRows, joinRows, List.splitOn_intercalate outer outside (by simpa using ne), List.map_map]
  refine (List.map_congr_left fun row hrow => ?_).trans rows.map_id
  obtain ⟨cell, own⟩ := cells row hrow
  exact List.splitOn_intercalate inner (fun cell hcell => (own cell hcell).2) cell

theorem not_mem_of_mem_splitRows {l : List α} {row : List (List α)} {cell : List α}
    (hrow : row ∈ splitRows outer inner l) (hcell : cell ∈ row) : outer ∉ cell ∧ inner ∉ cell := by
  obtain ⟨part, hpart, rfl⟩ := List.mem_map.mp hrow
  refine ⟨fun inside => ?_, not_mem_of_mem_splitOn hcell⟩
  exact not_mem_of_mem_splitOn hpart (mem_of_mem_splitOn hcell inside)

end Framework
