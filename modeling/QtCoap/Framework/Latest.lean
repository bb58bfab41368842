import Mathlib.Data.List.Basic

namespace Framework

variable {α β : Type}

/-- The value that the last item with one sets, or the one before if there is none. -/
def latest (f : β → Option α) (before : α) (l : List β) : α :=
  (l.filterMap f).getLast?.getD before

theorem latest_append_singleton (f : β → Option α) (before : α) (l : List β) (b : β) :
    latest f before (l ++ [b]) = (f b).getD (latest f before l) := by
  simp only [latest]
  rw [List.filterMap_append]
  cases found : f b with
  | none => simp [found]
  | some a => simp [found]

end Framework
