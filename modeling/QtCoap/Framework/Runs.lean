import Mathlib.Data.List.Basic
import Mathlib.Data.List.Forall2

namespace Framework

/-- One observed step: the state it started in, the event it took, what it put out and the
state it ended in. -/
@[ext] structure Transition (σ ε ω : Type) where
  source : σ
  event : ε
  outputs : List ω
  target : σ

variable {σ ε ω : Type}

/-- What one step puts out at most once, and no step after one that has done so, is put out at most
once in all. -/
theorem countP_outputs_le_one {p : ω → Bool} {tr : List (Transition σ ε ω)}
    (each : ∀ x ∈ tr, x.outputs.countP p ≤ 1)
    (once : tr.Pairwise fun x y => (∃ o ∈ x.outputs, p o = true) → ∀ o ∈ y.outputs, p o = false) :
    (tr.flatMap (·.outputs)).countP p ≤ 1 := by
  induction tr with
  | nil => simp
  | cons x tr ih =>
    obtain ⟨first, rest⟩ := List.pairwise_cons.mp once
    have later := ih (fun y hy => each y (by simp [hy])) rest
    have own := each x (by simp)
    rw [List.flatMap_cons, List.countP_append]
    by_cases out : ∃ o ∈ x.outputs, p o = true
    · have none : (tr.flatMap (·.outputs)).countP p = 0 := by
        rw [List.countP_eq_zero]
        intro o ho
        obtain ⟨y, hy, ho⟩ := List.mem_flatMap.mp ho
        simp [first y hy out o ho]
      omega
    · have none : x.outputs.countP p = 0 := by
        rw [List.countP_eq_zero]
        intro o ho holds
        exact out ⟨o, ho, holds⟩
      omega

/-- Finite executions of a labelled step relation, with every step taken kept in order. -/
inductive Run (step : σ → ε → List ω → σ → Prop) (s : σ) :
    List (Transition σ ε ω) → σ → Prop
  | nil : Run step s [] s
  | snoc {tr : List (Transition σ ε ω)} {t : σ} (before : Run step s tr t) (e : ε)
      (os : List ω) (u : σ) (last : step t e os u) : Run step s (tr ++ [⟨t, e, os, u⟩]) u

namespace Run

variable {step : σ → ε → List ω → σ → Prop} {s t u : σ} {tr tr' : List (Transition σ ε ω)}

theorem append (h : Run step s tr t) (k : Run step t tr' u) : Run step s (tr ++ tr') u := by
  induction k with
  | nil => simpa using h
  | snoc before e os u last ih =>
    rw [← List.append_assoc]
    exact ih.snoc e os u last

theorem single {e : ε} {os : List ω} (h : step s e os t) : Run step s [⟨s, e, os, t⟩] t :=
  Run.nil.snoc e os t h

theorem of_append (h : Run step s (tr ++ tr') t) :
    ∃ m, Run step s tr m ∧ Run step m tr' t := by
  generalize whole : tr ++ tr' = all at h
  induction h generalizing tr' with
  | nil =>
    obtain ⟨rfl, rfl⟩ := List.append_eq_nil_iff.mp whole
    exact ⟨s, .nil, .nil⟩
  | @snoc before_tr m before e os u last ih =>
    rcases List.eq_nil_or_concat tr' with rfl | ⟨front, x, rfl⟩
    · rw [List.append_nil] at whole
      exact ⟨u, whole ▸ before.snoc e os u last, .nil⟩
    · rw [List.concat_eq_append, ← List.append_assoc] at whole
      obtain ⟨first, rfl⟩ := List.append_inj' whole rfl |>.imp_right List.singleton_inj.mp
      obtain ⟨m', left, right⟩ := ih first
      rw [List.concat_eq_append]
      exact ⟨m', left, right.snoc e os u last⟩

theorem eq_of_nil (h : Run step s [] t) : t = s := by
  generalize none : [] = tr at h
  cases h with
  | nil => rfl
  | snoc before e os u last => simp at none

theorem of_cons {x : Transition σ ε ω} (h : Run step s (x :: tr) t) :
    x.source = s ∧ step s x.event x.outputs x.target ∧ Run step x.target tr t := by
  obtain ⟨m, first, rest⟩ := Run.of_append (show Run step s ([x] ++ tr) t from h)
  generalize single : [x] = one at first
  cases first with
  | nil => cases single
  | @snoc before_tr m' before e os u last =>
    obtain ⟨rfl, same⟩ := List.append_inj' (show [] ++ [x] = before_tr ++ _ from single) rfl
    obtain rfl := List.singleton_inj.mp same
    obtain rfl := before.eq_of_nil
    exact ⟨rfl, last, rest⟩

/-- What every step preserves holds at the end of a run that starts in it. -/
theorem invariant {P : σ → Prop} (preserved : ∀ {a e os b}, P a → step a e os b → P b)
    (h : Run step s tr t) (start : P s) : P t := by
  induction h with
  | nil => exact start
  | snoc before e os u last ih => exact preserved ih last

/-- Every recorded step is a step, taken in a state that the invariant covers. -/
theorem forall_step {P : σ → Prop} (preserved : ∀ {a e os b}, P a → step a e os b → P b)
    (h : Run step s tr t) (start : P s) (x : Transition σ ε ω) (hx : x ∈ tr) :
    P x.source ∧ step x.source x.event x.outputs x.target := by
  induction h with
  | nil => simp at hx
  | snoc before e os u last ih =>
    rcases List.mem_append.mp hx with hx | hx
    · exact ih hx
    · obtain rfl := List.mem_singleton.mp hx
      exact ⟨before.invariant preserved start, last⟩

/-- What every step of this run preserves holds wherever the run comes by. -/
theorem along {P : σ → Prop} (h : Run step s tr t)
    (each : ∀ x ∈ tr, step x.source x.event x.outputs x.target → P x.source → P x.target)
    (start : P s) : P t ∧ ∀ x ∈ tr, P x.source ∧ P x.target := by
  induction h with
  | nil => exact ⟨start, by simp⟩
  | @snoc tr t before e os u last ih =>
    obtain ⟨source, earlier⟩ := ih fun x hx => each x (by simp [hx])
    have newest : (⟨t, e, os, u⟩ : Transition σ ε ω) ∈ tr ++ [⟨t, e, os, u⟩] := by simp
    have target : P u := each _ newest last source
    refine ⟨target, ?_⟩
    intro x hx
    rcases List.mem_append.mp hx with hx | hx
    · exact earlier x hx
    · obtain rfl := List.mem_singleton.mp hx
      exact ⟨source, target⟩

/-- What every step keeps once it holds: where it holds behind a step, it holds in front of every
later one. -/
theorem pairwise_of_kept {P : σ → Prop}
    (kept : ∀ {a e os b}, step a e os b → P a → P b) (h : Run step s tr t) :
    (tr.Pairwise fun x y => P x.target → P y.source) ∧ ∀ x ∈ tr, P x.target → P t := by
  induction h with
  | nil => simp
  | snoc before e os u last ih =>
    obtain ⟨pairs, ends⟩ := ih
    constructor
    · refine List.pairwise_append.mpr ⟨pairs, List.pairwise_singleton .., ?_⟩
      intro x hx y hy
      rw [List.mem_singleton.mp hy]
      exact ends x hx
    · intro x hx holds
      rcases List.mem_append.mp hx with hx | hx
      · exact kept last (ends x hx holds)
      · rwa [List.mem_singleton.mp hx] at holds

/-- A property that a step either keeps or ends with a witness: over a run it is kept, or
some recorded step ended it. -/
theorem kept_or_ended {K : σ → Prop} {E : Transition σ ε ω → Prop}
    (h : Run step s tr t)
    (each : ∀ x ∈ tr, K x.source → K x.target ∨ E x) (start : K s) :
    K t ∨ ∃ x ∈ tr, E x := by
  induction h with
  | nil => exact .inl start
  | @snoc tr t before e os u last ih =>
    rcases ih fun x hx => each x (by simp [hx]) with hk | ⟨x, hx, he⟩
    · have newest : (⟨t, e, os, u⟩ : Transition σ ε ω) ∈ tr ++ [⟨t, e, os, u⟩] := by simp
      rcases each _ newest hk with hk | he
      · exact .inl hk
      · exact .inr ⟨_, newest, he⟩
    · exact .inr ⟨x, by simp [hx], he⟩

/-- A run in rounds: a step that takes its turn leads from one stage to the next and shows the next
item of the script, any other step is idle, and there is no turn behind the end of the script. -/
theorem rounds {β : Type} (Stage : Nat → σ → Prop) (turn : Transition σ ε ω → Bool)
    (view : List ω → List β) (script : List β) (h : Run step s tr t)
    (round : ∀ x ∈ tr, ∀ k, step x.source x.event x.outputs x.target → Stage k x.source →
      if turn x then k < script.length ∧ Stage (k + 1) x.target ∧
        view x.outputs = script[k]?.toList
      else Stage k x.target ∧ view x.outputs = []) (start : Stage 0 s) :
    tr.countP turn ≤ script.length ∧ Stage (tr.countP turn) t ∧
      tr.flatMap (fun x => view x.outputs) = script.take (tr.countP turn) := by
  induction h with
  | nil => exact ⟨Nat.zero_le _, start, rfl⟩
  | @snoc tr t before e os u last ih =>
    obtain ⟨below, stage, views⟩ := ih fun x hx => round x (by simp [hx])
    have newest : (⟨t, e, os, u⟩ : Transition σ ε ω) ∈ tr ++ [⟨t, e, os, u⟩] := by simp
    have own := round _ newest _ last stage
    rw [List.countP_append, List.countP_singleton, List.flatMap_append, views,
      List.flatMap_singleton]
    split_ifs at own ⊢ with takes
    · obtain ⟨inside, next, shown⟩ := own
      exact ⟨inside, next, by rw [shown, List.take_add_one]⟩
    · exact ⟨below, own.1, by rw [own.2, List.append_nil, Nat.add_zero]⟩

/-- A run seen through a view: the steps that count are steps of what is seen, the others leave it
as it is. -/
theorem project {σ' ε' ω' : Type} {step' : σ' → ε' → List ω' → σ' → Prop} (view : σ → σ')
    (counts : Transition σ ε ω → Bool) (R : Transition σ ε ω → Transition σ' ε' ω' → Prop)
    (h : Run step s tr t)
    (each : ∀ x ∈ tr, if counts x then
        ∃ e os, step' (view x.source) e os (view x.target) ∧
          R x ⟨view x.source, e, os, view x.target⟩
      else view x.target = view x.source) :
    ∃ tr', Run step' (view s) tr' (view t) ∧ List.Forall₂ R (tr.filter counts) tr' := by
  induction h with
  | nil => exact ⟨[], .nil, .nil⟩
  | @snoc tr t before e os u last ih =>
    obtain ⟨tr', run, mirrored⟩ := ih fun x hx => each x (by simp [hx])
    have own := each ⟨t, e, os, u⟩ (by simp)
    rw [List.filter_append]
    split_ifs at own with counted
    · obtain ⟨e', os', step, seen⟩ := own
      refine ⟨_, run.snoc e' os' _ step, ?_⟩
      rw [List.filter_cons_of_pos counted]
      exact List.rel_append mirrored (.cons seen .nil)
    · refine ⟨tr', own ▸ run, ?_⟩
      rw [List.filter_cons_of_neg (by simpa using counted), List.filter_nil, List.append_nil]
      exact mirrored

end Run

/-- A run computed: the events are handled in order as long as `next` handles them. -/
def execute (next : σ → ε → Option (σ × List ω)) (s : σ) :
    List ε → Option (List (Transition σ ε ω) × σ)
  | [] => some ([], s)
  | e :: es =>
    (next s e).bind fun first =>
      (execute next first.1 es).map fun rest => (⟨s, e, first.2, first.1⟩ :: rest.1, rest.2)

theorem run_of_execute {step : σ → ε → List ω → σ → Prop} {next : σ → ε → Option (σ × List ω)}
    (sound : ∀ {s e t os}, next s e = some (t, os) → step s e os t) {s t : σ} {es : List ε}
    {tr : List (Transition σ ε ω)} (h : execute next s es = some (tr, t)) : Run step s tr t := by
  induction es generalizing s tr with
  | nil =>
    obtain ⟨rfl, rfl⟩ := Prod.mk.inj (Option.some.inj h)
    exact .nil
  | cons e es ih =>
    obtain ⟨first, hfirst, h⟩ := Option.bind_eq_some_iff.mp h
    obtain ⟨rest, hrest, heq⟩ := Option.map_eq_some_iff.mp h
    obtain ⟨rfl, rfl⟩ := Prod.mk.inj heq
    exact (Run.single (sound hfirst)).append (ih hrest)

/-- It takes the events in their order. -/
theorem events_of_execute {next : σ → ε → Option (σ × List ω)} {s t : σ} {es : List ε}
    {tr : List (Transition σ ε ω)} (h : execute next s es = some (tr, t)) :
    tr.map (·.event) = es := by
  induction es generalizing s t tr with
  | nil =>
    obtain ⟨rfl, -⟩ := Prod.mk.inj (Option.some.inj h)
    rfl
  | cons e es ih =>
    obtain ⟨first, -, h⟩ := Option.bind_eq_some_iff.mp h
    obtain ⟨rest, hrest, heq⟩ := Option.map_eq_some_iff.mp h
    obtain ⟨rfl, -⟩ := Prod.mk.inj heq
    rw [List.map_cons, ih hrest]

/-- What a computation has checked of a run holds of a run. -/
theorem exists_run_of_execute (step : σ → ε → List ω → σ → Prop)
    {next : σ → ε → Option (σ × List ω)}
    (sound : ∀ {s e t os}, next s e = some (t, os) → step s e os t) {s : σ} {es : List ε}
    {check : List (Transition σ ε ω) × σ → Bool} (h : (execute next s es).any check = true) :
    ∃ tr t, Run step s tr t ∧ tr.map (·.event) = es ∧ check (tr, t) = true := by
  obtain ⟨⟨tr, t⟩, executed, checked⟩ := (Option.any_eq_true ..).mp h
  exact ⟨tr, t, run_of_execute sound executed, events_of_execute executed, checked⟩

/-- A run of a component that takes every event. -/
def trace (next : σ → ε → σ × List ω) (s : σ) : List ε → List (Transition σ ε ω)
  | [] => []
  | e :: es => ⟨s, e, (next s e).2, (next s e).1⟩ :: trace next (next s e).1 es

theorem run_trace (next : σ → ε → σ × List ω) (s : σ) (es : List ε) :
    Run (fun s e os t => next s e = (t, os)) s (trace next s es)
      (es.foldl (fun s e => (next s e).1) s) := by
  induction es generalizing s with
  | nil => exact .nil
  | cons e es ih =>
    have first : Run (fun s e os t => next s e = (t, os)) s [⟨s, e, (next s e).2, (next s e).1⟩]
        (next s e).1 := Run.single rfl
    exact first.append (ih (next s e).1)

theorem events_trace (next : σ → ε → σ × List ω) (s : σ) (es : List ε) :
    (trace next s es).map (·.event) = es := by
  induction es generalizing s with
  | nil => rfl
  | cons e es ih => rw [trace, List.map_cons, ih]

/-- The states some run from an initial state ends in. -/
def Reachable (init : σ → Prop) (step : σ → ε → List ω → σ → Prop) (t : σ) : Prop :=
  ∃ s tr, init s ∧ Run step s tr t

namespace Reachable

variable {init : σ → Prop} {step : σ → ε → List ω → σ → Prop} {s t : σ}

theorem invariant {P : σ → Prop} (start : ∀ {a}, init a → P a)
    (preserved : ∀ {a e os b}, P a → step a e os b → P b) (h : Reachable init step t) : P t := by
  obtain ⟨s, tr, hs, run⟩ := h
  exact run.invariant preserved (start hs)

theorem run {tr : List (Transition σ ε ω)} (h : Reachable init step s) (k : Run step s tr t) :
    Reachable init step t := by
  obtain ⟨a, before, ha, hb⟩ := h
  exact ⟨a, before ++ tr, ha, hb.append k⟩

theorem next {e : ε} {os : List ω} (h : Reachable init step s) (k : step s e os t) :
    Reachable init step t :=
  h.run (.single k)

end Reachable

end Framework
