import QtCoap.Framework.Runs

namespace Framework

/-- What can be seen of an object that finishes once: three readings of its state and three kinds
of signals. -/
structure View (σ ω γ : Type) where
  isFinished : σ → Bool
  isRunning : σ → Bool
  content : σ → γ
  finished : ω → Bool
  aborted : ω → Bool
  news : ω → Bool

variable {σ ε ω γ : Type}

namespace View

variable (v : View σ ω γ)

/-- The step after which the object is finished for the first time. -/
def Finishes (x : Transition σ ε ω) : Prop :=
  v.isFinished x.source = false ∧ v.isFinished x.target = true

/-- What a single step may do. -/
structure Moves (source : σ) (outputs : List ω) (target : σ) : Prop where
  stays : v.isFinished source = true → v.isFinished target = true
  finished_le : outputs.countP v.finished ≤ 1
  finished_iff : (∃ o ∈ outputs, v.finished o = true) ↔
    v.isFinished source = false ∧ v.isFinished target = true
  aborted_le : outputs.countP v.aborted ≤ 1
  aborted_with : (∃ o ∈ outputs, v.aborted o = true) →
    v.isFinished source = false ∧ v.isFinished target = true
  idle : v.isFinished target = true → v.isRunning target = false
  silent : v.isFinished source = true → ∀ o ∈ outputs, v.news o = false
  content : v.isFinished source = true → v.content target = v.content source

/-- What holds of a whole run. -/
structure LifeCycle (tr : List (Transition σ ε ω)) : Prop where
  finished_once : (tr.flatMap (·.outputs)).countP v.finished ≤ 1
  finished_iff : ∀ x ∈ tr, (∃ o ∈ x.outputs, v.finished o = true) ↔ v.Finishes x
  aborted_once : (tr.flatMap (·.outputs)).countP v.aborted ≤ 1
  aborted_with : ∀ x ∈ tr, (∃ o ∈ x.outputs, v.aborted o = true) → v.Finishes x
  stays : tr.Pairwise fun x y => v.isFinished x.target = true → v.isFinished y.target = true
  after : ∀ x ∈ tr, v.isFinished x.source = true →
    (∀ o ∈ x.outputs, v.news o = false) ∧ v.content x.target = v.content x.source
  idle : ∀ x ∈ tr, v.isFinished x.target = true → v.isRunning x.target = false

variable {step : σ → ε → List ω → σ → Prop}

/-- From one step to a run: a signal that only the finishing step gives is given once. -/
theorem lifeCycle_of_moves (moves : ∀ {s e os t}, step s e os t → v.Moves s os t) {s t : σ}
    {tr : List (Transition σ ε ω)} (run : Run step s tr t) : v.LifeCycle tr := by
  have each (x : Transition σ ε ω) (hx : x ∈ tr) : v.Moves x.source x.outputs x.target := by
    have taken := run.forall_step (fun _ _ => True.intro) True.intro x hx
    exact moves taken.2
  have kept := (Run.pairwise_of_kept (P := fun s => v.isFinished s = true)
    (fun taken => (moves taken).stays) run).1
  have once (p : ω → Bool)
      (ends : ∀ x ∈ tr, (∃ o ∈ x.outputs, p o = true) → v.Finishes x) :
      tr.Pairwise fun x y => (∃ o ∈ x.outputs, p o = true) → ∀ o ∈ y.outputs, p o = false := by
    refine kept.imp_of_mem ?_
    intro x y hx hy later first o ho
    by_contra again
    have finished := later (ends x hx first).2
    have open_ := (ends y hy ⟨o, ho, by simpa using again⟩).1
    rw [finished] at open_
    cases open_
  refine ⟨?_, ?_, ?_, ?_, ?_, ?_, ?_⟩
  · exact countP_outputs_le_one (fun x hx => (each x hx).finished_le)
      (once _ fun x hx => (each x hx).finished_iff.mp)
  · exact fun x hx => (each x hx).finished_iff
  · exact countP_outputs_le_one (fun x hx => (each x hx).aborted_le)
      (once _ fun x hx => (each x hx).aborted_with)
  · exact fun x hx => (each x hx).aborted_with
  · refine kept.imp_of_mem ?_
    intro x y _ hy later finished
    exact (each y hy).stays (later finished)
  · exact fun x hx finished => ⟨(each x hx).silent finished, (each x hx).content finished⟩
  · exact fun x hx => (each x hx).idle

theorem lifeCycle_trace {next : σ → ε → σ × List ω}
    (moves : ∀ s e, v.Moves s (next s e).2 (next s e).1) (s : σ) (es : List ε) :
    v.LifeCycle (trace next s es) := by
  refine v.lifeCycle_of_moves (fun {s e os t} taken => ?_) (run_trace next s es)
  have moved := moves s e
  rwa [taken] at moved

end View

end Framework
