import QtCoap.Framework.LifeCycle
import QtCoap.Reply.Discovery

namespace QtCoap

/-- What changes a reply: a slot call of the protocol, or the application. -/
inductive ReplyCall (Addr : Type)
  | slot (slot : Slot Addr)
  | abortRequest

namespace Signal

def isFinished : Signal → Bool
  | finished => true
  | _ => false

def isAborted : Signal → Bool
  | aborted _ => true
  | _ => false

def isNotified : Signal → Bool
  | notified _ => true
  | _ => false

end Signal

namespace Reply

variable {Addr : Type} (r : Reply)

/-- `QCoapReply::isRunning`. -/
def isRunningUnfinished : Bool := r.isRunning && !r.isFinishedOrAborted

def apply : ReplyCall Addr → Reply × List Signal
  | .slot slot => r.handle slot
  | .abortRequest => r.abortRequest

/-- A reply as the application sees it. -/
def view : Framework.View Reply Signal (Message × ResponseCode) where
  isFinished := isFinishedOrAborted
  isRunning := isRunningUnfinished
  content r := (r.message, r.responseCode)
  finished := Signal.isFinished
  aborted := Signal.isAborted
  news := Signal.isNotified

theorem isRunningUnfinished_of_finished (h : r.isFinishedOrAborted = true) :
    r.isRunningUnfinished = false := by
  simp [isRunningUnfinished, h]

@[simp] theorem isFinishedOrAborted_setError (error : Error) :
    (r.setError error).1.isFinishedOrAborted = r.isFinishedOrAborted := by
  simp only [setError]
  split_ifs <;> rfl

@[simp] theorem message_setError (error : Error) :
    (r.setError error).1.message = r.message := by
  simp only [setError]
  split_ifs <;> rfl

/-- It gives an error signal at most. -/
theorem signals_setError {o : Signal} {error : Error} (h : o ∈ (r.setError error).2) :
    o = .error error := by
  simp only [setError] at h
  split_ifs at h
  · cases h
  · exact List.mem_singleton.mp h

theorem countP_setError {p : Signal → Bool} {error : Error} (other : p (.error error) = false) :
    (r.setError error).2.countP p = 0 := by
  rw [List.countP_eq_zero]
  intro o ho
  rw [r.signals_setError ho, other]
  decide

/-- A call that neither finishes the reply nor gives more than an error signal. -/
theorem moves_of_pending {r q : Reply} {os : List Signal}
    (same : q.isFinishedOrAborted = r.isFinishedOrAborted)
    (signals : ∀ o ∈ os, o.isFinished = false ∧ o.isAborted = false)
    (silent : r.isFinishedOrAborted = true →
      (∀ o ∈ os, o.isNotified = false) ∧
        (q.message, q.responseCode) = (r.message, r.responseCode)) :
    view.Moves r os q := by
  have finished : os.countP view.finished = 0 :=
    List.countP_eq_zero.mpr fun o ho => by simp [view, (signals o ho).1]
  have aborted : os.countP view.aborted = 0 :=
    List.countP_eq_zero.mpr fun o ho => by simp [view, (signals o ho).2]
  constructor
  · exact fun h => same.trans h
  · exact finished.le.trans (Nat.zero_le 1)
  · constructor
    · rintro ⟨o, ho, holds⟩
      rw [show view.finished o = false from (signals o ho).1] at holds
      cases holds
    · intro h
      have both : q.isFinishedOrAborted = false := same.trans h.1
      rw [show view.isFinished q = false from both] at h
      cases h.2
  · exact aborted.le.trans (Nat.zero_le 1)
  · rintro ⟨o, ho, holds⟩
    rw [show view.aborted o = false from (signals o ho).2] at holds
    cases holds
  · exact q.isRunningUnfinished_of_finished
  · exact fun h => (silent h).1
  · exact fun h => (silent h).2

/-- A call that finishes an unfinished reply. -/
theorem moves_of_finishing {r q : Reply} {os : List Signal}
    (before : r.isFinishedOrAborted = false) (after : q.isFinishedOrAborted = true)
    (once : os.countP Signal.isFinished = 1) (aborted : os.countP Signal.isAborted ≤ 1) :
    view.Moves r os q := by
  have emitted : ∃ o ∈ os, view.finished o = true := by
    have positive : 0 < os.countP Signal.isFinished := by omega
    exact List.countP_pos_iff.mp positive
  have finished : ¬ view.isFinished r = true := by
    change ¬ r.isFinishedOrAborted = true
    simp [before]
  refine ⟨fun h => absurd h finished, once.le, ?_, aborted, fun _ => ⟨before, after⟩, ?_,
    fun h => absurd h finished, fun h => absurd h finished⟩
  · exact iff_of_true emitted ⟨before, after⟩
  · exact fun _ => q.isRunningUnfinished_of_finished after

theorem moves (call : ReplyCall Addr) : view.Moves r (r.apply call).2 (r.apply call).1 := by
  cases call with
  | abortRequest =>
    simp only [apply, abortRequest]
    split_ifs with finished
    · exact moves_of_pending rfl (by simp) (fun _ => ⟨by simp, rfl⟩)
    · refine moves_of_finishing (by simpa using finished) (by simp [isFinishedOrAborted])
        (by simp [Signal.isFinished]) ?_
      simp [List.countP_cons, Signal.isAborted]
  | slot slot =>
    simp only [apply]
    cases slot with
    | setRunning token messageId =>
      exact moves_of_pending rfl (by simp [handle]) (fun _ => ⟨by simp [handle], rfl⟩)
    | setContent sender message code =>
      simp only [handle, setContent]
      split_ifs with finished failed
      · exact moves_of_pending rfl (by simp) (fun _ => ⟨by simp, rfl⟩)
      · refine moves_of_pending (isFinishedOrAborted_setError _ _) (fun o ho => ?_)
          (fun h => absurd h finished)
        rw [signals_setError _ ho]
        exact ⟨rfl, rfl⟩
      · exact moves_of_pending rfl (by simp) (fun h => absurd h finished)
    | setNotified =>
      simp only [handle, setNotified]
      split_ifs with finished
      · exact moves_of_pending rfl (by simp) (fun _ => ⟨by simp, rfl⟩)
      · exact moves_of_pending rfl (by simp [Signal.isFinished, Signal.isAborted])
          (fun h => absurd h finished)
    | setObserveCancelled =>
      simp only [handle, setObserveCancelled]
      split_ifs with finished
      · refine moves_of_pending ?_ (by simp) (fun _ => ⟨by simp, rfl⟩)
        rw [finished]
        rfl
      · exact moves_of_finishing (by simpa using finished) (by simp [isFinishedOrAborted])
          (by simp [Signal.isFinished]) (by simp [Signal.isAborted])
    | setFinished error =>
      simp only [handle, setFinished]
      split_ifs with finished failed
      · exact moves_of_pending rfl (by simp) (fun _ => ⟨by simp, rfl⟩)
      · refine moves_of_finishing (by simpa using finished) (isFinishedOrAborted_setError _ _) ?_ ?_
        · rw [List.countP_append, countP_setError _ rfl]
          rfl
        · rw [List.countP_append, countP_setError _ rfl]
          exact Nat.zero_le 1
      · exact moves_of_finishing (by simpa using finished) (by simp [isFinishedOrAborted])
          (by simp [Signal.isFinished]) (by simp [Signal.isAborted])
    | setError error =>
      refine moves_of_pending (r.isFinishedOrAborted_setError error) (fun o ho => ?_)
        (fun _ => ⟨fun o ho => ?_, ?_⟩)
      · rw [r.signals_setError ho]
        exact ⟨rfl, rfl⟩
      · rw [r.signals_setError ho]
        rfl
      · simp [handle]

end Reply

namespace DiscoverySignal

variable {Addr : Type}

/-- A signal that the reply may not give once it is finished. -/
def isNews : DiscoverySignal Addr → Bool
  | reply signal => signal.isNotified
  | discovered _ => true

/-- A kind of signal of the base class. -/
def isReply (p : Signal → Bool) : DiscoverySignal Addr → Bool
  | reply signal => p signal
  | discovered _ => false

theorem countP_isReply (p : Signal → Bool) (signals : List Signal) :
    (signals.map reply).countP (isReply p : DiscoverySignal Addr → Bool) = signals.countP p := by
  rw [List.countP_map]
  rfl

theorem exists_isReply (p : Signal → Bool) (signals : List Signal) :
    (∃ o ∈ signals.map (reply : Signal → DiscoverySignal Addr), isReply p o = true) ↔
      ∃ o ∈ signals, p o = true := by
  simp [isReply]

end DiscoverySignal

namespace DiscoveryReply

variable {Addr : Type} (d : DiscoveryReply Addr)

def apply : ReplyCall Addr → DiscoveryReply Addr × List (DiscoverySignal Addr)
  | .slot slot => d.handle slot
  | .abortRequest => d.abortRequest

def view : Framework.View (DiscoveryReply Addr) (DiscoverySignal Addr)
    (Message × ResponseCode × List (Resource Addr)) where
  isFinished d := d.isFinishedOrAborted
  isRunning d := d.isRunningUnfinished
  content d := (d.message, d.responseCode, d.resources)
  finished := DiscoverySignal.isReply Signal.isFinished
  aborted := DiscoverySignal.isReply Signal.isAborted
  news := DiscoverySignal.isNews

/-- What the base class does it may do here. -/
theorem moves_inherited {result : Reply × List Signal}
    (h : Reply.view.Moves d.toReply result.2 result.1) :
    view.Moves d (d.inherited result).2 (d.inherited result).1 := by
  have finished := @DiscoverySignal.exists_isReply Addr Signal.isFinished result.2
  have aborted := @DiscoverySignal.exists_isReply Addr Signal.isAborted result.2
  refine ⟨h.stays, ?_, finished.trans h.finished_iff, ?_, fun some => h.aborted_with
    (aborted.mp some), h.idle, ?_, ?_⟩
  · exact (DiscoverySignal.countP_isReply Signal.isFinished result.2).trans_le h.finished_le
  · exact (DiscoverySignal.countP_isReply Signal.isAborted result.2).trans_le h.aborted_le
  · intro before o ho
    obtain ⟨signal, listed, rfl⟩ := List.mem_map.mp ho
    exact h.silent before signal listed
  · intro before
    obtain ⟨message, code⟩ := Prod.mk.inj (h.content before)
    exact Prod.ext message (Prod.ext code rfl)

theorem moves (call : ReplyCall Addr) : view.Moves d (d.apply call).2 (d.apply call).1 := by
  cases call with
  | abortRequest => exact d.moves_inherited (d.toReply.moves (.abortRequest : ReplyCall Addr))
  | slot slot =>
    cases slot with
    | setContent sender message code =>
      have base := d.toReply.moves (.slot (.setContent sender message code))
      simp only [Reply.apply, Reply.handle, Reply.setContent] at base
      simp only [apply, handle, setContent]
      split_ifs at base ⊢ with finished failed
      · exact d.moves_inherited base
      · exact d.moves_inherited base
      · -- resources are announced by an unfinished reply, which stays unfinished
        have open_ : ¬ view.isFinished d = true := finished
        have none (p : Signal → Bool) (resources : List (Resource Addr)) :
            ¬ ∃ o ∈ [DiscoverySignal.discovered resources], DiscoverySignal.isReply p o = true := by
          simp [DiscoverySignal.isReply]
        refine ⟨fun h => absurd h open_, Nat.zero_le 1, ?_, Nat.zero_le 1,
          fun h => absurd h (none _ _), base.idle, fun h => absurd h open_,
          fun h => absurd h open_⟩
        exact iff_of_false (none _ _) (fun h => open_ h.2)
    | _ => exact d.moves_inherited (d.toReply.moves (.slot _))

end DiscoveryReply

/-- The life cycle of a reply and of a discovery reply over every sequence of calls. -/
theorem reply_lifeCycle (Addr : Type) (request : Request) (calls : List (ReplyCall Addr)) :
    Reply.view.LifeCycle (Framework.trace Reply.apply { request := request } calls) ∧
      DiscoveryReply.view.LifeCycle
        (Framework.trace DiscoveryReply.apply { request := request } calls) := by
  constructor
  · exact Reply.view.lifeCycle_trace Reply.moves _ calls
  · exact DiscoveryReply.view.lifeCycle_trace DiscoveryReply.moves _ calls

end QtCoap
