import QtCoap.Protocol.Failures
import QtCoap.Reply.LifeCycle
import QtCoap.Reply.System

namespace QtCoap

variable {Addr : Type}

namespace Slot

/-- The links in a content that is no error. -/
def links? : Slot Addr → Option (List (Resource Addr))
  | setContent sender message code =>
    if isError code then none else some (resourcesFromCoreLinkList sender message.payload)
  | _ => none

end Slot

def DiscoverySignal.discovered? : DiscoverySignal Addr → Option (List (Resource Addr))
  | discovered resources => some resources
  | reply _ => none

namespace DiscoveryReply

variable (d : DiscoveryReply Addr)

theorem discovered_inherited (result : Reply × List Signal) :
    (d.inherited result).2.filterMap DiscoverySignal.discovered? = [] := by
  rw [List.filterMap_eq_nil_iff]
  intro o ho
  obtain ⟨signal, -, rfl⟩ := List.mem_map.mp ho
  rfl

/-- Without links nothing is collected. -/
theorem handle_of_none {slot : Slot Addr} (none : slot.links? = none) :
    (d.handle slot).1.resources = d.resources ∧
      (d.handle slot).2.filterMap DiscoverySignal.discovered? = [] := by
  cases slot with
  | setContent sender message code =>
    have failed : isError code = true := by
      by_contra noError
      simp [Slot.links?, noError] at none
    simp only [handle, setContent]
    split_ifs
    · exact ⟨rfl, rfl⟩
    · exact ⟨rfl, d.discovered_inherited _⟩
  | _ => exact ⟨rfl, d.discovered_inherited _⟩

/-- An unfinished reply collects the links, and stays unfinished unless it is ended. -/
theorem handle_of_unfinished (unfinished : d.isFinishedOrAborted = false) (slot : Slot Addr) :
    (d.handle slot).1.resources = d.resources ++ slot.links?.toList.flatten ∧
      (d.handle slot).2.filterMap DiscoverySignal.discovered? = slot.links?.toList ∧
      (slot.ends = false → (d.handle slot).1.isFinishedOrAborted = false) := by
  have pending : ¬ d.isFinishedOrAborted = true := by simp [unfinished]
  cases links : slot.links? with
  | some resources =>
    cases slot with
    | setContent sender message code =>
      simp only [Slot.links?] at links
      split_ifs at links with failed
      obtain rfl := Option.some.inj links
      simp only [handle, setContent]
      rw [if_neg pending, if_neg failed]
      exact ⟨by simp, rfl, fun _ => unfinished⟩
    | _ => cases links
  | none =>
    obtain ⟨resources, signals⟩ := d.handle_of_none links
    refine ⟨by simp [resources], signals, fun goesOn => ?_⟩
    show (d.handle slot).1.toReply.isFinishedOrAborted = false
    rw [d.toReply_handle]
    cases slot with
    | setRunning token messageId => exact unfinished
    | setContent sender message code =>
      simp only [Reply.handle, Reply.setContent]
      rw [if_neg pending]
      split_ifs
      · rw [Reply.isFinishedOrAborted_setError]
        exact unfinished
      · exact unfinished
    | setNotified =>
      simp only [Reply.handle, Reply.setNotified]
      split_ifs
      exact unfinished
    | setObserveCancelled => cases goesOn
    | setFinished error => cases goesOn
    | setError error =>
      simp only [Reply.handle]
      rw [Reply.isFinishedOrAborted_setError]
      exact unfinished

/-- With no links behind the end, all links are collected, and announced content by content. -/
theorem collects {d : DiscoveryReply Addr} (unfinished : d.isFinishedOrAborted = false)
    {slots : List (Slot Addr)}
    (ordered : slots.Pairwise fun a b => a.ends = true → b.links? = none) :
    (slots.foldl (fun d slot => (d.handle slot).1) d).resources =
        d.resources ++ (slots.filterMap Slot.links?).flatten ∧
      ((Framework.trace handle d slots).flatMap (·.outputs)).filterMap
        DiscoverySignal.discovered? = slots.filterMap Slot.links? := by
  -- behind the end there is nothing to collect
  have rest (slots : List (Slot Addr)) (none : ∀ slot ∈ slots, slot.links? = none) :
      ∀ d : DiscoveryReply Addr,
        (slots.foldl (fun d slot => (d.handle slot).1) d).resources = d.resources ∧
        ((Framework.trace handle d slots).flatMap (·.outputs)).filterMap
          DiscoverySignal.discovered? = [] := by
    induction slots with
    | nil => exact fun d => ⟨rfl, rfl⟩
    | cons slot slots ih =>
      intro d
      obtain ⟨resources, signals⟩ := d.handle_of_none (none slot (by simp))
      obtain ⟨same, silent⟩ := ih (fun later listed => none later (by simp [listed]))
        (d.handle slot).1
      refine ⟨same.trans resources, ?_⟩
      rw [Framework.trace, List.flatMap_cons, List.filterMap_append, signals, silent]
      rfl
  induction slots generalizing d with
  | nil => exact ⟨by simp, rfl⟩
  | cons slot slots ih =>
    obtain ⟨after, ordered⟩ := List.pairwise_cons.mp ordered
    obtain ⟨resources, signals, goesOn⟩ := d.handle_of_unfinished unfinished slot
    have split : (slot :: slots).filterMap Slot.links? =
        slot.links?.toList ++ slots.filterMap Slot.links? := by
      rw [List.filterMap_cons]
      cases slot.links? <;> rfl
    rw [List.foldl_cons, split, List.flatten_append, Framework.trace, List.flatMap_cons,
      List.filterMap_append, signals, ← List.append_assoc, ← resources]
    cases ended : slot.ends with
    | false =>
      obtain ⟨collected, announced⟩ := ih (goesOn ended) ordered
      exact ⟨collected, congrArg _ announced⟩
    | true =>
      have none (later : Slot Addr) (listed : later ∈ slots) : later.links? = none :=
        after later listed ended
      obtain ⟨same, silent⟩ := rest slots none (d.handle slot).1
      rw [List.filterMap_eq_nil_iff.mpr none, silent, same]
      exact ⟨by simp, rfl⟩

end DiscoveryReply

variable [Platform Addr]

namespace Protocol

variable {t : Protocol Addr} {tr : List (Taken Addr)} {id : ReplyId}

section Instances

end Instances

end Protocol

end QtCoap
