import Mathlib.Logic.Function.Basic
import QtCoap.Protocol.Step
import QtCoap.Reply.Reply

namespace QtCoap

/-- The protocol, the replies it works for, and the slot calls posted to them that have not been
delivered yet, oldest first. -/
structure System (Addr : Type) where
  protocol : Protocol Addr := {}
  replies : ReplyId → Reply
  posted : List (ReplyId × Slot Addr) := []

inductive SystemEvent (Addr : Type)
  | protocol (event : Event Addr)
  | deliver
  | abortRequest (reply : ReplyId)

inductive Emission (Addr : Type)
  | protocol (output : Output Addr)
  | reply (id : ReplyId) (signal : Signal)

def Output.posted? {Addr : Type} : Output Addr → Option (ReplyId × Slot Addr)
  | .post id slot => some (id, slot)
  | _ => none

/-- The slot calls among the outputs of the protocol. -/
def postsOf {Addr : Type} (outputs : List (Output Addr)) : List (ReplyId × Slot Addr) :=
  outputs.filterMap Output.posted?

theorem mem_postsOf {Addr : Type} {id : ReplyId} {slot : Slot Addr} {os : List (Output Addr)} :
    (id, slot) ∈ postsOf os ↔ Output.post id slot ∈ os := by
  simp only [postsOf]
  rw [List.mem_filterMap]
  constructor
  · intro h
    obtain ⟨o, ho, posted⟩ := h
    cases o with
    | post id' slot' =>
      obtain ⟨rfl, rfl⟩ := Prod.mk.inj (Option.some.inj posted)
      exact ho
    | _ => cases posted
  · intro h
    exact ⟨_, h, rfl⟩

namespace System

variable {Addr : Type}

def setReply (s : System Addr) (id : ReplyId) (r : Reply) : System Addr :=
  { s with replies := Function.update s.replies id r }

/-- No request has been sent yet. -/
def Initial (s : System Addr) : Prop :=
  s.protocol = {} ∧ s.posted = [] ∧ ∀ id, ∃ request, s.replies id = { request := request }

variable [Platform Addr]

/-- One event of the protocol, one slot call delivered, or one reply aborted by the application.
A slot call for a destroyed reply changes what nobody reads any more. -/
def handle (s : System Addr) : SystemEvent Addr → Option (System Addr × List (Emission Addr))
  | .protocol event =>
    (s.protocol.handle event).map fun result =>
      ({ s with protocol := result.1, posted := s.posted ++ postsOf result.2 },
        result.2.map .protocol)
  | .deliver =>
    match s.posted with
    | [] => none
    | (id, slot) :: posted =>
      let result := (s.replies id).handle slot
      some ({ s with posted := posted }.setReply id result.1, result.2.map (.reply id))
  | .abortRequest id =>
    let result := (s.replies id).abortRequest
    some (s.setReply id result.1, result.2.map (.reply id))

def Step (s : System Addr) (event : SystemEvent Addr) (emissions : List (Emission Addr))
    (t : System Addr) : Prop :=
  s.handle event = some (t, emissions)

variable {s t : System Addr} {emissions : List (Emission Addr)}

theorem step_protocol {event : Event Addr} (h : Step s (.protocol event) emissions t) :
    ∃ os, Protocol.Step s.protocol event os t.protocol ∧
      t.posted = s.posted ++ postsOf os ∧ t.replies = s.replies := by
  obtain ⟨⟨protocol, os⟩, handled, heq⟩ := Option.map_eq_some_iff.mp h
  obtain ⟨rfl, -⟩ := Prod.mk.inj heq
  exact ⟨os, Protocol.step_of_handle handled, rfl, rfl⟩

theorem step_deliver (h : Step s .deliver emissions t) :
    ∃ id slot, s.posted = (id, slot) :: t.posted ∧ t.protocol = s.protocol ∧
      t.replies = Function.update s.replies id ((s.replies id).handle slot).1 := by
  unfold Step handle at h
  cases posted : s.posted with
  | nil => simp [posted] at h
  | cons head rest =>
    rw [posted] at h
    obtain ⟨rfl, -⟩ := Prod.mk.inj (Option.some.inj h)
    exact ⟨head.1, head.2, rfl, rfl, rfl⟩

theorem step_abortRequest {id : ReplyId} (h : Step s (.abortRequest id) emissions t) :
    t.protocol = s.protocol ∧ t.posted = s.posted ∧
      t.replies = Function.update s.replies id (s.replies id).abortRequest.1 := by
  obtain ⟨rfl, -⟩ := Prod.mk.inj (Option.some.inj h)
  exact ⟨rfl, rfl, rfl⟩

end System

end QtCoap
