import Mathlib.Data.List.Induction
import QtCoap.Codec.Message
import QtCoap.Framework.Ledger
import QtCoap.Framework.Runs

namespace QtCoap

/-- `CoapFrame`. -/
structure CoapFrame where
  currentPdu : QByteArray
  host : QString
  port : UInt16
  deriving DecidableEq, Repr

/-- `QCoapConnection::ConnectionState`. -/
inductive ConnectionState
  | unconnected
  | bound
  deriving DecidableEq, Repr

/-- `QtCoap::SecurityMode`. -/
inductive SecurityMode
  | noSecurity
  | preSharedKey
  | rawPublicKey
  | certificate
  deriving DecidableEq, Repr

/-- `QCoapConnectionPrivate`. -/
structure Connection where
  securityMode : SecurityMode := .noSecurity
  state : ConnectionState := .unconnected
  framesToSend : List CoapFrame := []
  deriving DecidableEq, Repr

namespace Connection

variable (c : Connection)

def isSecure : Bool := c.securityMode != .noSecurity

/-- The loop of `startToSendRequest`: each frame is dequeued and handed to `writeData`. -/
def drain : List CoapFrame → List CoapFrame × List CoapFrame
  | [] => ([], [])
  | frame :: frames => ((drain frames).1, frame :: (drain frames).2)

/-- `startToSendRequest`, with the frames handed to `writeData`. Its assertion is not compiled
into a release build. -/
def startToSendRequest : Connection × List CoapFrame :=
  let (left, written) := drain c.framesToSend
  ({ c with framesToSend := left }, written)

/-- The slot connected to `bound()`. -/
def onBound : Connection × List CoapFrame :=
  { c with state := .bound }.startToSendRequest

/-- `bind`, which raises `bound()` as often as the derived class does before it returns. -/
def bind : Connection → Nat → Connection × List CoapFrame
  | c, 0 => (c, [])
  | c, signals + 1 =>
    let first := c.onBound
    let rest := bind first.1 signals
    (rest.1, first.2 ++ rest.2)

/-- `QCoapConnectionPrivate::sendRequest`. -/
def sendRequest (frame : CoapFrame) (signals : Nat) : Connection × List CoapFrame :=
  let c := { c with framesToSend := c.framesToSend ++ [frame] }
  if c.state = .unconnected then c.bind signals else c.startToSendRequest

/-- `disconnect`. -/
def disconnect : Connection := { c with framesToSend := [], state := .unconnected }

end Connection

inductive ConnectionEvent
  | sendRequest (frame : CoapFrame) (signals : Nat)
  | bound
  | disconnect
  deriving DecidableEq, Repr

/-- The frame that the event hands to the connection. -/
def ConnectionEvent.given? : ConnectionEvent → Option CoapFrame
  | sendRequest frame _ => some frame
  | _ => none

namespace Connection

def handle (c : Connection) : ConnectionEvent → Connection × List CoapFrame
  | .sendRequest frame signals => c.sendRequest frame signals
  | .bound => c.onBound
  | .disconnect => (c.disconnect, [])

/-- The connection behind some events, and all the frames it has handed to `writeData`. -/
def after (c : Connection) (events : List ConnectionEvent) : Connection × List CoapFrame :=
  events.foldl (fun acc event => ((acc.1.handle event).1, acc.2 ++ (acc.1.handle event).2)) (c, [])

/-- The frames handed to the connection, each with the position of its event. -/
def givenFrames (events : List ConnectionEvent) : List (Nat × CoapFrame) :=
  events.zipIdx.filterMap fun (event, time) => event.given?.map fun frame => (time, frame)

theorem drain_eq (frames : List CoapFrame) : drain frames = ([], frames) := by
  induction frames with
  | nil => rfl
  | cons frame frames ih => simp [drain, ih]

theorem startToSendRequest_eq (c : Connection) :
    c.startToSendRequest = ({ c with framesToSend := [] }, c.framesToSend) := by
  simp only [startToSendRequest]
  rw [drain_eq]

theorem bind_succ (c : Connection) (signals : Nat) :
    c.bind (signals + 1) = ({ c with state := .bound, framesToSend := [] }, c.framesToSend) := by
  induction signals generalizing c with
  | zero =>
    simp only [bind, onBound]
    rw [startToSendRequest_eq]
    simp
  | succ signals ih =>
    rw [bind, ih]
    simp only [onBound]
    rw [startToSendRequest_eq]
    simp

/-- An operation keeps what waits or writes all of it, and only what is not bound keeps it. -/
inductive Moves (c : Connection) (queue : List CoapFrame) :
    Connection × List CoapFrame → Prop
  | kept (idle : c.state = .unconnected) : Moves c queue ({ c with framesToSend := queue }, [])
  | flushed : Moves c queue ({ c with state := .bound, framesToSend := [] }, queue)

theorem sendRequest_moves (c : Connection) (frame : CoapFrame) (signals : Nat) :
    Moves c (c.framesToSend ++ [frame]) (c.sendRequest frame signals) := by
  simp only [sendRequest]
  split_ifs with idle
  · cases signals with
    | zero => exact .kept idle
    | succ signals =>
      rw [bind_succ]
      exact .flushed
  · rw [startToSendRequest_eq]
    cases state : c.state with
    | unconnected => exact absurd state idle
    | bound => exact .flushed

theorem onBound_moves (c : Connection) : Moves c c.framesToSend c.onBound := by
  simp only [onBound]
  rw [startToSendRequest_eq]
  exact .flushed

/-- Every frame that was dropped was dropped by a disconnect behind its own event. -/
def DroppedBy (ledger : Framework.Ledger CoapFrame) (events : List ConnectionEvent) : Prop :=
  ∀ x ∈ ledger.entries, ∀ time, x.fate = .dropped time →
    x.time < time ∧ events[time]? = some .disconnect

/-- The ledger accounts for every frame handed to the connection. -/
structure Accounts (ledger : Framework.Ledger CoapFrame) (events : List ConnectionEvent)
    (c : Connection) (written : List CoapFrame) : Prop where
  given : ledger.record = givenFrames events
  written : ledger.items .done = written
  queued : ledger.items .waiting = c.framesToSend
  dropped : DroppedBy ledger events
  bound : c.state = .bound → c.framesToSend = []

theorem givenFrames_append (events : List ConnectionEvent) (event : ConnectionEvent) :
    givenFrames (events ++ [event]) = givenFrames events ++
      (event.given?.map fun frame => (events.length, frame)).toList := by
  simp only [givenFrames]
  rw [List.zipIdx_append, List.filterMap_append]
  cases h : event.given? <;> simp [h]

variable {ledger : Framework.Ledger CoapFrame} {events : List ConnectionEvent} {c : Connection}
  {written : List CoapFrame}

/-- Each frame on record was handed over by an event that lies behind. -/
theorem Accounts.time_lt (h : Accounts ledger events c written) {x : Framework.Entry CoapFrame}
    (hx : x ∈ ledger.entries) : x.time < events.length := by
  have recorded : (x.time, x.item) ∈ givenFrames events := by
    rw [← h.given]
    exact List.mem_map_of_mem hx
  obtain ⟨⟨event, time⟩, listed, given⟩ := List.mem_filterMap.mp recorded
  obtain ⟨frame, -, same⟩ := Option.map_eq_some_iff.mp given
  obtain ⟨rfl, -⟩ := Prod.mk.inj same
  exact (List.mem_zipIdx listed).2.1.trans_le (by simp)

theorem DroppedBy.append (h : DroppedBy ledger events) (event : ConnectionEvent) :
    DroppedBy ledger (events ++ [event]) := by
  intro x hx time dropped
  obtain ⟨later, disconnected⟩ := h x hx time dropped
  obtain ⟨inside, -⟩ := List.getElem?_eq_some_iff.mp disconnected
  exact ⟨later, (List.getElem?_append_left inside).trans disconnected⟩

theorem DroppedBy.give (h : DroppedBy ledger events) (time : Nat) (frame : CoapFrame) :
    DroppedBy (ledger.give time frame) events := by
  intro x hx time dropped
  rcases List.mem_append.mp hx with hx | hx
  · exact h x hx time dropped
  · rw [List.mem_singleton.mp hx] at dropped
    cases dropped

theorem DroppedBy.settle_done (h : DroppedBy ledger events) :
    DroppedBy (ledger.settle .done) events := by
  intro x hx time dropped
  rcases Framework.Ledger.dropped_settle hx dropped with ⟨y, hy, same, before⟩ | ⟨now, -⟩
  · exact same ▸ h y hy time before
  · cases now

/-- Behind an operation that keeps or writes what waits the ledger is brought up to date. -/
theorem accounts_of_moves {queue : List CoapFrame} {result : Connection × List CoapFrame}
    (given : ledger.record = givenFrames events) (done : ledger.items .done = written)
    (queued : ledger.items .waiting = queue) (dropped : DroppedBy ledger events)
    (moves : Moves c queue result) :
    ∃ ledger', Accounts ledger' events result.1 (written ++ result.2) := by
  cases moves with
  | kept idle =>
    refine ⟨ledger, given, done.trans (List.append_nil _).symm, queued, dropped, fun bound => ?_⟩
    rw [show c.state = .bound from bound] at idle
    cases idle
  | flushed =>
    refine ⟨ledger.settle .done, (ledger.record_settle _).trans given, ?_, ?_,
      dropped.settle_done, fun _ => rfl⟩
    · rw [ledger.done_settle, done, queued]
    · exact ledger.waiting_settle (by simp)

theorem Accounts.step (h : Accounts ledger events c written) (event : ConnectionEvent) :
    ∃ ledger', Accounts ledger' (events ++ [event]) (c.handle event).1
      (written ++ (c.handle event).2) := by
  have recorded := givenFrames_append events event
  rw [← h.given] at recorded
  have dropped : DroppedBy ledger (events ++ [event]) := DroppedBy.append h.dropped event
  cases event with
  | sendRequest frame signals =>
    refine accounts_of_moves (ledger.record_give events.length frame |>.trans recorded.symm) ?_ ?_
      (dropped.give events.length frame) (c.sendRequest_moves frame signals)
    · exact (ledger.items_give events.length frame (by simp)).trans h.written
    · rw [ledger.waiting_give, h.queued]
  | bound =>
    exact accounts_of_moves ((List.append_nil _).symm.trans recorded.symm) h.written h.queued
      dropped c.onBound_moves
  | disconnect =>
    refine ⟨ledger.settle (.dropped events.length), ?_, ?_, ?_, ?_, fun bound => ?_⟩
    · rw [ledger.record_settle]
      exact (List.append_nil _).symm.trans recorded.symm
    · rw [ledger.done_settle_dropped, h.written]
      exact (List.append_nil _).symm
    · exact ledger.waiting_settle (by simp)
    · intro x hx time now
      rcases Framework.Ledger.dropped_settle hx now with ⟨y, hy, same, before⟩ | ⟨own, y, hy, same⟩
      · exact same ▸ dropped y hy time before
      · obtain rfl : events.length = time := by simpa using own
        exact ⟨same ▸ h.time_lt hy, by simp⟩
    · cases bound

/-- The connection is an exactly-once queue. Over any events there is a ledger of all the frames
handed to it, in order: the frames written are those the ledger has as done, in its order; the
rest waits in the queue or was dropped by a later disconnect; and nothing waits once the
connection is bound. -/
theorem connection_fifo (securityMode : SecurityMode) (events : List ConnectionEvent) :
    ∃ ledger, Accounts ledger events (after { securityMode := securityMode } events).1
      (after { securityMode := securityMode } events).2 := by
  induction events using List.reverseRecOn with
  | nil =>
    refine ⟨.empty, rfl, rfl, rfl, ?_, fun _ => rfl⟩
    intro x none
    cases none
  | append_singleton events event ih =>
    obtain ⟨ledger, accounts⟩ := ih
    have next := accounts.step event
    simp only [after] at next ⊢
    rwa [List.foldl_append]

end Connection

end QtCoap
