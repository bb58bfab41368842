import QtCoap.Connection.UdpConnection

namespace QtCoap

variable {Addr σ τ : Type}

/-- The frame that the event hands to the connection. -/
def UdpEvent.frame? : UdpEvent Addr → Option CoapFrame
  | sendRequest frame => some frame
  | openReading => none
  | datagram _ _ => none
  | handshakeTimeout => none
  | errorOccurred _ => none
  | setSecurityConfiguration _ => none
  | disconnect => none

/-- The error that the socket raises. -/
def UdpEvent.error? : UdpEvent Addr → Option SocketError
  | errorOccurred socketError => some socketError
  | sendRequest _ => none
  | openReading => none
  | datagram _ _ => none
  | handshakeTimeout => none
  | setSecurityConfiguration _ => none
  | disconnect => none

namespace UdpOutput

def isBound : UdpOutput Addr → Bool
  | bound => true
  | writeData _ => false
  | writeDatagram _ _ _ => false
  | writeDatagramEncrypted _ _ => false
  | readyRead _ _ => false
  | error _ => false

/-- The frame handed to `writeData`. -/
def written? : UdpOutput Addr → Option CoapFrame
  | writeData frame => some frame
  | writeDatagram _ _ _ => none
  | writeDatagramEncrypted _ _ => none
  | bound => none
  | readyRead _ _ => none
  | error _ => none

/-- The message that leaves through the socket, in plain or encrypted. -/
def message? : UdpOutput Addr → Option QByteArray
  | writeDatagram data _ _ => some data
  | writeDatagramEncrypted data _ => some data
  | writeData _ => none
  | bound => none
  | readyRead _ _ => none
  | error _ => none

/-- A write, to the socket or by way of the session. -/
def isWrite : UdpOutput Addr → Bool
  | writeData _ => true
  | writeDatagram _ _ _ => true
  | writeDatagramEncrypted _ _ => true
  | bound => false
  | readyRead _ _ => false
  | error _ => false

end UdpOutput

/-- The frames handed to `writeData`, in order. -/
def writtenFrames (os : List (UdpOutput Addr)) : List CoapFrame := os.filterMap UdpOutput.written?

/-- The messages on the socket, in order. -/
def sentMessages (os : List (UdpOutput Addr)) : List QByteArray := os.filterMap UdpOutput.message?

/-- What an event is for the base class, given what came of it. -/
def UdpEvent.toConnection (os : List (UdpOutput Addr)) : UdpEvent Addr → List ConnectionEvent
  | sendRequest frame => [.sendRequest frame (os.countP UdpOutput.isBound)]
  | openReading => []
  | datagram _ _ => List.replicate (os.countP UdpOutput.isBound) .bound
  | handshakeTimeout => []
  | errorOccurred _ => []
  | setSecurityConfiguration _ => []
  | disconnect => [.disconnect]

theorem countP_isBound_of_isWrite {os : List (UdpOutput Addr)}
    (writes : ∀ o ∈ os, o.isWrite = true) : os.countP UdpOutput.isBound = 0 := by
  rw [List.countP_eq_zero]
  intro o ho
  have write := writes o ho
  cases o with
  | bound => cases write
  | writeData frame => simp [UdpOutput.isBound]
  | writeDatagram data host port => simp [UdpOutput.isBound]
  | writeDatagramEncrypted data peer => simp [UdpOutput.isBound]
  | readyRead data sender => simp [UdpOutput.isBound]
  | error socketError => simp [UdpOutput.isBound]

namespace UdpConnection

variable [Platform Addr] (net : QtNetwork Addr σ τ) (c : UdpConnection σ τ)

@[simp] theorem toConnection_withSession (session : τ × σ) :
    (c.withSession session).toConnection = c.toConnection := rfl

@[simp] theorem dtls_withSession (session : τ × σ) :
    (c.withSession session).dtls = c.dtls.map fun _ => session.1 := rfl

@[simp] theorem toConnection_withSocket (socket : σ) :
    (c.withSocket socket).toConnection = c.toConnection := rfl

@[simp] theorem toConnection_withFrames (frames : List CoapFrame) :
    (c.withFrames frames).toConnection = { c.toConnection with framesToSend := frames } := rfl

@[simp] theorem dtls_withFrames (frames : List CoapFrame) :
    (c.withFrames frames).dtls = c.dtls := rfl

@[simp] theorem toConnection_withState (state : ConnectionState) :
    (c.withState state).toConnection = { c.toConnection with state := state } := rfl

@[simp] theorem dtls_withState (state : ConnectionState) : (c.withState state).dtls = c.dtls := rfl

@[simp] theorem dtls_withSocket (socket : σ) : (c.withSocket socket).dtls = c.dtls := rfl

/-- What `writeToSocket` does with a frame: nothing, or one write of its bytes. -/
inductive Writes (frame : CoapFrame) : List (UdpOutput Addr) → Prop
  | dropped : Writes frame []
  | plain (secure : c.dtls = none)
      (known : Platform.isNull (Platform.ofHost frame.host : Addr) = false) :
      Writes frame [.writeDatagram frame.currentPdu (Platform.ofHost frame.host) frame.port]
  | encrypted (dtls : τ) (secure : c.dtls = some dtls) :
      Writes frame [.writeDatagramEncrypted frame.currentPdu (net.peer dtls)]

theorem writeToSocket_spec (frame : CoapFrame) :
    (writeToSocket net c frame).1.toConnection = c.toConnection ∧
      Writes net c frame (writeToSocket net c frame).2 := by
  simp only [writeToSocket]
  generalize (if net.isWritable c.udpSocket then (c.udpSocket, true)
    else net.openWriting c.udpSocket) = opened
  split_ifs with closed unknown
  · exact ⟨rfl, .dropped⟩
  · exact ⟨rfl, .dropped⟩
  · rw [dtls_withSocket]
    cases session : c.dtls with
    | none => exact ⟨rfl, .plain session (by simpa using unknown)⟩
    | some dtls => exact ⟨rfl, .encrypted dtls session⟩

theorem Writes.written {frame : CoapFrame} {os : List (UdpOutput Addr)}
    (h : Writes net c frame os) : writtenFrames os = [] ∧ (∀ o ∈ os, o.isWrite = true) ∧
      List.Sublist (sentMessages os) [frame.currentPdu] := by
  cases h with
  | dropped => exact ⟨rfl, by simp, List.nil_sublist _⟩
  | plain secure known => exact ⟨rfl, by simp [UdpOutput.isWrite], List.Sublist.refl _⟩
  | encrypted dtls secure => exact ⟨rfl, by simp [UdpOutput.isWrite], List.Sublist.refl _⟩

/-- The loop hands over every frame that waits and empties the queue. -/
theorem writeFrames_spec (frames : List CoapFrame) :
    (writeFrames net frames c).1.toConnection = { c.toConnection with framesToSend := [] } ∧
      writtenFrames (writeFrames net frames c).2 = frames ∧
      (∀ o ∈ (writeFrames net frames c).2, o.isWrite = true) ∧
      List.Sublist (sentMessages (writeFrames net frames c).2) (frames.map (·.currentPdu)) := by
  induction frames generalizing c with
  | nil => exact ⟨rfl, rfl, by simp [writeFrames], List.nil_sublist _⟩
  | cons frame frames ih =>
    obtain ⟨same, writes⟩ := writeToSocket_spec net (c.withFrames frames) frame
    obtain ⟨noFrames, onlyWrites, own⟩ := writes.written
    obtain ⟨queue, written, later, sent⟩ :=
      ih (writeToSocket net (c.withFrames frames) frame).1
    simp only [writeFrames]
    refine ⟨?_, ?_, ?_, ?_⟩
    · rw [queue, same, toConnection_withFrames]
    · rw [writtenFrames, List.cons_append, List.filterMap_cons, List.filterMap_append]
      simp only [UdpOutput.written?]
      rw [← writtenFrames, ← writtenFrames, noFrames, written, List.nil_append]
    · intro o ho
      rcases List.mem_append.mp ho with ho | ho
      · rcases List.mem_cons.mp ho with rfl | ho
        · rfl
        · exact onlyWrites o ho
      · exact later o ho
    · rw [sentMessages, List.cons_append, List.filterMap_cons, List.filterMap_append]
      exact own.append sent

theorem emitBound_spec :
    (emitBound net c).1.toConnection =
        { c.toConnection with state := .bound, framesToSend := [] } ∧
      writtenFrames (emitBound net c).2 = c.framesToSend ∧
      (emitBound net c).2.countP UdpOutput.isBound = 1 ∧
      List.Sublist (sentMessages (emitBound net c).2) (c.framesToSend.map (·.currentPdu)) := by
  obtain ⟨queue, written, writes, sent⟩ :=
    writeFrames_spec net (c.withState .bound) c.framesToSend
  have frames : (c.withState .bound).framesToSend = c.framesToSend := rfl
  simp only [emitBound, startToSendRequest]
  rw [frames]
  refine ⟨queue, written, ?_, sent⟩
  rw [List.countP_cons, countP_isBound_of_isWrite writes]
  rfl

/-- An operation leaves the base class as it is, or it raises `bound()` once. -/
inductive Signals (c : UdpConnection σ τ) :
    UdpConnection σ τ × List (UdpOutput Addr) → Prop
  | silent {c' : UdpConnection σ τ} {os : List (UdpOutput Addr)}
      (same : c'.toConnection = c.toConnection) (written : writtenFrames os = [])
      (quiet : os.countP UdpOutput.isBound = 0) (unsent : sentMessages os = []) :
      Signals c (c', os)
  | bound {c' : UdpConnection σ τ} {os : List (UdpOutput Addr)}
      (flushed : c'.toConnection = { c.toConnection with state := .bound, framesToSend := [] })
      (written : writtenFrames os = c.framesToSend) (once : os.countP UdpOutput.isBound = 1)
      (sent : List.Sublist (sentMessages os) (c.framesToSend.map (·.currentPdu))) :
      Signals c (c', os)

theorem signals_emitBound {c' : UdpConnection σ τ} (same : c'.toConnection = c.toConnection) :
    Signals c (emitBound net c') := by
  obtain ⟨flushed, written, once, sent⟩ := emitBound_spec net c'
  rw [same] at flushed
  have queue : c'.framesToSend = c.framesToSend := congrArg Connection.framesToSend same
  rw [queue] at written sent
  exact .bound flushed written once sent

theorem signals_bind (host : QString) (port : UInt16) : Signals c (bind net c host port) := by
  have silent {c' : UdpConnection σ τ} (same : c'.toConnection = c.toConnection) :
      Signals c (c', ([] : List (UdpOutput Addr))) := .silent same rfl rfl rfl
  simp only [bind]
  cases c.dtls with
  | none =>
    simp only [bindSocket]
    split_ifs
    · exact silent rfl
    · exact signals_emitBound net c rfl
    · exact silent rfl
  | some dtls =>
    dsimp only
    split_ifs
    · exact signals_emitBound net c rfl
    · exact silent rfl
    · exact silent rfl

theorem signals_receiveDatagram (data : QByteArray) (sender : Addr) :
    Signals c (receiveDatagram net c data sender) := by
  have silent {c' : UdpConnection σ τ} (same : c'.toConnection = c.toConnection) :
      Signals c (c', ([] : List (UdpOutput Addr))) := .silent same rfl rfl rfl
  simp only [receiveDatagram]
  cases c.dtls with
  | none => exact .silent rfl rfl rfl rfl
  | some dtls =>
    simp only [handleEncryptedDatagram]
    split_ifs
    · exact .silent rfl rfl rfl rfl
    · exact silent rfl
    · exact signals_emitBound net c rfl
    · exact silent rfl

theorem toConnection_close {Addr : Type} (net : QtNetwork Addr σ τ) :
    (close net c).toConnection = c.toConnection := by
  simp only [close]
  cases c.dtls <;> rfl

theorem toConnection_handshakeTimeout {Addr : Type} (net : QtNetwork Addr σ τ) :
    (handshakeTimeout net c).toConnection = c.toConnection := by
  simp only [handshakeTimeout]
  cases c.dtls with
  | none => rfl
  | some dtls =>
    dsimp only
    split_ifs <;> rfl

theorem toConnection_setSecurityConfiguration {Addr : Type} (net : QtNetwork Addr σ τ)
    (configuration : SecurityConfiguration) :
    (setSecurityConfiguration net c configuration).toConnection = c.toConnection := by
  simp only [setSecurityConfiguration]
  cases c.dtls <;> rfl

theorem after_singleton (c : Connection) (event : ConnectionEvent) :
    Connection.after c [event] = c.handle event := rfl

theorem sendRequest_idle (idle : c.state = .unconnected) (frame : CoapFrame) :
    sendRequest net c frame =
      bind net (c.withFrames (c.framesToSend ++ [frame])) frame.host frame.port :=
  if_pos idle

theorem sendRequest_bound (bound : c.state ≠ .unconnected) (frame : CoapFrame) :
    sendRequest net c frame = startToSendRequest net (c.withFrames (c.framesToSend ++ [frame])) :=
  if_neg bound

/-- `sendRequest` with the queue that `bind` finds. -/
theorem sendRequest_refines (frame : CoapFrame) :
    c.toConnection.sendRequest frame ((sendRequest net c frame).2.countP UdpOutput.isBound) =
        ((sendRequest net c frame).1.toConnection, writtenFrames (sendRequest net c frame).2) ∧
      List.Sublist (sentMessages (sendRequest net c frame).2)
        ((writtenFrames (sendRequest net c frame).2).map (·.currentPdu)) := by
  by_cases idle : c.state = .unconnected
  · rw [sendRequest_idle net c idle, Connection.sendRequest, if_pos (by exact idle)]
    generalize bound : bind net (c.withFrames (c.framesToSend ++ [frame])) frame.host
      frame.port = result
    have signals := signals_bind net (c.withFrames (c.framesToSend ++ [frame]))
      frame.host frame.port
    rw [bound] at signals
    cases signals with
    | silent same written quiet unsent =>
      rw [quiet, written, unsent, same]
      exact ⟨rfl, .refl _⟩
    | bound flushed written once sent =>
      rw [once, written, flushed, Connection.bind_succ]
      exact ⟨rfl, sent⟩
  · obtain ⟨queue, written, -, sent⟩ :=
      writeFrames_spec net (c.withFrames (c.framesToSend ++ [frame]))
        (c.framesToSend ++ [frame])
    have frames : (c.withFrames (c.framesToSend ++ [frame])).framesToSend =
        c.framesToSend ++ [frame] := rfl
    rw [sendRequest_bound net c idle, Connection.sendRequest, if_neg (by exact idle),
      Connection.startToSendRequest_eq, startToSendRequest, frames, queue, written]
    exact ⟨rfl, sent⟩

/-- One event of the connection is for its base class what `toConnection` says, with the same
frames written; each of them is sent once at most. -/
theorem handle_refines (event : UdpEvent Addr) :
    Connection.after c.toConnection (event.toConnection (handle net c event).2) =
        ((handle net c event).1.toConnection, writtenFrames (handle net c event).2) ∧
      List.Sublist (sentMessages (handle net c event).2)
        ((writtenFrames (handle net c event).2).map (·.currentPdu)) := by
  cases event with
  | sendRequest frame => exact sendRequest_refines net c frame
  | openReading => exact ⟨rfl, .refl _⟩
  | datagram data sender =>
    simp only [handle]
    split_ifs
    · exact ⟨rfl, .refl _⟩
    · generalize received : receiveDatagram net c data sender = result
      have signals := signals_receiveDatagram net c data sender
      rw [received] at signals
      cases signals with
      | silent same written quiet unsent =>
        simp only [UdpEvent.toConnection]
        rw [quiet, written, unsent, same]
        exact ⟨rfl, .refl _⟩
      | bound flushed written once sent =>
        simp only [UdpEvent.toConnection]
        rw [once, written, flushed]
        refine ⟨?_, sent⟩
        change Connection.after c.toConnection [.bound] = _
        rw [after_singleton, Connection.handle, Connection.onBound,
          Connection.startToSendRequest_eq]
  | handshakeTimeout => exact ⟨by simp [UdpEvent.toConnection, handle,
      toConnection_handshakeTimeout, Connection.after, writtenFrames], .refl _⟩
  | errorOccurred socketError => exact ⟨rfl, .refl _⟩
  | setSecurityConfiguration configuration =>
    exact ⟨by simp [UdpEvent.toConnection, handle,
      toConnection_setSecurityConfiguration, Connection.after, writtenFrames], .refl _⟩
  | disconnect =>
    refine ⟨?_, .refl _⟩
    simp only [UdpEvent.toConnection, handle, disconnect]
    rw [toConnection_withState, toConnection_withFrames, toConnection_close]
    rfl

theorem securityMode_of_moves {c : Connection} {queue : List CoapFrame}
    {result : Connection × List CoapFrame} (moves : Connection.Moves c queue result) :
    result.1.securityMode = c.securityMode := by
  cases moves <;> rfl

theorem securityMode_handle (c : Connection) (event : ConnectionEvent) :
    (c.handle event).1.securityMode = c.securityMode := by
  cases event with
  | sendRequest frame signals => exact securityMode_of_moves (c.sendRequest_moves frame signals)
  | bound => exact securityMode_of_moves c.onBound_moves
  | disconnect => rfl

theorem securityMode_after (c : Connection) (events : List ConnectionEvent) :
    (Connection.after c events).1.securityMode = c.securityMode := by
  induction events using List.reverseRecOn with
  | nil => rfl
  | append_singleton events event ih =>
    rw [Connection.after, List.foldl_append, ← ih]
    exact securityMode_handle _ event

theorem isSecure_handle (event : UdpEvent Addr) :
    (handle net c event).1.isSecure = c.isSecure := by
  have kept := securityMode_after c.toConnection (event.toConnection (handle net c event).2)
  rw [(handle_refines net c event).1] at kept
  rw [Connection.isSecure, kept]
  rfl

/-- The events of a connection, with everything that came of them. -/
abbrev Taken (Addr σ τ : Type) :=
  Framework.Transition (UdpConnection σ τ) (UdpEvent Addr) (UdpOutput Addr)

def Step (c : UdpConnection σ τ) (event : UdpEvent Addr) (os : List (UdpOutput Addr))
    (c' : UdpConnection σ τ) : Prop :=
  handle net c event = (c', os)

/-- A run as the base class sees it. -/
def connectionEvents (tr : List (Taken Addr σ τ)) : List ConnectionEvent :=
  tr.flatMap fun x => x.event.toConnection x.outputs

variable {net c} {t : UdpConnection σ τ} {tr : List (Taken Addr σ τ)}

theorem given_toConnection {Addr : Type} (event : UdpEvent Addr) (os : List (UdpOutput Addr)) :
    (event.toConnection os).filterMap ConnectionEvent.given? = event.frame?.toList := by
  cases event with
  | datagram data sender =>
    simp only [UdpEvent.toConnection, UdpEvent.frame?]
    rw [List.filterMap_replicate_of_none rfl]
    rfl
  | _ => rfl

theorem given_connectionEvents {Addr : Type} (tr : List (Taken Addr σ τ)) :
    (connectionEvents tr).filterMap ConnectionEvent.given? = tr.filterMap (·.event.frame?) := by
  induction tr with
  | nil => rfl
  | cons x tr ih =>
    rw [connectionEvents, List.flatMap_cons, List.filterMap_append, given_toConnection,
      ← connectionEvents, ih, List.filterMap_cons]
    cases x.event.frame? <;> rfl

/-- The frames on record, without the times. -/
theorem map_snd_givenFrames (events : List ConnectionEvent) :
    (Connection.givenFrames events).map Prod.snd = events.filterMap ConnectionEvent.given? := by
  induction events using List.reverseRecOn with
  | nil => rfl
  | append_singleton events event ih =>
    rw [Connection.givenFrames_append, List.map_append, ih, List.filterMap_append]
    cases given : event.given? <;> simp [given]

/-- A ledger is brought up to date with several events. -/
theorem Accounts.steps {ledger : Framework.Ledger CoapFrame} {before : List ConnectionEvent}
    {c : Connection} {written : List CoapFrame}
    (h : Connection.Accounts ledger before c written) (events : List ConnectionEvent) :
    ∃ ledger', Connection.Accounts ledger' (before ++ events) (Connection.after c events).1
      (written ++ (Connection.after c events).2) := by
  induction events using List.reverseRecOn with
  | nil => exact ⟨ledger, by simpa [Connection.after] using h⟩
  | append_singleton events event ih =>
    obtain ⟨ledger', accounts⟩ := ih
    have next := accounts.step event
    simp only [Connection.after] at next ⊢
    rw [List.foldl_append, ← List.append_assoc]
    simpa using next

/-- What has happened on a run is what the base class has on its ledger. -/
theorem run_accounts (start : c.framesToSend = [] ∧ c.state = .unconnected)
    (run : Framework.Run (Step net) c tr t) :
    (∃ ledger, Connection.Accounts ledger (connectionEvents tr) t.toConnection
      (writtenFrames (tr.flatMap (·.outputs)))) ∧
    List.Sublist (sentMessages (tr.flatMap (·.outputs)))
      ((writtenFrames (tr.flatMap (·.outputs))).map (·.currentPdu)) := by
  induction run with
  | nil =>
    refine ⟨⟨.empty, rfl, rfl, ?_, ?_, fun _ => start.1⟩, .refl _⟩
    · exact start.1.symm
    · intro x none
      cases none
  | @snoc tr u before event os t last ih =>
    obtain ⟨⟨ledger, accounts⟩, sent⟩ := ih
    obtain ⟨refines, own⟩ := handle_refines net u event
    rw [show handle net u event = (t, os) from last] at refines own
    have next := Accounts.steps accounts (event.toConnection os)
    rw [refines] at next
    have events : connectionEvents (tr ++ [⟨u, event, os, t⟩]) =
        connectionEvents tr ++ event.toConnection os := by
      simp [connectionEvents]
    rw [events, List.flatMap_append, List.flatMap_singleton, writtenFrames, sentMessages,
      List.filterMap_append, List.filterMap_append, List.map_append]
    exact ⟨next, sent.append own⟩

/-- What leaves through the socket are frames that were given, each once at most and in order. -/
theorem run_sent (start : c.framesToSend = [] ∧ c.state = .unconnected)
    (run : Framework.Run (Step net) c tr t) :
    List.Sublist (sentMessages (tr.flatMap (·.outputs)))
      ((tr.filterMap (·.event.frame?)).map (·.currentPdu)) := by
  obtain ⟨⟨ledger, accounts⟩, sent⟩ := run_accounts start run
  have given : ledger.record.map Prod.snd = tr.filterMap (·.event.frame?) := by
    rw [accounts.given, map_snd_givenFrames, given_connectionEvents]
  rw [← accounts.written] at sent
  exact sent.trans ((given ▸ ledger.items_sublist .done).map _)

theorem create_unconnected {Addr : Type} {net : QtNetwork Addr σ τ} (securityMode : SecurityMode) :
    (create net securityMode).framesToSend = [] ∧
      (create net securityMode).state = .unconnected := by
  cases securityMode <;> exact ⟨rfl, rfl⟩

/-- Over any socket and any session, for any events: the connection is to its base class a run of
the queue there. The ledger of that queue has the frames given, in order; those written are the
ones it has as done, and each of them leaves through the socket once at most and in order. -/
theorem udpConnection_fifo (net : QtNetwork Addr σ τ) (securityMode : SecurityMode)
    (events : List (UdpEvent Addr)) :
    let tr := Framework.trace (handle net) (create net securityMode) events
    ∃ ledger : Framework.Ledger CoapFrame,
      Connection.Accounts ledger (connectionEvents tr)
        (after net securityMode events).toConnection (writtenFrames (tr.flatMap (·.outputs))) ∧
      ledger.record.map Prod.snd = events.filterMap UdpEvent.frame? ∧
      List.Sublist (sentMessages (tr.flatMap (·.outputs)))
        ((ledger.items .done).map (·.currentPdu)) := by
  intro tr
  obtain ⟨⟨ledger, accounts⟩, sent⟩ :=
    run_accounts (create_unconnected securityMode)
      (Framework.run_trace (handle net) (create net securityMode) events)
  refine ⟨ledger, accounts, ?_, ?_⟩
  · have taken := Framework.events_trace (handle net) (create net securityMode) events
    rw [accounts.given, map_snd_givenFrames, given_connectionEvents]
    calc tr.filterMap (·.event.frame?)
        = (tr.map (·.event)).filterMap UdpEvent.frame? := by rw [List.filterMap_map]; rfl
      _ = events.filterMap UdpEvent.frame? := by rw [taken]
  · rw [accounts.written]
    exact sent

end UdpConnection

end QtCoap
