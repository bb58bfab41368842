import QtCoap.Connection.UdpRefinement

namespace QtCoap

variable {Addr σ τ : Type}

namespace QtNetwork

variable (net : QtNetwork Addr σ τ)

/-- The session and the socket behind some calls of the session, the socket opened between them. -/
inductive Calls (start : τ × σ) : τ × σ → Prop
  | refl : Calls start start
  | call {next : τ × σ} (before : Calls start next) (call : Call) :
      Calls start (net.result next.1 next.2 call)
  | openWriting {next : τ × σ} (before : Calls start next) :
      Calls start (next.1, (net.openWriting next.2).1)
  | openReading {next : τ × σ} (before : Calls start next) :
      Calls start (next.1, (net.openReading next.2).1)

variable {net} {start next last : τ × σ}

theorem Calls.trans (h : net.Calls start next) (h' : net.Calls next last) :
    net.Calls start last := by
  induction h' with
  | refl => exact h
  | call before call ih => exact ih.call call
  | openWriting before ih => exact ih.openWriting
  | openReading before ih => exact ih.openReading

/-- What every call keeps of a session. -/
theorem Calls.kept {α : Type} {view : τ → α}
    (each : ∀ d s call, view (net.result d s call).1 = view d) (h : net.Calls start next) :
    view next.1 = view start.1 := by
  induction h with
  | refl => rfl
  | call before call ih => exact (each _ _ call).trans ih
  | openWriting before ih => exact ih
  | openReading before ih => exact ih

theorem Calls.socket (doc : net.SocketLaws) (h : net.Calls start next) :
    net.isUnconnected next.2 = net.isUnconnected start.2 := by
  induction h with
  | refl => rfl
  | call before call ih => exact (doc.socket_result _ _ call).trans ih
  | openWriting before ih => exact (doc.openWriting _).trans ih
  | openReading before ih => exact (doc.openReading _).trans ih

/-- What was encrypted went to the peer of the session as it was then. -/
def SentBy (net : QtNetwork Addr σ τ) (start : τ × σ) (os : List (UdpOutput Addr)) : Prop :=
  ∀ data place, UdpOutput.writeDatagramEncrypted data place ∈ os →
    ∃ next, net.Calls start next ∧ place = net.peer next.1

theorem SentBy.nil (start : τ × σ) : net.SentBy start [] := by
  intro data place none
  cases none

theorem SentBy.cons {os : List (UdpOutput Addr)} (h : net.SentBy start os) {o : UdpOutput Addr}
    (other : ∀ data place, o ≠ .writeDatagramEncrypted data place) :
    net.SentBy start (o :: os) := by
  intro data place out
  rcases List.mem_cons.mp out with same | out
  · exact (other data place same.symm).elim
  · exact h data place out

theorem SentBy.append {os os' : List (UdpOutput Addr)} (h : net.SentBy start os)
    (calls : net.Calls start next) (h' : net.SentBy next os') : net.SentBy start (os ++ os') := by
  intro data place out
  rcases List.mem_append.mp out with out | out
  · exact h data place out
  · obtain ⟨last, later, same⟩ := h' data place out
    exact ⟨last, calls.trans later, same⟩

end QtNetwork

namespace UdpConnection

variable [Platform Addr] (net : QtNetwork Addr σ τ) {c : UdpConnection σ τ} {dtls : τ}

/-- An operation has done nothing to the session but call it. -/
def Uses (dtls : τ) (socket : σ)
    (result : UdpConnection σ τ × List (UdpOutput Addr)) : Prop :=
  (∃ next, result.1.dtls = some next ∧ net.Calls (dtls, socket) (next, result.1.udpSocket)) ∧
    net.SentBy (dtls, socket) result.2

theorem uses_call {Addr : Type} (net : QtNetwork Addr σ τ) (own : c.dtls = some dtls)
    (call : QtNetwork.Call) {os : List (UdpOutput Addr)}
    (sent : net.SentBy (dtls, c.udpSocket) os) :
    Uses net dtls c.udpSocket (c.withSession (net.result dtls c.udpSocket call), os) := by
  refine ⟨⟨(net.result dtls c.udpSocket call).1, ?_, QtNetwork.Calls.refl.call call⟩, sent⟩
  rw [dtls_withSession, own]
  rfl

theorem uses_writeToSocket (own : c.dtls = some dtls) (frame : CoapFrame) :
    Uses net dtls c.udpSocket (writeToSocket net c frame) := by
  simp only [writeToSocket]
  generalize opened : (if net.isWritable c.udpSocket then (c.udpSocket, true)
    else net.openWriting c.udpSocket) = result
  have calls : net.Calls (dtls, c.udpSocket) (dtls, result.1) := by
    rw [← opened]
    split_ifs
    · exact .refl
    · exact QtNetwork.Calls.refl.openWriting
  split_ifs
  · exact ⟨⟨dtls, own, calls⟩, .nil _⟩
  · exact ⟨⟨dtls, own, calls⟩, .nil _⟩
  · rw [dtls_withSocket, own]
    refine ⟨⟨_, ?_, calls.call (.writeDatagramEncrypted frame.currentPdu)⟩, ?_⟩
    · rw [dtls_withSession, dtls_withSocket, own]
      rfl
    · intro data place out
      obtain ⟨-, rfl⟩ : data = frame.currentPdu ∧ place = net.peer dtls := by simpa using out
      exact ⟨_, .refl, rfl⟩

theorem uses_writeFrames (own : c.dtls = some dtls) (frames : List CoapFrame) :
    Uses net dtls c.udpSocket (writeFrames net frames c) := by
  induction frames generalizing c dtls with
  | nil => exact ⟨⟨dtls, own, .refl⟩, .nil _⟩
  | cons frame frames ih =>
    obtain ⟨⟨next, own', calls⟩, first⟩ :=
      uses_writeToSocket net (c := c.withFrames frames) own frame
    obtain ⟨⟨last, own'', calls'⟩, rest⟩ := ih own'
    refine ⟨⟨last, own'', calls.trans calls'⟩, ?_⟩
    exact (first.cons (by simp)).append calls rest

theorem uses_emitBound (own : c.dtls = some dtls) :
    Uses net dtls c.udpSocket (emitBound net c) := by
  obtain ⟨session, sent⟩ := uses_writeFrames net (c := c.withState .bound) own
    (c.withState .bound).framesToSend
  exact ⟨session, sent.cons (by simp)⟩

theorem closeSession_calls {Addr : Type} (net : QtNetwork Addr σ τ) (dtls : τ) (socket : σ) :
    net.Calls (dtls, socket) (closeSession net dtls socket) := by
  simp only [closeSession]
  generalize result : (if net.handshakeState dtls = .inProgress then
    net.abortHandshake dtls socket else (dtls, socket)) = aborted
  have calls : net.Calls (dtls, socket) aborted := by
    rw [← result]
    split_ifs
    · exact QtNetwork.Calls.refl.call .abortHandshake
    · exact .refl
  split_ifs
  · exact calls.call .shutdown
  · exact calls

/-- What an event does to the session. -/
inductive SessionStep (net : QtNetwork Addr σ τ) (dtls : τ) (socket : σ) :
    UdpEvent Addr → UdpConnection σ τ × List (UdpOutput Addr) → Prop
  | uses {event : UdpEvent Addr} {result : UdpConnection σ τ × List (UdpOutput Addr)}
      (open_ : event ≠ .disconnect)
      (other : ∀ configuration, event ≠ .setSecurityConfiguration configuration)
      (uses : Uses net dtls socket result) : SessionStep net dtls socket event result
  | opens {c : UdpConnection σ τ} (frame : CoapFrame) (answer : Option PskAnswer)
      (closed : net.isUnconnected socket = true)
      (own : c.dtls = some (net.doHandshake answer
        (net.setPeer dtls (Platform.ofHost frame.host) frame.port) (net.bind socket).1 []).1.1) :
      SessionStep net dtls socket (.sendRequest frame) (c, [])
  | configures {c : UdpConnection σ τ} (configuration : SecurityConfiguration)
      (own : c.dtls = some (net.setDtlsConfiguration dtls
        ((net.dtlsConfiguration dtls).applied configuration)))
      (same : c.udpSocket = socket) :
      SessionStep net dtls socket (.setSecurityConfiguration configuration) (c, [])
  | closes {c : UdpConnection σ τ} (own : c.dtls = some (closeSession net dtls socket).1) :
      SessionStep net dtls socket .disconnect (c, [])

theorem handle_session (own : c.dtls = some dtls) (event : UdpEvent Addr) :
    SessionStep net dtls c.udpSocket event (handle net c event) := by
  have stays : Uses net dtls c.udpSocket (c, ([] : List (UdpOutput Addr))) :=
    ⟨⟨dtls, own, .refl⟩, .nil _⟩
  cases event with
  | sendRequest frame =>
    simp only [handle]
    by_cases idle : c.state = .unconnected
    · rw [sendRequest_idle net c idle]
      simp only [bind]
      rw [dtls_withFrames, own]
      dsimp only
      split_ifs with encrypted closed
      · exact .uses (by simp) (by simp) (uses_emitBound net (by exact own))
      · refine .opens frame c.pskRequired closed ?_
        rw [dtls_withSession, dtls_withFrames, own]
        rfl
      · exact .uses (by simp) (by simp) stays
    · rw [sendRequest_bound net c idle]
      exact .uses (by simp) (by simp) (uses_writeFrames net (by exact own) _)
  | openReading =>
    refine .uses (by simp) (by simp) ⟨⟨dtls, own, ?_⟩, .nil _⟩
    simp only [handle, openReading, withSocket]
    split_ifs
    · exact .refl
    · exact QtNetwork.Calls.refl.openReading
  | datagram data sender =>
    refine .uses (by simp) (by simp) ?_
    simp only [handle, receiveDatagram]
    rw [own]
    simp only [handleEncryptedDatagram]
    have shaken := uses_call net own (.doHandshake c.pskRequired data) (.nil _)
    split_ifs
    · exact stays
    · exact uses_call net own (.decryptDatagram data) ((QtNetwork.SentBy.nil _).cons (by simp))
    · exact shaken
    · have own' : (c.withSession (net.doHandshake c.pskRequired dtls c.udpSocket data).1).dtls =
          some (net.doHandshake c.pskRequired dtls c.udpSocket data).1.1 := by
        rw [dtls_withSession, own]
        rfl
      obtain ⟨⟨last, own', calls⟩, sent⟩ := uses_emitBound net own'
      have call : net.Calls (dtls, c.udpSocket)
          (net.doHandshake c.pskRequired dtls c.udpSocket data).1 :=
        QtNetwork.Calls.refl.call (.doHandshake c.pskRequired data)
      exact ⟨⟨last, own', call.trans calls⟩, (QtNetwork.SentBy.nil _).append call sent⟩
    · exact shaken
  | handshakeTimeout =>
    refine .uses (by simp) (by simp) ?_
    simp only [handle, handshakeTimeout]
    rw [own]
    dsimp only
    split_ifs
    · exact uses_call net own .handleTimeout (.nil _)
    · exact stays
  | errorOccurred socketError =>
    exact .uses (by simp) (by simp) ⟨⟨dtls, own, .refl⟩, (QtNetwork.SentBy.nil _).cons (by simp)⟩
  | setSecurityConfiguration configuration =>
    simp only [handle, setSecurityConfiguration]
    rw [own]
    refine .configures configuration ?_ rfl
    change c.dtls.map _ = _
    rw [own]
    rfl
  | disconnect =>
    simp only [handle, disconnect, close]
    rw [own]
    refine .closes ?_
    rw [dtls_withState, dtls_withFrames, dtls_withSession, own]
    rfl

end UdpConnection

end QtCoap
