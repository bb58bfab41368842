import QtCoap.Connection.Datagrams
import QtCoap.Connection.Session

namespace QtCoap

variable {Addr σ τ : Type} [Platform Addr]

/-- The place that a frame names. -/
def CoapFrame.destination (Addr : Type) [Platform Addr] (frame : CoapFrame) : Addr × UInt16 :=
  (Platform.ofHost frame.host, frame.port)

/-- The frame is for the address of one host. -/
def CoapFrame.Unicast (Addr : Type) [Platform Addr] (frame : CoapFrame) : Prop :=
  Platform.isUnicast (Platform.ofHost frame.host : Addr) = true

instance (frame : CoapFrame) : Decidable (frame.Unicast Addr) :=
  inferInstanceAs (Decidable (_ = true))

/-- The frame that has opened the connection, behind one more event. -/
def UdpEvent.opener (opener : Option CoapFrame) : UdpEvent Addr → Option CoapFrame
  | sendRequest frame => opener.or (some frame)
  | openReading => opener
  | datagram _ _ => opener
  | handshakeTimeout => opener
  | errorOccurred _ => opener
  | setSecurityConfiguration _ => opener
  | disconnect => none

/-- The first frame that was given to the connection, behind the last disconnect if there was
one. -/
def openingFrame (events : List (UdpEvent Addr)) : Option CoapFrame :=
  events.foldl UdpEvent.opener none

namespace UdpConnection

variable {net : QtNetwork Addr σ τ} {c : UdpConnection σ τ} {dtls : τ} {peer : Addr × UInt16}

/-- All that was encrypted went to one place. -/
def SentTo (peer : Addr × UInt16) (os : List (UdpOutput Addr)) : Prop :=
  ∀ data place, UdpOutput.writeDatagramEncrypted data place ∈ os → place = peer

theorem sentTo_nil {Addr : Type} (peer : Addr × UInt16) :
    SentTo peer ([] : List (UdpOutput Addr)) := by
  intro data place none
  cases none

/-- The session is for a certain peer, and the socket is open. -/
structure Peered (net : QtNetwork Addr σ τ) (c : UdpConnection σ τ) (peer : Addr × UInt16) :
    Prop where
  session : ∃ dtls, c.dtls = some dtls ∧ net.peer dtls = peer
  socket : net.isUnconnected c.udpSocket = false

/-- An open socket is not bound again: whatever happens but a disconnect, the peer stays. -/
theorem Peered.handle (doc : net.PeerLaws) (h : Peered net c peer) {event : UdpEvent Addr}
    (open_ : event ≠ .disconnect) :
    Peered net (UdpConnection.handle net c event).1 peer ∧
      SentTo peer (UdpConnection.handle net c event).2 := by
  obtain ⟨dtls, own, same⟩ := h.session
  generalize handled : UdpConnection.handle net c event = result
  have step := handle_session net own event
  rw [handled] at step
  have socket := h.socket
  cases step with
  | uses other plain uses =>
    obtain ⟨⟨next, own', calls⟩, sent⟩ := uses
    refine ⟨⟨⟨next, own', (calls.kept doc.peer_result).trans same⟩,
      (calls.socket doc.toSocketLaws).trans socket⟩, fun data place out => ?_⟩
    obtain ⟨then_, before, rfl⟩ := sent data place out
    exact (before.kept doc.peer_result).trans same
  | opens frame answer closed own' =>
    rw [socket] at closed
    cases closed
  | configures configuration own' untouched =>
    have kept := doc.peer_setDtlsConfiguration dtls
      ((net.dtlsConfiguration dtls).applied configuration)
    exact ⟨⟨⟨_, own', kept.trans same⟩, untouched ▸ socket⟩, sentTo_nil peer⟩
  | closes own' => contradiction

/-- The handshake is over without an encrypted connection. -/
structure Dead (net : QtNetwork Addr σ τ) (c : UdpConnection σ τ) : Prop where
  session : ∃ dtls, c.dtls = some dtls ∧ net.Failed dtls
  idle : c.state = .unconnected

theorem Dead.withSession {Addr : Type} {net : QtNetwork Addr σ τ} (h : Dead net c) {next : τ × σ}
    (failed : net.Failed next.1) : Dead net (c.withSession next) := by
  obtain ⟨dtls, own, -⟩ := h.session
  refine ⟨⟨next.1, ?_, failed⟩, h.idle⟩
  rw [dtls_withSession, own]
  rfl

/-- Then only the errors of the socket are passed on. -/
theorem Dead.handle (doc : net.HandshakeLaws) (h : Dead net c) (event : UdpEvent Addr) :
    Dead net (UdpConnection.handle net c event).1 ∧
      (UdpConnection.handle net c event).2 = event.error?.toList.map .error := by
  obtain ⟨dtls, own, failed⟩ := h.session
  have handshake (d : τ) (failed : net.Failed d) (answer : Option PskAnswer) (socket : σ)
      (data : QByteArray) : net.Failed (net.doHandshake answer d socket data).1.1 :=
    doc.failed_result d socket (.doHandshake answer data) failed (by simp)
  cases event with
  | sendRequest frame =>
    have queued : Dead net (c.withFrames (c.framesToSend ++ [frame])) := ⟨h.session, h.idle⟩
    simp only [UdpConnection.handle]
    rw [sendRequest_idle net c h.idle]
    simp only [bind]
    rw [dtls_withFrames, own]
    dsimp only
    rw [failed.1]
    simp only [Bool.false_eq_true, if_false]
    split_ifs
    · obtain ⟨state, encrypted⟩ := doc.state_setPeer dtls (Platform.ofHost frame.host) frame.port
      have set : net.Failed (net.setPeer dtls (Platform.ofHost frame.host) frame.port) := by
        rw [QtNetwork.Failed, state, encrypted]
        exact failed
      exact ⟨queued.withSession (handshake _ set _ _ _), rfl⟩
    · exact ⟨queued, rfl⟩
  | openReading => exact ⟨⟨h.session, h.idle⟩, rfl⟩
  | datagram data sender =>
    simp only [UdpConnection.handle, receiveDatagram]
    rw [own]
    simp only [handleEncryptedDatagram]
    rw [failed.1, doc.doHandshake_failed _ dtls _ data failed]
    simp only [Bool.false_eq_true, if_false, Bool.not_false, if_true]
    split_ifs
    · exact ⟨h, rfl⟩
    · exact ⟨h.withSession (handshake dtls failed _ _ _), rfl⟩
  | handshakeTimeout =>
    simp only [UdpConnection.handle, handshakeTimeout]
    rw [own]
    dsimp only
    rw [if_neg failed.2.2]
    exact ⟨h, rfl⟩
  | errorOccurred socketError => exact ⟨h, rfl⟩
  | setSecurityConfiguration configuration =>
    simp only [UdpConnection.handle, setSecurityConfiguration]
    rw [own]
    obtain ⟨state, encrypted⟩ := doc.state_setDtlsConfiguration dtls
      ((net.dtlsConfiguration dtls).applied configuration)
    have still : Dead net (c.withSession (net.setDtlsConfiguration dtls
        ((net.dtlsConfiguration dtls).applied configuration), c.udpSocket)) := by
      apply h.withSession
      rw [QtNetwork.Failed, state, encrypted]
      exact failed
    exact ⟨⟨still.session, still.idle⟩, rfl⟩
  | disconnect =>
    have kept : closeSession net dtls c.udpSocket = (dtls, c.udpSocket) := by
      simp only [closeSession]
      rw [if_neg failed.2.2, failed.1]
      rfl
    simp only [UdpConnection.handle, disconnect, close]
    rw [own]
    dsimp only
    rw [kept]
    exact ⟨⟨(h.withSession failed).session, rfl⟩, rfl⟩

/-- A handshake that is over without an encrypted connection, as it is when the peer could not be
verified, is never tried again: whatever is sent or received from then on, and however often the
connection is disconnected, nothing leaves it and nothing is received. -/
theorem failed_final (doc : net.HandshakeLaws) (dead : Dead net c)
    (events : List (UdpEvent Addr)) :
    (Framework.trace (UdpConnection.handle net) c events).flatMap (·.outputs) =
      (events.filterMap UdpEvent.error?).map .error := by
  induction events generalizing c with
  | nil => rfl
  | cons event events ih =>
    obtain ⟨still, nothing⟩ := dead.handle doc event
    simp only [Framework.trace]
    rw [List.flatMap_cons, nothing, ih still, ← List.map_append]
    cases raised : event.error? <;> simp [raised]

/-- Nothing has been given to the connection since it was closed. -/
structure Closed (net : QtNetwork Addr σ τ) (c : UdpConnection σ τ) : Prop where
  session : ∃ dtls, c.dtls = some dtls ∧ net.isConnectionEncrypted dtls = false ∧
    net.handshakeState dtls ≠ .inProgress
  socket : net.isUnconnected c.udpSocket = true
  idle : c.state = .unconnected

theorem closed_create (doc : net.PeerLaws) {securityMode : SecurityMode}
    (secure : securityMode = .preSharedKey ∨ securityMode = .certificate) :
    Closed net (create net securityMode) := by
  obtain ⟨fresh, plain⟩ := doc.newSession
  have started (config : SslConfiguration) :
      net.isConnectionEncrypted (net.setDtlsConfiguration net.newSession config) = false ∧
        net.handshakeState (net.setDtlsConfiguration net.newSession config) ≠ .inProgress := by
    obtain ⟨state, encrypted⟩ := doc.state_setDtlsConfiguration net.newSession config
    rw [state, encrypted, fresh]
    exact ⟨plain, by decide⟩
  rcases secure with rfl | rfl
  · exact ⟨⟨_, rfl, started _⟩, doc.newSocket, rfl⟩
  · exact ⟨⟨_, rfl, started _⟩, doc.newSocket, rfl⟩

/-- Behind `close` no handshake is under way and nothing is encrypted. -/
theorem closeSession_spec {Addr : Type} {net : QtNetwork Addr σ τ} (doc : net.HandshakeLaws)
    (dtls : τ) (socket : σ) :
    net.isConnectionEncrypted (closeSession net dtls socket).1 = false ∧
      net.handshakeState (closeSession net dtls socket).1 ≠ .inProgress := by
  simp only [closeSession]
  split_ifs with running encrypted encrypted
  · obtain ⟨-, plain⟩ := doc.abortHandshake dtls socket running
    rw [plain] at encrypted
    cases encrypted
  · obtain ⟨state, plain⟩ := doc.abortHandshake dtls socket running
    rw [state]
    exact ⟨plain, by decide⟩
  · obtain ⟨state, plain⟩ := doc.shutdown dtls socket encrypted
    rw [state]
    exact ⟨plain, by decide⟩
  · exact ⟨by simpa using encrypted, running⟩

theorem closed_disconnect (doc : net.PeerLaws) (own : c.dtls = some dtls) :
    Closed net (disconnect net c) := by
  simp only [disconnect, close]
  rw [own]
  refine ⟨⟨(closeSession net dtls c.udpSocket).1, ?_, closeSession_spec doc.toHandshakeLaws dtls
    c.udpSocket⟩, doc.close _, rfl⟩
  rw [dtls_withState, dtls_withFrames, dtls_withSession, own]
  rfl

/-- The first frame behind a disconnect decides on the peer, or finds a session that has failed. -/
theorem Closed.sendRequest (doc : net.PeerLaws) (bindable : ∀ s, (net.bind s).2 = true)
    (h : Closed net c) (frame : CoapFrame) (unicast : frame.Unicast Addr) :
    (Peered net (UdpConnection.sendRequest net c frame).1 (frame.destination Addr) ∨
      Dead net (UdpConnection.sendRequest net c frame).1) ∧
    (UdpConnection.sendRequest net c frame).2 = [] := by
  obtain ⟨dtls, own, plain, rest⟩ := h.session
  have socket : net.isUnconnected (c.withFrames (c.framesToSend ++ [frame])).udpSocket = true :=
    h.socket
  obtain ⟨state, encrypted⟩ := doc.state_setPeer dtls (Platform.ofHost frame.host) frame.port
  rw [sendRequest_idle net c h.idle]
  simp only [bind]
  rw [dtls_withFrames, own]
  dsimp only
  rw [plain, socket]
  simp only [Bool.false_eq_true, if_false, if_true, and_true]
  generalize (c.withFrames (c.framesToSend ++ [frame])).pskRequired = answer
  generalize answered : net.doHandshake answer
    (net.setPeer dtls (Platform.ofHost frame.host) frame.port)
    (net.bind (c.withFrames (c.framesToSend ++ [frame])).udpSocket).1 [] = result
  have call := doc.peer_result (net.setPeer dtls (Platform.ofHost frame.host) frame.port)
    (net.bind (c.withFrames (c.framesToSend ++ [frame])).udpSocket).1 (.doHandshake answer [])
  have kept := doc.socket_result (net.setPeer dtls (Platform.ofHost frame.host) frame.port)
    (net.bind (c.withFrames (c.framesToSend ++ [frame])).udpSocket).1 (.doHandshake answer [])
  have failing := doc.failed_result (net.setPeer dtls (Platform.ofHost frame.host) frame.port)
    (net.bind (c.withFrames (c.framesToSend ++ [frame])).udpSocket).1 (.doHandshake answer [])
  simp only [QtNetwork.result] at call kept failing
  rw [answered] at call kept failing
  have session : ((c.withFrames (c.framesToSend ++ [frame])).withSession result.1).dtls =
      some result.1.1 := by
    rw [dtls_withSession, dtls_withFrames, own]
    rfl
  by_cases fresh : net.handshakeState dtls = .notStarted
  · left
    refine ⟨⟨result.1.1, session, ?_⟩, ?_⟩
    · exact call.trans (doc.setPeer dtls _ _ fresh unicast)
    · exact kept.trans (doc.bind _ (bindable _))
  · right
    refine ⟨⟨result.1.1, session, failing ?_ (by simp)⟩, h.idle⟩
    rw [QtNetwork.Failed, state, encrypted]
    exact ⟨plain, fresh, rest⟩

/-- What is known of a secure connection, given the frame that opened it. -/
def Addressed (net : QtNetwork Addr σ τ) (c : UdpConnection σ τ) : Option CoapFrame → Prop
  | none => Closed net c
  | some first => Peered net c (first.destination Addr) ∨ Dead net c

/-- Without a frame a closed connection stays closed. -/
theorem Closed.handle (doc : net.PeerLaws) (h : Closed net c) {event : UdpEvent Addr}
    (other : event.frame? = none) :
    Closed net (UdpConnection.handle net c event).1 ∧
      (UdpConnection.handle net c event).2 = event.error?.toList.map .error := by
  obtain ⟨dtls, own, plain, rest⟩ := h.session
  cases event with
  | sendRequest frame => cases other
  | openReading =>
    refine ⟨⟨⟨dtls, own, plain, rest⟩, ?_, h.idle⟩, rfl⟩
    simp only [UdpConnection.handle, openReading, withSocket]
    split_ifs
    · exact h.socket
    · exact (doc.openReading _).trans h.socket
  | datagram data sender =>
    simp only [UdpConnection.handle]
    rw [if_pos h.socket]
    exact ⟨h, rfl⟩
  | handshakeTimeout =>
    simp only [UdpConnection.handle, handshakeTimeout]
    rw [own]
    dsimp only
    rw [if_neg rest]
    exact ⟨h, rfl⟩
  | errorOccurred socketError => exact ⟨h, rfl⟩
  | setSecurityConfiguration configuration =>
    simp only [UdpConnection.handle, setSecurityConfiguration]
    rw [own]
    obtain ⟨state, encrypted⟩ := doc.state_setDtlsConfiguration dtls
      ((net.dtlsConfiguration dtls).applied configuration)
    refine ⟨⟨⟨_, ?_, encrypted.trans plain, state ▸ rest⟩, h.socket, h.idle⟩, rfl⟩
    change c.dtls.map _ = _
    rw [own]
    rfl
  | disconnect => exact ⟨closed_disconnect doc own, rfl⟩

theorem Addressed.step (doc : net.PeerLaws) (bindable : ∀ s, (net.bind s).2 = true)
    {opener : Option CoapFrame} (h : Addressed net c opener) (event : UdpEvent Addr)
    (unicast : ∀ frame, event = .sendRequest frame → frame.Unicast Addr) :
    Addressed net (UdpConnection.handle net c event).1 (event.opener opener) ∧
      ∀ data place, .writeDatagramEncrypted data place ∈ (UdpConnection.handle net c event).2 →
        ∃ first, event.opener opener = some first ∧ place = first.destination Addr := by
  have silent {c' : UdpConnection σ τ} {os : List (UdpOutput Addr)}
      (still : Addressed net c' (event.opener opener))
      (errors : os = event.error?.toList.map .error) :
      Addressed net c' (event.opener opener) ∧ ∀ data place,
        .writeDatagramEncrypted data place ∈ os →
          ∃ first, event.opener opener = some first ∧ place = first.destination Addr := by
    refine ⟨still, fun data place out => ?_⟩
    rw [errors] at out
    simp at out
  cases opener with
  | none =>
    have closed : Closed net c := h
    cases event with
    | sendRequest frame =>
      obtain ⟨opened, none⟩ := closed.sendRequest doc bindable frame (unicast frame rfl)
      exact silent opened none
    | openReading => exact (closed.handle doc rfl).elim silent
    | datagram data sender => exact (closed.handle doc rfl).elim silent
    | handshakeTimeout => exact (closed.handle doc rfl).elim silent
    | errorOccurred socketError => exact (closed.handle doc rfl).elim silent
    | setSecurityConfiguration configuration => exact (closed.handle doc rfl).elim silent
    | disconnect => exact (closed.handle doc rfl).elim silent
  | some first =>
    by_cases ends : event = .disconnect
    · subst ends
      have open_ : Peered net c (first.destination Addr) ∨ Dead net c := h
      have session : ∃ dtls, c.dtls = some dtls := by
        rcases open_ with peered | dead
        · exact peered.session.imp fun dtls own => own.1
        · exact dead.session.imp fun dtls own => own.1
      obtain ⟨dtls, own⟩ := session
      exact silent (closed_disconnect doc own) rfl
    · have stays : event.opener (some first) = some first := by
        cases event with
        | disconnect => contradiction
        | _ => rfl
      rcases (h : Peered net c (first.destination Addr) ∨ Dead net c) with peered | dead
      · obtain ⟨still, sent⟩ := peered.handle doc ends
        rw [stays]
        exact ⟨.inl still, fun data place out => ⟨first, rfl, sent data place out⟩⟩
      · obtain ⟨still, errors⟩ := dead.handle doc.toHandshakeLaws event
        rw [stays] at silent ⊢
        exact silent (.inr still) errors

theorem addressed_after (doc : net.PeerLaws) (bindable : ∀ s, (net.bind s).2 = true)
    {securityMode : SecurityMode}
    (secure : securityMode = .preSharedKey ∨ securityMode = .certificate)
    (events : List (UdpEvent Addr))
    (unicast : ∀ frame, .sendRequest frame ∈ events → frame.Unicast Addr) :
    Addressed net (after net securityMode events) (openingFrame events) := by
  induction events using List.reverseRecOn with
  | nil => exact closed_create doc secure
  | append_singleton events event ih =>
    rw [after, openingFrame, List.foldl_append, List.foldl_append]
    have before := ih fun frame given => unicast frame (List.mem_append_left _ given)
    exact (before.step doc bindable event fun frame given => unicast frame (by simp [given])).1

/-- A secure connection writes to one peer at a time: whichever host a frame names, until the next
disconnect it goes to the one that the first frame named. -/
theorem one_peer (doc : net.PeerLaws) (bindable : ∀ s, (net.bind s).2 = true)
    {securityMode : SecurityMode}
    (secure : securityMode = .preSharedKey ∨ securityMode = .certificate)
    (events : List (UdpEvent Addr)) (event : UdpEvent Addr)
    (unicast : ∀ frame, .sendRequest frame ∈ events ++ [event] → frame.Unicast Addr)
    {data : QByteArray} {place : Addr × UInt16}
    (out : .writeDatagramEncrypted data place ∈
      (handle net (after net securityMode events) event).2) :
    ∃ first, openingFrame (events ++ [event]) = some first ∧ place = first.destination Addr := by
  have before := addressed_after doc bindable secure events fun frame given =>
    unicast frame (List.mem_append_left _ given)
  obtain ⟨first, opener, same⟩ := (before.step doc bindable event fun frame given =>
    unicast frame (by simp [given])).2 data place out
  refine ⟨first, ?_, same⟩
  rw [openingFrame, List.foldl_append]
  exact opener

end UdpConnection

section Instances

open UdpConnection

/-- Both frames reach the first host. -/
theorem one_peer_twoHosts :
    .writeDatagramEncrypted [2] (some (10, 0, 0, 1), 5684) ∈
        (handle simulated (after simulated .preSharedKey (twoHosts.take 2))
          (.datagram [1] (some (10, 0, 0, 1)))).2 ∧
      ∃ first, openingFrame twoHosts = some first ∧
        (some (10, 0, 0, 1), 5684) = first.destination IPv4Address := by
  have out : .writeDatagramEncrypted [2] (some (10, 0, 0, 1), 5684) ∈
      (handle simulated (after simulated .preSharedKey (twoHosts.take 2))
        (.datagram [1] (some (10, 0, 0, 1)))).2 := by
    decide +kernel
  refine ⟨out, one_peer simulated_peerLaws (fun _ => rfl) (.inl rfl) (twoHosts.take 2) _ ?_ out⟩
  intro frame given
  obtain rfl | rfl : frame = frameTo "10.0.0.1" [1] ∨ frame = frameTo "10.0.0.2" [2] := by
    simpa [twoHosts] using given
  · decide
  · decide

/-- The certificate of the peer does not verify. -/
def unverified : List (UdpEvent IPv4Address) :=
  [.sendRequest (frameTo "10.0.0.1" [1]), .datagram [0] (some (10, 0, 0, 1))]

/-- Not even a disconnect lets the connection try another host. -/
theorem failed_final_unverified :
    (Framework.trace (handle simulated) (after simulated .certificate unverified)
      ([.disconnect] ++ twoHosts ++ [.errorOccurred .network])).flatMap (·.outputs) =
        [.error .network] := by
  have session : (after simulated .certificate unverified).dtls =
      some ⟨.peerVerificationFailed, (some (10, 0, 0, 1), 5684),
        { peerVerifyMode := .verifyPeer }⟩ := by
    decide +kernel
  have dead : Dead simulated (after simulated .certificate unverified) :=
    ⟨⟨_, session, rfl, by decide, by decide⟩, by decide +kernel⟩
  exact failed_final simulated_handshakeLaws dead
    ([.disconnect] ++ twoHosts ++ [.errorOccurred .network])

end Instances

end QtCoap
