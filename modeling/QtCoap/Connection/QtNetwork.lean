import QtCoap.Protocol.Platform

namespace QtCoap

/-- `QSsl::KeyAlgorithm`. -/
inductive KeyAlgorithm
  | opaqueKey
  | rsa
  | dsa
  | ec
  | dh
  deriving DecidableEq, Repr

/-- `QSsl::EncodingFormat`. -/
inductive EncodingFormat
  | pem
  | der
  deriving DecidableEq, Repr

/-- `QCoapPrivateKey`; handle 0 is the null pointer. -/
structure PrivateKey where
  key : QByteArray := []
  handle : Nat := 0
  algorithm : KeyAlgorithm := .opaqueKey
  encodingFormat : EncodingFormat := .pem
  passPhrase : QByteArray := []
  deriving DecidableEq, Repr

/-- `QCoapPrivateKey::isNull`. -/
def PrivateKey.isNull (k : PrivateKey) : Bool :=
  if k.algorithm = .opaqueKey then k.handle == 0 else k.key.isEmpty

/-- `QSslCertificate`, as its encoding. -/
abbrev Certificate := QByteArray

/-- `QCoapSecurityConfiguration`. -/
structure SecurityConfiguration where
  preSharedKeyIdentity : QByteArray := []
  preSharedKey : QByteArray := []
  defaultCipherString : QString := []
  caCertificates : List Certificate := []
  localCertificateChain : List Certificate := []
  privateKey : PrivateKey := {}
  deriving DecidableEq, Repr

/-- `QSslKey`, by the arguments of its constructor. -/
inductive SslKey
  | ofKey (key : QByteArray) (algorithm : KeyAlgorithm) (encodingFormat : EncodingFormat)
      (passPhrase : QByteArray)
  | ofHandle (handle : Nat)
  deriving DecidableEq, Repr

/-- `QSslSocket::PeerVerifyMode`. -/
inductive PeerVerifyMode
  | verifyNone
  | queryPeer
  | verifyPeer
  | autoVerifyPeer
  deriving DecidableEq, Repr

/-- `QSslConfiguration`. -/
structure SslConfiguration where
  peerVerifyMode : PeerVerifyMode := .autoVerifyPeer
  cipherString : QString := []
  caCertificates : List Certificate := []
  localCertificateChain : List Certificate := []
  privateKey : Option SslKey := none
  deriving DecidableEq, Repr

/-- `QDtls::HandshakeState`. -/
inductive HandshakeState
  | notStarted
  | inProgress
  | peerVerificationFailed
  | complete
  deriving DecidableEq, Repr

/-- What `pskRequired` answers: an identity and a key. -/
structure PskAnswer where
  identity : QByteArray
  preSharedKey : QByteArray
  deriving DecidableEq, Repr

/-- `QUdpSocket` with states `σ` and `QDtls` with states `τ`, which lie outside the sources. A call
tells whether it succeeded where the connection looks at that; `decryptDatagram` returns what it
has decrypted, and nothing where it has failed. -/
structure QtNetwork (Addr σ τ : Type) where
  newSocket : σ
  isUnconnected : σ → Bool
  isReadable : σ → Bool
  isWritable : σ → Bool
  openReading : σ → σ × Bool
  openWriting : σ → σ × Bool
  bindShared : σ → σ × Bool
  bind : σ → σ × Bool
  writeDatagram : σ → QByteArray → Addr → UInt16 → σ
  close : σ → σ
  newSession : τ
  defaultDtlsConfiguration : SslConfiguration
  dtlsConfiguration : τ → SslConfiguration
  setDtlsConfiguration : τ → SslConfiguration → τ
  handshakeState : τ → HandshakeState
  isConnectionEncrypted : τ → Bool
  peer : τ → Addr × UInt16
  setPeer : τ → Addr → UInt16 → τ
  doHandshake : Option PskAnswer → τ → σ → QByteArray → (τ × σ) × Bool
  handleTimeout : τ → σ → τ × σ
  abortHandshake : τ → σ → τ × σ
  shutdown : τ → σ → τ × σ
  writeDatagramEncrypted : τ → σ → QByteArray → τ × σ
  decryptDatagram : τ → σ → QByteArray → (τ × σ) × QByteArray

namespace QtNetwork

variable {Addr σ τ : Type} (net : QtNetwork Addr σ τ)

/-- The calls of a session that read or write the socket. -/
inductive Call
  | doHandshake (answer : Option PskAnswer) (data : QByteArray)
  | handleTimeout
  | abortHandshake
  | shutdown
  | writeDatagramEncrypted (data : QByteArray)
  | decryptDatagram (data : QByteArray)

def result (dtls : τ) (socket : σ) : Call → τ × σ
  | .doHandshake answer data => (net.doHandshake answer dtls socket data).1
  | .handleTimeout => net.handleTimeout dtls socket
  | .abortHandshake => net.abortHandshake dtls socket
  | .shutdown => net.shutdown dtls socket
  | .writeDatagramEncrypted data => net.writeDatagramEncrypted dtls socket data
  | .decryptDatagram data => (net.decryptDatagram dtls socket data).1

/-- A handshake is over that has not led to an encrypted connection. -/
def Failed (dtls : τ) : Prop :=
  net.isConnectionEncrypted dtls = false ∧ net.handshakeState dtls ≠ .notStarted ∧
    net.handshakeState dtls ≠ .inProgress

/-- What the documentation of `QUdpSocket` says. A closed socket is unconnected, a bound one is not,
and opening or using it does not change that. -/
structure SocketLaws : Prop where
  newSocket : net.isUnconnected net.newSocket = true
  bind : ∀ s, (net.bind s).2 = true → net.isUnconnected (net.bind s).1 = false
  close : ∀ s, net.isUnconnected (net.close s) = true
  openReading : ∀ s, net.isUnconnected (net.openReading s).1 = net.isUnconnected s
  openWriting : ∀ s, net.isUnconnected (net.openWriting s).1 = net.isUnconnected s
  socket_result : ∀ d s call,
    net.isUnconnected (net.result d s call).2 = net.isUnconnected s

/-- What the documentation of `QDtls` says about the configuration: it is taken before the handshake
starts only, and nothing else changes it. -/
structure ConfigurationLaws : Prop where
  fresh_newSession : net.handshakeState net.newSession = .notStarted
  setDtlsConfiguration : ∀ d config, net.dtlsConfiguration (net.setDtlsConfiguration d config) =
    if net.handshakeState d = .notStarted then config else net.dtlsConfiguration d
  configuration_setPeer : ∀ d host port,
    net.dtlsConfiguration (net.setPeer d host port) = net.dtlsConfiguration d
  configuration_result : ∀ d s call,
    net.dtlsConfiguration (net.result d s call).1 = net.dtlsConfiguration d

/-- What it says about the handshake: one that is over does not go on, and to abort it or to shut
the connection down leads back to the start. -/
structure HandshakeLaws : Prop where
  newSession : net.handshakeState net.newSession = .notStarted ∧
    net.isConnectionEncrypted net.newSession = false
  state_setPeer : ∀ d host port,
    net.handshakeState (net.setPeer d host port) = net.handshakeState d ∧
      net.isConnectionEncrypted (net.setPeer d host port) = net.isConnectionEncrypted d
  state_setDtlsConfiguration : ∀ d config,
    net.handshakeState (net.setDtlsConfiguration d config) = net.handshakeState d ∧
      net.isConnectionEncrypted (net.setDtlsConfiguration d config) =
        net.isConnectionEncrypted d
  doHandshake_failed : ∀ answer d s data, net.Failed d →
    (net.doHandshake answer d s data).2 = false
  failed_result : ∀ d s call, net.Failed d → call ≠ .abortHandshake →
    net.Failed (net.result d s call).1
  abortHandshake : ∀ d s, net.handshakeState d = .inProgress →
    net.handshakeState (net.abortHandshake d s).1 = .notStarted ∧
      net.isConnectionEncrypted (net.abortHandshake d s).1 = false
  shutdown : ∀ d s, net.isConnectionEncrypted d = true →
    net.handshakeState (net.shutdown d s).1 = .notStarted ∧
      net.isConnectionEncrypted (net.shutdown d s).1 = false

/-- What it says about the peer, in addition: a session takes the address of one host, before the
handshake starts only, and keeps it. -/
structure PeerLaws [Platform Addr] : Prop extends SocketLaws net, HandshakeLaws net where
  setPeer : ∀ d host port, net.handshakeState d = .notStarted → Platform.isUnicast host = true →
    net.peer (net.setPeer d host port) = (host, port)
  peer_result : ∀ d s call, net.peer (net.result d s call).1 = net.peer d
  peer_setDtlsConfiguration : ∀ d config,
    net.peer (net.setDtlsConfiguration d config) = net.peer d

end QtNetwork

section Instances

/-- A session that can be run: its handshake ends with the message 1, or with 0 where the peer is
not the one it should be; what it decrypts has one more byte. -/
structure SimulatedSession where
  state : HandshakeState := .notStarted
  peer : IPv4Address × UInt16 := (none, 0)
  config : SslConfiguration := {}
  deriving DecidableEq, Repr

namespace SimulatedSession

def doHandshake (d : SimulatedSession) (data : QByteArray) : SimulatedSession × Bool :=
  match d.state with
  | .notStarted => ({ d with state := .inProgress }, true)
  | .inProgress =>
    if data = [1] then ({ d with state := .complete }, true)
    else if data = [0] then ({ d with state := .peerVerificationFailed }, false)
    else (d, true)
  | .peerVerificationFailed => (d, false)
  | .complete => (d, false)

def backFrom (d : SimulatedSession) (state : HandshakeState) : SimulatedSession :=
  if d.state = state then { d with state := .notStarted } else d

/-- The calls change the state of a session and nothing else of it. -/
theorem doHandshake_kept (d : SimulatedSession) (data : QByteArray) :
    (d.doHandshake data).1.peer = d.peer ∧ (d.doHandshake data).1.config = d.config := by
  simp only [doHandshake]
  cases d.state with
  | inProgress =>
    dsimp only
    split_ifs <;> exact ⟨rfl, rfl⟩
  | _ => exact ⟨rfl, rfl⟩

theorem backFrom_kept (d : SimulatedSession) (state : HandshakeState) :
    (d.backFrom state).peer = d.peer ∧ (d.backFrom state).config = d.config := by
  simp only [backFrom]
  split_ifs <;> exact ⟨rfl, rfl⟩

end SimulatedSession

/-- Of the socket only counts whether it is bound. -/
def simulated : QtNetwork IPv4Address Bool SimulatedSession where
  newSocket := false
  isUnconnected bound := !bound
  isReadable bound := bound
  isWritable bound := bound
  openReading bound := (bound, true)
  openWriting bound := (bound, true)
  bindShared _ := (true, true)
  bind _ := (true, true)
  writeDatagram bound _ _ _ := bound
  close _ := false
  newSession := {}
  defaultDtlsConfiguration := {}
  dtlsConfiguration d := d.config
  setDtlsConfiguration d config := if d.state = .notStarted then { d with config := config } else d
  handshakeState d := d.state
  isConnectionEncrypted d := d.state == .complete
  peer d := d.peer
  setPeer d host port :=
    if d.state = .notStarted ∧ Platform.isUnicast host then { d with peer := (host, port) } else d
  doHandshake _ d bound data := (((d.doHandshake data).1, bound), (d.doHandshake data).2)
  handleTimeout d bound := (d, bound)
  abortHandshake d bound := (d.backFrom .inProgress, bound)
  shutdown d bound := (d.backFrom .complete, bound)
  writeDatagramEncrypted d bound _ := (d, bound)
  decryptDatagram d bound data := ((d, bound), data.drop 1)

theorem simulated_result (d : SimulatedSession) (bound : Bool) (call : QtNetwork.Call) :
    (simulated.result d bound call).1.peer = d.peer ∧
      (simulated.result d bound call).1.config = d.config := by
  cases call with
  | doHandshake answer data => exact d.doHandshake_kept data
  | abortHandshake => exact d.backFrom_kept .inProgress
  | shutdown => exact d.backFrom_kept .complete
  | _ => exact ⟨rfl, rfl⟩

theorem simulated_socketLaws : simulated.SocketLaws where
  newSocket := rfl
  bind _ _ := rfl
  close _ := rfl
  openReading _ := rfl
  openWriting _ := rfl
  socket_result d s call := by cases call <;> rfl

theorem simulated_configurationLaws : simulated.ConfigurationLaws where
  fresh_newSession := rfl
  setDtlsConfiguration d config := by
    by_cases fresh : d.state = .notStarted <;> simp [simulated, fresh]
  configuration_setPeer d host port := by
    simp only [simulated]
    split_ifs <;> rfl
  configuration_result d s call := (simulated_result d s call).2

theorem simulated_handshakeLaws : simulated.HandshakeLaws where
  newSession := ⟨rfl, rfl⟩
  state_setPeer d host port := by
    simp only [simulated]
    split_ifs <;> exact ⟨rfl, rfl⟩
  state_setDtlsConfiguration d config := by
    simp only [simulated]
    split_ifs <;> exact ⟨rfl, rfl⟩
  doHandshake_failed answer d s data failed := by
    obtain ⟨plain, notStarted, notRunning⟩ := failed
    have notStarted : d.state ≠ .notStarted := notStarted
    have notRunning : d.state ≠ .inProgress := notRunning
    simp only [simulated, SimulatedSession.doHandshake]
    cases state : d.state <;> simp_all
  failed_result d s call failed other := by
    obtain ⟨plain, notStarted, notRunning⟩ := failed
    have plain : (d.state == .complete) = false := plain
    have notStarted : d.state ≠ .notStarted := notStarted
    have notRunning : d.state ≠ .inProgress := notRunning
    have state : d.state = .peerVerificationFailed := by
      cases h : d.state <;> simp_all
    cases call with
    | abortHandshake => contradiction
    | doHandshake answer data =>
      simp [QtNetwork.Failed, QtNetwork.result, simulated, SimulatedSession.doHandshake, state]
    | shutdown =>
      simp [QtNetwork.Failed, QtNetwork.result, simulated, SimulatedSession.backFrom, state]
    | _ => exact ⟨plain, notStarted, notRunning⟩
  abortHandshake d s running := by
    have running : d.state = .inProgress := running
    simp [simulated, SimulatedSession.backFrom, running]
  shutdown d s encrypted := by
    have complete : d.state = .complete := by simpa [simulated] using encrypted
    simp [simulated, SimulatedSession.backFrom, complete]

theorem simulated_peerLaws : simulated.PeerLaws where
  toSocketLaws := simulated_socketLaws
  toHandshakeLaws := simulated_handshakeLaws
  setPeer d host port fresh unicast := by
    have fresh : d.state = .notStarted := fresh
    simp [simulated, fresh, unicast]
  peer_result d s call := (simulated_result d s call).1
  peer_setDtlsConfiguration d config := by
    simp only [simulated]
    split_ifs <;> rfl

end Instances

end QtCoap
