import QtCoap.Connection.Connection
import QtCoap.Connection.QtNetwork
import QtCoap.Protocol.State

namespace QtCoap

/-- `QCoapQUdpConnectionPrivate`, with the security configuration of its base class. The session
is there if and only if the connection is secure. -/
structure UdpConnection (σ τ : Type) extends Connection where
  securityConfiguration : SecurityConfiguration := {}
  udpSocket : σ
  dtls : Option τ
  isSecure_eq : toConnection.isSecure = dtls.isSome

/-- The calls of `writeData`, of the socket and of the session, and the signals, as far as they
can be seen from outside. -/
inductive UdpOutput (Addr : Type)
  | writeData (frame : CoapFrame)
  | writeDatagram (data : QByteArray) (host : Addr) (port : UInt16)
  | writeDatagramEncrypted (data : QByteArray) (peer : Addr × UInt16)
  | bound
  | readyRead (data : QByteArray) (sender : Addr)
  | error (socketError : SocketError)
  deriving DecidableEq, Repr

namespace SslConfiguration

variable (config : SslConfiguration)

def withPrivateKey (key : PrivateKey) : SslConfiguration :=
  if key.isNull then config
  else if key.algorithm ≠ .opaqueKey then
    { config with
      privateKey := some (.ofKey key.key key.algorithm key.encodingFormat key.passPhrase) }
  else if key.handle ≠ 0 then { config with privateKey := some (.ofHandle key.handle) }
  else config

/-- The configuration with what a `QCoapSecurityConfiguration` sets; what is empty in it is not
set. -/
def applied (configuration : SecurityConfiguration) : SslConfiguration :=
  let config :=
    if configuration.defaultCipherString.isEmpty then config
    else { config with cipherString := configuration.defaultCipherString }
  let config :=
    if configuration.caCertificates.isEmpty then config
    else { config with caCertificates := configuration.caCertificates }
  let config :=
    if configuration.localCertificateChain.isEmpty then config
    else { config with localCertificateChain := configuration.localCertificateChain }
  config.withPrivateKey configuration.privateKey

end SslConfiguration

namespace UdpConnection

variable {Addr σ τ : Type} [Platform Addr] (net : QtNetwork Addr σ τ) (c : UdpConnection σ τ)

/-- The constructor. Only two of the modes create a session; without one there is no security. -/
def create (securityMode : SecurityMode) : UdpConnection σ τ :=
  match securityMode with
  | .noSecurity | .rawPublicKey => { udpSocket := net.newSocket, dtls := none, isSecure_eq := rfl }
  | .preSharedKey =>
    { securityMode := .preSharedKey
      udpSocket := net.newSocket
      dtls := some (net.setDtlsConfiguration net.newSession
        { net.defaultDtlsConfiguration with peerVerifyMode := .verifyNone })
      isSecure_eq := rfl }
  | .certificate =>
    { securityMode := .certificate
      udpSocket := net.newSocket
      dtls := some (net.setDtlsConfiguration net.newSession
        { net.defaultDtlsConfiguration with peerVerifyMode := .verifyPeer })
      isSecure_eq := rfl }

def withFrames (framesToSend : List CoapFrame) : UdpConnection σ τ :=
  { c with framesToSend := framesToSend }

def withState (state : ConnectionState) : UdpConnection σ τ := { c with state := state }

/-- The socket after a call. -/
def withSocket (socket : σ) : UdpConnection σ τ := { c with udpSocket := socket }

/-- The session, which is there already, and the socket after a call. -/
def withSession (session : τ × σ) : UdpConnection σ τ :=
  { c with
    dtls := c.dtls.map fun _ => session.1
    udpSocket := session.2
    isSecure_eq := by simpa using c.isSecure_eq }

/-- `pskRequired`, which is connected in one of the modes. -/
def pskRequired : Option PskAnswer :=
  if c.securityMode = .preSharedKey then
    some ⟨c.securityConfiguration.preSharedKeyIdentity, c.securityConfiguration.preSharedKey⟩
  else none

/-- `QCoapQUdpConnectionPrivate::writeToSocket`. -/
def writeToSocket (frame : CoapFrame) : UdpConnection σ τ × List (UdpOutput Addr) :=
  let opened :=
    if net.isWritable c.udpSocket then (c.udpSocket, true) else net.openWriting c.udpSocket
  let c := c.withSocket opened.1
  if !opened.2 then (c, [])
  else
    let hostAddress : Addr := Platform.ofHost frame.host
    if Platform.isNull hostAddress then (c, [])
    else
      match c.dtls with
      | some dtls =>
        (c.withSession (net.writeDatagramEncrypted dtls c.udpSocket frame.currentPdu),
          [.writeDatagramEncrypted frame.currentPdu (net.peer dtls)])
      | none =>
        (c.withSocket (net.writeDatagram c.udpSocket frame.currentPdu hostAddress frame.port),
          [.writeDatagram frame.currentPdu hostAddress frame.port])

/-- The loop of `startToSendRequest`, with the frames that wait. -/
def writeFrames :
    List CoapFrame → UdpConnection σ τ → UdpConnection σ τ × List (UdpOutput Addr)
  | [], c => (c.withFrames [], [])
  | frame :: frames, c =>
    let first := writeToSocket net (c.withFrames frames) frame
    let rest := writeFrames frames first.1
    (rest.1, .writeData frame :: first.2 ++ rest.2)

/-- `startToSendRequest`. -/
def startToSendRequest : UdpConnection σ τ × List (UdpOutput Addr) :=
  writeFrames net c.framesToSend c

/-- `emit bound()`, with the slot connected to it. -/
def emitBound : UdpConnection σ τ × List (UdpOutput Addr) :=
  let result := startToSendRequest net (c.withState .bound)
  (result.1, .bound :: result.2)

/-- `QCoapQUdpConnectionPrivate::bindSocket`. -/
def bindSocket : UdpConnection σ τ × List (UdpOutput Addr) :=
  if c.state = .bound then (c, [])
  else
    let bound := net.bindShared c.udpSocket
    let c := c.withSocket bound.1
    if bound.2 then emitBound net c else (c, [])

/-- `QCoapQUdpConnection::bind`. A handshake that cannot be started is only logged. -/
def bind (host : QString) (port : UInt16) : UdpConnection σ τ × List (UdpOutput Addr) :=
  match c.dtls with
  | none => bindSocket net c
  | some dtls =>
    if net.isConnectionEncrypted dtls then emitBound net c
    else if net.isUnconnected c.udpSocket then
      let socket := (net.bind c.udpSocket).1
      let dtls := net.setPeer dtls (Platform.ofHost host) port
      (c.withSession (net.doHandshake c.pskRequired dtls socket []).1, [])
    else (c, [])

/-- `QCoapConnectionPrivate::sendRequest`. -/
def sendRequest (frame : CoapFrame) : UdpConnection σ τ × List (UdpOutput Addr) :=
  let c := c.withFrames (c.framesToSend ++ [frame])
  if c.state = .unconnected then bind net c frame.host frame.port else startToSendRequest net c

/-- `QCoapQUdpConnectionPrivate::handleEncryptedDatagram`. -/
def handleEncryptedDatagram (dtls : τ) (data : QByteArray) (sender : Addr) :
    UdpConnection σ τ × List (UdpOutput Addr) :=
  if net.isConnectionEncrypted dtls then
    let decrypted := net.decryptDatagram dtls c.udpSocket data
    (c.withSession decrypted.1, [.readyRead decrypted.2 sender])
  else
    let handshake := net.doHandshake c.pskRequired dtls c.udpSocket data
    let c := c.withSession handshake.1
    if !handshake.2 then (c, [])
    else if net.isConnectionEncrypted handshake.1.1 then emitBound net c
    else (c, [])

/-- How `socketReadyRead` starts: whether the socket can be read then. -/
def openReading : UdpConnection σ τ × Bool :=
  let opened :=
    if net.isReadable c.udpSocket then (c.udpSocket, true) else net.openReading c.udpSocket
  (c.withSocket opened.1, opened.2)

/-- One round of the loop in `socketReadyRead`. -/
def receiveDatagram (data : QByteArray) (sender : Addr) :
    UdpConnection σ τ × List (UdpOutput Addr) :=
  match c.dtls with
  | none => (c, [.readyRead data sender])
  | some dtls => handleEncryptedDatagram net c dtls data sender

/-- `QCoapQUdpConnection::handshakeTimeout`. -/
def handshakeTimeout : UdpConnection σ τ :=
  match c.dtls with
  | none => c
  | some dtls =>
    if net.handshakeState dtls = .inProgress then
      c.withSession (net.handleTimeout dtls c.udpSocket)
    else c

/-- `setSecurityConfiguration`, of the base class, and what the derived class connects to its
signal. -/
def setSecurityConfiguration (configuration : SecurityConfiguration) : UdpConnection σ τ :=
  match c.dtls with
  | none => c
  | some dtls =>
    { c.withSession (net.setDtlsConfiguration dtls
        ((net.dtlsConfiguration dtls).applied configuration), c.udpSocket) with
      securityConfiguration := configuration }

/-- What `close` does about the session. -/
def closeSession (dtls : τ) (socket : σ) : τ × σ :=
  let aborted :=
    if net.handshakeState dtls = .inProgress then net.abortHandshake dtls socket else (dtls, socket)
  if net.isConnectionEncrypted aborted.1 then net.shutdown aborted.1 aborted.2 else aborted

/-- `QCoapQUdpConnection::close`. -/
def close : UdpConnection σ τ :=
  match c.dtls with
  | none => c.withSocket (net.close c.udpSocket)
  | some dtls =>
    let closed := closeSession net dtls c.udpSocket
    c.withSession (closed.1, net.close closed.2)

/-- `QCoapConnection::disconnect`. -/
def disconnect : UdpConnection σ τ :=
  ((close net c).withFrames []).withState .unconnected

end UdpConnection

/-- What happens to a connection: its public functions are called, it starts to read, a datagram is
read, a timer of the session runs out or the socket raises `errorOccurred`. An error that the socket
raises within a call counts as one behind it. -/
inductive UdpEvent (Addr : Type)
  | sendRequest (frame : CoapFrame)
  | openReading
  | datagram (data : QByteArray) (sender : Addr)
  | handshakeTimeout
  | errorOccurred (socketError : SocketError)
  | setSecurityConfiguration (configuration : SecurityConfiguration)
  | disconnect
  deriving DecidableEq, Repr

namespace UdpConnection

variable {Addr σ τ : Type} [Platform Addr] (net : QtNetwork Addr σ τ)

/-- Only a socket that is bound has anything to read. -/
def handle (c : UdpConnection σ τ) :
    UdpEvent Addr → UdpConnection σ τ × List (UdpOutput Addr)
  | .sendRequest frame => sendRequest net c frame
  | .openReading => ((openReading net c).1, [])
  | .datagram data sender =>
    if net.isUnconnected c.udpSocket then (c, []) else receiveDatagram net c data sender
  | .handshakeTimeout => (handshakeTimeout net c, [])
  | .errorOccurred socketError => (c, [.error socketError])
  | .setSecurityConfiguration configuration => (setSecurityConfiguration net c configuration, [])
  | .disconnect => (disconnect net c, [])

/-- The connection behind some events. -/
def after (securityMode : SecurityMode) (events : List (UdpEvent Addr)) : UdpConnection σ τ :=
  events.foldl (fun c event => (handle net c event).1) (create net securityMode)

end UdpConnection

end QtCoap
