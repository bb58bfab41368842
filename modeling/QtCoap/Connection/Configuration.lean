import QtCoap.Connection.Handshake
import QtCoap.Framework.Latest

namespace QtCoap

/-- A list of a configuration, if there is anything in it. -/
def unlessEmpty {α : Type} (l : List α) : Option (List α) := if l.isEmpty then none else some l

/-- The key that is handed to the session for a private key. -/
def PrivateKey.sslKey? (k : PrivateKey) : Option SslKey :=
  if k.isNull then none
  else if k.algorithm ≠ .opaqueKey then
    some (.ofKey k.key k.algorithm k.encodingFormat k.passPhrase)
  else some (.ofHandle k.handle)

namespace SslConfiguration

variable (config : SslConfiguration)

theorem withPrivateKey_eq (key : PrivateKey) :
    config.withPrivateKey key = { config with privateKey := key.sslKey?.or config.privateKey } := by
  simp only [withPrivateKey, PrivateKey.sslKey?]
  split_ifs with null algorithm known
  · rfl
  · rfl
  · rfl
  · -- a key without a handle is null
    have known : key.handle = 0 := not_not.mp known
    simp [PrivateKey.isNull, not_not.mp algorithm, known] at null

/-- Each setting is set on its own; how the peer is verified is not set at all. -/
theorem applied_eq (configuration : SecurityConfiguration) :
    config.applied configuration =
      { peerVerifyMode := config.peerVerifyMode
        cipherString := (unlessEmpty configuration.defaultCipherString).getD config.cipherString
        caCertificates := (unlessEmpty configuration.caCertificates).getD config.caCertificates
        localCertificateChain :=
          (unlessEmpty configuration.localCertificateChain).getD config.localCertificateChain
        privateKey := configuration.privateKey.sslKey?.or config.privateKey } := by
  obtain ⟨identity, preSharedKey, cipher, ca, chain, key⟩ := configuration
  simp only [applied, withPrivateKey_eq]
  cases cipher <;> cases ca <;> cases chain <;> rfl

/-- Over several configurations each setting is the last that was not empty. -/
theorem foldl_applied (configurations : List SecurityConfiguration) :
    configurations.foldl applied config =
      { peerVerifyMode := config.peerVerifyMode
        cipherString := Framework.latest (unlessEmpty ·.defaultCipherString)
          config.cipherString configurations
        caCertificates := Framework.latest (unlessEmpty ·.caCertificates)
          config.caCertificates configurations
        localCertificateChain := Framework.latest (unlessEmpty ·.localCertificateChain)
          config.localCertificateChain configurations
        privateKey := Framework.latest (·.privateKey.sslKey?.map some)
          config.privateKey configurations } := by
  induction configurations using List.reverseRecOn with
  | nil => rfl
  | append_singleton configurations configuration ih =>
    rw [List.foldl_append, ih]
    simp only [List.foldl_cons, List.foldl_nil, applied_eq, Framework.latest_append_singleton]
    cases configuration.privateKey.sslKey? <;> rfl

end SslConfiguration

namespace UdpConnection

variable {Addr σ τ : Type} [Platform Addr] {net : QtNetwork Addr σ τ} {c t : UdpConnection σ τ}
  {dtls : τ} {tr : List (Taken Addr σ τ)}

/-- The configuration that an event sets, if the session takes it: the handshake must not have
started. -/
def accepted? (net : QtNetwork Addr σ τ) (x : Taken Addr σ τ) : Option SecurityConfiguration :=
  match x.event with
  | .setSecurityConfiguration configuration =>
    if x.source.dtls.any (fun d => net.handshakeState d = .notStarted) then some configuration
    else none
  | .sendRequest _ => none
  | .openReading => none
  | .datagram _ _ => none
  | .handshakeTimeout => none
  | .errorOccurred _ => none
  | .disconnect => none

/-- Over a run the session has the configurations that it took, one upon the other. -/
theorem run_configuration (doc : net.ConfigurationLaws) (own : c.dtls = some dtls)
    (run : Framework.Run (Step net) c tr t) :
    ∃ last, t.dtls = some last ∧ net.dtlsConfiguration last =
      (tr.filterMap (accepted? net)).foldl SslConfiguration.applied
        (net.dtlsConfiguration dtls) := by
  induction run with
  | nil => exact ⟨dtls, own, rfl⟩
  | @snoc tr u before event os t last ih =>
    obtain ⟨d, session, config⟩ := ih
    have step := handle_session net session event
    rw [show handle net u event = (t, os) from last] at step
    rw [List.filterMap_append, List.foldl_append, ← config]
    cases step with
    | uses open_ other uses =>
      obtain ⟨⟨next, own', calls⟩, -⟩ := uses
      refine ⟨next, own', (calls.kept doc.configuration_result).trans ?_⟩
      cases event with
      | setSecurityConfiguration configuration => exact (other configuration rfl).elim
      | _ => rfl
    | opens frame answer closed own' =>
      refine ⟨_, own', ?_⟩
      exact (doc.configuration_result _ _ (.doHandshake answer [])).trans
        (doc.configuration_setPeer d _ _)
    | configures configuration own' same =>
      refine ⟨_, own', (doc.setDtlsConfiguration d _).trans ?_⟩
      by_cases fresh : net.handshakeState d = .notStarted
      · simp [accepted?, session, fresh]
      · simp [accepted?, session, fresh]
    | closes own' =>
      exact ⟨_, own', (closeSession_calls net d u.udpSocket).kept doc.configuration_result⟩

/-- How the peer is verified. -/
def verifyMode (securityMode : SecurityMode) : PeerVerifyMode :=
  if securityMode = .certificate then .verifyPeer else .verifyNone

/-- Whatever has happened to a secure connection: how the peer is verified is as it was created,
and each other setting is the last that was not empty and was set before a handshake. Nothing that
has been set can be taken back. -/
theorem configuration_sticky (doc : net.ConfigurationLaws) {securityMode : SecurityMode}
    (secure : securityMode = .preSharedKey ∨ securityMode = .certificate)
    (events : List (UdpEvent Addr)) :
    let set := (Framework.trace (handle net) (create net securityMode) events).filterMap
      (accepted? net)
    ∃ dtls, (after net securityMode events).dtls = some dtls ∧ net.dtlsConfiguration dtls =
      { peerVerifyMode := verifyMode securityMode
        cipherString := Framework.latest (unlessEmpty ·.defaultCipherString)
          net.defaultDtlsConfiguration.cipherString set
        caCertificates := Framework.latest (unlessEmpty ·.caCertificates)
          net.defaultDtlsConfiguration.caCertificates set
        localCertificateChain := Framework.latest (unlessEmpty ·.localCertificateChain)
          net.defaultDtlsConfiguration.localCertificateChain set
        privateKey := Framework.latest (·.privateKey.sslKey?.map some)
          net.defaultDtlsConfiguration.privateKey set } := by
  intro set
  obtain ⟨first, own, config⟩ : ∃ first, (create net securityMode).dtls = some first ∧
      net.dtlsConfiguration first =
        { net.defaultDtlsConfiguration with peerVerifyMode := verifyMode securityMode } := by
    obtain rfl | rfl := secure
    all_goals
      refine ⟨_, rfl, ?_⟩
      rw [doc.setDtlsConfiguration, if_pos doc.fresh_newSession]
      rfl
  obtain ⟨last, own', result⟩ :=
    run_configuration doc own (Framework.run_trace (handle net) (create net securityMode) events)
  refine ⟨last, own', ?_⟩
  rw [result, config, SslConfiguration.foldl_applied]

end UdpConnection

section Instances

open UdpConnection

/-- The third comes after the handshake has started. -/
def threeConfigurations : List (UdpEvent IPv4Address) :=
  [.setSecurityConfiguration { caCertificates := [[1]] }, .setSecurityConfiguration {},
    .sendRequest (frameTo "10.0.0.1" [1]), .setSecurityConfiguration { caCertificates := [[2]] }]

/-- An empty list does not take the authorities away, and neither does a late one. -/
theorem configuration_sticky_threeConfigurations :
    ∃ dtls, (after simulated .certificate threeConfigurations).dtls = some dtls ∧
      simulated.dtlsConfiguration dtls =
        { peerVerifyMode := .verifyPeer, caCertificates := [[1]] } := by
  obtain ⟨dtls, session, config⟩ :=
    configuration_sticky simulated_configurationLaws (.inr rfl) threeConfigurations
  refine ⟨dtls, session, config.trans ?_⟩
  decide +kernel

end Instances

end QtCoap
