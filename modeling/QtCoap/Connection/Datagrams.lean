import QtCoap.Connection.UdpRefinement

namespace QtCoap

variable {Addr σ τ : Type} [Platform Addr]

/-- A datagram: what it carries, and where it goes. -/
structure Datagram (Addr : Type) where
  data : QByteArray
  host : Addr
  port : UInt16
  deriving DecidableEq, Repr

/-- The datagram of a frame; a host that is no address has none. -/
def CoapFrame.datagram? (Addr : Type) [Platform Addr] (frame : CoapFrame) :
    Option (Datagram Addr) :=
  let hostAddress : Addr := Platform.ofHost frame.host
  if Platform.isNull hostAddress then none else some ⟨frame.currentPdu, hostAddress, frame.port⟩

/-- The datagram that leaves in plain. -/
def UdpOutput.datagram? : UdpOutput Addr → Option (Datagram Addr)
  | writeDatagram data host port => some ⟨data, host, port⟩
  | writeDatagramEncrypted _ _ => none
  | writeData _ => none
  | bound => none
  | readyRead _ _ => none
  | error _ => none

/-- The datagrams that leave in plain, in order. -/
def plainDatagrams (os : List (UdpOutput Addr)) : List (Datagram Addr) :=
  os.filterMap UdpOutput.datagram?

theorem plainDatagrams_append {Addr : Type} (os os' : List (UdpOutput Addr)) :
    plainDatagrams (os ++ os') = plainDatagrams os ++ plainDatagrams os' :=
  List.filterMap_append

namespace QtNetwork

/-- The socket can be bound and opened for writing. -/
structure Healthy (net : QtNetwork Addr σ τ) : Prop where
  bindShared : ∀ s, (net.bindShared s).2 = true
  openWriting : ∀ s, (net.openWriting s).2 = true

end QtNetwork

namespace UdpConnection

variable {net : QtNetwork Addr σ τ} {c : UdpConnection σ τ}

theorem dtls_eq_none_iff : c.dtls = none ↔ c.isSecure = false := by
  rw [c.isSecure_eq]
  simp

theorem writeToSocket_plain (healthy : net.Healthy) (insecure : c.dtls = none)
    (frame : CoapFrame) :
    plainDatagrams (writeToSocket net c frame).2 = (frame.datagram? Addr).toList := by
  simp only [writeToSocket, CoapFrame.datagram?]
  have opened : (if net.isWritable c.udpSocket then (c.udpSocket, true)
      else net.openWriting c.udpSocket).2 = true := by
    split_ifs
    · rfl
    · exact healthy.openWriting _
  rw [opened, dtls_withSocket, insecure]
  split_ifs <;> first | contradiction | rfl

theorem writeFrames_plain (healthy : net.Healthy) (insecure : c.dtls = none)
    (frames : List CoapFrame) :
    plainDatagrams (writeFrames net frames c).2 = frames.filterMap (·.datagram? Addr) := by
  induction frames generalizing c with
  | nil => rfl
  | cons frame frames ih =>
    have same := (writeToSocket_spec net (c.withFrames frames) frame).1
    have still : (writeToSocket net (c.withFrames frames) frame).1.dtls = none := by
      rw [dtls_eq_none_iff, same]
      exact dtls_eq_none_iff.mp insecure
    have first := writeToSocket_plain (c := (c.withFrames frames)) healthy insecure frame
    simp only [writeFrames]
    rw [List.cons_append, plainDatagrams, List.filterMap_cons]
    simp only [UdpOutput.datagram?]
    rw [← plainDatagrams, plainDatagrams_append, first, ih still, List.filterMap_cons]
    cases frame.datagram? Addr <;> rfl

theorem bind_plain (insecure : c.dtls = none) (host : QString) (port : UInt16) :
    bind net c host port = bindSocket net c := by
  simp only [bind]
  rw [insecure]

theorem bindSocket_healthy (healthy : net.Healthy) (idle : c.state = .unconnected) :
    bindSocket net c = emitBound net (c.withSocket (net.bindShared c.udpSocket).1) := by
  simp only [bindSocket]
  rw [idle, healthy.bindShared]
  rfl

/-- A plain connection with nothing in its queue. -/
structure Relays (c : UdpConnection σ τ) : Prop where
  plain : c.dtls = none
  queue : c.framesToSend = []

/-- Whatever the state, a frame goes out at once. -/
theorem sendRequest_plain (healthy : net.Healthy) (relays : c.Relays) (frame : CoapFrame) :
    (sendRequest net c frame).1.Relays ∧
      plainDatagrams (sendRequest net c frame).2 = (frame.datagram? Addr).toList := by
  have waiting : c.framesToSend ++ [frame] = [frame] := by rw [relays.queue]; rfl
  have flushed {d : UdpConnection σ τ} (plain : d.dtls = none) (queue : d.framesToSend = [frame]) :
      (startToSendRequest net d).1.Relays ∧
        plainDatagrams (startToSendRequest net d).2 = (frame.datagram? Addr).toList := by
    obtain ⟨same, -⟩ := writeFrames_spec net d d.framesToSend
    refine ⟨⟨?_, congrArg Connection.framesToSend same⟩, ?_⟩
    · rw [dtls_eq_none_iff]
      refine (congrArg Connection.isSecure same).trans ?_
      exact dtls_eq_none_iff.mp plain
    · rw [startToSendRequest, writeFrames_plain healthy plain, queue]
      cases h : frame.datagram? Addr <;> simp [h]
  by_cases idle : c.state = .unconnected
  · rw [sendRequest_idle net c idle, bind_plain (by exact relays.plain),
      bindSocket_healthy healthy (by exact idle)]
    exact flushed (d := ((c.withFrames (c.framesToSend ++ [frame])).withSocket
      (net.bindShared c.udpSocket).1).withState .bound) relays.plain waiting
  · rw [sendRequest_bound net c idle]
    exact flushed relays.plain waiting

theorem handle_plain (healthy : net.Healthy) (relays : c.Relays) (event : UdpEvent Addr) :
    (handle net c event).1.Relays ∧
      plainDatagrams (handle net c event).2 = event.frame?.toList.filterMap (·.datagram? Addr) := by
  cases event with
  | sendRequest frame =>
    obtain ⟨still, datagrams⟩ := sendRequest_plain healthy relays frame
    refine ⟨still, datagrams.trans ?_⟩
    cases h : frame.datagram? Addr <;> simp [UdpEvent.frame?, h]
  | openReading => exact ⟨⟨relays.plain, relays.queue⟩, rfl⟩
  | datagram data sender =>
    simp only [handle, receiveDatagram]
    rw [relays.plain]
    split_ifs
    · exact ⟨relays, rfl⟩
    · exact ⟨relays, rfl⟩
  | handshakeTimeout =>
    simp only [handle, handshakeTimeout]
    rw [relays.plain]
    exact ⟨relays, rfl⟩
  | errorOccurred socketError => exact ⟨relays, rfl⟩
  | setSecurityConfiguration configuration =>
    simp only [handle, setSecurityConfiguration]
    rw [relays.plain]
    exact ⟨relays, rfl⟩
  | disconnect =>
    simp only [handle, disconnect, close]
    rw [relays.plain]
    exact ⟨⟨relays.plain, rfl⟩, rfl⟩

theorem create_relays {Addr : Type} {net : QtNetwork Addr σ τ} {securityMode : SecurityMode}
    (plain : securityMode = .noSecurity ∨ securityMode = .rawPublicKey) :
    (create net securityMode).Relays := by
  rcases plain with rfl | rfl <;> exact ⟨rfl, rfl⟩

theorem Relays.run {c' : UdpConnection σ τ} {tr : List (Taken Addr σ τ)} (healthy : net.Healthy)
    (start : c.Relays) (run : Framework.Run (Step net) c tr c') :
    c'.Relays ∧ plainDatagrams (tr.flatMap (·.outputs)) =
      (tr.filterMap (·.event.frame?)).filterMap (·.datagram? Addr) := by
  induction run with
  | nil => exact ⟨start, rfl⟩
  | @snoc tr d before event os c' last ih =>
    obtain ⟨relays, earlier⟩ := ih
    obtain ⟨still, own⟩ := handle_plain healthy relays event
    rw [show handle net d event = (c', os) from last] at still own
    refine ⟨still, ?_⟩
    rw [List.flatMap_append, plainDatagrams_append, earlier, List.flatMap_singleton, own,
      List.filterMap_append, List.filterMap_append]
    cases given : event.frame? with
    | none => simp [given]
    | some frame => simp [given]

/-- A plain connection over a healthy socket loses, repeats and reorders nothing, whatever happens
to it, a disconnect included: the datagrams that leave are those of the frames given to it whose
host is an address, in order. -/
theorem plain_relays (healthy : net.Healthy) (securityMode : SecurityMode)
    (plain : securityMode = .noSecurity ∨ securityMode = .rawPublicKey)
    (events : List (UdpEvent Addr)) :
    plainDatagrams
        ((Framework.trace (handle net) (create net securityMode) events).flatMap (·.outputs)) =
      (events.filterMap UdpEvent.frame?).filterMap (·.datagram? Addr) := by
  have taken := Framework.events_trace (handle net) (create net securityMode) events
  have given : (Framework.trace (handle net) (create net securityMode) events).filterMap
      (·.event.frame?) = events.filterMap UdpEvent.frame? := by
    conv_rhs => rw [← taken]
    rw [List.filterMap_map]
    rfl
  rw [← given]
  exact ((create_relays plain).run healthy
    (Framework.run_trace (handle net) (create net securityMode) events)).2

theorem writeFrames_secure (secure : c.isSecure = true) (frames : List CoapFrame) :
    plainDatagrams (writeFrames net frames c).2 = [] := by
  induction frames generalizing c with
  | nil => rfl
  | cons frame frames ih =>
    obtain ⟨same, writes⟩ := writeToSocket_spec net (c.withFrames frames) frame
    have still : (writeToSocket net (c.withFrames frames) frame).1.isSecure = true :=
      (congrArg Connection.isSecure same).trans secure
    simp only [writeFrames]
    rw [List.cons_append, plainDatagrams, List.filterMap_cons]
    simp only [UdpOutput.datagram?]
    rw [← plainDatagrams, plainDatagrams_append, ih still, List.append_nil]
    generalize (writeToSocket net (c.withFrames frames) frame).2 = os at writes
    cases writes with
    | dropped => rfl
    | plain insecure known =>
      rw [dtls_eq_none_iff.mp (show c.dtls = none from insecure)] at secure
      cases secure
    | encrypted dtls own => rfl

theorem emitBound_secure (secure : c.isSecure = true) :
    plainDatagrams (emitBound net c).2 = [] :=
  writeFrames_secure (c := c.withState .bound) secure _

/-- What an event may do to a connection with a session: nothing leaves in plain, and only an
encrypted session hands something on, what its `decryptDatagram` has returned. -/
theorem handle_secure (secure : c.isSecure = true) (event : UdpEvent Addr) :
    plainDatagrams (handle net c event).2 = [] ∧
      ∀ data sender, .readyRead data sender ∈ (handle net c event).2 →
        ∃ dtls received, c.dtls = some dtls ∧ net.isConnectionEncrypted dtls = true ∧
          event = .datagram received sender ∧
          data = (net.decryptDatagram dtls c.udpSocket received).2 := by
  have writes {os : List (UdpOutput Addr)} (only : ∀ o ∈ os, o.isWrite = true)
      {data : QByteArray} {sender : Addr} : .readyRead data sender ∉ os :=
    fun out => by cases only _ out
  have bound {d : UdpConnection σ τ} {data : QByteArray} {sender : Addr} :
      .readyRead data sender ∉ (emitBound net d).2 := by
    intro out
    rcases List.mem_cons.mp out with none | out
    · cases none
    · exact writes (writeFrames_spec net (d.withState .bound) _).2.2.1 out
  obtain ⟨dtls, own⟩ : ∃ dtls, c.dtls = some dtls :=
    Option.isSome_iff_exists.mp (c.isSecure_eq ▸ secure)
  cases event with
  | sendRequest frame =>
    simp only [handle]
    by_cases idle : c.state = .unconnected
    · rw [sendRequest_idle net c idle]
      simp only [bind]
      rw [dtls_withFrames, own]
      dsimp only
      split_ifs
      · exact ⟨emitBound_secure (by exact secure), fun data sender out => (bound out).elim⟩
      · exact ⟨rfl, fun data sender none => by cases none⟩
      · exact ⟨rfl, fun data sender none => by cases none⟩
    · rw [sendRequest_bound net c idle]
      refine ⟨writeFrames_secure (by exact secure) _, fun data sender out => ?_⟩
      exact (writes (writeFrames_spec net _ _).2.2.1 out).elim
  | openReading => exact ⟨rfl, fun data sender none => by cases none⟩
  | datagram data sender =>
    simp only [handle, receiveDatagram]
    rw [own]
    simp only [handleEncryptedDatagram]
    split_ifs with unread encrypted
    · exact ⟨rfl, fun data sender none => by cases none⟩
    · refine ⟨rfl, fun data' sender' out => ?_⟩
      obtain ⟨rfl, rfl⟩ : data' = _ ∧ sender' = sender := by simpa using out
      exact ⟨dtls, data, rfl, encrypted, rfl, rfl⟩
    · exact ⟨rfl, fun data sender none => by cases none⟩
    · exact ⟨emitBound_secure (by exact secure), fun data sender out => (bound out).elim⟩
    · exact ⟨rfl, fun data sender none => by cases none⟩
  | handshakeTimeout => exact ⟨rfl, fun data sender none => by cases none⟩
  | errorOccurred socketError => exact ⟨rfl, fun data sender none => by simp [handle] at none⟩
  | setSecurityConfiguration configuration => exact ⟨rfl, fun data sender none => by cases none⟩
  | disconnect => exact ⟨rfl, fun data sender none => by cases none⟩

/-- Whatever has happened to a connection that was created with one of the two secure modes:
nothing leaves it in plain, and what it hands on is what `decryptDatagram` of an established session
has returned: nothing, where a datagram cannot be decrypted. -/
theorem secure_run (net : QtNetwork Addr σ τ) {securityMode : SecurityMode}
    (secure : securityMode = .preSharedKey ∨ securityMode = .certificate)
    (events : List (UdpEvent Addr)) (event : UdpEvent Addr) :
    let c := after net securityMode events
    plainDatagrams (handle net c event).2 = [] ∧
      ∀ data sender, .readyRead data sender ∈ (handle net c event).2 →
        ∃ dtls received, c.dtls = some dtls ∧ net.isConnectionEncrypted dtls = true ∧
          event = .datagram received sender ∧
          data = (net.decryptDatagram dtls c.udpSocket received).2 := by
  refine handle_secure ?_ event
  induction events using List.reverseRecOn with
  | nil => rcases secure with rfl | rfl <;> rfl
  | append_singleton events event ih =>
    rw [after, List.foldl_append]
    exact (isSecure_handle net _ event).trans ih

end UdpConnection

section Instances

open UdpConnection

def frameTo (host : String) (pdu : QByteArray) : CoapFrame := ⟨pdu, host.toList, 5684⟩

theorem simulated_healthy : simulated.Healthy := ⟨fun _ => rfl, fun _ => rfl⟩

/-- Three frames, one of them for a name, around a disconnect. -/
def acrossDisconnect : List (UdpEvent IPv4Address) :=
  [.sendRequest (frameTo "10.0.0.1" [1]), .disconnect, .sendRequest (frameTo "localhost" [2]),
    .sendRequest (frameTo "10.0.0.2" [3])]

theorem plain_relays_acrossDisconnect :
    plainDatagrams ((Framework.trace (handle simulated) (create simulated .rawPublicKey)
      acrossDisconnect).flatMap (·.outputs)) =
        [⟨[1], some (10, 0, 0, 1), 5684⟩, ⟨[3], some (10, 0, 0, 2), 5684⟩] := by
  have relayed := plain_relays simulated_healthy .rawPublicKey (.inr rfl) acrossDisconnect
  rw [relayed]
  decide +kernel

/-- Two frames for two hosts, and the last message of a handshake that succeeds. -/
def twoHosts : List (UdpEvent IPv4Address) :=
  [.sendRequest (frameTo "10.0.0.1" [1]), .sendRequest (frameTo "10.0.0.2" [2]),
    .datagram [1] (some (10, 0, 0, 1))]

/-- An encrypted answer behind them. -/
theorem secure_run_answered :
    plainDatagrams (handle simulated (after simulated .certificate twoHosts)
        (.datagram [0, 7] (some (10, 0, 0, 1)))).2 = [] ∧
      .readyRead [7] (some (10, 0, 0, 1)) ∈ (handle simulated
        (after simulated .certificate twoHosts) (.datagram [0, 7] (some (10, 0, 0, 1)))).2 := by
  have run := secure_run simulated (.inr rfl) twoHosts (.datagram [0, 7] (some (10, 0, 0, 1)))
  exact ⟨run.1, by decide +kernel⟩

end Instances

end QtCoap
