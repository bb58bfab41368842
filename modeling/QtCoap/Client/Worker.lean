import QtCoap.Connection.Datagrams
import QtCoap.Protocol.WireFormat

namespace QtCoap

/-- The worker thread of a client. Its protocol and its connection call each other directly; to
send over any other connection the client has no way. -/
structure Worker (Addr σ τ : Type) where
  protocol : Protocol Addr := {}
  connection : UdpConnection σ τ

/-- What the two put out, in the order of the calls. -/
inductive WorkerOutput (Addr : Type)
  | protocol (output : Output Addr)
  | connection (output : UdpOutput Addr)

/-- What happens in the thread: a slot of the protocol is invoked or one of its timers fires, there
are datagrams to read, the socket raises an error, or the connection is asked for something else.
The random values are those that the protocol takes when it gets the datagram. -/
inductive WorkerEvent (Addr : Type)
  | protocol (event : Event Addr)
  | socketReadyRead (pending : List (QByteArray × Addr × Draws))
  | handshakeTimeout
  | errorOccurred (socketError : SocketError)
  | setSecurityConfiguration (configuration : SecurityConfiguration)
  | disconnect

/-- The frame of a request as it is handed to the connection. -/
def Output.coapFrame? {Addr : Type} : Output Addr → Option CoapFrame
  | frame message method _ host port => some ⟨toQByteArray message method, host, port⟩
  | post _ _ => none
  | responseToMulticastReceived _ _ _ => none
  | error _ _ => none

/-- The signals of the connection that the client connects to the protocol. -/
inductive ConnectionSignal (Addr : Type)
  | readyRead (data : QByteArray) (sender : Addr)
  | error (socketError : SocketError)

/-- What the protocol makes of a signal. -/
def ConnectionSignal.toEvent {Addr : Type} (draws : Draws) : ConnectionSignal Addr → Event Addr
  | readyRead data sender => .frameReceived data sender draws
  | error socketError => .connectionError socketError

def UdpOutput.signal? {Addr : Type} : UdpOutput Addr → Option (ConnectionSignal Addr)
  | readyRead data sender => some (.readyRead data sender)
  | error socketError => some (.error socketError)
  | writeData _ => none
  | writeDatagram _ _ _ => none
  | writeDatagramEncrypted _ _ => none
  | bound => none

/-- The signal that the protocol is told of. -/
def Event.signal? {Addr : Type} : Event Addr → Option (ConnectionSignal Addr)
  | frameReceived data sender _ => some (.readyRead data sender)
  | connectionError socketError => some (.error socketError)
  | _ => none

theorem ConnectionSignal.signal_toEvent {Addr : Type} (draws : Draws)
    (signal : ConnectionSignal Addr) : (signal.toEvent draws).signal? = some signal := by
  cases signal <;> rfl

/-- The slot or the timer of the protocol. -/
def WorkerEvent.asked? {Addr : Type} : WorkerEvent Addr → Option (Event Addr)
  | protocol event => some event
  | socketReadyRead _ => none
  | handshakeTimeout => none
  | errorOccurred _ => none
  | setSecurityConfiguration _ => none
  | disconnect => none

namespace WorkerOutput

variable {Addr : Type}

def protocol? : WorkerOutput Addr → Option (Output Addr)
  | protocol output => some output
  | connection _ => none

def connection? : WorkerOutput Addr → Option (UdpOutput Addr)
  | connection output => some output
  | protocol _ => none

theorem protocols_cons (o : Output Addr) (os : List (WorkerOutput Addr)) :
    (protocol o :: os).filterMap protocol? = o :: os.filterMap protocol? := rfl

theorem connections_cons (o : Output Addr) (os : List (WorkerOutput Addr)) :
    (protocol o :: os).filterMap connection? = os.filterMap connection? := rfl

theorem connection_map (os : List (UdpOutput Addr)) :
    (os.map connection).filterMap protocol? = [] ∧
      (os.map connection).filterMap connection? = os := by
  constructor
  · rw [List.filterMap_map]
    exact List.filterMap_eq_nil_iff.mpr fun _ _ => rfl
  · rw [List.filterMap_map]
    exact List.filterMap_some

end WorkerOutput

namespace Worker

variable {Addr σ τ : Type} [Platform Addr] (net : QtNetwork Addr σ τ)

/-- What the protocol puts out, with the frames given to the connection. -/
def relay : List (Output Addr) → UdpConnection σ τ → UdpConnection σ τ × List (WorkerOutput Addr)
  | [], c => (c, [])
  | o :: os, c =>
    match o.coapFrame? with
    | none =>
      let rest := relay os c
      (rest.1, .protocol o :: rest.2)
    | some frame =>
      let sent := UdpConnection.sendRequest net c frame
      let rest := relay os sent.1
      (rest.1, .protocol o :: (sent.2.map .connection ++ rest.2))

/-- A slot of the protocol, or a timer of it. -/
def protocolStep (w : Worker Addr σ τ) (event : Event Addr) :
    Option (Worker Addr σ τ × List (WorkerOutput Addr)) :=
  (w.protocol.handle event).map fun result =>
    let relayed := relay net result.2 w.connection
    (⟨result.1, relayed.1⟩, relayed.2)

/-- What the connection does on its own. When it emits a signal for the protocol, that is the last
it does, and the protocol is called at once. -/
def deliver (w : Worker Addr σ τ) (event : UdpEvent Addr) (draws : Draws) :
    Option (Worker Addr σ τ × List (WorkerOutput Addr)) :=
  let result := UdpConnection.handle net w.connection event
  let w : Worker Addr σ τ := { w with connection := result.1 }
  match result.2.findSome? UdpOutput.signal? with
  | none => some (w, result.2.map .connection)
  | some signal =>
    (protocolStep net w (signal.toEvent draws)).map fun rest =>
      (rest.1, result.2.map .connection ++ rest.2)

/-- The loop in `socketReadyRead`. -/
def receiveAll : List (QByteArray × Addr × Draws) → Worker Addr σ τ →
    Option (Worker Addr σ τ × List (WorkerOutput Addr))
  | [], w => some (w, [])
  | (data, sender, draws) :: pending, w =>
    (deliver net w (.datagram data sender) draws).bind fun first =>
      (receiveAll pending first.1).map fun rest => (rest.1, first.2 ++ rest.2)

/-- `QCoapQUdpConnectionPrivate::socketReadyRead`, with the datagrams that are pending. -/
def socketReadyRead (w : Worker Addr σ τ) (pending : List (QByteArray × Addr × Draws)) :
    Option (Worker Addr σ τ × List (WorkerOutput Addr)) :=
  let opened := UdpConnection.openReading net w.connection
  let w : Worker Addr σ τ := { w with connection := opened.1 }
  if !opened.2 then some (w, []) else receiveAll net pending w

/-- The protocol gets frames and socket errors from the connection only, and a socket that is not
bound has nothing to read. -/
def handle (w : Worker Addr σ τ) :
    WorkerEvent Addr → Option (Worker Addr σ τ × List (WorkerOutput Addr))
  | .protocol event => if event.signal?.isSome then none else protocolStep net w event
  | .socketReadyRead pending =>
    if net.isUnconnected w.connection.udpSocket then none else socketReadyRead net w pending
  | .handshakeTimeout => deliver net w .handshakeTimeout []
  | .errorOccurred socketError => deliver net w (.errorOccurred socketError) []
  | .setSecurityConfiguration configuration =>
    deliver net w (.setSecurityConfiguration configuration) []
  | .disconnect => deliver net w .disconnect []

/-- A step in which the protocol runs into a fault, as with a frame cut short, has no successor. -/
def Step (w : Worker Addr σ τ) (event : WorkerEvent Addr) (os : List (WorkerOutput Addr))
    (w' : Worker Addr σ τ) : Prop :=
  handle net w event = some (w', os)

/-- A new worker. -/
def start (securityMode : SecurityMode) : Worker Addr σ τ where
  connection := UdpConnection.create net securityMode

/-- What has happened to a worker: a run of the protocol and one of the connection. Each of the two
is given in order what the other has for it; else the protocol is asked what the worker is. -/
structure Moves (w : Worker Addr σ τ) (asked : List (Event Addr)) (os : List (WorkerOutput Addr))
    (w' : Worker Addr σ τ) (pt : List (Taken Addr)) (ct : List (UdpConnection.Taken Addr σ τ)) :
    Prop where
  protocol : Framework.Run Protocol.Step w.protocol pt w'.protocol
  connection : Framework.Run (UdpConnection.Step net) w.connection ct w'.connection
  protocolOutputs : os.filterMap WorkerOutput.protocol? = pt.flatMap (·.outputs)
  connectionOutputs : os.filterMap WorkerOutput.connection? = ct.flatMap (·.outputs)
  frames : ct.filterMap (·.event.frame?) = (pt.flatMap (·.outputs)).filterMap Output.coapFrame?
  signals : pt.filterMap (·.event.signal?) = (ct.flatMap (·.outputs)).filterMap UdpOutput.signal?
  asked : (pt.map (·.event)).filter (·.signal?.isNone) = asked

variable {net} {w w' : Worker Addr σ τ} {os : List (WorkerOutput Addr)}

theorem Moves.nil (w : Worker Addr σ τ) : Moves net w [] [] w [] [] :=
  ⟨.nil, .nil, rfl, rfl, rfl, rfl, rfl⟩

theorem Moves.append {w'' : Worker Addr σ τ} {es es' : List (Event Addr)}
    {os' : List (WorkerOutput Addr)} {pt pt' : List (Taken Addr)}
    {ct ct' : List (UdpConnection.Taken Addr σ τ)} (h : Moves net w es os w' pt ct)
    (h' : Moves net w' es' os' w'' pt' ct') :
    Moves net w (es ++ es') (os ++ os') w'' (pt ++ pt') (ct ++ ct') where
  protocol := h.protocol.append h'.protocol
  connection := h.connection.append h'.connection
  protocolOutputs := by
    rw [List.filterMap_append, List.flatMap_append, h.protocolOutputs, h'.protocolOutputs]
  connectionOutputs := by
    rw [List.filterMap_append, List.flatMap_append, h.connectionOutputs, h'.connectionOutputs]
  frames := by
    rw [List.filterMap_append, List.flatMap_append, List.filterMap_append, h.frames, h'.frames]
  signals := by
    rw [List.filterMap_append, List.flatMap_append, List.filterMap_append, h.signals, h'.signals]
  asked := by rw [List.map_append, List.filter_append, h.asked, h'.asked]

/-- Writes signal nothing to the protocol. -/
theorem signal_of_isWrite {Addr : Type} {os : List (UdpOutput Addr)}
    (writes : ∀ o ∈ os, o.isWrite = true) : os.filterMap UdpOutput.signal? = [] := by
  refine List.filterMap_eq_nil_iff.mpr fun o ho => ?_
  have write := writes o ho
  cases o with
  | readyRead data sender => cases write
  | error socketError => cases write
  | _ => rfl

theorem signal_emitBound (c : UdpConnection σ τ) :
    (UdpConnection.emitBound net c).2.filterMap UdpOutput.signal? = [] := by
  have writes := (UdpConnection.writeFrames_spec net (c.withState .bound)
    (c.withState .bound).framesToSend).2.2.1
  exact (List.filterMap_cons_none rfl).trans (signal_of_isWrite writes)

theorem signal_sendRequest (c : UdpConnection σ τ) (frame : CoapFrame) :
    (UdpConnection.sendRequest net c frame).2.filterMap UdpOutput.signal? = [] := by
  by_cases idle : c.state = .unconnected
  · rw [UdpConnection.sendRequest_idle net c idle]
    simp only [UdpConnection.bind, UdpConnection.bindSocket]
    split
    · split_ifs
      · rfl
      · exact signal_emitBound _
      · rfl
    · split_ifs
      · exact signal_emitBound _
      · rfl
      · rfl
  · rw [UdpConnection.sendRequest_bound net c idle]
    exact signal_of_isWrite (UdpConnection.writeFrames_spec net _ _).2.2.1

/-- An event of the connection has one signal for the protocol at most. -/
theorem signal_handle (net : QtNetwork Addr σ τ) (c : UdpConnection σ τ) (event : UdpEvent Addr) :
    let os := (UdpConnection.handle net c event).2
    os.filterMap UdpOutput.signal? = (os.findSome? UdpOutput.signal?).toList := by
  have none {os : List (UdpOutput Addr)} (quiet : os.filterMap UdpOutput.signal? = []) :
      os.filterMap UdpOutput.signal? = (os.findSome? UdpOutput.signal?).toList := by
    rw [quiet, List.findSome?_eq_none_iff.mpr (List.filterMap_eq_nil_iff.mp quiet)]
    rfl
  cases event with
  | sendRequest frame => exact none (signal_sendRequest c frame)
  | datagram data sender =>
    simp only [UdpConnection.handle, UdpConnection.receiveDatagram]
    split_ifs
    · rfl
    · split
      · rfl
      · simp only [UdpConnection.handleEncryptedDatagram]
        split_ifs
        · rfl
        · rfl
        · exact none (signal_emitBound _)
        · rfl
  | _ => rfl

/-- The connection takes the frames of the protocol one by one. -/
theorem relay_run (net : QtNetwork Addr σ τ) (os : List (Output Addr)) (c : UdpConnection σ τ) :
    ∃ ct, Framework.Run (UdpConnection.Step net) c ct (relay net os c).1 ∧
      (relay net os c).2.filterMap WorkerOutput.protocol? = os ∧
      (relay net os c).2.filterMap WorkerOutput.connection? = ct.flatMap (·.outputs) ∧
      ct.filterMap (·.event.frame?) = os.filterMap Output.coapFrame? ∧
      (ct.flatMap (·.outputs)).filterMap UdpOutput.signal? = [] := by
  induction os generalizing c with
  | nil => exact ⟨[], .nil, rfl, rfl, rfl, rfl⟩
  | cons o os ih =>
    simp only [relay]
    cases given : o.coapFrame? with
    | none =>
      dsimp only
      obtain ⟨ct, run, own, writes, frames, quiet⟩ := ih c
      refine ⟨ct, run, ?_, ?_, ?_, quiet⟩
      · rw [WorkerOutput.protocols_cons, own]
      · rw [WorkerOutput.connections_cons, writes]
      · rw [List.filterMap_cons_none given, frames]
    | some frame =>
      dsimp only
      obtain ⟨ct, run, own, writes, frames, quiet⟩ :=
        ih (UdpConnection.sendRequest net c frame).1
      obtain ⟨none, all⟩ := WorkerOutput.connection_map
        (UdpConnection.sendRequest net c frame).2
      have first : Framework.Run (UdpConnection.Step net) c
          [⟨c, .sendRequest frame, (UdpConnection.sendRequest net c frame).2,
            (UdpConnection.sendRequest net c frame).1⟩]
          (UdpConnection.sendRequest net c frame).1 := .single rfl
      refine ⟨_, first.append run, ?_, ?_, ?_, ?_⟩
      · rw [WorkerOutput.protocols_cons, List.filterMap_append, none, own, List.nil_append]
      · rw [WorkerOutput.connections_cons, List.filterMap_append, all, writes]
        rfl
      · rw [List.filterMap_cons_some given, ← frames]
        rfl
      · rw [List.singleton_append, List.flatMap_cons, List.filterMap_append, quiet,
          signal_sendRequest]
        rfl

/-- A slot of the protocol: the frames that come of it are given to the connection. -/
theorem protocolStep_run {event : Event Addr} (h : protocolStep net w event = some (w', os)) :
    ∃ x ct, x.event = event ∧ Framework.Run Protocol.Step w.protocol [x] w'.protocol ∧
      Framework.Run (UdpConnection.Step net) w.connection ct w'.connection ∧
      os.filterMap WorkerOutput.protocol? = x.outputs ∧
      os.filterMap WorkerOutput.connection? = ct.flatMap (·.outputs) ∧
      ct.filterMap (·.event.frame?) = x.outputs.filterMap Output.coapFrame? ∧
      (ct.flatMap (·.outputs)).filterMap UdpOutput.signal? = [] := by
  obtain ⟨result, handled, same⟩ := Option.map_eq_some_iff.mp h
  obtain ⟨rfl, rfl⟩ := Prod.mk.inj same
  obtain ⟨ct, run, rest⟩ := relay_run net result.2 w.connection
  exact ⟨⟨w.protocol, event, result.2, result.1⟩, ct, rfl,
    .single (Protocol.step_of_handle handled), run, rest⟩

/-- What the connection does on its own, and the slot of the protocol that its signal invokes. -/
theorem deliver_moves (event : UdpEvent Addr) (draws : Draws) (noFrame : event.frame? = none)
    (h : deliver net w event draws = some (w', os)) : ∃ pt ct, Moves net w [] os w' pt ct := by
  have signals := signal_handle net w.connection event
  simp only [deliver] at h signals
  generalize handled : UdpConnection.handle net w.connection event = result at h signals
  obtain ⟨none, all⟩ := WorkerOutput.connection_map result.2
  have here : Framework.Run (UdpConnection.Step net) w.connection
      [⟨w.connection, event, result.2, result.1⟩] result.1 := .single handled
  cases found : result.2.findSome? UdpOutput.signal? with
  | none =>
    rw [found] at h signals
    obtain ⟨rfl, rfl⟩ := Prod.mk.inj (Option.some.inj h)
    refine ⟨[], _, .nil, here, none, ?_, ?_, ?_, rfl⟩
    · rw [all, List.flatMap_singleton]
    · exact List.filterMap_cons_none noFrame
    · rw [List.flatMap_singleton, signals]
      rfl
  | some signal =>
    rw [found] at h signals
    obtain ⟨⟨last, outputs⟩, stepped, same⟩ := Option.map_eq_some_iff.mp h
    obtain ⟨rfl, rfl⟩ := Prod.mk.inj same
    obtain ⟨x, ct, told, run, writes, own, sent, frames, quiet⟩ := protocolStep_run stepped
    have tells : x.event.signal? = some signal := told ▸ signal.signal_toEvent draws
    refine ⟨[x], _, run, here.append writes, ?_, ?_, ?_, ?_, ?_⟩
    · rw [List.filterMap_append, none, own, List.flatMap_singleton]
      rfl
    · rw [List.filterMap_append, all, sent]
      rfl
    · rw [List.singleton_append, List.filterMap_cons_none (by exact noFrame), frames,
        List.flatMap_singleton]
    · rw [List.singleton_append, List.flatMap_cons, List.filterMap_append, quiet, signals,
        List.filterMap_cons_some (by exact tells)]
      rfl
    · rw [List.map_singleton]
      exact List.filter_cons_of_neg (by simp [tells])

theorem receiveAll_moves {pending : List (QByteArray × Addr × Draws)}
    (h : receiveAll net pending w = some (w', os)) :
    ∃ pt ct, Moves net w [] os w' pt ct := by
  induction pending generalizing w os with
  | nil =>
    obtain ⟨rfl, rfl⟩ := Prod.mk.inj (Option.some.inj h)
    exact ⟨[], [], .nil w⟩
  | cons next pending ih =>
    obtain ⟨first, received, h⟩ := Option.bind_eq_some_iff.mp h
    obtain ⟨rest, later, same⟩ := Option.map_eq_some_iff.mp h
    obtain ⟨rfl, rfl⟩ := Prod.mk.inj same
    obtain ⟨pt, ct, moves⟩ := deliver_moves _ _ rfl received
    obtain ⟨pt', ct', moves'⟩ := ih later
    exact ⟨_, _, moves.append moves'⟩

theorem step_moves {event : WorkerEvent Addr} (h : Step net w event os w') :
    ∃ pt ct, Moves net w event.asked?.toList os w' pt ct := by
  have handled : handle net w event = some (w', os) := h
  cases event with
  | protocol event =>
    simp only [handle] at handled
    split_ifs at handled with foreign
    obtain ⟨x, ct, rfl, run, writes, own, sent, frames, quiet⟩ := protocolStep_run handled
    have own_event : x.event.signal? = none := by simpa using foreign
    refine ⟨[x], ct, run, writes, ?_, sent, ?_, ?_, ?_⟩
    · rw [own, List.flatMap_singleton]
    · rw [frames, List.flatMap_singleton]
    · rw [quiet]
      exact List.filterMap_cons_none own_event
    · exact List.filter_cons_of_pos (by simp [own_event])
  | socketReadyRead pending =>
    -- the socket is opened for reading, and that is told to nobody
    have opening : deliver net w .openReading [] =
        some ({ w with connection := (UdpConnection.openReading net w.connection).1 }, []) := rfl
    have opened := deliver_moves .openReading [] rfl opening
    simp only [handle, socketReadyRead] at handled
    split_ifs at handled
    · obtain ⟨rfl, rfl⟩ := Prod.mk.inj (Option.some.inj handled)
      exact opened
    · obtain ⟨pt, ct, before⟩ := opened
      obtain ⟨pt', ct', moves⟩ := receiveAll_moves handled
      exact ⟨_, _, before.append moves⟩
  | handshakeTimeout => exact deliver_moves .handshakeTimeout [] rfl handled
  | errorOccurred socketError => exact deliver_moves (.errorOccurred socketError) [] rfl handled
  | setSecurityConfiguration configuration =>
    exact deliver_moves (.setSecurityConfiguration configuration) [] rfl handled
  | disconnect => exact deliver_moves .disconnect [] rfl handled

/-- A step as a run records it. -/
abbrev Taken (Addr σ τ : Type) :=
  Framework.Transition (Worker Addr σ τ) (WorkerEvent Addr) (WorkerOutput Addr)

variable {tr : List (Taken Addr σ τ)}

theorem moves_of_run (run : Framework.Run (Step net) w tr w') :
    ∃ pt ct, Moves net w (tr.filterMap (·.event.asked?)) (tr.flatMap (·.outputs)) w' pt ct := by
  induction run with
  | nil => exact ⟨[], [], .nil w⟩
  | @snoc tr u before event os v last ih =>
    obtain ⟨pt, ct, moves⟩ := ih
    obtain ⟨pt', ct', moves'⟩ := step_moves last
    refine ⟨pt ++ pt', ct ++ ct', ?_⟩
    have asked : ([⟨u, event, os, v⟩] : List (Taken Addr σ τ)).filterMap (·.event.asked?) =
        event.asked?.toList := by
      cases h : event.asked? with
      | none => exact List.filterMap_cons_none h
      | some e => exact List.filterMap_cons_some h
    rw [List.filterMap_append, List.flatMap_append, List.flatMap_singleton, asked]
    exact moves.append moves'

/-- Every run of a new worker is a run of the protocol and one of the connection. The protocol is
asked what the worker is, in order, and told of what the connection has read and of the errors of
its socket, in order; the connection is given the frames of the protocol, in order, and no
others. -/
theorem composition (securityMode : SecurityMode)
    (run : Framework.Run (Step net) (start net securityMode) tr w) :
    ∃ pt ct, Moves net (start net securityMode) (tr.filterMap (·.event.asked?))
      (tr.flatMap (·.outputs)) w pt ct :=
  moves_of_run run

/-- A request in plain, as a decoder of the standard sees it: the message, and where it goes. A
host that is no address gets none. -/
def wire? : Output Addr → Option (Option Rfc7252.Frame × Addr × UInt16)
  | .frame message method _ host port =>
    let hostAddress : Addr := Platform.ofHost host
    if Platform.isNull hostAddress then none
    else some (some (message.toFrame method), hostAddress, port)
  | .post _ _ => none
  | .responseToMulticastReceived _ _ _ => none
  | .error _ _ => none

/-- A datagram, as a decoder of the standard sees it. -/
def decoded (d : Datagram Addr) : Option Rfc7252.Frame × Addr × UInt16 :=
  (Rfc7252.decode d.data, d.host, d.port)

theorem decoded_datagrams {os : List (Output Addr)}
    (encodable : ∀ message method connection host port,
      .frame message method connection host port ∈ os → message.Encodable) :
    ((os.filterMap Output.coapFrame?).filterMap (·.datagram? Addr)).map decoded =
      os.filterMap wire? := by
  induction os with
  | nil => rfl
  | cons o os ih =>
    have rest := ih fun message method connection host port sent =>
      encodable message method connection host port (List.mem_cons_of_mem _ sent)
    cases o with
    | frame message method connection host port =>
      have encodes := (encodable message method connection host port (by simp)).encodes method
      have given : (Output.frame message method connection host port : Output Addr).coapFrame? =
          some ⟨toQByteArray message method, host, port⟩ := rfl
      rw [List.filterMap_cons_some given]
      cases unknown : Platform.isNull (Platform.ofHost host : Addr) with
      | true =>
        have lost : CoapFrame.datagram? Addr ⟨toQByteArray message method, host, port⟩ = none := by
          simp [CoapFrame.datagram?, unknown]
        have unseen : wire? (.frame message method connection host port : Output Addr) = none := by
          simp [wire?, unknown]
        rw [List.filterMap_cons_none lost, List.filterMap_cons_none unseen, rest]
      | false =>
        have sent : CoapFrame.datagram? Addr ⟨toQByteArray message method, host, port⟩ =
            some ⟨toQByteArray message method, Platform.ofHost host, port⟩ := by
          simp [CoapFrame.datagram?, unknown]
        have seen : wire? (.frame message method connection host port : Output Addr) =
            some (some (message.toFrame method), Platform.ofHost host, port) := by
          simp [wire?, unknown]
        rw [List.filterMap_cons_some sent, List.filterMap_cons_some seen, List.map_cons, rest,
          decoded, encodes.2]
    | post id slot => exact rest
    | responseToMulticastReceived id message sender => exact rest
    | error id error => exact rest

/-- A request, as a decoder of the standard sees it. -/
def message? : Output Addr → Option (Option Rfc7252.Frame)
  | .frame message method _ _ _ => some (some (message.toFrame method))
  | .post _ _ => none
  | .responseToMulticastReceived _ _ _ => none
  | .error _ _ => none

theorem decoded_messages {Addr : Type} {os : List (Output Addr)}
    (encodable : ∀ message method connection host port,
      .frame message method connection host port ∈ os → message.Encodable) :
    ((os.filterMap Output.coapFrame?).map (·.currentPdu)).map Rfc7252.decode =
      os.filterMap message? := by
  rw [List.map_map, List.map_filterMap]
  apply List.filterMap_congr
  intro o ho
  cases o with
  | frame message method connection host port =>
    have encodes := (encodable _ _ _ _ _ ho).encodes method
    exact congrArg some encodes.2
  | post id slot => rfl
  | responseToMulticastReceived id message sender => rfl
  | error id error => rfl

/-- The frames of the protocol can be encoded where the requests that the worker is asked for
can. -/
theorem Moves.encodable {pt : List (QtCoap.Taken Addr)} {ct : List (UdpConnection.Taken Addr σ τ)}
    {securityMode : SecurityMode} (moves : Moves net (start net securityMode)
      (tr.filterMap (·.event.asked?)) os w pt ct)
    (requests : ∀ x ∈ tr, ∀ id request connection draws,
      x.event = .protocol (.sendRequest (some id) request connection draws) →
        request.Encodable Addr) :
    ∀ message method connection host port,
      .frame message method connection host port ∈ pt.flatMap (·.outputs) →
        message.Encodable := by
  intro message method connection host port sent
  obtain ⟨x, hx, sent⟩ := List.mem_flatMap.mp sent
  refine Protocol.encodable_of_run moves.protocol ?_ x hx _ _ _ _ _ sent
  intro y hy id request connection draws event
  -- a request is asked for by the worker, not received
  have listed : y.event ∈ tr.filterMap (·.event.asked?) := by
    rw [← moves.asked, List.mem_filter]
    exact ⟨List.mem_map_of_mem hy, by rw [event]; rfl⟩
  obtain ⟨z, hz, asked⟩ := List.mem_filterMap.mp listed
  refine requests z hz id request connection draws ?_
  cases of : z.event with
  | protocol e =>
    rw [of] at asked
    rw [← event, ← Option.some.inj asked]
  | socketReadyRead pending =>
    rw [of] at asked
    cases asked
  | handshakeTimeout =>
    rw [of] at asked
    cases asked
  | errorOccurred socketError =>
    rw [of] at asked
    cases asked
  | setSecurityConfiguration configuration =>
    rw [of] at asked
    cases asked
  | disconnect =>
    rw [of] at asked
    cases asked

/-- End to end, for a plain connection over a healthy socket: the worker thread is a run of the
protocol. If its requests can be encoded, a decoder of the standard reads from the datagrams that
leave the messages of that run, each once, in order and to where the protocol sends it; only those
to a host that is no address are missing. -/
theorem plain_wire (healthy : net.Healthy) {securityMode : SecurityMode}
    (plain : securityMode = .noSecurity ∨ securityMode = .rawPublicKey)
    (run : Framework.Run (Step net) (start net securityMode) tr w)
    (requests : ∀ x ∈ tr, ∀ id request connection draws,
      x.event = .protocol (.sendRequest (some id) request connection draws) →
        request.Encodable Addr) :
    ∃ pt, Framework.Run Protocol.Step {} pt w.protocol ∧
      (tr.flatMap (·.outputs)).filterMap WorkerOutput.protocol? = pt.flatMap (·.outputs) ∧
      (plainDatagrams ((tr.flatMap (·.outputs)).filterMap WorkerOutput.connection?)).map decoded =
        (pt.flatMap (·.outputs)).filterMap wire? := by
  obtain ⟨pt, ct, moves⟩ := moves_of_run run
  refine ⟨pt, moves.protocol, moves.protocolOutputs, ?_⟩
  have relayed := ((UdpConnection.create_relays plain).run healthy moves.connection).2
  rw [moves.connectionOutputs, relayed, moves.frames]
  exact decoded_datagrams (moves.encodable requests)

/-- A step of the connection hands on what `decryptDatagram` of an established session returns for a
datagram. -/
def Decrypts (net : QtNetwork Addr σ τ) (data : QByteArray) (sender : Addr)
    (x : UdpConnection.Taken Addr σ τ) : Prop :=
  ∃ dtls received, x.source.dtls = some dtls ∧ net.isConnectionEncrypted dtls = true ∧
    x.event = .datagram received sender ∧
    data = (net.decryptDatagram dtls x.source.udpSocket received).2

theorem create_secure {Addr : Type} {net : QtNetwork Addr σ τ} {securityMode : SecurityMode}
    (secure : securityMode = .preSharedKey ∨ securityMode = .certificate) :
    (UdpConnection.create net securityMode).isSecure = true := by
  rcases secure with rfl | rfl <;> rfl

/-- End to end, for a secure connection over any socket and any session: the worker thread is a run
of the protocol. Nothing leaves in plain; if its requests can be encoded, a decoder of the standard
reads from what leaves encrypted messages of that run and no others, each once at most and in order;
and whatever the protocol receives is what `decryptDatagram` of an established session has
returned. -/
theorem secure_wire {securityMode : SecurityMode}
    (secure : securityMode = .preSharedKey ∨ securityMode = .certificate)
    (run : Framework.Run (Step net) (start net securityMode) tr w)
    (requests : ∀ x ∈ tr, ∀ id request connection draws,
      x.event = .protocol (.sendRequest (some id) request connection draws) →
        request.Encodable Addr) :
    let os := (tr.flatMap (·.outputs)).filterMap WorkerOutput.connection?
    ∃ pt ct, Framework.Run Protocol.Step {} pt w.protocol ∧
      (tr.flatMap (·.outputs)).filterMap WorkerOutput.protocol? = pt.flatMap (·.outputs) ∧
      plainDatagrams os = [] ∧
      List.Sublist ((sentMessages os).map Rfc7252.decode)
        ((pt.flatMap (·.outputs)).filterMap message?) ∧
      Framework.Run (UdpConnection.Step net) (UdpConnection.create net securityMode) ct
        w.connection ∧
      ∀ y ∈ pt, ∀ data sender draws, y.event = .frameReceived data sender draws →
        ∃ x ∈ ct, Decrypts net data sender x := by
  obtain ⟨pt, ct, moves⟩ := moves_of_run run
  have each := moves.connection.forall_step (P := fun c => c.isSecure = true)
    (fun before step => by
      obtain rfl := (Prod.mk.inj step).1
      exact (UdpConnection.isSecure_handle net _ _).trans before)
    (create_secure secure)
  refine ⟨pt, ct, moves.protocol, moves.protocolOutputs, ?_, ?_, moves.connection, ?_⟩
  · rw [moves.connectionOutputs, plainDatagrams, List.filterMap_flatMap,
      List.flatMap_eq_nil_iff]
    intro x hx
    obtain ⟨source, step⟩ := each x hx
    have own : plainDatagrams (UdpConnection.handle net x.source x.event).2 = [] :=
      (UdpConnection.handle_secure source x.event).1
    rw [step] at own
    exact own
  · have sent := UdpConnection.run_sent (UdpConnection.create_unconnected securityMode)
      moves.connection
    rw [moves.connectionOutputs]
    rw [moves.frames] at sent
    rw [← decoded_messages (moves.encodable requests)]
    exact sent.map _
  · intro y hy data sender draws event
    have received : .readyRead data sender ∈ pt.filterMap (·.event.signal?) :=
      List.mem_filterMap.mpr ⟨y, hy, by rw [event]; rfl⟩
    rw [moves.signals] at received
    obtain ⟨o, ho, read⟩ := List.mem_filterMap.mp received
    obtain ⟨x, hx, ho⟩ := List.mem_flatMap.mp ho
    obtain ⟨source, step⟩ := each x hx
    have own (data : QByteArray) (sender : Addr)
        (out : .readyRead data sender ∈ (UdpConnection.handle net x.source x.event).2) :=
      (UdpConnection.handle_secure source x.event).2 data sender out
    rw [step] at own
    cases o with
    | readyRead data' sender' =>
      obtain ⟨rfl, rfl⟩ := ConnectionSignal.readyRead.inj (Option.some.inj read)
      exact ⟨x, hx, own _ _ ho⟩
    | _ => cases read

end Worker

section Instances

open Worker

/-- A request that is sent twice before the answer comes; the socket raises an error meanwhile. -/
def answeredLate : List (WorkerEvent IPv4Address) :=
  [.protocol (.sendRequest (some 0) (getRequest [1, 2]) 0 [7, 0]), .protocol (.timeout [1, 2]),
    .errorOccurred .network,
    .socketReadyRead [([0x62, 0x45, 0, 7, 1, 2, 0xFF, 65], serverAddress, [])]]

/-- The request of the runs here can be encoded. -/
theorem encodable_of_events {tr : List (Worker.Taken IPv4Address Bool SimulatedSession)}
    {events : List (WorkerEvent IPv4Address)} (taken : tr.map (·.event) = events)
    (only : ∀ id request connection draws,
      .protocol (.sendRequest (some id) request connection draws) ∈ events →
        request = getRequest [1, 2]) :
    ∀ x ∈ tr, ∀ id request connection draws,
      x.event = .protocol (.sendRequest (some id) request connection draws) →
        request.Encodable IPv4Address := by
  intro x hx id request connection draws sent
  have listed : x.event ∈ events := taken ▸ List.mem_map_of_mem hx
  rw [sent] at listed
  obtain rfl := only id request connection draws listed
  exact ⟨⟨by decide, by decide, ⟨by decide, .nil, by decide⟩, by decide⟩, by decide⟩

theorem answeredLate_runs : ∃ (tr : List (Worker.Taken IPv4Address Bool SimulatedSession))
    (w : Worker IPv4Address Bool SimulatedSession),
    Framework.Run (Worker.Step simulated) (start simulated .noSecurity) tr w ∧
      tr.map (·.event) = answeredLate ∧
      (plainDatagrams ((tr.flatMap (·.outputs)).filterMap WorkerOutput.connection?)).length = 2 ∧
      w.protocol.exchangeMap.entries.length = 0 := by
  have ran : (Framework.execute (handle simulated) (start simulated .noSecurity) answeredLate).any
      (fun result =>
        (plainDatagrams ((result.1.flatMap (·.outputs)).filterMap
          WorkerOutput.connection?)).length == 2 &&
        result.2.protocol.exchangeMap.entries.length == 0) = true := by
    decide +kernel
  obtain ⟨tr, w, run, events, facts⟩ :=
    Framework.exists_run_of_execute (Worker.Step simulated) (fun handled => handled) ran
  obtain ⟨datagrams, exchanges⟩ := (Bool.and_eq_true _ _).mp facts
  exact ⟨tr, w, run, events, beq_iff_eq.mp datagrams, beq_iff_eq.mp exchanges⟩

theorem composition_answeredLate :
    ∃ (tr : List (Worker.Taken IPv4Address Bool SimulatedSession))
      (w : Worker IPv4Address Bool SimulatedSession) (pt : List (Taken IPv4Address))
      (ct : List (UdpConnection.Taken IPv4Address Bool SimulatedSession)),
      tr.map (·.event) = answeredLate ∧ Moves simulated (start simulated .noSecurity)
        (tr.filterMap (·.event.asked?)) (tr.flatMap (·.outputs)) w pt ct := by
  obtain ⟨tr, w, run, events, -⟩ := answeredLate_runs
  obtain ⟨pt, ct, moves⟩ := composition .noSecurity run
  exact ⟨tr, w, pt, ct, events, moves⟩

/-- The decoder sees the request twice. -/
theorem plain_wire_answeredLate :
    ∃ (w : Worker IPv4Address Bool SimulatedSession) (pt : List (Taken IPv4Address)),
      Framework.Run Protocol.Step {} pt w.protocol ∧
      w.protocol.exchangeMap.entries.length = 0 ∧
      ((pt.flatMap (·.outputs)).filterMap wire?).length = 2 := by
  obtain ⟨tr, w, run, events, datagrams, exchanges⟩ := answeredLate_runs
  obtain ⟨pt, protocol, -, wire⟩ := plain_wire simulated_healthy (.inl rfl) run
    (encodable_of_events events (by simp +contextual [answeredLate]))
  refine ⟨w, pt, protocol, exchanges, ?_⟩
  rw [← wire, List.length_map]
  exact datagrams

/-- A request that waits for the handshake, and its encrypted answer. -/
def overSession : List (WorkerEvent IPv4Address) :=
  [.protocol (.sendRequest (some 0) (getRequest [1, 2]) 0 [7, 0]),
    .socketReadyRead [([1], serverAddress, [])],
    .socketReadyRead [([0, 0x62, 0x45, 0, 7, 1, 2, 0xFF, 65], serverAddress, [])]]

theorem secure_wire_overSession :
    ∃ (tr : List (Worker.Taken IPv4Address Bool SimulatedSession))
      (w : Worker IPv4Address Bool SimulatedSession) (pt : List (Taken IPv4Address))
      (ct : List (UdpConnection.Taken IPv4Address Bool SimulatedSession)),
      let os := (tr.flatMap (·.outputs)).filterMap WorkerOutput.connection?
      tr.map (·.event) = overSession ∧ w.protocol.exchangeMap.entries.length = 0 ∧
      Framework.Run Protocol.Step {} pt w.protocol ∧ plainDatagrams os = [] ∧
      (sentMessages os).length = 1 ∧
      ∀ y ∈ pt, ∀ data sender draws, y.event = .frameReceived data sender draws →
        ∃ x ∈ ct, Decrypts simulated data sender x := by
  have ran : (Framework.execute (handle simulated) (start simulated .certificate)
      overSession).any (fun result =>
        (sentMessages ((result.1.flatMap (·.outputs)).filterMap
          WorkerOutput.connection?)).length == 1 &&
        result.2.protocol.exchangeMap.entries.length == 0) = true := by
    decide +kernel
  obtain ⟨tr, w, run, events, facts⟩ :=
    Framework.exists_run_of_execute (Worker.Step simulated) (fun handled => handled) ran
  obtain ⟨sent, exchanges⟩ := (Bool.and_eq_true _ _).mp facts
  obtain ⟨pt, ct, protocol, -, plain, -, -, received⟩ := secure_wire (.inr rfl) run
    (encodable_of_events events (by simp +contextual [overSession]))
  exact ⟨tr, w, pt, ct, events, beq_iff_eq.mp exchanges, protocol, plain, beq_iff_eq.mp sent,
    received⟩

end Instances

end QtCoap
