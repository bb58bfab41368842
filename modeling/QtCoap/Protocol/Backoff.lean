import Mathlib.Data.List.DropRight
import QtCoap.Framework.Doubling
import QtCoap.Protocol.Destination
import QtCoap.Protocol.Retransmission

namespace QtCoap

variable {Addr : Type} [Platform Addr]

theorem eq_of_toInt32_eq {n m : Nat} (h : toInt32 n = m) : m < 2 ^ 31 ∧ n % 2 ^ 32 = m := by
  simp only [toInt32] at h
  split_ifs at h <;> omega

/-- The transmission after a reply: the timers are stopped and the counter starts again, but not
the timeout. -/
def Transmission.stopped (t : Transmission) : Transmission :=
  { t with
    retransmissionCounter := 0
    timeoutTimer := t.timeoutTimer.stop
    maxTransmitWaitTimer := t.maxTransmitWaitTimer.stop
    transmissionInProgress := false }

namespace InternalRequest

/-- What a transmission makes of the timeout and its timer. -/
theorem restartTransmission_timer (r : InternalRequest) :
    r.restartTransmission.timeout =
        (if r.transmissionInProgress then r.timeout * 2 % 2 ^ 32 else r.timeout) ∧
      r.restartTransmission.timeoutTimer =
        if 0 < r.restartTransmission.timeout
        then Timer.startWith (toInt32 r.restartTransmission.timeout) else r.timeoutTimer := by
  cases started : r.transmissionInProgress with
  | false =>
    simp only [restartTransmission, started, Bool.not_false, Bool.false_eq_true, if_true, if_false]
    by_cases set : 0 < r.timeout <;> simp [set]
  | true =>
    simp only [restartTransmission, started, Bool.not_true, Bool.false_eq_true, if_true, if_false]
    by_cases set : 0 < r.timeout * 2 % 2 ^ 32
    · simp only [if_pos set, and_self]
    · simp only [if_neg set, and_self]

theorem restartTransmission_armed (r : InternalRequest)
    (some : r.restartTransmission.timeout ≠ 0) (small : r.restartTransmission.timeout < 2 ^ 31) :
    r.restartTransmission.timeoutTimer.active = true := by
  rw [r.restartTransmission_timer.2, if_pos (Nat.pos_of_ne_zero some), toInt32_of_lt small]
  exact Timer.active_startWith _

/-- The timeout of a request that began with `base` milliseconds and was retransmitted `times`
times: doubled each time, in 32 bits. While its timer runs, it was started with that. -/
structure Paced (base times : Nat) (r : InternalRequest) : Prop where
  timeout : r.timeout = Framework.doubled 32 base times
  pending : r.timeoutTimer.active = true → 0 < base ∧ r.transmissionInProgress = true ∧
    if r.timeout = 0 then r.timeoutTimer.interval ≤ 0
    else r.timeoutTimer.interval = toInt32 r.timeout

namespace Paced

variable {base times : Nat} {q r : InternalRequest}

theorem of_transmission (h : Paced base times r) (same : q.transmission = r.transmission) :
    Paced base times q := by
  have timeout : q.timeout = r.timeout := congrArg Transmission.timeout same
  have timer : q.timeoutTimer = r.timeoutTimer := congrArg Transmission.timeoutTimer same
  have started : q.transmissionInProgress = r.transmissionInProgress :=
    congrArg Transmission.transmissionInProgress same
  refine ⟨timeout.trans h.timeout, ?_⟩
  rw [timer, started, timeout]
  exact h.pending

theorem of_stopped (h : Paced base times r) (stopped : q.transmission = r.transmission.stopped) :
    Paced base times q := by
  have timeout : q.timeout = r.timeout := congrArg Transmission.timeout stopped
  have timer : q.timeoutTimer = r.timeoutTimer.stop := congrArg Transmission.timeoutTimer stopped
  refine ⟨timeout.trans h.timeout, ?_⟩
  rw [timer]
  intro active
  cases active

/-- The first transmission under a message ID leaves the timeout as it is. -/
theorem first (timeout : r.timeout = Framework.doubled 32 base times)
    (positive : r.timeout ≠ 0 → 0 < base)
    (idle : r.timeoutTimer.active = false ∧ r.transmissionInProgress = false) :
    Paced base times r.restartTransmission := by
  obtain ⟨same, timer⟩ := r.restartTransmission_timer
  rw [idle.2, if_neg Bool.false_ne_true] at same
  refine ⟨same.trans timeout, ?_⟩
  rw [timer, same]
  split_ifs with unset zero
  · omega
  · intro _
    exact ⟨positive zero, r.restartTransmission_spec.1, rfl⟩
  · intro active
    rw [idle.1] at active
    cases active
  · omega

/-- Each further one doubles it. -/
theorem retransmit (h : Paced base times r) (active : r.timeoutTimer.active = true) :
    Paced base (times + 1) r.restartTransmission := by
  obtain ⟨positive, started, interval⟩ := h.pending active
  obtain ⟨twice, timer⟩ := r.restartTransmission_timer
  rw [if_pos started] at twice
  refine ⟨twice.trans (congrArg (· * 2 % 2 ^ 32) h.timeout), fun _ => ?_⟩
  refine ⟨positive, r.restartTransmission_spec.1, ?_⟩
  rw [timer]
  split_ifs with zero unset
  · omega
  · -- the timer is left alone when the doubled timeout has wrapped to nothing
    rw [twice] at zero
    split_ifs at interval with before
    · exact interval
    · rw [interval]
      simp only [toInt32]
      split_ifs <;> omega
  · rfl
  · omega

/-- The timer of a request that is sent shows `base * 2^number` exactly if nothing has wrapped and
the request was retransmitted `number` times. -/
theorem armed_iff (h : Paced base times r) {number : Nat} (le : number ≤ times)
    (armed : r.timeout ≠ 0 → r.timeout < 2 ^ 31 → r.timeoutTimer.active = true) :
    r.timeoutTimer = Timer.startWith (base * 2 ^ number : Nat) ↔
      0 < base ∧ base * 2 ^ number < 2 ^ 31 ∧ number = times := by
  constructor
  · intro started
    have active : r.timeoutTimer.active = true := by
      rw [started]
      exact Timer.active_startWith _
    obtain ⟨positive, -, interval⟩ := h.pending active
    have shown : r.timeoutTimer.interval = (base * 2 ^ number : Nat) := by rw [started]; rfl
    rw [shown] at interval
    have some : 0 < base * 2 ^ number := Nat.mul_pos positive (Nat.two_pow_pos _)
    split_ifs at interval with zero
    · omega
    · obtain ⟨small, same⟩ := eq_of_toInt32_eq interval.symm
      have below : base * 2 ^ number < 2 ^ 32 := small.trans (by decide)
      have back : Framework.doubled 32 base times ≡ base * 2 ^ number [MOD 2 ^ 32] := by
        rw [← h.timeout, Nat.ModEq, same, Nat.mod_eq_of_lt below]
      exact ⟨positive, small, Framework.times_eq_of_modEq positive below le back⟩
  · intro ⟨positive, small, same⟩
    subst same
    have timeout := h.timeout.trans (Framework.doubled_of_lt (small.trans (by decide)))
    have some : 0 < base * 2 ^ number := Nat.mul_pos positive (Nat.two_pow_pos _)
    have active := armed (by omega) (by omega)
    have interval := (h.pending active).2.2
    rw [if_neg (by omega), timeout, toInt32_of_lt small] at interval
    cases timer : r.timeoutTimer with
    | mk shown running =>
      rw [timer] at active interval
      have starts := Timer.active_startWith (base * 2 ^ number)
      exact congrArg₂ Timer.mk interval (active.trans starts.symm)

end Paced

end InternalRequest

/-- Whether the event is the retransmission timer of the request under `key`. -/
def Event.isTimeout (key : Token) : Event Addr → Bool
  | .timeout key' => key' == key
  | _ => false

namespace Protocol

/-- A step opens an exchange under `key` with the timeout `base`. -/
inductive Opens (key : Token) (base : Nat) (x : Taken Addr) : Prop
  | intro {id request connection draws} (messageId : UInt16)
      (event : x.event = .sendRequest (some id) request connection draws)
      (registers : x.source.Registers request messageId key)
      (after : (x.target, x.outputs) = x.source.apply key
        (ExchangeData.opened id (x.source.completed request connection messageId key)
          x.source.blockSize base))

/-- What becomes of the exchange `e` under `key` in a step that opens no other one there. -/
inductive Proceeds (key : Token) (e : ExchangeData Addr) (x : Taken Addr) : Prop
  | retransmitted (event : x.event = .timeout key)
      (active : e.request.timeoutTimer.active = true)
      (found' : x.target.exchangeMap.find? key =
        some { e with request := (transmit Addr e.request []).1 })
      (outputs : x.outputs = (transmit Addr e.request []).2)
  | continued (event : x.event.isTimeout key = false) (e' : ExchangeData Addr)
      (r : InternalRequest) (host : QString) (before : List (Output Addr))
      (identity : r.identity = e.request.identity)
      (stopped : r.transmission = e.request.transmission.stopped)
      (fresh : x.source.uses key r.message.messageId = false)
      (found' : x.target.exchangeMap.find? key = some e')
      (request : e'.request = (transmit Addr r host).1)
      (outputs : x.outputs = before ++ (transmit Addr r host).2)
      (silent : ∀ id, framesOf key id before = [])
  | kept (event : x.event.isTimeout key = false) (e' : ExchangeData Addr)
      (found' : x.target.exchangeMap.find? key = some e')
      (identity : e'.request.identity = e.request.identity)
      (messageId : e'.request.message.messageId = e.request.message.messageId)
      (transmission : e'.request.transmission = e.request.transmission ∨
        e'.request.transmission = e.request.transmission.stopped)
      (silent : ∀ id, framesOf key id x.outputs = [])
  | ended (gone : x.target.exchangeMap.find? key = none)
      (silent : ∀ id, framesOf key id x.outputs = [])

variable {key : Token} {e : ExchangeData Addr} {x : Taken Addr}

theorem proceeds_timeout (consistent : x.source.Consistent)
    (step : Step x.source (.timeout key) x.outputs x.target)
    (found : x.source.exchangeMap.find? key = some e) (event : x.event = .timeout key) :
    Proceeds key e x := by
  have registered := consistent.registered found
  have active := (timerRuns_iff found (·.timeoutTimer)).mp step.1
  have after := (Except.ok.inj step.2).symm.trans (onRequestTimeout_eq found registered.token)
  simp only [ExchangeData.timeout] at after
  split_ifs at after with more
  · obtain ⟨target, outputs⟩ := Prod.mk.inj after
    refine .retransmitted event active ?_ outputs
    rw [target]
    exact find?_setExchange_self ..
  · obtain ⟨target, outputs⟩ := Prod.mk.inj after
    refine .ended ?_ fun id => framesOf_eq_nil fun _ _ _ _ _ sent => ?_
    · rw [target, find?_setExchange, if_pos rfl]
      rfl
    · rw [outputs] at sent
      exact absurd sent ExchangeData.frame_not_mem_fail

/-- An exchange that goes on behind a response sends its next request or none. -/
theorem proceeds_received {e' : ExchangeData Addr} {reply : ReceivedReply Addr} {id : UInt16}
    (registered : e.Registered key) (found : x.source.exchangeMap.find? key = some e)
    (unicast : e.request.isMulticast Addr = false) (event : x.event.isTimeout key = false)
    (fresh : reply.continues = true → x.source.isMessageIdRegistered id = false)
    (found' : x.target.exchangeMap.find? key = some e')
    (left : (e.receive x.source.blockSize reply id).1 = some e')
    (outputs : x.outputs = (e.receive x.source.blockSize reply id).2) : Proceeds key e x := by
  obtain ⟨r, identity, transmission, sent⟩ := ExchangeData.receive_request left
  rw [ExchangeData.transmission_store, if_neg (by simp [unicast])] at transmission
  have acknowledged := fun id' => ExchangeData.framesOf_acknowledge (e := e.store reply)
    registered.key_ne id' reply
  rcases sent with ⟨more, new, host, next, out⟩ | ⟨final, next, out⟩
  · refine .continued event e' r host _ identity transmission ?_ found' next (outputs.trans out)
      acknowledged
    rw [new]
    have unused := isMessageIdRegistered_eq_false (fresh more)
    simp only [uses, found, Option.any_some, beq_eq_false_iff_ne]
    exact unused.2 found
  · refine .kept event e' found' (next ▸ identity) ?_ (.inr (next ▸ transmission)) fun id' => ?_
    · have same_id := (ExchangeData.receive_kept left).2
      rw [final] at same_id
      exact same_id
    · rw [outputs, out, framesOf_append, acknowledged, List.nil_append]
      exact framesOf_eq_nil fun _ _ _ _ _ sent =>
        absurd sent (ExchangeData.frame_not_mem_finish _ _ _ _ _ _ _)

theorem proceeds_reacted {reaction : Reaction Addr} (registered : e.Registered key)
    (found : x.source.exchangeMap.find? key = some e)
    (unicast : e.request.isMulticast Addr = false) (event : x.event.isTimeout key = false)
    (reacts : e.Reacts x.source key x.event reaction)
    (after : (x.target, x.outputs) = x.source.apply key reaction) : Proceeds key e x := by
  obtain ⟨target, outputs⟩ := Prod.mk.inj after
  have found' : x.target.exchangeMap.find? key = reaction.1 := by
    rw [target, find?_setExchange, if_pos rfl]
  have gone (none : reaction.1 = none) : Proceeds key e x := by
    refine .ended (found'.trans none) fun id => ?_
    rw [outputs]
    exact reacts.framesOf_eq_nil registered.key_ne (by simp [none])
  generalize own : x.event = taken at reacts
  cases reacts with
  | @received data draws reply id admits fresh =>
    cases left : (e.receive x.source.blockSize reply id).1 with
    | none => exact gone left
    | some e' =>
      exact proceeds_received registered found unicast event fresh (found'.trans left) left outputs
  | timedOut runs =>
    rw [own] at event
    simp [Event.isTimeout] at event
  | spanReached runs => exact gone rfl
  | expired runs => exact gone rfl
  | aborted => exact gone rfl

/-- The exchange is left alone, and no frame is its own. -/
theorem proceeds_aside (event : x.event.isTimeout key = false)
    (found' : x.target.exchangeMap.find? key = some e)
    (silent : ∀ id, framesOf key id x.outputs = []) : Proceeds key e x :=
  .kept event e found' rfl rfl (.inl rfl) silent

theorem proceeds_passed {e' : ExchangeData Addr} (event : x.event.isTimeout key = false)
    (found' : x.target.exchangeMap.find? key = some e') (passes : e.Passes e')
    (outputs : ∀ o ∈ x.outputs, (∃ id, o = .post id .setObserveCancelled) ∨
      ∃ error, o = .error none error) : Proceeds key e x := by
  refine .kept event e' found' passes.identity (congrArg Message.messageId passes.message) ?_
    fun id => framesOf_eq_nil fun _ _ _ _ _ sent => ?_
  · rcases passes.request with request | ⟨-, request⟩
    · rw [request]
      exact .inl rfl
    · rw [request]
      exact .inl rfl
  · rcases outputs _ sent with ⟨id, post⟩ | ⟨error, signal⟩
    · cases post
    · cases signal

theorem proceeds (consistent : x.source.Consistent)
    (step : Step x.source x.event x.outputs x.target)
    (found : x.source.exchangeMap.find? key = some e) (unicast : e.request.isMulticast Addr = false)
    (same : ∀ base, ¬ Opens key base x) : Proceeds key e x := by
  have registered := consistent.registered found
  by_cases event : x.event.isTimeout key = true
  · cases own : x.event with
    | timeout key' =>
      rw [own] at event
      obtain rfl : key' = key := by simpa [Event.isTimeout] using event
      rw [own] at step
      exact proceeds_timeout consistent step found own
    | _ =>
      rw [own] at event
      cases event
  have event : x.event.isTimeout key = false := by simpa using event
  have change := step_change consistent step
  generalize own : x.event = taken at change
  cases change with
  | @opened id request connection draws messageId token base registers after =>
    have ne : key ≠ token := by
      intro token_eq
      subst token_eq
      exact same base ⟨messageId, own, registers, after⟩
    obtain ⟨target, outputs⟩ := Prod.mk.inj after
    refine proceeds_aside event ?_ fun id' => framesOf_eq_nil fun message _ _ _ _ sent framed => ?_
    · rw [target, find?_setExchange, if_neg ne]
      exact found
    · rw [outputs] at sent
      rcases List.mem_cons.mp sent with post | sent
      · cases post
      · rw [frame_mem_transmit sent] at framed
        have identity := (ExchangeData.firstBlocks_kept
          (x.source.completed request connection messageId token) x.source.blockSize).1
        exact ne (framed.1.symm.trans (InternalRequest.token_of_identity identity))
  | reacted key' d reaction found' reacts after =>
    by_cases key_eq : key = key'
    · subst key_eq
      obtain rfl := Option.some.inj (found.symm.trans found')
      exact proceeds_reacted registered found unicast event (own ▸ reacts) after
    · obtain ⟨target, outputs⟩ := Prod.mk.inj after
      refine proceeds_aside event ?_ fun id => ?_
      · rw [target, find?_setExchange, if_neg key_eq]
        exact found
      · rw [outputs]
        apply reacts.framesOf_eq_nil registered.key_ne
        intro e' left framed
        have token := InternalRequest.token_of_identity (reacts.continues left).identity
        exact key_eq (framed.1.symm.trans (token.trans (consistent.registered found').token))
  | passed each outputs =>
    have passes := each key
    rw [found] at passes
    generalize left : x.target.exchangeMap.find? key = o at passes
    cases passes with
    | some passes => exact proceeds_passed event left passes outputs

/-- How often the request under `key` has been sent since it was given the message ID `id`. -/
def transmissions (key : Token) (id : UInt16) (history : List (Taken Addr)) : Nat :=
  ((history.rtakeWhile (·.target.uses key id)).flatMap
    (fun y => framesOf key id y.outputs)).length

/-- How often its timer has fired since then. -/
def retries (key : Token) (id : UInt16) (history : List (Taken Addr)) : Nat :=
  (history.rtakeWhile (·.target.uses key id)).countP (·.event.isTimeout key)

/-- The request was not retransmitted before it was given that message ID. -/
def Unhurried (key : Token) (id : UInt16) (history : List (Taken Addr)) : Prop :=
  ∀ y ∈ history.rdropWhile (·.target.uses key id), y.event ≠ .timeout key

/-- The timer of the request that `y` sends shows `base` milliseconds, doubled for every earlier
transmission under the message ID. -/
def Armed (key : Token) (base : Nat) (history : List (Taken Addr)) (y : Taken Addr)
    (id : UInt16) : Prop :=
  ∃ e, y.target.exchangeMap.find? key = some e ∧
    e.request.timeoutTimer = Timer.startWith (base * 2 ^ transmissions key id history : Nat)

section History

variable {history : List (Taken Addr)} {y : Taken Addr} {id : UInt16}

theorem isTimeout_iff {Addr : Type} {event : Event Addr} :
    event.isTimeout key = true ↔ event = .timeout key := by
  cases event with
  | timeout key' => simp [Event.isTimeout]
  | _ => simp [Event.isTimeout]

theorem retries_le {Addr : Type} {history : List (Taken Addr)} :
    retries key id history ≤ history.countP (·.event.isTimeout key) := by
  simp only [retries]
  exact (List.rtakeWhile_suffix _ history).sublist.countP_le

theorem unhurried_iff {Addr : Type} {history : List (Taken Addr)} : Unhurried key id history ↔
    retries key id history = history.countP (·.event.isTimeout key) := by
  have parts : (history.rdropWhile (·.target.uses key id)).countP (·.event.isTimeout key) +
      retries key id history = history.countP (·.event.isTimeout key) := by
    rw [retries, ← List.countP_append, List.rdropWhile_append_rtakeWhile]
  have none : Unhurried key id history ↔
      (history.rdropWhile (·.target.uses key id)).countP (·.event.isTimeout key) = 0 := by
    rw [List.countP_eq_zero]
    simp only [Unhurried, isTimeout_iff, ne_eq]
  rw [none]
  omega

theorem transmissions_concat {Addr : Type} {history : List (Taken Addr)} {y : Taken Addr}
    (used : y.target.uses key id = true) :
    transmissions key id (history ++ [y]) =
      transmissions key id history + (framesOf key id y.outputs).length := by
  simp only [transmissions]
  rw [List.rtakeWhile_concat_pos (p := (·.target.uses key id)) history y used]
  simp

theorem retries_concat {Addr : Type} {history : List (Taken Addr)} {y : Taken Addr}
    (used : y.target.uses key id = true) :
    retries key id (history ++ [y]) =
      retries key id history + if y.event.isTimeout key then 1 else 0 := by
  simp only [retries]
  rw [List.rtakeWhile_concat_pos (p := (·.target.uses key id)) history y used, List.countP_append,
    List.countP_singleton]

theorem rtakeWhile_unused {Addr : Type} {history : List (Taken Addr)} {y : Taken Addr}
    (ends : ∀ some, (history.getLast some).target = y.source)
    (fresh : y.source.uses key id = false) : history.rtakeWhile (·.target.uses key id) = [] := by
  rw [List.rtakeWhile_eq_nil_iff]
  intro some
  rw [ends some, fresh]
  exact Bool.false_ne_true

theorem transmissions_unused {Addr : Type} {history : List (Taken Addr)} {y : Taken Addr}
    (ends : ∀ some, (history.getLast some).target = y.source)
    (fresh : y.source.uses key id = false) : transmissions key id history = 0 := by
  simp only [transmissions]
  rw [rtakeWhile_unused ends fresh]
  rfl

theorem retries_unused {Addr : Type} {history : List (Taken Addr)} {y : Taken Addr}
    (ends : ∀ some, (history.getLast some).target = y.source)
    (fresh : y.source.uses key id = false) : retries key id history = 0 := by
  simp only [retries]
  rw [rtakeWhile_unused ends fresh]
  rfl

theorem framesOf_transmit_self {r : InternalRequest} (token : r.message.token = key)
    (connected : ∃ connection, r.connection = some connection) (host : QString) :
    (framesOf key r.message.messageId (transmit Addr r host).2).length = 1 := by
  obtain ⟨connection, own⟩ := connected
  simp [framesOf, transmit, own, token]

/-- The exchange `e` is where the steps of `history` have led: it was retransmitted in the steps
that its timer has taken, and sent once more under its message ID. -/
structure Tracks (key : Token) (base : Nat) (history : List (Taken Addr))
    (e : ExchangeData Addr) : Prop where
  unicast : e.request.isMulticast Addr = false
  paced : e.request.Paced base (history.countP (·.event.isTimeout key))
  sent : transmissions key e.request.message.messageId history =
    1 + retries key e.request.message.messageId history

/-- The step `y` behind `history`: what it leaves is tracked, and the timer behind a frame of the
request shows the right time exactly if nothing has wrapped and the request was not retransmitted
under an earlier message ID. -/
structure KeepsTrack (key : Token) (base : Nat) (history : List (Taken Addr)) (y : Taken Addr) :
    Prop where
  tracks : ∀ e', y.target.exchangeMap.find? key = some e' → Tracks key base (history ++ [y]) e'
  armed : ∀ message method connection host port,
    .frame message method connection host port ∈ y.outputs → message.token = key →
      (Armed key base history y message.messageId ↔
        0 < base ∧ base * 2 ^ transmissions key message.messageId history < 2 ^ 31 ∧
          Unhurried key message.messageId history)

theorem frame_not_mem_of_silent {Addr : Type} {os : List (Output Addr)}
    (silent : ∀ id, framesOf key id os = []) {message : Message} {method : Method}
    {connection : ConnectionId} {host : QString} {port : UInt16} (token : message.token = key) :
    .frame message method connection host port ∉ os := by
  intro sent
  have none := silent message.messageId
  rw [framesOf, List.filterMap_eq_nil_iff] at none
  have own := none _ sent
  simp [token] at own

variable {base : Nat}

theorem armed_iff {Addr : Type} {history : List (Taken Addr)} {y : Taken Addr}
    {e' : ExchangeData Addr} (found' : y.target.exchangeMap.find? key = some e') :
    Armed key base history y id ↔
      e'.request.timeoutTimer =
        Timer.startWith (base * 2 ^ transmissions key id history : Nat) := by
  simp [Armed, found']

/-- The first transmission under a message ID. -/
theorem follows_first {r : InternalRequest} {e' : ExchangeData Addr} {host : QString}
    {before : List (Output Addr)} (unicast : r.isMulticast Addr = false)
    (connected : ∃ connection, r.connection = some connection) (token : r.message.token = key)
    (timeout : r.timeout = Framework.doubled 32 base (history.countP (·.event.isTimeout key)))
    (idle : r.timeoutTimer.active = false ∧ r.transmissionInProgress = false)
    (event : y.event.isTimeout key = false)
    (ends : ∀ some, (history.getLast some).target = y.source)
    (fresh : y.source.uses key r.message.messageId = false)
    (found' : y.target.exchangeMap.find? key = some e')
    (request : e'.request = (transmit Addr r host).1)
    (outputs : y.outputs = before ++ (transmit Addr r host).2)
    (silent : ∀ id, framesOf key id before = []) : KeepsTrack key base history y := by
  have restarted := request.trans (transmit_unicast unicast connected host)
  have sameId : e'.request.message.messageId = r.message.messageId := by
    rw [restarted, InternalRequest.message_restartTransmission]
  have positive : r.timeout ≠ 0 → 0 < base := by
    intro some
    by_contra none
    obtain rfl : base = 0 := by omega
    rw [timeout, Framework.doubled_of_lt (by simp)] at some
    simp at some
  have paced := restarted ▸ InternalRequest.Paced.first timeout positive idle
  have used : y.target.uses key r.message.messageId = true := uses_iff.mpr ⟨e', found', sameId⟩
  constructor
  · intro d found
    obtain rfl := Option.some.inj (found'.symm.trans found)
    refine ⟨?_, ?_, ?_⟩
    · rw [request, InternalRequest.isMulticast_of_identity Addr (identity_transmit r host)]
      exact unicast
    · rw [List.countP_append, List.countP_singleton, if_neg (by simp [event])]
      exact paced
    · rw [sameId, transmissions_concat used, transmissions_unused ends fresh, outputs,
        framesOf_append, silent, List.nil_append, framesOf_transmit_self token connected,
        retries_concat used, retries_unused ends fresh, if_neg (by simp [event])]
  · intro message method connection target port sent own
    rw [outputs] at sent
    rcases List.mem_append.mp sent with sent | sent
    · exact absurd sent (frame_not_mem_of_silent silent own)
    · have shown := paced.armed_iff (Nat.zero_le _) (restarted ▸ r.restartTransmission_armed)
      rw [frame_mem_transmit sent, armed_iff found', transmissions_unused ends fresh,
        unhurried_iff, retries_unused ends fresh]
      exact shown

/-- A further transmission under the message ID. -/
theorem follows_again {e : ExchangeData Addr} (tracks : Tracks key base history e)
    (registered : e.Registered key) (event : y.event = .timeout key)
    (active : e.request.timeoutTimer.active = true)
    (found' : y.target.exchangeMap.find? key =
      some { e with request := (transmit Addr e.request []).1 })
    (outputs : y.outputs = (transmit Addr e.request []).2) : KeepsTrack key base history y := by
  have restarted := transmit_unicast tracks.unicast registered.connected []
  have sameId : (transmit Addr e.request []).1.message.messageId = e.request.message.messageId := by
    rw [message_transmit]
  have paced := restarted ▸ tracks.paced.retransmit active
  have used : y.target.uses key e.request.message.messageId = true :=
    uses_iff.mpr ⟨_, found', sameId⟩
  have taken : y.event.isTimeout key = true := isTimeout_iff.mpr event
  have sent := tracks.sent
  constructor
  · intro d found
    obtain rfl := Option.some.inj (found'.symm.trans found)
    refine ⟨?_, ?_, ?_⟩
    · rw [InternalRequest.isMulticast_of_identity Addr (identity_transmit e.request [])]
      exact tracks.unicast
    · rw [List.countP_append, List.countP_singleton, if_pos taken]
      exact paced
    · dsimp only
      rw [sameId, transmissions_concat used, outputs,
        framesOf_transmit_self registered.token registered.connected, retries_concat used,
        if_pos taken]
      omega
  · intro message method connection target port framed own
    rw [outputs] at framed
    have le : 1 + retries key e.request.message.messageId history ≤
        history.countP (·.event.isTimeout key) + 1 := by
      rw [Nat.add_comm]
      exact Nat.add_le_add_right retries_le 1
    have shown := paced.armed_iff le (restarted ▸ e.request.restartTransmission_armed)
    rw [frame_mem_transmit framed, armed_iff found', sent, unhurried_iff]
    dsimp only
    rw [shown]
    constructor
    · rintro ⟨positive, small, same⟩
      exact ⟨positive, small, by omega⟩
    · rintro ⟨positive, small, same⟩
      exact ⟨positive, small, by omega⟩

/-- Any other step of the exchange. -/
theorem follows_quiet {e : ExchangeData Addr} (tracks : Tracks key base history e)
    (silent : ∀ id, framesOf key id y.outputs = [])
    (left : ∀ e', y.target.exchangeMap.find? key = some e' →
      y.event.isTimeout key = false ∧ e'.request.identity = e.request.identity ∧
        e'.request.message.messageId = e.request.message.messageId ∧
        (e'.request.transmission = e.request.transmission ∨
          e'.request.transmission = e.request.transmission.stopped)) :
    KeepsTrack key base history y := by
  constructor
  · intro e' found'
    obtain ⟨event, identity, sameId, transmission⟩ := left e' found'
    have used : y.target.uses key e.request.message.messageId = true :=
      uses_iff.mpr ⟨e', found', sameId⟩
    refine ⟨?_, ?_, ?_⟩
    · rw [InternalRequest.isMulticast_of_identity Addr identity]
      exact tracks.unicast
    · rw [List.countP_append, List.countP_singleton, if_neg (by simp [event])]
      rcases transmission with same | stopped
      · exact tracks.paced.of_transmission same
      · exact tracks.paced.of_stopped stopped
    · rw [sameId, transmissions_concat used, retries_concat used, silent, if_neg (by simp [event])]
      exact tracks.sent
  · intro message method connection target port framed own
    exact absurd framed (frame_not_mem_of_silent silent own)

theorem Proceeds.follows {e : ExchangeData Addr} (h : Proceeds key e y)
    (tracks : Tracks key base history e) (registered : e.Registered key)
    (ends : ∀ some, (history.getLast some).target = y.source) : KeepsTrack key base history y := by
  cases h with
  | retransmitted event active found' outputs =>
    exact follows_again tracks registered event active found' outputs
  | continued event e' r host before identity stopped fresh found' request outputs silent =>
    have unicast : r.isMulticast Addr = false := by
      rw [InternalRequest.isMulticast_of_identity Addr identity]
      exact tracks.unicast
    have connected : ∃ connection, r.connection = some connection := by
      rw [InternalRequest.connection_of_identity identity]
      exact registered.connected
    have token : r.message.token = key :=
      (InternalRequest.token_of_identity identity).trans registered.token
    have timeout : r.timeout = e.request.timeout := congrArg Transmission.timeout stopped
    have timer : r.timeoutTimer = e.request.timeoutTimer.stop :=
      congrArg Transmission.timeoutTimer stopped
    exact follows_first unicast connected token (timeout.trans tracks.paced.timeout)
      ⟨congrArg Timer.active timer, congrArg Transmission.transmissionInProgress stopped⟩ event ends
      fresh found' request outputs silent
  | kept event e' found' identity messageId transmission silent =>
    refine follows_quiet tracks silent fun d found => ?_
    obtain rfl := Option.some.inj (found'.symm.trans found)
    exact ⟨event, identity, messageId, transmission⟩
  | ended gone silent =>
    refine follows_quiet tracks silent fun d found => ?_
    rw [gone] at found
    cases found

theorem uses_of_fresh {Addr : Type} {s : Protocol Addr}
    (fresh : s.isMessageIdRegistered id = false) : s.uses key id = false := by
  by_contra used
  obtain ⟨e, found, same⟩ := uses_iff.mp (by simpa using used)
  exact (isMessageIdRegistered_eq_false fresh).2 found same

theorem Opens.follows (h : Opens key base y) {e : ExchangeData Addr}
    (found : y.target.exchangeMap.find? key = some e)
    (unicast : e.request.isMulticast Addr = false) : KeepsTrack key base [] y := by
  cases h with
  | @intro id request connection draws messageId event registers after =>
    obtain ⟨target, outputs⟩ := Prod.mk.inj after
    let r := ((y.source.completed request connection messageId key).firstBlocks
      y.source.blockSize).setTimeout base
    have made : some e = some { userReply := some id, request := (transmit Addr r []).1 } := by
      rw [← found, target, find?_setExchange, if_pos rfl]
      rfl
    obtain ⟨identity, sameId, -⟩ := ExchangeData.firstBlocks_kept
      (y.source.completed request connection messageId key) y.source.blockSize
    have alone : r.isMulticast Addr = false := by
      rw [Option.some.inj made] at unicast
      have kept : (transmit Addr r []).1.identity = r.identity := identity_transmit r []
      exact (InternalRequest.isMulticast_of_identity Addr kept).symm.trans unicast
    have token : r.message.token = key := InternalRequest.token_of_identity identity
    have fresh : y.source.uses key r.message.messageId = false := by
      have own : r.message.messageId = messageId := sameId
      rw [own]
      exact uses_of_fresh registers.messageId
    let posted : List (Output Addr) := [.post id (.setRunning
      (y.source.completed request connection messageId key).token messageId)]
    have sent : y.outputs = posted ++ (transmit Addr r []).2 := outputs
    have other : y.event.isTimeout key = false := by
      rw [event]
      rfl
    exact follows_first alone (opened_connected ..) token rfl (opened_idle ..) other (by simp) fresh
      (found.trans made) rfl sent fun _ => rfl

theorem find?_of_absent (consistent : y.source.Consistent)
    (step : Step y.source y.event y.outputs y.target)
    (absent : y.source.exchangeMap.find? key = none) (same : ∀ base, ¬ Opens key base y) :
    y.target.exchangeMap.find? key = none := by
  have change := step_change consistent step
  generalize own : y.event = taken at change
  cases change with
  | @opened id request connection draws messageId token base registers after =>
    have ne : key ≠ token := by
      intro token_eq
      subst token_eq
      exact same base ⟨messageId, own, registers, after⟩
    rw [(Prod.mk.inj after).1, find?_setExchange, if_neg ne]
    exact absent
  | reacted key' e reaction found reacts after =>
    have ne : key ≠ key' := by
      intro key_eq
      rw [key_eq, found] at absent
      cases absent
    rw [(Prod.mk.inj after).1, find?_setExchange, if_neg ne]
    exact absent
  | passed each outputs =>
    have passes := each key
    rw [absent] at passes
    generalize y.target.exchangeMap.find? key = o at passes
    cases passes
    rfl

/-- Where there is no exchange, a step that opens none leaves none and sends nothing for it. -/
theorem follows_absent (consistent : y.source.Consistent)
    (step : Step y.source y.event y.outputs y.target)
    (absent : y.source.exchangeMap.find? key = none) (key_ne : key ≠ [])
    (same : ∀ base, ¬ Opens key base y) : KeepsTrack key base history y := by
  have gone := find?_of_absent consistent step absent same
  constructor
  · intro e' found'
    rw [gone] at found'
    cases found'
  · intro message method connection target port framed own
    obtain ⟨e, sentFor, -⟩ := (step_change consistent step).sentFor consistent framed
    cases sentFor with
    | request found own' =>
      rw [own, gone] at found
      cases found
    | empty received admits none => exact absurd (own.symm.trans none) key_ne

/-- Every step of a run behind the opening one follows on. -/
theorem follows_along {s t : Protocol Addr} {mid later : List (Taken Addr)}
    (reachable : Reachable s) (run : Framework.Run Step s (mid ++ y :: later) t) (key_ne : key ≠ [])
    (once : ∀ z ∈ mid ++ y :: later, ∀ base', ¬ Opens key base' z)
    (ends : ∀ some, (history.getLast some).target = s)
    (tracks : ∀ e, s.exchangeMap.find? key = some e → Tracks key base history e) :
    KeepsTrack key base (history ++ mid) y := by
  have next {s t : Protocol Addr} {z : Taken Addr} {rest history : List (Taken Addr)}
      (reachable : Reachable s) (run : Framework.Run Step s (z :: rest) t)
      (same : ∀ base', ¬ Opens key base' z)
      (ends : ∀ some, (history.getLast some).target = s)
      (tracks : ∀ e, s.exchangeMap.find? key = some e → Tracks key base history e) :
      KeepsTrack key base history z := by
    obtain ⟨rfl, step, -⟩ := run.of_cons
    have consistent := Reachable.consistent reachable
    cases found : z.source.exchangeMap.find? key with
    | none => exact follows_absent consistent step found key_ne same
    | some e =>
      have tracked := tracks e found
      exact (proceeds consistent step found tracked.unicast same).follows tracked
        (consistent.registered found) ends
  induction mid generalizing s history with
  | nil =>
    rw [List.append_nil]
    exact next reachable run (once y (by simp)) ends tracks
  | cons z mid ih =>
    have follows := next reachable run (once z (by simp)) ends tracks
    obtain ⟨rfl, step, rest⟩ := run.of_cons
    rw [List.append_cons]
    exact ih (reachable.next step) rest (fun z' hz' => once z' (List.mem_cons_of_mem _ hz'))
      (by simp) follows.tracks

/-- The timeout that `sendRequest` chooses lies between the two bounds. -/
theorem requestTimeout_mem {Addr : Type} {s : Protocol Addr} {drawn left : Draws} {timeout : Nat}
    (ordered : s.minimumTimeout ≤ s.maximumTimeout)
    (chosen : s.requestTimeout .confirmable drawn = .ok (timeout, left)) :
    s.minimumTimeout ≤ timeout ∧ timeout ≤ s.maximumTimeout := by
  simp only [requestTimeout] at chosen
  split_ifs at chosen with differ
  · cases drawn with
    | nil => cases chosen
    | cons d drawn =>
      obtain ⟨rfl, -⟩ := Prod.mk.inj (Except.ok.inj chosen)
      have below : d % (s.maximumTimeout - s.minimumTimeout) <
          s.maximumTimeout - s.minimumTimeout := Nat.mod_lt _ (by omega)
      omega
  · obtain ⟨rfl, -⟩ := Prod.mk.inj (Except.ok.inj chosen)
    exact ⟨le_rfl, ordered⟩

theorem Opens.timeout_eq (h : Opens key base y) {e : ExchangeData Addr}
    (found : y.target.exchangeMap.find? key = some e)
    (unicast : e.request.isMulticast Addr = false) : e.request.timeout = base := by
  have timeout := ((h.follows found unicast).tracks e found).paced.timeout
  cases h with
  | intro messageId event registers after =>
    have other : y.event.isTimeout key = false := by
      rw [event]
      rfl
    rw [List.nil_append, List.countP_singleton, if_neg (by simp [other])] at timeout
    exact timeout

/-- The timeout of a Confirmable request is the one that `sendRequest` has chosen. -/
theorem Opens.timeout_mem (h : Opens key base y)
    (step : Step y.source y.event y.outputs y.target) {e : ExchangeData Addr}
    (found : y.target.exchangeMap.find? key = some e)
    (confirmable : e.request.message.type = .confirmable)
    (unicast : e.request.isMulticast Addr = false)
    (ordered : y.source.minimumTimeout ≤ y.source.maximumTimeout) :
    y.source.minimumTimeout ≤ base ∧ base ≤ y.source.maximumTimeout := by
  have timeout := h.timeout_eq found unicast
  cases h with
  | @intro id request connection draws messageId event registers after =>
    rw [event] at step
    obtain ⟨messageId', token, base', registers', ⟨drawn, left, chosen⟩, after'⟩ :=
      sendRequest_opened registers.method registers.url step.2
    -- the slot call in front shows that it is the same token
    have heads := (Prod.mk.inj (after.symm.trans after')).2
    obtain rfl : key = token := by
      have posted := (List.cons.inj heads).1
      injection posted with _ running
      injection running
    have timeout' := Opens.timeout_eq ⟨messageId', event, registers', after'⟩ found unicast
    obtain rfl : base = base' := timeout.symm.trans timeout'
    have type : (y.source.completed request connection messageId' key).message.type =
        .confirmable := by
      obtain ⟨q, entry, identity, -, -⟩ := @ExchangeData.opened_entry Addr _ id
        (y.source.completed request connection messageId' key) y.source.blockSize base
      rw [(Prod.mk.inj after').1, find?_setExchange, if_pos rfl, entry] at found
      obtain rfl := Option.some.inj found
      exact (InternalRequest.type_of_identity identity).symm.trans confirmable
    rw [type] at chosen
    exact requestTimeout_mem ordered chosen

/-- Over any run of a Confirmable unicast exchange, from the step that opens it on: the timeout it
begins with is in bounds, and the timer behind a frame that was sent before so many times under its
message ID shows that timeout, doubled each time, if and only if that is neither zero nor too large
for the timer and the request has not been retransmitted under an earlier message ID. -/
theorem backoff_iff {s t : Protocol Addr} {x : Taken Addr} {rest later : List (Taken Addr)}
    (reachable : Reachable s) (run : Framework.Run Step s (x :: rest) t) (opens : Opens key base x)
    {e : ExchangeData Addr} (found : x.target.exchangeMap.find? key = some e)
    (confirmable : e.request.message.type = .confirmable)
    (unicast : e.request.isMulticast Addr = false)
    (once : ∀ z ∈ rest, ∀ base', ¬ Opens key base' z) (split : x :: rest = history ++ y :: later)
    {message : Message} {method : Method} {connection : ConnectionId} {host : QString}
    {port : UInt16} (sent : .frame message method connection host port ∈ y.outputs)
    (token : message.token = key) :
    (x.source.minimumTimeout ≤ x.source.maximumTimeout →
      x.source.minimumTimeout ≤ base ∧ base ≤ x.source.maximumTimeout) ∧
    (Armed key base history y message.messageId ↔
      0 < base ∧ base * 2 ^ transmissions key message.messageId history < 2 ^ 31 ∧
        Unhurried key message.messageId history) := by
  obtain ⟨rfl, step, after⟩ := run.of_cons
  refine ⟨opens.timeout_mem step found confirmable unicast, ?_⟩
  have follows : KeepsTrack key base history y := by
    cases history with
    | nil =>
      obtain ⟨rfl, -⟩ := List.cons.inj split
      exact opens.follows found unicast
    | cons first mid =>
      obtain ⟨rfl, rfl⟩ := List.cons.inj split
      have key_ne : key ≠ [] := by
        cases opens with
        | intro messageId event registers after => exact registers.token_ne
      exact follows_along (reachable.next step) after key_ne once (by simp)
        (opens.follows found unicast).tracks
  exact follows.armed message method connection host port sent token

end History

/-- A request with a token of its own opens an exchange under it. -/
theorem opens_of_token {x : Taken Addr} {id : ReplyId} {request : Request}
    {connection : ConnectionId} {draws : Draws} (token : request.message.token ≠ [])
    (method : request.method ≠ Method.invalid) (url : isUrlValid request.uri = true)
    (event : x.event = .sendRequest (some id) request connection draws)
    (step : Step x.source x.event x.outputs x.target) :
    ∃ base, Opens request.message.token base x := by
  rw [event] at step
  obtain ⟨messageId, key, base, registers, -, after⟩ := sendRequest_opened method url step.2
  have own := registers.token
  rw [if_neg token] at own
  subst own
  exact ⟨base, messageId, event, registers, after⟩

theorem exists_frame {Addr : Type} {key : Token} {id : UInt16} {os : List (Output Addr)}
    (sent : framesOf key id os ≠ []) : ∃ message method connection host port,
      .frame message method connection host port ∈ os ∧ message.token = key ∧
        message.messageId = id := by
  obtain ⟨bytes, listed⟩ := List.exists_mem_of_ne_nil _ sent
  obtain ⟨o, out, some⟩ := List.mem_filterMap.mp listed
  cases o with
  | frame message method connection host port =>
    by_cases own : message.token = key ∧ message.messageId = id
    · exact ⟨message, method, connection, host, port, out, own.1, own.2⟩
    · simp [own] at some
  | _ => cases some

section Instances

/-- The opening event, with two more behind it. -/
def openedThen (second third : Event IPv4Address) : List (Event IPv4Address) :=
  [.sendRequest (some 0) (getRequest [1, 2]) 0 [7, 0], second, third]

/-- The three steps are a run over these events. The exchange is Confirmable and unicast and begins
with 2000 milliseconds; the last step sends a frame for it under the message ID `id`. -/
structure StartsAt2000 (second third : Event IPv4Address) (id : UInt16)
    (x z y : Taken IPv4Address) : Prop where
  run : Framework.Run Step {} [x, z, y] y.target
  events : [x, z, y].map (·.event) = openedThen second third
  opens : Opens [1, 2] 2000 x
  exchange : ∃ e, x.target.exchangeMap.find? [1, 2] = some e ∧
    e.request.message.type = .confirmable ∧ e.request.isMulticast IPv4Address = false
  sent : ∃ message method connection host port,
    .frame message method connection host port ∈ y.outputs ∧ message.token = [1, 2] ∧
      message.messageId = id

/-- What has to be computed of a run for that. -/
def startsAt2000 (id : UInt16) (x y : Taken IPv4Address) : Bool :=
  (x.target.exchangeMap.find? [1, 2]).any (fun e =>
    e.request.timeout == 2000 && e.request.message.type == .confirmable &&
      !e.request.isMulticast IPv4Address) && !(framesOf [1, 2] id y.outputs).isEmpty

theorem startsAt2000_spec {second third : Event IPv4Address} {id : UInt16}
    {x z y : Taken IPv4Address} {t : Protocol IPv4Address}
    (run : Framework.Run Step {} [x, z, y] t)
    (events : [x, z, y].map (·.event) = openedThen second third)
    (computed : startsAt2000 id x y = true) : StartsAt2000 second third id x z y := by
  obtain ⟨source, step, after⟩ := run.of_cons
  obtain ⟨-, -, after⟩ := after.of_cons
  obtain ⟨-, -, after⟩ := after.of_cons
  obtain rfl := after.eq_of_nil
  obtain ⟨entry, sent⟩ := (Bool.and_eq_true ..).mp computed
  obtain ⟨e, found, facts⟩ := (Option.any_eq_true ..).mp entry
  simp only [Bool.and_eq_true, Bool.not_eq_true', beq_iff_eq] at facts sent
  obtain ⟨⟨timeout, confirmable⟩, unicast⟩ := facts
  rw [← source] at step
  obtain ⟨base, opens⟩ := opens_of_token (by decide) (by decide) (by decide)
    (List.cons.inj events).1 step
  obtain rfl : base = 2000 := (opens.timeout_eq found unicast).symm.trans timeout
  exact ⟨run, events, opens, ⟨e, found, confirmable, unicast⟩,
    exists_frame (List.isEmpty_eq_false_iff.mp sent)⟩

/-- A check on three steps. -/
def onThree (check : Taken IPv4Address → Taken IPv4Address → Taken IPv4Address → Bool) :
    List (Taken IPv4Address) → Bool
  | [x, z, y] => check x z y
  | _ => false

theorem onThree_spec
    {check : Taken IPv4Address → Taken IPv4Address → Taken IPv4Address → Bool}
    {tr : List (Taken IPv4Address)} (h : onThree check tr = true) :
    ∃ x z y, tr = [x, z, y] ∧ check x z y = true := by
  unfold onThree at h
  split at h
  · exact ⟨_, _, _, rfl, h⟩
  · cases h

/-- The timer behind the third transmission. -/
theorem backoff_twoTimeouts : ∃ x z y, StartsAt2000 (.timeout [1, 2]) (.timeout [1, 2]) 7 x z y ∧
    transmissions [1, 2] 7 [x, z] = 2 ∧ Armed [1, 2] 2000 [x, z] y 7 := by
  have ran : (Framework.execute handle {} (openedThen (.timeout [1, 2]) (.timeout [1, 2]))).any
      (fun result => onThree (fun x z y => startsAt2000 7 x y &&
        transmissions [1, 2] 7 [x, z] == 2 &&
        ([x, z].rdropWhile (·.target.uses [1, 2] 7)).isEmpty) result.1) = true := by
    decide +kernel
  obtain ⟨tr, t, run, events, facts⟩ := Framework.exists_run_of_execute Step step_of_handle ran
  obtain ⟨x, z, y, rfl, checked⟩ := onThree_spec facts
  simp only [Bool.and_eq_true, beq_iff_eq, List.isEmpty_iff] at checked
  obtain ⟨⟨computed, number⟩, unhurried⟩ := checked
  have start := startsAt2000_spec run events computed
  refine ⟨x, z, y, start, number, ?_⟩
  obtain ⟨e, found, confirmable, unicast⟩ := start.exchange
  obtain ⟨message, method, connection, host, port, sent, token, messageId⟩ := start.sent
  have once : ∀ w ∈ [z, y], ∀ base, ¬ Opens [1, 2] base w := by
    have events := start.events
    simp only [openedThen, List.map_cons, List.map_nil, List.cons.injEq, and_true] at events
    obtain ⟨-, second, third⟩ := events
    intro w hw base opens
    cases opens with
    | intro messageId event registers after =>
      simp only [List.mem_cons, List.not_mem_nil, or_false] at hw
      rcases hw with rfl | rfl
      · rw [second] at event
        cases event
      · rw [third] at event
        cases event
  have last : [x, z, y] = [x, z] ++ y :: [] := rfl
  have shown := (backoff_iff ⟨{}, [], rfl, .nil⟩ start.run start.opens found confirmable unicast
    once last sent token).2
  rw [messageId, number] at shown
  refine shown.mpr ⟨by decide, by decide, ?_⟩
  rw [Unhurried, unhurried]
  simp

/-- The first block of a response, with more to follow. -/
def firstBlock : QByteArray := [0x62, 0x45, 0x00, 0x07, 0x01, 0x02, 0xD1, 0x0A, 0x08, 0xFF, 0x61]

/-- The request for the next block, after one retransmission of the first request. -/
theorem retriedThenBlock_not_armed : ∃ x z y,
    StartsAt2000 (.timeout [1, 2]) (.frameReceived firstBlock serverAddress [9]) 9 x z y ∧
    transmissions [1, 2] 9 [x, z] = 0 ∧
    (y.target.exchangeMap.find? [1, 2]).map (·.request.timeoutTimer) =
      some (Timer.startWith 4000) ∧ ¬ Armed [1, 2] 2000 [x, z] y 9 := by
  have ran : (Framework.execute handle {} (openedThen (.timeout [1, 2])
      (.frameReceived firstBlock serverAddress [9]))).any (fun result =>
        onThree (fun x z y => startsAt2000 9 x y && transmissions [1, 2] 9 [x, z] == 0 &&
          (y.target.exchangeMap.find? [1, 2]).map (·.request.timeoutTimer) ==
            some (Timer.startWith 4000)) result.1) = true := by
    decide +kernel
  obtain ⟨tr, t, run, events, facts⟩ := Framework.exists_run_of_execute Step step_of_handle ran
  obtain ⟨x, z, y, rfl, checked⟩ := onThree_spec facts
  simp only [Bool.and_eq_true, beq_iff_eq] at checked
  obtain ⟨⟨computed, number⟩, late⟩ := checked
  refine ⟨x, z, y, startsAt2000_spec run events computed, number, late, ?_⟩
  intro armed
  obtain ⟨e, found, timer⟩ := armed
  rw [found, Option.map_some, timer, number] at late
  have other : Timer.startWith ((2000 * 2 ^ 0 : Nat) : Int) ≠ Timer.startWith 4000 := by decide
  exact other (Option.some.inj late)

end Instances

end Protocol

end QtCoap
