import QtCoap.Protocol.BlockOption
import QtCoap.Protocol.Invariant

namespace QtCoap

variable {Addr : Type} [Platform Addr]

namespace Protocol

variable {s t : Protocol Addr} {os : List (Output Addr)} {event : Event Addr}

/-- The protocol without its exchanges. -/
def settings (s : Protocol Addr) : Protocol Addr := { s with exchangeMap := .empty }

@[simp] theorem settings_setExchange {Addr : Type} {s : Protocol Addr} (key : Token)
    (o : Option (ExchangeData Addr)) : (s.setExchange key o).settings = s.settings := by
  cases o <;> rfl

theorem settings_of_apply {Addr : Type} {s t : Protocol Addr} {os : List (Output Addr)}
    {key : Token} {reaction : Reaction Addr} (after : (t, os) = s.apply key reaction) :
    t.settings = s.settings := by
  rw [(Prod.mk.inj after).1]
  exact settings_setExchange ..

/-- A frame that is let through changes the entry of the exchange it is matched to, and nothing
else. -/
theorem frame_setExchange (consistent : s.Consistent) {data : QByteArray}
    {reply : ReceivedReply Addr} {key : Token} {e : ExchangeData Addr} {draws : Draws}
    (admits : s.Admits data reply key e)
    (step : Step s (.frameReceived data reply.senderAddress draws) os t) :
    ∃ o, t = s.setExchange key o := by
  have handled : s.onFrameReceived data reply.senderAddress draws = .ok (t, os) := step.2
  rw [onFrameReceived_of_admits consistent admits] at handled
  split_ifs at handled
  · obtain ⟨drawn, -, after⟩ := Framework.map_ok handled
    exact ⟨_, (Prod.mk.inj after).1.symm⟩
  · exact ⟨_, (Prod.mk.inj (Except.ok.inj handled)).1.symm⟩

theorem settings_sendRequest {reply : Option ReplyId} {request : Request}
    {connection : ConnectionId} {draws : Draws}
    (h : s.sendRequest reply request connection draws = .ok (t, os)) :
    t.settings = s.settings := by
  unfold sendRequest at h
  cases reply with
  | none =>
    obtain rfl := (Prod.mk.inj (Except.ok.inj h)).1
    rfl
  | some id =>
    dsimp only at h
    split_ifs at h with invalid
    · obtain rfl := (Prod.mk.inj (Except.ok.inj h)).1
      rfl
    · obtain ⟨drawn, -, h⟩ := Framework.bind_ok h
      obtain ⟨chosen, -, h⟩ := Framework.bind_ok h
      rw [openExchange_eq] at h
      obtain ⟨timeout, -, after⟩ := Framework.map_ok h
      exact settings_of_apply after.symm

theorem settings_cancelObserve {Addr : Type} {s : Protocol Addr} (reply : Option ReplyId)
    (token : Token) : (s.cancelObserve reply token).1.settings = s.settings := by
  simp only [cancelObserve]
  cases reply with
  | none => rfl
  | some id =>
    cases s.exchangeMap.find? token with
    | none => rfl
    | some e =>
      dsimp only
      split_ifs <;> rfl

theorem settings_cancelObserveUrl {Addr : Type} {s t : Protocol Addr} {os : List (Output Addr)}
    {url : Url} {view : ReplyId → Url × Token} (h : s.cancelObserveUrl url view = .ok (t, os)) :
    t.settings = s.settings := by
  unfold cancelObserveUrl at h
  suffices walk : ∀ (entries : List (Token × ExchangeData Addr))
      (acc : Protocol Addr × List (Output Addr)),
      entries.foldlM (cancelEntry url view) acc = .ok (t, os) →
        t.settings = acc.1.settings from walk _ _ h
  intro entries
  induction entries with
  | nil =>
    intro acc h
    obtain rfl := Except.ok.inj h
    rfl
  | cons entry entries ih =>
    intro acc h
    rw [List.foldlM_cons] at h
    obtain ⟨acc', one, rest⟩ := Framework.bind_ok h
    rw [ih acc' rest]
    unfold cancelEntry at one
    cases hu : entry.2.userReply with
    | none =>
      rw [hu] at one
      cases one
    | some id =>
      rw [hu] at one
      dsimp only at one
      split_ifs at one
      · obtain rfl := Except.ok.inj one
        exact settings_cancelObserve (some id) (view id).2
      · obtain rfl := Except.ok.inj one
        rfl

/-- The setters change the settings; nothing else does. -/
def setting : Event Addr → Bool
  | .setAckTimeout _ | .setAckRandomFactor _ | .setMaximumRetransmitCount _ | .setBlockSize _
  | .setMaximumServerResponseDelay _ | .setMinimumTokenSize _ => true
  | _ => false

theorem step_settings (consistent : s.Consistent) (h : Step s event os t)
    (other : setting event = false) : t.settings = s.settings := by
  obtain ⟨enabled, h⟩ := h
  cases event with
  | sendRequest reply request connection draws => exact settings_sendRequest h
  | frameReceived data sender draws =>
    have handled : s.onFrameReceived data sender draws = .ok (t, os) := h
    rcases onFrameReceived_cases handled with
      ⟨fault, -, failed⟩ | dropped | ⟨reply, key, e, rfl, admits⟩
    · cases failed
    · obtain rfl := (Prod.mk.inj (Except.ok.inj dropped)).1
      rfl
    · obtain ⟨o, rfl⟩ := frame_setExchange consistent admits ⟨enabled, h⟩
      exact settings_setExchange key o
  | timeout key =>
    obtain ⟨e, found⟩ := timerRuns_found enabled
    have reaction := onRequestTimeout_eq found (consistent.registered found).token
    exact settings_of_apply ((Except.ok.inj h).symm.trans reaction)
  | maxTransmissionSpanReached key =>
    obtain ⟨e, found⟩ := timerRuns_found enabled
    have reaction := onRequestError_eq .timeOut none found (consistent.registered found).token
    exact settings_of_apply ((Except.ok.inj h).symm.trans reaction)
  | multicastRequestExpired key =>
    obtain ⟨e, found⟩ := timerRuns_found enabled
    have reaction := onMulticastRequestExpired_eq found (consistent.registered found).token
    exact settings_of_apply ((Except.ok.inj h).symm.trans reaction)
  | aborted id token =>
    obtain rfl := (Prod.mk.inj (Except.ok.inj h)).1
    cases found : s.exchangeMap.find? token with
    | none => rw [onRequestAborted, found]
    | some e =>
      rw [onRequestAborted_eq found (consistent.registered found).token]
      exact settings_setExchange ..
  | cancelObserve reply token =>
    have kept := settings_cancelObserve (s := s) reply token
    rw [Except.ok.inj h] at kept
    exact kept
  | cancelObserveUrl url view => exact settings_cancelObserveUrl h
  | replyDestroyed id =>
    obtain rfl := (Prod.mk.inj (Except.ok.inj h)).1
    rfl
  | connectionError socketError =>
    obtain rfl := (Prod.mk.inj (Except.ok.inj h)).1
    rfl
  | setAckTimeout _ | setAckRandomFactor _ | setMaximumRetransmitCount _ | setBlockSize _
  | setMaximumServerResponseDelay _ | setMinimumTokenSize _ => cases other

/-- What the setters keep holds of the settings in every reachable state. -/
theorem Reachable.settings_invariant {P : Protocol Addr → Prop}
    (settings : ∀ {s}, P s ↔ P s.settings) (start : P {})
    (preserved : ∀ {s t event os}, setting event = true → P s → Step s event os t → P t)
    (h : Reachable s) : P s := by
  have both := Framework.Reachable.invariant (P := fun s : Protocol Addr => s.Consistent ∧ P s)
    (fun init => ⟨Reachable.consistent ⟨_, [], init, .nil⟩, init ▸ start⟩)
    (by
      intro s event os t before step
      refine ⟨before.1.step step, ?_⟩
      cases other : setting event with
      | true => exact preserved other before.2 step
      | false =>
        rw [settings, step_settings before.1 step other]
        exact settings.mp before.2) h
  exact both.2

theorem Reachable.maximumRetransmitCount_le (h : Reachable s) : s.maximumRetransmitCount ≤ 25 := by
  refine h.settings_invariant (P := fun s : Protocol Addr => s.maximumRetransmitCount ≤ 25)
    Iff.rfl (show 4 ≤ 25 by decide) ?_
  intro s t event os setter before step
  cases event with
  | setMaximumRetransmitCount count =>
    obtain rfl := (Prod.mk.inj (Except.ok.inj step.2)).1
    simp only [setMaximumRetransmitCount]
    split_ifs <;> omega
  | setBlockSize size =>
    obtain rfl := (Prod.mk.inj (Except.ok.inj step.2)).1
    simp only [setBlockSize]
    split_ifs <;> exact before
  | setMinimumTokenSize size =>
    obtain rfl := (Prod.mk.inj (Except.ok.inj step.2)).1
    simp only [setMinimumTokenSize]
    split_ifs <;> exact before
  | setAckTimeout _ | setAckRandomFactor _ | setMaximumServerResponseDelay _ =>
    obtain rfl := (Prod.mk.inj (Except.ok.inj step.2)).1
    exact before
  | _ => cases setter

/-- `setBlockSize` accepts zero and the block sizes there are. -/
theorem blockSize_setBlockSize {Addr : Type} {s : Protocol Addr} (size : UInt16) :
    (s.setBlockSize size).blockSize = s.blockSize ∨ (s.setBlockSize size).blockSize = 0 ∨
      IsBlockSize (s.setBlockSize size).blockSize := by
  have sizes : ∀ n ≤ 1024, 16 ≤ n → n &&& (n - 1) = 0 → ∃ szx ≤ 6, n = 2 ^ (szx + 4) := by
    decide +kernel
  simp only [setBlockSize]
  split_ifs with power range
  · exact .inl rfl
  · exact .inl rfl
  · right
    by_cases zero : size.toNat = 0
    · exact .inl zero
    · right
      rw [not_and, not_or] at range
      obtain ⟨least, most⟩ := range zero
      exact sizes size.toNat (by omega) (by omega) (not_not.mp power)

theorem Reachable.blockSize (h : Reachable s) : s.blockSize = 0 ∨ IsBlockSize s.blockSize := by
  refine h.settings_invariant
    (P := fun s : Protocol Addr => s.blockSize = 0 ∨ IsBlockSize s.blockSize) Iff.rfl
    (.inl rfl) ?_
  intro s t event os setter before step
  cases event with
  | setBlockSize size =>
    obtain rfl := (Prod.mk.inj (Except.ok.inj step.2)).1
    rcases blockSize_setBlockSize (s := s) size with same | accepted
    · rw [same]
      exact before
    · exact accepted
  | setMinimumTokenSize size =>
    obtain rfl := (Prod.mk.inj (Except.ok.inj step.2)).1
    simp only [setMinimumTokenSize]
    split_ifs <;> exact before
  | setAckTimeout _ | setAckRandomFactor _ | setMaximumRetransmitCount _
  | setMaximumServerResponseDelay _ =>
    obtain rfl := (Prod.mk.inj (Except.ok.inj step.2)).1
    exact before
  | _ => cases setter

end Protocol

end QtCoap
