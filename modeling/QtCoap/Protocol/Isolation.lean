import QtCoap.Protocol.Matching
import QtCoap.Protocol.Settings

namespace QtCoap

variable {Addr : Type} [Platform Addr]

namespace Protocol

variable {s t : Protocol Addr} {os : List (Output Addr)} {data : QByteArray} {sender : Addr}
  {draws : Draws}

/-- The exchange a received frame is matched to, whoever has sent it. -/
def matchedExchange (s : Protocol Addr) (data : QByteArray) :
    Option (Token × ExchangeData Addr) := do
  let decoded ← (createFromFrame (Platform.junk Addr) data).toOption
  let key ← s.frameTarget decoded.message
  let e ← s.exchangeMap.find? key
  some (key, e)

theorem matchedExchange_of_admits {reply : ReceivedReply Addr} {key : Token}
    {e : ExchangeData Addr} (admits : s.Admits data reply key e) :
    s.matchedExchange data = some (key, e) := by
  simp only [matchedExchange]
  rw [admits.decoded]
  simp only [Except.toOption, Option.bind_eq_bind, Option.bind_some]
  rw [admits.target, Option.bind_some, admits.found]
  rfl

/-- A frame leaves the exchanges it is not matched to alone; it changes the one it is matched to
only if it comes from the target of the request or the request went to a group; and without a
match, or from another sender, it changes nothing and has no effect outside. -/
theorem frame_isolation (h : Reachable s) (step : Step s (.frameReceived data sender draws) os t) :
    (∀ key, (s.matchedExchange data).map Prod.fst ≠ some key →
      t.exchangeMap.find? key = s.exchangeMap.find? key) ∧
    (∀ key e, s.matchedExchange data = some (key, e) → t.exchangeMap.find? key ≠ some e →
      let target : Addr := Platform.ofHost e.request.targetUri.host
      Platform.isEqual target sender = true ∨ Platform.isMulticast target = true) ∧
    ((∀ key e, s.matchedExchange data = some (key, e) →
        senderAdmissible e.request sender = false) → t = s ∧ os = []) := by
  have handled : s.onFrameReceived data sender draws = .ok (t, os) := step.2
  rcases onFrameReceived_cases handled with
    ⟨fault, -, failed⟩ | dropped | ⟨reply, key, e, rfl, admits⟩
  · cases failed
  · obtain ⟨rfl, rfl⟩ := Prod.mk.inj (Except.ok.inj dropped)
    refine ⟨fun _ _ => rfl, ?_, fun _ => ⟨rfl, rfl⟩⟩
    intro key e matched changed
    refine absurd ?_ changed
    simp only [matchedExchange, Option.bind_eq_bind, Option.bind_eq_some_iff] at matched
    obtain ⟨decoded, -, key', -, e', found, same⟩ := matched
    obtain ⟨rfl, rfl⟩ := Prod.mk.inj (Option.some.inj same)
    exact found
  · have matched := matchedExchange_of_admits admits
    obtain ⟨o, rfl⟩ := frame_setExchange (Reachable.consistent h) admits step
    refine ⟨?_, ?_, ?_⟩
    · intro key' other
      have ne : key' ≠ key := by
        intro same
        exact other (by rw [matched, same]; rfl)
      rw [find?_setExchange, if_neg ne]
    · intro key' e' matched' _
      obtain ⟨rfl, rfl⟩ := Prod.mk.inj (Option.some.inj (matched.symm.trans matched'))
      have admissible := admits.admissible
      simp only [senderAdmissible, Bool.or_eq_true] at admissible
      exact admissible.symm
    · intro inadmissible
      have refused := inadmissible key e matched
      rw [admits.admissible] at refused
      cases refused

theorem frame_isolation_ownResponse : ∃ os t,
    Step twoExchanges (.frameReceived ownResponse serverAddress []) os t ∧
    (twoExchanges.matchedExchange ownResponse).map Prod.fst = some [1, 2] ∧
    (∀ key, (twoExchanges.matchedExchange ownResponse).map Prod.fst ≠ some key →
      t.exchangeMap.find? key = twoExchanges.exchangeMap.find? key) ∧
    (∀ key e, twoExchanges.matchedExchange ownResponse = some (key, e) →
      t.exchangeMap.find? key ≠ some e →
      let target : IPv4Address := Platform.ofHost e.request.targetUri.host
      Platform.isEqual target serverAddress = true ∨ Platform.isMulticast target = true) ∧
    ((∀ key e, twoExchanges.matchedExchange ownResponse = some (key, e) →
        senderAdmissible e.request serverAddress = false) → t = twoExchanges ∧ os = []) := by
  have handled : (twoExchanges.handle (.frameReceived ownResponse serverAddress [])).isSome =
      true := by decide +kernel
  obtain ⟨⟨t, os⟩, received⟩ := Option.isSome_iff_exists.mp handled
  have step := step_of_handle received
  exact ⟨os, t, step, by decide +kernel, frame_isolation (reachable_after _) step⟩

end Protocol

end QtCoap
