import QtCoap.Protocol.Invariant

namespace QtCoap

variable {Addr : Type} [Platform Addr]

/-- A frame belongs to an exchange: it carries the token of its request, or it is an empty-token
Acknowledgment or Reset under the message ID of its request. -/
def RightlyMatched (message : Message) (e : ExchangeData Addr) : Prop :=
  (message.token ≠ [] ∧ message.token = e.request.token) ∨
    (message.token = [] ∧ (message.type = .acknowledgment ∨ message.type = .reset) ∧
      message.messageId = e.request.message.messageId)

instance (message : Message) (e : ExchangeData Addr) : Decidable (RightlyMatched message e) :=
  inferInstanceAs (Decidable (_ ∨ _))

namespace Protocol

variable {s : Protocol Addr} {message : Message} {key : Token}

theorem frameTarget_of_registered {Addr : Type} {s : Protocol Addr} (token : message.token ≠ [])
    (registered : s.isTokenRegistered message.token = true) :
    s.frameTarget message = some message.token := by
  have found : s.exchangeMap.contains message.token = true := by
    simpa [isTokenRegistered, token] using registered
  simp [frameTarget, token, found]

/-- Behind the token, the message ID decides, and it names one exchange. -/
theorem frameTarget_eq_some_iff {Addr : Type} {s : Protocol Addr} (consistent : s.Consistent)
    (other : ¬ (message.token ≠ [] ∧ s.isTokenRegistered message.token = true)) :
    s.frameTarget message = some key ↔
      ∃ e, s.exchangeMap.find? key = some e ∧
        e.request.message.messageId = message.messageId := by
  have fallback : s.frameTarget message = s.findRequestByMessageId message.messageId := by
    simp only [frameTarget]
    rw [if_neg]
    intro first
    obtain ⟨token, found⟩ := (Bool.and_eq_true ..).mp first
    exact other ⟨by simpa using token, by simp [isTokenRegistered, found]⟩
  rw [fallback, findRequestByMessageId]
  constructor
  · intro h
    obtain ⟨e, found, same⟩ := Framework.OrderedMap.findKey?_some h
    exact ⟨e, found, by simpa using same⟩
  · intro h
    obtain ⟨e, found, same⟩ := h
    apply Framework.OrderedMap.findKey?_eq_of_unique found (by simp [same])
    intro j d found' same'
    exact consistent.distinct found' found ((by simpa using same' : _ = _).trans same.symm)

/-- A frame ends up in a foreign exchange exactly when its token finds none, it is no empty-token
Acknowledgment or Reset, and yet some exchange with its sender happens to use its message ID. -/
theorem rightlyMatched_iff (h : Reachable s) {data : QByteArray} {reply : ReceivedReply Addr}
    (decoded : createFromFrame (Platform.junk Addr) data = .ok reply.toInternalReply) :
    (∀ key e, s.Admits data reply key e → RightlyMatched reply.message e) ↔
      (reply.message.token ≠ [] ∧ s.isTokenRegistered reply.message.token = true) ∨
      (reply.message.token = [] ∧
        (reply.message.type = .acknowledgment ∨ reply.message.type = .reset)) ∨
      ∀ key e, s.exchangeMap.find? key = some e →
        e.request.message.messageId = reply.message.messageId →
        senderAdmissible e.request reply.senderAddress = false := by
  have consistent := Reachable.consistent h
  by_cases byToken : reply.message.token ≠ [] ∧ s.isTokenRegistered reply.message.token = true
  · refine iff_of_true ?_ (.inl byToken)
    intro key e admits
    have same : reply.message.token = key := Option.some.inj
      ((frameTarget_of_registered byToken.1 byToken.2).symm.trans admits.target)
    exact .inl ⟨byToken.1, same.trans (consistent.registered admits.found).token.symm⟩
  by_cases empty : reply.message.token = [] ∧
      (reply.message.type = .acknowledgment ∨ reply.message.type = .reset)
  · refine iff_of_true ?_ (.inr (.inl empty))
    intro key e admits
    obtain ⟨e', found, same⟩ := (frameTarget_eq_some_iff consistent byToken).mp admits.target
    obtain rfl := Option.some.inj (found.symm.trans admits.found)
    exact .inr ⟨empty.1, empty.2, same.symm⟩
  · rw [or_iff_right byToken, or_iff_right empty]
    constructor
    · intro right key e found same
      cases admissible : senderAdmissible e.request reply.senderAddress with
      | false => rfl
      | true =>
        have target := (frameTarget_eq_some_iff consistent byToken).mpr ⟨e, found, same⟩
        rcases right key e ⟨decoded, target, found, admissible⟩ with
          ⟨token, same⟩ | ⟨token, type, -⟩
        · refine absurd ⟨token, ?_⟩ byToken
          have known : s.exchangeMap.contains key = true :=
            (Framework.OrderedMap.contains_iff ..).mpr ⟨e, found⟩
          rw [same, (consistent.registered found).token]
          simp [isTokenRegistered, known]
        · exact absurd ⟨token, type⟩ empty
    · intro none key e admits
      obtain ⟨e', found, same⟩ := (frameTarget_eq_some_iff consistent byToken).mp admits.target
      obtain rfl := Option.some.inj (found.symm.trans admits.found)
      have admissible := admits.admissible
      rw [none key e' found same] at admissible
      cases admissible

/-- One request under way, with token 01 02 and message ID 7. -/
def oneExchange : Protocol IPv4Address :=
  after [.sendRequest (some 0) (getRequest [1, 2]) 0 [7, 0]]

theorem oneExchange_admits {data : QByteArray} (reply : ReceivedReply IPv4Address)
    (decoded : createFromFrame 0 data = .ok reply.toInternalReply)
    (token : reply.message.token = [1, 2]) (sender : reply.senderAddress = serverAddress) :
    ∃ e, oneExchange.Admits data reply [1, 2] e := by
  have registered : oneExchange.isTokenRegistered [1, 2] = true := by decide +kernel
  have admitted : (oneExchange.exchangeMap.find? [1, 2]).any
      (fun e => senderAdmissible e.request serverAddress) = true := by decide +kernel
  obtain ⟨e, found, admissible⟩ := (Option.any_eq_true ..).mp admitted
  have target : oneExchange.frameTarget reply.message = some reply.message.token :=
    frameTarget_of_registered (by simp [token]) (by rw [token]; exact registered)
  exact ⟨e, decoded, by rw [target, token], found, by rw [sender]; exact admissible⟩

/-- A Non-confirmable 2.05 to the request. -/
def ownReply : ReceivedReply IPv4Address where
  message := { type := .nonConfirmable, messageId := 0x3039, token := [1, 2], payload := [0x61] }
  responseCode := 0x45
  senderAddress := serverAddress

def ownResponse : QByteArray := [0x52, 0x45, 0x30, 0x39, 0x01, 0x02, 0xFF, 0x61]

theorem rightlyMatched_ownReply :
    (oneExchange.attribution ownResponse serverAddress).isSome = true ∧
      ∀ key e, oneExchange.Admits ownResponse ownReply key e →
        RightlyMatched ownReply.message e :=
  ⟨by decide +kernel, (rightlyMatched_iff (reachable_after _) (by rfl)).mpr
    (.inl ⟨by decide, by decide +kernel⟩)⟩

/-- A Non-confirmable 2.05 with token 09 and message ID 7, to some other request of the
server's. -/
def foreignResponse : QByteArray := [0x51, 0x45, 0x00, 0x07, 0x09, 0xFF, 0x61]

theorem foreignResponse_attributed :
    Reachable oneExchange ∧ ¬ ∀ reply key e, oneExchange.Admits foreignResponse reply key e →
      RightlyMatched reply.message e := by
  refine ⟨reachable_after _, ?_⟩
  intro right
  have wrong : (oneExchange.attribution foreignResponse serverAddress).any
      (fun found => !decide (RightlyMatched found.1.message found.2.2)) = true := by
    decide +kernel
  obtain ⟨⟨reply, key, e⟩, found, foreign⟩ := (Option.any_eq_true ..).mp wrong
  have admits := (attribution_eq_some_iff.mp found).2
  simp [right reply key e admits] at foreign

end Protocol

end QtCoap
