import QtCoap.Blockwise.Merging
import QtCoap.Codec.OptionList
import QtCoap.Protocol.Outputs

namespace QtCoap

variable {Addr : Type} [Platform Addr]

/-- The payload that a slot call hands to the user. -/
def Slot.content? : Slot Addr → Option QByteArray
  | .setContent _ message _ => some message.payload
  | .setRunning _ _ | .setNotified | .setObserveCancelled | .setFinished _ | .setError _ => none

def Output.content? : Output Addr → Option QByteArray
  | .post _ slot => slot.content?
  | .frame _ _ _ _ _ | .responseToMulticastReceived _ _ _ | .error _ _ => none

namespace ExchangeData

/-- `onLastMessageReceived` forwards a reply of the exchange: the user reply is there, an
observation goes on, and the last reply is no empty acknowledgment. -/
structure Forwards (e : ExchangeData Addr) : Prop where
  user : e.userReply ≠ none
  observed : (e.request.isObserve && e.request.observeCancelled) = false
  stored : e.replies ≠ []
  final : ∀ last ∈ e.replies.getLast?, ¬ (last.message.type = .acknowledgment ∧
    last.responseCode = ResponseCode.emptyMessage)
  numbers : ∀ r ∈ e.replies, r.currentBlockNumber < 2 ^ 31

variable {e : ExchangeData Addr} {reply : ReceivedReply Addr}

theorem Forwards.contents_finish (h : e.Forwards) (sender : Addr) :
    (e.finish sender).2.filterMap Output.content? =
      [Framework.merge (fun r => r.currentBlockNumber) (fun r => r.message.payload)
        (mergeable (e.request.isMulticast Addr) sender e.replies)] := by
  obtain ⟨before, reply, split⟩ : ∃ before reply, e.replies = before ++ [reply] :=
    ⟨_, _, (List.dropLast_append_getLast h.stored).symm⟩
  obtain ⟨id, user⟩ := Option.ne_none_iff_exists'.mp h.user
  have last : e.replies.getLast? = some reply := by
    rw [split, List.getLast?_concat]
  have payload := payload_assembled_mergeable before (e.request.isMulticast Addr) sender
    (h.numbers reply (by rw [split]; simp))
  have merged : mergedPayload (mergeable (e.request.isMulticast Addr) sender e.replies) =
      Framework.merge (fun r => r.currentBlockNumber) (fun r => r.message.payload)
        (mergeable (e.request.isMulticast Addr) sender e.replies) :=
    mergedPayload_eq_merge fun r hr => h.numbers r ((counted_sublist _ _ _).subset hr)
  rw [← split] at payload
  rw [← merged, ← payload]
  simp only [finish]
  rw [user, last]
  dsimp only
  rw [if_neg (by simp [h.observed]), if_neg (h.final reply last)]
  split_ifs <;> rfl

theorem observed_dropObserve {Addr : Type} (e : ExchangeData Addr) :
    (e.dropObserve.request.isObserve && e.dropObserve.request.observeCancelled) = false := by
  simp only [dropObserve]
  split_ifs with cancelled
  · have dropped : (e.request.removeOption OptionName.observe).isObserve = false := by
      have none : (e.request.removeOption OptionName.observe).message.optionsNamed
          OptionName.observe = [] := (Message.optionsNamed_removeOption ..).trans (if_pos rfl)
      rw [InternalRequest.isObserve, Message.hasOption_eq, none]
      rfl
    rw [dropped, Bool.false_and]
  · simp [cancelled]

/-- When a reply has just been received, a cancelled observation is dropped. -/
theorem forwards_received (user : e.userReply ≠ none)
    (final : ¬ (reply.message.type = .acknowledgment ∧
      reply.responseCode = ResponseCode.emptyMessage))
    (numbers : ∀ r ∈ e.replies ++ [reply], r.currentBlockNumber < 2 ^ 31) :
    (e.store reply).dropObserve.Forwards := by
  have kept := continues_stored e reply
  refine ⟨?_, ?_, ?_, ?_, ?_⟩
  · rw [kept.userReply]
    exact user
  · exact observed_dropObserve (e.store reply)
  · rw [replies_stored]
    simp
  · intro last listed
    rw [last_dropObserve_store] at listed
    obtain rfl := Option.some.inj listed
    exact final
  · rw [replies_stored]
    exact numbers

/-- For a last reply that has just been received the replies of its sender are merged, also when it
is the only one. -/
theorem contents_receive {blockSize : Nat} {id : UInt16}
    (noError : isError reply.responseCode = false) (last : reply.continues = false)
    (user : e.userReply ≠ none)
    (final : ¬ (reply.message.type = .acknowledgment ∧
      reply.responseCode = ResponseCode.emptyMessage))
    (numbers : ∀ r ∈ e.replies ++ [reply], r.currentBlockNumber < 2 ^ 31) :
    (e.receive blockSize reply id).2.filterMap Output.content? =
      [Framework.merge (fun r => r.currentBlockNumber) (fun r => r.message.payload)
        (counted (e.request.isMulticast Addr) reply.senderAddress (e.replies ++ [reply]))] := by
  have contents := (forwards_received user final numbers).contents_finish reply.senderAddress
  have silent : ((e.store reply).acknowledge reply).filterMap Output.content? = [] := by
    rw [List.filterMap_eq_nil_iff]
    intro o ho
    obtain ⟨message, method, connection, host, port, rfl, -⟩ := mem_acknowledge ho
    rfl
  have group := InternalRequest.isMulticast_of_identity Addr (continues_stored e reply).identity
  rw [replies_stored, group, mergeable_eq_counted e.replies fun _ _ => rfl] at contents
  rw [receive_of_final e noError last, List.filterMap_append, silent, List.nil_append, contents]

end ExchangeData

namespace Protocol

/-- What is forwarded is the earliest payload with each block number, in ascending order of the
numbers; with numbers of their own the replies may come in any order. In a multicast exchange only
the replies of the sender count, unless one reply is stored alone. -/
theorem forwards_merge :
    (∀ {s : Protocol Addr} {key : Token} {sender : Addr} {e : ExchangeData Addr},
      s.exchangeMap.find? key = some e → e.request.token = key → e.Forwards →
      (s.onLastMessageReceived key sender).2.filterMap Output.content? =
        [Framework.merge (fun r => r.currentBlockNumber) (fun r => r.message.payload)
          (mergeable (e.request.isMulticast Addr) sender e.replies)]) ∧
    ∀ {s t : Protocol Addr} {key key' : Token} {sender : Addr} {e f : ExchangeData Addr},
      s.exchangeMap.find? key = some e → e.request.token = key → e.Forwards →
      t.exchangeMap.find? key' = some f → f.request.token = key' → f.Forwards →
      e.request.isMulticast Addr = f.request.isMulticast Addr →
      e.replies.Perm f.replies → (e.replies.map (·.currentBlockNumber)).Nodup →
      (s.onLastMessageReceived key sender).2.filterMap Output.content? =
        (t.onLastMessageReceived key' sender).2.filterMap Output.content? := by
  have merged {s : Protocol Addr} {key : Token} {sender : Addr} {e : ExchangeData Addr}
      (found : s.exchangeMap.find? key = some e) (token : e.request.token = key)
      (h : e.Forwards) :
      (s.onLastMessageReceived key sender).2.filterMap Output.content? =
        [Framework.merge (fun r => r.currentBlockNumber) (fun r => r.message.payload)
          (mergeable (e.request.isMulticast Addr) sender e.replies)] := by
    rw [onLastMessageReceived_eq sender found token]
    exact h.contents_finish sender
  refine ⟨merged, ?_⟩
  intro s t key key' sender e f found token h found' token' h' group perm distinct
  have kept : (mergeable (e.request.isMulticast Addr) sender e.replies).Perm
      (mergeable (e.request.isMulticast Addr) sender f.replies) := by
    simp only [mergeable, counted]
    rw [perm.length_eq]
    split_ifs
    · exact perm.filter _
    · exact perm
  have own : ((mergeable (e.request.isMulticast Addr) sender e.replies).map
      (·.currentBlockNumber)).Nodup :=
    distinct.sublist ((counted_sublist _ _ _).map _)
  rw [merged found token h, merged found' token' h', ← group, Framework.merge_perm kept own]

/-- Block `number` of a reply from the server. -/
def blockReply (number : Nat) (payload : QByteArray) : ReceivedReply IPv4Address where
  currentBlockNumber := number
  message := { payload := payload }
  responseCode := 0x45
  senderAddress := serverAddress

/-- An exchange with a group, and the replies it has stored. -/
def gathered (replies : List (ReceivedReply IPv4Address)) : ExchangeData IPv4Address where
  userReply := some 0
  request := { message := { token := [1, 2] }, targetUri := { host := "224.0.1.187".toList } }
  replies := replies

theorem forwards_gathered {replies : List (ReceivedReply IPv4Address)} (stored : replies ≠ [])
    (own : ∀ r ∈ replies, r.currentBlockNumber < 2 ^ 31 ∧ r.responseCode = 0x45) :
    (gathered replies).Forwards where
  user := Option.some_ne_none 0
  observed := rfl
  stored := stored
  final last listed empty := by
    have code := (own last (List.mem_of_getLast? listed)).2
    rw [code] at empty
    exact absurd empty.2 (by decide)
  numbers r hr := (own r hr).1

/-- A block from another host than the server. -/
def straying : ReceivedReply IPv4Address :=
  { blockReply 0 [120] with senderAddress := some (10, 0, 0, 2) }

/-- An empty block, a block that comes again, and a block from another host. -/
def scattered : List (ReceivedReply IPv4Address) :=
  [blockReply 1 [], blockReply 2 [99], straying, blockReply 1 [98], blockReply 1 [66],
    blockReply 0 [97]]

theorem forwards_merge_scattered :
    ((setExchange {} [1, 2] (some (gathered scattered))).onLastMessageReceived [1, 2]
        serverAddress).2.filterMap Output.content? = [[97, 98, 99]] ∧
      ((setExchange {} [1, 2] (some (gathered
        [blockReply 1 [98], blockReply 0 [97]]))).onLastMessageReceived [1, 2]
          serverAddress).2.filterMap Output.content? =
      ((setExchange {} [1, 2] (some (gathered
        [blockReply 0 [97], blockReply 1 [98]]))).onLastMessageReceived [1, 2]
          serverAddress).2.filterMap Output.content? := by
  have found (replies : List (ReceivedReply IPv4Address)) :=
    find?_setExchange_self {} [1, 2] (gathered replies)
  constructor
  · rw [forwards_merge.1 (found scattered) rfl (forwards_gathered (by decide) (by decide)),
      ← Framework.flatMap_range_eq_merge 3 _ (by decide)]
    decide
  · exact forwards_merge.2 (found _) rfl (forwards_gathered (by decide) (by decide))
      (found _) rfl (forwards_gathered (by decide) (by decide)) rfl
      (List.Perm.swap _ _ []) (by decide)

/-- A reply that is stored alone is forwarded although another host than the given one sent it. -/
theorem forwards_straying :
    let s := setExchange {} [1, 2] (some (gathered [straying]))
    s.exchangeMap.find? [1, 2] = some (gathered [straying]) ∧
      (gathered [straying]).request.token = [1, 2] ∧ (gathered [straying]).Forwards ∧
      (gathered [straying]).request.isMulticast IPv4Address = true ∧
      (s.onLastMessageReceived [1, 2] serverAddress).2.filterMap Output.content? = [[120]] ∧
      Framework.merge (fun r => r.currentBlockNumber) (fun r => r.message.payload)
        (counted true serverAddress [straying]) = [] := by
  have found := find?_setExchange_self {} [1, 2] (gathered [straying])
  refine ⟨found, rfl, forwards_gathered (by decide) (by decide), by decide, ?_, ?_⟩
  · rw [onLastMessageReceived_eq serverAddress found rfl]
    decide
  · have none : counted true serverAddress [straying] = [] := by decide
    rw [none, ← Framework.flatMap_range_eq_merge 0 [] (by simp)]
    rfl

end Protocol

end QtCoap
