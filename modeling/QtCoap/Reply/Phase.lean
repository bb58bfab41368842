import QtCoap.Reply.Announcements

namespace QtCoap

variable {Addr : Type} [Platform Addr]

namespace Reply

variable (r : Reply)

/-- The token is set with the reply running, and with nothing else. -/
theorem handle_of_not_running {Addr : Type} {slot : Slot Addr}
    (other : ∀ token messageId, slot ≠ .setRunning token messageId) :
    (r.handle slot).1.request = r.request := by
  cases slot with
  | setRunning token messageId => exact absurd rfl (other token messageId)
  | setContent sender message code =>
    simp only [handle, setContent, setError]
    split_ifs <;> rfl
  | setNotified =>
    simp only [handle, setNotified]
    split_ifs <;> rfl
  | setObserveCancelled => rfl
  | setFinished error =>
    simp only [handle, setFinished, setError]
    split_ifs <;> rfl
  | setError error =>
    simp only [handle, setError]
    split_ifs <;> rfl

theorem isAborted_handle {Addr : Type} (slot : Slot Addr) :
    (r.handle slot).1.isAborted = r.isAborted := by
  cases slot with
  | setRunning token messageId => rfl
  | setContent sender message code =>
    simp only [handle, setContent, setError]
    split_ifs <;> rfl
  | setNotified =>
    simp only [handle, setNotified]
    split_ifs <;> rfl
  | setObserveCancelled => rfl
  | setFinished error =>
    simp only [handle, setFinished, setError]
    split_ifs <;> rfl
  | setError error =>
    simp only [handle, setError]
    split_ifs <;> rfl

end Reply

/-- The call is about the reply: it hands it to the protocol or tells that it is aborted. -/
def Call.isAbout (id : ReplyId) : Call → Bool
  | .sendRequest id' _ | .aborted id' _ => id' == id
  | _ => false

/-- What there is of a reply, and on its way, outside the exchange map. -/
@[ext] structure View where
  token : Token
  announced : List Token
  calls : List Call
  sent : Bool
  connected : Bool
  isAborted : Bool
  accepted : Bool

namespace Threads

variable (s : Threads Addr) (id : ReplyId)

def view : View where
  token := (s.replies id).request.message.token
  announced := announcements id s.posted
  calls := s.calls.filter (Call.isAbout id)
  sent := s.sent id
  connected := s.connected id
  isAborted := (s.replies id).isAborted
  accepted := (s.replies id).request.accepted

end Threads

/-- How far a reply without a user-set token has come. -/
inductive Phase (id : ReplyId) (v : View) (owns : Token → Prop) : Prop
  /-- It has not been handed to the protocol. -/
  | waiting (free : ∀ key, ¬ owns key) (token : v.token = []) (announced : v.announced = [])
      (calls : v.calls = [] ∨ v.sent = true ∧ ∃ connection, v.calls = [.sendRequest id connection])
      (isAborted : v.isAborted = false)
  /-- It has been registered under `key`, of which it does not know. -/
  | announced (key : Token) (ne : key ≠ []) (own : ∀ k, owns k → k = key) (token : v.token = [])
      (announced : v.announced = [key]) (calls : v.calls = []) (sent : v.sent = true)
      (connected : v.connected = true) (isAborted : v.isAborted = false)
  /-- It has the token of its exchange. -/
  | running (ne : v.token ≠ []) (own : ∀ k, owns k → k = v.token) (announced : v.announced = [])
      (sent : v.sent = true) (connected : v.connected = true)
      (calls : v.calls = [] ∧ (v.isAborted = true → ∀ k, ¬ owns k) ∨
        v.isAborted = true ∧ v.calls = [.aborted id v.token])
  /-- It has no exchange and will get none. -/
  | ended (free : ∀ key, ¬ owns key) (sent : v.sent = true)
      (rejected : ∀ connection, .sendRequest id connection ∈ v.calls → v.accepted = false)

namespace Phase

variable {id : ReplyId} {v : View} {owns owns' : Token → Prop}

/-- Exchanges may go. -/
theorem mono (h : Phase id v owns) (fewer : ∀ k, owns' k → owns k) : Phase id v owns' := by
  have free (none : ∀ k, ¬ owns k) (k : Token) : ¬ owns' k := fun own => none k (fewer k own)
  cases h with
  | waiting none token announced calls isAborted =>
    exact .waiting (free none) token announced calls isAborted
  | announced key ne own token announced calls sent connected isAborted =>
    exact .announced key ne (fun k o => own k (fewer k o)) token announced calls sent connected
      isAborted
  | running ne own announced sent connected calls =>
    refine .running ne (fun k o => own k (fewer k o)) announced sent connected ?_
    exact calls.imp_left fun settled => ⟨settled.1, fun aborted => free (settled.2 aborted)⟩
  | ended none sent rejected => exact .ended (free none) sent rejected

/-- The reply is handed to the client, once. -/
theorem send (h : Phase id v owns) (unsent : v.sent = false) (connection : ConnectionId) :
    Phase id { v with calls := v.calls ++ [.sendRequest id connection], sent := true } owns := by
  cases h with
  | waiting free token announced calls isAborted =>
    refine .waiting free token announced (.inr ⟨rfl, connection, ?_⟩) isAborted
    rcases calls with none | ⟨sent, -⟩
    · dsimp only
      rw [none]
      rfl
    · rw [unsent] at sent
      cases sent
  | announced _ _ _ _ _ _ sent _ _ | running _ _ _ sent _ _ | ended _ sent _ =>
    rw [unsent] at sent
    cases sent

/-- The reply is aborted while it is not finished. -/
theorem abort (h : Phase id v owns) (sent : v.sent = true) (unfinished : v.isAborted = false)
    (timely : v.token = [] → (∀ key, ¬ owns key) ∧
      ∀ connection, .sendRequest id connection ∈ v.calls → v.accepted = false) :
    Phase id { v with
      calls := v.calls ++ if v.connected then [.aborted id v.token] else []
      isAborted := true } owns := by
  have ended (empty : v.token = []) : Phase id { v with
      calls := v.calls ++ if v.connected then [.aborted id v.token] else []
      isAborted := true } owns := by
    obtain ⟨free, rejected⟩ := timely empty
    refine .ended free sent ?_
    intro connection pending
    refine rejected connection ?_
    rcases List.mem_append.mp pending with pending | added
    · exact pending
    · split_ifs at added <;> simp at added
  cases h with
  | waiting free token announced calls isAborted => exact ended token
  | announced key ne own token announced calls sent connected isAborted => exact ended token
  | running ne own announced sent connected calls =>
    refine .running ne own announced sent connected (.inr ⟨rfl, ?_⟩)
    rcases calls with ⟨none, -⟩ | ⟨aborted, -⟩
    · dsimp only
      rw [none, connected]
      rfl
    · rw [unfinished] at aborted
      cases aborted
  | ended free _ rejected =>
    refine .ended free sent ?_
    intro connection pending
    refine rejected connection ?_
    rcases List.mem_append.mp pending with pending | added
    · exact pending
    · split_ifs at added <;> simp at added

/-- The reply is set running. -/
theorem deliver (h : Phase id v owns) {token : Token} {rest : List Token}
    (announced : v.announced = token :: rest) :
    Phase id { v with token := token, announced := rest } owns := by
  cases h with
  | waiting free empty none calls isAborted =>
    rw [none] at announced
    cases announced
  | announced key ne own empty one calls sent connected isAborted =>
    obtain ⟨rfl, rfl⟩ := List.cons.inj (one.symm.trans announced)
    refine .running ne own rfl sent connected (.inl ⟨calls, ?_⟩)
    dsimp only
    rw [isAborted]
    exact fun aborted => by cases aborted
  | running ne own none sent connected calls =>
    rw [none] at announced
    cases announced
  | ended free sent rejected => exact .ended free sent rejected

/-- The call that hands the reply to the protocol is handled. -/
theorem sendRequest (h : Phase id v owns) {connection : ConnectionId} {calls : List Call}
    {posted : List Token}
    (pending : v.calls = .sendRequest id connection :: calls)
    (registered : v.accepted = true ∧ (∃ key, key ≠ [] ∧
        (∀ k, owns' k → owns k ∨ k = key) ∧ posted = [key]) ∨
      (∀ k, owns' k → owns k) ∧ posted = []) :
    Phase id { v with
      announced := v.announced ++ posted
      calls := calls
      connected := v.accepted || v.connected } owns' := by
  cases h with
  | waiting free token announced one isAborted =>
    have last : calls = [] := by
      rcases one with none | ⟨-, connection', one⟩
      · rw [none] at pending
        cases pending
      · rw [one] at pending
        exact (List.cons.inj pending).2.symm
    have sent : v.sent = true := by
      rcases one with none | ⟨sent, -⟩
      · rw [none] at pending
        cases pending
      · exact sent
    rcases registered with ⟨accepted, key, ne, own, rfl⟩ | ⟨fewer, rfl⟩
    · refine .announced key ne ?_ token ?_ last sent (by simp [accepted]) isAborted
      · exact fun k o => (own k o).resolve_left (free k)
      · dsimp only
        rw [announced]
        rfl
    · refine .waiting (fun k o => free k (fewer k o)) token ?_ (.inl last) isAborted
      dsimp only
      rw [announced]
      rfl
  | announced key ne own token announced none sent connected isAborted =>
    rw [none] at pending
    cases pending
  | running ne own announced sent connected one =>
    rcases one with ⟨none, -⟩ | ⟨-, one⟩
    · rw [none] at pending
      cases pending
    · rw [one] at pending
      cases (List.cons.inj pending).1
  | ended free sent rejected =>
    have refused := rejected connection (by simp [pending])
    rcases registered with ⟨accepted, -⟩ | ⟨fewer, rfl⟩
    · rw [refused] at accepted
      cases accepted
    · refine .ended (fun k o => free k (fewer k o)) sent ?_
      intro connection' later
      exact rejected connection' (by simp [pending, later])

/-- The call that tells the protocol of the abort is handled. -/
theorem aborted (h : Phase id v owns) {token : Token} {calls : List Call}
    (pending : v.calls = .aborted id token :: calls) (fewer : ∀ k, owns' k → owns k)
    (gone : ¬ owns' token) : Phase id { v with calls := calls } owns' := by
  cases h with
  | waiting free empty announced one isAborted =>
    rcases one with none | ⟨-, connection', one⟩
    · rw [none] at pending
      cases pending
    · rw [one] at pending
      cases (List.cons.inj pending).1
  | announced key ne own empty announced none sent connected isAborted =>
    rw [none] at pending
    cases pending
  | running ne own announced sent connected one =>
    rcases one with ⟨none, -⟩ | ⟨aborted, one⟩
    · rw [none] at pending
      cases pending
    · obtain ⟨same, rfl⟩ := List.cons.inj (one.symm.trans pending)
      obtain rfl : v.token = token := by injection same
      refine .running ne (fun k o => own k (fewer k o)) announced sent connected
        (.inl ⟨rfl, fun _ k o => ?_⟩)
      obtain rfl := own k (fewer k o)
      exact gone o
  | ended free sent rejected =>
    refine .ended (fun k o => free k (fewer k o)) sent ?_
    intro connection later
    exact rejected connection (by simp [pending, later])

end Phase

end QtCoap
