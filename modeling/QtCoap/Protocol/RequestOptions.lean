import QtCoap.Codec.OptionList
import QtCoap.Protocol.BlockOption

namespace QtCoap

/-- Without a Block1 option no block of the request is asked for. -/
theorem InternalReply.hasMoreBlocksToSend_of_none {reply : InternalReply}
    (none : reply.message.optionsNamed OptionName.block1 = []) (junk : UInt8) :
    reply.hasMoreBlocksToSend junk = false := by
  have invalid : (reply.message.option OptionName.block1).isValid = false := by
    rw [Message.option_eq, none]
    rfl
  simp only [InternalReply.hasMoreBlocksToSend, InternalReply.nextBlockToSend]
  simp [invalid]

/-- The block that a request asks for: the number in its Block2 option, or else 0. -/
def askedBlock (message : Message) : Nat :=
  ((message.optionsNamed OptionName.block2).head?.map fun o => bigEndian o.value / 16).getD 0

namespace InternalRequest

variable (r : InternalRequest)

theorem checkBlockNumber_iff (number : Nat) : checkBlockNumber number = true ↔ number < 2 ^ 20 := by
  simp only [checkBlockNumber]
  rw [Nat.shiftRight_eq_div_pow, beq_iff_eq]
  omega

/-- Block2 options of a block request: only the one with the number asked for. -/
theorem optionsNamed_setToRequestBlock (size : Nat) {number : Nat} (small : number < 2 ^ 20) :
    (r.setToRequestBlock number size).message.optionsNamed OptionName.block2 =
      [r.blockOption OptionName.block2 number size] := by
  simp only [setToRequestBlock]
  rw [if_neg (by simp [(checkBlockNumber_iff number).mpr small])]
  apply Message.optionsNamed_addOption_of_none
  exact (Message.optionsNamed_removeOption ..).trans (if_pos rfl)

theorem askedBlock_setToRequestBlock (size : Nat) {number : Nat} (small : number < 2 ^ 20) :
    askedBlock (r.setToRequestBlock number size).message = number := by
  have szx := szxOf_le size
  simp only [askedBlock]
  rw [optionsNamed_setToRequestBlock r size small]
  dsimp only [List.head?_cons, Option.map_some, Option.getD_some]
  rw [bigEndian_blockOption_block2 r size small]
  omega

theorem setToRequestBlock_of_large (size : Nat) {number : Nat} (large : ¬ number < 2 ^ 20) :
    r.setToRequestBlock number size = r := by
  simp only [setToRequestBlock]
  rw [if_pos]
  rw [← checkBlockNumber_iff] at large
  simpa using large

theorem block1_setToRequestBlock (size : Nat) {number : Nat} (small : number < 2 ^ 20) :
    (r.setToRequestBlock number size).message.optionsNamed OptionName.block1 = [] := by
  simp only [setToRequestBlock]
  rw [if_neg (by simp [(checkBlockNumber_iff number).mpr small])]
  have other : OptionName.block2 ≠ OptionName.block1 := by decide
  refine (Message.optionsNamed_addOption_of_ne _ other).trans ?_
  refine (Message.optionsNamed_removeOption ..).trans ?_
  rw [if_neg other]
  exact (Message.optionsNamed_removeOption ..).trans (if_pos rfl)

/-- A block that is sent: the option and the payload. -/
theorem optionsNamed_setToSendBlock (size : Nat) {number : Nat} (small : number < 2 ^ 20) :
    (r.setToSendBlock number size).message.optionsNamed OptionName.block1 =
      [r.blockOption OptionName.block1 number size] := by
  simp only [setToSendBlock]
  rw [if_neg (by simp [(checkBlockNumber_iff number).mpr small])]
  apply Message.optionsNamed_addOption_of_none
  exact (Message.optionsNamed_removeOption ..).trans (if_pos rfl)

theorem payload_setToSendBlock (size : Nat) {number : Nat} (small : number < 2 ^ 20) :
    (r.setToSendBlock number size).message.payload =
      QByteArray.mid r.fullPayload (number * size) size := by
  simp only [setToSendBlock]
  rw [if_neg (by simp [(checkBlockNumber_iff number).mpr small])]
  rfl

theorem setToSendBlock_of_large (size : Nat) {number : Nat} (large : ¬ number < 2 ^ 20) :
    r.setToSendBlock number size = r := by
  simp only [setToSendBlock]
  rw [if_pos]
  rw [← checkBlockNumber_iff] at large
  simpa using large

theorem optionsNamed_setToRequestBlock_of_ne (number size : Nat) {name : Nat}
    (block1 : name ≠ OptionName.block1) (block2 : name ≠ OptionName.block2) :
    (r.setToRequestBlock number size).message.optionsNamed name = r.message.optionsNamed name := by
  simp only [setToRequestBlock]
  split_ifs
  · rfl
  · refine (Message.optionsNamed_addOption_of_ne _ (Ne.symm block2)).trans ?_
    refine (Message.optionsNamed_removeOption ..).trans ?_
    rw [if_neg (Ne.symm block2)]
    refine (Message.optionsNamed_removeOption ..).trans ?_
    rw [if_neg (Ne.symm block1)]

theorem optionsNamed_setToSendBlock_of_ne (number size : Nat) {name : Nat}
    (block1 : name ≠ OptionName.block1) :
    (r.setToSendBlock number size).message.optionsNamed name = r.message.optionsNamed name := by
  simp only [setToSendBlock]
  split_ifs
  · rfl
  · refine (Message.optionsNamed_addOption_of_ne _ (Ne.symm block1)).trans ?_
    refine (Message.optionsNamed_removeOption ..).trans ?_
    rw [if_neg (Ne.symm block1)]
    rfl

theorem optionsNamed_addParts {name : Nat} (parts : List QString) {other : Nat}
    (h : name ≠ other) :
    (r.addParts name parts).message.optionsNamed other = r.message.optionsNamed other := by
  simp only [addParts]
  generalize parts.filter (fun part => !part.isEmpty) = parts
  induction parts generalizing r with
  | nil => rfl
  | cons part parts ih =>
    rw [List.foldl_cons, ih]
    exact Message.optionsNamed_addOption_of_ne _ h

/-- The options that `addUriOptions` adds. -/
def uriOptionNames : List Nat :=
  [OptionName.uriHost, OptionName.uriPort, OptionName.uriPath, OptionName.uriQuery,
    OptionName.proxyUri]

theorem optionsNamed_addUriOptions (Addr : Type) [Platform Addr] (uri proxyUri : Url) {name : Nat}
    (other : name ∉ uriOptionNames) :
    (r.addUriOptions Addr uri proxyUri).message.optionsNamed name =
      r.message.optionsNamed name := by
  simp only [uriOptionNames, List.mem_cons, List.not_mem_nil, or_false, not_or] at other
  obtain ⟨host, port, path, query, proxy⟩ := other
  have hostOption (q : InternalRequest)
      (valid : (uriHostOption Addr uri.normalizePathSegments).isValid = true) :
      (q.addOption (uriHostOption Addr uri.normalizePathSegments)).message.optionsNamed name =
        q.message.optionsNamed name := by
    apply Message.optionsNamed_addOption_of_ne
    unfold uriHostOption at valid ⊢
    split_ifs at valid ⊢ with null
    · exact Ne.symm host
    · cases valid
  have portOption (q : InternalRequest) (value : UInt32) :
      (q.addOption (CoapOption.ofUint OptionName.uriPort value)).message.optionsNamed name =
        q.message.optionsNamed name :=
    Message.optionsNamed_addOption_of_ne _ (Ne.symm port)
  simp only [addUriOptions]
  split_ifs with _ _ _ hasPort hasHost hasHost
  · rfl
  · exact Message.optionsNamed_addOption_of_ne _ (Ne.symm proxy)
  · rfl
  all_goals
    refine (optionsNamed_addParts _ _ (Ne.symm query)).trans ?_
    refine (optionsNamed_addParts _ _ (Ne.symm path)).trans ?_
  · rw [portOption, hostOption _ hasHost]
  · rw [portOption]
  · rw [hostOption _ hasHost]
  · rfl

theorem optionsNamed_ofRequest (Addr : Type) [Platform Addr] (request : Request) {name : Nat}
    (other : name ∉ uriOptionNames) :
    (ofRequest Addr request).message.optionsNamed name = request.message.optionsNamed name :=
  optionsNamed_addUriOptions _ Addr request.uri request.proxyUri other

end InternalRequest

end QtCoap
