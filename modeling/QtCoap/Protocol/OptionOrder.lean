import QtCoap.Protocol.UriOptions

namespace QtCoap

/-- A public mutator of the options of a `QCoapMessage`. -/
inductive OptionMutator
  | call (call : OptionCall)
  | setOptions (options : List CoapOption)
  deriving DecidableEq, Repr

/-- What the exchange of blocks does to the options of a request. -/
inductive BlockCall
  | setToRequestBlock (blockNumber blockSize : Nat)
  | setToSendBlock (blockNumber blockSize : Nat)
  deriving DecidableEq, Repr

def OptionMutator.apply (m : Message) : OptionMutator → Message
  | call c => c.apply m
  | setOptions options => m.setOptions options

def BlockCall.apply (r : InternalRequest) : BlockCall → InternalRequest
  | setToRequestBlock blockNumber blockSize => r.setToRequestBlock blockNumber blockSize
  | setToSendBlock blockNumber blockSize => r.setToSendBlock blockNumber blockSize

/-- `option.name() - lastOptionNumber` for each option that `toQByteArray` writes, before it is
stored as a `quint16`. -/
def optionDeltas : UInt8 → List CoapOption → List Int
  | _, [] => []
  | lastOptionNumber, option :: options =>
    ((option.name % 2 ^ 16 : Nat) - lastOptionNumber.toNat : Int) ::
      optionDeltas (UInt8.ofNat option.name) options

/-- What `toQByteArray` assumes: its assertion, and no delta below zero for 16-bit numbers. -/
def EncodesInOrder (options : List CoapOption) : Prop :=
  Message.Sorted options ∧
    ((∀ option ∈ options, option.name < 2 ^ 16) → ∀ delta ∈ optionDeltas 0 options, 0 ≤ delta)

theorem optionDeltas_nonneg {options : List CoapOption} (sorted : Message.Sorted options)
    (numbers : ∀ option ∈ options, option.name < 2 ^ 16) (lastOptionNumber : UInt8)
    (last : ∀ option ∈ options, lastOptionNumber.toNat ≤ option.name) :
    ∀ delta ∈ optionDeltas lastOptionNumber options, 0 ≤ delta := by
  induction options generalizing lastOptionNumber with
  | nil => simp [optionDeltas]
  | cons option options ih =>
    obtain ⟨least, sorted⟩ := List.pairwise_cons.mp sorted
    intro delta listed
    rcases List.mem_cons.mp listed with rfl | listed
    · have number := numbers option (by simp)
      have below := last option (by simp)
      omega
    · refine ih sorted (fun o ho => numbers o (by simp [ho])) _ (fun o ho => ?_) delta listed
      -- the last number is kept in eight bits, which makes it smaller at most
      have low : (UInt8.ofNat option.name).toNat ≤ option.name := by
        rw [UInt8.toNat_ofNat']
        exact Nat.mod_le ..
      exact low.trans (least o ho)

theorem encodesInOrder_iff (options : List CoapOption) :
    EncodesInOrder options ↔ Message.Sorted options := by
  refine ⟨And.left, fun sorted => ⟨sorted, fun numbers => ?_⟩⟩
  exact optionDeltas_nonneg sorted numbers 0 (fun o _ => Nat.zero_le _)

theorem OptionMutator.apply_sorted {m : Message} {mutator : OptionMutator}
    (h : Message.Sorted m.options)
    (given : ∀ options, mutator = .setOptions options → Message.Sorted options) :
    Message.Sorted (mutator.apply m).options := by
  cases mutator with
  | call c => exact OptionCall.apply_sorted h c
  | setOptions options => exact given options rfl

theorem BlockCall.apply_sorted {r : InternalRequest} (h : Message.Sorted r.message.options)
    (call : BlockCall) : Message.Sorted (call.apply r).message.options := by
  cases call with
  | setToRequestBlock blockNumber blockSize =>
    simp only [apply, InternalRequest.setToRequestBlock]
    split_ifs
    · exact h
    · refine Message.addOption_sorted _ _ ?_
      exact Message.removeOption_sorted (Message.removeOption_sorted h _) _
  | setToSendBlock blockNumber blockSize =>
    simp only [apply, InternalRequest.setToSendBlock]
    split_ifs
    · exact h
    · refine Message.addOption_sorted _ _ ?_
      exact Message.removeOption_sorted h _

variable (Addr : Type) [Platform Addr]

/-- The URI options neither put a list in order nor out of it. -/
theorem ofRequest_sorted_iff (request : Request) :
    Message.Sorted (InternalRequest.ofRequest Addr request).message.options ↔
      Message.Sorted request.message.options := by
  rw [InternalRequest.ofRequest_eq]
  dsimp only
  rw [Message.addOptions_eq]
  constructor
  · intro sorted
    exact sorted.sublist (Framework.sublist_insertAll CoapOption.name _ _)
  · exact Framework.insertAll_sorted CoapOption.name _ _

/-- The list that the encoder gets is in order along every run of the mutators that gives
`setOptions` ordered lists only, and a list handed over as it was set is in order for the encoder
exactly if it was when it was set. -/
theorem encoder_order :
    (∀ (m : Message) (mutators : List OptionMutator) (request : Request)
        (blocks : List BlockCall),
      (∀ options, .setOptions options ∈ mutators → Message.Sorted options) →
      request.message = mutators.foldl OptionMutator.apply m.clearOptions →
      EncodesInOrder
        (blocks.foldl BlockCall.apply (InternalRequest.ofRequest Addr request)).message.options) ∧
    ∀ (m : Message) (options : List CoapOption) (request : Request),
      request.message = m.setOptions options →
      (EncodesInOrder (InternalRequest.ofRequest Addr request).message.options ↔
        Message.Sorted options) := by
  constructor
  · intro m mutators request blocks given built
    rw [encodesInOrder_iff]
    have mutated : Message.Sorted request.message.options := by
      rw [built]
      suffices walk : ∀ m : Message, Message.Sorted m.options →
          Message.Sorted (mutators.foldl OptionMutator.apply m).options from
        walk _ m.clearOptions_sorted
      clear built
      induction mutators with
      | nil => exact fun m sorted => sorted
      | cons mutator mutators ih =>
        intro m sorted
        refine ih (fun options later => given options (by simp [later])) _ ?_
        exact OptionMutator.apply_sorted sorted (fun options set => given options (by simp [set]))
    have converted := (ofRequest_sorted_iff Addr request).mpr mutated
    generalize InternalRequest.ofRequest Addr request = r at converted
    induction blocks generalizing r with
    | nil => exact converted
    | cons call blocks ih => exact ih _ (BlockCall.apply_sorted converted call)
  · intro m options request set
    rw [encodesInOrder_iff, ofRequest_sorted_iff, set]
    rfl

/-- A request whose options are set in order, and the first block of its payload. -/
def orderedMutators : List OptionMutator :=
  [.setOptions [⟨OptionName.contentFormat, [50]⟩, ⟨OptionName.accept, [50]⟩],
    .call (.addOption (CoapOption.ofString OptionName.uriPath "a".toList)),
    .call (.removeOption OptionName.accept)]

def orderedRequest : Request :=
  { message := orderedMutators.foldl OptionMutator.apply { payload := List.replicate 20 0 }
    uri := { scheme := coapScheme, host := "10.20.30.40".toList, port := 1234, path := ['/', 'b'] }
    method := Method.put }

theorem orderedRequest_encodes :
    EncodesInOrder ([BlockCall.setToSendBlock 0 16].foldl BlockCall.apply
      (InternalRequest.ofRequest IPv4Address orderedRequest)).message.options := by
  refine (encoder_order IPv4Address).1 { payload := List.replicate 20 0 } orderedMutators
    orderedRequest [.setToSendBlock 0 16] (fun options set => ?_) rfl
  have first : options = [⟨OptionName.contentFormat, [50]⟩, ⟨OptionName.accept, [50]⟩] := by
    simpa [orderedMutators] using set
  rw [first]
  decide

/-- A Content-Format option set behind an Accept option, in a request to `10.20.30.40`. -/
def unorderedRequest : Request :=
  { message := Message.setOptions {} [⟨OptionName.accept, []⟩, ⟨OptionName.contentFormat, []⟩]
    uri := { scheme := coapScheme, host := "10.20.30.40".toList, port := 5683 }
    method := Method.get }

theorem setOptions_unordered :
    let options := (InternalRequest.ofRequest IPv4Address unorderedRequest).message.options
    ¬ EncodesInOrder options ∧ optionDeltas 0 options = [17, -5] := by
  refine ⟨fun inOrder => ?_, by decide⟩
  have sorted := (encodesInOrder_iff _).mp inOrder
  revert sorted
  decide

end QtCoap
