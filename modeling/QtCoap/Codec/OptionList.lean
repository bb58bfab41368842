import QtCoap.Codec.Message

namespace QtCoap

namespace Message

variable (m : Message) (o : CoapOption)

/-- `QCoapMessage::removeOption(const QCoapOption &)`, of the first one with this name and
value. -/
def removeOne : Message := { m with options := m.options.erase o }

/-- `QCoapMessage::setOptions`: taken as they come. -/
def setOptions (options : List CoapOption) : Message := { m with options := options }

/-- The place that `std::upper_bound` finds by halving is the one `addOption` inserts at, as
long as the list is in order. -/
theorem addOption_bisect (h : Sorted m.options) :
    (m.addOption o).options =
      m.options.insertIdx (Framework.bisect CoapOption.name o m.options.length m.options) o := by
  rw [Framework.bisect_eq_upperBound CoapOption.name o _ _ le_rfl h]
  rfl

/-- Adds one option after the other. -/
def addOptions (options : List CoapOption) : Message := options.foldl addOption m

theorem addOptions_eq (options : List CoapOption) :
    m.addOptions options =
      { m with options := Framework.insertAll CoapOption.name options m.options } := by
  simp only [addOptions, Framework.insertAll]
  induction options generalizing m with
  | nil => rfl
  | cons option options ih => exact ih (m.addOption option)

theorem addOptions_append (options options' : List CoapOption) :
    m.addOptions (options ++ options') = (m.addOptions options).addOptions options' :=
  List.foldl_append

theorem hasOption_eq (name : Nat) : m.hasOption name = !(m.optionsNamed name).isEmpty := by
  simp only [hasOption, optionsNamed]
  induction m.options with
  | nil => rfl
  | cons o options ih =>
    by_cases h : o.name = name <;> simp [h, ih]

theorem option_eq (name : Nat) : m.option name = (m.optionsNamed name).head?.getD {} := by
  simp only [option, optionsNamed]
  rw [List.head?_filter]
  rfl

theorem optionsNamed_removeOption (removed name : Nat) :
    (m.removeOption removed).optionsNamed name =
      if removed = name then [] else m.optionsNamed name := by
  simp only [removeOption, optionsNamed]
  rw [List.filter_filter]
  split_ifs with same
  · subst same
    rw [List.filter_eq_nil_iff]
    intro o _
    simp
  · apply List.filter_congr
    intro o _
    by_cases h : o.name = name
    · have kept : o.name ≠ removed := by omega
      simp [h, Ne.symm same]
    · simp [h]

theorem optionsNamed_addOption_of_ne {o : CoapOption} {name : Nat} (h : o.name ≠ name) :
    (m.addOption o).optionsNamed name = m.optionsNamed name :=
  Framework.filter_insertUpper_of_neg CoapOption.name m.options (by simpa using h)

theorem optionsNamed_addOption_of_none (o : CoapOption) (h : m.optionsNamed o.name = []) :
    (m.addOption o).optionsNamed o.name = [o] :=
  Framework.filter_insertUpper_of_none CoapOption.name o m.options h

theorem optionsNamed_removeOne (name : Nat) :
    (m.removeOne o).optionsNamed name =
      if o.name = name then (m.optionsNamed name).erase o else m.optionsNamed name := by
  simp only [removeOne, optionsNamed]
  rw [Framework.filter_erase]
  simp only [decide_eq_true_eq]

@[simp] theorem optionsNamed_clearOptions (name : Nat) :
    m.clearOptions.optionsNamed name = [] := rfl

variable {m}

theorem name_of_head {name : Nat} {option : CoapOption}
    (first : option ∈ (m.optionsNamed name).head?) : option.name = name := by
  have listed := List.mem_of_head? (Option.mem_def.mp first)
  simpa using (List.mem_filter.mp listed).2

theorem removeOption_sorted (h : Sorted m.options) (name : Nat) :
    Sorted (m.removeOption name).options := List.Pairwise.filter _ h

theorem removeOne_sorted (h : Sorted m.options) (o : CoapOption) :
    Sorted (m.removeOne o).options := h.sublist List.erase_sublist

theorem clearOptions_sorted (m : Message) : Sorted m.clearOptions.options := List.Pairwise.nil

end Message

/-- A call that changes the list of options by one of its members, a name or as a whole. -/
inductive OptionCall
  | addOption (option : CoapOption)
  | removeOne (option : CoapOption)
  | removeOption (name : Nat)
  | clearOptions
  deriving DecidableEq, Repr

namespace OptionCall

def apply (m : Message) : OptionCall → Message
  | addOption option => m.addOption option
  | removeOne option => m.removeOne option
  | removeOption name => m.removeOption name
  | clearOptions => m.clearOptions

/-- The purpose of the list: for each name the options added under it, in the order of adding. -/
def plain (name : Nat) (options : List CoapOption) : OptionCall → List CoapOption
  | addOption option => if option.name = name then options ++ [option] else options
  | removeOne option => if option.name = name then options.erase option else options
  | removeOption removed => if removed = name then [] else options
  | clearOptions => []

theorem apply_sorted {m : Message} (h : Message.Sorted m.options) (call : OptionCall) :
    Message.Sorted (call.apply m).options := by
  cases call with
  | addOption option => exact m.addOption_sorted option h
  | removeOne option => exact Message.removeOne_sorted h option
  | removeOption name => exact Message.removeOption_sorted h name
  | clearOptions => exact m.clearOptions_sorted

/-- Each call does to every name what it does to the plain list of that name. -/
theorem apply_plain {m : Message} (h : Message.Sorted m.options) (call : OptionCall)
    (name : Nat) :
    (call.apply m).optionsNamed name = call.plain name (m.optionsNamed name) := by
  cases call with
  | addOption option =>
    simp only [apply, plain]
    rw [m.optionsNamed_addOption option name h]
    split_ifs
    · rfl
    · exact List.append_nil _
  | removeOne option => exact m.optionsNamed_removeOne option name
  | removeOption removed => exact m.optionsNamed_removeOption removed name
  | clearOptions => rfl

/-- Over a whole sequence of calls. -/
theorem foldl_plain {m : Message} (h : Message.Sorted m.options) (calls : List OptionCall) :
    Message.Sorted (calls.foldl apply m).options ∧
      ∀ name, (calls.foldl apply m).optionsNamed name =
        calls.foldl (plain name) (m.optionsNamed name) := by
  induction calls generalizing m with
  | nil => exact ⟨h, fun name => rfl⟩
  | cons call calls ih =>
    obtain ⟨sorted, refined⟩ := ih (apply_sorted h call)
    refine ⟨sorted, fun name => ?_⟩
    rw [List.foldl_cons, List.foldl_cons, refined name, apply_plain h call name]

end OptionCall

/-- The list of options is an ordered multimap: what a name maps to depends on the calls for this
name alone, and the first of it is what `option` gives. -/
theorem optionList_multimap (m : Message) (calls : List OptionCall) :
    let built := calls.foldl OptionCall.apply m.clearOptions
    Message.Sorted built.options ∧
      ∀ name,
        built.optionsNamed name = calls.foldl (OptionCall.plain name) [] ∧
        built.option name = (built.optionsNamed name).head?.getD {} ∧
        built.hasOption name = !(built.optionsNamed name).isEmpty := by
  obtain ⟨sorted, refined⟩ := OptionCall.foldl_plain m.clearOptions_sorted calls
  exact ⟨sorted, fun name => ⟨refined name, Message.option_eq _ name, Message.hasOption_eq _ name⟩⟩

/-- Uri-Path segments keep their order around an option of a smaller and one of a larger number. -/
example :
    let path (segment : String) := CoapOption.ofString OptionName.uriPath segment.toList
    (([.addOption (path "a"), .addOption ⟨OptionName.block2, []⟩, .addOption (path "b"),
        .addOption ⟨OptionName.observe, []⟩, .addOption (path "a"), .removeOne (path "a"),
        .removeOption OptionName.block2] : List OptionCall).foldl OptionCall.apply {}).optionsNamed
      OptionName.uriPath = [path "b", path "a"] := by
  decide

end QtCoap
