import QtCoap.Reply.Utf8

namespace QtCoap

/-! Decimal numbers, as they are written and as Qt reads them. -/

namespace QString

def ofInt : Int → QString
  | .ofNat n => Nat.toDigits 10 n
  | .negSucc n => '-' :: Nat.toDigits 10 (n + 1)

theorem isDigit_of_mem {n : Nat} {c : Char} (h : c ∈ Nat.toDigits 10 n) : c.isDigit = true :=
  Nat.isDigit_of_mem_toDigits (by decide) (by decide) h

theorem decimal_toDigits (n : Nat) : decimal (Nat.toDigits 10 n) = some n := by
  have digits : (Nat.toDigits 10 n).all Char.isDigit = true :=
    List.all_eq_true.mpr fun c hc => isDigit_of_mem hc
  have ne : (Nat.toDigits 10 n).isEmpty = false := by
    rw [List.isEmpty_eq_false_iff]
    exact Nat.toDigits_ne_nil
  have value := @Nat.ofDigitChars_ten_toDigits n
  rw [Nat.ofDigitChars_eq_foldl] at value
  rw [decimal, digits, ne]
  simp only [Bool.not_true, Bool.or_false, Bool.false_eq_true, if_false, Option.some.injEq]
  refine Eq.trans ?_ value
  congr 1
  funext m c
  rw [Nat.mul_comm]

theorem mem_ofInt {n : Int} {c : Char} (h : c ∈ ofInt n) : c = '-' ∨ c.isDigit = true := by
  cases n with
  | ofNat n => exact .inr (isDigit_of_mem h)
  | negSucc n =>
    rcases List.mem_cons.mp h with rfl | later
    · exact .inl rfl
    · exact .inr (isDigit_of_mem later)

theorem number_ofInt (n : Int) : number (ofInt n) = some n := by
  have solid : ∀ c ∈ ofInt n, ¬ c.isWhitespace = true := by
    intro c hc
    rcases mem_ofInt hc with rfl | digit
    · decide
    · intro blank
      simp only [Char.isWhitespace, Bool.or_eq_true, decide_eq_true_eq] at blank
      rcases blank with ((rfl | rfl) | rfl) | rfl
      all_goals exact absurd digit (by decide)
  have trimmed {s : QString} (h : ∀ c ∈ s, ¬ c.isWhitespace = true) :
      s.dropWhile Char.isWhitespace = s := by
    cases s with
    | nil => rfl
    | cons c s => exact List.dropWhile_cons_of_neg (h c (by simp))
  rw [number, trimmed solid, trimmed (fun c hc => solid c (List.mem_reverse.mp hc)),
    List.reverse_reverse]
  cases n with
  | ofNat n =>
    have first {c : Char} {s : QString} (digits : Nat.toDigits 10 n = c :: s) :
        c.isDigit = true := isDigit_of_mem (digits ▸ List.mem_cons_self)
    simp only [ofInt]
    split
    · exact absurd (first ‹_›) (by decide)
    · exact absurd (first ‹_›) (by decide)
    · rw [decimal_toDigits]
      rfl
  | negSucc n =>
    simp only [ofInt]
    rw [decimal_toDigits]
    rfl

/-- In quotation marks. -/
def quoted (s : QString) : QString := '"' :: s ++ ['"']

theorem removeQuote_eq {s : QString} (h : '"' ∉ s) : removeQuote s = s :=
  List.filter_eq_self.mpr fun _ hc => bne_iff_ne.mpr fun same => h (same ▸ hc)

theorem removeQuote_quoted {s : QString} (h : '"' ∉ s) : removeQuote (quoted s) = s := by
  have kept : s.filter (· != '"') = s := removeQuote_eq h
  rw [removeQuote, quoted, List.filter_append, List.filter_cons_of_neg (by decide), kept]
  exact List.append_nil s

theorem removeQuote_ofInt (n : Int) : removeQuote (ofInt n) = ofInt n := by
  refine removeQuote_eq fun inside => ?_
  rcases mem_ofInt inside with same | digit
  · exact absurd same (by decide)
  · exact absurd digit (by decide)

end QString

/-! The format of the links, and what the reading makes of one parameter. -/

namespace Resource

variable {Addr : Type}

/-- An attribute, which a brief link leaves out where it has the default value. -/
def linkAttribute (brief isDefault : Bool) (text : QString) : List QString :=
  if brief && isDefault then [] else [text]

/-- A link: the target, and the attributes of it. -/
def parameters (brief : Bool) (resource : Resource Addr) : List QString :=
  ["<".toList ++ (resource.path ++ ['>'])] ++
    linkAttribute brief resource.title.isEmpty ("title=".toList ++ QString.quoted resource.title) ++
    linkAttribute brief resource.resourceType.isEmpty
      ("rt=".toList ++ QString.quoted resource.resourceType) ++
    linkAttribute brief resource.interface.isEmpty
      ("if=".toList ++ QString.quoted resource.interface) ++
    linkAttribute brief (resource.maximumSize = -1)
      ("sz=".toList ++ QString.ofInt resource.maximumSize) ++
    linkAttribute brief (resource.contentFormat = 0)
      ("ct=".toList ++ QString.ofInt resource.contentFormat) ++
    linkAttribute true (!resource.observable) "obs".toList

/-- The texts that are looked for. -/
theorem literals :
    literal "<" = [60] ∧ literal "title=" = [116, 105, 116, 108, 101, 61] ∧
      literal "rt=" = [114, 116, 61] ∧ literal "if=" = [105, 102, 61] ∧
      literal "sz=" = [115, 122, 61] ∧ literal "ct=" = [99, 116, 61] ∧
      literal "obs" = [111, 98, 115] := by
  decide

section Parameters

variable (resource : Resource Addr)

/-- A key with a value: the text that is read, and the bytes that the key is looked for in. -/
theorem keyed (key : String) (value : QString) :
    QByteArray.fromUtf8 (QString.toUtf8 (key.toList ++ value)) = key.toList ++ value ∧
      QString.toUtf8 (key.toList ++ value) = literal key ++ QString.toUtf8 value :=
  ⟨QByteArray.fromUtf8_toUtf8 _, QString.toUtf8_append ..⟩

theorem setParameter_path (path : QString) :
    resource.setParameter (QString.toUtf8 ("<".toList ++ (path ++ ['>']))) =
      { resource with path := path } := by
  obtain ⟨text, bytes⟩ := keyed "<" (path ++ ['>'])
  obtain ⟨less, -⟩ := literals
  simp only [setParameter]
  rw [text, bytes, less]
  simp

theorem setParameter_title {title : QString} (h : '"' ∉ title) :
    resource.setParameter (QString.toUtf8 ("title=".toList ++ QString.quoted title)) =
      { resource with title := title } := by
  obtain ⟨text, bytes⟩ := keyed "title=" (QString.quoted title)
  obtain ⟨less, own, -⟩ := literals
  simp only [setParameter]
  rw [text, bytes, less, own]
  simp [QString.removeQuote_quoted h]

theorem setParameter_resourceType {resourceType : QString} (h : '"' ∉ resourceType) :
    resource.setParameter (QString.toUtf8 ("rt=".toList ++ QString.quoted resourceType)) =
      { resource with resourceType := resourceType } := by
  obtain ⟨text, bytes⟩ := keyed "rt=" (QString.quoted resourceType)
  obtain ⟨less, title, own, -⟩ := literals
  simp only [setParameter]
  rw [text, bytes, less, title, own]
  simp [QString.removeQuote_quoted h]

theorem setParameter_interface {interface : QString} (h : '"' ∉ interface) :
    resource.setParameter (QString.toUtf8 ("if=".toList ++ QString.quoted interface)) =
      { resource with interface := interface } := by
  obtain ⟨text, bytes⟩ := keyed "if=" (QString.quoted interface)
  obtain ⟨less, title, resourceType, own, -⟩ := literals
  simp only [setParameter]
  rw [text, bytes, less, title, resourceType, own]
  simp [QString.removeQuote_quoted h]

theorem setParameter_maximumSize {size : Int} (above : -2 ^ 31 ≤ size) (below : size < 2 ^ 31) :
    resource.setParameter (QString.toUtf8 ("sz=".toList ++ QString.ofInt size)) =
      { resource with maximumSize := size } := by
  obtain ⟨text, bytes⟩ := keyed "sz=" (QString.ofInt size)
  obtain ⟨less, title, resourceType, interface, own, -⟩ := literals
  have value : QString.toInt (QString.removeQuote (QString.ofInt size)) = size := by
    rw [QString.removeQuote_ofInt, QString.toInt, QString.number_ofInt]
    exact if_pos ⟨above, below⟩
  simp only [setParameter]
  rw [text, bytes, less, title, resourceType, interface, own]
  simp [value]

theorem setParameter_contentFormat {format : Nat} (below : format < 2 ^ 32) :
    resource.setParameter (QString.toUtf8 ("ct=".toList ++ QString.ofInt format)) =
      { resource with contentFormat := format } := by
  obtain ⟨text, bytes⟩ := keyed "ct=" (QString.ofInt format)
  obtain ⟨less, title, resourceType, interface, maximumSize, own, -⟩ := literals
  have value : QString.toUInt (QString.removeQuote (QString.ofInt format)) = format := by
    rw [QString.removeQuote_ofInt, QString.toUInt, QString.number_ofInt]
    exact if_pos ⟨by omega, by omega⟩
  simp only [setParameter]
  rw [text, bytes, less, title, resourceType, interface, maximumSize, own]
  simp [value]

theorem setParameter_observable :
    resource.setParameter (QString.toUtf8 "obs".toList) = { resource with observable := true } := by
  obtain ⟨less, title, resourceType, interface, maximumSize, contentFormat, own⟩ := literals
  have bytes : QString.toUtf8 "obs".toList = literal "obs" := rfl
  simp only [setParameter]
  rw [bytes, less, title, resourceType, interface, maximumSize, contentFormat, own]
  simp

end Parameters

/-- A link that the format can hold: the target has an end and the texts stay in their quotation
marks. The sizes are those of the types they have in the code. -/
structure IsLink (resource : Resource Addr) : Prop where
  path_ne : resource.path ≠ []
  path : '>' ∉ resource.path
  title : '"' ∉ resource.title
  resourceType : '"' ∉ resource.resourceType
  interface : '"' ∉ resource.interface
  maximumSize : -2 ^ 31 ≤ resource.maximumSize ∧ resource.maximumSize < 2 ^ 31
  contentFormat : resource.contentFormat < 2 ^ 32

/-- None of the texts holds a separator. -/
def Unseparated (resource : Resource Addr) : Prop :=
  ∀ text ∈ [resource.path, resource.title, resource.resourceType, resource.interface],
    ',' ∉ text ∧ ';' ∉ text

instance (resource : Resource Addr) : Decidable resource.Unseparated :=
  inferInstanceAs (Decidable (∀ text ∈ _, _))

theorem foldl_linkAttribute {resource set : Resource Addr} {text : QString}
    (brief isDefault : Bool) (given : resource.setParameter (QString.toUtf8 text) = set)
    (omitted : isDefault = true → resource = set) :
    ((linkAttribute brief isDefault text).map QString.toUtf8).foldl setParameter resource =
      set := by
  rw [linkAttribute]
  split_ifs with absent
  · exact omitted (Bool.and_eq_true_iff.mp absent).2
  · exact given

theorem foldl_observable (resource : Resource Addr) (h : resource.observable = false) (b : Bool) :
    ((linkAttribute true (!b) "obs".toList).map QString.toUtf8).foldl setParameter resource =
      { resource with observable := b } := by
  cases b with
  | false => exact congrArg (fun b => { resource with observable := b }) h
  | true => exact setParameter_observable resource

/-- The parameters of a link give the resource back. -/
theorem foldl_parameters {resource : Resource Addr} (h : resource.IsLink) (brief : Bool)
    (sender : Addr) :
    ((resource.parameters brief).map QString.toUtf8).foldl setParameter { host := sender } =
      { resource with host := sender } := by
  let r1 : Resource Addr := { host := sender, path := resource.path }
  let r2 : Resource Addr := { r1 with title := resource.title }
  let r3 : Resource Addr := { r2 with resourceType := resource.resourceType }
  let r4 : Resource Addr := { r3 with interface := resource.interface }
  let r5 : Resource Addr := { r4 with maximumSize := resource.maximumSize }
  let r6 : Resource Addr := { r5 with contentFormat := resource.contentFormat }
  have path : setParameter { host := sender }
      (QString.toUtf8 ("<".toList ++ (resource.path ++ ['>']))) = r1 := setParameter_path ..
  have title := foldl_linkAttribute brief resource.title.isEmpty
    (setParameter_title r1 h.title) fun empty => by rw [List.isEmpty_iff.mp empty]
  have resourceType := foldl_linkAttribute brief resource.resourceType.isEmpty
    (setParameter_resourceType r2 h.resourceType) fun empty => by rw [List.isEmpty_iff.mp empty]
  have interface := foldl_linkAttribute brief resource.interface.isEmpty
    (setParameter_interface r3 h.interface) fun empty => by rw [List.isEmpty_iff.mp empty]
  have maximumSize := foldl_linkAttribute brief (resource.maximumSize = -1)
    (setParameter_maximumSize r4 h.maximumSize.1 h.maximumSize.2)
    fun unknown => by rw [of_decide_eq_true unknown]
  have contentFormat := foldl_linkAttribute brief (resource.contentFormat = 0)
    (setParameter_contentFormat r5 h.contentFormat)
    fun zero => by rw [of_decide_eq_true zero]
  simp only [parameters, List.map_append, List.foldl_append, List.map_cons, List.map_nil,
    List.foldl_cons, List.foldl_nil]
  rw [path, title, resourceType, interface, maximumSize, contentFormat]
  exact foldl_observable r6 rfl resource.observable

theorem mem_linkAttribute {brief isDefault : Bool} {text text' : QString}
    (h : text' ∈ linkAttribute brief isDefault text) : text' = text := by
  rw [linkAttribute] at h
  split_ifs at h
  · cases h
  · exact List.mem_singleton.mp h

theorem not_mem_parameters {a : Char} (separator : a = ',' ∨ a = ';') {resource : Resource Addr}
    (h : ∀ text ∈ [resource.path, resource.title, resource.resourceType, resource.interface],
      a ∉ text) (brief : Bool) : ∀ text ∈ resource.parameters brief, a ∉ text := by
  have keyed (key : String) {value : QString} (free : ',' ∉ key.toList ∧ ';' ∉ key.toList)
      (given : a ∉ value) : a ∉ key.toList ++ value := by
    have own : a ∉ key.toList := by
      rcases separator with rfl | rfl
      · exact free.1
      · exact free.2
    rw [List.mem_append]
    tauto
  have quoted {text : QString} (given : a ∉ text) : a ∉ QString.quoted text := by
    rw [QString.quoted]
    rcases separator with rfl | rfl
    all_goals simp [given]
  have number (n : Int) : a ∉ QString.ofInt n := by
    intro inside
    rcases QString.mem_ofInt inside with rfl | digit
    · revert separator
      decide
    · rcases separator with rfl | rfl
      all_goals exact absurd digit (by decide)
  intro text listed
  simp only [parameters, List.mem_append, List.mem_singleton] at listed
  rcases listed with
    (((((rfl | title) | resourceType) | interface) | maximumSize) | contentFormat) | observable
  · refine keyed "<" (by decide) ?_
    have path := h resource.path (by simp)
    rcases separator with rfl | rfl
    all_goals simp [path]
  · rw [mem_linkAttribute title]
    exact keyed "title=" (by decide) (quoted (h _ (by simp)))
  · rw [mem_linkAttribute resourceType]
    exact keyed "rt=" (by decide) (quoted (h _ (by simp)))
  · rw [mem_linkAttribute interface]
    exact keyed "if=" (by decide) (quoted (h _ (by simp)))
  · rw [mem_linkAttribute maximumSize]
    exact keyed "sz=" (by decide) (number _)
  · rw [mem_linkAttribute contentFormat]
    exact keyed "ct=" (by decide) (number _)
  · rw [mem_linkAttribute observable]
    rcases separator with rfl | rfl
    all_goals decide

/-! Nothing that is read holds a separator. -/

theorem Unseparated.setParameter {resource : Resource Addr} (h : resource.Unseparated)
    {parameter : QByteArray} (cell : 44 ∉ parameter ∧ 59 ∉ parameter) :
    (resource.setParameter parameter).Unseparated := by
  have read : ',' ∉ parameter.fromUtf8 ∧ ';' ∉ parameter.fromUtf8 :=
    ⟨fun inside => cell.1 (QByteArray.mem_fromUtf8 (by decide) inside),
      fun inside => cell.2 (QByteArray.mem_fromUtf8 (by decide) inside)⟩
  have unquoted (pos : Nat) : ',' ∉ QString.removeQuote (parameter.fromUtf8.drop pos) ∧
      ';' ∉ QString.removeQuote (parameter.fromUtf8.drop pos) :=
    ⟨fun inside => read.1 (List.mem_of_mem_drop (List.mem_of_mem_filter inside)),
      fun inside => read.2 (List.mem_of_mem_drop (List.mem_of_mem_filter inside))⟩
  have target (n : Nat) : ',' ∉ (parameter.fromUtf8.drop 1).take n ∧
      ';' ∉ (parameter.fromUtf8.drop 1).take n :=
    ⟨fun inside => read.1 (List.mem_of_mem_drop (List.mem_of_mem_take inside)),
      fun inside => read.2 (List.mem_of_mem_drop (List.mem_of_mem_take inside))⟩
  simp only [Unseparated, List.forall_mem_cons] at h ⊢
  obtain ⟨path, title, resourceType, interface, none⟩ := h
  simp only [Resource.setParameter]
  split_ifs
  · exact ⟨target _, title, resourceType, interface, none⟩
  · exact ⟨path, unquoted 6, resourceType, interface, none⟩
  · exact ⟨path, title, unquoted 3, interface, none⟩
  · exact ⟨path, title, resourceType, unquoted 3, none⟩
  all_goals exact ⟨path, title, resourceType, interface, none⟩

theorem Unseparated.foldl {resource : Resource Addr} (h : resource.Unseparated)
    {parameters : List QByteArray}
    (cells : ∀ parameter ∈ parameters, 44 ∉ parameter ∧ 59 ∉ parameter) :
    (parameters.foldl Resource.setParameter resource).Unseparated := by
  induction parameters generalizing resource with
  | nil => exact h
  | cons parameter parameters ih =>
    exact ih (h.setParameter (cells parameter (by simp))) fun p hp => cells p (by simp [hp])

end Resource

section Links

variable {Addr : Type} (sender : Addr)

/-- The list of links in the format. -/
def coreLinkList (brief : Bool) (resources : List (Resource Addr)) : QByteArray :=
  QString.toUtf8 (Framework.joinRows ',' ';' (resources.map (Resource.parameters brief)))

theorem resourcesFromCoreLinkList_eq (data : QByteArray) :
    resourcesFromCoreLinkList sender data =
      ((Framework.splitRows 44 59 data).map
        (List.foldl Resource.setParameter { host := sender })).filter
          (fun resource => !resource.path.isEmpty) := by
  rw [Framework.splitRows, List.map_map]
  rfl

theorem unseparated_of_mem {resource : Resource Addr} {data : QByteArray}
    (h : resource ∈ resourcesFromCoreLinkList sender data) : resource.Unseparated := by
  rw [resourcesFromCoreLinkList_eq] at h
  obtain ⟨row, hrow, rfl⟩ := List.mem_map.mp (List.mem_of_mem_filter h)
  have start : ({ host := sender } : Resource Addr).Unseparated := by
    simp [Resource.Unseparated]
  exact start.foldl fun cell hcell => Framework.not_mem_of_mem_splitRows hrow hcell

theorem coreLinkList_eq (brief : Bool) (resources : List (Resource Addr)) :
    coreLinkList brief resources = Framework.joinRows 44 59
      (resources.map (fun resource => (resource.parameters brief).map QString.toUtf8)) := by
  have comma := utf8EncodeChar_ascii (by decide : ','.toNat < 128)
  have semicolon := utf8EncodeChar_ascii (by decide : ';'.toNat < 128)
  rw [coreLinkList, QString.toUtf8, Framework.flatMap_joinRows comma semicolon, List.map_map]
  rfl

/-- The links are read back exactly if none of their texts holds a separator, be it in quotation
marks or in the target. -/
theorem coreLinkList_iff (brief : Bool) {resources : List (Resource Addr)}
    (links : ∀ resource ∈ resources, resource.IsLink) :
    resourcesFromCoreLinkList sender (coreLinkList brief resources) =
        resources.map (fun resource => { resource with host := sender }) ↔
      ∀ resource ∈ resources, resource.Unseparated := by
  constructor
  · intro same resource listed
    have read : { resource with host := sender } ∈
        resourcesFromCoreLinkList sender (coreLinkList brief resources) := by
      rw [same]
      exact List.mem_map_of_mem listed
    have other := unseparated_of_mem sender read
    exact other
  · intro free
    by_cases empty : resources = []
    · rw [empty]
      rfl
    · have cells : ∀ row ∈ resources.map (fun resource =>
          (resource.parameters brief).map QString.toUtf8),
          row ≠ [] ∧ ∀ cell ∈ row, 44 ∉ cell ∧ 59 ∉ cell := by
        intro row hrow
        obtain ⟨resource, listed, rfl⟩ := List.mem_map.mp hrow
        refine ⟨by simp [Resource.parameters], fun cell hcell => ?_⟩
        obtain ⟨text, htext, rfl⟩ := List.mem_map.mp hcell
        have comma := Resource.not_mem_parameters (.inl rfl)
          (fun text own => (free resource listed text own).1) brief text htext
        have semicolon := Resource.not_mem_parameters (.inr rfl)
          (fun text own => (free resource listed text own).2) brief text htext
        rw [← QString.mem_toUtf8_iff (by decide)] at comma semicolon
        exact ⟨comma, semicolon⟩
      rw [resourcesFromCoreLinkList_eq, coreLinkList_eq,
        Framework.splitRows_joinRows (by decide) (by simpa using empty) cells, List.map_map]
      have each : resources.map (List.foldl Resource.setParameter { host := sender } ∘
            fun resource => (resource.parameters brief).map QString.toUtf8) =
          resources.map (fun resource => { resource with host := sender }) :=
        List.map_congr_left fun resource listed =>
          Resource.foldl_parameters (links resource listed) brief sender
      rw [each]
      refine List.filter_eq_self.mpr fun resource listed => ?_
      obtain ⟨given, own, rfl⟩ := List.mem_map.mp listed
      simp [(links given own).path_ne]

end Links

def sensorAddress : IPv4Address := some (10, 0, 0, 1)

/-- A sensor that says more than its title. -/
def sensor (title : String) : Resource IPv4Address where
  maximumSize := 1280
  contentFormat := 40
  resourceType := "Type1 Type2".toList
  host := none
  path := "/sensors/°C".toList
  title := title.toList
  observable := true

theorem sensor_isLink {title : String} (h : '"' ∉ title.toList) : (sensor title).IsLink where
  path_ne := by simp [sensor]
  path := by simp [sensor]
  title := h
  resourceType := by simp [sensor]
  interface := by simp [sensor]
  maximumSize := by simp [sensor]
  contentFormat := by simp [sensor]

theorem coreLinkList_sensor :
    resourcesFromCoreLinkList sensorAddress
        (coreLinkList true [sensor "Temperature", sensor ""]) =
      [{ sensor "Temperature" with host := sensorAddress },
        { sensor "" with host := sensorAddress }] := by
  have links : ∀ resource ∈ [sensor "Temperature", sensor ""], resource.IsLink :=
    List.forall_mem_cons.mpr ⟨sensor_isLink (by decide),
      List.forall_mem_singleton.mpr (sensor_isLink (by decide))⟩
  have free : ∀ resource ∈ [sensor "Temperature", sensor ""], resource.Unseparated := by
    decide
  exact (coreLinkList_iff sensorAddress true links).mpr free

/-- Behind the comma in the title nothing is read, as no target follows. -/
theorem coreLinkList_comma :
    (sensor "a,b").IsLink ∧
      resourcesFromCoreLinkList sensorAddress (coreLinkList false [sensor "a,b"]) =
        [{ host := sensorAddress, path := "/sensors/°C".toList, title := "a".toList }] ∧
      resourcesFromCoreLinkList sensorAddress (coreLinkList false [sensor "a,b"]) ≠
        [{ sensor "a,b" with host := sensorAddress }] := by
  have read : resourcesFromCoreLinkList sensorAddress (coreLinkList false [sensor "a,b"]) =
      [{ host := sensorAddress, path := "/sensors/°C".toList, title := "a".toList }] := by
    decide +kernel
  refine ⟨sensor_isLink (by decide), read, ?_⟩
  rw [read]
  decide

end QtCoap
