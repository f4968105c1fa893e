import Tripwire.Action.Form
import Tripwire.Contract.Transaction
import Tripwire.Proofs.Value.Members

/-!
# Actions and transactions are read back

An action is read from what it is written to, and from everything that differs from it only in ways that a
record leaves open: the order of the members, unknown ones, optional ones that are null, and the spelling
of the joiners of its sign conditions. Transactions are read back likewise.
-/
namespace Tripwire

variable {style : Form.Style} {v v' : Value} {fields fields' : List (String × Value)}

/-! ## Sign conditions -/

namespace Action.SignCondition

inductive Variant : Value → Value → Prop where
  | members {fields fields' : List (String × Value)}
      (liberty : Form.Liberty ["type", "operator", "value"] [] fields fields') :
      Variant (.map fields) (.map fields')
  | spelled {joiner : Joiner} {name name' : String} (fields : List (String × Value))
      (named : (name, joiner) ∈ Joiner.names) (named' : (name', joiner) ∈ Joiner.names) :
      Variant (.map (("type", .str name) :: fields)) (.map (("type", .str name') :: fields))

def Alike : Value → Value → Prop := Relation.EqvGen Variant

theorem lookup_of_mem {joiner : Joiner} {name : String} (named : (name, joiner) ∈ Joiner.names) :
    Joiner.names.lookup name = some joiner := by
  simp only [Joiner.names, List.mem_cons, List.not_mem_nil, or_false, Prod.mk.injEq] at named
  rcases named with ⟨rfl, rfl⟩ | ⟨rfl, rfl⟩ | ⟨rfl, rfl⟩ | ⟨rfl, rfl⟩ <;> decide

theorem Variant.read?_eq (variant : Variant v v') : read? style v = read? style v' := by
  cases variant with
  | members liberty =>
      have agree := liberty.agree ["type", "operator", "value"] (by simp) (by simp)
      rw [read?, read?, Form.bind_record?, Form.bind_record?, agree.required_eq _ (by decide),
        agree.required_eq _ (by decide), agree.required_eq _ (by decide)]
  | spelled fields named named' =>
      simp [read?, Form.record?, Form.required, Form.name, List.lookup_cons, lookup_of_mem named,
        lookup_of_mem named']

theorem Alike.read?_eq (alike : Alike v v') : read? style v = read? style v' :=
  Form.eq_of_alike (fun _ _ variant => variant.read?_eq) alike

theorem read?_write (c : SignCondition) : read? Form.json.tagged c.write = some c := by
  have joined : Joiner.names.lookup c.joiner.symbol = some c.joiner := by
    cases c.joiner <;> decide
  have compared : Comparison.names.lookup c.comparison.symbol = some c.comparison := by
    cases c.comparison <;> decide
  simp [read?, write, Form.record?, Form.required, Form.name, List.lookup_cons, joined, compared,
    Form.Style.tagged, Form.json]

end Action.SignCondition

/-! ## Actions -/

namespace Action

namespace Kind

def plain : Kind → List String
  | .custom => ["type", "priority", "code"]
  | .fetch => ["type", "priority", "base_url", "endpoint", "response_path", "to_sign"]
  | .contract =>
      ["type", "priority", "contract_address", "abi", "function_name", "args", "chain"]

def optionals : Kind → List String
  | .custom => []
  | .fetch => ["api_key"]
  | .contract => ["nonce", "gas_limit", "value", "max_priority_fee_per_gas", "max_fee_per_gas"]

def known : Kind → List String
  | .custom => ["type", "priority", "code"]
  | .fetch =>
      ["type", "priority", "base_url", "endpoint", "response_path", "api_key", "sign_condition",
        "to_sign"]
  | .contract =>
      ["type", "priority", "contract_address", "abi", "function_name", "args", "chain", "nonce",
        "gas_limit", "value", "max_priority_fee_per_gas", "max_fee_per_gas"]

theorem lookup_text (kind : Kind) : names.lookup kind.text = some kind := by
  cases kind <;> decide

end Kind

inductive Variant (kind : Kind) : Value → Value → Prop where
  | members {fields fields' : List (String × Value)}
      (liberty : Form.Liberty kind.known kind.optionals fields fields') :
      Variant kind (.map fields) (.map fields')
  | conditions {items items' : List Value} (fields : List (String × Value))
      (alike : List.Forall₂ SignCondition.Alike items items') :
      Variant kind (.map (("sign_condition", .list items) :: fields))
        (.map (("sign_condition", .list items') :: fields))

def Alike (kind : Kind) : Value → Value → Prop := Relation.EqvGen (Variant kind)

variable {kind : Kind} {a : Action}

def readConditions? (style : Form.Style) (fields : List (String × Value)) :
    Option (List SignCondition) :=
  Form.defaulted fields "sign_condition" [] (Form.list (SignCondition.read? style))

theorem readAs?_congr (agree : Form.Agree kind.plain kind.optionals fields fields')
    (conditions : kind = .fetch →
      readConditions? style.tagged fields = readConditions? style.tagged fields') :
    readAs? style kind (.map fields) = readAs? style kind (.map fields') := by
  cases kind with
  | custom =>
      rw [readAs?, readAs?, CustomAction.read?, CustomAction.read?, Form.bind_record?,
        Form.bind_record?, agree.required_eq _ (by decide), agree.required_eq _ (by decide)]
  | fetch =>
      have conditions := conditions rfl
      simp only [readConditions?] at conditions
      rw [readAs?, readAs?, FetchAction.read?, FetchAction.read?, Form.bind_record?,
        Form.bind_record?, agree.required_eq _ (by decide), agree.required_eq _ (by decide),
        agree.required_eq _ (by decide), agree.required_eq _ (by decide),
        agree.optional_eq _ (by decide), conditions, agree.defaulted_eq _ _ (by decide)]
  | contract =>
      rw [readAs?, readAs?, ContractAction.read?, ContractAction.read?, Form.bind_record?,
        Form.bind_record?, agree.required_eq _ (by decide), agree.required_eq _ (by decide),
        agree.required_eq _ (by decide), agree.required_eq _ (by decide),
        agree.required_eq _ (by decide), agree.defaulted_eq _ _ (by decide),
        agree.optional_eq _ (by decide), agree.optional_eq _ (by decide),
        agree.optional_eq _ (by decide), agree.optional_eq _ (by decide),
        agree.optional_eq _ (by decide)]

theorem readConditions?_congr {items items' : List Value}
    (alike : List.Forall₂ SignCondition.Alike items items') :
    readConditions? style (("sign_condition", .list items) :: fields) =
      readConditions? style (("sign_condition", .list items') :: fields) := by
  have same : Form.list (SignCondition.read? style) (.list items) =
      Form.list (SignCondition.read? style) (.list items') :=
    Form.list_congr (alike.imp fun _ _ alike => alike.read?_eq)
  simp [readConditions?, Form.defaulted, same]

theorem kind_of_readAs? (read : readAs? style kind v = some a) : a.kind = kind := by
  cases kind <;> obtain ⟨_, _, rfl⟩ := Option.map_eq_some_iff.mp read <;> rfl

theorem read?_map_eq_some_iff : read? style (.map fields) = some a ↔
    Form.required fields "type" readKind? = some a.kind ∧
      readAs? style a.kind (.map fields) = some a := by
  simp only [read?, Option.bind_eq_bind, Option.bind_eq_some_iff]
  constructor
  · rintro ⟨kind, named, read⟩
    obtain rfl := kind_of_readAs? read
    exact ⟨named, read⟩
  · rintro ⟨named, read⟩
    exact ⟨_, named, read⟩

theorem agree_of_liberty (liberty : Form.Liberty kind.known kind.optionals fields fields') :
    Form.Agree kind.plain kind.optionals fields fields' := by
  apply liberty.agree kind.plain <;> cases kind <;> decide

theorem agree_conditions (conditions conditions' : Value) :
    Form.Agree kind.plain kind.optionals (("sign_condition", conditions) :: fields)
      (("sign_condition", conditions') :: fields) := by
  have apart : "sign_condition" ∉ kind.plain ++ kind.optionals := by cases kind <;> decide
  have same {name : String} (member : name ∈ kind.plain ++ kind.optionals) :
      List.lookup name (("sign_condition", conditions) :: fields) =
        List.lookup name (("sign_condition", conditions') :: fields) := by
    have differ := ne_of_mem_of_not_mem member apart
    rw [Form.lookup_cons_of_ne differ, Form.lookup_cons_of_ne differ]
  exact ⟨fun _ member => same (List.mem_append_left _ member),
    fun _ member => by rw [same (List.mem_append_right _ member)]⟩

theorem read?_iff_of_agree (agree : Form.Agree a.kind.plain a.kind.optionals fields fields')
    (conditions : a.kind = .fetch →
      readConditions? style.tagged fields = readConditions? style.tagged fields') :
    read? style (.map fields) = some a ↔ read? style (.map fields') = some a := by
  have tagged : "type" ∈ a.kind.plain := by cases a.kind <;> decide
  rw [read?_map_eq_some_iff, read?_map_eq_some_iff, agree.required_eq _ tagged,
    readAs?_congr agree conditions]

theorem Variant.read?_iff (variant : Variant a.kind v v') :
    read? style v = some a ↔ read? style v' = some a := by
  cases variant with
  | members liberty =>
      apply read?_iff_of_agree (agree_of_liberty liberty)
      intro fetches
      rw [fetches] at liberty
      have agree := liberty.agree ["sign_condition"] (by decide) (by decide)
      exact agree.defaulted_eq _ _ (List.mem_singleton_self _)
  | conditions fields alike =>
      exact read?_iff_of_agree (agree_conditions _ _) fun _ => readConditions?_congr alike

theorem Alike.read?_iff (alike : Alike a.kind v v') :
    read? style v = some a ↔ read? style v' = some a :=
  iff_of_eq (Form.eq_of_alike (fun _ _ variant => propext variant.read?_iff) alike)

/-! ## Written actions -/

def WellSized : Action → Prop
  | .custom a => a.priority < Nat.pow 2 32
  | .fetch a => a.priority < Nat.pow 2 32 ∧ ∀ b ∈ a.toSign, b < Nat.pow 2 8
  | .contract a => a.priority < Nat.pow 2 32 ∧ ∀ n ∈ a.nonce?, n < Nat.pow 2 64

def members (a : Action) : List (String × Value) := ("type", .str a.kind.text) :: a.fields

def optionalMembers : Action → List (String × Option Value)
  | .custom _ => []
  | .fetch a => [("api_key", a.apiKey?.map .str)]
  | .contract a =>
      [("nonce", a.nonce?.map .ofNat), ("gas_limit", a.gasLimit?.map .str),
        ("value", a.value?.map .str), ("max_priority_fee_per_gas", a.maxPriorityFee?.map .str),
        ("max_fee_per_gas", a.maxFee?.map .str)]

theorem lookup_optional {name : String} {v? : Option Value} (among : (name, v?) ∈ a.optionalMembers) :
    a.members.lookup name = v? := by
  cases a with
  | custom a => cases among
  | fetch a =>
      obtain ⟨rfl, rfl⟩ := Prod.mk.inj (List.mem_singleton.mp among)
      simp [members, fields, List.lookup_cons, List.lookup_append, Form.lookup_field?]
  | contract a =>
      simp only [optionalMembers, List.mem_cons, List.not_mem_nil, or_false, Prod.mk.injEq] at among
      rcases among with ⟨rfl, rfl⟩ | ⟨rfl, rfl⟩ | ⟨rfl, rfl⟩ | ⟨rfl, rfl⟩ | ⟨rfl, rfl⟩ <;>
        simp [members, fields, List.lookup_cons, List.lookup_append, Form.lookup_field?]

theorem optional_text {name : String} {text? : Option String}
    (among : (name, text?.map .str) ∈ a.optionalMembers) :
    Form.optional a.members name Form.text = some text? :=
  Form.optional_of_lookup .str (lookup_optional among) fun _ _ => ⟨by simp, rfl⟩

theorem read?_custom {a : CustomAction} (sized : (custom a).WellSized) :
    CustomAction.read? Form.json.tagged (.map (custom a).members) = some a := by
  have priority := Form.u32_ofNat sized
  simp [CustomAction.read?, members, fields, Form.record?, Form.required, List.lookup_cons, priority,
    Form.text, Value.str?]

theorem read?_fetch {a : FetchAction} (sized : (fetch a).WellSized) :
    FetchAction.read? Form.json.tagged (.map (fetch a).members) = some a := by
  have priority := Form.u32_ofNat sized.1
  have apiKey : Form.optional (fetch a).members "api_key" Form.text = some a.apiKey? :=
    optional_text (List.mem_singleton_self _)
  have conditions : Form.list (SignCondition.read? Form.json.tagged)
      (.list (a.signConditions.map SignCondition.write)) = some a.signConditions :=
    Form.list_map fun c _ => SignCondition.read?_write c
  have toSign : Form.list Form.u8 (.list (a.toSign.map .ofNat)) = some a.toSign :=
    Form.list_map fun b among => Form.u8_ofNat (sized.2 b among)
  rw [FetchAction.read?, Form.bind_record?, apiKey]
  simp [members, fields, Form.required, Form.defaulted, List.lookup_cons, List.lookup_append,
    Form.lookup_field?, priority, conditions, toSign, Form.text, Value.str?]

theorem read?_contract {a : ContractAction} (sized : (contract a).WellSized) :
    ContractAction.read? Form.json.tagged (.map (contract a).members) = some a := by
  have priority := Form.u32_ofNat sized.1
  have args : Form.list some (.list a.args) = some a.args := Form.list_free a.args
  have nonce : Form.optional (contract a).members "nonce" Form.u64 = some a.nonce? :=
    Form.optional_of_lookup .ofNat (lookup_optional (by simp [optionalMembers])) fun n among =>
      ⟨by simp [Value.ofNat], Form.u64_ofNat (sized.2 n among)⟩
  have gasLimit : Form.optional (contract a).members "gas_limit" Form.text = some a.gasLimit? :=
    optional_text (by simp [optionalMembers])
  have value : Form.optional (contract a).members "value" Form.text = some a.value? :=
    optional_text (by simp [optionalMembers])
  have maxPriorityFee : Form.optional (contract a).members "max_priority_fee_per_gas" Form.text =
      some a.maxPriorityFee? := optional_text (by simp [optionalMembers])
  have maxFee : Form.optional (contract a).members "max_fee_per_gas" Form.text = some a.maxFee? :=
    optional_text (by simp [optionalMembers])
  rw [ContractAction.read?, Form.bind_record?, nonce, gasLimit, value, maxPriorityFee, maxFee]
  simp [members, fields, Form.required, Form.defaulted, List.lookup_cons, priority, args,
    Form.text, Value.str?, Form.Style.tagged, Form.json]

theorem read?_write (sized : a.WellSized) : read? Form.json a.write = some a := by
  show read? Form.json (.map a.members) = some a
  rw [read?_map_eq_some_iff]
  constructor
  · simp [members, Form.required, readKind?, Form.text, Value.str?, Kind.lookup_text]
  · cases a with
    | custom a => exact congrArg (Option.map custom) (read?_custom sized)
    | fetch a => exact congrArg (Option.map fetch) (read?_fetch sized)
    | contract a => exact congrArg (Option.map contract) (read?_contract sized)

theorem names_members (a : Action) : (a.members.map Prod.fst).Sublist a.kind.known := by
  cases a with
  | custom a => exact .refl _
  | fetch a =>
      simp only [members, fields, List.map_cons, List.map_append, List.map_nil]
      exact .cons_cons _ (((List.Sublist.refl _).append (Form.names_field? ..)).append (.refl _))
  | contract a =>
      simp only [members, fields, List.map_cons, List.map_append, List.map_nil]
      exact .cons_cons _ ((((((List.Sublist.refl _).append (Form.names_field? ..)).append
        (Form.names_field? ..)).append (Form.names_field? ..)).append
        (Form.names_field? ..)).append (Form.names_field? ..))

theorem nodup_members (a : Action) : (a.members.map Prod.fst).Nodup := by
  apply (names_members a).nodup
  cases a.kind <;> decide

end Action

/-! ## Transactions -/

namespace Contract.Transaction

variable {t : Transaction}

def plain : List String :=
  ["to", "nonce", "chainId", "gasLimit", "from", "value", "data", "type"]

def optionals : List String := ["maxPriorityFeePerGas", "maxFeePerGas"]

def known : List String :=
  ["to", "nonce", "chainId", "gasLimit", "from", "value", "data", "maxPriorityFeePerGas",
    "maxFeePerGas", "type"]

inductive Variant : Value → Value → Prop where
  | members {fields fields' : List (String × Value)}
      (liberty : Form.Liberty known optionals fields fields') : Variant (.map fields) (.map fields')

def Alike : Value → Value → Prop := Relation.EqvGen Variant

theorem Variant.read?_eq (variant : Variant v v') : read? style v = read? style v' := by
  cases variant with
  | members liberty =>
      have agree := liberty.agree plain (by decide) (by decide)
      rw [read?, read?, Form.bind_record?, Form.bind_record?,
        agree.required_eq _ (by decide), agree.required_eq _ (by decide),
        agree.required_eq _ (by decide), agree.required_eq _ (by decide),
        agree.required_eq _ (by decide), agree.required_eq _ (by decide),
        agree.required_eq _ (by decide), agree.optional_eq _ (by decide),
        agree.optional_eq _ (by decide), agree.required_eq _ (by decide)]

theorem Alike.read?_eq (alike : Alike v v') : read? style v = read? style v' :=
  Form.eq_of_alike (fun _ _ variant => variant.read?_eq) alike

structure WellSized (t : Transaction) : Prop where
  nonce : t.nonce < Nat.pow 2 64
  chainId : t.chainId < Nat.pow 2 64
  type : t.type < Nat.pow 2 8

def members (t : Transaction) : List (String × Value) :=
  t.fieldsBefore ++ ("from", .str t.sender) :: t.fieldsAfter

def optionalMembers (t : Transaction) : List (String × Option Value) :=
  [("maxPriorityFeePerGas", t.maxPriorityFee?.map .str), ("maxFeePerGas", t.maxFee?.map .str)]

theorem lookup_optional {name : String} {v? : Option Value} (among : (name, v?) ∈ t.optionalMembers) :
    t.members.lookup name = v? := by
  simp only [optionalMembers, List.mem_cons, List.not_mem_nil, or_false, Prod.mk.injEq] at among
  rcases among with ⟨rfl, rfl⟩ | ⟨rfl, rfl⟩ <;>
    simp [members, fieldsBefore, fieldsAfter, List.lookup_cons, List.lookup_append,
      Form.lookup_field?]

theorem optional_text {name : String} {text? : Option String}
    (among : (name, text?.map .str) ∈ t.optionalMembers) :
    Form.optional t.members name Form.text = some text? :=
  Form.optional_of_lookup .str (lookup_optional among) fun _ _ => ⟨by simp, rfl⟩

theorem read?_write (sized : t.WellSized) : read? Form.json t.write = some t := by
  have nonce := Form.u64_ofNat sized.nonce
  have chainId := Form.u64_ofNat sized.chainId
  have type := Form.u8_ofNat sized.type
  have maxPriorityFee : Form.optional t.members "maxPriorityFeePerGas" Form.text =
      some t.maxPriorityFee? := optional_text (by simp [optionalMembers])
  have maxFee : Form.optional t.members "maxFeePerGas" Form.text = some t.maxFee? :=
    optional_text (by simp [optionalMembers])
  show read? Form.json (.map t.members) = some t
  rw [read?, Form.bind_record?, maxPriorityFee, maxFee]
  simp [members, fieldsBefore, fieldsAfter, Form.required, List.lookup_cons, List.lookup_append,
    Form.lookup_field?, nonce, chainId, type, Form.text, Value.str?]

theorem nodup_members (t : Transaction) : (t.members.map Prod.fst).Nodup := by
  have ordered : (t.members.map Prod.fst).Sublist known := by
    simp only [members, fieldsBefore, fieldsAfter, List.map_cons, List.map_append, List.map_nil]
    exact (List.Sublist.refl ["to", "nonce", "chainId", "gasLimit", "from"]).append
      ((((List.Sublist.refl ["value", "data"]).append (Form.names_field? ..)).append
        (Form.names_field? ..)).append (.refl _))
  exact ordered.nodup (by decide)

end Contract.Transaction

/-! ## Reading back -/

/-- Actions and transactions are read from the members that they are written to, in whatever order. An
optional member that is absent is not written. Two values that differ only in ways that a record leaves
open are read as the same action, or as the same transaction. -/
theorem written_forms_read_back (a : Action) (t : Contract.Transaction) (sized : a.WellSized)
    (sized' : t.WellSized) :
    (Action.read? Form.json a.write = some a ∧
      Action.read? Form.json (.object a.members) = some a ∧
      (∀ name v?, (name, v?) ∈ a.optionalMembers → a.write.get? name = v?) ∧
      ∀ v v', Action.Alike a.kind v v' →
        (Action.read? Form.json v = some a ↔ Action.read? Form.json v' = some a)) ∧
    (Contract.Transaction.read? Form.json t.write = some t ∧
      Contract.Transaction.read? Form.json (.object t.members) = some t ∧
      (∀ name v?, (name, v?) ∈ t.optionalMembers → t.write.get? name = v?) ∧
      ∀ v v', Contract.Transaction.Alike v v' →
        Contract.Transaction.read? Form.json v = Contract.Transaction.read? Form.json v') := by
  have sorted := Value.sortFields_perm a.nodup_members
  have sorted' := Value.sortFields_perm t.nodup_members
  have written := Action.read?_write sized
  have written' := Contract.Transaction.read?_write sized'
  have alike : Action.Alike a.kind a.write (.object a.members) :=
    .rel _ _ (.members (.order a.nodup_members sorted.symm))
  have alike' : Contract.Transaction.Alike t.write (.object t.members) :=
    .rel _ _ (.members (.order t.nodup_members sorted'.symm))
  refine ⟨⟨written, alike.read?_iff.mp written, ?_, fun _ _ alike => alike.read?_iff⟩,
    written', alike'.read?_eq ▸ written', ?_, fun _ _ alike => alike.read?_eq⟩
  · exact fun _ _ among => Action.lookup_optional among
  · exact fun _ _ among => Contract.Transaction.lookup_optional among

def sampleFetch : Action :=
  .fetch ⟨7, "https://prices.test", "/latest", "data.price", none, [⟨.or, .ge, .null⟩], [0, 255]⟩

def sampleTransaction : Contract.Transaction :=
  ⟨"0x00", 3, 1, "50000", "me", "0", "0x", some "1", none, 2⟩

def sampleFetchMembers (spelling : String) : List (String × Value) :=
  [("sign_condition", .list [.map
      [("type", .str spelling), ("operator", .str ">="), ("value", .null)]]),
    ("type", .str "fetch"), ("priority", .ofNat 7), ("base_url", .str "https://prices.test"),
    ("endpoint", .str "/latest"), ("response_path", .str "data.price"),
    ("to_sign", .list [.ofNat 0, .ofNat 255])]

def sampleFetchVariant : Value :=
  .map (("note", .null) :: ("api_key", .null) :: sampleFetchMembers "or")

theorem sampleFetch_alike : Action.Alike .fetch sampleFetch.write sampleFetchVariant := by
  have ordered : Action.Variant .fetch sampleFetch.write (.map (sampleFetchMembers "||")) :=
    .members (.order (by decide) (by decide))
  have spelled : Action.SignCondition.Variant
      (.map [("type", .str "||"), ("operator", .str ">="), ("value", .null)])
      (.map [("type", .str "or"), ("operator", .str ">="), ("value", .null)]) :=
    @Action.SignCondition.Variant.spelled .or "||" "or" _ (by decide) (by decide)
  have conditions : Action.Variant .fetch (.map (sampleFetchMembers "||"))
      (.map (sampleFetchMembers "or")) :=
    .conditions _ (.cons (.rel _ _ spelled) .nil)
  have null : Action.Variant .fetch (.map (("api_key", .null) :: sampleFetchMembers "or"))
      (.map (sampleFetchMembers "or")) :=
    .members (.null (by decide) (by decide))
  have unknown : Action.Variant .fetch sampleFetchVariant
      (.map (("api_key", .null) :: sampleFetchMembers "or")) :=
    .members (.unknown .null (by decide))
  exact (Relation.EqvGen.rel _ _ ordered).trans _ _ _ <|
    (Relation.EqvGen.rel _ _ conditions).trans _ _ _ <|
    ((Relation.EqvGen.rel _ _ unknown).trans _ _ _ (.rel _ _ null)).symm

theorem sampleFetch_reads_back :
    sampleFetch.WellSized ∧ sampleTransaction.WellSized ∧
      Action.read? Form.json sampleFetchVariant = some sampleFetch ∧
      sampleFetch.write.get? "api_key" = none ∧
      Contract.Transaction.read? Form.json sampleTransaction.write = some sampleTransaction := by
  have sized : sampleFetch.WellSized := ⟨by decide, by decide⟩
  have sized' : sampleTransaction.WellSized := ⟨by decide, by decide, by decide⟩
  obtain ⟨⟨written, -, absent, alike⟩, written', -⟩ :=
    written_forms_read_back sampleFetch sampleTransaction sized sized'
  exact ⟨sized, sized', (alike _ _ sampleFetch_alike).mp written,
    absent _ none (List.mem_singleton_self _), written'⟩

end Tripwire
