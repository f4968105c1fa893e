import Mathlib.Data.List.Forall2
import Tripwire.Contract.Call
import Tripwire.Proofs.Contract.TypeName

/-!
# Which fragment a call is for

A call is encoded by the first fragment of its function with as many parameters as it has arguments. Whatever
else an interface holds does not count, nor does the way in which the types of the parameters are spelled.
-/
namespace Tripwire.Contract

inductive Inputs (fragment : Value) : List Value → Prop
  | listed {items} : fragment.get? "inputs" = some (.list items) → Inputs fragment items
  | unlisted : (∀ items, fragment.get? "inputs" ≠ some (.list items)) → Inputs fragment []

/-- A fragment that is a function, of a name and with a number of parameters. One without a type is a function. -/
structure Takes (function : String) (arity : Nat) (fragment : Value) : Prop where
  kind : fragment.get? "type" = none ∨ fragment.get? "type" = some (.str "function")
  name : fragment.get? "name" = some (.str function)
  arity : ∃ inputs, Inputs fragment inputs ∧ inputs.length = arity

/-- Two parameters whose types have the same name, or names of the same type. -/
def Respelled (input input' : Value) : Prop :=
  inputType input = inputType input' ∨
    ∃ type, Spells (inputType input).toList type ∧ Spells (inputType input').toList type

variable {function : String} {arity : Nat} {abi fragment f g : Value} {args : List Value}
  {inputs inputs' before after fragments : List Value} {types : List ParamType} {data : String}

theorem str?_eq_some_iff {v : Value} {s : String} : v.str? = some s ↔ v = .str s := by
  cases v <;> simp [Value.str?]

theorem list?_eq_some_iff {v : Value} : v.list? = some inputs ↔ v = .list inputs := by
  cases v <;> simp [Value.list?]

theorem inputs_iff : Inputs fragment inputs ↔ inputsOf fragment = inputs := by
  unfold inputsOf
  cases listed : (fragment.get? "inputs").bind Value.list? with
  | none =>
      have missing (items : List Value) : fragment.get? "inputs" ≠ some (.list items) := by
        intro given
        simp [given, Value.list?] at listed
      constructor
      · intro given
        cases given with
        | listed given => exact absurd given (missing inputs)
        | unlisted => rfl
      · rintro rfl
        exact .unlisted missing
  | some items =>
      obtain ⟨v, given, list⟩ := Option.bind_eq_some_iff.mp listed
      rw [list?_eq_some_iff] at list
      subst list
      constructor
      · intro other
        cases other with
        | listed same =>
            rw [given] at same
            cases same
            rfl
        | unlisted missing => exact absurd given (missing items)
      · rintro rfl
        exact .listed given

theorem declares_iff : declares function fragment = true ↔
    (fragment.get? "type" = none ∨ fragment.get? "type" = some (.str "function")) ∧
      fragment.get? "name" = some (.str function) := by
  have kind : (fragment.get? "type").all (·.str? = some "function") = true ↔
      fragment.get? "type" = none ∨ fragment.get? "type" = some (.str "function") := by
    cases fragment.get? "type" with
    | none => simp
    | some v => simp [str?_eq_some_iff]
  have name : (fragment.get? "name").bind Value.str? = some function ↔
      fragment.get? "name" = some (.str function) := by
    cases fragment.get? "name" with
    | none => simp
    | some v => simp [str?_eq_some_iff]
  rw [declares, Bool.and_eq_true, kind, decide_eq_true_iff, name]

theorem takes_iff : Takes function arity fragment ↔
    declares function fragment = true ∧ (inputsOf fragment).length = arity := by
  constructor
  · rintro ⟨kind, name, inputs, given, same⟩
    exact ⟨declares_iff.mpr ⟨kind, name⟩, by rwa [inputs_iff.mp given]⟩
  · rintro ⟨declared, same⟩
    obtain ⟨kind, name⟩ := declares_iff.mp declared
    exact ⟨kind, name, inputsOf fragment, inputs_iff.mpr rfl, same⟩

instance (function : String) (arity : Nat) (fragment : Value) :
    Decidable (Takes function arity fragment) :=
  decidable_of_iff _ takes_iff.symm

theorem find?_candidates (fragments : List Value) :
    ((fragments.filter (declares function)).find? fun f => (inputsOf f).length = arity) =
      fragments.find? fun f => Takes function arity f := by
  simp [List.find?_filter, takes_iff]

theorem select_of_takes (skipped : ∀ g ∈ before, ¬Takes function arity g)
    (takes : Takes function arity f) :
    select (.list (before ++ f :: after)) function arity = .ok f := by
  have candidate : f ∈ (before ++ f :: after).filter (declares function) :=
    List.mem_filter.mpr ⟨by simp, (takes_iff.mp takes).1⟩
  have found : (before ++ f :: after).find? (fun f => Takes function arity f) = some f := by
    rw [List.find?_append, List.find?_eq_none.mpr (by simpa using skipped), Option.none_or,
      List.find?_cons_of_pos (by simpa using takes)]
  have some : ((before ++ f :: after).filter (declares function)).isEmpty = false :=
    List.isEmpty_eq_false_iff.mpr (List.ne_nil_of_mem candidate)
  simp only [select, some, Bool.false_eq_true, if_false, find?_candidates, found]

theorem select_of_untaken
    (untaken : ∀ fragments, abi = .list fragments → ∀ f ∈ fragments, ¬Takes function arity f) :
    ∃ reason, select abi function arity = .error reason := by
  unfold select
  split
  · rename_i fragments
    have none : fragments.find? (fun f => Takes function arity f) = none :=
      List.find?_eq_none.mpr (by simpa using untaken fragments rfl)
    dsimp only
    split
    · exact ⟨_, rfl⟩
    · rw [find?_candidates, none]
      exact ⟨_, rfl⟩
  · exact ⟨_, rfl⟩

theorem readTypes_eq_ok_iff : readTypes inputs = .ok types ↔
    List.Forall₂ (fun input type => Spells (inputType input).toList type) inputs types := by
  induction inputs generalizing types with
  | nil =>
      rw [readTypes, List.forall₂_nil_left_iff]
      exact ⟨fun ok => (Except.ok.inj ok).symm, fun same => by rw [same]⟩
  | cons input inputs ih =>
      rw [readTypes, List.forall₂_cons_left_iff]
      constructor
      · intro ok
        split at ok
        case h_1 => cases ok
        case h_2 type read =>
          obtain ⟨others, rest, rfl⟩ := map_eq_ok_iff.mp ok
          exact ⟨type, others, read?_eq_some_iff.mp read, ih.mp rest, rfl⟩
      · rintro ⟨type, others, spells, rest, rfl⟩
        rw [read?_eq_some_iff.mpr spells, ih.mpr rest]
        rfl

theorem readTypes_congr (respelled : List.Forall₂ Respelled inputs inputs') :
    readTypes inputs = readTypes inputs' := by
  induction respelled with
  | nil => rfl
  | @cons input input' inputs inputs' here _ ih =>
      rw [readTypes, readTypes, ih]
      rcases here with same | ⟨type, spells, spells'⟩
      · rw [same]
      · rw [read?_eq_some_iff.mpr spells, read?_eq_some_iff.mpr spells']

theorem encodeCall_eq_ok_iff (selected : select abi function args.length = .ok f) :
    encodeCall abi function args = .ok data ↔
      ∃ types encoded, readTypes (inputsOf f) = .ok types ∧ encodeParams types args = .ok encoded ∧
        data = String.ofList ('0' :: 'x' :: Text.Hex.write (selector function types ++ encoded)) := by
  unfold encodeCall
  rw [selected]
  dsimp only
  cases readTypes (inputsOf f) with
  | error reason => simp
  | ok types =>
      dsimp only
      rw [map_eq_ok_iff]
      constructor
      · rintro ⟨encoded, ok, rfl⟩
        exact ⟨types, encoded, rfl, ok, rfl⟩
      · rintro ⟨types, encoded, same, ok, rfl⟩
        cases same
        exact ⟨encoded, ok, rfl⟩

/-- A call goes to the first fragment that takes it, whatever stands around that, and no spelling of a type makes
a difference. -/
theorem first_fragment_decides (function : String) (args : List Value) :
    (∀ before f after, (∀ g ∈ before, ¬Takes function args.length g) → Takes function args.length f →
      encodeCall (.list (before ++ f :: after)) function args = encodeCall (.list [f]) function args) ∧
    (∀ abi, (∀ fragments, abi = .list fragments → ∀ f ∈ fragments, ¬Takes function args.length f) →
      ∃ reason, encodeCall abi function args = .error (.invalidAbi function reason)) ∧
    (∀ f inputs data, Takes function args.length f → Inputs f inputs →
      (encodeCall (.list [f]) function args = .ok data ↔
        ∃ types encoded,
          List.Forall₂ (fun input type => Spells (inputType input).toList type) inputs types ∧
          encodeParams types args = .ok encoded ∧
          data = String.ofList ('0' :: 'x' :: Text.Hex.write ((Digest.Keccak.hash (Bytes.ofText
            (function ++ "(" ++ String.intercalate "," (types.map ParamType.canonical) ++ ")"))).take 4 ++
              encoded)))) ∧
    (∀ before f g after inputs inputs', (∀ g ∈ before, ¬Takes function args.length g) →
      Takes function args.length f → Takes function args.length g → Inputs f inputs → Inputs g inputs' →
      List.Forall₂ Respelled inputs inputs' →
      encodeCall (.list (before ++ f :: after)) function args =
        encodeCall (.list (before ++ g :: after)) function args) := by
  refine ⟨?_, ?_, ?_, ?_⟩
  · intro before f after skipped takes
    have alone : select (.list [f]) function args.length = .ok f :=
      select_of_takes (List.forall_mem_nil _) takes
    unfold encodeCall
    rw [select_of_takes skipped takes, alone]
  · intro abi untaken
    obtain ⟨reason, none⟩ := select_of_untaken untaken
    exact ⟨reason, by rw [encodeCall, none]⟩
  · intro f inputs data takes given
    have alone : select (.list [f]) function args.length = .ok f :=
      select_of_takes (List.forall_mem_nil _) takes
    rw [encodeCall_eq_ok_iff alone, inputs_iff.mp given]
    simp only [readTypes_eq_ok_iff]
    rfl
  · intro before f g after inputs inputs' skipped takes takes' given given' respelled
    unfold encodeCall
    rw [select_of_takes skipped takes, select_of_takes skipped takes']
    dsimp only
    rw [inputs_iff.mp given, inputs_iff.mp given', readTypes_congr respelled]

def sampleOthers : List Value :=
  [.str "transfer", .map [("name", .str "transfer"), ("type", .str "event")],
    .map [("inputs", .list [.null]), ("name", .str "transfer")],
    .map [("inputs", .list [.null, .null]), ("name", .str "transfer"), ("type", .null)]]

def sampleTransfer (amount : String) : Value :=
  .map [("inputs", .list [.map [("type", .str "address")], .map [("type", .str amount)]]),
    ("name", .str "transfer")]

def sampleTransferArgs : List Value := [.str "0x00000000000000000000000000000000000000ff", .int 1000]

theorem sampleTransfer_decides :
    (∀ g ∈ sampleOthers, ¬Takes "transfer" sampleTransferArgs.length g) ∧
    Takes "transfer" sampleTransferArgs.length (sampleTransfer "uint") ∧
    encodeCall (.list (sampleOthers ++ [sampleTransfer "uint", sampleTransfer "bool"])) "transfer"
        sampleTransferArgs =
      encodeCall (.list [sampleTransfer "uint"]) "transfer" sampleTransferArgs ∧
    encodeCall (.list (sampleOthers ++ [sampleTransfer "uint"])) "transfer" sampleTransferArgs =
      encodeCall (.list (sampleOthers ++ [sampleTransfer "uint+0256"])) "transfer" sampleTransferArgs := by
  have skipped : ∀ g ∈ sampleOthers, ¬Takes "transfer" sampleTransferArgs.length g := by decide
  have takes : Takes "transfer" sampleTransferArgs.length (sampleTransfer "uint") := by decide
  have takes' : Takes "transfer" sampleTransferArgs.length (sampleTransfer "uint+0256") := by decide
  have respelled : Respelled (.map [("type", .str "uint")]) (.map [("type", .str "uint+0256")]) :=
    .inr ⟨.uint 256, by decide, by decide⟩
  obtain ⟨alone, -, -, spelling⟩ := first_fragment_decides "transfer" sampleTransferArgs
  refine ⟨skipped, takes, alone _ _ _ skipped takes, ?_⟩
  exact spelling _ _ _ _ _ _ skipped takes takes' (.listed rfl) (.listed rfl)
    (.cons (.inl rfl) (.cons respelled .nil))

end Tripwire.Contract
