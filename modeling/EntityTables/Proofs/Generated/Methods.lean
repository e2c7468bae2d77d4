import EntityTables.Proofs.Generated.Implementing
import EntityTables.Proofs.Generated.Writes

/-!
# Running the methods of a record

The getters and setters that are generated for a record type read and store what they are
generated for, and a key helper calls the two methods that it names. The record that a method is
called on is its variable `self`.
-/

namespace EntityTables.Generated

open EntityTables.Syntax EntityTables.Schema EntityTables.Call

variable {α : Type}

/-! ### The own record -/

namespace Surroundings

variable {s : Surroundings α} {type : Node} {content : Properties α} {rest : Bindings α}

theorem run_ownBag :
    (s.eval ownBag).run (("self", .value type (.record content)) :: rest) =
      pure (.bag content, ("self", .value type (.record content)) :: rest) := rfl

theorem bagOf?_ownBag :
    Bindings.bagOf? (("self", .value type (.record content)) :: rest) ownBag =
      some (⟨"self", ["record"]⟩, .value type (.record content), content) := rfl

/-- A property of the own record is read in the type that the call names. -/
theorem run_get {typeArguments stored : Node} (htype : typeArgument? typeArguments = some stored)
    (property : String) :
    (s.eval (methodCallWith typeArguments ownBag "get" [textExpr property])).run
        (("self", .value type (.record content)) :: rest) =
      pure (.ofOption stored (content.get? stored property),
        ("self", .value type (.record content)) :: rest) := by
  have hread : s.eval (methodCallWith typeArguments ownBag "get" [textExpr property]) = (do
      let _ ← get
      let datum ← s.eval ownBag
      let values ← (do
        let text ← s.eval (textExpr property)
        return [text])
      Exec.ofOption (s.method? "get" typeArguments datum values)) := rfl
  have hget : s.method? "get" typeArguments (.bag content) [.text property] =
      some (.ofOption stored (content.get? stored property)) := by
    rw [method?, htype]
    rfl
  simp only [hread, StateT.run_bind, StateT.run_get, pure_bind, run_ownBag, run_textExpr, hget,
    StateT.run_pure, Exec.run_ofOption]
  rfl

end Surroundings

/-! ### Getters and setters -/

section Accessors

variable {s : Surroundings α} {type : Node} {content : Properties α} {rest : Bindings α}

theorem typeArgument?_optionTurbofish (type : Node) :
    typeArgument? (optionTurbofish type) = some (optionOf type) := rfl

theorem typeArgument?_turbofish (type : Node) : typeArgument? (turbofish type) = some type := rfl

theorem Getter.readType_of {column : Column} (hown : (Getter.of column).readsThrough = false) :
    column.readType = column.storedType := by
  rw [Getter.of, Column.isReference] at hown
  rw [Column.readType, Column.storedType]
  cases hreference : column.reference with
  | none => rfl
  | some reference =>
      rw [hreference, Option.isSome_some, Bool.true_and] at hown
      have hpresent : column.nullable = false := hown
      simp [hpresent]

/-- What a getter evaluates is what it reads, in its own type. -/
theorem Surroundings.run_getterValue (column : Column) :
    (s.eval (Getter.of column).value).run (("self", .value type (.record content)) :: rest) =
      pure (.ofOption column.readType ((Getter.of column).read content),
        ("self", .value type (.record content)) :: rest) := by
  have hdowncast := Getter.downcastType_of column
  cases hthrough : (Getter.of column).readsThrough with
  | false =>
      rw [Getter.value, hthrough, if_neg Bool.false_ne_true, run_get (typeArgument?_turbofish _),
        Getter.read, hthrough, Getter.readType_of hthrough]
      cases content.get? (Getter.of column).storedType (Getter.of column).property <;> rfl
  | true =>
      rw [Getter.downcastType, hthrough, if_pos rfl] at hdowncast
      rw [Getter.value, hthrough, if_pos rfl, eval_andThen, StateT.run_bind,
        run_get (typeArgument?_optionTurbofish _), pure_bind, hdowncast, Getter.read, hthrough]
      have hstored : (Getter.of column).storedType = column.storedType := rfl
      rw [hstored]
      cases content.get? column.storedType (Getter.of column).property with
      | none => rfl
      | some value =>
          have hasRef : (s.eval (methodCall (nameExpr "it") "as_ref" [])).run
              (("it", .value column.storedType value) ::
                ("self", .value type (.record content)) :: rest) =
              pure (.ofOption column.readType value.content?,
                ("it", .value column.storedType value) ::
                  ("self", .value type (.record content)) :: rest) := by
            rw [run_methodCall rfl, run_nameExpr, ← hdowncast]
            rfl
          change (Exec.within "it" _ _).run _ = _
          rw [Exec.run_within, hasRef, pure_bind]
          cases value <;> simp [Value.content?]

/-- The function that is a getter. -/
def Getter.function (getter : Getter) : Function :=
  ⟨plainSignature getter.property [selfByReference]
    (Signature.outputOf (optionalReference getter.readType)), [resultOf getter.value]⟩

theorem functionOf?_getterCode (getter : Getter) :
    functionOf? getter.code = some getter.function := rfl

theorem run_getterFunction (column : Column) :
    (Getter.of column).function.run s [.value type (.record content)] =
      some (.ofOption column.readType ((Getter.of column).read content),
        [("self", .value type (.record content))]) :=
  Function.run_eq rfl (Surroundings.run_getterValue column)

/-- The function that is a setter. -/
def Setter.function (setter : Setter) : Function :=
  ⟨plainSignature setter.method [selfByMutable, Signature.inputOf "value" setter.storedType]
    (.empty .returnType), [storing ownBag setter.property (nameExpr "value")]⟩

theorem functionOf?_setterCode (setter : Setter) :
    functionOf? setter.code = some setter.function := rfl

/-- A setter leaves the record with the value that it stores. -/
theorem run_setterFunction (setter : Setter) (given : Node) (value : Value α) :
    setter.function.run s [.value type (.record content), .value given value] =
      some (.unit, [("self", .value type (.record (setter.store content value))),
        ("value", .value setter.storedType value)]) := by
  have hstored := @Surroundings.run_storing α s
    [("self", .value type (.record content)), ("value", .value setter.storedType value)] ownBag
    (nameExpr "value") setter.property _ _ (.value setter.storedType value) _
    Surroundings.bagOf?_ownBag rfl rfl
  refine Function.run_eq ?_ hstored
  have hvalue : Signature.parameter? (Signature.inputOf "value" setter.storedType) =
      some ⟨"value", setter.storedType⟩ := parameter?_inputOf_of_bound _ (by decide)
  have hplain : withoutRaw "value" = "value" := by decide
  have hinput : (Signature.inputOf "value" setter.storedType).is .receiver = false := rfl
  have hself : selfByMutable.is .receiver = true := rfl
  simp only [Setter.function, plainSignature, bindInputs, hself, if_true, hinput, Bool.false_eq_true,
    if_false, hvalue, Option.bind_some, Option.map_some, hplain]
  rfl

/-! ### Key helpers -/

/-- A helper calls a method of its record and, if that gives a record, a method of that. -/
theorem Surroundings.run_helperValue {helper : KeyHelper} {target : Node}
    {held : Option (Properties α)} (htype : insideOption? type = none)
    (htarget : insideOption? target = none)
    (hcall : s.call (.own type helper.property) [.value type (.record content)] =
      some (.ofOption target (held.map .record))) :
    (s.eval helper.value).run [("self", .value type (.record content))] =
      ending ((held.elim (some .nothing) fun inner =>
        s.call (.own target helper.key) [.value target (.record inner)]).map
          (·, [("self", .value type (.record content))])) := by
  rw [KeyHelper.value, eval_andThen, StateT.run_bind, run_methodCall rfl, run_nameExpr]
  change (ending ((s.method? helper.property _ (.value type (.record content)) []).map _) >>= _) = _
  rw [method?_record htype, hcall]
  cases held with
  | none => rfl
  | some inner =>
      change (Exec.within "it" _ _).run _ =
        ending ((s.call (.own target helper.key) [.value target (.record inner)]).map _)
      rw [Exec.run_within, run_methodCall rfl, run_nameExpr]
      change ((ending ((s.method? helper.key _ (.value target (.record inner)) []).map _)) >>= _) = _
      rw [method?_record htarget]
      cases s.call (.own target helper.key) [.value target (.record inner)] with
      | none => rfl
      | some datum => rfl

/-- The function that is a key helper. -/
def KeyHelper.function (helper : KeyHelper) : Function :=
  ⟨plainSignature helper.method [selfByReference]
    (Signature.outputOf (optionalReference helper.keyType)), [resultOf helper.value]⟩

theorem functionOf?_keyHelperCode (helper : KeyHelper) :
    functionOf? helper.code = some helper.function := rfl

theorem run_helperFunction {helper : KeyHelper} {target : Node}
    {held : Option (Properties α)} (htype : insideOption? type = none)
    (htarget : insideOption? target = none)
    (hcall : s.call (.own type helper.property) [.value type (.record content)] =
      some (.ofOption target (held.map .record))) :
    (helper.function.run s [.value type (.record content)]).map (·.1) =
      held.elim (some .nothing) fun inner =>
        s.call (.own target helper.key) [.value target (.record inner)] := by
  have hbody : (s.evalBlock helper.function.body).run [("self", .value type (.record content))] =
      _ := Surroundings.run_helperValue htype htarget hcall
  rw [Function.run_eq rfl hbody, Option.map_map]
  exact Option.map_id_apply

end Accessors

end EntityTables.Generated
