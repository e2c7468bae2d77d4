import EntityTables.Proofs.Generated.Conversions
import EntityTables.Proofs.Generated.EntityProgram

/-!
# Running conversions

The methods that are generated for a struct move its columns into a property bag, and take them out
of a bag again. Each field has the type that it is declared with: in this type it is set, and in no
other type it is taken.
-/

namespace EntityTables.Generated

open EntityTables.Syntax EntityTables.Schema EntityTables.Call

variable {α : Type}

/-! ### Structs of running code -/

/-- The fields of a struct in running code, each with its type. -/
abbrev TypedFields (α : Type) := List (String × Typed Node (Value α))

/-- The values of fields without their types. -/
def TypedFields.values (fields : TypedFields α) : Fields α :=
  fields.map fun field => (field.1, field.2.value)

theorem TypedFields.lookup_values (fields : TypedFields α) (name : String) :
    fields.values.lookup name = (fields.lookup name).map (·.value) := by
  induction fields with
  | nil => rfl
  | cons field rest ih =>
      rw [values, List.map_cons, List.lookup_cons, List.lookup_cons]
      cases name == field.1 with
      | true => rfl
      | false => exact ih

/-! ### Moving fields into a bag -/

section Into

variable {s : Surroundings α} {type : Node} {fields : TypedFields α}

/-- The variables while fields move into a bag. -/
def moving (type : Node) (fields : TypedFields α) (content : Properties α) : Bindings α :=
  [("record", .bag content), ("self", .object type fields)]

/-- A field moves into the bag in its own type. -/
theorem run_move {name : String} {typed : Typed Node (Value α)}
    (hgiven : fields.lookup name = some typed) (content : Properties α) :
    (s.evalBlock [storing (nameExpr "record") name (fieldOf (nameExpr "self") name)]).run
        (moving type fields content) =
      pure (.unit, moving type fields (content.set name typed.type typed.value)) := by
  have hbag : (moving type fields content).bagOf? (nameExpr "record") =
      some (⟨"record", []⟩, .bag content, content) := rfl
  have hvalue : (s.eval (fieldOf (nameExpr "self") name)).run
      (("record", .lent) :: moving type fields content) =
        pure (.value typed.type typed.value, ("record", .lent) :: moving type fields content) := by
    have hself : (s.eval (nameExpr "self")).run (("record", .lent) :: moving type fields content) =
        pure (.object type fields, ("record", .lent) :: moving type fields content) := rfl
    rw [Surroundings.eval_fieldOf, StateT.run_bind, hself, pure_bind, Exec.run_ofOption,
      Datum.field?, hgiven]
    rfl
  rw [Surroundings.run_storing hbag rfl hvalue]
  rfl

/-- Fields move into the bag one after the other, and the bag is the result. -/
theorem run_moves {moved : List MovedField}
    (hgiven : ∀ field ∈ moved, ∃ value, fields.lookup field.name = some ⟨field.type, value⟩)
    (content : Properties α) :
    (s.evalBlock ((moved.map fun field => storing (nameExpr "record") field.name
        (fieldOf (nameExpr "self") field.name)) ++ [resultOf (nameExpr "record")])).run
      (moving type fields content) =
      ending ((moved.foldlM (fun record field =>
        (fields.values.lookup field.name).map (record.set field.name field.type)) content).map
          fun content => (.bag content, moving type fields content)) := by
  induction moved generalizing content with
  | nil => rfl
  | cons field rest ih =>
      obtain ⟨⟨value, hvalue⟩, hrest⟩ := List.forall_mem_cons.mp hgiven
      rw [List.map_cons, List.cons_append, storing, Surroundings.run_exprStatement, ← storing,
        run_move hvalue, pure_bind, ih hrest, List.foldlM_cons, TypedFields.lookup_values, hvalue]
      rfl

end Into

/-! ### Taking fields from a bag -/

section From

variable {s : Surroundings α}

/-- The variable of a function that takes a record apart. -/
def taking (content : Properties α) : Bindings α := [("record", .bag content)]

/-- A property is taken from the bag, and the variable keeps the rest of it. -/
theorem run_take (field : MovedField) (content : Properties α) :
    (s.eval (methodCallWith (turbofish field.type) (nameExpr "record") "take"
      [textExpr field.name])).run (taking content) =
      pure (.ofOption field.type (content.take field.type field.name).1,
        taking (content.take field.type field.name).2) := by
  have hbag : (taking content).bagOf? (nameExpr "record") =
      some (⟨"record", []⟩, .bag content, content) := rfl
  have hvalues : (Exec.within "record" .lent (s.evalAll [textExpr field.name])).run
      (taking content) = pure ([.text field.name], taking content) := by
    have hall : s.evalAll [textExpr field.name] = (do
        let text ← s.eval (textExpr field.name)
        return [text]) := rfl
    rw [Exec.run_within, hall, StateT.run_bind, Surroundings.run_textExpr]
    rfl
  exact Surroundings.run_changing rfl hbag hvalues

/-- Taking a field gives its value, or leaves the function with nothing. -/
theorem run_taking (field : MovedField) (content : Properties α) :
    (s.eval (tried (methodCallWith (turbofish field.type) (nameExpr "record") "take"
      [textExpr field.name]))).run (taking content) =
      (content.take field.type field.name).1.elim (ExceptT.mk (some (.error .nothing)))
        fun value => pure (.value field.type value,
          taking (content.take field.type field.name).2) := by
  rw [Surroundings.eval_tried, StateT.run_bind, run_take, pure_bind]
  cases content.take field.type field.name with
  | mk value content => cases value <;> rfl

/-- Takes fields with their types from a record, up to the first that is missing or has another
type. -/
def takeTyped (record : Properties α) : List MovedField → Option (TypedFields α)
  | [] => some []
  | field :: rest =>
    match record.take field.type field.name with
    | (some value, record) =>
      (takeTyped record rest).map ((field.name, ⟨field.type, value⟩) :: ·)
    | (none, _) => none

/-- The field of a struct that running code has found. -/
def givenField (field : String × Typed Node (Value α)) : String × Datum α :=
  (field.1, .value field.2.type field.2.value)

theorem run_filling (defaulted : List String) (bindings : Bindings α) :
    (s.evalFields (commaEnded (defaulted.map fun name => [fillingField name]))).run bindings =
      pure (defaulted.map (·, .unset), bindings) := by
  induction defaulted with
  | nil => rfl
  | cons name rest ih =>
      have hread : s.evalFields (commaEnded ((name :: rest).map fun name => [fillingField name])) =
          (do
            let datum ← s.eval (callOf (rootPath ["core", "default", "Default", "default"]) [])
            let values ← s.evalFields (commaEnded (rest.map fun name => [fillingField name]))
            return (name, datum) :: values) := rfl
      have hdefault : (s.eval (callOf (rootPath ["core", "default", "Default", "default"])
          [])).run bindings = pure (.unset, bindings) := rfl
      rw [hread, StateT.run_bind, hdefault, pure_bind, StateT.run_bind, ih]
      rfl

/-- Fields are taken one after the other, and the other fields are left open. -/
theorem run_evalFields (moved : List MovedField) (defaulted : List String)
    (content : Properties α) : ∃ after,
    (s.evalFields (commaEnded ((moved.map MovedField.taking ++
        defaulted.map fillingField).map fun field => [field]))).run (taking content) =
      (takeTyped content moved).elim (ExceptT.mk (some (.error .nothing))) fun taken =>
        pure (taken.map givenField ++ defaulted.map (·, .unset), after) := by
  induction moved generalizing content with
  | nil =>
      refine ⟨taking content, ?_⟩
      rw [List.map_nil, List.nil_append, List.map_map]
      exact run_filling defaulted (taking content)
  | cons field rest ih =>
      obtain ⟨after, hrest⟩ := ih (content.take field.type field.name).2
      refine ⟨after, ?_⟩
      have hread : s.evalFields (commaEnded (((field :: rest).map MovedField.taking ++
          defaulted.map fillingField).map fun field => [field])) = (do
            let datum ← s.eval (tried (methodCallWith (turbofish field.type) (nameExpr "record")
              "take" [textExpr field.name]))
            let values ← s.evalFields (commaEnded ((rest.map MovedField.taking ++
              defaulted.map fillingField).map fun field => [field]))
            return (field.name, datum) :: values) := rfl
      rw [hread, StateT.run_bind, run_taking, takeTyped]
      cases htake : content.take field.type field.name with
      | mk value left =>
          rw [htake] at hrest
          cases value with
          | none => rfl
          | some value =>
              simp only [Option.elim_some, pure_bind, StateT.run_bind, hrest]
              cases takeTyped left rest with
              | none => rfl
              | some taken => rfl

end From

/-! ### The methods of a struct -/

namespace Conversion

variable {s : Surroundings α} {conversion : Conversion}

/-- The function that moves a struct into a bag. -/
def intoFunction (conversion : Conversion) : Function :=
  ⟨plainSignature "into_record" [selfByValue] (Signature.outputOf bagType),
    letMut [] "record" (emptyBag conversion.tableType) ::
      conversion.moved.map (fun field => storing (nameExpr "record") field.name
        (fieldOf (nameExpr "self") field.name)) ++ [resultOf (nameExpr "record")]⟩

theorem functionOf?_intoCode (conversion : Conversion) :
    functionOf? conversion.intoCode = some conversion.intoFunction := rfl

theorem run_intoFunction {type : Node} {fields : TypedFields α} {tableName : String}
    (hplain : conversion.tableType ≠ "Self")
    (hname : s.call (.table (namedType conversion.tableType) "TABLE_NAME") [] =
      some (.text tableName))
    (hgiven : ∀ field ∈ conversion.moved,
      ∃ value, fields.lookup field.name = some ⟨field.type, value⟩) :
    (conversion.intoFunction.run s [.object type fields]).map (·.1) =
      (conversion.intoRecord tableName fields.values).map .bag := by
  rw [← @resolveSelf_of_ne s.self _ hplain] at hname
  have hbody : (s.evalBlock conversion.intoFunction.body).run [("self", .object type fields)] =
      ending ((conversion.intoRecord tableName fields.values).map fun content =>
        (.bag content, moving type fields content)) := by
    rw [intoFunction, List.cons_append, Surroundings.run_letMut_record,
      Surroundings.run_emptyBag hname, pure_bind]
    exact run_moves hgiven (.empty tableName)
  rw [Function.run_eq rfl hbody, Option.map_map]
  rfl

/-- The function that takes a struct out of a bag. -/
def fromFunction (conversion : Conversion) (defaulted : List String) : Function :=
  ⟨plainSignature "from_record" [.phrase .param [.empty .attributes,
      .phrase .identPat [.ident "mut", .ident "record"], .punct ":", bagType]]
      (Signature.outputOf (optionOf (namedType "Self"))),
    [resultOf (callOf somePath [structOf "Self" (commaEnded ((conversion.moved.map MovedField.taking ++
      defaulted.map fillingField).map fun field => [field]))])]⟩

/-- Fields that are not found in a bag make a struct with the types that they have. -/
theorem ofFields?_given (fill : String → Typed Node (Value α)) (type : Node)
    (taken : TypedFields α) (defaulted : List String) :
    Datum.ofFields? fill type (taken.map givenField ++ defaulted.map (·, .unset)) =
      some (.object type (taken ++ defaulted.map fun name => (name, fill name))) := by
  have hnoBag : ∀ content, taken.map givenField ++ defaulted.map (·, .unset) ≠
      [("record", .bag content)] := by
    intro content hbag
    have hmem : ("record", Datum.bag content) ∈
        taken.map givenField ++ defaulted.map (·, .unset) := hbag ▸ List.mem_singleton_self _
    rcases List.mem_append.mp hmem with hmem | hmem
    · obtain ⟨_, -, heq⟩ := List.mem_map.mp hmem
      cases congrArg Prod.snd heq
    · obtain ⟨_, -, heq⟩ := List.mem_map.mp hmem
      cases congrArg Prod.snd heq
  unfold Datum.ofFields?
  split
  · next content hbag => exact absurd hbag (hnoBag content)
  · have htaken : (taken.map givenField).mapM (fun entry : String × Datum α =>
        (entry.2.typed? fill entry.1).map (entry.1, ·)) = some taken := by
      rw [List.mapM_map]
      exact List.mapM_pure.trans (congrArg some (List.map_id taken))
    have hfilled : (defaulted.map (·, Datum.unset)).mapM (fun entry : String × Datum α =>
        (entry.2.typed? fill entry.1).map (entry.1, ·)) =
          some (defaulted.map fun name => (name, fill name)) := by
      rw [List.mapM_map]
      exact List.mapM_pure
    rw [List.mapM_append, htaken, hfilled]
    rfl

theorem run_fromFunction (defaulted : List String) (content : Properties α) :
    ((conversion.fromFunction defaulted).run s [.bag content]).map (·.1) =
      some ((takeTyped content conversion.moved).elim .nothing fun taken =>
        .something (.object s.self (taken ++ defaulted.map fun name => (name, s.fill name)))) := by
  have hread : s.evalBlock (conversion.fromFunction defaulted).body = (do
      let values ← (do
        let datum ← (do
          let fields ← s.evalFields (commaEnded ((conversion.moved.map MovedField.taking ++
            defaulted.map fillingField).map fun field => [field]))
          Exec.ofOption
            (Datum.ofFields? s.fill (resolveSelf s.self (namedType "Self")) fields))
        return [datum])
      Exec.ofOption (LibraryFunction.wrap.call? values)) := rfl
  obtain ⟨after, hfields⟩ := @run_evalFields α s conversion.moved defaulted content
  have hinputs : bindInputs (conversion.fromFunction defaulted).signature.inputs
      [.bag content] = some (taking content) := rfl
  have hself : resolveSelf s.self (namedType "Self") = s.self := if_pos rfl
  cases htaken : takeTyped content conversion.moved with
  | none =>
      rw [htaken] at hfields
      rw [Function.run_of_left hinputs (by rw [hread]; simp only [StateT.run_bind, hfields]; rfl)]
      rfl
  | some taken =>
      rw [htaken] at hfields
      have hbody : (s.evalBlock (conversion.fromFunction defaulted).body).run (taking content) =
          ending (some (.something (.object s.self
            (taken ++ defaulted.map fun name => (name, s.fill name))), after)) := by
        rw [hread]
        simp only [StateT.run_bind, hfields, Option.elim_some, pure_bind, hself, ofFields?_given]
        rfl
      rw [Function.run_eq hinputs hbody]
      rfl

end Conversion

end EntityTables.Generated
