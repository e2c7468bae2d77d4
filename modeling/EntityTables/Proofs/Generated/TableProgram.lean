import EntityTables.Proofs.Generated.CodeProgram

/-!
# Running table types

The table that a table type describes when its code runs: constants give its names, and accessors
its columns. A column that is a foreign key asks the table type of its target for the name of the
table.
-/

namespace EntityTables.Generated

open EntityTables.Syntax EntityTables.Schema EntityTables.Call

variable {α : Type}

/-! ### Constants -/

namespace TableType

/-- The function that lists the columns. -/
def columnsFunction (type : TableType) : Function :=
  ⟨plainSignature "columns" [selfByReference] (Signature.outputOf
      (rootGeneric ["std", "vec"] "Vec" (pathType (toolPath "ColumnInfo")))),
    [resultOf (macroCallOf (rootPath ["std", "vec"])
      (brackets (commaSeparated (type.accessors.map ColumnAccessor.infoCode))))]⟩

theorem functions_tableMembers (type : TableType) :
    type.tableMembers.filterMap functionOf? = [type.columnsFunction] := by
  have hoptional : ∀ name value, (optionalConstant name value).filterMap functionOf? = [] := by
    intro name value
    cases value <;> rfl
  rw [tableMembers, List.filterMap_append, List.filterMap_append, List.filterMap_append,
    List.filterMap_cons_none rfl, hoptional, hoptional, hoptional]
  rfl

theorem functionNamed?_columns (type : TableType) :
    functionNamed? type.tableMembers "columns" = some type.columnsFunction := by
  rw [functionNamed?, functions_tableMembers]
  rfl

theorem functionNamed?_constant (type : TableType) {name : String} (hname : name ≠ "columns") :
    functionNamed? type.tableMembers name = none := by
  have hcolumns : type.columnsFunction.signature.name = "columns" := rfl
  rw [functionNamed?, functions_tableMembers, List.find?_singleton, hcolumns,
    beq_false_of_ne hname.symm]
  rfl

theorem constantOf?_memberConstant (name own : String) (type value : Node) :
    constantOf? name (memberConstant own type value) = if own = name then some value else none :=
  rfl

theorem findSome?_optionalConstant (name own : String) (value : Option String) :
    (optionalConstant own value).findSome? (constantOf? name) =
      if own = name then value.map fun value => callOf somePath [textExpr value] else none := by
  cases value with
  | none => exact (ite_self none).symm
  | some value =>
      rw [optionalConstant, List.findSome?_singleton, constantOf?_memberConstant]
      rfl

/-- A constant is one of the four that the implementation of a table type may have. -/
theorem constantOf?_tableMembers (type : TableType) (name : String) :
    let optional (own : String) (value : Option String) : Option Node :=
      if own = name then value.map fun value => callOf somePath [textExpr value] else none
    type.tableMembers.findSome? (constantOf? name) =
      (if "TABLE_NAME" = name then some (textExpr type.tableName) else none).or
        ((optional "ALIAS" type.aliasName).or
          ((optional "CATALOG" type.catalog).or (optional "SCHEMA" type.schema))) := by
  have hcolumns : [type.columnsCode].findSome? (constantOf? name) = none := rfl
  rw [tableMembers, List.findSome?_append, List.findSome?_append, List.findSome?_append,
    List.findSome?_cons, constantOf?_memberConstant, findSome?_optionalConstant,
    findSome?_optionalConstant, findSome?_optionalConstant, hcolumns]
  split <;> simp_all [Option.or_assoc]

end TableType

/-! ### The members of a table type in a program -/

section Members

variable {program : Program α} {type : TableType} {self : Node}
  {call : Callee → List (Datum α) → Option (Datum α)}

/-- A constant has the value that it is declared with. -/
theorem tableMember?_constant (hmembers : tableMembers? program.items self = some type.tableMembers)
    {name : String} (hname : name ≠ "columns") {value : Node}
    (hvalue : type.tableMembers.findSome? (constantOf? name) = some value) :
    program.tableMember? call self name [] =
      (Function.run ⟨default, [resultOf value]⟩ (program.surroundings call self) []).map (·.1) := by
  rw [Program.tableMember?, hmembers]
  dsimp only
  rw [type.functionNamed?_constant hname, hvalue]

theorem run_constant {s : Surroundings α} {value : Node} {result : Datum α}
    (hvalue : (s.eval value).run [] = pure (result, [])) :
    (Function.run ⟨default, [resultOf value]⟩ s []).map (·.1) = some result := by
  rw [@Function.run_eq _ ⟨default, [resultOf value]⟩ s [] [] (some (result, [])) rfl hvalue]
  rfl

theorem tableMember?_tableName
    (hmembers : tableMembers? program.items self = some type.tableMembers) :
    program.tableMember? call self "TABLE_NAME" [] = some (.text type.tableName) := by
  rw [tableMember?_constant hmembers (by decide)
    (by rw [type.constantOf?_tableMembers]; rfl : _ = some (textExpr type.tableName)),
    run_constant (Surroundings.run_textExpr _)]

/-- A name that a table may lack is nothing where it is not declared. -/
theorem tableMember?_optional
    (hmembers : tableMembers? program.items self = some type.tableMembers) {name : String}
    (hname : name ≠ "columns") {value : Option String}
    (hvalue : type.tableMembers.findSome? (constantOf? name) =
      value.map fun value => callOf somePath [textExpr value]) :
    program.tableMember? call self name [] =
      some (value.elim .nothing fun value => .something (.text value)) := by
  cases value with
  | none =>
      rw [Program.tableMember?, hmembers]
      dsimp only
      rw [type.functionNamed?_constant hname, hvalue]
      rfl
  | some value =>
      have hsome : ((program.surroundings call self).eval (callOf somePath [textExpr value])).run [] =
          pure (.something (.text value), []) := by
        have hread : (program.surroundings call self).eval (callOf somePath [textExpr value]) = (do
            let values ← (do
              let text ← (program.surroundings call self).eval (textExpr value)
              return [text])
            Exec.ofOption (LibraryFunction.wrap.call? values)) := rfl
        rw [hread]
        simp only [StateT.run_bind, Surroundings.run_textExpr, pure_bind]
        rfl
      rw [tableMember?_constant hmembers hname hvalue, run_constant hsome]
      rfl

end Members

/-! ### Columns -/

section Columns

variable {s : Surroundings α} {bindings : Bindings α} {accessor : ColumnAccessor}
  {types : List TableType} {sqlText : SqlTypeRef → String} {tableName : String}

theorem eval_sqlTypeExpr (sqlType : SqlTypeRef) :
    s.eval (sqlTypeExpr sqlType) = Exec.ofOption (s.other (sqlTypeExpr sqlType)) := by
  unfold sqlTypeExpr
  cases sqlType.shape <;> rfl

theorem evalAll_sqlTypeExpr (sqlType : SqlTypeRef) :
    s.evalAll [sqlTypeExpr sqlType] = s.eval (sqlTypeExpr sqlType) >>= fun datum => pure [datum] := by
  unfold sqlTypeExpr
  cases sqlType.shape <;> rfl

/-- A new column has the name of the table that its own type describes. -/
theorem run_newColumn (valueType : Node) (name : String) {sqlType : SqlTypeRef}
    (hown : s.call (.table s.self "TABLE_NAME") [] = some (.text tableName))
    (hsql : s.other (sqlTypeExpr sqlType) = some (.sqlType (sqlText sqlType))) :
    (s.eval (callOf (ColumnAccessor.newColumn valueType)
      [tableNameOf "Self", textExpr name, sqlTypeExpr sqlType])).run bindings =
      pure (.column (.new tableName name (sqlText sqlType)), bindings) := by
  have hread : s.eval (callOf (ColumnAccessor.newColumn valueType)
      [tableNameOf "Self", textExpr name, sqlTypeExpr sqlType]) = (do
        let values ← (do
          let table ← s.eval (tableNameOf "Self")
          let values ← (do
            let text ← s.eval (textExpr name)
            let values ← s.evalAll [sqlTypeExpr sqlType]
            return text :: values)
          return table :: values)
        Exec.ofOption (LibraryFunction.newColumn.call? values)) := rfl
  have hself : resolveSelf s.self (namedType "Self") = s.self := if_pos rfl
  rw [hread, evalAll_sqlTypeExpr, eval_sqlTypeExpr, hsql]
  simp only [StateT.run_bind, tableNameOf, Surroundings.run_tableConstant, hself, hown,
    Surroundings.run_textExpr, pure_bind, Option.map_some, ending_some, Exec.run_ofOption]
  rfl

/-- A column is changed by a method without arguments, where code has a call of it. -/
theorem run_columnMethod {receiver : Node} {column : Database.Column}
    (hreceiver : (s.eval receiver).run bindings = pure (.column column, bindings))
    (hbag : bindings.bagOf? receiver = none) (called : Bool) {method : String}
    {changed : Database.Column}
    (hmethod : s.method? method (.empty .genericArgs) (.column column) [] =
      some (.column changed)) :
    let expr := if called then methodCall receiver method [] else receiver
    bindings.bagOf? expr = none ∧
      (s.eval expr).run bindings = pure (.column (if called then changed else column), bindings) := by
  cases called with
  | false => exact ⟨hbag, hreceiver⟩
  | true =>
      refine ⟨rfl, ?_⟩
      rw [if_pos rfl, if_pos rfl, Surroundings.run_methodCall hbag, hreceiver, pure_bind, hmethod]
      rfl

/-- A column refers to the table that a table type names. -/
theorem run_foreignKey {receiver : Node} {column : Database.Column} {key : ForeignKey}
    (hreceiver : (s.eval receiver).run bindings = pure (.column column, bindings))
    (hplain : key.tableType ≠ "Self") {target : String}
    (htarget : s.call (.table (namedType key.tableType) "TABLE_NAME") [] = some (.text target)) :
    (s.eval (key.code receiver)).run bindings =
      pure (.column (column.references target key.column), bindings) := by
  have hread : s.eval (key.code receiver) = (do
      let _ ← get
      let datum ← s.eval receiver
      let values ← (do
        let table ← s.eval (tableNameOf key.tableType)
        let values ← (do
          let text ← s.eval (textExpr key.column)
          return [text])
        return table :: values)
      Exec.ofOption (s.method? "references" (.empty .genericArgs) datum values)) := rfl
  rw [← @resolveSelf_of_ne s.self _ hplain] at htarget
  rw [hread]
  simp only [StateT.run_bind, StateT.run_get, pure_bind, hreceiver, tableNameOf,
    Surroundings.run_tableConstant, htarget, Surroundings.run_textExpr]
  rfl

/-- The table that a foreign key of an accessor names, as its table type describes it. -/
def targetName (types : List TableType) (key : ForeignKey) : String :=
  ((types.find? (·.name == key.tableType)).map (·.tableName)).getD ""

/-- An accessor evaluates the column that it describes. -/
theorem run_accessorValue (accessor : ColumnAccessor)
    (hown : s.call (.table s.self "TABLE_NAME") [] = some (.text tableName))
    (hsql : s.other (sqlTypeExpr accessor.sqlType) = some (.sqlType (sqlText accessor.sqlType)))
    (hkeys : ∀ key, accessor.reference = some key → key.tableType ≠ "Self" ∧
      s.call (.table (namedType key.tableType) "TABLE_NAME") [] =
        some (.text (targetName types key))) :
    (s.eval accessor.value).run bindings =
      pure (.column (accessor.describe types sqlText tableName), bindings) := by
  obtain ⟨method, name, sqlType, primaryKey, nullable, reference⟩ := accessor
  have hnew : (s.eval (callOf (ColumnAccessor.newColumn sqlType.valueType)
      [tableNameOf "Self", textExpr name, sqlTypeExpr sqlType])).run bindings = _ :=
    run_newColumn sqlType.valueType name hown hsql
  obtain ⟨hkeyedBag, hkeyed⟩ := run_columnMethod hnew rfl primaryKey
    (rfl : s.method? "primary_key" _ _ _ = some (.column (Database.Column.primaryKey _)))
  obtain ⟨-, hnullable⟩ := run_columnMethod hkeyed hkeyedBag nullable
    (rfl : s.method? "nullable" _ _ _ = some (.column (Database.Column.nullable _)))
  cases reference with
  | none => exact hnullable
  | some key =>
      obtain ⟨hplain, htarget⟩ := hkeys key rfl
      exact run_foreignKey hnullable hplain htarget

/-- The function that is an accessor. -/
def ColumnAccessor.function (accessor : ColumnAccessor) : Function :=
  ⟨plainSignature accessor.method [selfByReference]
    (Signature.outputOf (rootGeneric ["tablegen"] "Column" accessor.sqlType.valueType)),
    [resultOf accessor.value]⟩

theorem functionOf?_accessorCode (accessor : ColumnAccessor) :
    functionOf? accessor.code = some accessor.function := rfl

/-- What a table type lists is what its accessors give. -/
theorem run_infoCode {accessor : ColumnAccessor} {column : Database.Column}
    (hcall : s.call (.own s.self accessor.method) [.object s.self []] = some (.column column)) :
    (s.eval accessor.infoCode).run [("self", .object s.self [])] =
      pure (.info column.info, [("self", .object s.self [])]) := by
  have hself : (s.eval (methodCall (nameExpr "self") accessor.method [])).run
      [("self", .object s.self [])] = pure (.column column, [("self", .object s.self [])]) := by
    have hmethod : s.method? accessor.method (.empty .genericArgs) (.object s.self []) [] =
        some (.column column) := hcall
    rw [Surroundings.run_methodCall rfl, Surroundings.run_nameExpr]
    change ending ((s.method? accessor.method _ (.object s.self []) []).map _) = _
    rw [hmethod]
    rfl
  rw [ColumnAccessor.infoCode, Surroundings.run_methodCall rfl, hself]
  rfl

theorem run_infoCodes {accessors : List ColumnAccessor}
    {columns : ColumnAccessor → Database.Column}
    (hcalls : ∀ accessor ∈ accessors,
      s.call (.own s.self accessor.method) [.object s.self []] = some (.column (columns accessor))) :
    (s.evalAll (commaSeparated (accessors.map ColumnAccessor.infoCode))).run
        [("self", .object s.self [])] =
      pure (accessors.map fun accessor => .info (columns accessor).info,
        [("self", .object s.self [])]) := by
  induction accessors with
  | nil => rfl
  | cons accessor rest ih =>
      obtain ⟨hfirst, hrest⟩ := List.forall_mem_cons.mp hcalls
      have hread : s.evalAll (commaSeparated ((accessor :: rest).map ColumnAccessor.infoCode)) =
          (do
            let datum ← s.eval accessor.infoCode
            let values ← s.evalAll (commaSeparated (rest.map ColumnAccessor.infoCode))
            return datum :: values) := by
        cases rest <;> rfl
      rw [hread, StateT.run_bind, run_infoCode hfirst, pure_bind, StateT.run_bind, ih hrest]
      rfl

/-- The columns of a table are those that the accessors of its type give. -/
theorem run_columnsFunction {type : TableType} {columns : ColumnAccessor → Database.Column}
    (hcalls : ∀ accessor ∈ type.accessors,
      s.call (.own s.self accessor.method) [.object s.self []] = some (.column (columns accessor))) :
    (type.columnsFunction.run s [.object s.self []]).map (·.1) =
      some (.infos (type.accessors.map fun accessor => (columns accessor).info)) := by
  have hread : s.evalBlock type.columnsFunction.body =
      if rootPath ["std", "vec"] = rootPath ["std", "vec"] then (do
        let values ← s.evalAll (commaSeparated (type.accessors.map ColumnAccessor.infoCode))
        Exec.ofOption ((values.mapM Datum.info?).map .infos))
      else Exec.stuck := rfl
  have hinfos : (type.accessors.map fun accessor =>
      (.info (columns accessor).info : Datum α)).mapM Datum.info? =
        some (type.accessors.map fun accessor => (columns accessor).info) := by
    rw [List.mapM_map]
    exact List.mapM_pure
  have hbody : (s.evalBlock type.columnsFunction.body).run [("self", .object s.self [])] =
      ending (some (.infos (type.accessors.map fun accessor => (columns accessor).info),
        [("self", .object s.self [])])) := by
    rw [hread, if_pos rfl, StateT.run_bind, run_infoCodes hcalls, pure_bind, hinfos]
    rfl
  rw [Function.run_eq rfl hbody]
  rfl

end Columns

/-! ### The table of a type -/

section Table

variable {generated : Program α} {code : Code} {type : TableType} {sqlText : SqlTypeRef → String}

theorem call_tableName (hitems : generated.items = code.items) {name : String}
    (hfound : code.tableTypes.find? (·.name == name) = some type) (depth : Nat) :
    generated.call? (depth + 1) (.table (namedType name) "TABLE_NAME") [] =
      some (.text type.tableName) := by
  rw [Program.call?, tableMember?_tableName]
  rw [hitems, tableMembers?_items, hfound]
  rfl

/-- The foreign keys of a table type name table types of the same code. -/
def RefersWithin (code : Code) (type : TableType) : Prop :=
  ∀ accessor ∈ type.accessors, ∀ key, accessor.reference = some key →
    key.tableType ≠ "Self" ∧ ∃ target ∈ code.tableTypes, target.name = key.tableType

/-- The accessors of a table type give the columns that they describe. -/
theorem call_accessor (hitems : generated.items = code.items)
    (hsql : ∀ sqlType, generated.other (sqlTypeExpr sqlType) = some (.sqlType (sqlText sqlType)))
    (hnames : (code.tableTypes.map (·.name)).Nodup) (htype : type ∈ code.tableTypes)
    (hmethods : (methodNames code.items type.selfType).Nodup) (hwithin : RefersWithin code type)
    {accessor : ColumnAccessor} (haccessor : accessor ∈ type.accessors) (depth : Nat) :
    generated.call? (depth + 2) (.own type.selfType accessor.method)
        [.object type.selfType []] =
      some (.column (accessor.describe code.tableTypes sqlText type.tableName)) := by
  have hmem : accessor.function ∈ methodsOf code.items type.selfType := by
    obtain ⟨entry, hentry, rfl⟩ := List.mem_map.mp htype
    exact List.mem_filterMap.mpr ⟨_, mem_ownMembers_tableType hentry haccessor,
      functionOf?_accessorCode accessor⟩
  have hown := call_tableName hitems (find?_key_of_mem TableType.name hnames htype) depth
  have hkeys : ∀ key, accessor.reference = some key → key.tableType ≠ "Self" ∧
      generated.call? (depth + 1) (.table (namedType key.tableType) "TABLE_NAME") [] =
        some (.text (targetName code.tableTypes key)) := by
    intro key hkey
    obtain ⟨hplain, target, htarget, hname⟩ := hwithin accessor haccessor key hkey
    have hfound := find?_key_of_mem TableType.name hnames htarget
    rw [hname] at hfound
    refine ⟨hplain, ?_⟩
    rw [call_tableName hitems hfound, targetName, hfound]
    rfl
  rw [← hitems] at hmethods hmem
  have hvalue := @run_accessorValue α (generated.surroundings (generated.call? (depth + 1))
    type.selfType) [("self", .object type.selfType [])] _ _ _ accessor hown (hsql _) hkeys
  have hrun : accessor.function.run (generated.surroundings (generated.call? (depth + 1))
      type.selfType) [.object type.selfType []] = some _ := Function.run_eq rfl hvalue
  refine (call_of_mem hmethods hmem (depth + 1) _).trans ?_
  rw [hrun]
  rfl

/-- The code of a table type describes its table. -/
theorem table?_eq (hitems : generated.items = code.items)
    (hsql : ∀ sqlType, generated.other (sqlTypeExpr sqlType) = some (.sqlType (sqlText sqlType)))
    (hnames : (code.tableTypes.map (·.name)).Nodup) (htype : type ∈ code.tableTypes)
    (hmethods : (methodNames code.items type.selfType).Nodup) (hwithin : RefersWithin code type)
    (depth : Nat) :
    generated.table? (depth + 3) type.selfType =
      some (type.describe code.tableTypes sqlText) := by
  have hmembers : tableMembers? generated.items type.selfType = some type.tableMembers := by
    rw [hitems, TableType.selfType, tableMembers?_items,
      find?_key_of_mem TableType.name hnames htype]
    rfl
  have hname : generated.call? (depth + 3) (.table type.selfType "TABLE_NAME") [] =
      some (.text type.tableName) := tableMember?_tableName hmembers
  have hoptional : ∀ name value, name ≠ "columns" →
      type.tableMembers.findSome? (constantOf? name) =
        value.map (fun value => callOf somePath [textExpr value]) →
      ∃ datum, generated.call? (depth + 3) (.table type.selfType name) [] = some datum ∧
        datum.optionalText? = some value := by
    intro name value hname hvalue
    refine ⟨_, tableMember?_optional hmembers hname hvalue, ?_⟩
    cases value <;> rfl
  obtain ⟨_, halias, haliasText⟩ := hoptional "ALIAS" type.aliasName (by decide)
    (by rw [type.constantOf?_tableMembers]; simp)
  obtain ⟨_, hcatalog, hcatalogText⟩ := hoptional "CATALOG" type.catalog (by decide)
    (by rw [type.constantOf?_tableMembers]; simp)
  obtain ⟨_, hschema, hschemaText⟩ := hoptional "SCHEMA" type.schema (by decide)
    (by rw [type.constantOf?_tableMembers]; simp)
  have hcolumns : generated.call? (depth + 3) (.table type.selfType "columns")
      [.object type.selfType []] = some (.infos (type.accessors.map fun accessor =>
        (accessor.describe code.tableTypes sqlText type.tableName).info)) := by
    rw [Program.call?, Program.tableMember?, hmembers]
    dsimp only
    rw [type.functionNamed?_columns]
    exact run_columnsFunction fun accessor haccessor =>
      call_accessor hitems hsql hnames htype hmethods hwithin haccessor depth
  rw [Program.table?]
  simp only [Option.bind_eq_bind, hname, halias, haliasText, hcatalog, hcatalogText, hschema,
    hschemaText, hcolumns, Option.bind_some]
  rfl

end Table

end EntityTables.Generated
