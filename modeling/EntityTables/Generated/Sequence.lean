import EntityTables.Generated.Basic

/-!
# Sequences of entities

The trait by which any database opens the entities of a table.
-/

namespace EntityTables.Generated

open EntityTables.Syntax EntityTables.Schema
open EntityTables.Call (withoutRaw)

structure SequenceTrait where
  name : String
  method : String
  tableType : String
  entity : String

def SequenceTrait.of (table : Table) : Except Error SequenceTrait := do
  let tableType ← identifier table table.typeName
  let method ← identifier table table.sequenceName
  return ⟨withoutRaw tableType ++ "Sequence", method, tableType, table.entity⟩

/-- The method that opens the entities of a table. -/
def SequenceTrait.methodCode (trait : SequenceTrait) : Node :=
  let result := pathType (absolutePath [segmentOf "tablegen", .phrase .segment
    [.ident "EntitySequence", .phrase .genericArgs [.punct "<", .leaf (.lifetime "'_"), .punct ",",
      namedType "Self", .punct ",", namedType trait.tableType, .punct ">"]]])
  .phrase .traitFn [.phrase .attributes
      [docAttribute ("Sequence of `" ++ trait.entity ++ "` entities.")],
    (plainSignature trait.method [selfByReference] (Signature.outputOf result)).toNode,
    braces [resultOf (callOf (rootPath ["tablegen", "Database", "sequence_of"])
      [nameExpr "self", nameExpr trait.tableType])]]

def SequenceTrait.code (trait : SequenceTrait) : List Node :=
  let database := Node.phrase .traitBound [toolPath "Database"]
  let parameter := Node.phrase .genericParam
    [.empty .attributes, .ident "D", .punct ":", database]
  [.phrase .traitItem [.phrase .attributes
        [docAttribute ("Opens `" ++ trait.tableType ++ "` on any database.")], publicly,
      .empty .qualifiers, .ident "trait", .ident trait.name, .empty .generics,
      .phrase .supertraits [.punct ":", database, .punct "+",
        .phrase .traitBound [rootPath ["core", "marker", "Sized"]]],
      .empty .whereClause, braces [trait.methodCode]],
    implItemOf (.phrase .generics [.punct "<", parameter, .punct ">"])
      [namePath [trait.name], .ident "for"] (namedType "D") []]

end EntityTables.Generated
