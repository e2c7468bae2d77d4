import EntityTables.Syntax.Grammar.Operator
import EntityTables.Syntax.Signature

/-!
# Phrases of code

Small functions that make the phrases of expressions, statements and items, for code that is
generated.
-/

namespace EntityTables.Syntax

/-- A path of plain names. -/
def namePath (names : List String) : Node := pathOf (names.map segmentOf)

/-- A path of plain names from the root. -/
def rootPath (names : List String) : Node := absolutePath (names.map segmentOf)

/-- A type in angle brackets, as expressions write it. -/
def turbofish (type : Node) : Node :=
  .phrase .genericArgs [.punct "::", .punct "<", type, .punct ">"]

/-- A segment with a type in angle brackets, as expressions write it. -/
def turbofishSegment (name : String) (type : Node) : Node :=
  .phrase .segment [.ident name, turbofish type]

/-- A type with another one in angle brackets, at the end of a path from the root. -/
def rootGeneric (names : List String) (name : String) (type : Node) : Node :=
  pathType (absolutePath (names.map segmentOf ++ [.phrase .segment
    [.ident name, .phrase .genericArgs [.punct "<", type, .punct ">"]]]))

/-- The optional form of a type in angle brackets, where one token closes both pairs. -/
def optionTurbofish (type : Node) : Node :=
  .phrase .genericArgs [.punct "::", .punct "<",
    pathType (absolutePath [segmentOf "core", segmentOf "option", .phrase .segment
      [.ident "Option", .phrase .genericArgs [.punct "<", type]]]), .punct ">>"]

def referenceTo (type : Node) : Node := .phrase .referenceType [.punct "&", type]

def staticText : Node :=
  .phrase .referenceType [.punct "&", .leaf (.lifetime "'static"), namedType "str"]

/-- A name of a type that a trait gives it. -/
def traitConstant (type trait : Node) (name : String) : Node :=
  .phrase .qualifiedPathExpr [.empty .attributes, .phrase .qualifiedPath [.punct "<", type,
    .ident "as", trait, .punct ">", .punct "::", segmentOf name]]

/-! ### Expressions -/

def literalExprOf (text : String) : Node := bareExpr .literalExpr [.literal text]

def textExpr (text : String) : Node := bareExpr .literalExpr [stringLiteral text]

def callOf (function : Node) (arguments : List Node) : Node :=
  bareExpr .callExpr [pathExpr function, parens (commaSeparated arguments)]

/-- A call of a method with the given type arguments. -/
def methodCallWith (typeArguments receiver : Node) (method : String) (arguments : List Node) :
    Node :=
  bareExpr .methodCallExpr [receiver, .punct ".", .ident method, typeArguments,
    parens (commaSeparated arguments)]

def methodCall (receiver : Node) (method : String) (arguments : List Node) : Node :=
  methodCallWith (.empty .genericArgs) receiver method arguments

def fieldOf (base : Node) (field : String) : Node :=
  bareExpr .fieldExpr [base, .punct ".", .ident field]

def binary (left : Node) (operator : String) (right : Node) : Node :=
  bareExpr .binaryExpr [left, .punct operator, right]

def parenthesized (expr : Node) : Node := bareExpr .parenExpr [parens [expr]]

def borrowed (expr : Node) : Node :=
  .phrase .referenceExpr [.empty .attributes, .punct "&", expr]

def tried (expr : Node) : Node := bareExpr .tryExpr [expr, .punct "?"]

/-- A closure with one parameter. -/
def closure (parameter : String) (body : Node) : Node :=
  bareExpr .closureExpr [.punct "|", .phrase .pattern
    [.empty .attributes, .phrase .identPat [.ident parameter]], .punct "|", body]

def macroCallOf (path : Node) (body : Node) : Node :=
  bareExpr .macroExpr [path, .punct "!", body]

def fieldGiven (field : String) (value : Node) : Node :=
  .phrase .fieldValue [.empty .attributes, .ident field, .punct ":", value]

/-- A field that takes the variable of its name. -/
def fieldNamed (field : String) : Node := .phrase .fieldValue [.empty .attributes, .ident field]

def structOf (type : String) (fields : List Node) : Node :=
  bareExpr .structExpr [namePath [type], braces fields]

/-- The path to the variant of a present value. -/
def somePath : Node := rootPath ["core", "option", "Option", "Some"]

/-- The condition that a value is present, which binds it to a name. -/
def letSome (name : String) (value : Node) : Node :=
  bareExpr .letExpr [.ident "let", .phrase .pattern
    [somePath, parens [.phrase .identPat [.ident name]]], .punct "=", value]

def ifThen (condition : Node) (body : List Node) : Node :=
  bareExpr .ifExpr [.ident "if", condition, braces body]

/-! ### Statements -/

def exprStatementOf (expr : Node) : Node := .phrase .exprStmt [expr, .punct ";"]

/-- An expression that ends a block, or ends a statement by itself. -/
def resultOf (expr : Node) : Node := .phrase .exprStmt [expr]

/-- A variable that may change, with its attributes. -/
def letMut (attributes : List Node) (name : String) (value : Node) : Node :=
  .phrase .letStmt [.phrase .attributes attributes, .ident "let",
    .phrase .identPat [.ident "mut", .ident name], .punct "=", value, .punct ";"]

/-! ### Items and members -/

def selfByValue : Node := .phrase .receiver [.empty .attributes, .ident "self"]

def selfByReference : Node := .phrase .receiver [.empty .attributes, .punct "&", .ident "self"]

def selfByMutable : Node :=
  .phrase .receiver [.empty .attributes, .punct "&", .ident "mut", .ident "self"]

/-- The visibility of what everyone sees. -/
def publicly : Node := .phrase .visibility [.ident "pub"]

def plainSignature (name : String) (inputs : List Node) (output : Node) : Signature :=
  ⟨name, false, inputs, output⟩

/-- A method of an implementation. -/
def memberFunction (attributes : List Node) (visibility : Node) (signature : Signature)
    (body : List Node) : Node :=
  .phrase .implFn [.phrase .attributes attributes, visibility, .empty .qualifiers,
    signature.toNode, braces body]

def memberConstant (name : String) (type value : Node) : Node :=
  .phrase .member [.empty .attributes, .empty .visibility, .empty .qualifiers, .ident "const",
    .ident name, .punct ":", type, .punct "=", value, .punct ";"]

/-- The implementation of a type alone, or of a trait for it if `implFor` names one. -/
def implItemOf (generics : Node) (implFor : List Node) (type : Node)
    (members : List Node) : Node :=
  .phrase .implItem [.empty .attributes, .empty .qualifiers, .ident "impl", generics,
    .phrase .implFor implFor, type, .empty .whereClause, braces members]

def ownImpl (type : Node) (members : List Node) : Node :=
  implItemOf (.empty .generics) [] type members

def traitImpl (trait type : Node) (members : List Node) : Node :=
  implItemOf (.empty .generics) [trait, .ident "for"] type members

/-- A struct that everyone sees; its fields or a semicolon follow its name. -/
def publicStruct (attributes : List Node) (name : String) (fields : Node) : Node :=
  .phrase .structItem [.phrase .attributes attributes, publicly, .ident "struct", .ident name,
    .empty .generics, .empty .whereClause, fields]

def privateField (name : String) (type : Node) : Node :=
  .phrase .field [.empty .attributes, .empty .visibility, .ident name, .punct ":", type]

end EntityTables.Syntax
