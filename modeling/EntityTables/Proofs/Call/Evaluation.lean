import EntityTables.Call.Redirect

/-!
# Evaluating calls

What an expression does when it runs, as far as calls are concerned: a `match` evaluates the parts of
its tuple in order and binds them, a call evaluates its receiver and then its arguments. Effects are
those of any monad. Whatever is not a call, a bound name, a word or an optional value means what the
surrounding program says.
-/

namespace EntityTables.Call

open EntityTables.Syntax

/-- The values of local variables, by names without the mark of raw ones. -/
abbrev Locals (V : Type) := String → Option V

/-- The locals inside a scope that binds names to values. -/
def Locals.bind {V : Type} (outer : Locals V) (names : List String) (values : List V) : Locals V :=
  fun name => ((names.zip values).lookup name).or (outer name)

/-- What a program means apart from the way in which its calls are evaluated. -/
structure Semantics (m : Type → Type) (V : Type) where
  absent : V
  present : V → V
  word : UInt32 → V
  call : Node → List V → m V
  method : String → Node → V → List V → m V
  other : Locals V → Node → m V

/-- The word that a literal writes in decimal, with its type. -/
def wordOf? (text : String) : Option UInt32 :=
  let digits := text.toList.takeWhile Char.isDigit
  if !digits.isEmpty && text.toList.drop digits.length == ['u', '3', '2'] then
    some (UInt32.ofNat (Nat.ofDigitChars 10 digits 0))
  else none

/-- The names that the parts of a tuple pattern bind, if all of them are names. -/
def boundNames? : List Node → Option (List String)
  | [] => some []
  | .leaf (.ident "mut") :: .leaf (.ident name) :: .leaf (.punct "," _) :: rest =>
    (boundNames? rest).map (withoutRaw name :: ·)
  | .leaf (.ident name) :: .leaf (.punct "," _) :: rest =>
    (boundNames? rest).map (withoutRaw name :: ·)
  | _ => none

namespace Semantics

variable {m : Type → Type} [Monad m] {V : Type}

/-- Calls a function, or wraps a value. -/
def apply (s : Semantics m V) (path : Node) (arguments : List V) : m V :=
  match arguments with
  | [value] =>
    if pathExpr path = optionPath "Some" then pure (s.present value) else s.call path [value]
  | arguments => s.call path arguments

/-- Reads what a path names: nothing, a local, or something of the program. -/
def read (s : Semantics m V) (locals : Locals V) (path : Node) : m V :=
  if pathExpr path = optionPath "None" then pure s.absent
  else
    match path.soleName?.bind fun name => locals (withoutRaw name) with
    | some value => pure value
    | none => s.other locals (pathExpr path)

mutual

/-- Evaluates an expression. -/
def eval (s : Semantics m V) (locals : Locals V) : Node → m V
  | .phrase .matchExpr [attributes, keyword, .phrase .tupleExpr [own, .group .paren values],
      .group .brace [.phrase .arm [inner, .phrase .pattern [.group .paren pattern], arrow,
        body]]] =>
    match boundNames? pattern with
    | some names => do
      let values ← evalAll s locals values
      eval s (locals.bind names values) body
    | none =>
      s.other locals (.phrase .matchExpr [attributes, keyword,
        .phrase .tupleExpr [own, .group .paren values], .group .brace [.phrase .arm
          [inner, .phrase .pattern [.group .paren pattern], arrow, body]]])
  | .phrase .callExpr [_, .phrase .pathExpr [_, path], .group .paren arguments] => do
    let values ← evalAll s locals arguments
    s.apply path values
  | .phrase .methodCallExpr
      [_, receiver, _, .leaf (.ident name), turbofish, .group .paren arguments] => do
    let self ← eval s locals receiver
    let values ← evalAll s locals arguments
    s.method name turbofish self values
  | .phrase .pathExpr [_, path] => s.read locals path
  | .phrase .literalExpr [attributes, .leaf (.literal text)] =>
    match wordOf? text with
    | some word => pure (s.word word)
    | none => s.other locals (.phrase .literalExpr [attributes, .leaf (.literal text)])
  | node => s.other locals node

/-- Evaluates the expressions between commas, left to right. -/
def evalAll (s : Semantics m V) (locals : Locals V) : List Node → m (List V)
  | [] => pure []
  | [node] => do
    let value ← eval s locals node
    return [value]
  | node :: _ :: rest => do
    let value ← eval s locals node
    let values ← evalAll s locals rest
    return value :: values

end

end Semantics

/-! ### Words and names -/

theorem wordOf?_toString (word : UInt32) : wordOf? (toString word.toNat ++ "u32") = some word := by
  have hdigits : ∀ c ∈ Nat.toDigits 10 word.toNat, c.isDigit := fun c hc =>
    Nat.isDigit_of_mem_toDigits (by decide) (by decide) hc
  have htake : (toString word.toNat ++ "u32").toList.takeWhile Char.isDigit =
      Nat.toDigits 10 word.toNat := by
    rw [String.toList_append, Nat.toString_eq_repr, Nat.toList_repr,
      List.takeWhile_append_of_pos hdigits]
    simp
  have hdrop : (toString word.toNat ++ "u32").toList.drop (Nat.toDigits 10 word.toNat).length =
      ['u', '3', '2'] := by
    rw [String.toList_append, Nat.toString_eq_repr, Nat.toList_repr, List.drop_left]
    rfl
  simp only [wordOf?, htake, hdrop]
  simp [Nat.ofDigitChars_ten_toDigits, Nat.toDigits_ne_nil]

theorem withoutRaw_localName (parameter : String) :
    withoutRaw (localName parameter) = localName parameter := by
  have hraw : isRaw (localName parameter) = false := by
    simp [isRaw, localName, List.isPrefixOf]
  simp [withoutRaw, hraw]

theorem localName_inj {first second : String} (hsame : localName first = localName second) :
    withoutRaw first = withoutRaw second := by
  unfold localName at hsame
  simpa using hsame

theorem boundNames?_commaEnded {α : Type} (items : List α) (name : α → String) :
    boundNames? (commaEnded (items.map fun item => [.ident (name item)])) =
      some (items.map fun item => withoutRaw (name item)) := by
  induction items with
  | nil => rfl
  | cons item rest ih =>
      have hstep : ∀ others, boundNames? (.ident (name item) :: .punct "," :: others) =
          (boundNames? others).map (withoutRaw (name item) :: ·) := by
        simp [boundNames?, Node.ident, Node.punct]
      simp only [commaEnded, List.map_cons, List.flatMap_cons, List.cons_append, List.nil_append]
        at ih ⊢
      rw [hstep, ih]
      rfl

theorem boundNames?_mut (name : String) (rest : List Node) :
    boundNames? (.ident "mut" :: .ident name :: .punct "," :: rest) =
      (boundNames? rest).map (withoutRaw name :: ·) := rfl

/-! ### What the pieces of a redirected call evaluate to -/

namespace Semantics

variable {m : Type → Type} [Monad m] {V : Type} (s : Semantics m V) (locals : Locals V)

theorem eval_wordExpr (word : UInt32) : s.eval locals (wordExpr word) = pure (s.word word) := by
  have hliteral : s.eval locals (wordExpr word) =
      match wordOf? (toString word.toNat ++ "u32") with
      | some word => pure (s.word word)
      | none => s.other locals (wordExpr word) := rfl
  rw [hliteral, wordOf?_toString]

theorem eval_none : s.eval locals (optionPath "None") = pure s.absent := rfl

theorem eval_nameExpr {name : String} {value : V} (hbound : locals (withoutRaw name) = some value) :
    s.eval locals (nameExpr name) = pure value := by
  have hread : s.eval locals (nameExpr name) = s.read locals (pathOf [segmentOf name]) := rfl
  have hname : pathExpr (pathOf [segmentOf name]) ≠ optionPath "None" := by
    simp [optionPath, pathExpr, pathOf, absolutePath, joinSegments, segmentOf]
  have hsole : (pathOf [segmentOf name]).soleName? = some name := rfl
  rw [hread, read, if_neg hname, hsole, Option.bind_some, hbound]

variable [LawfulMonad m]

theorem eval_someExpr (value : Node) :
    s.eval locals (someExpr value) = s.present <$> s.eval locals value := by
  have hcall : s.eval locals (someExpr value) =
      (do let value ← s.eval locals value; return [value]) >>= fun values =>
        s.apply (absolutePath [segmentOf "core", segmentOf "option", segmentOf "Option",
          segmentOf "Some"]) values := rfl
  rw [hcall, map_eq_pure_bind, bind_assoc]
  refine bind_congr fun value => ?_
  rw [pure_bind]
  rfl

theorem evalAll_commaSeparated (nodes : List Node) :
    s.evalAll locals (commaSeparated nodes) = nodes.mapM (s.eval locals) := by
  induction nodes using commaSeparated.induct with
  | case1 => rfl
  | case2 node =>
      rw [List.mapM_cons, List.mapM_nil]
      simp only [pure_bind]
      rfl
  | case3 node rest hrest ih =>
      have hstep : s.evalAll locals (commaSeparated (node :: rest)) = do
          let value ← s.eval locals node
          let values ← s.evalAll locals (commaSeparated rest)
          return value :: values := by
        obtain ⟨other, others, rfl⟩ := List.exists_cons_of_ne_nil fun h => hrest h
        rfl
      rw [hstep, ih, List.mapM_cons]

theorem evalAll_commaEnded {α : Type} (items : List α) (expr : α → Node) :
    s.evalAll locals (commaEnded (items.map fun item => [expr item])) =
      items.mapM fun item => s.eval locals (expr item) := by
  induction items with
  | nil => rfl
  | cons item rest ih =>
      have hstep : s.evalAll locals (commaEnded ((item :: rest).map fun item => [expr item])) = do
          let value ← s.eval locals (expr item)
          let values ← s.evalAll locals (commaEnded (rest.map fun item => [expr item]))
          return value :: values := by
        rw [← evalAll]
        rfl
      rw [hstep, ih, List.mapM_cons]

/-- A `match` that binds values evaluates them in order, each once, and then its call. -/
theorem eval_bindingMatch {bindings : List Binding} {names : List String} {mutable : Bool}
    {call : Node} (hnames : boundNames? (commaEnded (bindings.map (·.pattern))) = some names) :
    s.eval locals (bindingMatch bindings mutable call) =
      (bindings.mapM fun binding => s.eval locals binding.value) >>= fun values =>
        s.eval (locals.bind names values) call := by
  have hmatch : s.eval locals (bindingMatch bindings mutable call) =
      match boundNames? (commaEnded (bindings.map (·.pattern))) with
      | some names => do
        let values ← s.evalAll locals (commaEnded (bindings.map fun b => [b.value]))
        s.eval (locals.bind names values) call
      | none => s.other locals (bindingMatch bindings mutable call) := rfl
  rw [hmatch, hnames, evalAll_commaEnded]

end Semantics

end EntityTables.Call
