import EntityTables.Generated.Execution
import EntityTables.Proofs.Call.Evaluation
import EntityTables.Proofs.Text.Quoted

/-!
# Steps of generated code

What the expressions and statements do that generated code is made of. Each is run on some
variables, and ends with a result and the variables after it, or cannot go on.
-/

namespace EntityTables.Generated

open EntityTables.Syntax EntityTables.Schema
open EntityTables.Call (withoutRaw wordExpr wordOf?)

variable {α : Type}

theorem wordValue?_of_wordOf? {text : String} {word : UInt32} (hword : wordOf? text = some word) :
    wordValue? text = some word := by
  rw [wordOf?, Option.ite_none_right_eq_some, Bool.and_eq_true] at hword
  rw [wordValue?, if_pos (by simp [hword.1])]
  exact hword.2

theorem stringValue?_number (word : UInt32) :
    stringValue? (toString word.toNat ++ "u32") = none := by
  have hsome : Nat.toDigits 10 word.toNat ≠ [] := Nat.toDigits_ne_nil
  obtain ⟨digit, rest, hdigits⟩ := List.exists_cons_of_ne_nil hsome
  have hmem : digit ∈ Nat.toDigits 10 word.toNat := hdigits ▸ List.mem_cons_self
  have hdigit : digit.isDigit := Nat.isDigit_of_mem_toDigits (by decide) (by decide) hmem
  have hchars : (toString word.toNat ++ "u32").toList = digit :: (rest ++ "u32".toList) := by
    rw [String.toList_append, Nat.toString_eq_repr, Nat.toList_repr, hdigits, List.cons_append]
  rw [stringValue?, hchars]
  split
  · next heq =>
      cases heq
      cases hdigit
  · next heq =>
      cases heq
      cases hdigit
  · rfl

theorem literalDatum?_wordExpr (word : UInt32) :
    literalDatum? (α := α) (toString word.toNat ++ "u32") = some (.word word) := by
  rw [literalDatum?, stringValue?_number, wordValue?_of_wordOf? (Call.wordOf?_toString word)]
  rfl

/-- How code ends: with a result and some variables, or not at all. -/
def ending {β : Type} (result : Option (β × Bindings α)) :
    ExceptT (Datum α) Option (β × Bindings α) := ExceptT.mk (result.map .ok)

theorem ending_some {β : Type} (result : β × Bindings α) : ending (some result) = pure result := rfl

namespace Exec

variable {β γ : Type} {bindings : Bindings α}

theorem run_stuck : (stuck : Exec α β).run bindings = ending none := rfl

theorem run_ofOption (result : Option β) :
    (ofOption result : Exec α β).run bindings = ending (result.map (·, bindings)) := by
  cases result <;> rfl

theorem run_within (name : String) (datum : Datum α) (code : Exec α β) :
    (within name datum code).run bindings = (code.run ((name, datum) :: bindings)) >>=
      fun after => pure (after.1, after.2.drop (after.2.length - bindings.length)) := rfl

theorem run_block (code : Exec α β) :
    (block code).run bindings = (code.run bindings) >>=
      fun after => pure (after.1, after.2.drop (after.2.length - bindings.length)) := rfl

theorem run_read (name : String) :
    (read name).run bindings =
      ending ((bindings.lookup (withoutRaw name)).map (·, bindings)) := by
  rw [read, StateT.run_bind, StateT.run_get, pure_bind, run_ofOption]

end Exec

namespace Surroundings

variable {s : Surroundings α} {bindings : Bindings α}

theorem run_nameExpr (name : String) :
    (s.eval (nameExpr name)).run bindings =
      ending ((bindings.lookup (withoutRaw name)).map (·, bindings)) :=
  Exec.run_read name

theorem run_textExpr (text : String) :
    (s.eval (textExpr text)).run bindings = pure (.text text, bindings) := by
  have hread : s.eval (textExpr text) = Exec.ofOption (literalDatum? (Text.quoteLiteral text)) := rfl
  rw [hread, literalDatum?, stringValue?_quoteLiteral]
  rfl

theorem run_wordExpr (word : UInt32) :
    (s.eval (wordExpr word)).run bindings = pure (.word word, bindings) := by
  have hread : s.eval (wordExpr word) =
      Exec.ofOption (literalDatum? (toString word.toNat ++ "u32")) := rfl
  rw [hread, literalDatum?_wordExpr]
  rfl

theorem run_zero : (s.eval (literalExprOf "0")).run bindings = pure (.word 0, bindings) := by
  rfl

theorem eval_fieldOf (base : Node) (field : String) :
    s.eval (fieldOf base field) = s.eval base >>= fun datum => Exec.ofOption (datum.field? field) :=
  rfl

theorem eval_parenthesized (expr : Node) : s.eval (parenthesized expr) = s.eval expr := rfl

theorem eval_binary (left right : Node) (operator : String) :
    s.eval (binary left operator right) = (do
      let first ← s.eval left
      let second ← s.eval right
      Exec.ofOption (first.binary? s.word? operator second)) := rfl

/-- Whether a word has a bit in common with a mask. -/
theorem run_condition (flag : String) (mask : UInt32) :
    (s.eval (binary (parenthesized (binary (nameExpr flag) "&" (wordExpr mask))) "!="
      (literalExprOf "0"))).run bindings =
      ending (((bindings.lookup (withoutRaw flag)).bind (Datum.word? s.word?)).map fun word =>
        (.truth (word &&& mask != 0), bindings)) := by
  rw [eval_binary, eval_parenthesized, eval_binary]
  simp only [StateT.run_bind, run_nameExpr]
  cases bindings.lookup (withoutRaw flag) with
  | none => rfl
  | some datum =>
      simp only [Option.map_some, ending_some, pure_bind, run_wordExpr, run_zero,
        Exec.run_ofOption, Option.bind_some]
      cases hword : datum.word? s.word? with
      | none =>
          have hnone : datum.binary? s.word? "&" (.word mask) = none := by
            simp [Datum.binary?, hword]
          rw [hnone]
          rfl
      | some word =>
          have hmask : (Datum.word mask).word? s.word? = some mask := rfl
          have hsome : datum.binary? s.word? "&" (.word mask) = some (.word (word &&& mask)) := by
            rw [Datum.binary?, hword, hmask]
            rfl
          rw [hsome]
          rfl

/-- A method with arguments, which may change the bag of a variable. -/
theorem eval_changing (base typeArguments : Node) (method text : String) (others : List Node) :
    s.eval (bareExpr .methodCallExpr [base, .punct ".", .ident method, typeArguments,
      parens (textExpr text :: others)]) = (do
        let bindings ← get
        match if isChange method then bindings.bagOf? base else none with
        | some (place, held, content) => do
          let values ← Exec.within place.root .lent (s.evalAll (textExpr text :: others))
          let (result, content) ← Exec.ofOption (change? method typeArguments values content)
          modify (Bindings.update place.root (held.withBag content))
          return result
        | none => do
          let datum ← s.eval base
          let values ← s.evalAll (textExpr text :: others)
          Exec.ofOption (s.method? method typeArguments datum values)) := rfl

/-- A method changes the bag of a variable, which cannot be used for its arguments. -/
theorem run_changing {base typeArguments : Node} {method text : String} {others : List Node}
    {place : Place} {held : Datum α} {content : Properties α} {values : List (Datum α)}
    (hchange : isChange method = true) (hbag : bindings.bagOf? base = some (place, held, content))
    (hvalues : (Exec.within place.root .lent (s.evalAll (textExpr text :: others))).run bindings =
      pure (values, bindings)) :
    (s.eval (bareExpr .methodCallExpr [base, .punct ".", .ident method, typeArguments,
      parens (textExpr text :: others)])).run bindings =
      ending ((change? method typeArguments values content).map fun changed =>
        (changed.1, Bindings.update place.root (held.withBag changed.2) bindings)) := by
  rw [eval_changing, StateT.run_bind, StateT.run_get, pure_bind, hchange, if_pos rfl, hbag]
  change (Exec.within place.root .lent _ >>= _).run _ = _
  rw [StateT.run_bind, hvalues, pure_bind, StateT.run_bind, Exec.run_ofOption]
  cases change? method typeArguments values content <;> rfl

/-- What a value does to the bag that a property of it is set in. -/
def settingIn (held : Datum α) (content : Properties α) (property : String) :
    Datum α → Option (Datum α)
  | .value type value => some (held.withBag (content.set property type value))
  | _ => none

/-- A property is set in the bag of a variable, which cannot be used for the value. -/
theorem run_storing {base value : Node} {property : String} {place : Place} {held datum : Datum α}
    {content : Properties α} (hbag : bindings.bagOf? base = some (place, held, content))
    (hone : s.evalAll [value] = s.eval value >>= fun datum => pure [datum])
    (hvalue : (s.eval value).run ((place.root, .lent) :: bindings) =
      pure (datum, (place.root, .lent) :: bindings)) :
    (s.evalBlock [storing base property value]).run bindings =
      ending ((settingIn held content property datum).map fun held =>
        (.unit, Bindings.update place.root held bindings)) := by
  have hblock : s.evalBlock [storing base property value] = (do
      let _ ← s.eval (methodCall base "set" [textExpr property, value])
      return .unit) := rfl
  have hall : s.evalAll [textExpr property, .punct ",", value] = (do
      let text ← s.eval (textExpr property)
      let values ← s.evalAll [value]
      return text :: values) := rfl
  have hvalues : (Exec.within place.root .lent (s.evalAll [textExpr property, .punct ",", value])).run
      bindings = pure ([.text property, datum], bindings) := by
    rw [Exec.run_within, hall, hone]
    simp only [StateT.run_bind, run_textExpr, pure_bind, hvalue, StateT.run_pure]
    simp
  have hset : (s.eval (methodCall base "set" [textExpr property, value])).run bindings =
      ending ((change? "set" (.empty .genericArgs) [.text property, datum] content).map
        fun changed => (changed.1, Bindings.update place.root (held.withBag changed.2) bindings)) :=
    run_changing rfl hbag hvalues
  rw [hblock, StateT.run_bind, hset]
  cases datum with
  | value type value => rfl
  | _ => rfl

theorem eval_ifThen_binary (left right : Node) (operator : String) (body : List Node) :
    s.eval (ifThen (binary left operator right) body) = (do
      let datum ← s.eval (binary left operator right)
      match datum with
      | .truth true => Exec.block (s.evalBlock body)
      | .truth false => return .unit
      | _ => Exec.stuck) := rfl

theorem eval_ifThen_letSome (name : String) (value : Node) (body : List Node) :
    s.eval (ifThen (letSome name value) body) = (do
      let datum ← s.eval value
      match datum.optional? with
      | some (some content) => Exec.within (withoutRaw name) content (s.evalBlock body)
      | some none => return .unit
      | none => Exec.stuck) := rfl

theorem eval_tried (expr : Node) :
    s.eval (tried expr) = (do
      let datum ← s.eval expr
      match datum.optional? with
      | some (some content) => return content
      | some none => Exec.leave .nothing
      | none => Exec.stuck) := rfl

theorem eval_andThen (name : String) (receiver body : Node) :
    s.eval (methodCall receiver "and_then" [closure name body]) = (do
      let datum ← s.eval receiver
      match datum.optional? with
      | some (some content) => Exec.within (withoutRaw name) content (s.eval body)
      | some none => return .nothing
      | none => Exec.stuck) := rfl

/-- A method without arguments, which may change the bag of a variable. -/
theorem eval_methodCall (receiver : Node) (method : String) :
    s.eval (methodCall receiver method []) = (do
      let bindings ← get
      match if isChange method then bindings.bagOf? receiver else none with
      | some (place, held, content) => do
        let values ← Exec.within place.root .lent (s.evalAll [])
        let (result, content) ← Exec.ofOption (change? method (.empty .genericArgs) values content)
        modify (Bindings.update place.root (held.withBag content))
        return result
      | none => do
        let datum ← s.eval receiver
        let values ← s.evalAll []
        Exec.ofOption (s.method? method (.empty .genericArgs) datum values)) := rfl

/-- A method is called without arguments on what has no bag of its own to change. -/
theorem run_methodCall {receiver : Node} (hbag : bindings.bagOf? receiver = none)
    (method : String) :
    (s.eval (methodCall receiver method [])).run bindings =
      (s.eval receiver).run bindings >>= fun after =>
        ending ((s.method? method (.empty .genericArgs) after.1 []).map (·, after.2)) := by
  rw [eval_methodCall, StateT.run_bind, StateT.run_get, pure_bind, hbag, ite_self, StateT.run_bind]
  congr 1
  funext after
  exact Exec.run_ofOption _

/-- A method that is called on a record is one of its type. -/
theorem method?_record {type : Node} (htype : insideOption? type = none) (method : String)
    (typeArguments : Node) (content : Properties α) :
    s.method? method typeArguments (.value type (.record content)) [] =
      s.call (.own type method) [.value type (.record content)] := by
  rw [method?, htype]

/-- An expression that does not end the block is a statement by itself. -/
theorem evalBlock_resultOf (expr next : Node) (rest : List Node) :
    s.evalBlock (resultOf expr :: next :: rest) =
      s.eval expr >>= fun _ => s.evalBlock (next :: rest) := rfl

/-- A statement is run, and then those after it. -/
theorem run_exprStatement (expr : Node) (rest : List Node) :
    (s.evalBlock (exprStatementOf expr :: rest)).run bindings =
      (s.evalBlock [exprStatementOf expr]).run bindings >>= fun after =>
        (s.evalBlock rest).run after.2 := by
  have hmany : s.evalBlock (exprStatementOf expr :: rest) = (do
      let _ ← s.eval expr
      s.evalBlock rest) := rfl
  have hone : s.evalBlock [exprStatementOf expr] = (do
      let _ ← s.eval expr
      return .unit) := rfl
  rw [hmany, hone]
  simp only [StateT.run_bind, bind_assoc, StateT.run_pure, pure_bind]

/-- The local of a record is a variable in what follows. -/
theorem run_letMut_record (attributes : List Node) (value : Node) (rest : List Node) :
    (s.evalBlock (letMut attributes "record" value :: rest)).run bindings =
      (s.eval value).run bindings >>= fun after =>
        (s.evalBlock rest).run (("record", after.1) :: after.2) := rfl

/-- A function of a type is called without arguments. -/
theorem run_callOf_own (type name : String) :
    (s.eval (callOf (namePath [type, name]) [])).run bindings =
      ending ((s.call (.own (resolveSelf s.self (namedType type)) name) []).map (·, bindings)) := by
  have hread : s.eval (callOf (namePath [type, name]) []) = (do
      let values ← s.evalAll []
      Exec.ofOption (s.call (.own (resolveSelf s.self (namedType type)) name) values)) := rfl
  rw [hread, StateT.run_bind]
  exact Exec.run_ofOption _

/-! ### Tables and bags -/

/-- A constant of a type as a table. -/
theorem run_tableConstant (type : Node) (name : String) :
    (s.eval (traitConstant type tableTrait name)).run bindings =
      ending ((s.call (.table (resolveSelf s.self type) name) []).map (·, bindings)) := by
  have hread : s.eval (traitConstant type tableTrait name) =
      if tableTrait = tableTrait then
        Exec.ofOption (s.call (.table (resolveSelf s.self type) name) [])
      else Exec.stuck := rfl
  rw [hread, if_pos rfl, Exec.run_ofOption]

/-- An empty bag is made for the table that a type names. -/
theorem run_emptyBag {tableType tableName : String}
    (hname : s.call (.table (resolveSelf s.self (namedType tableType)) "TABLE_NAME") [] =
      some (.text tableName)) :
    (s.eval (emptyBag tableType)).run bindings = pure (.bag (.empty tableName), bindings) := by
  have hread : s.eval (emptyBag tableType) = (do
      let values ← s.evalAll [tableNameOf tableType]
      Exec.ofOption (LibraryFunction.newBag.call? values)) := rfl
  have hvalues : s.evalAll [tableNameOf tableType] = (do
      let datum ← s.eval (tableNameOf tableType)
      return [datum]) := rfl
  rw [hread, hvalues]
  simp only [StateT.run_bind, tableNameOf, run_tableConstant, hname]
  rfl

end Surroundings

theorem namedType_inj {first second : String} (hsame : namedType first = namedType second) :
    first = second := by
  simpa [namedType, pathType, pathOf, joinSegments, segmentOf, Node.ident] using hsame

/-- `Self` is the only name that stands for another type. -/
theorem resolveSelf_of_ne {self : Node} {name : String} (hname : name ≠ "Self") :
    resolveSelf self (namedType name) = namedType name :=
  if_neg fun hself => hname (namedType_inj hself)

theorem resolveSelf_self (type : Node) : resolveSelf (namedType "Self") type = type := by
  rw [resolveSelf, ite_eq_right_iff]
  exact Eq.symm

theorem Function.run_eq {function : Function} {s : Surroundings α} {arguments : List (Datum α)}
    {bindings : Bindings α} {result : Option (Datum α × Bindings α)}
    (hinputs : bindInputs function.signature.inputs arguments = some bindings)
    (hbody : (s.evalBlock function.body).run bindings = ending result) :
    function.run s arguments = result := by
  rw [run, hinputs, Option.bind_eq_bind, Option.bind_some, hbody]
  cases result <;> rfl

/-- A function that is left gives the result that it is left with. -/
theorem Function.run_of_left {function : Function} {s : Surroundings α}
    {arguments : List (Datum α)} {bindings : Bindings α} {result : Datum α}
    (hinputs : bindInputs function.signature.inputs arguments = some bindings)
    (hbody : (s.evalBlock function.body).run bindings = ExceptT.mk (some (.error result))) :
    function.run s arguments = some (result, []) := by
  rw [run, hinputs, Option.bind_eq_bind, Option.bind_some, hbody]
  rfl

end EntityTables.Generated
