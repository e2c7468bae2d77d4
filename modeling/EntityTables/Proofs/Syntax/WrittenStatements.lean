import EntityTables.Proofs.Syntax.WrittenExpressions
import EntityTables.Syntax.Attribute

/-!
# Statements that are read back

The statements of generated code and the bodies they make up. A statement at the front of an input
might be an item or the call of a macro, so its first tokens have to rule that out; an `if` without
a semicolon might go on, so what follows it matters as well.
-/

namespace EntityTables.Syntax

open EntityTables.Syntax.Parser

/-! ### Fronts that are no macro calls -/

/-- The tokens that a path without arguments is made of. -/
def isPathToken : Node → Bool
  | .leaf (.ident _) => true
  | .leaf (.punct text _) => text == ":"
  | _ => false

/-- A parser that takes nothing but tokens of paths off its input. -/
structure TakesPath {α : Type} (parser : Parser α) : Prop where
  dropWhile_eq : ∀ {input read rest}, parser.run input = .ok (read, rest) →
    rest.dropWhile isPathToken = input.dropWhile isPathToken

namespace TakesPath

variable {α β : Type} {parser : Parser α} {next : α → Parser β}

theorem pure (read : α) : TakesPath (pure read : Parser α) where
  dropWhile_eq hrun := by
    cases hrun
    rfl

theorem get : TakesPath (get : Parser Input) where
  dropWhile_eq hrun := by
    cases hrun
    rfl

theorem peek (question : Input → α) : TakesPath (Parser.peek question) where
  dropWhile_eq hrun := by
    cases hrun
    rfl

theorem bind (hparser : TakesPath parser) (hnext : ∀ read, TakesPath (next read)) :
    TakesPath (parser >>= next) where
  dropWhile_eq hrun := by
    obtain ⟨read, middle, hread, hrest⟩ := run_bind_eq_ok.mp hrun
    exact ((hnext read).dropWhile_eq hrest).trans (hparser.dropWhile_eq hread)

theorem attempt (hparser : TakesPath parser) : TakesPath (Parser.attempt parser) where
  dropWhile_eq {input found rest} hrun := by
    obtain ⟨start, middle, hget, hrun⟩ := run_bind_eq_ok.mp hrun
    cases hget
    rcases hown : parser.run input with error | ⟨read, after⟩
    · rw [hown] at hrun
      cases hrun
      rfl
    · rw [hown] at hrun
      cases hrun
      exact hparser.dropWhile_eq hown

theorem when {test : Input → Bool}
    (htest : ∀ node rest, test (node :: rest) = true → isPathToken node = true) :
    TakesPath (Parser.when test) where
  dropWhile_eq {input read rest} hrun := by
    obtain ⟨hstarts, rfl⟩ := run_when_eq_ok.mp hrun
    rw [List.dropWhile_cons_of_pos (htest read rest hstarts)]

theorem colons : TakesPath (punct "::") where
  dropWhile_eq hrun := by
    obtain ⟨hstarts, -, rfl⟩ := run_punctOr_eq_ok.mp hrun
    obtain ⟨joint, more, rfl, hmore⟩ := startsChars_cons hstarts
    obtain ⟨-, hsecond⟩ := hmore (List.cons_ne_nil _ _)
    obtain ⟨second, others, rfl, -⟩ := startsChars_cons hsecond
    rfl

theorem repeatWithin {step : Parser (Option (List Node))} (hstep : TakesPath step) (steps : Nat)
    (done : List Node) : TakesPath (Parser.repeatWithin steps step done) := by
  induction steps generalizing done with
  | zero => exact pure _
  | succ fewer ih =>
      refine hstep.bind fun found => ?_
      cases found with
      | none => exact pure _
      | some nodes => exact ih _

theorem many {test : Input → Bool} {part : Parser (List Node)} (hpart : TakesPath part) :
    TakesPath (Parser.many test part) := by
  refine get.bind fun input => repeatWithin ((peek test).bind fun goesOn => ?_) _ _
  cases goesOn with
  | false => exact pure _
  | true => exact hpart.bind fun nodes => pure _

theorem orNothing {test : Input → Bool} {part : Parser (List Node)} (hpart : TakesPath part) :
    TakesPath (Parser.orNothing test part) := by
  refine (peek test).bind fun starts => ?_
  cases starts with
  | false => exact pure _
  | true => exact hpart

theorem plainPath : TakesPath Syntax.plainPath := by
  have hword : TakesPath (Parser.when (·.startsPathWord)) := when fun node rest hstarts => by
    match node with
    | .leaf (.ident word) => rfl
  refine (orNothing (colons.bind fun sign => pure _)).bind fun leading =>
    hword.bind fun first => (many ?_).bind fun rest => pure _
  exact colons.bind fun sign => hword.bind fun word => pure _

end TakesPath

/-! ### Fronts of statements -/

/-- Whether an expression with a block of its own starts here. -/
def startsBlockLike (input : Input) : Bool :=
  input.startsOneOf ["if", "while", "for", "loop", "match", "try", "unsafe", "const"] ||
    input.startsGroup .brace || input.startsLifetime

/-- Whether a statement without attributes starts here that is no item and no call of a macro. -/
def startsPlain (input : Input) : Bool :=
  !(input.startsPunct ";" || input.startsPunct "#" || startsItem input ||
    Input.startsPunct (input.dropWhile isPathToken) "!")

section Fronts

variable {input rest : Input} {expr : Node}

theorem run_statementFront (hitem : startsItem input = false)
    (hplainExpr : Input.startsPunct (input.dropWhile isPathToken) "!" = false) :
    statementFront.run input = .ok (.other, input) := by
  have hafter : ∀ found after, (attempt plainPath).run input = .ok (found, after) →
      (found.isSome && after.startsPunct "!") = false := by
    intro found after hrun
    refine Bool.eq_false_iff.mpr fun hmark => ?_
    obtain ⟨-, hmark⟩ := Bool.and_eq_true_iff.mp hmark
    obtain ⟨joint, others, rfl, -⟩ := startsChars_cons hmark
    rw [← (TakesPath.plainPath.attempt).dropWhile_eq hrun] at hplainExpr
    cases hplainExpr
  obtain ⟨found, after, hrun⟩ : ∃ found after, (attempt plainPath).run input = .ok (found, after) := by
    refine (?_ : ∃ found after, (get >>= _ : Parser (Option Node)).run input = .ok (found, after))
    rw [run_get_bind]
    rcases plainPath.run input with error | ⟨path, rest⟩
    · exact ⟨_, _, rfl⟩
    · exact ⟨_, _, rfl⟩
  have hback : (set input : Parser PUnit).run after = .ok ((), input) := rfl
  refine run_get_bind.trans ((run_bind_of hrun).trans (run_get_bind.trans ?_))
  refine (run_bind_of hback).trans ?_
  rw [hafter found after hrun, hitem]
  rfl

theorem run_outerAttributes_none (hinput : input.startsPunct "#" = false) :
    (outerAttributes reading).run input = .ok (.empty .attributes, input) :=
  (run_bind_of (run_many_of_eq_false hinput)).trans rfl

theorem run_blockLike?_none (hinput : startsBlockLike input = false) :
    (blockLike? reading).run input = .ok (none, input) := by
  simp only [startsBlockLike, Input.startsOneOf, List.any_cons, List.any_nil, Bool.or_false,
    Bool.or_eq_false_iff] at hinput
  obtain ⟨⟨⟨hif, hwhile, hfor, hloop, hmatch, htry, hsafety, hconst⟩, hbrace⟩, hlifetime⟩ := hinput
  refine run_get_bind.trans ?_
  simp only [hif, hwhile, hfor, hloop, hmatch, htry, hsafety, hconst, hbrace, hlifetime,
    Bool.false_and, Bool.false_eq_true, if_false]
  rfl

/-- What is in front of a statement that is no item, read as far as the statement. -/
theorem run_statement_front {attributes : Node}
    (hsemicolon : input.startsPunct ";" = false)
    (hattributes : (outerAttributes reading).run input = .ok (attributes, rest))
    (hfront : statementFront.run rest = .ok (.other, rest)) :
    (statement reading).run input = (do
      if (← peek (·.startsWord "let")) then letStatement reading attributes
      else exprStatement reading attributes : Parser Node).run rest := by
  refine (run_bind_of (run_peek _)).trans ?_
  rw [hsemicolon, if_neg Bool.false_ne_true]
  exact run_get_bind.trans ((run_bind_of hattributes).trans (run_bind_of hfront))

/-- What is in front of a statement that is an expression, read as far as the expression. -/
theorem run_statement_of_front (hfront : statementFront.run input = .ok (.other, input))
    (hsemicolon : input.startsPunct ";" = false) (hnumber : input.startsPunct "#" = false)
    (hlet : input.startsWord "let" = false) :
    (statement reading).run input = (exprStatement reading (.empty .attributes)).run input := by
  refine (run_statement_front hsemicolon (run_outerAttributes_none hnumber) hfront).trans ?_
  refine (run_bind_of (run_peek _)).trans ?_
  rw [hlet, if_neg Bool.false_ne_true]

theorem run_statement_plain (hplain : startsPlain input = true)
    (hlet : input.startsWord "let" = false) :
    (statement reading).run input = (exprStatement reading (.empty .attributes)).run input := by
  simp only [startsPlain, Bool.not_eq_true', Bool.or_eq_false_iff] at hplain
  obtain ⟨⟨⟨hsemicolon, hnumber⟩, hitem⟩, hplainExpr⟩ := hplain
  exact run_statement_of_front (run_statementFront hitem hplainExpr) hsemicolon hnumber hlet

end Fronts

/-! ### Expressions as statements -/

theorem withAttributes_nil (node : Node) : node.withAttributes [] = node := by
  fun_cases Node.withAttributes <;> rfl

theorem withLeadingAttributes_nil (node : Node) : node.withLeadingAttributes [] = node := by
  fun_induction Node.withLeadingAttributes with
  | case1 kind own left rest hkind ih => rw [ih]
  | case2 kind own left rest hkind => exact withAttributes_nil _
  | case3 node hnode => exact withAttributes_nil _

section Expressions

variable {input rest : Input} {expr : Node}

theorem run_statementExpr (hblock : startsBlockLike input = false)
    (hnumber : input.startsPunct "#" = false)
    (hoperand : (reading (.operand true)).run input = .ok (expr, rest))
    (hexpr : expr.isBlockLike = false) (hrest : endsExpr rest = true) :
    (reading .statementExpr).run input = .ok (expr, rest) := by
  rw [run_reading]
  refine (run_bind_of (run_outerAttributes_none hnumber)).trans ?_
  refine (run_bind_of (run_blockLike?_none hblock)).trans ((run_bind_of hoperand).trans ?_)
  have hsame : expr.withAttributes (Node.empty .attributes).parts = expr := withAttributes_nil expr
  dsimp only
  rw [hexpr, hsame]
  exact run_continuation_of_ends hrest

/-- A statement is its expression, with a semicolon if one follows. -/
theorem run_exprStatement {closing : List Node} {after : Input}
    (hexpr : (reading .statementExpr).run input = .ok (expr, rest))
    (hplainExpr : expr.is .macroExpr = false)
    (hclosing : (punct? ";").run rest = .ok (closing, after)) :
    (exprStatement reading (.empty .attributes)).run input =
      .ok (.phrase .exprStmt (expr :: closing), after) := by
  have hsame : expr.withLeadingAttributes (Node.empty .attributes).parts = expr :=
    withLeadingAttributes_nil expr
  refine (run_bind_of hexpr).trans ((run_bind_of hclosing).trans ?_)
  rw [hsame]
  cases expr with
  | leaf token => rfl
  | group delimiter body => rfl
  | phrase kind parts =>
      cases kind with
      | macroExpr => cases hplainExpr
      | _ => rfl

end Expressions

/-! ### Attributes -/

/-- An attribute that is read as another one with the same path; its arguments may be read as trees
of another form. -/
structure ReadsAttribute (written read : Node) : Prop where
  starts : ∃ body, written.lexed = [.punct "#", .group .bracket body]
  sameForm : read.attributePath = written.attributePath
  recovers : ∀ rest, (outerAttribute reading).run (written.lexed ++ rest) = .ok (read, rest)

section Attributes

variable {rest : Input} {name : String}

theorem lexed_attributeOf (body : List Node) :
    (attributeOf body).lexed = [.punct "#", .group .bracket (Node.lexedAll body)] := by
  simp [attributeOf, brackets, Kind.isOpen]

theorem run_outerAttribute {body parts : List Node} (hbody : (do
      let path ← attributePath
      return path :: (← attributeArguments reading) : Parser (List Node)).run (Node.lexedAll body) =
        .ok (parts, [])) (rest : Input) :
    (outerAttribute reading).run ((attributeOf body).lexed ++ rest) =
      .ok (attributeOf parts, rest) := by
  rw [lexed_attributeOf]
  refine (run_bind_to (.punct "#") rfl).trans ?_
  exact (run_bind_of (run_group_eq_ok.mpr ⟨_, parts, rfl, hbody, rfl⟩)).trans rfl

theorem run_attributePath_name (hname : isName name = true) (hrest : rest.startsPunct "::" = false) :
    attributePath.run (.ident name :: rest) = .ok (pathOf [segmentOf name], rest) := by
  have hsafety : Input.startsWord (.ident name :: rest) "unsafe" = false :=
    startsWord_of_isName hname (by decide)
  have hword : (Parser.when (·.startsPathWord)).run (.ident name :: rest) =
      .ok (.ident name, rest) := run_when_eq_ok.mpr ⟨isPathWord_of_isName hname, rfl⟩
  refine (run_bind_of (run_peek _)).trans ?_
  rw [hsafety]
  refine (run_bind_to [] rfl).trans ((run_bind_of hword).trans ?_)
  exact (run_bind_of (run_many_of_eq_false hrest)).trans rfl

/-- The arguments of an attribute are read as the tokens they are. -/
theorem readsAttribute_list (hname : isName name = true) (arguments : List (List Node)) :
    ReadsAttribute (listAttribute name arguments)
      (attributeOf [pathOf [segmentOf name], parens (Node.lexedAll (commaJoined arguments))]) where
  starts := ⟨_, lexed_attributeOf _⟩
  sameForm := rfl
  recovers rest := by
    have hlexed : Node.lexedAll [pathOf [segmentOf name], parens (commaJoined arguments)] =
        [.ident name, .group .paren (Node.lexedAll (commaJoined arguments))] := by
      simp [pathOf, joinSegments, segmentOf, parens, Kind.isOpen]
    refine run_outerAttribute ?_ rest
    rw [hlexed]
    exact (run_bind_of (run_attributePath_name hname rfl)).trans rfl

/-- The text of an attribute is read as an expression. -/
theorem readsAttribute_text (hname : isName name = true) (text : String) :
    ReadsAttribute (attributeOf [pathOf [segmentOf name], .punct "=", .literal text])
      (attributeOf [pathOf [segmentOf name], .punct "=", literalExprOf text]) where
  starts := ⟨_, lexed_attributeOf _⟩
  sameForm := rfl
  recovers rest := by
    have hlexed : Node.lexedAll [pathOf [segmentOf name], .punct "=", .literal text] =
        [.ident name, .punct "=", .literal text] := by
      simp [pathOf, joinSegments, segmentOf, Kind.isOpen]
    refine run_outerAttribute ?_ rest
    rw [hlexed]
    exact (run_bind_of (run_attributePath_name hname rfl)).trans rfl

theorem readsAttribute_plain (hname : isName name = true) :
    ReadsAttribute (plainAttribute (pathOf [segmentOf name]))
      (plainAttribute (pathOf [segmentOf name])) where
  starts := ⟨_, lexed_attributeOf _⟩
  sameForm := rfl
  recovers rest := by
    have hlexed : Node.lexedAll [pathOf [segmentOf name]] = [.ident name] := by
      simp [pathOf, joinSegments, segmentOf, Kind.isOpen]
    refine run_outerAttribute ?_ rest
    rw [hlexed]
    exact (run_bind_of (run_attributePath_name hname rfl)).trans rfl

/-- The attribute of a marker, which is named by a path from the root. -/
theorem readsAttribute_marker {marker : String} (hmarker : isName marker = true) :
    ReadsAttribute (markerAttribute marker) (markerAttribute marker) where
  starts := ⟨_, lexed_attributeOf _⟩
  sameForm := rfl
  recovers rest := by
    have hlexed : Node.lexedAll [absolutePath [segmentOf "tablegen", segmentOf marker]] =
        [.leaf (.punct ":" true), .punct ":", .ident "tablegen", .leaf (.punct ":" true),
          .punct ":", .ident marker] := by
      simp [absolutePath, joinSegments, segmentOf, Kind.isOpen]
    have hword : (Parser.when (·.startsPathWord)).run [.ident marker] = .ok (.ident marker, []) :=
      run_when_eq_ok.mpr ⟨isPathWord_of_isName hmarker, rfl⟩
    have hmore : (many (·.startsPunct "::") do
        let sign ← punct "::"
        return [sign, .phrase .segment [← Parser.when (·.startsPathWord)]]).run
          [.leaf (.punct ":" true), .punct ":", .ident marker] =
            .ok ([.punct "::", segmentOf marker], []) := by
      refine run_many (@Rounds.again _ _ _ _ _ [_, _] [] rfl ?_ ?_ (.done rfl))
      · exact (run_bind_to (.punct "::") rfl).trans ((run_bind_of hword).trans rfl)
      · exact Nat.zero_lt_succ _
    refine run_outerAttribute ?_ rest
    rw [hlexed]
    have hpath : attributePath.run [.leaf (.punct ":" true), .punct ":", .ident "tablegen",
        .leaf (.punct ":" true), .punct ":", .ident marker] =
          .ok (absolutePath [segmentOf "tablegen", segmentOf marker], []) := by
      refine (run_bind_to false rfl).trans ((run_bind_to [.punct "::"] rfl).trans ?_)
      exact (run_bind_to (.ident "tablegen") rfl).trans ((run_bind_of hmore).trans rfl)
    exact (run_bind_of hpath).trans rfl

theorem run_outerAttributes {written read : List Node}
    (hattributes : List.Forall₂ ReadsAttribute written read) (hrest : rest.startsPunct "#" = false) :
    (outerAttributes reading).run (Node.lexedAll written ++ rest) =
      .ok (.phrase .attributes read, rest) := by
  refine (run_bind_of (run_many ?_)).trans rfl
  induction hattributes with
  | nil => exact .done hrest
  | @cons first read others more hfirst hothers ih =>
      obtain ⟨body, hlexed⟩ := hfirst.starts
      have hread := hfirst.recovers (Node.lexedAll others ++ rest)
      rw [hlexed] at hread
      rw [lexedAll_cons, List.append_assoc, hlexed]
      refine @Rounds.again _ _ _ _ _ [read] _ rfl (run_one_eq_ok.mpr ⟨_, rfl, hread⟩) ?_ ih
      exact Nat.lt_succ_of_lt (Nat.lt_succ_self _)

end Attributes

/-! ### Statements -/

/-- Whether a statement may end in front of an input without a semicolon of its own. -/
def followsStatement (input : Input) : Bool :=
  !(input.startsWord "else" || input.startsPunct ";" || input.startsPunct "." ||
    input.startsPunct "?")

/-- Whether a statement may begin here, after another one or at the front of a block. -/
def opensStatement (input : Input) : Bool := followsStatement input && !startsInnerAttribute input

/-- Whether a statement starts here that is an expression without a block of its own. -/
def startsExprStatement (input : Input) : Bool :=
  startsPlain input && !(startsBlockLike input || input.startsWord "let") && followsStatement input

/-- A statement that is read as it is written, in front of any other. -/
structure ReadsStatement (node : Node) : Prop where
  nonempty : node.lexed ≠ []
  opens : ∀ rest, opensStatement (node.lexed ++ rest) = true
  ends : endsStatement node = true
  plain : node.is .attributes = false
  recovers : Recovers (statement reading) followsStatement node.lexed node

section Statements

variable {input rest : Input} {expr condition value bag : Node} {name property : String}
  {body attributes : List Node}

theorem lexed_exprStatementOf (hsteady : Steady expr) :
    (exprStatementOf expr).lexed = expr.lexed ++ [.punct ";"] := by
  have hlexed : (exprStatementOf expr).lexed = expr.lexedAt .whole ++ [.punct ";"] := by
    rw [exprStatementOf, Node.lexed, Node.lexedAt, Node.tokens, Node.lexedAt]
    simp only [Bool.and_eq_true, beq_iff_eq, reduceCtorEq, false_and, if_false, Node.tokensOfParts,
      splitAll_append]
    rfl
  rw [hlexed, hsteady]

theorem lexed_resultOf : (resultOf expr).lexed = expr.lexedAt .whole := by
  have hlexed : (resultOf expr).lexed = expr.lexedAt .whole ++ [] := by
    rw [resultOf, Node.lexed, Node.lexedAt, Node.tokens, Node.lexedAt]
    simp only [Bool.and_eq_true, beq_iff_eq, reduceCtorEq, false_and, if_false, Node.tokensOfParts,
      splitAll_append]
    rfl
  rw [hlexed, List.append_nil]

/-- An expression is read as a statement, with a semicolon after it or at the end of a block. -/
theorem opensStatement_of_starts (hstarts : startsExprStatement input = true) :
    opensStatement input = true := by
  rw [startsExprStatement, Bool.and_eq_true, Bool.and_eq_true] at hstarts
  obtain ⟨⟨hplain, -⟩, hfollows⟩ := hstarts
  simp only [startsPlain, Bool.not_eq_true', Bool.or_eq_false_iff] at hplain
  rw [opensStatement, hfollows, startsInnerAttribute, hplain.1.1.2]
  rfl

theorem run_statement_expr (hstarts : startsExprStatement input = true) (hexpr : expr.isBlockLike = false)
    (hplainExpr : expr.is .macroExpr = false)
    (hoperand : (reading (.operand true)).run input = .ok (expr, rest))
    (hrest : endsExpr rest = true) {closing : List Node} {after : Input}
    (hclosing : (punct? ";").run rest = .ok (closing, after)) :
    (statement reading).run input = .ok (.phrase .exprStmt (expr :: closing), after) := by
  simp only [startsExprStatement, Bool.and_eq_true, Bool.not_eq_true', Bool.or_eq_false_iff]
    at hstarts
  obtain ⟨⟨hplain, hblock, hlet⟩, -⟩ := hstarts
  have hnumber : input.startsPunct "#" = false := by
    simp only [startsPlain, Bool.not_eq_true', Bool.or_eq_false_iff] at hplain
    exact hplain.1.1.2
  have hread := run_statementExpr hblock hnumber hoperand hexpr hrest
  exact (run_statement_plain hplain hlet).trans (run_exprStatement hread hplainExpr hclosing)

/-- An expression with a semicolon after it. -/
theorem readsStatement_expr (hexpr : ReadsExpr expr) (hplainExpr : expr.is .macroExpr = false)
    (hstarts : ∀ rest, startsExprStatement (expr.lexed ++ .punct ";" :: rest) = true) :
    ReadsStatement (exprStatementOf expr) := by
  have hlexed := lexed_exprStatementOf hexpr.steady
  refine ⟨?_, fun rest => ?_, rfl, rfl, fun rest _ => ?_⟩
  · rw [hlexed]
    exact List.append_ne_nil_of_left_ne_nil hexpr.nonempty _
  · rw [hlexed, List.append_assoc]
    exact opensStatement_of_starts (hstarts rest)
  · rw [hlexed, List.append_assoc]
    exact run_statement_expr (hstarts rest) hexpr.notBlock hplainExpr
      (hexpr.recovers (.punct ";" :: rest) rfl) rfl rfl

/-- A call that stores a value under a property. -/
theorem readsStatement_storing (hbag : ReadsOperand bag) (hvalue : ReadsExpr value)
    (hstarts : ∀ rest, startsExprStatement (bag.lexed ++ .punct "." :: rest) = true)
    (text : String) :
    ReadsStatement (exprStatementOf (methodCall bag "set" [textExpr text, value])) := by
  have hcall : ReadsOperand (methodCall bag "set" [textExpr text, value]) := by
    refine readsOperand_methodCallWith hbag (by decide) ?_ (.inl rfl)
    exact List.forall_mem_cons.mpr
      ⟨(readsOperand_literal _).readsExpr, List.forall_mem_singleton.mpr hvalue⟩
  refine readsStatement_expr hcall.readsExpr rfl fun rest => ?_
  rw [methodCall, lexed_methodCallWith, List.append_assoc]
  exact hstarts _

theorem lexed_letMut (attributes : List Node) (name : String)
    (hvalue : value.isIdent "else" = false) :
    (letMut attributes name value).lexed = Node.lexedAll attributes ++
      .ident "let" :: .ident "mut" :: .ident name :: .punct "=" :: (value.lexed ++ [.punct ";"]) := by
  have hparts := splitAll_tokensOfParts_of (by decide : Kind.letStmt ≠ .exprStmt) (by decide) none
    (.inr (by simpa [Node.ident, Node.punct, Node.isIdent, Node.identName?] using hvalue :
      ∀ part ∈ [.phrase .attributes attributes, .ident "let",
        .phrase .identPat [.ident "mut", .ident name], .punct "=", value, .punct ";"],
          part.isIdent "else" = false))
  have hlexed : (letMut attributes name value).lexed = Node.lexedAll [.phrase .attributes attributes,
      .ident "let", .phrase .identPat [.ident "mut", .ident name], .punct "=", value, .punct ";"] :=
    hparts
  rw [hlexed]
  simp [Kind.isOpen]

/-- A variable that may change, with attributes that are read as they are written. -/
theorem readsStatement_letMut (hattributes : List.Forall₂ ReadsAttribute attributes attributes)
    (hname : isName name = true) (hvalue : ReadsExpr value)
    (helse : value.isIdent "else" = false) : ReadsStatement (letMut attributes name value) := by
  have hlexed := lexed_letMut attributes name helse
  have hstarts : ∃ front more, (letMut attributes name value).lexed = front ++ more ∧
      (front = [.ident "let"] ∨ ∃ body, front = [.punct "#", .group .bracket body]) := by
    rw [hlexed]
    cases hattributes with
    | nil => exact ⟨[.ident "let"], _, rfl, .inl rfl⟩
    | cons hfirst hrest =>
        obtain ⟨body, hbody⟩ := hfirst.starts
        rw [lexedAll_cons, hbody, List.append_assoc]
        exact ⟨_, _, rfl, .inr ⟨body, rfl⟩⟩
  obtain ⟨front, more, hmore, hfront⟩ := hstarts
  have hsemicolon : ∀ rest, Input.startsPunct (front ++ more ++ rest) ";" = false := fun rest => by
    rcases hfront with rfl | ⟨body, rfl⟩ <;> rfl
  refine ⟨?_, fun rest => ?_, rfl, rfl, fun rest hrest => ?_⟩
  · rw [hlexed]
    exact List.append_ne_nil_of_right_ne_nil _ (List.cons_ne_nil _ _)
  · rw [hmore]
    rcases hfront with rfl | ⟨body, rfl⟩ <;> rfl
  · have hread : (reading (.expr true)).run (value.lexed ++ .punct ";" :: rest) =
        .ok (value, .punct ";" :: rest) := hvalue.run_expr rfl
    have hlet : (letStatement reading (.phrase .attributes attributes)).run (.ident "let" ::
        .ident "mut" :: .ident name :: .punct "=" :: (value.lexed ++ .punct ";" :: rest)) =
          .ok (letMut attributes name value, rest) := by
      have hgiven : (orNothing (·.startsPunct "=") do
          return [← punct "=", ← reading (.expr true)]).run
            (.punct "=" :: (value.lexed ++ .punct ";" :: rest)) =
              .ok ([.punct "=", value], .punct ";" :: rest) := by
        refine (run_orNothing_of_true rfl).trans ((run_bind_to (.punct "=") rfl).trans ?_)
        exact (run_bind_of hread).trans rfl
      refine (run_bind_to (.ident "let") rfl).trans ?_
      refine (run_bind_of (run_pattern_mut hname rfl)).trans ((run_bind_to [] rfl).trans ?_)
      refine (run_bind_of hgiven).trans ?_
      exact (run_bind_of (run_orNothing_of (Bool.and_false _))).trans rfl
    have hplain := hmore ▸ hsemicolon rest
    rw [hlexed, List.append_assoc] at hplain ⊢
    refine (run_statement_front hplain (run_outerAttributes hattributes rfl)
      (run_statementFront rfl rfl)).trans ((run_bind_to true rfl).trans ?_)
    simpa using hlet

/-- An `if` without an alternative. -/
theorem readsStatement_ifThen (hcondition : ReadsCondition condition)
    (hplain : condition.is .attributes = false)
    (hplainExpr : ∀ rest, Input.startsPunct (List.dropWhile isPathToken (condition.lexed ++
      .group .brace (Node.lexedAll body) :: rest)) "!" = false)
    (hbody : (statements reading).run (Node.lexedAll body) = .ok (body, [])) :
    ReadsStatement (resultOf (ifThen condition body)) := by
  have hlexed : ∀ rest, (resultOf (ifThen condition body)).lexed ++ rest =
      .ident "if" :: (condition.lexed ++ .group .brace (Node.lexedAll body) :: rest) := by
    intro rest
    rw [lexed_resultOf, ifThen, lexedAt_bareExpr rfl rfl (List.forall_mem_cons.mpr ⟨rfl,
      List.forall_mem_cons.mpr ⟨hplain, List.forall_mem_singleton.mpr rfl⟩⟩)]
    simp only [braces, lexedAll_cons, lexed_group, lexedAll_nil, List.append_assoc]
    rfl
  refine ⟨?_, fun rest => ?_, rfl, rfl, fun rest hrest => ?_⟩
  · rw [← List.append_nil (resultOf _).lexed, hlexed]
    exact List.cons_ne_nil _ _
  · rw [hlexed]
    rfl
  simp only [followsStatement, Bool.not_eq_true', Bool.or_eq_false_iff] at hrest
  obtain ⟨⟨⟨helse, hsemicolon⟩, hdot⟩, hmark⟩ := hrest
  have hblock : (reading .block).run (.group .brace (Node.lexedAll body) :: rest) =
      .ok (braces body, rest) := by
    rw [run_reading]
    exact run_group_eq_ok.mpr ⟨_, _, rfl, hbody, rfl⟩
  have hif : (ifExpr reading).run (.ident "if" :: (condition.lexed ++
      .group .brace (Node.lexedAll body) :: rest)) = .ok (ifThen condition body, rest) := by
    have hclause : (do
        return [← word "if", ← reading (.expr false), ← reading .block] :
          Parser (List Node)).run (.ident "if" :: (condition.lexed ++
            .group .brace (Node.lexedAll body) :: rest)) =
              .ok ([.ident "if", condition, braces body], rest) := by
      refine (run_bind_to (.ident "if") rfl).trans ((run_bind_of (hcondition _ rfl)).trans ?_)
      exact (run_bind_of hblock).trans rfl
    have hmore : (rest.startsWord "else" && rest.next.startsWord "if") = false := by
      rw [helse, Bool.false_and]
    refine (run_bind_of hclause).trans ((run_bind_of (run_many_of_eq_false hmore)).trans ?_)
    exact (run_bind_of (run_orNothing_of helse)).trans rfl
  have hexpr : (reading .statementExpr).run (.ident "if" :: (condition.lexed ++
      .group .brace (Node.lexedAll body) :: rest)) = .ok (ifThen condition body, rest) := by
    have hlike : (blockLike? reading).run (.ident "if" :: (condition.lexed ++
        .group .brace (Node.lexedAll body) :: rest)) = .ok (some (ifThen condition body), rest) := by
      have hrule : (blockLike? reading).run (.ident "if" :: (condition.lexed ++
          .group .brace (Node.lexedAll body) :: rest)) = (do return some (← ifExpr reading) :
            Parser (Option Node)).run (.ident "if" :: (condition.lexed ++
              .group .brace (Node.lexedAll body) :: rest)) := rfl
      exact hrule.trans (run_bind_of hif)
    rw [run_reading]
    refine (run_bind_of (run_outerAttributes_none rfl)).trans ((run_bind_of hlike).trans ?_)
    refine (run_bind_to (ifThen condition body) rfl).trans ?_
    refine (run_bind_of (run_peek _)).trans ?_
    rw [hdot, hmark]
    rfl
  have hplain : startsPlain (.ident "if" :: (condition.lexed ++
      .group .brace (Node.lexedAll body) :: rest)) = true := by
    have hdrop : ((Node.ident "if" :: (condition.lexed ++ .group .brace (Node.lexedAll body) ::
        rest)).dropWhile isPathToken) = (condition.lexed ++ .group .brace (Node.lexedAll body) ::
          rest).dropWhile isPathToken := rfl
    rw [startsPlain, hdrop, hplainExpr]
    rfl
  rw [hlexed]
  refine (run_statement_plain hplain rfl).trans ?_
  exact run_exprStatement hexpr rfl (run_orNothing_of hsemicolon)

/-! ### Bodies -/

/-- A step that reads a statement, up to the end of a block. -/
def statementStep : Parser (Option (List Node)) := do
  if (← peek List.isEmpty) then return none
  let node ← statement reading
  Parser.guard (endsStatement node || (← peek List.isEmpty))
  return some [node]

theorem Rounds.statement {node : Node} {more : List Node} {left : Input}
    (hnode : (Syntax.statement reading).run input = .ok (node, rest))
    (hends : (endsStatement node || rest.isEmpty) = true) (hless : rest.length < input.length)
    (hmore : Rounds statementStep rest more left) :
    Rounds statementStep input (node :: more) left := by
  have hinput : List.isEmpty input = false := by
    cases input with
    | nil => cases hless
    | cons first others => rfl
  refine @Rounds.round _ _ _ _ [node] _ ?_ hless hmore
  refine (run_bind_of (run_peek _)).trans ?_
  rw [hinput]
  refine (run_bind_of hnode).trans ((run_bind_of (run_peek _)).trans ?_)
  rw [hends]
  rfl

theorem opensStatement_lexedAll {nodes : List Node} (hnodes : ∀ node ∈ nodes, ReadsStatement node)
    {tail : Input} (htail : opensStatement tail = true) :
    opensStatement (Node.lexedAll nodes ++ tail) = true := by
  cases nodes with
  | nil => exact htail
  | cons node rest =>
      rw [lexedAll_cons, List.append_assoc]
      exact (hnodes node List.mem_cons_self).opens _

/-- Statements in front of an input that is read to its end. -/
theorem Rounds.statements {nodes read : List Node} {tail : Input}
    (hnodes : ∀ node ∈ nodes, ReadsStatement node) (htail : opensStatement tail = true)
    (hread : Rounds statementStep tail read []) :
    Rounds statementStep (Node.lexedAll nodes ++ tail) (nodes ++ read) [] := by
  induction nodes with
  | nil => exact hread
  | cons node rest ih =>
      obtain ⟨hnode, hrest⟩ := List.forall_mem_cons.mp hnodes
      have hopens := opensStatement_lexedAll hrest htail
      have hrun := hnode.recovers _ (Bool.and_eq_true_iff.mp hopens).1
      rw [lexedAll_cons, List.append_assoc]
      exact .statement hrun (by rw [hnode.ends, Bool.true_or]) (length_lt_of_ne_nil hnode.nonempty)
        (ih hrest)

theorem Rounds.statements_done : Rounds statementStep [] [] [] := .stop rfl

/-- A block of statements that stand by themselves. -/
theorem run_statements {nodes : List Node} (hnodes : ∀ node ∈ nodes, ReadsStatement node) :
    (statements reading).run (Node.lexedAll nodes) = .ok (nodes, []) := by
  have hrounds := Rounds.statements hnodes rfl .statements_done
  rw [List.append_nil, List.append_nil] at hrounds
  exact run_repeated hrounds

/-- An expression that ends a block. -/
structure ReadsTail (tail : Node) : Prop where
  plain : tail.is .attributes = false
  nonempty : tail.lexed ≠ []
  opens : opensStatement tail.lexed = true
  recovers : ∃ read, (statement reading).run tail.lexed = .ok (read, []) ∧
    read.is .attributes = false

theorem readsTail_expr (hexpr : ReadsExpr expr) (hplainExpr : expr.is .macroExpr = false)
    (hstarts : startsExprStatement expr.lexed = true) : ReadsTail (resultOf expr) := by
  have hlexed : (resultOf expr).lexed = expr.lexed := lexed_resultOf.trans (hexpr.steady _)
  have hoperand := hexpr.recovers [] rfl
  rw [List.append_nil] at hoperand
  refine ⟨rfl, hlexed ▸ hexpr.nonempty, hlexed ▸ opensStatement_of_starts hstarts, ?_⟩
  rw [hlexed]
  exact ⟨_, run_statement_expr hstarts hexpr.notBlock hplainExpr hoperand rfl rfl, rfl⟩

/-- The call of a macro that ends a block, with its arguments read as the tokens they are. -/
theorem readsTail_macroCall {path : Node} {delimiter : Delimiter} {arguments : List Node}
    (hpath : ReadsPath true path) (hplain : isPlainPath path = true) (hbrace : delimiter ≠ .brace)
    (hstarts : ∃ more, path.lexed = .leaf (.punct ":" true) :: .punct ":" :: more)
    (hfront : statementFront.run (path.lexed ++
      [.punct "!", .group delimiter (Node.lexedAll arguments)]) = .ok (.other,
        path.lexed ++ [.punct "!", .group delimiter (Node.lexedAll arguments)])) :
    ReadsTail (resultOf (macroCallOf path (.group delimiter arguments))) := by
  obtain ⟨parts, rfl⟩ := hpath.isPath
  have hsteady : Steady (macroCallOf (.phrase .path parts) (.group delimiter arguments)) :=
    steady_bareExpr rfl rfl (List.forall_mem_cons.mpr ⟨rfl, List.forall_mem_cons.mpr
      ⟨rfl, List.forall_mem_singleton.mpr rfl⟩⟩) (.inr rfl)
  have hlexed : (resultOf (macroCallOf (.phrase .path parts) (.group delimiter arguments))).lexed =
      (Node.phrase .path parts).lexed ++
        [.punct "!", .group delimiter (Node.lexedAll arguments)] := by
    rw [lexed_resultOf, hsteady]
    simp [macroCallOf, bareExpr, Kind.isOpen]
  have hatom : (atom reading true).run ((Node.phrase .path parts).lexed ++
      [.punct "!", .group delimiter (Node.lexedAll arguments)]) =
        .ok (macroCallOf (.phrase .path parts) (.group delimiter (Node.lexedAll arguments)), []) := by
    have hread : (anyPath reading true).run ((Node.phrase .path parts).lexed ++
        [.punct "!", .group delimiter (Node.lexedAll arguments)]) =
          .ok (.phrase .path parts, [.punct "!", .group delimiter (Node.lexedAll arguments)]) := by
      refine (run_bind_of (run_peek _)).trans ?_
      rw [(hpath.starts.append rfl).startsPunct_eq_false]
      exact hpath.recovers _ rfl
    refine (run_atom_path (hpath.starts.append rfl)).trans ((run_bind_of hread).trans ?_)
    refine run_get_bind.trans ?_
    rw [hplain]
    rfl
  have hoperand := run_operand (.path (hpath.starts.append rfl)) ⟨_, _, rfl, rfl⟩
    (run_trailers_of_atom hatom (.stop (run_trailer?_of_ends rfl)))
  obtain ⟨more, hstarts⟩ := hstarts
  rw [hstarts] at hlexed hoperand hfront
  have hexpr := run_statementExpr rfl rfl hoperand rfl rfl
  have hbody : isBraceMacro (macroCallOf (.phrase .path parts)
      (.group delimiter (Node.lexedAll arguments))) = false := beq_eq_false_iff_ne.mpr hbrace
  refine ⟨rfl, hlexed ▸ List.cons_ne_nil _ _, hlexed ▸ rfl, resultOf (macroCallOf (.phrase .path parts)
    (.group delimiter (Node.lexedAll arguments))), ?_, rfl⟩
  rw [hlexed, run_statement_of_front hfront rfl rfl rfl]
  refine (run_bind_of hexpr).trans ((run_bind_to [] rfl).trans ?_)
  change (if (false || isBraceMacro (macroCallOf (.phrase .path parts)
    (.group delimiter (Node.lexedAll arguments)))) = true then _ else _ : Parser Node).run [] = _
  rw [hbody]
  rfl

/-- The statements of a body are read to its end, whatever the trees that they are read as. -/
structure ReadsBody (body : List Node) : Prop where
  plain : ∀ node ∈ body, node.is .attributes = false
  starts : startsInnerAttribute (Node.lexedAll body) = false
  recovers : ∃ read, (statements reading).run (Node.lexedAll body) = .ok (read, []) ∧
    ∀ node ∈ read, node.is .attributes = false

theorem startsInnerAttribute_of_opens (hopens : opensStatement input = true) :
    startsInnerAttribute input = false := by
  rw [opensStatement, Bool.and_eq_true, Bool.not_eq_true'] at hopens
  exact hopens.2

theorem readsBody_statements {nodes : List Node} (hnodes : ∀ node ∈ nodes, ReadsStatement node) :
    ReadsBody nodes := by
  have hopens := opensStatement_lexedAll hnodes (by rfl : opensStatement [] = true)
  rw [List.append_nil] at hopens
  have hplain : ∀ node ∈ nodes, node.is .attributes = false :=
    fun node hmem => (hnodes node hmem).plain
  exact ⟨hplain, startsInnerAttribute_of_opens hopens, nodes, run_statements hnodes, hplain⟩

theorem readsBody_tail {nodes : List Node} {tail : Node}
    (hnodes : ∀ node ∈ nodes, ReadsStatement node) (htail : ReadsTail tail) :
    ReadsBody (nodes ++ [tail]) := by
  obtain ⟨read, hread, hplain⟩ := htail.recovers
  have hlast : Rounds statementStep tail.lexed [read] [] :=
    .statement hread (Bool.or_true _) (List.length_pos_of_ne_nil htail.nonempty) .statements_done
  have hrounds := Rounds.statements hnodes htail.opens hlast
  have hlexed : Node.lexedAll (nodes ++ [tail]) = Node.lexedAll nodes ++ tail.lexed := by
    rw [lexedAll_append, lexedAll_cons, lexedAll_nil, List.append_nil]
  have hstatements : ∀ node ∈ nodes, node.is .attributes = false :=
    fun node hmem => (hnodes node hmem).plain
  refine ⟨List.forall_mem_append.mpr ⟨hstatements, List.forall_mem_singleton.mpr htail.plain⟩, ?_,
    nodes ++ [read], ?_,
    List.forall_mem_append.mpr ⟨hstatements, List.forall_mem_singleton.mpr hplain⟩⟩
  · rw [hlexed]
    exact startsInnerAttribute_of_opens (opensStatement_lexedAll hnodes htail.opens)
  · rw [hlexed]
    exact run_repeated hrounds

/-- An expression that starts a statement, whatever follows it. -/
def StartsStatement (expr : Node) : Prop :=
  ∀ rest, startsExprStatement (expr.lexed ++ rest) = true

theorem StartsStatement.of_lexed {tokens : Input} (hlexed : ∃ more, expr.lexed = tokens ++ more)
    (htokens : ∀ rest, startsExprStatement (tokens ++ rest) = true) : StartsStatement expr := by
  obtain ⟨more, hmore⟩ := hlexed
  intro rest
  rw [hmore, List.append_assoc]
  exact htokens _

theorem StartsStatement.methodCallWith (hexpr : StartsStatement expr) (typeArguments : Node)
    (name : String) (arguments : List Node) :
    StartsStatement (methodCallWith typeArguments expr name arguments) :=
  .of_lexed ⟨_, lexed_methodCallWith typeArguments expr name arguments⟩ hexpr

theorem StartsStatement.methodCall (hexpr : StartsStatement expr) (name : String)
    (arguments : List Node) : StartsStatement (methodCall expr name arguments) :=
  hexpr.methodCallWith _ name arguments

theorem StartsStatement.tail (hstarts : StartsStatement expr) (hexpr : ReadsExpr expr)
    (hplainExpr : expr.is .macroExpr = false) : ReadsTail (resultOf expr) := by
  refine readsTail_expr hexpr hplainExpr ?_
  have hend := hstarts []
  rwa [List.append_nil] at hend

/-- A body that is an expression alone. -/
theorem readsBody_expr (hexpr : ReadsExpr expr) (hplainExpr : expr.is .macroExpr = false)
    (hstarts : StartsStatement expr) : ReadsBody [resultOf expr] :=
  readsBody_tail (List.forall_mem_nil _) (hstarts.tail hexpr hplainExpr)

theorem ReadsBody.run_attributedBlock (hbody : ReadsBody body) : ∃ read,
    (∀ rest, (attributedBlock reading).run (.group .brace (Node.lexedAll body) :: rest) =
      .ok (braces read, rest)) ∧ ∀ node ∈ read, node.is .attributes = false := by
  obtain ⟨read, hread, hplain⟩ := hbody.recovers
  have hinner : (innerAttributes? reading).run (Node.lexedAll body) =
      .ok ([], Node.lexedAll body) :=
    (run_bind_of ((run_bind_of (run_many_of_eq_false hbody.starts)).trans rfl)).trans rfl
  refine ⟨read, fun rest => run_group_eq_ok.mpr ⟨_, read, rfl, ?_, rfl⟩, hplain⟩
  exact (run_bind_of hinner).trans ((run_bind_of hread).trans rfl)

end Statements

end EntityTables.Syntax
