import EntityTables.Proofs.Syntax.WrittenOperands

/-!
# Expressions that are read back

The other expressions of generated code: struct literals, references, closures with one parameter,
and the two kinds of conditions. Each is recovered from its tokens if its parts are.
-/

namespace EntityTables.Syntax

open EntityTables.Syntax.Parser

/-! ### Names as patterns -/

/-- What may follow a pattern that is only a name. -/
def endsPattern (input : Input) : Bool :=
  !input.startsAnyPunct ["::", "!", ".."] && !input.startsPunct "@" &&
    !(input.startsGroup .brace || input.startsGroup .paren)

section Patterns

variable {name : String} {rest : Input}

theorem run_identPattern (hname : isName name = true) (hrest : rest.startsPunct "@" = false)
    {mutability : List Node} (hmutability : mutability = [] ∨ mutability = [.ident "mut"]) :
    (identPattern reading).run (mutability ++ .ident name :: rest) =
      .ok (.phrase .identPat (mutability ++ [.ident name]), rest) := by
  have hword : ∀ word, isName word = false → Input.startsWord (.ident name :: rest) word = false :=
    fun word => startsWord_of_isName hname
  have hmut : (word? "mut").run (mutability ++ .ident name :: rest) =
      .ok (mutability, .ident name :: rest) := by
    rcases hmutability with rfl | rfl
    · exact run_orNothing_of (hword "mut" (by decide))
    · rfl
  have href : (word? "ref").run (mutability ++ .ident name :: rest) =
      .ok ([], mutability ++ .ident name :: rest) := by
    rcases hmutability with rfl | rfl
    · exact run_orNothing_of (hword "ref" (by decide))
    · rfl
  refine (run_bind_of href).trans ((run_bind_of hmut).trans ((run_bind_of (run_peek _)).trans ?_))
  rw [hword "self" (by decide)]
  refine (run_bind_of (run_name hname)).trans ((run_bind_of (run_orNothing_of hrest)).trans ?_)
  rfl

theorem run_pattern_name (hname : isName name = true) (hrest : endsPattern rest = true) :
    (reading .pattern).run (.ident name :: rest) = .ok (.phrase .identPat [.ident name], rest) := by
  simp only [endsPattern, Bool.and_eq_true, Bool.not_eq_true', Bool.or_eq_false_iff] at hrest
  obtain ⟨⟨hpunct, hat⟩, hbrace, hparen⟩ := hrest
  have hword : ∀ word, isName word = false → Input.startsWord (.ident name :: rest) word = false :=
    fun word => startsWord_of_isName hname
  have hroot : Input.startsOneOf (.ident name :: rest) ["Self", "super", "crate"] = false :=
    startsOneOf_of_isName hname (by decide)
  have htruth : Input.startsOneOf (.ident name :: rest) ["true", "false"] = false :=
    startsOneOf_of_isName hname (by decide)
  have hpath : startsPathPattern (.ident name :: rest) = false := by
    have hnext : Input.next (.ident name :: rest) = rest := rfl
    simp only [startsPathPattern, hnext, hpunct, hbrace, hparen, hroot, hword "self" (by decide),
      Bool.and_false, Bool.false_and, Bool.false_or, Bool.or_false]
    rfl
  have hliteral : Input.startsLiteral (.ident name :: rest) = false := by
    rw [Input.startsLiteral, htruth]
    rfl
  have hstarts : (Input.startsOneOf (.ident name :: rest) ["ref", "mut", "self"] ||
      Input.startsName (.ident name :: rest)) = true :=
    Bool.or_eq_true_iff.mpr (.inr hname)
  have hminus : Input.startsPunct (.ident name :: rest) "-" = false := rfl
  rw [run_reading]
  refine run_get_bind.trans ?_
  rw [hpath, hword "_" (by decide), hword "box" (by decide), hliteral, hword "const" (by decide),
    hminus, hstarts]
  exact run_identPattern hname hat (.inl rfl)

theorem run_pattern_mut (hname : isName name = true) (hrest : rest.startsPunct "@" = false) :
    (reading .pattern).run (.ident "mut" :: .ident name :: rest) =
      .ok (.phrase .identPat [.ident "mut", .ident name], rest) := by
  have hrule : (patternRule reading).run (.ident "mut" :: .ident name :: rest) =
      (identPattern reading).run (.ident "mut" :: .ident name :: rest) := rfl
  rw [run_reading]
  exact hrule.trans (run_identPattern hname hrest (.inr rfl))

end Patterns

/-! ### Struct literals -/

/-- A part of a struct literal: a field, or what the other fields take their values from. -/
def structPart : Parser (List Node) := do
  if (← peek (·.startsPunct "..")) then
    let dots ← punct ".."
    if (← peek List.isEmpty) then return [dots]
    let rest ← reading (.expr true)
    Parser.guard (← peek List.isEmpty)
    return [dots, rest]
  return [← fieldValue reading]

section Fields

variable {field : String} {value : Node} {fields : List Node} {rest : Input}

theorem run_structPart (hname : isName field = true) {tokens : Input} {given : List Node}
    (hvalue : (orNothing (·.startsPunct ":") do return [← punct ":", ← reading (.expr true)]).run
      tokens = .ok (given, rest)) :
    structPart.run (.ident field :: tokens) =
      .ok ([.phrase .fieldValue (.empty .attributes :: .ident field :: given)], rest) := by
  have hfield : (fieldValue reading).run (.ident field :: tokens) =
      .ok (.phrase .fieldValue (.empty .attributes :: .ident field :: given), rest) := by
    refine (run_bind_to (.empty .attributes) rfl).trans (run_get_bind.trans ?_)
    exact (run_bind_of (run_name hname)).trans ((run_bind_of hvalue).trans rfl)
  exact (run_bind_of (run_peek _)).trans ((run_bind_of hfield).trans rfl)

theorem recoversPart_fieldGiven (hname : isName field = true) (hvalue : ReadsExpr value) :
    RecoversPart structPart (fieldGiven field value) := by
  have hlexed : (fieldGiven field value).lexed = .ident field :: .punct ":" :: value.lexed := by
    simp [fieldGiven, Kind.isOpen]
  refine ⟨hlexed ▸ List.cons_ne_nil _ _, fun rest hrest => ?_⟩
  have hread := hvalue.run_expr (endsExprIn_of_endsPart hrest)
  rw [hlexed]
  refine run_structPart hname ((run_orNothing_of_true rfl).trans ?_)
  exact (run_bind_to (.punct ":") rfl).trans ((run_bind_of hread).trans rfl)

theorem recoversPart_fieldNamed (hname : isName field = true) :
    RecoversPart structPart (fieldNamed field) := by
  have hlexed : (fieldNamed field).lexed = [.ident field] := by simp [fieldNamed, Kind.isOpen]
  refine ⟨hlexed ▸ List.cons_ne_nil _ _, fun rest hrest => ?_⟩
  have hcolon : rest.startsPunct ":" = false := by
    rcases endsPart_cases hrest with rfl | ⟨joint, more, rfl⟩ <;> rfl
  rw [hlexed]
  exact run_structPart hname (run_orNothing_of hcolon)

/-- A struct literal whose fields are read. -/
theorem readsExpr_structOf (hfields : (commaList structPart).run (Node.lexedAll fields) =
    .ok (fields, [])) : ReadsExpr (structOf "Self" fields) := by
  have hlexed : (structOf "Self" fields).lexed =
      [.ident "Self", .group .brace (Node.lexedAll fields)] := by
    simp [structOf, bareExpr, namePath, pathOf, joinSegments, segmentOf, braces, Kind.isOpen]
  have hsteady : Steady (structOf "Self" fields) :=
    steady_bareExpr rfl rfl (by simp [namePath, pathOf, braces, Node.is, Node.kind?]) (.inr rfl)
  refine ⟨hlexed ▸ List.cons_ne_nil _ _, hsteady, rfl, fun rest hrest => ?_⟩
  have hends : endsExpr rest = true := (Bool.and_eq_true_iff.mp hrest).1
  have hgroup : (Parser.group .brace (structFields reading)).run
      (.group .brace (Node.lexedAll fields) :: rest) = .ok (braces fields, rest) :=
    run_group_eq_ok.mpr ⟨_, _, rfl, hfields, rfl⟩
  have hself : ReadsPath true (namePath ["Self"]) := readsPath_name (by decide)
  have hpath : (anyPath reading true).run
      (.ident "Self" :: .group .brace (Node.lexedAll fields) :: rest) =
        .ok (namePath ["Self"], .group .brace (Node.lexedAll fields) :: rest) :=
    (run_bind_of (run_peek _)).trans (hself.recovers _ rfl)
  have hrule : (pathLikeExpr reading true).run
      (.ident "Self" :: .group .brace (Node.lexedAll fields) :: rest) =
        (Parser.group .brace (structFields reading) >>= fun body =>
          pure (bareExpr .structExpr [namePath ["Self"], body])).run
            (.group .brace (Node.lexedAll fields) :: rest) :=
    (run_bind_of hpath).trans rfl
  have hatom := (run_atom_path (.word (by decide) rfl)).trans
    (hrule.trans (run_bind_of hgroup))
  rw [hlexed]
  refine run_operand (.path (.word (by decide) rfl)) ⟨_, _, rfl, rfl⟩ ?_
  exact run_trailers_of_atom hatom (.stop (run_trailer?_of_ends hends))

end Fields

/-! ### References and closures -/

section References

variable {rest : Input} {expr path body : Node} {name : String}

/-- A reference to an operand; what comes after the sign must not make it an address. -/
theorem readsExpr_borrowed (hexpr : ReadsOperand expr)
    (hword : ∀ rest, endsExpr rest = true → Input.startsWord (expr.lexed ++ rest) "mut" = false ∧
      (Input.startsWord (expr.lexed ++ rest) "raw" &&
        (Input.next (expr.lexed ++ rest)).startsOneOf ["mut", "const"]) = false) :
    ReadsExpr (borrowed expr) := by
  have hlexed : (borrowed expr).lexed = .punct "&" :: expr.lexed := by
    simp [borrowed, Kind.isOpen]
  have hsteady : Steady (borrowed expr) := steady_bareExpr rfl rfl (List.forall_mem_cons.mpr
    ⟨rfl, List.forall_mem_singleton.mpr (hexpr.isOperand.is_eq_false rfl)⟩) (.inr rfl)
  refine ⟨hlexed ▸ List.cons_ne_nil _ _, hsteady, rfl, fun rest hrest => ?_⟩
  have hends : endsExpr rest = true := (Bool.and_eq_true_iff.mp hrest).1
  obtain ⟨hmut, hraw⟩ := hword rest hends
  have hread := hexpr.run_operand hrest
  rw [hlexed, List.cons_append, run_reading]
  refine run_get_bind.trans ((run_bind_to (.empty .attributes) rfl).trans ?_)
  refine run_get_bind.trans ((run_bind_of (run_punct_single (by decide) _)).trans ?_)
  refine (run_bind_of (run_peek _)).trans ?_
  rw [hraw]
  exact (run_bind_of (run_orNothing_of hmut)).trans ((run_bind_of hread).trans rfl)

theorem readsExpr_borrowed_path (hpath : ReadsPath true path) :
    ReadsExpr (borrowed (pathExpr path)) := by
  refine readsExpr_borrowed (readsOperand_pathExpr hpath) fun rest hrest => ?_
  rw [lexed_pathExpr]
  have hmut : Input.startsWord (path.lexed ++ rest) "mut" = false :=
    (hpath.starts.append (startsPunct_of_endsExpr hrest).1).startsWord_eq_false (by decide)
  have hnext : (Input.next (path.lexed ++ rest)).startsAnyWord = false := by
    have htail := hpath.noWord
    have hword : rest.startsAnyWord = false := by
      rcases endsExpr_cases hrest with rfl | ⟨joint, more, rfl⟩ | ⟨joint, more, rfl⟩ |
        ⟨body, more, rfl⟩ <;> rfl
    obtain ⟨node, more, hlexed⟩ := List.exists_cons_of_ne_nil hpath.starts.ne_nil
    rw [hlexed] at htail ⊢
    exact startsAnyWord_append htail hword
  refine ⟨hmut, ?_⟩
  rw [startsOneOf_of_noWord hnext, Bool.and_false]

/-- A closure with one parameter, whose body is an operand. -/
theorem readsExpr_closure (hname : isName name = true) (hbody : ReadsOperand body) :
    ReadsExpr (closure name body) := by
  have hlexed : (closure name body).lexed =
      .punct "|" :: .ident name :: .punct "|" :: body.lexed := by
    simp [closure, bareExpr, Kind.isOpen]
  have hsteady : Steady (closure name body) := steady_bareExpr rfl rfl
    (List.forall_mem_cons.mpr ⟨rfl, List.forall_mem_cons.mpr ⟨rfl, List.forall_mem_cons.mpr
      ⟨rfl, List.forall_mem_singleton.mpr (hbody.isOperand.is_eq_false rfl)⟩⟩⟩) (.inr rfl)
  refine ⟨hlexed ▸ List.cons_ne_nil _ _, hsteady, rfl, fun rest hrest => ?_⟩
  have hends : endsExpr rest = true := (Bool.and_eq_true_iff.mp hrest).1
  have hread := hbody.readsExpr.run_expr hrest
  have harrow : Input.startsPunct (body.lexed ++ rest) "->" = false := by
    have hstarts := hbody.starts.append (startsPunct_of_endsExpr hends).1
    generalize body.lexed ++ rest = input at hstarts
    cases hstarts with
    | path hstarts => cases hstarts <;> rfl
    | _ => rfl
  have hparam : (closureParam reading).run (.ident name :: .punct "|" :: (body.lexed ++ rest)) =
      .ok (.phrase .pattern [.empty .attributes, .phrase .identPat [.ident name]],
        .punct "|" :: (body.lexed ++ rest)) := by
    refine (run_bind_to (.empty .attributes) rfl).trans ?_
    exact (run_bind_of (run_pattern_name hname rfl)).trans rfl
  have hparams : (separated (·.startsPunct "|") (punct ",") (one (closureParam reading))).run
      (.ident name :: .punct "|" :: (body.lexed ++ rest)) =
        .ok ([.phrase .pattern [.empty .attributes, .phrase .identPat [.ident name]]],
          .punct "|" :: (body.lexed ++ rest)) :=
    run_separated (.last rfl (run_one_eq_ok.mpr ⟨_, rfl, hparam⟩) rfl (Nat.lt_succ_self _))
  have hatom : (atom reading true).run
      (.punct "|" :: .ident name :: .punct "|" :: (body.lexed ++ rest)) =
        .ok (closure name body, rest) := by
    have hrule : (atom reading true).run
        (.punct "|" :: .ident name :: .punct "|" :: (body.lexed ++ rest)) =
          (closureExpr reading true).run
            (.punct "|" :: .ident name :: .punct "|" :: (body.lexed ++ rest)) := rfl
    refine hrule.trans ((run_bind_to [] rfl).trans ((run_bind_to [] rfl).trans ?_))
    refine (run_bind_to [] rfl).trans ((run_bind_to [] rfl).trans ((run_bind_to [] rfl).trans ?_))
    refine (run_bind_of (run_punct_single (by decide) _)).trans ((run_bind_of hparams).trans ?_)
    refine (run_bind_of (run_punct_single (by decide) _)).trans ((run_bind_of (run_peek _)).trans ?_)
    rw [harrow]
    exact (run_bind_of hread).trans rfl
  rw [hlexed]
  refine run_operand (.closure _) ⟨_, _, rfl, rfl⟩ ?_
  exact run_trailers_of_atom hatom (.stop (run_trailer?_of_ends hends))

end References

/-! ### Calls that read through an option -/

section Through

variable {rest : Input} {base type : Node} {arguments : List Node} {name : String}

/-- A type after the name of the optional form, closed by the front of `>>`. -/
def optionSegmentTokens (type : Node) (rest : Input) : Input :=
  .leaf (.punct ":" true) :: .punct ":" :: .ident "Option" :: .punct "<" ::
    (type.lexed ++ .leaf (.punct ">" true) :: rest)

def optionTokens (type : Node) (rest : Input) : Input :=
  .leaf (.punct ":" true) :: .punct ":" :: .ident "core" :: .leaf (.punct ":" true) :: .punct ":" ::
    .ident "option" :: optionSegmentTokens type rest

theorem run_type_option (htype : ReadsType type) (hrest : closes rest = true) :
    (reading (.type true)).run (optionTokens type rest) = .ok (optionOf type, rest) := by
  have hends : endsType rest = true := endsType_of_closes hrest
  simp only [endsType, endsBound, endsPath, Bool.and_eq_true, Bool.not_eq_true',
    Bool.or_eq_false_iff] at hends
  obtain ⟨⟨⟨⟨-, hcolon⟩, hparen⟩, hmark, -⟩, hplus⟩ := hends
  have hcolons : rest.startsPunct "::" = false :=
    startsPunct_of_first (by decide : "::".toList = [':', ':']) hcolon
  have hlast : (segment reading false).run
      (.ident "Option" :: .punct "<" :: (type.lexed ++ .leaf (.punct ">" true) :: rest)) =
        .ok (.phrase .segment [.ident "Option", .phrase .genericArgs [.punct "<", type, .punct ">"]],
          rest) := by
    have hrounds := ArgumentRounds.only (htype (.leaf (.punct ">" true) :: rest) rfl) rfl
    exact run_segment_name (.inl (by decide)) (run_one_eq_ok.mpr ⟨_, rfl, run_genericArgs hrounds⟩)
  have hmore : (moreSegments reading false).run (.leaf (.punct ":" true) :: .punct ":" ::
      .ident "option" :: optionSegmentTokens type rest) =
        .ok ([.punct "::", segmentOf "option", .punct "::", .phrase .segment
          [.ident "Option", .phrase .genericArgs [.punct "<", type, .punct ">"]]], rest) := by
    have hdone : (rest.startsPunct "::" && !(rest.skip 2).startsGroup .paren) = false := by
      rw [hcolons, Bool.false_and]
    have hlength : rest.length < (optionSegmentTokens type rest).length := by
      simp only [optionSegmentTokens, List.length_cons, List.length_append]
      omega
    have hless : (optionSegmentTokens type rest).length < (Node.leaf (.punct ":" true) ::
        .punct ":" :: .ident "option" :: optionSegmentTokens type rest).length := by
      simp only [List.length_cons]
      omega
    refine run_many (@Rounds.again _ _ _ (optionSegmentTokens type rest) _
      [.punct "::", segmentOf "option"] _ rfl rfl hless ?_)
    refine @Rounds.again _ _ _ rest _ [.punct "::", _] [] rfl ?_ hlength (.done hdone)
    exact (run_bind_to (.punct "::") rfl).trans (run_bind_of hlast)
  have hpath : (path reading false).run (optionTokens type rest) =
      .ok (absolutePath [segmentOf "core", segmentOf "option", .phrase .segment
        [.ident "Option", .phrase .genericArgs [.punct "<", type, .punct ">"]]], rest) := by
    refine (run_bind_to [.punct "::"] rfl).trans ((run_bind_to (segmentOf "core") rfl).trans ?_)
    exact (run_bind_of hmore).trans rfl
  have hargs : startsParenArgs rest = false := by
    rw [startsParenArgs, hparen, hcolons]
    rfl
  have htype : (typePath reading).run (optionTokens type rest) = .ok (optionOf type, rest) := by
    refine (run_bind_of (run_peek _)).trans ((run_bind_of (run_peek _)).trans ?_)
    exact (run_bind_of hpath).trans ((run_bind_of (run_withParenArgs _ _ hargs)).trans rfl)
  rw [run_reading]
  refine (run_typeRule_path (.root _)).trans ((run_bind_of htype).trans ?_)
  refine (run_bind_of (run_peek _)).trans ?_
  rw [hmark]
  refine (run_bind_of (run_peek _)).trans ?_
  rw [hplus, Bool.and_false]
  rfl

/-- A method with an optional type as its argument is read with that type. -/
theorem run_memberNamed_option (htype : ReadsType type)
    (harguments : ∀ argument ∈ arguments, ReadsExpr argument) (rest : Input) :
    (memberNamed base name).run ((optionTurbofish type).lexed ++
        .group .paren (Node.lexedAll (commaSeparated arguments)) :: rest) =
      .ok (methodCallWith (turbofish (optionOf type)) base name arguments, rest) := by
  have hlexed : (optionTurbofish type).lexed ++
      .group .paren (Node.lexedAll (commaSeparated arguments)) :: rest =
        .leaf (.punct ":" true) :: .punct ":" :: .punct "<" :: optionTokens type (.punct ">" ::
          .group .paren (Node.lexedAll (commaSeparated arguments)) :: rest) := by
    have hclosing : (Node.punct ">>").lexed = [.leaf (.punct ">" true), .punct ">"] := rfl
    simp [optionTurbofish, optionTokens, optionSegmentTokens, pathType, absolutePath, joinSegments,
      segmentOf, hclosing, Kind.isOpen]
  have hless : ∀ rest, rest.length < (optionTokens type rest).length := fun rest => by
    simp only [optionTokens, optionSegmentTokens, List.length_cons, List.length_append]
    omega
  have hoption := @run_type_option (.punct ">" ::
    .group .paren (Node.lexedAll (commaSeparated arguments)) :: rest) type htype rfl
  have hrounds := ArgumentRounds.of_run hoption (hless _) rfl
  rw [hlexed]
  refine (run_bind_to true rfl).trans ((run_bind_of (run_genericArgs_turbofish hrounds)).trans ?_)
  exact (run_bind_of (run_peek _)).trans ((run_bind_of (run_callArguments harguments rest)).trans rfl)

end Through

/-! ### Conditions -/

/-- A condition that is read as it is written, in front of the block that it is for. -/
def ReadsCondition (condition : Node) : Prop :=
  Recovers (reading (.expr false)) (·.startsGroup .brace) condition.lexed condition

section Conditions

variable {struct : Bool} {left right : Node} {operator : String} {strength : Precedence}
  {input rest : Input}

/-- An operator with its operands. -/
theorem run_expr_binary (hleft : ReadsOperand left) (hright : ReadsOperand right)
    (hinput : endsOperand struct input = true)
    (htrailer : (trailer? reading left).run input = .ok (none, input))
    (hoperator : binaryOperator? input = some (operator, strength))
    (hcompare : isComparison left = false)
    (hsign : (punct operator).run input = .ok (.punct operator, right.lexed ++ rest))
    (hless : (right.lexed ++ rest).length < input.length)
    (hrest : endsExprIn struct rest = true) :
    (reading (.expr struct)).run (left.lexed ++ input) = .ok (binary left operator right, rest) := by
  have hends : endsExpr rest = true := (Bool.and_eq_true_iff.mp hrest).1
  have hnumber : input.startsPunct "#" = false := by
    have hmark := (Bool.and_eq_true_iff.mp (Bool.and_eq_true_iff.mp
      (Bool.and_eq_true_iff.mp hinput).1).1).2
    rwa [Bool.not_eq_true'] at hmark
  have hfirst : (reading (.operand struct)).run (left.lexed ++ input) = .ok (left, input) :=
    run_operand (hleft.starts.append hnumber) hleft.isOperand
      (hleft.grows hinput (.stop htrailer))
  have hnext : nextPrecedence rest = .lowest := by
    rcases endsExpr_cases hends with rfl | ⟨joint, more, rfl⟩ | ⟨joint, more, rfl⟩ |
      ⟨body, more, rfl⟩ <;> rfl
  have hoperand : (rightOperand reading struct strength).run (right.lexed ++ rest) =
      .ok (right, rest) := by
    refine (run_bind_of (hright.run_operand hrest)).trans (run_grow (.stop ?_))
    refine run_get_bind.trans ?_
    rw [hnext]
    cases strength <;> rfl
  have hstep : (operatorAfter? reading struct .lowest left).run input =
      .ok (some (binary left operator right), rest) := by
    refine run_get_bind.trans ?_
    rw [hleft.isOperand.is_eq_false rfl, hoperator, if_neg Bool.false_ne_true]
    have hleast : ¬ strength.rank < Precedence.lowest.rank := Nat.not_lt_zero _
    dsimp only
    rw [if_neg hleast, hcompare, Bool.and_false, if_neg Bool.false_ne_true]
    exact (run_bind_of hsign).trans ((run_bind_of hoperand).trans rfl)
  rw [run_reading]
  refine (run_bind_of hfirst).trans ?_
  have hless : rest.length < input.length := by
    rw [List.length_append] at hless
    omega
  rw [run_reading]
  exact run_grow (.round hstep hless (.stop (run_operatorAfter?_of_ends hends)))

/-- An expression in parentheses. -/
theorem readsOperand_parenthesized {expr : Node}
    (hexpr : RecoversPart (one (reading (.expr true))) expr) :
    ReadsOperand (parenthesized expr) := by
  have hlexed : (parenthesized expr).lexed = [.group .paren expr.lexed] := by
    simp [parenthesized, bareExpr, parens, Kind.isOpen]
  have hsteady : Steady (parenthesized expr) :=
    steady_bareExpr rfl rfl (List.forall_mem_singleton.mpr rfl) (.inr rfl)
  refine ⟨⟨_, _, rfl, rfl⟩, hlexed ▸ .paren _ [], hsteady,
    fun {struct rest last left} hrest hgrowth => ?_⟩
  have hlist : (commaList (one (reading (.expr true)))).run expr.lexed = .ok ([expr], []) := by
    have hlist := @run_commaList _ [expr] (List.forall_mem_singleton.mpr hexpr)
    simpa [commaSeparated] using hlist
  have hgroup : (Parser.group .paren (commaList (one (reading (.expr true))))).run
      (.group .paren expr.lexed :: rest) = .ok (.group .paren [expr], rest) :=
    run_group_eq_ok.mpr ⟨_, _, rfl, hlist, rfl⟩
  have hatom : (atom reading struct).run (.group .paren expr.lexed :: rest) =
      (parenOrTupleExpr reading).run (.group .paren expr.lexed :: rest) := rfl
  rw [hlexed]
  exact run_trailers_of_atom (hatom.trans (run_bind_of hgroup)) hgrowth

/-- The test of a bit: whether anything is left of a word under a mask. -/
theorem readsCondition_masked {word : String} (hword : isName word = true) (mask zero : String) :
    ReadsCondition (binary (parenthesized (binary (nameExpr word) "&" (literalExprOf mask))) "!="
      (literalExprOf zero)) := by
  have hname := readsOperand_nameExpr (isPathWord_of_isName hword)
  have hmasked : RecoversPart (one (reading (.expr true)))
      (binary (nameExpr word) "&" (literalExprOf mask)) := by
    have hlexed : (binary (nameExpr word) "&" (literalExprOf mask)).lexed =
        (nameExpr word).lexed ++ .punct "&" :: (literalExprOf mask).lexed := by
      simp [binary, bareExpr, Kind.isOpen]
    refine ⟨hlexed ▸ List.append_ne_nil_of_right_ne_nil _ (List.cons_ne_nil _ _),
      fun rest hrest => run_one_eq_ok.mpr ⟨_, rfl, ?_⟩⟩
    rw [hlexed, List.append_assoc]
    exact run_expr_binary hname (readsOperand_literal mask) rfl rfl rfl rfl rfl
      (Nat.lt_succ_self _) (endsExprIn_of_endsPart hrest)
  intro rest hrest
  have hlexed : (binary (parenthesized (binary (nameExpr word) "&" (literalExprOf mask))) "!="
      (literalExprOf zero)).lexed = (parenthesized
        (binary (nameExpr word) "&" (literalExprOf mask))).lexed ++
          .leaf (.punct "!" true) :: .punct "=" :: (literalExprOf zero).lexed := by
    have hunequal : (Node.punct "!=").lexed = [.leaf (.punct "!" true), .punct "="] := rfl
    simp [binary, bareExpr, hunequal, Kind.isOpen]
  have hends : endsExprIn false rest = true := by
    obtain ⟨body, more, rfl⟩ := startsGroup_cons hrest
    rfl
  rw [hlexed, List.append_assoc]
  exact run_expr_binary (readsOperand_parenthesized hmasked) (readsOperand_literal zero) rfl rfl
    rfl rfl rfl (Nat.lt_succ_of_lt (Nat.lt_succ_self _)) hends

theorem run_alternatives {pattern : Node} (hinput : input.startsPunct "|" = false)
    (hpattern : (reading .pattern).run input = .ok (pattern, rest))
    (hrest : rest.startsPunct "|" = false) :
    (reading .alternatives).run input = .ok (pattern, rest) := by
  have hmore : startsAlternative rest = false := by rw [startsAlternative, hrest, Bool.false_and]
  rw [run_reading]
  refine (run_bind_of (run_orNothing_of hinput)).trans ((run_bind_of hpattern).trans ?_)
  exact (run_bind_of (run_many_of_eq_false hmore)).trans rfl

/-- The condition that a variable holds a present value. -/
theorem readsCondition_letSome {name value : String} (hname : isName name = true)
    (hvalue : isName value = true) : ReadsCondition (letSome name (nameExpr value)) := by
  intro rest hrest
  have hsome : ReadsPath true somePath := readsPath_rootPath (by decide)
  have hoperand := readsOperand_nameExpr (isPathWord_of_isName hvalue)
  have hlexed : (letSome name (nameExpr value)).lexed ++ rest = .ident "let" ::
      (somePath.lexed ++ .group .paren [.ident name] :: .punct "=" ::
        ((nameExpr value).lexed ++ rest)) := by
    simp [letSome, bareExpr, parens, Kind.isOpen]
  obtain ⟨body, more, rfl⟩ := startsGroup_cons hrest
  have hbound : (commaList (one (reading .alternatives))).run [.ident name] =
      .ok ([.phrase .identPat [.ident name]], []) := by
    refine run_separated (.last rfl (run_one_eq_ok.mpr ⟨_, rfl, ?_⟩) rfl (Nat.lt_succ_self _))
    exact run_alternatives rfl (run_pattern_name hname rfl) rfl
  have hgroup (rest : Input) : (Parser.group .paren (commaList (one (reading .alternatives)))).run
      (.group .paren [.ident name] :: rest) =
        .ok (parens [.phrase .identPat [.ident name]], rest) :=
    run_group_eq_ok.mpr ⟨_, _, rfl, hbound, rfl⟩
  have hpattern (rest : Input) : (reading .pattern).run
      (somePath.lexed ++ .group .paren [.ident name] :: rest) =
        .ok (.phrase .pattern [somePath, parens [.phrase .identPat [.ident name]]], rest) := by
    have hpath : (anyPath reading true).run (somePath.lexed ++ .group .paren [.ident name] :: rest) =
        .ok (somePath, .group .paren [.ident name] :: rest) :=
      (run_bind_of (run_peek _)).trans (hsome.recovers _ rfl)
    have hrule : (patternRule reading).run (somePath.lexed ++ .group .paren [.ident name] :: rest) =
        (pathPattern reading).run (somePath.lexed ++ .group .paren [.ident name] :: rest) := rfl
    have hafter : (pathPattern reading).run (somePath.lexed ++ .group .paren [.ident name] :: rest) =
        (Parser.group .paren (commaList (one (reading .alternatives))) >>= fun bound =>
          pure (.phrase .pattern [somePath, bound])).run (.group .paren [.ident name] :: rest) :=
      (run_bind_of hpath).trans rfl
    rw [run_reading]
    exact hrule.trans (hafter.trans (run_bind_of (hgroup rest)))
  have hread : (reading (.operand false)).run ((nameExpr value).lexed ++ .group .brace body :: more) =
      .ok (nameExpr value, .group .brace body :: more) := hoperand.run_operand rfl
  have hatom : (atom reading false).run (.ident "let" :: (somePath.lexed ++
      .group .paren [.ident name] :: .punct "=" ::
        ((nameExpr value).lexed ++ .group .brace body :: more))) =
          .ok (letSome name (nameExpr value), .group .brace body :: more) := by
    have hrule : (atom reading false).run (.ident "let" :: (somePath.lexed ++
        .group .paren [.ident name] :: .punct "=" ::
          ((nameExpr value).lexed ++ .group .brace body :: more))) =
            (letExpr reading false).run (.ident "let" :: (somePath.lexed ++
              .group .paren [.ident name] :: .punct "=" ::
                ((nameExpr value).lexed ++ .group .brace body :: more))) := rfl
    refine hrule.trans ((run_bind_to (.ident "let") rfl).trans ?_)
    refine (run_bind_of (run_alternatives rfl (hpattern _) rfl)).trans ?_
    refine (run_bind_to (.punct "=") rfl).trans ((run_bind_of hread).trans ?_)
    exact (run_bind_of (run_continuation_of_ends rfl)).trans rfl
  rw [hlexed]
  refine run_expr_of_operand (run_operand_of rfl ⟨_, _, rfl, rfl⟩ ?_) rfl
  exact run_trailers_of_atom hatom (.stop (run_trailer?_of_ends rfl))

end Conditions

end EntityTables.Syntax
