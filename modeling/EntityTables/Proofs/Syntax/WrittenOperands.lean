import EntityTables.Proofs.Syntax.WrittenTypes

/-!
# Operands that are read back

Operands as generated code writes them are recovered from their tokens. An operand grows with what
follows it directly, so a chain of calls and fields is read from its start, link by link, and an
expression is done where nothing goes on with it.
-/

namespace EntityTables.Syntax

open EntityTables.Syntax.Parser

/-! ### Where expressions end -/

/-- What may follow an expression: a comma, a semicolon, a block, or nothing. -/
def endsExpr : Input → Bool
  | [] => true
  | .leaf (.punct text _) :: _ => text == "," || text == ";"
  | .group .brace _ :: _ => true
  | _ => false

/-- The same where a block would be taken for fields. -/
def endsExprIn (struct : Bool) (input : Input) : Bool :=
  endsExpr input && !(struct && input.startsGroup .brace)

section Ends

variable {struct : Bool} {least : Precedence} {rest : Input} {left : Node}

theorem endsExpr_cases (hrest : endsExpr rest = true) :
    rest = [] ∨ (∃ joint more, rest = .leaf (.punct "," joint) :: more) ∨
      (∃ joint more, rest = .leaf (.punct ";" joint) :: more) ∨
        ∃ body more, rest = .group .brace body :: more := by
  unfold endsExpr at hrest
  split at hrest
  · exact .inl rfl
  · rcases Bool.or_eq_true_iff.mp hrest with htext | htext
    · exact .inr (.inl ⟨_, _, by rw [beq_iff_eq.mp htext]⟩)
    · exact .inr (.inr (.inl ⟨_, _, by rw [beq_iff_eq.mp htext]⟩))
  · exact .inr (.inr (.inr ⟨_, _, rfl⟩))
  · cases hrest

theorem run_operatorAfter?_of_ends (hrest : endsExpr rest = true) :
    (operatorAfter? reading struct least left).run rest = .ok (none, rest) := by
  refine run_get_bind.trans ?_
  cases left.is .rangeExpr with
  | true => rfl
  | false =>
      have hnone : binaryOperator? rest = none ∧ startsAssignment rest = false ∧
          rest.startsPunct ".." = false ∧ rest.startsWord "as" = false := by
        rcases endsExpr_cases hrest with rfl | ⟨joint, more, rfl⟩ | ⟨joint, more, rfl⟩ |
          ⟨body, more, rfl⟩
        all_goals exact ⟨rfl, rfl, rfl, rfl⟩
      obtain ⟨hoperator, hassign, hdots, hcast⟩ := hnone
      simp only [hoperator, hassign, hdots, hcast, Bool.and_false]
      rfl

theorem run_continuation_of_ends (hrest : endsExpr rest = true) :
    (reading (.continuation left struct least)).run rest = .ok (left, rest) := by
  rw [run_reading]
  exact run_grow (.stop (run_operatorAfter?_of_ends hrest))

theorem run_trailer?_of_ends (hrest : endsExpr rest = true) :
    (trailer? reading left).run rest = .ok (none, rest) := by
  rcases endsExpr_cases hrest with rfl | ⟨joint, more, rfl⟩ | ⟨joint, more, rfl⟩ |
    ⟨body, more, rfl⟩
  all_goals rfl

end Ends

/-! ### Operands -/

/-- How the tokens of an operand start. -/
inductive StartsOperand : Input → Prop
  | path {input : Input} (hstarts : StartsPath input) : StartsOperand input
  | tried (more : Input) :
      StartsOperand (.ident "try" :: .leaf (.punct ":" true) :: .punct ":" :: more)
  | constant (more : Input) : StartsOperand (.punct "<" :: more)
  | literal (text : String) (more : Input) : StartsOperand (.literal text :: more)
  | paren (body : List Node) (more : Input) : StartsOperand (.group .paren body :: more)
  | closure (more : Input) : StartsOperand (.punct "|" :: more)

/-- What may follow a path that is an operand: nothing that makes it more than a path. -/
def endsPathExpr (struct : Bool) (input : Input) : Bool :=
  endsPath input && !input.startsPunct "#" &&
    !((input.startsPunct "!" && !input.startsPunct "!=") || (struct && input.startsGroup .brace))

/-- What may follow any operand: no arguments either. -/
def endsOperand (struct : Bool) (input : Input) : Bool :=
  endsPathExpr struct input && !input.startsGroup .paren

/-- The kinds of phrases that are kept apart from operands. -/
def isOperandKind (kind : Kind) : Bool :=
  !(kind.isBlockLike || [Kind.rangeExpr, .verbatim, .attributes].contains kind)

/-- An operand without attributes of its own. -/
def IsOperandNode (expr : Node) : Prop :=
  ∃ kind parts, expr = bareExpr kind parts ∧ isOperandKind kind = true

theorem IsOperandNode.is_eq_false {expr : Node} (hexpr : IsOperandNode expr) {kind : Kind}
    (hkind : isOperandKind kind = false) : expr.is kind = false := by
  obtain ⟨own, parts, rfl, hown⟩ := hexpr
  refine Bool.eq_false_iff.mpr fun hsame => ?_
  obtain rfl : own = kind := by simpa [bareExpr, Node.is, Node.kind?] using hsame
  rw [hown] at hkind
  cases hkind

theorem IsOperandNode.isBlockLike_eq_false {expr : Node} (hexpr : IsOperandNode expr) :
    expr.isBlockLike = false := by
  obtain ⟨kind, parts, rfl, hkind⟩ := hexpr
  rw [isOperandKind, Bool.not_eq_true', Bool.or_eq_false_iff] at hkind
  exact hkind.1

/-- An operand that is read as it is written, with all that it grows to by what follows it. -/
structure ReadsOperand (expr : Node) : Prop where
  isOperand : IsOperandNode expr
  starts : StartsOperand expr.lexed
  steady : Steady expr
  grows : ∀ {struct : Bool} {rest : Input} {last : Node} {left : Input},
    endsOperand struct rest = true → Growth (trailer? reading) expr rest last left →
      (atom reading struct >>= withTrailers reading).run (expr.lexed ++ rest) = .ok (last, left)

section Operands

variable {struct : Bool} {rest left : Input} {expr last : Node}

theorem run_operandRule {input : Input} (hstarts : StartsOperand input) :
    (operandRule reading struct).run input =
      (attributedOperand reading struct input (.empty .attributes)).run input := by
  cases hstarts with
  | path hstarts => cases hstarts <;> rfl
  | tried more => rfl
  | constant more => rfl
  | literal text more => rfl
  | paren body more => rfl
  | closure more => rfl

/-- An operand whose sort is known from how its input starts. -/
theorem run_operand_of {input : Input} (hrule : (operandRule reading struct).run input =
      (attributedOperand reading struct input (.empty .attributes)).run input)
    (hlast : IsOperandNode last)
    (hrun : (atom reading struct >>= withTrailers reading).run input = .ok (last, rest)) :
    (reading (.operand struct)).run input = .ok (last, rest) := by
  rw [run_reading]
  refine hrule.trans ?_
  obtain ⟨first, middle, hatom, htrailers⟩ := run_bind_eq_ok.mp hrun
  refine (run_bind_of hatom).trans ((run_bind_of htrailers).trans ?_)
  rw [hlast.is_eq_false rfl]
  obtain ⟨kind, parts, rfl, -⟩ := hlast
  rfl

theorem run_operand {input : Input} (hstarts : StartsOperand input) (hlast : IsOperandNode last)
    (hrun : (atom reading struct >>= withTrailers reading).run input = .ok (last, rest)) :
    (reading (.operand struct)).run input = .ok (last, rest) :=
  run_operand_of (run_operandRule hstarts) hlast hrun

theorem StartsOperand.append {tokens : Input} (hstarts : StartsOperand tokens)
    (hrest : rest.startsPunct "#" = false) : StartsOperand (tokens ++ rest) := by
  cases hstarts with
  | path hstarts => exact .path (hstarts.append hrest)
  | tried more => exact .tried _
  | constant more => exact .constant _
  | literal text more => exact .literal text _
  | paren body more => exact .paren body _
  | closure more => exact .closure _

theorem StartsOperand.ne_nil {tokens : Input} (hstarts : StartsOperand tokens) : tokens ≠ [] := by
  cases hstarts with
  | path hstarts => cases hstarts <;> exact List.cons_ne_nil _ _
  | _ => exact List.cons_ne_nil _ _

theorem startsPunct_of_endsExpr (hrest : endsExpr rest = true) :
    rest.startsPunct "#" = false ∧ endsPath rest = true ∧ rest.startsPunct "!" = false ∧
      rest.startsGroup .paren = false := by
  rcases endsExpr_cases hrest with rfl | ⟨joint, more, rfl⟩ | ⟨joint, more, rfl⟩ |
    ⟨body, more, rfl⟩
  all_goals exact ⟨rfl, rfl, rfl, rfl⟩

theorem endsOperand_of_ends (hrest : endsExprIn struct rest = true) :
    endsOperand struct rest = true := by
  rw [endsExprIn, Bool.and_eq_true, Bool.not_eq_true'] at hrest
  obtain ⟨hnumber, hpath, hmark, hparen⟩ := startsPunct_of_endsExpr hrest.1
  rw [endsOperand, endsPathExpr, hnumber, hpath, hmark, hparen, hrest.2]
  rfl

/-- An operand that nothing goes on with is read alone. -/
theorem ReadsOperand.run_operand (hexpr : ReadsOperand expr)
    (hrest : endsExprIn struct rest = true) :
    (reading (.operand struct)).run (expr.lexed ++ rest) = .ok (expr, rest) := by
  have hends : endsExpr rest = true := (Bool.and_eq_true_iff.mp hrest).1
  have hstarts := hexpr.starts.append (startsPunct_of_endsExpr hends).1
  have hgrown := hexpr.grows (endsOperand_of_ends hrest) (.stop (run_trailer?_of_ends hends))
  exact Syntax.run_operand hstarts hexpr.isOperand hgrown

end Operands

/-! ### Whole expressions -/

/-- An expression that is read as it is written, and that is no block. -/
structure ReadsExpr (expr : Node) : Prop where
  nonempty : expr.lexed ≠ []
  steady : Steady expr
  notBlock : expr.isBlockLike = false
  recovers : Recovers (reading (.operand true)) (endsExprIn true) expr.lexed expr

section Whole

variable {struct : Bool} {rest : Input} {expr : Node}

/-- An operand is an expression where nothing goes on with it. -/
theorem run_expr_of_operand {input : Input}
    (hoperand : (reading (.operand struct)).run input = .ok (expr, rest))
    (hrest : endsExpr rest = true) : (reading (.expr struct)).run input = .ok (expr, rest) := by
  rw [run_reading]
  exact (run_bind_of hoperand).trans (run_continuation_of_ends hrest)

theorem ReadsExpr.run_expr (hexpr : ReadsExpr expr) (hrest : endsExprIn true rest = true) :
    (reading (.expr true)).run (expr.lexed ++ rest) = .ok (expr, rest) :=
  run_expr_of_operand (hexpr.recovers rest hrest) (Bool.and_eq_true_iff.mp hrest).1

theorem ReadsOperand.readsExpr (hexpr : ReadsOperand expr) : ReadsExpr expr where
  nonempty := hexpr.starts.ne_nil
  steady := hexpr.steady
  notBlock := hexpr.isOperand.isBlockLike_eq_false
  recovers _ hrest := hexpr.run_operand hrest

theorem endsExprIn_of_endsPart (hrest : endsPart rest = true) : endsExprIn struct rest = true := by
  rcases endsPart_cases hrest with rfl | ⟨joint, more, rfl⟩
  all_goals cases struct <;> rfl

theorem ReadsExpr.recoversPart (hexpr : ReadsExpr expr) :
    RecoversPart (one (reading (.expr true))) expr where
  nonempty := hexpr.nonempty
  recovers _ hrest := run_one_eq_ok.mpr
    ⟨expr, rfl, hexpr.run_expr (endsExprIn_of_endsPart hrest)⟩

end Whole

/-! ### Atoms -/

section Atoms

variable {struct : Bool} {rest left tokens : Input} {expr last path type trait : Node} {name : String}

theorem run_trailers_of_atom (hatom : (atom reading struct).run tokens = .ok (expr, rest))
    (hgrowth : Growth (trailer? reading) expr rest last left) :
    (atom reading struct >>= withTrailers reading).run tokens = .ok (last, left) :=
  (run_bind_of hatom).trans (run_grow hgrowth)

theorem readsOperand_literal (text : String) : ReadsOperand (literalExprOf text) := by
  have hlexed : (literalExprOf text).lexed = [.literal text] := by
    simp [literalExprOf, bareExpr, Kind.isOpen]
  refine ⟨⟨_, _, rfl, rfl⟩, hlexed ▸ .literal text [],
    steady_bareExpr rfl rfl (by simp [Node.literal, Node.is, Node.kind?]) (.inr rfl),
    fun hrest hgrowth => ?_⟩
  rw [hlexed]
  exact run_trailers_of_atom rfl hgrowth

theorem run_atom_path {input : Input} (hstarts : StartsPath input) :
    (atom reading struct).run input = (pathLikeExpr reading struct).run input := by
  have hliteral : input.startsLiteralToken = false ∧ input.startsPunct "|" = false ∧
      input.next.startsPunct "#" = false := by
    cases hstarts with
    | word hname hmore => exact ⟨rfl, rfl, hmore⟩
    | root more => exact ⟨rfl, rfl, rfl⟩
  have hpath : (input.startsPathWord || input.startsAnyPunct ["::", "<"]) = true := by
    cases hstarts with
    | @word name more hname hmore =>
        have hword : Input.startsPathWord (.ident name :: more) = true := hname
        rw [hword, Bool.true_or]
    | root more => rfl
  have htruth : input.startsOneOf ["true", "false"] = false :=
    hstarts.startsOneOf_eq_false (by decide)
  have hmove : input.startsOneOf ["move", "static"] = false :=
    hstarts.startsOneOf_eq_false (by decide)
  have hasync : input.startsWord "async" = false := hstarts.startsWord_eq_false (by decide)
  have htry : input.startsWord "try" = false := hstarts.startsWord_eq_false (by decide)
  have hfor : input.startsWord "for" = false := hstarts.startsWord_eq_false (by decide)
  have hconst : input.startsWord "const" = false := hstarts.startsWord_eq_false (by decide)
  refine run_get_bind.trans ?_
  simp only [startsAsyncBlock, startsClosure, startsForLifetimes, startsPathExpr, hliteral.1,
    hliteral.2.1, hliteral.2.2, hpath, htruth, hmove, hasync, htry, hfor, hconst, Bool.false_and,
    Bool.and_false, Bool.or_false, Bool.false_eq_true, if_false, if_true]

theorem run_pathLikeExpr (hpath : (anyPath reading true).run tokens = .ok (path, rest))
    (hrest : endsPathExpr struct rest = true) :
    (pathLikeExpr reading struct).run tokens = .ok (pathExprOf path, rest) := by
  rw [endsPathExpr, Bool.and_eq_true, Bool.not_eq_true', Bool.or_eq_false_iff] at hrest
  refine (run_bind_of hpath).trans (run_get_bind.trans ?_)
  rw [hrest.2.1, hrest.2.2]
  rfl

theorem run_atom_pathExpr (hpath : ReadsPath true path) (hrest : endsPathExpr struct rest = true) :
    (atom reading struct).run (path.lexed ++ rest) = .ok (pathExpr path, rest) := by
  obtain ⟨hends, hnumber⟩ := Bool.and_eq_true_iff.mp (Bool.and_eq_true_iff.mp hrest).1
  have hstarts := hpath.starts.append (Bool.not_eq_true' _ ▸ hnumber)
  have hplain : (anyPath reading true).run (path.lexed ++ rest) = .ok (path, rest) := by
    refine (run_bind_of (run_peek _)).trans ?_
    rw [hstarts.startsPunct_eq_false]
    exact hpath.recovers rest hends
  have hsame : pathExprOf path = pathExpr path := by
    obtain ⟨parts, rfl⟩ := hpath.isPath
    rfl
  exact (run_atom_path hstarts).trans (hsame ▸ run_pathLikeExpr hplain hrest)

theorem lexed_pathExpr (path : Node) : (pathExpr path).lexed = path.lexed := by
  simp [pathExpr, Kind.isOpen]

theorem readsOperand_pathExpr (hpath : ReadsPath true path) : ReadsOperand (pathExpr path) := by
  have hplain : path.is .attributes = false := by
    obtain ⟨parts, rfl⟩ := hpath.isPath
    rfl
  refine ⟨⟨_, _, rfl, rfl⟩, lexed_pathExpr path ▸ .path hpath.starts,
    steady_bareExpr rfl rfl (List.forall_mem_singleton.mpr hplain) (.inr rfl),
    fun hrest hgrowth => ?_⟩
  rw [lexed_pathExpr]
  exact run_trailers_of_atom (run_atom_pathExpr hpath (Bool.and_eq_true_iff.mp hrest).1) hgrowth

theorem readsOperand_nameExpr (hname : isPathWord name = true) : ReadsOperand (nameExpr name) :=
  readsOperand_pathExpr (readsPath_name hname)

/-- The tokens of a name that a trait gives to a type. -/
def constantTokens (type trait : Node) (name : String) (rest : Input) : Input :=
  .punct "<" :: (type.lexed ++ .ident "as" :: (trait.lexed ++
    .punct ">" :: .leaf (.punct ":" true) :: .punct ":" :: .ident name :: rest))

theorem run_qualifiedPath (htype : ReadsPath false type) (htrait : ReadsPath false trait)
    (hname : isName name = true) (hrest : endsPath rest = true) :
    (qualifiedPath reading true).run (constantTokens type trait name rest) =
      .ok (.phrase .qualifiedPath [.punct "<", pathType type, .ident "as", trait, .punct ">",
        .punct "::", segmentOf name], rest) := by
  have hlexed : (pathType type).lexed = type.lexed := by simp [pathType, Kind.isOpen]
  have hself : ∀ rest, endsType rest = true →
      (reading (.type true)).run (type.lexed ++ rest) = .ok (pathType type, rest) :=
    hlexed ▸ recovers_pathType htype
  obtain ⟨hangle, -, hcolons⟩ := startsPunct_of_endsPath hrest
  have hword : isSegmentWord name = true := by rw [isSegmentWord, hname, Bool.true_or]
  have hends : endsSegment rest = true := by
    rw [endsSegment, hangle, hcolons]
    rfl
  refine (run_bind_to (Node.punct "<") rfl).trans ((run_bind_of (hself _ rfl)).trans ?_)
  have htraitOf : (orNothing (·.startsWord "as") do
      let keyword ← word "as"
      return [keyword, ← path reading false]).run (.ident "as" :: (trait.lexed ++
        .punct ">" :: .leaf (.punct ":" true) :: .punct ":" :: .ident name :: rest)) =
      .ok ([.ident "as", trait],
        .punct ">" :: .leaf (.punct ":" true) :: .punct ":" :: .ident name :: rest) := by
    refine (run_orNothing_of_true rfl).trans ((run_bind_to (.ident "as") rfl).trans ?_)
    exact (run_bind_of (htrait.recovers _ rfl)).trans rfl
  refine (run_bind_of htraitOf).trans ((run_bind_to (Node.punct ">") rfl).trans ?_)
  refine (run_bind_to (Node.punct "::") rfl).trans ?_
  refine (run_bind_of (run_segment_plain hword hends)).trans ?_
  exact (run_bind_of (run_many_of_eq_false hcolons)).trans rfl

theorem readsOperand_traitConstant (htype : ReadsPath false type) (htrait : ReadsPath false trait)
    (hname : isName name = true) : ReadsOperand (traitConstant (pathType type) trait name) := by
  have hlexed : ∀ rest, (traitConstant (pathType type) trait name).lexed ++ rest =
      constantTokens type trait name rest := fun rest => by
    simp [traitConstant, constantTokens, pathType, segmentOf, Kind.isOpen]
  have hstarts := (List.append_nil _).symm.trans (hlexed [])
  refine ⟨⟨_, _, rfl, rfl⟩, hstarts ▸ .constant _,
    steady_bareExpr rfl rfl (List.forall_mem_singleton.mpr rfl) (.inr rfl),
    fun {struct rest _ _} hrest hgrowth => ?_⟩
  have hrest := (Bool.and_eq_true_iff.mp hrest).1
  have hends := (Bool.and_eq_true_iff.mp (Bool.and_eq_true_iff.mp hrest).1).1
  have hpath : (anyPath reading true).run (constantTokens type trait name rest) = .ok
      (.phrase .qualifiedPath [.punct "<", pathType type, .ident "as", trait, .punct ">",
        .punct "::", segmentOf name], rest) :=
    (run_bind_of (run_peek _)).trans (run_qualifiedPath htype htrait hname hends)
  have hatom : (atom reading struct).run (constantTokens type trait name rest) =
      (pathLikeExpr reading struct).run (constantTokens type trait name rest) := rfl
  rw [hlexed]
  exact run_trailers_of_atom (hatom.trans (run_pathLikeExpr hpath hrest)) hgrowth

end Atoms

/-! ### Links of a chain -/

section Links

variable {rest : Input} {base function typeArguments expr : Node} {arguments : List Node}
  {name : String}

theorem run_callArguments (harguments : ∀ argument ∈ arguments, ReadsExpr argument) (rest : Input) :
    (callArguments reading).run
        (.group .paren (Node.lexedAll (commaSeparated arguments)) :: rest) =
      .ok (parens (commaSeparated arguments), rest) :=
  run_group_eq_ok.mpr ⟨_, _, rfl,
    run_commaList fun argument hmem => (harguments argument hmem).recoversPart, rfl⟩

theorem lexed_callOf (function : Node) (arguments : List Node) :
    (callOf function arguments).lexed =
      function.lexed ++ [.group .paren (Node.lexedAll (commaSeparated arguments))] := by
  simp [callOf, bareExpr, parens, lexed_pathExpr, Kind.isOpen]

theorem readsOperand_callOf (hfunction : ReadsPath true function)
    (harguments : ∀ argument ∈ arguments, ReadsExpr argument) :
    ReadsOperand (callOf function arguments) := by
  have hstarts : StartsOperand (callOf function arguments).lexed := by
    rw [lexed_callOf]
    exact .path (hfunction.starts.append rfl)
  have hsteady : Steady (callOf function arguments) :=
    steady_bareExpr rfl rfl (by simp [pathExpr, parens, Node.is, Node.kind?])
      (.inl (readsOperand_pathExpr hfunction).steady)
  refine ⟨⟨_, _, rfl, rfl⟩, hstarts, hsteady,
    fun {struct rest last left} hrest hgrowth => ?_⟩
  have hatom : (atom reading struct).run (function.lexed ++
      .group .paren (Node.lexedAll (commaSeparated arguments)) :: rest) =
        .ok (pathExpr function,
          .group .paren (Node.lexedAll (commaSeparated arguments)) :: rest) :=
    run_atom_pathExpr hfunction (by cases struct <;> rfl)
  have hrule : (trailer? reading (pathExpr function)).run
      (.group .paren (Node.lexedAll (commaSeparated arguments)) :: rest) =
        (do return some (bareExpr .callExpr [pathExpr function, ← callArguments reading]) :
          Parser (Option Node)).run
            (.group .paren (Node.lexedAll (commaSeparated arguments)) :: rest) := rfl
  have hstep := hrule.trans (run_bind_of (run_callArguments harguments rest))
  rw [lexed_callOf, List.append_assoc]
  exact run_trailers_of_atom hatom (.round hstep (Nat.lt_succ_self _) hgrowth)

/-- An operand grows by a link, which is read wherever an operand may end after it. -/
theorem ReadsOperand.link (hbase : ReadsOperand base) (link : Input) (hne : link ≠ [])
    (hends : ∀ struct rest, endsOperand struct (link ++ rest) = true)
    (hlexed : expr.lexed = base.lexed ++ link) (hsteady : Steady expr)
    (hexpr : IsOperandNode expr)
    (hstep : ∀ struct rest, endsOperand struct rest = true →
      (trailer? reading base).run (link ++ rest) = .ok (some expr, rest)) :
    ReadsOperand expr := by
  refine ⟨hexpr, ?_, hsteady, fun {struct rest last left} hrest hgrowth => ?_⟩
  · have hnumber := (Bool.and_eq_true_iff.mp (Bool.and_eq_true_iff.mp
      (Bool.and_eq_true_iff.mp (hends true [])).1).1).2
    rw [List.append_nil, Bool.not_eq_true'] at hnumber
    rw [hlexed]
    exact hbase.starts.append hnumber
  · rw [hlexed, List.append_assoc]
    exact hbase.grows (hends struct rest)
      (.round (hstep struct rest hrest) (length_lt_of_ne_nil hne) hgrowth)

/-- A chain begins with its base, so its tokens are the same wherever those of the base are. -/
theorem ReadsOperand.steady_link (hbase : ReadsOperand base) {kind : Kind}
    (hkind : kind.isOpen = true) (hblock : kind.isBlockLike = false) {more : List Node}
    (hmore : ∀ part ∈ more, part.is .attributes = false) : Steady (bareExpr kind (base :: more)) :=
  steady_bareExpr hkind hblock
    (List.forall_mem_cons.mpr ⟨hbase.isOperand.is_eq_false rfl, hmore⟩) (.inl hbase.steady)

theorem readsOperand_tried (hbase : ReadsOperand base) : ReadsOperand (tried base) := by
  refine hbase.link [.punct "?"] (List.cons_ne_nil _ _) (fun struct rest => ?_) ?_ ?_
    ⟨_, _, rfl, rfl⟩ fun struct rest hrest => ?_
  · cases struct <;> rfl
  · simp [tried, bareExpr, Kind.isOpen]
  · exact hbase.steady_link rfl rfl (by simp [Node.punct, Node.is, Node.kind?])
  · refine run_get_bind.trans ?_
    rw [hbase.isOperand.is_eq_false rfl]
    rfl

/-- What is read for a member after its name. -/
def memberNamed (base : Node) (name : String) : Parser Node := do
  let turbofish ← if (← peek (·.startsPunct "::")) then genericArgs reading
    else pure (.empty .genericArgs)
  if !turbofish.parts.isEmpty || (← peek (·.startsGroup .paren)) then
    return bareExpr .methodCallExpr
      [base, .punct ".", .ident name, turbofish, ← callArguments reading]
  return fieldOf base name

/-- A member follows a dot; its name is no keyword that may follow one. -/
theorem run_trailer?_dot (hbase : ReadsOperand base) (hname : isName name = true) {member : Node}
    {tokens : Input} (hrun : (memberNamed base name).run tokens = .ok (member, rest)) :
    (trailer? reading base).run (.punct "." :: .ident name :: tokens) = .ok (some member, rest) := by
  have hawait : Input.startsWord (.ident name :: tokens) "await" = false :=
    startsWord_of_isName hname (by decide)
  have hmember : (memberAfter reading base).run (.punct "." :: .ident name :: tokens) =
      .ok (member, rest) := by
    refine (run_bind_to (.punct ".") rfl).trans ((run_bind_of (run_peek _)).trans ?_)
    change StateT.run (if Input.startsWord (.ident name :: tokens) "await" = true then _ else _) _ = _
    rw [hawait]
    exact run_get_bind.trans ((run_bind_of (run_name hname)).trans hrun)
  refine run_get_bind.trans ?_
  rw [hbase.isOperand.is_eq_false rfl]
  exact (run_bind_of hmember).trans rfl

theorem readsOperand_fieldOf (hbase : ReadsOperand base) (hname : isName name = true) :
    ReadsOperand (fieldOf base name) := by
  refine hbase.link [.punct ".", .ident name] (List.cons_ne_nil _ _) (fun struct rest => ?_) ?_ ?_
    ⟨_, _, rfl, rfl⟩ fun struct rest hrest => ?_
  · cases struct <;> rfl
  · simp [fieldOf, bareExpr, Kind.isOpen]
  · exact hbase.steady_link rfl rfl (by simp [Node.punct, Node.ident, Node.is, Node.kind?])
  · rw [endsOperand, Bool.and_eq_true, Bool.not_eq_true'] at hrest
    have hends := (Bool.and_eq_true_iff.mp (Bool.and_eq_true_iff.mp hrest.1).1).1
    have hmember : (memberNamed base name).run rest = .ok (fieldOf base name, rest) := by
      refine (run_bind_of (run_peek _)).trans ?_
      rw [(startsPunct_of_endsPath hends).2.2]
      refine (run_bind_to (.empty .genericArgs) rfl).trans ((run_bind_of (run_peek _)).trans ?_)
      rw [hrest.2]
      rfl
    exact run_trailer?_dot hbase hname hmember

theorem run_memberNamed (harguments : ∀ argument ∈ arguments, ReadsExpr argument)
    (htypes : typeArguments = .empty .genericArgs ∨
      ∃ type, typeArguments = turbofish type ∧ ReadsType type) (rest : Input) :
    (memberNamed base name).run (typeArguments.lexed ++
        .group .paren (Node.lexedAll (commaSeparated arguments)) :: rest) =
      .ok (methodCallWith typeArguments base name arguments, rest) := by
  have harguments := run_callArguments harguments rest
  rcases htypes with rfl | ⟨type, rfl, htype⟩
  · have hrule : (memberNamed base name).run
        (.group .paren (Node.lexedAll (commaSeparated arguments)) :: rest) =
          (do return bareExpr .methodCallExpr [base, .punct ".", .ident name, .empty .genericArgs,
            ← callArguments reading] : Parser Node).run
              (.group .paren (Node.lexedAll (commaSeparated arguments)) :: rest) := rfl
    exact hrule.trans ((run_bind_of harguments).trans rfl)
  · have hlexed : (turbofish type).lexed ++
        .group .paren (Node.lexedAll (commaSeparated arguments)) :: rest =
          .leaf (.punct ":" true) :: .punct ":" :: .punct "<" :: (type.lexed ++
            .punct ">" :: .group .paren (Node.lexedAll (commaSeparated arguments)) :: rest) := by
      simp [turbofish, Kind.isOpen]
    have hrounds := ArgumentRounds.only (htype (.punct ">" ::
      .group .paren (Node.lexedAll (commaSeparated arguments)) :: rest) rfl) rfl
    rw [hlexed]
    refine (run_bind_to true rfl).trans ((run_bind_of (run_genericArgs_turbofish hrounds)).trans ?_)
    refine (run_bind_of (run_peek _)).trans ((run_bind_of harguments).trans rfl)

theorem lexed_methodCallWith (typeArguments base : Node) (name : String) (arguments : List Node) :
    (methodCallWith typeArguments base name arguments).lexed = base.lexed ++
      .punct "." :: .ident name :: (typeArguments.lexed ++
        [.group .paren (Node.lexedAll (commaSeparated arguments))]) := by
  simp [methodCallWith, bareExpr, parens, Kind.isOpen]

theorem readsOperand_methodCallWith (hbase : ReadsOperand base) (hname : isName name = true)
    (harguments : ∀ argument ∈ arguments, ReadsExpr argument)
    (htypes : typeArguments = .empty .genericArgs ∨
      ∃ type, typeArguments = turbofish type ∧ ReadsType type) :
    ReadsOperand (methodCallWith typeArguments base name arguments) := by
  refine hbase.link (.punct "." :: .ident name :: (typeArguments.lexed ++
      [.group .paren (Node.lexedAll (commaSeparated arguments))])) (List.cons_ne_nil _ _)
    (fun struct rest => ?_) (lexed_methodCallWith _ _ _ _) ?_ ⟨_, _, rfl, rfl⟩
    fun struct rest hrest => ?_
  · cases struct <;> rfl
  · have htypes : typeArguments.is .attributes = false := by
      rcases htypes with rfl | ⟨type, rfl, -⟩ <;> rfl
    refine hbase.steady_link rfl rfl (List.forall_mem_cons.mpr ⟨rfl, List.forall_mem_cons.mpr ⟨rfl,
      List.forall_mem_cons.mpr ⟨htypes, List.forall_mem_singleton.mpr rfl⟩⟩⟩)
  · rw [List.cons_append, List.cons_append, List.append_assoc]
    exact run_trailer?_dot hbase hname (run_memberNamed harguments htypes rest)

end Links

end EntityTables.Syntax
