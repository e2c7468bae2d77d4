import EntityTables.Proofs.Syntax.WrittenStatements

/-!
# Members that are read back

Signatures and the members of traits and implementations as generated code writes them. A member is
read as one of the same kind with the same signature; only its attributes and its body may be read
as trees of another form.
-/

namespace EntityTables.Syntax

open EntityTables.Syntax.Parser

/-! ### Inputs -/

/-- An input of a function that is read as it is written. -/
structure ReadsInput (input : Node) : Prop where
  isInput : input.is .receiver = true ∨ input.is .param = true
  recovers : RecoversPart (one (functionParam reading)) input

section Inputs

variable {name : String} {type : Node} {rest : Input}

theorem recoversPart_of_recovers {parser : Parser Node} {node : Node} (hne : node.lexed ≠ [])
    (hnode : Recovers parser endsPart node.lexed node) : RecoversPart (one parser) node :=
  ⟨hne, fun rest hrest => run_one_eq_ok.mpr ⟨node, rfl, hnode rest hrest⟩⟩

theorem closes_of_endsPart (hrest : endsPart rest = true) : closes rest = true := by
  rw [closes, ← endsPart, hrest, Bool.true_or]

theorem readsInput_selfByValue : ReadsInput selfByValue := by
  refine ⟨.inl rfl, recoversPart_of_recovers (List.cons_ne_nil _ _) fun rest hrest => ?_⟩
  rcases endsPart_cases hrest with rfl | ⟨joint, more, rfl⟩ <;> rfl

theorem readsInput_selfByReference : ReadsInput selfByReference :=
  ⟨.inl rfl, recoversPart_of_recovers (List.cons_ne_nil _ _) fun _ _ => rfl⟩

theorem readsInput_selfByMutable : ReadsInput selfByMutable :=
  ⟨.inl rfl, recoversPart_of_recovers (List.cons_ne_nil _ _) fun _ _ => rfl⟩

/-- A parameter with a name, perhaps one that may change. -/
theorem readsInput_param {mutability : List Node} (hname : isName name = true)
    (hmutability : mutability = [] ∨ mutability = [.ident "mut"]) (htype : ReadsType type) :
    ReadsInput (.phrase .param [.empty .attributes, .phrase .identPat (mutability ++ [.ident name]),
      .punct ":", type]) := by
  have hlexed : ∀ rest, (Node.phrase .param [.empty .attributes,
      .phrase .identPat (mutability ++ [.ident name]), .punct ":", type]).lexed ++ rest =
        mutability ++ .ident name :: .punct ":" :: (type.lexed ++ rest) := fun rest => by
    rcases hmutability with rfl | rfl <;> simp [Kind.isOpen]
  refine ⟨.inr rfl, recoversPart_of_recovers ?_ fun rest hrest => ?_⟩
  · rw [← List.append_nil (Node.lexed _), hlexed]
    exact List.append_ne_nil_of_right_ne_nil _ (List.cons_ne_nil _ _)
  have hself : Input.startsWord (.ident name :: .punct ":" :: (type.lexed ++ rest)) "self" = false :=
    startsWord_of_isName hname (by decide)
  have hmut : Input.startsWord (.ident name :: .punct ":" :: (type.lexed ++ rest)) "mut" = false :=
    startsWord_of_isName hname (by decide)
  have hattributes : (outerAttributes reading).run
      (mutability ++ .ident name :: .punct ":" :: (type.lexed ++ rest)) =
        .ok (.empty .attributes, mutability ++ .ident name :: .punct ":" :: (type.lexed ++ rest)) := by
    rcases hmutability with rfl | rfl <;> exact run_outerAttributes_none rfl
  have hreceiver : (attempt (receiver reading (.empty .attributes))).run
      (mutability ++ .ident name :: .punct ":" :: (type.lexed ++ rest)) =
        .ok (none, mutability ++ .ident name :: .punct ":" :: (type.lexed ++ rest)) := by
    have hword : ((word "self").run (.ident name :: .punct ":" :: (type.lexed ++ rest))) =
        .error .unexpected := by
      refine (run_bind_of (run_peek _)).trans ?_
      rw [hself]
      rfl
    have hmutable : (word? "mut").run
        (mutability ++ .ident name :: .punct ":" :: (type.lexed ++ rest)) =
          .ok (mutability, .ident name :: .punct ":" :: (type.lexed ++ rest)) := by
      rcases hmutability with rfl | rfl
      · exact run_orNothing_of hmut
      · rfl
    refine @run_attempt_of_error _ _ _ .unexpected ?_
    refine (run_bind_to [] ?_).trans ((run_bind_of hmutable).trans ?_)
    · rcases hmutability with rfl | rfl <;> rfl
    · rw [StateT.run_bind, hword]
      rfl
  have hpattern : (reading .pattern).run
      (mutability ++ .ident name :: .punct ":" :: (type.lexed ++ rest)) =
        .ok (.phrase .identPat (mutability ++ [.ident name]),
          .punct ":" :: (type.lexed ++ rest)) := by
    rcases hmutability with rfl | rfl
    · exact run_pattern_name hname rfl
    · exact run_pattern_mut hname rfl
  have htype := htype rest (closes_of_endsPart hrest)
  rw [hlexed]
  refine (run_bind_of hattributes).trans ((run_bind_of (run_peek _)).trans ?_)
  have hdots : Input.startsPunct (mutability ++ .ident name :: .punct ":" :: (type.lexed ++ rest))
      "..." = false := by
    rcases hmutability with rfl | rfl <;> rfl
  rw [hdots]
  refine (run_bind_of hreceiver).trans ((run_bind_of (run_peek _)).trans ?_)
  have hgeneric : (Input.startsName (mutability ++ .ident name :: .punct ":" :: (type.lexed ++ rest)) &&
      (Input.next (mutability ++ .ident name :: .punct ":" :: (type.lexed ++ rest))).startsPunct "<") =
        false := by
    rcases hmutability with rfl | rfl <;> exact Bool.and_false _
  rw [hgeneric]
  refine (run_bind_of hpattern).trans ((run_bind_of (run_punct_single (by decide) _)).trans ?_)
  refine (run_bind_of (run_peek _)).trans ?_
  have hvariable : Input.startsPunct (type.lexed ++ rest) "..." = false :=
    startsPunct_of_first (by decide : "...".toList = ['.', '.', '.']) (startsType_of_run htype).noDots
  rw [hvariable]
  exact (run_bind_of htype).trans rfl

theorem readsInput_inputOf (hname : isName name = true) (htype : ReadsType type) :
    ReadsInput (Signature.inputOf name type) := readsInput_param hname (.inl rfl) htype

end Inputs

/-! ### Signatures -/

/-- The result of a function is read as it is written, in front of the body. -/
def ReadsOutput (output : Node) : Prop :=
  Recovers (returnType reading true) (·.startsGroup .brace) output.lexed output

section Signatures

variable {type : Node} {signature : Signature} {rest : Input}

theorem readsOutput_none : ReadsOutput (.empty .returnType) := by
  intro rest hrest
  obtain ⟨body, more, rfl⟩ := startsGroup_cons hrest
  exact (run_bind_of (run_orNothing_of rfl)).trans rfl

theorem readsOutput_outputOf (htype : Recovers (reading (.type true)) endsType type.lexed type) :
    ReadsOutput (Signature.outputOf type) := by
  intro rest hrest
  have hlexed : (Signature.outputOf type).lexed ++ rest =
      .leaf (.punct "-" true) :: .punct ">" :: (type.lexed ++ rest) := by
    simp [Signature.outputOf, Kind.isOpen]
  have hends : endsType rest = true := by
    obtain ⟨body, more, rfl⟩ := startsGroup_cons hrest
    rfl
  rw [hlexed]
  refine (run_bind_to [.punct "->", type] ?_).trans rfl
  refine (run_orNothing_of_true rfl).trans ((run_bind_to (.punct "->") rfl).trans ?_)
  exact (run_bind_of (htype rest hends)).trans rfl

/-- A signature that is read as it is written, in front of a body. -/
structure ReadsSignature (signature : Signature) : Prop where
  isName : isName signature.name = true
  inputs : ∀ input ∈ signature.inputs, ReadsInput input
  receivers : (signature.inputs.drop 1).all fun input => !input.is .receiver
  output : ReadsOutput signature.output

theorem ReadsInput.isPunct_eq_false {input : Node} (hinput : ReadsInput input) :
    input.isPunct "," = false := by
  cases input with
  | leaf token => rcases hinput.isInput with hkind | hkind <;> cases hkind
  | group delimiter body => rfl
  | phrase kind parts => rfl

theorem ReadsInput.is_restPat_eq_false {input : Node} (hinput : ReadsInput input) :
    input.is .restPat = false := by
  rcases hinput.isInput with hkind | hkind
  all_goals
    rw [Node.is, beq_iff_eq] at hkind
    rw [Node.is, hkind]
    rfl

theorem lexed_toNode : signature.toNode.lexed = .ident "fn" :: .ident signature.name ::
    .group .paren (Node.lexedAll (commaSeparated signature.inputs)) :: signature.output.lexed := by
  simp [Signature.toNode, parens, Kind.isOpen]

/-- The inputs of a signature in their parentheses: receivers come first. -/
theorem run_functionParams (hinputs : ∀ input ∈ signature.inputs, ReadsInput input)
    (hreceivers : (signature.inputs.drop 1).all fun input => !input.is .receiver) (rest : Input) :
    (Parser.group .paren (functionParams reading)).run
        (.group .paren (Node.lexedAll (commaSeparated signature.inputs)) :: rest) =
      .ok (parens (commaSeparated signature.inputs), rest) := by
  have horder : isParamOrder signature.inputs = true := by
    have hrests : signature.inputs.dropLast.any (Node.is .restPat) = false :=
      List.any_eq_false.mpr fun input hmem => by
        rw [(hinputs input ((List.dropLast_subset _) hmem)).is_restPat_eq_false]
        exact Bool.false_ne_true
    have hselves : (signature.inputs.drop 1).any (Node.is .receiver) = false := by
      rw [List.any_eq_false]
      intro input hmem
      have hinput := List.all_eq_true.mp hreceivers input hmem
      rwa [Bool.not_eq_true', ← Bool.not_eq_true] at hinput
    rw [isParamOrder, hselves, hrests]
    rfl
  refine run_group_eq_ok.mpr ⟨_, _, rfl, ?_, rfl⟩
  refine (run_bind_of (run_commaList fun input hmem => (hinputs input hmem).recovers)).trans ?_
  have hfilter : (commaSeparated signature.inputs).filter (!Node.isPunct "," ·) =
      signature.inputs := filter_commaSeparated rfl fun input hmem => by
    rw [(hinputs input hmem).isPunct_eq_false]
    rfl
  rw [hfilter, horder]
  rfl

theorem ReadsSignature.run (hsignature : ReadsSignature signature)
    (hrest : rest.startsGroup .brace = true) :
    (Syntax.signature reading false).run (signature.toNode.lexed ++ rest) =
      .ok (signature.toNode, rest) := by
  obtain ⟨hname, hinputs, hreceivers, houtput⟩ := hsignature
  have hwhere : (whereClause reading).run rest = .ok (.empty .whereClause, rest) := by
    obtain ⟨body, more, rfl⟩ := startsGroup_cons hrest
    rfl
  rw [lexed_toNode]
  refine (run_bind_to (.empty .qualifiers) rfl).trans ((run_bind_to (.ident "fn") rfl).trans ?_)
  refine (run_bind_of (run_name hname)).trans ((run_bind_to (.empty .generics) rfl).trans ?_)
  refine (run_bind_of (run_functionParams hinputs hreceivers _)).trans ?_
  exact (run_bind_of (houtput rest hrest)).trans ((run_bind_of hwhere).trans rfl)

end Signatures

/-! ### Fronts -/

section Fronts

variable {attributes read : List Node} {visibility : Node} {word : String} {more : Input}

/-- The visibilities that are written: for everyone, or none. -/
def IsWrittenVisibility (visibility : Node) : Prop :=
  visibility = publicly ∨ visibility = .empty .visibility

theorem run_visibility (hvisibility : IsWrittenVisibility visibility) (hword : word ≠ "pub") :
    Syntax.visibility.run (visibility.lexed ++ .ident word :: more) =
      .ok (visibility, .ident word :: more) := by
  rcases hvisibility with rfl | rfl
  · rfl
  · have hpub : Input.startsWord (.ident word :: more) "pub" = false := beq_eq_false_iff_ne.mpr hword
    refine (run_bind_of (run_peek _)).trans ?_
    change (if (!Input.startsWord (.ident word :: more) "pub") = true then _ else _ :
      Parser Node).run (.ident word :: more) = _
    rw [hpub]
    rfl

/-- What stands in front of an item or a member, read up to the word that tells its sort. -/
theorem run_itemFront (hattributes : List.Forall₂ ReadsAttribute attributes read)
    (hvisibility : IsWrittenVisibility visibility) (hword : word ≠ "pub") :
    (itemFront reading).run
        (Node.lexedAll attributes ++ (visibility.lexed ++ .ident word :: more)) =
      .ok (⟨Node.lexedAll attributes ++ (visibility.lexed ++ .ident word :: more),
        .phrase .attributes read, visibility⟩, .ident word :: more) := by
  have hnumber : Input.startsPunct (visibility.lexed ++ .ident word :: more) "#" = false := by
    rcases hvisibility with rfl | rfl <;> rfl
  refine run_get_bind.trans ((run_bind_of (run_outerAttributes hattributes hnumber)).trans ?_)
  exact (run_bind_of (run_visibility hvisibility hword)).trans rfl

/-- Attributes of what encloses an item are not taken for those of the item. -/
theorem startsInnerAttribute_front (hattributes : List.Forall₂ ReadsAttribute attributes read)
    (hvisibility : IsWrittenVisibility visibility) : startsInnerAttribute
      (Node.lexedAll attributes ++ (visibility.lexed ++ .ident word :: more)) = false := by
  cases hattributes with
  | nil => rcases hvisibility with rfl | rfl <;> rfl
  | cons hfirst hrest =>
      obtain ⟨body, hlexed⟩ := hfirst.starts
      rw [lexedAll_cons, hlexed]
      rfl

end Fronts

/-! ### Members of implementations -/

/-- How a member is read: a function as one with the same signature, and a constant as it is. -/
inductive MemberForm : Node → Node → Prop
  | function {attributes read : List Node} (hattributes : List.Forall₂ ReadsAttribute attributes read)
      (visibility : Node) (signature : Signature) {body inside : List Node}
      (hbody : ∀ node ∈ body, node.is .attributes = false)
      (hinside : ∀ node ∈ inside, node.is .attributes = false) :
      MemberForm (memberFunction attributes visibility signature body)
        (.phrase .implFn [.phrase .attributes read, visibility, .empty .qualifiers,
          signature.toNode, braces inside])
  | constant (name : String) (type value : Node) :
      MemberForm (memberConstant name type value) (memberConstant name type value)

/-- A member that is read, wherever an implementation goes on after it. -/
structure ReadsMember (member : Node) : Prop where
  nonempty : member.lexed ≠ []
  starts : ∀ rest, startsInnerAttribute (member.lexed ++ rest) = false
  recovers : ∃ read, MemberForm member read ∧
    ∀ rest, (implMember reading).run (member.lexed ++ rest) = .ok (read, rest)

section Members

variable {attributes read : List Node} {visibility type value : Node} {signature : Signature}
  {body : List Node} {name : String}

theorem lexed_memberFunction (attributes : List Node) (visibility : Node) (signature : Signature)
    (body : List Node) (rest : Input) :
    (memberFunction attributes visibility signature body).lexed ++ rest =
      Node.lexedAll attributes ++ (visibility.lexed ++
        (signature.toNode.lexed ++ .group .brace (Node.lexedAll body) :: rest)) := by
  simp [memberFunction, braces, Kind.isOpen]

theorem readsMember_function (hattributes : List.Forall₂ ReadsAttribute attributes read)
    (hvisibility : IsWrittenVisibility visibility) (hsignature : ReadsSignature signature)
    (hbody : ReadsBody body) :
    ReadsMember (memberFunction attributes visibility signature body) := by
  obtain ⟨inside, hinside, hplain⟩ := hbody.run_attributedBlock
  refine ⟨?_, fun rest => ?_, _, .function hattributes visibility signature hbody.plain hplain,
    fun rest => ?_⟩
  · rw [← List.append_nil (Node.lexed _), lexed_memberFunction, lexed_toNode]
    exact List.append_ne_nil_of_right_ne_nil _ (List.append_ne_nil_of_right_ne_nil _
      (List.cons_ne_nil _ _))
  · rw [lexed_memberFunction, lexed_toNode]
    exact startsInnerAttribute_front hattributes hvisibility
  have hrun : (Syntax.signature reading false).run
      (signature.toNode.lexed ++ .group .brace (Node.lexedAll body) :: rest) =
        .ok (signature.toNode, .group .brace (Node.lexedAll body) :: rest) := hsignature.run rfl
  rw [lexed_toNode] at hrun
  rw [lexed_memberFunction, lexed_toNode]
  refine (run_bind_of (run_itemFront hattributes hvisibility (by decide))).trans ?_
  refine (run_bind_to false rfl).trans ((run_bind_to [] rfl).trans (run_get_bind.trans ?_))
  refine (run_bind_of hrun).trans ((run_bind_to false rfl).trans ?_)
  exact (run_bind_of (hinside rest)).trans rfl

/-- A constant is not taken for a function. -/
theorem startsSignature_const (hname : isName name = true) {rest : Input} :
    startsSignature false (.ident "const" :: .ident name :: rest) = false := by
  have hword : ∀ word, isName word = false →
      Input.startsWord (.ident name :: rest) word = false := fun word => startsWord_of_isName hname
  have hafter : ∀ word, isName word = false →
      Input.afterWord (.ident name :: rest) word = .ident name :: rest := fun word hname => by
    rw [Input.afterWord, hword word hname, if_neg Bool.false_ne_true]
  have hconst : Input.afterWord (.ident "const" :: .ident name :: rest) "const" =
      .ident name :: rest := rfl
  rw [startsSignature, hconst, hafter "async" (by decide), hafter "unsafe" (by decide)]
  simp only [hword "extern" (by decide), hword "fn" (by decide), Bool.false_and,
    Bool.false_eq_true, if_false]

theorem lexed_memberConstant (name : String) (type value : Node) (rest : Input) :
    (memberConstant name type value).lexed ++ rest = .ident "const" :: .ident name :: .punct ":" ::
      (type.lexed ++ .punct "=" :: (value.lexed ++ .punct ";" :: rest)) := by
  simp [memberConstant, Kind.isOpen]

theorem readsMember_constant (hname : isName name = true)
    (htype : Recovers (reading (.type true)) endsType type.lexed type) (hvalue : ReadsExpr value) :
    ReadsMember (memberConstant name type value) := by
  refine ⟨?_, fun rest => ?_, _, .constant name type value, fun rest => ?_⟩
  · rw [← List.append_nil (Node.lexed _), lexed_memberConstant]
    exact List.cons_ne_nil _ _
  · rw [lexed_memberConstant]
    rfl
  have hsignature : startsSignature false (.ident "const" :: .ident name :: .punct ":" ::
      (type.lexed ++ .punct "=" :: (value.lexed ++ .punct ";" :: rest))) = false :=
    startsSignature_const hname
  have hgiven : (orNothing (·.startsPunct "=") do
      return [← punct "=", ← reading (.expr true)]).run
        (.punct "=" :: (value.lexed ++ .punct ";" :: rest)) =
          .ok ([.punct "=", value], .punct ";" :: rest) := by
    have hread : (reading (.expr true)).run (value.lexed ++ .punct ";" :: rest) =
        .ok (value, .punct ";" :: rest) := hvalue.run_expr rfl
    refine (run_orNothing_of_true rfl).trans ((run_bind_to (.punct "=") rfl).trans ?_)
    exact (run_bind_of hread).trans rfl
  have hparts : (constantParts? reading (.ident "const")).run (.ident name :: .punct ":" ::
      (type.lexed ++ .punct "=" :: (value.lexed ++ .punct ";" :: rest))) =
        .ok (some ([.ident "const", .ident name, .punct ":", type, .punct "=", value, .punct ";"],
          true), rest) := by
    have hread := htype (.punct "=" :: (value.lexed ++ .punct ";" :: rest)) rfl
    have hnamed : nameOrUnderscore.run (.ident name :: .punct ":" ::
        (type.lexed ++ .punct "=" :: (value.lexed ++ .punct ";" :: rest))) = .ok (.ident name,
          .punct ":" :: (type.lexed ++ .punct "=" :: (value.lexed ++ .punct ";" :: rest))) :=
      run_when_eq_ok.mpr ⟨Bool.or_eq_true_iff.mpr (.inl hname), rfl⟩
    refine (run_bind_of hnamed).trans ((run_bind_to false rfl).trans ?_)
    refine (run_bind_to () rfl).trans ((run_bind_to (.punct ":") rfl).trans ?_)
    refine (run_bind_of hread).trans ((run_bind_of hgiven).trans ?_)
    exact (run_bind_to false rfl).trans rfl
  rw [lexed_memberConstant]
  refine (run_bind_of (run_itemFront .nil (.inr rfl) (by decide))).trans ?_
  refine (run_bind_to false rfl).trans ((run_bind_to [] rfl).trans (run_get_bind.trans ?_))
  rw [hsignature, if_neg Bool.false_ne_true]
  have hconst : Input.startsWord (.ident "const" :: .ident name :: .punct ":" ::
      (type.lexed ++ .punct "=" :: (value.lexed ++ .punct ";" :: rest))) "const" = true := rfl
  have hword : (word "const").run (.ident "const" :: .ident name :: .punct ":" ::
      (type.lexed ++ .punct "=" :: (value.lexed ++ .punct ";" :: rest))) = .ok (.ident "const",
        .ident name :: .punct ":" ::
          (type.lexed ++ .punct "=" :: (value.lexed ++ .punct ";" :: rest))) := rfl
  rw [hconst, if_pos rfl]
  refine (run_bind_of hword).trans ?_
  refine (run_bind_of hparts).trans ?_
  rfl

end Members

end EntityTables.Syntax
