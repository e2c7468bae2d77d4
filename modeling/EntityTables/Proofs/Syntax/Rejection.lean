import EntityTables.Proofs.Syntax.BorrowedTypes
import EntityTables.Proofs.Syntax.WrittenItems

/-!
# Code that is rejected

Behind an `&` no bounds are joined, so the `+` of a type that joins some is left over. Nothing that
encloses the type reads it: the arguments in angle brackets are rejected, and with them the result of
the method, the method, the implementation around it and the file.
-/

namespace EntityTables.Syntax

open EntityTables.Syntax.Parser

/-- A parser reads nothing off an input. -/
def Rejects {α : Type} (parser : Parser α) (input : Input) : Prop :=
  ∀ result, parser.run input ≠ .ok result

/-! ### Rejections go up -/

section Steps

variable {α β : Type} {parser : Parser α} {next : α → Parser β} {input middle : Input}

theorem Rejects.bind (hrejects : Rejects parser input) : Rejects (parser >>= next) input := by
  rintro ⟨result, rest⟩ hrun
  obtain ⟨read, left, hread, -⟩ := run_bind_eq_ok.mp hrun
  exact hrejects _ hread

/-- What is left to run after some steps is rejected. -/
theorem Rejects.of_run_eq {other : Parser α} (heq : parser.run input = other.run middle)
    (hrejects : Rejects other middle) : Rejects parser input :=
  fun result hrun => hrejects result (heq ▸ hrun)

theorem Rejects.one {parser : Parser Node} (hrejects : Rejects parser input) :
    Rejects (one parser) input := hrejects.bind

theorem Rejects.group {parser : Parser (List Node)} {body : Input} (hrejects : Rejects parser body)
    (delimiter : Delimiter) (rest : Input) :
    Rejects (Parser.group delimiter parser) (.group delimiter body :: rest) := by
  rintro ⟨result, left⟩ hrun
  obtain ⟨inner, read, heq, hread, -⟩ := run_group_eq_ok.mp hrun
  cases heq
  exact hrejects _ hread

/-- The rounds of a step up to one that is rejected. -/
inductive BreaksOff (step : Parser (Option (List Node))) : Input → Prop
  | here {input : Input} (hrejects : Rejects step input) : BreaksOff step input
  | later {input middle : Input} {nodes : List Node}
      (hstep : step.run input = .ok (some nodes, middle)) (hless : middle.length < input.length)
      (hmore : BreaksOff step middle) : BreaksOff step input

theorem BreaksOff.rejects {step : Parser (Option (List Node))} (hbreaks : BreaksOff step input) :
    Rejects (repeated step) input := by
  have hrounds : ∀ steps done, input.length < steps → Rejects (repeatWithin steps step done) input := by
    induction hbreaks with
    | here hrejects =>
        intro steps done hsteps
        obtain ⟨fewer, rfl⟩ : ∃ fewer, steps = fewer + 1 := ⟨steps - 1, by omega⟩
        rw [repeatWithin]
        exact hrejects.bind
    | @later input middle nodes hstep hless hmore ih =>
        intro steps done hsteps
        obtain ⟨fewer, rfl⟩ : ∃ fewer, steps = fewer + 1 := ⟨steps - 1, by omega⟩
        rw [repeatWithin]
        exact .of_run_eq (run_bind_of hstep) (ih fewer _ (by omega))
  exact .of_run_eq run_get_bind (hrounds _ [] (Nat.lt_succ_self _))

section Parts

variable {test : Input → Bool} {read : Parser (List Node)}

theorem BreaksOff.part (htest : test input = true) (hrejects : Rejects read input) :
    BreaksOff (partStep test read) input := by
  refine .here (.of_run_eq (run_bind_of (run_peek test)) ?_)
  rw [htest]
  exact hrejects.bind

theorem BreaksOff.again {nodes : List Node} (htest : test input = true)
    (hpart : read.run input = .ok (nodes, middle)) (hless : middle.length < input.length)
    (hmore : BreaksOff (partStep test read) middle) : BreaksOff (partStep test read) input := by
  have hstep : (partStep test read).run input = .ok (some nodes, middle) := by
    refine (run_bind_of (run_peek test)).trans ?_
    rw [htest]
    exact (run_bind_of hpart).trans rfl
  exact .later hstep hless hmore

end Parts

/-- A list of trees is rejected at the first that is rejected. -/
theorem breaksOff_many {parser : Parser Node} {written read : List Node} {own : Node}
    (hall : List.Forall₂ (ReadsAs parser) written read) (hown : own.lexed ≠ [])
    (hrejects : ∀ rest, Rejects parser (own.lexed ++ rest)) (others : List Node) :
    BreaksOff (partStep (fun input => !input.isEmpty) (one parser))
      (Node.lexedAll (written ++ own :: others)) := by
  induction hall with
  | nil =>
      rw [List.nil_append, lexedAll_cons]
      refine .part ?_ (hrejects _).one
      rw [isEmpty_append_eq_false hown]
      rfl
  | @cons first own' more read' hfirst hothers ih =>
      rw [List.cons_append, lexedAll_cons]
      refine .again ?_ (run_one_eq_ok.mpr ⟨own', rfl, hfirst.recovers _⟩)
        (length_lt_of_ne_nil hfirst.nonempty) ih
      rw [isEmpty_append_eq_false hfirst.nonempty]
      rfl

end Steps

/-! ### Types with several bounds -/

/-- A type that is given by two traits. -/
def implOf (first second : Node) : Node :=
  .phrase .implTraitType [.ident "impl", .phrase .traitBound [first], .punct "+",
    .phrase .traitBound [second]]

theorem readsType_implOf {first second : Node} (hfirst : ReadsPath false first)
    (hsecond : ReadsPath false second) : ReadsType (implOf first second) := by
  intro rest hrest
  have hends := endsType_of_closes hrest
  rw [endsType, Bool.and_eq_true, Bool.not_eq_true'] at hends
  have hlexed : (implOf first second).lexed ++ rest =
      .ident "impl" :: (first.lexed ++ .punct "+" :: (second.lexed ++ rest)) := by
    simp [implOf, Kind.isOpen]
  have hstarts : startsBound (second.lexed ++ rest) = true := by
    have hsecond := hsecond.starts
    generalize second.lexed = tokens at hsecond
    cases hsecond <;> rfl
  have hjoined : (joinStep true).run (.punct "+" :: (second.lexed ++ rest)) =
      .ok (some [.punct "+", .phrase .traitBound [second]], rest) := by
    refine (run_bind_to true rfl).trans ((run_bind_of (run_punct_single (by decide) _)).trans ?_)
    refine (run_bind_of (run_peek _)).trans ?_
    rw [hstarts]
    exact (run_bind_of (run_bound hsecond hends.1)).trans rfl
  have hdone : (joinStep true).run rest = .ok (none, rest) := by
    refine (run_bind_of (run_peek _)).trans ?_
    rw [hends.2]
    rfl
  have hmore : (repeated (joinStep true)).run (.punct "+" :: (second.lexed ++ rest)) =
      .ok ([.punct "+", .phrase .traitBound [second]], rest) :=
    run_repeated (.round hjoined (Nat.lt_succ_of_lt
      (length_lt_of_ne_nil hsecond.starts.ne_nil)) (.stop hdone))
  have hbounds : (bounds reading true true).run (first.lexed ++ .punct "+" :: (second.lexed ++ rest)) =
      .ok ([.phrase .traitBound [first], .punct "+", .phrase .traitBound [second]], rest) :=
    (run_bind_of (run_bound hfirst rfl)).trans ((run_bind_of hmore).trans rfl)
  have hrule : (typeRule reading true).run (.ident "impl" ::
      (first.lexed ++ .punct "+" :: (second.lexed ++ rest))) =
        (bounds reading true true >>= fun bounds => do
          Parser.guard (hasTrait bounds)
          return .phrase .implTraitType (.ident "impl" :: bounds) : Parser Node).run
            (first.lexed ++ .punct "+" :: (second.lexed ++ rest)) := rfl
  rw [hlexed, run_reading]
  exact hrule.trans ((run_bind_of hbounds).trans rfl)

/-! ### What is left behind an `&` -/

section Borrowed

variable {type : Node} {input rest left : Input}

theorem startsPunct_of_plus (hplus : input.startsPunct "+" = true) {operator : String} {c : Char}
    {chars : List Char} (hchars : operator.toList = c :: chars) (hne : c ≠ '+') :
    input.startsPunct operator = false := by
  refine Bool.eq_false_iff.mpr fun hstarts => ?_
  obtain ⟨joint, more, rfl, -⟩ := startsChars_cons hplus
  rw [Input.startsPunct, hchars] at hstarts
  obtain ⟨other, others, heq, -⟩ := startsChars_cons hstarts
  have hsame := Token.punct.inj (Node.leaf.inj (List.cons.inj heq).1)
  exact hne (List.singleton_inj.mp
    ((String.toList_singleton c).symm.trans (congrArg String.toList hsame.1.symm)))

/-- No type starts with a `+`. -/
theorem rejects_type_plus {plus : Bool} (hplus : input.startsPunct "+" = true) :
    Rejects (reading (.type plus)) input := by
  obtain ⟨joint, more, rfl, -⟩ := startsChars_cons hplus
  intro result hrun
  rw [run_reading] at hrun
  cases hrun

theorem leaves_referenceTo {other : Node} (htype : ReadsType type) (hjoins : joinsBounds type = true)
    (hrest : closes rest = true)
    (hrun : (reading (.type true)).run ((referenceTo type).lexed ++ rest) = .ok (other, left)) :
    left.startsPunct "+" = true := by
  have hjoined := htype rest hrest
  have hmut := not_mut_of_run hjoined
  rw [lexed_referenceTo, List.cons_append, run_reading] at hrun
  generalize type.lexed ++ rest = tail at hrun hjoined hmut
  have hrule : (typeRule reading true).run (.punct "&" :: tail) = (do
      let lifetime ← lifetime?
      let mutability ← word? "mut"
      return .phrase .referenceType
        (.punct "&" :: lifetime ++ mutability ++ [← reading (.type false)]) : Parser Node).run
          tail := rfl
  have hrun := hrule.symm.trans hrun
  cases hlifetime : Input.startsLifetime tail with
  | false =>
      rw [run_reading] at hjoined
      have hnone : lifetime?.run tail = .ok ([], tail) := run_orNothing_of hlifetime
      have hplain : (word? "mut").run tail = .ok ([], tail) := run_orNothing_of hmut
      have hrun := (run_bind_of hplain).symm.trans ((run_bind_of hnone).symm.trans hrun)
      obtain ⟨inner, middle, hinner, hpure⟩ := run_bind_eq_ok.mp hrun
      cases hpure
      rw [run_reading] at hinner
      exact (aloneAt_typeRule hlifetime).leaves hjoined hjoins hinner
  | true =>
      obtain ⟨node, more, rfl⟩ : ∃ node more, tail = node :: more := by
        cases tail with
        | nil => cases hlifetime
        | cons node more => exact ⟨node, more, rfl⟩
      obtain ⟨name, rfl⟩ := startsLifetime_cons hlifetime
      have hplus := (startsType_of_run hjoined).joined
      rw [hlifetime, Bool.true_and, Bool.not_eq_false'] at hplus
      -- The lifetime is taken for that of the reference, and no type begins at the `+` behind it.
      have hnone : (word? "mut").run more = .ok ([], more) := by
        obtain ⟨joint, others, heq, -⟩ := startsChars_cons hplus
        obtain rfl : more = _ := heq
        rfl
      have hread : lifetime?.run (.leaf (.lifetime name) :: more) =
          .ok ([.leaf (.lifetime name)], more) := rfl
      have hrun := (run_bind_of hnone).symm.trans ((run_bind_of hread).symm.trans hrun)
      obtain ⟨inner, middle, hinner, -⟩ := run_bind_eq_ok.mp hrun
      exact absurd hinner (rejects_type_plus hplus _)

/-- The arguments in angle brackets end at the `+`, which is no comma and no bracket. -/
theorem rejects_arguments (htype : ReadsType type) (hjoins : joinsBounds type = true)
    (hrest : closes rest = true) :
    Rejects (genericArgs reading) (.punct "<" :: ((referenceTo type).lexed ++ rest)) := by
  refine .of_run_eq ((run_bind_to [] rfl).trans (run_bind_of (run_punct_single (by decide) _))) ?_
  refine Rejects.bind (BreaksOff.rejects (.here (.of_run_eq (run_bind_of (run_peek _)) ?_)))
  have hopens : Input.startsPunct ((referenceTo type).lexed ++ rest) ">" = false := by
    rw [lexed_referenceTo]
    rfl
  rw [hopens, if_neg Bool.false_ne_true]
  cases hrun : (reading (.type true)).run ((referenceTo type).lexed ++ rest) with
  | error error =>
      have hnone : Rejects (reading (.type true)) ((referenceTo type).lexed ++ rest) :=
        fun result hok => nomatch hrun.symm.trans hok
      refine Rejects.bind (Rejects.one ?_)
      rw [lexed_referenceTo] at hnone ⊢
      exact .of_run_eq (run_bind_of (run_peek _)) (.of_run_eq (run_bind_of (run_peek _)) hnone.bind)
  | ok result =>
      obtain ⟨other, left⟩ := result
      have hplus := leaves_referenceTo htype hjoins hrest hrun
      have hcomma := startsPunct_of_plus hplus (by decide : ",".toList = [',']) (by decide)
      have hangle := startsPunct_of_plus hplus (by decide : ">".toList = ['>']) (by decide)
      have hargument := run_genericArgument hrun
        (startsPunct_of_plus hplus (by decide : "=".toList = ['=']) (by decide))
        (startsPunct_of_plus hplus (by decide : ":".toList = [':']) (by decide))
      refine .of_run_eq (run_bind_of (run_one_eq_ok.mpr ⟨other, rfl, hargument⟩)) ?_
      refine .of_run_eq (run_bind_of (run_peek _)) ?_
      rw [hangle, if_neg Bool.false_ne_true]
      refine Rejects.bind fun result hok => ?_
      obtain ⟨hstarts, -⟩ := run_punctOr_eq_ok.mp hok
      exact Bool.false_ne_true (hcomma.symm.trans hstarts)

end Borrowed

/-! ### A method that returns a reference -/

section Results

variable {type : Node} {name : String}

theorem rejects_segment (hname : isName name = true) {tokens : Input}
    (harguments : Rejects (genericArgs reading) (.punct "<" :: tokens)) :
    Rejects (segment reading false) (.ident name :: .punct "<" :: tokens) := by
  have hroot : Input.startsOneOf (.ident name :: .punct "<" :: tokens)
      ["super", "self", "crate", "try"] = false := startsOneOf_of_isName hname (by decide)
  have hself : Input.startsWord (.ident name :: .punct "<" :: tokens) "Self" = false :=
    startsWord_of_isName hname (by decide)
  unfold segment
  refine .of_run_eq (run_bind_of (run_peek _)) ?_
  rw [hroot, if_neg Bool.false_ne_true]
  refine .of_run_eq (run_bind_of (run_peek _)) ?_
  rw [hself, if_neg Bool.false_ne_true]
  refine .of_run_eq ((run_bind_of (run_name hname)).trans (run_bind_of (run_peek _))) ?_
  exact harguments.one.bind

/-- The last segment of the path of an optional reference is rejected, and so is the path. -/
theorem rejects_optionOf (htype : ReadsType type) (hjoins : joinsBounds type = true) (rest : Input) :
    Rejects (reading (.type true)) ((optionOf (referenceTo type)).lexed ++ rest) := by
  have hlexed : (optionOf (referenceTo type)).lexed ++ rest =
      .leaf (.punct ":" true) :: .punct ":" :: .ident "core" :: .leaf (.punct ":" true) ::
        .punct ":" :: .ident "option" :: .leaf (.punct ":" true) :: .punct ":" :: .ident "Option" ::
          .punct "<" :: ((referenceTo type).lexed ++ .punct ">" :: rest) := by
    simp [optionOf, absolutePath, pathType, joinSegments, segmentOf, Kind.isOpen]
  have hoption := rejects_segment (by decide : isName "Option" = true)
    (rejects_arguments htype hjoins (rfl : closes (.punct ">" :: rest) = true))
  rw [hlexed]
  generalize (referenceTo type).lexed ++ .punct ">" :: rest = tokens at hoption
  have hname {name : String} {more : Input} (hname : isSegmentWord name = true)
      (hmore : endsSegment more = true) := @run_segment_plain name more false hname hmore
  have hmore : Rejects (moreSegments reading false) (.leaf (.punct ":" true) :: .punct ":" ::
      .ident "option" :: .leaf (.punct ":" true) :: .punct ":" :: .ident "Option" ::
        .punct "<" :: tokens) := by
    refine BreaksOff.rejects (.again rfl (run_bind_to (.punct "::") rfl |>.trans
      (run_bind_of (hname (by decide : isSegmentWord "option" = true) rfl))) ?_ (.part rfl ?_))
    · simp only [List.length_cons]
      omega
    · exact .of_run_eq (run_bind_to (.punct "::") rfl) hoption.bind
  have hpath : Rejects (path reading false) (.leaf (.punct ":" true) :: .punct ":" ::
      .ident "core" :: .leaf (.punct ":" true) :: .punct ":" :: .ident "option" ::
        .leaf (.punct ":" true) :: .punct ":" :: .ident "Option" :: .punct "<" :: tokens) :=
    .of_run_eq ((run_bind_to [.punct "::"] rfl).trans
      (run_bind_of (hname (by decide : isSegmentWord "core" = true) rfl))) hmore.bind
  refine .of_run_eq (run_reading.trans (run_typeRule_path (.root _))) (Rejects.bind ?_)
  exact .of_run_eq ((run_bind_of (run_peek _)).trans (run_bind_of (run_peek _))) hpath.bind

theorem rejects_signature {signature : Signature} (hname : isName signature.name = true)
    (hinputs : ∀ input ∈ signature.inputs, ReadsInput input)
    (hreceivers : (signature.inputs.drop 1).all fun input => !input.is .receiver)
    (houtput : signature.output = Signature.outputOf type) (rest : Input)
    (htype : Rejects (reading (.type true)) (type.lexed ++ rest)) :
    Rejects (Syntax.signature reading false) (signature.toNode.lexed ++ rest) := by
  have hlexed : (Signature.outputOf type).lexed ++ rest =
      .leaf (.punct "-" true) :: .punct ">" :: (type.lexed ++ rest) := by
    simp [Signature.outputOf, Kind.isOpen]
  have hresult : Rejects (returnType reading true) (signature.output.lexed ++ rest) := by
    rw [houtput, hlexed]
    refine Rejects.bind (.of_run_eq ((run_orNothing_of_true rfl).trans
      (run_bind_to (.punct "->") rfl)) htype.bind)
  rw [lexed_toNode]
  refine .of_run_eq ((run_bind_to (.empty .qualifiers) rfl).trans
    ((run_bind_to (.ident "fn") rfl).trans ((run_bind_of (run_name hname)).trans
      ((run_bind_to (.empty .generics) rfl).trans
        (run_bind_of (run_functionParams hinputs hreceivers _)))))) hresult.bind

end Results

/-! ### Members and items -/

/-- A member that is rejected, whatever follows it. -/
structure RejectsMember (member : Node) : Prop where
  nonempty : member.lexed ≠ []
  starts : ∀ rest, startsInnerAttribute (member.lexed ++ rest) = false
  rejects : ∀ rest, Rejects (implMember reading) (member.lexed ++ rest)

structure RejectsItem (item : Node) : Prop where
  nonempty : item.lexed ≠ []
  starts : ∀ rest, startsInnerAttribute (item.lexed ++ rest) = false
  rejects : ∀ rest, Rejects (reading .item) (item.lexed ++ rest)

/-- If trees are read or rejected and one is rejected, then a first one is. -/
theorem exists_first {reads rejects : Node → Prop} {nodes : List Node}
    (hall : ∀ node ∈ nodes, reads node ∨ rejects node) (hsome : ∃ node ∈ nodes, rejects node) :
    ∃ front node others, nodes = front ++ node :: others ∧ (∀ own ∈ front, reads own) ∧
      rejects node := by
  induction nodes with
  | nil =>
      obtain ⟨node, hmem, -⟩ := hsome
      cases hmem
  | cons first rest ih =>
      obtain ⟨hfirst, hrest⟩ := List.forall_mem_cons.mp hall
      by_cases hrejects : rejects first
      · exact ⟨[], first, rest, rfl, List.forall_mem_nil _, hrejects⟩
      · have hlater := ((List.exists_mem_cons_iff ..).mp hsome).resolve_left hrejects
        obtain ⟨front, node, others, rfl, hfront, hnode⟩ := ih hrest hlater
        have hreads := hfirst.resolve_right hrejects
        exact ⟨first :: front, node, others, rfl, List.forall_mem_cons.mpr ⟨hreads, hfront⟩, hnode⟩

section Items

variable {attributes read members items : List Node} {visibility path : Node}
  {signature : Signature} {body : List Node}

theorem rejectsMember_function (hattributes : List.Forall₂ ReadsAttribute attributes read)
    (hvisibility : IsWrittenVisibility visibility)
    (hsignature : ∀ rest, Rejects (Syntax.signature reading false) (signature.toNode.lexed ++ rest)) :
    RejectsMember (memberFunction attributes visibility signature body) := by
  refine ⟨?_, fun rest => ?_, fun rest => ?_⟩
  · rw [← List.append_nil (Node.lexed _), lexed_memberFunction, lexed_toNode]
    exact List.append_ne_nil_of_right_ne_nil _ (List.append_ne_nil_of_right_ne_nil _
      (List.cons_ne_nil _ _))
  · rw [lexed_memberFunction, lexed_toNode]
    exact startsInnerAttribute_front hattributes hvisibility
  · have hrejected := hsignature (.group .brace (Node.lexedAll body) :: rest)
    rw [lexed_toNode] at hrejected
    rw [lexed_memberFunction, lexed_toNode]
    exact .of_run_eq ((run_bind_of (run_itemFront hattributes hvisibility (by decide))).trans
      ((run_bind_to false rfl).trans ((run_bind_to [] rfl).trans run_get_bind))) hrejected.bind

/-- An implementation is rejected if one of its members is. -/
theorem rejectsItem_ownImpl (hpath : ReadsPath false path)
    (hmembers : ∀ member ∈ members, ReadsMember member ∨ RejectsMember member)
    (hsome : ∃ member ∈ members, RejectsMember member) :
    RejectsItem (ownImpl (pathType path) members) := by
  obtain ⟨front, member, others, rfl, hfront, hmember⟩ := exists_first hmembers hsome
  have hlexed : ∀ rest, (ownImpl (pathType path) (front ++ member :: others)).lexed ++ rest =
      Node.lexedAll [] ++ ((Node.empty .visibility).lexed ++ .ident "impl" :: (path.lexed ++
        .group .brace (Node.lexedAll (front ++ member :: others)) :: rest)) := by
    intro rest
    simp [ownImpl, implItemOf, pathType, braces, Kind.isOpen]
  have hstarts : startsInnerAttribute (Node.lexedAll (front ++ member :: others)) = false := by
    cases front with
    | nil =>
        rw [List.nil_append, lexedAll_cons]
        exact hmember.starts _
    | cons own more =>
        rw [List.cons_append, lexedAll_cons]
        exact (hfront own List.mem_cons_self).starts _
  obtain ⟨inside, -, hinside⟩ := readsAs_members hfront
  refine ⟨?_, fun rest => ?_, fun rest => ?_⟩
  · rw [← List.append_nil (Node.lexed _), hlexed]
    exact List.cons_ne_nil _ _
  · rw [hlexed]
    rfl
  · have hrejected : Rejects implMembers
        (.group .brace (Node.lexedAll (front ++ member :: others)) :: rest) := by
      refine Rejects.group (.of_run_eq (run_bind_of (run_innerAttributes?_none hstarts)) ?_) _ _
      exact (breaksOff_many hinside hmember.nonempty hmember.rejects others).rejects.bind
    rw [hlexed]
    exact .of_run_eq (run_ownImpl hpath _ rest) hrejected.bind

/-- **Rejected files.** The tokens of items of which one is rejected are no file, if the others are read
back or rejected. -/
theorem fileOf?_eq_none (hitems : ∀ item ∈ items, ReadsItem item ∨ RejectsItem item)
    (hsome : ∃ item ∈ items, RejectsItem item) :
    fileOf? (Node.phrase .file (.empty .attributes :: items)).lexed = none := by
  obtain ⟨front, item, others, rfl, hfront, hitem⟩ := exists_first hitems hsome
  have hlexed : (Node.phrase .file (.empty .attributes :: (front ++ item :: others))).lexed =
      Node.lexedAll (front ++ item :: others) := by
    simp [Kind.isOpen]
  have hstarts : startsInnerAttribute (Node.lexedAll (front ++ item :: others)) = false := by
    cases front with
    | nil =>
        rw [List.nil_append, lexedAll_cons]
        exact hitem.starts _
    | cons own more =>
        rw [List.cons_append, lexedAll_cons]
        exact (hfront own List.mem_cons_self).starts _
  obtain ⟨read, -, hread⟩ := readsAs_items hfront
  have hfile : Rejects (fileRule reading) (Node.lexedAll (front ++ item :: others)) :=
    .of_run_eq (run_bind_of (run_innerAttributes_none hstarts))
      (breaksOff_many hread hitem.nonempty hitem.rejects others).rejects.bind
  rw [hlexed, Option.eq_none_iff_forall_ne_some]
  exact fun file hread => hfile _ (fileOf?_eq_some_iff.mp hread)

end Items

end EntityTables.Syntax
