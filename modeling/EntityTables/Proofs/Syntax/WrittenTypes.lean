import EntityTables.Proofs.Syntax.Recovery

/-!
# Types that are read back

Paths and types as generated code writes them are recovered from their tokens. The last segment of a
path would take what follows for its arguments, and a type would go on with what may join it, so the
tests say what must not follow.
-/

namespace EntityTables.Syntax

open EntityTables.Syntax.Parser

/-! ### What types start with -/

section Starts

variable {plus : Bool} {input rest : Input} {type : Node}

/-- A type starts with no bracket that closes, no dot, no literal and no block, and a lifetime at its
start is joined with a bound. -/
structure StartsType (input : Input) : Prop where
  opens : input.startsPunct ">" = false
  noDots : input.startsPunct "." = false
  notLiteral : (input.startsLiteral || input.startsGroup .brace) = false
  joined : (input.startsLifetime && !input.next.startsPunct "+") = false

theorem startsGroup_cons {delimiter : Delimiter} (hstarts : input.startsGroup delimiter = true) :
    ∃ body more, input = .group delimiter body :: more := by
  unfold Input.startsGroup at hstarts
  split at hstarts
  · obtain rfl := beq_iff_eq.mp hstarts
    exact ⟨_, _, rfl⟩
  · cases hstarts

theorem run_bounds_lifetime {name : String} (hrest : rest.startsPunct "+" = false) :
    (bounds reading true false).run (.leaf (.lifetime name) :: rest) =
      .ok ([.leaf (.lifetime name)], rest) := by
  refine (run_bind_to (.leaf (.lifetime name)) rfl).trans ?_
  have hstep : (do
      if (← peek (·.startsPunct "+")) then
        let sign ← punct "+"
        if (← peek startsBound) then return some [sign, ← bound reading false]
        return some [sign]
      else return none : Parser (Option (List Node))).run rest = .ok (none, rest) := by
    refine (run_bind_of (run_peek _)).trans ?_
    rw [hrest]
    rfl
  exact (run_bind_of (run_repeated (.stop hstep))).trans rfl

theorem startsType_of_run (hrun : (reading (.type plus)).run input = .ok (type, rest)) :
    StartsType input := by
  rw [run_reading] at hrun
  have hrefused : ∀ error, (typeRule reading plus).run input ≠ .error error := fun error herror =>
    nomatch hrun.symm.trans herror
  cases input with
  | nil => exact absurd rfl (hrefused .unexpected)
  | cons node tail =>
      refine ⟨Bool.eq_false_iff.mpr fun hstarts => ?_, Bool.eq_false_iff.mpr fun hstarts => ?_,
        Bool.eq_false_iff.mpr fun hstarts => ?_, Bool.eq_false_iff.mpr fun hstarts => ?_⟩
      · obtain ⟨joint, rest, heq, -⟩ := startsChars_cons hstarts
        cases heq
        exact hrefused .unexpected rfl
      · obtain ⟨joint, rest, heq, -⟩ := startsChars_cons hstarts
        cases heq
        exact hrefused .unexpected rfl
      · rw [Bool.or_eq_true, Input.startsLiteral, Bool.or_eq_true, Bool.or_eq_true] at hstarts
        rcases hstarts with ((hliteral | hword) | hnegative) | hbrace
        · match node with
          | .leaf (.literal text) => exact hrefused .unexpected rfl
        · match node with
          | .leaf (.ident word) =>
            rcases List.any_eq_true.mp hword with ⟨other, hmem, hother⟩
            obtain rfl := beq_iff_eq.mp hother
            rcases List.mem_cons.mp hmem with rfl | hmem
            · exact hrefused .unexpected rfl
            · obtain rfl := List.mem_singleton.mp hmem
              exact hrefused .unexpected rfl
        · rw [Bool.and_eq_true] at hnegative
          obtain ⟨joint, rest, heq, -⟩ := startsChars_cons hnegative.1
          cases heq
          exact hrefused .unexpected rfl
        · match node with
          | .group delimiter body =>
            obtain rfl := beq_iff_eq.mp hbrace
            exact hrefused .unexpected rfl
      · match node with
        | .leaf (.lifetime name) =>
          rw [Bool.and_eq_true, Bool.not_eq_true'] at hstarts
          refine hrefused .unexpected ?_
          have hrule : (typeRule reading plus).run (.leaf (.lifetime name) :: tail) =
              (bounds reading true false >>= fun bounds => do
                Parser.guard (hasTrait bounds)
                return .phrase .traitObjectType bounds : Parser Node).run
                  (.leaf (.lifetime name) :: tail) := rfl
          exact hrule.trans ((run_bind_of (run_bounds_lifetime hstarts.2)).trans rfl)

end Starts

/-! ### Arguments in angle brackets -/

/-- What ends an argument or a parameter: a comma, a bracket that closes, or the end. -/
def closes (input : Input) : Bool :=
  input.isEmpty || input.startsPunct "," || input.startsPunct ">"

section Arguments

variable {input rest tokens : Input} {type argument : Node}

theorem startsPunct_of_closes (hrest : closes rest = true) {operator : String} {c : Char}
    {chars : List Char} (hchars : operator.toList = c :: chars) (hcomma : c ≠ ',')
    (hangle : c ≠ '>') : rest.startsPunct operator = false := by
  rw [Bool.eq_false_iff]
  intro hstarts
  rw [Input.startsPunct, hchars] at hstarts
  obtain ⟨joint, others, rfl, -⟩ := startsChars_cons hstarts
  rw [closes, List.isEmpty_cons, Bool.false_or, Bool.or_eq_true] at hrest
  rcases hrest with hrest | hrest
  · exact hcomma (List.singleton_inj.mp
      ((String.toList_singleton c).symm.trans (congrArg String.toList (beq_iff_eq.mp hrest))))
  · exact hangle (List.singleton_inj.mp
      ((String.toList_singleton c).symm.trans (congrArg String.toList (beq_iff_eq.mp hrest))))

/-- A type is an argument, unless it names one that has a value or bounds. -/
theorem run_genericArgument (hrun : (reading (.type true)).run input = .ok (type, rest))
    (hequals : rest.startsPunct "=" = false) (hcolon : rest.startsPunct ":" = false) :
    (genericArgument reading).run input = .ok (type, rest) := by
  obtain ⟨-, -, hliteral, hjoined⟩ := startsType_of_run hrun
  refine (run_bind_of (run_peek _)).trans ?_
  rw [hjoined]
  refine (run_bind_of (run_peek _)).trans ?_
  rw [hliteral]
  refine (run_bind_of hrun).trans ?_
  dsimp only
  split
  · refine (run_bind_of (run_peek _)).trans ?_
    rw [hequals]
    refine (run_bind_of (run_peek _)).trans ?_
    rw [hcolon]
    rfl
  · rfl

theorem run_genericArgument_type (hrun : (reading (.type true)).run input = .ok (type, rest))
    (hrest : closes rest = true) : (genericArgument reading).run input = .ok (type, rest) :=
  run_genericArgument hrun
    (startsPunct_of_closes hrest (by decide : "=".toList = ['=']) (by decide) (by decide))
    (startsPunct_of_closes hrest (by decide : ":".toList = [':']) (by decide) (by decide))

/-- The rounds in which the arguments in angle brackets are read. -/
abbrev ArgumentRounds : Input → List Node → Input → Prop :=
  Rounds (separatedStep (·.startsPunct ">") (punct ",") (one (genericArgument reading)))

theorem ArgumentRounds.of_run (hrun : (reading (.type true)).run input = .ok (type, rest))
    (hless : rest.length < input.length) (hrest : rest.startsPunct ">" = true) :
    ArgumentRounds input [type] rest := by
  have hcloses : closes rest = true := by rw [closes, hrest, Bool.or_true]
  have hargument := run_genericArgument_type hrun hcloses
  exact .last (startsType_of_run hrun).opens (run_one_eq_ok.mpr ⟨type, rfl, hargument⟩) hrest hless

theorem ArgumentRounds.only (hrun : (reading (.type true)).run (tokens ++ rest) = .ok (type, rest))
    (hrest : rest.startsPunct ">" = true) : ArgumentRounds (tokens ++ rest) [type] rest := by
  refine .of_run hrun (length_lt_of_ne_nil ?_) hrest
  rintro rfl
  exact absurd (hrest.symm.trans (startsType_of_run hrun).opens) (by decide)

theorem ArgumentRounds.before {more : List Node} {others : Input}
    (hrun : (reading (.type true)).run (tokens ++ .punct "," :: others) =
      .ok (type, .punct "," :: others)) (hmore : ArgumentRounds others more rest) :
    ArgumentRounds (tokens ++ .punct "," :: others) ([type] ++ [.punct ","] ++ more) rest := by
  have hstart := (startsType_of_run hrun).opens
  have hless : others.length < (tokens ++ .punct "," :: others).length := by
    rw [List.length_append, List.length_cons]
    omega
  exact .next hstart (run_one_eq_ok.mpr ⟨type, rfl, run_genericArgument_type hrun rfl⟩) rfl rfl hless
    hmore

theorem run_genericArgs {arguments : List Node} {joint : Bool}
    (hrounds : ArgumentRounds tokens arguments (.leaf (.punct ">" joint) :: rest)) :
    (genericArgs reading).run (.punct "<" :: tokens) =
      .ok (.phrase .genericArgs (.punct "<" :: arguments ++ [.punct ">"]), rest) := by
  refine (run_bind_to [] rfl).trans ((run_bind_to (.punct "<") rfl).trans ?_)
  exact (run_bind_of (run_separated hrounds)).trans rfl

/-- The same with `::` in front, as in an expression. -/
theorem run_genericArgs_turbofish {arguments : List Node} {joint : Bool}
    (hrounds : ArgumentRounds tokens arguments (.leaf (.punct ">" joint) :: rest)) :
    (genericArgs reading).run (.leaf (.punct ":" true) :: .punct ":" :: .punct "<" :: tokens) =
      .ok (.phrase .genericArgs (.punct "::" :: .punct "<" :: arguments ++ [.punct ">"]), rest) := by
  refine (run_bind_to [.punct "::"] rfl).trans
    ((run_bind_to (.punct "<") rfl).trans ?_)
  exact (run_bind_of (run_separated hrounds)).trans rfl

end Arguments

/-! ### Segments -/

/-- What may follow a segment: no arguments, not even behind two colons. -/
def endsSegment (input : Input) : Bool :=
  !input.startsPunct "<" && !(input.startsPunct "::" && (input.skip 2).startsPunct "<")

section Segments

variable {name : String} {rest tokens : Input} {arguments : Node} {inExpr : Bool}

/-- Whether arguments follow a name, in a type or in an expression. -/
def startsArguments (inExpr : Bool) (input : Input) : Bool :=
  (!inExpr && input.startsPunct "<" && !input.startsAnyPunct ["<=", "<<="]) ||
    (input.startsPunct "::" && (input.skip 2).startsPunct "<")

theorem run_segment_name (hname : isName name = true ∨ name = "Self") {arguments : List Node}
    (harguments : (if startsArguments inExpr tokens then one (genericArgs reading)
      else pure []).run tokens = .ok (arguments, rest)) :
    (segment reading inExpr).run (.ident name :: tokens) =
      .ok (.phrase .segment (.ident name :: arguments), rest) := by
  have hroot : Input.startsOneOf (.ident name :: tokens) ["super", "self", "crate", "try"] =
      false := by
    rcases hname with hname | rfl
    · exact startsOneOf_of_isName hname (by decide)
    · rfl
  unfold segment
  refine (run_bind_of (run_peek _)).trans ?_
  rw [hroot, if_neg Bool.false_ne_true]
  extract_lets finish
  have hfinish : (finish (.ident name)).run tokens =
      .ok (.phrase .segment (.ident name :: arguments), rest) := by
    refine (run_bind_of (run_peek _)).trans ?_
    change StateT.run (if startsArguments inExpr tokens = true then _ else _) _ = _
    split at harguments
    · next hstarts =>
        rw [if_pos hstarts]
        exact (run_bind_of harguments).trans rfl
    · next hstarts =>
        rw [if_neg hstarts]
        exact (run_bind_of harguments).trans rfl
  refine (run_bind_of (run_peek _)).trans ?_
  rcases hname with hname | rfl
  · rw [startsWord_of_isName hname (by decide)]
    exact (run_bind_of (run_name hname)).trans hfinish
  · exact (run_bind_of (run_anyWord _ _)).trans hfinish

/-- The words that a segment may be, with those that no arguments follow. -/
def isSegmentWord (word : String) : Bool :=
  isName word || ["super", "self", "crate", "try", "Self"].contains word

theorem run_segment_plain (hname : isSegmentWord name = true) (hrest : endsSegment rest = true) :
    (segment reading inExpr).run (.ident name :: rest) = .ok (segmentOf name, rest) := by
  have hplain : isName name = true ∨ name = "Self" →
      (segment reading inExpr).run (.ident name :: rest) = .ok (segmentOf name, rest) := by
    intro hname
    rw [endsSegment, Bool.and_eq_true, Bool.not_eq_true', Bool.not_eq_true'] at hrest
    refine run_segment_name hname ?_
    rw [startsArguments, hrest.1, hrest.2, Bool.and_false, Bool.false_and]
    rfl
  simp only [isSegmentWord, List.contains_cons, List.contains_nil, Bool.or_false, Bool.or_eq_true,
    beq_iff_eq] at hname
  rcases hname with hname | rfl | rfl | rfl | rfl | rfl
  · exact hplain (.inl hname)
  · rfl
  · rfl
  · rfl
  · rfl
  · exact hplain (.inr rfl)

/-- A segment that is read as it is written, wherever a path goes on or ends after it. -/
structure ReadsSegment (inExpr : Bool) (segment : Node) : Prop where
  isSegment : segment.is .segment = true
  word : ∃ name more, isSegmentWord name = true ∧ segment.lexed = .ident name :: more
  recovers : Recovers (Syntax.segment reading inExpr) endsSegment segment.lexed segment

theorem readsSegment_segmentOf (hname : isSegmentWord name = true) :
    ReadsSegment inExpr (segmentOf name) := by
  have hlexed : (segmentOf name).lexed = [.ident name] := rfl
  refine ⟨rfl, ⟨name, [], hname, hlexed⟩, fun rest hrest => ?_⟩
  rw [hlexed]
  exact run_segment_plain hname hrest

/-- A type that is read as it is written, in front of what ends an argument. -/
def ReadsType (type : Node) : Prop := Recovers (reading (.type true)) closes type.lexed type

theorem readsSegment_arguments (hname : isName name = true) {type : Node} (htype : ReadsType type) :
    ReadsSegment false
      (.phrase .segment [.ident name, .phrase .genericArgs [.punct "<", type, .punct ">"]]) := by
  have hlexed : (Node.phrase .segment [.ident name,
      .phrase .genericArgs [.punct "<", type, .punct ">"]]).lexed =
        .ident name :: .punct "<" :: (type.lexed ++ [.punct ">"]) := by
    simp [Kind.isOpen]
  have hword : isSegmentWord name = true := by rw [isSegmentWord, hname, Bool.true_or]
  refine ⟨rfl, ⟨name, _, hword, hlexed⟩, fun rest hrest => ?_⟩
  have hrounds := ArgumentRounds.only (htype (.punct ">" :: rest) rfl) rfl
  rw [hlexed, List.cons_append, List.cons_append, List.append_assoc]
  refine run_segment_name (.inl hname) ?_
  exact run_one_eq_ok.mpr ⟨_, rfl, run_genericArgs hrounds⟩

theorem readsSegment_turbofish (hname : isName name = true) {type : Node} (htype : ReadsType type) :
    ReadsSegment true (turbofishSegment name type) := by
  have hlexed : (turbofishSegment name type).lexed = .ident name :: .leaf (.punct ":" true) ::
      .punct ":" :: .punct "<" :: (type.lexed ++ [.punct ">"]) := by
    simp [turbofishSegment, turbofish, Kind.isOpen]
  have hword : isSegmentWord name = true := by rw [isSegmentWord, hname, Bool.true_or]
  refine ⟨rfl, ⟨name, _, hword, hlexed⟩, fun rest hrest => ?_⟩
  have hrounds := ArgumentRounds.only (htype (.punct ">" :: rest) rfl) rfl
  rw [hlexed, List.cons_append, List.cons_append, List.cons_append, List.cons_append,
    List.append_assoc]
  refine run_segment_name (.inl hname) ?_
  exact run_one_eq_ok.mpr ⟨_, rfl, run_genericArgs_turbofish hrounds⟩

end Segments

/-! ### Paths -/

/-- What may follow a path: nothing that it goes on with. -/
def endsPath (input : Input) : Bool := !input.startsPunct "<" && !input.startsPunct ":"

section Paths

variable {rest : Input} {inExpr plus : Bool} {first : Node} {segments leading : List Node}

theorem startsPunct_of_endsPath (hrest : endsPath rest = true) :
    rest.startsPunct "<" = false ∧ rest.startsPunct ":" = false ∧ rest.startsPunct "::" = false := by
  rw [endsPath, Bool.and_eq_true, Bool.not_eq_true', Bool.not_eq_true'] at hrest
  exact ⟨hrest.1, hrest.2,
    startsPunct_of_first (by decide : "::".toList = [':', ':']) hrest.2⟩

/-- More segments of a path, each behind two colons. -/
def moreOf (segments : List Node) : List Node := segments.flatMap fun own => [.punct "::", own]

theorem joinSegments_cons (first : Node) (segments : List Node) :
    joinSegments (first :: segments) = first :: moreOf segments := by
  induction segments generalizing first with
  | nil => rfl
  | cons second rest ih =>
      rw [joinSegments, ih]
      · rfl
      · exact List.cons_ne_nil _ _

theorem lexedAll_moreOf (own : Node) (segments : List Node) :
    Node.lexedAll (moreOf (own :: segments)) =
      .leaf (.punct ":" true) :: .punct ":" :: (own.lexed ++ Node.lexedAll (moreOf segments)) := by
  rw [moreOf, List.flatMap_cons, lexedAll_append]
  simp [moreOf]

theorem endsSegment_moreOf (hsegments : ∀ own ∈ segments, ReadsSegment inExpr own)
    (hrest : endsPath rest = true) :
    endsSegment (Node.lexedAll (moreOf segments) ++ rest) = true := by
  cases segments with
  | nil =>
      obtain ⟨hangle, -, hcolons⟩ := startsPunct_of_endsPath hrest
      change endsSegment rest = true
      rw [endsSegment, hangle, hcolons]
      rfl
  | cons own others =>
      obtain ⟨name, more, -, hlexed⟩ := (hsegments own List.mem_cons_self).word
      rw [lexedAll_moreOf, hlexed]
      rfl

theorem run_moreSegments (hsegments : ∀ own ∈ segments, ReadsSegment inExpr own)
    (hrest : endsPath rest = true) :
    (moreSegments reading inExpr).run (Node.lexedAll (moreOf segments) ++ rest) =
      .ok (moreOf segments, rest) := by
  refine run_many ?_
  induction segments with
  | nil =>
      refine .done ?_
      change (Input.startsPunct rest "::" && _) = false
      rw [(startsPunct_of_endsPath hrest).2.2, Bool.false_and]
  | cons own others ih =>
      obtain ⟨hown, hothers⟩ := List.forall_mem_cons.mp hsegments
      obtain ⟨name, more, -, hlexed⟩ := hown.word
      have hmore : moreOf (own :: others) = [.punct "::", own] ++ moreOf others := rfl
      rw [lexedAll_moreOf, hmore]
      refine .again ?_ ?_ ?_ (ih hothers)
      · rw [hlexed]
        rfl
      · refine (run_bind_to (.punct "::") rfl).trans (run_bind_of ?_)
        have hown := hown.recovers _ (endsSegment_moreOf hothers hrest)
        rwa [← List.append_assoc] at hown
      · rw [hlexed]
        simp only [List.length_append, List.length_cons]
        omega

theorem run_path (hleading : leading = [] ∨ leading = [.punct "::"])
    (hfirst : ReadsSegment inExpr first) (hsegments : ∀ own ∈ segments, ReadsSegment inExpr own)
    (hrest : endsPath rest = true) :
    (path reading inExpr).run
        ((Node.phrase .path (leading ++ joinSegments (first :: segments))).lexed ++ rest) =
      .ok (.phrase .path (leading ++ joinSegments (first :: segments)), rest) := by
  have hlexed : (Node.phrase .path (leading ++ joinSegments (first :: segments))).lexed ++ rest =
      Node.lexedAll leading ++
        (first.lexed ++ (Node.lexedAll (moreOf segments) ++ rest)) := by
    simp [Kind.isOpen, joinSegments_cons]
  have hleading : (punct? "::").run (Node.lexedAll leading ++
      (first.lexed ++ (Node.lexedAll (moreOf segments) ++ rest))) =
        .ok (leading, first.lexed ++ (Node.lexedAll (moreOf segments) ++ rest)) := by
    obtain ⟨name, more, -, hword⟩ := hfirst.word
    rcases hleading with rfl | rfl
    · rw [hword]
      rfl
    · rfl
  rw [hlexed, joinSegments_cons]
  refine (run_bind_of hleading).trans ?_
  refine (run_bind_of (hfirst.recovers _ (endsSegment_moreOf hsegments hrest))).trans ?_
  exact (run_bind_of (run_moreSegments hsegments hrest)).trans rfl

end Paths

/-- How the tokens of a path start, if it is one that may be a type. -/
inductive StartsPath : Input → Prop
  | word {name : String} {more : Input} (hname : isPathWord name = true)
      (hmore : more.startsPunct "#" = false) : StartsPath (.ident name :: more)
  | root (more : Input) : StartsPath (.leaf (.punct ":" true) :: .punct ":" :: more)

/-- A path that is read as it is written, in a type or in an expression. -/
structure ReadsPath (inExpr : Bool) (path : Node) : Prop where
  isPath : ∃ parts, path = .phrase .path parts
  starts : StartsPath path.lexed
  noWord : Input.startsAnyWord path.lexed.tail = false
  steady : Steady path
  recovers : Recovers (Syntax.path reading inExpr) endsPath path.lexed path

section Paths

variable {rest : Input} {inExpr plus : Bool} {first path : Node} {segments : List Node}

theorem isSegmentWord_of_isPathWord {name : String} (hname : isPathWord name = true) :
    isSegmentWord name = true := by
  simp only [isPathWord, Input.startsPathWord, Input.startsOneOf, Input.startsName,
    Input.startsWord, Node.ident, List.any_cons, List.any_nil, Bool.or_false, Bool.or_eq_true,
    beq_iff_eq] at hname
  rcases hname with hname | rfl | rfl | rfl | rfl
  · rw [isSegmentWord, hname, Bool.true_or]
  all_goals rfl

theorem startsPunct_append {tokens : Input} {c : String} (hc : c.toList.length = 1)
    (htokens : tokens.startsPunct c = false) (hrest : rest.startsPunct c = false) :
    Input.startsPunct (tokens ++ rest) c = false := by
  cases tokens with
  | nil => exact hrest
  | cons node more =>
      obtain ⟨only, honly⟩ := List.length_eq_one_iff.mp hc
      rw [Input.startsPunct, honly] at htokens ⊢
      cases node with
      | leaf token => cases token <;> exact htokens
      | group delimiter body => rfl
      | phrase kind parts => rfl

theorem startsAnyWord_append {tokens : Input} (htokens : tokens.startsAnyWord = false)
    (hrest : rest.startsAnyWord = false) : Input.startsAnyWord (tokens ++ rest) = false := by
  cases tokens with
  | nil => exact hrest
  | cons node more =>
      cases node with
      | leaf token => cases token <;> exact htokens
      | group delimiter body => rfl
      | phrase kind parts => rfl

theorem startsOneOf_of_noWord {tokens : Input} (htokens : tokens.startsAnyWord = false)
    {words : List String} : tokens.startsOneOf words = false := by
  refine List.any_eq_false.mpr fun word _ hword => ?_
  cases tokens with
  | nil => cases hword
  | cons node more =>
      cases node with
      | leaf token =>
          cases token with
          | ident name => cases htokens
          | _ => cases hword
      | group delimiter body => cases hword
      | phrase kind parts => cases hword

theorem StartsPath.ne_nil {tokens : Input} (hstarts : StartsPath tokens) : tokens ≠ [] := by
  cases hstarts <;> exact List.cons_ne_nil _ _

theorem not_attributes_of_mem_joinSegments (hsegments : ∀ own ∈ segments, ReadsSegment inExpr own) :
    ∀ part ∈ joinSegments segments, part.is .attributes = false := by
  have hown : ∀ {own : Node}, ReadsSegment inExpr own → own.is .attributes = false := by
    intro own hown
    have hkind := hown.isSegment
    rw [Node.is, beq_iff_eq] at hkind
    rw [Node.is, hkind]
    rfl
  cases segments with
  | nil => exact fun _ hmem => nomatch hmem
  | cons first rest =>
      obtain ⟨hfirst, hrest⟩ := List.forall_mem_cons.mp hsegments
      rw [joinSegments_cons, List.forall_mem_cons]
      refine ⟨hown hfirst, fun part hmem => ?_⟩
      obtain ⟨own, hmem, hpart⟩ := List.mem_flatMap.mp hmem
      rcases List.mem_cons.mp hpart with rfl | hpart
      · rfl
      · rw [List.mem_singleton.mp hpart]
        exact hown (hrest own hmem)

theorem startsAnyWord_moreOf (segments : List Node) :
    Input.startsAnyWord (Node.lexedAll (moreOf segments)) = false := by
  cases segments <;> rfl

theorem lexed_pathOf {name : String} {more : Input} (hlexed : first.lexed = .ident name :: more) :
    (pathOf (first :: segments)).lexed =
      .ident name :: (more ++ Node.lexedAll (moreOf segments)) := by
  simp [pathOf, Kind.isOpen, joinSegments_cons, hlexed]

theorem lexed_absolutePath (segments : List Node) : (absolutePath segments).lexed =
    .leaf (.punct ":" true) :: .punct ":" :: Node.lexedAll (joinSegments segments) := by
  simp [absolutePath, Kind.isOpen]

theorem readsPath_pathOf {name : String} (hname : isPathWord name = true) {more : Input}
    (hlexed : first.lexed = .ident name :: more) (hmark : more.startsPunct "#" = false)
    (hmore : more.startsAnyWord = false) (hsegments : ∀ own ∈ first :: segments, ReadsSegment inExpr own) :
    ReadsPath inExpr (pathOf (first :: segments)) where
  isPath := ⟨_, rfl⟩
  starts := by
    rw [lexed_pathOf hlexed]
    refine .word hname (startsPunct_append (by decide) hmark ?_)
    cases segments <;> rfl
  noWord := by
    rw [lexed_pathOf hlexed]
    exact startsAnyWord_append hmore (startsAnyWord_moreOf segments)
  steady := steady_phrase rfl rfl (not_attributes_of_mem_joinSegments hsegments)
  recovers rest hrest := by
    obtain ⟨hfirst, hsegments⟩ := List.forall_mem_cons.mp hsegments
    exact run_path (.inl rfl) hfirst hsegments hrest

theorem readsPath_absolutePath (hsegments : ∀ own ∈ first :: segments, ReadsSegment inExpr own) :
    ReadsPath inExpr (absolutePath (first :: segments)) where
  isPath := ⟨_, rfl⟩
  starts := by
    rw [lexed_absolutePath]
    exact .root _
  noWord := by
    rw [lexed_absolutePath]
    rfl
  steady := steady_phrase rfl rfl
    (List.forall_mem_cons.mpr ⟨rfl, not_attributes_of_mem_joinSegments hsegments⟩)
  recovers rest hrest := by
    obtain ⟨hfirst, hsegments⟩ := List.forall_mem_cons.mp hsegments
    exact run_path (.inr rfl) hfirst hsegments hrest

/-- What may follow a type that is a path, where no more bounds are asked for. -/
def endsBound (input : Input) : Bool :=
  endsPath input && !input.startsGroup .paren && !(input.startsPunct "!" || input.startsPunct "#")

/-- What may follow a type that is a path. -/
def endsType (input : Input) : Bool := endsBound input && !input.startsPunct "+"

theorem run_withParenArgs (rounds : Nat) (parts : List Node)
    (hrest : startsParenArgs rest = false) :
    (withParenArgs reading rounds parts).run rest = .ok (parts, rest) := by
  cases rounds with
  | zero => rfl
  | succ rounds =>
      unfold withParenArgs
      split
      · refine (run_bind_of (run_peek _)).trans ?_
        rw [hrest]
        rfl
      · rfl

theorem StartsPath.append {tokens : Input} (hstarts : StartsPath tokens)
    (hrest : rest.startsPunct "#" = false) : StartsPath (tokens ++ rest) := by
  cases hstarts with
  | word hname hmore => exact .word hname (startsPunct_append (by decide) hmore hrest)
  | root more => exact .root (more ++ rest)

theorem StartsPath.startsPunct_eq_false {tokens : Input} (hstarts : StartsPath tokens) :
    tokens.startsPunct "<" = false := by
  cases hstarts <;> rfl

theorem run_typePath (hpath : ReadsPath false path) (hrest : endsBound rest = true) :
    (typePath reading).run (path.lexed ++ rest) = .ok (pathType path, rest) := by
  simp only [endsBound, Bool.and_eq_true, Bool.not_eq_true', Bool.or_eq_false_iff] at hrest
  obtain ⟨⟨hends, hparen⟩, -, hmark⟩ := hrest
  have hargs : startsParenArgs rest = false := by
    rw [startsParenArgs, hparen, (startsPunct_of_endsPath hends).2.2]
    rfl
  have hangle := (hpath.starts.append hmark).startsPunct_eq_false
  refine (run_bind_of (run_peek _)).trans ((run_bind_of (run_peek _)).trans ?_)
  rw [hangle]
  refine (run_bind_of (hpath.recovers rest hends)).trans ?_
  obtain ⟨parts, rfl⟩ := hpath.isPath
  exact (run_bind_of (run_withParenArgs _ _ hargs)).trans rfl

theorem startsWord_of_isPathWord {name word : String} (hname : isPathWord name = true)
    (hword : isPathWord word = false) : Input.startsWord (.ident name :: rest) word = false := by
  rw [startsWord_ident, beq_eq_false_iff_ne]
  rintro rfl
  rw [hname] at hword
  cases hword

theorem StartsPath.startsWord_eq_false {tokens : Input} (hstarts : StartsPath tokens)
    {word : String} (hword : isPathWord word = false) : tokens.startsWord word = false := by
  cases hstarts with
  | word hname hmore => exact startsWord_of_isPathWord hname hword
  | root more => rfl

theorem StartsPath.startsOneOf_eq_false {tokens : Input} (hstarts : StartsPath tokens)
    {words : List String} (hwords : words.all (fun word => !isPathWord word) = true) :
    tokens.startsOneOf words = false := by
  refine List.any_eq_false.mpr fun word hmem => ?_
  rw [hstarts.startsWord_eq_false (by simpa using List.all_eq_true.mp hwords word hmem)]
  exact Bool.false_ne_true

theorem run_typeRule_path {input : Input} (hstarts : StartsPath input) :
    (typeRule reading plus).run input = (pathLikeType reading plus []).run input := by
  refine (run_bind_of (run_orNothing_of (hstarts.startsWord_eq_false (by decide)))).trans ?_
  refine run_get_bind.trans ?_
  rw [hstarts.startsOneOf_eq_false (by decide)]
  cases hstarts with
  | @word name more hname hmore =>
      have hword : Input.startsPathWord (.ident name :: more) = true := hname
      rw [hword]
      rfl
  | root more => rfl

theorem run_pathType (hpath : ReadsPath false path) (hrest : endsBound rest = true)
    (hplus : (plus && rest.startsPunct "+") = false) :
    (reading (.type plus)).run ((pathType path).lexed ++ rest) = .ok (pathType path, rest) := by
  have hlexed : (pathType path).lexed = path.lexed := by simp [pathType, Kind.isOpen]
  have htype := run_typePath hpath hrest
  simp only [endsBound, Bool.and_eq_true, Bool.not_eq_true', Bool.or_eq_false_iff] at hrest
  obtain ⟨-, hmark, hnumber⟩ := hrest
  rw [hlexed, run_reading]
  refine (run_typeRule_path (hpath.starts.append hnumber)).trans ((run_bind_of htype).trans ?_)
  refine (run_bind_of (run_peek _)).trans ?_
  rw [hmark]
  refine (run_bind_of (run_peek _)).trans ?_
  rw [hplus]
  rfl

theorem recovers_pathType (hpath : ReadsPath false path) :
    Recovers (reading (.type plus)) endsType (pathType path).lexed (pathType path) := by
  intro rest hrest
  rw [endsType, Bool.and_eq_true, Bool.not_eq_true'] at hrest
  exact run_pathType hpath hrest.1 (by rw [hrest.2, Bool.and_false])

theorem endsType_of_closes (hrest : closes rest = true) : endsType rest = true := by
  rw [endsType, endsBound, endsPath]
  rw [startsPunct_of_closes hrest (by decide : "<".toList = ['<']) (by decide) (by decide),
    startsPunct_of_closes hrest (by decide : ":".toList = [':']) (by decide) (by decide),
    startsPunct_of_closes hrest (by decide : "!".toList = ['!']) (by decide) (by decide),
    startsPunct_of_closes hrest (by decide : "+".toList = ['+']) (by decide) (by decide),
    startsPunct_of_closes hrest (by decide : "#".toList = ['#']) (by decide) (by decide)]
  cases rest with
  | nil => rfl
  | cons node more =>
      cases node with
      | leaf token => rfl
      | group delimiter body => cases hrest
      | phrase kind parts => rfl

theorem readsType_pathType (hpath : ReadsPath false path) : ReadsType (pathType path) :=
  fun rest hrest => recovers_pathType hpath rest (endsType_of_closes hrest)

/-! ### The types of generated code -/

theorem readsPath_names {first : String} {names : List String} (hfirst : isPathWord first = true)
    (hnames : ∀ name ∈ names, isSegmentWord name = true) :
    ReadsPath inExpr (namePath (first :: names)) := by
  refine @readsPath_pathOf _ _ _ _ hfirst [] rfl rfl rfl (List.forall_mem_cons.mpr ⟨?_, ?_⟩)
  · exact readsSegment_segmentOf (isSegmentWord_of_isPathWord hfirst)
  · exact List.forall_mem_map.mpr fun name hmem => readsSegment_segmentOf (hnames name hmem)

theorem readsPath_name {name : String} (hname : isPathWord name = true) :
    ReadsPath inExpr (pathOf [segmentOf name]) :=
  @readsPath_names _ name [] hname fun _ hmem => nomatch hmem

theorem readsType_namedType {name : String} (hname : isName name = true) :
    ReadsType (namedType name) :=
  readsType_pathType (readsPath_name (isPathWord_of_isName hname))

theorem readsPath_rootPath {first : String} {names : List String}
    (hnames : ∀ name ∈ first :: names, isSegmentWord name = true) :
    ReadsPath inExpr (rootPath (first :: names)) :=
  readsPath_absolutePath (List.forall_mem_map.mpr fun name hmem =>
    readsSegment_segmentOf (hnames name hmem))

theorem readsPath_rootGeneric {names : List String} {name : String} {type : Node}
    (hnames : ∀ name ∈ names, isSegmentWord name = true) (hname : isName name = true)
    (htype : ReadsType type) : ReadsPath false (absolutePath (names.map segmentOf ++
      [.phrase .segment [.ident name, .phrase .genericArgs [.punct "<", type, .punct ">"]]])) := by
  have hsegments : ∀ own ∈ names.map segmentOf ++ [Node.phrase .segment
      [.ident name, .phrase .genericArgs [.punct "<", type, .punct ">"]]],
      ReadsSegment false own := by
    refine List.forall_mem_append.mpr ⟨List.forall_mem_map.mpr fun name hmem =>
      readsSegment_segmentOf (hnames name hmem), ?_⟩
    exact List.forall_mem_singleton.mpr (readsSegment_arguments hname htype)
  obtain ⟨first, others, heq⟩ := List.exists_cons_of_ne_nil
    (List.append_ne_nil_of_right_ne_nil (names.map segmentOf) (List.cons_ne_nil
      (Node.phrase .segment [.ident name, .phrase .genericArgs [.punct "<", type, .punct ">"]]) []))
  rw [heq] at hsegments ⊢
  exact readsPath_absolutePath hsegments

theorem run_reference {lifetime : List Node} {input : Input} {type : Node}
    (hlifetime : lifetime?.run (Node.lexedAll lifetime ++ input) = .ok (lifetime, input))
    (hmut : (word? "mut").run input = .ok ([], input))
    (htype : (reading (.type false)).run input = .ok (type, rest)) :
    (reading (.type plus)).run (.punct "&" :: (Node.lexedAll lifetime ++ input)) =
      .ok (.phrase .referenceType (.punct "&" :: lifetime ++ [type]), rest) := by
  have hrule : (typeRule reading plus).run (.punct "&" :: (Node.lexedAll lifetime ++ input)) = (do
      let lifetime ← lifetime?
      let mutability ← word? "mut"
      return .phrase .referenceType
        (.punct "&" :: lifetime ++ mutability ++ [← reading (.type false)]) : Parser Node).run
          (Node.lexedAll lifetime ++ input) := rfl
  rw [run_reading]
  refine hrule.trans ((run_bind_of hlifetime).trans ((run_bind_of hmut).trans ?_))
  refine (run_bind_of htype).trans ?_
  rw [List.append_nil]
  rfl

/-- A reference to a type that is a path, perhaps with a lifetime. -/
theorem recovers_reference {lifetime : List Node}
    (hlifetime : lifetime = [] ∨ ∃ name, lifetime = [.leaf (.lifetime name)])
    (hpath : ReadsPath false path) :
    Recovers (reading (.type plus)) endsType
      (Node.phrase .referenceType (.punct "&" :: lifetime ++ [pathType path])).lexed
      (.phrase .referenceType (.punct "&" :: lifetime ++ [pathType path])) := by
  intro rest hrest
  have hnumber : rest.startsPunct "#" = false := by
    simp only [endsType, endsBound, Bool.and_eq_true, Bool.not_eq_true', Bool.or_eq_false_iff]
      at hrest
    exact hrest.1.2.2
  have htype := @recovers_pathType false path hpath rest hrest
  have hstarts : StartsPath ((pathType path).lexed ++ rest) := by
    have hsame : (pathType path).lexed = path.lexed := by simp [pathType, Kind.isOpen]
    rw [hsame]
    exact hpath.starts.append hnumber
  have hlexed : (Node.phrase .referenceType (.punct "&" :: lifetime ++ [pathType path])).lexed ++
      rest = .punct "&" :: (Node.lexedAll lifetime ++ ((pathType path).lexed ++ rest)) := by
    simp [Kind.isOpen]
  rw [hlexed]
  generalize (pathType path).lexed ++ rest = input at htype hstarts
  refine run_reference ?_ (run_orNothing_of (hstarts.startsWord_eq_false (by decide))) htype
  rcases hlifetime with rfl | ⟨name, rfl⟩
  · refine run_orNothing_of ?_
    cases hstarts <;> rfl
  · rfl

end Paths

end EntityTables.Syntax
