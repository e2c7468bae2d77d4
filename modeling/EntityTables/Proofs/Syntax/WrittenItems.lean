import EntityTables.Proofs.Steps
import EntityTables.Proofs.Syntax.WrittenMembers

/-!
# Items that are read back

The items of generated code and the file they make up. The file is read from the tokens of its
items, each as an item of the same kind: a function with the same signature, and an implementation
for the same type with members that belong to those that were written.
-/

namespace EntityTables.Syntax

open EntityTables.Syntax.Parser

/-! ### Runs of parts up to the end -/

/-- A parser reads a tree off the front of any input as another tree. -/
structure ReadsAs (parser : Parser Node) (written read : Node) : Prop where
  nonempty : written.lexed ≠ []
  recovers : ∀ rest, parser.run (written.lexed ++ rest) = .ok (read, rest)

theorem run_many_all {parser : Parser Node} {written read : List Node}
    (hall : List.Forall₂ (ReadsAs parser) written read) :
    (many (fun input => !input.isEmpty) (one parser)).run (Node.lexedAll written) =
      .ok (read, []) := by
  refine run_many ?_
  induction hall with
  | nil => exact .done rfl
  | @cons first own others more hfirst hothers ih =>
      have hinput : (!List.isEmpty (first.lexed ++ Node.lexedAll others)) = true := by
        rw [isEmpty_append_eq_false hfirst.nonempty]
        rfl
      exact .again hinput (run_one_eq_ok.mpr ⟨own, rfl, hfirst.recovers _⟩)
        (length_lt_of_ne_nil hfirst.nonempty) ih

/-! ### Items -/

/-- How an item is read, as far as a scan of the file asks. -/
inductive ItemReading : Node → Node → Prop
  | function {attributes read : List Node} (hattributes : List.Forall₂ ReadsAttribute attributes read)
      (visibility : Node) (signature : Signature) {body inside : List Node}
      (hbody : ∀ node ∈ body, node.is .attributes = false)
      (hinside : ∀ node ∈ inside, node.is .attributes = false) :
      ItemReading (.phrase .fnItem [.phrase .attributes attributes, visibility, signature.toNode,
          braces body])
        (.phrase .fnItem [.phrase .attributes read, visibility, signature.toNode, braces inside])
  | implementation (generics : Node) (implFor : List Node) (type : Node) {members read : List Node}
      (hmembers : List.Forall₂ MemberForm members read) :
      ItemReading (implItemOf generics implFor type members)
        (implItemOf generics implFor type read)
  | other {kind : Kind} (hkind : kind ∈ [Kind.structItem, .traitItem, .useItem])
      (written read : List Node) : ItemReading (.phrase kind written) (.phrase kind read)

/-- An item that is read, wherever a file goes on after it. -/
structure ReadsItem (item : Node) : Prop where
  starts : ∀ rest, startsInnerAttribute (item.lexed ++ rest) = false
  recovers : ∃ read, ItemReading item read ∧ ReadsAs (reading .item) item read

section Items

variable {attributes read members : List Node} {visibility type trait : Node} {signature : Signature}
  {body : List Node} {name word : String} {more : Input}

/-- An item is read as its front and what the word behind that begins. -/
theorem readsItem_of_run {item own : Node} (hattributes : List.Forall₂ ReadsAttribute attributes read)
    (hvisibility : IsWrittenVisibility visibility)
    (hlexed : ∀ rest, item.lexed ++ rest =
      Node.lexedAll attributes ++ (visibility.lexed ++ .ident word :: (more ++ rest)))
    (hform : ItemReading item own)
    (hrun : ∀ rest, (reading .item).run
      (Node.lexedAll attributes ++ (visibility.lexed ++ .ident word :: (more ++ rest))) =
        .ok (own, rest)) : ReadsItem item := by
  refine ⟨fun rest => ?_, own, hform, ?_, fun rest => ?_⟩
  · rw [hlexed]
    exact startsInnerAttribute_front hattributes hvisibility
  · rw [← List.append_nil (Node.lexed _), hlexed]
    exact List.append_ne_nil_of_right_ne_nil _ (List.append_ne_nil_of_right_ne_nil _
      (List.cons_ne_nil _ _))
  · rw [hlexed]
    exact hrun rest

/-- A function that everyone sees. -/
theorem readsItem_function (hattributes : List.Forall₂ ReadsAttribute attributes read)
    (hsignature : ReadsSignature signature) (hbody : ReadsBody body) :
    ReadsItem (.phrase .fnItem [.phrase .attributes attributes, publicly, signature.toNode,
      braces body]) := by
  obtain ⟨inside, hinside, hplain⟩ := hbody.run_attributedBlock
  have hlexed : ∀ rest, (Node.phrase .fnItem [.phrase .attributes attributes, publicly,
      signature.toNode, braces body]).lexed ++ rest = Node.lexedAll attributes ++
        (publicly.lexed ++ .ident "fn" :: ((.ident signature.name ::
          .group .paren (Node.lexedAll (commaSeparated signature.inputs)) ::
            (signature.output.lexed ++ [.group .brace (Node.lexedAll body)])) ++ rest)) := by
    intro rest
    simp [braces, lexed_toNode, Kind.isOpen]
  refine readsItem_of_run hattributes (.inl rfl) hlexed
    (.function hattributes publicly signature hbody.plain hplain) fun rest => ?_
  have hrun : (Syntax.signature reading false).run (.ident "fn" :: .ident signature.name ::
      .group .paren (Node.lexedAll (commaSeparated signature.inputs)) ::
        (signature.output.lexed ++ .group .brace (Node.lexedAll body) :: rest)) =
          .ok (signature.toNode, .group .brace (Node.lexedAll body) :: rest) := by
    have hrun : (Syntax.signature reading false).run
        (signature.toNode.lexed ++ .group .brace (Node.lexedAll body) :: rest) =
          .ok (signature.toNode, .group .brace (Node.lexedAll body) :: rest) := hsignature.run rfl
    rwa [lexed_toNode] at hrun
  rw [run_reading, List.cons_append, List.cons_append, List.append_assoc]
  refine (run_bind_of (run_itemFront hattributes (.inl rfl) (by decide))).trans ?_
  refine run_get_bind.trans ((run_bind_of hrun).trans ((run_bind_to false rfl).trans ?_))
  exact (run_bind_of (hinside rest)).trans rfl

/-- A struct without fields. -/
theorem readsItem_unitStruct (hattributes : List.Forall₂ ReadsAttribute attributes read)
    (hname : isName name = true) : ReadsItem (publicStruct attributes name (.punct ";")) := by
  have hlexed : ∀ rest, (publicStruct attributes name (.punct ";")).lexed ++ rest =
      Node.lexedAll attributes ++ (publicly.lexed ++ .ident "struct" ::
        ([.ident name, .punct ";"] ++ rest)) := by
    intro rest
    simp [publicStruct, Kind.isOpen]
  have hform : ItemReading (publicStruct attributes name (.punct ";"))
      (publicStruct read name (.punct ";")) := .other (by decide) _ _
  refine readsItem_of_run hattributes (.inl rfl) hlexed hform fun rest => ?_
  rw [run_reading]
  refine (run_bind_of (run_itemFront hattributes (.inl rfl) (by decide))).trans ?_
  refine run_get_bind.trans ((run_bind_to (.ident "struct") rfl).trans ?_)
  refine (run_bind_of (run_name hname)).trans ((run_bind_to (.empty .generics) rfl).trans ?_)
  refine (run_bind_to false rfl).trans ((run_bind_to (.empty .whereClause) rfl).trans ?_)
  exact (run_bind_to false rfl).trans rfl

/-- A struct with one field that is private. -/
theorem readsItem_wrapper {field : String}
    (hattributes : List.Forall₂ ReadsAttribute attributes read) (hname : isName name = true)
    (hfield : isName field = true) (htype : ReadsType type) :
    ReadsItem (publicStruct attributes name (braces [privateField field type])) := by
  have hlexed : ∀ rest, (publicStruct attributes name (braces [privateField field type])).lexed ++
      rest = Node.lexedAll attributes ++ (publicly.lexed ++ .ident "struct" ::
        ([.ident name, .group .brace (.ident field :: .punct ":" :: type.lexed)] ++ rest)) := by
    intro rest
    simp [publicStruct, braces, privateField, Kind.isOpen]
  have hform : ItemReading (publicStruct attributes name (braces [privateField field type]))
      (publicStruct read name (braces [privateField field type])) := .other (by decide) _ _
  have hparse : (namedField reading).run (.ident field :: .punct ":" :: type.lexed) =
      .ok (privateField field type, []) := by
    have hread := htype [] rfl
    rw [List.append_nil] at hread
    have hnamed : nameOrUnderscore.run (.ident field :: .punct ":" :: type.lexed) =
        .ok (.ident field, .punct ":" :: type.lexed) :=
      run_when_eq_ok.mpr ⟨Bool.or_eq_true_iff.mpr (.inl hfield), rfl⟩
    have hplain : Node.isIdent "_" (.ident field) = false := by
      refine beq_eq_false_iff_ne.mpr fun heq => ?_
      obtain rfl := Option.some.inj heq
      cases hfield
    have hvisibility : Syntax.visibility.run (.ident field :: .punct ":" :: type.lexed) =
        .ok (.empty .visibility, .ident field :: .punct ":" :: type.lexed) :=
      run_visibility (.inr rfl) (fun heq => by subst heq; cases hfield)
    refine (run_bind_to (.empty .attributes) rfl).trans ((run_bind_of hvisibility).trans ?_)
    refine (run_bind_of hnamed).trans ((run_bind_of (run_punct_single (by decide) _)).trans ?_)
    refine run_get_bind.trans ?_
    rw [hplain]
    exact (run_bind_of hread).trans rfl
  have hfields (rest : Input) : (namedFields reading).run
      (.group .brace (.ident field :: .punct ":" :: type.lexed) :: rest) =
        .ok (braces [privateField field type], rest) := by
    refine run_group_eq_ok.mpr ⟨_, _, rfl, ?_, rfl⟩
    exact run_separated (.last rfl (run_one_eq_ok.mpr ⟨_, rfl, hparse⟩) rfl (Nat.succ_pos _))
  refine readsItem_of_run hattributes (.inl rfl) hlexed hform fun rest => ?_
  rw [run_reading]
  refine (run_bind_of (run_itemFront hattributes (.inl rfl) (by decide))).trans ?_
  refine run_get_bind.trans ((run_bind_to (.ident "struct") rfl).trans ?_)
  refine (run_bind_of (run_name hname)).trans ((run_bind_to (.empty .generics) rfl).trans ?_)
  refine (run_bind_to false rfl).trans ((run_bind_to (.empty .whereClause) rfl).trans ?_)
  exact (run_bind_to true rfl).trans ((run_bind_of (hfields rest)).trans rfl)

/-! ### Imports -/

/-- The tokens of a use of all that stands below some names. -/
def globTokens : List String → Input
  | [] => [.punct "*"]
  | name :: rest => .ident name :: .leaf (.punct ":" true) :: .punct ":" :: globTokens rest

/-- The tree that the use is read as. -/
def globTree : List String → Node
  | [] => .phrase .useTree [.punct "*"]
  | name :: rest => .phrase .useTree [.ident name, .punct "::", globTree rest]

theorem lexedAll_glob (first : String) (names : List String) :
    Node.lexedAll (joinSegments ((first :: names).map segmentOf)) ++
      [.leaf (.punct ":" true), .punct ":", .punct "*"] = globTokens (first :: names) := by
  rw [List.map_cons, joinSegments_cons, lexedAll_cons]
  induction names generalizing first with
  | nil => rfl
  | cons second rest ih =>
      have hmore := ih second
      rw [List.map_cons, lexedAll_moreOf, globTokens, ← hmore]
      rfl

theorem run_useTree {names : List String} (hnames : ∀ name ∈ names, isSegmentWord name = true)
    (rest : Input) : (reading .useTree).run (globTokens names ++ rest) = .ok (globTree names, rest) := by
  induction names with
  | nil =>
      rw [run_reading]
      rfl
  | cons name others ih =>
      obtain ⟨hname, hothers⟩ := List.forall_mem_cons.mp hnames
      have hstarts : (Input.startsPathWord (globTokens (name :: others) ++ rest) ||
          Input.startsWord (globTokens (name :: others) ++ rest) "try") = true := by
        simp only [isSegmentWord, List.contains_cons, List.contains_nil, Bool.or_false,
          Bool.or_eq_true, beq_iff_eq] at hname
        rcases hname with hname | rfl | rfl | rfl | rfl | rfl
        · exact Bool.or_eq_true_iff.mpr (.inl (Bool.or_eq_true_iff.mpr (.inl hname)))
        all_goals rfl
      rw [run_reading]
      refine run_get_bind.trans ?_
      rw [hstarts, if_pos rfl]
      refine (run_bind_to (.ident name) rfl).trans ((run_bind_to true rfl).trans ?_)
      refine (run_bind_to (.punct "::") rfl).trans ((run_bind_of (ih hothers)).trans rfl)

/-- A use of all that stands below a path of names. -/
theorem readsItem_import {first : String} {names : List String}
    (hattributes : List.Forall₂ ReadsAttribute attributes read)
    (hnames : ∀ name ∈ first :: names, isSegmentWord name = true) {path : Node}
    (hpath : path = pathOf ((first :: names).map segmentOf) ∨
      path = absolutePath ((first :: names).map segmentOf)) :
    ReadsItem (.phrase .useItem [.phrase .attributes attributes, .empty .visibility, .ident "use",
      .phrase .useTree [path, .punct "::", .punct "*"], .punct ";"]) := by
  obtain ⟨leading, hleading, hpath⟩ : ∃ leading, (leading = [] ∨ leading = [.punct "::"]) ∧
      path = .phrase .path (leading ++ joinSegments ((first :: names).map segmentOf)) := by
    rcases hpath with rfl | rfl
    · exact ⟨[], .inl rfl, rfl⟩
    · exact ⟨[.punct "::"], .inr rfl, rfl⟩
  have hglob := lexedAll_glob first names
  have hlexed : ∀ rest, (Node.phrase .useItem [.phrase .attributes attributes, .empty .visibility,
      .ident "use", .phrase .useTree [path, .punct "::", .punct "*"], .punct ";"]).lexed ++ rest =
        Node.lexedAll attributes ++ ((Node.empty .visibility).lexed ++ .ident "use" ::
          ((Node.lexedAll leading ++ (globTokens (first :: names) ++ [.punct ";"])) ++ rest)) := by
    intro rest
    rw [← hglob, hpath]
    simp [Kind.isOpen]
  have htree (rest : Input) : (reading .useTree).run (globTokens (first :: names) ++ rest) =
      .ok (globTree (first :: names), rest) := run_useTree hnames rest
  have hform : ItemReading (.phrase .useItem [.phrase .attributes attributes, .empty .visibility,
      .ident "use", .phrase .useTree [path, .punct "::", .punct "*"], .punct ";"])
        (.phrase .useItem ([.phrase .attributes read, .empty .visibility] ++
          .ident "use" :: leading ++ [globTree (first :: names), .punct ";"])) :=
    .other (by decide) _ _
  refine readsItem_of_run hattributes (.inr rfl) hlexed hform fun rest => ?_
  rw [run_reading, List.append_assoc, List.append_assoc]
  refine (run_bind_of (run_itemFront hattributes (.inr rfl) (by decide))).trans ?_
  refine run_get_bind.trans ((run_bind_to (.ident "use") rfl).trans ?_)
  rcases hleading with rfl | rfl
  · refine (run_bind_to [] rfl).trans ?_
    have hroot : (rootUseTree reading).run (globTokens (first :: names) ++ .punct ";" :: rest) =
        .ok (globTree (first :: names), .punct ";" :: rest) := htree _
    exact (run_bind_of hroot).trans rfl
  · refine (run_bind_to [.punct "::"] rfl).trans ?_
    exact (run_bind_of (htree (.punct ";" :: rest))).trans rfl

/-! ### Implementations -/

theorem readsAs_members (hmembers : ∀ member ∈ members, ReadsMember member) :
    ∃ inside, List.Forall₂ MemberForm members inside ∧
      List.Forall₂ (ReadsAs (implMember reading)) members inside := by
  induction members with
  | nil => exact ⟨[], .nil, .nil⟩
  | cons member rest ih =>
      obtain ⟨hmember, hrest⟩ := List.forall_mem_cons.mp hmembers
      obtain ⟨own, hform, hown⟩ := hmember.recovers
      obtain ⟨others, hforms, hothers⟩ := ih hrest
      exact ⟨own :: others, .cons hform hforms, .cons ⟨hmember.nonempty, hown⟩ hothers⟩

theorem run_innerAttributes_none {input : Input} (hinput : startsInnerAttribute input = false) :
    (innerAttributes reading).run input = .ok (.empty .attributes, input) :=
  (run_bind_of (run_many_of_eq_false hinput)).trans rfl

theorem run_innerAttributes?_none {input : Input} (hinput : startsInnerAttribute input = false) :
    (innerAttributes? reading).run input = .ok ([], input) :=
  (run_bind_of (run_innerAttributes_none hinput)).trans rfl

/-- The members of an implementation, in their braces. -/
def implMembers : Parser Node :=
  Parser.group .brace do
    return (← innerAttributes? reading) ++
      (← many (fun input => !input.isEmpty) (one (implMember reading)))

theorem run_implMembers {inside : List Node} (hmembers : ∀ member ∈ members, ReadsMember member)
    (hinside : List.Forall₂ (ReadsAs (implMember reading)) members inside) (rest : Input) :
    implMembers.run (.group .brace (Node.lexedAll members) :: rest) = .ok (braces inside, rest) := by
  have hstarts : startsInnerAttribute (Node.lexedAll members) = false := by
    cases members with
    | nil => rfl
    | cons member rest => exact (hmembers member List.mem_cons_self).starts _
  refine run_group_eq_ok.mpr ⟨_, _, rfl, ?_, rfl⟩
  refine (run_bind_of (run_innerAttributes?_none hstarts)).trans ?_
  exact (run_bind_of (run_many_all hinside)).trans rfl

/-- Parameters that are read as they are written, in front of the path that is implemented. -/
def ReadsGenerics (generics : Node) : Prop :=
  ∀ tail, StartsPath tail →
    (Input.startsGenerics (generics.lexed ++ tail) = true ∧
      (Syntax.generics reading).run (generics.lexed ++ tail) = .ok (generics, tail)) ∨
    (Input.startsGenerics (generics.lexed ++ tail) = false ∧ generics = .empty .generics)

theorem readsGenerics_none : ReadsGenerics (.empty .generics) := by
  intro tail htail
  refine .inr ⟨?_, rfl⟩
  cases htail <;> rfl

theorem run_generics_then {generics : Node} (hgenerics : ReadsGenerics generics) {tail : Input}
    (htail : StartsPath tail) {next : Node → Parser Node} :
    (if Input.startsGenerics (generics.lexed ++ tail) = true then Syntax.generics reading >>= next
      else next (.empty .generics)).run (generics.lexed ++ tail) = (next generics).run tail := by
  rcases hgenerics tail htail with ⟨hstarts, hread⟩ | ⟨hstarts, rfl⟩
  · rw [hstarts, if_pos rfl]
    exact run_bind_of hread
  · rw [hstarts]
    rfl

/-- The parser of what follows the parameters of an implementation. -/
theorem run_implHead {tail : Input} {path : Node} (hpath : ReadsPath false path)
    (hends : endsType tail = true) :
    StartsPath (path.lexed ++ tail) ∧
      (reading (.type true)).run (path.lexed ++ tail) = .ok (pathType path, tail) := by
  have hlexed : (pathType path).lexed = path.lexed := by simp [pathType, Kind.isOpen]
  have hnumber : tail.startsPunct "#" = false := by
    simp only [endsType, endsBound, Bool.and_eq_true, Bool.not_eq_true', Bool.or_eq_false_iff]
      at hends
    exact hends.1.2.2
  exact ⟨hpath.starts.append hnumber, hlexed ▸ recovers_pathType hpath tail hends⟩

theorem startsConst_of_startsPath {tail : Input} (hstarts : StartsPath tail) :
    (tail.startsWord "const" || (tail.startsPunct "?" && tail.next.startsWord "const")) = false ∧
      (tail.startsPunct "!" && !tail.next.startsGroup .brace) = false := by
  have hconst := hstarts.startsWord_eq_false (by decide : isPathWord "const" = false)
  rw [hconst]
  cases hstarts <;> exact ⟨rfl, rfl⟩

/-- An implementation of a type for itself is read up to its members, which end it. -/
theorem run_ownImpl {path : Node} (hpath : ReadsPath false path) (body : List Node) (rest : Input) :
    (reading .item).run (.ident "impl" :: (path.lexed ++ .group .brace body :: rest)) =
      (implMembers >>= fun inside => (pure (.phrase .implItem [.empty .attributes,
        .empty .qualifiers, .ident "impl", .empty .generics, .empty .implFor, pathType path,
        .empty .whereClause, inside]) : Parser Node)).run (.group .brace body :: rest) := by
  have hbrace : endsType (.group .brace body :: rest) = true := rfl
  obtain ⟨hstarts, htype⟩ := run_implHead hpath hbrace
  obtain ⟨hconst, hnegative⟩ := startsConst_of_startsPath hstarts
  rw [run_reading]
  refine (run_bind_of (@run_itemFront [] [] _ "impl" _ .nil (.inr rfl) (by decide))).trans ?_
  refine run_get_bind.trans ((run_bind_to [] rfl).trans ((run_bind_to [] rfl).trans ?_))
  refine (run_bind_to (.ident "impl") rfl).trans ((run_bind_of (run_peek _)).trans ?_)
  refine (run_generics_then readsGenerics_none hstarts).trans ((run_bind_of (run_peek _)).trans ?_)
  dsimp only
  rw [hconst]
  refine run_get_bind.trans ((run_bind_of (run_orNothing_of hnegative)).trans ?_)
  refine (run_bind_of htype).trans ((run_bind_to false rfl).trans ((run_bind_to [] rfl).trans ?_))
  exact (run_bind_to (pathType path) rfl).trans (run_bind_to (Node.empty .whereClause) rfl)

/-- An implementation of a type for itself. -/
theorem readsItem_ownImpl {path : Node} (hpath : ReadsPath false path)
    (hmembers : ∀ member ∈ members, ReadsMember member) :
    ReadsItem (ownImpl (pathType path) members) := by
  obtain ⟨inside, hforms, hinside⟩ := readsAs_members hmembers
  have hlexed : ∀ rest, (ownImpl (pathType path) members).lexed ++ rest = Node.lexedAll [] ++
      ((Node.empty .visibility).lexed ++ .ident "impl" ::
        ((path.lexed ++ [.group .brace (Node.lexedAll members)]) ++ rest)) := by
    intro rest
    simp [ownImpl, implItemOf, pathType, braces, Kind.isOpen]
  refine readsItem_of_run .nil (.inr rfl) hlexed
    (.implementation (.empty .generics) [] (pathType path) hforms) fun rest => ?_
  rw [List.append_assoc]
  refine (run_ownImpl hpath (Node.lexedAll members) rest).trans ?_
  exact (run_bind_of (run_implMembers hmembers hinside rest)).trans rfl

/-- An implementation of a trait for a type, perhaps with parameters. -/
theorem readsItem_traitImpl {generics path : Node} (hgenerics : ReadsGenerics generics)
    (htrait : ReadsPath false trait) (hpath : ReadsPath false path)
    (hmembers : ∀ member ∈ members, ReadsMember member) :
    ReadsItem (implItemOf generics [trait, .ident "for"] (pathType path) members) := by
  obtain ⟨inside, hforms, hinside⟩ := readsAs_members hmembers
  have hlexed : ∀ rest, (implItemOf generics [trait, .ident "for"] (pathType path) members).lexed ++
      rest = Node.lexedAll [] ++ ((Node.empty .visibility).lexed ++ .ident "impl" ::
        ((generics.lexed ++ (trait.lexed ++ .ident "for" ::
          (path.lexed ++ [.group .brace (Node.lexedAll members)]))) ++ rest)) := by
    intro rest
    simp [implItemOf, pathType, braces, Kind.isOpen]
  refine readsItem_of_run .nil (.inr rfl) hlexed
    (.implementation generics [trait, .ident "for"] (pathType path) hforms) fun rest => ?_
  have hbrace : endsType (.group .brace (Node.lexedAll members) :: rest) = true := rfl
  obtain ⟨-, htype⟩ := run_implHead hpath hbrace
  have hfor : endsType (.ident "for" ::
      (path.lexed ++ .group .brace (Node.lexedAll members) :: rest)) = true := rfl
  obtain ⟨hstarts, hfirst⟩ := run_implHead htrait hfor
  obtain ⟨hconst, hnegative⟩ := startsConst_of_startsPath hstarts
  rw [run_reading, List.append_assoc, List.append_assoc, List.cons_append, List.append_assoc]
  refine (run_bind_of (run_itemFront .nil (.inr rfl) (by decide))).trans ?_
  refine run_get_bind.trans ((run_bind_to [] rfl).trans ((run_bind_to [] rfl).trans ?_))
  refine (run_bind_to (.ident "impl") rfl).trans ((run_bind_of (run_peek _)).trans ?_)
  refine (run_generics_then hgenerics hstarts).trans ((run_bind_of (run_peek _)).trans ?_)
  dsimp only
  rw [hconst]
  refine run_get_bind.trans ((run_bind_of (run_orNothing_of hnegative)).trans ?_)
  refine (run_bind_of hfirst).trans ((run_bind_to true rfl).trans ?_)
  refine (run_bind_to [trait, .ident "for"] rfl).trans ((run_bind_of htype).trans ?_)
  refine (run_bind_to (.empty .whereClause) rfl).trans ?_
  exact (run_bind_of (run_implMembers hmembers hinside rest)).trans rfl

/-! ### Traits -/

/-- A trait as a bound, in front of another bound or of what it bounds. -/
theorem run_bound {capture : Bool} {path : Node} {rest : Input} (hpath : ReadsPath false path)
    (hrest : endsBound rest = true) :
    (bound reading capture).run (path.lexed ++ rest) = .ok (.phrase .traitBound [path], rest) := by
  have hread : (reading (.type false)).run (path.lexed ++ rest) = .ok (pathType path, rest) := by
    have hlexed : (pathType path).lexed = path.lexed := by simp [pathType, Kind.isOpen]
    exact hlexed ▸ run_pathType hpath hrest rfl
  have hnumber : rest.startsPunct "#" = false := by
    simp only [endsBound, Bool.and_eq_true, Bool.not_eq_true', Bool.or_eq_false_iff] at hrest
    exact hrest.2.2
  have hstarts := hpath.starts.append hnumber
  obtain ⟨input, hinput⟩ : ∃ input : Input, path.lexed ++ rest = input := ⟨_, rfl⟩
  rw [hinput] at hread hstarts ⊢
  have hword : ∀ word, isPathWord word = false → input.startsWord word = false :=
    fun word => hstarts.startsWord_eq_false
  have hfront : input.startsLifetime = false ∧ input.startsGroup .paren = false ∧
      input.startsGroup .bracket = false ∧ input.startsPunct "~" = false ∧
      input.startsPunct "?" = false := by
    cases hstarts <;> exact ⟨rfl, rfl, rfl, rfl, rfl⟩
  obtain ⟨hlifetime, hparen, hbracket, htilde, hmark⟩ := hfront
  unfold bound
  refine (run_bind_of (run_peek _)).trans ?_
  rw [hlifetime]
  refine (run_bind_of (run_peek _)).trans ?_
  rw [hword "use" (by decide)]
  refine run_get_bind.trans ?_
  extract_lets traitParts finish
  have hparts : traitParts.run input = .ok ([path], rest) := by
    refine (run_bind_of (run_orNothing_of (hword "for" (by decide)))).trans ?_
    refine (run_bind_of (run_peek _)).trans ((run_bind_of (run_peek _)).trans ?_)
    refine (run_bind_of (run_peek _)).trans ?_
    rw [hbracket, hword "const" (by decide), htilde]
    refine (run_bind_to [] rfl).trans ((run_bind_of (run_orNothing_of hmark)).trans ?_)
    refine (run_bind_to [] rfl).trans ((run_bind_of hread).trans rfl)
  have hconst : finish [path] = pure (.phrase .traitBound [path]) := by
    obtain ⟨parts, rfl⟩ := hpath.isPath
    rfl
  refine (run_bind_of (run_peek _)).trans ?_
  rw [hparen, if_neg Bool.false_ne_true]
  refine (run_bind_of hparts).trans ?_
  rw [hconst]
  rfl

/-- A step that reads another bound behind a sign. -/
def boundStep (stop : Input → Bool) : Parser (Option (List Node)) := do
  if (← peek (·.startsPunct "+")) then
    let sign ← punct "+"
    if (← peek stop) then return some [sign]
    return some (sign :: (← one (bound reading false)))
  else return none

section Bounds

variable {stop : Input → Bool} {input middle rest : Input} {first second : Node}

theorem Rounds.bounds_done (hplus : rest.startsPunct "+" = false) :
    Rounds (boundStep stop) rest [] rest := by
  refine .stop ((run_bind_of (run_peek _)).trans ?_)
  rw [hplus]
  rfl

theorem run_boundsUntil (hstart : stop input = false)
    (hfirst : (bound reading false).run input = .ok (first, middle)) {more : List Node}
    (hmore : Rounds (boundStep stop) middle more rest) :
    (boundsUntil reading stop).run input = .ok (first :: more, rest) := by
  refine (run_bind_of (run_peek _)).trans ?_
  rw [hstart]
  refine (run_bind_of (run_one_eq_ok.mpr ⟨first, rfl, hfirst⟩)).trans ?_
  exact (run_bind_of (run_repeated hmore)).trans rfl

theorem Rounds.bounds_next (hstart : stop input = false)
    (hsecond : (bound reading false).run input = .ok (second, rest)) (hless : rest.length < input.length)
    (hplus : rest.startsPunct "+" = false) :
    Rounds (boundStep stop) (.punct "+" :: input) [.punct "+", second] rest := by
  refine @Rounds.round _ _ rest _ [.punct "+", second] [] ?_ (Nat.lt_succ_of_lt hless)
    (.bounds_done hplus)
  refine (run_bind_to true rfl).trans ((run_bind_of (run_punct_single (by decide) _)).trans ?_)
  refine (run_bind_of (run_peek _)).trans ?_
  rw [hstart]
  exact (run_bind_of (run_one_eq_ok.mpr ⟨second, rfl, hsecond⟩)).trans rfl

end Bounds

/-- A parameter with one bound, as an implementation for all types of a trait has it. -/
theorem readsGenerics_param {path : Node} (hname : isName name = true)
    (hpath : ReadsPath false path) :
    ReadsGenerics (.phrase .generics [.punct "<", .phrase .genericParam
      [.empty .attributes, .ident name, .punct ":", .phrase .traitBound [path]], .punct ">"]) := by
  intro tail htail
  have hlexed : (Node.phrase .generics [.punct "<", .phrase .genericParam [.empty .attributes,
      .ident name, .punct ":", .phrase .traitBound [path]], .punct ">"]).lexed ++ tail =
        .punct "<" :: .ident name :: .punct ":" :: (path.lexed ++ .punct ">" :: tail) := by
    simp [Kind.isOpen]
  have hsecond : Input.startsName (.ident name :: .punct ":" ::
      (path.lexed ++ .punct ">" :: tail)) = true := hname
  rw [hlexed]
  refine .inl ⟨?_, ?_⟩
  · have hopens : Input.startsGenerics (.punct "<" :: .ident name :: .punct ":" ::
        (path.lexed ++ .punct ">" :: tail)) = (false || false || (Input.startsName (.ident name ::
          .punct ":" :: (path.lexed ++ .punct ">" :: tail)) && true) || Input.startsWord
            (.ident name :: .punct ":" :: (path.lexed ++ .punct ">" :: tail)) "const") := rfl
    rw [hopens, hsecond]
    rfl
  have hbound : (bound reading false).run (path.lexed ++ .punct ">" :: tail) =
      .ok (.phrase .traitBound [path], .punct ">" :: tail) := run_bound hpath rfl
  have hopens : Input.startsAnyPunct (path.lexed ++ .punct ">" :: tail) [",", ">", "="] = false ∧
      List.isEmpty (path.lexed ++ .punct ">" :: tail) = false := by
    have hstarts : StartsPath (path.lexed ++ .punct ">" :: tail) := hpath.starts.append rfl
    generalize path.lexed ++ Node.punct ">" :: tail = input at hstarts
    cases hstarts <;> exact ⟨rfl, rfl⟩
  have hparam : (genericParam reading).run (.ident name :: .punct ":" ::
      (path.lexed ++ .punct ">" :: tail)) = .ok (.phrase .genericParam [.empty .attributes,
        .ident name, .punct ":", .phrase .traitBound [path]], .punct ">" :: tail) := by
    refine (run_bind_to (.empty .attributes) rfl).trans (run_get_bind.trans ?_)
    have hbounds : (boundsAfterColon reading fun input =>
        input.isEmpty || input.startsAnyPunct [",", ">", "="]).run
          (.punct ":" :: (path.lexed ++ .punct ">" :: tail)) =
            .ok ([.punct ":", .phrase .traitBound [path]], .punct ">" :: tail) := by
      refine (run_orNothing_of_true rfl).trans ((run_bind_of (run_punct_single (by decide) _)).trans ?_)
      refine (run_bind_of (run_boundsUntil ?_ hbound (.bounds_done rfl))).trans rfl
      rw [hopens.1, hopens.2]
      rfl
    rw [hsecond]
    refine (run_bind_of (run_name hname)).trans ((run_bind_of hbounds).trans ?_)
    exact (run_bind_to [] rfl).trans rfl
  have hparams : (separated (·.startsPunct ">") (punct ",") (one (genericParam reading))).run
      (.ident name :: .punct ":" :: (path.lexed ++ .punct ">" :: tail)) =
        .ok ([.phrase .genericParam [.empty .attributes, .ident name, .punct ":",
          .phrase .traitBound [path]]], .punct ">" :: tail) := by
    refine run_separated (.last rfl (run_one_eq_ok.mpr ⟨_, rfl, hparam⟩) rfl ?_)
    simp only [List.length_cons, List.length_append]
    omega
  refine (run_bind_to true rfl).trans ((run_bind_of (run_punct_single (by decide) _)).trans ?_)
  exact (run_bind_of hparams).trans rfl

/-- A method of a trait that has a body. -/
theorem readsAs_traitFn (hattributes : List.Forall₂ ReadsAttribute attributes read)
    (hsignature : ReadsSignature signature) (hbody : ReadsBody body) : ∃ own,
    ReadsAs (traitMember reading)
      (.phrase .traitFn [.phrase .attributes attributes, signature.toNode, braces body]) own := by
  obtain ⟨inside, hinside, -⟩ := hbody.run_attributedBlock
  have hlexed : ∀ rest, (Node.phrase .traitFn [.phrase .attributes attributes, signature.toNode,
      braces body]).lexed ++ rest = Node.lexedAll attributes ++ ((Node.empty .visibility).lexed ++
        .ident "fn" :: .ident signature.name ::
          .group .paren (Node.lexedAll (commaSeparated signature.inputs)) ::
            (signature.output.lexed ++ .group .brace (Node.lexedAll body) :: rest)) := by
    intro rest
    simp [braces, lexed_toNode, Kind.isOpen]
  have hrun (rest : Input) : (Syntax.signature reading false).run (.ident "fn" ::
      .ident signature.name :: .group .paren (Node.lexedAll (commaSeparated signature.inputs)) ::
        (signature.output.lexed ++ .group .brace (Node.lexedAll body) :: rest)) =
          .ok (signature.toNode, .group .brace (Node.lexedAll body) :: rest) := by
    have hrun : (Syntax.signature reading false).run
        (signature.toNode.lexed ++ .group .brace (Node.lexedAll body) :: rest) =
          .ok (signature.toNode, .group .brace (Node.lexedAll body) :: rest) := hsignature.run rfl
    rwa [lexed_toNode] at hrun
  refine ⟨.phrase .traitFn [.phrase .attributes read, signature.toNode, braces inside], ?_,
    fun rest => ?_⟩
  · rw [← List.append_nil (Node.lexed _), hlexed]
    exact List.append_ne_nil_of_right_ne_nil _ (List.cons_ne_nil _ _)
  rw [hlexed]
  refine (run_bind_of (run_itemFront hattributes (.inr rfl) (by decide))).trans ?_
  refine (run_bind_to [] rfl).trans (run_get_bind.trans ?_)
  refine (run_bind_of (hrun rest)).trans ((run_bind_to false rfl).trans ?_)
  exact (run_bind_of (hinside rest)).trans rfl

/-- A trait with two traits above it. -/
theorem readsItem_trait {first second : Node} {written : List Node}
    (hattributes : List.Forall₂ ReadsAttribute attributes read) (hname : isName name = true)
    (hfirst : ReadsPath false first) (hsecond : ReadsPath false second)
    (hstarts : startsInnerAttribute (Node.lexedAll members) = false)
    (hmembers : List.Forall₂ (ReadsAs (traitMember reading)) members written) :
    ReadsItem (.phrase .traitItem [.phrase .attributes attributes, publicly, .empty .qualifiers,
      .ident "trait", .ident name, .empty .generics, .phrase .supertraits [.punct ":",
        .phrase .traitBound [first], .punct "+", .phrase .traitBound [second]],
      .empty .whereClause, braces members]) := by
  have hlexed : ∀ rest, (Node.phrase .traitItem [.phrase .attributes attributes, publicly,
      .empty .qualifiers, .ident "trait", .ident name, .empty .generics, .phrase .supertraits
        [.punct ":", .phrase .traitBound [first], .punct "+", .phrase .traitBound [second]],
      .empty .whereClause, braces members]).lexed ++ rest = Node.lexedAll attributes ++
        (publicly.lexed ++ .ident "trait" :: ((.ident name :: .punct ":" :: (first.lexed ++
          .punct "+" :: (second.lexed ++ [.group .brace (Node.lexedAll members)]))) ++ rest)) := by
    intro rest
    simp [braces, Kind.isOpen]
  have hform : ItemReading (.phrase .traitItem [.phrase .attributes attributes, publicly,
      .empty .qualifiers, .ident "trait", .ident name, .empty .generics, .phrase .supertraits
        [.punct ":", .phrase .traitBound [first], .punct "+", .phrase .traitBound [second]],
      .empty .whereClause, braces members])
        (.phrase .traitItem [.phrase .attributes read, publicly, .empty .qualifiers,
          .ident "trait", .ident name, .empty .generics, .phrase .supertraits
            [.punct ":", .phrase .traitBound [first], .punct "+", .phrase .traitBound [second]],
          .empty .whereClause, braces written]) := .other (by decide) _ _
  refine readsItem_of_run hattributes (.inl rfl) hlexed hform fun rest => ?_
  have hopen : ∀ {path : Node} {tail : Input}, ReadsPath false path → tail.startsPunct "#" = false →
      (Input.startsWord (path.lexed ++ tail) "where" ||
        Input.startsGroup (path.lexed ++ tail) .brace) = false := by
    intro path tail hpath htail
    have hstarts := hpath.starts.append htail
    rw [hstarts.startsWord_eq_false (by decide)]
    generalize path.lexed ++ tail = input at hstarts
    cases hstarts <;> rfl
  have hbounds : (boundsAfterColon reading fun input =>
      input.startsWord "where" || input.startsGroup .brace).run (.punct ":" :: (first.lexed ++
        .punct "+" :: (second.lexed ++ .group .brace (Node.lexedAll members) :: rest))) =
          .ok ([.punct ":", .phrase .traitBound [first], .punct "+", .phrase .traitBound [second]],
            .group .brace (Node.lexedAll members) :: rest) := by
    have hmore : Rounds (boundStep fun input => input.startsWord "where" || input.startsGroup .brace)
        (.punct "+" :: (second.lexed ++ .group .brace (Node.lexedAll members) :: rest))
        [.punct "+", .phrase .traitBound [second]] (.group .brace (Node.lexedAll members) :: rest) :=
      .bounds_next (hopen hsecond rfl) (run_bound hsecond rfl)
        (length_lt_of_ne_nil hsecond.starts.ne_nil) rfl
    refine (run_orNothing_of_true rfl).trans ((run_bind_of (run_punct_single (by decide) _)).trans ?_)
    exact (run_bind_of (run_boundsUntil (hopen hfirst rfl) (run_bound hfirst rfl) hmore)).trans rfl
  have hinside : (Parser.group .brace do
      return (← innerAttributes? reading) ++
        (← many (fun input => !input.isEmpty) (one (traitMember reading)))).run
          (.group .brace (Node.lexedAll members) :: rest) = .ok (braces written, rest) := by
    refine run_group_eq_ok.mpr ⟨_, _, rfl, ?_, rfl⟩
    refine (run_bind_of (run_innerAttributes?_none hstarts)).trans ?_
    exact (run_bind_of (run_many_all hmembers)).trans rfl
  rw [run_reading, List.cons_append, List.cons_append, List.append_assoc, List.cons_append,
    List.append_assoc]
  refine (run_bind_of (run_itemFront hattributes (.inl rfl) (by decide))).trans ?_
  refine run_get_bind.trans ((run_bind_to [] rfl).trans ((run_bind_to [] rfl).trans ?_))
  refine (run_bind_to (.ident "trait") rfl).trans ((run_bind_of (run_name hname)).trans ?_)
  refine (run_bind_to (.empty .generics) rfl).trans ((run_bind_to false rfl).trans ?_)
  refine (run_bind_of hbounds).trans ((run_bind_to (.empty .whereClause) rfl).trans ?_)
  exact (run_bind_of hinside).trans rfl

end Items

/-! ### Files -/

section Files

instance fileRule_agrees {size : Nat} {sub sub' : Nonterminal → Parser Node}
    [∀ start, Agrees true size (sub start) (sub' start)] :
    Agrees true size (fileRule sub) (fileRule sub') := by
  unfold fileRule
  infer_instance

theorem readsAs_items {items : List Node} (hitems : ∀ item ∈ items, ReadsItem item) :
    ∃ read, List.Forall₂ ItemReading items read ∧
      List.Forall₂ (ReadsAs (reading .item)) items read := by
  induction items with
  | nil => exact ⟨[], .nil, .nil⟩
  | cons item rest ih =>
      obtain ⟨hitem, hrest⟩ := List.forall_mem_cons.mp hitems
      obtain ⟨own, hform, hown⟩ := hitem.recovers
      obtain ⟨others, hforms, hothers⟩ := ih hrest
      exact ⟨own :: others, .cons hform hforms, .cons hown hothers⟩

/-- A file is read from its tokens as by the grammar without a bound. -/
theorem fileOf?_eq_some_iff {tokens : Input} {file : Node} :
    fileOf? tokens = some file ↔ (fileRule reading).run tokens = .ok (file, []) := by
  rw [fileOf?, toOption_eq_some_iff]
  refine readAll_eq_ok fun depth hdepth => ?_
  have hsub := fun start => @reading_agrees_true (Node.sizeOfAll tokens + 1) depth (by omega) start
  have hfits : Fits true (Node.sizeOfAll tokens + 1) tokens := ⟨Nat.le_refl _⟩
  have hrules : Agrees true (Node.sizeOfAll tokens + 1) (fileRule reading)
    (fileRule (nonterminal depth)) := fileRule_agrees
  exact (hrules.agreesAt tokens).run_eq

/-- **Files are read back.** The tokens of items that are read back one by one are a file, with an
item for each that was written. -/
theorem fileOf?_lexed {items : List Node} (hitems : ∀ item ∈ items, ReadsItem item) :
    ∃ read, fileOf? (Node.phrase .file (.empty .attributes :: items)).lexed =
      some (.phrase .file (.empty .attributes :: read)) ∧ List.Forall₂ ItemReading items read := by
  obtain ⟨read, hforms, hread⟩ := readsAs_items hitems
  have hlexed : (Node.phrase .file (.empty .attributes :: items)).lexed = Node.lexedAll items := by
    simp [Kind.isOpen]
  have hstarts : startsInnerAttribute (Node.lexedAll items) = false := by
    cases items with
    | nil => rfl
    | cons item rest => exact (hitems item List.mem_cons_self).starts _
  refine ⟨read, hlexed ▸ fileOf?_eq_some_iff.mpr ?_, hforms⟩
  refine (run_bind_of (run_innerAttributes_none hstarts)).trans ?_
  exact (run_bind_of (run_many_all hread)).trans rfl

end Files

end EntityTables.Syntax
