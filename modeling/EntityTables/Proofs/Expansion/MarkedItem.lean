import EntityTables.Expansion
import EntityTables.Proofs.Syntax.Nesting

/-!
# Items under a marker

A marker in front of an item is one more attribute of that item, and changes nothing else about how it
is read: what the item is alone, the file of the marker and the item consists of, with the attribute
of the marker in front of its own.
-/

namespace EntityTables.Syntax

open EntityTables.Syntax.Parser

/-- An item, and the same item with one more attribute in front of its own. What is kept as it is
written has no attributes to stand in front of. -/
inductive IsMarked (mark : Node) : Node → Node → Prop
  | attributed (kind : Kind) (attributes rest : List Node) : IsMarked mark
      (.phrase kind (.phrase .attributes attributes :: rest))
      (.phrase kind (.phrase .attributes (mark :: attributes) :: rest))
  | written (tokens tokens' : List Node) :
      IsMarked mark (.phrase .verbatim tokens) (.phrase .verbatim tokens')

/-- What the first parser reads, the second reads with one more attribute, and leaves the same. -/
structure Marks (mark : Node) (first second : Parser Node) : Prop where
  run : ∀ {input : Input} {read : Node} {rest : Input}, first.run input = .ok (read, rest) →
    ∃ marked, second.run input = .ok (marked, rest) ∧ IsMarked mark read marked

variable {mark : Node}

namespace Marks

variable {α : Type} {first second other other' : Parser Node} {parser : Parser α}
  {next next' : α → Parser Node}

theorem pure {read marked : Node} (hmarked : IsMarked mark read marked) :
    Marks mark (pure read) (pure marked) where
  run hrun := by
    cases hrun
    exact ⟨marked, rfl, hmarked⟩

theorem after (hnext : ∀ read, Marks mark (next read) (next' read)) :
    Marks mark (parser >>= next) (parser >>= next') where
  run hrun := by
    obtain ⟨read, middle, hread, hrest⟩ := run_bind_eq_ok.mp hrun
    obtain ⟨marked, hmarked, his⟩ := (hnext read).run hrest
    exact ⟨marked, run_bind_eq_ok.mpr ⟨read, middle, hread, hmarked⟩, his⟩

theorem ite {condition : Prop} [Decidable condition] (hthen : Marks mark first second)
    (helse : Marks mark other other') : Marks mark
      (if condition then first else other) (if condition then second else other') := by
  split
  · exact hthen
  · exact helse

theorem asWritten (front front' : ItemFront) :
    Marks mark front.asWritten front'.asWritten :=
  .after fun _ => .pure (.written _ _)

end Marks

/-! ### Items -/

/-- A production that passes the attributes at the front of an item on to the item. -/
def PassesMark (mark : Node) (rule : ItemFront → Parser Node) : Prop :=
  ∀ start start' attributes visibility, Marks mark
    (rule ⟨start, .phrase .attributes attributes, visibility⟩)
    (rule ⟨start', .phrase .attributes (mark :: attributes), visibility⟩)

section Items

variable {sub : Nonterminal → Parser Node}

theorem structItem_marks : PassesMark mark (structItem sub) := by
  intro start start' attributes visibility
  refine .after fun keyword => .after fun name => .after fun generics => .after fun unnamed => ?_
  refine .ite (.after fun fields => .after fun predicates => .after fun closing => ?_) ?_
  · exact .pure (.attributed ..)
  · refine .after fun predicates => .after fun named => .ite (.after fun fields => ?_) ?_
    · exact .pure (.attributed ..)
    · exact .after fun closing => .pure (.attributed ..)

theorem enumItem_marks : PassesMark mark (enumItem sub) := by
  intro start start' attributes visibility
  refine .after fun keyword => .after fun name => .after fun generics => .after fun predicates => ?_
  exact .after fun variants => .pure (.attributed ..)

theorem unionItem_marks : PassesMark mark (unionItem sub) := by
  intro start start' attributes visibility
  refine .after fun keyword => .after fun name => .after fun generics => .after fun predicates => ?_
  exact .after fun fields => .pure (.attributed ..)

theorem typeItem_marks : PassesMark mark (typeItem sub) := by
  intro start start' attributes visibility
  exact .after fun definition => .ite (.asWritten _ _) (.pure (.attributed ..))

theorem constItem_marks : PassesMark mark (constItem sub) := by
  intro start start' attributes visibility
  refine .after fun keyword => .after fun constant => ?_
  split
  · exact .pure (.attributed ..)
  · exact .asWritten _ _

theorem staticItem_marks : PassesMark mark (staticItem sub) := by
  intro start start' attributes visibility
  refine .after fun keyword => .after fun mutability => .after fun name => .after fun type => ?_
  refine .after fun value => .after fun closing => ?_
  exact .ite (.asWritten _ _) (.pure (.attributed ..))

theorem fnItem_marks : PassesMark mark (fnItem sub) := by
  intro start start' attributes visibility
  refine .after fun signature => .after fun closed => .ite (.after fun _ => .asWritten _ _) ?_
  exact .after fun body => .pure (.attributed ..)

theorem useItem_marks : PassesMark mark (useItem sub) := by
  intro start start' attributes visibility
  refine .after fun keyword => .after fun leading => ?_
  extract_lets close close'
  have hclose : ∀ tree, Marks mark (close tree) (close' tree) := fun tree =>
    .after fun closing => .ite (.asWritten _ _) (.pure (.attributed ..))
  exact .ite (.after hclose) (.after hclose)

theorem crateItem_marks : PassesMark mark crateItem := by
  intro start start' attributes visibility
  refine .after fun keyword => .after fun kind => .after fun name => .after fun rename => ?_
  exact .after fun closing => .pure (.attributed ..)

theorem macroCall_marks (named : Bool) (attributes : List Node) : Marks mark
    (macroCall named (.phrase .attributes attributes))
    (macroCall named (.phrase .attributes (mark :: attributes))) := by
  refine .after fun path => .after fun sign => .after fun name => .after fun body => ?_
  extract_lets close close'
  have hclose : ∀ closing, Marks mark (close closing) (close' closing) :=
    fun closing => .pure (.attributed ..)
  exact .ite (.after hclose) (.after hclose)

theorem traitItem_marks : PassesMark mark (traitItem sub) := by
  intro start start' attributes visibility
  refine .after fun unsafety => .after fun auto => .after fun keyword => .after fun name => ?_
  refine .after fun generics => .after fun isAlias => .ite ?_ ?_
  · refine .after fun sign => .after fun bounds => .after fun predicates => ?_
    exact .after fun closing => .pure (.attributed ..)
  · refine .after fun supertraits => .after fun predicates => ?_
    exact .after fun members => .pure (.attributed ..)

theorem implItem_marks : PassesMark mark (implItem sub) := by
  intro start start' attributes visibility
  refine .after fun default => .after fun unsafety => .after fun keyword => .after fun starts => ?_
  extract_lets afterGenerics afterGenerics'
  have hgenerics : ∀ generics, Marks mark (afterGenerics generics) (afterGenerics' generics) := by
    refine fun generics => .after fun isConst => ?_
    extract_lets afterConst afterConst'
    have hconst : ∀ read, Marks mark (afterConst read) (afterConst' read) := by
      refine fun _ => .after fun begin => .after fun negative => .after fun first => ?_
      refine .after fun isFor => .after fun implFor => ?_
      extract_lets afterSelf afterSelf'
      have hself : ∀ self, Marks mark (afterSelf self) (afterSelf' self) := fun self =>
        .after fun predicates => .after fun members =>
          .ite (.asWritten _ _) (.pure (.attributed ..))
      exact .ite (.after hself) (.ite (.after hself) (.after hself))
    exact .ite (.after fun _ => .after hconst) (hconst ())
  exact .ite (.after hgenerics) (.after hgenerics)

theorem modItem_marks : PassesMark mark (modItem sub) := by
  intro start start' attributes visibility
  refine .after fun unsafety => .after fun keyword => .after fun isTry => ?_
  extract_lets afterName afterName'
  have hname : ∀ name, Marks mark (afterName name) (afterName' name) := by
    refine fun name => .after fun isFile => .ite ?_ ?_
    · exact .after fun closing => .pure (.attributed ..)
    · exact .after fun items => .pure (.attributed ..)
  exact .ite (.after hname) (.after hname)

theorem foreignItem_marks : PassesMark mark (foreignItem sub) := by
  intro start start' attributes visibility
  refine .after fun isPrivate => .after fun unsafety => .after fun abi => .after fun members => ?_
  exact .pure (.attributed ..)

theorem externItem_marks : PassesMark mark (externItem sub) := by
  intro start start' attributes visibility
  refine .after fun isCrate => .ite ?_ ?_
  · exact crateItem_marks ..
  · exact foreignItem_marks ..

theorem macroDefinition_marks : PassesMark mark macroDefinition := by
  intro start start' attributes visibility
  exact .after fun _ => .after fun _ => .after fun _ => .after fun _ => .asWritten _ _

end Items

end EntityTables.Syntax

namespace EntityTables.Expansion

open EntityTables.Syntax EntityTables.Syntax.Parser

/-! ### The tokens of a marker -/

/-- The attribute that the tokens of a marker are. -/
def markerNode (marker : ExpandingMarker) (arguments : List Node) : Node :=
  attributeOf (pathOf [segmentOf marker.name] ::
    if arguments.isEmpty then [] else [parens arguments])

section Reading

variable {sub : Nonterminal → Parser Node} {input rest : Input}

theorem plainPath_word {name : String} (hname : isName name = true) {list : List Node}
    (hlist : Input.startsPunct list "::" = false) :
    plainPath.run (.ident name :: list) = .ok (pathOf [segmentOf name], list) := by
  have hstarts : Input.startsPathWord (.ident name :: list) = true := by
    rw [Input.startsPathWord, Bool.or_eq_true]
    exact .inl hname
  refine run_bind_eq_ok.mpr ⟨[], _, rfl, ?_⟩
  refine run_bind_eq_ok.mpr ⟨.ident name, list, run_when_eq_ok.mpr ⟨hstarts, rfl⟩, ?_⟩
  exact run_bind_eq_ok.mpr ⟨[], list, run_many_of_eq_false hlist, rfl⟩

theorem isName_name (marker : ExpandingMarker) : isName marker.name = true := by
  cases marker <;> decide

theorem outerAttribute_markerTokens (marker : ExpandingMarker) (arguments : List Node) :
    (outerAttribute sub).run (markerTokens marker arguments ++ input) =
      .ok (markerNode marker arguments, input) := by
  have hunsafe : Input.startsWord (.ident marker.name :: []) "unsafe" = false := by
    cases marker <;> decide
  refine run_bind_eq_ok.mpr ⟨.punct "#", _, run_punctOr_eq_ok.mpr ⟨rfl, rfl, rfl⟩, ?_⟩
  refine run_bind_eq_ok.mpr ⟨_, input, run_group_eq_ok.mpr ⟨_, _, rfl, ?_, rfl⟩, rfl⟩
  have hpath {list : List Node} (hlist : Input.startsPunct list "::" = false) :
      attributePath.run (.ident marker.name :: list) =
        .ok (pathOf [segmentOf marker.name], list) := by
    refine run_bind_eq_ok.mpr ⟨false, _, ?_, plainPath_word (isName_name marker) hlist⟩
    rw [run_peek]
    exact congrArg (fun starts => Except.ok (starts, _)) hunsafe
  cases arguments with
  | nil => exact run_bind_eq_ok.mpr ⟨_, [], hpath rfl, rfl⟩
  | cons first others => exact run_bind_eq_ok.mpr ⟨_, _, hpath rfl, rfl⟩

theorem outerAttribute_consumes : Consumes (outerAttribute sub) := by
  intro input read rest hrun
  obtain ⟨sign, middle, hsign, hrest⟩ := run_bind_eq_ok.mp hrun
  obtain ⟨-, -, rfl⟩ := run_punctOr_eq_ok.mp hsign
  obtain ⟨body, _, hbody, hpure⟩ := run_bind_eq_ok.mp hrest
  cases hpure
  obtain ⟨own, parts, hgroup, -, -⟩ := run_group_eq_ok.mp hbody
  have hlength := congrArg List.length hgroup
  rw [List.length_drop, List.length_cons] at hlength
  omega

theorem one_consumes {parser : Parser Node} (hparser : Consumes parser) : Consumes (one parser) := by
  intro input read rest hrun
  obtain ⟨node, -, hnode⟩ := run_one_eq_ok.mp hrun
  exact hparser hnode

/-- A marker in front of attributes is the first of them. -/
theorem outerAttributes_markerTokens (marker : ExpandingMarker) (arguments : List Node)
    {read : Node} (hrun : (outerAttributes sub).run input = .ok (read, rest)) :
    ∃ attributes, read = .phrase .attributes attributes ∧
      (outerAttributes sub).run (markerTokens marker arguments ++ input) =
        .ok (.phrase .attributes (markerNode marker arguments :: attributes), rest) := by
  obtain ⟨attributes, _, hattributes, hpure⟩ := run_bind_eq_ok.mp hrun
  cases hpure
  refine ⟨attributes, rfl, run_bind_eq_ok.mpr ⟨_, rest, ?_, rfl⟩⟩
  refine (run_many_eq_ok (one_consumes outerAttribute_consumes)).mpr (.inr ⟨rfl, ?_⟩)
  refine ⟨_, input, attributes, run_one_eq_ok.mpr ⟨_, rfl, ?_⟩, hattributes, rfl⟩
  exact outerAttribute_markerTokens marker arguments

/-! ### Items and files -/

theorem itemRule_markerTokens (marker : ExpandingMarker) (arguments : List Node) {read : Node}
    (hrun : (itemRule sub).run input = .ok (read, rest)) :
    ∃ marked, (itemRule sub).run (markerTokens marker arguments ++ input) = .ok (marked, rest) ∧
      IsMarked (markerNode marker arguments) read marked := by
  obtain ⟨front, middle, hfront, hrest⟩ := run_bind_eq_ok.mp hrun
  obtain ⟨_, _, hget, hfront⟩ := run_bind_eq_ok.mp hfront
  cases hget
  obtain ⟨_, behind, hattributes, hfront⟩ := run_bind_eq_ok.mp hfront
  obtain ⟨visibility, _, hvisibility, hpure⟩ := run_bind_eq_ok.mp hfront
  cases hpure
  obtain ⟨attributes, rfl, hmarked⟩ := outerAttributes_markerTokens marker arguments hattributes
  have hfront' : (itemFront sub).run (markerTokens marker arguments ++ input) =
      .ok (⟨markerTokens marker arguments ++ input,
        .phrase .attributes (markerNode marker arguments :: attributes), visibility⟩, middle) := by
    refine run_bind_eq_ok.mpr ⟨_, _, rfl, run_bind_eq_ok.mpr ⟨_, behind, hmarked, ?_⟩⟩
    exact run_bind_eq_ok.mpr ⟨visibility, middle, hvisibility, rfl⟩
  refine (Marks.run ?_ hrest).imp fun marked hmarked =>
    ⟨run_bind_eq_ok.mpr ⟨_, middle, hfront', hmarked.1⟩, hmarked.2⟩
  refine .after fun input => .ite (fnItem_marks ..) (.ite (externItem_marks ..) ?_)
  refine .ite (useItem_marks ..) (.ite (staticItem_marks ..) (.ite (constItem_marks ..) ?_))
  refine .ite ?_ (.ite (modItem_marks ..) (.ite (typeItem_marks ..) ?_))
  · refine .ite (traitItem_marks ..) (.ite (implItem_marks ..) ?_)
    exact .ite (foreignItem_marks ..) (modItem_marks ..)
  refine .ite (structItem_marks ..) (.ite (enumItem_marks ..) (.ite (unionItem_marks ..) ?_))
  refine .ite (traitItem_marks ..) (.ite (implItem_marks ..) (.ite (macroDefinition_marks ..) ?_))
  exact .after fun starts => macroCall_marks true attributes

end Reading

theorem sizeOfAll_append (nodes others : List Node) :
    Node.sizeOfAll (nodes ++ others) = Node.sizeOfAll nodes + Node.sizeOfAll others := by
  induction nodes with
  | nil => simp [Node.sizeOfAll]
  | cons node rest ih =>
      rw [List.cons_append, Node.sizeOfAll, Node.sizeOfAll, ih]
      omega

theorem toOption_readAll_eq_some_iff {α : Type} {input : Input} {read : α}
    {parser : (Nonterminal → Parser Node) → Parser α} :
    (readAll input parser).toOption = some read ↔
      (parser (nonterminal (nestingBound input))).run input = .ok (read, []) := by
  unfold readAll
  constructor
  · intro hread
    split at hread
    · next own hrun =>
        cases hread
        exact hrun
    · cases hread
    · cases hread
  · intro hrun
    rw [hrun]
    rfl

/-- **A marker in front of an item.** The file that a marker and an item make is the item alone, with
the marker as the first of its attributes. -/
theorem fileOf?_markerTokens (marker : ExpandingMarker) (arguments : List Node)
    {item : List Node} {tree : Node} (hitem : itemOf? item = some tree) :
    ∃ marked, fileOf? (markerTokens marker arguments ++ item) =
        some (.phrase .file [.empty .attributes, marked]) ∧
      IsMarked (markerNode marker arguments) tree marked := by
  have halone := toOption_readAll_eq_some_iff.mp hitem
  have hle : nestingBound item ≤ nestingBound (markerTokens marker arguments ++ item) := by
    rw [nestingBound, nestingBound, sizeOfAll_append]
    omega
  have hdeeper := (run_nonterminal hle .item).trans halone
  obtain ⟨depth, hdepth⟩ : ∃ depth,
      nestingBound (markerTokens marker arguments ++ item) = depth + 1 := ⟨_, rfl⟩
  rw [hdepth] at hdeeper
  obtain ⟨marked, hrun, hmarked⟩ := itemRule_markerTokens marker arguments hdeeper
  refine ⟨marked, toOption_readAll_eq_some_iff.mpr ?_, hmarked⟩
  rw [hdepth]
  refine run_bind_eq_ok.mpr ⟨.empty .attributes, markerTokens marker arguments ++ item, ?_, ?_⟩
  · exact run_bind_eq_ok.mpr ⟨[], _, run_many_of_eq_false rfl, rfl⟩
  · refine run_bind_eq_ok.mpr ⟨[marked], [], run_many_of_last rfl rfl ?_, rfl⟩
    exact run_one_eq_ok.mpr ⟨marked, rfl, hrun⟩

end EntityTables.Expansion
