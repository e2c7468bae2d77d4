import EntityTables.Proofs.Syntax.WrittenTypes

/-!
# Types behind a reference

A reference binds closer than the `+` between bounds. A type that is read back elsewhere is read back
behind an `&` if it joins no bounds, and otherwise the `+` is left, which ends no type.
-/

namespace EntityTables.Syntax

open EntityTables.Syntax.Parser

/-- Whether some bounds start with an optional one in parentheses. -/
def startsOptional : List Node → Bool
  | .phrase .traitBound [.group .paren (mark :: _)] :: _ => mark.isPunct "?"
  | _ => false

/-- Whether a type is written as several bounds that are joined by `+`. An optional bound in
parentheses is read with those after it everywhere. -/
def joinsBounds : Node → Bool
  | .phrase .implTraitType parts => parts.any (·.isPunct "+")
  | .phrase .traitObjectType parts => parts.any (·.isPunct "+") && !startsOptional parts
  | _ => false

/-- What a parser of types does on an input where it may not go on with `+`, compared with one that
may: it reads the same, or it leaves the `+` of the bounds that the other joins. A `dyn*` is kept as
it is written, and how it joins its bounds is not looked at. -/
structure AloneAt (joined alone : Parser Node) (input : Input) : Prop where
  same : ∀ {type rest}, joined.run input = .ok (type, rest) → joinsBounds type = false →
    type.is .verbatim = false → alone.run input = .ok (type, rest)
  leaves : ∀ {type other rest left}, joined.run input = .ok (type, rest) →
    joinsBounds type = true → alone.run input = .ok (other, left) → left.startsPunct "+" = true

namespace AloneAt

variable {α : Type} {parser : Parser α} {joined alone joined' alone' own : Parser Node}
  {next next' : α → Parser Node} {input : Input}

theorem of_yields (hown : Yields (joinsBounds · = false) own) : AloneAt own own input where
  same hrun _ _ := hrun
  leaves hrun hjoins _ := absurd ((hown.of_run hrun).symm.trans hjoins) Bool.false_ne_true

theorem after (hnext : ∀ {read middle}, parser.run input = .ok (read, middle) →
    AloneAt (next read) (next' read) middle) : AloneAt (parser >>= next) (parser >>= next') input where
  same hrun hjoins hverbatim := by
    obtain ⟨read, middle, hread, hrun⟩ := run_bind_eq_ok.mp hrun
    exact run_bind_eq_ok.mpr ⟨read, middle, hread, (hnext hread).same hrun hjoins hverbatim⟩
  leaves hrun hjoins halone := by
    obtain ⟨read, middle, hread, hrun⟩ := run_bind_eq_ok.mp hrun
    rw [run_bind_of hread] at halone
    exact (hnext hread).leaves hrun hjoins halone

theorem ite {condition : Prop} [Decidable condition]
    (hthen : condition → AloneAt joined alone input)
    (helse : ¬condition → AloneAt joined' alone' input) :
    AloneAt (if condition then joined else joined') (if condition then alone else alone') input := by
  by_cases hcondition : condition
  · rw [if_pos hcondition, if_pos hcondition]
    exact hthen hcondition
  · rw [if_neg hcondition, if_neg hcondition]
    exact helse hcondition

end AloneAt

/-! ### Bounds -/

section Bounds

variable {capture : Bool} {input rest : Input} {more : List Node}

/-- A step that reads a `+` with the bound after it. -/
def joinStep (capture : Bool) : Parser (Option (List Node)) := do
  if (← peek (·.startsPunct "+")) then
    let sign ← punct "+"
    if (← peek startsBound) then return some [sign, ← bound reading capture]
    return some [sign]
  else return none

/-- More bounds start with a `+`, or there are none. -/
theorem run_joinStep (hrun : (repeated (joinStep capture)).run input = .ok (more, rest)) :
    (input.startsPunct "+" = false ∧ more = [] ∧ rest = input) ∨
      (input.startsPunct "+" = true ∧ more.any (·.isPunct "+") = true) := by
  obtain ⟨_, _, hget, hrun⟩ := run_bind_eq_ok.mp hrun
  cases hget
  unfold repeatWithin at hrun
  obtain ⟨found, middle, hstep, hrun⟩ := run_bind_eq_ok.mp hrun
  obtain ⟨_, _, hpeek, hstep⟩ := run_bind_eq_ok.mp hstep
  cases hpeek
  dsimp only at hstep
  cases hplus : input.startsPunct "+" with
  | false =>
      rw [if_neg (Bool.eq_false_iff.mp hplus)] at hstep
      cases hstep
      cases hrun
      exact .inl ⟨rfl, rfl, rfl⟩
  | true =>
      rw [if_pos hplus] at hstep
      have hfound : Yields (fun read => ∃ others, read = some (.punct "+" :: others)) (do
          let sign ← punct "+"
          if (← peek startsBound) then return some [sign, ← bound reading capture]
          return some [sign] : Parser (Option (List Node))) := by
        refine (Yields.punct "+").bind ?_
        rintro _ rfl
        exact .after fun starts => .ite (fun _ => .after fun own => .pure ⟨_, rfl⟩)
          fun _ => .pure ⟨_, rfl⟩
      obtain ⟨others, rfl⟩ := hfound.of_run hstep
      obtain ⟨own, -, rfl⟩ := run_repeatWithin_eq_ok.mp hrun
      refine .inr ⟨rfl, List.any_eq_true.mpr ⟨.punct "+", ?_, rfl⟩⟩
      simp

theorem startsLifetime_cons {node : Node} (hstarts : Input.startsLifetime (node :: rest) = true) :
    ∃ name, node = .leaf (.lifetime name) := by
  unfold Input.startsLifetime at hstarts
  split at hstarts
  · next name _ heq =>
      cases heq
      exact ⟨name, rfl⟩
  · cases hstarts

theorem bound_yields : Yields (fun read => read.isPunct "+" = false) (bound reading capture) := by
  have hverbatim : ∀ start, Yields (fun read : Node => read.isPunct "+" = false)
      (sinceInput start) := fun start => .after fun rest => .pure rfl
  have hlifetime : Yields (fun read : Node => read.isPunct "+" = false) lifetime := by
    refine .when fun node rest hstarts => ?_
    obtain ⟨name, rfl⟩ := startsLifetime_cons hstarts
    rfl
  refine .after fun names => .ite (fun _ => hlifetime) fun _ => ?_
  refine .after fun captures => .ite (fun _ => ?_) fun _ => ?_
  · exact .after fun _ => .after fun _ => .after fun _ => .after fun _ => .after fun _ => .pure rfl
  refine .after fun start => ?_
  extract_lets traitParts finish
  have hfinish : ∀ parts, Yields (fun read : Node => read.isPunct "+" = false) (finish parts) :=
    fun parts => .ite (fun _ => hverbatim start) fun _ => .pure rfl
  exact .after fun inParens => .ite (fun _ => .after hfinish) fun _ => .after hfinish

/-- What reads bounds and goes on with them reads them all, or leaves those that are joined. -/
theorem AloneAt.joins {next : List Node → Parser Node}
    (hjoined : ∀ more : List Node, more.any (·.isPunct "+") = true →
      Yields (fun type => joinsBounds type = true ∨ type.is .verbatim = true) (next more))
    (halone : Yields (joinsBounds · = false) (next []))
    (hkeeps : ∀ {other left}, (next []).run input = .ok (other, left) → left = input) :
    AloneAt (repeated (joinStep capture) >>= next) (next []) input where
  same hrun hjoins hverbatim := by
    obtain ⟨more, middle, hmore, hnext⟩ := run_bind_eq_ok.mp hrun
    rcases run_joinStep hmore with ⟨-, rfl, rfl⟩ | ⟨-, hplus⟩
    · exact hnext
    · rcases (hjoined more hplus).of_run hnext with hown | hown
      · exact absurd (hown.symm.trans hjoins) (by decide)
      · exact absurd (hown.symm.trans hverbatim) (by decide)
  leaves hrun hjoins hother := by
    obtain ⟨more, middle, hmore, hnext⟩ := run_bind_eq_ok.mp hrun
    rcases run_joinStep hmore with ⟨-, rfl, rfl⟩ | ⟨hplus, -⟩
    · exact absurd ((halone.of_run hnext).symm.trans hjoins) (by decide)
    · rw [hkeeps hother]
      exact hplus

/-- Where a `+` comes next, it is read with the bounds after it or left. -/
theorem AloneAt.joins_of_plus {next : List Node → Node} {other : Node}
    (hplus : input.startsPunct "+" = true)
    (hjoined : ∀ more : List Node, more.any (·.isPunct "+") = true → joinsBounds (next more) = true) :
    AloneAt (repeated (joinStep capture) >>= fun more => pure (next more)) (pure other) input where
  same hrun hjoins _ := by
    obtain ⟨more, left, hread, hpure⟩ := run_bind_eq_ok.mp hrun
    rcases run_joinStep hread with ⟨hother, -⟩ | ⟨-, hany⟩
    · exact absurd (hother.symm.trans hplus) Bool.false_ne_true
    · cases hpure
      exact absurd (hjoins.symm.trans (hjoined more hany)) Bool.false_ne_true
  leaves _ _ hother := by
    cases hother
    exact hplus

theorem AloneAt.joinedBounds {next : List Node → Parser Node}
    (hjoined : ∀ nodes : List Node, nodes.any (·.isPunct "+") = true →
      Yields (fun type => joinsBounds type = true ∨ type.is .verbatim = true) (next nodes))
    (halone : ∀ nodes : List Node, nodes.any (·.isPunct "+") = false →
      Yields (joinsBounds · = false) (next nodes))
    (hkeeps : ∀ {nodes middle other left}, (next nodes).run middle = .ok (other, left) →
      left = middle) :
    AloneAt (bounds reading true capture >>= next) (bounds reading false capture >>= next) input := by
  have hall : bounds reading true capture = bound reading capture >>= fun first =>
      repeated (joinStep capture) >>= fun more => pure (first :: more) := rfl
  have hone : bounds reading false capture = bound reading capture >>= fun first =>
      pure [first] := rfl
  simp only [hall, hone, bind_assoc, pure_bind]
  refine .after fun {first middle} hfirst => ?_
  refine .joins (fun more hmore => hjoined _ ?_) (halone _ ?_) hkeeps
  · rw [List.any_cons, hmore, Bool.or_true]
  · rw [List.any_cons, bound_yields.of_run hfirst]
    rfl

end Bounds

/-! ### The forms of types -/

section Forms

variable {lifetimes : List Node} {plus : Bool} {input : Input}

theorem aloneAt_implType : AloneAt
    (do
      let keyword ← word "impl"
      let bounds ← bounds reading true true
      guard (hasTrait bounds)
      return .phrase .implTraitType (keyword :: bounds))
    (do
      let keyword ← word "impl"
      let bounds ← bounds reading false true
      guard (hasTrait bounds)
      return .phrase .implTraitType (keyword :: bounds)) input := by
  refine .after fun {keyword middle} hkeyword => ?_
  obtain rfl := (Yields.word "impl").of_run hkeyword
  refine .joinedBounds (fun nodes hplus => .after fun _ => .pure (.inl hplus))
    (fun nodes hplus => .after fun _ => .pure hplus) fun {nodes middle other left} hrun => ?_
  obtain ⟨_, _, hguard, hrun⟩ := run_bind_eq_ok.mp hrun
  cases hrun
  exact (run_guard_eq_ok.mp hguard).2

theorem aloneAt_dynType : AloneAt (dynType reading true) (dynType reading false) input := by
  refine .after fun {start middle} hstart => .after fun {keyword middle} hkeyword => ?_
  obtain rfl := (Yields.word "dyn").of_run hkeyword
  refine .after fun {star middle} hstar => ?_
  refine .joinedBounds
    (fun nodes hplus => .after fun _ => .ite (fun _ => .pure (.inl ?_)) fun _ =>
      .after fun rest => .pure (.inr rfl))
    (fun nodes hplus => .after fun _ => .ite (fun _ => .pure ?_) fun _ =>
      .after fun rest => .pure rfl)
    fun {nodes middle other left} hrun => ?_
  · exact Bool.and_eq_true_iff.mpr ⟨hplus, rfl⟩
  · exact Bool.and_eq_false_iff.mpr (.inl hplus)
  · obtain ⟨_, _, hguard, hform⟩ := run_bind_eq_ok.mp hrun
    obtain rfl := (run_guard_eq_ok.mp hguard).2
    split at hform
    · cases hform
      rfl
    · obtain ⟨_, _, hget, hkept⟩ := run_bind_eq_ok.mp hform
      cases hget
      cases hkept
      rfl

/-- A path as a type is one path, plain or inside a type. -/
theorem typePath_form : Yields (fun type => (∃ parts, type = pathType (.phrase .path parts)) ∨
    ∃ parts, type = .phrase .qualifiedPathType parts) (typePath reading) := by
  refine .after fun rounds => .after fun qualified => .ite (fun _ => ?_) fun _ => ?_
  · exact .after fun own => .after fun parts => .pure (.inr ⟨_, rfl⟩)
  · exact .after fun own => .after fun parts => .pure (.inl ⟨_, rfl⟩)

theorem aloneAt_pathLikeType :
    AloneAt (pathLikeType reading true lifetimes) (pathLikeType reading false lifetimes) input := by
  refine .after fun {type middle} htype => ?_
  rcases typePath_form.of_run htype with ⟨parts, rfl⟩ | ⟨parts, rfl⟩
  · refine .after fun {called rest} hcalled => .ite (fun _ => .of_yields ?_) fun _ => ?_
    · exact .after fun _ => .after fun _ => .pure rfl
    cases hcalled
    have hobject : ∀ nodes : List Node, joinsBounds (.phrase .traitObjectType
        (.phrase .traitBound (lifetimes ++ [.phrase .path parts]) :: nodes)) =
          nodes.any (·.isPunct "+") := by
      intro nodes
      have hplain : startsOptional
          (.phrase .traitBound (lifetimes ++ [.phrase .path parts]) :: nodes) = false := by
        unfold startsOptional
        split
        · next heq =>
            have hlast := congrArg List.getLast? (Node.phrase.inj (List.cons.inj heq).1).2
            rw [List.getLast?_concat] at hlast
            cases hlast
        · rfl
      rw [joinsBounds, hplain, Bool.not_false, Bool.and_true, List.any_cons]
      rfl
    have hmore : ∀ rest, AloneAt
        (moreBounds reading >>= fun more => pure (.phrase .traitObjectType
          (.phrase .traitBound (lifetimes ++ [.phrase .path parts]) :: more)))
        (pure (.phrase .traitObjectType
          [.phrase .traitBound (lifetimes ++ [.phrase .path parts])])) rest := fun rest =>
      .joins (fun more hplus => .pure (.inl ((hobject more).trans hplus))) (.pure (hobject []))
        fun hrun => by
          cases hrun
          rfl
    refine .after fun {follows rest} hfollows => ?_
    obtain ⟨hplus, hrest⟩ := Prod.mk.inj (Except.ok.inj hfollows)
    subst hrest
    cases lifetimes with
    | cons first others => exact hmore middle
    | nil =>
        cases follows with
        | false => exact .of_yields (.pure rfl)
        | true =>
            exact .joins_of_plus hplus fun more hany => (hobject more).trans hany
  · exact .of_yields (.pure rfl)

/-- What can be told from the form of a type: a path is one tree, and the only bound of an object is
not optional unless it stands in parentheses. -/
structure PlainForm (type : Node) : Prop where
  path : ∀ {parts}, type = .phrase .pathType parts → ∃ own, parts = [.phrase .path own]
  object : ∀ {mark more}, type = .phrase .traitObjectType [.phrase .traitBound (mark :: more)] →
    mark.isPunct "?" = false

theorem PlainForm.of_kind {kind : Kind} {parts : List Node}
    (hkind : kind ≠ .pathType ∧ kind ≠ .traitObjectType) : PlainForm (.phrase kind parts) where
  path heq := absurd (Node.phrase.inj heq).1 hkind.1
  object heq := absurd (Node.phrase.inj heq).1 hkind.2

theorem PlainForm.of_object {first : Node} {more : List Node}
    (hfirst : ∀ {mark others}, first = .phrase .traitBound (mark :: others) →
      mark.isPunct "?" = false) : PlainForm (.phrase .traitObjectType (first :: more)) where
  path heq := nomatch (Node.phrase.inj heq).1
  object heq := hfirst (List.cons.inj (Node.phrase.inj heq).2).1

theorem run_forLifetimes? {read : List Node} {rest : Input}
    (hrun : (forLifetimes? reading).run input = .ok (read, rest)) :
    (read = [] ∧ rest = input) ∨ ∃ parts, read = [.phrase .forLifetimes parts] := by
  unfold forLifetimes? at hrun
  cases hfor : input.startsWord "for" with
  | false =>
      rw [run_orNothing_of hfor] at hrun
      cases hrun
      exact .inl ⟨rfl, rfl⟩
  | true =>
      rw [run_orNothing_of_true hfor] at hrun
      obtain ⟨_, _, -, hrun⟩ := run_bind_eq_ok.mp hrun
      obtain ⟨_, _, -, hrun⟩ := run_bind_eq_ok.mp hrun
      obtain ⟨_, _, -, hrun⟩ := run_bind_eq_ok.mp hrun
      obtain ⟨_, _, -, hpure⟩ := run_bind_eq_ok.mp hrun
      cases hpure
      exact .inr ⟨_, rfl⟩

theorem pathLikeType_form {plus : Bool} (hlifetimes : lifetimes = [] ∨
    ∃ parts, lifetimes = [.phrase .forLifetimes parts]) :
    Yields PlainForm (pathLikeType reading plus lifetimes) := by
  refine typePath_form.bind ?_
  rintro _ (⟨parts, rfl⟩ | ⟨parts, rfl⟩)
  · refine .after fun called => .ite (fun _ => ?_) fun _ => ?_
    · exact .after fun _ => .after fun _ => .pure (.of_kind (by decide))
    refine .after fun follows => .ite (fun _ => ?_) fun _ => ?_
    · have hfirst : ∀ more, PlainForm (.phrase .traitObjectType
          (.phrase .traitBound (lifetimes ++ [.phrase .path parts]) :: more)) := by
        refine fun more => .of_object fun heq => ?_
        rcases hlifetimes with rfl | ⟨own, rfl⟩ <;> cases heq <;> rfl
      exact .ite (fun _ => .after fun more => .pure (hfirst more))
        fun _ => .after fun more => .pure (hfirst more)
    · exact .pure ⟨fun heq => ⟨parts, by cases heq; rfl⟩, nofun⟩
  · exact .pure (.of_kind (by decide))

theorem parenOrTupleType_form {plus : Bool} : Yields PlainForm (parenOrTupleType reading plus) := by
  have hgroup : ∀ own others : List Node, PlainForm (.phrase .traitObjectType
      (.phrase .traitBound [.group .paren own] :: others)) := fun own others =>
    .of_object fun heq => by
      cases heq
      rfl
  refine .after fun input => ?_
  split
  · refine .after fun content => .after fun _ => ?_
    cases content with
    | nothing => exact .pure (.of_kind (by decide))
    | list types => exact .pure (.of_kind (by decide))
    | optionalBound bound => exact .after fun _ => .pure (hgroup _ _)
    | only inner =>
        dsimp only
        refine .after fun plusFollows => .ite (fun _ => ?_) fun _ => .pure (.of_kind (by decide))
        split
        · next first hfirst =>
            refine .after fun _ => .pure ?_
            unfold parenBound? at hfirst
            split at hfirst
            · cases hfirst
              exact hgroup _ _
            · cases hfirst
              exact hgroup _ _
            · cases hfirst
        · exact .pure (.of_kind (by decide))
  · exact .refuse

theorem dynType_form {plus : Bool} : Yields PlainForm (dynType reading plus) := by
  refine .after fun start => (Yields.word "dyn").bind ?_
  rintro _ rfl
  refine .after fun star => .after fun bounds => .after fun _ => .ite (fun _ => .pure ?_) fun _ => ?_
  · exact .of_object nofun
  · exact .after fun rest => .pure (.of_kind (by decide))

/-- A type that starts with a lifetime is an object whose first bound it is. -/
theorem run_type_lifetime {plus : Bool} {name : String} {tail rest : Input} {type : Node}
    (hrun : (typeRule reading plus).run (.leaf (.lifetime name) :: tail) = .ok (type, rest)) :
    ∃ more left, (repeated (joinStep false)).run tail = .ok (more, left) ∧
      type = .phrase .traitObjectType (.leaf (.lifetime name) :: more) := by
  have hrule : (typeRule reading plus).run (.leaf (.lifetime name) :: tail) =
      (bounds reading true false >>= fun bounds => do
        Parser.guard (hasTrait bounds)
        return .phrase .traitObjectType bounds : Parser Node).run
          (.leaf (.lifetime name) :: tail) := rfl
  have hbounds : (bounds reading true false).run (.leaf (.lifetime name) :: tail) =
      (repeated (joinStep false) >>= fun more => pure (.leaf (.lifetime name) :: more) :
        Parser (List Node)).run tail := rfl
  rw [hrule] at hrun
  obtain ⟨nodes, _, hnodes, hrun⟩ := run_bind_eq_ok.mp hrun
  rw [hbounds] at hnodes
  obtain ⟨more, left, hmore, hpure⟩ := run_bind_eq_ok.mp hnodes
  cases hpure
  obtain ⟨_, _, -, hform⟩ := run_bind_eq_ok.mp hrun
  cases hform
  exact ⟨more, _, hmore, rfl⟩

/-- After the lifetimes that `for` introduces, a type starts with no other lifetime. -/
theorem startsLifetime_of_forLifetimes {read : List Node} {middle : Input}
    (hinput : input.startsLifetime = false)
    (hrun : (forLifetimes? reading).run input = .ok (read, middle))
    (hstarts : read.isEmpty = false →
      (middle.startsPathWord || middle.startsOneOf ["fn", "unsafe", "extern"]) = true) :
    middle.startsLifetime = false := by
  rcases run_forLifetimes? hrun with ⟨rfl, rfl⟩ | ⟨parts, rfl⟩
  · exact hinput
  · refine Bool.eq_false_iff.mpr fun hlifetime => ?_
    have hstarts := hstarts rfl
    cases middle with
    | nil => cases hlifetime
    | cons node tail =>
        obtain ⟨name, rfl⟩ := startsLifetime_cons hlifetime
        cases hstarts

theorem plainForm_of_run {plus : Bool} {type : Node} {rest : Input}
    (hrun : (reading (.type plus)).run input = .ok (type, rest)) : PlainForm type := by
  rw [run_reading] at hrun
  cases hinput : input.startsLifetime with
  | true =>
      obtain ⟨node, tail, rfl⟩ : ∃ node tail, input = node :: tail := by
        cases input with
        | nil => cases hinput
        | cons node tail => exact ⟨node, tail, rfl⟩
      obtain ⟨name, rfl⟩ := startsLifetime_cons hinput
      obtain ⟨more, -, -, rfl⟩ := run_type_lifetime hrun
      exact .of_object nofun
  | false =>
      obtain ⟨lifetimes, middle, hlifetimes, hrun⟩ := run_bind_eq_ok.mp hrun
      have hforms := (run_forLifetimes? hlifetimes).imp_left And.left
      obtain ⟨_, _, hget, hrun⟩ := run_bind_eq_ok.mp hrun
      cases hget
      extract_lets choose at hrun
      have hchoose : middle.startsLifetime = false → Yields PlainForm (choose ()) := by
        intro hlifetime
        refine .ite (fun _ => parenOrTupleType_form) fun _ => .ite (fun _ => ?_) fun _ => ?_
        · exact .after fun _ => .after fun _ => .after fun _ => .after fun _ => .after fun _ =>
            .pure (.of_kind (by decide))
        refine .ite (fun _ => pathLikeType_form hforms) fun _ => .ite (fun _ => dynType_form) fun _ => ?_
        refine .ite (fun _ => .after fun body => .pure (.of_kind ?_)) fun _ => ?_
        · split <;> decide
        refine .ite (fun _ => .after fun _ => .after fun _ => .after fun _ => .pure
          (.of_kind (by decide))) fun _ => .ite (fun _ => ?_) fun _ => ?_
        · exact .after fun _ => .after fun _ => .after fun _ => .after fun _ => .pure
            (.of_kind (by decide))
        refine .ite (fun _ => .after fun _ => .pure (.of_kind (by decide))) fun _ => ?_
        refine .ite (fun _ => .after fun _ => .after fun _ => .after fun _ => .pure
          (.of_kind (by decide))) fun _ => ?_
        refine .ite (fun _ => .after fun _ => .pure (.of_kind (by decide))) fun _ => ?_
        exact .ite (fun hother => absurd (hlifetime.symm.trans hother) Bool.false_ne_true)
          fun _ => .refuse
      split at hrun
      · obtain ⟨_, _, hguard, hrun⟩ := run_bind_eq_ok.mp hrun
        obtain ⟨hstarts, rfl⟩ := run_guard_eq_ok.mp hguard
        exact (hchoose (startsLifetime_of_forLifetimes hinput hlifetimes fun _ => hstarts)).of_run hrun
      · next hplain =>
          refine (hchoose (startsLifetime_of_forLifetimes hinput hlifetimes fun hfor => ?_)).of_run hrun
          exact absurd (by rw [hfor]; rfl) hplain

/-- An optional bound starts with its mark. -/
theorem optional_of_run {joint : Bool} {tail rest : Input} {read : Node}
    (hrun : (bound reading false).run (.leaf (.punct "?" joint) :: tail) = .ok (read, rest)) :
    ∃ parts, read = .phrase .traitBound (.punct "?" :: parts) := by
  obtain ⟨isPath, hsteps, hisPath⟩ : ∃ isPath : Node → Bool,
      (bound reading false).run (.leaf (.punct "?" joint) :: tail) =
        ((do
          let late ← forLifetimes? reading
          let path ← reading (.type false)
          Parser.guard (isPath path)
          Parser.guard true
          return [.punct "?"] ++ late ++ path.parts) >>= fun parts : List Node =>
        if parts.any fun part => part.isIdent "const" || part.isGroup .bracket ||
            (part.isGroup .paren && part.parts.any fun inner =>
              inner.isIdent "const" || inner.isGroup .bracket)
        then sinceInput (.leaf (.punct "?" joint) :: tail)
        else return .phrase .traitBound parts : Parser Node).run tail ∧
        ∀ {path}, isPath path = true → ∃ own, path = .phrase .pathType own := by
    refine ⟨_, rfl, fun hown => ?_⟩
    split at hown
    · exact ⟨_, rfl⟩
    · cases hown
  rw [hsteps] at hrun
  obtain ⟨parts, _, hparts, hrun⟩ := run_bind_eq_ok.mp hrun
  obtain ⟨late, _, hlate, hparts⟩ := run_bind_eq_ok.mp hparts
  obtain ⟨path, _, hpath, hparts⟩ := run_bind_eq_ok.mp hparts
  obtain ⟨_, _, hguard, hparts⟩ := run_bind_eq_ok.mp hparts
  obtain ⟨own, rfl⟩ := hisPath (run_guard_eq_ok.mp hguard).1
  obtain ⟨_, _, -, hpure⟩ := run_bind_eq_ok.mp hparts
  obtain ⟨segments, rfl⟩ := (plainForm_of_run hpath).path rfl
  cases hpure
  rw [if_neg] at hrun
  · cases hrun
    exact ⟨_, rfl⟩
  · rcases run_forLifetimes? hlate with ⟨rfl, -⟩ | ⟨params, rfl⟩ <;> exact Bool.false_ne_true

theorem optionalBound_of_run {body rest : Input} {read : Node}
    (hrun : (parenContent reading).run body = .ok (.optionalBound read, rest)) :
    ∃ parts, read = .phrase .traitBound (.punct "?" :: parts) := by
  obtain ⟨_, _, hpeek, hrun⟩ := run_bind_eq_ok.mp hrun
  cases hpeek
  split at hrun
  · cases hrun
  obtain ⟨_, _, hpeek, hrun⟩ := run_bind_eq_ok.mp hrun
  cases hpeek
  split at hrun
  · next hstarts =>
      obtain ⟨joint, tail, rfl, -⟩ := startsChars_cons hstarts
      obtain ⟨own, left, hown, hpure⟩ := run_bind_eq_ok.mp hrun
      cases hpure
      exact optional_of_run hown
  · obtain ⟨first, left, -, hrun⟩ := run_bind_eq_ok.mp hrun
    obtain ⟨_, _, hpeek, hrun⟩ := run_bind_eq_ok.mp hrun
    split at hrun
    · obtain ⟨_, _, -, hpure⟩ := run_bind_eq_ok.mp hrun
      cases hpure
    · cases hrun

theorem plainForm_of_only {body rest : Input} {inner : Node}
    (hrun : (parenContent reading).run body = .ok (.only inner, rest)) : PlainForm inner := by
  obtain ⟨_, _, hpeek, hrun⟩ := run_bind_eq_ok.mp hrun
  split at hrun
  · cases hrun
  obtain ⟨_, _, hpeek, hrun⟩ := run_bind_eq_ok.mp hrun
  split at hrun
  · obtain ⟨own, left, -, hpure⟩ := run_bind_eq_ok.mp hrun
    cases hpure
  obtain ⟨first, left, hfirst, hrun⟩ := run_bind_eq_ok.mp hrun
  obtain ⟨_, _, hpeek, hrun⟩ := run_bind_eq_ok.mp hrun
  split at hrun
  · obtain ⟨_, _, -, hpure⟩ := run_bind_eq_ok.mp hrun
    cases hpure
  · cases hrun
    exact plainForm_of_run hfirst

theorem startsOptional_of_parenBound? {inner first : Node} {more : List Node}
    (hform : PlainForm inner) (hfirst : parenBound? inner = some first) :
    startsOptional (first :: more) = false := by
  unfold parenBound? at hfirst
  split at hfirst
  · obtain ⟨own, rfl⟩ := hform.path rfl
    cases hfirst
    rfl
  · next parts =>
      cases hfirst
      cases parts with
      | nil => rfl
      | cons mark others => exact hform.object rfl
  · cases hfirst

theorem aloneAt_parenOrTupleType :
    AloneAt (parenOrTupleType reading true) (parenOrTupleType reading false) input := by
  refine .after fun {own middle} hget => ?_
  split
  · next body tail =>
      refine .after fun {content left} hcontent => .after fun {_ after} hset => ?_
      cases content with
      | nothing => exact .of_yields (.pure rfl)
      | list types => exact .of_yields (.pure rfl)
      | optionalBound bound =>
          obtain ⟨parts, rfl⟩ := optionalBound_of_run (run_within_eq_ok.mp hcontent).1
          refine .of_yields (.after fun more => .pure ?_)
          exact Bool.and_eq_false_iff.mpr (.inr rfl)
      | only inner =>
          have hform := plainForm_of_only (run_within_eq_ok.mp hcontent).1
          dsimp only
          refine .after fun {follows left} hfollows => ?_
          obtain ⟨hplus, hleft⟩ := Prod.mk.inj (Except.ok.inj hfollows)
          subst hleft
          have hinner : Yields (joinsBounds · = false)
              (pure (.phrase .parenType [.group .paren [inner]]) : Parser Node) := .pure rfl
          cases follows with
          | false => exact .of_yields hinner
          | true =>
              cases hfirst : parenBound? inner with
              | none => exact .of_yields hinner
              | some first =>
                  have hobject : ∀ more : List Node, more.any (·.isPunct "+") = true →
                      joinsBounds (.phrase .traitObjectType (first :: more)) = true := by
                    intro more hany
                    rw [joinsBounds, startsOptional_of_parenBound? hform hfirst, List.any_cons, hany,
                      Bool.or_true]
                    rfl
                  exact .joins_of_plus hplus hobject
  · exact .of_yields .refuse

theorem aloneAt_typeRule (hlifetime : input.startsLifetime = false) :
    AloneAt (typeRule reading true) (typeRule reading false) input := by
  refine .after fun {lifetimes middle} hlifetimes => .after fun {own rest} hget => ?_
  cases hget
  extract_lets joined alone
  have hchoose : middle.startsLifetime = false → AloneAt (joined ()) (alone ()) middle := by
    intro hlifetime
    refine .ite (fun _ => aloneAt_parenOrTupleType) fun _ => .ite (fun _ => .of_yields ?_) fun _ => ?_
    · exact .after fun _ => .after fun _ => .after fun _ => .after fun _ => .after fun _ => .pure rfl
    refine .ite (fun _ => aloneAt_pathLikeType) fun _ => ?_
    refine .ite (fun _ => aloneAt_dynType) fun _ => ?_
    refine .ite (fun _ => .of_yields (.after fun body => .pure ?_)) fun _ => ?_
    · split <;> rfl
    refine .ite (fun _ => .of_yields (.after fun _ => .after fun _ => .after fun _ => .pure rfl))
      fun _ => .ite (fun _ => .of_yields ?_) fun _ => ?_
    · exact .after fun _ => .after fun _ => .after fun _ => .after fun _ => .pure rfl
    refine .ite (fun _ => .of_yields (.after fun _ => .pure rfl)) fun _ => ?_
    refine .ite (fun _ => aloneAt_implType) fun _ => ?_
    refine .ite (fun _ => .of_yields (.after fun _ => .pure rfl)) fun _ => ?_
    exact .ite (fun hother => absurd (hlifetime.symm.trans hother) Bool.false_ne_true)
      fun _ => .of_yields .refuse
  refine .ite (fun _ => .after fun {_ rest} hguard => ?_) fun hplain => hchoose ?_
  · obtain ⟨hstarts, rfl⟩ := run_guard_eq_ok.mp hguard
    exact hchoose (startsLifetime_of_forLifetimes hlifetime hlifetimes fun _ => hstarts)
  · refine startsLifetime_of_forLifetimes hlifetime hlifetimes fun hfor => ?_
    exact absurd (by rw [hfor]; rfl) hplain

end Forms

/-! ### Behind an `&` -/

section Borrowed

variable {plus : Bool} {type : Node} {input rest : Input}

theorem not_mut_of_run (hrun : (reading (.type plus)).run input = .ok (type, rest)) :
    input.startsWord "mut" = false := by
  refine Bool.eq_false_iff.mpr fun hstarts => ?_
  rw [run_reading] at hrun
  cases input with
  | nil => cases hstarts
  | cons node tail =>
      match node with
      | .leaf (.ident word) =>
          obtain rfl := beq_iff_eq.mp hstarts
          exact nomatch (rfl : (typeRule reading plus).run (.leaf (.ident "mut") :: tail) =
            .error .unexpected).symm.trans hrun

theorem joinsBounds_of_lifetime (hrun : (reading (.type true)).run input = .ok (type, rest))
    (hstarts : input.startsLifetime = true) : joinsBounds type = true := by
  have hjoined := (startsType_of_run hrun).joined
  rw [hstarts, Bool.true_and, Bool.not_eq_false'] at hjoined
  cases input with
  | nil => cases hstarts
  | cons node tail =>
      obtain ⟨name, rfl⟩ := startsLifetime_cons hstarts
      rw [run_reading] at hrun
      obtain ⟨more, left, hmore, rfl⟩ := run_type_lifetime hrun
      rcases run_joinStep hmore with ⟨hplain, -⟩ | ⟨-, hany⟩
      · exact absurd (hplain.symm.trans hjoined) Bool.false_ne_true
      · exact Bool.and_eq_true_iff.mpr ⟨hany, rfl⟩

theorem lexed_referenceTo (type : Node) :
    (referenceTo type).lexed = .punct "&" :: type.lexed := by
  simp [referenceTo, Kind.isOpen]

/-- **A type behind an `&`.** A type that is read back is read back behind an `&` too, if it joins no
bounds. -/
theorem readsType_referenceTo (htype : ReadsType type) (hjoins : joinsBounds type = false)
    (hverbatim : type.is .verbatim = false) : ReadsType (referenceTo type) := by
  intro rest hrest
  have hrun := htype rest hrest
  have hlifetime : Input.startsLifetime (type.lexed ++ rest) = false :=
    Bool.eq_false_iff.mpr fun hstarts =>
      Bool.false_ne_true (hjoins.symm.trans (joinsBounds_of_lifetime hrun hstarts))
  have hmut := not_mut_of_run hrun
  rw [run_reading] at hrun
  have halone := (aloneAt_typeRule hlifetime).same hrun hjoins hverbatim
  rw [lexed_referenceTo, List.cons_append]
  exact @run_reference rest true [] (type.lexed ++ rest) type (run_orNothing_of hlifetime)
    (run_orNothing_of hmut) (run_reading.trans halone)

end Borrowed

end EntityTables.Syntax
