import EntityTables.Proofs.Syntax.Running
import EntityTables.Unit.Basic

/-!
# The form of items

What the productions of items make has a form that later passes rely on: where the attributes, the
name and the fields of a struct stand, what the members of a trait are, how a receiver is written.
A production reads trees of such a form whatever it starts from, and so the items of a file have it
wherever modules place them.
-/

namespace EntityTables.Syntax

open EntityTables.Syntax.Parser

/-! ### The forms -/

/-- A field with a name or without one, with its attributes in front. -/
inductive IsField : Node → Prop
  | named (attributes : List Node) (visibility : Node) (name : String) (colon type : Node) :
      IsField (.phrase .field
        [.phrase .attributes attributes, visibility, .leaf (.ident name), colon, type])
  | unnamed (attributes : List Node) (visibility type : Node) :
      IsField (.phrase .tupleField [.phrase .attributes attributes, visibility, type])

/-- The parts of a struct after its generic parameters: it has no fields, fields with names in
braces, or fields without names in parentheses. -/
inductive IsStructBody : List Node → Prop
  | unit (predicates : List Node) : IsStructBody [.phrase .whereClause predicates, .punct ";"]
  | named (predicates : List Node) {fields : List Node}
      (hfields : All (fun node => node = .punct "," ∨ IsField node) fields) :
      IsStructBody [.phrase .whereClause predicates, .group .brace fields]
  | unnamed {fields : List Node} (predicates : Node)
      (hfields : All (fun node => node = .punct "," ∨ IsField node) fields) :
      IsStructBody [.group .paren fields, predicates, .punct ";"]

/-- A receiver, by reference perhaps with a lifetime, or by value perhaps with its type. -/
inductive IsReceiver : Node → Prop
  | byReference (attributes : List Node) {lifetime mutability : List Node}
      (hlifetime : lifetime = [] ∨ ∃ name, lifetime = [.leaf (.lifetime name)])
      (hmutability : mutability = [] ∨ mutability = [.ident "mut"]) :
      IsReceiver (.phrase .receiver
        (.phrase .attributes attributes :: .punct "&" :: lifetime ++ mutability ++ [.ident "self"]))
  | byValue (attributes : List Node) {mutability type : List Node}
      (hmutability : mutability = [] ∨ mutability = [.ident "mut"])
      (htype : type = [] ∨ ∃ kind parts, type = [.punct ":", .phrase kind parts]) :
      IsReceiver (.phrase .receiver
        (.phrase .attributes attributes :: mutability ++ .ident "self" :: type))

/-- What may stand in the parentheses of a signature. -/
inductive IsInput : Node → Prop
  | receiver {parts : List Node} (hreceiver : IsReceiver (.phrase .receiver parts)) :
      IsInput (.phrase .receiver parts)
  | param (parts : List Node) : IsInput (.phrase .param parts)
  | rest (parts : List Node) : IsInput (.phrase .restPat parts)

/-- A signature with its name, its inputs and, if it declares one, its result. -/
inductive IsSignature : Node → Prop
  | signature (qualifiers keyword : Node) {name : String} (generics : Node)
      {inputs result : List Node} (predicates : Node) (hname : isName name = true)
      (hinputs : All (fun node => node = .punct "," ∨ IsInput node) inputs)
      (hresult : result = [] ∨ ∃ arrow type, result = [arrow, type]) :
      IsSignature (.phrase .signature [qualifiers, keyword, .leaf (.ident name), generics,
        .group .paren inputs, .phrase .returnType result, predicates])

/-- What stands in the braces of a trait: its inner attributes, its methods, and what is no
method. -/
inductive IsTraitMember : Node → Prop
  | attributes (parts : List Node) : IsTraitMember (.phrase .attributes parts)
  | method (attributes : List Node) {signature body : Node} (hsignature : IsSignature signature)
      (hbody : body = .punct ";" ∨ ∃ statements, body = .group .brace statements) :
      IsTraitMember (.phrase .traitFn [.phrase .attributes attributes, signature, body])
  | other {kind : Kind} (parts : List Node)
      (hkind : kind = .member ∨ kind = .macroItem ∨ kind = .verbatim) :
      IsTraitMember (.phrase kind parts)

/-- An item, or the attributes at the front of a module. -/
inductive IsItem : Node → Prop
  | structItem (attributes : List Node) (visibility keyword : Node) {name : String}
      (generics : Node) {body : List Node} (hname : isName name = true)
      (hbody : IsStructBody body) :
      IsItem (.phrase .structItem (.phrase .attributes attributes :: visibility :: keyword ::
        .leaf (.ident name) :: generics :: body))
  | traitItem (attributes : List Node) (visibility qualifiers keyword : Node) {name : String}
      (generics supertraits predicates : Node) {members : List Node} (hname : isName name = true)
      (hmembers : All IsTraitMember members) :
      IsItem (.phrase .traitItem [.phrase .attributes attributes, visibility, qualifiers, keyword,
        .leaf (.ident name), generics, supertraits, predicates, .group .brace members])
  | modItem (attributes visibility qualifiers keyword name : Node) {items : List Node}
      (hitems : All IsItem items) :
      IsItem (.phrase .modItem [attributes, visibility, qualifiers, keyword, name,
        .group .brace items])
  | modFile (attributes visibility qualifiers keyword name : Node) :
      IsItem (.phrase .modItem [attributes, visibility, qualifiers, keyword, name, .punct ";"])
  | other {kind : Kind} (parts : List Node)
      (hkind : kind ≠ .structItem ∧ kind ≠ .traitItem ∧ kind ≠ .modItem) :
      IsItem (.phrase kind parts)

/-- What a nonterminal reads. -/
def Nonterminal.Yielding : Nonterminal → Node → Prop
  | .type _, node => ∃ kind parts, node = .phrase kind parts
  | .item, node => IsItem node
  | _, _ => True

/-! ### Types -/

section Productions

variable {sub : Nonterminal → Parser Node} {front : ItemFront}

theorem sinceInput_yields (start : Input) :
    Yields (fun node => ∃ parts, node = .phrase .verbatim parts) (sinceInput start) :=
  .after fun _ => .pure ⟨_, rfl⟩

/-- Trees that are no tokens and no groups. -/
abbrev IsPhrase (node : Node) : Prop := ∃ kind parts, node = .phrase kind parts

theorem sinceInput_yields_phrase (start : Input) : Yields IsPhrase (sinceInput start) :=
  (sinceInput_yields start).mono fun _ ⟨parts, heq⟩ => ⟨.verbatim, parts, heq⟩

theorem typePath_yields : Yields IsPhrase (typePath sub) := by
  refine .after fun rounds => .after fun starts => .ite (fun _ => ?_) fun _ => ?_
  · exact .after fun _ => .after fun _ => .pure ⟨_, _, rfl⟩
  · exact .after fun _ => .after fun _ => .pure ⟨_, _, rfl⟩

theorem pathLikeType_yields (plus : Bool) (lifetimes : List Node) :
    Yields IsPhrase (pathLikeType sub plus lifetimes) := by
  refine typePath_yields.bind fun type htype => ?_
  split
  · dsimp only
    refine .after fun _ => .ite (fun _ => ?_) fun _ => .after fun _ => .ite (fun _ => ?_) fun _ => ?_
    · exact .after fun _ => .after fun _ => .pure ⟨_, _, rfl⟩
    · refine .ite (fun _ => ?_) fun _ => ?_
      · exact .after fun _ => .pure ⟨_, _, rfl⟩
      · exact .after fun _ => .pure ⟨_, _, rfl⟩
    · exact .pure htype
  · exact .pure htype

theorem parenOrTupleType_yields (plus : Bool) : Yields IsPhrase (parenOrTupleType sub plus) := by
  refine .after fun input => ?_
  split
  · refine .after fun content => .after fun _ => ?_
    cases content with
    | nothing => exact .pure ⟨_, _, rfl⟩
    | list types => exact .pure ⟨_, _, rfl⟩
    | optionalBound bound => exact .after fun _ => .pure ⟨_, _, rfl⟩
    | only inner =>
        dsimp only
        refine .after fun plusFollows => .ite (fun _ => ?_) fun _ => .pure ⟨_, _, rfl⟩
        split
        · exact .after fun _ => .pure ⟨_, _, rfl⟩
        · exact .pure ⟨_, _, rfl⟩
  · exact .refuse

theorem functionType_yields (lifetimes : List Node) :
    Yields IsPhrase (functionType sub lifetimes) := by
  refine .after fun unsafety => .after fun abi => .after fun keyword => .after fun params => ?_
  exact .after fun result => .pure ⟨_, _, rfl⟩

theorem dynType_yields (plus : Bool) : Yields IsPhrase (dynType sub plus) := by
  refine .after fun start => .after fun keyword => .after fun star => .after fun bounds => ?_
  refine .after fun _ => .ite (fun _ => .pure ⟨_, _, rfl⟩) fun _ => ?_
  exact sinceInput_yields_phrase _

theorem arrayOrSliceType_yields : Yields IsPhrase (arrayOrSliceType sub) :=
  .after fun _ => .pure ⟨_, _, rfl⟩

theorem typeRule_yields (plus : Bool) : Yields IsPhrase (typeRule sub plus) := by
  refine .after fun lifetimes => .after fun input => ?_
  extract_lets choose
  have hchoose : ∀ checked, Yields IsPhrase (choose checked) := by
    intro checked
    refine .ite (fun _ => parenOrTupleType_yields plus) fun _ => ?_
    refine .ite (fun _ => functionType_yields lifetimes) fun _ => ?_
    refine .ite (fun _ => pathLikeType_yields plus lifetimes) fun _ => ?_
    refine .ite (fun _ => dynType_yields plus) fun _ => ?_
    refine .ite (fun _ => arrayOrSliceType_yields) fun _ => ?_
    refine .ite (fun _ => .after fun _ => .after fun _ => .after fun _ => .pure ⟨_, _, rfl⟩) fun _ => ?_
    refine .ite (fun _ => ?_) fun _ => .ite (fun _ => .after fun _ => .pure ⟨_, _, rfl⟩) fun _ => ?_
    · exact .after fun _ => .after fun _ => .after fun _ => .after fun _ => .pure ⟨_, _, rfl⟩
    refine .ite (fun _ => .after fun _ => .after fun _ => .after fun _ => .pure ⟨_, _, rfl⟩) fun _ => ?_
    refine .ite (fun _ => .after fun _ => .pure ⟨_, _, rfl⟩) fun _ => ?_
    exact .ite (fun _ => .after fun _ => .after fun _ => .pure ⟨_, _, rfl⟩) fun _ => .refuse
  exact .ite (fun _ => .after hchoose) fun _ => hchoose ()

/-! ### Signatures -/

theorem outerAttributes_yields :
    Yields (fun node => ∃ attributes, node = .phrase .attributes attributes)
      (outerAttributes sub) :=
  .after fun _ => .pure ⟨_, rfl⟩

theorem word?_yields (word : String) :
    Yields (fun read => read = [] ∨ read = [.ident word]) (word? word) :=
  .orNothing _ ((Yields.word word).bind fun _ hread => .pure (congrArg (fun node => [node]) hread))

theorem lifetime?_yields :
    Yields (fun read => read = [] ∨ ∃ name, read = [.leaf (.lifetime name)]) lifetime? := by
  refine .orNothing _ (.bind (P := fun node => ∃ name, node = .leaf (.lifetime name)) ?_ ?_)
  · refine .when fun node rest hstarts => ?_
    unfold Input.startsLifetime at hstarts
    split at hstarts
    · next name _ heq =>
        cases heq
        exact ⟨name, rfl⟩
    · cases hstarts
  · rintro _ ⟨name, rfl⟩
    exact .pure ⟨name, rfl⟩

section Inputs

variable (htype : ∀ plus, Yields IsPhrase (sub (.type plus)))

include htype

theorem receiver_yields (attributes : List Node) :
    Yields IsReceiver (receiver sub (.phrase .attributes attributes)) := by
  refine .bind (P := fun reference => reference = [] ∨ ∃ lifetime : List Node,
      (lifetime = [] ∨ ∃ name, lifetime = [.leaf (.lifetime name)]) ∧
        reference = .punct "&" :: lifetime) ?_ fun reference hreference => ?_
  · refine .orNothing _ ((Yields.punct "&").bind fun sign hsign => ?_)
    exact lifetime?_yields.bind fun lifetime hlifetime => .pure ⟨lifetime, hlifetime, by rw [hsign]⟩
  · refine (word?_yields "mut").bind fun mutability hmutability => ?_
    refine (Yields.word "self").bind fun self hself => ?_
    subst hself
    rcases hreference with rfl | ⟨lifetime, hlifetime, rfl⟩
    · refine .bind (P := fun type => type = [] ∨
          ∃ kind parts, type = [.punct ":", .phrase kind parts]) ?_ fun type htype => ?_
      · refine .orNothing _ ((Yields.punct ":").bind fun colon hcolon => ?_)
        refine (htype true).bind ?_
        rintro _ ⟨kind, parts, rfl⟩
        exact .pure ⟨kind, parts, by rw [hcolon]⟩
      · exact .pure (.byValue attributes hmutability htype)
    · refine .bind (P := fun type => type = []) ?_ ?_
      · refine (Yields.peek _).bind fun starts hstarts => .ite (fun htyped => ?_) fun _ => .pure rfl
        obtain ⟨input, rfl⟩ := hstarts
        cases htyped
      · rintro _ rfl
        exact .pure (.byReference attributes hlifetime hmutability)

theorem functionParam_yields : Yields IsInput (functionParam sub) := by
  refine outerAttributes_yields.bind ?_
  rintro _ ⟨attributes, rfl⟩
  refine .after fun rest => .ite (fun _ => .after fun _ => .pure (.rest _)) fun _ => ?_
  refine (receiver_yields htype attributes).attempt.bind fun found hfound => ?_
  cases found with
  | some receiver =>
      have hreceiver := hfound receiver rfl
      cases hreceiver with
      | byReference _ hlifetime hmutability =>
          exact .pure (.receiver (.byReference _ hlifetime hmutability))
      | byValue _ hmutability htyped => exact .pure (.receiver (.byValue _ hmutability htyped))
  | none =>
      refine .after fun generic => .ite (fun _ => .after fun _ => .pure (.param _)) fun _ => ?_
      refine .after fun pattern => .after fun colon => .after fun variadic => ?_
      exact .ite (fun _ => .after fun _ => .pure (.rest _)) fun _ => .after fun _ => .pure (.param _)

theorem functionParams_yields :
    Yields (All fun node => node = .punct "," ∨ IsInput node) (functionParams sub) :=
  (Yields.commaList (.one (functionParam_yields htype))).bind fun _ hparams =>
    .after fun _ => .pure hparams

theorem signature_yields (safe : Bool) : Yields IsSignature (signature sub safe) := by
  refine .after fun qualifiers => .after fun keyword => Yields.name.bind ?_
  rintro _ ⟨name, rfl, hname⟩
  refine .after fun generics => ((functionParams_yields htype).group .paren).bind ?_
  rintro _ ⟨params, rfl, hparams⟩
  refine .bind (P := fun result => ∃ parts, result = .phrase .returnType parts ∧
    (parts = [] ∨ ∃ arrow type, parts = [arrow, type])) ?_ ?_
  · refine .bind (P := fun parts => parts = [] ∨ ∃ arrow type, parts = [arrow, type]) ?_ ?_
    · exact .orNothing _ (.after fun arrow => .after fun type => .pure ⟨arrow, type, rfl⟩)
    · exact fun parts hparts => .pure ⟨parts, rfl, hparts⟩
  · rintro _ ⟨result, rfl, hresult⟩
    exact .after fun predicates =>
      .pure (.signature qualifiers keyword generics predicates hname hparams hresult)

end Inputs

/-! ### Items -/

theorem itemFront_yields :
    Yields (fun front => ∃ attributes, front.attributes = .phrase .attributes attributes)
      (itemFront sub) := by
  refine .after fun start => outerAttributes_yields.bind fun attributes hattributes => ?_
  exact .after fun visibility => .pure hattributes

theorem nameOrUnderscore_yields :
    Yields (fun read => ∃ name, read = .leaf (.ident name)) nameOrUnderscore := by
  refine .when fun node rest hstarts => ?_
  rcases node with (name | _) | _ | _
  · exact ⟨name, rfl⟩
  all_goals cases hstarts

theorem namedField_yields : Yields IsField (namedField sub) := by
  refine outerAttributes_yields.bind ?_
  rintro _ ⟨attributes, rfl⟩
  refine .after fun visibility => nameOrUnderscore_yields.bind ?_
  rintro _ ⟨name, rfl⟩
  refine .after fun colon => .after fun start => .ite (fun _ => ?_) fun _ => ?_
  · exact .after fun _ => .after fun _ => .after fun _ => .pure (.named ..)
  · exact .after fun _ => .pure (.named ..)

theorem tupleField_yields : Yields IsField (tupleField sub) := by
  refine outerAttributes_yields.bind ?_
  rintro _ ⟨attributes, rfl⟩
  exact .after fun visibility => .after fun type => .pure (.unnamed ..)

theorem whereClause_yields :
    Yields (fun node => ∃ parts, node = .phrase .whereClause parts) (whereClause sub) := by
  refine .after fun starts => .ite (fun _ => .pure ⟨[], rfl⟩) fun _ => ?_
  refine .after fun keyword => .after fun predicates => .ite (fun _ => .pure ⟨[], rfl⟩) fun _ => ?_
  exact .pure ⟨_, rfl⟩

section Items

variable (hfront : ∃ attributes, front.attributes = .phrase .attributes attributes)

include hfront

theorem structItem_yields : Yields IsItem (structItem sub front) := by
  obtain ⟨attributes, hattributes⟩ := hfront
  refine .after fun keyword => Yields.name.bind ?_
  rintro _ ⟨name, rfl, hname⟩
  refine .after fun generics => ?_
  have hform (body : List Node) (hbody : IsStructBody body) : IsItem (.phrase .structItem
      (front.parts ++ [keyword, .leaf (.ident name), generics] ++ body)) := by
    rw [ItemFront.parts, hattributes]
    exact .structItem attributes front.visibility keyword generics hname hbody
  refine .after fun unnamed => .ite (fun _ => ?_) fun _ => ?_
  · refine ((Yields.commaList (.one tupleField_yields)).group .paren).bind ?_
    rintro _ ⟨fields, rfl, hfields⟩
    refine .after fun predicates => (Yields.punct ";").bind ?_
    rintro _ rfl
    exact .pure (hform _ (.unnamed predicates hfields))
  · refine whereClause_yields.bind ?_
    rintro _ ⟨predicates, rfl⟩
    refine .after fun named => .ite (fun _ => ?_) fun _ => ?_
    · refine ((Yields.commaList (.one namedField_yields)).group .brace).bind ?_
      rintro _ ⟨fields, rfl, hfields⟩
      exact .pure (hform _ (.named predicates hfields))
    · refine (Yields.punct ";").bind ?_
      rintro _ rfl
      exact .pure (hform _ (.unit predicates))

end Items

/-! ### Items that are neither structs nor traits nor modules -/

theorem asWritten_yields : Yields IsItem front.asWritten :=
  (sinceInput_yields _).mono fun _ ⟨_, heq⟩ => heq ▸ .other _ (by decide)

theorem enumItem_yields : Yields IsItem (enumItem sub front) :=
  .after fun _ => .after fun _ => .after fun _ => .after fun _ => .after fun _ =>
    .pure (.other _ (by decide))

theorem unionItem_yields : Yields IsItem (unionItem sub front) :=
  .after fun _ => .after fun _ => .after fun _ => .after fun _ => .after fun _ =>
    .pure (.other _ (by decide))

theorem typeItem_yields : Yields IsItem (typeItem sub front) :=
  .after fun _ => .ite (fun _ => asWritten_yields) fun _ => .pure (.other _ (by decide))

theorem constItem_yields : Yields IsItem (constItem sub front) := by
  refine .after fun keyword => .after fun constant => ?_
  split
  · exact .pure (.other _ (by decide))
  · exact asWritten_yields

theorem staticItem_yields : Yields IsItem (staticItem sub front) := by
  refine .after fun keyword => .after fun mutability => .after fun name => .after fun type => ?_
  refine .after fun value => .after fun closing => ?_
  exact .ite (fun _ => asWritten_yields) fun _ => .pure (.other _ (by decide))

theorem fnItem_yields : Yields IsItem (fnItem sub front) := by
  refine .after fun signature => .after fun closed => .ite (fun _ => ?_) fun _ => ?_
  · exact .after fun _ => asWritten_yields
  · exact .after fun _ => .pure (.other _ (by decide))

theorem useItem_yields : Yields IsItem (useItem sub front) := by
  refine .after fun keyword => .after fun leading => ?_
  extract_lets close
  have hclose : ∀ tree, Yields IsItem (close tree) := by
    refine fun tree => .after fun closing => ?_
    exact .ite (fun _ => asWritten_yields) fun _ => .pure (.other _ (by decide))
  exact .ite (fun _ => .after hclose) fun _ => .after hclose

theorem crateItem_yields : Yields IsItem (crateItem front) :=
  .after fun _ => .after fun _ => .after fun _ => .after fun _ => .after fun _ =>
    .pure (.other _ (by decide))

theorem macroCall_yields (named : Bool) (attributes : Node) :
    Yields (fun node => ∃ parts, node = .phrase .macroItem parts) (macroCall named attributes) := by
  refine .after fun path => .after fun sign => .after fun name => .after fun body => ?_
  extract_lets close
  have hclose : ∀ closing, Yields (fun node => ∃ parts, node = .phrase .macroItem parts)
      (close closing) := fun closing => .pure ⟨_, rfl⟩
  exact .ite (fun _ => .after hclose) fun _ => .after hclose

theorem implItem_yields : Yields IsItem (implItem sub front) := by
  refine .after fun default => .after fun unsafety => .after fun keyword => .after fun starts => ?_
  extract_lets afterGenerics
  have hgenerics : ∀ generics, Yields IsItem (afterGenerics generics) := by
    refine fun generics => .after fun isConst => ?_
    extract_lets afterConst
    have hconst : ∀ read, Yields IsItem (afterConst read) := by
      refine fun _ => .after fun start => .after fun negative => .after fun first => ?_
      refine .after fun isFor => .after fun implFor => ?_
      extract_lets afterSelf
      have hself : ∀ self, Yields IsItem (afterSelf self) := by
        refine fun self => .after fun predicates => .after fun members => ?_
        exact .ite (fun _ => asWritten_yields) fun _ => .pure (.other _ (by decide))
      refine .ite (fun _ => .after hself) fun _ => .ite (fun _ => .after hself) fun _ => ?_
      exact .after hself
    exact .ite (fun _ => .after fun _ => .after hconst) fun _ => hconst ()
  exact .ite (fun _ => .after hgenerics) fun _ => .after hgenerics

theorem foreignItem_yields : Yields IsItem (foreignItem sub front) :=
  .after fun _ => .after fun _ => .after fun _ => .after fun _ => .pure (.other _ (by decide))

theorem externItem_yields : Yields IsItem (externItem sub front) :=
  .after fun _ => .ite (fun _ => crateItem_yields) fun _ => foreignItem_yields

theorem macroDefinition_yields : Yields IsItem (macroDefinition front) :=
  .after fun _ => .after fun _ => .after fun _ => .after fun _ => asWritten_yields

/-! ### Traits and modules -/

theorem innerAttributes?_yields :
    Yields (All fun node => ∃ parts, node = .phrase .attributes parts) (innerAttributes? sub) := by
  refine .bind (P := fun node => ∃ parts, node = .phrase .attributes parts)
    (.after fun _ => .pure ⟨_, rfl⟩) ?_
  rintro _ ⟨attributes, rfl⟩
  refine .pure fun node hmem => ?_
  split at hmem
  · cases hmem
  · exact ⟨attributes, List.mem_singleton.mp hmem⟩

/-- The trees in the braces of an item: its inner attributes, then its members. -/
theorem members_yields {P : Node → Prop} {member : Parser Node} (hmember : Yields P member)
    (hattributes : ∀ parts, P (.phrase .attributes parts)) :
    Yields (All P) (do
      return (← innerAttributes? sub) ++
        (← many (fun input => !input.isEmpty) (one member))) := by
  refine innerAttributes?_yields.bind fun attributes hinner => ?_
  refine (Yields.many _ (.one hmember)).bind fun members hmembers => .pure fun node hmem => ?_
  rcases List.mem_append.mp hmem with hmem | hmem
  · obtain ⟨parts, rfl⟩ := hinner node hmem
    exact hattributes parts
  · exact hmembers node hmem

section Nested

variable (hsub : ∀ nonterminal, Yields nonterminal.Yielding (sub nonterminal))

include hsub

theorem traitMember_yields : Yields IsTraitMember (traitMember sub) := by
  have htype (plus : Bool) : Yields IsPhrase (sub (.type plus)) := hsub (.type plus)
  have hwritten {front : ItemFront} : Yields IsTraitMember front.asWritten :=
    (sinceInput_yields _).mono fun _ ⟨parts, heq⟩ => heq ▸ .other parts (by decide)
  refine itemFront_yields.bind ?_
  rintro front ⟨attributes, hattributes⟩
  refine .after fun default => .after fun input => ?_
  extract_lets close
  have hclose : ∀ member, IsTraitMember member → Yields IsTraitMember (close member) := by
    intro member hmember
    exact .ite (fun _ => .after fun _ => hwritten) fun _ => .pure hmember
  refine .ite (fun _ => ?_) fun _ => .ite (fun _ => ?_) fun _ => .ite (fun _ => ?_) fun _ => ?_
  · refine (signature_yields htype false).bind fun signature hsignature => .after fun ends => ?_
    extract_lets finish
    have hfinish : ∀ body, (body = .punct ";" ∨ ∃ statements, body = .group .brace statements) →
        Yields IsTraitMember (finish body) := by
      intro body hbody
      refine .bind (P := (· = .phrase .traitFn [front.attributes, signature, body])) (.pure rfl) ?_
      rintro _ rfl
      rw [hattributes]
      exact hclose _ (.method attributes hsignature hbody)
    refine .ite (fun _ => ?_) fun _ => ?_
    · exact (Yields.punct ";").bind fun body hbody => hfinish body (Or.inl hbody)
    · refine ((Yields.always _).group .brace).bind fun body hbody => hfinish body (Or.inr ?_)
      obtain ⟨statements, hbody, -⟩ := hbody
      exact ⟨statements, hbody⟩
  · refine .after fun keyword => .after fun constant => ?_
    split
    · exact .bind (P := IsTraitMember) (.pure (.other _ (by decide))) hclose
    · exact hwritten.bind hclose
  · refine .after fun definition => .bind (P := IsTraitMember) (.pure ?_) hclose
    exact .other _ (by decide)
  · refine .after fun starts => ((macroCall_yields false front.attributes).mono ?_).bind hclose
    rintro _ ⟨parts, rfl⟩
    exact .other parts (by decide)

theorem traitRest_yields
    (hfront : ∃ attributes, front.attributes = .phrase .attributes attributes)
    (qualifiers : List Node) (keyword generics : Node) {name : String}
    (hname : isName name = true) :
    Yields IsItem (traitRest sub front qualifiers keyword (.leaf (.ident name)) generics) := by
  obtain ⟨attributes, hattributes⟩ := hfront
  refine .after fun supertraits => .after fun predicates => ?_
  refine ((members_yields (traitMember_yields hsub) .attributes).group .brace).bind ?_
  rintro _ ⟨members, rfl, hmembers⟩
  rw [ItemFront.parts, hattributes]
  exact .pure (.traitItem _ _ _ _ _ _ _ hname hmembers)

theorem traitItem_yields
    (hfront : ∃ attributes, front.attributes = .phrase .attributes attributes) :
    Yields IsItem (traitItem sub front) := by
  refine .after fun unsafety => .after fun auto => .after fun keyword => Yields.name.bind ?_
  rintro _ ⟨name, rfl, hname⟩
  refine .after fun generics => .after fun isAlias => .ite (fun _ => ?_) fun _ => ?_
  · refine .after fun sign => .after fun bounds => .after fun predicates => ?_
    exact .after fun closing => .pure (.other _ (by decide))
  · exact traitRest_yields hsub hfront _ _ _ hname

theorem modItem_yields : Yields IsItem (modItem sub front) := by
  refine .after fun unsafety => .after fun keyword => .after fun isTry => ?_
  extract_lets afterName
  have hname : ∀ name, Yields IsItem (afterName name) := by
    refine fun name => .after fun isFile => .ite (fun _ => ?_) fun _ => ?_
    · refine (Yields.punct ";").bind ?_
      rintro _ rfl
      exact .pure (.modFile ..)
    · refine ((members_yields (hsub .item) fun _ => .other _ (by decide)).group .brace).bind ?_
      rintro _ ⟨items, rfl, hitems⟩
      exact .pure (.modItem _ _ _ _ _ hitems)
  exact .ite (fun _ => .after hname) fun _ => .after hname

theorem itemRule_yields : Yields IsItem (itemRule sub) := by
  refine itemFront_yields.bind fun front hfront => .after fun input => ?_
  refine .ite (fun _ => fnItem_yields) fun _ => .ite (fun _ => externItem_yields) fun _ => ?_
  refine .ite (fun _ => useItem_yields) fun _ => .ite (fun _ => staticItem_yields) fun _ => ?_
  refine .ite (fun _ => constItem_yields) fun _ => .ite (fun _ => ?_) fun _ => ?_
  · refine .ite (fun _ => traitItem_yields hsub hfront) fun _ => ?_
    refine .ite (fun _ => implItem_yields) fun _ => ?_
    exact .ite (fun _ => foreignItem_yields) fun _ => modItem_yields hsub
  refine .ite (fun _ => modItem_yields hsub) fun _ => .ite (fun _ => typeItem_yields) fun _ => ?_
  refine .ite (fun _ => structItem_yields hfront) fun _ => .ite (fun _ => enumItem_yields) fun _ => ?_
  refine .ite (fun _ => unionItem_yields) fun _ => ?_
  refine .ite (fun _ => traitItem_yields hsub hfront) fun _ => ?_
  refine .ite (fun _ => implItem_yields) fun _ => .ite (fun _ => macroDefinition_yields) fun _ => ?_
  refine .after fun starts => (macroCall_yields true front.attributes).mono ?_
  rintro _ ⟨parts, rfl⟩
  exact .other parts (by decide)

theorem production_yields (nonterminal : Nonterminal) :
    Yields nonterminal.Yielding (production sub nonterminal) := by
  cases nonterminal with
  | type plus => exact typeRule_yields plus
  | item => exact itemRule_yields hsub
  | _ => exact .always _

end Nested

end Productions

/-! ### Whole files -/

theorem nonterminal_yields (depth : Nat) (start : Nonterminal) :
    Yields start.Yielding (nonterminal depth start) := by
  induction depth generalizing start with
  | zero => exact .refuse
  | succ depth ih => exact production_yields ih start

theorem yields_of_readAll {α : Type} {P : α → Prop} {input : Input} {read : α}
    {parser : (Nonterminal → Parser Node) → Parser α}
    (hread : (readAll input parser).toOption = some read)
    (hparser : ∀ depth, Yields P (parser (nonterminal depth))) : P read := by
  unfold readAll at hread
  split at hread
  · next own hrun =>
      cases hread
      exact (hparser _).of_run hrun
  · cases hread
  · cases hread

theorem isItem_of_itemOf? {input : List Node} {tree : Node} (hread : itemOf? input = some tree) :
    IsItem tree :=
  yields_of_readAll hread fun depth => nonterminal_yields depth .item

/-- A file is its inner attributes and its items. -/
theorem fileRule_yields (depth : Nat) :
    Yields (fun file => All IsItem (file.parts.drop 1)) (fileRule (nonterminal depth)) :=
  .after fun _ => (Yields.many _ (.one (nonterminal_yields depth .item))).bind
    fun _ hitems => .pure hitems

/-- A file that the grammar reads from some tokens. -/
def IsFile (file : Node) : Prop := ∃ tokens, fileOf? tokens = some file

theorem IsFile.items {file : Node} (hfile : IsFile file) : All IsItem (file.parts.drop 1) := by
  obtain ⟨tokens, hread⟩ := hfile
  have hrule := fileRule_yields
  exact yields_of_readAll (P := fun file => All IsItem (file.parts.drop 1)) hread hrule

theorem isFile_of_parseFile? {text : String} {file : Node} (hread : parseFile? text = some file) :
    IsFile file := by
  obtain ⟨tokens, -, hread⟩ := Option.bind_eq_some_iff.mp hread
  exact ⟨tokens, hread⟩

end EntityTables.Syntax

namespace EntityTables

open EntityTables.Syntax

/-- The items of a file have their form wherever modules place them. -/
theorem isItem_of_mem_placeItems {placed : PlacedItem} {module : String} {items : List Node}
    (hitems : All IsItem items) (hmem : placed ∈ placeItems module items) : IsItem placed.item := by
  refine placeItems.induct
    (fun module item => IsItem item → placed ∈ placeItem module item → IsItem placed.item)
    (fun module items => All IsItem items → placed ∈ placeItems module items → IsItem placed.item)
    ?_ ?_ ?_ ?_ module items hitems hmem
  · intro module attributes visibility qualifiers keyword name items ih hitem hmem
    unfold placeItem at hmem
    rcases List.mem_cons.mp hmem with rfl | hmem
    · exact hitem
    · refine ih ?_ hmem
      cases hitem with
      | modItem _ _ _ _ _ hitems => exact hitems
      | other _ hkind => exact absurd rfl hkind.2.2
  · intro module item hnot hitem hmem
    unfold placeItem at hmem
    split at hmem
    · exact absurd rfl (hnot _ _ _ _ _ _)
    · rw [List.mem_singleton.mp hmem]
      exact hitem
  · intro module _ hmem
    rw [placeItems] at hmem
    cases hmem
  · intro module item rest hitem hrest hitems hmem
    rw [placeItems] at hmem
    rcases List.mem_append.mp hmem with hmem | hmem
    · exact hitem (hitems item List.mem_cons_self) hmem
    · exact hrest (fun other hother => hitems other (List.mem_cons_of_mem _ hother)) hmem

end EntityTables
