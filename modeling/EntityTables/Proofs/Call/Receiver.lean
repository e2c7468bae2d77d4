import EntityTables.Proofs.Call.Order

/-!
# Where methods are called

A method acts on the place of its receiver: a variable, a field, an element, or what a pointer leads
to. A redirected call keeps a receiver where it stands, and so its place, unless the arguments have
to be bound in front of the call and the receiver is more than a name and its fields. Such a
receiver is bound by value: the method then acts on a copy with a place of its own.
-/

namespace EntityTables.Call

open EntityTables.Syntax

/-- What a program means whose values are kept at places. -/
structure PlaceSemantics (m : Type → Type) (P V : Type) extends Semantics m V where
  /-- The place that a path leads to, if it names no local. -/
  named : Node → m P
  field : Node → P → m P
  element : P → V → m P
  /-- The place to which a pointer at a place leads. -/
  target : P → m P
  /-- The place of a new pointer to a place. -/
  reference : P → m P
  /-- A place of its own for a value. -/
  fresh : V → m P
  /-- Calls a method on a place. -/
  invoke : String → Node → P → List V → m V

/-- What a pattern binds: a name for a value, which has a place if it is a variable. -/
structure Local (P V : Type) where
  value : V
  place? : Option P

/-- The values of locals. -/
def Locals.values {P V : Type} (scope : Locals (Local P V)) : Locals V :=
  fun name => (scope name).map (·.value)

/-- The names that the parts of a tuple pattern bind, and which of them are variables. -/
def boundLocals? : List Node → Option (List (String × Bool))
  | [] => some []
  | .leaf (.ident "mut") :: .leaf (.ident name) :: .leaf (.punct "," _) :: rest =>
    (boundLocals? rest).map ((withoutRaw name, true) :: ·)
  | .leaf (.ident name) :: .leaf (.punct "," _) :: rest =>
    (boundLocals? rest).map ((withoutRaw name, false) :: ·)
  | _ => none

/-- The name that a path consists of, given the parts of its expression. -/
def pathName? : List Node → Option String
  | [_, path] => path.soleName?
  | _ => none

/-- The name with which a receiver starts. -/
def rootName? : Node → Option String
  | .phrase .pathExpr parts => pathName? parts
  | .phrase .fieldExpr [_, base, _, _] => rootName? base
  | .phrase .parenExpr [_, .group _ [inner]] => rootName? inner
  | .phrase .referenceExpr [_, _, inner] => rootName? inner
  | .phrase .referenceExpr [_, _, _, inner] => rootName? inner
  | _ => none

/-- Whether an expression stands for a place: a path, a field, an element or what a pointer leads
to, perhaps in parentheses. -/
def standsForPlace : Node → Bool
  | .phrase .pathExpr _ => true
  | .phrase .fieldExpr _ => true
  | .phrase .indexExpr _ => true
  | .phrase .unaryExpr [_, sign, _] => sign.isPunct "*"
  | .phrase .parenExpr [_, .group _ [inner]] => standsForPlace inner
  | _ => false

namespace PlaceSemantics

variable {m : Type → Type} [Monad m] {P V : Type}

/-- Finds the place of an expression; what is no place is a value, which gets a place of its own. -/
def locate (s : PlaceSemantics m P V) (scope : Locals (Local P V)) : Node → m P
  | .phrase .pathExpr parts =>
    match (pathName? parts).bind fun name => scope (withoutRaw name) with
    | some ⟨_, some place⟩ => pure place
    | some ⟨value, none⟩ => s.fresh value
    | none => s.named (.phrase .pathExpr parts)
  | .phrase .fieldExpr [_, base, _, member] => locate s scope base >>= s.field member
  | .phrase .indexExpr [_, base, .group _ [index]] => do
    let base ← locate s scope base
    let index ← s.eval scope.values index
    s.element base index
  | .phrase .unaryExpr [_, .leaf (.punct "*" _), inner] => locate s scope inner >>= s.target
  | .phrase .parenExpr [_, .group _ [inner]] => locate s scope inner
  | .phrase .referenceExpr [_, _, inner] => locate s scope inner >>= s.reference
  | .phrase .referenceExpr [_, _, _, inner] => locate s scope inner >>= s.reference
  | node => s.eval scope.values node >>= s.fresh

/-- Binds values to locals; a variable gets a place of its own. -/
def allocate (s : PlaceSemantics m P V) (mutable : List Bool) (values : List V) :
    m (List (Local P V)) :=
  (mutable.zip values).mapM fun (isVariable, value) =>
    if isVariable then (fun place => ⟨value, some place⟩) <$> s.fresh value
    else pure ⟨value, none⟩

/-- Runs a call of a method on the place of its receiver, perhaps behind a `match` that binds values
first. -/
def run (s : PlaceSemantics m P V) (scope : Locals (Local P V)) : Node → m V
  | .phrase .matchExpr [attributes, keyword, .phrase .tupleExpr [own, .group .paren values],
      .group .brace [.phrase .arm [inner, .phrase .pattern [.group .paren pattern], arrow,
        body]]] =>
    match boundLocals? pattern with
    | some bound => do
      let values ← s.evalAll scope.values values
      let entries ← s.allocate (bound.map (·.2)) values
      run s (scope.bind (bound.map (·.1)) entries) body
    | none =>
      s.other scope.values (.phrase .matchExpr [attributes, keyword,
        .phrase .tupleExpr [own, .group .paren values], .group .brace [.phrase .arm
          [inner, .phrase .pattern [.group .paren pattern], arrow, body]]])
  | .phrase .methodCallExpr
      [_, receiver, _, .leaf (.ident name), turbofish, .group .paren arguments] => do
    let place ← s.locate scope receiver
    let values ← s.evalAll scope.values arguments
    s.invoke name turbofish place values
  | node => s.eval scope.values node

end PlaceSemantics

/-! ### Scopes -/

section Scopes

variable {P V : Type} {scope : Locals (Local P V)} {names : List String}
  {entries : List (Local P V)}

theorem lookup_zip_map_right {α β : Type} (f : α → β) (names : List String) (items : List α)
    (name : String) :
    (names.zip (items.map f)).lookup name = ((names.zip items).lookup name).map f := by
  induction names generalizing items with
  | nil => rfl
  | cons first rest ih =>
      cases items with
      | nil => rfl
      | cons item items =>
          simp only [List.map_cons, List.zip_cons_cons, List.lookup_cons]
          split
          · rfl
          · exact ih items

theorem values_bind : (scope.bind names entries).values =
    scope.values.bind names (entries.map (·.value)) := by
  funext name
  simp only [Locals.values, Locals.bind, lookup_zip_map_right]
  cases (names.zip entries).lookup name <;> rfl

/-- Names that are not bound mean what they mean outside. -/
theorem bind_of_not_mem {name : String} (hfree : name ∉ names) :
    scope.bind names entries name = scope name := by
  have hnone : (names.zip entries).lookup name = none := by
    refine List.lookup_eq_none_iff.mpr fun ⟨other, entry⟩ hentry => ?_
    have hother : other ∈ names := (List.of_mem_zip hentry).1
    exact bne_iff_ne.mpr fun hsame : name = other => hfree (hsame ▸ hother)
  rw [Locals.bind, hnone, Option.none_or]

theorem boundLocals?_commaEnded {α : Type} (items : List α) (name : α → String) :
    boundLocals? (commaEnded (items.map fun item => [.ident (name item)])) =
      some (items.map fun item => (withoutRaw (name item), false)) := by
  induction items with
  | nil => rfl
  | cons item rest ih =>
      have hstep : ∀ others, boundLocals? (.ident (name item) :: .punct "," :: others) =
          (boundLocals? others).map ((withoutRaw (name item), false) :: ·) := by
        simp [boundLocals?, Node.ident, Node.punct]
      simp only [commaEnded, List.map_cons, List.flatMap_cons, List.cons_append, List.nil_append]
        at ih ⊢
      rw [hstep, ih]
      rfl

theorem boundLocals?_mut (name : String) (rest : List Node) :
    boundLocals? (.ident "mut" :: .ident name :: .punct "," :: rest) =
      (boundLocals? rest).map ((withoutRaw name, true) :: ·) := rfl

end Scopes

namespace PlaceSemantics

variable {m : Type → Type} [Monad m] {P V : Type} (s : PlaceSemantics m P V)
  {scope : Locals (Local P V)} {receiver : Node} {names : List String} {entries : List (Local P V)}

/-- A place that is made of names and fields is the same in a scope that does not bind its first
name. -/
theorem locate_bind (hplace : isPlace receiver = true)
    (hroot : ∀ name, rootName? receiver = some name → withoutRaw name ∉ names) :
    s.locate (scope.bind names entries) receiver = s.locate scope receiver := by
  fun_induction isPlace receiver with
  | case1 parts =>
      unfold locate
      cases hname : pathName? parts with
      | none => rfl
      | some name =>
          rw [Option.bind_some, Option.bind_some, bind_of_not_mem (hroot name hname)]
  | case2 _ base _ member ih =>
      unfold locate
      rw [ih hplace hroot]
  | case3 _ _ inner ih =>
      unfold locate
      exact ih hplace hroot
  | case4 _ _ inner ih =>
      unfold locate
      rw [ih hplace hroot]
  | case5 _ _ _ inner ih =>
      unfold locate
      rw [ih hplace hroot]
  | case6 => cases hplace

/-! ### Runs of the pieces of a redirected call -/

theorem run_methodCallExpr (attributes dot turbofish : Node) (name : String)
    (implementation : ImplementationFunction) (targets : List Nat) (placed : List (Nat × Node)) :
    s.run scope (.phrase .methodCallExpr [attributes, receiver, dot, .ident name, turbofish,
        implementationArguments implementation targets placed]) =
      s.locate scope receiver >>= fun place =>
        s.evalAll scope.values (implementationArguments implementation targets placed).parts >>=
          s.invoke name turbofish place := rfl

variable [LawfulMonad m]

theorem run_bindingMatch {bindings : List Binding} {found : List (String × Bool)} {mutable : Bool}
    {call : Node} (hfound : boundLocals? (commaEnded (bindings.map (·.pattern))) = some found) :
    s.run scope (bindingMatch bindings mutable call) =
      (bindings.mapM fun binding => s.eval scope.values binding.value) >>= fun values =>
        s.allocate (found.map (·.2)) values >>= fun entries =>
          s.run (scope.bind (found.map (·.1)) entries) call := by
  have hmatch : s.run scope (bindingMatch bindings mutable call) =
      match boundLocals? (commaEnded (bindings.map (·.pattern))) with
      | some found => do
        let values ← s.evalAll scope.values (commaEnded (bindings.map fun b => [b.value]))
        let entries ← s.allocate (found.map (·.2)) values
        s.run (scope.bind (found.map (·.1)) entries) call
      | none => s.other scope.values (bindingMatch bindings mutable call) := rfl
  rw [hmatch, hfound, s.evalAll_commaEnded]

/-- Names that are no variables stand for their values. -/
theorem allocate_immutable {α : Type} (items : List α) {values : List V}
    (hlength : values.length = items.length) :
    s.allocate (items.map fun _ => false) values =
      pure (values.map fun value => ⟨value, none⟩) := by
  induction items generalizing values with
  | nil =>
      rw [List.length_eq_zero_iff.mp hlength]
      rfl
  | cons item rest ih =>
      cases values with
      | nil => cases hlength
      | cons value values =>
          have hrest := ih (Nat.succ.inj hlength)
          unfold allocate at hrest ⊢
          rw [List.map_cons, List.zip_cons_cons, List.mapM_cons, hrest]
          simp

theorem allocate_variable (mutable : List Bool) (value : V) (values : List V) :
    s.allocate (true :: mutable) (value :: values) =
      s.fresh value >>= fun place => s.allocate mutable values >>= fun entries =>
        pure (⟨value, some place⟩ :: entries) := by
  simp only [allocate, List.zip_cons_cons, List.mapM_cons, if_true, map_eq_pure_bind, bind_assoc,
    pure_bind]

end PlaceSemantics

section Redirected

variable {m : Type → Type} [Monad m] [LawfulMonad m] {P V : Type} (s : PlaceSemantics m P V)
  (scope : Locals (Local P V)) {virtual : VirtualFunction} {pair : Pair}
  {bound : List (Nat × Node)} {module name : String} {call : CallExpr}
  {receiver dot turbofish : Node}

theorem boundLocals?_argumentBindings (implementation : ImplementationFunction) :
    boundLocals? (commaEnded ((argumentBindings implementation bound).map (·.pattern))) =
      some ((bound.map (·.1)).map fun position =>
        (parameterLocal implementation position, false)) := by
  have hpatterns : (argumentBindings implementation bound).map (·.pattern) =
      bound.map fun entry => [.ident (parameterLocal implementation entry.1)] := by
    rw [argumentBindings, List.map_map]
    rfl
  rw [hpatterns, boundLocals?_commaEnded, List.map_map]
  simp only [parameterLocal, withoutRaw_localName]
  rfl

/-- What the locals of arguments hold. -/
def heldValues (values : List V) : List (Local P V) := values.map fun value => ⟨value, none⟩

theorem values_heldValues (values : List V) :
    (heldValues values : List (Local P V)).map (·.value) = values := by
  simp [heldValues, Function.comp_def]

/-- Arguments in front of a call are evaluated in the order in which they are written. -/
theorem run_behind_arguments (implementation : ImplementationFunction)
    (hdescent : hasDescent (bound.map (·.1)) = true) (mutable : Bool) (invocation : Node) :
    s.run scope (behind (argumentBindings implementation bound) mutable invocation) =
      (bound.map (·.2)).mapM (s.eval scope.values) >>= fun values =>
        s.run (scope.bind ((bound.map (·.1)).map (parameterLocal implementation))
          (heldValues values)) invocation := by
  rw [behind_of_ne_nil (argumentBindings_ne_nil implementation hdescent),
    s.run_bindingMatch (boundLocals?_argumentBindings implementation), mapM_argumentBindings]
  refine Semantics.mapM_bind_congr fun values hlength => ?_
  simp only [List.map_map, Function.comp_def]
  rw [s.allocate_immutable bound (by simpa using hlength), pure_bind]
  rfl

/-- A receiver in front of them is evaluated first, and its value gets a place of its own. -/
theorem run_behind_receiver (implementation : ImplementationFunction) (mutable : Bool)
    (invocation : Node) :
    s.run scope (behind (⟨receiver, [.ident "mut", .ident (localName "receiver")]⟩ ::
        argumentBindings implementation bound) mutable invocation) =
      s.eval scope.values receiver >>= fun self =>
        (bound.map (·.2)).mapM (s.eval scope.values) >>= fun values =>
          s.fresh self >>= fun place =>
            s.run (scope.bind (localName "receiver" ::
              (bound.map (·.1)).map (parameterLocal implementation))
                (⟨self, some place⟩ :: heldValues values)) invocation := by
  have hfound : boundLocals? (commaEnded ((⟨receiver, [.ident "mut", .ident (localName "receiver")]⟩
        :: argumentBindings implementation bound).map (·.pattern))) =
      some ((localName "receiver", true) :: (bound.map (·.1)).map fun position =>
        (parameterLocal implementation position, false)) := by
    have hmut := boundLocals?_mut (localName "receiver")
      (commaEnded ((argumentBindings implementation bound).map (·.pattern)))
    rw [boundLocals?_argumentBindings, Option.map_some, withoutRaw_localName] at hmut
    exact hmut
  rw [behind_of_ne_nil (List.cons_ne_nil _ _), s.run_bindingMatch hfound, List.mapM_cons,
    mapM_argumentBindings]
  simp only [bind_assoc, pure_bind]
  refine bind_congr fun self => Semantics.mapM_bind_congr fun values hlength => ?_
  simp only [List.map_cons, List.map_map, Function.comp_def]
  rw [s.allocate_variable, bind_assoc]
  refine bind_congr fun place => ?_
  rw [s.allocate_immutable bound (by simpa using hlength), pure_bind, pure_bind]
  rfl

/-! ### Calls of methods -/

/-- Without a reordering, the receiver stands where it stood. -/
theorem run_redirectedExpr_inPlace (hpair : Pair.derive? pair.virtual = some pair)
    (hok : bindArguments pair.virtual call.arguments = .ok bound)
    (hcallee : call.callee = .method receiver dot name turbofish)
    (hdescent : hasDescent (bound.map (·.1)) = false) :
    s.run scope (redirectedExpr call pair module bound) =
      s.locate scope receiver >>= fun place =>
        (bound.map (·.2)).mapM (s.eval scope.values) >>= fun values =>
          s.invoke pair.implementation.name turbofish place
            (s.received pair.implementation (bound.map (·.1)) values) := by
  obtain ⟨htargets, -, hnodup, hrange⟩ := bindArguments_ok hok
  rw [← htargets] at hnodup hrange
  have hsorted := pairwise_lt_of_hasDescent hdescent hnodup
  rw [redirectedExpr_of_sorted hcallee hdescent, s.run_methodCallExpr,
    evalAll_bound s.toSemantics scope.values hpair hsorted hrange]
  simp only [bind_assoc, pure_bind]

/-- A receiver that is made of names stands behind the bindings of the arguments, where it is the
same place. -/
theorem run_redirectedExpr_place (hpair : Pair.derive? pair.virtual = some pair)
    (hdistinct : pair.virtual.DistinctLocals)
    (hok : bindArguments pair.virtual call.arguments = .ok bound)
    (hcallee : call.callee = .method receiver dot name turbofish)
    (hdescent : hasDescent (bound.map (·.1)) = true) (hplace : isPlace receiver = true)
    (hroot : ∀ root, rootName? receiver = some root → ∀ parameter ∈ pair.virtual.parameters,
      withoutRaw root ≠ localName parameter.name) :
    s.run scope (redirectedExpr call pair module bound) =
      (bound.map (·.2)).mapM (s.eval scope.values) >>= fun values =>
        s.locate scope receiver >>= fun place =>
          s.invoke pair.implementation.name turbofish place
            (s.received pair.implementation (bound.map (·.1)) values) := by
  obtain ⟨htargets, -, -, hrange⟩ := bindArguments_ok hok
  rw [← htargets] at hrange
  -- The bindings in front of the receiver are the locals of parameters and no others.
  have hapart : ∀ root, rootName? receiver = some root →
      withoutRaw root ∉ (bound.map (·.1)).map (parameterLocal pair.implementation) := by
    intro root hrootName hmem
    obtain ⟨position, hposition, hsame⟩ := List.mem_map.mp hmem
    rw [parameterLocal_eq hpair (hrange position hposition)] at hsame
    exact hroot root hrootName _ (List.getElem_mem _) hsame.symm
  rw [redirectedExpr_of_place hcallee hdescent hplace, run_behind_arguments s scope _ hdescent]
  refine Semantics.mapM_bind_congr fun values hlength => ?_
  rw [List.length_map] at hlength
  rw [s.run_methodCallExpr, s.locate_bind hplace hapart, values_bind, values_heldValues]
  refine bind_congr fun place => ?_
  rw [evalAll_placedLocals s.toSemantics hlength, pure_bind]
  intro position hmem
  exact bind_parameterLocal hpair hdistinct hrange (by simpa using hlength) hmem

/-- Any other receiver is bound in front of the arguments by its value, and the method acts on that
local. -/
theorem run_redirectedExpr_copy (hpair : Pair.derive? pair.virtual = some pair)
    (hdistinct : pair.virtual.DistinctLocals) (hapart : pair.virtual.ReceiverApart)
    (hok : bindArguments pair.virtual call.arguments = .ok bound)
    (hcallee : call.callee = .method receiver dot name turbofish)
    (hdescent : hasDescent (bound.map (·.1)) = true) (hplace : isPlace receiver = false) :
    s.run scope (redirectedExpr call pair module bound) =
      s.eval scope.values receiver >>= fun self =>
        (bound.map (·.2)).mapM (s.eval scope.values) >>= fun values =>
          s.fresh self >>= fun place =>
            s.invoke pair.implementation.name turbofish place
              (s.received pair.implementation (bound.map (·.1)) values) := by
  obtain ⟨htargets, -, -, hrange⟩ := bindArguments_ok hok
  rw [← htargets] at hrange
  rw [redirectedExpr_of_not_place hcallee hdescent hplace, run_behind_receiver]
  refine bind_congr fun self => Semantics.mapM_bind_congr fun values hlength => ?_
  refine bind_congr fun place => ?_
  rw [List.length_map] at hlength
  -- The receiver of the call is now a variable, whose place is the fresh one.
  have hself : ∀ inner : Locals (Local P V),
      inner (localName "receiver") = some ⟨self, some place⟩ →
        s.locate inner (nameExpr (localName "receiver")) = pure place := by
    intro inner hinner
    have hlocate : s.locate inner (nameExpr (localName "receiver")) =
        match inner (withoutRaw (localName "receiver")) with
        | some ⟨_, some place⟩ => pure place
        | some ⟨value, none⟩ => s.fresh value
        | none => s.named (nameExpr (localName "receiver")) := rfl
    rw [hlocate, withoutRaw_localName, hinner]
  rw [s.run_methodCallExpr, hself _ (by simp [Locals.bind]), pure_bind, values_bind, List.map_cons,
    values_heldValues, evalAll_placedLocals s.toSemantics hlength, pure_bind]
  intro position hmem
  rw [bind_receiver hpair hapart (hrange position hmem)]
  exact bind_parameterLocal hpair hdistinct hrange (by simpa using hlength) hmem

/-- **Methods keep their receivers.** A call of a method whose arguments can be bound is redirected
to a call of the implementation. If the arguments are written in the order of their parameters, the
implementation is called on the place of the receiver, whatever that is. If they are not, it is
called on that place still when the receiver is made of names and fields and does not start with the
local of a parameter; otherwise on a place of its own that holds the value of the receiver. -/
theorem run_redirectCall (hpair : Pair.derive? virtual = some pair)
    (hdistinct : virtual.DistinctLocals) (hok : bindArguments virtual call.arguments = .ok bound)
    (hcallee : call.callee = .method receiver dot name turbofish) :
    let targets := targets virtual call.arguments
    let evalArguments := call.arguments.mapM fun argument => s.eval scope.values argument.value
    let invoke (place : P) (values : List V) := s.invoke pair.implementation.name turbofish place
      (s.received pair.implementation targets values)
    ∃ redirected, redirectCall call pair module = .ok redirected ∧
      (hasDescent targets = false → s.run scope redirected.expr = do
        let place ← s.locate scope receiver
        let values ← evalArguments
        invoke place values) ∧
      (hasDescent targets = true → isPlace receiver = true →
        (∀ root, rootName? receiver = some root → ∀ parameter ∈ virtual.parameters,
          withoutRaw root ≠ localName parameter.name) →
        s.run scope redirected.expr = do
          let values ← evalArguments
          let place ← s.locate scope receiver
          invoke place values) ∧
      (hasDescent targets = true → isPlace receiver = false → virtual.ReceiverApart →
        s.run scope redirected.expr = do
          let self ← s.eval scope.values receiver
          let values ← evalArguments
          let place ← s.fresh self
          invoke place values) := by
  obtain ⟨hvirtual, -⟩ := derive?_eq_some hpair
  subst hvirtual
  obtain ⟨htargets, hvalues, -⟩ := bindArguments_ok hok
  have harguments : (call.arguments.mapM fun argument => s.eval scope.values argument.value) =
      (bound.map (·.2)).mapM (s.eval scope.values) := by
    rw [hvalues, List.mapM_map]
    rfl
  refine ⟨_, by simp only [redirectCall, hok]; rfl, ?_⟩
  simp only [harguments, ← htargets]
  exact ⟨run_redirectedExpr_inPlace s scope hpair hok hcallee,
    fun hdescent hplace hroot =>
      run_redirectedExpr_place s scope hpair hdistinct hok hcallee hdescent hplace hroot,
    fun hdescent hplace hapart =>
      run_redirectedExpr_copy s scope hpair hdistinct hapart hok hcallee hdescent hplace⟩

end Redirected

/-! ### An update of an element -/

/-- Counters in a row. A method call adds its first argument to the counter on which it acts. -/
def counting : PlaceSemantics (StateM (List Nat)) Nat Nat where
  absent := 0
  present value := value
  word word := word.toNat
  call _ _ := pure 0
  method _ _ _ _ := pure 0
  other _
    | .phrase .literalExpr [_, .leaf (.literal digits)] =>
      pure (Nat.ofDigitChars 10 digits.toList 0)
    | _ => fun counters => (counters.headD 0, counters)
  named _ := pure 0
  field _ place := pure place
  element place index := pure (place + index)
  target := pure
  reference := pure
  fresh value := fun counters => (counters.length, counters ++ [value])
  invoke _ _ place arguments := fun counters =>
    (0, counters.modify place (· + arguments.headD 0))

/-- A method that counts on by a number, up to a limit. -/
def advance : VirtualFunction where
  name := "advance"
  container := "crate::Counter"
  receiver := true
  parameters := [⟨"by", namedType "u32"⟩, ⟨"limit", namedType "u32"⟩]
  output := .empty .returnType

/-- The method with its implementation. -/
def advancePair : Pair := (Pair.derive? advance).getD default

/-- A number as an expression. -/
def numberExpr (digits : String) : Node :=
  .phrase .literalExpr [.empty .attributes, .literal digits]

/-- A call of the method that counts on by one. -/
def advanceCall (receiver : Node) (arguments : List Argument) : CallExpr where
  attributes := .empty .attributes
  callee := .method receiver (.punct ".") "advance" (.empty .genericArgs)
  arguments := arguments

/-- The counter that an object holds. -/
def heldCounter : Node :=
  .phrase .fieldExpr [.empty .attributes, nameExpr "self", .punct ".", .ident "counter"]

/-- The first counter of a row. -/
def firstCounter : Node :=
  .phrase .indexExpr [.empty .attributes, nameExpr "counters", .group .bracket [numberExpr "0"]]

theorem run_redirectCall_held : ∃ redirected,
    redirectCall
        (advanceCall heldCounter [.named "limit" (numberExpr "9"), .named "by" (numberExpr "1")])
        advancePair "crate" = .ok redirected ∧
      ((counting.run (fun _ => none) redirected.expr).run [5]).2 = [6] := by
  have hdistinct : advance.DistinctLocals := by
    unfold VirtualFunction.DistinctLocals
    decide
  have hroot : ∀ root, rootName? heldCounter = some root → ∀ parameter ∈ advance.parameters,
      withoutRaw root ≠ localName parameter.name := by
    intro root hroot
    obtain rfl : "self" = root := Option.some.inj hroot
    decide
  obtain ⟨redirected, hredirected, -, hplace, -⟩ :=
    @run_redirectCall _ _ _ _ _ counting (fun _ => none) advance advancePair
      [(1, numberExpr "9"), (0, numberExpr "1")] "crate" "advance"
      (advanceCall heldCounter [.named "limit" (numberExpr "9"), .named "by" (numberExpr "1")])
      heldCounter (.punct ".") (.empty .genericArgs) rfl hdistinct rfl rfl
  refine ⟨redirected, hredirected, ?_⟩
  rw [hplace rfl rfl hroot]
  rfl

/-- An element of a row is a place, and in the order of the parameters the method counts there. Out
of that order it counts in a copy, and the element stays as it was. -/
theorem run_redirectCall_element : standsForPlace firstCounter = true ∧
    (∃ redirected,
      redirectCall
          (advanceCall firstCounter [.named "by" (numberExpr "1"), .named "limit" (numberExpr "9")])
          advancePair "crate" = .ok redirected ∧
        ((counting.run (fun _ => none) redirected.expr).run [5]).2 = [6]) ∧
    ∃ redirected,
      redirectCall
          (advanceCall firstCounter [.named "limit" (numberExpr "9"), .named "by" (numberExpr "1")])
          advancePair "crate" = .ok redirected ∧
        ((counting.run (fun _ => none) redirected.expr).run [5]).2 = [5, 6] :=
  ⟨rfl, ⟨_, rfl, rfl⟩, ⟨_, rfl, rfl⟩⟩

end EntityTables.Call
