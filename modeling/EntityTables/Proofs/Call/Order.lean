import EntityTables.Proofs.Call.Binding
import EntityTables.Proofs.Call.Slots

/-!
# Redirected calls keep their order

A redirected call evaluates what the call evaluates, in the order in which it was written and each
expression once, and the implementation receives every argument at the place of its parameter. The
arguments stay where they are as long as that keeps their order; otherwise a `match` binds them in
front of the call, and the call reads them back by their names.
-/

namespace EntityTables.Call

open EntityTables.Syntax

/-- The names of the parameters tell the locals of a redirected call apart. -/
def VirtualFunction.DistinctLocals (function : VirtualFunction) : Prop :=
  (function.parameters.map fun parameter => withoutRaw parameter.name).Nodup

/-- No parameter has the name of the local that holds a receiver. -/
def VirtualFunction.ReceiverApart (function : VirtualFunction) : Prop :=
  "receiver" ∉ function.parameters.map fun parameter => withoutRaw parameter.name

/-! ### Redirected calls -/

namespace Semantics

variable {m : Type → Type} [Monad m] {V : Type} (s : Semantics m V) (locals : Locals V)

/-- What a redirected call has to do. It evaluates the receiver and then the arguments, as they are
written; a place for which nothing has to be evaluated may be read after the arguments. Then it
calls the implementation with what belongs to its parameters. -/
def inOrder (pair : Pair) (module : String) (call : CallExpr) : m V :=
  let implementation := pair.implementation
  let targets := targets pair.virtual call.arguments
  let evalArguments := call.arguments.mapM fun argument => s.eval locals argument.value
  match call.callee with
  | .function _ path => do
    let values ← evalArguments
    s.call (implementationPath path implementation.name pair.virtual.container module)
      (s.received implementation targets values)
  | .method receiver _ _ turbofish =>
    if hasDescent targets && isPlace receiver then do
      let values ← evalArguments
      let inner := locals.bind (targets.map (parameterLocal implementation)) values
      let self ← s.eval inner receiver
      s.method implementation.name turbofish self (s.received implementation targets values)
    else do
      let self ← s.eval locals receiver
      let values ← evalArguments
      s.method implementation.name turbofish self (s.received implementation targets values)

theorem eval_callExpr (attributes own path : Node) (implementation : ImplementationFunction)
    (targets : List Nat) (placed : List (Nat × Node)) :
    s.eval locals (.phrase .callExpr [attributes, .phrase .pathExpr [own, path],
        implementationArguments implementation targets placed]) =
      s.evalAll locals (implementationArguments implementation targets placed).parts >>=
        s.apply path := rfl

theorem eval_methodCallExpr (attributes receiver dot turbofish : Node) (name : String)
    (implementation : ImplementationFunction) (targets : List Nat) (placed : List (Nat × Node)) :
    s.eval locals (.phrase .methodCallExpr [attributes, receiver, dot, .ident name, turbofish,
        implementationArguments implementation targets placed]) =
      s.eval locals receiver >>= fun self =>
        s.evalAll locals (implementationArguments implementation targets placed).parts >>=
          s.method name turbofish self := rfl

theorem apply_eq_call {path : Node} {arguments : List V} (hlength : arguments.length ≠ 1) :
    s.apply path arguments = s.call path arguments := by
  match arguments with
  | [] => rfl
  | [value] => exact (hlength rfl).elim
  | _ :: _ :: _ => rfl

end Semantics

section Implementation

variable {implementation : ImplementationFunction} {first second : Nat}

theorem parameterLocal_of_getElem? {parameter : ImplementationParameter}
    (hparameter : implementation.parameters[first]? = some parameter) :
    parameterLocal implementation first = localName parameter.name := by
  rw [parameterLocal, hparameter]
  rfl

/-- The locals of parameters differ if the names of the parameters do, raw or not. -/
theorem eq_of_parameterLocal_eq
    (hdistinct : (implementation.parameters.map fun parameter => withoutRaw parameter.name).Nodup)
    (hfirst : first < implementation.parameters.length)
    (hsecond : second < implementation.parameters.length)
    (hsame : parameterLocal implementation first = parameterLocal implementation second) :
    first = second := by
  rw [parameterLocal_of_getElem? (List.getElem?_eq_getElem hfirst),
    parameterLocal_of_getElem? (List.getElem?_eq_getElem hsecond)] at hsame
  refine (List.getElem?_inj (by simpa using hfirst) hdistinct).mp ?_
  simpa [hfirst, hsecond] using localName_inj hsame

/-- A parameter has the local of a receiver if it is called that, raw or not. -/
theorem parameterLocal_eq_receiver_iff (hfirst : first < implementation.parameters.length) :
    parameterLocal implementation first = localName "receiver" ↔
      withoutRaw implementation.parameters[first].name = "receiver" := by
  rw [parameterLocal_of_getElem? (List.getElem?_eq_getElem hfirst)]
  constructor
  · intro hsame
    exact localName_inj hsame
  · intro hname
    rw [localName, hname]
    rfl

end Implementation

section Pairs

variable {virtual : VirtualFunction} {pair : Pair}

/-- The parameters of a pair, as its locals name them. -/
theorem parameterLocal_eq (hpair : Pair.derive? virtual = some pair) {position : Nat}
    (hposition : position < virtual.parameters.length) :
    parameterLocal pair.implementation position = localName virtual.parameters[position].name := by
  obtain ⟨-, hparameters, -⟩ := derive?_eq_some hpair
  simp [parameterLocal, hparameters, hposition, ImplementationParameter.of]

/-- The parameters of a pair have the names of those of its virtual function. -/
theorem parameterNames_of_derive? (hpair : Pair.derive? virtual = some pair) :
    (pair.implementation.parameters.map fun parameter => withoutRaw parameter.name) =
      virtual.parameters.map fun parameter => withoutRaw parameter.name := by
  obtain ⟨-, hparameters, -⟩ := derive?_eq_some hpair
  rw [hparameters, List.map_map]
  rfl

theorem parameterLocal_inj (hpair : Pair.derive? virtual = some pair)
    (hdistinct : virtual.DistinctLocals) {first second : Nat}
    (hfirst : first < virtual.parameters.length) (hsecond : second < virtual.parameters.length)
    (hsame : parameterLocal pair.implementation first =
      parameterLocal pair.implementation second) : first = second := by
  have hnames := parameterNames_of_derive? hpair
  have hlength : pair.implementation.parameters.length = virtual.parameters.length := by
    simpa using congrArg List.length hnames
  rw [VirtualFunction.DistinctLocals, ← hnames] at hdistinct
  exact eq_of_parameterLocal_eq hdistinct (hlength ▸ hfirst) (hlength ▸ hsecond) hsame

theorem parameterLocal_ne_receiver (hpair : Pair.derive? virtual = some pair)
    (hapart : virtual.ReceiverApart) {position : Nat}
    (hposition : position < virtual.parameters.length) :
    parameterLocal pair.implementation position ≠ localName "receiver" := by
  rw [parameterLocal_eq hpair hposition]
  intro hsame
  refine hapart (List.mem_map.mpr ⟨_, List.getElem_mem hposition, ?_⟩)
  exact localName_inj hsame

/-- The implementation of a pair takes no argument at all or more than one. -/
theorem length_received_ne_one (hpair : Pair.derive? virtual = some pair) {m : Type → Type}
    {V : Type} (s : Semantics m V) (targets : List Nat) (values : List V) :
    (s.received pair.implementation targets values).length ≠ 1 := by
  obtain ⟨-, hparameters, hencoding, -⟩ := derive?_eq_some hpair
  rw [Semantics.received, List.length_append, length_fill, List.length_map,
    FlagEncoding.length_encode, hparameters, hencoding, List.length_map]
  simp only [FlagEncoding.wordCount, wordBits]
  omega

theorem behind_of_ne_nil {bindings : List Binding} {mutable : Bool} {call : Node}
    (hbindings : bindings ≠ []) : behind bindings mutable call =
      bindingMatch bindings mutable call := by
  have hempty : bindings.isEmpty = false := by simpa using hbindings
  simp [behind, hempty]

section Locals

variable {V : Type} {locals : Locals V} {positions : List Nat} {values : List V} {position : Nat}

/-- Behind their bindings, the locals of arguments hold what was bound. -/
theorem bind_parameterLocal (hpair : Pair.derive? virtual = some pair)
    (hdistinct : virtual.DistinctLocals)
    (hrange : ∀ position ∈ positions, position < virtual.parameters.length)
    (hlength : values.length = positions.length) (hmem : position ∈ positions) :
    locals.bind (positions.map (parameterLocal pair.implementation)) values
        (withoutRaw (parameterLocal pair.implementation position)) =
      slotOf? (positions.zip values) position := by
  have hname : withoutRaw (parameterLocal pair.implementation position) =
      parameterLocal pair.implementation position := withoutRaw_localName _
  obtain ⟨value, hvalue⟩ := slotOf?_zip_isSome hlength hmem
  have hlookup := @lookup_zip_map V position (parameterLocal pair.implementation) positions values
    fun other hother hsame =>
      parameterLocal_inj hpair hdistinct (hrange other hother) (hrange position hmem) hsame
  rw [Locals.bind, hname, hlookup, hvalue]
  rfl

/-- The local of the receiver hides none of them. -/
theorem bind_receiver (hpair : Pair.derive? virtual = some pair) (hapart : virtual.ReceiverApart)
    (hposition : position < virtual.parameters.length) (names : List String) (self : V) :
    locals.bind (localName "receiver" :: names) (self :: values)
        (withoutRaw (parameterLocal pair.implementation position)) =
      locals.bind names values (withoutRaw (parameterLocal pair.implementation position)) := by
  have hname : withoutRaw (parameterLocal pair.implementation position) =
      parameterLocal pair.implementation position := withoutRaw_localName _
  have hne : (parameterLocal pair.implementation position == localName "receiver") = false :=
    beq_false_of_ne (parameterLocal_ne_receiver hpair hapart hposition)
  rw [Locals.bind, Locals.bind, hname, List.zip_cons_cons, List.lookup_cons, hne]

end Locals

end Pairs

section Redirected

variable {m : Type → Type} [Monad m] [LawfulMonad m] {V : Type} (s : Semantics m V)
  (locals : Locals V) {virtual : VirtualFunction} {pair : Pair} {bound : List (Nat × Node)}
  {module : String} {call : CallExpr}

theorem evalAll_implementationArguments (implementation : ImplementationFunction)
    (targets : List Nat) (placed : List (Nat × Node)) :
    s.evalAll locals (implementationArguments implementation targets placed).parts =
      (fill slotExpr implementation.parameters 0 placed).mapM (s.eval locals) >>= fun slots =>
        pure (slots ++ (implementation.encoding.encode targets).map s.word) := by
  rw [parts_implementationArguments, s.evalAll_commaSeparated, List.mapM_append, s.mapM_wordExpr]
  simp only [pure_bind]

/-- Arguments that stay where they are. -/
theorem evalAll_bound (hpair : Pair.derive? virtual = some pair)
    (hsorted : (bound.map (·.1)).Pairwise (· < ·))
    (hrange : ∀ position ∈ bound.map (·.1), position < virtual.parameters.length) :
    s.evalAll locals (implementationArguments pair.implementation (bound.map (·.1)) bound).parts =
      (bound.map (·.2)).mapM (s.eval locals) >>= fun values =>
        pure (s.received pair.implementation (bound.map (·.1)) values) := by
  obtain ⟨-, hparameters, -⟩ := derive?_eq_some hpair
  have hinPlace : s.EvaluatesInPlace locals pair.implementation.parameters 0 bound := by
    refine s.evaluatesInPlace locals hsorted fun position hmem => ⟨Nat.zero_le _, ?_⟩
    simpa [hparameters] using hrange position hmem
  rw [Semantics.EvaluatesInPlace] at hinPlace
  rw [evalAll_implementationArguments, hinPlace]
  simp only [bind_assoc, pure_bind, Semantics.received]

/-- Arguments that were bound in front. -/
theorem evalAll_placedLocals {inner : Locals V} {values : List V}
    (hlength : values.length = bound.length)
    (hinner : ∀ position ∈ bound.map (·.1),
      inner (withoutRaw (parameterLocal pair.implementation position)) =
        slotOf? ((bound.map (·.1)).zip values) position) :
    s.evalAll inner (implementationArguments pair.implementation (bound.map (·.1))
        (placedLocals pair.implementation bound)).parts =
      pure (s.received pair.implementation (bound.map (·.1)) values) := by
  have hplaced : placedLocals pair.implementation bound = (bound.map (·.1)).map fun position =>
      (position, nameExpr (parameterLocal pair.implementation position)) := by
    rw [List.map_map]
    rfl
  rw [evalAll_implementationArguments, hplaced,
    s.mapM_fill_locals inner (by simpa using hlength) hinner, pure_bind]
  rfl

/-- The bindings of the arguments evaluate them in the order in which they are written. -/
theorem mapM_argumentBindings (implementation : ImplementationFunction) :
    ((argumentBindings implementation bound).mapM fun binding => s.eval locals binding.value) =
      (bound.map (·.2)).mapM (s.eval locals) := by
  rw [argumentBindings, List.mapM_map, List.mapM_map]
  rfl

theorem boundNames?_argumentBindings (implementation : ImplementationFunction) :
    boundNames? (commaEnded ((argumentBindings implementation bound).map (·.pattern))) =
      some ((bound.map (·.1)).map (parameterLocal implementation)) := by
  have hpatterns : (argumentBindings implementation bound).map (·.pattern) =
      bound.map fun entry => [.ident (parameterLocal implementation entry.1)] := by
    rw [argumentBindings, List.map_map]
    rfl
  rw [hpatterns, boundNames?_commaEnded, List.map_map]
  simp only [parameterLocal, withoutRaw_localName]
  rfl

theorem boundNames?_receiverBinding (implementation : ImplementationFunction) (receiver : Node) :
    boundNames? (commaEnded ((⟨receiver, [.ident "mut", .ident (localName "receiver")]⟩ ::
        argumentBindings implementation bound).map (·.pattern))) =
      some (localName "receiver" :: (bound.map (·.1)).map (parameterLocal implementation)) := by
  have hmut := boundNames?_mut (localName "receiver")
    (commaEnded ((argumentBindings implementation bound).map (·.pattern)))
  rw [boundNames?_argumentBindings, Option.map_some, withoutRaw_localName] at hmut
  exact hmut

theorem argumentBindings_ne_nil (implementation : ImplementationFunction)
    (hdescent : hasDescent (bound.map (·.1)) = true) :
    argumentBindings implementation bound ≠ [] := by
  rcases bound with _ | ⟨entry, rest⟩
  · simp [hasDescent] at hdescent
  · exact List.cons_ne_nil _ _

/-- Arguments in front of a call are evaluated in the order in which they are written. -/
theorem eval_behind_arguments (implementation : ImplementationFunction)
    (hdescent : hasDescent (bound.map (·.1)) = true) (mutable : Bool) (invocation : Node) :
    s.eval locals (behind (argumentBindings implementation bound) mutable invocation) =
      (bound.map (·.2)).mapM (s.eval locals) >>= fun values =>
        s.eval (locals.bind ((bound.map (·.1)).map (parameterLocal implementation)) values)
          invocation := by
  rw [behind_of_ne_nil (argumentBindings_ne_nil implementation hdescent),
    s.eval_bindingMatch locals (boundNames?_argumentBindings implementation),
    mapM_argumentBindings]

/-- A receiver in front of them is evaluated first. -/
theorem eval_behind_receiver (implementation : ImplementationFunction) (receiver : Node)
    (mutable : Bool) (invocation : Node) :
    s.eval locals (behind (⟨receiver, [.ident "mut", .ident (localName "receiver")]⟩ ::
        argumentBindings implementation bound) mutable invocation) =
      s.eval locals receiver >>= fun self =>
        (bound.map (·.2)).mapM (s.eval locals) >>= fun values =>
          s.eval (locals.bind (localName "receiver" ::
            (bound.map (·.1)).map (parameterLocal implementation)) (self :: values))
              invocation := by
  rw [behind_of_ne_nil (List.cons_ne_nil _ _),
    s.eval_bindingMatch locals (boundNames?_receiverBinding implementation receiver),
    List.mapM_cons, mapM_argumentBindings]
  simp only [bind_assoc, pure_bind]

/-! ### Calls of functions -/

theorem eval_redirectedExpr_function (hpair : Pair.derive? pair.virtual = some pair)
    (hdistinct : pair.virtual.DistinctLocals)
    (hok : bindArguments pair.virtual call.arguments = .ok bound) {attributes path : Node}
    (hcallee : call.callee = .function attributes path) :
    s.eval locals (redirectedExpr call pair module bound) = s.inOrder locals pair module call := by
  obtain ⟨htargets, hvalues, hnodup, hrange⟩ := bindArguments_ok hok
  have hspec : s.inOrder locals pair module call =
      (bound.map (·.2)).mapM (s.eval locals) >>= fun values =>
        s.call (implementationPath path pair.implementation.name pair.virtual.container module)
          (s.received pair.implementation (bound.map (·.1)) values) := by
    simp only [Semantics.inOrder, hcallee, htargets, hvalues, List.mapM_map]
    rfl
  rw [← htargets] at hnodup hrange
  rw [hspec]
  cases hdescent : hasDescent (bound.map (·.1)) with
  | false =>
      have hsorted := pairwise_lt_of_hasDescent hdescent hnodup
      simp only [redirectedExpr, hcallee, hdescent, Bool.false_eq_true, if_false, behind,
        List.isEmpty_nil, if_true]
      rw [Semantics.eval_callExpr, evalAll_bound s locals hpair hsorted hrange]
      simp only [bind_assoc, pure_bind]
      exact bind_congr fun values => s.apply_eq_call (length_received_ne_one hpair s _ _)
  | true =>
      simp only [redirectedExpr, hcallee, hdescent, if_true]
      rw [eval_behind_arguments s locals _ hdescent]
      refine Semantics.mapM_bind_congr fun values hlength => ?_
      rw [List.length_map] at hlength
      rw [Semantics.eval_callExpr, evalAll_placedLocals s hlength, pure_bind,
        s.apply_eq_call (length_received_ne_one hpair s _ _)]
      intro position hmem
      exact bind_parameterLocal hpair hdistinct hrange (by simpa using hlength) hmem

/-! ### Calls of methods -/

section Method

variable {receiver dot turbofish : Node} {name : String}

theorem redirectedExpr_of_sorted (hcallee : call.callee = .method receiver dot name turbofish)
    (hdescent : hasDescent (bound.map (·.1)) = false) :
    redirectedExpr call pair module bound =
      .phrase .methodCallExpr [call.attributes, receiver, dot, .ident pair.implementation.name,
        turbofish, implementationArguments pair.implementation (bound.map (·.1)) bound] := by
  simp only [redirectedExpr, hcallee, hdescent, bindReceiver, Bool.false_and, Bool.false_eq_true,
    if_false, behind, Option.toList_none, List.nil_append, List.isEmpty_nil, if_true]

theorem redirectedExpr_of_place (hcallee : call.callee = .method receiver dot name turbofish)
    (hdescent : hasDescent (bound.map (·.1)) = true) (hplace : isPlace receiver = true) :
    redirectedExpr call pair module bound =
      behind (argumentBindings pair.implementation bound) false
        (.phrase .methodCallExpr [call.attributes, receiver, dot, .ident pair.implementation.name,
          turbofish, implementationArguments pair.implementation (bound.map (·.1))
            (placedLocals pair.implementation bound)]) := by
  simp only [redirectedExpr, hcallee, hdescent, hplace, bindReceiver, Bool.not_true, Bool.and_false,
    Bool.false_eq_true, if_false, if_true, Option.toList_none, List.nil_append, Option.isSome_none]

theorem redirectedExpr_of_not_place (hcallee : call.callee = .method receiver dot name turbofish)
    (hdescent : hasDescent (bound.map (·.1)) = true) (hplace : isPlace receiver = false) :
    redirectedExpr call pair module bound =
      behind (⟨receiver, [.ident "mut", .ident (localName "receiver")]⟩ ::
          argumentBindings pair.implementation bound) true
        (.phrase .methodCallExpr [call.attributes, nameExpr (localName "receiver"), dot,
          .ident pair.implementation.name, turbofish, implementationArguments pair.implementation
            (bound.map (·.1)) (placedLocals pair.implementation bound)]) := by
  simp only [redirectedExpr, hcallee, hdescent, hplace, bindReceiver, Bool.not_false, Bool.and_true,
    if_true, Option.toList_some, List.singleton_append, Option.isSome_some]

/-- Without a reordering, the receiver and the arguments stay where they are. -/
theorem eval_redirectedExpr_inPlace (hpair : Pair.derive? pair.virtual = some pair)
    (hok : bindArguments pair.virtual call.arguments = .ok bound)
    (hcallee : call.callee = .method receiver dot name turbofish)
    (hdescent : hasDescent (bound.map (·.1)) = false) :
    s.eval locals (redirectedExpr call pair module bound) =
      s.eval locals receiver >>= fun self =>
        (bound.map (·.2)).mapM (s.eval locals) >>= fun values =>
          s.method pair.implementation.name turbofish self
            (s.received pair.implementation (bound.map (·.1)) values) := by
  obtain ⟨htargets, -, hnodup, hrange⟩ := bindArguments_ok hok
  rw [← htargets] at hnodup hrange
  have hsorted := pairwise_lt_of_hasDescent hdescent hnodup
  rw [redirectedExpr_of_sorted hcallee hdescent, Semantics.eval_methodCallExpr,
    evalAll_bound s locals hpair hsorted hrange]
  simp only [bind_assoc, pure_bind]

/-- A place is read behind the bindings of the arguments. -/
theorem eval_redirectedExpr_place (hpair : Pair.derive? pair.virtual = some pair)
    (hdistinct : pair.virtual.DistinctLocals)
    (hok : bindArguments pair.virtual call.arguments = .ok bound)
    (hcallee : call.callee = .method receiver dot name turbofish)
    (hdescent : hasDescent (bound.map (·.1)) = true) (hplace : isPlace receiver = true) :
    s.eval locals (redirectedExpr call pair module bound) =
      (bound.map (·.2)).mapM (s.eval locals) >>= fun values =>
        s.eval (locals.bind ((bound.map (·.1)).map (parameterLocal pair.implementation)) values)
            receiver >>= fun self =>
          s.method pair.implementation.name turbofish self
            (s.received pair.implementation (bound.map (·.1)) values) := by
  obtain ⟨htargets, -, -, hrange⟩ := bindArguments_ok hok
  rw [← htargets] at hrange
  rw [redirectedExpr_of_place hcallee hdescent hplace, eval_behind_arguments s locals _ hdescent]
  refine Semantics.mapM_bind_congr fun values hlength => ?_
  rw [List.length_map] at hlength
  rw [Semantics.eval_methodCallExpr]
  refine bind_congr fun self => ?_
  rw [evalAll_placedLocals s hlength, pure_bind]
  intro position hmem
  exact bind_parameterLocal hpair hdistinct hrange (by simpa using hlength) hmem

/-- Any other receiver is bound in front of the arguments. -/
theorem eval_redirectedExpr_receiver (hpair : Pair.derive? pair.virtual = some pair)
    (hdistinct : pair.virtual.DistinctLocals) (hapart : pair.virtual.ReceiverApart)
    (hok : bindArguments pair.virtual call.arguments = .ok bound)
    (hcallee : call.callee = .method receiver dot name turbofish)
    (hdescent : hasDescent (bound.map (·.1)) = true) (hplace : isPlace receiver = false) :
    s.eval locals (redirectedExpr call pair module bound) =
      s.eval locals receiver >>= fun self =>
        (bound.map (·.2)).mapM (s.eval locals) >>= fun values =>
          s.method pair.implementation.name turbofish self
            (s.received pair.implementation (bound.map (·.1)) values) := by
  obtain ⟨htargets, -, -, hrange⟩ := bindArguments_ok hok
  rw [← htargets] at hrange
  rw [redirectedExpr_of_not_place hcallee hdescent hplace, eval_behind_receiver]
  refine bind_congr fun self => Semantics.mapM_bind_congr fun values hlength => ?_
  rw [List.length_map] at hlength
  -- The arm reads back the receiver and then the arguments, which its local does not hide.
  have hself : locals.bind (localName "receiver" ::
      (bound.map (·.1)).map (parameterLocal pair.implementation)) (self :: values)
        (withoutRaw (localName "receiver")) = some self := by
    rw [withoutRaw_localName]
    simp [Locals.bind]
  rw [Semantics.eval_methodCallExpr, s.eval_nameExpr _ hself, pure_bind,
    evalAll_placedLocals s hlength, pure_bind]
  intro position hmem
  rw [bind_receiver hpair hapart (hrange position hmem)]
  exact bind_parameterLocal hpair hdistinct hrange (by simpa using hlength) hmem

theorem eval_redirectedExpr_method (hpair : Pair.derive? pair.virtual = some pair)
    (hdistinct : pair.virtual.DistinctLocals) (hapart : pair.virtual.ReceiverApart)
    (hok : bindArguments pair.virtual call.arguments = .ok bound)
    (hcallee : call.callee = .method receiver dot name turbofish) :
    s.eval locals (redirectedExpr call pair module bound) = s.inOrder locals pair module call := by
  obtain ⟨htargets, hvalues, -⟩ := bindArguments_ok hok
  have harguments : (call.arguments.mapM fun argument => s.eval locals argument.value) =
      (bound.map (·.2)).mapM (s.eval locals) := by
    rw [hvalues, List.mapM_map]
    rfl
  simp only [Semantics.inOrder, hcallee, harguments, ← htargets]
  cases hdescent : hasDescent (bound.map (·.1)) with
  | false =>
      rw [Bool.false_and, if_neg Bool.false_ne_true]
      exact eval_redirectedExpr_inPlace s locals hpair hok hcallee hdescent
  | true =>
      cases hplace : isPlace receiver with
      | true =>
          rw [Bool.and_self, if_pos rfl]
          exact eval_redirectedExpr_place s locals hpair hdistinct hok hcallee hdescent hplace
      | false =>
          rw [Bool.and_false, if_neg Bool.false_ne_true]
          exact eval_redirectedExpr_receiver s locals hpair hdistinct hapart hok hcallee hdescent
            hplace

end Method

/-- **Redirected calls keep their order.** A call whose arguments can be bound is redirected. What
takes its place evaluates the receiver and every argument once and in the order in which they are
written, and calls the implementation with each value at the place of its parameter, with nothing at
the other places, and with the flags of the supplied parameters. -/
theorem eval_redirectCall (hpair : Pair.derive? virtual = some pair)
    (hdistinct : virtual.DistinctLocals) (hapart : virtual.ReceiverApart)
    (hok : bindArguments virtual call.arguments = .ok bound) :
    (targets virtual call.arguments).length = call.arguments.length ∧
      (targets virtual call.arguments).Nodup ∧
      (∀ position ∈ targets virtual call.arguments, position < virtual.parameters.length) ∧
      ∃ redirected, redirectCall call pair module = .ok redirected ∧
        s.eval locals redirected.expr = s.inOrder locals pair module call := by
  obtain ⟨hvirtual, -⟩ := derive?_eq_some hpair
  subst hvirtual
  obtain ⟨htargets, hvalues, hnodup, hrange⟩ := bindArguments_ok hok
  have hlength : (targets pair.virtual call.arguments).length = call.arguments.length := by
    rw [← htargets, List.length_map, ← List.length_map (·.2), hvalues, List.length_map]
  refine ⟨hlength, hnodup, hrange, _, by simp only [redirectCall, hok]; rfl, ?_⟩
  cases hcallee : call.callee with
  | function attributes path =>
      exact eval_redirectedExpr_function s locals hpair hdistinct hok hcallee
  | method receiver dot name turbofish =>
      exact eval_redirectedExpr_method s locals hpair hdistinct hapart hok hcallee

end Redirected

/-! ### A call out of order -/

/-- Values as texts, and a trace of all that is called. -/
def tracing : Semantics (StateM (List String)) String where
  absent := "None"
  present value := "Some(" ++ value ++ ")"
  word word := toString word.toNat
  call path arguments := fun trace =>
    (path.pathText ++ "(" ++ ", ".intercalate arguments ++ ")", trace ++ [path.pathText])
  method name _ self arguments := fun trace =>
    (self ++ "." ++ name ++ "(" ++ ", ".intercalate arguments ++ ")", trace ++ [name])
  other _ _ := pure "?"

/-- A method of two parameters, the second of them optional by itself. -/
def promote : VirtualFunction where
  name := "promote"
  container := "crate::staff::Member"
  receiver := true
  parameters := [⟨"name", namedType "String"⟩, ⟨"job", optionOf (namedType "String")⟩]
  output := .empty .returnType

/-- The method with its implementation. -/
def promotePair : Pair := (Pair.derive? promote).getD default

/-- A call of a function without arguments. -/
def bareCall (name : String) : Node :=
  .phrase .callExpr [.empty .attributes, nameExpr name, parens []]

/-- A call of the method that gives its arguments by name, the second one first. -/
def promoteCall : CallExpr where
  attributes := .empty .attributes
  callee := .method (bareCall "member") (.punct ".") "promote" (.empty .genericArgs)
  arguments := [.named "job" (bareCall "next_job"), .named "name" (bareCall "next_name")]

theorem eval_redirectCall_promote : ∃ redirected,
    redirectCall promoteCall promotePair "crate" = .ok redirected ∧
      (tracing.eval (fun _ => none) redirected.expr).run [] =
        ("member().__impl_promote(Some(next_name()), next_job(), 3)",
          ["member", "next_job", "next_name", "__impl_promote"]) := by
  have hdistinct : promote.DistinctLocals := by
    unfold VirtualFunction.DistinctLocals
    decide
  have hapart : promote.ReceiverApart := by
    unfold VirtualFunction.ReceiverApart
    decide
  obtain ⟨-, -, -, redirected, hredirected, heval⟩ :=
    @eval_redirectCall _ _ _ _ tracing (fun _ => none) promote promotePair
      [(1, bareCall "next_job"), (0, bareCall "next_name")] "crate" promoteCall rfl hdistinct hapart
      rfl
  refine ⟨redirected, hredirected, ?_⟩
  rw [heval]
  rfl

end EntityTables.Call
