import EntityTables.Proofs.Call.Order

/-!
# The locals of a redirected call

A call whose arguments are out of order is redirected to a `match`. Its pattern binds the receiver,
unless that stays where it is, and every argument, and its arm reads them back by their names. The
local of an argument is named after its parameter, and that of the receiver as if it were one more
parameter. So the locals differ, unless a parameter of that name is supplied beside a receiver that
is bound.
-/

namespace EntityTables.Call

open EntityTables.Syntax

/-! ### Reading a `match` -/

/-- The trees of a list that has commas between them. -/
def elements : List Node → List Node
  | [] => []
  | [node] => [node]
  | node :: _ :: rest => node :: elements rest

/-- A `match` on a tuple: the parts of the tuple, the names that they are bound to, and the arm. -/
structure Matching where
  values : List Node
  names : List String
  arm : Node

/-- Reads a `match` whose only arm binds the parts of a tuple to names. -/
def matching? : Node → Option Matching
  | .phrase .matchExpr [_, _, .phrase .tupleExpr [_, .group .paren values],
      .group .brace [.phrase .arm [_, .phrase .pattern [.group .paren pattern], _, arm]]] =>
    (boundNames? pattern).map fun names => ⟨elements values, names, arm⟩
  | _ => none

theorem elements_commaSeparated (nodes : List Node) : elements (commaSeparated nodes) = nodes := by
  induction nodes using commaSeparated.induct with
  | case1 => rfl
  | case2 node => rfl
  | case3 node rest hrest ih =>
      obtain ⟨second, others, rfl⟩ := List.exists_cons_of_ne_nil fun h => hrest h
      rw [commaSeparated, elements, ih]
      exact hrest

theorem elements_commaEnded {α : Type} (items : List α) (expr : α → Node) :
    elements (commaEnded (items.map fun item => [expr item])) = items.map expr := by
  induction items with
  | nil => rfl
  | cons item rest ih =>
      rw [List.map_cons, List.map_cons, ← ih]
      rfl

theorem matching?_bindingMatch {bindings : List Binding} {names : List String} {mutable : Bool}
    {arm : Node} (hnames : boundNames? (commaEnded (bindings.map (·.pattern))) = some names) :
    matching? (bindingMatch bindings mutable arm) =
      some ⟨bindings.map (·.value), names, arm⟩ := by
  have hmatch : matching? (bindingMatch bindings mutable arm) =
      (boundNames? (commaEnded (bindings.map (·.pattern)))).map fun names =>
        ⟨elements (commaEnded (bindings.map fun b => [b.value])), names, arm⟩ := rfl
  rw [hmatch, hnames, elements_commaEnded, Option.map_some]

/-! ### What is bound, and where it is used -/

namespace CallExpr

/-- The receiver that has to be bound if the arguments are. -/
def heldReceiver? (call : CallExpr) : Option Node :=
  match call.callee with
  | .function _ _ => none
  | .method receiver _ _ _ => if isPlace receiver then none else some receiver

/-- What a call evaluates before it calls: a receiver that is no place, and the arguments. -/
def operands (call : CallExpr) : List Node :=
  call.heldReceiver?.toList ++ call.arguments.map (·.value)

/-- The names of the locals for the operands of a call. -/
def localNames (call : CallExpr) (pair : Pair) : List String :=
  (call.heldReceiver?.map fun _ => localName "receiver").toList ++
    (targets pair.virtual call.arguments).map (parameterLocal pair.implementation)

/-- The call of the implementation in which the given expressions stand for the operands. -/
def invocation (call : CallExpr) (pair : Pair) (module : String) (uses : List Node) : Node :=
  let implementation := pair.implementation
  let targets := targets pair.virtual call.arguments
  let arguments (uses : List Node) :=
    implementationArguments implementation targets (targets.zip uses)
  match call.callee with
  | .function attributes path =>
    .phrase .callExpr [call.attributes, .phrase .pathExpr [attributes,
      implementationPath path implementation.name pair.virtual.container module], arguments uses]
  | .method receiver dot _ turbofish =>
    let (self, uses) :=
      if isPlace receiver then (receiver, uses) else (uses.headD receiver, uses.tail)
    .phrase .methodCallExpr [call.attributes, self, dot, .ident implementation.name, turbofish,
      arguments uses]

end CallExpr

theorem is_matchExpr_invocation (call : CallExpr) (pair : Pair) (module : String)
    (uses : List Node) : (call.invocation pair module uses).is .matchExpr = false := by
  unfold CallExpr.invocation
  cases call.callee <;> rfl

section Redirected

variable {call : CallExpr} {pair : Pair} {module : String} {bound : List (Nat × Node)}
  {redirected : RedirectedCall}

theorem exists_bound_of_redirectCall (hok : redirectCall call pair module = .ok redirected) :
    ∃ bound, bindArguments pair.virtual call.arguments = .ok bound ∧
      redirected.expr = redirectedExpr call pair module bound := by
  unfold redirectCall at hok
  cases hbound : bindArguments pair.virtual call.arguments with
  | error error =>
      rw [hbound] at hok
      cases hok
  | ok bound =>
      rw [hbound] at hok
      cases hok
      exact ⟨bound, rfl, rfl⟩

/-- Arguments in order stay where they are. -/
theorem redirectedExpr_eq_invocation (hok : bindArguments pair.virtual call.arguments = .ok bound)
    (hdescent : hasDescent (bound.map (·.1)) = false) :
    redirectedExpr call pair module bound = call.invocation pair module call.operands := by
  obtain ⟨htargets, hvalues, -⟩ := bindArguments_ok hok
  have hbound : bound = (targets pair.virtual call.arguments).zip (call.arguments.map (·.value)) :=
    List.zip_of_prod htargets hvalues
  rw [htargets] at hdescent
  cases hcallee : call.callee with
  | function attributes path =>
      simp only [redirectedExpr, CallExpr.invocation, CallExpr.operands, CallExpr.heldReceiver?,
        hcallee, htargets, hdescent, behind]
      simp [← hbound]
  | method receiver dot name turbofish =>
      rw [redirectedExpr_of_sorted hcallee (htargets ▸ hdescent)]
      cases hplace : isPlace receiver <;>
        simp [CallExpr.invocation, CallExpr.operands, CallExpr.heldReceiver?, hcallee, hplace,
          htargets, ← hbound]

theorem placedLocals_eq (implementation : ImplementationFunction)
    (htargets : bound.map (·.1) = targets pair.virtual call.arguments) :
    placedLocals implementation bound =
      (targets pair.virtual call.arguments).zip (((targets pair.virtual call.arguments).map
        (parameterLocal implementation)).map nameExpr) := by
  rw [← htargets, List.map_map, ← List.map_prod_left_eq_zip, List.map_map]
  rfl

/-- Arguments out of order are bound with the receiver, and the arm uses their locals. -/
theorem matching?_redirectedExpr (hok : bindArguments pair.virtual call.arguments = .ok bound)
    (hdescent : hasDescent (bound.map (·.1)) = true) :
    matching? (redirectedExpr call pair module bound) = some
      ⟨call.operands, call.localNames pair,
        call.invocation pair module ((call.localNames pair).map nameExpr)⟩ := by
  obtain ⟨htargets, hvalues, -⟩ := bindArguments_ok hok
  have hne := argumentBindings_ne_nil pair.implementation hdescent
  have hnames := @boundNames?_argumentBindings bound pair.implementation
  have hbindings : (argumentBindings pair.implementation bound).map (·.value) =
      call.arguments.map (·.value) := by
    rw [← hvalues, argumentBindings, List.map_map]
    rfl
  cases hcallee : call.callee with
  | function attributes path =>
      simp only [redirectedExpr, hcallee, hdescent, if_true]
      rw [behind_of_ne_nil hne, matching?_bindingMatch hnames, hbindings,
        placedLocals_eq _ htargets, htargets]
      simp [CallExpr.operands, CallExpr.localNames, CallExpr.invocation, CallExpr.heldReceiver?,
        hcallee]
  | method receiver dot name turbofish =>
      cases hplace : isPlace receiver with
      | true =>
          rw [redirectedExpr_of_place hcallee hdescent hplace, behind_of_ne_nil hne,
            matching?_bindingMatch hnames, hbindings, placedLocals_eq _ htargets, htargets]
          simp [CallExpr.operands, CallExpr.localNames, CallExpr.invocation,
            CallExpr.heldReceiver?, hcallee, hplace]
      | false =>
          rw [redirectedExpr_of_not_place hcallee hdescent hplace,
            behind_of_ne_nil (List.cons_ne_nil _ _),
            matching?_bindingMatch (boundNames?_receiverBinding pair.implementation receiver),
            List.map_cons, hbindings, placedLocals_eq _ htargets, htargets]
          simp [CallExpr.operands, CallExpr.localNames, CallExpr.invocation,
            CallExpr.heldReceiver?, hcallee, hplace]

end Redirected

/-! ### Which locals are told apart -/

section Distinct

variable {call : CallExpr} {pair : Pair} {module : String} {redirected : RedirectedCall}

/-- Some argument gives a value to a parameter with the name that a bound receiver has. -/
def CallExpr.SuppliesReceiver (call : CallExpr) (pair : Pair) : Prop :=
  ∃ position ∈ targets pair.virtual call.arguments, ∃ parameter,
    pair.implementation.parameters[position]? = some parameter ∧
      withoutRaw parameter.name = "receiver"

theorem nodup_localNames_iff
    (hdistinct : (pair.implementation.parameters.map fun parameter =>
      withoutRaw parameter.name).Nodup)
    (htargets : (targets pair.virtual call.arguments).Nodup)
    (hrange : ∀ position ∈ targets pair.virtual call.arguments,
      position < pair.implementation.parameters.length) :
    (call.localNames pair).Nodup ↔
      ¬ (call.heldReceiver?.isSome ∧ call.SuppliesReceiver pair) := by
  have harguments : ((targets pair.virtual call.arguments).map
      (parameterLocal pair.implementation)).Nodup :=
    List.Nodup.map_on (fun first hfirst second hsecond hsame =>
      eq_of_parameterLocal_eq hdistinct (hrange first hfirst) (hrange second hsecond) hsame) htargets
  have hsupplies : localName "receiver" ∈ (targets pair.virtual call.arguments).map
      (parameterLocal pair.implementation) ↔ call.SuppliesReceiver pair := by
    rw [List.mem_map]
    refine exists_congr fun position => and_congr_right fun hmem => ?_
    rw [parameterLocal_eq_receiver_iff (hrange position hmem)]
    simp [hrange position hmem]
  unfold CallExpr.localNames
  cases call.heldReceiver? with
  | none => simpa using harguments
  | some receiver =>
      rw [Option.map_some, Option.toList_some, List.singleton_append, List.nodup_cons, hsupplies]
      simp [harguments]

/-- A derived implementation has a parameter for every argument that can be bound. -/
theorem lt_parameters_of_derive? {virtual : VirtualFunction} {pair : Pair}
    (hpair : Pair.derive? virtual = some pair) {arguments : List Argument}
    {bound : List (Nat × Node)} (hok : bindArguments pair.virtual arguments = .ok bound) :
    ∀ position ∈ targets pair.virtual arguments,
      position < pair.implementation.parameters.length := by
  obtain ⟨hvirtual, hparameters, -⟩ := derive?_eq_some hpair
  obtain ⟨-, -, -, hrange⟩ := bindArguments_ok hok
  rw [hparameters, List.length_map, ← hvirtual]
  exact hrange

/-- Names that differ denote what they are bound to. -/
theorem bind_getElem? {V : Type} {locals : Locals V} {names : List String} {values : List V}
    (hnodup : names.Nodup) {index : Nat} {name : String} {value : V}
    (hname : names[index]? = some name) (hvalue : values[index]? = some value) :
    locals.bind names values name = some value := by
  have hlookup : (names.zip values).lookup name = some value := by
    induction names generalizing values index with
    | nil => simp at hname
    | cons other rest ih =>
        obtain ⟨hother, hrest⟩ := List.nodup_cons.mp hnodup
        cases values with
        | nil => simp at hvalue
        | cons found values =>
            rw [List.zip_cons_cons, List.lookup_cons]
            cases index with
            | zero =>
                obtain rfl : other = name := by simpa using hname
                obtain rfl : found = value := by simpa using hvalue
                rw [beq_self_eq_true]
            | succ index =>
                rw [List.getElem?_cons_succ] at hname hvalue
                have hne : (name == other) = false :=
                  beq_false_of_ne fun hsame => hother (hsame ▸ List.mem_of_getElem? hname)
                rw [hne]
                exact ih hrest hname hvalue
  rw [Locals.bind, hlookup, Option.some_or]

/-- All names that a redirected call binds are local names. -/
theorem withoutRaw_of_mem_localNames {name : String} (hmem : name ∈ call.localNames pair) :
    withoutRaw name = name := by
  rcases List.mem_append.mp hmem with hreceiver | hargument
  · obtain ⟨receiver, -, rfl⟩ := Option.map_eq_some_iff.mp (Option.mem_toList.mp hreceiver)
    exact withoutRaw_localName _
  · obtain ⟨position, -, rfl⟩ := List.mem_map.mp hargument
    exact withoutRaw_localName _

/-- **Locals of a redirected call.** A call that becomes a `match` binds its operands, which are a
receiver that is no place and then the arguments, to one local each, and the arm is the call of the
implementation with these locals in their stead. The locals differ unless the receiver is among them
and a parameter of the name `receiver` is supplied. If they differ, each use in the arm has the value
at its own position of the tuple. -/
theorem redirectCall_binds {virtual : VirtualFunction}
    (hpair : Pair.derive? virtual = some pair) (hdistinct : virtual.DistinctLocals)
    (hok : redirectCall call pair module = .ok redirected)
    (hmatch : redirected.expr.is .matchExpr = true) :
    let names := call.localNames pair
    matching? redirected.expr =
        some ⟨call.operands, names, call.invocation pair module (names.map nameExpr)⟩ ∧
      names.length = call.operands.length ∧
      (names.Nodup ↔ ¬ (call.heldReceiver?.isSome ∧ call.SuppliesReceiver pair)) ∧
      (names.Nodup → ∀ {m : Type → Type} [Monad m] {V : Type} (s : Semantics m V)
        (locals : Locals V) (values : List V) (index : Nat) (name : String) (value : V),
        names[index]? = some name → values[index]? = some value →
          s.eval (locals.bind names values) (nameExpr name) = pure value) := by
  intro names
  obtain ⟨bound, hbound, hexpr⟩ := exists_bound_of_redirectCall hok
  obtain ⟨htargets, hvalues, hnodup, -⟩ := bindArguments_ok hbound
  -- arguments in order leave a plain call, which is no `match`
  have hdescent : hasDescent (bound.map (·.1)) = true := by
    by_contra hsorted
    rw [Bool.not_eq_true] at hsorted
    rw [hexpr, redirectedExpr_eq_invocation hbound hsorted, is_matchExpr_invocation] at hmatch
    cases hmatch
  have hlength : names.length = call.operands.length := by
    have hall : (targets pair.virtual call.arguments).length = call.arguments.length := by
      rw [← htargets, List.length_map, ← List.length_map (·.2), hvalues, List.length_map]
    simp only [names, CallExpr.localNames, CallExpr.operands, List.length_append, List.length_map,
      hall]
    cases call.heldReceiver? <;> rfl
  rw [VirtualFunction.DistinctLocals, ← parameterNames_of_derive? hpair] at hdistinct
  refine ⟨hexpr ▸ matching?_redirectedExpr hbound hdescent, hlength,
    nodup_localNames_iff hdistinct hnodup (lt_parameters_of_derive? hpair hbound), ?_⟩
  intro hlocals m _ V s locals values index name value hname hvalue
  refine s.eval_nameExpr _ ?_
  rw [withoutRaw_of_mem_localNames (List.mem_of_getElem? hname)]
  exact bind_getElem? hlocals hname hvalue

end Distinct

/-! ### A receiver as operand -/

theorem redirectCall_binds_promote : ∃ redirected,
    redirectCall promoteCall promotePair "crate" = .ok redirected ∧
      redirected.expr.is .matchExpr = true ∧
      promoteCall.localNames promotePair =
        ["__tablegen_receiver", "__tablegen_job", "__tablegen_name"] ∧
      ¬ promoteCall.SuppliesReceiver promotePair ∧
      matching? redirected.expr = some
        ⟨[bareCall "member", bareCall "next_job", bareCall "next_name"],
          promoteCall.localNames promotePair,
          promoteCall.invocation promotePair "crate"
            ((promoteCall.localNames promotePair).map nameExpr)⟩ := by
  have hdistinct : promote.DistinctLocals := by
    unfold VirtualFunction.DistinctLocals
    decide
  obtain ⟨hmatching, -, hnodup, -⟩ :=
    @redirectCall_binds promoteCall promotePair "crate" _ promote rfl hdistinct rfl rfl
  have hapart := hnodup.mp (by decide)
  exact ⟨_, rfl, rfl, rfl, fun hsupplies => hapart ⟨rfl, hsupplies⟩, hmatching⟩

/-- A method one of whose parameters is called like the local of a receiver. -/
def deliver : VirtualFunction where
  name := "deliver"
  container := "crate::Post"
  receiver := true
  parameters := [⟨"receiver", namedType "String"⟩, ⟨"weight", namedType "u32"⟩]
  output := .empty .returnType

/-- The method with its implementation. -/
def deliverPair : Pair := (Pair.derive? deliver).getD default

/-- A call of the method that gives its arguments by name, the second one first. -/
def deliverCall : CallExpr where
  attributes := .empty .attributes
  callee := .method (bareCall "post") (.punct ".") "deliver" (.empty .genericArgs)
  arguments := [.named "weight" (bareCall "weigh"), .named "receiver" (bareCall "address")]

/-- The parameters have different names, and two locals have the same. -/
theorem redirectCall_binds_twice : deliver.DistinctLocals ∧
    Pair.derive? deliver = some deliverPair ∧ ∃ redirected matching,
      redirectCall deliverCall deliverPair "crate" = .ok redirected ∧
        matching? redirected.expr = some matching ∧
        matching.names = ["__tablegen_receiver", "__tablegen_weight", "__tablegen_receiver"] ∧
        ¬ matching.names.Nodup := by
  refine ⟨?_, rfl, _, _, rfl, rfl, rfl, by decide⟩
  unfold VirtualFunction.DistinctLocals
  decide

end EntityTables.Call
