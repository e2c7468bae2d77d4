import EntityTables.Proofs.Call.Binders
import EntityTables.Proofs.Call.Landing
import EntityTables.Proofs.Call.Linking
import EntityTables.Proofs.Call.Methods

/-!
# Calls of paired implementations

A virtual function and an implementation in scanned files are paired by the name of the
implementation and the number of its parameters that have a name. A redirected call passes one
argument for each named parameter of the virtual function and one for each word of flags, and it is a
call of a method if the virtual function takes `self`. The signature of the implementation may differ
from that in two ways, for its receiver and its parameters without a name are not looked at.
-/

namespace EntityTables.Syntax.Signature

def takesSelf (signature : Signature) : Bool := signature.receiver?.isSome

/-- The inputs that are no receivers, whatever their patterns. -/
def others (signature : Signature) : List Node := signature.inputs.filter (Node.is .param)

/-- The inputs whose patterns are no names. -/
def unnamed (signature : Signature) : List Node :=
  signature.others.filter fun input => (parameter? input).isNone

theorem is_param_of_parameter? {input : Node} {parameter : Parameter}
    (hparameter : parameter? input = some parameter) : input.is .param = true := by
  unfold parameter? at hparameter
  split at hparameter
  · rfl
  · cases hparameter

/-- An input has a name or it has none. -/
theorem length_others (signature : Signature) :
    signature.others.length = signature.parameters.length + signature.unnamed.length := by
  unfold unnamed others parameters
  induction signature.inputs with
  | nil => rfl
  | cons input rest ih =>
      cases hparameter : parameter? input with
      | some parameter =>
          simp [hparameter, is_param_of_parameter? hparameter, ih]
          omega
      | none =>
          cases hparam : input.is .param with
          | true =>
              simp [hparameter, hparam, ih]
              omega
          | false => simp [hparameter, hparam, ih]

end EntityTables.Syntax.Signature

namespace EntityTables.Call

open EntityTables.Syntax

/-! ### Forms of calls -/

/-- How a function is called: as a method or not, and with how many arguments. -/
structure CallForm where
  method : Bool
  arguments : Nat
deriving DecidableEq

/-- The form in which a function with a signature has to be called. -/
def CallForm.declared (signature : Signature) : CallForm :=
  ⟨signature.takesSelf, signature.others.length⟩

/-- The form of an expression, if it is a call. -/
def CallForm.ofNode? : Node → Option CallForm
  | .phrase .callExpr [_, _, .group .paren arguments] => some ⟨false, (elements arguments).length⟩
  | .phrase .methodCallExpr [_, _, _, _, _, .group .paren arguments] =>
    some ⟨true, (elements arguments).length⟩
  | _ => none

/-- The call of an implementation in a redirected call, alone or in the arm of a `match`. -/
def RedirectedCall.invocation (redirected : RedirectedCall) : Node :=
  ((matching? redirected.expr).map (·.arm)).getD redirected.expr

def Callee.isMethod : Callee → Bool
  | .function _ _ => false
  | .method _ _ _ _ => true

def Target.isMethod : Target → Bool
  | .function _ => false
  | .method _ _ _ => true

/-- How the implementation of a pair is called. -/
def Pair.callForm (pair : Pair) (method : Bool) : CallForm :=
  ⟨method, pair.implementation.parameters.length + pair.implementation.encoding.wordCount⟩

theorem matching?_of_not_match {node : Node} (hnode : node.is .matchExpr = false) :
    matching? node = none := by
  unfold matching?
  split
  · cases hnode
  · rfl

theorem length_elements_implementationArguments (implementation : ImplementationFunction)
    (targets : List Nat) (placed : List (Nat × Node)) :
    (elements (implementationArguments implementation targets placed).parts).length =
      implementation.parameters.length + implementation.encoding.wordCount := by
  rw [parts_implementationArguments, elements_commaSeparated, List.length_append, length_fill,
    List.length_map, FlagEncoding.length_encode]

theorem ofNode?_invocation (call : CallExpr) (pair : Pair) (module : String) (uses : List Node) :
    CallForm.ofNode? (call.invocation pair module uses) =
      some (pair.callForm call.callee.isMethod) := by
  have hform : ∀ (method : Bool) (placed : List (Nat × Node)),
      some (CallForm.mk method (elements (implementationArguments pair.implementation
        (targets pair.virtual call.arguments) placed).parts).length) =
          some (pair.callForm method) := by
    intro method placed
    rw [Pair.callForm, length_elements_implementationArguments]
  unfold CallExpr.invocation
  cases call.callee with
  | function attributes path => exact hform false _
  | method receiver dot name turbofish => exact hform true _

/-- A redirected call passes an argument for each parameter and each word of flags. -/
theorem ofNode?_redirectCall {call : CallExpr} {pair : Pair} {module : String}
    {redirected : RedirectedCall} (hok : redirectCall call pair module = .ok redirected) :
    CallForm.ofNode? redirected.invocation = some (pair.callForm call.callee.isMethod) := by
  obtain ⟨bound, hbound, hexpr⟩ := exists_bound_of_redirectCall hok
  obtain ⟨uses, hinvocation⟩ :
      ∃ uses, redirected.invocation = call.invocation pair module uses := by
    rw [RedirectedCall.invocation, hexpr]
    cases hdescent : hasDescent (bound.map (·.1)) with
    | true =>
        rw [matching?_redirectedExpr hbound hdescent]
        exact ⟨_, rfl⟩
    | false =>
        rw [redirectedExpr_eq_invocation hbound hdescent,
          matching?_of_not_match (is_matchExpr_invocation _ _ _ _)]
        exact ⟨_, rfl⟩
  rw [hinvocation, ofNode?_invocation]

/-! ### What a call that means a pair looks like -/

section Resolve

variable {registry : Registry} {registrations : List Registration} {pair : Pair}

theorem exists_method_of_resolveMethod (hholds : registry.Holds registrations) {method : String}
    {selfContainer : Option String} {named : Bool}
    (hresolve : registry.resolveMethod method selfContainer named = .pair pair) :
    ∃ key, registry.HasMethod key ∧ registry.pairs.find? key = some pair := by
  have hmethods : ∀ keys ⊆ registry.methodKeys method, registry.outcome keys = .pair pair →
      ∃ key, registry.HasMethod key ∧ registry.pairs.find? key = some pair := by
    intro keys hsubset houtcome
    obtain ⟨key, hmem, hpair⟩ := exists_find?_of_outcome houtcome
    exact ⟨key, ((mem_methodKeys hholds).mp (hsubset hmem)).1, hpair⟩
  unfold Registry.resolveMethod at hresolve
  dsimp only at hresolve
  split at hresolve
  · cases hresolve
  · split at hresolve
    · refine hmethods _ ?_ hresolve
      cases selfContainer with
      | none => exact List.nil_subset _
      | some container => exact List.filter_subset_self _
    · split at hresolve
      · exact hmethods _ (List.Subset.refl _) hresolve
      · cases hresolve

theorem exists_free_of_resolveFunction {path : Node} {module : String}
    (hresolve : registry.resolveFunction path module = .pair pair) :
    ∃ key ∈ registry.freeKeys, registry.pairs.find? key = some pair := by
  rw [Registry.resolveFunction] at hresolve
  rcases path.pathNames.eq_nil_or_concat' with hnil | ⟨qualifier, name, hnames⟩
  · rw [hnil] at hresolve
    cases hresolve
  · rw [hnames, resolveNames_concat] at hresolve
    obtain ⟨key, hmem, hpair⟩ := exists_find?_of_outcome hresolve
    have hfiltered := (readsContainers qualifier module).subset _ hmem
    exact ⟨key, (List.mem_filter.mp hfiltered).1, hpair⟩

/-- A call that means a pair is one of a method if the virtual function takes `self`. -/
theorem receiver_of_resolve (hholds : registry.Holds registrations) (hfresh : registry.Fresh)
    {scope : Scope} {target : Target} (hresolve : registry.resolve scope target = .pair pair) :
    pair.virtual.receiver = target.isMethod := by
  cases target with
  | function path =>
      obtain ⟨key, hfree, hpair⟩ := exists_free_of_resolveFunction hresolve
      obtain ⟨function, hfind, hreceiver⟩ := (mem_freeKeys hholds.sortedVirtuals).mp hfree
      rw [hfresh key pair hpair, Option.some.injEq] at hfind
      rw [hfind, hreceiver]
      rfl
  | method receiver name named =>
      obtain ⟨key, ⟨function, hfind, hreceiver⟩, hpair⟩ :=
        exists_method_of_resolveMethod hholds hresolve
      rw [hfresh key pair hpair, Option.some.injEq] at hfind
      rw [hfind, hreceiver]
      rfl

theorem isMethod_of_target? {expr : Node} {call : CallExpr} {target : Target}
    (hcall : CallExpr.ofNode? expr = some call) (htarget : target? expr = some target) :
    call.callee.isMethod = target.isMethod := by
  rw [target?, hcall, Option.map_some, Option.some.injEq] at htarget
  subst htarget
  cases call.callee <;> rfl

end Resolve

/-! ### Functions in files -/

/-- A function as it is written in a container, with its attributes. -/
structure WrittenFunction where
  container : String
  attributes : List Node
  signature : Signature

namespace WrittenFunction

def ofNode? (container : String) (attributes : List Node) (signature : Node) :
    Option WrittenFunction :=
  (Signature.ofNode? signature).map (⟨container, attributes, ·⟩)

def IsVirtual (function : WrittenFunction) : Prop :=
  Node.anyMarker virtualMarker function.attributes = true

def IsImplementation (function : WrittenFunction) : Prop :=
  Node.anyMarker implementationMarker function.attributes = true

/-- What a scan registers for a function. -/
def registration? (function : WrittenFunction) : Option Registration :=
  if Node.anyMarker virtualMarker function.attributes then
    some (.virtual (.ofSignature function.container function.signature))
  else if Node.anyMarker implementationMarker function.attributes then
    some (.implementation function.container function.signature)
  else none

end WrittenFunction

/-- What a member of an implementation block adds to its functions. -/
def memberFunctions (container : String) : Node → List WrittenFunction
  | .phrase .implFn [attributes, visibility, qualifiers, signature, body] =>
    (WrittenFunction.ofNode? container
      (Node.phrase .implFn [attributes, visibility, qualifiers, signature, body]).attributes
      signature).toList
  | _ => []

/-- The functions of an item: itself, or those of an implementation block. -/
def itemFunctions (module : String) : Node → List WrittenFunction
  | .phrase .fnItem [attributes, visibility, signature, body] =>
    (WrittenFunction.ofNode? module
      (Node.phrase .fnItem [attributes, visibility, signature, body]).attributes signature).toList
  | .phrase .implItem [_, _, _, _, _, selfType, _, body] =>
    match selfType.typePath? with
    | none => []
    | some path =>
      body.parts.flatMap (memberFunctions (Text.nameWithin module path.pathText))
  | _ => []

/-- The functions of a file, in modules and implementation blocks of any depth. -/
def fileFunctions (container : String) (file : Node) : List WrittenFunction :=
  (placeItems container (file.parts.drop 1)).flatMap fun placed =>
    itemFunctions placed.module placed.item

theorem functionRegistrations_eq (container : String) (attributes : List Node) (signature : Node) :
    functionRegistrations container attributes signature =
      (WrittenFunction.ofNode? container attributes signature).toList.filterMap
        WrittenFunction.registration? := by
  unfold functionRegistrations WrittenFunction.ofNode?
  cases Signature.ofNode? signature with
  | none => rfl
  | some signature =>
      simp only [Option.map_some, Option.toList_some, List.filterMap_cons, List.filterMap_nil,
        WrittenFunction.registration?]
      split
      · rfl
      · split <;> rfl

theorem memberRegistrations_eq (container : String) (member : Node) :
    memberRegistrations container member =
      (memberFunctions container member).filterMap WrittenFunction.registration? := by
  unfold memberRegistrations
  split
  · exact functionRegistrations_eq _ _ _
  · next hmember =>
      unfold memberFunctions
      split
      · exact (hmember _ _ _ _ _ rfl).elim
      · rfl

theorem itemRegistrations_eq (module : String) (item : Node) :
    itemRegistrations module item =
      (itemFunctions module item).filterMap WrittenFunction.registration? := by
  unfold itemRegistrations
  split
  · exact functionRegistrations_eq _ _ _
  · next selfType _ body =>
      rw [itemFunctions]
      cases selfType.typePath? with
      | none => rfl
      | some path => simp only [List.filterMap_flatMap, ← memberRegistrations_eq]
  · next hfn himpl =>
      unfold itemFunctions
      split
      · exact (hfn _ _ _ _ rfl).elim
      · exact (himpl _ _ _ _ _ _ _ _ rfl).elim
      · rfl

/-- A scan registers the functions of a file that have a marker. -/
theorem fileRegistrations_eq (container : String) (file : Node) :
    fileRegistrations container file =
      (fileFunctions container file).filterMap WrittenFunction.registration? := by
  simp only [fileRegistrations, fileFunctions, List.filterMap_flatMap, itemRegistrations_eq]

/-- The registry of some files, each of them scanned in its container. -/
def Registry.scanned (files : List (String × Node)) : Registry :=
  after (files.map fun (container, file) => .scan container file)

def functionsOf (files : List (String × Node)) : List WrittenFunction :=
  files.flatMap fun (container, file) => fileFunctions container file

theorem scanned_eq (files : List (String × Node)) : Registry.scanned files =
    Registry.empty.registerAll
      ((functionsOf files).filterMap WrittenFunction.registration?) := by
  rw [Registry.scanned, after_eq, List.flatMap_map, functionsOf, List.filterMap_flatMap]
  simp only [Operation.registrations, fileRegistrations_eq]

section Scanned

variable {files : List (String × Node)} {key : FunctionKey} {pair : Pair}

theorem registration?_eq_some {function : WrittenFunction} {registration : Registration}
    (hregistration : function.registration? = some registration) :
    (function.IsVirtual ∧
        registration = .virtual (.ofSignature function.container function.signature)) ∨
      (function.IsImplementation ∧
        registration = .implementation function.container function.signature) := by
  unfold WrittenFunction.registration? at hregistration
  split at hregistration
  · next hvirtual => exact Or.inl ⟨hvirtual, (Option.some.inj hregistration).symm⟩
  · split at hregistration
    · next himplementation =>
        exact Or.inr ⟨himplementation, (Option.some.inj hregistration).symm⟩
    · cases hregistration

theorem holds_scanned (files : List (String × Node)) : (Registry.scanned files).Holds
    ((functionsOf files).filterMap WrittenFunction.registration?) := by
  rw [scanned_eq]
  exact holds_registerAll _

theorem linked_scanned (files : List (String × Node)) : (Registry.scanned files).Linked := by
  rw [scanned_eq]
  refine linked_registerAll fun registration hmem => ?_
  obtain ⟨function, -, hregistration⟩ := List.mem_filterMap.mp hmem
  rcases registration?_eq_some hregistration with ⟨-, rfl⟩ | ⟨-, rfl⟩
  · rfl
  · rfl

theorem fresh_scanned (files : List (String × Node)) : (Registry.scanned files).Fresh := by
  intro key pair hpair
  rw [(linked_scanned files).pairs, linked?_eq_some_iff] at hpair
  obtain ⟨virtual, signature, hvirtual, -, hlinked⟩ := hpair
  rw [hvirtual, virtual_of_pairOf? hlinked]

/-- A virtual function of a registry is written in a file. -/
theorem exists_written_virtual {virtual : VirtualFunction}
    (hvirtual : (Registry.scanned files).virtuals.find? key = some virtual) :
    ∃ function ∈ functionsOf files, function.IsVirtual ∧ function.container = key.container ∧
      virtual = .ofSignature key.container function.signature := by
  rw [(holds_scanned files).virtuals] at hvirtual
  obtain ⟨registration, hmem, hdeclares⟩ := exists_of_latest? hvirtual
  obtain ⟨function, hfunction, hregistration⟩ := List.mem_filterMap.mp hmem
  have hkey := Registration.key_of_declares? hdeclares
  rcases registration?_eq_some hregistration with ⟨hmarked, rfl⟩ | ⟨-, rfl⟩
  · rw [Registration.declares?, Option.ite_none_right_eq_some, Option.some.injEq] at hdeclares
    obtain ⟨-, rfl⟩ := hdeclares
    have hcontainer : function.container = key.container := congrArg (·.container) hkey
    exact ⟨function, hfunction, hmarked, hcontainer, hcontainer ▸ rfl⟩
  · cases hdeclares

/-- An implementation of a registry is written in a file. -/
theorem exists_written_implementation {signature : Signature}
    (himplementation : (Registry.scanned files).implementations.find? key = some signature) :
    ∃ function ∈ functionsOf files, function.IsImplementation ∧
      function.container = key.container ∧ function.signature = signature := by
  rw [(holds_scanned files).implementations] at himplementation
  obtain ⟨registration, hmem, himplements⟩ := exists_of_latest? himplementation
  obtain ⟨function, hfunction, hregistration⟩ := List.mem_filterMap.mp hmem
  rcases registration?_eq_some hregistration with ⟨-, rfl⟩ | ⟨hmarked, rfl⟩
  · cases himplements
  · rw [Registration.implements?, Option.ite_none_right_eq_some, Option.some.injEq] at himplements
    obtain ⟨hplace, rfl⟩ := himplements
    obtain ⟨name, -, rfl⟩ := Option.map_eq_some_iff.mp hplace
    exact ⟨function, hfunction, hmarked, rfl, rfl⟩

/-- A call that means a pair of scanned functions has the form of its virtual function. -/
theorem ofNode?_redirectCall_of_resolve {declared : Signature} {scope : Scope} {expr : Node}
    {call : CallExpr} {target : Target} {redirected : RedirectedCall}
    (hderive : Pair.derive? (.ofSignature key.container declared) = some pair)
    (hcall : CallExpr.ofNode? expr = some call) (htarget : target? expr = some target)
    (hresolve : (Registry.scanned files).resolve scope target = .pair pair)
    (hok : redirectCall call pair scope.module = .ok redirected) :
    CallForm.ofNode? redirected.invocation =
      some ⟨declared.takesSelf, declared.parameters.length +
        pair.implementation.encoding.wordCount⟩ := by
  obtain ⟨hvirtual, hparameters, -⟩ := derive?_eq_some hderive
  have hreceiver := receiver_of_resolve (holds_scanned files) (fresh_scanned files) hresolve
  rw [ofNode?_redirectCall hok, isMethod_of_target? hcall htarget, ← hreceiver, hvirtual,
    Pair.callForm, hparameters, List.length_map]
  rfl

/-- **Calls of paired implementations.** Every pair in the registry of scanned files has a virtual
function and an implementation that are written there, and the implementation is named after the
function and has a named parameter for each of its named ones and for each word of flags. It takes
what the function takes, and the words, if they agree on `self` and on how many parameters without a
name they have. Every call that is redirected to it passes the named parameters and the words, as a
method if the function takes `self`, and this is the form of the implementation if they agree on
`self` and the implementation has no parameter without a name. -/
theorem scanned_callForm (files : List (String × Node)) {key : FunctionKey} {pair : Pair}
    (hpair : (Registry.scanned files).pairs.find? key = some pair) :
    let registry := Registry.scanned files
    let words := pair.implementation.encoding.wordCount
    (∃ function ∈ functionsOf files, function.IsVirtual ∧ function.container = key.container ∧
        registry.virtuals.find? key = some (.ofSignature key.container function.signature)) ∧
      (∃ function ∈ functionsOf files, function.IsImplementation ∧
        function.container = key.container ∧
        registry.implementations.find? key = some function.signature) ∧
      ∀ declared implemented : Signature,
        registry.virtuals.find? key = some (.ofSignature key.container declared) →
        registry.implementations.find? key = some implemented →
        implemented.name = implementationPrefix ++ declared.name ∧
          implemented.parameters.length = declared.parameters.length + words ∧
          (CallForm.declared implemented = ⟨declared.takesSelf, declared.others.length + words⟩ ↔
            implemented.takesSelf = declared.takesSelf ∧
              implemented.unnamed.length = declared.unnamed.length) ∧
          ∀ scope expr call target redirected, CallExpr.ofNode? expr = some call →
            target? expr = some target → registry.resolve scope target = .pair pair →
            redirectCall call pair scope.module = .ok redirected →
            CallForm.ofNode? redirected.invocation =
                some ⟨declared.takesSelf, declared.parameters.length + words⟩ ∧
              (CallForm.ofNode? redirected.invocation = some (.declared implemented) ↔
                implemented.takesSelf = declared.takesSelf ∧ implemented.unnamed = []) := by
  intro registry words
  have hlinked := hpair
  rw [(linked_scanned files).pairs, linked?_eq_some_iff] at hlinked
  obtain ⟨virtual, signature, hvirtual, himplementation, hpairOf⟩ := hlinked
  obtain ⟨written, hwritten, hmarked, hcontainer, hsignature⟩ := exists_written_virtual hvirtual
  obtain ⟨implementing, himplementing, hmarked', hcontainer', hsignature'⟩ :=
    exists_written_implementation himplementation
  refine ⟨⟨written, hwritten, hmarked, hcontainer, hsignature ▸ hvirtual⟩,
    ⟨implementing, himplementing, hmarked', hcontainer', hsignature' ▸ himplementation⟩, ?_⟩
  intro declared implemented hdeclared himplemented
  obtain rfl : virtual = .ofSignature key.container declared :=
    Option.some.inj (hvirtual.symm.trans hdeclared)
  obtain rfl : signature = implemented :=
    Option.some.inj (himplementation.symm.trans himplemented)
  rw [Registry.pairOf?, Option.filter_eq_some_iff, ImplementationFunction.conforms,
    Bool.and_eq_true, beq_iff_eq, beq_iff_eq] at hpairOf
  obtain ⟨hderive, hname, hcount⟩ := hpairOf
  obtain ⟨hfunction, hparameters, -, hflags⟩ := derive?_eq_some hderive
  have hnamed : signature.parameters.length = declared.parameters.length + words := by
    rw [hcount, hparameters, hflags, List.length_map, FlagEncoding.length_flagNames]
    rfl
  have hothers := signature.length_others
  have hothers' := declared.length_others
  refine ⟨?_, hnamed, ?_, ?_⟩
  · rw [hname, name_of_derive? hderive, hfunction]
    rfl
  · -- named inputs and words cancel, and what is left are the inputs without a name
    rw [CallForm.declared, CallForm.mk.injEq, hothers, hothers', hnamed]
    exact and_congr_right fun _ => by omega
  · intro scope expr call target redirected hcall htarget hresolve hok
    have hform := ofNode?_redirectCall_of_resolve hderive hcall htarget hresolve hok
    refine ⟨hform, ?_⟩
    rw [hform, Option.some.injEq, CallForm.declared, CallForm.mk.injEq, hothers, hnamed,
      ← List.length_eq_zero_iff]
    exact and_congr eq_comm (by omega)

end Scanned

section Instance

/-- A file with a virtual function and an implementation. -/
def pairFile (declared implemented : Signature) : Node :=
  .phrase .file [.empty .attributes, markedItem virtualMarker declared,
    markedItem implementationMarker implemented]

def pointDeclared : Signature := signatureOf "Point" [("x", namedType "i32")]

def pointImplemented : Signature :=
  signatureOf "__impl_Point" [("x", optionOf (namedType "i32")), ("flag", namedType "u32")]

/-- An input that takes a pair apart. -/
def pairInput : Node :=
  .phrase .param [.empty .attributes, .phrase .pattern [parens (commaSeparated
      [.phrase .identPat [.ident "a"], .phrase .identPat [.ident "b"]])], .punct ":",
    .phrase .tupleType [parens (commaSeparated [namedType "i32", namedType "i32"])]]

/-- The implementation with an input more in front of the others. -/
def wideImplemented : Signature :=
  { pointImplemented with inputs := pairInput :: pointImplemented.inputs }

/-- The call of the function by the name of its parameter. -/
def pointExpr : Node :=
  .phrase .callExpr [.empty .attributes,
    .phrase .pathExpr [.empty .attributes, pathOf [segmentOf "Point"]],
    parens [.phrase .assignExpr [.empty .attributes, nameExpr "x", .punct "=", bareCall "one"]]]

def pointCall : CallExpr where
  attributes := .empty .attributes
  callee := .function (.empty .attributes) (pathOf [segmentOf "Point"])
  arguments := [.named "x" (bareCall "one")]

/-- The function with the implementation that belongs to it. -/
def pointPair : Pair := (Pair.derive? (.ofSignature "crate" pointDeclared)).getD default

theorem scanned_callForm_point :
    let registry := Registry.scanned [("crate", pairFile pointDeclared pointImplemented)]
    registry.pairs.find? ⟨"crate", "Point"⟩ = some pointPair ∧
      registry.resolve ⟨"crate", none⟩ (.function (pathOf [segmentOf "Point"])) = .pair pointPair ∧
      ∃ redirected, redirectCall pointCall pointPair "crate" = .ok redirected ∧
        CallForm.ofNode? redirected.invocation = some ⟨false, 2⟩ ∧
        CallForm.ofNode? redirected.invocation = some (.declared pointImplemented) := by
  intro registry
  have hpair : registry.pairs.find? ⟨"crate", "Point"⟩ = some pointPair := rfl
  have hresolve : registry.resolve ⟨"crate", none⟩ (.function (pathOf [segmentOf "Point"])) =
      .pair pointPair := rfl
  obtain ⟨-, -, hsignatures⟩ := scanned_callForm _ hpair
  obtain ⟨-, -, -, hcalls⟩ := hsignatures pointDeclared pointImplemented rfl rfl
  obtain ⟨hform, hdeclared⟩ := hcalls ⟨"crate", none⟩ pointExpr pointCall _ _ rfl rfl hresolve rfl
  exact ⟨hpair, hresolve, _, rfl, hform, hdeclared.mpr ⟨rfl, rfl⟩⟩

/-- The implementation with one input more is paired, too, and is called without it. -/
theorem scanned_callForm_wide :
    let registry := Registry.scanned [("crate", pairFile pointDeclared wideImplemented)]
    registry.pairs.find? ⟨"crate", "Point"⟩ = some pointPair ∧
      registry.virtuals.find? ⟨"crate", "Point"⟩ = some (.ofSignature "crate" pointDeclared) ∧
      registry.implementations.find? ⟨"crate", "Point"⟩ = some wideImplemented ∧
      wideImplemented.others.length ≠
        pointDeclared.others.length + pointPair.implementation.encoding.wordCount ∧
      registry.resolve ⟨"crate", none⟩ (.function (pathOf [segmentOf "Point"])) = .pair pointPair ∧
      ∃ redirected, redirectCall pointCall pointPair "crate" = .ok redirected ∧
        CallForm.ofNode? redirected.invocation = some ⟨false, 2⟩ ∧
        CallForm.declared wideImplemented = ⟨false, 3⟩ := by
  exact ⟨rfl, rfl, rfl, by decide, rfl, _, rfl, rfl, rfl⟩

end Instance

end EntityTables.Call
