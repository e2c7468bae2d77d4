import EntityTables.Proofs.Syntax.Running
import EntityTables.Syntax.Grammar

/-!
# Agreement of parsers

Two parsers agree up to a size if they do the same on every input of at most that size. Where a
production reads a tree before it goes on, agreement below the size is enough for what follows, and
the trees in a group are always below it.
-/

namespace EntityTables.Syntax

open EntityTables.Syntax.Parser

/-- The size of an input is at most a bound, or below the bound if a tree was read before. -/
class Fits (used : Bool) (size : Nat) (input : Input) : Prop where
  size_le : Node.sizeOfAll input + used.toNat ≤ size

/-- On an input two parsers do the same, and what they leave fits again. -/
structure AgreesAt {α : Type} (used : Bool) (size : Nat) (first second : Parser α)
    (input : Input) : Prop where
  run_eq : first.run input = second.run input
  fits : ∀ {read rest}, first.run input = .ok (read, rest) → Fits used size rest

/-- Two parsers do the same on all inputs that fit. -/
class Agrees {α : Type} (used : Bool) (size : Nat) (first second : Parser α) : Prop where
  agreesAt : ∀ input, [Fits used size input] → AgreesAt used size first second input

/-- A parser that succeeds leaves an input of a smaller size. -/
class Reduces {α : Type} (parser : Parser α) : Prop where
  size_lt : ∀ {input read rest}, parser.run input = .ok (read, rest) →
    Node.sizeOfAll rest < Node.sizeOfAll input

variable {used : Bool} {size : Nat}

/-! ### Sizes -/

section Sizes

variable {input rest : Input} {node : Node}

theorem sizeOfAll_cons (node : Node) (input : Input) :
    Node.sizeOfAll (node :: input) = node.size + Node.sizeOfAll input := by rw [Node.sizeOfAll]

theorem sizeOfAll_drop_le (input : Input) (count : Nat) :
    Node.sizeOfAll (input.drop count) ≤ Node.sizeOfAll input := by
  induction count generalizing input with
  | zero => exact Nat.le_of_eq (congrArg Node.sizeOfAll List.drop_zero)
  | succ count ih =>
      cases input with
      | nil => exact Nat.le_of_eq (congrArg Node.sizeOfAll List.drop_nil)
      | cons node rest =>
          rw [List.drop_succ_cons, sizeOfAll_cons]
          exact Nat.le_trans (ih rest) (Nat.le_add_left _ _)

theorem Fits.of_le (hfits : Fits used size input)
    (hle : Node.sizeOfAll rest ≤ Node.sizeOfAll input) : Fits used size rest :=
  ⟨Nat.le_trans (Nat.add_le_add_right hle _) hfits.size_le⟩

theorem Fits.of_lt (hfits : Fits used size input)
    (hlt : Node.sizeOfAll rest < Node.sizeOfAll input) : Fits true size rest := by
  have hle := hfits.size_le
  refine ⟨?_⟩
  rw [Bool.toNat_true]
  omega

theorem Fits.of_true (hfits : Fits true size input) : Fits used size input := by
  cases used with
  | true => exact hfits
  | false => exact ⟨Nat.le_trans (Nat.le_succ _) hfits.size_le⟩

theorem Fits.tail (hfits : Fits used size (node :: input)) : Fits used size input :=
  hfits.of_le (by rw [sizeOfAll_cons]; exact Nat.le_add_left _ _)

/-- The trees in a group are fewer than the group and them. -/
theorem Fits.body {delimiter : Delimiter} {body : List Node}
    (hfits : Fits used size (.group delimiter body :: input)) : Fits true size body := by
  refine hfits.of_lt ?_
  rw [sizeOfAll_cons, Node.size]
  omega

end Sizes

/-! ### Combinators -/

section Combinators

variable {α β : Type} {first second other other' : Parser α} {next next' : α → Parser β}
  {input : Input}

theorem AgreesAt.bind {middle : Bool} (hfirst : AgreesAt middle size first second input)
    (hnext : ∀ read rest, [Fits middle size rest] →
      AgreesAt used size (next read) (next' read) rest) :
    AgreesAt used size (first >>= next) (second >>= next') input where
  run_eq := by
    rw [StateT.run_bind, StateT.run_bind, ← hfirst.run_eq]
    rcases hrun : first.run input with error | ⟨read, rest⟩
    · rfl
    · have hfits := hfirst.fits hrun
      exact (hnext read rest).run_eq
  fits hrun := by
    obtain ⟨read, rest, hread, hrest⟩ := run_bind_eq_ok.mp hrun
    have hfits := hfirst.fits hread
    exact (hnext read rest).fits hrest

theorem AgreesAt.of_true (h : AgreesAt true size first second input) :
    AgreesAt used size first second input :=
  ⟨h.run_eq, fun hrun => (h.fits hrun).of_true⟩

theorem AgreesAt.ite {condition : Prop} [Decidable condition]
    (hfirst : condition → AgreesAt used size first second input)
    (hother : ¬condition → AgreesAt used size other other' input) :
    AgreesAt used size (if condition then first else other)
      (if condition then second else other') input := by
  by_cases hcondition : condition
  · rw [if_pos hcondition, if_pos hcondition]
    exact hfirst hcondition
  · rw [if_neg hcondition, if_neg hcondition]
    exact hother hcondition

theorem AgreesAt.get {next next' : Input → Parser β}
    (hnext : AgreesAt used size (next input) (next' input) input) :
    AgreesAt used size (get >>= next) (get >>= next') input :=
  ⟨hnext.run_eq, hnext.fits⟩

theorem AgreesAt.guard {condition : Bool} {next next' : Unit → Parser β}
    (hnext : AgreesAt used size (next ()) (next' ()) input) :
    AgreesAt used size (Parser.guard condition >>= next)
      (Parser.guard condition >>= next') input := by
  cases condition with
  | true => exact hnext
  | false => exact ⟨rfl, nofun⟩

/-- A parser whose runs leave inputs that fit agrees with itself. -/
theorem Agrees.self {parser : Parser α} (hfits : ∀ {input read rest}, Fits used size input →
    parser.run input = .ok (read, rest) → Fits used size rest) :
    Agrees used size parser parser :=
  ⟨fun _ hinput => ⟨rfl, hfits hinput⟩⟩

/-- A parser that leaves no more than it started from agrees with itself. -/
theorem Agrees.of_le {parser : Parser α} (hle : ∀ {input read rest},
    parser.run input = .ok (read, rest) → Node.sizeOfAll rest ≤ Node.sizeOfAll input) :
    Agrees used size parser parser :=
  .self fun hinput hrun => hinput.of_le (hle hrun)

/-- After a tree was read, agreement below the bound is enough. -/
instance (priority := high) Agrees.bind_reduces [hreduces : Reduces first]
    [hfirst : Agrees used size first second]
    [hnext : ∀ read, Agrees true size (next read) (next' read)] :
    Agrees used size (first >>= next) (second >>= next') where
  agreesAt input hfits := by
    have hmiddle : AgreesAt true size first second input :=
      ⟨(hfirst.agreesAt input).run_eq, fun hrun => hfits.of_lt (hreduces.size_lt hrun)⟩
    exact .of_true (hmiddle.bind fun read rest => (hnext read).agreesAt rest)

instance Agrees.bind [hfirst : Agrees used size first second]
    [hnext : ∀ read, Agrees used size (next read) (next' read)] :
    Agrees used size (first >>= next) (second >>= next') where
  agreesAt input _ := (hfirst.agreesAt input).bind fun read rest => (hnext read).agreesAt rest

/-- An input that is looked at fits. -/
instance (priority := high) Agrees.get_bind {next next' : Input → Parser β}
    [hnext : ∀ input, [Fits used size input] → Agrees used size (next input) (next' input)] :
    Agrees used size (get >>= next) (get >>= next') where
  agreesAt input _ := .get ((hnext input).agreesAt input)

/-! The same as steps of a longer production. -/

theorem Agrees.after [Agrees used size first second]
    (hnext : ∀ read, Agrees used size (next read) (next' read)) :
    Agrees used size (first >>= next) (second >>= next') := .bind

theorem Agrees.behind [Reduces first] [Agrees used size first second]
    (hnext : ∀ read, Agrees true size (next read) (next' read)) :
    Agrees used size (first >>= next) (second >>= next') := .bind_reduces

theorem Agrees.looking {next next' : Input → Parser β}
    (hnext : ∀ input, [Fits used size input] → Agrees used size (next input) (next' input)) :
    Agrees used size (get >>= next) (get >>= next') :=
  ⟨fun input _ => .get ((hnext input).agreesAt input)⟩

instance Agrees.ite {condition : Prop} [Decidable condition]
    [hfirst : Agrees used size first second] [hother : Agrees used size other other'] :
    Agrees used size (if condition then first else other)
      (if condition then second else other') := by
  split
  · exact hfirst
  · exact hother

theorem Agrees.branch {condition : Prop} [Decidable condition]
    (hfirst : Agrees used size first second) (hother : Agrees used size other other') :
    Agrees used size (if condition then first else other)
      (if condition then second else other') := .ite

instance Agrees.pure (read : α) : Agrees used size (Pure.pure read : Parser α) (Pure.pure read) :=
  .self fun hfits hrun => by
    cases hrun
    exact hfits

instance Agrees.refuseFor (error : SyntaxError) :
    Agrees used size (refuseFor error : Parser α) (Parser.refuseFor error) :=
  .self fun _ hrun => nomatch hrun

instance Agrees.refuse : Agrees used size (Parser.refuse : Parser α) Parser.refuse :=
  .refuseFor _

instance Agrees.set (rest : Input) [hrest : Fits used size rest] :
    Agrees used size (set rest : Parser PUnit) (MonadStateOf.set rest) :=
  .self fun _ hrun => by
    cases hrun
    exact hrest

instance Agrees.peek (question : Input → α) :
    Agrees used size (Parser.peek question) (Parser.peek question) :=
  .self fun hfits hrun => by
    cases hrun
    exact hfits

instance Agrees.guard (condition : Bool) :
    Agrees used size (Parser.guard condition) (Parser.guard condition) :=
  .self fun hfits hrun => by
    obtain ⟨-, rfl⟩ := run_guard_eq_ok.mp hrun
    exact hfits

instance Agrees.sinceInput (start : Input) :
    Agrees used size (Parser.sinceInput start) (Parser.sinceInput start) :=
  .self fun hfits hrun => by
    cases hrun
    exact hfits

instance Agrees.dropped [Agrees used size first second] :
    Agrees used size (discard first) (discard second) := by
  rw [discard_eq, discard_eq]
  infer_instance

instance Agrees.one {first second : Parser Node} [Agrees used size first second] :
    Agrees used size (Parser.one first) (Parser.one second) := by
  unfold Parser.one
  infer_instance

instance Agrees.orNothing (test : Input → Bool) {first second : Parser (List Node)}
    [Agrees used size first second] :
    Agrees used size (Parser.orNothing test first) (Parser.orNothing test second) := by
  unfold Parser.orNothing
  infer_instance

/-- A parser on trees of their own is the same if it does the same on them. -/
theorem within_congr {body : List Node} (h : first.run body = second.run body) :
    within body first = within body second := by
  unfold within
  rw [h]

instance Agrees.within (body : List Node) (parser : Parser α) :
    Agrees used size (Parser.within body parser) (Parser.within body parser) :=
  .self fun hfits hrun => by
    obtain ⟨-, rfl⟩ := run_within_eq_ok.mp hrun
    exact hfits

/-- The trees in a group are below the bound. -/
instance Agrees.group (delimiter : Delimiter) {first second : Parser (List Node)}
    [hfirst : Agrees true size first second] :
    Agrees used size (Parser.group delimiter first) (Parser.group delimiter second) where
  agreesAt input hfits := by
    unfold Parser.group
    refine AgreesAt.get ?_
    split
    · next own body rest =>
        have hbody := hfits.body
        have hrest := hfits.tail
        rw [within_congr (hfirst.agreesAt body).run_eq]
        exact Agrees.agreesAt _
    · exact Agrees.agreesAt _

instance Agrees.attempt [hfirst : Agrees used size first second] :
    Agrees used size (Parser.attempt first) (Parser.attempt second) where
  agreesAt input hfits := by
    have hat := hfirst.agreesAt input
    unfold Parser.attempt
    refine AgreesAt.get ?_
    rw [← hat.run_eq]
    rcases hrun : first.run input with error | ⟨read, rest⟩
    · exact Agrees.agreesAt _
    · have hrest := hat.fits hrun
      exact Agrees.agreesAt _

instance Agrees.repeatWithin (steps : Nat) {step step' : Parser (Option (List Node))}
    [hstep : Agrees used size step step'] (done : List Node) :
    Agrees used size (Parser.repeatWithin steps step done)
      (Parser.repeatWithin steps step' done) := by
  induction steps generalizing done with
  | zero => exact .pure _
  | succ steps ih =>
      unfold Parser.repeatWithin
      refine @Agrees.bind _ _ _ _ _ _ _ _ hstep fun read => ?_
      cases read with
      | none => exact .pure _
      | some nodes => exact ih _

instance Agrees.repeated {step step' : Parser (Option (List Node))}
    [Agrees used size step step'] :
    Agrees used size (Parser.repeated step) (Parser.repeated step') := by
  unfold Parser.repeated
  infer_instance

instance Agrees.many (test : Input → Bool) {first second : Parser (List Node)}
    [Agrees used size first second] :
    Agrees used size (Parser.many test first) (Parser.many test second) := by
  unfold Parser.many
  infer_instance

instance Agrees.separated (stop : Input → Bool) (separator : Parser Node)
    [Agrees used size separator separator] {first second : Parser (List Node)}
    [Agrees used size first second] :
    Agrees used size (Parser.separated stop separator first)
      (Parser.separated stop separator second) := by
  unfold Parser.separated
  infer_instance

end Combinators

/-! ### Trees that are read -/

section Reading

variable {α : Type} {parser : Parser α}

instance (priority := low) Agrees.of_reduces [hreduces : Reduces parser] :
    Agrees used size parser parser :=
  .of_le fun hrun => Nat.le_of_lt (hreduces.size_lt hrun)

theorem Reduces.when {test : Input → Bool}
    (hphrase : ∀ kind parts rest, test (.phrase kind parts :: rest) = false) :
    Reduces (when test) where
  size_lt {input node rest} hrun := by
    obtain ⟨htest, rfl⟩ := run_when_eq_ok.mp hrun
    rw [sizeOfAll_cons]
    cases node with
    | leaf token => exact Nat.lt_add_of_pos_left Nat.one_pos
    | group delimiter body =>
        rw [Node.size]
        omega
    | phrase kind parts => exact absurd htest (by simp [hphrase])

instance Reduces.word (word : String) : Reduces (Parser.word word) := .when fun _ _ _ => rfl

instance Reduces.anyWord : Reduces anyWord := .when fun _ _ _ => rfl

instance Reduces.name : Reduces name := .when fun _ _ _ => rfl

instance Reduces.nameOrUnderscore : Reduces nameOrUnderscore := .when fun _ _ _ => rfl

instance Reduces.lifetime : Reduces lifetime := .when fun _ _ _ => rfl

instance Reduces.rawGroup : Reduces rawGroup := .when fun _ _ _ => rfl

/-- An operator with characters to read. -/
class IsOperator (operator : String) : Prop where
  ne_nil : operator.toList ≠ []

instance : IsOperator "<" := ⟨by decide⟩

instance : IsOperator "->" := ⟨by decide⟩

instance : IsOperator "=" := ⟨by decide⟩

instance : IsOperator "+" := ⟨by decide⟩

instance : IsOperator "-" := ⟨by decide⟩

instance : IsOperator "*" := ⟨by decide⟩

instance : IsOperator "&" := ⟨by decide⟩

instance : IsOperator "!" := ⟨by decide⟩

instance : IsOperator "|" := ⟨by decide⟩

instance : IsOperator "." := ⟨by decide⟩

instance : IsOperator ".." := ⟨by decide⟩

instance : IsOperator "..." := ⟨by decide⟩

instance : IsOperator "..=" := ⟨by decide⟩

instance IsOperator.ite {condition : Prop} [Decidable condition] {operator other : String}
    [hoperator : IsOperator operator] [hother : IsOperator other] :
    IsOperator (if condition then operator else other) := by
  split
  · exact hoperator
  · exact hother

instance Reduces.punctOr (error : SyntaxError) (operator : String)
    [hoperator : IsOperator operator] : Reduces (punctOr error operator) where
  size_lt {input _ _} hrun := by
    obtain ⟨hstarts, -, rfl⟩ := run_punctOr_eq_ok.mp hrun
    obtain ⟨first, others, hchars⟩ := List.exists_cons_of_ne_nil hoperator.ne_nil
    unfold Input.startsPunct at hstarts
    rw [hchars] at hstarts
    obtain ⟨joint, rest, rfl, -⟩ := startsChars_cons hstarts
    rw [← String.length_toList, hchars, List.length_cons, List.drop_succ_cons, sizeOfAll_cons,
      Node.size]
    exact Nat.lt_of_le_of_lt (sizeOfAll_drop_le rest _) (Nat.lt_add_of_pos_left Nat.one_pos)

instance Reduces.punct (operator : String) [IsOperator operator] :
    Reduces (Parser.punct operator) := .punctOr _ _

instance Reduces.dropped [hparser : Reduces parser] : Reduces (discard parser) where
  size_lt hrun := by
    obtain ⟨read, hread⟩ := run_discard_eq_ok.mp hrun
    exact hparser.size_lt hread

instance Agrees.any : Agrees used size any Parser.any :=
  .self fun hfits hrun => by
    rw [run_any_eq_ok.mp hrun] at hfits
    exact hfits.tail

instance Agrees.when (test : Input → Bool) :
    Agrees used size (when test) (Parser.when test) := by
  unfold Parser.when
  infer_instance

instance Agrees.punctOr (error : SyntaxError) (operator : String) :
    Agrees used size (punctOr error operator) (Parser.punctOr error operator) :=
  .of_le fun hrun => by
    obtain ⟨-, -, rfl⟩ := run_punctOr_eq_ok.mp hrun
    exact sizeOfAll_drop_le _ _

instance Agrees.punct (operator : String) :
    Agrees used size (punct operator) (Parser.punct operator) := .punctOr _ _

instance Agrees.punct? (operator : String) :
    Agrees used size (punct? operator) (Parser.punct? operator) := by
  unfold Parser.punct?
  infer_instance

instance Agrees.word? (word : String) :
    Agrees used size (word? word) (Parser.word? word) := by
  unfold Parser.word?
  infer_instance

instance Agrees.lifetime? : Agrees used size lifetime? Parser.lifetime? := by
  unfold Parser.lifetime?
  infer_instance

end Reading

section Repetition

variable {stop : Input → Bool} {first second : Parser (List Node)}

instance Agrees.chained (operator : String) [Agrees used size first second] :
    Agrees used size (Parser.chained stop operator first)
      (Parser.chained stop operator second) := by
  unfold Parser.chained
  set_option synthInstance.maxSize 2048 in
  infer_instance

instance Agrees.commaList [Agrees used size first second] :
    Agrees used size (Parser.commaList first) (Parser.commaList second) := by
  unfold Parser.commaList
  infer_instance

instance Agrees.growWithin (steps : Nat) {step step' : Node → Parser (Option Node)}
    [hstep : ∀ node, Agrees used size (step node) (step' node)] (node : Node) :
    Agrees used size (Syntax.growWithin steps step node)
      (Syntax.growWithin steps step' node) := by
  induction steps generalizing node with
  | zero => exact .pure _
  | succ steps ih =>
      unfold Syntax.growWithin
      refine @Agrees.bind _ _ _ _ _ _ _ _ (hstep node) fun larger => ?_
      cases larger with
      | none => exact .pure _
      | some larger => exact ih larger

instance Agrees.grow {step step' : Node → Parser (Option Node)}
    [∀ node, Agrees used size (step node) (step' node)] (node : Node) :
    Agrees used size (Syntax.grow step node) (Syntax.grow step' node) := by
  unfold Syntax.grow
  infer_instance

end Repetition

end EntityTables.Syntax
