import EntityTables.Proofs.Schema.Failure
import EntityTables.Proofs.Schema.History
import Mathlib.Data.List.Chain
import Mathlib.Data.List.TakeWhile

/-!
# Cycles of references

Resolution finds the cycles of the reference graph. A table that was resolved leads to no cycle, for
everything it leads to was rebuilt on top of it. An error that reports a cycle names the declarations
of one: the stack is a walk along references, and it is cut at the declaration that was met again.
-/

namespace EntityTables.Schema

open Relation
open SourceUnit (key_of_get?)

variable {resolver : Resolver} {stack : List Declaration} {key : Key}

/-! ### A resolved table leads to no cycle -/

theorem not_transGen_of_rebuild_ok {table : Table} {reached : Key}
    (hok : rebuild resolver stack key = .ok table)
    (hreaches : ReflTransGen (ColumnRefersTo resolver.unit) key reached) :
    ¬ TransGen (ColumnRefersTo resolver.unit) reached reached := by
  intro hcycle
  obtain ⟨next, hrefers, hback⟩ := TransGen.head'_iff.mp hcycle
  obtain ⟨deeper, table, -, htable⟩ := exists_rebuild_of_reaches hok hreaches
  obtain ⟨declaration, nextTable, hfound, hnext⟩ := exists_target_of_rebuild_ok htable hrefers
  have hfresh := not_mem_of_reaches hnext hback
  rw [List.map_cons, key_of_get? hfound] at hfresh
  exact hfresh List.mem_cons_self

/-! ### Only resolution reports cycles -/

theorem entityKind_ne_circular {owner : Declaration} (path : List String) :
    entityKind owner ≠ .error (.circularReference path) := by
  unfold entityKind
  split <;> simp

theorem checkMarkers_ne_circular {owner : Declaration} {property : Property} (path : List String) :
    checkMarkers owner property ≠ .error (.circularReference path) := by
  unfold checkMarkers
  split
  · simp
  · split <;> simp

/-- A report of a cycle comes from the target of a column. -/
theorem exists_target_of_buildTable_circular {owner : Declaration}
    {resolve : Key → Except Error Table} {path : List String}
    (howner : resolver.unit.get? key = some owner)
    (herror : buildTable resolver resolve owner = .error (.circularReference path)) :
    ∃ target, ColumnRefersTo resolver.unit key target ∧
      resolve target = .error (.circularReference path) := by
  rcases buildTable_eq_error_cases howner herror with
    hcolumn | hkind | ⟨property, -, -, hmarkers⟩ | htarget
  · cases hcolumn
  · exact absurd hkind (entityKind_ne_circular path)
  · exact absurd hmarkers (checkMarkers_ne_circular path)
  · exact htarget

/-! ### The stack is a walk along references -/

/-- The stack leads from a first key along references to the key that is asked for. -/
structure Walk (unit : SourceUnit) (start : Key) (stack : List Declaration) (key : Key) : Prop where
  declared : ∀ declaration ∈ stack, unit.get? declaration.key = some declaration
  distinct : (stack.map (·.key)).Nodup
  reaches : ∀ step ∈ (stack.reverse.map (·.key)) ++ [key],
    ReflTransGen (ColumnRefersTo unit) start step
  linked : List.IsChain (ColumnRefersTo unit) ((stack.reverse.map (·.key)) ++ [key])

theorem Walk.nil (unit : SourceUnit) (start : Key) : Walk unit start [] start where
  declared := nofun
  distinct := List.nodup_nil
  reaches step hmem := by
    rw [List.mem_singleton.mp hmem]
  linked := List.isChain_singleton _

theorem Walk.cons {unit : SourceUnit} {start target : Key} {declaration : Declaration}
    (hwalk : Walk unit start stack key) (hfresh : key ∉ stack.map (·.key))
    (hfound : unit.get? key = some declaration) (hrefers : ColumnRefersTo unit key target) :
    Walk unit start (declaration :: stack) target := by
  obtain rfl := key_of_get? hfound
  have hextend : (declaration :: stack).reverse.map (·.key) ++ [target] =
      (stack.reverse.map (·.key) ++ [declaration.key]) ++ [target] := by simp
  constructor
  · intro other hmem
    rcases List.mem_cons.mp hmem with rfl | hmem
    · exact hfound
    · exact hwalk.declared other hmem
  · exact List.nodup_cons.mpr ⟨hfresh, hwalk.distinct⟩
  · intro step hmem
    rw [hextend, List.mem_append, List.mem_singleton] at hmem
    rcases hmem with hmem | rfl
    · exact hwalk.reaches step hmem
    · exact (hwalk.reaches _ (by simp)).tail hrefers
  · rw [hextend, List.append_assoc, List.singleton_append]
    exact List.isChain_append_cons_cons.mpr ⟨hwalk.linked, hrefers, List.isChain_singleton _⟩

/-- Declarations of which each refers to the next, and the last to the first. -/
structure IsCycle (unit : SourceUnit) (first : Declaration) (rest : List Declaration) : Prop where
  declared : ∀ declaration ∈ first :: rest, unit.get? declaration.key = some declaration
  distinct : ((first :: rest).map (·.key)).Nodup
  linked : List.IsChain (ColumnRefersTo unit) ((first :: rest).map (·.key) ++ [first.key])

/-- A walk that comes back to a declaration on the stack closes the cycle that is reported. -/
theorem Walk.exists_cycle {unit : SourceUnit} {start : Key} (hwalk : Walk unit start stack key)
    (hmem : key ∈ stack.map (·.key)) :
    ∃ first rest, IsCycle unit first rest ∧
      cycleFrom key stack = (first :: rest).map (·.name) ∧
      ReflTransGen (ColumnRefersTo unit) start first.key := by
  have hsuffix := List.dropWhile_suffix (l := stack.reverse) fun d => decide (d.key ≠ key)
  have hhead := List.head?_dropWhile_not (fun d : Declaration => decide (d.key ≠ key)) stack.reverse
  unfold cycleFrom
  cases hcut : stack.reverse.dropWhile fun d => decide (d.key ≠ key) with
  | nil =>
      obtain ⟨declaration, hdeclaration, hkey⟩ := List.mem_map.mp hmem
      rw [List.dropWhile_eq_nil_iff] at hcut
      have hother := hcut declaration (by simpa using hdeclaration)
      simp [hkey] at hother
  | cons first rest =>
      rw [hcut] at hsuffix hhead
      have hkey : first.key = key := by simpa using hhead
      have hkeys : (first :: rest).map (·.key) <:+ stack.reverse.map (·.key) := hsuffix.map _
      refine ⟨first, rest, ⟨?_, ?_, ?_⟩, rfl, ?_⟩
      · intro declaration hdeclaration
        exact hwalk.declared declaration (by simpa using hsuffix.subset hdeclaration)
      · have hall : (stack.reverse.map (·.key)).Nodup := by
          rw [List.map_reverse]
          exact (List.reverse_perm _).nodup_iff.mpr hwalk.distinct
        exact hall.sublist hkeys.sublist
      · obtain ⟨front, hfront⟩ := hkeys
        rw [hkey]
        refine hwalk.linked.suffix ⟨front, ?_⟩
        rw [← hfront, List.append_assoc]
      · exact hwalk.reaches _ (by simp [hkey])

theorem exists_cycle_of_rebuild_circular {path : List String} {start : Key}
    (hwalk : Walk resolver.unit start stack key)
    (herror : rebuild resolver stack key = .error (.circularReference path)) :
    ∃ first rest, IsCycle resolver.unit first rest ∧ path = (first :: rest).map (·.name) ∧
      ReflTransGen (ColumnRefersTo resolver.unit) start first.key := by
  induction stack, key using rebuild.induct resolver with
  | case1 stack key hmem =>
      rw [rebuild_of_mem hmem, Except.error.injEq, Error.circularReference.injEq] at herror
      rw [← herror]
      exact hwalk.exists_cycle hmem
  | case2 stack key hmem hnone => simp [rebuild_of_get?_eq_none hmem hnone] at herror
  | case3 stack key hmem declaration hfound ih =>
      rw [rebuild_of_get?_eq_some hmem hfound] at herror
      obtain ⟨target, hrefers, htarget⟩ := exists_target_of_buildTable_circular hfound herror
      exact ih target (hwalk.cons hmem hfound hrefers) htarget

/-! ### What a fresh resolver says about cycles -/

/-- **Cycles.** If a fresh resolver gives a table, the columns of tables lead from it to no cycle; if
it reports a cycle, the names are those of a cycle that they lead to. A reference is a column unless
another property of the same declaration has its name. -/
theorem resolveTable_decides_cycles (resolver : Resolver) (key : Key) :
    (∀ table, ((resolveTable resolver key).run .empty).1 = .ok table →
      ∀ reached, ReflTransGen (ColumnRefersTo resolver.unit) key reached →
        ¬ TransGen (ColumnRefersTo resolver.unit) reached reached) ∧
    (∀ path, ((resolveTable resolver key).run .empty).1 = .error (.circularReference path) →
      ∃ first rest, IsCycle resolver.unit first rest ∧ path = (first :: rest).map (·.name) ∧
        ReflTransGen (ColumnRefersTo resolver.unit) key first.key) ∧
    (∀ source target, ColumnRefersTo resolver.unit source target →
      RefersTo resolver.unit source target) ∧
    (DistinctNames resolver.unit → ∀ source target, RefersTo resolver.unit source target →
      ColumnRefersTo resolver.unit source target) := by
  rw [resolveTable_empty]
  refine ⟨fun table hok reached => not_transGen_of_rebuild_ok hok, fun path herror => ?_,
    fun _ _ hrefers => hrefers.refersTo, fun hnames _ _ hrefers => hrefers.columnRefersTo hnames⟩
  exact exists_cycle_of_rebuild_circular (.nil resolver.unit key) herror

section Instances

/-- A trait with a key and references to other traits. -/
def traitTable (name : String) (references : List (String × String)) : Declaration where
  key := .within "crate" name
  name := name
  table := some ⟨none, none, none, none, none, none, []⟩
  shape := .interface true <|
    ⟨"id", Syntax.namedType "i32", none, true, none, false, true⟩ ::
      references.map fun (property, target) =>
        ⟨property, Syntax.namedType target, none, false, some ⟨none, none⟩, false, true⟩

/-- Sales lead to the staff and its teams, which refer to each other; cities lead nowhere. -/
def staffUnit : SourceUnit where
  declarations := [traitTable "City" [], traitTable "Sale" [("by", "Staff")],
    traitTable "Staff" [("team", "Team")], traitTable "Team" [("head", "Staff")]]
  constructors := []
  sqlTypeImpls := []
  config := none

theorem exists_of_isOk {α ε : Type} {result : Except ε α} (hok : result.isOk) :
    ∃ a, result = .ok a := by
  cases result with
  | ok a => exact ⟨a, rfl⟩
  | error error => cases hok

/-- Whether a cycle of the given names is reported. -/
def reportsCycle (path : List String) : Except Error Table → Bool
  | .error (.circularReference names) => names == path
  | _ => false

theorem eq_error_of_reportsCycle {path : List String} {result : Except Error Table}
    (hreports : reportsCycle path result = true) :
    result = .error (.circularReference path) := by
  unfold reportsCycle at hreports
  split at hreports
  · rw [eq_of_beq hreports]
  · cases hreports

theorem staff_resolveTable_city :
    ∃ table, ((resolveTable (literalResolver staffUnit) ⟨"crate::City"⟩).run .empty).1 =
      .ok table := by
  rw [resolveTable_empty]
  exact exists_of_isOk (by decide +kernel)

theorem staff_resolveTable_sale :
    ((resolveTable (literalResolver staffUnit) ⟨"crate::Sale"⟩).run .empty).1 =
      .error (.circularReference ["Staff", "Team"]) := by
  rw [resolveTable_empty]
  exact eq_error_of_reportsCycle (by decide +kernel)

theorem staff_distinctNames : DistinctNames staffUnit := by
  unfold DistinctNames
  decide

theorem resolveTable_decides_cycles_staff :
    (∃ table,
      ((resolveTable (literalResolver staffUnit) ⟨"crate::City"⟩).run .empty).1 = .ok table ∧
      ¬ TransGen (ColumnRefersTo staffUnit) ⟨"crate::City"⟩ ⟨"crate::City"⟩) ∧
    (((resolveTable (literalResolver staffUnit) ⟨"crate::Sale"⟩).run .empty).1 =
        .error (.circularReference ["Staff", "Team"]) ∧
      ∃ first rest, IsCycle staffUnit first rest ∧
        ["Staff", "Team"] = (first :: rest).map (·.name) ∧
        ReflTransGen (ColumnRefersTo staffUnit) ⟨"crate::Sale"⟩ first.key) ∧
    DistinctNames staffUnit ∧
    ∀ source target, RefersTo staffUnit source target → ColumnRefersTo staffUnit source target := by
  obtain ⟨table, htable⟩ := staff_resolveTable_city
  have hcity := resolveTable_decides_cycles (literalResolver staffUnit) ⟨"crate::City"⟩
  have hsale := resolveTable_decides_cycles (literalResolver staffUnit) ⟨"crate::Sale"⟩
  exact ⟨⟨table, htable, hcity.1 table htable _ .refl⟩,
    ⟨staff_resolveTable_sale, hsale.2.1 _ staff_resolveTable_sale⟩,
    staff_distinctNames, hsale.2.2.2 staff_distinctNames⟩

/-- A trait that declares the same getter twice, where only the second leads back to the trait, and a
constructor that lists it. -/
def repeatedUnit : SourceUnit where
  declarations := [traitTable "Leaf" [], traitTable "Tree" [("parent", "Leaf"), ("parent", "Tree")]]
  constructors := [⟨"crate", Syntax.pathOf [Syntax.segmentOf "Tree"], ["parent"]⟩]
  sqlTypeImpls := []
  config := none

/-- An eligible reference that is no column may close a cycle. -/
theorem resolveTable_ok_on_repeated_name :
    ¬ ∀ table, ((resolveTable (literalResolver repeatedUnit) ⟨"crate::Tree"⟩).run .empty).1 =
        .ok table →
      ∀ reached, ReflTransGen (RefersTo repeatedUnit) ⟨"crate::Tree"⟩ reached →
        ¬ TransGen (RefersTo repeatedUnit) reached reached := by
  intro hclaim
  obtain ⟨table, htable⟩ : ∃ table,
      ((resolveTable (literalResolver repeatedUnit) ⟨"crate::Tree"⟩).run .empty).1 = .ok table := by
    rw [resolveTable_empty]
    exact exists_of_isOk (by decide +kernel)
  have hself : RefersTo repeatedUnit ⟨"crate::Tree"⟩ ⟨"crate::Tree"⟩ :=
    ⟨traitTable "Tree" [("parent", "Leaf"), ("parent", "Tree")], rfl,
      ⟨"parent", Syntax.namedType "Tree", none, false, some ⟨none, none⟩, false, true⟩,
      by simp [eligibleProperties, traitTable, Declaration.properties, Property.isIgnored], rfl,
      traitTable "Tree" [("parent", "Leaf"), ("parent", "Tree")], rfl, rfl⟩
  exact hclaim table htable _ .refl (.single hself)

end Instances

end EntityTables.Schema
