import EntityTables.Call.Registry
import EntityTables.Proofs.Text.QualifiedName
import EntityTables.Proofs.Unit.Lookup

/-!
# Paths of declarations and of functions

Units look up declarations by paths, and registries look up virtual functions without receiver. Both
read a path by the same rules: from the crate, relative to a module, or as the end of a name, where
the module itself is preferred. Where they know the same names they select the same, with two
exceptions: a look-up in a unit takes only the first of several leading `self` and `super`, and it
takes the crate for its own parent.
-/

namespace EntityTables.Call

open EntityTables.Syntax EntityTables.Text

/-! ### Names in a crate -/

/-- Whether a name begins a path that is relative to a module. -/
def isRelative (name : String) : Bool := name == "self" || name == "super"

/-- A name that something may have: none of the words that begin a path. -/
structure IsOwnName (name : String) : Prop where
  isName : IsName name
  ne_crate : name ≠ "crate"
  notRelative : isRelative name = false

/-- A path of modules from the root of the crate. -/
def IsModulePath (module : String) : Prop :=
  ∃ names, (∀ name ∈ names, IsOwnName name) ∧ module = joinNames ("crate" :: names)

/-- A name in a container that is a path. -/
structure FunctionKey.IsQualified (key : FunctionKey) : Prop where
  container : ∃ front names, IsName front ∧ (∀ name ∈ names, IsOwnName name) ∧
    key.container = joinNames (front :: names)
  name : IsOwnName key.name

/-- The qualified name of a function. -/
def FunctionKey.place (key : FunctionKey) : Key := .within key.container key.name

section Place

variable {key : FunctionKey} {name : String} {qualifier : List String}

theorem colon_not_mem_name (hkey : key.IsQualified) : ':' ∉ key.name.toList := hkey.name.isName.2

theorem place_eq_within_iff (hkey : key.IsQualified) (hname : ':' ∉ name.toList)
    {container : String} :
    key.place = .within container name ↔ key.container = container ∧ key.name = name := by
  constructor
  · intro hplace
    exact nameWithin_inj (colon_not_mem_name hkey) hname (Key.mk.inj hplace)
  · rintro ⟨rfl, rfl⟩
    rfl

theorem nameParts_place (hkey : key.IsQualified) :
    ∃ front names, (∀ other ∈ names, IsOwnName other) ∧ nameParts key.container = front :: names ∧
      nameParts key.place.text = front :: names ++ [key.name] := by
  obtain ⟨front, names, hfront, hnames, hcontainer⟩ := hkey.container
  have hparts : ∀ other ∈ front :: names, IsName other := by
    intro other hmem
    rcases List.mem_cons.mp hmem with rfl | hmem
    · exact hfront
    · exact (hnames other hmem).isName
  refine ⟨front, names, hnames, ?_, ?_⟩
  · rw [hcontainer, nameParts_joinNames (List.cons_ne_nil _ _) hparts]
  · have hplace : key.place.text = joinNames (front :: names ++ [key.name]) := by
      rw [joinNames_concat (List.cons_ne_nil _ _), ← hcontainer]
      rfl
    rw [hplace, nameParts_joinNames (by simp)]
    intro other hmem
    rcases List.mem_append.mp hmem with hmem | hmem
    · exact hparts other hmem
    · exact List.mem_singleton.mp hmem ▸ hkey.name.isName

/-- A qualified name ends in a path if its name is the last one and its container ends in the
rest. -/
theorem endsIn_place (hkey : key.IsQualified) : key.place.endsIn (qualifier ++ [name]) =
    (key.name == name && endsInParts key.container qualifier) := by
  obtain ⟨front, names, -, hcontainer, hplace⟩ := nameParts_place hkey
  rw [Key.endsIn, endsInParts, endsInParts, hcontainer, hplace, Bool.eq_iff_iff,
    Bool.and_eq_true, List.isSuffixOf_iff_suffix, List.isSuffixOf_iff_suffix, beq_iff_eq,
    List.suffix_concat_iff]
  constructor
  · rintro (hnil | ⟨rest, hrest, hsuffix⟩)
    · simp at hnil
    · obtain ⟨rfl, hlast⟩ := List.append_inj' hrest rfl
      exact ⟨(List.singleton_inj.mp hlast).symm, hsuffix⟩
  · rintro ⟨rfl, hsuffix⟩
    exact Or.inr ⟨qualifier, rfl, hsuffix⟩

/-- No qualified name has one of the leading words behind its first name. -/
theorem place_ne_of_relative (hkey : key.IsQualified) {base rest : List String} {second : String}
    (hbase : base ≠ []) (hbaseNames : ∀ other ∈ base, IsName other)
    (hrestNames : ∀ other ∈ second :: rest, IsName other) (hsecond : isRelative second = true) :
    key.place ≠ .within (joinNames base) (joinNames (second :: rest)) := by
  intro hplace
  obtain ⟨front, names, hnames, -, hparts⟩ := nameParts_place hkey
  have hbaseParts : nameParts key.place.text = base ++ second :: rest := by
    rw [hplace, Key.within, ← joinNames_append hbase (List.cons_ne_nil _ _),
      nameParts_joinNames (by simp)]
    intro other hmem
    rcases List.mem_append.mp hmem with hmem | hmem
    · exact hbaseNames other hmem
    · exact hrestNames other hmem
  rw [hparts] at hbaseParts
  obtain ⟨first, others, rfl⟩ := List.exists_cons_of_ne_nil hbase
  have hmem : second ∈ names ++ [key.name] := by
    rw [List.cons_append, List.cons_append, List.cons.injEq] at hbaseParts
    rw [hbaseParts.2]
    simp
  have hown : IsOwnName second := by
    rcases List.mem_append.mp hmem with hmem | hmem
    · exact hnames second hmem
    · exact List.mem_singleton.mp hmem ▸ hkey.name
  rw [hown.notRelative] at hsecond
  cases hsecond

end Place

/-! ### Selections -/

/-- The functions that are called by a path. -/
def Registry.freeKeys (registry : Registry) : List FunctionKey :=
  Keyed.keys (registry.virtuals.filter fun entry => !entry.2.receiver)

/-- A unit and a registry know the same qualified names. -/
structure SameNames (unit : SourceUnit) (registry : Registry) (keys : List FunctionKey) :
    Prop where
  distinct : keys.Nodup
  qualified : ∀ key ∈ keys, key.IsQualified
  declared : (unit.declarations.map (·.key)).Perm (keys.map (·.place))
  registered : registry.freeKeys.Perm keys

/-- A look-up and a resolution select the same: one name, several, or none. -/
inductive Agree (registry : Registry) : Lookup Declaration → Resolution → Prop
  | found {declaration : Declaration} {key : FunctionKey} (hkey : declaration.key = key.place) :
      Agree registry (.found declaration) (registry.outcome [key])
  | ambiguous {candidates : List Declaration} {keys : List FunctionKey}
      (hseveral : 2 ≤ keys.length)
      (hkeys : (candidates.map (·.key)).Perm (keys.map (·.place))) :
      Agree registry (.ambiguous candidates) (.ambiguous keys)
  | missing : Agree registry .missing .notVirtual

section Selection

variable {unit : SourceUnit} {registry : Registry} {keys : List FunctionKey}
  {qualifier : List String} {name container module : String}

theorem outcome_of_several (registry : Registry) {chosen : List FunctionKey}
    (hseveral : 2 ≤ chosen.length) : registry.outcome chosen = .ambiguous chosen := by
  rcases chosen with _ | ⟨first, _ | ⟨second, others⟩⟩
  · simp at hseveral
  · simp at hseveral
  · rfl

/-- Of several candidates of one name, the preferred one is chosen if there is one. -/
theorem agree_several {candidates : List Declaration} {chosen : List FunctionKey}
    (hqualified : ∀ key ∈ chosen, key.IsQualified) (hnamed : ∀ key ∈ chosen, key.name = name)
    (hname : ':' ∉ name.toList) (hseveral : 2 ≤ chosen.length)
    (hkeys : (candidates.map (·.key)).Perm (chosen.map (·.place))) :
    Agree registry
      ((candidates.find? (·.key = Key.within container name)).elim (.ambiguous candidates) .found)
      (registry.outcome (Registry.preferContainer chosen container)) := by
  have hplaced : ∀ place, (∃ declaration ∈ candidates, declaration.key = place) ↔
      ∃ key ∈ chosen, key.place = place := fun place => by
    rw [← List.mem_map, ← List.mem_map, hkeys.mem_iff]
  unfold Registry.preferContainer
  cases hchosen : chosen.find? (·.container == container) with
  | some key =>
      have hmem := List.mem_of_find?_eq_some hchosen
      have hplace : key.place = .within container name :=
        (place_eq_within_iff (hqualified key hmem) hname).mpr
          ⟨by simpa using List.find?_some hchosen, hnamed key hmem⟩
      obtain ⟨declaration, hdeclaration, hkey⟩ := (hplaced _).mpr ⟨key, hmem, hplace⟩
      cases hfound : candidates.find? (·.key = Key.within container name) with
      | none => simpa [hkey] using List.find?_eq_none.mp hfound declaration hdeclaration
      | some found =>
          have hfoundKey : found.key = .within container name := by
            simpa using List.find?_some hfound
          exact .found (hfoundKey.trans hplace.symm)
  | none =>
      have hnone : candidates.find? (·.key = Key.within container name) = none := by
        rw [List.find?_eq_none]
        intro declaration hdeclaration hkey
        obtain ⟨key, hmem, hplace⟩ :=
          (hplaced _).mp ⟨declaration, hdeclaration, by simpa using hkey⟩
        have hcontainer := ((place_eq_within_iff (hqualified key hmem) hname).mp hplace).1
        simpa [hcontainer] using List.find?_eq_none.mp hchosen key hmem
      rw [hnone, Option.elim_none, outcome_of_several registry hseveral]
      exact .ambiguous hseveral hkeys

-- the names are compared behind the colon: a `match` on the candidates would take them in
/-- The choice among the candidates of one name: the only one, the preferred one, or none. -/
theorem agree_preferContainer {candidates : List Declaration} {chosen : List FunctionKey}
    (hqualified : ∀ key ∈ chosen, key.IsQualified) (hnamed : ∀ key ∈ chosen, key.name = name)
    (hname : ':' ∉ name.toList) :
    (candidates.map (·.key)).Perm (chosen.map (·.place)) → Agree registry
      (match candidates with
        | [] => .missing
        | [only] => .found only
        | candidates => (candidates.find? (·.key = Key.within container name)).elim
            (.ambiguous candidates) .found)
      (registry.outcome (Registry.preferContainer chosen container)) := by
  intro hkeys
  have hlength : candidates.length = chosen.length := by simpa using hkeys.length_eq
  rcases candidates with _ | ⟨only, _ | ⟨second, others⟩⟩
  · obtain rfl : chosen = [] := List.length_eq_zero_iff.mp hlength.symm
    exact .missing
  · obtain ⟨key, rfl⟩ := List.length_eq_one_iff.mp hlength.symm
    have hchosen : Registry.preferContainer [key] container = [key] := by
      unfold Registry.preferContainer
      split
      · next found hfound => rw [List.mem_singleton.mp (List.mem_of_find?_eq_some hfound)]
      · rfl
    rw [hchosen]
    exact .found (by simpa using hkeys)
  · exact agree_several hqualified hnamed hname (by simp [← hlength]) hkeys

theorem get?_eq_none_of_place (hsame : SameNames unit registry keys) {place : Key}
    (hplace : ∀ key ∈ keys, key.place ≠ place) : unit.get? place = none := by
  rw [SourceUnit.get?, List.find?_eq_none]
  intro declaration hmem hkey
  have hplaced : place ∈ keys.map (·.place) :=
    hsame.declared.mem_iff.mp (List.mem_map.mpr ⟨declaration, hmem, by simpa using hkey⟩)
  obtain ⟨key, hmem, hkey⟩ := List.mem_map.mp hplaced
  exact hplace key hmem hkey

/-- A name in a container is one declaration and one function, or none. -/
theorem agree_inContainer (hsame : SameNames unit registry keys) (hname : ':' ∉ name.toList) :
    Agree registry ((unit.get? (.within container name)).elim .missing .found)
      (registry.outcome
        (Registry.inContainer (registry.freeKeys.filter (·.name == name)) container)) := by
  have hfilter : Registry.inContainer (registry.freeKeys.filter (·.name == name)) container =
      registry.freeKeys.filter (· = ⟨container, name⟩) := by
    rw [Registry.inContainer, List.filter_filter]
    refine List.filter_congr fun key _ => ?_
    rw [Bool.eq_iff_iff]
    simp [← FunctionKey.mk.injEq]
  have hnodup : registry.freeKeys.Nodup := hsame.registered.nodup_iff.mpr hsame.distinct
  rw [hfilter, List.filter_eq, hnodup.count]
  by_cases hmem : (⟨container, name⟩ : FunctionKey) ∈ registry.freeKeys
  · rw [if_pos hmem]
    have hplaced : FunctionKey.place ⟨container, name⟩ ∈ unit.declarations.map (·.key) :=
      hsame.declared.mem_iff.mpr (List.mem_map_of_mem (hsame.registered.mem_iff.mp hmem))
    obtain ⟨declaration, hdeclaration, hkey⟩ := List.mem_map.mp hplaced
    change declaration.key = .within container name at hkey
    cases hget : unit.get? (.within container name) with
    | none => exact absurd hkey (by simpa using List.find?_eq_none.mp hget _ hdeclaration)
    | some found => exact .found (SourceUnit.key_of_get? hget)
  · have hget : unit.get? (.within container name) = none := by
      refine get?_eq_none_of_place hsame fun key hkey hplace => hmem ?_
      obtain ⟨rfl, rfl⟩ := (place_eq_within_iff (hsame.qualified key hkey) hname).mp hplace
      exact hsame.registered.mem_iff.mpr hkey
    rw [if_neg hmem, hget]
    exact .missing

/-- The declarations and the functions whose names end in a path are the same. -/
theorem candidates_perm (hsame : SameNames unit registry keys) (qualifier : List String)
    (name : String) :
    ((unit.declarations.filter (·.key.endsIn (qualifier ++ [name]))).map (·.key)).Perm
      (((registry.freeKeys.filter (·.name == name)).filter
        fun key => endsInParts key.container qualifier).map (·.place)) := by
  have hdeclared : (unit.declarations.filter (·.key.endsIn (qualifier ++ [name]))).map (·.key) =
      (unit.declarations.map (·.key)).filter (·.endsIn (qualifier ++ [name])) := by
    rw [List.filter_map]
    rfl
  have hkeys : (keys.map (·.place)).filter (·.endsIn (qualifier ++ [name])) =
      ((keys.filter (·.name == name)).filter
        fun key => endsInParts key.container qualifier).map (·.place) := by
    rw [List.filter_map, List.filter_filter]
    refine congrArg (List.map _) (List.filter_congr fun key hmem => ?_)
    rw [Function.comp_apply, endsIn_place (hsame.qualified key hmem), Bool.and_comm]
  rw [hdeclared]
  refine (hsame.declared.filter _).trans ?_
  rw [hkeys]
  exact (((hsame.registered.symm.filter _).filter _).map _)

theorem resolveNames_concat (registry : Registry) (qualifier : List String) (name module : String) :
    registry.resolveNames (qualifier ++ [name]) module = registry.outcome
      (Registry.chooseByQualifier (registry.freeKeys.filter (·.name == name)) qualifier module) := by
  have hkeys : registry.freeKeys.filter (·.name == name) =
      Keyed.keys (registry.virtuals.filter fun entry =>
        entry.1.name == name && !entry.2.receiver) := by
    rw [Registry.freeKeys, Keyed.keys, Keyed.keys, List.filter_map, List.filter_filter]
    rfl
  rw [Registry.resolveNames, List.getLast?_concat, List.dropLast_concat, hkeys]

/-- No function has a name that begins a path. -/
theorem filter_name_eq_nil (hsame : SameNames unit registry keys) (hname : ¬IsOwnName name) :
    registry.freeKeys.filter (·.name == name) = [] := by
  rw [List.filter_eq_nil_iff]
  intro key hmem hkey
  have hown := (hsame.qualified key (hsame.registered.mem_iff.mp hmem)).name
  exact hname (beq_iff_eq.mp hkey ▸ hown)

end Selection

/-! ### The rules for paths -/

/-- Whether a path begins with several `self` or `super`. -/
def beginsChain : List String → Bool
  | first :: second :: _ => isRelative first && isRelative second
  | _ => false

section Rules

variable {unit : SourceUnit} {registry : Registry} {keys : List FunctionKey}
  {first name module : String} {rest : List String}

theorem isRelative_iff : isRelative name = true ↔ name = "self" ∨ name = "super" := by
  rw [isRelative, Bool.or_eq_true, beq_iff_eq, beq_iff_eq]

theorem exactKey?_eq_none_iff : SourceUnit.exactKey? (first :: rest) module = none ↔
    first ≠ "crate" ∧ first ≠ "self" ∧ first ≠ "super" := by
  unfold SourceUnit.exactKey?
  split <;> simp_all

theorem relativeParts?_of_plain {base : List String}
    (hrest : ∀ second ∈ rest.head?, isRelative second = false) :
    Registry.relativeParts? base rest = some (base ++ rest) := by
  unfold Registry.relativeParts?
  split
  · simp [isRelative] at hrest
  · simp [isRelative] at hrest
  · rfl

theorem isName_of_modulePart {names : List String} (hnames : ∀ other ∈ names, IsOwnName other) :
    ∀ other ∈ "crate" :: names, IsName other := by
  intro other hmem
  rcases List.mem_cons.mp hmem with rfl | hmem
  · exact ⟨by decide, by decide⟩
  · exact (hnames other hmem).isName

/-- One `self` or `super` leads units and registries to the same module, except out of the
crate. -/
theorem exists_base (hmodule : IsModulePath module) (hfirst : isRelative first = true) :
    ∃ base, base ≠ [] ∧ (∀ other ∈ base, IsName other) ∧
      (∀ rest, SourceUnit.exactKey? (first :: rest) module =
        some (nameWithin (joinNames base) (joinNames rest))) ∧
      (¬(module = "crate" ∧ first = "super") → ∀ rest,
        Registry.relativeParts? (nameParts module) (first :: rest) =
          Registry.relativeParts? base rest) := by
  obtain ⟨names, hnames, rfl⟩ := hmodule
  have hparts : nameParts (joinNames ("crate" :: names)) = "crate" :: names :=
    nameParts_joinNames (List.cons_ne_nil _ _) (isName_of_modulePart hnames)
  rw [hparts]
  rcases isRelative_iff.mp hfirst with rfl | rfl
  · exact ⟨"crate" :: names, List.cons_ne_nil _ _, isName_of_modulePart hnames, fun _ => rfl,
      fun _ _ => rfl⟩
  · -- the module is the crate, or has a parent and a last name
    rcases List.eq_nil_or_concat names with rfl | ⟨front, last, rfl⟩
    · refine ⟨["crate"], List.cons_ne_nil _ _, isName_of_modulePart hnames, fun _ => rfl, ?_⟩
      exact fun hroot => absurd ⟨joinNames_singleton _, rfl⟩ hroot
    · have hfront : ∀ other ∈ front, IsOwnName other := fun other hmem => hnames other (by simp [hmem])
      have hlast : IsName last := (hnames last (by simp)).isName
      have hmodule : joinNames ("crate" :: front.concat last) =
          nameWithin (joinNames ("crate" :: front)) last := by
        rw [List.concat_eq_append, ← List.cons_append, joinNames_concat (List.cons_ne_nil _ _)]
      have hparent : SourceUnit.parentModule (joinNames ("crate" :: front.concat last)) =
          joinNames ("crate" :: front) := by
        rw [SourceUnit.parentModule, hmodule, splitLast?_nameWithin hlast.2]
        rfl
      refine ⟨"crate" :: front, List.cons_ne_nil _ _, isName_of_modulePart hfront, fun rest => ?_,
        fun _ rest => ?_⟩
      · rw [SourceUnit.exactKey?, hparent]
      · rw [Registry.relativeParts?, List.concat_eq_append, ← List.cons_append,
          List.dropLast_concat]
        rfl

/-- The container in which a path that is the end of a name is preferred. -/
theorem chooseByQualifier_of_suffix (keys : List FunctionKey) {qualifier : List String}
    (hexact : SourceUnit.exactKey? (qualifier ++ [name]) module = none) :
    ∃ container, Registry.chooseByQualifier keys qualifier module =
        Registry.preferContainer (keys.filter fun key => endsInParts key.container qualifier)
          container ∧
      Key.within module (joinNames (qualifier ++ [name])) = .within container name := by
  rcases qualifier with _ | ⟨first, rest⟩
  · refine ⟨module, ?_, by rw [List.nil_append, joinNames_singleton]⟩
    simp [Registry.chooseByQualifier, endsInParts, List.isSuffixOf]
  · refine ⟨nameWithin module (joinNames (first :: rest)), ?_, ?_⟩
    · obtain ⟨hcrate, hself, hsuper⟩ := exactKey?_eq_none_iff.mp hexact
      simp [Registry.chooseByQualifier, hcrate, hself, hsuper]
    · rw [joinNames_concat (List.cons_ne_nil _ _)]
      simp [Key.within, nameWithin, String.append_assoc]

theorem lookupNames_of_exactKey? {names : List String} {key : String} (hnames : names ≠ [])
    (hexact : SourceUnit.exactKey? names module = some key) :
    unit.lookupNames names module = (unit.get? ⟨key⟩).elim .missing .found := by
  rw [SourceUnit.lookupNames, if_neg (by simpa using hnames), hexact]

/-- A bare name that begins a path is nothing. -/
theorem agree_reserved (hsame : SameNames unit registry keys) (hmodule : IsModulePath module)
    (hreserved : name = "crate" ∨ isRelative name = true) :
    Agree registry (unit.lookupNames [name] module) (registry.resolveNames [name] module) := by
  have hown : ¬IsOwnName name := by
    rintro ⟨-, hcrate, hrelative⟩
    rcases hreserved with hname | hname
    · exact hcrate hname
    · rw [hname] at hrelative
      cases hrelative
  have hresolved : registry.resolveNames [name] module = .notVirtual := by
    rw [← List.nil_append [name], resolveNames_concat, filter_name_eq_nil hsame hown]
    rfl
  have hmissing : unit.lookupNames [name] module = .missing := by
    rcases hreserved with rfl | hname
    · rw [lookupNames_of_exactKey? (List.cons_ne_nil _ _) rfl, get?_eq_none_of_place hsame]
      · rfl
      · intro key hkey hplace
        obtain ⟨front, names, -, -, hparts⟩ := nameParts_place (hsame.qualified key hkey)
        rw [hplace, joinNames_singleton, nameParts_of_isName ⟨by decide, by decide⟩] at hparts
        simp at hparts
    · obtain ⟨base, -, -, hexact, -⟩ := exists_base hmodule hname
      rw [lookupNames_of_exactKey? (List.cons_ne_nil _ _) (hexact []), get?_eq_none_of_place hsame]
      · rfl
      · intro key hkey hplace
        have hname := (hsame.qualified key hkey).name
        have hempty := ((place_eq_within_iff (hsame.qualified key hkey) (by decide)).mp hplace).2
        exact hname.isName.1 hempty
  rw [hresolved, hmissing]
  exact .missing

/-- Names that are the end of a path. -/
theorem agree_suffix (hsame : SameNames unit registry keys) {qualifier : List String}
    (hname : IsName name) (hexact : SourceUnit.exactKey? (qualifier ++ [name]) module = none) :
    Agree registry (unit.lookupNames (qualifier ++ [name]) module)
      (registry.resolveNames (qualifier ++ [name]) module) := by
  obtain ⟨container, hchosen, hpreferred⟩ := chooseByQualifier_of_suffix
    (registry.freeKeys.filter (·.name == name)) hexact
  rw [resolveNames_concat, hchosen, SourceUnit.lookupNames, if_neg (by simp), hexact]
  simp only [hpreferred]
  refine agree_preferContainer (fun key hmem => ?_) (fun key hmem => ?_) hname.2
    (candidates_perm hsame qualifier name)
  · have hmem := (List.mem_filter.mp (List.mem_filter.mp hmem).1).1
    exact hsame.qualified key (hsame.registered.mem_iff.mp hmem)
  · exact beq_iff_eq.mp (List.mem_filter.mp (List.mem_filter.mp hmem).1).2

/-- A path that fixes the same container for both. -/
theorem agree_exact (hsame : SameNames unit registry keys) {qualifier : List String}
    (container : String) (hname : IsName name)
    (hexact : SourceUnit.exactKey? (qualifier ++ [name]) module = some (nameWithin container name))
    (hchosen : Registry.chooseByQualifier (registry.freeKeys.filter (·.name == name)) qualifier
      module = Registry.inContainer (registry.freeKeys.filter (·.name == name)) container) :
    Agree registry (unit.lookupNames (qualifier ++ [name]) module)
      (registry.resolveNames (qualifier ++ [name]) module) := by
  rw [lookupNames_of_exactKey? (by simp) hexact, resolveNames_concat, hchosen]
  exact agree_inContainer hsame hname.2

/-- A path with one leading `self` or `super`, within the crate. -/
theorem agree_relative (hsame : SameNames unit registry keys) (hmodule : IsModulePath module)
    (hname : IsName name) (hfirst : isRelative first = true)
    (hchain : beginsChain (first :: rest ++ [name]) = false)
    (hroot : ¬(module = "crate" ∧ first = "super")) :
    Agree registry (unit.lookupNames (first :: rest ++ [name]) module)
      (registry.resolveNames (first :: rest ++ [name]) module) := by
  obtain ⟨base, hbase, -, hexact, hparts⟩ := exists_base hmodule hfirst
  have hrest : ∀ second ∈ rest.head?, isRelative second = false := by
    rcases rest with _ | ⟨second, others⟩
    · simp
    · simpa [beginsChain, hfirst] using hchain
  have hrelative : Registry.relativeParts? (nameParts module) (first :: rest) =
      some (base ++ rest) := by
    rw [hparts hroot, relativeParts?_of_plain hrest]
  refine agree_exact hsame (joinNames (base ++ rest)) hname ?_ ?_
  · rw [List.cons_append, hexact, ← joinNames_append hbase (by simp), ← List.append_assoc,
      joinNames_concat (by simp [hbase])]
  · rcases isRelative_iff.mp hfirst with rfl | rfl
    · rw [Registry.chooseByQualifier, hrelative]
    · rw [Registry.chooseByQualifier, hrelative]

/-- Behind a leading `self` or `super` a unit takes every word for a name. -/
theorem lookupNames_chain (hsame : SameNames unit registry keys) (hmodule : IsModulePath module)
    {names : List String} (hnames : ∀ other ∈ names, IsName other)
    (hchain : beginsChain names = true) : unit.lookupNames names module = .missing := by
  rcases names with _ | ⟨first, _ | ⟨second, rest⟩⟩
  · cases hchain
  · cases hchain
  · obtain ⟨hfirst, hsecond⟩ := Bool.and_eq_true_iff.mp hchain
    obtain ⟨base, hbase, hbaseNames, hexact, -⟩ := exists_base hmodule hfirst
    rw [lookupNames_of_exactKey? (List.cons_ne_nil _ _) (hexact _), get?_eq_none_of_place hsame]
    · rfl
    · intro key hkey
      refine place_ne_of_relative (hsame.qualified key hkey) hbase hbaseNames (fun other hmem => ?_)
        hsecond
      exact hnames other (List.mem_cons_of_mem _ hmem)

/-- Out of the crate, a unit stays in it and a registry finds nothing. -/
theorem names_above_crate (hsame : SameNames unit registry keys) (rest : List String) :
    unit.lookupNames ("super" :: rest) "crate" = unit.lookupNames ("self" :: rest) "crate" ∧
      registry.resolveNames ("super" :: rest) "crate" = .notVirtual := by
  refine ⟨rfl, ?_⟩
  rcases List.eq_nil_or_concat rest with rfl | ⟨qualifier, name, rfl⟩
  · have hown : ¬IsOwnName "super" := fun hown => absurd hown.notRelative (by decide)
    rw [← List.nil_append ["super"], resolveNames_concat, filter_name_eq_nil hsame hown]
    rfl
  · have hparts : nameParts "crate" = ["crate"] := nameParts_of_isName ⟨by decide, by decide⟩
    rw [List.concat_eq_append, ← List.cons_append, resolveNames_concat,
      Registry.chooseByQualifier, hparts]
    rfl

end Rules

/-- Units and registries that know the same names select the same by a path. By a path that begins
with several `self` or `super`, a unit finds nothing. By one that begins with `super` in the crate,
a registry finds nothing, and a unit what it finds from the crate itself. -/
theorem lookup_agree_resolveFunction {unit : SourceUnit} {registry : Registry}
    {keys : List FunctionKey} {module : String} {path : Node}
    (hsame : SameNames unit registry keys) (hmodule : IsModulePath module)
    (hpath : path.pathNames ≠ []) (hnames : ∀ name ∈ path.pathNames, IsName name) :
    (beginsChain path.pathNames = false →
        ¬(module = "crate" ∧ path.pathNames.head? = some "super") →
        Agree registry (unit.lookup path module) (registry.resolveFunction path module)) ∧
      (beginsChain path.pathNames = true → unit.lookup path module = .missing) ∧
      (module = "crate" → ∀ rest, path.pathNames = "super" :: rest →
        unit.lookup path module = unit.lookupNames ("self" :: rest) module ∧
          registry.resolveFunction path module = .notVirtual) := by
  rw [SourceUnit.lookup, Registry.resolveFunction]
  generalize path.pathNames = names at *
  refine ⟨fun hchain hroot => ?_, lookupNames_chain hsame hmodule hnames, ?_⟩
  · -- registries split the path at its last name, units at its first
    obtain ⟨qualifier, name, rfl⟩ : ∃ qualifier name, names = qualifier ++ [name] :=
      (List.eq_nil_or_concat' names).resolve_left hpath
    have hname : IsName name := hnames name (by simp)
    by_cases hplain : SourceUnit.exactKey? (qualifier ++ [name]) module = none
    · exact agree_suffix hsame hname hplain
    · rcases qualifier with _ | ⟨first, rest⟩
      · rw [List.nil_append, exactKey?_eq_none_iff, ← not_or, ← isRelative_iff] at hplain
        exact agree_reserved hsame hmodule (by tauto)
      · rw [List.cons_append, exactKey?_eq_none_iff, ← not_or, ← isRelative_iff] at hplain
        by_cases hcrate : first = "crate"
        · subst hcrate
          refine agree_exact hsame (joinNames ("crate" :: rest)) hname ?_ rfl
          rw [← joinNames_concat (List.cons_ne_nil _ _)]
          rfl
        · exact agree_relative hsame hmodule hname (by tauto) hchain (by simpa using hroot)
  · rintro rfl rest rfl
    exact names_above_crate hsame rest

section Instance

/-- The unit that has a declaration for each name. -/
def unitOf (keys : List FunctionKey) : SourceUnit :=
  { SourceUnit.empty with
    declarations := keys.map fun key => ⟨key.place, key.name, none, .struct true []⟩
    index := _
    index_eq := rfl }

/-- The registry that has a function for each name. -/
def registryOf (keys : List FunctionKey) : Registry :=
  keys.foldl (fun registry key =>
    registry.insertVirtual ⟨key.name, key.container, false, [], .empty .returnType⟩) Registry.empty

def namesPath (names : List String) : Node := pathOf (names.map segmentOf)

theorem isOwnName_hr : IsOwnName "hr" := ⟨⟨by decide, by decide⟩, by decide, by decide⟩

theorem isOwnName_top : IsOwnName "Top" := ⟨⟨by decide, by decide⟩, by decide, by decide⟩

theorem sameNames_top : SameNames (unitOf [⟨"crate::hr", "Top"⟩, ⟨"crate", "Top"⟩])
    (registryOf [⟨"crate::hr", "Top"⟩, ⟨"crate", "Top"⟩])
    [⟨"crate::hr", "Top"⟩, ⟨"crate", "Top"⟩] where
  distinct := by decide
  qualified := by
    intro key hmem
    rcases List.mem_pair.mp hmem with rfl | rfl
    · exact ⟨⟨"crate", ["hr"], ⟨by decide, by decide⟩, by simpa using isOwnName_hr, rfl⟩,
        isOwnName_top⟩
    · exact ⟨⟨"crate", [], ⟨by decide, by decide⟩, by simp, rfl⟩, isOwnName_top⟩
  declared := .refl _
  registered := .swap _ _ _

theorem isModulePath_hr : IsModulePath "crate::hr" := ⟨["hr"], by simpa using isOwnName_hr, rfl⟩

/-- Of two with one name, `Top` is the one in the module and `super::Top` the one in its parent. -/
theorem lookup_agree_resolveFunction_top :
    let keys : List FunctionKey := [⟨"crate::hr", "Top"⟩, ⟨"crate", "Top"⟩]
    SameNames (unitOf keys) (registryOf keys) keys ∧ IsModulePath "crate::hr" ∧
      Agree (registryOf keys) ((unitOf keys).lookup (namesPath ["Top"]) "crate::hr")
        ((registryOf keys).resolveFunction (namesPath ["Top"]) "crate::hr") ∧
      Agree (registryOf keys) ((unitOf keys).lookup (namesPath ["super", "Top"]) "crate::hr")
        ((registryOf keys).resolveFunction (namesPath ["super", "Top"]) "crate::hr") := by
  refine ⟨sameNames_top, isModulePath_hr, ?_, ?_⟩
  · refine (lookup_agree_resolveFunction sameNames_top isModulePath_hr ?_ ?_).1 rfl ?_
    · decide
    · intro name hmem
      obtain rfl := List.mem_singleton.mp hmem
      exact isOwnName_top.isName
    · decide
  · refine (lookup_agree_resolveFunction sameNames_top isModulePath_hr ?_ ?_).1 rfl ?_
    · decide
    · intro name hmem
      rcases List.mem_pair.mp hmem with rfl | rfl
      · exact ⟨by decide, by decide⟩
      · exact isOwnName_top.isName
    · decide

/-- By `super::super::Top` a registry leaves two modules and a unit only one, and by `super::Top` in
the crate a unit stays there. -/
theorem lookup_differs_above :
    let keys : List FunctionKey := [⟨"crate::hr", "Top"⟩, ⟨"crate", "Top"⟩]
    SameNames (unitOf keys) (registryOf keys) keys ∧
      ¬Agree (registryOf keys)
        ((unitOf keys).lookup (namesPath ["super", "super", "Top"]) "crate::hr::staff")
        ((registryOf keys).resolveFunction (namesPath ["super", "super", "Top"])
          "crate::hr::staff") ∧
      ¬Agree (registryOf keys) ((unitOf keys).lookup (namesPath ["super", "Top"]) "crate")
        ((registryOf keys).resolveFunction (namesPath ["super", "Top"]) "crate") := by
  intro keys
  have hmissing : (unitOf keys).lookup (namesPath ["super", "super", "Top"]) "crate::hr::staff" =
      .missing := rfl
  have hresolved : (registryOf keys).resolveFunction (namesPath ["super", "super", "Top"])
      "crate::hr::staff" = .unpaired ⟨"crate", "Top"⟩ := rfl
  have hfound : (unitOf keys).lookup (namesPath ["super", "Top"]) "crate" =
      .found ⟨⟨"crate::Top"⟩, "Top", none, .struct true []⟩ := rfl
  have hnothing : (registryOf keys).resolveFunction (namesPath ["super", "Top"]) "crate" =
      .notVirtual := rfl
  refine ⟨sameNames_top, ?_, ?_⟩
  · rw [hmissing, hresolved]
    rintro ⟨⟩
  · rw [hfound, hnothing]
    intro hagree
    cases hagree

end Instance

end EntityTables.Call
