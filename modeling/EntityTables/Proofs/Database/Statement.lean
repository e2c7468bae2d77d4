import EntityTables.Database.Table
import EntityTables.Text.CharClass
import Mathlib.Data.List.Forall2
import Mathlib.Data.List.Nodup

/-!
# What a statement tells about its table

The statement that creates a table tells its columns, with one exception. A column that is the whole
primary key is declared as the key, so the statement does not say whether it may be missing.

A definition is read word by word, which needs names and types without blanks, and the lines are
apart because no word has a line end. The line of a compound key cannot be taken for a definition:
its third word opens a bracket.
-/

namespace EntityTables.Database

open EntityTables.Text

/-! ### Texts that are joined -/

section Joined

variable {mark : Char}

theorem append_mark_inj {first second rest other : List Char} (hfirst : mark ∉ first)
    (hsecond : mark ∉ second) (hsame : first ++ mark :: rest = second ++ mark :: other) :
    first = second ∧ rest = other := by
  have hsplit := congrArg (List.splitOn mark) hsame
  rw [List.splitOn_append_cons_self_of_not_mem hfirst,
    List.splitOn_append_cons_self_of_not_mem hsecond] at hsplit
  obtain rfl := (List.cons.inj hsplit).1
  exact ⟨rfl, by simpa using hsame⟩

theorem append_blank_inj {first second rest other : String} (hfirst : ' ' ∉ first.toList)
    (hsecond : ' ' ∉ second.toList) (hsame : first ++ " " ++ rest = second ++ " " ++ other) :
    first = second ∧ rest = other := by
  have hlists := congrArg String.toList hsame
  simp only [String.toList_append, List.append_assoc] at hlists
  obtain ⟨hhead, htail⟩ := append_mark_inj hfirst hsecond hlists
  exact ⟨String.toList_inj.mp hhead, String.toList_inj.mp htail⟩

/-- A separator with a character that no part has lets the parts be told apart. -/
theorem intercalate_inj {front back : List Char} (hfront : mark ∉ front)
    {parts others : List (List Char)} (hparts : ∀ part ∈ parts, mark ∉ part)
    (hothers : ∀ part ∈ others, mark ∉ part) (hne : parts ≠ []) (hotherNe : others ≠ [])
    (hsame : (front ++ mark :: back).intercalate parts =
      (front ++ mark :: back).intercalate others) : parts = others := by
  induction parts generalizing others with
  | nil => exact absurd rfl hne
  | cons part parts ih =>
      cases others with
      | nil => exact absurd rfl hotherNe
      | cons other others =>
          have hpart := hparts part List.mem_cons_self
          have hother := hothers other List.mem_cons_self
          cases parts with
          | nil =>
              cases others with
              | nil => simpa using hsame
              | cons next others =>
                  rw [List.intercalate_singleton] at hsame
                  simp [hsame] at hpart
          | cons next parts =>
              cases others with
              | nil =>
                  rw [List.intercalate_singleton] at hsame
                  simp [← hsame] at hother
              | cons following others =>
                  have hcut : (part ++ front) ++ mark :: (back ++
                        (front ++ mark :: back).intercalate (next :: parts)) =
                      (other ++ front) ++ mark :: (back ++
                        (front ++ mark :: back).intercalate (following :: others)) := by
                    simpa [List.intercalate_cons_cons] using hsame
                  obtain ⟨hhead, htail⟩ := append_mark_inj (by simp [hpart, hfront])
                    (by simp [hother, hfront]) hcut
                  rw [ih (fun text hmem => hparts text (List.mem_cons_of_mem _ hmem))
                      (fun text hmem => hothers text (List.mem_cons_of_mem _ hmem))
                      (List.cons_ne_nil _ _) (List.cons_ne_nil _ _) (List.append_cancel_left htail),
                    List.append_cancel_right hhead]

theorem eq_of_intercalate_eq {separator : String} (mark : Char) (front back : List Char)
    (hseparator : separator.toList = front ++ mark :: back) (hfront : mark ∉ front)
    {parts others : List String} (hparts : ∀ part ∈ parts, mark ∉ part.toList)
    (hothers : ∀ part ∈ others, mark ∉ part.toList) (hne : parts ≠ []) (hotherNe : others ≠ [])
    (hsame : separator.intercalate parts = separator.intercalate others) : parts = others := by
  have hlists := congrArg String.toList hsame
  rw [String.toList_intercalate, String.toList_intercalate, hseparator] at hlists
  have hmapped := intercalate_inj hfront (by simpa using hparts) (by simpa using hothers)
    (by simpa using hne) (by simpa using hotherNe) hlists
  exact List.map_injective_iff.mpr (fun _ _ => String.toList_inj.mp) hmapped

theorem exists_intercalate_cons (separator part : String) (rest : List String) :
    ∃ text, separator.intercalate (part :: rest) = part ++ text := by
  cases rest with
  | nil => exact ⟨"", by simp⟩
  | cons next rest => exact ⟨_, by rw [String.intercalate_cons_cons, String.append_assoc]⟩

theorem not_mem_intercalate {separator : String} {parts : List String}
    (hseparator : mark ∉ separator.toList) (hparts : ∀ part ∈ parts, mark ∉ part.toList) :
    mark ∉ (separator.intercalate parts).toList := by
  induction parts with
  | nil => simp
  | cons part rest ih =>
      have hrest := ih fun text hmem => hparts text (List.mem_cons_of_mem _ hmem)
      have hpart := hparts part List.mem_cons_self
      cases rest with
      | nil => simpa using hpart
      | cons next rest =>
          rw [String.intercalate_cons_cons]
          simp only [String.toList_append, List.mem_append, not_or]
          exact ⟨⟨hpart, hseparator⟩, hrest⟩

end Joined

/-! ### Names and types that a statement can be read back from -/

/-- A text that stands for one word of a statement. -/
def IsWord (text : String) : Prop := text ≠ "" ∧ ∀ c ∈ text.toList, isSpace c = false

-- An instance that was found here could go through all characters there are.
instance (text : String) : Decidable (IsWord text) :=
  decidable_of_iff (text ≠ "" ∧ text.toList.all fun c => !isSpace c) (by simp [IsWord])

/-- A word that is a name, without the marks that a statement puts around names. -/
def IsPlain (text : String) : Prop :=
  IsWord text ∧ ∀ c ∈ text.toList, c ≠ ',' ∧ c ≠ '(' ∧ c ≠ ')'

instance (text : String) : Decidable (IsPlain text) :=
  decidable_of_iff (IsWord text ∧ text.toList.all fun c => c != ',' && (c != '(' && c != ')'))
    (by simp [IsPlain])

structure ColumnInfo.Legible (column : ColumnInfo) : Prop where
  name : IsPlain column.name
  sqlType : IsWord column.sqlType
  reference : ∀ binding ∈ column.reference, IsPlain binding.table ∧ IsPlain binding.column

structure Table.Legible (table : Table) : Prop where
  columns : ∀ column ∈ table.columns, column.Legible
  distinct : (table.columns.map (·.name)).Nodup

theorem IsWord.not_mem {text : String} (hword : IsWord text) {mark : Char}
    (hspace : isSpace mark = true) : mark ∉ text.toList := by
  intro hmem
  rw [hword.2 mark hmem] at hspace
  cases hspace

theorem IsWord.append {text other : String} (htext : IsWord text) (hother : IsWord other) :
    IsWord (text ++ other) := by
  refine ⟨by simp [htext.1], ?_⟩
  rw [String.toList_append, List.forall_mem_append]
  exact ⟨htext.2, hother.2⟩

/-! ### The words of a definition -/

namespace ColumnInfo

variable {column first second : ColumnInfo} {compound : Bool}

def presenceWords (column : ColumnInfo) (compound : Bool) : List String :=
  if column.primaryKey && !compound then ["PRIMARY", "KEY"]
  else if !column.nullable then ["NOT", "NULL"]
  else []

def referenceWords : Option ReferenceBinding → List String
  | none => []
  | some binding => ["REFERENCES", binding.table ++ "(" ++ binding.column ++ ")"]

def constraintWords (column : ColumnInfo) (compound : Bool) : List String :=
  column.presenceWords compound ++ referenceWords column.reference

def words (column : ColumnInfo) (compound : Bool) : List String :=
  column.name :: column.sqlType :: column.constraintWords compound

theorem definition_eq_words (column : ColumnInfo) (compound : Bool) :
    column.definition compound = "    " ++ " ".intercalate (column.words compound) := by
  apply String.toList_inj.mp
  obtain ⟨name, sqlType, primaryKey, nullable, reference⟩ := column
  cases primaryKey <;> cases nullable <;> cases compound <;> cases reference <;>
    simp [definition, constraints, words, constraintWords, presenceWords, referenceWords,
      String.intercalate_cons_cons]

theorem presenceWords_cases (column : ColumnInfo) (compound : Bool) :
    column.presenceWords compound = ["PRIMARY", "KEY"] ∨
      column.presenceWords compound = ["NOT", "NULL"] ∨ column.presenceWords compound = [] := by
  unfold presenceWords
  split
  · exact Or.inl rfl
  · split
    · exact Or.inr (Or.inl rfl)
    · exact Or.inr (Or.inr rfl)

theorem isWord_words (hcolumn : column.Legible) : ∀ word ∈ column.words compound, IsWord word := by
  have hpresence : ∀ word ∈ column.presenceWords compound, IsWord word := by
    rcases column.presenceWords_cases compound with hwords | hwords | hwords <;> rw [hwords] <;>
      decide
  have hreference : ∀ word ∈ referenceWords column.reference, IsWord word := by
    cases hbinding : column.reference with
    | none => simp [referenceWords]
    | some binding =>
        obtain ⟨htable, hname⟩ := hcolumn.reference binding (by simp [hbinding])
        simp only [referenceWords, List.forall_mem_cons]
        have hopen : IsWord (binding.table ++ "(") := htable.1.append (by decide)
        have htarget := (hopen.append hname.1).append (show IsWord ")" by decide)
        exact ⟨by decide, htarget, by simp⟩
  simp only [words, constraintWords, List.forall_mem_cons, List.forall_mem_append]
  exact ⟨hcolumn.name.1, hcolumn.sqlType, hpresence, hreference⟩

theorem mem_of_constraintWords_eq_cons {word : String} {rest : List String}
    (hwords : column.constraintWords compound = word :: rest) :
    word ∈ ["PRIMARY", "NOT", "REFERENCES"] := by
  unfold constraintWords at hwords
  rcases column.presenceWords_cases compound with hpresence | hpresence | hpresence <;>
    cases hreference : column.reference <;>
    simp_all [referenceWords]

theorem referenceWords_inj {reference other : Option ReferenceBinding}
    (hreference : ∀ binding ∈ reference, IsPlain binding.table)
    (hother : ∀ binding ∈ other, IsPlain binding.table)
    (hsame : referenceWords reference = referenceWords other) : reference = other := by
  cases reference with
  | none =>
      cases other with
      | none => rfl
      | some binding => cases hsame
  | some binding =>
      cases other with
      | none => cases hsame
      | some target =>
          obtain ⟨table, name⟩ := binding
          obtain ⟨otherTable, otherName⟩ := target
          have htable : '(' ∉ table.toList := fun hmem =>
            ((hreference _ rfl).2 _ hmem).2.1 rfl
          have hotherTable : '(' ∉ otherTable.toList := fun hmem =>
            ((hother _ rfl).2 _ hmem).2.1 rfl
          simp only [referenceWords, List.cons.injEq, true_and, and_true] at hsame
          have hlists := congrArg String.toList (String.append_left_inj ")" |>.mp hsame)
          simp only [String.toList_append, List.append_assoc] at hlists
          obtain ⟨hnames, hcolumns⟩ := append_mark_inj htable hotherTable hlists
          rw [String.toList_inj.mp hnames, String.toList_inj.mp hcolumns]

theorem words_inj (hfirst : first.Legible) (hsecond : second.Legible)
    (hsame : first.words compound = second.words compound) :
    first.name = second.name ∧ first.sqlType = second.sqlType ∧
      first.presenceWords compound = second.presenceWords compound ∧
      first.reference = second.reference := by
  simp only [words, constraintWords, List.cons.injEq] at hsame
  obtain ⟨hname, htype, htail⟩ := hsame
  have hpresence : first.presenceWords compound = second.presenceWords compound := by
    rcases first.presenceWords_cases compound with hwords | hwords | hwords <;>
      rcases second.presenceWords_cases compound with hother | hother | hother <;>
      cases hreference : first.reference <;> cases htarget : second.reference <;>
      simp_all [referenceWords]
  rw [hpresence, List.append_cancel_left_eq] at htail
  have href := referenceWords_inj (fun binding hmem => (hfirst.reference binding hmem).1)
    (fun binding hmem => (hsecond.reference binding hmem).1) htail
  exact ⟨hname, htype, hpresence, href⟩

theorem definition_inj (hfirst : first.Legible) (hsecond : second.Legible)
    (hsame : first.definition compound = second.definition compound) :
    first.words compound = second.words compound := by
  rw [definition_eq_words, definition_eq_words, String.append_right_inj] at hsame
  have hblank : isSpace ' ' = true := rfl
  exact eq_of_intercalate_eq ' ' [] [] rfl List.not_mem_nil
    (fun word hmem => (isWord_words hfirst word hmem).not_mem hblank)
    (fun word hmem => (isWord_words hsecond word hmem).not_mem hblank)
    (List.cons_ne_nil _ _) (List.cons_ne_nil _ _) hsame

theorem primaryKey_of_presenceWords
    (hsame : first.presenceWords false = second.presenceWords false) :
    first.primaryKey = second.primaryKey := by
  unfold presenceWords at hsame
  cases hkey : first.primaryKey <;> cases hother : second.primaryKey <;>
    cases hfirst : first.nullable <;> cases hsecond : second.nullable <;>
    simp [hkey, hother, hfirst, hsecond] at hsame ⊢

/-- A definition does not say whether a column may be missing only if it says that it is the key. -/
theorem nullable_of_presenceWords (hkey : first.primaryKey = second.primaryKey)
    (hsame : first.presenceWords compound = second.presenceWords compound) :
    first.nullable = second.nullable ∨ compound = false ∧ first.primaryKey = true := by
  unfold presenceWords at hsame
  rw [← hkey] at hsame
  cases hfirst : first.nullable <;> cases hsecond : second.nullable <;> cases compound <;>
    cases hmarked : first.primaryKey <;> simp [hfirst, hsecond, hmarked] at hsame ⊢

theorem eq_of_nullable {other : ColumnInfo} (hname : column.name = other.name)
    (htype : column.sqlType = other.sqlType) (hkey : column.primaryKey = other.primaryKey)
    (hreference : column.reference = other.reference) :
    { column with nullable := other.nullable } = other := by
  cases column
  cases other
  simp_all

theorem not_mem_definition (hcolumn : column.Legible) :
    '\n' ∉ (column.definition compound).toList := by
  have hbreak : isSpace '\n' = true := rfl
  rw [definition_eq_words, String.toList_append, List.mem_append, not_or]
  exact ⟨by decide, not_mem_intercalate (by decide)
    fun word hmem => (isWord_words hcolumn word hmem).not_mem hbreak⟩

/-- The definition of a column with a reference ends in the clause for it. -/
theorem exists_definition_eq {binding : ReferenceBinding}
    (hreference : column.reference = some binding) (compound : Bool) :
    ∃ front, column.definition compound =
      front ++ (" REFERENCES " ++ binding.table ++ "(" ++ binding.column ++ ")") := by
  unfold definition constraints
  have hclause : " " ++ ("REFERENCES " ++ binding.table ++ "(" ++ binding.column ++ ")") =
      " REFERENCES " ++ binding.table ++ "(" ++ binding.column ++ ")" := by
    simp [← String.append_assoc]
  rw [hreference, ← List.cons_append, ← List.cons_append,
    String.intercalate_append_of_ne_nil (List.cons_ne_nil _ _) (by simp), Option.map_some,
    Option.toList_some, String.intercalate_singleton, String.append_assoc, hclause]
  exact ⟨_, rfl⟩

end ColumnInfo

/-! ### The line of a compound key -/

namespace Table

variable {table first second : Table} {column : ColumnInfo} {compound : Bool}

def keyLine (table : Table) : String :=
  "    PRIMARY KEY (" ++ ", ".intercalate (table.primaryKeys.map (·.name)) ++ ")"

theorem keyLine_eq_words (table : Table) : table.keyLine = "    " ++ ("PRIMARY" ++ " " ++
    ("KEY" ++ " " ++ ("(" ++ (", ".intercalate (table.primaryKeys.map (·.name)) ++ ")")))) := by
  unfold keyLine
  simp [← String.append_assoc]

/-- The third word of a definition does not open a bracket. -/
theorem definition_ne_keyLine (hcolumn : column.Legible) :
    column.definition compound ≠ table.keyLine := by
  intro hsame
  rw [keyLine_eq_words, ColumnInfo.definition_eq_words, String.append_right_inj,
    ColumnInfo.words, String.intercalate_cons_cons] at hsame
  have hblank : isSpace ' ' = true := rfl
  obtain ⟨-, hafterName⟩ :=
    append_blank_inj (hcolumn.name.1.not_mem hblank) (by decide) hsame
  have htype := hcolumn.sqlType.not_mem hblank
  cases htail : column.constraintWords compound with
  | nil =>
      rw [htail, String.intercalate_singleton] at hafterName
      simp [hafterName] at htype
  | cons word rest =>
      rw [htail, String.intercalate_cons_cons] at hafterName
      obtain ⟨-, hthird⟩ := append_blank_inj htype (by decide) hafterName
      obtain ⟨text, htext⟩ := exists_intercalate_cons " " word rest
      have hhead := congrArg (·.toList.head?) (htext ▸ hthird)
      have hword := ColumnInfo.mem_of_constraintWords_eq_cons htail
      simp only [List.mem_cons, List.not_mem_nil, or_false] at hword
      rcases hword with rfl | rfl | rfl <;> simp at hhead

theorem definitionLines_eq (table : Table) : table.definitionLines =
    table.columns.map (·.definition table.hasCompoundKey) ++
      if table.hasCompoundKey then [table.keyLine] else [] := rfl

theorem getElem?_definitionLines {index : Nat} {info : ColumnInfo}
    (hinfo : table.columns[index]? = some info) :
    table.definitionLines[index]? = some (info.definition table.hasCompoundKey) := by
  rw [definitionLines_eq, List.getElem?_append_left, List.getElem?_map, hinfo]
  · rfl
  · rw [List.length_map]
    exact (List.getElem?_eq_some_iff.mp hinfo).1

theorem isPlain_keyNames (htable : table.Legible) :
    ∀ name ∈ table.primaryKeys.map (·.name), IsPlain name := by
  intro name hname
  obtain ⟨key, hkey, rfl⟩ := List.mem_map.mp hname
  exact (htable.columns key (List.mem_filter.mp hkey).1).name

theorem not_mem_keyLine (htable : table.Legible) : '\n' ∉ table.keyLine.toList := by
  have hnames : ∀ name ∈ table.primaryKeys.map (·.name), '\n' ∉ name.toList :=
    fun name hmem => (isPlain_keyNames htable name hmem).1.not_mem rfl
  have hjoined : '\n' ∉ (", ".intercalate (table.primaryKeys.map (·.name))).toList :=
    not_mem_intercalate (by decide) hnames
  unfold keyLine
  simp only [String.toList_append, List.mem_append, not_or]
  exact ⟨⟨by decide, hjoined⟩, by decide⟩

theorem not_mem_definitionLines (htable : table.Legible) :
    ∀ line ∈ table.definitionLines, '\n' ∉ line.toList := by
  rw [definitionLines_eq]
  intro line hline
  rcases List.mem_append.mp hline with hcolumn | hkey
  · obtain ⟨column, hmem, rfl⟩ := List.mem_map.mp hcolumn
    exact ColumnInfo.not_mem_definition (htable.columns column hmem)
  · split at hkey
    · rw [List.mem_singleton.mp hkey]
      exact not_mem_keyLine htable
    · cases hkey

theorem createSql_of_ne_nil (hlines : table.definitionLines ≠ []) :
    table.createSql = "CREATE TABLE IF NOT EXISTS " ++ table.qualifiedName ++
      (" (\n" ++ ",\n".intercalate table.definitionLines ++ "\n);\n") := by
  unfold createSql
  split
  · contradiction
  · simp only [String.append_assoc]

theorem createSql_of_nil (hlines : table.definitionLines = []) :
    table.createSql = "CREATE TABLE IF NOT EXISTS " ++ table.qualifiedName ++ " ();\n" := by
  rw [createSql, hlines]

theorem exists_createSql_eq (table : Table) :
    ∃ rest, table.createSql = "CREATE TABLE IF NOT EXISTS " ++ table.qualifiedName ++ rest := by
  by_cases hlines : table.definitionLines = []
  · exact ⟨_, createSql_of_nil hlines⟩
  · exact ⟨_, createSql_of_ne_nil hlines⟩

/-- The name of a table is all of its qualified name only if it has no catalog and no schema. -/
theorem name_eq_qualifiedName_iff (table : Table) :
    table.name = table.qualifiedName ↔ table.catalog = none ∧ table.schema = none := by
  unfold qualifiedName
  constructor
  · intro hsame
    have hlength := congrArg String.length hsame
    have hdot : ".".length = 1 := rfl
    cases hcatalog : table.catalog <;> cases hschema : table.schema <;>
      simp [hcatalog, hschema, String.intercalate_cons_cons] at hlength ⊢
    all_goals omega
  · rintro ⟨hcatalog, hschema⟩
    simp [hcatalog, hschema]

/-- A table without lines has another statement than one with lines. -/
theorem createSql_ne_of_nil (hname : first.qualifiedName = second.qualifiedName)
    (hlines : first.definitionLines = []) (hothers : second.definitionLines ≠ []) :
    first.createSql ≠ second.createSql := by
  intro hsame
  rw [createSql_of_nil hlines, createSql_of_ne_nil hothers, hname,
    String.append_right_inj] at hsame
  have hthird := congrArg (·.toList[2]?) hsame
  simp at hthird

/-- Statements of tables with one name are the same only if their lines are. -/
theorem definitionLines_of_createSql (hname : first.qualifiedName = second.qualifiedName)
    (hfirst : first.Legible) (hsecond : second.Legible)
    (hsame : first.createSql = second.createSql) :
    first.definitionLines = second.definitionLines := by
  by_cases hlines : first.definitionLines = []
  · by_cases hothers : second.definitionLines = []
    · rw [hlines, hothers]
    · exact absurd hsame (createSql_ne_of_nil hname hlines hothers)
  · by_cases hothers : second.definitionLines = []
    · exact absurd hsame.symm (createSql_ne_of_nil hname.symm hothers hlines)
    · rw [createSql_of_ne_nil hlines, createSql_of_ne_nil hothers, hname,
        String.append_right_inj, String.append_left_inj, String.append_right_inj] at hsame
      exact eq_of_intercalate_eq '\n' [','] [] rfl (by decide)
        (not_mem_definitionLines hfirst) (not_mem_definitionLines hsecond) hlines hothers hsame

theorem hasCompoundKey_of_definitionLines (hsecond : second.Legible)
    (hlines : first.definitionLines = second.definitionLines)
    (hcompound : first.hasCompoundKey = true) : second.hasCompoundKey = true := by
  by_contra hsingle
  have hkey : first.keyLine ∈ second.definitionLines := by
    rw [← hlines, definitionLines_eq, if_pos hcompound]
    simp
  rw [definitionLines_eq, if_neg hsingle, List.append_nil] at hkey
  obtain ⟨column, hcolumn, hdefinition⟩ := List.mem_map.mp hkey
  exact definition_ne_keyLine (hsecond.columns column hcolumn) hdefinition

theorem ne_nil_of_hasCompoundKey (hcompound : table.hasCompoundKey = true) :
    table.primaryKeys.map (·.name) ≠ [] := by
  intro hnil
  simp [hasCompoundKey, List.map_eq_nil_iff.mp hnil] at hcompound

theorem keyNames_of_keyLine (hfirst : first.Legible) (hsecond : second.Legible)
    (hcompound : first.hasCompoundKey = true) (hother : second.hasCompoundKey = true)
    (hsame : first.keyLine = second.keyLine) :
    first.primaryKeys.map (·.name) = second.primaryKeys.map (·.name) := by
  unfold keyLine at hsame
  rw [String.append_left_inj, String.append_right_inj] at hsame
  exact eq_of_intercalate_eq ',' [] [' '] rfl List.not_mem_nil
    (fun name hmem hcomma => ((isPlain_keyNames hfirst name hmem).2 ',' hcomma).1 rfl)
    (fun name hmem hcomma => ((isPlain_keyNames hsecond name hmem).2 ',' hcomma).1 rfl)
    (ne_nil_of_hasCompoundKey hcompound) (ne_nil_of_hasCompoundKey hother) hsame

/-! ### Statements and columns -/

/-- What the statement does not tell apart: equal columns, and two that are the whole key of their
table and differ in whether they may be missing. -/
def ToldAlike (first second : Table) (column other : ColumnInfo) : Prop :=
  column = other ∨ first.primaryKeys = [column] ∧ second.primaryKeys = [other] ∧
    { column with nullable := other.nullable } = other

theorem primaryKey_iff_mem_names (htable : table.Legible) (hcolumn : column ∈ table.columns) :
    column.primaryKey = true ↔ column.name ∈ table.primaryKeys.map (·.name) := by
  rw [List.mem_map]
  constructor
  · intro hkey
    exact ⟨column, List.mem_filter.mpr ⟨hcolumn, hkey⟩, rfl⟩
  · rintro ⟨key, hkey, hname⟩
    obtain ⟨hmem, hmarked⟩ := List.mem_filter.mp hkey
    rw [← List.inj_on_of_nodup_map htable.distinct hmem hcolumn hname]
    exact hmarked

theorem primaryKeys_eq_singleton (hsingle : table.hasCompoundKey = false)
    (hcolumn : column ∈ table.columns) (hkey : column.primaryKey = true) :
    table.primaryKeys = [column] := by
  have hmem : column ∈ table.primaryKeys := List.mem_filter.mpr ⟨hcolumn, hkey⟩
  have hlength : table.primaryKeys.length ≤ 1 := by simpa [hasCompoundKey] using hsingle
  obtain ⟨only, honly⟩ := List.length_eq_one_iff.mp
    (Nat.le_antisymm hlength (List.length_pos_of_mem hmem))
  rw [honly, List.mem_singleton] at hmem
  rw [honly, hmem]

theorem toldAlike_of_definition (hfirst : first.Legible) (hsecond : second.Legible)
    (hcompound : first.hasCompoundKey = second.hasCompoundKey)
    (hkeys : first.hasCompoundKey = true →
      first.primaryKeys.map (·.name) = second.primaryKeys.map (·.name))
    {column other : ColumnInfo} (hcolumn : column ∈ first.columns) (hother : other ∈ second.columns)
    (hsame : column.definition first.hasCompoundKey = other.definition first.hasCompoundKey) :
    ToldAlike first second column other := by
  have hlegible := hfirst.columns column hcolumn
  have hotherLegible := hsecond.columns other hother
  obtain ⟨hname, htype, hpresence, hreference⟩ := ColumnInfo.words_inj hlegible hotherLegible
    (ColumnInfo.definition_inj hlegible hotherLegible hsame)
  have hkey : column.primaryKey = other.primaryKey := by
    cases hsingle : first.hasCompoundKey with
    | true =>
        rw [Bool.eq_iff_iff, primaryKey_iff_mem_names hfirst hcolumn,
          primaryKey_iff_mem_names hsecond hother, hkeys hsingle, hname]
    | false => exact ColumnInfo.primaryKey_of_presenceWords (hsingle ▸ hpresence)
  have hequal := ColumnInfo.eq_of_nullable hname htype hkey hreference
  rcases ColumnInfo.nullable_of_presenceWords hkey hpresence with hnullable | ⟨hsingle, hmarked⟩
  · apply Or.inl
    rw [← hequal, ← hnullable]
  · apply Or.inr
    exact ⟨primaryKeys_eq_singleton hsingle hcolumn hmarked,
      primaryKeys_eq_singleton (hcompound ▸ hsingle) hother (hkey ▸ hmarked), hequal⟩

theorem definition_of_toldAlike {column other : ColumnInfo}
    (halike : ToldAlike first second column other) :
    column.definition first.hasCompoundKey = other.definition first.hasCompoundKey := by
  rcases halike with rfl | ⟨hkeys, hotherKeys, hsame⟩
  · rfl
  · have hkey : column.primaryKey = true := by
      have hmem : column ∈ first.primaryKeys := by simp [hkeys]
      exact (List.mem_filter.mp hmem).2
    have hsingle : first.hasCompoundKey = false := by simp [hasCompoundKey, hkeys]
    rw [← hsame, hsingle]
    simp [ColumnInfo.definition, ColumnInfo.constraints, hkey]

theorem name_of_toldAlike {column other : ColumnInfo}
    (halike : ToldAlike first second column other) : column.name = other.name := by
  rcases halike with rfl | ⟨-, -, hsame⟩
  · rfl
  · rw [← hsame]

theorem toldAlike_primaryKeys
    (halike : List.Forall₂ (ToldAlike first second) first.columns second.columns) :
    List.Forall₂ (ToldAlike first second) first.primaryKeys second.primaryKeys := by
  apply List.rel_filter _ halike
  rintro column other (rfl | ⟨-, -, hsame⟩)
  · rfl
  · rw [← hsame]

theorem definitionLines_of_toldAlike
    (halike : List.Forall₂ (ToldAlike first second) first.columns second.columns) :
    first.definitionLines = second.definitionLines := by
  have hkeys := toldAlike_primaryKeys halike
  have hcompound : first.hasCompoundKey = second.hasCompoundKey := by
    simp [hasCompoundKey, hkeys.length_eq]
  have hdefinitions : first.columns.map (·.definition first.hasCompoundKey) =
      second.columns.map (·.definition first.hasCompoundKey) := by
    rw [← List.forall₂_eq_eq_eq, List.forall₂_map_left_iff, List.forall₂_map_right_iff]
    exact halike.imp fun _ _ => definition_of_toldAlike
  have hnames : first.primaryKeys.map (·.name) = second.primaryKeys.map (·.name) := by
    rw [← List.forall₂_eq_eq_eq, List.forall₂_map_left_iff, List.forall₂_map_right_iff]
    exact hkeys.imp fun _ _ => name_of_toldAlike
  rw [definitionLines_eq, definitionLines_eq, ← hcompound, hdefinitions]
  unfold keyLine
  rw [hnames]

theorem toldAlike_of_definitionLines (hfirst : first.Legible) (hsecond : second.Legible)
    (hlines : first.definitionLines = second.definitionLines) :
    List.Forall₂ (ToldAlike first second) first.columns second.columns := by
  have hcompound : first.hasCompoundKey = second.hasCompoundKey := by
    rw [Bool.eq_iff_iff]
    exact ⟨hasCompoundKey_of_definitionLines hsecond hlines,
      hasCompoundKey_of_definitionLines hfirst hlines.symm⟩
  rw [definitionLines_eq, definitionLines_eq, ← hcompound] at hlines
  obtain ⟨hcolumns, hkeyLine⟩ : first.columns.map (·.definition first.hasCompoundKey) =
      second.columns.map (·.definition first.hasCompoundKey) ∧
        (first.hasCompoundKey = true → first.keyLine = second.keyLine) := by
    split at hlines <;> simp_all
  have hkeys := fun hmarked : first.hasCompoundKey = true =>
    keyNames_of_keyLine hfirst hsecond hmarked (hcompound ▸ hmarked) (hkeyLine hmarked)
  have hlength : first.columns.length = second.columns.length := by
    simpa using congrArg List.length hcolumns
  rw [List.forall₂_iff_get]
  refine ⟨hlength, fun index hindex hother => ?_⟩
  have hdefinition := List.getElem_of_eq hcolumns (by simpa using hindex)
  rw [List.getElem_map, List.getElem_map] at hdefinition
  exact toldAlike_of_definition hfirst hsecond hcompound hkeys (List.get_mem _ _)
    (List.get_mem _ _) hdefinition

/-- **A statement tells the columns of its table.** Tables with one qualified name have one
statement exactly if their columns are the same, in order, up to whether the only key column may be
missing. -/
theorem createSql_eq_iff (hname : first.qualifiedName = second.qualifiedName)
    (hfirst : first.Legible) (hsecond : second.Legible) :
    first.createSql = second.createSql ↔
      List.Forall₂ (ToldAlike first second) first.columns second.columns := by
  constructor
  · intro hsame
    exact toldAlike_of_definitionLines hfirst hsecond
      (definitionLines_of_createSql hname hfirst hsecond hsame)
  · intro halike
    simp only [createSql, hname, definitionLines_of_toldAlike halike]

section Instance

/-- A table with a column that is named like the words of a key, which may be part of the key. -/
def noteTable (compound nullable : Bool) : Table where
  name := "note"
  aliasName := none
  catalog := none
  schema := some "blog"
  columns := [⟨"id", "int", true, nullable, none⟩,
    ⟨"PRIMARY", "KEY", compound, true, some ⟨"author", "id"⟩⟩]

theorem legible_noteTable (compound nullable : Bool) : (noteTable compound nullable).Legible := by
  have hid : IsPlain "id" := by decide
  have hprimary : IsPlain "PRIMARY" := by decide
  have hbinding : IsPlain "author" ∧ IsPlain "id" := by decide
  constructor
  · simp only [noteTable, List.forall_mem_cons]
    refine ⟨⟨hid, by simp; decide, by simp⟩, ⟨hprimary, by simp; decide, ?_⟩, by simp⟩
    simpa using hbinding
  · simp [noteTable]

/-- Whether the only key column may be missing is not told. With a second key column it is. -/
theorem createSql_noteTable :
    (noteTable false true).createSql = (noteTable false false).createSql ∧
      (noteTable true true).createSql ≠ (noteTable true false).createSql := by
  have hname (compound nullable other : Bool) : (noteTable compound nullable).qualifiedName =
      (noteTable compound other).qualifiedName := rfl
  have hlegible := legible_noteTable
  constructor
  · apply (createSql_eq_iff (hname _ _ _) (hlegible _ _) (hlegible _ _)).mpr
    exact .cons (Or.inr ⟨rfl, rfl, rfl⟩) (.cons (Or.inl rfl) .nil)
  · intro hsame
    have halike := (createSql_eq_iff (hname _ _ _) (hlegible _ _) (hlegible _ _)).mp hsame
    simp [noteTable, ToldAlike, primaryKeys] at halike

end Instance

end Table

end EntityTables.Database
