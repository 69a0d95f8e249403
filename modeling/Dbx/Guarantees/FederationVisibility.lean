import Mathlib.Data.List.Dedup
import Dbx.Source.Federated

/-!
# Visible schemas of rewritten federated queries

`validate_federation` looks at the schema segment of a four-part name. A three-part name
has none; the rewriter gives it the connection's default schema, or its database segment,
and nobody checks that against the visible schemas. Validation and rewriting also look a
connection up differently: the last one of its name against the first one.

A rewritten query keeps to the visible schemas exactly when every schema that the rewriter
substitutes is visible, and no four-part name was validated against another connection of
the same name (`rewrite_visible_iff`).
-/
namespace Dbx.Guarantees.FederationVisibility

open Dbx.Lib.Text Dbx.Source Dbx.Source.Federated List Option

/-- The schema that a name is qualified with: the part before the last one. -/
def qualifier (name : ObjectName) : Option Str := (identifiers name).dropLast.getLast?

/-- The list that is configured for the database a reference names. -/
def listFor (config : ConnectionConfig) (ref : FederatedTableRef) : Option (List Str) :=
  getVisibleSchemasForDatabase config (ref.databaseName.getD (config.database.getD []))

variable {unicode : UnicodeTables} {parser : SqlParser} {connections : List ConnectionConfig}

/-! ## References -/

/-- What a relation is recorded as. -/
def refOf (unicode : UnicodeTables) (parser : SqlParser) (connections : List ConnectionConfig)
    (name : ObjectName) : Option FederatedTableRef :=
  (federatedRef unicode parser connections name).or (plainRef parser name)

variable {ref : FederatedTableRef}

/-- A reference keeps the text of its name, and has a database if it has a connection. -/
theorem refOf_spec {name : ObjectName} (h : refOf unicode parser connections name = some ref) :
    ref.originalName = parser.display name ∧
      (ref.connectionName ≠ [] → ∃ database, ref.databaseName = some database) := by
  rcases or_eq_some_iff.mp h with federated | ⟨-, plain⟩
  · unfold federatedRef at federated
    split at federated
    · obtain ⟨config, -, rfl⟩ := map_eq_some_iff.mp federated
      exact ⟨rfl, fun _ => ⟨_, rfl⟩⟩
    · obtain ⟨config, -, rfl⟩ := map_eq_some_iff.mp federated
      exact ⟨rfl, fun _ => ⟨_, rfl⟩⟩
    · cases federated
  · unfold plainRef at plain
    split at plain
    · cases plain
      exact ⟨rfl, fun federated => absurd rfl federated⟩
    · cases plain
      exact ⟨rfl, fun federated => absurd rfl federated⟩
    · cases plain

variable {sql : Str}

/-- The references of an analysis are those of the relations in the analysed text. -/
theorem mem_tableRefs (member : ref ∈ (analyzeFederation unicode parser connections sql).tableRefs) :
    ∃ statements name, parser.parse (analyzedText unicode connections sql) = some statements ∧
      name ∈ statements.flatMap parser.relations ∧
      refOf unicode parser connections name = some ref := by
  unfold analyzeFederation at member
  cases parsed : parser.parse (analyzedText unicode connections sql) with
  | none => simp [parsed] at member
  | some statements =>
    simp only [parsed] at member
    obtain ⟨statement, inStatements, member⟩ := mem_flatMap.mp member
    obtain ⟨name, inRelations, found⟩ := mem_filterMap.mp member
    exact ⟨statements, name, rfl, mem_flatMap.mpr ⟨statement, inStatements, inRelations⟩, found⟩

/-- References are told apart by their original name. -/
theorem eq_of_originalName {ref' : FederatedTableRef}
    (member : ref ∈ (analyzeFederation unicode parser connections sql).tableRefs)
    (member' : ref' ∈ (analyzeFederation unicode parser connections sql).tableRefs)
    (same : ref.originalName = ref'.originalName) : ref = ref' := by
  obtain ⟨statements, name, parsed, inText, found⟩ := mem_tableRefs member
  obtain ⟨statements', name', parsed', inText', found'⟩ := mem_tableRefs member'
  rw [(refOf_spec found).1, (refOf_spec found').1] at same
  have names := parser.display_inj _ _ _ _ _ _ parsed parsed' inText inText' same
  rw [names, found'] at found
  exact (some.inj found).symm

/-- A single connection has a name. -/
theorem singleConnection_ne_nil {name : Str}
    (single : (analyzeFederation unicode parser connections sql).singleConnection = some name) :
    name ≠ [] := by
  unfold analyzeFederation at single
  split at single
  · cases single
  dsimp only at single
  split at single
  · have member := mem_of_head? single
    simp only [mem_reverse, mem_dedup, mem_filter] at member
    simpa using member.2
  · cases single

/-! ## The new names -/

variable {config : ConnectionConfig}

theorem lookup_of_mem {α : Type} {pairs : List (Str × α)} {key : Str} {value : α}
    (member : (key, value) ∈ pairs) (only : ∀ v, (key, v) ∈ pairs → v = value) :
    pairs.lookup key = some value := by
  induction pairs with
  | nil => cases member
  | cons pair rest ih =>
    obtain ⟨k, v⟩ := pair
    rw [lookup_cons]
    by_cases same : key = k
    · subst same
      rw [only v mem_cons_self]
      simp
    rw [beq_false_of_ne same]
    refine ih ?_ fun v' member' => only v' (mem_cons_of_mem _ member')
    rcases mem_cons.mp member with equal | member
    · exact absurd (Prod.mk.inj equal).1 same
    · exact member

theorem lookup_rewriteMap
    (member : ref ∈ (analyzeFederation unicode parser connections sql).tableRefs)
    (attributed : ref.connectionName = config.name) :
    (rewriteMap config (analyzeFederation unicode parser connections sql)).reverse.lookup
      ref.originalName = some (newName config ref) := by
  refine lookup_of_mem (mem_reverse.mpr (mem_map.mpr ⟨ref, ?_, rfl⟩)) ?_
  · exact mem_filter.mpr ⟨member, by simpa using attributed⟩
  intro name member'
  obtain ⟨ref', kept, same⟩ := mem_map.mp (mem_reverse.mp member')
  obtain ⟨texts, rfl⟩ := Prod.mk.inj same
  rw [eq_of_originalName (mem_filter.mp kept).1 member texts]

/-- The qualifier that the rewriter gives to a reference. -/
def substitute (config : ConnectionConfig) (ref : FederatedTableRef) : Str :=
  match ref.schemaName with
  | some schema => schema
  | none =>
    if databaseMatches config ref then config.schemaByDefault else ref.databaseName.getD []

theorem qualifier_newName {database : Str} (federated : ref.databaseName = some database) :
    qualifier (newName config ref) = some (substitute config ref) := by
  have parts : identifiers (newName config ref) = newQualifiers config ref ++ [ref.tableName] := by
    unfold identifiers newName
    rw [filterMap_map]
    exact filterMap_some
  unfold qualifier
  rw [parts, dropLast_concat]
  unfold newQualifiers substitute
  cases ref.schemaName with
  | none => split <;> simp [federated]
  | some schema =>
    dsimp only
    split
    · split <;> rfl
    · simp [federated]

/-! ## Validation -/

theorem forM_ok {α ε : Type} {check : α → Except ε Unit} {list : List α}
    (h : list.forM check = .ok ()) : ∀ a ∈ list, check a = .ok () := by
  induction list with
  | nil => simp
  | cons a rest ih =>
    rw [List.forM] at h
    cases first : check a with
    | error e =>
      rw [first] at h
      cases h
    | ok u =>
      rw [first] at h
      exact forall_mem_cons.mpr ⟨first, ih h⟩

/-- The schema of an accepted reference is visible for the connection it resolves to. -/
theorem schema_visible {schema : Str} {visible : List Str}
    (accepted : validateRef unicode connections ref = .ok ())
    (resolved : resolveConnection unicode connections ref.connectionName = some config)
    (named : ref.connectionName ≠ []) (schemaName : ref.schemaName = some schema)
    (list : listFor config ref = some visible) : schema ∈ visible := by
  unfold validateRef at accepted
  unfold listFor at list
  rw [if_neg (by simpa using named), resolved] at accepted
  dsimp only at accepted
  split at accepted
  · cases accepted
  rw [schemaName] at accepted
  rw [list] at accepted
  dsimp only at accepted
  split at accepted
  · rename_i contained
    exact contains_iff_mem.mp contained
  · cases accepted

/-! ## Rewriting -/

/-- Every relation that the analysis attributes to the connection is qualified by a schema of
the list configured for its database. -/
def QualifiersVisible (parser : SqlParser) (config : ConnectionConfig)
    (refs : List FederatedTableRef) (before after : List ObjectName) : Prop :=
  ∀ (i : Nat) (name name' : ObjectName), before[i]? = some name → after[i]? = some name' →
    ∀ ref ∈ refs, ref.connectionName = config.name → ref.originalName = parser.display name →
      ∀ visible, listFor config ref = some visible →
        ∃ schema ∈ visible, qualifier name' = some schema

/-- Every schema that the rewriter substitutes in a three-part name is visible; a four-part name
was validated against the connection itself, or its schema is visible all the same. -/
def SubstitutesVisible (unicode : UnicodeTables) (parser : SqlParser)
    (connections : List ConnectionConfig) (config : ConnectionConfig)
    (refs : List FederatedTableRef) (before : List ObjectName) : Prop :=
  ∀ ref ∈ refs, ref.connectionName = config.name →
    (∃ name ∈ before, ref.originalName = parser.display name) →
    ∀ visible, listFor config ref = some visible →
      (ref.schemaName ≠ none ∧ resolveConnection unicode connections config.name = some config) ∨
        substitute config ref ∈ visible

theorem rewriteFederatedStatements_some {analysis : FederatedAnalysis}
    {after : List parser.Statement}
    (rewritten : rewriteFederatedStatements unicode parser connections sql analysis = some after) :
    ∃ config before, singleConfig connections analysis = some config ∧
      parser.parse (rewrittenText unicode sql analysis) = some before ∧
      after = before.map (parser.mapRelations (renamed parser (rewriteMap config analysis))) := by
  unfold rewriteFederatedStatements at rewritten
  split at rewritten
  · cases rewritten
  obtain ⟨config, single, rewritten⟩ := bind_eq_some_iff.mp rewritten
  dsimp only at rewritten
  split at rewritten
  · cases rewritten
  · obtain ⟨before, parsed, rfl⟩ := map_eq_some_iff.mp rewritten
    exact ⟨config, before, single, parsed, rfl⟩

theorem flatMap_mapRelations (f : ObjectName → ObjectName) (statements : List parser.Statement) :
    (statements.map (parser.mapRelations f)).flatMap parser.relations =
      (statements.flatMap parser.relations).map f := by
  induction statements with
  | nil => rfl
  | cons statement rest ih =>
    rw [map_cons, flatMap_cons, flatMap_cons, map_append, ih,
      parser.relations_map]

theorem singleConfig_name {analysis : FederatedAnalysis}
    (single : singleConfig connections analysis = some config) :
    analysis.singleConnection = some config.name := by
  obtain ⟨name, found, config'⟩ := bind_eq_some_iff.mp single
  have same : config.name = name := by simpa using find?_some config'
  rw [found, same]

/-- If a query is accepted and rewritten, its relations are qualified by visible schemas exactly
when the substituted schemas are visible. -/
theorem rewrite_visible_iff (unicode : UnicodeTables) (parser : SqlParser)
    (connections : List ConnectionConfig) (sql : Str) (after : List parser.Statement)
    (accepted : validateFederation unicode connections
      (analyzeFederation unicode parser connections sql) = .ok ())
    (rewritten : rewriteFederatedStatements unicode parser connections sql
      (analyzeFederation unicode parser connections sql) = some after) :
    ∃ config before,
      singleConfig connections (analyzeFederation unicode parser connections sql) = some config ∧
      parser.parse (rewrittenText unicode sql
        (analyzeFederation unicode parser connections sql)) = some before ∧
      (QualifiersVisible parser config (analyzeFederation unicode parser connections sql).tableRefs
          (before.flatMap parser.relations) (after.flatMap parser.relations) ↔
        SubstitutesVisible unicode parser connections config
          (analyzeFederation unicode parser connections sql).tableRefs
          (before.flatMap parser.relations)) := by
  obtain ⟨config, before, single, parsed, rfl⟩ := rewriteFederatedStatements_some rewritten
  refine ⟨config, before, single, parsed, ?_⟩
  have named := singleConnection_ne_nil (singleConfig_name single)
  -- what a relation of an attributed reference becomes
  have becomes (name : ObjectName) (ref : FederatedTableRef)
      (member : ref ∈ (analyzeFederation unicode parser connections sql).tableRefs)
      (attributed : ref.connectionName = config.name)
      (text : ref.originalName = parser.display name) :
      qualifier (renamed parser (rewriteMap config
        (analyzeFederation unicode parser connections sql)) name) =
        some (substitute config ref) := by
    obtain ⟨statements, _, _, _, found⟩ := mem_tableRefs member
    obtain ⟨database, federated⟩ := (refOf_spec found).2 (attributed ▸ named)
    unfold renamed
    rw [← text, lookup_rewriteMap member attributed, getD_some]
    exact qualifier_newName federated
  rw [flatMap_mapRelations]
  constructor
  · intro visible ref member attributed occurs list configured
    obtain ⟨name, inBefore, text⟩ := occurs
    obtain ⟨i, at_⟩ := mem_iff_getElem?.mp inBefore
    obtain ⟨schema, inList, qualified⟩ := visible i name _ at_ (by rw [getElem?_map, at_]; rfl)
      ref member attributed text list configured
    rw [becomes name ref member attributed text] at qualified
    exact .inr (some.inj qualified ▸ inList)
  · intro visible i name name' at_ at' ref member attributed text list configured
    rw [getElem?_map, at_, map_some, some.injEq] at at'
    subst at'
    refine ⟨substitute config ref, ?_, becomes name ref member attributed text⟩
    rcases visible ref member attributed ⟨name, mem_of_getElem? at_, text⟩ list configured with
      ⟨fourPart, resolved⟩ | inList
    · obtain ⟨schema, schemaName⟩ := ne_none_iff_exists'.mp fourPart
      have shown := schema_visible (forM_ok accepted ref member) (attributed ▸ resolved)
        (attributed ▸ named) schemaName configured
      unfold substitute
      rw [schemaName]
      exact shown
    · exact inList

/-! ## Three-part names -/

def asciiTables : UnicodeTables where
  isAlphabetic := Char.isAlpha
  isAlphanumeric := Char.isAlphanum
  toLowercase := toAsciiLowercase
  sameFold a b := a.toLower == b.toLower

/-- The parser on `SELECT * FROM` one relation, written without quotes. -/
def oneRelation (parts : List Str) : SqlParser where
  Statement := ObjectName
  parse text :=
    if text = "SELECT * FROM ".toList ++ joinWith ['.'] parts then
      some [parts.map fun part => .identifier (Ident.new part)]
    else none
  relations name := [name]
  mapRelations f name := f name
  display name := joinWith ['.'] (identifiers name)
  print name := "SELECT * FROM ".toList ++ joinWith ['.'] (identifiers name)
  relations_map _ _ := rfl
  display_inj := by
    intro text text' statements statements' name name' parsed parsed' member member' _
    split at parsed
    · split at parsed'
      · cases parsed
        cases parsed'
        simp only [flatMap_cons, flatMap_nil, append_nil, mem_singleton]
          at member member'
        rw [member, member']
      · cases parsed'
    · cases parsed

/-- A connection on the database `app`, of which the given schemas are visible. -/
def appConnection (visible : List Str) : ConnectionConfig where
  name := "pg".toList
  dbType := .postgres
  database := some "app".toList
  defaultSchema := none
  visibleSchemas := some [("app".toList, visible)]
  federationEnabled := true

def appUsers : SqlParser := oneRelation ["pg".toList, "app".toList, "users".toList]

/-- With `public` visible, `pg.app.users` becomes `public.users`. -/
theorem rewrite_visible_public : let connections := [appConnection ["public".toList]]
    let sql := "SELECT * FROM pg.app.users".toList
    let analysis := analyzeFederation asciiTables appUsers connections sql
    let after : List ObjectName :=
      [["public".toList, "users".toList].map fun part => .identifier (Ident.new part)]
    validateFederation asciiTables connections analysis = .ok () ∧
      rewriteFederatedStatements asciiTables appUsers connections sql analysis = some after ∧
      ∃ config before, singleConfig connections analysis = some config ∧
        appUsers.parse (rewrittenText asciiTables sql analysis) = some before ∧
        (QualifiersVisible appUsers config analysis.tableRefs (before.flatMap appUsers.relations)
            (after.flatMap appUsers.relations) ↔
          SubstitutesVisible asciiTables appUsers connections config analysis.tableRefs
            (before.flatMap appUsers.relations)) := by
  intro connections sql analysis after
  have accepted : validateFederation asciiTables connections analysis = .ok () := by decide
  have rewritten : rewriteFederatedStatements asciiTables appUsers connections sql analysis =
      some after := by rfl
  exact ⟨accepted, rewritten,
    rewrite_visible_iff asciiTables appUsers connections sql after accepted rewritten⟩

/-- With only `sales` visible, `pg.app.users` is accepted and becomes `public.users`. -/
theorem rewrite_not_visible : let connections := [appConnection ["sales".toList]]
    let sql := "SELECT * FROM pg.app.users".toList
    let analysis := analyzeFederation asciiTables appUsers connections sql
    validateFederation asciiTables connections analysis = .ok () ∧
      rewriteFederatedSql asciiTables appUsers connections sql analysis =
        some "SELECT * FROM public.users".toList ∧
      ∃ config before after, singleConfig connections analysis = some config ∧
        appUsers.parse (rewrittenText asciiTables sql analysis) = some before ∧
        rewriteFederatedStatements asciiTables appUsers connections sql analysis = some after ∧
        ¬ QualifiersVisible appUsers config analysis.tableRefs
          (before.flatMap appUsers.relations) (after.flatMap appUsers.relations) := by
  intro connections sql analysis
  refine ⟨by decide, by decide, _, _, _, rfl, rfl, rfl, fun visible => ?_⟩
  obtain ⟨schema, inList, qualified⟩ := visible 0 _ _ rfl rfl _ mem_cons_self rfl rfl
    ["sales".toList] rfl
  rw [mem_singleton.mp inList] at qualified
  exact absurd qualified (by decide)

end Dbx.Guarantees.FederationVisibility
