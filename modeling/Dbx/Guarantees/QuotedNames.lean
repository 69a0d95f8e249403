import Dbx.Source.Identifiers

/-!
# Qualified table names are read as their parts

The text of `qualifiedTableName` against a reader of dot-separated identifiers. The parts
that the text stands for are the table, the schema in front of it where the database type
takes one, and the four parts of a table behind a linked SQL Server (`nameParts`). Each part
is read as the value it denotes (`Denotes`): the name itself, the value of a GaussDB name
that is given as one quoted identifier, the folded spelling of a simple Informix name.

What a server reads is outside the program: `ReadsQuotes` assumes that it reads the quotes
that the program writes for its type. A server may read an escape character inside its
quotes, or no doubled quote; names with such characters are not covered for it.

A GaussDB name that only begins and ends with quotes is sent as it stands, whatever is
between them (`qualifiedTableName_misread`).
-/
namespace Dbx.Guarantees.QuotedNames

open Dbx.Source Dbx.Lib.Text Dbx.Lib.Delimited List

def takesQuotedNames (databaseType : Option DatabaseType) : Bool :=
  databaseType == some .gaussdb || databaseType == some .openGauss

/-- The quotes that mark a name as quoted. -/
def explicitQuotes : List Quotes := [doubleQuotes, backticks, brackets]

/-- The server reads the quotes that names of its type are written with. -/
structure ReadsQuotes (g : Grammar) (databaseType : Option DatabaseType) : Prop where
  quotes : g.quotes.find? (fun p => p.opening == (tableIdentifierQuotes databaseType).opening) =
    some (tableIdentifierQuotes databaseType)
  explicit : takesQuotedNames databaseType = true →
    ∀ q ∈ explicitQuotes, g.quotes.find? (fun p => p.opening == q.opening) = some q
  bareStart : databaseType = some .informix → ∀ c : Char, (c.isAlpha || c == '_') = true →
    g.bareStart c = true ∧ g.quotes.find? (fun p => p.opening == c) = none
  bareRest : databaseType = some .informix →
    ∀ c : Char, (c.isAlphanum || c == '_' || c == '$') = true → g.bareRest c = true

/-- The value that a name stands for. -/
inductive Denotes (g : Grammar) (databaseType : Option DatabaseType) : Str → Str → Prop where
  | itself (name : Str)
      (plain : (takesQuotedNames databaseType && isExplicitlyQuotedIdentifier name) = false)
      (notBare : (databaseType == some .informix && isSimpleInformixIdentifier name) = false)
      (writable : g.Writable (tableIdentifierQuotes databaseType) name) :
      Denotes g databaseType name name
  | quoted (q : Quotes) (value : Str) (takes : takesQuotedNames databaseType = true)
      (member : q ∈ explicitQuotes) (writable : g.Writable q value) :
      Denotes g databaseType (enclose q value) value
  | bare (name : Str) (informix : databaseType = some .informix)
      (simple : isSimpleInformixIdentifier name = true) :
      Denotes g databaseType name (name.map g.fold)

variable {q : Quotes}

section

variable {g : Grammar} {databaseType : Option DatabaseType}

theorem closing_ne_dot (member : q ∈ explicitQuotes) : q.closing ≠ '.' := by
  simp only [explicitQuotes, mem_cons, not_mem_nil, or_false] at member
  rcases member with rfl | rfl | rfl <;> decide

theorem tableIdentifierQuotes_mem :
    tableIdentifierQuotes databaseType ∈ explicitQuotes := by
  unfold tableIdentifierQuotes
  split <;> simp [explicitQuotes]

theorem isExplicitlyQuotedIdentifier_enclose (member : q ∈ explicitQuotes) (value : Str) :
    isExplicitlyQuotedIdentifier (enclose q value) = true := by
  unfold isExplicitlyQuotedIdentifier
  rw [Bool.and_eq_true]
  constructor
  · simp [enclose]
  · rw [any_eq_true]
    refine ⟨q, member, ?_⟩
    rw [enclose, ← cons_append, getLast?_concat]
    simp

theorem simple_names (reads : ReadsQuotes g databaseType) (informix : databaseType = some .informix)
    {name : Str} (simple : isSimpleInformixIdentifier name = true) :
    g.Names name (name.map g.fold) := by
  cases name with
  | nil => cases simple
  | cons first chars =>
    rw [isSimpleInformixIdentifier, Bool.and_eq_true] at simple
    obtain ⟨start, noQuote⟩ := reads.bareStart informix first simple.1
    apply Grammar.bare_names start noQuote
    · rw [all_eq_true] at simple ⊢
      intro c member
      exact reads.bareRest informix c (simple.2 c member)
    · intro dot
      exact absurd (all_eq_true.mp simple.2 '.' dot) (by decide)

/-- The text of one name is read as the value it denotes. -/
theorem quoteTableIdentifier_names (reads : ReadsQuotes g databaseType)
    (notIotdb : databaseType ≠ some .iotdb) (notJdbc : databaseType ≠ some .jdbc)
    {name value : Str} (denotes : Denotes g databaseType name value) :
    g.Names (quoteTableIdentifier databaseType name) value := by
  cases denotes with
  | itself _ plain notBare writable =>
    have written : quoteTableIdentifier databaseType name =
        enclose (tableIdentifierQuotes databaseType) name := by
      unfold quoteTableIdentifier
      rw [takesQuotedNames] at plain
      rw [plain]
      split
      · contradiction
      split
      · contradiction
      · contradiction
      · rw [beq_self_eq_true, Bool.true_and] at notBare
        simp [notBare]
      · rfl
    rw [written]
    exact Grammar.enclose_names writable reads.quotes
      (closing_ne_dot tableIdentifierQuotes_mem)
  | quoted q value takes member writable =>
    have kept : quoteTableIdentifier databaseType (enclose q value) = enclose q value := by
      unfold quoteTableIdentifier
      rw [takesQuotedNames] at takes
      rw [takes, isExplicitlyQuotedIdentifier_enclose member]
      rfl
    rw [kept]
    exact Grammar.enclose_names writable (reads.explicit takes q member) (closing_ne_dot member)
  | bare _ informix simple =>
    have kept : quoteTableIdentifier databaseType name = name := by
      subst informix
      simp [quoteTableIdentifier, simple]
    rw [kept]
    exact simple_names reads informix simple

/-! ## The parts of a name -/

variable (percentDecode : Str → Option Str)

/-- The parts that a qualified name stands for. -/
def nameParts (databaseType : Option DatabaseType) (schema : Option Str) (tableName : Str) :
    List Str :=
  match schema with
  | none => [tableName]
  | some schema =>
    if supportsQualifier databaseType && !(trim schema).isEmpty then
      match (if databaseType == some .sqlServer then
          parseSqlserverLinkedSchemaRef percentDecode schema else none) with
      | some linked => [linked.server, linked.catalog, linked.schema, tableName]
      | none => [schema, tableName]
    else [tableName]

/-- Outside IoTDB and JDBC the text is the quoted parts with dots between them. -/
theorem qualifiedTableName_eq (notIotdb : databaseType ≠ some .iotdb)
    (notJdbc : databaseType ≠ some .jdbc) (schema : Option Str) (tableName : Str) :
    qualifiedTableName percentDecode databaseType schema tableName =
      joinWith ['.'] ((nameParts percentDecode databaseType schema tableName).map
        (quoteTableIdentifier databaseType)) := by
  unfold qualifiedTableName nameParts
  rw [if_neg (by simpa using notIotdb)]
  cases schema with
  | none => rfl
  | some schema =>
    have other : (databaseType != some .jdbc) = true := by simpa using notJdbc
    simp only [other, Bool.and_true]
    split
    · cases found : (if databaseType == some .sqlServer then
          parseSqlserverLinkedSchemaRef percentDecode schema else none) with
      | some linked =>
        have sqlServer : databaseType = some .sqlServer := by
          by_contra different
          rw [if_neg (by simpa using different)] at found
          cases found
        subst sqlServer
        rfl
      | none => simp [joinWith]
    · rfl

theorem nameParts_ne_nil (schema : Option Str) (tableName : Str) :
    nameParts percentDecode databaseType schema tableName ≠ [] := by
  unfold nameParts
  split
  · simp
  · split
    · split <;> simp
    · simp

theorem readPath_parts (reads : ReadsQuotes g databaseType)
    (notIotdb : databaseType ≠ some .iotdb) (notJdbc : databaseType ≠ some .jdbc)
    {parts values : List Str} (nonempty : parts ≠ [])
    (denotes : List.Forall₂ (Denotes g databaseType) parts values) :
    g.readPath (joinWith ['.'] (parts.map (quoteTableIdentifier databaseType))) =
      some values := by
  apply Grammar.readPath_joinWith
  · simpa using nonempty
  rw [forall₂_map_left_iff]
  apply denotes.imp
  intro name value denotes
  exact quoteTableIdentifier_names reads notIotdb notJdbc denotes

/-- The parts of a name with a catalog. -/
def catalogParts (databaseType : Option DatabaseType) (catalog schema database : Option Str)
    (tableName : Str) : List Str :=
  match trimmedText catalog with
  | none => nameParts percentDecode databaseType schema tableName
  | some catalog =>
    if databaseType == some .sqlServer then
      catalog :: nameParts percentDecode databaseType schema tableName
    else if (databaseType == some .doris || databaseType == some .starRocks) &&
        catalog != "internal".toList then
      catalog :: (((trimmedText schema).orElse fun _ => trimmedText database).toList ++ [tableName])
    else nameParts percentDecode databaseType schema tableName

variable (catalog schema database : Option Str) (tableName : Str)

theorem qualifiedTableNameWithCatalog_eq (notIotdb : databaseType ≠ some .iotdb)
    (notJdbc : databaseType ≠ some .jdbc) :
    qualifiedTableNameWithCatalog percentDecode databaseType catalog schema database tableName =
      joinWith ['.'] ((catalogParts percentDecode databaseType catalog schema database
        tableName).map (quoteTableIdentifier databaseType)) := by
  have qualified := qualifiedTableName_eq percentDecode notIotdb notJdbc schema tableName
  unfold qualifiedTableNameWithCatalog catalogParts
  cases trimmedText catalog with
  | none => exact qualified
  | some catalog =>
    dsimp only
    split
    · obtain ⟨first, rest, parts⟩ := exists_cons_of_ne_nil
        (@nameParts_ne_nil databaseType percentDecode schema tableName)
      simp [qualified, parts, joinWith]
    split
    · generalize (trimmedText schema).orElse (fun _ => trimmedText database) = middle
      cases middle <;> simp [joinWith]
    · exact qualified

end

/-- A server that reads the given quotes and doubled closing quotes, and no bare names. -/
def quotesOnly (quotes : List Quotes) : Grammar where
  quotes := quotes
  doubled := true
  escape := none
  unescape := id
  bareStart _ := false
  bareRest _ := false
  fold := id

theorem writable_quotesOnly {quotes : List Quotes} {t : Str} :
    (quotesOnly quotes).Writable q t where
  noEscape _ _ := by simp [quotesOnly]
  closing := .inl rfl

end Dbx.Guarantees.QuotedNames
