import Dbx.Lib.Text
import Dbx.Source.DatabaseType

/-!
# Federated queries

Model of `analyze_federation`, `validate_federation` and `rewrite_federated_sql`
(`crates/dbx-core/src/federated.rs:53-549`).

The Unicode tables of the standard library and of the regular expressions, and the SQL
parser with its printer, are parameters. `HashMap`s built from the connection list keep
the last connection of a name; the map from original to new names keeps the last entry.
The log lines and the alias field, which is always empty, are left out.
-/
namespace Dbx.Source.Federated

open Dbx.Lib.Text

structure UnicodeTables where
  isAlphabetic : Char → Bool
  isAlphanumeric : Char → Bool
  toLowercase : Str → Str
  /-- Equal up to case in a case-insensitive regular expression. -/
  sameFold : Char → Char → Bool

structure ConnectionConfig where
  name : Str
  dbType : DatabaseType
  database : Option Str
  defaultSchema : Option Str
  visibleSchemas : Option (List (Str × List Str))
  federationEnabled : Bool
  deriving DecidableEq

/-! ## Preparing the text -/

section Preprocess

variable (unicode : UnicodeTables)

def needsQuoting (name : Str) : Bool :=
  let validStart := name.head?.any fun c => unicode.isAlphabetic c || c == '_'
  let validChars := name.all fun c => unicode.isAlphanumeric c || c == '_'
  !validStart || !validChars

/-- The name, in any case, and a dot stand at the front of the text. -/
def nameAtFront (name text : Str) : Bool :=
  (text.take name.length).length == name.length &&
    (List.zipWith unicode.sameFold name text).all id && (text.drop name.length).head? == some '.'

/-- `(?i)[A-Za-z_]`; the long s and the Kelvin sign fold to letters. -/
def startsIdentifier (c : Char) : Bool :=
  c.isAlpha || c == '_' || c.toNat == 0x17f || c.toNat == 0x212a

/-- An identifier character or one of the two quote characters: no name starts after it. -/
def continuesName (c : Char) : Bool :=
  startsIdentifier c || c.isDigit || c.toNat == 0x60 || c == '"'

/-- Quotes the name where another character stands before it; `skip` characters of the last
match are left. -/
def quoteNameFrom (name : Str) : Nat → Str → Str
  | _, [] => []
  | skip + 1, _ :: rest => quoteNameFrom name skip rest
  | 0, c :: rest =>
    if !continuesName c && nameAtFront unicode name rest then
      c :: '"' :: rest.take name.length ++ ['"', '.'] ++ quoteNameFrom name (name.length + 1) rest
    else c :: quoteNameFrom name 0 rest

def quoteName (text name : Str) : Str :=
  if nameAtFront unicode name text then
    '"' :: text.take name.length ++ ['"', '.']
      ++ quoteNameFrom unicode name (name.length + 1) text
  else quoteNameFrom unicode name 0 text

def preprocessFederatedSql (sql : Str) (connectionNames : List Str) : Str :=
  (connectionNames.filter (needsQuoting unicode)).foldl (quoteName unicode) sql

end Preprocess

/-- Drops a dot between white space, a comma or a bracket and an identifier. -/
def fixLeadingDotTableRefs : Str → Str
  | c :: '.' :: rest =>
    if (isWhitespace c || c == ',' || c == '(') && rest.head?.any startsIdentifier then
      c :: fixLeadingDotTableRefs rest
    else c :: fixLeadingDotTableRefs ('.' :: rest)
  | c :: rest => c :: fixLeadingDotTableRefs rest
  | [] => []

/-! ## Names and the parser -/

structure Ident where
  value : Str
  quoteStyle : Option Char
  deriving DecidableEq

/-- `Ident::new`. -/
def Ident.new (value : Str) : Ident := ⟨value, none⟩

inductive ObjectNamePart where
  | identifier (ident : Ident)
  | function (text : Str)
  deriving DecidableEq

abbrev ObjectName := List ObjectNamePart

/-- The values of the identifiers among the parts of a name. -/
def identifiers (name : ObjectName) : List Str :=
  name.filterMap fun
    | .identifier ident => some ident.value
    | .function _ => none

/-- The SQL parser and printer. Names that were parsed can be told apart by their text. -/
structure SqlParser where
  Statement : Type
  parse : Str → Option (List Statement)
  /-- The relations in the order of `visit_relations`. -/
  relations : Statement → List ObjectName
  mapRelations : (ObjectName → ObjectName) → Statement → Statement
  display : ObjectName → Str
  print : Statement → Str
  relations_map : ∀ f statement, relations (mapRelations f statement) = (relations statement).map f
  display_inj : ∀ text text' statements statements' name name',
    parse text = some statements → parse text' = some statements' →
    name ∈ statements.flatMap relations → name' ∈ statements'.flatMap relations →
    display name = display name' → name = name'

/-! ## Analysis -/

structure FederatedTableRef where
  originalName : Str
  connectionName : Str
  databaseName : Option Str
  schemaName : Option Str
  tableName : Str
  deriving DecidableEq

structure FederatedAnalysis where
  tableRefs : List FederatedTableRef
  connections : List Str
  isSingleConnection : Bool
  singleConnection : Option Str
  usesFederationSyntax : Bool

section Federation

variable (unicode : UnicodeTables) (parser : SqlParser) (connections : List ConnectionConfig)

/-- The exact name first, then the name in lower case; the last connection of a name counts. -/
def resolveConnection (name : Str) : Option ConnectionConfig :=
  (connections.reverse.find? fun config => config.name == name).or
    (connections.reverse.find? fun config =>
      unicode.toLowercase config.name == unicode.toLowercase name)

/-- A reference with a connection in front, if the name has one. -/
def federatedRef (name : ObjectName) : Option FederatedTableRef :=
  match identifiers name with
  | connection :: database :: schema :: table :: _ =>
    (resolveConnection unicode connections connection).map fun config =>
      ⟨parser.display name, config.name, some database, some schema, table⟩
  | [connection, database, table] =>
    (resolveConnection unicode connections connection).map fun config =>
      ⟨parser.display name, config.name, some database, none, table⟩
  | _ => none

def plainRef (name : ObjectName) : Option FederatedTableRef :=
  match identifiers name with
  | schema :: table :: _ => some ⟨parser.display name, [], none, some schema, table⟩
  | [table] => some ⟨parser.display name, [], none, none, table⟩
  | [] => none

def extractTableRefs (statement : parser.Statement) : List FederatedTableRef :=
  (parser.relations statement).filterMap fun name =>
    (federatedRef unicode parser connections name).or (plainRef parser name)

def analyzedText (sql : Str) : Str :=
  fixLeadingDotTableRefs (preprocessFederatedSql unicode sql (connections.map (·.name)))

def analyzeFederation (sql : Str) : FederatedAnalysis :=
  match parser.parse (analyzedText unicode connections sql) with
  | none => ⟨[], [], true, none, false⟩
  | some statements =>
    let tableRefs := statements.flatMap (extractTableRefs unicode parser connections)
    let seen := ((tableRefs.map (·.connectionName)).filter (!·.isEmpty)).reverse.dedup.reverse
    let single := seen.length ≤ 1
    { tableRefs
      connections := seen
      isSingleConnection := single
      singleConnection := if single then seen.head? else none
      usesFederationSyntax := statements.any fun statement =>
        (parser.relations statement).any fun name =>
          (federatedRef unicode parser connections name).isSome }

end Federation

/-! ## Validation -/

def getVisibleSchemasForDatabase (config : ConnectionConfig) (database : Str) : Option (List Str) :=
  config.visibleSchemas.bind fun map => (map.lookup database).or (map.lookup ['*'])

inductive FederationValidationError where
  | federationNotEnabled (connection : Str)
  | schemaNotVisible (connection schema : Str)
  deriving DecidableEq

def FederationValidationError.display : FederationValidationError → Str
  | federationNotEnabled connection =>
    "Connection '".toList ++ connection ++ ("' does not have federated query enabled. " ++
      "Enable it in the connection settings.").toList
  | schemaNotVisible connection schema =>
    "Schema '".toList ++ schema ++ "' is not visible for connection '".toList ++ connection ++
      "'. Check the connection's visible schemas configuration.".toList

section Validation

variable (unicode : UnicodeTables) (connections : List ConnectionConfig)

/-- The check of one reference. -/
def validateRef (ref : FederatedTableRef) : Except FederationValidationError Unit :=
  if ref.connectionName.isEmpty then .ok ()
  else match resolveConnection unicode connections ref.connectionName with
    | none => .ok ()
    | some config =>
      if !config.federationEnabled then .error (.federationNotEnabled ref.connectionName)
      else match ref.schemaName with
        | none => .ok ()
        | some schema =>
          let database := ref.databaseName.getD (config.database.getD [])
          match getVisibleSchemasForDatabase config database with
          | none => .ok ()
          | some visible =>
            if visible.contains schema then .ok ()
            else .error (.schemaNotVisible ref.connectionName schema)

def validateFederation (analysis : FederatedAnalysis) : Except FederationValidationError Unit :=
  analysis.tableRefs.forM (validateRef unicode connections)

end Validation

/-! ## Rewriting -/

def getDefaultSchema (dbType : DatabaseType) (database : Str) : Str :=
  match dbType with
  | .mysql | .doris | .starRocks | .goldendb | .gbase | .manticoreSearch | .databend
  | .clickHouse | .tdengine | .influxDb | .victoriaMetrics
  | .teradata | .exasol | .firebird | .oracle | .oceanbaseOracle | .db2 | .dameng
  | .hive | .prestoSql | .trino | .spark | .kyuubi | .impala | .databricks
  | .neo4j | .cassandra | .bigquery => database
  | .snowflake | .kylin | .sundb | .h2 | .informix | .xugu | .yashandb => "PUBLIC".toList
  | .sqlServer => "dbo".toList
  | .sqlite | .rqlite | .turso | .cloudflareD1 => "main".toList
  | _ => "public".toList

def ConnectionConfig.schemaByDefault (config : ConnectionConfig) : Str :=
  config.defaultSchema.getD (getDefaultSchema config.dbType (config.database.getD []))

/-- The database of the reference is the one the connection is on. -/
def databaseMatches (config : ConnectionConfig) (ref : FederatedTableRef) : Bool :=
  ref.databaseName.any fun database => eqIgnoreAsciiCase database (config.database.getD [])

/-- The parts in front of the table name. -/
def newQualifiers (config : ConnectionConfig) (ref : FederatedTableRef) : List Str :=
  if databaseMatches config ref then
    match ref.schemaName with
    | some schema =>
      if config.dbType = .oracle ∨ config.dbType = .oceanbaseOracle then
        [config.schemaByDefault, schema]
      else [schema]
    | none => [config.schemaByDefault]
  else ref.databaseName.toList ++ ref.schemaName.toList

def newName (config : ConnectionConfig) (ref : FederatedTableRef) : ObjectName :=
  (newQualifiers config ref ++ [ref.tableName]).map fun part => .identifier (Ident.new part)

section Rewriting

variable (unicode : UnicodeTables) (parser : SqlParser) (connections : List ConnectionConfig)

/-- From the texts of the original names to the new names. -/
def rewriteMap (config : ConnectionConfig) (analysis : FederatedAnalysis) :
    List (Str × ObjectName) :=
  (analysis.tableRefs.filter fun ref => ref.connectionName == config.name).map fun ref =>
    (ref.originalName, newName config ref)

def renamed (map : List (Str × ObjectName)) (name : ObjectName) : ObjectName :=
  (map.reverse.lookup (parser.display name)).getD name

/-- The text that is parsed again for rewriting. -/
def rewrittenText (sql : Str) (analysis : FederatedAnalysis) : Str :=
  fixLeadingDotTableRefs (preprocessFederatedSql unicode sql analysis.connections)

/-- The connection whose prefix is removed. -/
def singleConfig (analysis : FederatedAnalysis) : Option ConnectionConfig :=
  analysis.singleConnection.bind fun name => connections.find? fun config => config.name == name

/-- The rewritten statements. -/
def rewriteFederatedStatements (sql : Str) (analysis : FederatedAnalysis) :
    Option (List parser.Statement) :=
  if !analysis.usesFederationSyntax || !analysis.isSingleConnection then none
  else (singleConfig connections analysis).bind fun config =>
    let map := rewriteMap config analysis
    if map.isEmpty then none
    else (parser.parse (rewrittenText unicode sql analysis)).map fun statements =>
      statements.map (parser.mapRelations (renamed parser map))

def rewriteFederatedSql (sql : Str) (analysis : FederatedAnalysis) : Option Str :=
  (rewriteFederatedStatements unicode parser connections sql analysis).map fun statements =>
    joinWith "; ".toList (statements.map parser.print)

end Rewriting

end Dbx.Source.Federated
