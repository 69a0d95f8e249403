import Dbx.Lib.Delimited
import Dbx.Source.DatabaseType

/-!
# Quoted table names

Model of `sql_dialect/identifiers.rs:6-155, 192-197` and of the tests for schemas and
Informix names in `sql_dialect/capabilities.rs:25-73, 124-131`.

The percent decoding of the parts of a linked schema is a parameter: the text of the decoded
bytes, if they are UTF-8. `name.len() >= 2` counts bytes in the source; next to a first
character that is an ASCII quote it is the same test on characters.
-/
namespace Dbx.Source

open Dbx.Lib.Text Dbx.Lib.Delimited

namespace DatabaseType

def isSchemaAware : DatabaseType → Bool
  | postgres | sqlServer | oracle | redshift | dameng | gaussdb | kwdb | kingbase | highgo | uxdb
  | vastbase | yashandb | oscar | databricks | sapHana | teradata | vertica | exasol | openGauss
  | oceanbaseOracle | gbase | databend | jdbc | h2 | snowflake | trino | prestoSql | hive | kyuubi
  | impala | argo | spark | db2 | informix | tdengine | xugu | sqlite | duckDb | iris
  | spanner => true
  | _ => false

end DatabaseType

def isSimpleInformixIdentifier : Str → Bool
  | [] => false
  | first :: chars =>
    (first.isAlpha || first == '_') &&
      chars.all fun ch => ch.isAlphanum || ch == '_' || ch == '$'

def doubleQuotes : Quotes := ⟨'"', '"'⟩

def backticks : Quotes := ⟨'\x60', '\x60'⟩

def brackets : Quotes := ⟨'[', ']'⟩

def isExplicitlyQuotedIdentifier (name : Str) : Bool :=
  2 ≤ name.length &&
    [doubleQuotes, backticks, brackets].any fun quotes =>
      name.head? == some quotes.opening && name.getLast? == some quotes.closing

/-- The quotes that `quote_table_identifier` writes around a name. -/
def tableIdentifierQuotes : Option DatabaseType → Quotes
  | some .mysql | some .clickHouse | some .doris | some .goldendb | some .starRocks
  | some .manticoreSearch | some .hive | some .kyuubi | some .impala | some .argo | some .spark
  | some .databricks | some .databend | some .tdengine | some .access | some .bigquery
  | some .spanner | some .questdb | some .neo4j => backticks
  | some .sqlServer => brackets
  | _ => doubleQuotes

def quoteTableIdentifier (databaseType : Option DatabaseType) (name : Str) : Str :=
  if (databaseType == some .gaussdb || databaseType == some .openGauss) &&
      isExplicitlyQuotedIdentifier name then name
  else match databaseType with
    -- The quotes of IoTDB and JDBC names are left to the server's agent.
    | some .iotdb | some .jdbc => name
    | some .informix =>
      if isSimpleInformixIdentifier name then name
      else enclose (tableIdentifierQuotes databaseType) name
    | _ => enclose (tableIdentifierQuotes databaseType) name

def sqlserverLinkedSchemaPrefix : Str := "__dbx_sqlserver_linked__:".toList

structure SqlServerLinkedSchemaRef where
  server : Str
  catalog : Str
  schema : Str
  deriving DecidableEq, Repr

section

variable (percentDecode : Str → Option Str)

def parseSqlserverLinkedSchemaRef (schema : Str) : Option SqlServerLinkedSchemaRef :=
  if sqlserverLinkedSchemaPrefix.isPrefixOf schema then
    match (schema.drop sqlserverLinkedSchemaPrefix.length).splitOn '|' with
    | [first, second, third] => do
      let server ← percentDecode first
      let catalog ← percentDecode second
      let schema ← percentDecode third
      if (trim server).isEmpty || (trim catalog).isEmpty || (trim schema).isEmpty then none
      else some ⟨server, catalog, schema⟩
    | _ => none
  else none

def sqlserverLinkedTableName (linked : SqlServerLinkedSchemaRef) (tableName : Str) : Str :=
  joinWith ['.'] ([linked.server, linked.catalog, linked.schema, tableName].map
    (quoteTableIdentifier (some .sqlServer)))

def supportsQualifier (databaseType : Option DatabaseType) : Bool :=
  databaseType.any DatabaseType.isSchemaAware || databaseType == some .mysql ||
    databaseType == some .goldendb || databaseType == some .starRocks ||
    databaseType == some .doris

/-- `map(str::trim).filter(|text| !text.is_empty())`. -/
def trimmedText (text : Option Str) : Option Str :=
  (text.map trim).filter fun text => !text.isEmpty

def qualifiedTableName (databaseType : Option DatabaseType) (schema : Option Str)
    (tableName : Str) : Str :=
  if databaseType == some .iotdb then
    let tableName := quoteTableIdentifier databaseType tableName
    match trimmedText schema with
    | some schema =>
      if tableName == schema || (schema ++ ['.']).isPrefixOf tableName then tableName
      else quoteTableIdentifier databaseType schema ++ '.' :: tableName
    | none => tableName
  else
    match schema with
    | some schema =>
      if supportsQualifier databaseType && databaseType != some .jdbc && !(trim schema).isEmpty then
        match (if databaseType == some .sqlServer then
            parseSqlserverLinkedSchemaRef percentDecode schema else none) with
        | some linked => sqlserverLinkedTableName linked tableName
        | none =>
          quoteTableIdentifier databaseType schema ++
            '.' :: quoteTableIdentifier databaseType tableName
      else quoteTableIdentifier databaseType tableName
    | none => quoteTableIdentifier databaseType tableName

/-- The name with a catalog in front: the database of SQL Server, an external catalog of
Doris and StarRocks. -/
def qualifiedTableNameWithCatalog (databaseType : Option DatabaseType)
    (catalog schema database : Option Str) (tableName : Str) : Str :=
  match trimmedText catalog with
  | none => qualifiedTableName percentDecode databaseType schema tableName
  | some catalog =>
    if databaseType == some .sqlServer then
      quoteTableIdentifier databaseType catalog ++
        '.' :: qualifiedTableName percentDecode databaseType schema tableName
    else if (databaseType == some .doris || databaseType == some .starRocks) &&
        catalog != "internal".toList then
      let table := match (trimmedText schema).orElse fun _ => trimmedText database with
        | some middle =>
          quoteTableIdentifier databaseType middle ++
            '.' :: quoteTableIdentifier databaseType tableName
        | none => quoteTableIdentifier databaseType tableName
      quoteTableIdentifier databaseType catalog ++ '.' :: table
    else qualifiedTableName percentDecode databaseType schema tableName

end

end Dbx.Source
