/-!
# Database types

The connection kinds of `DatabaseType`, which the build script of `dbx-core`
generates from the connection plugins, and the groups of them that
`crates/dbx-core/src/sql.rs:207-229` and
`crates/dbx-core/src/query_execution_sql.rs:381-407` test for.
-/
namespace Dbx.Source

inductive DatabaseType where
  | mysql | postgres | sqlite | rqlite | turso | cloudflareD1 | redis | duckDb | clickHouse
  | sqlServer | mongoDb | dynamoDb | oracle | elasticsearch | easysearch | meilisearch | hbase
  | qdrant | chromaDb | milvus | weaviate | doris | starRocks | manticoreSearch | redshift
  | dameng | kingbase | highgo | uxdb | vastbase | goldendb | databend | gaussdb | kwdb
  | yashandb | databricks | sapHana | teradata | vertica | firebird | exasol | openGauss
  | questdb | oceanbaseOracle | gbase | access | h2 | snowflake | trino | prestoSql | hive
  | argo | kyuubi | impala | db2 | informix | neo4j | cassandra | bigquery | spanner | kylin
  | ignite | ignite3 | sundb | oscar | tdengine | xugu | etcd | zooKeeper | nacos | consul
  | messageQueue | mqtt | iotdb | iris | influxDb | influxDb3 | victoriaMetrics | jdbc | spark
  deriving DecidableEq, Repr

namespace DatabaseType

def isMysqlCompatible : DatabaseType → Bool
  | mysql | doris | starRocks | manticoreSearch | goldendb => true
  | _ => false

def isOracleLike : DatabaseType → Bool
  | oracle | dameng | gaussdb | yashandb | oscar | oceanbaseOracle | xugu => true
  | _ => false

def isPostgresqlFamily : DatabaseType → Bool
  | postgres | redshift | gaussdb | openGauss | kingbase | highgo | uxdb | vastbase | kwdb => true
  | _ => false

end DatabaseType

end Dbx.Source
