import Dbx.Source.ConnectionStore

/-!
# Snapshots for synchronisation

Model of `build_sync_snapshot` and `apply_sync_snapshot` with what they call
(`crates/dbx-core/src/cloud_sync.rs:30-47`, `243-346`, `837-986`, `996-1271`). A snapshot has
the connections without their secrets; the secrets stand in a payload, encrypted with a
passphrase.

Encryption and the (de)serialisation of MQTT subscriptions are parameters. The time of a
snapshot, its schema version (always the current one here) and the version of the program
are left out, as is the single AI configuration of older payloads. A run that fails gives
its error only: the storage it leaves is not modelled.
-/
namespace Dbx.Source.CloudSync

open Dbx.Lib.Text Dbx.Source.ConnectionStore

variable {Rest Ai Other Blob : Type}

/-! ## Scrubbing -/

/-- An MQTT password is replaced, or added if there was none. -/
def scrubMqttAuth (external : Option Json) : Option Json :=
  if authKind authName external = some passwordField then
    updateSection authName (insertMember passwordField (.string [])) external
  else external

section

variable (config : ConnectionConfig Rest)

def scrubMqttAuthSecrets : ConnectionConfig Rest :=
  if config.dbType = .mqtt then
    { config with externalConfig := scrubMqttAuth config.externalConfig }
  else config

def scrubMqExternalConfigSecrets : ConnectionConfig Rest :=
  if config.dbType = .messageQueue then
    { config with externalConfig := scrubMqTokenSigning (scrubMqAuth config.externalConfig) }
  else config

/-- The fields outside the external configuration. -/
def scrubFields : ConnectionConfig Rest :=
  { config with
    password := []
    transportLayers := config.transportLayers.map TransportLayerConfig.scrubSecrets
    redisSentinelPassword := []
    connectionString := none
    initScript := none }

def scrubConnectionSecrets : ConnectionConfig Rest :=
  scrubNacosAuthSecrets (scrubMqExternalConfigSecrets (scrubMqttAuthSecrets (scrubFields config)))

end

/-! ## MQTT subscriptions -/

structure MqttSubscriptionSyncTopic where
  topic : Str
  qos : Str
  noLocal : Bool
  enabled : Bool
  deriving DecidableEq, Repr

structure MqttSubscriptionSyncEntry where
  connectionId : Str
  subscriptions : List MqttSubscriptionSyncTopic
  deriving DecidableEq, Repr

def validSegments : List Str → Bool
  | [] => true
  | segment :: rest =>
    (if segment = ['#'] then rest.isEmpty
      else !segment.contains '#' && (!segment.contains '+' || segment == ['+'])) &&
    validSegments rest

def validMqttFilter (topic : Str) : Bool :=
  !topic.isEmpty && !topic.any isWhitespace && validSegments (topic.splitOn '/')

def qosNames : List Str := ["atmostonce".toList, "atleastonce".toList, "exactlyonce".toList]

def validateTopics (id protocol : Str) (seen : List Str) :
    List MqttSubscriptionSyncTopic → Except Str Unit
  | [] => .ok ()
  | subscription :: rest =>
    if validMqttFilter subscription.topic = false then
      .error ("MQTT 连接 ".toList ++ id ++ " 包含无效 Topic Filter: ".toList ++ subscription.topic)
    else if seen.contains subscription.topic then
      .error ("MQTT 连接 ".toList ++ id ++ " 包含重复 Topic Filter: ".toList ++ subscription.topic)
    else if !qosNames.contains subscription.qos then
      .error ("MQTT 连接 ".toList ++ id ++ " 包含无效 QoS: ".toList ++ subscription.qos)
    else if subscription.noLocal ∧ protocol ≠ "v5".toList then
      .error ("MQTT 连接 ".toList ++ id ++ " 使用了 MQTT 3.x 不支持的 No Local".toList)
    else validateTopics id protocol (subscription.topic :: seen) rest

def savedTopicsName : Str := "savedTopics".toList

def validateMqttSubscriptions (config : ConnectionConfig Rest)
    (subscriptions : List MqttSubscriptionSyncTopic) : Except Str Unit :=
  let protocol := ((config.externalConfig.bind (getMember "protocolVersion".toList)).bind
    Json.asStr).getD "v5".toList
  validateTopics config.id protocol [] subscriptions

section Subscriptions

variable (parseTopics : Json → Except Str (List MqttSubscriptionSyncTopic))
  (topicsJson : List MqttSubscriptionSyncTopic → Json)

def extractMqttSubscriptions : List (ConnectionConfig Rest) →
    Except Str (List MqttSubscriptionSyncEntry)
  | [] => .ok []
  | config :: configs =>
    if config.dbType = .mqtt then
      let saved := (config.externalConfig.bind (getMember savedTopicsName)).getD (.array [])
      match parseTopics saved with
      | .error e => .error ("Invalid MQTT subscriptions for connection ".toList ++ config.id ++
          ": ".toList ++ e)
      | .ok subscriptions =>
        (validateMqttSubscriptions config subscriptions).bind fun _ =>
        (extractMqttSubscriptions configs).bind fun entries =>
        .ok (⟨config.id, subscriptions⟩ :: entries)
    else extractMqttSubscriptions configs

/-- The subscriptions of one entry, on its connection. -/
def applySubscriptions (entry : MqttSubscriptionSyncEntry) (config : ConnectionConfig Rest) :
    Except Str (ConnectionConfig Rest) :=
  if config.dbType ≠ .mqtt then
    .error ("同步连接 ".toList ++ entry.connectionId ++ " 不是 MQTT 连接".toList)
  else
    (validateMqttSubscriptions config entry.subscriptions).bind fun _ =>
    match config.externalConfig.getD (.object []) with
    | .object members =>
      let topics := topicsJson entry.subscriptions
      .ok { config with externalConfig := some (.object (insertMember savedTopicsName topics members)) }
    | _ => .error ("MQTT 连接 ".toList ++ entry.connectionId ++
        " 的 externalConfig 必须是 JSON 对象".toList)

/-- `find` and the change of what was found. -/
def applyEntry (entry : MqttSubscriptionSyncEntry) : List (ConnectionConfig Rest) →
    Except Str (List (ConnectionConfig Rest))
  | [] => .error ("MQTT 同步配置引用了不存在的连接: ".toList ++ entry.connectionId)
  | config :: configs =>
    if config.id = entry.connectionId then
      (applySubscriptions topicsJson entry config).bind fun config => .ok (config :: configs)
    else (applyEntry entry configs).bind fun configs => .ok (config :: configs)

def applyMqttSubscriptions (seen : List Str) : List MqttSubscriptionSyncEntry →
    List (ConnectionConfig Rest) → Except Str (List (ConnectionConfig Rest))
  | [], configs => .ok configs
  | entry :: entries, configs =>
    if seen.contains entry.connectionId then
      .error ("重复的 MQTT 同步连接 ID: ".toList ++ entry.connectionId)
    else
      (applyEntry topicsJson entry configs).bind fun configs =>
      applyMqttSubscriptions (entry.connectionId :: seen) entries configs

end Subscriptions

/-- For a snapshot without subscriptions, those of this device are kept. -/
def preserveLocalSubscriptions (locals : List (ConnectionConfig Rest))
    (config : ConnectionConfig Rest) : ConnectionConfig Rest :=
  if config.dbType = .mqtt then
    match (locals.find? fun other => other.id == config.id).bind fun other =>
        other.externalConfig.bind (getMember savedTopicsName) with
    | none => config
    | some topics =>
      match config.externalConfig.getD (.object []) with
      | .object members =>
        { config with externalConfig := some (.object (insertMember savedTopicsName topics members)) }
      | _ => { config with externalConfig := some (.object [(savedTopicsName, topics)]) }
  else config

/-! ## The sensitive payload -/

structure ConnectionSecretSnapshot where
  connectionId : Str
  key : Str
  secret : Str
  deriving DecidableEq, Repr

structure SensitiveSyncPayload (Rest Ai : Type) where
  connectionSecrets : List ConnectionSecretSnapshot
  aiConfigs : Option Ai
  tunnelProfiles : Option (List (TransportLayerConfig Rest))

/-- `push_secret`: an empty secret is not pushed. -/
def pushSecret (id key secret : Str) : List ConnectionSecretSnapshot :=
  if secret.isEmpty then [] else [⟨id, key, secret⟩]

def pushLayerSecrets (id : Str) (index : Nat) :
    TransportLayerConfig Rest → List ConnectionSecretSnapshot
  | .ssh layer =>
    pushSecret id (transportLayerSshPasswordKey index layer.id) layer.password ++
      pushSecret id (transportLayerSshKeyPassphraseKey index layer.id) layer.keyPassphrase
  | .proxy layer => pushSecret id (transportLayerProxyPasswordKey index layer.id) layer.password
  | .httpTunnel layer => pushSecret id (transportLayerHttpTunnelTokenKey index layer.id) layer.token

/-- `push_json_secret`, on the object under a name. -/
def pushSectionSecret (id key name field : Str) (external : Option Json) :
    List ConnectionSecretSnapshot :=
  pushSecret id key (((sectionOf name external).bind (textAt field)).getD [])

/-- The kind alone decides here, not the type of the database. -/
def pushMqExternalConfigSecrets (config : ConnectionConfig Rest) : List ConnectionSecretSnapshot :=
  (match mqAuthSecret (authKind authName config.externalConfig) with
    | some (key, field) => pushSectionSecret config.id key authName field config.externalConfig
    | none => []) ++
  pushSectionSecret config.id mqTokenSigningKey tokenSigningName signingField config.externalConfig

def pushNacosLogin (id name key : Str) (external : Option Json) : List ConnectionSecretSnapshot :=
  if authKind name external = some usernamePassword then
    pushSectionSecret id key name passwordField external
  else []

def pushNacosExternalConfigSecrets (config : ConnectionConfig Rest) :
    List ConnectionSecretSnapshot :=
  if config.dbType = .nacos then
    pushNacosLogin config.id authName nacosAuthPasswordKey config.externalConfig ++
      pushNacosLogin config.id rnacosConsoleAuthName nacosRnacosConsolePasswordKey
        config.externalConfig
  else []

def connectionSecrets (config : ConnectionConfig Rest) : List ConnectionSecretSnapshot :=
  (if config.savePassword then pushSecret config.id "password".toList config.password else []) ++
  pushSecret config.id "init_script".toList (config.initScript.getD []) ++
  (config.transportLayers.mapIdx (pushLayerSecrets config.id)).flatten ++
  pushSecret config.id "redis_sentinel_password".toList config.redisSentinelPassword ++
  pushSecret config.id "connection_string".toList (config.connectionString.getD []) ++
  pushMqExternalConfigSecrets config ++
  (if config.savePassword then pushNacosExternalConfigSecrets config else [])

def buildSensitivePayload (aiConfigs : Ai) (connections : List (ConnectionConfig Rest))
    (tunnelProfiles : List (TransportLayerConfig Rest)) : SensitiveSyncPayload Rest Ai :=
  ⟨connections.flatMap connectionSecrets, some aiConfigs, some tunnelProfiles⟩

def secretKeys : List Str :=
  ["password".toList, "ssh_password".toList, "ssh_key_passphrase".toList, "proxy_password".toList,
    "redis_sentinel_password".toList, "connection_string".toList, "init_script".toList,
    mqAuthTokenKey, mqAuthPasswordKey, mqAuthApiKeyValueKey, mqAuthClientSecretKey,
    mqTokenSigningKey, nacosAuthPasswordKey, nacosRnacosConsolePasswordKey]

def layerKeys (index : Nat) : TransportLayerConfig Rest → List Str
  | .ssh layer =>
    [transportLayerSshPasswordKey index layer.id, transportLayerSshKeyPassphraseKey index layer.id]
  | .proxy layer => [transportLayerProxyPasswordKey index layer.id]
  | .httpTunnel layer => [transportLayerHttpTunnelTokenKey index layer.id]

def clearConnectionSecrets (connections : List (ConnectionConfig Rest)) (secrets : Secrets) :
    Secrets :=
  connections.foldl (fun secrets config =>
    (secretKeys ++ (config.transportLayers.mapIdx layerKeys).flatten).foldl
      (fun secrets key => deleteSecret config.id key secrets) secrets) secrets

/-- A secret that is applied: its key is known, and the connection still saves passwords. -/
def isApplied (connections : List (ConnectionConfig Rest)) (secret : ConnectionSecretSnapshot) :
    Bool :=
  (secretKeys.contains secret.key || "ssh_tunnels.".toList.isPrefixOf secret.key ||
    "transport_layers.".toList.isPrefixOf secret.key) &&
  !([("password".toList), nacosAuthPasswordKey, nacosRnacosConsolePasswordKey].contains secret.key &&
    connections.any fun config => config.id == secret.connectionId && !config.savePassword)

def applyConnectionSecrets (connections : List (ConnectionConfig Rest))
    (pushed : List ConnectionSecretSnapshot) (secrets : Secrets) : Secrets :=
  pushed.foldl (fun secrets secret =>
    if isApplied connections secret then
      setSecret secret.connectionId secret.key secret.secret secrets
    else secrets) secrets

def applySensitivePayload (payload : SensitiveSyncPayload Rest Ai)
    (connections : List (ConnectionConfig Rest)) (storage : Storage Rest Ai Other) :
    Except Str (Storage Rest Ai Other) :=
  let storage := { storage with
    secrets := applyConnectionSecrets connections payload.connectionSecrets storage.secrets
    aiConfigs := payload.aiConfigs.getD storage.aiConfigs }
  match payload.tunnelProfiles with
  | some profiles => saveTunnelProfiles profiles storage
  | none => .ok storage

/-! ## Snapshots -/

structure SyncSnapshot (Rest Other Blob : Type) where
  connections : List (ConnectionConfig Rest)
  mqttSubscriptions : Option (List MqttSubscriptionSyncEntry)
  tunnelProfiles : Option (List (TransportLayerConfig Rest))
  other : Other
  editorSettings : Option Json
  encryptedSecrets : Option Blob

structure ApplySnapshotOptions where
  restoreSecrets : Bool
  secretsPassphrase : Option Str

def normalizedPassphrase (passphrase : Option Str) : Option Str :=
  nonEmpty (passphrase.map trim)

section Snapshots

variable (percentDecode : Str → Str)
  (parseTopics : Json → Except Str (List MqttSubscriptionSyncTopic))
  (topicsJson : List MqttSubscriptionSyncTopic → Json)
  (encrypt : SensitiveSyncPayload Rest Ai → Str → Blob)
  (decrypt : Blob → Str → Except Str (SensitiveSyncPayload Rest Ai))

/-- The snapshot, and the storage that loading the connections leaves. -/
def buildSyncSnapshot (editorSettings : Option Json) (secretsPassphrase : Option Str)
    (storage : Storage Rest Ai Other) :
    Except Str (SyncSnapshot Rest Other Blob) × Storage Rest Ai Other :=
  let (connections, loaded) := loadConnections percentDecode storage
  let encryptedSecrets := (normalizedPassphrase secretsPassphrase).map fun passphrase =>
    encrypt (buildSensitivePayload loaded.aiConfigs connections loaded.tunnelProfiles) passphrase
  ((extractMqttSubscriptions parseTopics connections).map fun mqttSubscriptions =>
    { connections := connections.map scrubConnectionSecrets
      mqttSubscriptions := some mqttSubscriptions
      tunnelProfiles := some (loaded.tunnelProfiles.map TransportLayerConfig.scrubSecrets)
      other := loaded.other
      editorSettings := editorSettings
      encryptedSecrets := encryptedSecrets }, loaded)

/-- The payload that is restored, if any. -/
def sensitivePayload (snapshot : SyncSnapshot Rest Other Blob) (options : ApplySnapshotOptions) :
    Except Str (Option (SensitiveSyncPayload Rest Ai)) :=
  if options.restoreSecrets then
    match snapshot.encryptedSecrets, normalizedPassphrase options.secretsPassphrase with
    | some blob, some passphrase => (decrypt blob passphrase).map some
    | some _, none => .error "A sync password is required to restore synced secrets.".toList
    | none, _ => .ok none
  else .ok none

/-- The connections of a snapshot with their subscriptions, and the storage afterwards: for an
old snapshot the connections are loaded. -/
def connectionsToApply (snapshot : SyncSnapshot Rest Other Blob) (storage : Storage Rest Ai Other) :
    Except Str (List (ConnectionConfig Rest) × Storage Rest Ai Other) :=
  match snapshot.mqttSubscriptions with
  | some entries =>
    (applyMqttSubscriptions topicsJson [] entries snapshot.connections).map fun connections =>
      (connections, storage)
  | none =>
    let (locals, loaded) := loadConnections percentDecode storage
    .ok (snapshot.connections.map (preserveLocalSubscriptions locals), loaded)

def restoreSecrets (payload : Option (SensitiveSyncPayload Rest Ai))
    (connections : List (ConnectionConfig Rest)) (storage : Storage Rest Ai Other) :
    Except Str (Storage Rest Ai Other) :=
  match payload with
  | none => .ok storage
  | some payload =>
    applySensitivePayload payload connections
      { storage with secrets := clearConnectionSecrets connections storage.secrets }

def applySyncSnapshot (snapshot : SyncSnapshot Rest Other Blob) (options : ApplySnapshotOptions)
    (storage : Storage Rest Ai Other) : Except Str (Storage Rest Ai Other) :=
  (sensitivePayload decrypt snapshot options).bind fun payload =>
  (connectionsToApply percentDecode topicsJson snapshot storage).bind fun (applied, storage) =>
  let connections := applied.map scrubConnectionSecrets
  (saveConnectionMetadataPreservingSecrets percentDecode connections storage).bind fun storage =>
  (match snapshot.tunnelProfiles with
    | some profiles => saveTunnelProfilesPreservingSecrets profiles storage
    | none => .ok storage).bind fun storage =>
  restoreSecrets payload connections { storage with other := snapshot.other }

end Snapshots

end Dbx.Source.CloudSync
