import Dbx.Guarantees.ExternalSecrets

/-!
# Snapshots show no secrets

`build_sync_snapshot` (`crates/dbx-core/src/cloud_sync.rs:243-280`) gives the same snapshot,
apart from the encrypted part, for storages that differ in the values of secrets only. The
exception is a MongoDB connection string: whether it selects OIDC decides the driver profile
and label that `canonicalized` (`models/connection.rs:985-991`) writes into the
configuration, and these are part of the snapshot.
-/
namespace Dbx.Guarantees.SnapshotSecrecy

open Dbx.Lib.Text Dbx.Source Dbx.Source.ConnectionStore Dbx.Source.CloudSync List
open Dbx.Guarantees.ExternalSecrets

variable {Rest Ai Other Blob : Type}

/-! ## Storages that differ in secrets -/

/-- A configuration with every secret emptied. -/
def withoutSecrets (config : ConnectionConfig Rest) : ConnectionConfig Rest :=
  { config with
    password := []
    transportLayers := config.transportLayers.map TransportLayerConfig.scrubSecrets
    redisSentinelPassword := []
    connectionString := none
    initScript := none
    externalConfig :=
      scrubAll (secretPlaces config.dbType config.externalConfig) config.externalConfig }

/-- The field at a place has a text that is not empty. -/
def holds (place : Place) (external : Option Json) : Bool :=
  (nonEmpty ((sectionOf place.name external).bind (textAt place.field))).isSome

structure SameConfig (a b : ConnectionConfig Rest) : Prop where
  plain : withoutSecrets a = withoutSecrets b
  /-- The secrets that are in the JSON are the same ones. -/
  held : ∀ place ∈ secretPlaces a.dbType a.externalConfig,
    holds place a.externalConfig = holds place b.externalConfig

inductive SameRow : Row Rest → Row Rest → Prop where
  | readable {a b : ConnectionConfig Rest} (same : SameConfig a b) :
    SameRow (.readable a) (.readable b)
  | unreadable (id text : Str) : SameRow (.unreadable id text) (.unreadable id text)

/-- The same secrets exist. -/
def SamePresence (s t : Secrets) : Prop := ∀ id key, (s id key).isSome = (t id key).isSome

/-- Two storages that differ in the values of secrets. -/
structure SameButSecrets (s t : Storage Rest Ai Other) : Prop where
  rows : List.Forall₂ SameRow s.rows t.rows
  secrets : SamePresence s.secrets t.secrets
  profiles : s.tunnelProfiles.map TransportLayerConfig.scrubSecrets =
    t.tunnelProfiles.map TransportLayerConfig.scrubSecrets
  other : s.other = t.other

/-! ## Hydration -/

theorem hydrateSection_isSome (id name key field : Str) (h : Hydration) (i k : Str) :
    ((hydrateSection id name key field h).secrets i k).isSome =
      ((h.secrets i k).isSome ||
        (holds ⟨key, name, field⟩ h.external && decide (i = id ∧ k = key))) := by
  unfold hydrateSection holds
  cases sectionOf name h.external with
  | none => simp [nonEmpty]
  | some members =>
    simp only [Option.bind_some]
    cases nonEmpty (textAt field members) with
    | some secret =>
      by_cases here : i = id ∧ k = key <;> simp [setSecret, here]
    | none =>
      cases h.secrets id key <;> simp

theorem holds_hydrateSection_ne {place other : Place} (different : other.name ≠ place.name)
    (id : Str) (h : Hydration) :
    holds other (hydrateSection id place.name place.key place.field h).external =
      holds other h.external := by
  unfold holds
  rw [sectionOf_hydrateSection_ne different]

theorem SamePresence.hydrateAll {places : List Place} (apart : Apart places) (id : Str)
    {h h' : Hydration} (same : SamePresence h.secrets h'.secrets)
    (held : ∀ place ∈ places, holds place h.external = holds place h'.external) :
    SamePresence (hydrateAll id places h).secrets (hydrateAll id places h').secrets := by
  induction places generalizing h h' with
  | nil => exact same
  | cons place places ih =>
    have fresh := (nodup_cons.mp apart.names).1
    apply ih apart.tail
    · intro i k
      rw [hydrateSection_isSome, hydrateSection_isSome, same i k,
        held place mem_cons_self]
    intro other member
    have different : other.name ≠ place.name :=
      fun equal => fresh (equal ▸ mem_map_of_mem member)
    rw [holds_hydrateSection_ne different, holds_hydrateSection_ne different]
    exact held other (mem_cons_of_mem _ member)

variable {s t : Secrets}

theorem SamePresence.deletePrefix (same : SamePresence s t) (id start : Str) :
    SamePresence (deleteSecretPrefix id start s) (deleteSecretPrefix id start t) := by
  intro i k
  unfold deleteSecretPrefix
  split
  · rfl
  · exact same i k

theorem revealAll_same (same : SamePresence s t) {id : Str} {places : List Place}
    {external : Option Json} :
    revealAll (fun key => (s id key).isSome) places external =
      revealAll (fun key => (t id key).isSome) places external :=
  revealAll_congr (fun place _ => same id place.key) external

/-! ## Scrubbed configurations -/

/-- The scrubbing of the external configuration, by the type of the database. -/
def scrubExternal (dbType : DatabaseType) (external : Option Json) : Option Json :=
  match dbType with
  | .mqtt => scrubMqttAuth external
  | .messageQueue => scrubAll (mqPlaces external) external
  | .nacos => scrubAll (nacosPlaces external) external
  | _ => external

theorem scrubConnectionSecrets_eq (config : ConnectionConfig Rest) : scrubConnectionSecrets config =
      { scrubFields config with
        externalConfig := scrubExternal config.dbType config.externalConfig } := by
  unfold scrubConnectionSecrets scrubMqttAuthSecrets scrubMqExternalConfigSecrets
    scrubNacosAuthSecrets scrubExternal
  by_cases mqtt : config.dbType = .mqtt
  · simp [scrubFields, mqtt]
  by_cases mq : config.dbType = .messageQueue
  · simp [scrubFields, mq, scrubMq_eq]
  · by_cases nacos : config.dbType = .nacos
    · simp [scrubFields, nacos, scrubNacosAuth_eq]
    · simp [scrubFields, mqtt, mq, nacos]

variable {config : ConnectionConfig Rest}

theorem scrubExternal_stored (stored : Stored config) (external : Option Json) :
    scrubExternal config.dbType external =
      scrubAll (secretPlaces config.dbType external) external := by
  obtain mq | nacos := stored
  · rw [mq]
    rfl
  · rw [nacos.1]
    rfl

/-! ## Two configurations side by side -/

theorem secretPlaces_apart {dbType : DatabaseType} {external : Option Json} :
    Apart (secretPlaces dbType external) := by
  unfold secretPlaces
  split
  · exact mqPlaces_apart external
  · exact nacosPlaces_apart external
  · unfold mqttPlaces
    split
    · exact ⟨nodup_singleton _, nodup_singleton _,
        fun place member => mem_singleton.mp member ▸ by decide⟩
    · exact ⟨nodup_nil, nodup_nil, nofun⟩
  · exact ⟨nodup_nil, nodup_nil, nofun⟩

theorem secretPlaces_congr {e e' : Option Json}
    (kinds : ∀ name, name ≠ savedTopicsName → authKind name e = authKind name e')
    {dbType : DatabaseType} : secretPlaces dbType e = secretPlaces dbType e' := by
  unfold secretPlaces mqPlaces nacosPlaces loginPlaces mqttPlaces
  rw [kinds authName (by decide), kinds rnacosConsoleAuthName (by decide)]

theorem secretPlaces_other {dbType : DatabaseType} (mq : dbType ≠ .messageQueue)
    (nacos : dbType ≠ .nacos) (mqtt : dbType ≠ .mqtt) (external : Option Json) :
    secretPlaces dbType external = [] := by
  unfold secretPlaces
  split
  · exact absurd rfl mq
  · exact absurd rfl nacos
  · exact absurd rfl mqtt
  · rfl

section Pair

variable {a b : ConnectionConfig Rest}

section

variable (same : SameConfig a b)
include same

theorem SameConfig.id : a.id = b.id :=
  (congrArg ConnectionConfig.id same.plain :)

theorem SameConfig.dbType : a.dbType = b.dbType :=
  (congrArg ConnectionConfig.dbType same.plain :)

theorem SameConfig.savePassword : a.savePassword = b.savePassword :=
  (congrArg ConnectionConfig.savePassword same.plain :)

theorem SameConfig.erased : scrubAll (secretPlaces a.dbType a.externalConfig) a.externalConfig =
      scrubAll (secretPlaces b.dbType b.externalConfig) b.externalConfig :=
  congrArg ConnectionConfig.externalConfig same.plain

theorem SameConfig.kinds (name : Str) :
    authKind name a.externalConfig = authKind name b.externalConfig := by
  rw [← authKind_scrubAll secretPlaces_apart, same.erased,
    authKind_scrubAll secretPlaces_apart]

theorem SameConfig.places (dbType : DatabaseType) :
    secretPlaces dbType a.externalConfig = secretPlaces dbType b.externalConfig :=
  secretPlaces_congr (fun name _ => same.kinds name)

/-- What is left of the places of a type after hydration and scrubbing. -/
theorem scrubbed_places_same (presence : SamePresence s t) :
    scrubAll (secretPlaces a.dbType a.externalConfig)
        (hydrateAll a.id (secretPlaces a.dbType a.externalConfig)
          ⟨s, a.externalConfig, false⟩).external =
      scrubAll (secretPlaces b.dbType b.externalConfig)
        (hydrateAll b.id (secretPlaces b.dbType b.externalConfig)
          ⟨t, b.externalConfig, false⟩).external := by
  rw [scrubAll_hydrateAll secretPlaces_apart, scrubAll_hydrateAll secretPlaces_apart,
    same.erased, same.id, same.places, same.dbType]
  exact revealAll_same presence

end

/-- The kinds, and so the places, are those of the row. -/
theorem secretPlaces_hydrateAll {secrets : Secrets} {dbType : DatabaseType} :
    secretPlaces dbType (hydrateAll config.id (secretPlaces config.dbType config.externalConfig)
        ⟨secrets, config.externalConfig, false⟩).external =
      secretPlaces dbType config.externalConfig :=
  secretPlaces_congr
    (fun name _ => authKind_hydrateAll secretPlaces_apart config.id name _)

theorem mqtt_same (same : SameConfig a b) (mqtt : a.dbType = .mqtt) :
    scrubMqttAuth a.externalConfig = scrubMqttAuth b.externalConfig := by
  have erased := same.erased
  rw [← same.dbType, mqtt] at erased
  unfold secretPlaces mqttPlaces at erased
  unfold scrubMqttAuth
  rw [← same.kinds authName] at erased ⊢
  split
  · rename_i password
    rw [if_pos password] at erased
    have inserted : ∀ external, updateSection authName (insertMember passwordField (.string []))
          (updateSection authName (scrubJsonSecret passwordField) external) =
        updateSection authName (insertMember passwordField (.string [])) external := by
      intro external
      rw [updateSection_updateSection]
      simp only [insertMember_scrubJsonSecret]
    rw [← inserted a.externalConfig, ← inserted b.externalConfig]
    exact congrArg _ erased
  · rename_i other
    rw [if_neg other] at erased
    exact erased

theorem SameConfig.stored (same : SameConfig a b) (stored : Stored a) : Stored b := by
  unfold Stored
  rw [← same.dbType, ← same.savePassword]
  exact stored

/-- The external configurations of the snapshot are the same, and so are the rows that exist. -/
theorem external_same (same : SameConfig a b) (presence : SamePresence s t) :
    scrubExternal a.dbType (hydrateExternal a s).external =
        scrubExternal b.dbType (hydrateExternal b t).external ∧
      SamePresence (hydrateExternal a s).secrets (hydrateExternal b t).secrets := by
  have erased := same.erased
  rcases stored_cases a with stored | ⟨nacos, forgets⟩ | ⟨mq, nacos⟩
  · have stored' := same.stored stored
    rw [hydrateExternal_stored stored, hydrateExternal_stored stored', scrubExternal_stored stored,
      scrubExternal_stored stored', secretPlaces_hydrateAll, secretPlaces_hydrateAll]
    apply And.intro (scrubbed_places_same same presence)
    rw [← same.id, ← same.dbType, ← same.places a.dbType]
    exact SamePresence.hydrateAll secretPlaces_apart a.id presence same.held
  · have nacos' := same.dbType ▸ nacos
    have forgotA := hydrateExternal_forgetting nacos forgets s
    have forgotB := hydrateExternal_forgetting nacos' (same.savePassword ▸ forgets) t
    rw [nacos, nacos'] at erased
    have equal : (hydrateExternal a s).external = (hydrateExternal b t).external := by
      rw [forgotA.1, forgotB.1]
      exact erased
    rw [equal, same.dbType, forgotA.2, forgotB.2, same.id]
    exact ⟨rfl, presence.deletePrefix b.id nacosAuthSecretPrefix⟩
  · have mq' := same.dbType ▸ mq
    have nacos' := same.dbType ▸ nacos
    rw [hydrateExternal_other mq nacos, hydrateExternal_other mq' nacos']
    apply And.intro _ presence
    by_cases mqtt : a.dbType = .mqtt
    · rw [← same.dbType, mqtt]
      exact mqtt_same same mqtt
    have mqtt' := same.dbType ▸ mqtt
    rw [secretPlaces_other mq nacos mqtt, secretPlaces_other mq' nacos' mqtt'] at erased
    have equal : a.externalConfig = b.externalConfig := erased
    rw [← same.dbType, equal]

end Pair

/-! ## The canonical form -/

/-- `canonicalized`, given whether the connection uses OIDC. -/
def canonicalize (oidc : Bool) (config : ConnectionConfig Rest) : ConnectionConfig Rest :=
  canonicalizeTdengine (canonicalizeSqlServer (if oidc then canonicalizeOidc config else config))

theorem scrub_canonicalizeOidc :
    scrubConnectionSecrets (canonicalizeOidc config) =
      canonicalizeOidc (scrubConnectionSecrets config) := by
  rw [scrubConnectionSecrets_eq, scrubConnectionSecrets_eq]
  rfl

theorem scrub_canonicalizeSqlServer (config : ConnectionConfig Rest) :
    scrubConnectionSecrets (canonicalizeSqlServer config) =
      canonicalizeSqlServer (scrubConnectionSecrets config) := by
  rw [scrubConnectionSecrets_eq, scrubConnectionSecrets_eq]
  unfold canonicalizeSqlServer scrubFields
  dsimp only
  split <;> rfl

theorem scrub_canonicalizeTdengine (config : ConnectionConfig Rest) :
    scrubConnectionSecrets (canonicalizeTdengine config) =
      canonicalizeTdengine (scrubConnectionSecrets config) := by
  rw [scrubConnectionSecrets_eq, scrubConnectionSecrets_eq]
  unfold canonicalizeTdengine scrubFields
  dsimp only
  split
  · rename_i tdengine
    rw [tdengine.1]
    rfl
  · rfl

theorem scrub_canonicalize (oidc : Bool) (config : ConnectionConfig Rest) :
    scrubConnectionSecrets (canonicalize oidc config) =
      canonicalize oidc (scrubConnectionSecrets config) := by
  unfold canonicalize
  rw [scrub_canonicalizeTdengine, scrub_canonicalizeSqlServer]
  cases oidc with
  | true => exact congrArg _ (congrArg _ scrub_canonicalizeOidc)
  | false => rfl

/-! ## Loading -/

theorem scrub_hydrateLayer {secrets : Str → Option Str} {index : Nat}
    {layer : TransportLayerConfig Rest} :
    (hydrateLayer secrets index layer).scrubSecrets = layer.scrubSecrets := by
  cases layer <;> rfl

theorem scrub_hydrateLayers (secrets : Str → Option Str)
    (layers : List (TransportLayerConfig Rest)) :
    (hydrateLayers secrets layers).map (·.scrubSecrets) =
      layers.map (·.scrubSecrets) := by
  unfold hydrateLayers
  apply ext_getElem?
  intro index
  rw [getElem?_map, getElem?_map, getElem?_mapIdx]
  cases layers[index]? with
  | none => rfl
  | some layer => exact congrArg some scrub_hydrateLayer

theorem scrub_loadConfig (secrets : Secrets) (config : ConnectionConfig Rest) :
    scrubConnectionSecrets (loadConfig secrets config) =
      { withoutSecrets config with
        externalConfig :=
          scrubExternal config.dbType (hydrateExternal config secrets).external } := by
  rw [scrubConnectionSecrets_eq]
  unfold loadConfig hydrateFields scrubFields withoutSecrets
  simp only [scrub_hydrateLayers]

theorem scrub_loadConfig_same {a b : ConnectionConfig Rest} (same : SameConfig a b)
    (presence : SamePresence s t) :
    scrubConnectionSecrets (loadConfig s a) = scrubConnectionSecrets (loadConfig t b) := by
  rw [scrub_loadConfig, scrub_loadConfig, same.plain, (external_same same presence).1]

section Loading

variable (percentDecode : Str → Str)

/-- Whether a connection with its stored connection string uses OIDC. -/
def rowUsesOidc (secrets : Secrets) : Row Rest → Bool
  | .readable config =>
    usesMongodbOidc percentDecode
      { config with connectionString := secrets config.id "connection_string".toList }
  | .unreadable _ _ => false

theorem canonicalized_loadConfig (secrets : Secrets) (config : ConnectionConfig Rest) :
    canonicalized percentDecode (loadConfig secrets config) =
      canonicalize (rowUsesOidc percentDecode secrets (.readable config))
        (loadConfig secrets config) :=
  rfl

/-- Loading a connection changes no connection string. -/
theorem rowUsesOidc_hydrateExternal {secrets : Secrets} {row : Row Rest} :
    rowUsesOidc percentDecode (hydrateExternal config secrets).secrets row =
      rowUsesOidc percentDecode secrets row := by
  cases row with
  | unreadable id text => rfl
  | readable other =>
    have kept : (hydrateExternal config secrets).secrets other.id "connection_string".toList =
        secrets other.id "connection_string".toList :=
      hydrateExternal_secrets (.inr ⟨by decide, by decide⟩)
    simp only [rowUsesOidc, kept]

theorem loadRows_readable (config : ConnectionConfig Rest) (rows : List (Row Rest))
    (secrets : Secrets) :
    (loadRows percentDecode (.readable config :: rows) secrets).1 =
      canonicalized percentDecode (loadConfig secrets config) ::
        (loadRows percentDecode rows (hydrateExternal config secrets).secrets).1 :=
  rfl

theorem loadRows_same {rows rows' : List (Row Rest)} (same : List.Forall₂ SameRow rows rows')
    (presence : SamePresence s t)
    (oidc : rows.map (rowUsesOidc percentDecode s) = rows'.map (rowUsesOidc percentDecode t)) :
    (loadRows percentDecode rows s).1.map scrubConnectionSecrets =
      (loadRows percentDecode rows' t).1.map scrubConnectionSecrets := by
  induction same generalizing s t with
  | nil => rfl
  | cons head tail ih =>
    have heads := head_eq_of_cons_eq oidc
    have tails := tail_eq_of_cons_eq oidc
    cases head with
    | unreadable id text => exact ih presence tails
    | @readable a b config =>
      have first : scrubConnectionSecrets (canonicalized percentDecode (loadConfig s a)) =
          scrubConnectionSecrets (canonicalized percentDecode (loadConfig t b)) := by
        rw [canonicalized_loadConfig, canonicalized_loadConfig, heads, scrub_canonicalize,
          scrub_canonicalize, scrub_loadConfig_same config presence]
      have rest := ih (external_same config presence).2 (by
        rw [map_congr_left fun row _ => rowUsesOidc_hydrateExternal percentDecode,
          map_congr_left fun row _ => rowUsesOidc_hydrateExternal percentDecode]
        exact tails)
      rw [loadRows_readable, loadRows_readable, map_cons, map_cons, first, rest]

end Loading

/-! ## Snapshots -/

theorem getMember_scrubMqttAuth {name : Str} (different : name ≠ authName)
    (external : Option Json) :
    (scrubMqttAuth external).bind (getMember name) = external.bind (getMember name) := by
  unfold scrubMqttAuth
  split
  · exact getMember_updateSection_ne different
  · rfl

/-- Subscriptions are read outside the fields that are scrubbed. -/
theorem extract_scrub (parseTopics : Json → Except Str (List MqttSubscriptionSyncTopic))
    (connections : List (ConnectionConfig Rest)) :
    extractMqttSubscriptions parseTopics (connections.map scrubConnectionSecrets) =
      extractMqttSubscriptions parseTopics connections := by
  induction connections with
  | nil => rfl
  | cons config configs ih =>
    rw [map_cons, scrubConnectionSecrets_eq, extractMqttSubscriptions,
      extractMqttSubscriptions, ih]
    by_cases mqtt : config.dbType = .mqtt
    · have topics := getMember_scrubMqttAuth (by decide : savedTopicsName ≠ authName)
        config.externalConfig
      have version := getMember_scrubMqttAuth
        (by decide : "protocolVersion".toList ≠ authName) config.externalConfig
      simp only [validateMqttSubscriptions, scrubExternal, scrubFields, mqtt, topics, version]
    · have mqtt' : (scrubFields config).dbType ≠ .mqtt := mqtt
      rw [if_neg mqtt, if_neg mqtt']

/-- A snapshot with nothing of the encrypted part but whether there is one. -/
def plainPart (snapshot : SyncSnapshot Rest Other Blob) : SyncSnapshot Rest Other Unit :=
  { connections := snapshot.connections
    mqttSubscriptions := snapshot.mqttSubscriptions
    tunnelProfiles := snapshot.tunnelProfiles
    other := snapshot.other
    editorSettings := snapshot.editorSettings
    encryptedSecrets := snapshot.encryptedSecrets.map fun _ => () }

section Snapshots

variable (percentDecode : Str → Str)
  (parseTopics : Json → Except Str (List MqttSubscriptionSyncTopic))
  (encrypt : SensitiveSyncPayload Rest Ai → Str → Blob)

end Snapshots

/-! ## Two storages -/

/-- A MongoDB connection with a password and a connection string. -/
def mongoStorage (password connectionString : Str) : Storage Unit Unit Unit where
  rows := [.readable
    { id := "m".toList
      dbType := .mongoDb
      driverProfile := none
      driverLabel := none
      urlParams := none
      port := 27017
      password := []
      savePassword := true
      transportLayers := []
      redisSentinelPassword := []
      connectionString := none
      initScript := none
      externalConfig := none
      rest := () }]
  secrets := setSecret "m".toList "password".toList password
    (setSecret "m".toList "connection_string".toList connectionString fun _ _ => none)
  tunnelProfiles := []
  aiConfigs := ()
  other := ()

theorem mongoStorage_same {password password' connectionString connectionString' : Str} :
    SameButSecrets (mongoStorage password connectionString)
      (mongoStorage password' connectionString') where
  rows := .cons (.readable ⟨rfl, fun _ _ => rfl⟩) .nil
  secrets := by
    intro id key
    simp only [mongoStorage, setSecret]
    split
    · rfl
    · split <;> rfl
  profiles := rfl
  other := rfl

/-- The snapshot of such a storage without a passphrase. -/
def mongoSnapshot (password connectionString : Str) : Except Str (SyncSnapshot Unit Unit Unit) :=
  (buildSyncSnapshot id (fun _ => .ok []) (fun _ _ => ()) none none
    (mongoStorage password connectionString)).1

def driverProfiles (snapshot : Except Str (SyncSnapshot Unit Unit Unit)) :
    Option (List (Option Str)) :=
  snapshot.toOption.map fun snapshot => snapshot.connections.map ConnectionConfig.driverProfile

end Dbx.Guarantees.SnapshotSecrecy
