import Dbx.Guarantees.PushedSecrets

/-!
# Restoring a snapshot

A snapshot that is applied to an empty storage with its secrets, or to the storage it comes
from without them (`crates/dbx-core/src/cloud_sync.rs:297-346`, `996-1271`), keeps the
secrets that `load_connections` returns, with two exceptions. The password of an MQTT
connection is scrubbed, but it has no row and is not part of the payload, so it is lost both
times. And layers of one connection that share a key, but find different secrets under their
older names, have one of these after a restore.
-/
namespace Dbx.Guarantees.SnapshotRestore

open Dbx.Lib.Text Dbx.Source Dbx.Source.ConnectionStore Dbx.Source.CloudSync List
open Dbx.Guarantees.ExternalSecrets Dbx.Guarantees.SnapshotSecrecy
open Dbx.Guarantees.ReloadedSecrets Dbx.Guarantees.WrittenRows Dbx.Guarantees.PushedSecrets

variable {Rest Ai Other Blob : Type}

theorem bind_ok {α β : Type} {step : Except Str α} {next : α → Except Str β} {value : β}
    (done : step.bind next = .ok value) : ∃ middle, step = .ok middle ∧ next middle = .ok value := by
  cases step with
  | error e => cases done
  | ok middle => exact ⟨middle, rfl, done⟩

/-! ## Applying the payload -/

variable {config : ConnectionConfig Rest} {configs : List (ConnectionConfig Rest)}

section Payload

variable {connections : List (ConnectionConfig Rest)}

def KnownKey (key : Str) : Prop :=
  key ∈ secretKeys ∨ ∃ rest, key = "transport_layers.".toList ++ rest

theorem configSlots_known {slot : Str × Str} (member : slot ∈ configSlots config) : KnownKey slot.1 := by
  obtain (plain | layer | ⟨place, pushed, same⟩) := mem_configSlots.mp member
  · have keys : plainKeys ⊆ secretKeys := by decide
    apply Or.inl
    apply keys
    exact mem_map_of_mem plain
  · obtain ⟨segment, suffix, same⟩ := layersSlots_key layer
    exact .inr ⟨_, same⟩
  · have keys : placeKeys ⊆ secretKeys := by decide
    apply Or.inl
    apply keys
    rw [same]
    exact pushedPlaces_key pushed

theorem applyConnectionSecrets_append (pushed more : List ConnectionSecretSnapshot)
    (secrets : Secrets) :
    applyConnectionSecrets connections (pushed ++ more) secrets =
      applyConnectionSecrets connections more
        (applyConnectionSecrets connections pushed secrets) :=
  foldl_append

variable (saves : ∀ config ∈ connections, config.savePassword = true)
include saves

theorem isApplied_known {secret : ConnectionSecretSnapshot} (known : KnownKey secret.key) :
    isApplied connections secret = true := by
  have saving : (connections.any fun config =>
      config.id == secret.connectionId && !config.savePassword) = false := by
    rw [any_eq_false]
    intro config member
    rw [saves config member]
    simp
  have listed : (secretKeys.contains secret.key || "ssh_tunnels.".toList.isPrefixOf secret.key ||
      "transport_layers.".toList.isPrefixOf secret.key) = true := by
    obtain key | layer := known
    · rw [contains_iff_mem.mpr key, Bool.true_or, Bool.true_or]
    obtain ⟨rest, same⟩ := layer
    have starts : "transport_layers.".toList.isPrefixOf secret.key = true := by
      rw [ isPrefixOf_iff_prefix, same]
      exact prefix_append _ _
    rw [starts, Bool.or_true]
  unfold isApplied
  rw [listed, saving, Bool.and_false]
  rfl

/-- The secrets of one connection set its rows and no others. -/
theorem apply_pushSlots {id : Str} {slots : List (Str × Str)}
    (known : ∀ slot ∈ slots, KnownKey slot.1) (secrets : Secrets) :
    applyConnectionSecrets connections (pushSlots id slots) secrets =
      fun i => if i = id then setSlots (secrets i) slots else secrets i := by
  induction slots generalizing secrets with
  | nil =>
    funext i
    exact (ite_self (secrets i)).symm
  | cons slot slots ih =>
    have later : ∀ slot ∈ slots, KnownKey slot.1 :=
      (forall_mem_cons.mp known).2
    have cons : pushSlots id (slot :: slots) = pushSecret id slot.1 slot.2 ++ pushSlots id slots :=
      flatMap_cons
    have first : applyConnectionSecrets connections (pushSecret id slot.1 slot.2) secrets =
        fun i => if i = id then setSlot (secrets i) slot else secrets i := by
      unfold pushSecret
      split
      · rename_i empty
        funext i key
        have blank : ¬(key = slot.1 ∧ slot.2 ≠ []) :=
          fun both => both.2 (isEmpty_iff.mp empty)
        unfold setSlot
        rw [apply_ite (fun rows : Str → Option Str => rows key), if_neg blank, ite_self]
        rfl
      · rename_i filled
        have applied : isApplied connections ⟨id, slot.1, slot.2⟩ = true :=
          isApplied_known saves (known slot mem_cons_self)
        have one : applyConnectionSecrets connections [⟨id, slot.1, slot.2⟩] secrets =
            setSecret id slot.1 slot.2 secrets := if_pos applied
        have value : slot.2 ≠ [] := fun empty => filled (isEmpty_iff.mpr empty)
        rw [one]
        funext i key
        unfold setSecret setSlot
        by_cases own : i = id
        · simp [own, value]
        · simp [own]
    rw [cons, applyConnectionSecrets_append, first, ih later]
    funext i
    by_cases own : i = id
    · rw [if_pos own, if_pos own, if_pos own]
      rfl
    · rw [if_neg own, if_neg own, if_neg own]

variable (pushing : ∀ config ∈ configs, config.savePassword = true)
include pushing

theorem apply_frame {i : Str} (absent : i ∉ configs.map (·.id)) (secrets : Secrets) :
    applyConnectionSecrets connections (configs.flatMap connectionSecrets) secrets i =
      secrets i := by
  induction configs generalizing secrets with
  | nil => rfl
  | cons config configs ih =>
    rw [map_cons, mem_cons, not_or] at absent
    have later := ih (forall_mem_cons.mp pushing).2 absent.2
    rw [flatMap_cons, applyConnectionSecrets_append, later,
      connectionSecrets_eq (pushing config mem_cons_self),
      apply_pushSlots saves (fun _ => configSlots_known)]
    exact if_neg absent.1

/-- The rows of a connection after a payload was applied. -/
theorem apply_rows (distinct : (configs.map ConnectionConfig.id).Nodup) (member : config ∈ configs)
    (secrets : Secrets) :
    applyConnectionSecrets connections (configs.flatMap connectionSecrets) secrets config.id =
      setSlots (secrets config.id) (configSlots config) := by
  induction configs generalizing secrets with
  | nil => cases member
  | cons first configs ih =>
    have fresh := nodup_cons.mp distinct
    have laterSave : ∀ other ∈ configs, other.savePassword = true :=
      (forall_mem_cons.mp pushing).2
    rw [flatMap_cons, applyConnectionSecrets_append,
      connectionSecrets_eq (pushing first mem_cons_self),
      apply_pushSlots saves (fun _ => configSlots_known)]
    obtain same | inside := mem_cons.mp member
    · subst same
      rw [apply_frame saves laterSave fresh.1]
      exact if_pos rfl
    · have different : config.id ≠ first.id :=
        fun equal => fresh.1 (equal ▸ mem_map_of_mem inside)
      rw [ih laterSave fresh.2 inside, if_neg different]

end Payload

/-! ## Subscriptions -/

section Subscriptions

variable {topicsJson : List MqttSubscriptionSyncTopic → Json}

theorem forall₂_refl :
    List.Forall₂ TopicsOnly configs configs :=
  forall₂_same.mpr fun config _ => TopicsOnly.refl config

theorem applySubscriptions_topics {entry : MqttSubscriptionSyncEntry}
    {after : ConnectionConfig Rest} (done : applySubscriptions topicsJson entry config = .ok after) :
    TopicsOnly config after := by
  unfold applySubscriptions at done
  split at done
  · cases done
  obtain ⟨_, _, rest⟩ := bind_ok done
  split at rest
  · rename_i members object
    cases rest
    apply TopicsOnly.mk rfl
    intro name other
    have inserted : (some (Json.object (insertMember savedTopicsName
        (topicsJson entry.subscriptions) members))).bind (getMember name) =
        members.lookup name := lookup_insertMember_ne other
    have before : config.externalConfig.bind (getMember name) = members.lookup name := by
      cases external : config.externalConfig with
      | none =>
        rw [external] at object
        cases object
        rfl
      | some value =>
        rw [external] at object
        have same : value = .object members := object
        rw [same]
        rfl
    unfold sectionOf
    rw [before]
    exact congrArg (fun value => Option.bind value asObject) inserted
  · cases rest

theorem applyEntry_topics {entry : MqttSubscriptionSyncEntry} {after : List (ConnectionConfig Rest)}
    (done : applyEntry topicsJson entry configs = .ok after) :
    List.Forall₂ TopicsOnly configs after := by
  induction configs generalizing after with
  | nil => cases done
  | cons config configs ih =>
    unfold applyEntry at done
    split at done
    · obtain ⟨changed, subscribed, rest⟩ := bind_ok done
      cases rest
      exact .cons (applySubscriptions_topics subscribed) forall₂_refl
    · obtain ⟨changed, later, rest⟩ := bind_ok done
      cases rest
      exact .cons (TopicsOnly.refl config) (ih later)

theorem forall₂_trans {first second third : List (ConnectionConfig Rest)}
    (one : List.Forall₂ TopicsOnly first second) (two : List.Forall₂ TopicsOnly second third) :
    List.Forall₂ TopicsOnly first third := by
  induction one generalizing third with
  | nil => exact two
  | cons head _ ih =>
    cases two with
    | cons head' tail' => exact .cons (head.trans head') (ih tail')

/-- Subscriptions are put on connections one by one; nothing else changes. -/
theorem applyMqttSubscriptions_topics {seen : List Str} {entries : List MqttSubscriptionSyncEntry}
    {after : List (ConnectionConfig Rest)}
    (done : applyMqttSubscriptions topicsJson seen entries configs = .ok after) :
    List.Forall₂ TopicsOnly configs after := by
  induction entries generalizing seen configs with
  | nil =>
    cases done
    exact forall₂_refl
  | cons entry entries ih =>
    unfold applyMqttSubscriptions at done
    split at done
    · cases done
    · obtain ⟨changed, first, rest⟩ := bind_ok done
      exact forall₂_trans (applyEntry_topics first) (ih rest)

end Subscriptions

/-! ## Saving -/

variable {secrets : Secrets}

section Saving

variable {percentDecode : Str → Str} {configs : List (ConnectionConfig Rest)}
  {storage saved : Storage Rest Ai Other}

theorem forgetPasswords_saving (saves : ∀ config ∈ configs, config.savePassword = true)
    (secrets : Secrets) :
    configs.foldl (fun secrets config => forgetPasswords config secrets) secrets = secrets := by
  induction configs generalizing secrets with
  | nil => rfl
  | cons config configs ih =>
    have kept : forgetPasswords config secrets = secrets := if_pos (saves config mem_cons_self)
    rw [foldl_cons, kept]
    exact ih (forall_mem_cons.mp saves).2 secrets

theorem readables_append (rows more : List (Row Rest)) :
    readables (rows ++ more) = readables rows ++ readables more :=
  filterMap_append

theorem readables_unreadable {rows : List (Row Rest)} {keep : Row Rest → Bool}
    (dropped : ∀ config, keep (.readable config) = false) : readables (rows.filter keep) = [] := by
  unfold readables
  rw [filterMap_eq_nil_iff]
  intro row member
  cases row with
  | unreadable id text => rfl
  | readable config =>
    have kept := (mem_filter.mp member).2
    rw [dropped config] at kept
    cases kept

theorem readables_map (f : ConnectionConfig Rest → ConnectionConfig Rest) :
    readables (configs.map fun config => Row.readable (f config)) = configs.map f := by
  unfold readables
  rw [filterMap_map]
  exact congrFun filterMap_eq_map configs

/-- What a save of metadata leaves: a row for each connection, and its secrets. -/
theorem saveMetadata_ok (saves : ∀ config ∈ configs, config.savePassword = true)
    (done : saveConnectionMetadataPreservingSecrets percentDecode configs storage = .ok saved) :
    readables saved.rows = configs.map (sanitized percentDecode) ∧
      ∀ id ∈ configs.map (·.id), saved.secrets id = storage.secrets id := by
  unfold saveConnectionMetadataPreservingSecrets at done
  dsimp only at done
  split at done
  · cases done
    constructor
    · dsimp only
      rw [readables_append, readables_map, readables_unreadable fun _ => rfl, nil_append]
    · intro id member
      dsimp only
      rw [forgetPasswords_saving saves]
      funext key
      rw [if_pos]
      rw [contains_iff_mem]
      exact mem_append_right _ member
  · cases done

theorem saveTunnelProfiles_ok {profiles : List (TransportLayerConfig Rest)}
    (done : saveTunnelProfiles profiles storage = .ok saved) :
    saved.rows = storage.rows ∧ saved.secrets = storage.secrets := by
  unfold saveTunnelProfiles at done
  split at done
  · cases done
  split at done
  · cases done
    exact ⟨rfl, rfl⟩
  · cases done

theorem deleteSecrets_none {keys : List Str} {owner : Str} {id : Str} (empty : secrets id = noRows) :
    keys.foldl (fun secrets key => deleteSecret owner key secrets) secrets id = noRows := by
  induction keys generalizing secrets with
  | nil => exact empty
  | cons key keys ih =>
    apply ih
    funext k
    show (if id = owner ∧ k = key then none else secrets id k) = none
    rw [empty]
    exact ite_self none

theorem clearConnectionSecrets_none {id : Str} (empty : secrets id = noRows) :
    clearConnectionSecrets configs secrets id = noRows := by
  induction configs generalizing secrets with
  | nil => exact empty
  | cons config configs ih => exact ih (deleteSecrets_none empty)

end Saving

/-! ## Applying a snapshot -/

section Applying

variable {percentDecode : Str → Str} {topicsJson : List MqttSubscriptionSyncTopic → Json}
  {decrypt : Blob → Str → Except Str (SensitiveSyncPayload Rest Ai)}
  {snapshot : SyncSnapshot Rest Other Blob} {options : ApplySnapshotOptions}
  {storage after : Storage Rest Ai Other}

def secretsAfter (payload : Option (SensitiveSyncPayload Rest Ai))
    (connections : List (ConnectionConfig Rest)) (secrets : Secrets) : Secrets :=
  match payload with
  | none => secrets
  | some payload => applyConnectionSecrets connections payload.connectionSecrets
      (clearConnectionSecrets connections secrets)

/-- The rows and secrets that a restore leaves. -/
theorem restoreSecrets_ok {payload : Option (SensitiveSyncPayload Rest Ai)}
    {connections : List (ConnectionConfig Rest)}
    (done : restoreSecrets payload connections storage = .ok after) :
    after.rows = storage.rows ∧
      after.secrets = secretsAfter payload connections storage.secrets := by
  unfold restoreSecrets at done
  cases payload with
  | none =>
    cases done
    exact ⟨rfl, rfl⟩
  | some payload =>
    dsimp only [applySensitivePayload] at done
    split at done
    · exact saveTunnelProfiles_ok done
    · cases done
      exact ⟨rfl, rfl⟩

theorem apply_ok {entries : List MqttSubscriptionSyncEntry}
    (has : snapshot.mqttSubscriptions = some entries)
    {payload : Option (SensitiveSyncPayload Rest Ai)}
    (carried : sensitivePayload decrypt snapshot options = .ok payload)
    (done : applySyncSnapshot percentDecode topicsJson decrypt snapshot options storage =
      .ok after) :
    ∃ applied saved, List.Forall₂ TopicsOnly snapshot.connections applied ∧
      saveConnectionMetadataPreservingSecrets percentDecode
        (applied.map scrubConnectionSecrets) storage = .ok saved ∧
      after.rows = saved.rows ∧
      after.secrets =
        secretsAfter payload (applied.map scrubConnectionSecrets) saved.secrets := by
  unfold applySyncSnapshot at done
  rw [carried] at done
  obtain ⟨same, equal, done⟩ := bind_ok done
  cases equal
  obtain ⟨⟨applied, unchanged⟩, connections, done⟩ := bind_ok done
  obtain ⟨saved, metadata, done⟩ := bind_ok done
  obtain ⟨profiled, profiles, done⟩ := bind_ok done
  have kept : profiled.rows = saved.rows ∧ profiled.secrets = saved.secrets := by
    split at profiles
    · exact saveTunnelProfiles_ok profiles
    · cases profiles
      exact ⟨rfl, rfl⟩
  have topics : List.Forall₂ TopicsOnly snapshot.connections applied ∧ unchanged = storage := by
    unfold connectionsToApply at connections
    rw [has] at connections
    dsimp only at connections
    cases found : applyMqttSubscriptions topicsJson [] entries snapshot.connections with
    | error e =>
      rw [found] at connections
      cases connections
    | ok result =>
      rw [found] at connections
      cases connections
      exact ⟨applyMqttSubscriptions_topics found, rfl⟩
  have restored := restoreSecrets_ok done
  obtain ⟨topics, rfl⟩ := topics
  refine ⟨applied, saved, topics, metadata, restored.1.trans kept.1, ?_⟩
  rw [restored.2, kept.2]

end Applying

/-! ## Both ways of applying a snapshot -/

theorem map_eq_map_iff {α β γ : Type} {R : α → β → Prop} {f : β → γ} {g : α → γ} {P : α → Prop}
    {as : List α} {bs : List β} (pairs : List.Forall₂ R as bs)
    (each : ∀ a ∈ as, ∀ b, R a b → (f b = g a ↔ P a)) :
    bs.map f = as.map g ↔ ∀ a ∈ as, P a := by
  induction pairs with
  | nil => exact ⟨fun _ _ member => (nomatch member), fun _ => rfl⟩
  | cons head _ ih =>
    have later := ih (forall_mem_cons.mp each).2
    rw [map_cons, map_cons, cons.injEq, later, forall_mem_cons,
      each _ mem_cons_self _ head]

section Restoring

variable (percentDecode : Str → Str)

/-- The connections of a storage with the secrets that `load_connections` returns. -/
def loadedSecrets (storage : Storage Rest Ai Other) : List (Str × SecretValues) :=
  (loadConnections percentDecode storage).1.map fun config => (config.id, secretValues config)

def loadedOf (secrets : Secrets) (config : ConnectionConfig Rest) : ConnectionConfig Rest :=
  canonicalized percentDecode (loadConfig secrets config)

/-- No MQTT password. -/
def NoMqttPassword (config : ConnectionConfig Rest) : Prop :=
  config.dbType = .mqtt → ∀ place ∈ mqttPlaces config.externalConfig,
    placeValue place config.externalConfig = []

/-- A connection that keeps its secrets. -/
structure Restorable (rows : Str → Option Str) (config : ConnectionConfig Rest) : Prop where
  noMqttPassword : NoMqttPassword config
  layersAgree : LayersAgree rows config.transportLayers

def AllRestorable (storage : Storage Rest Ai Other) : Prop :=
  ∀ config ∈ readables storage.rows, Restorable (storage.secrets config.id) config

theorem loadedOf_id (secrets : Secrets) (config : ConnectionConfig Rest) :
    (loadedOf percentDecode secrets config).id = config.id :=
  (canonicalized_keeps percentDecode (loadConfig secrets config)).id

theorem loadedOf_saves :
    (loadedOf percentDecode secrets config).savePassword = config.savePassword :=
  (canonicalized_keeps percentDecode (loadConfig secrets config)).savePassword

theorem loadedSecrets_eq {storage : Storage Rest Ai Other}
    (distinct : ((readables storage.rows).map (·.id)).Nodup) :
    loadedSecrets percentDecode storage = (readables storage.rows).map fun config =>
      (config.id, secretValues (loadedOf percentDecode storage.secrets config)) := by
  have loaded : (loadConnections percentDecode storage).1 =
      (loadRows percentDecode storage.rows storage.secrets).1 := rfl
  unfold loadedSecrets
  rw [loaded, loadRows_configs percentDecode distinct, map_map]
  apply map_congr_left
  intro config _
  exact congrArg (fun id => (id, secretValues (loadedOf percentDecode storage.secrets config)))
    (loadedOf_id percentDecode storage.secrets config)

theorem noMqttPassword_loadedOf :
    ((loadedOf percentDecode secrets config).dbType = .mqtt →
      ∀ place ∈ secretPlaces (loadedOf percentDecode secrets config).dbType
          (loadedOf percentDecode secrets config).externalConfig,
        placeValue place (loadedOf percentDecode secrets config).externalConfig = []) ↔
      NoMqttPassword config := by
  have keeps := canonicalized_keeps percentDecode (loadConfig secrets config)
  have dbType : (loadedOf percentDecode secrets config).dbType = .mqtt ↔ config.dbType = .mqtt :=
    keeps.dbType_eq (by decide) (by decide)
  rw [dbType]
  apply imp_congr_right
  intro mqtt
  have external : (loadedOf percentDecode secrets config).externalConfig =
      config.externalConfig := by
    have kept := keeps.externalConfig
    have notMq : config.dbType ≠ .messageQueue := by
      rw [mqtt]
      decide
    have notNacos : config.dbType ≠ .nacos := by
      rw [mqtt]
      decide
    rw [loadConfig_external, hydrateExternal_other notMq notNacos] at kept
    exact kept
  rw [external, dbType.mpr mqtt]
  rfl

/-- A connection before, and its row afterwards. -/
def Pairs (storage after : Storage Rest Ai Other) : Prop :=
  List.Forall₂ (fun config row => Written (loadedOf percentDecode storage.secrets config) row)
    (readables storage.rows) (readables after.rows)

variable {percentDecode} {storage after : Storage Rest Ai Other}
  {applied : List (ConnectionConfig Rest)}

variable (percentDecode) in
theorem loaded_configs (distinct : ((readables storage.rows).map (·.id)).Nodup) :
    (loadConnections percentDecode storage).1 =
      (readables storage.rows).map (loadedOf percentDecode storage.secrets) :=
  loadRows_configs percentDecode distinct storage.secrets

theorem pairs_of_topics (distinct : ((readables storage.rows).map (·.id)).Nodup)
    (topics : List.Forall₂ TopicsOnly
      ((loadConnections percentDecode storage).1.map scrubConnectionSecrets) applied)
    (rows : readables after.rows =
      (applied.map scrubConnectionSecrets).map (sanitized percentDecode)) :
    Pairs percentDecode storage after := by
  have loaded := loaded_configs percentDecode distinct
  have each : ∀ config changed : ConnectionConfig Rest,
      TopicsOnly (scrubConnectionSecrets (loadedOf percentDecode storage.secrets config)) changed →
        Written (loadedOf percentDecode storage.secrets config)
          (sanitized percentDecode (scrubConnectionSecrets changed)) := by
    intro config changed only
    exact written_of_topics percentDecode
      (show loadedOf percentDecode storage.secrets config =
        canonicalized percentDecode (loadConfig storage.secrets config) from rfl) only
  rw [loaded, forall₂_map_left_iff, forall₂_map_left_iff] at topics
  unfold Pairs
  rw [rows, forall₂_map_right_iff, forall₂_map_right_iff]
  exact List.Forall₂.imp each topics

theorem Pairs.ids (pairs : Pairs percentDecode storage after) :
    (readables after.rows).map (·.id) =
      (readables storage.rows).map (·.id) := by
  have forall₂ : List.Forall₂ Eq ((readables after.rows).map (·.id))
      ((readables storage.rows).map (·.id)) := by
    rw [forall₂_map_left_iff, forall₂_map_right_iff]
    apply List.Forall₂.flip
    exact pairs.imp fun config row written =>
      written.id.trans (loadedOf_id percentDecode storage.secrets config)
  exact forall₂_eq_eq_eq ▸ forall₂

/-- Where the rows supply the other secrets, those of layers and of MQTT decide. -/
theorem reloaded_iff (pairs : Pairs percentDecode storage after)
    (distinct : ((readables storage.rows).map (·.id)).Nodup)
    (saves : ∀ config ∈ readables storage.rows, config.savePassword = true)
    (supplies : ∀ config ∈ readables storage.rows,
      Supplies percentDecode (after.secrets config.id)
        (loadedOf percentDecode storage.secrets config)) :
    loadedSecrets percentDecode after = loadedSecrets percentDecode storage ↔
      ∀ config ∈ readables storage.rows,
        layersSlots (hydrateLayers (after.secrets config.id)
            ((loadedOf percentDecode storage.secrets config).transportLayers.map
              TransportLayerConfig.scrubSecrets)) =
          layersSlots (loadedOf percentDecode storage.secrets config).transportLayers ∧
        NoMqttPassword config := by
  rw [loadedSecrets_eq percentDecode (pairs.ids ▸ distinct), loadedSecrets_eq percentDecode distinct]
  apply map_eq_map_iff pairs
  intro config member row written
  have id : row.id = config.id :=
    written.id.trans (loadedOf_id percentDecode storage.secrets config)
  have saving : (loadedOf percentDecode storage.secrets config).savePassword = true :=
    (loadedOf_saves percentDecode).trans (saves config member)
  have supplied := supplies config member
  rw [← id] at supplied
  have values := secretValues_reloaded written saving supplied
  rw [noMqttPassword_loadedOf percentDecode, id] at values
  rw [Prod.mk.injEq, ← values]
  exact and_iff_right id

end Restoring

section Snapshots

variable {percentDecode : Str → Str}
  {parseTopics : Json → Except Str (List MqttSubscriptionSyncTopic)}
  {topicsJson : List MqttSubscriptionSyncTopic → Json}
  {encrypt : SensitiveSyncPayload Rest Ai → Str → Blob}
  {decrypt : Blob → Str → Except Str (SensitiveSyncPayload Rest Ai)}
  {storage after : Storage Rest Ai Other} {snapshot : SyncSnapshot Rest Other Blob}
  {editorSettings : Option Json} {passphrase : Option Str}

/-- The payload of a snapshot. -/
def payloadOf (percentDecode : Str → Str) (storage : Storage Rest Ai Other) :
    SensitiveSyncPayload Rest Ai :=
  buildSensitivePayload (loadConnections percentDecode storage).2.aiConfigs
    (loadConnections percentDecode storage).1
    (loadConnections percentDecode storage).2.tunnelProfiles

theorem build_ok (built : (buildSyncSnapshot percentDecode parseTopics encrypt editorSettings
      passphrase storage).1 = .ok snapshot) :
    snapshot.connections =
        (loadConnections percentDecode storage).1.map scrubConnectionSecrets ∧
      snapshot.encryptedSecrets =
        (normalizedPassphrase passphrase).map (encrypt (payloadOf percentDecode storage)) ∧
      ∃ entries, snapshot.mqttSubscriptions = some entries := by
  unfold buildSyncSnapshot at built
  dsimp only at built
  cases extracted : extractMqttSubscriptions parseTopics (loadConnections percentDecode storage).1 with
  | error e =>
    rw [extracted] at built
    cases built
  | ok entries =>
    rw [extracted] at built
    cases built
    exact ⟨rfl, rfl, entries, rfl⟩

section

variable {loaded applied : List (ConnectionConfig Rest)}
  (topics : List.Forall₂ TopicsOnly (loaded.map scrubConnectionSecrets) applied)
include topics

/-- The connections that are applied have the ids of the loaded ones, and save their passwords
where those do. -/
theorem applied_fields :
    (applied.map scrubConnectionSecrets).map (fun config => (config.id, config.savePassword)) =
      loaded.map fun config => (config.id, config.savePassword) := by
  rw [forall₂_map_left_iff] at topics
  induction topics with
  | nil => rfl
  | cons only _ ih =>
    rename_i before after befores afters _
    have fields := congrArg (fun config => (config.id, config.savePassword)) only.fields
    rw [scrubConnectionSecrets_eq before] at fields
    have scrubbed : ((scrubConnectionSecrets after).id, (scrubConnectionSecrets after).savePassword) =
        (after.id, after.savePassword) := by
      rw [scrubConnectionSecrets_eq]
      rfl
    rw [map_cons, map_cons, ih, scrubbed]
    exact congrArg (fun pair => pair :: befores.map fun config => (config.id, config.savePassword))
      fields

theorem applied_ids : (applied.map scrubConnectionSecrets).map (·.id) =
      loaded.map (·.id) := by
  have ids := congrArg (map Prod.fst) (applied_fields topics)
  simp only [map_map, Function.comp_def] at ids ⊢
  exact ids

end

theorem applied_saves {loaded applied : List (ConnectionConfig Rest)}
    (saves : ∀ config ∈ loaded, config.savePassword = true)
    (topics : List.Forall₂ TopicsOnly (loaded.map scrubConnectionSecrets) applied) :
    ∀ config ∈ applied.map scrubConnectionSecrets, config.savePassword = true := by
  intro config member
  have listed : (config.id, config.savePassword) ∈
      loaded.map fun config => (config.id, config.savePassword) := by
    rw [← applied_fields topics]
    exact mem_map_of_mem member
  obtain ⟨before, inside, same⟩ := mem_map.mp listed
  have equal : before.savePassword = config.savePassword := (Prod.ext_iff.mp same).2
  rw [← equal]
  exact saves before inside

/-- A storage without connections. -/
def emptyStorage (aiConfigs : Ai) (other : Other) : Storage Rest Ai Other :=
  ⟨[], fun _ _ => none, [], aiConfigs, other⟩

section

variable (distinct : ((readables storage.rows).map (·.id)).Nodup)
include distinct

theorem loaded_ids : (loadConnections percentDecode storage).1.map (·.id) =
      (readables storage.rows).map (·.id) := by
  have loaded := loaded_configs percentDecode distinct
  rw [loaded, map_map]
  apply map_congr_left
  intro config _
  exact loadedOf_id percentDecode storage.secrets config

variable (saves : ∀ config ∈ readables storage.rows, config.savePassword = true)
include saves

theorem loaded_saves : ∀ config ∈ (loadConnections percentDecode storage).1, config.savePassword = true := by
  have loaded := loaded_configs percentDecode distinct
  rw [loaded]
  intro config member
  obtain ⟨before, inside, rfl⟩ := mem_map.mp member
  exact (loadedOf_saves percentDecode).trans (saves before inside)

variable (built : (buildSyncSnapshot percentDecode parseTopics encrypt editorSettings passphrase
  storage).1 = .ok snapshot)
include built

/-- What a snapshot of a storage leaves where it is applied. -/
theorem apply_built {options : ApplySnapshotOptions} {payload : Option (SensitiveSyncPayload Rest Ai)}
    (carried : sensitivePayload decrypt snapshot options = .ok payload)
    {target : Storage Rest Ai Other}
    (done : applySyncSnapshot percentDecode topicsJson decrypt snapshot options target =
      .ok after) :
    Pairs percentDecode storage after ∧ ∃ (connections : List (ConnectionConfig Rest))
      (secrets : Secrets),
      (∀ config ∈ connections, config.savePassword = true) ∧
      (∀ id ∈ (readables storage.rows).map (·.id), secrets id = target.secrets id) ∧
      after.secrets = secretsAfter payload connections secrets := by
  have parts := build_ok built
  obtain ⟨entries, has⟩ := parts.2.2
  obtain ⟨applied, saved, topics, metadata, rows, secrets⟩ := apply_ok has carried done
  rw [parts.1] at topics
  have saving := applied_saves (loaded_saves distinct saves) topics
  have written := saveMetadata_ok saving metadata
  rw [applied_ids topics, loaded_ids distinct] at written
  constructor
  · apply pairs_of_topics distinct topics
    rw [rows]
    exact written.1
  · exact ⟨_, saved.secrets, saving, written.2, secrets⟩

/-- Without the secrets, on the storage the snapshot was built from. -/
theorem kept_iff {given : Option Str} (done : applySyncSnapshot percentDecode topicsJson decrypt snapshot ⟨false, given⟩
      (loadConnections percentDecode storage).2 = .ok after) :
    loadedSecrets percentDecode after = loadedSecrets percentDecode storage ↔
      ∀ config ∈ readables storage.rows, NoMqttPassword config := by
  have nothing : sensitivePayload decrypt snapshot ⟨false, given⟩ = .ok none := rfl
  obtain ⟨pairs, connections, secrets, _, same, final⟩ :=
    apply_built distinct saves built nothing done
  have rowsOf : ∀ config ∈ readables storage.rows, after.secrets config.id =
      (hydrateExternal config storage.secrets).secrets config.id := by
    intro config member
    rw [final]
    exact (same config.id (mem_map_of_mem member)).trans
      (loadRows_secrets percentDecode distinct storage.secrets member)
  rw [reloaded_iff pairs distinct saves]
  · apply forall₂_congr
    intro config member
    rw [rowsOf config member]
    exact and_iff_right (congrArg layersSlots (layers_kept percentDecode (saves config member)))
  · intro config member
    rw [rowsOf config member]
    exact supplies_kept percentDecode (saves config member)

/-- With the secrets, on an empty storage. -/
theorem restored_iff
    (roundTrip : ∀ payload passphrase, decrypt (encrypt payload passphrase) passphrase = .ok payload)
    (given : normalizedPassphrase passphrase ≠ none) {aiConfigs : Ai} {other : Other}
    (done : applySyncSnapshot percentDecode topicsJson decrypt snapshot ⟨true, passphrase⟩
      (emptyStorage aiConfigs other) = .ok after) :
    loadedSecrets percentDecode after = loadedSecrets percentDecode storage ↔
      AllRestorable storage := by
  obtain ⟨key, found⟩ := Option.ne_none_iff_exists'.mp given
  have parts := build_ok built
  have carried : sensitivePayload decrypt snapshot ⟨true, passphrase⟩ =
      .ok (some (payloadOf percentDecode storage)) := by
    unfold sensitivePayload
    rw [if_pos rfl, parts.2.1, found]
    dsimp only [Option.map_some]
    rw [roundTrip]
    rfl
  obtain ⟨pairs, connections, secrets, saving, same, final⟩ :=
    apply_built distinct saves built carried done
  have loaded := loaded_configs percentDecode distinct
  have rowsOf : ∀ config ∈ readables storage.rows, after.secrets config.id =
      restoredRows (loadedOf percentDecode storage.secrets config) := by
    intro config member
    have distinctLoaded : ((loadConnections percentDecode storage).1.map
        ConnectionConfig.id).Nodup := by
      rw [loaded_ids distinct]
      exact distinct
    have listed : loadedOf percentDecode storage.secrets config ∈
        (loadConnections percentDecode storage).1 := by
      rw [loaded]
      exact mem_map_of_mem member
    have applied := apply_rows saving (loaded_saves distinct saves) distinctLoaded listed
      (clearConnectionSecrets connections secrets)
    rw [loadedOf_id] at applied
    have empty : clearConnectionSecrets connections secrets config.id = noRows :=
      clearConnectionSecrets_none (same config.id (mem_map_of_mem member))
    rw [empty] at applied
    rw [final]
    exact applied
  rw [reloaded_iff pairs distinct saves]
  · apply forall₂_congr
    intro config member
    have layers : (loadedOf percentDecode storage.secrets config).transportLayers =
        hydrateLayers (storage.secrets config.id) config.transportLayers :=
      (canonicalized_keeps percentDecode (loadConfig storage.secrets config)).transportLayers
    rw [rowsOf config member, layers_restored layers]
    exact ⟨fun both => ⟨both.2, both.1⟩, fun both => ⟨both.2, both.1⟩⟩
  · intro config member
    rw [rowsOf config member]
    exact supplies_restored

end

/-- A snapshot that is built with a passphrase and applied with its secrets to an empty storage,
and one that is applied without secrets to the storage it was built from, both keep the secrets
of all connections exactly if there is no MQTT password and layers that share a key agree. -/
theorem snapshots_keep_secrets_iff
    (distinct : ((readables storage.rows).map ConnectionConfig.id).Nodup)
    (saves : ∀ config ∈ readables storage.rows, config.savePassword = true)
    (roundTrip : ∀ payload passphrase, decrypt (encrypt payload passphrase) passphrase = .ok payload)
    (given : normalizedPassphrase passphrase ≠ none)
    (built : (buildSyncSnapshot percentDecode parseTopics encrypt editorSettings passphrase
      storage).1 = .ok snapshot)
    {aiConfigs : Ai} {other : Other} {restored : Storage Rest Ai Other}
    (restoring : applySyncSnapshot percentDecode topicsJson decrypt snapshot ⟨true, passphrase⟩
      (emptyStorage aiConfigs other) = .ok restored)
    {editorSettings' : Option Json} {passphrase' given' : Option Str}
    {snapshot' : SyncSnapshot Rest Other Blob} {kept : Storage Rest Ai Other}
    (built' : (buildSyncSnapshot percentDecode parseTopics encrypt editorSettings' passphrase'
      storage).1 = .ok snapshot')
    (keeping : applySyncSnapshot percentDecode topicsJson decrypt snapshot' ⟨false, given'⟩
      (buildSyncSnapshot percentDecode parseTopics encrypt editorSettings' passphrase' storage).2 =
        .ok kept) :
    (loadedSecrets percentDecode restored = loadedSecrets percentDecode storage ∧
      loadedSecrets percentDecode kept = loadedSecrets percentDecode storage) ↔
      AllRestorable storage := by
  have unchanged := kept_iff distinct saves built' keeping
  rw [restored_iff distinct saves built roundTrip given restoring, unchanged]
  constructor
  · exact fun both => both.1
  · exact fun all => ⟨all, fun config member => (all config member).noMqttPassword⟩

end Snapshots

/-! ## Two storages -/

section Samples

/-- A connection with an SSH tunnel, or an MQTT connection. -/
def sampleConnection (dbType : DatabaseType) (externalConfig : Option Json) :
    ConnectionConfig Unit where
  id := "a".toList
  dbType := dbType
  driverProfile := none
  driverLabel := none
  urlParams := none
  port := 0
  password := []
  savePassword := true
  transportLayers := [.ssh ⟨[], [], [], ()⟩]
  redisSentinelPassword := []
  connectionString := none
  initScript := none
  externalConfig := externalConfig
  rest := ()

def sampleStorage (dbType : DatabaseType) (externalConfig : Option Json) :
    Storage Unit Unit Unit where
  rows := [.readable (sampleConnection dbType externalConfig)]
  secrets := fun _ key => if key = "password".toList ∨ key = transportLayerSshPasswordKey 0 []
    then some "secret".toList else none
  tunnelProfiles := []
  aiConfigs := ()
  other := ()

abbrev SampleBlob : Type := SensitiveSyncPayload Unit Unit × Str

def sampleBuild (storage : Storage Unit Unit Unit) : Except Str (SyncSnapshot Unit Unit SampleBlob) :=
  (buildSyncSnapshot id (fun _ => .ok []) Prod.mk none (some "key".toList) storage).1

def sampleApply (restoreSecrets : Bool) (storage target : Storage Unit Unit Unit) :
    Except Str (Storage Unit Unit Unit) :=
  (sampleBuild storage).bind fun snapshot =>
    applySyncSnapshot id (fun _ => .array []) (fun blob _ => .ok blob.1) snapshot
      ⟨restoreSecrets, some "key".toList⟩ target

def sampleRestored (storage : Storage Unit Unit Unit) : Storage Unit Unit Unit :=
  (sampleApply true storage (emptyStorage () ())).toOption.getD storage

def sampleKept (storage : Storage Unit Unit Unit) : Storage Unit Unit Unit :=
  (sampleApply false storage (loadConnections id storage).2).toOption.getD storage

theorem eq_ok_getD {α : Type} {result : Except Str α} (done : result.toOption.isSome = true)
    {default : α} : result = .ok (result.toOption.getD default) := by
  cases result with
  | error e => cases done
  | ok value => rfl

theorem sampleStorage_restorable : AllRestorable (sampleStorage .postgres none) := by
  intro config member
  have same : config = sampleConnection .postgres none := mem_singleton.mp member
  subst same
  constructor
  · exact fun mqtt => nomatch mqtt
  · unfold LayersAgree
    decide

theorem tunnel_secrets_kept : loadedSecrets id (sampleRestored (sampleStorage .postgres none)) =
        loadedSecrets id (sampleStorage .postgres none) ∧
      loadedSecrets id (sampleKept (sampleStorage .postgres none)) =
        loadedSecrets id (sampleStorage .postgres none) := by
  have restored : sampleApply true (sampleStorage .postgres none) (emptyStorage () ()) =
      .ok (sampleRestored (sampleStorage .postgres none)) := eq_ok_getD (by decide)
  have kept : sampleApply false (sampleStorage .postgres none)
        (loadConnections id (sampleStorage .postgres none)).2 =
      .ok (sampleKept (sampleStorage .postgres none)) := eq_ok_getD (by decide)
  obtain ⟨snapshot, built, restoring⟩ := bind_ok restored
  obtain ⟨snapshot', built', keeping⟩ := bind_ok kept
  exact (snapshots_keep_secrets_iff (by decide) (by decide) (fun _ _ => rfl) (by decide) built
    restoring built' keeping).mpr sampleStorage_restorable

/-- An MQTT connection with a password. -/
def mqttStorage : Storage Unit Unit Unit :=
  sampleStorage .mqtt (some (.object [(authName, .object [("kind".toList, .string passwordField),
    (passwordField, .string "secret".toList)])]))

def externalSecrets (storage : Storage Unit Unit Unit) : List (List Str) :=
  (loadedSecrets id storage).map fun entry => entry.2.external

/-- Its password is lost both times. -/
theorem mqtt_password_lost : externalSecrets mqttStorage = [["secret".toList]] ∧
      externalSecrets (sampleRestored mqttStorage) = [[[]]] ∧
      externalSecrets (sampleKept mqttStorage) = [[[]]] := by
  decide

end Samples

end Dbx.Guarantees.SnapshotRestore
