import Dbx.Source.CloudSync

/-!
# Secrets inside the external configuration

What the operations of `crates/dbx-core/src/storage.rs:3484-3573` and
`cloud_sync.rs:950-1180` do to a JSON object: a member keeps its place when it is replaced,
objects under different names do not disturb each other, and an object that is scrubbed
after it was hydrated does not show which value it held.
-/
namespace Dbx.Guarantees.ExternalSecrets

open Dbx.Lib.Text Dbx.Source Dbx.Source.ConnectionStore Dbx.Source.CloudSync List

/-! ## Members -/

/-- The members of an object. -/
abbrev Members := List (Str × Json)

variable {key other : Str} {value : Json} {members : Members}

attribute [local simp] insertMember

@[simp]
theorem lookup_insertMember_self :
    (insertMember key value members).lookup key = some value := by
  induction members with
  | nil => simp
  | cons first members ih =>
    unfold insertMember
    split
    · simp
    · rename_i different
      rw [lookup_cons, beq_false_of_ne (Ne.symm different)]
      exact ih

theorem lookup_insertMember_ne (different : other ≠ key) :
    (insertMember key value members).lookup other = members.lookup other := by
  induction members with
  | nil => simp [lookup_cons, beq_false_of_ne different]
  | cons first members ih =>
    unfold insertMember
    split
    · rename_i same
      rw [lookup_cons, lookup_cons, same]
      simp [beq_false_of_ne different]
    · rw [lookup_cons, lookup_cons, ih]

/-- The last value counts. -/
theorem insertMember_insertMember {old : Json} :
    insertMember key value (insertMember key old members) = insertMember key value members := by
  induction members with
  | nil => simp
  | cons first members ih =>
    obtain ⟨k, v⟩ := first
    by_cases same : k = key
    · simp [same]
    · simp [same, ih]

/-- Members that exist are replaced in their places, in any order. -/
theorem insertMember_comm (different : key ≠ other) (value value' : Json)
    (present : (members.lookup key).isSome) (present' : (members.lookup other).isSome) :
    insertMember key value (insertMember other value' members) =
      insertMember other value' (insertMember key value members) := by
  induction members with
  | nil => cases present
  | cons first members ih =>
    obtain ⟨k, v⟩ := first
    by_cases same : k = key
    · subst same
      simp [different]
    by_cases same' : k = other
    · subst same'
      simp [same]
    · rw [lookup_cons, beq_false_of_ne (Ne.symm same)] at present
      rw [lookup_cons, beq_false_of_ne (Ne.symm same')] at present'
      simp [same, same', ih present present']

theorem textAt_insertMember_ne (different : other ≠ key) (value : Json)
    (members : Members) :
    textAt other (insertMember key value members) = textAt other members := by
  unfold textAt
  rw [lookup_insertMember_ne different]

theorem textAt_scrubJsonSecret_ne (different : other ≠ key) (members : Members) :
    textAt other (scrubJsonSecret key members) = textAt other members := by
  unfold scrubJsonSecret
  split
  · exact textAt_insertMember_ne different _ members
  · rfl

/-- Whatever the field held, it holds the new value now. -/
theorem insertMember_scrubJsonSecret (key : Str) (value : Json) (members : Members) :
    insertMember key value (scrubJsonSecret key members) = insertMember key value members := by
  unfold scrubJsonSecret
  split
  · exact insertMember_insertMember
  · rfl

theorem scrubJsonSecret_insertMember (key : Str) (value : Json) (members : Members) :
    scrubJsonSecret key (insertMember key value members) =
      insertMember key (.string []) members := by
  unfold scrubJsonSecret
  rw [lookup_insertMember_self]
  exact insertMember_insertMember

/-! ## Objects under a name -/

variable {name name' : Str} {f g : Members → Members} {external : Option Json}

theorem updateSection_none (missing : sectionOf name external = none) :
    updateSection name f external = external := by
  unfold updateSection
  split
  · rename_i all
    have absent : (all.lookup name).bind asObject = none := missing
    rw [absent]
  · rfl

/-- An object under a name, and the object around it. -/
theorem sectionOf_some (found : sectionOf name external = some members) :
    ∃ all, external = some (.object all) ∧ all.lookup name = some (.object members) := by
  obtain ⟨value, at_, object⟩ := Option.bind_eq_some_iff.mp found
  obtain ⟨outer, rfl, inside⟩ := Option.bind_eq_some_iff.mp at_
  cases outer with
  | object all =>
    cases value with
    | object inner =>
      cases object
      exact ⟨all, rfl, inside⟩
    | _ => cases object
  | _ => cases inside

theorem updateSection_some {all : Members}
    (found : all.lookup name = some (.object members)) (f : Members → Members) :
    updateSection name f (some (.object all)) =
      some (.object (insertMember name (.object (f members)) all)) := by
  simp [updateSection, found, asObject]

theorem sectionOf_updateSection_self (name : Str) (f : Members → Members)
    (external : Option Json) :
    sectionOf name (updateSection name f external) = (sectionOf name external).map f := by
  cases found : sectionOf name external with
  | none =>
    rw [updateSection_none found, found]
    rfl
  | some members =>
    obtain ⟨all, rfl, inside⟩ := sectionOf_some found
    rw [updateSection_some inside]
    simp [sectionOf, getMember, asObject]

theorem getMember_updateSection_ne (different : other ≠ name) :
    (updateSection name f external).bind (getMember other) = external.bind (getMember other) := by
  cases found : sectionOf name external with
  | none => rw [updateSection_none found]
  | some members =>
    obtain ⟨all, rfl, inside⟩ := sectionOf_some found
    rw [updateSection_some inside]
    simp [getMember, asObject, lookup_insertMember_ne different]

theorem sectionOf_updateSection_ne (different : name' ≠ name) :
    sectionOf name' (updateSection name f external) = sectionOf name' external := by
  unfold sectionOf
  rw [getMember_updateSection_ne different]

theorem updateSection_updateSection (name : Str) (f g : Members → Members)
    (external : Option Json) :
    updateSection name f (updateSection name g external) =
      updateSection name (fun members => f (g members)) external := by
  cases found : sectionOf name external with
  | none => rw [updateSection_none found, updateSection_none found, updateSection_none found]
  | some members =>
    obtain ⟨all, rfl, inside⟩ := sectionOf_some found
    rw [updateSection_some inside, updateSection_some inside,
      updateSection_some lookup_insertMember_self, insertMember_insertMember]

theorem updateSection_comm (different : name ≠ name')
    (external : Option Json) :
    updateSection name f (updateSection name' g external) =
      updateSection name' g (updateSection name f external) := by
  cases found : sectionOf name external with
  | none =>
    have missing : sectionOf name (updateSection name' g external) = none := by
      rw [sectionOf_updateSection_ne different, found]
    rw [updateSection_none missing, updateSection_none found]
  | some members =>
    cases found' : sectionOf name' external with
    | none =>
      have missing : sectionOf name' (updateSection name f external) = none := by
        rw [sectionOf_updateSection_ne (Ne.symm different), found']
      rw [updateSection_none missing, updateSection_none found']
    | some members' =>
      obtain ⟨all, rfl, inside⟩ := sectionOf_some found
      have inside' : all.lookup name' = some (.object members') := by
        obtain ⟨same, equal, at_⟩ := sectionOf_some found'
        cases equal
        exact at_
      have kept : (insertMember name' (.object (g members')) all).lookup name =
          some (.object members) := by rw [lookup_insertMember_ne different, inside]
      have kept' : (insertMember name (.object (f members)) all).lookup name' =
          some (.object members') := by rw [lookup_insertMember_ne (Ne.symm different), inside']
      rw [updateSection_some inside', updateSection_some inside, updateSection_some kept,
        updateSection_some kept', insertMember_comm different]
      · rw [inside]
        rfl
      · rw [inside']
        rfl

theorem updateSection_congr (same : ∀ members, sectionOf name external = some members →
    f members = g members) : updateSection name f external = updateSection name g external := by
  cases found : sectionOf name external with
  | none => rw [updateSection_none found, updateSection_none found]
  | some members =>
    have equal := same members found
    obtain ⟨all, rfl, inside⟩ := sectionOf_some found
    rw [updateSection_some inside, updateSection_some inside, equal]

/-! ## Kinds -/

theorem authKind_updateSection_ne (different : name' ≠ name) :
    authKind name' (updateSection name f external) = authKind name' external := by
  unfold authKind
  rw [sectionOf_updateSection_ne different]

/-- A change that leaves the member `kind` alone. -/
theorem authKind_updateSection (kept : ∀ members,
      textAt "kind".toList (f members) = textAt "kind".toList members) (name name' : Str)
    (external : Option Json) :
    authKind name' (updateSection name f external) = authKind name' external := by
  by_cases same : name' = name
  · subst same
    unfold authKind
    rw [sectionOf_updateSection_self]
    cases sectionOf name' external with
    | none => rfl
    | some members => exact kept members
  · exact authKind_updateSection_ne same

variable {kind : Option Str} {secretKey field : Str} {config : ConnectionConfig Rest}

theorem authKind_scrub (other : field ≠ "kind".toList) :
    authKind name' (updateSection name (scrubJsonSecret field) external) =
      authKind name' external :=
  authKind_updateSection (textAt_scrubJsonSecret_ne (Ne.symm other)) name name' external

/-! ## Scrubbing what was hydrated -/

/-- The external configuration that `hydrateSection` leaves depends on the row only. -/
theorem hydrateSection_external (id name secretKey field : Str) (h : Hydration) :
    (hydrateSection id name secretKey field h).external = h.external ∨
      ∃ secret, h.secrets id secretKey = some secret ∧
        (hydrateSection id name secretKey field h).external =
          updateSection name (insertMember field (.string secret)) h.external := by
  unfold hydrateSection
  split
  · exact .inl rfl
  split
  · exact .inl rfl
  split
  · rename_i secret found
    exact .inr ⟨secret, found, rfl⟩
  · exact .inl rfl

attribute [local simp] hydrateSection

/-- After scrubbing, only whether there is a row can be seen. -/
theorem scrub_hydrateSection (id name secretKey field : Str) (h : Hydration) :
    updateSection name (scrubJsonSecret field) (hydrateSection id name secretKey field h).external =
      if (h.secrets id secretKey).isSome then
        updateSection name (insertMember field (.string [])) h.external
      else updateSection name (scrubJsonSecret field) h.external := by
  cases found : sectionOf name h.external with
  | none => simp [found, updateSection_none found]
  | some members =>
    cases held : nonEmpty (textAt field members) with
    | some secret =>
      -- The field exists, so scrubbing it is the same as replacing it.
      have present : (members.lookup field).isSome = true := by
        cases lookup : members.lookup field with
        | none => simp [textAt, lookup, nonEmpty] at held
        | some value => rfl
      have equal : updateSection name (scrubJsonSecret field) h.external =
          updateSection name (insertMember field (.string [])) h.external := by
        apply updateSection_congr
        intro inner at_
        rw [found] at at_
        cases at_
        simp [scrubJsonSecret, present]
      simp [found, held, equal]
    | none =>
      cases row : h.secrets id secretKey with
      | none => simp [found, held, row]
      | some secret =>
        simp [found, held, row, updateSection_updateSection, scrubJsonSecret_insertMember]

theorem sectionOf_hydrateSection_ne (different : name' ≠ name) (id secretKey field : Str)
    (h : Hydration) :
    sectionOf name' (hydrateSection id name secretKey field h).external =
      sectionOf name' h.external := by
  obtain same | changed := hydrateSection_external id name secretKey field h
  · rw [same]
  · obtain ⟨secret, _, same⟩ := changed
    rw [same, sectionOf_updateSection_ne different]

/-- Hydrating under one name and a change under another do not disturb each other. -/
theorem hydrateSection_updateSection (different : name' ≠ name) (id secretKey field : Str)
    (f : Members → Members) (h : Hydration) :
    hydrateSection id name secretKey field
        { h with external := updateSection name' f h.external } =
      { hydrateSection id name secretKey field h with
        external :=
          updateSection name' f (hydrateSection id name secretKey field h).external } := by
  have section_ : sectionOf name (updateSection name' f h.external) = sectionOf name h.external :=
    sectionOf_updateSection_ne (Ne.symm different)
  unfold hydrateSection
  rw [section_]
  cases sectionOf name h.external with
  | none => rfl
  | some members =>
    simp only
    cases nonEmpty (textAt field members) with
    | some secret => rfl
    | none =>
      cases h.secrets id secretKey with
      | none => rfl
      | some secret => simp only [updateSection_comm different]

theorem authKind_hydrateSection (notKind : field ≠ "kind".toList) (id name secretKey name' : Str)
    (h : Hydration) :
    authKind name' (hydrateSection id name secretKey field h).external =
      authKind name' h.external := by
  obtain same | changed := hydrateSection_external id name secretKey field h
  · rw [same]
  · obtain ⟨secret, _, same⟩ := changed
    rw [same]
    exact authKind_updateSection (textAt_insertMember_ne (Ne.symm notKind) _) name name' h.external

theorem hydrateSection_secrets_ne {id i k : Str} (different : ¬(i = id ∧ k = secretKey))
    (name field : Str) (h : Hydration) :
    (hydrateSection id name secretKey field h).secrets i k = h.secrets i k := by
  unfold hydrateSection
  split
  · rfl
  · split
    · simp [setSecret, different]
    · split <;> rfl

/-! ## Places -/

/-- A secret of an external configuration: the key of its row, the object and the field. -/
structure Place where
  key : Str
  name : Str
  field : Str
  deriving DecidableEq

def mqPlaces (external : Option Json) : List Place :=
  (match mqAuthSecret (authKind authName external) with
    | some (key, field) => [⟨key, authName, field⟩]
    | none => []) ++ [⟨mqTokenSigningKey, tokenSigningName, signingField⟩]

def loginPlaces (name key : Str) (external : Option Json) : List Place :=
  if authKind name external = some usernamePassword then [⟨key, name, passwordField⟩] else []

def nacosPlaces (external : Option Json) : List Place :=
  loginPlaces authName nacosAuthPasswordKey external ++
    loginPlaces rnacosConsoleAuthName nacosRnacosConsolePasswordKey external

/-- The MQTT password has no row here; the key is the one of `connection_secrets.rs:26`. -/
def mqttPlaces (external : Option Json) : List Place :=
  if authKind authName external = some passwordField then
    [⟨"mqtt.auth.password".toList, authName, passwordField⟩]
  else []

/-- The credential fields that the type of the database and the kind select. -/
def secretPlaces (dbType : DatabaseType) (external : Option Json) : List Place :=
  match dbType with
  | .messageQueue => mqPlaces external
  | .nacos => nacosPlaces external
  | .mqtt => mqttPlaces external
  | _ => []

/-- Empties the fields at some places, where they exist. -/
def scrubAll (places : List Place) (external : Option Json) : Option Json :=
  places.foldl (fun e place => updateSection place.name (scrubJsonSecret place.field) e) external

def hydrateAll (id : Str) (places : List Place) (h : Hydration) : Hydration :=
  places.foldl (fun h place => hydrateSection id place.name place.key place.field h) h

/-- Adds the empty fields for which there is a row. -/
def revealAll (rows : Str → Bool) (places : List Place) (external : Option Json) : Option Json :=
  places.foldl (fun e place =>
    if rows place.key then updateSection place.name (insertMember place.field (.string [])) e
    else e) external

/-- Places that do not share an object or a row, and do not name a kind. -/
structure Apart (places : List Place) : Prop where
  names : (places.map Place.name).Nodup
  keys : (places.map Place.key).Nodup
  fields : ∀ place ∈ places, place.field ≠ "kind".toList

variable {place : Place}

theorem Apart.tail {places : List Place} (h : Apart (place :: places)) : Apart places :=
  ⟨(nodup_cons.mp h.names).2, (nodup_cons.mp h.keys).2,
    (forall_mem_cons.mp h.fields).2⟩

section Places

variable {places : List Place}

theorem scrubAll_updateSection (different : name ∉ places.map Place.name)
    (f : Members → Members) (external : Option Json) :
    scrubAll places (updateSection name f external) =
      updateSection name f (scrubAll places external) := by
  induction places generalizing external with
  | nil => rfl
  | cons place places ih =>
    rw [map_cons, mem_cons, not_or] at different
    unfold scrubAll
    rw [foldl_cons, foldl_cons, updateSection_comm (Ne.symm different.1)]
    exact ih different.2 _

theorem hydrateAll_updateSection (different : name ∉ places.map Place.name)
    (f : Members → Members) (id : Str) (h : Hydration) :
    hydrateAll id places { h with external := updateSection name f h.external } =
      { hydrateAll id places h with
        external := updateSection name f (hydrateAll id places h).external } := by
  induction places generalizing h with
  | nil => rfl
  | cons place places ih =>
    rw [map_cons, mem_cons, not_or] at different
    unfold hydrateAll
    rw [foldl_cons, foldl_cons, hydrateSection_updateSection different.1]
    exact ih different.2 _

theorem revealAll_congr {rows rows' : Str → Bool}
    (same : ∀ place ∈ places, rows place.key = rows' place.key) (external : Option Json) :
    revealAll rows places external = revealAll rows' places external := by
  induction places generalizing external with
  | nil => rfl
  | cons place places ih =>
    unfold revealAll
    rw [foldl_cons, foldl_cons, same place mem_cons_self]
    exact ih (forall_mem_cons.mp same).2 _

/-- What can be seen of a configuration that is hydrated and scrubbed. -/
theorem scrubAll_hydrateAll (apart : Apart places) (id : Str) (h : Hydration) :
    scrubAll places (hydrateAll id places h).external =
      revealAll (fun key => (h.secrets id key).isSome) places (scrubAll places h.external) := by
  induction places generalizing h with
  | nil => rfl
  | cons place places ih =>
    have fresh := (nodup_cons.mp apart.names).1
    have ownKey := (nodup_cons.mp apart.keys).1
    have moved := hydrateAll_updateSection fresh (scrubJsonSecret place.field) id
      (hydrateSection id place.name place.key place.field h)
    have rest := ih apart.tail
      { hydrateSection id place.name place.key place.field h with
        external := updateSection place.name (scrubJsonSecret place.field)
          (hydrateSection id place.name place.key place.field h).external }
    rw [moved] at rest
    have rows : ∀ external, revealAll (fun key => ((hydrateSection id place.name place.key
          place.field h).secrets id key).isSome) places external =
        revealAll (fun key => (h.secrets id key).isSome) places external := by
      apply revealAll_congr
      intro other member
      rw [hydrateSection_secrets_ne]
      intro both
      exact ownKey (both.2 ▸ mem_map_of_mem member)
    apply (rest.trans (rows _)).trans
    simp only [scrub_hydrateSection]
    unfold revealAll
    rw [foldl_cons]
    congr 1
    split
    · have inserted : updateSection place.name (insertMember place.field (.string [])) h.external =
          updateSection place.name (insertMember place.field (.string []))
            (updateSection place.name (scrubJsonSecret place.field) h.external) := by
        rw [updateSection_updateSection]
        simp only [insertMember_scrubJsonSecret]
      rw [inserted, scrubAll_updateSection fresh]
      rfl
    · rfl

theorem authKind_scrubAll (apart : Apart places) (name : Str) (external : Option Json) :
    authKind name (scrubAll places external) = authKind name external := by
  induction places generalizing external with
  | nil => rfl
  | cons place places ih =>
    exact (ih apart.tail _).trans
      (authKind_scrub (apart.fields place mem_cons_self))

theorem authKind_hydrateAll (apart : Apart places) (id name : Str) (h : Hydration) :
    authKind name (hydrateAll id places h).external = authKind name h.external := by
  induction places generalizing h with
  | nil => rfl
  | cons place places ih =>
    exact (ih apart.tail _).trans
      (authKind_hydrateSection (apart.fields place mem_cons_self) id place.name place.key
        name h)

/-- Other rows stay as they are. -/
theorem hydrateAll_secrets_ne {id i k : Str}
    (different : ¬(i = id ∧ k ∈ places.map Place.key)) (h : Hydration) :
    (hydrateAll id places h).secrets i k = h.secrets i k := by
  induction places generalizing h with
  | nil => rfl
  | cons place places ih =>
    have later : ¬(i = id ∧ k ∈ places.map Place.key) :=
      fun both => different ⟨both.1, mem_cons_of_mem _ both.2⟩
    have here : ¬(i = id ∧ k = place.key) :=
      fun both => different ⟨both.1, both.2 ▸ mem_cons_self⟩
    exact (ih later _).trans (hydrateSection_secrets_ne here place.name place.field h)

end Places

/-! ## The places of a configuration -/

/-- The keys of the rows that places can have. -/
def placeKeys : List Str :=
  [mqAuthTokenKey, mqAuthPasswordKey, mqAuthApiKeyValueKey, mqAuthClientSecretKey,
    mqTokenSigningKey, nacosAuthPasswordKey, nacosRnacosConsolePasswordKey]

/-- The lists that `mqPlaces` gives. -/
def mqLists : List (List Place) :=
  [[], [⟨mqAuthTokenKey, authName, "token".toList⟩],
    [⟨mqAuthPasswordKey, authName, "password".toList⟩],
    [⟨mqAuthApiKeyValueKey, authName, "value".toList⟩],
    [⟨mqAuthClientSecretKey, authName, "clientSecret".toList⟩]].map
      (· ++ [⟨mqTokenSigningKey, tokenSigningName, signingField⟩])

def nacosLists : List (List Place) :=
  [[], [⟨nacosAuthPasswordKey, authName, passwordField⟩],
    [⟨nacosRnacosConsolePasswordKey, rnacosConsoleAuthName, passwordField⟩],
    [⟨nacosAuthPasswordKey, authName, passwordField⟩,
      ⟨nacosRnacosConsolePasswordKey, rnacosConsoleAuthName, passwordField⟩]]

theorem mqPlaces_listed {external : Option Json} : mqPlaces external ∈ mqLists := by
  unfold mqPlaces mqAuthSecret
  split
  · rename_i found
    repeat' split at found
    all_goals cases found
    all_goals decide
  · decide

theorem nacosPlaces_listed {external : Option Json} : nacosPlaces external ∈ nacosLists := by
  unfold nacosPlaces loginPlaces
  split <;> split <;> decide

/-- No field with a secret is the one that names the kind. -/
theorem apart_of_listed {lists : List (List Place)} {places : List Place} (listed : places ∈ lists)
    (all : ∀ l ∈ lists, (l.map Place.name).Nodup ∧ (l.map Place.key).Nodup ∧
      ∀ place ∈ l, place.field ≠ "kind".toList) : Apart places :=
  ⟨(all places listed).1, (all places listed).2.1, (all places listed).2.2⟩

variable (external : Option Json)

theorem mqPlaces_apart : Apart (mqPlaces external) := apart_of_listed mqPlaces_listed (by decide)

theorem nacosPlaces_apart : Apart (nacosPlaces external) :=
  apart_of_listed nacosPlaces_listed (by decide)

theorem scrubMq_eq :
    scrubMqTokenSigning (scrubMqAuth external) = scrubAll (mqPlaces external) external := by
  unfold scrubMqTokenSigning scrubMqAuth mqPlaces
  cases mqAuthSecret (authKind authName external) <;> rfl

theorem scrubNacosAuth_eq : scrubNacosAuth external = scrubAll (nacosPlaces external) external := by
  have kept : authKind rnacosConsoleAuthName (scrubNacosLogin authName external) =
      authKind rnacosConsoleAuthName external := by
    unfold scrubNacosLogin
    split
    · exact authKind_updateSection_ne (by decide)
    · rfl
  unfold scrubNacosAuth
  rw [scrubNacosLogin, kept]
  unfold scrubNacosLogin nacosPlaces loginPlaces
  split <;> split <;> rfl

variable {Rest : Type}

theorem hydrateExternal_mq (mq : config.dbType = .messageQueue) (secrets : Secrets) :
    hydrateExternal config secrets =
      hydrateAll config.id (mqPlaces config.externalConfig)
        ⟨secrets, config.externalConfig, false⟩ := by
  unfold hydrateExternal hydrateNacosAuthSecret hydrateMqTokenSigningSecret hydrateMqAuthSecrets
    mqPlaces
  rw [if_neg (by rw [mq]; decide), if_pos mq, if_pos mq]
  cases mqAuthSecret (authKind authName config.externalConfig) <;> rfl

theorem hydrateExternal_nacos (nacos : config.dbType = .nacos) (saves : config.savePassword = true)
    (secrets : Secrets) :
    hydrateExternal config secrets =
      hydrateAll config.id (nacosPlaces config.externalConfig)
        ⟨secrets, config.externalConfig, false⟩ := by
  have other : config.dbType ≠ .messageQueue := by
    rw [nacos]
    decide
  unfold hydrateExternal hydrateNacosAuthSecret hydrateMqTokenSigningSecret hydrateMqAuthSecrets
  rw [if_pos nacos, if_pos saves, if_neg other, if_neg other]
  unfold nacosPlaces loginPlaces hydrateNacosLogin
  split
  · rw [authKind_hydrateSection (by decide)]
    split <;> rfl
  · simp only
    split <;> rfl

/-- A configuration whose places have rows. -/
def Stored (config : ConnectionConfig Rest) : Prop :=
  config.dbType = .messageQueue ∨ (config.dbType = .nacos ∧ config.savePassword = true)

theorem stored_cases (config : ConnectionConfig Rest) :
    Stored config ∨ config.dbType = .nacos ∧ config.savePassword = false ∨
      config.dbType ≠ .messageQueue ∧ config.dbType ≠ .nacos := by
  unfold Stored
  grind

theorem hydrateExternal_stored (stored : Stored config) (secrets : Secrets) :
    hydrateExternal config secrets =
      hydrateAll config.id (secretPlaces config.dbType config.externalConfig)
        ⟨secrets, config.externalConfig, false⟩ := by
  obtain mq | nacos := stored
  · rw [hydrateExternal_mq mq, mq]
    rfl
  · rw [hydrateExternal_nacos nacos.1 nacos.2, nacos.1]
    rfl

theorem hydrateExternal_forgetting (nacos : config.dbType = .nacos)
    (transient : config.savePassword = false) (secrets : Secrets) :
    (hydrateExternal config secrets).external =
        scrubAll (nacosPlaces config.externalConfig) config.externalConfig ∧
      (hydrateExternal config secrets).secrets =
        deleteSecretPrefix config.id nacosAuthSecretPrefix secrets := by
  have other : config.dbType ≠ .messageQueue := by
    rw [nacos]
    decide
  unfold hydrateExternal hydrateNacosAuthSecret hydrateMqTokenSigningSecret hydrateMqAuthSecrets
  rw [if_pos nacos, if_neg (by rw [transient]; decide), if_neg other, if_neg other]
  exact ⟨scrubNacosAuth_eq _, rfl⟩

theorem hydrateExternal_other (other : config.dbType ≠ .messageQueue)
    (other' : config.dbType ≠ .nacos) (secrets : Secrets) :
    hydrateExternal config secrets = ⟨secrets, config.externalConfig, false⟩ := by
  unfold hydrateExternal hydrateNacosAuthSecret hydrateMqTokenSigningSecret hydrateMqAuthSecrets
  rw [if_neg other', if_neg other, if_neg other]

theorem mqPlaces_key {external : Option Json} (member : place ∈ mqPlaces external) :
    place.key ∈ placeKeys :=
  (by decide : ∀ l ∈ mqLists, ∀ place ∈ l, place.key ∈ placeKeys) _ mqPlaces_listed place member

theorem nacosPlaces_key {external : Option Json} (member : place ∈ nacosPlaces external) :
    place.key ∈ placeKeys :=
  (by decide : ∀ l ∈ nacosLists, ∀ place ∈ l, place.key ∈ placeKeys) _ nacosPlaces_listed place
    member

theorem secretPlaces_keys (stored : Stored config) {external : Option Json}
    (member : place ∈ secretPlaces config.dbType external) :
    place.key ∈ placeKeys := by
  obtain mq | nacos := stored
  · rw [mq] at member
    exact mqPlaces_key member
  · rw [nacos.1] at member
    exact nacosPlaces_key member

/-- Loading a configuration touches rows of that connection under the keys of places only. -/
theorem hydrateExternal_secrets {secrets : Secrets} {i k : Str}
    (apart : i ≠ config.id ∨
      (k ∉ placeKeys ∧ startsWithIgnoreCase nacosAuthSecretPrefix k = false)) :
    (hydrateExternal config secrets).secrets i k = secrets i k := by
  rcases stored_cases config with stored | ⟨nacos, forgets⟩ | ⟨mq, nacos⟩
  · rw [hydrateExternal_stored stored, hydrateAll_secrets_ne]
    rintro ⟨same, inside⟩
    obtain ⟨place, member, rfl⟩ := mem_map.mp inside
    obtain different | key := apart
    · exact different same
    · exact key.1 (secretPlaces_keys stored member)
  · rw [(hydrateExternal_forgetting nacos forgets secrets).2]
    unfold deleteSecretPrefix
    rw [if_neg]
    rintro ⟨same, starts⟩
    obtain different | key := apart
    · exact different same
    · rw [key.2] at starts
      cases starts
  · rw [hydrateExternal_other mq nacos]

end Dbx.Guarantees.ExternalSecrets
