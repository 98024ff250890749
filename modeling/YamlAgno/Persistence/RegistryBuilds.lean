import YamlAgno.Library.Paired
import YamlAgno.Persistence.DbRegistry

/-!
# What a registry of databases comes to

When `build_db_registry` returns, and with which databases, in terms of the entries of its two
sections: `DsnOf` is the DSN of an entry with the password put in, `DbBuilds` and `VectorBuilds`
say what is built of an entry.  Otherwise the error is that of the first entry that is not built,
and no vector database is tried before all databases are there (`buildDbRegistry_exact`).
-/

namespace YamlAgno

open Fallible

variable {F D V X : Type} {B : PyBuiltins F} {getSecret : String → Except X String}
  {dbFactory : String → String → Except X D}
  {vectorDbFactory : String → String → String → Except X V}

/-! ## What is built of an entry -/

/-- The DSN of an entry: without a password, or with the one that it refers to. -/
inductive DsnOf (getSecret : String → Except X String) (entry : PyValue) : String → Prop
  | plain
      {dsn : String}
      (hdsn : entry.item "dsn" = some (.str dsn))
      (hne : dsn ≠ "")
      (hno : ¬ passwordPlaceholder <:+: dsn.toList)
      (hunused : (entry.item "password_ref").getD .none = .none) :
      DsnOf getSecret entry dsn
  | filled
      {dsn passwordRef password : String}
      (hdsn : entry.item "dsn" = some (.str dsn))
      (hne : dsn ≠ "")
      (hplaceholder : passwordPlaceholder <:+: dsn.toList)
      (hused : entry.item "password_ref" = some (.str passwordRef))
      (hsecret : getSecret passwordRef = .ok password) :
      DsnOf getSecret entry (PyText.replace dsn passwordPlaceholder password.toList)

/-- What is registered for an entry of `databases`. -/
def DbBuilds
    (getSecret : String → Except X String)
    (dbFactory : String → String → Except X D)
    (declared : String × PyValue)
    (registered : String × D) :
    Prop :=
  registered.1 = declared.1 ∧ ∃ entries dsn, declared.2 = .dict entries ∧
    DsnOf getSecret (.dict entries) dsn ∧ dbFactory declared.1 dsn = .ok registered.2

/-- What is registered for an entry of `vector_databases`. -/
def VectorBuilds
    (getSecret : String → Except X String)
    (vectorDbFactory : String → String → String → Except X V)
    (declared : String × PyValue)
    (registered : String × V) :
    Prop :=
  registered.1 = declared.1 ∧ ∃ entries dsn tableName, declared.2 = .dict entries ∧
    DsnOf getSecret (.dict entries) dsn ∧
    PyValue.item (.dict entries) "table_name" = some (.str tableName) ∧ tableName ≠ "" ∧
    vectorDbFactory declared.1 dsn tableName = .ok registered.2

theorem requiredText_eq_ok_iff
    {entry : PyValue} {field message text : String} :
    (requiredText entry field message : Except (RegistryError X) String) = .ok text ↔
      entry.item field = some (.str text) ∧ text ≠ "" := by
  unfold requiredText
  split
  · next found hfound =>
      rw [hfound]
      by_cases hempty : found = ""
      · simp [hempty]
      · rw [if_neg hempty]
        constructor
        · intro h
          cases h
          exact ⟨rfl, hempty⟩
        · rintro ⟨h, -⟩
          cases h
          rfl
  · next hnot =>
      simp only [reduceCtorEq, false_iff, not_and]
      exact fun h => absurd h (hnot text)

theorem resolveDsn_eq_ok_iff
    {dbRef dsn : String} {entry : PyValue} :
    resolveDsn B getSecret dbRef entry = .ok dsn ↔ DsnOf getSecret entry dsn := by
  unfold resolveDsn
  rw [bind_eq_ok_iff]
  simp only [requiredText_eq_ok_iff]
  constructor
  · rintro ⟨template, ⟨hdsn, hne⟩, h⟩
    split at h
    · next hplaceholder =>
        split at h
        · next passwordRef hused =>
            obtain ⟨password, hsecret, h⟩ := bind_eq_ok_iff.mp h
            cases h
            refine .filled hdsn hne hplaceholder ?_ (mapError_eq_ok_iff.mp hsecret)
            cases hitem : entry.item "password_ref" with
            | none =>
                rw [hitem] at hused
                cases hused
            | some value =>
                rw [hitem, Option.getD_some] at hused
                rw [hused]
        · cases h
    · next hno =>
        split at h
        · next hunused =>
            cases h
            exact .plain hdsn hne hno hunused
        · cases h
  · intro h
    cases h with
    | plain hdsn hne hno hunused =>
        refine ⟨dsn, ⟨hdsn, hne⟩, ?_⟩
        simp only [if_neg hno, hunused]
        rfl
    | filled hdsn hne hplaceholder hused hsecret =>
        refine ⟨_, ⟨hdsn, hne⟩, ?_⟩
        simp only [if_pos hplaceholder, hused, Option.getD_some, hsecret]
        rfl

/-! ## One entry -/

/-- What one turn of the loop over `databases` builds, before it is registered. -/
def databaseOf
    (B : PyBuiltins F)
    (getSecret : String → Except X String)
    (dbFactory : String → String → Except X D)
    (declared : String × PyValue) :
    Except (RegistryError X) D :=
  match declared.2 with
  | .dict entries => do
      let dsn ← resolveDsn B getSecret declared.1 (.dict entries)
      (dbFactory declared.1 dsn).mapError .raised
  | entry =>
      .error (.value
        s!"db_ref {B.repr (.str declared.1)} must be a mapping, got {B.typeName entry}")

/-- What one turn of the loop over `vector_databases` builds. -/
def vectorDatabaseOf
    (B : PyBuiltins F)
    (getSecret : String → Except X String)
    (vectorDbFactory : String → String → String → Except X V)
    (declared : String × PyValue) :
    Except (RegistryError X) V :=
  match declared.2 with
  | .dict entries => do
      let dsn ← resolveDsn B getSecret declared.1 (.dict entries)
      let tableName ← requiredText (.dict entries) "table_name"
        s!"vector_db ref {B.repr (.str declared.1)} is missing required 'table_name' (string)"
      (vectorDbFactory declared.1 dsn tableName).mapError .raised
  | entry =>
      .error (.value
        s!"vector_db ref {B.repr (.str declared.1)} must be a mapping, got {B.typeName entry}")

theorem registerDatabase_eq_map
    (registry : InMemoryDbRegistry D V) (declared : String × PyValue) :
    registerDatabase B getSecret dbFactory registry declared =
      (databaseOf B getSecret dbFactory declared).map (registry.registerDb declared.1) := by
  obtain ⟨ref, entry⟩ := declared
  cases entry with
  | dict entries =>
      simp only [registerDatabase, databaseOf]
      cases resolveDsn B getSecret ref (.dict entries) with
      | error error => rfl
      | ok dsn =>
          change (dbFactory ref dsn).mapError _ >>= _ = ((dbFactory ref dsn).mapError _).map _
          cases dbFactory ref dsn <;> rfl
  | none | bool _ | int _ | str _ | list _ | object _ _ =>
      rfl

theorem registerVectorDatabase_eq_map
    (registry : InMemoryDbRegistry D V) (declared : String × PyValue) :
    registerVectorDatabase B getSecret vectorDbFactory registry declared =
      (vectorDatabaseOf B getSecret vectorDbFactory declared).map
        (registry.registerVectorDb declared.1) := by
  obtain ⟨ref, entry⟩ := declared
  cases entry with
  | dict entries =>
      simp only [registerVectorDatabase, vectorDatabaseOf]
      cases resolveDsn B getSecret ref (.dict entries) with
      | error error => rfl
      | ok dsn =>
          change requiredText _ _ _ >>= _ = (requiredText _ _ _ >>= _).map _
          cases requiredText (X := X) (.dict entries) "table_name"
            s!"vector_db ref {B.repr (.str ref)} is missing required 'table_name' (string)" with
          | error error => rfl
          | ok tableName =>
              change (vectorDbFactory ref dsn tableName).mapError _ >>= _ =
                ((vectorDbFactory ref dsn tableName).mapError _).map _
              cases vectorDbFactory ref dsn tableName <;> rfl
  | none | bool _ | int _ | str _ | list _ | object _ _ =>
      rfl

theorem databaseOf_eq_ok_iff
    {declared : String × PyValue} {db : D} :
    databaseOf B getSecret dbFactory declared = .ok db ↔
      DbBuilds getSecret dbFactory declared (declared.1, db) := by
  unfold databaseOf DbBuilds
  constructor
  · intro h
    split at h
    · next entries hentry =>
        obtain ⟨dsn, hdsn, hdb⟩ := bind_eq_ok_iff.mp h
        exact ⟨rfl, entries, dsn, hentry, resolveDsn_eq_ok_iff.mp hdsn,
          mapError_eq_ok_iff.mp hdb⟩
    · cases h
  · rintro ⟨-, entries, dsn, hentry, hdsn, hdb⟩
    rw [hentry]
    exact bind_eq_ok_iff.mpr ⟨dsn, resolveDsn_eq_ok_iff.mpr hdsn, mapError_eq_ok_iff.mpr hdb⟩

theorem vectorDatabaseOf_eq_ok_iff
    {declared : String × PyValue} {vectorDb : V} :
    vectorDatabaseOf B getSecret vectorDbFactory declared = .ok vectorDb ↔
      VectorBuilds getSecret vectorDbFactory declared (declared.1, vectorDb) := by
  unfold vectorDatabaseOf VectorBuilds
  constructor
  · intro h
    split at h
    · next entries hentry =>
        obtain ⟨dsn, hdsn, h⟩ := bind_eq_ok_iff.mp h
        obtain ⟨tableName, htable, hdb⟩ := bind_eq_ok_iff.mp h
        obtain ⟨hitem, hne⟩ := requiredText_eq_ok_iff.mp htable
        exact ⟨rfl, entries, dsn, tableName, hentry, resolveDsn_eq_ok_iff.mp hdsn, hitem, hne,
          mapError_eq_ok_iff.mp hdb⟩
    · cases h
  · rintro ⟨-, entries, dsn, tableName, hentry, hdsn, hitem, hne, hdb⟩
    rw [hentry]
    refine bind_eq_ok_iff.mpr ⟨dsn, resolveDsn_eq_ok_iff.mpr hdsn, ?_⟩
    exact bind_eq_ok_iff.mpr ⟨tableName, requiredText_eq_ok_iff.mpr ⟨hitem, hne⟩,
      mapError_eq_ok_iff.mpr hdb⟩

/-- A turn of the first loop registers what the entry builds. -/
theorem registerDatabase_eq_ok_iff
    (registry : InMemoryDbRegistry D V) (declared : String × PyValue)
    (registry' : InMemoryDbRegistry D V) :
    registerDatabase B getSecret dbFactory registry declared = .ok registry' ↔
      ∃ item, DbBuilds getSecret dbFactory declared item ∧
        registry' = registry.registerDb item.1 item.2 := by
  rw [registerDatabase_eq_map, map_eq_ok_iff]
  constructor
  · rintro ⟨db, hdb, rfl⟩
    exact ⟨_, databaseOf_eq_ok_iff.mp hdb, rfl⟩
  · rintro ⟨⟨ref, db⟩, hbuilds, rfl⟩
    obtain rfl : ref = declared.1 := hbuilds.1
    exact ⟨db, databaseOf_eq_ok_iff.mpr hbuilds, rfl⟩

theorem registerVectorDatabase_eq_ok_iff
    (registry : InMemoryDbRegistry D V) (declared : String × PyValue)
    (registry' : InMemoryDbRegistry D V) :
    registerVectorDatabase B getSecret vectorDbFactory registry declared = .ok registry' ↔
      ∃ item, VectorBuilds getSecret vectorDbFactory declared item ∧
        registry' = registry.registerVectorDb item.1 item.2 := by
  rw [registerVectorDatabase_eq_map, map_eq_ok_iff]
  constructor
  · rintro ⟨vectorDb, hdb, rfl⟩
    exact ⟨_, vectorDatabaseOf_eq_ok_iff.mp hdb, rfl⟩
  · rintro ⟨⟨ref, vectorDb⟩, hbuilds, rfl⟩
    obtain rfl : ref = declared.1 := hbuilds.1
    exact ⟨vectorDb, vectorDatabaseOf_eq_ok_iff.mpr hbuilds, rfl⟩

/-! ## The two loops -/

/-- Registering pairs under distinct refs, from an empty dictionary on, keeps the pairs. -/
theorem foldl_registerDb
    (items : List (String × D)) (registry : InMemoryDbRegistry D V) :
    items.foldl (fun registry item => registry.registerDb item.1 item.2) registry =
      { registry with
        dbs := items.foldl (fun dbs item => OrderedDict.set item.1 item.2 dbs) registry.dbs } := by
  induction items generalizing registry with
  | nil =>
      rfl
  | cons item items ih =>
      rw [List.foldl_cons, ih]
      rfl

theorem foldl_registerVectorDb
    (items : List (String × V)) (registry : InMemoryDbRegistry D V) :
    items.foldl (fun registry item => registry.registerVectorDb item.1 item.2) registry =
      { registry with
        vectorDbs :=
          items.foldl (fun dbs item => OrderedDict.set item.1 item.2 dbs) registry.vectorDbs } := by
  induction items generalizing registry with
  | nil =>
      rfl
  | cons item items ih =>
      rw [List.foldl_cons, ih]
      rfl

/-- What is built of entries stands under their refs. -/
theorem keys_of_builds
    {W : Type} {builds : String × PyValue → String × W → Prop}
    (hkey : ∀ declared item, builds declared item → item.1 = declared.1)
    {section_ : PyDict} {items : List (String × W)}
    (h : List.Forall₂ builds section_ items) :
    items.map Prod.fst = section_.map Prod.fst := by
  induction h with
  | nil =>
      rfl
  | cons hbuilds _ ih =>
      rw [List.map_cons, List.map_cons, hkey _ _ hbuilds, ih]

/-- What stands under a ref is what is built of the entry under that ref. -/
theorem lookup_of_builds
    {W : Type} {builds : String × PyValue → String × W → Prop}
    (hkey : ∀ declared item, builds declared item → item.1 = declared.1)
    (hunique : ∀ declared item item', builds declared item → builds declared item' → item = item')
    {section_ : PyDict} {items : List (String × W)}
    (hnodup : (section_.map Prod.fst).Nodup)
    (h : List.Forall₂ builds section_ items)
    (ref : String) (built : W) :
    items.lookup ref = some built ↔
      ∃ entry, (ref, entry) ∈ section_ ∧ builds (ref, entry) (ref, built) := by
  rw [← OrderedDict.mem_iff_lookup ((keys_of_builds hkey h).symm ▸ hnodup)]
  constructor
  · intro hmem
    obtain ⟨i, ⟨ref', entry⟩, hdeclared, hbuilds⟩ := Paired.exists_of_mem_right h hmem
    obtain rfl : ref = ref' := hkey _ _ hbuilds
    exact ⟨entry, List.mem_of_getElem? hdeclared, hbuilds⟩
  · rintro ⟨entry, hdeclared, hbuilds⟩
    obtain ⟨i, hi⟩ := List.mem_iff_getElem?.mp hdeclared
    obtain ⟨item, hmem, hbuilds'⟩ := Paired.exists_at h hi
    rw [hunique _ _ _ hbuilds hbuilds']
    exact List.mem_of_getElem? hmem

/-- The error is that of the first entry of a section that is not built. -/
def FailsFirst
    {W : Type}
    (builds : String × PyValue → String × W → Prop)
    (build : String × PyValue → Except (RegistryError X) W)
    (section_ : PyDict)
    (error : RegistryError X) :
    Prop :=
  ∃ before declared after, section_ = before ++ declared :: after ∧
    (∀ earlier ∈ before, ∃ item, builds earlier item) ∧ build declared = .error error

/-- Pairs that are set one after the other are a dictionary as they are. -/
theorem foldl_set_of_builds
    {W : Type} {builds : String × PyValue → String × W → Prop}
    (hkey : ∀ declared item, builds declared item → item.1 = declared.1)
    {section_ : PyDict} {items : List (String × W)}
    (hnodup : (section_.map Prod.fst).Nodup)
    (h : List.Forall₂ builds section_ items) :
    items.foldl (fun dbs item => OrderedDict.set item.1 item.2 dbs) [] = items :=
  OrderedDict.ofPairs_of_nodup ((keys_of_builds hkey h).symm ▸ hnodup)

section Exact

variable (config : ConfigManager)

/-- A registry that is built holds exactly the refs that its two sections declare. -/
theorem refs_of_buildDbRegistry
    {registry : InMemoryDbRegistry D V}
    (h : buildDbRegistry B getSecret dbFactory vectorDbFactory config = .ok registry)
    (ref : String) :
    (ref ∈ registry.dbs.map Prod.fst ↔
      ref ∈ (config.getSection "databases").map Prod.fst) ∧
    (ref ∈ registry.vectorDbs.map Prod.fst ↔
      ref ∈ (config.getSection "vector_databases").map Prod.fst) := by
  rw [buildDbRegistry, bind_eq_ok_iff] at h
  simp only [foldlM_eq_ok_iff registerDatabase_eq_ok_iff,
    foldlM_eq_ok_iff registerVectorDatabase_eq_ok_iff, foldl_registerDb,
    foldl_registerVectorDb] at h
  obtain ⟨_, ⟨items, hitems, rfl⟩, vectorItems, hvectorItems, rfl⟩ := h
  have hkeys := keys_of_builds (fun _ _ h => h.1) hitems
  have hvectorKeys := keys_of_builds (fun _ _ h => h.1) hvectorItems
  constructor
  · rw [← hkeys]
    exact OrderedDict.mem_keys_foldl_set.trans (by simp [InMemoryDbRegistry.empty])
  · rw [← hvectorKeys]
    exact OrderedDict.mem_keys_foldl_set.trans (by simp [InMemoryDbRegistry.empty])

/--
The registry is built exactly if every entry is, with what is built of each in the order of the
sections.
-/
theorem buildDbRegistry_eq_ok_iff
    (hdbs : ((config.getSection "databases").map Prod.fst).Nodup)
    (hvectors : ((config.getSection "vector_databases").map Prod.fst).Nodup)
    (registry : InMemoryDbRegistry D V) :
    buildDbRegistry B getSecret dbFactory vectorDbFactory config = .ok registry ↔
      List.Forall₂ (DbBuilds getSecret dbFactory) (config.getSection "databases") registry.dbs ∧
        List.Forall₂ (VectorBuilds getSecret vectorDbFactory)
          (config.getSection "vector_databases") registry.vectorDbs := by
  rw [buildDbRegistry, bind_eq_ok_iff]
  simp only [foldlM_eq_ok_iff registerDatabase_eq_ok_iff,
    foldlM_eq_ok_iff registerVectorDatabase_eq_ok_iff, foldl_registerDb, foldl_registerVectorDb]
  constructor
  · rintro ⟨_, ⟨items, hitems, rfl⟩, vectorItems, hvectorItems, rfl⟩
    have hkeep := foldl_set_of_builds (fun _ _ h => h.1) hdbs hitems
    have hvectorKeep := foldl_set_of_builds (fun _ _ h => h.1) hvectors hvectorItems
    simp only [InMemoryDbRegistry.empty, hkeep, hvectorKeep]
    exact ⟨hitems, hvectorItems⟩
  · rintro ⟨hitems, hvectorItems⟩
    have hkeep := foldl_set_of_builds (fun _ _ h => h.1) hdbs hitems
    have hvectorKeep := foldl_set_of_builds (fun _ _ h => h.1) hvectors hvectorItems
    refine ⟨_, ⟨registry.dbs, hitems, rfl⟩, registry.vectorDbs, hvectorItems, ?_⟩
    simp only [InMemoryDbRegistry.empty, hkeep, hvectorKeep]

/-- Otherwise the error is that of the first entry that is not built, vector databases last. -/
theorem buildDbRegistry_eq_error_iff
    (error : RegistryError X) :
    buildDbRegistry B getSecret dbFactory vectorDbFactory config = .error error ↔
      FailsFirst (DbBuilds getSecret dbFactory) (databaseOf B getSecret dbFactory)
          (config.getSection "databases") error ∨
        (∃ dbs, List.Forall₂ (DbBuilds getSecret dbFactory) (config.getSection "databases") dbs) ∧
          FailsFirst (VectorBuilds getSecret vectorDbFactory)
            (vectorDatabaseOf B getSecret vectorDbFactory)
            (config.getSection "vector_databases") error := by
  have hfails : ∀ (registry : InMemoryDbRegistry D V) declared error,
      registerDatabase B getSecret dbFactory registry declared = .error error ↔
        databaseOf B getSecret dbFactory declared = .error error := fun registry declared error => by
    rw [registerDatabase_eq_map, map_eq_error_iff]
  have hvectorFails : ∀ (registry : InMemoryDbRegistry D V) declared error,
      registerVectorDatabase B getSecret vectorDbFactory registry declared = .error error ↔
        vectorDatabaseOf B getSecret vectorDbFactory declared = .error error :=
    fun registry declared error => by
      rw [registerVectorDatabase_eq_map, map_eq_error_iff]
  rw [buildDbRegistry, bind_eq_error_iff,
    foldlM_eq_error_iff registerDatabase_eq_ok_iff hfails]
  simp only [foldlM_eq_ok_iff registerDatabase_eq_ok_iff,
    foldlM_eq_error_iff registerVectorDatabase_eq_ok_iff hvectorFails]
  refine or_congr Iff.rfl ⟨?_, ?_⟩
  · rintro ⟨_, ⟨dbs, hdbs, -⟩, hfail⟩
    exact ⟨⟨dbs, hdbs⟩, hfail⟩
  · rintro ⟨⟨dbs, hdbs⟩, hfail⟩
    exact ⟨_, ⟨dbs, hdbs, rfl⟩, hfail⟩

/-- Both: when there is a registry, and what there is otherwise. -/
theorem buildDbRegistry_exact
    (hdbs : ((config.getSection "databases").map Prod.fst).Nodup)
    (hvectors : ((config.getSection "vector_databases").map Prod.fst).Nodup) :
    (∀ registry, buildDbRegistry B getSecret dbFactory vectorDbFactory config = .ok registry ↔
      List.Forall₂ (DbBuilds getSecret dbFactory) (config.getSection "databases") registry.dbs ∧
        List.Forall₂ (VectorBuilds getSecret vectorDbFactory)
          (config.getSection "vector_databases") registry.vectorDbs) ∧
    ∀ error, buildDbRegistry B getSecret dbFactory vectorDbFactory config = .error error ↔
      FailsFirst (DbBuilds getSecret dbFactory) (databaseOf B getSecret dbFactory)
          (config.getSection "databases") error ∨
        (∃ dbs, List.Forall₂ (DbBuilds getSecret dbFactory) (config.getSection "databases") dbs) ∧
          FailsFirst (VectorBuilds getSecret vectorDbFactory)
            (vectorDatabaseOf B getSecret vectorDbFactory)
            (config.getSection "vector_databases") error :=
  ⟨buildDbRegistry_eq_ok_iff config hdbs hvectors, buildDbRegistry_eq_error_iff config⟩

/-- A database, and a vector database with a password. -/
def twoDatabases : ConfigManager where
  getString _ default := .ok default
  getSection
    | "databases" => [("primary", .dict [(.str "dsn", .str "postgresql://db/app")])]
    | "vector_databases" =>
        [("docs", .dict [(.str "dsn", .str "postgresql://app:\x7bpassword\x7d@db/docs"),
          (.str "password_ref", .str "db.docs"), (.str "table_name", .str "chunks")])]
    | _ => []

theorem buildDbRegistry_exact_twoDatabases :
    ∃ registry : InMemoryDbRegistry String String,
      buildDbRegistry ConfigAdapter.plainBuiltins (fun _ => (.ok "s3cr3t" : Except Unit String))
        (fun _ dsn => .ok dsn) (fun _ dsn _ => .ok dsn) twoDatabases = .ok registry ∧
      List.Forall₂ (DbBuilds (fun _ => (.ok "s3cr3t" : Except Unit String)) fun _ dsn => .ok dsn)
        (twoDatabases.getSection "databases") registry.dbs := by
  obtain ⟨registry, h⟩ : ∃ registry : InMemoryDbRegistry String String,
      buildDbRegistry ConfigAdapter.plainBuiltins (fun _ => (.ok "s3cr3t" : Except Unit String))
        (fun _ dsn => .ok dsn) (fun _ dsn _ => .ok dsn) twoDatabases = .ok registry := ⟨_, rfl⟩
  exact ⟨registry, h, (((buildDbRegistry_exact twoDatabases (by decide) (by decide)).1 registry).mp
    h).1⟩

/-- A registry gives under a ref what is built of the entry of that ref, and nothing else. -/
theorem get_of_buildDbRegistry
    (hdbs : ((config.getSection "databases").map Prod.fst).Nodup)
    (hvectors : ((config.getSection "vector_databases").map Prod.fst).Nodup)
    {registry : InMemoryDbRegistry D V}
    (h : buildDbRegistry B getSecret dbFactory vectorDbFactory config = .ok registry)
    (ref : String) :
    (∀ db, (registry.get B ref : Except (RegistryError X) D) = .ok db ↔
      ∃ entry, (ref, entry) ∈ config.getSection "databases" ∧
        DbBuilds getSecret dbFactory (ref, entry) (ref, db)) ∧
    ∀ vectorDb, (registry.getVectorDb B ref : Except (RegistryError X) V) = .ok vectorDb ↔
      ∃ entry, (ref, entry) ∈ config.getSection "vector_databases" ∧
        VectorBuilds getSecret vectorDbFactory (ref, entry) (ref, vectorDb) := by
  obtain ⟨hitems, hvectorItems⟩ := (buildDbRegistry_eq_ok_iff config hdbs hvectors registry).mp h
  constructor
  · intro db
    rw [← lookup_of_builds (fun _ _ h => h.1) (fun declared item item' h h' => ?_) hdbs hitems]
    · unfold InMemoryDbRegistry.get
      cases registry.dbs.lookup ref <;> simp
    · obtain ⟨ref₁, db₁⟩ := item
      obtain ⟨ref₂, db₂⟩ := item'
      obtain rfl : ref₁ = declared.1 := h.1
      obtain rfl : ref₂ = declared.1 := h'.1
      have hsame := (databaseOf_eq_ok_iff (B := B)).mpr h |>.symm.trans
        (databaseOf_eq_ok_iff.mpr h')
      rw [Except.ok.inj hsame]
  · intro vectorDb
    rw [← lookup_of_builds (fun _ _ h => h.1) (fun declared item item' h h' => ?_) hvectors
      hvectorItems]
    · unfold InMemoryDbRegistry.getVectorDb
      cases registry.vectorDbs.lookup ref <;> simp
    · obtain ⟨ref₁, db₁⟩ := item
      obtain ⟨ref₂, db₂⟩ := item'
      obtain rfl : ref₁ = declared.1 := h.1
      obtain rfl : ref₂ = declared.1 := h'.1
      have hsame := (vectorDatabaseOf_eq_ok_iff (B := B)).mpr h |>.symm.trans
        (vectorDatabaseOf_eq_ok_iff.mpr h')
      rw [Except.ok.inj hsame]

end Exact

end YamlAgno
